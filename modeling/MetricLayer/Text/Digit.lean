import MetricLayer.Number.Power
import MetricLayer.Text.Blank

/-!
# Decimal digits

Every script writes its ten digits in a row, so a digit is known by the zero of its row.
`naturalOf` reads a row of digits and `integer?` an integer with a sign, underscores between digits
and white space around it.

Numerals are bounded: one of more than `digitLimit` digits is neither read nor written, because the
work grows with the square of their number.
-/

namespace MetricLayer.Text

/-- The zeros of the scripts that write decimal digits. -/
def zeroDigits : List Nat :=
  [0x30, 0x660, 0x6f0, 0x7c0, 0x966, 0x9e6, 0xa66, 0xae6, 0xb66, 0xbe6, 0xc66, 0xce6, 0xd66, 0xde6,
   0xe50, 0xed0, 0xf20, 0x1040, 0x1090, 0x17e0, 0x1810, 0x1946, 0x19d0, 0x1a80, 0x1a90, 0x1b50,
   0x1bb0, 0x1c40, 0x1c50, 0xa620, 0xa8d0, 0xa900, 0xa9d0, 0xa9f0, 0xaa50, 0xabf0, 0xff10, 0x104a0,
   0x10d30, 0x11066, 0x110f0, 0x11136, 0x111d0, 0x112f0, 0x11450, 0x114d0, 0x11650, 0x116c0,
   0x11730, 0x118e0, 0x11950, 0x11c50, 0x11d50, 0x11da0, 0x16a60, 0x16ac0, 0x16b50, 0x1d7ce,
   0x1d7d8, 0x1d7e2, 0x1d7ec, 0x1d7f6, 0x1e140, 0x1e2f0, 0x1e950, 0x1fbf0]

/-- The value of a decimal digit of any script. -/
def digit? (c : Char) : Option Nat :=
  (zeroDigits.find? fun z => z ≤ c.toNat && c.toNat ≤ z + 9).map (c.toNat - ·)

/-- A decimal digit of any script. -/
def isDigit (c : Char) : Bool :=
  (digit? c).isSome

/-- The natural number a row of digits writes. -/
def naturalOf (cs : List Char) : Nat :=
  cs.foldl (fun n c => 10 * n + (digit? c).getD 0) 0

/-- The most digits of a numeral. -/
def digitLimit : Nat := 4300

/-- A numeral has too many digits to be read. -/
structure NumeralTooLong where
  digits : Nat
deriving Repr, DecidableEq

/-- The message for a numeral with too many digits, with a remark on the value. -/
def digitLimitMessage (remark : String) : String :=
  "Exceeds the limit (" ++ toString digitLimit ++ " digits) for integer string conversion" ++ remark ++
    "; use sys.set_int_max_str_digits() to increase the limit"

/-- The wording of the fault. -/
def NumeralTooLong.message (f : NumeralTooLong) : String :=
  digitLimitMessage (": value has " ++ toString f.digits ++ " digits")

/-- The natural number a row of digits writes, unless there are too many; zeros in front count. -/
def natural (cs : List Char) : Except NumeralTooLong Nat :=
  if digitLimit < cs.length then .error ⟨cs.length⟩ else .ok (naturalOf cs)

/-- The integer has few enough digits to be written. -/
def isWritable (n : Int) : Bool :=
  n.natAbs < 10 ^ digitLimit

/-- Reads digits, with single underscores allowed between two of them. -/
def underscored? : List Char → Option Nat
  | [] => none
  | c :: cs => if isDigit c then go (naturalOf [c]) cs else none
where
  go (n : Nat) : List Char → Option Nat
    | [] => some n
    | [c] => (digit? c).map (10 * n + ·)
    | '_' :: c :: cs => (digit? c).bind fun d => go (10 * n + d) cs
    | c :: cs => (digit? c).bind fun d => go (10 * n + d) cs

/-- White space around an integer; the separators U+001C to U+001F do not count there. -/
def isIntegerBlank (c : Char) : Bool :=
  isBlank c && !(28 ≤ c.toNat && c.toNat ≤ 31)

/-- Reads an integer: an optional sign and digits of any script, white space around them. -/
def integer? (cs : List Char) : Option Int :=
  match dropBothWhile isIntegerBlank cs with
  | '-' :: ds => (bounded? ds).map fun n => -(n : Int)
  | '+' :: ds => (bounded? ds).map Int.ofNat
  | ds => (bounded? ds).map Int.ofNat
where
  /-- Digits that are not too many, underscores apart. -/
  bounded? (ds : List Char) : Option Nat :=
    if digitLimit < (ds.filter (· != '_')).length then none else underscored? ds

end MetricLayer.Text
