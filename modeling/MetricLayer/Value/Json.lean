import MetricLayer.Value.Basic
import MetricLayer.Text.Digit
import MetricLayer.Text.Half
import MetricLayer.Text.Quoted

/-!
# Values written as JSON

A reader of JSON texts.  Beyond the standard it takes `NaN`, `Infinity` and `-Infinity` as numbers;
control characters in a text are refused, and of a repeated key the last value counts.  Lists and
mappings nest to a limited depth, and integers have a limited number of digits; the first fault in
the text is the one that counts.  The reader recurses on a budget of steps, and the length of the
text is budget enough.
-/

namespace MetricLayer.Json

open MetricLayer.Text MetricLayer.Number

/-- The kinds of values that hold others. -/
inductive Container where
  | list
  | mapping
deriving Repr, DecidableEq

/-- A limit of the reader that a text goes beyond. -/
inductive Limit where
  | depth (innermost : Container)
  | digits (f : NumeralTooLong)
deriving Repr, DecidableEq

/-- The wording of what went beyond a limit. -/
def Limit.message : Limit → String
  | .depth .list => "maximum recursion depth exceeded while decoding a JSON array from a unicode string"
  | .depth .mapping =>
    "maximum recursion depth exceeded while decoding a JSON object from a unicode string"
  | .digits f => f.message

/-- Why a text cannot be read. -/
inductive Fault where
  | malformed
  | beyond (limit : Limit)
deriving Repr, DecidableEq

/-- How deep values nest at most. -/
def depthLimit : Nat := 990

/-- A part that is malformed if it cannot be read. -/
def ofOption {α : Type} (part : Option (α × List Char)) : Except Fault (α × List Char) :=
  part.elim (.error .malformed) .ok

/-- White space between tokens. -/
def isSpace (c : Char) : Bool :=
  c == ' ' || c == '\t' || c == '\n' || c == '\r'

/-- The text without white space in front. -/
def skip (cs : List Char) : List Char :=
  cs.dropWhile isSpace

/-- The value of a hexadecimal digit. -/
def hexValue? (c : Char) : Option Nat :=
  if '0' ≤ c ∧ c ≤ '9' then some (c.toNat - 48)
  else if 'a' ≤ c ∧ c ≤ 'f' then some (c.toNat - 87)
  else if 'A' ≤ c ∧ c ≤ 'F' then some (c.toNat - 55)
  else none

/-- The number four hexadecimal digits write. -/
def hex4? : List Char → Option (Nat × List Char)
  | a :: b :: c :: d :: cs => do
    let n := ((← hexValue? a) * 16 + (← hexValue? b)) * 256 + (← hexValue? c) * 16 + (← hexValue? d)
    some (n, cs)
  | _ => none

/-- The character of a pair of code units. -/
def pairChar? (high low : Nat) : Option Char :=
  if 0xd800 ≤ high ∧ high < 0xdc00 ∧ 0xdc00 ≤ low ∧ low < 0xe000 then
    some (Char.ofNat (0x10000 + (high - 0xd800) * 0x400 + (low - 0xdc00)))
  else none

/-- The character that an escaped code unit or an escaped pair of them writes; `cs` starts with the
digits of the first. -/
def units? (cs : List Char) : Option (Char × List Char) := do
  let (high, rest) ← hex4? cs
  let paired := match rest with
    | '\\' :: 'u' :: ds => (hex4? ds).bind fun (low, es) => (pairChar? high low).map (·, es)
    | _ => none
  some (paired.getD (unitChar high, rest))

/-- The character a one-letter escape stands for. -/
def escape? : Char → Option Char
  | '"' => some '"'
  | '\\' => some '\\'
  | '/' => some '/'
  | 'b' => some '\x08'
  | 'f' => some '\x0c'
  | 'n' => some '\n'
  | 'r' => some '\r'
  | 't' => some '\t'
  | _ => none

/-- Reads a text after its opening quote. -/
def text? : Nat → List Char → Option (List Char × List Char)
  | 0, _ => none
  | _, [] => none
  | _, '"' :: cs => some ([], cs)
  | fuel + 1, '\\' :: 'u' :: cs => do
    let (c, cs) ← units? cs
    let (body, rest) ← text? fuel cs
    some (c :: body, rest)
  | fuel + 1, '\\' :: c :: cs => do
    let c ← escape? c
    let (body, rest) ← text? fuel cs
    some (c :: body, rest)
  | fuel + 1, c :: cs =>
    if c.toNat < 32 then none
    else do
      let (body, rest) ← text? fuel cs
      some (c :: body, rest)

/-- The places after the point, when a digit follows it. -/
def fraction (cs : List Char) : List Char × List Char :=
  match cs with
  | '.' :: ds =>
    let places := ds.takeWhile Char.isDigit
    if places.isEmpty then ([], cs) else (places, ds.dropWhile Char.isDigit)
  | _ => ([], cs)

/-- The exponent, when it has a digit. -/
def exponent (cs : List Char) : Option Int × List Char :=
  match cs with
  | c :: ds =>
    if c == 'e' || c == 'E' then
      let (negative, ds) := match ds with
        | '-' :: es => (true, es)
        | '+' :: es => (false, es)
        | es => (false, es)
      let digits := ds.takeWhile Char.isDigit
      if digits.isEmpty then (none, cs)
      else
        let e : Int := naturalOf digits
        (some (if negative then -e else e), ds.dropWhile Char.isDigit)
    else (none, cs)
  | [] => (none, cs)

/-- Reads a number without its sign. -/
def number (negative : Bool) (cs : List Char) : Except Fault (Value × List Char) :=
  let (whole, rest) := match cs with
    | '0' :: ds => (['0'], ds)
    | _ => (cs.takeWhile Char.isDigit, cs.dropWhile Char.isDigit)
  if whole.isEmpty then .error .malformed
  else
    let (places, rest) := fraction rest
    let (power, rest) := exponent rest
    if places.isEmpty && power.isNone then
      match natural whole with
      | .ok n => .ok (.int (if negative then -(n : Int) else n), rest)
      | .error f => .error (.beyond (.digits f))
    else
      let x := Binary64.ofDecimal negative (naturalOf (whole ++ places)) (power.getD 0 - places.length)
      .ok (.float x, rest)

/-- The words that stand for values. -/
def wordValues : List (String × Value) :=
  [("null", .null), ("true", .bool true), ("false", .bool false), ("NaN", .float .nan),
   ("Infinity", .float (.infinite false)), ("-Infinity", .float (.infinite true))]

/-- Reads a word that stands for a value. -/
def word? (cs : List Char) : Option (Value × List Char) :=
  wordValues.findSome? fun (w, v) => (w.toList.isPrefixOf? cs).map (v, ·)

/-- Reads a text after its opening quote. -/
def text (cs : List Char) : Except Fault (String × List Char) :=
  (ofOption (text? (cs.length + 1) cs)).map fun (s, rest) => (String.ofList s, rest)

mutual

/-- Reads a value at the front of a text; the second number is the depth that is left. -/
def value : Nat → Nat → List Char → Except Fault (Value × List Char)
  | 0, _, _ => .error .malformed
  | _ + 1, _, '"' :: cs => (text cs).map fun (s, rest) => (.text s, rest)
  | _ + 1, 0, '[' :: _ => .error (.beyond (.depth .list))
  | _ + 1, 0, '\x7b' :: _ => .error (.beyond (.depth .mapping))
  | fuel + 1, depth + 1, '[' :: cs =>
    match skip cs with
    | ']' :: rest => .ok (.list [], rest)
    | cs => (items fuel depth cs).map fun (vs, rest) => (.list vs, rest)
  | fuel + 1, depth + 1, '\x7b' :: cs =>
    match skip cs with
    | '\x7d' :: rest => .ok (.object [], rest)
    | cs => (members fuel depth cs).map fun (es, rest) => (.object (mergeEntries es), rest)
  | _ + 1, _, cs =>
    match word? cs, cs with
    | some found, _ => .ok found
    | none, '-' :: ds => number true ds
    | none, _ => number false cs

/-- Reads the values of a list up to its closing bracket. -/
def items : Nat → Nat → List Char → Except Fault (List Value × List Char)
  | 0, _, _ => .error .malformed
  | fuel + 1, depth, cs => do
    let (v, rest) ← value fuel depth cs
    match skip rest with
    | ']' :: rest => .ok ([v], rest)
    | ',' :: rest =>
      let (vs, rest) ← items fuel depth (skip rest)
      .ok (v :: vs, rest)
    | _ => .error .malformed

/-- Reads the entries of a mapping up to its closing brace. -/
def members : Nat → Nat → List Char → Except Fault (List (String × Value) × List Char)
  | 0, _, _ => .error .malformed
  | fuel + 1, depth, '"' :: cs => do
    let (key, rest) ← text cs
    match skip rest with
    | ':' :: rest =>
      let (v, rest) ← value fuel depth (skip rest)
      match skip rest with
      | '\x7d' :: rest => .ok ([(key, v)], rest)
      | ',' :: rest =>
        let (es, rest) ← members fuel depth (skip rest)
        .ok ((key, v) :: es, rest)
      | _ => .error .malformed
    | _ => .error .malformed
  | _ + 1, _, _ => .error .malformed

end

/-- Reads a text that holds one value and white space around it. -/
def read (cs : List Char) : Except Fault Value := do
  let (v, rest) ← value (cs.length + 1) depthLimit (skip cs)
  if (skip rest).isEmpty then .ok v else .error .malformed

/-! ## Halves in JSON texts -/

/-- Goes on with a JSON text after what is done, in reverse, so that it escapes no pair and no half. -/
def unescapeFrom : Nat → List Char → List Char → List Char
  | 0, done, cs => done.reverse ++ cs
  | fuel + 1, done, '\\' :: 'u' :: cs =>
    match (units? cs).filter fun found => 0xd800 ≤ found.1.toNat with
    | some (c, rest) => unescapeFrom fuel (c :: done) rest
    | none => unescapeFrom fuel ('u' :: '\\' :: done) cs
  | fuel + 1, done, '\\' :: c :: cs => unescapeFrom fuel (c :: '\\' :: done) cs
  | fuel + 1, done, c :: cs => unescapeFrom fuel (c :: done) cs
  | _ + 1, done, [] => done.reverse

/-- A JSON text that escapes no pair and no half. -/
def unescapeHalves (s : String) : String :=
  within (fun cs => unescapeFrom cs.length [] cs) s

/-- A JSON text that escapes every half. -/
def escapeHalves (s : String) : String :=
  within (List.flatMap fun c =>
    if isHalf (codePoint c) then '\\' :: 'u' :: hexDigits 4 (codePoint c) else [c]) s

end MetricLayer.Json
