import MetricLayer.Value.Json
import MetricLayer.Value.Text

/-!
# Values in flow notation

The notation of catalog files: lists in brackets and mappings in braces as in JSON, but a scalar needs
no quotes, a comma may stand before a closing bracket, and an entry of a mapping may have no value.  A
scalar without quotes is a word for null or a truth value, a number, or else a text.  Tabs are no
white space between tokens, a key is short and stands on one line with its colon, and values nest to
a limited depth.
-/

namespace MetricLayer.Flow

open MetricLayer.Text MetricLayer.Number

/-- Why a text cannot be read. -/
inductive Fault where
  | noText
  | noToken
  | misplacedToken
  | tooDeep
  | numeralTooLong (f : NumeralTooLong)
deriving Repr, DecidableEq

/-- How deep values nest at most. -/
def depthLimit : Nat := 488

/-- How many characters a key takes at most, up to its colon. -/
def keyLimit : Nat := 1024

/-- A character of the notation: no control character but the line ends, and no character that
stands for none. -/
def isCharacter (c : Char) : Bool :=
  let n := c.toNat
  "\t\n\r\x85".toList.contains c || (32 ≤ n && n < 127) || (160 ≤ n && n < 0xfffe) || 0x10000 ≤ n

/-- White space between tokens. -/
def isSpace (c : Char) : Bool :=
  c == ' ' || c == '\n' || c == '\r'

/-- The text without white space in front. -/
def skip (cs : List Char) : List Char :=
  cs.dropWhile isSpace

/-- A character with a meaning of its own between tokens. -/
def isMark (c : Char) : Bool :=
  c == ',' || c == '[' || c == ']' || c == '\x7b' || c == '\x7d'

/-- A character that starts no scalar without quotes. -/
def isReserved (c : Char) : Bool :=
  "#&*!|>%@`\t'".toList.contains c

/-- A colon that ends a scalar: white space or a mark follows it. -/
def isColon (c : Char) (rest : List Char) : Bool :=
  c == ':' && rest.head?.all fun d => isBlank d || isMark d

/-- A scalar without quotes, and the text after it. -/
def plain : List Char → List Char × List Char
  | [] => ([], [])
  | c :: cs =>
    if isMark c || c == '\t' || isColon c cs then ([], c :: cs)
    else
      let (body, rest) := plain cs
      (c :: body, rest)

/-- The words for null and the truth values. -/
def wordValues : List (List String × Value) :=
  [(["~", "null", "Null", "NULL"], .null),
   (["yes", "Yes", "YES", "true", "True", "TRUE", "on", "On", "ON"], .bool true),
   (["no", "No", "NO", "false", "False", "FALSE", "off", "Off", "OFF"], .bool false)]

/-- A digit or an underscore. -/
def isFigure (c : Char) : Bool :=
  c.isDigit || c == '_'

/-- The digits of a row with underscores. -/
def figures (cs : List Char) : List Char :=
  cs.filter Char.isDigit

/-- The exponent after a point with its places, none when there is something else. -/
def exponent? : List Char → Option Int
  | [] => some 0
  | e :: sign :: ds =>
    if (e == 'e' || e == 'E') && !ds.isEmpty && ds.all Char.isDigit then
      if sign == '-' then some (-(naturalOf ds : Int))
      else if sign == '+' then some (naturalOf ds)
      else none
    else none
  | _ => none

/-- The number a scalar without its sign writes; a zero in front means base eight. -/
def number? (negative : Bool) (cs : List Char) : Option (Except Fault Value) :=
  let whole := cs.takeWhile isFigure
  let signed (n : Nat) : Value := .int (if negative then -(n : Int) else n)
  match whole, cs.dropWhile isFigure with
  | '_' :: _, _ => none
  | [], _ => none
  | ['0'], [] => some (.ok (signed 0))
  | '0' :: ds, [] =>
    if ds.all fun c => c == '_' || '0' ≤ c && c ≤ '7' then
      some (.ok (signed ((figures ds).foldl (fun n c => 8 * n + (c.toNat - 48)) 0)))
    else none
  | ds, [] => some (match natural (figures ds) with
    | .ok n => .ok (signed n)
    | .error f => .error (.numeralTooLong f))
  | ds, '.' :: rest =>
    let places := figures (rest.takeWhile isFigure)
    (exponent? (rest.dropWhile isFigure)).map fun e =>
      .ok (.float (Binary64.ofDecimal negative (naturalOf (figures ds ++ places)) (e - places.length)))
  | _, _ => none

/-- The value of a scalar without quotes. -/
def resolve (cs : List Char) : Except Fault Value :=
  let s := String.ofList cs
  match wordValues.find? fun w => w.1.contains s with
  | some (_, v) => .ok v
  | none =>
    let number := match cs with
      | '-' :: ds => number? true ds
      | '+' :: ds => number? false ds
      | _ => number? false cs
    number.getD (.ok (.text s))

/-- The fault of a text that goes on with something else than what should follow. -/
def unexpected (cs : List Char) : Fault :=
  if cs.head?.any isReserved then .noToken else .misplacedToken

/-- The text from `cs` up to `rest` can be a key: it is short and on one line. -/
def isKey (cs rest : List Char) : Bool :=
  let taken := cs.length - rest.length
  taken ≤ keyLimit && !(cs.take taken).contains '\n'

mutual

/-- Reads a value at the front of a text; the second number is the depth that is left. -/
def value : Nat → Nat → List Char → Except Fault (Value × List Char)
  | 0, _, _ => .error .misplacedToken
  | _ + 1, _, [] => .error .misplacedToken
  | _ + 1, _, '"' :: cs =>
    match Json.text cs with
    | .ok (s, rest) => .ok (.text s, rest)
    | .error _ => .error .noToken
  | _ + 1, 0, '[' :: _ => .error .tooDeep
  | _ + 1, 0, '\x7b' :: _ => .error .tooDeep
  | fuel + 1, depth + 1, '[' :: cs =>
    (items fuel depth (skip cs)).map fun (vs, rest) => (.list vs, rest)
  | fuel + 1, depth + 1, '\x7b' :: cs =>
    (members fuel depth (skip cs)).map fun (es, rest) => (.object (mergeEntries es), rest)
  | _ + 1, _, c :: cs =>
    if isReserved c || isMark c || isColon c cs then .error (unexpected (c :: cs))
    else
      let (body, rest) := plain (c :: cs)
      (resolve (trimEnd body)).map fun v => (v, rest)

/-- Reads the values of a list up to its closing bracket. -/
def items : Nat → Nat → List Char → Except Fault (List Value × List Char)
  | 0, _, _ => .error .misplacedToken
  | _ + 1, _, ']' :: rest => .ok ([], rest)
  | fuel + 1, depth, cs => do
    let (v, rest) ← value fuel depth cs
    match skip rest with
    | ']' :: rest => .ok ([v], rest)
    | ',' :: rest =>
      let (vs, rest) ← items fuel depth (skip rest)
      .ok (v :: vs, rest)
    | rest => .error (unexpected rest)

/-- Reads the entries of a mapping up to its closing brace. -/
def members : Nat → Nat → List Char → Except Fault (List (String × Value) × List Char)
  | 0, _, _ => .error .misplacedToken
  | _ + 1, _, '\x7d' :: rest => .ok ([], rest)
  | fuel + 1, depth, cs => do
    let (key, rest) ← value fuel depth cs
    let (v, rest) ← match skip rest with
      | ':' :: after =>
        if isKey cs (skip rest) then optional fuel depth (skip after) else .error .misplacedToken
      | rest => .ok (.null, rest)
    match skip rest with
    | '\x7d' :: rest => .ok ([(key.display, v)], rest)
    | ',' :: rest =>
      let (es, rest) ← members fuel depth (skip rest)
      .ok ((key.display, v) :: es, rest)
    | rest => .error (unexpected rest)

/-- Reads the value of an entry; one that is left out is null. -/
def optional : Nat → Nat → List Char → Except Fault (Value × List Char)
  | 0, _, _ => .error .misplacedToken
  | _ + 1, _, ',' :: rest => .ok (.null, ',' :: rest)
  | _ + 1, _, '\x7d' :: rest => .ok (.null, '\x7d' :: rest)
  | fuel + 1, depth, cs => value fuel depth cs

end

/-- Reads a text that holds one value and white space around it.  Every character takes at most two
steps of the budget. -/
def read (cs : List Char) : Except Fault Value := do
  let (v, rest) ← value (2 * cs.length + 2) depthLimit (skip cs)
  if (skip rest).isEmpty then .ok v else .error (unexpected (skip rest))

end MetricLayer.Flow
