import MetricLayer.Value.Basic
import MetricLayer.Text.Digit
import MetricLayer.Text.Pieces

/-!
# The text of a value

`Value.literal` writes a value so that its kind shows, texts in quotes; `Value.display` writes a
value for a reader, a text as it is.  Inside a list or a mapping every value is a literal.

A value with an integer of too many digits in it has no text (`Value.hasDisplay`).
-/

namespace MetricLayer

open MetricLayer.Text MetricLayer.Number

/-- Bytes as a literal; the byte values with a visible form stand as they are. -/
def bytesLiteral (bs : List UInt8) : String :=
  let cs := bs.map fun b => Char.ofNat b.toNat
  let quote := quoteFor cs
  let body := cs.flatMap fun c =>
    if c.toNat < 127 then quotedChar quote c else '\\' :: 'x' :: hexDigits 2 c.toNat
  String.ofList ('b' :: quote :: body ++ [quote])

/-- The parts of a duration as a literal. -/
def Duration.literal (d : Duration) : String :=
  let part (name : String) (n : Int) := if n = 0 then [] else [name ++ "=" ++ toString n]
  let parts := part "days" d.days ++ part "seconds" d.seconds ++ part "microseconds" d.micros
  "datetime.timedelta(" ++ (if parts.isEmpty then "0" else joinWith ", " parts) ++ ")"

/-- An offset from universal time as a literal. -/
def offsetLiteral (minutes : Int) : String :=
  if minutes = 0 then "datetime.timezone.utc"
  else "datetime.timezone(" ++ (Duration.mk (minutes * 60000000)).literal ++ ")"

/-- A timestamp as a literal; seconds and microseconds that are zero at the end are left out. -/
def Timestamp.literal (t : Timestamp) : String :=
  let clock :=
    if t.microsecond != 0 then [t.second, t.microsecond]
    else if t.second != 0 then [t.second] else []
  let parts := ([t.date.year, t.date.month, t.date.day, t.hour, t.minute] ++ clock).map toString
  let zone := match t.offset with
    | none => []
    | some m => ["tzinfo=" ++ offsetLiteral m]
  "datetime.datetime(" ++ joinWith ", " (parts ++ zone) ++ ")"

namespace Value

mutual

/-- The value as a literal. -/
def literal : Value → String
  | .null => "None"
  | .bool b => if b then "True" else "False"
  | .int n => toString n
  | .float x => x.text
  | .text s => quoted s
  | .list xs => "[" ++ joinWith ", " (literals xs) ++ "]"
  | .object es => "\x7b" ++ joinWith ", " (entryLiterals es) ++ "\x7d"
  | .decimal d => "Decimal('" ++ d.text ++ "')"
  | .bytes bs => bytesLiteral bs
  | .date d => "datetime.date(" ++ joinWith ", " ([d.year, d.month, d.day].map toString) ++ ")"
  | .timestamp t => t.literal
  | .duration d => d.literal
  | .uuid u => "UUID('" ++ u.text ++ "')"

/-- The literals of several values. -/
def literals : List Value → List String
  | [] => []
  | v :: vs => literal v :: literals vs

/-- The entries of a mapping as literals. -/
def entryLiterals : List (String × Value) → List String
  | [] => []
  | (k, v) :: es => (quoted k ++ ": " ++ literal v) :: entryLiterals es

end

mutual

/-- The integers in the value have few enough digits to be written. -/
def hasDisplay : Value → Bool
  | .int n => Text.isWritable n
  | .list xs => haveDisplay xs
  | .object es => entriesHaveDisplay es
  | _ => true

/-- The integers in several values have few enough digits to be written. -/
def haveDisplay : List Value → Bool
  | [] => true
  | v :: vs => hasDisplay v && haveDisplay vs

/-- The integers in the values of a mapping have few enough digits to be written. -/
def entriesHaveDisplay : List (String × Value) → Bool
  | [] => true
  | (_, v) :: es => hasDisplay v && entriesHaveDisplay es

end

/-- The value for a reader. -/
def display : Value → String
  | .text s => s
  | .decimal d => d.text
  | .date d => d.text
  | .timestamp t => t.textWith ' '
  | .duration d => d.text
  | .uuid u => u.text
  | v => v.literal

@[simp] theorem display_text (s : String) : display (.text s) = s := rfl

end Value

end MetricLayer
