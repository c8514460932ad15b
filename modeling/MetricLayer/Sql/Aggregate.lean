import MetricLayer.Sql.Alias

/-!
# Aggregate calls

`singleCall?` reads an expression that is one aggregate call, `embeddedCalls` every call in an
expression.  The argument of a call is read without DISTINCT, without parentheses around it and
without a cast around it.  `canonical` is the form in which expressions are compared.
-/

namespace MetricLayer.Sql

open MetricLayer.Text

/-- The aggregate functions, in lower case. -/
def aggregateNames : List String :=
  ["sum", "avg", "mean", "count", "min", "max", "median", "stddev", "variance", "any_value"]

/-- An aggregate call in an expression. -/
structure AggregateCall where
  /-- The function in upper case. -/
  function : String
  /-- The function as catalogs name it. -/
  kind : String
  /-- What is aggregated. -/
  argument : List Char
  /-- Equal values count once. -/
  distinct : Bool
deriving Repr, DecidableEq

/-- Reads an aggregate function and its opening parenthesis at a place: the length of the name, and
the text after the parenthesis. -/
def callStart? (p : Place) : Option (Nat × List Char) :=
  if p.startsWord then
    aggregateNames.findSome? fun name =>
      match (letters? name.toList p.rest).map (·.dropWhile isBlank) with
      | some ('(' :: rest) => some (name.length, rest)
      | _ => none
  else none

/-- An aggregate function is called. -/
def hasCall (masked : List Char) : Bool :=
  (places masked).any fun p => (callStart? p).isSome

/-- The text after DISTINCT and white space. -/
def afterDistinct? (cs : List Char) : Option (List Char) :=
  (letters? "distinct".toList cs).bind afterBlank?

/-- What may stand for a type in a cast. -/
def isTypeChar (c : Char) : Bool :=
  isWord c || isBlank c || c == '(' || c == ')' || c == ','

/-- A type between white space and the parenthesis that ends a cast. -/
def isCastType (cs : List Char) : Bool :=
  match cs with
  | [] => false
  | b :: type => isBlank b && 2 ≤ type.length && type.getLast? == some ')' && type.all isTypeChar

/-- What a cast is applied to: the text before the last AS that a type follows. -/
def castArgument? (cs : List Char) : Option (List Char) := do
  let rest := (letters? "try_".toList cs).getD cs
  match (← letters? "cast".toList rest).dropWhile isBlank with
  | '(' :: body =>
    let stop ← ((places body).filterMap fun p => do
      let rest ← afterBlank? p.rest
      let type ← letters? ['a', 's'] rest
      if isCastType type then some p.offset else none).getLast?
    some (body.take stop)
  | _ => none

/-- The aggregate functions as catalogs name them. -/
def functionKinds : List (String × String) :=
  [("sum", "sum"), ("avg", "avg"), ("mean", "avg"), ("count", "count"), ("min", "min"),
   ("max", "max")]

/-- The call of a function, given as written, with the text between its parentheses. -/
def makeCall (function inner : List Char) : AggregateCall :=
  let inner := trim inner
  let distinct := (afterDistinct? inner).isSome
  let inner := unwrap ((afterDistinct? inner).getD inner)
  let argument := ((castArgument? inner).map unwrap).getD inner
  let name := String.ofList (lower function)
  let kind := (functionKinds.lookup name).getD name
  { function := String.ofList (upper function)
    kind := if kind = "count" ∧ distinct then "count_distinct" else kind
    argument
    distinct }

/-- The call, if the expression is exactly one aggregate call. -/
def singleCall? (cs : List Char) : Option AggregateCall := do
  let cs := unwrap cs
  let masked := mask cs
  let (length, rest) ← callStart? ⟨0, none, masked⟩
  let opened := masked.length - rest.length - 1
  if (closing? 0 (masked.drop opened)).map (· + opened) = some (cs.length - 1) then
    some (makeCall (masked.take length) (cs.drop (opened + 1)).dropLast)
  else none

/-- The aggregate calls in an expression, from left to right; a call that is never closed is none. -/
def embeddedCalls (cs : List Char) : List AggregateCall :=
  let masked := mask cs
  (places masked).filterMap fun p => do
    let (length, rest) ← callStart? p
    let opened := masked.length - rest.length - 1
    let closed ← closing? 0 (masked.drop opened)
    some (makeCall (p.rest.take length) ((cs.drop (opened + 1)).take (closed - 1)))

/-- The text without the matches of a pattern that do not overlap. -/
def eraseFrom (pattern : Place → Option (List Char)) : Nat → List Place → List Char
  | _, [] => []
  | next, p :: ps =>
    if p.offset < next then eraseFrom pattern next ps
    else match pattern p, p.rest with
      | some after, _ => eraseFrom pattern (p.offset + (p.rest.length - after.length)) ps
      | none, c :: _ => c :: eraseFrom pattern next ps
      | none, [] => []

/-- The text without the matches of a pattern that do not overlap. -/
def erase (pattern : Place → Option (List Char)) (cs : List Char) : List Char :=
  eraseFrom pattern 0 (places cs)

/-- A quoted name with its point. -/
def quotedQualifier? (p : Place) : Option (List Char) :=
  match p.rest with
  | '"' :: cs =>
    match quotedBody? '"' cs with
    | some ([], _) => none
    | some (_, rest) => afterPoint? rest
    | none => none
  | _ => none

/-- A word with its point, before another name. -/
def wordQualifier? (p : Place) : Option (List Char) :=
  match p.rest with
  | c :: cs =>
    if p.startsWord && isNameStart c then
      (afterPoint? (cs.dropWhile isWord)).filter fun rest =>
        rest.head?.any fun d => isNameStart d || d == '"'
    else none
  | [] => none

/-- The form in which expressions are compared: without qualifiers, double quotes and white space,
in upper case. -/
def canonical (cs : List Char) : List Char :=
  let bare := erase wordQualifier? (erase quotedQualifier? cs)
  upper ((bare.filter (· != '"')).filter fun c => !isBlank c)

end MetricLayer.Sql
