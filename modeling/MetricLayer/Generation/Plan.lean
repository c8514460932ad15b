import MetricLayer.Generation.Prompt
import MetricLayer.Selection.Compile
import MetricLayer.Catalog.Registry

/-!
# Plans by keyword

A plan is the selection of the dimensions and measures whose names a request mentions, in the order
in which it mentions them.  A request for the top rows also orders by the first measure and limits
the rows.
-/

namespace MetricLayer.Plan

open MetricLayer.Text

/-- Why a request has no plan or no statement. -/
inductive Fault where
  | noMeasure
  | numeralTooLong (f : NumeralTooLong)
  | limitZero
  | notCompiled (f : CompileFault)
deriving Repr, DecidableEq

/-- Where a kind of fault in a selection is explained. -/
def explanation (kind : Selection.FaultKind) : String :=
  joinWith "/" ["https:", "", "errors.pydantic.dev", "2.14", "v", kind.name]

/-- The message for a limit of zero. -/
def limitZeroMessage : String :=
  let kind := Selection.FaultKind.belowOne
  "1 validation error for QuerySpec\nlimit\n  Input should be greater than or equal to 1 [type=" ++
    kind.name ++ ", input_value=0, input_type=int]\n    For further information visit " ++
    explanation kind

/-- The wording of a fault. -/
def Fault.message : Fault → String
  | .noMeasure => "list index out of range"
  | .numeralTooLong f => f.message
  | .limitZero => limitZeroMessage
  | .notCompiled f => f.message

/-- A name with the offset at which a request mentions it. -/
structure Mention where
  offset : Nat
  name : String
deriving Repr, DecidableEq

/-- Mentions in the order of the request, then of the names. -/
def Mention.le (a b : Mention) : Bool :=
  a.offset < b.offset || (a.offset == b.offset && textLe a.name b.name)

/-- Where a lower-case text mentions a name first, in any letter case and as whole words. -/
def mentionOf? (text : List Char) (name : String) : Option Nat :=
  let low := lower name.toList
  if low.isEmpty then none
  else ((places text).find? fun p =>
    p.startsWord && (low.isPrefixOf? p.rest).any endsWord).map Place.offset

/-- Where a lower-case text mentions one of several names first. -/
def firstMention? (text : List Char) (names : List String) : Option Nat :=
  (names.filterMap (mentionOf? text)).min?

/-- The name with spaces for underscores. -/
def spaced (name : String) : String :=
  within (fun cs => cs.map fun c => if c = '_' then ' ' else c) name

/-- The mentions of dimensions, by alias or source. -/
def dimensionMentions (c : Catalog) (text : List Char) : List Mention :=
  c.namedDimensions.filterMap fun d =>
    (firstMention? text [d.aliasName, d.source, spaced d.source]).map (⟨·, d.aliasName⟩)

/-- The entries mentioned by alias, each with its mention. -/
def entryMentions (c : Catalog) (text : List Char) : List (Mention × Entry) :=
  c.namedEntries.filterMap fun e =>
    (firstMention? text [e.aliasName, spaced e.aliasName]).map fun n => (⟨n, e.aliasName⟩, e)

/-- The mentions of measures by source; the first entry of a measure stands for it.  Sources in a
given list are left out. -/
def sourceMentions (c : Catalog) (text : List Char) (known : List String) : List Mention :=
  c.measures.filterMap fun m =>
    if known.contains m.source || m.source == rowSource then none
    else m.entries.head?.bind fun e =>
      (firstMention? text [m.source, spaced m.source]).map (⟨·, e.aliasName⟩)

/-- The mentions of measures, by alias or source. -/
def measureMentions (c : Catalog) (text : List Char) : List Mention :=
  let named := entryMentions c text
  named.map (·.1) ++ sourceMentions c text (named.map fun m => m.2.source)

/-- The names in the order of their mentions. -/
def ordered (mentions : List Mention) : List String :=
  (mentions.mergeSort Mention.le).map Mention.name

/-- The digits after the word top. -/
def topAt? (p : Place) : Option (List Char) := do
  if !p.startsWord then none
  let rest ← (letters? "top".toList p.rest).bind Sql.afterBlank?
  let digits := rest.takeWhile isDigit
  if digits.isEmpty || !endsWord (rest.dropWhile isDigit) then none else some digits

/-- The number of top rows a request asks for. -/
def top? (request : String) : Except NumeralTooLong (Option Nat) :=
  match (places request.toList).findSome? topAt? with
  | none => .ok none
  | some digits => (natural digits).map some

/-- The plan for a request; a request that mentions nothing has none. -/
def ofRequest (c : Catalog) (request : String) : Except Fault (Option Selection) := do
  let text := lower request.toList
  let dimensions := ordered (dimensionMentions c text)
  let measures := ordered (measureMentions c text)
  if dimensions.isEmpty && measures.isEmpty then return none
  let measures ← match measures, c.measureAliases with
    | [], [] => .error .noMeasure
    | [], name :: _ => .ok [name]
    | _, _ => .ok measures
  let limit ← (top? request).mapError .numeralTooLong
  if limit = some 0 then .error .limitZero
  return some {
    dimensions := Selection.trimAliases dimensions
    measures := Selection.trimAliases measures
    ordering := if limit.isSome then (measures.take 1).map fun m => .text (m ++ " DESC") else []
    limit }

/-- The reply to a prompt: the statement of the plan for its request. -/
def reply (c : Catalog) (prompt : String) : Except Fault String := do
  match ← ofRequest c (Prompt.requestIn prompt) with
  | none => return "No " ++ c.table ++ " columns or measures match this request."
  | some s => return (← (s.sql c).mapError .notCompiled) ++ ";"

end MetricLayer.Plan
