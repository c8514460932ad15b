import MetricLayer.Value.Basic
import MetricLayer.Selection.Numeral

/-!
# Selections

A selection says by alias what a query computes: dimensions and measures, with filters, an ordering
and a limit.  `Selection.ofFields` reads one from loosely typed fields; a number may be written as a
text or a whole float there, and every fault is reported with the path to it.  A decimal number that
is not finite ends the reading at once.
-/

namespace MetricLayer

open MetricLayer.Text

/-- An entry of an ordering: a position among the selected items, or a text. -/
inductive OrderKey where
  | position (n : Int)
  | text (s : String)
deriving Repr, DecidableEq

/-- What a query computes, by alias. -/
structure Selection where
  dimensions : List String := []
  measures : List String := []
  filters : List String := []
  ordering : List OrderKey := []
  limit : Option Nat := none
deriving Repr, DecidableEq, Inhabited

/-- The position an entry stands for. -/
def OrderKey.position? : OrderKey → Option Int
  | .position n => some n
  | .text _ => none

/-- The numbers that a selection is written with: the last of its groups, positions in its ordering, and its
limit. -/
def Selection.numbers (s : Selection) : List Int :=
  s.dimensions.length :: (s.ordering.filterMap OrderKey.position? ++ s.limit.toList.map Int.ofNat)

/-- Nothing is selected. -/
def Selection.isEmpty (s : Selection) : Bool :=
  s.dimensions.isEmpty && s.measures.isEmpty

namespace Selection

/-- A step of the path to a fault. -/
inductive Step where
  | field (name : String)
  | index (n : Nat)
deriving Repr, DecidableEq

/-- What is wrong with a field or an element of it. -/
inductive FaultKind where
  | notList
  | notText
  | notUtf8
  | notInteger
  | fractional
  | notFinite
  | tooLarge
  | unreadable
  | belowOne
deriving Repr, DecidableEq

/-- The name of a kind of fault. -/
def FaultKind.name : FaultKind → String
  | .notList => "list_type"
  | .notText => "string_type"
  | .notUtf8 => "string_unicode"
  | .notInteger => "int_type"
  | .fractional => "int_from_float"
  | .notFinite => "finite_number"
  | .tooLarge => "int_parsing_size"
  | .unreadable => "int_parsing"
  | .belowOne => "greater_than_equal"

/-- A fault with the path to it. -/
structure Fault where
  path : List Step
  kind : FaultKind
deriving Repr, DecidableEq

/-- Why fields are no selection. -/
inductive Refusal where
  | invalid (faults : List Fault)
  | notFinite (d : Number.Decimal)
deriving Repr, DecidableEq

/-- Reads an integer in ASCII digits. -/
def readNumeral (s : String) : Except FaultKind Int :=
  (numeral s.toList).mapError fun
    | .unreadable => .unreadable
    | .tooLong => .tooLarge

/-- The text of bytes. -/
def bytesText? (bs : List UInt8) : Option String :=
  String.fromUTF8? (ByteArray.mk bs.toArray)

/-- Reads an integer; a number must be whole. -/
def readInteger : Value → Except FaultKind Int
  | .bool b => .ok (if b then 1 else 0)
  | .int n => .ok n
  | .text s => if hasHalf s then .error .notUtf8 else readNumeral s
  | .bytes bs => ((bytesText? bs).map readNumeral).getD (.error .unreadable)
  | .float x =>
    match x.integral?, x with
    | some n, _ => if -2 ^ (63 : Nat) < n ∧ n < 2 ^ (63 : Nat) then .ok n else .error .tooLarge
    | none, .finite .. => .error .fractional
    | none, _ => .error .notFinite
  | .decimal (.finite s digits e) =>
    let n := digits * 10 ^ e.toNat / 10 ^ (-e).toNat
    if n * 10 ^ (-e).toNat = digits * 10 ^ e.toNat then .ok (if s then -(n : Int) else n)
    else .error .fractional
  | .decimal _ => .error .notFinite
  | _ => .error .notInteger

/-- Reads a text, which holds no halves of characters. -/
def readText : Value → Except FaultKind String
  | .text s => if hasHalf s then .error .notUtf8 else .ok s
  | .bytes bs => ((bytesText? bs).map Except.ok).getD (.error .notUtf8)
  | _ => .error .notText

/-- Reads an entry of an ordering: as an integer or as a text, as which it is given. -/
def readOrderKey (path : List Step) (v : Value) : Except (List Fault) OrderKey :=
  match v with
  | .text s =>
    if hasHalf s then refuse .notUtf8 .notUtf8 else .ok (.text s)
  | _ =>
    match readInteger v, readText v with
    | .ok n, _ => .ok (.position n)
    | _, .ok s => .ok (.text s)
    | .error k, .error l => refuse k l
where
  /-- The faults of both readings. -/
  refuse (k l : FaultKind) : Except (List Fault) OrderKey := .error [⟨path ++ [.field "int"], k⟩, ⟨path ++ [.field "str"], l⟩]

/-- Reads every element and collects all faults. -/
def readAll {α : Type} (read : Nat → Value → Except (List Fault) α) :
    Nat → List Value → Except (List Fault) (List α)
  | _, [] => .ok []
  | n, v :: vs =>
    match read n v, readAll read (n + 1) vs with
    | .ok a, .ok as => .ok (a :: as)
    | .ok _, .error fs => .error fs
    | .error fs, .ok _ => .error fs
    | .error fs, .error gs => .error (fs ++ gs)

/-- Reads a field that holds a list; a field that is absent is empty. -/
def readList {α : Type} (read : List Step → Value → Except (List Fault) α) (name : String)
    (fields : List (String × Value)) : Except (List Fault) (List α) :=
  match fields.lookup name with
  | none => .ok []
  | some (.list vs) => readAll (fun n v => read [.field name, .index n] v) 0 vs
  | some _ => .error [⟨[.field name], .notList⟩]

/-- Reads a field that holds texts. -/
def readTexts (name : String) (fields : List (String × Value)) : Except (List Fault) (List String) :=
  readList (fun path v => (readText v).mapError fun k => [⟨path, k⟩]) name fields

/-- Reads the limit, at least one row. -/
def readLimit (fields : List (String × Value)) : Except (List Fault) (Option Nat) :=
  let fault (kind : FaultKind) : Except (List Fault) (Option Nat) :=
    .error [⟨[.field "limit"], kind⟩]
  match fields.lookup "limit" with
  | none => .ok none
  | some .null => .ok none
  | some v =>
    match readInteger v with
    | .error kind => fault kind
    | .ok n => if n < 1 then fault .belowOne else .ok (some n.toNat)

/-- Aliases without white space around them; blank ones are left out. -/
def trimAliases (names : List String) : List String :=
  (names.map (within trim)).filter (· != "")

/-- The faults of a part that was read. -/
def faultsOf {α : Type} : Except (List Fault) α → List Fault
  | .ok _ => []
  | .error fs => fs

/-- A decimal number that is not finite. -/
def notFinite? : Value → Option Number.Decimal
  | .decimal (.finite ..) => none
  | .decimal d => some d
  | _ => none

/-- The first decimal number among the ordering and the limit that is not finite. -/
def firstNotFinite? (fields : List (String × Value)) : Option Number.Decimal :=
  let ordering := match fields.lookup "order_by" with
    | some (.list vs) => vs
    | _ => []
  (ordering ++ (fields.lookup "limit").toList).findSome? notFinite?

/-- Reads a selection from its fields; other fields are ignored. -/
def ofFields (fields : List (String × Value)) : Except Refusal Selection :=
  let dimensions := readTexts "dimensions" fields
  let measures := readTexts "measures" fields
  let filters := readTexts "filters" fields
  let ordering := readList readOrderKey "order_by" fields
  let limit := readLimit fields
  match firstNotFinite? fields, dimensions, measures, filters, ordering, limit with
  | some d, _, _, _, _, _ => .error (.notFinite d)
  | none, .ok dimensions, .ok measures, .ok filters, .ok ordering, .ok limit =>
    .ok { dimensions := trimAliases dimensions, measures := trimAliases measures
          filters, ordering, limit }
  | none, _, _, _, _, _ =>
    .error (.invalid (faultsOf dimensions ++ faultsOf measures ++ faultsOf filters ++
      faultsOf ordering ++ faultsOf limit))

end Selection

end MetricLayer
