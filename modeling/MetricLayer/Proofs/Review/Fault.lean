import MetricLayer.Proofs.Review.Item

/-!
# Items with one fault

`FaultyItem` lists items with one fault: an aggregate or a plain item of a name that is no column, an aggregate
under an alias that declares another one, and an aggregate without an alias.  Each has exactly one finding, of
the kind of its fault (`FaultyItem.exists_itemFindings_read`).
-/

namespace MetricLayer.Review

open MetricLayer.Text MetricLayer.Sql

variable {c : Catalog}

/-! ## Searches that find nothing -/

theorem callless_quote (name : String) : Callless (quote name).toList :=
  .quote ⟨trivial, trivial⟩ (by decide) name

/-- The kind of the finding for a name that is no column. -/
def nameFault (c : Catalog) (name : String) : FindingKind :=
  if c.isAlias name then .aliasUsedAsColumn else .unknownColumn

section applied

variable {function : String}

theorem exists_applied_quote (hfunction : function ∈ aggregateFunctions) (name : String) :
    ∃ w body, Applied function (quote name) w body := by
  have hquote : (quote name).toList = '"' :: (double name.toList ++ ['"']) := toList_quote name
  exact exists_applied_quoted hfunction hquote (hquote ▸ trimmed_quote name) (callless_quote name)

/-- An applied function can stand before an alias. -/
theorem sound_callText (hfunction : function ∈ aggregateFunctions) (name : String) :
    Sound NoForeign (callText function (quote name)).toList := by
  obtain ⟨w, body, happlied⟩ := exists_applied_quote hfunction name
  rw [happlied.text]
  refine sound_application (fun _ => noForeign_of_noCall) ?_ happlied.callfree
  exact List.mem_cons_of_mem _ happlied.word

theorem getLast?_callText (function expression : String) : (callText function expression).toList.getLast? = some ')' := by
  rw [callText, String.toList_append]
  exact List.getLast?_concat

end applied

/-! ## Faulty items -/

/-- An item with one fault, the kind of the fault, and what is named for it. -/
inductive FaultyItem (c : Catalog) : String → FindingKind → String → Prop
  /-- A name that is no column is aggregated, under an alias that declares no aggregation. -/
  | argument {function name aliasName : String} (hfunction : function ∈ aggregateFunctions) (hname : name ≠ "")
      (hfield : c.isField name = false) (halias : aliasName ≠ "")
      (hmeasure : ∀ a, c.entry? aliasName ≠ some (.aggregation a)) :
      FaultyItem c (NamedItem.text ⟨callText function (quote name), aliasName⟩) (nameFault c name) name
  /-- A name that is no column is selected. -/
  | column {name : String} (hname : name ≠ "") (hfield : c.isField name = false) :
      FaultyItem c (quote name) (nameFault c name) name
  /-- A column is aggregated by another function than the alias declares. -/
  | aggregation {function name aliasName : String} {a : Aggregation} (hfunction : function ∈ aggregateFunctions)
      (hname : name ≠ "") (hfield : c.isField name) (halias : aliasName ≠ "")
      (hmeasure : c.entry? aliasName = some (.aggregation a)) (hother : a.function ≠ function) :
      FaultyItem c (NamedItem.text ⟨callText function (quote name), aliasName⟩) .wrongAggregation a.aliasName
  /-- A column is aggregated without an alias. -/
  | unnamed {function name : String} (hfunction : function ∈ aggregateFunctions) (hname : name ≠ "")
      (hfield : c.isField name) :
      FaultyItem c (callText function (quote name)) .missingAlias (callText function (quote name))

namespace FaultyItem

variable {item identifier : String} {kind : FindingKind}

/-- A faulty item can be told apart from the items around it. -/
theorem listPart (h : FaultyItem c item kind identifier) : ListPart NoForeign item.toList := by
  cases h with
  | argument hfunction => exact NamedItem.listPart (sound_callText hfunction _)
  | column =>
    rw [quote_eq_dotted]
    exact listPart_dotted _ []
  | aggregation hfunction => exact NamedItem.listPart (sound_callText hfunction _)
  | @unnamed function name hfunction =>
    have hsound := sound_callText hfunction name
    refine ⟨hsound.laid, hsound.ne_nil, hsound.trimmed, ?_⟩
    rw [getLast?_callText]
    decide

theorem notDistinct (h : FaultyItem c item kind identifier) : ∀ d ∈ item.toList.head?, fold d ≠ 'd' := by
  cases h with
  | argument hfunction => exact NamedItem.notDistinct (sound_callText hfunction _)
  | column =>
    rw [toList_quote]
    rintro d ⟨⟩
    decide
  | aggregation hfunction => exact NamedItem.notDistinct (sound_callText hfunction _)
  | unnamed hfunction => exact (sound_callText hfunction _).notDistinct

end FaultyItem

end MetricLayer.Review
