import MetricLayer.Chart.Category
import MetricLayer.Proofs.Catalog.Lookup
import MetricLayer.Proofs.Text.Fold

/-!
# Categories of names in any letter case

Names that agree but for letter case have one category: the tests of names go by keywords, and an accepted catalog
looks them up as one (`dimensionCategory_eq`, `measureCategory_eq`).
-/

namespace MetricLayer

open MetricLayer.Text

variable {s t : String} {c : Option Catalog}

/-! ## Names -/

theorem mentions_lower {cs : List Char} (words : List String) (h : IsAscii cs) :
    mentions words (lower cs) = mentions words cs := by
  simp only [mentions, hasLetters_lower h]

theorem isTimeName_eq (h : Respelled s t) : isTimeName s = isTimeName t :=
  h.congr (mentions_lower _)

/-- A text asks a question: is or has stands as a word before a space. -/
def asks (cs : List Char) : Bool :=
  (places cs).any fun p => p.startsWord && (startsInLetters "is " p.rest || startsInLetters "has " p.rest)

theorem asks_lower {cs : List Char} (h : IsAscii cs) : asks (lower cs) = asks cs :=
  any_places_lower h fun p hrest hbefore => by
    rw [startsWord_map_toLower hbefore]
    simp only [Place.map, startsInLetters_map_toLower hrest]

theorem isYesNoName_eq (h : Respelled s t) : isYesNoName s = isYesNoName t := by
  have hstarts (word : String) := h.congr fun hcs => startsInLetters_lower hcs word
  have hends := h.congr fun hcs => endsInLetters_lower hcs "_flag"
  have hasks : asks s.toList = asks t.toList := h.congr asks_lower
  simp only [isYesNoName, hstarts, hends]
  exact congrArg _ hasks

theorem measureCategory_eq (h : Respelled s t) : measureCategory s = measureCategory t := by
  have hmentions (words : List String) := h.congr (mentions_lower words)
  have hstarts (word : String) := h.congr fun hcs => startsInLetters_lower hcs word
  simp only [measureCategory, hmentions, hstarts]

/-! ## Dimensions -/

theorem dimension?_eq (hc : ∀ k ∈ c, k.Accepted) (h : Respelled s t) :
    (c.bind fun c => c.dimension? s) = c.bind fun c => c.dimension? t := by
  cases c with
  | none => rfl
  | some k =>
    have hdimension := (hc k rfl).unambiguous.dimension?
    refine Option.ext fun d => ?_
    show k.dimension? s = some d ↔ k.dimension? t = some d
    rw [hdimension, hdimension, h.same]

theorem isTemporalDimension_eq (hc : ∀ k ∈ c, k.Accepted) (h : Respelled s t) :
    isTemporalDimension c s = isTemporalDimension c t := by
  simp only [isTemporalDimension, dimension?_eq hc h, List.any_cons, isTimeName_eq h]

theorem dimensionCategory_eq (hc : ∀ k ∈ c, k.Accepted) (h : Respelled s t) :
    dimensionCategory c s = dimensionCategory c t := by
  simp only [dimensionCategory, isTemporalDimension_eq hc h, dimension?_eq hc h, List.any_cons, isYesNoName_eq h]
  rfl

theorem categoryFault?_eq (hc : ∀ k ∈ c, k.Accepted) (h : Respelled s t) :
    categoryFault? c s = categoryFault? c t := by
  simp only [categoryFault?, isTemporalDimension_eq hc h, dimension?_eq hc h]

end MetricLayer
