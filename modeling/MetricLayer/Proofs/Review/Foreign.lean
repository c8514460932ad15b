import MetricLayer.Proofs.Selection.Expression
import MetricLayer.Proofs.Sql.Seam
import MetricLayer.Review.Check

/-!
# Functions of other dialects

A statement calls no function of another dialect when none of its groups does (`Layout.noForeign`).  The
arguments of a call are looked at here, so a call could also end behind the text that it starts in; it
does not where parentheses are balanced.
-/

namespace MetricLayer.Review

open MetricLayer.Text MetricLayer.Sql

/-- The names of these functions. -/
def foreignNames : List String :=
  foreignFunctions.map ForeignFunction.name

theorem areKeys_foreignNames : AreKeys foreignNames := by decide

/-- The parenthesis of a call is closed at once. -/
def NoArguments (rest : List Char) : Prop :=
  (rest.dropWhile isBlank).head? = some ')'

/-- A masked text calls none of these functions. -/
def NoForeign (m : List Char) : Prop :=
  ¬ Calls foreignNames NoArguments none m

theorem isCalled_iff {f : ForeignFunction} {m : List Char} :
    f.isCalled m ↔ Calls [f.name] NoArguments none m := by
  rw [ForeignFunction.isCalled, List.any_eq_true]
  constructor
  · rintro ⟨p, hp, hcall⟩
    obtain ⟨pre, post, rfl, rfl⟩ := mem_places.mp hp
    rw [Bool.and_eq_true] at hcall
    obtain ⟨hstart, hcall⟩ := hcall
    split at hcall
    next rest hletters =>
      obtain ⟨after, hafter, hdrop⟩ := Option.map_eq_some_iff.mp hletters
      obtain ⟨w, rfl, hw⟩ := letters?_eq_some_iff.mp hafter
      have hgap : after = after.takeWhile isBlank ++ '(' :: rest := by
        rw [← hdrop, List.takeWhile_append_dropWhile]
      have hat : CallAt [f.name] pre.getLast? (w ++ after) [] w (after.takeWhile isBlank) rest :=
        ⟨congrArg (w ++ ·) hgap, hstart, ⟨f.name, List.mem_singleton_self _, hw⟩,
          fun c hc => List.mem_takeWhile_imp hc⟩
      exact ⟨pre, w, _, rest, hat.after, beq_iff_eq.mp hcall⟩
    next => cases hcall
  · rintro ⟨pre, w, gap, rest, hat, hargs⟩
    obtain ⟨name, hname, hw⟩ := hat.named
    rw [List.mem_singleton.mp hname] at hw
    have hletters : letters? f.name.toList (w ++ (gap ++ '(' :: rest)) = some (gap ++ '(' :: rest) :=
      letters?_eq_some_iff.mpr ⟨w, rfl, hw⟩
    refine ⟨_, mem_places.mpr ⟨pre, _, hat.text, rfl⟩, ?_⟩
    rw [Bool.and_eq_true]
    refine ⟨hat.fromStart.start, ?_⟩
    simp only [hletters, Option.map_some, List.dropWhile_append_of_pos hat.blank]
    rw [dropWhile_eq_self (by simp; decide)]
    exact beq_iff_eq.mpr hargs

theorem noForeign_iff {m : List Char} :
    NoForeign m ↔ ∀ f ∈ foreignFunctions, f.isCalled m = false := by
  constructor
  · intro h f hf
    rw [← Bool.not_eq_true, isCalled_iff]
    rintro ⟨pre, w, gap, rest, hat, hargs⟩
    obtain ⟨name, hname, hw⟩ := hat.named
    rw [List.mem_singleton.mp hname] at hw
    exact h ⟨pre, w, gap, rest,
      ⟨hat.text, hat.start, ⟨f.name, List.mem_map_of_mem hf, hw⟩, hat.blank⟩, hargs⟩
  · rintro h ⟨pre, w, gap, rest, hat, hargs⟩
    obtain ⟨name, hname, hw⟩ := hat.named
    obtain ⟨f, hf, rfl⟩ := List.mem_map.mp hname
    have hcalled := isCalled_iff.mpr ⟨pre, w, gap, rest,
      ⟨hat.text, hat.start, ⟨f.name, List.mem_singleton_self _, hw⟩, hat.blank⟩, hargs⟩
    rw [h f hf] at hcalled
    cases hcalled

/-- A text that calls nothing that is searched calls none of these functions. -/
theorem noForeign_of_noCall {m : List Char} (h : NoCall m) : NoForeign m := by
  rintro ⟨pre, w, gap, rest, hat, -⟩
  obtain ⟨name, hname, hw⟩ := hat.named
  exact h ⟨pre, w, gap, rest,
    ⟨hat.text, hat.start, ⟨name, List.mem_append_right _ hname, hw⟩, hat.blank⟩, trivial⟩

theorem NoArguments.append {rest : List Char} (h : NoArguments rest) (more : List Char) :
    NoArguments (rest ++ more) := by
  rw [NoArguments] at h ⊢
  cases hrest : rest.dropWhile isBlank with
  | nil =>
    rw [hrest] at h
    cases h
  | cons c cs =>
    rw [hrest] at h
    rw [List.dropWhile_append, hrest]
    exact h

/-- The arguments of a call end in the first of two pieces, unless the second starts with a parenthesis. -/
theorem noArguments_append_iff {b : List Char} (hb : ∀ c ∈ (b.dropWhile isBlank).head?, c ≠ ')') (after : List Char) :
    NoArguments (after ++ b) ↔ NoArguments after := by
  refine ⟨fun h => ?_, fun h => h.append b⟩
  rw [NoArguments, List.dropWhile_append] at h
  rw [NoArguments]
  cases hafter : after.dropWhile isBlank with
  | nil =>
    rw [hafter] at h
    exact absurd rfl (hb ')' h)
  | cons c cs =>
    rw [hafter] at h
    exact h

theorem NoForeign.append {a b : List Char} (hseam : Seam a b) (ha : NoForeign a) (hb : NoForeign b) :
    NoForeign (a ++ b) := by
  have hargs := noArguments_append_iff fun c hc => (hseam.next c hc).2.2
  rw [NoForeign, calls_append areKeys_foreignNames hseam hargs, not_or]
  exact ⟨ha, hb⟩

theorem NoForeign.trim {cs : List Char} (hcs : Closed cs) (h : NoForeign (mask cs)) :
    NoForeign (mask (trim cs)) := by
  obtain ⟨a, b, hmask, ha, -⟩ := exists_mask_trim hcs
  rintro ⟨pre, w, gap, rest, hat, hargs⟩
  rw [hmask] at h
  exact h ⟨a ++ pre, w, gap, rest ++ b, hat.between (wordStart_of_blank ha) b, hargs.append b⟩

/-- A call in a balanced text is not closed behind the text. -/
theorem noArguments_of_append {m pre w gap rest y : List Char} (hm : Balanced m)
    (hat : CallAt foreignNames none m pre w gap rest) (h : NoArguments (rest ++ ')' :: y)) : NoArguments rest := by
  rw [NoArguments] at h ⊢
  cases hrest : rest.dropWhile isBlank with
  | cons c cs =>
    rw [List.dropWhile_append, hrest] at h
    exact h
  | nil =>
    exfalso
    have hblank : ∀ c ∈ rest, c ≠ '(' ∧ c ≠ ')' := fun c hc =>
      ne_parenthesis_of_isBlank (List.dropWhile_eq_nil_iff.mp hrest c hc)
    have htext : m = (pre ++ (w ++ gap)) ++ '(' :: rest := by
      rw [hat.text]
      simp
    rw [htext, Sql.Balanced, depthAfter?_append] at hm
    obtain ⟨d, -, hd⟩ := Option.bind_eq_some_iff.mp hm
    rw [depthAfter?, if_pos rfl, depthAfter?_of_no_parenthesis hblank] at hd
    cases hd

/-- None of these functions is called in a layout and a text behind it, when the text calls none. -/
theorem NoForeign.behind {plain : Char → Prop} {x m : List Char} (hx : Layout foreignNames plain NoForeign none x)
    (hm : NoForeign m) : NoForeign (x ++ m) := by
  intro hcalls
  obtain ⟨pre, w, gap, rest, hat, hargs⟩ := hx.calls_append areKeys_foreignNames
    (fun _ _ hbalanced hbody pre w gap rest hat hargs =>
      hbody ⟨pre, w, gap, rest, hat, noArguments_of_append hbalanced hat hargs⟩) hcalls
  exact hm ⟨pre, w, gap, rest, hat.atStart, hargs⟩

/-- A text calls none of these functions when the groups of its layout call none. -/
theorem noForeign_of_layout {plain : Char → Prop} {m : List Char}
    (h : Layout foreignNames plain NoForeign none m) : NoForeign m := by
  rw [← List.append_nil m]
  exact .behind h (not_calls_of_not_mem List.not_mem_nil)

end MetricLayer.Review
