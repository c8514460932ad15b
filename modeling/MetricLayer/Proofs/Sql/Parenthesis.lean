import Mathlib.Order.Bounds.Basic
import MetricLayer.Proofs.Sql.Mask

/-!
# Parentheses that belong together

A parenthesis is closed by the first closing one behind it at its depth: `closing?` counts from the parenthesis on and
`depths` over the whole text and never below zero, but they agree in every text, also behind parentheses that were
never opened and where others stay open (`closing?_drop_eq_some_iff`).

`unwrap` takes the pairs off that enclose a text, one after the other.  `Peels` is that loop as a relation; it ends in
every text (`exists_peels`), after as many turns as there are pairs.  What is left is the one text without enclosing
pair and outer white space around which the text is built in layers (`eq_unwrap_iff`).
-/

namespace MetricLayer.Sql

open MetricLayer.Text

variable {m cs core body before rest : List Char} {i j k n : Nat}

/-! ## Two readings -/

/-- A closing parenthesis behind an offset, at the depth of the character there. -/
structure ClosesAt (m : List Char) (i j : Nat) : Prop where
  behind : i < j
  closing : m[j]? = some ')'
  level : (depths m)[j]? = (depths m)[i]?

/-- Counted from a parenthesis at some depth on, the count runs out where a closing parenthesis is back at that
depth for the first time. -/
theorem closing?_eq_idxOf? (hk : 0 < k) (d : Nat) (m : List Char) :
    closing? k m = (m.zip (depthsFrom (d + k) m)).idxOf? (')', d) := by
  -- as long as the count has not run out, it is the depth less `d`, and no depth is cut off at zero
  induction m generalizing k with
  | nil => rfl
  | cons c m ih =>
    have hfound : ((c, depthAt (d + k) c) == (')', d)) = true ↔ c = ')' ∧ k = 1 := by
      rw [beq_iff_eq, Prod.mk.injEq, and_congr_right_iff, depthAt]
      intro hc
      rw [if_pos hc]
      omega
    rw [closing?_cons, depthsFrom_cons, List.zip_cons_cons, List.idxOf?_cons]
    by_cases hlast : c = ')' ∧ k = 1
    · rw [if_pos hlast, if_pos (hfound.mpr hlast)]
    · have hstep : depthStep (d + k) c = d + depthStep k c ∧ 0 < depthStep k c := by
        rw [depthStep, depthStep]
        split_ifs with hopen hclose
        · omega
        · have hk1 : k ≠ 1 := fun h => hlast ⟨hclose, h⟩
          omega
        · omega
      rw [if_neg hlast, if_neg (fun h => hlast (hfound.mp h)), hstep.1, ih hstep.2]

theorem idxOf?_eq_some_iff_isLeast {α : Type} [BEq α] [LawfulBEq α] {a : α} {l : List α} :
    l.idxOf? a = some n ↔ IsLeast {n | l[n]? = some a} n := by
  rw [List.idxOf?_eq_some_iff]
  constructor
  · rintro ⟨hn, ha, hfirst⟩
    refine ⟨List.getElem?_eq_some_iff.mpr ⟨hn, ha⟩, fun k hk => ?_⟩
    obtain ⟨hlt, hka⟩ := List.getElem?_eq_some_iff.mp hk
    exact Nat.le_of_not_lt fun hkn => hfirst k hkn hka
  · rintro ⟨hn, hleast⟩
    obtain ⟨hlt, ha⟩ := List.getElem?_eq_some_iff.mp hn
    refine ⟨hlt, ha, fun k hk hka => ?_⟩
    exact Nat.not_lt.mpr (hleast (List.getElem?_eq_some_iff.mpr ⟨_, hka⟩)) hk

/-- A text at an open parenthesis. -/
theorem exists_of_getElem?_eq_open (h : m[i]? = some '(') :
    ∃ before rest, m = before ++ '(' :: rest ∧ before.length = i := by
  obtain ⟨hi, hopen⟩ := List.getElem?_eq_some_iff.mp h
  refine ⟨m.take i, m.drop (i + 1), ?_, List.length_take_of_le hi.le⟩
  rw [← hopen, ← List.drop_eq_getElem_cons hi, List.take_append_drop]

/-- The depths behind a parenthesis are counted from the depth at the parenthesis. -/
theorem depths_open (before rest : List Char) : depths (before ++ '(' :: rest) =
    depths before ++ depthAfter 0 before :: depthsFrom (depthAfter 0 before + 1) rest := by
  rw [depths, depthsFrom_append, depthsFrom_cons]
  rfl

/-- What closes a parenthesis stands in the text behind it. -/
theorem closesAt_iff : ClosesAt (before ++ '(' :: rest) before.length j ↔
    ∃ n, (rest.zip (depthsFrom (depthAfter 0 before + 1) rest))[n]? = some (')', depthAfter 0 before) ∧
      n + 1 + before.length = j := by
  have hlength : (depths before).length = before.length := length_depthsFrom 0 before
  have hat : (depths (before ++ '(' :: rest))[before.length]? = some (depthAfter 0 before) := by
    rw [depths_open, List.getElem?_append_right (Nat.le_of_eq hlength), hlength, Nat.sub_self]
    rfl
  have hbehind (n : Nat) : (before ++ '(' :: rest)[n + 1 + before.length]? = rest[n]? ∧
      (depths (before ++ '(' :: rest))[n + 1 + before.length]? =
        (depthsFrom (depthAfter 0 before + 1) rest)[n]? := by
    rw [depths_open, List.getElem?_append_right (by omega), List.getElem?_append_right (by omega), hlength,
      Nat.add_sub_cancel]
    exact ⟨rfl, rfl⟩
  simp only [List.getElem?_zip_eq_some]
  constructor
  · rintro ⟨hlt, hclosing, hlevel⟩
    obtain ⟨n, rfl⟩ : ∃ n, j = n + 1 + before.length := ⟨j - before.length - 1, by omega⟩
    rw [(hbehind n).1] at hclosing
    rw [(hbehind n).2, hat] at hlevel
    exact ⟨n, ⟨hclosing, hlevel⟩, rfl⟩
  · rintro ⟨n, ⟨hclosing, hlevel⟩, rfl⟩
    refine ⟨by omega, ?_, ?_⟩
    · rw [(hbehind n).1, hclosing]
    · rw [(hbehind n).2, hlevel, hat]

theorem closing?_drop (before rest : List Char) :
    closing? 0 ((before ++ '(' :: rest).drop before.length) =
      ((rest.zip (depthsFrom (depthAfter 0 before + 1) rest)).idxOf? (')', depthAfter 0 before)).map (· + 1) := by
  rw [List.drop_left, closing?_open, closing?_eq_idxOf? Nat.one_pos]

/-- The parenthesis that is found by counting is the first one back at the depth. -/
theorem isLeast_of_closing? (h : m[i]? = some '(') (hk : closing? 0 (m.drop i) = some k) :
    IsLeast {j | ClosesAt m i j} (k + i) := by
  obtain ⟨before, rest, rfl, rfl⟩ := exists_of_getElem?_eq_open h
  rw [closing?_drop] at hk
  obtain ⟨n, hn, rfl⟩ := Option.map_eq_some_iff.mp hk
  obtain ⟨hfound, hleast⟩ := idxOf?_eq_some_iff_isLeast.mp hn
  refine ⟨closesAt_iff.mpr ⟨n, hfound, rfl⟩, ?_⟩
  intro j hj
  obtain ⟨l, hl, rfl⟩ := closesAt_iff.mp hj
  have hnl : n ≤ l := hleast hl
  omega

/-- Where counting finds none, no closing parenthesis is back at the depth. -/
theorem not_closesAt_of_closing? (h : m[i]? = some '(') (hnone : closing? 0 (m.drop i) = none) (j : Nat) :
    ¬ ClosesAt m i j := by
  obtain ⟨before, rest, rfl, rfl⟩ := exists_of_getElem?_eq_open h
  rw [closing?_drop, Option.map_eq_none_iff, List.idxOf?_eq_none_iff] at hnone
  intro hj
  obtain ⟨n, hn, -⟩ := closesAt_iff.mp hj
  exact hnone (List.mem_of_getElem? hn)

/-- **A parenthesis is closed by the first closing one behind it at its depth.** -/
theorem closing?_drop_eq_some_iff (h : m[i]? = some '(') :
    (closing? 0 (m.drop i)).map (· + i) = some j ↔ IsLeast {j | ClosesAt m i j} j := by
  cases hclosing : closing? 0 (m.drop i) with
  | none => exact iff_of_false nofun fun hleast => not_closesAt_of_closing? h hclosing j hleast.1
  | some k =>
    have hleast := isLeast_of_closing? h hclosing
    rw [Option.map_some, Option.some_inj]
    exact ⟨fun hj => hj ▸ hleast, hleast.unique⟩

/-- **It is never closed exactly if there is none.** -/
theorem closing?_drop_eq_none_iff (h : m[i]? = some '(') :
    closing? 0 (m.drop i) = none ↔ ∀ j, ¬ ClosesAt m i j := by
  refine ⟨not_closesAt_of_closing? h, fun hnone => ?_⟩
  cases hclosing : closing? 0 (m.drop i) with
  | none => rfl
  | some k => exact absurd (isLeast_of_closing? h hclosing).1 (hnone _)

/-! ## Enclosing pairs -/

/-- A pair of parentheses that belong together encloses the text. -/
def Enclosed (cs : List Char) : Prop :=
  ∃ body, WellFormed body ∧ cs = '(' :: (body ++ [')'])

theorem isEnclosed_group (h : WellFormed cs) : isEnclosed ('(' :: (cs ++ [')'])) = true := by
  have hclosing : closing? 0 (mask ('(' :: (cs ++ [')']))) = some (cs.length + 1) := by
    rw [mask_group h.closed, closing?_group h.balanced [], length_mask]
  rw [isEnclosed, hclosing]
  simp

/-- **The parenthesis at the start is closed by the one at the end exactly if what stands between them is well
formed.** -/
theorem isEnclosed_iff : isEnclosed cs ↔ Enclosed cs := by
  constructor
  · intro h
    rw [isEnclosed, Bool.and_eq_true, beq_iff_eq, beq_iff_eq] at h
    obtain ⟨hhead, hclosing⟩ := h
    obtain ⟨inside, rfl⟩ := List.head?_eq_some_iff.mp hhead
    have hmask : mask ('(' :: inside) = '(' :: mask inside := rfl
    rw [hmask, closing?_open] at hclosing
    obtain ⟨k, hk, hlength⟩ := Option.map_eq_some_iff.mp hclosing
    rcases List.eq_nil_or_concat' inside with rfl | ⟨body, d, rfl⟩
    · cases hk
    · obtain rfl : k = body.length := by
        simp only [List.length_cons, List.length_append, List.length_nil] at hlength
        omega
      have hlast := getElem?_of_closing? hk
      rw [mask_concat, ← length_mask body, List.getElem?_concat_length, Option.some_inj,
        maskStep_quoteAfter_eq_iff (by decide) (by decide)] at hlast
      obtain ⟨rfl, hclosed⟩ := hlast
      have hbalanced := depthAfter?_of_closing? hk
      rw [← mask_take, List.take_left] at hbalanced
      exact ⟨body, ⟨hclosed, hbalanced⟩, rfl⟩
  · rintro ⟨body, hbody, rfl⟩
    exact isEnclosed_group hbody

instance (cs : List Char) : Decidable (Enclosed cs) :=
  decidable_of_iff (isEnclosed cs) isEnclosed_iff

theorem not_enclosed_of_head? (h : cs.head? ≠ some '(') : ¬ Enclosed cs := by
  rintro ⟨body, -, rfl⟩
  exact h rfl

/-! ## The pairs around a text -/

/-- Enclosing pairs are taken off a text so many times, each with the white space inside it, until no pair encloses
what is left. -/
inductive Peels : Nat → List Char → List Char → Prop
  | done {cs : List Char} : ¬ Enclosed cs → Peels 0 cs cs
  | turn {n : Nat} {body core : List Char} : WellFormed body → Peels n (trim body) core →
      Peels (n + 1) ('(' :: (body ++ [')'])) core

/-- A text, with white space and pairs of parentheses that belong together around it, in any number and order. -/
inductive Layered (core : List Char) : List Char → Prop
  | core : Layered core core
  | blank {a cs b : List Char} : (∀ c ∈ a, isBlank c) → (∀ c ∈ b, isBlank c) → Layered core cs →
      Layered core (a ++ cs ++ b)
  | group {cs : List Char} : WellFormed cs → Layered core cs → Layered core ('(' :: (cs ++ [')']))

/-- Every turn takes two parentheses off. -/
theorem Peels.length_le (h : Peels n cs core) : core.length + 2 * n ≤ cs.length := by
  induction h with
  | done => exact Nat.le_refl _
  | @turn n body core _ _ ih =>
    have htrim := length_trim_le body
    simp only [List.length_cons, List.length_append, List.length_nil]
    omega

/-- **The loop ends in every text.** -/
theorem exists_peels (cs : List Char) : ∃ n core, Peels n cs core := by
  induction hlength : cs.length using Nat.strong_induction_on generalizing cs with
  | _ l ih =>
    by_cases henclosed : Enclosed cs
    · obtain ⟨body, hbody, rfl⟩ := henclosed
      have hshorter : (trim body).length < l := by
        have htrim := length_trim_le body
        simp only [List.length_cons, List.length_append, List.length_nil] at hlength
        omega
      obtain ⟨n, core, hpeels⟩ := ih _ hshorter (trim body) rfl
      exact ⟨n + 1, core, .turn hbody hpeels⟩
    · exact ⟨0, cs, .done henclosed⟩

theorem unwrapWithin_of_not_enclosed (h : ¬ Enclosed cs) (n : Nat) : unwrapWithin n cs = cs := by
  cases n with
  | zero => rfl
  | succ n => rw [unwrapWithin, if_neg (fun henclosed => h (isEnclosed_iff.mp henclosed))]

/-- More turns than the loop takes change nothing. -/
theorem Peels.unwrapWithin_eq (h : Peels n cs core) (hk : n ≤ k) : unwrapWithin k cs = core := by
  induction h generalizing k with
  | done hcore => exact unwrapWithin_of_not_enclosed hcore k
  | turn hbody _ ih =>
    obtain ⟨k, rfl⟩ := Nat.exists_eq_add_of_le' (Nat.one_le_of_lt hk)
    rw [unwrapWithin, if_pos (isEnclosed_group hbody), List.tail_cons, List.dropLast_concat,
      ih (Nat.le_of_succ_le_succ hk)]

theorem Peels.not_enclosed (h : Peels n cs core) : ¬ Enclosed core := by
  induction h with
  | done hcore => exact hcore
  | turn _ _ ih => exact ih

theorem Peels.trimmed (h : Peels n cs core) (hcs : Trimmed cs) : Trimmed core := by
  induction h with
  | done => exact hcs
  | turn _ _ ih => exact ih (trimmed_trim _)

theorem Layered.of_trim (h : Layered core (trim cs)) : Layered core cs := by
  obtain ⟨a, b, hcs, ha, hb⟩ := exists_trim cs
  rw [hcs]
  exact .blank ha hb h

theorem Peels.layered (h : Peels n cs core) : Layered core cs := by
  induction h with
  | done => exact .core
  | turn hbody _ ih => exact .group hbody ih.of_trim

/-! ## What is left -/

theorem unwrap_eq_of_peels (h : Peels n (trim cs) core) : unwrap cs = core := by
  have hlength := h.length_le
  have htrim := length_trim_le cs
  exact h.unwrapWithin_eq (by omega)

theorem exists_peels_unwrap (cs : List Char) : ∃ n, Peels n (trim cs) (unwrap cs) := by
  obtain ⟨n, core, hpeels⟩ := exists_peels (trim cs)
  exact ⟨n, unwrap_eq_of_peels hpeels ▸ hpeels⟩

theorem length_unwrap_le (cs : List Char) : (unwrap cs).length ≤ cs.length := by
  obtain ⟨n, hpeels⟩ := exists_peels_unwrap cs
  exact (Nat.le_of_add_right_le hpeels.length_le).trans (length_trim_le cs)

theorem unwrap_of_not_enclosed (h : Trimmed cs) (hcs : ¬ Enclosed cs) : unwrap cs = cs := by
  apply unwrap_eq_of_peels (n := 0)
  rw [trim_eq_self h]
  exact .done hcs

/-- A text that does not start with a parenthesis has none to take off. -/
theorem unwrap_eq_self (h : Trimmed cs) (hhead : cs.head? ≠ some '(') : unwrap cs = cs :=
  unwrap_of_not_enclosed h (not_enclosed_of_head? hhead)

theorem WellFormed.unwrap_group (h : WellFormed cs) : unwrap ('(' :: (cs ++ [')'])) = unwrap cs := by
  obtain ⟨n, hpeels⟩ := exists_peels_unwrap cs
  apply unwrap_eq_of_peels (n := n + 1)
  rw [trim_eq_self (trimmed_group cs)]
  exact .turn h hpeels

/-- Parentheses around a text that has none of its own are taken off, if they belong together. -/
theorem unwrap_group (h : Trimmed cs) (hhead : cs.head? ≠ some '(') :
    unwrap ('(' :: (cs ++ [')'])) = if isEnclosed ('(' :: (cs ++ [')'])) then cs else '(' :: (cs ++ [')']) := by
  split_ifs with henclosed
  · obtain ⟨body, hbody, hcs⟩ := isEnclosed_iff.mp henclosed
    obtain rfl : cs = body := List.append_cancel_right (List.cons.inj hcs).2
    rw [hbody.unwrap_group, unwrap_eq_self h hhead]
  · exact unwrap_of_not_enclosed (trimmed_group cs) fun h => henclosed (isEnclosed_iff.mpr h)

/-- The layers around a text are all taken off. -/
theorem Layered.unwrap_eq (h : Layered core cs) : unwrap cs = unwrap core := by
  induction h with
  | core => rfl
  | @blank a cs b ha hb _ ih =>
    obtain ⟨n, hpeels⟩ := exists_peels_unwrap cs
    have htrim : trim (a ++ cs ++ b) = trim cs := dropBothWhile_around ha hb
    rw [← ih]
    exact unwrap_eq_of_peels (htrim ▸ hpeels)
  | group hcs _ ih => rw [hcs.unwrap_group, ih]

/-- **What is left of a text is the one text without outer white space and enclosing pair that it is built around in
layers.** -/
theorem eq_unwrap_iff : core = unwrap cs ↔ Layered core cs ∧ Trimmed core ∧ ¬ Enclosed core := by
  constructor
  · rintro rfl
    obtain ⟨n, hpeels⟩ := exists_peels_unwrap cs
    exact ⟨hpeels.layered.of_trim, hpeels.trimmed (trimmed_trim cs), hpeels.not_enclosed⟩
  · rintro ⟨hlayered, htrimmed, henclosed⟩
    rw [hlayered.unwrap_eq, unwrap_of_not_enclosed htrimmed henclosed]

/-- **Counting from a parenthesis on and the depths of the whole text agree on where it is closed.  The pairs that
enclose a text are taken off by a loop that ends, and what is left of the text is the one text without outer white
space and enclosing pair that it is built around in layers; from that nothing is taken off.** -/
theorem closing?_iff_and_eq_unwrap_iff :
    (∀ (m : List Char) (i : Nat), m[i]? = some '(' →
      (∀ j, (closing? 0 (m.drop i)).map (· + i) = some j ↔ IsLeast {j | ClosesAt m i j} j) ∧
        (closing? 0 (m.drop i) = none ↔ ∀ j, ¬ ClosesAt m i j)) ∧
      ∀ cs : List Char, (isEnclosed cs ↔ Enclosed cs) ∧
        (∃ n ≤ cs.length / 2, Peels n (trim cs) (unwrap cs) ∧ ∀ k ≥ n, unwrapWithin k (trim cs) = unwrap cs) ∧
        (∀ core, core = unwrap cs ↔ Layered core cs ∧ Trimmed core ∧ ¬ Enclosed core) ∧
        unwrap (unwrap cs) = unwrap cs := by
  refine ⟨fun m i h => ⟨fun j => closing?_drop_eq_some_iff h, closing?_drop_eq_none_iff h⟩, fun cs => ?_⟩
  obtain ⟨n, hpeels⟩ := exists_peels_unwrap cs
  have hlength := hpeels.length_le
  have htrim := length_trim_le cs
  have hturns : n ≤ cs.length / 2 := by omega
  have hleft := hpeels.trimmed (trimmed_trim cs)
  exact ⟨isEnclosed_iff, ⟨n, hturns, hpeels, fun k hk => hpeels.unwrapWithin_eq hk⟩, fun core => eq_unwrap_iff,
    unwrap_of_not_enclosed hleft hpeels.not_enclosed⟩

/-- Parentheses that were never opened or stay open, and one in quotes that closes nothing. -/
theorem closing?_iff_and_eq_unwrap_iff_unbalanced :
    ") ) (a (b) c) ) (d".toList[4]? = some '(' ∧
      IsLeast {j | ClosesAt ") ) (a (b) c) ) (d".toList 4 j} 12 ∧
      ") ) (a (b) c) ) (d".toList[16]? = some '(' ∧
      (∀ j, ¬ ClosesAt ") ) (a (b) c) ) (d".toList 16 j) ∧
      Layered "(')') || (x)".toList " ( ((')') || (x)) ) ".toList ∧
      Trimmed "(')') || (x)".toList ∧ ¬ Enclosed "(')') || (x)".toList := by
  have hagree := closing?_iff_and_eq_unwrap_iff.1 ") ) (a (b) c) ) (d".toList
  have hleft := (closing?_iff_and_eq_unwrap_iff.2 " ( ((')') || (x)) ) ".toList).2.2.1 "(')') || (x)".toList
  exact ⟨rfl, ((hagree 4 rfl).1 12).mp (by decide), rfl, (hagree 16 rfl).2.mp (by decide), hleft.mp (by decide)⟩

end MetricLayer.Sql
