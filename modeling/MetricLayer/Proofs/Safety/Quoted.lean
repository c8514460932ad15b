import MetricLayer.Proofs.Sql.Name
import MetricLayer.Safety

/-!
# Texts in quotes

A text in quotes is read up to the first quote that is not one of a pair (`Doubled`), and
`replaceQuoted` replaces such texts from left to right (`replaceQuoted_cons`).  For `mask` they are one or
more quoted regions in a row (`Doubled.closed`).
-/

namespace MetricLayer.Safety

open MetricLayer.Text MetricLayer.Sql

variable {q : Char} {cs body rest : List Char}

/-! ## What stands between the quotes -/

/-- Every quote stands in a pair. -/
inductive Doubled (q : Char) : List Char → Prop
  | nil : Doubled q []
  | char {c : Char} {cs : List Char} (hc : c ≠ q) (h : Doubled q cs) : Doubled q (c :: cs)
  | pair {cs : List Char} (h : Doubled q cs) : Doubled q (q :: q :: cs)

theorem of_quotedBody?_eq_some (h : quotedBody? q cs = some (body, rest)) :
    cs = body ++ q :: rest ∧ Doubled q body := by
  fun_induction quotedBody? q cs generalizing body rest with
  | case1 => cases h
  | case2 =>
    cases h
    exact ⟨rfl, .nil⟩
  | case3 => cases h
  | case4 cs b r hread ih =>
    cases h
    obtain ⟨rfl, hbody⟩ := ih hread
    exact ⟨rfl, hbody.pair⟩
  | case5 =>
    cases h
    exact ⟨rfl, .nil⟩
  | case6 =>
    cases h
    exact ⟨rfl, .nil⟩
  | case7 c d cs hc ih =>
    obtain ⟨⟨b, r⟩, hread, heq⟩ := Option.map_eq_some_iff.mp h
    cases heq
    obtain ⟨hcs, hbody⟩ := ih hread
    exact ⟨by rw [hcs]; rfl, hbody.char hc⟩

theorem length_lt_of_quotedBody?_eq_some (h : quotedBody? q cs = some (body, rest)) :
    rest.length < cs.length := by
  rw [(of_quotedBody?_eq_some h).1, List.length_append, List.length_cons]
  omega

/-- A text with a quote in it is closed somewhere. -/
theorem not_mem_of_quotedBody?_eq_none (h : quotedBody? q cs = none) : q ∉ cs := by
  fun_induction quotedBody? q cs with
  | case1 => exact List.not_mem_nil
  | case2 => cases h
  | case3 c hc => simpa using Ne.symm hc
  | case4 => cases h
  | case5 => cases h
  | case6 => cases h
  | case7 c d cs hc ih =>
    rw [List.mem_cons, not_or]
    exact ⟨Ne.symm hc, ih (Option.map_eq_none_iff.mp h)⟩

/-- A quote right behind what is read is the last one. -/
theorem not_mem_of_quotedBody?_eq_some {more : List Char}
    (h : quotedBody? q cs = some (body, q :: more)) : q ∉ more := by
  generalize hrest : q :: more = rest at h
  fun_induction quotedBody? q cs generalizing body rest with
  | case1 => cases h
  | case2 =>
    cases h
    cases hrest
  | case3 => cases h
  | case4 cs b r hread ih =>
    cases h
    exact ih _ hrest hread
  | case5 cs hread =>
    cases h
    obtain ⟨-, rfl⟩ := List.cons.inj hrest
    exact not_mem_of_quotedBody?_eq_none hread
  | case6 d cs hd =>
    cases h
    exact absurd (List.cons.inj hrest).1.symm hd
  | case7 c d cs hc ih =>
    obtain ⟨⟨b, r⟩, hread, heq⟩ := Option.map_eq_some_iff.mp h
    cases heq
    exact ih _ hrest hread

theorem quotedBody?_of_doubled (hbody : Doubled q body) (hrest : rest.head? ≠ some q) :
    quotedBody? q (body ++ q :: rest) = some (body, rest) := by
  induction hbody with
  | nil =>
    cases rest with
    | nil => rw [List.nil_append, quotedBody?, if_pos rfl]
    | cons c rest =>
      have hc : c ≠ q := fun hc => hrest (by rw [hc]; rfl)
      rw [List.nil_append, quotedBody?, if_pos rfl, if_neg hc]
  | char hc _ ih => exact quotedBody?_cons hc ih
  | pair _ ih =>
    rw [List.cons_append, List.cons_append, quotedBody?, if_pos rfl, if_pos rfl, ih]

theorem doubled_of_not_mem (h : q ∉ body) : Doubled q body := by
  induction body with
  | nil => exact .nil
  | cons c body ih =>
    rw [List.mem_cons, not_or] at h
    exact (ih h.2).char (Ne.symm h.1)

theorem quotedBody?_of_not_mem (hbody : q ∉ body) (hrest : rest.head? ≠ some q) :
    quotedBody? q (body ++ q :: rest) = some (body, rest) :=
  quotedBody?_of_doubled (doubled_of_not_mem hbody) hrest

/-- A text in quotes ends at the first quote that is not one of a pair. -/
theorem doubled_append_inj {body' rest' : List Char} (hbody : Doubled q body) (hbody' : Doubled q body')
    (hrest : rest.head? ≠ some q) (hrest' : rest'.head? ≠ some q)
    (h : body ++ q :: rest = body' ++ q :: rest') : body = body' ∧ rest = rest' := by
  have hread := quotedBody?_of_doubled hbody hrest
  rw [h, quotedBody?_of_doubled hbody' hrest'] at hread
  obtain ⟨rfl, rfl⟩ := Prod.mk.inj (Option.some.inj hread)
  exact ⟨rfl, rfl⟩

theorem Doubled.count_mod_two (h : Doubled q body) : body.count q % 2 = 0 := by
  induction h with
  | nil => rfl
  | char hc _ ih =>
    rw [List.count_cons_of_ne hc]
    exact ih
  | pair _ ih =>
    rw [List.count_cons_self, List.count_cons_self]
    omega

theorem Doubled.of_append {x y : List Char} {c : Char} (h : Doubled q (x ++ c :: y)) (hc : c ≠ q) :
    Doubled q x ∧ Doubled q y := by
  generalize hcs : x ++ c :: y = cs at h
  induction h generalizing x with
  | nil => simp at hcs
  | char hd h ih =>
    cases x with
    | nil =>
      obtain ⟨-, rfl⟩ := List.cons.inj hcs
      exact ⟨.nil, h⟩
    | cons d x =>
      obtain ⟨rfl, htail⟩ := List.cons.inj hcs
      exact (ih htail).imp_left (.char hd)
  | pair _ ih =>
    cases x with
    | nil => exact absurd (List.cons.inj hcs).1 hc
    | cons d x =>
      obtain ⟨rfl, htail⟩ := List.cons.inj hcs
      cases x with
      | nil => exact absurd (List.cons.inj htail).1 hc
      | cons d x =>
        obtain ⟨rfl, hrest⟩ := List.cons.inj htail
        exact (ih hrest).imp_left .pair

/-- The first quote is followed by another. -/
theorem Doubled.head?_of_not_mem {x y : List Char} (h : Doubled q (x ++ q :: y)) (hx : q ∉ x) :
    y.head? = some q := by
  induction x with
  | nil =>
    generalize hcs : [] ++ q :: y = cs at h
    cases h with
    | nil => cases hcs
    | char hc _ => exact absurd (List.cons.inj hcs).1.symm hc
    | pair _ =>
      obtain ⟨-, rfl⟩ := List.cons.inj hcs
      rfl
  | cons c x ih =>
    rw [List.mem_cons, not_or] at hx
    generalize hcs : c :: x ++ q :: y = cs at h
    cases h with
    | nil => cases hcs
    | char _ h =>
      obtain ⟨-, rfl⟩ := List.cons.inj hcs
      exact ih h hx.2
    | pair _ => exact absurd (List.cons.inj hcs).1.symm hx.1

/-- A pair of quotes closes a region and opens the next. -/
theorem Doubled.quoteAfter (hq : isQuote q) (h : Doubled q body) :
    quoteAfter (some q) body = some q := by
  induction h with
  | nil => rfl
  | @char c cs hc _ ih =>
    have hstep : quoteStep (some q) c = some q := if_neg hc
    rw [Sql.quoteAfter, List.foldl_cons, hstep]
    exact ih
  | @pair cs _ ih =>
    have hclose : quoteStep (some q) q = none := if_pos rfl
    have hopen : quoteStep none q = some q := if_pos hq
    rw [Sql.quoteAfter, List.foldl_cons, List.foldl_cons, hclose, hopen]
    exact ih

theorem Doubled.closed (hq : isQuote q) (h : Doubled q body) : Closed (q :: (body ++ [q])) := by
  have hopen : quoteStep none q = some q := if_pos hq
  rw [Closed, Sql.quoteAfter, List.foldl_cons, hopen]
  show Sql.quoteAfter (some q) (body ++ [q]) = none
  rw [quoteAfter_append, h.quoteAfter hq]
  exact if_pos rfl

/-! ## Replacing -/

section replacing

variable {f : List Char → List Char} {next n : Nat} {b : Option Char}

theorem replaceFrom_skip {k : Nat} (hk : k ≤ cs.length) :
    replaceFrom q f (n + k) (placesFrom n b cs) =
      replaceFrom q f (n + k) (placesFrom (n + k) (lastOr b (cs.take k)) (cs.drop k)) := by
  induction cs generalizing n b k with
  | nil =>
    obtain rfl : k = 0 := Nat.le_zero.mp hk
    rfl
  | cons c cs ih =>
    cases k with
    | zero => rfl
    | succ k =>
      have hrest := ih (n := n + 1) (b := some c) (Nat.le_of_succ_le_succ hk)
      rw [Nat.add_right_comm] at hrest
      rw [placesFrom, replaceFrom, if_pos (by simp), List.take_succ_cons, List.drop_succ_cons,
        lastOr_cons, ← Nat.add_assoc]
      exact hrest

theorem replaceFrom_cons {c : Char} (h : next ≤ n) :
    replaceFrom q f next (placesFrom n b (c :: cs)) =
      match if c = q then quotedBody? q cs else none with
      | some (body, rest) => q :: (f body ++ q ::
          replaceFrom q f (n + body.length + 2) (placesFrom (n + body.length + 2) (some q) rest))
      | none => c :: replaceFrom q f next (placesFrom (n + 1) (some c) cs) := by
  have hread : quotedAt? q ⟨n, b, c :: cs⟩ = if c = q then quotedBody? q cs else none := rfl
  rw [placesFrom, replaceFrom, if_neg (Nat.not_lt.mpr h), hread]
  cases hquoted : (if c = q then quotedBody? q cs else none) with
  | none => rfl
  | some found =>
    obtain ⟨body, rest⟩ := found
    have hcs : cs = body ++ q :: rest := by
      split at hquoted
      · exact (of_quotedBody?_eq_some hquoted).1
      · cases hquoted
    have hk : body.length + 1 ≤ cs.length := by
      rw [hcs, List.length_append, List.length_cons]
      omega
    have htext : cs = (body ++ [q]) ++ rest := by
      rw [hcs, List.append_assoc]
      rfl
    have hlength : (body ++ [q]).length = body.length + 1 := List.length_append
    have hskip := replaceFrom_skip (q := q) (f := f) (n := n + 1) (b := some c) hk
    have hoffset : n + 1 + (body.length + 1) = n + body.length + 2 := by omega
    rw [hoffset, ← hlength, htext, List.take_left, List.drop_left, lastOr_append] at hskip
    show q :: f body ++ [q] ++ replaceFrom q f (n + body.length + 2) (placesFrom (n + 1) (some c) cs) = _
    rw [htext, hskip]
    simp

theorem replaceFrom_nil (h : next ≤ n) : replaceFrom q f next (placesFrom n b []) = [] := by
  simp [placesFrom, replaceFrom, quotedAt?, Nat.not_lt.mpr h]

/-- Where a text starts does not matter. -/
theorem replaceFrom_placesFrom (h : next ≤ n) :
    replaceFrom q f next (placesFrom n b cs) = replaceQuoted q f cs := by
  induction hlength : cs.length using Nat.strong_induction_on generalizing cs next n b with
  | _ l ih =>
    subst hlength
    cases cs with
    | nil => rw [replaceQuoted, places, replaceFrom_nil h, replaceFrom_nil (Nat.le_refl 0)]
    | cons c cs =>
      have hsmall : cs.length < (c :: cs).length := Nat.lt_succ_self _
      rw [replaceQuoted, places, replaceFrom_cons h, replaceFrom_cons (Nat.le_refl 0)]
      cases hquoted : (if c = q then quotedBody? q cs else none) with
      | none =>
        show c :: _ = c :: _
        rw [ih _ hsmall (Nat.le_succ_of_le h) rfl, ih _ hsmall (Nat.zero_le _) rfl]
      | some found =>
        obtain ⟨body, rest⟩ := found
        have hrest : rest.length < (c :: cs).length := by
          split at hquoted
          next => exact (length_lt_of_quotedBody?_eq_some hquoted).trans hsmall
          next => cases hquoted
        show q :: (f body ++ q :: _) = q :: (f body ++ q :: _)
        rw [ih _ hrest (Nat.le_refl _) rfl, ih _ hrest (Nat.le_refl _) rfl]

@[simp] theorem replaceQuoted_nil : replaceQuoted q f [] = [] :=
  replaceFrom_nil (Nat.le_refl 0)

theorem replaceQuoted_cons {c : Char} :
    replaceQuoted q f (c :: cs) =
      match if c = q then quotedBody? q cs else none with
      | some (body, rest) => q :: (f body ++ q :: replaceQuoted q f rest)
      | none => c :: replaceQuoted q f cs := by
  rw [replaceQuoted, places, replaceFrom_cons (Nat.le_refl 0)]
  simp only [replaceFrom_placesFrom (Nat.le_refl _), replaceFrom_placesFrom (Nat.zero_le _)]

theorem replaceQuoted_cons_of_ne {c : Char} (hc : c ≠ q) :
    replaceQuoted q f (c :: cs) = c :: replaceQuoted q f cs := by
  rw [replaceQuoted_cons, if_neg hc]

theorem replaceQuoted_append_of_not_mem {a : List Char} (h : q ∉ a) :
    replaceQuoted q f (a ++ cs) = a ++ replaceQuoted q f cs := by
  induction a with
  | nil => rfl
  | cons c a ih =>
    rw [List.mem_cons, not_or] at h
    rw [List.cons_append, replaceQuoted_cons_of_ne (Ne.symm h.1), ih h.2, List.cons_append]

theorem replaceQuoted_of_some (h : quotedBody? q cs = some (body, rest)) :
    replaceQuoted q f (q :: cs) = q :: (f body ++ q :: replaceQuoted q f rest) := by
  rw [replaceQuoted_cons, if_pos rfl, h]

theorem replaceQuoted_of_none (h : quotedBody? q cs = none) :
    replaceQuoted q f (q :: cs) = q :: replaceQuoted q f cs := by
  rw [replaceQuoted_cons, if_pos rfl, h]

theorem head?_replaceQuoted (q : Char) (f : List Char → List Char) (cs : List Char) :
    (replaceQuoted q f cs).head? = cs.head? := by
  cases cs with
  | nil => rw [replaceQuoted_nil]
  | cons c cs =>
    rw [replaceQuoted_cons]
    split
    next hread =>
      split at hread
      next hc => rw [hc]; rfl
      next => cases hread
    next => rfl

end replacing

end MetricLayer.Safety
