import MetricLayer.Proofs.Sql.Layout

/-!
# Splitting a joined list

A list is read back part by part (`splitList_join`) when every part is a `ListEntry`: well formed, not
empty, trimmed, and without a comma outside quotes and parentheses.
-/

namespace MetricLayer.Sql

open MetricLayer.Text

/-- A comma stands outside quotes and parentheses. -/
def HasTopComma (cs : List Char) : Prop :=
  (',', 0) ∈ (mask cs).zip (depths (mask cs))

instance (cs : List Char) : Decidable (HasTopComma cs) :=
  inferInstanceAs (Decidable (_ ∈ _))

/-- A text that ends outside quotes and parentheses; a parenthesis that was never opened closes nothing. -/
structure EndsOutside (cs : List Char) : Prop where
  closed : Closed cs
  level : depthAfter 0 (mask cs) = 0

theorem WellFormed.endsOutside {cs : List Char} (h : WellFormed cs) : EndsOutside cs :=
  ⟨h.closed, depthAfter_of_depthAfter? h.balanced⟩

/-- A text that is one entry of a comma-separated list. -/
structure ListEntry (cs : List Char) : Prop where
  wellFormed : WellFormed cs
  noComma : ¬ HasTopComma cs
  ne_nil : cs ≠ []
  trimmed : Trimmed cs

/-! ## Commas in a layout -/

theorem one_le_of_mem_depthsFrom {d e : Nat} {m : List Char} (h : depthAfter? d m = some e) :
    ∀ x ∈ depthsFrom (d + 1) m, 1 ≤ x := by
  induction m generalizing d with
  | nil =>
    intro x hx
    cases hx
  | cons c m ih =>
    intro x hx
    rw [depthAfter?] at h
    rw [depthsFrom] at hx
    split_ifs at h hx with h1 h2 h3
    · rcases List.mem_cons.mp hx with rfl | hx
      · omega
      · exact ih h x hx
    · rcases List.mem_cons.mp hx with rfl | hx
      · omega
      · exact ih h x (by rwa [Nat.sub_add_cancel (by omega)])
    · rcases List.mem_cons.mp hx with rfl | hx
      · omega
      · exact ih h x hx

/-- Outside parentheses a layout holds plain characters and the parentheses of its groups. -/
theorem Layout.plain_of_mem {names : List String} {plain : Char → Prop} {inner : List Char → Prop}
    {b : Option Char} {m : List Char} (h : Layout names plain inner b m) {c : Char}
    (hc : (c, 0) ∈ m.zip (depths m)) : plain c ∨ c = '(' ∨ c = ')' := by
  induction h with
  | nil => cases hc
  | char hplain hopen hclose _ _ ih =>
    rw [depths, depthsFrom, if_neg hopen, if_neg hclose, List.zip_cons_cons] at hc
    rcases List.mem_cons.mp hc with hc | hc
    · exact Or.inl ((Prod.mk.inj hc).1 ▸ hplain)
    · exact ih hc
  | group hbody _ _ ih =>
    rw [depths, depthsFrom, if_pos rfl, depthsFrom_append, depthAfter_of_depthAfter? (depthAfter?_add hbody 1),
      depthsFrom, if_neg (by decide), if_pos rfl, List.zip_cons_cons,
      List.zip_append (length_depthsFrom _ _).symm, List.zip_cons_cons] at hc
    rcases List.mem_cons.mp hc with hc | hc
    · exact Or.inr (Or.inl (Prod.mk.inj hc).1)
    · rcases List.mem_append.mp hc with hc | hc
      · have hd := one_le_of_mem_depthsFrom hbody 0 (List.of_mem_zip hc).2
        omega
      · rcases List.mem_cons.mp hc with hc | hc
        · exact Or.inr (Or.inr (Prod.mk.inj hc).1)
        · exact ih hc

theorem Laid.not_hasTopComma {names : List String} {inner : List Char → Prop} {cs : List Char}
    (h : Laid names (fun c => c ≠ ',') inner cs) : ¬ HasTopComma cs := by
  intro hcomma
  rcases h.layout.plain_of_mem hcomma with hc | hc | hc
  · exact hc rfl
  · cases hc
  · cases hc

/-! ## Pieces -/

/-- The parts between top-level commas, as they stand. -/
def commaPieces (cs : List Char) : List (List Char) :=
  piecesAt [','] (cs.zip ((mask cs).zip (depths (mask cs))))

/-- Characters that are no separators open the first piece of what follows. -/
theorem piecesAt_append {sep : List Char} {xs ys : List (Char × Char × Nat)}
    (h : ∀ x ∈ xs, ¬ (sep = [x.2.1] ∧ x.2.2 = 0)) {piece : List Char} {pieces : List (List Char)}
    (hys : piecesAt sep ys = piece :: pieces) :
    piecesAt sep (xs ++ ys) = (xs.map (·.1) ++ piece) :: pieces := by
  induction xs with
  | nil => exact hys
  | cons x xs ih =>
    obtain ⟨c, m, d⟩ := x
    have hx := h (c, m, d) List.mem_cons_self
    rw [List.cons_append, piecesAt, if_neg hx, ih fun y hy => h y (List.mem_cons_of_mem _ hy)]
    rfl

theorem zip_mask_append {a : List Char} (h : EndsOutside a) (b : List Char) :
    (a ++ b).zip ((mask (a ++ b)).zip (depths (mask (a ++ b)))) =
      a.zip ((mask a).zip (depths (mask a))) ++ b.zip ((mask b).zip (depths (mask b))) := by
  rw [mask_append h.closed, depths, depthsFrom_append, h.level,
    List.zip_append (length_depthsFrom _ _).symm,
    List.zip_append (by simp [List.length_zip])]
  rfl

theorem not_separator_of_noComma {cs : List Char} (h : ¬ HasTopComma cs) :
    ∀ x ∈ cs.zip ((mask cs).zip (depths (mask cs))), ¬ ([','] = [x.2.1] ∧ x.2.2 = 0) := by
  rintro ⟨c, m, d⟩ hx ⟨hm, hd⟩
  apply h
  have hmem := (List.of_mem_zip hx).2
  obtain rfl : ',' = m := List.singleton_inj.mp hm
  obtain rfl : d = 0 := hd
  exact hmem

theorem map_fst_zip_mask (cs : List Char) :
    (cs.zip ((mask cs).zip (depths (mask cs)))).map (·.1) = cs := by
  rw [List.map_fst_zip]
  simp [depths]

theorem commaPieces_of_noComma {cs : List Char} (h : ¬ HasTopComma cs) : commaPieces cs = [cs] := by
  have hnil : piecesAt [','] ([] : List (Char × Char × Nat)) = [[]] := rfl
  have hpieces := piecesAt_append (not_separator_of_noComma h) hnil
  rw [List.append_nil, List.append_nil, map_fst_zip_mask] at hpieces
  exact hpieces

theorem commaPieces_append {cs : List Char} (hcs : EndsOutside cs) (h : ¬ HasTopComma cs)
    (rest : List Char) : commaPieces (cs ++ ',' :: rest) = cs :: commaPieces rest := by
  have hcomma : piecesAt [',']
      ((',' :: rest).zip ((mask (',' :: rest)).zip (depths (mask (',' :: rest))))) =
        [] :: commaPieces rest := by
    show piecesAt [','] ((',', ',', 0) :: rest.zip ((mask rest).zip (depths (mask rest)))) = _
    rw [piecesAt, if_pos ⟨rfl, rfl⟩]
    rfl
  rw [commaPieces, zip_mask_append hcs, piecesAt_append (not_separator_of_noComma h) hcomma,
    map_fst_zip_mask, List.append_nil]

theorem commaPieces_join {parts : List (List Char)} (hne : parts ≠ [])
    (h : ∀ p ∈ parts, WellFormed p ∧ ¬ HasTopComma p) :
    commaPieces (List.intercalate [','] parts) = parts := by
  induction parts with
  | nil => exact absurd rfl hne
  | cons p parts ih =>
    obtain ⟨hp, hcomma⟩ := h p List.mem_cons_self
    cases parts with
    | nil => rw [List.intercalate_singleton, commaPieces_of_noComma hcomma]
    | cons q qs =>
      rw [List.intercalate_cons_cons, List.append_assoc, List.singleton_append,
        commaPieces_append hp.endsOutside hcomma,
        ih (List.cons_ne_nil _ _) fun r hr => h r (List.mem_cons_of_mem p hr)]

/-! ## Lists -/

/-- White space after a comma belongs to the next part. -/
theorem intercalate_comma_gap (gap p : List Char) (parts : List (List Char)) :
    List.intercalate (',' :: gap) (p :: parts) =
      List.intercalate [','] (p :: parts.map (gap ++ ·)) := by
  induction parts generalizing p with
  | nil => rfl
  | cons q parts ih =>
    rw [List.intercalate_cons_cons, ih, List.map_cons, List.intercalate_cons_cons]
    cases parts <;> simp

theorem wellFormed_of_blank {gap : List Char} (h : ∀ c ∈ gap, isBlank c) : WellFormed gap := by
  refine ⟨closed_of_blank h, ?_⟩
  rw [mask_of_blank h]
  apply balanced_of_no_parenthesis
  intro c hc
  constructor <;> rintro rfl <;> exact absurd (h _ hc) (by decide)

theorem hasTopComma_append {a b : List Char} (ha : EndsOutside a) :
    HasTopComma (a ++ b) ↔ HasTopComma a ∨ HasTopComma b := by
  rw [HasTopComma, mask_append ha.closed, depths, depthsFrom_append, ha.level,
    List.zip_append (length_depthsFrom _ _).symm, List.mem_append]
  rfl

theorem hasTopComma_blank_append {gap cs : List Char} (h : ∀ c ∈ gap, isBlank c) :
    HasTopComma (gap ++ cs) ↔ HasTopComma cs := by
  rw [hasTopComma_append (wellFormed_of_blank h).endsOutside, or_iff_right]
  intro hcomma
  have hmem := (List.of_mem_zip hcomma).1
  rw [mask_of_blank h] at hmem
  exact absurd (h _ hmem) (by decide)

/-- **A joined list is split into its parts.** -/
theorem splitList_join {gap : List Char} (hgap : ∀ c ∈ gap, isBlank c) {parts : List (List Char)}
    (h : ∀ p ∈ parts, ListEntry p) :
    splitList (List.intercalate (',' :: gap) parts) = parts := by
  cases parts with
  | nil => rfl
  | cons p parts =>
    have hraw : ∀ q ∈ p :: parts.map (gap ++ ·), WellFormed q ∧ ¬ HasTopComma q := by
      intro q hq
      rcases List.mem_cons.mp hq with rfl | hq
      · have hp := h q List.mem_cons_self
        exact ⟨hp.wellFormed, hp.noComma⟩
      · obtain ⟨r, hr, rfl⟩ := List.mem_map.mp hq
        have hp := h r (List.mem_cons_of_mem _ hr)
        exact ⟨(wellFormed_of_blank hgap).append hp.wellFormed,
          fun hc => hp.noComma ((hasTopComma_blank_append hgap).mp hc)⟩
    have htrim : (p :: parts.map (gap ++ ·)).map trim = p :: parts := by
      rw [List.map_cons, trim_eq_self (h p List.mem_cons_self).trimmed, List.map_map]
      congr 1
      conv_rhs => rw [← List.map_id parts]
      apply List.map_congr_left
      intro q hq
      rw [Function.comp_apply, trim_blank_append hgap,
        trim_eq_self (h q (List.mem_cons_of_mem _ hq)).trimmed, id_eq]
    show ((commaPieces _).map trim).filter (fun q => !q.isEmpty) = _
    rw [intercalate_comma_gap, commaPieces_join (List.cons_ne_nil _ _) hraw, htrim,
      List.filter_eq_self]
    intro q hq
    simpa using (h q hq).ne_nil

end MetricLayer.Sql
