import MetricLayer.Proofs.Sql.Alias
import MetricLayer.Proofs.Sql.Clause
import MetricLayer.Proofs.Sql.Hide

/-!
# Parts of texts without their literals

A text is cut where its masked form says, so that cutting commutes with `hide` for texts with closed quotes: the
parts of the text without its literals are the parts of the text, without theirs.  This is shown for the
entries of lists, the expressions and aliases of items, texts in parentheses, casts and aggregate calls.
-/

namespace MetricLayer.Sql

open MetricLayer.Text

variable {cs : List Char}

/-! ## Lists -/

/-- The pieces of a text that starts inside the given quote, with their literals hidden. -/
def hidePieces (state : Option Char) : List (List Char) → List (List Char)
  | [] => []
  | piece :: pieces => hideFrom state piece :: pieces.map hide

theorem hidePieces_none (pieces : List (List Char)) : hidePieces none pieces = pieces.map hide := by
  cases pieces <;> rfl

theorem quoteStep_comma : quoteStep none ',' = none := rfl

theorem piecesAt_comma_ne_nil (xs : List (Char × Char × Nat)) : piecesAt [','] xs ≠ [] := by
  cases xs with
  | nil => exact List.cons_ne_nil _ _
  | cons x xs =>
    obtain ⟨c, m, d⟩ := x
    rw [piecesAt]
    split
    · exact List.cons_ne_nil _ _
    · split <;> exact List.cons_ne_nil _ _

theorem piecesAt_hideFrom {state : Option Char} (hstate : ∀ q ∈ state, isQuote q) (cs : List Char) (ds : List Nat) :
    piecesAt [','] ((hideFrom state cs).zip ((maskFrom state cs).zip ds)) =
      hidePieces state (piecesAt [','] (cs.zip ((maskFrom state cs).zip ds))) := by
  induction cs generalizing state ds with
  | nil => rfl
  | cons c cs ih =>
    cases ds with
    | nil => rfl
    | cons d ds =>
      have htail := ih (isQuote_of_mem_quoteStep hstate c) ds
      rw [hideFrom, maskFrom, List.zip_cons_cons, List.zip_cons_cons, List.zip_cons_cons, piecesAt, piecesAt]
      by_cases hsep : [','] = [maskStep state c] ∧ d = 0
      · obtain ⟨rfl, rfl⟩ := (maskStep_eq_iff hstate (by decide) (by decide)).mp (List.singleton_inj.mp hsep.1).symm
        rw [if_pos hsep, if_pos hsep]
        rw [quoteStep_comma] at htail ⊢
        rw [htail, hidePieces_none]
        rfl
      · rw [if_neg hsep, if_neg hsep, htail]
        obtain ⟨piece, pieces, hpieces⟩ := List.exists_cons_of_ne_nil
          (piecesAt_comma_ne_nil (cs.zip ((maskFrom (quoteStep state c) cs).zip ds)))
        rw [hpieces]
        rfl

/-- The pieces of a text whose quotes are closed have closed quotes, the first one as the text begins. -/
theorem closed_of_mem_piecesAt {state : Option Char} (hstate : ∀ q ∈ state, isQuote q) {ds : List Nat}
    (hlength : ds.length = cs.length) (h : quoteAfter state cs = none) {piece : List Char} {pieces : List (List Char)}
    (hpieces : piecesAt [','] (cs.zip ((maskFrom state cs).zip ds)) = piece :: pieces) :
    quoteAfter state piece = none ∧ ∀ p ∈ pieces, Closed p := by
  induction cs generalizing state ds piece pieces with
  | nil =>
    cases hpieces
    exact ⟨h, nofun⟩
  | cons c cs ih =>
    cases ds with
    | nil => cases hlength
    | cons d ds =>
      obtain ⟨first, others, hrest⟩ := List.exists_cons_of_ne_nil
        (piecesAt_comma_ne_nil (cs.zip ((maskFrom (quoteStep state c) cs).zip ds)))
      obtain ⟨hfirst, hothers⟩ := ih (isQuote_of_mem_quoteStep hstate c) (Nat.succ.inj hlength) h hrest
      rw [maskFrom, List.zip_cons_cons, List.zip_cons_cons, piecesAt, hrest] at hpieces
      by_cases hsep : [','] = [maskStep state c] ∧ d = 0
      · obtain ⟨rfl, rfl⟩ := (maskStep_eq_iff hstate (by decide) (by decide)).mp (List.singleton_inj.mp hsep.1).symm
        rw [if_pos hsep] at hpieces
        cases hpieces
        exact ⟨rfl, List.forall_mem_cons.mpr ⟨hfirst, hothers⟩⟩
      · rw [if_neg hsep] at hpieces
        cases hpieces
        exact ⟨hfirst, hothers⟩

theorem closed_of_mem_pieces (h : Closed cs) :
    ∀ p ∈ piecesAt [','] (cs.zip ((mask cs).zip (depths (mask cs)))), Closed p := by
  have hlength : (depths (mask cs)).length = cs.length := by rw [depths, length_depthsFrom, length_mask]
  obtain ⟨piece, pieces, hpieces⟩ := List.exists_cons_of_ne_nil
    (piecesAt_comma_ne_nil (cs.zip ((mask cs).zip (depths (mask cs)))))
  rw [hpieces]
  exact List.forall_mem_cons.mpr (closed_of_mem_piecesAt (by simp) hlength h hpieces)

theorem splitList_hide (h : Closed cs) : splitList (hide cs) = (splitList cs).map hide := by
  have hpieces : piecesAt [','] ((hide cs).zip ((mask (hide cs)).zip (depths (mask (hide cs))))) =
      (piecesAt [','] (cs.zip ((mask cs).zip (depths (mask cs))))).map hide := by
    rw [mask_hide, ← hidePieces_none]
    exact piecesAt_hideFrom (by simp) cs _
  have htrim : (piecesAt [','] (cs.zip ((mask cs).zip (depths (mask cs))))).map (trim ∘ hide) =
      (piecesAt [','] (cs.zip ((mask cs).zip (depths (mask cs))))).map (hide ∘ trim) :=
    List.map_congr_left fun p hp => trim_hide (closed_of_mem_pieces h p hp)
  rw [splitList, splitTopLevel, hpieces, splitList, splitTopLevel, List.map_map, htrim, ← List.map_map,
    List.filter_map]
  congr 1
  apply List.filter_congr
  intro p _
  rw [Function.comp_apply, isEmpty_hide]

theorem closed_of_mem_splitList (h : Closed cs) : ∀ p ∈ splitList cs, Closed p := by
  intro p hp
  obtain ⟨piece, hpiece, rfl⟩ := List.mem_map.mp (List.mem_of_mem_filter hp)
  exact closed_trim (closed_of_mem_pieces h piece hpiece)

/-! ## Aliases -/

/-- A masked text in double quotes shows no single quote. -/
theorem not_mem_of_quotedBody?_mask {body rest : List Char}
    (h : quotedBody? '"' (maskFrom (some '"') cs) = some (body, rest)) : '\'' ∉ body := by
  generalize hmask : maskFrom (some '"') cs = m at h
  -- the masked form of a character in double quotes
  have hstep {c : Char} : maskStep (some '"') c = '"' ∧ quoteStep (some '"') c = none ∨
      maskStep (some '"') c = '_' ∧ quoteStep (some '"') c = some '"' := by
    by_cases hc : c = '"'
    · exact Or.inl ⟨(if_pos hc).trans hc, if_pos hc⟩
    · exact Or.inr ⟨if_neg hc, if_neg hc⟩
  fun_induction quotedBody? '"' m generalizing cs body rest with
  | case1 => cases h
  | case2 =>
    cases h
    exact List.not_mem_nil
  | case3 => cases h
  | case4 m b r hread ih =>
    cases h
    cases cs with
    | nil => cases hmask
    | cons c cs =>
      rw [maskFrom] at hmask
      obtain ⟨hc, htail⟩ := List.cons.inj hmask
      rcases @hstep c with ⟨-, hstate⟩ | ⟨hblank, -⟩
      · rw [hstate] at htail
        cases cs with
        | nil => cases htail
        | cons d cs =>
          obtain ⟨hd, hm⟩ := List.cons.inj htail
          obtain rfl : d = '"' := hd
          have hb : '\'' ∉ b := ih hm hread
          simp [hb]
      · rw [hblank] at hc
        cases hc
  | case5 =>
    cases h
    exact List.not_mem_nil
  | case6 =>
    cases h
    exact List.not_mem_nil
  | case7 c d m hc ih =>
    obtain ⟨⟨b, r⟩, hread, hcons⟩ := Option.map_eq_some_iff.mp h
    cases hcons
    cases cs with
    | nil => cases hmask
    | cons e cs =>
      rw [maskFrom] at hmask
      obtain ⟨he, htail⟩ := List.cons.inj hmask
      rcases @hstep e with ⟨hquote, -⟩ | ⟨hblank, hstate⟩
      · exact absurd (he.symm.trans hquote) hc
      · rw [hstate] at htail
        have hb : '\'' ∉ b := ih htail hread
        obtain rfl : c = '_' := he.symm.trans hblank
        simp [hb]

/-- A name at the end of a masked text shows no single quote. -/
theorem not_mem_of_nameToEnd? {start : Char → Bool} (hstart : ∀ q, isQuote q → start q = false) {length : Nat}
    (h : nameToEnd? start (mask cs) = some length) : length = cs.length ∧ '\'' ∉ mask cs := by
  rw [nameToEnd?] at h
  split at h
  next name rest hread =>
    split at h
    next hrest =>
      refine ⟨by rw [← Option.some.inj h, length_mask], fun hmem => ?_⟩
      have hblank : '\'' ∉ rest := fun hmem => absurd (List.all_eq_true.mp hrest _ hmem) (by decide)
      cases cs with
      | nil => cases hmem
      | cons c cs =>
        rw [mask, maskFrom, maskStep] at hread hmem
        rw [readName?] at hread
        split at hread
        next hc =>
          subst hc
          have hstate : quoteStep none '"' = some '"' := rfl
          rw [hstate] at hread hmem
          split at hread
          next => cases hread
          next body after _ hbody =>
            cases hread
            rw [eq_of_quotedBody?_eq_some hbody] at hmem
            simp [not_mem_of_quotedBody?_mask hbody, hblank] at hmem
          next => cases hread
        next hc =>
          split at hread
          next hfirst =>
            cases hread
            rcases List.mem_cons.mp hmem with rfl | hmem
            · rw [hstart _ (by decide)] at hfirst
              cases hfirst
            · rw [← List.takeWhile_append_dropWhile (p := isNameRest) (l := maskFrom (quoteStep none c) cs)] at hmem
              rcases List.mem_append.mp hmem with hmem | hmem
              · exact absurd (List.mem_takeWhile_imp hmem) (by decide +kernel)
              · exact hblank hmem
          next => cases hread
    next => cases h
  next => cases h

/-- An alias that is found is cut outside quotes, and bears no literal. -/
theorem of_alias_eq_some {stop length : Nat}
    (h : (afterAs? (mask cs)).or (afterParenthesis? (mask cs)) = some (stop, length)) :
    Closed (cs.take stop) ∧ ∃ x y, cs = x ++ y ∧ Closed x ∧ y.length = length ∧ '\'' ∉ mask y := by
  have hstart : ∀ q, isQuote q → isNameStart (fold q) = false :=
    fun _ => of_isQuote (P := fun q => isNameStart (fold q) = false) (by decide) (by decide)
  have hplain {b : Char} (hb : isBlank b) : isQuote b = false ∧ b ≠ '_' :=
    ⟨isQuote_of_isBlank hb, fun h => absurd (h ▸ hb) (by decide)⟩
  -- the name behind white space, up to the end of the text
  have hname {pre g rest : List Char} {start : Char → Bool} (hstart : ∀ q, isQuote q → start q = false)
      (hmask : mask cs = pre ++ g ++ rest) (hne : g ≠ []) (hblank : ∀ c ∈ g, isBlank c)
      (hname : nameToEnd? start rest = some length) :
      ∃ x y, cs = x ++ y ∧ Closed x ∧ y.length = length ∧ '\'' ∉ mask y := by
    obtain ⟨init, b, rfl⟩ := (List.eq_nil_or_concat' _).resolve_left hne
    have hb := hplain (hblank b (by simp))
    have hlast : (pre ++ (init ++ [b])).getLast? = some b := by
      rw [← List.append_assoc, List.getLast?_concat]
    obtain ⟨x, y, rfl, hx, -, rfl⟩ := exists_of_mask_eq_append hmask hlast hb.1 hb.2
    obtain ⟨hlength, hfree⟩ := not_mem_of_nameToEnd? hstart hname
    exact ⟨x, y, rfl, hx, hlength.symm, hfree⟩
  rcases Option.or_eq_some_iff.mp h with has | ⟨-, hparenthesis⟩
  · rw [afterAs?_eq_findSome?] at has
    obtain ⟨p, hp, hfound⟩ := List.exists_of_findSome?_eq_some has
    obtain ⟨pre, post, hmask, rfl⟩ := mem_places.mp hp
    obtain ⟨g, w, g', rest, rfl, ⟨hne, hblank⟩, -, ⟨hne', hblank'⟩, -, rfl, hlength⟩ := asAlias?_eq_some_iff.mp hfound
    have hsplit : mask cs = (pre ++ g ++ w) ++ g' ++ rest := by simpa using hmask
    refine ⟨?_, hname hstart hsplit hne' hblank' hlength⟩
    obtain ⟨b, g, rfl⟩ := List.exists_cons_of_ne_nil hne
    have hb := hplain (hblank b List.mem_cons_self)
    obtain ⟨x, y, rfl, hx, rfl, -⟩ := exists_of_mask_eq_append_cons hmask hb.1 hb.2
    rwa [length_mask, List.take_left]
  · rw [afterParenthesis?_eq_getLast?] at hparenthesis
    obtain ⟨p, hp, hfound⟩ := List.mem_filterMap.mp (List.mem_of_getLast? hparenthesis)
    obtain ⟨pre, post, hmask, rfl⟩ := mem_places.mp hp
    obtain ⟨g, rest, hpost, ⟨hne, hblank⟩, rfl, hlength⟩ := of_parenthesisAlias?_eq_some hfound
    obtain rfl : post = ')' :: (g ++ rest) := hpost
    have hsplit : mask cs = (pre ++ [')']) ++ g ++ rest := by simpa using hmask
    refine ⟨?_, hname isNameStart_of_isQuote hsplit hne hblank hlength⟩
    obtain ⟨x, y, rfl, hx, rfl, -⟩ := exists_of_mask_eq_append_cons hmask (by decide) (by decide)
    have htake : (x ++ ')' :: y).take ((mask x).length + 1) = x ++ [')'] := by
      rw [length_mask, ← List.singleton_append, ← List.append_assoc]
      exact List.take_left' (by simp)
    rw [htake]
    exact hx.append rfl

/-- An item is split into its expression and its alias whatever its literals are. -/
theorem splitAlias_hide (h : Closed cs) :
    splitAlias (hide cs) = (hide (splitAlias cs).1, (splitAlias cs).2) ∧ Closed (splitAlias cs).1 := by
  rw [splitAlias, splitAlias, mask_hide]
  cases hfound : (afterAs? (mask cs)).or (afterParenthesis? (mask cs)) with
  | none => exact ⟨by rw [trim_hide h], closed_trim h⟩
  | some found =>
    obtain ⟨stop, length⟩ := found
    obtain ⟨hstop, x, y, rfl, hx, rfl, hfree⟩ := of_alias_eq_some hfound
    have hwritten (z : List Char) : (z ++ y).drop ((z ++ y).length - y.length) = y := by
      rw [List.length_append, Nat.add_sub_cancel, List.drop_left]
    have hhidden : (hide (x ++ y)).drop ((hide (x ++ y)).length - y.length) = y := by
      rw [hide_append hx, hide_eq_self hfree, hwritten]
    simp only [hwritten, hhidden, ← hide_take, trim_hide h, trim_hide hstop]
    split
    · exact ⟨rfl, closed_trim h⟩
    · exact ⟨rfl, closed_trim hstop⟩

/-! ## Clauses -/

/-- A character that is seen in a masked text, since it is neither a quote nor what is blanked. -/
def IsSeen (c : Char) : Prop :=
  isQuote c = false ∧ c ≠ '_'

instance (c : Char) : Decidable (IsSeen c) :=
  inferInstanceAs (Decidable (_ ∧ _))

theorem isSeen_of_fold {c : Char} (h : IsSeen (fold c)) : IsSeen c := by
  constructor
  · by_contra hquote
    have hfold := h.1
    rw [fold_of_isQuote (by simpa using hquote)] at hfold
    exact hquote hfold
  · rintro rfl
    exact h.2 rfl

/-- A keyword that is read has a first and a last letter, and both are seen in masked texts. -/
theorem of_letters?_seen {ks cs rest : List Char} (hne : ks ≠ []) (hks : ∀ k ∈ ks, IsSeen k)
    (h : letters? ks cs = some rest) :
    ∃ w, cs = w ++ rest ∧ (∃ c ∈ w.head?, IsSeen c) ∧ ∃ c ∈ w.getLast?, IsSeen c := by
  obtain ⟨w, rfl, rfl⟩ := letters?_eq_some_iff.mp h
  have hw : w ≠ [] := fun hnil => hne (by rw [hnil]; rfl)
  have hseen : ∀ c ∈ w, IsSeen c := fun c hc => isSeen_of_fold (hks _ (List.mem_map_of_mem hc))
  exact ⟨w, rfl, ⟨w.head hw, List.head?_eq_some_head hw, hseen _ (List.head_mem hw)⟩,
    ⟨w.getLast hw, List.getLast?_eq_some_getLast hw, hseen _ (List.getLast_mem hw)⟩⟩

/-- The keyword of a clause begins and ends in characters that are seen in masked texts. -/
theorem of_after?_eq_some {c : Clause} {p : Place} {rest : List Char} (h : c.after? p = some rest) :
    ∃ w, p.rest = w ++ rest ∧ (∃ x ∈ w.head?, IsSeen x) ∧ ∃ x ∈ w.getLast?, IsSeen x := by
  have hwords : ∀ word ∈ [c.keyword.1] ++ c.keyword.2.toList, word.toList ≠ [] ∧ ∀ k ∈ word.toList, IsSeen k := by
    cases c <;> decide
  rw [Clause.after?] at h
  split at h
  next word hkeyword =>
    obtain ⟨hne, hletters⟩ := hwords word (by rw [hkeyword]; exact List.mem_cons_self)
    rw [Place.keyword?] at h
    split at h
    · exact of_letters?_seen hne hletters (Option.filter_eq_some_iff.mp h).1
    · cases h
  next word second hkeyword =>
    obtain ⟨hne, hletters⟩ := hwords word (by rw [hkeyword]; exact List.mem_cons_self)
    obtain ⟨hne', hletters'⟩ := hwords second (by rw [hkeyword]; simp)
    split at h
    · split at h
      next b after hword =>
        split at h
        next hb =>
          obtain ⟨u, hu, hhead, -⟩ := of_letters?_seen hne hletters hword
          obtain ⟨v, hv, -, hlast⟩ := of_letters?_seen hne' hletters' (Option.filter_eq_some_iff.mp h).1
          refine ⟨u ++ b :: after.takeWhile isBlank ++ v, ?_, ?_, ?_⟩
          · rw [hu, List.append_assoc, List.append_assoc, List.cons_append, ← hv, List.takeWhile_append_dropWhile]
          · obtain ⟨x, hx, hseen⟩ := hhead
            exact ⟨x, by simp [Option.mem_def.mp hx], hseen⟩
          · obtain ⟨x, hx, hseen⟩ := hlast
            exact ⟨x, by rw [List.getLast?_append, Option.mem_def.mp hx]; rfl, hseen⟩
        next => cases h
      next => cases h
    · cases h

/-- Headings stand outside quotes. -/
theorem closed_of_heading? {c : Clause} {start : Nat} {h : Heading} (hheading : heading? c start (mask cs) = some h) :
    Closed (cs.take h.start) ∧ Closed (cs.take h.stop) := by
  obtain ⟨⟨p, depth⟩, hp, hfound⟩ := List.exists_of_findSome?_eq_some hheading
  obtain ⟨pre, post, hmask, rfl⟩ := mem_places.mp (List.of_mem_zip hp).1
  simp only at hfound
  split at hfound
  next =>
    obtain ⟨rest, hafter, rfl⟩ := Option.map_eq_some_iff.mp hfound
    obtain ⟨w, hw, ⟨x, hx, hfirst⟩, ⟨y, hy, hlast⟩⟩ := of_after?_eq_some hafter
    obtain rfl : post = w ++ rest := hw
    constructor
    · obtain ⟨w, rfl⟩ := List.head?_eq_some_iff.mp hx
      obtain ⟨a, b, rfl, ha, rfl, -⟩ := exists_of_mask_eq_append_cons hmask hfirst.1 hfirst.2
      rwa [length_mask, List.take_left]
    · have hend : (pre ++ w).getLast? = some y := by
        rw [List.getLast?_append, Option.mem_def.mp hy]
        rfl
      have hsplit : mask cs = (pre ++ w) ++ rest := by rw [hmask, List.append_assoc]
      obtain ⟨a, b, rfl, ha, -, rfl⟩ := exists_of_mask_eq_append hsplit hend hlast.1 hlast.2
      rwa [length_mask, length_mask, List.length_append, Nat.add_sub_cancel, List.take_left]
  next => cases hfound

theorem closed_of_mem_headings? {headings : List Heading} (h : headings? (mask cs) = some headings) :
    ∀ h ∈ headings, Closed (cs.take h.start) ∧ Closed (cs.take h.stop) := by
  obtain ⟨first, hfirst, h⟩ := Option.bind_eq_some_iff.mp h
  cases h
  intro h hmem
  rcases List.mem_cons.mp (List.mem_mergeSort.mp hmem) with rfl | hmem
  · exact closed_of_heading? hfirst
  · obtain ⟨c, -, hc⟩ := List.mem_filterMap.mp hmem
    exact closed_of_heading? hc

/-- The texts of clauses, with their literals hidden. -/
def hideClauses (clauses : List (Clause × List Char)) : List (Clause × List Char) :=
  clauses.map fun s => (s.1, hide s.2)

theorem clauseTexts_hide (hcs : Closed cs) {headings : List Heading}
    (h : ∀ h ∈ headings, Closed (cs.take h.start) ∧ Closed (cs.take h.stop)) :
    clauseTexts (hide cs) headings = hideClauses (clauseTexts cs headings) ∧
      ∀ s ∈ clauseTexts cs headings, Closed s.2 := by
  -- what stands between two places outside quotes
  have hbetween {ds : List Char} (hds : Closed ds) {n : Nat} (hn : Closed (ds.take n)) :
      trim ((hide ds).drop n) = hide (trim (ds.drop n)) ∧ Closed (trim (ds.drop n)) := by
    have hdrop : Closed (ds.drop n) := by
      rw [← List.take_append_drop n ds] at hds
      exact (closed_append_iff hn _).mp hds
    rw [← hide_drop hn]
    exact ⟨trim_hide hdrop, closed_trim hdrop⟩
  induction headings with
  | nil => exact ⟨rfl, nofun⟩
  | cons first others ih =>
    obtain ⟨hothers, hclosed⟩ := ih fun h' hmem => h h' (List.mem_cons_of_mem first hmem)
    have hstop := (h first List.mem_cons_self).2
    cases others with
    | nil =>
      obtain ⟨htext, htrim⟩ := hbetween hcs hstop
      refine ⟨?_, List.forall_mem_singleton.mpr htrim⟩
      rw [clauseTexts, htext]
      rfl
    | cons next others =>
      have hstart := (h next (by simp)).1
      have hinner : Closed ((cs.take next.start).take first.stop) := by
        rw [List.take_take]
        rcases Nat.le_total first.stop next.start with hle | hle
        · rwa [Nat.min_eq_left hle]
        · rwa [Nat.min_eq_right hle]
      obtain ⟨htext, htrim⟩ := hbetween hstart hinner
      refine ⟨?_, List.forall_mem_cons.mpr ⟨htrim, hclosed⟩⟩
      rw [clauseTexts, ← hide_take, htext, hothers]
      rfl

theorem clauses?_hide (h : Closed cs) :
    clauses? (hide cs) = (clauses? cs).map hideClauses ∧ ∀ clauses ∈ clauses? cs, ∀ s ∈ clauses, Closed s.2 := by
  rw [clauses?, clauses?, mask_hide]
  cases hheadings : headings? (mask cs) with
  | none => exact ⟨rfl, fun _ hmem => absurd hmem (Option.not_mem_none _)⟩
  | some headings =>
    obtain ⟨htexts, hclosed⟩ := clauseTexts_hide h (closed_of_mem_headings? hheadings)
    refine ⟨by rw [Option.map_some, Option.map_some, Option.map_some, htexts], ?_⟩
    rintro clauses ⟨⟩
    exact hclosed

theorem clauseText_hide (c : Clause) (clauses : List (Clause × List Char)) :
    clauseText c (hideClauses clauses) = hide (clauseText c clauses) := by
  have hlookup : (hideClauses clauses).lookup c = (clauses.lookup c).map hide := by
    induction clauses with
    | nil => rfl
    | cons s clauses ih =>
      have hcons : hideClauses (s :: clauses) = (s.1, hide s.2) :: hideClauses clauses := rfl
      rw [hcons, List.lookup_cons, List.lookup_cons]
      cases c == s.1 with
      | true => rfl
      | false => exact ih
  rw [clauseText, hlookup, clauseText]
  cases clauses.lookup c <;> rfl

theorem closed_clauseText {clauses : List (Clause × List Char)} (h : ∀ s ∈ clauses, Closed s.2) (c : Clause) :
    Closed (clauseText c clauses) := by
  induction clauses with
  | nil => exact closed_nil
  | cons s clauses ih =>
    rw [clauseText, List.lookup_cons]
    cases c == s.1 with
    | true => exact h s List.mem_cons_self
    | false => exact ih fun t ht => h t (List.mem_cons_of_mem s ht)

theorem statement_hide (h : Closed cs) : statement (hide cs) = hide (statement cs) := by
  have htrim := closed_trim h
  rw [statement, statement, trim_hide h, dropEndWhile_hide ne_semicolon_of_isQuote htrim,
    trim_hide (dropEndWhile_mask ne_semicolon_of_isQuote htrim).2]

end MetricLayer.Sql
