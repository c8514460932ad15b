import MetricLayer.Generation.Reply
import MetricLayer.Proofs.Sql.Mask
import MetricLayer.Proofs.Text.Keyword
import MetricLayer.Run.Ordering

/-!
# Statements that start with SELECT

A statement taken out of a reply starts with the word SELECT (`startsSelect_of_statement`), and so does
the statement that is ordered by time (`StartsSelect.temporalOrder`).  A text that starts so is never
read as no query at all (`StartsSelect.read?_ne_none`).
-/

namespace MetricLayer

open MetricLayer.Text

/-- The text starts with the word SELECT, in any letter case. -/
def StartsSelect (cs : List Char) : Prop :=
  (Place.keyword? "select" ⟨0, none, cs⟩).isSome

namespace StartsSelect

variable {cs : List Char}

theorem iff_exists : StartsSelect cs ↔
    ∃ w rest, cs = w ++ rest ∧ w.map fold = "select".toList ∧ endsWord rest := by
  have hplace : Place.keyword? "select" ⟨0, none, cs⟩ =
      (letters? "select".toList cs).filter endsWord := rfl
  rw [StartsSelect, hplace, Option.isSome_iff_exists]
  constructor
  · rintro ⟨rest, h⟩
    obtain ⟨hletters, hends⟩ := Option.filter_eq_some_iff.mp h
    obtain ⟨w, hcs, hw⟩ := letters?_eq_some_iff.mp hletters
    exact ⟨w, rest, hcs, hw, hends⟩
  · rintro ⟨w, rest, hcs, hw, hends⟩
    have hletters : letters? "select".toList cs = some rest := letters?_eq_some_iff.mpr ⟨w, hcs, hw⟩
    exact ⟨rest, by rw [hletters, Option.filter_some, if_pos hends]⟩

theorem letters {w : List Char} (hw : w.map fold = "select".toList) :
    w ≠ [] ∧ ∀ c ∈ w, isKeyLetter (fold c) ∧ c ≠ ';' ∧ Sql.isQuote c = false := by
  have hkeys : ∀ k ∈ "select".toList, isKeyLetter k ∧ k ≠ ';' ∧ k ≠ '"' ∧ k ≠ '\'' := by decide
  constructor
  · rintro rfl
    cases hw
  · intro c hc
    obtain ⟨hkey, hsemicolon, hdouble, hsingle⟩ := hkeys (fold c) (hw ▸ List.mem_map_of_mem hc)
    refine ⟨hkey, ?_, ?_⟩
    · rintro rfl
      exact hsemicolon (by decide)
    · rw [← Bool.not_eq_true]
      intro hquote
      rw [Sql.isQuote, Bool.or_eq_true, beq_iff_eq, beq_iff_eq] at hquote
      rcases hquote with rfl | rfl
      · exact hsingle (by decide)
      · exact hdouble (by decide)

/-- The beginning of a text starts with SELECT when its end starts behind the word. -/
theorem of_append {gap : List Char} (h : StartsSelect (cs ++ gap))
    (hgap : ∀ c ∈ gap.head?, isKeyLetter (fold c) = false) : StartsSelect cs := by
  obtain ⟨w, rest, hcs, hw, hends⟩ := iff_exists.mp h
  apply iff_exists.mpr
  rcases List.append_eq_append_iff.mp hcs with ⟨k, rfl, hk⟩ | ⟨k, rfl, rfl⟩
  · -- the word would run on into the end
    cases k with
    | nil => exact ⟨cs, [], (List.append_nil cs).symm, by simpa using hw, rfl⟩
    | cons c k =>
      have hkey := ((letters hw).2 c (by simp)).1
      rw [hgap c (by rw [hk]; rfl)] at hkey
      cases hkey
  · exact ⟨w, k, rfl, hw, endsWord_of_append hends⟩

theorem append {c : Char} (h : StartsSelect cs) (hc : isWord c = false) (more : List Char) :
    StartsSelect (cs ++ c :: more) := by
  obtain ⟨w, rest, rfl, hw, hends⟩ := iff_exists.mp h
  refine iff_exists.mpr ⟨w, rest ++ c :: more, by rw [List.append_assoc], hw, ?_⟩
  cases rest with
  | nil => simp [endsWord, hc]
  | cons d rest => exact hends

theorem head_not_blank (h : StartsSelect cs) : ∀ c ∈ cs.head?, isBlank c = false := by
  obtain ⟨w, rest, rfl, hw, -⟩ := iff_exists.mp h
  obtain ⟨hne, hletters⟩ := letters hw
  obtain ⟨d, w, rfl⟩ := List.exists_cons_of_ne_nil hne
  rintro c hc
  cases hc
  exact isBlank_of_isKeyLetter_fold (hletters d List.mem_cons_self).1

theorem dropEndWhile {p : Char → Bool} (h : StartsSelect cs)
    (hp : ∀ c, p c → isKeyLetter (fold c) = false) : StartsSelect (dropEndWhile p cs) := by
  obtain ⟨gap, hcs, hgap⟩ := exists_dropEndWhile p cs
  rw [hcs] at h
  exact h.of_append fun c hc => hp c (hgap c (List.mem_of_head? hc))

theorem isKeyLetter_fold_of_isBlank {c : Char} (h : isBlank c) : isKeyLetter (fold c) = false := by
  rw [← Bool.not_eq_true]
  intro hkey
  rw [isBlank_of_isKeyLetter_fold hkey] at h
  cases h

theorem trimEnd (h : StartsSelect cs) : StartsSelect (trimEnd cs) :=
  h.dropEndWhile fun _ => isKeyLetter_fold_of_isBlank

theorem trim (h : StartsSelect cs) : StartsSelect (trim cs) := by
  have htrim : Text.trim cs = Text.trimEnd cs := by
    rw [Text.trim, dropBothWhile, dropWhile_eq_self h.head_not_blank]
    rfl
  rw [htrim]
  exact h.trimEnd

theorem statement (h : StartsSelect cs) : StartsSelect (Sql.statement cs) := by
  refine (h.trim.dropEndWhile fun c hc => ?_).trim
  rw [beq_iff_eq.mp hc]
  decide

/-! ## Reading -/

theorem mask (h : StartsSelect cs) : StartsSelect (Sql.mask cs) := by
  obtain ⟨w, rest, rfl, hw, hends⟩ := iff_exists.mp h
  have hquote : ∀ c ∈ w, Sql.isQuote c = false := fun c hc => ((letters hw).2 c hc).2.2
  refine iff_exists.mpr ⟨w, Sql.mask rest, ?_, hw, ?_⟩
  · rw [Sql.mask_append (Sql.closed_of_no_quote hquote), Sql.mask_of_no_quote hquote]
  · rw [endsWord, Sql.head?_mask]
    exact hends

theorem clauses?_isSome (h : StartsSelect cs) : (Sql.clauses? cs).isSome := by
  obtain ⟨c, m, hm⟩ : ∃ c m, Sql.mask cs = c :: m := by
    obtain ⟨w, rest, hcs, hw, -⟩ := iff_exists.mp h.mask
    obtain ⟨c, w, rfl⟩ := List.exists_cons_of_ne_nil (letters hw).1
    exact ⟨c, w ++ rest, hcs⟩
  have hdepth : ∃ ds, Sql.depths (c :: m) = 0 :: ds := by
    rw [Sql.depths, Sql.depthsFrom]
    split_ifs <;> exact ⟨_, rfl⟩
  obtain ⟨ds, hds⟩ := hdepth
  obtain ⟨rest, hkeyword⟩ := Option.isSome_iff_exists.mp h.mask
  rw [hm] at hkeyword
  have hheading : (Sql.heading? .select 0 (Sql.mask cs)).isSome := by
    have hafter : Sql.Clause.select.after? ⟨0, none, c :: m⟩ = some rest := hkeyword
    rw [Sql.heading?, List.findSome?_isSome_iff]
    refine ⟨(⟨0, none, c :: m⟩, 0), ?_, ?_⟩
    · rw [hm, hds, places, placesFrom, List.zip_cons_cons]
      exact List.mem_cons_self
    · simp [hafter]
  obtain ⟨first, hfirst⟩ := Option.isSome_iff_exists.mp hheading
  rw [Sql.clauses?, Sql.headings?, hfirst]
  rfl

/-- The text is read as a query, or not at all. -/
theorem read?_ne_none {sql : String} (h : StartsSelect sql.toList) (c : Catalog) :
    Sql.Query.read? c sql ≠ .ok none := by
  obtain ⟨clauses, hclauses⟩ := Option.isSome_iff_exists.mp h.statement.clauses?_isSome
  rw [Sql.Query.read?]
  simp only [hclauses]
  cases Sql.Query.ofClauses c (Sql.statement sql.toList) clauses with
  | error => exact nofun
  | ok => exact nofun

/-! ## Ordering -/

/-- A LIMIT clause stands behind the word. -/
theorem take_clauseStart (h : StartsSelect cs) {start : Nat}
    (hstart : Sql.clauseStart? .limit cs = some start) : StartsSelect (cs.take start) := by
  obtain ⟨heading, hheading, rfl⟩ := Option.map_eq_some_iff.mp hstart
  obtain ⟨⟨p, d⟩, hmem, hfound⟩ := List.exists_of_findSome?_eq_some hheading
  obtain ⟨pre, post, hmask, rfl⟩ := mem_places.mp (List.of_mem_zip hmem).1
  have hkeyword : heading.start = pre.length ∧ wordStart pre.getLast? ∧
      ∃ v more, post = v ++ more ∧ v.map fold = "limit".toList := by
    have hfound : (if 0 ≤ pre.length ∧ d = 0 then
        (Place.keyword? "limit" ⟨pre.length, pre.getLast?, post⟩).map fun rest =>
          (⟨.limit, pre.length, (Sql.mask cs).length - rest.length⟩ : Sql.Heading)
        else none) = some heading := hfound
    split at hfound
    next =>
      obtain ⟨more, hmore, rfl⟩ := Option.map_eq_some_iff.mp hfound
      rw [Place.keyword?] at hmore
      split at hmore
      next hword =>
        obtain ⟨v, hpost, hv⟩ := letters?_eq_some_iff.mp (Option.filter_eq_some_iff.mp hmore).1
        exact ⟨rfl, hword, v, more, hpost, hv⟩
      next => cases hmore
    next => cases hfound
  obtain ⟨hoffset, hword, v, more, hpost, hv⟩ := hkeyword
  obtain ⟨w, rest, hcs, hw, hends⟩ := iff_exists.mp h
  have hletters := (letters hw).2
  have hquote : ∀ c ∈ w, Sql.isQuote c = false := fun c hc => (hletters c hc).2.2
  rw [hcs, Sql.mask_append (Sql.closed_of_no_quote hquote), Sql.mask_of_no_quote hquote] at hmask
  rcases List.append_eq_append_iff.mp hmask with ⟨k, hk, -⟩ | ⟨k, hk, hk'⟩
  · -- the keyword stands behind the word
    rw [hoffset, hk, List.length_append, hcs, List.take_length_add_append]
    refine iff_exists.mpr ⟨w, rest.take k.length, rfl, hw, endsWord_of_append (b := rest.drop k.length) ?_⟩
    rw [List.take_append_drop]
    exact hends
  · exfalso
    cases hlast : pre.getLast? with
    | none =>
      rw [List.getLast?_eq_none_iff] at hlast
      rw [hlast, List.nil_append] at hk
      rw [← hk, hpost] at hk'
      cases v with
      | nil => cases hv
      | cons c v =>
        obtain ⟨d, w, rfl⟩ := List.exists_cons_of_ne_nil (letters hw).1
        obtain ⟨rfl, -⟩ := List.cons.inj hk'
        have hs : fold c = 's' := (List.cons.inj hw).1
        have hl : fold c = 'l' := (List.cons.inj hv).1
        rw [hs] at hl
        exact absurd hl (by decide)
    | some c =>
      have hmem : c ∈ w := by
        rw [hk]
        exact List.mem_append_left k (List.mem_of_getLast? hlast)
      rw [hlast, wordStart, Option.any_some, isWord_of_isKeyLetter_fold (hletters c hmem).1] at hword
      cases hword

/-- A statement that is ordered by time still starts with SELECT. -/
theorem temporalOrder {sql : String} (h : StartsSelect sql.toList) (c : Catalog)
    (query : Option Sql.Query) : StartsSelect (temporalOrder c sql query).toList := by
  rw [MetricLayer.temporalOrder]
  split
  · exact h
  · split
    · exact h
    · rw [toList_within, insertOrder]
      split
      · exact h.append (by decide +kernel) _
      · next start hstart =>
        rw [List.append_assoc]
        exact (h.take_clauseStart hstart).trimEnd.append (by decide +kernel) _

end StartsSelect

/-! ## Replies -/

namespace Reply

theorem startsSelect_of_fromSelect? {cs sql : List Char} (h : fromSelect? cs = some sql) :
    StartsSelect sql := by
  obtain ⟨p, hp, rfl⟩ := Option.map_eq_some_iff.mp h
  rcases Option.or_eq_some_iff.mp hp with hupper | ⟨-, hany⟩
  · have hselect := List.find?_some hupper
    rw [isUpperSelect, Bool.and_eq_true] at hselect
    obtain ⟨rest, hrest, hends⟩ := (Option.any_eq_true _ _).mp hselect.2
    exact StartsSelect.iff_exists.mpr ⟨"SELECT".toList, rest,
      (List.isPrefixOf?_eq_some_iff_append_eq.mp hrest).symm, by decide, hends⟩
  · have hkeyword := List.find?_some (p := fun p : Place => (p.keyword? "select").isSome) hany
    rw [Place.keyword?] at hkeyword
    split at hkeyword
    · obtain ⟨rest, hkeyword⟩ := Option.isSome_iff_exists.mp hkeyword
      obtain ⟨hletters, hends⟩ := Option.filter_eq_some_iff.mp hkeyword
      obtain ⟨w, hw, hfold⟩ := letters?_eq_some_iff.mp hletters
      exact StartsSelect.iff_exists.mpr ⟨w, rest, hw, hfold, hends⟩
    · cases hkeyword

theorem startsSelect_beforeSemicolon {cs : List Char} (h : StartsSelect cs) :
    StartsSelect (beforeSemicolon cs) := by
  obtain ⟨w, rest, rfl, hw, hends⟩ := StartsSelect.iff_exists.mp h
  have hletters := (StartsSelect.letters hw).2
  have hquote : ∀ c ∈ w, Sql.isQuote c = false := fun c hc => (hletters c hc).2.2
  have hsemicolon : ∀ c ∈ w, (c != ';') = true := fun c hc => bne_iff_ne.mpr (hletters c hc).2.1
  rw [beforeSemicolon, Sql.mask_append (Sql.closed_of_no_quote hquote), Sql.mask_of_no_quote hquote,
    List.takeWhile_append_of_pos hsemicolon, List.length_append, List.take_length_add_append]
  refine StartsSelect.iff_exists.mpr ⟨w, _, rfl, hw,
    endsWord_of_append (b := rest.drop ((Sql.mask rest).takeWhile (· != ';')).length) ?_⟩
  rw [List.take_append_drop]
  exact hends

theorem exists_of_statement {reply sql : String} (h : statement reply = .ok sql) :
    ∃ cs, StartsSelect cs ∧ sql.toList = trim (beforeSemicolon cs) := by
  rw [statement] at h
  cases hsearched : searched reply.toList with
  | error => rw [hsearched] at h; cases h
  | ok cs =>
    cases hselect : fromSelect? cs with
    | none => simp only [hsearched, Except.mapError, Bind.bind, Except.bind, hselect] at h; cases h
    | some found =>
      simp only [hsearched, Except.mapError, Bind.bind, Except.bind, hselect] at h
      cases h
      exact ⟨found, startsSelect_of_fromSelect? hselect, String.toList_ofList⟩

/-- A statement taken out of a reply starts with SELECT. -/
theorem startsSelect_of_statement {reply sql : String} (h : statement reply = .ok sql) :
    StartsSelect sql.toList := by
  obtain ⟨cs, hcs, hsql⟩ := exists_of_statement h
  rw [hsql]
  exact (startsSelect_beforeSemicolon hcs).trim

/-- No semicolon stands outside quotes before the first one. -/
theorem not_mem_mask_beforeSemicolon (cs : List Char) : ';' ∉ Sql.mask (beforeSemicolon cs) := by
  have hmask : Sql.mask (beforeSemicolon cs) = (Sql.mask cs).takeWhile (· != ';') := by
    have hprefix := List.takeWhile_prefix (· != ';') (l := Sql.mask cs)
    rw [List.prefix_iff_eq_take.mp hprefix, beforeSemicolon, Sql.mask_take]
  rw [hmask]
  intro hmem
  exact absurd (List.mem_takeWhile_imp hmem) (by decide)

/-- A closed statement taken out of a reply is a statement as it is. -/
theorem statement_eq_self {reply sql : String} (h : statement reply = .ok sql)
    (hclosed : Sql.Closed sql.toList) : Sql.statement sql.toList = sql.toList := by
  obtain ⟨cs, -, hsql⟩ := exists_of_statement h
  have htrim : Trimmed sql.toList := hsql ▸ trimmed_trim _
  have hsemicolon : dropEndWhile (· == ';') sql.toList = sql.toList := by
    apply dropEndWhile_eq_self
    rw [← Sql.getLast?_mask hclosed]
    intro c hlast
    rw [beq_eq_false_iff_ne]
    rintro rfl
    obtain ⟨a, b, hcut, ha, -⟩ := exists_trim (beforeSemicolon cs)
    apply not_mem_mask_beforeSemicolon cs
    rw [hcut, ← hsql, List.append_assoc, Sql.mask_append (Sql.closed_of_blank ha),
      Sql.mask_append hclosed]
    exact List.mem_append_right _ (List.mem_append_left _ (List.mem_of_getLast? hlast))
  rw [Sql.statement, trim_eq_self htrim, hsemicolon, trim_eq_self htrim]

end Reply

end MetricLayer
