import MetricLayer.Proofs.Safety.Calm
import MetricLayer.Proofs.Safety.Reference

/-!
# Statements over one table

A statement whose one FROM names the table of the catalog, in quotes, passes the gate when the rest of it is
tame (`violations_eq_nil`): the gate finds no keyword but that FROM (`eq_of_isSourceWord`), and reads the table
behind it whatever letters and punctuation its name has.
-/

namespace MetricLayer.Safety

open MetricLayer.Text MetricLayer.Sql

/-- The words that the gate searches. -/
def gateWords : List String :=
  dangerousWords ++ ["from", "join"]

theorem areWords_gateWords : AreWords gateWords := by
  decide

theorem areWords_dangerousWords : AreWords dangerousWords := by
  decide

variable {front back a w b l n pre post m m' : List Char}

/-! ## The one FROM -/

theorem IsSourceWord.exists_word (h : IsSourceWord w) : ∃ word ∈ gateWords, w.map fold = word.toList := by
  rcases h with h | h
  · exact ⟨"from", by decide, h⟩
  · exact ⟨"join", by decide, h⟩

theorem IsSourceWord.length_eq (h : IsSourceWord w) : w.length = 4 := by
  rcases h with h | h
  · rw [← List.length_map (f := fold), h]
    rfl
  · rw [← List.length_map (f := fold), h]
    rfl

theorem IsSourceWord.mask_append (h : IsSourceWord w) (cs : List Char) : mask (w ++ cs) = w ++ mask cs := by
  have hplain : ∀ c ∈ w, isQuote c = false := fun c hc => (h.isWord_and_plain c hc).2.1
  rw [Sql.mask_append (closed_of_no_quote hplain), mask_of_no_quote hplain]

/-- No FROM or JOIN stands in a calm text. -/
theorem Calm.not_isSourceWord (hm : Calm gateWords m) (hsplit : m = pre ++ (w ++ post)) (hw : IsSourceWord w)
    (hstart : wordStart (lastOr none pre)) (hstop : endsWord post) : False := by
  obtain ⟨word, hmem, hword⟩ := hw.exists_word
  have hfound : hasKeyword word m := hasKeyword_iff.mpr ⟨pre, w, post, hsplit, hword, hstart, hstop⟩
  rw [hm.noWord word hmem] at hfound
  cases hfound

/-- Between calm texts there is one FROM. -/
theorem length_eq_of_isSourceWord (hm : Calm gateWords m) (hlast : ∀ c ∈ m.getLast?, isInert c)
    (hm' : Calm gateWords m') (hhead : ∀ c ∈ m'.head?, isInert c)
    (htext : m ++ ("FROM".toList ++ m') = pre ++ (w ++ post)) (hw : IsSourceWord w)
    (hstart : wordStart (lastOr none pre)) (hstop : endsWord post) : pre.length = m.length := by
  obtain ⟨word, hmem, hword⟩ := hw.exists_word
  have hinert := isInert_of_keyword (areWords_gateWords word hmem).2 hword
  have hseam {cs ds : List Char} (h : Seam cs ds) : (∀ c ∈ cs.getLast?, c ∉ w) ∨ ∀ c ∈ ds.head?, c ∉ w :=
    h.not_mem hinert
  rcases exists_of_infix_append (hseam (Or.inl hlast)) htext with ⟨k, hk, rfl⟩ | ⟨k, hk, rfl⟩
  · refine (hm.not_isSourceWord hk hw hstart ?_).elim
    cases k with
    | nil => rfl
    | cons c k => exact hstop
  · have hstart' : wordStart (lastOr none k) := wordStart_of_append hstart
    rcases exists_of_infix_append (hseam (Or.inr hhead)) hk with ⟨k', hk', -⟩ | ⟨k', hk', rfl⟩
    · have hsum := congrArg List.length hk'
      have hfour : "FROM".toList.length = 4 := rfl
      rw [List.length_append, List.length_append, hw.length_eq, hfour] at hsum
      rw [List.length_append]
      omega
    · exact (hm'.not_isSourceWord hk' hw (wordStart_of_append hstart') hstop).elim

theorem eq_of_isSourceWord (hfront : Tame gateWords front) (hlast : ∀ c ∈ front.getLast?, isInert c)
    (hback : Tame gateWords back) (hhead : ∀ c ∈ back.head?, isInert c)
    (htext : front ++ ("FROM".toList ++ back) = a ++ (w ++ b)) (ha : Closed a) (hw : IsSourceWord w)
    (hstart : wordStart (lastOr none a)) (hstop : endsWord b) : a = front ∧ b = back := by
  have hfrom : IsSourceWord "FROM".toList := Or.inl rfl
  have hmask : mask front ++ ("FROM".toList ++ mask back) = mask a ++ (w ++ mask b) := by
    rw [← hfrom.mask_append, ← hw.mask_append, ← mask_append hfront.closed, ← mask_append ha, htext]
  have hlength : (mask a).length = (mask front).length := by
    refine length_eq_of_isSourceWord hfront.calm ?_ hback.calm ?_ hmask hw ?_ ?_
    · rw [getLast?_mask hfront.closed]
      exact hlast
    · rw [head?_mask]
      exact hhead
    · rw [lastOr_none, getLast?_mask ha, ← lastOr_none]
      exact hstart
    · rw [endsWord, head?_mask]
      exact hstop
  rw [mask, mask, length_maskFrom, length_maskFrom] at hlength
  obtain ⟨hfronts, hrest⟩ := List.append_inj htext hlength.symm
  obtain ⟨-, hbacks⟩ := List.append_inj hrest (by rw [hw.length_eq]; rfl)
  exact ⟨hfronts.symm, hbacks.symm⟩

/-! ## The table -/

/-- The parts of a table name can stand between points, and are read as they are. -/
theorem isPlain_tablePart {table m : String} (htable : ∀ d ∈ table.toList, isQuote d = false)
    (hm : m ∈ tableParts table) : (Name.quoted (double m.toList)).IsPlain := by
  obtain ⟨piece, hpiece, rfl⟩ := List.mem_map.mp hm
  have hquote {q : Char} (hq : isQuote q) : q ∉ piece := by
    intro hmem
    rw [htable q (mem_of_mem_splitAll hpiece hmem)] at hq
    cases hq
  have hpoint : '.' ∉ piece := fun hmem => absurd (not_mem_of_mem_splitAll hpiece hmem) (by decide)
  simp only [Name.IsPlain, mem_double_iff, String.toList_ofList]
  exact ⟨hquote rfl, hquote rfl, hpoint⟩

theorem map_text_quoted (names : List String) :
    (names.map fun m => Name.quoted (double m.toList)).map Name.text = names := by
  have htext (m : String) : Name.text (.quoted (double m.toList)) = m := by
    rw [Name.text, undouble_double, String.ofList_toList]
  simp [Function.comp_def, htext]

/-- A text with one FROM, which stands between white space and names the table of a catalog in quotes. -/
structure IsOverTable (c : Catalog) (front back cs : List Char) : Prop where
  text : cs = front ++ ("FROM".toList ++ ' ' :: ((quoteTable c.table).toList ++ back))
  tameFront : Tame gateWords front
  frontEnds : ∀ d ∈ front.getLast?, isBlank d
  tameBack : Tame gateWords back
  backStarts : ∀ d ∈ back.head?, isBlank d
  notPoint : afterPoint? back = none
  /-- No quote and no empty part is in the name of the table. -/
  table : (∀ d ∈ c.table.toList, isQuote d = false) ∧ "" ∉ tableParts c.table

namespace IsOverTable

variable {c : Catalog} {cs : List Char}

/-- What follows FROM is tame. -/
theorem tame_tail (h : IsOverTable c front back cs) :
    Tame gateWords (' ' :: ((quoteTable c.table).toList ++ back)) := by
  have hspace : Tame gateWords [' '] := .of_fixed (by decide)
  have hname : Tame gateWords (quoteTable c.table).toList := by
    have hparts : ∀ m ∈ tableParts c.table, '\'' ∉ m.toList := by
      intro m hm hmem
      obtain ⟨-, htick, -⟩ := isPlain_tablePart h.table.1 hm
      exact htick (mem_double_iff.mpr hmem)
    rw [toList_quoteTable]
    exact Tame.dotted areWords_gateWords (by decide) hparts
  have hrest : Tame gateWords ((quoteTable c.table).toList ++ back) :=
    hname.append areWords_gateWords (Or.inr fun d hd => isInert_of_isBlank (h.backStarts d hd)) h.tameBack
  rw [← List.singleton_append]
  exact hspace.append areWords_gateWords (Or.inl (by simp; decide)) hrest

theorem refers (h : IsOverTable c front back cs) : Refers ((quoteTable c.table).toList ++ back)
    ((tableParts c.table).map fun m => .quoted (double m.toList)) back := by
  obtain ⟨first, parts, hname⟩ := exists_tableParts c.table
  rw [toList_quoteTable, hname]
  refine refers_dotted (fun m hm hm' => h.table.2 (hname ▸ hm' ▸ hm)) (fun hquote => ?_) h.notPoint
  exact absurd (h.backStarts '"' hquote) (by decide)

/-- The gate finds the table behind FROM, and no other. -/
theorem otherTables_eq_nil (h : IsOverTable c front back cs) (hstripped : Stripped cs l n) :
    otherTables c l n = [] := by
  obtain rfl := h.text
  rw [otherTables_eq_nil_iff]
  intro p start length hmem
  right
  obtain ⟨⟨x, y, rfl, rfl⟩, after, hmatch⟩ := of_mem_scan hmem
  obtain ⟨hstart, w, gap, text, hw, hgap, hblank, htext, hy, hafter, rfl, rfl⟩ :=
    tableReference?_eq_some_iff.mp hmatch
  simp only at hy
  subst hy
  obtain ⟨a, la, b, lb, hcs, rfl, ha, hx, hb⟩ :=
    Stripped.cut_blanked hw.ne_nil (fun c hc => (hw.isWord_and_plain c hc).2) hstripped
  obtain ⟨b, lb, rfl, rfl, htail⟩ := hb.of_blanked_append fun c hc => isQuote_of_isBlank (hblank c hc)
  have hstop : endsWord (gap ++ b) := by
    obtain ⟨g, gap, rfl⟩ := List.exists_cons_of_ne_nil hgap
    rw [List.cons_append, endsWord, List.head?_cons, Option.any_some,
      isWord_of_isBlank (hblank g List.mem_cons_self)]
    rfl
  obtain ⟨rfl, hgaps⟩ := eq_of_isSourceWord h.tameFront (fun d hd => isInert_of_isBlank (h.frontEnds d hd))
    h.tame_tail (by rintro d hd; cases hd; decide) hcs ha hw
    (by rw [← (hx.wordStart_lastOr none).2, lastOr_none]; exact hstart) hstop
  -- the reference starts behind the white space
  obtain rfl : (quoteTable c.table).toList ++ back = b := by
    have hdrop := congrArg (List.dropWhile isBlank) hgaps
    rw [List.dropWhile_append_of_pos hblank, dropWhile_eq_self (by rw [← htail.head?_eq.2]; exact htext),
      List.dropWhile_cons_of_pos rfl, dropWhile_eq_self h.refers.head?] at hdrop
    exact hdrop.symm
  obtain ⟨after', hafter', hslice⟩ := Stripped.exists_slice hx (w ++ gap) htail h.refers fun m hm => by
    obtain ⟨part, hpart, rfl⟩ := List.mem_map.mp hm
    exact isPlain_tablePart h.table.1 hpart
  obtain rfl := Option.some.inj (hafter.symm.trans hafter')
  rw [← List.append_assoc w, referenceName_eq, hslice, map_text_quoted, joinWith_tableParts]
  exact List.mem_append_right _ List.mem_cons_self

/-- Outside quotes the text is calm but for its FROM. -/
theorem tame (h : IsOverTable c front back cs) : Tame dangerousWords cs := by
  have hfrom : Tame dangerousWords "FROM".toList := .of_fixed (by decide)
  have hsubset : dangerousWords ⊆ gateWords := List.subset_append_left _ _
  rw [h.text]
  refine (h.tameFront.mono hsubset).append areWords_dangerousWords
    (Or.inl fun d hd => isInert_of_isBlank (h.frontEnds d hd)) ?_
  exact hfrom.append areWords_dangerousWords (Or.inr (by rintro d hd; cases hd; decide)) (h.tame_tail.mono hsubset)

/-- **A statement over one table passes the gate.** -/
theorem violations_eq_nil {sql : String} (h : IsOverTable c front back sql.toList)
    (hselect : "SELECT\n".toList <+: front)
    (hends : ∀ d ∈ sql.toList.getLast?, isBlank d = false ∧ d ≠ ';') : violations c sql = [] := by
  have hstatement : Sql.statement sql.toList = sql.toList := by
    refine statement_eq_self ⟨?_, fun d hd => (hends d hd).1⟩ fun d hd => (hends d hd).2
    obtain ⟨items, rfl⟩ := hselect
    rw [h.text]
    rintro d hd
    cases hd
    rfl
  have hstripped : Stripped sql.toList (withoutLiterals sql.toList) (withoutNames (withoutLiterals sql.toList)) := by
    rw [withoutLiterals, hstatement]
    exact stripped h.tame.closed (NamesAvoid.paired h.tame.unticked fun _ => rfl)
  have houtside := hstripped.sameOutside.symm
  have hcalm := h.tame.calm
  have hstart : startsSelect (withoutLiterals sql.toList) = true := by
    have hhead : "SELECT\n".toList <+: sql.toList := by
      rw [h.text]
      exact hselect.trans (List.prefix_append _ _)
    obtain ⟨-, l, -, -, hl, -, -⟩ := hstripped.exists_of_isPrefix (by decide) (Or.inl hhead)
    rw [hl]
    rfl
  have hsecond : hasSecondStatement (withoutNames (withoutLiterals sql.toList)) = false := by
    have hnone : ';' ∉ withoutNames (withoutLiterals sql.toList) := houtside.not_mem (by decide) hcalm.noSemicolon
    have hdrop : (withoutNames (withoutLiterals sql.toList)).dropWhile (· != ';') = [] :=
      List.dropWhile_eq_nil_iff.mpr fun d hd => bne_iff_ne.mpr fun hd' => hnone (hd' ▸ hd)
    rw [hasSecondStatement, hdrop]
    rfl
  have hword : dangerousWord? (withoutNames (withoutLiterals sql.toList)) = none := by
    have hplain : ∀ w ∈ dangerousWords, ∀ k ∈ w.toList, Plain k := by
      decide
    rw [dangerousWord?_eq_none_iff]
    exact fun w hw =>
      houtside.hasKeyword_eq_false (areWords_dangerousWords w hw).1 (hplain w hw) (hcalm.noWord w hw)
  have hinline := houtside.occurs_eq_false (by decide) (by decide) hcalm.noInlineComment
  have hblock := houtside.occurs_eq_false (by decide) (by decide) hcalm.noBlockComment
  rw [violations]
  simp only [hstart, hsecond, hword, hinline, hblock, h.otherTables_eq_nil hstripped]
  rfl

end IsOverTable

end MetricLayer.Safety
