import MetricLayer.Proofs.Sql.Alias
import MetricLayer.Proofs.Sql.Statement
import MetricLayer.Selection.Compile

/-!
# The ordering of a selection

An entry of an ordering that names a result column, with a direction perhaps, is written as the name in
quotes and the direction in capitals (`OrderKey.sql_text`).
-/

namespace MetricLayer

open MetricLayer.Text MetricLayer.Sql

/-! ## Directions -/

/-- A letter of a direction has one upper-case form, however it is written. -/
theorem upperChar_of_fold {c k : Char} (hk : k ∈ ['a', 's', 'c', 'd', 'e']) (h : fold c = k) :
    upperChar c = upperChar k := by
  have hlong : upperChar (Char.ofNat 0x17f) = upperChar 's' := by decide +kernel
  have hcapital : ∀ k ∈ ['a', 's', 'c', 'd', 'e'], upperChar (Char.ofNat (k.toNat - 32)) = upperChar k := by
    decide
  rw [fold] at h
  split at h
  next hc =>
    rw [← h, ← hlong, ← hc, Char.ofNat_toNat]
  split at h
  next =>
    subst h
    exact absurd hk (by decide)
  split at h
  next =>
    subst h
    exact absurd hk (by decide)
  have hnat := toNat_toLower c
  rw [h] at hnat
  split at hnat
  next =>
    have hc : c = Char.ofNat (k.toNat - 32) := by
      rw [hnat, Nat.add_sub_cancel, Char.ofNat_toNat]
    rw [hc, hcapital k hk]
  next => rw [Char.toNat_inj.mp hnat.symm]

/-- The directions in lower case. -/
def directionWords : List String := ["asc", "desc"]

theorem not_isBlank_of_mem_direction {d : List Char} {c : Char}
    (h : ∃ w ∈ directionWords, d.map fold = w.toList) (hc : c ∈ d) : isBlank c = false := by
  have hkeys : ∀ w ∈ directionWords, ∀ k ∈ w.toList, isKeyLetter k := by decide
  obtain ⟨w, hw, hd⟩ := h
  exact isBlank_of_isKeyLetter_fold (hkeys w hw _ (hd ▸ List.mem_map_of_mem hc))

namespace OrderKey

theorem direction?_eq_some_iff {cs d : List Char} :
    direction? cs = some d ↔
      ∃ gap, gap ≠ [] ∧ (∀ c ∈ gap, isBlank c) ∧ cs = gap ++ d ∧
        ∃ w ∈ directionWords, d.map fold = w.toList := by
  have hword (w : String) : (letters? w.toList d == some []) = true ↔ d.map fold = w.toList := by
    rw [beq_iff_eq, letters?_eq_some_iff]
    constructor
    · rintro ⟨x, hx, hw⟩
      rw [hx, List.append_nil, hw]
    · intro hw
      exact ⟨d, (List.append_nil d).symm, hw⟩
  have hwords : (directionWords.any fun w => letters? w.toList d == some []) = true ↔
      ∃ w ∈ directionWords, d.map fold = w.toList := by
    rw [List.any_eq_true]
    exact exists_congr fun w => and_congr_right fun _ => hword w
  constructor
  · intro h
    simp only [direction?, Option.bind_eq_bind, Option.bind_eq_some_iff] at h
    obtain ⟨rest, hrest, h⟩ := h
    split at h
    next hany =>
      obtain rfl := Option.some.inj h
      obtain ⟨gap, hne, hgap, hcs, -⟩ := afterBlank?_eq_some_iff.mp hrest
      exact ⟨gap, hne, hgap, hcs, hwords.mp hany⟩
    next => cases h
  · rintro ⟨gap, hne, hgap, rfl, hd⟩
    have hhead : ∀ c ∈ d.head?, isBlank c = false := by
      intro c hc
      exact (not_isBlank_of_mem_direction hd (List.mem_of_head? hc))
    have hrest := afterBlank?_eq_some_iff.mpr ⟨gap, hne, hgap, rfl, hhead⟩
    have hany := hwords.mpr hd
    simp only [direction?, hrest, Option.bind_eq_bind, Option.bind_some]
    exact if_pos hany

/-- A direction is found where its white space starts, behind a name that ends in no white space. -/
theorem splitDirection_append {name gap d : List Char} (hname : Trimmed name) (hne : name ≠ [])
    (hgap : gap ≠ [] ∧ ∀ c ∈ gap, isBlank c) (hd : ∃ w ∈ directionWords, d.map fold = w.toList) :
    splitDirection (name ++ (gap ++ d)) = (name, some d) := by
  -- no direction starts inside the name
  have hinside : ∀ x y, name = x ++ y → y ≠ [] → direction? (y ++ (gap ++ d)) = none := by
    rintro x y rfl hy
    rw [Option.eq_none_iff_forall_ne_some]
    intro d' h
    obtain ⟨gap', -, hgap', htext, hd'⟩ := direction?_eq_some_iff.mp h
    rcases List.append_eq_append_iff.mp htext with ⟨k, rfl, -⟩ | ⟨k, -, rfl⟩
    · obtain ⟨init, c, rfl⟩ := (List.eq_nil_or_concat' y).resolve_left hy
      have hc := hname.2 c (by rw [← List.append_assoc, List.getLast?_concat]; rfl)
      rw [hgap' c (by simp)] at hc
      cases hc
    · obtain ⟨c, gap, rfl⟩ := List.exists_cons_of_ne_nil hgap.1
      have hc := not_isBlank_of_mem_direction hd' (c := c) (by simp)
      rw [hgap.2 c List.mem_cons_self] at hc
      cases hc
  have hdirection : direction? (gap ++ d) = some d :=
    direction?_eq_some_iff.mpr ⟨gap, hgap.1, hgap.2, rfl, hd⟩
  have hsearch : ∀ (y x : List Char) (n : Nat) (b : Option Char), name = x ++ y → n = x.length →
      (placesFrom n b (y ++ (gap ++ d))).findSome?
        (fun p => (direction? p.rest).map (p.offset, ·)) = some (name.length, d) := by
    intro y
    induction y with
    | nil =>
      intro x n b hx hn
      obtain ⟨c, cs, hcs⟩ := List.exists_cons_of_ne_nil (List.append_ne_nil_of_left_ne_nil hgap.1 d)
      rw [List.nil_append, hcs, placesFrom, List.findSome?_cons, ← hcs, hdirection, hn, hx,
        List.append_nil]
      rfl
    | cons c y ih =>
      intro x n b hx hn
      rw [List.cons_append, placesFrom, List.findSome?_cons, ← List.cons_append,
        hinside x (c :: y) hx (List.cons_ne_nil c y)]
      exact ih (x ++ [c]) (n + 1) (some c) (by simp [hx]) (by simp [hn])
  obtain ⟨c, cs, hcs⟩ := List.exists_cons_of_ne_nil hne
  have htail : (places (name ++ (gap ++ d))).tail = placesFrom 1 (some c) (cs ++ (gap ++ d)) := by
    rw [hcs]
    rfl
  rw [splitDirection, htail, hsearch cs [c] 1 (some c) hcs rfl]
  show ((name ++ (gap ++ d)).take name.length, some d) = _
  rw [List.take_left]

/-- The text names a result column, with a direction perhaps.  The name holds no double quote and does
not end in a direction itself. -/
def NamesColumn (names : List String) (s : String) : Prop :=
  ∃ name ∈ names, '"' ∉ name.toList ∧ (splitDirection name.toList).2 = none ∧
    ∃ rest, trim s.toList = name.toList ++ rest ∧ (rest = [] ∨ (direction? rest).isSome)

/-- An entry by position, or by result column. -/
def IsPlain (names : List String) : OrderKey → Prop
  | .position _ => True
  | .text s => NamesColumn names s

theorem splitDirection_eq_of_none {cs : List Char} (h : (splitDirection cs).2 = none) :
    splitDirection cs = (cs, none) := by
  rw [splitDirection] at h ⊢
  split at h
  · cases h
  · rfl

theorem upper_direction {d : List Char} (hd : ∃ w ∈ directionWords, d.map fold = w.toList) :
    String.ofList (upper d) ∈ ["ASC", "DESC"] := by
  have hletters : ∀ w ∈ directionWords, ∀ k ∈ w.toList, k ∈ ['a', 's', 'c', 'd', 'e'] := by decide
  have hwords : ∀ w ∈ directionWords, String.ofList (upper w.toList) ∈ ["ASC", "DESC"] := by decide
  obtain ⟨w, hw, hfold⟩ := hd
  have hupper : upper d = upper w.toList := by
    rw [← hfold, upper, upper, List.flatMap_map]
    apply List.flatMap_congr
    intro c hc
    exact upperChar_of_fold (hletters w hw _ (hfold ▸ List.mem_map_of_mem hc)) rfl
  rw [hupper]
  exact hwords w hw

theorem dropBothWhile_quote {cs : List Char} (h : '"' ∉ cs) : dropBothWhile (· == '"') cs = cs := by
  apply dropBothWhile_eq_self
  constructor
  · intro c hc
    exact beq_eq_false_iff_ne.mpr fun heq => h (heq ▸ List.mem_of_head? hc)
  · intro c hc
    exact beq_eq_false_iff_ne.mpr fun heq => h (heq ▸ List.mem_of_getLast? hc)

/-- A result column is written in quotes, with its direction in capitals. -/
theorem sql_text {names : List String} (hnames : ∀ n ∈ names, Trimmed n.toList ∧ n ≠ "") {s : String}
    (h : NamesColumn names s) :
    ∃ name ∈ names, OrderKey.sql names (.text s) = quote name ∨
      ∃ w ∈ ["ASC", "DESC"], OrderKey.sql names (.text s) = quote name ++ " " ++ w := by
  obtain ⟨name, hmem, hquote, hnone, rest, htext, hrest⟩ := h
  obtain ⟨htrim, hne⟩ := hnames name hmem
  have hbare := dropBothWhile_quote hquote
  have hcontains : names.contains name = true := List.contains_iff_mem.mpr hmem
  refine ⟨name, hmem, ?_⟩
  rcases hrest with rfl | hsome
  · left
    rw [List.append_nil] at htext
    simp only [OrderKey.sql, htext, splitDirection_eq_of_none hnone, hbare, String.ofList_toList,
      hcontains, if_true]
  · right
    obtain ⟨d, hd⟩ := Option.isSome_iff_exists.mp hsome
    obtain ⟨gap, hgap, hblank, rfl, hword⟩ := direction?_eq_some_iff.mp hd
    refine ⟨String.ofList (upper d), upper_direction hword, ?_⟩
    simp only [OrderKey.sql, htext, splitDirection_append htrim (by simpa using hne) ⟨hgap, hblank⟩ hword,
      hbare, String.ofList_toList, hcontains, if_true]

/-- A name with a direction in capitals behind it, whatever the name ends in. -/
theorem splitDirection_concat {name w : String} (hname : Trimmed name.toList ∧ name ≠ "")
    (hw : w ∈ ["ASC", "DESC"]) :
    splitDirection (trim (name ++ " " ++ w).toList) = (name.toList, some w.toList) ∧
      String.ofList (upper w.toList) = w := by
  have hfixed : ∀ w ∈ ["ASC", "DESC"], (∃ v ∈ directionWords, w.toList.map fold = v.toList) ∧
      String.ofList (upper w.toList) = w ∧ ∃ d ∈ w.toList.getLast?, isBlank d = false := by
    decide
  obtain ⟨hdirection, hupper, d, hd, hblank⟩ := hfixed w hw
  have hgap : [' '] ≠ [] ∧ ∀ c ∈ [' '], isBlank c := by decide
  have htext : (name ++ " " ++ w).toList = name.toList ++ ([' '] ++ w.toList) := by
    simp
  have htrim : Trimmed (name.toList ++ ([' '] ++ w.toList)) := by
    obtain ⟨c, cs, hcs⟩ := List.exists_cons_of_ne_nil (l := name.toList) (by simpa using hname.2)
    refine trimmed_of_ends (c := c) (d := d) (hname.1.1 c (by rw [hcs]; rfl)) hblank ?_ ?_
    · rw [hcs]
      rfl
    · rw [List.getLast?_append, List.getLast?_append, Option.mem_def.mp hd]
      rfl
  rw [htext, trim_eq_self htrim]
  exact ⟨splitDirection_append hname.1 (by simpa using hname.2) hgap hdirection, hupper⟩

/-- A result column with a direction behind it, whatever the name ends in. -/
theorem sql_direction {names : List String} {name w : String} (hmem : name ∈ names)
    (hname : Trimmed name.toList ∧ name ≠ "") (hquote : '"' ∉ name.toList) (hw : w ∈ ["ASC", "DESC"]) :
    OrderKey.sql names (.text (name ++ " " ++ w)) = quote name ++ " " ++ w := by
  obtain ⟨hsplit, hupper⟩ := splitDirection_concat hname hw
  have hbare := dropBothWhile_quote hquote
  have hcontains : names.contains name = true := List.contains_iff_mem.mpr hmem
  simp only [OrderKey.sql, hsplit, hbare, String.ofList_toList, hcontains, hupper, if_true]

theorem listPart_quote {inner : List Char → Prop} (name : String) :
    ListPart inner (quote name).toList where
  laid := .quote (by decide) (by decide) name
  ne_nil := by
    rw [toList_quote]
    exact List.cons_ne_nil _ _
  trimmed := trimmed_quote name
  ends := by
    rw [toList_quote, List.getLast?_concat]
    decide

/-- A direction behind a part. -/
theorem listPart_direction {inner : List Char → Prop} {cs : List Char} (h : ListPart inner cs)
    {w : String} (hw : w ∈ ["ASC", "DESC"]) : ListPart inner (cs ++ (" " ++ w).toList) := by
  have hfixed : ∀ w ∈ ["ASC", "DESC"], (Closed (" " ++ w).toList ∧
      isLaidOut searchedWords (fun c => c != ',') none (mask (" " ++ w).toList)) ∧
        (" " ++ w).toList.getLast?.any fun c => !isBlank c && c != ';' := by
    decide
  obtain ⟨⟨hclosed, hlaid⟩, hlast⟩ := hfixed w hw
  obtain ⟨d, hd, hends⟩ := (Option.any_eq_true _ _).mp hlast
  obtain ⟨c, cs, rfl⟩ := List.exists_cons_of_ne_nil h.ne_nil
  have hgetLast : (c :: cs ++ (" " ++ w).toList).getLast? = some d := by
    rw [List.getLast?_append, hd, Option.some_or]
  rw [Bool.and_eq_true, Bool.not_eq_true', bne_iff_ne] at hends
  refine ⟨h.laid.append (.of_fixed_noComma hclosed hlaid), by simp, ⟨?_, ?_⟩, ?_⟩
  · exact h.trimmed.1
  · rw [hgetLast]
    rintro e he
    cases he
    exact hends.1
  · rw [hgetLast]
    rintro e he
    cases he
    exact hends.2

/-- What is written for an entry is a part of the ORDER BY clause. -/
theorem listPart_sql {inner : List Char → Prop} {names : List String}
    (hnames : ∀ n ∈ names, Trimmed n.toList ∧ n ≠ "") {key : OrderKey} (h : key.IsPlain names) :
    ListPart inner (key.sql names).toList := by
  cases key with
  | position n => exact part_of_digits (fun c hc => mem_toString_int hc) (toString_int_ne_nil n)
  | text s =>
    obtain ⟨name, -, hsql | ⟨w, hw, hsql⟩⟩ := sql_text hnames h
    · rw [hsql]
      exact listPart_quote name
    · rw [hsql, String.append_assoc, String.toList_append]
      exact listPart_direction (listPart_quote name) hw

end OrderKey

end MetricLayer
