import MetricLayer.Proofs.Sql.Mask
import MetricLayer.Proofs.Text.Keyword
import MetricLayer.Proofs.Text.Pieces

/-!
# Reading names back

A name in double quotes is read back as it was written (`readName?_quote`), unless it is empty, and so
are names joined by points (`readNames?_dotted`).  Hence the columns of a table are identifiers
(`identifier?_columnRef_eq`), and a table name is found behind FROM (`tableOf_quoteTable`).  Without quotes only
words are read as they stand (`identifier?_eq_self_iff`), for all other names are written longer than they are
(`of_readNames?_eq_some`).
-/

namespace MetricLayer.Sql

open MetricLayer.Text

/-! ## One name -/

theorem undouble_double (name : List Char) : undouble (double name) = name := by
  induction name with
  | nil => rfl
  | cons c name ih =>
    rw [double]
    split
    next hc => rw [undouble, ih, hc]
    next hc =>
      rw [undouble, ih]
      exact fun _ hc' => absurd hc' hc

theorem length_undouble_le (cs : List Char) : (undouble cs).length ≤ cs.length := by
  fun_induction undouble cs with
  | case1 cs ih =>
    simp only [List.length_cons]
    omega
  | case2 c cs _ ih => exact Nat.succ_le_succ ih
  | case3 => exact Nat.le_refl _

theorem quotedBody?_cons {q c : Char} {cs body rest : List Char} (hc : c ≠ q)
    (h : quotedBody? q cs = some (body, rest)) :
    quotedBody? q (c :: cs) = some (c :: body, rest) := by
  cases cs with
  | nil => cases h
  | cons d cs =>
    rw [quotedBody?, if_neg hc, h]
    rfl

theorem eq_of_quotedBody?_eq_some {q : Char} {cs body rest : List Char} (h : quotedBody? q cs = some (body, rest)) :
    cs = body ++ q :: rest := by
  fun_induction quotedBody? q cs generalizing body rest with
  | case1 => cases h
  | case2 =>
    cases h
    rfl
  | case3 => cases h
  | case4 cs b r hread ih =>
    cases h
    rw [ih hread]
    rfl
  | case5 =>
    cases h
    rfl
  | case6 =>
    cases h
    rfl
  | case7 c d cs hc ih =>
    obtain ⟨⟨b, r⟩, hread, heq⟩ := Option.map_eq_some_iff.mp h
    cases heq
    rw [ih hread]
    rfl

theorem quotedBody?_double (name : List Char) {rest : List Char} (h : rest.head? ≠ some '"') :
    quotedBody? '"' (double name ++ '"' :: rest) = some (double name, rest) := by
  induction name with
  | nil =>
    cases rest with
    | nil => rfl
    | cons d rest =>
      have hd : ¬ d = '"' := by
        rintro rfl
        exact h rfl
      rw [double, List.nil_append, quotedBody?, if_pos rfl, if_neg hd]
  | cons c name ih =>
    rw [double]
    split
    next =>
      rw [List.cons_append, List.cons_append, quotedBody?, if_pos rfl, if_pos rfl, ih]
    next hc => exact quotedBody?_cons hc ih

theorem double_eq_nil_iff {name : List Char} : double name = [] ↔ name = [] := by
  cases name with
  | nil => exact Iff.rfl
  | cons c name =>
    rw [double]
    split <;> simp

theorem mem_double_iff {c : Char} {name : List Char} : c ∈ double name ↔ c ∈ name := by
  induction name with
  | nil => exact Iff.rfl
  | cons d name ih =>
    rw [double]
    split
    next hd => simp [ih, hd]
    next => simp [ih]

theorem double_eq_self {name : List Char} (h : '"' ∉ name) : double name = name := by
  induction name with
  | nil => rfl
  | cons c name ih =>
    rw [List.mem_cons, not_or] at h
    rw [double, if_neg fun hc => h.1 hc.symm, ih h.2]

theorem length_le_length_double (cs : List Char) : cs.length ≤ (double cs).length := by
  induction cs with
  | nil => exact Nat.le_refl 0
  | cons c cs ih =>
    rw [double]
    split <;> simp only [List.length_cons] <;> omega

/-- The names without double quotes are those that are written as they are. -/
theorem double_eq_self_iff {name : List Char} : double name = name ↔ '"' ∉ name := by
  refine ⟨fun h => ?_, double_eq_self⟩
  induction name with
  | nil => exact List.not_mem_nil
  | cons c name ih =>
    rw [double] at h
    split at h
    next =>
      have hlength := congrArg List.length h
      have hle := length_le_length_double name
      simp only [List.length_cons] at hlength
      omega
    next hc => exact List.not_mem_cons_of_ne_of_not_mem (Ne.symm hc) (ih (List.cons.inj h).2)

theorem double_append (a b : List Char) : double (a ++ b) = double a ++ double b := by
  induction a with
  | nil => rfl
  | cons c a ih =>
    rw [List.cons_append, double, double, ih]
    split <;> rfl

/-- Masking blanks a name and keeps its quotes doubled. -/
theorem maskDouble_eq_double (name : List Char) :
    maskDouble name = double (name.map fun c => if c = '"' then '"' else '_') := by
  induction name with
  | nil => rfl
  | cons c name ih =>
    rw [maskDouble, List.map_cons, double, ih]
    by_cases hc : c = '"'
    · rw [if_pos hc, if_pos hc, if_pos rfl]
    · rw [if_neg hc, if_neg hc, if_neg (by decide)]

section reading

variable {start : Char → Bool} {name : List Char} {rest : List Char}

theorem readName?_double (hname : name ≠ []) (h : rest.head? ≠ some '"') :
    readName? start ('"' :: (double name ++ '"' :: rest)) = some (.quoted (double name), rest) := by
  rw [readName?, if_pos rfl, quotedBody?_double name h]
  cases hd : double name with
  | nil => exact absurd (double_eq_nil_iff.mp hd) hname
  | cons d ds => rfl

theorem readName?_empty (h : rest.head? ≠ some '"') : readName? start ('"' :: '"' :: rest) = none := by
  have hread : quotedBody? '"' ('"' :: rest) = some ([], rest) := quotedBody?_double [] h
  rw [readName?, if_pos rfl]
  simp only [hread]

theorem readName?_quote {name : String} (hname : name ≠ "") (h : rest.head? ≠ some '"') :
    readName? start ((quote name).toList ++ rest) = some (.quoted (double name.toList), rest) := by
  rw [toList_quote, List.cons_append, List.cons_append, List.append_assoc]
  exact readName?_double (by simpa using hname) h

/-- A word is read up to the first character that does not belong to it. -/
theorem readName?_word {w : List Char} (hstart : w.head?.any start) (hw : ∀ c ∈ w, isNameRest c)
    (hrest : ∀ c ∈ rest.head?, isNameRest c = false) : readName? start (w ++ rest) = some (.word w, rest) := by
  obtain ⟨c, hc, hfirst⟩ := (Option.any_eq_true _ _).mp hstart
  obtain ⟨w, rfl⟩ := List.head?_eq_some_iff.mp hc
  have hstop : rest.takeWhile isNameRest = [] := by
    cases rest with
    | nil => rfl
    | cons d rest => exact List.takeWhile_cons_of_neg (by simp [hrest d rfl])
  rw [List.forall_mem_cons] at hw
  have hquote : c ≠ '"' := by
    rintro rfl
    exact absurd hw.1 (by decide +kernel)
  rw [List.cons_append, readName?, if_neg hquote, if_pos hfirst, List.takeWhile_append_of_pos hw.2, hstop,
    List.append_nil, List.dropWhile_append_of_pos hw.2, dropWhile_eq_self hrest]

end reading

/-- The last character of a name is a quote or one of a word. -/
theorem exists_last_of_readName? {start : Char → Bool} {cs rest : List Char} {name : Name}
    (h : readName? start cs = some (name, rest)) :
    ∃ init d, cs = init ++ d :: rest ∧ (d = '"' ∨ start d ∨ isNameRest d) := by
  cases cs with
  | nil => cases h
  | cons c cs =>
    rw [readName?] at h
    split_ifs at h with hquote hstart
    · split at h
      next => cases h
      next hread =>
        obtain ⟨-, rfl⟩ := Prod.mk.inj (Option.some.inj h)
        rw [eq_of_quotedBody?_eq_some hread]
        exact ⟨_ :: _, '"', rfl, Or.inl rfl⟩
      next => cases h
    · obtain ⟨-, rfl⟩ := Prod.mk.inj (Option.some.inj h)
      have hword : cs = cs.takeWhile isNameRest ++ cs.dropWhile isNameRest :=
        List.takeWhile_append_dropWhile.symm
      rcases List.eq_nil_or_concat' (cs.takeWhile isNameRest) with hnil | ⟨init, d, hlast⟩
      · rw [hnil] at hword
        exact ⟨[], c, congrArg (c :: ·) hword, Or.inr (Or.inl hstart)⟩
      · have hd : isNameRest d := List.mem_takeWhile_imp (by rw [hlast]; simp)
        rw [hlast, List.append_assoc] at hword
        exact ⟨c :: init, d, congrArg (c :: ·) hword, Or.inr (Or.inr hd)⟩

/-! ## Names joined by points -/

/-- Names in quotes, joined by points. -/
def dotted (names : List String) : List Char :=
  List.intercalate ['.'] (names.map fun n => (quote n).toList)

theorem dotted_cons_cons (n m : String) (names : List String) :
    dotted (n :: m :: names) = (quote n).toList ++ '.' :: dotted (m :: names) := by
  simp [dotted]

theorem head?_dotted (n : String) (names : List String) : (dotted (n :: names)).head? = some '"' := by
  cases names with
  | nil => simp [dotted, toList_quote]
  | cons m names => rw [dotted_cons_cons, toList_quote]; rfl

theorem getLast?_dotted (n : String) (names : List String) :
    (dotted (n :: names)).getLast? = some '"' := by
  induction names generalizing n with
  | nil =>
    have hdotted : dotted [n] = ('"' :: double n.toList) ++ ['"'] := by simp [dotted, toList_quote]
    rw [hdotted, List.getLast?_concat]
  | cons m names ih =>
    rw [dotted_cons_cons, List.getLast?_append, List.getLast?_cons, ih]
    rfl

theorem length_le_dotted (n : String) (names : List String) :
    names.length < (dotted (n :: names)).length := by
  induction names generalizing n with
  | nil => exact List.length_pos_of_mem (List.mem_of_head? (head?_dotted n []))
  | cons m names ih =>
    rw [dotted_cons_cons, List.length_append, List.length_cons, List.length_cons]
    have := ih m
    omega

theorem trimmed_dotted (n : String) (names : List String) : Trimmed (dotted (n :: names)) :=
  trimmed_of_ends (c := '"') (d := '"') rfl rfl (head?_dotted n names) (getLast?_dotted n names)

theorem afterPoint?_dotted_append (n : String) (names : List String) (rest : List Char) :
    afterPoint? ('.' :: (dotted (n :: names) ++ rest)) = some (dotted (n :: names) ++ rest) := by
  obtain ⟨cs, hcs⟩ := List.head?_eq_some_iff.mp (head?_dotted n names)
  rw [afterPoint?, dropWhile_eq_self (by simp; decide), hcs]
  rfl

theorem afterPoint?_dotted (n : String) (names : List String) :
    afterPoint? ('.' :: dotted (n :: names)) = some (dotted (n :: names)) := by
  simpa using afterPoint?_dotted_append n names []

theorem readNames?_dotted {k : Nat} {n : String} {names : List String} (hk : names.length < k)
    (h : ∀ m ∈ n :: names, m ≠ "") :
    readNames? k (dotted (n :: names)) =
      some ((n :: names).map fun m => .quoted (double m.toList), []) := by
  induction names generalizing k n with
  | nil =>
    obtain ⟨k, rfl⟩ := Nat.exists_eq_succ_of_ne_zero (Nat.ne_of_gt hk)
    have hread : readName? isNameStart ((quote n).toList ++ []) = some (.quoted (double n.toList), []) :=
      readName?_quote (h n List.mem_cons_self) nofun
    have hdotted : dotted [n] = (quote n).toList ++ [] := by simp [dotted]
    rw [hdotted, readNames?, hread]
    rfl
  | cons m names ih =>
    obtain ⟨k, rfl⟩ := Nat.exists_eq_succ_of_ne_zero (Nat.ne_of_gt (Nat.zero_lt_of_lt hk))
    have hread : readName? isNameStart ((quote n).toList ++ '.' :: dotted (m :: names)) =
        some (.quoted (double n.toList), '.' :: dotted (m :: names)) :=
      readName?_quote (h n List.mem_cons_self) nofun
    have hrest := ih (Nat.lt_of_succ_lt_succ hk) fun l hl => h l (List.mem_cons_of_mem n hl)
    rw [dotted_cons_cons, readNames?, hread]
    simp only [Option.bind_eq_bind, Option.bind_some, afterPoint?_dotted, hrest]
    rfl

/-- An empty name is not read, nor anything behind it. -/
theorem rest_ne_nil_of_readNames?_dotted {k : Nat} {n : String} {names : List String}
    (h : "" ∈ n :: names) {read : List Name} {rest : List Char}
    (hread : readNames? k (dotted (n :: names)) = some (read, rest)) : rest ≠ [] := by
  induction names generalizing k n read rest with
  | nil =>
    rw [List.mem_singleton] at h
    subst h
    cases k with
    | zero => cases hread
    | succ k => cases hread
  | cons m names ih =>
    cases k with
    | zero => cases hread
    | succ k =>
      rw [dotted_cons_cons, readNames?] at hread
      by_cases hn : n = ""
      · subst hn
        have hnone : readName? isNameStart ((quote "").toList ++ '.' :: dotted (m :: names)) = none :=
          readName?_empty nofun
        rw [hnone] at hread
        cases hread
      · have hsome : readName? isNameStart ((quote n).toList ++ '.' :: dotted (m :: names)) =
            some (.quoted (double n.toList), '.' :: dotted (m :: names)) :=
          readName?_quote hn nofun
        rw [hsome] at hread
        simp only [Option.bind_eq_bind, Option.bind_some, afterPoint?_dotted] at hread
        have hmem : "" ∈ m :: names := by
          rcases List.mem_cons.mp h with h | h
          · exact absurd h.symm hn
          · exact h
        cases hnames : readNames? k (dotted (m :: names)) with
        | none =>
          rw [hnames] at hread
          cases hread
          exact List.cons_ne_nil _ _
        | some found =>
          rw [hnames] at hread
          cases hread
          exact ih hmem hnames

/-! ## Columns and tables -/

/-- What stands before a text without separators belongs to its first piece. -/
theorem exists_splitOn_append {sep : Char} {a : List Char} (h : sep ∉ a) (cs : List Char) :
    ∃ piece pieces, splitOn sep cs = piece :: pieces ∧ splitOn sep (a ++ cs) = (a ++ piece) :: pieces := by
  induction a with
  | nil =>
    obtain ⟨piece, pieces, hcs⟩ := List.exists_cons_of_ne_nil (splitAll_ne_nil (· == sep) cs)
    exact ⟨piece, pieces, hcs, hcs⟩
  | cons c a ih =>
    rw [List.mem_cons, not_or] at h
    obtain ⟨piece, pieces, hcs, ha⟩ := ih h.2
    refine ⟨piece, pieces, hcs, ?_⟩
    rw [splitOn] at ha
    rw [List.cons_append, splitOn, splitAll, if_neg (by simpa using Ne.symm h.1), ha]
    rfl

theorem splitOn_of_not_mem {sep : Char} {a : List Char} (h : sep ∉ a) : splitOn sep a = [a] := by
  obtain ⟨piece, pieces, hnil, ha⟩ := exists_splitOn_append h []
  obtain ⟨rfl, rfl⟩ := List.cons.inj hnil
  simpa using ha

theorem splitOn_append_cons {sep : Char} {a : List Char} (h : sep ∉ a) (cs : List Char) :
    splitOn sep (a ++ sep :: cs) = a :: splitOn sep cs := by
  have hfirst : splitOn sep (sep :: cs) = [] :: splitOn sep cs := by
    rw [splitOn, splitAll, if_pos (beq_self_eq_true sep)]
    rfl
  obtain ⟨piece, pieces, hcs, ha⟩ := exists_splitOn_append h (sep :: cs)
  rw [hfirst] at hcs
  obtain ⟨rfl, rfl⟩ := List.cons.inj hcs
  rw [ha, List.append_nil]

theorem intercalate_splitOn (sep : Char) (cs : List Char) :
    List.intercalate [sep] (splitOn sep cs) = cs := by
  induction cs with
  | nil => rfl
  | cons c cs ih =>
    rw [splitOn] at ih ⊢
    rw [splitAll]
    cases hpieces : splitAll (· == sep) cs with
    | nil => exact absurd hpieces (splitAll_ne_nil _ _)
    | cons piece pieces =>
      rw [hpieces] at ih
      split
      next hc =>
        rw [List.intercalate_cons_cons, ih, beq_iff_eq.mp hc]
        rfl
      next =>
        show List.intercalate [sep] ((c :: piece) :: pieces) = c :: cs
        rw [← ih]
        cases pieces <;> simp

theorem exists_tableParts (table : String) : ∃ n names, tableParts table = n :: names := by
  cases h : tableParts table with
  | nil => exact absurd (List.map_eq_nil_iff.mp h) (splitAll_ne_nil _ _)
  | cons n names => exact ⟨n, names, rfl⟩

theorem toList_quoteTable (table : String) :
    (quoteTable table).toList = dotted (tableParts table) := by
  rw [quoteTable, toList_joinWith, List.map_map]
  rfl

theorem toList_columnRef (table column : String) :
    (columnRef table column).toList = dotted (tableParts table ++ [column]) := by
  have happend (n : String) (names : List String) :
      dotted (n :: names ++ [column]) = dotted (n :: names) ++ '.' :: (quote column).toList := by
    induction names generalizing n with
    | nil => simp [dotted]
    | cons m names ih =>
      rw [List.cons_append, List.cons_append, dotted_cons_cons, ← List.cons_append, ih m,
        dotted_cons_cons, List.append_assoc, List.cons_append]
  obtain ⟨n, names, htable⟩ := exists_tableParts table
  rw [columnRef, String.toList_append, String.toList_append, toList_quoteTable, htable, happend,
    List.append_assoc]
  rfl

theorem isLiteral_quoted (cs : List Char) : isLiteral ('"' :: cs) = false := by
  have hnumber : isNumber ('"' :: cs) = false := by
    rw [isNumber, List.takeWhile_cons_of_neg (by decide)]
    rfl
  have hword (w : String) (hw : clash w.toList ['"'] = false) :
      (letters? w.toList ('"' :: cs) == some []) = false := by
    rw [show '"' :: cs = ['"'] ++ cs from rfl, letters?_eq_none_of_clash hw]
    rfl
  have hlist : (["true", "false", "null"].any fun w => letters? w.toList ('"' :: cs) == some []) =
      false := by
    rw [List.any_eq_false]
    intro w hw
    rw [Bool.not_eq_true]
    apply hword
    revert w
    decide
  show (isNumber ('"' :: cs) || _) = false
  rw [hnumber, hlist]
  rfl

theorem isLiteral_dotted (n : String) (names : List String) : isLiteral (dotted (n :: names)) = false := by
  cases h : dotted (n :: names) with
  | nil => rfl
  | cons c cs =>
    have hc := head?_dotted n names
    rw [h] at hc
    cases hc
    exact isLiteral_quoted cs

/-- Names in quotes are read to the end, unless one of them is empty. -/
theorem identifier?_dotted (n : String) (names : List String) :
    identifier? (dotted (n :: names)) = if "" ∈ n :: names then none else (n :: names).getLast? := by
  rw [identifier?, trim_eq_self (trimmed_dotted n names), isLiteral_dotted, if_neg Bool.false_ne_true, readQualified?]
  split_ifs with hempty
  · split
    next read h => exact absurd rfl (rest_ne_nil_of_readNames?_dotted hempty h)
    next => rfl
  · have hk := Nat.lt_succ_of_lt (length_le_dotted n names)
    have htext : Name.text ∘ (fun m => Name.quoted (double m.toList)) = id := by
      funext m
      show String.ofList (undouble (double m.toList)) = m
      rw [undouble_double, String.ofList_toList]
    rw [readNames?_dotted hk fun m hm hm' => hempty (hm' ▸ hm)]
    simp only [← List.getLast?_map, List.map_map, htext, List.map_id_fun, id_eq]

/-- A column of a table is read as itself, unless it or a part of the table has no name. -/
theorem identifier?_columnRef_eq (table column : String) :
    identifier? (columnRef table column).toList =
      if "" ∈ tableParts table ++ [column] then none else some column := by
  obtain ⟨n, names, htable⟩ := exists_tableParts table
  rw [toList_columnRef, htable, List.cons_append, identifier?_dotted, ← List.cons_append, List.getLast?_concat]

/-- A column of a table is read as itself or as no identifier at all. -/
theorem identifier?_columnRef (table column : String) :
    ∀ name ∈ identifier? (columnRef table column).toList, name = column := by
  intro name hname
  rw [identifier?_columnRef_eq] at hname
  split_ifs at hname
  · cases hname
  · exact (Option.some.inj hname).symm

theorem quote_eq_dotted (name : String) : (quote name).toList = dotted [name] := by
  simp [dotted]

/-- A quoted name is the identifier it writes. -/
theorem identifier?_quote {name : String} (h : name ≠ "") : identifier? (quote name).toList = some name := by
  rw [quote_eq_dotted, identifier?_dotted, if_neg (by simpa using h.symm), List.getLast?_singleton]

/-- A name is read up to the parenthesis after it. -/
theorem of_readName?_application {w rest : List Char} (hw : ∀ c ∈ w, isNameRest c) :
    ∀ found ∈ readName? isNameStart (w ++ '(' :: rest), found.2 = '(' :: rest := by
  intro found hfound
  cases w with
  | nil => cases hfound
  | cons c w =>
    have hquote : c ≠ '"' := by
      rintro rfl
      exact absurd (hw '"' List.mem_cons_self) (by decide)
    rw [List.cons_append, readName?, if_neg hquote] at hfound
    split at hfound
    next =>
      cases hfound
      rw [List.dropWhile_append_of_pos fun d hd => hw d (List.mem_cons_of_mem c hd)]
      rfl
    next => cases hfound

/-- A parenthesis after a word ends no identifier. -/
theorem identifier?_application {w rest : List Char} (hw : ∀ c ∈ w, isNameRest c)
    (htrim : Trimmed (w ++ '(' :: rest)) : identifier? (w ++ '(' :: rest) = none := by
  rw [identifier?, trim_eq_self htrim, readQualified?, readNames?]
  cases hread : readName? isNameStart (w ++ '(' :: rest) with
  | none => simp
  | some found =>
    obtain ⟨name, after⟩ := found
    obtain rfl : after = '(' :: rest := of_readName?_application hw _ hread
    have hpoint : afterPoint? ('(' :: rest) = none := rfl
    simp [hpoint]

/-! ## Names that are read as they stand -/

theorem isNameRest_of_isWord {c : Char} (h : isWord c) : isNameRest c := by
  rw [isNameRest, h, Bool.true_or]

theorem isNameRest_of_isNameStart {c : Char} (h : isNameStart c) : isNameRest c := by
  rw [isNameStart] at h
  simp only [isNameRest, isWord, Char.isAlphanum]
  rcases (Bool.or_eq_true _ _).mp h with h | h <;> simp [h]

/-- No character of a name without quotes ends it or groups it. -/
theorem plain_of_isNameRest {c : Char} (h : isNameRest c) :
    isBlank c = false ∧ isQuote c = false ∧ c ≠ '(' ∧ c ≠ ')' ∧ c ≠ ',' := by
  refine ⟨?_, ?_, ?_, ?_, ?_⟩
  · rw [← Bool.not_eq_true]
    exact fun hblank => of_isBlank (P := fun c => ¬ isNameRest c) (by decide +kernel) hblank h
  · rw [← Bool.not_eq_true]
    exact fun hquote => of_isQuote (P := fun c => ¬ isNameRest c) (by decide +kernel) (by decide +kernel) hquote h
  all_goals
    rintro rfl
    exact absurd h (by decide +kernel)

theorem isQuote_of_isWord {c : Char} (h : isWord c) : isQuote c = false :=
  (plain_of_isNameRest (isNameRest_of_isWord h)).2.1

/-- A text that is read as one word. -/
structure IsWordName (cs : List Char) : Prop where
  start : cs.head?.any isNameStart
  rest : ∀ c ∈ cs, isNameRest c

namespace IsWordName

variable {cs : List Char}

theorem exists_cons (h : IsWordName cs) : ∃ c w, cs = c :: w ∧ isNameStart c := by
  obtain ⟨c, hc, hstart⟩ := (Option.any_eq_true _ _).mp h.start
  obtain ⟨w, rfl⟩ := List.head?_eq_some_iff.mp hc
  exact ⟨c, w, rfl, hstart⟩

theorem ne_nil (h : IsWordName cs) : cs ≠ [] := by
  obtain ⟨c, w, rfl, -⟩ := h.exists_cons
  exact List.cons_ne_nil c w

theorem trimmed (h : IsWordName cs) : Trimmed cs :=
  ⟨fun c hc => (plain_of_isNameRest (h.rest c (List.mem_of_head? hc))).1,
    fun c hc => (plain_of_isNameRest (h.rest c (List.mem_of_getLast? hc))).1⟩

theorem mask_eq (h : IsWordName cs) : mask cs = cs :=
  mask_of_no_quote fun c hc => (plain_of_isNameRest (h.rest c hc)).2.1

theorem wellFormed (h : IsWordName cs) : WellFormed cs := by
  refine ⟨closed_of_no_quote fun c hc => (plain_of_isNameRest (h.rest c hc)).2.1, ?_⟩
  rw [h.mask_eq]
  refine balanced_of_no_parenthesis fun c hc => ?_
  obtain ⟨-, -, hopen, hclose, -⟩ := plain_of_isNameRest (h.rest c hc)
  exact ⟨hopen, hclose⟩

theorem not_mem_parenthesis (h : IsWordName cs) : '(' ∉ cs :=
  fun hmem => (plain_of_isNameRest (h.rest '(' hmem)).2.2.1 rfl

/-- A word is read to its end. -/
theorem readName? (h : IsWordName cs) {start : Char → Bool} (hstart : ∀ c, isNameStart c → start c) :
    Sql.readName? start cs = some (.word cs, []) := by
  have hfirst : cs.head?.any start := by
    obtain ⟨c, w, rfl, hc⟩ := h.exists_cons
    exact hstart c hc
  have hread : Sql.readName? start (cs ++ []) = some (.word cs, []) := readName?_word hfirst h.rest nofun
  rwa [List.append_nil] at hread

end IsWordName

/-- A name is a word as it stands, or it is written longer than it is. -/
theorem of_readName?_eq_some {cs rest : List Char} {name : Name}
    (h : readName? isNameStart cs = some (name, rest)) :
    name.text.length + rest.length < cs.length ∨ ∃ w, name = .word w ∧ cs = w ++ rest ∧ IsWordName w := by
  cases cs with
  | nil => cases h
  | cons c cs =>
    rw [readName?] at h
    split_ifs at h with hquote hstart
    · split at h
      next => cases h
      next body read _ hread =>
        obtain ⟨rfl, rfl⟩ := Prod.mk.inj (Option.some.inj h)
        left
        have hlength := length_undouble_le body
        rw [eq_of_quotedBody?_eq_some hread, Name.text, String.length_ofList]
        simp only [List.length_cons, List.length_append]
        omega
      next => cases h
    · obtain ⟨rfl, rfl⟩ := Prod.mk.inj (Option.some.inj h)
      right
      refine ⟨_, rfl, ?_, hstart, ?_⟩
      · rw [List.cons_append, List.takeWhile_append_dropWhile]
      · exact List.forall_mem_cons.mpr
          ⟨isNameRest_of_isNameStart hstart, fun d hd => List.mem_takeWhile_imp hd⟩

theorem length_lt_of_afterPoint? {cs rest : List Char} (h : afterPoint? cs = some rest) :
    rest.length < cs.length := by
  rw [afterPoint?] at h
  split at h
  next after hafter =>
    have hshort := (List.dropWhile_suffix isBlank (l := after)).length_le
    have hlong := (List.dropWhile_suffix isBlank (l := cs)).length_le
    rw [hafter, List.length_cons] at hlong
    rw [← Option.some.inj h]
    omega
  next => cases h

/-- The last of some names is a word that stands alone, or they are written longer than it is. -/
theorem of_readNames?_eq_some {k : Nat} {cs rest : List Char} {names : List Name}
    (h : readNames? k cs = some (names, rest)) : ∃ name, names.getLast? = some name ∧
      (name.text.length + rest.length < cs.length ∨ ∃ w, name = .word w ∧ cs = w ++ rest ∧ IsWordName w) := by
  induction k generalizing cs rest names with
  | zero => cases h
  | succ k ih =>
    rw [readNames?] at h
    obtain ⟨⟨name, after⟩, hread, h⟩ := Option.bind_eq_some_iff.mp h
    have hfirst := of_readName?_eq_some hread
    dsimp only at h
    split at h
    next more later hmore =>
      obtain ⟨rfl, rfl⟩ := Prod.mk.inj (Option.some.inj h)
      obtain ⟨next, hpoint, hnext⟩ := Option.bind_eq_some_iff.mp hmore
      obtain ⟨last, hlast, hshort⟩ := ih hnext
      have hpoint := length_lt_of_afterPoint? hpoint
      refine ⟨last, by rw [List.getLast?_cons, hlast]; rfl, Or.inl ?_⟩
      -- the point before the last name makes the text longer, even if that name is a word
      have hafter : after.length ≤ cs.length := by
        rcases hfirst with hfirst | ⟨w, -, rfl, -⟩
        · omega
        · simp
      rcases hshort with hshort | ⟨w, rfl, rfl, -⟩
      · omega
      · rw [Name.text, String.length_ofList]
        rw [List.length_append] at hpoint
        omega
    next =>
      obtain ⟨rfl, rfl⟩ := Prod.mk.inj (Option.some.inj h)
      exact ⟨name, rfl, hfirst⟩

/-- What is read as a name that is no shorter is that name, and a word. -/
theorem of_identifier?_eq_some {cs : List Char} {name : String} (h : identifier? cs = some name)
    (hlength : cs.length ≤ name.length) : cs = name.toList ∧ IsWordName cs := by
  obtain ⟨a, b, hcs, -⟩ := exists_trim cs
  have htrim := congrArg List.length hcs
  simp only [List.length_append] at htrim
  rw [identifier?] at h
  split_ifs at h
  split at h
  next names hread =>
    obtain ⟨last, hlast, hname⟩ := of_readNames?_eq_some hread
    rw [hlast, Option.map_some, Option.some_inj] at h
    subst h
    rcases hname with hshort | ⟨w, rfl, hword, hw⟩
    · rw [List.length_nil] at hshort
      omega
    · rw [List.append_nil] at hword
      rw [hword] at hcs htrim
      rw [Name.text, String.length_ofList] at hlength
      obtain rfl : a = [] := List.length_eq_zero_iff.mp (by omega)
      obtain rfl : b = [] := List.length_eq_zero_iff.mp (by omega)
      rw [List.nil_append, List.append_nil] at hcs
      rw [hcs, Name.text, String.toList_ofList]
      exact ⟨rfl, hw⟩
  next => cases h

/-- A word is read as itself, unless it is a literal. -/
theorem IsWordName.identifier?_eq {cs : List Char} (h : IsWordName cs) :
    identifier? cs = if isLiteral cs then none else some (String.ofList cs) := by
  have hpoint : afterPoint? [] = none := rfl
  rw [identifier?, trim_eq_self h.trimmed, readQualified?, readNames?, h.readName? fun _ => id]
  simp [hpoint, Name.text]

/-- The names that are read as they stand are the words that are no literals. -/
theorem identifier?_eq_self_iff {name : String} :
    identifier? name.toList = some name ↔ IsWordName name.toList ∧ isLiteral name.toList = false := by
  constructor
  · intro h
    obtain ⟨-, hword⟩ := of_identifier?_eq_some h (String.length_toList ▸ Nat.le_refl _)
    rw [hword.identifier?_eq] at h
    split_ifs at h with hliteral
    exact ⟨hword, eq_false_of_ne_true hliteral⟩
  · rintro ⟨hword, hliteral⟩
    rw [hword.identifier?_eq, hliteral, if_neg Bool.false_ne_true, String.ofList_toList]

/-! ## Stars -/

theorem joinWith_tableParts (table : String) : joinWith "." (tableParts table) = table := by
  have hid : (splitOn '.' table.toList).map (String.toList ∘ String.ofList) =
      splitOn '.' table.toList := by
    simp [Function.comp_def]
  rw [← String.toList_inj, toList_joinWith, tableParts, List.map_map, hid]
  exact intercalate_splitOn '.' table.toList

theorem double_intercalate (pieces : List (List Char)) :
    double (List.intercalate ['.'] pieces) = List.intercalate ['.'] (pieces.map double) := by
  induction pieces with
  | nil => rfl
  | cons piece pieces ih =>
    cases pieces with
    | nil => rw [List.intercalate_singleton, List.map_singleton, List.intercalate_singleton]
    | cons next pieces =>
      have hpoint : double ['.'] = ['.'] := rfl
      rw [List.map_cons] at ih
      rw [List.intercalate_cons_cons, double_append, double_append, ih, hpoint, List.map_cons, List.map_cons,
        List.intercalate_cons_cons]

/-- The name of a table, with its double quotes doubled in every part, has them doubled. -/
theorem joinWith_map_double (table : String) :
    joinWith "." ((tableParts table).map fun m => String.ofList (double m.toList)) =
      String.ofList (double table.toList) := by
  have hpieces : ((tableParts table).map fun m => String.ofList (double m.toList)).map String.toList =
      (splitOn '.' table.toList).map double := by
    rw [tableParts, List.map_map, List.map_map]
    exact List.map_congr_left fun piece _ => by simp
  have hpoint : ".".toList = ['.'] := rfl
  rw [← String.toList_inj, toList_joinWith, hpieces, hpoint, ← double_intercalate, intercalate_splitOn,
    String.toList_ofList]

/-- A table name without empty parts is found at the start of a text, but with its double quotes doubled. -/
theorem tableOf_quoteTable_eq {table : String} (hparts : "" ∉ tableParts table) :
    tableOf (quoteTable table).toList = String.ofList (double table.toList) := by
  obtain ⟨n, names, htable⟩ := exists_tableParts table
  have hread : readQualified? (dotted (n :: names)) =
      some ((n :: names).map fun m => Name.quoted (double m.toList), []) :=
    readNames?_dotted (Nat.lt_succ_of_lt (length_le_dotted n names))
      fun m hm hm' => hparts (htable ▸ hm' ▸ hm)
  rw [tableOf, toList_quoteTable, htable, dropWhile_eq_self (trimmed_dotted n names).1, hread]
  show joinWith "." (List.map _ _) = _
  rw [List.map_map, ← htable]
  exact joinWith_map_double table

/-- A table name without double quotes and empty parts is found at the start of a text. -/
theorem tableOf_quoteTable {table : String} (hquote : '"' ∉ table.toList)
    (hparts : "" ∉ tableParts table) : tableOf (quoteTable table).toList = table := by
  rw [tableOf_quoteTable_eq hparts, double_eq_self hquote, String.ofList_toList]

end MetricLayer.Sql
