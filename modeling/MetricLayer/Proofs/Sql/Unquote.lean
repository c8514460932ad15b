import MetricLayer.Proofs.Sql.Alias
import MetricLayer.Proofs.Sql.Erase
import MetricLayer.Proofs.Sql.Quotation

/-!
# Quoting and reading back

Whatever a name is, it is read back from its quotes: alone, as the column of a table and as the alias of an item
(`read_quoted`).  Only an empty name is not, since two quotes in a row are no name.  A qualified name is read from
its start, one part behind the other; a search for names anywhere in it finds the same parts (`namesIn_eq`), so
that its last part can be had from either.
-/

namespace MetricLayer.Sql

open MetricLayer.Text

/-! ## The parts of a qualified name -/

/-- A name that starts at a place. -/
def nameAt? (p : Place) : Option (Name × List Char) :=
  readName? isNameStart p.rest

/-- The names that a search through a text finds. -/
def namesIn (cs : List Char) : List Name :=
  (scan nameAt? cs).map Prod.snd

variable {cs rest after : List Char} {name : Name} {names : List Name} {next n : Nat} {b : Option Char}

theorem nameAt?_eq_none {c : Char} (hquote : c ≠ '"') (hword : isWord c = false) (n : Nat) (b : Option Char)
    (more : List Char) : nameAt? ⟨n, b, c :: more⟩ = none := by
  rw [nameAt?, readName?, if_neg hquote, if_neg (by simp [isNameStart_eq_false hword])]

/-- No name starts at a point or in the white space around it. -/
theorem nameAt?_point {u v : List Char} (hu : ∀ c ∈ u, isBlank c) (hv : ∀ c ∈ v, isBlank c) :
    ∀ c ∈ u ++ '.' :: v, ∀ n b more, nameAt? ⟨n, b, c :: more⟩ = none := by
  have hblank (c : Char) (hc : isBlank c) (n : Nat) (b : Option Char) (more : List Char) :
      nameAt? ⟨n, b, c :: more⟩ = none :=
    nameAt?_eq_none (by rintro rfl; exact absurd hc (by decide)) (isWord_of_isBlank hc) n b more
  refine List.forall_mem_append.mpr ⟨fun c hc => hblank c (hu c hc), List.forall_mem_cons.mpr ⟨?_, ?_⟩⟩
  · exact nameAt?_eq_none (by decide) (by decide +kernel)
  · exact fun c hc => hblank c (hv c hc)

/-- A search goes on behind a name it finds. -/
theorem scanFrom_name (h : readName? isNameStart cs = some (name, rest)) (hnext : next ≤ n) :
    ∃ m later, (scanFrom nameAt? next (placesFrom n b cs)).map Prod.snd =
      name :: (scanFrom nameAt? m (placesFrom m later rest)).map Prod.snd := by
  obtain ⟨c, read, rfl⟩ : ∃ c read, cs = c :: (read ++ rest) := by
    obtain ⟨init, d, rfl, -⟩ := exists_last_of_readName? h
    cases init with
    | nil => exact ⟨d, [], rfl⟩
    | cons c init => exact ⟨c, init ++ [d], by simp⟩
  have hlength : n + ((c :: (read ++ rest)).length - rest.length) = n + 1 + read.length := by
    rw [List.length_cons, List.length_append]
    omega
  have hname : nameAt? ⟨n, b, c :: (read ++ rest)⟩ = some (name, rest) := h
  rw [placesFrom, scanFrom, if_neg (Nat.not_lt.mpr hnext), hname]
  simp only [hlength, List.map_cons]
  exact ⟨_, _, congrArg _ (congrArg _ (scanFrom_append_of_lt (Nat.le_refl _) rest))⟩

theorem map_scanFrom_of_readNames? {k : Nat} (h : readNames? k cs = some (names, [])) (hnext : next ≤ n) :
    (scanFrom nameAt? next (placesFrom n b cs)).map Prod.snd = names := by
  induction k generalizing cs names next n b with
  | zero => cases h
  | succ k ih =>
    rw [readNames?] at h
    obtain ⟨⟨name, rest⟩, hname, h⟩ := Option.bind_eq_some_iff.mp h
    obtain ⟨m, later, hfound⟩ := scanFrom_name (b := b) hname hnext
    rw [hfound]
    cases hmore : (afterPoint? rest).bind (readNames? k) with
    | none =>
      simp only [hmore, Option.some.injEq, Prod.mk.injEq] at h
      obtain ⟨rfl, rfl⟩ := h
      rw [scanFrom_eq_nil (by simp) (fun _ _ => rfl)]
      rfl
    | some found =>
      obtain ⟨names, rest'⟩ := found
      simp only [hmore, Option.some.injEq, Prod.mk.injEq] at h
      obtain ⟨rfl, rfl⟩ := h
      obtain ⟨after, hpoint, hnames⟩ := Option.bind_eq_some_iff.mp hmore
      obtain ⟨u, v, rfl, hu, hv, -⟩ := afterPoint?_eq_some_iff.mp hpoint
      rw [← List.cons_append, ← List.append_assoc, scanFrom_append_of_none (nameAt?_point hu hv),
        ih hnames (Nat.le_add_right _ _)]

/-- **A search for names finds the parts of a qualified name.** -/
theorem namesIn_eq (h : readQualified? cs = some (names, [])) : namesIn cs = names :=
  map_scanFrom_of_readNames? h (Nat.le_refl 0)

/-- An identifier is the last name that is found in it. -/
theorem getLast?_namesIn {name : String} (h : identifier? cs = some name) :
    (namesIn (trim cs)).getLast?.map Name.text = some name := by
  rw [identifier?] at h
  split_ifs at h
  split at h
  next names hread =>
    rw [namesIn_eq hread]
    exact h
  next => cases h

/-! ## Names read back -/

theorem identifier?_columnRef_eq_some_iff (table column : String) :
    identifier? (columnRef table column).toList = some column ↔ "" ∉ tableParts table ∧ column ≠ "" := by
  have hnames : "" ∈ tableParts table ++ [column] ↔ "" ∈ tableParts table ∨ column = "" := by
    rw [List.mem_append, List.mem_singleton, eq_comm]
  rw [identifier?_columnRef_eq, ← not_or, ← hnames]
  split_ifs with hempty
  · simp [hempty]
  · simp [hempty]

/-- **A quoted name is read back, alone and as the column of a table, exactly if no name in it is empty; and an item
is cut before the last AS into its expression and the alias that is quoted there.** -/
theorem read_quoted :
    (∀ name, identifier? (quote name).toList = some name ↔ name ≠ "") ∧
      (∀ table column, identifier? (columnRef table column).toList = some column ↔
        "" ∉ tableParts table ∧ column ≠ "") ∧
      (∀ cs name, identifier? cs = some name → (namesIn (trim cs)).getLast?.map Name.text = some name) ∧
      ∀ (expression : List Char) (name : String), Quoting expression → name ≠ "" →
        splitAlias (expression ++ " AS ".toList ++ (quote name).toList) = (trim expression, some name) := by
  refine ⟨fun name => ⟨?_, identifier?_quote⟩, identifier?_columnRef_eq_some_iff, fun _ _ => getLast?_namesIn, ?_⟩
  · rintro h rfl
    cases h
  · exact fun expression name h => splitAlias_item h.closed

/-- Names with points, quotes, line breaks and the word AS, behind an expression with all of them. -/
theorem read_quoted_names :
    identifier? (columnRef "main.se\"\"ssions" "a. \"b\" AS\nc").toList = some "a. \"b\" AS\nc" ∧
      (namesIn (trim (columnRef "main.se\"\"ssions" "a. \"b\" AS\nc").toList)).getLast?.map Name.text =
        some "a. \"b\" AS\nc" ∧
      Quoting "x AS \"b\"\"c\" || ' AS ' ".toList ∧ "\" AS \"y\"" ≠ "" ∧
      splitAlias ("x AS \"b\"\"c\" || ' AS ' ".toList ++ " AS ".toList ++ (quote "\" AS \"y\"").toList) =
        ("x AS \"b\"\"c\" || ' AS '".toList, some "\" AS \"y\"") := by
  have hcolumn := (read_quoted.2.1 "main.se\"\"ssions" "a. \"b\" AS\nc").mpr ⟨by decide, by decide⟩
  have hquoting : Quoting "x AS \"b\"\"c\" || ' AS ' ".toList := quoteAfter_eq_none_iff.mp (by decide)
  have hsplit := read_quoted.2.2.2 _ "\" AS \"y\"" hquoting (by decide)
  have htrim : trim "x AS \"b\"\"c\" || ' AS ' ".toList = "x AS \"b\"\"c\" || ' AS '".toList := by decide
  rw [htrim] at hsplit
  exact ⟨hcolumn, read_quoted.2.2.1 _ _ hcolumn, hquoting, by decide, hsplit⟩

end MetricLayer.Sql
