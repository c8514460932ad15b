import MetricLayer.Proofs.Safety.OneTable
import MetricLayer.Proofs.Text.Pieces

/-!
# Written statements

A statement that is written from its parts passes the gate when its source is the table of the catalog and
its items, conditions and orderings are tame (`violations_text`): each clause behind FROM is tame then, and
starts in a new line with its keyword (`IsTame.laterClauses`).
-/

namespace MetricLayer.Safety

open MetricLayer.Text MetricLayer.Sql

/-- A tame text that does not end in white space or a semicolon. -/
structure IsEntry (cs : List Char) : Prop where
  tame : Tame gateWords cs
  ends : Ends cs

/-- The items, conditions and orderings of a statement are tame. -/
structure IsTame (s : SelectStatement) : Prop where
  items_ne_nil : s.items ≠ []
  items : ∀ i ∈ s.items, IsEntry i.toList
  conditions : ∀ f ∈ s.conditions, Tame gateWords f.toList
  ordering : ∀ o ∈ s.ordering, IsEntry o.toList

/-- The keywords of the clauses behind FROM. -/
def laterKeywords : List String :=
  ["WHERE ", "GROUP BY ", "ORDER BY ", "LIMIT "]

/-- What stands between the parts of clauses. -/
def partSeparators : List String :=
  [",\n  ", "\n  AND ", ", "]

/-- The clauses behind FROM. -/
def laterClauses (s : SelectStatement) : List String :=
  SelectStatement.listClause "WHERE " "\n  AND " s.groupedConditions ++
    SelectStatement.listClause "GROUP BY " ", " s.groupPositions ++
      SelectStatement.listClause "ORDER BY " ", " s.ordering ++ s.limit.toList.map fun n => "LIMIT " ++ toString n

/-- What follows the table. -/
def afterTable (s : SelectStatement) : List Char :=
  if (laterClauses s).isEmpty then [] else '\n' :: (joinWith "\n" (laterClauses s)).toList

theorem toList_text_eq (s : SelectStatement) :
    s.text.toList = ("SELECT\n".toList ++ ("  ".toList ++ ((joinWith ",\n  " s.items).toList ++ ['\n']))) ++
      ("FROM".toList ++ ' ' :: (s.source.toList ++ afterTable s)) := by
  have hclauses : s.clauses = ["SELECT\n  " ++ joinWith ",\n  " s.items, "FROM " ++ s.source] ++ laterClauses s := by
    simp only [SelectStatement.clauses, laterClauses, SelectStatement.groupedConditions, List.append_assoc]
  have hselect : "SELECT\n  ".toList = "SELECT\n".toList ++ "  ".toList := rfl
  have hfrom : "FROM ".toList = "FROM".toList ++ [' '] := rfl
  have hbreak : "\n".toList = ['\n'] := rfl
  rw [SelectStatement.text, hclauses, toList_joinWith, afterTable]
  cases laterClauses s with
  | nil => simp [hselect, hfrom, hbreak]
  | cons t later => simp [hselect, hfrom, hbreak]

theorem isEntry_join {sep : String} {parts : List String} (hsep : sep ∈ partSeparators) (hne : parts ≠ [])
    (h : ∀ p ∈ parts, IsEntry p.toList) : IsEntry (joinWith sep parts).toList := by
  have hfixed : ∀ sep ∈ partSeparators, IsFixed gateWords sep.toList ∧
      (∃ c ∈ sep.toList.head?, isInert c) ∧ ∃ c ∈ sep.toList.getLast?, isInert c := by
    decide
  obtain ⟨hsep, hends⟩ := hfixed sep hsep
  have hparts : ∀ p ∈ parts.map String.toList, IsEntry p := by
    intro p hp
    obtain ⟨q, hq, rfl⟩ := List.mem_map.mp hp
    exact h q hq
  rw [toList_joinWith]
  exact ⟨.intercalate areWords_gateWords (.of_fixed hsep) hends fun p hp => (hparts p hp).tame,
    ends_intercalate (by simpa using hne) fun p hp => (hparts p hp).ends⟩

theorem isEntry_toString_int (k : Int) : IsEntry (toString k).toList where
  tame := .toString_int areWords_gateWords (by decide) k
  ends := by
    have hdigits : ∀ c ∈ '-' :: "0123456789".toList, isBlank c = false ∧ c ≠ ';' := by
      decide
    obtain ⟨init, d, hd⟩ := (List.eq_nil_or_concat' _).resolve_left (toString_int_ne_nil k)
    refine ⟨d, by rw [hd, List.getLast?_concat]; exact rfl, hdigits d ?_⟩
    rw [List.mem_cons]
    exact (mem_toString_int (by rw [hd]; simp)).imp_right mem_digits_of_isDigit

theorem isEntry_quote {name : String} (h : '\'' ∉ name.toList) : IsEntry (quote name).toList where
  tame := .quote areWords_gateWords (by decide) h
  ends := by
    rw [toList_quote]
    exact Ends.append_left (by decide) _

/-- A direction behind an entry. -/
theorem IsEntry.direction {cs : List Char} (h : IsEntry cs) {w : String} (hw : w ∈ ["ASC", "DESC"]) :
    IsEntry (cs ++ (" " ++ w).toList) := by
  have hdirection : ∀ w ∈ ["ASC", "DESC"], IsFixed gateWords (" " ++ w).toList ∧
      (∀ c ∈ (" " ++ w).toList.head?, isInert c) ∧ Ends (" " ++ w).toList := by
    decide
  obtain ⟨hfixed, hhead, hends⟩ := hdirection w hw
  exact ⟨h.tame.append areWords_gateWords (Or.inr hhead) (.of_fixed hfixed), hends.append_left _⟩

theorem tame_group {cs : List Char} (h : Tame gateWords cs) : Tame gateWords ('(' :: (cs ++ [')'])) := by
  have hopen : Tame gateWords ['('] := .of_fixed (by decide)
  have hclose : Tame gateWords [')'] := .of_fixed (by decide)
  have hbody : Tame gateWords (cs ++ [')']) := h.append areWords_gateWords (Or.inr (by decide)) hclose
  exact hopen.append areWords_gateWords (Or.inl (by decide)) hbody

/-- Raw SQL in parentheses. -/
theorem isEntry_group {f : String} (h : Tame gateWords f.toList) : IsEntry ("(" ++ f ++ ")").toList := by
  have htext : ("(" ++ f ++ ")").toList = '(' :: (f.toList ++ [')']) := by
    simp
  have hends : Ends [')'] := by
    decide
  rw [htext]
  exact ⟨tame_group h, (hends.append_left f.toList).append_left ['(']⟩

/-- Every clause behind FROM is tame, and starts with its keyword. -/
theorem IsTame.laterClauses {s : SelectStatement} (h : IsTame s) :
    ∀ t ∈ laterClauses s, IsEntry t.toList ∧ ∃ d ∈ t.toList.head?, isBlank d = false ∧ d ≠ '.' := by
  have hkeyword : ∀ k ∈ laterKeywords, IsFixed gateWords k.toList ∧
      (∀ c ∈ k.toList.getLast?, isInert c) ∧ ∃ d ∈ k.toList.head?, isBlank d = false ∧ d ≠ '.' := by
    decide
  have hclause {keyword sep : String} {parts : List String} (hk : keyword ∈ laterKeywords)
      (hsep : sep ∈ partSeparators) (hne : parts ≠ []) (hparts : ∀ p ∈ parts, IsEntry p.toList) :
      IsEntry (keyword ++ joinWith sep parts).toList ∧
        ∃ d ∈ (keyword ++ joinWith sep parts).toList.head?, isBlank d = false ∧ d ≠ '.' := by
    obtain ⟨hfixed, hlast, d, hd, hfirst⟩ := hkeyword keyword hk
    have hlist := isEntry_join hsep hne hparts
    rw [String.toList_append]
    refine ⟨⟨(Tame.of_fixed hfixed).append areWords_gateWords (Or.inl hlast) hlist.tame,
      hlist.ends.append_left _⟩, d, ?_, hfirst⟩
    rw [List.head?_append, Option.mem_def.mp hd]
    exact rfl
  have hlist {keyword sep t : String} {parts : List String} (hk : keyword ∈ laterKeywords)
      (hsep : sep ∈ partSeparators) (hparts : ∀ p ∈ parts, IsEntry p.toList)
      (ht : t ∈ SelectStatement.listClause keyword sep parts) :
      IsEntry t.toList ∧ ∃ d ∈ t.toList.head?, isBlank d = false ∧ d ≠ '.' := by
    rw [SelectStatement.listClause] at ht
    split at ht
    · cases ht
    next hempty =>
      rw [List.mem_singleton.mp ht]
      exact hclause hk hsep (by simpa using hempty) hparts
  intro t ht
  simp only [Safety.laterClauses, List.mem_append, or_assoc] at ht
  rcases ht with ht | ht | ht | ht
  · refine hlist (by decide) (by decide) (fun p hp => ?_) ht
    obtain ⟨f, hf, rfl⟩ := List.mem_map.mp hp
    exact isEntry_group (h.conditions f hf)
  · refine hlist (by decide) (by decide) (fun p hp => ?_) ht
    obtain ⟨n, -, rfl⟩ := List.mem_map.mp hp
    exact isEntry_toString_int (Int.ofNat (n + 1))
  · exact hlist (by decide) (by decide) h.ordering ht
  · obtain ⟨n, -, rfl⟩ := List.mem_map.mp ht
    rw [← joinWith_singleton ", " (toString n)]
    refine hclause (by decide) (by decide) (List.cons_ne_nil _ _) fun p hp => ?_
    rw [List.mem_singleton.mp hp]
    exact isEntry_toString_int n

/-- What follows the table is tame, and goes on in a new line. -/
theorem IsTame.afterTable {s : SelectStatement} (h : IsTame s) :
    Tame gateWords (afterTable s) ∧ (∀ d ∈ (afterTable s).head?, isBlank d) ∧ afterPoint? (afterTable s) = none ∧
      (afterTable s = [] ∨ Ends (afterTable s)) := by
  have hclauses := h.laterClauses
  rw [Safety.afterTable]
  split
  · exact ⟨.nil areWords_gateWords, nofun, rfl, Or.inl rfl⟩
  next hempty =>
    have hbreak : Tame gateWords ['\n'] := .of_fixed (by decide)
    have hclause : ∀ p ∈ (Safety.laterClauses s).map String.toList,
        IsEntry p ∧ ∃ d ∈ p.head?, isBlank d = false ∧ d ≠ '.' := by
      intro p hp
      obtain ⟨t, ht, rfl⟩ := List.mem_map.mp hp
      exact hclauses t ht
    obtain ⟨first, later, hlater⟩ := List.exists_cons_of_ne_nil
      (show (Safety.laterClauses s).map String.toList ≠ [] by simpa using hempty)
    obtain ⟨d, hd, hblank, hpoint⟩ := (hclause first (by simp [hlater])).2
    have hhead : (joinWith "\n" (Safety.laterClauses s)).toList.head? = some d := by
      rw [toList_joinWith, hlater, head?_intercalate (by rintro rfl; cases hd)]
      exact hd
    have hjoined : Tame gateWords (joinWith "\n" (Safety.laterClauses s)).toList := by
      rw [toList_joinWith]
      exact hbreak.intercalate areWords_gateWords (by decide) fun p hp => (hclause p hp).1.tame
    refine ⟨hbreak.append areWords_gateWords (Or.inl (by decide)) hjoined, ?_, ?_, Or.inr ?_⟩
    · rintro e he
      cases he
      rfl
    · obtain ⟨rest, hrest⟩ := List.head?_eq_some_iff.mp hhead
      rw [afterPoint?, List.dropWhile_cons_of_pos rfl, hrest, List.dropWhile_cons_of_neg (by simp [hblank])]
      split
      next heq => exact absurd (List.cons.inj heq).1 hpoint
      next => rfl
    · rw [toList_joinWith, ← List.singleton_append]
      exact Ends.append_left (ends_intercalate (by simp [hlater]) fun p hp => (hclause p hp).1.ends) _

/-- What stands before the FROM of a statement. -/
def beforeTable (s : SelectStatement) : List Char :=
  "SELECT\n".toList ++ ("  ".toList ++ ((joinWith ",\n  " s.items).toList ++ ['\n']))

variable {c : Catalog} {s : SelectStatement}

/-- A written statement is one over the table it reads. -/
theorem IsTame.isOverTable (h : IsTame s) (hsource : s.source = quoteTable c.table)
    (htable : (∀ d ∈ c.table.toList, isQuote d = false) ∧ "" ∉ tableParts c.table) :
    IsOverTable c (beforeTable s) (Safety.afterTable s) s.text.toList := by
  obtain ⟨hafter, hstarts, hpoint, -⟩ := h.afterTable
  have hitems : Tame gateWords (joinWith ",\n  " s.items).toList :=
    (isEntry_join (by decide) h.items_ne_nil h.items).tame
  have hbreak : Tame gateWords ['\n'] := .of_fixed (by decide)
  have hgap : Tame gateWords "  ".toList := .of_fixed (by decide)
  have hselect : Tame gateWords "SELECT\n".toList := .of_fixed (by decide)
  have hfront : Tame gateWords (beforeTable s) := by
    refine hselect.append areWords_gateWords (Or.inl (by decide)) ?_
    refine hgap.append areWords_gateWords (Or.inl (by decide)) ?_
    exact hitems.append areWords_gateWords (Or.inr (by decide)) hbreak
  exact {
    text := hsource ▸ toList_text_eq s
    tameFront := hfront
    frontEnds := by
      unfold beforeTable
      rw [← List.append_assoc, ← List.append_assoc, List.getLast?_concat]
      decide
    tameBack := hafter
    backStarts := hstarts
    notPoint := hpoint
    table := htable }

/-- **A written statement passes the gate** when it reads the table of the catalog and its parts are tame. -/
theorem violations_text (h : IsTame s) (hsource : s.source = quoteTable c.table)
    (htable : (∀ d ∈ c.table.toList, isQuote d = false) ∧ "" ∉ tableParts c.table) : violations c s.text = [] := by
  obtain ⟨-, -, -, hends⟩ := h.afterTable
  have hselect : "SELECT\n".toList <+: beforeTable s := by
    unfold beforeTable
    exact List.prefix_append _ _
  refine (h.isOverTable hsource htable).violations_eq_nil hselect (Ends.of_mem ?_)
  have hsource' : Ends (s.source.toList ++ afterTable s) := by
    rcases hends with hnil | hends
    · obtain ⟨first, parts, hname⟩ := exists_tableParts c.table
      rw [hnil, List.append_nil, hsource, toList_quoteTable, hname]
      exact ⟨'"', getLast?_dotted first parts, by decide⟩
    · exact hends.append_left _
  rw [toList_text_eq]
  exact Ends.append_left (Ends.append_left (Ends.append_left hsource' [' ']) "FROM".toList) _

end MetricLayer.Safety
