import MetricLayer.Proofs.Sql.Clause
import MetricLayer.Proofs.Sql.Name
import MetricLayer.Proofs.Sql.Split
import MetricLayer.Proofs.Text.Numeral
import MetricLayer.Sql.Query
import MetricLayer.Sql.Statement

/-!
# Reading a statement back

The text of a `SelectStatement` is a list of sections (`toList_text`), and what `Query.read?` reads off
it are the parts it was written from (`read?_text`), when these parts are `Readable`: no keyword stands
outside quotes and parentheses in them, and lists have no commas there.  Only a limit of too many digits
cannot be read (`exists_read?_text_iff`).
-/

namespace MetricLayer.Sql

open MetricLayer.Text

/-- The words that are searched in statements: the keywords of clauses after SELECT, and the functions
that no statement should call. -/
def searchedWords : List String :=
  clauseWords ++ ["curdate", "now"]

/-- A part of a statement as it stands between others. -/
structure Part (plain : Char → Prop) (inner : List Char → Prop) (cs : List Char) : Prop where
  laid : Laid searchedWords plain inner cs
  ne_nil : cs ≠ []
  trimmed : Trimmed cs
  ends : ∀ c ∈ cs.getLast?, c ≠ ';'

/-- A part of a list. -/
abbrev ListPart (inner : List Char → Prop) (cs : List Char) : Prop :=
  Part (fun c => c ≠ ',') inner cs

section part

variable {inner : List Char → Prop} {cs : List Char}

theorem ListPart.listEntry (h : ListPart inner cs) : ListEntry cs :=
  ⟨h.laid.wellFormed, h.laid.not_hasTopComma, h.ne_nil, h.trimmed⟩

theorem Part.ofList {plain : Char → Prop} (h : Part plain inner cs) :
    Part (fun _ => True) inner cs :=
  ⟨h.laid.mono (List.Subset.refl _) (fun _ _ => trivial) fun _ => id, h.ne_nil, h.trimmed, h.ends⟩

theorem afterDistinct?_of_head {cs : List Char} (h : ∀ d ∈ cs.head?, fold d ≠ 'd') : afterDistinct? cs = none := by
  have hletters : letters? "distinct".toList cs = none := by
    cases cs with
    | nil => rfl
    | cons d cs => exact if_neg (h d rfl)
  rw [afterDistinct?, hletters]
  rfl

theorem Laid.intercalate {names : List String} {plain : Char → Prop} {sep : List Char}
    {parts : List (List Char)} (hsep : Laid names plain inner sep)
    (h : ∀ p ∈ parts, Laid names plain inner p) :
    Laid names plain inner (List.intercalate sep parts) := by
  induction parts with
  | nil => exact .nil
  | cons p parts ih =>
    have hp := h p List.mem_cons_self
    cases parts with
    | nil =>
      rw [List.intercalate_singleton]
      exact hp
    | cons q parts =>
      rw [List.intercalate_cons_cons, List.append_assoc]
      exact hp.append (hsep.append (ih fun r hr => h r (List.mem_cons_of_mem p hr)))

theorem getLast?_intercalate {sep : List Char} {parts : List (List Char)} (h : ∀ p ∈ parts, p ≠ []) :
    (List.intercalate sep parts).getLast? = parts.getLast?.bind List.getLast? := by
  induction parts with
  | nil => rfl
  | cons p parts ih =>
    cases parts with
    | nil => simp
    | cons q parts =>
      have hq := ih fun r hr => h r (List.mem_cons_of_mem p hr)
      obtain ⟨last, hlast⟩ : ∃ last, (q :: parts).getLast? = some last :=
        ⟨_, List.getLast?_cons⟩
      have hmem : last ∈ p :: q :: parts := List.mem_cons_of_mem p (List.mem_of_getLast? hlast)
      rw [List.intercalate_cons_cons, List.append_assoc, List.getLast?_append, List.getLast?_append, hq,
        List.getLast?_cons_cons, hlast, Option.bind_some,
        List.getLast?_eq_some_getLast (h last hmem)]
      rfl

theorem head?_intercalate {sep p : List Char} {parts : List (List Char)} (h : p ≠ []) :
    (List.intercalate sep (p :: parts)).head? = p.head? := by
  obtain ⟨c, p, rfl⟩ := List.exists_cons_of_ne_nil h
  cases parts <;> simp

theorem trimmed_intercalate {sep : List Char} {parts : List (List Char)}
    (h : ∀ p ∈ parts, p ≠ [] ∧ Trimmed p) : Trimmed (List.intercalate sep parts) := by
  cases parts with
  | nil => exact ⟨nofun, nofun⟩
  | cons p parts =>
    obtain ⟨hp, htrim⟩ := h p List.mem_cons_self
    constructor
    · rw [head?_intercalate hp]
      exact htrim.1
    · rw [getLast?_intercalate fun q hq => (h q hq).1]
      intro c hc
      obtain ⟨last, hlast, hc⟩ := Option.bind_eq_some_iff.mp (Option.mem_def.mp hc)
      exact (h last (List.mem_of_getLast? hlast)).2.2 c hc

theorem part_of_digits (h : ∀ c ∈ cs, c = '-' ∨ c.isDigit) (hne : cs ≠ []) : ListPart inner cs := by
  have hplain : ∀ c ∈ '-' :: "0123456789".toList,
      (isQuote c = false ∧ c ≠ ',' ∧ c ≠ '(' ∧ c ≠ ')' ∧ isQuiet searchedWords c) ∧
        isBlank c = false ∧ c ≠ ';' := by
    decide
  have hchar (c : Char) (hc : c ∈ cs) := hplain c (by
    rw [List.mem_cons]
    exact (h c hc).imp_right mem_digits_of_isDigit)
  exact {
    laid := .of_quiet fun c hc => (hchar c hc).1
    ne_nil := hne
    trimmed := ⟨fun c hc => (hchar c (List.mem_of_head? hc)).2.1,
      fun c hc => (hchar c (List.mem_of_getLast? hc)).2.1⟩
    ends := fun c hc => (hchar c (List.mem_of_getLast? hc)).2.2 }

end part

namespace SelectStatement

/-! ## Sections -/

/-- A list as a section, unless it is empty. -/
def listSection (c : Clause) (sep : String) (parts : List String) : List (Clause × List Char) :=
  if parts.isEmpty then [] else [(c, ' ' :: (joinWith sep parts).toList)]

/-- The conditions, each in parentheses. -/
def groupedConditions (s : SelectStatement) : List String :=
  s.conditions.map fun f => "(" ++ f ++ ")"

/-- The items with the line break before them. -/
def selectBody (s : SelectStatement) : List Char :=
  '\n' :: ' ' :: ' ' :: (joinWith ",\n  " s.items).toList

/-- The sections after SELECT. -/
def laterSections (s : SelectStatement) : List (Clause × List Char) :=
  [(.source, ' ' :: s.source.toList)] ++ listSection .condition "\n  AND " s.groupedConditions ++
    listSection .grouping ", " s.groupPositions ++ listSection .ordering ", " s.ordering ++
    s.limit.toList.map fun n => (.limit, ' ' :: (toString n).toList)

theorem map_written_listSection {c : Clause} {keyword : String}
    (h : keyword.toList = c.title.toList ++ [' ']) (sep : String) (parts : List String) :
    (listSection c sep parts).map written = (listClause keyword sep parts).map String.toList := by
  rw [listSection, listClause]
  split
  · rfl
  · simp [written, h]

theorem toList_text (s : SelectStatement) :
    s.text.toList = sectionText ((.select, s.selectBody) :: s.laterSections) := by
  have hselect : "SELECT\n  ".toList = Clause.select.title.toList ++ ['\n', ' ', ' '] := rfl
  have hsource : "FROM ".toList = Clause.source.title.toList ++ [' '] := rfl
  have hcondition : "WHERE ".toList = Clause.condition.title.toList ++ [' '] := rfl
  have hgrouping : "GROUP BY ".toList = Clause.grouping.title.toList ++ [' '] := rfl
  have hordering : "ORDER BY ".toList = Clause.ordering.title.toList ++ [' '] := rfl
  have hlimit : "LIMIT ".toList = Clause.limit.title.toList ++ [' '] := rfl
  have hbreak : "\n".toList = ['\n'] := rfl
  have hnumber : (s.limit.toList.map fun n => "LIMIT " ++ toString n).map String.toList =
      (s.limit.toList.map fun n => (Clause.limit, ' ' :: (toString n).toList)).map written := by
    rw [List.map_map, List.map_map]
    apply List.map_congr_left
    intro n _
    simp [written, hlimit]
  rw [text, toList_joinWith, sectionText, clauses, hbreak]
  simp only [List.map_append, hnumber, ← map_written_listSection hcondition,
    ← map_written_listSection hgrouping, ← map_written_listSection hordering]
  simp only [List.map_cons, List.map_nil, String.toList_append, laterSections, List.map_append,
    List.append_assoc, List.cons_append, List.nil_append, written, selectBody, hselect, hsource,
    groupedConditions]

theorem sublist_followers (s : SelectStatement) :
    (s.laterSections.map Prod.fst).Sublist Clause.followers := by
  have hlist (c : Clause) (sep : String) (parts : List String) :
      ((listSection c sep parts).map Prod.fst).Sublist [c] := by
    rw [listSection]
    split
    · exact List.nil_sublist _
    · exact List.Sublist.refl _
  have hlimit : ((s.limit.toList.map fun n => (Clause.limit, ' ' :: (toString n).toList)).map
      Prod.fst).Sublist [Clause.limit] := by
    cases s.limit with
    | none => exact List.nil_sublist _
    | some n => exact List.Sublist.refl _
  rw [laterSections, List.map_append, List.map_append, List.map_append, List.map_append]
  show List.Sublist _ ([Clause.source] ++ [.condition] ++ [.grouping] ++ ([.having] ++ [.ordering]) ++
    [.limit])
  exact ((((List.Sublist.refl _).append (hlist ..)).append (hlist ..)).append
    ((hlist ..).trans (List.sublist_append_right _ _))).append hlimit

/-! ## Reading -/

/-- The parts of a statement can be told apart in its text. -/
structure Readable (inner : List Char → Prop) (s : SelectStatement) : Prop where
  items_ne_nil : s.items ≠ []
  items : ∀ i ∈ s.items, ListPart inner i.toList
  /-- No item is read as DISTINCT. -/
  notDistinct : ∀ i ∈ s.items, ∀ c ∈ i.toList.head?, fold c ≠ 'd'
  source : ListPart inner s.source.toList
  conditions : ∀ f ∈ s.conditions, WellFormed f.toList ∧ inner (mask f.toList)
  ordering : ∀ o ∈ s.ordering, ListPart inner o.toList

section reading

variable {inner : List Char → Prop} {s : SelectStatement}

theorem part_groupPositions (s : SelectStatement) :
    ∀ g ∈ s.groupPositions, ListPart inner g.toList := by
  intro g hg
  obtain ⟨n, -, rfl⟩ := List.mem_map.mp hg
  exact part_of_digits (fun c hc => Or.inr (isDigit_of_mem_toString hc)) (toString_ne_nil _)

theorem part_group {f : String} (h : WellFormed f.toList ∧ inner (mask f.toList)) :
    ListPart inner ("(" ++ f ++ ")").toList := by
  have htext : ("(" ++ f ++ ")").toList = '(' :: (f.toList ++ [')']) := by
    simp
  have hlast : ('(' :: (f.toList ++ [')'])).getLast? = some ')' := by
    rw [← List.cons_append, List.getLast?_concat]
  rw [htext]
  refine ⟨.group h.1 h.2, List.cons_ne_nil _ _, trimmed_group _, ?_⟩
  rintro c hc rfl
  rw [hlast] at hc
  cases hc

theorem part_groupedConditions (h : s.Readable inner) :
    ∀ g ∈ s.groupedConditions, ListPart inner g.toList := by
  intro g hg
  obtain ⟨f, hf, rfl⟩ := List.mem_map.mp hg
  exact part_group (h.conditions f hf)

/-- A joined list of parts is a part. -/
theorem part_join {sep : String} {parts : List String}
    (hsep : Laid searchedWords (fun _ => True) inner sep.toList) (hne : parts ≠ [])
    (h : ∀ p ∈ parts, ListPart inner p.toList) :
    Part (fun _ => True) inner (joinWith sep parts).toList := by
  have hparts : ∀ p ∈ parts.map String.toList, Part (fun _ => True) inner p := by
    intro p hp
    obtain ⟨q, hq, rfl⟩ := List.mem_map.mp hp
    exact (h q hq).ofList
  have hlast : (List.intercalate sep.toList (parts.map String.toList)).getLast? =
      (parts.map String.toList).getLast?.bind List.getLast? :=
    getLast?_intercalate fun p hp => (hparts p hp).ne_nil
  obtain ⟨p, parts, rfl⟩ := List.exists_cons_of_ne_nil hne
  have hp := hparts p.toList List.mem_cons_self
  rw [toList_joinWith]
  refine ⟨hsep.intercalate fun p hp => (hparts p hp).laid, ?_,
    trimmed_intercalate fun p hp => ⟨(hparts p hp).ne_nil, (hparts p hp).trimmed⟩, ?_⟩
  · intro hnil
    have hhead : (List.intercalate sep.toList (p.toList :: parts.map String.toList)).head? = p.toList.head? :=
      head?_intercalate hp.ne_nil
    rw [List.map_cons] at hnil
    rw [hnil, List.head?_nil, eq_comm, List.head?_eq_none_iff] at hhead
    exact hp.ne_nil hhead
  · intro c hc
    rw [hlast] at hc
    obtain ⟨last, hmem, hc⟩ := Option.bind_eq_some_iff.mp (Option.mem_def.mp hc)
    exact (hparts last (List.mem_of_getLast? hmem)).ends c hc

theorem laid_conjunction : Laid searchedWords (fun _ => True) inner "\n  AND ".toList :=
  .of_fixed rfl rfl

/-- Every section after SELECT is a part behind a space. -/
theorem exists_part_of_mem_laterSections (h : s.Readable inner) :
    ∀ t ∈ s.laterSections, ∃ cs, t.2 = ' ' :: cs ∧ Part (fun _ => True) inner cs := by
  have hlist {c : Clause} {sep : String} {parts : List String}
      (hsep : Laid searchedWords (fun _ => True) inner sep.toList)
      (hparts : ∀ p ∈ parts, ListPart inner p.toList) :
      ∀ t ∈ listSection c sep parts, ∃ cs, t.2 = ' ' :: cs ∧ Part (fun _ => True) inner cs := by
    intro t ht
    rw [listSection] at ht
    split at ht
    next => cases ht
    next hne =>
      rw [List.mem_singleton] at ht
      subst ht
      exact ⟨_, rfl, part_join hsep (fun hnil => hne (by rw [hnil]; rfl)) hparts⟩
  have hcomma : Laid searchedWords (fun _ => True) inner ", ".toList := .of_fixed rfl rfl
  intro t ht
  rw [laterSections] at ht
  simp only [List.mem_append, List.mem_singleton] at ht
  rcases ht with (((rfl | ht) | ht) | ht) | ht
  · exact ⟨_, rfl, h.source.ofList⟩
  · exact hlist laid_conjunction (part_groupedConditions h) t ht
  · exact hlist hcomma (part_groupPositions s) t ht
  · exact hlist hcomma h.ordering t ht
  · obtain ⟨n, -, rfl⟩ := List.mem_map.mp ht
    exact ⟨_, rfl, (part_of_digits (fun c hc => Or.inr (isDigit_of_mem_toString hc))
      (toString_ne_nil n)).ofList⟩

theorem laid_gap_append {gap cs : List Char} (hgap : ∀ c ∈ gap, c = ' ' ∨ c = '\n')
    (h : Laid searchedWords (fun _ => True) inner cs) :
    Laid searchedWords (fun _ => True) inner (gap ++ cs) := by
  refine Laid.append (.of_quiet fun c hc => ?_) h
  rcases hgap c hc with rfl | rfl <;> exact ⟨rfl, trivial, by decide, by decide, by decide⟩

theorem isBody_gap_append {c : Char} {gap cs : List Char} (hgap : ∀ d ∈ c :: gap, d = ' ' ∨ d = '\n')
    (h : Laid searchedWords (fun _ => True) inner cs) : IsBody inner (c :: gap ++ cs) where
  laid := (laid_gap_append hgap h).mono (List.subset_append_left _ _) (fun _ _ => trivial) fun _ => id
  endsWord := by
    have hc : isWord c = false := by
      rcases hgap c List.mem_cons_self with rfl | rfl <;> rfl
    simp [endsWord, hc]

theorem part_items (h : s.Readable inner) :
    Part (fun _ => True) inner (joinWith ",\n  " s.items).toList :=
  part_join (.of_fixed rfl rfl) h.items_ne_nil h.items

theorem isBody_selectBody (h : s.Readable inner) : IsBody inner s.selectBody :=
  @isBody_gap_append inner '\n' [' ', ' '] _ (by decide) (part_items h).laid

theorem isBody_of_mem_laterSections (h : s.Readable inner) : ∀ t ∈ s.laterSections, IsBody inner t.2 := by
  intro t ht
  obtain ⟨cs, hcs, hpart⟩ := exists_part_of_mem_laterSections h t ht
  rw [hcs]
  exact @isBody_gap_append inner ' ' [] cs (by decide) hpart.laid

/-- The clauses of the text are the parts, each trimmed. -/
theorem clauses?_text (h : s.Readable inner) :
    clauses? s.text.toList =
      some (((.select, s.selectBody) :: s.laterSections).map fun t => (t.1, trim t.2)) := by
  rw [toList_text]
  exact clauses?_sections (isBody_selectBody h) (isBody_of_mem_laterSections h) s.sublist_followers

/-- The text has neither white space around it nor a semicolon at its end. -/
theorem ends_text (h : s.Readable inner) : Trimmed s.text.toList ∧ ∀ c ∈ s.text.toList.getLast?, c ≠ ';' := by
  have hne : ∀ cs ∈ ((.select, s.selectBody) :: s.laterSections).map written, cs ≠ [] := by
    intro cs hcs
    obtain ⟨t, -, rfl⟩ := List.mem_map.mp hcs
    cases ht : t.1 <;> rw [written, ht] <;> exact List.cons_ne_nil _ _
  have hsections : s.laterSections ≠ [] := by
    rw [laterSections]
    simp
  obtain ⟨later, t, hlater⟩ := (List.eq_nil_or_concat' s.laterSections).resolve_left hsections
  obtain ⟨cs, hcs, hpart⟩ := exists_part_of_mem_laterSections h t (by rw [hlater]; simp)
  have hlast : s.text.toList.getLast? = cs.getLast? := by
    obtain ⟨d, ds, rfl⟩ := List.exists_cons_of_ne_nil hpart.ne_nil
    rw [toList_text, sectionText, getLast?_intercalate hne, hlater, ← List.cons_append, List.map_append,
      List.map_singleton, List.getLast?_concat, Option.bind_some, written, hcs, List.getLast?_append,
      List.getLast?_cons_cons, List.getLast?_cons]
    rfl
  have hhead : s.text.toList.head? = some 'S' := by
    rw [toList_text, sectionText, List.map_cons, head?_intercalate (hne _ List.mem_cons_self)]
    have htitle : Clause.select.title.toList = ['S', 'E', 'L', 'E', 'C', 'T'] := rfl
    rw [written, htitle]
    rfl
  refine ⟨⟨?_, ?_⟩, by rw [hlast]; exact hpart.ends⟩
  · rw [hhead]
    rintro c hc
    cases hc
    rfl
  · rw [hlast]
    exact hpart.trimmed.2

/-- Nothing is cut off the text before it is read. -/
theorem statement_text (h : s.Readable inner) : statement s.text.toList = s.text.toList :=
  statement_eq_self (ends_text h).1 (ends_text h).2

/-! ## The clauses of the text -/

/-- The clauses that are read. -/
def readClauses (s : SelectStatement) : List (Clause × List Char) :=
  ((.select, s.selectBody) :: s.laterSections).map fun t => (t.1, trim t.2)

theorem trim_space_append {plain : Char → Prop} {cs : List Char} (h : Part plain inner cs) :
    trim (' ' :: cs) = cs := by
  rw [← List.singleton_append, trim_blank_append (by decide), trim_eq_self h.trimmed]

theorem lookup_cons (c c' : Clause) (cs : List Char) (rest : List (Clause × List Char)) :
    ((c, cs) :: rest).lookup c' = if c' = c then some cs else rest.lookup c' := by
  rw [List.lookup_cons]
  by_cases hc : c' = c
  · rw [beq_iff_eq.mpr hc, if_pos hc]
  · rw [beq_eq_false_iff_ne.mpr hc, if_neg hc]

theorem lookup_listSection {sep : String} {parts : List String} (c c' : Clause)
    (hsep : Laid searchedWords (fun _ => True) inner sep.toList)
    (h : ∀ p ∈ parts, ListPart inner p.toList) :
    ((listSection c sep parts).map fun t => (t.1, trim t.2)).lookup c' =
      if c' = c ∧ parts ≠ [] then some (joinWith sep parts).toList else none := by
  cases parts with
  | nil => simp [listSection]
  | cons p parts =>
    have htrim := trim_space_append (part_join hsep (List.cons_ne_nil p parts) h)
    rw [listSection, List.isEmpty_cons, if_neg Bool.false_ne_true, List.map_singleton, htrim,
      lookup_cons]
    simp

theorem clauseText_readClauses (h : s.Readable inner) (c : Clause) :
    clauseText c s.readClauses =
      match c with
      | .select => (joinWith ",\n  " s.items).toList
      | .source => s.source.toList
      | .condition => (joinWith "\n  AND " s.groupedConditions).toList
      | .grouping => (joinWith ", " s.groupPositions).toList
      | .having => []
      | .ordering => (joinWith ", " s.ordering).toList
      | .limit => (s.limit.toList.flatMap fun n => (toString n).toList) := by
  have hcomma : Laid searchedWords (fun _ => True) inner ", ".toList := .of_fixed rfl rfl
  have hand : Laid searchedWords (fun _ => True) inner "\n  AND ".toList := laid_conjunction
  have hlist (sep : String) (parts : List String) :
      (if parts ≠ [] then some (joinWith sep parts).toList else none).getD [] =
        (joinWith sep parts).toList := by
    by_cases hparts : parts = []
    · simp [hparts]
    · simp [hparts]
  have hselect : trim s.selectBody = (joinWith ",\n  " s.items).toList := by
    have hpart := part_items h
    show trim (['\n', ' ', ' '] ++ (joinWith ",\n  " s.items).toList) = _
    rw [trim_blank_append (by decide), trim_eq_self hpart.trimmed]
  have hlimit : ((s.limit.toList.map fun n => (Clause.limit, ' ' :: (toString n).toList)).map
      fun t => (t.1, trim t.2)) = s.limit.toList.map fun n => (Clause.limit, (toString n).toList) := by
    rw [List.map_map]
    apply List.map_congr_left
    intro n _
    have hpart : ListPart inner (toString n).toList :=
      part_of_digits (fun c hc => Or.inr (isDigit_of_mem_toString hc)) (toString_ne_nil n)
    rw [Function.comp_apply, trim_space_append hpart]
  rw [clauseText, readClauses, laterSections]
  simp only [List.map_cons, List.map_append, List.lookup_append, hlimit, hselect, List.map_nil,
    lookup_listSection _ _ hcomma (part_groupPositions s), lookup_listSection _ _ hcomma h.ordering,
    lookup_listSection _ _ hand (part_groupedConditions h), trim_space_append h.source,
    lookup_cons]
  have hlookup : (s.limit.toList.map fun n => (Clause.limit, (toString n).toList)).lookup c =
      if c = .limit then s.limit.map fun n => (toString n).toList else none := by
    cases s.limit <;> cases c <;> rfl
  rw [hlookup]
  cases c <;> simp only [reduceCtorEq, false_and, if_false, true_and, if_true, List.lookup_nil,
    Option.or_none, Option.none_or, Option.getD_some, Option.getD_none, hlist]
  cases s.limit <;> simp

/-! ## The query of the text -/

/-- What is read off the text. -/
def query (c : Catalog) (s : SelectStatement) : Query :=
  { sql := s.text
    table := if tableOf s.source.toList = "" then c.table else tableOf s.source.toList
    items := s.items.map fun i => SelectItem.read c i.toList
    grouping := s.groupPositions
    filters := if s.conditions.isEmpty then [] else [joinWith "\n  AND " s.groupedConditions]
    ordering := s.ordering
    limit := s.limit }

theorem splitList_joinWith {sep : String} (gap : List Char) (hsep : sep.toList = ',' :: gap)
    (hgap : ∀ c ∈ gap, isBlank c) {parts : List String} (h : ∀ p ∈ parts, ListPart inner p.toList) :
    splitList (joinWith sep parts).toList = parts.map String.toList := by
  rw [toList_joinWith, hsep]
  apply splitList_join hgap
  intro p hp
  obtain ⟨q, hq, rfl⟩ := List.mem_map.mp hp
  exact (h q hq).listEntry

theorem selectItems_join (c : Catalog) (h : s.Readable inner) :
    selectItems c (joinWith ",\n  " s.items).toList =
      s.items.map fun i => SelectItem.read c i.toList := by
  have hdistinct : afterDistinct? (joinWith ",\n  " s.items).toList = none := by
    obtain ⟨i, items, hitems⟩ := List.exists_cons_of_ne_nil h.items_ne_nil
    have hi : i ∈ s.items := by simp [hitems]
    obtain ⟨x, xs, hx⟩ := List.exists_cons_of_ne_nil (h.items i hi).ne_nil
    have hhead : (joinWith ",\n  " s.items).toList.head? = some x := by
      rw [toList_joinWith, hitems, List.map_cons, head?_intercalate (h.items i hi).ne_nil, hx]
      rfl
    have hd := h.notDistinct i hi x (by rw [hx]; rfl)
    apply afterDistinct?_of_head
    rw [hhead]
    rintro d ⟨⟩
    exact hd
  rw [selectItems, hdistinct, Option.getD_none,
    splitList_joinWith ['\n', ' ', ' '] rfl (by decide) h.items, List.map_map]
  rfl

theorem limitOf_toString (n : Nat) : limitOf (toString n).toList = (natural (toString n).toList).map some := by
  have hdigits : (toString n).toList.takeWhile isDigit = (toString n).toList := by
    rw [List.takeWhile_eq_self_iff]
    exact fun c hc => isDigit_of_charIsDigit (isDigit_of_mem_toString hc)
  rw [limitOf]
  simp only [hdigits, List.isEmpty_eq_false_iff.mpr (toString_ne_nil n)]
  rfl

/-- The parts of a statement are read back from its text, if its limit can be read. -/
theorem read?_text_eq (c : Catalog) (h : s.Readable inner) : Query.read? c s.text =
    (limitOf (s.limit.toList.flatMap fun n => (toString n).toList)).map fun limit =>
      some { s.query c with limit } := by
  have hclauses : clauses? s.text.toList = some s.readClauses := clauses?_text h
  have hlist (parts : List String) (hparts : ∀ p ∈ parts, ListPart inner p.toList) :
      (splitList (joinWith ", " parts).toList).map String.ofList = parts := by
    rw [splitList_joinWith [' '] rfl (by decide) hparts, List.map_map]
    simp [Function.comp_def]
  have hcondition : (if (joinWith "\n  AND " s.groupedConditions).toList.isEmpty then []
      else [joinWith "\n  AND " s.groupedConditions]) =
        if s.conditions.isEmpty then [] else [joinWith "\n  AND " s.groupedConditions] := by
    cases hconditions : s.conditions with
    | nil => simp [groupedConditions, hconditions]
    | cons f fs =>
      have hne : s.groupedConditions ≠ [] := by simp [groupedConditions, hconditions]
      have hpart := part_join laid_conjunction hne (part_groupedConditions h)
      rw [List.isEmpty_eq_false_iff.mpr hpart.ne_nil]
      rfl
  rw [Query.read?, statement_text h]
  simp only [hclauses, Query.ofClauses, clauseText_readClauses h, selectItems_join c h,
    hlist _ (part_groupPositions s), hlist _ h.ordering, String.ofList_toList, hcondition]
  cases limitOf _ <;> rfl

/-- **The parts of a statement are read back from its text.** -/
theorem read?_text (c : Catalog) (h : s.Readable inner) (hlimit : ∀ n ∈ s.limit, isWritable n) :
    Query.read? c s.text = .ok (some (s.query c)) := by
  rw [read?_text_eq c h]
  cases hn : s.limit with
  | none =>
    rw [query, hn]
    rfl
  | some n =>
    rw [query, hn, Option.toList_some, List.flatMap_singleton, limitOf_toString, natural_toString (hlimit n hn)]
    rfl

end reading

end SelectStatement

end MetricLayer.Sql
