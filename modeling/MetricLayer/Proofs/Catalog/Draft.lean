import MetricLayer.Proofs.Catalog.Lookup
import MetricLayer.Proofs.Catalog.Source
import MetricLayer.Proofs.Text.Keyword
import MetricLayer.Proofs.Text.Label

/-!
# When a draft is accepted

A draft of columns with distinct names has a column, perhaps a dimension and perhaps a measure for each of them,
in their order, and a count of rows (`Draft.draft_eq`, `Draft.entries_draft`).
The alias of an entry starts in a word of its own and ends in the name of the column (`Draft.forms`), so for ASCII
names two of them agree only if the names do (`Draft.sameLower_named_iff`, `Draft.apart_iff`), and none agrees
with a label.  Hence a draft is accepted exactly if no labels and no names of numbers agree
(`accepted_draft_iff`).
-/

namespace MetricLayer

open MetricLayer.Text

namespace Draft

variable {columns : List (String × String)} {name type : String} {f g : Field}

/-! ## The parts of a draft -/

theorem upsert_of_not_mem {α : Type} {key : α → String} {a : α} {bs : List α} (h : key a ∉ bs.map key) :
    upsert key a bs = bs ++ [a] := by
  induction bs with
  | nil => rfl
  | cons b bs ih =>
    have hne : key b ≠ key a := fun heq => h (heq ▸ List.mem_cons_self)
    rw [upsert, if_neg hne, ih fun hbs => h (List.mem_cons_of_mem _ hbs), List.cons_append]

/-- The columns as they are profiled. -/
def profiles (columns : List (String × String)) : List Field :=
  columns.map fun column => profile column.1 column.2

/-- The categories whose columns become dimensions. -/
def labelled : List String :=
  ["categorical", "temporal", "identifier"]

/-- The dimension of a column, unless it is a plain number. -/
def dimension? (f : Field) : Option Dimension :=
  if labelled.contains f.category then some { source := f.name, aliasName := label f.name } else none

/-- The entries of a column. -/
def measured (f : Field) : List Entry :=
  ((measure? f).map Measure.entries).getD []

theorem name_profile : (profile name type).name = name := by
  rw [profile]
  split_ifs <;> rfl

theorem map_name_profiles : (profiles columns).map Field.name = columns.map Prod.fst := by
  rw [profiles, List.map_map]
  exact List.map_congr_left fun column _ => name_profile

theorem source_of_measure?_eq_some {m : Measure} (h : measure? f = some m) : m.source = f.name := by
  rw [measure?] at h
  split_ifs at h <;> cases h <;> rfl

theorem source_of_dimension?_eq_some {d : Dimension} (h : dimension? f = some d) : d.source = f.name := by
  rw [dimension?] at h
  split_ifs at h
  cases h
  rfl

/-- A column adds its own parts. -/
theorem addColumn_eq (c : Catalog) (column : String × String) : addColumn c column = { c with
    fields := upsert Field.name (profile column.1 column.2) c.fields
    dimensions := (dimension? (profile column.1 column.2)).elim c.dimensions
      (upsert Dimension.source · c.dimensions)
    measures := (measure? (profile column.1 column.2)).elim c.measures (upsert Measure.source · c.measures) } := by
  have hdimensions : (dimension? (profile column.1 column.2)).elim c.dimensions
      (upsert Dimension.source · c.dimensions) =
      if labelled.contains (profile column.1 column.2).category then
        upsert Dimension.source { source := (profile column.1 column.2).name,
                                  aliasName := label (profile column.1 column.2).name } c.dimensions
      else c.dimensions := by
    rw [dimension?]
    split <;> rfl
  rw [addColumn, hdimensions]
  cases measure? (profile column.1 column.2) <;> rfl

/-- Behind the parts of columns of other names the part of a column is added. -/
theorem elim_upsert_eq {α : Type} {part? : Field → Option α} {source : α → String} {fs : List Field}
    (hsource : ∀ {f a}, part? f = some a → source a = f.name) (hname : f.name ∉ fs.map Field.name) :
    (part? f).elim (fs.filterMap part?) (upsert source · (fs.filterMap part?)) = (fs ++ [f]).filterMap part? := by
  rw [List.filterMap_append]
  cases hpart : part? f with
  | none => simp [hpart]
  | some a =>
    have hnew : source a ∉ (fs.filterMap part?).map source := by
      rw [hsource hpart]
      intro hmem
      obtain ⟨b, hb, heq⟩ := List.mem_map.mp hmem
      obtain ⟨g, hg, hgb⟩ := List.mem_filterMap.mp hb
      rw [hsource hgb] at heq
      exact hname (heq ▸ List.mem_map_of_mem hg)
    simp [hpart, upsert_of_not_mem hnew]

theorem foldl_addColumn_eq {c : Catalog} (hc : c.fields = [] ∧ c.dimensions = [] ∧ c.measures = [])
    (hnames : (columns.map Prod.fst).Nodup) : columns.foldl addColumn c = { c with
      fields := profiles columns
      dimensions := (profiles columns).filterMap dimension?
      measures := (profiles columns).filterMap measure? } := by
  induction columns using List.reverseRecOn with
  | nil =>
    obtain ⟨hfields, hdimensions, hmeasures⟩ := hc
    cases c
    simp_all [profiles]
  | append_singleton columns column ih =>
    rw [List.map_append, List.nodup_append] at hnames
    have hname : column.1 ∉ (profiles columns).map Field.name := by
      rw [map_name_profiles]
      exact fun hmem => hnames.2.2 _ hmem _ (List.mem_singleton_self _) rfl
    have hnew : (profile column.1 column.2).name ∉ (profiles columns).map Field.name := by
      rwa [name_profile]
    have hprofiles : profiles (columns ++ [column]) = profiles columns ++ [profile column.1 column.2] :=
      List.map_append
    rw [List.foldl_concat, ih hnames.1, addColumn_eq, hprofiles, upsert_of_not_mem hnew,
      elim_upsert_eq source_of_dimension?_eq_some hnew, elim_upsert_eq source_of_measure?_eq_some hnew]

variable (table description : String)

theorem draft_eq (hnames : (columns.map Prod.fst).Nodup) (hrows : rowSource ∉ columns.map Prod.fst) :
    (Catalog.draft table columns description).fields = profiles columns ∧
      (Catalog.draft table columns description).dimensions = (profiles columns).filterMap dimension? ∧
      (Catalog.draft table columns description).measures = (profiles columns).filterMap measure? ++ [rowCount] := by
  have hnew : Measure.source rowCount ∉ ((profiles columns).filterMap measure?).map Measure.source := by
    intro hmem
    obtain ⟨m, hm, heq⟩ := List.mem_map.mp hmem
    obtain ⟨f, hf, hfm⟩ := List.mem_filterMap.mp hm
    rw [source_of_measure?_eq_some hfm] at heq
    rw [← map_name_profiles] at hrows
    exact hrows (List.mem_map.mpr ⟨f, hf, heq⟩)
  rw [Catalog.draft, foldl_addColumn_eq ⟨rfl, rfl, rfl⟩ hnames]
  exact ⟨rfl, rfl, upsert_of_not_mem hnew⟩

theorem entries_draft (hnames : (columns.map Prod.fst).Nodup) (hrows : rowSource ∉ columns.map Prod.fst) :
    (Catalog.draft table columns description).entries = (profiles columns).flatMap measured ++ rowCount.entries := by
  have hflat (fs : List Field) : (fs.filterMap measure?).flatMap Measure.entries = fs.flatMap measured := by
    induction fs with
    | nil => rfl
    | cons f fs ih =>
      rw [List.filterMap_cons, List.flatMap_cons, measured]
      cases measure? f with
      | none => exact ih
      | some m => rw [List.flatMap_cons, ih]; rfl
  rw [Catalog.entries, (draft_eq table description hnames hrows).2.2, List.flatMap_append, hflat]
  rfl

/-! ## What a column is -/

theorem problems_profile (name type : String) : (profile name type).problems = [] := by
  rw [profile]
  split_ifs <;> rfl

theorem category_profile (name type : String) :
    ((profile name type).category = "identifier" ∧ isIdentifierName name.toList = true) ∨
      ((profile name type).category = "numerical" ∧ isIdentifierName name.toList = false) ∨
        ((profile name type).category = "categorical" ∨ (profile name type).category = "temporal") := by
  rw [profile]
  split_ifs with hbool hidentifier hnumeric htemporal hnumeric hname
  · exact .inr (.inr (.inl rfl))
  · exact .inl ⟨rfl, hidentifier⟩
  · exact .inl ⟨rfl, hidentifier⟩
  · exact .inr (.inr (.inr rfl))
  · exact .inr (.inl ⟨rfl, eq_false_of_ne_true hidentifier⟩)
  · exact .inr (.inr (.inr rfl))
  · exact .inr (.inr (.inl rfl))

/-- The words that the aliases of a column start and end in, around its name. -/
def forms (category : String) : List (String × String) :=
  if category = "numerical" then
    [("total", ""), ("avg", ""), ("min", ""), ("max", ""), ("count", ""), ("unique", "_vals")]
  else if category = "identifier" then [("unique", "")]
  else []

/-- The alias of an entry, made of the name of its column. -/
def named (form : String × String) (name : String) : String :=
  form.1 ++ "_" ++ name ++ form.2

theorem map_aliasName_measured (f : Field) :
    (measured f).map Entry.aliasName = (forms f.category).map (named · f.name) := by
  have hunique : "unique_" = "unique" ++ "_" := rfl
  rw [measured, measure?, forms]
  split_ifs
  · simp only [Option.map_some, Option.getD_some, Measure.entries, numericAggregations, List.map_append,
      List.map_cons, List.map_nil, Entry.aliasName, distinctCount, named, String.append_empty, hunique]
    split <;> rfl
  · simp only [Option.map_some, Option.getD_some, Measure.entries, List.map_nil, List.map_cons, List.nil_append,
      Entry.aliasName, distinctCount, named, String.append_empty, hunique]
  · rfl

theorem function_numericAggregations {a : Aggregation} (h : a ∈ numericAggregations f) :
    a.function ∈ aggregateFunctions ∧ ∃ format ∈ formatNames, a.format = .text format := by
  have hcurrency : ∃ format ∈ formatNames, Value.text "currency" = .text format := ⟨_, by decide, rfl⟩
  have hnumber : ∃ format ∈ formatNames, Value.text "number" = .text format := ⟨_, by decide, rfl⟩
  rw [numericAggregations] at h
  simp only [List.mem_cons, List.not_mem_nil, or_false] at h
  rcases h with rfl | rfl | rfl | rfl | rfl
  case inr.inr.inr.inr => exact ⟨by simp [aggregateFunctions], hnumber⟩
  all_goals
    split
    · exact ⟨by simp [aggregateFunctions], hcurrency⟩
    · exact ⟨by simp [aggregateFunctions], hnumber⟩

/-- What is measured on a column is an aggregation of it or the count of its distinct values. -/
theorem of_mem_measured {e : Entry} (h : e ∈ measured f) :
    (∃ a ∈ numericAggregations f, e = .aggregation a) ∨
      ∃ aliasName described, e = .formula (distinctCount aliasName described f) := by
  rw [measured, measure?] at h
  split_ifs at h
  · rcases List.mem_append.mp h with h | h
    · obtain ⟨a, ha, rfl⟩ := List.mem_map.mp h
      exact Or.inl ⟨a, ha, rfl⟩
    · exact Or.inr ⟨_, _, List.mem_singleton.mp h⟩
  · exact Or.inr ⟨_, _, List.mem_singleton.mp h⟩
  · cases h

/-- The entries of a column use known functions and formats, and their source is the column. -/
theorem problems_of_mem_measured {c : Catalog} {e : Entry} (he : e ∈ measured f) (hfield : c.isField f.name)
    (hrows : f.name ≠ rowSource) : e.aggregationProblems c = [] ∧ e.formatProblems = [] := by
  rcases of_mem_measured he with ⟨a, ha, rfl⟩ | ⟨aliasName, described, rfl⟩
  · obtain ⟨hfunction, format, hformat, heq⟩ := function_numericAggregations ha
    constructor
    · show a.problems c = []
      rw [Aggregation.problems, source_numericAggregations ha, if_pos (List.contains_iff_mem.mpr hfunction)]
      simp [hfield, hrows]
    · rw [Entry.formatProblems, Entry.format, heq]
      exact if_pos (List.contains_iff_mem.mpr hformat)
  · exact ⟨rfl, rfl⟩

/-! ## When aliases agree -/

/-- The words of an alias are lower-case ASCII, and the first one has no underscore. -/
structure IsForm (form : String × String) : Prop where
  ascii : IsAscii form.1.toList ∧ IsAscii form.2.toList
  lower : lower form.1.toList = form.1.toList ∧ lower form.2.toList = form.2.toList
  start : '_' ∉ form.1.toList

instance (form : String × String) : Decidable (IsForm form) :=
  decidable_of_iff ((IsAscii form.1.toList ∧ IsAscii form.2.toList) ∧
      (Text.lower form.1.toList = form.1.toList ∧ Text.lower form.2.toList = form.2.toList) ∧
        '_' ∉ form.1.toList)
    ⟨fun ⟨hascii, hlower, hstart⟩ => ⟨hascii, hlower, hstart⟩, fun h => ⟨h.ascii, h.lower, h.start⟩⟩

theorem isForm_of_mem_forms {category : String} {form : String × String} (h : form ∈ forms category) :
    IsForm form := by
  have hall : ∀ form ∈ forms "numerical" ++ forms "identifier", IsForm form := by decide +kernel
  apply hall
  rw [forms] at h
  split_ifs at h
  · exact List.mem_append_left _ h
  · exact List.mem_append_right _ h
  · cases h

variable {p q : String × String} {m n : String}

theorem lower_named (hp : IsForm p) (hm : IsAscii m.toList) : lower (named p m).toList =
    p.1.toList ++ '_' :: (lower m.toList ++ p.2.toList) := by
  have hmark : IsAscii "_".toList := by decide
  rw [named, String.toList_append, String.toList_append, String.toList_append,
    lower_append (isAscii_append.mpr ⟨isAscii_append.mpr ⟨hp.ascii.1, hmark⟩, hm⟩) hp.ascii.2,
    lower_append (isAscii_append.mpr ⟨hp.ascii.1, hmark⟩) hm, lower_append hp.ascii.1 hmark, hp.lower.1, hp.lower.2]
  have hlower : lower "_".toList = ['_'] := by decide +kernel
  rw [hlower]
  simp

/-- A character parts texts before it that it is not in. -/
theorem append_cons_inj {k : Char} {a b x y : List Char} (ha : k ∉ a) (hb : k ∉ b)
    (h : a ++ k :: x = b ++ k :: y) : a = b ∧ x = y := by
  obtain ⟨k', rfl, hk'⟩ := exists_of_append_eq_append hb h
  cases k' with
  | nil => exact ⟨List.append_nil b, (List.cons.inj hk').2.symm⟩
  | cons d k' =>
    obtain ⟨rfl, -⟩ := List.cons.inj hk'
    exact absurd (by simp) ha

theorem sameLower_named_iff (hp : IsForm p) (hq : IsForm q) (hm : IsAscii m.toList) (hn : IsAscii n.toList) :
    sameLower (named p m) (named q n) = true ↔
      p.1 = q.1 ∧ lower m.toList ++ p.2.toList = lower n.toList ++ q.2.toList := by
  rw [sameLower_iff, lower_named hp hm, lower_named hq hn]
  constructor
  · intro h
    obtain ⟨hstart, hrest⟩ := append_cons_inj hp.start hq.start h
    exact ⟨String.toList_inj.mp hstart, hrest⟩
  · rintro ⟨hstart, hrest⟩
    rw [hstart, hrest]

theorem map_fold_eq_lower {cs : List Char} (h : IsAscii cs) : cs.map fold = lower cs := by
  rw [lower_eq_map h]
  refine List.map_congr_left fun c hc => ?_
  have hc := h c hc
  rw [fold, if_neg (by omega), if_neg (by omega), if_neg (by omega)]

/-- A text ends in the last letter of a word that it ends in, or in a line break. -/
theorem getLast?_of_letters {word cs : List Char}
    (h : (letters? word cs).any isLineEnd = true) :
    (cs.map fold).getLast? = word.getLast? ∨ (cs.map fold).getLast? = some '\n' := by
  obtain ⟨rest, hrest, hend⟩ := (Option.any_eq_true ..).mp h
  obtain ⟨w, rfl, hw⟩ := letters?_eq_some_iff.mp hrest
  rw [isLineEnd, Bool.or_eq_true, beq_iff_eq, beq_iff_eq] at hend
  rcases hend with rfl | rfl
  · exact .inl (by rw [List.append_nil, hw])
  · exact .inr (by rw [List.map_append, List.getLast?_append]; rfl)

theorem getLast?_of_endsInLetters {word : String} {cs : List Char} (hne : word.toList ≠ [])
    (h : endsInLetters word cs = true) :
    (cs.map fold).getLast? = word.toList.getLast? ∨ (cs.map fold).getLast? = some '\n' := by
  obtain ⟨place, hplace, hword⟩ := List.any_eq_true.mp h
  obtain ⟨pre, post, rfl, rfl⟩ := mem_places.mp hplace
  have hlast (k : Char) (hk : (post.map fold).getLast? = some k) : ((pre ++ post).map fold).getLast? = some k := by
    rw [List.map_append, List.getLast?_append, hk, Option.some_or]
  rcases getLast?_of_letters hword with h | h
  · left
    rw [List.getLast?_eq_some_getLast hne] at h ⊢
    exact hlast _ h
  · exact .inr (hlast _ h)

/-- Of names that are identifiers only those that start in uuid end in other letters. -/
theorem isIdentifierName_of_vals (hm : IsAscii m.toList) (hn : IsAscii n.toList)
    (h : lower n.toList = lower m.toList ++ "_vals".toList) (hname : isIdentifierName n.toList = true) :
    isIdentifierName m.toList = true := by
  rw [← map_fold_eq_lower hm, ← map_fold_eq_lower hn] at h
  have hlast : (n.toList.map fold).getLast? = some 's' := by
    rw [h, List.getLast?_append]
    rfl
  have hends {word : String} (hne : word.toList ≠ []) (hs : word.toList.getLast? ≠ some 's') :
      ¬ endsInLetters word n.toList = true := by
    intro hword
    rcases getLast?_of_endsInLetters hne hword with hw | hw <;> rw [hlast] at hw
    · exact hs hw.symm
    · revert hw
      decide
  rw [isIdentifierName, Bool.or_eq_true, Bool.or_eq_true, Bool.or_eq_true] at hname
  rcases hname with ((hname | hname) | hname) | hname
  · exfalso
    rcases getLast?_of_letters hname with hw | hw <;> rw [hlast] at hw <;> revert hw <;> decide
  · exact absurd hname (hends (by decide) (by decide))
  · -- the first four letters of `n` are those of `m`
    obtain ⟨rest, hrest⟩ := Option.isSome_iff_exists.mp hname
    obtain ⟨w, hw, hfold⟩ := letters?_eq_some_iff.mp hrest
    rw [hw, List.map_append, hfold] at h
    obtain ⟨k, hk⟩ : ∃ k, m.toList.map fold = "uuid".toList ++ k := by
      rcases List.append_eq_append_iff.mp h with ⟨k, hk, -⟩ | ⟨k, hk, hvals⟩
      · exact ⟨k, hk⟩
      · cases k with
        | nil => exact ⟨[], by rw [List.append_nil] at hk ⊢; exact hk.symm⟩
        | cons c k =>
          have hvals : '_' :: "vals".toList = (c :: k) ++ rest.map fold := hvals
          obtain ⟨rfl, -⟩ := List.cons.inj hvals
          have hmem : '_' ∈ "uuid".toList := by
            rw [hk]
            simp
          exact absurd hmem (by decide)
    obtain ⟨x, y, hxy, hx, -⟩ := List.map_eq_append_iff.mp hk
    have hstarts : startsInLetters "uuid" m.toList = true :=
      Option.isSome_iff_exists.mpr ⟨y, letters?_eq_some_iff.mpr ⟨x, hxy, hx⟩⟩
    simp [isIdentifierName, hstarts]
  · exact absurd hname (hends (by decide) (by decide))

/-- Two numbers, or two identifiers, do not have one name. -/
def Apart (f g : Field) : Prop :=
  f.category = g.category → f.category = "numerical" ∨ f.category = "identifier" → sameLower f.name g.name = false

/-- The columns of a table with ASCII names. -/
structure IsColumn (f : Field) : Prop where
  ascii : IsAscii f.name.toList
  identifier : f.category = "identifier" → isIdentifierName f.name.toList = true
  numerical : f.category = "numerical" → isIdentifierName f.name.toList = false

theorem isColumn_profile (hname : IsAscii name.toList) (type : String) : IsColumn (profile name type) := by
  have hcategory := category_profile name type
  refine ⟨by rwa [name_profile], fun h => ?_, fun h => ?_⟩ <;> rw [h] at hcategory <;> rw [name_profile] <;>
    simpa using hcategory

theorem measured_of_mem_forms {category : String} (h : p ∈ forms category) :
    category = "numerical" ∨ category = "identifier" := by
  rw [forms] at h
  split_ifs at h with hnumerical hidentifier
  · exact .inl hnumerical
  · exact .inr hidentifier
  · cases h

/-- Aliases that start in one word end in one, unless one is of a number and the other of an identifier. -/
theorem of_mem_forms {category category' : String} (hp : p ∈ forms category) (hq : q ∈ forms category')
    (h : p.1 = q.1) : (category = category' ∧ p = q) ∨
      (category = "numerical" ∧ category' = "identifier" ∧ p.2 = "_vals" ∧ q.2 = "") ∨
        (category = "identifier" ∧ category' = "numerical" ∧ p.2 = "" ∧ q.2 = "_vals") := by
  have hall : ∀ category ∈ ["numerical", "identifier"], ∀ category' ∈ ["numerical", "identifier"],
      ∀ p ∈ forms category, ∀ q ∈ forms category', p.1 = q.1 → (category = category' ∧ p = q) ∨
        (category = "numerical" ∧ category' = "identifier" ∧ p.2 = "_vals" ∧ q.2 = "") ∨
          (category = "identifier" ∧ category' = "numerical" ∧ p.2 = "" ∧ q.2 = "_vals") := by
    decide +kernel
  refine hall category ?_ category' ?_ p hp q hq h
  · simpa using measured_of_mem_forms hp
  · simpa using measured_of_mem_forms hq

/-- A number and an identifier have no alias in common, since the identifier would make the number one. -/
theorem lower_append_vals_ne (hf : IsColumn f) (hg : IsColumn g) (hnumerical : f.category = "numerical")
    (hidentifier : g.category = "identifier") :
    lower f.name.toList ++ "_vals".toList ≠ lower g.name.toList := by
  intro h
  have hname := isIdentifierName_of_vals hf.ascii hg.ascii h.symm (hg.identifier hidentifier)
  rw [hf.numerical hnumerical] at hname
  cases hname

theorem apart_iff (hf : IsColumn f) (hg : IsColumn g) :
    (∀ a ∈ (measured f).map Entry.aliasName, ∀ b ∈ (measured g).map Entry.aliasName, sameLower a b = false) ↔
      Apart f g := by
  simp only [map_aliasName_measured, List.forall_mem_map]
  constructor
  · intro h hcategory hkind
    obtain ⟨p, hp⟩ : ∃ p, p ∈ forms f.category := by
      rcases hkind with hkind | hkind <;> rw [hkind]
      · exact ⟨("total", ""), by decide⟩
      · exact ⟨("unique", ""), by decide⟩
    have hfree := h p hp p (hcategory ▸ hp)
    rw [← Bool.not_eq_true, sameLower_named_iff (isForm_of_mem_forms hp) (isForm_of_mem_forms hp) hf.ascii hg.ascii]
      at hfree
    rw [← Bool.not_eq_true, sameLower_iff]
    exact fun hsame => hfree ⟨rfl, by rw [hsame]⟩
  · intro h p hp q hq
    rw [← Bool.not_eq_true, sameLower_named_iff (isForm_of_mem_forms hp) (isForm_of_mem_forms hq) hf.ascii hg.ascii]
    rintro ⟨hstart, hlower⟩
    rcases of_mem_forms hp hq hstart with ⟨hcategory, rfl⟩ | ⟨hnumber, hidentifier, hvals, hnothing⟩ |
      ⟨hidentifier, hnumber, hnothing, hvals⟩
    · have hfree := h hcategory (measured_of_mem_forms hp)
      rw [← Bool.not_eq_true, sameLower_iff] at hfree
      exact hfree (List.append_cancel_right hlower)
    · rw [hvals, hnothing, String.toList_empty, List.append_nil] at hlower
      exact lower_append_vals_ne hf hg hnumber hidentifier hlower
    · rw [hvals, hnothing, String.toList_empty, List.append_nil] at hlower
      exact lower_append_vals_ne hg hf hnumber hidentifier hlower.symm

/-- The aliases of one column are apart. -/
theorem pairwise_measured (hf : IsColumn f) :
    ((measured f).map Entry.aliasName).Pairwise fun a b => sameLower a b = false := by
  have hstarts : ∀ category ∈ ["numerical", "identifier"], (forms category).Pairwise fun p q => p.1 ≠ q.1 := by
    decide +kernel
  rw [map_aliasName_measured, List.pairwise_map]
  by_cases hcategory : f.category ∈ ["numerical", "identifier"]
  · refine (hstarts _ hcategory).imp_of_mem fun {p q} hp hq hne => ?_
    rw [← Bool.not_eq_true, sameLower_named_iff (isForm_of_mem_forms hp) (isForm_of_mem_forms hq) hf.ascii hf.ascii]
    exact fun hsame => hne hsame.1
  · simp only [List.mem_cons, List.not_mem_nil, or_false, not_or] at hcategory
    rw [forms, if_neg hcategory.1, if_neg hcategory.2]
    exact .nil

/-! ## The aliases of a draft -/

/-- The alias of the row count starts in a word of its own. -/
theorem sameLower_rowCount (hf : IsColumn f) :
    ∀ a ∈ (measured f).map Entry.aliasName, sameLower a "row_count" = false := by
  have hrow : IsForm ("row", "") := by decide +kernel
  have hstarts : ∀ p ∈ forms "numerical" ++ forms "identifier", p.1 ≠ "row" := by decide +kernel
  simp only [map_aliasName_measured, List.forall_mem_map]
  intro p hp
  have hcount : IsAscii "count".toList := by decide
  rw [← Bool.not_eq_true]
  intro hsame
  have := (sameLower_named_iff (n := "count") (isForm_of_mem_forms hp) hrow hf.ascii hcount).mp hsame
  refine hstarts p ?_ this.1
  rcases measured_of_mem_forms hp with hcategory | hcategory <;> rw [hcategory] at hp
  · exact List.mem_append_left _ hp
  · exact List.mem_append_right _ hp

/-- An alias of an entry has an underscore, and a label has none. -/
theorem sameLower_label_named (hf : IsColumn f) (hp : IsForm p) (hm : IsAscii m.toList) :
    sameLower (label f.name) (named p m) = false := by
  rw [← Bool.not_eq_true, sameLower_iff, lower_named hp hm]
  intro hsame
  refine not_mem_lower_label hf.ascii (hsame ▸ ?_)
  simp

/-- Two columns have one alias, but for letter case: their labels, or what two numbers are measured under. -/
inductive Clash (f g : Field) : Prop where
  | labels (hf : f.category ∈ labelled) (hg : g.category ∈ labelled)
    (h : sameLower (label f.name) (label g.name) = true)
  | numbers (hf : f.category = "numerical") (hg : g.category = "numerical") (h : sameLower f.name g.name = true)

theorem of_dimension?_eq_some {d : Dimension} (h : dimension? f = some d) :
    f.category ∈ labelled ∧ d = { source := f.name, aliasName := label f.name } := by
  rw [dimension?] at h
  split_ifs at h with hlabelled
  exact ⟨List.contains_iff_mem.mp hlabelled, (Option.some.inj h).symm⟩

theorem not_clash_iff (hf : IsColumn f) (hg : IsColumn g) : ¬ Clash f g ↔
    (∀ d, dimension? f = some d → ∀ d', dimension? g = some d' → sameLower d.aliasName d'.aliasName = false) ∧
      Apart f g := by
  constructor
  · intro h
    constructor
    · intro d hd d' hd'
      obtain ⟨hlabelled, rfl⟩ := of_dimension?_eq_some hd
      obtain ⟨hlabelled', rfl⟩ := of_dimension?_eq_some hd'
      exact eq_false_of_ne_true fun hsame => h (.labels hlabelled hlabelled' hsame)
    · intro hcategory hkind
      refine eq_false_of_ne_true fun hsame => h ?_
      rcases hkind with hkind | hkind
      · exact .numbers hkind (hcategory ▸ hkind) hsame
      · -- identifiers are labelled, too
        have hlabelled : f.category ∈ labelled := by
          rw [hkind]
          decide
        exact .labels hlabelled (hcategory ▸ hlabelled) (sameLower_label hf.ascii hg.ascii hsame)
  · rintro ⟨hlabels, hapart⟩ (⟨hlabelled, hlabelled', hsame⟩ | ⟨hnumber, hnumber', hsame⟩)
    · have hfree := hlabels _ (if_pos (List.contains_iff_mem.mpr hlabelled)) _
        (if_pos (List.contains_iff_mem.mpr hlabelled'))
      rw [hsame] at hfree
      cases hfree
    · rw [hapart (hnumber.trans hnumber'.symm) (.inl hnumber)] at hsame
      cases hsame

section columns

variable (hascii : ∀ column ∈ columns, IsAscii column.1.toList)
include hascii

theorem isColumn_of_mem_profiles (hf : f ∈ profiles columns) : IsColumn f := by
  obtain ⟨column, hcolumn, rfl⟩ := List.mem_map.mp hf
  exact isColumn_profile (hascii column hcolumn) column.2

/-- The aliases of the entries are distinct if the entries of any two columns are apart. -/
theorem pairwise_aliasName_entries (hnames : (columns.map Prod.fst).Nodup)
    (hrows : rowSource ∉ columns.map Prod.fst) (table description : String) :
    ((Catalog.draft table columns description).entries.map Entry.aliasName).Pairwise
      (fun a b => sameLower a b = false) ↔ (profiles columns).Pairwise Apart := by
  have hcross : ∀ a ∈ (profiles columns).flatMap fun f => (measured f).map Entry.aliasName,
      ∀ b ∈ ["row_count"], sameLower a b = false := by
    intro a ha b hb
    obtain ⟨f, hf, ha⟩ := List.mem_flatMap.mp ha
    rw [List.mem_singleton.mp hb]
    exact sameLower_rowCount (isColumn_of_mem_profiles hascii hf) a ha
  have hcount : rowCount.entries.map Entry.aliasName = ["row_count"] := rfl
  rw [entries_draft table description hnames hrows, List.map_append, List.map_flatMap, hcount, List.pairwise_append,
    List.pairwise_flatMap]
  have hwithin : ∀ f ∈ profiles columns,
      ((measured f).map Entry.aliasName).Pairwise fun a b => sameLower a b = false :=
    fun f hf => pairwise_measured (isColumn_of_mem_profiles hascii hf)
  have hapart : (profiles columns).Pairwise (fun f g => ∀ a ∈ (measured f).map Entry.aliasName,
      ∀ b ∈ (measured g).map Entry.aliasName, sameLower a b = false) ↔ (profiles columns).Pairwise Apart :=
    List.Pairwise.iff_of_mem fun hf hg =>
      apart_iff (isColumn_of_mem_profiles hascii hf) (isColumn_of_mem_profiles hascii hg)
  rw [and_iff_left ⟨List.pairwise_singleton .., hcross⟩, and_iff_right hwithin, hapart]

/-- No alias of an entry agrees with a label. -/
theorem sameLower_dimension_entry (hnames : (columns.map Prod.fst).Nodup)
    (hrows : rowSource ∉ columns.map Prod.fst) {table description : String} {d : Dimension} {e : Entry}
    (hd : d ∈ (Catalog.draft table columns description).dimensions)
    (he : e ∈ (Catalog.draft table columns description).entries) : sameLower d.aliasName e.aliasName = false := by
  rw [(draft_eq table description hnames hrows).2.1] at hd
  obtain ⟨f, hf, hfd⟩ := List.mem_filterMap.mp hd
  obtain ⟨-, rfl⟩ := of_dimension?_eq_some hfd
  have hcolumn := isColumn_of_mem_profiles hascii hf
  rw [entries_draft table description hnames hrows] at he
  rcases List.mem_append.mp he with he | he
  · obtain ⟨g, hg, he⟩ := List.mem_flatMap.mp he
    have halias := List.mem_map_of_mem (f := Entry.aliasName) he
    rw [map_aliasName_measured] at halias
    obtain ⟨p, hp, halias⟩ := List.mem_map.mp halias
    rw [← halias]
    exact sameLower_label_named hcolumn (isForm_of_mem_forms hp) (isColumn_of_mem_profiles hascii hg).ascii
  · obtain rfl := List.mem_singleton.mp he
    exact sameLower_label_named (p := ("row", "")) (m := "count") hcolumn (by decide +kernel) (by decide)

end columns

end Draft

theorem Catalog.isField_of_mem {c : Catalog} {f : Field} (hf : f ∈ c.fields) : c.isField f.name = true := by
  have hfind : (c.fields.find? fun g => g.name == f.name).isSome :=
    List.find?_isSome.mpr ⟨f, hf, beq_self_eq_true _⟩
  obtain ⟨g, hg⟩ := Option.isSome_iff_exists.mp hfind
  rw [Catalog.isField, Catalog.field?, hg]
  rfl

open Draft in
/-- **A draft of columns with distinct ASCII names, none of them that of the rows, is accepted exactly if no two
columns clash.** -/
theorem accepted_draft_iff (table description : String) {columns : List (String × String)}
    (hnames : (columns.map Prod.fst).Nodup) (hascii : ∀ column ∈ columns, IsAscii column.1.toList)
    (hrows : rowSource ∉ columns.map Prod.fst) :
    (Catalog.draft table columns description).Accepted ↔
      (profiles columns).Pairwise fun f g => ¬ Clash f g := by
  obtain ⟨hfields, hdimensions, -⟩ := draft_eq table description hnames hrows
  have hisField {f : Field} (hf : f ∈ profiles columns) :
      (Catalog.draft table columns description).isField f.name = true :=
    Catalog.isField_of_mem (hfields ▸ hf)
  have hproblems : ∀ f ∈ (Catalog.draft table columns description).fields, f.problems = [] := by
    rw [hfields]
    rintro _ hf
    obtain ⟨column, -, rfl⟩ := List.mem_map.mp hf
    exact problems_profile column.1 column.2
  have hsources : ∀ d ∈ (Catalog.draft table columns description).dimensions,
      d.sourceProblems (Catalog.draft table columns description) = [] := by
    rw [hdimensions]
    rintro _ hd
    obtain ⟨f, hf, hfd⟩ := List.mem_filterMap.mp hd
    obtain ⟨-, rfl⟩ := of_dimension?_eq_some hfd
    simp [Dimension.sourceProblems, hisField hf]
  have hentries : ∀ e ∈ (Catalog.draft table columns description).entries,
      e.aggregationProblems (Catalog.draft table columns description) = [] ∧ e.formatProblems = [] := by
    rw [entries_draft table description hnames hrows]
    intro e he
    rcases List.mem_append.mp he with he | he
    · obtain ⟨f, hf, he⟩ := List.mem_flatMap.mp he
      refine problems_of_mem_measured he (hisField hf) fun hrow => hrows ?_
      rw [← map_name_profiles]
      exact hrow ▸ List.mem_map_of_mem hf
    · obtain rfl := List.mem_singleton.mp he
      exact ⟨rfl, rfl⟩
  have hlabels : ((Catalog.draft table columns description).dimensions.map Dimension.aliasName).Pairwise
      (fun a b => sameLower a b = false) ↔ (profiles columns).Pairwise fun f g => ∀ d, dimension? f = some d →
        ∀ d', dimension? g = some d' → sameLower d.aliasName d'.aliasName = false := by
    rw [hdimensions, List.pairwise_map, List.pairwise_filterMap]
  have hcross : ∀ a ∈ (Catalog.draft table columns description).dimensions.map Dimension.aliasName,
      ∀ b ∈ (Catalog.draft table columns description).entries.map Entry.aliasName, sameLower a b = false := by
    simp only [List.forall_mem_map]
    exact fun d hd e he => sameLower_dimension_entry hascii hnames hrows hd he
  rw [Catalog.accepted_iff, and_iff_right hproblems, and_iff_right hsources, and_iff_right hentries,
    Catalog.declaredAliases, List.pairwise_append, hlabels,
    pairwise_aliasName_entries hascii hnames hrows table description, and_iff_left hcross, ← List.pairwise_and_iff]
  exact List.Pairwise.iff_of_mem fun hf hg =>
    (not_clash_iff (isColumn_of_mem_profiles hascii hf) (isColumn_of_mem_profiles hascii hg)).symm

/-- Columns of all categories, two of which differ in letter case and one of which ends as an alias does. -/
def Draft.visitColumns : List (String × String) :=
  [("visit_id", "BIGINT"), ("spend", "DOUBLE"), ("spend_vals", "VARCHAR"), ("started_at", "TIMESTAMP"),
    ("SPEND", "BOOLEAN")]

open Draft in
/-- A flag and a number may have one name; with a text for the flag's label there are two labels that agree. -/
theorem accepted_draft_iff_visitColumns :
    (visitColumns.map Prod.fst).Nodup ∧ (∀ column ∈ visitColumns, IsAscii column.1.toList) ∧
      rowSource ∉ visitColumns.map Prod.fst ∧
      ((profiles visitColumns).Pairwise fun f g => ¬ Clash f g) ∧
      ¬ (profiles (visitColumns ++ [(" Spend", "TEXT")])).Pairwise fun f g => ¬ Clash f g := by
  have haccepted : (Catalog.draft "visits" visitColumns "").Accepted := by decide +kernel
  have hrejected : ¬ (Catalog.draft "visits" (visitColumns ++ [(" Spend", "TEXT")]) "").Accepted := by
    decide +kernel
  exact ⟨by decide, by decide, by decide,
    (accepted_draft_iff "visits" "" (by decide) (by decide) (by decide)).mp haccepted,
    fun hfree => hrejected ((accepted_draft_iff "visits" "" (by decide) (by decide) (by decide)).mpr hfree)⟩

end MetricLayer
