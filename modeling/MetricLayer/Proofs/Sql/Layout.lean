import MetricLayer.Proofs.Sql.Mask
import MetricLayer.Proofs.Text.Keyword

/-!
# Layout of a masked text

Searches over a statement pass over most of its text: over quoted names, over whole groups in
parentheses, and over words that are none of the words searched.  `Layout names plain inner` describes
such text from left to right, one character or one group at a time: outside parentheses no word clashes
with one of `names` and every character is `plain`, and the content of every group is balanced and
`inner`.  A search lemma is then one induction on the layout, and the layout of a text is put together
from the layouts of its pieces (`Layout.append`).

`Laid` is the same of an unmasked text whose quotes are closed.
-/

namespace MetricLayer.Sql

open MetricLayer.Text

/-- The layout of a masked text after a character. -/
inductive Layout (names : List String) (plain : Char → Prop) (inner : List Char → Prop) :
    Option Char → List Char → Prop
  | nil {b} : Layout names plain inner b []
  | char {b c rest} (hplain : plain c) (hopen : c ≠ '(') (hclose : c ≠ ')')
      (hquiet : wordStart b → ∀ name ∈ names, clash name.toList (c :: rest) = false)
      (hrest : Layout names plain inner (some c) rest) : Layout names plain inner b (c :: rest)
  | group {b body rest} (hbody : Balanced body) (hinner : inner body)
      (hrest : Layout names plain inner (some ')') rest) :
      Layout names plain inner b ('(' :: (body ++ ')' :: rest))

variable {names : List String} {plain : Char → Prop} {inner : List Char → Prop}
  {b : Option Char} {m m' : List Char}

namespace Layout

theorem append (h : Layout names plain inner b m) (h' : Layout names plain inner (lastOr b m) m') :
    Layout names plain inner b (m ++ m') := by
  induction h with
  | nil => exact h'
  | char hplain hopen hclose hquiet _ ih =>
    rw [lastOr_cons] at h'
    exact .char hplain hopen hclose
      (fun hb name hname => clash_append (hquiet hb name hname) m') (ih h')
  | group hbody hinner _ ih =>
    rw [lastOr_cons, lastOr_append, lastOr_cons] at h'
    rw [List.cons_append, List.append_assoc]
    exact .group hbody hinner (ih h')

theorem after (h : Layout names plain inner none m) (b : Option Char) :
    Layout names plain inner b m := by
  cases h with
  | nil => exact .nil
  | char hplain hopen hclose hquiet hrest =>
    exact .char hplain hopen hclose (fun _ => hquiet rfl) hrest
  | group hbody hinner hrest => exact .group hbody hinner hrest

theorem append_of_start (h : Layout names plain inner b m) (h' : Layout names plain inner none m') :
    Layout names plain inner b (m ++ m') :=
  h.append (h'.after _)

theorem mono {names' : List String} {plain' : Char → Prop} {inner' : List Char → Prop}
    (h : Layout names plain inner b m) (hnames : names' ⊆ names) (hplain : ∀ c, plain c → plain' c)
    (hinner : ∀ body, inner body → inner' body) : Layout names' plain' inner' b m := by
  induction h with
  | nil => exact .nil
  | char hp hopen hclose hquiet _ ih =>
    exact .char (hplain _ hp) hopen hclose (fun hb name hname => hquiet hb name (hnames hname)) ih
  | group hbody hi _ ih => exact .group hbody (hinner _ hi) ih

theorem balanced (h : Layout names plain inner b m) : Balanced m := by
  induction h with
  | nil => rfl
  | char _ hopen hclose _ _ ih =>
    rw [Balanced, depthAfter?, if_neg hopen, if_neg hclose]
    exact ih
  | group hbody _ _ ih =>
    rw [Balanced, depthAfter?, if_pos rfl, depthAfter?_append, depthAfter?_add hbody 1]
    exact ih

end Layout

/-! ## Checking a layout -/

/-- A text without parentheses in which no word clashes with a name. -/
def isLaidOut (names : List String) (plain : Char → Bool) : Option Char → List Char → Bool
  | _, [] => true
  | b, c :: cs =>
    plain c && c != '(' && c != ')' &&
      (!wordStart b || names.all fun name => !clash name.toList (c :: cs)) &&
      isLaidOut names plain (some c) cs

theorem layout_of_isLaidOut {plain : Char → Bool} (h : isLaidOut names plain b m) :
    Layout names (fun c => plain c) inner b m := by
  induction m generalizing b with
  | nil => exact .nil
  | cons c m ih =>
    simp only [isLaidOut, Bool.and_eq_true, Bool.or_eq_true, bne_iff_ne, ne_eq, List.all_eq_true,
      Bool.not_eq_true'] at h
    obtain ⟨⟨⟨⟨hplain, hopen⟩, hclose⟩, hquiet⟩, hrest⟩ := h
    refine .char hplain hopen hclose (fun hb => ?_) (ih hrest)
    rcases hquiet with hquiet | hquiet
    · rw [hb] at hquiet
      cases hquiet
    · exact hquiet

/-- No name starts like a character. -/
def isQuiet (names : List String) (c : Char) : Bool :=
  names.all fun name => !clash name.toList [c]

theorem clash_of_isQuiet {c : Char} (h : isQuiet names c) {name : String} (hname : name ∈ names)
    (rest : List Char) : clash name.toList (c :: rest) = false := by
  rw [isQuiet, List.all_eq_true] at h
  exact clash_append (a := [c]) (by simpa using h name hname) rest

theorem layout_of_quiet
    (h : ∀ c ∈ m, plain c ∧ c ≠ '(' ∧ c ≠ ')' ∧ isQuiet names c) :
    Layout names plain inner b m := by
  induction m generalizing b with
  | nil => exact .nil
  | cons c m ih =>
    obtain ⟨hplain, hopen, hclose, hquiet⟩ := h c List.mem_cons_self
    exact .char hplain hopen hclose (fun _ _ hname => clash_of_isQuiet hquiet hname m)
      (ih fun d hd => h d (List.mem_cons_of_mem c hd))

/-- White space is passed over when no name searched starts with it. -/
theorem layout_of_blank (hquiet : ∀ n ∈ blankCodes, isQuiet names (Char.ofNat n)) (h : ∀ c ∈ m, isBlank c) :
    Layout names (fun _ => True) inner b m := by
  refine layout_of_quiet fun c hc => ?_
  obtain ⟨hopen, hclose⟩ := ne_parenthesis_of_isBlank (h c hc)
  exact ⟨trivial, hopen, hclose, of_isBlank (P := fun c => isQuiet names c) hquiet (h c hc)⟩

/-! ## Unmasked texts -/

/-- A text with closed quotes and the layout of its masked form. -/
structure Laid (names : List String) (plain : Char → Prop) (inner : List Char → Prop)
    (cs : List Char) : Prop where
  closed : Closed cs
  layout : Layout names plain inner none (mask cs)

namespace Laid

theorem nil : Laid names plain inner [] := ⟨rfl, .nil⟩

theorem append {cs ds : List Char} (h : Laid names plain inner cs) (h' : Laid names plain inner ds) :
    Laid names plain inner (cs ++ ds) where
  closed := h.closed.append h'.closed
  layout := by
    rw [mask_append h.closed]
    exact h.layout.append_of_start h'.layout

theorem mono {names' : List String} {plain' : Char → Prop} {inner' : List Char → Prop}
    {cs : List Char} (h : Laid names plain inner cs) (hnames : names' ⊆ names)
    (hplain : ∀ c, plain c → plain' c) (hinner : ∀ body, inner body → inner' body) :
    Laid names' plain' inner' cs :=
  ⟨h.closed, h.layout.mono hnames hplain hinner⟩

theorem wellFormed {cs : List Char} (h : Laid names plain inner cs) : WellFormed cs :=
  ⟨h.closed, h.layout.balanced⟩

/-- A fixed text: `decide` checks it. -/
theorem of_fixed {cs : List Char} (hclosed : Closed cs) (h : isLaidOut names (fun _ => true) none (mask cs)) :
    Laid names (fun _ => True) inner cs :=
  ⟨hclosed, (layout_of_isLaidOut h).mono (List.Subset.refl _) (fun _ _ => trivial) fun _ => id⟩

theorem of_fixed_noComma {cs : List Char} (hclosed : Closed cs)
    (h : isLaidOut names (fun c => c != ',') none (mask cs)) : Laid names (fun c => c ≠ ',') inner cs :=
  ⟨hclosed, (layout_of_isLaidOut h).mono (List.Subset.refl _) (fun _ => bne_iff_ne.mp) fun _ => id⟩

theorem of_quiet {cs : List Char}
    (h : ∀ c ∈ cs, isQuote c = false ∧ plain c ∧ c ≠ '(' ∧ c ≠ ')' ∧ isQuiet names c) :
    Laid names plain inner cs := by
  have hq : ∀ c ∈ cs, isQuote c = false := fun c hc => (h c hc).1
  refine ⟨closed_of_no_quote hq, ?_⟩
  rw [mask_of_no_quote hq]
  exact layout_of_quiet fun c hc => (h c hc).2

theorem group {cs : List Char} (h : WellFormed cs) (hinner : inner (mask cs)) :
    Laid names plain inner ('(' :: (cs ++ [')'])) where
  closed := closed_group h.closed
  layout := by
    rw [mask_group h.closed]
    exact .group h.balanced hinner .nil

/-- A name in quotes is passed over when no name searched starts like its quote or its blanks. -/
theorem quote (hplain : plain '"' ∧ plain '_') (hquiet : isQuiet names '"' && isQuiet names '_')
    (name : String) : Laid names plain inner (quote name).toList where
  closed := closed_quote name
  layout := by
    rw [Bool.and_eq_true] at hquiet
    apply layout_of_quiet
    intro c hc
    rcases mem_mask_quote hc with rfl | rfl
    · exact ⟨hplain.1, by decide, by decide, hquiet.1⟩
    · exact ⟨hplain.2, by decide, by decide, hquiet.2⟩

end Laid

end MetricLayer.Sql
