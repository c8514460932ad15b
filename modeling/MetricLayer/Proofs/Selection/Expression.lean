import MetricLayer.Proofs.Sql.Call
import MetricLayer.Proofs.Sql.Statement
import MetricLayer.Selection.Compile

/-!
# The expressions of items

What a selection writes around names is passed over by every search: a column (`laid_dotted`), a
column read as a timestamp and a function applied to a column (`laid_application`).  The text inside
their parentheses calls none of the functions that are searched (`NoCall`).
-/

namespace MetricLayer

open MetricLayer.Text MetricLayer.Sql

/-! ## Texts without calls -/

/-- The functions that are searched in statements. -/
def calledNames : List String :=
  aggregateNames ++ ["curdate", "now"]

/-- A masked text calls none of these functions. -/
def NoCall (m : List Char) : Prop :=
  ¬ Calls calledNames (fun _ => True) none m

theorem areKeys_calledNames : AreKeys calledNames := by decide

/-- Text with a layout in which no function name stands, outside groups or inside them. -/
abbrev Callless (cs : List Char) : Prop :=
  Laid calledNames (fun _ => True) NoCall cs

theorem Callless.noCall {cs : List Char} (h : Callless cs) : NoCall (mask cs) :=
  h.layout.not_calls areKeys_calledNames fun _ _ _ hbody pre w gap rest hcall _ =>
    hbody ⟨pre, w, gap, rest, hcall, trivial⟩

theorem NoCall.hasCall_eq_false {m : List Char} (h : NoCall m) : hasCall m = false := by
  rw [← Bool.not_eq_true, hasCall_iff]
  rintro ⟨pre, w, gap, rest, hcall, -⟩
  obtain ⟨name, hname, hw⟩ := hcall.named
  exact h ⟨pre, w, gap, rest,
    ⟨hcall.text, hcall.start, ⟨name, List.mem_append_left _ hname, hw⟩, hcall.blank⟩, trivial⟩

/-- Text with closed quotes and parentheses in which none of these functions is called. -/
structure Callfree (cs : List Char) : Prop where
  wellFormed : WellFormed cs
  noCall : NoCall (mask cs)

theorem Callless.callfree {cs : List Char} (h : Callless cs) : Callfree cs :=
  ⟨h.wellFormed, h.noCall⟩

theorem Callless.group {cs : List Char} (h : Callless cs) : Callless ('(' :: (cs ++ [')'])) :=
  Laid.group h.wellFormed h.noCall

/-! ## Columns -/

/-- Names joined by points are passed over when nothing that is searched starts with their quotes,
blanks or points. -/
theorem laid_dotted {names : List String} {plain : Char → Prop} {inner : List Char → Prop}
    (hplain : plain '"' ∧ plain '_' ∧ plain '.')
    (hquiet : isQuiet names '"' && isQuiet names '_' && isQuiet names '.') (parts : List String) :
    Laid names plain inner (dotted parts) := by
  rw [Bool.and_eq_true] at hquiet
  have hname (name : String) : Laid names plain inner (quote name).toList :=
    .quote ⟨hplain.1, hplain.2.1⟩ hquiet.1 name
  have hpoint : Laid names plain inner ['.'] := by
    refine .of_quiet fun c hc => ?_
    rw [List.mem_singleton] at hc
    subst hc
    exact ⟨rfl, hplain.2.2, by decide, by decide, hquiet.2⟩
  apply hpoint.intercalate
  intro p hp
  obtain ⟨name, -, rfl⟩ := List.mem_map.mp hp
  exact hname name

theorem callless_columnRef (table column : String) : Callless (columnRef table column).toList := by
  rw [toList_columnRef]
  exact laid_dotted ⟨trivial, trivial, trivial⟩ (by decide) _

/-! ## Columns read as timestamps -/

/-- The ways to read an expression as a timestamp. -/
def temporalReadings (expression : String) : List String :=
  (["TIMESTAMP", "DATE"].map fun type => "TRY_CAST(" ++ expression ++ " AS " ++ type ++ ")") ++
    dateNotations.map fun written =>
      "try_strptime(CAST(" ++ expression ++ " AS VARCHAR), '" ++ written ++ "')"

theorem temporalCast_eq (expression : String) :
    temporalCast expression =
      "COALESCE(" ++ joinWith ", " (temporalReadings expression) ++ ")" := rfl

/-- A reading is a cast to a type, or the column parsed as a text in a notation. -/
theorem of_mem_temporalReadings {expression r : String} (hr : r ∈ temporalReadings expression) :
    (∃ type ∈ ["TIMESTAMP", "DATE"], r.toList =
      "TRY_CAST".toList ++ '(' :: ((expression.toList ++ (" AS " ++ type).toList) ++ [')'])) ∨
      ∃ written ∈ dateNotations, r.toList = "try_strptime".toList ++ '(' :: (("CAST".toList ++
        '(' :: ((expression.toList ++ " AS VARCHAR".toList) ++ [')']) ++
          (", '" ++ written ++ "'").toList) ++ [')']) := by
  rcases List.mem_append.mp hr with hr | hr
  · obtain ⟨type, htype, rfl⟩ := List.mem_map.mp hr
    exact Or.inl ⟨type, htype, by simp⟩
  · obtain ⟨written, hmem, rfl⟩ := List.mem_map.mp hr
    exact Or.inr ⟨written, hmem, by simp⟩

theorem callless_temporalReadings {expression : String} (h : Callless expression.toList) :
    ∀ r ∈ temporalReadings expression, Callless r.toList := by
  have hnative : ∀ type ∈ ["TIMESTAMP", "DATE"], Callless (" AS " ++ type).toList := by
    intro type htype
    refine .of_fixed ?_ ?_ <;> revert type <;> decide
  have hwritten : ∀ written ∈ dateNotations, Callless (", '" ++ written ++ "'").toList := by
    intro written hmem
    refine .of_fixed ?_ ?_ <;> revert written <;> decide
  have htry : Callless "TRY_CAST".toList := .of_fixed rfl rfl
  have hparse : Callless "try_strptime".toList := .of_fixed rfl rfl
  have hcast : Callless "CAST".toList := .of_fixed rfl rfl
  have hvarchar : Callless " AS VARCHAR".toList := .of_fixed rfl rfl
  intro r hr
  rcases of_mem_temporalReadings hr with ⟨type, htype, htext⟩ | ⟨written, hmem, htext⟩
  · rw [htext]
    exact htry.append (Callless.group (h.append (hnative type htype)))
  · rw [htext]
    exact hparse.append (Callless.group
      ((hcast.append (Callless.group (h.append hvarchar))).append (hwritten written hmem)))

theorem callless_temporalContent {expression : String} (h : Callless expression.toList) :
    Callless (joinWith ", " (temporalReadings expression)).toList := by
  have hcomma : Callless ", ".toList := .of_fixed rfl rfl
  rw [toList_joinWith]
  apply hcomma.intercalate
  intro p hp
  obtain ⟨r, hr, rfl⟩ := List.mem_map.mp hp
  exact callless_temporalReadings h r hr

/-! ## Functions applied to a text -/

theorem laid_application {names : List String} {plain : Char → Prop} {inner : List Char → Prop}
    {w body : List Char} (hw : Laid names plain inner w) (hbody : WellFormed body)
    (hinner : inner (mask body)) : Laid names plain inner (w ++ '(' :: (body ++ [')'])) :=
  hw.append (.group hbody hinner)

end MetricLayer
