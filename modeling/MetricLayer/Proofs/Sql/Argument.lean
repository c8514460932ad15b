import MetricLayer.Proofs.Sql.Call

/-!
# The argument of a call

`makeCall` reads what stands between the parentheses of a call: DISTINCT, parentheses and a cast around the argument
are taken off.  What is left of an argument that has none of them is the argument (`IsArgument`, `makeCall_argument`,
`makeCall_distinct`), and of no text is more left than there was (`length_argument_le`).
-/

namespace MetricLayer.Sql

open MetricLayer.Text

variable {cs : List Char}

/-! ## Casts -/

/-- The pattern of the end of what a cast is applied to. -/
def castStop? (p : Place) : Option Nat := do
  let rest ← afterBlank? p.rest
  let type ← letters? ['a', 's'] rest
  if isCastType type then some p.offset else none

/-- What a text is cut to before the last place that a type follows. -/
def castBody? (body : List Char) : Option (List Char) :=
  ((places body).filterMap castStop?).getLast?.map body.take

/-- The text between the parentheses of a cast, with the closing one. -/
def castOpened? (cs : List Char) : Option (List Char) :=
  match (letters? "cast".toList ((letters? "try_".toList cs).getD cs)).map (·.dropWhile isBlank) with
  | some ('(' :: body) => some body
  | _ => none

theorem castArgument?_eq_bind (cs : List Char) : castArgument? cs = (castOpened? cs).bind castBody? := by
  rw [castArgument?, castOpened?]
  cases letters? "cast".toList ((letters? "try_".toList cs).getD cs) with
  | none => rfl
  | some rest =>
    simp only [Option.bind_eq_bind, Option.bind_some, Option.map_some]
    cases rest.dropWhile isBlank with
    | nil => rfl
    | cons c body =>
      by_cases hc : c = '('
      · subst hc
        show (((places body).filterMap castStop?).getLast?.bind fun stop => some (body.take stop)) = castBody? body
        rw [castBody?, Option.map_eq_bind]
        rfl
      · simp [hc]

theorem isSuffix_of_castOpened? {body : List Char} (h : castOpened? cs = some body) : '(' :: body <:+ cs := by
  rw [castOpened?] at h
  split at h
  next read hread =>
    obtain ⟨rest, hcast, hopen⟩ := Option.map_eq_some_iff.mp hread
    cases h
    have hskip : (letters? "try_".toList cs).getD cs <:+ cs := by
      cases htry : letters? "try_".toList cs with
      | none => exact List.suffix_rfl
      | some after => exact isSuffix_of_letters? htry
    exact hopen ▸ ((List.dropWhile_suffix isBlank).trans (isSuffix_of_letters? hcast)).trans hskip
  next => cases h

/-- What a cast is applied to stands in the text, behind a parenthesis. -/
theorem exists_of_castArgument? {argument : List Char} (h : castArgument? cs = some argument) :
    ∃ pre post, cs = pre ++ '(' :: (argument ++ post) := by
  rw [castArgument?_eq_bind] at h
  obtain ⟨body, hopened, hbody⟩ := Option.bind_eq_some_iff.mp h
  obtain ⟨pre, rfl⟩ := isSuffix_of_castOpened? hopened
  obtain ⟨stop, -, rfl⟩ := Option.map_eq_some_iff.mp hbody
  exact ⟨pre, body.drop stop, by rw [List.take_append_drop]⟩

/-! ## How long an argument is -/

/-- An argument is no longer than the text behind DISTINCT. -/
theorem length_argument_le (w cs : List Char) :
    (makeCall w cs).argument.length ≤ ((afterDistinct? (trim cs)).getD (trim cs)).length := by
  show (((castArgument? (unwrap ((afterDistinct? (trim cs)).getD (trim cs)))).map unwrap).getD
    (unwrap ((afterDistinct? (trim cs)).getD (trim cs)))).length ≤ _
  generalize (afterDistinct? (trim cs)).getD (trim cs) = inner
  have hunwrap := length_unwrap_le inner
  cases hcast : castArgument? (unwrap inner) with
  | none => exact hunwrap
  | some argument =>
    obtain ⟨pre, post, htext⟩ := exists_of_castArgument? hcast
    have hlength := congrArg List.length htext
    have hargument := length_unwrap_le argument
    simp only [List.length_append, List.length_cons] at hlength
    show (unwrap argument).length ≤ _
    omega

/-! ## Arguments that are read as they stand -/

/-- What can be aggregated as it is: it does not stand in parentheses, and it is taken neither for DISTINCT nor for a
cast. -/
structure IsArgument (cs : List Char) : Prop where
  trimmed : Trimmed cs
  ne_nil : cs ≠ []
  noGroup : cs.head? ≠ some '('
  notDistinct : afterDistinct? cs = none
  notCast : castArgument? cs = none

theorem isArgument_quoted {rest : List Char} (h : Trimmed ('"' :: rest)) : IsArgument ('"' :: rest) := by
  have hletters (word : String) (hword : clash word.toList ['"'] = false) :
      letters? word.toList ('"' :: rest) = none :=
    letters?_eq_none_of_clash (a := ['"']) hword rest
  refine ⟨h, List.cons_ne_nil _ _, by simp, ?_, ?_⟩
  · rw [afterDistinct?, hletters "distinct" (by decide)]
    rfl
  · rw [castArgument?, hletters "try_" (by decide), Option.getD_none, hletters "cast" (by decide)]
    rfl

/-- A word can be aggregated as it is. -/
theorem IsWordName.isArgument (h : IsWordName cs) : IsArgument cs where
  trimmed := h.trimmed
  ne_nil := h.ne_nil
  noGroup := fun hhead => h.not_mem_parenthesis (List.mem_of_head? hhead)
  notDistinct := by
    rw [Option.eq_none_iff_forall_ne_some]
    intro found hfound
    obtain ⟨rest, hrest, hblank⟩ := Option.bind_eq_some_iff.mp hfound
    cases rest with
    | nil => cases hblank
    | cons d rest =>
      have hd := h.rest d ((isSuffix_of_letters? hrest).subset List.mem_cons_self)
      rw [afterBlank?, (plain_of_isNameRest hd).1] at hblank
      cases hblank
  notCast := by
    rw [Option.eq_none_iff_forall_ne_some]
    intro argument hargument
    obtain ⟨pre, post, hcs⟩ := exists_of_castArgument? hargument
    apply h.not_mem_parenthesis
    rw [hcs]
    simp

/-- What stands in parentheses is the argument of the call. -/
theorem makeCall_argument (w : List Char) (h : IsArgument cs) :
    (makeCall w cs).argument = cs ∧
      (makeCall w cs).kind = (functionKinds.lookup (String.ofList (lower w))).getD (String.ofList (lower w)) := by
  simp [makeCall, trim_eq_self h.trimmed, h.notDistinct, unwrap_eq_self h.trimmed h.noGroup, h.notCast]

/-! ## Distinct values -/

/-- DISTINCT is read off what is not white space only. -/
theorem afterDistinct?_distinct_append (h : trim cs ≠ []) :
    afterDistinct? (trim ("DISTINCT ".toList ++ cs)) = some (trim cs) := by
  obtain ⟨a, b, hcs, ha, hb⟩ := exists_trim cs
  have hbody : Trimmed ("DISTINCT ".toList ++ (a ++ trim cs)) := by
    refine ⟨?_, ?_⟩
    · rintro c hc
      cases hc
      rfl
    · rw [← List.append_assoc, List.getLast?_append_of_ne_nil _ h]
      exact (trimmed_trim cs).2
  have hread : letters? "distinct".toList "DISTINCT ".toList = some [' '] := rfl
  have hblank : (a ++ trim cs).dropWhile isBlank = trim cs := by
    rw [List.dropWhile_append_of_pos ha, dropWhile_eq_self (trimmed_trim cs).1]
  have hspace : isBlank ' ' = true := rfl
  have htrim : trim ("DISTINCT ".toList ++ cs) = "DISTINCT ".toList ++ (a ++ trim cs) := by
    conv_lhs => rw [hcs, ← List.append_assoc]
    rw [trim_append_blank _ hb, trim_eq_self hbody]
  rw [htrim, afterDistinct?, letters?_append hread, Option.bind_some, List.cons_append, List.nil_append, afterBlank?,
    if_pos hspace, hblank]

/-- DISTINCT is read off the argument and counted with the function. -/
theorem makeCall_distinct (h : IsArgument cs) :
    (makeCall "COUNT".toList ("DISTINCT ".toList ++ cs)).argument = cs ∧
      (makeCall "COUNT".toList ("DISTINCT ".toList ++ cs)).kind = "count_distinct" := by
  have hcs := trim_eq_self h.trimmed
  have hdistinct : afterDistinct? (trim ("DISTINCT ".toList ++ cs)) = some cs := by
    rw [afterDistinct?_distinct_append (hcs.symm ▸ h.ne_nil), hcs]
  have hname : String.ofList (lower "COUNT".toList) = "count" := by decide +kernel
  have hkind : (functionKinds.lookup "count").getD "count" = "count" := by decide
  simp only [makeCall, hdistinct, unwrap_eq_self h.trimmed h.noGroup, h.notCast, hname, hkind,
    Option.getD_some, Option.getD_none, Option.map_none, Option.isSome_some, and_self, if_true]

/-- A name whose distinct values are counted is read as itself exactly if it is without the call. -/
theorem identifier?_argument_distinct_iff {name : String} :
    identifier? (makeCall "COUNT".toList ("DISTINCT ".toList ++ name.toList)).argument = some name ↔
      identifier? name.toList = some name := by
  constructor
  · intro h
    by_cases hblank : trim name.toList = []
    · -- then DISTINCT itself is taken for the name
      obtain ⟨a, b, hname, ha, hb⟩ := exists_trim name.toList
      rw [hblank, List.append_nil] at hname
      have hcall : makeCall "COUNT".toList ("DISTINCT ".toList ++ name.toList) =
          makeCall "COUNT".toList "DISTINCT".toList := by
        have hall : ∀ c ∈ [' '] ++ name.toList, isBlank c := by
          rw [hname]
          simp only [List.forall_mem_append, List.forall_mem_singleton]
          exact ⟨rfl, ha, hb⟩
        have htext : "DISTINCT ".toList ++ name.toList = "DISTINCT".toList ++ ([' '] ++ name.toList) := rfl
        rw [makeCall, makeCall, htext, trim_append_blank _ hall]
      have hread : identifier? (makeCall "COUNT".toList "DISTINCT".toList).argument = some "DISTINCT" := by
        decide +kernel
      rw [hcall, hread] at h
      rw [← Option.some.inj h] at hblank
      exact absurd hblank (by decide +kernel)
    · have hlength := length_argument_le "COUNT".toList ("DISTINCT ".toList ++ name.toList)
      rw [afterDistinct?_distinct_append hblank, Option.getD_some] at hlength
      have hshort := hlength.trans (length_trim_le name.toList)
      rwa [(of_identifier?_eq_some h (String.length_toList ▸ hshort)).1] at h
  · intro h
    obtain ⟨hword, -⟩ := identifier?_eq_self_iff.mp h
    rw [(makeCall_distinct hword.isArgument).1, h]

end MetricLayer.Sql
