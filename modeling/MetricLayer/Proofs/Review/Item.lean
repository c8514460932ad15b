import MetricLayer.Proofs.Review.Foreign
import MetricLayer.Proofs.Selection.Items

/-!
# The review of items

What a selection writes for a dimension (`itemFindings_dimensionSql`) and for an entry
(`itemFindings_entrySql`) has no findings under its own alias.  Columns are known; an aggregation is the
one that its alias declares; and an alias of a dimension or a formula declares no aggregation, so only
the columns that their raw SQL aggregates are looked at.
-/

namespace MetricLayer.Review

open MetricLayer.Text MetricLayer.Sql

variable {c : Catalog}

/-! ## References -/

/-- What is no identifier, or one of a column, has no finding. -/
theorem referenceFinding?_eq_none {cs : List Char} (h : ∀ name ∈ identifier? cs, c.isField name) :
    referenceFinding? c cs = none := by
  rw [referenceFinding?]
  split
  · rfl
  · cases hname : identifier? cs with
    | none => rfl
    | some name =>
      rw [Option.bind_some, nameFinding?, if_pos (h name hname)]

theorem referenceFinding?_columnRef {column : String} (h : c.isField column) :
    referenceFinding? c (columnRef c.table column).toList = none := by
  apply referenceFinding?_eq_none
  intro name hname
  rw [identifier?_columnRef c.table column name hname]
  exact h

/-! ## Items in general -/

/-- An alias that declares no aggregation cannot declare another one. -/
theorem wrongAggregation?_eq_none {name : String} (h : ∀ a, c.entry? name ≠ some (.aggregation a))
    (calls : List AggregateCall) : wrongAggregation? c name calls = none := by
  rw [wrongAggregation?]
  split
  next a ha => exact absurd ha (h a)
  next => rfl

theorem itemFindings_of_singleCall? {cs : List Char} {name : String} {call : AggregateCall}
    (hcall : singleCall? cs = some call) (hargument : referenceFinding? c call.argument = none)
    (hname : ∀ a, c.entry? name = some (.aggregation a) → call.kind = a.function) :
    itemFindings c cs (some name) = [] := by
  have hwrong : wrongAggregation? c name [call] = none := by
    rw [wrongAggregation?]
    split
    next a ha =>
      rw [List.find?_cons_of_neg (by simp [hname a ha])]
      rfl
    next => rfl
  rw [itemFindings, hcall]
  split
  · rfl
  · show (referenceFinding? c call.argument).toList ++ (wrongAggregation? c name [call]).toList = []
    rw [hargument, hwrong]
    rfl

theorem itemFindings_of_not_aggregation {cs : List Char} {name : String} (hclosed : Closed cs)
    (hname : ∀ a, c.entry? name ≠ some (.aggregation a))
    (hreference : referenceFinding? c cs = none)
    (hcalls : ∀ call ∈ embeddedCalls cs, referenceFinding? c call.argument = none) :
    itemFindings c cs (some name) = [] := by
  cases hcall : singleCall? cs with
  | some call =>
    exact itemFindings_of_singleCall? hcall
      (hcalls call (mem_embeddedCalls_of_singleCall? hclosed hcall)) fun a ha => absurd ha (hname a)
  | none =>
    have harguments : (embeddedCalls cs).filterMap (fun call => referenceFinding? c call.argument) =
        [] := List.filterMap_eq_nil_iff.mpr hcalls
    rw [itemFindings, hcall]
    show (if hasCase cs || isStar (trim cs) then []
      else if (identifier? cs).isSome || isLiteral (trim cs) then (referenceFinding? c cs).toList
      else _ ++ (wrongAggregation? c name (embeddedCalls cs)).toList) = []
    rw [hreference, harguments, wrongAggregation?_eq_none hname]
    split_ifs <;> rfl

theorem embeddedCalls_eq_nil {cs : List Char} (h : NoCall (mask cs)) : embeddedCalls cs = [] := by
  rw [List.eq_nil_iff_forall_not_mem]
  intro call hcall
  obtain ⟨pre, w, gap, rest, k, hat, -⟩ := mem_embeddedCalls_iff.mp hcall
  obtain ⟨name, hname, hw⟩ := hat.named
  exact h ⟨pre, w, gap, rest,
    ⟨hat.text, hat.start, ⟨name, List.mem_append_left _ hname, hw⟩, hat.blank⟩, trivial⟩

/-! ## Items of a selection -/

/-- The columns that raw SQL aggregates are known. -/
def AggregatesColumns (c : Catalog) (sql : String) : Prop :=
  ∀ call ∈ embeddedCalls sql.toList, referenceFinding? c call.argument = none

instance (c : Catalog) (sql : String) : Decidable (AggregatesColumns c sql) :=
  inferInstanceAs (Decidable (∀ call ∈ embeddedCalls sql.toList, _))

/-- Raw SQL in which a review finds nothing. -/
structure Faultless (c : Catalog) (sql : String) : Prop where
  wellFormed : WellFormed sql.toList
  notForeign : ∀ f ∈ foreignFunctions, f.isCalled (mask sql.toList) = false
  columns : AggregatesColumns c sql

theorem itemFindings_group {sql name : String} (hsql : WellFormed sql.toList)
    (hcalls : AggregatesColumns c sql) (hname : ∀ a, c.entry? name ≠ some (.aggregation a)) :
    itemFindings c ("(" ++ sql ++ ")").toList (some name) = [] := by
  have htext : ("(" ++ sql ++ ")").toList = '(' :: (sql.toList ++ [')']) := by
    simp
  rw [htext]
  apply itemFindings_of_not_aggregation (closed_group hsql.closed) hname
  · apply referenceFinding?_eq_none
    have hidentifier : identifier? ('(' :: (sql.toList ++ [')'])) = none :=
      identifier?_application (w := []) nofun (trimmed_group _)
    rw [hidentifier]
    exact nofun
  · intro call hcall
    exact hcalls call (mem_embeddedCalls_iff.mpr ((mem_embeddedCalls_iff.mp hcall).of_group hsql))

theorem itemFindings_callfree {cs : List Char} {name : String} (h : Callfree cs)
    (hname : ∀ a, c.entry? name ≠ some (.aggregation a))
    (hreference : referenceFinding? c cs = none) : itemFindings c cs (some name) = [] := by
  apply itemFindings_of_not_aggregation h.wellFormed.closed hname hreference
  rw [embeddedCalls_eq_nil h.noCall]
  exact nofun

theorem itemFindings_dimensionSql (haccepted : c.Accepted) {d : Dimension} (hd : d ∈ c.dimensions)
    (hsql : ∀ t ∈ d.transformation, WellFormed t.display.toList ∧ AggregatesColumns c t.display) :
    itemFindings c (c.dimensionSql d).toList (some d.aliasName) = [] := by
  have hname : ∀ a, c.entry? d.aliasName ≠ some (.aggregation a) := by
    intro a ha
    rw [haccepted.entry?_dimension hd] at ha
    cases ha
  have hcolumn := callless_columnRef c.table d.source
  rw [Catalog.dimensionSql]
  cases ht : d.transformation with
  | some t => exact itemFindings_group (hsql t ht).1 (hsql t ht).2 hname
  | none =>
    show itemFindings c (if c.isTextDate d.source then temporalCast (columnRef c.table d.source)
      else columnRef c.table d.source).toList _ = []
    split
    · have htitle : Callless "COALESCE".toList := .of_fixed rfl rfl
      rw [toList_temporalCast]
      have hcast := htitle.append (Callless.group (callless_temporalContent hcolumn))
      apply itemFindings_callfree (Callless.callfree hcast) hname
      apply referenceFinding?_eq_none
      rw [identifier?_application (w := "COALESCE".toList) (by decide)
        (trimmed_application (by decide) (by decide))]
      intro n hn
      cases hn
    · exact itemFindings_callfree hcolumn.callfree hname
        (referenceFinding?_columnRef (haccepted.isField_dimension hd ht))

theorem itemFindings_entrySql (haccepted : c.Accepted) {e : Entry} (he : e ∈ c.entries)
    (hsql : ∀ f, e = .formula f → WellFormed f.sql.toList ∧ AggregatesColumns c f.sql) :
    ∀ expression, c.entrySql e = .ok expression →
      itemFindings c expression.toList (some e.aliasName) = [] := by
  have hentry := haccepted.entry?_aliasName he
  intro expression hexpression
  cases e with
  | formula f =>
    cases hexpression
    apply itemFindings_group (hsql f rfl).1 (hsql f rfl).2
    intro a
    show c.entry? (Entry.formula f).aliasName ≠ _
    rw [hentry]
    exact nofun
  | aggregation a =>
    obtain ⟨w, body, hwritten⟩ := haccepted.exists_written he
    obtain rfl := Except.ok.inj (hwritten.sql.symm.trans hexpression)
    rw [String.toList_ofList]
    apply itemFindings_of_singleCall?
      (singleCall?_call (exists_aggregateName hwritten.function) hwritten.callfree.wellFormed)
    · rcases hwritten.argument with hrows | ⟨hfield, hcolumn⟩
      · rw [hrows]
        rfl
      · rw [hcolumn]
        exact referenceFinding?_columnRef hfield
    · intro b hb
      obtain rfl : a = b := Entry.aggregation.inj (Option.some.inj (hentry.symm.trans hb))
      exact hwritten.kind

end MetricLayer.Review
