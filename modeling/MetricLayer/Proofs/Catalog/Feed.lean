import MetricLayer.Catalog.History

/-!
# Feeds that cannot be read

A feed is registered, rejected, or has a part that is converted without a check (`Feed.Spoils`): an ingest type
that is no text, members that are no list, infinite decimals, or an alias that is no text.  Only such a part
makes a registration fail with anything but a rejection, and a failure leaves the registry as it is
(`Registry.run_register_feed`).
-/

namespace MetricLayer

open MetricLayer.Text MetricLayer.Number

/-! ## JSON values -/

namespace Value

/-- A value as JSON has it; its integers can be written. -/
inductive IsJson : Value → Prop where
  | null : IsJson .null
  | bool (b : Bool) : IsJson (.bool b)
  | int {n : Int} (h : isWritable n) : IsJson (.int n)
  | float (x : Binary64) : IsJson (.float x)
  | text (s : String) : IsJson (.text s)
  | list {vs : List Value} (h : ∀ v ∈ vs, IsJson v) : IsJson (.list vs)
  | object {es : List (String × Value)} (h : ∀ e ∈ es, IsJson e.2) : IsJson (.object es)

/-- A truth value or a number. -/
def isScalar : Value → Bool
  | .bool _ => true
  | .int _ => true
  | .float _ => true
  | _ => false

/-- A list or a mapping. -/
def isContainer : Value → Bool
  | .list _ => true
  | .object _ => true
  | _ => false

theorem IsJson.of_present? {v w : Value} (h : v.IsJson) (hw : v.present? = some w) :
    w.IsJson ∧ (w.isText ∨ w.isScalar ∨ w.isContainer) := by
  rw [present?] at hw
  split at hw
  next htruth =>
    obtain rfl := Option.some.inj hw
    refine ⟨h, ?_⟩
    cases h with
    | null => cases htruth
    | bool | int | float => exact Or.inr (Or.inl rfl)
    | text => exact Or.inl rfl
    | list | object => exact Or.inr (Or.inr rfl)
  next => cases hw

theorem IsJson.infinite_of_toInteger {v : Value} (h : v.IsJson) (hv : v.toInteger = .error .infinite) :
    ∃ negative, v = .float (.infinite negative) := by
  cases h with
  | float x =>
    cases x with
    | infinite negative => exact ⟨negative, rfl⟩
    | nan | finite => cases hv
  | text s =>
    rw [toInteger] at hv
    cases hs : integer? s.toList with
    | none => rw [hs] at hv; cases hv
    | some n => rw [hs] at hv; cases hv
  | _ => cases hv

end Value

namespace Feed

/-- All values of entries are those of JSON. -/
def AllJson (es : List (String × Value)) : Prop :=
  ∀ e ∈ es, e.2.IsJson

/-- The entries of a mapping; anything else has none. -/
def entriesIn : Option Value → List (String × Value)
  | some (.object es) => es
  | _ => []

section json

variable {es : List (String × Value)} {key : String} {v : Value} {o : Option Value}

theorem AllJson.lookup (h : AllJson es) (hv : es.lookup key = some v) : v.IsJson := by
  induction es with
  | nil => cases hv
  | cons e es ih =>
    obtain ⟨k, w⟩ := e
    rw [List.lookup_cons] at hv
    split at hv
    · cases hv
      exact h _ List.mem_cons_self
    · exact ih (fun e he => h e (List.mem_cons_of_mem _ he)) hv

theorem AllJson.present? (h : AllJson es) (hv : present? es key = some v) :
    v.IsJson ∧ (v.isText ∨ v.isScalar ∨ v.isContainer) := by
  obtain ⟨w, hw, hpresent⟩ := Option.bind_eq_some_iff.mp hv
  exact (h.lookup hw).of_present? hpresent

theorem allJson_entriesIn (h : ∀ v ∈ o, v.IsJson) : AllJson (entriesIn o) := by
  cases o with
  | none => exact List.forall_mem_nil _
  | some v =>
    cases h v rfl with
    | object hes => exact hes
    | _ => exact List.forall_mem_nil _

theorem AllJson.entriesIn (h : AllJson es) (key : String) : AllJson (entriesIn (es.lookup key)) :=
  allJson_entriesIn fun _ hv => h.lookup hv

theorem allJson_of_isJson (h : v.IsJson) : AllJson (Feed.entriesIn v) :=
  allJson_entriesIn (by rintro _ ⟨⟩; exact h)

end json

/-! ## Readings -/

/-- A reading fails with a rejection or with one of the given faults, and succeeds only without them. -/
structure Reads {α : Type} (P : FeedFault → Prop) (x : Except FeedFault α) : Prop where
  error : ∀ f, x = .error f → (∃ e, f = .rejected e) ∨ P f
  ok : ∀ a, x = .ok a → ∀ f, ¬ P f

section reads

variable {α β : Type} {P Q : FeedFault → Prop} {x : Except FeedFault α}

theorem Reads.congr (h : Reads P x) (hPQ : ∀ f, P f ↔ Q f) : Reads Q x := by
  obtain rfl : P = Q := funext fun f => propext (hPQ f)
  exact h

theorem reads_ok_of_forall (h : ∀ f, ¬ P f) (a : α) : Reads P (.ok a) := by
  constructor
  · rintro f ⟨⟩
  · exact fun _ _ => h

theorem reads_ok (a : α) : Reads (fun _ => False) (.ok a) :=
  reads_ok_of_forall (fun _ => id) a

theorem reads_rejected (e : Rejection) : Reads P (.error (.rejected e) : Except FeedFault α) := by
  constructor
  · rintro f ⟨⟩
    exact Or.inl ⟨e, rfl⟩
  · rintro a ⟨⟩

theorem reads_reject (table problem : String) : Reads P (reject table problem : Except FeedFault α) :=
  reads_rejected _

theorem reads_error {f : FeedFault} (h : P f) : Reads P (.error f : Except FeedFault α) := by
  constructor
  · rintro g ⟨⟩
    exact Or.inr h
  · rintro a ⟨⟩

theorem Reads.bind (hx : Reads P x) {g : α → Except FeedFault β} (hg : ∀ a, x = .ok a → Reads Q (g a)) :
    Reads (fun f => P f ∨ Q f) (x >>= g) := by
  cases x with
  | error f =>
    constructor
    · rintro f' ⟨⟩
      exact (hx.error f rfl).imp_right Or.inl
    · rintro b ⟨⟩
  | ok a =>
    constructor
    · exact fun f hf => ((hg a rfl).error f hf).imp_right Or.inr
    · exact fun b hb f hf => hf.elim (hx.ok a rfl f) ((hg a rfl).ok b hb f)

/-- What comes behind a known result depends on it alone. -/
theorem Reads.bind_eq {a : α} (hx : Reads (fun _ => False) x) (hresult : ∀ b, x = .ok b → b = a)
    {g : α → Except FeedFault β} (h : Reads Q (g a)) : Reads Q (x >>= g) := by
  have hbind : Reads (fun f => False ∨ Q f) (x >>= g) := by
    refine hx.bind fun b hb => ?_
    rw [hresult b hb]
    exact h
  exact hbind.congr (by simp)

theorem exists_of_bind_eq_ok {g : α → Except FeedFault β} {b : β} (h : x >>= g = .ok b) :
    ∃ a, x = .ok a ∧ g a = .ok b := by
  cases x with
  | error => cases h
  | ok a => exact ⟨a, rfl, h⟩

theorem Reads.mapM {P : α → FeedFault → Prop} {g : α → Except FeedFault β} {as : List α}
    (h : ∀ a ∈ as, Reads (P a) (g a)) : Reads (fun f => ∃ a ∈ as, P a f) (as.mapM g) := by
  induction as with
  | nil => exact reads_ok_of_forall (by simp) []
  | cons a as ih =>
    obtain ⟨ha, has⟩ := List.forall_mem_cons.mp h
    rw [List.mapM_cons]
    have hrest (b : β) : Reads (fun f => ∃ a ∈ as, P a f) (as.mapM g >>= fun bs => pure (b :: bs)) :=
      ((ih has).bind fun bs _ => reads_ok (b :: bs)).congr (by simp)
    exact (ha.bind fun b _ => hrest b).congr (by simp)

/-- What a reading makes of each part is known by the part. -/
theorem map_eq_of_mapM_eq_ok {γ : Type} {g : α → Except FeedFault β} {k : β → γ} {k' : α → γ} {as : List α}
    {bs : List β} (hg : ∀ a ∈ as, ∀ b, g a = .ok b → k b = k' a) (h : as.mapM g = .ok bs) :
    bs.map k = as.map k' := by
  induction as generalizing bs with
  | nil => cases h; rfl
  | cons a as ih =>
    obtain ⟨ha, has⟩ := List.forall_mem_cons.mp hg
    rw [List.mapM_cons] at h
    cases hfirst : g a with
    | error => rw [hfirst] at h; cases h
    | ok b =>
      cases hrest : as.mapM g with
      | error => rw [hfirst, hrest] at h; cases h
      | ok cs =>
        rw [hfirst, hrest] at h
        cases h
        rw [List.map_cons, List.map_cons, ha b hfirst, ih has hrest]

end reads

/-! ## Parts that cannot be read -/

/-- A column that cannot be read: its ingest type is no text, or its members are a number or a truth value. -/
inductive SpoilsField (es : List (String × Value)) : FeedFault → Prop where
  | ingestType {v : Value} (hv : present? es "ingest_data_type" = some v) (htext : v.isText = false) :
      SpoilsField es (.ingestTypeNotText v.kindName)
  | members {v : Value} (hv : present? es "members" = some v) (hscalar : v.isScalar) :
      SpoilsField es (.membersNotListed v.kindName)

/-- Decimals that cannot be read: they are infinite. -/
inductive SpoilsDecimals (es : List (String × Value)) : FeedFault → Prop where
  | infinite {negative : Bool} (hv : es.lookup "decimals" = some (.float (.infinite negative))) :
      SpoilsDecimals es .decimalsInfinite

/-- An alias that cannot be one: it is no key, or no text. -/
inductive SpoilsAlias (v : Value) : FeedFault → Prop where
  | container (h : v.isContainer) : SpoilsAlias v (.aliasNotAKey v.kindName)
  | scalar (h : v.isScalar) : SpoilsAlias v (.aliasNotText v.kindName)

/-- The aggregations that a measure lists. -/
def aggregationsIn (m : Value) : List Value :=
  match present? (entriesIn m) "aggregations" with
  | some (.list vs) => vs
  | _ => []

/-- The formulas that a measure names. -/
def formulasIn (m : Value) : List (String × Value) :=
  entriesIn (present? (entriesIn m) "formula")

/-- The details of an aggregation. -/
def detailsIn : Value → List (String × Value)
  | .object [(_, details)] => entriesIn details
  | _ => []

/-- The alias of an aggregation, or the one it has for want of another. -/
def aggregationName (source : String) : Value → Value
  | .object [(function, details)] => (alias? (entriesIn details) "alias").getD (.text (function ++ "_" ++ source))
  | _ => .text ""

/-- The aliases of a measure. -/
def measureNames (m : String × Value) : List Value :=
  (aggregationsIn m.2).map (aggregationName m.1) ++ (formulasIn m.2).map fun f => .text f.1

/-- The entries of a measure that may have decimals. -/
def measureDetails (m : Value) : List (List (String × Value)) :=
  (aggregationsIn m).map detailsIn ++ (formulasIn m).map fun f => entriesIn f.2

/-- All aliases of a feed. -/
def aliases (es : List (String × Value)) : List Value :=
  (entriesIn (es.lookup "dimensions")).map (fun d => (dimension d.1 (entriesIn d.2)).1) ++
    (entriesIn (es.lookup "measures")).flatMap measureNames

/-- A part of a feed that keeps it from being read, with the fault that it makes. -/
inductive Spoils (es : List (String × Value)) : FeedFault → Prop where
  | field {e : String × Value} {f : FeedFault} (he : e ∈ entriesIn (es.lookup "fields"))
      (hf : SpoilsField (entriesIn e.2) f) : Spoils es f
  | decimals {m : String × Value} {details : List (String × Value)} {f : FeedFault}
      (hm : m ∈ entriesIn (es.lookup "measures")) (hdetails : details ∈ measureDetails m.2)
      (hf : SpoilsDecimals details f) : Spoils es f
  | alias {v : Value} {f : FeedFault} (hv : v ∈ aliases es) (hf : SpoilsAlias v f) : Spoils es f

/-! ## Columns -/

section parts

variable {table source name owner aliasName what : String} {es : List (String × Value)} {v : Value}
  {o : Option Value}

theorem reads_entriesOf : Reads (fun _ => False) (entriesOf table what o) := by
  rw [entriesOf.eq_def]
  split
  · exact reads_ok _
  · exact reads_ok _
  · exact reads_ok _
  · exact reads_reject _ _

theorem eq_of_entriesOf_eq_ok (h : entriesOf table what o = .ok es) : es = entriesIn o := by
  rw [entriesOf.eq_def] at h
  split at h
  · cases h; rfl
  · cases h; rfl
  · cases h; rfl
  · cases h

theorem reads_ingestType :
    Reads (fun f => ∃ v, present? es "ingest_data_type" = some v ∧ v.isText = false ∧
      f = .ingestTypeNotText v.kindName) (ingestType es) := by
  rw [ingestType]
  split
  next hnone => exact reads_ok_of_forall (by simp [hnone]) _
  next s hs => exact reads_ok_of_forall (by simp [hs, Value.isText]) _
  next v htext hv =>
    have hno : v.isText = false := by
      cases v with
      | text s => exact absurd rfl (htext s)
      | _ => rfl
    exact reads_error ⟨v, hv, hno, rfl⟩

theorem reads_members? (hes : AllJson es) :
    Reads (fun f => ∃ v, present? es "members" = some v ∧ v.isScalar ∧ f = .membersNotListed v.kindName)
      (members? es) := by
  rw [members?]
  split
  next hnone => exact reads_ok_of_forall (by simp [hnone]) _
  next vs hv => exact reads_ok_of_forall (by simp [hv, Value.isScalar]) _
  next s hv => exact reads_ok_of_forall (by simp [hv, Value.isScalar]) _
  next ms hv => exact reads_ok_of_forall (by simp [hv, Value.isScalar]) _
  next bs hv => cases (hes.present? hv).1
  next v hlist htext hobject hbytes hv =>
    have hscalar : v.isScalar := by
      have hkind := (hes.present? hv).2
      cases v with
      | bool | int | float => rfl
      | text s => exact absurd rfl (htext s)
      | list vs => exact absurd rfl (hlist vs)
      | object ms => exact absurd rfl (hobject ms)
      | bytes bs => exact absurd rfl (hbytes bs)
      | _ => simp [Value.isText, Value.isScalar, Value.isContainer] at hkind
    exact reads_error ⟨v, hv, hscalar, rfl⟩

theorem reads_field (hes : AllJson es) : Reads (SpoilsField es) (field name es) := by
  rw [field]
  refine (reads_ingestType.bind fun ingest _ => (reads_members? hes).bind fun members _ => reads_ok _).congr
    fun f => ?_
  constructor
  · rintro (⟨v, hv, htext, rfl⟩ | ⟨v, hv, hscalar, rfl⟩ | hfalse)
    · exact .ingestType hv htext
    · exact .members hv hscalar
    · exact hfalse.elim
  · rintro (⟨hv, htext⟩ | ⟨hv, hscalar⟩)
    · exact Or.inl ⟨_, hv, htext, rfl⟩
    · exact Or.inr (Or.inl ⟨_, hv, hscalar, rfl⟩)

/-! ## Measures -/

theorem reads_decimals (hes : AllJson es) : Reads (SpoilsDecimals es) (decimals table owner es) := by
  have hjson : ((es.lookup "decimals").getD (.int 0)).IsJson := by
    cases hv : es.lookup "decimals" with
    | none => exact .int (by decide +kernel)
    | some v => exact hes.lookup hv
  have hspoils (f : FeedFault) : SpoilsDecimals es f ↔
      (∃ negative, (es.lookup "decimals").getD (.int 0) = .float (.infinite negative)) ∧ f = .decimalsInfinite := by
    constructor
    · rintro ⟨hv⟩
      exact ⟨⟨_, by rw [hv]; rfl⟩, rfl⟩
    · rintro ⟨⟨negative, hv⟩, rfl⟩
      cases hlookup : es.lookup "decimals" with
      | none => rw [hlookup] at hv; cases hv
      | some v => exact .infinite (hlookup.trans (by rw [hlookup] at hv; exact congrArg some hv))
  rw [decimals]
  generalize (es.lookup "decimals").getD (.int 0) = v at hjson hspoils
  cases hinteger : v.toInteger with
  | ok n =>
    refine reads_ok_of_forall (fun f hf => ?_) n
    obtain ⟨⟨negative, rfl⟩, -⟩ := (hspoils f).mp hf
    cases hinteger
  | error fault =>
    cases fault with
    | infinite =>
      obtain ⟨negative, rfl⟩ := hjson.infinite_of_toInteger hinteger
      exact reads_error ((hspoils _).mpr ⟨⟨negative, rfl⟩, rfl⟩)
    | notANumber => exact reads_reject _ _
    | unreadable => exact reads_reject _ _

theorem allJson_detailsIn (hv : v.IsJson) : AllJson (detailsIn v) := by
  rw [detailsIn.eq_def]
  split
  next function details => exact allJson_of_isJson (allJson_of_isJson hv _ List.mem_cons_self)
  next => exact List.forall_mem_nil _

theorem reads_aggregation (hv : v.IsJson) : Reads (SpoilsDecimals (detailsIn v)) (aggregation table source v) := by
  rw [aggregation.eq_def]
  split
  next function details =>
    exact reads_entriesOf.bind_eq (fun _ => eq_of_entriesOf_eq_ok)
      (((reads_decimals (allJson_detailsIn hv)).bind fun _ _ => reads_ok _).congr (by simp [detailsIn]))
  next => exact reads_reject _ _

theorem aggregationName_eq {named : Value × Aggregation} (h : aggregation table source v = .ok named) :
    named.1 = aggregationName source v := by
  rw [aggregation.eq_def] at h
  split at h
  next function details =>
    obtain ⟨es, hes, h⟩ := exists_of_bind_eq_ok h
    obtain ⟨n, -, h⟩ := exists_of_bind_eq_ok h
    cases h
    rw [eq_of_entriesOf_eq_ok hes]
    rfl
  next => cases h

theorem reads_formula (hv : v.IsJson) :
    Reads (SpoilsDecimals (entriesIn v)) (formula table source aliasName v) := by
  rw [formula.eq_def]
  split
  next es =>
    split
    · exact reads_reject _ _
    · exact ((reads_decimals (allJson_of_isJson hv)).bind fun _ _ => reads_ok _).congr (by simp [entriesIn])
  next => exact reads_reject _ _

theorem formula_aliasName_eq {f : Formula} (h : formula table source aliasName v = .ok f) :
    f.aliasName = aliasName := by
  rw [formula.eq_def] at h
  split at h
  next es =>
    split at h
    · cases h
    · obtain ⟨n, -, h⟩ := exists_of_bind_eq_ok h
      cases h
      rfl
  next => cases h

theorem reads_listed : Reads (fun _ => False) (listed table source es) := by
  rw [listed]
  split
  · exact reads_ok _
  · exact reads_ok _
  · exact reads_reject _ _

theorem reads_formulas : Reads (fun _ => False) (formulas table source es) := by
  rw [formulas]
  split
  · exact reads_ok _
  · exact reads_ok _
  · exact reads_reject _ _

theorem eq_of_listed_eq_ok {vs : List Value} (h : listed table source (entriesIn v) = .ok vs) :
    vs = aggregationsIn v := by
  rw [listed] at h
  rw [aggregationsIn]
  split at h
  next hnone => cases h; rw [hnone]
  next hsome => cases h; rw [hsome]
  next => cases h

theorem eq_of_formulas_eq_ok {fs : List (String × Value)} (h : formulas table source (entriesIn v) = .ok fs) :
    fs = formulasIn v := by
  rw [formulas] at h
  rw [formulasIn]
  split at h
  next hnone => cases h; rw [hnone]; rfl
  next hsome => cases h; rw [hsome]; rfl
  next => cases h

theorem isJson_of_mem_aggregationsIn (hv : v.IsJson) : ∀ w ∈ aggregationsIn v, w.IsJson := by
  rw [aggregationsIn]
  split
  next vs hvs =>
    cases ((allJson_of_isJson hv).present? hvs).1 with
    | list h => exact h
  next => exact List.forall_mem_nil _

theorem reads_measure (hv : v.IsJson) :
    Reads (fun f => ∃ details ∈ measureDetails v, SpoilsDecimals details f) (measure table source v) := by
  have hformulas : AllJson (formulasIn v) :=
    allJson_entriesIn fun w hw => ((allJson_of_isJson hv).present? hw).1
  have hreads : ∀ e ∈ formulasIn v, Reads (SpoilsDecimals (entriesIn e.2)) (formula table source e.1 e.2) :=
    fun e he => reads_formula (hformulas e he)
  rw [measure]
  refine reads_entriesOf.bind_eq (fun _ => eq_of_entriesOf_eq_ok) (reads_listed.bind_eq
    (fun _ => eq_of_listed_eq_ok) (reads_formulas.bind_eq (fun _ => eq_of_formulas_eq_ok) ?_))
  refine ((Reads.mapM fun w hw => reads_aggregation (isJson_of_mem_aggregationsIn hv w hw)).bind fun as _ =>
    (Reads.mapM hreads).bind fun fs _ => reads_ok _).congr fun f => ?_
  constructor
  · rintro (⟨w, hw, hf⟩ | ⟨e, he, hf⟩ | hfalse)
    · exact ⟨_, List.mem_append_left _ (List.mem_map_of_mem hw), hf⟩
    · exact ⟨_, List.mem_append_right _ (List.mem_map_of_mem he), hf⟩
    · exact hfalse.elim
  · rintro ⟨details, hdetails, hf⟩
    rcases List.mem_append.mp hdetails with h | h
    · obtain ⟨w, hw, rfl⟩ := List.mem_map.mp h
      exact Or.inl ⟨w, hw, hf⟩
    · obtain ⟨e, he, rfl⟩ := List.mem_map.mp h
      exact Or.inr (Or.inl ⟨e, he, hf⟩)

/-- A measure has the aliases that are written in it, or that it has for want of others. -/
theorem measureNames_eq {read : Measure × List (Value × Entry)} (h : measure table source v = .ok read) :
    read.2.map (·.1) = measureNames (source, v) := by
  rw [measure] at h
  obtain ⟨es, hes, h⟩ := exists_of_bind_eq_ok h
  obtain rfl := eq_of_entriesOf_eq_ok hes
  obtain ⟨vs, hvs, h⟩ := exists_of_bind_eq_ok h
  obtain rfl := eq_of_listed_eq_ok hvs
  obtain ⟨fs, hfs, h⟩ := exists_of_bind_eq_ok h
  obtain rfl := eq_of_formulas_eq_ok hfs
  obtain ⟨as, has, h⟩ := exists_of_bind_eq_ok h
  obtain ⟨gs, hgs, h⟩ := exists_of_bind_eq_ok h
  cases h
  have haggregations : as.map (·.1) = (aggregationsIn v).map (aggregationName source) :=
    map_eq_of_mapM_eq_ok (fun w _ named hnamed => aggregationName_eq hnamed) has
  have hformulas : gs.map (fun f => Value.text f.aliasName) = (formulasIn v).map fun f => Value.text f.1 :=
    map_eq_of_mapM_eq_ok (fun e _ f hf => congrArg Value.text (formula_aliasName_eq hf)) hgs
  rw [measureNames, ← haggregations, ← hformulas, List.map_append, List.map_map, List.map_map]
  rfl

/-! ## Feeds -/

/-- An alias that is given, or the one for want of another, is a JSON value and not null. -/
theorem isJson_getD_alias? {key default : String} (hes : AllJson es)
    (hv : (alias? es key).getD (.text default) = v) :
    v.IsJson ∧ (v.isText ∨ v.isScalar ∨ v.isContainer) := by
  cases halias : alias? es key with
  | none =>
    rw [halias] at hv
    exact hv ▸ ⟨.text default, Or.inl rfl⟩
  | some w =>
    rw [halias, Option.getD_some] at hv
    obtain ⟨u, hu, rfl⟩ := Option.map_eq_some_iff.mp halias
    have hjson := hes.present? hu
    split at hv
    next => cases hjson.1
    next => exact hv ▸ hjson

/-- All aliases of a JSON feed are JSON values and not null. -/
theorem isJson_of_mem_aliases (hes : AllJson es) (hv : v ∈ aliases es) :
    v.IsJson ∧ (v.isText ∨ v.isScalar ∨ v.isContainer) := by
  rcases List.mem_append.mp hv with hv | hv
  · obtain ⟨d, hd, hv⟩ := List.mem_map.mp hv
    exact isJson_getD_alias? (allJson_of_isJson (hes.entriesIn "dimensions" d hd)) hv
  · obtain ⟨m, hm, hv⟩ := List.mem_flatMap.mp hv
    rcases List.mem_append.mp hv with hv | hv
    · obtain ⟨w, hw, hv⟩ := List.mem_map.mp hv
      rw [aggregationName.eq_def] at hv
      split at hv
      next function details =>
        have hobject := isJson_of_mem_aggregationsIn (hes.entriesIn "measures" m hm) _ hw
        exact isJson_getD_alias? (allJson_detailsIn hobject) hv
      next => exact hv ▸ ⟨.text "", Or.inl rfl⟩
    · obtain ⟨f, -, rfl⟩ := List.mem_map.mp hv
      exact ⟨.text f.1, Or.inl rfl⟩

theorem isKey_eq_of_isJson (hv : v.IsJson) : v.isKey = !v.isContainer := by
  cases hv <;> rfl

/-- Aliases that are no keys are told by the first of them. -/
theorem reads_keys {α : Type} {names : List Value} (hnames : ∀ v ∈ names, v.IsJson) (a : α) :
    Reads (fun f => ∃ v ∈ names, v.isContainer ∧ f = .aliasNotAKey v.kindName)
      (match names.find? fun v => !v.isKey with
        | some v => throw (.aliasNotAKey v.kindName)
        | none => return a : Except FeedFault α) := by
  have hkey : ∀ v ∈ names, (!v.isKey) = v.isContainer := by
    intro v hv
    rw [isKey_eq_of_isJson (hnames v hv), Bool.not_not]
  split
  next v hv =>
    have hmem := List.mem_of_find?_eq_some hv
    have hfound := List.find?_some hv
    rw [hkey v hmem] at hfound
    exact reads_error ⟨v, hmem, hfound, rfl⟩
  next hnone =>
    refine reads_ok_of_forall ?_ a
    rintro f ⟨v, hv, hcontainer, -⟩
    have hno := List.find?_eq_none.mp hnone v hv
    rw [hkey v hv] at hno
    exact hno hcontainer

theorem eq_dimensions {dims : List (Value × Dimension)}
    (h : ((entriesIn (es.lookup "dimensions")).mapM fun e =>
      do return dimension e.1 (← entriesOf table ("Dimension '" ++ e.1 ++ "'") e.2)) = .ok dims) :
    dims = (entriesIn (es.lookup "dimensions")).map fun e => dimension e.1 (entriesIn e.2) := by
  rw [← List.map_id dims]
  refine map_eq_of_mapM_eq_ok (fun e _ d hd => ?_) h
  obtain ⟨ds, hds, hd⟩ := exists_of_bind_eq_ok hd
  obtain rfl := eq_of_entriesOf_eq_ok hds
  exact (Except.ok.inj hd).symm

theorem aliases_eq {ms : List (Measure × List (Value × Entry))}
    (h : ((entriesIn (es.lookup "measures")).mapM fun m => measure table m.1 m.2) = .ok ms) :
    ((entriesIn (es.lookup "dimensions")).map fun e => dimension e.1 (entriesIn e.2)).map (·.1) ++
      (ms.flatMap (·.2)).map (·.1) = aliases es := by
  have hnames : ms.map (fun read => read.2.map (·.1)) = (entriesIn (es.lookup "measures")).map measureNames :=
    map_eq_of_mapM_eq_ok (fun e _ read hread => measureNames_eq hread) h
  rw [aliases, List.map_map, List.map_flatMap, List.flatMap_def, List.flatMap_def, hnames]
  rfl

theorem reads_catalog (hes : AllJson es) :
    Reads (fun f => (∃ e ∈ entriesIn (es.lookup "fields"), SpoilsField (entriesIn e.2) f) ∨
      (∃ m ∈ entriesIn (es.lookup "measures"), ∃ details ∈ measureDetails m.2, SpoilsDecimals details f) ∨
      ∃ v ∈ aliases es, v.isContainer ∧ f = .aliasNotAKey v.kindName) (catalog table es) := by
  have hfields : ∀ e ∈ entriesIn (es.lookup "fields"), Reads (SpoilsField (entriesIn e.2))
      (do field e.1 (← entriesOf table ("Field '" ++ e.1 ++ "'") e.2)) := fun e he =>
    reads_entriesOf.bind_eq (fun _ => eq_of_entriesOf_eq_ok)
      (reads_field (allJson_of_isJson (hes.entriesIn "fields" e he)))
  have hdimensions : Reads (fun _ => False) ((entriesIn (es.lookup "dimensions")).mapM fun e =>
      do return dimension e.1 (← entriesOf table ("Dimension '" ++ e.1 ++ "'") e.2)) := by
    refine (Reads.mapM (P := fun _ _ => False) fun e _ => ?_).congr (by simp)
    exact reads_entriesOf.bind_eq (fun _ => eq_of_entriesOf_eq_ok) (reads_ok _)
  have hmeasures : ∀ e ∈ entriesIn (es.lookup "measures"),
      Reads (fun f => ∃ details ∈ measureDetails e.2, SpoilsDecimals details f) (measure table e.1 e.2) :=
    fun e he => reads_measure (hes.entriesIn "measures" e he)
  rw [catalog]
  refine reads_entriesOf.bind_eq (fun _ => eq_of_entriesOf_eq_ok) ((Reads.mapM hfields).bind fun fields _ =>
    reads_entriesOf.bind_eq (fun _ => eq_of_entriesOf_eq_ok) (hdimensions.bind_eq (fun _ => eq_dimensions)
      (reads_entriesOf.bind_eq (fun _ => eq_of_entriesOf_eq_ok) ((Reads.mapM hmeasures).bind fun ms hms => ?_))))
  dsimp only
  rw [aliases_eq hms]
  exact reads_keys (fun v hv => (isJson_of_mem_aliases hes hv).1) _

/-- A catalog that is read has the aliases of its feed, each once. -/
theorem aliases_of_catalog_eq_ok {l : LooseCatalog} (h : catalog table es = .ok l) :
    ∃ (dims : List (Value × Value)) (entries : List (Value × String)),
      l.dimensions = firstByKey dims ∧ l.measures = firstByKey entries ∧
        dims.map (·.1) ++ entries.map (·.1) = aliases es := by
  rw [catalog] at h
  obtain ⟨_, -, h⟩ := exists_of_bind_eq_ok h
  obtain ⟨_, -, h⟩ := exists_of_bind_eq_ok h
  obtain ⟨_, hds, h⟩ := exists_of_bind_eq_ok h
  obtain rfl := eq_of_entriesOf_eq_ok hds
  obtain ⟨_, hdims, h⟩ := exists_of_bind_eq_ok h
  obtain rfl := eq_dimensions hdims
  obtain ⟨_, hms, h⟩ := exists_of_bind_eq_ok h
  obtain rfl := eq_of_entriesOf_eq_ok hms
  obtain ⟨ms, hms, h⟩ := exists_of_bind_eq_ok h
  dsimp only at h
  split at h
  next => cases h
  next =>
    cases h
    refine ⟨_, _, rfl, rfl, ?_⟩
    rw [← aliases_eq hms]
    simp only [List.map_map]
    rfl

end parts

/-! ## Aliases that are texts -/

section texts

variable {α : Type} {es : List (Value × α)}

theorem isText_of_sameKey {v w : Value} (h : v.sameKey w) (hv : v.isText) : w.isText := by
  cases v with
  | text s =>
    have hnone : (Value.text s).numeric? = none := rfl
    unfold Value.sameKey at h
    rw [hnone] at h
    cases hw : w.numeric? with
    | some => rw [hw] at h; cases h
    | none =>
      rw [hw] at h
      cases w with
      | text => rfl
      | _ => cases h
  | _ => cases hv

theorem mem_of_mem_firstByKey {e : Value × α} (h : e ∈ firstByKey es) : e ∈ es := by
  induction es with
  | nil => exact h
  | cons d es ih =>
    rw [firstByKey] at h
    rcases List.mem_cons.mp h with rfl | h
    · exact List.mem_cons_self
    · exact List.mem_cons_of_mem d (ih (List.mem_filter.mp h).1)

/-- An alias that is no text is not left out for one that is. -/
theorem isText_of_firstByKey (h : ∀ e ∈ firstByKey es, e.1.isText) : ∀ e ∈ es, e.1.isText := by
  induction es with
  | nil => exact h
  | cons d es ih =>
    rw [firstByKey] at h
    obtain ⟨hd, hes⟩ := List.forall_mem_cons.mp h
    refine List.forall_mem_cons.mpr ⟨hd, ih fun e he => ?_⟩
    cases hsame : sameAlias d e with
    | true => exact isText_of_sameKey hsame hd
    | false => exact hes e (List.mem_filter.mpr ⟨he, by rw [hsame]; rfl⟩)

/-- The aliases of first entries are texts just when all are. -/
theorem map_firstByKey_isText : (∀ v ∈ (firstByKey es).map (·.1), v.isText) ↔ ∀ v ∈ es.map (·.1), v.isText := by
  simp only [List.forall_mem_map]
  exact ⟨isText_of_firstByKey, fun h e he => h e (mem_of_mem_firstByKey he)⟩

end texts

theorem foreignKind?_eq_none_iff {v : Value} : foreignKind? v = none ↔ v.isText := by
  rw [foreignKind?]
  split
  next h => exact iff_of_true rfl h
  next h => exact iff_of_false nofun h

theorem of_foreignKind?_eq_some {v : Value} {kind : String} (h : foreignKind? v = some kind) :
    v.isText = false ∧ kind = v.kindName := by
  rw [foreignKind?] at h
  split at h
  next => cases h
  next htext => exact ⟨(Bool.not_eq_true _).mp htext, (Option.some.inj h).symm⟩

/-- A catalog that is read tells the kind of an alias that is no text, if there is one. -/
theorem foreign_of_catalog_eq_ok {table : String} {es : List (String × Value)} {l : LooseCatalog}
    (h : catalog table es = .ok l) :
    (∀ kind, l.foreignKind? = some kind → ∃ v ∈ aliases es, v.isText = false ∧ kind = v.kindName) ∧
      (l.foreignKind? = none → ∀ v ∈ aliases es, v.isText) := by
  obtain ⟨dims, entries, hdims, hentries, haliases⟩ := aliases_of_catalog_eq_ok h
  rw [← haliases, LooseCatalog.foreignKind?, hdims, hentries]
  constructor
  · intro kind hkind
    obtain ⟨v, hv, hforeign⟩ := List.exists_of_findSome?_eq_some hkind
    refine ⟨v, ?_, of_foreignKind?_eq_some hforeign⟩
    have hfirst {α : Type} {es : List (Value × α)} (hv : v ∈ (firstByKey es).map (·.1)) : v ∈ es.map (·.1) := by
      obtain ⟨e, he, rfl⟩ := List.mem_map.mp hv
      exact List.mem_map_of_mem (mem_of_mem_firstByKey he)
    exact List.mem_append.mpr ((List.mem_append.mp hv).imp hfirst hfirst)
  · intro hnone
    have htexts := fun v hv => foreignKind?_eq_none_iff.mp (List.findSome?_eq_none_iff.mp hnone v hv)
    rw [List.forall_mem_append] at htexts ⊢
    exact ⟨map_firstByKey_isText.mp htexts.1, map_firstByKey_isText.mp htexts.2⟩

/-! ## Registration -/

theorem spoils_iff {es : List (String × Value)} {f : FeedFault} : Spoils es f ↔
    ((∃ e ∈ entriesIn (es.lookup "fields"), SpoilsField (entriesIn e.2) f) ∨
      (∃ m ∈ entriesIn (es.lookup "measures"), ∃ details ∈ measureDetails m.2, SpoilsDecimals details f) ∨
      ∃ v ∈ aliases es, v.isContainer ∧ f = .aliasNotAKey v.kindName) ∨
    ∃ v ∈ aliases es, v.isScalar ∧ f = .aliasNotText v.kindName := by
  constructor
  · rintro (⟨he, hf⟩ | ⟨hm, hdetails, hf⟩ | ⟨hv, hf⟩)
    · exact Or.inl (Or.inl ⟨_, he, hf⟩)
    · exact Or.inl (Or.inr (Or.inl ⟨_, hm, _, hdetails, hf⟩))
    · cases hf with
      | container h => exact Or.inl (Or.inr (Or.inr ⟨_, hv, h, rfl⟩))
      | scalar h => exact Or.inr ⟨_, hv, h, rfl⟩
  · rintro ((⟨e, he, hf⟩ | ⟨m, hm, details, hdetails, hf⟩ | ⟨v, hv, h, rfl⟩) | ⟨v, hv, h, rfl⟩)
    · exact .field he hf
    · exact .decimals hm hdetails hf
    · exact .alias hv (.container h)
    · exact .alias hv (.scalar h)

/-- A catalog that is read is refused for an alias that is no text, and for nothing else. -/
theorem reads_foreign {table : String} {es : List (String × Value)} {l : LooseCatalog} (hes : AllJson es)
    (hl : catalog table es = .ok l) {x : Except FeedFault Catalog}
    (hsome : ∀ kind, l.foreignKind? = some kind → x = .error (.aliasNotText kind))
    (hnone : l.foreignKind? = none → x = .ok l.catalog) :
    Reads (fun f => ∃ v ∈ aliases es, v.isScalar ∧ f = .aliasNotText v.kindName) x := by
  obtain ⟨hforeign, htexts⟩ := foreign_of_catalog_eq_ok hl
  cases hkind : l.foreignKind? with
  | some kind =>
    obtain ⟨v, hv, htext, rfl⟩ := hforeign kind hkind
    have hscalar : v.isScalar := by
      rcases (isJson_of_mem_aliases hes hv).2 with h | h | h
      · rw [htext] at h
        cases h
      · exact h
      · exact absurd (Or.inr (Or.inr ⟨v, hv, h, rfl⟩)) ((reads_catalog hes).ok l hl _)
    rw [hsome _ hkind]
    exact reads_error ⟨v, hv, hscalar, rfl⟩
  | none =>
    rw [hnone hkind]
    refine reads_ok_of_forall ?_ _
    rintro f ⟨v, hv, hscalar, -⟩
    have htext := htexts hkind v hv
    cases v with
    | text => cases hscalar
    | _ => cases htext

theorem reads_ofFeed {es : List (String × Value)} (hes : AllJson es) :
    Reads (Spoils es) (Catalog.ofFeed (.object es)) := by
  rw [Catalog.ofFeed, LooseCatalog.ofFeed.eq_def]
  dsimp only
  split
  next => exact reads_reject _ _
  next table _ =>
    split
    next =>
      refine ((reads_catalog hes).bind fun l hl => reads_foreign hes hl ?_ ?_).congr fun f => spoils_iff.symm
      · intro kind hkind
        rw [hkind]
      · intro hnone
        rw [hnone]
    next => exact reads_reject _ _

theorem reads_accept (r : Registry) {es : List (String × Value)} (hes : AllJson es) :
    Reads (Spoils es) (r.accept (.feed (.object es))) := by
  have hregister (c : Catalog) : Reads (fun _ => False) ((r.register c).mapError FeedFault.rejected) := by
    cases r.register c with
    | error e => exact reads_rejected e
    | ok s => exact reads_ok s
  rw [Registry.accept]
  exact ((reads_ofFeed hes).bind fun c _ => (hregister c).bind fun s _ => reads_ok _).congr (by simp)

end Feed

namespace Registry

/-- **A feed of JSON values is registered, or rejected, or it has a part that cannot be read.**  Whatever
fails leaves the registry as it is, and with such a part nothing is registered. -/
theorem run_register_feed (r : Registry) {es : List (String × Value)} (hjson : (Value.object es).IsJson) :
    ((∃ c s, (Step.register (.feed (.object es))).run r = (.ok (.registered c), s)) ∨
      (∃ e, (Step.register (.feed (.object es))).run r = (.error (.refused (.rejected e)), r)) ∨
      ∃ f, Feed.Spoils es f ∧ (Step.register (.feed (.object es))).run r = (.error (.refused f), r)) ∧
    ((∃ f, Feed.Spoils es f) →
      ∀ c s, (Step.register (.feed (.object es))).run r ≠ (.ok (.registered c), s)) := by
  have hreads := Feed.reads_accept r (Feed.allJson_of_isJson hjson)
  rw [Step.run]
  cases haccept : r.accept (.feed (.object es)) with
  | ok found =>
    refine ⟨Or.inl ⟨found.1, found.2, rfl⟩, ?_⟩
    rintro ⟨f, hf⟩
    exact absurd hf (hreads.ok found haccept f)
  | error f =>
    refine ⟨Or.inr ?_, fun _ c s hregistered => by cases hregistered⟩
    rcases hreads.error f haccept with ⟨e, rfl⟩ | hf
    · exact Or.inl ⟨e, rfl⟩
    · exact Or.inr ⟨f, hf, rfl⟩

/-- A feed with infinite decimals. -/
def infiniteFeed : List (String × Value) :=
  [("table", .text "t"), ("fields", .object [("amount", .object [])]),
    ("measures", .object [("amount", .object [("aggregations",
      .list [.object [("sum", .object [("decimals", .float (.infinite false))])]])])])]

theorem isJson_infiniteFeed : (Value.object infiniteFeed).IsJson := by
  have hone {key : String} {v : Value} (hv : v.IsJson) : (Value.object [(key, v)]).IsJson :=
    .object (List.forall_mem_singleton.mpr hv)
  have hmeasures : (Value.list [.object [("sum", .object [("decimals", .float (.infinite false))])]]).IsJson :=
    .list (List.forall_mem_singleton.mpr (hone (hone (.float _))))
  exact .object (List.forall_mem_cons.mpr ⟨.text "t", List.forall_mem_cons.mpr
    ⟨hone (.object (List.forall_mem_nil _)), List.forall_mem_singleton.mpr (hone (hone hmeasures))⟩⟩)

theorem spoils_infiniteFeed : Feed.Spoils infiniteFeed .decimalsInfinite := by
  have hdecimals : Feed.SpoilsDecimals [("decimals", .float (.infinite false))] .decimalsInfinite := .infinite rfl
  refine .decimals (m := ("amount", .object [("aggregations",
    .list [.object [("sum", .object [("decimals", .float (.infinite false))])]])])) ?_ ?_ hdecimals
  · exact List.mem_singleton.mpr rfl
  · exact List.mem_singleton.mpr rfl

theorem run_register_feed_infiniteFeed :
    (Value.object infiniteFeed).IsJson ∧ (∃ f, Feed.Spoils infiniteFeed f) ∧
      ∀ c s, (Step.register (.feed (.object infiniteFeed))).run {} ≠ (.ok (.registered c), s) :=
  ⟨isJson_infiniteFeed, ⟨_, spoils_infiniteFeed⟩,
    (run_register_feed {} isJson_infiniteFeed).2 ⟨_, spoils_infiniteFeed⟩⟩

/-- Infinite decimals are no rejection. -/
theorem not_run_register_feed : ¬ ∀ (r : Registry) (es : List (String × Value)), (Value.object es).IsJson →
    (∃ c s, (Step.register (.feed (.object es))).run r = (.ok (.registered c), s)) ∨
      ∃ e, (Step.register (.feed (.object es))).run r = (.error (.refused (.rejected e)), r) := by
  intro hall
  have hrun : (Step.register (.feed (.object infiniteFeed))).run {} = (.error (.refused .decimalsInfinite), {}) :=
    rfl
  rcases hall {} infiniteFeed isJson_infiniteFeed with ⟨c, s, h⟩ | ⟨e, h⟩
  · rw [hrun] at h
    cases h
  · rw [hrun] at h
    cases h

end Registry

end MetricLayer
