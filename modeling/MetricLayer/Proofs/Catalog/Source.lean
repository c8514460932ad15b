import Mathlib.Data.List.Nodup
import MetricLayer.Catalog.Draft
import MetricLayer.Proofs.Catalog.Feed

/-!
# Entries and the measures that declare them

A catalog that is read from a feed or drafted has at most one measure of each source, and every entry of a
measure is declared on the source of the measure (`Catalog.Built.sourced`).  So the source of an entry tells
the measure that has it (`Catalog.Sourced.mem_entries`).
-/

namespace MetricLayer

/-- A value in whose mappings no key is repeated. -/
inductive Value.HasDistinctKeys : Value → Prop where
  | atom {v : Value} (h : v.isContainer = false) : HasDistinctKeys v
  | list {vs : List Value} (h : ∀ v ∈ vs, HasDistinctKeys v) : HasDistinctKeys (.list vs)
  | object {es : List (String × Value)} (hkeys : (es.map Prod.fst).Nodup) (h : ∀ e ∈ es, HasDistinctKeys e.2) :
    HasDistinctKeys (.object es)

@[simp]
theorem Value.hasDistinctKeys_text (s : String) : (Value.text s).HasDistinctKeys :=
  .atom rfl

@[simp]
theorem Value.hasDistinctKeys_list {vs : List Value} :
    (Value.list vs).HasDistinctKeys ↔ ∀ v ∈ vs, v.HasDistinctKeys := by
  constructor
  · rintro (h | h | _)
    · cases h
    · exact h
  · exact .list

@[simp]
theorem Value.hasDistinctKeys_object {es : List (String × Value)} :
    (Value.object es).HasDistinctKeys ↔ (es.map Prod.fst).Nodup ∧ ∀ e ∈ es, e.2.HasDistinctKeys := by
  constructor
  · rintro (h | _ | ⟨hkeys, h⟩)
    · cases h
    · exact ⟨hkeys, h⟩
  · exact fun ⟨hkeys, h⟩ => .object hkeys h

namespace Catalog

/-- A catalog that is read from a feed or drafted from columns. -/
inductive Built : Catalog → Prop where
  | feed {feed : Value} {c : Catalog} (hkeys : feed.HasDistinctKeys) (h : ofFeed feed = .ok c) : Built c
  | draft (table : String) (columns : List (String × String)) (description : String) :
    Built (draft table columns description)

/-- Measures own their entries, and no two have one source. -/
structure Sourced (c : Catalog) : Prop where
  own : ∀ m ∈ c.measures, ∀ e ∈ m.entries, e.source = m.source
  distinct : (c.measures.map Measure.source).Nodup

/-- The source of an entry tells its measure. -/
theorem Sourced.mem_entries {c : Catalog} (h : c.Sourced) {m : Measure} {e : Entry} (hm : m ∈ c.measures)
    (he : e ∈ c.entries) (hsource : e.source = m.source) : e ∈ m.entries := by
  obtain ⟨other, hother, he⟩ := List.mem_flatMap.mp he
  have heq : other.source = m.source := (h.own other hother e he).symm.trans hsource
  rwa [← List.inj_on_of_nodup_map h.distinct hother hm heq]

theorem Sourced.of_measures_eq_nil {c : Catalog} (h : c.measures = []) : c.Sourced := by
  constructor
  · rw [h]
    exact List.forall_mem_nil _
  · rw [h]
    exact List.nodup_nil

end Catalog

/-! ## Feeds -/

namespace Feed

variable {table source aliasName : String} {v : Value} {es : List (String × Value)}

theorem source_aggregation {named : Value × Aggregation} (h : aggregation table source v = .ok named) :
    named.2.source = source := by
  rw [aggregation.eq_def] at h
  split at h
  next =>
    obtain ⟨es, -, h⟩ := exists_of_bind_eq_ok h
    obtain ⟨n, -, h⟩ := exists_of_bind_eq_ok h
    cases h
    rfl
  next => cases h

theorem source_formula {f : Formula} (h : formula table source aliasName v = .ok f) : f.source = source := by
  rw [formula.eq_def] at h
  split at h
  next =>
    split at h
    · cases h
    · obtain ⟨n, -, h⟩ := exists_of_bind_eq_ok h
      cases h
      rfl
  next => cases h

/-- What holds of every part that is read holds of all parts. -/
theorem forall_of_mapM_eq_ok {α β : Type} {P : β → Prop} {g : α → Except FeedFault β} {as : List α} {bs : List β}
    (hg : ∀ a ∈ as, ∀ b, g a = .ok b → P b) (h : as.mapM g = .ok bs) : ∀ b ∈ bs, P b := by
  have hmap : bs.map P = as.map fun _ => True :=
    map_eq_of_mapM_eq_ok (fun a ha b hb => eq_true (hg a ha b hb)) h
  intro b hb
  have hmem : P b ∈ bs.map P := List.mem_map_of_mem hb
  rw [hmap] at hmem
  obtain ⟨a, -, heq⟩ := List.mem_map.mp hmem
  exact heq ▸ trivial

/-- A measure that is read has the source it is written under, and so have its entries. -/
theorem source_measure {read : Measure × List (Value × Entry)} (h : measure table source v = .ok read) :
    read.1.source = source ∧ ∀ e ∈ read.1.entries, e.source = source := by
  rw [measure] at h
  obtain ⟨es, -, h⟩ := exists_of_bind_eq_ok h
  obtain ⟨vs, -, h⟩ := exists_of_bind_eq_ok h
  obtain ⟨fs, -, h⟩ := exists_of_bind_eq_ok h
  obtain ⟨aggregations, haggregations, h⟩ := exists_of_bind_eq_ok h
  obtain ⟨formulas, hformulas, h⟩ := exists_of_bind_eq_ok h
  cases h
  refine ⟨rfl, fun e he => ?_⟩
  rcases List.mem_append.mp he with he | he
  · obtain ⟨a, ha, rfl⟩ := List.mem_map.mp he
    obtain ⟨named, hnamed, rfl⟩ := List.mem_map.mp ha
    exact forall_of_mapM_eq_ok (fun _ _ _ => source_aggregation) haggregations named (List.mem_of_mem_filter hnamed)
  · obtain ⟨f, hf, rfl⟩ := List.mem_map.mp he
    exact forall_of_mapM_eq_ok (fun _ _ _ => source_formula) hformulas f hf

/-- The measures of a feed have the keys they are written under for sources. -/
theorem measures_catalog {l : LooseCatalog} (h : catalog table es = .ok l) :
    l.catalog.measures.map Measure.source = (entriesIn (es.lookup "measures")).map Prod.fst ∧
      ∀ m ∈ l.catalog.measures, ∀ e ∈ m.entries, e.source = m.source := by
  rw [catalog] at h
  obtain ⟨_, -, h⟩ := exists_of_bind_eq_ok h
  obtain ⟨_, -, h⟩ := exists_of_bind_eq_ok h
  obtain ⟨_, -, h⟩ := exists_of_bind_eq_ok h
  obtain ⟨_, -, h⟩ := exists_of_bind_eq_ok h
  obtain ⟨written, hwritten, h⟩ := exists_of_bind_eq_ok h
  obtain rfl := eq_of_entriesOf_eq_ok hwritten
  obtain ⟨read, hread, h⟩ := exists_of_bind_eq_ok h
  have hsources : read.map (fun r => r.1.source) = (entriesIn (es.lookup "measures")).map Prod.fst :=
    map_eq_of_mapM_eq_ok (fun _ _ _ hr => (source_measure hr).1) hread
  have hown : ∀ r ∈ read, ∀ e ∈ r.1.entries, e.source = r.1.source := by
    refine forall_of_mapM_eq_ok (fun _ _ r hr e he => ?_) hread
    rw [(source_measure hr).1, (source_measure hr).2 e he]
  dsimp only at h
  split at h
  next => cases h
  next =>
    cases h
    rw [List.map_map, List.forall_mem_map]
    exact ⟨hsources, hown⟩

theorem exists_of_ofFeed_eq_ok {feed : Value} {l : LooseCatalog} (h : LooseCatalog.ofFeed feed = .ok l) :
    ∃ table es, feed = .object es ∧ catalog table es = .ok l := by
  rw [LooseCatalog.ofFeed.eq_def] at h
  split at h
  next es =>
    dsimp only at h
    split at h
    · cases h
    · split_ifs at h
      · exact ⟨_, es, rfl, h⟩
      · cases h
  next => cases h

/-- The entries of a part of a feed have distinct keys. -/
theorem nodup_entriesIn {key : String} (h : (Value.object es).HasDistinctKeys) :
    ((entriesIn (es.lookup key)).map Prod.fst).Nodup := by
  rw [Value.hasDistinctKeys_object] at h
  cases hv : es.lookup key with
  | none => exact List.nodup_nil
  | some v =>
    obtain ⟨before, after, rfl, -⟩ := List.lookup_eq_some_iff.mp hv
    have hvalue : v.HasDistinctKeys := h.2 _ (List.mem_append_right before List.mem_cons_self)
    cases v with
    | object => exact (Value.hasDistinctKeys_object.mp hvalue).1
    | _ => exact List.nodup_nil

end Feed

/-! ## Drafts -/

namespace Draft

theorem mem_of_mem_upsert {α : Type} {key : α → String} {a b : α} {bs : List α} (h : b ∈ upsert key a bs) :
    b = a ∨ b ∈ bs := by
  induction bs with
  | nil => exact Or.inl (List.mem_singleton.mp h)
  | cons d bs ih =>
    rw [upsert] at h
    split at h
    · exact (List.mem_cons.mp h).imp_right (List.mem_cons_of_mem d)
    · rcases List.mem_cons.mp h with rfl | h
      · exact Or.inr List.mem_cons_self
      · exact (ih h).imp_right (List.mem_cons_of_mem d)

theorem mem_upsert {α : Type} (key : α → String) (a : α) (bs : List α) : a ∈ upsert key a bs := by
  induction bs with
  | nil => exact List.mem_singleton_self a
  | cons b bs ih =>
    rw [upsert]
    split
    · exact List.mem_cons_self
    · exact List.mem_cons_of_mem b ih

theorem nodup_upsert {α : Type} {key : α → String} {a : α} {bs : List α} (h : (bs.map key).Nodup) :
    ((upsert key a bs).map key).Nodup := by
  induction bs with
  | nil => exact List.nodup_singleton _
  | cons b bs ih =>
    rw [List.map_cons, List.nodup_cons] at h
    rw [upsert]
    split
    next hkey =>
      rw [List.map_cons, ← hkey, List.nodup_cons]
      exact h
    next hkey =>
      rw [List.map_cons, List.nodup_cons]
      refine ⟨fun hmem => ?_, ih h.2⟩
      obtain ⟨d, hd, heq⟩ := List.mem_map.mp hmem
      rcases mem_of_mem_upsert hd with rfl | hd
      · exact hkey heq.symm
      · exact h.1 (heq ▸ List.mem_map_of_mem hd)

theorem source_numericAggregations {f : Field} {a : Aggregation} (h : a ∈ numericAggregations f) :
    a.source = f.name := by
  rw [numericAggregations] at h
  simp only [List.mem_cons, List.not_mem_nil, or_false] at h
  rcases h with rfl | rfl | rfl | rfl | rfl
  case inr.inr.inr.inr => rfl
  all_goals split <;> rfl

/-- What is measured on a column has the column for its source. -/
theorem source_measure? {f : Field} {m : Measure} (h : measure? f = some m) :
    ∀ e ∈ m.entries, e.source = m.source := by
  rw [measure?] at h
  split_ifs at h
  · cases h
    intro e he
    rcases List.mem_append.mp he with he | he
    · obtain ⟨a, ha, rfl⟩ := List.mem_map.mp he
      exact source_numericAggregations ha
    · rw [List.map_singleton, List.mem_singleton] at he
      rw [he]
      rfl
  · cases h
    intro e he
    rw [Measure.entries, List.map_nil, List.nil_append, List.map_singleton, List.mem_singleton] at he
    rw [he]
    rfl

theorem sourced_upsert {c : Catalog} {m : Measure} (h : c.Sourced) (hm : ∀ e ∈ m.entries, e.source = m.source) :
    { c with measures := upsert Measure.source m c.measures }.Sourced := by
  constructor
  · intro n hn
    rcases mem_of_mem_upsert hn with rfl | hn
    · exact hm
    · exact h.own n hn
  · exact nodup_upsert h.distinct

theorem sourced_addColumn {c : Catalog} (h : c.Sourced) (column : String × String) :
    (addColumn c column).Sourced := by
  rw [addColumn]
  cases hm : measure? (profile column.1 column.2) with
  | none => exact ⟨h.own, h.distinct⟩
  | some m =>
    have hupsert := sourced_upsert h (source_measure? hm)
    exact ⟨hupsert.own, hupsert.distinct⟩

theorem sourced_foldl {c : Catalog} (h : c.Sourced) (columns : List (String × String)) :
    (columns.foldl addColumn c).Sourced := by
  induction columns generalizing c with
  | nil => exact h
  | cons column columns ih => exact ih (sourced_addColumn h column)

end Draft

/-- **A catalog that is read from a feed or drafted owns its entries, and no two measures have one source.** -/
theorem Catalog.Built.sourced {c : Catalog} (h : c.Built) : c.Sourced := by
  cases h with
  | feed hkeys h =>
    obtain ⟨l, hread, h⟩ := Feed.exists_of_bind_eq_ok h
    have hcatalog : l.catalog = c := by
      split at h
      · cases h
      · exact Except.ok.inj h
    obtain ⟨table, es, rfl, hl⟩ := Feed.exists_of_ofFeed_eq_ok hread
    obtain ⟨hsources, hown⟩ := Feed.measures_catalog hl
    rw [hcatalog] at hsources hown
    exact ⟨hown, hsources ▸ Feed.nodup_entriesIn hkeys⟩
  | draft table columns description =>
    refine Draft.sourced_upsert (Draft.sourced_foldl (Sourced.of_measures_eq_nil rfl) columns) fun e he => ?_
    rw [Measure.entries, Draft.rowCount, List.map_nil, List.append_nil, List.map_singleton, List.mem_singleton] at he
    rw [he]
    rfl

end MetricLayer
