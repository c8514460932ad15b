import Mathlib.Data.List.Induction
import MetricLayer.Catalog.History
import MetricLayer.Proofs.Value.Entry

/-!
# What a registry holds

Of all the catalogs that calls have registered, a registry holds the last one of each table, with its place
among them as its version (`Registry.lawful_after`).  The invariant is `Registry.Records`; one call keeps it
(`Registry.Records.step`), and so do any calls in turn (`Registry.Records.after`).
-/

namespace MetricLayer

namespace Registry

/-! ## The last catalog of a table -/

variable {cs : List Catalog} {c : Catalog} {table : String} {g : Registration} {r : Registry}

/-- The last of the catalogs that is for the table, with its place among them. -/
def LastFor (cs : List Catalog) (table : String) (g : Registration) : Prop :=
  ∃ before later, cs = before ++ g.catalog :: later ∧ g.catalog.table = table ∧
    (∀ c ∈ later, c.table ≠ table) ∧ g.version = before.length + 1

theorem not_lastFor_nil : ¬ LastFor [] table g := by
  rintro ⟨before, later, hcs, -⟩
  cases before <;> cases hcs

/-- One more catalog is the last of its own table, and changes nothing for another. -/
theorem lastFor_concat : LastFor (cs ++ [c]) table g ↔
    if table = c.table then g = ⟨c, cs.length + 1⟩ else LastFor cs table g := by
  constructor
  · rintro ⟨before, later, hcs, htable, hlater, hversion⟩
    rcases List.eq_nil_or_concat' later with rfl | ⟨later, d, rfl⟩
    · obtain ⟨rfl, hc⟩ := List.append_inj' hcs rfl
      obtain rfl : c = g.catalog := List.singleton_inj.mp hc
      rw [if_pos htable.symm, ← hversion]
    · rw [← List.cons_append, ← List.append_assoc] at hcs
      obtain ⟨rfl, hd⟩ := List.append_inj' hcs rfl
      obtain rfl : c = d := List.singleton_inj.mp hd
      rw [if_neg (hlater c (by simp)).symm]
      exact ⟨before, later, rfl, htable, fun e he => hlater e (List.mem_append_left [c] he), hversion⟩
  · split
    next htable =>
      rintro rfl
      exact ⟨cs, [], rfl, htable.symm, nofun, rfl⟩
    next htable =>
      rintro ⟨before, later, rfl, hown, hlater, hversion⟩
      refine ⟨before, later ++ [c], by simp, hown, fun e he => ?_, hversion⟩
      rcases List.mem_append.mp he with he | he
      · exact hlater e he
      · rw [List.mem_singleton.mp he]
        exact Ne.symm htable

theorem exists_lastFor_iff : (∃ g, LastFor cs table g) ↔ ∃ c ∈ cs, c.table = table := by
  induction cs using List.reverseRecOn with
  | nil => exact iff_of_false (fun ⟨_, h⟩ => not_lastFor_nil h) (fun ⟨_, h, _⟩ => by cases h)
  | append_singleton cs c ih =>
    simp only [lastFor_concat]
    split
    next htable => exact iff_of_true ⟨_, rfl⟩ ⟨c, by simp, htable.symm⟩
    next htable =>
      rw [ih]
      simp [or_and_right, exists_or, Ne.symm htable]

theorem LastFor.mem (h : LastFor cs table g) : g.catalog ∈ cs := by
  obtain ⟨before, later, rfl, -⟩ := h
  simp

theorem LastFor.table_eq (h : LastFor cs table g) : g.catalog.table = table := by
  obtain ⟨_, _, -, htable, -⟩ := h
  exact htable

theorem LastFor.getElem? (h : LastFor cs table g) : cs[g.version - 1]? = some g.catalog := by
  obtain ⟨before, later, rfl, -, -, hversion⟩ := h
  rw [hversion]
  simp

theorem LastFor.version_le (h : LastFor cs table g) : g.version ≤ cs.length := by
  obtain ⟨before, later, rfl, -, -, hversion⟩ := h
  rw [hversion, List.length_append, List.length_cons]
  omega

/-! ## The invariant -/

/-- The registry holds the last of the catalogs for each table. -/
structure Records (cs : List Catalog) (r : Registry) : Prop where
  accepted : ∀ c ∈ cs, c.Accepted
  version : r.version = cs.length
  keys : r.catalogs.map Prod.fst = r.versions.map Prod.fst
  nodup : (r.catalogs.map Prod.fst).Nodup
  catalogs : ∀ table c, r.catalogs.lookup table = some c ↔ ∃ n, LastFor cs table ⟨c, n⟩
  versions : ∀ table n, r.versions.lookup table = some n ↔ ∃ c, LastFor cs table ⟨c, n⟩

theorem records_empty : Records [] {} where
  accepted := nofun
  version := rfl
  keys := rfl
  nodup := List.nodup_nil
  catalogs _ _ := iff_of_false nofun fun ⟨_, h⟩ => not_lastFor_nil h
  versions _ _ := iff_of_false nofun fun ⟨_, h⟩ => not_lastFor_nil h

/-- The registry with one more catalog. -/
def adding (r : Registry) (c : Catalog) : Registry :=
  ⟨putEntry c.table c r.catalogs, putEntry c.table (r.version + 1) r.versions, r.version + 1⟩

theorem of_register_eq_ok {s : Registry} (h : r.register c = .ok s) : c.Accepted ∧ s = r.adding c := by
  rw [register] at h
  cases hproblems : c.problems with
  | nil =>
    rw [hproblems] at h
    exact ⟨hproblems, (Except.ok.inj h).symm⟩
  | cons p ps =>
    rw [hproblems] at h
    cases h

theorem of_accept_eq_ok {o : Offer} {s : Registry} (h : r.accept o = .ok (c, s)) :
    c.Accepted ∧ s = r.adding c := by
  rw [accept] at h
  cases hread : o.read with
  | error f =>
    rw [hread] at h
    cases h
  | ok d =>
    rw [hread] at h
    cases hregister : r.register d with
    | error e =>
      simp only [bind, Except.bind, hregister] at h
      cases h
    | ok t =>
      simp only [bind, Except.bind, hregister] at h
      cases h
      exact of_register_eq_ok hregister

theorem Records.adding (h : Records cs r) (hc : c.Accepted) : Records (cs ++ [c]) (r.adding c) where
  accepted d hd := by
    rcases List.mem_append.mp hd with hd | hd
    · exact h.accepted d hd
    · rwa [List.mem_singleton.mp hd]
  version := by rw [Registry.adding, h.version, List.length_append, List.length_singleton]
  keys := by rw [Registry.adding, map_fst_putEntry, map_fst_putEntry, h.keys]
  nodup := nodup_putEntry h.nodup
  catalogs table d := by
    rw [Registry.adding, lookup_putEntry]
    simp only [lastFor_concat]
    split
    next => simp [eq_comm]
    next => exact h.catalogs table d
  versions table n := by
    rw [Registry.adding, lookup_putEntry, h.version]
    simp only [lastFor_concat]
    split
    next => simp [eq_comm]
    next => exact h.versions table n

/-! ## Calls -/

/-- A call that registers nothing leaves the registry as it is. -/
theorem run_eq_self {step : Step} (h : newCatalog? (step.run r).1 = none) : (step.run r).2 = r := by
  cases step with
  | register o =>
    rw [Step.run] at h ⊢
    cases haccept : r.accept o with
    | error f => rfl
    | ok p =>
      rw [haccept] at h
      cases h
  | get | snapshot | versionOf | contains => rfl

theorem newCatalog?_map {α : Type} {x : Except Fault α} {f : α → Answer}
    (hf : ∀ a, newCatalog? (.ok (f a)) = none) : newCatalog? (x.map f) = none := by
  cases x with
  | error e => rfl
  | ok a => exact hf a

theorem of_newCatalog?_eq_some {step : Step} (h : newCatalog? (step.run r).1 = some c) :
    c.Accepted ∧ (step.run r).2 = r.adding c := by
  cases step with
  | register o =>
    rw [Step.run] at h ⊢
    cases haccept : r.accept o with
    | error f =>
      rw [haccept] at h
      cases h
    | ok p =>
      rw [haccept] at h
      obtain rfl : p.1 = c := Option.some.inj h
      exact of_accept_eq_ok haccept
  | get | snapshot | versionOf =>
    rw [Step.run, newCatalog?_map fun _ => rfl] at h
    cases h
  | contains => cases h

theorem Records.step (h : Records cs r) (step : Step) :
    Records (cs ++ (newCatalog? (step.run r).1).toList) (step.run r).2 := by
  cases hnew : newCatalog? (step.run r).1 with
  | none =>
    rw [run_eq_self hnew, Option.toList_none, List.append_nil]
    exact h
  | some c =>
    obtain ⟨hc, hrun⟩ := of_newCatalog?_eq_some hnew
    rw [hrun]
    exact h.adding hc

theorem Records.after (h : Records cs r) (steps : List Step) :
    Records (cs ++ r.registered steps) (r.after steps) := by
  induction steps generalizing cs r with
  | nil =>
    rw [registered, answers, List.filterMap_nil, List.append_nil]
    exact h
  | cons step steps ih =>
    have hregistered : r.registered (step :: steps) =
        (newCatalog? (step.run r).1).toList ++ (step.run r).2.registered steps := by
      rw [registered, answers, List.filterMap_cons]
      cases newCatalog? (step.run r).1 <;> rfl
    rw [hregistered, ← List.append_assoc]
    exact ih (h.step step)

/-! ## Look-ups -/

theorem Records.lookup_eq_none_iff (h : Records cs r) :
    r.catalogs.lookup table = none ↔ ∀ c ∈ cs, c.table ≠ table := by
  have hsome : (∃ c, r.catalogs.lookup table = some c) ↔ ∃ c ∈ cs, c.table = table := by
    simp only [h.catalogs, ← exists_lastFor_iff]
    exact ⟨fun ⟨c, n, hlast⟩ => ⟨⟨c, n⟩, hlast⟩, fun ⟨g, hlast⟩ => ⟨g.catalog, g.version, hlast⟩⟩
  rw [← Option.not_isSome_iff_eq_none, Option.isSome_iff_exists, hsome]
  simp

theorem Records.get_eq_ok_iff (h : Records cs r) : r.get table = .ok c ↔ ∃ n, LastFor cs table ⟨c, n⟩ := by
  rw [← h.catalogs, get]
  cases r.catalogs.lookup table <;> simp

theorem Records.get_eq_error_iff (h : Records cs r) {e : Rejection} :
    r.get table = .error e ↔ (∀ c ∈ cs, c.table ≠ table) ∧ e = r.missing table := by
  rw [← h.lookup_eq_none_iff, get]
  cases r.catalogs.lookup table <;> simp [eq_comm]

/-- The catalog and the version that a registry holds for a table are of one registration. -/
theorem Records.lookup_versions (h : Records cs r) (hc : r.catalogs.lookup table = some c) :
    ∃ n, r.versions.lookup table = some n ∧ LastFor cs table ⟨c, n⟩ := by
  obtain ⟨n, hlast⟩ := (h.catalogs table c).mp hc
  exact ⟨n, (h.versions table n).mpr ⟨c, hlast⟩, hlast⟩

theorem Records.not_lastFor (h : Records cs r) (hc : r.catalogs.lookup table = none) : ¬ LastFor cs table g := by
  intro hlast
  obtain ⟨c, hmem, htable⟩ := exists_lastFor_iff.mp ⟨g, hlast⟩
  exact h.lookup_eq_none_iff.mp hc c hmem htable

theorem Records.snapshot_eq_ok_iff (h : Records cs r) : r.snapshot table = .ok g ↔ LastFor cs table g := by
  rw [snapshot, get]
  cases hc : r.catalogs.lookup table with
  | none => exact iff_of_false nofun (h.not_lastFor hc)
  | some c =>
    obtain ⟨n, hn, hlast⟩ := h.lookup_versions hc
    rw [hn]
    constructor
    · intro hg
      obtain rfl : ⟨c, n⟩ = g := Except.ok.inj hg
      exact hlast
    · intro hg
      have hgc := (h.catalogs table g.catalog).mpr ⟨g.version, hg⟩
      have hgn := (h.versions table g.version).mpr ⟨g.catalog, hg⟩
      rw [hc] at hgc
      rw [hn] at hgn
      rw [Option.some.inj hgc, Option.some.inj hgn]
      rfl

theorem Records.snapshot_eq_error_iff (h : Records cs r) {e : Rejection} :
    r.snapshot table = .error e ↔ (∀ c ∈ cs, c.table ≠ table) ∧ e = r.missing table := by
  rw [← h.get_eq_error_iff, snapshot]
  cases r.get table <;> simp [Except.map]

theorem Records.versionOf_eq_ok_iff (h : Records cs r) {n : Nat} :
    r.versionOf table = .ok n ↔ ∃ c, LastFor cs table ⟨c, n⟩ := by
  rw [versionOf, get]
  cases hc : r.catalogs.lookup table with
  | none => exact iff_of_false nofun fun ⟨_, hlast⟩ => h.not_lastFor hc hlast
  | some c =>
    obtain ⟨m, hm, -⟩ := h.lookup_versions hc
    rw [← h.versions, hm]
    simp [bind, Except.bind, Except.mapError, pure, Except.pure]

theorem Records.versionOf_eq_error_iff (h : Records cs r) {f : Fault} :
    r.versionOf table = .error f ↔ (∀ c ∈ cs, c.table ≠ table) ∧ f = .ofRejection (r.missing table) := by
  rw [← h.lookup_eq_none_iff, versionOf, get]
  cases hc : r.catalogs.lookup table with
  | none => simp [bind, Except.bind, Except.mapError, eq_comm]
  | some c =>
    obtain ⟨n, hn, -⟩ := h.lookup_versions hc
    rw [hn]
    simp [bind, Except.bind, Except.mapError, pure, Except.pure]

theorem Records.contains_iff (h : Records cs r) : r.contains table = true ↔ ∃ c ∈ cs, c.table = table := by
  rw [contains, ← Option.not_isNone, Bool.not_eq_true', ← Bool.not_eq_true, Option.isNone_iff_eq_none,
    h.lookup_eq_none_iff]
  simp

/-! ## Any calls -/

/-- What a registry holds and answers once the catalogs have been registered in turn. -/
structure Lawful (cs : List Catalog) (r : Registry) : Prop where
  stored : ∀ e ∈ r.catalogs, e.2.Accepted ∧ e.2.table = e.1
  version : r.version = cs.length
  sameTables : r.catalogs.map Prod.fst = r.versions.map Prod.fst
  onePerTable : (r.catalogs.map Prod.fst).Nodup
  versionsDiffer : (r.versions.map Prod.snd).Nodup
  versionsCounted : ∀ e ∈ r.versions, e.2 ≤ r.version
  get : ∀ table c, r.get table = .ok c ↔ ∃ n, LastFor cs table ⟨c, n⟩
  snapshot : ∀ table g, r.snapshot table = .ok g ↔ LastFor cs table g
  versionOf : ∀ table n, r.versionOf table = .ok n ↔ ∃ c, LastFor cs table ⟨c, n⟩
  contains : ∀ table, r.contains table = true ↔ ∃ c ∈ cs, c.table = table
  getFails : ∀ table e,
    r.get table = .error e ↔ (∀ c ∈ cs, c.table ≠ table) ∧ e = r.missing table
  snapshotFails : ∀ table e,
    r.snapshot table = .error e ↔ (∀ c ∈ cs, c.table ≠ table) ∧ e = r.missing table
  versionOfFails : ∀ table f,
    r.versionOf table = .error f ↔ (∀ c ∈ cs, c.table ≠ table) ∧ f = .ofRejection (r.missing table)

theorem Records.lastFor_of_mem (h : Records cs r) {e : String × Nat} (he : e ∈ r.versions) :
    ∃ c, LastFor cs e.1 ⟨c, e.2⟩ :=
  (h.versions e.1 e.2).mp (lookup_of_mem (h.keys ▸ h.nodup) he)

theorem Records.versions_nodup (h : Records cs r) : (r.versions.map Prod.snd).Nodup := by
  have hkeys : (r.versions.map Prod.fst).Nodup := h.keys ▸ h.nodup
  refine List.Nodup.map_on (fun e he f hf heq => ?_) hkeys.of_map
  obtain ⟨c, hc⟩ := h.lastFor_of_mem he
  obtain ⟨d, hd⟩ := h.lastFor_of_mem hf
  -- one version is one place in the list, and so one catalog
  have hcd : some c = some d := by
    rw [← hc.getElem?, ← hd.getElem?, heq]
  obtain rfl := Option.some.inj hcd
  exact Prod.ext (hc.table_eq.symm.trans hd.table_eq) heq

theorem Records.lawful (h : Records cs r) : Lawful cs r where
  stored e he := by
    obtain ⟨n, hlast⟩ := (h.catalogs e.1 e.2).mp (lookup_of_mem h.nodup he)
    exact ⟨h.accepted e.2 hlast.mem, hlast.table_eq⟩
  version := h.version
  sameTables := h.keys
  onePerTable := h.nodup
  versionsDiffer := h.versions_nodup
  versionsCounted e he := by
    obtain ⟨c, hlast⟩ := h.lastFor_of_mem he
    exact h.version ▸ hlast.version_le
  get _ _ := h.get_eq_ok_iff
  snapshot _ _ := h.snapshot_eq_ok_iff
  versionOf _ _ := h.versionOf_eq_ok_iff
  contains _ := h.contains_iff
  getFails _ _ := h.get_eq_error_iff
  snapshotFails _ _ := h.snapshot_eq_error_iff
  versionOfFails _ _ := h.versionOf_eq_error_iff

/-- **After any calls on an empty registry it holds, for each table, the last catalog registered for it, with
the number of registrations up to then; a call that fails leaves it as it is.** -/
theorem lawful_after (steps : List Step) :
    Lawful (registered {} steps) (after {} steps) ∧
      ∀ (step : Step) (f : Fault),
        (step.run (after {} steps)).1 = .error f → (step.run (after {} steps)).2 = after {} steps := by
  constructor
  · exact (records_empty.after steps).lawful
  · intro step f hfails
    exact run_eq_self (by rw [hfails]; rfl)

end Registry

end MetricLayer
