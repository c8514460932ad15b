import Mathlib.Data.List.Nodup
import MetricLayer.Value.Basic

/-!
# Entries by key

`putEntry` adds its key behind the others unless it is there, so that keys stay distinct.  Entries that are put
one after another shadow those that were there (`lookup_foldl_putEntry`), and entries with distinct keys are
merged as they are (`mergeEntries_eq_self`).
-/

namespace MetricLayer

variable {α : Type} {key : String} {a : α} {es : List (String × α)}

theorem putEntry_of_not_mem (h : key ∉ es.map Prod.fst) : putEntry key a es = es ++ [(key, a)] := by
  induction es with
  | nil => rfl
  | cons e es ih =>
    have hne : e.1 ≠ key := fun heq => h (heq ▸ List.mem_cons_self)
    rw [putEntry, if_neg hne, ih fun hes => h (List.mem_cons_of_mem _ hes), List.cons_append]

theorem map_fst_putEntry : (putEntry key a es).map Prod.fst =
    if key ∈ es.map Prod.fst then es.map Prod.fst else es.map Prod.fst ++ [key] := by
  induction es with
  | nil => rfl
  | cons e es ih =>
    obtain ⟨k, b⟩ := e
    rw [putEntry]
    by_cases hk : k = key
    · simp [hk]
    · rw [if_neg hk, List.map_cons, ih]
      have hkey : key ≠ k := fun h => hk h.symm
      by_cases hmem : key ∈ es.map Prod.fst <;> simp [hmem, hkey]

theorem nodup_putEntry (h : (es.map Prod.fst).Nodup) : ((putEntry key a es).map Prod.fst).Nodup := by
  rw [map_fst_putEntry]
  split
  next => exact h
  next hmem => exact List.nodup_append.mpr ⟨h, List.nodup_singleton key, by grind⟩

theorem not_mem_of_lookup_eq_none (h : es.lookup key = none) : key ∉ es.map Prod.fst := by
  rintro hkey
  obtain ⟨e, he, rfl⟩ := List.mem_map.mp hkey
  simpa using List.lookup_eq_none_iff.mp h e he

theorem lookup_of_mem {e : String × α} (h : (es.map Prod.fst).Nodup) (he : e ∈ es) :
    es.lookup e.1 = some e.2 := by
  induction es with
  | nil => cases he
  | cons f es ih =>
    obtain ⟨hf, hes⟩ := List.nodup_cons.mp h
    rcases List.mem_cons.mp he with rfl | he
    · exact List.lookup_cons_self
    · have hne : e.1 ≠ f.1 := fun heq => hf (heq ▸ List.mem_map_of_mem he)
      rw [List.lookup_cons, beq_eq_false_iff_ne.mpr hne]
      exact ih hes he

theorem mem_iff_lookup {e : String × α} (h : (es.map Prod.fst).Nodup) : e ∈ es ↔ es.lookup e.1 = some e.2 := by
  refine ⟨lookup_of_mem h, fun hlookup => ?_⟩
  obtain ⟨before, after, rfl, -⟩ := List.lookup_eq_some_iff.mp hlookup
  exact List.mem_append_right before List.mem_cons_self

/-! ## Entries put one after another -/

variable {acc : List (String × α)}

theorem nodup_foldl_putEntry (h : (acc.map Prod.fst).Nodup) :
    ((es.foldl (fun acc e => putEntry e.1 e.2 acc) acc).map Prod.fst).Nodup := by
  induction es generalizing acc with
  | nil => exact h
  | cons e es ih => exact ih (nodup_putEntry h)

theorem nodup_mergeEntries (es : List (String × α)) : ((mergeEntries es).map Prod.fst).Nodup :=
  nodup_foldl_putEntry List.nodup_nil

theorem foldl_putEntry_eq_append (h : ((acc ++ es).map Prod.fst).Nodup) :
    es.foldl (fun acc e => putEntry e.1 e.2 acc) acc = acc ++ es := by
  induction es generalizing acc with
  | nil => exact (List.append_nil acc).symm
  | cons e es ih =>
    have hnew : e.1 ∉ acc.map Prod.fst := fun hmem => by
      rw [List.map_append] at h
      exact (List.nodup_append.mp h).2.2 _ hmem _ List.mem_cons_self rfl
    rw [List.foldl_cons, putEntry_of_not_mem hnew, ih (by simpa using h), List.append_assoc,
      List.singleton_append]

theorem mergeEntries_eq_self (h : (es.map Prod.fst).Nodup) : mergeEntries es = es :=
  foldl_putEntry_eq_append h

theorem lookup_foldl_putEntry (h : (es.map Prod.fst).Nodup) (key : String) :
    (es.foldl (fun acc e => putEntry e.1 e.2 acc) acc).lookup key = (es.lookup key).or (acc.lookup key) := by
  induction es generalizing acc with
  | nil => rfl
  | cons e es ih =>
    obtain ⟨he, hes⟩ := List.nodup_cons.mp h
    rw [List.foldl_cons, ih hes, lookup_putEntry, List.lookup_cons]
    by_cases hkey : key = e.1
    · have hnone : es.lookup key = none := by
        rw [List.lookup_eq_none_iff, hkey]
        exact fun f hf => bne_iff_ne.mpr fun heq => he (heq ▸ List.mem_map_of_mem hf)
      rw [hnone, if_pos hkey, beq_iff_eq.mpr hkey]
      rfl
    · rw [if_neg hkey, beq_eq_false_iff_ne.mpr hkey]

/-- An entry in front of others with distinct keys stands for its key unless one of them does. -/
theorem lookup_mergeEntries_cons (h : (es.map Prod.fst).Nodup) (key k : String) (a : α) :
    (mergeEntries ((k, a) :: es)).lookup key = (es.lookup key).or (if key = k then some a else none) := by
  rw [mergeEntries, List.foldl_cons, lookup_foldl_putEntry h, lookup_putEntry]
  rfl

end MetricLayer
