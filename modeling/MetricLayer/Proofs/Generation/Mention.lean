import Mathlib.Data.String.Basic
import Mathlib.Order.Nat
import MetricLayer.Generation.Plan
import MetricLayer.Proofs.Catalog.Lookup
import MetricLayer.Proofs.Text.Case

/-!
# Mentions

A text mentions a name where the name stands in lower case and as whole words (`MentionedAt`).  A search finds
the first place of a name (`mentionOf?_eq_some_iff`), and of several names the first place of any of them
(`firstMention?_eq_some_iff`).  What is mentioned is put into the order of these places, and of the names where
two places are the same (`pairwise_mergeSort_mentions`).
-/

namespace MetricLayer.Plan

open MetricLayer.Text

/-- A text has a name at an offset, in lower case and as whole words; an empty name is no word. -/
def MentionedAt (text : List Char) (name : String) (n : Nat) : Prop :=
  name ≠ "" ∧ ∃ before after, text = before ++ (lower name.toList ++ after) ∧ before.length = n ∧
    (∀ c ∈ before.getLast?, isWord c = false) ∧ ∀ c ∈ after.head?, isWord c = false

/-- A text has one of several names at an offset. -/
def MentionsAt (text : List Char) (names : List String) (n : Nat) : Prop :=
  ∃ name ∈ names, MentionedAt text name n

/-- The offset is the first one at which a text has one of several names. -/
def FirstMentionAt (text : List Char) (names : List String) (n : Nat) : Prop :=
  IsLeast {k | MentionsAt text names k} n

/-- The names under which a dimension is mentioned. -/
def dimensionNames (d : Dimension) : List String :=
  [d.aliasName, d.source, spaced d.source]

/-- The name as it is, and with spaces for underscores. -/
def spellings (name : String) : List String :=
  [name, spaced name]

variable {text : List Char} {name : String} {names : List String} {n : Nat}

/-! ## Searches -/

/-- A search finds no place behind one that passes the test. -/
theorem offset_le_of_find? {test : Place → Bool} {p q : Place} (h : (places text).find? test = some p)
    (hq : q ∈ places text) (htest : test q) : p.offset ≤ q.offset := by
  obtain ⟨-, before, after, hplaces, hbefore⟩ := List.find?_eq_some_iff_append.mp h
  have hsorted := pairwise_placesFrom 0 none text
  rw [← places, hplaces] at hsorted
  rw [hplaces, List.mem_append, List.mem_cons] at hq
  rcases hq with hq | rfl | hq
  · have hfails := hbefore q hq
    rw [htest] at hfails
    cases hfails
  · exact Nat.le_refl _
  · have hcons := (List.pairwise_append.mp hsorted).2.1
    exact Nat.le_of_lt ((List.pairwise_cons.mp hcons).1 q hq)

theorem map_find?_places_eq_some_iff {test : Place → Bool} :
    ((places text).find? test).map Place.offset = some n ↔
      IsLeast {k | ∃ p ∈ places text, test p ∧ p.offset = k} n := by
  constructor
  · intro h
    obtain ⟨p, hfind, rfl⟩ := Option.map_eq_some_iff.mp h
    refine ⟨⟨p, List.mem_of_find?_eq_some hfind, List.find?_some hfind, rfl⟩, ?_⟩
    rintro k ⟨q, hq, htest, rfl⟩
    exact offset_le_of_find? hfind hq htest
  · rintro ⟨⟨p, hp, htest, rfl⟩, hleast⟩
    cases hfind : (places text).find? test with
    | none => exact absurd htest (List.find?_eq_none.mp hfind p hp)
    | some q =>
      have hle : p.offset ≤ q.offset := hleast ⟨q, List.mem_of_find?_eq_some hfind, List.find?_some hfind, rfl⟩
      exact congrArg some (Nat.le_antisymm (offset_le_of_find? hfind hp htest) hle)

theorem not_any_isWord_iff {o : Option Char} : (!o.any isWord) = true ↔ ∀ c ∈ o, isWord c = false := by
  cases o <;> simp

theorem exists_place_iff (hname : name ≠ "") :
    (∃ p ∈ places text,
      (p.startsWord && ((lower name.toList).isPrefixOf? p.rest).any endsWord) ∧ p.offset = n) ↔
      MentionedAt text name n := by
  constructor
  · rintro ⟨p, hp, htest, rfl⟩
    obtain ⟨before, rest, rfl, rfl⟩ := mem_places.mp hp
    rw [Bool.and_eq_true, Option.any_eq_true] at htest
    obtain ⟨hbefore, after, hafter, hend⟩ := htest
    exact ⟨hname, before, after, by rw [List.isPrefixOf?_eq_some_iff_append_eq.mp hafter], rfl,
      not_any_isWord_iff.mp hbefore, not_any_isWord_iff.mp hend⟩
  · rintro ⟨-, before, after, rfl, rfl, hbefore, hafter⟩
    refine ⟨_, mem_places.mpr ⟨before, _, rfl, rfl⟩, ?_, rfl⟩
    rw [Bool.and_eq_true, Option.any_eq_true]
    exact ⟨not_any_isWord_iff.mpr hbefore, after, List.isPrefixOf?_eq_some_iff_append_eq.mpr rfl,
      not_any_isWord_iff.mpr hafter⟩

theorem mentionOf?_eq_some_iff :
    mentionOf? text name = some n ↔ IsLeast {k | MentionedAt text name k} n := by
  rw [mentionOf?]
  by_cases hname : name = ""
  · have hnowhere : ∀ k, ¬ MentionedAt text name k := fun k hk => hk.1 hname
    rw [if_pos (by rw [hname]; rfl)]
    exact iff_of_false nofun fun h => hnowhere n h.1
  · have hlower : (lower name.toList).isEmpty = false := by
      rw [List.isEmpty_eq_false_iff, ne_eq, lower_eq_nil_iff, ← String.toList_empty, String.toList_inj]
      exact hname
    rw [if_neg (by rw [hlower]; exact Bool.false_ne_true), map_find?_places_eq_some_iff]
    simp only [exists_place_iff hname]

/-- What is mentioned is found at its first place. -/
theorem exists_mentionOf?_eq_some (h : MentionedAt text name n) : ∃ k ≤ n, mentionOf? text name = some k := by
  classical
  have hleast : IsLeast {k | MentionedAt text name k} _ := Set.Nonempty.isLeast_natFind ⟨n, h⟩
  exact ⟨_, hleast.2 h, mentionOf?_eq_some_iff.mpr hleast⟩

theorem firstMention?_eq_some_iff : firstMention? text names = some n ↔ FirstMentionAt text names n := by
  rw [firstMention?, List.min?_eq_some_iff]
  constructor
  · rintro ⟨hn, hleast⟩
    obtain ⟨name, hname, hmention⟩ := List.mem_filterMap.mp hn
    refine ⟨⟨name, hname, (mentionOf?_eq_some_iff.mp hmention).1⟩, ?_⟩
    rintro m ⟨other, hother, hm⟩
    obtain ⟨k, hkm, hk⟩ := exists_mentionOf?_eq_some hm
    exact (hleast k (List.mem_filterMap.mpr ⟨other, hother, hk⟩)).trans hkm
  · rintro ⟨⟨name, hname, hn⟩, hleast⟩
    have hmember : ∀ k ∈ names.filterMap (mentionOf? text), n ≤ k := by
      intro k hk
      obtain ⟨other, hother, hmention⟩ := List.mem_filterMap.mp hk
      exact hleast ⟨other, hother, (mentionOf?_eq_some_iff.mp hmention).1⟩
    obtain ⟨k, hkn, hk⟩ := exists_mentionOf?_eq_some hn
    have hin : k ∈ names.filterMap (mentionOf? text) := List.mem_filterMap.mpr ⟨name, hname, hk⟩
    obtain rfl : n = k := Nat.le_antisymm (hmember k hin) hkn
    exact ⟨hin, hmember⟩

/-- What is mentioned is mentioned a first time. -/
theorem exists_firstMentionAt (h : ∃ k, MentionsAt text names k) : ∃ n, FirstMentionAt text names n := by
  classical
  exact ⟨_, Set.Nonempty.isLeast_natFind h⟩

/-! ## The order of mentions -/

theorem Mention.le_iff {a b : Mention} :
    a.le b ↔ a.offset < b.offset ∨ a.offset = b.offset ∧ a.name ≤ b.name := by
  rw [Mention.le, Bool.or_eq_true, decide_eq_true_eq, Bool.and_eq_true, beq_iff_eq, textLe, Bool.not_eq_true',
    decide_eq_false_iff_not, not_lt]

theorem pairwise_mergeSort_mentions (mentions : List Mention) :
    (mentions.mergeSort Mention.le).Pairwise fun a b => a.le b := by
  refine List.pairwise_mergeSort (fun a b c hab hbc => ?_) (fun a b => ?_) mentions
  · rw [Mention.le_iff] at hab hbc ⊢
    rcases hab with hab | ⟨hab, habname⟩ <;> rcases hbc with hbc | ⟨hbc, hbcname⟩
    · exact Or.inl (hab.trans hbc)
    · exact Or.inl (hbc ▸ hab)
    · exact Or.inl (hab ▸ hbc)
    · exact Or.inr ⟨hab.trans hbc, habname.trans hbcname⟩
  · rw [Bool.or_eq_true, Mention.le_iff, Mention.le_iff]
    rcases Nat.lt_trichotomy a.offset b.offset with h | h | h
    · exact Or.inl (Or.inl h)
    · exact (le_total a.name b.name).imp (fun hname => Or.inr ⟨h, hname⟩) fun hname => Or.inr ⟨h.symm, hname⟩
    · exact Or.inr (Or.inl h)

theorem nodup_ordered {mentions : List Mention} (h : (mentions.map Mention.name).Nodup) :
    (ordered mentions).Nodup :=
  ((List.mergeSort_perm mentions _).map Mention.name).nodup_iff.mpr h

/-! ## The names of a catalog -/

section catalog

variable {c : Catalog} {known : List String} {m : Mention}

theorem mem_dimensionMentions_iff (hc : c.Accepted) :
    m ∈ dimensionMentions c text ↔
      ∃ d ∈ c.dimensions, d.aliasName = m.name ∧ FirstMentionAt text (dimensionNames d) m.offset := by
  rw [dimensionMentions, hc.namedDimensions_eq, List.mem_filterMap]
  refine exists_congr fun d => and_congr_right fun _ => ?_
  rw [Option.map_eq_some_iff]
  constructor
  · rintro ⟨n, hn, rfl⟩
    exact ⟨rfl, firstMention?_eq_some_iff.mp hn⟩
  · rintro ⟨hname, hfirst⟩
    exact ⟨m.offset, firstMention?_eq_some_iff.mpr hfirst, by rw [hname]⟩

theorem mem_entryMentions_iff (hc : c.Accepted) {e : Entry} :
    (m, e) ∈ entryMentions c text ↔
      e ∈ c.entries ∧ e.aliasName = m.name ∧ FirstMentionAt text (spellings e.aliasName) m.offset := by
  rw [entryMentions, hc.namedEntries_eq, List.mem_filterMap]
  constructor
  · rintro ⟨e', he', hm⟩
    obtain ⟨n, hn, heq⟩ := Option.map_eq_some_iff.mp hm
    cases heq
    exact ⟨he', rfl, firstMention?_eq_some_iff.mp hn⟩
  · rintro ⟨he, hname, hfirst⟩
    refine ⟨e, he, Option.map_eq_some_iff.mpr ⟨m.offset, firstMention?_eq_some_iff.mpr hfirst, ?_⟩⟩
    rw [hname]

theorem mem_sourceMentions_iff :
    m ∈ sourceMentions c text known ↔
      ∃ measure ∈ c.measures, (measure.source ∉ known ∧ measure.source ≠ rowSource) ∧
        ∃ e, measure.entries.head? = some e ∧ e.aliasName = m.name ∧
          FirstMentionAt text (spellings measure.source) m.offset := by
  rw [sourceMentions, List.mem_filterMap]
  refine exists_congr fun measure => and_congr_right fun _ => ?_
  have hpassed : (known.contains measure.source || measure.source == rowSource) = true ↔
      ¬ (measure.source ∉ known ∧ measure.source ≠ rowSource) := by
    rw [Bool.or_eq_true, List.contains_iff_mem, beq_iff_eq, not_and_or, not_not, not_not]
  by_cases hkept : measure.source ∉ known ∧ measure.source ≠ rowSource
  · rw [if_neg (by rw [hpassed, not_not]; exact hkept), and_iff_right hkept, Option.bind_eq_some_iff]
    refine exists_congr fun e => and_congr_right fun _ => ?_
    rw [Option.map_eq_some_iff]
    constructor
    · rintro ⟨n, hn, rfl⟩
      exact ⟨rfl, firstMention?_eq_some_iff.mp hn⟩
    · rintro ⟨hname, hfirst⟩
      exact ⟨m.offset, firstMention?_eq_some_iff.mpr hfirst, by rw [hname]⟩
  · rw [if_pos (hpassed.mpr hkept)]
    exact iff_of_false nofun fun h => hkept h.1

end catalog

end MetricLayer.Plan
