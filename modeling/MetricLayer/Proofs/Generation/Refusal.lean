import MetricLayer.Catalog.Draft
import MetricLayer.Proofs.Generation.Mention
import MetricLayer.Proofs.Generation.Plan
import MetricLayer.Proofs.Sql.Alias

/-!
# Requests that cannot be planned

A request that mentions something has no plan if the catalog has no measure, or if the number of top rows that it
asks for is zero or too long to be read; any other request has one, be it that it mentions nothing
(`Plan.exists_ofRequest_iff`).
-/

namespace MetricLayer

open MetricLayer.Text MetricLayer.Sql

namespace Plan

/-- A text asks for top rows at an offset: the word top in any letter case, white space, and digits up to the end
of a word. -/
def TopAt (text digits : List Char) (n : Nat) : Prop :=
  ∃ before word gap after, text = before ++ (word ++ (gap ++ (digits ++ after))) ∧ before.length = n ∧
    (∀ c ∈ before.getLast?, isWord c = false) ∧ word.map fold = "top".toList ∧
    (gap ≠ [] ∧ ∀ c ∈ gap, isBlank c) ∧ (digits ≠ [] ∧ ∀ c ∈ digits, isDigit c) ∧
    ∀ c ∈ after.head?, isWord c = false

/-- The first number of top rows that a text asks for. -/
def FirstTop (text digits : List Char) : Prop :=
  ∃ n, TopAt text digits n ∧ ∀ others k, TopAt text others k → n ≤ k

/-- A text mentions a dimension, an entry, or the source of a measure with entries. -/
inductive Mentions (c : Catalog) (text : List Char) : Prop where
  | dimension {d : Dimension} {k : Nat} (hd : d ∈ c.dimensions) (h : MentionsAt text (dimensionNames d) k)
  | entry {e : Entry} {k : Nat} (he : e ∈ c.entries) (h : MentionsAt text (spellings e.aliasName) k)
  | source {m : Measure} {k : Nat} (hm : m ∈ c.measures) (hrows : m.source ≠ rowSource) (hne : m.entries ≠ [])
    (h : MentionsAt text (spellings m.source) k)

variable {c : Catalog} {text digits : List Char} {request : String}

/-! ## What is mentioned -/

theorem mentions_iff (hc : c.Accepted) :
    Mentions c text ↔ ¬ (dimensionMentions c text = [] ∧ measureMentions c text = []) := by
  constructor
  · rintro h ⟨hdimensions, hmeasures⟩
    rw [measureMentions, List.append_eq_nil_iff, List.map_eq_nil_iff] at hmeasures
    cases h with
    | dimension hd hk =>
      obtain ⟨n, hn⟩ := exists_firstMentionAt ⟨_, hk⟩
      have hmem : (⟨n, _⟩ : Mention) ∈ dimensionMentions c text := (mem_dimensionMentions_iff hc).mpr ⟨_, hd, rfl, hn⟩
      rw [hdimensions] at hmem
      cases hmem
    | entry he hk =>
      obtain ⟨n, hn⟩ := exists_firstMentionAt ⟨_, hk⟩
      have hmem : ((⟨n, _⟩ : Mention), _) ∈ entryMentions c text := (mem_entryMentions_iff hc).mpr ⟨he, rfl, hn⟩
      rw [hmeasures.1] at hmem
      cases hmem
    | source hm hrows hne hk =>
      obtain ⟨n, hn⟩ := exists_firstMentionAt ⟨_, hk⟩
      obtain ⟨e, es, hcons⟩ := List.exists_cons_of_ne_nil hne
      -- without mentions by alias no source is passed over
      have hmem : (⟨n, e.aliasName⟩ : Mention) ∈ sourceMentions c text [] :=
        mem_sourceMentions_iff.mpr ⟨_, hm, ⟨List.not_mem_nil, hrows⟩, e, by rw [hcons]; rfl, rfl, hn⟩
      rw [hmeasures.1, List.map_nil] at hmeasures
      rw [hmeasures.2] at hmem
      cases hmem
  · intro h
    rw [not_and_or] at h
    rcases h with h | h
    · obtain ⟨m, hm⟩ := List.exists_mem_of_ne_nil _ h
      obtain ⟨d, hd, -, hn⟩ := (mem_dimensionMentions_iff hc).mp hm
      exact .dimension hd hn.1
    · obtain ⟨m, hm⟩ := List.exists_mem_of_ne_nil _ h
      rcases List.mem_append.mp hm with hm | hm
      · obtain ⟨⟨m, e⟩, hmem, rfl⟩ := List.mem_map.mp hm
        obtain ⟨he, -, hn⟩ := (mem_entryMentions_iff hc).mp hmem
        exact .entry he hn.1
      · obtain ⟨measure, hmeasure, ⟨-, hrows⟩, e, hhead, -, hn⟩ := mem_sourceMentions_iff.mp hm
        exact .source hmeasure hrows (List.ne_nil_of_mem (List.mem_of_head? hhead)) hn.1

/-! ## The number of top rows -/

theorem takeWhile_isDigit {after : List Char} (hdigits : ∀ c ∈ digits, isDigit c)
    (hafter : ∀ c ∈ after.head?, isDigit c = false) :
    (digits ++ after).takeWhile isDigit = digits ∧ (digits ++ after).dropWhile isDigit = after := by
  have hdrop : after.dropWhile isDigit = after := dropWhile_eq_self hafter
  have htake : after.takeWhile isDigit = [] := by
    have hparts := List.takeWhile_append_dropWhile (p := isDigit) (l := after)
    rwa [hdrop, List.append_left_eq_self] at hparts
  rw [List.takeWhile_append_of_pos hdigits, List.dropWhile_append_of_pos hdigits, htake, hdrop, List.append_nil]
  exact ⟨rfl, rfl⟩

theorem topAt?_eq_some_iff {p : Place} :
    topAt? p = some digits ↔
      p.startsWord ∧ ∃ word gap after, p.rest = word ++ (gap ++ (digits ++ after)) ∧ word.map fold = "top".toList ∧
        (gap ≠ [] ∧ ∀ c ∈ gap, isBlank c) ∧ (digits ≠ [] ∧ ∀ c ∈ digits, isDigit c) ∧
        ∀ c ∈ after.head?, isWord c = false := by
  rw [topAt?]
  by_cases hstart : p.startsWord
  swap
  · rw [if_pos (by simpa using hstart)]
    exact iff_of_false nofun fun h => hstart h.1
  rw [if_neg (by simpa using hstart), and_iff_right hstart]
  constructor
  · intro h
    obtain ⟨rest, hrest, h⟩ := Option.bind_eq_some_iff.mp h
    obtain ⟨behind, hletters, hgap⟩ := Option.bind_eq_some_iff.mp hrest
    obtain ⟨word, hp, hword⟩ := letters?_eq_some_iff.mp hletters
    obtain ⟨gap, hne, hblank, rfl, -⟩ := afterBlank?_eq_some_iff.mp hgap
    dsimp only at h
    split_ifs at h with hnone
    cases h
    rw [Bool.or_eq_true, not_or, Bool.not_eq_true', Bool.not_eq_false] at hnone
    refine ⟨word, gap, rest.dropWhile isDigit, ?_, hword, ⟨hne, hblank⟩, ⟨?_, ?_⟩, not_any_isWord_iff.mp hnone.2⟩
    · rw [List.takeWhile_append_dropWhile, hp]
    · rw [ne_eq, ← List.isEmpty_iff]
      exact hnone.1
    · exact fun c hc => List.mem_takeWhile_imp hc
  · rintro ⟨word, gap, after, hp, hword, ⟨hne, hblank⟩, ⟨hsome, hdigits⟩, hafter⟩
    have hrest : (letters? "top".toList p.rest).bind afterBlank? = some (digits ++ after) := by
      rw [hp, letters?_eq_some_iff.mpr ⟨word, rfl, hword⟩]
      refine afterBlank?_eq_some_iff.mpr ⟨gap, hne, hblank, rfl, fun c hc => ?_⟩
      obtain ⟨d, ds, rfl⟩ := List.exists_cons_of_ne_nil hsome
      obtain rfl : d = c := Option.some.inj hc
      have hword := isWord_of_isDigit (hdigits d List.mem_cons_self)
      rw [← Bool.not_eq_true]
      intro hcblank
      rw [isWord_of_isBlank hcblank] at hword
      cases hword
    have hnext : ∀ c ∈ after.head?, isDigit c = false := by
      intro c hc
      rw [← Bool.not_eq_true]
      intro hdigit
      have hno := hafter c hc
      rw [isWord_of_isDigit hdigit] at hno
      cases hno
    obtain ⟨htake, hdrop⟩ := takeWhile_isDigit hdigits hnext
    have hends : endsWord after := not_any_isWord_iff.mpr hafter
    rw [hrest]
    simp only [Option.bind_eq_bind, Option.bind_some, htake, hdrop, hends, List.isEmpty_eq_false_iff.mpr hsome]
    rfl

/-- Two places of a text that have one offset are the same. -/
theorem eq_of_offset_eq {p q : Place} (hp : p ∈ places text) (hq : q ∈ places text) (h : p.offset = q.offset) :
    p = q := by
  obtain ⟨before, rest, htext, rfl⟩ := mem_places.mp hp
  obtain ⟨before', rest', htext', rfl⟩ := mem_places.mp hq
  obtain ⟨rfl, rfl⟩ := List.append_inj (htext.symm.trans htext') h
  rfl

theorem exists_place_topAt?_iff {n : Nat} :
    (∃ p ∈ places text, topAt? p = some digits ∧ p.offset = n) ↔ TopAt text digits n := by
  constructor
  · rintro ⟨p, hp, htop, rfl⟩
    obtain ⟨before, rest, rfl, rfl⟩ := mem_places.mp hp
    obtain ⟨hstart, word, gap, after, hrest, h⟩ := topAt?_eq_some_iff.mp htop
    exact ⟨before, word, gap, after, congrArg (before ++ ·) hrest, rfl, not_any_isWord_iff.mp hstart, h⟩
  · rintro ⟨before, word, gap, after, rfl, rfl, hstart, h⟩
    refine ⟨_, mem_places.mpr ⟨before, _, rfl, rfl⟩, ?_, rfl⟩
    exact topAt?_eq_some_iff.mpr ⟨not_any_isWord_iff.mpr hstart, word, gap, after, rfl, h⟩

/-- A search for the top rows finds the first number. -/
theorem findSome?_topAt?_eq_some_iff :
    (places text).findSome? topAt? = some digits ↔ FirstTop text digits := by
  have hfirst {ds : List Char} (h : (places text).findSome? topAt? = some ds) :
      ∃ p ∈ places text, topAt? p = some ds ∧ ∀ others k, TopAt text others k → p.offset ≤ k := by
    obtain ⟨before, p, after, hplaces, hp, hbefore⟩ := List.findSome?_eq_some_iff.mp h
    refine ⟨p, hplaces ▸ List.mem_append_right _ List.mem_cons_self, hp, fun others k hk => ?_⟩
    obtain ⟨q, hq, htop, rfl⟩ := exists_place_topAt?_iff.mpr hk
    have hfind : (places text).find? (fun p => (topAt? p).isSome) = some p := by
      refine List.find?_eq_some_iff_append.mpr ⟨by rw [hp]; rfl, before, after, hplaces, fun x hx => ?_⟩
      rw [hbefore x hx]
      rfl
    exact offset_le_of_find? hfind hq (by rw [htop]; rfl)
  constructor
  · intro h
    obtain ⟨p, hp, htop, hleast⟩ := hfirst h
    exact ⟨p.offset, exists_place_topAt?_iff.mp ⟨p, hp, htop, rfl⟩, hleast⟩
  · rintro ⟨n, htop, hleast⟩
    obtain ⟨q, hq, hqtop, rfl⟩ := exists_place_topAt?_iff.mpr htop
    cases hfind : (places text).findSome? topAt? with
    | none =>
      rw [List.findSome?_eq_none_iff.mp hfind q hq] at hqtop
      cases hqtop
    | some ds =>
      obtain ⟨p, hp, hptop, hpleast⟩ := hfirst hfind
      have hle : q.offset ≤ p.offset := hleast ds _ (exists_place_topAt?_iff.mp ⟨p, hp, hptop, rfl⟩)
      rw [eq_of_offset_eq hp hq (Nat.le_antisymm (hpleast digits _ htop) hle)] at hptop
      exact hptop.symm.trans hqtop

theorem exists_top?_iff {request : String} :
    (∃ limit, top? request = .ok limit ∧ limit ≠ some 0) ↔
      ∀ digits, FirstTop request.toList digits → digits.length ≤ digitLimit ∧ naturalOf digits ≠ 0 := by
  simp only [← findSome?_topAt?_eq_some_iff]
  rw [top?]
  cases (places request.toList).findSome? topAt? with
  | none =>
    refine iff_of_true ⟨none, rfl, (Option.some_ne_none 0).symm⟩ fun digits hdigits => ?_
    cases hdigits
  | some digits =>
    simp only [Option.some.injEq, forall_eq']
    rw [natural]
    split_ifs with hlimit
    · refine iff_of_false ?_ fun h => absurd h.1 (Nat.not_le.mpr hlimit)
      rintro ⟨limit, hread, -⟩
      cases hread
    · rw [and_iff_right (Nat.not_lt.mp hlimit)]
      constructor
      · rintro ⟨_, ⟨⟩, hne⟩ hzero
        exact hne (congrArg some hzero)
      · exact fun hne => ⟨some (naturalOf digits), rfl, fun hzero => hne (Option.some.inj hzero)⟩

/-! ## Plans -/

theorem measuresOf_ne_nil_iff (hc : c.Accepted) (text : List Char) : measuresOf c text ≠ [] ↔ c.entries ≠ [] := by
  constructor
  · intro h
    obtain ⟨n, hn⟩ := List.exists_mem_of_ne_nil _ h
    obtain ⟨e, he, -⟩ := exists_of_mem_measuresOf hn
    exact List.ne_nil_of_mem he
  · intro h
    obtain ⟨e, es, hcons⟩ := List.exists_cons_of_ne_nil h
    rw [measuresOf, hc.unambiguous.measureAliases, hcons]
    split <;> exact List.cons_ne_nil _ _

/-- **A request has a plan exactly if it mentions nothing, or the catalog has a measure and the number of top rows
that the request asks for, if any, can be read and is not zero.** -/
theorem exists_ofRequest_iff (hc : c.Accepted) (request : String) :
    (∃ plan, ofRequest c request = .ok plan) ↔
      (Mentions c (lower request.toList) → c.entries ≠ [] ∧
        ∀ digits, FirstTop request.toList digits → digits.length ≤ digitLimit ∧ naturalOf digits ≠ 0) := by
  rw [ofRequest_eq, mentions_iff hc, ← measuresOf_ne_nil_iff hc (lower request.toList), ← exists_top?_iff]
  split_ifs with hnothing hmeasures
  · exact iff_of_true ⟨none, rfl⟩ fun h => absurd hnothing h
  · exact iff_of_false nofun fun h => (h hnothing).1 hmeasures
  rw [imp_iff_right hnothing, and_iff_right hmeasures]
  cases top? request with
  | error f => exact iff_of_false nofun nofun
  | ok limit =>
    simp only [Except.mapError, Except.bind]
    split_ifs with hzero
    · refine iff_of_false nofun ?_
      rintro ⟨_, ⟨⟩, hne⟩
      exact hne hzero
    · exact iff_of_true ⟨_, rfl⟩ ⟨limit, rfl, hzero⟩

/-- A catalog with a dimension and no measure. -/
def genreCatalog : Catalog where
  table := "books"
  fields := [{ name := "genre", physicalType := "VARCHAR", ingestType := "string", category := "categorical" }]
  dimensions := [{ source := "genre", aliasName := "Genre" }]

theorem accepted_genreCatalog : genreCatalog.Accepted := by
  decide

/-- A catalog with a dimension and a count of rows. -/
def booksCatalog : Catalog where
  table := "books"
  fields := genreCatalog.fields
  dimensions := genreCatalog.dimensions
  measures := [Draft.rowCount]

/-- A request with a number of top rows. -/
def booksRequest : String := "Row count of the tOp \t25 genres by genre"

theorem exists_ofRequest_iff_booksRequest :
    booksCatalog.Accepted ∧ Mentions booksCatalog (lower booksRequest.toList) ∧
      FirstTop booksRequest.toList ['2', '5'] ∧ ∃ plan, ofRequest booksCatalog booksRequest = .ok plan := by
  have haccepted : booksCatalog.Accepted := by decide
  have htop : (places booksRequest.toList).findSome? topAt? = some ['2', '5'] := by decide
  refine ⟨haccepted, (mentions_iff haccepted).mpr (by decide), findSome?_topAt?_eq_some_iff.mp htop, ?_⟩
  refine (exists_ofRequest_iff haccepted booksRequest).mpr fun _ => ⟨by decide, fun digits hdigits => ?_⟩
  rw [← findSome?_topAt?_eq_some_iff, htop] at hdigits
  obtain rfl : ['2', '5'] = digits := Option.some.inj hdigits
  decide

/-- A request that mentions a dimension of a catalog without measures has no plan. -/
theorem not_forall_exists_ofRequest :
    ¬ ∀ (c : Catalog) (request : String), c.Accepted → ∃ plan, ofRequest c request = .ok plan := by
  intro h
  obtain ⟨plan, hplan⟩ := h genreCatalog "genre" accepted_genreCatalog
  have hmeasures : measuresOf genreCatalog (lower "genre".toList) = [] := by
    have hnone : ordered (measureMentions genreCatalog (lower "genre".toList)) = [] :=
      ordered_eq_nil_iff.mpr (by decide)
    rw [measuresOf, hnone]
    rfl
  rw [ofRequest_eq, if_neg (by decide), if_pos hmeasures] at hplan
  cases hplan

end Plan

end MetricLayer
