import MetricLayer.Proofs.Catalog.Source
import MetricLayer.Proofs.Generation.Mention
import MetricLayer.Proofs.Generation.Plan

/-!
# Plans have all that is mentioned

A plan has exactly the dimensions that its request mentions, in the order of their first mentions, and every
measure that is mentioned by alias; of a measure that is mentioned by source it has an entry.  No alias is
repeated (`Plan.complete_of_ofRequest`).  A source is passed over when an entry of it is mentioned by alias;
that this entry is one of the measure with the source is how catalogs are built (`Catalog.Sourced`).
-/

namespace MetricLayer

open MetricLayer.Text

namespace Plan

/-- A dimension is mentioned before another one: at an earlier place, or at the same one with the lesser alias. -/
def MentionedBefore (c : Catalog) (text : List Char) (a b : String) : Prop :=
  ∃ d ∈ c.dimensions, ∃ e ∈ c.dimensions, d.aliasName = a ∧ e.aliasName = b ∧
    ∃ m n, FirstMentionAt text (dimensionNames d) m ∧ FirstMentionAt text (dimensionNames e) n ∧
      (m < n ∨ m = n ∧ a ≤ b)

/-- A selection has all that a text mentions, in order and without repeats. -/
structure Complete (c : Catalog) (text : List Char) (s : Selection) : Prop where
  dimensions : ∀ n, n ∈ s.dimensions ↔
    ∃ d ∈ c.dimensions, d.aliasName = n ∧ ∃ k, MentionsAt text (dimensionNames d) k
  sorted : s.dimensions.Pairwise (MentionedBefore c text)
  measures_ne_nil : s.measures ≠ []
  aliases : ∀ e ∈ c.entries, (∃ k, MentionsAt text (spellings e.aliasName) k) → e.aliasName ∈ s.measures
  sources : ∀ m ∈ c.measures, m.source ≠ rowSource → m.entries ≠ [] →
    (∃ k, MentionsAt text (spellings m.source) k) → ∃ e ∈ m.entries, e.aliasName ∈ s.measures
  nodup_dimensions : s.dimensions.Nodup
  nodup_measures : s.measures.Nodup
  resolved_dimensions : ∀ n ∈ s.dimensions, ∃ d ∈ c.dimensions, d.aliasName = n ∧ c.dimension? n = some d
  resolved_measures : ∀ n ∈ s.measures, ∃ e ∈ c.entries, e.aliasName = n ∧ c.entry? n = some e
  ordering : s.ordering = [] ∧ s.limit = none ∨
    ∃ m ms n, s.measures = m :: ms ∧ s.ordering = [.text (m ++ " DESC")] ∧ s.limit = some n

variable {c : Catalog} {text : List Char} {request : String} {s : Selection} {known : List String}

/-! ## Dimensions -/

theorem mem_ordered_dimensionMentions_iff (hc : c.Accepted) {n : String} :
    n ∈ ordered (dimensionMentions c text) ↔
      ∃ d ∈ c.dimensions, d.aliasName = n ∧ ∃ k, MentionsAt text (dimensionNames d) k := by
  rw [mem_ordered]
  constructor
  · rintro ⟨m, hm, rfl⟩
    obtain ⟨d, hd, hname, hfirst⟩ := (mem_dimensionMentions_iff hc).mp hm
    exact ⟨d, hd, hname, m.offset, hfirst.1⟩
  · rintro ⟨d, hd, rfl, hmentioned⟩
    obtain ⟨n, hn⟩ := exists_firstMentionAt hmentioned
    exact ⟨⟨n, d.aliasName⟩, (mem_dimensionMentions_iff hc).mpr ⟨d, hd, rfl, hn⟩, rfl⟩

theorem pairwise_ordered_dimensionMentions (hc : c.Accepted) :
    (ordered (dimensionMentions c text)).Pairwise (MentionedBefore c text) := by
  rw [ordered, List.pairwise_map]
  refine (pairwise_mergeSort_mentions _).imp_of_mem fun {a b} ha hb hle => ?_
  rw [List.mem_mergeSort, mem_dimensionMentions_iff hc] at ha hb
  obtain ⟨d, hd, hdname, hdfirst⟩ := ha
  obtain ⟨e, he, hename, hefirst⟩ := hb
  exact ⟨d, hd, e, he, hdname, hename, a.offset, b.offset, hdfirst, hefirst, Mention.le_iff.mp hle⟩

/-- What is made of items, each from one of its names, has its names among theirs. -/
theorem map_name_filterMap_sublist {α : Type} {namesOf : α → List String} {g : α → Option Mention}
    (hg : ∀ a m, g a = some m → m.name ∈ namesOf a) (as : List α) :
    ((as.filterMap g).map Mention.name).Sublist (as.flatMap namesOf) := by
  induction as with
  | nil => exact List.Sublist.refl []
  | cons a as ih =>
    rw [List.flatMap_cons]
    cases ha : g a with
    | none =>
      rw [List.filterMap_cons_none ha]
      exact ih.trans (List.sublist_append_right _ _)
    | some m =>
      rw [List.filterMap_cons_some ha, List.map_cons]
      exact (List.singleton_sublist.mpr (hg a m ha)).append ih

theorem nodup_dimensionMentions (hc : c.Accepted) : ((dimensionMentions c text).map Mention.name).Nodup := by
  have hsublist : ((dimensionMentions c text).map Mention.name).Sublist (c.dimensions.map Dimension.aliasName) := by
    rw [dimensionMentions, hc.namedDimensions_eq, List.map_eq_flatMap (l := c.dimensions)]
    refine map_name_filterMap_sublist (fun d m hm => ?_) _
    obtain ⟨n, -, rfl⟩ := Option.map_eq_some_iff.mp hm
    exact List.mem_cons_self
  exact hc.nodup_dimensionAliases.sublist hsublist

/-! ## Measures -/

theorem mem_measuresOf {m : Mention} (h : m ∈ measureMentions c text) : m.name ∈ measuresOf c text := by
  rw [measuresOf]
  split
  next hnil =>
    rw [ordered_eq_nil_iff] at hnil
    rw [hnil] at h
    cases h
  next hordered =>
    rw [← hordered, mem_ordered]
    exact ⟨m, h, rfl⟩

/-- An entry that is mentioned by alias is measured. -/
theorem aliasName_mem_measuresOf (hc : c.Accepted) {e : Entry} (he : e ∈ c.entries)
    (h : ∃ k, MentionsAt text (spellings e.aliasName) k) : e.aliasName ∈ measuresOf c text := by
  obtain ⟨n, hn⟩ := exists_firstMentionAt h
  have hmem : ((⟨n, e.aliasName⟩ : Mention), e) ∈ entryMentions c text :=
    (mem_entryMentions_iff hc).mpr ⟨he, rfl, hn⟩
  exact mem_measuresOf (List.mem_append_left _ (List.mem_map.mpr ⟨_, hmem, rfl⟩))

/-- The sources that are passed over, each one of an entry that is mentioned by alias. -/
theorem mem_known_iff (hc : c.Accepted) {source : String} :
    source ∈ (entryMentions c text).map (fun m => m.2.source) ↔
      ∃ e ∈ c.entries, e.source = source ∧ ∃ k, FirstMentionAt text (spellings e.aliasName) k := by
  rw [List.mem_map]
  constructor
  · rintro ⟨⟨m, e⟩, hmem, rfl⟩
    obtain ⟨he, -, hfirst⟩ := (mem_entryMentions_iff hc).mp hmem
    exact ⟨e, he, rfl, m.offset, hfirst⟩
  · rintro ⟨e, he, rfl, k, hfirst⟩
    exact ⟨(⟨k, e.aliasName⟩, e), (mem_entryMentions_iff hc).mpr ⟨he, rfl, hfirst⟩, rfl⟩

/-- Of a measure that is mentioned by source an entry is measured: the first one, unless another is mentioned by
alias. -/
theorem exists_mem_measuresOf (hc : c.Accepted) (hs : c.Sourced) {m : Measure} (hm : m ∈ c.measures)
    (hrows : m.source ≠ rowSource) (hentries : m.entries ≠ [])
    (h : ∃ k, MentionsAt text (spellings m.source) k) : ∃ e ∈ m.entries, e.aliasName ∈ measuresOf c text := by
  by_cases hknown : m.source ∈ (entryMentions c text).map fun m => m.2.source
  · obtain ⟨e, he, hsource, k, hfirst⟩ := (mem_known_iff hc).mp hknown
    exact ⟨e, hs.mem_entries hm he hsource, aliasName_mem_measuresOf hc he ⟨k, hfirst.1⟩⟩
  · obtain ⟨e, es, hcons⟩ := List.exists_cons_of_ne_nil hentries
    obtain ⟨n, hn⟩ := exists_firstMentionAt h
    have hmem : (⟨n, e.aliasName⟩ : Mention) ∈
        sourceMentions c text ((entryMentions c text).map fun m => m.2.source) :=
      mem_sourceMentions_iff.mpr ⟨m, hm, ⟨hknown, hrows⟩, e, by rw [hcons]; rfl, rfl, hn⟩
    refine ⟨e, by rw [hcons]; exact List.mem_cons_self, ?_⟩
    exact mem_measuresOf (List.mem_append_right _ hmem)

theorem nodup_entryMentions (hc : c.Accepted) :
    (((entryMentions c text).map Prod.fst).map Mention.name).Nodup := by
  have hsublist : (((entryMentions c text).map Prod.fst).map Mention.name).Sublist
      (c.entries.map Entry.aliasName) := by
    rw [entryMentions, hc.namedEntries_eq, List.map_filterMap, List.map_eq_flatMap (l := c.entries)]
    refine map_name_filterMap_sublist (fun e m hm => ?_) _
    obtain ⟨⟨m', e'⟩, he, rfl⟩ := Option.map_eq_some_iff.mp hm
    obtain ⟨n, -, heq⟩ := Option.map_eq_some_iff.mp he
    cases heq
    exact List.mem_cons_self
  exact hc.nodup_measureAliases.sublist hsublist

theorem nodup_sourceMentions (hc : c.Accepted) : ((sourceMentions c text known).map Mention.name).Nodup := by
  have hsublist : ((sourceMentions c text known).map Mention.name).Sublist
      (c.measures.flatMap fun m => m.entries.map Entry.aliasName) := by
    refine map_name_filterMap_sublist (fun m n hn => ?_) _
    split at hn
    next => cases hn
    next =>
      obtain ⟨e, he, hn⟩ := Option.bind_eq_some_iff.mp hn
      obtain ⟨k, -, rfl⟩ := Option.map_eq_some_iff.mp hn
      exact List.mem_map_of_mem (List.mem_of_head? he)
  rw [← List.map_flatMap] at hsublist
  exact hc.nodup_measureAliases.sublist hsublist

/-- No measure is mentioned twice: a source is passed over when one of its entries is mentioned by alias. -/
theorem nodup_measureMentions (hc : c.Accepted) (hs : c.Sourced) :
    ((measureMentions c text).map Mention.name).Nodup := by
  rw [measureMentions, List.map_append, List.nodup_append]
  refine ⟨nodup_entryMentions hc, nodup_sourceMentions hc, fun a ha b hb hab => ?_⟩
  obtain ⟨m, hm, rfl⟩ := List.mem_map.mp ha
  obtain ⟨⟨m, e⟩, hmem, rfl⟩ := List.mem_map.mp hm
  obtain ⟨he, hname, hfirst⟩ := (mem_entryMentions_iff hc).mp hmem
  obtain ⟨n, hn, rfl⟩ := List.mem_map.mp hb
  obtain ⟨measure, hmeasure, ⟨hunknown, -⟩, first, hhead, hfirstname, -⟩ := mem_sourceMentions_iff.mp hn
  have hin : first ∈ measure.entries := List.mem_of_head? hhead
  have hsame : e = first := by
    have hlookup := hc.entry?_aliasName (List.mem_flatMap.mpr ⟨measure, hmeasure, hin⟩)
    rw [hfirstname, ← hab, ← hname, hc.entry?_aliasName he] at hlookup
    exact Option.some.inj hlookup
  refine hunknown ((mem_known_iff hc).mpr ⟨e, he, ?_, m.offset, hfirst⟩)
  rw [hsame]
  exact hs.own measure hmeasure first hin

theorem nodup_measuresOf (hc : c.Accepted) (hs : c.Sourced) : (measuresOf c text).Nodup := by
  rw [measuresOf]
  split
  next =>
    refine List.Nodup.sublist (List.take_sublist _ _) ?_
    rw [hc.unambiguous.measureAliases]
    exact hc.nodup_measureAliases
  next hordered =>
    rw [← hordered]
    exact nodup_ordered (nodup_measureMentions hc hs)

/-! ## Plans -/

/-- **A plan has exactly the dimensions that are mentioned, in the order of their mentions, and every measure that
is mentioned by alias or source, all without repeats.** -/
theorem complete_of_ofRequest (hc : c.Accepted) (hbuilt : c.Built)
    (haliases : ∀ n ∈ c.declaredAliases, Trimmed n.toList ∧ n ≠ "")
    (h : ofRequest c request = .ok (some s)) : Complete c (lower request.toList) s := by
  obtain ⟨hne, limit, -, rfl⟩ := of_ofRequest h
  obtain ⟨hdimensions, hmeasures⟩ := selectionOf_eq haliases (lower request.toList) limit
  constructor
  case dimensions =>
    rw [hdimensions]
    exact fun n => mem_ordered_dimensionMentions_iff hc
  case sorted =>
    rw [hdimensions]
    exact pairwise_ordered_dimensionMentions hc
  case measures_ne_nil =>
    rw [hmeasures]
    exact hne
  case aliases =>
    rw [hmeasures]
    exact fun e he => aliasName_mem_measuresOf hc he
  case sources =>
    rw [hmeasures]
    exact fun m hm => exists_mem_measuresOf hc hbuilt.sourced hm
  case nodup_dimensions =>
    rw [hdimensions]
    exact nodup_ordered (nodup_dimensionMentions hc)
  case nodup_measures =>
    rw [hmeasures]
    exact nodup_measuresOf hc hbuilt.sourced
  case resolved_dimensions =>
    rw [hdimensions]
    intro n hn
    obtain ⟨d, hd, rfl⟩ := exists_of_mem_ordered_dimensionMentions hn
    exact ⟨d, hd, rfl, hc.dimension?_aliasName hd⟩
  case resolved_measures =>
    rw [hmeasures]
    intro n hn
    obtain ⟨e, he, rfl⟩ := exists_of_mem_measuresOf hn
    exact ⟨e, he, rfl, hc.entry?_aliasName he⟩
  case ordering =>
    rw [hmeasures]
    exact ordering_selectionOf hne limit

/-- A feed with two entries on one column. -/
def visitsFeed : Value :=
  .object [("table", .text "visits"),
    ("fields", .object [("view_day", .object [("ingest_data_type", .text "date")]), ("kind", .object []),
      ("page_views", .object [("ingest_data_type", .text "int"), ("data_type_category", .text "numerical")]),
      ("price", .object [("ingest_data_type", .text "decimal"), ("data_type_category", .text "numerical")])]),
    ("dimensions", .object [("kind", .object [("alias_name", .text "Kind")]),
      ("view_day", .object [("alias_name", .text "Day")])]),
    ("measures", .object [
      ("page_views", .object [("aggregations", .list [.object [("max", .object [("alias", .text "most_views")])],
        .object [("sum", .object [("alias", .text "total_views")])]])]),
      ("price", .object [("aggregations", .list [.object [("avg", .object [])]])])])]

/-- The catalog of the feed. -/
def visitsCatalog : Catalog where
  table := "visits"
  fields :=
    [{ name := "view_day", physicalType := "VARCHAR", ingestType := "timestamp", category := "categorical" },
     { name := "kind", physicalType := "VARCHAR", ingestType := "string", category := "categorical" },
     { name := "page_views", physicalType := "VARCHAR", ingestType := "number", category := "numerical" },
     { name := "price", physicalType := "VARCHAR", ingestType := "number", category := "numerical" }]
  dimensions := [{ source := "kind", aliasName := "Kind" }, { source := "view_day", aliasName := "Day" }]
  measures :=
    [{ source := "page_views"
       aggregations := [{ aliasName := "most_views", function := "max", source := "page_views" },
         { aliasName := "total_views", function := "sum", source := "page_views" }] },
     { source := "price", aggregations := [{ aliasName := "avg_price", function := "avg", source := "price" }] }]

theorem built_visitsCatalog : visitsCatalog.Built := by
  have hkeys : visitsFeed.HasDistinctKeys := by simp [visitsFeed]
  exact .feed hkeys rfl

/-- A request that mentions an entry by alias and the columns of both measures. -/
def visitsRequest : String := "Top 3 total views, page views and price by view day and kind"

theorem ordered_pair (a b : Mention) :
    ordered [a, b] = if a.le b then [a.name, b.name] else [b.name, a.name] := by
  cases h : a.le b <;> simp [ordered, List.mergeSort, List.MergeSort.Internal.splitInTwo, h]

/-- What the request is planned as. -/
def visitsSelection : Selection where
  dimensions := ["Day", "Kind"]
  measures := ["total_views", "avg_price"]
  ordering := [.text "total_views DESC"]
  limit := some 3

theorem ofRequest_visitsRequest : ofRequest visitsCatalog visitsRequest = .ok (some visitsSelection) := by
  have hdimensions : dimensionMentions visitsCatalog (lower visitsRequest.toList) =
      [⟨56, "Kind"⟩, ⟨43, "Day"⟩] := by
    decide
  have hmeasures : measureMentions visitsCatalog (lower visitsRequest.toList) =
      [⟨6, "total_views"⟩, ⟨34, "avg_price"⟩] := by
    decide
  have htop : top? visitsRequest = .ok (some 3) := by decide
  have hordered : ordered [⟨56, "Kind"⟩, ⟨43, "Day"⟩] = ["Day", "Kind"] := ordered_pair _ _
  have hmeasured : measuresOf visitsCatalog (lower visitsRequest.toList) = ["total_views", "avg_price"] := by
    have hsorted : ordered [⟨6, "total_views"⟩, ⟨34, "avg_price"⟩] = ["total_views", "avg_price"] := ordered_pair _ _
    rw [measuresOf, hmeasures, hsorted]
  have hselection : selectionOf visitsCatalog (lower visitsRequest.toList) (some 3) = visitsSelection := by
    simp only [selectionOf, hdimensions, hordered, hmeasured]
    rfl
  rw [ofRequest_eq, hdimensions, hmeasured, htop, ← hselection]
  rfl

theorem complete_visitsSelection :
    visitsCatalog.Accepted ∧ visitsCatalog.Built ∧
      (∀ n ∈ visitsCatalog.declaredAliases, Trimmed n.toList ∧ n ≠ "") ∧
      ofRequest visitsCatalog visitsRequest = .ok (some visitsSelection) ∧
      Complete visitsCatalog (lower visitsRequest.toList) visitsSelection := by
  have haccepted : visitsCatalog.Accepted := by decide
  have haliases : ∀ n ∈ visitsCatalog.declaredAliases, Trimmed n.toList ∧ n ≠ "" := by decide
  exact ⟨haccepted, built_visitsCatalog, haliases, ofRequest_visitsRequest,
    complete_of_ofRequest haccepted built_visitsCatalog haliases ofRequest_visitsRequest⟩

end Plan

end MetricLayer
