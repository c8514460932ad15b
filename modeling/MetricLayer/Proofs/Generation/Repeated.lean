import MetricLayer.Proofs.Generation.Refusal
import MetricLayer.Proofs.Generation.Retry

/-!
# The reply to a retry

A retry gives its request back without the quotes at the ends, and quotes at the ends of a request do not
matter to a plan: they stay in lower case, what is mentioned lies between them, and every place moves by as
many of them as stand in front.  So the reply to a retry is the reply to its request, whatever the guidance
(`Plan.reply_retry`).
-/

namespace MetricLayer

open MetricLayer.Text

/-! ## Lower case between quotes -/

namespace Text

variable {a b cs before : List Char}

/-- A quote is passed over by no search for a letter with case, and has none. -/
theorem meetsCased_append_quotes (cs : List Char) (hb : ∀ c ∈ b, (c == '"') = true) :
    meetsCased (cs ++ b) = meetsCased cs := by
  induction cs with
  | nil =>
    cases b with
    | nil => rfl
    | cons c b =>
      obtain rfl : c = '"' := eq_of_beq (hb c List.mem_cons_self)
      have hignorable : inRanges ignorableRanges '"'.toNat = false := by decide +kernel
      have hcased : inRanges casedRanges '"'.toNat = false := by decide +kernel
      simp only [meetsCased, List.nil_append, List.dropWhile_cons, List.dropWhile_nil, hignorable,
        Bool.false_eq_true, if_false, hcased]
  | cons c cs ih =>
    by_cases hc : inRanges ignorableRanges c.toNat = true
    · simpa only [meetsCased, List.cons_append, List.dropWhile_cons, hc, if_true] using ih
    · simp only [meetsCased, List.cons_append, List.dropWhile_cons, hc, Bool.false_eq_true, if_false]

theorem lowerAfter_quotes_append (ha : ∀ c ∈ a, (c == '"') = true) (before cs : List Char) :
    lowerAfter before (a ++ cs) = a ++ lowerAfter (a.reverse ++ before) cs := by
  induction a generalizing before with
  | nil => rfl
  | cons c a ih =>
    obtain rfl : c = '"' := eq_of_beq (ha c List.mem_cons_self)
    have hquote : lowerChar '"' = ['"'] := by decide +kernel
    rw [List.cons_append, lowerAfter, if_neg (by decide), hquote,
      ih fun d hd => ha d (List.mem_cons_of_mem _ hd)]
    simp

/-- Quotes behind a text and in front of it leave its lower case as it is. -/
theorem lowerAfter_append_quotes (ha : ∀ c ∈ a, (c == '"') = true) (hb : ∀ c ∈ b, (c == '"') = true)
    (before cs : List Char) : lowerAfter (before ++ a) (cs ++ b) = lowerAfter before cs ++ b := by
  induction cs generalizing before with
  | nil =>
    have hquotes := lowerAfter_quotes_append hb (before ++ a) []
    rwa [List.append_nil, lowerAfter, List.append_nil] at hquotes
  | cons c cs ih =>
    rw [List.cons_append, lowerAfter, lowerAfter, meetsCased_append_quotes before ha,
      meetsCased_append_quotes cs hb, ← List.cons_append, ih, List.append_assoc]

theorem lower_between_quotes (ha : ∀ c ∈ a, (c == '"') = true) (hb : ∀ c ∈ b, (c == '"') = true)
    (cs : List Char) : lower (a ++ (cs ++ b)) = a ++ (lower cs ++ b) := by
  have hreverse : ∀ c ∈ a.reverse, (c == '"') = true := fun c hc => ha c (List.mem_reverse.mp hc)
  rw [lower, lowerAfter_quotes_append ha, List.append_nil, ← List.nil_append a.reverse,
    lowerAfter_append_quotes hreverse hb, lower]

theorem bare_lower_quote_iff : Bare (· == '"') (lower cs) ↔ Bare (· == '"') cs := by
  have hcaseless : Caseless ['"'.toNat] := by decide +kernel
  refine hcaseless.bare_lower_iff fun {c} => ?_
  rw [List.mem_singleton, Char.toNat_inj, beq_iff_eq]

end Text

namespace Plan

variable {c : Catalog} {a b text needle digits : List Char} {name : String} {names : List String} {n : Nat}

/-! ## Words between quotes -/

/-- A text holds another as whole words at an offset. -/
def WordsAt (text needle : List Char) (n : Nat) : Prop :=
  ∃ before after, text = before ++ (needle ++ after) ∧ before.length = n ∧
    (∀ c ∈ before.getLast?, isWord c = false) ∧ ∀ c ∈ after.head?, isWord c = false

theorem isWord_eq_false_of_quotes (ha : ∀ c ∈ a, (c == '"') = true) : ∀ c ∈ a, isWord c = false := by
  intro c hc
  rw [eq_of_beq (ha c hc)]
  decide

/-- Words that are bare of quotes stand between quotes where they stand without them. -/
theorem wordsAt_between_iff (ha : ∀ c ∈ a, (c == '"') = true) (hb : ∀ c ∈ b, (c == '"') = true)
    (hneedle : Bare (· == '"') needle) (hne : needle ≠ []) :
    WordsAt (a ++ (text ++ b)) needle n ↔ ∃ k, WordsAt text needle k ∧ a.length + k = n := by
  constructor
  · rintro ⟨before, after, htext, rfl, hbefore, hafter⟩
    obtain ⟨before, after, rfl, rfl, rfl⟩ := exists_of_between ha hb hneedle hne htext
    refine ⟨_, ⟨before, after, rfl, rfl, fun d hd => hbefore d ?_, fun d hd => hafter d ?_⟩,
      List.length_append.symm⟩
    · rw [List.getLast?_append, Option.mem_def.mp hd]
      rfl
    · rw [List.head?_append, Option.mem_def.mp hd]
      rfl
  · rintro ⟨_, ⟨before, after, rfl, rfl, hbefore, hafter⟩, rfl⟩
    refine ⟨a ++ before, after ++ b, by simp, List.length_append, fun d hd => ?_, fun d hd => ?_⟩
    · rcases List.eq_nil_or_concat' before with rfl | ⟨init, e, rfl⟩
      · exact isWord_eq_false_of_quotes ha d (List.mem_of_getLast? (by simpa using hd))
      · exact hbefore d (by simpa [← List.append_assoc] using hd)
    · cases after with
      | nil => exact isWord_eq_false_of_quotes hb d (List.mem_of_head? hd)
      | cons e after => exact hafter d hd

theorem mentionedAt_between_iff (ha : ∀ c ∈ a, (c == '"') = true) (hb : ∀ c ∈ b, (c == '"') = true)
    (hname : Bare (· == '"') name.toList) :
    MentionedAt (a ++ (text ++ b)) name n ↔ ∃ k, MentionedAt text name k ∧ a.length + k = n := by
  show name ≠ "" ∧ WordsAt _ _ n ↔ ∃ k, (name ≠ "" ∧ WordsAt _ _ k) ∧ _
  by_cases hempty : name = ""
  · exact iff_of_false (fun h => h.1 hempty) fun ⟨_, h, _⟩ => h.1 hempty
  · have hne : lower name.toList ≠ [] := by
      rw [ne_eq, lower_eq_nil_iff, ← String.toList_empty, String.toList_inj]
      exact hempty
    simp only [hempty, ne_eq, not_false_eq_true, true_and,
      wordsAt_between_iff ha hb (bare_lower_quote_iff.mpr hname) hne]

theorem firstMention?_between (ha : ∀ c ∈ a, (c == '"') = true) (hb : ∀ c ∈ b, (c == '"') = true)
    (hnames : ∀ name ∈ names, Bare (· == '"') name.toList) :
    firstMention? (a ++ (text ++ b)) names = (firstMention? text names).map (a.length + ·) := by
  have hmentions (n : Nat) : MentionsAt (a ++ (text ++ b)) names n ↔
      ∃ k, MentionsAt text names k ∧ a.length + k = n := by
    constructor
    · rintro ⟨name, hname, h⟩
      obtain ⟨k, hk, hn⟩ := (mentionedAt_between_iff ha hb (hnames name hname)).mp h
      exact ⟨k, ⟨name, hname, hk⟩, hn⟩
    · rintro ⟨k, ⟨name, hname, hk⟩, hn⟩
      exact ⟨name, hname, (mentionedAt_between_iff ha hb (hnames name hname)).mpr ⟨k, hk, hn⟩⟩
  cases hfirst : firstMention? text names with
  | some k =>
    obtain ⟨hk, hleast⟩ := firstMention?_eq_some_iff.mp hfirst
    refine firstMention?_eq_some_iff.mpr ⟨(hmentions _).mpr ⟨k, hk, rfl⟩, fun m hm => ?_⟩
    obtain ⟨j, hj, rfl⟩ := (hmentions m).mp hm
    exact Nat.add_le_add_left (hleast hj) _
  | none =>
    rw [Option.map_none, Option.eq_none_iff_forall_not_mem]
    intro m hm
    obtain ⟨k, hk, -⟩ := (hmentions m).mp (firstMention?_eq_some_iff.mp hm).1
    obtain ⟨j, hj⟩ := exists_firstMentionAt ⟨k, hk⟩
    rw [firstMention?_eq_some_iff.mpr hj] at hfirst
    cases hfirst

/-! ## The number of top rows -/

theorem topAt_iff : TopAt text digits n ↔ ∃ word gap, WordsAt text (word ++ (gap ++ digits)) n ∧
    word.map fold = "top".toList ∧ (gap ≠ [] ∧ ∀ c ∈ gap, isBlank c) ∧ digits ≠ [] ∧ ∀ c ∈ digits, isDigit c := by
  constructor
  · rintro ⟨before, word, gap, after, rfl, hlength, hbefore, hword, hgap, hdigits, hafter⟩
    exact ⟨word, gap, ⟨before, after, by simp, hlength, hbefore, hafter⟩, hword, hgap, hdigits⟩
  · rintro ⟨word, gap, ⟨before, after, rfl, hlength, hbefore, hafter⟩, hword, hgap, hdigits⟩
    exact ⟨before, word, gap, after, by simp, hlength, hbefore, hword, hgap, hdigits, hafter⟩

/-- The word top and a number have a letter and a digit at their ends. -/
theorem bare_top {word gap : List Char} (hword : word.map fold = "top".toList) (hne : digits ≠ [])
    (hdigits : ∀ c ∈ digits, isDigit c) : Bare (· == '"') (word ++ (gap ++ digits)) := by
  constructor
  · obtain ⟨d, ds, rfl⟩ : ∃ d ds, word = d :: ds := List.exists_cons_of_ne_nil (by rintro rfl; cases hword)
    rintro e he
    obtain rfl : d = e := Option.some.inj he
    have hfold : fold d = 't' := (List.cons.inj hword).1
    by_contra hquote
    rw [eq_of_beq (eq_true_of_ne_false hquote)] at hfold
    revert hfold
    decide
  · obtain ⟨init, d, rfl⟩ := (List.eq_nil_or_concat' digits).resolve_left hne
    rintro e he
    rw [← List.append_assoc, ← List.append_assoc, List.getLast?_concat] at he
    obtain rfl : d = e := Option.some.inj he
    by_contra hquote
    have hdigit := hdigits d (by simp)
    rw [eq_of_beq (eq_true_of_ne_false hquote)] at hdigit
    revert hdigit
    decide

theorem firstTop_between_iff (ha : ∀ c ∈ a, (c == '"') = true) (hb : ∀ c ∈ b, (c == '"') = true) :
    FirstTop (a ++ (text ++ b)) digits ↔ FirstTop text digits := by
  have htop (digits : List Char) (n : Nat) : TopAt (a ++ (text ++ b)) digits n ↔
      ∃ k, TopAt text digits k ∧ a.length + k = n := by
    simp only [topAt_iff]
    constructor
    · rintro ⟨word, gap, h, hword, hgap, hne, hdigits⟩
      obtain ⟨k, hk, hn⟩ := (wordsAt_between_iff ha hb (bare_top hword hne hdigits) (by simp [hne])).mp h
      exact ⟨k, ⟨word, gap, hk, hword, hgap, hne, hdigits⟩, hn⟩
    · rintro ⟨k, ⟨word, gap, hk, hword, hgap, hne, hdigits⟩, hn⟩
      exact ⟨word, gap, (wordsAt_between_iff ha hb (bare_top hword hne hdigits) (by simp [hne])).mpr ⟨k, hk, hn⟩,
        hword, hgap, hne, hdigits⟩
  constructor
  · rintro ⟨n, hn, hleast⟩
    obtain ⟨k, hk, rfl⟩ := (htop digits n).mp hn
    exact ⟨k, hk, fun others j hj => Nat.le_of_add_le_add_left (hleast others _ ((htop others _).mpr ⟨j, hj, rfl⟩))⟩
  · rintro ⟨k, hk, hleast⟩
    refine ⟨_, (htop digits _).mpr ⟨k, hk, rfl⟩, fun others m hm => ?_⟩
    obtain ⟨j, hj, rfl⟩ := (htop others m).mp hm
    exact Nat.add_le_add_left (hleast others j hj) _

theorem top?_between (ha : ∀ c ∈ a, (c == '"') = true) (hb : ∀ c ∈ b, (c == '"') = true) :
    top? (String.ofList (a ++ (text ++ b))) = top? (String.ofList text) := by
  have hfind : (places (a ++ (text ++ b))).findSome? topAt? = (places text).findSome? topAt? := by
    ext digits
    rw [findSome?_topAt?_eq_some_iff, findSome?_topAt?_eq_some_iff, firstTop_between_iff ha hb]
  rw [top?, top?, String.toList_ofList, String.toList_ofList, hfind]

/-! ## Plans -/

end Plan

/-- No alias, and no source of a dimension or a measure, starts or ends in a quote. -/
structure Catalog.Unquoted (c : Catalog) : Prop where
  dimensions : ∀ d ∈ c.dimensions, Bare (· == '"') d.aliasName.toList ∧ Bare (· == '"') d.source.toList
  entries : ∀ e ∈ c.entries, Bare (· == '"') e.aliasName.toList
  measures : ∀ m ∈ c.measures, Bare (· == '"') m.source.toList

namespace Plan

variable {c : Catalog} {a b text : List Char} {name : String}

theorem bare_spaced (h : Bare (· == '"') name.toList) : Bare (· == '"') (spaced name).toList := by
  have hspace (d : Char) : ((if d = '_' then ' ' else d) == '"') = (d == '"') := by
    split
    next hd => subst hd; decide
    next => rfl
  rw [spaced, toList_within]
  constructor
  · intro d hd
    rw [List.head?_map] at hd
    obtain ⟨e, he, rfl⟩ := Option.map_eq_some_iff.mp hd
    exact (hspace e).trans (h.1 e he)
  · intro d hd
    rw [List.getLast?_map] at hd
    obtain ⟨e, he, rfl⟩ := Option.map_eq_some_iff.mp hd
    exact (hspace e).trans (h.2 e he)

/-- The mention a number of characters further on. -/
def Mention.shift (n : Nat) (m : Mention) : Mention :=
  ⟨n + m.offset, m.name⟩

theorem ordered_map_shift (n : Nat) (mentions : List Mention) :
    ordered (mentions.map (Mention.shift n)) = ordered mentions := by
  have hle (m m' : Mention) : m.le m' = (m.shift n).le (m'.shift n) := by
    rw [Bool.eq_iff_iff, Mention.le_iff, Mention.le_iff]
    simp [Mention.shift]
  rw [ordered, ordered, ← List.map_mergeSort fun m _ m' _ => hle m m', List.map_map]
  rfl

section quotes

variable (ha : ∀ c ∈ a, (c == '"') = true) (hb : ∀ c ∈ b, (c == '"') = true)
include ha hb

theorem dimensionMentions_between (hc : c.Unquoted) :
    dimensionMentions c (a ++ (text ++ b)) = (dimensionMentions c text).map (Mention.shift a.length) := by
  rw [dimensionMentions, dimensionMentions, List.map_filterMap]
  refine List.filterMap_congr fun d hd => ?_
  obtain ⟨halias, hsource⟩ := hc.dimensions d (mem_of_mem_firstByAlias hd)
  rw [firstMention?_between ha hb (by simpa using ⟨halias, hsource, bare_spaced hsource⟩)]
  simp only [Option.map_map]
  rfl

theorem firstMention?_spellings_between (hname : Bare (· == '"') name.toList) :
    firstMention? (a ++ (text ++ b)) [name, spaced name] =
      (firstMention? text [name, spaced name]).map (a.length + ·) :=
  firstMention?_between ha hb (by simpa using ⟨hname, bare_spaced hname⟩)

theorem entryMentions_between (hc : c.Unquoted) :
    entryMentions c (a ++ (text ++ b)) =
      (entryMentions c text).map fun m => (m.1.shift a.length, m.2) := by
  rw [entryMentions, entryMentions, List.map_filterMap]
  refine List.filterMap_congr fun e he => ?_
  rw [firstMention?_spellings_between ha hb (hc.entries e (mem_of_mem_firstByAlias he))]
  simp only [Option.map_map]
  rfl

theorem sourceMentions_between (hc : c.Unquoted) (known : List String) :
    sourceMentions c (a ++ (text ++ b)) known =
      (sourceMentions c text known).map (Mention.shift a.length) := by
  rw [sourceMentions, sourceMentions, List.map_filterMap]
  refine List.filterMap_congr fun m hm => ?_
  split
  next => rfl
  next =>
    rw [firstMention?_spellings_between ha hb (hc.measures m hm)]
    simp only [Option.map_map, Option.map_bind, Function.comp_def]
    rfl

theorem measureMentions_between (hc : c.Unquoted) :
    measureMentions c (a ++ (text ++ b)) = (measureMentions c text).map (Mention.shift a.length) := by
  simp only [measureMentions, entryMentions_between ha hb hc, sourceMentions_between ha hb hc, List.map_append,
    List.map_map, Function.comp_def]

/-- Quotes at the ends of a request do not matter to its plan. -/
theorem ofRequest_between (hc : c.Unquoted) :
    ofRequest c (String.ofList (a ++ (text ++ b))) = ofRequest c (String.ofList text) := by
  have hmeasures : measuresOf c (a ++ (lower text ++ b)) = measuresOf c (lower text) := by
    rw [measuresOf, measuresOf, measureMentions_between ha hb hc, ordered_map_shift]
  have hselection : selectionOf c (a ++ (lower text ++ b)) = selectionOf c (lower text) := by
    funext limit
    rw [selectionOf, selectionOf, hmeasures, dimensionMentions_between ha hb hc, ordered_map_shift]
  simp only [ofRequest_eq, String.toList_ofList, lower_between_quotes ha hb, hmeasures, hselection,
    top?_between ha hb, dimensionMentions_between ha hb hc, measureMentions_between ha hb hc,
    List.map_eq_nil_iff]

end quotes

/-- **The reply to a retry is the reply to its request, whatever the guidance.** -/
theorem reply_retry (hc : c.Unquoted) (guidance : String) {request : String}
    (hmark : ¬ Prompt.requestMark.toList <:+: request.toList) :
    reply c (Prompt.retry guidance request) = reply c request := by
  obtain ⟨a, b, hrequest, ha, hb⟩ := exists_dropBothWhile (· == '"') request.toList
  have hself : Prompt.requestIn request = request := by
    rw [Prompt.requestIn, afterLast?_eq_none_iff.mpr hmark]
  have hplan : ofRequest c (Prompt.requestIn (Prompt.retry guidance request)) = ofRequest c request := by
    rw [Prompt.requestIn_retry hmark, ← ofRequest_between ha hb hc, ← List.append_assoc, ← hrequest,
      String.ofList_toList]
  rw [reply, reply, hplan, hself]

/-- A request in quotes, with guidance that has the mark, a number of top rows and an alias of the catalog. -/
theorem reply_retry_booksCatalog :
    booksCatalog.Unquoted ∧ ¬ Prompt.requestMark.toList <:+: "\"Row count by genre\"".toList ∧
      (dimensionMentions booksCatalog (lower "\"Row count by genre\"".toList)).map Mention.name = ["Genre"] ∧
      reply booksCatalog (Prompt.retry "ORIGINAL REQUEST: top 5 \"Genre" "\"Row count by genre\"") =
        reply booksCatalog "\"Row count by genre\"" := by
  have hc : booksCatalog.Unquoted := ⟨by decide, by decide, by decide⟩
  have hmark : ¬ Prompt.requestMark.toList <:+: "\"Row count by genre\"".toList := by decide
  exact ⟨hc, hmark, by decide, reply_retry hc _ hmark⟩

end Plan

end MetricLayer
