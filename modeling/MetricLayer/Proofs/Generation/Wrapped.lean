import MetricLayer.Proofs.Generation.Fence
import MetricLayer.Proofs.Value.Json

/-!
# Statements in their wrappings

A reply may give a statement as it is or with a semicolon, in a code fence, or as the entry of a JSON object,
in a fence or not, and each time with prose before it (`Wrapping`).  The same statement is taken out of all of
them (`statement_of_wrapping`).
-/

namespace MetricLayer.Reply

open MetricLayer.Text MetricLayer.Sql

variable {cs pre post gap tail tag body object rest : List Char}

/-! ## Prose in front -/

/-- Prose that a statement can stand behind: it opens nothing, has no SELECT in capitals as a word, and does
not run on into the statement. -/
structure Prose (pre : List Char) : Prop where
  unmarked : Unmarked pre
  noSelect : ∀ a b, pre = a ++ ("SELECT".toList ++ b) → wordStart a.getLast? → endsWord b = false
  ends : wordStart pre.getLast?

/-- Prose does not end in a word, nor in a part of one. -/
theorem Prose.not_isSuffix (h : Prose pre) {w : List Char} (hw : ∀ c ∈ w, isWord c) (hne : w ≠ []) :
    ¬ w <:+ pre := by
  rintro ⟨a, rfl⟩
  have hends := h.ends
  rw [List.getLast?_append_of_ne_nil a hne, List.getLast?_eq_some_getLast hne, wordStart, Option.any_some,
    hw _ (List.getLast_mem hne)] at hends
  cases hends

/-- No SELECT in capitals starts in prose, not even one that ends behind it. -/
theorem Prose.isUpperSelect_eq_false (h : Prose pre) {a b : List Char} {c : Char} (hpre : pre = a ++ c :: b)
    (n : Nat) : isUpperSelect ⟨n, a.getLast?, c :: b ++ ("SELECT".toList ++ rest)⟩ = false := by
  rw [← Bool.not_eq_true]
  intro hselect
  obtain ⟨hstart, hany⟩ := Bool.and_eq_true_iff.mp hselect
  obtain ⟨more, hmore, hends⟩ := Option.any_eq_true _ _ |>.mp hany
  have heq := List.isPrefixOf?_eq_some_iff_append_eq.mp hmore
  have hletters : ∀ d ∈ "SELECT".toList, isWord d := by decide
  rcases List.append_eq_append_iff.mp heq with ⟨k, hk, rfl⟩ | ⟨k, hk, -⟩
  · -- the word lies in the prose, which neither ends in it nor has it as a whole word
    by_cases hnil : k = []
    · rw [hnil, List.append_nil] at hk
      exact h.not_isSuffix hletters (by decide) ⟨a, by rw [hpre, hk]⟩
    · rw [endsWord_append hnil, h.noSelect a k (by rw [hpre, hk]) hstart] at hends
      cases hends
  · -- the word runs on behind the prose, which would then end in a letter
    refine h.not_isSuffix (w := c :: b) (fun d hd => hletters d ?_) (List.cons_ne_nil c b) ⟨a, hpre.symm⟩
    rw [hk]
    exact List.mem_append_left k hd

/-- Behind prose a SELECT in capitals is the first one. -/
theorem Prose.fromSelect?_append (h : Prose pre) (hrest : endsWord rest) :
    fromSelect? (pre ++ ("SELECT".toList ++ rest)) = some ("SELECT".toList ++ rest) :=
  fromSelect?_of_forall (fun _ _ _ hpre => h.isUpperSelect_eq_false hpre _) h.ends hrest

/-- A statement is found behind prose. -/
theorem Prose.fromSelect?_extractable (h : Prose pre) (hcs : Extractable cs) (hrest : endsWord rest) :
    fromSelect? (pre ++ (cs ++ rest)) = some (cs ++ rest) := by
  obtain ⟨more, rfl, hends⟩ := hcs.starts
  rw [List.append_assoc]
  apply h.fromSelect?_append
  by_cases hnil : more = []
  · rwa [hnil]
  · rwa [endsWord_append hnil]

/-! ## JSON objects -/

/-- A text of one JSON object with the statement. -/
theorem jsonSql?_object (hcs : cs ≠ []) (hobject : Json.WritesEntry "sql".toList cs object)
    (hpre : '\x7b' ∉ pre) (hpost : '\x7d' ∉ post) : jsonSql? (pre ++ (object ++ post)) = .ok (some cs) := by
  have hbraced : braced (pre ++ (object ++ post)) = object := by
    obtain ⟨inner, rfl⟩ := hobject.exists_inner
    simpa using braced_between hpre hpost inner
  have hne : String.ofList cs ≠ "" := by
    simpa using hcs
  rw [jsonSql?, hbraced, Json.read_object hobject]
  show (Except.ok (if String.ofList cs = "" then none else some (String.ofList cs).toList) :
    Except Json.Limit (Option (List Char))) = _
  rw [if_neg hne, String.toList_ofList]

/-! ## What is searched -/

theorem searched_object (hcs : cs ≠ []) (hobject : Json.WritesEntry "sql".toList cs object) (hpre : Unmarked pre)
    (hpost : Unmarked post) (hclose : '\x7d' ∉ post) (hbacktick : '\x60' ∉ cs) :
    searched (pre ++ (object ++ post)) = .ok cs := by
  have hfence : '\x60' ∉ pre ++ (object ++ post) := by
    simp only [List.mem_append, not_or]
    exact ⟨hpre.no_fence, hobject.not_mem (by decide) hbacktick, hpost.no_fence⟩
  rw [searched, fences_eq_nil hfence, List.nil_append, firstSql?, jsonSql?_object hcs hobject hpre.no_brace hclose]
  rfl

theorem searched_fencedObject (hcs : cs ≠ []) (hobject : Json.WritesEntry "sql".toList cs object)
    (hpre : Unmarked pre) (hpost : Unmarked post) (hbacktick : '\x60' ∉ cs)
    (htag : tag.map fold = "json".toList) (hgap : ∀ c ∈ gap, isBlank c) (htail : ∀ c ∈ tail, isBlank c) :
    searched (pre ++ (fenced tag gap (object ++ tail) ++ post)) = .ok cs := by
  have hbody : '\x60' ∉ object ++ tail := by
    simp only [List.mem_append, not_or]
    exact ⟨hobject.not_mem (by decide) hbacktick, fun hmem => absurd (htail _ hmem) (by decide)⟩
  have hhead : ∀ c ∈ (object ++ tail).head?, isBlank c = false := by
    obtain ⟨inner, rfl⟩ := hobject.exists_inner
    rintro c ⟨⟩
    rfl
  have hclose : '\x7d' ∉ tail := fun hmem => absurd (htail _ hmem) (by decide)
  have hjson : jsonSql? ([] ++ (object ++ tail)) = .ok (some cs) :=
    jsonSql?_object hcs hobject List.not_mem_nil hclose
  rw [List.nil_append] at hjson
  rw [searched, fences_fenced hpre.no_fence hpost.no_fence (isTag_json htag _ _) hgap hbody hhead,
    List.singleton_append, firstSql?, hjson]
  rfl

theorem searched_fenced (hcs : Extractable cs) (hpre : Unmarked pre) (hpost : Unmarked post)
    (htag : tag = [] ∨ tag.map fold = "sql".toList) (hgap : ∀ c ∈ gap, isBlank c) (htail : ∀ c ∈ tail, isBlank c) :
    searched (pre ++ (fenced tag gap (cs ++ tail) ++ post)) = .ok (cs ++ tail) := by
  have hbody : Unmarked (cs ++ tail) := hcs.unmarked.append (.of_blank htail)
  obtain ⟨more, hmore, -⟩ := hcs.starts
  have hhead : ∀ c ∈ (cs ++ tail).head?, isBlank c = false := by
    rw [hmore]
    rintro c ⟨⟩
    rfl
  have hread : IsTag tag gap (cs ++ tail) := by
    rcases htag with rfl | htag
    · exact isTag_nil hgap ⟨more ++ tail, by rw [hmore, List.append_assoc]⟩
    · exact isTag_sql htag gap _
  have hfences := fences_fenced hpre.no_fence hpost.no_fence hread hgap hbody.no_fence hhead
  have hbrace : '\x7b' ∉ pre ++ (fenced tag gap (cs ++ tail) ++ post) := by
    have htagBrace : '\x7b' ∉ tag := by
      rcases htag with rfl | htag
      · exact List.not_mem_nil
      · intro hmem
        have hfold : fold '\x7b' ∈ tag.map fold := List.mem_map_of_mem hmem
        rw [htag] at hfold
        exact absurd hfold (by decide)
    have hmark : '\x7b' ∉ fenceMark := by decide
    simp [fenced, hpre.no_brace, hmark, htagBrace, (Unmarked.of_blank hgap).no_brace, hcs.unmarked.no_brace,
      (Unmarked.of_blank htail).no_brace, hpost.no_brace]
  have hfirst : firstSql? [cs ++ tail, pre ++ (fenced tag gap (cs ++ tail) ++ post)] = .ok none :=
    firstSql?_eq_none (List.forall_mem_cons.mpr ⟨jsonSql?_eq_none hbody.no_brace,
      List.forall_mem_singleton.mpr (jsonSql?_eq_none hbrace)⟩)
  have hselect : (fromSelect? (cs ++ tail)).isSome := by
    rw [hcs.fromSelect?_append (endsWord_of_blank htail)]
    rfl
  have hfind : [cs ++ tail].find? (fun f => (fromSelect? f).isSome) = some (cs ++ tail) :=
    List.find?_cons_of_pos hselect
  rw [searched, hfences, List.singleton_append, hfirst]
  show Except.ok (([cs ++ tail].find? fun f => (fromSelect? f).isSome).getD _) = _
  rw [hfind, Option.getD_some]

/-! ## Wrappings -/

/-- The ways a reply wraps a statement, with prose before it. -/
inductive Wrapping (cs : List Char) : List Char → Prop where
  /-- the statement alone -/
  | bare {pre : List Char} (hpre : Prose pre) : Wrapping cs (pre ++ cs)
  /-- the statement and a semicolon, and more behind it -/
  | ended {pre post : List Char} (hpre : Prose pre) (hpost : Unmarked post) :
      Wrapping cs (pre ++ (cs ++ ';' :: post))
  /-- the statement in a fence, with the tag of SQL or without one -/
  | fenced {pre tag gap tail post : List Char} (hpre : Unmarked pre) (hpost : Unmarked post)
      (htag : tag = [] ∨ tag.map fold = "sql".toList) (hgap : ∀ c ∈ gap, isBlank c)
      (htail : ∀ c ∈ tail, isBlank c) : Wrapping cs (pre ++ (fenced tag gap (cs ++ tail) ++ post))
  /-- the statement as the entry of a JSON object -/
  | object {pre object post : List Char} (hpre : Unmarked pre) (hpost : Unmarked post) (hclose : '\x7d' ∉ post)
      (hobject : Json.WritesEntry "sql".toList cs object) : Wrapping cs (pre ++ (object ++ post))
  /-- the JSON object in a fence with its tag -/
  | fencedObject {pre tag gap object tail post : List Char} (hpre : Unmarked pre) (hpost : Unmarked post)
      (htag : tag.map fold = "json".toList) (hgap : ∀ c ∈ gap, isBlank c) (htail : ∀ c ∈ tail, isBlank c)
      (hobject : Json.WritesEntry "sql".toList cs object) :
      Wrapping cs (pre ++ (Reply.fenced tag gap (object ++ tail) ++ post))

/-- **The same statement is taken out of all its wrappings.** -/
theorem statement_of_wrapping (hcs : Extractable cs) {reply : String} (h : Wrapping cs reply.toList) :
    statement reply = .ok (String.ofList cs) := by
  have hne : cs ≠ [] := by
    obtain ⟨more, rfl, -⟩ := hcs.starts
    exact List.cons_ne_nil _ _
  have hself : fromSelect? cs = some (cs ++ []) := by
    have happend : fromSelect? (cs ++ []) = some (cs ++ []) := hcs.fromSelect?_append rfl
    rwa [List.append_nil] at happend ⊢
  generalize htext : reply.toList = text at h
  cases h with
  | @bare pre hpre =>
    have hsearched := searched_eq_self (hpre.unmarked.append hcs.unmarked)
    have hselect : fromSelect? (pre ++ cs) = some (cs ++ []) := by
      have happend : fromSelect? (pre ++ (cs ++ [])) = some (cs ++ []) := hpre.fromSelect?_extractable hcs rfl
      rwa [List.append_nil] at happend ⊢
    exact hcs.statement_eq_of_searched (htext ▸ hsearched) hselect (List.forall_mem_nil _)
  | @ended pre post hpre hpost =>
    have hmore : Unmarked (';' :: post) := List.forall_mem_cons.mpr ⟨by decide, hpost⟩
    have hsearched := searched_eq_self (hpre.unmarked.append (hcs.unmarked.append hmore))
    have hselect : fromSelect? (pre ++ (cs ++ ';' :: post)) = some (cs ++ ';' :: post) :=
      hpre.fromSelect?_extractable hcs rfl
    refine hcs.statement_eq_of_searched (htext ▸ hsearched) hselect ?_
    rw [beforeSemicolon_cons]
    exact List.forall_mem_nil _
  | fenced hpre hpost htag hgap htail =>
    have hsearched := searched_fenced hcs hpre hpost htag hgap htail
    refine hcs.statement_eq_of_searched (htext ▸ hsearched)
      (hcs.fromSelect?_append (endsWord_of_blank htail)) fun c hc => ?_
    exact htail c ((beforeSemicolon_isInfix _).subset hc)
  | object hpre hpost hclose hobject =>
    have hsearched := searched_object hne hobject hpre hpost hclose hcs.unmarked.no_fence
    exact hcs.statement_eq_of_searched (htext ▸ hsearched) hself (List.forall_mem_nil _)
  | fencedObject hpre hpost htag hgap htail hobject =>
    have hsearched := searched_fencedObject hne hobject hpre hpost hcs.unmarked.no_fence htag hgap htail
    exact hcs.statement_eq_of_searched (htext ▸ hsearched) hself (List.forall_mem_nil _)

/-- A semicolon in a literal and a line break, in a JSON object in a fence. -/
theorem statement_of_wrapping_fencedObject :
    Extractable "SELECT ';'\nFROM t".toList ∧
    Wrapping "SELECT ';'\nFROM t".toList
      "Here:\n```JSON\n\x7b\"sql\": \"SELECT ';'\\nFROM t\"\x7d\n``` Done.".toList ∧
    statement "Here:\n```JSON\n\x7b\"sql\": \"SELECT ';'\\nFROM t\"\x7d\n``` Done." =
      .ok "SELECT ';'\nFROM t" := by
  have hcs : Extractable "SELECT ';'\nFROM t".toList :=
    ⟨⟨" ';'\nFROM t".toList, by decide, by decide⟩, by decide, by decide, by decide, by decide⟩
  have hforms : Json.WritesText "SELECT ';'\nFROM t".toList "SELECT ';'\\nFROM t".toList :=
    .plain_append (a := "SELECT ';'".toList) (by decide) (.cons (.short (e := 'n') (by decide))
      (.plain_append (a := "FROM t".toList) (by decide) .nil))
  have hkey : Json.WritesText "sql".toList "sql".toList :=
    .plain_append (a := "sql".toList) (by decide) .nil
  have hobject : Json.WritesEntry "sql".toList "SELECT ';'\nFROM t".toList
      "\x7b\"sql\": \"SELECT ';'\\nFROM t\"\x7d".toList :=
    @Json.WritesEntry.object _ _ [] [] [' '] [] _ _ (by decide) (by decide) (by decide) (by decide) hkey hforms
  have hreply : Wrapping "SELECT ';'\nFROM t".toList
      "Here:\n```JSON\n\x7b\"sql\": \"SELECT ';'\\nFROM t\"\x7d\n``` Done.".toList :=
    @Wrapping.fencedObject _ "Here:\n".toList "JSON".toList ['\n'] _ ['\n'] " Done.".toList (by decide) (by decide)
      (by decide) (by decide) (by decide) hobject
  exact ⟨hcs, hreply, statement_of_wrapping hcs hreply⟩

end MetricLayer.Reply
