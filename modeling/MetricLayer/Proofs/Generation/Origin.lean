import MetricLayer.Proofs.Generation.Fence
import MetricLayer.Proofs.Generation.Select

/-!
# Where a statement comes from

What is searched for a statement is a piece of the reply or the `sql` entry of a JSON object in it
(`of_searched`), and a statement is a piece of what is searched (`isInfix_of_fromSelect?`).  So whatever a
generator writes, what is taken from it is one bare SELECT statement that stands there
(`isTakenFrom_or_noSelect`).
-/

namespace MetricLayer.Reply

open MetricLayer.Text MetricLayer.Sql

variable {cs text sql : List Char}

/-- The `sql` entry of a JSON object that stands in a text. -/
def IsSqlEntry (text sql : List Char) : Prop :=
  ∃ object entries entry, object <:+: text ∧ Json.read object = .ok (.object entries) ∧
    entries.lookup "sql" = some (.text entry) ∧ sql = entry.toList

theorem IsSqlEntry.of_isInfix (h : IsSqlEntry cs sql) (hcs : cs <:+: text) : IsSqlEntry text sql := by
  obtain ⟨object, entries, entry, hobject, hread, hentry, hsql⟩ := h
  exact ⟨object, entries, entry, hobject.trans hcs, hread, hentry, hsql⟩

/-- The reader of JSON goes beyond no limit in the braces of a text. -/
def ReadsBraces (text : List Char) : Prop :=
  ∀ limit, Json.read (braced text) ≠ .error (.beyond limit)

/-- The reader of JSON goes beyond no limit in a reply: in its fences or in the whole. -/
def ReadsJson (reply : List Char) : Prop :=
  ∀ text ∈ fences reply ++ [reply], ReadsBraces text

/-! ## What is searched -/

theorem of_jsonSql? (h : jsonSql? cs = .ok (some sql)) : IsSqlEntry cs sql := by
  rw [jsonSql?] at h
  cases hread : Json.read (braced cs) with
  | error f => cases f <;> simp only [hread] at h <;> cases h
  | ok v =>
    simp only [hread] at h
    cases hget : v.get? "sql" with
    | none => simp only [hget] at h; cases h
    | some w =>
      cases w with
      | text entry =>
        obtain ⟨entries, rfl⟩ : ∃ entries, v = .object entries := by
          cases v with
          | object entries => exact ⟨entries, rfl⟩
          | _ => cases hget
        simp only [hget, Except.ok.injEq] at h
        split at h
        · cases h
        · cases h
          exact ⟨braced cs, entries, entry, braced_isInfix cs, hread, hget, rfl⟩
      | _ => simp only [hget] at h; cases h

theorem of_firstSql? {texts : List (List Char)} (h : firstSql? texts = .ok (some sql)) :
    ∃ t ∈ texts, IsSqlEntry t sql := by
  induction texts with
  | nil => cases h
  | cons t texts ih =>
    rw [firstSql?] at h
    cases hjson : jsonSql? t with
    | error limit => rw [hjson] at h; cases h
    | ok found =>
      rw [hjson] at h
      cases found with
      | some found =>
        obtain rfl : found = sql := Option.some.inj (Except.ok.inj h)
        exact ⟨t, List.mem_cons_self, of_jsonSql? hjson⟩
      | none =>
        obtain ⟨u, hu, hentry⟩ := ih h
        exact ⟨u, List.mem_cons_of_mem t hu, hentry⟩

theorem isInfix_of_mem_candidates (h : text ∈ fences cs ++ [cs]) : text <:+: cs := by
  rcases List.mem_append.mp h with h | h
  · exact isInfix_of_mem_fences h
  · rw [List.mem_singleton.mp h]

/-- What is searched stands in the reply, as it is or as the `sql` entry of a JSON object. -/
theorem of_searched (h : searched cs = .ok text) : text <:+: cs ∨ IsSqlEntry cs text := by
  rw [searched] at h
  cases hfirst : firstSql? (fences cs ++ [cs]) with
  | error limit => rw [hfirst] at h; cases h
  | ok found =>
    rw [hfirst] at h
    cases found with
    | some sql =>
      obtain rfl : sql = text := Except.ok.inj h
      obtain ⟨t, ht, hentry⟩ := of_firstSql? hfirst
      exact Or.inr (hentry.of_isInfix (isInfix_of_mem_candidates ht))
    | none =>
      obtain rfl : ((fences cs).find? fun f => (fromSelect? f).isSome).getD cs = text := Except.ok.inj h
      left
      cases hfence : (fences cs).find? fun f => (fromSelect? f).isSome with
      | none => exact List.infix_refl cs
      | some f => exact isInfix_of_mem_fences (List.mem_of_find?_eq_some hfence)

theorem jsonSql?_ne_error (h : ReadsBraces cs) (limit : Json.Limit) : jsonSql? cs ≠ .error limit := by
  intro herror
  rw [jsonSql?] at herror
  cases hread : Json.read (braced cs) with
  | error f =>
    cases f with
    | malformed => simp only [hread] at herror; cases herror
    | beyond limit => exact h limit hread
  | ok v =>
    simp only [hread] at herror
    split at herror
    · cases herror
    · cases herror

theorem firstSql?_ne_error {texts : List (List Char)} (h : ∀ t ∈ texts, ReadsBraces t) (limit : Json.Limit) :
    firstSql? texts ≠ .error limit := by
  induction texts with
  | nil =>
    intro herror
    cases herror
  | cons t texts ih =>
    intro herror
    rw [firstSql?] at herror
    cases hjson : jsonSql? t with
    | error limit => exact jsonSql?_ne_error (h t List.mem_cons_self) limit hjson
    | ok found =>
      rw [hjson] at herror
      cases found with
      | some sql => cases herror
      | none => exact ih (fun u hu => h u (List.mem_cons_of_mem t hu)) herror

theorem exists_searched (h : ReadsJson cs) : ∃ text, searched cs = .ok text := by
  rw [searched]
  cases hfirst : firstSql? (fences cs ++ [cs]) with
  | error limit => exact absurd hfirst (firstSql?_ne_error h limit)
  | ok found =>
    cases found with
    | some sql => exact ⟨sql, rfl⟩
    | none => exact ⟨_, rfl⟩

/-! ## Statements -/

theorem isInfix_of_fromSelect? (h : fromSelect? text = some sql) : sql <:+: text := by
  obtain ⟨p, hp, rfl⟩ := Option.map_eq_some_iff.mp h
  have hmem : p ∈ places text := by
    rcases Option.or_eq_some_iff.mp hp with hp | ⟨-, hp⟩
    · exact List.mem_of_find?_eq_some hp
    · exact List.mem_of_find?_eq_some hp
  obtain ⟨pre, post, rfl, rfl⟩ := mem_places.mp hmem
  exact (List.suffix_append pre post).isInfix

/-- Only a text without the word has no SELECT. -/
theorem hasKeyword_of_fromSelect? (h : fromSelect? text = none) : hasKeyword "select" text = false := by
  obtain ⟨-, hany⟩ := Option.or_eq_none_iff.mp (Option.map_eq_none_iff.mp h)
  rw [hasKeyword, List.any_eq_false]
  exact List.find?_eq_none.mp hany

/-- Cutting white space off brings no semicolon out of quotes. -/
theorem not_mem_mask_trim (h : ';' ∉ mask cs) : ';' ∉ mask (trim cs) := by
  obtain ⟨a, b, hcs, ha, -⟩ := exists_trim cs
  intro hmem
  apply h
  rw [hcs, List.append_assoc, mask_append (closed_of_blank ha), mask, mask, maskFrom_append]
  exact List.mem_append_right _ (List.mem_append_left _ hmem)

/-- One bare SELECT statement that stands in a reply: it starts with the word, has no white space around it and
no semicolon outside quotes, and it is a piece of the reply or of the `sql` entry of a JSON object there. -/
structure IsTakenFrom (reply sql : List Char) : Prop where
  startsSelect : StartsSelect sql
  trimmed : Trimmed sql
  noSemicolon : ';' ∉ mask sql
  stands : sql <:+: reply ∨ ∃ entry, IsSqlEntry reply entry ∧ sql <:+: entry

theorem isTakenFrom_of_statement {reply sql : String} (h : statement reply = .ok sql) :
    IsTakenFrom reply.toList sql.toList := by
  have hstarts := startsSelect_of_statement h
  rw [statement] at h
  cases hsearched : searched reply.toList with
  | error limit => rw [hsearched] at h; cases h
  | ok text =>
    cases hselect : fromSelect? text with
    | none => simp only [hsearched, Except.mapError, Bind.bind, Except.bind, hselect] at h; cases h
    | some found =>
      simp only [hsearched, Except.mapError, Bind.bind, Except.bind, hselect] at h
      obtain rfl : String.ofList (trim (beforeSemicolon found)) = sql := Except.ok.inj h
      rw [String.toList_ofList] at hstarts ⊢
      have hpiece : trim (beforeSemicolon found) <:+: text :=
        ((trim_isInfix _).trans (beforeSemicolon_isInfix found)).trans (isInfix_of_fromSelect? hselect)
      refine ⟨hstarts, trimmed_trim _, not_mem_mask_trim (not_mem_mask_beforeSemicolon found), ?_⟩
      rcases of_searched hsearched with hplain | hentry
      · exact Or.inl (hpiece.trans hplain)
      · exact Or.inr ⟨text, hentry, hpiece⟩

/-- A reply that yields no statement has no SELECT in what is searched, or goes beyond a limit of JSON. -/
theorem exists_statement_or_noSelect {reply : String} (h : ReadsJson reply.toList) :
    (∃ sql, statement reply = .ok sql) ∨
      ∃ text, statement reply = .error (.noSelect text) ∧ hasKeyword "select" text.toList = false := by
  obtain ⟨text, hsearched⟩ := exists_searched h
  rw [statement, hsearched]
  cases hselect : fromSelect? text with
  | some found =>
    simp only [Except.mapError, Bind.bind, Except.bind, hselect]
    exact Or.inl ⟨_, rfl⟩
  | none =>
    simp only [Except.mapError, Bind.bind, Except.bind, hselect]
    refine Or.inr ⟨_, rfl, ?_⟩
    rw [String.toList_ofList]
    exact hasKeyword_of_fromSelect? hselect

/-- **What is taken from any reply is one bare SELECT statement that stands in it.**  As long as the reader of
JSON goes beyond no limit, only a missing SELECT keeps a statement from being taken. -/
theorem isTakenFrom_or_noSelect (reply : String) :
    (∀ sql, statement reply = .ok sql → IsTakenFrom reply.toList sql.toList) ∧
    (ReadsJson reply.toList → (∃ sql, statement reply = .ok sql) ∨
      ∃ text, statement reply = .error (.noSelect text) ∧ hasKeyword "select" text.toList = false) :=
  ⟨fun _ h => isTakenFrom_of_statement h, exists_statement_or_noSelect⟩

/-- A semicolon in a literal stays, and what stands behind the one outside is cut off. -/
theorem isTakenFrom_or_noSelect_literal :
    statement "I \u017felect ';' now; bye" = .ok "\u017felect ';' now" ∧
    IsTakenFrom "I \u017felect ';' now; bye".toList "\u017felect ';' now".toList := by
  have h : statement "I \u017felect ';' now; bye" = .ok "\u017felect ';' now" := by decide +kernel
  exact ⟨h, (isTakenFrom_or_noSelect _).1 _ h⟩

end MetricLayer.Reply
