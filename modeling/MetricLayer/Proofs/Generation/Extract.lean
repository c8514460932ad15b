import MetricLayer.Generation.Reply
import MetricLayer.Proofs.Sql.Mask
import MetricLayer.Proofs.Text.Case
import MetricLayer.Proofs.Text.Keyword
import MetricLayer.Proofs.Text.Pieces

/-!
# Statements that are taken out as they are

A reply that is a statement and a semicolon gives the statement (`Extractable.statement_eq`), when nothing in
it looks like JSON or a code fence.
-/

namespace MetricLayer.Reply

open MetricLayer.Text MetricLayer.Sql

/-- No sign that opens a JSON object or a code fence. -/
def Unmarked (cs : List Char) : Prop :=
  ∀ c ∈ cs, c ≠ '\x7b' ∧ c ≠ '\x60'

instance (cs : List Char) : Decidable (Unmarked cs) :=
  inferInstanceAs (Decidable (∀ _ ∈ _, _))

variable {cs : List Char}

namespace Unmarked

theorem append {a b : List Char} (ha : Unmarked a) (hb : Unmarked b) : Unmarked (a ++ b) :=
  List.forall_mem_append.mpr ⟨ha, hb⟩

theorem of_blank (h : ∀ c ∈ cs, isBlank c) : Unmarked cs := by
  refine fun c hc => ⟨?_, ?_⟩ <;> rintro rfl <;> exact absurd (h _ hc) (by decide)

theorem intercalate {sep : List Char} {parts : List (List Char)} (hsep : Unmarked sep)
    (h : ∀ p ∈ parts, Unmarked p) : Unmarked (List.intercalate sep parts) := by
  intro c hc
  rcases mem_intercalate hc with hc | ⟨p, hp, hc⟩
  · exact hsep c hc
  · exact h p hp c hc

/-- Names that agree but for letter case are marked both or not. -/
theorem of_lower_eq {a b : List Char} (h : lower a = lower b) (hb : Unmarked b) : Unmarked a := by
  have hcaseless : Caseless [0x7b, 0x60] := by
    decide +kernel
  have hiff (cs : List Char) : Unmarked cs ↔ ¬ ∃ c ∈ cs, c.toNat ∈ [0x7b, 0x60] := by
    have hbrace (c : Char) : c = '\x7b' ↔ c.toNat = 0x7b := (Char.toNat_inj (d := '\x7b')).symm
    have hfence (c : Char) : c = '\x60' ↔ c.toNat = 0x60 := (Char.toNat_inj (d := '\x60')).symm
    simp [Unmarked, hbrace, hfence]
  rw [hiff] at hb ⊢
  rwa [hcaseless.exists_mem_iff_of_lower_eq h]

end Unmarked

/-! ## What is searched -/

theorem Unmarked.no_brace (h : Unmarked cs) : '\x7b' ∉ cs :=
  fun hmem => (h _ hmem).1 rfl

theorem Unmarked.no_fence (h : Unmarked cs) : '\x60' ∉ cs :=
  fun hmem => (h _ hmem).2 rfl

theorem fences_eq_nil (h : '\x60' ∉ cs) : fences cs = [] := by
  rw [fences, List.map_eq_nil_iff, List.eq_nil_iff_forall_not_mem]
  rintro ⟨p, content⟩ hmem
  obtain ⟨⟨pre, post, rfl, rfl⟩, after, hmatch⟩ := of_mem_scan hmem
  obtain ⟨rest, hrest, -⟩ := Option.bind_eq_some_iff.mp hmatch
  have hpost : fenceMark ++ rest = post := List.isPrefixOf?_eq_some_iff_append_eq.mp hrest
  have hmark : '\x60' ∈ fenceMark := by decide
  exact h (List.mem_append_right pre (hpost ▸ List.mem_append_left rest hmark))

theorem braced_eq_nil (h : '\x7b' ∉ cs) : braced cs = [] := by
  have hdrop : cs.dropWhile (· != '\x7b') = [] := by
    rw [List.dropWhile_eq_nil_iff]
    exact bne_of_not_mem h
  rw [braced, hdrop]
  rfl

theorem jsonSql?_eq_none (h : '\x7b' ∉ cs) : jsonSql? cs = .ok none := by
  rw [jsonSql?, braced_eq_nil h]
  rfl

theorem firstSql?_eq_none {texts : List (List Char)} (h : ∀ t ∈ texts, jsonSql? t = .ok none) :
    firstSql? texts = .ok none := by
  induction texts with
  | nil => rfl
  | cons t texts ih =>
    rw [firstSql?, h t List.mem_cons_self]
    exact ih fun u hu => h u (List.mem_cons_of_mem t hu)

theorem searched_eq_self (h : Unmarked cs) : searched cs = .ok cs := by
  have hfirst : firstSql? [cs] = .ok none :=
    firstSql?_eq_none (List.forall_mem_singleton.mpr (jsonSql?_eq_none h.no_brace))
  rw [searched, fences_eq_nil h.no_fence, List.nil_append, hfirst]
  rfl

/-- A SELECT in capitals is found behind a text in which none starts. -/
theorem fromSelect?_of_forall {pre rest : List Char}
    (hpre : ∀ a c b, pre = a ++ c :: b →
      isUpperSelect ⟨a.length, a.getLast?, c :: (b ++ ("SELECT".toList ++ rest))⟩ = false)
    (hstart : wordStart pre.getLast?) (hrest : endsWord rest) :
    fromSelect? (pre ++ ("SELECT".toList ++ rest)) = some ("SELECT".toList ++ rest) := by
  have hhere : isUpperSelect ⟨pre.length, pre.getLast?, "SELECT".toList ++ rest⟩ := by
    have hprefix : "SELECT".toList.isPrefixOf? ("SELECT".toList ++ rest) = some rest :=
      List.isPrefixOf?_eq_some_iff_append_eq.mpr rfl
    rw [isUpperSelect, hprefix, Option.any_some, hrest, Bool.and_true]
    exact hstart
  have hplaces : placesFrom pre.length pre.getLast? ("SELECT".toList ++ rest) =
      ⟨pre.length, pre.getLast?, "SELECT".toList ++ rest⟩ ::
        placesFrom (pre.length + 1) (some 'S') ("ELECT".toList ++ rest) := rfl
  have hfind : (places (pre ++ ("SELECT".toList ++ rest))).find? isUpperSelect =
      some ⟨pre.length, pre.getLast?, "SELECT".toList ++ rest⟩ := by
    rw [places, find?_placesFrom_append, lastOr_none, Nat.zero_add, hplaces, List.find?_cons_of_pos hhere]
    intro a c b heq
    rw [lastOr_none, Nat.zero_add]
    exact hpre a c b heq
  rw [fromSelect?, hfind]
  rfl

theorem fromSelect?_of_starts {rest : List Char} (h : endsWord rest) :
    fromSelect? ("SELECT".toList ++ rest) = some ("SELECT".toList ++ rest) :=
  @fromSelect?_of_forall [] rest (by simp) rfl h

/-- What is cut off stands behind a closed text without a semicolon outside quotes. -/
theorem beforeSemicolon_append (hclosed : Closed cs) (h : ';' ∉ mask cs) (rest : List Char) :
    beforeSemicolon (cs ++ rest) = cs ++ beforeSemicolon rest := by
  rw [beforeSemicolon, mask_append hclosed, List.takeWhile_append_of_pos (bne_of_not_mem h), List.length_append,
    length_mask, List.take_length_add_append, beforeSemicolon]

theorem beforeSemicolon_isInfix (cs : List Char) : beforeSemicolon cs <:+: cs :=
  (List.take_prefix _ cs).isInfix

theorem beforeSemicolon_cons (rest : List Char) : beforeSemicolon (';' :: rest) = [] := rfl

/-! ## Statements -/

/-- A statement that starts with the word in capitals, and has no semicolon outside quotes. -/
structure Extractable (cs : List Char) : Prop where
  starts : ∃ rest, cs = "SELECT".toList ++ rest ∧ endsWord rest
  closed : Closed cs
  trimmed : Trimmed cs
  noSemicolon : ';' ∉ mask cs
  unmarked : Unmarked cs

/-- A statement is taken out as it is when what is searched goes on with white space only, before the first
semicolon behind it. -/
theorem Extractable.statement_eq_of_searched (h : Extractable cs) {reply : String} {found rest : List Char}
    (hsearched : searched reply.toList = .ok found) (hselect : fromSelect? found = some (cs ++ rest))
    (hrest : ∀ c ∈ beforeSemicolon rest, isBlank c) : statement reply = .ok (String.ofList cs) := by
  have htrim : trim (beforeSemicolon (cs ++ rest)) = cs := by
    rw [beforeSemicolon_append h.closed h.noSemicolon, trim_append_blank cs hrest, trim_eq_self h.trimmed]
  rw [statement, hsearched]
  simp only [Except.mapError, Bind.bind, Except.bind, hselect, htrim]
  rfl

/-- A statement is found where it starts. -/
theorem Extractable.fromSelect?_append (h : Extractable cs) {rest : List Char} (hrest : endsWord rest) :
    fromSelect? (cs ++ rest) = some (cs ++ rest) := by
  obtain ⟨more, rfl, hends⟩ := h.starts
  rw [List.append_assoc]
  apply fromSelect?_of_starts
  cases more with
  | nil => exact hrest
  | cons c more => exact hends

/-- A statement with a semicolon behind it is taken out as it is. -/
theorem Extractable.statement_eq (h : Extractable cs) :
    statement (String.ofList cs ++ ";") = .ok (String.ofList cs) := by
  have htext : (String.ofList cs ++ ";").toList = cs ++ [';'] := by
    simp
  have hsearched : searched (String.ofList cs ++ ";").toList = .ok (cs ++ [';']) := by
    rw [htext]
    exact searched_eq_self (h.unmarked.append (by decide))
  refine h.statement_eq_of_searched hsearched (h.fromSelect?_append rfl) ?_
  rw [beforeSemicolon_cons]
  exact List.forall_mem_nil _

end MetricLayer.Reply
