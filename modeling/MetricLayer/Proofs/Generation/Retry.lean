import MetricLayer.Generation.Prompt
import MetricLayer.Proofs.Text.Keyword

/-!
# The request of a retry

A retry ends in its mark and the request in quotes, and the request is looked for behind the last mark of
the prompt and taken out of all quotes around it.  It comes back exactly when it is `Recoverable`: a request
that holds the mark loses what stands before it, and quotes at its ends are lost with those around it
(`requestIn_retry_eq_self_iff`).
-/

namespace MetricLayer.Text

variable {needle cs rest : List Char}

/-! ## The last occurrence -/

theorem filterMap_placesFrom {α : Type} (f : List Char → Option α) (n m : Nat) (b b' : Option Char)
    (cs : List Char) :
    (placesFrom n b cs).filterMap (fun p => f p.rest) = (placesFrom m b' cs).filterMap fun p => f p.rest := by
  induction cs generalizing n m b b' with
  | nil => rfl
  | cons c cs ih => rw [placesFrom, placesFrom, List.filterMap_cons, List.filterMap_cons, ih]

theorem afterLast?_cons (needle : List Char) (c : Char) (cs : List Char) :
    afterLast? needle (c :: cs) = (afterLast? needle cs).or (needle.isPrefixOf? (c :: cs)) := by
  have hrest : (placesFrom 1 (some c) cs).filterMap (fun p => needle.isPrefixOf? p.rest) =
      (places cs).filterMap fun p => needle.isPrefixOf? p.rest :=
    filterMap_placesFrom (fun rest => needle.isPrefixOf? rest) 1 0 (some c) none cs
  rw [afterLast?, places, placesFrom, List.filterMap_cons, Nat.zero_add, hrest, afterLast?]
  cases needle.isPrefixOf? (c :: cs) with
  | none => simp
  | some found => rw [List.getLast?_cons]; cases List.getLast? _ <;> rfl

/-- A text before the occurrence that is last does not matter. -/
theorem afterLast?_append (h : afterLast? needle cs = some rest) (a : List Char) :
    afterLast? needle (a ++ cs) = some rest := by
  induction a with
  | nil => exact h
  | cons c a ih => rw [List.cons_append, afterLast?_cons, ih, Option.some_or]

theorem exists_of_afterLast?_eq_some (h : afterLast? needle cs = some rest) :
    ∃ pre, cs = pre ++ (needle ++ rest) := by
  obtain ⟨q, hq, hprefix⟩ := List.mem_filterMap.mp (List.mem_of_getLast? h)
  obtain ⟨pre, post, rfl, rfl⟩ := mem_places.mp hq
  exact ⟨pre, by rw [List.isPrefixOf?_eq_some_iff_append_eq.mp hprefix]⟩

theorem afterLast?_eq_none_iff : afterLast? needle cs = none ↔ ¬ needle <:+: cs := by
  rw [afterLast?, List.getLast?_eq_none_iff, List.filterMap_eq_nil_iff]
  constructor
  · rintro h ⟨pre, post, rfl⟩
    have hnone := h ⟨pre.length, pre.getLast?, needle ++ post⟩ (mem_places.mpr ⟨pre, _, by simp, rfl⟩)
    rw [List.isPrefixOf?_eq_some_iff_append_eq.mpr rfl] at hnone
    cases hnone
  · intro h q hq
    obtain ⟨pre, post, rfl, rfl⟩ := mem_places.mp hq
    cases hprefix : needle.isPrefixOf? post with
    | none => rfl
    | some rest =>
      rw [← List.isPrefixOf?_eq_some_iff_append_eq.mp hprefix] at h
      exact absurd ⟨pre, rest, by simp⟩ h

/-- A text whose first character comes only once in it does not overlap itself. -/
theorem afterLast?_self {k : Char} {tail : List Char} (hk : k ∉ tail) (hrest : ¬ (k :: tail) <:+: rest) :
    afterLast? (k :: tail) (k :: (tail ++ rest)) = some rest := by
  have hnone : afterLast? (k :: tail) (tail ++ rest) = none := by
    rw [afterLast?_eq_none_iff]
    rintro ⟨pre, post, hsplit⟩
    rw [List.append_assoc, List.cons_append] at hsplit
    obtain ⟨pre', -, hrest'⟩ := exists_of_append_eq_append hk hsplit
    exact hrest ⟨pre', post, by rw [hrest', List.append_assoc, List.cons_append]⟩
  rw [afterLast?_cons, hnone, Option.none_or, List.isPrefixOf?_eq_some_iff_append_eq]
  rfl

theorem length_of_afterLast?_eq_some (h : afterLast? needle cs = some rest) :
    needle.length + rest.length ≤ cs.length := by
  obtain ⟨pre, rfl⟩ := exists_of_afterLast?_eq_some h
  simp only [List.length_append]
  omega

end MetricLayer.Text

namespace MetricLayer.Prompt

open MetricLayer.Text

variable {guidance request : String}

/-- What stands behind the mark of a retry. -/
def quotedRequest (request : String) : List Char :=
  [' ', '"'] ++ (request.toList ++ ['"'])

theorem toList_retry (guidance request : String) :
    (retry guidance request).toList =
      (guidance.toList ++ ['\n', '\n']) ++ (requestMark.toList ++ quotedRequest request) := by
  simp [retry, quotedRequest]

/-- The request can be found in a retry again: it does not hold the mark, and no quote stands at its ends. -/
def Recoverable (request : String) : Prop :=
  ¬ requestMark.toList <:+: request.toList ∧ Bare (· == '"') request.toList

instance (request : String) : Decidable (Recoverable request) :=
  inferInstanceAs (Decidable (_ ∧ _))

/-! ## A request without the mark -/

/-- The quotes around a request add no mark. -/
theorem requestMark_infix_of_quotedRequest (h : requestMark.toList <:+: quotedRequest request) :
    requestMark.toList <:+: request.toList := by
  have hquote : '"' ∉ requestMark.toList := by decide
  obtain ⟨pre, post, hsplit⟩ := h
  rw [List.append_assoc] at hsplit
  have hbefore : ∀ c ∈ [' ', '"'].getLast?, c ∉ requestMark.toList := by
    rintro c ⟨⟩
    exact hquote
  have hbehind : ∀ c ∈ ['"'].head?, c ∉ requestMark.toList := by
    rintro c ⟨⟩
    exact hquote
  rcases exists_of_infix_append (Or.inl hbefore) hsplit.symm with ⟨k, hk, -⟩ | ⟨pre', hk, -⟩
  · -- no room for the mark in front of the request
    have hlength := congrArg List.length hk
    simp [requestMark] at hlength
    omega
  rcases exists_of_infix_append (Or.inr hbehind) hk with ⟨k, hk, -⟩ | ⟨pre', hk, -⟩
  · exact ⟨pre', k, by rw [hk, List.append_assoc]⟩
  · have hlength := congrArg List.length hk
    simp [requestMark] at hlength
    omega

theorem afterLast?_retry (h : ¬ requestMark.toList <:+: request.toList) :
    afterLast? requestMark.toList (retry guidance request).toList = some (quotedRequest request) := by
  have hquoted : ¬ requestMark.toList <:+: quotedRequest request :=
    fun hmark => h (requestMark_infix_of_quotedRequest hmark)
  have hmark : requestMark.toList = 'O' :: requestMark.toList.tail := rfl
  rw [toList_retry]
  apply afterLast?_append
  rw [hmark] at hquoted ⊢
  exact afterLast?_self (by decide) hquoted

theorem trim_quotedRequest (request : String) :
    trim (quotedRequest request) = ['"'] ++ request.toList ++ ['"'] := by
  have htrimmed : Trimmed (['"'] ++ request.toList ++ ['"']) :=
    trimmed_of_ends (c := '"') (d := '"') (by decide) (by decide) rfl List.getLast?_concat
  exact (trim_blank_append (a := [' ']) (by decide) _).trans (trim_eq_self htrimmed)

/-- A request without the mark comes back without the quotes at its ends. -/
theorem requestIn_retry (h : ¬ requestMark.toList <:+: request.toList) :
    requestIn (retry guidance request) = String.ofList (dropBothWhile (· == '"') request.toList) := by
  rw [requestIn, afterLast?_retry h]
  dsimp only
  rw [trim_quotedRequest, dropBothWhile_around (by decide) (by decide)]

/-! ## A request with the mark -/

/-- A request with the mark comes back shorter: what stands before its last mark is lost. -/
theorem length_requestIn_retry_lt (h : requestMark.toList <:+: request.toList) :
    (requestIn (retry guidance request)).toList.length < request.toList.length := by
  obtain ⟨rest, hrest⟩ : ∃ rest, afterLast? requestMark.toList (request.toList ++ ['"']) = some rest := by
    apply Option.ne_none_iff_exists'.mp
    rw [Ne, afterLast?_eq_none_iff, not_not]
    exact h.trans (List.infix_append [] _ _)
  have hretry : afterLast? requestMark.toList (retry guidance request).toList = some rest := by
    rw [toList_retry, quotedRequest]
    exact afterLast?_append (afterLast?_append (afterLast?_append hrest _) _) _
  have hlength := length_of_afterLast?_eq_some hrest
  have hdrop := length_dropBothWhile_le (· == '"') (trim rest)
  have htrim := length_trim_le rest
  rw [requestIn, hretry]
  simp [requestMark] at hlength ⊢
  omega

/-! ## What comes back -/

theorem requestIn_retry_eq_self_iff (guidance request : String) :
    requestIn (retry guidance request) = request ↔ Recoverable request := by
  by_cases hmark : requestMark.toList <:+: request.toList
  · refine iff_of_false (fun hself => ?_) fun h => h.1 hmark
    have hshorter := @length_requestIn_retry_lt guidance request hmark
    rw [hself] at hshorter
    exact lt_irrefl _ hshorter
  · rw [requestIn_retry hmark, Recoverable, ← String.toList_inj, String.toList_ofList]
    constructor
    · intro hself
      refine ⟨hmark, ?_⟩
      rw [← hself]
      exact dropBothWhile_bare _ _
    · exact fun h => dropBothWhile_eq_self h.2

/-- The request of a retry comes back unaltered exactly when it is recoverable, whatever the guidance; and the
request of a retry after a failed execution exactly when, besides, the columns the retry shows are texts. -/
theorem recoverable_iff_requestIn_retry (guidance error request : String) (c : Catalog) :
    (requestIn (retry guidance request) = request ↔ Recoverable request) ∧
      ((executionRetry error (.of c) request).map requestIn = .ok request ↔
        (Listing.of c).fault? = none ∧ Recoverable request) := by
  refine ⟨requestIn_retry_eq_self_iff guidance request, ?_⟩
  rw [executionRetry]
  cases hfault : (Listing.of c).fault? with
  | some fault => simp [Except.map]
  | none => simp [Except.map, requestIn_retry_eq_self_iff]

/-- The quotes of a request are lost with those around it. -/
theorem requestIn_retry_ne_self :
    requestIn (retry "g" "say \"hi\"") = "say \"hi" ∧ requestIn (retry "g" "say \"hi\"") ≠ "say \"hi\"" := by
  decide +kernel

end MetricLayer.Prompt
