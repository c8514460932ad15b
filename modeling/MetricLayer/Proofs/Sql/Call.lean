import MetricLayer.Proofs.Sql.Alias
import MetricLayer.Proofs.Sql.Layout
import MetricLayer.Proofs.Sql.Parenthesis
import MetricLayer.Sql.Aggregate

/-!
# Calls in a text

A call is a name as a whole word, white space perhaps, and an opening parenthesis: `CallAt` says where
it stands.  Searching a call over a text with a layout leads into its groups only (`Layout.not_calls`).

The calls that `embeddedCalls` finds in a text are those it finds in the text in parentheses
(`EmbeddedCall.of_group`, `mem_embeddedCalls_of_layered`), and the one call that `singleCall?` finds is among
them (`mem_embeddedCalls_of_singleCall?`).
-/

namespace MetricLayer.Sql

open MetricLayer.Text

/-! ## Where calls stand -/

/-- A call in a masked text after a character: what stands before it, its name as written, the white
space after the name, and what follows the parenthesis. -/
structure CallAt (names : List String) (b : Option Char) (m pre w gap rest : List Char) : Prop where
  text : m = pre ++ (w ++ (gap ++ '(' :: rest))
  start : wordStart (lastOr b pre)
  named : ∃ name ∈ names, w.map fold = name.toList
  blank : ∀ c ∈ gap, isBlank c

/-- One of the names is called with arguments of a kind. -/
def Calls (names : List String) (args : List Char → Prop) (b : Option Char) (m : List Char) : Prop :=
  ∃ pre w gap rest, CallAt names b m pre w gap rest ∧ args rest

/-- The names of functions are not empty and written in key letters. -/
def AreKeys (names : List String) : Prop :=
  ∀ name ∈ names, name.toList ≠ [] ∧ ∀ k ∈ name.toList, isKeyLetter k

instance (names : List String) : Decidable (AreKeys names) :=
  inferInstanceAs (Decidable (∀ name ∈ names, _))

theorem areKeys_aggregateNames : AreKeys aggregateNames := by decide

section callAt

variable {names : List String} {args : List Char → Prop} {b : Option Char}
  {m pre w gap rest : List Char}

theorem CallAt.letters (hkeys : AreKeys names) (h : CallAt names b m pre w gap rest) :
    w ≠ [] ∧ ∀ c ∈ w, isKeyLetter (fold c) := by
  obtain ⟨name, hname, hw⟩ := h.named
  obtain ⟨hne, hletters⟩ := hkeys name hname
  rw [← hw] at hne hletters
  exact ⟨fun hnil => hne (by rw [hnil]; rfl), fun c hc => hletters _ (List.mem_map_of_mem hc)⟩

/-- The parenthesis of a call is its first character that is neither key letter nor white space. -/
theorem CallAt.not_mem (hkeys : AreKeys names) (h : CallAt names b m pre w gap rest) {c : Char}
    (hkey : isKeyLetter (fold c) = false) (hblank : isBlank c = false) : c ∉ w ++ gap := by
  intro hc
  rcases List.mem_append.mp hc with hc | hc
  · rw [(h.letters hkeys).2 c hc] at hkey
    cases hkey
  · rw [h.blank c hc] at hblank
    cases hblank

/-- A call inside a text, in a longer text. -/
theorem CallAt.between (h : CallAt names none m pre w gap rest) {x : List Char}
    (hx : wordStart (lastOr b x)) (y : List Char) :
    CallAt names b (x ++ m ++ y) (x ++ pre) w gap (rest ++ y) where
  text := by rw [h.text]; simp
  start := by
    rw [lastOr_append]
    cases pre with
    | nil => exact hx
    | cons c pre =>
      have hstart := h.start
      rw [lastOr_cons] at hstart ⊢
      exact hstart
  named := h.named
  blank := h.blank

theorem CallAt.fromStart (h : CallAt names none m pre w gap rest) :
    CallAt names pre.getLast? (w ++ (gap ++ '(' :: rest)) [] w gap rest where
  text := rfl
  start := by
    have hstart := h.start
    simpa [lastOr] using hstart
  named := h.named
  blank := h.blank

theorem CallAt.after (h : CallAt names pre.getLast? m [] w gap rest) :
    CallAt names none (pre ++ m) pre w gap rest where
  text := by rw [h.text, List.nil_append]
  start := by
    have hstart := h.start
    simpa [lastOr] using hstart
  named := h.named
  blank := h.blank

theorem CallAt.atStart (h : CallAt names b m pre w gap rest) :
    CallAt names none m pre w gap rest where
  text := h.text
  start := by
    cases pre with
    | nil => rfl
    | cons c pre =>
      have hstart := h.start
      rw [lastOr_cons] at hstart ⊢
      exact hstart
  named := h.named
  blank := h.blank

/-- No call starts with a parenthesis. -/
theorem CallAt.of_open (hkeys : AreKeys names) (h : CallAt names b ('(' :: m) pre w gap rest) :
    ∃ pre', pre = '(' :: pre' ∧ CallAt names (some '(') m pre' w gap rest := by
  cases pre with
  | nil =>
    obtain ⟨hne, hletters⟩ := h.letters hkeys
    have htext := h.text
    cases w with
    | nil => exact absurd rfl hne
    | cons c w =>
      obtain rfl : '(' = c := (List.cons.inj htext).1
      exact absurd (hletters '(' List.mem_cons_self) (by decide)
  | cons c pre =>
    obtain ⟨rfl, htext⟩ := List.cons.inj h.text
    exact ⟨pre, rfl, htext, by simpa using h.start, h.named, h.blank⟩

/-- A call in a text before a closing parenthesis stands in the text. -/
theorem CallAt.of_append (hkeys : AreKeys names) {x y : List Char}
    (h : CallAt names b (x ++ ')' :: y) pre w gap rest) :
    (∃ rest', rest = rest' ++ ')' :: y ∧ CallAt names b x pre w gap rest') ∨
      ∃ pre', pre = x ++ ')' :: pre' ∧ CallAt names (some ')') y pre' w gap rest := by
  have hparen := h.not_mem hkeys (c := ')') (by decide) (by decide)
  have htext := h.text
  rcases List.append_eq_append_iff.mp htext with ⟨k, rfl, hk⟩ | ⟨k, rfl, hk⟩
  · -- the call stands after the text
    right
    cases k with
    | nil =>
      obtain ⟨hne, hletters⟩ := h.letters hkeys
      cases w with
      | nil => exact absurd rfl hne
      | cons c w =>
        obtain rfl : ')' = c := (List.cons.inj hk).1
        exact absurd (hletters ')' List.mem_cons_self) (by decide)
    | cons c k =>
      obtain ⟨rfl, rfl⟩ := List.cons.inj hk
      exact ⟨k, rfl, rfl, by simpa [lastOr_append] using h.start, h.named, h.blank⟩
  · left
    rw [← List.append_assoc] at hk
    rcases List.append_eq_append_iff.mp hk with ⟨l, rfl, hl⟩ | ⟨l, hl, hl'⟩
    · cases l with
      | nil => cases hl
      | cons c l =>
        obtain ⟨rfl, rfl⟩ := List.cons.inj hl
        exact ⟨l, rfl, by simp, h.start, h.named, h.blank⟩
    · exfalso
      apply hparen
      rw [hl]
      cases l with
      | nil => cases hl'
      | cons c l =>
        obtain ⟨rfl, -⟩ := List.cons.inj hl'
        simp

/-- A call behind a text with a layout stands behind all of the text, unless it stands in a group. -/
theorem Layout.calls_append (hkeys : AreKeys names) {plain : Char → Prop} {inner : List Char → Prop} {x : List Char}
    (h : Layout names plain inner b x)
    (hinner : ∀ body y, Balanced body → inner body →
      ∀ pre w gap rest, CallAt names none body pre w gap rest → ¬ args (rest ++ ')' :: y))
    (hcalls : Calls names args b (x ++ m)) : Calls names args (lastOr b x) m := by
  induction h with
  | nil => exact hcalls
  | @char b c x _ hopen hclose hquiet _ ih =>
    obtain ⟨pre, w, gap, rest, hcall, hargs⟩ := hcalls
    cases pre with
    | nil =>
      obtain ⟨name, hname, hw⟩ := hcall.named
      have hletters : letters? name.toList (c :: (x ++ m)) = some (gap ++ '(' :: rest) :=
        letters?_eq_some_iff.mpr ⟨w, hcall.text, hw⟩
      have hclash := clash_append (hquiet hcall.start name hname) m
      rw [List.cons_append, clash_of_letters? hletters] at hclash
      cases hclash
    | cons d pre =>
      obtain ⟨rfl, htext⟩ := List.cons.inj hcall.text
      rw [lastOr_cons]
      exact ih ⟨pre, w, gap, rest, ⟨htext, by simpa using hcall.start, hcall.named, hcall.blank⟩, hargs⟩
  | @group b body x hbody hi _ ih =>
    obtain ⟨pre, w, gap, rest, hcall, hargs⟩ := hcalls
    rw [List.cons_append, List.append_assoc, List.cons_append] at hcall
    rw [lastOr_cons, lastOr_append, lastOr_cons]
    obtain ⟨pre, rfl, hin⟩ := hcall.of_open hkeys
    rcases hin.of_append hkeys with ⟨rest', rfl, hinside⟩ | ⟨pre', rfl, hafter⟩
    · exact absurd hargs (hinner body (x ++ m) hbody hi pre w gap rest' hinside.atStart)
    · exact ih ⟨pre', w, gap, rest, hafter, hargs⟩

theorem not_calls_of_not_mem (h : '(' ∉ m) : ¬ Calls names args b m := by
  rintro ⟨pre, w, gap, rest, hcall, -⟩
  apply h
  rw [hcall.text]
  simp

/-- Calls stand in the groups of a layout only. -/
theorem Layout.not_calls (hkeys : AreKeys names) {plain : Char → Prop} {inner : List Char → Prop}
    (h : Layout names plain inner b m)
    (hinner : ∀ body y, Balanced body → inner body →
      ∀ pre w gap rest, CallAt names none body pre w gap rest → ¬ args (rest ++ ')' :: y)) :
    ¬ Calls names args b m := by
  intro hcalls
  rw [← List.append_nil m] at hcalls
  exact not_calls_of_not_mem List.not_mem_nil (h.calls_append hkeys hinner hcalls)

end callAt

/-! ## Aggregate calls -/

/-- The name of a call and its parenthesis are where the key letters and the white space end. -/
theorem CallAt.eq_takeWhile {names : List String} (hkeys : AreKeys names) {b : Option Char}
    {cs w gap rest : List Char} (h : CallAt names b cs [] w gap rest) :
    w = cs.takeWhile (fun c => isKeyLetter (fold c)) ∧
      '(' :: rest = (cs.dropWhile fun c => isKeyLetter (fold c)).dropWhile isBlank := by
  have hletters := (h.letters hkeys).2
  have hstop : ∀ c ∈ (gap ++ '(' :: rest).head?, isKeyLetter (fold c) = false := by
    cases gap with
    | nil =>
      rintro c hc
      cases hc
      rfl
    | cons d gap =>
      rintro c hc
      cases hc
      by_contra hkey
      rw [Bool.not_eq_false] at hkey
      have hblank := h.blank d List.mem_cons_self
      rw [isBlank_of_isKeyLetter_fold hkey] at hblank
      cases hblank
  have htake : (gap ++ '(' :: rest).takeWhile (fun c => isKeyLetter (fold c)) = [] := by
    cases hgap : gap ++ '(' :: rest with
    | nil => rfl
    | cons d ds =>
      rw [hgap] at hstop
      rw [List.takeWhile_cons, hstop d rfl]
      rfl
  rw [h.text, List.nil_append, List.takeWhile_append_of_pos hletters, htake, List.append_nil,
    List.dropWhile_append_of_pos hletters, dropWhile_eq_self hstop,
    List.dropWhile_append_of_pos h.blank, dropWhile_eq_self (by simp; decide)]
  exact ⟨rfl, rfl⟩

theorem callStart?_eq_some_iff {n k : Nat} {b : Option Char} {cs rest : List Char} :
    callStart? ⟨n, b, cs⟩ = some (k, rest) ↔
      ∃ w gap, CallAt aggregateNames b cs [] w gap rest ∧ k = w.length := by
  have hread (name : String) (r : List Char) :
      (letters? name.toList cs).map (·.dropWhile isBlank) = some ('(' :: r) ↔
        ∃ w gap, cs = w ++ (gap ++ '(' :: r) ∧ w.map fold = name.toList ∧ ∀ c ∈ gap, isBlank c := by
    constructor
    · intro h
      obtain ⟨after, hafter, hdrop⟩ := Option.map_eq_some_iff.mp h
      obtain ⟨w, rfl, hw⟩ := letters?_eq_some_iff.mp hafter
      refine ⟨w, after.takeWhile isBlank, ?_, hw, fun c hc => List.mem_takeWhile_imp hc⟩
      rw [← hdrop, List.takeWhile_append_dropWhile]
    · rintro ⟨w, gap, rfl, hw, hblank⟩
      have hletters : letters? name.toList (w ++ (gap ++ '(' :: r)) = some (gap ++ '(' :: r) :=
        letters?_eq_some_iff.mpr ⟨w, rfl, hw⟩
      rw [hletters, Option.map_some, List.dropWhile_append_of_pos hblank,
        dropWhile_eq_self (by simp; decide)]
  have hfound (l : Nat) (r : List Char) (h : callStart? ⟨n, b, cs⟩ = some (l, r)) :
      ∃ w gap, CallAt aggregateNames b cs [] w gap r ∧ l = w.length := by
    rw [callStart?] at h
    split at h
    next hb =>
      obtain ⟨name, hname, hname'⟩ := List.exists_of_findSome?_eq_some h
      split at hname'
      next r' hletters =>
        obtain ⟨w, gap, htext, hw, hblank⟩ := (hread name r').mp hletters
        obtain ⟨rfl, rfl⟩ := Prod.mk.inj (Option.some.inj hname')
        refine ⟨w, gap, ⟨htext, hb, ⟨name, hname, hw⟩, hblank⟩, ?_⟩
        rw [← String.length_toList, ← hw, List.length_map]
      next => cases hname'
    next => cases h
  constructor
  · exact hfound k rest
  · rintro ⟨w, gap, hcall, rfl⟩
    obtain ⟨name, hname, hw⟩ := hcall.named
    have hstart : Place.startsWord ⟨n, b, cs⟩ = true := hcall.start
    have hletters := (hread name rest).mpr ⟨w, gap, hcall.text, hw, hcall.blank⟩
    have hsome : (callStart? ⟨n, b, cs⟩).isSome := by
      rw [callStart?, if_pos hstart, List.findSome?_isSome_iff]
      refine ⟨name, hname, ?_⟩
      simp only [hletters]
      rfl
    -- another name may be found first, but it is written with the same letters
    obtain ⟨⟨l, r⟩, hlr⟩ := Option.isSome_iff_exists.mp hsome
    obtain ⟨w', gap', hcall', rfl⟩ := hfound l r hlr
    obtain ⟨hw1, hrest1⟩ := hcall.eq_takeWhile areKeys_aggregateNames
    obtain ⟨hw2, hrest2⟩ := hcall'.eq_takeWhile areKeys_aggregateNames
    rw [hlr, hw1, hw2, (List.cons.inj (hrest1.trans hrest2.symm)).2]

theorem hasCall_iff {m : List Char} :
    hasCall m ↔ Calls aggregateNames (fun _ => True) none m := by
  rw [hasCall, List.any_eq_true]
  constructor
  · rintro ⟨p, hp, hsome⟩
    obtain ⟨pre, post, rfl, rfl⟩ := mem_places.mp hp
    obtain ⟨⟨k, rest⟩, hstart⟩ := Option.isSome_iff_exists.mp hsome
    obtain ⟨w, gap, hcall, -⟩ := callStart?_eq_some_iff.mp hstart
    exact ⟨pre, w, gap, rest, hcall.after, trivial⟩
  · rintro ⟨pre, w, gap, rest, hcall, -⟩
    have hstart := callStart?_eq_some_iff (n := pre.length).mpr ⟨w, gap, hcall.fromStart, rfl⟩
    exact ⟨_, mem_places.mpr ⟨pre, _, hcall.text, rfl⟩, Option.isSome_iff_exists.mpr ⟨_, hstart⟩⟩

/-- Where the parenthesis of a call stands in a masked text. -/
theorem CallAt.opened {pre w gap rest m : List Char} (h : CallAt aggregateNames none m pre w gap rest) :
    m.length - rest.length - 1 = (pre ++ w ++ gap).length ∧ m.drop (pre ++ w ++ gap).length = '(' :: rest ∧
      m = (pre ++ w ++ gap) ++ '(' :: rest := by
  have htext : m = (pre ++ w ++ gap) ++ '(' :: rest := by
    rw [h.text]
    simp only [List.append_assoc]
  refine ⟨?_, ?_, htext⟩
  · rw [htext, List.length_append, List.length_cons]
    omega
  · rw [htext, List.drop_left]

/-- A call between parentheses in a text: where it stands in the masked text, and the length of what
stands between the parentheses. -/
def EmbeddedCall (cs : List Char) (call : AggregateCall) : Prop :=
  ∃ pre w gap rest k, CallAt aggregateNames none (mask cs) pre w gap rest ∧ closing? 1 rest = some k ∧
    call = makeCall w ((cs.drop (pre.length + w.length + gap.length + 1)).take k)

theorem mem_embeddedCalls_iff {cs : List Char} {call : AggregateCall} :
    call ∈ embeddedCalls cs ↔ EmbeddedCall cs call := by
  rw [embeddedCalls, List.mem_filterMap]
  constructor
  · rintro ⟨p, hp, hcall⟩
    obtain ⟨pre, post, htext, rfl⟩ := mem_places.mp hp
    simp only [Option.bind_eq_bind, Option.bind_eq_some_iff] at hcall
    obtain ⟨⟨length, rest⟩, hstart, closed, hclosed, hcall⟩ := hcall
    obtain ⟨w, gap, hat, rfl⟩ := callStart?_eq_some_iff.mp hstart
    have hpost : post.take w.length = w := by
      rw [hat.text, List.nil_append, List.take_left]
    have hat : CallAt aggregateNames none (mask cs) pre w gap rest := htext ▸ hat.after
    obtain ⟨hopened, hdrop, -⟩ := hat.opened
    rw [hopened, hdrop, closing?_open] at hclosed
    obtain ⟨k, hk, rfl⟩ := Option.map_eq_some_iff.mp hclosed
    rw [Option.some_inj] at hcall
    rw [← hcall, hopened, Nat.add_sub_cancel, List.length_append, List.length_append]
    refine ⟨pre, w, gap, rest, k, hat, hk, ?_⟩
    show makeCall (post.take w.length) _ = _
    rw [hpost]
  · rintro ⟨pre, w, gap, rest, k, hat, hk, rfl⟩
    obtain ⟨hopened, hdrop, -⟩ := hat.opened
    rw [List.length_append, List.length_append] at hopened hdrop
    have hstart := callStart?_eq_some_iff (n := pre.length).mpr ⟨w, gap, hat.fromStart, rfl⟩
    refine ⟨_, mem_places.mpr ⟨pre, _, hat.text, rfl⟩, ?_⟩
    simp only [Option.bind_eq_bind, hstart, Option.bind_some, hopened, hdrop, closing?_open, hk, Option.map_some,
      List.take_left, Nat.add_sub_cancel]

section embedded

variable {cs : List Char} {call : AggregateCall}

/-- What stands around a text takes none of its calls away. -/
theorem EmbeddedCall.between (hcs : Closed cs) (h : EmbeddedCall cs call) {x : List Char}
    (hx : Closed x) (hstart : wordStart (lastOr none (mask x))) (y : List Char) :
    EmbeddedCall (x ++ cs ++ y) call := by
  obtain ⟨pre, w, gap, rest, k, hat, hk, rfl⟩ := h
  have hmask : mask (x ++ cs ++ y) = mask x ++ mask cs ++ mask y := by
    rw [List.append_assoc, mask_append hx, mask_append hcs, List.append_assoc]
  have hlength : cs.length = pre.length + w.length + gap.length + 1 + rest.length := by
    rw [← length_mask, hat.text]
    simp only [List.length_append, List.length_cons]
    omega
  have hrest := lt_of_closing? hk
  refine ⟨mask x ++ pre, w, gap, rest ++ mask y, k, hmask ▸ hat.between hstart (mask y),
    closing?_append hk (mask y), ?_⟩
  have hdrop : (x ++ cs ++ y).drop ((mask x ++ pre).length + w.length + gap.length + 1) =
      cs.drop (pre.length + w.length + gap.length + 1) ++ y := by
    have hoffset : (mask x ++ pre).length + w.length + gap.length + 1 =
        x.length + (pre.length + w.length + gap.length + 1) := by
      rw [List.length_append, length_mask]
      omega
    rw [hoffset, ← List.drop_drop, List.append_assoc, List.drop_left,
      List.drop_append_of_le_length (by omega)]
  rw [hdrop, List.take_append_of_le_length]
  rw [List.length_drop]
  omega

/-- Parentheses around a text hold its calls only. -/
theorem EmbeddedCall.of_group (hcs : WellFormed cs) (h : EmbeddedCall ('(' :: (cs ++ [')'])) call) :
    EmbeddedCall cs call := by
  obtain ⟨pre', w, gap, rest', k, hat, hk, rfl⟩ := h
  rw [mask_group hcs.closed] at hat
  obtain ⟨pre, rfl, hin⟩ := hat.of_open areKeys_aggregateNames
  rcases hin.of_append areKeys_aggregateNames with ⟨rest, rfl, hcall⟩ | ⟨pre', -, hafter⟩
  · have htext : mask cs = pre ++ (w ++ gap) ++ '(' :: rest := by
      rw [hcall.text]
      simp
    -- the parenthesis is closed before the text ends
    have hbalanced : depthAfter? 0 (pre ++ (w ++ gap) ++ '(' :: rest) = some 0 := htext ▸ hcs.balanced
    rw [depthAfter?_append] at hbalanced
    obtain ⟨d, -, hd⟩ := Option.bind_eq_some_iff.mp hbalanced
    rw [depthAfter?, if_pos rfl, Nat.add_comm] at hd
    obtain ⟨j, hj⟩ := exists_closing?_of_depthAfter? Nat.one_pos (Nat.zero_le d) hd
    obtain rfl : j = k := Option.some.inj ((closing?_append hj [')']).symm.trans hk)
    refine ⟨pre, w, gap, rest, j, hcall.atStart, hj, ?_⟩
    have hlength : cs.length = pre.length + w.length + gap.length + 1 + rest.length := by
      rw [← length_mask, htext]
      simp only [List.length_append, List.length_cons]
      omega
    have hrest := lt_of_closing? hj
    have hdrop : ('(' :: (cs ++ [')'])).drop (('(' :: pre).length + w.length + gap.length + 1) =
        cs.drop (pre.length + w.length + gap.length + 1) ++ [')'] := by
      have hoffset : ('(' :: pre).length + w.length + gap.length + 1 =
          (pre.length + w.length + gap.length + 1) + 1 := by
        rw [List.length_cons]
        omega
      rw [hoffset, List.drop_succ_cons, List.drop_append_of_le_length (by omega)]
    rw [hdrop, List.take_append_of_le_length]
    rw [List.length_drop]
    omega
  · have htext := hafter.text
    simp at htext

/-- The layers around a text take none of its calls away. -/
theorem mem_embeddedCalls_of_layered {core : List Char} (h : Layered core cs) (hcs : Closed cs)
    (hcall : call ∈ embeddedCalls core) : call ∈ embeddedCalls cs := by
  induction h with
  | core => exact hcall
  | @blank a inner b ha hb _ ih =>
    rw [List.append_assoc, closed_append_iff (closed_of_blank ha)] at hcs
    have hinner : Closed inner := closed_of_append hcs fun c hc => isQuote_of_isBlank (hb c hc)
    have hstart : wordStart (lastOr none (mask a)) := by
      rw [mask_of_blank ha]
      exact wordStart_of_blank ha
    have hin := mem_embeddedCalls_iff.mp (ih hinner)
    exact mem_embeddedCalls_iff.mpr (hin.between hinner (closed_of_blank ha) hstart b)
  | group hinner _ ih =>
    have hin := mem_embeddedCalls_iff.mp (ih hinner.closed)
    exact mem_embeddedCalls_iff.mpr (hin.between hinner.closed (x := ['(']) rfl rfl [')'])

theorem mem_embeddedCalls_of_unwrap (hcs : Closed cs) (h : call ∈ embeddedCalls (unwrap cs)) :
    call ∈ embeddedCalls cs :=
  mem_embeddedCalls_of_layered (eq_unwrap_iff.mp rfl).1 hcs h

theorem mem_embeddedCalls_of_singleCall? (hcs : Closed cs) (h : singleCall? cs = some call) :
    call ∈ embeddedCalls cs := by
  apply mem_embeddedCalls_of_unwrap hcs
  rw [mem_embeddedCalls_iff]
  simp only [singleCall?, Option.bind_eq_bind, Option.bind_eq_some_iff] at h
  obtain ⟨⟨length, rest⟩, hstart, h⟩ := h
  obtain ⟨w, gap, hat, rfl⟩ := callStart?_eq_some_iff.mp hstart
  obtain ⟨hopened, hdrop, htext⟩ := hat.opened
  rw [List.nil_append] at hopened hdrop htext
  split at h
  next hclosed =>
    rw [hopened, hdrop, closing?_open, Option.map_map] at hclosed
    obtain ⟨k, hk, hlength⟩ := Option.map_eq_some_iff.mp hclosed
    have hcall := Option.some.inj h
    refine ⟨[], w, gap, rest, k, hat, hk, ?_⟩
    have hlength : k + 1 + (w ++ gap).length = (unwrap cs).length - 1 := hlength
    have htake : (mask (unwrap cs)).take w.length = w := by
      rw [htext, List.append_assoc, List.take_left]
    rw [← hcall, hopened, htake, List.dropLast_eq_take, List.length_drop, List.length_nil, Nat.zero_add,
      List.length_append]
    rw [List.length_append] at hlength
    congr 2
    omega
  next => cases h

end embedded

/-! ## A call as it is written -/

/-- No call starts with a parenthesis. -/
theorem callStart?_open (n : Nat) (b : Option Char) (cs : List Char) : callStart? ⟨n, b, '(' :: cs⟩ = none := by
  rw [Option.eq_none_iff_forall_ne_some]
  rintro ⟨k, rest⟩ hstart
  obtain ⟨w, gap, hat, -⟩ := callStart?_eq_some_iff.mp hstart
  obtain ⟨pre, hpre, -⟩ := hat.of_open areKeys_aggregateNames
  cases hpre

/-- The call in parentheses is the call without them, if they belong together. -/
theorem singleCall?_group {cs : List Char} (h : Trimmed cs) (hhead : cs.head? ≠ some '(') :
    singleCall? ('(' :: (cs ++ [')'])) = if isEnclosed ('(' :: (cs ++ [')'])) then singleCall? cs else none := by
  split_ifs with henclosed
  · rw [singleCall?, unwrap_group h hhead, if_pos henclosed, singleCall?, unwrap_eq_self h hhead]
  · have hmask : mask ('(' :: (cs ++ [')'])) = '(' :: mask (cs ++ [')']) := rfl
    rw [singleCall?, unwrap_group h hhead, if_neg henclosed]
    simp only [hmask, callStart?_open, Option.bind_eq_bind, Option.bind_none]

section application

variable {w body : List Char} (hw : ∃ name ∈ aggregateNames, w.map fold = name.toList)
include hw

/-- A function and a parenthesis are read as a call, if the parenthesis belongs to the last one of the text. -/
theorem singleCall?_application (body : List Char) : singleCall? (w ++ '(' :: (body ++ [')'])) =
    if closing? 0 ('(' :: mask (body ++ [')'])) = some (body.length + 1) then some (makeCall w body) else none := by
  have hat : CallAt aggregateNames none (w ++ '(' :: mask (body ++ [')'])) [] w [] (mask (body ++ [')'])) :=
    ⟨rfl, rfl, hw, nofun⟩
  obtain ⟨hne, hletters⟩ := hat.letters areKeys_aggregateNames
  have hquote : ∀ c ∈ w, isQuote c = false := by
    intro c hc
    by_contra hq
    have hkey := hletters c hc
    rw [Bool.not_eq_false, isQuote, Bool.or_eq_true, beq_iff_eq, beq_iff_eq] at hq
    rcases hq with rfl | rfl <;> exact absurd hkey (by decide)
  have hmask : mask (w ++ '(' :: (body ++ [')'])) = w ++ '(' :: mask (body ++ [')']) := by
    rw [mask_append (closed_of_no_quote hquote), mask_of_no_quote hquote]
    rfl
  have hunwrap : unwrap (w ++ '(' :: (body ++ [')'])) = w ++ '(' :: (body ++ [')']) := by
    obtain ⟨c, w, rfl⟩ := List.exists_cons_of_ne_nil hne
    have hkey := hletters c List.mem_cons_self
    apply unwrap_eq_self
    · refine trimmed_of_ends (c := c) (d := ')') (isBlank_of_isKeyLetter_fold hkey) rfl rfl ?_
      rw [← List.cons_append, ← List.append_assoc, List.getLast?_concat]
    · rintro hc
      obtain rfl : c = '(' := Option.some.inj hc
      exact absurd hkey (by decide)
  have hstart := callStart?_eq_some_iff (n := 0).mpr ⟨w, [], hat, rfl⟩
  have hopened : (w ++ '(' :: mask (body ++ [')'])).length - (mask (body ++ [')'])).length - 1 = w.length := by
    simp only [List.length_append, List.length_cons]
    omega
  have hlength : (w ++ '(' :: (body ++ [')'])).length - 1 = body.length + 1 + w.length := by
    simp only [List.length_append, List.length_cons, List.length_nil]
    omega
  have hdrop : (w ++ '(' :: (body ++ [')'])).drop (w.length + 1) = body ++ [')'] := by
    rw [← List.drop_drop, List.drop_left]
    rfl
  have hclosed : ((closing? 0 ('(' :: mask (body ++ [')']))).map (· + w.length) = some (body.length + 1 + w.length)) =
      (closing? 0 ('(' :: mask (body ++ [')'])) = some (body.length + 1)) := by
    cases closing? 0 ('(' :: mask (body ++ [')'])) with
    | none => simp
    | some k => simp
  simp only [singleCall?, hunwrap, hmask, hstart, Option.bind_eq_bind, Option.bind_some, hopened, List.drop_left,
    hlength, hclosed, List.take_left, hdrop, List.dropLast_concat]

/-- A function applied to a text is read as one call. -/
theorem singleCall?_call (hbody : WellFormed body) :
    singleCall? (w ++ '(' :: (body ++ [')'])) = some (makeCall w body) := by
  have hmask : mask (body ++ [')']) = mask body ++ [')'] := by
    rw [mask_append hbody.closed]
    rfl
  rw [singleCall?_application hw, hmask, closing?_group hbody.balanced [], length_mask, if_pos rfl]

end application

end MetricLayer.Sql
