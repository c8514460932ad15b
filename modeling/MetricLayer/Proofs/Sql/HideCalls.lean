import MetricLayer.Proofs.Sql.Argument
import MetricLayer.Proofs.Sql.Hide

/-!
# Calls in texts without their literals

The aggregate calls of a text without its literals are those of the text, with their arguments without
literals (`embeddedCalls_hide`, `singleCall?_hide`).  The cast around an argument is the one place that is
searched without masking: a type holds no quotes and runs to the end of the text, so that it cannot begin
inside quotes that are closed later on (`castStop?_hideFrom`).
-/

namespace MetricLayer.Sql

open MetricLayer.Text

variable {cs : List Char}

/-! ## Parentheses -/

theorem isEnclosed_hide (cs : List Char) : isEnclosed (hide cs) = isEnclosed cs := by
  rw [isEnclosed, isEnclosed, head?_hide, mask_hide, length_hide]

theorem unwrapWithin_hide (n : Nat) (h : Closed cs) :
    unwrapWithin n (hide cs) = hide (unwrapWithin n cs) ∧ Closed (unwrapWithin n cs) := by
  induction n generalizing cs with
  | zero => exact ⟨rfl, h⟩
  | succ n ih =>
    rw [unwrapWithin, unwrapWithin, isEnclosed_hide]
    split
    next henclosed =>
      obtain ⟨inner, hinner, rfl⟩ := isEnclosed_iff.mp henclosed
      have hhidden : hide ('(' :: (inner ++ [')'])) = '(' :: (hide inner ++ [')']) := by
        rw [hide_cons rfl, hide_append hinner.closed]
        rfl
      rw [hhidden, List.tail_cons, List.tail_cons, List.dropLast_concat, List.dropLast_concat, trim_hide hinner.closed]
      exact ih (closed_trim hinner.closed)
    next => exact ⟨rfl, h⟩

theorem unwrap_hide (h : Closed cs) : unwrap (hide cs) = hide (unwrap cs) := by
  rw [unwrap, unwrap, length_hide, trim_hide h]
  exact (unwrapWithin_hide _ (closed_trim h)).1

theorem closed_unwrap (h : Closed cs) : Closed (unwrap cs) :=
  (unwrapWithin_hide _ (closed_trim h)).2

/-! ## Casts -/

theorem isTypeChar_of_isQuote : ∀ q, isQuote q → isTypeChar q = false :=
  fun _ => of_isQuote (P := fun q => isTypeChar q = false) (by decide +kernel) (by decide +kernel)

theorem isQuote_of_isTypeChar {c : Char} (h : isTypeChar c) : isQuote c = false := by
  by_contra hquote
  rw [isTypeChar_of_isQuote c (by simpa using hquote)] at h
  cases h

/-- A type holds no quotes. -/
theorem no_quote_of_isCastType (h : isCastType cs) : ∀ c ∈ cs, isQuote c = false := by
  cases cs with
  | nil => exact nofun
  | cons b type =>
    simp only [isCastType, Bool.and_eq_true, List.all_eq_true] at h
    exact List.forall_mem_cons.mpr ⟨isQuote_of_isBlank h.1.1.1, fun c hc => isQuote_of_isTypeChar (h.2 c hc)⟩

/-- No quotes stand behind the end of what a cast is applied to. -/
theorem no_quote_of_castStop? {n k : Nat} {b : Option Char} (h : castStop? ⟨n, b, cs⟩ = some k) :
    k = n ∧ ∀ c ∈ cs, isQuote c = false := by
  simp only [castStop?, Option.bind_eq_bind, Option.bind_eq_some_iff] at h
  obtain ⟨rest, hblank, type, hletters, h⟩ := h
  split at h
  next htype =>
    obtain ⟨gap, -, hgap, rfl, -⟩ := afterBlank?_eq_some_iff.mp hblank
    obtain ⟨w, rfl, hw⟩ := letters?_eq_some_iff.mp hletters
    have hword : ∀ c ∈ w, isQuote c = false := no_quote_of_map_fold (by decide) hw
    refine ⟨(Option.some.inj h).symm, ?_⟩
    simp only [List.forall_mem_append]
    exact ⟨fun c hc => isQuote_of_isBlank (hgap c hc), hword, no_quote_of_isCastType htype⟩
  next => cases h

theorem isCastType_hide (cs : List Char) : isCastType (hide cs) = isCastType cs := by
  cases cs with
  | nil => rfl
  | cons b type =>
    cases hb : isQuote b with
    | true =>
      simp only [hide_quote hb, isCastType, isBlank_of_isQuote b hb, Bool.false_and]
    | false =>
      rw [hide_cons hb, isCastType, isCastType]
      cases htype : type.all isTypeChar with
      | true =>
        have hquote : ∀ c ∈ type, isQuote c = false :=
          fun c hc => isQuote_of_isTypeChar (List.all_eq_true.mp htype c hc)
        rw [hide_of_no_quote hquote, htype]
      | false =>
        rw [all_hide isTypeChar_of_isQuote, htype, Bool.and_false, Bool.and_false]

/-- The end of what a cast is applied to does not stand in quotes that are closed later. -/
theorem castStop?_of_quoteAfter {q : Char} (hq : isQuote q) (h : quoteAfter (some q) cs = none) (n : Nat)
    (b : Option Char) : castStop? ⟨n, b, cs⟩ = none := by
  rw [Option.eq_none_iff_forall_ne_some]
  intro k hk
  have hmem : q ∉ cs := fun hmem => by
    rw [(no_quote_of_castStop? hk).2 q hmem] at hq
    cases hq
  rw [quoteAfter_some_of_not_mem hmem] at h
  cases h

theorem castStop?_hideFrom {state : Option Char} (hstate : ∀ q ∈ state, isQuote q) (h : quoteAfter state cs = none)
    (n : Nat) (b b' : Option Char) : castStop? ⟨n, b, hideFrom state cs⟩ = castStop? ⟨n, b', cs⟩ := by
  cases state with
  | some q =>
    have hq := hstate q rfl
    rw [castStop?_of_quoteAfter hq h, castStop?_of_quoteAfter hq (by rwa [quoteAfter_hideFrom])]
  | none =>
    have has (rest : List Char) : letters? ['a', 's'] (hide rest) = (letters? ['a', 's'] rest).map hide :=
      letters?_hide (by decide) rest
    show castStop? ⟨n, b, hide cs⟩ = castStop? ⟨n, b', cs⟩
    simp only [castStop?, Option.bind_eq_bind, afterBlank?_hide]
    cases afterBlank? cs with
    | none => rfl
    | some rest =>
      simp only [Option.map_some, Option.bind_some, has]
      cases letters? ['a', 's'] rest with
      | none => rfl
      | some type => simp only [Option.map_some, Option.bind_some, isCastType_hide]

theorem castStops_hideFrom {state : Option Char} (hstate : ∀ q ∈ state, isQuote q) (h : quoteAfter state cs = none)
    (n : Nat) (b b' : Option Char) :
    (placesFrom n b (hideFrom state cs)).filterMap castStop? = (placesFrom n b' cs).filterMap castStop? := by
  induction cs generalizing state n b b' with
  | nil => rfl
  | cons c cs ih =>
    have hfirst := castStop?_hideFrom hstate h n b b'
    have hrest := ih (isQuote_of_mem_quoteAfter hstate [c]) h (n + 1) (some (hideStep state c)) (some c)
    rw [hideFrom] at hfirst
    rw [hideFrom, placesFrom, placesFrom, List.filterMap_cons, List.filterMap_cons, hfirst]
    split
    · exact hrest
    · exact congrArg _ hrest

theorem castBody?_hide (h : Closed cs) : castBody? (hide cs) = (castBody? cs).map hide := by
  have hstops : (places (hide cs)).filterMap castStop? = (places cs).filterMap castStop? :=
    castStops_hideFrom (by simp) h 0 none none
  rw [castBody?, castBody?, hstops, Option.map_map]
  congr 1
  funext n
  exact (hide_take n cs).symm

theorem closed_of_castBody? (h : Closed cs) {argument : List Char} (hread : castBody? cs = some argument) :
    Closed argument := by
  obtain ⟨stop, hstop, rfl⟩ := Option.map_eq_some_iff.mp hread
  obtain ⟨p, hp, hfound⟩ := List.mem_filterMap.mp (List.mem_of_getLast? hstop)
  obtain ⟨pre, post, rfl, rfl⟩ := mem_places.mp hp
  obtain ⟨rfl, hquote⟩ := no_quote_of_castStop? hfound
  rw [List.take_left]
  exact closed_of_append h hquote

theorem castOpened?_hide (cs : List Char) : castOpened? (hide cs) = (castOpened? cs).map hide := by
  have hskip : (letters? "try_".toList (hide cs)).getD (hide cs) = hide ((letters? "try_".toList cs).getD cs) := by
    rw [letters?_hide (by decide)]
    cases letters? "try_".toList cs <;> rfl
  rw [castOpened?, castOpened?, hskip, letters?_hide (by decide)]
  cases letters? "cast".toList ((letters? "try_".toList cs).getD cs) with
  | none => rfl
  | some rest =>
    simp only [Option.map_some, dropWhile_hide isBlank_of_isQuote]
    cases rest.dropWhile isBlank with
    | nil => rfl
    | cons c body =>
      by_cases hc : c = '('
      · subst hc
        rw [hide_cons (by decide)]
        rfl
      · obtain ⟨body', hbody⟩ := List.head?_eq_some_iff.mp (head?_hide (c :: body))
        rw [hbody]
        simp [hc]

theorem closed_of_castOpened? (h : Closed cs) {body : List Char} (hread : castOpened? cs = some body) : Closed body := by
  have hskip : Closed ((letters? "try_".toList cs).getD cs) := by
    cases hletters : letters? "try_".toList cs with
    | none => exact h
    | some rest => exact closed_of_letters? (by decide) h hletters
  rw [castOpened?] at hread
  split at hread
  next rest hrest =>
    obtain ⟨after, hletters, hafter⟩ := Option.map_eq_some_iff.mp hrest
    cases hread
    have hclosed := closed_dropWhile isBlank_of_isQuote (closed_of_letters? (by decide) hskip hletters)
    rw [hafter] at hclosed
    exact (closed_append_iff (a := ['(']) rfl _).mp hclosed
  next => cases hread

/-- A cast is read off a text whatever its literals are. -/
theorem castArgument?_hide (h : Closed cs) : castArgument? (hide cs) = (castArgument? cs).map hide := by
  rw [castArgument?_eq_bind, castArgument?_eq_bind, castOpened?_hide]
  cases hbody : castOpened? cs with
  | none => rfl
  | some body => exact castBody?_hide (closed_of_castOpened? h hbody)

theorem closed_of_castArgument? (h : Closed cs) {argument : List Char} (hread : castArgument? cs = some argument) :
    Closed argument := by
  rw [castArgument?_eq_bind] at hread
  obtain ⟨body, hbody, hread⟩ := Option.bind_eq_some_iff.mp hread
  exact closed_of_castBody? (closed_of_castOpened? h hbody) hread

/-! ## Calls -/

/-- The call with its argument without literals. -/
def AggregateCall.hide (call : AggregateCall) : AggregateCall :=
  { call with argument := Sql.hide call.argument }

theorem afterDistinct?_hide (cs : List Char) : afterDistinct? (hide cs) = (afterDistinct? cs).map hide := by
  rw [afterDistinct?, afterDistinct?, letters?_hide (by decide)]
  cases letters? "distinct".toList cs with
  | none => rfl
  | some rest => exact afterBlank?_hide rest

theorem closed_of_afterDistinct? (h : Closed cs) {rest : List Char} (hread : afterDistinct? cs = some rest) :
    Closed rest := by
  obtain ⟨after, hletters, hblank⟩ := Option.bind_eq_some_iff.mp hread
  exact closed_of_afterBlank? (closed_of_letters? (by decide) h hletters) hblank

/-- A text without DISTINCT before it. -/
theorem getD_afterDistinct?_hide (h : Closed cs) :
    (afterDistinct? (hide cs)).getD (hide cs) = hide ((afterDistinct? cs).getD cs) ∧
      Closed ((afterDistinct? cs).getD cs) := by
  rw [afterDistinct?_hide]
  cases hread : afterDistinct? cs with
  | none => exact ⟨rfl, h⟩
  | some rest => exact ⟨rfl, closed_of_afterDistinct? h hread⟩

theorem makeCall_hide (w : List Char) (h : Closed cs) :
    makeCall w (hide cs) = (makeCall w cs).hide ∧ Closed (makeCall w cs).argument := by
  have htrim := closed_trim h
  obtain ⟨hrest, hclosed⟩ := getD_afterDistinct?_hide htrim
  have hunwrap := closed_unwrap hclosed
  have hdistinct : (afterDistinct? (hide (trim cs))).isSome = (afterDistinct? (trim cs)).isSome := by
    rw [afterDistinct?_hide, Option.isSome_map]
  rw [makeCall, makeCall, AggregateCall.hide, trim_hide h, hdistinct, hrest, unwrap_hide hclosed,
    castArgument?_hide hunwrap]
  cases hcast : castArgument? (unwrap ((afterDistinct? (trim cs)).getD (trim cs))) with
  | none => exact ⟨rfl, hunwrap⟩
  | some argument =>
    have hargument := closed_of_castArgument? hunwrap hcast
    simp only [Option.map_some, Option.getD_some, unwrap_hide hargument]
    exact ⟨trivial, closed_unwrap hargument⟩

/-- A parenthesis that is seen in a masked text, and the one that closes it, enclose a text with closed quotes. -/
theorem exists_group_of_closing? {a rest : List Char} {k : Nat} (h : mask cs = a ++ '(' :: rest)
    (hk : closing? 1 rest = some k) :
    ∃ x body y, cs = x ++ '(' :: (body ++ ')' :: y) ∧ Closed x ∧ Closed body ∧ x.length = a.length ∧ body.length = k := by
  obtain ⟨x, inside, rfl, hx, rfl, rfl⟩ := exists_of_mask_eq_append_cons h (by decide) (by decide)
  obtain ⟨hlt, hget⟩ := List.getElem?_eq_some_iff.mp (getElem?_of_closing? hk)
  have hsplit : mask inside = (mask inside).take k ++ ')' :: (mask inside).drop (k + 1) := by
    rw [← hget, List.getElem_cons_drop, List.take_append_drop]
  obtain ⟨body, y, rfl, hbody, hmask, -⟩ := exists_of_mask_eq_append_cons hsplit (by decide) (by decide)
  have hlength := congrArg List.length hmask
  rw [length_mask, List.length_take_of_le hlt.le] at hlength
  exact ⟨x, body, y, rfl, hx, hbody, (length_mask x).symm, hlength⟩

theorem hide_group {x body : List Char} (hx : Closed x) (hbody : Closed body) (y : List Char) :
    hide (x ++ '(' :: (body ++ ')' :: y)) = hide x ++ '(' :: (hide body ++ ')' :: hide y) := by
  rw [hide_append hx, hide_cons rfl, hide_append hbody, hide_cons rfl]

theorem take_drop_group {n k : Nat} {x body : List Char} (hn : x.length = n) (hk : body.length = k) (y : List Char) :
    ((x ++ '(' :: (body ++ ')' :: y)).drop (n + 1)).take k = body := by
  subst hn hk
  rw [← List.drop_drop, List.drop_left, List.drop_succ_cons, List.drop_zero, List.take_left]

theorem embeddedCalls_hide (cs : List Char) :
    embeddedCalls (hide cs) = (embeddedCalls cs).map AggregateCall.hide := by
  rw [embeddedCalls, embeddedCalls, List.map_filterMap, mask_hide]
  apply List.filterMap_congr
  intro p hp
  obtain ⟨pre, post, hmask, rfl⟩ := mem_places.mp hp
  cases hstart : callStart? ⟨pre.length, pre.getLast?, post⟩ with
  | none => rfl
  | some found =>
    obtain ⟨length, rest⟩ := found
    obtain ⟨w, gap, hat, rfl⟩ := callStart?_eq_some_iff.mp hstart
    obtain ⟨hopened, hdrop, htext⟩ := (hmask ▸ hat.after : CallAt aggregateNames none (mask cs) pre w gap rest).opened
    simp only [Option.bind_eq_bind, Option.bind_some, hopened, hdrop, closing?_open]
    cases hclosing : closing? 1 rest with
    | none => rfl
    | some k =>
      obtain ⟨x, body, y, rfl, hx, hbody, hlength, hk⟩ := exists_group_of_closing? htext hclosing
      simp only [Option.map_some, Option.bind_some, Nat.add_sub_cancel, hide_group hx hbody]
      rw [take_drop_group hlength hk, take_drop_group (by rw [length_hide, hlength]) (by rw [length_hide, hk]),
        (makeCall_hide _ hbody).1]

theorem closed_of_mem_embeddedCalls {call : AggregateCall} (hcall : call ∈ embeddedCalls cs) :
    Closed call.argument := by
  obtain ⟨pre, w, gap, rest, k, hat, hk, rfl⟩ := mem_embeddedCalls_iff.mp hcall
  obtain ⟨-, -, htext⟩ := hat.opened
  obtain ⟨x, body, y, rfl, -, hbody, hlength, hk⟩ := exists_group_of_closing? htext hk
  rw [← List.length_append, ← List.length_append, take_drop_group hlength hk]
  exact (makeCall_hide w hbody).2

theorem singleCall?_hide (h : Closed cs) : singleCall? (hide cs) = (singleCall? cs).map AggregateCall.hide := by
  rw [singleCall?, singleCall?, unwrap_hide h]
  generalize unwrap cs = cs
  simp only [mask_hide, length_hide, Option.bind_eq_bind]
  cases hstart : callStart? ⟨0, none, mask cs⟩ with
  | none => rfl
  | some found =>
    obtain ⟨length, rest⟩ := found
    obtain ⟨w, gap, hat, rfl⟩ := callStart?_eq_some_iff.mp hstart
    obtain ⟨hopened, hdrop, htext⟩ := hat.opened
    simp only [Option.bind_some, hopened, hdrop, closing?_open]
    cases hclosing : closing? 1 rest with
    | none => rfl
    | some k =>
      obtain ⟨x, body, y, rfl, hx, hbody, hlength, hk⟩ := exists_group_of_closing? htext hclosing
      split
      next hend =>
        -- nothing stands behind the parenthesis that closes the call
        have hend : k + 1 + (w ++ gap).length = (x ++ '(' :: (body ++ ')' :: y)).length - 1 := Option.some.inj hend
        have hy : y = [] := by
          rw [← List.length_eq_zero_iff]
          simp only [List.length_append, List.length_cons] at hend hlength
          omega
        subst hy
        have hinner (z b : List Char) (hz : z.length = x.length) :
            ((z ++ '(' :: (b ++ [')'])).drop (([] ++ w ++ gap).length + 1)).dropLast = b := by
          rw [← hlength, ← hz, ← List.drop_drop, List.drop_left, List.drop_succ_cons, List.drop_zero,
            List.dropLast_concat]
        have hhidden : hide (x ++ '(' :: (body ++ [')'])) = hide x ++ '(' :: (hide body ++ [')']) :=
          hide_group hx hbody []
        rw [hhidden, hinner x body rfl, hinner (hide x) (hide body) (length_hide x), (makeCall_hide _ hbody).1]
        rfl
      next => rfl

end MetricLayer.Sql
