import MetricLayer.Proofs.Text.Trim
import MetricLayer.Text.Place
import Mathlib.Data.List.Infix

/-!
# Places, keywords and occurrences

A search over `places` is a statement about the ways to cut a text in two (`mem_placesFrom`), and a
keyword is read off a text when it starts with letters that fold to it (`letters?_eq_some_iff`).  With
both, `hasKeyword` and `occurs` say that a text has a middle of a certain kind.

`clash` is the part of `letters?` that does not look past the end of a text: a keyword that does not
clash with a piece is not read at that piece, whatever follows it.
-/

namespace MetricLayer.Text

/-! ## Cutting -/

/-- A character that is not in the text before it starts behind that. -/
theorem exists_of_append_eq_append {c : Char} {x v r m : List Char} (hc : c ∉ r)
    (h : x ++ (c :: v) = r ++ m) : ∃ x', x = r ++ x' ∧ m = x' ++ (c :: v) := by
  rcases List.append_eq_append_iff.mp h with ⟨k, rfl, hk⟩ | ⟨k, rfl, hk⟩
  · cases k with
    | nil => exact ⟨[], by simp, hk.symm⟩
    | cons d k =>
      obtain ⟨rfl, -⟩ := List.cons.inj hk
      exact absurd (by simp) hc
  · exact ⟨k, rfl, hk⟩

/-- A text that does not run through the seam of two others lies in one of them. -/
theorem exists_of_infix_append {a b pre w post : List Char}
    (hseam : (∀ c ∈ a.getLast?, c ∉ w) ∨ ∀ c ∈ b.head?, c ∉ w) (h : a ++ b = pre ++ (w ++ post)) :
    (∃ k, a = pre ++ (w ++ k) ∧ post = k ++ b) ∨ ∃ k, b = k ++ (w ++ post) ∧ pre = a ++ k := by
  rcases List.append_eq_append_iff.mp h with ⟨k, hpre, hb⟩ | ⟨k, rfl, hk⟩
  · exact Or.inr ⟨k, hb, hpre⟩
  · rcases List.append_eq_append_iff.mp hk with ⟨k', rfl, hpost⟩ | ⟨k', rfl, rfl⟩
    · exact Or.inl ⟨k', rfl, hpost⟩
    · -- the text would run through the seam, unless one of its sides is empty
      rcases List.eq_nil_or_concat' k with rfl | ⟨init, c, rfl⟩
      · exact Or.inr ⟨[], rfl, by simp⟩
      cases k' with
      | nil => exact Or.inl ⟨[], by simp, rfl⟩
      | cons d k' =>
        exfalso
        rcases hseam with hseam | hseam
        · refine hseam c ?_ (by simp)
          rw [← List.append_assoc, List.getLast?_concat]
          exact rfl
        · exact hseam d rfl (by simp)

/-- What is bare and stands in a text between two runs of the class lies between them. -/
theorem exists_of_between {p : Char → Bool} {a b cs text before after : List Char}
    (ha : ∀ c ∈ a, p c) (hb : ∀ c ∈ b, p c) (hcs : Bare p cs) (hne : cs ≠ []) (h : a ++ (text ++ b) = before ++ (cs ++ after)) :
    ∃ before' after', before = a ++ before' ∧ after = after' ++ b ∧ text = before' ++ (cs ++ after') := by
  obtain ⟨before', rfl, hrest⟩ : ∃ before', before = a ++ before' ∧ text ++ b = before' ++ (cs ++ after) := by
    rcases List.append_eq_append_iff.mp h with ⟨k, hbefore, hk⟩ | ⟨k, rfl, hk⟩
    · exact ⟨k, hbefore, hk⟩
    · cases k with
      | nil => exact ⟨[], by simp, by simpa using hk.symm⟩
      | cons c k =>
        obtain ⟨d, ds, rfl⟩ := List.exists_cons_of_ne_nil hne
        obtain ⟨rfl, -⟩ := List.cons.inj hk
        have hclass := hcs.1 d rfl
        rw [ha d (by simp)] at hclass
        cases hclass
  rw [← List.append_assoc] at hrest
  rcases List.append_eq_append_iff.mp hrest with ⟨k, hk, rfl⟩ | ⟨k, rfl, hk⟩
  · rcases List.eq_nil_or_concat' k with rfl | ⟨init, c, rfl⟩
    · exact ⟨before', [], rfl, rfl, by simpa using hk.symm⟩
    · have hlast : (before' ++ cs).getLast? = cs.getLast? := by
        rw [List.getLast?_append, Option.or_of_isSome]
        simpa using hne
      have hclass := hcs.2 c (by rw [← hlast, hk, ← List.append_assoc, List.getLast?_concat]; rfl)
      rw [hb c (by simp)] at hclass
      cases hclass
  · exact ⟨before', k, rfl, hk, List.append_assoc ..⟩

/-! ## Places -/

/-- The character before a text that follows `pre`, given the one before `pre`. -/
def lastOr (b : Option Char) (pre : List Char) : Option Char :=
  pre.getLast?.or b

@[simp] theorem lastOr_nil (b : Option Char) : lastOr b [] = b := rfl

@[simp] theorem lastOr_cons (b : Option Char) (c : Char) (cs : List Char) :
    lastOr b (c :: cs) = lastOr (some c) cs := by
  cases cs <;> simp [lastOr, List.getLast?_cons]

theorem lastOr_none (pre : List Char) : lastOr none pre = pre.getLast? :=
  Option.or_none

theorem lastOr_append (b : Option Char) (cs ds : List Char) :
    lastOr b (cs ++ ds) = lastOr (lastOr b cs) ds := by
  simp [lastOr, List.getLast?_append, Option.or_assoc]

/-- The places of a text are the ways to cut it in two. -/
theorem mem_placesFrom {n : Nat} {b : Option Char} {cs : List Char} {p : Place} :
    p ∈ placesFrom n b cs ↔
      ∃ pre post, cs = pre ++ post ∧ p = ⟨n + pre.length, lastOr b pre, post⟩ := by
  induction cs generalizing n b with
  | nil =>
    simp only [placesFrom, List.mem_singleton]
    constructor
    · rintro rfl
      exact ⟨[], [], rfl, rfl⟩
    · rintro ⟨pre, post, h, rfl⟩
      obtain ⟨rfl, rfl⟩ := List.append_eq_nil_iff.mp h.symm
      rfl
  | cons c cs ih =>
    rw [placesFrom, List.mem_cons, ih]
    constructor
    · rintro (rfl | ⟨pre, post, rfl, rfl⟩)
      · exact ⟨[], c :: cs, rfl, rfl⟩
      · exact ⟨c :: pre, post, rfl, by simp; omega⟩
    · rintro ⟨pre, post, h, rfl⟩
      cases pre with
      | nil =>
        left
        rw [List.nil_append] at h
        rw [← h]
        rfl
      | cons d pre =>
        obtain ⟨rfl, rfl⟩ := List.cons.inj h
        exact Or.inr ⟨pre, post, rfl, by simp; omega⟩

theorem mem_places {cs : List Char} {p : Place} :
    p ∈ places cs ↔ ∃ pre post, cs = pre ++ post ∧ p = ⟨pre.length, pre.getLast?, post⟩ := by
  rw [places, mem_placesFrom]
  simp [lastOr]

/-- A search goes over places that fail its test. -/
theorem find?_placesFrom_append {test : Place → Bool} {n : Nat} {b : Option Char} {pre cs : List Char}
    (h : ∀ x c y, pre = x ++ c :: y → test ⟨n + x.length, lastOr b x, c :: (y ++ cs)⟩ = false) :
    (placesFrom n b (pre ++ cs)).find? test =
      (placesFrom (n + pre.length) (lastOr b pre) cs).find? test := by
  induction pre generalizing n b with
  | nil => rfl
  | cons c pre ih =>
    have hhere : test ⟨n, b, c :: (pre ++ cs)⟩ = false := h [] c pre rfl
    have hlater : ∀ x d y, pre = x ++ d :: y →
        test ⟨n + 1 + x.length, lastOr (some c) x, d :: (y ++ cs)⟩ = false := by
      intro x d y hpre
      have := h (c :: x) d y (by rw [hpre]; rfl)
      rwa [List.length_cons, lastOr_cons, Nat.add_comm x.length, ← Nat.add_assoc] at this
    rw [List.cons_append, placesFrom, List.find?_cons_of_neg (by rw [hhere]; exact Bool.false_ne_true),
      ih hlater, List.length_cons, lastOr_cons, Nat.add_assoc, Nat.add_comm 1]

/-- The text does not run on into a word before it. -/
def wordStart (b : Option Char) : Bool :=
  !b.any isWord

@[simp] theorem wordStart_none : wordStart none = true := rfl

/-- A word that starts behind a text starts behind the end of it. -/
theorem wordStart_of_append {a b : List Char} (h : wordStart (lastOr none (a ++ b))) :
    wordStart (lastOr none b) := by
  cases b with
  | nil => rfl
  | cons c b =>
    rw [lastOr_append, lastOr_cons] at h
    rwa [lastOr_cons]

theorem endsWord_append {a b : List Char} (h : a ≠ []) : endsWord (a ++ b) = endsWord a := by
  cases a with
  | nil => exact absurd rfl h
  | cons c a => rfl

theorem endsWord_of_append {a b : List Char} (h : endsWord (a ++ b)) : endsWord a := by
  cases a with
  | nil => rfl
  | cons c a => exact h

theorem startsWord_mk (n : Nat) (b : Option Char) (cs : List Char) :
    Place.startsWord ⟨n, b, cs⟩ = wordStart b := rfl

/-- Later places have greater offsets. -/
theorem pairwise_placesFrom (n : Nat) (b : Option Char) (cs : List Char) :
    (placesFrom n b cs).Pairwise fun p q => p.offset < q.offset := by
  induction cs generalizing n b with
  | nil => exact List.pairwise_singleton _ _
  | cons c cs ih =>
    rw [placesFrom, List.pairwise_cons]
    refine ⟨fun q hq => ?_, ih _ _⟩
    obtain ⟨pre, post, -, rfl⟩ := mem_placesFrom.mp hq
    show n < n + 1 + pre.length
    omega

/-! ## Scans -/

section scan

variable {α : Type} {pattern : Place → Option (α × List Char)} {p : Place} {a : α} {ps : List Place}
  {next : Nat}

theorem of_mem_scanFrom (h : (p, a) ∈ scanFrom pattern next ps) :
    p ∈ ps ∧ ∃ after, pattern p = some (a, after) := by
  induction ps generalizing next with
  | nil => cases h
  | cons q ps ih =>
    rw [scanFrom] at h
    split at h
    next => exact (ih h).imp_left (List.mem_cons_of_mem q)
    next =>
      split at h
      next => exact (ih h).imp_left (List.mem_cons_of_mem q)
      next b after hq =>
        rcases List.mem_cons.mp h with heq | h
        · obtain ⟨rfl, rfl⟩ := Prod.mk.inj heq
          exact ⟨List.mem_cons_self, after, hq⟩
        · exact (ih h).imp_left (List.mem_cons_of_mem q)

/-- What a scan finds are matches. -/
theorem of_mem_scan {cs : List Char} (h : (p, a) ∈ scan pattern cs) :
    (∃ pre post, cs = pre ++ post ∧ p = ⟨pre.length, pre.getLast?, post⟩) ∧
      ∃ after, pattern p = some (a, after) :=
  (of_mem_scanFrom h).imp_left mem_places.mp

/-- The place lies inside a match that starts before it. -/
def Place.IsInside (pattern : Place → Option (α × List Char)) (p q : Place) : Prop :=
  q.offset < p.offset ∧
    ∃ b after, pattern q = some (b, after) ∧ p.offset < q.offset + (q.rest.length - after.length)

theorem mem_scanFrom_or_inside (hps : ps.Pairwise fun p q => p.offset < q.offset) (hp : p ∈ ps)
    {after : List Char} (hmatch : pattern p = some (a, after)) :
    (p, a) ∈ scanFrom pattern next ps ∨ p.offset < next ∨ ∃ q ∈ ps, p.IsInside pattern q := by
  induction ps generalizing next with
  | nil => cases hp
  | cons q ps ih =>
    rw [List.pairwise_cons] at hps
    have hlater {m : Nat} (hp : p ∈ ps) :
        (p, a) ∈ scanFrom pattern m ps ∨ p.offset < m ∨ ∃ r ∈ q :: ps, p.IsInside pattern r :=
      (ih hps.2 hp).imp_right (Or.imp_right fun ⟨r, hr, hin⟩ => ⟨r, List.mem_cons_of_mem q hr, hin⟩)
    rw [scanFrom]
    split
    next hskip =>
      rcases List.mem_cons.mp hp with rfl | hp
      · exact Or.inr (Or.inl hskip)
      · exact hlater hp
    next =>
      rcases List.mem_cons.mp hp with rfl | hp
      · rw [hmatch]
        exact Or.inl List.mem_cons_self
      · cases hq : pattern q with
        | none => exact hlater hp
        | some found =>
          obtain ⟨b, after'⟩ := found
          rcases hlater hp with h | h | h
          · exact Or.inl (List.mem_cons_of_mem _ h)
          · exact Or.inr (Or.inr ⟨q, List.mem_cons_self, hps.1 p hp, b, after', hq, h⟩)
          · exact Or.inr (Or.inr h)

/-- A match is found, unless it starts inside one that is. -/
theorem mem_scan_or_inside {pre post after : List Char}
    (hmatch : pattern ⟨pre.length, pre.getLast?, post⟩ = some (a, after)) :
    (⟨pre.length, pre.getLast?, post⟩, a) ∈ scan pattern (pre ++ post) ∨
      ∃ q ∈ places (pre ++ post), Place.IsInside pattern ⟨pre.length, pre.getLast?, post⟩ q := by
  have hp : ⟨pre.length, pre.getLast?, post⟩ ∈ places (pre ++ post) :=
    mem_places.mpr ⟨pre, post, rfl, rfl⟩
  rcases mem_scanFrom_or_inside (pairwise_placesFrom _ _ _) hp hmatch with h | h | h
  · exact Or.inl h
  · exact absurd h (Nat.not_lt_zero _)
  · exact Or.inr h

variable {b : Option Char} {n : Nat} {pre m post : List Char}

/-- A scan goes over characters at which the pattern never matches. -/
theorem scanFrom_append_of_none (hpre : ∀ c ∈ pre, ∀ n b more, pattern ⟨n, b, c :: more⟩ = none)
    (cs : List Char) :
    scanFrom pattern next (placesFrom n b (pre ++ cs)) =
      scanFrom pattern next (placesFrom (n + pre.length) (lastOr b pre) cs) := by
  induction pre generalizing n b with
  | nil => rfl
  | cons c pre ih =>
    have hstep : scanFrom pattern next (placesFrom n b (c :: (pre ++ cs))) =
        scanFrom pattern next (placesFrom (n + 1) (some c) (pre ++ cs)) := by
      rw [placesFrom, scanFrom, hpre c List.mem_cons_self]
      exact ite_self _
    rw [List.cons_append, hstep, ih fun d hd => hpre d (List.mem_cons_of_mem c hd), lastOr_cons,
      List.length_cons, Nat.add_assoc, Nat.add_comm 1]

/-- A scan goes over the rest of a match. -/
theorem scanFrom_append_of_lt (h : n + pre.length ≤ next) (cs : List Char) :
    scanFrom pattern next (placesFrom n b (pre ++ cs)) =
      scanFrom pattern next (placesFrom (n + pre.length) (lastOr b pre) cs) := by
  induction pre generalizing n b with
  | nil => rfl
  | cons c pre ih =>
    rw [List.length_cons] at h
    have hskip : n < next := by omega
    rw [List.cons_append, placesFrom, scanFrom, if_pos hskip, ih (by omega), lastOr_cons, List.length_cons,
      Nat.add_assoc, Nat.add_comm 1]

theorem scanFrom_eq_nil (hpost : ∀ c ∈ post, ∀ n b more, pattern ⟨n, b, c :: more⟩ = none)
    (hend : ∀ n b, pattern ⟨n, b, []⟩ = none) : scanFrom pattern next (placesFrom n b post) = [] := by
  have happend : scanFrom pattern next (placesFrom n b (post ++ [])) =
      scanFrom pattern next (placesFrom (n + post.length) (lastOr b post) []) := scanFrom_append_of_none hpost []
  rw [List.append_nil] at happend
  rw [happend, placesFrom, scanFrom, hend]
  exact ite_self _

/-- A match between texts in which there is none is the only one. -/
theorem scan_between (hpre : ∀ c ∈ pre, ∀ n b more, pattern ⟨n, b, c :: more⟩ = none)
    (hpost : ∀ c ∈ post, ∀ n b more, pattern ⟨n, b, c :: more⟩ = none)
    (hend : ∀ n b, pattern ⟨n, b, []⟩ = none) (hm : m ≠ [])
    (hmatch : pattern ⟨pre.length, pre.getLast?, m ++ post⟩ = some (a, post)) :
    scan pattern (pre ++ (m ++ post)) = [(⟨pre.length, pre.getLast?, m ++ post⟩, a)] := by
  obtain ⟨c, m, rfl⟩ := List.exists_cons_of_ne_nil hm
  rw [← lastOr_none] at hmatch ⊢
  have hlength : pre.length + ((c :: m ++ post).length - post.length) = pre.length + 1 + m.length := by
    rw [List.length_append, List.length_cons]
    omega
  have hplaces : placesFrom (0 + pre.length) (lastOr none pre) (c :: m ++ post) =
      ⟨pre.length, lastOr none pre, c :: m ++ post⟩ ::
        placesFrom (pre.length + 1) (some c) (m ++ post) := by
    rw [Nat.zero_add]
    rfl
  rw [scan, places, scanFrom_append_of_none hpre, hplaces, scanFrom, if_neg (Nat.not_lt_zero _), hmatch]
  simp only [hlength]
  rw [scanFrom_append_of_lt (Nat.le_refl _), scanFrom_eq_nil hpost hend]

end scan

/-! ## Letters of a keyword -/

theorem letters?_eq_some_iff {ks cs rest : List Char} :
    letters? ks cs = some rest ↔ ∃ w, cs = w ++ rest ∧ w.map fold = ks := by
  induction ks generalizing cs with
  | nil =>
    rw [letters?]
    constructor
    · rintro h
      exact ⟨[], by simpa using h, rfl⟩
    · rintro ⟨w, rfl, hw⟩
      rw [List.map_eq_nil_iff.mp hw, List.nil_append]
  | cons k ks ih =>
    cases cs with
    | nil =>
      rw [letters?]
      constructor
      · intro h
        cases h
      · rintro ⟨w, h, hw⟩
        rw [(List.append_eq_nil_iff.mp h.symm).1] at hw
        cases hw
    | cons c cs =>
      rw [letters?]
      constructor
      · intro h
        split at h
        next hc =>
          obtain ⟨w, rfl, hw⟩ := ih.mp h
          exact ⟨c :: w, rfl, by rw [List.map_cons, hc, hw]⟩
        next => cases h
      · rintro ⟨w, h, hw⟩
        cases w with
        | nil => cases hw
        | cons d w =>
          obtain ⟨rfl, rfl⟩ := List.cons.inj h
          obtain ⟨hc, hw⟩ := List.cons.inj hw
          rw [if_pos hc]
          exact ih.mpr ⟨w, rfl, hw⟩

theorem isSuffix_of_letters? {ks cs rest : List Char} (h : letters? ks cs = some rest) : rest <:+ cs := by
  obtain ⟨w, rfl, -⟩ := letters?_eq_some_iff.mp h
  exact List.suffix_append w rest

theorem letters?_append {ks cs rest : List Char} (h : letters? ks cs = some rest) (more : List Char) :
    letters? ks (cs ++ more) = some (rest ++ more) := by
  obtain ⟨w, rfl, hw⟩ := letters?_eq_some_iff.mp h
  exact letters?_eq_some_iff.mpr ⟨w, List.append_assoc .., hw⟩

theorem hasKeyword_iff {word : String} {cs : List Char} :
    hasKeyword word cs ↔ ∃ pre w post, cs = pre ++ (w ++ post) ∧ w.map fold = word.toList ∧
      wordStart (lastOr none pre) ∧ endsWord post := by
  rw [hasKeyword, List.any_eq_true]
  constructor
  · rintro ⟨p, hp, hsome⟩
    obtain ⟨pre, rest, rfl, rfl⟩ := mem_places.mp hp
    obtain ⟨post, hpost⟩ := Option.isSome_iff_exists.mp hsome
    rw [Place.keyword?] at hpost
    split at hpost
    next hstart =>
      obtain ⟨hletters, hends⟩ := Option.filter_eq_some_iff.mp hpost
      obtain ⟨w, rfl, hw⟩ := letters?_eq_some_iff.mp hletters
      exact ⟨pre, w, post, rfl, hw, by rw [lastOr_none]; exact hstart, hends⟩
    next => cases hpost
  · rintro ⟨pre, w, post, rfl, hw, hstart, hends⟩
    refine ⟨_, mem_places.mpr ⟨pre, _, rfl, rfl⟩, Option.isSome_iff_exists.mpr ⟨post, ?_⟩⟩
    have hletters : letters? word.toList (w ++ post) = some post :=
      letters?_eq_some_iff.mpr ⟨w, rfl, hw⟩
    rw [lastOr_none] at hstart
    have hplace : Place.startsWord ⟨pre.length, pre.getLast?, w ++ post⟩ = true := hstart
    rw [Place.keyword?, if_pos hplace, hletters, Option.filter_some, if_pos hends]

/-- A keyword is not found where one of its letters is missing. -/
theorem hasKeyword_eq_false {word : String} {k : Char} {cs : List Char} (hk : k ∈ word.toList)
    (hcs : ∀ c ∈ cs, fold c ≠ k) : hasKeyword word cs = false := by
  rw [← Bool.not_eq_true, hasKeyword_iff]
  rintro ⟨pre, w, post, rfl, hw, -⟩
  rw [← hw] at hk
  obtain ⟨c, hc, hfold⟩ := List.mem_map.mp hk
  exact hcs c (by simp [hc]) hfold

/-- A text and a keyword agree in letters as far as both go. -/
def clash : List Char → List Char → Bool
  | [], _ => true
  | _ :: _, [] => true
  | k :: ks, c :: cs => fold c = k && clash ks cs

theorem clash_of_append {ks cs more : List Char} (h : clash ks (cs ++ more)) : clash ks cs := by
  induction ks generalizing cs with
  | nil => cases cs <;> rfl
  | cons k ks ih =>
    cases cs with
    | nil => rfl
    | cons c cs =>
      simp only [List.cons_append, clash, Bool.and_eq_true] at h ⊢
      exact ⟨h.1, ih h.2⟩

theorem clash_append {ks a : List Char} (h : clash ks a = false) (more : List Char) :
    clash ks (a ++ more) = false := by
  by_contra hclash
  rw [Bool.not_eq_false] at hclash
  rw [clash_of_append hclash] at h
  cases h

theorem clash_of_letters? {ks cs rest : List Char} (h : letters? ks cs = some rest) :
    clash ks cs := by
  induction ks generalizing cs with
  | nil => cases cs <;> rfl
  | cons k ks ih =>
    cases cs with
    | nil => rfl
    | cons c cs =>
      rw [letters?] at h
      split at h
      next hc => simp [clash, hc, ih h]
      next => cases h

theorem letters?_eq_none_of_clash {ks a : List Char} (h : clash ks a = false) (more : List Char) :
    letters? ks (a ++ more) = none := by
  rw [Option.eq_none_iff_forall_ne_some]
  intro rest hrest
  have hclash := clash_append h more
  rw [clash_of_letters? hrest] at hclash
  cases hclash

/-! ## The characters that fold to letters -/

/-- The characters that keywords are written in. -/
def isKeyLetter (k : Char) : Bool :=
  (97 ≤ k.toNat && k.toNat ≤ 122) || k == '_'

theorem toNat_toLower (c : Char) :
    c.toLower.toNat = if 65 ≤ c.toNat ∧ c.toNat ≤ 90 then c.toNat + 32 else c.toNat := by
  unfold Char.toLower
  by_cases h : c.val ≥ 'A'.val ∧ c.val ≤ 'Z'.val
  · have h1 : 65 ≤ c.toNat := h.1
    have h2 : c.toNat ≤ 90 := h.2
    rw [dif_pos h, if_pos ⟨h1, h2⟩]
    show (c.val + ('a'.val - 'A'.val)).toNat = c.toNat + 32
    rw [UInt32.toNat_add, show ('a'.val - 'A'.val).toNat = 32 from rfl]
    show (c.toNat + 32) % 2 ^ 32 = c.toNat + 32
    omega
  · rw [dif_neg h, if_neg]
    exact h

theorem isBlank_of_isKeyLetter {k : Char} (h : isKeyLetter k) : isBlank k = false := by
  simp only [isKeyLetter, Bool.or_eq_true, Bool.and_eq_true, decide_eq_true_eq, beq_iff_eq] at h
  rcases h with h | rfl
  · simp only [isBlank, Bool.or_eq_false_iff, Bool.and_eq_false_iff, decide_eq_false_iff_not,
      beq_eq_false_iff_ne]
    omega
  · rfl

theorem fold_eq_of_isBlank {c : Char} (h : isBlank c) : fold c = c :=
  of_isBlank (P := fun c => fold c = c) (by decide +kernel) h

theorem isBlank_of_isKeyLetter_fold {c : Char} (h : isKeyLetter (fold c)) : isBlank c = false := by
  by_contra hb
  rw [Bool.not_eq_false] at hb
  rw [fold_eq_of_isBlank hb] at h
  rw [isBlank_of_isKeyLetter h] at hb
  cases hb

theorem isWord_of_isKeyLetter_fold {c : Char} (h : isKeyLetter (fold c)) : isWord c := by
  have wide {n : Nat} (hc : c.toNat = n) (hn : (128 ≤ n && inRanges wordRanges n) = true) :
      isWord c := by
    rw [isWord, hc, hn, Bool.or_true]
  rw [fold] at h
  split at h
  next hc => exact wide hc (by decide +kernel)
  split at h
  next hc => exact wide hc (by decide +kernel)
  split at h
  next hc =>
    rcases hc with hc | hc
    · exact wide hc (by decide +kernel)
    · exact wide hc (by decide +kernel)
  simp only [isKeyLetter, toNat_toLower, Bool.or_eq_true, Bool.and_eq_true, decide_eq_true_eq,
    beq_iff_eq, ← Char.toNat_inj, Char.reduceToNat] at h
  have hword : c.isAlphanum = true ∨ c = '_' := by
    have halpha : c.isAlphanum = true ↔ (65 ≤ c.toNat ∧ c.toNat ≤ 90) ∨
        (97 ≤ c.toNat ∧ c.toNat ≤ 122) ∨ (48 ≤ c.toNat ∧ c.toNat ≤ 57) := by
      show ((decide (65 ≤ c.val ∧ c.val ≤ 90) || decide (97 ≤ c.val) && decide (c.val ≤ 122)) ||
        decide (48 ≤ c.val) && decide (c.val ≤ 57)) = true ↔ _
      simp only [Bool.or_eq_true, decide_eq_true_eq, Bool.and_eq_true, or_assoc]
      rfl
    rw [halpha, ← Char.toNat_inj]
    show _ ∨ c.toNat = 95
    split at h <;> omega
  rcases hword with hword | rfl
  · simp [isWord, hword]
  · rfl

/-- No word goes on over white space. -/
theorem isWord_of_isBlank {c : Char} (h : isBlank c) : isWord c = false :=
  of_isBlank (P := fun c => isWord c = false) (by decide +kernel) h

/-- Names start as words do. -/
theorem isNameStart_eq_false {c : Char} (h : isWord c = false) : isNameStart c = false := by
  rw [← Bool.not_eq_true] at h ⊢
  exact fun hstart => h (isWord_of_isNameStart hstart)

/-- A word ends before white space and at the end of a text. -/
theorem endsWord_of_blank {gap : List Char} (h : ∀ c ∈ gap, isBlank c) : endsWord gap := by
  cases gap with
  | nil => rfl
  | cons c gap => simp [endsWord, isWord_of_isBlank (h c List.mem_cons_self)]

/-- A word may start after white space at the start of a text. -/
theorem wordStart_of_blank {gap : List Char} (h : ∀ c ∈ gap, isBlank c) :
    wordStart (lastOr none gap) := by
  cases hlast : gap.getLast? with
  | none => simp [lastOr, hlast]
  | some c => simp [lastOr, hlast, wordStart, isWord_of_isBlank (h c (List.mem_of_getLast? hlast))]

end MetricLayer.Text
