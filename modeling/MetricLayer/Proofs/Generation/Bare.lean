import MetricLayer.Proofs.Generation.Extract
import MetricLayer.Proofs.Generation.Select

/-!
# Statements that stand alone

A reply may be one statement and nothing else.  It is then searched as it is, and the SELECT that is found is
the one it starts with, unless the word stands in capitals behind a first one in other letters
(`CapitalsFirst`).  The search looks at neither quotes nor parentheses, so that a literal or a subquery can
hold the one that is found, and what stands before that is lost (`statement_eq_self_iff_capitalsFirst`).
-/

namespace MetricLayer.Reply

open MetricLayer.Text MetricLayer.Sql

/-- One SELECT statement, in any letter case, without anything that the search would look into or cut off. -/
structure StandsAlone (cs : List Char) : Prop where
  startsSelect : StartsSelect cs
  trimmed : Trimmed cs
  closed : Closed cs
  noSemicolon : ';' ∉ mask cs
  unmarked : Unmarked cs

/-- SELECT in capitals stands somewhere in a text as a whole word. -/
def HasCapitals (cs : List Char) : Prop :=
  ∃ pre post, cs = pre ++ ("SELECT".toList ++ post) ∧ wordStart pre.getLast? ∧ endsWord post

/-- A text with SELECT in capitals starts with one. -/
def CapitalsFirst (cs : List Char) : Prop :=
  HasCapitals cs → "SELECT".toList <+: cs

variable {cs : List Char}

/-! ## The word in capitals -/

theorem isUpperSelect_iff {n : Nat} {b : Option Char} {post : List Char} :
    isUpperSelect ⟨n, b, post⟩ ↔
      wordStart b ∧ ∃ rest, post = "SELECT".toList ++ rest ∧ endsWord rest := by
  rw [isUpperSelect, Bool.and_eq_true, startsWord_mk, Option.any_eq_true]
  refine and_congr_right fun _ => exists_congr fun rest => and_congr_left fun _ => ?_
  exact List.isPrefixOf?_eq_some_iff_append_eq.trans eq_comm

theorem hasCapitals_iff : HasCapitals cs ↔ ∃ p ∈ places cs, isUpperSelect p := by
  constructor
  · rintro ⟨pre, post, hcs, hstart, hends⟩
    exact ⟨_, mem_places.mpr ⟨pre, _, hcs, rfl⟩, isUpperSelect_iff.mpr ⟨hstart, post, rfl, hends⟩⟩
  · rintro ⟨p, hp, hselect⟩
    obtain ⟨pre, rest, rfl, rfl⟩ := mem_places.mp hp
    obtain ⟨hstart, post, rfl, hends⟩ := isUpperSelect_iff.mp hselect
    exact ⟨pre, post, rfl, hstart, hends⟩

instance (cs : List Char) : Decidable (CapitalsFirst cs) :=
  have : Decidable (HasCapitals cs) := decidable_of_iff _ hasCapitals_iff.symm
  inferInstanceAs (Decidable (HasCapitals cs → "SELECT".toList <+: cs))

/-! ## The place that is found -/

theorem fromSelect?_of_not_hasCapitals (h : StartsSelect cs) (hcapitals : ¬ HasCapitals cs) :
    fromSelect? cs = some cs := by
  have hupper : (places cs).find? isUpperSelect = none := by
    rw [List.find?_eq_none]
    exact fun p hp hselect => hcapitals (hasCapitals_iff.mpr ⟨p, hp, hselect⟩)
  have hplaces : ∃ later, places cs = ⟨0, none, cs⟩ :: later := by
    cases cs with
    | nil => exact ⟨[], rfl⟩
    | cons c cs => exact ⟨placesFrom 1 (some c) cs, rfl⟩
  obtain ⟨later, hlater⟩ := hplaces
  have hfirst : (places cs).find? (fun p => (p.keyword? "select").isSome) = some ⟨0, none, cs⟩ := by
    rw [hlater]
    exact List.find?_cons_of_pos h
  rw [fromSelect?, hupper, hfirst]
  rfl

theorem fromSelect?_of_prefix (h : StartsSelect cs) (hstarts : "SELECT".toList <+: cs) :
    fromSelect? cs = some cs := by
  obtain ⟨w, rest, rfl, hw, hends⟩ := StartsSelect.iff_exists.mp h
  have hlength : w.length = "SELECT".toList.length := by
    rw [← List.length_map fold, hw]
    rfl
  obtain rfl : "SELECT".toList = w := by
    rw [List.prefix_iff_eq_take.mp hstarts, ← hlength, List.take_left]
  exact fromSelect?_of_starts hends

/-- Only a SELECT in capitals behind the first one keeps a statement from being found where it starts. -/
theorem fromSelect?_eq_self (h : StartsSelect cs) (hcapitals : CapitalsFirst cs) :
    fromSelect? cs = some cs := by
  by_cases hsome : HasCapitals cs
  · exact fromSelect?_of_prefix h (hcapitals hsome)
  · exact fromSelect?_of_not_hasCapitals h hsome

/-- What is found is shorter when a SELECT in capitals stands behind the first one. -/
theorem exists_shorter_fromSelect? (h : ¬ CapitalsFirst cs) :
    ∃ found, fromSelect? cs = some found ∧ found.length < cs.length := by
  obtain ⟨hsome, hstarts⟩ := Classical.not_imp.mp h
  obtain ⟨p, hp⟩ : ∃ p, (places cs).find? isUpperSelect = some p := by
    rw [← Option.isSome_iff_exists, List.find?_isSome]
    exact hasCapitals_iff.mp hsome
  obtain ⟨pre, post, rfl, rfl⟩ := mem_places.mp (List.mem_of_find?_eq_some hp)
  refine ⟨post, by rw [fromSelect?, hp]; rfl, ?_⟩
  obtain ⟨-, rest, rfl, -⟩ := isUpperSelect_iff.mp (List.find?_some hp)
  cases pre with
  | nil => exact absurd (List.prefix_append _ rest) hstarts
  | cons c pre =>
    simp only [List.length_append, List.length_cons]
    omega

/-! ## Statements -/

theorem length_trim_beforeSemicolon_le (cs : List Char) :
    (trim (beforeSemicolon cs)).length ≤ cs.length :=
  ((trim_isInfix _).trans (beforeSemicolon_isInfix cs)).length_le

theorem StandsAlone.trim_beforeSemicolon (h : StandsAlone cs) : trim (beforeSemicolon cs) = cs := by
  have hall := beforeSemicolon_append h.closed h.noSemicolon []
  rw [List.append_nil] at hall
  rw [hall, beforeSemicolon, List.take_nil, List.append_nil, trim_eq_self h.trimmed]

/-- A statement that stands alone is what its search finds, up to the first semicolon. -/
theorem StandsAlone.statement_eq {s : String} (h : StandsAlone s.toList) {found : List Char}
    (hfound : fromSelect? s.toList = some found) :
    statement s = .ok (String.ofList (trim (beforeSemicolon found))) := by
  rw [statement, searched_eq_self h.unmarked]
  simp only [Except.mapError, Bind.bind, Except.bind, hfound]
  rfl

/-- **A statement that stands alone is taken out whole exactly if no SELECT in capitals stands behind a first
one in other letters**, in its subqueries and literals or elsewhere. -/
theorem statement_eq_self_iff_capitalsFirst {s : String} (h : StandsAlone s.toList) :
    statement s = .ok s ↔ CapitalsFirst s.toList := by
  constructor
  · intro hself
    by_contra hcapitals
    obtain ⟨found, hfound, hlength⟩ := exists_shorter_fromSelect? hcapitals
    rw [h.statement_eq hfound] at hself
    have hs : trim (beforeSemicolon found) = s.toList := by
      rw [← Except.ok.inj hself, String.toList_ofList]
    have hle := length_trim_beforeSemicolon_le found
    rw [hs] at hle
    omega
  · intro hcapitals
    rw [h.statement_eq (fromSelect?_eq_self h.startsSelect hcapitals), h.trim_beforeSemicolon,
      String.ofList_toList]

/-- A nested SELECT in small letters and one in a longer word do no harm. -/
theorem statement_eq_self_iff_capitalsFirst_nested :
    statement "select 'SELECTED; ' from (Select 1) x" = .ok "select 'SELECTED; ' from (Select 1) x" := by
  have h : StandsAlone "select 'SELECTED; ' from (Select 1) x".toList :=
    ⟨by unfold StartsSelect; decide, by decide, by unfold Closed; decide,
      by decide, by decide⟩
  exact (statement_eq_self_iff_capitalsFirst h).mpr (by decide)

/-- The statement of a subquery in capitals is taken for the whole. -/
theorem not_statement_eq_self_of_standsAlone :
    ¬ ∀ s : String, StandsAlone s.toList → statement s = .ok s := by
  intro h
  have hwhole : statement "select a from (SELECT b FROM t) x" = .ok "select a from (SELECT b FROM t) x" :=
    h _ ⟨by unfold StartsSelect; decide, by decide, by unfold Closed; decide,
      by decide, by decide⟩
  have hpart : statement "select a from (SELECT b FROM t) x" = .ok "SELECT b FROM t) x" := by
    decide
  rw [hpart] at hwhole
  exact absurd (Except.ok.inj hwhole) (by decide)

end MetricLayer.Reply
