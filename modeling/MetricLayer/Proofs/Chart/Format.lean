import MetricLayer.Chart.Format
import MetricLayer.Proofs.Catalog.Alias
import MetricLayer.Proofs.Number.Places

/-!
# Numbers in charts

A hint shows every number or none (`FormatHint.exists_formatNumber_iff`).  Plain hints show integers exactly, with as
many zeros behind the point as they ask for (`formatValue_plain`); the hints of an accepted catalog show the values of
their measures but for places out of range and currencies that cannot be written (`Catalog.Accepted.renders_iff`).
-/

namespace MetricLayer

open MetricLayer.Number

/-! ## Hints -/

/-- The hint shows numbers. -/
structure FormatHint.Renders (h : FormatHint) : Prop where
  nonneg : 0 ≤ h.decimals
  le : h.decimals ≤ greatestPlaces
  writable : h.format.isTextOf "currency" → ∀ v ∈ h.currency, v.hasDisplay

namespace FormatHint

variable {h : FormatHint} {x : Binary64} {negative : Bool}

theorem hintedPlaces_value (h : FormatHint) :
    hintedPlaces h.value =
      if h.decimals < 0 ∨ greatestHintedPlaces < h.decimals then .error .placesOutOfRange else .ok h.decimals.toNat :=
  rfl

theorem formatNumber_value (h : FormatHint) (x : Binary64) (negative : Bool) :
    formatNumber (some x) negative h.value = (hintedPlaces h.value).bind fun places =>
      if greatestPlaces < places then .error .placesOutOfRange
      else markNumber h.value negative (String.ofList (x.magnitudeText places)) :=
  rfl

theorem formatNumber_of_mem (hnonneg : 0 ≤ h.decimals) (hle : h.decimals ≤ greatestPlaces) :
    formatNumber (some x) negative h.value =
      markNumber h.value negative (String.ofList (x.magnitudeText h.decimals.toNat)) := by
  have hhinted : ¬ (h.decimals < 0 ∨ greatestHintedPlaces < h.decimals) := by
    rw [greatestHintedPlaces]
    rw [greatestPlaces] at hle
    omega
  have hplaces : ¬ greatestPlaces < h.decimals.toNat := by omega
  rw [formatNumber_value, hintedPlaces_value, if_neg hhinted, Except.bind, if_neg hplaces]

theorem formatNumber_of_not_mem (hplaces : ¬ (0 ≤ h.decimals ∧ h.decimals ≤ greatestPlaces)) :
    formatNumber (some x) negative h.value = .error .placesOutOfRange := by
  rw [formatNumber_value, hintedPlaces_value]
  by_cases hhinted : h.decimals < 0 ∨ greatestHintedPlaces < h.decimals
  · rw [if_pos hhinted]
    rfl
  · have hgreat : greatestPlaces < h.decimals.toNat := by omega
    rw [if_neg hhinted, Except.bind, if_pos hgreat]

theorem get?_currency (h : FormatHint) : h.value.get? "currency" = h.currency := by
  obtain ⟨format, decimals, currency⟩ := h
  cases currency <;> rfl

theorem get?_type (h : FormatHint) : h.value.get? "type" = some h.format :=
  rfl

end FormatHint

theorem exists_displayed_iff {v : Value} : (∃ t, displayed v = .ok t) ↔ v.hasDisplay := by
  rw [displayed]
  split_ifs with hdisplay
  · exact iff_of_true ⟨_, rfl⟩ hdisplay
  · exact iff_of_false nofun hdisplay

theorem exists_map_eq_ok_iff {ε α β : Type} {x : Except ε α} {f : α → β} :
    (∃ b, x.map f = .ok b) ↔ ∃ a, x = .ok a := by
  cases x with
  | error => exact iff_of_false nofun nofun
  | ok a => exact iff_of_true ⟨f a, rfl⟩ ⟨a, rfl⟩

/-- The dollar is not written out, so only other currencies need a text. -/
theorem exists_currencySymbol_iff {hint : Value} :
    (∃ t, currencySymbol hint = .ok t) ↔ ∀ v ∈ hint.get? "currency", v.hasDisplay := by
  rw [currencySymbol]
  cases hint.get? "currency" with
  | none => exact iff_of_true ⟨_, rfl⟩ nofun
  | some v =>
    simp only [Option.mem_some_iff, forall_eq']
    split_ifs with hdollar
    · refine iff_of_true ⟨_, rfl⟩ ?_
      cases v with
      | text => rfl
      | _ => cases hdollar
    · rw [exists_map_eq_ok_iff, exists_displayed_iff]

theorem exists_markNumber_iff {h : FormatHint} {negative : Bool} {magnitude : String} :
    (∃ t, markNumber h.value negative magnitude = .ok t) ↔
      (h.format.isTextOf "currency" → ∀ v ∈ h.currency, v.hasDisplay) := by
  rw [markNumber, h.get?_type, Option.getD_some]
  by_cases hcurrency : h.format.isTextOf "currency"
  · rw [if_pos hcurrency, exists_map_eq_ok_iff, exists_currencySymbol_iff, h.get?_currency]
    exact ⟨fun hwritable _ => hwritable, fun hwritable => hwritable hcurrency⟩
  · refine iff_of_true ?_ fun hformat => absurd hformat hcurrency
    rw [if_neg hcurrency]
    by_cases hpercentage : h.format.isTextOf "percentage"
    · exact ⟨_, if_pos hpercentage⟩
    · exact ⟨_, if_neg hpercentage⟩

/-- **A hint shows every number or none.** -/
theorem FormatHint.exists_formatNumber_iff {h : FormatHint} {x : Binary64} {negative : Bool} :
    (∃ t, formatNumber (some x) negative h.value = .ok t) ↔ h.Renders := by
  by_cases hplaces : 0 ≤ h.decimals ∧ h.decimals ≤ greatestPlaces
  · rw [formatNumber_of_mem hplaces.1 hplaces.2, exists_markNumber_iff]
    exact ⟨fun hwritable => ⟨hplaces.1, hplaces.2, hwritable⟩, Renders.writable⟩
  · rw [formatNumber_of_not_mem hplaces]
    exact iff_of_false nofun fun h => hplaces ⟨h.nonneg, h.le⟩

/-! ## Measures of a catalog -/

/-- A number charts show: an integer that is not too large, or a finite floating-point number. -/
def Value.IsChartNumber : Value → Prop
  | .int n => n.natAbs ≤ greatestSafeInteger
  | .float (.finite ..) => True
  | _ => False

instance : DecidablePred Value.IsChartNumber
  | .int n => inferInstanceAs (Decidable (n.natAbs ≤ greatestSafeInteger))
  | .float (.finite ..) => inferInstanceAs (Decidable True)
  | .float (.infinite _) | .float .nan | .null | .bool _ | .text _ | .list _ | .object _ | .decimal _ | .bytes _
  | .date _ | .timestamp _ | .duration _ | .uuid _ => inferInstanceAs (Decidable False)

/-- The hint of an entry. -/
def Entry.hint (e : Entry) : FormatHint where
  format := e.format
  decimals := e.decimals
  currency := e.currency.present?

section catalog

variable {c : Catalog} {name : String} {e : Entry} {v : Value}

theorem formatHint_of_entry? (he : c.entry? name = some e) : formatHint (some c) name = e.hint := by
  rw [formatHint, Option.bind_some, he, Entry.hint]

theorem Value.IsChartNumber.exists_formatValue_eq (h : v.IsChartNumber) :
    ∃ x negative, ∀ hint, formatValue v hint = formatNumber (some x) negative hint := by
  cases v with
  | int n =>
    obtain ⟨x, hx, -⟩ := exists_magnitudeText_eq h 0
    exact ⟨x, n < 0, fun hint => by rw [formatValue, hx]⟩
  | float x => exact ⟨x, x.isNegative, fun _ => rfl⟩
  | _ => exact h.elim

theorem exists_formatValue_iff (he : c.entry? name = some e) (hv : v.IsChartNumber) :
    (∃ t, formatValue v (formatHint (some c) name).value = .ok t) ↔ e.hint.Renders := by
  obtain ⟨x, negative, hshown⟩ := hv.exists_formatValue_eq
  rw [hshown, FormatHint.exists_formatNumber_iff, formatHint_of_entry? he]

/-- **The formats of an accepted catalog show the values of a measure exactly when its number of places is in range**
and its currency can be written; they show those of all measures when this holds of every entry. -/
theorem Catalog.Accepted.renders_iff (h : c.Accepted) :
    (∀ name e, c.entry? name = some e → ∀ v : Value, v.IsChartNumber →
      ((∃ t, formatValue v (formatHint (some c) name).value = .ok t) ↔ e.hint.Renders)) ∧
    ((∀ name e, c.entry? name = some e → ∀ v : Value, v.IsChartNumber →
      ∃ t, formatValue v (formatHint (some c) name).value = .ok t) ↔ ∀ e ∈ c.entries, e.hint.Renders) := by
  refine ⟨fun _ _ he _ hv => exists_formatValue_iff he hv, fun hall e he => ?_, fun hall name e he v hv => ?_⟩
  · have hentry := h.entry?_aliasName he
    have hzero : (Value.int 0).IsChartNumber := by decide
    exact (exists_formatValue_iff hentry hzero).mp (hall _ e hentry _ hzero)
  · exact (exists_formatValue_iff he hv).mpr (hall e (of_findAlias?_eq_some he).1)

end catalog

/-- The amounts of sales, shown with some places. -/
def salesTotal (places : Int) : Aggregation where
  aliasName := "total"
  function := "sum"
  source := "amount"
  format := .text "currency"
  decimals := places
  currency := .text "EUR"

/-- A catalog with one measure. -/
def salesCatalog (places : Int) : Catalog where
  table := "sales"
  fields := [{ name := "amount", physicalType := "DOUBLE", ingestType := "number", category := "numerical" }]
  measures := [{ source := "amount", aggregations := [salesTotal places] }]

/-- No check looks at the number of places. -/
theorem accepted_salesCatalog (places : Int) : (salesCatalog places).Accepted := by
  show (salesCatalog places).problems = []
  rfl

theorem entry?_salesCatalog (places : Int) :
    Catalog.entry? (salesCatalog places) "total" = some (.aggregation (salesTotal places)) :=
  (accepted_salesCatalog places).entry?_aliasName List.mem_cons_self

theorem renders_iff_salesCatalog : (salesCatalog 2).Accepted ∧
    Catalog.entry? (salesCatalog 2) "total" = some (.aggregation (salesTotal 2)) ∧ (Value.int 1234).IsChartNumber ∧
    formatValue (.int 1234) (formatHint (some (salesCatalog 2)) "total").value = .ok "EUR 1,234.00" ∧
    ∀ name e, Catalog.entry? (salesCatalog 2) name = some e → ∀ v : Value, v.IsChartNumber →
      ∃ t, formatValue v (formatHint (some (salesCatalog 2)) name).value = .ok t := by
  refine ⟨accepted_salesCatalog 2, entry?_salesCatalog 2, by decide, by rfl,
    (accepted_salesCatalog 2).renders_iff.2.mpr fun e he => ?_⟩
  obtain rfl := List.mem_singleton.mp he
  refine ⟨by decide, by decide, fun _ v hv => ?_⟩
  obtain rfl := Option.some.inj hv
  rfl

/-- A negative number of places is accepted, and nothing is shown with it. -/
theorem not_forall_exists_formatValue :
    ¬ ∀ c : Catalog, c.Accepted → ∀ name e, c.entry? name = some e → ∀ v : Value, v.IsChartNumber →
      ∃ t, formatValue v (formatHint (some c) name).value = .ok t := by
  intro h
  have hone : (Value.int 1).IsChartNumber := by decide
  have hentry := entry?_salesCatalog (-1)
  have hshown := h _ (accepted_salesCatalog (-1)) "total" _ hentry (.int 1) hone
  exact absurd ((exists_formatValue_iff hentry hone).mp hshown).nonneg (by decide)

/-! ## Plain integers -/

/-- The hint of a plain number with some places. -/
def plainHint (places : Nat) : Value :=
  .object [("type", .text "number"), ("decimals", .int places)]

theorem plainHint_eq (places : Nat) : plainHint places = ({ decimals := places } : FormatHint).value :=
  rfl

theorem markNumber_plain (places : Int) (negative : Bool) (magnitude : String) :
    markNumber ({ decimals := places } : FormatHint).value negative magnitude =
      .ok ((if negative then "-" else "") ++ magnitude) :=
  rfl

/-- The text shows an integer as it is: a minus sign below zero, the digits of its magnitude in groups of three, and
zeros behind the point; without the commas it is read back. -/
structure ShowsExactly (n : Int) (places : Nat) (t : String) : Prop where
  layout : ∃ g : Grouping (Nat.toDigits 10 n.natAbs),
    t.toList = numeral (n < 0) g.text (List.replicate places '0')
  read : ∃ x, Decimal.ofText? (String.ofList (t.toList.filter (· != ','))) = some x ∧ x.IsInteger n

section plain

variable {n k : Int} {places : Nat} {t : String}

theorem isInteger_natAbs (n : Int) (places : Nat) :
    (Decimal.finite (n < 0) (n.natAbs * 10 ^ places) (-(places : Int))).IsInteger n := by
  have hsigned : (if decide (n < 0) then -((n.natAbs * 10 ^ places : Nat) : Int) else (n.natAbs * 10 ^ places : Nat)) =
      n * 10 ^ places := by
    rw [Nat.cast_mul, Nat.cast_pow]
    simp only [decide_eq_true_eq]
    split_ifs with hnegative
    · rw [Int.ofNat_natAbs_of_nonpos hnegative.le, neg_mul, neg_neg]
      rfl
    · rw [Int.natAbs_of_nonneg (Int.not_lt.mp hnegative)]
      rfl
  rw [Decimal.IsInteger, hsigned, Int.toNat_neg_natCast, neg_neg, Int.toNat_natCast, pow_zero, Int.mul_one]

theorem ShowsExactly.of_layout {g : Grouping (Nat.toDigits 10 n.natAbs)}
    (h : t.toList = numeral (n < 0) g.text (List.replicate places '0')) : ShowsExactly n places t := by
  refine ⟨⟨g, h⟩, .finite (n < 0) (n.natAbs * 10 ^ places) (-(places : Int)), ?_, isInteger_natAbs n places⟩
  have hdigits : ∀ c ∈ Nat.toDigits 10 n.natAbs, c.isDigit :=
    fun c hc => Nat.isDigit_of_mem_toDigits (by decide) (by decide) hc
  have hzeros : ∀ c ∈ List.replicate places '0', c.isDigit := fun c hc => by
    rw [List.eq_of_mem_replicate hc]
    rfl
  have hcomma : ',' ∉ Nat.toDigits 10 n.natAbs := fun hmem => nomatch hdigits ',' hmem
  have hfilter : t.toList.filter (· != ',') =
      numeral (n < 0) (Nat.toDigits 10 n.natAbs) (List.replicate places '0') := by
    rw [h, filter_numeral _ rfl rfl fun c hc => by rw [List.eq_of_mem_replicate hc]; rfl, g.filter_text hcomma]
  have hvalue : Text.naturalOf (Nat.toDigits 10 n.natAbs ++ List.replicate places '0') = n.natAbs * 10 ^ places := by
    rw [naturalOf_append_zeros, ← Text.toList_toString, Text.naturalOf_toString]
  rw [hfilter, ofText?_numeral _ Nat.toDigits_ne_nil hdigits hzeros, hvalue, List.length_replicate]

/-- A text shows one integer. -/
theorem ShowsExactly.eq {others : Nat} (hn : ShowsExactly n places t) (hk : ShowsExactly k others t) : n = k := by
  obtain ⟨x, hx, hinteger⟩ := hn.read
  obtain ⟨y, hy, hsame⟩ := hk.read
  obtain rfl := Option.some.inj (hx.symm.trans hy)
  exact hinteger.eq hsame

theorem exists_showsExactly (hn : n.natAbs ≤ greatestSafeInteger) (hplaces : places ≤ greatestPlaces) :
    ∃ t, formatValue (.int n) (plainHint places) = .ok t ∧ ShowsExactly n places t := by
  obtain ⟨x, hx, g, hg⟩ := exists_magnitudeText_eq hn places
  have hshown : formatValue (.int n) (plainHint places) =
      .ok ((if n < 0 then "-" else "") ++ String.ofList (x.magnitudeText places)) := by
    rw [formatValue, hx, plainHint_eq,
      FormatHint.formatNumber_of_mem (Int.natCast_nonneg places) (Int.ofNat_le.mpr hplaces), markNumber_plain]
    simp
  refine ⟨_, hshown, .of_layout (g := g) ?_⟩
  rw [hg, String.toList_append, String.toList_ofList, numeral]
  congr 1
  by_cases hnegative : n < 0 <;> simp [hnegative]

theorem formatValue_eq_placesOutOfRange (hn : n.natAbs ≤ greatestSafeInteger) (hplaces : greatestPlaces < places) :
    formatValue (.int n) (plainHint places) = .error .placesOutOfRange := by
  obtain ⟨x, hx, -⟩ := exists_magnitudeText_eq hn places
  have hbeyond : ¬ (0 ≤ (places : Int) ∧ (places : Int) ≤ greatestPlaces) := by omega
  rw [formatValue, hx, plainHint_eq, FormatHint.formatNumber_of_not_mem hbeyond]

/-- **Plain integers are shown exactly**, and different ones differently, with up to the greatest number of places. -/
theorem formatValue_plain (hn : n.natAbs ≤ greatestSafeInteger) :
    (places ≤ greatestPlaces →
      ∃ t, formatValue (.int n) (plainHint places) = .ok t ∧ ShowsExactly n places t ∧
        ∀ k, k.natAbs ≤ greatestSafeInteger → k ≠ n → formatValue (.int k) (plainHint places) ≠ .ok t) ∧
    (greatestPlaces < places → formatValue (.int n) (plainHint places) = .error .placesOutOfRange) := by
  refine ⟨fun hplaces => ?_, formatValue_eq_placesOutOfRange hn⟩
  obtain ⟨t, ht, hshows⟩ := exists_showsExactly hn hplaces
  refine ⟨t, ht, hshows, fun k hk hne heq => ?_⟩
  obtain ⟨t', ht', hshows'⟩ := exists_showsExactly hk hplaces
  obtain rfl := Except.ok.inj (ht'.symm.trans heq)
  exact hne (hshows'.eq hshows)

end plain

theorem formatValue_plain_debt : (-1234567 : Int).natAbs ≤ greatestSafeInteger ∧ 2 ≤ greatestPlaces ∧
    formatValue (.int (-1234567)) (plainHint 2) = .ok "-1,234,567.00" ∧
    ∃ t, formatValue (.int (-1234567)) (plainHint 2) = .ok t ∧ ShowsExactly (-1234567) 2 t ∧
      ∀ k, k.natAbs ≤ greatestSafeInteger → k ≠ -1234567 → formatValue (.int k) (plainHint 2) ≠ .ok t :=
  ⟨by decide, by decide, by rfl, (formatValue_plain (by decide)).1 (by decide)⟩

/-- No number is shown with more than the greatest number of places. -/
theorem not_forall_exists_showsExactly :
    ¬ ∀ (n : Int) (places : Nat), n.natAbs ≤ greatestSafeInteger →
      ∃ t, formatValue (.int n) (plainHint places) = .ok t ∧ ShowsExactly n places t := by
  intro h
  obtain ⟨t, ht, -⟩ := h 1 2147483648 (by decide)
  rw [formatValue_eq_placesOutOfRange (by decide) (by decide)] at ht
  cases ht

end MetricLayer
