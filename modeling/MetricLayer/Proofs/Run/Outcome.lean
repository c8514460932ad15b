import MetricLayer.Proofs.Catalog.Alias
import MetricLayer.Proofs.Engine.Sanitize
import MetricLayer.Proofs.Run.Guarded
import MetricLayer.Proofs.Sql.Numeral

/-!
# Runs that come to an outcome

A run ends in a success or is exhausted, unless it meets a numeral that cannot be read, a part of the catalog
that is no text, or a value that cannot be sanitized.  With statements that are `Legible`, a catalog that
`HasTexts` and rows of sanitizable values none of these happens, whatever else the generator and the engine
answer or fail with (`run_has_outcome`).
-/

namespace MetricLayer

open MetricLayer.Text MetricLayer.Sql

/-! ## What is asked of the parties -/

/-- A statement whose numerals can be read, and so short that the position of any item can be written. -/
structure Legible (sql : String) : Prop where
  numerals : ShortNumerals sql.toList
  positions : isWritable (sql.toList.length + 1)

/-- All statements that are taken from the replies of a generator are legible. -/
def Generator.IsLegible (generator : Generator) : Prop :=
  ∀ n prompt r reply sql, (generator.complete n prompt r).1 = .ok reply →
    Reply.statement reply = .ok sql → Legible sql

/-- All values that an engine answers with can be sanitized. -/
def Engine.IsSanitizable (engine : Engine) : Prop :=
  ∀ n sql r rows, (engine.execute n sql r).1 = .ok rows →
    ∀ row ∈ rows, ∀ cell ∈ row, cell.2.IsSanitizable

/-- The transformations and the sort directives of a catalog are texts. -/
structure Catalog.HasTexts (c : Catalog) : Prop where
  transformations : ∀ d ∈ c.dimensions, ∀ v ∈ d.transformation, v.isText
  sorts : ∀ d ∈ c.dimensions, ∀ v ∈ d.sort, v.isText

variable {c : Catalog}

theorem Catalog.HasTexts.fault?_eq_none (h : c.HasTexts) : (Prompt.Listing.of c).fault? = none := by
  rw [Prompt.Listing.fault?, List.findSome?_eq_none_iff]
  rintro ⟨name, v⟩ hlisted
  obtain ⟨d, hd, heq⟩ := List.mem_map.mp (List.mem_of_mem_take hlisted)
  obtain ⟨-, rfl⟩ := Prod.mk.inj heq
  have htext : d.definition.isText := by
    rw [Dimension.definition]
    cases ht : d.transformation with
    | none => rfl
    | some v => exact h.transformations d (mem_of_mem_firstByAlias hd) v ht
  exact if_pos htext

theorem orderFault?_eq_none (h : ∀ d ∈ c.dimensions, ∀ v ∈ d.sort, v.isText) (query : Option Query) :
    orderFault? c query = none := by
  have hsort : ∀ d ∈ c.dimensions, d.sortFault? = none := by
    intro d hd
    rw [Dimension.sortFault?]
    cases hv : d.sort with
    | none => rfl
    | some v => exact if_pos (h d hd v hv)
  have hcategory (name : String) : categoryFault? (some c) name = none := by
    rw [categoryFault?]
    split_ifs
    · rfl
    · cases hd : c.dimension? name with
      | none => rw [Option.bind_some, hd]; rfl
      | some d =>
        rw [Option.bind_some, hd]
        exact hsort d (of_findAlias?_eq_some hd).1
  rw [orderFault?]
  cases query.filter fun q => q.ordering.isEmpty with
  | none => rfl
  | some q =>
    rw [Option.bind_some, List.findSome?_eq_none_iff]
    intro i _
    split_ifs
    · rfl
    · exact hcategory _

/-! ## Ordering a legible statement -/

theorem shortNumerals_orderTarget {position : Nat} {item : SelectItem}
    (hname : ∀ name ∈ item.aliasName, ShortNumerals name.toList) (hposition : isWritable position) :
    ShortNumerals (SelectItem.orderTarget position item).toList := by
  rw [SelectItem.orderTarget]
  cases ha : item.aliasName with
  | none => exact shortNumerals_toString hposition
  | some name =>
    dsimp only
    split_ifs
    · exact shortNumerals_toString hposition
    · rw [toList_quote]
      exact ((hname name ha).double.append_cons isDigit_quote shortNumerals_nil).cons isDigit_quote

theorem shortNumerals_temporalTarget {q : Query} {n : Nat} {target : String} (hsized : Sized n q)
    (hpositions : isWritable (n + 1 : Nat)) (h : temporalTarget? c q = some target) :
    ShortNumerals target.toList := by
  obtain ⟨⟨item, k⟩, hfind, rfl⟩ := Option.map_eq_some_iff.mp h
  have hmem := List.mem_of_find?_eq_some hfind
  have hitem : item ∈ q.items := List.fst_mem_of_mem_zipIdx hmem
  have hk : k < q.items.length := by simpa using List.snd_lt_of_mem_zipIdx hmem
  exact shortNumerals_orderTarget (hsized.names item hitem)
    (isWritable_of_le (hk.trans_le hsized.items) hpositions)

theorem shortNumerals_insertOrder {order sql : List Char} (horder : ShortNumerals order)
    (h : ShortNumerals sql) : ShortNumerals (insertOrder order sql) := by
  rw [insertOrder]
  split
  · exact h.append_cons isDigit_lineBreak horder
  · next start _ =>
    have hbefore := h.of_isInfix ((dropEndWhile_isInfix isBlank _).trans (List.take_prefix start sql).isInfix)
    have hafter := h.of_isInfix (List.drop_suffix start sql).isInfix
    rw [List.append_assoc, List.cons_append]
    exact hbefore.append_cons isDigit_lineBreak (horder.append_cons isDigit_lineBreak hafter)

theorem shortNumerals_temporalOrder {sql : String} {query : Option Query} (h : Legible sql)
    (hsized : ∀ q ∈ query, Sized sql.toList.length q) :
    ShortNumerals (temporalOrder c sql query).toList := by
  rw [temporalOrder]
  cases hq : query.filter fun q => q.ordering.isEmpty with
  | none => exact h.numerals
  | some q =>
    cases htarget : temporalTarget? c q with
    | none =>
      simp only [htarget]
      exact h.numerals
    | some target =>
      have hquery : q ∈ query := (Option.filter_eq_some_iff.mp hq).1
      have hshort := shortNumerals_temporalTarget (hsized q hquery) h.positions htarget
      have horder : ("ORDER BY " ++ target ++ " ASC").toList =
          "ORDER BY".toList ++ ' ' :: (target.toList ++ ' ' :: "ASC".toList) := by
        simp
      have hword (w : String) (hw : w.toList.length ≤ digitLimit) : ShortNumerals w.toList :=
        shortNumerals_of_length_le hw
      simp only [htarget]
      rw [toList_within]
      apply shortNumerals_insertOrder _ h.numerals
      rw [horder]
      exact (hword "ORDER BY" (by decide)).append_cons isDigit_space
        (hshort.append_cons isDigit_space (hword "ASC" (by decide)))

/-! ## Vetting a legible statement -/

namespace RunPlan

variable {p : RunPlan} {extracted : String}

theorem exists_order {query : Option Query} (htexts : p.catalog.HasTexts) (h : Legible extracted)
    (hsized : ∀ q ∈ query, Sized extracted.toList.length q) : ∃ v, p.order extracted query = .ok v := by
  obtain ⟨query', hread, -⟩ := exists_read? p.catalog
    (shortNumerals_temporalOrder (c := p.catalog) h hsized)
  rw [order, orderFault?_eq_none htexts.sorts query]
  by_cases hsame : temporalOrder p.catalog extracted query = extracted
  · exact ⟨_, if_pos hsame⟩
  · refine ⟨.ready (temporalOrder p.catalog extracted query) query', ?_⟩
    simp only [if_neg hsame, hread]
    rfl

theorem exists_vet (htexts : p.catalog.HasTexts) (h : Legible extracted) :
    ∃ v, p.vet extracted = .ok v := by
  rw [vet]
  by_cases hvalidates : p.validates
  · obtain ⟨reviewed, hreview, hsized⟩ := exists_review p.catalog h.numerals
    rw [if_pos hvalidates, hreview]
    by_cases hvalid : reviewed.isValid
    · obtain ⟨v, hv⟩ := exists_order htexts h hsized
      exact ⟨v, by rw [← hv]; exact if_pos hvalid⟩
    · exact ⟨.rejected reviewed, if_neg hvalid⟩
  · obtain ⟨query, hread, hsized⟩ := exists_read? p.catalog h.numerals
    rw [if_neg hvalidates, hread]
    exact exists_order htexts h hsized

/-! ## Attempts -/

variable {generator : Generator} {engine : Engine} {attempts calls : Nat} {prompt : String} {r : Registry}

theorem nextPrompt_ne_error (htexts : c.HasTexts) {request : String} {e : AttemptEnd} {b : Breakage}
    (he : ∀ executed b, e ≠ .brokenOff executed b) : e.nextPrompt c request ≠ .error b := by
  have hretry (error : String) :
      (Prompt.executionRetry error (.of c) request).mapError Breakage.content ≠ .error b := by
    rw [Prompt.executionRetry, htexts.fault?_eq_none]
    nofun
  cases e with
  | brokenOff executed b => exact absurd rfl (he executed b)
  | rejected => nofun
  | generatorFailed => exact hretry _
  | notExtracted => exact hretry _
  | blocked => exact hretry _
  | engineFailed => exact hretry _
  | succeeded => exact hretry _

theorem attempt_ne_brokenOff (htexts : p.catalog.HasTexts) (hlegible : generator.IsLegible)
    (executed : Option String) (b : Breakage) :
    (p.attempt generator engine attempts calls prompt r).1 ≠ .brokenOff executed b := by
  intro h
  rw [attempt] at h
  rcases hreply : generator.complete attempts prompt r with ⟨reply, between⟩
  cases reply with
  | error f =>
    simp only [hreply] at h
    cases h
  | ok reply =>
    cases hextracted : Reply.statement reply with
    | error f =>
      simp only [hreply, hextracted] at h
      cases h
    | ok extracted =>
      simp only [hreply, hextracted] at h
      have hreplied : (generator.complete attempts prompt r).1 = .ok reply := by rw [hreply]
      obtain ⟨v, hv⟩ := exists_vet htexts (hlegible _ _ _ _ _ hreplied hextracted)
      rw [runStatement, hv] at h
      cases v with
      | rejected => cases h
      | ready sql query =>
        cases hgate : Safety.violations p.catalog sql with
        | cons =>
          simp only [hgate] at h
          cases h
        | nil =>
          simp only [hgate] at h
          rcases hanswer : engine.execute calls sql between with ⟨_ | _, _⟩
          · rw [hanswer] at h
            cases h
          · rw [hanswer] at h
            cases h

/-- A run whose first attempt is broken off has no outcome. -/
theorem outcome_run_of_brokenOff (hbudget : 0 < p.budget) {generator : Generator} {b : Breakage}
    (hattempt : (p.attempt generator engine 0 0 p.request r).1 = .brokenOff none b) :
    (p.run generator engine r).outcome = .error (.brokenOff b) := by
  obtain ⟨left, hleft⟩ := Nat.exists_eq_succ_of_ne_zero hbudget.ne'
  have hattempts : (p.run generator engine r).attempts = [⟨p.request, .brokenOff none b⟩] := by
    rw [run, hleft, attemptsFrom_of_error (Prod.ext hattempt rfl) Bool.false_ne_true rfl]
    rfl
  rw [Run.outcome, Run.endings, hattempts]
  rfl

end RunPlan

/-! ## Runs -/

namespace Run

variable {p : RunPlan} {generator : Generator} {engine : Engine} {r : Registry}

theorem ending_ne_brokenOff (htexts : p.catalog.HasTexts) (hlegible : generator.IsLegible) {a : Attempt}
    (ha : a ∈ (p.run generator engine r).attempts) (executed : Option String) (b : Breakage) :
    a.ending ≠ .brokenOff executed b := by
  obtain ⟨i, hi⟩ := List.getElem?_of_mem ha
  obtain ⟨hkeeps, -⟩ := keeps_run hi
  generalize a.ending = kept at hkeeps
  cases hkeeps with
  | whole => exact RunPlan.attempt_ne_brokenOff htexts hlegible executed b
  | brokenOff hnext =>
    exact absurd hnext (RunPlan.nextPrompt_ne_error htexts (RunPlan.attempt_ne_brokenOff htexts hlegible))

theorem exists_outcome (htexts : p.catalog.HasTexts) (hlegible : generator.IsLegible)
    (hsanitizable : engine.IsSanitizable) : ∃ o, (p.run generator engine r).outcome = .ok o := by
  rw [outcome, endings, List.getLast?_map]
  rcases (p.run generator engine r).attempts.eq_nil_or_concat with hnil | ⟨as, a, hlast⟩
  · rw [hnil]
    exact ⟨_, rfl⟩
  · rw [List.concat_eq_append] at hlast
    have ha : a ∈ (p.run generator engine r).attempts := by simp [hlast]
    rw [hlast, List.getLast?_concat, Option.map_some]
    cases hending : a.ending with
    | brokenOff executed b => exact absurd hending (ending_ne_brokenOff htexts hlegible ha executed b)
    | succeeded extracted sql query rows =>
      obtain ⟨hcalls, -⟩ := (reports_run hlast).succeeded extracted sql query rows hending
      obtain ⟨between, after, reply, _, _, -, -, -, -, hanswer⟩ := hcalls.origin
      obtain ⟨sanitized, hrows⟩ := exists_sanitizeRows
        (hsanitizable _ sql between rows (by rw [hanswer]))
      exact ⟨_, by simp only [hrows]; rfl⟩
    | generatorFailed => exact ⟨_, rfl⟩
    | notExtracted => exact ⟨_, rfl⟩
    | rejected => exact ⟨_, rfl⟩
    | blocked => exact ⟨_, rfl⟩
    | engineFailed => exact ⟨_, rfl⟩

end Run

/-- A run of a registered table by a known strategy ends in a success or is exhausted: with legible
statements, a catalog of texts and sanitizable rows, whatever the generator and the engine answer or fail
with, and whatever they register meanwhile. -/
theorem run_has_outcome {request table : String} {r : Registry} {generator : Generator} {engine : Engine}
    {strategy : Option String} {maxAttempts : Option Int} {s : Strategy} {g : Registration}
    (hstrategy : Strategy.ofName? strategy = some s) (hsnapshot : r.snapshot table = .ok g)
    (htexts : g.catalog.HasTexts) (hlegible : generator.IsLegible) (hsanitizable : engine.IsSanitizable) :
    ∃ R, run request table r generator engine strategy maxAttempts = .ok R ∧
      ((∃ q rows, R.outcome = .ok (.success q rows)) ∨ ∃ e, R.outcome = .ok (.exhausted e)) := by
  refine ⟨_, Run.run_eq_ok hstrategy hsnapshot, ?_⟩
  obtain ⟨o, ho⟩ := Run.exists_outcome (p := RunPlan.mk request g.catalog g.version
    (s.validates generator.requiresValidation) (s.budget maxAttempts)) (r := r) htexts hlegible hsanitizable
  cases o with
  | success q rows => exact Or.inl ⟨q, rows, ho⟩
  | exhausted e => exact Or.inr ⟨e, ho⟩

theorem legible_countGenerator : countGenerator.IsLegible := by
  have hstatement : Reply.statement countStatement = .ok countStatement := rfl
  intro n prompt r reply sql hreply hsql
  obtain rfl : countStatement = reply := Except.ok.inj hreply
  rw [hstatement] at hsql
  obtain rfl : countStatement = sql := Except.ok.inj hsql
  exact ⟨shortNumerals_of_length_le (by decide), by decide +kernel⟩

theorem hasTexts_usersCatalog : usersCatalog.HasTexts :=
  ⟨by decide +kernel, by decide +kernel⟩

theorem sanitizable_countEngine : countEngine.IsSanitizable := by
  intro n sql r rows hrows row hrow cell hcell
  obtain rfl : [[("user_count", Value.int 2)]] = rows := Except.ok.inj hrows
  obtain rfl := List.mem_singleton.mp hrow
  obtain rfl := List.mem_singleton.mp hcell
  show Int.natAbs 2 < Number.overflowBound
  decide +kernel

theorem run_has_outcome_countPlan :
    usersCatalog.HasTexts ∧ countGenerator.IsLegible ∧ countEngine.IsSanitizable ∧
      ∃ R, run countPlan.request "users" .bundled countGenerator countEngine none (some 5) = .ok R ∧
        ((∃ q rows, R.outcome = .ok (.success q rows)) ∨ ∃ e, R.outcome = .ok (.exhausted e)) :=
  ⟨hasTexts_usersCatalog, legible_countGenerator, sanitizable_countEngine,
    run_has_outcome (s := .adaptive) (g := ⟨usersCatalog, 2⟩) rfl rfl hasTexts_usersCatalog
      legible_countGenerator sanitizable_countEngine⟩

/-! ## An engine that counts too high -/

/-- Counts more users than floating-point numbers reach. -/
def hugeEngine : Engine where
  execute := fun _ _ r => (.ok [[("user_count", .int (10 ^ (400 : Nat)))]], r)

theorem sanitizeRows_hugeEngine :
    sanitizeRows [[("user_count", .int (10 ^ (400 : Nat)))]] = .error .tooLarge := by
  have hunsafe : ¬ (10 ^ (400 : Nat) : Int).natAbs ≤ greatestSafeInteger := by decide +kernel
  have hoverflow : Number.Binary64.ofInt? (10 ^ (400 : Nat)) = none := by decide +kernel
  have hvalue : Value.sanitize (.int (10 ^ (400 : Nat))) = .error .tooLarge := by
    rw [Value.sanitize, if_neg hunsafe, hoverflow]
  have hrow : sanitizeRow [("user_count", .int (10 ^ (400 : Nat)))] = .error .tooLarge := by
    rw [sanitizeRow, List.mapM_cons]
    simp only [hvalue]
    rfl
  rw [sanitizeRows, List.mapM_cons, hrow]
  rfl

theorem attempt_hugeEngine (r : Registry) :
    countPlan.attempt countGenerator hugeEngine 0 0 countPlan.request r =
      (.succeeded countStatement countStatement (some countQuery)
        [[("user_count", .int (10 ^ (400 : Nat)))]], r) := by
  have hgate : Safety.violations countPlan.catalog countStatement = [] := by decide +kernel
  show countPlan.runStatement hugeEngine 0 countStatement r = _
  rw [RunPlan.runStatement, vet_countStatement]
  simp only [hgate]
  rfl

/-- Rows that cannot be sanitized leave a run without an outcome. -/
theorem not_run_has_outcome :
    ¬ ∀ (request table : String) (r : Registry) (generator : Generator) (engine : Engine)
      (strategy : Option String) (maxAttempts : Option Int) (s : Strategy) (g : Registration),
      Strategy.ofName? strategy = some s → r.snapshot table = .ok g →
        ∃ R o, run request table r generator engine strategy maxAttempts = .ok R ∧ R.outcome = .ok o := by
  intro h
  obtain ⟨R, o, hrun, houtcome⟩ := h countPlan.request "users" .bundled countGenerator hugeEngine
    (some "strict") none .strict ⟨usersCatalog, 2⟩ rfl rfl
  obtain rfl : countPlan.run countGenerator hugeEngine .bundled = R := Except.ok.inj hrun
  have hbudget : countPlan.budget = 2 + 1 := rfl
  have hattempts : (countPlan.run countGenerator hugeEngine .bundled).attempts =
      [⟨countPlan.request, .succeeded countStatement countStatement (some countQuery)
        [[("user_count", .int (10 ^ (400 : Nat)))]]⟩] := by
    rw [RunPlan.run, hbudget, RunPlan.attemptsFrom_of_isSuccess (attempt_hugeEngine _) rfl]
  rw [Run.outcome, Run.endings, hattempts] at houtcome
  simp only [List.map_cons, List.map_nil, List.getLast?_singleton, sanitizeRows_hugeEngine] at houtcome
  cases houtcome

end MetricLayer
