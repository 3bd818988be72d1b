import TiramisuAgents.Adapters.Stubs

/-!
`testkit/adapter_contracts.py`: the checks a client pack runs against its adapters.

A check executes the requests of a fixture on the adapter, some of them twice, and asks for their
outcomes.  An exception of the adapter that the check does not expect goes through it.

* `assertMutatingActionAdapterContract`, `assertTimeoutAfterSuccessAdapterContract`,
  `assertDefinitiveFailureAdapterContract`: the checks.
* `assertConflict_ok_iff`, `contract_checks_iff`: what an adapter that honours the contract passes.
-/

namespace TiramisuAgents

open Deduplication

variable {ε π : Type}

/-- How a check fails: its own assertion, or what the adapter raises. -/
inductive ContractError where
  | assertion (message : String)
  | raised (answer : ProviderAnswer)
  deriving DecidableEq, Repr

/-- `MutatingActionAdapterContract`. -/
structure MutatingActionAdapterContract where
  successfulRequest : ProviderRequest
  conflictRequest : ProviderRequest
  expectedConflict : ActionConflict
  expiredHoldRequest : Option ProviderRequest := none
  expectedExpiredHoldConflict : Option ActionConflict := none

section

variable (A : ActionService ε π)

/-- `await adapter.execute(request)`, where a result is expected. -/
def executeResult (q : ProviderRequest) (p : π) :
    Except ContractError (ProviderActionResult × π) :=
  match A.execute q p with
  | (.success r, p') => .ok (r, p')
  | (answer, _) => .error (.raised answer)

/-- One round of `_assert_conflict`. -/
def assertConflictRaised (q : ProviderRequest) (expected : ActionConflict) (p : π) :
    Except ContractError π :=
  match A.execute q p with
  | (.definitiveConflict conflict, p') =>
      if conflict = expected then .ok p'
      else
        .error (.assertion "adapter returned a different conflict than its contract fixture")
  | (.success _, _) => .error (.assertion "adapter did not return a definitive conflict")
  | (answer, _) => .error (.raised answer)

/-- `_assert_conflict`. -/
def assertConflict (q : ProviderRequest) (expected : ActionConflict) (p : π) :
    Except ContractError π := do
  let p ← assertConflictRaised A q expected p
  let p ← assertConflictRaised A q expected p
  if A.lookup q.idempotencyKey p = some (.conflict expected) then .ok p
  else .error (.assertion "adapter lookup did not recover the definitive conflict")

/-- The part of the check about holds that expire. -/
def assertExpiredHold (fixture : MutatingActionAdapterContract) (p : π) : Except ContractError π :=
  match fixture.expiredHoldRequest, fixture.expectedExpiredHoldConflict with
  | some _, none => .error (.assertion "an expired hold fixture requires its expected conflict")
  | some q, some conflict => assertConflict A q conflict p
  | none, some _ => .error (.assertion "an expiry conflict requires an expired hold request")
  | none, none => .ok p

/-- `assert_mutating_action_adapter_contract`. -/
def assertMutatingActionAdapterContract (fixture : MutatingActionAdapterContract) (p : π) :
    Except ContractError π := do
  let (initial, p) ← executeResult A fixture.successfulRequest p
  let (repeated, p) ← executeResult A fixture.successfulRequest p
  if repeated ≠ initial then
    .error (.assertion "adapter did not return the same result for an idempotency retry")
  else if A.lookup fixture.successfulRequest.idempotencyKey p ≠ some (.result initial) then
    .error (.assertion "adapter lookup did not recover the successful idempotent result")
  else
    let p ← assertConflict A fixture.conflictRequest fixture.expectedConflict p
    assertExpiredHold A fixture p

/-- `assert_timeout_after_success_adapter_contract`. -/
def assertTimeoutAfterSuccessAdapterContract (q : ProviderRequest)
    (expected : ProviderActionResult) (p : π) : Except ContractError π :=
  match A.execute q p with
  | (.ambiguous _, p) =>
      if A.lookup q.idempotencyKey p ≠ some (.result expected) then
        .error (.assertion "adapter lookup did not recover the ambiguous successful outcome")
      else do
        let (result, p) ← executeResult A q p
        if result ≠ expected then
          .error (.assertion "adapter retry did not return the prior successful outcome")
        else .ok p
  | (.success _, _) =>
      .error (.assertion "adapter did not model an ambiguous timeout after success")
  | (answer, _) => .error (.raised answer)

/-- `assert_definitive_failure_adapter_contract`. -/
def assertDefinitiveFailureAdapterContract (q : ProviderRequest) (message : String) (p : π) :
    Except ContractError π :=
  match A.execute q p with
  | (.definitiveConflict _, _) =>
      .error (.assertion "ordinary definitive failure was reported as a conflict")
  | (.definitiveFailure text, p) =>
      if text ≠ message then
        .error (.assertion "adapter returned a different definitive failure")
      else if A.lookup q.idempotencyKey p ≠ none then
        .error (.assertion "definitive failure unexpectedly created a lookup outcome")
      else .ok p
  | (.success _, _) => .error (.assertion "adapter did not return a definitive failure")
  | (answer, _) => .error (.raised answer)

end

section

variable {A : ActionService ε π} {p p' : π} {q : ProviderRequest}

lemma executeResult_ok_iff {r : ProviderActionResult} :
    executeResult A q p = .ok (r, p') ↔ A.execute q p = (.success r, p') := by
  rw [executeResult]
  split
  · rename_i r₁ p₁ heq
    rw [heq]
    simp
  · rename_i answer p₁ hne heq
    rw [heq]
    refine iff_of_false (by simp) fun h => ?_
    obtain ⟨rfl, rfl⟩ := Prod.mk.inj h
    exact hne _ rfl

lemma assertConflictRaised_ok_iff {expected : ActionConflict} :
    assertConflictRaised A q expected p = .ok p' ↔
      A.execute q p = (.definitiveConflict expected, p') := by
  rw [assertConflictRaised]
  split
  · rename_i conflict p₁ heq
    rw [heq]
    split_ifs with hexpected
    · simp [hexpected]
    · simp [hexpected]
  · rename_i heq
    simp [heq]
  · rename_i answer p₁ hne hne' heq
    rw [heq]
    refine iff_of_false (by simp) fun h => ?_
    obtain ⟨rfl, rfl⟩ := Prod.mk.inj h
    exact hne _ rfl

/-- An outcome is answered again, and nothing changes. -/
lemma ActionService.Lawful.again (hA : A.Lawful) {o : ProviderOutcome}
    (h : A.execute q p = (o.answer, p')) :
    A.execute q p' = (o.answer, p') ∧ A.lookup q.idempotencyKey p' = some o := by
  have hkept : A.lookup (A.key q) p' = some o := by
    have hsettled := hA.idempotent.settles (congrArg Prod.fst h)
    rwa [h] at hsettled
  exact ⟨hA.idempotent.repeats hkept, by rwa [← hA.key]⟩

/-- An adapter that honours the contract passes the check of a conflict iff it conflicts once. -/
lemma assertConflict_ok_iff (hA : A.Lawful) {expected : ActionConflict} :
    assertConflict A q expected p = .ok p' ↔
      A.execute q p = (.definitiveConflict expected, p') := by
  constructor
  · intro h
    obtain ⟨p₁, hfirst, hrest⟩ := ok_of_bind h
    obtain ⟨p₂, hsecond, hlast⟩ := ok_of_bind hrest
    rw [assertConflictRaised_ok_iff] at hfirst hsecond
    have hagain := (hA.again (o := .conflict expected) hfirst).1
    rw [hsecond] at hagain
    split_ifs at hlast
    rw [← Except.ok.inj hlast, (Prod.mk.inj hagain).2]
    exact hfirst
  · intro h
    obtain ⟨hagain, hlookup⟩ := hA.again (o := .conflict expected) h
    rw [assertConflict, assertConflictRaised_ok_iff.mpr h]
    simp only [bind, Except.bind]
    rw [assertConflictRaised_ok_iff.mpr hagain]
    dsimp only
    rw [if_pos hlookup]

/-- An adapter that honours the contract returns a result again. -/
lemma executeResult_again (hA : A.Lawful) {r : ProviderActionResult}
    (h : A.execute q p = (.success r, p')) :
    executeResult A q p' = .ok (r, p') ∧
      A.lookup q.idempotencyKey p' = some (.result r) := by
  obtain ⟨hagain, hlookup⟩ := hA.again (o := .result r) h
  exact ⟨executeResult_ok_iff.mpr hagain, hlookup⟩

/-- What the fixture expects of the answers to its requests, each executed once. -/
structure MutatingActionAdapterContract.Expects (fixture : MutatingActionAdapterContract)
    (A : ActionService ε π) (p : π) : Prop where
  succeeds : ∃ r, (A.execute fixture.successfulRequest p).1 = .success r
  conflicts : (A.execute fixture.conflictRequest (A.execute fixture.successfulRequest p).2).1
    = .definitiveConflict fixture.expectedConflict
  paired : fixture.expiredHoldRequest.isSome = fixture.expectedExpiredHoldConflict.isSome
  expires : ∀ q conflict, fixture.expiredHoldRequest = some q →
    fixture.expectedExpiredHoldConflict = some conflict →
    (A.execute q (A.execute fixture.conflictRequest
      (A.execute fixture.successfulRequest p).2).2).1 = .definitiveConflict conflict

lemma assertExpiredHold_ok_iff (hA : A.Lawful) {fixture : MutatingActionAdapterContract} :
    (∃ p', assertExpiredHold A fixture p = .ok p') ↔
      fixture.expiredHoldRequest.isSome = fixture.expectedExpiredHoldConflict.isSome ∧
      ∀ q conflict, fixture.expiredHoldRequest = some q →
        fixture.expectedExpiredHoldConflict = some conflict →
        (A.execute q p).1 = .definitiveConflict conflict := by
  rw [assertExpiredHold]
  cases fixture.expiredHoldRequest with
  | none => cases fixture.expectedExpiredHoldConflict <;> simp
  | some q =>
      cases fixture.expectedExpiredHoldConflict with
      | none => simp
      | some conflict =>
          simp only [assertConflict_ok_iff hA, Option.isSome_some, Option.some.injEq, true_and]
          constructor
          · rintro ⟨p', h⟩ _ _ rfl rfl
            rw [h]
          · exact fun h => ⟨_, Prod.ext (h q conflict rfl rfl) rfl⟩

/-- The check of an adapter that mutates. -/
lemma assertMutating_ok_iff (hA : A.Lawful) (fixture : MutatingActionAdapterContract) :
    (∃ p', assertMutatingActionAdapterContract A fixture p = .ok p') ↔ fixture.Expects A p := by
  constructor
  · rintro ⟨p', h⟩
    obtain ⟨⟨initial, p₁⟩, hfirst, hrest⟩ := ok_of_bind h
    obtain ⟨⟨repeated, p₂⟩, hsecond, hlast⟩ := ok_of_bind hrest
    rw [executeResult_ok_iff] at hfirst
    rw [(executeResult_again hA hfirst).1] at hsecond
    cases hsecond
    dsimp only at hlast
    split_ifs at hlast
    obtain ⟨p₃, hconflict, hexpired⟩ := ok_of_bind hlast
    rw [assertConflict_ok_iff hA] at hconflict
    have hstate : (A.execute fixture.successfulRequest p).2 = p₁ := by rw [hfirst]
    have hstate' : (A.execute fixture.conflictRequest p₁).2 = p₃ := by rw [hconflict]
    obtain ⟨hpaired, hexpires⟩ := (assertExpiredHold_ok_iff hA).mp ⟨p', hexpired⟩
    refine ⟨⟨initial, by rw [hfirst]⟩, by rw [hstate, hconflict], hpaired, ?_⟩
    rw [hstate, hstate']
    exact hexpires
  · rintro ⟨⟨r, hsucceeds⟩, hconflicts, hpaired, hexpires⟩
    set p₁ := (A.execute fixture.successfulRequest p).2 with hp₁
    have hfirst : A.execute fixture.successfulRequest p = (.success r, p₁) :=
      Prod.ext hsucceeds rfl
    obtain ⟨hagain, hlookup⟩ := executeResult_again hA hfirst
    obtain ⟨p', hexpired⟩ := (assertExpiredHold_ok_iff hA).mpr ⟨hpaired, hexpires⟩
    have hconflict : assertConflict A fixture.conflictRequest fixture.expectedConflict p₁
        = .ok (A.execute fixture.conflictRequest p₁).2 :=
      (assertConflict_ok_iff hA).mpr (Prod.ext hconflicts rfl)
    refine ⟨p', ?_⟩
    rw [assertMutatingActionAdapterContract, executeResult_ok_iff.mpr hfirst]
    simp only [bind, Except.bind]
    rw [hagain]
    dsimp only
    rw [if_neg (not_not.mpr rfl), if_neg (not_not.mpr hlookup), hconflict]
    exact hexpired

/-- **What the checks of adapters check.**  An adapter that honours the contract passes the check of
a mutating adapter iff each request of the fixture, executed once, gets the expected answer; the
check of a timeout after success iff the first execution is ambiguous and the expected result can
be looked up after it; and the check of a definitive failure iff the execution fails with the
message and keeps no outcome. -/
theorem contract_checks_iff (hA : A.Lawful) (p : π) :
    (∀ fixture, (∃ p', assertMutatingActionAdapterContract A fixture p = .ok p') ↔
      fixture.Expects A p) ∧
    (∀ q expected, (∃ p', assertTimeoutAfterSuccessAdapterContract A q expected p = .ok p') ↔
      (∃ message, (A.execute q p).1 = .ambiguous message) ∧
        A.lookup q.idempotencyKey (A.execute q p).2 = some (.result expected)) ∧
    ∀ q message, (∃ p', assertDefinitiveFailureAdapterContract A q message p = .ok p') ↔
      (A.execute q p).1 = .definitiveFailure message ∧
        A.lookup q.idempotencyKey (A.execute q p).2 = none := by
  refine ⟨assertMutating_ok_iff hA, fun q expected => ?_, fun q message => ?_⟩
  · rw [assertTimeoutAfterSuccessAdapterContract]
    split
    · rename_i text p₁ heq
      rw [heq]
      constructor
      · rintro ⟨p', h⟩
        split_ifs at h with hlookup
        exact ⟨⟨text, rfl⟩, not_not.mp hlookup⟩
      · rintro ⟨-, hlookup⟩
        have hagain : executeResult A q p₁ = .ok (expected, p₁) := by
          rw [executeResult_ok_iff]
          exact hA.idempotent.repeats (o := .result expected) (by rwa [hA.key])
        refine ⟨p₁, ?_⟩
        rw [if_neg (not_not.mpr hlookup), hagain]
        simp [bind, Except.bind]
    · rename_i heq
      simp [heq]
    · rename_i answer p₁ hambiguous _ heq
      rw [heq]
      refine iff_of_false (by simp) ?_
      rintro ⟨⟨text, rfl⟩, -⟩
      exact hambiguous _ rfl
  · rw [assertDefinitiveFailureAdapterContract]
    split
    · rename_i heq
      simp [heq]
    · rename_i text p₁ heq
      rw [heq]
      constructor
      · rintro ⟨p', h⟩
        split_ifs at h with htext hlookup
        exact ⟨by rw [not_not.mp htext], not_not.mp hlookup⟩
      · rintro ⟨htext, hlookup⟩
        cases htext
        exact ⟨p₁, by rw [if_neg (not_not.mpr rfl), if_neg (not_not.mpr hlookup)]⟩
    · rename_i heq
      simp [heq]
    · rename_i answer p₁ _ hfailure _ heq
      rw [heq]
      refine iff_of_false (by simp) ?_
      rintro ⟨rfl, -⟩
      exact hfailure _ rfl

end

/-- A stub that succeeds once and then conflicts, with the fixture that expects it. -/
def conflictingStub : StubActionAdapter where
  outcomes := [.result ⟨"hold", "held", []⟩, .raised (.definitiveConflict ⟨"taken", [], "taken"⟩)]

/-- The fixture. -/
def holdFixture : MutatingActionAdapterContract where
  successfulRequest := { actionType := "hold", parameters := ⟨"1", 1⟩, idempotencyKey := "first" }
  conflictRequest := { actionType := "hold", parameters := ⟨"2", 1⟩, idempotencyKey := "second" }
  expectedConflict := ⟨"taken", [], "taken"⟩

/-- The stub passes the check, and the check of a timeout fails on it. -/
theorem contract_checks_iff_stub :
    (∃ p', assertMutatingActionAdapterContract (stubActionService id) holdFixture conflictingStub
      = .ok p') ∧
    ¬ ∃ p', assertTimeoutAfterSuccessAdapterContract (stubActionService id)
      holdFixture.successfulRequest ⟨"hold", "held", []⟩ conflictingStub = .ok p' := by
  obtain ⟨hmutating, htimeout, -⟩ :=
    contract_checks_iff (stubActionService_lawful id) conflictingStub
  refine ⟨(hmutating holdFixture).mpr ⟨⟨⟨"hold", "held", []⟩, rfl⟩, rfl, rfl, ?_⟩, fun h => ?_⟩
  · intro q conflict hq
    cases hq
  · obtain ⟨⟨message, hambiguous⟩, -⟩ := (htimeout _ _).mp h
    cases hambiguous

end TiramisuAgents
