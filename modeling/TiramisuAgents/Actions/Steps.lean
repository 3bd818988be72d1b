import TiramisuAgents.Actions.Calls

/-!
What a step of a call can be.

`Step` has one case for each transition between stages, with the conditions under which the
source takes it and what it commits; the transitions that end a call without a commit are one
case.  `Step.of_next` reads every step of the code as one of them, so the proofs about runs
split over `Step` and do not open the code again.

* `Step`, `Step.of_next`: the transitions.
* `Step.fenced_frame`, `Step.request_frame`, `Step.attempts_frame`, `Step.attempt_frame`: what a
  step leaves as it is when it does not hold the process, the request or the attempt.
-/

namespace TiramisuAgents

variable {P : Platform} {t t' : Stage} {x : CallInput} {db db' : Database} {obs : List ActionEvent}

/-- The transitions of a call, with what they commit and what is observed. -/
inductive Step (P : Platform) : Stage → CallInput → Database → Stage → Database →
    List ActionEvent → Prop
  | halt {t t' : Stage} {x : CallInput} {db : Database} (resting : t'.resting = true) :
      Step P t x db t' db []
  | start {t : Stage} {db : Database} (c : Call) (resting : t.resting = true) :
      Step P t (.call c) db c.start db []
  | admitTenant {db : Database} (phase : Phase) (revision : ℕ) (standing : TenantStanding)
      (admitted : phase.refusal standing = none) :
      Step P (.authorising phase revision .admitting) (.answer (.tenant standing)) db
        (.authorising phase revision .selecting) db []
  | select {db : Database} (phase : Phase) (revision : ℕ) (row : Loaded)
      (found : db.row revision = some row) :
      Step P (.authorising phase revision .selecting) (.answer .go) db
        (.authorising phase revision (.loaded row)) db []
  | needApproval {db : Database} (phase : Phase) (revision : ℕ) (row : Loaded)
      (allowed : row.refusal revision = none) (policy : row.policy = .requireApproval) :
      Step P (.authorising phase revision (.loaded row)) (.answer .go) db
        (.authorising phase revision (.approving row)) db []
  | allow {db : Database} (phase : Phase) (revision : ℕ) (row : Loaded)
      (allowed : row.refusal revision = none) (policy : row.policy ≠ .requireApproval) :
      Step P (.authorising phase revision (.loaded row)) (.answer .go) db
        (.authorising phase revision (.authorised row)) db []
  | approved {db : Database} (phase : Phase) (revision : ℕ) (row : Loaded) (now : Time)
      (allowed : row.approvalRefusal db.approval now = none) :
      Step P (.authorising phase revision (.approving row)) (.answer (.time now)) db
        (.authorising phase revision (.deciding row)) db []
  | decided {db : Database} (phase : Phase) (revision : ℕ) (row : Loaded)
      (allowed : row.decisionRefusal db.decision = none) :
      Step P (.authorising phase revision (.deciding row)) (.answer .go) db
        (.authorising phase revision (.authorised row)) db []
  | claim {db : Database} (revision : ℕ) (row : Loaded) (adapter : ActionAdapter)
      (bound : P.adapters row.request.actionType = some adapter) :
      Step P (.authorising .claim revision (.authorised row)) (.answer (.check none)) db
        (.claimed revision (P.executionIdempotencyKey revision row.revision.payloadHash) adapter
          (db.attempts (P.executionIdempotencyKey revision row.revision.payloadHash))) db []
  | find {db : Database} (revision : ℕ) (row : Loaded) (attempt : AttemptRow)
      (found : db.attempts (P.executionIdempotencyKey revision row.revision.payloadHash)
        = some attempt) (pending : attempt.status.terminal = false) :
      Step P (.authorising .reconcile revision (.authorised row)) (.answer (.check none)) db
        (.marking (P.executionIdempotencyKey revision row.revision.payloadHash) attempt) db []
  | fence {db : Database} (key : String) (adapter : ActionAdapter) (isNew : Bool) (revision : ℕ)
      (row : Loaded) :
      Step P (.authorising (.fence key adapter isNew) revision (.authorised row))
        (.answer (.check none)) db (.gating revision key row) db []
  | insert {db : Database} (revision : ℕ) (key : String) (adapter : ActionAdapter) :
      Step P (.claimed revision key adapter none) (.answer .go) db
        (.authorising (.fence key adapter true) revision .admitting)
        ((db.setRequestStatus .executing).setAttempt key
          { adapterId := adapter.id, status := .executing })
        [.requestStatus .executing]
  | reclaim {db : Database} (revision : ℕ) (key : String) (adapter : ActionAdapter)
      (attempt : AttemptRow) (pending : attempt.status.terminal = false) :
      Step P (.claimed revision key adapter (some attempt)) (.answer .go) db
        (.looking (.execute revision adapter) key) (db.setRequestStatus .executing)
        [.requestStatus .executing]
  | flushMark {db : Database} (key : String) (attempt : AttemptRow) :
      Step P (.marking key attempt) (.answer .go) db (.marked key attempt) db []
  | remark {db : Database} (key : String) (attempt : AttemptRow)
      (same : attempt.status = .reconciling) :
      Step P (.marking key attempt) (.answer .go) db (.looking .reconcile key)
        (db.setRequestStatus .reconciling) [.requestStatus .reconciling]
  | mark {db : Database} (key : String) (attempt : AttemptRow) :
      Step P (.marked key attempt) (.answer .go) db (.looking .reconcile key)
        ((db.setRequestStatus .reconciling).setAttempt key
          { attempt with status := .reconciling })
        [.requestStatus .reconciling]
  | retry {db : Database} (revision : ℕ) (key : String) (adapter : ActionAdapter)
      (idempotent : adapter.guaranteesIdempotency = true) :
      Step P (.looking (.execute revision adapter) key) (.answer (.lookup .absent)) db
        (.authorising (.fence key adapter false) revision .admitting) db []
  | looked {db : Database} (lookup : Lookup) (key : String) (answer : LookupAnswer)
      (outcome : RecordedOutcome) (proceeds : lookup.proceed key answer = .recording key outcome)
      (kept : outcome.status ≠ .failed) :
      Step P (.looking lookup key) (.answer (.lookup answer)) db (.recording key outcome) db []
  | block {db : Database} (revision : ℕ) (key : String) (row : Loaded) (block : GateBlock) :
      Step P (.gating revision key row) (.answer (.gate (some block))) db
        (.recording key (.failure block.error)) db []
  | invoke {db : Database} (revision : ℕ) (key : String) (row : Loaded) :
      Step P (.gating revision key row) (.answer (.gate none)) db (.invoking key) db
        [.invoked ⟨key, revision, row.request.actionType, row.revision.parameters, db⟩]
  | answered {db : Database} (key : String) (answer : ProviderAnswer) :
      Step P (.invoking key) (.answer (.provider answer)) db (.recording key answer.outcome) db
        [.answered key answer]
  | recordAttempt {db : Database} (key : String) (outcome : RecordedOutcome)
      (attempt : AttemptRow) (found : db.attempts key = some attempt) :
      Step P (.recording key outcome) (.answer .go) db (.recordingAttempt key outcome attempt) db []
  | recordBoth {db : Database} (key : String) (outcome : RecordedOutcome) (attempt : AttemptRow) :
      Step P (.recordingAttempt key outcome attempt) (.answer .go) db
        (.recordingBoth key outcome attempt) db []
  | record {db : Database} (key : String) (outcome : RecordedOutcome) (attempt : AttemptRow)
      (pending : attempt.status.terminal = false) :
      Step P (.recordingBoth key outcome attempt) (.answer .go) db
        (.ended (.returned key (outcome.apply attempt)))
        ((db.setRequestStatus outcome.status.toRequest).setAttempt key (outcome.apply attempt))
        [.recorded key outcome.status, .requestStatus outcome.status.toRequest]
  | resolveFresh {db : Database} (c : OperatorActionResolution) :
      Step P (.resolving c) (.answer .go) db (.resolvingFresh c) db []
  | resolveBoth {db : Database} (c : OperatorActionResolution) (attempt : AttemptRow)
      (found : db.attempts c.idempotencyKey = some attempt) :
      Step P (.resolvingFresh c) (.answer .go) db (.resolvingBoth c attempt) db []
  | resolve {db : Database} (c : OperatorActionResolution) (attempt : AttemptRow)
      (open_ : attempt.status = .unknown ∨ attempt.status = .reconciling) :
      Step P (.resolvingBoth c attempt) (.answer (.check none)) db
        (.ended (.returned c.idempotencyKey (c.apply attempt)))
        { (db.setRequestStatus c.resolution.status.toRequest).setAttempt c.idempotencyKey
            ((c.kept P.jsonb).apply attempt) with
          resolutions := Function.update db.resolutions c.idempotencyKey (some (c.kept P.jsonb)) }
        [.resolved c.idempotencyKey c.resolution.status,
          .requestStatus c.resolution.status.toRequest]
  | readThread {db : Database} (c : ReviewCommand) (target : ReviewTarget)
      (found : db.target = some target) :
      Step P (.reviewing c .opening) (.answer .go) db (.reviewing c (.threadRead target)) db []
  | readProcess {db : Database} (c : ReviewCommand) (target : ReviewTarget) :
      Step P (.reviewing c (.threadRead target)) (.answer .go) db
        (.reviewing c (.processRead target db.process)) db []
  | readMessage {db : Database} (c : ReviewCommand) (target : ReviewTarget)
      (process : ProcessStatus) :
      Step P (.reviewing c (.processRead target process)) (.answer (.check none)) db
        (.reviewing c (.messageRead target process (db.messages c.commandId))) db []
  | lockReview {db : Database} (c : ReviewCommand) (target : ReviewTarget)
      (process : ProcessStatus) (existing : Option MessageRow) :
      Step P (.reviewing c (.messageRead target process existing)) (.answer .go) db
        (.reviewing c (.locked target existing)) db []
  | decideReview {db : Database} (c : ReviewCommand) (target : ReviewTarget) (now : Time)
      (request : RequestRow) (write : ReviewWrite) (pending : target.approval.status = .pending)
      (isOpen : target.thread = .open_) (found : db.request = some request)
      (written : c.write target.approval request = .ok write) :
      Step P (.reviewing c (.locked target none)) (.answer (.time now)) db
        (.reviewing c (.flushing target request write)) db []
  | review {db : Database} (c : ReviewCommand) (target : ReviewTarget) (request : RequestRow)
      (write : ReviewWrite) (single : write.decision.isSome → db.decision = none)
      (fresh : db.messages c.commandId = none) :
      Step P (.reviewing c (.flushing target request write)) (.answer (.check none)) db
        (.ended (.reviewed (write.thread.getD target.thread)
          (write.approval.getD target.approval.status) (write.request.getD request.status)))
        (db.review c write) (write.request.toList.map .requestStatus)
  | lockPersist {db : Database} (p : Proposal) :
      Step P (.persisting p) (.answer .go) db (.persistingLocked p) db []
  | persist {db : Database} (p : Proposal) (outcome : Outcome) (payloadHash : String)
      (hash : payloadHash = P.actionPayloadIdentity p.action.actionType p.action.parameters) :
      Step P (.persistingLocked p) (.answer (.check none)) db (.ended outcome)
        (db.persist p payloadHash)
        (if db.request.isNone then [.requestStatus p.request.status] else [])
  | lockStatus {db : Database} (status : ProcessStatus) :
      Step P (.settingStatus status) (.answer .go) db (.settingStatusLocked status) db []
  | setStatus {db : Database} (status : ProcessStatus) :
      Step P (.settingStatusLocked status) (.answer .go) db (.ended .written)
        { db with process := status } []
  | reviewElsewhere {db : Database} (commandId thread : UUID) (row : MessageRow)
      (fresh : db.messages commandId = none) :
      Step P (.reviewingElsewhere commandId thread row) (.answer .go) db (.ended .written)
        { db with
          messages := Function.update db.messages commandId
            (some { row with otherThread := some thread }) } []

namespace Step

/-- A stage that is kept without a commit. -/
lemma of_keep {u : Stage} (h : u.keep db = some (t', db', obs))
    (hu : Step P t x db u db []) : Step P t x db t' db' obs := by
  rw [Stage.keep, Option.some.injEq, Prod.mk.injEq, Prod.mk.injEq] at h
  obtain ⟨rfl, rfl, rfl⟩ := h
  exact hu

/-- A call that ends without a commit. -/
lemma of_stop {o : Outcome} (h : Stage.stop o db = some (t', db', obs)) :
    Step P t x db t' db' obs :=
  of_keep h (.halt rfl)

/-- A statement that commits. -/
lemma of_some {u : Stage} {db₁ : Database} {obs₁ : List ActionEvent}
    (h : some (u, db₁, obs₁) = some (t', db', obs)) (hu : Step P t x db u db₁ obs₁) :
    Step P t x db t' db' obs := by
  rw [Option.some.injEq, Prod.mk.injEq, Prod.mk.injEq] at h
  obtain ⟨rfl, rfl, rfl⟩ := h
  exact hu

lemma of_proceed {phase : Phase} {revision : ℕ} {row : Loaded}
    (h : phase.proceed P revision row db = some (t', db', obs)) :
    Step P (.authorising phase revision (.authorised row)) (.answer (.check none)) db t' db'
      obs := by
  cases phase with
  | claim =>
      rw [Phase.proceed, claimAttempt] at h
      split at h
      · exact of_stop h
      · exact of_keep h (.claim revision row _ ‹_›)
  | reconcile =>
      rw [Phase.proceed, findAttempt] at h
      split at h
      · exact of_stop h
      · dsimp only at h
        split at h
        · exact of_stop h
        · split_ifs at h with hterminal
          · exact of_stop h
          · exact of_keep h (.find revision row _ ‹_› (by simpa using hterminal))
  | fence key adapter isNew => exact of_keep h (.fence key adapter isNew revision row)

/-- The statements of an authorisation. -/
lemma of_authorising {phase : Phase} {revision : ℕ} {a : Authorising} {y : Answer}
    (h : a.statement P phase revision y db = some (t', db', obs)) :
    Step P (.authorising phase revision a) (.answer y) db t' db' obs := by
  unfold Authorising.statement at h
  split at h
  · split at h
    · exact of_stop h
    · exact of_keep h (.admitTenant phase revision _ ‹_›)
  · split at h
    · exact of_stop h
    · exact of_keep h (.select phase revision _ ‹_›)
  · split at h
    · exact of_stop h
    · split_ifs at h with hpolicy
      · exact of_keep h (.needApproval phase revision _ ‹_› hpolicy)
      · exact of_keep h (.allow phase revision _ ‹_› hpolicy)
  · split at h
    · exact of_stop h
    · exact of_keep h (.approved phase revision _ _ ‹_›)
  · split at h
    · exact of_stop h
    · exact of_keep h (.decided phase revision _ ‹_›)
  · exact of_stop h
  · exact of_proceed h
  · cases h

/-- The statements of a review. -/
lemma of_reviewing {c : ReviewCommand} {r : Reviewing} {y : Answer}
    (h : r.statement c y db = some (t', db', obs)) :
    Step P (.reviewing c r) (.answer y) db t' db' obs := by
  unfold Reviewing.statement at h
  split at h
  · split at h
    · exact of_stop h
    · exact of_keep h (.readThread c _ ‹_›)
  · exact of_keep h (.readProcess c _)
  · exact of_stop h
  · exact of_keep h (.readMessage c _ _)
  · split_ifs at h
    · exact of_stop h
    · exact of_keep h (.lockReview c _ _ _)
  · unfold ReviewCommand.decide at h
    split at h
    · exact of_stop h
    split at h
    · exact of_stop h
    split at h
    · exact of_stop h
    split at h
    · exact of_stop h
    rename_i hpending
    rw [not_or, not_not, not_not] at hpending
    split at h
    · exact of_stop h
    split at h
    · exact of_stop h
    · exact of_keep h (.decideReview c _ _ _ _ hpending.1 hpending.2 ‹_› ‹_›)
  · exact of_stop h
  · unfold commitReview at h
    split_ifs at h with hunique
    · exact of_stop h
    · rw [not_or, not_and] at hunique
      have hsingle {w : ReviewWrite} (hw : w.decision.isSome → ¬ db.decision.isSome = true)
          (hdecision : w.decision.isSome) : db.decision = none := by
        simpa using hw hdecision
      have hfresh : db.messages c.commandId = none := by simpa using hunique.2
      exact of_some h (.review c _ _ _ (hsingle hunique.1) hfresh)
  · cases h

/-- A lookup is recorded, not as a failure, or leads to the fence. -/
lemma lookup_cases (lookup : Lookup) (key : String) (answer : LookupAnswer) :
    (∃ outcome, lookup.proceed key answer = .recording key outcome ∧ outcome.status ≠ .failed) ∨
    ∃ revision adapter, lookup = .execute revision adapter ∧ answer = .absent ∧
      adapter.guaranteesIdempotency = true ∧ lookup.proceed key answer =
        .authorising (.fence key adapter false) revision .admitting := by
  cases answer with
  | failed error => exact .inl (by cases lookup <;> exact ⟨_, rfl, by simp⟩)
  | conflict conflict => exact .inl (by cases lookup <;> exact ⟨_, rfl, by simp⟩)
  | found result => exact .inl (by cases lookup <;> exact ⟨_, rfl, by simp⟩)
  | absent =>
      cases lookup with
      | execute revision adapter =>
          by_cases hidempotent : adapter.guaranteesIdempotency = true
          · exact .inr ⟨revision, adapter, rfl, rfl, hidempotent, if_pos hidempotent⟩
          · exact .inl ⟨_, if_neg hidempotent, by simp⟩
      | reconcile => exact .inl ⟨_, rfl, by simp⟩

/-- **The inversion rule**: every step of the code is one of the transitions. -/
theorem of_next (h : next P t x db = some (t', db', obs)) : Step P t x db t' db' obs := by
  cases x with
  | call c =>
      rw [next] at h
      split_ifs at h with hresting
      exact of_keep h (.start c hresting)
  | crash => exact of_keep h (.halt rfl)
  | answer y =>
      rw [next] at h
      unfold Stage.statement at h
      split at h
      · exact of_authorising h
      · rename_i revision key adapter existing
        cases existing with
        | none => exact of_some h (.insert revision key adapter)
        | some attempt =>
            rw [commitClaim] at h
            split_ifs at h with hbound hterminal
            · exact of_stop h
            · exact of_stop h
            · exact of_some h (.reclaim revision key adapter attempt (by simpa using hterminal))
      · split_ifs at h with hsame
        · exact of_some h (.remark _ _ hsame)
        · exact of_keep h (.flushMark _ _)
      · exact of_some h (.mark _ _)
      · rename_i lookup key answer
        obtain ⟨outcome, hproceeds, hkept⟩ | ⟨revision, adapter, rfl, rfl, hidempotent, hfence⟩ :=
          lookup_cases lookup key answer
        · rw [hproceeds] at h
          exact of_keep h (.looked lookup key answer outcome hproceeds hkept)
        · rw [hfence] at h
          exact of_keep h (.retry revision key adapter hidempotent)
      · rename_i block
        cases block with
        | none => exact of_some h (.invoke _ _ _)
        | some block => exact of_keep h (.block _ _ _ block)
      · exact of_some h (.answered _ _)
      · split at h
        · exact of_stop h
        · exact of_keep h (.recordAttempt _ _ _ ‹_›)
      · split at h
        · exact of_stop h
        · exact of_keep h (.recordBoth _ _ _)
      · rw [commitOutcome] at h
        split_ifs at h with hterminal
        · exact of_stop h
        · exact of_some h (.record _ _ _ (by simpa using hterminal))
      · rw [findResolution] at h
        split at h
        · exact of_keep h (.resolveFresh _)
        · exact of_stop h
        · exact of_stop h
      · split at h
        · exact of_stop h
        · exact of_keep h (.resolveBoth _ _ ‹_›)
      · unfold commitResolution at h
        split at h
        · rename_i hopen
          split at h
          · exact of_stop h
          · exact of_some h (.resolve _ _ hopen)
        · split at h
          · exact of_stop h
          · exact of_stop h
      · exact of_reviewing h
      · split_ifs at h
        · exact of_stop h
        · exact of_keep h (.lockPersist _)
      · exact of_stop h
      · rw [commitProposal] at h
        split at h
        · exact of_stop h
        · dsimp only at h
          split at h
          · exact of_stop h
          · exact of_some h (.persist _ _ _ rfl)
      · exact of_keep h (.lockStatus _)
      · exact of_some h (.setStatus _)
      · rw [commitElsewhere] at h
        split_ifs at h with hunique
        · exact of_stop h
        · exact of_some h (.reviewElsewhere _ _ _ (by simpa using hunique))
      · cases h

/-! ### Frames -/

/-- The rows that only the holder of the process writes. -/
lemma process_frame (h : Step P t x db t' db' obs) (ht : .process ∉ t.locks) :
    db'.process = db.process ∧ db'.revision = db.revision ∧ db'.policy = db.policy ∧
      db'.approval = db.approval ∧ db'.decision = db.decision := by
  cases h <;> simp_all [Stage.locks, Reviewing.locks]
  split at ht <;> simp_all

/-- The request is written by a holder of the process or of the request. -/
lemma request_frame (h : Step P t x db t' db' obs) (ht : .process ∉ t.locks)
    (ht' : .request ∉ t.locks) : db'.request = db.request := by
  cases h <;> simp_all [Stage.locks, Reviewing.locks]
  split at ht <;> simp_all

/-- The attempts are written by a holder of the request. -/
lemma attempts_frame (h : Step P t x db t' db' obs) (ht : .request ∉ t.locks) :
    db'.attempts = db.attempts := by
  cases h <;> simp_all [Stage.locks, Database.review, Database.persist]

/-- An attempt is inserted, or written by its holder. -/
lemma attempt_frame (h : Step P t x db t' db' obs) {key : String} (ht : .attempt key ∉ t.locks)
    (hclaimed : ∀ revision adapter, t ≠ .claimed revision key adapter none) :
    db'.attempts key = db.attempts key := by
  cases h <;> simp_all [Stage.locks, Database.review, Database.persist]
  case insert => exact Function.update_of_ne (Ne.symm hclaimed) _ _

/-! ### Observations -/

/-- An invocation is made at the gate, with the database as it is. -/
lemma invoked (h : Step P t x db t' db' obs) {inv : Invocation} (hinv : .invoked inv ∈ obs) :
    ∃ revision key row, t = .gating revision key row ∧ x = .answer (.gate none) ∧
      t' = .invoking key ∧ db' = db ∧ obs = [.invoked inv] ∧
      inv = ⟨key, revision, row.request.actionType, row.revision.parameters, db⟩ := by
  cases h with
  | invoke revision key row =>
      rw [List.mem_singleton, ActionEvent.invoked.injEq] at hinv
      exact ⟨revision, key, row, rfl, rfl, rfl, rfl, by rw [hinv], hinv⟩
  | review c approval request write =>
      obtain ⟨status, -, hstatus⟩ := List.mem_map.mp hinv
      cases hstatus
  | persist p =>
      split_ifs at hinv
      · cases List.mem_singleton.mp hinv
      · cases hinv
  | _ => simp at hinv

end Step

/-- A step of a pool is a transition of one call. -/
lemma step_cases {n : ℕ} {s s' : Transactions.Pool n Database Stage ActionEvent} {i : Fin n}
    (h : s.step (calls P) (i, x) = some s') :
    ∃ t db obs, Step P (s.calls i) x s.store t db obs ∧
      s' = ⟨db, Function.update s.calls i t, s.log ++ obs⟩ := by
  obtain ⟨t, db, obs, hnext, -, hs'⟩ := Transactions.step_eq_some h
  exact ⟨t, db, obs, Step.of_next hnext, hs'⟩

end TiramisuAgents
