import TiramisuAgents.Actions.Outcomes

/-!
The execution fence: what holds at the moment the provider is invoked.

The second transaction of `execute` loads the action again under its locks, so the approval,
the revision and the process are the committed ones when the provider is invoked.  Two things
are not covered by that.  A review decides on the approval that its session has loaded before
it held the process, so a request that was superseded in between can be approved again.  And
the fence does not look at the attempt again, so an outcome that was recorded between the two
transactions does not stop the invocation.

* `Invocation.Exact`, `exact_runs`: the facts at the fence, in every run.
* `approval_exact`: with reviews that decide on the committed approval, a request that was
  refused is never executed; `superseded_executed` is the run without.
* `no_effect_after_outcome`: with outcomes that do not overtake an execution, the provider is
  not invoked after one; `invoked_after_outcome` is the run without.
-/

namespace TiramisuAgents

open Transactions

/-! ### The facts at the fence -/

/-- The approval of the exact payload, with its decision, at an invocation. -/
structure Database.ApprovedPayload (db : Database) (payloadHash : String) : Prop where
  approval : ∃ a, db.approval = some a ∧ a.payloadHash = payloadHash ∧ a.status = .approved ∧
    ∀ now, a.expired now = false
  decision : db.decision = some ⟨.approved, payloadHash⟩

/-- An invocation is exact: the process runs, the revision is current, its parameters are sent
under the key of its payload, and the policy allows it or the payload is approved. -/
structure Invocation.Exact (P : Platform) (inv : Invocation) : Prop where
  process : inv.database.process.fenced = false
  request : ∃ row, inv.database.request = some row ∧ row.currentRevision = inv.revision ∧
    row.actionType = inv.actionType
  revision : ∃ row, inv.database.revision = some row ∧ row.parameters = inv.parameters ∧
    inv.idempotencyKey = P.executionIdempotencyKey inv.revision row.payloadHash ∧
    (inv.database.policy = some .allow ∨ inv.database.ApprovedPayload row.payloadHash)

section

variable {P : Platform} {t t' u : Stage} {x : CallInput} {db db' : Database}
  {obs : List ActionEvent}
  {log : List ActionEvent} {inv : Invocation}

/-- What a call knows at the gate makes its invocation exact. -/
lemma Step.exact (h : Step P t x db t' db' obs) (hdb : db.Consistent P) (ht : t.Knows P db)
    (hinv : .invoked inv ∈ obs) : inv.Exact P := by
  obtain ⟨revision, key, row, rfl, -, -, -, -, rfl⟩ := h.invoked hinv
  obtain ⟨hattempt, rfl, hcurrent, hadmissible, hpermitted⟩ := ht
  have hkey : key = P.executionIdempotencyKey 1 row.revision.payloadHash :=
    (hdb.keyed key hattempt).unique hcurrent.keyed
  refine ⟨?_, ⟨row.request, hcurrent.request, hadmissible.revision, rfl⟩,
    row.revision, hcurrent.revision, rfl, hkey, ?_⟩
  · rw [hcurrent.process, hadmissible.unfenced]
  · rcases hpermitted with ⟨hallow, -⟩ | ⟨-, ⟨a, ha, hexact, hstatus⟩, hdecision, -⟩
    · exact .inl (hcurrent.policy.trans (by rw [hallow]))
    · refine .inr ⟨⟨a, ha, hexact, hstatus, fun now => ?_⟩, hdecision⟩
      rw [ApprovalRow.expired, (hdb.approval a ha).2, Option.any_none]

/-! ### Refused requests -/

/-- The statuses of a request that is not to be executed. -/
def ActionRequestStatus.refused : ActionRequestStatus → Bool
  | .denied | .rejected | .superseded => true
  | _ => false

/-- The action may be executed: the policy allows it, or the approval is given. -/
def Database.Opened (db : Database) : Prop :=
  db.policy = some .allow ∨ ∃ a, db.approval = some a ∧ a.status = .approved

/-- The action may not be executed: the policy denies it, or the approval is refused. -/
def Database.Closed (db : Database) : Prop :=
  db.policy = some .deny ∨
    ∃ a, db.approval = some a ∧ (a.status = .rejected ∨ a.status = .superseded)

/-- No action is both. -/
lemma Database.Opened.not_closed (hopened : db.Opened) (hdb : db.Consistent P) : ¬ db.Closed := by
  rintro (hdeny | ⟨a, ha, hrefused⟩)
  · rcases hopened with hallow | ⟨b, hb, -⟩
    · rw [hallow] at hdeny
      cases hdeny
    · rw [(hdb.approval b hb).1] at hdeny
      cases hdeny
  · rcases hopened with hallow | ⟨b, hb, happroved⟩
    · rw [(hdb.approval a ha).1] at hallow
      cases hallow
    · rw [Option.some.inj (ha.symm.trans hb), happroved] at hrefused
      rcases hrefused with hrefused | hrefused <;> cases hrefused

/-- A pending approval is neither given nor refused. -/
lemma Database.Consistent.not_opened_of_pending (hdb : db.Consistent P) {a : ApprovalRow}
    (ha : db.approval = some a) (hpending : a.status = .pending) : ¬ db.Opened ∧ ¬ db.Closed := by
  have hpolicy := (hdb.approval a ha).1
  refine ⟨?_, ?_⟩
  · rintro (hallow | ⟨b, hb, hstatus⟩)
    · rw [hpolicy] at hallow
      cases hallow
    · rw [← Option.some.inj (ha.symm.trans hb), hpending] at hstatus
      cases hstatus
  · rintro (hdeny | ⟨b, hb, hstatus⟩)
    · rw [hpolicy] at hdeny
      cases hdeny
    · rw [← Option.some.inj (ha.symm.trans hb), hpending] at hstatus
      rcases hstatus with hstatus | hstatus <;> cases hstatus

/-- Invocations come from actions that may be executed, and refusals from actions that may
not. -/
structure Sorted (db : Database) (log : List ActionEvent) : Prop where
  invoked : ∀ inv, .invoked inv ∈ log → db.Opened
  refused : ∀ status, .requestStatus status ∈ log → status.refused = true → db.Closed

/-- A review that is about to commit holds the pending approval, and refuses the request only
with the approval. -/
def Stage.Fresh (db : Database) : Stage → Prop
  | .reviewing c (.flushing target request write) =>
      db.approval = some target.approval ∧ target.approval.status = .pending ∧
        c.write target.approval request = .ok write
  | _ => True

/-- A request is refused together with its approval. -/
lemma ReviewCommand.write_refused {c : ReviewCommand} {approval : ApprovalRow}
    {request : RequestRow} {w : ReviewWrite} (h : c.write approval request = .ok w)
    {status : ActionRequestStatus} (hstatus : w.request = some status)
    (hrefused : status.refused = true) :
    w.approval = some .rejected ∨ w.approval = some .superseded := by
  unfold ReviewCommand.write at h
  dsimp only at h
  split at h
  · split at h
    · cases h
    · cases h
      dsimp only at hstatus
      split_ifs at hstatus
      cases hstatus
      cases hrefused
  · cases h
    exact .inl rfl
  · cases h
    exact .inr rfl
  · cases h
    cases hstatus
  · cases h

lemma toRequest_not_refused (status : ActionAttemptStatus) : status.toRequest.refused = false := by
  cases status <;> rfl

/-- What may be executed stays so. -/
lemma Step.opened (h : Step P t x db t' db' obs) (hdb : db.Consistent P) (hfresh : t.Fresh db)
    (hopened : db.Opened) : db'.Opened := by
  cases h with
  | review => exact absurd hopened (hdb.not_opened_of_pending hfresh.1 hfresh.2.1).1
  | persist p =>
      rcases hopened with hallow | ⟨a, ha, hstatus⟩
      · exact .inl (by simp [Database.persist, hallow])
      · exact .inr ⟨a, by simp [Database.persist, (hdb.approval a ha).1, ha], hstatus⟩
  | _ => exact hopened

/-- What may not be executed stays so. -/
lemma Step.closed (h : Step P t x db t' db' obs) (hdb : db.Consistent P) (hfresh : t.Fresh db)
    (hclosed : db.Closed) : db'.Closed := by
  cases h with
  | review => exact absurd hclosed (hdb.not_opened_of_pending hfresh.1 hfresh.2.1).2
  | persist p =>
      rcases hclosed with hdeny | ⟨a, ha, hstatus⟩
      · exact .inl (by simp [Database.persist, hdeny])
      · exact .inr ⟨a, by simp [Database.persist, (hdb.approval a ha).1, ha], hstatus⟩
  | _ => exact hclosed

/-- A request is refused by the gateway with a policy that denies it, or by a review with its
approval. -/
lemma Step.closed_of_refused (h : Step P t x db t' db' obs) (hdb : db.Consistent P)
    (hfresh : t.Fresh db) {status : ActionRequestStatus} (hmem : .requestStatus status ∈ obs)
    (hrefused : status.refused = true) : db'.Closed := by
  have never {s : ActionAttemptStatus} (h : status = s.toRequest) : db'.Closed := by
    rw [h, toRequest_not_refused] at hrefused
    cases hrefused
  cases h with
  | insert => exact never (s := .executing) (by simpa [ActionAttemptStatus.toRequest] using hmem)
  | reclaim => exact never (s := .executing) (by simpa [ActionAttemptStatus.toRequest] using hmem)
  | remark => exact never (s := .reconciling) (by simpa [ActionAttemptStatus.toRequest] using hmem)
  | mark => exact never (s := .reconciling) (by simpa [ActionAttemptStatus.toRequest] using hmem)
  | record => exact never (by simpa using hmem)
  | resolve => exact never (by simpa using hmem)
  | review c target request write =>
      obtain ⟨happroval, -, hwrite⟩ := hfresh
      have hstatus : write.request = some status := by simpa using hmem
      rcases ReviewCommand.write_refused hwrite hstatus hrefused with hwritten | hwritten
      · exact .inr ⟨_, by simp [Database.review, happroval]; rfl, .inl (by simp [hwritten])⟩
      · exact .inr ⟨_, by simp [Database.review, happroval]; rfl, .inr (by simp [hwritten])⟩
  | persist p =>
      split_ifs at hmem with hnew
      · have hstatus : status = p.request.status := by simpa using hmem
        have hpolicy := (hdb.absent (by simpa using hnew)).2.1
        have hdeny : p.outcome = .deny := by
          cases houtcome : p.outcome with
          | deny => rfl
          | _ =>
              rw [hstatus, Proposal.request, houtcome] at hrefused
              cases hrefused
        exact .inl (by simp [Database.persist, hpolicy, hdeny])
      · cases hmem
  | _ => simp at hmem

/-- The log stays sorted. -/
lemma Step.sorted (h : Step P t x db t' db' obs) (hdb : db.Consistent P) (ht : t.Knows P db)
    (hfresh : t.Fresh db) (hsorted : Sorted db log) : Sorted db' (log ++ obs) := by
  refine ⟨fun inv hinv => ?_, fun status hmem hrefused => ?_⟩
  · rcases List.mem_append.mp hinv with hold | hnew
    · exact h.opened hdb hfresh (hsorted.invoked inv hold)
    · obtain ⟨-, -, row, hrow, -, -, hauthority⟩ := h.exact hdb ht hnew
      obtain ⟨revision, key, loaded, rfl, -, -, rfl, -, rfl⟩ := h.invoked hnew
      rcases hauthority with hallow | happroved
      · exact .inl hallow
      · obtain ⟨⟨a, ha, -, hstatus, -⟩, -⟩ := happroved
        exact .inr ⟨a, ha, hstatus⟩
  · rcases List.mem_append.mp hmem with hold | hnew
    · exact h.closed hdb hfresh (hsorted.refused status hold hrefused)
    · exact h.closed_of_refused hdb hfresh hnew hrefused

/-- The review decides on the committed approval. -/
def Stage.Committed (db : Database) (t : Stage) : Prop :=
  ∀ c target existing, t = .reviewing c (.locked target existing) →
    db.approval = some target.approval

lemma Step.fresh (h : Step P t x db t' db' obs) (hcommitted : t.Committed db) : t'.Fresh db' := by
  cases h with
  | halt hresting =>
      cases t' with
      | idle => trivial
      | ended outcome => trivial
      | _ => cases hresting
  | start c => cases c <;> trivial
  | decideReview c target now request write hpending hopen hfound hwritten =>
      exact ⟨hcommitted c target none rfl, hpending, hwritten⟩
  | _ => trivial

lemma Step.fresh_other (h : Step P t x db t' db' obs) (hlocks : ∀ l ∈ u.locks, l ∉ t.locks)
    (hu : u.Fresh db) : u.Fresh db' := by
  cases u with
  | reviewing c r =>
      cases r with
      | flushing target request write =>
          have hprocess : RowLock.process ∉ t.locks := by
            refine hlocks .process ?_
            rw [Stage.locks, Reviewing.locks]
            split_ifs <;> simp
          exact ⟨(h.process_frame hprocess).2.2.2.1.trans hu.1, hu.2⟩
      | _ => trivial
  | _ => trivial

/-! ### Approval exactness -/

variable (P) in
/-- The rule for runs in which the reviews decide on the committed approval. -/
lemma sortedJoint : Joint (calls P) (fun t _ db _ => t.Committed db) (fun _ _ _ _ => True)
    (fun db log => db.Consistent P ∧ Sorted db log) (fun t db _ => t.Knows P db ∧ t.Fresh db) where
  own hnext hcommitted hcommon hcall :=
    have h := Step.of_next hnext
    ⟨⟨h.consistent hcommon.1 hcall.1, h.sorted hcommon.1 hcall.1 hcall.2 hcommon.2⟩,
      h.knows hcall.1, h.fresh hcommitted⟩
  other hnext _ _ hlocks _ ht hu :=
    have h := Step.of_next hnext
    ⟨h.knows_other hlocks ht.1 hu.1, h.fresh_other hlocks hu.2⟩

variable {n : ℕ} {process : ProcessStatus} {s : Pool n Database Stage ActionEvent}
  {ms : List (Fin n × CallInput)}

/-- Every invocation of every run is exact. -/
theorem exact_runs (h : Runs (calls P) (fun _ _ => True) (fresh n process) ms s)
    (hinv : .invoked inv ∈ s.log) : inv.Exact P := by
  let I (s : Pool n Database Stage ActionEvent) : Prop :=
    Joint.Holds (calls P) (fun db _ => db.Consistent P) (fun t db _ => t.Knows P db) s ∧
      ∀ inv, .invoked inv ∈ s.log → inv.Exact P
  have hI : I s := by
    refine h.invariant ?_ ⟨sound_runs (.nil _ (G := fun _ _ => True)),
      fun _ h => absurd h List.not_mem_nil⟩
    rintro s ⟨i, x⟩ s' ⟨hholds, hexact⟩ - hstep
    refine ⟨(sound P).step hholds trivial (fun _ _ => trivial) hstep, fun inv hmem => ?_⟩
    obtain ⟨t, db, obs, hmoved, rfl⟩ := step_cases hstep
    rcases List.mem_append.mp hmem with hold | hnew
    · exact hexact inv hold
    · exact hmoved.exact hholds.common (hholds.calls i) hnew
  exact hI.2 inv hinv

/-- **Approval exactness at the fence.**  In every interleaving in which the reviews decide on
the committed approval: every invocation of the provider is exact, and a request that was
denied, rejected or superseded is never executed. -/
theorem approval_exact
    (h : Runs (calls P) (fun s m => (s.calls m.1).Committed s.store) (fresh n process) ms s) :
    (∀ inv, .invoked inv ∈ s.log → inv.Exact P) ∧
    ∀ status, .requestStatus status ∈ s.log → status.refused = true →
      ∀ inv, .invoked inv ∉ s.log := by
  refine ⟨fun inv hinv => exact_runs (h.mono fun _ _ _ => trivial) hinv, ?_⟩
  intro status hstatus hrefused inv hinv
  have hstart : Joint.Holds (calls P) (fun db log => db.Consistent P ∧ Sorted db log)
      (fun t db _ => t.Knows P db ∧ t.Fresh db) (fresh n process) := by
    refine fresh_holds P n process ⟨consistent_fresh P process, ?_⟩ ⟨trivial, trivial⟩
    exact ⟨fun _ h => absurd h List.not_mem_nil, fun _ h => absurd h List.not_mem_nil⟩
  obtain ⟨-, ⟨hdb, hsorted⟩, -⟩ := (sortedJoint P).runs (fun _ _ _ hG => hG)
    (fun _ _ _ _ _ _ => trivial) h hstart
  exact (hsorted.invoked inv hinv).not_closed hdb (hsorted.refused status hstatus hrefused)

end

/-- A review command of the sample operator. -/
def sampleReview (commandId : UUID) (commandType : ReviewCommandType) : ReviewCommand where
  commandId := commandId
  commandType := commandType
  actorId := "operator"
  message := some "note"
  expectedPayloadHash := some "send[]"

/-- The event is an invocation. -/
def ActionEvent.isInvoked : ActionEvent → Bool
  | .invoked _ => true
  | _ => false

/-- The event sets the status. -/
def ActionEvent.sets (status : ActionRequestStatus) : ActionEvent → Bool
  | .requestStatus status' => status' = status
  | _ => false

lemma mem_of_any_isInvoked {log : List ActionEvent} (h : log.any ActionEvent.isInvoked = true) :
    ∃ inv, .invoked inv ∈ log := by
  obtain ⟨e, he, hinvoked⟩ := List.any_eq_true.mp h
  cases e with
  | invoked inv => exact ⟨inv, he⟩
  | _ => cases hinvoked

lemma mem_of_any_sets {log : List ActionEvent} {status : ActionRequestStatus}
    (h : log.any (ActionEvent.sets status) = true) : .requestStatus status ∈ log := by
  obtain ⟨e, he, hsets⟩ := List.any_eq_true.mp h
  cases e with
  | requestStatus status' => rwa [of_decide_eq_true hsets] at he
  | _ => cases hsets

/-- A computed check of `Stage.Committed`. -/
def Stage.committed (db : Database) : Stage → Bool
  | .reviewing _ (.locked target _) => db.approval = some target.approval
  | _ => true

/-- An action that is approved and executed. -/
theorem approval_exact_approved : ∃ (ms : List (Fin 2 × CallInput))
    (s : Pool 2 Database Stage ActionEvent) (inv : Invocation),
    Runs (calls (samplePlatform false)) (fun s m => (s.calls m.1).Committed s.store)
      (fresh 2 .active) ms s ∧
    .invoked inv ∈ s.log ∧ inv.Exact (samplePlatform false) ∧
    ∀ status, status.refused = true → .requestStatus status ∉ s.log := by
  let ms : List (Fin 2 × CallInput) := List.flatten
    [persisted 0 .requireApproval,
      moves 1 (.review (sampleReview "c" .approve))
        [.go, .go, .check none, .go, .time 0, .check none],
      moves 0 (.execute 1) (approved (.go :: approved [.gate none]))]
  obtain ⟨s, hruns, hp⟩ := exists_runs (C := calls (samplePlatform false))
    (s := fresh 2 .active)
    (fun s m => (s.calls m.1).committed s.store) ms
    (fun s => s.log.any ActionEvent.isInvoked) (by decide +kernel)
  have hruns : Runs (calls (samplePlatform false)) (fun s m => (s.calls m.1).Committed s.store)
      (fresh 2 .active) ms s := by
    refine hruns.mono fun s m hm c target existing hstage => ?_
    rw [hstage] at hm
    exact of_decide_eq_true hm
  obtain ⟨inv, hinv⟩ := mem_of_any_isInvoked hp
  exact ⟨ms, s, inv, hruns, hinv, (approval_exact hruns).1 inv hinv,
    fun status hrefused hstatus => (approval_exact hruns).2 status hstatus hrefused inv hinv⟩

/-- A request is superseded, then approved by a review that has loaded the approval before, and
executed. -/
theorem superseded_executed : ∃ (ms ms' : List (Fin 3 × CallInput))
    (s s' : Pool 3 Database Stage ActionEvent) (inv : Invocation),
    Runs (calls (samplePlatform false)) (fun _ _ => True) (fresh 3 .active) ms s ∧
    .requestStatus .superseded ∈ s.log ∧ (∀ inv, .invoked inv ∉ s.log) ∧
    Runs (calls (samplePlatform false)) (fun _ _ => True) s ms' s' ∧ .invoked inv ∈ s'.log := by
  let ms : List (Fin 3 × CallInput) := List.flatten
    [persisted 0 .requireApproval,
      moves 1 (.review (sampleReview "c" .approve)) [.go, .go, .check none],
      moves 2 (.review (sampleReview "d" .requestRevision))
        [.go, .go, .check none, .go, .time 0, .check none]]
  let ms' : List (Fin 3 × CallInput) := List.flatten
    [answers 1 [.go, .time 0, .check none],
      moves 0 (.execute 1) (approved (.go :: approved [.gate none]))]
  obtain ⟨s, hruns, hp⟩ := exists_runs (C := calls (samplePlatform false))
    (s := fresh 3 .active) (fun _ _ => true) ms
    (fun s => s.log.any (ActionEvent.sets .superseded) && !s.log.any ActionEvent.isInvoked &&
      (s.run (calls (samplePlatform false)) (fun _ _ => true) ms').any
        fun s' => s'.log.any ActionEvent.isInvoked)
    (by decide +kernel)
  rw [Bool.and_eq_true, Bool.and_eq_true] at hp
  obtain ⟨⟨hsuperseded, hnone⟩, hp⟩ := hp
  obtain ⟨s', hruns', hinvoked⟩ := exists_runs _ _ _ hp
  obtain ⟨inv, hinv⟩ := mem_of_any_isInvoked hinvoked
  refine ⟨ms, ms', s, s', inv, hruns.mono fun _ _ _ => trivial, mem_of_any_sets hsuperseded,
    fun inv hmem => ?_, hruns'.mono fun _ _ _ => trivial, hinv⟩
  simp only [Bool.not_eq_true', List.any_eq_false] at hnone
  exact hnone _ hmem rfl

/-! ### Outcomes at the fence -/

/-- The key for which a call stands between the first commit of `execute` and the gate. -/
def Stage.pendingKey : Stage → Option String
  | .authorising (.fence key _ _) _ _ | .looking (.execute _ _) key | .gating _ key _ => some key
  | _ => none

/-- The call is about to commit an outcome for the key. -/
def Stage.settles (key : String) : Stage → Bool
  | .recordingBoth key' outcome attempt =>
      key' = key && outcome.status.terminal && !attempt.status.terminal
  | .resolvingBoth command attempt =>
      command.idempotencyKey = key &&
        (attempt.status = .unknown || attempt.status = .reconciling)
  | _ => false

/-- There is an attempt of the key without an outcome. -/
def Database.Pending (db : Database) (key : String) : Prop :=
  ∃ a, db.attempts key = some a ∧ a.status.terminal = false

section

variable {P : Platform} {t t' u : Stage} {x : CallInput} {db db' : Database}
  {obs : List ActionEvent}
  {log : List ActionEvent} {key : String}

lemma Database.Pending.update {db db' : Database} (h : db.Pending key) (key' : String)
    (row : AttemptRow) (hdb : db'.attempts = Function.update db.attempts key' (some row))
    (hrow : key' = key → row.status.terminal = false) : db'.Pending key := by
  obtain ⟨a, ha, hpending⟩ := h
  by_cases heq : key = key'
  · exact ⟨row, by rw [hdb, heq, Function.update_self], hrow heq.symm⟩
  · exact ⟨a, by rw [hdb, Function.update_of_ne heq, ha], hpending⟩

/-- An attempt without an outcome stays so, unless the call settles it. -/
lemma Step.pending (h : Step P t x db t' db' obs) (hsettles : x = .crash ∨ t.settles key = false)
    (hpending : db.Pending key) : db'.Pending key := by
  cases h with
  | insert revision key' adapter => exact hpending.update key' _ rfl fun _ => rfl
  | mark key' attempt => exact hpending.update key' _ rfl fun _ => rfl
  | record key' outcome attempt hopen =>
      refine hpending.update key' (outcome.apply attempt) rfl fun heq => ?_
      rcases hsettles with hcrash | hsettles
      · cases hcrash
      · simpa [Stage.settles, heq, hopen] using hsettles
  | resolve c attempt hopen =>
      refine hpending.update c.idempotencyKey ((c.kept P.jsonb).apply attempt) rfl fun heq => ?_
      rcases hsettles with hcrash | hsettles
      · cases hcrash
      · rcases hopen with hopen | hopen <;> simp [Stage.settles, heq, hopen] at hsettles
  | _ => exact hpending

/-- The call that passes its first commit has an attempt without an outcome. -/
lemma Step.pending_own (h : Step P t x db t' db' obs) (ht : t.Knows P db)
    (hpending : ∀ key, t.pendingKey = some key → db.Pending key) :
    ∀ key, t'.pendingKey = some key → db'.Pending key := by
  intro key hkey
  have same {phase : Phase} {revision : ℕ} {a b : Authorising}
      (h : (Stage.authorising phase revision b).pendingKey = some key) :
      (Stage.authorising phase revision a).pendingKey = some key := by
    cases phase with
    | fence => exact h
    | _ => cases h
  cases h with
  | halt hresting =>
      cases t' with
      | idle => cases hkey
      | ended outcome => cases hkey
      | _ => cases hresting
  | start c => cases c <;> cases hkey
  | admitTenant => exact hpending key (same hkey)
  | select => exact hpending key (same hkey)
  | needApproval => exact hpending key (same hkey)
  | allow => exact hpending key (same hkey)
  | approved => exact hpending key (same hkey)
  | decided => exact hpending key (same hkey)
  | fence key' adapter isNew revision row => exact hpending key hkey
  | insert revision key' adapter =>
      obtain rfl := Option.some.inj hkey
      exact ⟨_, Function.update_self .., rfl⟩
  | reclaim revision key' adapter attempt hopen =>
      obtain rfl := Option.some.inj hkey
      exact ⟨attempt, ht.2.2, hopen⟩
  | retry revision key' adapter => exact hpending key hkey
  | _ => cases hkey

/-- The provider was never invoked for an attempt with an outcome. -/
def Unsettled (log : List ActionEvent) : Prop :=
  ∀ inv, .invoked inv ∈ log → inv.database.Pending inv.idempotencyKey

lemma Step.unsettled (h : Step P t x db t' db' obs)
    (hpending : ∀ key, t.pendingKey = some key → db.Pending key) (hlog : Unsettled log) :
    Unsettled (log ++ obs) := by
  intro inv hmem
  rcases List.mem_append.mp hmem with hold | hnew
  · exact hlog inv hold
  · obtain ⟨revision, key, row, rfl, -, -, -, -, rfl⟩ := h.invoked hnew
    exact hpending key rfl

/-- The step does not commit an outcome under an execution of another call. -/
def Undisturbed {n : ℕ} (s : Pool n Database Stage ActionEvent) (m : Fin n × CallInput) : Prop :=
  ∀ j, j ≠ m.1 → ∀ key, (s.calls j).pendingKey = some key →
    m.2 = .crash ∨ (s.calls m.1).settles key = false

variable (P) in
/-- The rule for runs in which no outcome overtakes an execution. -/
lemma pendingJoint : Joint (calls P) (fun _ _ _ _ => True)
    (fun u t x _ => ∀ key, u.pendingKey = some key → x = .crash ∨ t.settles key = false)
    (fun db log => db.Consistent P ∧ Unsettled log)
    (fun t db _ => t.Knows P db ∧ ∀ key, t.pendingKey = some key → db.Pending key) where
  own hnext _ hcommon hcall :=
    have h := Step.of_next hnext
    ⟨⟨h.consistent hcommon.1 hcall.1, h.unsettled hcall.2 hcommon.2⟩,
      h.knows hcall.1, h.pending_own hcall.1 hcall.2⟩
  other hnext _ hundisturbed hlocks _ ht hu :=
    have h := Step.of_next hnext
    ⟨h.knows_other hlocks ht.1 hu.1,
      fun key hkey => h.pending (hundisturbed key hkey) (hu.2 key hkey)⟩

/-- **No side effect after a recorded outcome.**  In every interleaving in which no outcome is
committed for a key while another execution of it stands between its first commit and its
gate: the provider is never invoked for an attempt that has succeeded, failed or met a
conflict. -/
theorem no_effect_after_outcome {n : ℕ} {process : ProcessStatus}
    {s : Pool n Database Stage ActionEvent} {ms : List (Fin n × CallInput)}
    (h : Runs (calls P) Undisturbed (fresh n process) ms s) :
    ∀ inv, .invoked inv ∈ s.log → ∀ a, inv.database.attempts inv.idempotencyKey = some a →
      a.status.terminal = false := by
  intro inv hinv a ha
  have hstart : Joint.Holds (calls P) (fun db log => db.Consistent P ∧ Unsettled log)
      (fun t db _ => t.Knows P db ∧ ∀ key, t.pendingKey = some key → db.Pending key)
      (fresh n process) := by
    refine fresh_holds P n process ⟨consistent_fresh P process, ?_⟩ ⟨trivial, ?_⟩
    · exact fun _ h => absurd h List.not_mem_nil
    · exact fun _ h => absurd h.symm (Option.some_ne_none _)
  obtain ⟨-, ⟨-, hlog⟩, -⟩ := (pendingJoint P).runs (fun _ _ _ _ => trivial)
    (fun s i x hG j hj => hG j hj) h hstart
  obtain ⟨b, hb, hpending⟩ := hlog inv hinv
  rwa [Option.some.inj (ha.symm.trans hb)]

end

/-- An execution next to a reconciliation that finds nothing and an operator who waits. -/
theorem no_effect_after_outcome_once : ∃ (ms : List (Fin 2 × CallInput))
    (s : Pool 2 Database Stage ActionEvent) (inv : Invocation),
    Runs (calls (samplePlatform false)) Undisturbed (fresh 2 .active) ms s ∧
    .invoked inv ∈ s.log ∧
    ∀ a, inv.database.attempts inv.idempotencyKey = some a → a.status.terminal = false := by
  let ms : List (Fin 2 × CallInput) := List.flatten
    [persisted 0 .allow, moves 0 (.execute 1) (allowed [.go]),
      moves 1 (.reconcile 1) (allowed [.go, .go, .lookup .absent, .go, .go, .go]),
      answers 0 (allowed [.gate none])]
  obtain ⟨s, hruns, hp⟩ := exists_runs (C := calls (samplePlatform false))
    (s := fresh 2 .active)
    (fun s m => decide (∀ j, j ≠ m.1 → ∀ key ∈ (s.calls j).pendingKey,
      (m.2 = .crash ∨ (s.calls m.1).settles key = false))) ms
    (fun s => s.log.any ActionEvent.isInvoked) (by decide +kernel)
  have hruns : Runs (calls (samplePlatform false)) Undisturbed (fresh 2 .active) ms s :=
    hruns.mono fun s m hm j hj key hkey => of_decide_eq_true hm j hj key hkey
  obtain ⟨inv, hinv⟩ := mem_of_any_isInvoked hp
  exact ⟨ms, s, inv, hruns, hinv, no_effect_after_outcome hruns inv hinv⟩

/-- The event is an invocation for an attempt with an outcome. -/
def ActionEvent.invokedSettled : ActionEvent → Bool
  | .invoked inv => (inv.database.attempts inv.idempotencyKey).any fun a => a.status.terminal
  | _ => false

/-- While an execution stands before its fence, a reconciliation leaves its outcome unknown
and an operator resolves it as failed; the execution then invokes the provider. -/
theorem invoked_after_outcome : ∃ (ms : List (Fin 3 × CallInput))
    (s : Pool 3 Database Stage ActionEvent) (inv : Invocation) (a : AttemptRow),
    Runs (calls (samplePlatform false)) (fun _ _ => True) (fresh 3 .active) ms s ∧
    .invoked inv ∈ s.log ∧ inv.database.attempts inv.idempotencyKey = some a ∧
    a.status.terminal = true := by
  let ms : List (Fin 3 × CallInput) := List.flatten
    [persisted 0 .allow, moves 0 (.execute 1) (allowed [.go]),
      moves 1 (.reconcile 1) (allowed [.go, .go, .lookup .absent, .go, .go, .go]),
      moves 2 (.resolve ⟨"d", sampleKey, "operator", .failed, "checked", none, none⟩)
        [.go, .go, .check none],
      answers 0 (allowed [.gate none])]
  obtain ⟨s, hruns, hp⟩ := exists_runs (C := calls (samplePlatform false))
    (s := fresh 3 .active) (fun _ _ => true) ms
    (fun s => s.log.any ActionEvent.invokedSettled) (by decide +kernel)
  obtain ⟨e, he, hsettled⟩ := List.any_eq_true.mp hp
  cases e with
  | invoked inv =>
      obtain ⟨a, ha, hterminal⟩ := (Option.any_eq_true _ _).mp hsettled
      exact ⟨ms, s, inv, a, hruns.mono fun _ _ _ => trivial, he, ha, hterminal⟩
  | _ => cases hsettled

end TiramisuAgents
