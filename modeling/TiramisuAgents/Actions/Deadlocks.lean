import TiramisuAgents.Actions.Knowledge
import TiramisuAgents.Actions.Locks

/-!
When the transactions on the actions of a process wait for each other in a cycle.

Most of them take an attempt before its request, and a request before the process.  Two do not: a
reconciliation updates the attempt when it holds the request and the process, and a review updates
the request when it holds the process.  A review does so only while its approval is pending, when
nothing executes the action yet.

* `Database.Executable`, `prepared`: what the mailbox executes and reconciles.
* `undisturbed`: no reconciliation of an action overlaps a transaction that holds the attempt, and
  no review goes on with an approval that has been decided since it loaded it.
* `Arranged`, `RowKnowledge`, `Apart`: the invariants.
* `actions_never_deadlock_undisturbed`: such transactions never wait in a cycle.
* `reconcile_deadlocks`: a reconciliation and an operator's resolution that do.
-/

namespace TiramisuAgents

open Transactions

/-! ### Preconditions -/

/-- The action is persisted, and its approval is not pending. -/
structure Database.Executable (db : Database) : Prop where
  persisted : db.policy ≠ none
  reviewed : ∀ row, db.approval = some row → row.status ≠ .pending

instance (db : Database) : Decidable db.Executable :=
  decidable_of_iff (db.policy ≠ none ∧ db.approval.all fun row => row.status ≠ .pending)
    ⟨fun h => ⟨h.1, fun row hrow => by simpa [hrow] using h.2⟩,
      fun h => ⟨h.persisted, by
        cases hrow : db.approval with
        | none => rfl
        | some row => simpa using h.reviewed row hrow⟩⟩

/-- A reconciliation updates the attempt. -/
def AttemptRow.markable (row : AttemptRow) : Bool :=
  !row.status.terminal && row.status ≠ .reconciling

/-- The call reconciles the action. -/
def Stage.reconciles : Stage → Bool
  | .authorising .reconcile _ _ | .marking _ _ | .marked _ _ => true
  | _ => false

/-- The call executes or reconciles the action, or resolves an attempt it has found. -/
def Stage.works : Stage → Bool
  | .authorising _ _ _ | .claimed _ _ _ _ | .marking _ _ | .marked _ _ | .looking _ _
  | .gating _ _ _ | .invoking _ | .recording _ _ | .recordingAttempt _ _ _
  | .recordingBoth _ _ _ | .resolvingBoth _ _ => true
  | _ => false

/-- The call is made by the mailbox for an action that is executable. -/
def Call.works : Call → Bool
  | .execute _ | .reconcile _ => true
  | _ => false

/-- The lock is on an attempt of the action that a reconciliation updates. -/
def ActionLock.disturbs (s : ProcessActions) (a : UUID) : ActionLock → Bool
  | attempt b key => b = a && ((s.actions a).attempts key).any AttemptRow.markable
  | _ => false

section

variable {n : ℕ} (P : Platform)

/-- The mailbox executes and reconciles actions that are executable. -/
def prepared (p : Pool n ProcessActions (Holding ActionStage ActionLock) ActionEvent)
    (m : Fin n × Option ActionInput) : Bool :=
  match m.2 with
  | some (.call a c) => !c.works || decide (p.store.actions a).Executable
  | _ => true

/-- A reconciliation takes its request when no other transaction holds an attempt of the action
that it would update; such an attempt is taken, by another transaction, when no reconciliation
holds the request; and a review takes the process when its approval is still the one it loaded. -/
def undisturbed (p : Pool n ProcessActions (Holding ActionStage ActionLock) ActionEvent)
    (m : Fin n × Option ActionInput) : Bool :=
  let t := p.calls m.1
  let a := t.stage.actionId
  match m.2, (actionRows P).request t p.store with
  | some _, some (.request _) => !t.stage.stage.reconciles ||
      decide (∀ j, j ≠ m.1 → ∀ l ∈ (p.calls j).held, l.disturbs p.store a = false)
  | some _, some (.attempt b key) => t.stage.stage.reconciles ||
      !(ActionLock.attempt b key).disturbs p.store a ||
      decide (∀ j, j ≠ m.1 → (p.calls j).stage.stage.reconciles = true →
        .request a ∉ (p.calls j).held)
  | some _, some .process =>
      match t.stage.stage with
      | .reviewing _ (.messageRead target _ _) =>
          decide ((p.store.actions a).approval = some target.approval)
      | _ => true
  | _, _ => true

/-- A process without actions, and calls that are not made yet. -/
def noActions (n : ℕ) (status : ProcessStatus) :
    Pool n ProcessActions (Holding ActionStage ActionLock) ActionEvent :=
  ⟨⟨status, fun _ => { process := status }⟩, fun _ => ⟨⟨"", .idle⟩, []⟩, []⟩

end

/-! ### What is known of an action -/

/-- An action that is not executable has no attempts, and an approval if its policy asks for it. -/
structure Database.Arranged (db : Database) : Prop where
  unready : ¬ db.Executable → ∀ key, db.attempts key = none
  approvals : db.policy = some .requireApproval → db.approval ≠ none

/-- What a call that holds its rows has read of them. -/
def Stage.Sees (held : List ActionLock) (db : Database) : Stage → Prop
  | .marking key attempt => db.attempts key = some attempt ∧ attempt.status.terminal = false
  | .resolvingFresh command => held ≠ [] → db.attempts command.idempotencyKey ≠ none
  | .reviewing _ (.messageRead target _ _) =>
      .process ∈ held → db.approval = some target.approval
  | .reviewing _ (.locked target _) => db.approval = some target.approval
  | .reviewing _ (.flushing target _ _) =>
      db.approval = some target.approval ∧ target.approval.status = .pending
  | _ => True

section

variable {P : Platform} {t t' : Stage} {x : CallInput} {db db' : Database}
  {obs : List ActionEvent} {held : List ActionLock}

/-- An executable action stays executable: a review decides an approval that is pending. -/
lemma Step.executable (h : Step P t x db t' db' obs) (hdb : db.Arranged) (hsees : t.Sees held db)
    (hex : db.Executable) : db'.Executable := by
  cases h with
  | review c target request write =>
      obtain ⟨happroval, hpending⟩ := hsees
      exact absurd hpending (hex.reviewed _ happroval)
  | persist p outcome payloadHash =>
      obtain ⟨policy, hpolicy⟩ := Option.ne_none_iff_exists'.mp hex.persisted
      refine ⟨Option.some_ne_none _, fun row hrow => ?_⟩
      simp only [Database.persist, hpolicy, Option.getD_some] at hrow
      split_ifs at hrow with hrequired
      · obtain ⟨approval, happroval⟩ :=
          Option.ne_none_iff_exists'.mp (hdb.approvals (hrequired ▸ hpolicy))
        rw [happroval, Option.getD_some] at hrow
        obtain rfl := Option.some.inj hrow
        exact hex.reviewed _ happroval
      · exact hex.reviewed row hrow
  | _ => exact ⟨hex.persisted, hex.reviewed⟩

/-- The attempts are written by a call that works on the action. -/
lemma Step.attempts_of_works (h : Step P t x db t' db' obs) (ht : t.works = false) :
    db'.attempts = db.attempts := by
  cases h <;> first | rfl | cases ht

/-- The step lemma for the rows of the action. -/
lemma Step.arranged (h : Step P t x db t' db' obs) (hdb : db.Arranged)
    (hworks : t.works = true → db.Executable) (hsees : t.Sees held db) : db'.Arranged where
  unready hunready key := by
    have hbefore : ¬ db.Executable := fun hex => hunready (h.executable hdb hsees hex)
    have hidle : t.works = false := by
      by_contra hworking
      exact hbefore (hworks (by simpa using hworking))
    rw [h.attempts_of_works hidle]
    exact hdb.unready hbefore key
  approvals := by
    cases h with
    | review =>
        intro hpolicy
        simpa [Database.review] using hdb.approvals hpolicy
    | persist p =>
        intro hpolicy
        simp only [Database.persist, Option.some.injEq] at hpolicy
        simp [Database.persist, hpolicy]
    | _ => exact hdb.approvals

/-- A call starts to work on an executable action. -/
lemma Step.executable_of_works {y : Answer} (h : Step P t (.answer y) db t' db' obs)
    (hdb : db.Arranged) (hworks : t.works = true → db.Executable) (hsees : t.Sees held db)
    (ht' : t'.works = true) : db'.Executable := by
  cases hworking : t.works with
  | true => exact h.executable hdb hsees (hworks hworking)
  | false =>
      cases h with
      | halt hresting => cases t' <;> first | (cases ht'; done) | cases hresting
      | resolveBoth c attempt found =>
          by_contra hunready
          rw [hdb.unready hunready] at found
          cases found
      | _ => first | (cases ht'; done) | cases hworking

/-- What a call has read when it takes a lock. -/
lemma Stage.sees_take {l : ActionLock} (hsees : t.Sees held db)
    (hfresh : ∀ c, t = .resolvingFresh c → db.attempts c.idempotencyKey ≠ none)
    (hread : ∀ c target status existing, t = .reviewing c (.messageRead target status existing) →
      l = .process → db.approval = some target.approval) : t.Sees (held ++ [l]) db := by
  cases t with
  | resolvingFresh c => exact fun _ => hfresh c rfl
  | reviewing c r =>
      cases r with
      | messageRead target status existing =>
          intro hin
          rcases List.mem_append.mp hin with hold | hnew
          · exact hsees hold
          · exact hread c target status existing rfl (List.mem_singleton.mp hnew).symm
      | _ => exact hsees
  | _ => exact hsees

/-- What a call has read after its statement. -/
lemma Step.sees_own {y : Answer} {a : UUID} (h : Step P t (.answer y) db t' db' obs)
    (hsees : t.Sees held db) (hheld : t'.between = false → ∀ l ∈ t.asks a, l ∈ held) :
    t'.Sees (if t'.between then [] else held) db' := by
  cases h with
  | halt hresting => cases t' <;> trivial
  | find revision row attempt found pending => exact ⟨found, pending⟩
  | resolveFresh c => exact fun hne => absurd rfl hne
  | readMessage c target process => exact fun hin => absurd hin List.not_mem_nil
  | lockReview c target process existing =>
      refine hsees (hheld rfl _ ?_)
      simp only [Stage.asks]
      split_ifs <;> simp
  | decideReview c target now request write pending => exact ⟨hsees, pending⟩
  | _ => trivial

end

/-! ### The invariants -/

/-- What is known of a call: what it holds, that the action it works on is executable, and what it
has read. -/
structure RowKnowledge (t : Holding ActionStage ActionLock) (s : ProcessActions) : Prop where
  rows : KeepsRows t
  works : t.stage.stage.works = true → (s.actions t.stage.actionId).Executable
  sees : t.stage.stage.Sees t.held (s.actions t.stage.actionId)

/-- The condition on a step that is about its own call. -/
def Foreseen (P : Platform) (t : Holding ActionStage ActionLock) (x : Option ActionInput)
    (s : ProcessActions) : Prop :=
  (∀ a c, x = some (.call a c) → c.works = true → (s.actions a).Executable) ∧
  ∀ c target status existing,
    t.stage.stage = .reviewing c (.messageRead target status existing) → x ≠ none →
    (actionRows P).request t s = some .process →
    (s.actions t.stage.actionId).approval = some target.approval

/-- While a reconciliation holds a request, nobody else holds an attempt that it would update. -/
def Apart {n : ℕ} (p : Pool n ProcessActions (Holding ActionStage ActionLock) ActionEvent) : Prop :=
  ∀ j k a, j ≠ k → (p.calls j).stage.stage.reconciles = true → .request a ∈ (p.calls j).held →
    ∀ l ∈ (p.calls k).held, l.disturbs p.store a = false

section

variable {P : Platform} {t t' u : Holding ActionStage ActionLock} {x : Option ActionInput}
  {s s' : ProcessActions} {obs : List ActionEvent} {a b : UUID} {db : Database}

lemma actions_write_self : (s.write a db).actions a = db := Function.update_self ..

lemma actions_write_of_ne (h : b ≠ a) : (s.write a db).actions b = s.actions b :=
  Function.update_of_ne h _ _

/-- What a call sees of an action does not depend on the status of the process. -/
lemma executable_action : (s.action a).Executable ↔ (s.actions a).Executable :=
  ⟨fun h => ⟨h.persisted, h.reviewed⟩, fun h => ⟨h.persisted, h.reviewed⟩⟩

lemma arranged_action (h : (s.actions a).Arranged) : (s.action a).Arranged :=
  ⟨fun hunready => h.unready fun hex => hunready (executable_action.mpr hex), h.approvals⟩

lemma sees_action {v : Stage} {held : List ActionLock} :
    v.Sees held (s.action a) ↔ v.Sees held (s.actions a) := Iff.rfl

/-- A transaction has locked what its statement writes. -/
lemma held_of_locks (ht : KeepsRows t) (hready : (actionRows P).request t s = none) :
    (.request ∈ t.stage.stage.locks → .request t.stage.actionId ∈ t.held) ∧
      (.process ∈ t.stage.stage.locks → .process ∈ t.held) := by
  obtain ⟨⟨a, v⟩, held⟩ := t
  have hheld := ht.held
  cases v with
  | reviewing c r =>
      cases r with
      | flushing target request write =>
          refine ⟨fun hlock => mem_held_of_asks hready rfl ?_,
            fun _ => hheld _ (by simp [Stage.holds])⟩
          simp only [Stage.locks, Reviewing.locks] at hlock
          split_ifs at hlock with hwrite
          · simp [Stage.asks, hwrite]
          · simp at hlock
      | _ => simp_all [Stage.locks, Reviewing.locks, Stage.holds]
  | authorising phase revision v =>
      cases v <;> simp_all [Stage.locks, Authorising.locks, Stage.holds]
  | _ => simp_all [Stage.locks, Stage.holds]

/-- The step lemma for the call that moves. -/
lemma knowledge_own (h : (actionRows P).Moves t x s t' s' obs) (hB : Foreseen P t x s)
    (hs : ∀ a, (s.actions a).Arranged) (ht : RowKnowledge t s) :
    (∀ a, (s'.actions a).Arranged) ∧ RowKnowledge t' s' := by
  have hrows := keepsRows_step h ht.rows
  cases h with
  | abort => exact ⟨hs, hrows, fun hw => absurd hw Bool.false_ne_true, trivial⟩
  | take l asked =>
      have hlockable := Script.ready_of_request asked
      refine ⟨hs, hrows, ht.works, Stage.sees_take ht.sees (fun c hc => ?_) ?_⟩
      · change t.stage.stage.lockable (s.action t.stage.actionId) = true at hlockable
        rw [hc] at hlockable
        exact Option.isSome_iff_ne_none.mp hlockable
      · rintro c target status existing hstage rfl
        exact hB.2 c target status existing hstage (Option.some_ne_none _) asked
  | statement v ready next =>
      obtain ⟨a, c, rfl, -, rfl, rfl⟩ | ⟨z, db, rfl, hid, rfl, hnext⟩ := ActionStage.next_cases next
      · refine ⟨hs, hrows, fun hworks => hB.1 a c rfl ?_, ?_⟩
        · cases c <;> first | rfl | cases hworks
        · cases c <;> trivial
      · have hstep := Step.of_next hnext
        have hdb := arranged_action (hs t.stage.actionId)
        have hworks : t.stage.stage.works = true → (s.action t.stage.actionId).Executable :=
          fun hw => executable_action.mpr (ht.works hw)
        have hsees := sees_action.mpr ht.sees
        refine ⟨fun b => ?_, hrows, fun hw => ?_, ?_⟩
        · by_cases hb : b = t.stage.actionId
          · rw [hb, actions_write_self]
            exact hstep.arranged hdb hworks hsees
          · rw [actions_write_of_ne hb]
            exact hs b
        · change ((s.write t.stage.actionId db).actions v.actionId).Executable
          rw [hid, actions_write_self]
          exact hstep.executable_of_works hdb hworks hsees hw
        · change v.stage.Sees (if v.stage.between then [] else t.held)
            ((s.write t.stage.actionId db).actions v.actionId)
          rw [hid, actions_write_self]
          exact hstep.sees_own hsees fun hopen l =>
            mem_held_of_asks ready (Stage.lockable_of_step hstep hopen)

/-- The step lemma for a bystander. -/
lemma knowledge_other (h : (actionRows P).Moves t x s t' s' obs)
    (hlocks : ∀ l ∈ u.held, l ∉ t.held) (hs : ∀ a, (s.actions a).Arranged)
    (ht : RowKnowledge t s) (hu : RowKnowledge u s) : RowKnowledge u s' := by
  cases h with
  | abort => exact hu
  | take => exact hu
  | statement v ready next =>
      obtain ⟨a, c, -, -, -, rfl⟩ | ⟨z, db, -, hid, rfl, hnext⟩ := ActionStage.next_cases next
      · exact hu
      by_cases hone : u.stage.actionId = t.stage.actionId
      swap
      · refine ⟨hu.rows, ?_, ?_⟩ <;> rw [actions_write_of_ne hone]
        · exact hu.works
        · exact hu.sees
      have hstep := Step.of_next hnext
      have hsees := sees_action.mpr ht.sees
      have hwritten := held_of_locks ht.rows ready
      refine ⟨hu.rows, fun hw => ?_, ?_⟩
      · have hex : (s.action t.stage.actionId).Executable :=
          executable_action.mpr (hone ▸ hu.works hw)
        rw [hone, actions_write_self]
        exact hstep.executable (arranged_action (hs _)) hsees hex
      · have hsees' := hu.sees
        have hheld := hu.rows.held
        rw [hone, actions_write_self]
        rw [hone] at hsees' hheld
        -- what a bystander has read is locked by it, or only grows
        have happroval : .process ∈ u.held → db.approval = (s.actions t.stage.actionId).approval :=
          fun hin => (hstep.process_frame fun hlock => hlocks _ hin (hwritten.2 hlock)).2.2.2.1
        cases hstage : u.stage.stage with
        | marking key attempt =>
            rw [hstage] at hsees' hheld
            have hin : .request t.stage.actionId ∈ u.held := hheld _ (by simp [Stage.holds])
            have hattempts := hstep.attempts_frame fun hlock => hlocks _ hin (hwritten.1 hlock)
            exact ⟨hattempts ▸ hsees'.1, hsees'.2⟩
        | resolvingFresh c =>
            rw [hstage] at hsees'
            exact fun hne => hstep.grows.attempts _ (hsees' hne)
        | reviewing c r =>
            rw [hstage] at hsees' hheld
            cases r with
            | messageRead target status existing =>
                exact fun hin => (happroval hin).trans (hsees' hin)
            | locked target existing =>
                have hin : .process ∈ u.held := hheld _ (by simp [Stage.holds])
                exact (happroval hin).trans hsees'
            | flushing target request write =>
                have hin : .process ∈ u.held := hheld _ (by simp [Stage.holds])
                exact ⟨(happroval hin).trans hsees'.1, hsees'.2⟩
            | _ => trivial
        | _ => trivial

/-- **The invariants of the calls** hold side by side. -/
lemma rowsJoint (P : Platform) : Joint ((actionRows P).code id) (fun t x s _ => Foreseen P t x s)
    (fun _ _ _ _ => True) (fun s _ => ∀ a, (s.actions a).Arranged)
    (fun t s _ => RowKnowledge t s) where
  own hnext hB hs ht := knowledge_own (Script.moves hnext) hB hs ht
  other hnext _ _ hlocks hs ht hu :=
    knowledge_other (Script.moves hnext) (by simpa [Script.code] using hlocks) hs ht hu

/-- A statement inside a transaction commits nothing. -/
lemma Step.uncommitted {t t' : Stage} {x : CallInput} {db db' : Database} {obs : List ActionEvent}
    (h : Step P t x db t' db' obs) (hopen : t'.between = false) : db' = db := by
  cases h <;> first | rfl | cases hopen

@[simp] lemma Stage.reconciles_authorising {phase : Phase} {revision : ℕ} {v : Authorising} :
    (Stage.authorising phase revision v).reconciles = decide (phase = .reconcile) := by
  cases phase <;> simp [Stage.reconciles]

/-- A call that reconciles inside a transaction did so before its statement. -/
lemma Step.reconciles {t t' : Stage} {x : CallInput} {db db' : Database} {obs : List ActionEvent}
    (h : Step P t x db t' db' obs) (hopen : t'.between = false) (ht' : t'.reconciles = true) :
    t.reconciles = true := by
  cases h with
  | halt hresting => cases t' <;> first | (cases ht'; done) | cases hresting
  | start c => rw [c.start_between] at hopen; cases hopen
  | _ => first | (cases hopen; done) | rfl | cases ht' | simpa using ht'

lemma ActionLock.disturbs_congr {l : ActionLock}
    (h : (s'.actions a).attempts = (s.actions a).attempts) : l.disturbs s' a = l.disturbs s a := by
  cases l <;> simp [disturbs, h]

/-- A call asks for the request of its own action. -/
lemma Stage.request_mem_asks {v : Stage} (h : .request a ∈ v.asks b) : a = b := by
  unfold Stage.asks at h
  split at h <;> (try split_ifs at h) <;> simp_all

/-- A call asks for an attempt of its own action; one that reconciles it holds the request. -/
lemma Stage.attempt_mem_asks {v : Stage} {key : String} (h : .attempt a key ∈ v.asks b) :
    a = b ∧ (v.reconciles = true → .request b ∈ v.holds b) := by
  unfold Stage.asks at h
  split at h <;> (try split_ifs at h) <;> simp_all [Stage.reconciles, Stage.holds]

variable {n : ℕ} {p p' : Pool n ProcessActions (Holding ActionStage ActionLock) ActionEvent}
  {i : Fin n}

/-- Who holds a request: a call that works on the action, a resolution that has found its attempt,
or a review that holds the process. -/
lemma Stage.request_cases {v : Stage} (h : .request a ∈ v.holds b ∨ .request a ∈ v.asks b) :
    a = b ∧ (v.works = true ∨ (∃ c, v = .resolvingFresh c) ∨ .process ∈ v.holds b) := by
  rcases h with h | h
  · unfold Stage.holds at h ⊢
    split at h <;> simp_all [Stage.works]
  · unfold Stage.asks at h
    split at h <;> (try split_ifs at h) <;> simp_all [Stage.works, Stage.holds]

/-- Who asks for less than it holds: a reconciliation that updates the attempt, and a review that
updates the request. -/
lemma Stage.asks_cases {v : Stage} {l l' : ActionLock} (hl : l ∈ v.holds b) (hl' : l' ∈ v.asks b) :
    l.rank < l'.rank ∨
    (∃ key attempt, v = .marking key attempt ∧ attempt.status ≠ .reconciling ∧
      l' = .attempt b key ∧ .request b ∈ v.holds b) ∨
    ∃ c target request write, v = .reviewing c (.flushing target request write) ∧
      l' = .request b ∧ .process ∈ v.holds b := by
  cases v with
  | authorising phase revision w => cases w <;> simp_all [Stage.holds, Stage.asks]
  | marking key attempt =>
      simp only [Stage.asks] at hl'
      split_ifs at hl' with hsame
      · cases hl'
      · exact .inr (.inl ⟨key, attempt, rfl, hsame, List.mem_singleton.mp hl', by simp [holds]⟩)
  | recordingAttempt key outcome attempt =>
      rw [List.mem_singleton.mp hl, List.mem_singleton.mp hl']
      exact .inl Nat.zero_lt_one
  | reviewing c r =>
      cases r with
      | flushing target request write =>
          simp only [Stage.asks, List.mem_append] at hl'
          rcases hl' with hrequest | hthread
          · split_ifs at hrequest
            · exact .inr (.inr ⟨c, target, request, write, rfl, List.mem_singleton.mp hrequest,
                by simp [holds]⟩)
            · cases hrequest
          · split_ifs at hthread
            · simp only [Stage.holds, List.mem_cons, List.not_mem_nil, or_false] at hl
              rw [List.mem_singleton.mp hthread]
              obtain rfl | rfl := hl <;> exact .inl (by simp [ActionLock.rank])
            · cases hthread
      | _ => simp_all [Stage.holds, Stage.asks]
  | _ => simp_all [Stage.holds, Stage.asks]

/-- What the condition says of a step that takes a request. -/
lemma undisturbed_request {y : ActionInput} (h : undisturbed P p (i, some y) = true)
    (asked : (actionRows P).request (p.calls i) p.store = some (.request b))
    (hrec : (p.calls i).stage.stage.reconciles = true) {j : Fin n} (hj : j ≠ i) {l : ActionLock}
    (hl : l ∈ (p.calls j).held) : l.disturbs p.store (p.calls i).stage.actionId = false := by
  simp only [undisturbed, asked, hrec, Bool.not_true, Bool.false_or, decide_eq_true_eq] at h
  exact h j hj l hl

/-- What the condition says of a step that takes an attempt. -/
lemma undisturbed_attempt {y : ActionInput} {key : String}
    (h : undisturbed P p (i, some y) = true)
    (asked : (actionRows P).request (p.calls i) p.store = some (.attempt b key))
    (hrec : (p.calls i).stage.stage.reconciles = false) {j : Fin n} (hj : j ≠ i)
    (hrecj : (p.calls j).stage.stage.reconciles = true)
    (hreq : .request (p.calls i).stage.actionId ∈ (p.calls j).held) :
    (ActionLock.attempt b key).disturbs p.store (p.calls i).stage.actionId = false := by
  simp only [undisturbed, asked, hrec, Bool.false_or, Bool.or_eq_true, Bool.not_eq_true',
    decide_eq_true_eq] at h
  exact h.resolve_right fun hnone => hnone j hj hrecj hreq

/-- The step lemma for the reconciliations. -/
lemma Apart.step (hp : Apart p) (hholds : Joint.Holds ((actionRows P).code id)
      (fun s _ => ∀ a, (s.actions a).Arranged) (fun t s _ => RowKnowledge t s) p)
    (hundisturbed : undisturbed P p (i, x) = true)
    (h : p.step ((actionRows P).code id) (i, x) = some p') : Apart p' := by
  obtain ⟨t, store, obs, hnext, -, rfl⟩ := step_eq_some h
  have hmoves := Script.moves hnext
  intro j k a hjk hrec hreq l hl
  dsimp only at hrec hreq hl ⊢
  have hexclusive : ∀ j k l, l ∈ (p.calls j).held → l ∈ (p.calls k).held → j = k := by
    intro j k l hj hk
    exact hholds.exclusive j k l (by simpa [Script.code] using hj) (by simpa [Script.code] using hk)
  have hrows := (hholds.calls i).rows
  generalize htold : p.calls i = told at hmoves hrows
  cases hmoves with
  | abort =>
      have hj : j ≠ i := by
        rintro rfl
        simp at hreq
      have hk : k ≠ i := by
        rintro rfl
        simp at hl
      rw [Function.update_of_ne hj] at hrec hreq
      rw [Function.update_of_ne hk] at hl
      exact hp j k a hjk hrec hreq l hl
  | take l' asked =>
      have hasked := (Script.mem_asks asked).1
      rw [← htold] at asked hasked hrows
      by_cases hj : j = i
      · subst hj
        have hk : k ≠ j := Ne.symm hjk
        rw [Function.update_self, ← htold] at hrec hreq
        rw [Function.update_of_ne hk] at hl
        rcases List.mem_append.mp hreq with hold | hnew
        · exact hp j k a hjk hrec hold l hl
        · obtain rfl := List.mem_singleton.mp hnew
          obtain rfl := Stage.request_mem_asks hasked
          exact undisturbed_request hundisturbed asked hrec hk hl
      rw [Function.update_of_ne hj] at hrec hreq
      by_cases hk : k = i
      · subst hk
        rw [Function.update_self, ← htold] at hl
        rcases List.mem_append.mp hl with hold | hnew
        · exact hp j k a hjk hrec hreq l hold
        obtain rfl := List.mem_singleton.mp hnew
        cases l with
        | attempt b key =>
            obtain ⟨rfl, hmarking⟩ := Stage.attempt_mem_asks hasked
            by_cases hab : (p.calls k).stage.actionId = a
            · subst hab
              cases hreck : (p.calls k).stage.stage.reconciles with
              | true => exact absurd (hexclusive j k _ hreq (hrows.held _ (hmarking hreck))) hj
              | false => exact undisturbed_attempt hundisturbed asked hreck hj hrec hreq
            · simp [ActionLock.disturbs, hab]
        | _ => rfl
      · rw [Function.update_of_ne hk] at hl
        exact hp j k a hjk hrec hreq l hl
  | statement v ready next =>
      rw [← htold] at ready next hrows
      -- what a statement writes is not what another call's reconciliation reads
      have hstore : v.stage.between = false ∨ (j ≠ i ∧ .request a ∈ (p.calls j).held) →
          l.disturbs store a = l.disturbs p.store a := by
        intro hor
        obtain ⟨b, c, -, -, -, rfl⟩ | ⟨z, db, -, hid, rfl, hmade⟩ := ActionStage.next_cases next
        · rfl
        refine ActionLock.disturbs_congr ?_
        by_cases hab : a = (p.calls i).stage.actionId
        · rw [hab, actions_write_self]
          have hstep := Step.of_next hmade
          rcases hor with hopen | ⟨hj, hheld⟩
          · rw [hstep.uncommitted hopen]
            rfl
          · refine hstep.attempts_frame fun hlock => hj (hexclusive j i _ hheld ?_)
            rw [hab]
            exact (held_of_locks hrows ready).1 hlock
        · rw [actions_write_of_ne hab]
      have hbefore : v.stage.between = false → v.stage.reconciles = true →
          (p.calls i).stage.stage.reconciles = true := by
        intro hopen hrecv
        obtain ⟨b, c, -, -, rfl, -⟩ | ⟨z, db, -, -, -, hmade⟩ := ActionStage.next_cases next
        · exact absurd c.start_between (by simpa using hopen)
        · exact (Step.of_next hmade).reconciles hopen hrecv
      have hheld : ∀ l ∈ (if v.stage.between then [] else told.held),
          v.stage.between = false ∧ l ∈ (p.calls i).held := by
        intro l hl
        rw [htold]
        split_ifs at hl with hbetween
        · cases hl
        · exact ⟨by simpa using hbetween, hl⟩
      by_cases hj : j = i
      · subst hj
        have hk : k ≠ j := Ne.symm hjk
        rw [Function.update_self] at hrec hreq
        rw [Function.update_of_ne hk] at hl
        obtain ⟨hopen, hin⟩ := hheld _ hreq
        rw [hstore (.inl hopen)]
        exact hp j k a hjk (hbefore hopen hrec) hin l hl
      rw [Function.update_of_ne hj] at hrec hreq
      by_cases hk : k = i
      · subst hk
        rw [Function.update_self] at hl
        obtain ⟨hopen, hin⟩ := hheld _ hl
        rw [hstore (.inl hopen)]
        exact hp j k a hjk hrec hreq l hin
      · rw [Function.update_of_ne hk] at hl
        rw [hstore (.inr ⟨hj, hreq⟩)]
        exact hp j k a hjk hrec hreq l hl

/-! ### Deadlocks -/

/-- The conditions on a step, read off the checks. -/
lemma foreseen {m : Fin n × Option ActionInput} (hprepared : prepared p m = true)
    (hundisturbed : undisturbed P p m = true) : Foreseen P (p.calls m.1) m.2 p.store := by
  obtain ⟨i, x⟩ := m
  refine ⟨fun a c hx hworks => ?_, fun c target status existing hstage hx asked => ?_⟩
  · dsimp only at hx
    subst hx
    simpa [prepared, hworks] using hprepared
  · obtain ⟨y, hy⟩ := Option.ne_none_iff_exists'.mp hx
    dsimp only at hstage hy asked ⊢
    subst hy
    simpa [undisturbed, asked, hstage] using hundisturbed

/-- The invariants hold in every run. -/
lemma rows_runs {status : ProcessStatus} {ms : List (Fin n × Option ActionInput)}
    (h : Runs ((actionRows P).code id)
      (fun p m => prepared p m = true ∧ undisturbed P p m = true) (noActions n status) ms p) :
    Joint.Holds ((actionRows P).code id) (fun s _ => ∀ a, (s.actions a).Arranged)
      (fun t s _ => RowKnowledge t s) p ∧ Apart p := by
  refine h.invariant (I := fun p => Joint.Holds ((actionRows P).code id)
    (fun s _ => ∀ a, (s.actions a).Arranged) (fun t s _ => RowKnowledge t s) p ∧ Apart p)
    (fun p m p' hp hm hstep => ?_) ⟨⟨?_, ?_, fun i => ?_⟩, ?_⟩
  · exact ⟨(rowsJoint P).step hp.1 (foreseen hm.1 hm.2) (fun _ _ => trivial) hstep,
      hp.2.step hp.1 hm.2 hstep⟩
  · exact fun i j l hl => absurd hl List.not_mem_nil
  · exact fun a => ⟨fun _ _ => rfl, fun hpolicy => by cases hpolicy⟩
  · exact ⟨.between rfl, fun hw => absurd hw Bool.false_ne_true, trivial⟩
  · exact fun j k a _ _ hreq => absurd hreq List.not_mem_nil

/-- Nobody holds the request of an action whose review has been read as pending under the lock of
the process. -/
lemma unheld_request (hp : Joint.Holds ((actionRows P).code id)
      (fun s _ => ∀ a, (s.actions a).Arranged)
      (fun t s _ => RowKnowledge t s) p) {j k : Fin n} (hjk : j ≠ k)
    (hprocess : .process ∈ (p.calls j).held) {row : ApprovalRow}
    (happroval : (p.store.actions a).approval = some row) (hpending : row.status = .pending) :
    .request a ∉ (p.calls k).held := by
  intro hheld
  have hunready : ¬ (p.store.actions a).Executable := fun hex => hex.reviewed row happroval hpending
  obtain ⟨hrows, hworks, hsees⟩ := hp.calls k
  obtain ⟨rfl, hworking | ⟨c, hstage⟩ | hin⟩ := Stage.request_cases (hrows.only _ hheld)
  · exact hunready (hworks hworking)
  · rw [hstage] at hsees
    exact hsees (List.ne_nil_of_mem hheld) ((hp.common _).unready hunready _)
  · refine hjk (hp.exclusive j k .process ?_ ?_)
    · simpa [Script.code] using hprocess
    · simpa [Script.code] using hrows.held _ hin

/-- **Undisturbed transactions never deadlock.** -/
theorem actions_never_deadlock_undisturbed (P : Platform) {n : ℕ} (status : ProcessStatus)
    {ms : List (Fin n × Option ActionInput)}
    {p : Pool n ProcessActions (Holding ActionStage ActionLock) ActionEvent}
    (h : Runs ((actionRows P).code id)
      (fun p m => prepared p m = true ∧ undisturbed P p m = true) (noActions n status) ms p)
    (i : Fin n) : ¬ Relation.TransGen (WaitsFor ((actionRows P).code id) p) i i := by
  obtain ⟨hp, hapart⟩ := rows_runs h
  refine Script.not_waits ActionLock.rank (fun i j k l l' _ hjk hl hheld hl' hheld' => ?_) i
  rw [id, List.map_id] at hheld hheld'
  obtain ⟨hrows, hworks, hsees⟩ := hp.calls j
  obtain ⟨hasked, hnot⟩ := Script.mem_asks hl'
  rcases hrows.only l hheld with hholds | hasks
  swap
  · exact hrows.below l hheld hasks l' hasked hnot
  obtain hlt | ⟨key, attempt, hstage, hmarks, rfl, hin⟩ |
    ⟨c, target, request, write, hstage, rfl, hin⟩ := Stage.asks_cases hholds hasked
  · exact hlt
  · -- the attempt that a reconciliation updates is free
    rw [hstage] at hsees
    have hdisturbs := hapart j k _ hjk (by rw [hstage]; rfl) (hrows.held _ hin) _ hheld'
    have hmarkable : attempt.markable = true := by
      simp [AttemptRow.markable, hsees.2, hmarks]
    simp [ActionLock.disturbs, hsees.1, hmarkable] at hdisturbs
  · -- the request that a review updates is free
    rw [hstage] at hsees
    exact absurd hheld' (unheld_request hp hjk (hrows.held _ hin) hsees.1 hsees.2)

end

/-! ### Two runs -/

/-- A call on the sample action, and the answers to its statements. -/
def rowMoves {n : ℕ} (i : Fin n) (c : Call) (answers : List Answer) :
    List (Fin n × Option ActionInput) :=
  (i, some (.call "action" c)) :: answers.map fun x => (i, some (.answer x))

/-- The sample action is persisted. -/
def persistedRows : List (Fin 2 × Option ActionInput) :=
  rowMoves 0 (.persist (sampleProposal .allow)) [.go, .go, .check none]

/-- An execution waits for the request of another one. -/
theorem actions_never_deadlock_undisturbed_waiting :
    ∃ (ms : List (Fin 2 × Option ActionInput))
      (p : Pool 2 ProcessActions (Holding ActionStage ActionLock) ActionEvent),
    Runs ((actionRows (samplePlatform true)).code id)
      (fun p m => prepared p m = true ∧ undisturbed (samplePlatform true) p m = true)
      (noActions 2 .active) ms p ∧
    WaitsFor ((actionRows (samplePlatform true)).code id) p 1 0 ∧
    ∀ i, ¬ Relation.TransGen (WaitsFor ((actionRows (samplePlatform true)).code id) p) i i := by
  let ms : List (Fin 2 × Option ActionInput) := List.flatten
    [persistedRows, rowMoves 0 (.execute 1) [.tenant .active, .go, .go, .go],
      rowMoves 1 (.execute 1) [.tenant .active]]
  obtain ⟨p, hruns, hlast⟩ := exists_runs (C := (actionRows (samplePlatform true)).code id)
    (s := noActions 2 .active)
    (fun p m => prepared p m && undisturbed (samplePlatform true) p m) ms
    (fun p => decide ((actionRows (samplePlatform true)).request (p.calls 1) p.store =
        some (.request "action") ∧
      ActionLock.request "action" ∉ (p.calls 1).held.map id ∧
      ActionLock.request "action" ∈ (p.calls 0).held.map id)) (by decide +kernel)
  have hruns := hruns.mono
    (H := fun p m => prepared p m = true ∧ undisturbed (samplePlatform true) p m = true)
    fun _ _ h => by simpa using h
  exact ⟨ms, p, hruns, Script.waitsFor (.answer .go) (by decide) (of_decide_eq_true hlast),
    actions_never_deadlock_undisturbed (samplePlatform true) .active hruns⟩

/-- The outcome of the sample action is unknown.  An operator resolves it and has locked the
attempt; a reconciliation has locked the request and the process, and each waits for the other. -/
theorem reconcile_deadlocks :
    ∃ (ms : List (Fin 2 × Option ActionInput))
      (p : Pool 2 ProcessActions (Holding ActionStage ActionLock) ActionEvent),
    Runs ((actionRows (samplePlatform true)).code id) (fun p m => prepared p m = true)
      (noActions 2 .active) ms p ∧
    Relation.TransGen (WaitsFor ((actionRows (samplePlatform true)).code id) p) 0 0 := by
  let resolution : OperatorActionResolution :=
    ⟨"decision", sampleKey, "operator", .succeeded, "evidence", none, none⟩
  let fence : List Answer := [.tenant .active, .go, .go, .go, .go, .check none]
  let ms : List (Fin 2 × Option ActionInput) := List.flatten
    [persistedRows,
      rowMoves 0 (.execute 1) (fence ++ [.go] ++ fence ++
        [.gate none, .provider (.ambiguous "timeout"), .go, .go, .go, .go, .go]),
      rowMoves 1 (.resolve resolution) [.go, .go],
      rowMoves 0 (.reconcile 1) fence]
  obtain ⟨p, hruns, hlast⟩ := exists_runs (C := (actionRows (samplePlatform true)).code id)
    (s := noActions 2 .active) (fun p m => prepared p m) ms
    (fun p => decide (((actionRows (samplePlatform true)).request (p.calls 0) p.store =
          some (.attempt "action" sampleKey) ∧
        ActionLock.attempt "action" sampleKey ∉ (p.calls 0).held.map id ∧
        ActionLock.attempt "action" sampleKey ∈ (p.calls 1).held.map id) ∧
      (actionRows (samplePlatform true)).request (p.calls 1) p.store = some (.request "action") ∧
        ActionLock.request "action" ∉ (p.calls 1).held.map id ∧
        ActionLock.request "action" ∈ (p.calls 0).held.map id)) (by decide +kernel)
  obtain ⟨hfirst, hsecond⟩ := of_decide_eq_true hlast
  exact ⟨ms, p, hruns, .tail (.single (Script.waitsFor (.answer .go) (by decide) hfirst))
    (Script.waitsFor (.answer .go) (by decide) hsecond)⟩

/-- Two reviews load the pending approval, and one of them approves the action.  An execution has
locked the request; the other review, which has locked the process, goes on and rejects. -/
theorem review_deadlocks :
    ∃ (ms : List (Fin 2 × Option ActionInput))
      (p : Pool 2 ProcessActions (Holding ActionStage ActionLock) ActionEvent),
    Runs ((actionRows (samplePlatform true)).code id) (fun p m => prepared p m = true)
      (noActions 2 .active) ms p ∧
    Relation.TransGen (WaitsFor ((actionRows (samplePlatform true)).code id) p) 0 0 := by
  let approve : ReviewCommand := ⟨"approve", .approve, "operator", none, some "send[]"⟩
  let reject : ReviewCommand := ⟨"reject", .reject, "other", none, none⟩
  let load : List Answer := [.go, .go, .check none]
  let ms : List (Fin 2 × Option ActionInput) := List.flatten
    [rowMoves 0 (.persist (sampleProposal .requireApproval)) [.go, .go, .check none],
      rowMoves 0 (.review reject) load,
      rowMoves 1 (.review approve) (load ++ [.go, .go, .go, .time 0, .go, .go, .check none]),
      rowMoves 1 (.execute 1) [.tenant .active, .go],
      [.go, .go, .go, .time 0].map fun x => (0, some (.answer x))]
  obtain ⟨p, hruns, hlast⟩ := exists_runs (C := (actionRows (samplePlatform true)).code id)
    (s := noActions 2 .active) (fun p m => prepared p m) ms
    (fun p => decide (((actionRows (samplePlatform true)).request (p.calls 0) p.store =
          some (.request "action") ∧
        ActionLock.request "action" ∉ (p.calls 0).held.map id ∧
        ActionLock.request "action" ∈ (p.calls 1).held.map id) ∧
      (actionRows (samplePlatform true)).request (p.calls 1) p.store = some .process ∧
        ActionLock.process ∉ (p.calls 1).held.map id ∧
        ActionLock.process ∈ (p.calls 0).held.map id)) (by decide +kernel)
  obtain ⟨hfirst, hsecond⟩ := of_decide_eq_true hlast
  exact ⟨ms, p, hruns, .tail (.single (Script.waitsFor (.answer .go) (by decide) hfirst))
    (Script.waitsFor (.answer .go) (by decide) hsecond)⟩

end TiramisuAgents
