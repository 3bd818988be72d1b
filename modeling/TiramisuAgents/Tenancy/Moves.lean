import TiramisuAgents.Tenancy.Steps

/-!
Moves of a tenant between deployments.

An assignment holds the deployment of its tenant alone: no process is created beside it.  It first
finds that every process is over, and then that every message of the processes of the deployment
is published; in between no message is added, because a process that is over gets none.

* `Over`: a process that is over, all of whose messages are published.
* `TenantOk`, `Stage.Knows`: the invariant of the rows of a tenant, and what its calls know.
* `deployments_strand_nothing`: every run whose reviews decide on committed rows;
  `stranded_by_review` is the run without.
-/

namespace TiramisuAgents.Tenancy

open Events (OutboxMessage)
open Tables Transactions

variable {V : Type} {N : ℕ}

/-! ### Published messages -/

/-- All messages of the process are published. -/
def Published (db : Database V) (id : UUID) : Prop :=
  ∀ m ∈ db.delivery.outbox, m.processInstanceId = some id → m.status = .published

/-- The process is over, and its messages are published. -/
def Over (db : Database V) (id : UUID) (p : TenantProcess V) : Prop :=
  p.rows.process.status.terminal = true ∧ Published db id

/-- A message that is not published is rewritten. -/
lemma published_modify {rows : List OutboxMessage} {m : OutboxMessage}
    {f : OutboxMessage → OutboxMessage} {id : UUID} (hkeyed : Keyed OutboxMessage.id rows)
    (hm : m ∈ rows) (hstatus : m.status ≠ .published)
    (hf : ∀ r, (f r).processInstanceId = r.processInstanceId)
    (h : ∀ r ∈ rows, r.processInstanceId = some id → r.status = .published) :
    ∀ r ∈ modify OutboxMessage.id m.id f rows, r.processInstanceId = some id →
      r.status = .published := by
  intro r hr hid
  obtain ⟨r', hr', hkey, rfl⟩ | ⟨hr, -⟩ := mem_modify.mp hr
  · obtain rfl := hkeyed.eq_of_mem hr' hm hkey
    rw [hf] at hid
    exact absurd (h r' hm hid) hstatus
  · exact h r hr hid

/-- The delivery leaves published messages, and adds none. -/
lemma published_delivery {u u' : Temporal.Stage} {x : Temporal.CallInput} {d d' : Temporal.Database}
    {obs : List Temporal.DeliveryEvent} (h : Temporal.Step u x d u' d' obs)
    (hu : ∀ m, u ≠ .producing m) (hkeyed : Keyed OutboxMessage.id d.outbox) :
    Keyed OutboxMessage.id d'.outbox ∧
      ∀ id, (∀ r ∈ d.outbox, r.processInstanceId = some id → r.status = .published) →
        ∀ r ∈ d'.outbox, r.processInstanceId = some id → r.status = .published := by
  have held {c : Temporal.ClaimedMessage} (h : d.outbox.any c.holds = true) :
      ∃ m ∈ d.outbox, m.id = c.id ∧ m.status ≠ .published := by
    obtain ⟨m, hm, hholds⟩ := List.any_eq_true.mp h
    simp only [Temporal.ClaimedMessage.holds, Bool.and_eq_true, decide_eq_true_eq] at hholds
    obtain ⟨⟨hid, hstatus⟩, -⟩ := hholds
    exact ⟨m, hm, hid, by simp [hstatus]⟩
  cases h with
  | produce p => exact absurd rfl (hu p)
  | claim c now locked token processId m found owned =>
      obtain ⟨hm, heligible⟩ := List.mem_filter.mp (Temporal.earliest_mem found)
      refine ⟨hkeyed.modify fun _ => rfl,
        fun id h => published_modify hkeyed hm ?_ (fun _ => rfl) h⟩
      intro hstatus
      simp [Temporal.Dispatcher.eligible, hstatus] at heligible
  | complete c c' now later holds =>
      obtain ⟨m, hm, hid, hstatus⟩ := held holds
      dsimp only
      rw [← hid]
      exact ⟨hkeyed.modify fun _ => rfl, fun id h =>
        published_modify hkeyed hm hstatus (fun _ => rfl) h⟩
  | fail c c' error now later o holds =>
      obtain ⟨m, hm, hid, hstatus⟩ := held holds
      dsimp only
      rw [← hid]
      exact ⟨hkeyed.modify fun _ => rfl, fun id h =>
        published_modify hkeyed hm hstatus (fun _ => rfl) h⟩
  | requeue c now later m found dead =>
      have hstatus : m.status ≠ .published := by simp [dead]
      exact ⟨hkeyed.modify fun _ => rfl, fun id h =>
        published_modify hkeyed (lookup_mem found).1 hstatus (fun _ => rfl) h⟩
  | _ => exact ⟨hkeyed, fun id h => h⟩

/-! ### What holds -/

/-- An ingestion with a bootstrap passes its deployment. -/
def IngestInput.Passes (c : IngestInput V) : Prop :=
  ∀ b, c.bootstrap = some b → c.deploymentId = some b.deploymentId

/-- The deployment that an ingestion has found is that of the tenant, and the one it was given. -/
def Assigned (c : IngestInput V) (assigned : String) (db : Database V) : Prop :=
  assigned = db.deploymentId ∧ ∀ d, c.deploymentId = some d → d = assigned

/-- The status that a call has found under the lock of the process. -/
def Holds (db : Database V) (id : UUID) (late : Bool) : Prop :=
  ∃ p, db.process id = some p ∧ p.rows.process.status.terminal = late

/-- What an ingestion knows. -/
def Ingesting.Knows (c : IngestInput V) (db : Database V) : Ingesting → Prop
  | .opening | .locked => True
  | .admitted assigned | .keyed assigned | .found assigned _ => Assigned c assigned db
  | .holding _ id late => Holds db id late
  | .creating assigned b _ => c.bootstrap = some b ∧ Assigned c assigned db

/-- What an assignment knows. -/
def Assigning.Knows (db : Database V) : Assigning → Prop
  | .opening | .locked _ _ => True
  | .held _ _ previous => previous = db.deploymentId
  | .counted _ _ previous =>
      previous = db.deploymentId ∧
        ∀ id p, db.process id = some p → p.rows.process.status.terminal = true
  | .cleared _ _ previous =>
      previous = db.deploymentId ∧ (previous ≠ unassigned →
        ∀ id p, db.process id = some p → p.deploymentId = previous → Over db id p)

variable [BEq V]

/-- What a call knows. -/
def Stage.Knows (T : Tenant V) (db : Database V) : Stage V N → Prop
  | .process id u => ∃ p, db.process id = some p ∧ Aware (T.services id) p.rows u
  | .delivery u => ∀ m, u ≠ .producing m
  | .ingesting _ c i => c.Passes ∧ i.Knows c db
  | .resolving _ c (.holding _ _ _ late) => Holds db c.command.processInstanceId late
  | .assigning _ a => a.Knows db
  | _ => True

/-- The rows of a tenant: the processes of another deployment than the current one are over, and
their messages are published. -/
structure TenantOk (T : Tenant V) (db : Database V) (log : List (TenantEvent V)) : Prop where
  processes : Keyed TenantProcess.id db.processes
  messages : Keyed OutboxMessage.id db.delivery.outbox
  rows : ∀ id p, db.process id = some p → RowsOk (T.services id) p.rows
  away : ∀ id p, db.process id = some p → p.deploymentId ≠ unassigned →
    p.deploymentId ≠ db.deploymentId → Over db id p
  created : ∀ id d, .created id d ∈ log → ∃ p, db.process id = some p ∧ p.deploymentId = d

omit [BEq V] in
/-- The call is none of a review that decides on rows its session has loaded before the committed
ones. -/
def Stage.Fresh (db : Database V) : Stage V N → Prop
  | .process id u => ∀ p, db.process id = some p → Committed p.rows u
  | _ => True

section

variable {T : Tenant V} {t t' u : Stage V N} {x : CallInput V N} {db db' : Database V}
  {log obs : List (TenantEvent V)}

lemma aware_of_inner {id : UUID} {v : ProcessStage V} {p : TenantProcess V} (ht : t.Knows T db)
    (hinner : t.inner = some (id, v)) (hp : db.process id = some p) :
    Aware (T.services id) p.rows v := by
  unfold Stage.inner at hinner
  split at hinner
  · cases hinner
    obtain ⟨p', hp', haware⟩ := ht
    obtain rfl := Option.some.inj (hp'.symm.trans hp)
    exact haware
  · cases hinner
    exact aware_ingesting _
  · cases hinner
    exact aware_ingesting _
  · cases hinner

omit [BEq V] in
lemma committed_of_inner {id : UUID} {v : ProcessStage V} {p : TenantProcess V}
    (ht : t.Fresh db) (hinner : t.inner = some (id, v)) (hp : db.process id = some p) :
    Committed p.rows v := by
  unfold Stage.inner at hinner
  split at hinner
  · cases hinner
    exact ht p hp
  · cases hinner
    trivial
  · cases hinner
    trivial
  · cases hinner

/-- A process keeps its deployment, its rows stay sound, and it stays over. -/
lemma Step.process_kept (h : Step T t x db t' db' obs) (hfresh : t.Fresh db)
    (hok : TenantOk T db log) (ht : t.Knows T db) {id : UUID} {p : TenantProcess V}
    (hp : db.process id = some p) :
    ∃ p', db'.process id = some p' ∧ p'.deploymentId = p.deploymentId ∧
      RowsOk (T.services id) p'.rows ∧
      (p.rows.process.status.terminal = true → p'.rows.process.status.terminal = true) := by
  obtain hsame | ⟨q, v, v', y, rows, obs', hinner, hq, hstep, hq'⟩ |
    ⟨slot, c, assigned, b, now, -, hnone, -⟩ := h.process_cases id
  · exact ⟨p, hsame.trans hp, rfl, hok.rows id p hp, fun h => h⟩
  · obtain rfl := Option.some.inj (hq.symm.trans hp)
    have haware := aware_of_inner ht hinner hq
    refine ⟨_, hq', rfl, ?_, fun hover => ?_⟩
    · exact (RowsOk.own hstep (committed_of_inner hfresh hinner hq) (hok.rows id q hq) haware).1
    · dsimp only
      rw [hstep.terminal_kept haware.process hover]
      exact hover
  · rw [hp] at hnone
    cases hnone

/-- A message is enqueued for a process that is not over. -/
lemma live_of_enqueues {id : UUID} {p : TenantProcess V} (h : Enqueues T t db id)
    (hok : TenantOk T db log) (ht : t.Knows T db) (hp : db.process id = some p) :
    p.rows.process.status.terminal = false := by
  have holds {late : Bool} (h : Holds db id late) : p.rows.process.status.terminal = late := by
    obtain ⟨p', hp', hlate⟩ := h
    obtain rfl := Option.some.inj (hp'.symm.trans hp)
    exact hlate
  obtain hnone | ⟨q, v, v', y, rows, obs', outboxId, now, m, rfl, hq, hmoved, hproduced⟩ |
    ⟨slot, c, assigned, rfl⟩ | ⟨slot, c, reason, assigned, q, rfl, rfl⟩ := h
  · rw [hp] at hnone
    cases hnone
  · obtain rfl := Option.some.inj (hq.symm.trans hp)
    exact live_of_production hmoved hproduced (hok.rows id q hq) (aware_of_inner ht rfl hq)
  · exact holds ht.2
  · exact holds ht

/-- The outbox keeps its key, and a process that is over with its messages published stays so. -/
lemma Step.over_kept (h : Step T t x db t' db' obs) (hok : TenantOk T db log)
    (ht : t.Knows T db) :
    Keyed OutboxMessage.id db'.delivery.outbox ∧
      ∀ id p, db.process id = some p → Over db id p → Published db' id := by
  obtain hsame | ⟨v, y, v', obs', rfl, hstep⟩ | ⟨id', m, hm, hnew, hinserted, henqueues⟩ :=
    h.outbox_cases
  · rw [hsame]
    refine ⟨hok.messages, fun id p hp hover => ?_⟩
    rw [Published, hsame]
    exact hover.2
  · obtain ⟨hkeyed, hpublished⟩ := published_delivery hstep ht hok.messages
    exact ⟨hkeyed, fun id p hp hover => hpublished id hover.2⟩
  · rw [hinserted]
    refine ⟨hok.messages.concat hnew, fun id p hp hover => ?_⟩
    rw [Published, hinserted]
    intro r hr hid
    obtain hr | hr := List.mem_append.mp hr
    · exact hover.2 r hr hid
    · rw [List.mem_singleton.mp hr, hm, Option.some.injEq] at hid
      subst hid
      have hlive := live_of_enqueues henqueues hok ht hp
      rw [hover.1] at hlive
      cases hlive

/-- The processes keep their key. -/
lemma Step.processes_keyed (h : Step T t x db t' db' obs)
    (hkeyed : Keyed TenantProcess.id db.processes) : Keyed TenantProcess.id db'.processes := by
  have put {id : UUID} {rows : ProcessDatabase V} :
      Keyed TenantProcess.id (db.put id rows).processes :=
    hkeyed.modify fun _ => rfl
  cases h with
  | process id outboxId now p v v' y rows obs found moved written =>
      obtain ⟨-, rfl⟩ | ⟨m, -, henqueued⟩ := written
      · exact put
      · rw [(enqueue_ok henqueued).2.1]
        exact put
  | ingest slot c assigned id outboxId late now o received =>
      obtain ⟨p, v', rows, obs, -, -, -, hprocesses, -⟩ := receive_ok received
      rw [hprocesses]
      exact put
  | resolve slot c reason assigned q outboxId late now o hdeployment hwritten hdelivery received =>
      obtain ⟨p, v', rows, obs, -, -, -, hprocesses, -⟩ := receive_ok received
      rw [hprocesses, Database.put, hwritten]
      exact put
  | create slot c assigned id outboxId b now o new scheduled =>
      rw [(schedule_ok scheduled).2.1]
      exact hkeyed.concat new
  | _ => exact hkeyed

/-- What is observed of a creation. -/
lemma Step.created_cases (h : Step T t x db t' db' obs) {id : UUID} {d : String}
    (hcreated : .created id d ∈ obs) :
    ∃ slot c assigned b now, t = .ingesting slot c (.creating assigned b id) ∧
      d = db.deploymentId ∧ db'.process id = some (b.process T id c.event now) := by
  cases h with
  | process =>
      obtain ⟨e, -, he⟩ := List.mem_map.mp hcreated
      cases he
  | delivery =>
      obtain ⟨e, -, he⟩ := List.mem_map.mp hcreated
      cases he
  | create slot c assigned id' outboxId b now o new scheduled =>
      cases List.mem_singleton.mp hcreated
      refine ⟨slot, c, assigned, b, now, rfl, rfl, ?_⟩
      rw [Database.process, (schedule_ok scheduled).2.1]
      exact lookup_concat_self new rfl
  | assign => cases List.mem_singleton.mp hcreated
  | _ => cases hcreated

/-! ### What a step keeps -/

omit [BEq V] in
/-- Who assigns a tenant holds it, with all the slots of its deployment. -/
lemma assigning_locks {c : AssignInput} {target reason previous : String} (l : TenantLock N)
    (h : l = .tenant ∨ ∃ slot, l = .deployment slot) :
    l ∈ (Stage.assigning (V := V) c (.cleared target reason previous)).locks := by
  obtain rfl | ⟨slot, rfl⟩ := h
  · exact List.mem_cons_self
  · exact List.mem_cons_of_mem _ (List.mem_map_of_mem (List.mem_finRange slot))

/-- The deployment stays for the holders of a slot or of the tenant. -/
lemma Step.deployment_frame (h : Step T t x db t' db' obs) {l : TenantLock N}
    (hl : l = .tenant ∨ ∃ slot, l = .deployment slot) (hfree : l ∉ t.locks) :
    db'.deploymentId = db.deploymentId := by
  obtain hsame | ⟨c, target, reason, previous, rfl, -⟩ := h.deployment_cases
  · exact hsame
  · exact absurd (assigning_locks l hl) hfree

omit [BEq V] in
/-- Who creates a process holds a slot. -/
lemma creating_locks {slot : Fin N} {c : IngestInput V} {assigned : String} {b : ProcessBootstrap}
    {id : UUID} : .deployment slot ∈
      (Stage.ingesting slot c (.creating assigned b id)).locks :=
  List.mem_cons_self

/-- The process that an ingestion creates is one of the deployment of the tenant. -/
lemma deployment_of_creating {slot : Fin N} {c : IngestInput V} {assigned : String}
    {b : ProcessBootstrap} {id : UUID}
    (ht : (Stage.ingesting slot c (.creating assigned b id)).Knows T db) :
    b.deploymentId = db.deploymentId := by
  obtain ⟨hpasses, hbootstrap, hassigned, hgiven⟩ := ht
  rw [← hassigned]
  exact hgiven _ (hpasses b hbootstrap)

/-- The rows of a tenant stay sound. -/
lemma TenantOk.step (h : Step T t x db t' db' obs) (hfresh : t.Fresh db)
    (hok : TenantOk T db log) (ht : t.Knows T db) : TenantOk T db' (log ++ obs) := by
  obtain ⟨hmessages, hover⟩ := h.over_kept hok ht
  -- a process after the step is one before it, or it is new
  have before {id : UUID} {p' : TenantProcess V} (hp' : db'.process id = some p') :
      (∃ p, db.process id = some p ∧ p'.deploymentId = p.deploymentId ∧
        RowsOk (T.services id) p'.rows ∧
        (p.rows.process.status.terminal = true → p'.rows.process.status.terminal = true)) ∨
      p'.deploymentId = db.deploymentId ∧ db'.deploymentId = db.deploymentId ∧
        RowsOk (T.services id) p'.rows := by
    cases hp : db.process id with
    | some p =>
        obtain ⟨q, hq, hkept⟩ := h.process_kept hfresh hok ht hp
        obtain rfl := Option.some.inj (hq.symm.trans hp')
        exact .inl ⟨p, rfl, hkept⟩
    | none =>
        obtain hsame | ⟨q, v, v', y, rows, obs', -, hq, -⟩ |
          ⟨slot, c, assigned, b, now, rfl, -, hcreated⟩ := h.process_cases id
        · rw [hsame, hp] at hp'
          cases hp'
        · rw [hp] at hq
          cases hq
        · obtain rfl := Option.some.inj (hcreated.symm.trans hp')
          refine .inr ⟨deployment_of_creating ht, ?_, rowsOk_new now _⟩
          obtain hsame | ⟨c', target, reason, previous, ht', -⟩ := h.deployment_cases
          · exact hsame
          · cases ht'
  refine ⟨h.processes_keyed hok.processes, hmessages, fun id p' hp' => ?_,
    fun id p' hp' hassigned haway => ?_, fun id d hcreated => ?_⟩
  · obtain ⟨p, -, -, hrows, -⟩ | ⟨-, -, hrows⟩ := before hp'
    · exact hrows
    · exact hrows
  · obtain ⟨p, hp, hdeployment, -, hterminal⟩ | ⟨hdeployment, hsame, -⟩ := before hp'
    · rw [hdeployment] at hassigned haway
      have hpover : Over db id p := by
        obtain hsame | ⟨c, target, reason, previous, rfl, htarget, -⟩ := h.deployment_cases
        · rw [hsame] at haway
          exact hok.away id p hp hassigned haway
        · obtain ⟨hprevious, hcleared⟩ := ht
          by_cases hcurrent : p.deploymentId = db.deploymentId
          · rw [hprevious, ← hcurrent] at hcleared
            exact hcleared hassigned id p hp rfl
          · exact hok.away id p hp hassigned hcurrent
      exact ⟨hterminal hpover.1, hover id p hp hpover⟩
    · rw [hdeployment, hsame] at haway
      exact absurd rfl haway
  · obtain hlogged | hcreated := List.mem_append.mp hcreated
    · obtain ⟨p, hp, hd⟩ := hok.created id d hlogged
      obtain ⟨p', hp', hdeployment, -⟩ := h.process_kept hfresh hok ht hp
      exact ⟨p', hp', hdeployment.trans hd⟩
    · obtain ⟨slot, c, assigned, b, now, rfl, rfl, hp'⟩ := h.created_cases hcreated
      exact ⟨_, hp', deployment_of_creating ht⟩

omit [BEq V] in
/-- A late event is one for a process that is over. -/
lemma terminal_of_late {p : TenantProcess V} {late : Bool} (h : p.late = .ok late) :
    p.rows.process.status.terminal = late := by
  rw [TenantProcess.late] at h
  split_ifs at h with hterminal
  · rw [hterminal]
    exact Except.ok.inj h
  · rw [Bool.not_eq_true] at hterminal
    rw [hterminal]
    exact Except.ok.inj h

omit [BEq V] in
/-- The tenant is assigned to the deployment that an ingestion was given. -/
lemma assigned_of_admitted {c : IngestInput V} {status : Option TenantStatus} {assigned : String}
    (h : requireIngressTenant T c.deploymentId status db = .ok assigned) :
    Assigned c assigned db := by
  unfold requireIngressTenant at h
  split at h
  · cases h
  · split_ifs at h with hother
    obtain rfl := Except.ok.inj h
    refine ⟨rfl, fun d hd => ?_⟩
    rw [hd] at hother
    simp at hother
    exact hother.symm

/-- A call knows what it has looked up. -/
lemma Step.knows (h : Step T t x db t' db' obs) (hfresh : t.Fresh db)
    (hpasses : ∀ slot c, x = .call (.ingest slot c) → c.Passes) (hok : TenantOk T db log)
    (ht : t.Knows T db) : t'.Knows T db' := by
  cases h with
  | halt ended => obtain rfl | ⟨o, rfl⟩ := ended <;> trivial
  | start c started =>
      cases c with
      | process id c now =>
          rw [Call.start] at started
          split_ifs at started with hservice
          obtain rfl := Option.some.inj started
          obtain ⟨p, hp⟩ := Option.isSome_iff_exists.mp hservice.2
          exact ⟨p, hp, aware_start hservice.1 now (hok.rows id p hp)⟩
      | dispatchOne d =>
          obtain rfl := Option.some.inj started
          exact fun m hm => by cases hm
      | requeue command =>
          obtain rfl := Option.some.inj started
          exact fun m hm => by cases hm
      | ingest slot c =>
          obtain rfl := Option.some.inj started
          exact ⟨hpasses slot c rfl, trivial⟩
      | resolve slot c =>
          obtain rfl := Option.some.inj started
          trivial
      | assign c =>
          obtain rfl := Option.some.inj started
          trivial
  | process id outboxId now p v v' y rows obs found moved written =>
      obtain ⟨q, hq, haware⟩ := ht
      obtain rfl := Option.some.inj (hq.symm.trans found)
      have hown := RowsOk.own (.of_advance moved) (hfresh q hq) (hok.rows id q hq) haware
      refine ⟨{ q with rows := rows }, ?_, hown.2⟩
      obtain ⟨-, rfl⟩ | ⟨m, -, henqueued⟩ := written
      · exact process_put_self hq
      · rw [Database.process, (enqueue_ok henqueued).2.1]
        exact process_put_self hq
  | delivery v v' y delivery obs moved =>
      intro m hm
      subst hm
      cases moved with
      | halt resting => cases resting
  | lockIngest => exact ⟨ht.1, trivial⟩
  | admitIngest slot c status assigned admitted => exact ⟨ht.1, assigned_of_admitted admitted⟩
  | keyIngest => exact ht
  | findProcess => exact ht
  | trigger slot c assigned processId b bootstrap => exact ⟨ht.1, bootstrap, ht.2⟩
  | holdIngest slot c assigned processId p late found checked =>
      exact ⟨ht.1, p, found, terminal_of_late checked⟩
  | holdResolve slot c reason assigned q p late found checked =>
      exact ⟨p, found, terminal_of_late checked⟩
  | holdAssign => rfl
  | skipAssign => exact ⟨ht, fun h => absurd rfl h⟩
  | countAssign c target reason previous none_ =>
      refine ⟨ht, fun id p hp => ?_⟩
      have hall := List.filter_eq_nil_iff.mp none_ p (lookup_mem hp).1
      simpa using hall
  | clearAssign c target reason previous none_ =>
      refine ⟨ht.1, fun _ id p hp hprevious => ⟨ht.2 id p hp, fun m hm hid => ?_⟩⟩
      have hall := List.filter_eq_nil_iff.mp none_ m hm
      by_contra hstatus
      refine hall ?_
      obtain ⟨hmem, hpid⟩ := lookup_mem hp
      have hany : (db.processes.any fun p =>
          m.processInstanceId = some p.id && p.deploymentId = previous) = true := by
        rw [List.any_eq_true]
        exact ⟨p, hmem, by simp [hid, hpid, hprevious]⟩
      simp [hstatus, hany]
  | _ => trivial

/-- The status of a process that is held stays. -/
lemma Holds.other {id : UUID} {late : Bool} (hheld : Holds db id late)
    (h : Step T t x db t' db' obs) (hfree : .process id .process ∉ t.locks) :
    Holds db' id late := by
  obtain ⟨p, hp, hlate⟩ := hheld
  obtain hsame | ⟨q, v, v', y, rows, obs', hinner, hq, hstep, hq'⟩ |
    ⟨slot, c, assigned, b, now, -, hnone, -⟩ := h.process_cases id
  · exact ⟨p, hsame.trans hp, hlate⟩
  · obtain rfl := Option.some.inj (hq.symm.trans hp)
    refine ⟨_, hq', ?_⟩
    have hlock : ProcessLock.process ∉ v.locks := fun hl => hfree (mem_locks_of_inner hinner hl)
    dsimp only
    rw [(hstep.process_frame hlock).1]
    exact hlate
  · rw [hp] at hnone
    cases hnone

/-- A call knows what it has looked up next to the statements of others. -/
lemma Step.knows_other (h : Step T t x db t' db' obs) (hfresh : t.Fresh db)
    (hok : TenantOk T db log) (ht : t.Knows T db) (hlocks : ∀ l ∈ u.locks, l ∉ t.locks)
    (hu : u.Knows T db) : u.Knows T db' := by
  cases u with
  | process id v =>
      obtain ⟨p, hp, haware⟩ := hu
      obtain hsame | ⟨q, v₀, v', y, rows, obs', hinner, hq, hstep, hq'⟩ |
        ⟨slot, c, assigned, b, now, -, hnone, -⟩ := h.process_cases id
      · exact ⟨p, hsame.trans hp, haware⟩
      · obtain rfl := Option.some.inj (hq.symm.trans hp)
        refine ⟨_, hq', Aware.other hstep (committed_of_inner hfresh hinner hq) ?_
          (hok.rows id q hq) (aware_of_inner ht hinner hq) haware⟩
        exact fun l hl hl₀ => hlocks _ (List.mem_map_of_mem hl) (mem_locks_of_inner hinner hl₀)
      · rw [hp] at hnone
        cases hnone
  | delivery v => exact hu
  | ingesting slot c i =>
      have hassigned {assigned : String}
          (hslot : .deployment slot ∈ (Stage.ingesting slot c i).locks)
          (hu : Assigned c assigned db) : Assigned c assigned db' := by
        rw [Assigned, h.deployment_frame (.inr ⟨slot, rfl⟩) (hlocks _ hslot)]
        exact hu
      refine ⟨hu.1, ?_⟩
      cases i with
      | opening => trivial
      | locked => trivial
      | admitted assigned => exact hassigned List.mem_cons_self hu.2
      | keyed assigned => exact hassigned List.mem_cons_self hu.2
      | found assigned processId => exact hassigned List.mem_cons_self hu.2
      | holding assigned processId late =>
          refine Holds.other hu.2 h (hlocks _ ?_)
          simp [Stage.locks, Ingesting.locks]
      | creating assigned b processId =>
          exact ⟨hu.2.1, hassigned List.mem_cons_self hu.2.2⟩
  | resolving slot c r =>
      cases r with
      | holding reason assigned q late =>
          refine Holds.other hu h (hlocks _ ?_)
          simp [Stage.locks, Resolving.locks]
      | _ => trivial
  | assigning c a =>
      -- the tenant is held, with all slots: nobody moves it or creates a process
      have hsame (hlock : .tenant ∈ (Stage.assigning c a : Stage V N).locks) :
          db'.deploymentId = db.deploymentId := h.deployment_frame (.inl rfl) (hlocks _ hlock)
      have before (hslots : ∀ slot, .deployment slot ∈ (Stage.assigning c a : Stage V N).locks)
          {id : UUID} {p' : TenantProcess V} (hp' : db'.process id = some p') :
          ∃ p, db.process id = some p ∧ p'.deploymentId = p.deploymentId ∧
            (p.rows.process.status.terminal = true → p'.rows.process.status.terminal = true) := by
        cases hp : db.process id with
        | some p =>
            obtain ⟨q, hq, hdeployment, -, hterminal⟩ := h.process_kept hfresh hok ht hp
            obtain rfl := Option.some.inj (hq.symm.trans hp')
            exact ⟨p, rfl, hdeployment, hterminal⟩
        | none =>
            obtain hsame | ⟨q, v, v', y, rows, obs', -, hq, -⟩ |
              ⟨slot, c', assigned, b, now, rfl, -⟩ := h.process_cases id
            · rw [hsame, hp] at hp'
              cases hp'
            · rw [hp] at hq
              cases hq
            · exact absurd creating_locks (hlocks _ (hslots slot))
      have hslots (slot : Fin N) :
          .deployment slot ∈ (.tenant :: allSlots N : List (TenantLock N)) :=
        List.mem_cons_of_mem _ (List.mem_map_of_mem (List.mem_finRange slot))
      cases a with
      | opening => trivial
      | locked target reason => trivial
      | held target reason previous => exact Eq.trans hu (hsame List.mem_cons_self).symm
      | counted target reason previous =>
          refine ⟨hu.1.trans (hsame List.mem_cons_self).symm, fun id p' hp' => ?_⟩
          obtain ⟨p, hp, -, hterminal⟩ := before hslots hp'
          exact hterminal (hu.2 id p hp)
      | cleared target reason previous =>
          refine ⟨hu.1.trans (hsame List.mem_cons_self).symm,
            fun hassigned id p' hp' hprevious => ?_⟩
          obtain ⟨p, hp, hdeployment, hterminal⟩ := before hslots hp'
          have hover := hu.2 hassigned id p hp (hdeployment.symm.trans hprevious)
          exact ⟨hterminal hover.1, (h.over_kept hok ht).2 id p hp hover⟩
  | _ => trivial

end

/-! ### Runs -/

variable {T : Tenant V}

/-- The rule for runs in which the reviews decide on committed rows. -/
lemma tenantJoint : Joint (tenantCalls T N)
    (fun t x db _ => t.Fresh db ∧ ∀ slot c, x = .call (.ingest slot c) → c.Passes)
    (fun _ _ _ _ => True) (TenantOk T) (fun t db _ => t.Knows T db) where
  own hnext hassumed hok ht := by
    have h := Step.of_next hnext
    exact ⟨hok.step h hassumed.1 ht, h.knows hassumed.1 hassumed.2 hok ht⟩
  other hnext hassumed _ hlocks hok ht hu :=
    (Step.of_next hnext).knows_other hassumed.1 hok ht hlocks hu

omit [BEq V] in
/-- A tenant of a deployment, without processes. -/
def newTenant (n : ℕ) (deploymentId : String) :
    Pool n (Database V) (Stage V N) (TenantEvent V) where
  store := { deploymentId := deploymentId }
  calls := fun _ => .idle
  log := []

omit [BEq V] in
/-- The step is none of a review that decides on rows its session has loaded before the committed
ones, and an ingestion with a bootstrap passes its deployment. -/
def CommittedStep {n : ℕ} (s : Pool n (Database V) (Stage V N) (TenantEvent V))
    (m : Fin n × CallInput V N) : Prop :=
  (s.calls m.1).Fresh s.store ∧ ∀ slot c, m.2 = .call (.ingest slot c) → c.Passes

lemma newTenant_holds (n : ℕ) (deploymentId : String) :
    Joint.Holds (tenantCalls T N) (TenantOk T) (fun t db _ => t.Knows T db)
      (newTenant n deploymentId) := by
  refine ⟨?_, ⟨?_, ?_, ?_, ?_, ?_⟩, fun i => ?_⟩
  · intro i j l hi
    cases hi
  · exact List.Pairwise.nil
  · exact List.Pairwise.nil
  · intro id p hp
    cases hp
  · intro id p hp
    cases hp
  · intro id d hd
    cases hd
  · trivial

/-- **Moves strand nothing.**  In every run in which the reviews decide on committed rows: a
process that is not over, created while the tenant was assigned, is one of the deployment of the
tenant; and all messages of the processes of another deployment are published. -/
theorem deployments_strand_nothing (T : Tenant V) {n : ℕ}
    {s : Pool n (Database V) (Stage V N) (TenantEvent V)} {ms : List (Fin n × CallInput V N)}
    {deploymentId : String}
    (h : Runs (tenantCalls T N) CommittedStep (newTenant n deploymentId) ms s) :
    (∀ p ∈ s.store.processes, ∀ d, .created p.id d ∈ s.log → d ≠ unassigned →
      p.rows.process.status.terminal = false → p.deploymentId = s.store.deploymentId) ∧
    ∀ d, d ≠ unassigned → s.store.deploymentId ≠ d → s.store.outstanding d = [] := by
  have hok : TenantOk T s.store s.log :=
    (tenantJoint.runs (fun _ _ _ hG => hG) (fun _ _ _ _ _ _ => trivial) h
      (newTenant_holds n deploymentId)).common
  have found {p : TenantProcess V} (hp : p ∈ s.store.processes) : s.store.process p.id = some p :=
    hok.processes.lookup_eq_some.mpr ⟨hp, rfl⟩
  constructor
  · intro p hp d hcreated hassigned hlive
    obtain ⟨p', hp', hd⟩ := hok.created p.id d hcreated
    obtain rfl := Option.some.inj (hp'.symm.trans (found hp))
    by_contra haway
    rw [← hd] at hassigned
    have hover := (hok.away _ p' hp' hassigned haway).1
    rw [hlive] at hover
    cases hover
  · intro d hassigned haway
    refine List.filter_eq_nil_iff.mpr fun m hm houtstanding => ?_
    rw [Bool.and_eq_true, decide_eq_true_eq] at houtstanding
    obtain ⟨hstatus, hany⟩ := houtstanding
    obtain ⟨p, hp, hof⟩ := List.any_eq_true.mp hany
    rw [Bool.and_eq_true, decide_eq_true_eq, decide_eq_true_eq] at hof
    obtain ⟨hid, rfl⟩ := hof
    exact hstatus ((hok.away _ p (found hp) hassigned haway.symm).2 m hm hid)

/-! ### A tenant that moves -/

/-- A tenant with the services of the sample. -/
def sampleTenant : Tenant ℕ where
  tenantId := "tenant"
  services := fun _ => sampleServices false
  thread := fun a => a
  attempt := fun a key => a ++ key

section

variable {n : ℕ} (i : Fin n)

/-- A call with its answers. -/
def tenantMoves (c : Call ℕ N) (answers : List (Answer ℕ)) : List (Fin n × CallInput ℕ N) :=
  (i, .call c) :: answers.map fun x => (i, .answer x)

/-- A call on a process with its answers; its message has the identity of the call. -/
def onProcess (processId outboxId : UUID) (c : ProcessCall ℕ) (answers : List (ProcessAnswer ℕ)) :
    List (Fin n × CallInput ℕ N) :=
  tenantMoves i (.process processId c 0) (answers.map fun x => .process x outboxId 0)

/-- An event creates a process of the deployment. -/
def triggered (slot : Fin N) (processId : UUID) (deploymentId : String) :
    List (Fin n × CallInput ℕ N) :=
  tenantMoves i
    (.ingest slot
      { event := ⟨"event", "update", 0, []⟩
        externalReferences := [⟨"provider", "order", "reference"⟩]
        bootstrap := some { deploymentId := deploymentId }
        deploymentId := some deploymentId })
    [.go, .tenant (some .active), .go, .correlated (.trigger processId), .commit none "m0" 0]

/-- A decision completes the process. -/
def finishes (processId : UUID) : List (Fin n × CallInput ℕ N) :=
  onProcess i processId "none" (.applyDecision (completion "turn" "decision"))
    [.go, .go, .sources [] [], .go, .go]

/-- A dispatcher delivers a message of the process. -/
def delivers (processId : UUID) : List (Fin n × CallInput ℕ N) :=
  tenantMoves i (.dispatchOne { processes := [processId] })
    [.delivery (.claim 0 [] "token"), .delivery .started, .delivery (.times 0 0)]

/-- The tenant is assigned to the deployment. -/
def assigns (deploymentId : String) : List (Fin n × CallInput ℕ N) :=
  tenantMoves i (.assign ⟨deploymentId, "operator", "because"⟩)
    [.go, .tenant (some .active), .go, .go, .go]

end

/-- A computed check that an ingestion with a bootstrap passes its deployment. -/
def passes : CallInput ℕ N → Bool
  | .call (.ingest _ c) => c.bootstrap.all fun b => c.deploymentId = some b.deploymentId
  | _ => true

lemma passes_sound {x : CallInput ℕ N} (h : passes x = true) (slot : Fin N) (c : IngestInput ℕ)
    (hx : x = .call (.ingest slot c)) : c.Passes := by
  subst hx
  intro b hb
  rw [passes, hb] at h
  exact of_decide_eq_true h

/-- A computed check of `CommittedStep`. -/
def committedStep {n : ℕ} (s : Pool n (Database ℕ) (Stage ℕ N) (TenantEvent ℕ))
    (m : Fin n × CallInput ℕ N) : Bool :=
  match s.calls m.1 with
  | .process _ (.action _ _ _) | .process _ (.inspected _ _ _ _ _) => false
  | _ => passes m.2

lemma committedStep_sound {n : ℕ} {s : Pool n (Database ℕ) (Stage ℕ N) (TenantEvent ℕ)}
    {m : Fin n × CallInput ℕ N} (h : committedStep s m = true) : CommittedStep s m := by
  rw [committedStep] at h
  rw [CommittedStep]
  cases ht : s.calls m.1 with
  | process id u =>
      rw [ht] at h
      cases u with
      | action => cases h
      | inspected => cases h
      | _ => exact ⟨fun _ _ => trivial, passes_sound h⟩
  | _ =>
      rw [ht] at h
      exact ⟨trivial, passes_sound h⟩

/-- A process is created, completed and its message delivered; then the tenant moves. -/
theorem deployments_strand_nothing_once :
    ∃ (ms : List (Fin 1 × CallInput ℕ 1)) (s : Pool 1 (Database ℕ) (Stage ℕ 1) (TenantEvent ℕ)),
    Runs (tenantCalls sampleTenant 1) CommittedStep (newTenant 1 "a") ms s ∧
    s.store.deploymentId = "b" ∧
    (∀ p ∈ s.store.processes, ∀ d, .created p.id d ∈ s.log → d ≠ unassigned →
      p.rows.process.status.terminal = false → p.deploymentId = s.store.deploymentId) ∧
    ∀ d, d ≠ unassigned → s.store.deploymentId ≠ d → s.store.outstanding d = [] := by
  let ms : List (Fin 1 × CallInput ℕ 1) := List.flatten
    [triggered 0 0 "process" "a", finishes 0 "process", delivers 0 "process", assigns 0 "b"]
  obtain ⟨s, hruns, hp⟩ := exists_runs (C := tenantCalls sampleTenant 1)
    (s := newTenant 1 "a") committedStep ms (fun s => s.store.deploymentId = "b")
    (by decide +kernel)
  have h := hruns.mono fun s m => committedStep_sound
  exact ⟨ms, s, h, of_decide_eq_true hp, deployments_strand_nothing sampleTenant h⟩

/-- A review is read while its approval is pending; a revision is requested, the process is
completed, its messages are delivered and the tenant moves; then the first review approves the
action, and there is a message for the process that the tenant has left. -/
theorem stranded_by_review :
    ∃ (ms : List (Fin 2 × CallInput ℕ 1)) (s : Pool 2 (Database ℕ) (Stage ℕ 1) (TenantEvent ℕ)),
    Runs (tenantCalls sampleTenant 1)
      (fun _ m => ∀ slot c, m.2 = .call (.ingest slot c) → c.Passes) (newTenant 2 "a") ms s ∧
    .moved "a" "b" ∈ s.log ∧ s.store.deploymentId = "b" ∧ s.store.outstanding "a" ≠ [] := by
  let read : List (ProcessAnswer ℕ) := [.action .go, .action .go, .action (.check none)]
  let take : List (ProcessAnswer ℕ) := [.action .go, .action (.time 0), .action (.check none)]
  let ms : List (Fin 2 × CallInput ℕ 1) := List.flatten
    [triggered 1 0 "process" "a",
      onProcess 1 "process" "none" (.action "action" (.persist (sampleProposal .requireApproval)))
        [.action .go, .inspection 0, .action (.check none)],
      onProcess 0 "process" "m1" (.action "action" (.review (sampleReview "c1" .approve))) read,
      onProcess 1 "process" "m2" (.action "action" (.review (sampleReview "c2" .requestRevision)))
        (read ++ take),
      finishes 1 "process", delivers 1 "process", delivers 1 "process", assigns 1 "b",
      take.map fun x => (0, .answer (.process x "m1" 0))]
  obtain ⟨s, hruns, hp⟩ := exists_runs (C := tenantCalls sampleTenant 1)
    (s := newTenant 2 "a") (fun _ m => passes m.2) ms
    (fun s => s.log.any (fun e => e matches .moved "a" "b") && s.store.deploymentId = "b" &&
      !(s.store.outstanding "a").isEmpty) (by decide +kernel)
  rw [Bool.and_eq_true, Bool.and_eq_true] at hp
  obtain ⟨⟨hmoved, hassigned⟩, houtstanding⟩ := hp
  refine ⟨ms, s, hruns.mono fun _ m => passes_sound, ?_, of_decide_eq_true hassigned, ?_⟩
  · obtain ⟨e, he, hmatch⟩ := List.any_eq_true.mp hmoved
    split at hmatch
    · exact he
    · cases hmatch
  · intro hempty
    rw [hempty] at houtstanding
    cases houtstanding

end TiramisuAgents.Tenancy
