import TiramisuAgents.Tenancy.Rows

/-!
What a step of a call of a tenant can be, and what it does to the deployment, the processes and
the outbox.

* `Step`, `Step.of_next`: the transitions.
* `Stage.inner`: the call on a process whose statement a commit makes.
* `Step.deployment_cases`, `Step.process_cases`, `Step.outbox_cases`: what is written.
-/

namespace TiramisuAgents.Tenancy

open Events (OutboxMessage)
open Tables

variable {V : Type} [BEq V] {N : ℕ}

/-- A step of a call. -/
inductive Step (T : Tenant V) : Stage V N → CallInput V N → Database V → Stage V N → Database V →
    List (TenantEvent V) → Prop
  | halt {t t' : Stage V N} {x : CallInput V N} {db : Database V}
      (ended : t' = .idle ∨ ∃ o, t' = .ended o) : Step T t x db t' db []
  | start {t t' : Stage V N} {db : Database V} (c : Call V N) (started : c.start db = some t') :
      Step T t (.call c) db t' db []
  | process {db db' : Database V} (id outboxId : UUID) (now : Time) (p : TenantProcess V)
      (u u' : ProcessStage V) (y : ProcessAnswer V) (rows : ProcessDatabase V)
      (obs : List (ProcessEvent V)) (found : db.process id = some p)
      (moved : advance (T.services id) u (.answer y) p.rows = some (u', rows, obs))
      (written : production T p outboxId now u y u' = none ∧ db' = db.put id rows ∨
        ∃ m, production T p outboxId now u y u' = some m ∧
          (db.put id rows).enqueue m.message = .ok db') :
      Step T (.process id u) (.answer (.process y outboxId now)) db (.process id u') db'
        (obs.map (.process id))
  | delivery {db : Database V} (u u' : Temporal.Stage) (y : Temporal.Answer)
      (delivery : Temporal.Database) (obs : List Temporal.DeliveryEvent)
      (moved : Temporal.Step u (.answer y) db.delivery u' delivery obs) :
      Step T (.delivery u) (.answer (.delivery y)) db (.delivery u')
        { db with delivery := delivery }
        (obs.map .delivery)
  | lockIngest {db : Database V} (slot : Fin N) (c : IngestInput V) :
      Step T (.ingesting slot c .opening) (.answer .go) db (.ingesting slot c .locked) db []
  | admitIngest {db : Database V} (slot : Fin N) (c : IngestInput V) (status : Option TenantStatus)
      (assigned : String)
      (admitted : requireIngressTenant T c.deploymentId status db = .ok assigned) :
      Step T (.ingesting slot c .locked) (.answer (.tenant status)) db
        (.ingesting slot c (.admitted assigned)) db []
  | keyIngest {db : Database V} (slot : Fin N) (c : IngestInput V) (assigned : String) :
      Step T (.ingesting slot c (.admitted assigned)) (.answer .go) db
        (.ingesting slot c (.keyed assigned)) db []
  | findProcess {db : Database V} (slot : Fin N) (c : IngestInput V) (assigned : String)
      (processId : UUID) :
      Step T (.ingesting slot c (.keyed assigned)) (.answer (.correlated (.process processId))) db
        (.ingesting slot c (.found assigned processId)) db []
  | quarantine {db : Database V} (slot : Fin N) (c : IngestInput V) (assigned : String)
      (q : QuarantinedEvent V) (x : CallInput V N) (o : Outcome) :
      Step T (.ingesting slot c (.keyed assigned)) x db (.ended o)
        { db with quarantine := db.quarantine ++ [q] } []
  | trigger {db : Database V} (slot : Fin N) (c : IngestInput V) (assigned : String)
      (processId : UUID) (b : ProcessBootstrap) (bootstrap : c.bootstrap = some b) :
      Step T (.ingesting slot c (.keyed assigned)) (.answer (.correlated (.trigger processId))) db
        (.ingesting slot c (.creating assigned b processId)) db []
  | holdIngest {db : Database V} (slot : Fin N) (c : IngestInput V) (assigned : String)
      (processId : UUID) (p : TenantProcess V) (late : Bool)
      (found : db.process processId = some p) (checked : p.late = .ok late) :
      Step T (.ingesting slot c (.found assigned processId)) (.answer .go) db
        (.ingesting slot c (.holding assigned processId late)) db []
  | ingest {db db' : Database V} (slot : Fin N) (c : IngestInput V) (assigned : String)
      (processId outboxId : UUID) (late : Bool) (now : Time) (o : Outcome)
      (received : db.receive T c.event processId late outboxId now = some (.ok db')) :
      Step T (.ingesting slot c (.holding assigned processId late))
        (.answer (.commit none outboxId now)) db (.ended o) db' []
  | create {db db' : Database V} (slot : Fin N) (c : IngestInput V) (assigned : String)
      (processId outboxId : UUID) (b : ProcessBootstrap) (now : Time) (o : Outcome)
      (new : db.process processId = none)
      (scheduled : Database.schedule
        { db with processes := db.processes ++ [b.process T processId c.event now] } c.event
        (b.process T processId c.event now) outboxId now = .ok db') :
      Step T (.ingesting slot c (.creating assigned b processId))
        (.answer (.commit none outboxId now)) db (.ended o) db' [.created processId db.deploymentId]
  | lockResolve {db : Database V} (slot : Fin N) (c : ResolveInput) (reason : String) :
      Step T (.resolving slot c .opening) (.answer .go) db
        (.resolving slot c (.locked reason)) db []
  | admitResolve {db : Database V} (slot : Fin N) (c : ResolveInput) (reason assigned : String)
      (x : CallInput V N) :
      Step T (.resolving slot c (.locked reason)) x db
        (.resolving slot c (.admitted reason assigned)) db []
  | keyResolve {db : Database V} (slot : Fin N) (c : ResolveInput) (reason assigned : String) :
      Step T (.resolving slot c (.admitted reason assigned)) (.answer .go) db
        (.resolving slot c (.commanded reason assigned)) db []
  | freshResolve {db : Database V} (slot : Fin N) (c : ResolveInput) (reason assigned : String) :
      Step T (.resolving slot c (.commanded reason assigned)) (.answer .go) db
        (.resolving slot c (.loading reason assigned)) db []
  | loadResolve {db : Database V} (slot : Fin N) (c : ResolveInput) (reason assigned : String)
      (x : CallInput V N) :
      Step T (.resolving slot c (.loading reason assigned)) x db
        (.resolving slot c (.loaded reason assigned)) db []
  | lockEvent {db : Database V} (slot : Fin N) (c : ResolveInput) (reason assigned : String)
      (q : QuarantinedEvent V) :
      Step T (.resolving slot c (.loaded reason assigned)) (.answer .go) db
        (.resolving slot c (.held reason assigned q)) db []
  | holdResolve {db : Database V} (slot : Fin N) (c : ResolveInput) (reason assigned : String)
      (q : QuarantinedEvent V) (p : TenantProcess V) (late : Bool)
      (found : db.process c.command.processInstanceId = some p) (checked : p.late = .ok late) :
      Step T (.resolving slot c (.held reason assigned q)) (.answer .go) db
        (.resolving slot c (.holding reason assigned q late)) db []
  | resolve {db written db' : Database V} (slot : Fin N) (c : ResolveInput)
      (reason assigned : String) (q : QuarantinedEvent V) (outboxId : UUID) (late : Bool)
      (now : Time) (o : Outcome) (deployment : written.deploymentId = db.deploymentId)
      (processes : written.processes = db.processes) (delivery : written.delivery = db.delivery)
      (received :
        written.receive T q.event c.command.processInstanceId late outboxId now = some (.ok db')) :
      Step T (.resolving slot c (.holding reason assigned q late))
        (.answer (.commit none outboxId now)) db (.ended o) db' []
  | lockAssign {db : Database V} (c : AssignInput) (target reason : String) :
      Step T (.assigning c .opening) (.answer .go) db (.assigning c (.locked target reason)) db []
  | holdAssign {db : Database V} (c : AssignInput) (target reason : String)
      (status : TenantStatus) :
      Step T (.assigning c (.locked target reason)) (.answer (.tenant (some status))) db
        (.assigning c (.held target reason db.deploymentId)) db []
  | skipAssign {db : Database V} (c : AssignInput) (target reason : String) :
      Step T (.assigning c (.held target reason unassigned)) (.answer .go) db
        (.assigning c (.cleared target reason unassigned)) db []
  | countAssign {db : Database V} (c : AssignInput) (target reason previous : String)
      (none_ : db.nonterminal = []) :
      Step T (.assigning c (.held target reason previous)) (.answer .go) db
        (.assigning c (.counted target reason previous)) db []
  | clearAssign {db : Database V} (c : AssignInput) (target reason previous : String)
      (none_ : db.outstanding previous = []) :
      Step T (.assigning c (.counted target reason previous)) (.answer .go) db
        (.assigning c (.cleared target reason previous)) db []
  | assign {db : Database V} (c : AssignInput) (target reason previous : String)
      (event : TenantDeploymentEvent) :
      Step T (.assigning c (.cleared target reason previous)) (.answer .go) db
        (.ended (.assigned previous target true))
        { db with
          deploymentId := target
          deploymentEvents := db.deploymentEvents ++ [event] } [.moved previous target]

namespace Step

variable {T : Tenant V} {t t' : Stage V N} {x : CallInput V N} {db db' : Database V}
  {obs : List (TenantEvent V)}

lemma of_stop {o : Outcome} (h : Stage.stop o db = some (t', db', obs)) :
    Step T t x db t' db' obs := by
  cases h
  exact .halt (.inr ⟨o, rfl⟩)

lemma of_keep {u : Stage V N} (h : u.keep db = some (t', db', obs)) (hu : Step T t x db u db []) :
    Step T t x db t' db' obs := by
  cases h
  exact hu

/-- A statement of a call on a process. -/
lemma of_process {id outboxId : UUID} {u : ProcessStage V} {y : ProcessAnswer V} {now : Time}
    (h : processStatement T id u y outboxId now db = some (t', db', obs)) :
    Step T (.process id u) (.answer (.process y outboxId now)) db t' db' obs := by
  rw [processStatement] at h
  split at h
  · cases h
  · rename_i p hfound
    split at h
    · cases h
    · rename_i u' rows obs' hmoved
      split at h
      · rename_i hnone
        cases h
        exact .process id outboxId now p u u' y rows obs' hfound hmoved (.inl ⟨hnone, rfl⟩)
      · rename_i m hproduced
        split at h
        · exact of_stop h
        · rename_i db₁ henqueued
          cases h
          exact .process id outboxId now p u u' y rows obs' hfound hmoved
            (.inr ⟨m, hproduced, henqueued⟩)

/-- A statement of `ingest`. -/
lemma of_ingesting {slot : Fin N} {c : IngestInput V} {i : Ingesting} {y : Answer V}
    (h : i.statement T slot c y db = some (t', db', obs)) :
    Step T (.ingesting slot c i) (.answer y) db t' db' obs := by
  unfold Ingesting.statement at h
  split at h
  · split_ifs at h
    · exact of_stop h
    · exact of_keep h (.lockIngest slot c)
  · split at h
    · exact of_stop h
    · exact of_keep h (.admitIngest slot c _ _ ‹_›)
  · exact of_keep h (.keyIngest slot c _)
  · split_ifs at h
    · exact of_stop h
    · exact of_stop h
    · split at h
      · exact of_keep h (.findProcess slot c _ _)
      · split_ifs at h
        cases h
        exact .quarantine slot c _ _ _ _
      · exact of_keep h (.trigger slot c _ _ _ ‹_›)
      · cases h
  · split at h
    · exact of_stop h
    · rename_i p hfound
      split at h
      · exact of_stop h
      · exact of_keep h (.holdIngest slot c _ _ p _ hfound ‹_›)
  · exact of_stop h
  · split at h
    · cases h
    · exact of_stop h
    · cases h
      exact .ingest slot c _ _ _ _ _ _ ‹_›
  · exact of_stop h
  · rw [commitCreation] at h
    split_ifs at h with hused
    · exact of_stop h
    · rw [Option.not_isSome_iff_eq_none] at hused
      split at h
      · exact of_stop h
      · cases h
        exact .create slot c _ _ _ _ _ _ hused ‹_›
  · cases h

/-- A statement of `resolve`. -/
lemma of_resolving {slot : Fin N} {c : ResolveInput} {r : Resolving V} {y : Answer V}
    (h : r.statement T slot c y db = some (t', db', obs)) :
    Step T (.resolving slot c r) (.answer y) db t' db' obs := by
  unfold Resolving.statement at h
  split at h
  · dsimp only at h
    split_ifs at h
    · exact of_stop h
    · exact of_keep h (.lockResolve slot c _)
  · split at h
    · exact of_stop h
    · exact of_keep h (.admitResolve slot c _ _ _)
  · exact of_keep h (.keyResolve slot c _ _)
  · split at h
    · exact of_stop h
    · exact of_keep h (.freshResolve slot c _ _)
  · split at h
    · exact of_stop h
    · split_ifs at h
      · exact of_stop h
      · split at h
        · exact of_stop h
        · exact of_keep h (.loadResolve slot c _ _ _)
  · split at h
    · exact of_stop h
    · exact of_keep h (.lockEvent slot c _ _ _)
  · split at h
    · exact of_stop h
    · rename_i p hfound
      split_ifs at h
      · exact of_stop h
      · split at h
        · exact of_stop h
        · exact of_keep h (.holdResolve slot c _ _ _ p _ hfound ‹_›)
  · exact of_stop h
  · rw [commitResolution] at h
    dsimp only at h
    split_ifs at h
    · exact of_stop h
    · split at h
      · cases h
      · exact of_stop h
      · rename_i hreceived
        cases h
        refine .resolve slot c _ _ _ _ _ _ _ ?_ ?_ ?_ hreceived
        · rfl
        · rfl
        · rfl
  · cases h

/-- A statement of `assign`. -/
lemma of_assigning {c : AssignInput} {a : Assigning} {y : Answer V}
    (h : a.statement T c y db = some (t', db', obs)) :
    Step (N := N) T (.assigning c a) (.answer y) db t' db' obs := by
  unfold Assigning.statement at h
  split at h
  · split at h
    · exact of_stop h
    · exact of_keep h (.lockAssign c _ _)
  · exact of_stop h
  · split_ifs at h
    · exact of_stop h
    · exact of_keep h (.holdAssign c _ _ _)
  · split_ifs at h with hunassigned hnone
    · obtain rfl := hunassigned
      exact of_keep h (.skipAssign c _ _)
    · exact of_keep h (.countAssign c _ _ _ (List.isEmpty_iff.mp hnone))
    · exact of_stop h
  · split_ifs at h with hnone
    · exact of_keep h (.clearAssign c _ _ _ (List.isEmpty_iff.mp hnone))
    · exact of_stop h
  · cases h
    exact .assign c _ _ _ _
  · cases h

/-- What a step is. -/
lemma of_next (h : next T t x db = some (t', db', obs)) : Step T t x db t' db' obs := by
  cases x with
  | call c =>
      rw [next] at h
      split_ifs at h
      obtain ⟨u, hstarted, h⟩ := Option.bind_eq_some_iff.mp h
      exact of_keep h (.start c hstarted)
  | crash =>
      cases h
      exact .halt (.inl rfl)
  | answer y =>
      rw [next] at h
      unfold Stage.statement at h
      split at h
      · exact of_process h
      · obtain ⟨⟨u', delivery, obs'⟩, hnext, hr⟩ := Option.map_eq_some_iff.mp h
        cases hr
        exact .delivery _ _ _ _ _ (Temporal.Step.of_next hnext)
      · exact of_ingesting h
      · exact of_resolving h
      · exact of_assigning h
      · cases h

end Step

/-! ### What is written -/

/-- The call on a process that a stage makes or is about to make. -/
def Stage.inner : Stage V N → Option (UUID × ProcessStage V)
  | .process id stage => some (id, stage)
  | .ingesting _ c (.holding _ id _) => some (id, .ingesting c.event .locked)
  | .resolving _ c (.holding _ _ q _) =>
      some (c.command.processInstanceId, .ingesting q.event .locked)
  | _ => none

omit [BEq V] in
/-- It has its locks. -/
lemma mem_locks_of_inner {t : Stage V N} {id : UUID} {u : ProcessStage V}
    (h : t.inner = some (id, u)) {l : ProcessLock} (hl : l ∈ u.locks) :
    TenantLock.process id l ∈ t.locks := by
  unfold Stage.inner at h
  split at h
  · cases h
    exact List.mem_map_of_mem hl
  · cases h
    rw [ProcessStage.locks, List.mem_singleton] at hl
    rw [hl]
    simp [Stage.locks, Ingesting.locks]
  · cases h
    rw [ProcessStage.locks, List.mem_singleton] at hl
    rw [hl]
    simp [Stage.locks, Resolving.locks]
  · cases h

section

omit [BEq V]

variable {db db' : Database V} {id id' : UUID} {rows : ProcessDatabase V} {m : OutboxMessage}

@[simp] lemma put_deploymentId : (db.put id rows).deploymentId = db.deploymentId := rfl

@[simp] lemma put_delivery : (db.put id rows).delivery = db.delivery := rfl

/-- The processes after the rows of one are written. -/
lemma process_put :
    (db.put id rows).process id' =
      (db.process id').map fun p => if p.id = id then { p with rows := rows } else p :=
  lookup_modify fun _ => rfl

lemma process_put_self {p : TenantProcess V} (h : db.process id = some p) :
    (db.put id rows).process id = some { p with rows := rows } := by
  rw [process_put, h, Option.map_some, if_pos (lookup_mem h).2]

lemma process_put_of_ne (h : id' ≠ id) : (db.put id rows).process id' = db.process id' := by
  rw [process_put]
  cases hfound : db.process id' with
  | none => rfl
  | some p =>
      have hid : p.id = id' := (lookup_mem hfound).2
      rw [Option.map_some, if_neg]
      rw [hid]
      exact h

/-- What the outbox is after an insert. -/
def Inserted (db db' : Database V) (m : OutboxMessage) : Prop :=
  db'.delivery.outbox = db.delivery.outbox ∨
    lookup OutboxMessage.id m.id db.delivery.outbox = none ∧
      db'.delivery.outbox = db.delivery.outbox ++ [m]

lemma enqueue_ok (h : db.enqueue m = .ok db') :
    db'.deploymentId = db.deploymentId ∧ db'.processes = db.processes ∧ Inserted db db' m := by
  rw [Database.enqueue] at h
  split_ifs at h with hstored hused
  · obtain rfl := Except.ok.inj h
    exact ⟨rfl, rfl, .inl rfl⟩
  · obtain rfl := Except.ok.inj h
    exact ⟨rfl, rfl, .inr ⟨by simpa using hused, rfl⟩⟩

lemma schedule_ok {e : CanonicalEvent V} {p : TenantProcess V} {outboxId : UUID} {now : Time}
    (h : db.schedule e p outboxId now = .ok db') :
    db'.deploymentId = db.deploymentId ∧ db'.processes = db.processes ∧
      ∃ m, m.processInstanceId = some p.id ∧ Inserted db db' m := by
  rw [Database.schedule] at h
  split at h
  · split_ifs at h
    obtain rfl := Except.ok.inj h
    let m := (Events.Production.event outboxId e.eventId e.eventType p.id p.workflowId now).message
    exact ⟨rfl, rfl, m, rfl, .inl rfl⟩
  · obtain ⟨hdeployment, hprocesses, hinserted⟩ := enqueue_ok h
    exact ⟨hdeployment, hprocesses, _, rfl, hinserted⟩

/-- The message that a call enqueues is one for its process. -/
lemma production_process {T : Tenant V} {p : TenantProcess V} {outboxId : UUID} {now : Time}
    {u u' : ProcessStage V} {y : ProcessAnswer V} {m : Events.Production}
    (h : production T p outboxId now u y u' = some m) :
    m.message.processInstanceId = some p.id := by
  unfold production at h
  split at h
  · obtain rfl := Option.some.inj h
    rw [controlProduction]
    split_ifs <;> rfl
  · obtain rfl := Option.some.inj h
    rfl
  · split_ifs at h
    obtain rfl := Option.some.inj h
    rfl
  · cases h

end

section

variable {T : Tenant V} {t t' : Stage V N} {x : CallInput V N} {db db' : Database V}
  {obs : List (TenantEvent V)}

/-- What an event that is received does. -/
lemma receive_ok {e : CanonicalEvent V} {id outboxId : UUID} {late : Bool} {now : Time}
    (h : db.receive T e id late outboxId now = some (.ok db')) :
    ∃ p u' rows obs, db.process id = some p ∧
      ProcessStep (T.services id) (.ingesting e .locked) (.answer .go) p.rows u' rows obs ∧
      db'.deploymentId = db.deploymentId ∧ db'.processes = (db.put id rows).processes ∧
      (db'.delivery.outbox = db.delivery.outbox ∨
        late = false ∧ ∃ m, m.processInstanceId = some id ∧ Inserted db db' m) := by
  rw [Database.receive] at h
  obtain ⟨p, hfound, h⟩ := Option.bind_eq_some_iff.mp h
  obtain ⟨⟨u', rows, obs⟩, hmoved, h⟩ := Option.map_eq_some_iff.mp h
  refine ⟨p, u', rows, obs, hfound, ProcessStep.of_advance hmoved, ?_⟩
  cases late with
  | true =>
      obtain rfl := Except.ok.inj h
      exact ⟨rfl, rfl, .inl rfl⟩
  | false =>
      obtain ⟨hdeployment, hprocesses, m, hid, hinserted⟩ := schedule_ok h
      rw [(lookup_mem hfound).2] at hid
      exact ⟨hdeployment, hprocesses, .inr ⟨rfl, m, hid, hinserted⟩⟩

/-- What an update of the rows of a process does to the processes. -/
def Moved (T : Tenant V) (t : Stage V N) (db db' : Database V) (id : UUID) : Prop :=
  ∃ p u u' y rows obs, t.inner = some (id, u) ∧ db.process id = some p ∧
    ProcessStep (T.services id) u (.answer y) p.rows u' rows obs ∧
    db'.process id = some { p with rows := rows }

lemma process_written {id : UUID} {p : TenantProcess V} {u u' : ProcessStage V}
    {y : ProcessAnswer V} {rows : ProcessDatabase V} {obs : List (ProcessEvent V)}
    (hinner : t.inner = some (id, u)) (hfound : db.process id = some p)
    (hmoved : ProcessStep (T.services id) u (.answer y) p.rows u' rows obs)
    (hprocesses : db'.processes = (db.put id rows).processes) (id' : UUID) :
    db'.process id' = db.process id' ∨ Moved T t db db' id' := by
  have hwritten (k : UUID) : db'.process k = (db.put id rows).process k := by
    rw [Database.process, hprocesses]
    rfl
  by_cases hid : id' = id
  · subst hid
    refine .inr ⟨p, u, u', y, rows, obs, hinner, hfound, hmoved, ?_⟩
    rw [hwritten, process_put_self hfound]
  · rw [hwritten, process_put_of_ne hid]
    exact .inl rfl

/-- **What a step does to a process**: nothing, a statement of its call, or its creation. -/
theorem Step.process_cases (h : Step T t x db t' db' obs) (id : UUID) :
    db'.process id = db.process id ∨ Moved T t db db' id ∨
    ∃ slot c assigned b now, t = .ingesting slot c (.creating assigned b id) ∧
      db.process id = none ∧ db'.process id = some (b.process T id c.event now) := by
  cases h with
  | process pid outboxId now p u u' y rows obs found moved written =>
      have hstep := ProcessStep.of_advance moved
      obtain ⟨-, rfl⟩ | ⟨m, -, henqueued⟩ := written
      · exact (process_written rfl found hstep rfl id).imp_right .inl
      · exact (process_written rfl found hstep (enqueue_ok henqueued).2.1 id).imp_right .inl
  | ingest slot c assigned pid outboxId late now o received =>
      obtain ⟨p, u', rows, obs, hfound, hstep, -, hprocesses, -⟩ := receive_ok received
      exact (process_written rfl hfound hstep hprocesses id).imp_right .inl
  | resolve slot c reason assigned q outboxId late now o hdeployment hprocesses hdelivery
      received =>
      obtain ⟨p, u', rows, obs, hfound, hstep, -, hwritten, -⟩ := receive_ok received
      have hfound' : db.process c.command.processInstanceId = some p := by
        rw [Database.process, ← hprocesses]
        exact hfound
      refine (process_written rfl hfound' hstep ?_ id).imp_right .inl
      rw [hwritten, Database.put, Database.put, hprocesses]
  | create slot c assigned pid outboxId b now o new scheduled =>
      have hprocesses := (schedule_ok scheduled).2.1
      have hcreated : db'.process id = lookup TenantProcess.id id
          (db.processes ++ [b.process T pid c.event now]) := by
        rw [Database.process, hprocesses]
      by_cases hid : id = pid
      · subst hid
        refine .inr (.inr ⟨slot, c, assigned, b, now, rfl, new, ?_⟩)
        rw [hcreated]
        exact lookup_concat_self new rfl
      · refine .inl ?_
        rw [hcreated]
        exact lookup_concat_of_ne fun h => hid h.symm
  | _ => exact .inl rfl

/-- The deployment of a tenant is written by an assignment. -/
lemma Step.deployment_cases (h : Step T t x db t' db' obs) :
    db'.deploymentId = db.deploymentId ∨
    ∃ c target reason previous, t = .assigning c (.cleared target reason previous) ∧
      db'.deploymentId = target ∧ db'.processes = db.processes ∧
      db'.delivery = db.delivery ∧ obs = [.moved previous target] := by
  cases h with
  | process pid outboxId now p u u' y rows obs found moved written =>
      obtain ⟨-, rfl⟩ | ⟨m, -, henqueued⟩ := written
      · exact .inl rfl
      · exact .inl (enqueue_ok henqueued).1
  | ingest slot c assigned pid outboxId late now o received =>
      obtain ⟨p, u', rows, obs, -, -, hdeployment, -⟩ := receive_ok received
      exact .inl hdeployment
  | resolve slot c reason assigned q outboxId late now o hdeployment hprocesses hdelivery
      received =>
      obtain ⟨p, u', rows, obs, -, -, hwritten, -⟩ := receive_ok received
      exact .inl (hwritten.trans hdeployment)
  | create slot c assigned pid outboxId b now o new scheduled =>
      exact .inl (schedule_ok scheduled).1
  | assign c target reason previous event =>
      exact .inr ⟨c, target, reason, previous, rfl, rfl, rfl, rfl, rfl⟩
  | _ => exact .inl rfl

/-- The stage enqueues a message for a process, or it creates the process. -/
def Enqueues (T : Tenant V) (t : Stage V N) (db : Database V) (id : UUID) : Prop :=
  db.process id = none ∨
  (∃ p u u' y rows obs outboxId now m, t = .process id u ∧ db.process id = some p ∧
    advance (T.services id) u (.answer y) p.rows = some (u', rows, obs) ∧
    production T p outboxId now u y u' = some m) ∨
  (∃ slot c assigned, t = .ingesting slot c (.holding assigned id false)) ∨
  ∃ slot c reason assigned q, t = .resolving slot c (.holding reason assigned q false) ∧
    c.command.processInstanceId = id

/-- **What a step does to the outbox**: nothing, a statement of the delivery, or a message for a
process. -/
theorem Step.outbox_cases (h : Step T t x db t' db' obs) :
    db'.delivery.outbox = db.delivery.outbox ∨
    (∃ u y u' obs', t = .delivery u ∧
      Temporal.Step u (.answer y) db.delivery u' db'.delivery obs') ∨
    ∃ id m, m.processInstanceId = some id ∧
      lookup OutboxMessage.id m.id db.delivery.outbox = none ∧
      db'.delivery.outbox = db.delivery.outbox ++ [m] ∧ Enqueues T t db id := by
  cases h with
  | process pid outboxId now p u u' y rows obs found moved written =>
      obtain ⟨-, rfl⟩ | ⟨m, hproduced, henqueued⟩ := written
      · exact .inl rfl
      · have hid : m.message.processInstanceId = some pid := by
          rw [production_process hproduced, (lookup_mem found).2]
        obtain ⟨-, -, hsame | ⟨hnew, hinserted⟩⟩ := enqueue_ok henqueued
        · exact .inl hsame
        · exact .inr (.inr ⟨pid, _, hid, hnew, hinserted, .inr (.inl
            ⟨p, u, u', y, rows, obs, outboxId, now, m, rfl, found, moved, hproduced⟩)⟩)
  | delivery u u' y delivery obs moved => exact .inr (.inl ⟨u, y, u', obs, rfl, moved⟩)
  | ingest slot c assigned pid outboxId late now o received =>
      obtain ⟨p, u', rows, obs, -, -, -, -, hsame | ⟨rfl, m, hid, hsame | ⟨hnew, hinserted⟩⟩⟩ :=
        receive_ok received
      · exact .inl hsame
      · exact .inl hsame
      · exact .inr (.inr ⟨pid, m, hid, hnew, hinserted,
          .inr (.inr (.inl ⟨slot, c, assigned, rfl⟩))⟩)
  | resolve slot c reason assigned q outboxId late now o hdeployment hprocesses hdelivery
      received =>
      obtain ⟨p, u', rows, obs, -, -, -, -, hcases⟩ := receive_ok received
      rw [hdelivery] at hcases
      obtain hsame | ⟨rfl, m, hid, hinserted⟩ := hcases
      · exact .inl hsame
      · rw [Inserted, hdelivery] at hinserted
        obtain hsame | ⟨hnew, hinserted⟩ := hinserted
        · exact .inl hsame
        · exact .inr (.inr ⟨_, m, hid, hnew, hinserted, .inr (.inr (.inr
            ⟨slot, c, reason, assigned, q, rfl, rfl⟩))⟩)
  | create slot c assigned pid outboxId b now o new scheduled =>
      obtain ⟨-, -, m, hid, hsame | ⟨hnew, hinserted⟩⟩ := schedule_ok scheduled
      · exact .inl hsame
      · exact .inr (.inr ⟨pid, m, hid, hnew, hinserted, .inl new⟩)
  | _ => exact .inl rfl

end

end TiramisuAgents.Tenancy
