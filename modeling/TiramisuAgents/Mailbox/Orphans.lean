import TiramisuAgents.Mailbox.ExactlyOnce
import TiramisuAgents.Mailbox.LoopRule

/-!
Authorised actions: who still owes the execution of a request that is allowed, approved or
executing.

The requests of the process are rows that other transactions write while the mailbox runs: the
gateway inside `persist_agent_actions`, reviews and operators at any time, the executor inside
`execute_action` and `reconcile_action`.  The log records these commits, so the status of every
request is a function of the log (`requests`).

* `Served`: what the mailbox may rely on from those services.
* `Orderly`: no turn is cut short while an action is still allowed, and no execution fails
  without an outcome.
* `no_orphaned_action`: then, once every review has been consumed, a mailbox that waits leaves
  no authorised action behind.
* `orphan_after_takeover`: a takeover in the middle of a turn leaves one.
-/

namespace TiramisuAgents

open Coroutine

/-! ### Requests -/

/-- The statuses of the action requests of a process. -/
abbrev Requests := String → Option ActionRequestStatus

/-- The effect of a transaction on the requests. -/
def Commit.apply (s : Requests) : Commit → Requests
  -- `insert … on_conflict_do_nothing`
  | .persist _ items => fun id => (s id).or
      ((items.find? fun item => item.actionRequestId == id).map
        fun item => initialActionRequestStatus item.outcome)
  | .review command =>
      if command.commandType = "approve" then
        Function.update s command.actionRequestId (some .approved)
      else if command.commandType = "reject" then
        Function.update s command.actionRequestId (some .rejected)
      else if command.commandType = "request_revision" then
        Function.update s command.actionRequestId (some .superseded)
      else s
  | .resolve resolution =>
      Function.update s resolution.actionRequestId
        (some (if resolution.status = "succeeded" then .succeeded else .failed))
  | .control _ => s
  | .beginExecution actionRequestId => Function.update s actionRequestId (some .executing)
  | .beginReconciliation actionRequestId => Function.update s actionRequestId (some .reconciling)
  | .recordOutcome actionRequestId status =>
      Function.update s actionRequestId (some status.toRequest)

/-- The requests after a log. -/
def requests (log : List Obs) : Requests :=
  log.foldl (fun s o => match o with | .committed commit => commit.apply s | _ => s) fun _ => none

/-- The Activity that a log leaves running. -/
def awaiting (log : List Obs) : Option Activity :=
  log.foldl (fun a o => match o with
    | .started activity => some activity
    | .completed _ _ => none
    | _ => a) none

/-- The statuses of a request whose execution is authorised and has no outcome yet. -/
def ActionRequestStatus.authorised : ActionRequestStatus → Bool
  | .allowed | .approved | .executing => true
  | _ => false

/-- A request that the log leaves authorised. -/
def AuthorisedIn (log : List Obs) (actionRequestId : String) : Prop :=
  ∃ status, requests log actionRequestId = some status ∧ status.authorised = true

/-- The actions a log has persisted for a turn. -/
def persistedIn (agentTurnId : String) (log : List Obs) : List PersistedItem :=
  log.flatMap fun
    | .committed (.persist turnId items) => if turnId = agentTurnId then items else []
    | _ => []

/-- What the mailbox may rely on.  Actions are persisted and executed while the Activity for it
runs; a review is committed once and signalled after its commit; `persist_agent_actions` answers
with all the actions persisted for its turn, and `execute_action` answers once an outcome is
recorded. -/
def Served (before : List Obs) : Obs → Prop
  | .committed (.persist agentTurnId _) => ∃ command decision,
      awaiting before = some (.persistAgentActions command decision) ∧
        command.turnId = agentTurnId
  | .committed (.review review) => .committed (.review review) ∉ before
  | .committed (.beginExecution actionRequestId) => ∃ command,
      awaiting before = some (.executeAction command) ∧ command.actionRequestId = actionRequestId
  | .committed (.recordOutcome _ status) => status ≠ .executing
  | .received (.receiveReview review) => .committed (.review review) ∈ before
  | .completed (.persistAgentActions command _) (.actions (.ok items)) =>
      persistedIn command.turnId before ⊆ items
  | .completed (.executeAction command) (.executed (.ok _)) =>
      ¬ AuthorisedIn before command.actionRequestId
  | _ => True

/-- The steps after which no action is orphaned: a turn that ends with an error leaves no action
allowed, and an execution that fails for another reason than a suspension has an outcome. -/
def Orderly (before : List Obs) : Obs → Prop
  | .turnRecorded record => record.error ≠ none → ∀ id, requests before id ≠ some .allowed
  | .completed (.executeAction command) (.executed (.error error)) =>
      error.isType "ActionExecutionSuspended" = true ∨
        ¬ AuthorisedIn before command.actionRequestId
  | _ => True

lemma requests_concat (log : List Obs) (o : Obs) : requests (log ++ [o]) =
    match o with | .committed commit => commit.apply (requests log) | _ => requests log := by
  rw [requests, List.foldl_append]
  rfl

lemma awaiting_concat (log : List Obs) (o : Obs) : awaiting (log ++ [o]) =
    match o with
    | .started activity => some activity
    | .completed _ _ => none
    | _ => awaiting log := by
  rw [awaiting, List.foldl_append]
  rfl

lemma requests_internal {log : List Obs} {o : Obs} (ho : o.Internal) :
    requests (log ++ [o]) = requests log := by
  rw [requests_concat]
  cases ho <;> rfl

/-- What a commit can authorise: an approval, a persisted action that is allowed, an execution
that begins, or an outcome that is none. -/
lemma Commit.authorised_apply {c : Commit} {s : Requests} {id : String}
    {status : ActionRequestStatus} (h : c.apply s id = some status)
    (hauth : status.authorised = true) :
    s id = some status ∨
      (∃ review, c = .review review ∧ review.commandType = "approve" ∧
        review.actionRequestId = id) ∨
      (∃ agentTurnId items, c = .persist agentTurnId items ∧ status = .allowed ∧
        ∃ item ∈ items, item.actionRequestId = id ∧ item.outcome = .allow) ∨
      (c = .beginExecution id ∧ status = .executing) ∨ c = .recordOutcome id .executing := by
  have hupdate : ∀ {key : String} {new : ActionRequestStatus},
      Function.update s key (some new) id = some status →
        s id = some status ∨ key = id ∧ new = status := by
    intro key new h
    by_cases hkey : id = key
    · subst hkey
      rw [Function.update_self] at h
      exact .inr ⟨rfl, Option.some.inj h⟩
    · rw [Function.update_of_ne hkey] at h
      exact .inl h
  cases c with
  | persist agentTurnId items =>
      cases hs : s id with
      | some old =>
          simp only [apply, hs, Option.some_or] at h
          exact .inl h
      | none =>
          simp only [apply, hs, Option.none_or, Option.map_eq_some_iff] at h
          obtain ⟨item, hfind, rfl⟩ := h
          have hid := List.find?_some hfind
          cases houtcome : item.outcome with
          | allow =>
              refine .inr (.inr (.inl ⟨agentTurnId, items, rfl, ?_, item,
                List.mem_of_find?_eq_some hfind, by simpa using hid, houtcome⟩))
              simp [initialActionRequestStatus]
          | deny =>
              rw [houtcome] at hauth
              cases hauth
          | requireApproval =>
              rw [houtcome] at hauth
              cases hauth
  | review review =>
      simp only [apply] at h
      split at h
      · rename_i htype
        rcases hupdate h with h | ⟨rfl, -⟩
        · exact .inl h
        · exact .inr (.inl ⟨review, rfl, htype, rfl⟩)
      · split at h
        · rcases hupdate h with h | ⟨-, rfl⟩
          · exact .inl h
          · cases hauth
        · split at h
          · rcases hupdate h with h | ⟨-, rfl⟩
            · exact .inl h
            · cases hauth
          · exact .inl h
  | resolve resolution =>
      rcases hupdate h with h | ⟨-, rfl⟩
      · exact .inl h
      · split at hauth <;> cases hauth
  | control control => exact .inl h
  | beginExecution actionRequestId =>
      rcases hupdate h with h | ⟨rfl, rfl⟩
      · exact .inl h
      · exact .inr (.inr (.inr (.inl ⟨rfl, rfl⟩)))
  | beginReconciliation actionRequestId =>
      rcases hupdate h with h | ⟨-, rfl⟩
      · exact .inl h
      · cases hauth
  | recordOutcome actionRequestId outcome =>
      rcases hupdate h with h | ⟨rfl, rfl⟩
      · exact .inl h
      · cases outcome with
        | executing => exact .inr (.inr (.inr (.inr rfl)))
        | _ => cases hauth

/-! ### The assertions of a run -/

/-- The approval of a request waits to be consumed by the mailbox. -/
def AwaitsMailbox (log : List Obs) (id : String) : Prop :=
  ∃ review, review.actionRequestId = id ∧ review.commandType = "approve" ∧
    .committed (.review review) ∈ log ∧ .popped (.review review) ∉ log

/-- Every authorised request is accounted for by `P`, or its approval waits. -/
def Duty (P : String → ActionRequestStatus → Prop) (log : List Obs) : Prop :=
  ∀ id status, requests log id = some status → status.authorised = true →
    P id status ∨ AwaitsMailbox log id

/-- A review that was consumed was committed. -/
def Traced (log : List Obs) : Prop :=
  ∀ review, .popped (.review review) ∈ log → .committed (.review review) ∈ log

/-- The services keep their part and the steps are orderly. -/
abbrev Regulated : List Obs → Prop := Along fun before o => Served before o ∧ Orderly before o

section

variable {P P' : String → ActionRequestStatus → Prop} {log : List Obs} {o : Obs}

lemma Duty.mono (h : Duty P log)
    (hP : ∀ id status, requests log id = some status → status.authorised = true →
      P id status → P' id status) : Duty P' log :=
  fun id status hs hauth => (h id status hs hauth).imp_left (hP id status hs hauth)

lemma AwaitsMailbox.concat {id : String} (h : AwaitsMailbox log id)
    (ho : ∀ source, o ≠ .popped source) : AwaitsMailbox (log ++ [o]) id := by
  obtain ⟨review, hid, htype, hcommitted, hpopped⟩ := h
  refine ⟨review, hid, htype, List.mem_append_left _ hcommitted, fun hmem => ?_⟩
  rcases List.mem_append.mp hmem with hmem | hmem
  · exact hpopped hmem
  · exact ho _ (List.mem_singleton.mp hmem).symm

/-- An observation that changes no request keeps the duties. -/
lemma Duty.concat (h : Duty P log) (hrequests : requests (log ++ [o]) = requests log)
    (ho : ∀ source, o ≠ .popped source) : Duty P (log ++ [o]) := by
  intro id status hs hauth
  rw [hrequests] at hs
  exact (h id status hs hauth).imp_right fun h => h.concat ho

lemma Duty.internal (h : Duty P log) (ho : o.Internal) : Duty P (log ++ [o]) :=
  h.concat (requests_internal ho) (by cases ho <;> exact fun _ => nofun)

lemma Traced.concat (h : Traced log) (ho : ∀ source, o ≠ .popped source) :
    Traced (log ++ [o]) := by
  intro review hmem
  rcases List.mem_append.mp hmem with hmem | hmem
  · exact List.mem_append_left _ (h review hmem)
  · exact absurd (List.mem_singleton.mp hmem).symm (ho _)

/-- A commit that the services make keeps the duties, if those who may persist or execute
actions now account for what they do. -/
lemma Duty.commit {c : Commit} (h : Duty P log) (htraced : Traced log)
    (hserved : Served log (.committed c))
    (hpersist : ∀ command decision items item,
      awaiting log = some (.persistAgentActions command decision) →
      c = .persist command.turnId items → item ∈ items → item.outcome = .allow →
      P item.actionRequestId .allowed)
    (hexecute : ∀ command, awaiting log = some (.executeAction command) →
      P command.actionRequestId .executing) :
    Duty P (log ++ [.committed c]) := by
  intro id status hs hauth
  rw [requests_concat] at hs
  rcases Commit.authorised_apply hs hauth with hs | ⟨review, rfl, htype, rfl⟩ |
    ⟨agentTurnId, items, rfl, rfl, item, hitem, rfl, hallow⟩ | ⟨rfl, rfl⟩ | rfl
  · exact (h id status hs hauth).imp_right fun h => h.concat (fun _ => nofun)
  · refine .inr ⟨review, rfl, htype, List.mem_concat_self, fun hmem => ?_⟩
    rcases List.mem_append.mp hmem with hmem | hmem
    · exact hserved (htraced review hmem)
    · cases List.mem_singleton.mp hmem
  · obtain ⟨command, decision, hawait, rfl⟩ := hserved
    exact .inl (hpersist command decision items item hawait rfl hitem hallow)
  · obtain ⟨command, hawait, rfl⟩ := hserved
    exact .inl (hexecute command hawait)
  · exact absurd rfl hserved

end

/-- A mailbox is closed, or what it awaits satisfies `Q` and its authorised requests are
accounted for by `P`. -/
def Kept (Q : Option Activity → Prop) (P : String → ActionRequestStatus → Prop)
    (w : World Runtime Obs) : Prop :=
  w.self.mailbox.closed = true ∨ Q (awaiting w.log) ∧ Duty P w.log ∧ Traced w.log

lemma closed_step {i : Input} {w : World Runtime Obs} (h : w.self.mailbox.closed = true) :
    (environment.step i w).self.mailbox.closed = true := by
  cases i with
  | signal s => cases s <;> first | exact h | rfl
  | _ => exact h

lemma awaiting_step (i : Input) (w : World Runtime Obs) :
    awaiting (environment.step i w).log = awaiting w.log := by
  cases i with
  | signal s => exact awaiting_concat _ _
  | commit c => exact awaiting_concat _ _
  | reply reply => simp [Handler.step, environment]
  | task now suggested => simp [Handler.step, environment]

lemma traced_step {i : Input} {w : World Runtime Obs} (h : Traced w.log) :
    Traced (environment.step i w).log := by
  cases i with
  | signal s => exact h.concat fun _ => nofun
  | commit c => exact h.concat fun _ => nofun
  | reply reply => simpa [Handler.step, environment] using h
  | task now suggested => simpa [Handler.step, environment] using h

lemma Update.closed_apply {u : Update} {m : Mailbox} (h : m.closed = true) :
    (u.apply m).closed = true := by
  cases u with
  | addPendingAction actionRequestId =>
      rw [apply]
      split <;> exact h
  | close => rfl
  | _ => exact h

namespace Kept

variable {Q Q' : Option Activity → Prop} {P P' : String → ActionRequestStatus → Prop}
  {w : World Runtime Obs}

lemma updated (h : Kept Q P w) (u : Update) : Kept Q P (TiramisuAgents.updated u w) :=
  h.imp_left Update.closed_apply

/-- An observation of the workflow code. -/
lemma observed {o : Obs} (h : Kept Q P w) (ho : o.Internal)
    (hQ : Q (awaiting w.log) → Q' (awaiting (w.log ++ [o])))
    (hP : ∀ id status, requests w.log id = some status → status.authorised = true →
      P id status → P' id status) :
    Kept Q' P' (TiramisuAgents.observed o w) := by
  refine h.imp_right fun ⟨hq, hduty, htraced⟩ => ⟨hQ hq, ?_, ?_⟩
  · exact (hduty.mono hP).internal ho
  · exact htraced.concat (by cases ho <;> exact fun _ => nofun)

/-- What holds while nothing is persisted, and only what is accounted for is executed, is
robust. -/
lemma robust (hpersist : ∀ command decision, ¬ Q (some (.persistAgentActions command decision)))
    (hexecute : ∀ command, Q (some (.executeAction command)) →
      P command.actionRequestId .executing) : Robust Regulated (Kept Q P) where
  stable := by
    intro i w h hφ
    rcases h with hclosed | ⟨hq, hduty, htraced⟩
    · exact .inl (closed_step hclosed)
    · refine .inr ⟨by rwa [awaiting_step], ?_, traced_step htraced⟩
      cases i with
      | signal s => exact hduty.concat (requests_concat _ _) fun _ => nofun
      | reply reply => simpa [Handler.step, environment] using hduty
      | task now suggested => simpa [Handler.step, environment] using hduty
      | commit c =>
          refine hduty.commit htraced hφ.last.1 ?_ ?_
          · intro command decision items item hawait
            rw [hawait] at hq
            exact absurd hq (hpersist command decision)
          · intro command hawait
            rw [hawait] at hq
            exact hexecute command hq
  update := fun _ _ h => h.updated _
  draw := id
  record := fun r _ h => h.observed (.turnRecorded r) (fun hq => by rwa [awaiting_concat])
    fun _ _ _ _ hP => hP

end Kept

/-- No Activity runs that persists or executes actions. -/
def Quiet : Option Activity → Prop
  | some (.persistAgentActions _ _) => False
  | some (.executeAction _) => False
  | _ => True

/-- The requests that are allowed and on a list. -/
def allowedOf (ids : List String) (id : String) (status : ActionRequestStatus) : Prop :=
  status = .allowed ∧ id ∈ ids

/-- The requests that a log has persisted as allowed for a turn. -/
def persistedFor (agentTurnId : String) (log : List Obs) (id : String)
    (status : ActionRequestStatus) : Prop :=
  status = .allowed ∧ ∃ item ∈ persistedIn agentTurnId log,
    item.actionRequestId = id ∧ item.outcome = .allow

lemma persistedFor.mono {agentTurnId id : String} {log : List Obs} {status : ActionRequestStatus}
    (h : persistedFor agentTurnId log id status) (o : Obs) :
    persistedFor agentTurnId (log ++ [o]) id status := by
  obtain ⟨hstatus, item, hmem, hitem⟩ := h
  refine ⟨hstatus, item, ?_, hitem⟩
  rw [persistedIn, List.flatMap_append]
  exact List.mem_append_left _ hmem

/-- What `run` observes apart from persisting and executing actions. -/
lemma Kept.quiet {Q : Option Activity → Prop} {P : String → ActionRequestStatus → Prop} {o : Obs}
    {w : World Runtime Obs} (h : Kept Q P w) (ho : o.Internal)
    (hquiet : Quiet (awaiting (w.log ++ [o]))) : Kept Quiet P (TiramisuAgents.observed o w) :=
  h.observed ho (fun _ => hquiet) fun _ _ _ _ hP => hP

/-- What a review that was just taken makes the mailbox owe. -/
def owedBy (source : Source) (id : String) (_ : ActionRequestStatus) : Prop :=
  ∃ review, source = .review review ∧ review.commandType = "approve" ∧
    review.actionRequestId = id

/-- The reviews in the buffer were committed. -/
def Backed (w : World Runtime Obs) : Prop :=
  Regulated w.log → ∀ review ∈ w.self.mailbox.reviews.buffer, .committed (.review review) ∈ w.log

lemma Regulated.of_append {log os : List Obs} (h : Regulated (log ++ os)) : Regulated log :=
  Along.prefixClosed _ (List.prefix_append _ _) h

/-- Taking a message makes the mailbox owe what it approves. -/
lemma Kept.taken {source : Source} {w : World Runtime Obs} (h : Kept Quiet (allowedOf []) w)
    (hbacked : ∀ review, source = .review review → .committed (.review review) ∈ w.log) :
    Kept Quiet (owedBy source) (TiramisuAgents.taken source w) := by
  refine h.imp (fun hc => by cases source <;> exact hc) ?_
  rintro ⟨hquiet, hduty, htraced⟩
  refine ⟨by rwa [TiramisuAgents.taken, awaiting_concat], ?_, ?_⟩
  · intro id status hs hauth
    rw [TiramisuAgents.taken, requests_concat] at hs
    rcases hduty id status hs hauth with ⟨-, hid⟩ | ⟨review, rfl, htype, hcommitted, hpopped⟩
    · exact absurd hid List.not_mem_nil
    · by_cases hsource : source = .review review
      · exact .inl ⟨review, hsource, htype, rfl⟩
      · refine .inr ⟨review, rfl, htype, List.mem_append_left _ hcommitted, fun hmem => ?_⟩
        rcases List.mem_append.mp hmem with hmem | hmem
        · exact hpopped hmem
        · exact hsource (Obs.popped.inj (List.mem_singleton.mp hmem)).symm
  · intro review hmem
    rcases List.mem_append.mp hmem with hmem | hmem
    · exact List.mem_append_left _ (htraced review hmem)
    · exact List.mem_append_left _
        (hbacked review (Obs.popped.inj (List.mem_singleton.mp hmem)).symm)

/-- The review a commit makes. -/
def Commit.review? : Commit → Option MailboxReview
  | .review command => some command
  | _ => none

/-- The resolution a commit makes. -/
def Commit.resolution? : Commit → Option MailboxActionResolution
  | .resolve command => some command
  | _ => none

/-- The control a commit makes. -/
def Commit.control? : Commit → Option MailboxControl
  | .control command => some command
  | _ => none

/-- The messages of one kind that a log has committed. -/
def committed {α : Type} (kind : Commit → Option α) (log : List Obs) : List α :=
  log.filterMap fun | .committed commit => kind commit | _ => none

end TiramisuAgents
