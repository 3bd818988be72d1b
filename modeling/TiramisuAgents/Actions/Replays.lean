import TiramisuAgents.Actions.Reviews

/-!
Review commands that are applied again.

A request looks the message of its command up before it locks the process, and answers from it
only after the checks on the process it has loaded.  So a command is answered again if its
message was stored by then and the loaded process is neither paused nor over; else it is refused.
No request with the identity of a command that took effect writes anything.

* `Applied`, `ReviewCommand.SameContent`: a command that took effect, and its content.
* `Stage.Replays`, `Stage.Claims`: a request that has found a message of its command, and one
  that has not.
* `review_repeated`: every request with the identity of an applied command.
  `repeated_while_paused` is one that is refused.
-/

namespace TiramisuAgents

open Transactions

/-! ### What stays -/

section

variable {P : Platform} {t t' u : Stage} {x : CallInput} {db db' : Database}
  {obs : List ActionEvent}

/-- The message of a command stays. -/
lemma Step.messages_kept (h : Step P t x db t' db' obs) {id : UUID} {m : MessageRow}
    (hm : db.messages id = some m) : db'.messages id = some m := by
  have kept {id' : UUID} (m' : MessageRow) (hfresh : db.messages id' = none) :
      Function.update db.messages id' (some m') id = some m := by
    have hne : id ≠ id' := by
      rintro rfl
      rw [hfresh] at hm
      cases hm
    rwa [Function.update_of_ne hne]
  cases h with
  | review c target request write hsingle hfresh => exact kept c.row hfresh
  | reviewElsewhere commandId thread row hfresh => exact kept _ hfresh
  | _ => exact hm

/-- The payload of the approval. -/
def Database.payload (db : Database) : Option String := db.approval.map ApprovalRow.payloadHash

/-- The payload of an approval stays. -/
lemma Step.payload_kept (h : Step P t x db t' db' obs) {payload : String}
    (hpayload : db.payload = some payload) : db'.payload = some payload := by
  obtain ⟨a, ha, rfl⟩ := Option.map_eq_some_iff.mp hpayload
  cases h with
  | review => simp [Database.payload, Database.review, ha]
  | persist => simp [Database.payload, Database.persist, ha]
  | _ => exact hpayload

/-- A request has one revision. -/
lemma Step.revision_kept (h : Step P t x db t' db' obs)
    (hdb : ∀ row, db.request = some row → row.currentRevision = 1) :
    ∀ row, db'.request = some row → row.currentRevision = 1 := by
  have written (f : RequestRow → RequestRow) (hf : ∀ row, (f row).currentRevision =
      row.currentRevision) : ∀ row, db.request.map f = some row → row.currentRevision = 1 := by
    intro row hrow
    obtain ⟨old, hold, rfl⟩ := Option.map_eq_some_iff.mp hrow
    rw [hf]
    exact hdb old hold
  cases h with
  | insert => exact written _ fun _ => rfl
  | reclaim => exact written _ fun _ => rfl
  | remark => exact written _ fun _ => rfl
  | mark => exact written _ fun _ => rfl
  | record => exact written _ fun _ => rfl
  | resolve => exact written _ fun _ => rfl
  | review => exact written _ fun _ => rfl
  | persist p =>
      intro row hrow
      cases hrequest : db.request with
      | none =>
          obtain rfl : p.request = row := by simpa [Database.persist, hrequest] using hrow
          rfl
      | some old =>
          obtain rfl : old = row := by simpa [Database.persist, hrequest] using hrow
          exact hdb old hrequest
  | _ => exact hdb

/-! ### What a review has loaded -/

/-- The thread and the approval that a review has loaded. -/
def Reviewing.target : Reviewing → Option ReviewTarget
  | .opening => none
  | .threadRead target | .processRead target _ | .messageRead target _ _ | .locked target _
  | .flushing target _ _ => some target

/-- A review has loaded the payload of the approval. -/
def Stage.Targets (db : Database) : Stage → Prop
  | .reviewing _ r => ∀ target, r.target = some target →
      db.payload = some target.approval.payloadHash
  | _ => True

lemma Step.targets (h : Step P t x db t' db' obs) (ht : t.Targets db) : t'.Targets db' := by
  cases h with
  | halt resting => cases t' with
    | idle => trivial
    | ended => trivial
    | _ => cases resting
  | start c =>
      cases c with
      | review c => exact fun target htarget => by cases htarget
      | _ => trivial
  | readThread c target found =>
      intro target' htarget
      obtain rfl := Option.some.inj htarget
      obtain ⟨thread, -, hfound⟩ := Option.bind_eq_some_iff.mp found
      obtain ⟨a, ha, rfl⟩ := Option.map_eq_some_iff.mp hfound
      rw [Database.payload, ha, Option.map_some]
  | readProcess => exact ht
  | readMessage => exact ht
  | lockReview => exact ht
  | decideReview => exact ht
  | _ => trivial

lemma Step.targets_other (h : Step P t x db t' db' obs) (hu : u.Targets db) : u.Targets db' := by
  cases u with
  | reviewing c r => exact fun target htarget => h.payload_kept (hu target htarget)
  | _ => trivial

variable (P) in
/-- The rule for what the reviews have loaded. -/
lemma targetsJoint : Joint (calls P) (fun _ _ _ _ => True) (fun _ _ _ _ => True)
    (fun db _ => db.Consistent P ∧ ∀ row, db.request = some row → row.currentRevision = 1)
    (fun t db _ => t.Knows P db ∧ t.Targets db) where
  own hnext _ hdb ht := by
    have h := Step.of_next hnext
    exact ⟨⟨h.consistent hdb.1 ht.1, h.revision_kept hdb.2⟩, h.knows ht.1, h.targets ht.2⟩
  other hnext _ _ hlocks _ ht hu := by
    have h := Step.of_next hnext
    exact ⟨h.knows_other hlocks ht.1 hu.1, h.targets_other hu.2⟩

/-! ### Requests -/

/-- A command that took effect, in its thread: its message is stored, and it names the payload it
has approved. -/
structure Applied (db : Database) (c : ReviewCommand) (thread : Option UUID) : Prop where
  stored : db.messages c.commandId = some { c.row with otherThread := thread }
  payload : thread = none → c.commandType = .approve → db.payload = c.expectedPayloadHash

/-- A request has the content of a command that took effect in a thread: what is stored of it,
and the payload that an approval names. -/
structure ReviewCommand.SameContent (c : ReviewCommand) (thread : Option UUID)
    (c' : ReviewCommand) : Prop where
  thread : thread = none
  row : c'.row = c.row
  payload : c'.commandType = .approve → c'.expectedPayloadHash = c.expectedPayloadHash

/-- The command is answered with the statuses of its rows. -/
def Outcome.isReviewed : Outcome → Bool
  | .reviewed _ _ _ => true
  | _ => false

/-- The request finds a message with the content of its command, for a payload. -/
def ReviewCommand.Finds (c : ReviewCommand) (m : MessageRow) (payload : String) : Prop :=
  m = c.row ∧ (c.commandType = .approve → c.expectedPayloadHash = some payload)

/-- A request that has found the message `m`: it locks the process if the one it has loaded
permits that, and then compares. -/
def Stage.Replays (c : ReviewCommand) (process : ProcessStatus) (m : MessageRow)
    (payload : String) : Stage → Prop
  | .reviewing c' (.messageRead _ process' existing) =>
      c' = c ∧ process' = process ∧ existing = some m
  | .reviewing c' (.locked _ existing) => c' = c ∧ process.fenced = false ∧ existing = some m
  | .ended o => o.isReviewed = true ↔ process.fenced = false ∧ c.Finds m payload
  | _ => False

/-- A request that has found no message: it may write its own. -/
def Stage.Claims (c : ReviewCommand) : Stage → Prop
  | .reviewing c' (.messageRead _ _ existing) | .reviewing c' (.locked _ existing) =>
      c' = c ∧ existing = none
  | .reviewing c' (.flushing target request write) =>
      c' = c ∧ c.write target.approval request = .ok write
  | .ended o => o.isReviewed = false
  | _ => False

lemma ReviewCommand.replay_isReviewed {c : ReviewCommand} {target : ReviewTarget}
    {request : RequestRow} {m : MessageRow} :
    (c.replay target request m).isReviewed = true ↔ c.Finds m target.approval.payloadHash := by
  have hfinds : c.Finds m target.approval.payloadHash ↔ ¬ (m ≠ c.row ∨
      (c.commandType = .approve ∧ c.expectedPayloadHash ≠ some target.approval.payloadHash)) := by
    simp [ReviewCommand.Finds]
  rw [hfinds, ReviewCommand.replay]
  split_ifs with hdiffers <;> simp [Outcome.isReviewed, hdiffers]

/-- An approval that is written names the payload. -/
lemma ReviewCommand.payload_of_write {c : ReviewCommand} {approval : ApprovalRow}
    {request : RequestRow} {write : ReviewWrite} (h : c.write approval request = .ok write)
    (happrove : c.commandType = .approve) :
    c.expectedPayloadHash = some approval.payloadHash := by
  rw [ReviewCommand.write, happrove] at h
  by_contra hne
  simp [hne] at h

/-- The answer to a request that has found a message. -/
lemma ReviewCommand.decide_replay {c : ReviewCommand} {target : ReviewTarget} {m : MessageRow}
    {now : Time} {request : RequestRow} (hrequest : db.request = some request)
    (hrevision : request.currentRevision = 1) :
    c.decide target (some m) now db = Stage.stop (c.replay target request m) db := by
  simp [ReviewCommand.decide, hrequest, hrevision]

/-- The checks of a request that has found no message. -/
lemma ReviewCommand.decide_claims {c : ReviewCommand} {target : ReviewTarget} {now : Time}
    (h : c.decide target none now db = some (t', db', obs)) : db' = db ∧ t'.Claims c := by
  have stop {message : String}
      (h : Stage.stop (.rejected message) db = some (t', db', obs)) : db' = db ∧ t'.Claims c := by
    cases h
    exact ⟨rfl, rfl⟩
  rw [ReviewCommand.decide] at h
  split at h
  · exact stop h
  split at h
  · exact stop h
  dsimp only at h
  split at h
  · exact stop h
  split at h
  · exact stop h
  split at h
  · exact stop h
  · rename_i write hwrite
    cases h
    exact ⟨rfl, rfl, hwrite⟩

variable {c : ReviewCommand} {process : ProcessStatus} {m : MessageRow} {payload : String}
  {y : Answer}

/-- **A request that has found a message** writes nothing, and answers from it. -/
lemma next_replays (h : next P t (.answer y) db = some (t', db', obs)) (hdb : db.Consistent P)
    (hrevision : ∀ row, db.request = some row → row.currentRevision = 1)
    (htargets : t.Targets db) (hpayload : db.payload = some payload)
    (ht : t.Replays c process m payload) : db' = db ∧ t'.Replays c process m payload := by
  cases t with
  | reviewing c' r =>
      cases r with
      | messageRead target process' existing =>
          obtain ⟨rfl, rfl, rfl⟩ := ht
          cases y with
          | go =>
              rw [next, Stage.statement, Reviewing.statement] at h
              split_ifs at h with hfenced
              · cases h
                exact ⟨rfl, by simp [Stage.Replays, Outcome.isReviewed, hfenced]⟩
              · cases h
                exact ⟨rfl, rfl, by simpa using hfenced, rfl⟩
          | _ => cases h
      | locked target existing =>
          obtain ⟨rfl, hunfenced, rfl⟩ := ht
          cases y with
          | time now =>
              obtain ⟨a, ha, -⟩ := Option.map_eq_some_iff.mp hpayload
              obtain ⟨request, hrequest⟩ : ∃ request, db.request = some request := by
                refine Option.ne_none_iff_exists'.mp fun hnone => ?_
                rw [(hdb.absent hnone).2.2.1] at ha
                cases ha
              have hloaded : payload = target.approval.payloadHash :=
                Option.some.inj (hpayload.symm.trans (htargets target rfl))
              rw [next, Stage.statement, Reviewing.statement,
                ReviewCommand.decide_replay hrequest (hrevision request hrequest)] at h
              cases h
              refine ⟨rfl, ?_⟩
              rw [Stage.Replays, ReviewCommand.replay_isReviewed, hloaded]
              simp [hunfenced]
          | _ => cases h
      | _ => cases ht
  | ended => cases h
  | _ => cases ht

/-- **A request that has found no message** writes nothing, unless it commits its command. -/
lemma next_claims (h : next P t (.answer y) db = some (t', db', obs))
    (htargets : t.Targets db) (hpayload : db.payload = some payload) (ht : t.Claims c) :
    (db' = db ∧ t'.Claims c) ∨
      (db.messages c.commandId = none ∧ db'.messages c.commandId = some c.row ∧
        (c.commandType = .approve → c.expectedPayloadHash = some payload)) := by
  cases t with
  | reviewing c' r =>
      cases r with
      | messageRead target process' existing =>
          obtain ⟨rfl, rfl⟩ := ht
          cases y with
          | go =>
              rw [next, Stage.statement, Reviewing.statement] at h
              split_ifs at h with hfenced
              · cases h
                exact .inl ⟨rfl, rfl⟩
              · cases h
                exact .inl ⟨rfl, rfl, rfl⟩
          | _ => cases h
      | locked target existing =>
          obtain ⟨rfl, rfl⟩ := ht
          cases y with
          | time now => exact .inl (ReviewCommand.decide_claims h)
          | _ => cases h
      | flushing target request write =>
          obtain ⟨rfl, hwrite⟩ := ht
          have hloaded : payload = target.approval.payloadHash :=
            Option.some.inj (hpayload.symm.trans (htargets target rfl))
          cases y with
          | check error =>
              cases error with
              | some error =>
                  cases h
                  exact .inl ⟨rfl, rfl⟩
              | none =>
                  rw [next, Stage.statement, Reviewing.statement, commitReview] at h
                  split_ifs at h with hunique
                  · cases h
                    exact .inl ⟨rfl, rfl⟩
                  · cases h
                    rw [not_or] at hunique
                    refine .inr ⟨by simpa using hunique.2, by simp [Database.review], ?_⟩
                    intro happrove
                    rw [hloaded]
                    exact ReviewCommand.payload_of_write hwrite happrove
          | _ => cases h
      | _ => cases ht
  | ended => cases h
  | _ => cases ht

/-! ### Runs -/

variable {n : ℕ} {s s' s₀ s₁ s₂ : Pool n Database Stage ActionEvent} {i : Fin n}
  {ms ms₀ : List (Fin n × CallInput)} {o : Outcome} {c' : ReviewCommand} {thread : Option UUID}
  {process₀ : ProcessStatus}

/-- The call goes on; the other calls do anything. -/
def Answered (i : Fin n) (_ : Pool n Database Stage ActionEvent) (m : Fin n × CallInput) : Prop :=
  m.1 = i → ∃ y, m.2 = .answer y

variable (P) in
/-- The call goes on, and changes no row. -/
def Silent (i : Fin n) (s : Pool n Database Stage ActionEvent) (m : Fin n × CallInput) : Prop :=
  m.1 = i → (∃ y, m.2 = .answer y) ∧ ∀ s', s.step (calls P) m = some s' → s'.store = s.store

variable (P) in
/-- A request, past the checks of its route, looks its message up; its session has loaded the
status `process`. -/
def Looks (s s₁ : Pool n Database Stage ActionEvent) (i : Fin n) (c : ReviewCommand)
    (process : ProcessStatus) : Prop :=
  (∃ target, s.calls i = .reviewing c (.processRead target process)) ∧
    s.step (calls P) (i, .answer (.check none)) = some s₁

/-- What is known of a pool in which the approval has a payload. -/
structure Presented (P : Platform) (payload : String) (s : Pool n Database Stage ActionEvent) :
    Prop where
  known : Joint.Holds (calls P)
    (fun db _ => db.Consistent P ∧ ∀ row, db.request = some row → row.currentRevision = 1)
    (fun t db _ => t.Knows P db ∧ t.Targets db) s
  payload : s.store.payload = some payload

lemma Presented.step (hs : Presented P payload s) {m : Fin n × CallInput}
    (h : s.step (calls P) m = some s') : Presented P payload s' := by
  have hknown := (targetsJoint P).step hs.known trivial (fun _ _ => trivial) h
  obtain ⟨t, db, obs, hnext, -, rfl⟩ := step_eq_some h
  exact ⟨hknown, (Step.of_next hnext).payload_kept hs.payload⟩

lemma Presented.runs {G : Pool n Database Stage ActionEvent → Fin n × CallInput → Prop}
    (hs : Presented P payload s) (h : Runs (calls P) G s ms s') : Presented P payload s' :=
  h.invariant (fun _ _ _ hs _ hstep => hs.step hstep) hs

/-- The step is one of the call, or leaves it where it stands. -/
lemma answered_cases {m : Fin n × CallInput} (hm : Answered i s m)
    (h : s.step (calls P) m = some s') :
    (∃ y obs, m.1 = i ∧ next P (s.calls i) (.answer y) s.store
      = some (s'.calls i, s'.store, obs)) ∨ (m.1 ≠ i ∧ s'.calls i = s.calls i) := by
  obtain ⟨t, db, obs, hnext, -, rfl⟩ := step_eq_some h
  by_cases hi : m.1 = i
  · obtain ⟨y, hy⟩ := hm hi
    rw [hi, hy] at hnext
    refine .inl ⟨y, obs, hi, ?_⟩
    dsimp only
    rw [hi, Function.update_self]
    exact hnext
  · exact .inr ⟨hi, Function.update_of_ne (Ne.symm hi) ..⟩

lemma messages_kept_runs {G : Pool n Database Stage ActionEvent → Fin n × CallInput → Prop}
    (h : Runs (calls P) G s ms s') {id : UUID} {m : MessageRow}
    (hm : s.store.messages id = some m) : s'.store.messages id = some m := by
  refine h.invariant (I := fun s => s.store.messages id = some m) ?_ hm
  intro s m' s' hs _ hstep
  obtain ⟨t, db, obs, hnext, -, rfl⟩ := step_eq_some hstep
  exact (Step.of_next hnext).messages_kept hs

/-- A request that has found a message is silent. -/
lemma replays_runs (hs₁ : Presented P payload s₁)
    (ht : (s₁.calls i).Replays c process m payload)
    (h : Runs (calls P) (Answered i) s₁ ms s₂) :
    Runs (calls P) (Silent P i) s₁ ms s₂ ∧ (s₂.calls i).Replays c process m payload := by
  refine (h.refine (I := fun s => Presented P payload s ∧
    (s.calls i).Replays c process m payload) ?_ ⟨hs₁, ht⟩).imp_right And.right
  rintro s m' s' - ⟨hs, ht⟩ hm' hstep -
  have hs' := hs.step hstep
  obtain ⟨y, obs, hi, hnext⟩ | ⟨hi, hcalls⟩ := answered_cases hm' hstep
  · obtain ⟨hstore, ht'⟩ := next_replays hnext hs.known.common.1 hs.known.common.2
      (hs.known.calls i).2 hs.payload ht
    refine ⟨fun _ => ⟨hm' hi, fun s'' h'' => ?_⟩, hs', ht'⟩
    rw [← Option.some.inj (hstep.symm.trans h''), hstore]
  · exact ⟨fun hi' => absurd hi' hi, hs', by rw [hcalls]; exact ht⟩

/-- A request that has found no message, and has not written its own, is silent. -/
lemma claims_runs (hs₁ : Presented P payload s₁) (ht : (s₁.calls i).Claims c)
    (h : Runs (calls P) (Answered i) s₁ ms s₂)
    (hother : s₂.store.messages c.commandId = some c.row →
      ¬ (c.commandType = .approve → c.expectedPayloadHash = some payload)) :
    Runs (calls P) (Silent P i) s₁ ms s₂ ∧ (s₂.calls i).Claims c := by
  refine (h.refine (I := fun s => Presented P payload s ∧ (s.calls i).Claims c) ?_
    ⟨hs₁, ht⟩).imp_right And.right
  rintro s m' s' ms' ⟨hs, ht⟩ hm' hstep hrest
  have hs' := hs.step hstep
  obtain ⟨y, obs, hi, hnext⟩ | ⟨hi, hcalls⟩ := answered_cases hm' hstep
  · obtain ⟨hstore, ht'⟩ | ⟨-, hwritten, hpayload⟩ :=
      next_claims hnext (hs.known.calls i).2 hs.payload ht
    · refine ⟨fun _ => ⟨hm' hi, fun s'' h'' => ?_⟩, hs', ht'⟩
      rw [← Option.some.inj (hstep.symm.trans h''), hstore]
    · -- what it commits stays to the end
      exact absurd hpayload (hother (messages_kept_runs hrest hwritten))
  · exact ⟨fun hi' => absurd hi' hi, hs', by rw [hcalls]; exact ht⟩

/-- A silent request that has found no message has not been answered with its rows. -/
lemma claims_silent (hs₁ : Presented P payload s₁) (ht : (s₁.calls i).Claims c)
    (h : Runs (calls P) (Silent P i) s₁ ms s₂) : (s₂.calls i).Claims c := by
  refine (h.invariant (I := fun s => Presented P payload s ∧ (s.calls i).Claims c) ?_
    ⟨hs₁, ht⟩).2
  rintro s m' s' ⟨hs, ht⟩ hm' hstep
  refine ⟨hs.step hstep, ?_⟩
  obtain ⟨y, obs, hi, hnext⟩ | ⟨hi, hcalls⟩ := answered_cases (fun hi => (hm' hi).1) hstep
  · obtain ⟨-, ht'⟩ | ⟨hfresh, hwritten, -⟩ :=
      next_claims hnext (hs.known.calls i).2 hs.payload ht
    · exact ht'
    · rw [(hm' hi).2 s' hstep, hfresh] at hwritten
      cases hwritten
  · rw [hcalls]
    exact ht

/-- What a request has looked up. -/
lemma Looks.looked (h : Looks P s₀ s₁ i c process) : s₁.store = s₀.store ∧
    ∃ target, s₁.calls i
      = .reviewing c (.messageRead target process (s₀.store.messages c.commandId)) := by
  obtain ⟨⟨target, hstage⟩, hstep⟩ := h
  obtain ⟨t, db, obs, hnext, -, rfl⟩ := step_eq_some hstep
  rw [hstage] at hnext
  cases hnext
  exact ⟨rfl, target, Function.update_self ..⟩

/-- A request has the content of a command that took effect if it finds it. -/
lemma Applied.sameContent_iff {db : Database} (h : Applied db c thread)
    (hpayload : db.payload = some payload) :
    c.SameContent thread c' ↔ c'.Finds { c.row with otherThread := thread } payload := by
  have named (hrow : c'.row = c.row) (hthread : thread = none)
      (happrove : c'.commandType = .approve) : c.expectedPayloadHash = some payload := by
    have htype : c'.commandType = c.commandType := congrArg MessageRow.messageType hrow
    rw [← h.payload hthread (htype ▸ happrove), hpayload]
  constructor
  · rintro ⟨rfl, hrow, hsame⟩
    exact ⟨hrow.symm, fun happrove => (hsame happrove).trans (named hrow rfl happrove)⟩
  · rintro ⟨hfound, hnamed⟩
    obtain rfl : thread = none := congrArg MessageRow.otherThread hfound
    have hrow : c'.row = c.row := hfound.symm
    exact ⟨rfl, hrow, fun happrove => (hnamed happrove).trans (named hrow rfl happrove).symm⟩

/-- **Review commands that are applied again.**  For every request with the identity of a command
that took effect, when it has ended: if it has the content of the command, it is answered with the
statuses of the rows and has changed none if and only if the message was stored when it looked it
up, and the process it had loaded was neither paused nor over; if it has not, it is refused and
has changed no row. -/
theorem review_repeated (h₀ : Runs (calls P) (fun _ _ => True) (fresh n process₀) ms₀ s₀)
    (hlooks : Looks P s₀ s₁ i c' process) (h : Runs (calls P) (Answered i) s₁ ms s₂)
    (hended : s₂.calls i = .ended o) (happlied : Applied s₂.store c thread)
    (hid : c'.commandId = c.commandId) :
    (c.SameContent thread c' →
      ((o.isReviewed = true ∧ Runs (calls P) (Silent P i) s₁ ms s₂) ↔
        (s₀.store.messages c.commandId ≠ none ∧ process.fenced = false))) ∧
    (¬ c.SameContent thread c' →
      o.isReviewed = false ∧ Runs (calls P) (Silent P i) s₁ ms s₂) := by
  obtain ⟨hstore, target, hstage⟩ := hlooks.looked
  have hknown : Joint.Holds (calls P) _ _ s₁ :=
    (targetsJoint P).step ((targetsJoint P).runs (fun _ _ _ _ => trivial)
      (fun _ _ _ _ _ _ => trivial) h₀ (fresh_holds P n process₀
        ⟨consistent_fresh P process₀, fun _ h => by cases h⟩ ⟨trivial, trivial⟩))
      trivial (fun _ _ => trivial) hlooks.2
  have hpresented : Presented P target.approval.payloadHash s₁ := by
    refine ⟨hknown, ?_⟩
    have htargets := (hknown.calls i).2
    rw [hstage] at htargets
    exact htargets target rfl
  have hiff : c.SameContent thread c' ↔
      c'.Finds { c.row with otherThread := thread } target.approval.payloadHash :=
    happlied.sameContent_iff (hpresented.runs h).payload
  rw [← hid]
  cases hm : s₀.store.messages c'.commandId with
  | some m =>
      -- the message that it finds is the one of the command
      rw [hm] at hstage
      have hkept : s₂.store.messages c'.commandId = some m :=
        messages_kept_runs h (by rw [hstore, hm])
      obtain rfl : m = { c.row with otherThread := thread } := by
        rw [hid, happlied.stored] at hkept
        exact (Option.some.inj hkept).symm
      obtain ⟨hsilent, ht⟩ := replays_runs hpresented
        (by rw [hstage]; exact ⟨rfl, rfl, rfl⟩) h
      rw [hended, Stage.Replays, ← hiff] at ht
      refine ⟨fun hsame => ?_, fun hdiffers => ⟨?_, hsilent⟩⟩
      · simp [ht, hsame, hsilent]
      · simp [← Bool.not_eq_true, ht, hdiffers]
  | none =>
      rw [hm] at hstage
      have ht : (s₁.calls i).Claims c' := by
        rw [hstage]
        exact ⟨rfl, rfl⟩
      refine ⟨fun _ => ?_, fun hdiffers => ?_⟩
      · simp only [ne_eq, not_true_eq_false, false_and, iff_false, not_and]
        intro hreviewed hsilent
        have hend := claims_silent hpresented ht hsilent
        rw [hended, Stage.Claims, hreviewed] at hend
        cases hend
      · -- if it had written its own message, it would have the content of the command
        have hother : s₂.store.messages c'.commandId = some c'.row →
            ¬ (c'.commandType = .approve →
              c'.expectedPayloadHash = some target.approval.payloadHash) := by
          intro hstored hnamed
          rw [hid, happlied.stored] at hstored
          exact hdiffers (hiff.mpr ⟨Option.some.inj hstored, hnamed⟩)
        obtain ⟨hsilent, hend⟩ := claims_runs hpresented ht h hother
        rw [hended] at hend
        exact ⟨hend, hsilent⟩

end

/-- A computed run in which a request repeats a command, with a check of how it ends. -/
def repeats {n : ℕ} (i : Fin n) (c : ReviewCommand) (process : ProcessStatus)
    (ms₀ ms : List (Fin n × CallInput)) (p : Pool n Database Stage ActionEvent → Outcome → Bool) :
    Bool :=
  ((fresh n .active).run (calls (samplePlatform false)) (fun _ _ => true) ms₀).any fun s₀ =>
    (match s₀.calls i with
      | .reviewing c' (.processRead _ process') => c' = c && process' = process
      | _ => false) &&
    (s₀.step (calls (samplePlatform false)) (i, .answer (.check none))).any fun s₁ =>
      (s₁.run (calls (samplePlatform false)) (fun _ m => m.1 ≠ i || m.2 matches .answer _) ms).any
        fun s₂ =>
          s₂.store.messages c.commandId = some c.row &&
          s₂.store.payload = c.expectedPayloadHash &&
          match s₂.calls i with
          | .ended o => p s₀ o
          | _ => false

lemma repeats_sound {n : ℕ} {i : Fin n} {c : ReviewCommand} {process : ProcessStatus}
    {ms₀ ms : List (Fin n × CallInput)} {p : Pool n Database Stage ActionEvent → Outcome → Bool}
    (h : repeats i c process ms₀ ms p = true) :
    ∃ s₀ s₁ s₂ o, Runs (calls (samplePlatform false)) (fun _ _ => True) (fresh n .active) ms₀ s₀ ∧
      Looks (samplePlatform false) s₀ s₁ i c process ∧
      Runs (calls (samplePlatform false)) (Answered i) s₁ ms s₂ ∧ s₂.calls i = .ended o ∧
      Applied s₂.store c none ∧ p s₀ o = true := by
  obtain ⟨s₀, hs₀, h⟩ := (Option.any_eq_true _ _).mp h
  rw [Bool.and_eq_true] at h
  obtain ⟨hstage, h⟩ := h
  obtain ⟨s₁, hlook, h⟩ := (Option.any_eq_true _ _).mp h
  obtain ⟨s₂, hs₂, h⟩ := (Option.any_eq_true _ _).mp h
  simp only [Bool.and_eq_true, decide_eq_true_eq] at h
  obtain ⟨⟨hstored, hpayload⟩, hend⟩ := h
  have hreads : ∃ target, s₀.calls i = .reviewing c (.processRead target process) := by
    split at hstage
    · rename_i c' target process' hcalls
      obtain ⟨rfl, rfl⟩ : c' = c ∧ process' = process := by simpa using hstage
      exact ⟨target, hcalls⟩
    · cases hstage
  have hanswered : Runs (calls (samplePlatform false)) (Answered i) s₁ ms s₂ := by
    refine (runs_of_run hs₂).mono fun s m hm hi => ?_
    cases hx : m.2 with
    | answer y => exact ⟨y, rfl⟩
    | _ => simp [hx, hi] at hm
  split at hend
  · rename_i o hcalls
    exact ⟨s₀, s₁, s₂, o, (runs_of_run hs₀).mono fun _ _ _ => trivial, ⟨hreads, hlook⟩, hanswered,
      hcalls, ⟨hstored, fun _ _ => hpayload⟩, hend⟩
  · cases hend

/-- A command of the sample operator takes effect. -/
def reviewed {n : ℕ} (i : Fin n) (c : ReviewCommand) : List (Fin n × CallInput) :=
  moves i (.review c) [.go, .go, .check none, .go, .time 0, .check none]

/-- An approval that is repeated, and answered again. -/
theorem review_repeated_approved :
    ∃ (c : ReviewCommand) (ms₀ ms : List (Fin 1 × CallInput))
      (s₀ s₁ s₂ : Pool 1 Database Stage ActionEvent) (o : Outcome),
    Runs (calls (samplePlatform false)) (fun _ _ => True) (fresh 1 .active) ms₀ s₀ ∧
    Looks (samplePlatform false) s₀ s₁ 0 c .active ∧
    Runs (calls (samplePlatform false)) (Answered 0) s₁ ms s₂ ∧ s₂.calls 0 = .ended o ∧
    Applied s₂.store c none ∧
    (c.SameContent none c →
      ((o.isReviewed = true ∧
          Runs (calls (samplePlatform false)) (Silent (samplePlatform false) 0) s₁ ms s₂) ↔
        (s₀.store.messages c.commandId ≠ none ∧ ProcessStatus.active.fenced = false))) := by
  let c := sampleReview "c" .approve
  let ms₀ : List (Fin 1 × CallInput) := List.flatten
    [persisted 0 .requireApproval, reviewed 0 c, moves 0 (.review c) [.go, .go]]
  obtain ⟨s₀, s₁, s₂, o, hruns, hlooks, hanswered, hended, happlied, -⟩ := repeats_sound
    (show repeats 0 c .active ms₀ (answers 0 [.go, .time 0]) (fun _ _ => true) = true by
      decide +kernel)
  exact ⟨c, ms₀, _, s₀, s₁, s₂, o, hruns, hlooks, hanswered, hended, happlied,
    (review_repeated hruns hlooks hanswered hended happlied rfl).1⟩

/-- An approval takes effect; the process is paused; the approval is repeated, and refused. -/
theorem repeated_while_paused :
    ∃ (c : ReviewCommand) (ms₀ ms : List (Fin 1 × CallInput))
      (s₀ s₁ s₂ : Pool 1 Database Stage ActionEvent),
    Runs (calls (samplePlatform false)) (fun _ _ => True) (fresh 1 .active) ms₀ s₀ ∧
    Applied s₀.store c none ∧ Looks (samplePlatform false) s₀ s₁ 0 c .paused ∧
    Runs (calls (samplePlatform false)) (Answered 0) s₁ ms s₂ ∧
    s₂.calls 0 = .ended
      (.rejected "process state does not permit a review decision: paused") := by
  let c := sampleReview "c" .approve
  let ms₀ : List (Fin 1 × CallInput) := List.flatten
    [persisted 0 .requireApproval, reviewed 0 c, moves 0 (.setProcessStatus .paused) [.go, .go],
      moves 0 (.review c) [.go, .go]]
  obtain ⟨s₀, s₁, s₂, o, hruns, hlooks, hanswered, hended, -, hp⟩ := repeats_sound
    (show repeats 0 c .paused ms₀ (answers 0 [.go])
      (fun s₀ o => s₀.store.messages c.commandId = some c.row &&
        s₀.store.payload = c.expectedPayloadHash &&
        o = .rejected "process state does not permit a review decision: paused") = true by
      decide +kernel)
  simp only [Bool.and_eq_true, decide_eq_true_eq] at hp
  obtain ⟨⟨hstored, hpayload⟩, rfl⟩ := hp
  exact ⟨c, ms₀, _, s₀, s₁, s₂, hruns, ⟨hstored, fun _ _ => hpayload⟩, hlooks, hanswered, hended⟩

end TiramisuAgents
