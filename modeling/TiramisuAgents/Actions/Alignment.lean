import TiramisuAgents.Actions.Fence

/-!
How the rows of an action fit together.

Until an action is executed, the status of its request is that of its policy or of its approval
(`Database.standing`); from then on it follows the attempt.  The thread and the decision of an
approval follow the approval.  The gateway and the reviews write these rows together, and the
executor writes the request only together with its attempt; so the rows stay aligned as long as
a review that decides on a pending approval finds it pending in the database.

* `RowsAgree`, `Step.aligned`: the rows, and one step.
* `RowsAgree.write`, `RowsAgree.persist`, `RowsAgree.review`: one lemma for each kind of write.
* `Stage.Follows`: what a call knows when the reviews decide on the committed approval.
* `aligned_runs`: every such run.
-/

namespace TiramisuAgents

open Transactions

/-! ### The rows -/

/-- The status of the thread of an approval. -/
def ApprovalStatus.thread : ApprovalStatus → ReviewThreadStatus
  | .pending => .open_
  | .approved => .approved
  | .rejected => .rejected
  | .superseded => .revisionRequested
  | .expired | .cancelled => .cancelled

/-- The status of the request of an approval, until it is executed. -/
def ApprovalStatus.request : ApprovalStatus → Option ActionRequestStatus
  | .pending => some .pendingApproval
  | .approved => some .approved
  | .rejected => some .rejected
  | .superseded => some .superseded
  | .expired | .cancelled => none

/-- The decision behind an approval. -/
def ApprovalRow.verdict (a : ApprovalRow) : Option DecisionRow :=
  match a.status with
  | .approved => some ⟨.approved, a.payloadHash⟩
  | .rejected => some ⟨.rejected, a.payloadHash⟩
  | _ => none

/-- The status of a request that has no attempt. -/
def Database.standing (db : Database) : Option ActionRequestStatus :=
  db.policy.bind fun
    | .requireApproval => db.approval.bind fun a => a.status.request
    | outcome => some (initialActionRequestStatus outcome)

/-- The request has the status of its attempt, or both have no outcome. -/
def ActionRequestStatus.Tracks (status : ActionRequestStatus) (a : ActionAttemptStatus) : Prop :=
  ∃ b : ActionAttemptStatus, status = b.toRequest ∧
    (b = a ∨ b.terminal = false ∧ a.terminal = false)

/-- The rows of an action fit together. -/
structure RowsAgree (db : Database) : Prop where
  thread : db.thread = db.approval.map fun a => a.status.thread
  decision : db.decision = db.approval.bind ApprovalRow.verdict
  standing : (∀ key, db.attempts key = none) → ∀ row, db.request = some row →
    db.standing = some row.status
  opened : ∀ key, db.attempts key ≠ none → db.Opened
  tracks : ∀ key a, db.attempts key = some a → ∀ row, db.request = some row →
    row.status.Tracks a.status

/-- A request whose attempt has no outcome. -/
lemma ActionRequestStatus.Tracks.of_pending {status : ActionRequestStatus}
    {a : ActionAttemptStatus} (h : status.Tracks a) (ha : a.terminal = false) :
    ∃ b : ActionAttemptStatus, status = b.toRequest ∧ b.terminal = false := by
  obtain ⟨b, hstatus, rfl | ⟨hb, -⟩⟩ := h
  · exact ⟨b, hstatus, ha⟩
  · exact ⟨b, hstatus, hb⟩

lemma ActionRequestStatus.tracks_self (a : ActionAttemptStatus) : a.toRequest.Tracks a :=
  ⟨a, rfl, .inl rfl⟩

/-! ### Reviews -/

/-- The status that a command gives a pending approval. -/
def ReviewCommandType.settles : ReviewCommandType → Option ApprovalStatus
  | .approve => some .approved
  | .reject => some .rejected
  | .requestRevision => some .superseded
  | .comment | .correctFact | .cancel => none

/-- **What a review writes** on a request that waits for it. -/
lemma ReviewCommand.write_eq {c : ReviewCommand} {approval : ApprovalRow} {request : RequestRow}
    {w : ReviewWrite} (h : c.write approval request = .ok w)
    (hrequest : request.status = .pendingApproval) :
    w = { approval := c.commandType.settles
          thread := c.commandType.settles.map ApprovalStatus.thread
          request := c.commandType.settles.bind ApprovalStatus.request
          decision := c.commandType.settles.bind fun status =>
            { approval with status := status }.verdict } := by
  unfold ReviewCommand.write at h
  dsimp only at h
  simp only [hrequest, reduceCtorEq, if_false] at h
  split at h
  · rename_i htype
    split_ifs at h
    obtain rfl := Except.ok.inj h
    rw [htype]
    rfl
  · rename_i htype
    obtain rfl := Except.ok.inj h
    rw [htype]
    rfl
  · rename_i htype
    obtain rfl := Except.ok.inj h
    rw [htype]
    rfl
  · rename_i htype
    obtain rfl := Except.ok.inj h
    rw [htype]
    rfl
  · cases h

/-- A command settles an approval with a status that has a request. -/
lemma ReviewCommandType.settles_cases {type : ReviewCommandType} {status : ApprovalStatus}
    (h : type.settles = some status) :
    status = .approved ∨ status = .rejected ∨ status = .superseded := by
  cases type <;> simp_all [ReviewCommandType.settles]

/-- A review that is about to commit has found the request waiting for it. -/
def Stage.Undecided : Stage → Prop
  | .reviewing _ (.flushing _ request _) => request.status = .pendingApproval
  | _ => True

/-- A claimed action may be executed. -/
def Stage.Entitled (db : Database) : Stage → Prop
  | .claimed _ _ _ _ => db.Opened
  | _ => True

section

variable {P : Platform} {t t' u : Stage} {x : CallInput} {db db' : Database}
  {obs : List ActionEvent}

/-- What is permitted may be executed. -/
lemma Loaded.Permitted.opened {row : Loaded} (h : row.Permitted db) (hrow : row.Current db) :
    db.Opened := by
  obtain ⟨hallow, -⟩ | ⟨-, ⟨a, ha, -, hstatus⟩, -⟩ := h
  · exact .inl (hrow.policy.trans (by rw [hallow]))
  · exact .inr ⟨a, ha, hstatus⟩

lemma Step.entitled (h : Step P t x db t' db' obs) (ht : t.Knows P db) : t'.Entitled db' := by
  cases h with
  | halt => cases t' <;> trivial
  | start c => cases c <;> trivial
  | claim =>
      obtain ⟨-, -, hcurrent, -, hpermitted⟩ := ht
      exact hpermitted.opened hcurrent
  | _ => trivial

lemma Step.entitled_other (h : Step P t x db t' db' obs) (hlocks : ∀ l ∈ u.locks, l ∉ t.locks)
    (hu : u.Entitled db) : u.Entitled db' := by
  cases u with
  | claimed =>
      obtain ⟨-, -, hpolicy, happroval, -⟩ := h.process_frame (hlocks _ (by simp [Stage.locks]))
      obtain hallow | ⟨a, ha, hstatus⟩ := hu
      · exact .inl (hpolicy.trans hallow)
      · exact .inr ⟨a, happroval.trans ha, hstatus⟩
  | _ => trivial

/-- The status of a request that may be executed and has no attempt. -/
lemma Database.Opened.standing (hopened : db.Opened) (hdb : db.Consistent P) :
    db.standing = some .allowed ∨ db.standing = some .approved := by
  obtain hallow | ⟨a, ha, hstatus⟩ := hopened
  · exact .inl (by simp [Database.standing, hallow, initialActionRequestStatus])
  · have hpolicy := (hdb.approval a ha).1
    exact .inr (by simp [Database.standing, hpolicy, ha, hstatus, ApprovalStatus.request])

/-- A pending approval has a request that waits for it, and no attempt. -/
lemma RowsAgree.waiting (h : RowsAgree db) (hdb : db.Consistent P) {a : ApprovalRow}
    (ha : db.approval = some a) (hpending : a.status = .pending) :
    (∀ key, db.attempts key = none) ∧ db.decision = none ∧
      ∀ row, db.request = some row → row.status = .pendingApproval := by
  have hnot := (hdb.not_opened_of_pending ha hpending).1
  have hnone : ∀ key, db.attempts key = none := by
    intro key
    by_contra hkey
    exact hnot (h.opened key hkey)
  refine ⟨hnone, ?_, fun row hrow => ?_⟩
  · rw [h.decision, ha, Option.bind_some, ApprovalRow.verdict, hpending]
  · have hstanding := h.standing hnone row hrow
    have hpolicy := (hdb.approval a ha).1
    simp only [Database.standing, hpolicy, ha, Option.bind_some, hpending,
      ApprovalStatus.request, Option.some.injEq] at hstanding
    exact hstanding.symm

/-- A review that decides on the committed approval finds its request waiting. -/
lemma Step.undecided (h : Step P t x db t' db' obs) (hdb : db.Consistent P)
    (hcommitted : t.Committed db) (haligned : RowsAgree db) : t'.Undecided := by
  cases h with
  | halt => cases t' <;> trivial
  | start c => cases c <;> trivial
  | decideReview c target now request write hpending hopen hfound =>
      exact (haligned.waiting hdb (hcommitted c target none rfl) hpending).2.2 request hfound
  | _ => trivial

/-- The rows after a commit of the executor or of an operator: the attempt of the key is the
only one, and the request has its status or neither has an outcome. -/
lemma RowsAgree.write (haligned : RowsAgree db) (hdb' : db'.Consistent P) (key : String)
    {a : AttemptRow} (hthread : db'.thread = db.thread) (happroval : db'.approval = db.approval)
    (hdecision : db'.decision = db.decision) (hopened : db'.Opened)
    (ha : db'.attempts key = some a)
    (htracks : ∀ row, db'.request = some row → row.status.Tracks a.status) : RowsAgree db' where
  thread := by rw [hthread, happroval, haligned.thread]
  decision := by rw [hdecision, happroval, haligned.decision]
  standing hnone := absurd ((hnone key).symm.trans ha) (by simp)
  opened _ _ := hopened
  tracks key' a' ha' row hrow := by
    have hkey : key' = key :=
      (hdb'.keyed key' (by simp [ha'])).unique (hdb'.keyed key (by simp [ha]))
    rw [hkey, ha] at ha'
    rw [← Option.some.inj ha']
    exact htracks row hrow

/-- The rows after the gateway has inserted them, or found them. -/
lemma RowsAgree.persist (haligned : RowsAgree db) (hdb : db.Consistent P) (p : Proposal)
    (payloadHash : String) : RowsAgree (db.persist p payloadHash) := by
  cases hrequest : db.request with
  | none =>
      obtain ⟨-, hpolicy, happroval, hattempts⟩ := hdb.absent hrequest
      have hthread : db.thread = none := by rw [haligned.thread, happroval, Option.map_none]
      have hdecision : db.decision = none := by rw [haligned.decision, happroval, Option.bind_none]
      refine ⟨?_, ?_, fun _ row hrow => ?_, fun key hkey => absurd (hattempts key) hkey,
        fun key a ha => ?_⟩
      · by_cases houtcome : p.outcome = .requireApproval <;>
          simp [Database.persist, hpolicy, happroval, hthread, houtcome, ApprovalStatus.thread]
      · by_cases houtcome : p.outcome = .requireApproval <;>
          simp [Database.persist, hpolicy, happroval, hdecision, houtcome, ApprovalRow.verdict]
      · have hrow : p.request = row := by simpa [Database.persist, hrequest] using hrow
        rw [← hrow]
        cases houtcome : p.outcome <;>
          simp [Database.standing, Database.persist, hpolicy, happroval, houtcome,
            Proposal.request, initialActionRequestStatus, ApprovalStatus.request]
      · exact absurd ((hattempts key).symm.trans ha) (by simp)
  | some request =>
      obtain ⟨-, hpolicy, happroval⟩ := hdb.present (by simp [hrequest])
      obtain ⟨policy, hpolicy⟩ := Option.ne_none_iff_exists'.mp hpolicy
      have hsame : (db.persist p payloadHash).policy = db.policy ∧
          (db.persist p payloadHash).approval = db.approval ∧
          (db.persist p payloadHash).thread = db.thread ∧
          (db.persist p payloadHash).request = db.request := by
        by_cases hneeds : policy = .requireApproval
        · obtain ⟨a, ha⟩ :=
            Option.ne_none_iff_exists'.mp (happroval (hpolicy.trans (by rw [hneeds])))
          have hthread := haligned.thread
          rw [ha, Option.map_some] at hthread
          simp [Database.persist, hpolicy, hneeds, ha, hthread, hrequest]
        · simp [Database.persist, hpolicy, hneeds, hrequest]
      obtain ⟨hpol, happ, hthread, hreq⟩ := hsame
      refine ⟨?_, ?_, fun hnone row hrow => ?_, fun key hkey => ?_, fun key a ha row hrow => ?_⟩
      · rw [hthread, happ, haligned.thread]
      · rw [happ]
        exact haligned.decision
      · rw [Database.standing, hpol, happ]
        exact haligned.standing hnone row (hreq ▸ hrow)
      · rw [Database.Opened, hpol, happ]
        exact haligned.opened key hkey
      · exact haligned.tracks key a ha row (hreq ▸ hrow)

/-- The rows after a review of a pending approval. -/
lemma RowsAgree.review (haligned : RowsAgree db) (hdb : db.Consistent P) {c : ReviewCommand}
    {a : ApprovalRow} {request : RequestRow} {w : ReviewWrite} (ha : db.approval = some a)
    (hpending : a.status = .pending) (hwritten : c.write a request = .ok w)
    (hrequest : request.status = .pendingApproval) : RowsAgree (db.review c w) := by
  obtain ⟨hnone, hdecision, hwaiting⟩ := haligned.waiting hdb ha hpending
  have hpolicy := (hdb.approval a ha).1
  have hthread : db.thread = some .open_ := by
    rw [haligned.thread, ha, Option.map_some, hpending, ApprovalStatus.thread]
  rw [ReviewCommand.write_eq hwritten hrequest]
  refine ⟨?_, ?_, fun _ row hrow => ?_, fun key hkey => absurd (hnone key) hkey,
    fun key a' ha' => absurd ((hnone key).symm.trans ha') (by simp)⟩
  · cases hsettles : c.commandType.settles <;>
      simp [Database.review, ha, hthread, hpending, ApprovalStatus.thread]
  · cases hsettles : c.commandType.settles with
    | none => simp [Database.review, ha, hpending, hdecision, ApprovalRow.verdict]
    | some status => simp [Database.review, ha, hdecision]
  · obtain ⟨old, hold, rfl⟩ := Option.map_eq_some_iff.mp hrow
    cases hsettles : c.commandType.settles with
    | none =>
        simp [Database.standing, Database.review, hpolicy, ha, hpending, hwaiting old hold,
          ApprovalStatus.request]
    | some status =>
        obtain rfl | rfl | rfl := ReviewCommandType.settles_cases hsettles <;>
          simp [Database.standing, Database.review, hpolicy, ha, ApprovalStatus.request]

/-- **A step keeps the rows aligned**, if the review it commits has decided on the committed
approval. -/
lemma Step.aligned (h : Step P t x db t' db' obs) (hdb : db.Consistent P) (ht : t.Knows P db)
    (hfresh : t.Fresh db) (hundecided : t.Undecided) (hentitled : t.Entitled db)
    (haligned : RowsAgree db) : RowsAgree db' := by
  have hdb' := h.consistent hdb ht
  have hopened := h.opened hdb hfresh
  have own {key : String} {a : AttemptRow} (ha : db.attempts key = some a) : db.Opened :=
    haligned.opened key (by simp [ha])
  have status (b a : ActionAttemptStatus) (hb : b.terminal = false) (ha : a.terminal = false)
      (row : RequestRow) (hrow : (db.setRequestStatus b.toRequest).request = some row) :
      row.status.Tracks a := by
    obtain ⟨old, -, rfl⟩ := Option.map_eq_some_iff.mp hrow
    exact ⟨b, rfl, .inr ⟨hb, ha⟩⟩
  have recorded (a : ActionAttemptStatus) (row : RequestRow)
      (hrow : (db.setRequestStatus a.toRequest).request = some row) : row.status.Tracks a := by
    obtain ⟨old, -, rfl⟩ := Option.map_eq_some_iff.mp hrow
    exact ActionRequestStatus.tracks_self a
  cases h with
  | insert revision key adapter =>
      exact haligned.write hdb' key rfl rfl rfl (hopened hentitled) (Function.update_self ..)
        (recorded .executing)
  | reclaim revision key adapter attempt hpending =>
      exact haligned.write hdb' key rfl rfl rfl (hopened (own ht.2.2)) ht.2.2
        (status .executing _ rfl hpending)
  | remark key attempt =>
      exact haligned.write hdb' key rfl rfl rfl (hopened (own ht.1)) ht.1
        (status .reconciling _ rfl ht.2)
  | mark key attempt =>
      exact haligned.write hdb' key rfl rfl rfl (hopened (own ht.1)) (Function.update_self ..)
        (recorded .reconciling)
  | record key outcome attempt =>
      exact haligned.write hdb' key rfl rfl rfl (hopened (own ht)) (Function.update_self ..)
        (recorded outcome.status)
  | resolve c attempt =>
      exact haligned.write hdb' c.idempotencyKey rfl rfl rfl (hopened (own ht))
        (Function.update_self ..) (recorded c.resolution.status)
  | review c target request write =>
      exact haligned.review hdb hfresh.1 hfresh.2.1 hfresh.2.2 hundecided
  | persist p => exact haligned.persist hdb p _
  | setStatus =>
      exact ⟨haligned.thread, haligned.decision, haligned.standing, haligned.opened,
        haligned.tracks⟩
  | reviewElsewhere =>
      exact ⟨haligned.thread, haligned.decision, haligned.standing, haligned.opened,
        haligned.tracks⟩
  | _ => exact haligned

/-! ### What the calls know -/

/-- What a call knows when the reviews decide on the committed approval. -/
structure Stage.Follows (P : Platform) (db : Database) (t : Stage) : Prop where
  knows : t.Knows P db
  fresh : t.Fresh db
  undecided : t.Undecided
  entitled : t.Entitled db

lemma Step.follows (h : Step P t x db t' db' obs) (hdb : db.Consistent P)
    (haligned : RowsAgree db) (hcommitted : t.Committed db) (ht : t.Follows P db) :
    t'.Follows P db' :=
  ⟨h.knows ht.knows, h.fresh hcommitted, h.undecided hdb hcommitted haligned,
    h.entitled ht.knows⟩

lemma Step.follows_other (h : Step P t x db t' db' obs) (hlocks : ∀ l ∈ u.locks, l ∉ t.locks)
    (ht : t.Follows P db) (hu : u.Follows P db) : u.Follows P db' :=
  ⟨h.knows_other hlocks ht.knows hu.knows, h.fresh_other hlocks hu.fresh, hu.undecided,
    h.entitled_other hlocks hu.entitled⟩

lemma Stage.committed_idle (db : Database) : Stage.Committed db .idle := by
  intro c target existing h
  cases h

lemma Stage.committed_setting (status : ProcessStatus) (db : Database) :
    Stage.Committed db (.settingStatusLocked status) := by
  intro c target existing h
  cases h

variable (P) in
/-- The rule for runs in which the reviews decide on the committed approval. -/
lemma alignedJoint : Joint (calls P) (fun t _ db _ => t.Committed db) (fun _ _ _ _ => True)
    (fun db _ => db.Consistent P ∧ RowsAgree db) (fun t db _ => t.Follows P db) where
  own hnext hcommitted hdb ht :=
    have h := Step.of_next hnext
    ⟨⟨h.consistent hdb.1 ht.knows,
        h.aligned hdb.1 ht.knows ht.fresh ht.undecided ht.entitled hdb.2⟩,
      h.follows hdb.1 hdb.2 hcommitted ht⟩
  other hnext _ _ hlocks _ ht hu := (Step.of_next hnext).follows_other hlocks ht hu

lemma aligned_fresh (process : ProcessStatus) : RowsAgree { process := process } where
  thread := rfl
  decision := rfl
  standing _ _ h := absurd h.symm (Option.some_ne_none _)
  opened _ h := absurd rfl h
  tracks _ _ h := absurd h.symm (Option.some_ne_none _)

/-- **Every run** in which the reviews decide on the committed approval keeps the rows aligned. -/
theorem aligned_runs {n : ℕ} {process : ProcessStatus} {s : Pool n Database Stage ActionEvent}
    {ms : List (Fin n × CallInput)}
    (h : Runs (calls P) (fun s m => (s.calls m.1).Committed s.store) (fresh n process) ms s) :
    Joint.Holds (calls P) (fun db _ => db.Consistent P ∧ RowsAgree db)
      (fun t db _ => t.Follows P db) s :=
  (alignedJoint P).runs (fun _ _ _ hG => hG) (fun _ _ _ _ _ _ => trivial) h
    (fresh_holds P n process ⟨consistent_fresh P process, aligned_fresh process⟩
      ⟨trivial, trivial, trivial, trivial⟩)

end

end TiramisuAgents
