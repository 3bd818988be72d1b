import TiramisuAgents.Actions.Replays

/-!
Whether an attempt that has no outcome can still get one.

An execution that stops leaves an attempt behind.  A reconciliation settles it as long as the
process runs and the action may be executed, and an operator settles it once its outcome is unknown.
Otherwise no call settles it: an execution that has been claimed, and whose process is fenced or
whose approval is taken back by then, stays as it is.

* `Ready`, `ready_runs`: the rows behind an attempt, in every run, whatever the reviews decide on.
* `Ready.authorised`, `solo_reconcile`, `solo_resolve`: the calls that settle an attempt.
* `Stuck`, `Stage.Barred`, `Step.barred`: where the calls stand if none of them can.
* `attempt_settled`: every reachable state in which no call is under way.
-/

namespace TiramisuAgents

open Transactions

/-! ### The rows behind an attempt -/

/-- The rows of an action that may be executed say so, an attempt has an adapter and no pending
approval, and a resolution has an outcome. -/
structure Ready (P : Platform) (db : Database) : Prop where
  consistent : db.Consistent P
  revision : ∀ row, db.request = some row → row.currentRevision = 1
  payload : ∀ a row, db.approval = some a → db.revision = some row →
    a.payloadHash = row.payloadHash
  decided : ∀ a, db.approval = some a → a.status = .approved →
    db.decision = some ⟨.approved, a.payloadHash⟩
  executable : db.Opened → ∀ row, db.request = some row →
    db.standing = some row.status ∨ row.status.retryable = true
  attempted : ∀ key, db.attempts key ≠ none →
    (db.adapter P).isSome = true ∧ ∀ a, db.approval = some a → a.status ≠ .pending
  resolved : ∀ key c, db.resolutions key = some c →
    ∃ a, db.attempts key = some a ∧ a.status.terminal = true

/-- A review that is about to commit leaves a request as it is that is approved. -/
def Stage.Stamps (db : Database) : Stage → Prop
  | .reviewing c (.flushing target request write) =>
      c.write target.approval request = .ok write ∧ (request.status = .approved →
        ∀ row, db.request = some row → row.status = .approved ∨ row.status.retryable = true)
  | _ => True

section

variable {P : Platform} {t t' u : Stage} {x : CallInput} {db db' : Database}
  {obs : List ActionEvent}

lemma toRequest_retryable (a : ActionAttemptStatus) : a.toRequest.retryable = true := by
  cases a <;> rfl

lemma setRequestStatus_retryable {status : ActionRequestStatus} {row : RequestRow}
    (hstatus : status.retryable = true)
    (h : db.request.map (fun row => { row with status := status }) = some row) :
    row.status.retryable = true := by
  obtain ⟨old, -, rfl⟩ := Option.map_eq_some_iff.mp h
  exact hstatus

/-- A step is a commit of a review or of the gateway, or it leaves what they write and makes a
request retryable at most. -/
lemma Step.rows_cases (h : Step P t x db t' db' obs) :
    (∃ c target request write, t = .reviewing c (.flushing target request write) ∧
      db' = db.review c write) ∨
    (∃ p payloadHash, t = .persistingLocked p ∧ db' = db.persist p payloadHash) ∨
    ((db'.revision = db.revision ∧ db'.policy = db.policy ∧ db'.approval = db.approval ∧
        db'.decision = db.decision) ∧
      ∀ row, db'.request = some row → db.request = some row ∨ row.status.retryable = true) := by
  cases h with
  | review c target request write => exact .inl ⟨c, target, request, write, rfl, rfl⟩
  | persist p outcome payloadHash => exact .inr (.inl ⟨p, payloadHash, rfl, rfl⟩)
  | insert | reclaim | remark | mark =>
      exact .inr (.inr ⟨⟨rfl, rfl, rfl, rfl⟩, fun row h =>
        .inr (setRequestStatus_retryable rfl h)⟩)
  | record | resolve =>
      exact .inr (.inr ⟨⟨rfl, rfl, rfl, rfl⟩, fun row h =>
        .inr (setRequestStatus_retryable (toRequest_retryable _) h)⟩)
  | _ => exact .inr (.inr ⟨⟨rfl, rfl, rfl, rfl⟩, fun row h => .inl h⟩)

/-- The gateway writes the rows of an action once. -/
lemma Database.Consistent.persist_eq (hdb : db.Consistent P) (hrequest : db.request ≠ none)
    (p : Proposal) (payloadHash : String) :
    db.persist p payloadHash = { db with thread := (db.persist p payloadHash).thread } := by
  obtain ⟨hrevision, hpolicy, happroval⟩ := hdb.present hrequest
  obtain ⟨row, hrow⟩ := Option.ne_none_iff_exists'.mp hrequest
  obtain ⟨revision, hrevision⟩ := Option.ne_none_iff_exists'.mp hrevision
  obtain ⟨outcome, houtcome⟩ := Option.ne_none_iff_exists'.mp hpolicy
  have hkept : (db.persist p payloadHash).approval = db.approval := by
    simp only [Database.persist, houtcome, Option.getD_some]
    split_ifs with hneeds
    · obtain ⟨a, ha⟩ := Option.ne_none_iff_exists'.mp (happroval (houtcome.trans (by rw [hneeds])))
      rw [ha, Option.getD_some]
    · rfl
  simp only [Database.persist, hrow, hrevision, houtcome, Option.getD_some] at hkept ⊢
  rw [hkept]

/-- What the gateway writes keeps the rows ready. -/
lemma Ready.persist (hdb : Ready P db) (p : Proposal) (payloadHash : String) :
    Ready P (db.persist p payloadHash) := by
  have hconsistent := hdb.consistent.persist p payloadHash
  by_cases hrequest : db.request = none
  · -- the rows are inserted together
    obtain ⟨hrevision, hpolicy, happroval, hattempts⟩ := hdb.consistent.absent hrequest
    have hnew : ∀ a, (db.persist p payloadHash).approval = some a →
        p.outcome = .requireApproval ∧ a = { status := .pending, payloadHash := payloadHash } := by
      intro a ha
      simp only [Database.persist, hpolicy, happroval, Option.getD_none] at ha
      split_ifs at ha with hneeds
      exact ⟨hneeds, (Option.some.inj ha).symm⟩
    refine ⟨hconsistent, ?_, ?_, ?_, ?_, ?_, ?_⟩
    · intro row hrow
      simp only [Database.persist, hrequest, Option.getD_none, Option.some.injEq] at hrow
      rw [← hrow]
      rfl
    · intro a row ha hrow
      simp only [Database.persist, hrevision, Option.getD_none, Option.some.injEq] at hrow
      rw [(hnew a ha).2, ← hrow]
    · intro a ha hstatus
      rw [(hnew a ha).2] at hstatus
      cases hstatus
    · rintro (hallow | ⟨a, ha, hstatus⟩) row hrow
      · simp only [Database.persist, hpolicy, Option.getD_none, Option.some.injEq] at hallow
        simp only [Database.persist, hrequest, Option.getD_none, Option.some.injEq] at hrow
        left
        simp [Database.standing, Database.persist, hpolicy, hallow, ← hrow, Proposal.request]
      · rw [(hnew a ha).2] at hstatus
        cases hstatus
    · intro key hkey
      exact absurd (hattempts key) hkey
    · exact hdb.resolved
  · rw [hdb.consistent.persist_eq hrequest] at hconsistent ⊢
    exact ⟨hconsistent, hdb.revision, hdb.payload, hdb.decided, hdb.executable, hdb.attempted,
      hdb.resolved⟩

/-- What a review writes to an approval. -/
lemma ReviewCommand.write_cases {c : ReviewCommand} {approval : ApprovalRow} {request : RequestRow}
    {w : ReviewWrite} (h : c.write approval request = .ok w) :
    w = {} ∨
    (w.approval = some .rejected ∨ w.approval = some .superseded) ∨
    (w.approval = some .approved ∧ w.decision = some ⟨.approved, approval.payloadHash⟩ ∧
      w.request = if request.status = .approved then none else some .approved) := by
  unfold ReviewCommand.write at h
  dsimp only at h
  split at h
  · split at h
    · cases h
    · obtain rfl := Except.ok.inj h
      exact .inr (.inr ⟨rfl, rfl, rfl⟩)
  · obtain rfl := Except.ok.inj h
    exact .inr (.inl (.inl rfl))
  · obtain rfl := Except.ok.inj h
    exact .inr (.inl (.inr rfl))
  · obtain rfl := Except.ok.inj h
    exact .inl rfl
  · cases h

/-- What a review writes keeps the rows ready. -/
lemma Ready.review (hdb : Ready P db) {c : ReviewCommand} {target : ReviewTarget}
    {request : RequestRow} {write : ReviewWrite}
    (htarget : db.payload = some target.approval.payloadHash)
    (hstamps : Stage.Stamps db (.reviewing c (.flushing target request write)))
    (hconsistent : (db.review c write).Consistent P) : Ready P (db.review c write) := by
  obtain ⟨a, ha, hpayload⟩ := Option.map_eq_some_iff.mp htarget
  have hpolicy := (hdb.consistent.approval a ha).1
  obtain ⟨hwritten, happroved⟩ := hstamps
  have hrow : ∀ row, (db.review c write).request = some row → ∃ old, db.request = some old ∧
      row = { old with status := write.request.getD old.status } := by
    intro row hrow
    obtain ⟨old, hold, rfl⟩ := Option.map_eq_some_iff.mp hrow
    exact ⟨old, hold, rfl⟩
  have hrevision : ∀ row, (db.review c write).request = some row → row.currentRevision = 1 := by
    intro row hnew
    obtain ⟨old, hold, rfl⟩ := hrow row hnew
    exact hdb.revision old hold
  have hadapter : (db.review c write).adapter P = db.adapter P := by
    cases hrequest : db.request <;> simp [Database.adapter, Database.review, hrequest]
  -- a decision gives the approval another status
  have settled {status : ApprovalStatus} (hstatus : write.approval = some status)
      (hsettled : status ≠ .pending) (hdecided : status = .approved →
        write.decision = some ⟨.approved, a.payloadHash⟩ ∧ ∀ old, db.request = some old →
          write.request.getD old.status = .approved ∨
            (write.request.getD old.status).retryable = true) : Ready P (db.review c write) := by
    have hnew : (db.review c write).approval = some { a with status := status } := by
      simp [Database.review, ha, hstatus]
    refine ⟨hconsistent, hrevision, ?_, ?_, ?_, ?_, hdb.resolved⟩
    · intro b row hb hrow
      rw [← Option.some.inj (hnew.symm.trans hb)]
      exact hdb.payload a row ha hrow
    · intro b hb hb'
      rw [← Option.some.inj (hnew.symm.trans hb)] at hb' ⊢
      simp only [Database.review, (hdecided hb').1, Option.some_or]
    · rintro (hallow | ⟨b, hb, hb'⟩) row hnewrow
      · exact absurd (hpolicy.symm.trans hallow) (by simp)
      · rw [← Option.some.inj (hnew.symm.trans hb)] at hb'
        have hb' : status = .approved := hb'
        obtain ⟨old, hold, rfl⟩ := hrow row hnewrow
        refine ((hdecided hb').2 old hold).imp_left fun hrow => ?_
        have hpolicy : (db.review c write).policy = some .requireApproval := hpolicy
        simp [Database.standing, hpolicy, hnew, hb', ApprovalStatus.request, hrow]
    · intro key hkey
      rw [hadapter]
      refine ⟨(hdb.attempted key hkey).1, fun b hb => ?_⟩
      rw [← Option.some.inj (hnew.symm.trans hb)]
      exact hsettled
  obtain rfl | hclosed | ⟨hstatus, hdecision, hrequest⟩ := ReviewCommand.write_cases hwritten
  · -- a comment leaves the rows as they are
    have happroval : (db.review c {}).approval = db.approval := by simp [Database.review]
    have hsame : (db.review c {}).request = db.request := by simp [Database.review]
    have hstanding : (db.review c {}).standing = db.standing := by
      simp only [Database.standing, happroval]
      rfl
    refine ⟨hconsistent, hrevision, ?_, ?_, ?_, ?_, hdb.resolved⟩
    · rw [happroval]
      exact hdb.payload
    · rw [happroval]
      exact hdb.decided
    · rw [Database.Opened, happroval, hsame, hstanding]
      exact hdb.executable
    · rw [hadapter, happroval]
      exact hdb.attempted
  · obtain hstatus | hstatus := hclosed <;>
      exact settled hstatus (by simp) (fun happroved => by cases happroved)
  · refine settled hstatus (by simp) fun _ => ⟨by rw [hdecision, hpayload], fun old hold => ?_⟩
    rw [hrequest]
    split_ifs with hstays
    · exact happroved hstays old hold
    · exact .inl rfl

/-- An attempt is inserted for an action that may be executed. -/
lemma Step.attempt_new (h : Step P t x db t' db' obs) (ht : t.Knows P db)
    (hentitled : t.Entitled db) {key : String} (hold : db.attempts key = none)
    (hnew : db'.attempts key ≠ none) :
    ∃ adapter, db'.adapter P = some adapter ∧ db.Opened := by
  have hgrows := h.grows
  -- the attempts that are written are there, but for the one of a claim
  have written {key' : String} {row attempt : AttemptRow} (hrow : db.attempts key' = some row)
      (hnew : Function.update db.attempts key' (some attempt) key ≠ none) : False := by
    by_cases hkey : key = key'
    · rw [hkey, hrow] at hold
      cases hold
    · rw [Function.update_of_ne hkey] at hnew
      exact hnew hold
  cases h with
  | insert revision key' adapter => exact ⟨adapter, hgrows.adapter_eq ht.2.1, hentitled⟩
  | mark key' attempt => exact (written ht.1 hnew).elim
  | record key' outcome attempt => exact (written ht hnew).elim
  | resolve c attempt => exact (written ht hnew).elim
  | _ => exact absurd hold hnew

/-- A resolution is stored with its outcome. -/
lemma Step.resolution_cases (h : Step P t x db t' db' obs) {key : String}
    {c : OperatorActionResolution} (hc : db'.resolutions key = some c) :
    db.resolutions key = some c ∨ ∃ a, db'.attempts key = some a ∧ a.status.terminal = true := by
  cases h with
  | resolve command attempt =>
      by_cases hkey : key = command.idempotencyKey
      · refine .inr ⟨(command.kept P.jsonb).apply attempt, ?_, ?_⟩
        · rw [hkey]
          exact Function.update_self ..
        · rw [OperatorActionResolution.apply_status]
          cases (command.kept P.jsonb).resolution <;> rfl
      · dsimp only at hc
        rw [Function.update_of_ne hkey] at hc
        exact .inl hc
  | _ => exact .inl hc

/-- **A step keeps the rows ready.** -/
lemma Step.ready (h : Step P t x db t' db' obs) (hdb : Ready P db) (ht : t.Knows P db)
    (htargets : t.Targets db) (hentitled : t.Entitled db) (hstamps : t.Stamps db) :
    Ready P db' := by
  have hconsistent := h.consistent hdb.consistent ht
  obtain ⟨c, target, request, write, rfl, rfl⟩ | ⟨p, payloadHash, rfl, rfl⟩ |
    ⟨⟨hrevision, hpolicy, happroval, hdecision⟩, hrequest⟩ := h.rows_cases
  · exact hdb.review (htargets target rfl) hstamps hconsistent
  · exact hdb.persist p payloadHash
  · have hstanding : db'.standing = db.standing := by
      simp only [Database.standing, hpolicy, happroval]
    refine ⟨hconsistent, h.revision_kept hdb.revision, ?_, ?_, ?_, ?_, ?_⟩
    · rw [happroval, hrevision]
      exact hdb.payload
    · rw [happroval, hdecision]
      exact hdb.decided
    · rw [Database.Opened, hpolicy, happroval, hstanding]
      exact fun hopened row hrow => (hrequest row hrow).elim
        (hdb.executable hopened row) .inr
    · rw [happroval]
      intro key hkey
      by_cases hold : db.attempts key = none
      · obtain ⟨adapter, hadapter, hopened⟩ := h.attempt_new ht hentitled hold hkey
        refine ⟨by rw [hadapter, Option.isSome_some], fun a ha hpending => ?_⟩
        exact (hdb.consistent.not_opened_of_pending ha hpending).1 hopened
      · obtain ⟨hadapter, hpending⟩ := hdb.attempted key hold
        obtain ⟨adapter, hadapter⟩ := Option.isSome_iff_exists.mp hadapter
        exact ⟨by rw [h.grows.adapter_eq hadapter, Option.isSome_some], hpending⟩
    · intro key c hc
      obtain hc | ⟨a, ha, hterminal⟩ := h.resolution_cases hc
      · obtain ⟨a, ha, hterminal⟩ := hdb.resolved key c hc
        exact ⟨a, h.terminal_kept ht ha hterminal, hterminal⟩
      · exact ⟨a, ha, hterminal⟩

/-! ### What a review has decided -/

lemma Step.stamps (h : Step P t x db t' db' obs) : t'.Stamps db' := by
  cases h with
  | halt resting => cases t' with
    | idle => trivial
    | ended => trivial
    | _ => cases resting
  | start c => cases c <;> trivial
  | decideReview c target now request write _ _ hfound hwritten =>
      refine ⟨hwritten, fun happroved row hrow => .inl ?_⟩
      rw [← Option.some.inj (hfound.symm.trans hrow), happroved]
  | _ => trivial

lemma Step.stamps_other (h : Step P t x db t' db' obs) (hlocks : ∀ l ∈ u.locks, l ∉ t.locks)
    (hu : u.Stamps db) : u.Stamps db' := by
  cases u with
  | reviewing c r =>
      cases r with
      | flushing target request write =>
          have hprocess : RowLock.process ∉ t.locks := by
            refine hlocks _ ?_
            simp only [Stage.locks, Reviewing.locks]
            split <;> simp
          refine ⟨hu.1, fun happroved row hrow => ?_⟩
          obtain ⟨c', target', request', write', rfl, -⟩ | ⟨p, payloadHash, rfl, -⟩ |
            ⟨-, hrequest⟩ := h.rows_cases
          · refine absurd ?_ hprocess
            simp only [Stage.locks, Reviewing.locks]
            split <;> simp
          · exact absurd (by simp [Stage.locks]) hprocess
          · obtain hold | hretryable := hrequest row hrow
            · exact hu.2 happroved row hold
            · exact .inr hretryable
      | _ => trivial
  | _ => trivial

/-! ### Runs -/

variable (P) in
/-- The rule for the rows behind an attempt. -/
lemma readyJoint : Joint (calls P) (fun _ _ _ _ => True) (fun _ _ _ _ => True)
    (fun db _ => Ready P db)
    (fun t db _ => t.Knows P db ∧ t.Targets db ∧ t.Entitled db ∧ t.Stamps db) where
  own hnext _ hdb ht := by
    have h := Step.of_next hnext
    obtain ⟨hknows, htargets, hentitled, hstamps⟩ := ht
    exact ⟨h.ready hdb hknows htargets hentitled hstamps, h.knows hknows, h.targets htargets,
      h.entitled hknows, h.stamps⟩
  other hnext _ _ hlocks _ ht hu := by
    have h := Step.of_next hnext
    obtain ⟨hknows, htargets, hentitled, hstamps⟩ := hu
    exact ⟨h.knows_other hlocks ht.1 hknows, h.targets_other htargets,
      h.entitled_other hlocks hentitled, h.stamps_other hlocks hstamps⟩

lemma ready_fresh (process : ProcessStatus) : Ready P { process := process } where
  consistent := consistent_fresh P process
  revision _ h := absurd h.symm (Option.some_ne_none _)
  payload _ _ h := absurd h.symm (Option.some_ne_none _)
  decided _ h := absurd h.symm (Option.some_ne_none _)
  executable _ _ h := absurd h.symm (Option.some_ne_none _)
  attempted _ h := absurd rfl h
  resolved _ _ h := absurd h.symm (Option.some_ne_none _)

/-- **Every run** keeps the rows behind an attempt ready. -/
theorem ready_runs {n : ℕ} {process : ProcessStatus} {s : Pool n Database Stage ActionEvent}
    {ms : List (Fin n × CallInput)}
    (h : Runs (calls P) (fun _ _ => True) (fresh n process) ms s) : Ready P s.store :=
  ((readyJoint P).runs (fun _ _ _ _ => trivial) (fun _ _ _ _ _ _ => trivial) h
    (fresh_holds P n process (ready_fresh process) ⟨trivial, trivial, trivial, trivial⟩)).common

/-! ### The calls that settle an attempt -/

/-- An action that may be executed passes the checks of its authorisation. -/
lemma Ready.authorised (hdb : Ready P db) (hunfenced : db.process.fenced = false)
    (hopened : db.Opened) {key : String} (hkey : db.attempts key ≠ none) :
    ∃ row, db.row 1 = some row ∧ row.refusal 1 = none ∧
      (row.policy = .requireApproval → (∀ now, row.approvalRefusal db.approval now = none) ∧
        row.decisionRefusal db.decision = none) ∧
      key = P.executionIdempotencyKey 1 row.revision.payloadHash ∧
      (P.adapters row.request.actionType).isSome = true := by
  have hrequest : db.request ≠ none := fun hnone => hkey ((hdb.consistent.absent hnone).2.2.2 key)
  obtain ⟨hrevision, hpolicy, -⟩ := hdb.consistent.present hrequest
  obtain ⟨request, hrequest⟩ := Option.ne_none_iff_exists'.mp hrequest
  obtain ⟨revision, hrevision⟩ := Option.ne_none_iff_exists'.mp hrevision
  obtain ⟨policy, hpolicy⟩ := Option.ne_none_iff_exists'.mp hpolicy
  have hcurrent := hdb.revision request hrequest
  have hready : (policy = .allow ∧ (request.status = .allowed ∨ request.status.retryable = true)) ∨
      (policy = .requireApproval ∧ (request.status = .approved ∨ request.status.retryable = true) ∧
        ∃ a, db.approval = some a ∧ a.status = .approved) := by
    have hstanding := hdb.executable hopened request hrequest
    obtain hallow | ⟨a, ha, hstatus⟩ := hopened
    · obtain rfl := Option.some.inj (hpolicy.symm.trans hallow)
      refine .inl ⟨rfl, hstanding.imp_left fun h => ?_⟩
      simpa [Database.standing, hpolicy, initialActionRequestStatus, eq_comm] using h
    · obtain rfl := Option.some.inj (hpolicy.symm.trans (hdb.consistent.approval a ha).1)
      refine .inr ⟨rfl, hstanding.imp_left fun h => ?_, a, ha, hstatus⟩
      simpa [Database.standing, hpolicy, ha, hstatus, ApprovalStatus.request, eq_comm] using h
  refine ⟨⟨request, revision, policy, db.process⟩, ?_, ?_, fun hneeds => ?_, ?_, ?_⟩
  · simp [Database.row, hrequest, hrevision, hpolicy]
  · obtain ⟨rfl, hstatus⟩ | ⟨rfl, -⟩ := hready
    · simp [Loaded.refusal, hunfenced, hcurrent, hstatus]
    · simp [Loaded.refusal, hunfenced, hcurrent]
  · obtain ⟨rfl, -⟩ | ⟨-, hstatus, a, ha, happroved⟩ := hready
    · cases hneeds
    have hpayload := hdb.payload a revision ha hrevision
    have hnever := (hdb.consistent.approval a ha).2
    have hdecided := hdb.decided a ha happroved
    refine ⟨fun now => ?_, ?_⟩
    · simp [Loaded.approvalRefusal, ha, hpayload, happroved, ApprovalRow.expired, hnever]
    · simp [Loaded.decisionRefusal, hdecided, hpayload, hstatus]
  · obtain ⟨row, hrow, hkey⟩ := hdb.consistent.keyed key hkey
    rw [← Option.some.inj (hrevision.symm.trans hrow)] at hkey
    exact hkey
  · have hadapter := (hdb.attempted key hkey).1
    rwa [Database.adapter, hrequest, Option.bind_some] at hadapter

/-- A reconciliation passes the checks of its authorisation. -/
lemma solo_authorise {row : Loaded} (hrow : db.row 1 = some row) (hrefusal : row.refusal 1 = none)
    (happroval : row.policy = .requireApproval →
      (∀ now, row.approvalRefusal db.approval now = none) ∧
        row.decisionRefusal db.decision = none) :
    ∃ ys : List Answer, Solo (calls P) (ys.map .answer) (.authorising .reconcile 1 .admitting) db
      (.authorising .reconcile 1 (.authorised row)) db := by
  have hadmit : Authorising.statement P .reconcile 1 .admitting (.tenant .active) db =
      some (.authorising .reconcile 1 .selecting, db, []) := rfl
  have hselect : Authorising.statement P .reconcile 1 .selecting .go db =
      some (.authorising .reconcile 1 (.loaded row), db, []) := by
    rw [Authorising.statement, hrow]
    rfl
  by_cases hneeds : row.policy = .requireApproval
  · obtain ⟨happroved, hdecided⟩ := happroval hneeds
    have hload : Authorising.statement P .reconcile 1 (.loaded row) .go db =
        some (.authorising .reconcile 1 (.approving row), db, []) := by
      rw [Authorising.statement, hrefusal]
      exact if_pos hneeds
    have happrove : Authorising.statement P .reconcile 1 (.approving row) (.time 0) db =
        some (.authorising .reconcile 1 (.deciding row), db, []) := by
      rw [Authorising.statement, happroved]
      rfl
    have hdecide : Authorising.statement P .reconcile 1 (.deciding row) .go db =
        some (.authorising .reconcile 1 (.authorised row), db, []) := by
      rw [Authorising.statement, hdecided]
      rfl
    exact ⟨[.tenant .active, .go, .go, .time 0, .go],
      .cons hadmit (.cons hselect (.cons hload (.cons happrove (.single hdecide))))⟩
  · have hload : Authorising.statement P .reconcile 1 (.loaded row) .go db =
        some (.authorising .reconcile 1 (.authorised row), db, []) := by
      rw [Authorising.statement, hrefusal]
      exact if_neg hneeds
    exact ⟨[.tenant .active, .go, .go], .cons hadmit (.cons hselect (.single hload))⟩

/-- A reconciliation marks the attempt it has found. -/
lemma solo_mark {key : String} {a : AttemptRow} (ha : db.attempts key = some a) :
    ∃ (ys : List Answer) (db' : Database), Solo (calls P) (ys.map .answer) (.marking key a) db
      (.looking .reconcile key) db' ∧ db'.attempts key = some { a with status := .reconciling } ∧
      (db.request ≠ none → db'.request ≠ none) := by
  by_cases hsame : a.status = .reconciling
  · have hmark : Stage.statement P (.marking key a) .go db = some (.looking .reconcile key,
        db.setRequestStatus .reconciling, [.requestStatus .reconciling]) := by
      rw [Stage.statement, if_pos hsame, commitMark]
    refine ⟨[.go], _, .single hmark, ?_, by simp⟩
    rw [Database.setRequestStatus_attempts, ha, ← hsame]
  · have hflush : Stage.statement P (.marking key a) .go db = some (.marked key a, db, []) := by
      rw [Stage.statement, if_neg hsame]
      rfl
    have hmark : Stage.statement P (.marked key a) .go db = some (.looking .reconcile key,
        (db.setRequestStatus .reconciling).setAttempt key { a with status := .reconciling },
        [.requestStatus .reconciling]) := rfl
    exact ⟨[.go, .go], _, .cons hflush (.single hmark), Function.update_self .., by simp⟩

/-- An outcome is recorded on an attempt that has none. -/
lemma solo_record {key : String} {a : AttemptRow} (ha : db.attempts key = some a)
    (hpending : a.status.terminal = false) (hrequest : db.request ≠ none)
    (outcome : RecordedOutcome) :
    ∃ db', Solo (calls P) [.answer .go, .answer .go, .answer .go] (.recording key outcome) db
      (.ended (.returned key (outcome.apply a))) db' ∧
      db'.attempts key = some (outcome.apply a) := by
  obtain ⟨row, hrow⟩ := Option.ne_none_iff_exists'.mp hrequest
  have hattempt : Stage.statement P (.recording key outcome) .go db =
      some (.recordingAttempt key outcome a, db, []) := by
    rw [Stage.statement, ha]
    rfl
  have hboth : Stage.statement P (.recordingAttempt key outcome a) .go db =
      some (.recordingBoth key outcome a, db, []) := by
    rw [Stage.statement, hrow]
    rfl
  have hrecord : Stage.statement P (.recordingBoth key outcome a) .go db =
      some (.ended (.returned key (outcome.apply a)),
        (db.setRequestStatus outcome.status.toRequest).setAttempt key (outcome.apply a),
        [.recorded key outcome.status, .requestStatus outcome.status.toRequest]) := by
    rw [Stage.statement, commitOutcome, hpending, if_neg Bool.false_ne_true]
  exact ⟨_, .cons hattempt (.cons hboth (.single hrecord)), Function.update_self ..⟩

/-- **A reconciliation settles an attempt** as its lookup says. -/
lemma Ready.solo_reconcile (hdb : Ready P db) (hunfenced : db.process.fenced = false)
    (hopened : db.Opened) {key : String} {a : AttemptRow} (ha : db.attempts key = some a)
    (hpending : a.status.terminal = false) (ht : t.resting = true) (answer : LookupAnswer) :
    ∃ (outcome : RecordedOutcome) (ys : List Answer) (db' : Database),
      Lookup.reconcile.proceed key answer = .recording key outcome ∧ .lookup answer ∈ ys ∧
      Solo (calls P) (.call (.reconcile 1) :: ys.map .answer) t db
        (.ended (.returned key (outcome.apply a))) db' ∧
      db'.attempts key = some (outcome.apply a) := by
  have hkey : db.attempts key ≠ none := by simp [ha]
  obtain ⟨row, hrow, hrefusal, happroval, hkeyed, hadapter⟩ :=
    hdb.authorised hunfenced hopened hkey
  obtain ⟨adapter, hadapter⟩ := Option.isSome_iff_exists.mp hadapter
  obtain ⟨ys₁, hauthorise⟩ := solo_authorise (P := P) hrow hrefusal happroval
  have hcall : next P t (.call (.reconcile 1)) db =
      some (.authorising .reconcile 1 .admitting, db, []) := by
    rw [next, if_pos ht]
    rfl
  have hfind : Authorising.statement P .reconcile 1 (.authorised row) (.check none) db =
      some (.marking key a, db, []) := by
    simp only [Authorising.statement, Phase.proceed, findAttempt, hadapter, ← hkeyed, ha, hpending]
    rfl
  obtain ⟨ys₂, db₁, hmark, ha₁, hrequest⟩ := solo_mark (P := P) ha
  obtain ⟨outcome, hproceeds, -⟩ | ⟨_, _, hexecute, -⟩ :=
    Step.lookup_cases .reconcile key answer
  · have hlook : Stage.statement P (.looking .reconcile key) (.lookup answer) db₁ =
        some (.recording key outcome, db₁, []) := by
      rw [Stage.statement, hproceeds]
      rfl
    have hrequest₁ : db₁.request ≠ none :=
      hrequest fun hnone => hkey ((hdb.consistent.absent hnone).2.2.2 _)
    obtain ⟨db', hrecord, hnew⟩ := solo_record (P := P) ha₁ rfl hrequest₁ outcome
    refine ⟨outcome, ys₁ ++ .check none :: (ys₂ ++ .lookup answer :: [.go, .go, .go]), db',
      hproceeds, by simp, .cons hcall ?_, hnew⟩
    simp only [List.map_append, List.map_cons, List.map_nil]
    exact hauthorise.trans (.cons hfind (hmark.trans (.cons hlook hrecord)))
  · cases hexecute

/-- **An operator settles an attempt** whose outcome is unknown. -/
lemma Ready.solo_resolve (hdb : Ready P db) {c : OperatorActionResolution} {a : AttemptRow}
    (ha : db.attempts c.idempotencyKey = some a)
    (hopen : a.status = .unknown ∨ a.status = .reconciling) (ht : t.resting = true) :
    ∃ db', Solo (calls P) (.call (.resolve c) :: [Answer.go, .go, .check none].map .answer) t db
      (.ended (.returned c.idempotencyKey (c.apply a))) db' ∧
      db'.attempts c.idempotencyKey = some ((c.kept P.jsonb).apply a) := by
  have hcall : next P t (.call (.resolve c)) db = some (.resolving c, db, []) := by
    rw [next, if_pos ht]
    rfl
  have hunresolved : db.resolutions c.idempotencyKey = none := by
    by_contra hresolved
    obtain ⟨stored, hstored⟩ := Option.ne_none_iff_exists'.mp hresolved
    obtain ⟨b, hb, hterminal⟩ := hdb.resolved _ stored hstored
    obtain rfl := Option.some.inj (ha.symm.trans hb)
    obtain hopen | hopen := hopen <;> rw [hopen] at hterminal <;> cases hterminal
  have hresolve : Stage.statement P (.resolving c) .go db = some (.resolvingFresh c, db, []) := by
    rw [Stage.statement, findResolution, hunresolved]
    rfl
  have hfresh : Stage.statement P (.resolvingFresh c) .go db =
      some (.resolvingBoth c a, db, []) := by
    rw [Stage.statement, ha]
    rfl
  have hcommit : Stage.statement P (.resolvingBoth c a) (.check none) db =
      some (.ended (.returned c.idempotencyKey (c.apply a)),
        { (db.setRequestStatus c.resolution.status.toRequest).setAttempt c.idempotencyKey
            ((c.kept P.jsonb).apply a) with
          resolutions := Function.update db.resolutions c.idempotencyKey
            (some (c.kept P.jsonb)) },
        [.resolved c.idempotencyKey c.resolution.status,
          .requestStatus c.resolution.status.toRequest]) := by
    rw [Stage.statement, commitResolution, if_pos hopen]
  exact ⟨_, .cons hcall (.cons hresolve (.cons hfresh (.single hcommit))),
    Function.update_self ..⟩

/-! ### Where no call settles it -/

/-- An attempt that no call settles: it is claimed, and the process is fenced or the action may not
be executed. -/
structure Stuck (db : Database) (key : String) : Prop where
  executing : ∃ a, db.attempts key = some a ∧ a.status = .executing
  closed : ¬ (db.process.fenced = false ∧ db.Opened)

/-- Where a call stands that cannot settle it. -/
def Stage.Barred (db : Database) : Stage → Prop
  | .idle | .ended _ | .resolving _ | .resolvingFresh _ | .persisting _ | .persistingLocked _
  | .reviewingElsewhere _ _ _ => True
  | .authorising (.fence _ _ _) _ _ => False
  | .authorising _ _ .admitting | .authorising _ _ .selecting => True
  | .authorising _ revision (.loaded row) => db.row revision = some row
  | .authorising _ revision (.approving row) =>
      db.row revision = some row ∧ row.refusal revision = none
  | .resolvingBoth command attempt => db.attempts command.idempotencyKey = some attempt
  | .reviewing _ (.flushing _ _ _) => False
  | .reviewing _ r => ∀ target, r.target = some target → db.approval = some target.approval
  | _ => False

/-- The rows of an action but for its messages and its thread. -/
def Database.Kept (db₀ db : Database) : Prop :=
  ∃ messages thread, db = { db₀ with messages := messages, thread := thread }

/-- What passes the checks of its row runs, and then the action may not be executed. -/
lemma Stuck.not_opened {key : String} (h : Stuck db key) {revision : ℕ} {row : Loaded}
    (hrow : db.row revision = some row) (hrefusal : row.refusal revision = none) :
    row.Current db ∧ ¬ db.Opened := by
  obtain ⟨-, hcurrent⟩ := Database.row_eq_some hrow
  refine ⟨hcurrent, fun hopened => h.closed ⟨?_, hopened⟩⟩
  rw [hcurrent.process, (Loaded.admissible hrefusal).unfenced]

lemma Call.start_barred {c : Call} (hc : ∀ status, c ≠ .setProcessStatus status) :
    c.start.Barred db := by
  cases c with
  | setProcessStatus status => exact absurd rfl (hc status)
  | review c => exact fun target htarget => by cases htarget
  | _ => trivial

/-- **A step leaves the attempt as it is**, and no call gets further. -/
lemma Step.barred {db₀ : Database} {key : String} (h : Step P t x db t' db' obs)
    (hdb₀ : Ready P db₀) (hstuck : Stuck db₀ key) (hkept : db₀.Kept db) (ht : t.Barred db₀)
    (hx : ∀ status, x ≠ .call (.setProcessStatus status)) : t'.Barred db₀ ∧ db₀.Kept db' := by
  obtain ⟨a, ha, hexecuting⟩ := hstuck.executing
  have hkey : db₀.attempts key ≠ none := by simp [ha]
  have hpending := (hdb₀.attempted key hkey).2
  have hsame := hkept
  obtain ⟨messages, thread, rfl⟩ := hkept
  cases h with
  | halt resting =>
      refine ⟨?_, hsame⟩
      cases t' with
      | idle => trivial
      | ended => trivial
      | _ => cases resting
  | start c => exact ⟨Call.start_barred fun status hc => hx status (by rw [hc]), hsame⟩
  | admitTenant phase =>
      cases phase with
      | fence => exact ht.elim
      | _ => exact ⟨trivial, hsame⟩
  | select phase revision row found =>
      cases phase with
      | fence => exact ht.elim
      | _ => exact ⟨found, hsame⟩
  | needApproval phase revision row allowed =>
      cases phase with
      | fence => exact ht.elim
      | _ => exact ⟨⟨ht, allowed⟩, hsame⟩
  | allow phase revision row allowed policy =>
      cases phase with
      | fence => exact ht.elim
      | _ =>
          obtain ⟨hcurrent, hclosed⟩ := hstuck.not_opened ht allowed
          exact (hclosed ((Loaded.permitted_of_allow allowed policy).opened hcurrent)).elim
  | approved phase revision row now allowed =>
      cases phase with
      | fence => exact ht.elim
      | _ =>
          obtain ⟨b, hb, -, hstatus⟩ := Loaded.approved_of_check allowed
          exact ((hstuck.not_opened ht.1 ht.2).2 (.inr ⟨b, hb, hstatus⟩)).elim
  | decided phase => cases phase <;> exact ht.elim
  | resolveFresh => exact ⟨trivial, hsame⟩
  | resolveBoth c attempt found => exact ⟨found, hsame⟩
  | resolve c attempt hopen =>
      -- the attempt of the command is the one that is claimed
      have ht : db₀.attempts c.idempotencyKey = some attempt := ht
      have hkeys : key = c.idempotencyKey :=
        hdb₀.consistent.attempt_key hkey (hdb₀.consistent.keyed _ (by simp [ht]))
      rw [← hkeys] at ht
      rw [← Option.some.inj (ha.symm.trans ht), hexecuting] at hopen
      obtain hopen | hopen := hopen <;> cases hopen
  | readThread c target found =>
      refine ⟨fun target' htarget => ?_, hsame⟩
      obtain rfl := Option.some.inj htarget
      obtain ⟨status, -, hfound⟩ := Option.bind_eq_some_iff.mp found
      obtain ⟨b, hb, rfl⟩ := Option.map_eq_some_iff.mp hfound
      exact hb
  | readProcess | readMessage | lockReview => exact ⟨ht, hsame⟩
  | decideReview c target now request write pending =>
      exact absurd pending (hpending target.approval (ht target rfl))
  | lockPersist => exact ⟨trivial, hsame⟩
  | persist p outcome payloadHash =>
      have hrequest : db₀.request ≠ none := fun hnone =>
        hkey ((hdb₀.consistent.absent hnone).2.2.2 key)
      have hconsistent :
          ({ db₀ with messages := messages, thread := thread } : Database).Consistent P :=
        ⟨hdb₀.consistent.absent, hdb₀.consistent.present, hdb₀.consistent.approval,
          hdb₀.consistent.keyed⟩
      exact ⟨trivial, messages, _, hconsistent.persist_eq hrequest p payloadHash⟩
  | reviewElsewhere commandId otherThread row =>
      exact ⟨trivial, _, thread, rfl⟩
  | _ => exact ht.elim

/-! ### Every state -/

variable {n : ℕ} {process : ProcessStatus} {s s' : Pool n Database Stage ActionEvent}
  {ms ms' : List (Fin n × CallInput)} {key : String} {a : AttemptRow}

lemma Stage.locks_of_resting (ht : t.resting = true) : t.locks = [] := by
  cases t with
  | idle => rfl
  | ended => rfl
  | _ => cases ht

lemma Stage.barred_of_resting (ht : t.resting = true) : t.Barred db := by
  cases t with
  | idle => trivial
  | ended => trivial
  | _ => cases ht

/-- No run settles an attempt that is stuck, unless the status of the process is written. -/
lemma stuck_runs (hs : Ready P s.store) (hrest : ∀ j, (s.calls j).resting = true)
    (hstuck : Stuck s.store key)
    (h : Runs (calls P) (fun _ m => ∀ status, m.2 ≠ .call (.setProcessStatus status)) s ms s') :
    s.store.Kept s'.store := by
  have hstart : s.store.Kept s.store ∧ ∀ j, (s.calls j).Barred s.store :=
    ⟨⟨_, _, rfl⟩, fun j => Stage.barred_of_resting (hrest j)⟩
  refine (h.invariant (I := fun s₁ => s.store.Kept s₁.store ∧
    ∀ j, (s₁.calls j).Barred s.store) ?_ hstart).1
  rintro s₁ ⟨i, x⟩ s₂ ⟨hkept, hbarred⟩ hx hstep
  obtain ⟨t, db, obs, hmoved, rfl⟩ := step_cases hstep
  obtain ⟨hown, hkept'⟩ := hmoved.barred hs hstuck hkept (hbarred i) hx
  refine ⟨hkept', fun j => ?_⟩
  dsimp only
  by_cases hj : j = i
  · rw [hj, Function.update_self]
    exact hown
  · rw [Function.update_of_ne hj]
    exact hbarred j

/-- **Attempts without an outcome**, in every state that runs lead to and in which no call is under
way, whatever has stopped before and whatever the reviews decide on.  If the process runs and the
action may be executed, a reconciliation records what the lookup answers.  If the outcome is
unknown, an operator settles it, whatever the process does.  Otherwise no run changes the attempt or
its request, unless the status of the process is written. -/
theorem attempt_settled (h : Runs (calls P) (fun _ _ => True) (fresh n process) ms s)
    (hrest : ∀ j, (s.calls j).resting = true) (ha : s.store.attempts key = some a)
    (hpending : a.status.terminal = false) :
    (s.store.process.fenced = false ∧ s.store.Opened → ∀ (i : Fin n) (answer : LookupAnswer),
      ∃ outcome ys s', Lookup.reconcile.proceed key answer = .recording key outcome ∧
        .lookup answer ∈ ys ∧ Runs (calls P) (fun _ _ => True) s (moves i (.reconcile 1) ys) s' ∧
        s'.calls i = .ended (.returned key (outcome.apply a)) ∧
        s'.store.attempts key = some (outcome.apply a)) ∧
    (a.status = .unknown ∨ a.status = .reconciling →
      ∀ (i : Fin n) (c : OperatorActionResolution), c.idempotencyKey = key →
      ∃ s', Runs (calls P) (fun _ _ => True) s (moves i (.resolve c) [.go, .go, .check none]) s' ∧
        s'.calls i = .ended (.returned key (c.apply a)) ∧
        s'.store.attempts key = some ((c.kept P.jsonb).apply a)) ∧
    (¬ (s.store.process.fenced = false ∧ s.store.Opened) → a.status = .executing →
      ∀ ms' s', Runs (calls P) (fun _ m => ∀ status, m.2 ≠ .call (.setProcessStatus status))
        s ms' s' →
        s'.store.attempts key = some a ∧ s'.store.request = s.store.request) := by
  have hs := ready_runs h
  have hquiet (i j : Fin n) (_ : j ≠ i) : (calls P).locks (s.calls j) = [] :=
    Stage.locks_of_resting (hrest j)
  refine ⟨fun hready i answer => ?_, fun hopen i c hc => ?_,
    fun hclosed hexecuting ms' s' h' => ?_⟩
  · obtain ⟨outcome, ys, db', hproceeds, hlookup, hsolo, hnew⟩ :=
      hs.solo_reconcile hready.1 hready.2 ha hpending (hrest i) answer
    obtain ⟨s', hruns, rfl, hcall⟩ :=
      hsolo.runs (G := fun _ _ => True) (hquiet i) fun _ _ _ => trivial
    refine ⟨outcome, ys, s', hproceeds, hlookup, ?_, hcall, hnew⟩
    simpa [moves, answers, Function.comp_def] using hruns
  · subst hc
    obtain ⟨db', hsolo, hnew⟩ := hs.solo_resolve ha hopen (hrest i)
    obtain ⟨s', hruns, rfl, hcall⟩ :=
      hsolo.runs (G := fun _ _ => True) (hquiet i) fun _ _ _ => trivial
    exact ⟨s', hruns, hcall, hnew⟩
  · obtain ⟨messages, thread, hkept⟩ := stuck_runs hs hrest ⟨⟨a, ha, hexecuting⟩, hclosed⟩ h'
    rw [hkept]
    exact ⟨ha, rfl⟩

end

/-- An execution stops once it is claimed, and a reconciliation finds its result.  Where a review
that was read before the approval requests a revision in between, no run settles the attempt. -/
theorem attempt_settled_after_crash :
    (∃ (ms ms' : List (Fin 2 × CallInput)) (s s' : Pool 2 Database Stage ActionEvent),
      Runs (calls (samplePlatform false)) (fun _ _ => True) (fresh 2 .active) ms s ∧
      (s.store.attempts sampleKey).map AttemptRow.status = some .executing ∧
      Runs (calls (samplePlatform false)) (fun _ _ => True) s ms' s' ∧
      (s'.store.attempts sampleKey).map AttemptRow.status = some .succeeded) ∧
    ∃ (ms : List (Fin 3 × CallInput)) (s : Pool 3 Database Stage ActionEvent),
      Runs (calls (samplePlatform false)) (fun _ _ => True) (fresh 3 .active) ms s ∧
      s.store.process = .active ∧ ∀ ms' s', Runs (calls (samplePlatform false))
        (fun _ m => ∀ status, m.2 ≠ .call (.setProcessStatus status)) s ms' s' →
        (s'.store.attempts sampleKey).map AttemptRow.status = some .executing := by
  constructor
  · let ms : List (Fin 2 × CallInput) := List.flatten
      [persisted 0 .allow, moves 0 (.execute 1) (allowed [.go]), [(0, .crash)]]
    obtain ⟨s, hruns, hp⟩ := exists_runs (C := calls (samplePlatform false))
      (s := fresh 2 .active) (fun _ _ => true) ms
      (fun s => s.store.attempts sampleKey = some { adapterId := "crm", status := .executing } ∧
        s.store.process = .active ∧ s.store.policy = some .allow ∧
        ∀ j, (s.calls j).resting = true) (by decide +kernel)
    obtain ⟨ha, hactive, hallow, hrest⟩ := of_decide_eq_true hp
    have hruns := hruns.mono (H := fun _ _ => True) fun _ _ _ => trivial
    obtain ⟨outcome, ys, s', hproceeds, -, hruns', -, ha'⟩ :=
      (attempt_settled hruns hrest ha rfl).1 ⟨by rw [hactive]; rfl, .inl hallow⟩ 1
        (.found ⟨"ref", "done", []⟩)
    obtain ⟨-, rfl⟩ := Stage.recording.inj hproceeds
    exact ⟨ms, _, s, s', hruns, by rw [ha]; rfl, hruns', by rw [ha']; rfl⟩
  · let ms : List (Fin 3 × CallInput) := List.flatten
      [persisted 0 .requireApproval,
        moves 2 (.review (sampleReview "d" .requestRevision)) [.go, .go, .check none],
        moves 1 (.review (sampleReview "c" .approve))
          [.go, .go, .check none, .go, .time 0, .check none],
        moves 0 (.execute 1) (approved [.go]), [(0, .crash)],
        answers 2 [.go, .time 0, .check none]]
    obtain ⟨s, hruns, hp⟩ := exists_runs (C := calls (samplePlatform false))
      (s := fresh 3 .active) (fun _ _ => true) ms
      (fun s => s.store.attempts sampleKey = some { adapterId := "crm", status := .executing } ∧
        s.store.process = .active ∧ s.store.policy = some .requireApproval ∧
        s.store.approval.map ApprovalRow.status = some .superseded ∧
        ∀ j, (s.calls j).resting = true) (by decide +kernel)
    obtain ⟨ha, hactive, hpolicy, happroval, hrest⟩ := of_decide_eq_true hp
    have hruns := hruns.mono (H := fun _ _ => True) fun _ _ _ => trivial
    have hclosed : ¬ s.store.Opened := by
      rintro (hallow | ⟨b, hb, hstatus⟩)
      · rw [hpolicy] at hallow
        cases hallow
      · rw [hb, Option.map_some, hstatus] at happroval
        cases happroval
    refine ⟨ms, s, hruns, hactive, fun ms' s' h' => ?_⟩
    have hkept := (attempt_settled hruns hrest ha rfl).2.2 (fun h => hclosed h.2) rfl ms' s' h'
    rw [hkept.1]
    rfl

end TiramisuAgents
