import TiramisuAgents.Actions.Alignment

/-!
The review of an action: its approval, thread, request and decision, the commands that took
effect, and their messages to the mailbox.

A review writes all of its rows in one transaction, and holds the process until it commits.  So
if it decides on the committed approval, an approval is settled by one command, and the rows stay
aligned with it.  The message of a command is written with the command, whatever it decides.

* `ReviewCoherent`: the three statuses agree.
* `Database.heard`, `Heard`: the commands that took effect; at most one of them has settled the
  approval.
* `Delivered`: each of them has one outbox message.
* `review_coherent`: every run with reviews that decide on the committed approval;
  `revised_while_executed` is the run without.
-/

namespace TiramisuAgents

open Transactions

/-! ### The statuses -/

/-- The statuses of an approval, its thread and its request agree. -/
structure ReviewCoherent (a : ApprovalRow) (thread : ReviewThreadStatus) (row : RequestRow)
    (decision : Option DecisionRow) : Prop where
  pending : (a.status = .pending ↔ row.status = .pendingApproval) ∧
    (a.status = .pending ↔ thread = .open_)
  rejected : (a.status = .rejected ↔ row.status = .rejected) ∧
    (a.status = .rejected ↔ thread = .rejected)
  superseded : (a.status = .superseded ↔ row.status = .superseded) ∧
    (a.status = .superseded ↔ thread = .revisionRequested)
  approved : a.status = .approved → thread = .approved ∧
    decision = some ⟨.approved, a.payloadHash⟩ ∧
    (row.status = .approved ∨ row.status.retryable = true)

/-- A given approval, whose request may be executed. -/
lemma reviewCoherent_of_approved {a : ApprovalRow} {row : RequestRow}
    (hstatus : a.status = .approved)
    (hrow : row.status = .approved ∨ row.status.retryable = true) :
    ReviewCoherent a a.status.thread row a.verdict := by
  have hother : row.status ≠ .pendingApproval ∧ row.status ≠ .rejected ∧
      row.status ≠ .superseded := by
    refine ⟨?_, ?_, ?_⟩ <;> intro heq <;> rw [heq] at hrow <;>
      simp [ActionRequestStatus.retryable] at hrow
  constructor <;> simp [hstatus, ApprovalStatus.thread, ApprovalRow.verdict, hother, hrow]

/-- An approval whose request has its status. -/
lemma reviewCoherent_of_request {a : ApprovalRow} {row : RequestRow}
    (hrow : a.status.request = some row.status) :
    ReviewCoherent a a.status.thread row a.verdict := by
  cases hstatus : a.status <;>
    simp only [hstatus, ApprovalStatus.request, Option.some.injEq, reduceCtorEq] at hrow <;>
    constructor <;> simp [hstatus, ← hrow, ApprovalStatus.thread, ApprovalRow.verdict]

lemma ActionRequestStatus.Tracks.retryable {status : ActionRequestStatus}
    {a : ActionAttemptStatus} (h : status.Tracks a) : status.retryable = true := by
  obtain ⟨b, rfl, -⟩ := h
  cases b <;> rfl

/-- **Aligned rows agree.** -/
lemma RowsAgree.coherent {P : Platform} {db : Database} (h : RowsAgree db) (hdb : db.Consistent P)
    {row : RequestRow} (hrow : db.request = some row)
    (hpolicy : db.policy = some .requireApproval) :
    ∃ a thread, db.approval = some a ∧ db.thread = some thread ∧
      ReviewCoherent a thread row db.decision := by
  obtain ⟨-, -, happroval⟩ := hdb.present (by simp [hrow])
  obtain ⟨a, ha⟩ := Option.ne_none_iff_exists'.mp (happroval hpolicy)
  have hthread : db.thread = some a.status.thread := by rw [h.thread, ha, Option.map_some]
  refine ⟨a, a.status.thread, ha, hthread, ?_⟩
  have hdecision : db.decision = a.verdict := by rw [h.decision, ha, Option.bind_some]
  rw [hdecision]
  by_cases hnone : ∀ key, db.attempts key = none
  · -- the request waits for its review, or has been settled by it
    have hstanding := h.standing hnone row hrow
    refine reviewCoherent_of_request ?_
    simpa [Database.standing, hpolicy, ha] using hstanding
  · -- the request follows its attempt, so the approval is given
    obtain ⟨key, hkey⟩ := not_forall.mp hnone
    obtain ⟨attempt, hattempt⟩ := Option.ne_none_iff_exists'.mp hkey
    refine reviewCoherent_of_approved ?_ (.inr (h.tracks key attempt hattempt row hrow).retryable)
    obtain hallow | ⟨b, hb, hstatus⟩ := h.opened key hkey
    · rw [hpolicy] at hallow
      cases hallow
    · rwa [Option.some.inj (ha.symm.trans hb)]

/-! ### The commands -/

/-- The review commands that took effect: the messages of the thread of the action. -/
def Database.heard (db : Database) (commandId : UUID) : Option MessageRow :=
  (db.messages commandId).filter fun m => m.otherThread = none

/-- A review command that settles the approval has settled it, and there is one of them. -/
structure Heard (db : Database) : Prop where
  settled : ∀ id m, db.heard id = some m → m.messageType.settles ≠ none →
    ∃ a, db.approval = some a ∧ a.status ≠ .pending
  single : ∀ id id' m m', db.heard id = some m → db.heard id' = some m' →
    m.messageType.settles ≠ none → m'.messageType.settles ≠ none → id = id'

/-- Each review command that took effect has one outbox message, and each message its command. -/
structure Delivered (db : Database) : Prop where
  sent : ∀ id m, db.heard id = some m →
    ∃ notice, (db.outbox.filter fun n => n.commandId = id) = [notice] ∧
      notice.commandType = m.messageType
  heard : ∀ n ∈ db.outbox, db.heard n.commandId ≠ none ∧
    n.deduplicationKey = s!"process-review:{n.commandId}"

lemma deduplicationKey_inj {i j : UUID} :
    s!"process-review:{i}" = s!"process-review:{j}" ↔ i = j := by
  refine ⟨fun h => ?_, fun h => by rw [h]⟩
  have hlist := congrArg String.toList h
  simpa [String.toList_append, toString, String.toList_inj] using hlist

section

variable {P : Platform} {t t' : Stage} {x : CallInput} {db db' : Database}
  {obs : List ActionEvent}

/-- A command is heard when its message is written. -/
@[simp] lemma Database.review_heard (c : ReviewCommand) (w : ReviewWrite) :
    (db.review c w).heard = Function.update db.heard c.commandId (some c.row) := by
  funext id
  by_cases hid : id = c.commandId
  · subst hid
    simp [heard, review, ReviewCommand.row]
  · simp [heard, review, hid]

/-- The commands and their messages are written by a review. -/
lemma Step.heard_cases (h : Step P t x db t' db' obs) :
    (db'.heard = db.heard ∧ db'.outbox = db.outbox ∧
      ∀ a, db.approval = some a → db'.approval = some a) ∨
    ∃ c target request write, t = .reviewing c (.flushing target request write) ∧
      db.messages c.commandId = none ∧ db' = db.review c write := by
  cases h with
  | review c target request write hsingle hfresh =>
      exact .inr ⟨c, target, request, write, rfl, hfresh, rfl⟩
  | persist p outcome =>
      refine .inl ⟨rfl, rfl, fun a ha => ?_⟩
      simp only [Database.persist, ha, Option.getD_some, ite_self]
  | reviewElsewhere commandId thread row hfresh =>
      -- the message is of another thread, and its identity was free
      refine .inl ⟨?_, rfl, fun _ ha => ha⟩
      funext id
      by_cases hid : id = commandId
      · subst hid
        simp [Database.heard, hfresh]
      · simp [Database.heard, hid]
  | _ => exact .inl ⟨rfl, rfl, fun _ ha => ha⟩

lemma Database.heard_eq_none {commandId : UUID} (h : db.messages commandId = none) :
    db.heard commandId = none := by
  rw [heard, h, Option.filter_none]

/-- **A command is written with its message.** -/
lemma Delivered.review (h : Delivered db) {c : ReviewCommand} (write : ReviewWrite)
    (hfresh : db.heard c.commandId = none) : Delivered (db.review c write) := by
  -- no message has the deduplication key of the command
  have hnew : ∀ n ∈ db.outbox, n.commandId ≠ c.commandId := by
    rintro n hn heq
    exact (h.heard n hn).1 (heq ▸ hfresh)
  have houtbox : (db.review c write).outbox = db.outbox ++ [c.notice] := by
    simp only [Database.review, enqueueNotice]
    rw [if_neg]
    simp only [List.any_eq_true, decide_eq_true_eq, not_exists, not_and]
    intro n hn hkey
    rw [(h.heard n hn).2, ReviewCommand.notice, deduplicationKey_inj] at hkey
    exact hnew n hn hkey
  refine ⟨fun id m hm => ?_, fun n hn => ?_⟩
  · rw [houtbox, List.filter_append]
    by_cases hid : id = c.commandId
    · subst hid
      have hm : some c.row = some m := by
        rwa [Database.review_heard, Function.update_self] at hm
      rw [List.filter_eq_nil_iff.mpr fun n hn => by simpa using hnew n hn]
      exact ⟨c.notice, by simp [ReviewCommand.notice], by rw [← Option.some.inj hm]; rfl⟩
    · have hm : db.heard id = some m := by
        rwa [Database.review_heard, Function.update_of_ne hid] at hm
      obtain ⟨notice, hsent, htype⟩ := h.sent id m hm
      refine ⟨notice, ?_, htype⟩
      rw [hsent]
      simp [ReviewCommand.notice, Ne.symm hid]
  · rw [houtbox] at hn
    obtain hn | hn := List.mem_append.mp hn
    · refine ⟨?_, (h.heard n hn).2⟩
      rw [Database.review_heard, Function.update_of_ne (hnew n hn)]
      exact (h.heard n hn).1
    · rw [List.mem_singleton.mp hn]
      refine ⟨?_, rfl⟩
      simp [ReviewCommand.notice]

lemma Step.delivered (h : Step P t x db t' db' obs) (hdb : Delivered db) : Delivered db' := by
  obtain ⟨hmessages, houtbox, -⟩ | ⟨c, target, request, write, -, hfresh, rfl⟩ := h.heard_cases
  · obtain ⟨hsent, hheard⟩ := hdb
    refine ⟨fun id m hm => ?_, fun n hn => ?_⟩
    · rw [houtbox]
      exact hsent id m (hmessages ▸ hm)
    · rw [hmessages]
      exact hheard n (houtbox ▸ hn)
  · exact hdb.review write (Database.heard_eq_none hfresh)

/-- **One command settles an approval**, if the reviews decide on the committed one. -/
lemma Step.heard (h : Step P t x db t' db' obs) (ht : t.Follows P db) (hdb : Heard db) :
    Heard db' := by
  obtain ⟨hmessages, -, happroval⟩ | ⟨c, target, request, write, rfl, hfresh, rfl⟩ :=
    h.heard_cases
  · refine ⟨fun id m hm hsettles => ?_, fun id id' m m' hm hm' => ?_⟩
    · obtain ⟨a, ha, hstatus⟩ := hdb.settled id m (hmessages ▸ hm) hsettles
      exact ⟨a, happroval a ha, hstatus⟩
    · exact hdb.single id id' m m' (hmessages ▸ hm) (hmessages ▸ hm')
  · obtain ⟨happroval, hpending, hwritten⟩ := ht.fresh
    -- the approval was pending, so no command has settled it
    have hold {id : UUID} {m : MessageRow} {Q : Prop} (hm : db.heard id = some m)
        (hsettles : m.messageType.settles ≠ none) : Q := by
      obtain ⟨a, ha, hstatus⟩ := hdb.settled id m hm hsettles
      rw [← Option.some.inj (happroval.symm.trans ha)] at hstatus
      exact absurd hpending hstatus
    have cases {id : UUID} {m : MessageRow} (hm : (db.review c write).heard id = some m)
        (hsettles : m.messageType.settles ≠ none) : id = c.commandId ∧ m = c.row := by
      by_cases hid : id = c.commandId
      · subst hid
        rw [Database.review_heard, Function.update_self] at hm
        exact ⟨rfl, (Option.some.inj hm).symm⟩
      · rw [Database.review_heard, Function.update_of_ne hid] at hm
        exact hold hm hsettles
    refine ⟨fun id m hm hsettles => ?_, fun id id' m m' hm hm' hsettles hsettles' => ?_⟩
    · obtain ⟨-, rfl⟩ := cases hm hsettles
      obtain ⟨status, hstatus⟩ := Option.ne_none_iff_exists'.mp hsettles
      have hstatus : c.commandType.settles = some status := hstatus
      refine ⟨{ target.approval with status := status }, ?_, ?_⟩
      · rw [ReviewCommand.write_eq hwritten ht.undecided]
        simp [Database.review, happroval, hstatus]
      · obtain rfl | rfl | rfl := ReviewCommandType.settles_cases hstatus <;> simp
    · exact (cases hm hsettles).1.trans (cases hm' hsettles').1.symm

/-! ### Runs -/

variable (P) in
/-- The rule for runs in which the reviews decide on the committed approval. -/
lemma reviewJoint : Joint (calls P) (fun t _ db _ => t.Committed db) (fun _ _ _ _ => True)
    (fun db _ => (db.Consistent P ∧ RowsAgree db) ∧ Heard db ∧ Delivered db)
    (fun t db _ => t.Follows P db) where
  own hnext hcommitted hdb ht := by
    have h := Step.of_next hnext
    obtain ⟨⟨hconsistent, haligned⟩, hheard, hdelivered⟩ := hdb
    have haligned' := h.aligned hconsistent ht.knows ht.fresh ht.undecided ht.entitled haligned
    exact ⟨⟨⟨h.consistent hconsistent ht.knows, haligned'⟩, h.heard ht hheard,
      h.delivered hdelivered⟩, h.follows hconsistent haligned hcommitted ht⟩
  other hnext _ _ hlocks _ ht hu := (Step.of_next hnext).follows_other hlocks ht hu

variable {n : ℕ} {process : ProcessStatus} {s : Pool n Database Stage ActionEvent}
  {ms : List (Fin n × CallInput)}

/-- **The review of an action.**  In every run in which the reviews decide on the committed
approval: the approval, the thread and the request of an action that requires approval agree; at
most one approving, rejecting or revising command takes effect; and each command that takes
effect has one outbox message. -/
theorem review_coherent
    (h : Runs (calls P) (fun s m => (s.calls m.1).Committed s.store) (fresh n process) ms s) :
    (∀ row, s.store.request = some row → s.store.policy = some .requireApproval →
      ∃ a thread, s.store.approval = some a ∧ s.store.thread = some thread ∧
        ReviewCoherent a thread row s.store.decision) ∧
    Heard s.store ∧ Delivered s.store := by
  have hstart : Heard { process := process } ∧ Delivered { process := process } := by
    refine ⟨⟨fun id m hm => ?_, fun id id' m m' hm => ?_⟩, ⟨fun id m hm => ?_, fun n hn => ?_⟩⟩
    · cases hm
    · cases hm
    · cases hm
    · cases hn
  obtain ⟨⟨hdb, haligned⟩, hheard, hdelivered⟩ := ((reviewJoint P).runs (fun _ _ _ hG => hG)
    (fun _ _ _ _ _ _ => trivial) h (fresh_holds P n process
      ⟨⟨consistent_fresh P process, aligned_fresh process⟩, hstart⟩
      ⟨trivial, trivial, trivial, trivial⟩)).common
  exact ⟨fun row hrow hpolicy => haligned.coherent hdb hrow hpolicy, hheard, hdelivered⟩

end

/-- An action that is approved, and executed. -/
theorem review_coherent_approved : ∃ (ms : List (Fin 2 × CallInput))
    (s : Pool 2 Database Stage ActionEvent),
    Runs (calls (samplePlatform false)) (fun s m => (s.calls m.1).Committed s.store)
      (fresh 2 .active) ms s ∧
    s.store.policy = some .requireApproval ∧
    (∀ row, s.store.request = some row → s.store.policy = some .requireApproval →
      ∃ a thread, s.store.approval = some a ∧ s.store.thread = some thread ∧
        ReviewCoherent a thread row s.store.decision) ∧
    Heard s.store ∧ Delivered s.store := by
  let ms : List (Fin 2 × CallInput) := List.flatten
    [persisted 0 .requireApproval,
      moves 1 (.review (sampleReview "c" .approve))
        [.go, .go, .check none, .go, .time 0, .check none],
      moves 0 (.execute 1) (approved (.go :: approved [.gate none]))]
  obtain ⟨s, hruns, hp⟩ := exists_runs (C := calls (samplePlatform false))
    (s := fresh 2 .active)
    (fun s m => (s.calls m.1).committed s.store) ms
    (fun s => s.store.policy = some .requireApproval) (by decide +kernel)
  have hruns : Runs (calls (samplePlatform false)) (fun s m => (s.calls m.1).Committed s.store)
      (fresh 2 .active) ms s := by
    refine hruns.mono fun s m hm c target existing hstage => ?_
    rw [hstage] at hm
    exact of_decide_eq_true hm
  exact ⟨ms, s, hruns, of_decide_eq_true hp, review_coherent hruns⟩

/-- A review is read while the approval is pending; the action is approved and executed; then
the first review requests a revision, and the execution records its success.  Two commands have
settled the approval, which is superseded, and its request has succeeded. -/
theorem revised_while_executed : ∃ (ms : List (Fin 3 × CallInput))
    (s : Pool 3 Database Stage ActionEvent),
    Runs (calls (samplePlatform false)) (fun _ _ => True) (fresh 3 .active) ms s ∧
    (s.store.heard "c").map MessageRow.messageType = some .approve ∧
    (s.store.heard "d").map MessageRow.messageType = some .requestRevision ∧
    s.store.approval.map ApprovalRow.status = some .superseded ∧
    s.store.request.map RequestRow.status = some .succeeded := by
  let ms : List (Fin 3 × CallInput) := List.flatten
    [persisted 0 .requireApproval,
      moves 2 (.review (sampleReview "d" .requestRevision)) [.go, .go, .check none],
      moves 1 (.review (sampleReview "c" .approve))
        [.go, .go, .check none, .go, .time 0, .check none],
      moves 0 (.execute 1) (approved (.go :: approved
        [.gate none, .provider (.success ⟨"ref", "done", []⟩)])),
      answers 2 [.go, .time 0, .check none], answers 0 [.go, .go, .go]]
  obtain ⟨s, hruns, hp⟩ := exists_runs (C := calls (samplePlatform false))
    (s := fresh 3 .active) (fun _ _ => true) ms
    (fun s => (s.store.heard "c").map MessageRow.messageType = some .approve ∧
      (s.store.heard "d").map MessageRow.messageType = some .requestRevision ∧
      s.store.approval.map ApprovalRow.status = some .superseded ∧
      s.store.request.map RequestRow.status = some .succeeded)
    (by decide +kernel)
  exact ⟨ms, s, hruns.mono fun _ _ _ => trivial, of_decide_eq_true hp⟩

end TiramisuAgents
