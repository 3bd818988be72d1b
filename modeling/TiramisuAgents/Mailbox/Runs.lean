import TiramisuAgents.Mailbox.Rules

/-!
Whole runs of the mailbox, across any number of Continue-As-New rollovers.

* `Restarting`: a run that has not started yet carries its predecessor's state in its input,
  next to the signals it has buffered so far; restoration will put the two together.
* `wp_run`: the induction rule for runs.  An assertion that holds when the first run starts,
  that one round of the loop and every input keep, and that a snapshot hands over, holds
  whenever the workflow is found between two rounds, and of the state a waiting successor
  will restore.
-/

namespace TiramisuAgents

open Coroutine

variable {Φ : List Obs → Prop} {iso : IsoCodec} {I : World Runtime Obs → Prop}

/-- A workflow that has not started, such that the state it restores if it starts now
satisfies `I`. -/
def Restarting (iso : IsoCodec) (I : World Runtime Obs → Prop) (w : World Runtime Obs) : Prop :=
  w.self.running = false ∧ ∃ m, w.self.mailbox.beginRun iso w.self.input = .ok m ∧
    I ⟨{ w.self with mailbox := m, running := true }, w.log⟩

/-- A world whose workflow object is replaced by another, with the input of its run. -/
def World.resumed (w : World Runtime Obs) (input : MailboxInput) (base : Mailbox) :
    World Runtime Obs :=
  ⟨{ w.self with mailbox := base, input := input, running := true }, w.log⟩

/-- Starting a run on an input that resumes `base` is receiving in `base` what arrives before
the first workflow task. -/
lemma wp_start (hΦ : PrefixClosed Φ) {input : MailboxInput} {base : Mailbox}
    {w : World Runtime Obs} (hbase : Mailbox.Resumes iso input base)
    (absorb : Stable Φ I)
    (hI : I (World.resumed w input base)) :
    wp Φ (start iso input)
      ⟨fun _ => I, fun _ _ => False, fun l w => l = .start ∧ Restarting iso I w⟩ w := by
  -- while the run waits, it has buffered `signals`, and `base` would have received them
  let J : World Runtime Obs → Prop := fun w => ∃ signals : List Signal,
    w.self.mailbox = ({} : Mailbox).handleAll signals ∧ w.self.input = input ∧
      w.self.running = false ∧ I (World.resumed w input (base.handleAll signals))
  have hrestart : ∀ w, J w → Restarting iso I w := by
    rintro w ⟨signals, hm, hin, hrun, hI⟩
    refine ⟨hrun, base.handleAll signals, ?_, ?_⟩
    · rw [hm, hin]
      exact hbase signals
    · obtain ⟨⟨m, inp, running, now, sugg, uuids⟩, log⟩ := w
      subst hin
      exact hI
  rw [start, wp_modify_bind]
  refine wp_bind hΦ (wp_suspend hΦ J ⟨[], rfl, rfl, rfl, hI⟩ ?_ ?_ ?_)
  · rintro i w ⟨signals, hm, hin, hrun, hI⟩ hφ
    have hstep := absorb i _ hI hφ
    cases i with
    | signal s =>
        refine ⟨signals ++ [s], ?_, hin, hrun, ?_⟩
        · rw [Mailbox.handleAll_concat, ← hm]
          rfl
        · rw [Mailbox.handleAll_concat]
          exact hstep
    | task now suggested => exact ⟨signals, hm, hin, hrun, hstep⟩
    | reply reply => exact ⟨signals, hm, hin, hrun, hstep⟩
    | commit c => exact ⟨signals, hm, hin, hrun, hstep⟩
  · rintro i w ⟨⟩ obs hJ hwake hφ
    cases i with
    | task now suggested =>
        obtain ⟨-, rfl⟩ := Prod.mk.inj (Option.some.inj hwake)
        obtain ⟨-, m, hbegin, hm⟩ := hrestart w hJ
        dsimp only
        rw [List.append_nil, restore, wp_gets_bind, hbegin]
        exact fun _ _ => hm
    | signal s => cases hwake
    | reply reply => cases hwake
    | commit c => cases hwake
  · exact fun w hJ => ⟨rfl, hrestart w hJ⟩

/-- The rule for the loop: rounds that keep `I`. -/
lemma wp_loop (hΦ : PrefixClosed Φ) {boundary : Flow Unit} {Q : Post Runtime Obs Await Failure Unit}
    (hround : ∀ w, I w → w.self.mailbox.closed = false →
      wp Φ (round boundary) ⟨fun _ => I, Q.raised, Q.blocked⟩ w)
    (hhead : ∀ w, I w → Q.blocked .loopHead w)
    (hclosed : ∀ w, I w → w.self.mailbox.closed = true → Q.done () w) (rounds : ℕ)
    {w : World Runtime Obs} (hw : I w) : wp Φ (loop boundary rounds) Q w := by
  induction rounds generalizing w with
  | zero => exact wp_halt fun _ => hhead w hw
  | succ rounds ih =>
      rw [loop, isClosed, wp_gets_bind]
      cases hc : w.self.mailbox.closed with
      | true => exact wp_pure fun _ => hclosed w hw hc
      | false =>
          refine wp_bind hΦ (wp_mono (hround w hw hc) ?_ (fun _ _ _ _ h => h) fun _ _ _ _ h => h)
          exact fun _ w' _ _ hw' => ih hw'

/-- The input of a process's first run, as the dispatcher starts it. -/
def MailboxInput.first (tenantId processInstanceId : String)
    (processDefinitionId processDefinitionVersion : Option String)
    (continueAsNewAfterTurns : ℤ) : MailboxInput where
  tenantId := tenantId
  processInstanceId := processInstanceId
  processDefinitionId := processDefinitionId
  processDefinitionVersion := processDefinitionVersion
  continueAsNewAfterTurns := continueAsNewAfterTurns

/-- The first run of a process with a definition. -/
def sampleInput : MailboxInput := .first "tenant" "process" (some "definition") (some "1") 100

/-- A decision that waits for a reply names a wake condition. -/
lemma reply_wakes : DecisionStatus.waiting = .waiting → [WakeCondition.event "reply"] ≠ [] :=
  fun _ => List.cons_ne_nil _ _

/-- **The rule for runs**: see the module's heading. -/
theorem wp_run_resumes (hΦ : PrefixClosed Φ) {Q : Post Runtime Obs Await Failure Unit}
    (coherent : ∀ w, I w → w.self.mailbox.Coherent)
    (handover : ∀ w, I w → w.self.mailbox.closed = false →
      I (World.resumed w (w.self.mailbox.continuationInput iso) w.self.mailbox.successor))
    (absorb : Stable Φ I)
    (round : ∀ w, I w → w.self.mailbox.closed = false →
      wp Φ iteration ⟨fun _ => I, Q.raised, Q.blocked⟩ w)
    (restart : ∀ w, Restarting iso I w → Q.blocked .start w)
    (head : ∀ w, I w → Q.blocked .loopHead w)
    (closed : ∀ w, I w → w.self.mailbox.closed = true → Q.done () w)
    {input : MailboxInput} {base : Mailbox} (hbase : Mailbox.Resumes iso input base)
    (uuids : ℕ → String) (first : I (World.resumed (initialWorld input uuids) input base))
    (rounds : ℕ) : wp Φ (run iso input rounds) Q (initialWorld input uuids) := by
  have hstart : ∀ {inp base w}, Mailbox.Resumes iso inp base → I (World.resumed w inp base) →
      wp Φ (start iso inp) ⟨fun _ => I, Q.raised, Q.blocked⟩ w := by
    intro inp base w hres hI
    refine wp_mono (wp_start hΦ hres absorb hI) (fun _ _ _ _ h => h) (fun _ _ _ _ h => h.elim) ?_
    rintro l w' - - ⟨rfl, hw'⟩
    exact restart w' hw'
  refine wp_bind hΦ (wp_mono (hstart hbase first) ?_ (fun _ _ _ _ h => h) fun _ _ _ _ h => h)
  intro _ w _ _ hw
  refine wp_loop hΦ ?_ head closed rounds hw
  intro w hw hc
  rw [TiramisuAgents.round, wp_gets_bind]
  split
  · rw [continueAsNew, wp_gets_bind]
    exact hstart (Mailbox.resumes_continuationInput iso (coherent w hw)) (handover w hw hc)
  · exact round w hw hc

/-- The rule for the runs of a process, from its first one. -/
theorem wp_run (hΦ : PrefixClosed Φ) {Q : Post Runtime Obs Await Failure Unit}
    (coherent : ∀ w, I w → w.self.mailbox.Coherent)
    (handover : ∀ w, I w → w.self.mailbox.closed = false →
      I (World.resumed w (w.self.mailbox.continuationInput iso) w.self.mailbox.successor))
    (absorb : Stable Φ I)
    (round : ∀ w, I w → w.self.mailbox.closed = false →
      wp Φ iteration ⟨fun _ => I, Q.raised, Q.blocked⟩ w)
    (restart : ∀ w, Restarting iso I w → Q.blocked .start w)
    (head : ∀ w, I w → Q.blocked .loopHead w)
    (closed : ∀ w, I w → w.self.mailbox.closed = true → Q.done () w)
    {input : MailboxInput} (hinput : input.continuation = {}) (uuids : ℕ → String)
    (first : I (World.resumed (initialWorld input uuids) input (({} : Mailbox).assignInput input)))
    (rounds : ℕ) : wp Φ (run iso input rounds) Q (initialWorld input uuids) :=
  wp_run_resumes hΦ coherent handover absorb round restart head closed
    (Mailbox.resumes_initial iso hinput) uuids first rounds

end TiramisuAgents
