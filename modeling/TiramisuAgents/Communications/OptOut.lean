import TiramisuAgents.Processes.Actions

/-!
Opt-outs.

An event becomes one of the process while the process is locked, and stays one for ever; an
execution reads the events at its gate, while it holds the process, and keeps it until the
provider is invoked.  So three facts about one step are enough: an opt-out stays
(`ProcessStep.optedOut_kept`), an execution that passes its gate has found none
(`ProcessStage.Unasked`), and it is still right when the provider is invoked.

* `opt_out_permanent`: after an opt-out no outbound action is executed, in every run.
-/

namespace TiramisuAgents

open Transactions

section

variable {V : Type}

/-- An opt-out event of the process is in the inbox. -/
def OptedOut (policy : CommunicationPolicy) (w : ProcessDatabase V) : Prop :=
  ∃ r ∈ w.inbox, r.correlationStatus = .matched ∧ r.eventType ∈ policy.optOutEventTypes

/-- An execution that has passed the safety check of its gate for a message has found no
opt-out. -/
def ProcessStage.Unasked (policy : CommunicationPolicy) (w : ProcessDatabase V) :
    ProcessStage V → Prop
  | .inspected _ (.gating _ _ row) _ _ none =>
      row.request.actionType ∈ policy.outboundActionTypes →
        w.latestEventTime policy.optOutEventTypes = none
  | _ => True

end

section

variable {V : Type} [BEq V] {S : Services V} {t t' u : ProcessStage V} {x : ProcessInput V}
  {w w' : ProcessDatabase V} {obs : List (ProcessEvent V)}

/-- **An opt-out stays**: no step takes an event from the process. -/
lemma ProcessStep.optedOut_kept (h : ProcessStep S t x w t' w' obs) {policy : CommunicationPolicy}
    (hout : OptedOut policy w) : OptedOut policy w' := by
  obtain ⟨r, hr, hmatched, htype⟩ := hout
  exact ⟨r, h.matched_kept hr hmatched, hmatched, htype⟩

/-- What an execution has found at its gate. -/
lemma ProcessStep.unasked (h : ProcessStep S t x w t' w' obs) : t'.Unasked S.policy w' := by
  cases h with
  | halt hended => obtain rfl | ⟨o, rfl⟩ := hended <;> trivial
  | start c => cases c <;> trivial
  | inspect a v startedAt now block hchecked =>
      cases v with
      | gating revision key row =>
          cases block with
          | none =>
              intro htype
              have hnone := ProcessDatabase.fenceBlock_eq_none htype (Option.some.inj hchecked)
              exact (allowed_iff.mp hnone.2).1.2.1
          | some block => trivial
      | _ => trivial
  | _ => trivial

/-- It stays right, since the execution holds the process. -/
lemma ProcessStep.unasked_other (h : ProcessStep S t x w t' w' obs)
    (hlocks : ∀ l ∈ u.locks, l ∉ t.locks) (hu : u.Unasked S.policy w) : u.Unasked S.policy w' := by
  cases u with
  | inspected a v startedAt now block =>
      cases v with
      | gating revision key row =>
          cases block with
          | none =>
              intro htype
              have hprocess : ProcessLock.process ∉ t.locks :=
                hlocks _ (List.mem_map.mpr ⟨.process, by simp [Stage.locks], rfl⟩)
              rw [ProcessDatabase.latestEventTime, h.matched_frame hprocess]
              exact hu htype
          | some block => trivial
      | _ => trivial
  | _ => trivial

variable (S) in
/-- What the executions have found at their gates is true. -/
lemma unaskedJoint : Joint (processCalls S) (fun _ _ _ _ => True) (fun _ _ _ _ => True)
    (fun _ _ => True) (fun t w _ => t.Unasked S.policy w) where
  own hnext _ _ _ := ⟨trivial, (ProcessStep.of_advance hnext).unasked⟩
  other hnext _ _ hlocks _ _ hu := (ProcessStep.of_advance hnext).unasked_other hlocks hu

/-- The provider is invoked for an action whose gate is passed. -/
lemma ProcessStep.invoked (h : ProcessStep S t x w t' w' obs) {a : UUID} {inv : Invocation}
    (hinv : .action a (.invoked inv) ∈ obs) :
    ∃ revision key row startedAt now,
      t = .inspected a (.gating revision key row) startedAt now none ∧
      inv.actionType = row.request.actionType ∧
      obs = [.action a (.invoked inv), .sent a row.request.actionType now] := by
  have acted {b : UUID} {v v' : Stage} {y : Answer} {db : Database} {obs : List ActionEvent}
      (hmoved : next (S.on b) v (.answer y) (w.view b) = some (v', db, obs))
      (hmem : ProcessEvent.action a (.invoked inv) ∈ obs.map (ProcessEvent.action (V := V) b)) :
      a = b ∧ ∃ revision key row, v = .gating revision key row ∧ y = .gate none ∧
        inv.actionType = row.request.actionType ∧ obs = [.invoked inv] := by
    obtain ⟨e, he, heq⟩ := List.mem_map.mp hmem
    rw [ProcessEvent.action.injEq] at heq
    obtain ⟨rfl, rfl⟩ := heq
    obtain ⟨revision, key, row, rfl, hx, -, -, hobs, rfl⟩ := (Step.of_next hmoved).invoked he
    exact ⟨rfl, revision, key, row, rfl, CallInput.answer.inj hx, rfl, hobs⟩
  cases h with
  | act b v v' startedAt y db obs hopen hmoved =>
      obtain ⟨rfl, revision, key, row, rfl, -⟩ := acted hmoved hinv
      cases hopen
  | propose b p v' startedAt now block error db obs hmoved =>
      obtain ⟨rfl, revision, key, row, hv, -⟩ := acted hmoved hinv
      cases hv
  | gate b revision key row v' startedAt now block breakers db obs hmoved =>
      have hmem : ProcessEvent.action a (.invoked inv)
          ∈ obs.map (ProcessEvent.action (V := V) b) := by
        obtain hmem | hmem := List.mem_append.mp hinv
        · exact hmem
        · split_ifs at hmem <;> simp at hmem
      obtain ⟨rfl, revision', key', row', hv, hgate, htype, rfl⟩ := acted hmoved hmem
      obtain ⟨rfl, rfl, rfl⟩ := hv
      rw [Answer.gate.injEq] at hgate
      cases block with
      | none =>
          refine ⟨revision, key, row, startedAt, now, rfl, htype, ?_⟩
          rw [hgate]
          rfl
      | some block => cases hgate
  | applyDecision => simp at hinv
  | repeatDecision => simp at hinv
  | control => simp at hinv
  | _ => exact absurd hinv List.not_mem_nil

/-! ### Runs -/

variable {n : ℕ} {createdAt : Time}
  {s s' : Pool n (ProcessDatabase V) (ProcessStage V) (ProcessEvent V)}
  {G G' : Pool n (ProcessDatabase V) (ProcessStage V) (ProcessEvent V) →
    Fin n × ProcessInput V → Prop}
  {ms ms' : List (Fin n × ProcessInput V)}

/-- **Opt-outs are permanent.**  In every run: once an opt-out event of the process is
committed, the provider is never invoked again for an action that sends a message, whatever
happens after. -/
theorem opt_out_permanent (h : Runs (processCalls S) G (newProcess n createdAt) ms s)
    (hout : OptedOut S.policy s.store) (h' : Runs (processCalls S) G' s ms' s') :
    ∃ obs, s'.log = s.log ++ obs ∧ ∀ a inv, inv.actionType ∈ S.policy.outboundActionTypes →
      .action a (.invoked inv) ∉ obs := by
  let I (s : Pool n (ProcessDatabase V) (ProcessStage V) (ProcessEvent V)) : Prop :=
    Joint.Holds (processCalls S) (fun _ _ => True) (fun t w _ => t.Unasked S.policy w) s ∧
      OptedOut S.policy s.store
  have hs : I s := by
    refine ⟨(unaskedJoint S).runs (fun _ _ _ _ => trivial) (fun _ _ _ _ _ _ => trivial) h ?_, hout⟩
    exact newProcess_holds S n createdAt trivial trivial
  have hadded := h'.appended (I := I) (fun e => ∀ a inv, e = .action a (.invoked inv) →
    inv.actionType ∉ S.policy.outboundActionTypes) ?_ hs
  · obtain ⟨obs, hlog, hobs⟩ := hadded
    exact ⟨obs, hlog, fun a inv htype hmem => hobs _ hmem a inv rfl htype⟩
  rintro s ⟨i, x⟩ s' ⟨hholds, hout⟩ - hstep
  have hholds' := (unaskedJoint S).step hholds trivial (fun _ _ => trivial) hstep
  obtain ⟨t, w, obs, hmoved, rfl⟩ := process_step_cases hstep
  refine ⟨⟨hholds', hmoved.optedOut_kept hout⟩, obs, rfl, ?_⟩
  rintro e he a inv rfl htype
  obtain ⟨revision, key, row, startedAt, now, hstage, hactionType, -⟩ := hmoved.invoked he
  have hunasked := hholds.calls i
  rw [hstage] at hunasked
  obtain ⟨r, hr, hmatched, hrtype⟩ := hout
  exact ProcessDatabase.latestEventTime_ne_none hr hmatched hrtype (hunasked (hactionType ▸ htype))

end

/-- An action is allowed, the customer opts out, and the execution is blocked. -/
theorem opt_out_permanent_once :
    ∃ (ms ms' : List (Fin 1 × ProcessInput ℕ))
      (s s' : Pool 1 (ProcessDatabase ℕ) (ProcessStage ℕ) (ProcessEvent ℕ)),
    Runs (processCalls (sampleServices false)) (fun _ _ => true = true) (newProcess 1 0) ms s ∧
    OptedOut (sampleServices false).policy s.store ∧
    Runs (processCalls (sampleServices false)) (fun _ _ => true = true) s ms' s' ∧
    s.log.length < s'.log.length ∧
    ∃ obs, s'.log = s.log ++ obs ∧
      ∀ a inv, inv.actionType ∈ (sampleServices false).policy.outboundActionTypes →
        .action a (.invoked inv) ∉ obs := by
  let ms : List (Fin 1 × ProcessInput ℕ) :=
    proposed 0 "action" .allow 0 ++
      processMoves 0 0 (.ingest ⟨"e", "stop", 0, []⟩) [.correlated true, .go]
  let ms' : List (Fin 1 × ProcessInput ℕ) := processMoves 0 0 (.action "action" (.execute 1))
    ((allowed (.go :: allowed [])).map .action ++
      [.inspection 0, .breakers none, .action .go, .action .go, .action .go])
  obtain ⟨s, hruns, hp⟩ := exists_runs (C := processCalls (sampleServices false))
    (s := newProcess 1 0) (fun _ _ => true) ms
    (fun s => s.store.inbox.any (fun r => r.correlationStatus = .matched && r.eventType = "stop") &&
      (s.run (processCalls (sampleServices false)) (fun _ _ => true) ms').any
        fun s' => s.log.length < s'.log.length) (by decide +kernel)
  rw [Bool.and_eq_true] at hp
  obtain ⟨s', hruns', hlog⟩ := exists_runs _ _ _ hp.2
  have hout : OptedOut (sampleServices false).policy s.store := by
    obtain ⟨r, hr, hstop⟩ := List.any_eq_true.mp hp.1
    rw [Bool.and_eq_true] at hstop
    exact ⟨r, hr, of_decide_eq_true hstop.1, by rw [of_decide_eq_true hstop.2]; decide⟩
  exact ⟨ms, ms', s, s', hruns, hout, hruns', of_decide_eq_true hlog,
    opt_out_permanent hruns hout hruns'⟩

end TiramisuAgents
