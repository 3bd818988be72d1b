import TiramisuAgents.Processes.Knowledge

/-!
The state revisions of a process.

* `Dense`: the versions are those from one up to the version of the process, and no turn and no
  decision has two revisions.
* `Recorded`: what a decision was reported to have done is what its revision says.
* `revisions_replay_safe`: both in every run; a call that repeats a turn and its decision writes
  nothing and is answered with the revision, and a call that raises has written nothing.
-/

namespace TiramisuAgents

open Transactions

section

variable {V : Type}

/-- The revisions are numbered without gaps, one for a turn and one for a decision. -/
structure Dense (w : ProcessDatabase V) : Prop where
  versions : w.revisions.map ProcessStateRevision.version = List.range' 1 w.process.stateVersion
  turns : (w.revisions.map ProcessStateRevision.agentTurnId).Nodup
  decisions : (w.revisions.map ProcessStateRevision.decisionId).Nodup

/-- A revision of the turn and the decision of a call. -/
structure ProcessStateRevision.Of (r : ProcessStateRevision V) (c : DecisionInput V) : Prop where
  turn : r.agentTurnId = c.agentTurnId
  decision : r.decisionId = c.decision.decisionId

/-- What a call was told, whether it has applied the decision or found it applied. -/
def Reported (log : List (ProcessEvent V)) (c : DecisionInput V) (r : AppliedProcessState) : Prop :=
  .applied c r ∈ log ∨ .repeated c r ∈ log

/-- What the calls were told is in the revisions. -/
def Recorded (w : ProcessDatabase V) (log : List (ProcessEvent V)) : Prop :=
  ∀ c r, Reported log c r → ∃ revision ∈ w.revisions, revision.Of c ∧
    ∃ openActions, r = revision.result openActions

/-- The parts of a result that a repeated call gives again. -/
structure AppliedProcessState.Same (r r' : AppliedProcessState) : Prop where
  version : r.version = r'.version
  status : r.status = r'.status
  wakeConditions : r.wakeConditions = r'.wakeConditions
  terminal : r.terminal = r'.terminal

/-- Calls with the same turn and decision were told the same. -/
def ToldTheSame (log : List (ProcessEvent V)) : Prop :=
  ∀ c c' r r', Reported log c r → Reported log c' r' → c.agentTurnId = c'.agentTurnId →
    c.decision.decisionId = c'.decision.decisionId → r.Same r'

lemma ProcessStateRevision.result_same (r : ProcessStateRevision V) (o o' : OpenActions) :
    (r.result o).Same (r.result o') :=
  ⟨rfl, rfl, rfl, rfl⟩

variable {w w' : ProcessDatabase V} {c : DecisionInput V} {log obs : List (ProcessEvent V)}
  {revision revision' : ProcessStateRevision V}

lemma DecisionInput.New.ne_turn (h : c.New w) (hr : revision ∈ w.revisions) :
    revision.agentTurnId ≠ c.agentTurnId := by
  have hnone := List.find?_eq_none.mp h.turn revision hr
  simpa using hnone

/-- In a dense history a revision is found by its turn. -/
lemma Dense.revisionOf_eq (hw : Dense w) (hr : revision ∈ w.revisions) :
    w.revisionOf revision.agentTurnId = some revision := by
  obtain ⟨found, hfound⟩ := Option.isSome_iff_exists.mp
    (List.find?_isSome (p := fun r => decide (r.agentTurnId = revision.agentTurnId)) |>.mpr
      ⟨revision, hr, decide_eq_true rfl⟩)
  have hturn : found.agentTurnId = revision.agentTurnId := by
    simpa using List.find?_some hfound
  have hsame := List.inj_on_of_nodup_map hw.turns (List.mem_of_find?_eq_some hfound) hr hturn
  rw [ProcessDatabase.revisionOf, hfound, hsame]

/-- A decision that is new extends a dense history. -/
lemma Dense.append (hw : Dense w) (hnew : c.New w) (row : ProcessRow V)
    (hversion : row.stateVersion = w.process.stateVersion + 1) :
    Dense { w with
      process := row
      revisions := w.revisions ++ [row.revision c.agentTurnId c.decision] } where
  versions := by
    dsimp only
    rw [List.map_append, hw.versions, hversion, List.range'_concat]
    simp [ProcessRow.revision, hversion, Nat.add_comm]
  turns := by
    rw [List.map_append]
    refine List.nodup_append.mpr ⟨hw.turns, List.nodup_singleton _, ?_⟩
    intro turn hturn turn' hturn'
    obtain ⟨r, hr, rfl⟩ := List.mem_map.mp hturn
    rw [List.mem_singleton.mp hturn']
    exact hnew.ne_turn hr
  decisions := by
    rw [List.map_append]
    refine List.nodup_append.mpr ⟨hw.decisions, List.nodup_singleton _, ?_⟩
    intro decision hdecision decision' hdecision'
    obtain ⟨r, hr, rfl⟩ := List.mem_map.mp hdecision
    rw [List.mem_singleton.mp hdecision']
    exact hnew.decision r hr

/-- A control leaves what the decisions have written. -/
lemma ProcessControlInput.write_frame {c : ProcessControlInput} {row : ProcessRow V}
    {interventions : List ProcessIntervention} {write : ControlWrite V}
    (h : c.write row interventions = .ok write) :
    write.process.facts = row.facts ∧ write.process.memory = row.memory ∧
      write.process.stateVersion = row.stateVersion ∧ write.process.createdAt = row.createdAt := by
  unfold ProcessControlInput.write at h
  split at h
  · split at h
    · cases h
    · split at h
      · cases h
      · split_ifs at h
        obtain rfl := Except.ok.inj h
        exact ⟨rfl, rfl, rfl, rfl⟩
  all_goals
    split_ifs at h
    obtain rfl := Except.ok.inj h
    exact ⟨rfl, rfl, rfl, rfl⟩

/-- So does an intervention. -/
lemma ProcessRow.intervene_frame (row : ProcessRow V) :
    row.intervene.facts = row.facts ∧ row.intervene.memory = row.memory ∧
      row.intervene.stateVersion = row.stateVersion ∧ row.intervene.createdAt = row.createdAt := by
  rw [ProcessRow.intervene]
  split_ifs
  · exact ⟨rfl, rfl, rfl, rfl⟩
  · exact ⟨rfl, rfl, rfl, rfl⟩

end

section

variable {V : Type} [BEq V] {S : Services V} {t t' : ProcessStage V} {x : ProcessInput V}
  {w w' : ProcessDatabase V} {log obs : List (ProcessEvent V)}

/-- A step keeps the history dense. -/
lemma ProcessStep.dense (h : ProcessStep S t x w t' w' obs) (ht : t.Knows S w) (hw : Dense w) :
    Dense w' := by
  cases h with
  | applyDecision c row facts openActions transition =>
      obtain ⟨rfl, -, hnew, -⟩ := ht
      exact hw.append hnew _ rfl
  | intervene v row =>
      obtain rfl : row = w.process := ht
      exact ⟨by rw [w.process.intervene_frame.2.2.1]; exact hw.versions, hw.turns, hw.decisions⟩
  | control c reason row write eventId recordedAt hlive hwritten =>
      obtain rfl : row = w.process := ht
      refine ⟨?_, hw.turns, hw.decisions⟩
      rw [(ProcessControlInput.write_frame hwritten).2.2.1]
      exact hw.versions
  | _ => exact ⟨hw.versions, hw.turns, hw.decisions⟩

/-- A step keeps the revisions, or adds one. -/
lemma ProcessStep.revisions_kept (h : ProcessStep S t x w t' w' obs)
    {revision : ProcessStateRevision V} (hr : revision ∈ w.revisions) :
    revision ∈ w'.revisions := by
  cases h with
  | applyDecision => exact List.mem_append_left _ hr
  | _ => exact hr

/-- What a step reports is in the revisions after it. -/
lemma ProcessStep.reports (h : ProcessStep S t x w t' w' obs) (ht : t.Knows S w)
    {c : DecisionInput V} {r : AppliedProcessState} (hr : Reported obs c r) :
    ∃ revision ∈ w'.revisions, revision.Of c ∧ ∃ openActions, r = revision.result openActions := by
  cases h with
  | applyDecision c' row facts openActions transition =>
      simp only [Reported, List.mem_singleton, ProcessEvent.applied.injEq, reduceCtorEq,
        or_false] at hr
      obtain ⟨rfl, rfl⟩ := hr
      exact ⟨_, List.mem_append_right _ (List.mem_singleton_self _), ⟨rfl, rfl⟩, _, rfl⟩
  | repeatDecision c' revision =>
      simp only [Reported, List.mem_singleton, ProcessEvent.repeated.injEq, reduceCtorEq,
        false_or] at hr
      obtain ⟨rfl, rfl⟩ := hr
      obtain ⟨hfound, hdecision⟩ := ht
      have hturn : revision.agentTurnId = c.agentTurnId := by simpa using List.find?_some hfound
      exact ⟨revision, List.mem_of_find?_eq_some hfound, ⟨hturn, hdecision⟩, _, rfl⟩
  | gate =>
      simp only [Reported, List.mem_append, List.mem_map] at hr
      split_ifs at hr <;> simp at hr
  | _ => simp [Reported] at hr

/-- A step keeps what was reported in the revisions. -/
lemma ProcessStep.recorded (h : ProcessStep S t x w t' w' obs) (ht : t.Knows S w)
    (hw : Recorded w log) : Recorded w' (log ++ obs) := by
  intro c r hr
  simp only [Reported, List.mem_append] at hr
  have hsplit : Reported log c r ∨ Reported obs c r := by
    unfold Reported
    tauto
  obtain hold | hnew := hsplit
  · obtain ⟨revision, hrevision, hof⟩ := hw c r hold
    exact ⟨revision, h.revisions_kept hrevision, hof⟩
  · exact h.reports ht hnew

variable (S) in
/-- The revisions are dense and hold what was reported. -/
lemma revisionsSound : Joint (processCalls S) (fun _ _ _ _ => True) (fun _ _ _ _ => True)
    (fun w log => Dense w ∧ Recorded w log) (fun t w _ => t.Knows S w) where
  own hnext _ hw ht := by
    have h := ProcessStep.of_advance hnext
    exact ⟨⟨h.dense ht hw.1, h.recorded ht hw.2⟩, h.knows ht⟩
  other hnext _ _ hlocks _ _ hu := (ProcessStep.of_advance hnext).knows_other hlocks hu

/-! ### Calls of `apply_decision` -/

/-- A statement of `apply_decision` that does not apply the decision writes nothing. -/
lemma ProcessStep.applying_frame {c : DecisionInput V} {a : Applying V}
    (h : ProcessStep S (.applying c a) x w t' w' obs) :
    w' = w ∨ ∃ r, t' = .done (.applied r) := by
  cases h with
  | applyDecision => exact .inr ⟨_, rfl⟩
  | _ => exact .inl rfl

/-- A statement of `apply_decision` on a turn and decision that have a revision writes nothing,
and does not raise. -/
lemma applying_repeated {c : DecisionInput V} {a : Applying V}
    (h : advance S (.applying c a) x w = some (t', w', obs)) (ha : a.Knows S c w) (hw : Dense w)
    {revision : ProcessStateRevision V} (hr : revision ∈ w.revisions) (hof : revision.Of c) :
    w' = w ∧ (t' = .idle ∨ (∃ a', t' = .applying c a') ∨
      ∃ openActions, t' = .done (.applied (revision.result openActions))) := by
  have hfound : w.revisionOf c.agentTurnId = some revision := by
    rw [← hof.turn]
    exact hw.revisionOf_eq hr
  cases x with
  | call c' now => simp [advance, ProcessStage.resting] at h
  | crash =>
      obtain ⟨rfl, rfl, -⟩ := ProcessStep.keep_eq h
      exact ⟨rfl, .inl rfl⟩
  | answer y =>
      rw [advance, ProcessStage.statement] at h
      unfold Applying.statement at h
      split at h
      · obtain ⟨rfl, rfl, -⟩ := ProcessStep.keep_eq h
        exact ⟨rfl, .inr (.inl ⟨_, rfl⟩)⟩
      · -- under the lock the revision is found, before any other check
        unfold DecisionInput.check at h
        rw [hfound] at h
        dsimp only at h
        rw [if_neg (not_not.mpr hof.decision)] at h
        obtain ⟨rfl, rfl, -⟩ := ProcessStep.keep_eq h
        exact ⟨rfl, .inr (.inl ⟨_, rfl⟩)⟩
      · obtain ⟨hsome, -⟩ := ha
        rw [hfound, Option.some.injEq] at hsome
        rw [Option.some.injEq, Prod.mk.injEq, Prod.mk.injEq] at h
        obtain ⟨rfl, rfl, -⟩ := h
        rw [← hsome]
        exact ⟨rfl, .inr (.inr ⟨_, rfl⟩)⟩
      · exact absurd hof.turn (ha.2.2.ne_turn hr)
      · exact absurd hof.turn (ha.2.2.1.ne_turn hr)
      · exact absurd hof.turn (ha.2.2.1.ne_turn hr)
      · cases h

/-! ### Runs -/

variable {n : ℕ} {createdAt : Time}
  {s : Pool n (ProcessDatabase V) (ProcessStage V) (ProcessEvent V)}
  {G : Pool n (ProcessDatabase V) (ProcessStage V) (ProcessEvent V) → Fin n × ProcessInput V → Prop}
  {ms : List (Fin n × ProcessInput V)}

variable (S) in
/-- The next statement of a call of `apply_decision` writes nothing unless it applies the
decision, and on a turn and decision with a revision it leads to the result of the revision. -/
def ReplaySafe (s : Pool n (ProcessDatabase V) (ProcessStage V) (ProcessEvent V)) : Prop :=
  ∀ i x s' c a, s.calls i = .applying c a → s.step (processCalls S) (i, x) = some s' →
    (s'.store = s.store ∨ ∃ r, s'.calls i = .done (.applied r)) ∧
    ∀ revision ∈ s.store.revisions, revision.Of c →
      s'.store = s.store ∧ (s'.calls i = .idle ∨ (∃ a', s'.calls i = .applying c a') ∨
        ∃ openActions, s'.calls i = .done (.applied (revision.result openActions)))

variable (S) in
/-- A call on a turn and decision with a revision, in its turn for the process row, is answered
with the result of the revision. -/
def Replays (s : Pool n (ProcessDatabase V) (ProcessStage V) (ProcessEvent V)) : Prop :=
  ∀ i c, s.calls i = .applying c .opening →
    (∀ j, j ≠ i → ProcessLock.process ∉ (s.calls j).locks) →
    ∀ revision ∈ s.store.revisions, revision.Of c →
      ∃ s', s.run (processCalls S) (fun _ _ => true)
          [(i, .answer .go), (i, .answer .go), (i, .answer .go)] = some s' ∧
        s'.store = s.store ∧
        s'.calls i = .done (.applied (revision.result s.store.openActions))

lemma Dense.replays (hw : Dense s.store) : Replays S s := by
  intro i c hstage hfree revision hr hof
  have hfound : s.store.revisionOf c.agentTurnId = some revision := by
    rw [← hof.turn]
    exact hw.revisionOf_eq hr
  have hfree' : ∀ (s' : Pool n (ProcessDatabase V) (ProcessStage V) (ProcessEvent V)) t,
      (∀ j, j ≠ i → s'.calls j = s.calls j) → (∀ l ∈ t.locks, l = ProcessLock.process) →
      Free (processCalls S) s' i t := by
    intro s' t hothers ht j hj l hl
    rw [ht l hl, hothers j hj]
    exact hfree j hj
  -- it locks the process, finds the revision, and reads the open actions
  let s₁ : Pool n (ProcessDatabase V) (ProcessStage V) (ProcessEvent V) :=
    ⟨s.store, Function.update s.calls i (.applying c (.locked s.store.process)), s.log ++ []⟩
  let s₂ : Pool n (ProcessDatabase V) (ProcessStage V) (ProcessEvent V) :=
    ⟨s.store, Function.update s₁.calls i (.applying c (.repeating revision)), s₁.log ++ []⟩
  let s₃ : Pool n (ProcessDatabase V) (ProcessStage V) (ProcessEvent V) :=
    ⟨s.store, Function.update s₂.calls i
      (.done (.applied (revision.result s.store.openActions))),
      s₂.log ++ [.repeated c (revision.result s.store.openActions)]⟩
  have hothers₁ : ∀ j, j ≠ i → s₁.calls j = s.calls j := fun j hj => Function.update_of_ne hj _ _
  have hothers₂ : ∀ j, j ≠ i → s₂.calls j = s.calls j := fun j hj =>
    (Function.update_of_ne hj _ _).trans (hothers₁ j hj)
  have hstage₁ : s₁.calls i = .applying c (.locked s.store.process) := Function.update_self ..
  have hstage₂ : s₂.calls i = .applying c (.repeating revision) := Function.update_self ..
  have hstep₁ : s.step (processCalls S) (i, .answer .go) = some s₁ :=
    step_eq (by rw [hstage]; rfl) (hfree' s _ (fun _ _ => rfl) fun _ hl => List.mem_singleton.mp hl)
  have hcheck : c.check s.store.process s.store
      = (ProcessStage.applying c (.repeating revision)).keep s.store := by
    unfold DecisionInput.check
    rw [hfound]
    dsimp only
    rw [if_neg (not_not.mpr hof.decision)]
  have hstep₂ : s₁.step (processCalls S) (i, .answer .go) = some s₂ :=
    step_eq (by rw [hstage₁]; exact hcheck)
      (hfree' s₁ _ hothers₁ fun _ hl => List.mem_singleton.mp hl)
  have hstep₃ : s₂.step (processCalls S) (i, .answer .go) = some s₃ :=
    step_eq (by rw [hstage₂]; rfl) (hfree' s₂ _ hothers₂ fun _ hl => absurd hl List.not_mem_nil)
  refine ⟨s₃, ?_, rfl, Function.update_self ..⟩
  simp [Pool.run, hstep₁, hstep₂, hstep₃]

/-- The revisions of every run are dense, and hold what was reported. -/
lemma dense_runs (h : Runs (processCalls S) G (newProcess n createdAt) ms s) :
    Joint.Holds (processCalls S) (fun w log => Dense w ∧ Recorded w log)
      (fun t w _ => t.Knows S w) s :=
  (revisionsSound S).runs (fun _ _ _ _ => trivial) (fun _ _ _ _ _ _ => trivial) h
    (newProcess_holds S n createdAt
      ⟨⟨rfl, List.nodup_nil, List.nodup_nil⟩, by simp [Recorded, Reported]⟩ trivial)

/-- **State revisions are dense, unique and replay-safe.**  In every run the revisions of a
process carry the versions up to its own, with one revision for a turn and for a decision; two
calls with the same turn and decision are told the same, and repeating a call is possible and
writes nothing; and a call that raises has written nothing. -/
theorem revisions_replay_safe (h : Runs (processCalls S) G (newProcess n createdAt) ms s) :
    Dense s.store ∧ ToldTheSame s.log ∧ ReplaySafe S s ∧ Replays S s := by
  have hs := dense_runs h
  obtain ⟨hdense, hrecorded⟩ := hs.common
  refine ⟨hdense, ?_, ?_, hdense.replays⟩
  · intro c c' r r' hr hr' hturn hdecision
    obtain ⟨revision, hmem, hof, o, rfl⟩ := hrecorded c r hr
    obtain ⟨revision', hmem', hof', o', rfl⟩ := hrecorded c' r' hr'
    have hturns : revision.agentTurnId = revision'.agentTurnId := by
      rw [hof.turn, hturn, hof'.turn]
    rw [List.inj_on_of_nodup_map hdense.turns hmem hmem' hturns]
    exact revision'.result_same o o'
  · intro i x s' c a hstage hstep
    obtain ⟨t, w, obs, hnext, -, rfl⟩ := step_eq_some hstep
    rw [hstage] at hnext
    have hknows : a.Knows S c s.store := by
      have := hs.calls i
      rwa [hstage] at this
    dsimp only
    rw [Function.update_self]
    exact ⟨(ProcessStep.of_advance hnext).applying_frame,
      fun revision hr hof => applying_repeated hnext hknows hdense hr hof⟩

end

/-- A decision that completes the process, and is applied again. -/
theorem revisions_replay_safe_twice :
    ∃ (ms : List (Fin 1 × ProcessInput ℕ))
      (s : Pool 1 (ProcessDatabase ℕ) (ProcessStage ℕ) (ProcessEvent ℕ)),
    Runs (processCalls (sampleServices false)) (fun _ _ => true = true) (newProcess 1 0) ms s ∧
    s.store.revisions.length = 1 ∧ s.log.length = 2 ∧ Dense s.store ∧ ToldTheSame s.log ∧
    ReplaySafe (sampleServices false) s ∧ Replays (sampleServices false) s := by
  let ms : List (Fin 1 × ProcessInput ℕ) :=
    completed 0 "t" "d" ++ processMoves 0 0 (.applyDecision (completion "t" "d")) [.go, .go, .go]
  obtain ⟨s, hruns, hp⟩ := exists_runs (C := processCalls (sampleServices false))
    (s := newProcess 1 0) (fun _ _ => true) ms
    (fun s => s.store.revisions.length = 1 && s.log.length = 2) (by decide +kernel)
  rw [Bool.and_eq_true] at hp
  exact ⟨ms, s, hruns, of_decide_eq_true hp.1, of_decide_eq_true hp.2, revisions_replay_safe hruns⟩

end TiramisuAgents
