import TiramisuAgents.Processes.Knowledge

/-!
How a paused process is resumed.

A takeover pauses a process, and a resume makes it active again; a wake is refused until then.
A retry is not: the branch does not look at the status, so an intervention that was recorded
for a paused process, or before the takeover, can be retried while the operator has the
process, and makes it active.

* `paused_left`: what takes a process out of the paused status, in every run.
* `resumed_by_resume`: without such retries it is a resume; `retried_while_paused` is the run
  with one.
* `retriesResolve_runs`: each accepted retry resolves an intervention of its own.
-/

namespace TiramisuAgents

open Transactions

section

variable {V : Type} [BEq V] {S : Services V} {t t' : ProcessStage V} {x : ProcessInput V}
  {w w' : ProcessDatabase V} {obs : List (ProcessEvent V)}

omit [BEq V] in
/-- A control that makes a paused process something else is a resume, or a retry of an open
intervention. -/
lemma ProcessControlInput.write_of_paused {c : ProcessControlInput} {row : ProcessRow V}
    {interventions : List ProcessIntervention} {write : ControlWrite V}
    (h : c.write row interventions = .ok write) (hpaused : row.status = .paused) :
    (c.commandType = .resume ∧ write.payload = none) ∨
    (c.commandType = .retry ∧ ∃ id intervention, c.interventionId = some id ∧
      interventions.find? (fun r => r.id = id) = some intervention ∧
        intervention.status = .open_) := by
  unfold ProcessControlInput.write at h
  split at h
  · rename_i htype
    split at h
    · cases h
    · rename_i id hid
      split at h
      · cases h
      · rename_i intervention hfound
        split at h
        · cases h
        · rename_i hopen
          exact .inr ⟨htype, id, intervention, hid, hfound, not_not.mp hopen⟩
  · rw [if_pos hpaused] at h
    cases h
  · rw [if_neg (not_not.mpr hpaused)] at h
    obtain rfl := Except.ok.inj h
    exact .inl ⟨‹_›, rfl⟩
  · rw [if_pos hpaused] at h
    cases h

/-- **What takes a process out of the paused status**: a resume, or a retry of an open
intervention. -/
lemma ProcessStep.paused_left (h : ProcessStep S t x w t' w' obs) (ht : t.Knows S w)
    (hpaused : w.process.status = .paused) (hleft : w'.process.status ≠ .paused) :
    ∃ (c : ProcessControlInput) (reason : String) (row : ProcessRow V) (write : ControlWrite V),
      t = .controlling c (.locked reason row) ∧
      t' = .done (.controlled (c.row reason write.payload)) ∧
      (∃ eventId now, x = .answer (.wake eventId now)) ∧
      ((c.commandType = .resume ∧ write.payload = none) ∨
        (c.commandType = .retry ∧ ∃ id intervention, c.interventionId = some id ∧
          w.interventions.find? (fun r => r.id = id) = some intervention ∧
            intervention.status = .open_)) := by
  obtain hsame | ⟨c, row, facts, openActions, transition, rfl, -⟩ | ⟨v, row, rfl, hprocess⟩ |
    ⟨c, reason, row, write, rfl, hanswer, rfl, -, hwrite, -⟩ := h.process_cases
  · rw [hsame] at hleft
    exact absurd hpaused hleft
  · -- the decision was checked against the paused status
    obtain ⟨rfl, hunfenced, -⟩ := ht
    rw [hpaused] at hunfenced
    cases hunfenced
  · -- an intervention leaves a paused process as it is
    obtain rfl : row = w.process := ht
    refine absurd ?_ hleft
    rw [hprocess, ProcessRow.intervene, if_pos (by rw [hpaused]; rfl), hpaused]
  · obtain rfl : row = w.process := ht
    exact ⟨c, reason, _, write, rfl, rfl, hanswer,
      ProcessControlInput.write_of_paused hwrite hpaused⟩

omit [BEq V] in
/-- Each accepted retry has resolved an intervention of its own and carries its sources. -/
structure RetriesResolve (w : ProcessDatabase V) : Prop where
  ids : (w.interventions.map ProcessIntervention.id).Nodup
  turns : (w.interventions.map ProcessIntervention.agentTurnId).Nodup
  resolves : ∀ c ∈ w.controls, c.commandType = .retry → ∃ v ∈ w.interventions,
    c.interventionId = some v.id ∧ c.payload = some v.sources ∧ v.status = .resolved ∧
      v.resolvedByCommandId = some c.id

omit [BEq V] in
/-- Resolving an intervention changes no identity, turn or sources. -/
lemma resolveIntervention_map {α : Type} {field : ProcessIntervention → α}
    (hfield : ∀ r status by_,
      field { r with status := status, resolvedByCommandId := by_ } = field r)
    (interventions : List ProcessIntervention) (id : Option UUID) (commandId : UUID) :
    (resolveIntervention interventions id commandId).map field = interventions.map field := by
  rw [resolveIntervention, List.map_map]
  refine List.map_congr_left fun r _ => ?_
  simp only [Function.comp]
  split
  · exact hfield r _ _
  · rfl

omit [BEq V] in
/-- The retry of an open intervention. -/
lemma ProcessControlInput.write_of_retry {c : ProcessControlInput} {row : ProcessRow V}
    {interventions : List ProcessIntervention} {write : ControlWrite V}
    (h : c.write row interventions = .ok write) (htype : c.commandType = .retry) :
    ∃ v ∈ interventions, c.interventionId = some v.id ∧ write.payload = some v.sources ∧
      write.resolved = some v.id ∧ v.status = .open_ := by
  unfold ProcessControlInput.write at h
  rw [htype] at h
  dsimp only at h
  split at h
  · cases h
  · rename_i id hid
    split at h
    · cases h
    · rename_i v hfound
      have hv : v.id = id := by simpa using List.find?_some hfound
      split at h
      · cases h
      · rename_i hopen
        obtain rfl := Except.ok.inj h
        exact ⟨v, List.mem_of_find?_eq_some hfound, by rw [hid, hv], rfl, by rw [hv],
          not_not.mp hopen⟩

omit [BEq V] in
/-- Any other control resolves none. -/
lemma ProcessControlInput.write_of_not_retry {c : ProcessControlInput} {row : ProcessRow V}
    {interventions : List ProcessIntervention} {write : ControlWrite V}
    (h : c.write row interventions = .ok write) (htype : c.commandType ≠ .retry) :
    write.resolved = none := by
  unfold ProcessControlInput.write at h
  split at h
  · exact absurd ‹_› htype
  all_goals
    split_ifs at h
    obtain rfl := Except.ok.inj h
    rfl

/-- A step keeps the retries and their interventions together. -/
lemma ProcessStep.retriesResolve (h : ProcessStep S t x w t' w' obs) (hw : RetriesResolve w) :
    RetriesResolve w' := by
  cases h with
  | intervene v row hunique =>
      refine ⟨?_, ?_, fun c hc htype => ?_⟩
      · rw [List.map_append]
        refine List.nodup_append.mpr ⟨hw.ids, List.nodup_singleton _, ?_⟩
        intro id hid id' hid'
        obtain ⟨r, hr, rfl⟩ := List.mem_map.mp hid
        rw [List.mem_singleton.mp hid']
        exact (hunique r hr).2
      · rw [List.map_append]
        refine List.nodup_append.mpr ⟨hw.turns, List.nodup_singleton _, ?_⟩
        intro turn hturn turn' hturn'
        obtain ⟨r, hr, rfl⟩ := List.mem_map.mp hturn
        rw [List.mem_singleton.mp hturn']
        exact (hunique r hr).1
      · obtain ⟨v', hv', hrest⟩ := hw.resolves c hc htype
        exact ⟨v', List.mem_append_left _ hv', hrest⟩
  | control c reason row write eventId recordedAt hlive hwritten =>
      refine ⟨?_, ?_, fun c' hc' htype => ?_⟩
      · rw [resolveIntervention_map fun _ _ _ => rfl]
        exact hw.ids
      · rw [resolveIntervention_map fun _ _ _ => rfl]
        exact hw.turns
      · rcases List.mem_append.mp hc' with hold | hnew
        · -- an intervention that was resolved before is not the one resolved now
          obtain ⟨v, hv, hid, hpayload, hresolved, hby⟩ := hw.resolves c' hold htype
          refine ⟨v, List.mem_map.mpr ⟨v, hv, if_neg fun hsame => ?_⟩, hid, hpayload, hresolved,
            hby⟩
          by_cases hretry : c.commandType = .retry
          · obtain ⟨v', hv', -, -, hres, hopen⟩ :=
              ProcessControlInput.write_of_retry hwritten hretry
            rw [hres, Option.some.injEq] at hsame
            rw [List.inj_on_of_nodup_map hw.ids hv hv' hsame, hopen] at hresolved
            cases hresolved
          · rw [ProcessControlInput.write_of_not_retry hwritten hretry] at hsame
            cases hsame
        · obtain rfl := List.mem_singleton.mp hnew
          obtain ⟨v, hv, hid, hpayload, hres, -⟩ :=
            ProcessControlInput.write_of_retry hwritten htype
          refine ⟨{ v with status := .resolved, resolvedByCommandId := some c.commandId },
            List.mem_map.mpr ⟨v, hv, if_pos hres.symm⟩, hid, hpayload, rfl, rfl⟩
  | _ => exact ⟨hw.ids, hw.turns, hw.resolves⟩

variable {n : ℕ} {createdAt : Time}
  {s s' : Pool n (ProcessDatabase V) (ProcessStage V) (ProcessEvent V)}
  {ms ms' : List (Fin n × ProcessInput V)}

/-- Each retry of a run has resolved its intervention. -/
lemma retriesResolve_runs
    {G : Pool n (ProcessDatabase V) (ProcessStage V) (ProcessEvent V) →
      Fin n × ProcessInput V → Prop}
    (h : Runs (processCalls S) G (newProcess n createdAt) ms s) : RetriesResolve s.store := by
  refine h.invariant (I := fun s => RetriesResolve s.store) (fun s m s' hs _ hstep => ?_)
    ⟨List.nodup_nil, List.nodup_nil, fun _ hc => absurd hc List.not_mem_nil⟩
  obtain ⟨t, w, obs, hmoved, rfl⟩ := process_step_cases hstep
  exact hmoved.retriesResolve hs

omit [BEq V] in
/-- The step does not decide a retry of an open intervention while the process is paused. -/
def NoRetryWhilePaused (s : Pool n (ProcessDatabase V) (ProcessStage V) (ProcessEvent V))
    (m : Fin n × ProcessInput V) : Prop :=
  ∀ c reason row eventId now, s.calls m.1 = .controlling c (.locked reason row) →
    m.2 = .answer (.wake eventId now) → c.commandType = .retry →
    s.store.process.status = .paused → ∀ id, c.interventionId = some id →
      ∀ r, s.store.interventions.find? (fun r => r.id = id) = some r → r.status ≠ .open_

omit [BEq V] in
/-- The step commits an accepted resume. -/
def Resumes (s s' : Pool n (ProcessDatabase V) (ProcessStage V) (ProcessEvent V)) (i : Fin n) :
    Prop :=
  ∃ c reason row, s.calls i = .controlling c (.locked reason row) ∧ c.commandType = .resume ∧
    s'.calls i = .done (.controlled (c.row reason none))

/-- **A paused process is resumed by a resume.**  In every run without a retry of an open
intervention while the process is paused: when a process that was paused no longer is, the
first step that took it out of the paused status committed an accepted resume. -/
theorem resumed_by_resume
    (h : Runs (processCalls S) NoRetryWhilePaused (newProcess n createdAt) ms s)
    (hpaused : s.store.process.status = .paused)
    (h' : Runs (processCalls S) NoRetryWhilePaused s ms' s')
    (hleft : s'.store.process.status ≠ .paused) :
    ∃ ms₁ m ms₂ s₁ s₂, ms' = ms₁ ++ m :: ms₂ ∧
      Runs (processCalls S)
        (fun s m => NoRetryWhilePaused s m ∧ s.store.process.status = .paused) s ms₁ s₁ ∧
      s₁.store.process.status = .paused ∧ s₁.step (processCalls S) m = some s₂ ∧
      s₂.store.process.status ≠ .paused ∧ Resumes s₁ s₂ m.1 := by
  obtain ⟨ms₁, ⟨i, x⟩, ms₂, s₁, s₂, hms, hruns, hpaused₁, hG, hstep, hleft₂, -⟩ :=
    h'.first_exit (fun s => s.store.process.status = .paused) hpaused hleft
  refine ⟨ms₁, (i, x), ms₂, s₁, s₂, hms, hruns, hpaused₁, hstep, hleft₂, ?_⟩
  have hsound := process_sound_runs (h.trans (hruns.mono fun _ _ hG => hG.1))
  obtain ⟨t, w, obs, hmoved, rfl⟩ := process_step_cases hstep
  obtain ⟨c, reason, row, write, hstage, rfl, ⟨eventId, now, rfl⟩,
    hresume | ⟨hretry, id, r, hid, hfound, hopen⟩⟩ :=
    hmoved.paused_left (hsound.calls i) hpaused₁ hleft₂
  · refine ⟨c, reason, row, hstage, hresume.1, ?_⟩
    rw [← hresume.2]
    exact Function.update_self ..
  · exact absurd hopen (hG c reason row eventId now hstage rfl hretry hpaused₁ id hid r hfound)

end

/-- A computed check of `NoRetryWhilePaused`. -/
def noRetryWhilePaused {n : ℕ}
    (s : Pool n (ProcessDatabase ℕ) (ProcessStage ℕ) (ProcessEvent ℕ))
    (m : Fin n × ProcessInput ℕ) : Bool :=
  match s.calls m.1 with
  | .controlling c (.locked _ _) => c.commandType ≠ .retry
  | _ => true

lemma noRetryWhilePaused_sound {n : ℕ}
    {s : Pool n (ProcessDatabase ℕ) (ProcessStage ℕ) (ProcessEvent ℕ)}
    {m : Fin n × ProcessInput ℕ} (h : noRetryWhilePaused s m = true) : NoRetryWhilePaused s m := by
  intro c reason row eventId now hstage _ htype
  rw [noRetryWhilePaused, hstage] at h
  exact absurd htype (of_decide_eq_true h)

/-- A process that is taken over and resumed. -/
theorem resumed_by_resume_once :
    ∃ (ms ms' : List (Fin 1 × ProcessInput ℕ))
      (s s' : Pool 1 (ProcessDatabase ℕ) (ProcessStage ℕ) (ProcessEvent ℕ)),
    Runs (processCalls (sampleServices false)) NoRetryWhilePaused (newProcess 1 0) ms s ∧
    s.store.process.status = .paused ∧
    Runs (processCalls (sampleServices false)) NoRetryWhilePaused s ms' s' ∧
    s'.store.process.status ≠ .paused ∧
    ∃ ms₁ m ms₂ s₁ s₂, ms' = ms₁ ++ m :: ms₂ ∧
      Runs (processCalls (sampleServices false))
        (fun s m => NoRetryWhilePaused s m ∧ s.store.process.status = .paused) s ms₁ s₁ ∧
      s₁.store.process.status = .paused ∧
      s₁.step (processCalls (sampleServices false)) m = some s₂ ∧
      s₂.store.process.status ≠ .paused ∧ Resumes s₁ s₂ m.1 := by
  let ms : List (Fin 1 × ProcessInput ℕ) := controlled 0 "c" .takeover none
  let ms' : List (Fin 1 × ProcessInput ℕ) := controlled 0 "d" .resume none
  obtain ⟨s, hruns, hp⟩ := exists_runs (C := processCalls (sampleServices false))
    (s := newProcess 1 0) noRetryWhilePaused ms
    (fun s => s.store.process.status = .paused &&
      (s.run (processCalls (sampleServices false)) noRetryWhilePaused ms').any
        fun s' => s'.store.process.status ≠ .paused) (by decide +kernel)
  rw [Bool.and_eq_true] at hp
  obtain ⟨s', hruns', hleft⟩ := exists_runs _ _ _ hp.2
  have hpaused := of_decide_eq_true hp.1
  have hleft := of_decide_eq_true hleft
  have h := hruns.mono fun s m => noRetryWhilePaused_sound
  have h' := hruns'.mono fun s m => noRetryWhilePaused_sound
  exact ⟨ms, ms', s, s', h, hpaused, h', hleft, resumed_by_resume h hpaused h' hleft⟩

/-- The call is a control that is no resume. -/
def ProcessStage.controlsOtherwise : ProcessStage ℕ → Bool
  | .controlling c _ => c.commandType ≠ .resume
  | _ => false

/-- An intervention is recorded while the process is paused, and its retry makes the process
active, without a resume. -/
theorem retried_while_paused :
    ∃ (ms : List (Fin 1 × ProcessInput ℕ)) (m : Fin 1 × ProcessInput ℕ)
      (s s' : Pool 1 (ProcessDatabase ℕ) (ProcessStage ℕ) (ProcessEvent ℕ)),
    Runs (processCalls (sampleServices false)) (fun _ _ => True) (newProcess 1 0) ms s ∧
    s.step (processCalls (sampleServices false)) m = some s' ∧
    s.store.process.status = .paused ∧ s'.store.process.status = .active ∧
    ¬ Resumes s s' m.1 := by
  let ms : List (Fin 1 × ProcessInput ℕ) := List.flatten
    [controlled 0 "c" .takeover none, intervened 0 "i" "t",
      (controlled 0 "d" .retry (some "i")).take 4]
  obtain ⟨s, hruns, hp⟩ := exists_runs (C := processCalls (sampleServices false))
    (s := newProcess 1 0) (fun _ _ => true) ms
    (fun s => s.store.process.status = .paused && (s.calls 0).controlsOtherwise &&
      (s.step (processCalls (sampleServices false)) (0, .answer (.wake "d" 0))).any
        fun s' => s'.store.process.status = .active) (by decide +kernel)
  rw [Bool.and_eq_true, Bool.and_eq_true] at hp
  obtain ⟨⟨hpaused, hretry⟩, hp⟩ := hp
  obtain ⟨s', hstep, hactive⟩ := (Option.any_eq_true _ _).mp hp
  refine ⟨ms, _, s, s', hruns.mono fun _ _ _ => trivial, hstep, of_decide_eq_true hpaused,
    of_decide_eq_true hactive, ?_⟩
  rintro ⟨c, reason, row, hstage, htype, -⟩
  rw [hstage] at hretry
  exact of_decide_eq_true hretry htype

end TiramisuAgents
