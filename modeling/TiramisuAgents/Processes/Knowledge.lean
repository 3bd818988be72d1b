import TiramisuAgents.Actions.Knowledge
import TiramisuAgents.Processes.Steps

/-!
What a call on a process knows of the process while it holds its row.

* `ProcessStage.Knows`: the row it has locked is the committed one; a decision that is going to
  be applied is new, and the process is neither paused nor over.
* `processSound`, `process_sound_runs`: this is so in every run.
-/

namespace TiramisuAgents

open Transactions

section

variable {V : Type} [BEq V]

omit [BEq V] in
/-- A decision that no revision is about. -/
structure DecisionInput.New (c : DecisionInput V) (w : ProcessDatabase V) : Prop where
  turn : w.revisionOf c.agentTurnId = none
  decision : ∀ r ∈ w.revisions, r.decisionId ≠ c.decision.decisionId

/-- What `apply_decision` knows. -/
def Applying.Knows (S : Services V) (c : DecisionInput V) (w : ProcessDatabase V) :
    Applying V → Prop
  | .opening => True
  | .locked row => row = w.process
  | .repeating revision =>
      w.revisionOf c.agentTurnId = some revision ∧ revision.decisionId = c.decision.decisionId
  | .checked row => row = w.process ∧ row.status.fenced = false ∧ c.New w
  | .projected row facts =>
      row = w.process ∧ row.status.fenced = false ∧ c.New w ∧
        ∃ events attempts, c.project S row events attempts = .ok facts
  | .flushing row facts openActions transition =>
      row = w.process ∧ row.status.fenced = false ∧ c.New w ∧
        (∃ events attempts, c.project S row events attempts = .ok facts) ∧
        c.transition facts openActions = .ok transition

/-- What a call knows. -/
def ProcessStage.Knows (S : Services V) (w : ProcessDatabase V) : ProcessStage V → Prop
  | .applying c a => a.Knows S c w
  | .intervening _ (.locked row) => row = w.process
  | .controlling _ (.locked _ row) => row = w.process
  | _ => True

variable {S : Services V} {t t' u : ProcessStage V} {x : ProcessInput V} {w w' : ProcessDatabase V}
  {obs : List (ProcessEvent V)}

lemma ProcessCall.start_knows (c : ProcessCall V) (now : Time) : (c.start now).Knows S w := by
  cases c <;> trivial

/-- What the call that makes the step knows. -/
lemma ProcessStep.knows (h : ProcessStep S t x w t' w' obs) (ht : t.Knows S w) :
    t'.Knows S w' := by
  cases h with
  | halt hended =>
      obtain rfl | ⟨o, rfl⟩ := hended
      · trivial
      · trivial
  | start c now => exact c.start_knows now
  | lockDecision c => rfl
  | findRevision c row revision hfound hsame => exact ⟨hfound, hsame⟩
  | checkDecision c row hturn hdecision hunfenced => exact ⟨ht, hunfenced, hturn, hdecision⟩
  | projectFacts c row events attempts facts hprojected =>
      obtain ⟨hrow, hunfenced, hnew⟩ := ht
      exact ⟨hrow, hunfenced, hnew, events, attempts, hprojected⟩
  | projectTransition c row facts transition hprojected =>
      obtain ⟨hrow, hunfenced, hnew, hfacts⟩ := ht
      exact ⟨hrow, hunfenced, hnew, hfacts, hprojected⟩
  | lockIntervention v => rfl
  | lockControl c reason => rfl
  | _ => trivial

omit [BEq V] in
lemma DecisionInput.New.of_frame {c : DecisionInput V} (h : c.New w)
    (hrevisions : w'.revisions = w.revisions) : c.New w' where
  turn := by
    rw [ProcessDatabase.revisionOf, hrevisions]
    exact h.turn
  decision := by
    rw [hrevisions]
    exact h.decision

/-- What a bystander knows stays true, since it holds the process. -/
lemma ProcessStep.knows_other (h : ProcessStep S t x w t' w' obs)
    (hlocks : ∀ l ∈ u.locks, l ∉ t.locks) (hu : u.Knows S w) : u.Knows S w' := by
  cases u with
  | applying c a =>
      cases a with
      | opening => trivial
      | locked row =>
          obtain ⟨hprocess, -⟩ := h.process_frame (hlocks _ (List.mem_singleton_self _))
          exact Eq.trans hu hprocess.symm
      | repeating revision =>
          obtain ⟨-, hrevisions, -⟩ := h.process_frame (hlocks _ (List.mem_singleton_self _))
          refine ⟨?_, hu.2⟩
          rw [ProcessDatabase.revisionOf, hrevisions]
          exact hu.1
      | checked row =>
          obtain ⟨hprocess, hrevisions, -⟩ :=
            h.process_frame (hlocks _ (List.mem_singleton_self _))
          obtain ⟨hrow, hunfenced, hnew⟩ := hu
          exact ⟨hrow.trans hprocess.symm, hunfenced, hnew.of_frame hrevisions⟩
      | projected row facts =>
          obtain ⟨hprocess, hrevisions, -⟩ :=
            h.process_frame (hlocks _ (List.mem_singleton_self _))
          obtain ⟨hrow, hunfenced, hnew, hfacts⟩ := hu
          exact ⟨hrow.trans hprocess.symm, hunfenced, hnew.of_frame hrevisions, hfacts⟩
      | flushing row facts openActions transition =>
          obtain ⟨hprocess, hrevisions, -⟩ :=
            h.process_frame (hlocks _ (List.mem_singleton_self _))
          obtain ⟨hrow, hunfenced, hnew, hrest⟩ := hu
          exact ⟨hrow.trans hprocess.symm, hunfenced, hnew.of_frame hrevisions, hrest⟩
  | intervening v i =>
      cases i with
      | locked row =>
          obtain ⟨hprocess, -⟩ := h.process_frame (hlocks _ (List.mem_singleton_self _))
          exact Eq.trans hu hprocess.symm
      | _ => trivial
  | controlling c k =>
      cases k with
      | locked reason row =>
          obtain ⟨hprocess, -⟩ := h.process_frame
            (hlocks _ (List.mem_cons_of_mem _ (List.mem_singleton_self _)))
          exact Eq.trans hu hprocess.symm
      | _ => trivial
  | _ => trivial

/-! ### Runs -/

variable (S)

/-- What the calls know is true. -/
lemma processSound : Joint (processCalls S) (fun _ _ _ _ => True) (fun _ _ _ _ => True)
    (fun _ _ => True) (fun t w _ => t.Knows S w) where
  own hnext _ _ ht := ⟨trivial, (ProcessStep.of_advance hnext).knows ht⟩
  other hnext _ _ hlocks _ _ hu := (ProcessStep.of_advance hnext).knows_other hlocks hu

omit [BEq V] in
/-- A process as it is created, and no calls. -/
def newProcess (n : ℕ) (createdAt : Time) :
    Pool n (ProcessDatabase V) (ProcessStage V) (ProcessEvent V) where
  store := { process := { status := .active, createdAt := createdAt } }
  calls := fun _ => .idle
  log := []

/-- An invariant of the pool at the start. -/
lemma newProcess_holds {I : ProcessDatabase V → List (ProcessEvent V) → Prop}
    {K : ProcessStage V → ProcessDatabase V → List (ProcessEvent V) → Prop} (n : ℕ)
    (createdAt : Time) (hI : I (newProcess n createdAt).store [])
    (hK : K .idle (newProcess n createdAt).store []) :
    Joint.Holds (processCalls S) I K (newProcess n createdAt) :=
  ⟨fun _ _ _ h => absurd h List.not_mem_nil, hI, fun _ => hK⟩

variable {S}

/-- **Every run** keeps what the calls know true. -/
theorem process_sound_runs {n : ℕ} {createdAt : Time}
    {s : Pool n (ProcessDatabase V) (ProcessStage V) (ProcessEvent V)}
    {G : Pool n (ProcessDatabase V) (ProcessStage V) (ProcessEvent V) →
      Fin n × ProcessInput V → Prop}
    {ms : List (Fin n × ProcessInput V)}
    (h : Runs (processCalls S) G (newProcess n createdAt) ms s) :
    Joint.Holds (processCalls S) (fun _ _ => True) (fun t w _ => t.Knows S w) s :=
  (processSound S).runs (fun _ _ _ _ => trivial) (fun _ _ _ _ _ _ => trivial) h
    (newProcess_holds S n createdAt trivial trivial)

end

/-! ### Sample runs -/

/-- Services with the sample platform, whose action sends a message. -/
def sampleServices (idempotent : Bool) : Services ℕ where
  platform := samplePlatform idempotent
  policy :=
    { outboundActionTypes := ["send"]
      replyEventTypes := ["reply"]
      optOutEventTypes := ["stop"]
      maxFollowUpsWithoutReply := 3
      minimumFollowUpInterval := 24
      outboundMessageWindow := 24
      maxOutboundMessagesPerWindow := 1
      maximumProcessLifetime := 1000 }
  isoformat := fun _ => "then"
  bytes := fun _ => 1

/-- A call at a time, with the answers it is given. -/
def processMoves {n : ℕ} (i : Fin n) (now : Time) (c : ProcessCall ℕ)
    (xs : List (ProcessAnswer ℕ)) : List (Fin n × ProcessInput ℕ) :=
  (i, .call c now) :: xs.map fun x => (i, .answer x)

/-- A proposal that the gateway persists. -/
def proposed {n : ℕ} (i : Fin n) (a : UUID) (outcome : PermissionOutcome) (now : Time) :
    List (Fin n × ProcessInput ℕ) :=
  processMoves i now (.action a (.persist (sampleProposal outcome)))
    [.action .go, .inspection now, .action (.check none)]

/-- A control of the sample operator. -/
def controlled {n : ℕ} (i : Fin n) (commandId : UUID) (commandType : ProcessControlType)
    (interventionId : Option UUID) : List (Fin n × ProcessInput ℕ) :=
  processMoves i 0 (.applyControl ⟨commandId, "operator", commandType, "because", interventionId⟩)
    [.go, .go, .go, .wake commandId 0]

/-- A decision of a turn that completes the process. -/
def completion (turnId decisionId : UUID) : DecisionInput ℕ where
  agentTurnId := turnId
  decision := plainCompletion decisionId [] []

/-- It is applied. -/
def completed {n : ℕ} (i : Fin n) (turnId decisionId : UUID) : List (Fin n × ProcessInput ℕ) :=
  processMoves i 0 (.applyDecision (completion turnId decisionId))
    [.go, .go, .sources [] [], .go, .go]

/-- An intervention for a turn that has failed. -/
def intervened {n : ℕ} (i : Fin n) (interventionId turnId : UUID) :
    List (Fin n × ProcessInput ℕ) :=
  processMoves i 0 (.recordIntervention ⟨interventionId, turnId, "turn_failure", "Error", "", {}⟩)
    [.go, .go, .go]

end TiramisuAgents
