import TiramisuAgents.Processes.Knowledge

/-!
The calls on the actions of a process, among all the calls on it.

A statement of a call on an action is a step of `Actions.Calls` on the rows of that action; the
other actions are left alone.  A call that writes the process row changes, for every action, the
status it sees, as `setProcessStatus` does there.  So what the calls on one action keep is kept
here for every action.

* `EveryAction`: an invariant of the calls on an action, for each action.
* `ProcessStep.every_action`, `ProcessStep.on_own`, `ProcessStep.on_other`: it is kept by the
  steps of the process.
* `actionsSound`: the rows of every action are consistent, and what its calls know is true.
-/

namespace TiramisuAgents

open Transactions

section

variable {P : Platform} {t t' : Stage} {x : Answer} {db db' : Database} {obs : List ActionEvent}

/-- The call neither writes the status of the process nor is the review of another action. -/
def Stage.exposed : Stage → Bool
  | .settingStatus _ | .settingStatusLocked _ | .reviewingElsewhere _ _ _ => false
  | _ => true

/-- A statement of such a call leaves the status, and leads to another. -/
lemma next_exposed (h : next P t (.answer x) db = some (t', db', obs)) (ht : t.exposed = true) :
    t'.exposed = true ∧ db'.process = db.process := by
  have hstep := Step.of_next h
  cases hstep with
  | halt hresting => cases t' <;> first | exact ⟨rfl, rfl⟩ | cases hresting
  | lockStatus => cases ht
  | setStatus => cases ht
  | _ => exact ⟨rfl, rfl⟩

end

section

variable {V : Type}

/-- What `K` says of a call on an action. -/
def ProcessStage.On (K : UUID → Stage → Database → Prop) (w : ProcessDatabase V) :
    ProcessStage V → Prop
  | .action a u _ | .inspected a u _ _ _ => K a u (w.view a)
  | _ => True

/-- The call on an action is one of the process. -/
def ProcessStage.Exposed : ProcessStage V → Prop
  | .action _ u _ | .inspected _ u _ _ _ => u.exposed = true
  | _ => True

/-- An invariant of the calls on an action, with a part `I` about its rows and a part `K` about
each call, for every action.  `B` is assumed of a stage that makes a statement. -/
structure EveryAction (S : Services V) (B K : UUID → Stage → Database → Prop)
    (I : UUID → Database → Prop) : Prop where
  joint : ∀ a, Joint (calls (S.on a)) (fun t _ db _ => B a t db) (fun _ _ _ _ => True)
    (fun db _ => I a db) (fun t db _ => K a t db)
  idle : ∀ a db, B a .idle db ∧ K a .idle db
  setting : ∀ a status db, B a (.settingStatusLocked status) db ∧
    K a (.settingStatusLocked status) db

end

section

variable {V : Type} [BEq V] {S : Services V} {t t' u : ProcessStage V} {x : ProcessInput V}
  {w w' : ProcessDatabase V} {obs : List (ProcessEvent V)}

/-- The calls of the process do not write its status as a call on an action would. -/
lemma ProcessStep.exposed (h : ProcessStep S t x w t' w' obs) (ht : t.Exposed) : t'.Exposed := by
  cases h with
  | halt hended => obtain rfl | ⟨o, rfl⟩ := hended <;> trivial
  | start c now hexposed =>
      cases c with
      | action a call =>
          cases call with
          | setProcessStatus status => cases hexposed
          | reviewElsewhere commandId thread row => cases hexposed
          | _ => rfl
      | _ => trivial
  | act a v v' startedAt y db obs hopen hmoved => exact (next_exposed hmoved ht).1
  | inspect => exact ht
  | gate a revision key row v' startedAt now block breakers db obs hmoved =>
      exact (next_exposed hmoved ht).1
  | propose a p v' startedAt now block error db obs hmoved => exact (next_exposed hmoved ht).1
  | _ => trivial

/-- **What a step does to an action**: its call makes a statement, its process row is written by
the holder of the process, or its rows stay as they are. -/
lemma ProcessStep.action_cases (h : ProcessStep S t x w t' w' obs) (ht : t.Exposed) (a : UUID) :
    (∃ v y v' obs, next (S.on a) v (.answer y) (w.view a) = some (v', w'.view a, obs) ∧
      ((∃ startedAt, t = .action a v startedAt) ∨
        ∃ startedAt now block, t = .inspected a v startedAt now block) ∧
      ∃ startedAt, t' = .action a v' startedAt) ∨
    (.process ∈ t.locks ∧ w'.view a = { w.view a with process := w'.process.status } ∧
      ∃ o, t' = .done o) ∨
    w'.view a = w.view a := by
  have written {b : UUID} {v v' : Stage} {y : Answer} {db : Database} {obs : List ActionEvent}
      {startedAt : Time} (hmoved : next (S.on b) v (.answer y) (w.view b) = some (v', db, obs))
      (hv : v.exposed = true) :
      next (S.on b) v (.answer y) (w.view b) = some (v', (w.put b db startedAt).view b, obs) := by
    rw [ProcessDatabase.view_put_self (next_exposed hmoved hv).2]
    exact hmoved
  have other {b : UUID} {db : Database} {startedAt : Time} (hab : a ≠ b) :
      (w.put b db startedAt).view a = w.view a := ProcessDatabase.view_put_of_ne hab
  cases h with
  | act b v v' startedAt y db obs hopen hmoved =>
      by_cases hab : a = b
      · subst hab
        exact .inl ⟨v, _, v', obs, written hmoved ht, .inl ⟨startedAt, rfl⟩, startedAt, rfl⟩
      · exact .inr (.inr (other hab))
  | gate b revision key row v' startedAt now block breakers db obs hmoved =>
      by_cases hab : a = b
      · subst hab
        exact .inl ⟨_, _, v', obs, written hmoved ht, .inr ⟨startedAt, now, block, rfl⟩,
          startedAt, rfl⟩
      · exact .inr (.inr (other hab))
  | propose b p v' startedAt now block error db obs hmoved =>
      by_cases hab : a = b
      · subst hab
        exact .inl ⟨_, _, v', obs, written hmoved ht, .inr ⟨startedAt, now, block, rfl⟩,
          startedAt, rfl⟩
      · exact .inr (.inr (other hab))
  | applyDecision => exact .inr (.inl ⟨List.mem_singleton_self _, rfl, _, rfl⟩)
  | intervene => exact .inr (.inl ⟨List.mem_singleton_self _, rfl, _, rfl⟩)
  | control =>
      exact .inr (.inl ⟨List.mem_cons_of_mem _ (List.mem_singleton_self _), rfl, _, rfl⟩)
  | _ => exact .inr (.inr rfl)

/-- The requests of the process stay listed. -/
lemma ProcessStep.listed (h : ProcessStep S t x w t' w' obs) (hw : w.Listed) : w'.Listed := by
  cases h with
  | act => exact hw.put
  | gate => exact hw.put
  | propose => exact hw.put
  | _ => exact hw

variable {B K : UUID → Stage → Database → Prop} {I : UUID → Database → Prop} {a : UUID}
  {v v' : Stage} {y : CallInput} {db db' : Database} {obs' : List ActionEvent}

omit [BEq V] in
/-- A statement of a call on an action. -/
lemma EveryAction.own (hR : EveryAction S B K I) (h : next (S.on a) v y db = some (v', db', obs'))
    (hB : B a v db) (hI : I a db) (hK : K a v db) : I a db' ∧ K a v' db' := by
  obtain ⟨hown, -⟩ := hR.joint a
  exact @hown v y db [] v' db' obs' h hB hI hK

omit [BEq V] in
/-- A statement next to a call on the same action. -/
lemma EveryAction.other (hR : EveryAction S B K I)
    (h : next (S.on a) v y db = some (v', db', obs')) (hB : B a v db) {u : Stage}
    (hlocks : ∀ l ∈ u.locks, l ∉ v.locks) (hI : I a db) (hK : K a v db) (hu : K a u db) :
    K a u db' := by
  obtain ⟨-, hother⟩ := hR.joint a
  exact @hother v u y db [] v' db' obs' h hB trivial hlocks hI hK hu

omit [BEq V] in
/-- The status of the process is written as `setProcessStatus` does. -/
lemma next_setting (S : Services V) (a : UUID) (status : ProcessStatus) (db : Database) :
    next (S.on a) (.settingStatusLocked status) (.answer .go) db
      = some (.ended .written, { db with process := status }, []) :=
  rfl

/-- The rows of every action keep their invariant. -/
lemma ProcessStep.every_action (hR : EveryAction S B K I) (h : ProcessStep S t x w t' w' obs)
    (ht : t.Exposed) (hB : t.On B w) (hw : ∀ a, I a (w.view a)) (hK : t.On K w) (a : UUID) :
    I a (w'.view a) := by
  obtain ⟨v, y, v', obs', hnext, hstage, -⟩ | ⟨-, hview, -⟩ | hview := h.action_cases ht a
  · have hv : B a v (w.view a) ∧ K a v (w.view a) := by
      obtain ⟨startedAt, rfl⟩ | ⟨startedAt, now, block, rfl⟩ := hstage
      · exact ⟨hB, hK⟩
      · exact ⟨hB, hK⟩
    exact (hR.own hnext hv.1 (hw a) hv.2).1
  · obtain ⟨hBset, hKset⟩ := hR.setting a w'.process.status (w.view a)
    rw [hview]
    exact (hR.own (next_setting S a _ _) hBset (hw a) hKset).1
  · rw [hview]
    exact hw a

/-- What the call that makes the step knows. -/
lemma ProcessStep.on_own (hR : EveryAction S B K I) (h : ProcessStep S t x w t' w' obs)
    (ht : t.Exposed) (hB : t.On B w) (hw : ∀ a, I a (w.view a)) (hK : t.On K w) :
    t'.On K w' := by
  -- the rows that a statement writes are those its call sees after it
  have moved {a : UUID} {v v' : Stage} {y : Answer} {db : Database} {obs : List ActionEvent}
      {startedAt : Time} (hnext : next (S.on a) v (.answer y) (w.view a) = some (v', db, obs))
      (hv : v.exposed = true) (hBv : B a v (w.view a)) (hKv : K a v (w.view a)) :
      K a v' ((w.put a db startedAt).view a) := by
    rw [ProcessDatabase.view_put_self (next_exposed hnext hv).2]
    exact (hR.own hnext hBv (hw a) hKv).2
  cases h with
  | halt hended => obtain rfl | ⟨o, rfl⟩ := hended <;> trivial
  | start c now =>
      cases c with
      | action a call =>
          obtain ⟨hBidle, hKidle⟩ := hR.idle a (w.view a)
          have hstart : next (S.on a) .idle (.call call) (w.view a)
              = some (call.start, w.view a, []) := rfl
          exact (hR.own hstart hBidle (hw a) hKidle).2
      | _ => trivial
  | act a v v' startedAt y db obs hopen hnext => exact moved hnext ht hB hK
  | inspect => exact hK
  | gate a revision key row v' startedAt now block breakers db obs hnext =>
      exact moved hnext ht hB hK
  | propose a p v' startedAt now block error db obs hnext => exact moved hnext ht hB hK
  | _ => trivial

/-- The locks on an action that two stages do not share. -/
lemma rowLocks_disjoint {v v' : Stage}
    (h : ∀ l ∈ v.locks.map (RowLock.on a), l ∉ v'.locks.map (RowLock.on a)) :
    ∀ l ∈ v.locks, l ∉ v'.locks :=
  fun _ hl hl' => h _ (List.mem_map_of_mem hl) (List.mem_map_of_mem hl')

/-- What a bystander knows. -/
lemma ProcessStep.on_other (hR : EveryAction S B K I) (h : ProcessStep S t x w t' w' obs)
    (ht : t.Exposed) (hB : t.On B w) (hlocks : ∀ l ∈ u.locks, l ∉ t.locks)
    (hw : ∀ a, I a (w.view a)) (hK : t.On K w) (hu : u.On K w) : u.On K w' := by
  have kept {a : UUID} {v : Stage} (hv : ∀ l ∈ v.locks.map (RowLock.on a), l ∉ t.locks)
      (hu : K a v (w.view a)) : K a v (w'.view a) := by
    obtain ⟨v', y, v'', obs', hnext, hstage, -⟩ | ⟨hprocess, hview, -⟩ | hview :=
      h.action_cases ht a
    · have hv' : B a v' (w.view a) ∧ K a v' (w.view a) ∧ t.locks = v'.locks.map (RowLock.on a) := by
        obtain ⟨startedAt, rfl⟩ | ⟨startedAt, now, block, rfl⟩ := hstage
        · exact ⟨hB, hK, rfl⟩
        · exact ⟨hB, hK, rfl⟩
      rw [hv'.2.2] at hv
      exact hR.other hnext hv'.1 (rowLocks_disjoint hv) (hw a) hv'.2.1 hu
    · obtain ⟨hBset, hKset⟩ := hR.setting a w'.process.status (w.view a)
      rw [hview]
      refine hR.other (next_setting S a _ _) hBset ?_ (hw a) hKset hu
      intro l hl hset
      rw [Stage.locks, List.mem_singleton] at hset
      rw [hset] at hl
      exact hv _ (List.mem_map_of_mem hl) hprocess
    · rw [hview]
      exact hu
  cases u with
  | action a v startedAt => exact kept hlocks hu
  | inspected a v startedAt now block => exact kept hlocks hu
  | _ => trivial

/-! ### Runs -/

variable (S) in
/-- An invariant of the calls on an action is one of the calls on the process. -/
lemma EveryAction.lift (hR : EveryAction S B K I) :
    Joint (processCalls S) (fun t _ w _ => t.On B w) (fun _ _ _ _ => True)
      (fun w _ => ∀ a, I a (w.view a)) (fun t w _ => t.Exposed ∧ t.On K w) where
  own hnext hB hw ht :=
    have h := ProcessStep.of_advance hnext
    ⟨h.every_action hR ht.1 hB hw ht.2, h.exposed ht.1, h.on_own hR ht.1 hB hw ht.2⟩
  other hnext hB _ hlocks hw ht hu :=
    ⟨hu.1, (ProcessStep.of_advance hnext).on_other hR ht.1 hB hlocks hw ht.2 hu.2⟩

omit [BEq V] in
variable (S) in
/-- What the calls on an action know. -/
lemma soundRule : EveryAction S (fun _ _ _ => True) (fun a t db => t.Knows (S.on a) db)
    (fun a db => db.Consistent (S.on a)) where
  joint a := sound (S.on a)
  idle _ _ := ⟨trivial, trivial⟩
  setting _ _ _ := ⟨trivial, trivial⟩

variable {n : ℕ} {createdAt : Time}
  {s : Pool n (ProcessDatabase V) (ProcessStage V) (ProcessEvent V)}
  {G : Pool n (ProcessDatabase V) (ProcessStage V) (ProcessEvent V) → Fin n × ProcessInput V → Prop}
  {ms : List (Fin n × ProcessInput V)}

/-- **Every run** keeps the rows of every action consistent and what its calls know true. -/
theorem action_sound_runs (h : Runs (processCalls S) G (newProcess n createdAt) ms s) :
    Joint.Holds (processCalls S) (fun w _ => ∀ a, (w.view a).Consistent (S.on a))
      (fun t w _ => t.Exposed ∧ t.On (fun a v db => v.Knows (S.on a) db) w) s := by
  refine (soundRule S).lift.runs (fun s i _ _ => ?_) (fun _ _ _ _ _ _ => trivial) h
    (newProcess_holds S n createdAt (fun a => consistent_fresh (S.on a) .active) ⟨trivial, trivial⟩)
  cases s.calls i <;> trivial

end

end TiramisuAgents
