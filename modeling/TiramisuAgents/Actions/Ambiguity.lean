import TiramisuAgents.Actions.Fence

/-!
Ambiguous outcomes: when `ActionExecutor` records an attempt as failed, in a sequence of calls.

A provider failure is recorded as failed only if the provider says that it is definitive, and
a lookup is never recorded as failed.  But an execution that a safety gate blocks is recorded
as failed as well, and with an idempotent adapter this execution may be a retry of one whose
outcome is unknown.

* `latest`, `Harmless`: the last invocation for a key, and that it cannot have had an effect.
* `ambiguity_kept`: if the gates block only executions whose key is harmless, an attempt is
  recorded as failed only when it is; `ambiguity_downgraded` is the sequence without.
-/

namespace TiramisuAgents

open Transactions

/-! ### The last invocation -/

/-- What an event says about the last invocation for a key and its answer. -/
def ActionEvent.latest (key : String) (last : Option (Option ProviderAnswer)) :
    ActionEvent → Option (Option ProviderAnswer)
  | .invoked invocation => if invocation.idempotencyKey = key then some none else last
  | .answered key' answer => if key' = key then some (some answer) else last
  | _ => last

/-- The last invocation for a key, with its answer if there is one. -/
def latest (key : String) (log : List ActionEvent) : Option (Option ProviderAnswer) :=
  log.foldl (ActionEvent.latest key) none

/-- The provider was never invoked for the key, or the last invocation raised a definitive
failure. -/
def Harmless (key : String) (log : List ActionEvent) : Prop :=
  latest key log = none ∨ ∃ answer, latest key log = some (some answer) ∧ answer.definitive = true

/-- The event tells nothing about invocations for the key. -/
def ActionEvent.quiet (key : String) : ActionEvent → Bool
  | .invoked invocation => invocation.idempotencyKey ≠ key
  | .answered key' _ => key' ≠ key
  | _ => true

section

variable {P : Platform} {t t' u : Stage} {x : CallInput} {db db' : Database}
  {obs : List ActionEvent}
  {log : List ActionEvent} {key : String}

lemma latest_append_of_quiet (h : ∀ e ∈ obs, e.quiet key = true) :
    latest key (log ++ obs) = latest key log := by
  rw [latest, List.foldl_append]
  change obs.foldl (ActionEvent.latest key) (latest key log) = latest key log
  generalize latest key log = last
  induction obs with
  | nil => rfl
  | cons e obs ih =>
      have hone : ActionEvent.latest key last e = last := by
        have he := h e List.mem_cons_self
        cases e with
        | invoked inv => exact if_neg (of_decide_eq_true he)
        | answered key' answer => exact if_neg (of_decide_eq_true he)
        | _ => rfl
      rw [List.foldl_cons, hone]
      exact ih fun e he => h e (List.mem_cons_of_mem _ he)

lemma Harmless.append (h : Harmless key log) (hobs : ∀ e ∈ obs, e.quiet key = true) :
    Harmless key (log ++ obs) := by
  rw [Harmless, latest_append_of_quiet hobs]
  exact h

/-- Only an invocation and its answer are not quiet. -/
lemma Step.quiet (h : Step P t x db t' db' obs)
    (hgate : ∀ revision row, t ≠ .gating revision key row) (hinvoking : t ≠ .invoking key) :
    ∀ e ∈ obs, e.quiet key = true := by
  intro e he
  cases h with
  | invoke revision key' row =>
      rw [List.mem_singleton.mp he]
      refine decide_eq_true fun heq : key' = key => ?_
      exact hgate revision row (by rw [heq])
  | answered key' answer =>
      rw [List.mem_singleton.mp he]
      refine decide_eq_true fun heq : key' = key => ?_
      exact hinvoking (by rw [heq])
  | review c approval request write =>
      obtain ⟨status, -, rfl⟩ := List.mem_map.mp he
      rfl
  | persist p =>
      split_ifs at he
      · rw [List.mem_singleton.mp he]
        rfl
      · cases he
  | record =>
      rcases List.mem_pair.mp he with rfl | rfl <;> rfl
  | resolve =>
      rcases List.mem_pair.mp he with rfl | rfl <;> rfl
  | insert => rw [List.mem_singleton.mp he]; rfl
  | reclaim => rw [List.mem_singleton.mp he]; rfl
  | remark => rw [List.mem_singleton.mp he]; rfl
  | mark => rw [List.mem_singleton.mp he]; rfl
  | _ => cases he

/-! ### One call -/

/-- What a call knows of the outcome it is about to record, and of the attempt it works on. -/
def Stage.Honest (db : Database) (log : List ActionEvent) : Stage → Prop
  | .recording key outcome | .recordingAttempt key outcome _ | .recordingBoth key outcome _ =>
      outcome.status = .failed → Harmless key log
  | .invoking key => db.Pending key
  | t => ∀ key, t.pendingKey = some key → db.Pending key

/-- The failures in the log and in the database are honest. -/
structure Faithful (db : Database) (log : List ActionEvent) : Prop where
  recorded : ∀ before after key, log = before ++ .recorded key .failed :: after →
    Harmless key before
  stored : ∀ key a, db.attempts key = some a → a.status = .failed →
    (∃ status, .resolved key status ∈ log) ∨ Harmless key log

/-- The gate blocks the execution only if its key is harmless. -/
def Stage.BlockedHarmless (t : Stage) (x : CallInput) (log : List ActionEvent) : Prop :=
  ∀ revision key row block, t = .gating revision key row → x = .answer (.gate (some block)) →
    Harmless key log

lemma Stage.Honest.pending (h : t.Honest db log) (hkey : t.pendingKey = some key) :
    db.Pending key := by
  cases t with
  | recording => cases hkey
  | recordingAttempt => cases hkey
  | recordingBoth => cases hkey
  | invoking => cases hkey
  | _ => exact h key hkey

/-- A definitive failure is harmless, and no other answer is recorded as failed. -/
lemma harmless_of_answer {answer : ProviderAnswer} (h : answer.outcome.status = .failed) :
    Harmless key (log ++ [.answered key answer]) := by
  refine .inr ⟨answer, ?_, ?_⟩
  · rw [latest, List.foldl_append, List.foldl_cons, List.foldl_nil]
    exact if_pos rfl
  · cases answer with
    | definitiveFailure message => rfl
    | _ => cases h

/-- What the call knows after its step. -/
lemma Step.honest (h : Step P t x db t' db' obs) (ht : t.Knows P db) (hhonest : t.Honest db log)
    (hblock : t.BlockedHarmless x log) : t'.Honest db' (log ++ obs) := by
  have hpending := h.pending_own ht fun key hkey => hhonest.pending hkey
  cases h with
  | halt hresting =>
      cases t' with
      | idle => exact hpending
      | ended outcome => exact hpending
      | _ => cases hresting
  | start c => cases c <;> exact hpending
  | looked lookup key answer outcome hproceeds hkept => exact fun hfailed => absurd hfailed hkept
  | block revision key row block =>
      intro _
      rw [List.append_nil]
      exact hblock revision key row block rfl rfl
  | invoke revision key row => exact hhonest key rfl
  | answered key answer => exact harmless_of_answer
  | recordAttempt =>
      rw [List.append_nil]
      exact hhonest
  | recordBoth =>
      rw [List.append_nil]
      exact hhonest
  | _ => exact hpending

/-- How an attempt is written. -/
lemma Step.attempt_written (h : Step P t x db t' db' obs) (key : String) :
    db'.attempts key = db.attempts key ∨
    (∃ outcome attempt, t = .recordingBoth key outcome attempt ∧
      db'.attempts key = some (outcome.apply attempt)) ∨
    (∃ status, .resolved key status ∈ obs) ∨
    ∃ a, db'.attempts key = some a ∧ a.status.terminal = false := by
  cases h with
  | insert revision key' adapter =>
      by_cases heq : key = key'
      · exact .inr (.inr (.inr ⟨_, by rw [heq]; exact Function.update_self .., rfl⟩))
      · exact .inl (Function.update_of_ne heq ..)
  | mark key' attempt =>
      by_cases heq : key = key'
      · exact .inr (.inr (.inr ⟨_, by rw [heq]; exact Function.update_self .., rfl⟩))
      · exact .inl (Function.update_of_ne heq ..)
  | record key' outcome attempt =>
      by_cases heq : key = key'
      · refine .inr (.inl ⟨outcome, attempt, by rw [heq], ?_⟩)
        rw [heq]
        exact Function.update_self ..
      · exact .inl (Function.update_of_ne heq ..)
  | resolve c attempt =>
      by_cases heq : key = c.idempotencyKey
      · exact .inr (.inr (.inl ⟨c.resolution.status, by rw [heq]; exact List.mem_cons_self⟩))
      · exact .inl (Function.update_of_ne heq ..)
  | _ => exact .inl rfl

/-- An outcome is recorded as the first observation of its commit. -/
lemma Step.recorded (h : Step P t x db t' db' obs) {status : ActionAttemptStatus}
    {before after : List ActionEvent} (hobs : obs = before ++ .recorded key status :: after) :
    before = [] ∧ ∃ outcome attempt, t = .recordingBoth key outcome attempt ∧
      outcome.status = status := by
  have hmem : .recorded key status ∈ obs := by
    rw [hobs]
    exact List.mem_append_right _ List.mem_cons_self
  cases h with
  | record key' outcome attempt =>
      cases before with
      | nil =>
          obtain ⟨hhead, -⟩ := List.cons.inj hobs
          cases hhead
          exact ⟨rfl, outcome, attempt, rfl, rfl⟩
      | cons e before =>
          obtain ⟨-, htail⟩ := List.cons.inj hobs
          cases before with
          | nil => cases (List.cons.inj htail).1
          | cons e before => simp at htail
  | review c approval request write =>
      obtain ⟨status, -, hstatus⟩ := List.mem_map.mp hmem
      cases hstatus
  | persist p =>
      split_ifs at hmem
      · cases List.mem_singleton.mp hmem
      · cases hmem
  | _ => simp at hmem

/-- A step keeps the failures honest. -/
lemma Step.faithful (h : Step P t x db t' db' obs) (hhonest : t.Honest db log)
    (hfaithful : Faithful db log) : Faithful db' (log ++ obs) := by
  refine ⟨fun before after key hsplit => ?_, fun key a ha hfailed => ?_⟩
  · rcases List.append_eq_append_iff.mp hsplit with ⟨mid, rfl, hobs⟩ | ⟨mid, hlog, hmid⟩
    · obtain ⟨rfl, outcome, attempt, rfl, hstatus⟩ := h.recorded hobs
      rw [List.append_nil]
      exact hhonest hstatus
    · cases mid with
      | nil =>
          rw [List.append_nil] at hlog
          rw [List.nil_append] at hmid
          have hobs : obs = [] ++ .recorded key .failed :: after := hmid.symm
          obtain ⟨-, outcome, attempt, rfl, hstatus⟩ := h.recorded hobs
          rw [← hlog]
          exact hhonest hstatus
      | cons e mid =>
          obtain ⟨rfl, rfl⟩ := List.cons.inj hmid
          exact hfaithful.recorded before mid key hlog
  · -- the key of a call at the provider has no outcome
    have hsettled : ¬ db'.Pending key := by
      rintro ⟨b, hb, hopen⟩
      rw [Option.some.inj (hb.symm.trans ha), hfailed] at hopen
      cases hopen
    have hquiet : ∀ e ∈ obs, e.quiet key = true := by
      refine h.quiet ?_ ?_
      · rintro revision row rfl
        exact hsettled (h.pending (.inr rfl) (hhonest key rfl))
      · rintro rfl
        exact hsettled (h.pending (.inr rfl) hhonest)
    rcases h.attempt_written key with hsame | ⟨outcome, attempt, rfl, hwritten⟩ |
      ⟨status, hresolved⟩ | ⟨b, hb, hopen⟩
    · rw [hsame] at ha
      rcases hfaithful.stored key a ha hfailed with ⟨status, hresolved⟩ | hharmless
      · exact .inl ⟨status, List.mem_append_left _ hresolved⟩
      · exact .inr (hharmless.append hquiet)
    · obtain rfl := Option.some.inj (hwritten.symm.trans ha)
      exact .inr ((hhonest hfailed).append hquiet)
    · exact .inl ⟨status, List.mem_append_right _ hresolved⟩
    · exact absurd ⟨b, hb, hopen⟩ hsettled

/-! ### Sequences of calls -/

variable (P) in
/-- The rule for one call at a time. -/
lemma honestJoint : Joint (calls P) (fun t x _ log => t.BlockedHarmless x log)
    (fun _ _ _ _ => False) (fun db log => db.Consistent P ∧ Faithful db log)
    (fun t db log => t.Knows P db ∧ t.Honest db log) where
  own hnext hblock hcommon hcall :=
    have h := Step.of_next hnext
    ⟨⟨h.consistent hcommon.1 hcall.1, h.faithful hcall.2 hcommon.2⟩,
      h.knows hcall.1, h.honest hcall.1 hcall.2 hblock⟩
  other _ _ hfalse := hfalse.elim

/-- **Ambiguity is not downgraded.**  In every sequence of calls in which the gates block only
executions whose key is harmless: the executor records an attempt as failed only if the
provider was never invoked for its key or its last invocation raised a definitive failure; and
an attempt whose last invocation may have had an effect is not failed until an operator
resolves it. -/
theorem ambiguity_kept {process : ProcessStatus} {s : Pool 1 Database Stage ActionEvent}
    {ms : List (Fin 1 × CallInput)}
    (h : Runs (calls P) (fun s m => (s.calls m.1).BlockedHarmless m.2 s.log)
      (fresh 1 process) ms s) :
    (∀ before after key, s.log = before ++ .recorded key .failed :: after →
      Harmless key before) ∧
    ∀ key a, s.store.attempts key = some a → a.status = .failed →
      (∀ status, .resolved key status ∉ s.log) → Harmless key s.log := by
  have hstart : Joint.Holds (calls P) (fun db log => db.Consistent P ∧ Faithful db log)
      (fun t db log => t.Knows P db ∧ t.Honest db log) (fresh 1 process) := by
    refine fresh_holds P 1 process ⟨consistent_fresh P process, ?_, ?_⟩ ⟨trivial, ?_⟩
    · intro before after key hsplit
      simp at hsplit
    · intro key a ha
      cases ha
    · intro key hkey
      cases hkey
  obtain ⟨-, ⟨-, hfaithful⟩, -⟩ := (honestJoint P).runs (fun _ _ _ hG => hG)
    (fun _ i _ _ j hj => absurd (Subsingleton.elim j i) hj) h hstart
  refine ⟨hfaithful.recorded, fun key a ha hfailed hunresolved => ?_⟩
  rcases hfaithful.stored key a ha hfailed with ⟨status, hresolved⟩ | hharmless
  · exact absurd hresolved (hunresolved status)
  · exact hharmless

end

/-- A computed check of `Harmless`. -/
def harmless (key : String) (log : List ActionEvent) : Bool :=
  match latest key log with
  | none => true
  | some answer => answer.any ProviderAnswer.definitive

lemma harmless_iff {key : String} {log : List ActionEvent} :
    harmless key log = true ↔ Harmless key log := by
  rw [harmless, Harmless]
  cases latest key log with
  | none => simp
  | some answer => cases answer <;> simp

/-- A computed check of `Stage.BlockedHarmless`. -/
def Stage.blockedHarmless (log : List ActionEvent) : Stage → CallInput → Bool
  | .gating _ key _, .answer (.gate (some _)) => harmless key log
  | _, _ => true

/-- An execution of an idempotent adapter stops before the provider is invoked; the retry is
blocked, and recorded as failed. -/
theorem ambiguity_kept_blocked : ∃ (ms : List (Fin 1 × CallInput))
    (s : Pool 1 Database Stage ActionEvent) (a : AttemptRow),
    Runs (calls (samplePlatform true)) (fun s m => (s.calls m.1).BlockedHarmless m.2 s.log)
      (fresh 1 .active) ms s ∧
    s.store.attempts sampleKey = some a ∧ a.status = .failed ∧
    ((∀ status, .resolved sampleKey status ∉ s.log) → Harmless sampleKey s.log) := by
  let ms : List (Fin 1 × CallInput) := List.flatten
    [persisted 0 .allow, moves 0 (.execute 1) (allowed [.go]), [(0, .crash)],
      moves 0 (.execute 1) (allowed (.go :: .lookup .absent ::
        allowed [.gate (some (.breaker "open")), .go, .go, .go]))]
  obtain ⟨s, hruns, hp⟩ := exists_runs (C := calls (samplePlatform true))
    (s := fresh 1 .active)
    (fun s m => Stage.blockedHarmless s.log (s.calls m.1) m.2) ms
    (fun s => (s.store.attempts sampleKey).any fun a => a.status = .failed) (by decide +kernel)
  have hruns : Runs (calls (samplePlatform true))
      (fun s m => (s.calls m.1).BlockedHarmless m.2 s.log) (fresh 1 .active) ms s := by
    refine hruns.mono fun s m hm revision key row block hstage hinput => ?_
    rw [hstage, hinput] at hm
    exact harmless_iff.mp hm
  obtain ⟨a, ha, hfailed⟩ := (Option.any_eq_true _ _).mp hp
  have hfailed : a.status = .failed := of_decide_eq_true hfailed
  exact ⟨ms, s, a, hruns, ha, hfailed, (ambiguity_kept hruns).2 sampleKey a ha hfailed⟩

/-- The log holds a failure that was recorded for a key that was not harmless. -/
def downgrades (before : List ActionEvent) : List ActionEvent → Bool
  | [] => false
  | .recorded key .failed :: after =>
      !harmless key before || downgrades (before ++ [.recorded key .failed]) after
  | e :: after => downgrades (before ++ [e]) after

lemma exists_of_downgrades {before log : List ActionEvent} (h : downgrades before log = true) :
    ∃ before' after key, before ++ log = before' ++ .recorded key .failed :: after ∧
      ¬ Harmless key before' := by
  induction log generalizing before with
  | nil => cases h
  | cons e log ih =>
      have hrest (h : downgrades (before ++ [e]) log = true) :
          ∃ before' after key, before ++ e :: log = before' ++ .recorded key .failed :: after ∧
            ¬ Harmless key before' := by
        rw [List.append_cons]
        exact ih h
      unfold downgrades at h
      split at h
      · cases h
      · rename_i key after heq
        obtain ⟨rfl, rfl⟩ := List.cons.inj heq
        rcases Bool.or_eq_true_iff.mp h with hnot | hlater
        · refine ⟨before, _, key, rfl, fun hharmless => ?_⟩
          rw [harmless_iff.mpr hharmless] at hnot
          cases hnot
        · exact hrest hlater
      · rename_i heq
        obtain ⟨rfl, rfl⟩ := List.cons.inj heq
        exact hrest h

/-- An execution of an idempotent adapter ends ambiguous; a circuit breaker opens, and the
retry records the attempt as failed. -/
theorem ambiguity_downgraded : ∃ (ms : List (Fin 1 × CallInput))
    (s : Pool 1 Database Stage ActionEvent) (a : AttemptRow),
    Runs (calls (samplePlatform true)) (fun _ _ => True) (fresh 1 .active) ms s ∧
    s.store.attempts sampleKey = some a ∧ a.status = .failed ∧
    latest sampleKey s.log = some (some (.ambiguous "timeout")) ∧
    ∃ before after key, s.log = before ++ .recorded key .failed :: after ∧
      ¬ Harmless key before := by
  let ms : List (Fin 1 × CallInput) := List.flatten
    [persisted 0 .allow,
      moves 0 (.execute 1) (allowed (.go :: allowed
        [.gate none, .provider (.ambiguous "timeout"), .go, .go, .go])),
      moves 0 (.execute 1) (allowed (.go :: .lookup .absent ::
        allowed [.gate (some (.breaker "open")), .go, .go, .go]))]
  obtain ⟨s, hruns, hp⟩ := exists_runs (C := calls (samplePlatform true))
    (s := fresh 1 .active) (fun _ _ => true) ms
    (fun s => decide (latest sampleKey s.log = some (some (.ambiguous "timeout"))) &&
      ((s.store.attempts sampleKey).any (fun a => a.status = .failed) && downgrades [] s.log))
    (by decide +kernel)
  rw [Bool.and_eq_true, Bool.and_eq_true] at hp
  obtain ⟨hlatest, hstored, hdowngrades⟩ := hp
  obtain ⟨a, ha, hfailed⟩ := (Option.any_eq_true _ _).mp hstored
  exact ⟨ms, s, a, hruns.mono fun _ _ _ => trivial, ha, of_decide_eq_true hfailed,
    of_decide_eq_true hlatest, exists_of_downgrades hdowngrades⟩

end TiramisuAgents
