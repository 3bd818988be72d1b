import TiramisuAgents.Actions.AtMostOnce

/-!
Recorded outcomes: an attempt that has succeeded, failed or met a conflict stays as it is, and
from its commit on the request has the same status.

`execute` and `reconcile` read the attempt without its lock, but under the lock of the request,
which every commit of an outcome holds; `_record_terminal` and `resolve_unknown` read it under
its own lock.  So no call writes over an outcome that it has not seen.  A review writes the
status of the request as well; it takes no part in the coherence.

* `Step.terminal_kept`, `Step.coherent`: one step.
* `outcome_immutable`: every run.
-/

namespace TiramisuAgents

open Transactions

section

variable {P : Platform} {t t' : Stage} {x : CallInput} {db db' : Database} {obs : List ActionEvent}
  {key : String} {a : AttemptRow}

/-- No commit changes an outcome. -/
lemma Step.terminal_kept (h : Step P t x db t' db' obs) (ht : t.Knows P db)
    (ha : db.attempts key = some a) (hterminal : a.status.terminal = true) :
    db'.attempts key = some a := by
  -- the writer of the key has seen another attempt than the recorded one
  have other {key' : String} {row : AttemptRow} (hne : key ≠ key') :
      Function.update db.attempts key' (some row) key = some a := by
    rw [Function.update_of_ne hne, ha]
  have seen {key' : String} {row : AttemptRow} (hrow : db.attempts key' = some row)
      (hpending : row.status.terminal = false) : key ≠ key' := by
    rintro rfl
    rw [← Option.some.inj (ha.symm.trans hrow), hterminal] at hpending
    cases hpending
  cases h with
  | insert revision key' adapter =>
      refine other ?_
      rintro rfl
      exact Option.some_ne_none a (ha.symm.trans ht.2.2)
  | mark key' attempt => exact other (seen ht.1 ht.2)
  | record key' outcome attempt hpending => exact other (seen ht hpending)
  | resolve c attempt hopen =>
      refine other (seen ht ?_)
      rcases hopen with hopen | hopen <;> rw [hopen] <;> rfl
  | _ => exact ha

/-- An outcome is the status of the request. -/
def Coherent (db : Database) : Prop :=
  ∀ key a, db.attempts key = some a → a.status.terminal = true →
    ∃ row, db.request = some row ∧ row.status = a.status.toRequest

/-- The attempts that are there have the key of an attempt that is there. -/
lemma Database.Consistent.attempt_key (hdb : db.Consistent P) {key' : String}
    (hkey : db.attempts key ≠ none) (hkey' : db.Keyed P key') : key = key' :=
  (hdb.keyed key hkey).unique hkey'

/-- A database whose one attempt is pending is coherent. -/
lemma coherent_of_pending (hdb : db.Consistent P) (hkeyed : db.Keyed P key)
    (hpending : ∀ a, db.attempts key = some a → a.status.terminal = false) : Coherent db := by
  intro key' a ha hterminal
  have hkey : key' = key := hdb.attempt_key (by simp [ha]) hkeyed
  rw [hkey] at ha
  rw [hpending a ha] at hterminal
  cases hterminal

/-- A database whose one attempt has the status of the request is coherent. -/
lemma coherent_of_status (hdb : db.Consistent P) (hkeyed : db.Keyed P key) {a : AttemptRow}
    (ha : db.attempts key = some a) {row : RequestRow} (hrow : db.request = some row)
    (hstatus : row.status = a.status.toRequest) : Coherent db := by
  intro key' a' ha' _
  have hkey : key' = key := hdb.attempt_key (by simp [ha']) hkeyed
  rw [hkey, ha] at ha'
  rw [← Option.some.inj ha']
  exact ⟨row, hrow, hstatus⟩

/-- An attempt has a request. -/
lemma Database.Consistent.request_of_attempt (hdb : db.Consistent P) {attempt : AttemptRow}
    (hkey : db.attempts key = some attempt) : ∃ row, db.request = some row := by
  cases hrequest : db.request with
  | none => exact absurd (hkey.symm.trans ((hdb.absent hrequest).2.2.2 key)) (by simp)
  | some row => exact ⟨row, rfl⟩

/-- The call is about to commit a review. -/
def Stage.commitsReview : Stage → Bool
  | .reviewing _ (.flushing _ _ _) => true
  | _ => false

/-- A commit that is no review keeps the request and its attempt coherent. -/
lemma Step.coherent (h : Step P t x db t' db' obs) (hdb : db.Consistent P) (ht : t.Knows P db)
    (hreview : t.commitsReview = false) (hcoherent : Coherent db) : Coherent db' := by
  have hdb' := h.consistent hdb ht
  have hgrows := h.grows
  have keyed {key : String} {row : AttemptRow} (h : db.attempts key = some row) :
      db'.Keyed P key := hgrows.keyed (hdb.keyed key (by simp [h]))
  cases h with
  | insert revision key adapter =>
      refine coherent_of_pending hdb' (hgrows.keyed ht.1) fun a ha => ?_
      rw [Database.setAttempt_attempts, Function.update_self] at ha
      rw [← Option.some.inj ha]
      rfl
  | reclaim revision key adapter attempt hpending =>
      refine coherent_of_pending hdb' (keyed ht.2.2) fun a ha => ?_
      rw [← Option.some.inj (ht.2.2.symm.trans ha)]
      exact hpending
  | remark key attempt =>
      refine coherent_of_pending hdb' (keyed ht.1) fun a ha => ?_
      rw [← Option.some.inj (ht.1.symm.trans ha)]
      exact ht.2
  | mark key attempt =>
      refine coherent_of_pending hdb' (keyed ht.1) fun a ha => ?_
      rw [Database.setAttempt_attempts, Function.update_self] at ha
      rw [← Option.some.inj ha]
      rfl
  | record key outcome attempt =>
      obtain ⟨row, hrow⟩ := hdb.request_of_attempt ht
      exact coherent_of_status hdb' (keyed ht) (Function.update_self ..)
        (by simp [hrow]; rfl) rfl
  | resolve c attempt =>
      obtain ⟨row, hrow⟩ := hdb.request_of_attempt ht
      exact coherent_of_status hdb' (keyed ht) (Function.update_self ..)
        (by simp [hrow]; rfl) rfl
  | review => cases hreview
  | persist p =>
      intro key a ha hterminal
      obtain ⟨row, hrow, hstatus⟩ := hcoherent key a ha hterminal
      exact ⟨row, by simp [Database.persist, hrow], hstatus⟩
  | setStatus => exact hcoherent
  | _ => exact hcoherent

/-! ### Runs -/

variable {n : ℕ} {process : ProcessStatus} {s s' : Pool n Database Stage ActionEvent}
  {ms ms' : List (Fin n × CallInput)}

/-- A run that goes on from a sound state keeps an outcome. -/
lemma terminal_runs (hs : Joint.Holds (calls P) (fun db _ => db.Consistent P)
      (fun t db _ => t.Knows P db) s)
    (h : Runs (calls P) (fun _ _ => True) s ms s') (ha : s.store.attempts key = some a)
    (hterminal : a.status.terminal = true) : s'.store.attempts key = some a := by
  let I (s : Pool n Database Stage ActionEvent) : Prop :=
    Joint.Holds (calls P) (fun db _ => db.Consistent P) (fun t db _ => t.Knows P db) s ∧
      s.store.attempts key = some a
  have hI : I s' := by
    refine h.invariant ?_ ⟨hs, ha⟩
    rintro s ⟨i, x⟩ s' ⟨hholds, hattempt⟩ - hstep
    refine ⟨(sound P).step hholds trivial (fun _ _ => trivial) hstep, ?_⟩
    obtain ⟨t, db, obs, hmoved, rfl⟩ := step_cases hstep
    exact hmoved.terminal_kept (hholds.calls i) hattempt hterminal
  exact hI.2

/-- A run without a commit of a review keeps the request coherent. -/
lemma coherent_runs (hs : Joint.Holds (calls P) (fun db _ => db.Consistent P)
      (fun t db _ => t.Knows P db) s)
    (h : Runs (calls P) (fun s m => (s.calls m.1).commitsReview = false) s ms s')
    (hcoherent : Coherent s.store) : Coherent s'.store := by
  let I (s : Pool n Database Stage ActionEvent) : Prop :=
    Joint.Holds (calls P) (fun db _ => db.Consistent P) (fun t db _ => t.Knows P db) s ∧
      Coherent s.store
  have hI : I s' := by
    refine h.invariant ?_ ⟨hs, hcoherent⟩
    rintro s ⟨i, x⟩ s' ⟨hholds, hcoh⟩ hreview hstep
    refine ⟨(sound P).step hholds trivial (fun _ _ => trivial) hstep, ?_⟩
    obtain ⟨t, db, obs, hmoved, rfl⟩ := step_cases hstep
    exact hmoved.coherent hholds.common (hholds.calls i) hreview hcoh
  exact hI.2

/-- An outcome is committed over an attempt that is there. -/
lemma Step.attempt_of_terminal (h : Step P t x db t' db' obs) (ht : t.Knows P db)
    (ha : db'.attempts key = some a) (hterminal : a.status.terminal = true) :
    db.attempts key ≠ none := by
  -- an attempt of another key than the written one is the old one
  have seen {key' : String} {row row' : AttemptRow} (hrow : db.attempts key' = some row)
      (h : Function.update db.attempts key' (some row') key = some a) :
      db.attempts key ≠ none := by
    by_cases heq : key = key'
    · rw [heq, hrow]
      exact Option.some_ne_none row
    · rw [Function.update_of_ne heq] at h
      rw [h]
      exact Option.some_ne_none a
  have kept (h : db.attempts key = some a) : db.attempts key ≠ none := by
    rw [h]
    exact Option.some_ne_none a
  cases h with
  | insert revision key' adapter =>
      by_cases heq : key = key'
      · rw [heq, Database.setAttempt_attempts, Function.update_self] at ha
        rw [← Option.some.inj ha] at hterminal
        cases hterminal
      · rw [Database.setAttempt_attempts, Function.update_of_ne heq] at ha
        exact kept ha
  | mark => exact seen ht.1 ha
  | record => exact seen ht ha
  | resolve => exact seen ht ha
  | _ => exact kept ha

/-- The commit of an outcome leaves the request coherent. -/
lemma Step.coherent_of_commit (h : Step P t x db t' db' obs) (hdb : db.Consistent P)
    (ht : t.Knows P db) (hpending : ∀ a, db.attempts key = some a → a.status.terminal = false)
    (ha : db'.attempts key = some a) (hterminal : a.status.terminal = true) : Coherent db' := by
  have hcoherent : Coherent db :=
    coherent_of_pending hdb (hdb.keyed key (h.attempt_of_terminal ht ha hterminal)) hpending
  by_cases hreview : t.commitsReview = true
  · -- a review leaves the attempts as they are
    have hsame : db'.attempts = db.attempts := by
      cases h <;> first | rfl | cases hreview
    rw [hsame] at ha
    rw [hpending a ha] at hterminal
    cases hterminal
  · exact h.coherent hdb ht (by simpa using hreview) hcoherent

/-- **Outcomes are immutable and coherent.**  Once an attempt has succeeded, failed or met a
conflict, no call changes it in any interleaving; and from the commit of the outcome on, as
long as no review is committed, the request has the status of its attempt. -/
theorem outcome_immutable (h : Runs (calls P) (fun _ _ => True) (fresh n process) ms s)
    (key : String) :
    (∀ a, s.store.attempts key = some a → a.status.terminal = true →
      ∀ ms' s', Runs (calls P) (fun _ _ => True) s ms' s' → s'.store.attempts key = some a) ∧
    ∀ m s₁ a, (∀ a, s.store.attempts key = some a → a.status.terminal = false) →
      s.step (calls P) m = some s₁ → s₁.store.attempts key = some a → a.status.terminal = true →
      ∀ ms' s', Runs (calls P) (fun s m => (s.calls m.1).commitsReview = false) s₁ ms' s' →
        ∃ row, s'.store.request = some row ∧ row.status = a.status.toRequest := by
  have hsound := sound_runs h
  refine ⟨fun a ha hterminal ms' s' h' => terminal_runs hsound h' ha hterminal, ?_⟩
  rintro ⟨i, x⟩ s₁ a hpending hstep ha hterminal ms' s' h'
  have hsound₁ := (sound P).step hsound trivial (fun _ _ => trivial) hstep
  have hcoherent : Coherent s₁.store := by
    obtain ⟨t, db, obs, hmoved, rfl⟩ := step_cases hstep
    exact hmoved.coherent_of_commit hsound.common (hsound.calls i) hpending ha hterminal
  have hkept := terminal_runs hsound₁ (h'.mono fun _ _ _ => trivial) ha hterminal
  exact coherent_runs hsound₁ h' hcoherent key a hkept hterminal

end

/-- An execution that succeeds is about to commit, next to a reconciliation: the commit is
terminal, the attempt stays and the request has its status. -/
theorem outcome_immutable_success : ∃ (ms : List (Fin 2 × CallInput))
    (s s₁ : Pool 2 Database Stage ActionEvent) (a : AttemptRow),
    Runs (calls (samplePlatform false)) (fun _ _ => True) (fresh 2 .active) ms s ∧
    s.step (calls (samplePlatform false)) (0, .answer .go) = some s₁ ∧
    s₁.store.attempts sampleKey = some a ∧ a.status = .succeeded ∧
    (∀ ms' s', Runs (calls (samplePlatform false)) (fun _ _ => True) s₁ ms' s' →
      s'.store.attempts sampleKey = some a) ∧
    ∀ ms' s', Runs (calls (samplePlatform false))
        (fun s m => (s.calls m.1).commitsReview = false) s₁ ms' s' →
      ∃ row, s'.store.request = some row ∧ row.status = .succeeded := by
  let ms : List (Fin 2 × CallInput) := List.flatten
    [persisted 0 .allow,
      moves 0 (.execute 1) (allowed (.go :: allowed
        [.gate none, .provider (.success ⟨"ref", "done", []⟩), .go, .go])),
      moves 1 (.reconcile 1) [.tenant .active]]
  obtain ⟨s, hruns, hp⟩ := exists_runs (C := calls (samplePlatform false))
    (s := fresh 2 .active) (fun _ _ => true) ms
    (fun s => (s.store.attempts sampleKey).all (fun a => !a.status.terminal) &&
      (s.step (calls (samplePlatform false)) (0, .answer .go)).any fun s₁ =>
        (s₁.store.attempts sampleKey).any fun a => a.status = .succeeded)
    (by decide +kernel)
  have hruns : Runs (calls (samplePlatform false)) (fun _ _ => True) (fresh 2 .active) ms s :=
    hruns.mono fun _ _ _ => trivial
  rw [Bool.and_eq_true, Option.any_eq_true] at hp
  obtain ⟨hpending, s₁, hstep, hp⟩ := hp
  obtain ⟨a, ha, hstatus⟩ := (Option.any_eq_true _ _).mp hp
  have hstatus : a.status = .succeeded := of_decide_eq_true hstatus
  have hterminal : a.status.terminal = true := by rw [hstatus]; rfl
  have hruns₁ : Runs (calls (samplePlatform false)) (fun _ _ => True) (fresh 2 .active)
      (ms ++ [(0, .answer .go)]) s₁ := hruns.trans (.cons trivial hstep (.nil s₁))
  refine ⟨ms, s, s₁, a, hruns, hstep, ha, hstatus,
    (outcome_immutable hruns₁ sampleKey).1 a ha hterminal, fun ms' s' h' => ?_⟩
  have hpending : ∀ a, s.store.attempts sampleKey = some a → a.status.terminal = false := by
    intro a ha
    rw [ha] at hpending
    simpa using hpending
  obtain ⟨row, hrow, hsame⟩ :=
    (outcome_immutable hruns sampleKey).2 _ s₁ a hpending hstep ha hterminal ms' s' h'
  exact ⟨row, hrow, by rw [hsame, hstatus]; rfl⟩

end TiramisuAgents
