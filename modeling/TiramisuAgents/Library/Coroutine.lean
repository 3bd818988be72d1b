import Mathlib.Data.List.Basic
import Mathlib.Tactic

/-!
Coroutines that run against a scripted environment.

A coroutine owns a state and suspends at await points.  What happens while it is
suspended is the environment's choice, and the environment is a script: a list of
inputs, read one at a time.  An input is first absorbed into the state (a message
handler runs, the clock moves) and may then wake the coroutine.  A run that exhausts
its script stays suspended (`Res.blocked`), so the states in which some script
leaves a coroutine blocked are exactly the states another party can observe, and a
statement about every script is a statement about every interleaving.

* `Co`: the monad.  Every coroutine only appends to the log of its world, and the
  structure carries the proof (`keepsLog`).
* `Post`, `wp`: postconditions for the three ways a run ends, under an assumption
  `Φ` on the final log; `wp_bind`, `wp_suspend`, `wp_repeatUntil` are the rules for
  sequencing, awaiting and looping.
* `Relates`: a relation between two worlds that a coroutine keeps, with the same
  rules; the unary form is `Preserves`.
-/

namespace Coroutine

/-- The state a coroutine works on, with the log of what has been observed so far. -/
structure World (σ ο : Type) where
  self : σ
  log : List ο

/-- How a run ends: with a value, with an exception, or suspended at an await point
because the script is exhausted.  The first two leave the rest of the script. -/
inductive Res (σ ι ο lb ε α : Type) where
  | done (a : α) (w : World σ ο) (rest : List ι)
  | raised (e : ε) (w : World σ ο) (rest : List ι)
  | blocked (l : lb) (w : World σ ο)

/-- The world a run ends in. -/
def Res.world {σ ι ο lb ε α : Type} : Res σ ι ο lb ε α → World σ ο
  | .done _ w _ => w
  | .raised _ w _ => w
  | .blocked _ w => w

/-- A coroutine over the state `σ`, driven by inputs `ι`, observed as `ο`, suspending
at labels `lb` and raising `ε`. -/
structure Co (σ ι ο lb ε α : Type) where
  run : List ι → World σ ο → Res σ ι ο lb ε α
  keepsLog : ∀ is w, w.log <+: (run is w).world.log

/-- How the environment acts on a suspended coroutine: an input changes the state and
is observed. -/
structure Handler (σ ι ο : Type) where
  absorb : ι → σ → σ
  observe : ι → List ο

/-- The world after an input has been absorbed. -/
def Handler.step {σ ι ο : Type} (h : Handler σ ι ο) (i : ι) (w : World σ ο) : World σ ο :=
  ⟨h.absorb i w.self, w.log ++ h.observe i⟩

/-- The world after the inputs of a script have been absorbed. -/
def Handler.steps {σ ι ο : Type} (h : Handler σ ι ο) (is : List ι) (w : World σ ο) : World σ ο :=
  is.foldl (fun w i => h.step i w) w

namespace Co

variable {σ ι ο lb ε α β γ : Type}

/-! ### The operations -/

/-- Sequencing: exceptions and suspension end the whole sequence. -/
def bind (m : Co σ ι ο lb ε α) (f : α → Co σ ι ο lb ε β) : Co σ ι ο lb ε β where
  run is w :=
    match m.run is w with
    | .done a w' is' => (f a).run is' w'
    | .raised e w' is' => .raised e w' is'
    | .blocked l w' => .blocked l w'
  keepsLog is w := by
    have h := m.keepsLog is w
    revert h
    cases m.run is w with
    | done a w' is' => exact fun h => h.trans ((f a).keepsLog is' w')
    | raised e w' is' => exact id
    | blocked l w' => exact id

instance : Monad (Co σ ι ο lb ε) where
  pure a := ⟨fun is w => .done a w is, fun _ w => List.prefix_refl w.log⟩
  bind := bind

/-- Read a part of the state. -/
def gets (f : σ → α) : Co σ ι ο lb ε α :=
  ⟨fun is w => .done (f w.self) w is, fun _ w => List.prefix_refl w.log⟩

/-- Update the state. -/
def modify (f : σ → σ) : Co σ ι ο lb ε Unit :=
  ⟨fun is w => .done () ⟨f w.self, w.log⟩ is, fun _ w => List.prefix_refl w.log⟩

/-- Append an observation to the log. -/
def emit (o : ο) : Co σ ι ο lb ε Unit :=
  ⟨fun is w => .done () ⟨w.self, w.log ++ [o]⟩ is, fun _ w => List.prefix_append w.log [o]⟩

/-- Raise an exception. -/
def raise (e : ε) : Co σ ι ο lb ε α :=
  ⟨fun is w => .raised e w is, fun _ w => List.prefix_refl w.log⟩

/-- Stay suspended whatever the script still holds. -/
def halt (l : lb) : Co σ ι ο lb ε α :=
  ⟨fun _ w => .blocked l w, fun _ w => List.prefix_refl w.log⟩

/-- Run a coroutine and handle its exception. -/
def tryCatch (m : Co σ ι ο lb ε α) (handler : ε → Co σ ι ο lb ε α) : Co σ ι ο lb ε α where
  run is w :=
    match m.run is w with
    | .done a w' is' => .done a w' is'
    | .raised e w' is' => (handler e).run is' w'
    | .blocked l w' => .blocked l w'
  keepsLog is w := by
    have h := m.keepsLog is w
    revert h
    cases m.run is w with
    | done a w' is' => exact id
    | raised e w' is' => exact fun h => h.trans ((handler e).keepsLog is' w')
    | blocked l w' => exact id

/-- A `finally` clause that updates the state: it runs on a return and on an exception,
not while the coroutine is suspended. -/
def onExit (f : σ → σ) (m : Co σ ι ο lb ε α) : Co σ ι ο lb ε α where
  run is w :=
    match m.run is w with
    | .done a w' is' => .done a ⟨f w'.self, w'.log⟩ is'
    | .raised e w' is' => .raised e ⟨f w'.self, w'.log⟩ is'
    | .blocked l w' => .blocked l w'
  keepsLog is w := by
    have h := m.keepsLog is w
    revert h
    cases m.run is w <;> exact id

lemma run_bind (m : Co σ ι ο lb ε α) (f : α → Co σ ι ο lb ε β) (is : List ι) (w : World σ ο) :
    (m >>= f).run is w =
      match m.run is w with
      | .done a w' is' => (f a).run is' w'
      | .raised e w' is' => .raised e w' is'
      | .blocked l w' => .blocked l w' := rfl

lemma run_tryCatch (m : Co σ ι ο lb ε α) (handler : ε → Co σ ι ο lb ε α) (is : List ι)
    (w : World σ ο) :
    (m.tryCatch handler).run is w =
      match m.run is w with
      | .done a w' is' => .done a w' is'
      | .raised e w' is' => (handler e).run is' w'
      | .blocked l w' => .blocked l w' := rfl

lemma run_onExit (f : σ → σ) (m : Co σ ι ο lb ε α) (is : List ι) (w : World σ ο) :
    (m.onExit f).run is w =
      match m.run is w with
      | .done a w' is' => .done a ⟨f w'.self, w'.log⟩ is'
      | .raised e w' is' => .raised e ⟨f w'.self, w'.log⟩ is'
      | .blocked l w' => .blocked l w' := rfl

/-- The suspended coroutine reads the script: each input is absorbed and then asked
whether it wakes the coroutine, with a value and what is observed of the waking. -/
def suspendRun (h : Handler σ ι ο) (l : lb) (wake : σ → ι → Option (α × List ο)) :
    List ι → World σ ο → Res σ ι ο lb ε α
  | [], w => .blocked l w
  | i :: is, w =>
      match wake (h.absorb i w.self) i with
      | some (a, obs) => .done a ⟨h.absorb i w.self, w.log ++ h.observe i ++ obs⟩ is
      | none => suspendRun h l wake is (h.step i w)

lemma suspendRun_keepsLog (h : Handler σ ι ο) (l : lb) (wake : σ → ι → Option (α × List ο)) :
    ∀ (is : List ι) (w : World σ ο),
      w.log <+: (suspendRun h l wake is w : Res σ ι ο lb ε α).world.log
  | [], w => List.prefix_refl w.log
  | i :: is, w => by
      rw [suspendRun]
      split
      · rw [List.append_assoc]
        exact List.prefix_append _ _
      · exact (List.prefix_append _ _).trans (suspendRun_keepsLog h l wake is (h.step i w))

/-- A coroutine is found suspended exactly if it has absorbed the whole script and none of its
inputs has woken it. -/
lemma suspendRun_eq_blocked_iff {h : Handler σ ι ο} {l l' : lb}
    {wake : σ → ι → Option (α × List ο)} {is : List ι} {w w' : World σ ο} :
    (suspendRun h l wake is w : Res σ ι ο lb ε α) = .blocked l' w' ↔
      l = l' ∧ w' = h.steps is w ∧ ∀ before i after, is = before ++ i :: after →
        wake (h.steps (before ++ [i]) w).self i = none := by
  induction is generalizing w with
  | nil =>
      rw [suspendRun, Res.blocked.injEq]
      constructor
      · rintro ⟨rfl, rfl⟩
        exact ⟨rfl, rfl, fun before i after hnil => by simp at hnil⟩
      · rintro ⟨rfl, rfl, -⟩
        exact ⟨rfl, rfl⟩
  | cons i is ih =>
      rw [suspendRun]
      cases hwake : wake (h.absorb i w.self) i with
      | some woken =>
          constructor
          · intro hblocked
            cases hblocked
          rintro ⟨-, -, hasleep⟩
          have hnone : wake (h.absorb i w.self) i = none := hasleep [] i is rfl
          rw [hwake] at hnone
          cases hnone
      | none =>
          dsimp only
          rw [ih]
          refine and_congr_right fun _ => and_congr_right fun _ => ?_
          constructor
          · intro hasleep before j after hsplit
            cases before with
            | nil =>
                obtain ⟨rfl, rfl⟩ := List.cons.inj hsplit
                exact hwake
            | cons first before =>
                obtain ⟨rfl, rfl⟩ := List.cons.inj hsplit
                exact hasleep before j after rfl
          · intro hasleep before j after hsplit
            exact hasleep (i :: before) j after (congrArg (i :: ·) hsplit)

/-- Suspend at `l` until an input wakes the coroutine. -/
def suspend (h : Handler σ ι ο) (l : lb) (wake : σ → ι → Option (α × List ο)) :
    Co σ ι ο lb ε α :=
  ⟨suspendRun h l wake, suspendRun_keepsLog h l wake⟩

/-- `n` rounds of a loop body, suspended at `l` if none of them ends the loop. -/
def repeatFor (l : lb) (body : Co σ ι ο lb ε (Option α)) : ℕ → Co σ ι ο lb ε α
  | 0 => halt l
  | n + 1 => bind body fun
      | some a => ⟨fun is w => .done a w is, fun _ w => List.prefix_refl w.log⟩
      | none => repeatFor l body n

/-- `while True` with a body that awaits before it goes round: every round reads at
least one input, so one round more than the script is long is never reached. -/
def repeatUntil (l : lb) (body : Co σ ι ο lb ε (Option α)) : Co σ ι ο lb ε α :=
  ⟨fun is w => (repeatFor l body (is.length + 1)).run is w,
    fun is w => (repeatFor l body (is.length + 1)).keepsLog is w⟩

end Co

/-! ### Postconditions -/

section Wp

variable {σ ι ο lb ε α β : Type}

/-- What is required of the three ways a run ends. -/
structure Post (σ ο lb ε α : Type) where
  done : α → World σ ο → Prop
  raised : ε → World σ ο → Prop
  blocked : lb → World σ ο → Prop

/-- A result meets a postcondition, as far as its log satisfies `Φ`. -/
def Post.Holds (Φ : List ο → Prop) (Q : Post σ ο lb ε α) : Res σ ι ο lb ε α → Prop
  | .done a w _ => Φ w.log → Q.done a w
  | .raised e w _ => Φ w.log → Q.raised e w
  | .blocked l w => Φ w.log → Q.blocked l w

/-- From the world `w`, every script drives `m` to a result that meets `Q` as far as
its log satisfies `Φ`. -/
def wp (Φ : List ο → Prop) (m : Co σ ι ο lb ε α) (Q : Post σ ο lb ε α) (w : World σ ο) :
    Prop :=
  ∀ is, Q.Holds Φ (m.run is w)

/-- An assumption on logs that no later observation can repair. -/
def PrefixClosed (Φ : List ο → Prop) : Prop :=
  ∀ ⦃l l' : List ο⦄, l <+: l' → Φ l' → Φ l

/-- An assumption made of each observation, given the log before it. -/
def Along (P : List ο → ο → Prop) (log : List ο) : Prop :=
  ∀ ⦃before : List ο⦄ ⦃o : ο⦄ ⦃after : List ο⦄, log = before ++ o :: after → P before o

lemma Along.prefixClosed (P : List ο → ο → Prop) : PrefixClosed (Along P) := by
  rintro l l' ⟨rest, rfl⟩ h before o after rfl
  exact h (List.append_assoc _ _ _)

/-- The assumption at the latest observation. -/
lemma Along.last {P : List ο → ο → Prop} {log : List ο} {o : ο} (h : Along P (log ++ [o])) :
    P log o :=
  h rfl

/-- The assumption, one observation at a time. -/
lemma along_concat {P : List ο → ο → Prop} {log : List ο} {o : ο} :
    Along P (log ++ [o]) ↔ Along P log ∧ P log o := by
  constructor
  · exact fun h => ⟨Along.prefixClosed P (List.prefix_append log [o]) h, h.last⟩
  · rintro ⟨h, ho⟩ before o' after hlog
    rcases List.eq_nil_or_concat after with rfl | ⟨after, last, rfl⟩
    · obtain ⟨rfl, hlast⟩ := List.append_inj' hlog rfl
      obtain rfl := List.singleton_inj.mp hlast
      exact ho
    · rw [List.concat_eq_append, ← List.cons_append, ← List.append_assoc] at hlog
      exact h (List.append_inj' hlog rfl).1

lemma along_nil {P : List ο → ο → Prop} : Along P [] := by
  intro before o after h
  simp at h

/-- The assumption along a log that is written out. -/
lemma along_cons {P : List ο → ο → Prop} {o : ο} {log : List ο} :
    Along P (o :: log) ↔ P [] o ∧ Along (fun before => P (o :: before)) log := by
  constructor
  · exact fun h => ⟨@h [] _ _ rfl, fun before o' after hlog => h (by rw [hlog]; rfl)⟩
  · rintro ⟨ho, h⟩ before o' after hlog
    cases before with
    | nil =>
        obtain ⟨rfl, -⟩ := List.cons.inj hlog
        exact ho
    | cons o'' before =>
        obtain ⟨rfl, rfl⟩ := List.cons.inj hlog
        exact h rfl

lemma Post.Holds.of_not {Φ : List ο → Prop} (hΦ : PrefixClosed Φ) {Q : Post σ ο lb ε α}
    {w : World σ ο} (hw : ¬ Φ w.log) {r : Res σ ι ο lb ε α} (hr : w.log <+: r.world.log) :
    Q.Holds Φ r := by
  cases r <;> exact fun h => absurd (hΦ hr h) hw

lemma Post.Holds.mono {Φ : List ο → Prop} {Q Q' : Post σ ο lb ε α} {r : Res σ ι ο lb ε α}
    {l₀ : List ο} (hr : l₀ <+: r.world.log) (h : Q.Holds Φ r)
    (hd : ∀ a w', l₀ <+: w'.log → Φ w'.log → Q.done a w' → Q'.done a w')
    (he : ∀ e w', l₀ <+: w'.log → Φ w'.log → Q.raised e w' → Q'.raised e w')
    (hb : ∀ l w', l₀ <+: w'.log → Φ w'.log → Q.blocked l w' → Q'.blocked l w') :
    Q'.Holds Φ r := by
  cases r with
  | done a w' is => exact fun hφ => hd a w' hr hφ (h hφ)
  | raised e w' is => exact fun hφ => he e w' hr hφ (h hφ)
  | blocked l w' => exact fun hφ => hb l w' hr hφ (h hφ)

variable {Φ : List ο → Prop} {Q Q' : Post σ ο lb ε α} {w : World σ ο}

/-- A run may assume `Φ` of the log it starts from. -/
lemma wp_assume (hΦ : PrefixClosed Φ) {m : Co σ ι ο lb ε α} (h : Φ w.log → wp Φ m Q w) :
    wp Φ m Q w := by
  by_cases hw : Φ w.log
  · exact h hw
  · exact fun is => .of_not hΦ hw (m.keepsLog is w)

lemma wp_mono {m : Co σ ι ο lb ε α} (h : wp Φ m Q w)
    (hd : ∀ a w', w.log <+: w'.log → Φ w'.log → Q.done a w' → Q'.done a w')
    (he : ∀ e w', w.log <+: w'.log → Φ w'.log → Q.raised e w' → Q'.raised e w')
    (hb : ∀ l w', w.log <+: w'.log → Φ w'.log → Q.blocked l w' → Q'.blocked l w') :
    wp Φ m Q' w :=
  fun is => (h is).mono (m.keepsLog is w) hd he hb

lemma wp_and {m : Co σ ι ο lb ε α} (h : wp Φ m Q w) (h' : wp Φ m Q' w) :
    wp Φ m ⟨fun a w => Q.done a w ∧ Q'.done a w, fun e w => Q.raised e w ∧ Q'.raised e w,
      fun l w => Q.blocked l w ∧ Q'.blocked l w⟩ w := by
  intro is
  have hr := h is
  have hr' := h' is
  revert hr hr'
  cases m.run is w <;> exact fun h h' hφ => ⟨h hφ, h' hφ⟩

lemma wp_pure {a : α} (h : Φ w.log → Q.done a w) :
    wp Φ (pure a : Co σ ι ο lb ε α) Q w := fun _ => h

lemma wp_raise {e : ε} (h : Φ w.log → Q.raised e w) :
    wp Φ (Co.raise e : Co σ ι ο lb ε α) Q w := fun _ => h

lemma wp_halt {l : lb} (h : Φ w.log → Q.blocked l w) :
    wp Φ (Co.halt l : Co σ ι ο lb ε α) Q w := fun _ => h

/-- The rule for sequencing: the first part establishes the weakest precondition of the
second. -/
lemma wp_bind (hΦ : PrefixClosed Φ) {m : Co σ ι ο lb ε β} {f : β → Co σ ι ο lb ε α}
    (h : wp Φ m ⟨fun b w' => wp Φ (f b) Q w', Q.raised, Q.blocked⟩ w) :
    wp Φ (m >>= f) Q w := by
  intro is
  have hm := h is
  rw [Co.run_bind]
  revert hm
  cases m.run is w with
  | done b w' is' =>
      intro hm
      by_cases hw : Φ w'.log
      · exact hm hw is'
      · exact .of_not hΦ hw ((f b).keepsLog is' w')
  | raised e w' is' => exact id
  | blocked l w' => exact id

lemma wp_tryCatch (hΦ : PrefixClosed Φ) {m : Co σ ι ο lb ε α} {handler : ε → Co σ ι ο lb ε α}
    (h : wp Φ m ⟨Q.done, fun e w' => wp Φ (handler e) Q w', Q.blocked⟩ w) :
    wp Φ (m.tryCatch handler) Q w := by
  intro is
  have hm := h is
  rw [Co.run_tryCatch]
  revert hm
  cases m.run is w with
  | done a w' is' => exact id
  | raised e w' is' =>
      intro hm
      by_cases hw : Φ w'.log
      · exact hm hw is'
      · exact .of_not hΦ hw ((handler e).keepsLog is' w')
  | blocked l w' => exact id

lemma wp_onExit {f : σ → σ} {m : Co σ ι ο lb ε α}
    (h : wp Φ m ⟨fun a w' => Q.done a ⟨f w'.self, w'.log⟩,
      fun e w' => Q.raised e ⟨f w'.self, w'.log⟩, Q.blocked⟩ w) :
    wp Φ (m.onExit f) Q w := by
  intro is
  have hm := h is
  rw [Co.run_onExit]
  revert hm
  cases m.run is w <;> exact id

@[simp] lemma wp_pure_bind {b : β} {f : β → Co σ ι ο lb ε α} :
    wp Φ (pure b >>= f) Q w ↔ wp Φ (f b) Q w := Iff.rfl

@[simp] lemma wp_gets_bind {g : σ → β} {f : β → Co σ ι ο lb ε α} :
    wp Φ (Co.gets g >>= f) Q w ↔ wp Φ (f (g w.self)) Q w := Iff.rfl

@[simp] lemma wp_modify_bind {g : σ → σ} {f : Unit → Co σ ι ο lb ε α} :
    wp Φ (Co.modify g >>= f) Q w ↔ wp Φ (f ()) Q ⟨g w.self, w.log⟩ := Iff.rfl

@[simp] lemma wp_emit_bind {o : ο} {f : Unit → Co σ ι ο lb ε α} :
    wp Φ (Co.emit o >>= f) Q w ↔ wp Φ (f ()) Q ⟨w.self, w.log ++ [o]⟩ := Iff.rfl

/-- The rule for awaiting: an assertion `I` that every absorbed input keeps, that gives
the postcondition at a waking input and that may be observed while suspended. -/
lemma wp_suspend (hΦ : PrefixClosed Φ) {h : Handler σ ι ο} {l : lb}
    {wake : σ → ι → Option (α × List ο)} (I : World σ ο → Prop) (hI : I w)
    (habsorb : ∀ i w, I w → Φ (h.step i w).log → I (h.step i w))
    (hwake : ∀ i w a obs, I w → wake w.self i = some (a, obs) → Φ (w.log ++ obs) →
      Q.done a ⟨w.self, w.log ++ obs⟩)
    (hblocked : ∀ w, I w → Q.blocked l w) :
    wp Φ (Co.suspend h l wake) Q w := by
  intro is
  show Q.Holds Φ (Co.suspendRun h l wake is w)
  induction is generalizing w with
  | nil => exact fun _ => hblocked w hI
  | cons i is ih =>
      rw [Co.suspendRun]
      by_cases hstep : Φ (h.step i w).log
      · have hI' := habsorb i w hI hstep
        split
        · rename_i a obs hwk
          exact fun hφ => hwake i (h.step i w) a obs hI' hwk hφ
        · exact ih hI'
      · split
        · exact .of_not hΦ hstep (List.prefix_append _ _)
        · exact .of_not hΦ hstep (Co.suspendRun_keepsLog h l wake is (h.step i w))

/-- The rule for loops: an invariant that one round of the body keeps or leaves through
the postcondition. -/
lemma wp_repeatUntil (hΦ : PrefixClosed Φ) {l : lb} {body : Co σ ι ο lb ε (Option α)}
    (I : World σ ο → Prop) (hI : I w)
    (hbody : ∀ w, I w → wp Φ body
      ⟨fun r w' => r.elim (I w') fun a => Q.done a w', Q.raised, Q.blocked⟩ w)
    (hblocked : ∀ w, I w → Q.blocked l w) :
    wp Φ (Co.repeatUntil l body) Q w := by
  have key : ∀ n w, I w → wp Φ (Co.repeatFor l body n) Q w := by
    intro n
    induction n with
    | zero => exact fun w hw => wp_halt fun _ => hblocked w hw
    | succ n ih =>
        intro w hw
        refine wp_bind hΦ (wp_mono (hbody w hw) ?_ (fun _ _ _ _ h => h) (fun _ _ _ _ h => h))
        intro r w' _ _ hr
        cases r with
        | some a => exact fun _ _ => hr
        | none => exact ih w' hr
  exact fun is => key (is.length + 1) w hI is

end Wp

/-! ### Relations between two runs -/

section Relates

variable {σ ι ο lb ε α β : Type} {R : World σ ο → World σ ο → Prop}

/-- Two results of the same kind, with the same value and rest of the script, in related
worlds. -/
inductive Res.Rel (R : World σ ο → World σ ο → Prop) :
    Res σ ι ο lb ε α → Res σ ι ο lb ε α → Prop where
  | done {w w' : World σ ο} (a : α) (is : List ι) (h : R w w') :
      Res.Rel R (.done a w is) (.done a w' is)
  | raised {w w' : World σ ο} (e : ε) (is : List ι) (h : R w w') :
      Res.Rel R (.raised e w is) (.raised e w' is)
  | blocked {w w' : World σ ο} (l : lb) (h : R w w') :
      Res.Rel R (.blocked l w) (.blocked l w')

/-- From related worlds, one script drives `m` and `m'` to related results. -/
def Relates (R : World σ ο → World σ ο → Prop) (m m' : Co σ ι ο lb ε α) : Prop :=
  ∀ is w w', R w w' → Res.Rel R (m.run is w) (m'.run is w')

namespace Relates

lemma pure (a : α) : Relates R (Pure.pure a : Co σ ι ο lb ε α) (Pure.pure a) :=
  fun is _ _ h => .done a is h

lemma raise (e : ε) : Relates R (Co.raise e : Co σ ι ο lb ε α) (Co.raise e) :=
  fun is _ _ h => .raised e is h

lemma halt (l : lb) : Relates R (Co.halt l : Co σ ι ο lb ε α) (Co.halt l) :=
  fun _ _ _ h => .blocked l h

lemma gets {g : σ → α} (hg : ∀ w w', R w w' → g w.self = g w'.self) :
    Relates R (Co.gets g : Co σ ι ο lb ε α) (Co.gets g) := by
  intro is w w' h
  show Res.Rel R (.done (g w.self) w is) (.done (g w'.self) w' is)
  rw [← hg w w' h]
  exact .done (g w.self) is h

lemma modify {g g' : σ → σ}
    (hg : ∀ w w', R w w' → R ⟨g w.self, w.log⟩ ⟨g' w'.self, w'.log⟩) :
    Relates R (Co.modify g : Co σ ι ο lb ε Unit) (Co.modify g') :=
  fun is w w' h => .done () is (hg w w' h)

lemma emit {o : ο} (ho : ∀ w w', R w w' → R ⟨w.self, w.log ++ [o]⟩ ⟨w'.self, w'.log ++ [o]⟩) :
    Relates R (Co.emit o : Co σ ι ο lb ε Unit) (Co.emit o) :=
  fun is w w' h => .done () is (ho w w' h)

lemma bind {m m' : Co σ ι ο lb ε β} {f f' : β → Co σ ι ο lb ε α} (hm : Relates R m m')
    (hf : ∀ b, Relates R (f b) (f' b)) : Relates R (m >>= f) (m' >>= f') := by
  intro is w w' h
  have hr := hm is w w' h
  rw [Co.run_bind, Co.run_bind]
  generalize m.run is w = r, m'.run is w' = r' at hr
  cases hr with
  | done b is' hw => exact hf b is' _ _ hw
  | raised e is' hw => exact .raised e is' hw
  | blocked l hw => exact .blocked l hw

lemma tryCatch {m m' : Co σ ι ο lb ε α} {k k' : ε → Co σ ι ο lb ε α} (hm : Relates R m m')
    (hk : ∀ e, Relates R (k e) (k' e)) : Relates R (m.tryCatch k) (m'.tryCatch k') := by
  intro is w w' h
  have hr := hm is w w' h
  rw [Co.run_tryCatch, Co.run_tryCatch]
  generalize m.run is w = r, m'.run is w' = r' at hr
  cases hr with
  | done a is' hw => exact .done a is' hw
  | raised e is' hw => exact hk e is' _ _ hw
  | blocked l hw => exact .blocked l hw

lemma onExit {m m' : Co σ ι ο lb ε α} {g : σ → σ} (hm : Relates R m m')
    (hg : ∀ w w', R w w' → R ⟨g w.self, w.log⟩ ⟨g w'.self, w'.log⟩) :
    Relates R (m.onExit g) (m'.onExit g) := by
  intro is w w' h
  have hr := hm is w w' h
  rw [Co.run_onExit, Co.run_onExit]
  generalize m.run is w = r, m'.run is w' = r' at hr
  cases hr with
  | done a is' hw => exact .done a is' (hg _ _ hw)
  | raised e is' hw => exact .raised e is' (hg _ _ hw)
  | blocked l hw => exact .blocked l hw

lemma suspend {h : Handler σ ι ο} {l : lb} {wake wake' : σ → ι → Option (α × List ο)}
    (habsorb : ∀ i w w', R w w' → R (h.step i w) (h.step i w'))
    (hwake : ∀ i w w', R w w' → wake w.self i = wake' w'.self i)
    (hobs : ∀ i w w' a obs, R w w' → wake w.self i = some (a, obs) →
      R ⟨w.self, w.log ++ obs⟩ ⟨w'.self, w'.log ++ obs⟩) :
    Relates R (Co.suspend h l wake : Co σ ι ο lb ε α) (Co.suspend h l wake') := by
  intro is
  induction is with
  | nil => exact fun w w' hw => .blocked l hw
  | cons i is ih =>
      intro w w' hw
      have hw1 := habsorb i w w' hw
      have heq := hwake i _ _ hw1
      show Res.Rel R (Co.suspendRun h l wake (i :: is) w) (Co.suspendRun h l wake' (i :: is) w')
      rw [Co.suspendRun, Co.suspendRun]
      cases hwk : wake (h.step i w).self i with
      | none =>
          rw [hwk] at heq
          simp only [Handler.step] at hwk heq
          rw [hwk, ← heq]
          exact ih _ _ hw1
      | some p =>
          obtain ⟨a, obs⟩ := p
          have hR := hobs i _ _ a obs hw1 hwk
          rw [hwk] at heq
          simp only [Handler.step] at hwk heq
          rw [hwk, ← heq]
          exact .done a is hR

lemma repeatUntil {l : lb} {body body' : Co σ ι ο lb ε (Option α)}
    (hbody : Relates R body body') :
    Relates R (Co.repeatUntil l body) (Co.repeatUntil l body') := by
  have key : ∀ n, Relates R (Co.repeatFor l body n) (Co.repeatFor l body' n) := by
    intro n
    induction n with
    | zero => exact halt l
    | succ n ih =>
        refine bind hbody fun r => ?_
        cases r with
        | some a => exact pure a
        | none => exact ih
  exact fun is w w' h => key (is.length + 1) is w w' h

end Relates

/-- A property of worlds that a coroutine keeps however its run ends. -/
def Preserves (I : World σ ο → Prop) (m : Co σ ι ο lb ε α) : Prop :=
  ∀ is w, I w → I (m.run is w).world

/-- The diagonal of a property: a coroutine that keeps it as a relation keeps the
property. -/
lemma Relates.preserves {I : World σ ο → Prop} {m : Co σ ι ο lb ε α}
    (h : Relates (fun w w' => w = w' ∧ I w) m m) : Preserves I m := by
  intro is w hw
  have hr := h is w w ⟨rfl, hw⟩
  generalize m.run is w = r at hr
  cases hr with
  | done a is' h' => exact h'.2
  | raised e is' h' => exact h'.2
  | blocked l h' => exact h'.2

/-- What a coroutine keeps is its postcondition for every way a run ends. -/
lemma Preserves.wp {I : World σ ο → Prop} {m : Co σ ι ο lb ε α} (h : Preserves I m)
    {Φ : List ο → Prop} {w : World σ ο} (hw : I w) :
    wp Φ m ⟨fun _ => I, fun _ => I, fun _ => I⟩ w := by
  intro is
  have hr := h is w hw
  revert hr
  cases m.run is w <;> exact fun hr _ => hr

/-- What a coroutine keeps may be added to any postcondition. -/
lemma wp_preserving {Φ : List ο → Prop} {Q : Post σ ο lb ε α} {I : World σ ο → Prop}
    {m : Co σ ι ο lb ε α} {w : World σ ο} (hI : Preserves I m) (hw : I w)
    (h : wp Φ m ⟨fun a w' => I w' → Q.done a w', fun e w' => I w' → Q.raised e w',
      fun l w' => I w' → Q.blocked l w'⟩ w) :
    wp Φ m Q w := by
  intro is
  have hr := hI is w hw
  have hm := h is
  revert hr hm
  cases m.run is w <;> exact fun hr hm hφ => hm hφ hr

end Relates

end Coroutine
