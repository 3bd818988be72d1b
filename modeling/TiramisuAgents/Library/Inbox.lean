import Mathlib.Data.Finset.Sort
import Mathlib.Data.List.Count
import Mathlib.Data.List.Perm.Basic
import Mathlib.Tactic

/-!
A buffer that admits each key once.

An `Inbox` keeps the items that wait and the keys it has ever admitted.  Receiving an
item whose key was seen before changes nothing; items may be taken out at any position.

* `receive_merge`: handing an inbox the buffer another one collected from a list of
  deliveries is the same as handing it the deliveries themselves.
* `Ledger`: the items ever admitted, in order of arrival, against the items taken out
  and the inbox, for a classification of the items within which order is kept;
  `Ledger.receive` and `Ledger.pop` are its two steps.
* `Ledger.count_add`, `Ledger.seen_eq`, `Ledger.popped_isPrefix`: each admitted key is
  waiting or taken out exactly once, the seen keys are the disjoint union of the two,
  and within a class items leave in order of arrival.
-/

/-- The items that wait and the keys ever admitted. -/
structure Inbox (α κ : Type) where
  buffer : List α
  seen : Finset κ
  deriving DecidableEq

namespace Inbox

variable {α κ γ : Type} [DecidableEq κ]

/-- The inbox that has admitted nothing. -/
def empty : Inbox α κ := ⟨[], ∅⟩

/-- Admit an item at the end of the buffer unless its key was seen before. -/
def receive (key : α → κ) (b : Inbox α κ) (x : α) : Inbox α κ :=
  if key x ∈ b.seen then b else ⟨b.buffer ++ [x], insert (key x) b.seen⟩

/-- Receive a list of deliveries in order. -/
def receiveAll (key : α → κ) (b : Inbox α κ) (xs : List α) : Inbox α κ :=
  xs.foldl (receive key) b

/-- Take out the item at a position. -/
def pop (b : Inbox α κ) (n : ℕ) : Inbox α κ := ⟨b.buffer.eraseIdx n, b.seen⟩

variable {key : α → κ} {b : Inbox α κ} {x : α}

lemma receive_of_mem (h : key x ∈ b.seen) : b.receive key x = b := if_pos h

lemma receive_of_notMem (h : key x ∉ b.seen) :
    b.receive key x = ⟨b.buffer ++ [x], insert (key x) b.seen⟩ := if_neg h

/-- What waits after a delivery waited before or is the item delivered. -/
lemma mem_receive {y : α} (h : y ∈ (b.receive key x).buffer) : y ∈ b.buffer ∨ y = x := by
  by_cases hx : key x ∈ b.seen
  · rw [receive_of_mem hx] at h
    exact .inl h
  · rw [receive_of_notMem hx] at h
    simpa using h

/-- A delivery takes nothing out of the buffer. -/
lemma mem_receive_of_mem {y : α} (h : y ∈ b.buffer) : y ∈ (b.receive key x).buffer := by
  by_cases hx : key x ∈ b.seen
  · rwa [receive_of_mem hx]
  · rw [receive_of_notMem hx]
    exact List.mem_append_left _ h

omit [DecidableEq κ] in
lemma mem_pop {n : ℕ} {y : α} (h : y ∈ (b.pop n).buffer) : y ∈ b.buffer :=
  List.mem_of_mem_eraseIdx h

@[simp] lemma receiveAll_nil : b.receiveAll key [] = b := rfl

lemma receiveAll_append (xs ys : List α) :
    b.receiveAll key (xs ++ ys) = (b.receiveAll key xs).receiveAll key ys :=
  List.foldl_append

lemma receiveAll_concat (xs : List α) :
    b.receiveAll key (xs ++ [x]) = (b.receiveAll key xs).receive key x :=
  receiveAll_append xs [x]

/-- The keys admitted by a list of deliveries. -/
lemma seen_receiveAll (xs : List α) :
    (b.receiveAll key xs).seen = b.seen ∪ (xs.map key).toFinset := by
  induction xs using List.reverseRecOn with
  | nil => simp
  | append_singleton xs x ih =>
      rw [receiveAll_concat]
      by_cases h : key x ∈ (b.receiveAll key xs).seen
      · rw [receive_of_mem h, ih]
        rw [ih] at h
        simp only [List.map_append, List.map_cons, List.map_nil, List.toFinset_append,
          List.toFinset_cons, List.toFinset_nil, ← Finset.union_assoc]
        exact (Finset.union_eq_left.mpr (by simpa using h)).symm
      · rw [receive_of_notMem h, ih]
        ext k
        simp only [Finset.mem_insert, Finset.mem_union, List.map_append, List.map_cons,
          List.map_nil, List.toFinset_append, List.toFinset_cons, List.toFinset_nil]
        tauto

/-- The buffer a fresh inbox collects, handed to another inbox, leaves it as the
deliveries themselves would. -/
theorem receive_merge (carried : Inbox α κ) (xs : List α) :
    carried.receiveAll key (empty.receiveAll key xs).buffer = carried.receiveAll key xs := by
  induction xs using List.reverseRecOn with
  | nil => rfl
  | append_singleton xs x ih =>
      rw [receiveAll_concat, receiveAll_concat]
      by_cases h : key x ∈ ((empty : Inbox α κ).receiveAll key xs).seen
      · -- a duplicate among the deliveries is a duplicate for `carried` too
        have hc : key x ∈ (carried.receiveAll key xs).seen := by
          rw [seen_receiveAll] at h ⊢
          exact Finset.mem_union_right _ (by simpa [empty] using h)
        rw [receive_of_mem h, receive_of_mem hc, ih]
      · rw [receive_of_notMem h, receiveAll_concat, ih]

/-! ### The ledger -/

/-- The deliveries a fresh inbox admits: the first of each key, in order of arrival. -/
def admitted (key : α → κ) (xs : List α) : List α := (empty.receiveAll key xs).buffer

lemma admitted_concat_of_mem {xs : List α} (h : key x ∈ xs.map key) :
    admitted key (xs ++ [x]) = admitted key xs := by
  rw [admitted, receiveAll_concat, receive_of_mem, admitted]
  rw [seen_receiveAll]
  exact Finset.mem_union_right _ (List.mem_toFinset.mpr h)

lemma admitted_concat_of_notMem {xs : List α} (h : key x ∉ xs.map key) :
    admitted key (xs ++ [x]) = admitted key xs ++ [x] := by
  rw [admitted, receiveAll_concat, receive_of_notMem, admitted]
  rw [seen_receiveAll]
  simpa [empty] using h

/-- Only deliveries are admitted. -/
lemma admitted_subset (xs : List α) : admitted key xs ⊆ xs := by
  induction xs using List.reverseRecOn with
  | nil => exact List.Subset.refl []
  | append_singleton xs x ih =>
      by_cases h : key x ∈ xs.map key
      · rw [admitted_concat_of_mem h]
        exact fun y hy => List.mem_append_left _ (ih hy)
      · rw [admitted_concat_of_notMem h]
        intro y hy
        rw [List.mem_append] at hy ⊢
        exact hy.imp_left fun hy => ih hy

/-- A fresh inbox admits each delivered key, and each of them once. -/
lemma admitted_keys (xs : List α) :
    (∀ k, k ∈ (admitted key xs).map key ↔ k ∈ xs.map key) ∧
      ((admitted key xs).map key).Nodup := by
  induction xs using List.reverseRecOn with
  | nil => simp [admitted, empty]
  | append_singleton xs x ih =>
      by_cases h : key x ∈ xs.map key
      · rw [admitted_concat_of_mem h]
        refine ⟨fun k => ?_, ih.2⟩
        rw [ih.1, List.map_append, List.mem_append]
        refine ⟨.inl, ?_⟩
        rintro (hk | hk)
        · exact hk
        · rwa [List.mem_singleton.mp hk]
      · rw [admitted_concat_of_notMem h]
        refine ⟨fun k => ?_, ?_⟩
        · rw [List.map_append, List.map_append, List.mem_append, List.mem_append, ih.1]
        · rw [List.map_append, List.nodup_append]
          refine ⟨ih.2, List.nodup_singleton _, fun a ha b hb => ?_⟩
          rw [List.mem_singleton.mp hb]
          rintro rfl
          exact h ((ih.1 _).mp ha)

variable [DecidableEq γ] {cls : α → γ} {received popped : List α}

/-- The deliveries received so far are accounted for: within each class of `cls` the
items taken out followed by those that wait are the admitted deliveries, and the inbox
has seen the keys received. -/
structure Ledger (key : α → κ) (cls : α → γ) (received popped : List α) (b : Inbox α κ) :
    Prop where
  order : ∀ t, (popped ++ b.buffer).filter (cls · = t) =
    (admitted key received).filter (cls · = t)
  seen : b.seen = (received.map key).toFinset

namespace Ledger

lemma empty : Ledger key cls [] [] (Inbox.empty : Inbox α κ) := ⟨fun _ => rfl, rfl⟩

/-- A delivery keeps the ledger. -/
lemma receive (h : Ledger key cls received popped b) (x : α) :
    Ledger key cls (received ++ [x]) popped (b.receive key x) := by
  by_cases hx : key x ∈ received.map key
  · have hseen : key x ∈ b.seen := by rw [h.seen]; exact List.mem_toFinset.mpr hx
    rw [receive_of_mem hseen]
    refine ⟨fun t => ?_, ?_⟩
    · rw [admitted_concat_of_mem hx, h.order]
    · rw [h.seen, List.map_append, List.toFinset_append]
      exact (Finset.union_eq_left.mpr (by simpa using hx)).symm
  · have hseen : key x ∉ b.seen := by rw [h.seen]; exact fun hm => hx (List.mem_toFinset.mp hm)
    rw [receive_of_notMem hseen]
    refine ⟨fun t => ?_, ?_⟩
    · rw [admitted_concat_of_notMem hx, ← List.append_assoc, List.filter_append, h.order,
        ← List.filter_append]
    · ext k
      simp only [h.seen, Finset.mem_insert, List.map_append, List.toFinset_append,
        Finset.mem_union, List.map_cons, List.map_nil, List.toFinset_cons, List.toFinset_nil]
      tauto

/-- Taking out the first item of its class keeps the ledger. -/
lemma pop {n : ℕ} (h : Ledger key cls received popped b) (hx : b.buffer[n]? = some x)
    (hfirst : ∀ y ∈ b.buffer.take n, cls y ≠ cls x) :
    Ledger key cls received (popped ++ [x]) (b.pop n) := by
  obtain ⟨hn, rfl⟩ := List.getElem?_eq_some_iff.mp hx
  refine ⟨fun t => ?_, h.seen⟩
  rw [← h.order, Inbox.pop, List.eraseIdx_eq_take_drop_succ]
  have hsplit : b.buffer.filter (cls · = t) = (b.buffer.take n).filter (cls · = t) ++
      (b.buffer[n] :: b.buffer.drop (n + 1)).filter (cls · = t) := by
    rw [← List.filter_append, List.getElem_cons_drop, List.take_append_drop]
  simp only [List.filter_append, hsplit, List.filter_cons, List.filter_nil, List.append_assoc]
  by_cases ht : cls b.buffer[n] = t
  · have hnil : (b.buffer.take n).filter (cls · = t) = [] := by
      rw [List.filter_eq_nil_iff]
      intro y hy
      simpa [← ht] using hfirst y hy
    simp [hnil, ht]
  · simp [ht]

/-- The items taken out and those that wait are the admitted deliveries. -/
lemma perm (h : Ledger key cls received popped b) :
    (popped ++ b.buffer).Perm (admitted key received) := by
  classical
  rw [List.perm_iff_count]
  intro a
  have hcount : ∀ l : List α, l.count a = (l.filter (cls · = cls a)).count a := by
    intro l
    rw [List.count_filter]
    simp
  rw [hcount, hcount (admitted key received), h.order]

/-- **Exactly once**: a received key waits or has been taken out, once and not both. -/
theorem count_add (h : Ledger key cls received popped b) {k : κ} (hk : k ∈ received.map key) :
    (b.buffer.map key).count k + (popped.map key).count k = 1 := by
  have hperm := (h.perm.map key).count_eq k
  obtain ⟨hmem, hnodup⟩ := @admitted_keys _ _ _ key received
  rw [List.map_append, List.count_append, List.count_eq_one_of_mem hnodup ((hmem k).mpr hk)]
    at hperm
  omega

/-- An item taken out was received. -/
lemma mem_received (h : Ledger key cls received popped b) (hx : x ∈ popped) : x ∈ received := by
  have hadmitted : x ∈ admitted key received := h.perm.subset (List.mem_append_left _ hx)
  exact admitted_subset received hadmitted

/-- No key is taken out twice. -/
lemma nodup_popped (h : Ledger key cls received popped b) : (popped.map key).Nodup := by
  have hnodup := (h.perm.map key).nodup_iff.mpr (admitted_keys received).2
  rw [List.map_append] at hnodup
  exact hnodup.of_append_left

/-- The seen keys are the keys that wait together with those taken out. -/
theorem seen_eq (h : Ledger key cls received popped b) :
    b.seen = (b.buffer.map key).toFinset ∪ (popped.map key).toFinset := by
  ext k
  rw [h.seen, List.mem_toFinset, ← (admitted_keys received).1, ← (h.perm.map key).mem_iff]
  simp only [List.map_append, List.mem_append, Finset.mem_union, List.mem_toFinset]
  exact or_comm

/-- No key both waits and has been taken out. -/
theorem disjoint (h : Ledger key cls received popped b) :
    Disjoint (b.buffer.map key).toFinset (popped.map key).toFinset := by
  have hnodup := (h.perm.map key).nodup_iff.mpr (admitted_keys received).2
  rw [List.map_append, List.nodup_append] at hnodup
  rw [Finset.disjoint_left]
  intro k hb hp
  exact hnodup.2.2 k (List.mem_toFinset.mp hp) k (List.mem_toFinset.mp hb) rfl

/-- **First come, first out** within a class. -/
theorem popped_isPrefix (h : Ledger key cls received popped b) (t : γ) :
    popped.filter (cls · = t) <+: (admitted key received).filter (cls · = t) := by
  rw [← h.order, List.filter_append]
  exact List.prefix_append _ _

end Ledger

end Inbox
