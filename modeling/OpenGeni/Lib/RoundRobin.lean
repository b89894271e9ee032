/-
Queues served in turn.

One FIFO queue per key and a ring of the keys that have something queued. Serving takes
the first key of the ring and the first element of its queue; the key goes to the back of
the ring unless its queue is empty now. Elements may also leave from the front of a queue
without being served, and arrive at any time.

Two things are proved of every run: each queue is first in, first out, and nobody
starves. For the second the measure of an element is what must be served before it: its
key's place in the ring, plus one full turn for each element ahead of it in its queue. A
serve lowers it by one at least, and nothing raises it while the ring stays within a
bound.
-/
import OpenGeni.Lib.Run

namespace OpenGeni.Lib

/-- The queues, and the keys that have something queued, in the order of their turns. -/
@[ext] structure RoundRobin (K W : Type*) where
  ring : List K
  queue : K → List W

namespace RoundRobin

variable {K W : Type*}

inductive Move (K W : Type*)
  | arrive (k : K) (w : W)
  | serve (k : K) (w : W)
  | expire (k : K) (w : W)

namespace Move

def arrives [DecidableEq K] (k : K) : Move K W → Option W
  | .arrive j w => if j = k then some w else none
  | _ => none

/-- The element leaves the queue of `k`, served or not. -/
def departs [DecidableEq K] (k : K) : Move K W → Option W
  | .serve j w | .expire j w => if j = k then some w else none
  | .arrive _ _ => none

def served : Move K W → Option W
  | .serve _ w => some w
  | _ => none

def expired : Move K W → Option W
  | .expire _ w => some w
  | _ => none

end Move

variable [DecidableEq K]

/-- The elements that arrived at the queue of `k`, in order. -/
def arrivals (k : K) (ms : List (Move K W)) : List W := ms.filterMap (Move.arrives k)

/-- The elements that left the queue of `k`, in order. -/
def departures (k : K) (ms : List (Move K W)) : List W := ms.filterMap (Move.departs k)

def serves (ms : List (Move K W)) : List W := ms.filterMap Move.served

/-- The queue of `k` replaced. -/
def setQueue (r : RoundRobin K W) (k : K) (queue : List W) (ring : List K) : RoundRobin K W :=
  ⟨ring, Function.update r.queue k queue⟩

inductive Turn : RoundRobin K W → Move K W → RoundRobin K W → Prop
  | arrive (r : RoundRobin K W) (k : K) (w : W) :
      Turn r (.arrive k w) (r.setQueue k (r.queue k ++ [w]) (if (r.queue k).isEmpty then r.ring ++ [k] else r.ring))
  | serve {r : RoundRobin K W} {k : K} {w : W} {ring : List K} {rest : List W}
      (hring : r.ring = k :: ring) (hqueue : r.queue k = w :: rest) :
      Turn r (.serve k w) (r.setQueue k rest (if rest.isEmpty then ring else ring ++ [k]))
  | expire {r : RoundRobin K W} {k : K} {w : W} {rest : List W} (hqueue : r.queue k = w :: rest) :
      Turn r (.expire k w) (r.setQueue k rest
          (if rest.isEmpty then r.ring.filter fun j => decide (j ≠ k) else r.ring))

/-- The ring holds each key that has something queued, once, and no other. -/
structure Tidy (r : RoundRobin K W) : Prop where
  nodup : r.ring.Nodup
  mem : ∀ k, k ∈ r.ring ↔ r.queue k ≠ []

section

variable {r r' : RoundRobin K W} {k : K} {w : W} {m : Move K W} {ms : List (Move K W)}

@[simp] theorem setQueue_ring (r : RoundRobin K W) (k : K) (queue : List W) (ring : List K) :
    (r.setQueue k queue ring).ring = ring := rfl

@[simp] theorem setQueue_self (r : RoundRobin K W) (k : K) (queue : List W) (ring : List K) :
    (r.setQueue k queue ring).queue k = queue := Function.update_self ..

theorem setQueue_of_ne (r : RoundRobin K W) {j k : K} (queue : List W) (ring : List K)
    (h : j ≠ k) : (r.setQueue k queue ring).queue j = r.queue j := Function.update_of_ne h ..

/-! ## The ring follows the queues -/

theorem Tidy.setQueue (h : r.Tidy) {queue : List W} {ring : List K} (hnodup : ring.Nodup)
    (hk : k ∈ ring ↔ queue ≠ []) (hother : ∀ j, j ≠ k → (j ∈ ring ↔ j ∈ r.ring)) :
    (r.setQueue k queue ring).Tidy := by
  refine ⟨hnodup, fun j => ?_⟩
  by_cases hj : j = k
  · rw [hj, setQueue_ring, setQueue_self]
    exact hk
  · rw [setQueue_ring, setQueue_of_ne r queue ring hj, hother j hj]
    exact h.mem j

theorem Tidy.turn (h : r.Tidy) (hturn : Turn r m r') : r'.Tidy := by
  cases hturn with
  | arrive k w =>
    by_cases hempty : r.queue k = []
    · have hnew : k ∉ r.ring := by
        intro hk
        exact (h.mem k).1 hk hempty
      rw [hempty, List.isEmpty_nil, if_pos rfl]
      apply h.setQueue
      · exact List.nodup_append.2 ⟨h.nodup, List.nodup_singleton k,
          fun a ha b hb hab => hnew (List.mem_singleton.1 hb ▸ hab ▸ ha)⟩
      · simp
      · intro j hj
        simp [hj]
    · rw [if_neg (by rwa [List.isEmpty_iff])]
      apply h.setQueue h.nodup
      · rw [h.mem k]
        simp [hempty]
      · intro j _
        exact Iff.rfl
  | @serve k w ring rest hring hqueue =>
    have hnodup := h.nodup
    rw [hring, List.nodup_cons] at hnodup
    by_cases hrest : rest = []
    · rw [hrest, List.isEmpty_nil, if_pos rfl]
      apply h.setQueue hnodup.2
      · simp [hnodup.1]
      · intro j hj
        simp [hring, hj]
    · rw [if_neg (by rwa [List.isEmpty_iff])]
      apply h.setQueue
      · exact List.nodup_append.2 ⟨hnodup.2, List.nodup_singleton k,
          fun a ha b hb hab => hnodup.1 (List.mem_singleton.1 hb ▸ hab ▸ ha)⟩
      · simp [hrest]
      · intro j hj
        simp [hring, hj]
  | @expire k w rest hqueue =>
    by_cases hrest : rest = []
    · rw [hrest, List.isEmpty_nil, if_pos rfl]
      apply h.setQueue (h.nodup.filter _)
      · simp
      · intro j hj
        simp [hj]
    · rw [if_neg (by rwa [List.isEmpty_iff])]
      apply h.setQueue h.nodup
      · rw [h.mem k, hqueue]
        simp [hrest]
      · intro j _
        exact Iff.rfl

/-! ## First in, first out -/

theorem Turn.fifo (k : K) (hturn : Turn r m r') :
    r.queue k ++ (Move.arrives k m).toList = (Move.departs k m).toList ++ r'.queue k := by
  cases hturn with
  | arrive j w =>
    by_cases hj : j = k
    · subst hj
      simp [Move.arrives, Move.departs]
    · simp [Move.arrives, Move.departs, hj, setQueue_of_ne r _ _ (Ne.symm hj)]
  | @serve j w ring rest hring hqueue =>
    by_cases hj : j = k
    · subst hj
      simp [Move.arrives, Move.departs, hqueue]
    · simp [Move.arrives, Move.departs, hj, setQueue_of_ne r _ _ (Ne.symm hj)]
  | @expire j w rest hqueue =>
    by_cases hj : j = k
    · subst hj
      simp [Move.arrives, Move.departs, hqueue]
    · simp [Move.arrives, Move.departs, hj, setQueue_of_ne r _ _ (Ne.symm hj)]

/-- **First in, first out**: what a queue held and what arrived, in order, is what left
and what it holds. -/
theorem fifo (k : K) (h : Run Turn r ms r') : r.queue k ++ arrivals k ms = departures k ms ++ r'.queue k := by
  induction h with
  | nil r => simp [arrivals, departures]
  | @cons r s t m ms hturn _ ih =>
    have harrive : arrivals k (m :: ms) = (Move.arrives k m).toList ++ arrivals k ms := by
      unfold arrivals
      cases hm : Move.arrives k m <;> simp [hm]
    have hdepart : departures k (m :: ms) = (Move.departs k m).toList ++ departures k ms := by
      unfold departures
      cases hm : Move.departs k m <;> simp [hm]
    rw [harrive, hdepart, ← List.append_assoc, hturn.fifo k, List.append_assoc, ih, List.append_assoc]

/-! ## Nobody starves -/

/-- How much is served, at most, until the element with `a` elements ahead of it in the
queue of `k` leaves, itself included. -/
def due (r : RoundRobin K W) (k : K) (bound a : ℕ) : ℕ := r.ring.idxOf k + 1 + a * bound

theorem idxOf_filter_le (p : K → Bool) {k : K} (hk : p k = true) (l : List K) :
    (l.filter p).idxOf k ≤ l.idxOf k := by
  induction l with
  | nil => exact Nat.le_refl _
  | cons j l ih =>
    by_cases hj : j = k
    · subst hj
      rw [List.filter_cons_of_pos hk, List.idxOf_cons_self, List.idxOf_cons_self]
    · rw [List.idxOf_cons_ne l hj]
      by_cases hp : p j = true
      · rw [List.filter_cons_of_pos hp, List.idxOf_cons_ne _ hj]
        omega
      · rw [List.filter_cons_of_neg hp]
        omega

variable {bound a : ℕ}

theorem Turn.due_le (h : r.Tidy) (hbound : r.ring.length ≤ bound) (ha : a < (r.queue k).length)
    (hturn : Turn r m r') (hstay : (Move.departs k m).toList.length ≤ a) :
    a - (Move.departs k m).toList.length < (r'.queue k).length ∧
      (Move.served m).toList.length + r'.due k bound (a - (Move.departs k m).toList.length) ≤ r.due k bound a := by
  have hk : k ∈ r.ring := by
    rw [h.mem k]
    intro hnil
    rw [hnil] at ha
    exact absurd ha (Nat.not_lt_zero a)
  unfold due
  cases hturn with
  | arrive j w =>
    -- an arrival goes to the back of the ring and of its queue
    have hidx : (if (r.queue j).isEmpty then r.ring ++ [j] else r.ring).idxOf k = r.ring.idxOf k := by
      split
      · exact List.idxOf_append_of_mem hk
      · rfl
    rw [setQueue_ring, hidx]
    refine ⟨?_, by simp [Move.departs, Move.served]⟩
    by_cases hj : k = j
    · subst hj
      rw [setQueue_self, List.length_append]
      omega
    · rw [setQueue_of_ne r _ _ hj]
      simpa [Move.departs] using ha
  | @serve j w ring rest hring hqueue =>
    have hnodup := h.nodup
    rw [hring, List.nodup_cons] at hnodup
    rw [hring, List.length_cons] at hbound
    by_cases hj : j = k
    · -- its own queue is served: one less ahead of it, and a full turn to wait at most
      subst hj
      simp only [Move.departs, if_pos, Option.toList_some, List.length_singleton] at hstay ⊢
      have hrest : ¬ rest.isEmpty = true := by
        rw [List.isEmpty_iff]
        rintro rfl
        rw [hqueue] at ha
        exact absurd ha (Nat.not_lt.2 hstay)
      have hlast : (ring ++ [j]).idxOf j = ring.length := by
        rw [List.idxOf_append_of_notMem hnodup.1, List.idxOf_cons_self, Nat.add_zero]
      obtain ⟨a, rfl⟩ : ∃ b, a = b + 1 := ⟨a - 1, by omega⟩
      rw [hqueue, List.length_cons] at ha
      rw [setQueue_self, if_neg hrest, setQueue_ring, hlast, hring, List.idxOf_cons_self,
        Nat.add_sub_cancel, Nat.succ_mul]
      simp only [Move.served, Option.toList_some, List.length_singleton]
      omega
    · -- another queue is served: the key moves up in the ring
      have hmem : k ∈ ring := by
        rw [hring] at hk
        exact (List.mem_cons.1 hk).resolve_left (Ne.symm hj)
      have hidx : (if rest.isEmpty then ring else ring ++ [j]).idxOf k = ring.idxOf k := by
        split
        · rfl
        · exact List.idxOf_append_of_mem hmem
      rw [setQueue_of_ne r _ _ (Ne.symm hj), setQueue_ring, hidx, hring, List.idxOf_cons_ne ring hj]
      simp only [Move.departs, if_neg hj, Move.served, Option.toList_none, Option.toList_some,
        List.length_nil, List.length_singleton, Nat.sub_zero]
      exact ⟨ha, by omega⟩
  | @expire j w rest hqueue =>
    by_cases hj : j = k
    · subst hj
      simp only [Move.departs, if_pos, Option.toList_some, List.length_singleton] at hstay ⊢
      have hrest : ¬ rest.isEmpty = true := by
        rw [List.isEmpty_iff]
        rintro rfl
        rw [hqueue] at ha
        exact absurd ha (Nat.not_lt.2 hstay)
      rw [hqueue, List.length_cons] at ha
      rw [setQueue_self, if_neg hrest, setQueue_ring]
      have hmul : (a - 1) * bound ≤ a * bound := Nat.mul_le_mul_right bound (Nat.sub_le a 1)
      simp only [Move.served, Option.toList_none, List.length_nil]
      omega
    · have hidx : (if rest.isEmpty then r.ring.filter fun i => decide (i ≠ j) else r.ring).idxOf k
          ≤ r.ring.idxOf k := by
        split
        · exact idxOf_filter_le (fun i => decide (i ≠ j)) (decide_eq_true (Ne.symm hj)) r.ring
        · exact Nat.le_refl _
      rw [setQueue_of_ne r _ _ (Ne.symm hj), setQueue_ring]
      simp only [Move.departs, if_neg hj, Move.served, Option.toList_none, List.length_nil, Nat.sub_zero]
      exact ⟨ha, by omega⟩

/-- **Nobody starves.** While at most the elements ahead of it have left its queue, an
element is overtaken by fewer serves than its place and the size of the ring allow. -/
theorem serves_lt (h : r.Tidy) (hrun : Run (Restrict Turn fun r _ => r.ring.length ≤ bound) r ms r')
    (ha : a < (r.queue k).length) (hstay : (departures k ms).length ≤ a) :
    (serves ms).length < r.due k bound a := by
  induction hrun generalizing a with
  | nil r =>
    exact Nat.lt_of_lt_of_le (Nat.succ_pos _) (Nat.le_add_right _ _)
  | @cons r s t m ms hturn _ ih =>
    have hdepart : (departures k (m :: ms)).length
        = (Move.departs k m).toList.length + (departures k ms).length := by
      unfold departures
      cases hm : Move.departs k m <;> simp [hm, Nat.add_comm]
    have hserve : (serves (m :: ms)).length = (Move.served m).toList.length + (serves ms).length := by
      unfold serves
      cases hm : Move.served m <;> simp [hm, Nat.add_comm]
    rw [hdepart] at hstay
    obtain ⟨ha', hdue⟩ := hturn.1.due_le h hturn.2 ha (by omega)
    have hrest := ih (h.turn hturn.1) ha' (by omega)
    omega

theorem due_le (h : r.Tidy) (hbound : r.ring.length ≤ bound) (ha : a < (r.queue k).length) :
    r.due k bound a ≤ bound * (a + 1) := by
  have hk : k ∈ r.ring := by
    rw [h.mem k]
    intro hnil
    rw [hnil] at ha
    exact absurd ha (Nat.not_lt_zero a)
  have hidx : r.ring.idxOf k < r.ring.length := List.idxOf_lt_length_of_mem hk
  unfold due
  rw [Nat.mul_succ, Nat.mul_comm bound a]
  omega

/-! ## Departures only -/

theorem Turn.ring_le (hturn : Turn r m r') (hm : ∀ k w, m ≠ .arrive k w) : r'.ring.length ≤ r.ring.length := by
  cases hturn with
  | arrive k w => exact absurd rfl (hm k w)
  | @serve k w ring rest hring hqueue =>
    rw [setQueue_ring, hring, List.length_cons]
    split
    · exact Nat.le_succ _
    · rw [List.length_append, List.length_singleton]
  | expire hqueue =>
    rw [setQueue_ring]
    split
    · exact List.length_filter_le _ _
    · exact Nat.le_refl _

theorem run_ring_le (h : Run Turn r ms r') (hms : ∀ m ∈ ms, ∀ k w, m ≠ .arrive k w) :
    r'.ring.length ≤ r.ring.length := by
  induction h with
  | nil r => exact Nat.le_refl _
  | @cons r s t m ms hturn _ ih =>
    have hle := hturn.ring_le (hms m List.mem_cons_self)
    exact Nat.le_trans (ih fun m' hm' => hms m' (List.mem_cons_of_mem m hm')) hle

theorem restrict_run (h : Run Turn r ms r') (hms : ∀ m ∈ ms, ∀ k w, m ≠ .arrive k w)
    (hbound : r.ring.length ≤ bound) :
    Run (Restrict Turn fun r _ => r.ring.length ≤ bound) r ms r' := by
  induction h with
  | nil r => exact .nil r
  | @cons r s t m ms hturn _ ih =>
    have hle := hturn.ring_le (hms m List.mem_cons_self)
    exact .cons ⟨hturn, hbound⟩ (ih (fun m' hm' => hms m' (List.mem_cons_of_mem m hm')) (Nat.le_trans hle hbound))

theorem expire_run (ws rest : List W) (hqueue : r.queue k = ws ++ rest) (hsome : r.queue k ≠ []) :
    Run Turn r (ws.map (.expire k)) (r.setQueue k rest
        (if rest.isEmpty then r.ring.filter fun j => decide (j ≠ k) else r.ring)) := by
  induction ws generalizing r with
  | nil =>
    rw [List.nil_append] at hqueue
    rw [hqueue] at hsome
    have hself : r.setQueue k rest r.ring = r := by
      unfold setQueue
      rw [← hqueue, Function.update_eq_self]
    rw [if_neg (by rwa [List.isEmpty_iff]), hself]
    exact .nil r
  | cons w ws ih =>
    have hcons : r.queue k = w :: (ws ++ rest) := hqueue
    have hturn := Turn.expire hcons
    rw [List.map_cons]
    by_cases hlast : ws ++ rest = []
    · obtain ⟨rfl, rfl⟩ := List.append_eq_nil_iff.1 hlast
      exact .single hturn
    · refine .cons hturn ?_
      have hstep := ih (r := r.setQueue k (ws ++ rest)
        (if (ws ++ rest).isEmpty then r.ring.filter fun j => decide (j ≠ k) else r.ring))
        (setQueue_self ..) (by rwa [setQueue_self])
      rw [if_neg (show ¬ (ws ++ rest).isEmpty = true by rwa [List.isEmpty_iff])] at hstep ⊢
      unfold setQueue at hstep ⊢
      rwa [Function.update_idem] at hstep

end

end RoundRobin

end OpenGeni.Lib
