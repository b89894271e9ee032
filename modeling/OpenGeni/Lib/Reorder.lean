/-
A reorder buffer.

A consumer of a numbered sequence over a channel that loses, duplicates and reorders:
it releases element after element in order, keeps what arrives early in a bounded stash,
and ignores what it has released. When the gap closes, the stash is drained. What the
buffer is for is one sentence: whatever the channel does, the elements released are a
prefix of the sequence. `Within l b` is the invariant that carries it.
-/
import Mathlib

namespace OpenGeni.Lib

/-- The elements released so far, in order, and the ones that arrived early. -/
structure Reorder (α : Type*) where
  released : List α
  stash : AList fun _ : ℕ => α

namespace Reorder

variable {α : Type*}

def empty : Reorder α := ⟨[], ∅⟩

def next (b : Reorder α) : ℕ := b.released.length + 1

def release (b : Reorder α) (a : α) : Reorder α := ⟨b.released ++ [a], b.stash⟩

def drain : ℕ → Reorder α → Reorder α
  | 0, b => b
  | fuel + 1, b =>
    match b.stash.lookup b.next with
    | none => b
    | some a => drain fuel (release ⟨b.released, b.stash.erase b.next⟩ a)

/-- Element `a`, numbered `n`, arrives at a buffer whose stash holds `cap` elements at
most. -/
def accept (cap n : ℕ) (a : α) (b : Reorder α) : Reorder α := if n < b.next then b
  else if n = b.next then drain b.stash.keys.length (b.release a)
  else if b.stash.keys.length < cap then ⟨b.released, b.stash.insert n a⟩
  else b

/-- What was released is a prefix of `l`; what waits are elements of `l`, under their
numbers, from `lo` on. -/
structure WithinFrom (l : List α) (lo : ℕ) (b : Reorder α) : Prop where
  released : b.released <+: l
  stashed : ∀ {k a}, b.stash.lookup k = some a → lo ≤ k ∧ l[k - 1]? = some a

/-- The invariant between two arrivals: the next element is not waiting. -/
def Within (l : List α) (b : Reorder α) : Prop := b.WithinFrom l (b.next + 1)

section

variable {l : List α} {b : Reorder α} {a : α} {n cap fuel : ℕ}

@[simp] theorem release_next (b : Reorder α) (a : α) : (b.release a).next = b.next + 1 := by
  unfold release next
  rw [List.length_append, List.length_singleton]

theorem empty_within (l : List α) : (empty : Reorder α).Within l where
  released := List.nil_prefix
  stashed h := by simp [empty] at h

/-! ## Releasing -/

theorem WithinFrom.released_eq {lo : ℕ} (h : b.WithinFrom l lo) : b.released = l.take b.released.length :=
  List.prefix_iff_eq_take.1 h.released

theorem WithinFrom.release {lo : ℕ} (h : b.WithinFrom l lo) (ha : l[b.next - 1]? = some a) :
    (b.release a).WithinFrom l lo where
  released := by
    have htake : l.take (b.released.length + 1) = b.released ++ [a] := by
      rw [List.take_add_one, ← h.released_eq]
      exact congrArg (b.released ++ ·) (congrArg Option.toList ha)
    unfold Reorder.release
    rw [← htake]
    exact List.take_prefix _ _
  stashed hk := h.stashed hk

theorem WithinFrom.erase_next (h : b.WithinFrom l b.next) :
    (⟨b.released, b.stash.erase b.next⟩ : Reorder α).WithinFrom l (b.next + 1) where
  released := h.released
  stashed {k a'} hk := by
    have hne : k ≠ b.next := by
      rintro rfl
      rw [AList.lookup_erase] at hk
      exact absurd hk (by simp)
    rw [AList.lookup_erase_ne hne] at hk
    obtain ⟨hle, hget⟩ := h.stashed hk
    exact ⟨by omega, hget⟩

/-! ## Draining -/

theorem drain_none (h : b.stash.lookup b.next = none) : drain fuel b = b := by
  cases fuel with
  | zero => rfl
  | succ fuel => rw [drain, h]

theorem WithinFrom.drain (fuel : ℕ) (h : b.WithinFrom l b.next) :
    (b.drain fuel).WithinFrom l (b.drain fuel).next ∧ b.next ≤ (b.drain fuel).next := by
  induction fuel generalizing b with
  | zero => exact ⟨h, Nat.le_refl _⟩
  | succ fuel ih =>
    cases hnext : b.stash.lookup b.next with
    | none =>
      rw [drain_none hnext]
      exact ⟨h, Nat.le_refl _⟩
    | some a =>
      let b' : Reorder α := Reorder.release ⟨b.released, b.stash.erase b.next⟩ a
      have hb' : b'.next = b.next + 1 := Reorder.release_next _ a
      have hrel : b'.WithinFrom l b'.next := by
        rw [hb']
        exact h.erase_next.release (h.stashed hnext).2
      obtain ⟨hwithin, hle⟩ := ih hrel
      rw [Reorder.drain, hnext]
      rw [hb'] at hle
      exact ⟨hwithin, Nat.le_of_succ_le hle⟩

/-- **Draining empties the way**: with as much fuel as the stash holds keys, the element
after the last one released is not in the stash. -/
theorem drain_done (h : b.stash.keys.length ≤ fuel) : (b.drain fuel).stash.lookup (b.drain fuel).next = none := by
  induction fuel generalizing b with
  | zero =>
    rw [AList.lookup_eq_none, AList.mem_keys, drain]
    rw [List.length_eq_zero_iff.1 (Nat.le_zero.1 h)]
    exact List.not_mem_nil
  | succ fuel ih =>
    cases hnext : b.stash.lookup b.next with
    | none =>
      rw [drain_none hnext]
      exact hnext
    | some a =>
      have hmem : b.next ∈ b.stash.keys := AList.mem_keys.1 (AList.lookup_isSome.1 (by rw [hnext]; rfl))
      rw [drain, hnext]
      refine ih ?_
      show (b.stash.erase b.next).keys.length ≤ fuel
      rw [AList.keys_erase, List.length_erase_of_mem hmem]
      omega

theorem WithinFrom.within (h : b.WithinFrom l b.next) (hnone : b.stash.lookup b.next = none) : b.Within l where
  released := h.released
  stashed {k a'} hk := by
    have hne : k ≠ b.next := by
      rintro rfl
      exact absurd (hnone.symm.trans hk) (by simp)
    obtain ⟨hle, hget⟩ := h.stashed hk
    exact ⟨by omega, hget⟩

/-! ## Arrivals -/

theorem Within.stash (h : b.Within l) (hn : b.next < n) (ha : l[n - 1]? = some a) :
    (⟨b.released, b.stash.insert n a⟩ : Reorder α).Within l where
  released := h.released
  stashed {k a'} hk := by
    by_cases hkn : k = n
    · rw [hkn, AList.lookup_insert] at hk
      rw [hkn, ← hk]
      exact ⟨hn, ha⟩
    · rw [AList.lookup_insert_ne hkn] at hk
      exact h.stashed hk

theorem Within.extend (h : b.Within l) (more : List α) : b.Within (l ++ more) where
  released := h.released.trans (List.prefix_append l more)
  stashed hk := by
    obtain ⟨hle, hget⟩ := h.stashed hk
    refine ⟨hle, ?_⟩
    rw [List.getElem?_append_left (List.getElem?_eq_some_iff.1 hget).1]
    exact hget

/-- **One arrival.** Whatever element of the sequence arrives, what is released stays a
prefix of the sequence and the frontier does not move back. -/
theorem Within.accept (h : b.Within l) (cap : ℕ) (ha : l[n - 1]? = some a) :
    (b.accept cap n a).Within l ∧ b.next ≤ (b.accept cap n a).next := by
  unfold Reorder.accept
  split
  · exact ⟨h, Nat.le_refl _⟩
  · split
    next hn =>
      -- the next element: release it, then whatever the stash holds behind it
      have hrel : (b.release a).WithinFrom l (b.release a).next := by
        rw [release_next]
        exact WithinFrom.release h (by rw [← hn]; exact ha)
      obtain ⟨hwithin, hle⟩ := hrel.drain b.stash.keys.length
      rw [release_next] at hle
      exact ⟨hwithin.within (drain_done (Nat.le_refl _)), Nat.le_of_succ_le hle⟩
    next hn =>
      split
      · exact ⟨h.stash (by omega) ha, Nat.le_refl _⟩
      · exact ⟨h, Nat.le_refl _⟩

end

end Reorder

end OpenGeni.Lib
