/-
An append-only sequence with a cumulative acknowledgement floor.

The purpose of a retention log, stated without any representation: everything
ever appended, numbered from 1, and a floor below which the consumer has
confirmed receipt. An acknowledgement is cumulative, takes effect only forward
and never passes the end.
-/
import OpenGeni.Lib.Numbered

namespace OpenGeni.Lib

/-- Everything appended so far and the highest number acknowledged. -/
@[ext] structure AckLog (α : Type*) where
  appended : List α
  floor : ℕ
  floor_le : floor ≤ appended.length

namespace AckLog

variable {α : Type*}

def empty : AckLog α := ⟨[], 0, Nat.le_refl 0⟩

def high (m : AckLog α) : ℕ := m.appended.length

/-- Append one element; it gets the number `high + 1`. -/
def append (m : AckLog α) (a : α) : AckLog α where
  appended := m.appended ++ [a]
  floor := m.floor
  floor_le := by rw [List.length_append]; exact Nat.le_add_right_of_le m.floor_le

/-- A cumulative acknowledgement through `n`. -/
def ack (m : AckLog α) (n : ℕ) : AckLog α where
  appended := m.appended
  floor := max m.floor (min n m.high)
  floor_le := Nat.max_le.2 ⟨m.floor_le, Nat.min_le_right _ _⟩

/-- The elements numbered in `(lo, hi]`. -/
def between (m : AckLog α) (lo hi : ℕ) : List α := (m.appended.take hi).drop lo

def retained (m : AckLog α) : List α := m.appended.drop m.floor

@[simp] theorem append_high (m : AckLog α) (a : α) : (m.append a).high = m.high + 1 := by
  rw [high, append, List.length_append, List.length_singleton, high]

theorem append_retained (m : AckLog α) (a : α) : (m.append a).retained = m.retained ++ [a] :=
  List.drop_append_of_le_length m.floor_le

theorem ack_retained (m : AckLog α) (n : ℕ) : (m.ack n).retained = m.retained.drop (min n m.high - m.floor) := by
  rw [retained, retained, List.drop_drop, ack]
  congr 1
  dsimp only
  omega

theorem retained_eq_between (m : AckLog α) : m.retained = m.between m.floor m.high := by
  rw [between, high, List.take_length, retained]

/-! ## Weights of ranges -/

/-- The total weight of the elements numbered in `(lo, hi]`. -/
def weight (w : α → ℕ) (m : AckLog α) (lo hi : ℕ) : ℕ := ((m.between lo hi).map w).sum

section Weight

variable (w : α → ℕ) (m : AckLog α)

theorem weight_eq_zero {lo hi : ℕ} (h : hi ≤ lo) : m.weight w lo hi = 0 := by
  have hnil : m.between lo hi = [] := by
    refine List.drop_eq_nil_of_le ?_
    rw [List.length_take]
    exact Nat.le_trans (Nat.min_le_left _ _) h
  rw [weight, hnil]
  rfl

theorem weight_split {lo mid hi : ℕ} (hlo : lo ≤ mid) (hhi : mid ≤ hi) :
    m.weight w lo hi = m.weight w lo mid + m.weight w mid hi := by
  have hcut : (m.appended.take hi).drop lo = (m.appended.take mid).drop lo ++ (m.appended.take hi).drop mid := by
    have hmid : (m.appended.take hi).take mid = m.appended.take mid := by
      rw [List.take_take, Nat.min_eq_left hhi]
    have hparts := List.take_append_drop (mid - lo) ((m.appended.take hi).drop lo)
    rw [← List.drop_take, hmid, List.drop_drop, Nat.add_sub_cancel' hlo] at hparts
    exact hparts.symm
  simp only [weight, between, hcut, List.map_append, List.sum_append]

theorem append_weight (a : α) {lo hi : ℕ} (h : hi ≤ m.high) : (m.append a).weight w lo hi = m.weight w lo hi := by
  simp only [weight, between, append, List.take_append_of_le_length h]

@[simp] theorem ack_weight (n lo hi : ℕ) : (m.ack n).weight w lo hi = m.weight w lo hi := rfl

theorem weight_min_high (lo hi : ℕ) : m.weight w lo (min hi m.high) = m.weight w lo hi := by
  simp only [weight, between, high, ← List.take_take, List.take_length]

end Weight

@[simp] theorem ack_high (m : AckLog α) (n : ℕ) : (m.ack n).high = m.high := rfl

@[simp] theorem append_floor (m : AckLog α) (a : α) : (m.append a).floor = m.floor := rfl

@[simp] theorem ack_floor (m : AckLog α) (n : ℕ) : (m.ack n).floor = max m.floor (min n m.high) := rfl

end AckLog

end OpenGeni.Lib
