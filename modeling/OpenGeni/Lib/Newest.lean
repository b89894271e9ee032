/-
Keeping the newest entries of a table.

Entries have a number. An entry may be removed when at least `n` entries with a greater
number exist; then the `n` newest entries always stay, however removals planned at
different times are interleaved with insertions.
-/
import Mathlib.Data.List.MinMax
import Mathlib.Data.List.Sort

namespace OpenGeni.Lib

variable {α : Type*} (key : α → ℕ)

def newer (xs : List α) (x : α) : List α := xs.filter fun y => decide (key x < key y)

variable {key} {xs ys : List α} {x : α} {n : ℕ}

theorem mem_newer {y : α} : y ∈ newer key xs x ↔ y ∈ xs ∧ key x < key y := by
  unfold newer
  rw [List.mem_filter, decide_eq_true_eq]

theorem length_newer : (newer key xs x).length = xs.countP fun y => decide (key x < key y) :=
  List.countP_eq_length_filter.symm

theorem newer_perm (h : xs.Perm ys) : (newer key xs x).length = (newer key ys x).length := (h.filter _).length_eq

theorem le_newer_append (h : n ≤ (newer key xs x).length) (ys : List α) : n ≤ (newer key (xs ++ ys) x).length := by
  unfold newer at h ⊢
  rw [List.filter_append, List.length_append]
  exact h.trans (Nat.le_add_right _ _)

theorem newer_le_newer_filter {keep : α → Bool} {d : α}
    (h : ∀ y ∈ xs, key d < key y → keep y = true ∧ key x < key y) :
    (newer key xs d).length ≤ (newer key (xs.filter keep) x).length := by
  rw [length_newer, length_newer, List.countP_filter]
  apply List.countP_mono_left
  intro y hy hlt
  obtain ⟨hkeep, hx⟩ := h y hy (of_decide_eq_true hlt)
  rw [Bool.and_eq_true]
  exact ⟨decide_eq_true hx, hkeep⟩

/-- **Removals leave the newest.** If each removed entry has `n` newer ones, so has each entry
that had `n` newer ones before. -/
theorem le_newer_filter {keep : α → Bool} (hremoved : ∀ d ∈ xs, keep d = false → n ≤ (newer key xs d).length)
    (hx : n ≤ (newer key xs x).length) : n ≤ (newer key (xs.filter keep) x).length := by
  -- the newest of the removed entries that are newer than `x`, if there is one
  cases hmax : ((newer key xs x).filter fun y => !keep y).argmax key with
  | none =>
    have hnone := List.argmax_eq_none.1 hmax
    refine hx.trans (newer_le_newer_filter fun y hy hlt => ⟨?_, hlt⟩)
    have hkept := List.filter_eq_nil_iff.1 hnone y (mem_newer.2 ⟨hy, hlt⟩)
    rw [Bool.not_eq_true', Bool.not_eq_false] at hkept
    exact hkept
  | some d =>
    have hd := List.mem_filter.1 (List.argmax_mem hmax)
    have hnewer := mem_newer.1 hd.1
    have hgone : keep d = false := by
      rw [← Bool.not_eq_true']
      exact hd.2
    refine (hremoved d hnewer.1 hgone).trans (newer_le_newer_filter fun y hy hlt => ?_)
    have hxy : key x < key y := hnewer.2.trans hlt
    refine ⟨?_, hxy⟩
    by_contra hdropped
    have hmem : y ∈ (newer key xs x).filter fun y => !keep y := by
      refine List.mem_filter.2 ⟨mem_newer.2 ⟨hy, hxy⟩, ?_⟩
      rw [Bool.not_eq_true', ← Bool.not_eq_true]
      exact hdropped
    exact absurd (List.le_of_mem_argmax hmem hmax) (Nat.not_le.2 hlt)

theorem le_newer_of_mem_drop (hsorted : xs.Pairwise fun a b => key b < key a) (hx : x ∈ xs.drop n) :
    n ≤ (newer key xs x).length := by
  have hlength : (xs.take n).length = n := by
    rw [List.length_take]
    apply Nat.min_eq_left
    by_contra hshort
    rw [List.drop_eq_nil_of_le (Nat.le_of_not_le hshort)] at hx
    cases hx
  have hall : (xs.take n).countP (fun y => decide (key x < key y)) = (xs.take n).length := by
    apply List.countP_eq_length.2
    intro y hy
    rw [← List.take_append_drop n xs] at hsorted
    exact decide_eq_true ((List.pairwise_append.1 hsorted).2.2 y hy x hx)
  rw [length_newer, ← List.take_append_drop n xs, List.countP_append, hall, hlength]
  exact Nat.le_add_right _ _

end OpenGeni.Lib
