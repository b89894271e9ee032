/-
Following a view by its length.

A writer follows a list that is computed anew each time. It keeps no copy: it knows how many
elements it has written, and it writes what the view has beyond that number. What it has
written is the view exactly if each view begins with the view before (`foldl_catchUp_iff`).
-/
import Mathlib.Data.List.Chain

namespace OpenGeni.Lib

variable {α : Type*} {written view : List α}

def catchUp (written view : List α) : List α := written ++ view.drop written.length

theorem catchUp_length (written view : List α) :
    (catchUp written view).length = max written.length view.length := by
  unfold catchUp
  rw [List.length_append, List.length_drop]
  omega

theorem prefix_catchUp (written view : List α) : written <+: catchUp written view := List.prefix_append _ _

theorem catchUp_eq_iff : catchUp written view = view ↔ written <+: view := by
  constructor
  · intro h
    rw [← h]
    exact prefix_catchUp written view
  · rintro ⟨rest, rfl⟩
    unfold catchUp
    rw [List.drop_left]

/-- **Each view is written** exactly if each begins with the one before. -/
theorem foldl_catchUp_iff (written : List α) (views : List (List α)) :
    (∀ done view rest, views = done ++ view :: rest → (done ++ [view]).foldl catchUp written = view) ↔
      (written :: views).IsChain (· <+: ·) := by
  induction views generalizing written with
  | nil =>
    refine iff_of_true ?_ (.singleton _)
    intro done view rest h
    exact absurd h.symm (by simp)
  | cons first views ih =>
    rw [List.isChain_cons_cons, ← ih]
    constructor
    · intro h
      have hfirst : catchUp written first = first := h [] first views rfl
      refine ⟨catchUp_eq_iff.1 hfirst, ?_⟩
      intro done view rest hviews
      have hlater := h (first :: done) view rest (by rw [hviews, List.cons_append])
      rw [List.cons_append, List.foldl_cons, hfirst] at hlater
      exact hlater
    · rintro ⟨hinit, hlater⟩ done view rest hviews
      have hfirst := catchUp_eq_iff.2 hinit
      cases done with
      | nil =>
        obtain ⟨rfl, -⟩ := List.cons_eq_cons.1 hviews
        exact hfirst
      | cons before done =>
        obtain ⟨rfl, hrest⟩ := List.cons_eq_cons.1 hviews
        rw [List.cons_append, List.foldl_cons, hfirst]
        exact hlater done view rest hrest

end OpenGeni.Lib
