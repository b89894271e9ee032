/-
Rows that point to the row that took their place.

A row that is replaced is given a pointer to its successor. As long as the successor points
nowhere at that moment, whoever follows the pointers arrives: a pointer is never set from a row
that is on the way to itself.
-/
import Mathlib

namespace OpenGeni.Lib

variable {α : Type*}

/-- `a` points to `b`. -/
def Forwards (next : α → Option α) (a b : α) : Prop := next a = some b

def Acyclic (next : α → Option α) : Prop := ∀ a, ¬ Relation.TransGen (Forwards next) a a

section

variable [DecidableEq α] {next : α → Option α} {a w x y : α}

theorem transGen_update (hend : next w = none) (hne : w ≠ a)
    (h : Relation.TransGen (Forwards (Function.update next a (some w))) x y) :
    Relation.TransGen (Forwards next) x y ∨ y = w := by
  have hedge : ∀ {b c : α}, Forwards (Function.update next a (some w)) b c → Forwards next b c ∨ c = w := by
    intro b c hbc
    unfold Forwards at hbc
    by_cases hb : b = a
    · rw [hb, Function.update_self] at hbc
      exact Or.inr (Option.some.inj hbc).symm
    · rw [Function.update_of_ne hb] at hbc
      exact Or.inl hbc
  induction h with
  | single hxy => exact (hedge hxy).imp .single id
  | tail _ hbc ih =>
    obtain hold | rfl := ih
    · exact (hedge hbc).imp hold.tail id
    · -- the successor itself points nowhere
      unfold Forwards at hbc
      rw [Function.update_of_ne hne, hend] at hbc
      contradiction

/-- **Forwarding to the end of a way keeps the pointers acyclic.** -/
theorem Acyclic.forward (h : Acyclic next) (hend : next w = none) (hne : w ≠ a) :
    Acyclic (Function.update next a (some w)) := by
  intro x hcycle
  obtain hold | rfl := transGen_update hend hne hcycle
  · exact h x hold
  · obtain ⟨b, hfirst, -⟩ := Relation.TransGen.head'_iff.1 hcycle
    unfold Forwards at hfirst
    rw [Function.update_of_ne hne, hend] at hfirst
    contradiction

end

theorem acyclic_of_none {next : α → Option α} (h : ∀ a, next a = none) : Acyclic next := by
  intro a hcycle
  obtain ⟨b, hfirst, -⟩ := Relation.TransGen.head'_iff.1 hcycle
  unfold Forwards at hfirst
  rw [h] at hfirst
  contradiction

end OpenGeni.Lib
