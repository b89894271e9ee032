/-
A table of parties at work.

The workers, the sweeps and the boxes of a system come and go under a key of their own. A
table keeps what each of them is at, with at most one entry a key among those that were put.
What a proof needs of it is what holds of every entry.
-/
import Mathlib

namespace OpenGeni.Lib

abbrev Slots (κ α : Type*) := List (κ × α)

namespace Slots

variable {κ α : Type*} [DecidableEq κ] {k k' : κ} {a b : α} {l : Slots κ α}

def get (k : κ) (l : Slots κ α) : Option α := (l.find? fun e => e.1 = k).map Prod.snd

def drop (k : κ) (l : Slots κ α) : Slots κ α := l.filter fun e => e.1 ≠ k

def put (k : κ) (a : α) (l : Slots κ α) : Slots κ α := (k, a) :: drop k l

theorem mem_of_get (h : get k l = some a) : (k, a) ∈ l := by
  obtain ⟨e, hfind, rfl⟩ := Option.map_eq_some_iff.1 h
  have hkey : e.1 = k := by simpa using List.find?_some hfind
  exact hkey ▸ List.mem_of_find?_eq_some hfind

variable {e : κ × α}

theorem mem_of_mem_drop (h : e ∈ drop k l) : e ∈ l := List.mem_of_mem_filter h

theorem mem_put (h : e ∈ put k a l) : e = (k, a) ∨ e ∈ l := (List.mem_cons.1 h).imp id mem_of_mem_drop

@[simp] theorem get_put : get k (put k a l) = some a := by
  simp [get, put]

@[simp] theorem get_drop_self : get k (drop k l) = none := by
  simp [get, drop]

theorem get_drop_of_ne (h : k' ≠ k) : get k' (drop k l) = get k' l := by
  unfold get drop
  rw [List.find?_filter]
  congr 2
  funext e
  by_cases he : e.1 = k'
  · simp [he, h]
  · simp [he]

theorem get_put_of_ne (h : k' ≠ k) : get k' (put k a l) = get k' l := by
  have hrest : get k' (drop k l) = get k' l := get_drop_of_ne h
  unfold get at hrest ⊢
  unfold put
  rw [List.find?_cons_of_neg (by simpa using fun hk => h hk.symm), hrest]

theorem get_of_get_drop (h : get k' (drop k l) = some a) : get k' l = some a := by
  by_cases hne : k' = k
  · subst hne
    rw [get_drop_self] at h
    cases h
  · rwa [get_drop_of_ne hne] at h

theorem get_put_cases (h : get k' (put k a l) = some b) : k' = k ∧ b = a ∨ k' ≠ k ∧ get k' l = some b := by
  by_cases hne : k' = k
  · subst hne
    rw [get_put] at h
    exact .inl ⟨rfl, (Option.some.inj h).symm⟩
  · exact .inr ⟨hne, (get_put_of_ne hne).symm.trans h⟩

theorem forall_put {P : α → Prop} (hl : ∀ e ∈ l, P e.2) (ha : P a) : ∀ e ∈ put k a l, P e.2 := by
  intro e he
  obtain rfl | he := mem_put he
  · exact ha
  · exact hl e he

theorem forall_drop {P : α → Prop} (hl : ∀ e ∈ l, P e.2) : ∀ e ∈ drop k l, P e.2 :=
  fun e he => hl e (mem_of_mem_drop he)

/-! ## Entries under keys of their own -/

theorem mem_put_cases (h : e ∈ put k a l) : e = (k, a) ∨ e.1 ≠ k ∧ e ∈ l := by
  obtain rfl | hold := List.mem_cons.1 h
  · exact .inl rfl
  · obtain ⟨hmem, hne⟩ := List.mem_filter.1 hold
    exact .inr ⟨of_decide_eq_true hne, hmem⟩

theorem mem_put_self : (k, a) ∈ put k a l := List.mem_cons_self

theorem mem_put_of_ne (h : e ∈ l) (hne : e.1 ≠ k) : e ∈ put k a l :=
  List.mem_cons_of_mem _ (List.mem_filter.2 ⟨h, decide_eq_true hne⟩)

def Unique (l : Slots κ α) : Prop := ∀ e ∈ l, ∀ e' ∈ l, e.1 = e'.1 → e = e'

omit [DecidableEq κ] in
theorem Unique.nil : Unique ([] : Slots κ α) := List.forall_mem_nil _

theorem Unique.put (h : Unique l) : Unique (put k a l) := by
  intro e he e' he' heq
  obtain rfl | ⟨hne, hmem⟩ := mem_put_cases he
  · obtain rfl | ⟨hne', -⟩ := mem_put_cases he'
    · rfl
    · exact absurd heq.symm hne'
  · obtain rfl | ⟨-, hmem'⟩ := mem_put_cases he'
    · exact absurd heq hne
    · exact h e hmem e' hmem' heq

theorem Unique.get_of_mem (h : Unique l) (he : e ∈ l) : get e.1 l = some e.2 := by
  cases hget : get e.1 l with
  | none =>
    unfold get at hget
    rw [Option.map_eq_none_iff, List.find?_eq_none] at hget
    exact absurd (decide_eq_true rfl) (hget e he)
  | some a => rw [h e he (e.1, a) (mem_of_get hget) rfl]

theorem Unique.eq_of_get (h : Unique l) (hget : get k l = some a) (he : e ∈ l) (hkey : e.1 = k) : e.2 = a :=
  congrArg Prod.snd (h e he (k, a) (mem_of_get hget) hkey)

end Slots

end OpenGeni.Lib
