/-
Changing one element of a list, found from its end.

`modifyTail` changes the last element, `modifyLatest` the last one that meets a test. Both go well
with relations between lists: where related elements pass the same tests and stay related when
they are changed, so do related lists.
-/
import Mathlib

namespace OpenGeni.Lib

variable {α : Type*}

def modifyTail (f : α → α) : List α → List α
  | [] => []
  | [a] => [f a]
  | a :: b :: as => a :: modifyTail f (b :: as)

def modifyLatest (test : α → Bool) (f : α → α) : List α → List α
  | [] => []
  | a :: as => if as.any test then a :: modifyLatest test f as else if test a then f a :: as else a :: as

/-! ## Twice -/

section Twice

variable {test : α → Bool} {f g : α → α} {as : List α} {a : α}

theorem modifyTail_concat : modifyTail f (as ++ [a]) = as ++ [f a] := by
  induction as with
  | nil => rfl
  | cons b as ih =>
    cases as with
    | nil => rfl
    | cons c as => exact congrArg (b :: ·) ih

theorem getLast?_modifyTail : (modifyTail f as).getLast? = as.getLast?.map f := by
  rcases as.eq_nil_or_concat with rfl | ⟨init, a, rfl⟩
  · rfl
  · rw [List.concat_eq_append, modifyTail_concat, List.getLast?_concat, List.getLast?_concat]
    rfl

theorem modifyTail_modifyTail : modifyTail g (modifyTail f as) = modifyTail (g ∘ f) as := by
  rcases as.eq_nil_or_concat with rfl | ⟨init, a, rfl⟩
  · rfl
  · rw [List.concat_eq_append, modifyTail_concat, modifyTail_concat, modifyTail_concat]
    rfl

theorem any_modifyLatest {other : α → Bool} (h : ∀ a, other (f a) = other a) :
    (modifyLatest test f as).any other = as.any other := by
  fun_induction modifyLatest test f as with
  | case1 => rfl
  | case2 a as hany ih => rw [List.any_cons, List.any_cons, ih]
  | case3 a as hany htest => rw [List.any_cons, List.any_cons, h]
  | case4 a as hany htest => rfl

theorem modifyLatest_modifyLatest (h : ∀ a, test (f a) = test a) :
    modifyLatest test g (modifyLatest test f as) = modifyLatest test (g ∘ f) as := by
  induction as with
  | nil => rfl
  | cons a as ih =>
    rw [modifyLatest, modifyLatest]
    by_cases hany : as.any test = true
    · rw [if_pos hany, if_pos hany, modifyLatest, any_modifyLatest h, if_pos hany, ih]
    · rw [if_neg hany, if_neg hany]
      by_cases htest : test a = true
      · rw [if_pos htest, if_pos htest, modifyLatest, if_neg hany, if_pos (by rw [h, htest])]
        rfl
      · rw [if_neg htest, if_neg htest, modifyLatest, if_neg hany, if_neg htest]

end Twice

/-! ## What changes -/

section Changes

variable {β : Type*} {test : α → Bool} {f : α → α} {g : α → β} {as : List α}

theorem modifyLatest_split (h : as.any test = true) :
    ∃ front a back, as = front ++ a :: back ∧ test a = true ∧ as.reverse.find? test = some a ∧
      modifyLatest test f as = front ++ f a :: back := by
  induction as with
  | nil => cases h
  | cons b as ih =>
    rw [modifyLatest]
    by_cases hany : as.any test = true
    · obtain ⟨front, a, back, rfl, htest, hfind, hmodify⟩ := ih hany
      refine ⟨b :: front, a, back, rfl, htest, ?_, ?_⟩
      · rw [List.reverse_cons, List.find?_append, hfind]
        rfl
      · rw [if_pos hany, hmodify]
        rfl
    · have hb : test b = true := by simpa [hany] using h
      refine ⟨[], b, as, rfl, hb, ?_, ?_⟩
      · have hnone : as.reverse.find? test = none := by simpa using hany
        rw [List.reverse_cons, List.find?_append, hnone]
        simp [hb]
      · rw [if_neg hany, if_pos hb]
        rfl

theorem modifyLatest_none (h : as.any test = false) : modifyLatest test f as = as := by
  induction as with
  | nil => rfl
  | cons b as ih =>
    obtain ⟨hb, hany⟩ : test b = false ∧ as.any test = false := by
      simpa only [List.any_cons, Bool.or_eq_false_iff] using h
    rw [modifyLatest, if_neg (by rw [hany]; decide), if_neg (by rw [hb]; decide)]

@[simp] theorem length_modifyLatest : (modifyLatest test f as).length = as.length := by
  cases hany : as.any test with
  | false => rw [modifyLatest_none hany]
  | true =>
    obtain ⟨front, a, back, rfl, -, -, hmodify⟩ := modifyLatest_split (f := f) hany
    rw [hmodify]
    simp

theorem changed_modifyLatest {i : ℕ} {a a' : α} (ha : as[i]? = some a)
    (ha' : (modifyLatest test f as)[i]? = some a') (hne : a' ≠ a) : as.reverse.find? test = some a := by
  cases hany : as.any test with
  | false =>
    rw [modifyLatest_none hany] at ha'
    exact absurd (Option.some.inj (ha'.symm.trans ha)) hne
  | true =>
    obtain ⟨front, b, back, rfl, -, hfind, hmodify⟩ := modifyLatest_split (f := f) hany
    rw [hmodify] at ha'
    rcases Nat.lt_trichotomy i front.length with hlt | rfl | hgt
    · rw [List.getElem?_append_left hlt] at ha ha'
      exact absurd (Option.some.inj (ha'.symm.trans ha)) hne
    · rw [List.getElem?_append_right (le_refl _), Nat.sub_self, List.getElem?_cons_zero] at ha
      rw [hfind, ha]
    · obtain ⟨k, hk⟩ : ∃ k, i - front.length = k + 1 := ⟨i - front.length - 1, by omega⟩
      rw [List.getElem?_append_right hgt.le, hk, List.getElem?_cons_succ] at ha ha'
      exact absurd (Option.some.inj (ha'.symm.trans ha)) hne

theorem map_modifyTail (h : ∀ a, g (f a) = g a) : (modifyTail f as).map g = as.map g := by
  rcases as.eq_nil_or_concat with rfl | ⟨init, a, rfl⟩
  · rfl
  · rw [List.concat_eq_append, modifyTail_concat, List.map_append, List.map_append, List.map_singleton,
      List.map_singleton, h]

theorem map_modifyLatest (h : ∀ a, g (f a) = g a) : (modifyLatest test f as).map g = as.map g := by
  cases hany : as.any test with
  | false => rw [modifyLatest_none hany]
  | true =>
    obtain ⟨front, a, back, rfl, -, -, hmodify⟩ := modifyLatest_split (f := f) hany
    rw [hmodify, List.map_append, List.map_append, List.map_cons, List.map_cons, h]

end Changes

/-! ## Related lists -/

section Related

variable {R : α → α → Prop} {test : α → Bool} {f : α → α} {as bs : List α}

theorem any_related (htest : ∀ a b, R a b → test a = test b) (h : List.Forall₂ R as bs) :
    as.any test = bs.any test := by
  induction h with
  | nil => rfl
  | cons hab h ih => rw [List.any_cons, List.any_cons, htest _ _ hab, ih]

theorem getLast?_related (htest : ∀ a b, R a b → test a = test b) (h : List.Forall₂ R as bs) :
    as.getLast?.any test = bs.getLast?.any test := by
  induction h with
  | nil => rfl
  | @cons a b as bs hab h ih =>
    cases h with
    | nil => exact htest a b hab
    | cons hab' h => rw [List.getLast?_cons_cons, List.getLast?_cons_cons, ih]

theorem modifyTail_related (hf : ∀ a b, R a b → R (f a) (f b)) (h : List.Forall₂ R as bs) :
    List.Forall₂ R (modifyTail f as) (modifyTail f bs) := by
  induction h with
  | nil => exact .nil
  | cons hab h ih =>
    cases h with
    | nil => exact .cons (hf _ _ hab) .nil
    | cons hab' h => exact .cons hab ih

theorem modifyLatest_related (htest : ∀ a b, R a b → test a = test b)
    (hf : ∀ a b, R a b → R (f a) (f b)) (h : List.Forall₂ R as bs) :
    List.Forall₂ R (modifyLatest test f as) (modifyLatest test f bs) := by
  induction h with
  | nil => exact .nil
  | @cons a b as bs hab h ih =>
    rw [modifyLatest, modifyLatest, any_related htest h, htest a b hab]
    split
    · exact .cons hab ih
    · split
      · exact .cons (hf a b hab) h
      · exact .cons hab h

theorem find?_related {other : α → Bool} (htest : ∀ a b, R a b → test a = test b)
    (hother : ∀ a b, R a b → other a = other b) (h : List.Forall₂ R as bs) :
    (as.find? test).any other = (bs.find? test).any other := by
  induction h with
  | nil => rfl
  | @cons a b as bs hab h ih =>
    rw [List.find?_cons, List.find?_cons, htest a b hab]
    cases test b with
    | true => exact hother a b hab
    | false => exact ih

theorem findSome?_related {β : Type*} {g : α → Option β} (hg : ∀ a b, R a b → g a = g b)
    (h : List.Forall₂ R as bs) : as.findSome? g = bs.findSome? g := by
  induction h with
  | nil => rfl
  | cons hab h ih => rw [List.findSome?_cons, List.findSome?_cons, hg _ _ hab, ih]

end Related

end OpenGeni.Lib
