/-
Filtering a list by what stands around each element.

`sift keep` asks `keep` about an element together with everything before it and
everything after it. A place in the result is a place in the list (`sift_split`), and
what stands on either side of it in the result was kept from that side (`mem_siftIn`).
-/
import Mathlib

namespace OpenGeni.Lib

variable {α : Type*}

/-- What is kept of `l`, where it stands between `pre` and `post`. -/
def siftIn (keep : List α → α → List α → Bool) : List α → List α → List α → List α
  | _, [], _ => []
  | pre, a :: l, post =>
    if keep pre a (l ++ post) then a :: siftIn keep (pre ++ [a]) l post
    else siftIn keep (pre ++ [a]) l post

/-- What is kept of `l`. -/
def sift (keep : List α → α → List α → Bool) (l : List α) : List α := siftIn keep [] l []

variable {keep keep' : List α → α → List α → Bool} {pre l l' post p q : List α} {a b : α}

theorem siftIn_append : siftIn keep pre (l ++ l') post
    = siftIn keep pre l (l' ++ post) ++ siftIn keep (pre ++ l) l' post := by
  induction l generalizing pre with
  | nil => rw [List.nil_append, List.append_nil, siftIn, List.nil_append]
  | cons a l ih =>
    simp only [List.cons_append, siftIn, List.append_assoc]
    split_ifs
    · rw [ih, List.cons_append, List.append_assoc]
      rfl
    · rw [ih, List.append_assoc]
      rfl

theorem siftIn_sublist : (siftIn keep pre l post).Sublist l := by
  induction l generalizing pre with
  | nil => exact List.Sublist.refl _
  | cons a l ih =>
    unfold siftIn
    split_ifs
    · exact ih.cons_cons a
    · exact ih.cons a

theorem mem_siftIn : b ∈ siftIn keep pre l post ↔
    ∃ l₁ l₂, l = l₁ ++ b :: l₂ ∧ keep (pre ++ l₁) b (l₂ ++ post) = true := by
  constructor
  · intro hb
    induction l generalizing pre with
    | nil => simp [siftIn] at hb
    | cons a l ih =>
      -- Either `b` is the head, or it is kept of the rest.
      have hcases : b = a ∧ keep pre a (l ++ post) = true ∨ b ∈ siftIn keep (pre ++ [a]) l post := by
        unfold siftIn at hb
        split_ifs at hb with hkeep
        · rcases List.mem_cons.1 hb with rfl | hb
          · exact Or.inl ⟨rfl, hkeep⟩
          · exact Or.inr hb
        · exact Or.inr hb
      rcases hcases with ⟨rfl, hkeep⟩ | hrest
      · exact ⟨[], l, rfl, by simpa using hkeep⟩
      · obtain ⟨l₁, l₂, rfl, hkeep⟩ := ih hrest
        exact ⟨a :: l₁, l₂, rfl, by simpa using hkeep⟩
  · rintro ⟨l₁, l₂, rfl, hkeep⟩
    rw [siftIn_append, siftIn, if_pos hkeep]
    simp

/-- **A place in the result is a place in the list.** -/
theorem siftIn_split (h : siftIn keep pre l post = p ++ a :: q) :
    ∃ l₁ l₂, l = l₁ ++ a :: l₂ ∧ keep (pre ++ l₁) a (l₂ ++ post) = true ∧
      p = siftIn keep pre l₁ (a :: l₂ ++ post) ∧ q = siftIn keep (pre ++ l₁ ++ [a]) l₂ post := by
  induction l generalizing pre p with
  | nil => simp [siftIn] at h
  | cons b l ih =>
    unfold siftIn at h
    split_ifs at h with hkeep
    · cases p with
      | nil =>
        obtain ⟨rfl, rfl⟩ := List.cons_eq_cons.1 h
        exact ⟨[], l, rfl, by simpa using hkeep, rfl, by rw [List.append_nil]⟩
      | cons c p =>
        obtain ⟨rfl, hrest⟩ := List.cons_eq_cons.1 h
        obtain ⟨l₁, l₂, rfl, ha, rfl, rfl⟩ := ih hrest
        refine ⟨b :: l₁, l₂, rfl, by simpa using ha, ?_, by simp⟩
        rw [siftIn, if_pos (by simpa using hkeep)]
    · obtain ⟨l₁, l₂, rfl, ha, rfl, rfl⟩ := ih h
      refine ⟨b :: l₁, l₂, rfl, by simpa using ha, ?_, by simp⟩
      rw [siftIn, if_neg (by simpa using hkeep)]

theorem sift_split (h : sift keep l = p ++ a :: q) : ∃ l₁ l₂, l = l₁ ++ a :: l₂ ∧ keep l₁ a l₂ = true ∧
      p = siftIn keep [] l₁ (a :: l₂) ∧ q = siftIn keep (l₁ ++ [a]) l₂ [] := by
  obtain ⟨l₁, l₂, hl, hkeep, hp, hq⟩ := siftIn_split h
  simp only [List.nil_append, List.append_nil] at hkeep hp hq
  exact ⟨l₁, l₂, hl, hkeep, hp, hq⟩

theorem siftIn_append_cons (hkeep : keep (pre ++ l) a (l' ++ post) = true) : siftIn keep pre (l ++ a :: l') post
      = siftIn keep pre l (a :: l' ++ post) ++ a :: siftIn keep (pre ++ l ++ [a]) l' post := by
  rw [siftIn_append, siftIn, if_pos hkeep]

theorem sift_append_cons (hkeep : keep l a l' = true) :
    sift keep (l ++ a :: l') = siftIn keep [] l (a :: l') ++ a :: siftIn keep (l ++ [a]) l' [] := by
  have hsplit : siftIn keep [] (l ++ a :: l') []
      = siftIn keep [] l (a :: l' ++ []) ++ a :: siftIn keep ([] ++ l ++ [a]) l' [] := by
    apply siftIn_append_cons
    rw [List.nil_append, List.append_nil]
    exact hkeep
  rwa [List.append_nil, List.nil_append] at hsplit

theorem sift_congr (h : ∀ l₁ a l₂, l = l₁ ++ a :: l₂ → keep l₁ a l₂ = keep' l₁ a l₂) :
    sift keep l = sift keep' l := by
  have hin : ∀ pre l', l = pre ++ l' → siftIn keep pre l' [] = siftIn keep' pre l' [] := by
    intro pre l' hl
    induction l' generalizing pre with
    | nil => rfl
    | cons a l' ih =>
      have hrest := ih (pre ++ [a]) (by simpa using hl)
      unfold siftIn
      rw [List.append_nil, h pre a l' hl, hrest]
  exact hin [] l rfl

theorem sift_eq_self_iff : sift keep l = l ↔ ∀ l₁ a l₂, l = l₁ ++ a :: l₂ → keep l₁ a l₂ = true := by
  constructor
  · rintro h l₁ a l₂ rfl
    by_contra hno
    -- One place not kept makes the result shorter.
    have hlen := congrArg List.length h
    unfold sift at hlen
    rw [siftIn_append, siftIn, List.nil_append, List.append_nil, List.append_nil, if_neg hno] at hlen
    have hle : (siftIn keep [] l₁ (a :: l₂)).length ≤ l₁.length := siftIn_sublist.length_le
    have hle' : (siftIn keep (l₁ ++ [a]) l₂ []).length ≤ l₂.length := siftIn_sublist.length_le
    simp only [List.length_append, List.length_cons] at hlen hle hle'
    omega
  · intro h
    have hall : sift keep l = sift (fun _ _ _ => true) l := sift_congr h
    have hin : ∀ pre l' : List α, siftIn (fun _ _ _ => true) pre l' [] = l' := by
      intro pre l'
      induction l' generalizing pre with
      | nil => rfl
      | cons a l' ih => rw [siftIn, if_pos rfl, ih]
    rw [hall]
    exact hin [] l

/-- `q` holds at the place `i` of the list. -/
def AtPlace (q : List α → α → List α → Prop) (l : List α) (i : ℕ) : Prop :=
  ∃ pre a post, l = pre ++ a :: post ∧ pre.length = i ∧ q pre a post

theorem not_atPlace_nil {q : List α → α → List α → Prop} {i : ℕ} : ¬ AtPlace q [] i := by
  rintro ⟨pre, a, post, hl, -⟩
  simp at hl

theorem atPlace_split {q : List α → α → List α → Prop} : AtPlace q (l ++ a :: l') l.length ↔ q l a l' := by
  constructor
  · rintro ⟨pre, b, post, hl, hlen, hq⟩
    obtain ⟨rfl, hrest⟩ := List.append_inj hl hlen.symm
    obtain ⟨rfl, rfl⟩ := List.cons_eq_cons.1 hrest
    exact hq
  · intro hq
    exact ⟨l, a, l', rfl, rfl, hq⟩

theorem atPlace_concat {q : List α → α → Prop} {i : ℕ} : AtPlace (fun pre a _ => q pre a) (l ++ [a]) i ↔
      AtPlace (fun pre a _ => q pre a) l i ∨ i = l.length ∧ q l a := by
  constructor
  · rintro ⟨pre, b, post, hl, rfl, hq⟩
    rcases List.eq_nil_or_concat post with rfl | ⟨post, d, rfl⟩
    · obtain ⟨rfl, hlast⟩ := List.append_inj' hl rfl
      obtain rfl : a = b := List.singleton_inj.1 hlast
      exact Or.inr ⟨rfl, hq⟩
    · rw [List.concat_eq_append, ← List.cons_append, ← List.append_assoc] at hl
      obtain ⟨rfl, -⟩ := List.append_inj' hl rfl
      exact Or.inl ⟨pre, b, post, rfl, rfl, hq⟩
  · rintro (⟨pre, b, post, rfl, rfl, hq⟩ | ⟨rfl, hq⟩)
    · exact ⟨pre, b, post ++ [a], by simp, rfl, hq⟩
    · exact ⟨l, a, [], rfl, rfl, hq⟩

theorem atPlace_cons {q : α → List α → Prop} {i : ℕ} : AtPlace (fun _ a post => q a post) (a :: l) i ↔
      i = 0 ∧ q a l ∨ ∃ j, i = j + 1 ∧ AtPlace (fun _ a post => q a post) l j := by
  constructor
  · rintro ⟨pre, b, post, hl, rfl, hq⟩
    cases pre with
    | nil =>
      obtain ⟨rfl, rfl⟩ := List.cons_eq_cons.1 hl
      exact Or.inl ⟨rfl, hq⟩
    | cons c pre =>
      obtain ⟨-, rfl⟩ := List.cons_eq_cons.1 hl
      exact Or.inr ⟨pre.length, rfl, pre, b, post, rfl, rfl, hq⟩
  · rintro (⟨rfl, hq⟩ | ⟨j, rfl, pre, b, post, rfl, rfl, hq⟩)
    · exact ⟨[], a, l, rfl, rfl, hq⟩
    · exact ⟨a :: pre, b, post, rfl, rfl, hq⟩

theorem filter_zipIdx_eq_sift {f : ℕ → Bool} :
    (l.zipIdx.filter fun x => f x.2).map Prod.fst = sift (fun pre _ _ => f pre.length) l := by
  have hin : ∀ pre l' : List α, ((l'.zipIdx pre.length).filter fun x => f x.2).map Prod.fst
      = siftIn (fun pre _ _ => f pre.length) pre l' [] := by
    intro pre l'
    induction l' generalizing pre with
    | nil => rfl
    | cons a l' ih =>
      have hrest := ih (pre ++ [a])
      rw [List.length_append, List.length_singleton] at hrest
      rw [List.zipIdx_cons, List.filter_cons, siftIn, ← hrest]
      split_ifs
      · rfl
      · rfl
  exact hin [] l

end OpenGeni.Lib
