/-
Lists whose elements carry consecutive numbers.

A log hands out the numbers `lo + 1, lo + 2, …` in order and frees a prefix of
what it holds; a consumer asks for "everything numbered above `k`". On such a
list every one of these operations is a `take` or a `drop`: the number decides
the position. `Numbered num lo l` is that shape, for an arbitrary element type
and numbering function, and the lemmas turn filters by number into slices.

The second half is the budget rule of a bounded read: deliver elements in order
and stop after the one that brings their total weight to the budget.
-/
import Mathlib

namespace OpenGeni.Lib

variable {α β : Type*}

/-! ## Consecutively numbered lists -/

/-- The elements of `l` are numbered `lo + 1, lo + 2, …` in order. -/
def Numbered (num : α → ℕ) : ℕ → List α → Prop
  | _, [] => True
  | lo, a :: l => num a = lo + 1 ∧ Numbered num (lo + 1) l

namespace Numbered

variable {num : α → ℕ} {lo : ℕ} {l m : List α}

theorem append_iff : Numbered num lo (l ++ m) ↔ Numbered num lo l ∧ Numbered num (lo + l.length) m := by
  induction l generalizing lo with
  | nil => simp [Numbered]
  | cons a l ih =>
    have hlen : lo + (a :: l).length = lo + 1 + l.length := by simp only [List.length_cons]; omega
    rw [List.cons_append, Numbered, Numbered, ih, hlen, and_assoc]

theorem mem_bounds {a : α} (h : Numbered num lo l) (ha : a ∈ l) : lo < num a ∧ num a ≤ lo + l.length := by
  induction l generalizing lo with
  | nil => exact absurd ha (by simp)
  | cons b l ih =>
    rw [List.length_cons]
    rcases List.mem_cons.mp ha with hab | hmem
    · rw [hab, h.1]; omega
    · have hb := ih h.2 hmem
      omega

theorem filter_gt (h : Numbered num lo l) (k : ℕ) : l.filter (fun a => decide (k < num a)) = l.drop (k - lo) := by
  induction l generalizing lo with
  | nil => simp
  | cons a l ih =>
    by_cases hk : k ≤ lo
    · have hall : ∀ b ∈ a :: l, decide (k < num b) = true := by
        intro b hb
        have := (mem_bounds h hb).1
        simp only [decide_eq_true_eq]; omega
      rw [List.filter_eq_self.2 hall, Nat.sub_eq_zero_of_le hk, List.drop_zero]
    · have hna : ¬ k < num a := by rw [h.1]; omega
      have hsub : k - lo = (k - (lo + 1)) + 1 := by omega
      rw [List.filter_cons_of_neg (by simpa using hna), ih h.2, hsub, List.drop_succ_cons]

theorem filter_le (h : Numbered num lo l) (k : ℕ) : l.filter (fun a => decide (num a ≤ k)) = l.take (k - lo) := by
  induction l generalizing lo with
  | nil => simp
  | cons a l ih =>
    by_cases hk : k ≤ lo
    · have hnone : ∀ b ∈ a :: l, ¬ decide (num b ≤ k) = true := by
        intro b hb
        have := (mem_bounds h hb).1
        simp only [decide_eq_true_eq]; omega
      rw [List.filter_eq_nil_iff.2 hnone, Nat.sub_eq_zero_of_le hk, List.take_zero]
    · have ha : num a ≤ k := by rw [h.1]; omega
      have hsub : k - lo = (k - (lo + 1)) + 1 := by omega
      rw [List.filter_cons_of_pos (by simpa using ha), ih h.2, hsub, List.take_succ_cons]

theorem filter_between (h : Numbered num lo l) (a b : ℕ) : l.filter (fun x => decide (a < num x ∧ num x ≤ b))
      = (l.take (b - lo)).drop (a - lo) := by
  have hsplit : (fun x => decide (a < num x ∧ num x ≤ b)) = fun x => decide (num x ≤ b) && decide (a < num x) := by
    funext x
    simp only [Bool.decide_and, Bool.and_comm]
  have hprefix : Numbered num lo (l.take (b - lo)) := (append_iff.1 (by rw [List.take_append_drop]; exact h)).1
  rw [hsplit, ← filter_gt hprefix, ← filter_le h b, List.filter_filter]
  congr 1
  funext x
  exact Bool.and_comm _ _

end Numbered

/-! ## Numbering a list -/

/-- Pair the elements of a list with the numbers `lo + 1, lo + 2, …`. -/
def numberFrom (mk : ℕ → α → β) : ℕ → List α → List β
  | _, [] => []
  | lo, a :: l => mk (lo + 1) a :: numberFrom mk (lo + 1) l

section NumberFrom

variable {mk : ℕ → α → β} {lo : ℕ} {l m : List α}

@[simp] theorem numberFrom_length : (numberFrom mk lo l).length = l.length := by
  induction l generalizing lo with
  | nil => rfl
  | cons a l ih => simp only [numberFrom, List.length_cons, ih]

theorem numberFrom_append : numberFrom mk lo (l ++ m) = numberFrom mk lo l ++ numberFrom mk (lo + l.length) m := by
  induction l generalizing lo with
  | nil => rfl
  | cons a l ih =>
    have hlen : lo + (a :: l).length = lo + 1 + l.length := by simp only [List.length_cons]; omega
    rw [List.cons_append, numberFrom, numberFrom, ih, hlen, List.cons_append]

theorem numberFrom_drop (k : ℕ) : (numberFrom mk lo l).drop k = numberFrom mk (lo + k) (l.drop k) := by
  induction k generalizing lo l with
  | zero => rfl
  | succ k ih =>
    cases l with
    | nil => rfl
    | cons a l =>
      rw [numberFrom, List.drop_succ_cons, List.drop_succ_cons, ih, Nat.add_right_comm, Nat.add_assoc]

theorem numberFrom_take (k : ℕ) : (numberFrom mk lo l).take k = numberFrom mk lo (l.take k) := by
  induction k generalizing lo l with
  | zero => rfl
  | succ k ih =>
    cases l with
    | nil => rfl
    | cons a l => rw [numberFrom, List.take_succ_cons, List.take_succ_cons, ih, numberFrom]

theorem numberFrom_getElem? (i : ℕ) : (numberFrom mk lo l)[i]? = l[i]?.map (mk (lo + i + 1)) := by
  induction l generalizing lo i with
  | nil => rfl
  | cons a l ih =>
    cases i with
    | zero => rfl
    | succ i =>
      rw [numberFrom, List.getElem?_cons_succ, List.getElem?_cons_succ, ih,
        Nat.add_right_comm lo 1 i, Nat.add_assoc lo i 1]

theorem numberFrom_numbered {num : β → ℕ} (hnum : ∀ n a, num (mk n a) = n) :
    Numbered num lo (numberFrom mk lo l) := by
  induction l generalizing lo with
  | nil => trivial
  | cons a l ih => exact ⟨hnum _ _, ih⟩

theorem numberFrom_map {γ : Type*} {f : β → γ} {g : α → γ} (hf : ∀ n a, f (mk n a) = g a) :
    (numberFrom mk lo l).map f = l.map g := by
  induction l generalizing lo with
  | nil => rfl
  | cons a l ih => simp only [numberFrom, List.map_cons, hf, ih]

end NumberFrom

/-! ## A cursor into an increasing list -/

/-- A window onto `got ++ missing`, whose numbers increase, is cut at `cursor`. If what
it shows of `got` lies below the cursor, and `missing` is in it and not below, then
`missing` is what remains. -/
theorem filter_window {num : α → ℕ} {got missing window : List α} {cursor : ℕ}
    (hinc : (got ++ missing).Pairwise fun a b => num a < num b)
    (hwindow : window.Sublist (got ++ missing))
    (hold : ∀ a ∈ window, a ∈ got → num a < cursor)
    (hnew : ∀ a ∈ missing, a ∈ window ∧ cursor ≤ num a) :
    window.filter (fun a => decide (cursor ≤ num a)) = missing := by
  let r : α → α → Prop := fun a b => num a < num b
  have hleft : (window.filter fun a => decide (cursor ≤ num a)).Pairwise r :=
    hinc.sublist (List.filter_sublist.trans hwindow)
  have hright : missing.Pairwise r := hinc.sublist (List.sublist_append_right _ _)
  apply List.Pairwise.eq_of_mem_iff hleft hright
  intro a
  rw [List.mem_filter]
  constructor
  · rintro ⟨ha, hcursor⟩
    rcases List.mem_append.1 (hwindow.subset ha) with hgot | hmissing
    · have := hold a ha hgot
      have : cursor ≤ num a := by simpa using hcursor
      omega
    · exact hmissing
  · intro ha
    exact ⟨(hnew a ha).1, by simpa using (hnew a ha).2⟩

/-! ## Reading within a budget -/

/-- `out` is what a read of `l` within the budget `max` returns: the shortest
nonempty prefix of `l` whose weight reaches `max`, or all of `l` when none does. -/
structure BudgetPrefix (weight : α → ℕ) (max : ℕ) (l out : List α) : Prop where
  isPrefix : out <+: l
  /-- Something is returned whenever there is something to return. -/
  nonempty : l ≠ [] → out ≠ []
  minimal : ∀ p, p <+: out → p ≠ [] → p ≠ out → (p.map weight).sum < max
  /-- It does not stop before the budget is reached. -/
  reaches : out = l ∨ max ≤ (out.map weight).sum

/-- The loop of a bounded read: `spent` is the weight delivered so far. -/
def readWithin (weight : α → ℕ) (max : ℕ) : ℕ → List α → List α
  | _, [] => []
  | spent, a :: l =>
    if max ≤ spent + weight a then [a] else a :: readWithin weight max (spent + weight a) l

section ReadWithin

variable {weight : α → ℕ} {max : ℕ}

/-- **The bounded read meets the budget rule**, from any amount already spent. -/
theorem readWithin_budgetPrefix (spent : ℕ) (l : List α) (hspent : spent ≤ max) :
    BudgetPrefix weight (max - spent) l (readWithin weight max spent l) := by
  induction l generalizing spent with
  | nil =>
    refine ⟨List.prefix_rfl, fun h => absurd rfl h, ?_, Or.inl rfl⟩
    intro p hp hne _
    exact absurd (List.prefix_nil.mp hp) hne
  | cons a l ih =>
    rw [readWithin]
    by_cases hstop : max ≤ spent + weight a
    · rw [if_pos hstop]
      refine ⟨⟨l, rfl⟩, fun _ => by simp, ?_, Or.inr (by simp; omega)⟩
      intro p hp hne hneq
      -- A nonempty prefix of a singleton is the singleton.
      have hlen := hp.length_le
      have hp1 : p.length = 1 := by
        have : 0 < p.length := List.length_pos_of_ne_nil hne
        simp only [List.length_singleton] at hlen
        omega
      exact absurd (hp.eq_of_length (by rw [hp1]; rfl)) hneq
    · rw [if_neg hstop]
      have hrec := ih (spent + weight a) (by omega)
      refine ⟨List.cons_prefix_cons.2 ⟨rfl, hrec.isPrefix⟩, fun _ => by simp, ?_, ?_⟩
      · intro p hp hne hneq
        obtain ⟨q, rfl⟩ : ∃ q, p = a :: q := by
          cases p with
          | nil => exact absurd rfl hne
          | cons b q => exact ⟨q, by rw [(List.cons_prefix_cons.1 hp).1]⟩
        have hq := (List.cons_prefix_cons.1 hp).2
        by_cases hqnil : q = []
        · subst hqnil; simp; omega
        · have := hrec.minimal q hq hqnil (fun h => hneq (by rw [h]))
          simp only [List.map_cons, List.sum_cons]
          omega
      · rcases hrec.reaches with hall | hmax
        · exact Or.inl (by rw [hall])
        · right
          simp only [List.map_cons, List.sum_cons]
          omega

theorem readWithin_eq_self (spent : ℕ) (l : List α) (h : spent + (l.map weight).sum < max) :
    readWithin weight max spent l = l := by
  have hread : BudgetPrefix weight (max - spent) l (readWithin weight max spent l) :=
    readWithin_budgetPrefix spent l (by omega)
  rcases hread.reaches with hall | hmax
  · exact hall
  · obtain ⟨rest, hrest⟩ := hread.isPrefix
    have hsum : (l.map weight).sum = ((readWithin weight max spent l).map weight).sum + (rest.map weight).sum := by
      conv_lhs => rw [← hrest, List.map_append, List.sum_append]
    omega

end ReadWithin

end OpenGeni.Lib
