/-
Counting over the members of a collection that changes one at a time.

The ledgers of a system with many tasks are sums of what each task holds. A step touches
one task, so what it does to the sum is what it does to that task. This is the arithmetic
for a list of tasks that is extended at the end and updated in place, and for a map whose
entries come and go.
-/
import Mathlib

namespace OpenGeni.Lib

/-! ## Members of an updated list -/

section

variable {α : Type*} {l : List α} {i j : ℕ} {a b c : α}

theorem getElem?_set_cases (h : (l.set i b)[j]? = some c) : j = i ∧ c = b ∨ j ≠ i ∧ l[j]? = some c := by
  by_cases hj : j = i
  · subst hj
    rw [List.getElem?_set_self'] at h
    cases hl : l[j]? with
    | none => rw [hl] at h; contradiction
    | some d => rw [hl] at h; exact Or.inl ⟨rfl, (Option.some.inj h).symm⟩
  · rw [List.getElem?_set_ne (Ne.symm hj)] at h
    exact Or.inr ⟨hj, h⟩

theorem getElem?_set_same (h : l[i]? = some a) (b : α) : (l.set i b)[i]? = some b := by
  rw [List.getElem?_set_self', h]
  rfl

theorem getElem?_append_cases (h : (l ++ [b])[j]? = some c) : l[j]? = some c ∨ c = b := by
  rw [List.getElem?_append] at h
  split at h
  · exact Or.inl h
  · have hmem := List.mem_of_getElem? h
    exact Or.inr (List.mem_singleton.1 hmem)

theorem mem_set_of_mem (h : l[i]? = some a) (hb : b ∈ l) (c : α) : b = a ∨ b ∈ l.set i c := by
  obtain ⟨j, hj⟩ := List.mem_iff_getElem?.1 hb
  by_cases hij : j = i
  · subst hij
    rw [h] at hj
    exact Or.inl (Option.some.inj hj).symm
  · refine Or.inr (List.mem_of_getElem? (i := j) ?_)
    rw [List.getElem?_set_ne (Ne.symm hij), hj]

theorem mem_set_self (h : l[i]? = some a) (b : α) : b ∈ l.set i b := List.mem_of_getElem? (getElem?_set_same h b)

end

/-! ## Lists -/

section

variable {α : Type*} {l : List α} {i : ℕ} {a b : α} (w : α → ℕ)

def tally (l : List α) : ℕ := (l.map w).sum

@[simp] theorem tally_nil : tally w ([] : List α) = 0 := rfl

@[simp] theorem tally_append (l m : List α) : tally w (l ++ m) = tally w l + tally w m := by
  rw [tally, List.map_append, List.sum_append, tally, tally]

@[simp] theorem tally_singleton (a : α) : tally w [a] = w a := by
  rw [tally, List.map_singleton, List.sum_singleton]

/-- **One update**: what the total loses with the old member it regains with the new. -/
theorem tally_set (h : l[i]? = some a) (b : α) : tally w (l.set i b) + w a = tally w l + w b := by
  induction l generalizing i with
  | nil => simp at h
  | cons c l ih =>
    cases i with
    | zero =>
      obtain rfl : c = a := by simpa using h
      simp only [List.set_cons_zero, tally, List.map_cons, List.sum_cons]
      omega
    | succ i =>
      have hrest := ih (i := i) (by simpa using h)
      simp only [List.set_cons_succ, tally, List.map_cons, List.sum_cons] at hrest ⊢
      omega

theorem le_tally (h : l[i]? = some a) : w a ≤ tally w l := by
  obtain ⟨hi, rfl⟩ := List.getElem?_eq_some_iff.1 h
  exact List.single_le_sum (fun _ _ => Nat.zero_le _) _ (List.mem_map_of_mem (List.getElem_mem hi))

end

/-! ## Maps -/

section

variable {K V : Type*} [DecidableEq K] (w : V → ℕ)

def tallyMap (t : AList fun _ : K => V) : ℕ := tally (fun e : Sigma fun _ : K => V => w e.2) t.entries

theorem tally_kerase {entries : List (Sigma fun _ : K => V)} {k : K} {v : V} (h : entries.dlookup k = some v) :
    tally (fun e => w e.2) (entries.kerase k) + w v = tally (fun e => w e.2) entries := by
  induction entries with
  | nil => simp at h
  | cons e entries ih =>
    obtain ⟨k', v'⟩ := e
    by_cases hk : k = k'
    · subst hk
      rw [List.dlookup_cons_eq] at h
      obtain rfl := Option.some.inj h
      have hhead : List.kerase k (⟨k, v'⟩ :: entries) = entries := List.kerase_cons_eq rfl
      rw [hhead]
      simp only [tally, List.map_cons, List.sum_cons]
      omega
    · rw [List.dlookup_cons_ne _ _ hk] at h
      have hrest := ih h
      have htail : List.kerase k (⟨k', v'⟩ :: entries) = ⟨k', v'⟩ :: List.kerase k entries := List.kerase_cons_ne hk
      rw [htail]
      simp only [tally, List.map_cons, List.sum_cons] at hrest ⊢
      omega

variable {t : AList fun _ : K => V}

theorem tallyMap_erase {k : K} {v : V} (h : t.lookup k = some v) : tallyMap w (t.erase k) + w v = tallyMap w t :=
  tally_kerase w h

theorem tallyMap_insert {k : K} {v : V} (h : t.lookup k = some v) (v' : V) :
    tallyMap w (t.insert k v') + w v = tallyMap w t + w v' := by
  have herase := tallyMap_erase w h
  have hinsert : tallyMap w (t.insert k v') = w v' + tallyMap w (t.erase k) := by
    unfold tallyMap tally
    rw [AList.entries_insert, List.map_cons, List.sum_cons]
    rfl
  omega

theorem tallyMap_insert_new {k : K} (h : k ∉ t) (v : V) : tallyMap w (t.insert k v) = tallyMap w t + w v := by
  unfold tallyMap tally
  rw [AList.entries_insert_of_notMem h, List.map_cons, List.sum_cons, Nat.add_comm]

end

end OpenGeni.Lib
