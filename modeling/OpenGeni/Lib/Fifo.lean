/-
A keyed table with an eviction order.

A bounded table as services keep them: a map from keys to values, and next to it the
queue of its keys, oldest first. A push past the cap evicts the oldest key. The two
parts are separate data and nothing ties them but the way they are used: `Tidy` is that
tie. Pushing fresh keys keeps it, and then what a series of pushes leaves is the
appended order with a prefix dropped, as long as the number of evictions.
-/
import Mathlib

namespace OpenGeni.Lib

structure Fifo (K V : Type*) where
  table : AList fun _ : K => V
  order : List K

namespace Fifo

variable {K V : Type*} [DecidableEq K]

def empty : Fifo K V := ⟨∅, []⟩

def size (t : Fifo K V) : ℕ := t.table.keys.length

def popOldest (t : Fifo K V) : ℕ × Fifo K V := match t.order with
  | [] => (0, t)
  | oldest :: rest => (1, ⟨t.table.erase oldest, rest⟩)

/-- Insert at the back, evicting the oldest key first if the table is at its cap. The
first component counts evictions. -/
def pushCapped (cap : ℕ) (t : Fifo K V) (k : K) (v : V) : ℕ × Fifo K V :=
  let popped := if cap ≤ t.size then t.popOldest else (0, t)
  (popped.1, ⟨popped.2.table.insert k v, popped.2.order ++ [k]⟩)

/-- Keep the entries that `keep` accepts. -/
def retain (keep : V → Bool) (t : Fifo K V) : Fifo K V := let table : AList fun _ : K => V :=
    ⟨t.table.entries.filter fun e => keep e.2, t.table.nodupKeys.sublist (List.filter_sublist)⟩
  ⟨table, t.order.filter fun k => decide (k ∈ table)⟩

/-- The order lists every key of the table once, and nothing else. -/
structure Tidy (t : Fifo K V) : Prop where
  nodup : t.order.Nodup
  mem : ∀ k, k ∈ t.order ↔ k ∈ t.table

omit [DecidableEq K] in
theorem Tidy.empty : (empty : Fifo K V).Tidy := ⟨List.nodup_nil, fun k => by simp [Fifo.empty]⟩

section

variable {t t' : Fifo K V} {k : K} {v : V}

/-! ## Retaining -/

theorem lookup_retain (keep : V → Bool) (t : Fifo K V) (k : K) :
    (t.retain keep).table.lookup k = (t.table.lookup k).filter keep := by
  ext v
  rw [Option.filter_eq_some_iff, ← Option.mem_def, ← Option.mem_def, AList.mem_lookup_iff, AList.mem_lookup_iff]
  show (⟨k, v⟩ : Sigma fun _ : K => V) ∈ t.table.entries.filter _ ↔ _
  rw [List.mem_filter]

theorem Tidy.retain (h : t.Tidy) (keep : V → Bool) : (t.retain keep).Tidy := by
  refine ⟨h.nodup.filter _, fun k => ?_⟩
  show k ∈ t.order.filter _ ↔ _
  rw [List.mem_filter, decide_eq_true_eq, h.mem k]
  refine ⟨fun hk => hk.2, fun hk => ⟨?_, hk⟩⟩
  -- a key that is kept was there before
  rw [← AList.lookup_isSome, lookup_retain] at hk
  rw [← AList.lookup_isSome]
  exact Option.isSome_of_isSome_filter _ _ hk

/-! ## Pushing -/

/-- What evicting the oldest key does: it drops as much of the order as it counts,
and forgets the entries of what it dropped. -/
structure Popped (t : Fifo K V) (n : ℕ) (t' : Fifo K V) : Prop where
  tidy : t'.Tidy
  capped_le : n ≤ t.order.length
  order : t'.order = t.order.drop n
  lookup : ∀ j, t'.table.lookup j = if j ∈ t'.order then t.table.lookup j else none

theorem lookup_of_not_mem (h : t.Tidy) (hk : k ∉ t.order) : t.table.lookup k = none :=
  AList.lookup_eq_none.2 fun hmem => hk ((h.mem k).2 hmem)

theorem Popped.refl (h : t.Tidy) : t.Popped 0 t where
  tidy := h
  capped_le := Nat.zero_le _
  order := rfl
  lookup j := by
    split
    · rfl
    · exact lookup_of_not_mem h ‹_›

theorem Tidy.popOldest (h : t.Tidy) : t.Popped t.popOldest.1 t.popOldest.2 := by
  obtain ⟨table, order⟩ := t
  cases order with
  | nil => exact Popped.refl h
  | cons oldest rest =>
    have hnodup := List.nodup_cons.1 h.nodup
    have hmem : ∀ j, j ∈ rest ↔ j ≠ oldest ∧ j ∈ table := fun j => by
      rw [← h.mem j, List.mem_cons]
      refine ⟨fun hj => ⟨fun he => hnodup.1 (he ▸ hj), Or.inr hj⟩, ?_⟩
      rintro ⟨hne, rfl | hj⟩
      · exact absurd rfl hne
      · exact hj
    refine ⟨⟨hnodup.2, fun j => ?_⟩, Nat.succ_le_succ (Nat.zero_le _), rfl, fun j => ?_⟩
    · show j ∈ rest ↔ j ∈ table.erase oldest
      rw [hmem, AList.mem_erase]
    · show (table.erase oldest).lookup j = if j ∈ rest then table.lookup j else none
      split
      · exact AList.lookup_erase_ne ((hmem j).1 ‹_›).1
      · rw [AList.lookup_eq_none, AList.mem_erase, ← hmem j]
        assumption

/-- `t'` is `t` after the fresh keys `ks` were pushed, each with the value `v`, with `n`
evictions in all. -/
structure Pushed (t : Fifo K V) (ks : List K) (v : V) (n : ℕ) (t' : Fifo K V) : Prop where
  tidy : t'.Tidy
  capped_le : n ≤ (t.order ++ ks).length
  order : t'.order = (t.order ++ ks).drop n
  lookup : ∀ j, t'.table.lookup j = if j ∈ t'.order then (if j ∈ ks then some v else t.table.lookup j) else none

theorem Pushed.nil (h : t.Tidy) (v : V) : t.Pushed [] v 0 t where
  tidy := h
  capped_le := Nat.zero_le _
  order := (List.append_nil _).symm
  lookup j := by
    rw [if_neg List.not_mem_nil]
    exact (Popped.refl h).lookup j

variable {ks : List K}

theorem Pushed.fresh {n : ℕ} (h : t.Pushed ks v n t') (ht : t.Tidy) (hk : k ∉ t.table)
    (hks : k ∉ ks) : k ∉ t'.order := by
  rw [h.order]
  intro hmem
  rcases List.mem_append.1 (List.mem_of_mem_drop hmem) with hmem | hmem
  · exact hk ((ht.mem k).1 hmem)
  · exact hks hmem

/-- **One more push.** -/
theorem Pushed.push {n : ℕ} (h : t.Pushed ks v n t') (ht : t.Tidy) (cap : ℕ) (hk : k ∉ t.table) (hks : k ∉ ks) :
    t.Pushed (ks ++ [k]) v (n + (t'.pushCapped cap k v).1) (t'.pushCapped cap k v).2 := by
  have hpop : t'.Popped (if cap ≤ t'.size then t'.popOldest else (0, t')).1
      (if cap ≤ t'.size then t'.popOldest else (0, t')).2 := by
    split
    · exact h.tidy.popOldest
    · exact Popped.refl h.tidy
  unfold pushCapped
  generalize (if cap ≤ t'.size then t'.popOldest else (0, t')) = popped at hpop
  obtain ⟨m, u⟩ := popped
  dsimp only at hpop ⊢
  have hfresh : k ∉ u.order := by
    rw [hpop.order]
    exact fun hmem => h.fresh ht hk hks (List.mem_of_mem_drop hmem)
  have hlen : n + m ≤ (t.order ++ ks).length := by
    have hm := hpop.capped_le
    rw [h.order, List.length_drop] at hm
    have hn := h.capped_le
    omega
  have horder : u.order ++ [k] = (t.order ++ (ks ++ [k])).drop (n + m) := by
    rw [hpop.order, h.order, List.drop_drop, ← List.append_assoc, List.drop_append_of_le_length hlen]
  refine ⟨⟨?_, fun j => ?_⟩, ?_, horder, fun j => ?_⟩
  · exact List.nodup_append.2 ⟨hpop.tidy.nodup, List.nodup_singleton k,
      fun a ha b hb he => hfresh (List.mem_singleton.1 hb ▸ he ▸ ha)⟩
  · rw [List.mem_append, List.mem_singleton, AList.mem_insert, hpop.tidy.mem j]
    exact or_comm
  · rw [← List.append_assoc, List.length_append]
    omega
  · -- the pushed key has its value; any other key has what it had, if it survived
    by_cases hj : j = k
    · subst hj
      rw [AList.lookup_insert, if_pos (List.mem_append_right _ (List.mem_singleton_self _)),
        if_pos (List.mem_append_right _ (List.mem_singleton_self _))]
    · have hiff : ∀ l : List K, j ∈ l ++ [k] ↔ j ∈ l := fun l => by
        rw [List.mem_append, List.mem_singleton, or_iff_left hj]
      rw [AList.lookup_insert_ne hj, hpop.lookup j, h.lookup j]
      simp only [hiff]
      split
      · rw [if_pos]
        rw [hpop.order] at *
        exact List.mem_of_mem_drop ‹_›
      · rfl

theorem pushCapped_fst_le (cap : ℕ) (t : Fifo K V) (k : K) (v : V) : (t.pushCapped cap k v).1 ≤ 1 := by
  unfold pushCapped popOldest
  split
  · split
    · exact Nat.zero_le 1
    · exact Nat.le_refl 1
  · exact Nat.zero_le 1

/-! ## The cap -/

theorem size_insert_le (table : AList fun _ : K => V) (k : K) (v : V) :
    (table.insert k v).keys.length ≤ table.keys.length + 1 := by
  rw [AList.keys_insert, List.length_cons]
  exact Nat.succ_le_succ List.length_erase_le

theorem size_pushCapped_le {cap : ℕ} (h : t.Tidy) (hsize : t.size ≤ max 1 cap) (k : K) (v : V) :
    (t.pushCapped cap k v).2.size ≤ max 1 cap := by
  obtain ⟨table, order⟩ := t
  have hinsert := size_insert_le table k v
  unfold pushCapped
  by_cases hfull : cap ≤ (⟨table, order⟩ : Fifo K V).size
  · rw [if_pos hfull]
    cases order with
    | nil =>
      -- nothing is listed, so the table is empty
      have hnil : table.keys = [] := List.eq_nil_iff_forall_not_mem.mpr fun j hj =>
        absurd ((h.mem j).mpr hj) List.not_mem_nil
      rw [hnil] at hinsert
      exact hinsert.trans (le_max_left 1 cap)
    | cons oldest rest =>
      have hmem : oldest ∈ table.keys := (h.mem oldest).mp List.mem_cons_self
      have herase : (table.erase oldest).keys.length = table.keys.length - 1 := by
        rw [AList.keys_erase, List.length_erase_of_mem hmem]
      have hinsert' := size_insert_le (table.erase oldest) k v
      unfold Fifo.size at hsize ⊢
      dsimp only [popOldest] at hsize ⊢
      omega
  · rw [if_neg hfull]
    unfold Fifo.size at hfull ⊢
    dsimp only at hfull ⊢
    omega

theorem Pushed.mem_or_evicted {n : ℕ} (h : t.Pushed ks v n t') (hk : k ∈ t.order ++ ks) :
    k ∈ t'.order ∨ k ∈ (t.order ++ ks).take n := by
  rw [h.order]
  rw [← List.take_append_drop n (t.order ++ ks), List.mem_append] at hk
  exact hk.symm

end

end Fifo

end OpenGeni.Lib
