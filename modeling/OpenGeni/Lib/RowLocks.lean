/-
Row locks that are held to the end of the transaction, and who waits for whom.

A transaction locks its rows one after the other, in the order of its program, and lets go of
them all when it ends. It waits while the row it wants is held by another. A deadlock is a
cycle of transactions that wait. On every cycle there is one that wants a row ranked no higher
than a row it holds, whatever the rank (`Deadlocked.descends`), so a system in which all lock
upwards has no deadlock, and in a system in which a few do not it is enough to look at those.

Two transactions `Cross` where each holds a row that the other has still to lock. Runs in which
no statement makes two of them cross are `Uncrossed`, and the rule for transactions says what
holds in them: every row has one holder, and no two transactions cross.
-/
import OpenGeni.Lib.Transactions

namespace OpenGeni.Lib

/-! ## Locking -/

inductive LockRequest (ρ : Type*)
  /-- `for update`: waits while the row is locked. -/
  | lock (row : ρ)
  /-- `for update skip locked limit 1`: takes the first that is not locked, and never waits. -/
  | skipLocked (rows : List ρ)
deriving DecidableEq

def LockRequest.rows {ρ : Type*} : LockRequest ρ → List ρ
  | .lock row => [row]
  | .skipLocked rows => rows

/-- An open transaction: its call, the rows it holds, and the requests behind and before it. -/
structure LockTxn (κ ρ : Type*) where
  call : κ
  held : List ρ
  passed : List (LockRequest ρ)
  todo : List (LockRequest ρ)

section

variable {κ ρ : Type*} (program : κ → List (LockRequest ρ))

/-- The row the transaction has to wait for, if another holds it. -/
def LockTxn.wants (x : LockTxn κ ρ) : Option ρ := match x.todo with
  | .lock row :: _ => some row
  | _ => none

/-! ## What an open transaction is -/

/-- The transaction is somewhere in its program, and holds what it has locked so far. -/
structure LockTxn.Follows (x : LockTxn κ ρ) : Prop where
  split : x.passed ++ x.todo = program x.call
  locked : ∀ row, .lock row ∈ x.passed → row ∈ x.held
  asked : ∀ row ∈ x.held, ∃ q ∈ x.passed, row ∈ q.rows

def LockTxn.Cross (x y : LockTxn κ ρ) : Prop :=
  (∃ row ∈ x.held, .lock row ∈ y.todo) ∧ ∃ row ∈ y.held, .lock row ∈ x.todo

/-- No row has two holders, and the two do not cross if one of them is watched. -/
def LockTxn.Apart (watched : κ → Prop) (x y : LockTxn κ ρ) : Prop :=
  (∀ row ∈ x.held, row ∉ y.held) ∧ (watched x.call ∨ watched y.call → ¬ x.Cross y)

variable {x y : LockTxn κ ρ} {row : ρ}

theorem LockTxn.wants_iff : x.wants = some row ↔ ∃ todo, x.todo = .lock row :: todo := by
  unfold LockTxn.wants
  cases htodo : x.todo with
  | nil => simp
  | cons q todo =>
    cases q with
    | lock r =>
      constructor
      · intro h
        exact ⟨todo, by rw [Option.some.inj h]⟩
      · rintro ⟨rest, h⟩
        rw [List.cons.injEq, LockRequest.lock.injEq] at h
        rw [h.1]
    | skipLocked rows => simp

theorem LockTxn.Cross.symm (h : x.Cross y) : y.Cross x := ⟨h.2, h.1⟩

end

/-! ## The transactions -/

section

variable {κ ρ : Type*} [DecidableEq ρ] (program : κ → List (LockRequest ρ))

def LockTxn.exec (others : List (LockTxn κ ρ)) (x : LockTxn κ ρ) : Option (LockTxn κ ρ) := match x.todo with
  | [] => none
  | .lock row :: todo =>
    if others.any fun y => y.held.contains row then none
    else some { x with held := row :: x.held, passed := x.passed ++ [.lock row], todo }
  | .skipLocked rows :: todo =>
    let free := rows.find? fun row => !others.any fun y => y.held.contains row
    some { x with held := free.toList ++ x.held, passed := x.passed ++ [.skipLocked rows], todo }

/-- The transactions with these programs. One may end before it has locked all. -/
def rowLocks : Transactions κ Unit (LockTxn κ ρ) where
  start call := { call, held := [], passed := [], todo := program call }
  exec _ others x := x.exec others
  finished _ := True
  finishedDecidable _ := .isTrue trivial
  commit _ _ := ()
  observe _ y := y

/-- The statement takes no row that another transaction has still to lock while that one holds a
row that is yet to be locked here, where one of the two is watched. -/
def Uncrossed (watched : κ → Prop) (s : Transactions.State Unit (LockTxn κ ρ)) : Transactions.Event κ → Prop
  | .exec i => ∀ x ∈ s.opened.get i, ∀ q ∈ x.todo.head?, ∀ y ∈ s.others i, watched x.call ∨ watched y.call →
      ¬ ((∃ row ∈ q.rows, .lock row ∈ y.todo) ∧ ∃ row ∈ y.held, .lock row ∈ x.todo.tail)
  | _ => True

instance (watched : κ → Prop) [DecidablePred watched] (s : Transactions.State Unit (LockTxn κ ρ)) :
    DecidablePred (Uncrossed watched s)
  | .exec _ => inferInstanceAs (Decidable (∀ _ ∈ _, ∀ _ ∈ _, ∀ _ ∈ _, _ → ¬ (_ ∧ _)))
  | .start _ _ => .isTrue trivial
  | .commit _ => .isTrue trivial
  | .rollback _ => .isTrue trivial

variable {program} {x x' y : LockTxn κ ρ} {row : ρ} {others : List (LockTxn κ ρ)}

theorem LockTxn.exec_spec (h : x.exec others = some x') :
    x'.call = x.call ∧ ∃ q taken, x.todo = q :: x'.todo ∧ x'.passed = x.passed ++ [q] ∧
      x'.held = taken ++ x.held ∧ (∀ row ∈ taken, row ∈ q.rows ∧ ∀ y ∈ others, row ∉ y.held) ∧
      ∀ row, q = .lock row → row ∈ taken := by
  unfold LockTxn.exec at h
  cases htodo : x.todo with
  | nil =>
    rw [htodo] at h
    cases h
  | cons q todo =>
    rw [htodo] at h
    cases q with
    | lock row =>
      dsimp only at h
      split_ifs at h with hany
      cases h
      refine ⟨rfl, .lock row, [row], rfl, rfl, rfl, ?_, ?_⟩
      · intro r hr
        obtain rfl := List.mem_singleton.1 hr
        refine ⟨List.mem_singleton.2 rfl, ?_⟩
        intro y hy hheld
        exact hany (List.any_eq_true.2 ⟨y, hy, by simpa using hheld⟩)
      · intro r hr
        rw [LockRequest.lock.injEq] at hr
        exact List.mem_singleton.2 hr.symm
    | skipLocked rows =>
      cases h
      refine ⟨rfl, .skipLocked rows, _, rfl, rfl, rfl, ?_, ?_⟩
      · intro r hr
        have hfree := Option.mem_toList.1 hr
        refine ⟨List.mem_of_find?_eq_some hfree, ?_⟩
        intro y hy hheld
        have hnone := List.find?_some hfree
        rw [Bool.not_eq_true', List.any_eq_false] at hnone
        exact hnone y hy (by simpa using hheld)
      · intro r hr
        cases hr

theorem LockTxn.Follows.exec (h : x.Follows program) (hexec : x.exec others = some x') : x'.Follows program := by
  obtain ⟨hcall, q, taken, htodo, hpassed, hheld, htaken, hlock⟩ := LockTxn.exec_spec hexec
  refine ⟨?_, ?_, ?_⟩
  · rw [hcall, ← h.split, hpassed, htodo, List.append_assoc, List.singleton_append]
  · intro row hmem
    rw [hheld]
    rw [hpassed] at hmem
    rcases List.mem_append.1 hmem with hold | hnew
    · exact List.mem_append_right _ (h.locked row hold)
    · exact List.mem_append_left _ (hlock row (List.mem_singleton.1 hnew).symm)
  · intro row hmem
    rw [hheld] at hmem
    rw [hpassed]
    rcases List.mem_append.1 hmem with hnew | hold
    · exact ⟨q, List.mem_append_right _ (List.mem_singleton.2 rfl), (htaken row hnew).1⟩
    · obtain ⟨q', hq', hrow⟩ := h.asked row hold
      exact ⟨q', List.mem_append_left _ hq', hrow⟩

/-- **The rule for runs.** In a run whose statements cross no two transactions, every open
transaction follows its program and any two are apart. -/
theorem rowLocks_sound (watched : κ → Prop) :
    (rowLocks program).Sound (fun _ => True) (fun _ x => x.Follows program) (LockTxn.Apart watched)
      (Uncrossed watched) where
  symm x y h := by
    refine ⟨fun row hy hx => h.1 row hx hy, ?_⟩
    intro hwatched hcross
    exact h.2 hwatched.symm hcross.symm
  start _ op _ := by
    refine ⟨rfl, ?_, ?_⟩
    · intro row hmem
      exact absurd hmem List.not_mem_nil
    · intro row hmem
      exact absurd hmem List.not_mem_nil
  start_apart op y := by
    refine ⟨List.forall_mem_nil _, ?_⟩
    rintro - ⟨⟨row, hmem, -⟩, -⟩
    exact absurd hmem List.not_mem_nil
  exec s i x x' hx hok _ hinv hapart hexec := by
    refine ⟨hinv.exec hexec, ?_⟩
    intro y hy
    obtain ⟨hcall, q, taken, htodo, -, hheld, htaken, -⟩ := LockTxn.exec_spec hexec
    refine ⟨?_, ?_⟩
    · intro row hrow
      rw [hheld] at hrow
      rcases List.mem_append.1 hrow with hnew | hold
      · exact (htaken row hnew).2 y hy
      · exact (hapart y hy).1 row hold
    · intro hwatched hcross
      rw [hcall] at hwatched
      have hnext : q ∈ x.todo.head? := by
        rw [htodo]
        rfl
      have htail : x.todo.tail = x'.todo := by
        rw [htodo]
        rfl
      obtain ⟨⟨row, hrow, hlock⟩, row', hrow', hlock'⟩ := hcross
      rw [hheld] at hrow
      rcases List.mem_append.1 hrow with hnew | hold
      · -- the two cross by the row that is taken now
        have hyet : ∃ row ∈ y.held, .lock row ∈ x.todo.tail := ⟨row', hrow', by rw [htail]; exact hlock'⟩
        exact hok x hx q hnext y hy hwatched ⟨⟨row, (htaken row hnew).1, hlock⟩, hyet⟩
      · have hyet : .lock row' ∈ x.todo := by
          rw [htodo]
          exact List.mem_cons_of_mem _ hlock'
        exact (hapart y hy).2 hwatched ⟨⟨row, hold, hlock⟩, row', hrow', hyet⟩
  commit _ _ _ _ _ _ _ _ := trivial
  commit_other _ _ _ _ _ _ _ _ _ _ _ hinv := hinv
  observe_apart _ _ _ h := h

end

/-! ## Programs in stages -/

section

variable {κ ρ : Type*} {program : κ → List (LockRequest ρ)} {x : LockTxn κ ρ} {row row' : ρ} {stage : ρ → ℕ}

def InStages (stage : ρ → ℕ) (requests : List (LockRequest ρ)) : Prop :=
  requests.Pairwise fun q q' => ∀ row ∈ q.rows, ∀ row' ∈ q'.rows, stage row < stage row'

theorem inStages_map {rows : List ρ} (h : rows.Pairwise fun row row' => stage row < stage row') :
    InStages stage (rows.map LockRequest.lock) := by
  unfold InStages
  rw [List.pairwise_map]
  apply h.imp
  intro row row' hlt r hr r' hr'
  rwa [List.mem_singleton.1 hr, List.mem_singleton.1 hr']

theorem LockTxn.Follows.held_mem (h : x.Follows program) (hrow : row ∈ x.held) :
    ∃ q ∈ program x.call, row ∈ q.rows := by
  obtain ⟨q, hq, hmem⟩ := h.asked row hrow
  exact ⟨q, by rw [← h.split]; exact List.mem_append_left _ hq, hmem⟩

theorem LockTxn.Follows.wants_mem (h : x.Follows program) (hwants : x.wants = some row) :
    .lock row ∈ x.todo ∧ .lock row ∈ program x.call := by
  obtain ⟨todo, htodo⟩ := LockTxn.wants_iff.1 hwants
  have hmem : .lock row ∈ x.todo := by
    rw [htodo]
    exact List.mem_cons_self
  exact ⟨hmem, by rw [← h.split]; exact List.mem_append_right _ hmem⟩

theorem LockTxn.Follows.held_or_todo (h : x.Follows program) (hlock : .lock row ∈ program x.call) :
    row ∈ x.held ∨ .lock row ∈ x.todo := by
  rw [← h.split] at hlock
  exact (List.mem_append.1 hlock).imp (h.locked row) id

theorem LockTxn.Follows.held_lt (h : x.Follows program) (hstages : InStages stage (program x.call))
    (hheld : row ∈ x.held) (htodo : .lock row' ∈ x.todo) : stage row < stage row' := by
  obtain ⟨q, hq, hmem⟩ := h.asked row hheld
  unfold InStages at hstages
  rw [← h.split, List.pairwise_append] at hstages
  exact hstages.2.2 q hq _ htodo row hmem row' (List.mem_singleton.2 rfl)

theorem LockTxn.Follows.held_below (h : x.Follows program) (hstages : InStages stage (program x.call))
    (hheld : row ∈ x.held) (hlock : .lock row' ∈ program x.call) (hlt : stage row' < stage row) :
    row' ∈ x.held := by
  rcases h.held_or_todo hlock with hbehind | htodo
  · exact hbehind
  · have hgt := h.held_lt hstages hheld htodo
    omega

theorem LockTxn.Follows.below_wanted (h : x.Follows program) (hstages : InStages stage (program x.call))
    (hwants : x.wants = some row) (hlock : .lock row' ∈ program x.call) (hlt : stage row' < stage row) :
    row' ∈ x.held := by
  rcases h.held_or_todo hlock with hbehind | htodo
  · exact hbehind
  · -- the row that is wanted is the first to come
    obtain ⟨rest, hrest⟩ := LockTxn.wants_iff.1 hwants
    unfold InStages at hstages
    rw [← h.split, List.pairwise_append, hrest, List.pairwise_cons] at hstages
    rw [hrest] at htodo
    rcases List.mem_cons.1 htodo with heq | hlater
    · rw [LockRequest.lock.injEq] at heq
      rw [heq] at hlt
      exact absurd hlt (lt_irrefl _)
    · have hgt := hstages.2.1.1 _ hlater row (List.mem_singleton.2 rfl) row' (List.mem_singleton.2 rfl)
      omega

end

/-! ## Waiting -/

section

variable {κ ρ : Type*}

/-- `i` wants a row that `j` holds. -/
def Waits (s : Transactions.State Unit (LockTxn κ ρ)) (i j : ℕ) : Prop :=
  i ≠ j ∧ ∃ x ∈ s.opened.get i, ∃ y ∈ s.opened.get j, ∃ row ∈ x.wants, row ∈ y.held

def Deadlocked (s : Transactions.State Unit (LockTxn κ ρ)) : Prop := ∃ i, Relation.TransGen (Waits s) i i

/-- `i` waits for `j` on a cycle. -/
def WaitsOnCycle (s : Transactions.State Unit (LockTxn κ ρ)) (i j : ℕ) : Prop :=
  Waits s i j ∧ Relation.ReflTransGen (Waits s) j i

variable {s : Transactions.State Unit (LockTxn κ ρ)} {x : LockTxn κ ρ} {row : ρ} {i j : ℕ}

theorem WaitsOnCycle.next (h : WaitsOnCycle s i j) : ∃ k, WaitsOnCycle s j k := by
  obtain ⟨hij, hback⟩ := h
  rcases Relation.ReflTransGen.cases_head hback with rfl | ⟨k, hjk, hki⟩
  · exact ⟨_, hij, .refl⟩
  · exact ⟨k, hjk, hki.tail hij⟩

theorem transGen_waitsOnCycle (h : Relation.TransGen (Waits s) i i) : Relation.TransGen (WaitsOnCycle s) i i := by
  suffices hpath : ∀ a, Relation.TransGen (Waits s) a i → Relation.ReflTransGen (Waits s) i a →
      Relation.TransGen (WaitsOnCycle s) a i from hpath i h .refl
  intro a ha
  induction ha using Relation.TransGen.head_induction_on with
  | single hstep => exact fun hback => .single ⟨hstep, hback⟩
  | head hstep hrest ih =>
    intro hback
    have hcycle := hrest.to_reflTransGen.trans hback
    exact .head ⟨hstep, hcycle⟩ (ih (hback.tail hstep))

def wantedRank (rank : ρ → ℕ) (s : Transactions.State Unit (LockTxn κ ρ)) (i : ℕ) : ℕ :=
  (((s.opened.get i).bind LockTxn.wants).map rank).getD 0

theorem wantedRank_eq (rank : ρ → ℕ) (hx : s.opened.get i = some x) (hrow : x.wants = some row) :
    wantedRank rank s i = rank row := by
  unfold wantedRank
  rw [hx, Option.bind_some, hrow]
  rfl

/-- **On every cycle some transaction wants a row ranked no higher than one it holds.** -/
theorem Deadlocked.descends (rank : ρ → ℕ) (h : Deadlocked s) :
    ∃ i j, WaitsOnCycle s i j ∧ ∃ x ∈ s.opened.get i, ∃ row ∈ x.wants, ∃ row' ∈ x.held, rank row ≤ rank row' := by
  by_contra hup
  obtain ⟨i, hi⟩ := h
  -- otherwise what is wanted rises along the cycle
  have hrise : ∀ a b, WaitsOnCycle s a b → wantedRank rank s a < wantedRank rank s b := by
    intro a b hab
    obtain ⟨c, hbc⟩ := hab.next
    obtain ⟨⟨-, x, hx, y, hy, row, hrow, hheld⟩, -⟩ := hab
    obtain ⟨-, y', hy', z, -, row', hrow', -⟩ := hbc.1
    cases hy.symm.trans hy'
    rw [wantedRank_eq rank hx hrow, wantedRank_eq rank hy hrow']
    by_contra hle
    exact hup ⟨b, c, hbc, y, hy, row', hrow', row, hheld, not_lt.1 hle⟩
  have hcycle : Relation.TransGen (fun a b => wantedRank rank s a < wantedRank rank s b) i i :=
    Relation.TransGen.mono hrise i i (transGen_waitsOnCycle hi)
  have hlt : wantedRank rank s i < wantedRank rank s i := by
    refine Relation.TransGen.trans_induction_on (motive := fun {a b} _ => wantedRank rank s a < wantedRank rank s b)
      hcycle ?_ ?_
    · exact fun hab => hab
    · exact fun _ _ hab hbc => hab.trans hbc
  exact lt_irrefl _ hlt

end

end OpenGeni.Lib
