/-
The counters of a lease and its holder rows.

`refcount`, `turn_holders` and `viewer_holders` are a cache of the holder rows. Most writers
count the rows under the lock of the lease and are safe in any interleaving. Three are not:

* the sweep's (b) waits for the lease with the rows already counted, and a holder that is
  committed meanwhile is not among them;
* the sweep's (c2) writes zeros, whoever still holds the lease;
* the force-drain deletes viewers in one statement and writes zeros in the next, each by its
  own look at the row, with other commits between the two.

`Careful` rules these out, and no more: under it the counters are those of the holder rows
after every commit, whatever the interleaving. The invariant of an open transaction is that
it has a statement to come that counts the rows, or that its version of the row has the
counters of the holder rows as it sees them.
-/
import OpenGeni.Db.LeaseTxns

namespace OpenGeni.Db

open OpenGeni.Lib

/-! ## What is claimed, and when -/

def LeaseRow.Mirrors (holders : List Holder) (row : LeaseRow) : Prop :=
  row.refcount = holders.length ∧ row.turnHolders = countKind .turn holders ∧
    row.viewerHolders = countKind .viewer holders

instance (holders : List Holder) : DecidablePred (LeaseRow.Mirrors holders) :=
  fun _ => inferInstanceAs (Decidable (_ ∧ _ ∧ _))

def LeaseTables.Mirrored (t : LeaseTables) : Prop :=
  (∀ row ∈ t.lease, row.Mirrors t.holders) ∧ (t.lease = none → t.holders = [])

instance : DecidablePred LeaseTables.Mirrored := fun _ => inferInstanceAs (Decidable (_ ∧ _))

namespace LeaseTxn

def Resizes (d : LeaseTables) (x : LeaseTxn) : Prop := (x.view d.holders).map Holder.key ≠ d.holders.map Holder.key

instance (d : LeaseTables) : DecidablePred (Resizes d) := fun _ => inferInstanceAs (Decidable (_ ≠ _))

/-- The rows that a sweep has counted, while it waits for the lease. -/
def counted (x : LeaseTxn) : Option (List Holder) := match x.todo with
  | .recountFound _ holders :: _ => holders
  | _ => none

def nextUpdate (x : LeaseTxn) : Option LeaseUpdate := match x.todo with
  | .update op :: _ => some op
  | _ => none

/-- The next statement writes zeros only where no holder row is left, and a force-drain that has
deleted viewers does write them. -/
def KeepsCount (d : LeaseTables) (x : LeaseTxn) : Prop := ∀ op ∈ x.nextUpdate, op.zeroes = true →
    ((op.run x.now (x.tables d)).2 = true → x.view d.holders = []) ∧
      ((op.run x.now (x.tables d)).2 = false → op = .warmingDrain ∨ x.deleted = [])

instance (d : LeaseTables) : DecidablePred (KeepsCount d) :=
  fun _ => inferInstanceAs (Decidable (∀ _ ∈ _, _ → (_ → _) ∧ (_ → _ ∨ _)))

end LeaseTxn

/-- No holder row comes or goes while a sweep waits with the rows counted, and no zeros are
written where holder rows are left. -/
def Careful (s : Transactions.State LeaseTables LeaseTxn) : Transactions.Event (ℕ × LeaseWrite) → Prop
  | .exec i => ∀ x ∈ s.opened.get i, x.KeepsCount s.data
  | .commit i => ∀ x ∈ s.opened.get i, x.Resizes s.data → ∀ y ∈ s.others i, y.counted = none
  | _ => True

instance (s : Transactions.State LeaseTables LeaseTxn) : DecidablePred (Careful s)
  | .exec _ => inferInstanceAs (Decidable (∀ _ ∈ _, _))
  | .commit _ => inferInstanceAs (Decidable (∀ _ ∈ _, _ → ∀ _ ∈ _, _))
  | .start _ _ => .isTrue trivial
  | .rollback _ => .isTrue trivial

/-! ## Counting by keys -/

section

variable {d : LeaseTables} {x x' y : LeaseTxn} {row row' : LeaseRow} {hs hs' : List Holder}

theorem countKind_eq (kind : LeaseHolderKind) (hs : List Holder) :
    countKind kind hs = (hs.map Holder.key).countP (·.1 == kind) := by
  rw [List.countP_map]
  rfl

theorem LeaseRow.Mirrors.congr (h : row.Mirrors hs) (hkeys : hs.map Holder.key = hs'.map Holder.key) :
    row.Mirrors hs' := by
  obtain ⟨hall, hturn, hviewer⟩ := h
  have hlen : hs.length = hs'.length := by simpa using congrArg List.length hkeys
  refine ⟨hall.trans hlen, ?_, ?_⟩
  · rw [hturn, countKind_eq, countKind_eq, hkeys]
  · rw [hviewer, countKind_eq, countKind_eq, hkeys]

theorem LeaseRow.Mirrors.of_counters (h : row.Mirrors hs) (hc : row'.counters = row.counters) :
    row'.Mirrors hs := by
  simp only [LeaseRow.counters, Prod.mk.injEq] at hc
  obtain ⟨hall, hturn, hviewer⟩ := hc
  exact ⟨hall.trans h.1, hturn.trans h.2.1, hviewer.trans h.2.2⟩

theorem LeaseRow.mirrors_nil (h : row.counters = (0, 0, 0)) : row.Mirrors [] := by
  simp only [LeaseRow.counters, Prod.mk.injEq] at h
  exact h

namespace LeaseTxn

/-- What `view` makes of the keys. -/
def viewKeys (x : LeaseTxn) (keys : List HolderKey) : List HolderKey :=
  let keys := keys.filter fun key => !x.deleted.contains key
  x.upserted.elim keys fun key => if keys.contains key then keys else keys ++ [key]

theorem holder_is_iff {kind : LeaseHolderKind} {holderId : String} {h : Holder} :
    h.is kind holderId = true ↔ h.key = (kind, holderId) := by
  simp [Holder.is, Holder.key]

theorem upsertLeaseHolder_keys (now : ℕ) (kind : LeaseHolderKind) (holderId : String) (hs : List Holder) :
    (upsertLeaseHolder now kind holderId hs).map Holder.key =
      if (kind, holderId) ∈ hs.map Holder.key then hs.map Holder.key
      else hs.map Holder.key ++ [(kind, holderId)] := by
  have hany : hs.any (Holder.is kind holderId) = true ↔ (kind, holderId) ∈ hs.map Holder.key := by
    simp only [List.any_eq_true, holder_is_iff, List.mem_map]
  unfold upsertLeaseHolder
  by_cases h : (kind, holderId) ∈ hs.map Holder.key
  · rw [if_pos (hany.2 h), if_pos h, List.map_map]
    apply List.map_congr_left
    intro a _
    dsimp only [Function.comp_apply]
    by_cases ha : a.is kind holderId = true
    · rw [if_pos ha]
      rfl
    · rw [if_neg ha]
  · rw [if_neg (mt hany.1 h), if_neg h, List.map_append]
    rfl

theorem view_keys (x : LeaseTxn) (hs : List Holder) :
    (x.view hs).map Holder.key = x.viewKeys (hs.map Holder.key) := by
  have htouch : ∀ l : List Holder,
      (l.map fun h => if some h.key = x.touched then { h with lastHeartbeatAt := x.now } else h).map
        Holder.key = l.map Holder.key := by
    intro l
    rw [List.map_map]
    apply List.map_congr_left
    intro a _
    dsimp only [Function.comp_apply]
    split <;> rfl
  have hdel : (hs.filter fun h => h.key ∉ x.deleted).map Holder.key =
      (hs.map Holder.key).filter fun key => !x.deleted.contains key := by
    rw [List.filter_map]
    congr 1
    apply List.filter_congr
    intro h _
    simp
  unfold view viewKeys
  cases x.upserted with
  | none =>
    rw [htouch, hdel]
    rfl
  | some key =>
    rw [upsertLeaseHolder_keys, htouch, hdel]
    simp only [Option.elim_some, List.contains_iff_mem]

theorem view_keys_congr (x : LeaseTxn) (h : hs.map Holder.key = hs'.map Holder.key) :
    (x.view hs).map Holder.key = (x.view hs').map Holder.key := by
  rw [view_keys, view_keys, h]

theorem view_deleted {y : LeaseTxn} (hdel : x.deleted = y.deleted) (hnow : x.now = y.now)
    (htouch : x.touched = y.touched) (hup : x.upserted = y.upserted) : x.view hs = y.view hs := by
  unfold view
  rw [hdel, hnow, htouch, hup]

theorem view_keys_clean (hdel : x.deleted = []) (hup : x.upserted = none) :
    (x.view hs).map Holder.key = hs.map Holder.key := by
  rw [view_keys]
  simp [viewKeys, hdel, hup]

end LeaseTxn

end

/-! ## What an open transaction knows -/

/-- The statements after which the counters are those of the holder rows. -/
def Statement.counts : Statement → Bool
  | .recomputeAndStampLease _ _ => true
  | .settle _ => true
  | .recount _ => true
  | .recountFound _ _ => true
  | .update op => op.zeroes && op != .warmingDrain
  | _ => false

/-- The second half of the sweep's update comes of the first only. -/
def Statement.fresh : Statement → Bool
  | .recountFound _ _ => false
  | _ => true

def WellFormed : List Statement → Prop
  | [] => True
  | statement :: todo =>
    (∀ later ∈ todo, later.fresh = true) ∧ WellFormed todo ∧ match statement with
      | .branch _ => todo = []
      | .upsertLeaseHolder _ _ => ∃ ttl setLiveness, todo = [.recomputeAndStampLease ttl setLiveness]
      | .touchLeaseHolder _ _ | .selectDrainable => ∀ later ∈ todo, later.counts = false
      | .deleteHolder _ _ | .delete _ | .deleteFound _ _ => ∃ later ∈ todo, later.counts = true
      | _ => True

theorem LeaseWrite.statements_wellFormed (op : LeaseWrite) : WellFormed op.statements := by
  cases op with
  | reapStaleLeaseHolders input =>
    by_cases h : 0 < input.turnHolderTtlMs
    · simp [LeaseWrite.statements, WellFormed, Statement.fresh, Statement.counts, h]
    · simp [LeaseWrite.statements, WellFormed, Statement.fresh, Statement.counts, h]
  | forceDrainOverLimitViewerOnlyBoxes total input =>
    by_cases h : (input.reason total).isSome = true
    · simp [LeaseWrite.statements, WellFormed, Statement.fresh, Statement.counts, LeaseUpdate.zeroes, h]
    · simp [LeaseWrite.statements, WellFormed, h]
  | _ => simp [LeaseWrite.statements, WellFormed, Statement.fresh, Statement.counts, LeaseUpdate.zeroes]

section

variable {d d' : LeaseTables} {x x' y : LeaseTxn} {row row' : LeaseRow} {others : List LeaseTxn}
  {st : Statement} {todo : List Statement}

/-- Its version of the row has the counters of the holder rows as it sees them. If it has none,
it sees them as they are. -/
def Settled (d : LeaseTables) (x : LeaseTxn) : Prop :=
  (∀ row ∈ x.row, row.Mirrors (x.view d.holders)) ∧ (x.row = none → x.deleted = [] ∧ x.upserted = none)

structure Accounted (d : LeaseTables) (x : LeaseTxn) : Prop where
  wellFormed : WellFormed x.todo
  settled : (∀ st ∈ x.todo, st.counts = false) → Settled d x
  clean : x.deleted = [] → x.upserted = none → Settled d x
  upserted : x.upserted ≠ none →
    x.row ≠ none ∧ (x.todo = [] ∨ ∃ ttl setLiveness, x.todo = [.recomputeAndStampLease ttl setLiveness])
  lease : x.deleted ≠ [] → (x.tables d).lease ≠ none
  counted : ∀ ms counted todo, x.todo = .recountFound ms counted :: todo → (counted = none → x.deleted = []) ∧
      ∀ hs ∈ counted, (x.tables d).lease ≠ none ∧ hs.map Holder.key = (x.view d.holders).map Holder.key

theorem tables_lease (x : LeaseTxn) (d : LeaseTables) : (x.tables d).lease = x.row.or d.lease := rfl

theorem Settled.mirrors (h : Settled d x) (hgood : d.Mirrored) (hl : (x.tables d).lease = some row) :
    row.Mirrors (x.view d.holders) := by
  rw [tables_lease] at hl
  cases hrow : x.row with
  | some own =>
    rw [hrow] at hl
    obtain rfl := Option.some.inj hl
    exact h.1 own hrow
  | none =>
    rw [hrow] at hl
    obtain ⟨hdel, hup⟩ := h.2 hrow
    exact (hgood.1 row hl).congr (LeaseTxn.view_keys_clean hdel hup).symm

theorem settled_of_row (hrow : x.row = some row) (h : row.Mirrors (x.view d.holders)) : Settled d x := by
  refine ⟨?_, ?_⟩
  · intro r hr
    cases hrow.symm.trans hr
    exact h
  · intro hnone
    rw [hrow] at hnone
    cases hnone

theorem Accounted.no_upsert (h : Accounted d x) (htodo : x.todo = st :: todo)
    (hst : ∀ ttl setLiveness, st ≠ .recomputeAndStampLease ttl setLiveness) : x.upserted = none := by
  by_contra hup
  obtain ⟨-, hnil | ⟨ttl, setLiveness, hone⟩⟩ := h.upserted hup
  · rw [hnil] at htodo
    cases htodo
  · rw [hone] at htodo
    exact hst ttl setLiveness (List.cons.inj htodo).1.symm

theorem WellFormed.tail (h : WellFormed (st :: todo)) : WellFormed todo := h.2.1

variable {ms ttl : ℕ} {counted : Option (List Holder)} {hs : List Holder}
  {input : AcquireLeaseInput} {setLiveness : Option SandboxLeaseLiveness} {kind : LeaseHolderKind}
  {holderId : String}

theorem WellFormed.not_found (h : WellFormed (st :: todo)) {rest : List Statement} :
    todo ≠ .recountFound ms counted :: rest := by
  rintro rfl
  have hfresh := h.1 _ List.mem_cons_self
  cases hfresh

theorem Accounted.next (h : Accounted d x) (htodo : x.todo = st :: todo) (htodo' : x'.todo = todo)
    (hdel : x'.deleted = x.deleted) (hup : x'.upserted = none ∨ (x'.row ≠ none ∧ todo = []))
    (hlease : (x.tables d).lease ≠ none → (x'.tables d).lease ≠ none)
    (hup' : x'.upserted = x.upserted)
    (hkeep : Settled d x → Settled d x') (hcount : st.counts = true → Settled d x') : Accounted d x' := by
  have hwf : WellFormed (st :: todo) := htodo ▸ h.wellFormed
  refine ⟨htodo'.symm ▸ hwf.tail, ?_, ?_, ?_, ?_, ?_⟩
  · intro hnone
    by_cases hst : st.counts = true
    · exact hcount hst
    · apply hkeep
      apply h.settled
      intro later hmem
      rw [htodo] at hmem
      obtain rfl | hmem := List.mem_cons.1 hmem
      · exact Bool.eq_false_iff.2 hst
      · exact hnone later (htodo'.symm ▸ hmem)
  · intro hd hu
    exact hkeep (h.clean (hdel ▸ hd) (hup' ▸ hu))
  · intro hu
    obtain hnone | ⟨hrow, hnil⟩ := hup
    · exact absurd hnone hu
    · exact ⟨hrow, .inl (htodo'.trans hnil)⟩
  · intro hd
    exact hlease (h.lease (hdel ▸ hd))
  · intro ms counted rest hrest
    exact absurd (htodo'.symm.trans hrest) hwf.not_found

theorem Accounted.delete (h : Accounted d x) (htodo : x.todo = st :: todo) (htodo' : x'.todo = todo)
    (hlater : ∃ later ∈ todo, later.counts = true) (hrow : x'.row = x.row)
    (hup : x'.upserted = none) (hup' : x.upserted = none)
    (hdel : x'.deleted ≠ [] → (x'.tables d).lease ≠ none)
    (hclean : x'.deleted = [] → x.deleted = [] ∧ x'.view d.holders = x.view d.holders) :
    Accounted d x' := by
  have hwf : WellFormed (st :: todo) := htodo ▸ h.wellFormed
  obtain ⟨later, hmem, hcounts⟩ := hlater
  refine ⟨htodo'.symm ▸ hwf.tail, ?_, ?_, fun hu => absurd hup hu, hdel, ?_⟩
  · intro hnone
    have hfalse := hnone later (htodo'.symm ▸ hmem)
    rw [hcounts] at hfalse
    cases hfalse
  · intro hd _
    obtain ⟨hd', hview⟩ := hclean hd
    obtain ⟨hmirrors, -⟩ := h.clean hd' hup'
    refine ⟨?_, fun _ => ⟨hd, hup⟩⟩
    rw [hrow, hview]
    exact hmirrors
  · intro ms counted rest hrest
    exact absurd (htodo'.symm.trans hrest) hwf.not_found

/-! ## What each statement does to the counters -/

theorem settle_mirrors {now : ℕ} : (row.settle now ms hs).Mirrors hs := by
  unfold LeaseRow.settle
  split <;> exact ⟨rfl, rfl, rfl⟩

theorem settleConflict_counters (h : settleConflict input hs row = .ok row') : row'.counters = row.counters := by
  obtain rfl | ⟨-, rfl⟩ := settleConflict_ok h
  · rfl
  · rfl

theorem acquireBranch_counters {role : AcquireLeaseRole}
    (h : acquireBranch input row = (role, row', ttl, setLiveness)) :
    row'.counters = row.counters := by
  unfold acquireBranch at h
  cases hl : row.liveness with
  | warm =>
    rw [hl] at h
    dsimp only at h
    split at h
    · cases h
      rfl
    · cases h
      rfl
  | _ =>
    rw [hl] at h
    cases h
    rfl

theorem LeaseTxn.write_some (h : x.write others row = some x') :
    LeaseTxn.LeaseFree others ∧ x' = { x with row := some row } := by
  obtain ⟨hfree, he⟩ := Option.ite_none_right_eq_some.1 h
  exact ⟨hfree, (Option.some.inj he).symm⟩

theorem Settled.write (h : Settled d x) (hgood : d.Mirrored) (hl : (x.tables d).lease = some row)
    (hc : row'.counters = row.counters) : Settled d { x with row := some row' } :=
  settled_of_row rfl ((h.mirrors hgood hl).of_counters hc)

/-! ## Each statement keeps what its transaction knows -/

theorem lockLease_accounted {materialize : Option AcquireLeaseInput} (hgood : d.Mirrored) (h : Accounted d x)
    (htodo : x.todo = .lockLease materialize :: todo)
    (hrun : LeaseTxn.run d others { x with todo } (.lockLease materialize) = some x') : Accounted d x' := by
  have hup : x.upserted = none := h.no_upsert htodo fun _ _ hne => by cases hne
  simp only [LeaseTxn.run] at hrun
  split at hrun
  · rename_i row _ hl
    obtain ⟨-, rfl⟩ := LeaseTxn.write_some hrun
    exact h.next htodo rfl rfl (.inl hup) (fun _ => by simp [tables_lease]) rfl
      (fun hset => settled_of_row rfl (hset.mirrors hgood hl)) (fun hc => by cases hc)
  · rename_i input hl
    obtain ⟨-, rfl⟩ := LeaseTxn.write_some hrun
    refine h.next htodo rfl rfl (.inl hup) (fun _ => by simp [tables_lease]) rfl ?_ (fun hc => by cases hc)
    intro _
    -- There is no lease, so there are no holders and none was deleted.
    have hlease : d.lease = none := (Option.or_eq_none_iff.1 hl).2
    have hdel : x.deleted = [] := by
      by_contra hd
      exact h.lease hd hl
    have hkeys : (x.view d.holders).map Holder.key = [] := by
      rw [LeaseTxn.view_keys_clean hdel hup, hgood.2 hlease, List.map_nil]
    exact settled_of_row rfl ((LeaseRow.mirrors_nil rfl).congr hkeys.symm)
  · rename_i hl
    cases hrun
    have hdel : x.deleted = [] := by
      by_contra hd
      exact h.lease hd hl
    have hset : Settled d x := h.clean hdel hup
    exact ⟨trivial, fun _ => hset, fun _ _ => hset, fun hu => absurd hup hu, h.lease,
      fun _ _ _ hnil => by cases hnil⟩

theorem settleConflict_accounted (hgood : d.Mirrored) (h : Accounted d x)
    (htodo : x.todo = .settleConflict input :: todo)
    (hrun : LeaseTxn.run d others { x with todo } (.settleConflict input) = some x') :
    Accounted d x' := by
  have hup : x.upserted = none := h.no_upsert htodo fun _ _ hne => by cases hne
  simp only [LeaseTxn.run] at hrun
  cases hrow : x.row with
  | none => simp [hrow] at hrun
  | some row =>
    simp only [hrow] at hrun
    split at hrun
    · cases hrun
    · rename_i row' hok
      cases hrun
      have hl : (x.tables d).lease = some row := by simp [tables_lease, hrow]
      exact h.next htodo rfl rfl (.inl hup) (fun _ => by simp [tables_lease]) rfl
        (fun hset => hset.write hgood hl (settleConflict_counters hok)) (fun hc => by cases hc)

theorem branch_accounted (hgood : d.Mirrored) (h : Accounted d x) (htodo : x.todo = .branch input :: todo)
    (hrun : LeaseTxn.run d others { x with todo } (.branch input) = some x') : Accounted d x' := by
  have hup : x.upserted = none := h.no_upsert htodo fun _ _ hne => by cases hne
  simp only [LeaseTxn.run] at hrun
  cases hrow : x.row with
  | none => simp [hrow] at hrun
  | some row =>
    have hl : (x.tables d).lease = some row := by simp [tables_lease, hrow]
    simp only [hrow] at hrun
    split at hrun
    · -- Fenced: the row is as it was locked.
      cases hrun
      exact h.next htodo rfl rfl (.inl hup) (fun _ => by simp [tables_lease]) rfl
        (fun hset => settled_of_row rfl (hset.mirrors hgood hl)) (fun hc => by cases hc)
    · rename_i role row' ttl setLiveness _ hbranch
      cases hrun
      refine ⟨?_, ?_, ?_, fun hu => absurd hup hu, fun _ => by simp [tables_lease], ?_⟩
      · simp [WellFormed, Statement.fresh]
      · intro hall
        have hfalse := hall (.recomputeAndStampLease ttl setLiveness) (by simp)
        cases hfalse
      · intro hd _
        exact (h.clean hd hup).write hgood hl (acquireBranch_counters hbranch)
      · intro _ _ _ hcons
        cases hcons

theorem upsertLeaseHolder_accounted (h : Accounted d x) (htodo : x.todo = .upsertLeaseHolder kind holderId :: todo)
    (hrun : LeaseTxn.run d others { x with todo } (.upsertLeaseHolder kind holderId) = some x') :
    Accounted d x' := by
  have hwf : WellFormed (.upsertLeaseHolder kind holderId :: todo) := htodo ▸ h.wellFormed
  obtain ⟨ttl, setLiveness, rfl⟩ := hwf.2.2
  obtain ⟨⟨hrow, -⟩, he⟩ := Option.ite_none_right_eq_some.1 hrun
  cases he
  refine ⟨hwf.tail, ?_, ?_, ?_, h.lease, ?_⟩
  · intro hall
    have hfalse := hall (.recomputeAndStampLease ttl setLiveness) (by simp)
    cases hfalse
  · intro _ hu
    cases hu
  · intro _
    exact ⟨Option.isSome_iff_ne_none.1 hrow, .inr ⟨ttl, setLiveness, rfl⟩⟩
  · intro _ _ _ hcons
    cases hcons

theorem recomputeAndStampLease_accounted
    (h : Accounted d x) (htodo : x.todo = .recomputeAndStampLease ttl setLiveness :: todo)
    (hrun : LeaseTxn.run d others { x with todo } (.recomputeAndStampLease ttl setLiveness) = some x') :
    Accounted d x' := by
  obtain ⟨row, -, rfl⟩ := Option.map_eq_some_iff.1 hrun
  have hset : Settled d { x with
      todo := todo
      row := some (recomputeAndStampLease x.now (x.view d.holders) ttl setLiveness row) } :=
    settled_of_row rfl ⟨rfl, rfl, rfl⟩
  have hup : x.upserted = none ∨ todo = [] := by
    by_cases hu : x.upserted = none
    · exact .inl hu
    · obtain ⟨-, hnil | ⟨_, _, hone⟩⟩ := h.upserted hu
      · rw [hnil] at htodo
        cases htodo
      · rw [hone] at htodo
        exact .inr (List.cons.inj htodo).2.symm
  refine h.next htodo rfl rfl ?_ (fun _ => by simp [tables_lease]) rfl (fun _ => hset) (fun _ => hset)
  exact hup.imp id fun hnil => ⟨by simp, hnil⟩

theorem settle_accounted (h : Accounted d x) (htodo : x.todo = .settle ms :: todo)
    (hrun : LeaseTxn.run d others { x with todo } (.settle ms) = some x') : Accounted d x' := by
  have hup : x.upserted = none := h.no_upsert htodo fun _ _ hne => by cases hne
  obtain ⟨row, -, rfl⟩ := Option.map_eq_some_iff.1 hrun
  have hset : Settled d { x with todo := todo, row := some (row.settle x.now ms (x.view d.holders)) } :=
    settled_of_row rfl settle_mirrors
  exact h.next htodo rfl rfl (.inl hup) (fun _ => by simp [tables_lease]) rfl (fun _ => hset) (fun _ => hset)

theorem lease_of_holder {a : Holder} (hgood : d.Mirrored) (hup : x.upserted = none)
    (ha : a ∈ x.view d.holders) : (x.tables d).lease ≠ none := by
  intro hnone
  have hlease : d.lease = none := (Option.or_eq_none_iff.1 hnone).2
  have hkeys : (x.view d.holders).map Holder.key = [] := by
    rw [LeaseTxn.view_keys, hgood.2 hlease]
    simp [LeaseTxn.viewKeys, hup]
  rw [List.map_eq_nil_iff.1 hkeys] at ha
  cases ha

theorem deleteHolder_accounted (hgood : d.Mirrored) (h : Accounted d x)
    (htodo : x.todo = .deleteHolder kind holderId :: todo)
    (hrun : LeaseTxn.run d others { x with todo } (.deleteHolder kind holderId) = some x') :
    Accounted d x' := by
  have hup : x.upserted = none := h.no_upsert htodo fun _ _ hne => by cases hne
  have hwf : WellFormed (.deleteHolder kind holderId :: todo) := htodo ▸ h.wellFormed
  simp only [LeaseTxn.run] at hrun
  split at hrun
  · rename_i hany
    obtain ⟨a, ha, -⟩ := List.any_eq_true.1 hany
    have hlease : (x.tables d).lease ≠ none := lease_of_holder hgood hup (x := x) ha
    obtain ⟨-, he⟩ := Option.ite_none_right_eq_some.1 hrun
    cases he
    exact h.delete htodo rfl hwf.2.2 rfl hup hup (fun _ => hlease) (fun hd => by cases hd)
  · cases hrun
    exact h.delete htodo rfl hwf.2.2 rfl hup hup h.lease (fun hd => ⟨hd, rfl⟩)

theorem deleteFound_accounted {query : HolderQuery} {keys : List HolderKey} (hgood : d.Mirrored)
    (h : Accounted d x) (htodo : x.todo = .deleteFound query keys :: todo)
    (hrun : LeaseTxn.run d others { x with todo } (.deleteFound query keys) = some x') : Accounted d x' := by
  have hup : x.upserted = none := h.no_upsert htodo fun _ _ hne => by cases hne
  have hwf : WellFormed (.deleteFound query keys :: todo) := htodo ▸ h.wellFormed
  obtain ⟨-, he⟩ := Option.ite_none_right_eq_some.1 hrun
  cases he
  refine h.delete htodo rfl hwf.2.2 rfl hup hup ?_ ?_
  · intro hd
    obtain ⟨key, hkey⟩ := List.exists_mem_of_ne_nil _ hd
    obtain hgone | hold := List.mem_append.1 hkey
    · obtain ⟨a, ha, -⟩ := List.mem_map.1 hgone
      have hview : a ∈ x.view d.holders := List.mem_of_mem_filter ha
      exact lease_of_holder hgood hup (x := x) hview
    · exact h.lease (List.ne_nil_of_mem hold)
  · intro hd
    obtain ⟨hgone, hold⟩ := List.append_eq_nil_iff.1 hd
    refine ⟨hold, ?_⟩
    -- Nothing was deleted before, and nothing is now.
    rw [LeaseTxn.view_deleted (y := x) (hd.trans hold.symm) rfl rfl rfl]

theorem delete_accounted {query : HolderQuery} (h : Accounted d x) (htodo : x.todo = .delete query :: todo)
    (hrun : LeaseTxn.run d others { x with todo } (.delete query) = some x') : Accounted d x' := by
  have hup : x.upserted = none := h.no_upsert htodo fun _ _ hne => by cases hne
  have hwf : WellFormed (.delete query :: todo) := htodo ▸ h.wellFormed
  cases hrun
  obtain ⟨later, hmem, hcounts⟩ := hwf.2.2
  refine ⟨⟨hwf.1, hwf.tail, later, hmem, hcounts⟩, ?_, h.clean, fun hu => absurd hup hu, h.lease, ?_⟩
  · intro hall
    have hfalse := hall later (List.mem_cons_of_mem _ hmem)
    rw [hcounts] at hfalse
    cases hfalse
  · intro _ _ _ hcons
    cases hcons

theorem recount_accounted (h : Accounted d x) (htodo : x.todo = .recount ms :: todo)
    (hrun : LeaseTxn.run d others { x with todo } (.recount ms) = some x') : Accounted d x' := by
  have hup : x.upserted = none := h.no_upsert htodo fun _ _ hne => by cases hne
  have hwf : WellFormed (.recount ms :: todo) := htodo ▸ h.wellFormed
  cases hrun
  refine ⟨⟨hwf.1, hwf.tail, trivial⟩, ?_, h.clean, fun hu => absurd hup hu, h.lease, ?_⟩
  · intro hall
    have hfalse := hall _ List.mem_cons_self
    cases hfalse
  · intro ms' counted rest hcons
    obtain ⟨hhead, -⟩ := List.cons.inj hcons
    obtain ⟨-, rfl⟩ := Statement.recountFound.inj hhead
    refine ⟨?_, ?_⟩
    · intro hnone
      by_contra hd
      exact h.lease hd (Option.map_eq_none_iff.1 hnone)
    · intro hs hmem
      obtain ⟨row, hl, rfl⟩ := Option.map_eq_some_iff.1 hmem
      exact ⟨fun hnone => Option.some_ne_none row (hl.symm.trans hnone), rfl⟩

theorem recountFound_accounted (h : Accounted d x) (htodo : x.todo = .recountFound ms counted :: todo)
    (hrun : LeaseTxn.run d others { x with todo } (.recountFound ms counted) = some x') :
    Accounted d x' := by
  have hup : x.upserted = none := h.no_upsert htodo fun _ _ hne => by cases hne
  obtain ⟨hnone, hsome⟩ := h.counted ms counted todo htodo
  simp only [LeaseTxn.run] at hrun
  split at hrun
  · rename_i row holders hl
    obtain ⟨-, hkeys⟩ := hsome holders rfl
    obtain ⟨-, rfl⟩ := LeaseTxn.write_some hrun
    have hset : Settled d { x with todo := todo, row := some (row.settle x.now ms holders) } :=
      settled_of_row rfl (settle_mirrors.congr hkeys)
    exact h.next htodo rfl rfl (.inl hup) (fun _ => by simp [tables_lease]) rfl (fun _ => hset) (fun _ => hset)
  · rename_i counted _ _ hno
    cases hrun
    have hset : Settled d x := by
      by_cases hc : counted = none
      · exact h.clean (hnone hc) hup
      · -- The lease that it has counted for is still there.
        obtain ⟨holders, hc⟩ := Option.ne_none_iff_exists'.1 hc
        obtain ⟨row, hl⟩ := Option.ne_none_iff_exists'.1 (hsome holders hc).1
        exact absurd hc (hno row holders hl)
    exact h.next htodo rfl rfl (.inl hup) id rfl (fun _ => hset) (fun _ => hset)

theorem update_accounted {op : LeaseUpdate} (hgood : d.Mirrored) (h : Accounted d x) (hkeep : x.KeepsCount d)
    (htodo : x.todo = .update op :: todo)
    (hrun : LeaseTxn.run d others { x with todo } (.update op) = some x') : Accounted d x' := by
  have hup : x.upserted = none := h.no_upsert htodo fun _ _ hne => by cases hne
  have hnext : op ∈ x.nextUpdate := by simp [LeaseTxn.nextUpdate, htodo]
  obtain ⟨hfound, rfl⟩ | ⟨hfound, -, row, row', hl, rfl, -, hc⟩ := LeaseTxn.run_update hrun
  · refine h.next htodo rfl rfl (.inl hup) id rfl id ?_
    intro hcounts
    -- A force-drain that finds no row has deleted nothing.
    obtain ⟨hzero, hne⟩ := Bool.and_eq_true_iff.1 hcounts
    obtain rfl | hdel := (hkeep op hnext hzero).2 hfound
    · cases hne
    · exact h.clean hdel hup
  · by_cases hzero : op.zeroes = true
    · rw [if_pos hzero] at hc
      have hset : Settled d { x with todo := todo, row := some row' } := by
        apply settled_of_row rfl
        have hview : x.view d.holders = [] := (hkeep op hnext hzero).1 hfound
        change row'.Mirrors (x.view d.holders)
        rw [hview]
        exact LeaseRow.mirrors_nil hc
      exact h.next htodo rfl rfl (.inl hup) (fun _ => by simp [tables_lease]) rfl (fun _ => hset) (fun _ => hset)
    · rw [if_neg hzero] at hc
      refine h.next htodo rfl rfl (.inl hup) (fun _ => by simp [tables_lease]) rfl
        (fun hset => hset.write hgood hl hc) ?_
      intro hcounts
      exact absurd (Bool.and_eq_true_iff.1 hcounts).1 hzero

theorem touchLeaseHolder_accounted (h : Accounted d x) (htodo : x.todo = .touchLeaseHolder kind holderId :: todo)
    (hrun : LeaseTxn.run d others { x with todo } (.touchLeaseHolder kind holderId) = some x') :
    Accounted d x' := by
  have hup : x.upserted = none := h.no_upsert htodo fun _ _ hne => by cases hne
  simp only [LeaseTxn.run] at hrun
  split at hrun
  · obtain ⟨-, he⟩ := Option.ite_none_right_eq_some.1 hrun
    cases he
    refine h.next htodo rfl rfl (.inl hup) id rfl ?_ (fun hc => by cases hc)
    intro hset
    refine ⟨?_, hset.2⟩
    intro row hrow
    apply (hset.1 row hrow).congr
    rw [LeaseTxn.view_keys, LeaseTxn.view_keys]
    rfl
  · cases hrun
    have hwf : WellFormed (.touchLeaseHolder kind holderId :: todo) := htodo ▸ h.wellFormed
    have hset : Settled d x := by
      apply h.settled
      intro later hmem
      rw [htodo] at hmem
      obtain rfl | hmem := List.mem_cons.1 hmem
      · rfl
      · exact hwf.2.2 later hmem
    exact ⟨trivial, fun _ => hset, fun _ _ => hset, fun hu => absurd hup hu, h.lease,
      fun _ _ _ hnil => by cases hnil⟩

/-- **A statement keeps what its transaction knows.** -/
theorem exec_accounted (hgood : d.Mirrored) (h : Accounted d x) (hkeep : x.KeepsCount d)
    (hexec : LeaseTxn.exec d others x = some x') : Accounted d x' := by
  unfold LeaseTxn.exec at hexec
  cases htodo : x.todo with
  | nil => simp [htodo] at hexec
  | cons st todo =>
    simp only [htodo] at hexec
    cases st with
    | lockLease materialize => exact lockLease_accounted hgood h htodo hexec
    | settleConflict input => exact settleConflict_accounted hgood h htodo hexec
    | branch input => exact branch_accounted hgood h htodo hexec
    | upsertLeaseHolder kind holderId => exact upsertLeaseHolder_accounted h htodo hexec
    | recomputeAndStampLease ttl setLiveness => exact recomputeAndStampLease_accounted h htodo hexec
    | deleteHolder kind holderId => exact deleteHolder_accounted hgood h htodo hexec
    | settle ms => exact settle_accounted h htodo hexec
    | touchLeaseHolder kind holderId => exact touchLeaseHolder_accounted h htodo hexec
    | delete query => exact delete_accounted h htodo hexec
    | deleteFound query keys => exact deleteFound_accounted hgood h htodo hexec
    | recount ms => exact recount_accounted h htodo hexec
    | recountFound ms counted => exact recountFound_accounted h htodo hexec
    | update op => exact update_accounted hgood h hkeep htodo hexec
    | lockUsage =>
      have hup : x.upserted = none := h.no_upsert htodo fun _ _ hne => by cases hne
      obtain ⟨-, he⟩ := Option.ite_none_right_eq_some.1 hexec
      cases he
      exact h.next htodo rfl rfl (.inl hup) id rfl id (fun hc => by cases hc)
    | selectDrainable =>
      have hup : x.upserted = none := h.no_upsert htodo fun _ _ hne => by cases hne
      cases hexec
      exact h.next htodo rfl rfl (.inl hup) id rfl id (fun hc => by cases hc)

/-! ## The lock of the lease -/

def Apart (x y : LeaseTxn) : Prop := x.row = none ∨ y.row = none

theorem run_row {st : Statement} (h : LeaseTxn.run d others x st = some x') (hx' : x'.row ≠ none) :
    x.row ≠ none ∨ LeaseTxn.LeaseFree others := by
  by_contra hno
  obtain ⟨hrow, hfree⟩ := not_or.1 hno
  rw [not_not] at hrow
  have hwrite : ∀ {r x₁}, LeaseTxn.write others r x₁ ≠ some x' := fun hw => hfree (LeaseTxn.write_some hw).1
  cases st with
  | lockLease materialize =>
    simp only [LeaseTxn.run] at h
    split at h
    · exact hwrite h
    · exact hwrite h
    · cases h
      exact hx' hrow
  | deleteHolder | touchLeaseHolder =>
    simp only [LeaseTxn.run] at h
    split_ifs at h
    · cases h
      exact hx' hrow
    · cases h
      exact hx' hrow
  | lockUsage | deleteFound =>
    obtain ⟨-, he⟩ := Option.ite_none_right_eq_some.1 h
    cases he
    exact hx' hrow
  | delete | recount | selectDrainable =>
    cases h
    exact hx' hrow
  | recountFound ms counted =>
    simp only [LeaseTxn.run] at h
    split at h
    · exact hwrite h
    · cases h
      exact hx' hrow
  | update op =>
    obtain ⟨-, rfl⟩ | ⟨-, hf, -⟩ := LeaseTxn.run_update h
    · exact hx' hrow
    · exact hfree hf
  | _ => simp [LeaseTxn.run, hrow] at h

theorem exec_apart (hexec : LeaseTxn.exec d others x = some x') (hapart : ∀ y ∈ others, Apart x y) :
    ∀ y ∈ others, Apart x' y := by
  intro y hy
  by_cases hx' : x'.row = none
  · exact .inl hx'
  unfold LeaseTxn.exec at hexec
  cases htodo : x.todo with
  | nil => simp [htodo] at hexec
  | cons st todo =>
    simp only [htodo] at hexec
    obtain hrow | hfree := run_row hexec hx'
    · exact .inr ((hapart y hy).resolve_left hrow)
    · exact .inr (hfree y hy)

/-! ## What a commit does -/

theorem Accounted.finished (h : Accounted d x) (hfin : x.todo = []) : Settled d x := h.settled fun st hst => by
    rw [hfin] at hst
    cases hst

theorem Settled.keys (h : Settled d x) (hrow : x.row = none) :
    (x.view d.holders).map Holder.key = d.holders.map Holder.key :=
  LeaseTxn.view_keys_clean (h.2 hrow).1 (h.2 hrow).2

theorem commit_mirrored (hgood : d.Mirrored) (h : Settled d x) : (x.tables d).Mirrored := by
  refine ⟨fun row hl => h.mirrors hgood hl, ?_⟩
  intro hnone
  obtain ⟨hrow, hlease⟩ := Option.or_eq_none_iff.1 hnone
  have hkeys : (x.view d.holders).map Holder.key = [] := by
    rw [h.keys hrow, hgood.2 hlease, List.map_nil]
  exact List.map_eq_nil_iff.1 hkeys

@[simp] theorem forget_counts (deleted : List HolderKey) : (st.forget deleted).counts = st.counts := by
  cases st <;> rfl

@[simp] theorem forget_fresh (deleted : List HolderKey) : (st.forget deleted).fresh = st.fresh := by
  cases st <;> rfl

theorem WellFormed.forget (deleted : List HolderKey) (h : WellFormed todo) :
    WellFormed (todo.map (·.forget deleted)) := by
  induction todo with
  | nil => trivial
  | cons st todo ih =>
    obtain ⟨hfresh, htail, hst⟩ := h
    refine ⟨?_, ih htail, ?_⟩
    · intro later hmem
      obtain ⟨st', hmem', rfl⟩ := List.mem_map.1 hmem
      rw [forget_fresh]
      exact hfresh st' hmem'
    · have hcounts : (∃ later ∈ todo, later.counts = true) →
          ∃ later ∈ todo.map (·.forget deleted), later.counts = true := by
        rintro ⟨later, hmem, hc⟩
        exact ⟨_, List.mem_map_of_mem hmem, (forget_counts deleted).trans hc⟩
      have hnone : (∀ later ∈ todo, later.counts = false) →
          ∀ later ∈ todo.map (·.forget deleted), later.counts = false := by
        intro hall later hmem
        obtain ⟨st', hmem', rfl⟩ := List.mem_map.1 hmem
        rw [forget_counts]
        exact hall st' hmem'
      cases st with
      | branch input =>
        obtain rfl : todo = [] := hst
        rfl
      | upsertLeaseHolder kind holderId =>
        obtain ⟨ttl, setLiveness, rfl⟩ := hst
        exact ⟨ttl, setLiveness, rfl⟩
      | touchLeaseHolder | selectDrainable => exact hnone hst
      | deleteHolder | delete | deleteFound => exact hcounts hst
      | _ => trivial

theorem observe_accounted (hx : Settled d x) (hapart : Apart x y)
    (hresizes : x.Resizes d → y.counted = none) (h : Accounted d y) :
    Accounted (x.tables d) (x.observe y) := by
  have hset : Settled d y → Settled (x.tables d) (x.observe y) := by
    intro hy
    obtain hrow | hrow := hapart
    · -- No version of the row: the keys are as they were.
      refine ⟨?_, hy.2⟩
      intro row hmem
      exact (hy.1 row hmem).congr (y.view_keys_congr (hx.keys hrow)).symm
    · refine ⟨?_, fun _ => hy.2 hrow⟩
      intro row hmem
      rw [show (x.observe y).row = none from hrow] at hmem
      cases hmem
  have hlease : (y.tables d).lease ≠ none → ((x.observe y).tables (x.tables d)).lease ≠ none := by
    intro hne hnone
    obtain ⟨hyrow, hnone⟩ := Option.or_eq_none_iff.1 hnone
    obtain ⟨-, hdlease⟩ := Option.or_eq_none_iff.1 hnone
    exact hne (Option.or_eq_none_iff.2 ⟨hyrow, hdlease⟩)
  refine ⟨h.wellFormed.forget _, ?_, ?_, ?_, fun hd => hlease (h.lease hd), ?_⟩
  · intro hall
    apply hset
    apply h.settled
    intro st hst
    rw [← forget_counts x.deleted]
    exact hall _ (List.mem_map_of_mem hst)
  · intro hd hu
    exact hset (h.clean hd hu)
  · intro hu
    obtain ⟨hrow, hnil | ⟨ttl, setLiveness, hone⟩⟩ := h.upserted hu
    · exact ⟨hrow, .inl (List.map_eq_nil_iff.2 hnil)⟩
    · refine ⟨hrow, .inr ⟨ttl, setLiveness, ?_⟩⟩
      unfold LeaseTxn.observe
      rw [hone]
      rfl
  · intro ms counted rest htodo
    obtain ⟨st, todo, hy, hst, -⟩ := List.map_eq_cons_iff.1 htodo
    have hfound : st = .recountFound ms counted := by
      cases st <;> simp_all [Statement.forget]
    rw [hfound] at hy
    obtain ⟨hnone, hsome⟩ := h.counted ms counted todo hy
    refine ⟨hnone, ?_⟩
    intro hs hmem
    obtain ⟨hl, hkeys⟩ := hsome hs hmem
    refine ⟨hlease hl, ?_⟩
    have hsame : (x.view d.holders).map Holder.key = d.holders.map Holder.key := by
      by_contra hne
      have hc : y.counted = counted := by simp [LeaseTxn.counted, hy]
      have hnot := hresizes hne
      rw [hc] at hnot
      rw [hnot] at hmem
      cases hmem
    exact hkeys.trans (y.view_keys_congr hsame).symm

theorem start_accounted (now : ℕ) (op : LeaseWrite) : Accounted d (.start now op) := by
  have hset : Settled d (.start now op) := by
    refine ⟨?_, fun _ => ⟨rfl, rfl⟩⟩
    intro row hrow
    cases hrow
  refine ⟨op.statements_wellFormed, fun _ => hset, fun _ _ => hset, fun hu => absurd rfl hu,
    fun hd => absurd rfl hd, ?_⟩
  intro ms counted rest htodo
  cases op with
  | _ => cases htodo

theorem leaseTransactions_sound :
    Transactions.Sound leaseTransactions LeaseTables.Mirrored Accounted Apart Careful where
  symm _ _ h := h.symm
  start _ op _ := start_accounted op.1 op.2
  start_apart _ _ := .inl rfl
  exec _ _ x _ hx hok hgood hinv hapart hexec :=
    ⟨exec_accounted hgood hinv (hok x hx) hexec, exec_apart hexec hapart⟩
  commit _ _ _ _ _ hgood hinv hfin := commit_mirrored hgood (hinv.finished hfin)
  commit_other _ _ x y hx hok _ hinv hfin hy hapart hother :=
    observe_accounted (hinv.finished hfin) hapart (fun hresizes => hok x hx hresizes y hy) hother
  observe_apart _ _ _ h := h

/-! ## The counters -/

theorem LeaseRow.Mirrors.nil (h : row.Mirrors hs) (hzero : row.refcount = 0) : hs = [] :=
  List.length_eq_zero_iff.1 (h.1.symm.trans hzero)

end

/-- **The counters mirror the holders.** In every run in which no holder row comes or goes while a sweep waits with
the rows counted, and no zeros are written where holder rows are left, the counters are those of the holder rows
after every commit; and a lease that a turn holds is neither draining at zero nor returned as drainable. -/
theorem lease_counters_mirror_holders {t : LeaseTables} {es : List (Transactions.Event (ℕ × LeaseWrite))}
    {s : Transactions.State LeaseTables LeaseTxn} (ht : t.Mirrored)
    (h : Run (Restrict leaseTransactions.Steps Careful) (.idle t) es s) :
    s.data.Mirrored ∧ (∀ row ∈ s.data.lease, (∃ a ∈ s.data.holders, a.kind = .turn) →
        ¬ (row.liveness = .draining ∧ row.refcount = 0)) ∧
      ∀ i x, s.opened.get i = some x → x.todo.head? = some .selectDrainable →
        ∀ row ∈ (x.tables s.data).lease, row.Drainable x.now → ∀ a ∈ (x.tables s.data).holders, a.kind ≠ .turn := by
  have hsafe := leaseTransactions_sound.run h (.idle ht)
  refine ⟨hsafe.good, ?_, ?_⟩
  · rintro row hl ⟨a, ha, -⟩ ⟨-, hzero⟩
    rw [(hsafe.good.1 row hl).nil hzero] at ha
    cases ha
  · intro i x hx htodo row hl hdrain a ha
    have hinv : Accounted s.data x := hsafe.inv _ (Slots.mem_of_get hx)
    obtain ⟨todo, hcons⟩ := List.head?_eq_some_iff.1 htodo
    have hwf : WellFormed (.selectDrainable :: todo) := hcons ▸ hinv.wellFormed
    -- The sweep has counted: nothing that counts is still to come.
    have hset : Settled s.data x := by
      apply hinv.settled
      intro later hmem
      rw [hcons] at hmem
      obtain rfl | hmem := List.mem_cons.1 hmem
      · rfl
      · exact hwf.2.2 later hmem
    have hempty : x.view s.data.holders = [] := (hset.mirrors hsafe.good hl).nil hdrain.2.2
    change a ∈ x.view s.data.holders at ha
    rw [hempty] at ha
    cases ha

/-! ## Three ways to lose count -/

namespace Counters

def empty : LeaseTables := { lease := none, holders := [] }

abbrev Events := List (Transactions.Event (ℕ × LeaseWrite))

def after (es : Events) : Transactions.State LeaseTables LeaseTxn :=
  (play leaseTransactions.step (.idle empty) es).getD (.idle empty)

def whole (i : ℕ) (now : ℕ) (op : LeaseWrite) (statements : ℕ) : Events :=
  .start i (now, op) :: (List.replicate statements (.exec i) ++ [.commit i])

def acquire (kind : LeaseHolderKind) (holderId : String) : LeaseWrite := .acquireLease
    { kind, holderId, backend := "modal", image := none, rigVersionId := none, leaseTtlMs := 1
      warmingLeaseTtlMs := none, expectedEpoch := none }

def commitWarm : LeaseWrite := .commitWarmingToWarm
    { expectedEpoch := 0, instanceId := "box", dataPlaneUrl := none, resumeBackendId := none
      resumeState := none, leaseTtlMs := 1 }

def recordCreated : LeaseWrite := .recordWarmingSandboxCreated
    { expectedEpoch := 0, instanceId := "box", resumeBackendId := none, resumeState := none
      leaseTtlMs := 1, warmingLeaseTtlMs := none }

def sweep : LeaseWrite := .reapStaleLeaseHolders { viewerHolderTtlMs := 1, turnHolderTtlMs := 0, idleGraceMs := 0 }

def forceDrain : LeaseWrite := .forceDrainOverLimitViewerOnlyBoxes 0
    { balanceMicros := 0, enforceBalance := true, maxWarmSecondsPerWorkspace := 0, idleGraceMs := 0 }

def warm : Events := whole 0 0 (acquire .viewer "v") 5 ++ whole 1 1 commitWarm 1

/-- The sweep removes the viewer and counts, with a turn between its statements and its commit. -/
def staleCount : Events :=
  warm ++ [.start 2 (5000, sweep), .exec 2, .exec 2, .start 3 (5000, acquire .turn "t"), .exec 3, .exec 3,
    .exec 3, .exec 3, .exec 3, .exec 2, .commit 3, .exec 2, .exec 2, .exec 2, .exec 2, .commit 2]

/-- The box is recorded, and the spawn takes longer than its time to live. -/
def zeroed : Events := whole 0 0 (acquire .turn "t") 5 ++ whole 1 1 recordCreated 1 ++ whole 2 5000 sweep 7

def forced : Events :=
  warm ++ [.start 2 (5000, forceDrain), .exec 2, .exec 2, .exec 2] ++ whole 3 5000 (acquire .turn "t") 5 ++
    [.exec 2, .commit 2]

def counted : Events := warm ++ [.start 2 (5000, sweep), .exec 2, .exec 2] ++ whole 3 5000 (acquire .turn "t") 5 ++
    [.exec 2, .exec 2, .exec 2, .exec 2]

end Counters

open Counters in
/-- A run in which the turn comes first, up to the sweep's last statement. -/
theorem lease_counters_mirror_holders_once :
    Run (Restrict leaseTransactions.Steps Careful) (.idle empty) counted (after counted) ∧
      (after counted).data.Mirrored ∧ (∃ row ∈ (after counted).data.lease, row.refcount = 2) := by
  have hrun : Run (Restrict leaseTransactions.Steps Careful) (.idle empty) counted (after counted) := by
    apply guarded_run
    decide +kernel
  exact ⟨hrun, (lease_counters_mirror_holders (by decide) hrun).1, by decide +kernel⟩

open Counters in
/-- Each of the three loses count. The first two leave a turn on a box that drains at zero. -/
theorem turn_on_draining_box : (Run leaseTransactions.Steps (.idle empty) staleCount (after staleCount) ∧
        ¬ (after staleCount).data.Mirrored ∧
        ∃ row ∈ (after staleCount).data.lease, row.liveness = .draining ∧ row.refcount = 0 ∧
          ∃ a ∈ (after staleCount).data.holders, a.kind = .turn) ∧
      (Run leaseTransactions.Steps (.idle empty) zeroed (after zeroed) ∧ ¬ (after zeroed).data.Mirrored ∧
        ∃ row ∈ (after zeroed).data.lease, row.liveness = .draining ∧ row.refcount = 0 ∧
          ∃ a ∈ (after zeroed).data.holders, a.kind = .turn) ∧
      (Run leaseTransactions.Steps (.idle empty) forced (after forced) ∧ ¬ (after forced).data.Mirrored) := by
  refine ⟨⟨run_of_play ?_, ?_, ?_⟩, ⟨run_of_play ?_, ?_, ?_⟩, ⟨run_of_play ?_, ?_⟩⟩
  all_goals decide +kernel

end OpenGeni.Db
