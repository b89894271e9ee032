/-
The lease transactions, statement by statement.

`SandboxLease.lean` gives each function as one step on the tables. Here the same functions
are sequences of statements, and other transactions run between two of them. The lock of the
lease row is with the transaction that has a version of the row of its own; a holder row is
locked by whoever deletes, inserts or touches it.

A statement that waits for a row goes on with the newest version of that row. What it has
read besides is as its snapshot had it: the keys that a delete has found, and the holder rows
that the sweep's update has counted. These two statements are therefore in two halves, and
the first half leaves the second, with what it has read, as the next statement. An update of
the lease row alone reads nothing else, and is one step.
-/
import OpenGeni.Lib.Transactions
import OpenGeni.Db.WarmMeter

namespace OpenGeni.Db

open OpenGeni.Lib

/-! ## The statements -/

abbrev HolderKey := LeaseHolderKind × String

def Holder.key (h : Holder) : HolderKey := (h.kind, h.holderId)

/-- The `where` of the deletes that name no holder. -/
inductive HolderQuery
  | stale (kind : LeaseHolderKind) (input : ReapInput)
  | viewers
deriving DecidableEq

def HolderQuery.selects (now : ℕ) : HolderQuery → Holder → Bool
  | .stale kind input, h => h.kind == kind && h.stale now input
  | .viewers, h => h.kind == .viewer

/-- The force-drain deletes the holders of the leases of a subselect. -/
def HolderQuery.scope (lease : Option LeaseRow) : HolderQuery → Bool
  | .stale _ _ => true
  | .viewers => lease.any fun row => decide row.ViewerOnly

inductive LeaseUpdate
  | recordWarmingSandboxCreated (input : RecordInput)
  | commitWarmingToWarm (input : CommitInput)
  | failWarmingToCold (expectedEpoch : ℕ)
  | refreshLease (leaseTtlMs expectedEpoch : ℕ)
  | warmingReset
  | warmingDrain
  | reArmDrainingLease (leaseTtlMs : ℕ)
  | drainViewerOnly (idleGraceMs : ℕ)
  | confirmDrainCold (expectedEpoch : ℕ)
  | persistDrainSnapshot (expectedEpoch : ℕ) (workspaceArchive : Option Archive)
  | persistWarmSnapshot (input : PersistWarmInput)
deriving DecidableEq

def LeaseUpdate.run (now : ℕ) (t : LeaseTables) : LeaseUpdate → LeaseTables × Bool
  | .recordWarmingSandboxCreated input => Db.recordWarmingSandboxCreated now input t
  | .commitWarmingToWarm input => Db.commitWarmingToWarm now input t
  | .failWarmingToCold expectedEpoch => Db.failWarmingToCold expectedEpoch t
  | .refreshLease leaseTtlMs expectedEpoch =>
    t.updateWhere (fun row => row.leaseEpoch = expectedEpoch ∧ (row.liveness = .warm ∨ row.liveness = .warming))
      fun row => { row with expiresAt := afterMs now leaseTtlMs }
  | .warmingReset =>
    t.updateWhere (fun row => row.liveness = .warming ∧ row.expiresAt < now ∧ row.instanceId = none)
      (·.warmingReset now)
  | .warmingDrain =>
    t.updateWhere (fun row => row.liveness = .warming ∧ row.expiresAt < now ∧ row.instanceId ≠ none)
      (·.warmingDrain now)
  | .reArmDrainingLease leaseTtlMs => Db.reArmDrainingLease now leaseTtlMs t
  | .drainViewerOnly idleGraceMs => Db.drainViewerOnly now idleGraceMs t
  | .confirmDrainCold expectedEpoch => Db.confirmDrainCold expectedEpoch t
  | .persistDrainSnapshot expectedEpoch workspaceArchive =>
    let (t, result) := Db.persistDrainSnapshot now expectedEpoch workspaceArchive t
    (t, result.wrote)
  | .persistWarmSnapshot input =>
    let (t, result) := Db.persistWarmSnapshot input t
    (t, result.wrote)

inductive Statement
  /-- The `select .. for update`, for `acquireLease` after the insertion of the row. -/
  | lockLease (materialize : Option AcquireLeaseInput)
  | settleConflict (input : AcquireLeaseInput)
  | branch (input : AcquireLeaseInput)
  | upsertLeaseHolder (kind : LeaseHolderKind) (holderId : String)
  | recomputeAndStampLease (leaseTtlMs : ℕ) (setLiveness : Option SandboxLeaseLiveness)
  | deleteHolder (kind : LeaseHolderKind) (holderId : String)
  /-- The counts of a release and the update with them. -/
  | settle (idleGraceMs : ℕ)
  | touchLeaseHolder (kind : LeaseHolderKind) (holderId : String)
  | lockUsage
  | delete (query : HolderQuery)
  | deleteFound (query : HolderQuery) (keys : List HolderKey)
  | recount (idleGraceMs : ℕ)
  | recountFound (idleGraceMs : ℕ) (counted : Option (List Holder))
  | update (op : LeaseUpdate)
  | selectDrainable
deriving DecidableEq

/-- A row that a delete has found and that is gone is not found again under its key. -/
def Statement.forget (deleted : List HolderKey) : Statement → Statement
  | .deleteFound query keys => .deleteFound query (keys.filter (· ∉ deleted))
  | statement => statement

def LeaseWrite.statements : LeaseWrite → List Statement
  | .acquireLease input => [.lockLease (some input), .settleConflict input, .branch input]
  | .recordWarmingSandboxCreated input => [.update (.recordWarmingSandboxCreated input)]
  | .commitWarmingToWarm input => [.update (.commitWarmingToWarm input)]
  | .failWarmingToCold expectedEpoch => [.update (.failWarmingToCold expectedEpoch)]
  | .releaseLeaseHolder input =>
    [.lockLease none, .deleteHolder input.kind input.holderId, .settle input.idleGraceMs]
  | .heartbeatLeaseHolder kind holderId leaseTtlMs expectedEpoch =>
    [.touchLeaseHolder kind holderId, .update (.refreshLease leaseTtlMs expectedEpoch)]
  | .reapStaleLeaseHolders input =>
    .delete (.stale .viewer input) :: ((if 0 < input.turnHolderTtlMs then [.delete (.stale .turn input)] else []) ++
        [.recount input.idleGraceMs, .update .warmingReset, .update .warmingDrain, .selectDrainable])
  | .reArmDrainingLease leaseTtlMs => [.update (.reArmDrainingLease leaseTtlMs)]
  | .forceDrainOverLimitViewerOnlyBoxes total input =>
    .lockUsage ::
      if (input.reason total).isSome then [.delete .viewers, .update (.drainViewerOnly input.idleGraceMs)]
      else []
  | .confirmDrainCold expectedEpoch => [.update (.confirmDrainCold expectedEpoch)]
  | .persistDrainSnapshot expectedEpoch workspaceArchive =>
    [.update (.persistDrainSnapshot expectedEpoch workspaceArchive)]
  | .persistWarmSnapshot input => [.update (.persistWarmSnapshot input)]

/-! ## An open transaction -/

structure LeaseTxn where
  now : ℕ
  todo : List Statement
  /-- Its version of the lease row, once it has locked it. -/
  row : Option LeaseRow
  deleted : List HolderKey
  touched : Option HolderKey
  upserted : Option HolderKey
  usage : Bool
deriving DecidableEq

namespace LeaseTxn

def start (now : ℕ) (op : LeaseWrite) : LeaseTxn :=
  { now, todo := op.statements, row := none, deleted := [], touched := none, upserted := none, usage := false }

def view (x : LeaseTxn) (holders : List Holder) : List Holder :=
  let holders := holders.filter fun h => h.key ∉ x.deleted
  let holders := holders.map fun h => if some h.key = x.touched then { h with lastHeartbeatAt := x.now } else h
  match x.upserted with
  | none => holders
  | some (kind, holderId) => upsertLeaseHolder x.now kind holderId holders

def tables (x : LeaseTxn) (d : LeaseTables) : LeaseTables :=
  { lease := x.row.or d.lease, holders := x.view d.holders }

def Locks (x : LeaseTxn) (key : HolderKey) : Prop := key ∈ x.deleted ∨ x.touched = some key ∨ x.upserted = some key

instance (x : LeaseTxn) : DecidablePred x.Locks := fun _ => inferInstanceAs (Decidable (_ ∨ _ ∨ _))

def LeaseFree (others : List LeaseTxn) : Prop := ∀ y ∈ others, y.row = none

instance : DecidablePred LeaseFree := fun _ => inferInstanceAs (Decidable (∀ _ ∈ _, _))

def HoldersFree (others : List LeaseTxn) (keys : List HolderKey) : Prop := ∀ key ∈ keys, ∀ y ∈ others, ¬ y.Locks key

instance (others : List LeaseTxn) : DecidablePred (HoldersFree others) :=
  fun _ => inferInstanceAs (Decidable (∀ _ ∈ _, ∀ _ ∈ others, _))

def write (others : List LeaseTxn) (row : LeaseRow) (x : LeaseTxn) : Option LeaseTxn :=
  if LeaseFree others then some { x with row := some row } else none

def run (d : LeaseTables) (others : List LeaseTxn) (x : LeaseTxn) : Statement → Option LeaseTxn
  | .lockLease materialize =>
    match (x.tables d).lease, materialize with
    | some row, _ => x.write others row
    | none, some input => x.write others (freshLease x.now input)
    | none, none => some { x with todo := [] }
  | .settleConflict input =>
    match x.row with
    | none => none
    | some row =>
      match Db.settleConflict input (x.view d.holders) row with
      -- The refusal is thrown: what is left is to roll back.
      | .error _ => none
      | .ok row => some { x with row := some row }
  | .branch input =>
    match x.row with
    | none => none
    | some row =>
      match acquireBranch input row with
      | (.fenced, _, _, _) => some x
      | (_, row, ttl, setLiveness) =>
        some { x with
            row := some row
            todo := [.upsertLeaseHolder input.kind input.holderId, .recomputeAndStampLease ttl setLiveness] }
  | .upsertLeaseHolder kind holderId =>
    if x.row.isSome ∧ HoldersFree others [(kind, holderId)] then
      some { x with upserted := some (kind, holderId) }
    else
      none
  | .recomputeAndStampLease ttl setLiveness =>
    x.row.map fun row =>
      { x with row := some (Db.recomputeAndStampLease x.now (x.view d.holders) ttl setLiveness row) }
  | .deleteHolder kind holderId =>
    if (x.view d.holders).any (Holder.is kind holderId) then
      if HoldersFree others [(kind, holderId)] then
        some { x with deleted := (kind, holderId) :: x.deleted }
      else
        none
    else
      some x
  | .settle idleGraceMs =>
    x.row.map fun row => { x with row := some (row.settle x.now idleGraceMs (x.view d.holders)) }
  | .touchLeaseHolder kind holderId =>
    if (x.view d.holders).any (Holder.is kind holderId) then
      if HoldersFree others [(kind, holderId)] then some { x with touched := some (kind, holderId) } else none
    else
      some { x with todo := [] }
  | .lockUsage => if ∀ y ∈ others, y.usage = false then some { x with usage := true } else none
  | .delete query =>
    let keys := if query.scope (x.tables d).lease then
        ((x.view d.holders).filter (query.selects x.now)).map Holder.key
      else
        []
    some { x with todo := .deleteFound query keys :: x.todo }
  | .deleteFound query keys =>
    if HoldersFree others keys then
      -- A row that it has waited for is looked at again.
      let gone := (x.view d.holders).filter fun h => h.key ∈ keys ∧ query.selects x.now h
      some { x with deleted := gone.map Holder.key ++ x.deleted }
    else
      none
  | .recount idleGraceMs =>
    let counted := (x.tables d).lease.map fun _ => x.view d.holders
    some { x with todo := .recountFound idleGraceMs counted :: x.todo }
  | .recountFound idleGraceMs counted =>
    match (x.tables d).lease, counted with
    | some row, some holders => x.write others (row.settle x.now idleGraceMs holders)
    | _, _ => some x
  | .update op =>
    let (t, found) := op.run x.now (x.tables d)
    if found then t.lease.bind (x.write others ·) else some x
  | .selectDrainable => some x

def exec (d : LeaseTables) (others : List LeaseTxn) (x : LeaseTxn) : Option LeaseTxn := match x.todo with
  | [] => none
  | statement :: todo => run d others { x with todo } statement

def commit (d : LeaseTables) (x : LeaseTxn) : LeaseTables := x.tables d

def observe (x y : LeaseTxn) : LeaseTxn := { y with todo := y.todo.map (·.forget x.deleted) }

end LeaseTxn

def leaseTransactions : Transactions (ℕ × LeaseWrite) LeaseTables LeaseTxn where
  start op := .start op.1 op.2
  exec := LeaseTxn.exec
  finished x := x.todo = []
  commit := LeaseTxn.commit
  observe := LeaseTxn.observe

/-! ## What an update of the lease row does -/

def LeaseRow.counters (row : LeaseRow) : ℕ × ℕ × ℕ := (row.refcount, row.turnHolders, row.viewerHolders)

def LeaseUpdate.zeroes : LeaseUpdate → Bool
  | .warmingDrain => true
  | .drainViewerOnly _ => true
  | _ => false

section

variable {now : ℕ} {t t' d : LeaseTables} {row row' : LeaseRow} {others : List LeaseTxn} {x x' : LeaseTxn}

/-- It has found no row and changes nothing, or it has changed the row to one with the counters of `c`. -/
def LeaseTables.Updates (t : LeaseTables) (c : ℕ × ℕ × ℕ → ℕ × ℕ × ℕ) (result : LeaseTables × Bool) : Prop :=
  (result.2 = false ∧ result.1 = t) ∨
    (result.2 = true ∧ ∃ row row', t.lease = some row ∧ result.1 = { t with lease := some row' } ∧
      row'.counters = c row.counters)

theorem updateWhere_updates {p : LeaseRow → Prop} [DecidablePred p] {f : LeaseRow → LeaseRow}
    {c : ℕ × ℕ × ℕ → ℕ × ℕ × ℕ} (hf : ∀ row, p row → (f row).counters = c row.counters) :
    t.Updates c (t.updateWhere p f) := by
  obtain ⟨hfound, row, hl, hp, he⟩ | ⟨hfound, he, -⟩ :=
    updateWhere_cases (Prod.mk.eta (p := t.updateWhere p f)).symm
  · exact .inr ⟨hfound, row, f row, hl, he, hf row hp⟩
  · exact .inl ⟨hfound, he⟩

theorem LeaseUpdate.run_updates (op : LeaseUpdate) (now : ℕ) (t : LeaseTables) :
    t.Updates (fun c => if op.zeroes then (0, 0, 0) else c) (op.run now t) := by
  cases op with
  | warmingReset =>
    refine updateWhere_updates fun row hp => ?_
    unfold LeaseRow.warmingReset
    rw [if_pos hp]
    rfl
  | warmingDrain =>
    refine updateWhere_updates fun row hp => ?_
    unfold LeaseRow.warmingDrain
    rw [if_pos hp]
    rfl
  | persistDrainSnapshot expectedEpoch workspaceArchive =>
    unfold LeaseUpdate.run Db.persistDrainSnapshot
    cases hl : t.lease with
    | none => exact .inl ⟨rfl, rfl⟩
    | some row =>
      by_cases hidle : row.Idle expectedEpoch
      · cases workspaceArchive with
        | none =>
          simp only [if_pos hidle]
          exact .inr ⟨rfl, row, row, hl, by rw [← hl], rfl⟩
        | some archive =>
          simp only [if_pos hidle]
          exact .inr ⟨rfl, row, _, hl, rfl, rfl⟩
      · simp only [if_neg hidle]
        exact .inl ⟨rfl, rfl⟩
  | persistWarmSnapshot input =>
    unfold LeaseUpdate.run Db.persistWarmSnapshot
    cases hl : t.lease with
    | none => exact .inl ⟨rfl, rfl⟩
    | some row =>
      by_cases hwarm : row.liveness = .warm ∧ row.leaseEpoch = input.expectedEpoch
      · simp only [if_pos hwarm]
        by_cases hlate : row.workspaceArchiveAt.any (input.capturedAtMs ≤ ·) = true
        · simp only [if_pos hlate]
          exact .inl ⟨rfl, rfl⟩
        · simp only [if_neg hlate]
          by_cases hsoon : 0 < input.minIntervalMs ∧
              row.workspaceArchiveAt.any (input.capturedAtMs - · < input.minIntervalMs) = true
          · simp only [if_pos hsoon]
            exact .inl ⟨rfl, rfl⟩
          · simp only [if_neg hsoon]
            exact .inr ⟨rfl, row, _, hl, rfl, rfl⟩
      · simp only [if_neg hwarm]
        exact .inl ⟨rfl, rfl⟩
  | _ => exact updateWhere_updates fun _ _ => rfl

theorem LeaseTxn.run_update {op : LeaseUpdate} (h : x.run d others (.update op) = some x') :
    ((op.run x.now (x.tables d)).2 = false ∧ x' = x) ∨
      ((op.run x.now (x.tables d)).2 = true ∧ LeaseTxn.LeaseFree others ∧
        ∃ row row', (x.tables d).lease = some row ∧ x' = { x with row := some row' } ∧
          (op.run x.now (x.tables d)).1 = { x.tables d with lease := some row' } ∧
          row'.counters = if op.zeroes then (0, 0, 0) else row.counters) := by
  simp only [LeaseTxn.run] at h
  obtain ⟨hfound, he⟩ | ⟨hfound, row, row', hl, he, hc⟩ := op.run_updates x.now (x.tables d)
  · refine .inl ⟨hfound, ?_⟩
    rw [hfound] at h
    exact (Option.some.inj h).symm
  · refine .inr ⟨hfound, ?_⟩
    rw [hfound, he, if_pos rfl] at h
    obtain ⟨hfree, hx'⟩ := Option.ite_none_right_eq_some.1 h
    exact ⟨hfree, row, row', hl, (Option.some.inj hx').symm, he, hc⟩

end

end OpenGeni.Db
