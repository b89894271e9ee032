/-
The lease row of a sandbox group and what is written to it.

A group of sessions shares one sandbox. Its row in `sandbox_leases` says whether there is a
box and which, the rows in `sandbox_lease_holders` say who wants one. Every function of this
file is one transaction on the two tables, for one group: it locks the row or updates it in
one statement, so a run of committed transactions is a composition of these functions. Where
a transaction has several statements that can be interleaved, the statements are definitions
of their own. `now` is the transaction's `now()`, in microseconds.
-/
import Mathlib

namespace OpenGeni.Db

/-! ## The tables -/

inductive SandboxLeaseLiveness
  | cold | warming | warm | draining
deriving DecidableEq

inductive LeaseHolderKind
  | turn | viewer
deriving DecidableEq

/-- A row of `sandbox_lease_holders`. -/
structure Holder where
  kind : LeaseHolderKind
  holderId : String
  lastHeartbeatAt : ℕ
deriving DecidableEq

/-- A captured workspace, in base64. Every writer checks that the capture is not empty. -/
@[ext] structure Archive where
  base64 : String
  nonempty : base64 ≠ ""

instance : DecidableEq Archive := fun a b => decidable_of_iff (a.base64 = b.base64) Archive.ext_iff.symm

/-- The JSON of `resume_state`. The last four fields are those of its `sessionState`. -/
structure Envelope where
  backendId : Option String
  /-- The identity in `providerState`, without which the box cannot be resumed. -/
  sandboxId : Option String
  workspaceArchive : Option Archive
  workspaceArchivePrev : Option Archive
  workspaceArchiveAt : Option ℕ
deriving DecidableEq

/-- A row of `sandbox_leases`. -/
structure LeaseRow where
  liveness : SandboxLeaseLiveness
  refcount : ℕ
  turnHolders : ℕ
  viewerHolders : ℕ
  instanceId : Option String
  backend : String
  image : Option String
  rigVersionId : Option String
  dataPlaneUrl : Option String
  terminalDataPlaneUrl : Option String
  leaseEpoch : ℕ
  resumeBackendId : Option String
  resumeState : Option Envelope
  lastMeterAt : Option ℕ
  lastMeterTick : ℕ
  expiresAt : ℕ
deriving DecidableEq

structure LeaseTables where
  lease : Option LeaseRow
  holders : List Holder
deriving DecidableEq

/-- `now() + interval 'ms milliseconds'`. -/
def afterMs (now ms : ℕ) : ℕ := now + ms * 1000

/-- `resume_state #>> '{sessionState,workspaceArchive}'`. -/
def LeaseRow.workspaceArchive (row : LeaseRow) : Option Archive := row.resumeState.bind (·.workspaceArchive)

/-- `resume_state #>> '{sessionState,workspaceArchivePrev}'`. -/
def LeaseRow.workspaceArchivePrev (row : LeaseRow) : Option Archive := row.resumeState.bind (·.workspaceArchivePrev)

/-- `resume_state #>> '{sessionState,workspaceArchiveAt}'`. -/
def LeaseRow.workspaceArchiveAt (row : LeaseRow) : Option ℕ := row.resumeState.bind (·.workspaceArchiveAt)

/-- The identity of the box that `resume_state` describes. -/
def LeaseRow.sandboxId (row : LeaseRow) : Option String := row.resumeState.bind (·.sandboxId)

/-- `update sandbox_leases set .. where ..`, with whether a row was found. -/
def LeaseTables.updateWhere (p : LeaseRow → Prop) [DecidablePred p] (f : LeaseRow → LeaseRow)
    (t : LeaseTables) : LeaseTables × Bool :=
  match t.lease with
  | none => (t, false)
  | some row => if p row then ({ t with lease := some (f row) }, true) else (t, false)

/-! ## Holders -/

/-- The row of the holder `(kind, holderId)`. -/
def Holder.is (kind : LeaseHolderKind) (holderId : String) (h : Holder) : Bool :=
  h.kind == kind && h.holderId == holderId

/-- `count(*) filter (where kind = ..)`. -/
def countKind (kind : LeaseHolderKind) (holders : List Holder) : ℕ := holders.countP (·.kind == kind)

def upsertLeaseHolder (now : ℕ) (kind : LeaseHolderKind) (holderId : String) (holders : List Holder) :
    List Holder :=
  if holders.any (Holder.is kind holderId) then
    holders.map fun h => if h.is kind holderId then { h with lastHeartbeatAt := now } else h
  else
    holders ++ [{ kind, holderId, lastHeartbeatAt := now }]

def LeaseRow.recount (holders : List Holder) (row : LeaseRow) : LeaseRow := { row with
    refcount := holders.length
    turnHolders := countKind .turn holders
    viewerHolders := countKind .viewer holders }

def recomputeAndStampLease (now : ℕ) (holders : List Holder) (leaseTtlMs : ℕ)
    (setLiveness : Option SandboxLeaseLiveness) (row : LeaseRow) : LeaseRow :=
  { row.recount holders with
    expiresAt := afterMs now leaseTtlMs
    liveness := setLiveness.getD row.liveness }

/-! ## acquireLease -/

structure AcquireLeaseInput where
  kind : LeaseHolderKind
  holderId : String
  backend : String
  image : Option String
  rigVersionId : Option String
  leaseTtlMs : ℕ
  warmingLeaseTtlMs : Option ℕ
  expectedEpoch : Option ℕ
deriving DecidableEq

inductive AcquireLeaseRole
  | spawner | attached | rearmed | fenced
deriving DecidableEq

inductive AcquireLeaseError
  | imageConflict (currentImage requestedImage : String)
  | rigConflict (currentRigVersionId requestedRigVersionId : String)

def freshLease (now : ℕ) (input : AcquireLeaseInput) : LeaseRow :=
  { liveness := .cold, refcount := 0, turnHolders := 0, viewerHolders := 0, instanceId := none
    backend := input.backend, image := input.image, rigVersionId := input.rigVersionId, dataPlaneUrl := none
    terminalDataPlaneUrl := none, leaseEpoch := 0, resumeBackendId := none, resumeState := none, lastMeterAt := none
    lastMeterTick := 0, expiresAt := afterMs now input.leaseTtlMs }

/-- The live box runs another image or rig version: `(current, requested)`. -/
def conflict (current requested : Option String) : Option (String × String) := match requested, current with
  | some r, some c => if c ≠ r then some (c, r) else none
  | _, _ => none

def LeaseRow.restamp (input : AcquireLeaseInput) (row : LeaseRow) : LeaseRow := { row with
    image := input.image.or row.image
    rigVersionId := input.rigVersionId.or row.rigVersionId }

def LeaseRow.recreate (input : AcquireLeaseInput) (row : LeaseRow) : LeaseRow := { row.restamp input with
    liveness := .cold
    instanceId := none
    dataPlaneUrl := none
    terminalDataPlaneUrl := none
    resumeBackendId := none
    resumeState := none }

/-- Whether the run brings another image or rig version than the live box has. -/
def LeaseRow.conflicts (input : AcquireLeaseInput) (row : LeaseRow) : Bool := row.liveness ≠ .cold &&
    ((conflict row.image input.image).isSome || (conflict row.rigVersionId input.rigVersionId).isSome)

/-- The shared-state check: the row to go on with, or the refusal. -/
def settleConflict (input : AcquireLeaseInput) (holders : List Holder) (row : LeaseRow) :
    Except AcquireLeaseError LeaseRow :=
  if row.conflicts input then
    if holders.any (fun h => !h.is input.kind input.holderId) then
      match conflict row.image input.image, conflict row.rigVersionId input.rigVersionId with
      | some (current, requested), _ => .error (.imageConflict current requested)
      | none, some (current, requested) => .error (.rigConflict current requested)
      | none, none => .ok row
    else
      .ok (row.recreate input)
  else
    .ok row

/-- What the branch on the liveness does with the row: the role, the row before the counters are
stamped, the time to live and the liveness to stamp. -/
def acquireBranch (input : AcquireLeaseInput) (row : LeaseRow) :
    AcquireLeaseRole × LeaseRow × ℕ × Option SandboxLeaseLiveness :=
  match row.liveness with
  | .draining => (.rearmed, row, input.leaseTtlMs, some .warm)
  | .cold =>
    (.spawner, { row.restamp input with liveness := .warming }, input.warmingLeaseTtlMs.getD input.leaseTtlMs, none)
  | .warm =>
    if input.kind = .turn ∧ input.expectedEpoch.any (· ≠ row.leaseEpoch) then
      (.fenced, row, input.leaseTtlMs, none)
    else
      (.attached, row, input.leaseTtlMs, none)
  | .warming => (.attached, row, input.warmingLeaseTtlMs.getD input.leaseTtlMs, none)

/-- The get-or-create transaction. A refusal rolls everything back. -/
def acquireLease (now : ℕ) (input : AcquireLeaseInput) (t : LeaseTables) :
    Except AcquireLeaseError (AcquireLeaseRole × LeaseRow) × LeaseTables :=
  match settleConflict input t.holders (t.lease.getD (freshLease now input)) with
  | .error e => (.error e, t)
  | .ok row =>
    match acquireBranch input row with
    | (.fenced, row, _, _) => (.ok (.fenced, row), { t with lease := some row })
    | (role, row, ttl, setLiveness) =>
      let holders := upsertLeaseHolder now input.kind input.holderId t.holders
      let row := recomputeAndStampLease now holders ttl setLiveness row
      (.ok (role, row), { lease := some row, holders })

/-! ## The spawner's writes -/

structure CommitInput where
  expectedEpoch : ℕ
  instanceId : String
  dataPlaneUrl : Option String
  resumeBackendId : Option String
  resumeState : Option Envelope
  leaseTtlMs : ℕ
deriving DecidableEq

def LeaseRow.Warming (expectedEpoch : ℕ) (row : LeaseRow) : Prop :=
  row.liveness = .warming ∧ row.leaseEpoch = expectedEpoch

instance (expectedEpoch : ℕ) : DecidablePred (LeaseRow.Warming expectedEpoch) :=
  fun _ => inferInstanceAs (Decidable (_ ∧ _))

def commitWarmingToWarm (now : ℕ) (input : CommitInput) (t : LeaseTables) : LeaseTables × Bool :=
  t.updateWhere (·.Warming input.expectedEpoch) fun row =>
    { row with
      liveness := .warm
      instanceId := some input.instanceId
      dataPlaneUrl := input.dataPlaneUrl
      terminalDataPlaneUrl := none
      resumeBackendId := input.resumeBackendId
      resumeState := input.resumeState
      leaseEpoch := row.leaseEpoch + 1
      expiresAt := afterMs now input.leaseTtlMs }

structure RecordInput where
  expectedEpoch : ℕ
  instanceId : String
  resumeBackendId : Option String
  resumeState : Option Envelope
  leaseTtlMs : ℕ
  warmingLeaseTtlMs : Option ℕ
deriving DecidableEq

/-- Makes the created box durable while the row is still warming. -/
def recordWarmingSandboxCreated (now : ℕ) (input : RecordInput) (t : LeaseTables) : LeaseTables × Bool :=
  t.updateWhere (·.Warming input.expectedEpoch) fun row =>
    { row with
      instanceId := some input.instanceId
      resumeBackendId := input.resumeBackendId
      resumeState := input.resumeState
      expiresAt := afterMs now (input.warmingLeaseTtlMs.getD input.leaseTtlMs) }

/-- The minimal envelope that keeps the archives, and nothing of the box. -/
def Envelope.archiveOnly (resumeBackendId : Option String) (e : Envelope) : Envelope := { e with
    backendId := e.backendId.or resumeBackendId
    sandboxId := none }

/-- What both ways to cold make of the row. The archives survive, the box does not. -/
def LeaseRow.goCold (row : LeaseRow) : LeaseRow := { row with
    liveness := .cold
    instanceId := none
    dataPlaneUrl := none
    terminalDataPlaneUrl := none
    resumeState :=
      if row.workspaceArchive.isSome then row.resumeState.map (·.archiveOnly row.resumeBackendId) else none
    resumeBackendId := if row.workspaceArchive.isSome then row.resumeBackendId else none }

def failWarmingToCold (expectedEpoch : ℕ) (t : LeaseTables) : LeaseTables × Bool :=
  t.updateWhere (·.Warming expectedEpoch) (·.goCold)

/-! ## Holders that leave and holders that live -/

structure ReleaseInput where
  kind : LeaseHolderKind
  holderId : String
  idleGraceMs : ℕ

def LeaseRow.settle (now idleGraceMs : ℕ) (holders : List Holder) (row : LeaseRow) : LeaseRow :=
  if row.liveness = .warm ∧ holders.length = 0 ∧ countKind .turn holders = 0 then
    { row.recount holders with
      liveness := .draining
      expiresAt := afterMs now idleGraceMs }
  else
    row.recount holders

def releaseLeaseHolder (now : ℕ) (input : ReleaseInput) (t : LeaseTables) : LeaseTables := match t.lease with
  | none => t
  | some row =>
    let holders := t.holders.filter fun h => !h.is input.kind input.holderId
    { lease := some (row.settle now input.idleGraceMs holders), holders }

def touchLeaseHolder (now : ℕ) (kind : LeaseHolderKind) (holderId : String) (t : LeaseTables) :
    LeaseTables × Bool :=
  ({ t with
      holders := t.holders.map fun h => if h.is kind holderId then { h with lastHeartbeatAt := now } else h },
    t.holders.any (Holder.is kind holderId))

/-- Refreshes the holder and, under its own epoch, the time to live of the lease. -/
def heartbeatLeaseHolder (now : ℕ) (kind : LeaseHolderKind) (holderId : String)
    (leaseTtlMs expectedEpoch : ℕ) (t : LeaseTables) : LeaseTables × Bool :=
  match touchLeaseHolder now kind holderId t with
  | (t, false) => (t, false)
  | (t, true) =>
    t.updateWhere (fun row => row.leaseEpoch = expectedEpoch ∧ (row.liveness = .warm ∨ row.liveness = .warming))
      fun row => { row with expiresAt := afterMs now leaseTtlMs }

/-! ## The sweep -/

structure ReapInput where
  viewerHolderTtlMs : ℕ
  turnHolderTtlMs : ℕ
  idleGraceMs : ℕ
deriving DecidableEq

def Holder.stale (now : ℕ) (input : ReapInput) (h : Holder) : Bool := match h.kind with
  | .viewer => afterMs h.lastHeartbeatAt input.viewerHolderTtlMs < now
  | .turn => 0 < input.turnHolderTtlMs && afterMs h.lastHeartbeatAt input.turnHolderTtlMs < now

def LeaseRow.warmingReset (now : ℕ) (row : LeaseRow) : LeaseRow :=
  if row.liveness = .warming ∧ row.expiresAt < now ∧ row.instanceId = none then
    { row with
      liveness := .cold
      instanceId := none
      resumeBackendId := none
      resumeState := none
      dataPlaneUrl := none
      terminalDataPlaneUrl := none }
  else
    row

/-- (c2) The spawner died after: the box becomes drainable at once. -/
def LeaseRow.warmingDrain (now : ℕ) (row : LeaseRow) : LeaseRow :=
  if row.liveness = .warming ∧ row.expiresAt < now ∧ row.instanceId ≠ none then
    { row with
      liveness := .draining
      refcount := 0
      turnHolders := 0
      viewerHolders := 0
      dataPlaneUrl := none
      terminalDataPlaneUrl := none
      expiresAt := now - 1000 }
  else
    row

def LeaseRow.Drainable (now : ℕ) (row : LeaseRow) : Prop :=
  row.liveness = .draining ∧ row.expiresAt < now ∧ row.refcount = 0

instance (now : ℕ) : DecidablePred (LeaseRow.Drainable now) :=
  fun _ => inferInstanceAs (Decidable (_ ∧ _ ∧ _))

structure ReapDrainable where
  instanceId : Option String
  leaseEpoch : ℕ

/-- The sweep, without the calls to the provider: `(a)` and `(a2)`, `(b)`, `(c1)`, `(c2)` and `(d)`. -/
def reapStaleLeaseHolders (now : ℕ) (input : ReapInput) (t : LeaseTables) : LeaseTables × Option ReapDrainable :=
  let holders := t.holders.filter fun h => !h.stale now input
  match t.lease with
  | none => ({ t with holders }, none)
  | some row =>
    let row := ((row.settle now input.idleGraceMs holders).warmingReset now).warmingDrain now
    ({ lease := some row, holders },
      if row.Drainable now then some { instanceId := row.instanceId, leaseEpoch := row.leaseEpoch } else none)

def reArmDrainingLease (now leaseTtlMs : ℕ) (t : LeaseTables) : LeaseTables × Bool :=
  t.updateWhere (·.liveness = .draining) fun row =>
    { row with
      liveness := .warm
      expiresAt := afterMs now leaseTtlMs }

/-! ## The force-drain -/

inductive ForceDrainReason
  | balance | warmCap

structure ForceDrainInput where
  balanceMicros : ℤ
  enforceBalance : Bool
  maxWarmSecondsPerWorkspace : ℕ
  idleGraceMs : ℕ

/-- Why the workspace is over a limit, if it is. `total` is what it has metered this month. -/
def ForceDrainInput.reason (input : ForceDrainInput) (total : ℕ) : Option ForceDrainReason :=
  if input.enforceBalance ∧ input.balanceMicros ≤ 0 then some .balance
  else if 0 < input.maxWarmSecondsPerWorkspace ∧ input.maxWarmSecondsPerWorkspace ≤ total then some .warmCap
  else none

def LeaseRow.ViewerOnly (row : LeaseRow) : Prop := row.liveness = .warm ∧ row.turnHolders = 0

instance : DecidablePred LeaseRow.ViewerOnly := fun _ => inferInstanceAs (Decidable (_ ∧ _))

def dropViewers (t : LeaseTables) : LeaseTables := match t.lease with
  | none => t
  | some row =>
    if row.ViewerOnly then { t with holders := t.holders.filter fun h => h.kind ≠ .viewer } else t

def drainViewerOnly (now idleGraceMs : ℕ) (t : LeaseTables) : LeaseTables × Bool :=
  t.updateWhere (·.ViewerOnly) fun row =>
    { row with
      liveness := .draining
      refcount := 0
      turnHolders := 0
      viewerHolders := 0
      expiresAt := afterMs now idleGraceMs }

def forceDrainOverLimitViewerOnlyBoxes (now total : ℕ) (input : ForceDrainInput) (t : LeaseTables) :
    LeaseTables × Bool :=
  if (input.reason total).isSome then drainViewerOnly now input.idleGraceMs (dropViewers t) else (t, false)

/-! ## Draining to cold, and the archives -/

def LeaseRow.Idle (expectedEpoch : ℕ) (row : LeaseRow) : Prop :=
  row.liveness = .draining ∧ row.refcount = 0 ∧ row.leaseEpoch = expectedEpoch

instance (expectedEpoch : ℕ) : DecidablePred (LeaseRow.Idle expectedEpoch) :=
  fun _ => inferInstanceAs (Decidable (_ ∧ _ ∧ _))

def confirmDrainCold (expectedEpoch : ℕ) (t : LeaseTables) : LeaseTables × Bool :=
  t.updateWhere (·.Idle expectedEpoch) (·.goCold)

def LeaseRow.foldWorkspaceArchive (archive : Archive) (prev : Option Archive) (atMs : ℕ) (row : LeaseRow) :
    LeaseRow :=
  { row with
    resumeState := some
      { (row.resumeState.getD
          { backendId := none, sandboxId := none, workspaceArchive := none, workspaceArchivePrev := none
            workspaceArchiveAt := none }) with
        workspaceArchive := some archive
        workspaceArchivePrev := prev
        workspaceArchiveAt := some atMs } }

structure PersistDrainResult where
  wrote : Bool
  priorArchive : Option Archive
  priorArchivePrev : Option Archive

/-- The check before a box is stopped. It writes the archive, if there is one. -/
def persistDrainSnapshot (now expectedEpoch : ℕ) (workspaceArchive : Option Archive) (t : LeaseTables) :
    LeaseTables × PersistDrainResult :=
  match t.lease with
  | none => (t, { wrote := false, priorArchive := none, priorArchivePrev := none })
  | some row =>
    if row.Idle expectedEpoch then
      match workspaceArchive with
      | none => (t, { wrote := true, priorArchive := none, priorArchivePrev := none })
      | some archive =>
        ({ t with lease := some (row.foldWorkspaceArchive archive none (now / 1000)) },
          { wrote := true, priorArchive := row.workspaceArchive, priorArchivePrev := row.workspaceArchivePrev })
    else
      (t, { wrote := false, priorArchive := none, priorArchivePrev := none })

structure PersistWarmInput where
  expectedEpoch : ℕ
  workspaceArchive : Archive
  minIntervalMs : ℕ
  capturedAtMs : ℕ
deriving DecidableEq

structure PersistWarmResult where
  wrote : Bool
  throttled : Bool
  superseded : Bool
  priorArchiveForGc : Option Archive

/-- The snapshot of a box in use. Its order is that of the starts of the captures. -/
def persistWarmSnapshot (input : PersistWarmInput) (t : LeaseTables) : LeaseTables × PersistWarmResult :=
  let skipped : PersistWarmResult :=
    { wrote := false, throttled := false, superseded := false, priorArchiveForGc := none }
  match t.lease with
  | none => (t, skipped)
  | some row =>
    if row.liveness = .warm ∧ row.leaseEpoch = input.expectedEpoch then
      if row.workspaceArchiveAt.any (input.capturedAtMs ≤ ·) then
        (t, { skipped with superseded := true })
      else if 0 < input.minIntervalMs ∧
          row.workspaceArchiveAt.any (input.capturedAtMs - · < input.minIntervalMs) then
        (t, { skipped with throttled := true })
      else
        ({ t with
            lease := some
              (row.foldWorkspaceArchive input.workspaceArchive row.workspaceArchive input.capturedAtMs) },
          { skipped with wrote := true, priorArchiveForGc := row.workspaceArchivePrev })
    else
      (t, skipped)

end OpenGeni.Db
