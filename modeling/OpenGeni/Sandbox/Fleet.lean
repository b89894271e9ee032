/-
The workers, the sweeps and the boxes of one sandbox group.

A worker acquires the group's lease. If it wins the row out of cold it is the spawner: it
resumes or creates a box, makes it durable, replays the workspace and commits. Otherwise it
waits for the box and attaches. The reaper sweeps the row and takes idle boxes down: it
re-reads the lease, captures the workspace, folds the capture, stops the box and confirms.
All of them can stop at any await. An event is one transaction or one answer of the
provider. Beside the tables the state keeps what no row says: which win of the row a spawner
or a sweep belongs to, who built which box, and from which box an archive was captured.
-/
import OpenGeni.Db.SandboxLease
import OpenGeni.Lib.Run
import OpenGeni.Lib.Slots

namespace OpenGeni.Sandbox

open OpenGeni.Lib OpenGeni.Db

/-! ## The parties -/

structure Box where
  running : Bool
  /-- The archive that the lease carried when the box was created. -/
  carried : Option Archive
  /-- The archives that `hydrateWorkspace` has completed from. -/
  replayed : List Archive

/-- The `_sandbox` envelope of a session. The archives never ride it. -/
structure SessionEnvelope where
  backendId : Option String
  sandboxId : Option String

def SessionEnvelope.toEnvelope (e : SessionEnvelope) : Envelope :=
  { backendId := e.backendId, sandboxId := e.sandboxId, workspaceArchive := none, workspaceArchivePrev := none
    workspaceArchiveAt := none }

inductive Caller
  | resumeBoxForTurn | attachViewer | withChannelA
deriving DecidableEq

inductive Stage
  | waiting
  | establishing (skipWorkspaceHydrate : Bool)
  /-- A box is there, `onSandboxCreated` is to run. -/
  | created (box : String) (hydrate : Bool)
  | hydrating (box : String)
  | established (box : String)
  /-- `failWarmingToCold` is to run. -/
  | failing
  | holding (box : Option String)
  | leaving
deriving DecidableEq

/-- A win of `cold -> warming`: the epoch it observed, and which win it was. -/
structure Win where
  expectedEpoch : ℕ
  episode : ℕ

structure Worker where
  caller : Caller
  kind : LeaseHolderKind
  holderId : String
  backend : String
  won : Option Win
  leaseEpoch : ℕ
  session : Option SessionEnvelope
  envelope : Option Envelope
  /-- The archive folded last when that envelope was read. -/
  known : Option Archive
  stage : Stage

/-- Where a sweep stands with a row that `reapStaleLeaseHolders` returned. -/
inductive SweepStage
  | picked
  | attaching (lease : LeaseRow)
  | capturing (box : String)
  | persisting (box : String) (archive : Option Archive)
  | deleting (box : String)
  | confirming
deriving DecidableEq

structure Sweep where
  leaseEpoch : ℕ
  episode : ℕ
  stage : SweepStage

structure Fleet where
  tables : LeaseTables
  boxes : Slots String Box
  workers : Slots ℕ Worker
  sweeps : Slots ℕ Sweep
  episode : ℕ
  /-- The boxes that the spawner of an episode has resumed or created. -/
  built : List (ℕ × String)
  /-- The folded archives, the newest first, with the box each was captured from. -/
  folds : List (Archive × String)

/-! ## The establish -/

/-- The established box as a resumable envelope, where the client can serialize. -/
def serializeEstablishedSandboxEnvelope (serializes : Bool) (backend box : String) : Option Envelope :=
  if serializes then
    some
      { backendId := some backend, sandboxId := some box, workspaceArchive := none, workspaceArchivePrev := none
        workspaceArchiveAt := none }
  else
    none

def preserveWorkspaceArchiveOnInterimResumeState (resumeState archiveSource : Option Envelope) :
    Option Envelope :=
  match archiveSource.bind (·.workspaceArchive) with
  | none => resumeState
  | some archive =>
    some
      { backendId := (resumeState.bind (·.backendId)).or (archiveSource.bind (·.backendId))
        sandboxId := resumeState.bind (·.sandboxId), workspaceArchive := some archive
        workspaceArchivePrev := resumeState.bind (·.workspaceArchivePrev)
        workspaceArchiveAt := resumeState.bind (·.workspaceArchiveAt) }

def Worker.candidates (x : Worker) : List Archive :=
  (x.envelope.bind (·.workspaceArchive)).toList ++ (x.envelope.bind (·.workspaceArchivePrev)).toList

/-- What `onSandboxCreated` leaves to do. -/
def Stage.afterCallback (box : String) (hydrate : Bool) : Stage :=
  if hydrate then .hydrating box else .established box

/-- Only the turn's spawner passes `onSandboxCreated`. -/
def Worker.records (x : Worker) : Bool := x.won.isSome && x.caller == .resumeBoxForTurn

def Worker.afterCreate (x : Worker) (box : String) (hydrate : Bool) : Stage :=
  if x.records then .created box hydrate else .afterCallback box hydrate

def Stage.box? : Stage → Option String
  | .created box _ | .hydrating box | .established box => some box
  | .holding box => box
  | _ => none

inductive Hydration
  /-- The session has no `hydrateWorkspace`. -/
  | unsupported
  /-- The archive is in place, in the same box or in one that replaces it. -/
  | replayed (archive : Archive) (box : String)
  | failed

inductive Attempt (α : Type)
  | done (result : α)
  | gone
  /-- There is no client for it, or the client cannot. -/
  | unsupported
  | error

/-! ## Events -/

inductive FleetEvent
  | acquire (w : ℕ) (caller : Caller) (now : ℕ) (input : AcquireLeaseInput)
      (session : Option SessionEnvelope)
  | read (w : ℕ)
  | resume (w : ℕ)
  | create (w : ℕ) (box : String)
  | onSandboxCreated (w now : ℕ) (serializes : Bool) (leaseTtlMs : ℕ) (warmingLeaseTtlMs : Option ℕ)
      (terminated : Bool)
  | hydrate (w : ℕ) (outcome : Hydration)
  | commit (w now : ℕ) (serializes : Bool) (dataPlaneUrl : Option String) (leaseTtlMs : ℕ)
      (terminated : Bool)
  | hold (w : ℕ)
  | throws (w : ℕ) (terminated : Bool)
  | fail (w : ℕ)
  | release (w now idleGraceMs : ℕ)
  | die (w : ℕ)
  | touch (now : ℕ) (kind : LeaseHolderKind) (holderId : String)
  | heartbeat (now : ℕ) (kind : LeaseHolderKind) (holderId : String) (leaseTtlMs expectedEpoch : ℕ)
  | snapshot (w : ℕ) (archive : Archive) (minIntervalMs capturedAtMs : ℕ)
  | reap (k now : ℕ) (input : ReapInput)
  | reread (k : ℕ)
  | attach (k : ℕ) (outcome : Attempt Unit)
  | capture (k : ℕ) (outcome : Attempt (Option Archive))
  | persist (k now : ℕ)
  | delete (k : ℕ) (raised : Bool)
  | confirm (k : ℕ)
  | stop (k : ℕ)
  | lost (box : String)

namespace Fleet

def start : Fleet :=
  { tables := { lease := none, holders := [] }, boxes := [], workers := [], sweeps := [], episode := 0, built := []
    folds := [] }

def stopBox (box : String) (s : Fleet) : Fleet := match s.boxes.get box with
  | none => s
  | some b => { s with boxes := s.boxes.put box { b with running := false } }

def stopBoxIf (terminated : Bool) (box : String) (s : Fleet) : Fleet := if terminated then s.stopBox box else s

def running (s : Fleet) (box : String) : Bool := (s.boxes.get box).any (·.running)

def newest (s : Fleet) : Option Archive := s.folds.head?.map Prod.fst

def setStage (w : ℕ) (x : Worker) (stage : Stage) (s : Fleet) : Fleet :=
  { s with workers := s.workers.put w { x with stage } }

def setSweep (k : ℕ) (y : Sweep) (stage : SweepStage) (s : Fleet) : Fleet :=
  { s with sweeps := s.sweeps.put k { y with stage } }

def dropSweep (k : ℕ) (s : Fleet) : Fleet := { s with sweeps := s.sweeps.drop k }

def build (x : Worker) (box : String) (s : Fleet) : Fleet := match x.won with
  | none => s
  | some win => { s with built := (win.episode, box) :: s.built }

/-! ## The steps of a worker -/

/-- The worker that an acquired lease makes. The spawner's envelope is the row's, else the
session's. -/
def arrive (s : Fleet) (caller : Caller) (input : AcquireLeaseInput) (session : Option SessionEnvelope)
    (role : AcquireLeaseRole) (row : LeaseRow) : Worker :=
  { caller, kind := input.kind, holderId := input.holderId, backend := input.backend
    won :=
      if role = .spawner then some { expectedEpoch := row.leaseEpoch, episode := s.episode + 1 } else none
    leaseEpoch := row.leaseEpoch
    session
    envelope := row.resumeState.or (session.map (·.toEnvelope))
    known := s.newest
    stage :=
      match role with
      | .spawner => .establishing false
      | .fenced => .leaving
      | .attached | .rearmed => if caller = .attachViewer then .holding none else .waiting }

def acquire (w : ℕ) (caller : Caller) (now : ℕ) (input : AcquireLeaseInput)
    (session : Option SessionEnvelope) (s : Fleet) : Option Fleet :=
  if (s.workers.get w).isSome then none
  else
    match acquireLease now input s.tables with
    | (.error _, tables) => some { s with tables }
    | (.ok (role, row), tables) =>
      some { s with
          tables
          workers := s.workers.put w (s.arrive caller input session role row)
          episode := if role = .spawner then s.episode + 1 else s.episode }

def read (w : ℕ) (s : Fleet) : Option Fleet := (s.workers.get w).bind fun x =>
    if x.stage = .waiting then
      some { s with
          workers := s.workers.put w { x with
              envelope := (s.tables.lease.bind (·.resumeState)).or (x.session.map (·.toEnvelope))
              known := s.newest
              stage := .establishing false } }
    else
      none

def resumable (s : Fleet) (x : Worker) : Option String := (x.envelope.bind (·.sandboxId)).filter s.running

def resume (w : ℕ) (s : Fleet) : Option Fleet := (s.workers.get w).bind fun x =>
    match x.stage, s.resumable x with
    | .establishing false, some box => some ((s.build x box).setStage w x (.established box))
    | _, _ => none

/-- `create()`, after the provider has reported the box of the envelope gone. -/
def create (w : ℕ) (box : String) (s : Fleet) : Option Fleet := (s.workers.get w).bind fun x =>
    match x.stage with
    | .establishing skip =>
      if (!skip && (s.resumable x).isSome) || (s.boxes.get box).isSome then none
      else
        let carried := s.tables.lease.bind (·.workspaceArchive)
        let boxes := s.boxes.put box { running := true, carried, replayed := [] }
        some (({ s with boxes }.build x box).setStage w x (x.afterCreate box (!skip && !x.candidates.isEmpty)))
    | _ => none

/-- The callback of the turn's spawner. A miss stops the box and gives up. -/
def onSandboxCreated (w now : ℕ) (serializes : Bool) (leaseTtlMs : ℕ) (warmingLeaseTtlMs : Option ℕ)
    (terminated : Bool) (s : Fleet) : Option Fleet :=
  (s.workers.get w).bind fun x =>
    match x.stage, x.won with
    | .created box hydrate, some win =>
      let (tables, recorded) := recordWarmingSandboxCreated now
        { expectedEpoch := win.expectedEpoch, instanceId := box, resumeBackendId := some x.backend
          resumeState := preserveWorkspaceArchiveOnInterimResumeState
            (serializeEstablishedSandboxEnvelope serializes x.backend box) x.envelope
          leaseTtlMs
          warmingLeaseTtlMs } s.tables
      if recorded then some ({ s with tables }.setStage w x (.afterCallback box hydrate))
      else some ((s.stopBoxIf terminated box).setStage w { x with won := none } .leaving)
    | _, _ => none

/-- The replay. A replacement is recorded like the box it replaces. -/
def hydrate (w : ℕ) (outcome : Hydration) (s : Fleet) : Option Fleet := (s.workers.get w).bind fun x =>
    match x.stage with
    | .hydrating box =>
      match outcome, s.boxes.get box with
      | .unsupported, _ => some (s.setStage w x (.established box))
      | .failed, _ => some ((s.stopBox box).setStage w x (.establishing true))
      | .replayed archive box', some b =>
        if archive ∉ x.candidates then none
        else if box' = box then
          let boxes := s.boxes.put box { b with replayed := archive :: b.replayed }
          some ({ s with boxes }.setStage w x (.established box))
        else if (s.boxes.get box').isSome then none
        else
          let boxes := ((s.stopBox box).boxes).put box' { b with replayed := archive :: b.replayed }
          some (({ s with boxes }.build x box').setStage w x (x.afterCreate box' false))
      | .replayed _ _, none => none
    | _ => none

def commit (w now : ℕ) (serializes : Bool) (dataPlaneUrl : Option String) (leaseTtlMs : ℕ)
    (terminated : Bool) (s : Fleet) : Option Fleet :=
  (s.workers.get w).bind fun x =>
    match x.stage, x.won with
    | .established box, some win =>
      let (tables, committed) := commitWarmingToWarm now
        { expectedEpoch := win.expectedEpoch, instanceId := box, dataPlaneUrl, resumeBackendId := some x.backend
          resumeState := (serializeEstablishedSandboxEnvelope serializes x.backend box).or
            (x.session.map (·.toEnvelope))
          leaseTtlMs } s.tables
      if committed then
        some
          { s with
            tables
            workers := s.workers.put w
              { x with
                won := none
                leaseEpoch := win.expectedEpoch + 1
                stage := .holding (some box) } }
      else
        -- Only the turn stops the box it has lost the row for.
        some ((s.stopBoxIf (terminated && x.caller == .resumeBoxForTurn) box).setStage w
          { x with won := none } .leaving)
    | _, _ => none

def hold (w : ℕ) (s : Fleet) : Option Fleet := (s.workers.get w).bind fun x =>
    match x.stage, x.won with
    | .established box, none => some (s.setStage w x (.holding (some box)))
    | _, _ => none

/-- What a caught error leads to. The turn goes on to `failWarmingToCold` only if it could stop the
box it has created, `withChannelA` only while it establishes. -/
def afterThrow (x : Worker) (terminated : Bool) : Option Stage := match x.stage, x.won with
  | .failing, _ | .holding _, _ | .leaving, _ => none
  | _, none => some .leaving
  | .established _, some _ =>
    if x.caller = .withChannelA ∨ (x.caller = .resumeBoxForTurn ∧ !terminated) then some .leaving
    else some .failing
  | _, some _ =>
    if x.caller = .resumeBoxForTurn ∧ x.stage.box?.isSome ∧ !terminated then some .leaving
    else some .failing

def throws (w : ℕ) (terminated : Bool) (s : Fleet) : Option Fleet := (s.workers.get w).bind fun x =>
    (afterThrow x terminated).map fun stage =>
      (match x.stage.box? with
        | some box => s.stopBoxIf (terminated && x.records) box
        | none => s).setStage w (if stage = Stage.leaving then { x with won := none } else x) stage

def fail (w : ℕ) (s : Fleet) : Option Fleet := (s.workers.get w).bind fun x =>
    match x.stage, x.won with
    | .failing, some win =>
      let tables := (failWarmingToCold win.expectedEpoch s.tables).1
      some ({ s with tables }.setStage w { x with won := none } .leaving)
    | _, _ => none

def release (w now idleGraceMs : ℕ) (s : Fleet) : Option Fleet :=
  (s.workers.get w).bind fun x =>
    match x.stage with
    | .leaving | .holding _ =>
      let tables := releaseLeaseHolder now
        { kind := x.kind, holderId := x.holderId, idleGraceMs } s.tables
      some { s with tables, workers := s.workers.drop w }
    | _ => none

def snapshot (w : ℕ) (archive : Archive) (minIntervalMs capturedAtMs : ℕ) (s : Fleet) : Option Fleet :=
  (s.workers.get w).bind fun x =>
    match x.stage with
    | .holding (some box) =>
      if s.running box then
        let (tables, result) := persistWarmSnapshot
          { expectedEpoch := x.leaseEpoch, workspaceArchive := archive, minIntervalMs, capturedAtMs } s.tables
        some { s with tables, folds := if result.wrote then (archive, box) :: s.folds else s.folds }
      else
        none
    | _ => none

/-! ## The steps of a sweep -/

def reap (k now : ℕ) (input : ReapInput) (s : Fleet) : Option Fleet :=
  if (s.sweeps.get k).isSome then none
  else
    let (tables, drainable) := reapStaleLeaseHolders now input s.tables
    match drainable with
    | none => some { s with tables }
    | some row =>
      some
        { s with
          tables
          sweeps := s.sweeps.put k
            { leaseEpoch := row.leaseEpoch, episode := s.episode, stage := .picked } }

def reread (k : ℕ) (s : Fleet) : Option Fleet := (s.sweeps.get k).bind fun y =>
    match y.stage, s.tables.lease with
    | .picked, some row =>
      if row.Idle y.leaseEpoch then some (s.setSweep k y (.attaching row)) else some (s.dropSweep k)
    | .picked, none => some (s.dropSweep k)
    | _, _ => none

/-- What `terminateProviderBox` does with the lease it was given. -/
inductive Teardown
  | nothing
  | direct (box : String)
  | resume (box : String)
  /-- The client refuses an envelope without an identity. -/
  | refuse

def teardown (lease : LeaseRow) : Teardown := let backend := lease.resumeBackendId.getD lease.backend
  if backend = "" ∨ backend = "none" then .nothing
  else if backend = "selfhosted" ∨ lease.backend = "selfhosted" then .nothing
  else
    match lease.resumeState, lease.instanceId with
    | none, some box => if backend = "modal" then .direct box else .nothing
    | none, none => .nothing
    | some envelope, _ =>
      match envelope.sandboxId with
      | some box => .resume box
      | none => .refuse

def attach (k : ℕ) (outcome : Attempt Unit) (s : Fleet) : Option Fleet := (s.sweeps.get k).bind fun y =>
    match y.stage with
    | .attaching lease =>
      match teardown lease, outcome with
      | .nothing, _ => some (s.setSweep k y .confirming)
      | .direct box, _ => some (s.setSweep k y (.persisting box none))
      | .resume box, .done () =>
        if s.running box then some (s.setSweep k y (.capturing box)) else none
      | .resume box, .gone => if s.running box then none else some (s.setSweep k y .confirming)
      | .resume _, .unsupported => some (s.setSweep k y .confirming)
      | .resume _, .error | .refuse, _ => some (s.dropSweep k)
    | _ => none

/-- `persistWorkspace()`. A box that cannot be captured is left alone. -/
def capture (k : ℕ) (outcome : Attempt (Option Archive)) (s : Fleet) : Option Fleet :=
  (s.sweeps.get k).bind fun y =>
    match y.stage with
    | .capturing box =>
      match outcome with
      | .done archive => if s.running box then some (s.setSweep k y (.persisting box archive)) else none
      | .gone => if s.running box then none else some (s.setSweep k y .confirming)
      | .unsupported => none
      | .error => some (s.dropSweep k)
    | _ => none

def persist (k now : ℕ) (s : Fleet) : Option Fleet := (s.sweeps.get k).bind fun y =>
    match y.stage with
    | .persisting box archive =>
      let (tables, result) := persistDrainSnapshot now y.leaseEpoch archive s.tables
      if result.wrote then
        some ({ s with
          tables
          folds := (archive.map fun a => (a, box)).toList ++ s.folds }.setSweep k y (.deleting box))
      else
        some (s.dropSweep k)
    | _ => none

def delete (k : ℕ) (raised : Bool) (s : Fleet) : Option Fleet := (s.sweeps.get k).bind fun y =>
    match y.stage with
    | .deleting box => some ((s.stopBoxIf (!raised) box).setSweep k y .confirming)
    | _ => none

def confirm (k : ℕ) (s : Fleet) : Option Fleet := (s.sweeps.get k).bind fun y =>
    match y.stage with
    | .confirming => some ({ s with tables := (confirmDrainCold y.leaseEpoch s.tables).1 }.dropSweep k)
    | _ => none

/-! ## The system -/

def step (s : Fleet) : FleetEvent → Option Fleet
  | .acquire w caller now input session => s.acquire w caller now input session
  | .read w => s.read w
  | .resume w => s.resume w
  | .create w box => s.create w box
  | .onSandboxCreated w now serializes leaseTtlMs warmingLeaseTtlMs terminated =>
    s.onSandboxCreated w now serializes leaseTtlMs warmingLeaseTtlMs terminated
  | .hydrate w outcome => s.hydrate w outcome
  | .commit w now serializes dataPlaneUrl leaseTtlMs terminated =>
    s.commit w now serializes dataPlaneUrl leaseTtlMs terminated
  | .hold w => s.hold w
  | .throws w terminated => s.throws w terminated
  | .fail w => s.fail w
  | .release w now idleGraceMs => s.release w now idleGraceMs
  | .die w => some { s with workers := s.workers.drop w }
  | .touch now kind holderId => some { s with tables := (touchLeaseHolder now kind holderId s.tables).1 }
  | .heartbeat now kind holderId leaseTtlMs expectedEpoch =>
    some { s with tables := (heartbeatLeaseHolder now kind holderId leaseTtlMs expectedEpoch s.tables).1 }
  | .snapshot w archive minIntervalMs capturedAtMs => s.snapshot w archive minIntervalMs capturedAtMs
  | .reap k now input => s.reap k now input
  | .reread k => s.reread k
  | .attach k outcome => s.attach k outcome
  | .capture k outcome => s.capture k outcome
  | .persist k now => s.persist k now
  | .delete k raised => s.delete k raised
  | .confirm k => s.confirm k
  | .stop k => some (s.dropSweep k)
  | .lost box => some (s.stopBox box)

end Fleet

end OpenGeni.Sandbox
