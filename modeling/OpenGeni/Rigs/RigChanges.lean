/-
Verification attempts, promotions and direct edits of one rig.

An attempt is a run of the activity `verifyRigChange`: it reads its change and the base version
without a lock, begins, runs the candidate in a throwaway sandbox and records the result; a passed
`setup_append` is promoted at once. A `definition_edit` is promoted by a request, which reads the
change and then commits. A request for a version reads the active version and then commits.
Between any two of these steps every other attempt and request may take its own. One that stops
is one whose next step never comes.

Results of the sandbox are the events' data, and so is every error that is not the tables' own.
-/
import OpenGeni.Lib.Run
import OpenGeni.Rigs.RigVersions

namespace OpenGeni.Rigs

open OpenGeni.Lib

/-! ## Contents -/

def RigDefinitionEditPayload.onto (payload : RigDefinitionEditPayload) (base : RigDefinition) : RigDefinition :=
  { image := payload.image.getD base.image, setupScript := payload.setupScript.getD base.setupScript
    checks := payload.checks.getD base.checks, credentialHooks := payload.credentialHooks.getD base.credentialHooks
    defaultVariableSetIds := payload.defaultVariableSetIds.getD base.defaultVariableSetIds }

def appendRigSetupCommand (baseSetupScript : Option String) (command : String) : String :=
  let base := trimEnd (baseSetupScript.getD "")
  if base.isEmpty then command else base ++ "\n" ++ command

/-- **A change over a base.** -/
def ProposeRigChangeRequest.onto (request : ProposeRigChangeRequest) (base : RigDefinition) : RigDefinition :=
  match request with
  | .setupAppend payload => { base with setupScript := some (appendRigSetupCommand base.setupScript payload.command) }
  | .definitionEdit payload => payload.onto base

/-- `some` of a text that is neither null nor blank. -/
def nonBlank (text : Option String) : Option String := text.filter fun text => !isBlank text

def candidateVersionForChange (baseVersion : RigVersion) (change : RigChange) : RigVersion :=
  match change.request with
  | .setupAppend _ => baseVersion
  | .definitionEdit payload =>
    { baseVersion with
      toRigDefinition := payload.onto baseVersion.toRigDefinition
      changelog := payload.changelog.join <|> baseVersion.changelog }

/-- `none` is also the empty command, which is not run. -/
def setupAppendCommand (change : RigChange) : Option String := match change.request with
  | .setupAppend payload => if payload.command.isEmpty then none else some payload.command
  | .definitionEdit _ => none

inductive RigVerificationAction
  | autoPromote
  | awaitManagePromote
  | reject
  | retryableFailure
deriving DecidableEq

def classifyRigVerificationOutcome (request : ProposeRigChangeRequest) (passed infraError : Bool) :
    RigChangeStatus × RigVerificationAction :=
  if infraError then (.failed, .retryableFailure)
  else if passed = false then (.rejected, .reject)
  else
    match request with
    | .setupAppend _ => (.merged, .autoPromote)
    | .definitionEdit _ => (.proposed, .awaitManagePromote)

/-! ## Promotions -/

structure HttpException where
  status : ℕ
  message : String

def getRigVersion (versionId : ℕ) (tables : RigTables) : Except HttpException RigVersion :=
  match tables.versions[versionId]? with
  | none => .error ⟨404, "base rig version not found"⟩
  | some base => .ok base

def promoteSetupAppendChange (actor : String) (changeId : ℕ) (change : RigChange) (tables : RigTables) :
    Except HttpException Promotion :=
  match change.request with
  | .definitionEdit _ => .error ⟨422, "only setup_append changes auto-promote through this path"⟩
  | .setupAppend payload =>
    if change.status ≠ .proposed ∧ change.status ≠ .verifying then
      .error ⟨409, s!"rig change is {change.status.text}; cannot promote"⟩
    else
      match change.baseVersionId with
      | none => .error ⟨422, "rig change has no base version"⟩
      | some baseVersionId => do
        let base ← getRigVersion baseVersionId tables
        if isBlank payload.command then .error ⟨422, "setup_append change is missing command"⟩
        else
          .ok
            { changeId, expectedActiveVersionId := baseVersionId
              input :=
                { base.toRigDefinition with
                  setupScript := some (appendRigSetupCommand base.setupScript payload.command)
                  changelog := some ((nonBlank payload.note).getD "Verified setup append")
                  createdBy := some (change.proposedBy.getD actor) } }

def promoteVerifiedDefinitionEditChangeForApi (actor : String) (changeId : ℕ) (change : RigChange)
    (tables : RigTables) : Except HttpException Promotion :=
  match change.request with
  | .setupAppend _ => .error ⟨422, "only definition_edit changes use explicit promote"⟩
  | .definitionEdit payload =>
    if change.status ≠ .proposed then .error ⟨409, s!"rig change is {change.status.text}; cannot promote"⟩
    else if (change.verification.bind (·.passed)) ≠ some true then
      .error ⟨422, "definition_edit change must pass verification before promote"⟩
    else
      match change.baseVersionId with
      | none => .error ⟨422, "rig change has no base version"⟩
      | some baseVersionId => do
        let base ← getRigVersion baseVersionId tables
        .ok
          { changeId, expectedActiveVersionId := baseVersionId
            input :=
              { payload.onto base.toRigDefinition with
                changelog := some ((nonBlank payload.changelog.join).getD "Verified definition edit")
                createdBy := some actor } }

def promoteChangeWithActiveCas (promotion : Promotion) (tables : RigTables) : Except HttpException RigTables :=
  match createRigVersionForChangePromotion promotion tables with
  | .ok tables => .ok tables
  | .error (.activeVersionChanged expectedVersionId actualVersionId) =>
    let actual := (actualVersionId.map toString).getD "none"
    .error ⟨409, s!"rig moved since this change was verified (base {expectedVersionId}, now {actual}); re-verify before promoting"⟩
  | .error (.transition changeId fromStatus toStatus) =>
    .error ⟨409, (RigError.transition changeId fromStatus toStatus).message⟩
  | .error error => .error ⟨500, error.message⟩

/-! ## The state -/

inductive AttemptStage
  | loaded
  | running
  /-- The command of a `setup_append` has succeeded. -/
  | commandRan
  /-- The result is about to be recorded, and the change promoted after it. -/
  | writing (status : RigChangeStatus) (promote : Bool)
  | promoting (promotion : Promotion)
  | wrote
  | failing (message : String)
  | ended
deriving DecidableEq

structure Attempt where
  changeId : ℕ
  change : RigChange
  baseVersion : RigVersion
  verification : RigChangeVerification
  /-- The checks have run, and whether all succeeded. -/
  passed : Option Bool
  stage : AttemptStage

def Attempt.checked (attempt : Attempt) (exitCodes : List ℤ) : Attempt :=
  let checks := (candidateVersionForChange attempt.baseVersion attempt.change).checks
  let checkResults := (checks.zip exitCodes).map fun (check, exitCode) => { name := check.name, exitCode : RigCheckResult }
  let passed := checkResults.all (·.exitCode == 0)
  let classified := classifyRigVerificationOutcome attempt.change.request passed false
  { attempt with
    passed := some passed
    verification := { attempt.verification with checkResults, passed := some passed }
    stage := if classified.2 = .autoPromote then .writing .verifying true
      else .writing classified.1 false }

/-- The attempt is inside its `try`. -/
def Attempt.Trying (attempt : Attempt) : Prop := match attempt.stage with
  | .loaded | .failing _ | .ended => False
  | .running | .commandRan | .writing _ _ | .promoting _ | .wrote => True

instance (attempt : Attempt) : Decidable attempt.Trying := by
  unfold Attempt.Trying
  split <;> infer_instance

structure VersionRequest where
  baseVersionId : ℕ
  base : RigVersion
  payload : RigDefinitionEditPayload
  actor : String

def VersionRequest.input (request : VersionRequest) : RigVersionContentInput :=
  { request.payload.onto request.base.toRigDefinition with
    changelog := some (request.payload.changelog.join.getD "Manager-created version")
    createdBy := some request.actor }

structure RigSystem where
  tables : RigTables
  attempts : List Attempt
  /-- Requests that have read a verified change and are about to commit. -/
  promotions : List Promotion
  creations : List VersionRequest

namespace RigSystem

def created (initialVersion : RigVersionContentInput) : RigSystem :=
  { tables := createRig initialVersion, attempts := [], promotions := [], creations := [] }

/-! ## Steps -/

inductive Event
  /-- A proposal that has read the version as active. -/
  | propose (request : ProposeRigChangeRequest) (baseVersionId : ℕ) (proposedBy : String)
  /-- A request to verify a change: begins an attempt, whose activity starts later. -/
  | requestVerification (changeId : ℕ)
  | load (changeId : ℕ)
  | begin (index : ℕ)
  | runCommand (index : ℕ) (exitCode : ℤ)
  | runChecks (index : ℕ) (exitCodes : List ℤ)
  /-- An error inside the attempt's `try`. -/
  | throw (index : ℕ) (message : String)
  /-- The attempt's next `updateRigChangeStatus`. -/
  | write (index : ℕ)
  | promote (index : ℕ)
  | requestPromotion (changeId : ℕ) (actor : String)
  | commitPromotion (index : ℕ)
  | requestVersion (payload : RigDefinitionEditPayload) (actor : String)
  | commitVersion (index : ℕ)
  | activate (versionId : ℕ)

def setAttempt (index : ℕ) (attempt : Attempt) (s : RigSystem) : RigSystem :=
  { s with attempts := s.attempts.set index attempt }

def loadChangeTarget (changeId : ℕ) (tables : RigTables) : Option (RigChange × RigVersion) := do
  let change ← tables.changes[changeId]?
  let baseVersionId ← change.baseVersionId
  let baseVersion ← tables.versions[baseVersionId]?
  return (change, baseVersion)

def writeAttempt (index : ℕ) (attempt : Attempt) (s : RigSystem) : Option RigSystem := match attempt.stage with
  | .writing status promote =>
    match updateRigChangeStatus attempt.changeId status attempt.verification s.tables with
    | .error error => some (s.setAttempt index { attempt with stage := .failing error.message })
    | .ok tables =>
      let s := { s with tables }
      if promote then
        -- `{ ...change, verification }`: the status is the one that was read at the start
        let change := { attempt.change with verification := some attempt.verification }
        match promoteSetupAppendChange "user:system:rig-verification" attempt.changeId change tables with
        | .error error => some (s.setAttempt index { attempt with stage := .failing error.message })
        | .ok promotion => some (s.setAttempt index { attempt with stage := .promoting promotion })
      else some (s.setAttempt index { attempt with stage := .wrote })
  | .failing message =>
    let verification := { attempt.verification with passed := some false, error := some message }
    let s := s.setAttempt index { attempt with verification, stage := .ended }
    match updateRigChangeStatus attempt.changeId .failed verification s.tables with
    | .error _ => some s
    | .ok tables => some { s with tables }
  | _ => none

def step (s : RigSystem) : Event → Option RigSystem
  | .propose request baseVersionId proposedBy =>
    if baseVersionId < s.tables.versions.length then
      some { s with tables := createRigChange request (some baseVersionId) (some proposedBy) s.tables }
    else none
  | .requestVerification changeId =>
    match beginRigChangeVerificationAttempt changeId false s.tables with
    | .error _ => some s
    | .ok tables => some { s with tables }
  | .load changeId =>
    (loadChangeTarget changeId s.tables).map fun (change, baseVersion) =>
      { s with
        attempts := s.attempts ++
          [{ changeId, change, baseVersion, verification := .empty, passed := none, stage := .loaded }] }
  | .begin index => do
    let attempt ← s.attempts[index]?
    if attempt.stage ≠ .loaded then none
    else
      match beginRigChangeVerificationAttempt attempt.changeId true s.tables with
      | .error _ => some (s.setAttempt index { attempt with stage := .ended })
      | .ok tables => some ({ s with tables }.setAttempt index { attempt with stage := .running })
  | .runCommand index exitCode => do
    let attempt ← s.attempts[index]?
    if attempt.stage ≠ .running ∨ setupAppendCommand attempt.change = none then none
    else
      let verification := { attempt.verification with commandResult := some exitCode }
      if exitCode = 0 then some (s.setAttempt index { attempt with verification, stage := .commandRan })
      else
        some (s.setAttempt index { attempt with
            verification := { verification with passed := some false }
            stage := .writing .rejected false })
  | .runChecks index exitCodes => do
    let attempt ← s.attempts[index]?
    if exitCodes.length ≠ (candidateVersionForChange attempt.baseVersion attempt.change).checks.length then none
    else if attempt.stage = .commandRan ∨ attempt.stage = .running ∧ setupAppendCommand attempt.change = none then
      some (s.setAttempt index (attempt.checked exitCodes))
    else none
  | .throw index message => do
    let attempt ← s.attempts[index]?
    if attempt.Trying then some (s.setAttempt index { attempt with stage := .failing message }) else none
  | .write index => do
    let attempt ← s.attempts[index]?
    s.writeAttempt index attempt
  | .promote index => do
    let attempt ← s.attempts[index]?
    match attempt.stage with
    | .promoting promotion =>
      match promoteChangeWithActiveCas promotion s.tables with
      | .error error => some (s.setAttempt index { attempt with stage := .failing error.message })
      | .ok tables => some ({ s with tables }.setAttempt index { attempt with stage := .wrote })
    | _ => none
  | .requestPromotion changeId actor => do
    let change ← s.tables.changes[changeId]?
    match promoteVerifiedDefinitionEditChangeForApi actor changeId change s.tables with
    | .error _ => some s
    | .ok promotion => some { s with promotions := s.promotions ++ [promotion] }
  | .commitPromotion index => do
    let promotion ← s.promotions[index]?
    let s := { s with promotions := s.promotions.eraseIdx index }
    match promoteChangeWithActiveCas promotion s.tables with
    | .error _ => some s
    | .ok tables => some { s with tables }
  | .requestVersion payload actor => do
    let baseVersionId ← activeVersionId s.tables.versions
    let base ← s.tables.versions[baseVersionId]?
    some { s with creations := s.creations ++ [{ baseVersionId, base, payload, actor }] }
  | .commitVersion index => do
    let request ← s.creations[index]?
    some { s with
        tables := createRigVersion request.input true s.tables
        creations := s.creations.eraseIdx index }
  | .activate versionId =>
    match activateRigVersion versionId s.tables with
    | .error _ => some s
    | .ok tables => some { s with tables }

end RigSystem

end OpenGeni.Rigs
