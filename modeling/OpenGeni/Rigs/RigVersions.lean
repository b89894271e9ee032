/-
The tables of one rig and the transactions on them.

A rig has versions, of which one is active, and proposed changes. A row is addressed by its place
in its table: rows are added, never deleted. The transactions that write versions lock the row of
the rig before their first read, and those that write a change lock the row of the change, the
promotion both. Each of them is one step, therefore. The content of a version is written once,
when the row is inserted; only the flag moves.
-/
import OpenGeni.Lib.JsString

namespace OpenGeni.Rigs

open OpenGeni.Lib

/-! ## Versions -/

structure RigCheck where
  name : String
  command : String
deriving DecidableEq

structure RigDefinition where
  image : Option String
  setupScript : Option String
  checks : List RigCheck
  credentialHooks : List String
  defaultVariableSetIds : List String
deriving DecidableEq

structure RigVersionContentInput extends RigDefinition where
  changelog : Option String
  createdBy : Option String
deriving DecidableEq

structure RigVersion extends RigVersionContentInput where
  version : ℕ
  active : Bool

def activeVersionId (versions : List RigVersion) : Option ℕ := versions.findIdx? (·.active)

/-- `coalesce(max(version), 0) + 1`. -/
def nextVersion (versions : List RigVersion) : ℕ := (versions.map (·.version)).foldr max 0 + 1

def deactivate (versions : List RigVersion) : List RigVersion :=
  versions.map fun row => { row with active := false }

def OneActive (versions : List RigVersion) : Prop := versions.countP (·.active) = 1

instance (versions : List RigVersion) : Decidable (OneActive versions) :=
  inferInstanceAs (Decidable (_ = _))

/-! ## Changes -/

structure RigSetupAppendPayload where
  command : String
  note : Option String

/-- A field that is `none` is not in the payload, and one that is `some none` is null. -/
structure RigDefinitionEditPayload where
  image : Option (Option String)
  setupScript : Option (Option String)
  checks : Option (List RigCheck)
  credentialHooks : Option (List String)
  defaultVariableSetIds : Option (List String)
  changelog : Option (Option String)

inductive ProposeRigChangeRequest
  | setupAppend (payload : RigSetupAppendPayload)
  | definitionEdit (payload : RigDefinitionEditPayload)

inductive RigChangeStatus
  | proposed
  | verifying
  | merged
  | rejected
  | failed
deriving DecidableEq

def RigChangeStatus.text : RigChangeStatus → String
  | .proposed => "proposed"
  | .verifying => "verifying"
  | .merged => "merged"
  | .rejected => "rejected"
  | .failed => "failed"

structure RigCheckResult where
  name : String
  exitCode : ℤ

/-- A field that is `none` is absent or null. -/
structure RigChangeVerification where
  attempt : Option ℕ
  commandResult : Option ℤ
  checkResults : List RigCheckResult
  passed : Option Bool
  error : Option String

namespace RigChangeVerification

def empty : RigChangeVerification :=
  { attempt := none, commandResult := none, checkResults := [], passed := none, error := none }

/-- `{ ...stored, ...patch }`, where the patch always has its check results. -/
def merge (stored patch : RigChangeVerification) : RigChangeVerification :=
  { attempt := patch.attempt <|> stored.attempt
    commandResult := patch.commandResult <|> stored.commandResult
    checkResults := patch.checkResults, passed := patch.passed <|> stored.passed
    error := patch.error <|> stored.error }

end RigChangeVerification

structure RigChange where
  request : ProposeRigChangeRequest
  baseVersionId : Option ℕ
  status : RigChangeStatus
  proposedBy : Option String
  verification : Option RigChangeVerification
  resultVersionId : Option ℕ

structure RigTables where
  versions : List RigVersion
  changes : List RigChange

/-! ## Transactions -/

inductive RigError
  | versionNotFound (versionId : ℕ)
  | changeNotFound (changeId : ℕ)
  | transition (changeId : ℕ) (fromStatus toStatus : RigChangeStatus)
  | activeVersionChanged (expectedVersionId : ℕ) (actualVersionId : Option ℕ)
  | alreadyVerifying (changeId : ℕ)

def RigError.message : RigError → String
  | .versionNotFound versionId => s!"Rig version not found: {versionId}"
  | .changeNotFound changeId => s!"Rig change not found: {changeId}"
  | .transition changeId fromStatus toStatus =>
    s!"Rig change {changeId} is {fromStatus.text} (terminal); cannot transition to {toStatus.text}"
  | .activeVersionChanged expectedVersionId actualVersionId =>
    let actual := (actualVersionId.map toString).getD "none"
    s!"Rig moved since verification: expected active {expectedVersionId}, current active {actual}"
  | .alreadyVerifying changeId => s!"Rig change {changeId} is already verifying"

def createRigVersion (input : RigVersionContentInput) (activate : Bool) (tables : RigTables) : RigTables :=
  let versions := if activate then deactivate tables.versions else tables.versions
  { tables with
    versions := versions ++
      [{ toRigVersionContentInput := input, version := nextVersion tables.versions, active := activate }] }

def createRig (initialVersion : RigVersionContentInput) : RigTables :=
  { versions := [{ toRigVersionContentInput := initialVersion, version := 1, active := true }], changes := [] }

def activateRigVersion (versionId : ℕ) (tables : RigTables) : Except RigError RigTables :=
  if versionId < tables.versions.length then
    .ok { tables with
      versions := (deactivate tables.versions).modify versionId fun row => { row with active := true } }
  else .error (.versionNotFound versionId)

def createRigChange (request : ProposeRigChangeRequest) (baseVersionId : Option ℕ) (proposedBy : Option String)
    (tables : RigTables) : RigTables :=
  { tables with
    changes := tables.changes ++
      [{ request, baseVersionId, status := .proposed, proposedBy, verification := none, resultVersionId := none }] }

def updateRigChangeStatus (changeId : ℕ) (status : RigChangeStatus) (verification : RigChangeVerification)
    (tables : RigTables) : Except RigError RigTables :=
  match tables.changes[changeId]? with
  | none => .error (.changeNotFound changeId)
  | some current =>
    if current.status = .merged ∨ current.status = .rejected then
      .error (.transition changeId current.status status)
    else
      let merged := (current.verification.getD .empty).merge verification
      .ok { tables with changes := tables.changes.set changeId { current with status, verification := some merged } }

def RigChange.reset (current : RigChange) : RigChange := let previous := current.verification.getD .empty
  { current with
    status := .verifying
    verification := some { previous with
        attempt := some (previous.attempt.getD 0 + 1)
        checkResults := []
        passed := none
        error := none } }

def beginRigChangeVerificationAttempt (changeId : ℕ) (allowAlreadyVerifying : Bool) (tables : RigTables) :
    Except RigError RigTables :=
  match tables.changes[changeId]? with
  | none => .error (.changeNotFound changeId)
  | some current =>
    if current.status = .verifying then
      if allowAlreadyVerifying then .ok tables else .error (.alreadyVerifying changeId)
    else if current.status = .merged then .error (.transition changeId current.status .verifying)
    else .ok { tables with changes := tables.changes.set changeId current.reset }

structure Promotion where
  changeId : ℕ
  expectedActiveVersionId : ℕ
  input : RigVersionContentInput
deriving DecidableEq

def createRigVersionForChangePromotion (promotion : Promotion) (tables : RigTables) :
    Except RigError RigTables :=
  match tables.changes[promotion.changeId]? with
  | none => .error (.changeNotFound promotion.changeId)
  | some currentChange =>
    if currentChange.status = .merged ∨ currentChange.status = .rejected then
      .error (.transition promotion.changeId currentChange.status .merged)
    else if currentChange.baseVersionId ≠ some promotion.expectedActiveVersionId then
      .error (.activeVersionChanged promotion.expectedActiveVersionId currentChange.baseVersionId)
    else if activeVersionId tables.versions ≠ some promotion.expectedActiveVersionId then
      .error (.activeVersionChanged promotion.expectedActiveVersionId (activeVersionId tables.versions))
    else
      .ok
        { versions := (createRigVersion promotion.input true tables).versions
          changes := tables.changes.set promotion.changeId
            { currentChange with status := .merged, resultVersionId := some tables.versions.length } }

/-! ## What the transactions do -/

section

variable {tables tables' : RigTables} {changeId versionId : ℕ}

theorem updateRigChangeStatus_ok {status : RigChangeStatus} {verification : RigChangeVerification}
    (h : updateRigChangeStatus changeId status verification tables = .ok tables') :
    ∃ row, tables.changes[changeId]? = some row ∧ row.status ≠ .merged ∧ row.status ≠ .rejected ∧
      tables' = { tables with
        changes := tables.changes.set changeId { row with
            status
            verification := some ((row.verification.getD .empty).merge verification) } } := by
  unfold updateRigChangeStatus at h
  cases hrow : tables.changes[changeId]? with
  | none =>
    rw [hrow] at h
    contradiction
  | some row =>
    rw [hrow] at h
    dsimp only at h
    split_ifs at h with hterminal
    rw [not_or] at hterminal
    exact ⟨row, rfl, hterminal.1, hterminal.2, (Except.ok.inj h).symm⟩

theorem beginRigChangeVerificationAttempt_ok {allowAlreadyVerifying : Bool}
    (h : beginRigChangeVerificationAttempt changeId allowAlreadyVerifying tables = .ok tables') :
    ∃ row, tables.changes[changeId]? = some row ∧ (row.status = .verifying ∧ tables' = tables ∨
        row.status ≠ .verifying ∧ row.status ≠ .merged ∧
          tables' = { tables with changes := tables.changes.set changeId row.reset }) := by
  unfold beginRigChangeVerificationAttempt at h
  cases hrow : tables.changes[changeId]? with
  | none =>
    rw [hrow] at h
    contradiction
  | some row =>
    rw [hrow] at h
    dsimp only at h
    refine ⟨row, rfl, ?_⟩
    split_ifs at h with hverifying _ hmerged
    · exact Or.inl ⟨hverifying, (Except.ok.inj h).symm⟩
    · exact Or.inr ⟨hverifying, hmerged, (Except.ok.inj h).symm⟩

theorem createRigVersionForChangePromotion_ok {promotion : Promotion}
    (h : createRigVersionForChangePromotion promotion tables = .ok tables') :
    ∃ row, tables.changes[promotion.changeId]? = some row ∧ row.status ≠ .merged ∧ row.status ≠ .rejected ∧
      row.baseVersionId = some promotion.expectedActiveVersionId ∧
      activeVersionId tables.versions = some promotion.expectedActiveVersionId ∧
      tables' =
        { versions := (createRigVersion promotion.input true tables).versions
          changes := tables.changes.set promotion.changeId
            { row with status := .merged, resultVersionId := some tables.versions.length } } := by
  unfold createRigVersionForChangePromotion at h
  cases hrow : tables.changes[promotion.changeId]? with
  | none =>
    rw [hrow] at h
    contradiction
  | some row =>
    rw [hrow] at h
    dsimp only at h
    split_ifs at h with hterminal hbase hactive
    rw [not_or] at hterminal
    rw [not_not] at hbase hactive
    exact ⟨row, rfl, hterminal.1, hterminal.2, hbase, hactive, (Except.ok.inj h).symm⟩

theorem activateRigVersion_ok (h : activateRigVersion versionId tables = .ok tables') :
    versionId < tables.versions.length ∧ tables' = { tables with
        versions := (deactivate tables.versions).modify versionId fun row => { row with active := true } } := by
  unfold activateRigVersion at h
  split_ifs at h with hlt
  exact ⟨hlt, (Except.ok.inj h).symm⟩

end

/-! ## The flag -/

section

variable {versions : List RigVersion} {versionId : ℕ}

theorem countP_deactivate (versions : List RigVersion) : (deactivate versions).countP (·.active) = 0 := by
  rw [List.countP_eq_zero]
  intro row hrow
  obtain ⟨row', -, rfl⟩ := List.mem_map.1 hrow
  simp

@[simp] theorem length_deactivate (versions : List RigVersion) : (deactivate versions).length = versions.length :=
  List.length_map _

theorem getElem?_deactivate (versions : List RigVersion) (i : ℕ) :
    (deactivate versions)[i]? = versions[i]?.map fun row => { row with active := false } :=
  List.getElem?_map

theorem OneActive.createRigVersion (input : RigVersionContentInput) (tables : RigTables) :
    OneActive (createRigVersion input true tables).versions := by
  unfold OneActive Rigs.createRigVersion
  rw [if_pos rfl, List.countP_append, countP_deactivate, List.countP_singleton]
  rfl

theorem countP_modify_active {rows : List RigVersion} (hnone : rows.countP (·.active) = 0) {i : ℕ}
    (hi : i < rows.length) : (rows.modify i fun row => { row with active := true }).countP (·.active) = 1 := by
  induction rows generalizing i with
  | nil => exact absurd hi (Nat.not_lt_zero i)
  | cons row rows ih =>
    rw [List.countP_cons] at hnone
    cases i with
    | zero =>
      rw [List.modify_zero_cons, List.countP_cons]
      have hrest : rows.countP (·.active) = 0 := by omega
      rw [hrest]
      rfl
    | succ i =>
      rw [List.modify_succ_cons, List.countP_cons]
      have hrest : rows.countP (·.active) = 0 := by omega
      have hrow : (if row.active = true then 1 else 0) = 0 := by omega
      rw [hrow, ih hrest (Nat.lt_of_succ_lt_succ hi)]

theorem OneActive.activate (hlt : versionId < versions.length) :
    OneActive ((deactivate versions).modify versionId fun row => { row with active := true }) :=
  countP_modify_active (countP_deactivate versions) ((length_deactivate versions).symm ▸ hlt)

end

end OpenGeni.Rigs
