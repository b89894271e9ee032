/-
What becomes a version of a rig.

Versions are written under the lock of the rig, so one is active at every moment, and a promotion
compares the active version with the base of its change in the transaction that inserts the new
one. What a promotion knows of the verification it knows from earlier: the attempt its own result,
the request the row as it read it.
-/
import OpenGeni.Lib.Slots
import OpenGeni.Lib.Tally
import OpenGeni.Rigs.RigChanges

namespace OpenGeni.Rigs

open OpenGeni.Lib

/-! ## What stays -/

/-- Rows keep their place, a version its content, a change what it asks for. -/
structure RigTables.Grows (tables tables' : RigTables) : Prop where
  versions : ∀ (i : ℕ) (row : RigVersion), tables.versions[i]? = some row →
    ∃ row', tables'.versions[i]? = some row' ∧ row'.toRigVersionContentInput = row.toRigVersionContentInput
  changes : ∀ (i : ℕ) (row : RigChange), tables.changes[i]? = some row →
    ∃ row', tables'.changes[i]? = some row' ∧ row'.request = row.request ∧ row'.baseVersionId = row.baseVersionId

namespace RigTables.Grows

variable {tables tables' : RigTables}

theorem refl (tables : RigTables) : tables.Grows tables where
  versions _ row hrow := ⟨row, hrow, rfl⟩
  changes _ row hrow := ⟨row, hrow, rfl, rfl⟩

theorem createRigVersion (input : RigVersionContentInput) (tables : RigTables) :
    tables.Grows (createRigVersion input true tables) where
  versions i row hrow := by
    refine ⟨{ row with active := false }, ?_, rfl⟩
    have hlt : i < (deactivate tables.versions).length := by
      rw [length_deactivate]
      exact (List.getElem?_eq_some_iff.1 hrow).1
    unfold Rigs.createRigVersion
    rw [if_pos rfl, List.getElem?_append_left hlt, getElem?_deactivate, hrow]
    rfl
  changes _ row hrow := ⟨row, hrow, rfl, rfl⟩

theorem activate (versionId : ℕ) (tables : RigTables) : tables.Grows { tables with
      versions := (deactivate tables.versions).modify versionId fun row => { row with active := true } } where
  versions i row hrow := by
    have hold : (deactivate tables.versions)[i]? = some { row with active := false } := by
      rw [getElem?_deactivate, hrow]
      rfl
    by_cases hi : versionId = i
    · refine ⟨{ row with active := true }, ?_, rfl⟩
      rw [hi, List.getElem?_modify_eq, hold]
      rfl
    · refine ⟨{ row with active := false }, ?_, rfl⟩
      rw [List.getElem?_modify_ne _ _ hi, hold]
  changes _ row hrow := ⟨row, hrow, rfl, rfl⟩

theorem createRigChange (request : ProposeRigChangeRequest) (baseVersionId : Option ℕ)
    (proposedBy : Option String) (tables : RigTables) :
    tables.Grows (createRigChange request baseVersionId proposedBy tables) where
  versions _ row hrow := ⟨row, hrow, rfl⟩
  changes i row hrow := by
    refine ⟨row, ?_, rfl, rfl⟩
    unfold Rigs.createRigChange
    rw [List.getElem?_append_left (List.getElem?_eq_some_iff.1 hrow).1]
    exact hrow

theorem setChange {changeId : ℕ} {row row' : RigChange} (hrow : tables.changes[changeId]? = some row)
    (hrequest : row'.request = row.request) (hbase : row'.baseVersionId = row.baseVersionId) :
    tables.Grows { tables with changes := tables.changes.set changeId row' } where
  versions _ row hrow := ⟨row, hrow, rfl⟩
  changes i other hother := by
    by_cases hi : i = changeId
    · subst hi
      cases hrow.symm.trans hother
      exact ⟨row', getElem?_set_same hrow row', hrequest, hbase⟩
    · refine ⟨other, ?_, rfl, rfl⟩
      rw [List.getElem?_set_ne (Ne.symm hi)]
      exact hother

end RigTables.Grows

/-! ## What each part knows -/

def Promotion.Sound (tables : RigTables) (promotion : Promotion) : Prop :=
  ∃ row base, tables.changes[promotion.changeId]? = some row ∧
    row.baseVersionId = some promotion.expectedActiveVersionId ∧
    tables.versions[promotion.expectedActiveVersionId]? = some base ∧
    promotion.input.toRigDefinition = row.request.onto base.toRigDefinition

def RigChange.Verified (row : RigChange) : Prop := row.verification.bind (·.passed) = some true

instance (row : RigChange) : Decidable row.Verified := inferInstanceAs (Decidable (_ = _))

def VersionRequest.Sound (tables : RigTables) (request : VersionRequest) : Prop :=
  ∃ row, tables.versions[request.baseVersionId]? = some row ∧
    row.toRigVersionContentInput = request.base.toRigVersionContentInput

/-- The attempt runs the candidate of its change over the version. -/
def Attempt.RunsAgainst (tables : RigTables) (attempt : Attempt) (changeId versionId : ℕ) : Prop :=
  attempt.changeId = changeId ∧ attempt.change.baseVersionId = some versionId ∧
    (∃ row, tables.changes[changeId]? = some row ∧ row.request = attempt.change.request ∧
      row.baseVersionId = attempt.change.baseVersionId) ∧
    ∃ row, tables.versions[versionId]? = some row ∧
      row.toRigVersionContentInput = attempt.baseVersion.toRigVersionContentInput

def Attempt.promotion (attempt : Attempt) : Option Promotion := match attempt.stage with
  | .promoting promotion => some promotion
  | _ => none

def AttemptStage.unchecked : AttemptStage → Bool
  | .loaded | .running | .commandRan => true
  | _ => false

structure Attempt.Sound (tables : RigTables) (attempt : Attempt) : Prop where
  runs : ∃ versionId, attempt.RunsAgainst tables attempt.changeId versionId
  unchecked : attempt.stage.unchecked = true → attempt.passed = none
  passed : attempt.verification.passed = some true → attempt.passed = some true
  /-- What is about to be recorded is a pass, or the status is `rejected`. -/
  writing : ∀ status promote, attempt.stage = .writing status promote →
    status ≠ .merged ∧ (status ≠ .rejected → attempt.verification.passed = some true) ∧
      (promote = true → status ≠ .rejected)
  promoting : ∀ promotion, attempt.promotion = some promotion →
    promotion.Sound tables ∧ promotion.changeId = attempt.changeId ∧ attempt.passed = some true

namespace RigSystem

def pending (s : RigSystem) : List Promotion := s.attempts.filterMap (·.promotion) ++ s.promotions

/-- An attempt of the change passed, and ran against the version. -/
def Passed (s : RigSystem) (changeId versionId : ℕ) : Prop :=
  ∃ attempt ∈ s.attempts, attempt.RunsAgainst s.tables changeId versionId ∧ attempt.passed = some true

structure Sound (s : RigSystem) : Prop where
  one : OneActive s.tables.versions
  attempt : ∀ attempt ∈ s.attempts, attempt.Sound s.tables
  pending : ∀ promotion ∈ s.pending, promotion.Sound s.tables ∧
    s.Passed promotion.changeId promotion.expectedActiveVersionId
  recorded : ∀ (changeId : ℕ) (row : RigChange), s.tables.changes[changeId]? = some row → row.Verified →
    ∃ versionId, row.baseVersionId = some versionId ∧ s.Passed changeId versionId
  creation : ∀ request ∈ s.creations, request.Sound s.tables

end RigSystem

section

variable {tables tables' : RigTables}

theorem Promotion.Sound.grows {promotion : Promotion} (h : promotion.Sound tables) (hgrows : tables.Grows tables') :
    promotion.Sound tables' := by
  obtain ⟨row, base, hrow, hbase, hversion, hinput⟩ := h
  obtain ⟨row', hrow', hrequest, hbase'⟩ := hgrows.changes _ _ hrow
  obtain ⟨base', hversion', hcontent⟩ := hgrows.versions _ _ hversion
  refine ⟨row', base', hrow', hbase'.trans hbase, hversion', ?_⟩
  rw [hinput, hrequest, hcontent]

theorem VersionRequest.Sound.grows {request : VersionRequest} (h : request.Sound tables)
    (hgrows : tables.Grows tables') : request.Sound tables' := by
  obtain ⟨row, hrow, hcontent⟩ := h
  obtain ⟨row', hrow', hcontent'⟩ := hgrows.versions _ _ hrow
  exact ⟨row', hrow', hcontent'.trans hcontent⟩

variable {attempt : Attempt} {changeId versionId : ℕ} {patch : RigChangeVerification}

theorem Attempt.RunsAgainst.grows (h : attempt.RunsAgainst tables changeId versionId)
    (hgrows : tables.Grows tables') :
    attempt.RunsAgainst tables' changeId versionId := by
  obtain ⟨hchange, hbase, ⟨row, hrow, hrequest, hrowBase⟩, version, hversion, hcontent⟩ := h
  obtain ⟨row', hrow', hrequest', hrowBase'⟩ := hgrows.changes _ _ hrow
  obtain ⟨version', hversion', hcontent'⟩ := hgrows.versions _ _ hversion
  exact ⟨hchange, hbase, ⟨row', hrow', hrequest'.trans hrequest, hrowBase'.trans hrowBase⟩,
    version', hversion', hcontent'.trans hcontent⟩

theorem Attempt.Sound.grows (h : attempt.Sound tables) (hgrows : tables.Grows tables') : attempt.Sound tables' where
  runs := by
    obtain ⟨versionId, hruns⟩ := h.runs
    exact ⟨versionId, hruns.grows hgrows⟩
  unchecked := h.unchecked
  passed := h.passed
  writing := h.writing
  promoting promotion hpromotion := by
    obtain ⟨hsound, hrest⟩ := h.promoting promotion hpromotion
    exact ⟨hsound.grows hgrows, hrest⟩

theorem Attempt.RunsAgainst.base_of_row {row : RigChange} (h : attempt.RunsAgainst tables changeId versionId)
    (hrow : tables.changes[changeId]? = some row) :
    row.baseVersionId = some versionId := by
  obtain ⟨-, hbase, ⟨row', hrow', -, hrowBase⟩, -⟩ := h
  cases hrow'.symm.trans hrow
  exact hrowBase.trans hbase

theorem Attempt.Sound.runs_promotion {promotion : Promotion} (h : attempt.Sound tables)
    (hpromotion : attempt.promotion = some promotion) :
    attempt.RunsAgainst tables promotion.changeId promotion.expectedActiveVersionId := by
  obtain ⟨⟨row, base, hrow, hbase, -⟩, hchange, -⟩ := h.promoting promotion hpromotion
  obtain ⟨versionId, hruns⟩ := h.runs
  rw [hchange] at hrow ⊢
  have hversion : versionId = promotion.expectedActiveVersionId :=
    Option.some.inj ((hruns.base_of_row hrow).symm.trans hbase)
  exact hversion ▸ hruns

theorem RigChange.verified_merge {row : RigChange} {status : RigChangeStatus} (h : RigChange.Verified
      { row with status, verification := some ((row.verification.getD .empty).merge patch) }) :
    patch.passed = some true ∨ row.Verified := by
  unfold RigChange.Verified at h ⊢
  rw [Option.bind_some] at h
  simp only [RigChangeVerification.merge] at h
  cases hpatch : patch.passed with
  | some passed =>
    rw [hpatch] at h
    exact Or.inl h
  | none =>
    rw [hpatch] at h
    refine Or.inr ?_
    cases hstored : row.verification with
    | none =>
      rw [hstored] at h
      contradiction
    | some stored =>
      rw [hstored] at h
      exact h

theorem RigChange.verified_of_patch (row : RigChange) (status : RigChangeStatus)
    (h : patch.passed = some true) : RigChange.Verified
      { row with status, verification := some ((row.verification.getD .empty).merge patch) } := by
  unfold RigChange.Verified
  rw [Option.bind_some]
  simp only [RigChangeVerification.merge]
  rw [h]
  rfl

theorem RigChange.not_verified_reset (row : RigChange) : ¬ row.reset.Verified := by
  intro h
  contradiction

end

/-! ## What a step does to the tables -/

namespace RigSystem

def Begins (s : RigSystem) (changeId : ℕ) : Event → Prop
  | .requestVerification id => id = changeId
  | .begin index => ∃ attempt, s.attempts[index]? = some attempt ∧ attempt.changeId = changeId
  | _ => False

inductive Records (attempt : Attempt) : RigChangeStatus → RigChangeVerification → Prop
  | result (status : RigChangeStatus) (promote : Bool) (hstage : attempt.stage = .writing status promote) :
      Records attempt status attempt.verification
  | failure (message : String) (hstage : attempt.stage = .failing message) :
      Records attempt .failed { attempt.verification with passed := some false, error := some message }

inductive Effect (s : RigSystem) (e : Event) (tables : RigTables) : Prop
  | same (h : tables = s.tables)
  | propose (request : ProposeRigChangeRequest) (baseVersionId : Option ℕ) (proposedBy : Option String)
      (h : tables = createRigChange request baseVersionId proposedBy s.tables)
  | reset (changeId : ℕ) (row : RigChange) (hbegins : s.Begins changeId e)
      (hrow : s.tables.changes[changeId]? = some row) (hverifying : row.status ≠ .verifying)
      (hmerged : row.status ≠ .merged)
      (h : tables = { s.tables with changes := s.tables.changes.set changeId row.reset })
  | record (index : ℕ) (attempt : Attempt) (row : RigChange) (status : RigChangeStatus)
      (verification : RigChangeVerification) (he : e = .write index)
      (hattempt : s.attempts[index]? = some attempt) (hrecords : Records attempt status verification)
      (hrow : s.tables.changes[attempt.changeId]? = some row) (hmerged : row.status ≠ .merged)
      (hrejected : row.status ≠ .rejected)
      (h : tables = { s.tables with
        changes := s.tables.changes.set attempt.changeId
          { row with status, verification := some ((row.verification.getD .empty).merge verification) } })
  | promote (promotion : Promotion) (hpending : promotion ∈ s.pending)
      (h : createRigVersionForChangePromotion promotion s.tables = .ok tables)
  | create (index : ℕ) (request : VersionRequest) (he : e = .commitVersion index)
      (hrequest : s.creations[index]? = some request) (h : tables = createRigVersion request.input true s.tables)
  | activate (versionId : ℕ) (hlt : versionId < s.tables.versions.length)
      (h : tables = { s.tables with
        versions := (deactivate s.tables.versions).modify versionId fun row => { row with active := true } })

section

variable {s t : RigSystem} {e : Event}

variable {attempt : Attempt} {tables : RigTables} {changeId index : ℕ}

theorem promotion_mem_pending {promotion : Promotion} (hattempt : attempt ∈ s.attempts)
    (hpromotion : attempt.promotion = some promotion) : promotion ∈ s.pending :=
  List.mem_append_left _ (List.mem_filterMap.2 ⟨attempt, hattempt, hpromotion⟩)

theorem promoteChangeWithActiveCas_ok {promotion : Promotion} {tables' : RigTables}
    (h : promoteChangeWithActiveCas promotion tables = .ok tables') :
    createRigVersionForChangePromotion promotion tables = .ok tables' := by
  unfold promoteChangeWithActiveCas at h
  split at h
  · next heq =>
      cases h
      exact heq
  all_goals contradiction

theorem Effect.of_begin {allow : Bool} (hbegins : s.Begins changeId e)
    (h : beginRigChangeVerificationAttempt changeId allow s.tables = .ok tables) :
    Effect s e tables := by
  obtain ⟨row, hrow, ⟨-, hsame⟩ | ⟨hverifying, hmerged, hreset⟩⟩ := beginRigChangeVerificationAttempt_ok h
  · exact .same hsame
  · exact .reset changeId row hbegins hrow hverifying hmerged hreset

theorem Effect.of_update {status : RigChangeStatus} {verification : RigChangeVerification}
    (hattempt : s.attempts[index]? = some attempt)
    (hrecords : Records attempt status verification)
    (h : updateRigChangeStatus attempt.changeId status verification s.tables = .ok tables) :
    Effect s (.write index) tables := by
  obtain ⟨row, hrow, hmerged, hrejected, htables⟩ := updateRigChangeStatus_ok h
  exact .record index attempt row status verification rfl hattempt hrecords hrow hmerged hrejected htables

theorem writeAttempt_effect (hattempt : s.attempts[index]? = some attempt)
    (h : s.writeAttempt index attempt = some t) : Effect s (.write index) t.tables := by
  unfold writeAttempt at h
  split at h
  · next status promote hstage =>
      split at h
      · cases h
        exact .same rfl
      · next tables hupdate =>
          have heffect : Effect s (.write index) tables :=
            Effect.of_update hattempt (.result status promote hstage) hupdate
          dsimp only at h
          split at h
          · split at h <;> (cases h; exact heffect)
          · cases h
            exact heffect
  · next message hstage =>
      dsimp only at h
      split at h
      · cases h
        exact .same rfl
      · next tables hupdate =>
          cases h
          exact Effect.of_update hattempt (.failure message hstage) hupdate
  · contradiction

theorem Effect.grows (h : Effect s e tables) : s.tables.Grows tables := by
  cases h with
  | same h => exact h ▸ .refl _
  | propose request baseVersionId proposedBy h => exact h ▸ .createRigChange request baseVersionId proposedBy s.tables
  | reset changeId row _ hrow _ _ h => exact h ▸ .setChange hrow rfl rfl
  | record _ _ row _ _ _ _ _ hrow _ _ h => exact h ▸ .setChange hrow rfl rfl
  | promote promotion _ h =>
    obtain ⟨row, hrow, -, -, -, -, rfl⟩ := createRigVersionForChangePromotion_ok h
    have hversions := RigTables.Grows.createRigVersion promotion.input s.tables
    let merged : RigChange := { row with status := .merged, resultVersionId := some s.tables.versions.length }
    have hchanges : s.tables.Grows { s.tables with changes := s.tables.changes.set promotion.changeId merged } :=
      .setChange hrow rfl rfl
    exact ⟨hversions.versions, hchanges.changes⟩
  | create _ request _ _ h => exact h ▸ .createRigVersion request.input s.tables
  | activate versionId _ h => exact h ▸ .activate versionId s.tables

theorem Effect.oneActive (h : Effect s e tables) (hone : OneActive s.tables.versions) :
    OneActive tables.versions := by
  cases h with
  | same h => exact h ▸ hone
  | propose _ _ _ h => exact h ▸ hone
  | reset _ _ _ _ _ _ h => exact h ▸ hone
  | record _ _ _ _ _ _ _ _ _ _ _ h => exact h ▸ hone
  | promote promotion _ h =>
    obtain ⟨_, -, -, -, -, -, rfl⟩ := createRigVersionForChangePromotion_ok h
    exact .createRigVersion promotion.input s.tables
  | create _ request _ _ h => exact h ▸ .createRigVersion request.input s.tables
  | activate versionId hlt h => exact h ▸ .activate hlt

theorem Effect.recorded (h : Effect s e tables) (hs : s.Sound) {row : RigChange}
    (hrow : tables.changes[changeId]? = some row) (hverified : row.Verified) :
    ∃ versionId, row.baseVersionId = some versionId ∧ s.Passed changeId versionId := by
  cases h with
  | same h => exact hs.recorded changeId row (h ▸ hrow) hverified
  | propose _ _ _ h =>
    rw [h] at hrow
    obtain hold | rfl := getElem?_append_cases hrow
    · exact hs.recorded changeId row hold hverified
    · contradiction
  | reset id old _ _ _ _ h =>
    rw [h] at hrow
    obtain ⟨-, rfl⟩ | ⟨-, hold⟩ := getElem?_set_cases hrow
    · exact absurd hverified old.not_verified_reset
    · exact hs.recorded changeId row hold hverified
  | record _ attempt old status verification _ hattempt hrecords hold _ _ h =>
    rw [h] at hrow
    obtain ⟨rfl, rfl⟩ | ⟨-, hother⟩ := getElem?_set_cases hrow
    · obtain hpatch | hbefore := RigChange.verified_merge hverified
      · have hsound := hs.attempt attempt (List.mem_of_getElem? hattempt)
        have hpassed : attempt.passed = some true := by
          cases hrecords with
          | result _ _ _ => exact hsound.passed hpatch
          | failure _ _ => exact absurd (Option.some.inj hpatch) Bool.false_ne_true
        obtain ⟨versionId, hruns⟩ := hsound.runs
        have hbase : old.baseVersionId = some versionId := hruns.base_of_row hold
        exact ⟨versionId, hbase, attempt, List.mem_of_getElem? hattempt, hruns, hpassed⟩
      · exact hs.recorded _ old hold hbefore
    · exact hs.recorded changeId row hother hverified
  | promote promotion _ h =>
    obtain ⟨old, hold, -, -, -, -, rfl⟩ := createRigVersionForChangePromotion_ok h
    obtain ⟨rfl, rfl⟩ | ⟨-, hother⟩ := getElem?_set_cases hrow
    · exact hs.recorded _ old hold hverified
    · exact hs.recorded changeId row hother hverified
  | create _ _ _ _ h =>
    rw [h] at hrow
    exact hs.recorded changeId row hrow hverified
  | activate _ _ h =>
    rw [h] at hrow
    exact hs.recorded changeId row hrow hverified

end

end RigSystem

/-! ## What a step does to the attempts -/

section

variable {tables : RigTables} {changeId : ℕ} {change row : RigChange} {promotion : Promotion} {actor : String}

theorem Promotion.Sound.of_change {baseVersionId : ℕ} {base : RigVersion}
    (hrow : tables.changes[changeId]? = some row) (hrequest : row.request = change.request)
    (hrowBase : row.baseVersionId = change.baseVersionId) (hbase : change.baseVersionId = some baseVersionId)
    (hversion : tables.versions[baseVersionId]? = some base) (hid : promotion.changeId = changeId)
    (hexpected : promotion.expectedActiveVersionId = baseVersionId)
    (hinput : promotion.input.toRigDefinition = change.request.onto base.toRigDefinition) :
    promotion.Sound tables := by
  refine ⟨row, base, ?_, ?_, ?_, ?_⟩
  · rw [hid, hrow]
  · rw [hrowBase, hbase, hexpected]
  · rw [hexpected, hversion]
  · rw [hinput, hrequest]

theorem getRigVersion_ok {versionId : ℕ} {base : RigVersion} (h : getRigVersion versionId tables = .ok base) :
    tables.versions[versionId]? = some base := by
  unfold getRigVersion at h
  split at h
  · contradiction
  · next version hversion =>
      cases h
      exact hversion

theorem promoteSetupAppendChange_ok (h : promoteSetupAppendChange actor changeId change tables = .ok promotion) :
    ∃ baseVersionId base, change.baseVersionId = some baseVersionId ∧
      tables.versions[baseVersionId]? = some base ∧ promotion.changeId = changeId ∧
      promotion.expectedActiveVersionId = baseVersionId ∧
      promotion.input.toRigDefinition = change.request.onto base.toRigDefinition := by
  unfold promoteSetupAppendChange at h
  split at h
  · contradiction
  · next payload hrequest =>
      split at h
      · contradiction
      split at h
      · contradiction
      · next baseVersionId hbase =>
          cases hversion : getRigVersion baseVersionId tables with
          | error error =>
            rw [hversion] at h
            contradiction
          | ok base =>
            rw [hversion] at h
            change (if isBlank payload.command = true then _ else _) = _ at h
            split_ifs at h
            cases h
            refine ⟨baseVersionId, base, hbase, getRigVersion_ok hversion, rfl, rfl, ?_⟩
            rw [hrequest]
            rfl

theorem promoteVerifiedDefinitionEditChangeForApi_ok
    (h : promoteVerifiedDefinitionEditChangeForApi actor changeId change tables = .ok promotion) :
    change.Verified ∧ ∃ baseVersionId base, change.baseVersionId = some baseVersionId ∧
      tables.versions[baseVersionId]? = some base ∧ promotion.changeId = changeId ∧
      promotion.expectedActiveVersionId = baseVersionId ∧
      promotion.input.toRigDefinition = change.request.onto base.toRigDefinition := by
  unfold promoteVerifiedDefinitionEditChangeForApi at h
  split at h
  · contradiction
  · next payload hrequest =>
      split_ifs at h with hstatus hverified
      rw [not_not] at hverified
      refine ⟨hverified, ?_⟩
      split at h
      · contradiction
      · next baseVersionId hbase =>
          cases hversion : getRigVersion baseVersionId tables with
          | error error =>
            rw [hversion] at h
            contradiction
          | ok base =>
            rw [hversion] at h
            cases h
            refine ⟨baseVersionId, base, hbase, getRigVersion_ok hversion, rfl, rfl, ?_⟩
            rw [hrequest]
            rfl

end

theorem Attempt.promotion_eq_none {attempt : Attempt} (h : ∀ promotion, attempt.stage ≠ .promoting promotion) :
    attempt.promotion = none := by
  unfold Attempt.promotion
  split
  · next promotion hstage => exact absurd hstage (h promotion)
  · rfl

structure Attempt.Continues (attempt attempt' : Attempt) : Prop where
  changeId : attempt'.changeId = attempt.changeId
  change : attempt'.change = attempt.change
  baseVersion : attempt'.baseVersion = attempt.baseVersion
  passed : attempt.passed = some true → attempt'.passed = some true

section

variable {tables : RigTables} {attempt attempt' : Attempt}

theorem Attempt.RunsAgainst.continues {changeId versionId : ℕ} (h : attempt.RunsAgainst tables changeId versionId)
    (hcontinues : attempt.Continues attempt') : attempt'.RunsAgainst tables changeId versionId := by
  unfold Attempt.RunsAgainst at h ⊢
  rw [hcontinues.changeId, hcontinues.change, hcontinues.baseVersion]
  exact h

theorem Attempt.Sound.moveTo (h : attempt.Sound tables) (stage : AttemptStage) (verification : RigChangeVerification)
    (hunchecked : stage.unchecked = true → attempt.passed = none)
    (hpassed : verification.passed = some true → attempt.passed = some true)
    (hwriting : ∀ status promote, stage ≠ .writing status promote) (hpromoting : ∀ promotion, stage ≠ .promoting promotion) :
    Attempt.Sound tables { attempt with verification, stage } where
  runs := h.runs
  unchecked := hunchecked
  passed := hpassed
  writing status promote hstage := absurd hstage (hwriting status promote)
  promoting promotion hpromotion := by
    rw [Attempt.promotion_eq_none hpromoting] at hpromotion
    contradiction

theorem Attempt.promotion_checked (attempt : Attempt) (exitCodes : List ℤ) :
    (attempt.checked exitCodes).promotion = none := by
  apply Attempt.promotion_eq_none
  intro promotion hstage
  unfold Attempt.checked at hstage
  dsimp only at hstage
  split_ifs at hstage

theorem Attempt.Sound.checked (h : attempt.Sound tables) (exitCodes : List ℤ) :
    (attempt.checked exitCodes).Sound tables where
  runs := h.runs
  unchecked hunchecked := by
    unfold Attempt.checked at hunchecked
    dsimp only at hunchecked
    split_ifs at hunchecked <;> contradiction
  passed := id
  writing status promote hstage := by
    have hclass := hstage
    unfold Attempt.checked at hclass ⊢
    dsimp only at hclass ⊢
    generalize hall : List.all _ _ = passed at hclass ⊢
    unfold classifyRigVerificationOutcome at hclass
    cases passed with
    | false =>
      obtain ⟨rfl, rfl⟩ := hclass
      simp
    | true =>
      cases hrequest : attempt.change.request with
      | setupAppend | definitionEdit =>
        rw [hrequest] at hclass
        obtain ⟨rfl, rfl⟩ := hclass
        simp
  promoting promotion hpromotion := by
    rw [attempt.promotion_checked] at hpromotion
    contradiction

end

namespace RigSystem

inductive AttemptEffect (s t : RigSystem) : Prop
  | same (h : t.attempts = s.attempts)
  | load (attempt : Attempt) (hsound : attempt.Sound t.tables) (hpromotion : attempt.promotion = none)
      (h : t.attempts = s.attempts ++ [attempt])
  | move (index : ℕ) (attempt attempt' : Attempt) (hattempt : s.attempts[index]? = some attempt)
      (hcontinues : attempt.Continues attempt') (hsound : attempt'.Sound t.tables)
      (hpromotion : ∀ promotion, attempt'.promotion = some promotion →
        ∃ row, t.tables.changes[promotion.changeId]? = some row ∧ row.Verified)
      (h : t.attempts = s.attempts.set index attempt')

section

variable {s t : RigSystem} {e : Event}

variable {changeId index : ℕ} {tables : RigTables} {attempt : Attempt}

theorem loaded_sound {change : RigChange} {baseVersion : RigVersion}
    (h : loadChangeTarget changeId tables = some (change, baseVersion)) :
    Attempt.Sound tables
      { changeId, change, baseVersion, verification := .empty, passed := none, stage := .loaded } where
  runs := by
    obtain ⟨row, hrow, h⟩ := Option.bind_eq_some_iff.1 h
    obtain ⟨baseVersionId, hbase, h⟩ := Option.bind_eq_some_iff.1 h
    obtain ⟨version, hversion, h⟩ := Option.bind_eq_some_iff.1 h
    obtain ⟨rfl, rfl⟩ := Prod.mk.inj (Option.some.inj h)
    exact ⟨baseVersionId, rfl, hbase, ⟨row, hrow, rfl, rfl⟩, version, hversion, rfl⟩
  unchecked _ := rfl
  passed h := by contradiction
  writing _ _ h := by contradiction
  promoting _ h := by contradiction

theorem AttemptEffect.moveTo (hattempt : s.attempts[index]? = some attempt)
    (hsound : attempt.Sound s.tables) (hgrows : s.tables.Grows t.tables) (stage : AttemptStage)
    (verification : RigChangeVerification)
    (hunchecked : stage.unchecked = true → attempt.passed = none)
    (hpassed : verification.passed = some true → attempt.passed = some true)
    (hwriting : ∀ status promote, stage ≠ .writing status promote)
    (hpromoting : ∀ promotion, stage ≠ .promoting promotion)
    (h : t.attempts = s.attempts.set index { attempt with verification, stage }) :
    AttemptEffect s t :=
  .move index attempt { attempt with verification, stage } hattempt ⟨rfl, rfl, rfl, id⟩
    ((hsound.grows hgrows).moveTo stage verification hunchecked hpassed hwriting hpromoting)
    (fun _ hpromotion => absurd hpromotion (by rw [Attempt.promotion_eq_none hpromoting]; simp)) h

theorem writeAttempt_attempts (hattempt : s.attempts[index]? = some attempt)
    (hsound : attempt.Sound s.tables) (h : s.writeAttempt index attempt = some t) :
    AttemptEffect s t := by
  have hgrows : s.tables.Grows t.tables := (writeAttempt_effect hattempt h).grows
  unfold writeAttempt at h
  split at h
  · next status promote hstage =>
      split at h
      · next error _ =>
          cases h
          exact .moveTo hattempt hsound hgrows (.failing error.message) _ (by simp [AttemptStage.unchecked]) hsound.passed (by simp) (by simp) rfl
      · next tables hupdate =>
          dsimp only at h
          split_ifs at h with hpromote
          · split at h
            · next error _ =>
                cases h
                exact .moveTo hattempt hsound hgrows (.failing error.message) _ (by simp [AttemptStage.unchecked]) hsound.passed (by simp) (by simp) rfl
            · next promotion hpromotion =>
                cases h
                obtain ⟨baseVersionId, base, hbase, hversion, hid, hexpected, hinput⟩ :=
                  promoteSetupAppendChange_ok hpromotion
                refine .move index attempt { attempt with stage := .promoting promotion } hattempt
                  ⟨rfl, rfl, rfl, id⟩ ?_ ?_ rfl
                · have hlater := hsound.grows hgrows
                  obtain ⟨hmerged, hresult, hautomatic⟩ := hlater.writing status promote hstage
                  have hpassed : attempt.passed = some true := hlater.passed (hresult (hautomatic hpromote))
                  obtain ⟨versionId, -, -, ⟨row, hrow, hrequest, hrowBase⟩, -⟩ := hlater.runs
                  have hpromotionSound : promotion.Sound tables :=
                    .of_change hrow hrequest hrowBase hbase hversion hid hexpected hinput
                  exact
                    { runs := hlater.runs
                      unchecked := by
                        intro hunchecked
                        contradiction
                      passed := hlater.passed
                      writing := by
                        intro _ _ hwriting
                        contradiction
                      promoting := by
                        intro promotion' hpromotion'
                        cases hpromotion'
                        exact ⟨hpromotionSound, hid, hpassed⟩ }
                · -- the result that was recorded right before
                  intro promotion' hpromotion'
                  cases hpromotion'
                  obtain ⟨-, hresult, hautomatic⟩ := hsound.writing status promote hstage
                  obtain ⟨row, hrow, -, -, rfl⟩ := updateRigChangeStatus_ok hupdate
                  refine ⟨_, ?_, RigChange.verified_of_patch row status (hresult (hautomatic hpromote))⟩
                  rw [hid]
                  exact getElem?_set_same hrow _
          · cases h
            exact .moveTo hattempt hsound hgrows .wrote _ (by simp [AttemptStage.unchecked]) hsound.passed (by simp) (by simp) rfl
  · next message hstage =>
      dsimp only at h
      split at h
      all_goals
        cases h
        exact .moveTo hattempt hsound hgrows .ended
          { attempt.verification with passed := some false, error := some message }
          (by simp [AttemptStage.unchecked]) (by simp) (by simp) (by simp) rfl
  · contradiction

/-! ## What a step does to the requests -/

structure Requests (s t : RigSystem) : Prop where
  /-- A new promotion has just read that its change passed. -/
  promotion : ∀ promotion ∈ t.promotions, promotion ∈ s.promotions ∨
    promotion.Sound s.tables ∧ t.tables = s.tables ∧
      ∃ change, s.tables.changes[promotion.changeId]? = some change ∧ change.Verified
  creation : ∀ request ∈ t.creations, request ∈ s.creations ∨ request.Sound s.tables

theorem Requests.same (hpromotions : t.promotions = s.promotions) (hcreations : t.creations = s.creations) :
    Requests s t where
  promotion _ hmem := Or.inl (hpromotions ▸ hmem)
  creation _ hmem := Or.inl (hcreations ▸ hmem)

theorem writeAttempt_requests (h : s.writeAttempt index attempt = some t) : Requests s t := by
  unfold writeAttempt at h
  split at h
  · split at h
    · cases h
      exact .same rfl rfl
    · dsimp only at h
      split_ifs at h
      · split at h <;> (cases h; exact .same rfl rfl)
      · cases h
        exact .same rfl rfl
  · dsimp only at h
    split at h <;> (cases h; exact .same rfl rfl)
  · contradiction

/-! ## What a step does -/

structure StepSpec (s : RigSystem) (e : Event) (t : RigSystem) : Prop where
  effect : Effect s e t.tables
  attempts : s.Sound → AttemptEffect s t
  requests : Requests s t

theorem StepSpec.ofTables {tables : RigTables} (h : Effect s e tables) : StepSpec s e { s with tables } where
  effect := h
  attempts _ := .same rfl
  requests := .same rfl rfl

theorem StepSpec.idle : StepSpec s e s := .ofTables (.same rfl)

theorem StepSpec.moveTo (hattempt : s.attempts[index]? = some attempt) (h : Effect s e tables)
    (stage : AttemptStage) (verification : RigChangeVerification)
    (hunchecked : attempt.Sound s.tables → stage.unchecked = true → attempt.passed = none)
    (hpassed : verification.passed = some true → attempt.verification.passed = some true)
    (hwriting : ∀ status promote, stage ≠ .writing status promote)
    (hpromoting : ∀ promotion, stage ≠ .promoting promotion) :
    StepSpec s e ({ s with tables }.setAttempt index { attempt with verification, stage }) where
  effect := h
  attempts hs := by
    have hsound := hs.attempt attempt (List.mem_of_getElem? hattempt)
    exact .moveTo hattempt hsound h.grows stage verification (hunchecked hsound)
      (fun hnow => hsound.passed (hpassed hnow)) hwriting hpromoting rfl
  requests := .same rfl rfl

/-- **What a step does**, said once. -/
theorem step_spec (h : step s e = some t) : StepSpec s e t := by
  cases e with
  | propose request baseVersionId proposedBy =>
    simp only [step] at h
    split_ifs at h
    cases h
    exact .ofTables (.propose request (some baseVersionId) (some proposedBy) rfl)
  | requestVerification changeId =>
    simp only [step] at h
    split at h
    · cases h
      exact .idle
    · next tables hbegin =>
        cases h
        exact .ofTables (Effect.of_begin rfl hbegin)
  | load changeId =>
    obtain ⟨⟨change, baseVersion⟩, hload, rfl⟩ := Option.map_eq_some_iff.1 h
    exact ⟨.same rfl, fun _ => .load _ (loaded_sound hload) rfl rfl, .same rfl rfl⟩
  | begin index =>
    obtain ⟨attempt, hattempt, h⟩ := Option.bind_eq_some_iff.1 h
    split_ifs at h with hstage
    rw [not_not] at hstage
    split at h
    · cases h
      exact .moveTo hattempt (.same rfl) .ended _ (by simp [AttemptStage.unchecked]) id (by simp) (by simp)
    · next tables hbegin =>
        cases h
        have hbegins : s.Begins attempt.changeId (.begin index) := ⟨attempt, hattempt, rfl⟩
        exact .moveTo hattempt (Effect.of_begin hbegins hbegin) .running _
          (fun hsound _ => hsound.unchecked (by rw [hstage]; rfl)) id (by simp) (by simp)
  | runCommand index exitCode =>
    obtain ⟨attempt, hattempt, h⟩ := Option.bind_eq_some_iff.1 h
    split_ifs at h with hstage hexit
    · cases h
      rw [not_or, not_not] at hstage
      exact .moveTo hattempt (.same rfl) .commandRan { attempt.verification with commandResult := some exitCode }
        (fun hsound _ => hsound.unchecked (by rw [hstage.1]; rfl)) id (by simp) (by simp)
    · cases h
      refine ⟨.same rfl, fun hs => ?_, .same rfl rfl⟩
      have hsound := hs.attempt attempt (List.mem_of_getElem? hattempt)
      let verification : RigChangeVerification :=
        { attempt.verification with commandResult := some exitCode, passed := some false }
      refine .move index attempt { attempt with verification, stage := .writing .rejected false } hattempt
        ⟨rfl, rfl, rfl, id⟩ ?_ (by intro _ hpromotion; contradiction) rfl
      exact
        { runs := hsound.runs
          unchecked := by
            intro hunchecked
            contradiction
          passed := by simp [verification]
          writing := by
            intro status promote hstage
            obtain ⟨rfl, rfl⟩ := AttemptStage.writing.inj hstage
            simp
          promoting := by
            intro promotion hpromotion
            contradiction }
  | runChecks index exitCodes =>
    obtain ⟨attempt, hattempt, h⟩ := Option.bind_eq_some_iff.1 h
    split_ifs at h with hlength hstage
    cases h
    refine ⟨.same rfl, fun hs => ?_, .same rfl rfl⟩
    have hsound := hs.attempt attempt (List.mem_of_getElem? hattempt)
    -- the checks of an attempt run once
    have hnone : attempt.passed = none := by
      apply hsound.unchecked
      obtain hran | ⟨hrunning, -⟩ := hstage
      · rw [hran]
        rfl
      · rw [hrunning]
        rfl
    refine .move index attempt (attempt.checked exitCodes) hattempt ⟨rfl, rfl, rfl, ?_⟩ (hsound.checked exitCodes)
      ?_ rfl
    · intro hpassed
      rw [hnone] at hpassed
      contradiction
    · intro promotion hpromotion
      rw [attempt.promotion_checked] at hpromotion
      contradiction
  | throw index message =>
    obtain ⟨attempt, hattempt, h⟩ := Option.bind_eq_some_iff.1 h
    split_ifs at h
    cases h
    exact .moveTo hattempt (.same rfl) (.failing message) _ (by simp [AttemptStage.unchecked]) id (by simp) (by simp)
  | write index =>
    obtain ⟨attempt, hattempt, h⟩ := Option.bind_eq_some_iff.1 h
    exact ⟨writeAttempt_effect hattempt h,
      fun hs => writeAttempt_attempts hattempt (hs.attempt attempt (List.mem_of_getElem? hattempt)) h,
      writeAttempt_requests h⟩
  | promote index =>
    obtain ⟨attempt, hattempt, h⟩ := Option.bind_eq_some_iff.1 h
    split at h
    · next promotion hstage =>
        have hpending : promotion ∈ s.pending := by
          refine promotion_mem_pending (List.mem_of_getElem? hattempt) ?_
          unfold Attempt.promotion
          rw [hstage]
        split at h
        · next error _ =>
            cases h
            exact .moveTo hattempt (.same rfl) (.failing error.message) _ (by simp [AttemptStage.unchecked]) id
              (by simp) (by simp)
        · next tables hcas =>
            cases h
            exact .moveTo hattempt (.promote promotion hpending (promoteChangeWithActiveCas_ok hcas)) .wrote _
              (by simp [AttemptStage.unchecked]) id (by simp) (by simp)
    · contradiction
  | requestPromotion changeId actor =>
    obtain ⟨change, hchange, h⟩ := Option.bind_eq_some_iff.1 h
    split at h
    · cases h
      exact .idle
    · next promotion hpromotion =>
        cases h
        obtain ⟨hverified, baseVersionId, base, hbase, hversion, hid, hexpected, hinput⟩ :=
          promoteVerifiedDefinitionEditChangeForApi_ok hpromotion
        have hsound : promotion.Sound s.tables :=
          .of_change hchange rfl rfl hbase hversion hid hexpected hinput
        refine ⟨.same rfl, fun _ => .same rfl, ?_, fun _ hmem => Or.inl hmem⟩
        intro promotion' hmem
        obtain hold | hnew := List.mem_append.1 hmem
        · exact Or.inl hold
        · obtain rfl := List.mem_singleton.1 hnew
          exact Or.inr ⟨hsound, rfl, change, by rw [hid, hchange], hverified⟩
  | commitPromotion index =>
    simp only [step] at h
    obtain ⟨promotion, hpromotion, h⟩ := Option.bind_eq_some_iff.1 h
    have hrequests : ∀ promotion' ∈ s.promotions.eraseIdx index, promotion' ∈ s.promotions :=
      fun _ hmem => List.mem_of_mem_eraseIdx hmem
    split at h
    · cases h
      exact ⟨.same rfl, fun _ => .same rfl, fun _ hmem => Or.inl (hrequests _ hmem), fun _ hmem => Or.inl hmem⟩
    · next tables hcas =>
        cases h
        have hpending : promotion ∈ s.pending := List.mem_append_right _ (List.mem_of_getElem? hpromotion)
        exact ⟨.promote promotion hpending (promoteChangeWithActiveCas_ok hcas), fun _ => .same rfl,
          fun _ hmem => Or.inl (hrequests _ hmem), fun _ hmem => Or.inl hmem⟩
  | requestVersion payload actor =>
    obtain ⟨baseVersionId, -, h⟩ := Option.bind_eq_some_iff.1 h
    obtain ⟨base, hbase, h⟩ := Option.bind_eq_some_iff.1 h
    cases h
    refine ⟨.same rfl, fun _ => .same rfl, fun _ hmem => Or.inl hmem, ?_⟩
    intro request hmem
    obtain hold | hnew := List.mem_append.1 hmem
    · exact Or.inl hold
    · obtain rfl := List.mem_singleton.1 hnew
      exact Or.inr ⟨base, hbase, rfl⟩
  | commitVersion index =>
    obtain ⟨request, hrequest, h⟩ := Option.bind_eq_some_iff.1 h
    cases h
    exact ⟨.create index request rfl hrequest rfl, fun _ => .same rfl, fun _ hmem => Or.inl hmem,
      fun _ hmem => Or.inl (List.mem_of_mem_eraseIdx hmem)⟩
  | activate versionId =>
    simp only [step] at h
    split at h
    · cases h
      exact .idle
    · next tables hactivate =>
        cases h
        obtain ⟨hlt, htables⟩ := activateRigVersion_ok hactivate
        exact .ofTables (.activate versionId hlt htables)

/-! ## The invariant -/

theorem Passed.next {versionId : ℕ} (h : s.Passed changeId versionId)
    (hgrows : s.tables.Grows t.tables) (hattempts : AttemptEffect s t) :
    t.Passed changeId versionId := by
  obtain ⟨attempt, hmem, hruns, hpassed⟩ := h
  cases hattempts with
  | same h => exact ⟨attempt, h ▸ hmem, hruns.grows hgrows, hpassed⟩
  | load loaded _ _ h => exact ⟨attempt, h ▸ List.mem_append_left _ hmem, hruns.grows hgrows, hpassed⟩
  | move index old new hold hcontinues _ _ h =>
    obtain rfl | hkept := mem_set_of_mem hold hmem new
    · exact ⟨new, h ▸ mem_set_self hold new, (hruns.grows hgrows).continues hcontinues, hcontinues.passed hpassed⟩
    · exact ⟨attempt, h ▸ hkept, hruns.grows hgrows, hpassed⟩

theorem AttemptEffect.sound (h : AttemptEffect s t) (hs : s.Sound) (hgrows : s.tables.Grows t.tables) :
    ∀ attempt ∈ t.attempts, attempt.Sound t.tables := by
  intro attempt hmem
  cases h with
  | same h => exact (hs.attempt attempt (h ▸ hmem)).grows hgrows
  | load loaded hsound _ h =>
    rw [h] at hmem
    obtain hold | hnew := List.mem_append.1 hmem
    · exact (hs.attempt attempt hold).grows hgrows
    · exact List.mem_singleton.1 hnew ▸ hsound
  | move index old new _ _ hsound _ h =>
    rw [h] at hmem
    obtain hold | rfl := List.mem_or_eq_of_mem_set hmem
    · exact (hs.attempt attempt hold).grows hgrows
    · exact hsound

theorem Sound.created (initialVersion : RigVersionContentInput) : (created initialVersion).Sound where
  one := rfl
  attempt _ h := absurd h List.not_mem_nil
  pending _ h := absurd h List.not_mem_nil
  recorded _ _ h := by contradiction
  creation _ h := absurd h List.not_mem_nil

/-- **Every step keeps the invariant.** -/
theorem Sound.step (hs : s.Sound) (h : step s e = some t) : t.Sound := by
  have heffect := (step_spec h).effect
  have hgrows : s.tables.Grows t.tables := heffect.grows
  have hattempts := (step_spec h).attempts hs
  have hrequests := (step_spec h).requests
  have hsound := hattempts.sound hs hgrows
  refine ⟨heffect.oneActive hs.one, hsound, ?_, ?_, ?_⟩
  · intro promotion hmem
    obtain hattempt | hrequest := List.mem_append.1 hmem
    · obtain ⟨attempt, hattempt, hpromotion⟩ := List.mem_filterMap.1 hattempt
      have hone := hsound attempt hattempt
      obtain ⟨hpromotionSound, -, hpassed⟩ := hone.promoting promotion hpromotion
      exact ⟨hpromotionSound, attempt, hattempt, hone.runs_promotion hpromotion, hpassed⟩
    · obtain hold | ⟨hnew, -, change, hchange, hverified⟩ := hrequests.promotion promotion hrequest
      · obtain ⟨hpromotionSound, hpassed⟩ := hs.pending promotion (List.mem_append_right _ hold)
        exact ⟨hpromotionSound.grows hgrows, hpassed.next hgrows hattempts⟩
      · refine ⟨hnew.grows hgrows, Passed.next ?_ hgrows hattempts⟩
        obtain ⟨versionId, hbase, hpassed⟩ := hs.recorded _ change hchange hverified
        obtain ⟨row, base, hrow, hrowBase, -⟩ := hnew
        cases hrow.symm.trans hchange
        cases hbase.symm.trans hrowBase
        exact hpassed
  · intro changeId row hrow hverified
    obtain ⟨versionId, hbase, hpassed⟩ := heffect.recorded hs hrow hverified
    exact ⟨versionId, hbase, hpassed.next hgrows hattempts⟩
  · intro request hmem
    obtain hold | hnew := hrequests.creation request hmem
    · exact (hs.creation request hold).grows hgrows
    · exact hnew.grows hgrows

end

end RigSystem

end OpenGeni.Rigs
