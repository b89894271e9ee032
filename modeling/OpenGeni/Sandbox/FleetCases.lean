/-
What each event of the fleet can do.

One lemma an event: which party takes it, where that party stands, and what the state is
after it. The proofs about runs take these apart and never unfold a step.
-/
import OpenGeni.Sandbox.Fleet
import OpenGeni.Db.LeaseSpec

namespace OpenGeni.Sandbox

open OpenGeni.Lib OpenGeni.Db

def SweepStage.deletes? : SweepStage → Option String
  | .deleting box => some box
  | _ => none

namespace Fleet

variable {s s' : Fleet} {w k now ttl idle : ℕ} {box : String} {caller : Caller}

/-! ## What the helpers leave alone -/

section

variable {x : Worker} {y : Sweep} {stage : Stage} {sstage : SweepStage} {terminated : Bool}

@[simp] theorem stopBox_tables : (s.stopBox box).tables = s.tables := by
  unfold stopBox; split <;> rfl

@[simp] theorem stopBox_workers : (s.stopBox box).workers = s.workers := by
  unfold stopBox; split <;> rfl

@[simp] theorem stopBox_sweeps : (s.stopBox box).sweeps = s.sweeps := by
  unfold stopBox; split <;> rfl

@[simp] theorem stopBox_episode : (s.stopBox box).episode = s.episode := by
  unfold stopBox; split <;> rfl

@[simp] theorem stopBox_built : (s.stopBox box).built = s.built := by
  unfold stopBox; split <;> rfl

@[simp] theorem stopBox_folds : (s.stopBox box).folds = s.folds := by
  unfold stopBox; split <;> rfl

@[simp] theorem stopBoxIf_tables : (s.stopBoxIf terminated box).tables = s.tables := by
  unfold stopBoxIf; split <;> simp

@[simp] theorem stopBoxIf_workers : (s.stopBoxIf terminated box).workers = s.workers := by
  unfold stopBoxIf; split <;> simp

@[simp] theorem stopBoxIf_sweeps : (s.stopBoxIf terminated box).sweeps = s.sweeps := by
  unfold stopBoxIf; split <;> simp

@[simp] theorem stopBoxIf_episode : (s.stopBoxIf terminated box).episode = s.episode := by
  unfold stopBoxIf; split <;> simp

@[simp] theorem stopBoxIf_built : (s.stopBoxIf terminated box).built = s.built := by
  unfold stopBoxIf; split <;> simp

@[simp] theorem stopBoxIf_folds : (s.stopBoxIf terminated box).folds = s.folds := by
  unfold stopBoxIf; split <;> simp

@[simp] theorem build_tables : (s.build x box).tables = s.tables := by unfold build; split <;> rfl

@[simp] theorem build_workers : (s.build x box).workers = s.workers := by unfold build; split <;> rfl

@[simp] theorem build_sweeps : (s.build x box).sweeps = s.sweeps := by unfold build; split <;> rfl

@[simp] theorem build_boxes : (s.build x box).boxes = s.boxes := by unfold build; split <;> rfl

@[simp] theorem build_episode : (s.build x box).episode = s.episode := by unfold build; split <;> rfl

@[simp] theorem build_folds : (s.build x box).folds = s.folds := by unfold build; split <;> rfl

theorem build_built : (s.build x box).built = (x.won.map fun win => (win.episode, box)).toList ++ s.built := by
  unfold build
  cases x.won <;> rfl

@[simp] theorem setStage_tables : (s.setStage w x stage).tables = s.tables := rfl
@[simp] theorem setStage_boxes : (s.setStage w x stage).boxes = s.boxes := rfl
@[simp] theorem setStage_sweeps : (s.setStage w x stage).sweeps = s.sweeps := rfl
@[simp] theorem setStage_episode : (s.setStage w x stage).episode = s.episode := rfl
@[simp] theorem setStage_built : (s.setStage w x stage).built = s.built := rfl
@[simp] theorem setStage_folds : (s.setStage w x stage).folds = s.folds := rfl
@[simp] theorem setStage_workers : (s.setStage w x stage).workers = s.workers.put w { x with stage } := rfl

@[simp] theorem setSweep_tables : (s.setSweep k y sstage).tables = s.tables := rfl
@[simp] theorem setSweep_boxes : (s.setSweep k y sstage).boxes = s.boxes := rfl
@[simp] theorem setSweep_workers : (s.setSweep k y sstage).workers = s.workers := rfl
@[simp] theorem setSweep_episode : (s.setSweep k y sstage).episode = s.episode := rfl
@[simp] theorem setSweep_built : (s.setSweep k y sstage).built = s.built := rfl
@[simp] theorem setSweep_folds : (s.setSweep k y sstage).folds = s.folds := rfl
@[simp] theorem setSweep_sweeps : (s.setSweep k y sstage).sweeps = s.sweeps.put k { y with stage := sstage } := rfl

@[simp] theorem dropSweep_tables : (s.dropSweep k).tables = s.tables := rfl
@[simp] theorem dropSweep_boxes : (s.dropSweep k).boxes = s.boxes := rfl
@[simp] theorem dropSweep_workers : (s.dropSweep k).workers = s.workers := rfl
@[simp] theorem dropSweep_episode : (s.dropSweep k).episode = s.episode := rfl
@[simp] theorem dropSweep_built : (s.dropSweep k).built = s.built := rfl
@[simp] theorem dropSweep_folds : (s.dropSweep k).folds = s.folds := rfl
@[simp] theorem dropSweep_sweeps : (s.dropSweep k).sweeps = s.sweeps.drop k := rfl

end

/-! ## The worker's events -/

theorem acquire_cases {input : AcquireLeaseInput} {session : Option SessionEnvelope}
    (h : s.acquire w caller now input session = some s') :
    s' = s ∨ ∃ role row' tables, tables.lease = some row' ∧
        ((role = .spawner ∧ (s.tables.lease.getD (freshLease now input)).Won input row') ∨
          (role ≠ .spawner ∧ (s.tables.lease.getD (freshLease now input)).Quiet row' ∧
            (s.tables.lease.getD (freshLease now input)).liveness ≠ .cold)) ∧
        s' = { s with
          tables
          workers := s.workers.put w (s.arrive caller input session role row')
          episode := if role = .spawner then s.episode + 1 else s.episode } := by
  unfold acquire at h
  by_cases hfree : (s.workers.get w).isSome = true
  · rw [if_pos hfree] at h
    cases h
  rw [if_neg hfree] at h
  cases ha : acquireLease now input s.tables with
  | mk result tables =>
    obtain ⟨e, rfl, rfl⟩ | ⟨role, row', rfl, hlease, hcase⟩ := acquireLease_cases ha
    · rw [ha] at h
      exact .inl (Option.some.inj h).symm
    · rw [ha] at h
      refine .inr ⟨role, row', tables, hlease, ?_, (Option.some.inj h).symm⟩
      exact hcase.imp (fun hw => ⟨hw.1, hw.2.1⟩) id

theorem read_cases (hs : s.read w = some s') : ∃ x, s.workers.get w = some x ∧ x.stage = .waiting ∧ s' = { s with
        workers := s.workers.put w { x with
            envelope := (s.tables.lease.bind (·.resumeState)).or (x.session.map (·.toEnvelope))
            known := s.newest
            stage := .establishing false } } := by
  obtain ⟨x, hx, h⟩ := Option.bind_eq_some_iff.1 hs
  by_cases hst : x.stage = .waiting
  · rw [if_pos hst] at h
    exact ⟨x, hx, hst, (Option.some.inj h).symm⟩
  · rw [if_neg hst] at h
    cases h

theorem resume_cases (hs : s.resume w = some s') :
    ∃ x box, s.workers.get w = some x ∧ x.stage = .establishing false ∧ s.resumable x = some box ∧
      s' = (s.build x box).setStage w x (.established box) := by
  obtain ⟨x, hx, h⟩ := Option.bind_eq_some_iff.1 hs
  split at h
  · rename_i box hst hbox
    exact ⟨x, box, hx, hst, hbox, (Option.some.inj h).symm⟩
  · cases h

theorem create_cases (hs : s.create w box = some s') :
    ∃ x skip, s.workers.get w = some x ∧ x.stage = .establishing skip ∧
      (skip = false → s.resumable x = none) ∧ s.boxes.get box = none ∧
      s' = ({ s with
          boxes := s.boxes.put box
            { running := true, carried := s.tables.lease.bind (·.workspaceArchive)
              replayed := [] } }.build x box).setStage w x
        (x.afterCreate box (!skip && !x.candidates.isEmpty)) := by
  obtain ⟨x, hx, h⟩ := Option.bind_eq_some_iff.1 hs
  split at h
  · rename_i skip hst
    by_cases hc : ((!skip && (s.resumable x).isSome) || (s.boxes.get box).isSome) = true
    · rw [if_pos hc] at h
      cases h
    · rw [if_neg hc] at h
      refine ⟨x, skip, hx, hst, ?_, ?_, (Option.some.inj h).symm⟩
      · rintro rfl
        cases hr : s.resumable x with
        | none => rfl
        | some b => simp [hr] at hc
      · cases hb : s.boxes.get box with
        | none => rfl
        | some b => simp [hb] at hc
  · cases h

/-- The record of `onSandboxCreated`. -/
def recorded (now : ℕ) (serializes : Bool) (leaseTtlMs : ℕ) (warmingLeaseTtlMs : Option ℕ) (x : Worker)
    (box : String) (row : LeaseRow) : LeaseRow :=
  { row with
    instanceId := some box
    resumeBackendId := some x.backend
    resumeState := preserveWorkspaceArchiveOnInterimResumeState
      (serializeEstablishedSandboxEnvelope serializes x.backend box) x.envelope
    expiresAt := afterMs now (warmingLeaseTtlMs.getD leaseTtlMs) }

variable {serializes terminated : Bool}

theorem onSandboxCreated_cases {warmingTtl : Option ℕ}
    (hs : s.onSandboxCreated w now serializes ttl warmingTtl terminated = some s') :
    ∃ x win box hydrate, s.workers.get w = some x ∧ x.stage = .created box hydrate ∧ x.won = some win ∧
      ((∃ row, s.tables.lease = some row ∧ row.Warming win.expectedEpoch ∧ s' = { s with
            tables := { s.tables with
              lease := some (recorded now serializes ttl warmingTtl x box row) } }.setStage w x
            (.afterCallback box hydrate)) ∨
        ((∀ row, s.tables.lease = some row → ¬ row.Warming win.expectedEpoch) ∧
          s' = (s.stopBoxIf terminated box).setStage w { x with won := none } .leaving)) := by
  obtain ⟨x, hx, h⟩ := Option.bind_eq_some_iff.1 hs
  split at h
  · rename_i box hydrate win hst hwon
    generalize hupd : recordWarmingSandboxCreated now _ s.tables = upd at h
    obtain ⟨tables, found⟩ := upd
    obtain ⟨rfl, row, hrow, hwarming, rfl⟩ | ⟨rfl, rfl, hmiss⟩ := updateWhere_cases hupd
    · exact ⟨x, win, box, hydrate, hx, hst, hwon, .inl ⟨row, hrow, hwarming, (Option.some.inj h).symm⟩⟩
    · exact ⟨x, win, box, hydrate, hx, hst, hwon, .inr ⟨hmiss, (Option.some.inj h).symm⟩⟩
  · cases h

theorem hydrate_cases {outcome : Hydration} (hs : s.hydrate w outcome = some s') :
    ∃ x box, s.workers.get w = some x ∧ x.stage = .hydrating box ∧ (s' = s.setStage w x (.established box) ∨
        (outcome = .failed ∧ s' = (s.stopBox box).setStage w x (.establishing true)) ∨
        (∃ archive b, archive ∈ x.candidates ∧ s.boxes.get box = some b ∧ s' = { s with
            boxes := s.boxes.put box { b with replayed := archive :: b.replayed } }.setStage w x
            (.established box)) ∨
        ∃ archive box' b, outcome = .replayed archive box' ∧ box' ≠ box ∧ archive ∈ x.candidates ∧
          s.boxes.get box = some b ∧ s.boxes.get box' = none ∧
          s' = ({ s with
            boxes := ((s.stopBox box).boxes).put box'
              { b with replayed := archive :: b.replayed } }.build x box').setStage w x
            (x.afterCreate box' false)) := by
  obtain ⟨x, hx, h⟩ := Option.bind_eq_some_iff.1 hs
  split at h
  · rename_i box hst
    refine ⟨x, box, hx, hst, ?_⟩
    split at h
    · exact .inl (Option.some.inj h).symm
    · exact .inr (.inl ⟨rfl, (Option.some.inj h).symm⟩)
    · rename_i archive box' b hb
      by_cases hc : archive ∉ x.candidates
      · rw [if_pos hc] at h
        cases h
      rw [if_neg hc] at h
      by_cases hsame : box' = box
      · rw [if_pos hsame] at h
        exact .inr (.inr (.inl ⟨archive, b, not_not.1 hc, hb, (Option.some.inj h).symm⟩))
      · rw [if_neg hsame] at h
        by_cases hused : (s.boxes.get box').isSome = true
        · rw [if_pos hused] at h
          cases h
        · rw [if_neg hused] at h
          exact .inr (.inr (.inr ⟨archive, box', b, rfl, hsame, not_not.1 hc, hb, by simpa using hused,
            (Option.some.inj h).symm⟩))
    · cases h
  · cases h

def committed (now : ℕ) (serializes : Bool) (dataPlaneUrl : Option String) (leaseTtlMs : ℕ) (x : Worker)
    (box : String) (row : LeaseRow) : LeaseRow :=
  { row with
    liveness := .warm
    instanceId := some box
    dataPlaneUrl
    terminalDataPlaneUrl := none
    resumeBackendId := some x.backend
    resumeState := (serializeEstablishedSandboxEnvelope serializes x.backend box).or (x.session.map (·.toEnvelope))
    leaseEpoch := row.leaseEpoch + 1
    expiresAt := afterMs now leaseTtlMs }

theorem commit_cases {url : Option String} (hs : s.commit w now serializes url ttl terminated = some s') :
    ∃ x win box, s.workers.get w = some x ∧ x.stage = .established box ∧ x.won = some win ∧
      ((∃ row, s.tables.lease = some row ∧ row.Warming win.expectedEpoch ∧ s' = { s with
            tables := { s.tables with lease := some (committed now serializes url ttl x box row) }
            workers := s.workers.put w { x with
                won := none
                leaseEpoch := win.expectedEpoch + 1
                stage := .holding (some box) } }) ∨
        ((∀ row, s.tables.lease = some row → ¬ row.Warming win.expectedEpoch) ∧
          s' = (s.stopBoxIf (terminated && x.caller == .resumeBoxForTurn) box).setStage w
            { x with won := none } .leaving)) := by
  obtain ⟨x, hx, h⟩ := Option.bind_eq_some_iff.1 hs
  split at h
  · rename_i box win hst hwon
    generalize hupd : commitWarmingToWarm now _ s.tables = upd at h
    obtain ⟨tables, found⟩ := upd
    obtain ⟨rfl, row, hrow, hwarming, rfl⟩ | ⟨rfl, rfl, hmiss⟩ := updateWhere_cases hupd
    · exact ⟨x, win, box, hx, hst, hwon, .inl ⟨row, hrow, hwarming, (Option.some.inj h).symm⟩⟩
    · exact ⟨x, win, box, hx, hst, hwon, .inr ⟨hmiss, (Option.some.inj h).symm⟩⟩
  · cases h

theorem hold_cases (hs : s.hold w = some s') :
    ∃ x box, s.workers.get w = some x ∧ x.stage = .established box ∧ x.won = none ∧
      s' = s.setStage w x (.holding (some box)) := by
  obtain ⟨x, hx, h⟩ := Option.bind_eq_some_iff.1 hs
  split at h
  · rename_i box hst hwon
    exact ⟨x, box, hx, hst, hwon, (Option.some.inj h).symm⟩
  · cases h

theorem throws_cases (hs : s.throws w terminated = some s') :
    ∃ x stage s₁, s.workers.get w = some x ∧ (stage = .failing ∨ stage = .leaving) ∧
      (s₁ = s ∨ ∃ box, terminated = true ∧ x.stage.box? = some box ∧ s₁ = s.stopBox box) ∧
      s' = s₁.setStage w (if stage = Stage.leaving then { x with won := none } else x) stage := by
  obtain ⟨x, hx, h⟩ := Option.bind_eq_some_iff.1 hs
  obtain ⟨stage, hst, rfl⟩ := Option.map_eq_some_iff.1 h
  refine ⟨x, stage, _, hx, ?_, ?_, rfl⟩
  · unfold afterThrow at hst
    split at hst
    all_goals first | cases hst | skip
    · exact .inr rfl
    · split at hst
      · exact .inr (Option.some.inj hst).symm
      · exact .inl (Option.some.inj hst).symm
    · split at hst
      · exact .inr (Option.some.inj hst).symm
      · exact .inl (Option.some.inj hst).symm
  · cases hb : x.stage.box? with
    | none => exact .inl rfl
    | some box =>
      dsimp only
      unfold stopBoxIf
      by_cases hc : (terminated && x.records) = true
      · rw [if_pos hc]
        exact .inr ⟨box, (Bool.and_eq_true_iff.1 hc).1, rfl, rfl⟩
      · rw [if_neg hc]
        exact .inl rfl

theorem fail_cases (hs : s.fail w = some s') :
    ∃ x win tables, s.workers.get w = some x ∧ x.stage = .failing ∧ x.won = some win ∧
      s' = { s with tables }.setStage w { x with won := none } .leaving ∧
      ((∃ row, s.tables.lease = some row ∧ row.Warming win.expectedEpoch ∧
          tables = { s.tables with lease := some row.goCold }) ∨
        ((∀ row, s.tables.lease = some row → ¬ row.Warming win.expectedEpoch) ∧ tables = s.tables)) := by
  obtain ⟨x, hx, h⟩ := Option.bind_eq_some_iff.1 hs
  split at h
  · rename_i win hst hwon
    refine ⟨x, win, _, hx, hst, hwon, (Option.some.inj h).symm, ?_⟩
    generalize hupd : failWarmingToCold win.expectedEpoch s.tables = upd
    obtain ⟨tables, found⟩ := upd
    obtain ⟨-, row, hrow, hwarming, rfl⟩ | ⟨-, rfl, hmiss⟩ := updateWhere_cases hupd
    · exact .inl ⟨row, hrow, hwarming, rfl⟩
    · exact .inr ⟨hmiss, rfl⟩
  · cases h

theorem release_cases (hs : s.release w now idle = some s') :
    ∃ tables, s' = { s with tables, workers := s.workers.drop w } ∧
      (∀ row, s.tables.lease = some row → ∃ row', tables.lease = some row' ∧ row.Quiet row') ∧
      (s.tables.lease = none → tables = s.tables) := by
  obtain ⟨x, hx, h⟩ := Option.bind_eq_some_iff.1 hs
  split at h
  · exact ⟨_, (Option.some.inj h).symm, fun row hrow => releaseLeaseHolder_lease hrow, releaseLeaseHolder_none⟩
  · exact ⟨_, (Option.some.inj h).symm, fun row hrow => releaseLeaseHolder_lease hrow, releaseLeaseHolder_none⟩
  · cases h

theorem snapshot_cases {archive : Archive} {interval capturedAt : ℕ}
    (hs : s.snapshot w archive interval capturedAt = some s') :
    s' = s ∨ ∃ x box row, s.workers.get w = some x ∧ x.stage = .holding (some box) ∧
        s.tables.lease = some row ∧ row.liveness = .warm ∧ row.leaseEpoch = x.leaseEpoch ∧
        s' = { s with
          tables := { s.tables with
            lease := some (row.foldWorkspaceArchive archive row.workspaceArchive capturedAt) }
          folds := (archive, box) :: s.folds } := by
  obtain ⟨x, hx, h⟩ := Option.bind_eq_some_iff.1 hs
  split at h
  · rename_i box hst
    by_cases hrun : s.running box = true
    · rw [if_pos hrun] at h
      generalize hp : persistWarmSnapshot _ s.tables = out at h
      obtain ⟨tables, result⟩ := out
      obtain ⟨hwrote, rfl⟩ | ⟨hwrote, row, hrow, hwarm, hepoch, rfl⟩ := persistWarmSnapshot_cases hp
      · rw [← Option.some.inj h]
        simp [hwrote]
      · right
        refine ⟨x, box, row, hx, hst, hrow, hwarm, hepoch, ?_⟩
        rw [← Option.some.inj h]
        simp [hwrote]
    · rw [if_neg hrun] at h
      cases h
  · cases h

/-! ## The sweep's events -/

/-- What a sweep has done to a row: it is quiet, or the row's spawner was dead. -/
def Swept (now : ℕ) (row row' : LeaseRow) : Prop := row.Quiet row' ∨
    (row.liveness = .warming ∧ row.expiresAt < now ∧ row.instanceId = none ∧ row'.liveness = .cold ∧
      row'.instanceId = none ∧ row'.leaseEpoch = row.leaseEpoch ∧ row'.resumeState = none) ∨
    (row.liveness = .warming ∧ row.expiresAt < now ∧ row.instanceId ≠ none ∧
      row'.liveness = .draining ∧ row'.refcount = 0 ∧ row.SameBox row')

theorem reap_cases {input : ReapInput} (h : s.reap k now input = some s') :
    (s.tables.lease = none ∧ ∃ tables, tables.lease = none ∧ s' = { s with tables }) ∨
      ∃ row row' tables, s.tables.lease = some row ∧ tables.lease = some row' ∧ Swept now row row' ∧
        (s' = { s with tables } ∨
          (row'.liveness = .draining ∧
            s' = { s with
              tables
              sweeps := s.sweeps.put k
                { leaseEpoch := row'.leaseEpoch, episode := s.episode, stage := .picked } })) := by
  unfold reap at h
  by_cases hfree : (s.sweeps.get k).isSome = true
  · rw [if_pos hfree] at h
    cases h
  rw [if_neg hfree] at h
  generalize hr : reapStaleLeaseHolders now input s.tables = out at h
  obtain ⟨tables, drainable⟩ := out
  cases hl : s.tables.lease with
  | none =>
    obtain ⟨hlease, rfl⟩ := reapStaleLeaseHolders_none hl hr
    exact .inl ⟨rfl, tables, hlease, (Option.some.inj h).symm⟩
  | some row =>
    obtain ⟨row', hlease, hswept, hd⟩ := reapStaleLeaseHolders_lease hl hr
    refine .inr ⟨row, row', tables, rfl, hlease, hswept, ?_⟩
    cases drainable with
    | none => exact .inl (Option.some.inj h).symm
    | some d =>
      obtain ⟨hdr, hep⟩ := hd d rfl
      rw [← hep]
      exact .inr ⟨hdr, (Option.some.inj h).symm⟩

theorem reread_cases (hs : s.reread k = some s') : s' = s.dropSweep k ∨
      ∃ y row, s.sweeps.get k = some y ∧ y.stage = .picked ∧ s.tables.lease = some row ∧
        row.Idle y.leaseEpoch ∧ s' = s.setSweep k y (.attaching row) := by
  obtain ⟨y, hy, h⟩ := Option.bind_eq_some_iff.1 hs
  split at h
  · rename_i row hst hrow
    by_cases hi : row.Idle y.leaseEpoch
    · rw [if_pos hi] at h
      exact .inr ⟨y, row, hy, hst, hrow, hi, (Option.some.inj h).symm⟩
    · rw [if_neg hi] at h
      exact .inl (Option.some.inj h).symm
  · exact .inl (Option.some.inj h).symm
  · cases h

theorem attach_cases {outcome : Attempt Unit} (hs : s.attach k outcome = some s') : s' = s.dropSweep k ∨
      ∃ y lease, s.sweeps.get k = some y ∧ y.stage = .attaching lease ∧ (s' = s.setSweep k y .confirming ∨
          (∃ box, teardown lease = .direct box ∧ s' = s.setSweep k y (.persisting box none)) ∨
          ∃ box, teardown lease = .resume box ∧ s.running box = true ∧ s' = s.setSweep k y (.capturing box)) := by
  obtain ⟨y, hy, h⟩ := Option.bind_eq_some_iff.1 hs
  split at h
  · rename_i lease hst
    split at h
    · exact .inr ⟨y, lease, hy, hst, .inl (Option.some.inj h).symm⟩
    · rename_i _ box hplan
      exact .inr ⟨y, lease, hy, hst, .inr (.inl ⟨box, hplan, (Option.some.inj h).symm⟩)⟩
    · rename_i box hplan
      by_cases hrun : s.running box = true
      · rw [if_pos hrun] at h
        exact .inr ⟨y, lease, hy, hst, .inr (.inr ⟨box, hplan, hrun, (Option.some.inj h).symm⟩)⟩
      · rw [if_neg hrun] at h
        cases h
    · split at h
      · cases h
      · exact .inr ⟨y, lease, hy, hst, .inl (Option.some.inj h).symm⟩
    · exact .inr ⟨y, lease, hy, hst, .inl (Option.some.inj h).symm⟩
    · exact .inl (Option.some.inj h).symm
    · exact .inl (Option.some.inj h).symm
  · cases h

theorem capture_cases {outcome : Attempt (Option Archive)} (hs : s.capture k outcome = some s') :
    s' = s.dropSweep k ∨ ∃ y box, s.sweeps.get k = some y ∧ y.stage = .capturing box ∧
        (s' = s.setSweep k y .confirming ∨
          ∃ archive, s.running box = true ∧ s' = s.setSweep k y (.persisting box archive)) := by
  obtain ⟨y, hy, h⟩ := Option.bind_eq_some_iff.1 hs
  split at h
  · rename_i box hst
    split at h
    · rename_i archive
      by_cases hrun : s.running box = true
      · rw [if_pos hrun] at h
        exact .inr ⟨y, box, hy, hst, .inr ⟨archive, hrun, (Option.some.inj h).symm⟩⟩
      · rw [if_neg hrun] at h
        cases h
    · split at h
      · cases h
      · exact .inr ⟨y, box, hy, hst, .inl (Option.some.inj h).symm⟩
    · cases h
    · exact .inl (Option.some.inj h).symm
  · cases h

theorem persist_cases (hs : s.persist k now = some s') : s' = s.dropSweep k ∨
      ∃ y box archive row, s.sweeps.get k = some y ∧ y.stage = .persisting box archive ∧
        s.tables.lease = some row ∧ row.Idle y.leaseEpoch ∧
        s' = { s with
          tables := { s.tables with
            lease := some ((archive.map fun a => row.foldWorkspaceArchive a none (now / 1000)).getD row) }
          folds := (archive.map fun a => (a, box)).toList ++ s.folds }.setSweep k y (.deleting box) := by
  obtain ⟨y, hy, h⟩ := Option.bind_eq_some_iff.1 hs
  split at h
  · rename_i box archive hst
    generalize hp : persistDrainSnapshot now y.leaseEpoch archive s.tables = out at h
    obtain ⟨tables, result⟩ := out
    obtain ⟨hwrote, rfl⟩ | ⟨hwrote, row, hrow, hidle, rfl⟩ := persistDrainSnapshot_cases hp
    · simp only [hwrote, Bool.false_eq_true, if_false] at h
      exact .inl (Option.some.inj h).symm
    · simp only [hwrote, if_true] at h
      exact .inr ⟨y, box, archive, row, hy, hst, hrow, hidle, (Option.some.inj h).symm⟩
  · cases h

theorem delete_cases {raised : Bool} (hs : s.delete k raised = some s') :
    ∃ y box, s.sweeps.get k = some y ∧ y.stage = .deleting box ∧
      s' = (s.stopBoxIf (!raised) box).setSweep k y .confirming := by
  obtain ⟨y, hy, h⟩ := Option.bind_eq_some_iff.1 hs
  split at h
  · rename_i box hst
    exact ⟨y, box, hy, hst, (Option.some.inj h).symm⟩
  · cases h

theorem confirm_cases (hs : s.confirm k = some s') : ∃ y tables, s.sweeps.get k = some y ∧ y.stage = .confirming ∧
      s' = { s with tables }.dropSweep k ∧
      ((∃ row, s.tables.lease = some row ∧ row.Idle y.leaseEpoch ∧
          tables = { s.tables with lease := some row.goCold }) ∨
        tables = s.tables) := by
  obtain ⟨y, hy, h⟩ := Option.bind_eq_some_iff.1 hs
  split at h
  · rename_i hst
    refine ⟨y, _, hy, hst, (Option.some.inj h).symm, ?_⟩
    generalize hupd : confirmDrainCold y.leaseEpoch s.tables = upd
    obtain ⟨tables, found⟩ := upd
    obtain ⟨-, row, hrow, hidle, rfl⟩ | ⟨-, rfl, -⟩ := updateWhere_cases hupd
    · exact .inl ⟨row, hrow, hidle, rfl⟩
    · exact .inr rfl
  · cases h

theorem heartbeat_lease {row : LeaseRow} (now ttl epoch : ℕ) (kind : LeaseHolderKind) (holderId : String)
    (hrow : s.tables.lease = some row) :
    ∃ row', (heartbeatLeaseHolder now kind holderId ttl epoch s.tables).1.lease = some row' ∧ row.Quiet row' := by
  obtain he | ⟨row₀, row', hl, hl', rfl⟩ := heartbeatLeaseHolder_lease now ttl epoch kind holderId s.tables
  · exact ⟨row, he.trans hrow, LeaseRow.Quiet.refl row⟩
  · cases hrow.symm.trans hl
    exact ⟨_, hl', ⟨rfl, rfl, rfl⟩, .inl rfl⟩

/-! ## What an event does to the boxes and to the folds -/

def handle (s : Fleet) (w : ℕ) : Option String := (s.workers.get w).bind (·.stage.box?)

def stops (s : Fleet) : FleetEvent → Option String
  | .onSandboxCreated w _ _ _ _ terminated | .commit w _ _ _ _ terminated | .throws w terminated =>
    if terminated then s.handle w else none
  | .hydrate w .failed => s.handle w
  | .hydrate w (.replayed _ box') => (s.handle w).filter (· ≠ box')
  | .delete k raised => if raised then none else (s.sweeps.get k).bind (·.stage.deletes?)
  | .lost box => some box
  | _ => none

/-- **What an event can do to the boxes and to the folds.** It stops a box, creates one, replays an
archive into one, or replaces one by a fresh one with the archive in it; and it folds at most one
archive. -/
theorem boxes_folds_cases {e : FleetEvent} (h : s.step e = some s') : (s'.boxes = s.boxes ∨
      (∃ box, s.stops e = some box ∧ s'.boxes = (s.stopBox box).boxes) ∨
      (∃ box b, s.boxes.get box = none ∧ s'.boxes = s.boxes.put box b) ∨
      (∃ box b a, s.boxes.get box = some b ∧ s'.boxes = s.boxes.put box { b with replayed := a :: b.replayed }) ∨
      ∃ box box' b, s.stops e = some box ∧ s.boxes.get box' = none ∧
        s'.boxes = ((s.stopBox box).boxes).put box' b) ∧
      (s'.folds = s.folds ∨ ∃ f, s'.folds = f :: s.folds) := by
  -- A worker may stop the box it has a handle of.
  have hhandle : ∀ {w x b}, s.workers.get w = some x → x.stage.box? = some b → s.handle w = some b := by
    intro w x b hx hb
    rw [handle, hx]
    exact hb
  cases e with
  | acquire =>
    obtain rfl | ⟨role, row', tables, -, -, rfl⟩ := acquire_cases h
    all_goals exact ⟨.inl rfl, .inl rfl⟩
  | read =>
    obtain ⟨x, -, -, rfl⟩ := read_cases h
    exact ⟨.inl rfl, .inl rfl⟩
  | resume =>
    obtain ⟨x, b, -, -, -, rfl⟩ := resume_cases h
    exact ⟨.inl (by simp), .inl (by simp)⟩
  | create w b =>
    obtain ⟨x, skip, -, -, -, hfresh, rfl⟩ := create_cases h
    exact ⟨.inr (.inr (.inl ⟨b, _, hfresh, by simp; rfl⟩)), .inl (by simp)⟩
  | onSandboxCreated w now serializes ttl warmingTtl terminated =>
    obtain ⟨x, win, b, hydrate, hx, hst, -, ⟨row, -, -, rfl⟩ | ⟨-, rfl⟩⟩ := onSandboxCreated_cases h
    · exact ⟨.inl rfl, .inl rfl⟩
    · cases terminated with
      | false => exact ⟨.inl rfl, .inl rfl⟩
      | true => exact ⟨.inr (.inl ⟨b, hhandle hx (by rw [hst]; rfl), rfl⟩), .inl (by simp)⟩
  | hydrate w outcome =>
    obtain ⟨x, b, hx, hst, rfl | ⟨rfl, rfl⟩ | ⟨archive, c, -, hc, rfl⟩ |
      ⟨archive, b', c, rfl, hb', -, hc, hfresh, rfl⟩⟩ := hydrate_cases h
    · exact ⟨.inl rfl, .inl rfl⟩
    · exact ⟨.inr (.inl ⟨b, hhandle hx (by rw [hst]; rfl), rfl⟩), .inl (by simp)⟩
    · exact ⟨.inr (.inr (.inr (.inl ⟨b, c, archive, hc, rfl⟩))), .inl rfl⟩
    · refine ⟨.inr (.inr (.inr (.inr ⟨b, b', _, ?_, hfresh, by simp; rfl⟩))), .inl (by simp)⟩
      simp [stops, handle, hx, hst, Stage.box?, hb'.symm]
  | commit w now serializes url ttl terminated =>
    obtain ⟨x, win, b, hx, hst, -, ⟨row, -, -, rfl⟩ | ⟨-, rfl⟩⟩ := commit_cases h
    · exact ⟨.inl rfl, .inl rfl⟩
    · by_cases ht : (terminated && x.caller == .resumeBoxForTurn) = true
      · obtain rfl : terminated = true := (Bool.and_eq_true_iff.1 ht).1
        refine ⟨.inr (.inl ⟨b, hhandle hx (by rw [hst]; rfl), ?_⟩), .inl (by simp)⟩
        rw [stopBoxIf, if_pos ht]
        rfl
      · refine ⟨.inl ?_, .inl (by simp)⟩
        rw [stopBoxIf, if_neg ht]
        rfl
  | hold =>
    obtain ⟨x, b, -, -, -, rfl⟩ := hold_cases h
    exact ⟨.inl rfl, .inl rfl⟩
  | throws w terminated =>
    obtain ⟨x, stage, s₁, hx, -, rfl | ⟨b, rfl, hb, rfl⟩, rfl⟩ := throws_cases h
    · exact ⟨.inl rfl, .inl rfl⟩
    · exact ⟨.inr (.inl ⟨b, hhandle hx hb, rfl⟩), .inl (by simp)⟩
  | fail =>
    obtain ⟨x, win, tables, -, -, -, rfl, -⟩ := fail_cases h
    exact ⟨.inl rfl, .inl rfl⟩
  | release =>
    obtain ⟨tables, rfl, -⟩ := release_cases h
    exact ⟨.inl rfl, .inl rfl⟩
  | die | touch | heartbeat | stop =>
    cases h
    exact ⟨.inl rfl, .inl rfl⟩
  | snapshot =>
    obtain rfl | ⟨x, b, row, -, -, -, -, -, rfl⟩ := snapshot_cases h
    · exact ⟨.inl rfl, .inl rfl⟩
    · exact ⟨.inl rfl, .inr ⟨_, rfl⟩⟩
  | reap =>
    obtain ⟨-, tables, -, rfl⟩ | ⟨row, row', tables, -, -, -, rfl | ⟨-, rfl⟩⟩ := reap_cases h
    all_goals exact ⟨.inl rfl, .inl rfl⟩
  | reread =>
    obtain rfl | ⟨y, row, -, -, -, -, rfl⟩ := reread_cases h
    all_goals exact ⟨.inl rfl, .inl rfl⟩
  | attach =>
    obtain rfl | ⟨y, lease, -, -, rfl | ⟨b, -, rfl⟩ | ⟨b, -, -, rfl⟩⟩ := attach_cases h
    all_goals exact ⟨.inl rfl, .inl rfl⟩
  | capture =>
    obtain rfl | ⟨y, b, -, -, rfl | ⟨archive, -, rfl⟩⟩ := capture_cases h
    all_goals exact ⟨.inl rfl, .inl rfl⟩
  | persist =>
    obtain rfl | ⟨y, b, archive, row, -, -, -, -, rfl⟩ := persist_cases h
    · exact ⟨.inl rfl, .inl rfl⟩
    · cases archive with
      | none => exact ⟨.inl rfl, .inl rfl⟩
      | some a => exact ⟨.inl rfl, .inr ⟨_, rfl⟩⟩
  | delete k raised =>
    obtain ⟨y, b, hy, hst, rfl⟩ := delete_cases h
    cases raised with
    | true => exact ⟨.inl rfl, .inl rfl⟩
    | false =>
      refine ⟨.inr (.inl ⟨b, ?_, rfl⟩), .inl (by simp)⟩
      simp [stops, hy, hst, SweepStage.deletes?]
  | confirm =>
    obtain ⟨y, tables, -, -, rfl, -⟩ := confirm_cases h
    exact ⟨.inl rfl, .inl rfl⟩
  | lost b =>
    cases h
    exact ⟨.inr (.inl ⟨b, rfl, rfl⟩), .inl stopBox_folds⟩

end Fleet

end OpenGeni.Sandbox
