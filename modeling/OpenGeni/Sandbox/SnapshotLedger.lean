/-
Which archives a lease hands out for deletion.

A capture becomes the archive of the lease, then its fallback, then it is handed to the caller that
replaces it. The books are a ledger: what was written is, at every moment, either on the row or
handed out, and never both. The two rewrites of a re-warm take archives off the row without handing
them out: the record of a created box the fallback, the commit both.
-/
import OpenGeni.Db.LeaseSpec
import OpenGeni.Sandbox.Fleet

namespace OpenGeni.Sandbox

open OpenGeni.Lib OpenGeni.Db

/-! ## The lease and its books -/

/-- The archives that an envelope refers to. -/
def archives (envelope : Option Envelope) : List Archive :=
  (envelope.bind (·.workspaceArchive)).toList ++ (envelope.bind (·.workspaceArchivePrev)).toList

def envelopeOf (tables : LeaseTables) : Option Envelope := tables.lease.bind (·.resumeState)

structure SnapshotLedger where
  tables : LeaseTables
  written : List Archive
  handed : List Archive

inductive SnapshotEvent
  | warm (input : PersistWarmInput)
  | drain (now expectedEpoch : ℕ) (workspaceArchive : Option Archive)
  /-- `resumeBoxForTurn` records the box it created; `source` is the lease's envelope as it read it -/
  | record (now : ℕ) (input : RecordInput) (serializes : Bool) (backend : String) (source : Option Envelope)
  | commit (now : ℕ) (input : CommitInput) (serializes : Bool) (backend : String)
      (session : Option SessionEnvelope)
  | fail (expectedEpoch : ℕ)
  | confirm (expectedEpoch : ℕ)
  /-- every write to the row that leaves `resume_state` alone -/
  | other (tables : LeaseTables)

namespace SnapshotLedger

/-- A lease without an archive. -/
def start (tables : LeaseTables) : SnapshotLedger := { tables, written := [], handed := [] }

/-- A capture is an archive that was not written before. -/
def step (s : SnapshotLedger) : SnapshotEvent → Option SnapshotLedger
  | .warm input =>
      let (tables, result) := persistWarmSnapshot input s.tables
      if input.workspaceArchive ∈ s.written then none
      else some
        { tables, written := if result.wrote then input.workspaceArchive :: s.written else s.written
          handed := result.priorArchiveForGc.toList ++ s.handed }
  | .drain now expectedEpoch workspaceArchive =>
      let (tables, result) := persistDrainSnapshot now expectedEpoch workspaceArchive s.tables
      if ∃ archive ∈ workspaceArchive, archive ∈ s.written then none
      else some
        { tables, written := if result.wrote then workspaceArchive.toList ++ s.written else s.written
          handed := result.priorArchive.toList ++ result.priorArchivePrev.toList ++ s.handed }
  | .record now input serializes backend source =>
      let resumeState := preserveWorkspaceArchiveOnInterimResumeState
        (serializeEstablishedSandboxEnvelope serializes backend input.instanceId) source
      some { s with tables := (recordWarmingSandboxCreated now { input with resumeState } s.tables).1 }
  | .commit now input serializes backend session =>
      let resumeState := (serializeEstablishedSandboxEnvelope serializes backend input.instanceId).or
        (session.map (·.toEnvelope))
      some { s with tables := (commitWarmingToWarm now { input with resumeState } s.tables).1 }
  | .fail expectedEpoch => some { s with tables := (failWarmingToCold expectedEpoch s.tables).1 }
  | .confirm expectedEpoch => some { s with tables := (confirmDrainCold expectedEpoch s.tables).1 }
  | .other tables =>
      if envelopeOf tables = envelopeOf s.tables then some { s with tables } else none

def steps (s : SnapshotLedger) (e : SnapshotEvent) (s' : SnapshotLedger) : Prop := s.step e = some s'

/-- What is handed out is not on the row, and what is no longer on the row was handed out, once. -/
structure Exact (s : SnapshotLedger) : Prop where
  gone : ∀ archive ∈ s.handed, archive ∉ archives (envelopeOf s.tables)
  all : ∀ archive ∈ s.written, archive ∈ archives (envelopeOf s.tables) ∨ archive ∈ s.handed
  once : s.handed.Nodup

/-- A warm write keeps the time of the archive or moves it on. -/
def Rises (s : SnapshotLedger) (e : SnapshotEvent) : Prop := ∀ input s', e = .warm input → s.step e = some s' →
    ∀ atMs, (envelopeOf s.tables).bind (·.workspaceArchiveAt) = some atMs →
      ∃ atMs', (envelopeOf s'.tables).bind (·.workspaceArchiveAt) = some atMs' ∧ atMs ≤ atMs'

/-- A record meets no fallback and carries the archive of the row; a commit meets no archive. -/
def careful (s : SnapshotLedger) : SnapshotEvent → Bool
  | .record _ input _ _ source =>
      !s.tables.lease.any (·.Warming input.expectedEpoch) ||
        ((envelopeOf s.tables).bind (·.workspaceArchivePrev) == none &&
          source.bind (·.workspaceArchive) == (envelopeOf s.tables).bind (·.workspaceArchive))
  | .commit _ input .. =>
      !s.tables.lease.any (·.Warming input.expectedEpoch) || (envelopeOf s.tables).bind (·.workspaceArchive) == none
  | _ => true

/-! ## The invariant -/

/-- There is no fallback without an archive. -/
def Paired (envelope : Option Envelope) : Prop :=
  envelope.bind (·.workspaceArchive) = none → envelope.bind (·.workspaceArchivePrev) = none

/-- The ledger balances. -/
structure Balanced (s : SnapshotLedger) : Prop where
  perm : (s.handed ++ archives (envelopeOf s.tables)).Perm s.written
  nodup : s.written.Nodup
  paired : Paired (envelopeOf s.tables)

theorem Balanced.exact {s : SnapshotLedger} (h : s.Balanced) : s.Exact := by
  have hnodup := List.nodup_append.1 (h.perm.nodup_iff.2 h.nodup)
  refine ⟨fun archive hhanded hrow => hnodup.2.2 archive hhanded archive hrow rfl, ?_, hnodup.1⟩
  intro archive hwritten
  exact (List.mem_append.1 (h.perm.mem_iff.2 hwritten)).symm

theorem Balanced.same {s : SnapshotLedger} {tables : LeaseTables} (h : s.Balanced)
    (harchives : archives (envelopeOf tables) = archives (envelopeOf s.tables))
    (hpaired : Paired (envelopeOf tables)) : Balanced { s with tables } :=
  ⟨by rw [harchives]; exact h.perm, h.nodup, hpaired⟩

/-! ## The operations -/

variable {t t' : LeaseTables} {row : LeaseRow}

theorem envelopeOf_some (h : t.lease = some row) : envelopeOf t = row.resumeState := by
  rw [envelopeOf, h]
  rfl

theorem archives_goCold (h : Paired row.resumeState) :
    archives row.goCold.resumeState = archives row.resumeState ∧ Paired row.goCold.resumeState := by
  unfold LeaseRow.goCold LeaseRow.workspaceArchive
  cases hstate : row.resumeState with
  | none => exact ⟨rfl, fun _ => rfl⟩
  | some envelope =>
      rw [hstate] at h
      cases harchive : envelope.workspaceArchive with
      | none => simp [archives, Paired, harchive, h harchive]
      | some archive => simp [archives, Paired, harchive, Envelope.archiveOnly]

theorem updateWhere_envelope {p : LeaseRow → Prop} [DecidablePred p] {f : LeaseRow → LeaseRow} :
    (t.updateWhere p f).1 = t ∨
      ∃ row, t.lease = some row ∧ p row ∧ envelopeOf (t.updateWhere p f).1 = (f row).resumeState := by
  unfold LeaseTables.updateWhere
  cases hlease : t.lease with
  | none => exact .inl rfl
  | some row =>
      dsimp only
      split
      · rename_i hp
        exact .inr ⟨row, rfl, hp, rfl⟩
      · exact .inl rfl

theorem Balanced.goCold {s : SnapshotLedger} {p : LeaseRow → Prop} [DecidablePred p] (h : s.Balanced) :
    Balanced { s with tables := (s.tables.updateWhere p (·.goCold)).1 } := by
  rcases updateWhere_envelope (t := s.tables) (p := p) (f := (·.goCold)) with hmiss | ⟨row, hrow, -, hto⟩
  · rw [hmiss]
    exact h
  · have hpaired := h.paired
    rw [envelopeOf_some hrow] at hpaired
    refine h.same ?_ ?_
    · rw [hto, envelopeOf_some hrow]
      exact (archives_goCold hpaired).1
    · rw [hto]
      exact (archives_goCold hpaired).2

theorem Balanced.rewrite {s : SnapshotLedger} {p : LeaseRow → Prop} [DecidablePred p]
    {f : LeaseRow → LeaseRow} {resumeState : Option Envelope} (h : s.Balanced)
    (hf : ∀ row, (f row).resumeState = resumeState) (hpaired : Paired resumeState)
    (hkeeps : s.tables.lease.any (p ·) → archives resumeState = archives (envelopeOf s.tables)) :
    Balanced { s with tables := (s.tables.updateWhere p f).1 } := by
  rcases updateWhere_envelope (t := s.tables) (p := p) (f := f) with hmiss | ⟨row, hrow, hp, hto⟩
  · rw [hmiss]
    exact h
  · refine h.same ?_ ?_
    · rw [hto, hf]
      exact hkeeps (by simp [hrow, hp])
    · rw [hto, hf]
      exact hpaired

theorem Balanced.fold {s : SnapshotLedger} {archive : Archive} {prev : Option Archive} {atMs : ℕ}
    {holders : List Holder} {gc : List Archive} (h : s.Balanced) (hfresh : archive ∉ s.written)
    (hgc : (gc ++ prev.toList).Perm (archives (envelopeOf s.tables))) :
    Balanced
      { tables := { lease := some (row.foldWorkspaceArchive archive prev atMs), holders }
        written := archive :: s.written, handed := gc ++ s.handed } := by
  refine ⟨?_, List.nodup_cons.2 ⟨hfresh, h.nodup⟩, fun hnone => nomatch hnone⟩
  refine List.perm_iff_count.2 fun x => ?_
  have hcount := h.perm.count_eq x
  have hprior := hgc.count_eq x
  simp only [archives, envelopeOf, LeaseRow.foldWorkspaceArchive, Option.bind_some, Option.toList_some,
    List.count_append, List.count_cons, List.count_nil] at *
  omega

theorem preserve_archives (serializes : Bool) (backend box : String) (source : Option Envelope) :
    let resumeState := preserveWorkspaceArchiveOnInterimResumeState
      (serializeEstablishedSandboxEnvelope serializes backend box) source
    archives resumeState = (source.bind (·.workspaceArchive)).toList ∧ Paired resumeState := by
  unfold preserveWorkspaceArchiveOnInterimResumeState serializeEstablishedSandboxEnvelope
  cases source.bind (·.workspaceArchive) with
  | none | some => cases serializes <;> exact ⟨rfl, fun _ => rfl⟩

theorem committed_archives (serializes : Bool) (backend box : String) (session : Option SessionEnvelope) :
    let resumeState := (serializeEstablishedSandboxEnvelope serializes backend box).or (session.map (·.toEnvelope))
    archives resumeState = [] ∧ Paired resumeState := by
  cases serializes with
  | true => exact ⟨rfl, fun _ => rfl⟩
  | false =>
      cases session with
      | none | some => exact ⟨rfl, fun _ => rfl⟩

theorem persistWarmSnapshot_spec (input : PersistWarmInput) (t : LeaseTables) :
    (∃ result, persistWarmSnapshot input t = (t, result) ∧ result.wrote = false ∧ result.priorArchiveForGc = none) ∨
      ∃ row result, t.lease = some row ∧ (∀ atMs ∈ row.workspaceArchiveAt, atMs < input.capturedAtMs) ∧
        persistWarmSnapshot input t =
          ({ t with lease := some (row.foldWorkspaceArchive input.workspaceArchive row.workspaceArchive
              input.capturedAtMs) }, result) ∧
        result.wrote = true ∧ result.priorArchiveForGc = row.workspaceArchivePrev := by
  unfold persistWarmSnapshot
  cases t.lease with
  | none => exact .inl ⟨_, rfl, rfl, rfl⟩
  | some row =>
      dsimp only
      split_ifs with _ hlate
      · exact .inl ⟨_, rfl, rfl, rfl⟩
      · exact .inl ⟨_, rfl, rfl, rfl⟩
      · refine .inr ⟨row, _, rfl, fun atMs hat => ?_, rfl, rfl, rfl⟩
        rw [hat, Option.any_some, decide_eq_true_eq] at hlate
        omega
      · exact .inl ⟨_, rfl, rfl, rfl⟩

theorem persistDrainSnapshot_spec (now expectedEpoch : ℕ) (workspaceArchive : Option Archive) (t : LeaseTables) :
    (∃ wrote, persistDrainSnapshot now expectedEpoch workspaceArchive t = (t, ⟨wrote, none, none⟩) ∧
        (wrote = true → workspaceArchive = none)) ∨
      ∃ row archive, t.lease = some row ∧ workspaceArchive = some archive ∧
        persistDrainSnapshot now expectedEpoch workspaceArchive t =
          ({ t with lease := some (row.foldWorkspaceArchive archive none (now / 1000)) },
            ⟨true, row.workspaceArchive, row.workspaceArchivePrev⟩) := by
  unfold persistDrainSnapshot
  cases t.lease with
  | none => exact .inl ⟨false, rfl, fun h => nomatch h⟩
  | some row =>
      dsimp only
      split
      · cases workspaceArchive with
        | none => exact .inl ⟨true, rfl, fun _ => rfl⟩
        | some archive => exact .inr ⟨row, archive, rfl, rfl, rfl⟩
      · exact .inl ⟨false, rfl, fun h => nomatch h⟩

theorem Balanced.warm {s s' : SnapshotLedger} {input : PersistWarmInput} (h : s.Balanced)
    (hstep : s.step (.warm input) = some s') : s'.Balanced := by
  unfold step at hstep
  rcases persistWarmSnapshot_spec input s.tables with
    ⟨result, hwarm, hwrote, hgc⟩ | ⟨row, result, hlease, -, hwarm, hwrote, hgc⟩
  · simp only [hwarm, hwrote, hgc] at hstep
    split at hstep <;> cases hstep
    exact h
  · simp only [hwarm, hwrote, hgc] at hstep
    split at hstep <;> cases hstep
    rename_i hfresh
    refine h.fold hfresh ?_
    rw [envelopeOf_some hlease]
    exact List.perm_append_comm

theorem Balanced.drain {s s' : SnapshotLedger} {now expectedEpoch : ℕ} {workspaceArchive : Option Archive}
    (h : s.Balanced) (hstep : s.step (.drain now expectedEpoch workspaceArchive) = some s') :
    s'.Balanced := by
  unfold step at hstep
  rcases persistDrainSnapshot_spec now expectedEpoch workspaceArchive s.tables with
    ⟨wrote, hdrain, hwrote⟩ | ⟨row, archive, hlease, rfl, hdrain⟩
  · simp only [hdrain] at hstep
    split at hstep <;> cases hstep
    cases wrote with
    | false => exact h
    | true =>
        rw [hwrote rfl]
        exact h
  · simp only [hdrain] at hstep
    split at hstep <;> cases hstep
    rename_i hfresh
    refine h.fold (fun hold => hfresh ⟨archive, rfl, hold⟩) ?_
    rw [envelopeOf_some hlease, Option.toList_none, List.append_nil]
    exact .refl _

/-! ## Runs -/

theorem balanced_step (s : SnapshotLedger) (e : SnapshotEvent) (s' : SnapshotLedger) (hstep : steps s e s')
    (h : s.Balanced) (hok : s.careful e = true) : s'.Balanced := by
  unfold steps at hstep
  cases e with
  | warm input => exact h.warm hstep
  | drain now expectedEpoch workspaceArchive => exact h.drain hstep
  | fail expectedEpoch | confirm expectedEpoch =>
      rw [← Option.some.inj hstep]
      exact h.goCold
  | other tables =>
      simp only [step] at hstep
      split at hstep <;> cases hstep
      rename_i hsame
      exact h.same (congrArg archives hsame) (hsame ▸ h.paired)
  | record now input serializes backend source =>
      rw [← Option.some.inj hstep]
      obtain ⟨harchives, hpaired⟩ := preserve_archives serializes backend input.instanceId source
      refine h.rewrite (fun _ => rfl) hpaired fun hwarming => ?_
      simp only [careful, hwarming, Bool.not_true, Bool.false_or, Bool.and_eq_true, beq_iff_eq] at hok
      refine harchives.trans ?_
      rw [archives, hok.1, hok.2, Option.toList_none, List.append_nil]
  | commit now input serializes backend session =>
      rw [← Option.some.inj hstep]
      obtain ⟨harchives, hpaired⟩ := committed_archives serializes backend input.instanceId session
      refine h.rewrite (fun _ => rfl) hpaired fun hwarming => ?_
      simp only [careful, hwarming, Bool.not_true, Bool.false_or, beq_iff_eq] at hok
      refine harchives.trans ?_
      rw [archives, hok, h.paired hok]
      rfl

theorem rises (s : SnapshotLedger) (e : SnapshotEvent) : s.Rises e := by
  rintro input s' rfl hstep atMs hat
  unfold step at hstep
  rcases persistWarmSnapshot_spec input s.tables with
    ⟨result, hwarm, -, -⟩ | ⟨row, result, hlease, hlater, hwarm, -, -⟩
  · simp only [hwarm] at hstep
    split at hstep <;> cases hstep
    exact ⟨atMs, hat, le_rfl⟩
  · simp only [hwarm] at hstep
    split at hstep <;> cases hstep
    rw [envelopeOf_some hlease] at hat
    exact ⟨input.capturedAtMs, rfl, (hlater atMs hat).le⟩

/-- **Archives are retained exactly.** As long as no record of a created box meets a fallback and no
commit meets an archive, what is handed out is off the row, what is off the row was handed out once,
and the time of the archive never falls over warm writes. -/
theorem retained_exactly (tables : LeaseTables) (hstart : envelopeOf tables = none)
    (events : List SnapshotEvent) (hok : EachStep steps (fun s e => s.careful e = true) (start tables) events) :
    EachState steps Exact (start tables) events ∧ EachStep steps Rises (start tables) events := by
  have hbalanced : (start tables).Balanced := by
    refine ⟨?_, List.nodup_nil, ?_⟩
    · rw [start, hstart]
      exact .refl _
    · rw [start, hstart]
      exact fun _ => rfl
  exact ⟨eachState_of_eachStep (fun _ h => h.exact) balanced_step hbalanced hok, fun _ e _ s _ _ _ _ => s.rises e⟩

end SnapshotLedger

/-! ## A re-warm -/

def leaseAt (liveness : SandboxLeaseLiveness) (leaseEpoch : ℕ) (resumeState : Option Envelope) : LeaseTables where
  lease := some
    { liveness, refcount := 0, turnHolders := 0, viewerHolders := 0, instanceId := none
      backend := "modal", image := none, rigVersionId := none, dataPlaneUrl := none
      terminalDataPlaneUrl := none, leaseEpoch, resumeBackendId := none, resumeState
      lastMeterAt := none, lastMeterTick := 0, expiresAt := 0 }
  holders := []

def captured (base64 : String) (h : base64 ≠ "") (capturedAtMs : ℕ) : SnapshotEvent :=
  .warm { expectedEpoch := 1, workspaceArchive := ⟨base64, h⟩, minIntervalMs := 0, capturedAtMs }

/-- Three captures in use, and one at the drain. -/
def drained : List SnapshotEvent :=
  [captured "a" (by decide) 1000, captured "b" (by decide) 2000, captured "c" (by decide) 3000]

theorem retained_exactly_drained :
    EachState SnapshotLedger.steps SnapshotLedger.Exact (.start (leaseAt .warm 1 none)) drained ∧
      EachStep SnapshotLedger.steps SnapshotLedger.Rises (.start (leaseAt .warm 1 none)) drained :=
  SnapshotLedger.retained_exactly _ rfl _ fun _ e _ s _ hes _ _ => by
    have hmem : e ∈ drained := hes ▸ List.mem_append_right _ List.mem_cons_self
    simp only [drained, List.mem_cons, List.not_mem_nil, or_false] at hmem
    rcases hmem with rfl | rfl | rfl <;> rfl

/-- The lease goes cold with an archive, and the commit of the next box drops it. -/
def rewarmed : List SnapshotEvent :=
  [captured "a" (by decide) 1000,
    .other (leaseAt .warming 1
      (some { backendId := none, sandboxId := none, workspaceArchive := some ⟨"a", by decide⟩,
              workspaceArchivePrev := none, workspaceArchiveAt := some 1000 })),
    .commit 2000000
      { expectedEpoch := 1, instanceId := "box", dataPlaneUrl := none, resumeBackendId := none
        resumeState := none, leaseTtlMs := 0 } true "modal" none]

theorem commit_loses_the_archive :
    ¬ EachState SnapshotLedger.steps SnapshotLedger.Exact (.start (leaseAt .warm 1 none)) rewarmed := by
  intro h
  have hplay : ∃ s, play SnapshotLedger.step (.start (leaseAt .warm 1 none)) rewarmed = some s ∧
      s.written = [⟨"a", by decide⟩] ∧ s.handed = [] ∧ archives (envelopeOf s.tables) = [] :=
    ⟨_, rfl, rfl, rfl, rfl⟩
  obtain ⟨s, hs, hwritten, hhanded, harchives⟩ := hplay
  have hexact := h rewarmed [] s (List.append_nil _).symm (run_of_play hs)
  have hlost := hexact.all ⟨"a", by decide⟩ (hwritten ▸ List.mem_cons_self)
  rw [harchives, hhanded] at hlost
  rcases hlost with hlost | hlost <;> cases hlost

end OpenGeni.Sandbox
