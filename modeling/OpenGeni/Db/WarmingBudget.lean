/-
The time a spawner has to bring up its box.

A warming row expires at `warmingLeaseTtlMs` from the win of `cold -> warming`; a sweep after that
takes its spawner for dead. The transactions that touch the row meanwhile stamp the expiry anew,
and each time with the warming horizon, so that they move it later at most. All but one: the
heartbeat finds the row warming as well, and stamps the short horizon of a warm box. Where a
heartbeat comes so late that its horizon reaches beyond the expiry, or never, the whole budget is
kept, and only there (`warming_budget_iff`).
-/
import OpenGeni.Db.WarmMeter

namespace OpenGeni.Db

open OpenGeni.Lib

structure LeaseHorizons where
  leaseTtlMs : ℕ
  warmingLeaseTtlMs : ℕ
  le : leaseTtlMs ≤ warmingLeaseTtlMs

def LeaseWrite.Uses (horizons : LeaseHorizons) : LeaseWrite → Prop
  | .acquireLease input =>
    input.leaseTtlMs = horizons.leaseTtlMs ∧ input.warmingLeaseTtlMs = some horizons.warmingLeaseTtlMs
  | .recordWarmingSandboxCreated input =>
    input.leaseTtlMs = horizons.leaseTtlMs ∧ input.warmingLeaseTtlMs = some horizons.warmingLeaseTtlMs
  | .heartbeatLeaseHolder _ _ leaseTtlMs _ => leaseTtlMs = horizons.leaseTtlMs
  | _ => True

instance (horizons : LeaseHorizons) : DecidablePred (LeaseWrite.Uses horizons) := fun op => by
  cases op <;> unfold LeaseWrite.Uses <;> infer_instance

inductive BudgetEvent
  | write (now : ℕ) (op : LeaseWrite)
  | touchLeaseHolder (now : ℕ) (kind : LeaseHolderKind) (holderId : String)

structure Budget where
  tables : LeaseTables
  clock : ℕ
  /-- The last `cold -> warming`. -/
  casAt : ℕ
  /-- The expiry of a warming row was moved earlier. -/
  cut : Bool
deriving DecidableEq

/-- The caller has won `cold -> warming`. -/
def LeaseWrite.wins (now : ℕ) (t : LeaseTables) : LeaseWrite → Bool
  | .acquireLease input =>
    match (Db.acquireLease now input t).1 with
    | .ok (.spawner, _) => true
    | _ => false
  | _ => false

def LeaseWrite.heartbeatOn (t : LeaseTables) : LeaseWrite → Option LeaseRow
  | .heartbeatLeaseHolder kind holderId _ expectedEpoch =>
    if t.holders.any (Holder.is kind holderId) then
      t.lease.filter fun row => row.Warming expectedEpoch
    else none
  | _ => none

def movedEarlier (t t' : LeaseTables) : Bool := match t.lease, t'.lease with
  | some row, some row' =>
    row.liveness = .warming ∧ row'.liveness = .warming ∧ row'.expiresAt < row.expiresAt
  | _, _ => false

namespace Budget

def start : Budget := { tables := { lease := none, holders := [] }, clock := 0, casAt := 0, cut := false }

/-- One transaction after the other, each no earlier than the last. -/
def step (horizons : LeaseHorizons) (s : Budget) : BudgetEvent → Option Budget
  | .write now op =>
    if s.clock ≤ now ∧ op.Uses horizons then
      let tables := op.run now s.tables
      some
        { tables, clock := now, casAt := if op.wins now s.tables then now else s.casAt
          cut := s.cut || movedEarlier s.tables tables }
    else none
  | .touchLeaseHolder now kind holderId =>
    if s.clock ≤ now then
      let tables := (Db.touchLeaseHolder now kind holderId s.tables).1
      some { s with tables, clock := now, cut := s.cut || movedEarlier s.tables tables }
    else none

/-- No expiry was moved earlier, and a sweep that takes the spawner for dead comes after the whole
budget. -/
structure Kept (horizons : LeaseHorizons) (s : Budget) : Prop where
  not_cut : s.cut = false
  reaped_late : ∀ (now : ℕ) (input : ReapInput) (row : LeaseRow), s.tables.lease = some row →
    row.liveness = .warming →
    (∀ row', (reapStaleLeaseHolders now input s.tables).1.lease = some row' → row'.liveness ≠ .warming) →
    afterMs s.casAt horizons.warmingLeaseTtlMs < now

/-- A heartbeat on a warming row does not fall short of the expiry it finds. -/
def ReachesOn (horizons : LeaseHorizons) (s : Budget) : BudgetEvent → Prop
  | .write now op => ∀ row, op.heartbeatOn s.tables = some row →
      row.expiresAt ≤ afterMs now horizons.leaseTtlMs
  | .touchLeaseHolder _ _ _ => True

structure Within (horizons : LeaseHorizons) (s : Budget) : Prop where
  not_cut : s.cut = false
  budget : ∀ row, s.tables.lease = some row → row.liveness = .warming →
    afterMs s.casAt horizons.warmingLeaseTtlMs ≤ row.expiresAt ∧
      row.expiresAt ≤ afterMs s.clock horizons.warmingLeaseTtlMs

end Budget

/-! ## What a transaction does to a warming row -/

section

variable {now epoch ttl : ℕ} {row row' : LeaseRow} {t t' : LeaseTables} {horizons : LeaseHorizons}
variable {op : LeaseWrite}

def LeaseWrite.Leaves (horizons : LeaseHorizons) (now : ℕ) (t : LeaseTables) (op : LeaseWrite)
    (row' : LeaseRow) : Prop :=
  (op.wins now t = true ∧ row'.expiresAt = afterMs now horizons.warmingLeaseTtlMs) ∨
    (op.wins now t = false ∧ ∃ row, t.lease = some row ∧ row.liveness = .warming ∧
      (row'.expiresAt = row.expiresAt ∨ row'.expiresAt = afterMs now horizons.warmingLeaseTtlMs ∨
        (op.heartbeatOn t = some row ∧ row'.expiresAt = afterMs now horizons.leaseTtlMs)))

theorem acquireLease_leaves {input : AcquireLeaseInput} (huse : (LeaseWrite.acquireLease input).Uses horizons)
    (h : ((LeaseWrite.acquireLease input).run now t).lease = some row') (hw : row'.liveness = .warming) :
    (LeaseWrite.acquireLease input).Leaves horizons now t row' := by
  obtain ⟨-, hhorizon⟩ := huse
  unfold LeaseWrite.Leaves
  cases hres : acquireLease now input t with
  | mk result t' =>
  simp only [LeaseWrite.wins, LeaseWrite.run, hres] at h ⊢
  unfold acquireLease at hres
  cases hs : settleConflict input t.holders (t.lease.getD (freshLease now input)) with
  | error e =>
    rw [hs] at hres
    cases hres
    exact .inr ⟨rfl, row', h, hw, .inl rfl⟩
  | ok row =>
    rw [hs] at hres
    have hrow := settleConflict_ok hs
    unfold acquireBranch at hres
    cases hl : row.liveness with
    | cold =>
      simp only [hl] at hres
      cases hres
      cases h
      exact .inl ⟨rfl, by simp [recomputeAndStampLease, hhorizon]⟩
    | warming =>
      simp only [hl] at hres
      cases hres
      cases h
      refine .inr ⟨rfl, row, ?_, hl, .inr (.inl (by simp [recomputeAndStampLease, hhorizon]))⟩
      -- a recreated row is cold, and so is a fresh one
      obtain rfl | ⟨-, rfl⟩ := hrow
      · cases hlease : t.lease with
        | none => rw [hlease] at hl; cases hl
        | some row₀ => rfl
      · cases hl
    | draining =>
      simp only [hl] at hres
      cases hres
      cases h
      cases hw
    | warm =>
      simp only [hl] at hres
      by_cases hf : input.kind = .turn ∧ input.expectedEpoch.any (· ≠ row.leaseEpoch)
      · rw [if_pos hf] at hres
        cases hres
        cases h
        cases hl.symm.trans hw
      · rw [if_neg hf] at hres
        cases hres
        cases h
        cases hl.symm.trans hw

theorem LeaseWrite.Leaves.same (hwins : op.wins now t = false) (h : t.lease = some row')
    (hw : row'.liveness = .warming) : op.Leaves horizons now t row' :=
  .inr ⟨hwins, row', h, hw, .inl rfl⟩

theorem updateWhere_leaves {p : LeaseRow → Prop} [DecidablePred p] {f : LeaseRow → LeaseRow}
    (hf : ∀ row, p row → (f row).liveness ≠ .warming) (hwins : op.wins now t = false)
    (h : (t.updateWhere p f).1.lease = some row') (hw : row'.liveness = .warming) :
    op.Leaves horizons now t row' := by
  cases hres : t.updateWhere p f with
  | mk t' found =>
    rw [hres] at h
    obtain ⟨-, row, -, hp, rfl⟩ | ⟨-, rfl, -⟩ := updateWhere_cases hres
    · cases h
      exact absurd hw (hf row hp)
    · exact .same hwins h hw

theorem quiet_warming (h : row.Quiet row') (hw : row'.liveness = .warming) : row.liveness = .warming := by
  obtain ⟨-, he | ⟨-, he⟩ | ⟨-, he⟩⟩ := h
  · rw [← he, hw]
  · rw [he] at hw
    cases hw
  · rw [he] at hw
    cases hw

theorem settle_expiresAt {ms : ℕ} {holders : List Holder} (hw : (row.settle now ms holders).liveness = .warming) :
    (row.settle now ms holders).expiresAt = row.expiresAt := by
  unfold LeaseRow.settle at hw ⊢
  split
  case isTrue h =>
    rw [if_pos h] at hw
    cases hw
  case isFalse => rfl

theorem heartbeat_leaves {kind : LeaseHolderKind} {holderId : String} (huse : ttl = horizons.leaseTtlMs)
    (h : (heartbeatLeaseHolder now kind holderId ttl epoch t).1.lease = some row')
    (hw : row'.liveness = .warming) :
    (LeaseWrite.heartbeatLeaseHolder kind holderId ttl epoch).Leaves horizons now t row' := by
  unfold heartbeatLeaseHolder at h
  cases hfound : touchLeaseHolder now kind holderId t with
  | mk t₁ found =>
  have hlease : t₁.lease = t.lease := by rw [← touchLeaseHolder_lease (t := t), hfound]
  have hheld : t.holders.any (Holder.is kind holderId) = found := congrArg Prod.snd hfound
  rw [hfound] at h
  cases found with
  | false => exact .same rfl (hlease ▸ h) hw
  | true =>
    dsimp only at h
    cases hupd : t₁.updateWhere
      (fun row => row.leaseEpoch = epoch ∧ (row.liveness = .warm ∨ row.liveness = .warming))
      (fun row => { row with expiresAt := afterMs now ttl }) with
    | mk t₂ found =>
      rw [hupd] at h
      obtain ⟨-, row, hrow, ⟨hepoch, -⟩, rfl⟩ | ⟨-, rfl, -⟩ := updateWhere_cases hupd
      · cases h
        rw [hlease] at hrow
        have hon : (LeaseWrite.heartbeatLeaseHolder kind holderId ttl epoch).heartbeatOn t = some row := by
          simp only [LeaseWrite.heartbeatOn, hheld, if_true, hrow]
          exact Option.filter_eq_some_iff.mpr ⟨rfl, by simpa using ⟨hw, hepoch⟩⟩
        exact .inr ⟨rfl, row, hrow, hw, .inr (.inr ⟨hon, by simp [huse]⟩)⟩
      · exact .same rfl (hlease ▸ h) hw

theorem warmingReset_warming (hw : (row.warmingReset now).liveness = .warming) : row.warmingReset now = row := by
  unfold LeaseRow.warmingReset at hw ⊢
  split
  case isTrue h =>
    rw [if_pos h] at hw
    cases hw
  case isFalse => rfl

theorem warmingDrain_warming (hw : (row.warmingDrain now).liveness = .warming) : row.warmingDrain now = row := by
  unfold LeaseRow.warmingDrain at hw ⊢
  split
  case isTrue h =>
    rw [if_pos h] at hw
    cases hw
  case isFalse => rfl

theorem reap_leaves {input : ReapInput} (h : (reapStaleLeaseHolders now input t).1.lease = some row')
    (hw : row'.liveness = .warming) :
    (LeaseWrite.reapStaleLeaseHolders input).Leaves horizons now t row' := by
  unfold reapStaleLeaseHolders at h
  cases hlease : t.lease with
  | none => simp [hlease] at h
  | some row =>
    rw [hlease] at h
    cases h
    have hdrain := warmingDrain_warming hw
    rw [hdrain] at hw ⊢
    have hreset := warmingReset_warming hw
    rw [hreset] at hw ⊢
    exact .inr ⟨rfl, row, hlease, quiet_warming settle_quiet hw, .inl (settle_expiresAt hw)⟩

theorem forceDrain_leaves {total : ℕ} {input : ForceDrainInput}
    (h : (forceDrainOverLimitViewerOnlyBoxes now total input t).1.lease = some row')
    (hw : row'.liveness = .warming) :
    (LeaseWrite.forceDrainOverLimitViewerOnlyBoxes total input).Leaves horizons now t row' := by
  have hdrop : (dropViewers t).lease = t.lease := by
    unfold dropViewers
    split
    · rfl
    · split <;> simp_all
  unfold forceDrainOverLimitViewerOnlyBoxes at h
  split at h
  case isFalse => exact .same rfl h hw
  case isTrue =>
    cases hres : drainViewerOnly now input.idleGraceMs (dropViewers t) with
    | mk t' found =>
      rw [hres] at h
      obtain ⟨-, row, -, -, rfl⟩ | ⟨-, rfl, -⟩ := updateWhere_cases hres
      · cases h
        cases hw
      · exact .same rfl (hdrop ▸ h) hw

theorem LeaseWrite.leaves (huse : op.Uses horizons) (h : (op.run now t).lease = some row')
    (hw : row'.liveness = .warming) : op.Leaves horizons now t row' := by
  cases op with
  | acquireLease input => exact acquireLease_leaves huse h hw
  | recordWarmingSandboxCreated input =>
    cases hres : Db.recordWarmingSandboxCreated now input t with
    | mk t' found =>
      simp only [LeaseWrite.run, hres] at h
      obtain ⟨-, row, hrow, hwarming, rfl⟩ | ⟨-, rfl, -⟩ := updateWhere_cases hres
      · cases h
        exact .inr ⟨rfl, row, hrow, hwarming.1, .inr (.inl (by simp [huse.2]))⟩
      · exact .same rfl h hw
  | commitWarmingToWarm | reArmDrainingLease => exact updateWhere_leaves (fun _ _ => by simp) rfl h hw
  | failWarmingToCold | confirmDrainCold =>
    exact updateWhere_leaves (fun _ _ => by simp [LeaseRow.goCold]) rfl h hw
  | releaseLeaseHolder input =>
    simp only [LeaseWrite.run] at h
    unfold Db.releaseLeaseHolder at h
    cases hlease : t.lease with
    | none => simp [hlease] at h
    | some row =>
      rw [hlease] at h
      cases h
      exact .inr ⟨rfl, row, hlease, quiet_warming settle_quiet hw, .inl (settle_expiresAt hw)⟩
  | heartbeatLeaseHolder kind holderId leaseTtlMs expectedEpoch => exact heartbeat_leaves huse h hw
  | reapStaleLeaseHolders input => exact reap_leaves h hw
  | forceDrainOverLimitViewerOnlyBoxes total input => exact forceDrain_leaves h hw
  | persistDrainSnapshot expectedEpoch workspaceArchive =>
    cases hres : Db.persistDrainSnapshot now expectedEpoch workspaceArchive t with
    | mk t' result =>
      simp only [LeaseWrite.run, hres] at h
      obtain ⟨-, rfl⟩ | ⟨-, row, hrow, hidle, rfl⟩ := persistDrainSnapshot_cases hres
      · exact .same rfl h hw
      · cases h
        cases workspaceArchive <;> cases hidle.1.symm.trans hw
  | persistWarmSnapshot input =>
    cases hres : Db.persistWarmSnapshot input t with
    | mk t' result =>
      simp only [LeaseWrite.run, hres] at h
      obtain ⟨-, rfl⟩ | ⟨-, row, hrow, hwarm, -, rfl⟩ := persistWarmSnapshot_cases hres
      · exact .same rfl h hw
      · cases h
        cases hwarm.symm.trans hw

theorem heartbeatOn_run (now : ℕ) (huse : op.Uses horizons) (h : op.heartbeatOn t = some row) :
    t.lease = some row ∧ row.liveness = .warming ∧
      (op.run now t).lease = some { row with expiresAt := afterMs now horizons.leaseTtlMs } := by
  cases op with
  | heartbeatLeaseHolder kind holderId leaseTtlMs expectedEpoch =>
    simp only [LeaseWrite.heartbeatOn] at h
    split at h
    case isFalse => cases h
    case isTrue hheld =>
      obtain ⟨hlease, hwarming⟩ := Option.filter_eq_some_iff.mp h
      obtain ⟨hw, hepoch⟩ : row.Warming expectedEpoch := by simpa using hwarming
      refine ⟨hlease, hw, ?_⟩
      simp only [LeaseWrite.run, Db.heartbeatLeaseHolder, Db.touchLeaseHolder, hheld]
      simp only [LeaseTables.updateWhere, hlease]
      rw [if_pos ⟨hepoch, .inr hw⟩, show leaseTtlMs = horizons.leaseTtlMs from huse]
  | _ => cases h

theorem movedEarlier_iff : movedEarlier t t' = true ↔
    ∃ row row', t.lease = some row ∧ t'.lease = some row' ∧ row.liveness = .warming ∧
      row'.liveness = .warming ∧ row'.expiresAt < row.expiresAt := by
  unfold movedEarlier
  cases t.lease <;> cases t'.lease <;> simp

/-! ## The budget -/

namespace Budget

variable {s s' : Budget} {e : BudgetEvent}

theorem Within.kept (h : s.Within horizons) : s.Kept horizons := by
  refine ⟨h.not_cut, fun now input row hrow hw hgone => ?_⟩
  obtain ⟨row', hrow', hcases, -⟩ := reapStaleLeaseHolders_lease hrow
    (show reapStaleLeaseHolders now input s.tables = (_, _) from rfl)
  have hexpired : row.expiresAt < now := by
    obtain hquiet | ⟨-, hexpired, -⟩ | ⟨-, hexpired, -⟩ := hcases
    · exfalso
      obtain ⟨-, he | ⟨he, -⟩ | ⟨he, -⟩⟩ := hquiet
      · exact hgone row' hrow' (he.trans hw)
      · cases hw.symm.trans he
      · cases hw.symm.trans he
    · exact hexpired
    · exact hexpired
  exact lt_of_le_of_lt (h.budget row hrow hw).1 hexpired

theorem afterMs_mono {now now' ms ms' : ℕ} (hnow : now ≤ now') (hms : ms ≤ ms') :
    afterMs now ms ≤ afterMs now' ms' := by
  unfold afterMs
  omega

theorem Within.write {now : ℕ} (h : s.Within horizons) (hclock : s.clock ≤ now) (huse : op.Uses horizons)
    (hreach : s.ReachesOn horizons (.write now op)) :
    Within horizons
      { tables := op.run now s.tables, clock := now, casAt := if op.wins now s.tables then now else s.casAt
        cut := s.cut || movedEarlier s.tables (op.run now s.tables) } := by
  have hhorizon := horizons.le
  constructor
  · rw [Bool.or_eq_false_iff]
    refine ⟨h.not_cut, Bool.eq_false_iff.mpr fun hmoved => ?_⟩
    obtain ⟨row, row', hrow, hrow', hw, hw', hlt⟩ := movedEarlier_iff.mp hmoved
    obtain ⟨-, hlate⟩ := h.budget row hrow hw
    have hclock' := afterMs_mono hclock (le_refl horizons.warmingLeaseTtlMs)
    obtain ⟨-, he⟩ | ⟨-, row₀, hrow₀, -, hcases⟩ := op.leaves huse hrow' hw'
    · omega
    · cases hrow.symm.trans hrow₀
      obtain he | he | ⟨hon, he⟩ := hcases
      · omega
      · omega
      · have := hreach row hon
        omega
  · intro row' hrow' hw'
    obtain ⟨hwins, he⟩ | ⟨hwins, row, hrow, hw, hcases⟩ := op.leaves huse hrow' hw'
    · rw [if_pos hwins, he]
      exact ⟨le_refl _, le_refl _⟩
    · rw [hwins]
      obtain ⟨hearly, hlate⟩ := h.budget row hrow hw
      have hclock' := afterMs_mono hclock (le_refl horizons.warmingLeaseTtlMs)
      have hshort := afterMs_mono (le_refl now) hhorizon
      simp only [Bool.false_eq_true, if_false]
      obtain he | he | ⟨hon, he⟩ := hcases
      · omega
      · omega
      · have := hreach row hon
        omega

theorem Within.step (h : s.Within horizons) (hstep : s.step horizons e = some s')
    (hreach : s.ReachesOn horizons e) : s'.Within horizons := by
  cases e with
  | write now op =>
    simp only [Budget.step] at hstep
    split at hstep
    case isFalse => cases hstep
    case isTrue hok =>
      cases hstep
      exact h.write hok.1 hok.2 hreach
  | touchLeaseHolder now kind holderId =>
    simp only [Budget.step] at hstep
    split at hstep
    case isFalse => cases hstep
    case isTrue hclock =>
      cases hstep
      refine ⟨?_, fun row hrow hw => ?_⟩
      · rw [Bool.or_eq_false_iff]
        refine ⟨h.not_cut, Bool.eq_false_iff.mpr fun hmoved => ?_⟩
        obtain ⟨row, row', hrow, hrow', -, -, hlt⟩ := movedEarlier_iff.mp hmoved
        cases hrow.symm.trans hrow'
        omega
      · obtain ⟨hearly, hlate⟩ := h.budget row hrow hw
        exact ⟨hearly, hlate.trans (afterMs_mono hclock (le_refl _))⟩

theorem reachesOn_of_kept (hstep : s.step horizons e = some s') (hkept : s'.Kept horizons) :
    s.ReachesOn horizons e := by
  cases e with
  | touchLeaseHolder now kind holderId => trivial
  | write now op =>
    simp only [Budget.step] at hstep
    split at hstep
    case isFalse => cases hstep
    case isTrue hok =>
      cases hstep
      intro row hon
      obtain ⟨hrow, hw, hrun⟩ := heartbeatOn_run now hok.2 hon
      by_contra hshort
      have hmoved : movedEarlier s.tables (op.run now s.tables) = true :=
        movedEarlier_iff.mpr ⟨row, _, hrow, hrun, hw, hw, Nat.not_le.mp hshort⟩
      have := hkept.not_cut
      simp [hmoved] at this

end Budget

/-- The warming budget is kept throughout exactly if no heartbeat on a warming row stamps an expiry
before the one it finds. -/
theorem warming_budget_iff (horizons : LeaseHorizons) (es : List BudgetEvent) :
    EachState (fun s e t => Budget.step horizons s e = some t) (Budget.Kept horizons) .start es ↔
      EachStep (fun s e t => Budget.step horizons s e = some t) (Budget.ReachesOn horizons) .start es := by
  refine eachState_iff_eachStep (P := Budget.Within horizons) (fun _ => Budget.Within.kept)
    (fun _ _ _ hstep h => h.step hstep) (fun _ _ _ hstep _ => Budget.reachesOn_of_kept hstep) ?_
  exact ⟨rfl, fun row hrow => by cases hrow⟩

end

/-! ## A viewer's heartbeat -/

def exampleHorizons : LeaseHorizons := ⟨90000, 900000, by decide⟩

def viewerAcquires : AcquireLeaseInput :=
  { kind := .viewer, holderId := "v", backend := "modal", image := none, rigVersionId := none
    leaseTtlMs := 90000, warmingLeaseTtlMs := some 900000, expectedEpoch := none }

/-- A viewer wins the row and sends its heartbeat a second later; a sweep after two minutes takes
the spawner for dead. -/
def viewerHeartbeat : List BudgetEvent := [.write 0 (.acquireLease viewerAcquires),
    .write 1000000 (.heartbeatLeaseHolder .viewer "v" 90000 0)]

theorem heartbeat_cuts_budget :
    ∃ s, Run (fun s e t => Budget.step exampleHorizons s e = some t) .start viewerHeartbeat s ∧
      s.cut = true ∧ s.casAt = 0 ∧ afterMs 0 900000 = 900000000 ∧
      (reapStaleLeaseHolders 120000000 ⟨600000, 0, 60000⟩ s.tables).1.lease.any (·.liveness == .cold) := by
  let s := (play (Budget.step exampleHorizons) .start viewerHeartbeat).getD .start
  refine ⟨s, run_of_play ?_, ?_⟩
  · decide +kernel
  · decide +kernel

end OpenGeni.Db
