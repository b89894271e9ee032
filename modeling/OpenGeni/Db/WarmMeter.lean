/-
The seconds for which a box was warm.

A tick records the whole seconds since the cursor of the lease and sets the cursor to its own
time. The cursor stays when the box goes cold, and what is floored away is not carried over:
the first tick of the next box counts the time in which there was none, and every tick loses
a fraction. Where a tick that records finds a cursor since which there was a box all the
time, nothing is counted too much; and where the fractions lost in a warm period stay below
a second, no second is missing (`warm_seconds_metered`).
-/
import OpenGeni.Db.LeaseSpec
import OpenGeni.Lib.Run

namespace OpenGeni.Db

open OpenGeni.Lib

/-! ## The meter -/

inductive UsageEventType
  | warmSeconds | warmCost
deriving DecidableEq

/-- A row of `usage_events`. Its idempotency key is made of the type, the epoch and the tick. -/
structure UsageEvent where
  eventType : UsageEventType
  quantity : ℕ
  leaseEpoch : ℕ
  tick : ℕ
  occurredAt : ℕ

def UsageEvent.sameKey (e u : UsageEvent) : Bool :=
  u.eventType == e.eventType && u.leaseEpoch == e.leaseEpoch && u.tick == e.tick

/-- `on conflict (idempotency_key) do nothing`. -/
def insertUsageEvent (e : UsageEvent) (usage : List UsageEvent) : List UsageEvent :=
  if usage.any e.sameKey then usage else e :: usage

structure AccrueWarmSecondsResult where
  accrued : Bool
  seconds : ℕ
  tick : ℕ
  costMicros : ℕ

/-- `Math.round(elapsedS * Math.max(0, rate))`. -/
def costMicros (elapsedS : ℕ) (warmRateMicrosPerSecond : ℚ) : ℕ :=
  ⌊(elapsedS : ℚ) * max 0 warmRateMicrosPerSecond + 1 / 2⌋.toNat

/-- The rows of a tick: its seconds and, where a rate is set, their cost. -/
def recordWarmTick (now leaseEpoch tick elapsedS cost : ℕ) (usage : List UsageEvent) : List UsageEvent :=
  let usage := insertUsageEvent
    { eventType := .warmSeconds, quantity := elapsedS, leaseEpoch, tick, occurredAt := now } usage
  if 0 < cost then
    insertUsageEvent
      { eventType := .warmCost, quantity := cost, leaseEpoch, tick, occurredAt := now } usage
  else
    usage

def accrueWarmSeconds (now expectedEpoch : ℕ) (warmRateMicrosPerSecond : ℚ) (t : LeaseTables)
    (usage : List UsageEvent) : LeaseTables × List UsageEvent × AccrueWarmSecondsResult :=
  let none : AccrueWarmSecondsResult := { accrued := false, seconds := 0, tick := 0, costMicros := 0 }
  match t.lease with
  | .none => (t, usage, none)
  | .some row =>
    if row.leaseEpoch ≠ expectedEpoch ∨ row.liveness ≠ .warm then (t, usage, none)
    else
      match row.lastMeterAt with
      | .none => ({ t with lease := some { row with lastMeterAt := some now } }, usage, none)
      | .some lastMeterAt =>
        let elapsedS := (now - lastMeterAt) / 1000000
        if elapsedS = 0 then (t, usage, none)
        else
          let tick := row.lastMeterTick + 1
          let cost := costMicros elapsedS warmRateMicrosPerSecond
          ({ t with
              lease := some { row with
                  lastMeterAt := some now
                  lastMeterTick := tick } },
            recordWarmTick now expectedEpoch tick elapsedS cost usage,
            { accrued := true, seconds := elapsedS, tick, costMicros := cost })

/-- The seconds recorded after `t₁` and up to `t₂`. -/
def warmSeconds (t₁ t₂ : ℕ) (usage : List UsageEvent) : ℕ :=
  ((usage.filter fun u => u.eventType = .warmSeconds ∧ t₁ < u.occurredAt ∧ u.occurredAt ≤ t₂).map (·.quantity)).sum

/-! ## A lease over its life -/

inductive LeaseWrite
  | acquireLease (input : AcquireLeaseInput)
  | recordWarmingSandboxCreated (input : RecordInput)
  | commitWarmingToWarm (input : CommitInput)
  | failWarmingToCold (expectedEpoch : ℕ)
  | releaseLeaseHolder (input : ReleaseInput)
  | heartbeatLeaseHolder (kind : LeaseHolderKind) (holderId : String) (leaseTtlMs expectedEpoch : ℕ)
  | reapStaleLeaseHolders (input : ReapInput)
  | reArmDrainingLease (leaseTtlMs : ℕ)
  | forceDrainOverLimitViewerOnlyBoxes (total : ℕ) (input : ForceDrainInput)
  | confirmDrainCold (expectedEpoch : ℕ)
  | persistDrainSnapshot (expectedEpoch : ℕ) (workspaceArchive : Option Archive)
  | persistWarmSnapshot (input : PersistWarmInput)

def LeaseWrite.run (now : ℕ) (t : LeaseTables) : LeaseWrite → LeaseTables
  | .acquireLease input => (Db.acquireLease now input t).2
  | .recordWarmingSandboxCreated input => (Db.recordWarmingSandboxCreated now input t).1
  | .commitWarmingToWarm input => (Db.commitWarmingToWarm now input t).1
  | .failWarmingToCold expectedEpoch => (Db.failWarmingToCold expectedEpoch t).1
  | .releaseLeaseHolder input => Db.releaseLeaseHolder now input t
  | .heartbeatLeaseHolder kind holderId leaseTtlMs expectedEpoch =>
    (Db.heartbeatLeaseHolder now kind holderId leaseTtlMs expectedEpoch t).1
  | .reapStaleLeaseHolders input => (Db.reapStaleLeaseHolders now input t).1
  | .reArmDrainingLease leaseTtlMs => (Db.reArmDrainingLease now leaseTtlMs t).1
  | .forceDrainOverLimitViewerOnlyBoxes total input =>
    (Db.forceDrainOverLimitViewerOnlyBoxes now total input t).1
  | .confirmDrainCold expectedEpoch => (Db.confirmDrainCold expectedEpoch t).1
  | .persistDrainSnapshot expectedEpoch workspaceArchive =>
    (Db.persistDrainSnapshot now expectedEpoch workspaceArchive t).1
  | .persistWarmSnapshot input => (Db.persistWarmSnapshot input t).1

inductive MeterEvent
  | write (now : ℕ) (op : LeaseWrite)
  | tick (now expectedEpoch : ℕ) (warmRateMicrosPerSecond : ℚ)

def LeaseRow.HasBox (row : LeaseRow) : Prop := row.liveness = .warm ∨ row.liveness = .draining

instance : DecidablePred LeaseRow.HasBox := fun _ => inferInstanceAs (Decidable (_ ∨ _))

structure Meter where
  tables : LeaseTables
  usage : List UsageEvent
  clock : ℕ
  boxTime : ℕ
  /-- There has been a box since the cursor was taken. -/
  seamless : Bool
  /-- What has been floored away since a tick first took the cursor in this warm period. -/
  dropped : Option ℕ

namespace Meter

def start : Meter :=
  { tables := { lease := none, holders := [] }, usage := [], clock := 0, boxTime := 0, seamless := false
    dropped := none }

def HasBox (s : Meter) : Prop := ∃ row ∈ s.tables.lease, row.HasBox

def Warm (s : Meter) : Prop := ∃ row ∈ s.tables.lease, row.liveness = .warm

instance (s : Meter) : Decidable s.HasBox := inferInstanceAs (Decidable (∃ row ∈ s.tables.lease, row.HasBox))

instance (s : Meter) : Decidable s.Warm :=
  inferInstanceAs (Decidable (∃ row ∈ s.tables.lease, row.liveness = .warm))

def Observes (s : Meter) (expectedEpoch : ℕ) : Prop :=
  ∃ row ∈ s.tables.lease, row.leaseEpoch = expectedEpoch ∧ row.liveness = .warm

def Takes (s : Meter) (now expectedEpoch : ℕ) : Prop :=
  ∃ row ∈ s.tables.lease, (row.leaseEpoch = expectedEpoch ∧ row.liveness = .warm) ∧
    ∀ lastMeterAt ∈ row.lastMeterAt, (now - lastMeterAt) / 1000000 ≠ 0

instance (s : Meter) (expectedEpoch : ℕ) : Decidable (s.Observes expectedEpoch) :=
  inferInstanceAs (Decidable (∃ row ∈ s.tables.lease, row.leaseEpoch = expectedEpoch ∧ row.liveness = .warm))

instance (s : Meter) (now expectedEpoch : ℕ) : Decidable (s.Takes now expectedEpoch) :=
  inferInstanceAs (Decidable (∃ row ∈ s.tables.lease, _ ∧
    ∀ lastMeterAt ∈ row.lastMeterAt, (now - lastMeterAt) / 1000000 ≠ 0))

def pending (s : Meter) (now : ℕ) : ℕ := ((s.tables.lease.bind (·.lastMeterAt)).map (now - ·)).getD 0

def advance (now : ℕ) (s : Meter) : Meter := { s with
    clock := now
    boxTime := s.boxTime + if s.HasBox then now - s.clock else 0 }

def write (now : ℕ) (op : LeaseWrite) (s : Meter) : Meter :=
  let s := { s.advance now with tables := op.run now s.tables }
  { s with
    seamless := s.seamless && s.HasBox
    dropped := if s.Warm then s.dropped else none }

def tick (now expectedEpoch : ℕ) (warmRateMicrosPerSecond : ℚ) (s : Meter) : Meter :=
  let (tables, usage, _) := accrueWarmSeconds now expectedEpoch warmRateMicrosPerSecond s.tables s.usage
  if s.Takes now expectedEpoch then
    { s.advance now with
      tables
      usage
      seamless := true
      dropped := some (s.dropped.elim 0 (· + s.pending now % 1000000)) }
  else
    { s.advance now with tables, usage }

def step (s : Meter) : MeterEvent → Option Meter
  | .write now op => if s.clock ≤ now then some (s.write now op) else none
  | .tick now expectedEpoch rate => if s.clock ≤ now then some (s.tick now expectedEpoch rate) else none

/-! ## The statement -/

/-- A tick that accrues finds a cursor since which there was a box, and with its fraction less than a
second has been floored away in the warm period. -/
def OnTime (s : Meter) : MeterEvent → Prop
  | .write .. => True
  | .tick now expectedEpoch _ =>
    s.Observes expectedEpoch → (0 < s.pending now / 1000000 → s.seamless = true) ∧
        ∀ d ∈ s.dropped, d + s.pending now % 1000000 < 1000000

instance (s : Meter) (e : MeterEvent) : Decidable (s.OnTime e) :=
  match e with
  | .write .. => .isTrue trivial
  | .tick now expectedEpoch _ =>
    inferInstanceAs (Decidable (s.Observes expectedEpoch → (0 < s.pending now / 1000000 → s.seamless = true) ∧
        ∀ d ∈ s.dropped, d + s.pending now % 1000000 < 1000000))

def Metered : Meter → MeterEvent → Meter → Prop := Restrict (fun s e t => s.step e = some t) OnTime

def WarmMetered (s : Meter) (e : MeterEvent) (t : Meter) : Prop := Metered s e t ∧ t.Warm

end Meter

/-! ## What a write does to the cursor -/

def LeaseRow.SameMeter (row row' : LeaseRow) : Prop :=
  row'.lastMeterAt = row.lastMeterAt ∧ row'.lastMeterTick = row.lastMeterTick

/-- A row keeps the meter's columns, and a new one has never been metered. -/
def LeaseTables.KeepsMeter (t t' : LeaseTables) : Prop :=
  (∀ row, t.lease = some row → ∃ row', t'.lease = some row' ∧ row.SameMeter row') ∧
    ∀ row', t.lease = none → t'.lease = some row' → row'.lastMeterAt = none

section

variable {now ms epoch : ℕ} {row row' : LeaseRow} {t t' : LeaseTables} {holders : List Holder}

theorem keepsMeter_of_some (hl : t.lease = some row) (hl' : t'.lease = some row') (h : row.SameMeter row') :
    t.KeepsMeter t' := by
  refine ⟨?_, ?_⟩
  · intro r hr
    cases hl.symm.trans hr
    exact ⟨row', hl', h⟩
  · intro r hnone
    rw [hl] at hnone
    cases hnone

theorem keepsMeter_of_eq (h : t'.lease = t.lease) : t.KeepsMeter t' := by
  refine ⟨?_, ?_⟩
  · intro r hr
    exact ⟨r, h.trans hr, rfl, rfl⟩
  · intro r hnone hr
    rw [h, hnone] at hr
    cases hr

theorem updateWhere_keepsMeter {p : LeaseRow → Prop} [DecidablePred p] {f : LeaseRow → LeaseRow}
    (hf : ∀ row : LeaseRow, row.SameMeter (f row)) : t.KeepsMeter (t.updateWhere p f).1 := by
  obtain ⟨-, row, hl, -, he⟩ | ⟨-, he, -⟩ := updateWhere_cases (Prod.mk.eta (p := t.updateWhere p f)).symm
  · rw [he]
    exact keepsMeter_of_some hl rfl (hf row)
  · rw [he]
    exact keepsMeter_of_eq rfl

theorem settle_sameMeter : row.SameMeter (row.settle now ms holders) := by
  unfold LeaseRow.settle
  split <;> exact ⟨rfl, rfl⟩

theorem warmingReset_sameMeter : row.SameMeter (row.warmingReset now) := by
  unfold LeaseRow.warmingReset
  split <;> exact ⟨rfl, rfl⟩

theorem warmingDrain_sameMeter : row.SameMeter (row.warmingDrain now) := by
  unfold LeaseRow.warmingDrain
  split <;> exact ⟨rfl, rfl⟩

theorem LeaseRow.SameMeter.trans {row'' : LeaseRow} (h : row.SameMeter row') (h' : row'.SameMeter row'') :
    row.SameMeter row'' :=
  ⟨h'.1.trans h.1, h'.2.trans h.2⟩

variable {input : AcquireLeaseInput}

theorem acquireBranch_sameMeter {role : AcquireLeaseRole} {ttl : ℕ}
    {setLiveness : Option SandboxLeaseLiveness}
    (h : acquireBranch input row = (role, row', ttl, setLiveness)) : row.SameMeter row' := by
  unfold acquireBranch at h
  cases hl : row.liveness with
  | cold | warming | draining =>
    simp only [hl, Prod.mk.injEq] at h
    obtain ⟨-, rfl, -⟩ := h
    exact ⟨rfl, rfl⟩
  | warm =>
    simp only [hl] at h
    split at h <;> simp only [Prod.mk.injEq] at h
    all_goals
      obtain ⟨-, rfl, -⟩ := h
      exact ⟨rfl, rfl⟩

theorem acquireLease_keepsMeter : t.KeepsMeter (acquireLease now input t).2 := by
  unfold acquireLease
  cases hs : settleConflict input t.holders (t.lease.getD (freshLease now input)) with
  | error e => exact keepsMeter_of_eq rfl
  | ok row =>
    have hrow : (t.lease.getD (freshLease now input)).SameMeter row := by
      obtain rfl | ⟨-, rfl⟩ := settleConflict_ok hs
      · exact ⟨rfl, rfl⟩
      · exact ⟨rfl, rfl⟩
    dsimp only
    cases hb : acquireBranch input row with
    | mk role rest =>
      obtain ⟨row₁, ttl, setLiveness⟩ := rest
      have hrow₁ := hrow.trans (acquireBranch_sameMeter hb)
      have hboth : ∀ r, row₁.SameMeter r → ∀ t', t'.lease = some r → t.KeepsMeter t' := by
        intro r hr t' hl'
        cases hl : t.lease with
        | some row₀ =>
          rw [hl] at hrow₁
          exact keepsMeter_of_some hl hl' (hrow₁.trans hr)
        | none =>
          rw [hl] at hrow₁
          refine ⟨?_, ?_⟩
          · intro r' hr'
            rw [hl] at hr'
            cases hr'
          · intro r' _ hr'
            cases hl'.symm.trans hr'
            exact (hrow₁.trans hr).1
      cases role with
      | fenced => exact hboth row₁ ⟨rfl, rfl⟩ _ rfl
      | spawner | attached | rearmed =>
        exact hboth (recomputeAndStampLease now (upsertLeaseHolder now input.kind input.holderId t.holders)
          ttl setLiveness row₁) ⟨rfl, rfl⟩ _ rfl

/-- **No write of the lease touches the cursor.** -/
theorem LeaseWrite.run_keepsMeter (op : LeaseWrite) : t.KeepsMeter (op.run now t) := by
  cases op with
  | acquireLease input => exact acquireLease_keepsMeter
  | releaseLeaseHolder input =>
    change t.KeepsMeter (Db.releaseLeaseHolder now input t)
    unfold Db.releaseLeaseHolder
    cases hl : t.lease with
    | none => exact keepsMeter_of_eq rfl
    | some row => exact keepsMeter_of_some hl rfl settle_sameMeter
  | heartbeatLeaseHolder kind holderId ttl epoch =>
    obtain he | ⟨row, row', hl, hl', rfl⟩ := heartbeatLeaseHolder_lease now ttl epoch kind holderId t
    · exact keepsMeter_of_eq he
    · exact keepsMeter_of_some hl hl' ⟨rfl, rfl⟩
  | reapStaleLeaseHolders input =>
    change t.KeepsMeter (Db.reapStaleLeaseHolders now input t).1
    unfold Db.reapStaleLeaseHolders
    cases hl : t.lease with
    | none => exact keepsMeter_of_eq hl.symm
    | some row =>
      exact keepsMeter_of_some hl rfl (settle_sameMeter.trans (warmingReset_sameMeter.trans warmingDrain_sameMeter))
  | forceDrainOverLimitViewerOnlyBoxes total input =>
    change t.KeepsMeter (Db.forceDrainOverLimitViewerOnlyBoxes now total input t).1
    unfold Db.forceDrainOverLimitViewerOnlyBoxes
    by_cases hr : (input.reason total).isSome = true
    · rw [if_pos hr]
      have hdrop : (dropViewers t).lease = t.lease := by
        unfold dropViewers
        split
        · rfl
        · split <;> rfl
      have hkeep : (dropViewers t).KeepsMeter (drainViewerOnly now input.idleGraceMs (dropViewers t)).1 :=
        updateWhere_keepsMeter fun _ => ⟨rfl, rfl⟩
      unfold LeaseTables.KeepsMeter at hkeep ⊢
      rwa [hdrop] at hkeep
    · rw [if_neg hr]
      exact keepsMeter_of_eq rfl
  | persistDrainSnapshot epoch archive =>
    obtain ⟨-, he⟩ | ⟨-, row, hl, -, he⟩ :=
      persistDrainSnapshot_cases (Prod.mk.eta (p := Db.persistDrainSnapshot now epoch archive t)).symm
    · exact keepsMeter_of_eq (congrArg LeaseTables.lease he)
    · refine keepsMeter_of_some hl (congrArg LeaseTables.lease he) ?_
      cases archive <;> exact ⟨rfl, rfl⟩
  | persistWarmSnapshot input =>
    obtain ⟨-, he⟩ | ⟨-, row, hl, -, -, he⟩ :=
      persistWarmSnapshot_cases (Prod.mk.eta (p := Db.persistWarmSnapshot input t)).symm
    · exact keepsMeter_of_eq (congrArg LeaseTables.lease he)
    · exact keepsMeter_of_some hl (congrArg LeaseTables.lease he) ⟨rfl, rfl⟩
  | _ => exact updateWhere_keepsMeter fun _ => ⟨rfl, rfl⟩

end

/-! ## What a tick does -/

namespace Meter

variable {s s' s₁ : Meter} {e : MeterEvent} {now epoch T B d₁ : ℕ} {rate : ℚ} {usage : List UsageEvent}
  {u : UsageEvent} {row : LeaseRow}

/-- The books are in order: the events lie in the past and under ticks that have been counted, and
so does the cursor. -/
structure InOrder (s : Meter) : Prop where
  past : ∀ u ∈ s.usage, u.occurredAt ≤ s.clock
  ticks : ∀ u ∈ s.usage, ∃ row, s.tables.lease = some row ∧ u.tick ≤ row.lastMeterTick
  cursor : ∀ row c, s.tables.lease = some row → row.lastMeterAt = some c → c ≤ s.clock
  box : s.seamless = true → s.HasBox

theorem inOrder_start : start.InOrder := by
  refine ⟨?_, ?_, ?_, ?_⟩
  · intro u hu
    cases hu
  · intro u hu
    cases hu
  · intro row c hrow
    cases hrow
  · intro h
    cases h

theorem insertUsageEvent_fresh {e : UsageEvent} (h : ∀ u ∈ usage, u.eventType = e.eventType → u.tick < e.tick) :
    insertUsageEvent e usage = e :: usage := by
  unfold insertUsageEvent
  rw [if_neg]
  intro hany
  obtain ⟨u, hu, hkey⟩ := List.any_eq_true.1 hany
  simp only [UsageEvent.sameKey, Bool.and_eq_true, beq_iff_eq] at hkey
  have hlt := h u hu hkey.1.1
  omega

theorem recordWarmTick_fresh (now epoch seconds cost : ℕ) {tick : ℕ} (h : ∀ u ∈ usage, u.tick < tick) :
    ∃ e : UsageEvent, e.eventType = .warmSeconds ∧ e.quantity = seconds ∧ e.tick = tick ∧ e.occurredAt = now ∧
      (recordWarmTick now epoch tick seconds cost usage = e :: usage ∨
        ∃ c : UsageEvent, c.eventType = .warmCost ∧ c.tick = tick ∧ c.occurredAt = now ∧
          recordWarmTick now epoch tick seconds cost usage = c :: e :: usage) := by
  refine ⟨{ eventType := .warmSeconds, quantity := seconds, leaseEpoch := epoch, tick, occurredAt := now },
    rfl, rfl, rfl, rfl, ?_⟩
  unfold recordWarmTick
  rw [insertUsageEvent_fresh fun u hu _ => h u hu]
  by_cases hcost : 0 < cost
  · simp only [if_pos hcost]
    right
    rw [insertUsageEvent_fresh]
    · exact ⟨_, rfl, rfl, rfl, rfl⟩
    · -- The seconds are under the same tick, but of the other type.
      intro u hu htype
      obtain rfl | hu := List.mem_cons.1 hu
      · cases htype
      · exact h u hu
  · exact .inl (if_neg hcost)

/-- **What a tick can do.** It does nothing, it seeds the cursor, or it records the whole seconds since
the cursor and moves it. -/
theorem tick_cases (s : Meter) (now epoch : ℕ) (rate : ℚ) :
    (¬ s.Takes now epoch ∧ s.tick now epoch rate = s.advance now) ∨
      (∃ row, s.tables.lease = some row ∧ row.leaseEpoch = epoch ∧ row.liveness = .warm ∧ row.lastMeterAt = none ∧
        s.tick now epoch rate = { s.advance now with
            tables := { s.tables with lease := some { row with lastMeterAt := some now } }
            seamless := true
            dropped := some (s.dropped.elim 0 (· + 0)) }) ∨
      ∃ row c, s.tables.lease = some row ∧ row.leaseEpoch = epoch ∧ row.liveness = .warm ∧
        row.lastMeterAt = some c ∧ (now - c) / 1000000 ≠ 0 ∧
        s.tick now epoch rate = { s.advance now with
            tables := { s.tables with
              lease := some { row with
                  lastMeterAt := some now
                  lastMeterTick := row.lastMeterTick + 1 } }
            usage := recordWarmTick now epoch (row.lastMeterTick + 1) ((now - c) / 1000000)
              (costMicros ((now - c) / 1000000) rate) s.usage
            seamless := true
            dropped := some (s.dropped.elim 0 (· + (now - c) % 1000000)) } := by
  unfold tick accrueWarmSeconds
  cases hl : s.tables.lease with
  | none =>
    left
    have hno : ¬ s.Takes now epoch := by
      rintro ⟨row, hrow, -⟩
      rw [hl] at hrow
      cases hrow
    refine ⟨hno, ?_⟩
    simp only [if_neg hno]
    rfl
  | some row =>
    dsimp only
    by_cases hf : row.leaseEpoch ≠ epoch ∨ row.liveness ≠ .warm
    · left
      have hno : ¬ s.Takes now epoch := by
        rintro ⟨r, hr, ⟨he, hw⟩, -⟩
        cases hl.symm.trans hr
        obtain hf | hf := hf
        · exact hf he
        · exact hf hw
      refine ⟨hno, ?_⟩
      simp only [if_pos hf, if_neg hno]
      rfl
    · have hobs : row.leaseEpoch = epoch ∧ row.liveness = .warm := by
        constructor
        · exact not_not.1 fun h => hf (.inl h)
        · exact not_not.1 fun h => hf (.inr h)
      rw [if_neg hf]
      cases hc : row.lastMeterAt with
      | none =>
        right; left
        have htakes : s.Takes now epoch := by
          refine ⟨row, hl, hobs, ?_⟩
          rw [hc]
          intro c hc'
          cases hc'
        refine ⟨row, rfl, hobs.1, hobs.2, hc, ?_⟩
        have hpending : s.pending now = 0 := by simp [pending, hl, hc]
        simp only [if_pos htakes, hpending]
        rfl
      | some c =>
        have hpending : s.pending now = now - c := by simp [pending, hl, hc]
        by_cases hz : (now - c) / 1000000 = 0
        · left
          have hno : ¬ s.Takes now epoch := by
            rintro ⟨r, hr, -, htake⟩
            cases hl.symm.trans hr
            exact htake c hc hz
          refine ⟨hno, ?_⟩
          simp only [if_pos hz, if_neg hno]
          rfl
        · right; right
          have htakes : s.Takes now epoch := by
            refine ⟨row, hl, hobs, ?_⟩
            intro c' hc'
            cases hc.symm.trans hc'
            exact hz
          refine ⟨row, c, rfl, hobs.1, hobs.2, hc, hz, ?_⟩
          simp only [if_neg hz, if_pos htakes, hpending]

/-! ## The books -/

theorem InOrder.write (hi : s.InOrder) (op : LeaseWrite) (hle : s.clock ≤ now) : (s.write now op).InOrder := by
  have hkeep : s.tables.KeepsMeter (op.run now s.tables) := op.run_keepsMeter
  refine ⟨?_, ?_, ?_, ?_⟩
  · intro u hu
    have hpast : u.occurredAt ≤ s.clock := hi.past u hu
    exact hpast.trans hle
  · intro u hu
    obtain ⟨row, hrow, htick⟩ := hi.ticks u hu
    obtain ⟨row', hrow', hsame⟩ := hkeep.1 row hrow
    exact ⟨row', hrow', by rw [hsame.2]; exact htick⟩
  · intro row' c hrow' hc
    cases hl : s.tables.lease with
    | none =>
      rw [hkeep.2 row' hl hrow'] at hc
      cases hc
    | some row =>
      obtain ⟨r, hr, hsame⟩ := hkeep.1 row hl
      cases hr.symm.trans hrow'
      rw [hsame.1] at hc
      exact (hi.cursor row c hl hc).trans hle
  · intro hs
    simp only [Meter.write, Bool.and_eq_true, decide_eq_true_eq] at hs
    exact hs.2

theorem InOrder.tick (hi : s.InOrder) (hle : s.clock ≤ now) : (s.tick now epoch rate).InOrder := by
  obtain ⟨-, he⟩ | ⟨row, hl, -, hw, hc, he⟩ | ⟨row, c, hl, -, hw, hc, -, he⟩ := tick_cases s now epoch rate
  · rw [he]
    refine ⟨fun u hu => (hi.past u hu).trans hle, hi.ticks, ?_, hi.box⟩
    exact fun row c hrow hc => (hi.cursor row c hrow hc).trans hle
  · rw [he]
    refine ⟨fun u hu => (hi.past u hu).trans hle, ?_, ?_, ?_⟩
    · intro u hu
      obtain ⟨r, hr, htick⟩ := hi.ticks u hu
      cases hl.symm.trans hr
      exact ⟨_, rfl, htick⟩
    · intro r c hr hc'
      cases hr
      cases hc'
      exact le_rfl
    · exact fun _ => ⟨_, rfl, .inl hw⟩
  · have hticks : ∀ u ∈ s.usage, u.tick < row.lastMeterTick + 1 := by
      intro u hu
      obtain ⟨r, hr, htick⟩ := hi.ticks u hu
      cases hl.symm.trans hr
      omega
    obtain ⟨e, -, -, het, hea, hrec⟩ := recordWarmTick_fresh now epoch ((now - c) / 1000000)
      (costMicros ((now - c) / 1000000) rate) hticks
    -- Every event is an old one or has this tick's time and number.
    have hevents : ∀ u ∈ recordWarmTick now epoch (row.lastMeterTick + 1) ((now - c) / 1000000)
        (costMicros ((now - c) / 1000000) rate) s.usage,
        u ∈ s.usage ∨ (u.tick = row.lastMeterTick + 1 ∧ u.occurredAt = now) := by
      intro u hu
      obtain hrec | ⟨k, -, hkt, hka, hrec⟩ := hrec
      · rw [hrec] at hu
        obtain rfl | hu := List.mem_cons.1 hu
        · exact .inr ⟨het, hea⟩
        · exact .inl hu
      · rw [hrec] at hu
        obtain rfl | hu := List.mem_cons.1 hu
        · exact .inr ⟨hkt, hka⟩
        · obtain rfl | hu := List.mem_cons.1 hu
          · exact .inr ⟨het, hea⟩
          · exact .inl hu
    rw [he]
    refine ⟨?_, ?_, ?_, ?_⟩
    · intro u hu
      obtain hu | ⟨-, ha⟩ := hevents u hu
      · exact (hi.past u hu).trans hle
      · exact ha.le
    · intro u hu
      refine ⟨_, rfl, ?_⟩
      obtain hu | ⟨ht, -⟩ := hevents u hu
      · exact (hticks u hu).le
      · exact ht.le
    · intro r c hr hc'
      cases hr
      cases hc'
      exact le_rfl
    · exact fun _ => ⟨_, rfl, .inl hw⟩

theorem step_write {op : LeaseWrite} (h : s.step (.write now op) = some s') :
    s.clock ≤ now ∧ s' = s.write now op := by
  obtain ⟨hle, he⟩ := Option.ite_none_right_eq_some.1 h
  exact ⟨hle, (Option.some.inj he).symm⟩

theorem step_tick (h : s.step (.tick now epoch rate) = some s') : s.clock ≤ now ∧ s' = s.tick now epoch rate := by
  obtain ⟨hle, he⟩ := Option.ite_none_right_eq_some.1 h
  exact ⟨hle, (Option.some.inj he).symm⟩

theorem inOrder_step (hi : s.InOrder) (h : s.step e = some s') : s'.InOrder := by
  cases e with
  | write now op =>
    obtain ⟨hle, rfl⟩ := step_write h
    exact hi.write op hle
  | tick now epoch rate =>
    obtain ⟨hle, rfl⟩ := step_tick h
    exact hi.tick hle

/-! ## Sums -/

variable {t c : ℕ} {lease : Option LeaseRow}

theorem warmSeconds_cons_cost (h : u.eventType = .warmCost) :
    warmSeconds T t (u :: usage) = warmSeconds T t usage := by
  unfold warmSeconds
  rw [List.filter_cons_of_neg]
  simp [h]

theorem warmSeconds_cons (h : u.eventType = .warmSeconds) (hT : T < u.occurredAt) (ht : u.occurredAt ≤ t) :
    warmSeconds T t (u :: usage) = u.quantity + warmSeconds T t usage := by
  unfold warmSeconds
  rw [List.filter_cons_of_pos (by simp [h, hT, ht]), List.map_cons, List.sum_cons]

theorem warmSeconds_later {t' : ℕ} (h : ∀ u ∈ usage, u.occurredAt ≤ t) (hle : t ≤ t') :
    warmSeconds T t' usage = warmSeconds T t usage := by
  unfold warmSeconds
  congr 2
  apply List.filter_congr
  intro u hu
  have hut := h u hu
  have hut' := hut.trans hle
  simp [hut, hut']

theorem warmSeconds_eq_zero (h : ∀ u ∈ usage, u.occurredAt ≤ T) : warmSeconds T t usage = 0 := by
  unfold warmSeconds
  rw [List.filter_eq_nil_iff.2]
  · rfl
  · intro u hu
    have hut := h u hu
    simp [Nat.not_lt.2 hut]

theorem InOrder.warmSeconds_tick {cost : ℕ} (hi : s.InOrder) (hl : s.tables.lease = some row)
    (hle : s.clock ≤ now) (hT : T < now) :
    warmSeconds T now (recordWarmTick now epoch (row.lastMeterTick + 1) c cost s.usage) =
      c + warmSeconds T s.clock s.usage := by
  have hticks : ∀ u ∈ s.usage, u.tick < row.lastMeterTick + 1 := by
    intro u hu
    obtain ⟨r, hr, htick⟩ := hi.ticks u hu
    cases hl.symm.trans hr
    omega
  obtain ⟨e, hety, heq, -, hea, hrec | ⟨k, hkty, -, -, hrec⟩⟩ := recordWarmTick_fresh now epoch c cost hticks
  · rw [hrec, warmSeconds_cons hety (hea ▸ hT) hea.le, heq, warmSeconds_later hi.past hle]
  · rw [hrec, warmSeconds_cons_cost hkty, warmSeconds_cons hety (hea ▸ hT) hea.le, heq,
      warmSeconds_later hi.past hle]

/-! ## Since a tick that took the cursor -/

/-- Since `T`, when the box time was `B`: what is recorded does not exceed the box time, nor does it
with the time since the cursor, as long as there has been a box. -/
def Covered (T B : ℕ) (lease : Option LeaseRow) (recorded clock boxTime : ℕ) (seamless : Bool) : Prop :=
  ∃ row c, lease = some row ∧ row.lastMeterAt = some c ∧ T ≤ c ∧ recorded + B ≤ boxTime ∧
    (seamless = true → recorded + (clock - c) + B ≤ boxTime)

def Since (T B : ℕ) (s : Meter) : Prop :=
  Covered T B s.tables.lease (warmSeconds T s.clock s.usage * 1000000) s.clock s.boxTime s.seamless

/-- Since `T`, when `d₁` had been floored away: what is recorded and floored away is the time up to the
cursor. -/
def Balanced (T d₁ : ℕ) (lease : Option LeaseRow) (recorded : ℕ) (dropped : Option ℕ) : Prop :=
  ∃ row c d, lease = some row ∧ row.lastMeterAt = some c ∧ T ≤ c ∧ dropped = some d ∧ recorded + d + T = c + d₁

def Accounts (T d₁ : ℕ) (s : Meter) : Prop :=
  Balanced T d₁ s.tables.lease (warmSeconds T s.clock s.usage * 1000000) s.dropped

@[simp] theorem tick_clock : (s.tick now epoch rate).clock = now := by
  unfold tick
  by_cases h : s.Takes now epoch
  · simp only [if_pos h]
    rfl
  · simp only [if_neg h]
    rfl

@[simp] theorem tick_boxTime : (s.tick now epoch rate).boxTime = (s.advance now).boxTime := by
  unfold tick
  by_cases h : s.Takes now epoch
  · simp only [if_pos h]
  · simp only [if_neg h]

theorem covered_start {boxTime : ℕ} {seamless : Bool} (hl : lease = some row)
    (hc : row.lastMeterAt = some T) : Covered T boxTime lease 0 T boxTime seamless :=
  ⟨row, T, hl, hc, le_rfl, by omega, fun _ => by omega⟩

theorem balanced_start (hl : lease = some row) (hc : row.lastMeterAt = some T) : Balanced T d₁ lease 0 (some d₁) :=
  ⟨row, T, d₁, hl, hc, le_rfl, rfl, by omega⟩

theorem takes_since (rate : ℚ) (hi : s.InOrder) (hle : s.clock ≤ now) (htakes : s.Takes now epoch) :
    Since now (s.tick now epoch rate).boxTime (s.tick now epoch rate) ∧
      ∃ d₁, Accounts now d₁ (s.tick now epoch rate) := by
  have hzero : warmSeconds now now (s.tick now epoch rate).usage = 0 := by
    apply warmSeconds_eq_zero
    have hpast : (s.tick now epoch rate).InOrder := hi.tick hle
    replace hpast := hpast.past
    rwa [tick_clock] at hpast
  have hcursor : ∃ row d₁, (s.tick now epoch rate).tables.lease = some row ∧ row.lastMeterAt = some now ∧
      (s.tick now epoch rate).dropped = some d₁ := by
    obtain ⟨hno, -⟩ | ⟨row, -, -, -, -, he⟩ | ⟨row, c, -, -, -, -, -, he⟩ := tick_cases s now epoch rate
    · exact absurd htakes hno
    · rw [he]
      exact ⟨_, _, rfl, rfl, rfl⟩
    · rw [he]
      exact ⟨_, _, rfl, rfl, rfl⟩
  obtain ⟨row, d₁, hl, hc, hd⟩ := hcursor
  refine ⟨?_, d₁, ?_⟩
  · unfold Since
    rw [tick_clock, hzero, Nat.zero_mul]
    exact covered_start hl hc
  · unfold Accounts
    rw [tick_clock, hzero, hd, Nat.zero_mul]
    exact balanced_start hl hc

theorem advance_boxTime (h : s.HasBox) : (s.advance now).boxTime = s.boxTime + (now - s.clock) := by
  unfold advance
  rw [if_pos h]

theorem le_advance_boxTime : s.boxTime ≤ (s.advance now).boxTime := by
  exact Nat.le_add_right _ _

theorem Covered.advance {lease' : Option LeaseRow} {W : ℕ} {seamless' : Bool}
    (h : Covered T B lease W s.clock s.boxTime s.seamless) (hi : s.InOrder) (hle : s.clock ≤ now)
    (hl : ∀ row c, lease = some row → row.lastMeterAt = some c → c ≤ s.clock)
    (hkeep : ∀ row, lease = some row → ∃ row', lease' = some row' ∧ row'.lastMeterAt = row.lastMeterAt)
    (hseamless : seamless' = true → s.seamless = true) :
    Covered T B lease' W now (s.advance now).boxTime seamless' := by
  obtain ⟨row, c, hrow, hc, hT, hbox, hahead⟩ := h
  obtain ⟨row', hrow', hsame⟩ := hkeep row hrow
  have hcursor : c ≤ s.clock := hl row c hrow hc
  refine ⟨row', c, hrow', hsame.trans hc, hT, hbox.trans le_advance_boxTime, ?_⟩
  intro hs
  have hs := hseamless hs
  have hahead := hahead hs
  rw [advance_boxTime (hi.box hs)]
  omega

theorem Since.write (h : Since T B s) (hi : s.InOrder) (op : LeaseWrite) (hle : s.clock ≤ now) :
    Since T B (s.write now op) := by
  have hlater : warmSeconds T now s.usage = warmSeconds T s.clock s.usage := warmSeconds_later hi.past hle
  change Covered T B (op.run now s.tables).lease (warmSeconds T now s.usage * 1000000) now
    (s.advance now).boxTime (s.write now op).seamless
  rw [hlater]
  refine Covered.advance h hi hle hi.cursor ?_ ?_
  · intro row hl
    have hkeep : s.tables.KeepsMeter (op.run now s.tables) := op.run_keepsMeter
    obtain ⟨row', hl', hsame⟩ := hkeep.1 row hl
    exact ⟨row', hl', hsame.1⟩
  · intro hs
    simp only [Meter.write, Bool.and_eq_true] at hs
    exact hs.1

theorem Since.tick (h : Since T B s) (hi : s.InOrder) (hle : s.clock ≤ now)
    (hok : s.OnTime (.tick now epoch rate)) : Since T B (s.tick now epoch rate) := by
  unfold Since
  rw [tick_clock, tick_boxTime]
  obtain ⟨-, he⟩ | ⟨row, hl, -, -, hc, -⟩ | ⟨row, c, hl, hepoch, hw, hc, hq, he⟩ := tick_cases s now epoch rate
  · rw [he]
    change Covered T B s.tables.lease (warmSeconds T now s.usage * 1000000) now (s.advance now).boxTime s.seamless
    rw [warmSeconds_later hi.past hle]
    exact Covered.advance h hi hle hi.cursor (fun row hrow => ⟨row, hrow, rfl⟩) id
  · -- The cursor is there, so it is not seeded again.
    obtain ⟨r, c, hr, hc', -⟩ := h
    cases hl.symm.trans hr
    rw [hc] at hc'
    cases hc'
  · obtain ⟨r, c', hr, hc', hT, hbox, hahead⟩ := h
    cases hl.symm.trans hr
    cases hc.symm.trans hc'
    have hpending : s.pending now = now - c := by simp [pending, hl, hc]
    -- The condition: there has been a box since the cursor, so its time covers the new seconds.
    have hseamless : s.seamless = true := (hok ⟨row, hl, hepoch, hw⟩).1 (by rw [hpending]; omega)
    have hahead := hahead hseamless
    rw [he]
    have hwhole : (now - c) / 1000000 * 1000000 ≤ now - c := Nat.div_mul_le_self _ _
    have hsum : ∀ whole recorded, whole ≤ now - c → recorded + (s.clock - c) + B ≤ s.boxTime →
        whole + recorded + (now - now) + B ≤ s.boxTime + (now - s.clock) := by
      intro whole recorded _ _
      omega
    have hcovered := hsum _ _ hwhole hahead
    rw [hi.warmSeconds_tick hl hle (by omega), advance_boxTime (hi.box hseamless), Nat.add_mul]
    refine ⟨_, now, rfl, rfl, by omega, ?_, fun _ => hcovered⟩
    rwa [Nat.sub_self, Nat.add_zero] at hcovered

theorem Accounts.write (h : Accounts T d₁ s) (hi : s.InOrder) (op : LeaseWrite) (hle : s.clock ≤ now)
    (hwarm : (s.write now op).Warm) : Accounts T d₁ (s.write now op) := by
  obtain ⟨row, c, d, hl, hc, hT, hd, hsum⟩ := h
  have hkeep : s.tables.KeepsMeter (op.run now s.tables) := op.run_keepsMeter
  obtain ⟨row', hl', hsame⟩ := hkeep.1 row hl
  have hdropped : (s.write now op).dropped = some d := by
    rw [← hd]
    exact if_pos hwarm
  have hlater : warmSeconds T now s.usage = warmSeconds T s.clock s.usage := warmSeconds_later hi.past hle
  change Balanced T d₁ (op.run now s.tables).lease (warmSeconds T now s.usage * 1000000) (s.write now op).dropped
  rw [hlater]
  exact ⟨row', c, d, hl', hsame.1.trans hc, hT, hdropped, hsum⟩

theorem Accounts.tick (h : Accounts T d₁ s) (hi : s.InOrder) (hle : s.clock ≤ now) :
    Accounts T d₁ (s.tick now epoch rate) := by
  obtain ⟨row, c, d, hl, hc, hT, hd, hsum⟩ := h
  unfold Accounts
  rw [tick_clock]
  obtain ⟨-, he⟩ | ⟨r, hr, -, -, hc', -⟩ | ⟨r, c', hr, -, -, hc', hq, he⟩ := tick_cases s now epoch rate
  · rw [he]
    change Balanced T d₁ s.tables.lease (warmSeconds T now s.usage * 1000000) s.dropped
    rw [warmSeconds_later hi.past hle]
    exact ⟨row, c, d, hl, hc, hT, hd, hsum⟩
  · cases hl.symm.trans hr
    rw [hc] at hc'
    cases hc'
  · cases hl.symm.trans hr
    cases hc.symm.trans hc'
    rw [he]
    have hsplit : (now - c) / 1000000 * 1000000 + (now - c) % 1000000 = now - c := Nat.div_add_mod' _ _
    have hnow : ∀ whole fraction recorded, whole + fraction = now - c → recorded + d + T = c + d₁ →
        whole + recorded + (d + fraction) + T = now + d₁ := by
      intro whole fraction recorded _ _
      omega
    rw [hi.warmSeconds_tick hl hle (by omega), Nat.add_mul]
    refine ⟨_, now, d + (now - c) % 1000000, rfl, rfl, by omega, by simp only [hd, Option.elim_some], ?_⟩
    exact hnow _ _ _ hsplit hsum

/-- With the tick that observes the lease, the recorded seconds grow by the whole ones since the cursor,
also where there are none. -/
theorem InOrder.warmSeconds_observed (hi : s.InOrder) (hle : s.clock ≤ now)
    (hobs : s.Observes epoch) (hl : s.tables.lease = some row) (hc : row.lastMeterAt = some c)
    (hT : T ≤ c) :
    warmSeconds T now (s.tick now epoch rate).usage = (now - c) / 1000000 + warmSeconds T s.clock s.usage := by
  obtain ⟨r₀, hr₀, hepoch⟩ := hobs
  cases hl.symm.trans hr₀
  obtain ⟨hno, he⟩ | ⟨r, hr, -, -, hc', -⟩ | ⟨r, c', hr, -, -, hc', hq, he⟩ := tick_cases s now epoch rate
  · have hz : (now - c) / 1000000 = 0 := by
      by_contra hz
      apply hno
      refine ⟨row, hl, hepoch, ?_⟩
      intro c' hc'
      cases hc.symm.trans hc'
      exact hz
    rw [he, hz, Nat.zero_add]
    exact warmSeconds_later hi.past hle
  · cases hl.symm.trans hr
    rw [hc] at hc'
    cases hc'
  · cases hl.symm.trans hr
    cases hc.symm.trans hc'
    rw [he]
    exact hi.warmSeconds_tick hl hle (by omega)

theorem Accounts.short (h : Accounts T d₁ s) (hi : s.InOrder) (hle : s.clock ≤ now) (hobs : s.Observes epoch)
    (hok : s.OnTime (.tick now epoch rate)) :
    now - T < warmSeconds T now (s.tick now epoch rate).usage * 1000000 + 1000000 := by
  obtain ⟨row, c, d, hl, hc, hT, hd, hsum⟩ := h
  have hpending : s.pending now = now - c := by simp [pending, hl, hc]
  have hfraction : d + (now - c) % 1000000 < 1000000 := by
    have hdropped := (hok hobs).2 d hd
    rwa [hpending] at hdropped
  have hsplit : (now - c) / 1000000 * 1000000 + (now - c) % 1000000 = now - c := Nat.div_add_mod' _ _
  have harith : ∀ whole fraction recorded, whole + fraction = now - c → d + fraction < 1000000 →
      recorded + d + T = c + d₁ → now - T < whole + recorded + 1000000 := by
    intro whole fraction recorded _ _ _
    omega
  rw [hi.warmSeconds_observed hle hobs hl hc hT, Nat.add_mul]
  exact harith _ _ _ hsplit hfraction hsum

/-! ## Runs -/

/-- **Warm time is metered.** In every run in which a tick that accrues finds a cursor since which there was a box,
and floors away less than a second of a warm period: what is recorded between two ticks does not exceed the time for
which a box existed, and if the lease stayed warm it falls short of the time between them by less than a second. -/
theorem warm_seconds_metered {es₁ es₂ : List MeterEvent} {s s₁ s₂ s₃ : Meter} {t₁ t₂ epoch₁ epoch₂ : ℕ}
    {rate₁ rate₂ : ℚ} (h₁ : Run Metered start es₁ s) (ht₁ : Metered s (.tick t₁ epoch₁ rate₁) s₁)
    (htakes : s.Takes t₁ epoch₁) (h₂ : Run Metered s₁ es₂ s₂)
    (ht₂ : Metered s₂ (.tick t₂ epoch₂ rate₂) s₃) :
    warmSeconds t₁ t₂ s₃.usage * 1000000 ≤ s₃.boxTime - s₁.boxTime ∧
      (Run WarmMetered s₁ es₂ s₂ → s₂.Observes epoch₂ →
        t₂ - t₁ < warmSeconds t₁ t₂ s₃.usage * 1000000 + 1000000) := by
  have hi : s.InOrder := h₁.invariant (P := InOrder) (fun _ _ _ hstep hi => inOrder_step hi hstep.1) inOrder_start
  obtain ⟨hle₁, rfl⟩ := step_tick ht₁.1
  obtain ⟨hsince, d₁, haccounts⟩ := takes_since rate₁ hi hle₁ htakes
  have hi₁ : (s.tick t₁ epoch₁ rate₁).InOrder := inOrder_step hi ht₁.1
  obtain ⟨hle₂, rfl⟩ := step_tick ht₂.1
  refine ⟨?_, ?_⟩
  · have hboth : s₂.InOrder ∧ Since t₁ (s.tick t₁ epoch₁ rate₁).boxTime s₂ := by
      refine h₂.invariant (P := fun s' => s'.InOrder ∧ Since t₁ (s.tick t₁ epoch₁ rate₁).boxTime s') ?_
        ⟨hi₁, hsince⟩
      rintro u e v ⟨hstep, hok⟩ ⟨hiu, hsu⟩
      refine ⟨inOrder_step hiu hstep, ?_⟩
      cases e with
      | write now op =>
        obtain ⟨hle, rfl⟩ := step_write hstep
        exact hsu.write hiu op hle
      | tick now epoch rate =>
        obtain ⟨hle, rfl⟩ := step_tick hstep
        exact hsu.tick hiu hle hok
    obtain ⟨row, c, -, -, -, hbox, -⟩ := hboth.2.tick hboth.1 hle₂ ht₂.2
    rw [tick_clock] at hbox
    exact Nat.le_sub_of_add_le hbox
  · intro hwarm hobs
    have hboth : s₂.InOrder ∧ Accounts t₁ d₁ s₂ := by
      refine hwarm.invariant (P := fun s' => s'.InOrder ∧ Accounts t₁ d₁ s') ?_ ⟨hi₁, haccounts⟩
      rintro u e v ⟨⟨hstep, -⟩, hw⟩ ⟨hiu, hau⟩
      refine ⟨inOrder_step hiu hstep, ?_⟩
      cases e with
      | write now op =>
        obtain ⟨hle, rfl⟩ := step_write hstep
        exact hau.write hiu op hle hw
      | tick now epoch rate =>
        obtain ⟨hle, rfl⟩ := step_tick hstep
        exact hau.tick hiu hle
    exact hboth.2.short hboth.1 hle₂ hobs ht₂.2

/-- A turn's lease, with the times to live of the default settings. -/
def turnLease (holderId : String) : AcquireLeaseInput :=
  { kind := .turn, holderId, backend := "modal", image := none, rigVersionId := none, leaseTtlMs := 90000
    warmingLeaseTtlMs := some 600000, expectedEpoch := none }

def boxCommit (expectedEpoch : ℕ) (instanceId : String) : CommitInput :=
  { expectedEpoch, instanceId, dataPlaneUrl := none, resumeBackendId := some "modal", resumeState := none
    leaseTtlMs := 90000 }

def warmed : List MeterEvent :=
  [.write 0 (.acquireLease (turnLease "turn-1")), .write 1000000 (.commitWarmingToWarm (boxCommit 0 "box-1"))]

def after (es : List MeterEvent) : Meter := (play step start es).getD start

def seeded : List MeterEvent := warmed ++ [.tick 2000000 1 0]

def ticked : List MeterEvent := seeded ++ [.tick 4500000 1 0]

/-- Ticks after 2.5 and another 2.4 seconds record four of the 4.9 seconds. -/
theorem warm_seconds_metered_once :
    warmSeconds 2000000 6900000 (after (ticked ++ [.tick 6900000 1 0])).usage * 1000000 ≤
        (after (ticked ++ [.tick 6900000 1 0])).boxTime - (after seeded).boxTime ∧
      6900000 - 2000000 <
        warmSeconds 2000000 6900000 (after (ticked ++ [.tick 6900000 1 0])).usage * 1000000 + 1000000 := by
  have h₁ : play (guarded step OnTime) start warmed = some (after warmed) := rfl
  have ht₁ : Metered (after warmed) (.tick 2000000 1 0) (after seeded) := ⟨rfl, by decide⟩
  have ht₂ : Metered (after seeded) (.tick 4500000 1 0) (after ticked) := ⟨rfl, by decide⟩
  have ht₃ : Metered (after ticked) (.tick 6900000 1 0) (after (ticked ++ [.tick 6900000 1 0])) :=
    ⟨rfl, by decide⟩
  obtain ⟨hbox, hshort⟩ := warm_seconds_metered (guarded_run h₁) ht₁ (by decide) (.single ht₂) ht₃
  exact ⟨hbox, hshort (.single ⟨ht₂, by decide⟩) (by decide)⟩

/-- The box idles and is taken down; an hour later the next one is warm. -/
def coldGap : List MeterEvent :=
  [.write 3000000 (.releaseLeaseHolder
      { kind := .turn, holderId := "turn-1", idleGraceMs := 120000 }),
    .write 200000000 (.confirmDrainCold 1), .write 4000000000 (.acquireLease (turnLease "turn-2")),
    .write 4001000000 (.commitWarmingToWarm (boxCommit 1 "box-2"))]

/-- The first tick of the second box records the hour in which there was none; and of two ticks 1.9
seconds apart each records one second. -/
theorem cold_gap_is_metered :
    (∃ s₂ s₃ : Meter, Run (fun s e t => step s e = some t) (after seeded) coldGap s₂ ∧
        s₂.step (.tick 4002000000 2 0) = some s₃ ∧
        s₃.boxTime - (after seeded).boxTime < warmSeconds 2000000 4002000000 s₃.usage * 1000000) ∧
      ∃ s₂ s₃ : Meter, (after seeded).step (.tick 3900000 1 0) = some s₂ ∧ s₂.Warm ∧ s₂.Observes 1 ∧
        s₂.step (.tick 5800000 1 0) = some s₃ ∧
        warmSeconds 2000000 5800000 s₃.usage * 1000000 + 1000000 ≤ 5800000 - 2000000 := by
  have hrun : play step (after seeded) coldGap = some (after (seeded ++ coldGap)) := rfl
  have hbox : (after (seeded ++ coldGap ++ [.tick 4002000000 2 0])).boxTime - (after seeded).boxTime = 199000000 :=
    rfl
  have hgap : warmSeconds 2000000 4002000000 (after (seeded ++ coldGap ++ [.tick 4002000000 2 0])).usage = 4000 := by
    decide +kernel
  have hticks : warmSeconds 2000000 5800000
      (after (seeded ++ [.tick 3900000 1 0, .tick 5800000 1 0])).usage = 2 := by decide +kernel
  refine ⟨⟨after (seeded ++ coldGap), after (seeded ++ coldGap ++ [.tick 4002000000 2 0]), run_of_play hrun, rfl, ?_⟩,
    after (seeded ++ [.tick 3900000 1 0]), after (seeded ++ [.tick 3900000 1 0, .tick 5800000 1 0]), rfl,
    by decide, by decide, rfl, ?_⟩
  · rw [hbox, hgap]
    decide
  · rw [hticks]
    decide

end Meter

end OpenGeni.Db
