/-
The ends of a turn that a Codex credential decides.

A turn that has lost its credential is put back on the queue (`settleCodexCredentialFailover`,
`settleCodexCredentialLeaseLoss`), or it fails and the session waits for capacity
(`armCodexCapacityWait`). Each is called by the activity that runs the turn, which may be a
zombie by then, so each first compares what the caller has seen with what the rows are now.
An answer other than `stale` is the only one that writes.
-/
import OpenGeni.Db.SessionTables

namespace OpenGeni.Db

def CredentialLease.live (now : ℕ) (lease : CredentialLease) : Bool := now < lease.leasedUntil

def SessionTables.lease? (turnId : ℕ) (t : SessionTables) : Option CredentialLease :=
  t.leases.find? (·.turnId == turnId)

structure LeaseFence where
  holderId : String
  generation : ℕ

def CredentialLease.isOf (fence : LeaseFence) (lease : CredentialLease) : Bool :=
  lease.holderId == fence.holderId && lease.generation == fence.generation

def SessionTables.dropLease (p : CredentialLease → Bool) (t : SessionTables) : SessionTables :=
  { t with leases := t.leases.filter fun lease => !p lease }

/-- `update sessions set .. where id = .. and active_turn_id = ..`. -/
def SessionTables.releaseSession (turnId : ℕ) (status : SessionStatus) (t : SessionTables) : SessionTables :=
  if t.session.activeTurnId = some turnId then
    { t with session := { t.session with status, activeTurnId := none } }
  else
    t

@[simp] theorem SessionTables.releaseSession_turns (turnId : ℕ) (status : SessionStatus) (t : SessionTables) :
    (t.releaseSession turnId status).turns = t.turns := by
  unfold releaseSession
  split <;> rfl

/-! ## settleCodexCredentialLeaseLoss -/

structure SettleLeaseLossInput where
  sessionId : ℕ
  turnId : ℕ
  originalTriggerEventId : ℕ
  fence : LeaseFence
  expectedRedispatches : ℕ
  checkpointDurable : Bool
  resumeWithNotice : Bool
  preemptedPayload : EventPayload
  failedPayload : EventPayload
  settlementEventId : ℕ
  statusEventId : ℕ

inductive SettleAction
  | requeued | failed | stale | limitExceeded
deriving DecidableEq

/-- `none` throws, before the transaction. -/
def settleCodexCredentialLeaseLoss (now : ℕ) (input : SettleLeaseLossInput) (t : SessionTables) :
    Option (SessionTables × SettleAction) :=
  if input.resumeWithNotice ∧ ¬ input.checkpointDurable then none
  else
    match if input.sessionId = t.session.id then t.turn? input.turnId else none with
    | none => some (t, .stale)
    | some turn =>
      if ¬ turn.status.live ∨ turn.redispatches ≠ input.expectedRedispatches then some (t, .stale)
      else if t.session.activeTurnId ≠ some input.turnId then some (t, .stale)
      else if (t.lease? input.turnId).any fun lease => !lease.isOf input.fence then some (t, .stale)
      else
        let t := t.append
          [{ id := input.settlementEventId, type := if input.checkpointDurable then .turnPreempted else .turnFailed
             payload := if input.checkpointDurable then input.preemptedPayload else input.failedPayload
             clientEventId := none, turnId := some input.turnId },
           { id := input.statusEventId, type := .statusChanged, payload := .none, clientEventId := none
             turnId := some input.turnId }]
        let t := t.updateTurn input.turnId fun turn =>
          if input.checkpointDurable then
            { turn with
              status := .queued
              triggerEventId :=
                if input.resumeWithNotice then input.settlementEventId else input.originalTriggerEventId
              startedAt := none
              finishedAt := none }
          else
            { turn with status := .failed, finishedAt := some now }
        let t := t.releaseSession input.turnId (if input.checkpointDurable then .queued else .failed)
        let t := t.dropLease fun lease => lease.turnId == input.turnId && lease.isOf input.fence
        some (t, if input.checkpointDurable then .requeued else .failed)

/-! ## settleCodexCredentialFailover -/

structure SettleFailoverInput where
  sessionId : ℕ
  turnId : ℕ
  originalTriggerEventId : ℕ
  fence : LeaseFence
  maxFailovers : ℕ
  resumeWithNotice : Bool
  preemptedPayload : EventPayload
  preemptedEventId : ℕ
  statusEventId : ℕ

def TurnRow.failovers (turn : TurnRow) : ℕ := turn.metadata.codexCredentialFailovers.getD 0

/-- `none` throws, before the transaction. -/
def settleCodexCredentialFailover (now : ℕ) (input : SettleFailoverInput) (t : SessionTables) :
    Option (SessionTables × SettleAction) :=
  if input.maxFailovers < 1 then none
  else
    match if input.sessionId = t.session.id then t.turn? input.turnId else none with
    | none => some (t, .stale)
    | some turn =>
      if ¬ turn.status.live then some (t, .stale)
      else if t.session.activeTurnId ≠ some input.turnId then some (t, .stale)
      else if ¬ t.leases.any fun lease => lease.turnId == input.turnId && lease.isOf input.fence && lease.live now then
        some (t, .stale)
      else if input.maxFailovers < turn.failovers + 1 then some (t, .limitExceeded)
      else
        let t := t.append
          [{ id := input.preemptedEventId, type := .turnPreempted, payload := input.preemptedPayload
             clientEventId := none, turnId := some input.turnId },
           { id := input.statusEventId, type := .statusChanged, payload := .none, clientEventId := none
             turnId := some input.turnId }]
        let t := t.updateTurn input.turnId fun row =>
          { row with
            status := .queued
            triggerEventId :=
              if input.resumeWithNotice then input.preemptedEventId else input.originalTriggerEventId
            metadata := { turn.metadata with codexCredentialFailovers := some (turn.failovers + 1) }
            startedAt := none
            finishedAt := none }
        let t := t.releaseSession input.turnId .queued
        let t := t.dropLease fun lease => lease.turnId == input.turnId && lease.isOf input.fence
        some (t, .requeued)

theorem failover_cases {now : ℕ} {input : SettleFailoverInput} {t : SessionTables} {result : SessionTables × SettleAction}
    (h : settleCodexCredentialFailover now input t = some result) :
    (result.1 = t ∧ result.2 ≠ .requeued) ∨
      result.2 = .requeued ∧ ∃ turn, t.turn? input.turnId = some turn ∧ turn.status.live = true ∧
        ∃ triggerEventId metadata, result.1.turns = t.turns.map fun row =>
          if row.id == input.turnId then
            { row with status := .queued, triggerEventId, metadata, startedAt := none, finishedAt := none }
          else row := by
  unfold settleCodexCredentialFailover at h
  by_cases hmax : input.maxFailovers < 1
  · rw [if_pos hmax] at h
    cases h
  rw [if_neg hmax] at h
  have hstale : some (t, SettleAction.stale) = some result → result.1 = t ∧ result.2 ≠ .requeued := by
    intro heq
    cases heq
    exact ⟨rfl, SettleAction.noConfusion⟩
  by_cases hid : input.sessionId = t.session.id
  case neg =>
    rw [if_neg hid] at h
    exact .inl (hstale h)
  rw [if_pos hid] at h
  cases hturn : t.turn? input.turnId with
  | none =>
    rw [hturn] at h
    exact .inl (hstale h)
  | some turn =>
    rw [hturn] at h
    dsimp only at h
    by_cases hlive : ¬ turn.status.live = true
    · rw [if_pos hlive] at h
      exact .inl (hstale h)
    rw [if_neg hlive] at h
    by_cases hactive : t.session.activeTurnId ≠ some input.turnId
    · rw [if_pos hactive] at h
      exact .inl (hstale h)
    rw [if_neg hactive] at h
    by_cases hlease : ¬ (t.leases.any fun lease =>
        lease.turnId == input.turnId && lease.isOf input.fence && lease.live now) = true
    · rw [if_pos hlease] at h
      exact .inl (hstale h)
    rw [if_neg hlease] at h
    by_cases hlimit : input.maxFailovers < turn.failovers + 1
    · rw [if_pos hlimit] at h
      cases h
      exact .inl ⟨rfl, SettleAction.noConfusion⟩
    rw [if_neg hlimit] at h
    cases h
    refine .inr ⟨rfl, turn, rfl, not_not.1 hlive,
      if input.resumeWithNotice then input.preemptedEventId else input.originalTriggerEventId,
      { turn.metadata with codexCredentialFailovers := some (turn.failovers + 1) }, ?_⟩
    unfold SessionTables.dropLease
    rw [SessionTables.releaseSession_turns]
    rfl

/-! ## armCodexCapacityWait -/

def codexCapacityPolicyHashFromTurnMetadata (metadata : TurnMetadata) : Option String :=
  metadata.codexCredentialPolicyHash.filter (· ≠ "")

def codexCapacityControlGenerationFromTurnMetadata (metadata : TurnMetadata) : ℕ :=
  metadata.sessionControlGeneration.getD 0

def codexCapacityRefreshBackoffMs (attempt : ℕ) : ℕ := min (60000 * 2 ^ attempt) 900000

def nextCodexCapacityCheckAt (earliestResetAt : Option ℕ) (resetKind : CapacityResetKind)
    (refreshAttempt now : ℕ) : ℕ :=
  match resetKind, earliestResetAt with
  | .authoritative, some resetAt =>
    if now < resetAt then resetAt else now + codexCapacityRefreshBackoffMs refreshAttempt
  | _, _ => now + codexCapacityRefreshBackoffMs refreshAttempt

structure ArmInput where
  sessionId : ℕ
  turnId : ℕ
  goalId : ℕ
  goalVersion : ℕ
  controlGeneration : ℕ
  policyHash : Option String
  earliestResetAt : Option ℕ
  resetKind : CapacityResetKind
  failurePayload : EventPayload
  /-- There for reactive failures, which own a lease. -/
  leaseFence : Option LeaseFence
  expectedRedispatches : Option ℕ
  waiterId : ℕ
  failedEventId : ℕ
  waitingEventId : ℕ
  statusEventId : ℕ

inductive ArmAction
  | waiting | stale

/-- The check of the caller's lease. The counter is compared where there is a lease to check. -/
def ArmInput.leaseFenceValid (now : ℕ) (input : ArmInput) (t : SessionTables) (turn : TurnRow) : Bool :=
  match input.leaseFence with
  | none => true
  | some fence =>
    (t.leases.find? fun lease => lease.turnId == input.turnId && lease.live now).any (·.isOf fence) &&
      turn.redispatches == input.expectedRedispatches.getD turn.redispatches

def ArmInput.fresh (input : ArmInput) (t : SessionTables) (goal : GoalRow) (turn : TurnRow) : Bool :=
  t.session.activeTurnId == some input.turnId && t.session.status == .running && goal.status == .active &&
    goal.version == input.goalVersion && turn.status == .running &&
    codexCapacityControlGenerationFromTurnMetadata turn.metadata == input.controlGeneration &&
    codexCapacityPolicyHashFromTurnMetadata turn.metadata ==
      input.policyHash.or (codexCapacityPolicyHashFromTurnMetadata turn.metadata)

def ArmInput.waiter (now : ℕ) (input : ArmInput) (t : SessionTables) (turn : TurnRow) : CapacityWaiter :=
  let wakeRevision := (t.waiter.map (·.wakeRevision)).getD 0 + 1
  { id := (t.waiter.map (·.id)).getD input.waiterId, goalId := input.goalId, blockedTurnId := input.turnId
    generation := (t.waiter.map (·.generation)).getD 0 + 1, status := .waiting, goalVersion := input.goalVersion
    controlGeneration := input.controlGeneration
    policyHash := input.policyHash.or (codexCapacityPolicyHashFromTurnMetadata turn.metadata)
    earliestResetAt := input.earliestResetAt
    nextCheckAt := nextCodexCapacityCheckAt input.earliestResetAt input.resetKind 0 now
    resetKind := input.resetKind, refreshAttempt := 0, wakeRevision, observedWakeRevision := wakeRevision
    lastWakeReason := "capacity_wait_armed", resumedTurnId := none }

def ArmInput.arm (now : ℕ) (input : ArmInput) (t : SessionTables) (turn : TurnRow) : SessionTables :=
  let t := { t with waiter := some (input.waiter now t turn) }
  let t := t.append
    [{ id := input.failedEventId, type := .turnFailed
       payload := { input.failurePayload with rotated := true, recovery := some "codex_capacity" }
       clientEventId := none, turnId := some input.turnId },
     { id := input.waitingEventId, type := .capacityWaiting, payload := .none, clientEventId := none
       turnId := some input.turnId },
     { id := input.statusEventId, type := .statusChanged, payload := .none, clientEventId := none
       turnId := some input.turnId }]
  let t := t.updateTurns (fun turn => turn.id == input.turnId && turn.status == .running) fun turn =>
    { turn with status := .failed, finishedAt := some now }
  let t := t.releaseSession input.turnId .idle
  t.dropLease (·.turnId == input.turnId)

theorem ArmInput.arm_waiter (now : ℕ) (input : ArmInput) (t : SessionTables) (turn : TurnRow) :
    (input.arm now t turn).waiter = some (input.waiter now t turn) := by
  unfold arm SessionTables.releaseSession
  dsimp only
  split <;> rfl

theorem ArmInput.arm_frame (now : ℕ) (input : ArmInput) (t : SessionTables) (turn : TurnRow) :
    (input.arm now t turn).goal = t.goal ∧
      ∃ f : TurnRow → TurnRow, (∀ row, (f row).id = row.id ∧ (f row).position = row.position) ∧
        (input.arm now t turn).turns = t.turns.map f := by
  obtain ⟨f, hf, hturns⟩ := (updateTurns_keepsPositions t
    (fun turn => turn.id == input.turnId && turn.status == .running)
    (f := fun turn => { turn with status := .failed, finishedAt := some now }) fun _ => ⟨rfl, rfl⟩).turns
  refine ⟨?_, f, hf, ?_⟩
  · unfold arm SessionTables.releaseSession
    dsimp only
    split <;> rfl
  · rw [← hturns]
    unfold arm SessionTables.dropLease
    rw [SessionTables.releaseSession_turns]
    rfl

/-- `rotation` says whether the workspace has its rotation row. -/
def armCodexCapacityWait (now : ℕ) (rotation : Bool) (input : ArmInput) (t : SessionTables) :
    SessionTables × ArmAction :=
  if ¬ rotation then (t, .stale)
  else
    let found := input.sessionId = t.session.id
    let turn? := if found then t.turn? input.turnId else none
    let goal? := if found then t.goal.filter (·.id == input.goalId) else none
    if (t.waiter.any fun w => found && w.status == .waiting && w.blockedTurnId == input.turnId) &&
        turn?.any (·.status == .failed) then
      (t, .waiting)
    else
      match goal?, turn? with
      | some goal, some turn =>
        if input.fresh t goal turn && input.leaseFenceValid now t turn then (input.arm now t turn, .waiting)
        else (t, .stale)
      | _, _ => (t, .stale)

theorem armCodexCapacityWait_cases (now : ℕ) (rotation : Bool) (input : ArmInput) (t : SessionTables) :
    (armCodexCapacityWait now rotation input t).1 = t ∨
      ∃ goal turn, rotation = true ∧ input.sessionId = t.session.id ∧ t.goal = some goal ∧
        goal.id = input.goalId ∧ t.turn? input.turnId = some turn ∧ input.fresh t goal turn = true ∧
        input.leaseFenceValid now t turn = true ∧
        armCodexCapacityWait now rotation input t = (input.arm now t turn, .waiting) := by
  unfold armCodexCapacityWait
  by_cases hrotation : rotation = true
  case neg =>
    rw [if_pos hrotation]
    exact .inl rfl
  rw [if_neg (not_not.2 hrotation)]
  by_cases hid : input.sessionId = t.session.id
  case neg =>
    -- no row of the session is found
    left
    simp [hid]
  simp only [hid, if_true, decide_true, Bool.true_and]
  split
  · exact .inl rfl
  cases hgoal : t.goal.filter (·.id == input.goalId) with
  | none => exact .inl rfl
  | some goal =>
    cases hturn : t.turn? input.turnId with
    | none => exact .inl rfl
    | some turn =>
      dsimp only
      obtain ⟨hsome, hgoalId⟩ := Option.filter_eq_some_iff.1 hgoal
      split
      case isFalse => exact .inl rfl
      case isTrue hchecks =>
        obtain ⟨hfresh, hfence⟩ := Bool.and_eq_true_iff.1 hchecks
        exact .inr ⟨goal, turn, hrotation, trivial, hsome, by simpa using hgoalId, rfl, hfresh, hfence, rfl⟩

end OpenGeni.Db
