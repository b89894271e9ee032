/-
What a zombie can still do to its turn.

A turn whose worker died is dispatched again, and its counter of deaths is raised first. The
old activity may run on for a while. The calls with which it could settle the turn carry the
counter that it has seen, and they compare it with the counter of the row -- all but
`armCodexCapacityWait`, which compares it only together with a lease.
-/
import OpenGeni.Db.CodexSettlement

namespace OpenGeni.Db

/-! ## The calls -/

/-- A call of an activity that has seen the counter at `expectedRedispatches`. -/
inductive LateCall
  | cancelTurnFromDyingDispatch (turnId expectedRedispatches : ℕ)
  | settleCodexCredentialLeaseLoss (input : SettleLeaseLossInput)
  | armCodexCapacityWait (input : ArmInput) (expectedRedispatches : ℕ)
      (hexpected : input.expectedRedispatches = some expectedRedispatches)

namespace LateCall

def turnId : LateCall → ℕ
  | .cancelTurnFromDyingDispatch turnId _ => turnId
  | .settleCodexCredentialLeaseLoss input => input.turnId
  | .armCodexCapacityWait input _ _ => input.turnId

def expectedRedispatches : LateCall → ℕ
  | .cancelTurnFromDyingDispatch _ expectedRedispatches => expectedRedispatches
  | .settleCodexCredentialLeaseLoss input => input.expectedRedispatches
  | .armCodexCapacityWait _ expectedRedispatches _ => expectedRedispatches

def run (now : ℕ) (rotation : Bool) (t : SessionTables) : LateCall → SessionTables
  | .cancelTurnFromDyingDispatch turnId expectedRedispatches =>
    (Db.cancelTurnFromDyingDispatch now turnId expectedRedispatches t).1
  | .settleCodexCredentialLeaseLoss input => ((Db.settleCodexCredentialLeaseLoss now input t).map Prod.fst).getD t
  | .armCodexCapacityWait input _ _ => (Db.armCodexCapacityWait now rotation input t).1

/-- An arming that brings no lease, on a turn that runs under an active goal as the input says. -/
def Unfenced (rotation : Bool) (t : SessionTables) : LateCall → Prop
  | .armCodexCapacityWait input _ _ =>
    input.leaseFence = none ∧ rotation = true ∧ input.sessionId = t.session.id ∧
      ∃ goal ∈ t.goal, goal.id = input.goalId ∧ ∃ turn ∈ t.turn? input.turnId, input.fresh t goal turn = true
  | _ => False

end LateCall

def SessionTables.Superseded (t : SessionTables) (call : LateCall) : Prop :=
  ∀ turn ∈ t.turns, turn.id = call.turnId → call.expectedRedispatches < turn.redispatches

section

variable {now : ℕ} {rotation : Bool} {t : SessionTables} {turnId : ℕ} {turn : TurnRow}

theorem updateTurns_of_none {p : TurnRow → Bool} {f : TurnRow → TurnRow}
    (h : ∀ turn ∈ t.turns, p turn = false) : t.updateTurns p f = t := by
  have hmap : (t.turns.map fun turn => if p turn then f turn else turn) = t.turns := by
    rw [List.map_congr_left (g := id), List.map_id]
    intro turn hmem
    rw [h turn hmem]
    rfl
  unfold SessionTables.updateTurns
  rw [hmap]

/-! ## Each call -/

theorem cancelTurnFromDyingDispatch_superseded {expected : ℕ}
    (h : ∀ turn ∈ t.turns, turn.id = turnId → expected < turn.redispatches) :
    (cancelTurnFromDyingDispatch now turnId expected t).1 = t := by
  apply updateTurns_of_none
  intro turn hmem
  unfold TurnRow.ownedBy
  by_cases hid : turn.id = turnId
  · have hne : turn.redispatches ≠ expected := Nat.ne_of_gt (h turn hmem hid)
    simp [hne]
  · simp [hid]

theorem settleCodexCredentialLeaseLoss_superseded {input : SettleLeaseLossInput}
    (h : ∀ turn ∈ t.turns, turn.id = input.turnId → input.expectedRedispatches < turn.redispatches) :
    ((settleCodexCredentialLeaseLoss now input t).map Prod.fst).getD t = t := by
  unfold settleCodexCredentialLeaseLoss
  by_cases hthrow : input.resumeWithNotice = true ∧ ¬ input.checkpointDurable = true
  · rw [if_pos hthrow]
    rfl
  rw [if_neg hthrow]
  cases hturn : if input.sessionId = t.session.id then t.turn? input.turnId else none with
  | none => rfl
  | some turn =>
    have hfound : t.turn? input.turnId = some turn := by
      by_cases hid : input.sessionId = t.session.id
      · rwa [if_pos hid] at hturn
      · rw [if_neg hid] at hturn
        cases hturn
    obtain ⟨hmem, hid⟩ := mem_of_turn? hfound
    have hne : turn.redispatches ≠ input.expectedRedispatches := Nat.ne_of_gt (h turn hmem hid)
    dsimp only
    rw [if_pos (Or.inr hne)]
    rfl

theorem ArmInput.leaseFenceValid_superseded {input : ArmInput} {expected : ℕ}
    (hexpected : input.expectedRedispatches = some expected) (h : expected < turn.redispatches)
    (hvalid : input.leaseFenceValid now t turn = true) : input.leaseFence = none := by
  cases hfence : input.leaseFence with
  | none => rfl
  | some fence =>
    have hne : turn.redispatches ≠ expected := Nat.ne_of_gt h
    simp [leaseFenceValid, hfence, hexpected, hne] at hvalid

theorem ArmInput.arm_ne (now : ℕ) (input : ArmInput) (t : SessionTables) (turn : TurnRow) :
    input.arm now t turn ≠ t := by
  have hwaiter := input.arm_waiter now t turn
  have hgeneration : (input.waiter now t turn).generation = (t.waiter.map (·.generation)).getD 0 + 1 := rfl
  intro heq
  rw [heq] at hwaiter
  have hsame : (t.waiter.map (·.generation)).getD 0 = (input.waiter now t turn).generation :=
    congrArg (fun w : Option CapacityWaiter => (w.map (·.generation)).getD 0) hwaiter
  omega

theorem armCodexCapacityWait_unfenced {input : ArmInput} {goal : GoalRow} (hrotation : rotation = true)
    (hid : input.sessionId = t.session.id) (hgoal : t.goal = some goal) (hgoalId : goal.id = input.goalId)
    (hturn : t.turn? input.turnId = some turn) (hfresh : input.fresh t goal turn = true)
    (hfence : input.leaseFence = none) :
    armCodexCapacityWait now rotation input t = (input.arm now t turn, .waiting) := by
  have hrunning : turn.status = .running := by
    unfold ArmInput.fresh at hfresh
    simp only [Bool.and_eq_true, beq_iff_eq] at hfresh
    exact hfresh.1.1.2
  have hvalid : input.leaseFenceValid now t turn = true := by
    unfold ArmInput.leaseFenceValid
    rw [hfence]
  unfold armCodexCapacityWait
  simp [hrotation, hid, hgoal, hgoalId, hturn, hrunning, hfresh, hvalid, Option.filter]

theorem settleCodexCredentialFailover_of_no_lease {input : SettleFailoverInput}
    (h : ∀ lease ∈ t.leases, lease.turnId = input.turnId → lease.isOf input.fence = true → lease.live now = false) :
    ((settleCodexCredentialFailover now input t).map Prod.fst).getD t = t := by
  have hnone : (t.leases.any fun lease =>
      lease.turnId == input.turnId && lease.isOf input.fence && lease.live now) = false := by
    rw [List.any_eq_false]
    intro lease hmem hall
    simp only [Bool.and_eq_true, beq_iff_eq] at hall
    rw [h lease hmem hall.1.1 hall.1.2] at hall
    exact Bool.false_ne_true hall.2
  unfold settleCodexCredentialFailover
  split
  · rfl
  split
  · rfl
  split
  · rfl
  split
  · rfl
  -- the check of the lease fails
  rw [hnone]
  rfl

end

/-! ## All of them -/

/-- **A call of a superseded dispatch leaves all rows, but for an arming without a lease.** -/
theorem late_call_keeps_rows_iff (now : ℕ) (rotation : Bool) (t : SessionTables) (call : LateCall)
    (hsuper : t.Superseded call) (input : SettleFailoverInput) :
    (call.run now rotation t = t ↔ ¬ call.Unfenced rotation t) ∧
      ((∀ lease ∈ t.leases, lease.turnId = input.turnId → lease.isOf input.fence = true → lease.live now = false) →
        ((settleCodexCredentialFailover now input t).map Prod.fst).getD t = t) := by
  refine ⟨?_, settleCodexCredentialFailover_of_no_lease⟩
  cases call with
  | cancelTurnFromDyingDispatch turnId expected =>
    have hrun : (Db.cancelTurnFromDyingDispatch now turnId expected t).1 = t :=
      cancelTurnFromDyingDispatch_superseded hsuper
    exact ⟨fun _ => not_false, fun _ => hrun⟩
  | settleCodexCredentialLeaseLoss input =>
    have hrun : ((Db.settleCodexCredentialLeaseLoss now input t).map Prod.fst).getD t = t :=
      settleCodexCredentialLeaseLoss_superseded hsuper
    exact ⟨fun _ => not_false, fun _ => hrun⟩
  | armCodexCapacityWait input expected hexpected =>
    constructor
    · rintro hrun ⟨hfence, hrotation, hid, goal, hgoal, hgoalId, turn, hturn, hfresh⟩
      have harm : Db.armCodexCapacityWait now rotation input t = (input.arm now t turn, .waiting) :=
        armCodexCapacityWait_unfenced hrotation hid hgoal hgoalId hturn hfresh hfence
      have hrows : (armCodexCapacityWait now rotation input t).1 = t := hrun
      rw [harm] at hrows
      exact ArmInput.arm_ne now input t turn hrows
    · intro hfenced
      rcases armCodexCapacityWait_cases now rotation input t with
        hstale | ⟨goal, turn, hrotation, hid, hgoal, hgoalId, hturn, hfresh, hvalid, -⟩
      · exact hstale
      · -- a lease would have been checked together with the counter
        obtain ⟨hmem, hturnId⟩ := mem_of_turn? hturn
        have hfence := ArmInput.leaseFenceValid_superseded hexpected (hsuper turn hmem hturnId) hvalid
        exact absurd ⟨hfence, hrotation, hid, goal, hgoal, hgoalId, turn, hturn, hfresh⟩ hfenced

/-! ## A zombie without a lease -/

def aloneInQueue : SessionTables :=
  { session := { id := 1, status := .queued, activeTurnId := none, lastSequence := 0, passiveMode := false }
    turns :=
      [{ id := 7, triggerEventId := 3, status := .queued, source := .goal, position := 1, prompt := ""
         metadata := .none, startedAt := none, finishedAt := none, createdAt := 0 }]
    goal := some
      { id := 2, status := .active, text := "", successCriteria := none, version := 1, autoContinuations := 0
        noProgressStreak := 0, maxAutoContinuations := none, lastContinuationTurnId := none, versionAtLastContinuation := none }
    events := []
    leases := []
    waiter := none }

def afterWorkerDeath : Option SessionTables := do
  let claimed := (claimNextQueuedTurn 10 aloneInQueue).1
  let (counted, _) ← incrementTurnWorkerDeathRedispatches 7 claimed
  let requeued ← requeuePreemptedTurn 7 3 [.running] counted
  pure (claimNextQueuedTurn 20 requeued).1

/-- No credential could be allocated for the first attempt, so it has no lease. -/
def armWithoutLease : ArmInput :=
  { sessionId := 1, turnId := 7, goalId := 2, goalVersion := 1, controlGeneration := 0, policyHash := none
    earliestResetAt := none, resetKind := .boundedRefresh, failurePayload := .none, leaseFence := none
    expectedRedispatches := some 0, waiterId := 5, failedEventId := 11, waitingEventId := 12, statusEventId := 13 }

def failoverOfFirst : SettleFailoverInput :=
  { sessionId := 1, turnId := 7, originalTriggerEventId := 3, fence := { holderId := "", generation := 1 }
    maxFailovers := 3, resumeWithNotice := false, preemptedPayload := .none, preemptedEventId := 14
    statusEventId := 15 }

theorem late_arm_fails_successor :
    ∃ t ∈ afterWorkerDeath, t.Superseded (.armCodexCapacityWait armWithoutLease 0 rfl) ∧
      t.session.activeTurnId = some 7 ∧
      ((armCodexCapacityWait 30 true armWithoutLease t).1.turns.map (·.status)) = [.failed] ∧
      (armCodexCapacityWait 30 true armWithoutLease t).1 ≠ t := by
  have hrun : afterWorkerDeath = some (afterWorkerDeath.getD aloneInQueue) := by decide +kernel
  refine ⟨afterWorkerDeath.getD aloneInQueue, hrun, ?_, ?_, ?_, ?_⟩
  · unfold SessionTables.Superseded
    decide +kernel
  · decide +kernel
  · decide +kernel
  · decide +kernel

theorem late_call_keeps_rows_after_death :
    ∃ t ∈ afterWorkerDeath, t.Superseded (.cancelTurnFromDyingDispatch 7 0) ∧
      (LateCall.cancelTurnFromDyingDispatch 7 0).run 30 true t = t ∧
      ∀ input, ((settleCodexCredentialFailover 30 input t).map Prod.fst).getD t = t := by
  have hrun : afterWorkerDeath = some (afterWorkerDeath.getD aloneInQueue) := by decide +kernel
  have hsuper : (afterWorkerDeath.getD aloneInQueue).Superseded (.cancelTurnFromDyingDispatch 7 0) := by
    unfold SessionTables.Superseded
    decide +kernel
  have hleases : (afterWorkerDeath.getD aloneInQueue).leases = [] := by decide +kernel
  refine ⟨afterWorkerDeath.getD aloneInQueue, hrun, hsuper, ?_, ?_⟩
  · -- the failover's input does not matter here
    have hkeeps := late_call_keeps_rows_iff 30 true _ _ hsuper failoverOfFirst
    exact hkeeps.1.2 not_false
  · intro input
    apply (late_call_keeps_rows_iff 30 true _ _ hsuper input).2
    intro lease hlease
    rw [hleases] at hlease
    exact absurd hlease List.not_mem_nil

end OpenGeni.Db
