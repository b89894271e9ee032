/-
A session that waits for Codex capacity, and its resume.

`reconcileCodexCapacityWait` looks at one waiter again, for a timer or a signal: it supersedes
the wait if anything has changed, goes on waiting if there is still no credential, and
otherwise puts one continuation turn on the queue. `validateCodexCapacityResumeTurn` checks
that turn once more after its claim. `withCodexCapacityMutation` raises the wake revision of
the waiters that it may concern, and a waiter whose revision has not been observed is pending.
All of them but the validation hold the rotation row of the workspace, and so follow one
another.
-/
import OpenGeni.Db.CodexSettlement

namespace OpenGeni.Db

/-! ## Mutations and wake targets -/

/-- The hash that a mutation names, if it names one. The inner `none` is SQL's `null`. -/
def CapacityWaiter.matchesPolicy (policyHash : Option (Option String)) (w : CapacityWaiter) : Bool :=
  policyHash.all (· == w.policyHash)

def CapacityWaiter.wake (reason : String) (policyHash : Option (Option String)) (w : CapacityWaiter) : CapacityWaiter :=
  if w.status == .waiting && w.matchesPolicy policyHash then
    { w with wakeRevision := w.wakeRevision + 1, lastWakeReason := reason }
  else
    w

/-- What `listPendingCodexCapacityWakeTargets` selects. -/
def CapacityWaiter.pendingWake (w : CapacityWaiter) : Bool :=
  w.status == .waiting && w.observedWakeRevision < w.wakeRevision

/-! ## reconcileCodexCapacityWait -/

structure ReconcileInput where
  sessionId : ℕ
  waiterId : ℕ
  generation : ℕ
  turnId : ℕ
  supersededEventId : ℕ
  continuationEventId : ℕ
  resumedEventId : ℕ
  queuedEventId : ℕ
  statusEventId : ℕ

/-- The answer of the `decide` callback. -/
inductive CapacityAvailability
  | available
  | unavailable (earliestResetAt : Option ℕ) (resetKind : CapacityResetKind)

inductive ReconcileAction
  | stale
  | superseded (reason : String)
  | waiting
  | resumed (turnId : ℕ)
deriving DecidableEq

def SessionTurnStatus.pending (status : SessionTurnStatus) : Bool := status == .queued || status.live

def supersedeReason (t : SessionTables) (w : CapacityWaiter) (goal : GoalRow) (blockedTurn : TurnRow) : Option String :=
  if goal.status ≠ .active ∨ goal.version ≠ w.goalVersion then some "goal_changed"
  else if codexCapacityControlGenerationFromTurnMetadata blockedTurn.metadata ≠ w.controlGeneration then
    some "control_generation_changed"
  else if codexCapacityPolicyHashFromTurnMetadata blockedTurn.metadata ≠ w.policyHash then
    some "credential_policy_changed"
  else if t.session.status ≠ .idle ∨ t.session.activeTurnId ≠ none then some "session_not_capacity_idle"
  else if blockedTurn.status ≠ .failed then some "blocked_turn_changed"
  else if t.turns.any (·.status.pending) then some "pending_work_exists"
  else if t.turns.any fun turn => blockedTurn.position < turn.position then some "newer_turn_exists"
  else none

def supersedeCodexCapacityWaitInTransaction (eventId : ℕ) (reason : String) (w : CapacityWaiter) (t : SessionTables) :
    SessionTables :=
  let t := { t with
    waiter := some
      { w with status := .superseded, observedWakeRevision := w.wakeRevision, lastWakeReason := reason } }
  t.append
    [{ id := eventId, type := .capacitySuperseded, payload := .none, clientEventId := none
       turnId := some w.blockedTurnId }]

def capacityResumePrompt (goal : GoalRow) : String := "\n".intercalate
    ["[CODEX CAPACITY RESUME] Codex subscription capacity is available again.",
     "Continue the existing active goal from durable conversation history: " ++ goal.text,
     "Success criteria: " ++ goal.successCriteria.getD "none specified" ++ ".",
     "Do not replay completed tool side effects; verify any ambiguous in-flight effect before repeating it.",
     "If the goal is complete, call opengeni__goal_complete. If blocked for another reason, call opengeni__goal_pause."]

/-- The metadata of the blocked turn, without the budgets it has used. -/
def continuationMetadata (w : CapacityWaiter) (blockedTurn : TurnRow) : TurnMetadata := { blockedTurn.metadata with
    workerDeathRedispatches := none
    codexCredentialFailovers := none
    codexCapacityWaiter := some (w.id, w.generation) }

def ReconcileInput.resume (now : ℕ) (input : ReconcileInput) (w : CapacityWaiter) (goal : GoalRow)
    (blockedTurn : TurnRow) (t : SessionTables) : SessionTables :=
  let prompt := capacityResumePrompt goal
  let position := nextTurnPosition t.turns
  let t := t.append
    [{ id := input.continuationEventId, type := .goalContinuation
       payload := { EventPayload.none with text := some prompt }, clientEventId := none, turnId := none },
     { id := input.resumedEventId, type := .capacityResumed, payload := .none, clientEventId := none
       turnId := some input.turnId },
     { id := input.queuedEventId, type := .turnQueued, payload := .none, clientEventId := none
       turnId := some input.turnId },
     { id := input.statusEventId, type := .statusChanged, payload := .none, clientEventId := none
       turnId := some input.turnId }]
  { t with
    turns := t.turns ++
      [{ id := input.turnId, triggerEventId := input.continuationEventId, status := .queued, source := .goal
         position, prompt, metadata := continuationMetadata w blockedTurn, startedAt := none, finishedAt := none
         createdAt := now }]
    waiter := some
      { w with
        status := .resumed
        resumedTurnId := some input.turnId
        observedWakeRevision := w.wakeRevision
        lastWakeReason := "capacity_available" }
    goal := some
      { goal with
        lastContinuationTurnId := some input.turnId
        versionAtLastContinuation := some goal.version }
    session := { t.session with status := .queued, activeTurnId := none } }

def CapacityWaiter.recheck (now : ℕ) (earliestResetAt : Option ℕ) (resetKind : CapacityResetKind)
    (w : CapacityWaiter) : CapacityWaiter :=
  let refreshAttempt := if resetKind = .boundedRefresh then w.refreshAttempt + 1 else 0
  { w with
    earliestResetAt
    nextCheckAt := nextCodexCapacityCheckAt earliestResetAt resetKind refreshAttempt now
    resetKind
    refreshAttempt
    observedWakeRevision := w.wakeRevision }

/-- The waiter that a reconcile is about, with its goal and its blocked turn. -/
def ReconcileInput.rows (input : ReconcileInput) (t : SessionTables) : Option (CapacityWaiter × GoalRow × TurnRow) := do
  let w ← t.waiter.filter fun w => input.sessionId == t.session.id && w.id == input.waiterId &&
    w.generation == input.generation && w.status == .waiting
  let goal ← t.goal.filter (·.id == w.goalId)
  let blockedTurn ← t.turn? w.blockedTurnId
  pure (w, goal, blockedTurn)

def reconcileCodexCapacityWait (now : ℕ) (rotation : Bool) (input : ReconcileInput) (decision : CapacityAvailability)
    (t : SessionTables) : SessionTables × ReconcileAction :=
  if ¬ rotation then (t, .stale)
  else
    match input.rows t with
    | none => (t, .stale)
    | some (w, goal, blockedTurn) =>
      match supersedeReason t w goal blockedTurn with
      | some reason =>
        (supersedeCodexCapacityWaitInTransaction input.supersededEventId reason w t, .superseded reason)
      | none =>
        match decision with
        | .unavailable earliestResetAt resetKind =>
          ({ t with waiter := some (w.recheck now earliestResetAt resetKind) }, .waiting)
        | .available => (input.resume now w goal blockedTurn t, .resumed input.turnId)

variable {w : CapacityWaiter}

theorem supersedeReason_none {t : SessionTables} {goal : GoalRow} {blockedTurn : TurnRow}
    (h : supersedeReason t w goal blockedTurn = none) :
    goal.status = .active ∧ goal.version = w.goalVersion ∧
      ∀ turn ∈ t.turns, turn.status.pending = false ∧ turn.position ≤ blockedTurn.position := by
  unfold supersedeReason at h
  by_cases hgoal : goal.status ≠ .active ∨ goal.version ≠ w.goalVersion
  · rw [if_pos hgoal] at h
    cases h
  rw [if_neg hgoal] at h
  obtain ⟨hactive, hversion⟩ := not_or.1 hgoal
  refine ⟨not_not.1 hactive, not_not.1 hversion, ?_⟩
  split at h
  · cases h
  split at h
  · cases h
  split at h
  · cases h
  split at h
  · cases h
  split at h
  · cases h
  case isFalse hpending =>
    split at h
    · cases h
    case isFalse hlater =>
      intro turn hturn
      refine ⟨?_, ?_⟩
      · by_contra hstatus
        exact hpending (List.any_eq_true.2 ⟨turn, hturn, by simpa using hstatus⟩)
      · by_contra hposition
        exact hlater (List.any_eq_true.2 ⟨turn, hturn, by simpa using hposition⟩)

theorem ReconcileInput.rows_spec {input : ReconcileInput} {t : SessionTables} {goal : GoalRow}
    {blockedTurn : TurnRow} (h : input.rows t = some (w, goal, blockedTurn)) :
    t.waiter = some w ∧ w.id = input.waiterId ∧ w.generation = input.generation ∧ w.status = .waiting ∧
      t.goal = some goal ∧ goal.id = w.goalId ∧ t.turn? w.blockedTurnId = some blockedTurn := by
  obtain ⟨w', hw, h⟩ := Option.bind_eq_some_iff.1 h
  obtain ⟨goal', hgoal, h⟩ := Option.bind_eq_some_iff.1 h
  obtain ⟨blockedTurn', hblocked, h⟩ := Option.bind_eq_some_iff.1 h
  cases h
  obtain ⟨hwaiter, hfound⟩ := Option.filter_eq_some_iff.1 hw
  obtain ⟨hsome, hgoalId⟩ := Option.filter_eq_some_iff.1 hgoal
  simp only [Bool.and_eq_true, beq_iff_eq] at hfound
  exact ⟨hwaiter, hfound.1.1.2, hfound.1.2, hfound.2, hsome, by simpa using hgoalId, hblocked⟩

theorem reconcileCodexCapacityWait_cases (now : ℕ) (rotation : Bool) (input : ReconcileInput)
    (decision : CapacityAvailability) (t : SessionTables) :
    reconcileCodexCapacityWait now rotation input decision t = (t, .stale) ∨
      ∃ w goal blockedTurn, input.rows t = some (w, goal, blockedTurn) ∧
        ((∃ reason, reconcileCodexCapacityWait now rotation input decision t =
            (supersedeCodexCapacityWaitInTransaction input.supersededEventId reason w t, .superseded reason)) ∨
          (∃ earliestResetAt resetKind, reconcileCodexCapacityWait now rotation input decision t =
            ({ t with waiter := some (w.recheck now earliestResetAt resetKind) }, .waiting)) ∨
          (supersedeReason t w goal blockedTurn = none ∧ reconcileCodexCapacityWait now rotation input decision t =
            (input.resume now w goal blockedTurn t, .resumed input.turnId))) := by
  unfold reconcileCodexCapacityWait
  by_cases hrotation : rotation = true
  case neg =>
    rw [if_pos hrotation]
    exact .inl rfl
  rw [if_neg (not_not.2 hrotation)]
  cases hrows : input.rows t with
  | none => exact .inl rfl
  | some found =>
    obtain ⟨w, goal, blockedTurn⟩ := found
    refine .inr ⟨w, goal, blockedTurn, rfl, ?_⟩
    dsimp only
    cases hreason : supersedeReason t w goal blockedTurn with
    | some reason => exact .inl ⟨reason, rfl⟩
    | none =>
      cases decision with
      | unavailable earliestResetAt resetKind => exact .inr (.inl ⟨earliestResetAt, resetKind, rfl⟩)
      | available => exact .inr (.inr ⟨rfl, rfl⟩)

/-! ## validateCodexCapacityResumeTurn -/

structure ValidateInput where
  sessionId : ℕ
  turnId : ℕ
  waiterId : ℕ
  generation : ℕ
  supersededEventId : ℕ
  cancelledEventId : ℕ
  statusEventId : ℕ

def ValidateInput.valid (input : ValidateInput) (t : SessionTables) : Bool :=
  match t.turn? input.turnId, t.waiter.filter (·.id == input.waiterId) with
  | some turn, some w =>
    (t.goal.filter (·.id == w.goalId)).any fun goal =>
      turn.status == .running && t.session.activeTurnId == some input.turnId && w.status == .resumed &&
        w.resumedTurnId == some input.turnId && w.generation == input.generation &&
        !(t.turns.any fun other => other.status.pending && other.id != input.turnId) &&
        goal.status == .active && goal.version == w.goalVersion &&
        codexCapacityControlGenerationFromTurnMetadata turn.metadata == w.controlGeneration &&
        codexCapacityPolicyHashFromTurnMetadata turn.metadata == w.policyHash
  | _, _ => false

def ValidateInput.staleWaiter (input : ValidateInput) (w : CapacityWaiter) : CapacityWaiter :=
  if w.id == input.waiterId && w.status == .resumed && w.resumedTurnId == some input.turnId then
    { w with
      status := .superseded
      observedWakeRevision := w.wakeRevision
      lastWakeReason := "resume_claim_fence_changed" }
  else
    w

def validateCodexCapacityResumeTurn (now : ℕ) (input : ValidateInput) (t : SessionTables) : SessionTables × Bool :=
  if input.sessionId ≠ t.session.id then (t, false)
  else if input.valid t then (t, true)
  else if ¬ (t.turn? input.turnId).any (·.status == .running) then (t, false)
  else
    let otherPending := t.turns.any fun other => other.status.pending && other.id != input.turnId
    let active := t.session.activeTurnId = some input.turnId
    let t := { t with waiter := t.waiter.map input.staleWaiter }
    let t := t.updateTurn input.turnId fun turn => { turn with status := .cancelled, finishedAt := some now }
    if active then
      let t := t.append
        [{ id := input.supersededEventId, type := .capacitySuperseded, payload := .none, clientEventId := none
           turnId := some input.turnId },
         { id := input.cancelledEventId, type := .turnCancelled, payload := .none, clientEventId := none
           turnId := some input.turnId },
         { id := input.statusEventId, type := .statusChanged, payload := .none, clientEventId := none
           turnId := some input.turnId }]
      ({ t with
          session :=
            { t.session with
              status := if otherPending then .queued else .idle
              activeTurnId := none } }, false)
    else
      (t, false)

def CapacityWaiter.Continues (w w' : CapacityWaiter) : Prop := w.id = w'.id ∧ w.generation = w'.generation ∧
    (w'.status = .waiting → w.status = .waiting ∧ w.goalId = w'.goalId ∧ w.goalVersion = w'.goalVersion ∧
      w.blockedTurnId = w'.blockedTurnId)

theorem CapacityWaiter.Continues.refl (w : CapacityWaiter) : w.Continues w :=
  ⟨rfl, rfl, fun h => ⟨h, rfl, rfl, rfl⟩⟩

theorem CapacityWaiter.recheck_continues (now : ℕ) (earliestResetAt : Option ℕ) (resetKind : CapacityResetKind)
    (w : CapacityWaiter) : w.Continues (w.recheck now earliestResetAt resetKind) :=
  ⟨rfl, rfl, fun h => ⟨h, rfl, rfl, rfl⟩⟩

theorem ValidateInput.staleWaiter_spec (input : ValidateInput) (w : CapacityWaiter) :
    input.staleWaiter w = w ∨ (input.staleWaiter w).id = w.id ∧
      (input.staleWaiter w).generation = w.generation ∧ (input.staleWaiter w).status ≠ .waiting := by
  unfold staleWaiter
  split
  · exact .inr ⟨rfl, rfl, CapacityWaitStatus.noConfusion⟩
  · exact .inl rfl

theorem validateCodexCapacityResumeTurn_frame (now : ℕ) (input : ValidateInput) (t : SessionTables) :
    (validateCodexCapacityResumeTurn now input t).1.goal = t.goal ∧
      ((validateCodexCapacityResumeTurn now input t).1.waiter = t.waiter ∨
        (validateCodexCapacityResumeTurn now input t).1.waiter = t.waiter.map input.staleWaiter) ∧
      ∃ f : TurnRow → TurnRow, (∀ row, (f row).id = row.id ∧ (f row).position = row.position) ∧
        (validateCodexCapacityResumeTurn now input t).1.turns = t.turns.map f := by
  have hsame : t.KeepsPositions t := .refl t
  have hcancel := updateTurns_keepsPositions t (·.id == input.turnId)
    (f := fun turn => { turn with status := .cancelled, finishedAt := some now }) fun _ => ⟨rfl, rfl⟩
  unfold validateCodexCapacityResumeTurn
  split
  · exact ⟨rfl, .inl rfl, hsame.turns⟩
  split
  · exact ⟨rfl, .inl rfl, hsame.turns⟩
  split
  · exact ⟨rfl, .inl rfl, hsame.turns⟩
  dsimp only
  split
  · exact ⟨rfl, .inr rfl, hcancel.turns⟩
  · exact ⟨rfl, .inr rfl, hcancel.turns⟩

theorem validateCodexCapacityResumeTurn_waiter (now : ℕ) (input : ValidateInput)
    (t : SessionTables) (hw : (validateCodexCapacityResumeTurn now input t).1.waiter = some w) :
    ∃ w₀ ∈ t.waiter, w₀.Continues w ∧ (w.status = .waiting → w₀ = w) := by
  obtain ⟨-, hwaiter, -⟩ := validateCodexCapacityResumeTurn_frame now input t
  rcases hwaiter with hsame | hmap
  · exact ⟨w, by rw [← hsame, hw]; rfl, .refl w, fun _ => rfl⟩
  · rw [hmap] at hw
    obtain ⟨w₀, hw₀, rfl⟩ := Option.map_eq_some_iff.1 hw
    refine ⟨w₀, hw₀, ?_⟩
    rcases input.staleWaiter_spec w₀ with hsame | ⟨hid, hgeneration, hstatus⟩
    · rw [hsame]
      exact ⟨.refl w₀, fun _ => rfl⟩
    · exact ⟨⟨hid.symm, hgeneration.symm, fun hwaiting => absurd hwaiting hstatus⟩,
        fun hwaiting => absurd hwaiting hstatus⟩

end OpenGeni.Db
