/-
The goal of a session and its automatic continuations.

A session has one goal row at most. Every edit raises its version, and so does every change of
status. `evaluateGoalContinuation` judges the last continuation turn and decides whether there
is another: it bumps the counters in its own transaction, and the turn is created later.
-/
import OpenGeni.Db.SessionTables

namespace OpenGeni.Db

/-! ## Editing the goal -/

structure CreateSessionGoalInput where
  id : ℕ
  text : String
  successCriteria : Option String
  maxAutoContinuations : Option ℕ

def CreateSessionGoalInput.row (input : CreateSessionGoalInput) : GoalRow :=
  { id := input.id, status := .active, text := input.text, successCriteria := input.successCriteria, version := 1
    autoContinuations := 0, noProgressStreak := 0, maxAutoContinuations := input.maxAutoContinuations
    lastContinuationTurnId := none, versionAtLastContinuation := none }

/-- `none` where the index of the sessions' goals refuses a second one. -/
def createSessionGoal (input : CreateSessionGoalInput) (t : SessionTables) : Option SessionTables :=
  match t.goal with
  | none => some { t with goal := some input.row }
  | some _ => none

def upsertSessionGoal (input : CreateSessionGoalInput) (t : SessionTables) : SessionTables := match t.goal with
  | none => { t with goal := some input.row }
  | some existing =>
    { t with
      goal := some { existing with
          status := .active
          text := input.text
          successCriteria := input.successCriteria
          maxAutoContinuations := input.maxAutoContinuations
          version := existing.version + 1
          autoContinuations := 0
          noProgressStreak := 0
          lastContinuationTurnId := none
          versionAtLastContinuation := none } }

def updateSessionGoal (text : Option String) (successCriteria : Option (Option String)) (t : SessionTables) :
    Option SessionTables :=
  t.goal.map fun goal =>
    { t with
      goal := some { goal with
          text := text.getD goal.text
          successCriteria := successCriteria.getD goal.successCriteria
          version := goal.version + 1
          noProgressStreak := 0 } }

/-- `none` throws: there is no goal, or it is completed. -/
def setSessionGoalStatus (status : SessionGoalStatus) (t : SessionTables) : Option SessionTables :=
  match t.goal with
  | none => none
  | some existing =>
    if existing.status = status then some t
    else if existing.status = .completed then none
    else
      let goal := { existing with status, version := existing.version + 1 }
      some { t with
          goal := some (if status = .active then
              { goal with
                autoContinuations := 0
                noProgressStreak := 0
                lastContinuationTurnId := none
                versionAtLastContinuation := none }
            else
              goal) }

def clearSessionGoal (eventId : ℕ) (t : SessionTables) : SessionTables :=
  match t.goal with
  | none => t
  | some existing =>
    let t := { t with goal := none, waiter := t.waiter.filter fun w => w.goalId != existing.id }
    t.append
      [{ id := eventId, type := .goalCleared, payload := { EventPayload.none with text := some existing.text }
         clientEventId := none, turnId := none }]

def setSessionGoalLastContinuationTurn (turnId : ℕ) (t : SessionTables) : SessionTables :=
  { t with goal := t.goal.map fun goal => { goal with lastContinuationTurnId := some turnId } }

/-! ## evaluateGoalContinuation -/

structure EvaluateInput where
  defaultMaxAutoContinuations : Option ℕ
  noProgressLimit : ℕ
  budgetBlocked : Option String

inductive GoalPauseReason
  | noProgress | maxAutoContinuations | limits

inductive GoalContinuationDecision
  | none
  | queue
  | paused (reason : GoalPauseReason) (goal : GoalRow)
  | continue (goal : GoalRow) (autoContinuation : ℕ) (cap : Option ℕ)

/-- The finished turn with the greatest position, and among those the newest. -/
def lastFinishedTurn (turns : List TurnRow) : Option TurnRow :=
  (turns.filter (·.finishedAt.isSome)).argmax fun turn => (toLex (turn.position, turn.createdAt) : ℕ ×ₗ ℕ)

/-- `count(*)` of the turn's events of a type. -/
def countTurnEvents (turnId : ℕ) (type : SessionEventType) (p : EventPayload → Bool) (t : SessionTables) : ℕ :=
  t.events.countP fun event => event.turnId == some turnId && event.type == type && p event.payload

structure GoalJudgement where
  autoContinuations : ℕ
  noProgressStreak : ℕ
  rotatedFailover : Bool

def GoalRow.judgeContinuation (goal : GoalRow) (turnId : ℕ) (t : SessionTables) : GoalJudgement :=
  let goalRevised := goal.versionAtLastContinuation.any (· < goal.version)
  { autoContinuations := goal.autoContinuations
    rotatedFailover := 0 < countTurnEvents turnId .turnFailed (·.rotated) t
    noProgressStreak := if 0 < countTurnEvents turnId .toolCallCreated (fun _ => true) t ∨ goalRevised then 0
      else if countTurnEvents turnId .turnFailed (·.recovery == some "goal_continuation") t = 0 then
        goal.noProgressStreak + 1
      else goal.noProgressStreak }

def GoalRow.judge (goal : GoalRow) (t : SessionTables) : GoalJudgement :=
  let unchanged : GoalJudgement :=
    { autoContinuations := goal.autoContinuations, noProgressStreak := goal.noProgressStreak
      rotatedFailover := false }
  match goal.lastContinuationTurnId, lastFinishedTurn t.turns with
  | some turnId, some lastFinished =>
    if lastFinished.id ≠ turnId then { unchanged with autoContinuations := 0, noProgressStreak := 0 }
    else goal.judgeContinuation turnId t
  | _, _ => unchanged

def EvaluateInput.cap (input : EvaluateInput) (goal : GoalRow) : Option ℕ :=
  match goal.maxAutoContinuations, input.defaultMaxAutoContinuations with
  | some own, some default => some (min own default)
  | own, default => own.or default

def EvaluateInput.pauseReason (input : EvaluateInput) (goal : GoalRow) (judged : GoalJudgement) : Option GoalPauseReason :=
  if input.noProgressLimit ≤ judged.noProgressStreak then some .noProgress
  else if (input.cap goal).any (· ≤ judged.autoContinuations) then some .maxAutoContinuations
  else if input.budgetBlocked.any (· ≠ "") then some .limits
  else none

def GoalRow.pause (judged : GoalJudgement) (goal : GoalRow) : GoalRow := { goal with
    status := .paused
    autoContinuations := judged.autoContinuations
    noProgressStreak := judged.noProgressStreak
    version := goal.version + 1 }

def GoalRow.continue (judged : GoalJudgement) (goal : GoalRow) : GoalRow := { goal with
    autoContinuations := judged.autoContinuations + if judged.rotatedFailover then 0 else 1
    noProgressStreak := judged.noProgressStreak
    versionAtLastContinuation := some goal.version }

def evaluateGoalContinuation (input : EvaluateInput) (t : SessionTables) : SessionTables × GoalContinuationDecision :=
  match t.goal.filter (·.status == .active) with
  | none => (t, .none)
  | some goal =>
    match t.turns.find? fun turn => turn.status == .queued || turn.status.live with
    | some pendingTurn => (t, if pendingTurn.status = .queued then .queue else .none)
    | none =>
      let judged := goal.judge t
      match input.pauseReason goal judged with
      | some reason =>
        let paused := goal.pause judged
        ({ t with goal := some paused }, .paused reason paused)
      | none =>
        let updated := goal.continue judged
        ({ t with goal := some updated }, .continue updated updated.autoContinuations (input.cap goal))

/-! ## Versions -/

def GoalRow.Revises (goal goal' : GoalRow) : Prop :=
  goal'.id = goal.id ∧ (goal'.status = goal.status ∧ goal'.version = goal.version ∨ goal.version < goal'.version)

/-- What a transaction may do to the goal: it revises it, deletes it together with what refers to
it, or inserts one where there was none. -/
def SessionTables.GoalMoves (t t' : SessionTables) : Prop :=
  (∀ goal' ∈ t'.goal, t.goal = none ∨ ∃ goal ∈ t.goal, goal.Revises goal') ∧
    ∀ goal ∈ t.goal, (∃ goal' ∈ t'.goal, goal'.id = goal.id) ∨ ∀ w ∈ t'.waiter, w.goalId ≠ goal.id

section

variable {t t' : SessionTables}

theorem GoalRow.Revises.refl (goal : GoalRow) : goal.Revises goal := ⟨rfl, .inl ⟨rfl, rfl⟩⟩

theorem goalMoves_of_goal_eq (h : t'.goal = t.goal) : t.GoalMoves t' := by
  unfold SessionTables.GoalMoves
  rw [h]
  refine ⟨fun goal hgoal => .inr ⟨goal, hgoal, .refl goal⟩, ?_⟩
  exact fun goal hgoal => .inl ⟨goal, hgoal, rfl⟩

theorem goalMoves_of_update {goal goal' : GoalRow} (hgoal : t.goal = some goal) (hgoal' : t'.goal = some goal')
    (h : goal.Revises goal') : t.GoalMoves t' := by
  unfold SessionTables.GoalMoves
  rw [hgoal, hgoal']
  refine ⟨?_, ?_⟩
  · intro row hrow
    obtain rfl := Option.mem_some.1 hrow
    exact .inr ⟨goal, rfl, h⟩
  · intro row hrow
    obtain rfl := Option.mem_some.1 hrow
    exact .inl ⟨goal', rfl, h.1⟩

theorem goalMoves_of_insert (h : t.goal = none) : t.GoalMoves t' := by
  unfold SessionTables.GoalMoves
  rw [h]
  exact ⟨fun _ _ => .inl rfl, fun _ hgoal => absurd hgoal (Option.not_mem_none _)⟩

theorem createSessionGoal_moves {input : CreateSessionGoalInput} (h : createSessionGoal input t = some t') :
    t.GoalMoves t' := by
  unfold createSessionGoal at h
  cases hgoal : t.goal with
  | none => exact goalMoves_of_insert hgoal
  | some goal =>
    rw [hgoal] at h
    cases h

theorem upsertSessionGoal_moves (input : CreateSessionGoalInput) (t : SessionTables) :
    t.GoalMoves (upsertSessionGoal input t) := by
  unfold upsertSessionGoal
  cases hgoal : t.goal with
  | none => exact goalMoves_of_insert hgoal
  | some goal => exact goalMoves_of_update hgoal rfl ⟨rfl, .inr (Nat.lt_succ_self _)⟩

theorem updateSessionGoal_moves {text : Option String} {successCriteria : Option (Option String)}
    (h : updateSessionGoal text successCriteria t = some t') : t.GoalMoves t' := by
  obtain ⟨goal, hgoal, rfl⟩ := Option.map_eq_some_iff.1 h
  exact goalMoves_of_update hgoal rfl ⟨rfl, .inr (Nat.lt_succ_self _)⟩

theorem setSessionGoalStatus_moves {status : SessionGoalStatus} (h : setSessionGoalStatus status t = some t') :
    t.GoalMoves t' := by
  unfold setSessionGoalStatus at h
  cases hgoal : t.goal with
  | none =>
    rw [hgoal] at h
    cases h
  | some goal =>
    rw [hgoal] at h
    dsimp only at h
    split at h
    · cases h
      exact goalMoves_of_goal_eq rfl
    split at h
    · cases h
    cases h
    refine goalMoves_of_update hgoal rfl ⟨?_, .inr ?_⟩
    · split <;> rfl
    · split <;> exact Nat.lt_succ_self _

theorem clearSessionGoal_moves (eventId : ℕ) (t : SessionTables) : t.GoalMoves (clearSessionGoal eventId t) := by
  unfold clearSessionGoal
  cases hgoal : t.goal with
  | none => exact goalMoves_of_insert hgoal
  | some goal =>
    refine ⟨?_, ?_⟩
    · intro row hrow
      cases hrow
    intro row hrow
    right
    intro w hw
    cases hgoal.symm.trans hrow
    simpa using (Option.mem_filter_iff.1 hw).2

theorem setSessionGoalLastContinuationTurn_moves (turnId : ℕ) (t : SessionTables) :
    t.GoalMoves (setSessionGoalLastContinuationTurn turnId t) := by
  cases hgoal : t.goal with
  | none => exact goalMoves_of_insert hgoal
  | some goal =>
    have hgoal' : (setSessionGoalLastContinuationTurn turnId t).goal =
        some { goal with lastContinuationTurnId := some turnId } := by
      unfold setSessionGoalLastContinuationTurn
      rw [hgoal]
      rfl
    exact goalMoves_of_update hgoal hgoal' ⟨rfl, .inl ⟨rfl, rfl⟩⟩

theorem evaluateGoalContinuation_moves (input : EvaluateInput) (t : SessionTables) :
    t.GoalMoves (evaluateGoalContinuation input t).1 := by
  unfold evaluateGoalContinuation
  cases hactive : t.goal.filter (·.status == .active) with
  | none => exact goalMoves_of_goal_eq rfl
  | some goal =>
    have hgoal := (Option.filter_eq_some_iff.1 hactive).1
    dsimp only
    split
    · exact goalMoves_of_goal_eq rfl
    split
    · exact goalMoves_of_update hgoal rfl ⟨rfl, .inr (Nat.lt_succ_self _)⟩
    · exact goalMoves_of_update hgoal rfl ⟨rfl, .inl ⟨rfl, rfl⟩⟩

end

/-! ## All edits -/

inductive GoalEdit
  | createSessionGoal (input : CreateSessionGoalInput)
  | upsertSessionGoal (input : CreateSessionGoalInput)
  | updateSessionGoal (text : Option String) (successCriteria : Option (Option String))
  | setSessionGoalStatus (status : SessionGoalStatus)
  | clearSessionGoal (eventId : ℕ)
  | setSessionGoalLastContinuationTurn (turnId : ℕ)
  | evaluateGoalContinuation (input : EvaluateInput)

namespace GoalEdit

def run (t : SessionTables) : GoalEdit → Option SessionTables
  | .createSessionGoal input => Db.createSessionGoal input t
  | .upsertSessionGoal input => some (Db.upsertSessionGoal input t)
  | .updateSessionGoal text successCriteria => Db.updateSessionGoal text successCriteria t
  | .setSessionGoalStatus status => Db.setSessionGoalStatus status t
  | .clearSessionGoal eventId => some (Db.clearSessionGoal eventId t)
  | .setSessionGoalLastContinuationTurn turnId => some (Db.setSessionGoalLastContinuationTurn turnId t)
  | .evaluateGoalContinuation input => some (Db.evaluateGoalContinuation input t).1

variable {t t' : SessionTables} {edit : GoalEdit}

theorem run_moves (h : edit.run t = some t') : t.GoalMoves t' := by
  cases edit with
  | createSessionGoal input => exact createSessionGoal_moves h
  | upsertSessionGoal input =>
    cases h
    exact upsertSessionGoal_moves input t
  | updateSessionGoal text successCriteria => exact updateSessionGoal_moves h
  | setSessionGoalStatus status => exact setSessionGoalStatus_moves h
  | clearSessionGoal eventId =>
    cases h
    exact clearSessionGoal_moves eventId t
  | setSessionGoalLastContinuationTurn turnId =>
    cases h
    exact setSessionGoalLastContinuationTurn_moves turnId t
  | evaluateGoalContinuation input =>
    cases h
    exact evaluateGoalContinuation_moves input t

theorem run_frame (h : edit.run t = some t') : t'.turns = t.turns ∧ ∀ w ∈ t'.waiter, t.waiter = some w := by
  cases edit with
  | createSessionGoal input =>
    unfold run Db.createSessionGoal at h
    dsimp only at h
    split at h
    · cases h
      exact ⟨rfl, fun _ hw => hw⟩
    · cases h
  | upsertSessionGoal input =>
    cases h
    unfold Db.upsertSessionGoal
    split <;> exact ⟨rfl, fun _ hw => hw⟩
  | updateSessionGoal text successCriteria =>
    obtain ⟨goal, -, rfl⟩ := Option.map_eq_some_iff.1 h
    exact ⟨rfl, fun _ hw => hw⟩
  | setSessionGoalStatus status =>
    unfold run Db.setSessionGoalStatus at h
    dsimp only at h
    split at h
    · cases h
    split at h
    · cases h
      exact ⟨rfl, fun _ hw => hw⟩
    split at h
    · cases h
    · cases h
      exact ⟨rfl, fun _ hw => hw⟩
  | clearSessionGoal eventId =>
    cases h
    unfold Db.clearSessionGoal
    split
    · exact ⟨rfl, fun _ hw => hw⟩
    · exact ⟨rfl, fun _ hw => (Option.mem_filter_iff.1 hw).1⟩
  | setSessionGoalLastContinuationTurn turnId =>
    cases h
    exact ⟨rfl, fun _ hw => hw⟩
  | evaluateGoalContinuation input =>
    cases h
    unfold Db.evaluateGoalContinuation
    split
    · exact ⟨rfl, fun _ hw => hw⟩
    dsimp only
    split
    · exact ⟨rfl, fun _ hw => hw⟩
    split <;> exact ⟨rfl, fun _ hw => hw⟩

end GoalEdit

end OpenGeni.Db
