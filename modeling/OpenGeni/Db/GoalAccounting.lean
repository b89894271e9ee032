/-
What the counters of a goal count.

`maybeContinueGoal` decides in one transaction, and there it bumps the counters. The turn that
they stand for is enqueued by a later one, and a third stores its id with the goal. The next
decision judges the stored turn, if it is the finished one with the greatest position.

The history of the session keeps what the counters are to mirror. They do as long as no call
is lost between those transactions, no goal is set while a turn is about to be enqueued, and no
continuation turn gets a position before a turn that has finished (`Orderly`).
-/
import OpenGeni.Db.SessionGoals
import OpenGeni.Lib.Run
import OpenGeni.Lib.Slots

namespace OpenGeni.Db

open OpenGeni.Lib

/-! ## maybeContinueGoal -/

def goalContinuationPrompt (goal : GoalRow) (autoContinuation : ℕ) (cap : Option ℕ) : String :=
  let counter := toString autoContinuation ++ (cap.map fun cap => "/" ++ toString cap).getD ""
  "\n".intercalate
    ["[GOAL CONTINUATION " ++ counter ++ "] The session goal is not done. Goal: " ++ goal.text ++ ".",
     "Success criteria: " ++ goal.successCriteria.getD "none specified" ++ ".",
     "Continue working toward the goal now. If it is actually complete, call opengeni__goal_complete with concrete evidence.",
     "If you are blocked or continuing is not productive, call opengeni__goal_pause with your rationale.",
     "You may revise the goal with opengeni__goal_update. Do not stop without one of these explicit actions."]

inductive ContinueStage
  | decided
  | rechecked
  | triggered (eventId : ℕ)
  | enqueued (turnId : ℕ)
deriving DecidableEq

structure ContinueCall where
  goal : GoalRow
  autoContinuation : ℕ
  cap : Option ℕ
  /-- The turn that was judged ended in a rotation of credentials. -/
  rotated : Bool
  stage : ContinueStage

def ContinueStage.beforeEnqueue : ContinueStage → Bool
  | .enqueued _ => false
  | _ => true

def ContinueCall.trigger (eventId : ℕ) (call : ContinueCall) : EventInput :=
  { id := eventId, type := .goalContinuation
    payload := { EventPayload.none with text := some (goalContinuationPrompt call.goal call.autoContinuation call.cap) }
    clientEventId := none, turnId := none }

def ContinueCall.turn (turnId eventId : ℕ) (call : ContinueCall) : EnqueueSessionTurnInput :=
  { id := turnId, triggerEventId := eventId, source := .goal
    prompt := goalContinuationPrompt call.goal call.autoContinuation call.cap, metadata := .none
    preemptChildNotifications := false }

structure GoalSettings where
  goalMaxAutoContinuations : Option ℕ
  goalNoProgressLimit : ℕ

def GoalSettings.input (budgetBlocked : Option String) (settings : GoalSettings) : EvaluateInput :=
  { defaultMaxAutoContinuations := settings.goalMaxAutoContinuations
    noProgressLimit := settings.goalNoProgressLimit, budgetBlocked }

def GoalSettings.cap (settings : GoalSettings) (goal : GoalRow) : Option ℕ := (settings.input none).cap goal

/-! ## The history of a session -/

structure GoalHistory where
  tables : SessionTables
  calls : Slots ℕ ContinueCall
  lastEnqueued : Option ℕ
  /-- A turn that is no continuation has finished since. -/
  otherFinished : Bool
  /-- The continuation turns whose judgement changed the streak, each time it did. -/
  judged : List ℕ
  /-- For each reset by a decision, whether another turn had finished. -/
  resets : List Bool
  /-- The continuation turns enqueued since the last reset, but for rotations. -/
  enqueuedSince : ℕ

inductive GoalEvent
  | evaluate (i : ℕ) (budgetBlocked : Option String)
  | recheck (i : ℕ)
  | trigger (i eventId : ℕ)
  | enqueue (i now turnId : ℕ)
  | setLast (i : ℕ)
  | crash (i : ℕ)
  | enqueueSessionTurn (now : ℕ) (input : EnqueueSessionTurnInput)
  | reorderQueuedSessionTurns (turnIds : List ℕ)
  | turnEdit (edit : TurnEdit)
  | createSessionGoal (input : CreateSessionGoalInput)
  | upsertSessionGoal (input : CreateSessionGoalInput)
  | updateSessionGoal (text : Option String) (successCriteria : Option (Option String))
  | setSessionGoalStatus (status : SessionGoalStatus)
  | clearSessionGoal (eventId : ℕ)
  | appendEvents (inputs : List EventInput)

def SessionTables.otherFinishes (t t' : SessionTables) : Bool :=
  t'.turns.any fun turn => turn.source != .goal && turn.finishedAt.isSome &&
    t.turns.any fun old => old.id == turn.id && old.finishedAt.isNone

namespace GoalHistory

variable (settings : GoalSettings)

def setTables (s : GoalHistory) (tables : SessionTables) : GoalHistory :=
  { s with tables, otherFinished := s.otherFinished || s.tables.otherFinishes tables }

def hasTurn (turnId : ℕ) (s : GoalHistory) : Bool := s.tables.turns.any (·.id == turnId)

def record (goal : GoalRow) (s : GoalHistory) : GoalHistory :=
  match goal.lastContinuationTurnId, lastFinishedTurn s.tables.turns with
  | some turnId, some lastFinished =>
    if lastFinished.id ≠ turnId then { s with resets := s.resets ++ [s.otherFinished], enqueuedSince := 0 }
    else if (goal.judgeContinuation turnId s.tables).noProgressStreak = goal.noProgressStreak then s
    else { s with judged := s.judged ++ [turnId] }
  | _, _ => s

def evaluate (i : ℕ) (budgetBlocked : Option String) (s : GoalHistory) : Option GoalHistory :=
  if (Slots.get i s.calls).isSome then none
  else
    let (t, decision) := evaluateGoalContinuation (settings.input budgetBlocked) s.tables
    match decision, s.tables.goal with
    | .paused _ _, some goal => some { s.record goal with tables := t }
    | .continue updated autoContinuation cap, some goal =>
      let call : ContinueCall :=
        { goal := updated, autoContinuation, cap, rotated := (goal.judge s.tables).rotatedFailover, stage := .decided }
      some { s.record goal with tables := t, calls := Slots.put i call s.calls }
    | _, _ => some s

/-- The goal is read again, and the call goes on if it is the goal it has decided about. -/
def recheck (i : ℕ) (s : GoalHistory) : Option GoalHistory := match Slots.get i s.calls with
  | some call =>
    if call.stage ≠ .decided then none
    else if s.tables.goal.any fun goal => goal.status == .active && goal.version == call.goal.version then
      some { s with calls := Slots.put i { call with stage := .rechecked } s.calls }
    else some { s with calls := Slots.drop i s.calls }
  | none => none

def trigger (i eventId : ℕ) (s : GoalHistory) : Option GoalHistory := match Slots.get i s.calls with
  | some call =>
    if call.stage ≠ .rechecked then none
    else
      some { s with
          tables := s.tables.append [call.trigger eventId]
          calls := Slots.put i { call with stage := .triggered eventId } s.calls }
  | none => none

def enqueue (i now turnId : ℕ) (s : GoalHistory) : Option GoalHistory := match Slots.get i s.calls with
  | some call =>
    match call.stage with
    | .triggered eventId =>
      if s.hasTurn turnId then none
      else
        some { s with
            tables := Db.enqueueSessionTurn now (call.turn turnId eventId) s.tables
            calls := Slots.put i { call with stage := .enqueued turnId } s.calls
            lastEnqueued := some turnId
            otherFinished := false
            enqueuedSince := s.enqueuedSince + if call.rotated then 0 else 1 }
    | _ => none
  | none => none

def setLast (i : ℕ) (s : GoalHistory) : Option GoalHistory := match Slots.get i s.calls with
  | some call =>
    match call.stage with
    | .enqueued turnId =>
      some { s with
          tables := setSessionGoalLastContinuationTurn turnId s.tables
          calls := Slots.drop i s.calls }
    | _ => none
  | none => none

/-- The call fails, or its worker is lost. It is not tried again. -/
def crash (i : ℕ) (s : GoalHistory) : Option GoalHistory :=
  if (Slots.get i s.calls).isSome then some { s with calls := Slots.drop i s.calls } else none

def rearm (s : GoalHistory) (tables : SessionTables) : GoalHistory := { s with tables, enqueuedSince := 0 }

/-- One transaction, or the loss of a call. `none` where it throws, where an id that is to be new
is not, and where nobody makes the call. -/
def step (s : GoalHistory) : GoalEvent → Option GoalHistory
  | .evaluate i budgetBlocked => s.evaluate settings i budgetBlocked
  | .recheck i => s.recheck i
  | .trigger i eventId => s.trigger i eventId
  | .enqueue i now turnId => s.enqueue i now turnId
  | .setLast i => s.setLast i
  | .crash i => s.crash i
  | .enqueueSessionTurn now input =>
    if s.hasTurn input.id ∨ input.source = .goal then none
    else some (s.setTables (Db.enqueueSessionTurn now input s.tables))
  | .reorderQueuedSessionTurns turnIds => (Db.reorderQueuedSessionTurns turnIds s.tables).map s.setTables
  | .turnEdit edit => if edit.proper then (edit.run s.tables).map s.setTables else none
  | .createSessionGoal input => (Db.createSessionGoal input s.tables).map s.rearm
  | .upsertSessionGoal input => some (s.rearm (Db.upsertSessionGoal input s.tables))
  | .updateSessionGoal text successCriteria =>
    (Db.updateSessionGoal text successCriteria s.tables).map fun tables => { s with tables }
  | .setSessionGoalStatus status =>
    (Db.setSessionGoalStatus status s.tables).map fun tables =>
      if status = .active ∧ s.tables.goal.any (·.status != .active) then s.rearm tables else { s with tables }
  | .clearSessionGoal eventId => some { s with tables := Db.clearSessionGoal eventId s.tables }
  | .appendEvents inputs => some { s with tables := s.tables.append inputs }

/-- A continuation turn changes the streak once at most, a decision
resets the counters only where another turn has finished, and no more turns are enqueued between
two resets than the cap allows. -/
structure Exact (s : GoalHistory) : Prop where
  judgedOnce : s.judged.Nodup
  resetByOther : ∀ other ∈ s.resets, other = true
  capped : ∀ goal ∈ s.tables.goal, ∀ cap ∈ settings.cap goal, s.enqueuedSince ≤ cap
  callsCapped : ∀ call ∈ s.calls, ∀ cap ∈ call.2.cap, s.enqueuedSince ≤ cap

def Fresh (s : GoalHistory) : Prop :=
  s.tables.turns = [] ∧ s.tables.goal = none ∧ s.calls = [] ∧ s.lastEnqueued = none ∧ s.judged = [] ∧
    s.resets = [] ∧ s.enqueuedSince = 0

instance : DecidablePred Fresh := fun _ => inferInstanceAs (Decidable (_ ∧ _ ∧ _ ∧ _ ∧ _ ∧ _ ∧ _))

/-! ## The order that keeps the counts -/

/-- Another judgement of the turn leaves the streak at zero, where it is. -/
def settled (goal : GoalRow) (turnId : ℕ) (t : SessionTables) : Bool :=
  goal.noProgressStreak == 0 && (goal.versionAtLastContinuation.any (· < goal.version) ||
    decide (0 < countTurnEvents turnId .toolCallCreated (fun _ => true) t))

def MayLose (s : GoalHistory) (call : ContinueCall) : Prop :=
  ∀ goal ∈ s.tables.goal, goal.status = .active → ∀ turnId ∈ goal.lastContinuationTurnId,
    call.stage.beforeEnqueue = true ∧ (turnId ∈ s.judged → settled goal turnId s.tables = true)

def MaySet (s : GoalHistory) : Prop :=
  ∀ e ∈ s.calls, e.2.stage.beforeEnqueue = false ∨ (e.2.stage = .decided ∧ s.tables.goal.isSome = true)

/-- Continuation turns are over, but for the last one, until there is to be another. -/
def mayBeOpen (s : GoalHistory) (turn : TurnRow) : Bool :=
  turn.source != .goal || (s.lastEnqueued == some turn.id && s.calls.all fun e => !e.2.stage.beforeEnqueue)

def revives (turn : TurnRow) : TurnEdit → Bool
  | .finishTurn _ turnId status => turn.id == turnId && turn.status.over && !(turnStatusForFinish status).over
  | .requeuePreemptedTurn turnId _ fromStatuses =>
    turn.id == turnId && turn.status.over && fromStatuses.contains turn.status
  | _ => false

def KeepsLast (s : GoalHistory) (turnIds : List ℕ) : Prop :=
  ∀ last ∈ s.tables.turns, s.lastEnqueued = some last.id → last.id ∈ turnIds → ∀ turn ∈ s.tables.turns,
    turn.finishedAt.isSome = true → turn.position < turnIds.idxOf last.id + 1

/-- One call at a time decides; a call is lost only where no decision misses it; a goal is set only
while no turn is about to be enqueued; what has finished stays before the last continuation turn,
and an earlier one that is over stays over. -/
def Orderly (s : GoalHistory) : GoalEvent → Prop
  | .evaluate _ _ =>
    (∃ goal ∈ s.tables.goal, goal.status = .active) → (∀ turn ∈ s.tables.turns, turn.status.over = true) → s.calls = []
  | .crash i => ∀ call ∈ Slots.get i s.calls, s.MayLose call
  | .reorderQueuedSessionTurns turnIds => s.otherFinished = true ∨ s.KeepsLast turnIds
  | .turnEdit edit => ∀ turn ∈ s.tables.turns, revives turn edit = true → s.mayBeOpen turn = true
  | .createSessionGoal _ => s.MaySet
  | .upsertSessionGoal _ => s.MaySet
  | .setSessionGoalStatus status => status = .active → (∃ goal ∈ s.tables.goal, goal.status ≠ .active) → s.MaySet
  | _ => True

instance (s : GoalHistory) : Decidable s.MaySet := inferInstanceAs (Decidable (∀ _ ∈ _, _ ∨ _))

instance (s : GoalHistory) (call : ContinueCall) : Decidable (s.MayLose call) :=
  inferInstanceAs (Decidable (∀ _ ∈ _, _ → ∀ _ ∈ _, _ ∧ (_ → _)))

instance (s : GoalHistory) (turnIds : List ℕ) : Decidable (s.KeepsLast turnIds) :=
  inferInstanceAs (Decidable (∀ _ ∈ _, _ → _ → ∀ _ ∈ _, _ → _))

instance (s : GoalHistory) : DecidablePred s.Orderly
  | .evaluate _ _ => inferInstanceAs (Decidable ((∃ _ ∈ _, _) → (∀ _ ∈ _, _) → _))
  | .crash _ => inferInstanceAs (Decidable (∀ _ ∈ _, MayLose _ _))
  | .reorderQueuedSessionTurns _ => inferInstanceAs (Decidable (_ ∨ KeepsLast _ _))
  | .turnEdit _ => inferInstanceAs (Decidable (∀ _ ∈ _, _ → _))
  | .createSessionGoal _ => inferInstanceAs (Decidable (MaySet _))
  | .upsertSessionGoal _ => inferInstanceAs (Decidable (MaySet _))
  | .setSessionGoalStatus _ => inferInstanceAs (Decidable (_ → (∃ _ ∈ _, _) → MaySet _))
  | .recheck _ => .isTrue trivial
  | .trigger _ _ => .isTrue trivial
  | .enqueue _ _ _ => .isTrue trivial
  | .setLast _ => .isTrue trivial
  | .enqueueSessionTurn _ _ => .isTrue trivial
  | .updateSessionGoal _ _ => .isTrue trivial
  | .clearSessionGoal _ => .isTrue trivial
  | .appendEvents _ => .isTrue trivial

/-! ## The invariants -/

/-- The call will enqueue a turn for the goal, if the goal stays as it is. -/
def Admitted (goal : GoalRow) (call : ContinueCall) : Prop :=
  call.stage.beforeEnqueue = true ∧ (call.stage = .decided → call.goal.version = goal.version)

structure QueueSound (s : GoalHistory) : Prop where
  ids : (s.tables.turns.map (·.id)).Nodup
  finished : ∀ turn ∈ s.tables.turns, turn.status.over = true → turn.finishedAt.isSome = true
  queued : ∀ turn ∈ s.tables.turns, turn.status = .queued → turn.finishedAt = none
  opened : ∀ turn ∈ s.tables.turns, turn.status.over = true ∨ s.mayBeOpen turn = true
  last : ∀ turnId ∈ s.lastEnqueued, ∃ turn ∈ s.tables.turns, turn.id = turnId
  behind : ∀ last ∈ s.tables.turns, s.lastEnqueued = some last.id → ∀ turn ∈ s.tables.turns, turn.id ≠ last.id →
    turn.finishedAt.isSome = true → s.otherFinished = true ∨ turn.position < last.position

structure Mirrors (s : GoalHistory) (goal : GoalRow) : Prop where
  capped : ∀ cap ∈ settings.cap goal, goal.autoContinuations ≤ cap
  counted : s.enqueuedSince ≤ goal.autoContinuations
  admitted : ∀ e ∈ s.calls, Admitted goal e.2 → e.2.rotated = false → s.enqueuedSince < goal.autoContinuations
  decided : ∀ e ∈ s.calls, e.2.stage = .decided → e.2.goal.version ≤ goal.version
  last : goal.status = .active → ∀ turnId ∈ goal.lastContinuationTurnId,
    (∀ e ∈ s.calls, e.2.stage.beforeEnqueue = true) → s.lastEnqueued = some turnId
  judged : goal.status = .active → ∀ turnId ∈ goal.lastContinuationTurnId, turnId ∈ s.judged →
    (∃ e ∈ s.calls, e.2.goal.version = goal.version ∧ goal.versionAtLastContinuation = some goal.version) ∨
      settled goal turnId s.tables = true

structure GoalSound (s : GoalHistory) : Prop where
  single : s.calls.length ≤ 1
  enqueued : ∀ e ∈ s.calls, ∀ turnId, e.2.stage = .enqueued turnId → s.lastEnqueued = some turnId ∧ turnId ∉ s.judged
  judgedTurns : ∀ turnId ∈ s.judged, ∃ turn ∈ s.tables.turns, turn.id = turnId
  goal : ∀ goal ∈ s.tables.goal, s.Mirrors settings goal
  exact : s.Exact settings
  calls : ∀ e ∈ s.calls, e.2.stage.beforeEnqueue = true → e.2.rotated = false → ∀ cap ∈ e.2.cap, s.enqueuedSince < cap

/-! ## The turns -/

section

variable {settings} {s s' : GoalHistory} {tables : SessionTables} {f : TurnRow → TurnRow}

theorem Fresh.queueSound (h : s.Fresh) : s.QueueSound := by
  obtain ⟨hturns, -, -, hlast, -⟩ := h
  have hno : ∀ turn, turn ∉ s.tables.turns := by
    intro turn
    rw [hturns]
    exact List.not_mem_nil
  refine ⟨?_, ?_, ?_, ?_, ?_, ?_⟩
  · rw [hturns]
    exact List.nodup_nil
  · exact fun turn hturn => absurd hturn (hno turn)
  · exact fun turn hturn => absurd hturn (hno turn)
  · exact fun turn hturn => absurd hturn (hno turn)
  · intro turnId hmem
    rw [hlast] at hmem
    cases hmem
  · exact fun turn hturn => absurd hturn (hno turn)

theorem QueueSound.of_turns (h : s.QueueSound) (hturns : s'.tables.turns = s.tables.turns)
    (hlast : s'.lastEnqueued = s.lastEnqueued) (hother : s'.otherFinished = s.otherFinished)
    (hopened : ∀ turn ∈ s.tables.turns, turn.status.over = true ∨ s'.mayBeOpen turn = true) : s'.QueueSound := by
  refine ⟨?_, ?_, ?_, ?_, ?_, ?_⟩
  · rw [hturns]
    exact h.ids
  · rw [hturns]
    exact h.finished
  · rw [hturns]
    exact h.queued
  · rw [hturns]
    exact hopened
  · rw [hturns, hlast]
    exact h.last
  · rw [hturns, hlast, hother]
    exact h.behind

structure RowsMove (s : GoalHistory) (f : TurnRow → TurnRow) : Prop where
  id : ∀ row, (f row).id = row.id
  source : ∀ row, (f row).source = row.source
  finished : ∀ row ∈ s.tables.turns, (f row).status.over = true → (f row).finishedAt.isSome = true
  queued : ∀ row ∈ s.tables.turns, (f row).status = .queued → (f row).finishedAt = none
  opened : ∀ row ∈ s.tables.turns, row.status.over = true → (f row).status.over = true ∨ s.mayBeOpen row = true
  behind : s.otherFinished = true ∨ ∀ last ∈ s.tables.turns, s.lastEnqueued = some last.id → ∀ row ∈ s.tables.turns,
    row.finishedAt.isSome = true → row.position < last.position → (f row).position < (f last).position

variable {turn : TurnRow} {t t' : SessionTables} {now turnId i : ℕ}
  {input : CreateSessionGoalInput} {goal goal' : GoalRow} {call : ContinueCall}

theorem mayBeOpen_congr {turn' : TurnRow} (hid : turn'.id = turn.id) (hsource : turn'.source = turn.source) :
    s.mayBeOpen turn' = s.mayBeOpen turn := by
  unfold mayBeOpen
  rw [hid, hsource]

theorem otherFinishes_of {row row' : TurnRow} (hrow : row ∈ t.turns) (hrow' : row' ∈ t'.turns)
    (hid : row'.id = row.id) (hsource : row'.source ≠ .goal)
    (hfinished : row'.finishedAt.isSome = true) (hold : row.finishedAt.isSome = false) :
    t.otherFinishes t' = true := by
  refine List.any_eq_true.2 ⟨row', hrow', ?_⟩
  have hany : (t.turns.any fun old => old.id == row'.id && old.finishedAt.isNone) = true := by
    refine List.any_eq_true.2 ⟨row, hrow, ?_⟩
    rw [hid]
    simpa using hold
  rw [hany, hfinished]
  simpa using hsource

theorem QueueSound.finished_of_older (h : s.QueueSound) {last : TurnRow}
    (hlast : s.lastEnqueued = some last.id) (hturn : turn ∈ s.tables.turns)
    (hne : turn.id ≠ last.id) (hsource : turn.source = .goal) :
    turn.finishedAt.isSome = true := by
  rcases h.opened turn hturn with hover | hopen
  · exact h.finished turn hturn hover
  · unfold mayBeOpen at hopen
    rw [hlast, hsource] at hopen
    simp [Ne.symm hne] at hopen

theorem QueueSound.map (h : s.QueueSound) (hmove : s.RowsMove f) (hturns : tables.turns = s.tables.turns.map f) :
    (s.setTables tables).QueueSound := by
  have hrow : ∀ turn ∈ tables.turns, ∃ row ∈ s.tables.turns, f row = turn := by
    intro turn hturn
    rw [hturns] at hturn
    exact List.mem_map.1 hturn
  refine ⟨?_, ?_, ?_, ?_, ?_, ?_⟩
  · have hsame : tables.turns.map (·.id) = s.tables.turns.map (·.id) := by
      rw [hturns, List.map_map]
      exact List.map_congr_left fun row _ => hmove.id row
    exact hsame ▸ h.ids
  · intro turn hturn
    obtain ⟨row, hmem, rfl⟩ := hrow turn hturn
    exact hmove.finished row hmem
  · intro turn hturn
    obtain ⟨row, hmem, rfl⟩ := hrow turn hturn
    exact hmove.queued row hmem
  · intro turn hturn
    obtain ⟨row, hmem, rfl⟩ := hrow turn hturn
    have hsame : (s.setTables tables).mayBeOpen (f row) = s.mayBeOpen row :=
      mayBeOpen_congr (s := s) (hmove.id row) (hmove.source row)
    rw [hsame]
    rcases h.opened row hmem with hover | hopen
    · exact hmove.opened row hmem hover
    · exact .inr hopen
  · intro turnId hlast
    obtain ⟨turn, hturn, hid⟩ := h.last turnId hlast
    refine ⟨f turn, ?_, (hmove.id turn).trans hid⟩
    have hmem : f turn ∈ s.tables.turns.map f := List.mem_map_of_mem hturn
    exact hturns ▸ hmem
  · intro last' hlast' hlastId turn' hturn' hne hfinished
    obtain ⟨last, hlast, rfl⟩ := hrow last' hlast'
    obtain ⟨turn, hturn, rfl⟩ := hrow turn' hturn'
    rw [hmove.id] at hlastId
    rw [hmove.id, hmove.id] at hne
    have hid : s.lastEnqueued = some last.id := hlastId
    have hother : s.otherFinished = true → (s.setTables tables).otherFinished = true := by
      intro hbefore
      unfold setTables
      rw [hbefore, Bool.true_or]
    cases hbefore : turn.finishedAt.isSome with
    | true =>
      rcases h.behind last hlast hid turn hturn hne hbefore with hyes | hlt
      · exact .inl (hother hyes)
      rcases hmove.behind with hyes | hkeeps
      · exact .inl (hother hyes)
      · exact .inr (hkeeps last hlast hid turn hturn hbefore hlt)
    | false =>
      -- it has finished just now
      left
      have hsource : turn.source ≠ .goal := by
        intro hgoal
        rw [h.finished_of_older hid hturn hne hgoal] at hbefore
        cases hbefore
      have hnow : s.tables.otherFinishes tables = true :=
        otherFinishes_of hturn hturn' (hmove.id turn) (by rwa [hmove.source]) hfinished hbefore
      unfold setTables
      rw [hnow, Bool.or_true]

theorem QueueSound.concat (h : s.QueueSound) {new : TurnRow} (hturns : s'.tables.turns = s.tables.turns ++ [new])
    (hid : ∀ turn ∈ s.tables.turns, turn.id ≠ new.id) (hqueued : new.status = .queued) (hnone : new.finishedAt = none)
    (hsource : new.source ≠ .goal) (hlast : s'.lastEnqueued = s.lastEnqueued) (hcalls : s'.calls = s.calls)
    (hother : s.otherFinished = true → s'.otherFinished = true) : s'.QueueSound := by
  have hopen : ∀ turn, s'.mayBeOpen turn = s.mayBeOpen turn := by
    intro turn
    unfold mayBeOpen
    rw [hlast, hcalls]
  have hmem : ∀ turn ∈ s'.tables.turns, turn ∈ s.tables.turns ∨ turn = new := by
    intro turn hturn
    rw [hturns] at hturn
    exact (List.mem_append.1 hturn).imp id List.mem_singleton.1
  have hold : ∀ turn ∈ s.tables.turns, turn ∈ s'.tables.turns := by
    intro turn hturn
    rw [hturns]
    exact List.mem_append_left _ hturn
  refine ⟨?_, ?_, ?_, ?_, ?_, ?_⟩
  · rw [hturns, List.map_append, List.nodup_append]
    refine ⟨h.ids, List.nodup_singleton _, ?_⟩
    intro a ha b hb
    obtain ⟨turn, hturn, rfl⟩ := List.mem_map.1 ha
    rw [List.mem_singleton.1 hb]
    exact hid turn hturn
  · intro turn hturn hover
    rcases hmem turn hturn with hbefore | rfl
    · exact h.finished turn hbefore hover
    · rw [hqueued] at hover
      cases hover
  · intro turn hturn
    rcases hmem turn hturn with hbefore | rfl
    · exact h.queued turn hbefore
    · exact fun _ => hnone
  · intro turn hturn
    rw [hopen]
    rcases hmem turn hturn with hbefore | rfl
    · exact h.opened turn hbefore
    · right
      unfold mayBeOpen
      simp [hsource]
  · intro turnId hmemId
    rw [hlast] at hmemId
    obtain ⟨turn, hturn, heq⟩ := h.last turnId hmemId
    exact ⟨turn, hold turn hturn, heq⟩
  · intro last hmemLast hlastId turn hturn hne hfinished
    rw [hlast] at hlastId
    obtain ⟨last', hlast', heq⟩ := h.last last.id hlastId
    have hbeforeLast : last ∈ s.tables.turns := by
      rcases hmem last hmemLast with hbefore | rfl
      · exact hbefore
      · exact absurd heq (hid last' hlast')
    have hbeforeTurn : turn ∈ s.tables.turns := by
      rcases hmem turn hturn with hbefore | rfl
      · exact hbefore
      · rw [hnone] at hfinished
        cases hfinished
    exact (h.behind last hbeforeLast hlastId turn hbeforeTurn hne hfinished).imp_left hother

/-! ### What moves them -/

theorem QueueSound.rowsMove_id (h : s.QueueSound) : s.RowsMove id := by
  refine ⟨fun _ => rfl, fun _ => rfl, h.finished, h.queued, fun _ _ hover => .inl hover, .inr ?_⟩
  exact fun _ _ _ _ _ _ hlt => hlt

theorem QueueSound.rowsMove_movedBack (h : s.QueueSound) (minPos : ℕ) : s.RowsMove (·.movedBack minPos) := by
  have hrow : ∀ row : TurnRow, (row.movedBack minPos).source = row.source ∧
      (row.movedBack minPos).finishedAt = row.finishedAt := by
    intro row
    unfold TurnRow.movedBack
    split <;> exact ⟨rfl, rfl⟩
  refine ⟨fun row => (row.movedBack_spec minPos).1, fun row => (hrow row).1, ?_, ?_, ?_, .inr ?_⟩
  · intro row hmem
    rw [(hrow row).2, (row.movedBack_spec minPos).2.1]
    exact h.finished row hmem
  · intro row hmem
    rw [(hrow row).2, (row.movedBack_spec minPos).2.1]
    exact h.queued row hmem
  · intro row _ hover
    left
    rwa [(row.movedBack_spec minPos).2.1]
  · intro last _ _ row hmem hfinished hlt
    -- a turn that has finished is not queued, and stays
    have hstays : row.movedBack minPos = row := by
      apply if_neg
      intro hmoved
      have hqueued : row.status = .queued := by simpa using (Bool.and_eq_true_iff.1 hmoved).1
      rw [h.queued row hmem hqueued] at hfinished
      cases hfinished
    rw [hstays]
    exact lt_of_lt_of_le hlt (last.movedBack_spec minPos).2.2.2

theorem QueueSound.enqueueSessionTurn (h : s.QueueSound) {input : EnqueueSessionTurnInput}
    (hnew : s.hasTurn input.id = false) (hsource : input.source ≠ .goal) :
    (s.setTables (enqueueSessionTurn now input s.tables)).QueueSound := by
  obtain ⟨position, f, hf, hturns⟩ := enqueueSessionTurn_rows now input s.tables
  have hmove : s.RowsMove f := by
    rcases hf with rfl | rfl
    · exact h.rowsMove_id
    · exact h.rowsMove_movedBack position
  let moved : SessionTables := { s.tables with turns := s.tables.turns.map f }
  have hmoved : (s.setTables moved).QueueSound := h.map hmove rfl
  refine hmoved.concat hturns ?_ rfl rfl hsource rfl rfl ?_
  · intro turn hturn heq
    obtain ⟨row, hrow, rfl⟩ := List.mem_map.1 hturn
    have hid : (f row).id = input.id := heq
    rw [hmove.id] at hid
    have hthere : s.hasTurn input.id = true := List.any_eq_true.2 ⟨row, hrow, by simpa using hid⟩
    rw [hnew] at hthere
    cases hthere
  · intro hother
    unfold setTables SessionTables.otherFinishes at hother ⊢
    rw [hturns, List.any_append]
    rcases Bool.or_eq_true_iff.1 hother with hbefore | hnow
    · rw [hbefore, Bool.true_or]
    · rw [hnow, Bool.true_or, Bool.or_true]

theorem reorder_listed {turnIds : List ℕ} (hids : (t.turns.map (·.id)).Nodup)
    (h : reorderQueuedSessionTurns turnIds t = some t') (hturn : turn ∈ t.turns)
    (hlisted : turn.id ∈ turnIds) : turn.status = .queued := by
  unfold reorderQueuedSessionTurns at h
  split_ifs at h with hlen
  let found := (t.turns.filter fun turn => turn.status == .queued && turnIds.contains turn.id).map (·.id)
  have hfound : found.Nodup := hids.sublist (List.filter_sublist.map _)
  have hsub : found ⊆ turnIds := by
    intro turnId hmem
    obtain ⟨row, hrow, rfl⟩ := List.mem_map.1 hmem
    have hcontains := (Bool.and_eq_true_iff.1 (List.mem_filter.1 hrow).2).2
    simpa using hcontains
  have hperm : found.Perm turnIds := by
    refine (List.subperm_of_subset hfound hsub).perm_of_length_le ?_
    rw [List.length_map, hlen]
  obtain ⟨row, hrow, hid⟩ := List.mem_map.1 (hperm.mem_iff.2 hlisted)
  obtain ⟨hmem, hboth⟩ := List.mem_filter.1 hrow
  obtain rfl : row = turn := List.inj_on_of_nodup_map hids hmem hturn hid
  simpa using (Bool.and_eq_true_iff.1 hboth).1

theorem QueueSound.reorder (h : s.QueueSound) {turnIds : List ℕ}
    (hrun : reorderQueuedSessionTurns turnIds s.tables = some tables)
    (hok : s.otherFinished = true ∨ s.KeepsLast turnIds) : (s.setTables tables).QueueSound := by
  obtain ⟨-, hturns⟩ := reorderQueuedSessionTurns_eq h.ids hrun
  have hmove : s.RowsMove (TurnRow.renumbered turnIds) := by
    refine ⟨fun _ => rfl, fun _ => rfl, h.finished, h.queued, fun _ _ hover => .inl hover, ?_⟩
    refine hok.imp_right fun hkeeps => ?_
    intro last hlast hid row hrow hfinished hlt
    have hstays : row.id ∉ turnIds := by
      intro hlisted
      rw [h.queued row hrow (reorder_listed h.ids hrun hrow hlisted)] at hfinished
      cases hfinished
    unfold TurnRow.renumbered
    rw [if_neg hstays]
    by_cases hlisted : last.id ∈ turnIds
    · rw [if_pos hlisted]
      exact hkeeps last hlast hid hlisted row hrow hfinished
    · rw [if_neg hlisted]
      exact hlt
  exact h.map hmove hturns

theorem QueueSound.updateTurns (h : s.QueueSound) {p : TurnRow → Bool} {f : TurnRow → TurnRow}
    (hrow : ∀ row, (f row).id = row.id ∧ (f row).source = row.source ∧ (f row).position = row.position)
    (hfinished : ∀ row ∈ s.tables.turns, p row = true → (f row).status.over = true → (f row).finishedAt.isSome = true)
    (hqueued : ∀ row ∈ s.tables.turns, p row = true → (f row).status = .queued → (f row).finishedAt = none)
    (hopened : ∀ row ∈ s.tables.turns, p row = true → row.status.over = true →
      (f row).status.over = true ∨ s.mayBeOpen row = true) :
    (s.setTables (s.tables.updateTurns p f)).QueueSound := by
  have hmove : s.RowsMove fun row => if p row then f row else row := by
    refine ⟨?_, ?_, ?_, ?_, ?_, .inr ?_⟩
    · intro row
      split
      · exact (hrow row).1
      · rfl
    · intro row
      split
      · exact (hrow row).2.1
      · rfl
    · intro row hmem
      split
      case isTrue hp => exact hfinished row hmem hp
      case isFalse => exact h.finished row hmem
    · intro row hmem
      split
      case isTrue hp => exact hqueued row hmem hp
      case isFalse => exact h.queued row hmem
    · intro row hmem hover
      split
      case isTrue hp => exact hopened row hmem hp hover
      case isFalse => exact .inl hover
    · intro last _ _ row _ _ hlt
      have hposition : ∀ row : TurnRow, (if p row then f row else row).position = row.position := by
        intro row
        split
        · exact (hrow row).2.2
        · rfl
      rwa [hposition, hposition]
  exact h.map hmove rfl

theorem over_ne_queued {status : SessionTurnStatus} (h : status.over = true) : status ≠ .queued := by
  rintro rfl
  cases h

theorem QueueSound.claimNextQueuedTurn (h : s.QueueSound) (now : ℕ) :
    (s.setTables (claimNextQueuedTurn now s.tables).1).QueueSound := by
  unfold Db.claimNextQueuedTurn
  cases hnext : nextQueuedTurn s.tables.turns with
  | none => exact h.map h.rowsMove_id (List.map_id _).symm
  | some turn =>
    obtain ⟨hturn, hqueued⟩ := List.mem_filter.1 (List.argmin_mem hnext)
    have hclaimed : (s.setTables (s.tables.updateTurns (·.id == turn.id) fun turn =>
        { turn with status := .running, startedAt := some now })).QueueSound := by
      refine h.updateTurns (fun _ => ⟨rfl, rfl, rfl⟩) ?_ ?_ ?_
      · exact fun _ _ _ hover => absurd hover Bool.noConfusion
      · exact fun _ _ _ hstill => absurd hstill SessionTurnStatus.noConfusion
      · intro row hrow hid hover
        obtain rfl : row = turn := List.inj_on_of_nodup_map h.ids hrow hturn (by simpa using hid)
        exact absurd (by simpa using hqueued) (over_ne_queued hover)
    exact hclaimed.of_turns rfl rfl rfl hclaimed.opened

theorem QueueSound.finishTurn (h : s.QueueSound) {status : FinishStatus}
    (hproper : (TurnEdit.finishTurn now turnId status).proper = true)
    (hok : s.Orderly (.turnEdit (.finishTurn now turnId status))) :
    (s.setTables (finishTurn now turnId status s.tables)).QueueSound := by
  have hstatus : (turnStatusForFinish status).over = true ∨ turnStatusForFinish status = .requiresAction := by
    simpa [TurnEdit.proper] using hproper
  refine h.updateTurns (fun _ => ⟨rfl, rfl, rfl⟩) ?_ ?_ ?_
  · intro row _ _ hover
    have hne : turnStatusForFinish status ≠ .requiresAction := by
      intro heq
      rw [heq] at hover
      cases hover
    rw [if_neg hne]
    rfl
  · intro row _ _ hqueued
    dsimp only at hqueued
    rw [hqueued] at hstatus
    rcases hstatus with hover | heq
    · cases hover
    · cases heq
  · intro row hrow hid hover
    rcases hstatus with hstill | heq
    · exact .inl hstill
    · right
      apply hok row hrow
      unfold revives
      dsimp only
      rw [hid, hover, heq]
      rfl

theorem QueueSound.requeuePreemptedTurn (h : s.QueueSound) {triggerEventId : ℕ}
    {fromStatuses : List SessionTurnStatus}
    (hok : s.Orderly (.turnEdit (.requeuePreemptedTurn turnId triggerEventId fromStatuses)))
    (hrun : requeuePreemptedTurn turnId triggerEventId fromStatuses s.tables = some tables) :
    (s.setTables tables).QueueSound := by
  unfold Db.requeuePreemptedTurn at hrun
  split_ifs at hrun
  cases hrun
  refine h.updateTurns (fun _ => ⟨rfl, rfl, rfl⟩) ?_ ?_ ?_
  · exact fun _ _ _ hover => absurd hover Bool.noConfusion
  · exact fun _ _ _ _ => rfl
  · intro row hrow hwhere hover
    right
    apply hok row hrow
    obtain ⟨hid, hfrom⟩ := Bool.and_eq_true_iff.1 hwhere
    unfold revives
    dsimp only
    rw [hid, hover, hfrom]
    rfl

theorem QueueSound.cancel (h : s.QueueSound) (now : ℕ) {p : TurnRow → Bool} :
    (s.setTables (s.tables.updateTurns p fun turn =>
      { turn with status := .cancelled, finishedAt := some now })).QueueSound := by
  refine h.updateTurns (fun _ => ⟨rfl, rfl, rfl⟩) ?_ ?_ ?_
  · exact fun _ _ _ _ => rfl
  · exact fun _ _ _ hqueued => absurd hqueued SessionTurnStatus.noConfusion
  · exact fun _ _ _ _ => .inl rfl

theorem QueueSound.turnEdit (h : s.QueueSound) {edit : TurnEdit} (hproper : edit.proper = true)
    (hok : s.Orderly (.turnEdit edit)) (hrun : edit.run s.tables = some tables) :
    (s.setTables tables).QueueSound := by
  cases edit with
  | claimNextQueuedTurn now =>
    cases hrun
    exact h.claimNextQueuedTurn now
  | finishTurn now turnId status =>
    cases hrun
    exact h.finishTurn hproper hok
  | setSessionStatus status activeTurnId =>
    cases hrun
    exact h.map h.rowsMove_id (List.map_id _).symm
  | requeuePreemptedTurn turnId triggerEventId fromStatuses => exact h.requeuePreemptedTurn hok hrun
  | cancelQueuedSessionTurn now turnId =>
    unfold TurnEdit.run Db.cancelQueuedSessionTurn at hrun
    dsimp only at hrun
    split_ifs at hrun
    cases hrun
    exact h.cancel now
  | cancelQueuedSessionTurns now =>
    cases hrun
    exact h.cancel now

/-! ## The counters -/

theorem Fresh.goalSound (h : s.Fresh) : s.GoalSound settings := by
  obtain ⟨-, hgoal, hcalls, -, hjudged, hresets, -⟩ := h
  have hnoCall : ∀ e, e ∉ s.calls := by
    intro e
    rw [hcalls]
    exact List.not_mem_nil
  have hnoGoal : ∀ goal, goal ∉ s.tables.goal := by
    intro goal hmem
    rw [hgoal] at hmem
    cases hmem
  refine ⟨?_, ?_, ?_, ?_, ⟨?_, ?_, ?_, ?_⟩, ?_⟩
  · rw [hcalls]
    exact Nat.zero_le _
  · exact fun e he => absurd he (hnoCall e)
  · intro turnId hmem
    rw [hjudged] at hmem
    exact absurd hmem List.not_mem_nil
  · exact fun goal hmem => absurd hmem (hnoGoal goal)
  · rw [hjudged]
    exact List.nodup_nil
  · intro other hmem
    rw [hresets] at hmem
    exact absurd hmem List.not_mem_nil
  · exact fun goal hmem => absurd hmem (hnoGoal goal)
  · exact fun e he => absurd he (hnoCall e)
  · exact fun e he => absurd he (hnoCall e)

theorem settled_append {rest : List EventRow} (hevents : t'.events = t.events ++ rest)
    (h : settled goal turnId t = true) : settled goal turnId t' = true := by
  unfold settled countTurnEvents at h ⊢
  rw [hevents, List.countP_append]
  simp only [Bool.and_eq_true, Bool.or_eq_true, decide_eq_true_eq, beq_iff_eq] at h ⊢
  refine ⟨h.1, h.2.imp_right fun hsome => ?_⟩
  omega

theorem judgeContinuation_of_settled (h : settled goal turnId t = true) :
    (goal.judgeContinuation turnId t).noProgressStreak = goal.noProgressStreak := by
  unfold settled at h
  simp only [Bool.and_eq_true, Bool.or_eq_true, decide_eq_true_eq, beq_iff_eq] at h
  unfold GoalRow.judgeContinuation
  dsimp only
  rw [if_pos h.2.symm, h.1]

theorem GoalSound.of_goal (h : s.GoalSound settings) {rest : List EventRow} {other : Bool}
    (hgoal : tables.goal = s.tables.goal) (hevents : tables.events = s.tables.events ++ rest)
    (hturns : ∀ turn ∈ s.tables.turns, ∃ turn' ∈ tables.turns, turn'.id = turn.id) :
    GoalSound settings { s with tables, otherFinished := other } := by
  refine ⟨h.single, h.enqueued, ?_, ?_, ⟨h.exact.judgedOnce, h.exact.resetByOther, ?_, h.exact.callsCapped⟩, h.calls⟩
  · intro turnId hmem
    obtain ⟨turn, hturn, rfl⟩ := h.judgedTurns turnId hmem
    exact hturns turn hturn
  · intro goal hmem
    have hmirrors := h.goal goal (hgoal ▸ hmem)
    refine ⟨hmirrors.capped, hmirrors.counted, hmirrors.admitted, hmirrors.decided, hmirrors.last, ?_⟩
    intro hactive turnId hlast hjudged
    exact (hmirrors.judged hactive turnId hlast hjudged).imp_right (settled_append hevents)
  · exact fun goal hmem => h.exact.capped goal (hgoal ▸ hmem)

theorem GoalSound.calls_eq (h : s.GoalSound settings) (hget : Slots.get i s.calls = some call) :
    s.calls = [(i, call)] := by
  have hmem := Slots.mem_of_get hget
  obtain ⟨e, he⟩ := List.length_eq_one_iff.1 (le_antisymm h.single (List.length_pos_of_mem hmem))
  rw [he] at hmem ⊢
  rw [List.mem_singleton.1 hmem]

theorem put_single (i : ℕ) (call call' : ContinueCall) : Slots.put i call' [(i, call)] = [(i, call')] := by
  simp [Slots.put, Slots.drop]

theorem drop_single (i : ℕ) (call : ContinueCall) : Slots.drop i [(i, call)] = [] := by
  simp [Slots.drop]

theorem QueueSound.over_of_call (h : s.QueueSound) {e : ℕ × ContinueCall} (he : e ∈ s.calls)
    (hbefore : e.2.stage.beforeEnqueue = true) (hturn : turn ∈ s.tables.turns)
    (hsource : turn.source = .goal) : turn.status.over = true := by
  rcases h.opened turn hturn with hover | hopen
  · exact hover
  · unfold mayBeOpen at hopen
    rw [hsource] at hopen
    have hall : (s.calls.all fun e => !e.2.stage.beforeEnqueue) = true := by simpa using (Bool.and_eq_true_iff.1 hopen).2
    have hnot := List.all_eq_true.1 hall e he
    rw [hbefore] at hnot
    cases hnot

theorem QueueSound.of_call (h : s.QueueSound) (hcalls : s.calls = [(i, call)])
    (hturns : s'.tables.turns = s.tables.turns) (hlast : s'.lastEnqueued = s.lastEnqueued)
    (hother : s'.otherFinished = s.otherFinished)
    (hmove : s'.calls = [] ∨ call.stage.beforeEnqueue = true) : s'.QueueSound := by
  refine h.of_turns hturns hlast hother ?_
  intro turn hturn
  rcases h.opened turn hturn with hover | hopen
  · exact .inl hover
  rcases hmove with hnone | hbefore
  · right
    unfold mayBeOpen at hopen ⊢
    rw [hlast, hnone]
    rw [hcalls] at hopen
    cases hsource : turn.source != .goal with
    | true => rfl
    | false =>
      rw [hsource, Bool.false_or] at hopen
      rw [(Bool.and_eq_true_iff.1 hopen).1]
      rfl
  · by_cases hsource : turn.source = .goal
    · have hmem : (i, call) ∈ s.calls := by
        rw [hcalls]
        exact List.mem_singleton.2 rfl
      exact .inl (h.over_of_call hmem hbefore hturn hsource)
    · right
      unfold mayBeOpen
      simp [hsource]

theorem GoalSound.drop (h : s.GoalSound settings) (hcalls : s.calls = [(i, call)])
    (hok : s.MayLose call) : GoalSound settings { s with calls := [] } := by
  have hno : ∀ e, e ∉ ([] : Slots ℕ ContinueCall) := fun _ => List.not_mem_nil
  refine ⟨Nat.zero_le _, ?_, h.judgedTurns, ?_,
    ⟨h.exact.judgedOnce, h.exact.resetByOther, h.exact.capped, fun e he => absurd he (hno e)⟩,
    fun e he => absurd he (hno e)⟩
  · exact fun e he => absurd he (hno e)
  · intro goal hgoal
    have hmirrors := h.goal goal hgoal
    refine ⟨hmirrors.capped, hmirrors.counted, fun e he => absurd he (hno e), fun e he => absurd he (hno e), ?_, ?_⟩
    · intro hactive turnId hlast _
      apply hmirrors.last hactive turnId hlast
      intro e he
      rw [hcalls] at he
      rw [List.mem_singleton.1 he]
      exact (hok goal hgoal hactive turnId hlast).1
    · intro hactive turnId hlast hjudged
      exact .inr ((hok goal hgoal hactive turnId hlast).2 hjudged)

theorem GoalSound.advance (h : s.GoalSound settings) {stage : ContinueStage}
    (hcalls : s.calls = [(i, call)]) (hbefore : call.stage.beforeEnqueue = true)
    (hstage : stage.beforeEnqueue = true) (hdecided : stage ≠ .decided)
    (hadmitted : ∀ goal ∈ s.tables.goal, call.stage = .decided → call.goal.version = goal.version) :
    GoalSound settings { s with calls := [(i, { call with stage })] } := by
  have hmem : (i, call) ∈ s.calls := by
    rw [hcalls]
    exact List.mem_singleton.2 rfl
  have hone : ∀ e ∈ [(i, ({ call with stage } : ContinueCall))], e = (i, { call with stage }) :=
    fun e he => List.mem_singleton.1 he
  refine ⟨le_refl 1, ?_, h.judgedTurns, ?_, ⟨h.exact.judgedOnce, h.exact.resetByOther, h.exact.capped, ?_⟩, ?_⟩
  · intro e he turnId heq
    rw [hone e he] at heq
    dsimp only at heq
    rw [heq] at hstage
    cases hstage
  · intro goal hgoal
    have hmirrors := h.goal goal hgoal
    refine ⟨hmirrors.capped, hmirrors.counted, ?_, ?_, ?_, ?_⟩
    · intro e he _ hrotated
      rw [hone e he] at hrotated
      exact hmirrors.admitted _ hmem ⟨hbefore, hadmitted goal hgoal⟩ hrotated
    · intro e he heq
      rw [hone e he] at heq
      exact absurd heq hdecided
    · intro hactive turnId hlast _
      apply hmirrors.last hactive turnId hlast
      intro e he
      rw [hcalls] at he
      rw [List.mem_singleton.1 he]
      exact hbefore
    · intro hactive turnId hlast hjudged
      refine (hmirrors.judged hactive turnId hlast hjudged).imp_left ?_
      rintro ⟨e, he, hversion⟩
      rw [hcalls] at he
      rw [List.mem_singleton.1 he] at hversion
      exact ⟨_, List.mem_singleton.2 rfl, hversion⟩
  · intro e he
    rw [hone e he]
    exact h.exact.callsCapped (i, call) hmem
  · intro e he _ hrotated
    rw [hone e he] at hrotated ⊢
    exact h.calls (i, call) hmem hbefore hrotated

/-! ### The steps of a call -/

def Sound (settings : GoalSettings) (s : GoalHistory) : Prop := s.QueueSound ∧ s.GoalSound settings

theorem Sound.recheck (h : s.Sound settings) (hstep : s.recheck i = some s') : s'.Sound settings := by
  obtain ⟨hqueue, hgoals⟩ := h
  unfold GoalHistory.recheck at hstep
  split at hstep
  case h_2 => cases hstep
  case h_1 call hget =>
    have hcalls := hgoals.calls_eq hget
    split at hstep
    · cases hstep
    case isFalse hdecided =>
      have hstage : call.stage = .decided := not_not.1 hdecided
      have hbefore : call.stage.beforeEnqueue = true := by
        rw [hstage]
        rfl
      split at hstep
      case isTrue hsame =>
        cases hstep
        rw [hcalls, put_single]
        refine ⟨hqueue.of_call hcalls rfl rfl rfl (.inr hbefore), hgoals.advance hcalls hbefore rfl ?_ ?_⟩
        · exact ContinueStage.noConfusion
        · intro goal hgoal _
          rw [Option.mem_def.1 hgoal] at hsame
          simp only [Option.any_some, Bool.and_eq_true, beq_iff_eq] at hsame
          exact hsame.2.symm
      case isFalse hmoved =>
        cases hstep
        rw [hcalls, drop_single]
        refine ⟨hqueue.of_call hcalls rfl rfl rfl (.inl rfl), hgoals.drop hcalls ?_⟩
        intro goal hgoal hactive turnId hlast
        refine ⟨hbefore, fun hjudged => ?_⟩
        rcases (hgoals.goal goal hgoal).judged hactive turnId hlast hjudged with ⟨e, he, hversion, -⟩ | hsettled
        · -- the goal that was decided about would have passed
          rw [hcalls] at he
          rw [List.mem_singleton.1 he] at hversion
          rw [Option.mem_def.1 hgoal, Option.any_some, hactive, hversion] at hmoved
          simp at hmoved
        · exact hsettled

theorem Sound.trigger (h : s.Sound settings) {eventId : ℕ} (hstep : s.trigger i eventId = some s') :
    s'.Sound settings := by
  obtain ⟨hqueue, hgoals⟩ := h
  unfold GoalHistory.trigger at hstep
  split at hstep
  case h_2 => cases hstep
  case h_1 call hget =>
    have hcalls := hgoals.calls_eq hget
    split at hstep
    · cases hstep
    case isFalse hrechecked =>
      have hstage : call.stage = .rechecked := not_not.1 hrechecked
      have hbefore : call.stage.beforeEnqueue = true := by
        rw [hstage]
        rfl
      cases hstep
      rw [hcalls, put_single]
      have hadvanced : GoalSound settings { s with calls := [(i, { call with stage := .triggered eventId })] } := by
        refine hgoals.advance hcalls hbefore rfl ContinueStage.noConfusion ?_
        intro _ _ hdecided
        rw [hstage] at hdecided
        cases hdecided
      refine ⟨hqueue.of_call hcalls rfl rfl rfl (.inr hbefore), ?_⟩
      exact hadvanced.of_goal rfl rfl fun turn hturn => ⟨turn, hturn, rfl⟩

theorem Sound.crash (h : s.Sound settings) (hok : s.Orderly (.crash i)) (hstep : s.crash i = some s') :
    s'.Sound settings := by
  obtain ⟨hqueue, hgoals⟩ := h
  unfold GoalHistory.crash at hstep
  split at hstep
  case isFalse => cases hstep
  case isTrue hsome =>
    obtain ⟨call, hget⟩ := Option.isSome_iff_exists.1 hsome
    have hcalls := hgoals.calls_eq hget
    cases hstep
    rw [hcalls, drop_single]
    exact ⟨hqueue.of_call hcalls rfl rfl rfl (.inl rfl), hgoals.drop hcalls (hok call hget)⟩

theorem Sound.enqueue (h : s.Sound settings) (hstep : s.enqueue i now turnId = some s') :
    s'.Sound settings := by
  obtain ⟨hqueue, hgoals⟩ := h
  unfold GoalHistory.enqueue at hstep
  split at hstep
  case h_2 => cases hstep
  case h_1 call hget =>
    have hcalls := hgoals.calls_eq hget
    have hmem : (i, call) ∈ s.calls := by
      rw [hcalls]
      exact List.mem_singleton.2 rfl
    split at hstep
    case h_2 => cases hstep
    case h_1 eventId hstage =>
      have hbefore : call.stage.beforeEnqueue = true := by
        rw [hstage]
        rfl
      split at hstep
      · cases hstep
      case isFalse hnew =>
        have hfresh : ∀ turn ∈ s.tables.turns, turn.id ≠ turnId := by
          intro turn hturn heq
          exact hnew (List.any_eq_true.2 ⟨turn, hturn, by simpa using heq⟩)
        cases hstep
        rw [hcalls, put_single]
        let new := (call.turn turnId eventId).row now (nextTurnPosition s.tables.turns)
        have hsplit : ∀ turn ∈ s.tables.turns ++ [new], turn ∈ s.tables.turns ∨ turn = new :=
          fun turn hturn => (List.mem_append.1 hturn).imp id List.mem_singleton.1
        refine ⟨⟨?_, ?_, ?_, ?_, ?_, ?_⟩, ?_⟩
        · have hids : ((s.tables.turns ++ [new]).map (·.id)).Nodup := by
            rw [List.map_append, List.nodup_append]
            refine ⟨hqueue.ids, List.nodup_singleton _, ?_⟩
            intro a ha b hb
            obtain ⟨turn, hturn, rfl⟩ := List.mem_map.1 ha
            rw [List.mem_singleton.1 hb]
            exact hfresh turn hturn
          exact hids
        · intro turn hturn hover
          rcases hsplit turn hturn with hold | rfl
          · exact hqueue.finished turn hold hover
          · cases hover
        · intro turn hturn hqueued
          rcases hsplit turn hturn with hold | rfl
          · exact hqueue.queued turn hold hqueued
          · rfl
        · intro turn hturn
          rcases hsplit turn hturn with hold | rfl
          · by_cases hsource : turn.source = .goal
            · exact .inl (hqueue.over_of_call hmem hbefore hold hsource)
            · right
              unfold mayBeOpen
              simp [hsource]
          · right
            unfold mayBeOpen
            simp [new, EnqueueSessionTurnInput.row, ContinueCall.turn, ContinueStage.beforeEnqueue]
        · intro last hlast
          rw [← Option.some.inj hlast]
          exact ⟨new, List.mem_append_right _ (List.mem_singleton.2 rfl), rfl⟩
        · intro last hlast hid turn hturn hne _
          right
          have hlastNew : last = new := by
            rcases hsplit last hlast with hold | heq
            · exact absurd (Option.some.inj hid).symm (hfresh last hold)
            · exact heq
          rw [hlastNew] at hne ⊢
          rcases hsplit turn hturn with hold | rfl
          · exact position_lt_nextTurnPosition hold
          · exact absurd rfl hne
        · have hone : ∀ e ∈ [(i, ({ call with stage := .enqueued turnId } : ContinueCall))],
              e = (i, { call with stage := .enqueued turnId }) := fun e he => List.mem_singleton.1 he
          have hcount : ∀ goal ∈ s.tables.goal,
              s.enqueuedSince + (if call.rotated then 0 else 1) ≤ goal.autoContinuations := by
            intro goal hgoal
            have hmirrors := hgoals.goal goal hgoal
            cases hrotated : call.rotated with
            | true => simpa using hmirrors.counted
            | false =>
              have hadmitted : Admitted goal call := by
                refine ⟨hbefore, fun hdecided => ?_⟩
                rw [hstage] at hdecided
                cases hdecided
              have hlt := hmirrors.admitted _ hmem hadmitted hrotated
              simpa using Nat.succ_le_of_lt hlt
          refine ⟨le_refl 1, ?_, ?_, ?_, ⟨hgoals.exact.judgedOnce, hgoals.exact.resetByOther, ?_, ?_⟩, ?_⟩
          · intro e he turnId' heq
            rw [hone e he] at heq
            obtain rfl := ContinueStage.enqueued.inj heq
            refine ⟨rfl, fun hjudged => ?_⟩
            obtain ⟨turn, hturn, hid⟩ := hgoals.judgedTurns turnId hjudged
            exact hfresh turn hturn hid
          · intro id hjudged
            obtain ⟨turn, hturn, hid⟩ := hgoals.judgedTurns id hjudged
            exact ⟨turn, List.mem_append_left _ hturn, hid⟩
          · intro goal hgoal
            have hmirrors := hgoals.goal goal hgoal
            refine ⟨hmirrors.capped, hcount goal hgoal, ?_, ?_, ?_, ?_⟩
            · intro e he hadmitted
              rw [hone e he] at hadmitted
              exact absurd hadmitted.1 Bool.noConfusion
            · intro e he hdecided
              rw [hone e he] at hdecided
              cases hdecided
            · intro _ id _ hall
              exact absurd (hall _ (List.mem_singleton.2 rfl)) Bool.noConfusion
            · intro hactive id hlast hjudged
              refine (hmirrors.judged hactive id hlast hjudged).imp_left ?_
              rintro ⟨e, he, hversion⟩
              rw [hcalls] at he
              rw [List.mem_singleton.1 he] at hversion
              exact ⟨_, List.mem_singleton.2 rfl, hversion⟩
          · intro goal hgoal cap hcap
            exact (hcount goal hgoal).trans ((hgoals.goal goal hgoal).capped cap hcap)
          · intro e he cap hcap
            rw [hone e he] at hcap
            cases hrotated : call.rotated with
            | true => simpa using hgoals.exact.callsCapped (i, call) hmem cap hcap
            | false => simpa using Nat.succ_le_of_lt (hgoals.calls (i, call) hmem hbefore hrotated cap hcap)
          · intro e he hstill
            rw [hone e he] at hstill
            cases hstill

theorem Sound.setLast (h : s.Sound settings) (hstep : s.setLast i = some s') : s'.Sound settings := by
  obtain ⟨hqueue, hgoals⟩ := h
  unfold GoalHistory.setLast at hstep
  split at hstep
  case h_2 => cases hstep
  case h_1 call hget =>
    have hcalls := hgoals.calls_eq hget
    split at hstep
    case h_2 => cases hstep
    case h_1 turnId hstage =>
      cases hstep
      rw [hcalls, drop_single]
      have hmem : (i, call) ∈ s.calls := by
        rw [hcalls]
        exact List.mem_singleton.2 rfl
      obtain ⟨hlastEnqueued, hnotJudged⟩ := hgoals.enqueued _ hmem turnId hstage
      have hno : ∀ e, e ∉ ([] : Slots ℕ ContinueCall) := fun _ => List.not_mem_nil
      refine ⟨hqueue.of_call hcalls rfl rfl rfl (.inl rfl), Nat.zero_le _, ?_, hgoals.judgedTurns, ?_,
        ⟨hgoals.exact.judgedOnce, hgoals.exact.resetByOther, ?_, ?_⟩, ?_⟩
      · exact fun e he => absurd he (hno e)
      · intro goal' hgoal'
        obtain ⟨goal, hgoal, rfl⟩ := Option.map_eq_some_iff.1 hgoal'
        have hmirrors := hgoals.goal goal hgoal
        refine ⟨hmirrors.capped, hmirrors.counted, fun e he => absurd he (hno e), fun e he => absurd he (hno e), ?_, ?_⟩
        · intro _ id hlast _
          rw [← Option.some.inj hlast]
          exact hlastEnqueued
        · intro _ id hlast hjudged
          rw [← Option.some.inj hlast] at hjudged
          exact absurd hjudged hnotJudged
      · intro goal' hgoal'
        obtain ⟨goal, hgoal, rfl⟩ := Option.map_eq_some_iff.1 hgoal'
        exact hgoals.exact.capped goal hgoal
      · exact fun e he => absurd he (hno e)
      · exact fun e he => absurd he (hno e)

/-! ### A decision -/

theorem evaluateGoalContinuation_cases (input : EvaluateInput) (t : SessionTables) :
    (evaluateGoalContinuation input t).2 = .none ∨ (evaluateGoalContinuation input t).2 = .queue ∨
      ∃ goal, t.goal = some goal ∧ goal.status = .active ∧ (∀ turn ∈ t.turns, turn.status.over = true) ∧
        ((∃ reason, evaluateGoalContinuation input t =
            ({ t with goal := some (goal.pause (goal.judge t)) }, .paused reason (goal.pause (goal.judge t)))) ∨
          (input.pauseReason goal (goal.judge t) = none ∧ evaluateGoalContinuation input t =
              ({ t with goal := some (goal.continue (goal.judge t)) },
                .continue (goal.continue (goal.judge t)) (goal.continue (goal.judge t)).autoContinuations
                  (input.cap goal)))) := by
  unfold evaluateGoalContinuation
  cases hactive : t.goal.filter (·.status == .active) with
  | none => exact .inl rfl
  | some goal =>
    obtain ⟨hgoal, hstatus⟩ := Option.filter_eq_some_iff.1 hactive
    dsimp only
    cases hpending : t.turns.find? fun turn => turn.status == .queued || turn.status.live with
    | some turn =>
      dsimp only
      split
      · exact .inr (.inl rfl)
      · exact .inl rfl
    | none =>
      have hover : ∀ turn ∈ t.turns, turn.status.over = true := by
        intro turn hturn
        unfold SessionTurnStatus.over
        simpa using List.find?_eq_none.1 hpending turn hturn
      right
      right
      refine ⟨goal, hgoal, by simpa using hstatus, hover, ?_⟩
      cases hreason : input.pauseReason goal (goal.judge t) with
      | some reason => exact .inl ⟨reason, rfl⟩
      | none => exact .inr ⟨rfl, rfl⟩

theorem lt_cap_of_pauseReason {input : EvaluateInput} {judged : GoalJudgement}
    (h : input.pauseReason goal judged = none) :
    ∀ cap ∈ input.cap goal, judged.autoContinuations < cap := by
  intro cap hcap
  unfold EvaluateInput.pauseReason at h
  split_ifs at h with _ hreached
  rw [Option.mem_def.1 hcap] at hreached
  simpa using hreached

theorem QueueSound.lastFinished (h : s.QueueSound) (hlast : s.lastEnqueued = some turnId)
    (hover : ∀ turn ∈ s.tables.turns, turn.status.over = true) {lastFinished : TurnRow}
    (hfinished : lastFinishedTurn s.tables.turns = some lastFinished)
    (hne : lastFinished.id ≠ turnId) :
    s.otherFinished = true := by
  obtain ⟨last, hmem, rfl⟩ := h.last turnId hlast
  have hfilter : last ∈ s.tables.turns.filter (·.finishedAt.isSome) :=
    List.mem_filter.2 ⟨hmem, h.finished last hmem (hover last hmem)⟩
  obtain ⟨hturn, hsome⟩ := List.mem_filter.1 (List.argmax_mem hfinished)
  have hle := List.le_of_mem_argmax hfilter hfinished
  rcases h.behind last hmem hlast lastFinished hturn hne hsome with hother | hlt
  · exact hother
  · -- it would not have the greatest position
    rcases Prod.Lex.toLex_le_toLex.1 hle with hpos | ⟨hpos, -⟩
    · exact absurd hpos (Nat.lt_asymm hlt)
    · exact absurd hpos (Nat.ne_of_gt hlt)

/-- What a judgement leaves of the counters and adds to the history. -/
structure Judged (s : GoalHistory) (goal : GoalRow) (s' : GoalHistory) : Prop where
  frame : s'.tables = s.tables ∧ s'.calls = s.calls ∧ s'.lastEnqueued = s.lastEnqueued ∧
    s'.otherFinished = s.otherFinished
  nodup : s'.judged.Nodup
  turns : ∀ turnId ∈ s'.judged, ∃ turn ∈ s.tables.turns, turn.id = turnId
  resets : ∀ other ∈ s'.resets, other = true
  counted : s'.enqueuedSince ≤ (goal.judge s.tables).autoContinuations
  lowered : (goal.judge s.tables).autoContinuations ≤ goal.autoContinuations

theorem Sound.record (h : s.Sound settings) (hgoal : s.tables.goal = some goal)
    (hactive : goal.status = .active) (hover : ∀ turn ∈ s.tables.turns, turn.status.over = true)
    (hcalls : s.calls = []) : s.Judged goal (s.record goal) := by
  obtain ⟨hqueue, hgoals⟩ := h
  have hmirrors := hgoals.goal goal hgoal
  have hno : ∀ e, e ∉ s.calls := by
    intro e
    rw [hcalls]
    exact List.not_mem_nil
  have hkept : (goal.judge s.tables).autoContinuations = goal.autoContinuations →
      s.enqueuedSince ≤ (goal.judge s.tables).autoContinuations ∧
        (goal.judge s.tables).autoContinuations ≤ goal.autoContinuations := by
    intro hauto
    rw [hauto]
    exact ⟨hmirrors.counted, le_refl _⟩
  unfold GoalHistory.record
  cases hlast : goal.lastContinuationTurnId with
  | none =>
    obtain ⟨hcounted, hlowered⟩ := hkept (by rw [GoalRow.judge, hlast])
    exact ⟨⟨rfl, rfl, rfl, rfl⟩, hgoals.exact.judgedOnce, hgoals.judgedTurns, hgoals.exact.resetByOther, hcounted, hlowered⟩
  | some turnId =>
    cases hfinished : lastFinishedTurn s.tables.turns with
    | none =>
      obtain ⟨hcounted, hlowered⟩ := hkept (by rw [GoalRow.judge, hlast, hfinished])
      exact ⟨⟨rfl, rfl, rfl, rfl⟩, hgoals.exact.judgedOnce, hgoals.judgedTurns, hgoals.exact.resetByOther,
        hcounted, hlowered⟩
    | some lastFinished =>
      have hlastEnqueued := hmirrors.last hactive turnId hlast fun e he => absurd he (hno e)
      dsimp only
      by_cases hne : lastFinished.id ≠ turnId
      · -- the counters are reset
        have hother := hqueue.lastFinished hlastEnqueued hover hfinished hne
        have hreset : (goal.judge s.tables).autoContinuations = 0 := by
          rw [GoalRow.judge, hlast, hfinished]
          dsimp only
          rw [if_pos hne]
        rw [if_pos hne]
        refine ⟨⟨rfl, rfl, rfl, rfl⟩, hgoals.exact.judgedOnce, hgoals.judgedTurns, ?_, Nat.zero_le _, ?_⟩
        · intro other hmem
          rcases List.mem_append.1 hmem with hold | hnow
          · exact hgoals.exact.resetByOther other hold
          · rw [List.mem_singleton.1 hnow, hother]
        · rw [hreset]
          exact Nat.zero_le _
      obtain ⟨hcounted, hlowered⟩ := hkept (by
        rw [GoalRow.judge, hlast, hfinished]
        dsimp only
        rw [if_neg hne]
        rfl)
      rw [if_neg hne]
      by_cases hsame : (goal.judgeContinuation turnId s.tables).noProgressStreak = goal.noProgressStreak
      · rw [if_pos hsame]
        exact ⟨⟨rfl, rfl, rfl, rfl⟩, hgoals.exact.judgedOnce, hgoals.judgedTurns, hgoals.exact.resetByOther,
          hcounted, hlowered⟩
      · -- a turn that had changed the streak before would be settled
        have hnew : turnId ∉ s.judged := by
          intro hjudged
          rcases hmirrors.judged hactive turnId hlast hjudged with ⟨e, he, -⟩ | hsettled
          · exact hno e he
          · exact hsame (judgeContinuation_of_settled hsettled)
        rw [if_neg hsame]
        refine ⟨⟨rfl, rfl, rfl, rfl⟩, ?_, ?_, hgoals.exact.resetByOther, hcounted, hlowered⟩
        · rw [List.nodup_append]
          refine ⟨hgoals.exact.judgedOnce, List.nodup_singleton _, ?_⟩
          intro a ha b hb heq
          rw [List.mem_singleton.1 hb] at heq
          exact hnew (heq ▸ ha)
        · intro id hmem
          rcases List.mem_append.1 hmem with hold | hnow
          · exact hgoals.judgedTurns id hold
          · rw [List.mem_singleton.1 hnow]
            exact hqueue.last turnId hlastEnqueued

theorem Sound.evaluate (h : s.Sound settings) {budgetBlocked : Option String}
    (hok : s.Orderly (.evaluate i budgetBlocked))
    (hstep : s.evaluate settings i budgetBlocked = some s') :
    s'.Sound settings := by
  have hsound := h
  obtain ⟨hqueue, hgoals⟩ := h
  unfold GoalHistory.evaluate at hstep
  split at hstep
  · cases hstep
  dsimp only at hstep
  rcases evaluateGoalContinuation_cases (settings.input budgetBlocked) s.tables with
    hnone | hqueued | ⟨goal, hgoal, hactive, hover, hcases⟩
  · rw [hnone] at hstep
    cases hstep
    exact hsound
  · rw [hqueued] at hstep
    cases hstep
    exact hsound
  have hcalls : s.calls = [] := hok ⟨goal, hgoal, hactive⟩ hover
  have hno : ∀ e, e ∉ s.calls := by
    intro e
    rw [hcalls]
    exact List.not_mem_nil
  have hmirrors := hgoals.goal goal hgoal
  have hjudged := hsound.record hgoal hactive hover hcalls
  obtain ⟨-, hsameCalls, hsameLast, hsameOther⟩ := hjudged.frame
  have hcap : ∀ cap ∈ settings.cap goal, (goal.judge s.tables).autoContinuations ≤ cap :=
    fun cap hmem => hjudged.lowered.trans (hmirrors.capped cap hmem)
  have hqueueSame : ∀ s' : GoalHistory, s'.tables.turns = s.tables.turns → s'.lastEnqueued = (s.record goal).lastEnqueued →
      s'.otherFinished = (s.record goal).otherFinished → s'.QueueSound := by
    intro s' hturns hlast hother
    exact hqueue.of_turns hturns (hlast.trans hsameLast) (hother.trans hsameOther) fun turn hturn =>
      .inl (hover turn hturn)
  rcases hcases with ⟨reason, hrun⟩ | ⟨hreason, hrun⟩
  · rw [hrun, hgoal] at hstep
    cases hstep
    refine ⟨hqueueSame _ rfl rfl rfl, ?_⟩
    have hnoCall : ∀ e, e ∉ (s.record goal).calls := by
      rw [hsameCalls]
      exact hno
    refine ⟨?_, ?_, hjudged.turns, ?_, ⟨hjudged.nodup, hjudged.resets, ?_, ?_⟩, ?_⟩
    · rw [hsameCalls]
      exact hgoals.single
    · exact fun e he => absurd he (hnoCall e)
    · intro goal' hgoal'
      cases hgoal'
      refine ⟨hcap, hjudged.counted, fun e he => absurd he (hnoCall e), fun e he => absurd he (hnoCall e), ?_, ?_⟩
      · exact fun hstill => absurd hstill SessionGoalStatus.noConfusion
      · exact fun hstill => absurd hstill SessionGoalStatus.noConfusion
    · intro goal' hgoal' cap hmem
      cases hgoal'
      exact hjudged.counted.trans (hcap cap hmem)
    · exact fun e he => absurd he (hnoCall e)
    · exact fun e he => absurd he (hnoCall e)
  · rw [hrun, hgoal, hcalls] at hstep
    cases hstep
    refine ⟨hqueueSame _ rfl rfl rfl, ?_⟩
    have hlt := lt_cap_of_pauseReason hreason
    have hone : ∀ (call : ContinueCall), ∀ e ∈ Slots.put i call [], e = (i, call) := by
      intro call e he
      simpa [Slots.put, Slots.drop] using he
    have hmem : ∀ call : ContinueCall, (i, call) ∈ Slots.put i call [] := fun _ => List.mem_cons_self
    refine ⟨le_refl 1, ?_, hjudged.turns, ?_, ⟨hjudged.nodup, hjudged.resets, ?_, ?_⟩, ?_⟩
    · intro e he turnId hstage
      rw [hone _ e he] at hstage
      cases hstage
    · intro goal' hgoal'
      cases hgoal'
      refine ⟨?_, ?_, ?_, ?_, ?_, ?_⟩
      · intro cap hcapMem
        have hbefore : (goal.judge s.tables).autoContinuations < cap := hlt cap hcapMem
        unfold GoalRow.continue
        dsimp only
        split <;> omega
      · exact hjudged.counted.trans (Nat.le_add_right _ _)
      · intro e he _ hrotated
        rw [hone _ e he] at hrotated
        have hno : (goal.judge s.tables).rotatedFailover = false := hrotated
        have hcount := hjudged.counted
        unfold GoalRow.continue
        rw [hno]
        simpa using Nat.lt_succ_of_le hcount
      · intro e he _
        rw [hone _ e he]
      · intro _ turnId hlast _
        rw [hsameLast]
        exact hmirrors.last hactive turnId hlast fun e he => absurd he (hno e)
      · exact fun _ _ _ _ => .inl ⟨_, hmem _, rfl, rfl⟩
    · intro goal' hgoal' cap hcapMem
      cases hgoal'
      exact hjudged.counted.trans (hcap cap hcapMem)
    · intro e he cap hcapMem
      rw [hone _ e he] at hcapMem
      exact hjudged.counted.trans (le_of_lt (hlt cap hcapMem))
    · intro e he _ _ cap hcapMem
      rw [hone _ e he] at hcapMem
      exact lt_of_le_of_lt hjudged.counted (hlt cap hcapMem)

/-! ### The edits of the goal -/

theorem GoalSound.rearm (h : s.GoalSound settings) (hok : s.MaySet)
    (hgoal' : tables.goal = some goal') (hauto : goal'.autoContinuations = 0)
    (hlast : goal'.lastContinuationTurnId = none)
    (hversion : ∀ goal ∈ s.tables.goal, goal.version < goal'.version)
    (hturns : tables.turns = s.tables.turns) :
    (s.rearm tables).GoalSound settings := by
  have hdecided : ∀ e ∈ s.calls, e.2.stage.beforeEnqueue = true →
      e.2.stage = .decided ∧ e.2.goal.version < goal'.version := by
    intro e he hbefore
    rcases hok e he with hafter | ⟨hstage, hsome⟩
    · rw [hafter] at hbefore
      cases hbefore
    · obtain ⟨goal, hgoal⟩ := Option.isSome_iff_exists.1 hsome
      exact ⟨hstage, lt_of_le_of_lt ((h.goal goal hgoal).decided e he hstage) (hversion goal hgoal)⟩
  have hnoLast : ∀ turnId, turnId ∉ goal'.lastContinuationTurnId := by
    intro turnId hmem
    rw [hlast] at hmem
    cases hmem
  refine ⟨h.single, h.enqueued, ?_, ?_, ⟨h.exact.judgedOnce, h.exact.resetByOther, ?_, ?_⟩, ?_⟩
  · intro turnId hjudged
    have hold := h.judgedTurns turnId hjudged
    exact hturns ▸ hold
  · intro goal hmem
    cases hgoal'.symm.trans hmem
    refine ⟨?_, Nat.zero_le _, ?_, ?_, ?_, ?_⟩
    · intro cap _
      rw [hauto]
      exact Nat.zero_le cap
    · intro e he hadmitted _
      obtain ⟨hstage, hlt⟩ := hdecided e he hadmitted.1
      have heq := hadmitted.2 hstage
      omega
    · intro e he hstage
      have hbefore : e.2.stage.beforeEnqueue = true := by
        rw [hstage]
        rfl
      exact le_of_lt (hdecided e he hbefore).2
    · exact fun _ turnId hmem => absurd hmem (hnoLast turnId)
    · exact fun _ turnId hmem => absurd hmem (hnoLast turnId)
  · exact fun _ _ cap _ => Nat.zero_le cap
  · exact fun _ _ cap _ => Nat.zero_le cap
  · intro e he hbefore hrotated cap hcap
    exact lt_of_le_of_lt (Nat.zero_le _) (h.calls e he hbefore hrotated cap hcap)

theorem GoalSound.revise (h : s.GoalSound settings) (hgoal : s.tables.goal = some goal)
    (hauto : goal'.autoContinuations = goal.autoContinuations)
    (hmax : goal'.maxAutoContinuations = goal.maxAutoContinuations) (hversion : goal'.version = goal.version + 1)
    (hactive : goal'.status = .active → goal.status = .active ∧
      goal'.lastContinuationTurnId = goal.lastContinuationTurnId ∧
        goal'.versionAtLastContinuation = goal.versionAtLastContinuation ∧ goal'.noProgressStreak = 0) :
    GoalSound settings { s with tables := { s.tables with goal := some goal' } } := by
  have hmirrors := h.goal goal hgoal
  have hcap : settings.cap goal' = settings.cap goal := by
    unfold GoalSettings.cap EvaluateInput.cap
    rw [hmax]
  refine ⟨h.single, h.enqueued, h.judgedTurns, ?_, ⟨h.exact.judgedOnce, h.exact.resetByOther, ?_, h.exact.callsCapped⟩,
    h.calls⟩
  · intro row hrow
    cases hrow
    refine ⟨?_, ?_, ?_, ?_, ?_, ?_⟩
    · rw [hcap, hauto]
      exact hmirrors.capped
    · rw [hauto]
      exact hmirrors.counted
    · intro e he hadmitted hrotated
      rw [hauto]
      refine hmirrors.admitted e he ⟨hadmitted.1, fun hdecided => ?_⟩ hrotated
      have hle := hmirrors.decided e he hdecided
      have heq := hadmitted.2 hdecided
      omega
    · intro e he hdecided
      have hle := hmirrors.decided e he hdecided
      omega
    · intro hstill turnId hlast hall
      obtain ⟨hwas, hsame, -⟩ := hactive hstill
      rw [hsame] at hlast
      exact hmirrors.last hwas turnId hlast hall
    · intro hstill turnId hlast hjudged
      obtain ⟨hwas, hsame, hsameVersion, hzero⟩ := hactive hstill
      rw [hsame] at hlast
      right
      unfold settled
      rw [hzero, hsameVersion, hversion]
      rcases hmirrors.judged hwas turnId hlast hjudged with ⟨e, -, -, hat⟩ | hsettled
      · rw [hat]
        simp
      · -- what was revised stays revised
        unfold settled countTurnEvents at hsettled
        simp only [Bool.and_eq_true, Bool.or_eq_true] at hsettled
        rcases hsettled.2 with hrevised | htools
        · cases hat : goal.versionAtLastContinuation with
          | none =>
            rw [hat] at hrevised
            cases hrevised
          | some version =>
            rw [hat, Option.any_some, decide_eq_true_eq] at hrevised
            have hlt : version < goal.version + 1 := Nat.lt_succ_of_lt hrevised
            rw [Option.any_some, decide_eq_true hlt]
            rfl
        · unfold countTurnEvents
          rw [htools]
          simp
  · intro row hrow cap hmem
    cases hrow
    rw [hcap] at hmem
    exact h.exact.capped goal hgoal cap hmem

theorem Sound.createSessionGoal (h : s.Sound settings) (hok : s.MaySet)
    (hrun : createSessionGoal input s.tables = some tables) : (s.rearm tables).Sound settings := by
  unfold Db.createSessionGoal at hrun
  cases hgoal : s.tables.goal with
  | some goal =>
    rw [hgoal] at hrun
    cases hrun
  | none =>
    rw [hgoal] at hrun
    cases hrun
    refine ⟨h.1.of_turns rfl rfl rfl h.1.opened, h.2.rearm hok rfl rfl rfl ?_ rfl⟩
    intro goal hmem
    rw [hgoal] at hmem
    cases hmem

theorem Sound.upsertSessionGoal (h : s.Sound settings) (hok : s.MaySet) :
    (s.rearm (upsertSessionGoal input s.tables)).Sound settings := by
  unfold Db.upsertSessionGoal
  cases hgoal : s.tables.goal with
  | none =>
    refine ⟨h.1.of_turns rfl rfl rfl h.1.opened, h.2.rearm hok rfl rfl rfl ?_ rfl⟩
    intro goal hmem
    rw [hgoal] at hmem
    cases hmem
  | some existing =>
    refine ⟨h.1.of_turns rfl rfl rfl h.1.opened, h.2.rearm hok rfl rfl rfl ?_ rfl⟩
    intro goal hmem
    cases hgoal.symm.trans hmem
    exact Nat.lt_succ_self _

theorem Sound.updateSessionGoal (h : s.Sound settings) {text : Option String}
    {successCriteria : Option (Option String)}
    (hrun : updateSessionGoal text successCriteria s.tables = some tables) : Sound settings { s with tables } := by
  obtain ⟨goal, hgoal, rfl⟩ := Option.map_eq_some_iff.1 hrun
  refine ⟨h.1.of_turns rfl rfl rfl h.1.opened, h.2.revise hgoal rfl rfl rfl ?_⟩
  exact fun hactive => ⟨hactive, rfl, rfl, rfl⟩

theorem Sound.setSessionGoalStatus (h : s.Sound settings) {status : SessionGoalStatus}
    (hok : s.Orderly (.setSessionGoalStatus status)) (hstep : s.step settings (.setSessionGoalStatus status) = some s') :
    s'.Sound settings := by
  obtain ⟨tables, hrun, rfl⟩ := Option.map_eq_some_iff.1 hstep
  unfold Db.setSessionGoalStatus at hrun
  cases hgoal : s.tables.goal with
  | none =>
    rw [hgoal] at hrun
    cases hrun
  | some existing =>
    rw [hgoal] at hrun
    dsimp only at hrun
    rw [Option.any_some]
    split at hrun
    case isTrue hsame =>
      -- nothing changes
      cases hrun
      rw [if_neg]
      · exact h
      · rintro ⟨hactive, hother⟩
        rw [hsame, hactive] at hother
        cases hother
    case isFalse hdiffers =>
      split at hrun
      · cases hrun
      cases hrun
      by_cases hactive : status = .active
      · have hpaused : existing.status ≠ .active := hactive ▸ hdiffers
        rw [if_pos ⟨hactive, by simpa using hpaused⟩]
        refine ⟨h.1.of_turns rfl rfl rfl h.1.opened, h.2.rearm (hok hactive ⟨existing, hgoal, hpaused⟩) rfl ?_ ?_ ?_ rfl⟩
        · rw [if_pos hactive]
        · rw [if_pos hactive]
        · intro goal hmem
          cases hgoal.symm.trans hmem
          rw [if_pos hactive]
          exact Nat.lt_succ_self _
      · rw [if_neg fun hboth => hactive hboth.1, if_neg hactive]
        refine ⟨h.1.of_turns rfl rfl rfl h.1.opened, h.2.revise hgoal rfl rfl rfl ?_⟩
        exact fun hstill => absurd hstill hactive

theorem Sound.clearSessionGoal (h : s.Sound settings) (eventId : ℕ) :
    Sound settings { s with tables := clearSessionGoal eventId s.tables } := by
  unfold Db.clearSessionGoal
  cases hgoal : s.tables.goal with
  | none => exact h
  | some existing =>
    have hno : ∀ goal : GoalRow, goal ∉ (none : Option GoalRow) := fun goal hmem => Option.not_mem_none _ hmem
    refine ⟨h.1.of_turns rfl rfl rfl h.1.opened, h.2.single, h.2.enqueued, h.2.judgedTurns, fun goal hmem => absurd hmem (hno goal), ?_,
      h.2.calls⟩
    exact ⟨h.2.exact.judgedOnce, h.2.exact.resetByOther, fun goal hmem => absurd hmem (hno goal), h.2.exact.callsCapped⟩

/-! ## All steps -/

theorem Sound.setTables (h : s.Sound settings) (hqueue : (s.setTables tables).QueueSound)
    (hgoal : tables.goal = s.tables.goal) (hevents : tables.events = s.tables.events)
    (hturns : ∀ turn ∈ s.tables.turns, ∃ turn' ∈ tables.turns, turn'.id = turn.id) :
    (s.setTables tables).Sound settings := by
  have hnone : tables.events = s.tables.events ++ [] := by rw [hevents, List.append_nil]
  exact ⟨hqueue, h.2.of_goal hgoal hnone hturns⟩

theorem ids_of_map (hid : ∀ row, (f row).id = row.id) (rest : List TurnRow)
    (hturns : tables.turns = s.tables.turns.map f ++ rest) :
    ∀ turn ∈ s.tables.turns, ∃ turn' ∈ tables.turns, turn'.id = turn.id := by
  intro turn hturn
  rw [hturns]
  exact ⟨f turn, List.mem_append_left _ (List.mem_map_of_mem hturn), hid turn⟩

theorem renumber_events (turnIds : List ℕ) (index : ℕ) (t : SessionTables) :
    (renumber index turnIds t).events = t.events := by
  induction turnIds generalizing index t with
  | nil => rfl
  | cons turnId turnIds ih => exact ih (index + 1) _

theorem turnEdit_events {edit : TurnEdit} (h : edit.run t = some t') : t'.events = t.events := by
  cases edit with
  | claimNextQueuedTurn now =>
    cases h
    unfold Db.claimNextQueuedTurn
    split <;> rfl
  | requeuePreemptedTurn turnId triggerEventId fromStatuses =>
    unfold TurnEdit.run Db.requeuePreemptedTurn at h
    dsimp only at h
    split_ifs at h
    cases h
    rfl
  | cancelQueuedSessionTurn now turnId =>
    unfold TurnEdit.run Db.cancelQueuedSessionTurn at h
    dsimp only at h
    split_ifs at h
    cases h
    rfl
  | _ =>
    cases h
    rfl

/-- **Every orderly step keeps the invariants.** -/
theorem Sound.step (h : s.Sound settings) {e : GoalEvent} (hstep : s.step settings e = some s') (hok : s.Orderly e) :
    s'.Sound settings := by
  cases e with
  | evaluate i budgetBlocked => exact h.evaluate hok hstep
  | recheck i => exact h.recheck hstep
  | trigger i eventId => exact h.trigger hstep
  | enqueue i now turnId => exact h.enqueue hstep
  | setLast i => exact h.setLast hstep
  | crash i => exact h.crash hok hstep
  | enqueueSessionTurn now input =>
    unfold GoalHistory.step at hstep
    dsimp only at hstep
    split at hstep
    · cases hstep
    case isFalse hnew =>
      obtain ⟨hfresh, hsource⟩ := not_or.1 hnew
      cases hstep
      obtain ⟨position, f, hf, hturns⟩ := enqueueSessionTurn_rows now input s.tables
      have hid : ∀ row, (f row).id = row.id := by
        rcases hf with rfl | rfl
        · exact fun _ => rfl
        · exact fun row => (row.movedBack_spec position).1
      exact h.setTables (h.1.enqueueSessionTurn (Bool.eq_false_iff.2 hfresh) hsource) rfl rfl (ids_of_map hid _ hturns)
  | reorderQueuedSessionTurns turnIds =>
    obtain ⟨tables, hrun, rfl⟩ := Option.map_eq_some_iff.1 hstep
    obtain ⟨-, hturns⟩ := reorderQueuedSessionTurns_eq h.1.ids hrun
    have hevents : tables.events = s.tables.events := by
      unfold Db.reorderQueuedSessionTurns at hrun
      split_ifs at hrun
      rw [← Option.some.inj hrun]
      exact renumber_events turnIds 0 _
    refine h.setTables (h.1.reorder hrun hok) (reorderQueuedSessionTurns_frame hrun).2 hevents ?_
    exact ids_of_map (f := TurnRow.renumbered turnIds) (fun _ => rfl) [] (by rw [hturns, List.append_nil])
  | turnEdit edit =>
    unfold GoalHistory.step at hstep
    dsimp only at hstep
    split at hstep
    case isFalse => cases hstep
    case isTrue hproper =>
      obtain ⟨tables, hrun, rfl⟩ := Option.map_eq_some_iff.1 hstep
      have hkeeps := edit.run_keepsPositions hrun
      obtain ⟨f, hf, hturns⟩ := hkeeps.turns
      refine h.setTables (h.1.turnEdit hproper hok hrun) hkeeps.goal (turnEdit_events hrun) ?_
      exact ids_of_map (fun row => (hf row).1) [] (by rw [hturns, List.append_nil])
  | createSessionGoal input =>
    obtain ⟨tables, hrun, rfl⟩ := Option.map_eq_some_iff.1 hstep
    exact h.createSessionGoal hok hrun
  | upsertSessionGoal input =>
    cases hstep
    exact h.upsertSessionGoal hok
  | updateSessionGoal text successCriteria =>
    obtain ⟨tables, hrun, rfl⟩ := Option.map_eq_some_iff.1 hstep
    exact h.updateSessionGoal hrun
  | setSessionGoalStatus status => exact h.setSessionGoalStatus hok hstep
  | clearSessionGoal eventId =>
    cases hstep
    exact h.clearSessionGoal eventId
  | appendEvents inputs =>
    cases hstep
    exact ⟨h.1.of_turns rfl rfl rfl h.1.opened, h.2.of_goal rfl rfl fun turn hturn => ⟨turn, hturn, rfl⟩⟩

end

/-- **In an orderly run the counters of a goal are exact.** -/
theorem goal_counters_are_exact {settings : GoalSettings} {s s' : GoalHistory} {es : List GoalEvent} (hs : s.Fresh)
    (hrun : Run (Restrict (fun s e s' => s.step settings e = some s') Orderly) s es s') : s'.Exact settings := by
  have hsound : s'.Sound settings :=
    hrun.invariant (fun _ _ _ hstep h => h.step hstep.1 hstep.2) ⟨hs.queueSound, hs.goalSound⟩
  exact hsound.2.exact

/-! ## Calls that are lost -/

def emptySession : GoalHistory :=
  { tables :=
      { session := { id := 1, status := .idle, activeTurnId := none, lastSequence := 0, passiveMode := false }
        turns := [], goal := none, events := [], leases := [], waiter := none }
    calls := []
    lastEnqueued := none
    otherFinished := false
    judged := []
    resets := []
    enqueuedSince := 0 }

def newGoal : CreateSessionGoalInput :=
  { id := 2, text := "", successCriteria := none, maxAutoContinuations := some 1 }

def continueUpTo (i turnId : ℕ) : List GoalEvent :=
  [.evaluate i none, .recheck i, .trigger i turnId, .enqueue i 0 turnId]

/-- A continuation turn that runs to its end without a tool call. -/
def idleTurn (turnId : ℕ) : List GoalEvent :=
  [.turnEdit (.claimNextQueuedTurn 0), .turnEdit (.finishTurn 0 turnId (.session .idle))]

def firstContinuation : List GoalEvent :=
  .createSessionGoal { newGoal with maxAutoContinuations := none } :: continueUpTo 1 7 ++ .setLast 1 :: idleTurn 7

/-- The second call is lost after its decision, and the third judges turn 7 again. -/
def judgedTwice : List GoalEvent := firstContinuation ++ [.evaluate 2 none, .crash 2, .evaluate 3 none]

/-- The second call is lost after it has enqueued turn 8, and the third takes turn 8 for a user's. -/
def resetByContinuation : List GoalEvent :=
  firstContinuation ++ continueUpTo 2 8 ++ .crash 2 :: idleTurn 8 ++ [.evaluate 3 none]

/-- The goal is set again while turn 7 is about to be enqueued for it. -/
def cappedTwice : List GoalEvent :=
  [.createSessionGoal newGoal, .evaluate 1 none, .recheck 1, .upsertSessionGoal newGoal, .trigger 1 7, .enqueue 1 0 7,
    .setLast 1] ++ idleTurn 7 ++ continueUpTo 2 8

def threeIdleTurns : GoalSettings :=
  { goalMaxAutoContinuations := none, goalNoProgressLimit := 3 }

theorem lost_call_is_counted :
    emptySession.Fresh ∧
      (∃ s, Run (fun s e s' => step threeIdleTurns s e = some s') emptySession judgedTwice s ∧ s.judged = [7, 7]) ∧
      (∃ s, Run (fun s e s' => step threeIdleTurns s e = some s') emptySession resetByContinuation s ∧
        s.resets = [false]) ∧
      (∃ s, Run (fun s e s' => step threeIdleTurns s e = some s') emptySession cappedTwice s ∧
        s.enqueuedSince = 2 ∧ s.tables.goal.map threeIdleTurns.cap = some (some 1)) := by
  refine ⟨by decide, exists_run_of_play ?_, exists_run_of_play ?_, exists_run_of_play ?_⟩
  all_goals decide +kernel

/-- Without the losses two continuation turns are judged, and the third decision still goes on. -/
theorem idle_turns_are_counted :
    ∃ s : GoalHistory, s.Exact threeIdleTurns ∧ s.judged = [7, 8] ∧ s.enqueuedSince = 2 := by
  have hplay : ∃ s ∈ play (guarded (step threeIdleTurns) Orderly) emptySession
      (firstContinuation ++ continueUpTo 2 8 ++ .setLast 2 :: idleTurn 8 ++ [.evaluate 3 none]),
      s.judged = [7, 8] ∧ s.enqueuedSince = 2 := by decide +kernel
  obtain ⟨s, hs, hcount⟩ := hplay
  have hfresh : emptySession.Fresh := by decide
  exact ⟨s, goal_counters_are_exact hfresh (guarded_run hs), hcount⟩

end GoalHistory

end OpenGeni.Db
