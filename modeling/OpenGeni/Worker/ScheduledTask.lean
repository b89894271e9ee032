/-
A scheduled task, its runs, and the activity that dispatches one.

`dispatchScheduledTaskRun` reads the task once, inserts a run row and then works on a session: one
of its own, or the reusable session of the task where it has one. Every write is a transaction of
its own, and a failure after the run row exists marks the run failed. Fires overlap: a scheduled
one and a manual one, or an attempt that the server has given up and the next.
-/
import OpenGeni.Db.SessionTables
import OpenGeni.Lib.Run
import OpenGeni.Lib.Slots

namespace OpenGeni.Worker.Schedule

open OpenGeni.Lib
open OpenGeni.Db (SessionStatus SessionTurnStatus)

/-! ## The rows -/

inductive ScheduledTaskRunMode
  | newSessionPerRun | reusableSession
deriving DecidableEq

inductive ScheduledTaskRunStatus
  | queued | dispatched | failed
deriving DecidableEq

/-- A row of `scheduled_tasks`. `goal` is the text of its goal. -/
structure ScheduledTask where
  runMode : ScheduledTaskRunMode
  reusableSessionId : Option ℕ
  variableSetId : Option ℕ
  goal : Option String

/-- What is `none` is left as it is. -/
structure UpdateScheduledTaskInput where
  runMode : Option ScheduledTaskRunMode
  reusableSessionId : Option (Option ℕ)
  variableSetId : Option (Option ℕ)
  goal : Option (Option String)

def updateScheduledTask (input : UpdateScheduledTaskInput) (task : ScheduledTask) : ScheduledTask :=
  { runMode := input.runMode.getD task.runMode
    reusableSessionId := input.reusableSessionId.getD task.reusableSessionId
    variableSetId := input.variableSetId.getD task.variableSetId, goal := input.goal.getD task.goal }

/-- A row of `scheduled_task_runs`. Its id is its place. -/
structure ScheduledTaskRun where
  status : ScheduledTaskRunStatus
  sessionId : Option ℕ
  triggerEventId : Option ℕ
  /-- The variable set of the task as the fire has read it. -/
  variableSetId : Option ℕ

inductive SessionEvent
  | sessionCreated (runId : ℕ)
  | goalSet (text : String) (replaced : Bool)
  | userMessage (scheduledTaskRunId : Option ℕ)
  | statusChanged (status : SessionStatus)
  | turnQueued (turn triggerEventId : ℕ)

structure SessionTurn where
  triggerEventId : ℕ
  scheduledTaskRunId : Option ℕ
  status : SessionTurnStatus
deriving DecidableEq

structure SessionRow where
  status : SessionStatus
  variableSetId : Option ℕ
  goal : Option String
  temporalWorkflowId : Option String
  events : List SessionEvent
  turns : List SessionTurn
  turnsAtCancel : Option ℕ

def SessionRow.append (events : List SessionEvent) (row : SessionRow) : SessionRow :=
  { row with events := row.events ++ events }

def SessionRow.enqueue (turn : SessionTurn) (row : SessionRow) : SessionRow :=
  { row with turns := row.turns ++ [turn] }

/-- The user's act. It is the one status that a session does not leave. -/
def SessionRow.cancel (row : SessionRow) : SessionRow := if row.status = .cancelled then row
  else { row with status := .cancelled, turnsAtCancel := some row.turns.length }

/-- `createSession`. -/
def ScheduledTask.session (task : ScheduledTask) : SessionRow :=
  { status := .queued, variableSetId := task.variableSetId, goal := none, temporalWorkflowId := none, events := []
    turns := [], turnsAtCancel := none }

def workflowIdForSession (sessionId : ℕ) : String := "session-" ++ toString sessionId

/-! ## The activity -/

inductive Stage
  | creatingRun
  | recordingFired (runId : ℕ)
  /-- It chooses between a session of its own and the reusable one. -/
  | choosing (runId : ℕ)
  | creatingGoal (runId sessionId : ℕ)
  | settingWorkflowId (runId sessionId : ℕ)
  | settingReusableSession (runId sessionId : ℕ)
  | appending (runId sessionId : ℕ)
  | upsertingGoal (runId sessionId : ℕ)
  /-- The append to the reusable session under its lock. -/
  | appendingLocked (runId sessionId : ℕ)
  | enqueuing (runId sessionId event : ℕ)
  | announcing (runId sessionId event turn : ℕ)
  | markingDispatched (runId sessionId event turn : ℕ)
  | recordingCreated (runId : ℕ)
  | markingFailed (runId : ℕ)
  | ended
deriving DecidableEq

structure Fire where
  task : ScheduledTask
  stage : Stage

structure Rows where
  task : ScheduledTask
  sessions : List SessionRow
  runs : List ScheduledTaskRun

namespace Rows

def updateSession (sessionId : ℕ) (f : SessionRow → SessionRow) (rows : Rows) : Rows :=
  { rows with sessions := rows.sessions.modify sessionId f }

def updateScheduledTaskRun (runId : ℕ) (f : ScheduledTaskRun → ScheduledTaskRun) (rows : Rows) : Rows :=
  { rows with runs := rows.runs.modify runId f }

end Rows

/-- Where a throw leads: to the catch from within the `try`. -/
def Stage.catch : Stage → Stage
  | .choosing runId | .creatingGoal runId _ | .settingWorkflowId runId _ | .settingReusableSession runId _
  | .appending runId _ | .upsertingGoal runId _ | .appendingLocked runId _ | .enqueuing runId _ _
  | .announcing runId _ _ _ | .markingDispatched runId _ _ _ => .markingFailed runId
  | .creatingRun | .recordingFired _ | .recordingCreated _ | .markingFailed _ | .ended => .ended

def ScheduledTask.openingEvents (task : ScheduledTask) (runId : ℕ) : List SessionEvent :=
  .sessionCreated runId :: (task.goal.map fun text => .goalSet text false).toList

def ScheduledTask.goalEvents (task : ScheduledTask) : List SessionEvent :=
  (task.goal.map fun text => .goalSet text true).toList

/-- After `requireSession`: the session may be used again, and has the variable set of the task. -/
def ScheduledTask.fits (task : ScheduledTask) (session : SessionRow) : Bool :=
  session.status ≠ .cancelled && session.variableSetId = task.variableSetId

/-- The next transaction of a fire with the rows after it and what is next; `none` where it throws. -/
def Fire.transact (rows : Rows) (fire : Fire) : Option (Rows × Stage) :=
  match fire.stage with
  | .creatingRun =>
    let run : ScheduledTaskRun :=
      { status := .queued, sessionId := none, triggerEventId := none, variableSetId := fire.task.variableSetId }
    some ({ rows with runs := rows.runs ++ [run] }, .recordingFired rows.runs.length)
  | .recordingFired runId => some (rows, .choosing runId)
  | .choosing runId =>
    match fire.task.runMode, fire.task.reusableSessionId with
    | .reusableSession, some sessionId =>
      match rows.sessions[sessionId]? with
      | none => none
      | some session =>
        if fire.task.fits session then
          some (rows,
            if fire.task.goal.isSome then .upsertingGoal runId sessionId else .appendingLocked runId sessionId)
        else none
    | _, _ =>
      let sessionId := rows.sessions.length
      some ({ rows with sessions := rows.sessions ++ [fire.task.session] },
        if fire.task.goal.isSome then .creatingGoal runId sessionId else .settingWorkflowId runId sessionId)
  | .creatingGoal runId sessionId =>
    some (rows.updateSession sessionId fun row => { row with goal := fire.task.goal }, .settingWorkflowId runId sessionId)
  | .settingWorkflowId runId sessionId =>
    some (rows.updateSession sessionId fun row =>
        { row with temporalWorkflowId := some (workflowIdForSession sessionId) },
      if fire.task.runMode = .reusableSession then .settingReusableSession runId sessionId else .appending runId sessionId)
  | .settingReusableSession runId sessionId =>
    some ({ rows with task := { rows.task with reusableSessionId := some sessionId } }, .appending runId sessionId)
  | .appending runId sessionId =>
    match rows.sessions[sessionId]? with
    | none => none
    | some row =>
      let opening := fire.task.openingEvents runId
      some (rows.updateSession sessionId (·.append (opening ++ [.userMessage (some runId), .statusChanged .queued])),
        .enqueuing runId sessionId (row.events.length + opening.length))
  | .upsertingGoal runId sessionId =>
    some (rows.updateSession sessionId fun row => { row with goal := fire.task.goal }, .appendingLocked runId sessionId)
  | .appendingLocked runId sessionId =>
    match rows.sessions[sessionId]? with
    | none => none
    | some row =>
      -- `assertReusableSessionRevivable` once more, under the lock
      if row.status = .cancelled then none
      else
        some (rows.updateSession sessionId (·.append (fire.task.goalEvents ++ [.userMessage (some runId)])),
          .enqueuing runId sessionId (row.events.length + fire.task.goalEvents.length))
  | .enqueuing runId sessionId event =>
    match rows.sessions[sessionId]? with
    | none => none
    | some row =>
      let turn : SessionTurn :=
        { triggerEventId := event, scheduledTaskRunId := some runId, status := .queued }
      some (rows.updateSession sessionId (·.enqueue turn), .announcing runId sessionId event row.turns.length)
  | .announcing runId sessionId event turn =>
    some (rows.updateSession sessionId (·.append [.turnQueued turn event]),
      .markingDispatched runId sessionId event turn)
  | .markingDispatched runId sessionId event _ =>
    some (rows.updateScheduledTaskRun runId fun run =>
        { run with
          status := .dispatched
          sessionId := some sessionId
          triggerEventId := some event },
      .recordingCreated runId)
  | .recordingCreated _ => some (rows, .ended)
  | .markingFailed runId => some (rows.updateScheduledTaskRun runId fun run => { run with status := .failed }, .ended)
  | .ended => none

/-! ## Updates of the task -/

/-- `validatedScheduledTaskUpdate` refuses to change the variable set under a reusable session. -/
def validatedScheduledTaskUpdate (existing : ScheduledTask) (payload : UpdateScheduledTaskInput) :
    Option UpdateScheduledTaskInput :=
  if payload.variableSetId.any (· ≠ existing.variableSetId) ∧ existing.runMode = .reusableSession ∧
      existing.reusableSessionId.isSome then none
  else some { payload with reusableSessionId := none }

structure TaskUpdate where
  existing : ScheduledTask
  input : UpdateScheduledTaskInput

/-- `restoreScheduledTask`. -/
def ScheduledTask.restoring (task : ScheduledTask) : UpdateScheduledTaskInput :=
  { runMode := some task.runMode, reusableSessionId := some task.reusableSessionId
    variableSetId := some task.variableSetId, goal := some task.goal }

/-! ## The system -/

/-- What can become of a turn. One that is completed or has failed stays so; one that was cancelled by a dying
worker is queued again. -/
def SessionTurnStatus.mayBecome : SessionTurnStatus → SessionTurnStatus → Bool
  | .completed, status => status == .completed
  | .failed, status => status == .failed
  | _, _ => true

def SessionTurn.settled (turn : SessionTurn) : Prop := turn.status = .completed ∨ turn.status = .failed

instance (turn : SessionTurn) : Decidable turn.settled := inferInstanceAs (Decidable (_ ∨ _))

structure ScheduleState extends Rows where
  fires : Slots ℕ Fire
  /-- Every update that has been validated, also those that are already made: it may be made late. -/
  updates : List TaskUpdate
  /-- The task has been in reusable mode all the time. -/
  stays : Bool

inductive ScheduleEvent
  /-- A fire starts: `requireScheduledTask` and the admission. -/
  | fire (i : ℕ)
  | transact (i : ℕ)
  | throw (i : ℕ)
  | lose (i : ℕ)
  | stop (i : ℕ)
  | validateUpdate (payload : UpdateScheduledTaskInput)
  | update (index : ℕ)
  /-- The schedule could not be synced after an update. -/
  | restore (index : ℕ)
  | cancelSession (sessionId : ℕ)
  | setSessionStatus (sessionId : ℕ) (status : SessionStatus)
  | moveTurn (sessionId turn : ℕ) (status : SessionTurnStatus)
  /-- A message that is not of this task, with its turn. -/
  | otherMessage (sessionId : ℕ)

namespace ScheduleState

def withRows (rows : Rows) (s : ScheduleState) : ScheduleState := { s with toRows := rows }

def setStage (i : ℕ) (fire : Fire) (stage : Stage) (s : ScheduleState) : ScheduleState :=
  { s with fires := s.fires.put i { fire with stage } }

def writeTask (input : UpdateScheduledTaskInput) (s : ScheduleState) : ScheduleState :=
  let task := updateScheduledTask input s.task
  { s with task, stays := s.stays && task.runMode == .reusableSession }

def step (s : ScheduleState) : ScheduleEvent → Option ScheduleState
  | .fire i =>
    match s.fires.get i with
    | some _ => none
    | none => some { s with fires := s.fires.put i { task := s.task, stage := .creatingRun } }
  | .transact i => do
    let fire ← s.fires.get i
    match fire.transact s.toRows with
    | some (rows, stage) => some ((s.withRows rows).setStage i fire stage)
    | none => if fire.stage = .ended then none else some (s.setStage i fire fire.stage.catch)
  | .throw i => do
    let fire ← s.fires.get i
    if fire.stage = .ended then none else some (s.setStage i fire fire.stage.catch)
  | .lose i => do
    let fire ← s.fires.get i
    let (rows, _) ← fire.transact s.toRows
    some ((s.withRows rows).setStage i fire fire.stage.catch)
  | .stop i => do
    let fire ← s.fires.get i
    some (s.setStage i fire .ended)
  | .validateUpdate payload =>
    match validatedScheduledTaskUpdate s.task payload with
    | none => some s
    | some input => some { s with updates := s.updates ++ [{ existing := s.task, input }] }
  | .update index => s.updates[index]?.map fun update => s.writeTask update.input
  | .restore index => s.updates[index]?.map fun update => s.writeTask update.existing.restoring
  | .cancelSession sessionId => some (s.withRows (s.updateSession sessionId SessionRow.cancel))
  | .setSessionStatus sessionId status =>
    some (s.withRows (s.updateSession sessionId fun row =>
      if row.status = .cancelled ∨ status = .cancelled then row else { row with status }))
  | .moveTurn sessionId turn status =>
    some (s.withRows (s.updateSession sessionId fun row =>
      { row with
        turns := row.turns.modify turn fun turn =>
          if SessionTurnStatus.mayBecome turn.status status then { turn with status } else turn }))
  | .otherMessage sessionId =>
    some (s.withRows (s.updateSession sessionId fun row =>
      (row.append [.userMessage none]).enqueue
        { triggerEventId := row.events.length, scheduledTaskRunId := none, status := .queued }))

def new (runMode : ScheduledTaskRunMode) (variableSetId : Option ℕ) (goal : Option String) : ScheduleState :=
  { task := { runMode, reusableSessionId := none, variableSetId, goal }, sessions := [], runs := [], fires := []
    updates := [], stays := runMode == .reusableSession }

end ScheduleState

def Step (s : ScheduleState) (e : ScheduleEvent) (t : ScheduleState) : Prop := s.step e = some t

/-! ## What is to hold -/

def MessageAt (sessions : List SessionRow) (runId sessionId event : ℕ) : Prop :=
  ∃ row, sessions[sessionId]? = some row ∧ row.events[event]? = some (.userMessage (some runId))

/-- The run names the one message of the run, which is the trigger of one turn. -/
def ScheduledTaskRun.Dispatched (sessions : List SessionRow) (runId : ℕ) (run : ScheduledTaskRun) : Prop :=
  ∃ (sessionId event : ℕ) (row : SessionRow), run.sessionId = some sessionId ∧ run.triggerEventId = some event ∧
    sessions[sessionId]? = some row ∧
    (∀ sessionId' event', MessageAt sessions runId sessionId' event' ↔ sessionId' = sessionId ∧ event' = event) ∧
    ∃! n : ℕ, (row.turns[n]?).map (·.triggerEventId) = some event

/-- **A fire is one run in the right session.** -/
structure OneRun (s : ScheduleState) : Prop where
  oneSession : s.stays = true → s.sessions.length ≤ 1
  dispatched : ∀ (runId : ℕ) (run : ScheduledTaskRun), s.runs[runId]? = some run → run.status = .dispatched →
    run.Dispatched s.sessions runId
  failed : ∀ (runId : ℕ) (run : ScheduledTaskRun), s.runs[runId]? = some run → run.status = .failed →
    ∀ row ∈ s.sessions, ∀ turn ∈ row.turns, turn.scheduledTaskRunId = some runId →
      turn.status ≠ .queued ∧ turn.status ≠ .running
  /-- No turn of a run comes after the cancellation. -/
  revived : ∀ row ∈ s.sessions, ∀ n ∈ row.turnsAtCancel, ∀ turn ∈ row.turns.drop n, turn.scheduledTaskRunId = none
  /-- The session has the variable set that the task had at the dispatch. -/
  variableSet : ∀ (runId : ℕ) (run : ScheduledTaskRun), s.runs[runId]? = some run →
    ∀ row ∈ s.sessions, ∀ turn ∈ row.turns, turn.scheduledTaskRunId = some runId → row.variableSetId = run.variableSetId

/-! ## The condition -/

/-- The fire has found no reusable session and has not created one yet. -/
def Fire.mayCreate (fire : Fire) : Prop := fire.task.reusableSessionId = none ∧ match fire.stage with
    | .creatingRun | .recordingFired _ | .choosing _ => True
    | _ => False

instance (fire : Fire) : Decidable fire.mayCreate := by
  unfold Fire.mayCreate
  cases fire.stage <;> infer_instance

/-- The session that the fire puts its turn into without looking at its status again. -/
def Stage.aims : Stage → Option ℕ
  | .creatingGoal _ sessionId | .settingWorkflowId _ sessionId | .settingReusableSession _ sessionId
  | .appending _ sessionId | .enqueuing _ sessionId _ => some sessionId
  | _ => none

def Stage.fails : Stage → Option ℕ
  | .markingFailed runId => some runId
  | _ => none

namespace ScheduleState

def Undisturbed (s : ScheduleState) : ScheduleEvent → Prop
  /- A fire that reads the task without its reusable session is the only one, and none has come before. -/
  | .fire _ => s.stays = true → s.task.reusableSessionId = none → s.sessions = [] ∧ ∀ e ∈ s.fires, ¬ e.2.mayCreate
  /- What the catch marks failed has no turn yet, or its turn has come to its end. -/
  | .transact i | .lose i => ∀ fire ∈ s.fires.get i, ∀ runId ∈ fire.stage.fails, ∀ row ∈ s.sessions, ∀ turn ∈ row.turns,
      turn.scheduledTaskRunId = some runId → turn.settled
  /- No session is cancelled that a fire is about to put a turn into. -/
  | .cancelSession sessionId => ∀ row ∈ s.sessions[sessionId]?, row.status ≠ .cancelled →
      ∀ e ∈ s.fires, e.2.stage.aims ≠ some sessionId
  | _ => True

instance (s : ScheduleState) (e : ScheduleEvent) : Decidable (s.Undisturbed e) := by
  cases e <;> unfold Undisturbed <;> infer_instance

end ScheduleState

end OpenGeni.Worker.Schedule
