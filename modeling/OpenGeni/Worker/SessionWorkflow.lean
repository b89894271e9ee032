/-
`sessionWorkflow` of `apps/worker/src/workflows/session.ts`.

The workflow is one thread of control that stops at an `await` and goes on when the
activity it waits for completes or its condition holds. So its state is the local
variables and the `await` it stands at, and every function below runs the code from one
`await` to the next. Signal handlers run in between. A batch of signals is handled as a
whole before a condition that has come true goes on, as the SDK does within one activation.

An activity that throws ends the workflow, but for the two places where the source catches
it: the agent turn itself and the goal check.
-/
import OpenGeni.Lib.Run

namespace OpenGeni.Worker

open OpenGeni.Lib

/-! ## What goes in -/

structure EventId where
  text : String
  nonempty : text ≠ ""
deriving DecidableEq

inductive Signal
  | userMessage
  | queueChanged
  | approvalDecision (eventId : EventId)
  | interrupt (eventId : EventId)
  | codexCapacityChanged
deriving DecidableEq

/-- The part of `SessionWorkflowInput` that is read. -/
structure SessionWorkflowInput where
  maxTurnsPerRun : Option ℕ
  maxCapacityChecksPerRun : Option ℕ

def TURNS_PER_RUN_BACKSTOP : ℕ := 2000

def CODEX_CAPACITY_CHECKS_PER_RUN_BACKSTOP : ℕ := 512

def ROTATION_IDLE_FLOOR_MS : ℤ := 60000

/-- The names passed to `patched`. -/
inductive Patch
  | sessionContinueAsNew
  | codexCapacityWait
  | workerDeathRedispatch

/-- What an activation tells the code: `workflowInfo().continueAsNewSuggested`, `patched`
and `Date.now()`. -/
structure Activation where
  continueAsNewSuggested : Bool
  patched : Patch → Bool
  now : ℤ

/-! ## Activities -/

/-- `CodexCapacityWaitRef`; `nextCheckAt` as `Date.parse` reads it. -/
structure CodexCapacityWaitRef where
  waiterId : String
  generation : ℕ
  nextCheckAt : Option ℤ
deriving DecidableEq

inductive Cause
  | timer
  | signal
  | queue
deriving DecidableEq

inductive ReconcileResult
  | waiting (wait : CodexCapacityWaitRef)
  | resumed
  | superseded
  | stale
deriving DecidableEq

inductive GoalAction
  | none
  | queue
  | continue
  | paused
deriving DecidableEq

inductive SegmentStatus
  | idle
  | requiresAction
  | failed
  | cancelled
  | preempted
deriving DecidableEq

structure RunAgentTurnResult where
  status : SegmentStatus
  continueDelayMs : Option ℤ
  idleUntilReset : Bool
  capacityWait : Option CodexCapacityWaitRef
deriving DecidableEq

inductive RequeueResult
  | requeued (redispatches : ℕ)
  | stale
  | exceeded (redispatches : ℕ)
deriving DecidableEq

/-- The part of a claimed turn that is read, and the arguments of `runTurn`. -/
structure Turn where
  turnId : String
  triggerEventId : EventId
deriving DecidableEq

inductive TimeoutType
  | heartbeat
  | scheduleToStart
  | startToClose
  | scheduleToClose
deriving DecidableEq

inductive FailureCause
  | timeout (timeoutType : TimeoutType)
  | cancellation
  | other
deriving DecidableEq

structure ActivityFailure where
  cause : FailureCause
  message : String
deriving DecidableEq

def ActivityFailure.isWorkerDeathFailure (error : ActivityFailure) : Bool :=
  decide (error.cause = .timeout .heartbeat) || decide (error.cause = .timeout .scheduleToStart)

inductive Answer
  | void
  | claimed (turn : Option Turn)
  | capacityWait (wait : Option CodexCapacityWaitRef)
  | reconciled (result : ReconcileResult)
  | goal (action : GoalAction)
  | segment (result : RunAgentTurnResult)
  | requeue (result : RequeueResult)
deriving DecidableEq

def continuationHoldMs (result : RunAgentTurnResult) (floorMs : ℤ) : ℤ := if result.status ≠ .idle then 0
  else
    let delay := result.continueDelayMs.getD 0
    if result.idleUntilReset then max delay floorMs else max delay 0

/-! ## The state -/

inductive Closed
  | completed
  | continuedAsNew
  | failed
deriving DecidableEq

/-- `wakeups` and `capacityWakeups`, as a caller has seen them. -/
structure Baseline where
  wakeups : ℕ
  capacityWakeups : ℕ
deriving DecidableEq

/-- The `await` the workflow stands at, with the local variables that live across it. -/
inductive Await
  | claimNextQueuedTurn
  | getCodexCapacityWait
  | codexCapacityCondition (current : CodexCapacityWaitRef) (seen : Baseline)
  | reconcileCodexCapacityWait (current : CodexCapacityWaitRef) (cause : Cause)
  | maybeContinueGoal
  | idleCondition (seenWakeups : ℕ)
  | pauseGoalForInterrupt (triggerEventId : EventId)
  /-- `markSessionIdle` behind `pauseGoalForInterrupt`. -/
  | markSessionIdleInterrupted
  | claimFinalTurn (seenWakeups : ℕ)
  | markSessionIdle (seenWakeups : ℕ)
  | interruptActiveTurn (triggerEventId : EventId)
  /-- The race between `runAgentSegment` and an interrupt. -/
  | runAgentSegment (turn : Turn) (baseline : Baseline)
  /-- `getCodexCapacityWait` of the failure path. -/
  | getCodexCapacityWaitOnFailure (turn : Turn) (baseline : Baseline) (error : ActivityFailure)
  | requeueTurnAfterWorkerDeath (turn : Turn)
  | failSession (turn : Turn) (error : String)
  | approvalCondition (turn : Turn) (result : RunAgentTurnResult)
  | holdCondition (seenWakeups : ℕ)
  | closed (why : Closed)
deriving DecidableEq

def Await.isActivity : Await → Bool
  | .codexCapacityCondition _ _ | .idleCondition _ | .approvalCondition _ _ | .holdCondition _ |
    .closed _ => false
  | _ => true

/-- The local variables of `sessionWorkflow`. -/
structure Workflow where
  approvalQueue : List EventId
  interruptedEventId : Option EventId
  wakeups : ℕ
  capacityWakeups : ℕ
  turnsThisRun : ℕ
  capacityChecksThisRun : ℕ
  pc : Await

namespace Workflow

variable (input : SessionWorkflowInput) (act : Activation)

def baseline (w : Workflow) : Baseline := ⟨w.wakeups, w.capacityWakeups⟩

/-! ## From one await to the next -/

def loopTop (w : Workflow) : Workflow := let maxTurnsPerRun := input.maxTurnsPerRun.getD TURNS_PER_RUN_BACKSTOP
  let shouldContinue := act.continueAsNewSuggested || decide (maxTurnsPerRun ≤ w.turnsThisRun)
  if act.patched .sessionContinueAsNew && shouldContinue && w.interruptedEventId.isNone then
    { w with
      approvalQueue := []
      pc := .closed .continuedAsNew }
  else { w with pc := .claimNextQueuedTurn }

/-- `runTurn`, from its start. -/
def runTurn (w : Workflow) (turn : Turn) : Workflow := match w.interruptedEventId with
  | some eventId => { w with pc := .interruptActiveTurn eventId }
  | none => { w with pc := .runAgentSegment turn w.baseline }

/-- The cause that `waitForCodexCapacity` finds behind its condition. -/
def capacityCause (w : Workflow) (seen : Baseline) : Cause := if w.wakeups ≠ seen.wakeups then .queue
  else if w.capacityWakeups ≠ seen.capacityWakeups then .signal
  else .timer

/-- The loop of `waitForCodexCapacity`, from its top. Both of its callers go on at the top of
the main loop. -/
def waitForCodexCapacity (w : Workflow) (current : CodexCapacityWaitRef)
    (entryBaseline : Option Baseline) : Workflow :=
  if w.interruptedEventId.isSome then w.loopTop input act
  else
    let seen := entryBaseline.getD w.baseline
    let timerMs := (current.nextCheckAt.map fun deadline => max 0 (deadline - act.now)).getD 0
    if w.wakeups = seen.wakeups ∧ w.capacityWakeups = seen.capacityWakeups ∧ 0 < timerMs then
      { w with pc := .codexCapacityCondition current seen }
    else { w with pc := .reconcileCodexCapacityWait current (w.capacityCause seen) }

/-- Behind the condition of `waitForCodexCapacity`. -/
def afterCapacityCondition (w : Workflow) (current : CodexCapacityWaitRef) (seen : Baseline) : Workflow :=
  if w.interruptedEventId.isSome then w.loopTop input act
  else { w with pc := .reconcileCodexCapacityWait current (w.capacityCause seen) }

/-- Behind `reconcileCodexCapacityWait`. -/
def afterReconcile (w : Workflow) (result : ReconcileResult) : Workflow := match result with
  | .waiting wait =>
    let w := { w with capacityChecksThisRun := w.capacityChecksThisRun + 1 }
    let backstop := input.maxCapacityChecksPerRun.getD CODEX_CAPACITY_CHECKS_PER_RUN_BACKSTOP
    if w.interruptedEventId.isNone &&
        (act.continueAsNewSuggested || decide (backstop ≤ w.capacityChecksThisRun)) then
      { w with pc := .closed .continuedAsNew }
    else w.waitForCodexCapacity input act wait none
  | _ => w.loopTop input act

def afterIdleCondition (w : Workflow) (seenWakeups : ℕ) (woke : Bool) : Workflow := match w.interruptedEventId with
  | some idleInterruptEventId =>
    { w with
      interruptedEventId := none
      pc := .pauseGoalForInterrupt idleInterruptEventId }
  | none =>
    if woke then w.loopTop input act else { w with pc := .claimFinalTurn seenWakeups }

def idleWait (w : Workflow) : Workflow :=
  if w.interruptedEventId.isSome then w.afterIdleCondition input act w.wakeups true
  else { w with pc := .idleCondition w.wakeups }

def goalCheck (w : Workflow) : Workflow :=
  if w.interruptedEventId.isNone then { w with pc := .maybeContinueGoal } else w.idleWait input act

def afterGoalCheck (w : Workflow) (action : GoalAction) : Workflow :=
  if action = .continue ∨ action = .queue then w.loopTop input act else w.idleWait input act

def afterClaim (w : Workflow) (turn : Option Turn) : Workflow := match turn with
  | none =>
    if w.interruptedEventId.isNone && act.patched .codexCapacityWait then
      { w with pc := .getCodexCapacityWait }
    else w.goalCheck input act
  | some turn => { w with turnsThisRun := w.turnsThisRun + 1 }.runTurn turn

def afterFinalClaim (w : Workflow) (finalTurn : Option Turn) (seenWakeups : ℕ) : Workflow := match finalTurn with
  | none => { w with pc := .markSessionIdle seenWakeups }
  | some turn => { w with turnsThisRun := w.turnsThisRun + 1 }.runTurn turn

/-- Behind `markSessionIdle` at the end of the idle wait. -/
def afterMarkIdle (w : Workflow) (seenWakeups : ℕ) : Workflow :=
  if w.interruptedEventId.isSome ∨ w.wakeups ≠ seenWakeups then w.loopTop input act
  else { w with pc := .closed .completed }

/-- `interruptedEventId = null; return true`, behind `interruptActiveTurn`. -/
def afterInterrupt (w : Workflow) : Workflow := { w with interruptedEventId := none }.loopTop input act

def hold (w : Workflow) (result : RunAgentTurnResult) : Workflow :=
  if 0 < continuationHoldMs result ROTATION_IDLE_FLOOR_MS ∧ w.interruptedEventId.isNone then
    { w with pc := .holdCondition w.wakeups }
  else w.loopTop input act

def afterApprovalCondition (w : Workflow) (turn : Turn) (result : RunAgentTurnResult) : Workflow :=
  match w.interruptedEventId, w.approvalQueue with
  | some eventId, _ => { w with pc := .interruptActiveTurn eventId }
  | none, approvalEventId :: approvalQueue =>
    { w with approvalQueue }.runTurn ⟨turn.turnId, approvalEventId⟩
  | none, [] => w.hold input act result

def approvalWait (w : Workflow) (turn : Turn) (result : RunAgentTurnResult) : Workflow :=
  if w.interruptedEventId.isSome ∨ w.approvalQueue ≠ [] then w.afterApprovalCondition input act turn result
  else { w with pc := .approvalCondition turn result }

def afterSegment (w : Workflow) (turn : Turn) (baseline : Baseline) (result : RunAgentTurnResult) : Workflow :=
  if result.status = .failed then { w with pc := .closed .completed }
  else if result.status = .cancelled ∨ result.status = .preempted then w.loopTop input act
  else
    match result.capacityWait with
    | some wait => w.waitForCodexCapacity input act wait (some baseline)
    | none =>
      if result.status = .requiresAction then w.approvalWait input act turn result
      else w.hold input act result

def afterFailure (w : Workflow) (turn : Turn) (error : ActivityFailure) : Workflow :=
  if error.isWorkerDeathFailure && act.patched .workerDeathRedispatch then
    { w with pc := .requeueTurnAfterWorkerDeath turn }
  else { w with pc := .failSession turn error.message }

def afterSegmentFailure (w : Workflow) (turn : Turn) (baseline : Baseline) (error : ActivityFailure) : Workflow :=
  if act.patched .codexCapacityWait then
    { w with pc := .getCodexCapacityWaitOnFailure turn baseline error }
  else w.afterFailure act turn error

def workerDeathText (redispatches : ℕ) : String := "Worker died " ++ toString (redispatches + 1) ++
    " times while running this turn (heartbeat timeout); giving up after " ++
    toString redispatches ++ " re-dispatches."

/-- Behind `requeueTurnAfterWorkerDeath`. -/
def afterRequeue (w : Workflow) (turn : Turn) (result : RequeueResult) : Workflow := match result with
  | .exceeded redispatches => { w with pc := .failSession turn (workerDeathText redispatches) }
  | _ => w.loopTop input act

/-! ## Activations -/

def handle (w : Workflow) : Signal → Workflow
  | .userMessage | .queueChanged => { w with wakeups := w.wakeups + 1 }
  | .approvalDecision eventId => { w with approvalQueue := w.approvalQueue ++ [eventId] }
  | .interrupt eventId => { w with interruptedEventId := some eventId }
  | .codexCapacityChanged => { w with capacityWakeups := w.capacityWakeups + 1 }

def unblock (w : Workflow) : Option Workflow := match w.pc with
  | .codexCapacityCondition current seen =>
    if w.interruptedEventId.isSome ∨ w.wakeups ≠ seen.wakeups ∨ w.capacityWakeups ≠ seen.capacityWakeups then
      some (w.afterCapacityCondition input act current seen)
    else none
  | .idleCondition seenWakeups =>
    if w.interruptedEventId.isSome ∨ w.wakeups ≠ seenWakeups then
      some (w.afterIdleCondition input act seenWakeups true)
    else none
  | .runAgentSegment _ _ => w.interruptedEventId.map fun eventId =>
    { w with pc := .interruptActiveTurn eventId }
  | .approvalCondition turn result =>
    if w.interruptedEventId.isSome ∨ w.approvalQueue ≠ [] then
      some (w.afterApprovalCondition input act turn result)
    else none
  | .holdCondition seenWakeups =>
    if w.interruptedEventId.isSome ∨ w.wakeups ≠ seenWakeups then some (w.loopTop input act) else none
  | _ => none

def timeout (w : Workflow) : Option Workflow := match w.pc with
  | .codexCapacityCondition current seen => some (w.afterCapacityCondition input act current seen)
  | .idleCondition seenWakeups => some (w.afterIdleCondition input act seenWakeups false)
  | .holdCondition _ => some (w.loopTop input act)
  | _ => none

def resume (w : Workflow) (answer : Answer) : Option Workflow := match w.pc, answer with
  | .claimNextQueuedTurn, .claimed turn => some (w.afterClaim input act turn)
  | .getCodexCapacityWait, .capacityWait (some wait) => some (w.waitForCodexCapacity input act wait none)
  | .getCodexCapacityWait, .capacityWait none => some (w.goalCheck input act)
  | .reconcileCodexCapacityWait _ _, .reconciled result => some (w.afterReconcile input act result)
  | .maybeContinueGoal, .goal action => some (w.afterGoalCheck input act action)
  | .pauseGoalForInterrupt _, .void => some { w with pc := .markSessionIdleInterrupted }
  | .markSessionIdleInterrupted, .void => some { w with pc := .closed .completed }
  | .claimFinalTurn seenWakeups, .claimed turn => some (w.afterFinalClaim turn seenWakeups)
  | .markSessionIdle seenWakeups, .void => some (w.afterMarkIdle input act seenWakeups)
  | .interruptActiveTurn _, .void => some (w.afterInterrupt input act)
  | .runAgentSegment turn baseline, .segment result =>
    some (w.afterSegment input act turn baseline result)
  | .getCodexCapacityWaitOnFailure _ baseline _, .capacityWait (some wait) =>
    some (w.waitForCodexCapacity input act wait (some baseline))
  | .getCodexCapacityWaitOnFailure turn _ error, .capacityWait none =>
    some (w.afterFailure act turn error)
  | .requeueTurnAfterWorkerDeath turn, .requeue result => some (w.afterRequeue input act turn result)
  | .failSession _ _, .void => some { w with pc := .closed .completed }
  | _, _ => none

def throw (w : Workflow) (error : ActivityFailure) : Option Workflow := match w.pc with
  | .maybeContinueGoal =>
    if error.cause = .cancellation then some { w with pc := .closed .failed }
    else some (w.afterGoalCheck input act .none)
  | .runAgentSegment turn baseline => some (w.afterSegmentFailure act turn baseline error)
  | pc => if pc.isActivity then some { w with pc := .closed .failed } else none

def start : Workflow :=
  { approvalQueue := [], interruptedEventId := none, wakeups := 0, capacityWakeups := 0, turnsThisRun := 0
    capacityChecksThisRun := 0, pc := .claimNextQueuedTurn : Workflow }.loopTop input act

end Workflow

/-! ## Executions -/

inductive Event
  | signals (batch : List Signal)
  | timeout
  | returned (answer : Answer)
  | threw (error : ActivityFailure)

/-- What the event history records: the signals, and the awaits the code has reached. -/
inductive HistoryEvent
  | signaled (signal : Signal)
  | reached (pc : Await)

structure Execution where
  workflow : Workflow
  history : List HistoryEvent

namespace Execution

def start (input : SessionWorkflowInput) (act : Activation) : Execution :=
  ⟨.start input act, [.reached (Workflow.start input act).pc]⟩

def go (x : Execution) (w : Workflow) : Execution := ⟨w, x.history ++ [.reached w.pc]⟩

def deliver (x : Execution) (batch : List Signal) : Execution :=
  ⟨batch.foldl Workflow.handle x.workflow, x.history ++ batch.map .signaled⟩

def step (input : SessionWorkflowInput) (x : Execution) (a : Activation × Event) : Option Execution :=
  match a.2 with
  | .signals batch =>
    match x.workflow.pc with
    | .closed _ => none
    | _ =>
      let x' := x.deliver batch
      some (((x'.workflow.unblock input a.1).map x'.go).getD x')
  | .timeout => (x.workflow.timeout input a.1).map x.go
  | .returned answer => (x.workflow.resume input a.1 answer).map x.go
  | .threw error => (x.workflow.throw input a.1 error).map x.go

/-- `step`, as a relation. -/
def Steps (input : SessionWorkflowInput) (x : Execution) (a : Activation × Event) (x' : Execution) : Prop :=
  x.step input a = some x'

variable {input : SessionWorkflowInput} {act : Activation} {x x' : Execution} {batch : List Signal}

theorem signals_cases (h : Steps input x (act, .signals batch) x') : (∀ why, x.workflow.pc ≠ .closed why) ∧
      ((∃ w, (x.deliver batch).workflow.unblock input act = some w ∧ x' = (x.deliver batch).go w) ∨
        (x.deliver batch).workflow.unblock input act = none ∧ x' = x.deliver batch) := by
  unfold Steps step at h
  dsimp only at h
  split at h
  · simp at h
  · next hopen =>
      refine ⟨hopen, ?_⟩
      cases h
      cases (x.deliver batch).workflow.unblock input act with
      | some w => exact Or.inl ⟨w, rfl, rfl⟩
      | none => exact Or.inr ⟨rfl, rfl⟩

@[simp] theorem deliver_pc : (x.deliver batch).workflow.pc = x.workflow.pc := by
  have hfold : ∀ (batch : List Signal) (w : Workflow), (batch.foldl Workflow.handle w).pc = w.pc := by
    intro batch
    induction batch with
    | nil => exact fun _ => rfl
    | cons signal batch ih =>
      intro w
      rw [List.foldl_cons, ih]
      cases signal <;> rfl
  exact hfold batch x.workflow

end Execution

end OpenGeni.Worker
