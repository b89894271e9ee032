/-
Session events (`packages/contracts/src/index.ts`).

An event has a place in the log of its session, a type and a payload that is any JSON value. The
strings and the numbers of a payload are parameters: on the wire they are code units and decimal
texts, to the readers they are characters and numbers.
-/
import OpenGeni.Lib.Json

namespace OpenGeni.Stream

open OpenGeni.Lib

inductive SessionEventType
  | sessionCreated | sessionStatusChanged | sessionRequiresAction | sessionContextCompacted
  | sessionContextCleared | userMessage | userInterrupt | userApprovalDecision | turnQueued
  | turnUpdated | turnStarted | turnCompleted | turnFailed | turnCancelled | turnQueueDrained
  | turnPreempted | agentMessageDelta | agentMessageCompleted | agentReasoningDelta
  | agentToolCallCreated | agentToolCallOutput | agentModelUsage | toolAuthNeeded | agentUpdated
  | rigSetupStarted | rigSetupCompleted | rigSetupSkipped | rigSetupFailed
  | sandboxOperationStarted | sandboxOperationCompleted | sandboxOperationFailed
  | sandboxCommandOutputDelta | artifactCreated | goalSet | goalUpdated | goalCompleted
  | goalPaused | goalResumed | goalCleared | goalContinuation | memorySaved | memoryCorrected
  | streamUrlRotated | streamOpened | streamClosed | streamRevoked | recordingStarted
  | recordingAvailable | recordingFailed | fsChanged | gitChanged | terminalPtyStarted
  | terminalPtyOutputDelta | terminalPtyExited | sessionTitleSet | codexAccountSwitched
  | codexCredentialSelected | codexCapacityWaiting | codexCapacityResumed
  | codexCapacitySuperseded | sandboxBoxCreated | sandboxBoxLost | sandboxBoxTerminated
  | sandboxBoxSnapshot | sandboxEnvDrift | sessionRouteReconciled | workspaceRevisionCaptured
  | machineOpFailed | machineOpRecovered | machineLinkLost | machineLinkRestored
  | machineRunnerRestarted
  deriving DecidableEq

def SessionEventType.name : SessionEventType → String
  | .sessionCreated => "session.created"
  | .sessionStatusChanged => "session.status.changed"
  | .sessionRequiresAction => "session.requiresAction"
  | .sessionContextCompacted => "session.context.compacted"
  | .sessionContextCleared => "session.context.cleared"
  | .userMessage => "user.message"
  | .userInterrupt => "user.interrupt"
  | .userApprovalDecision => "user.approvalDecision"
  | .turnQueued => "turn.queued"
  | .turnUpdated => "turn.updated"
  | .turnStarted => "turn.started"
  | .turnCompleted => "turn.completed"
  | .turnFailed => "turn.failed"
  | .turnCancelled => "turn.cancelled"
  | .turnQueueDrained => "turn.queue_drained"
  | .turnPreempted => "turn.preempted"
  | .agentMessageDelta => "agent.message.delta"
  | .agentMessageCompleted => "agent.message.completed"
  | .agentReasoningDelta => "agent.reasoning.delta"
  | .agentToolCallCreated => "agent.toolCall.created"
  | .agentToolCallOutput => "agent.toolCall.output"
  | .agentModelUsage => "agent.model.usage"
  | .toolAuthNeeded => "tool.auth_needed"
  | .agentUpdated => "agent.updated"
  | .rigSetupStarted => "rig.setup.started"
  | .rigSetupCompleted => "rig.setup.completed"
  | .rigSetupSkipped => "rig.setup.skipped"
  | .rigSetupFailed => "rig.setup.failed"
  | .sandboxOperationStarted => "sandbox.operation.started"
  | .sandboxOperationCompleted => "sandbox.operation.completed"
  | .sandboxOperationFailed => "sandbox.operation.failed"
  | .sandboxCommandOutputDelta => "sandbox.command.output.delta"
  | .artifactCreated => "artifact.created"
  | .goalSet => "goal.set"
  | .goalUpdated => "goal.updated"
  | .goalCompleted => "goal.completed"
  | .goalPaused => "goal.paused"
  | .goalResumed => "goal.resumed"
  | .goalCleared => "goal.cleared"
  | .goalContinuation => "goal.continuation"
  | .memorySaved => "memory.saved"
  | .memoryCorrected => "memory.corrected"
  | .streamUrlRotated => "stream.url.rotated"
  | .streamOpened => "stream.opened"
  | .streamClosed => "stream.closed"
  | .streamRevoked => "stream.revoked"
  | .recordingStarted => "recording.started"
  | .recordingAvailable => "recording.available"
  | .recordingFailed => "recording.failed"
  | .fsChanged => "fs.changed"
  | .gitChanged => "git.changed"
  | .terminalPtyStarted => "terminal.pty.started"
  | .terminalPtyOutputDelta => "terminal.pty.output.delta"
  | .terminalPtyExited => "terminal.pty.exited"
  | .sessionTitleSet => "session.title_set"
  | .codexAccountSwitched => "codex.account.switched"
  | .codexCredentialSelected => "codex.credential.selected"
  | .codexCapacityWaiting => "codex.capacity.waiting"
  | .codexCapacityResumed => "codex.capacity.resumed"
  | .codexCapacitySuperseded => "codex.capacity.superseded"
  | .sandboxBoxCreated => "sandbox.box.created"
  | .sandboxBoxLost => "sandbox.box.lost"
  | .sandboxBoxTerminated => "sandbox.box.terminated"
  | .sandboxBoxSnapshot => "sandbox.box.snapshot"
  | .sandboxEnvDrift => "sandbox.env.drift"
  | .sessionRouteReconciled => "session.route.reconciled"
  | .workspaceRevisionCaptured => "workspace.revision.captured"
  | .machineOpFailed => "machine.op.failed"
  | .machineOpRecovered => "machine.op.recovered"
  | .machineLinkLost => "machine.link.lost"
  | .machineLinkRestored => "machine.link.restored"
  | .machineRunnerRestarted => "machine.runner.restarted"

/-- `SessionEvent`. The last two fields may be missing, or `null`. -/
structure SessionEvent (N S : Type) where
  id : S
  workspaceId : S
  sessionId : S
  sequence : ℕ
  type : SessionEventType
  payload : Json N S
  occurredAt : S
  clientEventId : Option (Option S) := none
  turnId : Option (Option S) := none

end OpenGeni.Stream
