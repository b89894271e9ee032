/-
The items and groups of `packages/react/src/timeline/types.ts`.

Items are what the event log is projected into, groups what the items are shown in. The
parameter `J` stands for the JSON values of type `unknown` and for the references a message
carries, which the projection hands on without looking inside.
-/
import Mathlib

namespace OpenGeni.React

/-! ## Items -/

inductive ItemStatus
  | running
  | complete
  | failed
  | cancelled
deriving DecidableEq

inductive SessionStatus
  | queued
  | running
  | idle
  | requiresAction
  | failed
  | cancelled
deriving DecidableEq

inductive TurnOutcome
  | complete
  | failed
  | cancelled
deriving DecidableEq

structure UserMessageItem (J : Type*) where
  id : String
  text : String
  pending : Option Bool
  resources : List J
  tools : List J
  occurredAt : String

structure AgentMessageItem where
  id : String
  turnId : Option String
  text : String
  streaming : Bool
  occurredAt : String

structure ReasoningItem where
  id : String
  turnId : Option String
  text : String
  streaming : Bool
  occurredAt : String

structure ToolCallItem (J : Type*) where
  id : String
  turnId : Option String
  callId : Option String
  name : String
  arguments : J
  output : J
  raw : J
  status : ItemStatus
  occurredAt : String

inductive WorkerAction
  | spawn
  | message
  | interrupt

inductive InterruptMode
  | stop
  | steer

structure WorkerItem where
  id : String
  turnId : Option String
  callId : Option String
  action : WorkerAction
  prompt : Option String
  workerSessionId : Option String
  mode : Option InterruptMode
  status : ItemStatus
  occurredAt : String

structure WorkerCompletionItem where
  id : String
  turnId : Option String
  occurredAt : String
  childSessionId : String
  childStatus : String
  goalStatus : Option String
  goalText : Option String
  evidence : Option String
  pausedReason : Option String
  text : String

structure SandboxItem where
  id : String
  turnId : Option String
  name : String
  command : Option String
  output : String
  status : ItemStatus
  occurredAt : String

inductive MemoryVariant
  | saved
  | corrected

structure MemoryItem where
  id : String
  turnId : Option String
  variant : MemoryVariant
  memoryKind : String
  preview : String
  deduped : Option Bool
  replacementPreview : Option String
  action : Option String
  memoryId : String
  replacementMemoryId : Option String
  occurredAt : String

structure SessionStatusItem where
  id : String
  status : SessionStatus
  occurredAt : String

inductive GoalAction
  | set
  | updated
  | completed
  | paused
  | resumed
  | cleared
  | continuation

structure GoalItem where
  id : String
  action : GoalAction
  text : Option String
  occurredAt : String

inductive NoticeTone
  | waiting
  | cancelled
  | failed

structure NoticeItem where
  id : String
  tone : NoticeTone
  text : String
  action : Option (String × String)
  occurredAt : String

inductive AuthNeededReason
  | missingConnection
  | expired
  | insufficientScope
  | refreshFailed

structure AuthNeededItem where
  id : String
  turnId : Option String
  providerDomain : String
  connectionId : Option String
  reason : Option AuthNeededReason
  scopes : List String
  resource : Option String
  toolName : Option String
  authorizationUrl : Option String
  occurredAt : String

structure TurnEndItem where
  id : String
  turnId : Option String
  outcome : TurnOutcome
  failureText : Option String
  occurredAt : String

inductive ActivityItem (J : Type*)
  | reasoning (item : ReasoningItem)
  | toolCall (item : ToolCallItem J)
  | worker (item : WorkerItem)
  | sandbox (item : SandboxItem)
  | memory (item : MemoryItem)

/-- `TimelineItem`. The constructor `activity` is what `isActivityItem` narrows to. -/
inductive TimelineItem (J : Type*)
  | userMessage (item : UserMessageItem J)
  | agentMessage (item : AgentMessageItem)
  | activity (item : ActivityItem J)
  | workerCompletion (item : WorkerCompletionItem)
  | sessionStatus (item : SessionStatusItem)
  | goal (item : GoalItem)
  | notice (item : NoticeItem)
  | authNeeded (item : AuthNeededItem)
  | turnEnd (item : TurnEndItem)

variable {J : Type*}

namespace ActivityItem

def id : ActivityItem J → String
  | reasoning item => item.id
  | toolCall item => item.id
  | worker item => item.id
  | sandbox item => item.id
  | memory item => item.id

def turnId : ActivityItem J → Option String
  | reasoning item => item.turnId
  | toolCall item => item.turnId
  | worker item => item.turnId
  | sandbox item => item.turnId
  | memory item => item.turnId

/-- `"status" in item`. -/
def status : ActivityItem J → Option ItemStatus
  | reasoning _ => none
  | toolCall item => some item.status
  | worker item => some item.status
  | sandbox item => some item.status
  | memory _ => none

def occurredAt : ActivityItem J → String
  | reasoning item => item.occurredAt
  | toolCall item => item.occurredAt
  | worker item => item.occurredAt
  | sandbox item => item.occurredAt
  | memory item => item.occurredAt

end ActivityItem

namespace TimelineItem

def occurredAt : TimelineItem J → String
  | userMessage item => item.occurredAt
  | agentMessage item => item.occurredAt
  | activity item => item.occurredAt
  | workerCompletion item => item.occurredAt
  | sessionStatus item => item.occurredAt
  | goal item => item.occurredAt
  | notice item => item.occurredAt
  | authNeeded item => item.occurredAt
  | turnEnd item => item.occurredAt

def isTurnEnd : TimelineItem J → Bool
  | turnEnd _ => true
  | _ => false

end TimelineItem

/-! ## Groups -/

structure ActivityGroup (J : Type*) where
  id : String
  items : List (ActivityItem J)
  outcome : Option TurnOutcome
  failureText : Option String

inductive TimelineGroup (J : Type*)
  | item (item : TimelineItem J)
  | activity (group : ActivityGroup J)
  | turn (id : String) (outcome : TurnOutcome) (failureText : Option String)
      (startedAt endedAt : String) (groups : List (TimelineGroup J))

mutual

def TimelineGroup.flatten : TimelineGroup J → List (TimelineItem J)
  | .item item => [item]
  | .activity group => group.items.map .activity
  | .turn _ _ _ _ _ groups => flattenGroups groups

def flattenGroups : List (TimelineGroup J) → List (TimelineItem J)
  | [] => []
  | group :: groups => group.flatten ++ flattenGroups groups

end

variable {groups groups' : List (TimelineGroup J)} {group : TimelineGroup J}

theorem flattenGroups_singleton : flattenGroups [group] = group.flatten := by
  simp [flattenGroups]

theorem flattenGroups_append :
    flattenGroups (groups ++ groups') = flattenGroups groups ++ flattenGroups groups' := by
  induction groups with
  | nil => simp [flattenGroups]
  | cons group groups ih => simp [flattenGroups, ih]

theorem flattenGroups_concat : flattenGroups (groups ++ [group]) = flattenGroups groups ++ group.flatten := by
  rw [flattenGroups_append, flattenGroups_singleton]

theorem flattenGroups_map {f : TimelineGroup J → TimelineGroup J}
    (h : ∀ group ∈ groups, (f group).flatten = group.flatten) :
    flattenGroups (groups.map f) = flattenGroups groups := by
  induction groups with
  | nil => rfl
  | cons group groups ih =>
    rw [List.map_cons, flattenGroups, flattenGroups, h group List.mem_cons_self]
    rw [ih fun g hg => h g (List.mem_cons_of_mem group hg)]

end OpenGeni.React
