/-
`buildTimeline` of `packages/react/src/timeline/projection.ts`.

The log is folded into items. A delta extends the streaming item at the tail, an output settles the
latest call it may belong to, sandbox output goes to the operation it names or to the latest one
that runs, the end of a turn settles what is open. Before that the messages of users are moved to
where their turns start.

The source changes items in place; here every helper returns the new list. What the code takes
from the library of its language (`trim`, `toLowerCase`, `JSON.parse`) is a parameter.
-/
import OpenGeni.Lib.Modify
import OpenGeni.React.GroupTimeline
import OpenGeni.Stream.Coalesce

namespace OpenGeni.React

open OpenGeni.Lib OpenGeni.Stream

/-- A value of type `unknown`; `none` is `undefined`. -/
abbrev Unknown := Option Payload

abbrev Item := TimelineItem Unknown

/-- Functions of the language's library. `parse` has no result where `JSON.parse` throws. -/
structure JsLibrary where
  trim : String → String
  toLowerCase : String → String
  parse : String → Option Payload

/-! ## Payloads -/

def stringField (payload : Payload) (name : String) : Option String := Json.asString (payload.member name)

/-- A field as a record; the empty one where it is not an object. -/
def recordField (payload : Payload) (name : String) : Payload := (payload.member name).getD .null

def arrayField (payload : Payload) (name : String) : List Payload := match payload.member name with
  | some (.array items) => items
  | _ => []

/-- A field that is `true`. -/
def trueField (payload : Payload) (name : String) : Bool := match payload.member name with
  | some (.boolean b) => b
  | _ => false

/-- `text.includes(part)`. -/
def includes (text part : String) : Bool := decide (part.toList <:+: text.toList)

/-- `text.startsWith(part)`. -/
def startsWith (text part : String) : Bool := part.toList.isPrefixOf text.toList

/-- `looksLikeId`, and the pattern of `workerCompletionPayload`: hexadecimal digits in groups of
8, 4, 4, 4 and 12. -/
def looksLikeId (value : String) : Bool :=
  let hyphens := [8, 13, 18, 23]
  value.toList.length = 36 &&
    value.toList.zipIdx.all fun (c, i) =>
      if hyphens.contains i then c = '-' else "0123456789abcdefABCDEF".toList.contains c

section Readers

variable (js : JsLibrary)

def tryParseJson (text : String) : Option Payload := let trimmed := js.trim text
  if startsWith trimmed "\x7b" || startsWith trimmed "[" || startsWith trimmed "\"" then
    js.parse trimmed
  else
    none

/-- `CREDIT_EXHAUSTION_MESSAGE`. -/
def creditExhaustionMessage : String :=
  "Out of OpenGeni credits — this workspace's balance is empty. Add credits to continue; " ++
    "the conversation is preserved."

/-- `isCreditExhaustion` of a text. -/
def isCreditExhaustion (text : String) : Bool := includes (js.toLowerCase text) "insufficient opengeni credits"

def isCreditExhaustionPayload (payload : Payload) : Bool :=
  stringField payload "segmentLimit" = some "budget_exhausted" ||
    (stringField payload "error").any (isCreditExhaustion js) ||
      (stringField payload "detail").any (isCreditExhaustion js)

def humanizeFailureReason (reason : String) : String :=
  let normalized := js.toLowerCase reason
  if reason = "" then
    reason
  else if isCreditExhaustion js reason then
    creditExhaustionMessage
  else if includes normalized "incorrect api key" || includes normalized "invalid api key" ||
      includes normalized "invalid_api_key" ||
      includes normalized "platform.openai.com/account/api-keys" ||
      (includes normalized "401" &&
        (includes normalized "api key" || includes normalized "unauthorized")) then
    "The model provider rejected this deployment's engine credentials. Sending messages won't " ++
      "help until the deployment's engine configuration is fixed."
  else if includes normalized "insufficient_quota" ||
      includes normalized "exceeded your current quota" then
    "The model provider refused the request: this deployment's provider quota is exhausted."
  else
    reason

def nonBlankField (payload : Payload) (name : String) : Option String :=
  (stringField payload name).filter fun value => js.trim value ≠ ""

def failureMessage (payload : Payload) : Option String :=
  ((nonBlankField js payload "error").or (nonBlankField js payload "message")).map (humanizeFailureReason js)

def goalText (payload : Payload) : Option String :=
  let filled := fun (record : Payload) name => (stringField record name).filter (· ≠ "")
  ((filled payload "text").or (filled (recordField payload "goal") "text")).or (filled payload "prompt")

def isErrorOutput (payload : Payload) : Bool := trueField payload "error" || trueField payload "failed" ||
    trueField (recordField payload "output") "isError"

/-- `extractSessionRef`; the fuel is what is left of the depth. -/
def extractSessionRef : ℕ → Option Payload → Option String
  | 0, _ => none
  | depth + 1, some (.string s) => extractSessionRef depth (tryParseJson js s)
  | depth + 1, some (.array items) =>
    items.findSome? fun item => extractSessionRef depth (some item)
  | depth + 1, some (.object members) =>
    let record : Payload := .object members
    let id := (stringField record "id").filter fun id =>
      looksLikeId id && ["status", "workspaceId", "initialMessage"].any fun name =>
        (record.member name).isSome
    let nested := ["structuredContent", "session", "result", "content"].findSome? fun name =>
      (record.member name).bind fun value => extractSessionRef depth (some value)
    let text := (stringField record "text").bind fun text =>
      extractSessionRef depth (tryParseJson js text)
    (((stringField record "sessionId").filter looksLikeId).or id).or (nested.or text)
  | _ + 1, _ => none

def sessionRef (value : Option Payload) : Option String := extractSessionRef js 7 value

def argumentRecord (args : Payload) : Payload := match args with
  | .string s => (tryParseJson js s).getD .null
  | _ => args

def workerPrompt (args : Payload) : Option String :=
  ["initialMessage", "message", "text", "prompt"].findSome? fun name =>
    nonBlankField js (argumentRecord js args) name

def workerInterruptMode (args : Payload) : InterruptMode :=
  if stringField (argumentRecord js args) "mode" = some "steer" then .steer else .stop

def resourceRefs (payload : Payload) : List Unknown := ((arrayField payload "resources").filter fun entry =>
    if stringField entry "kind" = some "repository" then
      (stringField entry "uri").isSome && (stringField entry "ref").isSome
    else
      stringField entry "kind" = some "file" && (stringField entry "fileId").isSome).map some

def toolRefs (payload : Payload) : List Unknown := ((arrayField payload "tools").filter fun entry =>
    stringField entry "kind" = some "mcp" && (stringField entry "id").isSome).map some

def stringList (payload : Payload) (name : String) : List String :=
  ((arrayField payload name).filterMap fun entry => Json.asString (some entry)).filter fun entry =>
    js.trim entry ≠ ""

/-- `workerCompletionPayload`, as the item it becomes. -/
def workerCompletionItem (event : LogEvent) : Option WorkerCompletionItem :=
  let completion := recordField event.payload "childCompletion"
  let goal := recordField completion "goal"
  match stringField completion "childSessionId", stringField completion "status" with
  | some childSessionId, some childStatus =>
    if looksLikeId childSessionId && js.trim childStatus ≠ "" then
      some
        { id := event.id, turnId := event.turn, occurredAt := event.occurredAt
          childSessionId := childSessionId, childStatus := childStatus
          goalStatus := stringField goal "status", goalText := stringField goal "text"
          evidence := stringField goal "evidence"
          pausedReason := (stringField goal "pausedReason").or (stringField goal "rationale")
          text := (stringField event.payload "text").getD "" }
    else
      none
  | _, _ => none

/-- `isSessionStatus`. -/
def sessionStatus : String → Option SessionStatus
  | "queued" => some .queued
  | "running" => some .running
  | "idle" => some .idle
  | "requires_action" => some .requiresAction
  | "failed" => some .failed
  | "cancelled" => some .cancelled
  | _ => none

/-- `ATTENTION_STATUSES.has(status)`. -/
def needsAttention : SessionStatus → Bool
  | .requiresAction | .failed | .cancelled => true
  | _ => false

def authNeededReason : String → Option AuthNeededReason
  | "missing_connection" => some .missingConnection
  | "expired" => some .expired
  | "insufficient_scope" => some .insufficientScope
  | "refresh_failed" => some .refreshFailed
  | _ => none

def memoryItem (event : LogEvent) : Option MemoryItem :=
  let filled := fun name => (stringField event.payload name).filter (· ≠ "")
  (filled "memoryId").map fun memoryId =>
    { id := event.id, turnId := event.turn, variant := if event.type = .memoryCorrected then .corrected else .saved
      memoryKind := (stringField event.payload "kind").getD ""
      preview := (stringField event.payload "preview").getD ""
      deduped := if trueField event.payload "deduped" then some true else none
      replacementPreview := filled "replacementPreview", action := filled "action"
      memoryId := memoryId, replacementMemoryId := filled "replacementMemoryId", occurredAt := event.occurredAt }

end Readers

/-! ## Items in place -/

def stopStreaming : Item → Item
  | .agentMessage item => .agentMessage { item with streaming := false }
  | .activity (.reasoning item) => .activity (.reasoning { item with streaming := false })
  | item => item

def closeStreamingTail (items : List Item) : List Item := modifyTail stopStreaming items

def openTurn : Item → Option String
  | .agentMessage item => item.turnId
  | .activity item => item.turnId
  | _ => none

/-- The body of `finalizeOpen`. -/
def settle (disposition : ItemStatus) : Item → Item
  | .activity (.toolCall item) =>
    .activity (.toolCall { item with status := if item.status = .running then disposition else item.status })
  | .activity (.worker item) =>
    .activity (.worker { item with status := if item.status = .running then disposition else item.status })
  | .activity (.sandbox item) =>
    .activity (.sandbox { item with status := if item.status = .running then disposition else item.status })
  | item => stopStreaming item

def finalizeOpen (turnId : Option String) (disposition : ItemStatus) (items : List Item) : List Item :=
  items.map fun item =>
    if truthy (openTurn item) && truthy turnId && openTurn item ≠ turnId then item
    else settle disposition item

/-- `hasTurnActivity`, without a turn: from the tail back to a message or the end of a turn. -/
def hasTrailingActivity : List Item → Bool
  | [] => false
  | .turnEnd _ :: _ | .userMessage _ :: _ => false
  | .activity _ :: _ => true
  | _ :: items => hasTrailingActivity items

def hasTurnActivity (items : List Item) (turnId : Option String) : Bool := if truthy turnId then
    items.any fun item =>
      match item with
      | .activity item => item.turnId = turnId
      | _ => false
  else
    hasTrailingActivity items.reverse

/-! ## Where messages stand -/

/-- `TurnAnchorPrescan`, and what it is computed from. A map is the function of its `get`. -/
structure Anchors where
  queuedTurnByTrigger : String → Option String := fun _ => none
  startSeqByTrigger : String → Option ℕ := fun _ => none
  cancelledTurnIds : List String := []
  fallbackSeqByTurn : String → Option ℕ := fun _ => none
  startedTurnIds : List String := []

def isAgentActivityEvent (type : SessionEventType) : Bool :=
  startsWith type.name "agent." || startsWith type.name "sandbox."

/-- The branches by type of the loop of `prescanTurnAnchors`. -/
def scanType (anchors : Anchors) (event : LogEvent) : Anchors := if event.type = .turnStarted then
    { anchors with
      startSeqByTrigger := match (stringField event.payload "triggerEventId").filter (· ≠ "") with
        | none => anchors.startSeqByTrigger
        | some trigger => Function.update anchors.startSeqByTrigger trigger (some event.sequence)
      startedTurnIds := match event.turn.filter (· ≠ "") with
        | none => anchors.startedTurnIds
        | some turn => anchors.startedTurnIds.insert turn }
  else if event.type = .turnCancelled then
    match event.turn.filter (· ≠ "") with
    | none => anchors
    | some turn => { anchors with cancelledTurnIds := anchors.cancelledTurnIds.insert turn }
  else if event.type = .turnQueueDrained then
    let drained := (arrayField event.payload "drainedTurnIds").filterMap fun id => Json.asString (some id)
    { anchors with
      cancelledTurnIds := drained.foldl (fun ids id => ids.insert id) anchors.cancelledTurnIds }
  else
    anchors

/-- The lines behind the branches: the first sequence of a turn, and whether it has activity. -/
def scanTurn (anchors : Anchors) (event : LogEvent) : Anchors := match event.turn.filter (· ≠ "") with
  | none => anchors
  | some turn =>
    { anchors with
      fallbackSeqByTurn := if event.type ≠ .turnQueued ∧ event.type ≠ .turnCancelled ∧
            (anchors.fallbackSeqByTurn turn).all (fun previous => event.sequence < previous) = true then
          Function.update anchors.fallbackSeqByTurn turn (some event.sequence)
        else
          anchors.fallbackSeqByTurn
      startedTurnIds := if isAgentActivityEvent event.type then anchors.startedTurnIds.insert turn
        else anchors.startedTurnIds }

/-- The body of the loop of `prescanTurnAnchors`. -/
def scanEvent (anchors : Anchors) (event : LogEvent) : Anchors := if event.type = .turnQueued then
    let trigger := (stringField event.payload "triggerEventId").filter (· ≠ "")
    let turn := ((stringField event.payload "turnId").or event.turn).filter (· ≠ "")
    match trigger, turn with
    | some trigger, some turn =>
      { anchors with
        queuedTurnByTrigger := Function.update anchors.queuedTurnByTrigger trigger (some turn) }
    | _, _ => anchors
  else
    scanTurn (scanType anchors event) event

/-- `[...events].sort((a, b) => a.sequence - b.sequence)`. -/
def sortBySequence (events : List LogEvent) : List LogEvent := events.mergeSort fun a b => a.sequence ≤ b.sequence

/-- The loop of `prescanTurnAnchors`. -/
def prescanTurnAnchors (events : List LogEvent) : Anchors := (sortBySequence events).foldl scanEvent {}

namespace Anchors

variable (anchors : Anchors)

/-- `startSeqByTrigger.get(trigger)` after the second loop of `prescanTurnAnchors`. -/
def startSeq (trigger : String) : Option ℕ := (anchors.startSeqByTrigger trigger).or
    ((anchors.queuedTurnByTrigger trigger).bind anchors.fallbackSeqByTurn)

/-- `cancelledBeforeStartTriggers.has(trigger)`: the third loop of `prescanTurnAnchors`. -/
def cancelledBeforeStart (trigger : String) : Bool := (anchors.queuedTurnByTrigger trigger).any fun turn =>
    anchors.cancelledTurnIds.contains turn && (anchors.startSeq trigger).isNone &&
      (anchors.fallbackSeqByTurn turn).isNone

end Anchors

structure TimelineEvent where
  event : LogEvent
  pendingUserMessage : Bool := false

/-- Where a message of a user goes: before the event of a sequence, to the end, or nowhere. -/
inductive Anchor
  | before (sequence : ℕ)
  | pending
  | dropped

/-- The body of the first loop of `orderTimelineEvents`. -/
def anchorOf (anchors : Anchors) (event : LogEvent) : Anchor := if anchors.queuedTurnByTrigger event.id = none then
    .before event.sequence
  else if anchors.cancelledBeforeStart event.id then
    .dropped
  else
    match anchors.startSeq event.id with
    | some sequence => .before sequence
    | none => .pending

def userMessages (events : List LogEvent) : List LogEvent := events.filter fun event => event.type = .userMessage

/-- `insertions.get(sequence)`. -/
def insertions (anchors : Anchors) (messages : List LogEvent) (sequence : ℕ) : List TimelineEvent :=
  messages.filterMap fun event =>
    match anchorOf anchors event with
    | .before place => if place = sequence then some { event := event } else none
    | _ => none

/-- `pending`. -/
def pendingMessages (anchors : Anchors) (messages : List LogEvent) : List TimelineEvent :=
  messages.filterMap fun event =>
    match anchorOf anchors event with
    | .pending => some { event := event, pendingUserMessage := true }
    | _ => none

/-- The body of the second loop of `orderTimelineEvents`. -/
def projectedEvents (anchors : Anchors) (messages : List LogEvent) (event : LogEvent) : List TimelineEvent :=
  insertions anchors messages event.sequence ++ if event.type = .userMessage then [] else [{ event := event }]

def orderTimelineEvents (events : List LogEvent) (anchors : Anchors) : List TimelineEvent :=
  let ordered := sortBySequence events
  let messages := userMessages ordered
  ordered.flatMap (projectedEvents anchors messages) ++ pendingMessages anchors messages

/-! ## The projection -/

/-- A streaming item at the tail takes a text; otherwise a new one is opened. -/
def stream (isOpen : Item → Bool) (append : Item → Item) (item : Item) (items : List Item) : List Item :=
  if items.getLast?.any isOpen then modifyTail append items
  else closeStreamingTail items ++ [item]

def isStreamingMessage (turnId : Option String) : Item → Bool
  | .agentMessage item => item.streaming && item.turnId = turnId
  | _ => false

def isStreamingReasoning (turnId : Option String) : Item → Bool
  | .activity (.reasoning item) => item.streaming && item.turnId = turnId
  | _ => false

/-- `open.text += text`. -/
def appendText (text : String) : Item → Item
  | .agentMessage item => .agentMessage { item with text := item.text ++ text }
  | .activity (.reasoning item) => .activity (.reasoning { item with text := item.text ++ text })
  | .activity (.sandbox item) => .activity (.sandbox { item with output := item.output ++ text })
  | item => item

/-- The case `agent.message.delta`. -/
def messageDelta (event : LogEvent) (items : List Item) : List Item :=
  let text := (stringField event.payload "text").getD ""
  if text = "" then items
  else
    stream (isStreamingMessage event.turn) (appendText text) (.agentMessage
        { id := event.id, turnId := event.turn, text := text, streaming := true
          occurredAt := event.occurredAt }) items

/-- The case `agent.reasoning.delta`. -/
def reasoningDelta (event : LogEvent) (items : List Item) : List Item := let text := reasoningText event.payload
  if text = "" then items
  else
    stream (isStreamingReasoning event.turn) (appendText text) (.activity (.reasoning
        { id := event.id, turnId := event.turn, text := text, streaming := true
          occurredAt := event.occurredAt })) items

def isMessageOf (turnId : Option String) : Item → Bool
  | .agentMessage item => item.turnId = turnId
  | _ => false

/-- Whether a completed text belongs to a message: it streams, is empty, or is extended. -/
def reconciles (text : String) : Item → Bool
  | .agentMessage item =>
    item.streaming || item.text = "" || text = item.text || startsWith text item.text
  | _ => false

def complete (text : String) : Item → Item
  | .agentMessage item =>
    .agentMessage { item with
        streaming := false
        text := if item.text = "" ∨ text ≠ "" ∧ startsWith text item.text = true then
            if text = "" then item.text else text
          else item.text }
  | item => item

/-- The case `agent.message.completed`. -/
def messageCompleted (event : LogEvent) (items : List Item) : List Item :=
  let text := (stringField event.payload "text").getD ""
  if (items.reverse.find? (isMessageOf event.turn)).any (reconciles text) then
    modifyLatest (isMessageOf event.turn) (complete text) items
  else if text = "" then items
  else
    items ++
      [.agentMessage
        { id := event.id, turnId := event.turn, text := text, streaming := false, occurredAt := event.occurredAt }]

/-- A call, of a tool or to a worker: its identifier and its status. -/
def callOf : Item → Option (Option String × ItemStatus)
  | .activity (.toolCall item) => some (item.callId, item.status)
  | .activity (.worker item) => some (item.callId, item.status)
  | _ => none

def isCallWith (callId : Option String) (item : Item) : Bool := (callOf item).any fun call => call.1 = callId

def isRunningCall (item : Item) : Bool := (callOf item).any fun call => call.2 = .running

def isRunningSandbox (name : Option String) : Item → Bool
  | .activity (.sandbox item) => item.status = .running && (name.all fun name => item.name = name)
  | _ => false

def dividerStatus : Item → Option SessionStatus
  | .sessionStatus item => some item.status
  | _ => none

def turnEndItem (event : LogEvent) (outcome : TurnOutcome) (failureText : Option String) : Item := .turnEnd
    { id := event.id ++ "-turn-end", turnId := event.turn, outcome := outcome
      failureText := failureText, occurredAt := event.occurredAt }

def noticeItem (event : LogEvent) (tone : NoticeTone) (text : String) : Item :=
  .notice { id := event.id, tone := tone, text := text, action := none, occurredAt := event.occurredAt }

section Projection

variable (js : JsLibrary)

/-- The case `user.message`. -/
def userMessage (event : TimelineEvent) (items : List Item) : List Item :=
  closeStreamingTail items ++
    match workerCompletionItem js event.event with
    | some item => [.workerCompletion item]
    | none =>
      [.userMessage
        { id := event.event.id, text := (stringField event.event.payload "text").getD ""
          pending := if event.pendingUserMessage then some true else none
          resources := resourceRefs event.event.payload, tools := toolRefs event.event.payload
          occurredAt := event.event.occurredAt }]

def callItem (event : LogEvent) : Item :=
  let name := (stringField event.payload "name").getD "tool"
  let callId := stringField event.payload "id"
  let args := (event.payload.member "arguments").getD .null
  let worker : WorkerItem :=
    { id := event.id, turnId := event.turn, callId := callId, action := .interrupt, prompt := none
      workerSessionId := sessionRef js (some args), mode := none, status := .running
      occurredAt := event.occurredAt }
  if name = "session_interrupt" then
    .activity (.worker { worker with mode := some (workerInterruptMode js args) })
  else if name = "session_create" then
    .activity (.worker { worker with action := .spawn, prompt := workerPrompt js args })
  else if name = "session_send_message" then
    .activity (.worker { worker with action := .message, prompt := workerPrompt js args })
  else
    .activity (.toolCall
      { id := event.id, turnId := event.turn, callId := callId, name := name
        arguments := some args, output := none, raw := event.payload.member "raw"
        status := .running, occurredAt := event.occurredAt })

def settleCall (payload : Payload) : Item → Item
  | .activity (.toolCall item) =>
    .activity (.toolCall { item with
        status := if isErrorOutput payload then .failed else .complete
        output := payload.member "output" })
  | .activity (.worker item) =>
    .activity (.worker { item with
        status := if isErrorOutput payload then .failed else .complete
        workerSessionId := item.workerSessionId.or (sessionRef js (payload.member "output")) })
  | item => item

/-- The case `agent.toolCall.output`. -/
def toolCallOutput (event : LogEvent) (items : List Item) : List Item :=
  let callId := stringField event.payload "id"
  if truthy callId && items.any (isCallWith callId) then
    modifyLatest (isCallWith callId) (settleCall js event.payload) items
  else
    modifyLatest isRunningCall (settleCall js event.payload) items

def settleSandbox (status : ItemStatus) (message : Option String) : Item → Item
  | .activity (.sandbox item) =>
    .activity (.sandbox { item with
        status := status
        output := match message with
          | none => item.output
          | some message => if item.output = "" then message else item.output ++ "\n" ++ message })
  | item => item

/-- The cases of `sandbox.operation`. -/
def sandboxOperation (status : ItemStatus) (event : LogEvent) (items : List Item) : List Item :=
  let name := (stringField event.payload "name").getD "sandbox"
  let message := failureMessage js event.payload
  if (name = "repository-clone" ∨ name = "file-resource-download") ∧ status ≠ .failed then
    items
  else if items.any (isRunningSandbox (some name)) then
    if status = .running then items
    else modifyLatest (isRunningSandbox (some name)) (settleSandbox status message) items
  else
    closeStreamingTail items ++
      [.activity (.sandbox
        { id := event.id, turnId := event.turn, name := name
          command := stringField event.payload "command", output := message.getD ""
          status := status, occurredAt := event.occurredAt })]

/-- The case `sandbox.command.output.delta`. -/
def sandboxOutput (event : LogEvent) (items : List Item) : List Item :=
  let text :=
    (((stringField event.payload "chunk").or (stringField event.payload "text")).or
      (stringField event.payload "output")).getD ""
  let name := stringField event.payload "name"
  if text = "" then items
  else if name.isSome && items.any (isRunningSandbox name) then
    modifyLatest (isRunningSandbox name) (appendText text) items
  else
    modifyLatest (isRunningSandbox none) (appendText text) items

/-- The case `session.status.changed`. -/
def statusChanged (event : LogEvent) (items : List Item) : List Item :=
  match (stringField event.payload "status").bind sessionStatus with
  | none => items
  | some status =>
    if !needsAttention status then items
    else if items.reverse.findSome? dividerStatus = some status then items
    else items ++ [.sessionStatus { id := event.id, status := status, occurredAt := event.occurredAt }]

/-- The case `tool.auth_needed`. -/
def authNeeded (event : LogEvent) (items : List Item) : List Item :=
  closeStreamingTail items ++
    [.authNeeded
      { id := event.id, turnId := event.turn, providerDomain := (stringField event.payload "providerDomain").getD ""
        connectionId := stringField event.payload "connectionId"
        reason := (stringField event.payload "reason").bind authNeededReason
        scopes := stringList js event.payload "scopes", resource := stringField event.payload "resource"
        toolName := stringField event.payload "toolName"
        authorizationUrl := stringField event.payload "authorizationUrl", occurredAt := event.occurredAt }]

/-- The case `turn.completed`. -/
def turnCompleted (event : LogEvent) (items : List Item) : List Item := finalizeOpen event.turn .complete items ++
    if isCreditExhaustionPayload js event.payload then
      [turnEndItem event .failed (some creditExhaustionMessage), noticeItem event .failed creditExhaustionMessage]
    else
      [turnEndItem event .complete none]

/-- The case `turn.failed`. -/
def turnFailed (event : LogEvent) (items : List Item) : List Item :=
  let failureText :=
    if isCreditExhaustionPayload js event.payload then some creditExhaustionMessage
    else failureMessage js event.payload
  finalizeOpen event.turn .cancelled items ++ [turnEndItem event .failed failureText] ++
    if hasTurnActivity items event.turn then []
    else [noticeItem event .failed (failureText.getD "The turn failed.")]

/-- The case `turn.cancelled`. A turn that never started leaves nothing. -/
def turnCancelled (anchors : Anchors) (event : LogEvent) (items : List Item) : List Item :=
  if truthy event.turn ∧ event.turn.any anchors.startedTurnIds.contains = false then
    items
  else
    finalizeOpen event.turn .cancelled items ++ [turnEndItem event .cancelled none] ++
      if hasTurnActivity items event.turn then []
      else [noticeItem event .cancelled "Interrupted."]

/-- The cases of `memory`. -/
def memoryWritten (event : LogEvent) (items : List Item) : List Item := match memoryItem event with
  | none => items
  | some item => closeStreamingTail items ++ [.activity (.memory item)]

/-- The cases of `goal`. -/
def goalChanged (action : GoalAction) (event : LogEvent) (items : List Item) : List Item :=
  items ++
    [.goal
      { id := event.id, action := action, text := goalText event.payload, occurredAt := event.occurredAt }]

/-- The body of the loop of `buildTimeline`. -/
def project (anchors : Anchors) (items : List Item) (event : TimelineEvent) : List Item :=
  match event.event.type with
  | .userMessage => userMessage js event items
  | .agentMessageDelta => messageDelta event.event items
  | .agentMessageCompleted => messageCompleted event.event items
  | .agentReasoningDelta => reasoningDelta event.event items
  | .agentToolCallCreated => closeStreamingTail items ++ [callItem js event.event]
  | .agentToolCallOutput => toolCallOutput js event.event items
  | .sandboxOperationStarted => sandboxOperation js .running event.event items
  | .sandboxOperationCompleted => sandboxOperation js .complete event.event items
  | .sandboxOperationFailed => sandboxOperation js .failed event.event items
  | .sandboxCommandOutputDelta => sandboxOutput event.event items
  | .sessionStatusChanged => statusChanged event.event items
  | .sessionRequiresAction =>
    finalizeOpen event.event.turn .complete items ++
      [noticeItem event.event .waiting
        "Approval needed — the turn is paused until someone decides."]
  | .toolAuthNeeded => authNeeded js event.event items
  | .turnCompleted => turnCompleted js event.event items
  | .turnFailed => turnFailed js event.event items
  | .turnCancelled => turnCancelled anchors event.event items
  | .memorySaved => memoryWritten event.event items
  | .memoryCorrected => memoryWritten event.event items
  | .goalSet => goalChanged .set event.event items
  | .goalUpdated => goalChanged .updated event.event items
  | .goalCompleted => goalChanged .completed event.event items
  | .goalPaused => goalChanged .paused event.event items
  | .goalResumed => goalChanged .resumed event.event items
  | .goalCleared => goalChanged .cleared event.event items
  | .goalContinuation => goalChanged .continuation event.event items
  | _ => items

def buildTimeline (events : List LogEvent) : List Item := let anchors := prescanTurnAnchors events
  (orderTimelineEvents events anchors).foldl (project js anchors) []

end Projection

end OpenGeni.React
