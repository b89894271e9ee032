/-
The op-stream consumer (`selfhosted/op-stream.ts`, `OpConsumer`).

The server's half of one op: it subscribes to the op's frames, reassembles them into
the two output channels, grants credit, heals gaps by re-attaching from its frontier,
and returns once the exit frame and every frame before it are applied.

The source is asynchronous on one thread: between two `await`s a method runs without
interruption. So the state is one record, `OpConsumer`, and what the event loop can
service next is one constructor of `ConsumerStep`: a frame arrives, a control request is
answered, a timer fires, `run` resumes. Calls that leave the consumer are recorded in
`calls`, in order; no method reads them.

`seq`, the totals and the credit are `bigint` in the source and `ℕ` here; the bytes a
frame was decoded from are not modelled, a delivery is what `OpFrame.decode` made of
them, `none` for a torn frame. Times are milliseconds.
-/
import OpenGeni.Lib.Run

namespace OpenGeni.Runtime

/-! ## The wire messages -/

/-- `OpChannel`. An enum value the schema does not name is kept as its number. -/
inductive OpChannel
  | unspecified
  | stdout
  | stderr
  | content
  | unrecognized (value : ℤ)

abbrev Record (V : Type) := AList fun _ : String => V

/-- `OpExit`: the terminal record of an op. -/
structure OpExit where
  exitCode : ℤ
  timedOut : Bool
  durationMs : ℕ
  digests : Record String
  totals : Record ℕ
  failureCode : String
  failureDetail : Record String

/-- The `body` oneof of an `OpFrame`. -/
inductive OpBody
  | data (channel : OpChannel) (bytes : List UInt8)
  | progress
  | exit (exit : OpExit)

structure OpFrame where
  opId : String
  seq : ℕ
  body : Option OpBody

structure OpAck where
  opId : String
  ackedSeq : ℕ
  creditBytes : ℕ
  final : Bool
  attachGeneration : String

inductive OpState
  | unspecified
  | accepted
  | running
  | complete
  | lost
deriving DecidableEq

inductive OpLostReason
  | unspecified
  | evicted
  | agentRestarted

namespace OpLostReason

/-- The enum's number, as `String(status.lostReason)` prints it. -/
def number : OpLostReason → String
  | .unspecified => "0"
  | .evicted => "1"
  | .agentRestarted => "2"

end OpLostReason

structure OpStatus where
  state : OpState
  nextSeq : ℕ
  lostReason : OpLostReason

/-- A control request's result oneof, as far as the consumer tells the cases apart. -/
inductive ControlResult
  | opStatus (status : OpStatus)
  | other (case : String)

/-! ## Errors -/

inductive ErrorCode
  | unspecified
  | unsupported
  | os
  | notFound
  | consentRequired
  | timeout
  | draining
  | protocol
  | stream
  | agentOffline
  | fenced
  | payloadTooLarge
deriving DecidableEq

inductive SelfhostedUnavailableReason
  | agentOffline
  | agentReconnecting
  | consentRequired
  | displayUnavailable
deriving DecidableEq

structure SelfhostedControlError where
  message : String
  code : ErrorCode
  reason : Option SelfhostedUnavailableReason
  retryable : Bool
  draining : Bool := false
  agentOffline : Bool := false
  payloadTooLarge : Bool := false
  detail : Record String := ∅

inductive Thrown
  | control (error : SelfhostedControlError)
  | other (message : String)

def protocolError (message : String) : SelfhostedControlError where
  message := message
  code := .protocol
  reason := none
  retryable := false

def lostToControlError (status : OpStatus) : SelfhostedControlError where
  message := let reason := match status.lostReason with
      | .evicted => "its retained result was evicted before collection"
      | .agentRestarted => "the machine agent restarted and the op did not survive"
      | .unspecified => "the runner reported it lost"
    "The command's result is no longer available on the machine (" ++ reason ++ "). " ++
      "Check whether its effects already took place before re-running it."
  code := .stream
  reason := none
  retryable := false
  detail := AList.insert "lost_reason" status.lostReason.number ∅

def runnerFailureToControlError (exit : OpExit) : SelfhostedControlError := if exit.failureCode = "OP_OVERFLOW" then
    { message := "The command produced more output than the machine link can retain for delivery. " ++
        "Redirect the command's output to a file (for example `<command> > /tmp/out.log 2>&1`) " ++
        "and then read that file back in ranges or chunks instead of returning it all at once."
      code := .payloadTooLarge
      reason := none
      retryable := false
      payloadTooLarge := true
      detail := exit.failureDetail.insert "failure_code" exit.failureCode }
  else
    { message := "The command failed on the machine's streaming transport (" ++ exit.failureCode ++ "). " ++
        "The machine kept running it, but its output could not be captured intact."
      code := .stream
      reason := none
      retryable := false
      detail := exit.failureDetail.insert "failure_code" exit.failureCode }

/-- `agentErrorToControlError(timeoutAgentError())`: the client-side wall. -/
def wallError : SelfhostedControlError where
  message := "the agent did not respond in time"
  code := .timeout
  reason := some .agentReconnecting
  retryable := true

/-! ## The reassembled channels -/

/-- The two keys of `chunks`. -/
inductive StreamName
  | stdout
  | stderr
deriving DecidableEq

def StreamName.text : StreamName → String
  | .stdout => "stdout"
  | .stderr => "stderr"

def OP_CHANNEL_NAMES : OpChannel → Option StreamName
  | .stdout => some .stdout
  | .stderr => some .stderr
  | _ => none

/-- `chunks`. -/
structure Chunks where
  stdout : List (List UInt8)
  stderr : List (List UInt8)

namespace Chunks

/-- `chunks[name]`. -/
def get (chunks : Chunks) : StreamName → List (List UInt8)
  | .stdout => chunks.stdout
  | .stderr => chunks.stderr

/-- `chunks[name].push(bytes)`. -/
def push (chunks : Chunks) (name : StreamName) (bytes : List UInt8) : Chunks := match name with
  | .stdout => { chunks with stdout := chunks.stdout ++ [bytes] }
  | .stderr => { chunks with stderr := chunks.stderr ++ [bytes] }

end Chunks

def concatChunks (chunks : List (List UInt8)) : List UInt8 := chunks.flatten

/-! ## The consumer -/

def OP_STREAM_MAX_STASHED_FRAMES : ℕ := 4096

/-- A call that leaves the consumer: a settle callback, a control request, an ack. -/
inductive Call
  /-- `settleResolve`, and the value of `lastApplied` at the call. -/
  | settleResolve (lastApplied : ℕ)
  | settleReject (error : Thrown)
  | opAttach (fromSeq windowBytes : ℕ)
  | opQuery
  | publish (ack : OpAck)

structure ExecResponse where
  exitCode : ℤ
  stdout : List UInt8
  stderr : List UInt8
  timedOut : Bool
  durationMs : ℕ

/-- What `run` returns: `OpStreamExecOutcome` and the exit's seq. -/
structure RunOutcome where
  response : ExecResponse
  heals : ℕ
  startRetries : ℕ
  replyBytes : ℕ
  exitSeq : ℕ

/-- Where `run` is waiting. -/
inductive RunPhase
  /-- For `startOp`. -/
  | starting
  /-- For the first `attach`. -/
  | attaching (startRetries : ℕ)
  /-- For `Promise.race([settled, liveness.wall])`. -/
  | racing (startRetries : ℕ)
  | done (result : Except Thrown RunOutcome)

structure OpConsumer where
  opId : String
  generation : String
  windowBytes : ℕ
  lastApplied : ℕ
  stash : AList fun _ : ℕ => OpFrame
  chunks : Chunks
  receivedPayloadBytes : ℕ
  creditAtLastAck : ℕ
  exit : Option OpExit
  exitSeq : Option ℕ
  heals : ℕ
  lastFrameAt : ℕ
  silenceSince : Option ℕ
  attachInFlight : Bool
  torn : Bool
  /-- What the race of `settled` and the wall came to: the first call decides. -/
  race : Option (Except Thrown Unit)
  phase : RunPhase
  calls : List Call

namespace OpConsumer

/-- The consumer when `startOp` is called: constructed, settle promise armed, subscribed. -/
def new (opId generation : String) (windowBytes now : ℕ) : OpConsumer where
  opId := opId
  generation := generation
  windowBytes := windowBytes
  lastApplied := 0
  stash := ∅
  chunks := ⟨[], []⟩
  receivedPayloadBytes := 0
  creditAtLastAck := 0
  exit := none
  exitSeq := none
  heals := 0
  lastFrameAt := now
  silenceSince := none
  attachInFlight := false
  torn := false
  race := none
  phase := .starting
  calls := []

def emit (c : OpConsumer) (call : Call) : OpConsumer := { c with calls := c.calls ++ [call] }

def decide_race (c : OpConsumer) (result : Except Thrown Unit) : OpConsumer :=
  { c with race := c.race.or (some result) }

/-- `sendAck`: credit only. -/
def sendAck (c : OpConsumer) : OpConsumer := if c.torn then c
  else
    { c with creditAtLastAck := c.receivedPayloadBytes }.emit
      (.publish ⟨c.opId, 0, c.receivedPayloadBytes + c.windowBytes, false, c.generation⟩)

/-- `requestAttachHeal`, up to its first `await`. -/
def requestAttachHeal (c : OpConsumer) : OpConsumer := if c.attachInFlight || c.torn then c
  else { c with attachInFlight := true }.emit (.opAttach c.lastApplied 0)

def applyFrame (c : OpConsumer) (frame : OpFrame) : OpConsumer := let c := { c with lastApplied := frame.seq }
  match frame.body with
  | none => c
  | some (.data channel bytes) =>
    { c with
      chunks := match OP_CHANNEL_NAMES channel with
        | some name => c.chunks.push name bytes
        | none => c.chunks
      receivedPayloadBytes := c.receivedPayloadBytes + bytes.length }
  | some .progress => c.sendAck
  | some (.exit exit) => { c with exit := some exit, exitSeq := some frame.seq }

/-- The drain loop of `onFramePayload`. Every pass takes a frame out of the stash, so
its size is fuel enough. -/
def drain : ℕ → OpConsumer → OpConsumer
  | 0, c => c
  | fuel + 1, c =>
    match c.stash.lookup (c.lastApplied + 1) with
    | none => c
    | some next => drain fuel (applyFrame { c with stash := c.stash.erase (c.lastApplied + 1) } next)

def maybeSettle (c : OpConsumer) : OpConsumer := match c.exitSeq with
  | some exitSeq =>
    if exitSeq ≤ c.lastApplied then (c.emit (.settleResolve c.lastApplied)).decide_race (.ok ())
    else c
  | none => c

def maybeGrantCredit (c : OpConsumer) : OpConsumer :=
  if c.windowBytes / 2 ≤ c.receivedPayloadBytes - c.creditAtLastAck then c.sendAck else c

/-- The rest of `onFramePayload`, for a frame of this op. -/
def receive (frame : OpFrame) (c : OpConsumer) : OpConsumer := if frame.seq ≤ c.lastApplied then c
  else if frame.seq ≠ c.lastApplied + 1 then
    requestAttachHeal (if c.stash.keys.length < OP_STREAM_MAX_STASHED_FRAMES then
        { c with stash := c.stash.insert frame.seq frame }
      else c)
  else ((c.applyFrame frame).drain c.stash.keys.length).maybeSettle.maybeGrantCredit

/-- `onFramePayload`, of what the payload decodes to. -/
def onFramePayload (now : ℕ) (payload : Option OpFrame) (c : OpConsumer) : OpConsumer := match payload with
  | none => c
  | some frame =>
    if frame.opId ≠ c.opId then c
    else receive frame { c with lastFrameAt := now, silenceSince := none }

/-! ## Control requests and their answers -/

/-- What `attach` makes of the answer to its request. -/
def attachAnswer : Except Thrown ControlResult → Except Thrown OpStatus
  | .error e => .error e
  | .ok (.other case) =>
    .error (.control (protocolError ("op-stream attach: unexpected result " ++ case)))
  | .ok (.opStatus status) =>
    if status.state = .lost then .error (.control (lostToControlError status)) else .ok status

/-- The continuation of `requestAttachHeal`. -/
def attachHealed (answer : Except Thrown ControlResult) (c : OpConsumer) : OpConsumer :=
  let c : OpConsumer := { c with attachInFlight := false }
  match attachAnswer answer with
  | .ok _ => { c with heals := c.heals + 1 }
  | .error (.control error) =>
    if !error.retryable && !error.agentOffline then
      (c.emit (.settleReject (.control error))).decide_race (.error (.control error))
    else c
  | .error (.other _) => c

/-- `probeSilence`, up to its `await`. -/
def probeSilence (now : ℕ) (c : OpConsumer) : OpConsumer :=
  { c with silenceSince := c.silenceSince.or (some now) }.emit .opQuery

/-- What `probeSilence` does with a control error: hold through the reconnect window if
it is transient, else fail. -/
def holdOrFail (reconnectHoldMs now : ℕ) (error : SelfhostedControlError) (c : OpConsumer) : OpConsumer :=
  let transient := error.agentOffline || error.reason == some .agentReconnecting || error.draining
  if transient && decide (now - c.silenceSince.getD now < reconnectHoldMs) then c
  else c.decide_race (.error (.control error))

/-- `probeSilence` once its request is answered. An error it throws rejects the race in
`tick`. -/
def silenceProbed (reconnectHoldMs now : ℕ) (answer : Except Thrown ControlResult) (c : OpConsumer) : OpConsumer :=
  match answer with
  | .ok (.opStatus status) =>
    if status.state = .lost then c.decide_race (.error (.control (lostToControlError status)))
    else if c.lastApplied + 1 < status.nextSeq then c.requestAttachHeal
    else c
  | .ok (.other case) =>
    c.holdOrFail reconnectHoldMs now (protocolError ("op-stream query: unexpected result " ++ case))
  | .error (.control error) => c.holdOrFail reconnectHoldMs now error
  | .error (.other message) => c.decide_race (.error (.other message))

/-! ## `run` -/

/-- One channel of `verifyByteExact`. -/
def verifyChannel (blake3 : List UInt8 → String) (c : OpConsumer) (exit : OpExit)
    (channel : StreamName) : Except SelfhostedControlError Unit :=
  let bytes := concatChunks (c.chunks.get channel)
  let total := exit.totals.lookup channel.text
  if total ≠ none ∧ total ≠ some bytes.length then
    .error (protocolError ("op-stream reassembly: " ++ channel.text ++ " total mismatch (got " ++
      toString bytes.length ++ ", runner declared " ++ toString (total.getD 0) ++ ")"))
  else
    let digest := (exit.digests.lookup channel.text).getD ""
    if digest ≠ "" ∧ digest ≠ blake3 bytes then
      .error (protocolError ("op-stream reassembly: " ++ channel.text ++ " digest mismatch (got " ++
        blake3 bytes ++ ", runner declared " ++ digest ++ ")"))
    else .ok ()

def verifyByteExact (blake3 : List UInt8 → String) (c : OpConsumer) (exit : OpExit) :
    Except SelfhostedControlError Unit :=
  match c.verifyChannel blake3 exit .stdout with
  | .error e => .error e
  | .ok () => c.verifyChannel blake3 exit .stderr

/-- The rest of `run` once the race is won. -/
def finish (blake3 : List UInt8 → String) (startRetries : ℕ) (c : OpConsumer) :
    Except Thrown RunOutcome :=
  match c.exit, c.exitSeq with
  | some exit, some exitSeq =>
    match c.verifyByteExact blake3 exit with
    | .error e => .error (.control e)
    | .ok () =>
      if exit.failureCode ≠ "" then .error (.control (runnerFailureToControlError exit))
      else
        let stdout := concatChunks c.chunks.stdout
        let stderr := concatChunks c.chunks.stderr
        .ok
          { response := ⟨exit.exitCode, stdout, stderr, exit.timedOut, exit.durationMs⟩, heals := c.heals
            startRetries, replyBytes := stdout.length + stderr.length, exitSeq }
  | _, _ => .error (.other "Cannot read properties of undefined (reading 'totals')")

/-- `run` after `startOp`: the first attach, under the initial window. -/
def started (answer : Except Thrown ℕ) (c : OpConsumer) : OpConsumer := match answer with
  | .ok startRetries =>
    { c with phase := .attaching startRetries }.emit (.opAttach c.lastApplied c.windowBytes)
  | .error e => { c with phase := .done (.error e) }

/-- `run` after the first attach. -/
def attached (startRetries : ℕ) (answer : Except Thrown ControlResult) (c : OpConsumer) : OpConsumer :=
  match attachAnswer answer with
  | .ok _ => { c with phase := .racing startRetries }
  | .error e => { c with phase := .done (.error e) }

/-- `run` after the race. -/
def raced (blake3 : List UInt8 → String) (startRetries : ℕ) (result : Except Thrown Unit)
    (c : OpConsumer) : OpConsumer :=
  match result with
  | .ok () => { c with phase := .done (c.finish blake3 startRetries) }
  | .error e => { c with phase := .done (.error e) }

def teardown (c : OpConsumer) : OpConsumer := { c with torn := true }

end OpConsumer

/-! ## The event loop -/

inductive ConsumerEvent
  | frame (now : ℕ) (payload : Option OpFrame)
  | ackTimer
  | attachHealed (answer : Except Thrown ControlResult)
  | silence (now : ℕ)
  | silenceProbed (now : ℕ) (answer : Except Thrown ControlResult)
  | wall
  | started (answer : Except Thrown ℕ)
  | attached (answer : Except Thrown ControlResult)
  | raced
  | teardown

structure ConsumerConfig where
  blake3 : List UInt8 → String
  silenceTimeoutMs : ℕ
  reconnectHoldMs : ℕ

/-- One event serviced. The answers and the payloads are whatever the outside sends. -/
inductive ConsumerStep (config : ConsumerConfig) : OpConsumer → ConsumerEvent → OpConsumer → Prop
  | frame (c : OpConsumer) (now : ℕ) (payload : Option OpFrame) :
      ConsumerStep config c (.frame now payload) (c.onFramePayload now payload)
  | ackTimer (c : OpConsumer) : ConsumerStep config c .ackTimer c.sendAck
  | attachHealed (c : OpConsumer) (answer : Except Thrown ControlResult)
      (hflight : c.attachInFlight = true) :
      ConsumerStep config c (.attachHealed answer) (c.attachHealed answer)
  | silence (c : OpConsumer) (now : ℕ) (hsilent : config.silenceTimeoutMs ≤ now - c.lastFrameAt) :
      ConsumerStep config c (.silence now) (c.probeSilence now)
  | silenceProbed (c : OpConsumer) (now : ℕ) (answer : Except Thrown ControlResult) :
      ConsumerStep config c (.silenceProbed now answer) (c.silenceProbed config.reconnectHoldMs now answer)
  | wall (c : OpConsumer) :
      ConsumerStep config c .wall (c.decide_race (.error (.control wallError)))
  | started (c : OpConsumer) (answer : Except Thrown ℕ) (hphase : c.phase = .starting) :
      ConsumerStep config c (.started answer) (c.started answer)
  | attached (c : OpConsumer) (startRetries : ℕ) (answer : Except Thrown ControlResult)
      (hphase : c.phase = .attaching startRetries) :
      ConsumerStep config c (.attached answer) (c.attached startRetries answer)
  | raced (c : OpConsumer) (startRetries : ℕ) (result : Except Thrown Unit)
      (hphase : c.phase = .racing startRetries) (hrace : c.race = some result) :
      ConsumerStep config c .raced (c.raced config.blake3 startRetries result)
  | teardown (c : OpConsumer) (result : Except Thrown RunOutcome)
      (hphase : c.phase = .done result) :
      ConsumerStep config c .teardown c.teardown

end OpenGeni.Runtime
