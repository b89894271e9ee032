/-
Control requests to a machine (`selfhosted/control-rpc.ts`, `retry-policy.ts`, the retry
loops of `session.ts` and of `op-stream.ts`): what a request comes back with, how a failure
is classified, and what is done next.

Delays are left out. Of an error the code and the flags that the loops read are kept.
-/
import OpenGeni.Runtime.OpStream
import OpenGeni.Runtime.BackendResolver

namespace OpenGeni.Runtime

/-! ## Failures -/

/-- `AgentError`: its code, and whether the detail has `NEVER_SENT_DETAIL_KEY`. -/
structure AgentFault where
  code : ErrorCode
  neverSentDetail : Bool := false
  deriving DecidableEq

/-- The flags of a `SelfhostedControlError` that the retry loops read. -/
structure ControlFault where
  code : ErrorCode
  reason : Option SelfhostedUnavailableReason := none
  draining : Bool := false
  neverSent : Bool := false
  deriving DecidableEq

def agentErrorToControlError (err : AgentFault) : ControlFault := match err.code with
  | .agentOffline => { code := err.code, reason := some .agentOffline, neverSent := err.neverSentDetail }
  | .timeout => { code := err.code, reason := some .agentReconnecting }
  | .consentRequired => { code := err.code, reason := some .consentRequired }
  | .draining => { code := err.code, draining := true }
  | _ => { code := err.code }

/-- `ERROR_CODE_PROTOCOL` for an empty or unexpected answer. -/
def protocolFault : ControlFault := { code := .protocol }

/-- `lostToControlError`. -/
def lostFault : ControlFault := { code := .stream }

structure TransportError where
  code : Option (List Char)
  message : List Char
  deriving DecidableEq

def isNoRespondersError (err : TransportError) : Bool :=
  err.code == some "503".toList || includes (toLowerCase err.message) "no responders".toList ||
    includes err.message "503".toList

def isRequestTimeoutError (err : TransportError) : Bool :=
  (err.code.any fun code => includes (toLowerCase code) "timeout".toList) ||
    includes (toLowerCase err.message) "timeout".toList || includes (toLowerCase err.message) "timed out".toList

/-- The error that `NatsControlRpc.request` puts in the place of a thrown one. -/
def requestFault (err : TransportError) : AgentFault :=
  if isNoRespondersError err then { code := .agentOffline, neverSentDetail := true }
  else if isRequestTimeoutError err then { code := .timeout }
  else { code := .agentOffline }

/-! ## Answers -/

/-- The kinds of control operations that `call` is used for. -/
inductive OpKind
  | ping | metrics | fsStat | fsList | fsRead
  | exec | git | fsWrite | fsMove | fsMkdir | fsRemove | ptyOpen | ptyWrite | ptyResize | ptyClose | desktopEnsure
  | desktopInput | desktopScreenshot
  deriving DecidableEq, Repr

/-- `SELFHOSTED_IDEMPOTENT_READONLY_OPS`. -/
def OpKind.readonly : OpKind → Bool
  | .ping | .metrics | .fsStat | .fsList | .fsRead => true
  | _ => false

/-- The runner serves the kind as an engine job, under the request id. -/
def OpKind.engineJob : OpKind → Bool
  | .exec | .git => true
  | _ => false

/-- A `ControlResponse`, decoded: a result, an error or neither. -/
inductive ControlReply
  | opStarted (accepted : Bool) (state : OpState)
  | result
  | error (err : AgentFault)
  | empty
  deriving DecidableEq

/-! ## `decideSelfhostedRetry` -/

def SELFHOSTED_DRAINING_MAX_RETRIES : ℕ := 3
def SELFHOSTED_EXEC_DRAINING_MAX_RETRIES : ℕ := 10
def SELFHOSTED_TIMEOUT_MAX_RETRIES : ℕ := 1
def SELFHOSTED_NEVER_SENT_MAX_RETRIES : ℕ := 3

/-- The counters of `call`. -/
structure CallRetries where
  draining : ℕ := 0
  timeout : ℕ := 0
  neverSent : ℕ := 0
  deriving DecidableEq

/-- `decideSelfhostedRetry`: whether to issue the operation again. -/
def decideSelfhostedRetry (opKind : OpKind) (error : ControlFault) (retries : CallRetries) : Bool :=
  if error.neverSent then decide (retries.neverSent < SELFHOSTED_NEVER_SENT_MAX_RETRIES)
  else if error.draining then
    decide (retries.draining <
      if opKind = .exec then SELFHOSTED_EXEC_DRAINING_MAX_RETRIES else SELFHOSTED_DRAINING_MAX_RETRIES)
  else if error.reason = some .agentReconnecting then
    opKind.readonly && decide (retries.timeout < SELFHOSTED_TIMEOUT_MAX_RETRIES)
  else false

def CallRetries.count (retries : CallRetries) (error : ControlFault) : CallRetries :=
  if error.neverSent then { retries with neverSent := retries.neverSent + 1 }
  else if error.draining then { retries with draining := retries.draining + 1 }
  else { retries with timeout := retries.timeout + 1 }

/-- What `call` does next: again, under a fresh request id, or not. -/
inductive CallNext
  | again (retries : CallRetries)
  | done
  deriving DecidableEq

def callFault (opKind : OpKind) (retries : CallRetries) (error : ControlFault) : CallNext :=
  if decideSelfhostedRetry opKind error retries then .again (retries.count error) else .done

/-- `SelfhostedSession.call` with an answer in hand. -/
def callNext (opKind : OpKind) (retries : CallRetries) : ControlReply → CallNext
  | .opStarted _ _ => .done
  | .result => .done
  | .error err => callFault opKind retries (agentErrorToControlError err)
  | .empty => callFault opKind retries protocolFault

/-! ## `OpConsumer.startOp` -/

def OP_START_DRAINING_MAX_RETRIES : ℕ := 10
def OP_START_BLIP_MAX_RETRIES : ℕ := 3

/-- The counters of `startOp`. -/
structure StartRetries where
  draining : ℕ := 0
  blip : ℕ := 0
  deriving DecidableEq

/-- What `startOp` does next. A fallback is to the legacy exec. -/
inductive StartNext
  | accepted
  | again (retries : StartRetries)
  | fallback
  | failed
  deriving DecidableEq

/-- `catch` of `startOp`. -/
def startFault (retries : StartRetries) (error : ControlFault) : StartNext :=
  if error.code = .protocol ∨ error.code = .unsupported then .fallback
  else if error.draining = true ∧ retries.draining < OP_START_DRAINING_MAX_RETRIES then
    .again { retries with draining := retries.draining + 1 }
  else if (error.reason = some .agentReconnecting ∨ error.neverSent = true) ∧
      retries.blip < OP_START_BLIP_MAX_RETRIES then
    .again { retries with blip := retries.blip + 1 }
  else .failed

def refusedStart (state : OpState) : ControlFault := if state = .lost then lostFault else protocolFault

/-- `startOp` with an answer in hand. -/
def startNext (retries : StartRetries) : ControlReply → StartNext
  | .opStarted accepted state =>
    if accepted = false then startFault retries (refusedStart state)
    else if state = .lost then startFault retries lostFault
    else .accepted
  | .result => startFault retries protocolFault
  | .error err => startFault retries (agentErrorToControlError err)
  | .empty => startFault retries protocolFault

end OpenGeni.Runtime
