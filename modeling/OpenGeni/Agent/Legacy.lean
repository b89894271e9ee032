/-
Legacy exec and git served over the op engine
(`opengeni-agent/src/legacy.rs`).

A legacy request runs as an engine job whose consumer sits in the same process: the emit
hook copies Data payloads into a buffer and acknowledges itself into the job's mailbox,
and the serving task turns the buffer into one reply once the terminal record arrives.

There are two threads of control. The job task runs the pump; within a step of the pump
it calls the emit hook once for each frame it sends, and `on_exit` after it has produced
the record. The serving task fills the mailbox cell, sends the Attach, waits for the
record, sends the final ack and takes the buffers. They share the mailbox, the buffers
and the oneshot that carries the record, and are otherwise free to overtake each other:
in particular the serving task may take the buffers between two emit calls of one step.

The parse of `git status` output (`GitResponse.status`), the stash for duplicates and
the answers given without a job are left out.
-/
import OpenGeni.Agent.LegacyFlow
import OpenGeni.Agent.StartJob

namespace OpenGeni.Agent

open OpenGeni.Lib OpenGeni.Engine

/-! ## Replies -/

/-- `ErrorCode`: the codes these replies use. -/
inductive ErrorCode
  | os
  | payload_too_large

structure AgentError where
  code : ErrorCode
  message : String
  retryable : Bool
  detail : List (String × String)

structure ExecResponse where
  exit_code : ℤ
  stdout : List UInt8
  stderr : List UInt8
  timed_out : Bool
  duration_ms : ℕ

structure GitResponse where
  exit_code : ℤ
  stdout : List UInt8
  stderr : List UInt8

/-- `RespResult`: the two results a job's reply carries. -/
inductive RespResult
  | exec (response : ExecResponse)
  | git (response : GitResponse)

structure ControlResponse where
  request_id : String
  error : Option AgentError
  result : Option RespResult

def error_reply (request_id : String) (code : ErrorCode) (message : String) (retryable : Bool) : ControlResponse where
  request_id := request_id
  error := some ⟨code, message, retryable, []⟩
  result := none

def overflow_reply (request_id : String) (total_bytes breaker : ℕ) : ControlResponse where
  request_id := request_id
  error := some {
    code := .payload_too_large
    message := s!"the command completed but produced {total_bytes} bytes of output — past the " ++
      s!"runner's reply-assembly breaker of {breaker} bytes, so the output was not " ++
      "kept. The command itself ran to completion (its side effects stand). Re-run " ++
      "with output redirected to a file, or use the streaming op path for output " ++
      "of this size."
    retryable := false
    detail := [("total_output_bytes", toString total_bytes), ("reply_breaker_bytes", toString breaker)] }
  result := none

/-- The kind and description of a failure in `failed_reply`. -/
def failure_kind : JobFailure → String × String
  | .overflow retained_bytes => ("OP_OVERFLOW",
      s!"the runner's output-retention quota was exhausted at {retained_bytes} bytes")
  | .spool_io detail => ("OP_SPOOL_IO", s!"the runner's disk spool failed: {detail}")
  | .pipe_io detail => ("OP_PIPE_IO", s!"reading the command's output failed: {detail}")

def failed_reply (request_id : String) (exit : JobExit) (failure : JobFailure) : ControlResponse :=
  let (kind, what) := failure_kind failure
  { request_id
    error := some {
      code := .os
      message := s!"{what}; the command was killed by the runner ({kind}, a runner/host " ++
        "condition — not a command failure). Output up to the failure point was " ++
        "counted but the assembled reply was discarded. Retry, or reduce the " ++
        "command's output volume."
      retryable := true
      detail := [("failure", kind), ("captured_stdout_bytes", toString exit.stdout.total_bytes),
        ("captured_stderr_bytes", toString exit.stderr.total_bytes)] }
    result := none }

/-- `ReplyBuffers`: the reply under assembly. -/
structure ReplyBuffers where
  stdout : List UInt8 := []
  stderr : List UInt8 := []
  total_bytes : ℕ := 0
  overflowed : Bool := false

/-- `ReplyBuffers::absorb`: bytes past the breaker are counted and not stored. -/
def ReplyBuffers.absorb (b : ReplyBuffers) (channel : Channel) (bytes : List UInt8) (breaker : ℕ) : ReplyBuffers :=
  let stored := if b.total_bytes + bytes.length ≤ breaker then
      match channel with
      | .stdout => { b with stdout := b.stdout ++ bytes }
      | .stderr => { b with stderr := b.stderr ++ bytes }
      | .content => b
    else { b with overflowed := true }
  { stored with total_bytes := b.total_bytes + bytes.length }

def build_reply (request_id : String) (exit : JobExit) (buffers : ReplyBuffers) (breaker : ℕ) : ControlResponse :=
  match exit.outcome with
  | .exited exit_code =>
    if buffers.overflowed then overflow_reply request_id buffers.total_bytes breaker
    else
      { request_id, error := none
        result := some (.exec {
          exit_code
          stdout := buffers.stdout
          stderr := buffers.stderr
          timed_out := false
          duration_ms := exit.duration_ms }) }
  | .timed_out =>
    { request_id, error := none
      result := some (.exec {
        exit_code := -1
        stdout := []
        stderr := "timed out".toUTF8.toList
        timed_out := true
        duration_ms := exit.duration_ms }) }
  | .cancelled => error_reply request_id .os "the command was cancelled before completion" false
  | .failed failure => failed_reply request_id exit failure

def build_git_reply (request_id : String) (record : JobExit) (buffers : ReplyBuffers) (breaker : ℕ) : ControlResponse :=
  match record.outcome with
  | .exited exit_code =>
    if buffers.overflowed then overflow_reply request_id buffers.total_bytes breaker
    else
      { request_id, error := none
        result := some (.git {
          exit_code
          stdout := buffers.stdout
          stderr := buffers.stderr }) }
  -- No deadline is set on git jobs.
  | .timed_out | .cancelled =>
    error_reply request_id .os "the git command was cancelled before completion" false
  | .failed failure => failed_reply request_id record failure

/-! ## The pump as a step function -/

def Pump.advance (blake3 : List UInt8 → List UInt8) (p : Pump) : PumpEvent → Option Pump
  | .wake event =>
    if p.exit_fence.isNone then
      if !p.exited && p.enabled event then p.handle event else none
    else if p.job_end.isNone then
      match event with
      | .command (some cmd) => p.handle_command cmd
      | .command none => some { p with mailbox_closed := true }
      | _ => none
    else none
  | .finish duration_ms =>
    if p.exited && p.exit_fence.isNone then p.finish blake3 duration_ms else none

variable {blake3 : List UInt8 → List UInt8} {p p' : Pump} {e : PumpEvent}

theorem Pump.advance_sound (h : p.advance blake3 e = some p') : PumpStep blake3 p e p' := by
  cases e with
  | wake event =>
    unfold advance at h
    dsimp only at h
    split_ifs at h with hfence henabled hend
    · rw [Bool.and_eq_true, Bool.not_eq_true'] at henabled
      exact .wake henabled.1 (Option.isNone_iff_eq_none.1 hfence) henabled.2 h
    · have hsome : p.exit_fence.isSome = true := by simpa [Option.isSome_iff_ne_none] using hfence
      have hnone := Option.isNone_iff_eq_none.1 hend
      split at h
      · exact .linger hsome hnone h
      · cases h
        exact .orphan hsome hnone
      · simp at h
  | finish duration_ms =>
    unfold advance at h
    dsimp only at h
    split_ifs at h with hguard
    rw [Bool.and_eq_true] at hguard
    exact .finish hguard.1 (Option.isNone_iff_eq_none.1 hguard.2) h

theorem Pump.advance_complete (h : PumpStep blake3 p e p') : p.advance blake3 e = some p' := by
  cases h with
  | wake hloop hfence henabled hres => simp [advance, hfence, hloop, henabled, hres]
  | finish hloop hfence hres => simp [advance, hfence, hloop, hres]
  | linger hfence hend hres =>
    have hsome : p.exit_fence ≠ none := Option.isSome_iff_ne_none.1 hfence
    simp [advance, hsome, hend, hres]
  | orphan hfence hend =>
    have hsome : p.exit_fence ≠ none := Option.isSome_iff_ne_none.1 hfence
    simp [advance, hsome, hend]

theorem Pump.advance_iff : p.advance blake3 e = some p' ↔ PumpStep blake3 p e p' := ⟨advance_sound, advance_complete⟩

/-! ## Serving a request -/

def LOCAL_GENERATION : ℕ := 1

/-- Which of `serve_exec` and `serve_git`. -/
inductive LegacyKind
  | exec
  | git

/-- What is served: the request's kind and id, and `legacy_buffer_max_bytes`. -/
structure LegacyRequest where
  kind : LegacyKind
  request_id : String
  breaker : ℕ

namespace LegacyRequest

def build (req : LegacyRequest) (record : JobExit) (buffers : ReplyBuffers) : ControlResponse := match req.kind with
  | .exec => build_reply req.request_id record buffers req.breaker
  | .git => build_git_reply req.request_id record buffers req.breaker

def no_record (req : LegacyRequest) : ControlResponse := match req.kind with
  | .exec => error_reply req.request_id .os
      "the exec job ended without producing a terminal record" false
  | .git => error_reply req.request_id .os
      "the git job ended without producing a terminal record" false

def attach (req : LegacyRequest) : JobCommand := .attach LOCAL_GENERATION 0 req.breaker

def ack (req : LegacyRequest) (acked_seq : ℕ) (final_ack : Bool) : JobCommand :=
  .ack LOCAL_GENERATION acked_seq req.breaker final_ack

end LegacyRequest

/-- Where the serving task stands, from the return of `start_job`. -/
inductive ServePc
  | started
  | attaching
  | waiting
  /-- The record has arrived and the watermark was read; the final ack is being sent. -/
  | recorded (record : JobExit) (acked : ℕ)
  | acked (record : JobExit)
  | replied (response : ControlResponse)

structure LegacyOp where
  pump : Pump
  mailbox : List JobCommand
  mailbox_cell : Bool
  buffers : ReplyBuffers
  /-- How many of the pump's emit calls have returned. -/
  hooked : ℕ
  /-- What `on_exit` has put into the oneshot. -/
  exit_tx : Option JobExit
  pc : ServePc

inductive LegacyEvent
  /-- The pump services an event that is no command, -/
  | pump (e : PumpEvent)
  | command
  | emit
  | on_exit
  | set_cell
  | attach
  | receive
  | lost
  | final_ack
  | reply
  | cancel

def PumpEvent.is_command : PumpEvent → Bool
  | .wake (.command _) => true
  | _ => false

namespace LegacyOp

/-- `start_job` has spawned the pump. -/
def start (retention : RetentionConfig) (deadline : Option ℕ) (config : JobConfig) : LegacyOp where
  pump := .new retention ⟨fun _ => []⟩ deadline config
  mailbox := []
  mailbox_cell := false
  buffers := {}
  hooked := 0
  exit_tx := none
  pc := .started

/-- `try_send`: dropped if the mailbox is full or its receiver gone. -/
def try_send (s : LegacyOp) (cmd : JobCommand) : LegacyOp :=
  if s.pump.job_end.isNone && decide (s.mailbox.length < JOB_MAILBOX_DEPTH) then
    { s with mailbox := s.mailbox ++ [cmd] }
  else s

/-- `send(..).await`: it waits for room, unless the receiver is gone. -/
def send (s : LegacyOp) (cmd : JobCommand) : Option LegacyOp := if s.pump.job_end.isSome then some s
  else if s.mailbox.length < JOB_MAILBOX_DEPTH then
    some { s with mailbox := s.mailbox ++ [cmd] }
  else none

/-- `buffering_emit`: one call of the emit hook. -/
def buffering_emit (req : LegacyRequest) (frame : Frame) (s : LegacyOp) : LegacyOp :=
  let absorbed := match frame.body with
    | .data channel bytes => { s with buffers := s.buffers.absorb channel bytes req.breaker }
    | _ => s
  if absorbed.mailbox_cell then absorbed.try_send (req.ack frame.seq false) else absorbed

/-- The emit calls of the pump's last step that have not returned. -/
def emitting (s : LegacyOp) : List Frame := s.pump.history.emitted.drop s.hooked

def between (s : LegacyOp) : Bool := s.emitting.isEmpty && (s.pump.exits.isEmpty || s.exit_tx.isSome)

def step (blake3 : List UInt8 → List UInt8) (req : LegacyRequest) (s : LegacyOp) : LegacyEvent → Option LegacyOp
  | .pump e =>
    if s.between && !e.is_command then
      (s.pump.advance blake3 e).map fun pump => { s with pump }
    else none
  | .command =>
    match s.mailbox with
    | [] => none
    | cmd :: rest =>
      if s.between then
        (s.pump.advance blake3 (.wake (.command (some cmd)))).map fun pump =>
          { s with
            pump
            mailbox := rest }
      else none
  | .emit =>
    match s.emitting with
    | [] => none
    | frame :: _ => some { s.buffering_emit req frame with hooked := s.hooked + 1 }
  | .on_exit =>
    if s.emitting.isEmpty && s.exit_tx.isNone then
      s.pump.exits.head?.map fun r => { s with exit_tx := some r.2 }
    else none
  | .set_cell =>
    match s.pc with
    | .started => some { s with
        mailbox_cell := true
        pc := .attaching }
    | _ => none
  | .attach =>
    match s.pc with
    | .attaching => (s.send req.attach).map fun s => { s with pc := .waiting }
    | _ => none
  | .receive =>
    match s.pc, s.exit_tx with
    | .waiting, some record => some { s with pc := .recorded record s.pump.watermark }
    | _, _ => none
  | .lost =>
    match s.pc, s.exit_tx with
    | .waiting, none => some { s with pc := .replied req.no_record }
    | _, _ => none
  | .final_ack =>
    match s.pc with
    | .recorded record acked => (s.send (req.ack acked true)).map fun s =>
      { s with pc := .acked record }
    | _ => none
  | .reply =>
    match s.pc with
    | .acked record => some { s with
        buffers := {}
        pc := .replied (req.build record s.buffers) }
    | _ => none
  | .cancel => some (s.try_send .cancel)

def StepFits (blake3 : List UInt8 → List UInt8) (s : LegacyOp) : LegacyEvent → Prop
  | .pump e => s.pump.StepFits blake3 e
  | _ => True

/-- A step of either task, from the state before it to the state after. -/
def Step (blake3 : List UInt8 → List UInt8) (req : LegacyRequest) (s : LegacyOp)
    (e : LegacyEvent) (s' : LegacyOp) : Prop :=
  s.step blake3 req e = some s'

end LegacyOp

end OpenGeni.Agent
