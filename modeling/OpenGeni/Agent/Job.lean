/-
The op-stream job pump (`opengeni-agent/src/job.rs`, `Pump`).

One pump per job. It reads the child's pipes into the retention log, sends what
the credit window allows through the emit hook, serves its mailbox, produces the
terminal record once the child is reaped and both pipes are closed, and lingers
for collection.

The select loop is a step relation: `PumpStep` relates the pump before and after
one wakeup, under the guard the source puts on that arm. Which enabled arm fires,
and what the kernel, the child and the supervisor deliver, is the label. Pipes and
the child are modelled by what the pump does with them (open or dropped,
terminated or not); a hasher by the bytes it was fed, with `blake3` a parameter.
Pacing (the progress interval) is left out: a tick may come at any time.

A `none` result is a Rust panic in the retention log, or `catch_up` running out of
the fuel its loop is given; `JobLink.lean` proves that neither happens.
-/
import OpenGeni.Engine.Flow
import OpenGeni.Engine.Retention
import OpenGeni.Lib.Run

namespace OpenGeni.Agent

open OpenGeni.Lib OpenGeni.Engine

/-! ## Data -/

/-- The `Display` form of `RetentionError`. -/
def retention_error_text : RetentionError → String
  | .overflow retained_bytes memory_max_bytes spool_max_bytes =>
    s!"retention overflow: {retained_bytes} bytes retained, memory cap {memory_max_bytes}, " ++
      s!"spool quota {spool_max_bytes}"
  | .spool_io during source => s!"spool i/o failure during {during}: {source}"
  | .replay_below_floor from_exclusive floor =>
    s!"replay from seq {from_exclusive} is below the retained floor {floor}"

/-- `JobFailure`: why the runner failed a job. -/
inductive JobFailure
  | overflow (retained_bytes : ℕ)
  | spool_io (detail : String)
  | pipe_io (detail : String)
deriving DecidableEq

def JobFailure.from_retention : RetentionError → JobFailure
  | .overflow retained_bytes _ _ => .overflow retained_bytes
  | other => .spool_io (retention_error_text other)

/-- `JobOutcome`: the typed terminal outcome of a job. -/
inductive JobOutcome
  | exited (exit_code : ℤ)
  | timed_out
  | cancelled
  | failed (failure : JobFailure)
deriving DecidableEq

/-- `ChannelStats`: byte total and digest of one channel's full stream. -/
structure ChannelStats where
  total_bytes : ℕ
  digest : List UInt8

/-- `JobExit`: the terminal record. -/
structure JobExit where
  outcome : JobOutcome
  duration_ms : ℕ
  stdout : ChannelStats
  stderr : ChannelStats

/-- `JobCommand`: what the mailbox delivers. -/
inductive JobCommand
  | ack (generation acked_seq credit_bytes : ℕ) (final_ack : Bool)
  | attach (generation from_seq window_bytes : ℕ)
  | detach
  | cancel
deriving DecidableEq

structure JobConfig where
  /-- Max payload bytes per Data frame, and per pipe read. -/
  max_frame_bytes : ℕ

/-- `JobHooks`: the seam whose result the pump uses. The other two, `emit` and
`on_exit`, are recorded. -/
structure JobHooks where
  encode_exit : JobExit → List UInt8

/-- `JobEnd`: how a job task ended. -/
inductive JobEnd
  | final_acked
  | orphaned

/-- `Event`: one wakeup of the pump loop. -/
inductive Event
  | command (cmd : Option JobCommand)
  | child_exit (status : Except String (Option ℤ))
  | deadline
  | progress_tick
  | read (channel : Channel) (result : Except String (List UInt8))

/-- One call of the emit hook, with the window in force and the highest
acknowledged seq at that moment. -/
structure Emission where
  frame : Frame
  window_bytes : ℕ
  floor : ℕ

/-- What the outside has seen of the pump. No function of the pump reads it. -/
structure History where
  /-- Where the current attachment started: its clamped `from_seq`. -/
  attach_from : ℕ
  /-- The emit calls of the current attachment, in order. -/
  attachment : List Emission
  emitted : List Frame

/-- `Pump`: the per-job state. -/
structure Pump where
  retention : RetentionLog
  retention_config : RetentionConfig
  flow : CreditFlow
  hooks : JobHooks
  /-- Mirror of `retention.high_seq()` for status answers. -/
  watermark : ℕ
  /-- Set once, by a replay that fails after the terminal record. -/
  collection_failure : Option JobFailure
  /-- The final-ack fence, set when the terminal record is produced. -/
  exit_fence : Option ℕ
  /-- Whether `child.terminate()` was called. -/
  terminated : Bool
  child_done : Bool
  child_code : ℤ
  stdout : Bool
  stderr : Bool
  stdout_hash : List UInt8
  stdout_total : ℕ
  stderr_hash : List UInt8
  stderr_total : ℕ
  mailbox_closed : Bool
  /-- A terminal outcome decided before the exit record is built. -/
  pending_outcome : Option JobOutcome
  final_acked : Bool
  deadline : Option ℕ
  config : JobConfig
  history : History
  /-- All `on_exit` calls. -/
  exits : List (Option ℕ × JobExit)

namespace Pump

/-- The pump `run_job` builds. -/
def new (retention : RetentionConfig) (hooks : JobHooks) (deadline : Option ℕ) (config : JobConfig) : Pump where
  retention := .new retention fun _ => none
  retention_config := retention
  flow := .new
  hooks := hooks
  watermark := 0
  collection_failure := none
  exit_fence := none
  terminated := false
  child_done := false
  child_code := -1
  stdout := true
  stderr := true
  stdout_hash := []
  stdout_total := 0
  stderr_hash := []
  stderr_total := 0
  mailbox_closed := false
  pending_outcome := none
  final_acked := false
  deadline := deadline
  config := config
  history := ⟨0, [], []⟩
  exits := []

/-! ## Sending -/

/-- `Pump::send`: the single emit choke point. -/
def send (p : Pump) (frame : Frame) : Pump := { p with
    flow := p.flow.on_sent frame.seq frame.body.payload_len
    history := { p.history with
      attachment := p.history.attachment ++ [⟨frame, p.flow.window_bytes, p.retention.floor⟩]
      emitted := p.history.emitted ++ [frame] } }

/-- The `for` loop of `catch_up` over one bite; `false` is its early return. -/
def send_bite : Pump → List Frame → Bool × Pump
  | p, [] => (true, p)
  | p, frame :: frames =>
    if !p.flow.may_send frame.body.payload_len then (false, p)
    else send_bite (p.send frame) frames

/-- The `loop` of `catch_up`. -/
def catch_up_loop : ℕ → Pump → Option (Except RetentionError Unit × Pump)
  | 0, _ => none
  | fuel + 1, p =>
    if !p.flow.attached then some (.ok (), p)
    else
      let from_exclusive := max p.flow.sent_hi p.retention.floor
      if p.retention.high_seq ≤ from_exclusive then some (.ok (), p)
      else
        let budget := p.flow.allowance
        if budget = 0 then some (.ok (), p)
        else
          match p.retention.replay_bounded from_exclusive budget with
          | .error e => some (.error e, p)
          | .ok frames =>
            if frames.isEmpty then some (.ok (), p)
            else
              match p.send_bite frames with
              | (false, p') => some (.ok (), p')
              | (true, p') => catch_up_loop fuel p'

/-- `Pump::catch_up`. Every pass but the last sends a frame, so the number of
frames is fuel enough. -/
def catch_up (p : Pump) : Option (Except RetentionError Unit × Pump) := catch_up_loop (p.retention.high_seq + 1) p

def append_and_send (p : Pump) (body : FrameBody) : Option (Except RetentionError ℕ × Pump) :=
  let live := p.flow.attached && p.flow.sent_hi == p.retention.high_seq && p.flow.may_send body.payload_len
  match p.retention.append body with
  | none => none
  | some (.error e, retention) => some (.error e, { p with retention })
  | some (.ok seq, retention) =>
    let p' : Pump := { p with retention, watermark := seq }
    some (.ok seq, if live then p'.send ⟨seq, body⟩ else p')

/-! ## The read gate -/

def retention_headroom (p : Pump) : Bool :=
  let budget := if 0 < p.retention_config.spool_max_bytes then p.retention_config.spool_max_bytes
    else p.retention_config.memory_max_bytes
  decide (p.retention.retained_bytes + p.config.max_frame_bytes ≤ budget)

def may_read (p : Pump) : Bool := if p.child_done then p.retention_headroom
  else if p.flow.attached then
    decide (p.retention.high_seq ≤ p.flow.sent_hi) && decide (0 < p.flow.allowance)
  else p.retention_headroom

/-! ## Handling one wakeup -/

def terminate_child (p : Pump) : Pump := { p with terminated := true }

/-- `Pump::fail`: record the outcome (first writer wins), kill the work, stop
reading. -/
def fail (p : Pump) (failure : JobFailure) : Pump := { p with
    pending_outcome := if p.pending_outcome.isNone then some (.failed failure)
      else p.pending_outcome
    terminated := true
    stdout := false
    stderr := false }

def close_pipe (p : Pump) : Channel → Pump
  | .stdout => { p with stdout := false }
  | .stderr => { p with stderr := false }
  | .content => p

/-- `Pump::exited`: the loop's exit condition. -/
def exited (p : Pump) : Bool := p.child_done && !p.stdout && !p.stderr

def drive_catch_up (p : Pump) : Option Pump := match p.catch_up with
  | none => none
  | some (.ok (), p') => some p'
  | some (.error e, p') =>
    if p'.exited then
      some { p' with
        collection_failure := p'.collection_failure.or (some (.from_retention e)) }
    else some (p'.fail (.from_retention e))

def apply_ack (p : Pump) (generation acked_seq credit_bytes : ℕ) : Option (Bool × Pump) :=
  let upper := min acked_seq p.flow.sent_hi
  let freed := p.retention.payload_bytes_in_range p.retention.floor upper
  match p.flow.on_ack generation credit_bytes freed with
  | (.stale_generation _, flow) => some (false, { p with flow })
  | (.applied, flow) =>
    match p.retention.ack acked_seq with
    | none => none
    | some retention => (drive_catch_up { p with flow, retention }).map fun p' => (true, p')

def apply_attach (p : Pump) (generation from_seq window_bytes : ℕ) : Option Pump :=
  let from_clamped := min from_seq p.retention.high_seq
  match p.flow.attach generation from_clamped window_bytes with
  | (.accepted, flow) =>
    drive_catch_up { p with flow, history := { p.history with attach_from := from_clamped, attachment := [] } }
  | (.stale_generation _, flow) => some { p with flow }

def handle_command (p : Pump) : JobCommand → Option Pump
  | .ack generation acked_seq credit_bytes final_ack =>
    match p.apply_ack generation acked_seq credit_bytes with
    | none => none
    | some (applied, p') =>
      if final_ack then
        match p'.exit_fence with
        | some fence =>
          if applied && decide (fence ≤ acked_seq) then some { p' with final_acked := true }
          else some p'
        | none => some p'
      else some p'
  | .attach generation from_seq window_bytes => p.apply_attach generation from_seq window_bytes
  | .detach => some { p with flow := p.flow.detach }
  | .cancel =>
    if !p.child_done && p.pending_outcome.isNone then
      some { p with pending_outcome := some .cancelled }.terminate_child
    else some p

/-- `append_and_send` under `if let Err(error) … fail`. -/
def append_or_fail (p : Pump) (body : FrameBody) : Option Pump := match p.append_and_send body with
  | none => none
  | some (.ok _, p') => some p'
  | some (.error e, p') => some (p'.fail (.from_retention e))

def on_data (p : Pump) (channel : Channel) (bytes : List UInt8) : Option Pump :=
  let hashed : Pump := match channel with
    | .stdout => { p with stdout_hash := p.stdout_hash ++ bytes,
                          stdout_total := p.stdout_total + bytes.length }
    | .stderr => { p with stderr_hash := p.stderr_hash ++ bytes,
                          stderr_total := p.stderr_total + bytes.length }
    | .content => p
  hashed.append_or_fail (.data channel bytes)

/-- The `Debug` form of `Channel`. -/
def channel_text : Channel → String
  | .stdout => "Stdout"
  | .stderr => "Stderr"
  | .content => "Content"

/-- The `match event` of `Pump::run`. -/
def handle (p : Pump) : Event → Option Pump
  | .command none =>
    if !p.child_done && p.pending_outcome.isNone then
      some { p with mailbox_closed := true, pending_outcome := some .cancelled }.terminate_child
    else some { p with mailbox_closed := true }
  | .command (some cmd) => p.handle_command cmd
  | .child_exit (.ok code) => some { p with child_done := true, child_code := code.getD (-1) }
  | .child_exit (.error error) =>
    some ({ p with child_done := true }.fail (.pipe_io s!"wait: {error}"))
  | .deadline => some { p with pending_outcome := some .timed_out }.terminate_child
  | .progress_tick => p.append_or_fail .progress
  | .read channel (.ok []) => some (p.close_pipe channel)
  | .read channel (.ok (b :: bytes)) => p.on_data channel (b :: bytes)
  | .read channel (.error error) =>
    some (p.fail (.pipe_io ("read " ++ channel_text channel ++ s!": {error}")))

/-- The record `Pump::finish` builds. -/
def exit_record (blake3 : List UInt8 → List UInt8) (duration_ms : ℕ) (p : Pump) : JobExit where
  outcome := p.pending_outcome.getD (.exited p.child_code)
  duration_ms := duration_ms
  stdout := ⟨p.stdout_total, blake3 p.stdout_hash⟩
  stderr := ⟨p.stderr_total, blake3 p.stderr_hash⟩

/-- `Pump::finish` up to its lingering loop. -/
def finish (blake3 : List UInt8 → List UInt8) (duration_ms : ℕ) (p : Pump) : Option Pump :=
  let exit := p.exit_record blake3 duration_ms
  match { p with pending_outcome := none }.append_and_send (.exit (p.hooks.encode_exit exit)) with
  | none => none
  | some (r, p') =>
    let exit_seq : Option ℕ := match r with
      | .ok seq => some seq
      | .error _ => none
    some { p' with
      exit_fence := some (exit_seq.getD p'.retention.high_seq)
      exits := p'.exits ++ [(exit_seq, exit)] }

def job_end (p : Pump) : Option JobEnd := if p.exit_fence.isNone then none
  else if p.final_acked then some .final_acked
  else if p.mailbox_closed then some .orphaned
  else none

/-! ## The pump as a step relation -/

/-- The guard of each arm of the `select`, and what its future can deliver: a read
fills at most the buffer of `max_frame_bytes`. -/
def enabled (p : Pump) : Event → Bool
  | .command _ => !p.mailbox_closed
  | .child_exit _ => !p.child_done
  | .deadline => p.deadline.isSome && !p.child_done && p.pending_outcome.isNone
  | .progress_tick => true
  | .read channel result =>
    let pipe := match channel with
      | .stdout => p.stdout
      | .stderr => p.stderr
      | .content => false
    let in_buffer := match result with
      | .ok bytes => decide (bytes.length ≤ p.config.max_frame_bytes)
      | .error _ => true
    p.may_read && pipe && in_buffer

end Pump

inductive PumpEvent
  | wake (event : Event)
  | finish (duration_ms : ℕ)

inductive PumpStep (blake3 : List UInt8 → List UInt8) : Pump → PumpEvent → Pump → Prop
  | wake {p p' : Pump} {event : Event} (hloop : p.exited = false) (hfence : p.exit_fence = none)
      (henabled : p.enabled event = true) (h : p.handle event = some p') :
      PumpStep blake3 p (.wake event) p'
  /-- The loop is over: the terminal record is produced. -/
  | finish {p p' : Pump} {duration_ms : ℕ} (hloop : p.exited = true) (hfence : p.exit_fence = none)
      (h : p.finish blake3 duration_ms = some p') : PumpStep blake3 p (.finish duration_ms) p'
  | linger {p p' : Pump} {cmd : JobCommand} (hfence : p.exit_fence.isSome)
      (hend : p.job_end = none) (h : p.handle_command cmd = some p') :
      PumpStep blake3 p (.wake (.command (some cmd))) p'
  | orphan {p : Pump} (hfence : p.exit_fence.isSome) (hend : p.job_end = none) :
      PumpStep blake3 p (.wake (.command none)) { p with mailbox_closed := true }

/-- Services wakeups of the main loop in order, as long as each is enabled and meets
the check `ok`. -/
def Pump.service (ok : Pump → Event → Bool) (p : Pump) : List Event → Option Pump
  | [] => some p
  | event :: events =>
    if !p.exited && p.exit_fence.isNone && p.enabled event && ok p event then
      (p.handle event).bind fun p' => p'.service ok events
    else none

theorem Pump.service_run (blake3 : List UInt8 → List UInt8) (Ok : Pump → PumpEvent → Prop)
    {p p' : Pump} {events : List Event} {ok : Pump → Event → Bool}
    (hok : ∀ p event, ok p event = true → Ok p (.wake event))
    (h : p.service ok events = some p') :
    Run (Restrict (PumpStep blake3) Ok) p (events.map .wake) p' := by
  induction events generalizing p with
  | nil =>
    obtain rfl : p = p' := Option.some.inj h
    exact .nil p
  | cons event events ih =>
    rw [service] at h
    split_ifs at h with hguard
    obtain ⟨q, hq, hrest⟩ := Option.bind_eq_some_iff.1 h
    simp only [Bool.and_eq_true, Bool.not_eq_true', Option.isNone_iff_eq_none] at hguard
    obtain ⟨⟨⟨hloop, hfence⟩, henabled⟩, hcheck⟩ := hguard
    exact .cons ⟨.wake hloop hfence henabled hq, hok p event hcheck⟩ (ih hrest)

theorem Pump.service_reaches {blake3 : List UInt8 → List UInt8} {p : Pump} {events : List Event}
    {q : Pump → Bool} (h : (p.service (fun _ _ => true) events).any q = true) :
    ∃ p', Run (PumpStep blake3) p (events.map .wake) p' ∧ q p' = true := by
  obtain ⟨hsome, hq⟩ := (Option.any_eq_true_iff_get _ _).1 h
  refine ⟨_, ?_, hq⟩
  exact (service_run blake3 (fun _ _ => True) (fun _ _ _ => trivial) (Option.some_get hsome).symm).unrestrict

def Pump.smallJob : Pump := .new ⟨1000, 100, 1000, 100⟩ ⟨fun _ => []⟩ none ⟨1⟩

def Event.oneByte : Event := .read .stdout (.ok [0])

end OpenGeni.Agent
