/-
The supervised terminal pump
(`opengeni-agent-stream/src/pty_pump.rs`, `hub.rs`, `opengeni-agent-platform/src/pty.rs`).

The supervisor runs the pump over one process handle and one relay channel, and on a
retryable error reconnects and runs it again. A run takes the handle's reader and
writer, which can be taken once. The second run finds none: the sender of its output
queue goes with the closure that was never started, the queue is at its end at once,
and the pump reports a clean exit of a terminal that is still alive.

The tasks of one run (the blocking reader, the blocking writer, the select loop) take
turns, so the system is a state and a step is what one of them does next, or what the
child, the relay or a control op does to them. A reader that outlives its run holds on
to the terminal until its next read.

What the terminal shows of the ready signal, the resizes and the delays of the backoff
is left out.
-/
import OpenGeni.Relay.Resume

namespace OpenGeni.Stream

open OpenGeni.Lib OpenGeni.Relay

/-! ## Errors and the process handle -/

/-- `StreamError`, without its texts. -/
inductive StreamError
  | transport
  | protocol
  | open_rejected
  | platform

def StreamError.retryable : StreamError → Bool
  | .transport => true
  | _ => false

/-- `PtyProcess`, with its child and the terminal between them. -/
structure PtyProcess where
  reader : Bool
  writer : Bool
  exited : Bool
  /-- `kill` has been called. -/
  killed : Bool
  /-- What the child has written and no one has read. -/
  output : List UInt8
  input : List UInt8

def spawn_pty : PtyProcess := ⟨true, true, false, false, [], []⟩

/-- `PtyProcess::take_reader`: whether there was one, and the handle without it. -/
def PtyProcess.take_reader (p : PtyProcess) : Bool × PtyProcess := (p.reader, { p with reader := false })

def PtyProcess.take_writer (p : PtyProcess) : Bool × PtyProcess := (p.writer, { p with writer := false })

def PtyProcess.kill (p : PtyProcess) : PtyProcess := { p with killed := true }

/-! ## The pump and its supervisor -/

def OUTPUT_CHANNEL_BOUND : ℕ := 256

def READ_CHUNK : ℕ := 8 * 1024

/-- `PtyCommand`, without the resize's numbers. -/
inductive PtyCommand
  | write (bytes : List UInt8)
  | resize
  | close

/-- `StreamCloseReason`, as far as the supervisor uses it. -/
inductive StreamCloseReason
  | process_exit

inductive Supervisor
  /-- In `pty_pump::run`. -/
  | pumping
  /-- In `RelayChannel::reconnect`. -/
  | redialing
  | done
deriving DecidableEq

/-- `spawn_pty_pump` with what it owns. -/
structure PtySession where
  process : PtyProcess
  channel : RelayChannel
  phase : Supervisor
  /-- This run's reader task is alive, and with it the sender of the output queue. -/
  reading : Bool
  /-- What the reader task has read and not yet queued. -/
  hand : Option (List UInt8)
  /-- `out_rx`. -/
  out : List (List UInt8)
  /-- This run's writer task is alive, and with it the receiver of the input queue. -/
  writing : Bool
  /-- `in_rx`. -/
  input : List (List UInt8)
  /-- A reader task of an earlier run still has the reader. -/
  stray : Bool
  commands_open : Bool
  closed : Option StreamCloseReason
  /-- What this run is to forward: what it found in the terminal, and what the child has
  written since. -/
  due : List UInt8
  forwarded : List (List UInt8)

inductive Branch
  /-- `out_rx.recv()` yields a chunk, and what comes of sending it. -/
  | chunk (sent : Except StreamError Unit)
  /-- `out_rx.recv()` is at its end. -/
  | output_ended
  /-- `channel.recv()`. -/
  | inbound (item : Except StreamError (Option RelayMessage))
  /-- `commands.recv()`. -/
  | command (command : Option PtyCommand)

inductive PtyEvent
  | child_writes (bytes : List UInt8)
  | child_exits
  | read (n : ℕ)
  /-- The reader task's read meets the end of the terminal, or fails. -/
  | read_ends
  | queue
  /-- A stray reader reads so many bytes, and finds no receiver. -/
  | stray (n : ℕ)
  /-- The writer task takes its next chunk, and whether it can write it. -/
  | type (ok : Bool)
  | pump (branch : Branch)
  /-- `RelayChannel::reconnect` comes back: with the ack's resume point, or an error. -/
  | redial (outcome : Except StreamError ℕ)

namespace PtySession

/-- `pty_pump::run` begins. Without a reader or a writer the other end of its queue
is dropped. The writer is sent a newline. -/
def enter (s : PtySession) : PtySession := let (reading, process) := s.process.take_reader
  let (writing, process) := process.take_writer
  { s with
    process := process
    phase := .pumping
    reading := reading
    hand := none
    out := []
    writing := writing
    input := if writing then [[10]] else []
    commands_open := true
    due := process.output
    forwarded := [] }

def leave (s : PtySession) : PtySession := { s with process := s.process.kill, phase := .done }

/-- `pty_pump::run` returns, and the supervisor looks at the result. The writer task is
waited for. What the output queue holds is lost; a reader task that is not waiting to
queue something stays with its reader. -/
def ended (s : PtySession) (result : Except StreamError Unit) : PtySession := let s : PtySession := { s with
      process := { s.process with input := s.process.input ++ s.input.flatten }
      stray := s.stray || (s.reading && s.hand.isNone)
      reading := false
      hand := none
      out := []
      writing := false
      input := [] }
  match result with
  | .ok () => { s with closed := some .process_exit }.leave
  | .error e => if e.retryable then { s with phase := .redialing } else s.leave

/-- `in_tx.send`, when it does not have to wait: whether there is a receiver. -/
def send_input (s : PtySession) (bytes : List UInt8) : Bool × PtySession :=
  if s.writing then (true, { s with input := s.input ++ [bytes] }) else (false, s)

/-- `in_tx.send` has to wait. -/
def input_full (s : PtySession) : Bool := s.writing && decide (OUTPUT_CHANNEL_BOUND ≤ s.input.length)

def spawn_pty_pump : PtySession :=
  enter ⟨spawn_pty, ⟨0⟩, .pumping, false, none, [], false, [], false, true, none, [], []⟩

/-- One round of `pump_loop`, if the branch is ready: the session after it, and the
result when the loop returns. -/
def pump_loop (s : PtySession) : Branch → Option (PtySession × Option (Except StreamError Unit))
  | .chunk sent =>
    match s.out with
    | [] => none
    | bytes :: rest =>
      match sent with
      | .ok () =>
        some ({ s with out := rest, forwarded := s.forwarded ++ [bytes], channel := s.channel.send_frame }, none)
      | .error e => some ({ s with out := rest }, some (.error e))
  | .output_ended =>
    if s.reading = false ∧ s.hand = none ∧ s.out = [] then some (s, some (.ok ())) else none
  | .inbound (.error e) => some (s, some (.error e))
  | .inbound (.ok (some (.frame frame))) =>
    if s.input_full then none
    else
      match s.send_input frame.data with
      | (true, s) => some (s, none)
      | (false, s) => some (s, some (.ok ()))
  | .inbound (.ok (some (.close ..))) => some (s, some (.ok ()))
  | .inbound (.ok none) => some (s, some (.ok ()))
  | .inbound (.ok (some (.desktop_input _))) => some (s, none)
  | .command command =>
    if s.commands_open then
      match command with
      | some (.write bytes) => if s.input_full then none else some ((s.send_input bytes).2, none)
      | some .resize => some (s, none)
      | some .close => some ({ s with process := s.process.kill }, some (.ok ()))
      | none => some ({ s with commands_open := false }, none)
    else none

def step (s : PtySession) : PtyEvent → Option PtySession
  | .child_writes bytes =>
    if s.process.exited then none
    else some { s with process := { s.process with output := s.process.output ++ bytes }, due := s.due ++ bytes }
  | .child_exits =>
    if s.process.exited then none
    else some { s with process := { s.process with exited := true } }
  | .read n =>
    if s.reading ∧ s.hand = none ∧ 0 < n ∧ n ≤ READ_CHUNK ∧ n ≤ s.process.output.length then
      some { s with hand := some (s.process.output.take n),
                    process := { s.process with output := s.process.output.drop n } }
    else none
  | .read_ends =>
    if s.reading ∧ s.hand = none then some { s with reading := false } else none
  | .queue =>
    match s.hand with
    | some bytes =>
      if s.out.length < OUTPUT_CHANNEL_BOUND then
        some { s with hand := none, out := s.out ++ [bytes] }
      else none
    | none => none
  | .stray n =>
    if s.stray ∧ n ≤ READ_CHUNK ∧ n ≤ s.process.output.length then
      some { s with stray := false, process := { s.process with output := s.process.output.drop n } }
    else none
  | .type ok =>
    match s.input with
    | bytes :: rest =>
      if ok then
        some { s with input := rest, process := { s.process with input := s.process.input ++ bytes } }
      else some { s with writing := false, input := [] }
    | [] => none
  | .pump branch =>
    if s.phase = .pumping then
      match s.pump_loop branch with
      | some (s, none) => some s
      | some (s, some result) => some (s.ended result)
      | none => none
    else none
  | .redial outcome =>
    if s.phase = .redialing then
      match outcome with
      | .ok ack_resume_from_seq =>
        let resumed := RelayChannel.open_on s.channel.next_seq ack_resume_from_seq
        some { s with channel := s.channel.adopt resumed }.enter
      | .error _ => some s.leave
    else none

def Step (s : PtySession) (e : PtyEvent) (s' : PtySession) : Prop := s.step e = some s'

/-! ## Blips -/

/-- What the relay may bring about by dropping the connection and being dialed again, and what the terminal and its
user do on their own: no open is rejected, nothing is closed from outside, every datagram decodes, and the terminal
does not end before its child. -/
def Blip (s : PtySession) : PtyEvent → Prop
  | .read_ends => s.process.exited = true
  | .type ok => ok = false → s.process.exited = true
  | .pump (.chunk (.error e)) => e = .transport
  | .pump (.inbound (.error e)) => e = .transport
  | .pump (.inbound (.ok none)) => False
  | .pump (.inbound (.ok (some (.close ..)))) => False
  | .pump (.command (some .close)) => False
  | .redial (.error e) => e = .transport
  | _ => True

/-- While the child runs it has not been killed, nor the channel closed; and while the
pump runs every byte it is to forward has been forwarded or is on its way, with a
reader to read it. -/
structure Sound (s : PtySession) : Prop where
  alive : s.process.exited = false → s.process.killed = false ∧ s.closed = none
  carried : s.process.exited = false → s.phase = .pumping → s.reading = true ∧
    s.due = s.forwarded.flatten ++ s.out.flatten ++ s.hand.getD [] ++ s.process.output

def Undisturbed (s : PtySession) : PtyEvent → Prop
  | .redial _ => s.process.exited = true
  | _ => True

/-! ## The handle's reader is taken once -/

section

variable {s s' : PtySession} {e : PtyEvent}

theorem ended_process (result : Except StreamError Unit) : (s.ended result).process.reader = s.process.reader ∧
      (s.ended result).process.exited = s.process.exited := by
  unfold ended
  cases result with
  | ok => exact ⟨rfl, rfl⟩
  | error e =>
    dsimp only
    split_ifs
    · exact ⟨rfl, rfl⟩
    · exact ⟨rfl, rfl⟩

/-- What a round of the select loop leaves alone: the handle's reader, and all that is
not forwarded. -/
structure Round (s s' : PtySession) (result : Option (Except StreamError Unit)) : Prop where
  reader : s'.process.reader = s.process.reader
  exited : s'.process.exited = s.process.exited
  output : s'.process.output = s.process.output
  phase : s'.phase = s.phase
  reading : s'.reading = s.reading
  writing : s'.writing = s.writing
  hand : s'.hand = s.hand
  stray : s'.stray = s.stray
  closed : s'.closed = s.closed
  due : s'.due = s.due
  forwarded : result = none → s'.forwarded.flatten ++ s'.out.flatten = s.forwarded.flatten ++ s.out.flatten

theorem Round.refl (result : Option (Except StreamError Unit)) : Round s s result :=
  ⟨rfl, rfl, rfl, rfl, rfl, rfl, rfl, rfl, rfl, rfl, fun _ => rfl⟩

theorem send_input_round (bytes : List UInt8) (result : Option (Except StreamError Unit)) :
    Round s (s.send_input bytes).2 result := by
  unfold send_input
  split_ifs
  · exact ⟨rfl, rfl, rfl, rfl, rfl, rfl, rfl, rfl, rfl, rfl, fun _ => rfl⟩
  · exact .refl result

variable {result : Option (Except StreamError Unit)}

theorem pump_loop_round {branch : Branch} (h : s.pump_loop branch = some (s', result)) : Round s s' result := by
  unfold pump_loop at h
  split at h
  · split at h
    · simp at h
    · next bytes rest hout =>
      split at h
      · cases h
        refine ⟨rfl, rfl, rfl, rfl, rfl, rfl, rfl, rfl, rfl, rfl, fun _ => ?_⟩
        -- The chunk moves from the front of the queue to the end of what is sent.
        rw [hout]
        simp
      · cases h
        exact ⟨rfl, rfl, rfl, rfl, rfl, rfl, rfl, rfl, rfl, rfl, fun hnone => by simp at hnone⟩
  · split_ifs at h
    cases h
    exact .refl _
  · cases h
    exact .refl _
  · next frame =>
    split_ifs at h
    have hround := send_input_round (s := s) frame.data
    split at h
    · next hsend =>
      cases h
      rw [hsend] at hround
      exact hround _
    · next hsend =>
      cases h
      rw [hsend] at hround
      exact hround _
  · cases h
    exact .refl _
  · cases h
    exact .refl _
  · cases h
    exact .refl _
  · split at h
    · split at h
      · next bytes =>
        split_ifs at h
        cases h
        exact send_input_round bytes _
      · cases h
        exact .refl _
      · cases h
        exact ⟨rfl, rfl, rfl, rfl, rfl, rfl, rfl, rfl, rfl, rfl, fun hnone => by simp at hnone⟩
      · cases h
        exact ⟨rfl, rfl, rfl, rfl, rfl, rfl, rfl, rfl, rfl, rfl, fun _ => rfl⟩
    · simp at h

theorem step_reader (h : Step s e s') (hs : s.process.reader = false) : s'.process.reader = false := by
  unfold Step step at h
  split at h
  · split_ifs at h
    cases h
    exact hs
  · split_ifs at h
    cases h
    exact hs
  · split_ifs at h
    cases h
    exact hs
  · split_ifs at h
    cases h
    exact hs
  · split at h
    · split_ifs at h
      cases h
      exact hs
    · simp at h
  · split_ifs at h
    cases h
    exact hs
  · split at h
    · split_ifs at h
      · cases h
        exact hs
      · cases h
        exact hs
    · simp at h
  · split_ifs at h
    split at h
    · next hround =>
      cases h
      exact (pump_loop_round hround).reader.trans hs
    · next hround =>
      cases h
      rw [(ended_process _).1]
      exact (pump_loop_round hround).reader.trans hs
    · simp at h
  · split_ifs at h
    split at h
    · cases h
      rfl
    · cases h
      exact hs

/-! ## Sessions without a redial -/

/-- What holds of a session until a redial comes back: while the child runs it has not
been killed, and the pump has the reader and the writer of its first run. -/
structure Kept (s : PtySession) : Prop where
  alive : s.process.exited = false → s.process.killed = false ∧ s.closed = none ∧ s.phase ≠ .done
  first : s.process.exited = false → s.phase = .pumping → s.reading = true ∧ s.writing = true ∧ s.stray = false
  carried : s.process.exited = false → s.phase = .pumping →
    s.due = s.forwarded.flatten ++ s.out.flatten ++ s.hand.getD [] ++ s.process.output

theorem Kept.sound (h : s.Kept) : s.Sound where
  alive := fun hexited => ⟨(h.alive hexited).1, (h.alive hexited).2.1⟩
  carried := fun hexited hphase => ⟨(h.first hexited hphase).1, h.carried hexited hphase⟩

theorem spawn_pty_pump_kept : spawn_pty_pump.Kept where
  alive := fun _ => ⟨rfl, rfl, by decide⟩
  first := fun _ _ => ⟨rfl, rfl, rfl⟩
  carried := fun _ _ => rfl

theorem Kept.of_exited (h : s.process.exited = true) : s.Kept where
  alive := fun hexited => by simp [h] at hexited
  first := fun hexited => by simp [h] at hexited
  carried := fun hexited => by simp [h] at hexited

theorem pump_loop_blip {branch : Branch} (h : s.pump_loop branch = some (s', result))
    (hblip : s.Blip (.pump branch)) (hreading : s.reading = true) (hwriting : s.writing = true) :
    s'.process.killed = s.process.killed ∧ (result = none ∨ result = some (.error .transport)) := by
  have hsend : ∀ bytes, s.send_input bytes = (true, { s with input := s.input ++ [bytes] }) := by
    intro bytes
    unfold send_input
    rw [if_pos hwriting]
  unfold pump_loop at h
  split at h
  · split at h
    · simp at h
    · split at h
      · cases h
        exact ⟨rfl, .inl rfl⟩
      · next e =>
        cases h
        have htransport : e = .transport := hblip
        exact ⟨rfl, .inr (by rw [htransport])⟩
  · -- The reader task holds a sender, so the queue is not at its end.
    rw [hreading] at h
    simp at h
  · next e =>
    cases h
    have htransport : e = .transport := hblip
    exact ⟨rfl, .inr (by rw [htransport])⟩
  · next frame =>
    split at h
    · simp at h
    · rw [hsend] at h
      cases h
      exact ⟨rfl, .inl rfl⟩
  · exact hblip.elim
  · exact hblip.elim
  · cases h
    exact ⟨rfl, .inl rfl⟩
  · split at h
    · split at h
      · next bytes =>
        split at h
        · simp at h
        · rw [hsend] at h
          cases h
          exact ⟨rfl, .inl rfl⟩
      · cases h
        exact ⟨rfl, .inl rfl⟩
      · exact hblip.elim
      · cases h
        exact ⟨rfl, .inl rfl⟩
    · simp at h

theorem ended_transport : s.ended (.error .transport) = { s with
      process := { s.process with input := s.process.input ++ s.input.flatten }
      stray := s.stray || (s.reading && s.hand.isNone)
      reading := false
      hand := none
      out := []
      writing := false
      input := []
      phase := .redialing } := rfl

theorem Kept.step (h : s.Kept) (hstep : Step s e s') (hblip : s.Blip e)
    (hundisturbed : s.Undisturbed e) : s'.Kept := by
  unfold Step PtySession.step at hstep
  split at hstep
  · next bytes =>
    split_ifs at hstep
    cases hstep
    refine ⟨h.alive, h.first, fun hexited hphase => ?_⟩
    show s.due ++ bytes = _ ++ (s.process.output ++ bytes)
    rw [h.carried hexited hphase, List.append_assoc _ _ bytes]
  · split_ifs at hstep
    cases hstep
    exact .of_exited rfl
  · next n =>
    split_ifs at hstep with hread
    cases hstep
    refine ⟨h.alive, h.first, fun hexited hphase => ?_⟩
    show s.due = _ ++ s.process.output.take n ++ s.process.output.drop n
    rw [List.append_assoc, List.take_append_drop, h.carried hexited hphase, hread.2.1]
    simp
  · split_ifs at hstep
    cases hstep
    exact .of_exited hblip
  · split at hstep
    · next bytes hhand =>
      split_ifs at hstep
      cases hstep
      refine ⟨h.alive, h.first, fun hexited hphase => ?_⟩
      show s.due = s.forwarded.flatten ++ (s.out ++ [bytes]).flatten ++ [] ++ s.process.output
      rw [h.carried hexited hphase, hhand]
      simp
    · simp at hstep
  · split_ifs at hstep with hstray
    cases hstep
    refine ⟨h.alive, fun hexited hphase => ?_, fun hexited hphase => ?_⟩
    · exact absurd hstray.1 (by simp [(h.first hexited hphase).2.2])
    · exact absurd hstray.1 (by simp [(h.first hexited hphase).2.2])
  · next ok =>
    split at hstep
    · split_ifs at hstep with hok
      · cases hstep
        exact ⟨h.alive, h.first, h.carried⟩
      · cases hstep
        exact .of_exited (hblip (by simpa using hok))
    · simp at hstep
  · next branch =>
    split_ifs at hstep with hphase
    split at hstep
    · next t hgoes =>
      cases hstep
      have hround := pump_loop_round hgoes
      refine ⟨fun hexited => ?_, fun hexited _ => ?_, fun hexited _ => ?_⟩
      · rw [hround.exited] at hexited
        obtain ⟨hreading, hwriting, -⟩ := h.first hexited hphase
        obtain ⟨hkilled, -⟩ := pump_loop_blip hgoes hblip hreading hwriting
        rw [hkilled, hround.closed, hround.phase]
        exact h.alive hexited
      · rw [hround.exited] at hexited
        rw [hround.reading, hround.writing, hround.stray]
        exact h.first hexited hphase
      · rw [hround.exited] at hexited
        rw [hround.due, hround.hand, hround.output, hround.forwarded rfl]
        exact h.carried hexited hphase
    · next t result hreturns =>
      cases hstep
      have hround := pump_loop_round hreturns
      by_cases hexited : s.process.exited = true
      · exact .of_exited ((ended_process _).2.trans (hround.exited.trans hexited))
      · -- The pump had a reader and a writer, so the transport has dropped.
        rw [Bool.not_eq_true] at hexited
        obtain ⟨hreading, hwriting, -⟩ := h.first hexited hphase
        obtain ⟨hkilled, hresult⟩ := pump_loop_blip hreturns hblip hreading hwriting
        obtain rfl : result = .error .transport := by simpa using hresult
        rw [ended_transport]
        refine ⟨fun _ => ⟨?_, ?_, fun hdone => by simp at hdone⟩, fun _ hpumping => ?_, fun _ hpumping => ?_⟩
        · show t.process.killed = false
          rw [hkilled]
          exact (h.alive hexited).1
        · show t.closed = none
          rw [hround.closed]
          exact (h.alive hexited).2.1
        · simp at hpumping
        · simp at hpumping
    · simp at hstep
  · split_ifs at hstep
    split at hstep
    · cases hstep
      exact .of_exited hundisturbed
    · cases hstep
      exact .of_exited hundisturbed

/-! ## Every run -/

/-- A redial that comes back while the child runs leaves the session unsound: a failed
one kills the child, and after a good one no one reads its terminal. -/
theorem redial_unsound {outcome : Except StreamError ℕ} (hreader : s.process.reader = false)
    (hexited : s.process.exited = false) (hstep : Step s (.redial outcome) s') : ¬ s'.Sound := by
  intro hsound
  unfold Step PtySession.step at hstep
  dsimp only at hstep
  split_ifs at hstep
  split at hstep
  · cases hstep
    have hreading := (hsound.carried hexited rfl).1
    have htaken : s.process.reader = true := hreading
    rw [hreader] at htaken
    simp at htaken
  · cases hstep
    have hkilled : true = false := (hsound.alive hexited).1
    simp at hkilled

/-- **A terminal lives through its relay's blips if and only if no redial comes back
while its child runs.** -/
theorem pty_survives_iff (es : List PtyEvent) (s : PtySession) :
    Always (Restrict Step Blip) (fun _ _ t' => t'.Sound) spawn_pty_pump es s ↔
      Always (Restrict Step Blip) (fun t e _ => t.Undisturbed e) spawn_pty_pump es s := by
  constructor
  · intro hsound es₁ e es₂ t t' hes hrun hstep hrest
    have hafter : t'.Sound := hsound es₁ e es₂ t t' hes hrun hstep hrest
    cases e with
    | redial outcome =>
      have hreader : t.process.reader = false := by
        refine hrun.invariant (P := fun s => s.process.reader = false) ?_ rfl
        rintro s e t ⟨hst, -⟩ hs
        exact step_reader hst hs
      by_contra hexited
      exact redial_unsound hreader (Bool.eq_false_of_not_eq_true hexited) hstep.1 hafter
    | _ => trivial
  · intro hundisturbed es₁ e es₂ t t' hes hrun hstep hrest
    subst hes
    have hkept : t.Kept := by
      refine (hundisturbed.restrict hrun (.cons hstep hrest)).invariant ?_ spawn_pty_pump_kept
      rintro s e t ⟨⟨hst, hblip⟩, hok⟩ hs
      exact hs.step hst hblip hok
    have hok : t.Undisturbed e := hundisturbed es₁ e es₂ t t' rfl hrun hstep hrest
    exact (hkept.step hstep.1 hstep.2 hok).sound

/-- The connection drops as the first chunk is sent, the redial succeeds, and the second
run finds no reader: the terminal is killed and its channel closed as exited. -/
theorem blip_kills_terminal : ∃ (es : List PtyEvent) (s : PtySession),
    Run (Restrict Step Blip) spawn_pty_pump es s ∧ s.process.exited = false ∧
      s.process.killed = true ∧ s.closed = some .process_exit := by
  let es : List PtyEvent := [.child_writes [36], .read 1, .queue,
    .pump (.chunk (.error .transport)), .redial (.ok 0), .pump .output_ended]
  have hblip : ∀ e ∈ es, ∀ s, Blip s e := by
    intro e he s
    simp only [es, List.mem_cons, List.not_mem_nil, or_false] at he
    rcases he with rfl | rfl | rfl | rfl | rfl | rfl
    all_goals first | rfl | trivial
  have hplay : ∃ s, play step spawn_pty_pump es = some s ∧ s.process.exited = false ∧
      s.process.killed = true ∧ s.closed = some .process_exit := ⟨_, rfl, rfl, rfl, rfl⟩
  obtain ⟨s, hs, hkilled⟩ := hplay
  exact ⟨es, s, play_run hblip hs, hkilled⟩

end

end PtySession

end OpenGeni.Stream
