/-
Relay connections against one registry
(`opengeni-relay/src/server.rs`, `conn`).

A connection attaches, writes its ack and the replayed tail, splices until its
socket or its sink ends, and detaches. Any number of them run at once; between
two critical sections of one, the others do what they like. So the system is the
registry with a table of connections, and a step is one critical section, one
write, or one item off a socket.

Only `detach` carries the connection's generation. The splice forwards by key and
role, so a superseded connection whose task has not yet noticed that its sink was
dropped still speaks for the side that replaced it; `Superseded.lean` says what it
can do there.
-/
import OpenGeni.Relay.ChannelRegistry

namespace OpenGeni.Relay

open OpenGeni.Lib

/-! ## Connections -/

def OUTBOUND_QUEUE : ℕ := 256

def RelayMessage.closes : RelayMessage → Bool
  | .close .. => true
  | _ => false

inductive HandshakeWrite
  | ack (resume_from_seq : ℕ)
  | replay (frame : StreamFrame)
deriving DecidableEq

inductive Phase
  | opening (writes : List HandshakeWrite)
  | splicing
  /-- Between the two critical sections of `close`. -/
  | closing
  | leaving
  | gone
deriving DecidableEq

/-- `Established`, with the phase of its task. -/
structure Conn where
  key : ChannelKey
  role : Role
  conn_gen : ℕ
  phase : Phase

/-- What `ws_rx.next()` yields, as `handle_inbound` distinguishes it. -/
inductive Inbound
  | message (msg : RelayMessage)
  /-- A second open, an undecodable datagram, a ping, a pong or a text. -/
  | ignored
  /-- A close frame, the end of the stream or a socket error. -/
  | ended

inductive ConnEvent
  /-- `handshake` attaches the connection. -/
  | attach (conn : ℕ) (key : ChannelKey) (role : Role) (client_epoch : Option ℕ)
      (resume_from_seq now : ℕ)
  | write (conn : ℕ) (ok : Bool)
  /-- `splice` writes the next queued message. -/
  | outbound (conn : ℕ) (ok : Bool)
  /-- `splice` finds that its sink was dropped. -/
  | dropped (conn : ℕ)
  | inbound (conn : ℕ) (item : Inbound) (now : ℕ)
  /-- The second critical section of `close`. -/
  | remove (conn : ℕ)
  | detach (conn : ℕ)
  | reap (now : ℕ)

/-- The registry and the connections. A connection that has ended stays in the table. -/
structure RelayState (B : Type) where
  registry : ChannelRegistry B
  conns : ℕ → Option Conn

namespace RelayState

variable {B : Type}

def new (config : RelayConfig) : RelayState B := ⟨.new config, fun _ => none⟩

def set_queue (s : RelayState B) (conn : ℕ) (queue : PeerQueue) : RelayState B :=
  { s with registry := { s.registry with
      queues := Function.update s.registry.queues conn queue } }

def set_phase (s : RelayState B) (conn : ℕ) (c : Conn) (phase : Phase) : RelayState B :=
  { s with conns := Function.update s.conns conn (some { c with phase }) }

/-- The splice loop breaks: its receiver is dropped, and the task goes on to detach. -/
def leave (s : RelayState B) (conn : ℕ) (c : Conn) : RelayState B :=
  (s.set_queue conn { s.registry.queues conn with receiving := false }).set_phase conn c .leaving

def sink_held (s : RelayState B) (conn : ℕ) (c : Conn) : Bool :=
  (s.registry.side_at c.key c.role).any fun side => side.sink == conn

section Step

variable [LeakyBucket B]

/-- The attaching half of `handshake`. Only a client presents an epoch. -/
def handshake (s : RelayState B) (conn : ℕ) (key : ChannelKey) (role : Role) (client_epoch : Option ℕ)
    (resume_from_seq now : ℕ) : RelayState B :=
  let viewer_epoch := match role with
    | .client => client_epoch
    | .agent => none
  let opened := s.set_queue conn ⟨[], OUTBOUND_QUEUE, true⟩
  match opened.registry.attach key role viewer_epoch resume_from_seq conn now with
  | (.error .stale_epoch, registry) =>
    ({ s with registry } : RelayState B).set_queue conn ⟨[], 0, false⟩
  | (.ok attached, registry) =>
    { registry := registry
      conns := Function.update s.conns conn (some ⟨key, role, attached.gen,
        .opening (.ack attached.resume_from_seq :: attached.replay.map .replay)⟩) }

def handle_inbound (s : RelayState B) (conn : ℕ) (c : Conn) (now : ℕ) : Inbound → RelayState B
  | .message (.frame frame) =>
    { s with registry := (s.registry.forward c.key c.role frame now).2 }
  | .message (.desktop_input body) =>
    { s with registry := (s.registry.forward_message c.key c.role (.desktop_input body)).2 }
  | .message (.close channel_id reason message) =>
    ({ s with registry := (s.registry.forward_message c.key c.role
        (.close channel_id reason message)).2 } : RelayState B).set_phase conn c .closing
  | .ignored => s
  | .ended => s.leave conn c

def step (s : RelayState B) : ConnEvent → Option (RelayState B)
  | .attach conn key role client_epoch resume_from_seq now =>
    match s.conns conn with
    | some _ => none
    | none => some (s.handshake conn key role client_epoch resume_from_seq now)
  | .write conn ok =>
    match s.conns conn with
    | some c =>
      match c.phase with
      | .opening (_ :: writes) =>
        if ok then
          some (s.set_phase conn c (if writes.isEmpty then .splicing else .opening writes))
        else some (s.set_phase conn c .leaving)
      | _ => none
    | none => none
  | .outbound conn ok =>
    match s.conns conn with
    | some c =>
      match c.phase, (s.registry.queues conn).buffer with
      | .splicing, msg :: rest =>
        let s := s.set_queue conn { s.registry.queues conn with buffer := rest }
        if ok && !msg.closes then some s else some (s.leave conn c)
      | _, _ => none
    | none => none
  | .dropped conn =>
    match s.conns conn with
    | some c =>
      if c.phase = .splicing ∧ (s.registry.queues conn).buffer = [] ∧ s.sink_held conn c = false then
        some (s.leave conn c)
      else none
    | none => none
  | .inbound conn item now =>
    match s.conns conn with
    | some c => if c.phase = .splicing then some (s.handle_inbound conn c now item) else none
    | none => none
  | .remove conn =>
    match s.conns conn with
    | some c =>
      if c.phase = .closing then
        some (({ s with registry := s.registry.remove c.key } : RelayState B).leave conn c)
      else none
    | none => none
  | .detach conn =>
    match s.conns conn with
    | some c =>
      if c.phase = .leaving then
        let s : RelayState B := { s with registry := s.registry.detach c.key c.role c.conn_gen }
        some ((s.leave conn c).set_phase conn c .gone)
      else none
    | none => none
  | .reap now => some { s with registry := s.registry.reap_half_open now }

def Step (s : RelayState B) (e : ConnEvent) (s' : RelayState B) : Prop := s.step e = some s'

end Step

end RelayState

end OpenGeni.Relay
