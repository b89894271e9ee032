/-
Admission with its callers (`Engine::admit`, `Engine::release_slot`,
`AdmissionTicket`).

An `admit` asks the admission state under its lock, and when it is queued it puts the
sender of a oneshot channel into the waiters map, under that map's own lock, and waits on
the receiver. A ticket that is dropped releases its slot and delivers a ticket to every
op the release promoted, looking each one up in the waiters map. The garbage collector's
tick rejects what waited too long. Every caller, every dropped ticket and every tick is a
task here, and a step is one critical section of one task: any interleaving is a run.

A ticket is represented by its class, a oneshot channel by the caller that waits on it.
-/
import OpenGeni.Engine.Admission
import OpenGeni.Lib.Run

namespace OpenGeni.Agent

open OpenGeni.Lib OpenGeni.Engine

/-- What `admit` returns: a ticket of a class, or the tripped breaker. -/
abbrev AdmitResult := Except RefusalReason JobClass

/-- A oneshot channel as its receiver finds it: empty with a live sender, holding the
value sent, or left by a sender that was dropped. -/
inductive Chan
  | empty
  | sent (result : AdmitResult)
  | hung_up
deriving DecidableEq

/-- Where one `admit` call is, and after it the ticket it returned. -/
inductive CallerPc
  /-- Told `Queued`; its sender is not in the waiters map yet. -/
  | queued
  | waiting (chan : Chan)
  | holding (cls : JobClass)
  | refused (reason : RefusalReason)
  | rejected (reason : RefusalReason)
  /-- Received nothing because its sender was dropped. -/
  | abandoned
  | released
  | cancelled
deriving DecidableEq

/-- What the `admit` call returned, if it has. A dropped sender is reported as a queue
refusal. -/
def CallerPc.result : CallerPc → Option AdmitResult
  | .holding cls => some (.ok cls)
  | .refused reason => some (.error reason)
  | .rejected reason => some (.error reason)
  | .abandoned => some (.error .queue_full)
  | .queued => none
  | .waiting _ => none
  | .released => none
  | .cancelled => none

/-- Where the request leaves the call. An `Admitted` is a ticket at once. -/
def CallerPc.after_request (cls : JobClass) : AdmissionOutcome → CallerPc
  | .admitted => .holding cls
  | .queued => .queued
  | .refused reason => .refused reason

/-- The arguments of an `admit` call, and where it is. -/
structure Caller where
  op : OpId
  cls : JobClass
  pc : CallerPc

/-- What a `release_slot` does next: give a slot back (of a ticket that is being dropped,
or one that could not be delivered), take the next promoted op, or send a ticket to the
caller whose sender it took from the waiters map. -/
inductive Hand
  | release
  | pop
  | send (caller : ℕ)
deriving DecidableEq

/-- One `release_slot` call. -/
structure Releaser where
  cls : JobClass
  to_wake : List OpId
  hand : Hand

structure AdmitState where
  admission : AdmissionState
  /-- The waiters map: op to the caller whose sender it holds. -/
  waiters : AList fun _ : OpId => ℕ
  callers : List Caller
  releasers : List Releaser
  /-- The ops a `gc_tick` still has to reject. -/
  expirers : List (List OpId)

namespace AdmitState

def init (config : AdmissionConfig) : AdmitState := ⟨.new config, ∅, [], [], []⟩

/-- A caller's channel gets `chan`, if it is still waiting on an empty one. -/
def deliver (s : AdmitState) (caller : ℕ) (chan : Chan) : AdmitState := match s.callers[caller]? with
  | none => s
  | some c =>
    if c.pc = .waiting .empty then
      { s with callers := s.callers.set caller { c with pc := .waiting chan } }
    else
      s

def deliver_to (s : AdmitState) (caller : Option ℕ) (chan : Chan) : AdmitState := match caller with
  | none => s
  | some i => s.deliver i chan

/-- The critical section of `admit`'s request. -/
def request (s : AdmitState) (op : OpId) (cls : JobClass) (origin : String) (now_ms : ℕ) : AdmitState :=
  let out := s.admission.request op cls origin now_ms
  { s with
    admission := out.2
    callers := s.callers ++ [⟨op, cls, .after_request cls out.1⟩] }

/-- `waiters.insert`. The sender that was there for the op is dropped. -/
def register (s : AdmitState) (caller : ℕ) (c : Caller) : AdmitState := { s with
    waiters := s.waiters.insert c.op caller
    callers := s.callers.set caller { c with pc := .waiting .empty } }.deliver_to (s.waiters.lookup c.op) .hung_up

def drop_ticket (s : AdmitState) (cls : JobClass) : AdmitState :=
  { s with releasers := s.releasers ++ [⟨cls, [], .release⟩] }

/-- The critical section of a release: the promoted ops join the worklist. -/
def release (s : AdmitState) (k : ℕ) (r : Releaser) : AdmitState :=
  let out := s.admission.release r.cls
  { s with
    admission := out.2
    releasers := s.releasers.set k { r with to_wake := r.to_wake ++ out.1, hand := .pop } }

/-- What to do for a promoted op: send, or without a sender give the slot back. -/
def wake_hand (s : AdmitState) (op : OpId) : Hand := match s.waiters.lookup op with
  | some caller => .send caller
  | none => .release

/-- `waiters.remove` for the op a release promoted. -/
def wake (s : AdmitState) (k : ℕ) (r : Releaser) (rest : List OpId) (op : OpId) : AdmitState := { s with
    waiters := s.waiters.erase op
    releasers := s.releasers.set k { r with to_wake := rest, hand := s.wake_hand op } }

/-- `sender.send(Ok(ticket))`. A ticket whose receiver is gone bounces, and its slot goes
back. -/
def send (s : AdmitState) (k : ℕ) (r : Releaser) (caller : ℕ) (c : Caller) : AdmitState :=
  if c.pc = .waiting .empty then
    { s with
      callers := s.callers.set caller { c with pc := .waiting (.sent (.ok r.cls)) }
      releasers := s.releasers.set k { r with hand := .pop } }
  else
    { s with releasers := s.releasers.set k { r with hand := .release } }

/-- The critical section of a tick's `expire`. -/
def expire (s : AdmitState) (now_ms : ℕ) (order : JobClass → List String) : AdmitState :=
  let out := s.admission.expire now_ms order
  { s with admission := out.2, expirers := s.expirers ++ [out.1] }

/-- One rejection of a tick: `waiters.remove` and the send, which nobody checks. -/
def reject (s : AdmitState) (k : ℕ) (op : OpId) (rest : List OpId) : AdmitState := { s with
    waiters := s.waiters.erase op
    expirers := s.expirers.set k rest }.deliver_to (s.waiters.lookup op) (.sent (.error .wait_deadline))

end AdmitState

inductive AdmitEvent
  | request (op : OpId) (cls : JobClass) (origin : String) (now_ms : ℕ)
  | register (caller : ℕ)
  /-- The caller finds something on its channel and returns. -/
  | poll (caller : ℕ)
  /-- The caller's future is dropped while it waits. -/
  | cancel (caller : ℕ)
  | drop_ticket (caller : ℕ)
  | release (releaser : ℕ)
  | wake (releaser : ℕ)
  | send (releaser : ℕ)
  | expire (now_ms : ℕ) (order : JobClass → List String)
  | reject (expirer : ℕ)

def Chan.poll : Chan → Option CallerPc
  | .empty => none
  | .sent (.ok cls) => some (.holding cls)
  | .sent (.error reason) => some (.rejected reason)
  | .hung_up => some .abandoned

def Chan.ticket : Chan → Option JobClass
  | .sent (.ok cls) => some cls
  | .sent (.error _) => none
  | .empty => none
  | .hung_up => none

inductive AdmitStep : AdmitState → AdmitEvent → AdmitState → Prop
  | request (s : AdmitState) (op : OpId) (cls : JobClass) (origin : String) (now_ms : ℕ) :
      AdmitStep s (.request op cls origin now_ms) (s.request op cls origin now_ms)
  | register {s : AdmitState} {i : ℕ} {c : Caller} (hc : s.callers[i]? = some c)
      (hpc : c.pc = .queued) : AdmitStep s (.register i) (s.register i c)
  | poll {s : AdmitState} {i : ℕ} {c : Caller} {chan : Chan} {pc : CallerPc}
      (hc : s.callers[i]? = some c) (hpc : c.pc = .waiting chan) (hpoll : chan.poll = some pc) :
      AdmitStep s (.poll i) { s with callers := s.callers.set i { c with pc := pc } }
  | cancel {s : AdmitState} {i : ℕ} {c : Caller} {chan : Chan} (hc : s.callers[i]? = some c)
      (hpc : c.pc = .waiting chan) (hticket : chan.ticket = none) :
      AdmitStep s (.cancel i) { s with callers := s.callers.set i { c with pc := .cancelled } }
  | cancel_delivered {s : AdmitState} {i : ℕ} {c : Caller} {chan : Chan} {cls : JobClass}
      (hc : s.callers[i]? = some c) (hpc : c.pc = .waiting chan)
      (hticket : chan.ticket = some cls) :
      AdmitStep s (.cancel i) ({ s with callers := s.callers.set i { c with pc := .cancelled } }.drop_ticket cls)
  | drop_ticket {s : AdmitState} {i : ℕ} {c : Caller} {cls : JobClass}
      (hc : s.callers[i]? = some c) (hpc : c.pc = .holding cls) :
      AdmitStep s (.drop_ticket i) ({ s with callers := s.callers.set i { c with pc := .released } }.drop_ticket cls)
  | release {s : AdmitState} {k : ℕ} {r : Releaser} (hr : s.releasers[k]? = some r)
      (hhand : r.hand = .release) : AdmitStep s (.release k) (s.release k r)
  | wake {s : AdmitState} {k : ℕ} {r : Releaser} (rest : List OpId) (op : OpId)
      (hr : s.releasers[k]? = some r) (hhand : r.hand = .pop)
      (hwake : r.to_wake = rest ++ [op]) : AdmitStep s (.wake k) (s.wake k r rest op)
  | send {s : AdmitState} {k i : ℕ} {r : Releaser} {c : Caller}
      (hr : s.releasers[k]? = some r) (hhand : r.hand = .send i)
      (hc : s.callers[i]? = some c) : AdmitStep s (.send k) (s.send k r i c)
  | expire {s : AdmitState} {now_ms : ℕ} {order : JobClass → List String}
      (horder : ∀ cls, (order cls).Perm (s.admission.classes cls).queues.keys) :
      AdmitStep s (.expire now_ms order) (s.expire now_ms order)
  | reject {s : AdmitState} {k : ℕ} {op : OpId} {rest : List OpId}
      (hk : s.expirers[k]? = some (op :: rest)) : AdmitStep s (.reject k) (s.reject k op rest)

end OpenGeni.Agent
