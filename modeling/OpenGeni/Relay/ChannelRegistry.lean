/-
The relay's pairing and splice core
(`opengeni-relay/src/registry.rs`, with `ring.rs`).

The registry pairs an agent and a client that present the same channel key. Per
channel it keeps the two sides, a replay ring for each direction and the epoch
floor; per side the outbound queue, the rate limit and the connection generation.

The whole registry is behind one lock, so an operation is a function of the state,
one per critical section. `close` takes the lock twice: it is a `forward_message`
and then a `remove`, and anything may happen in between.

A queue belongs to the connection that drains it. It is named by the sink's number
and kept beside the registry, because `try_send` reads and writes it. The leaky
bucket computes with floating point; it is a parameter. Metrics are left out. A
ring lives only with its entry, so what an entry forgets, the relay forgets.
-/
import OpenGeni.Lib.Run

namespace OpenGeni.Relay

open OpenGeni.Lib

/-! ## Messages and queues -/

/-- `Role`: which end of a channel a connection is. -/
inductive Role
  | agent
  | client
deriving DecidableEq

def Role.peer : Role → Role
  | .agent => .client
  | .client => .agent

/-- `ChannelKey`: `{workspaceId, agentId, port}`. -/
structure ChannelKey where
  workspace_id : String
  agent_id : String
  port : ℕ
deriving DecidableEq

structure StreamFrame where
  channel_id : String
  seq : ℕ
  data : List UInt8
  produced_at_ms : ℤ
deriving DecidableEq

/-- `RelayMessage`, as far as it is spliced. The body of an input is not looked at. -/
inductive RelayMessage
  | frame (frame : StreamFrame)
  | close (channel_id : String) (reason : ℤ) (message : String)
  | desktop_input (body : List UInt8)

/-- One connection's outbound queue: a bounded channel with its receiver. -/
structure PeerQueue where
  buffer : List RelayMessage
  capacity : ℕ
  receiving : Bool

/-- Whether `try_send` succeeds: there is a receiver, and room. -/
def PeerQueue.accepts (q : PeerQueue) : Bool := q.receiving && decide (q.buffer.length < q.capacity)

def PeerQueue.try_send (q : PeerQueue) (msg : RelayMessage) : Bool × PeerQueue :=
  if q.accepts then (true, { q with buffer := q.buffer ++ [msg] }) else (false, q)

/-! ## The replay ring -/

/-- `ReplayRing`: the most recent frames of one direction. -/
structure ReplayRing where
  frames : List StreamFrame
  capacity : ℕ

namespace ReplayRing

def new (capacity : ℕ) : ReplayRing := ⟨[], max capacity 1⟩

def push (ring : ReplayRing) (frame : StreamFrame) : ReplayRing := { ring with
    frames := (if ring.capacity ≤ ring.frames.length then ring.frames.drop 1 else ring.frames) ++ [frame] }

def replay_from (ring : ReplayRing) (resume_from_seq : ℕ) : List StreamFrame :=
  ring.frames.filter fun f => decide (resume_from_seq ≤ f.seq)

end ReplayRing

/-! ## Channels -/

/-- `LeakyBucket`: a rate limit in bytes, on a clock in nanoseconds. `admits` is its
`admit`. -/
class LeakyBucket (B : Type) where
  new : (capacity_bytes refill_bytes_per_sec now : ℕ) → B
  admits : B → (bytes now : ℕ) → Bool × B

instance unlimited : LeakyBucket Unit where
  new := fun _ _ _ => ()
  admits := fun bucket _ _ => (true, bucket)

inductive AttachError
  | stale_epoch

/-- `Side`: one side's live state within a channel. -/
structure Side (B : Type) where
  sink : ℕ
  bucket : B
  next_seq : ℕ
  gen : ℕ

structure LiveChannel (B : Type) where
  agent : Option (Side B)
  client : Option (Side B)
  to_client : Option ReplayRing
  to_agent : Option ReplayRing
  epoch_floor : ℕ
  last_touch : ℕ

namespace LiveChannel

variable {B : Type}

/-- A channel entry as `attach` creates it. -/
def vacant (now : ℕ) : LiveChannel B := ⟨none, none, none, none, 0, now⟩

def side (chan : LiveChannel B) : Role → Option (Side B)
  | .agent => chan.agent
  | .client => chan.client

def set_side (chan : LiveChannel B) (role : Role) (side : Option (Side B)) : LiveChannel B := match role with
  | .agent => { chan with agent := side }
  | .client => { chan with client := side }

def ring_to (chan : LiveChannel B) : Role → Option ReplayRing
  | .agent => chan.to_agent
  | .client => chan.to_client

def set_ring_to (chan : LiveChannel B) (role : Role) (ring : ReplayRing) : LiveChannel B := match role with
  | .agent => { chan with to_agent := some ring }
  | .client => { chan with to_client := some ring }

def empty (chan : LiveChannel B) : Bool := chan.agent.isNone && chan.client.isNone

def half_open (chan : LiveChannel B) : Bool := chan.agent.isNone || chan.client.isNone

/-- The channel without its clock and its limits: who is attached by which queue and
generation, what is recorded, and the floor. -/
def core (chan : LiveChannel B) : Option (ℕ × ℕ) × Option (ℕ × ℕ) × Option ReplayRing × Option ReplayRing × ℕ :=
  (chan.agent.map fun s => (s.sink, s.gen), chan.client.map fun s => (s.sink, s.gen),
    chan.to_client, chan.to_agent, chan.epoch_floor)

/-- The epoch fence of `attach`: a client's epoch below the floor is refused, any
other raises the floor. An agent presents none. -/
def fence (chan : LiveChannel B) : Option ℕ → Option (LiveChannel B)
  | some epoch =>
    if epoch < chan.epoch_floor then none
    else some { chan with epoch_floor := max chan.epoch_floor epoch }
  | none => some chan

end LiveChannel

def replay_dir (ring : Option ReplayRing) (resume_from_seq : ℕ) : List StreamFrame :=
  (ring.map fun r => r.replay_from resume_from_seq).getD []

/-- `Attached`: the outcome of a successful attach. -/
structure Attached where
  resume_from_seq : ℕ
  replay : List StreamFrame
  gen : ℕ

/-- The fields of `RelayConfig` the registry reads. -/
structure RelayConfig where
  ring_frames : ℕ
  rate_burst_bytes : ℕ
  rate_bytes_per_sec : ℕ
  pair_timeout_secs : ℕ

/-- `ChannelRegistry`, with the queues its sinks name. -/
structure ChannelRegistry (B : Type) where
  channels : ChannelKey → Option (LiveChannel B)
  config : RelayConfig
  gen_counter : ℕ
  queues : ℕ → PeerQueue

namespace ChannelRegistry

variable {B : Type}

def new (config : RelayConfig) : ChannelRegistry B where
  channels := fun _ => none
  config := config
  gen_counter := 1
  queues := fun _ => ⟨[], 0, false⟩

def set_channel (r : ChannelRegistry B) (key : ChannelKey) (chan : Option (LiveChannel B)) : ChannelRegistry B :=
  { r with channels := Function.update r.channels key chan }

def send_to (r : ChannelRegistry B) (sink : ℕ) (msg : RelayMessage) : Bool × ChannelRegistry B :=
  let sent := (r.queues sink).try_send msg
  (sent.1, { r with queues := Function.update r.queues sink sent.2 })

def live (r : ChannelRegistry B) (key : ChannelKey) : Bool := (r.channels key).isSome

def side_at (r : ChannelRegistry B) (key : ChannelKey) (role : Role) : Option (Side B) :=
  (r.channels key).bind fun chan => chan.side role

def attached_at (r : ChannelRegistry B) (key : ChannelKey) (role : Role) : Option (ℕ × ℕ) :=
  (r.side_at key role).map fun side => (side.sink, side.gen)

def core (r : ChannelRegistry B) (key : ChannelKey) := (r.channels key).map LiveChannel.core

/-- The entry `attach` works on: the one there is, or a vacant one, just touched. -/
def touched (r : ChannelRegistry B) (key : ChannelKey) (now : ℕ) : LiveChannel B :=
  { (r.channels key).getD (.vacant now) with last_touch := now }

/-! ## The operations -/

section Operations

variable [LeakyBucket B]

/-- The side `attach` puts in place. -/
def new_side (r : ChannelRegistry B) (resume_from_seq sink now : ℕ) : Side B where
  sink := sink
  bucket := LeakyBucket.new r.config.rate_burst_bytes r.config.rate_bytes_per_sec now
  next_seq := resume_from_seq
  gen := r.gen_counter

/-- `ChannelRegistry::attach`. A refused attach has touched the channel, and leaves
no entry behind that it created itself. -/
def attach (r : ChannelRegistry B) (key : ChannelKey) (role : Role) (viewer_epoch : Option ℕ)
    (resume_from_seq sink now : ℕ) : Except AttachError Attached × ChannelRegistry B :=
  let fresh := (r.channels key).isNone
  let chan := r.touched key now
  match chan.fence viewer_epoch with
  | none =>
    (.error .stale_epoch, r.set_channel key (if fresh && chan.empty then none else some chan))
  | some chan =>
    let side := r.new_side resume_from_seq sink now
    let attached := chan.set_side role (some side)
    (.ok ⟨resume_from_seq, replay_dir (attached.ring_to role) resume_from_seq, r.gen_counter⟩,
      { r.set_channel key (some attached) with gen_counter := r.gen_counter + 1 })

def forward (r : ChannelRegistry B) (key : ChannelKey) (from_role : Role) (frame : StreamFrame)
    (now : ℕ) : Bool × ChannelRegistry B :=
  match r.channels key with
  | none => (false, r)
  | some chan =>
    let chan := { chan with last_touch := now }
    match chan.side from_role with
    | none => (false, r.set_channel key (some chan))
    | some side =>
      match LeakyBucket.admits side.bucket frame.data.length now with
      | (false, bucket) =>
        (false, r.set_channel key (some (chan.set_side from_role (some { side with bucket }))))
      | (true, bucket) =>
        let side := { side with bucket, next_seq := (frame.seq + 1) % 2 ^ 64 }
        let ring := (chan.ring_to from_role.peer).getD (.new r.config.ring_frames)
        let chan := (chan.set_side from_role (some side)).set_ring_to from_role.peer (ring.push frame)
        let r := r.set_channel key (some chan)
        match chan.side from_role.peer with
        | none => (true, r)
        | some peer => r.send_to peer.sink (.frame frame)

end Operations

def forward_message (r : ChannelRegistry B) (key : ChannelKey) (from_role : Role)
    (msg : RelayMessage) : Bool × ChannelRegistry B :=
  match r.side_at key from_role.peer with
  | none => (false, r)
  | some side => r.send_to side.sink msg

/-- `ChannelRegistry::detach`: the side is cleared only if it still holds the
generation, and the entry goes with its last side. -/
def detach (r : ChannelRegistry B) (key : ChannelKey) (role : Role) (gen : ℕ) : ChannelRegistry B :=
  match r.channels key with
  | none => r
  | some chan =>
    if (chan.side role).any fun s => s.gen == gen then
      let chan := chan.set_side role none
      r.set_channel key (if chan.empty then none else some chan)
    else r

/-- The second critical section of `ChannelRegistry::close`. -/
def remove (r : ChannelRegistry B) (key : ChannelKey) : ChannelRegistry B := r.set_channel key none

/-- Whether `reap_half_open` collects a channel: a side has been missing for longer
than the pair timeout. -/
def reapable (r : ChannelRegistry B) (now : ℕ) (chan : LiveChannel B) : Bool :=
  chan.half_open && decide (r.config.pair_timeout_secs * 10 ^ 9 < now - chan.last_touch)

def reap_half_open (r : ChannelRegistry B) (now : ℕ) : ChannelRegistry B :=
  { r with channels := fun key => (r.channels key).filter fun chan => !r.reapable now chan }

/-! ## What the operations do -/

section Specs

variable (r : ChannelRegistry B) (key : ChannelKey)

@[simp] theorem set_channel_self (chan : Option (LiveChannel B)) :
    (r.set_channel key chan).channels key = chan := by
  simp [set_channel]

theorem set_channel_other {key key' : ChannelKey} (chan : Option (LiveChannel B))
    (h : key' ≠ key) : (r.set_channel key chan).channels key' = r.channels key' := by
  simp [set_channel, h]

theorem touched_new (h : r.channels key = none) (now : ℕ) (viewer_epoch : Option ℕ) :
    ∃ chan, (r.touched key now).fence viewer_epoch = some chan := by
  have hfloor : (r.touched key now).epoch_floor = 0 := by
    rw [touched, h]
    rfl
  unfold LiveChannel.fence
  split
  · rw [hfloor, if_neg (Nat.not_lt_zero _)]
    exact ⟨_, rfl⟩
  · exact ⟨_, rfl⟩

variable [LeakyBucket B] {r key}

theorem attach_refused {now : ℕ} {viewer_epoch : Option ℕ}
    (h : (r.touched key now).fence viewer_epoch = none) (role : Role)
    (resume_from_seq sink : ℕ) :
    r.attach key role viewer_epoch resume_from_seq sink now
      = (.error .stale_epoch, r.set_channel key (some (r.touched key now))) := by
  have hlive : (r.channels key).isNone = false := by
    cases hkey : r.channels key with
    | none =>
      obtain ⟨chan, hchan⟩ := r.touched_new key hkey now viewer_epoch
      rw [hchan] at h
      simp at h
    | some chan => rfl
  unfold attach
  dsimp only
  rw [h, hlive, Bool.false_and, if_neg Bool.false_ne_true]

theorem attach_accepted {now : ℕ} {viewer_epoch : Option ℕ} {chan : LiveChannel B}
    (h : (r.touched key now).fence viewer_epoch = some chan) (role : Role)
    (resume_from_seq sink : ℕ) :
    r.attach key role viewer_epoch resume_from_seq sink now = (.ok ⟨resume_from_seq, replay_dir ((chan.set_side role
            (some (r.new_side resume_from_seq sink now))).ring_to role) resume_from_seq,
            r.gen_counter⟩,
          { r.set_channel key (some (chan.set_side role (some (r.new_side resume_from_seq sink now)))) with
            gen_counter := r.gen_counter + 1 }) := by
  unfold attach
  dsimp only
  rw [h]

/-- Whether `forward` admits a frame: there is a channel with a side of that role, and
the side's limit lets the bytes through. -/
def admits (r : ChannelRegistry B) (key : ChannelKey) (from_role : Role) (bytes now : ℕ) : Bool :=
  match r.side_at key from_role with
  | none => false
  | some side => (LeakyBucket.admits side.bucket bytes now).1

/-- The entry as `forward` leaves it when it has admitted a frame of `side`. -/
def recorded (r : ChannelRegistry B) (chan : LiveChannel B) (side : Side B) (from_role : Role)
    (frame : StreamFrame) (now : ℕ) : LiveChannel B :=
  (({ chan with last_touch := now } : LiveChannel B).set_side from_role (some { side with
      bucket := (LeakyBucket.admits side.bucket frame.data.length now).2
      next_seq := (frame.seq + 1) % 2 ^ 64 })).set_ring_to from_role.peer
    (((chan.ring_to from_role.peer).getD (.new r.config.ring_frames)).push frame)

theorem forward_refused {from_role : Role} {frame : StreamFrame} {now : ℕ}
    (h : r.admits key from_role frame.data.length now = false) :
    (r.forward key from_role frame now).1 = false ∧ (r.forward key from_role frame now).2.queues = r.queues ∧
      ∀ key', (r.forward key from_role frame now).2.core key' = r.core key' := by
  unfold forward
  split
  · exact ⟨rfl, rfl, fun _ => rfl⟩
  · next chan hchan =>
    -- Replacing the entry by one with the same core.
    have hsame : ∀ chan' : LiveChannel B, chan'.core = chan.core →
        ∀ key', (r.set_channel key (some chan')).core key' = r.core key' := by
      intro chan' hcore key'
      unfold ChannelRegistry.core
      by_cases hkey : key' = key
      · rw [hkey, set_channel_self, hchan, Option.map_some, Option.map_some, hcore]
      · rw [set_channel_other _ _ hkey]
    dsimp only
    split
    · exact ⟨rfl, rfl, hsame _ rfl⟩
    · next side hside =>
      have hside' : chan.side from_role = some side := by
        cases from_role <;> exact hside
      rw [admits, side_at, hchan, Option.bind_some, hside'] at h
      dsimp only at h
      split
      · refine ⟨rfl, rfl, hsame _ ?_⟩
        cases from_role
        · simp [LiveChannel.set_side, LiveChannel.core, show chan.agent = some side from hside']
        · simp [LiveChannel.set_side, LiveChannel.core, show chan.client = some side from hside']
      · next bucket hbucket =>
        rw [hbucket] at h
        simp at h

theorem admits_iff {from_role : Role} {bytes now : ℕ} :
    r.admits key from_role bytes now = true ↔ ∃ chan side, r.channels key = some chan ∧
      chan.side from_role = some side ∧ (LeakyBucket.admits side.bucket bytes now).1 = true := by
  unfold admits
  constructor
  · intro h
    split at h
    · simp at h
    · next side hbind =>
      obtain ⟨chan, hchan, hside⟩ := Option.bind_eq_some_iff.1 hbind
      exact ⟨chan, side, hchan, hside, h⟩
  · rintro ⟨chan, side, hchan, hside, hbucket⟩
    rw [side_at, hchan, Option.bind_some, hside]
    exact hbucket

theorem forward_admitted {from_role : Role} {frame : StreamFrame} {now : ℕ}
    {chan : LiveChannel B} {side : Side B} (hchan : r.channels key = some chan)
    (hside : chan.side from_role = some side)
    (hbucket : (LeakyBucket.admits side.bucket frame.data.length now).1 = true) :
    r.forward key from_role frame now = match chan.side from_role.peer with
      | none => (true, r.set_channel key (some (r.recorded chan side from_role frame now)))
      | some peer => (r.set_channel key (some (r.recorded chan side from_role frame now))).send_to
          peer.sink (.frame frame) := by
  have hpair : LeakyBucket.admits side.bucket frame.data.length now
      = (true, (LeakyBucket.admits side.bucket frame.data.length now).2) := by
    rw [← hbucket]
  unfold forward
  rw [hchan]
  cases from_role
  · rw [LiveChannel.side] at hside
    simp only [LiveChannel.side, hside]
    rw [hpair]
    rfl
  · rw [LiveChannel.side] at hside
    simp only [LiveChannel.side, hside]
    rw [hpair]
    rfl

end Specs

/-! ## Who is attached -/

section Attached

variable {r : ChannelRegistry B} {key : ChannelKey}

theorem attached_of_core {r' : ChannelRegistry B} (h : r'.core key = r.core key) (role : Role) :
    r'.attached_at key role = r.attached_at key role := by
  have hread : ∀ r : ChannelRegistry B, r.attached_at key role = (r.core key).bind fun c =>
      match role with
      | .agent => c.1
      | .client => c.2.1 := by
    intro r
    unfold attached_at side_at ChannelRegistry.core
    cases r.channels key with
    | none => rfl
    | some chan => cases role <;> rfl
  rw [hread, hread, h]

/-- `r'` has attached no one that `r` has not. -/
def AttachedFrom (r r' : ChannelRegistry B) : Prop :=
  ∀ key role who, r'.attached_at key role = some who → r.attached_at key role = some who

theorem set_channel_attached (r : ChannelRegistry B) (key : ChannelKey)
    (chan : Option (LiveChannel B)) (role : Role) :
    (r.set_channel key chan).attached_at key role
      = (chan.bind fun c => c.side role).map fun side => (side.sink, side.gen) := by
  rw [attached_at, side_at, set_channel_self]

theorem set_channel_attached_other (r : ChannelRegistry B) {key key' : ChannelKey}
    (chan : Option (LiveChannel B)) (h : key' ≠ key) (role : Role) :
    (r.set_channel key chan).attached_at key' role = r.attached_at key' role := by
  rw [attached_at, side_at, set_channel_other _ _ h, attached_at, side_at]

theorem AttachedFrom.set_channel {chan : Option (LiveChannel B)} (h : ∀ role who,
      ((chan.bind fun c => c.side role).map fun side => (side.sink, side.gen)) = some who →
        r.attached_at key role = some who) : r.AttachedFrom (r.set_channel key chan) := by
  intro key' role who hwho
  by_cases hkey : key' = key
  · subst hkey
    rw [set_channel_attached] at hwho
    exact h role who hwho
  · rwa [set_channel_attached_other _ _ hkey] at hwho

theorem forward_attached [LeakyBucket B] (r : ChannelRegistry B) (key : ChannelKey) (from_role : Role)
    (frame : StreamFrame) (now : ℕ) : r.AttachedFrom (r.forward key from_role frame now).2 := by
  cases hadmits : r.admits key from_role frame.data.length now with
  | false =>
    intro key' role who hwho
    rwa [attached_of_core ((forward_refused hadmits).2.2 key')] at hwho
  | true =>
    obtain ⟨chan, side, hchan, hside, hbucket⟩ := admits_iff.1 hadmits
    have hset : r.AttachedFrom (r.set_channel key (some (r.recorded chan side from_role frame now))) := by
      apply AttachedFrom.set_channel
      intro role who hwho
      rw [attached_at, side_at, hchan, Option.bind_some, ← hwho, Option.bind_some]
      -- The side of the sender keeps its queue and its generation.
      cases from_role <;> cases role <;>
        simp_all [recorded, LiveChannel.side, LiveChannel.set_side, LiveChannel.set_ring_to, Role.peer]
    rw [forward_admitted hchan hside hbucket]
    split
    · exact hset
    · exact hset

theorem forward_gen_counter [LeakyBucket B] (r : ChannelRegistry B) (key : ChannelKey)
    (from_role : Role) (frame : StreamFrame) (now : ℕ) :
    (r.forward key from_role frame now).2.gen_counter = r.gen_counter := by
  unfold forward
  split
  · rfl
  · dsimp only
    split
    · rfl
    · split
      · rfl
      · split
        · rfl
        · rfl

theorem forward_message_gen_counter (r : ChannelRegistry B) (key : ChannelKey)
    (from_role : Role) (msg : RelayMessage) :
    (r.forward_message key from_role msg).2.gen_counter = r.gen_counter := by
  unfold forward_message
  split
  · rfl
  · rfl

theorem detach_gen_counter (r : ChannelRegistry B) (key : ChannelKey) (role : Role) (gen : ℕ) :
    (r.detach key role gen).gen_counter = r.gen_counter := by
  unfold detach
  split
  · rfl
  · split_ifs
    · rfl
    · rfl

theorem forward_message_attached (r : ChannelRegistry B) (key : ChannelKey) (from_role : Role)
    (msg : RelayMessage) : r.AttachedFrom (r.forward_message key from_role msg).2 := by
  unfold forward_message
  split
  · exact fun _ _ _ h => h
  · exact fun _ _ _ h => h

theorem detach_attached (r : ChannelRegistry B) (key : ChannelKey) (role : Role) (gen : ℕ) :
    r.AttachedFrom (r.detach key role gen) := by
  unfold detach
  split
  · exact fun _ _ _ h => h
  · next chan hchan =>
    split_ifs
    · apply AttachedFrom.set_channel
      intro role' who hwho
      split_ifs at hwho
      · simp at hwho
      · rw [attached_at, side_at, hchan, Option.bind_some, ← hwho, Option.bind_some]
        cases role <;> cases role' <;> simp_all [LiveChannel.side, LiveChannel.set_side]
    · exact fun _ _ _ h => h

theorem remove_attached (r : ChannelRegistry B) (key : ChannelKey) : r.AttachedFrom (r.remove key) := by
  apply AttachedFrom.set_channel
  simp

theorem reap_half_open_attached (r : ChannelRegistry B) (now : ℕ) : r.AttachedFrom (r.reap_half_open now) := by
  intro key role who hwho
  unfold attached_at side_at reap_half_open at hwho
  dsimp only at hwho
  cases hkey : r.channels key with
  | none =>
    rw [hkey] at hwho
    simp at hwho
  | some chan =>
    rw [hkey, Option.filter_some] at hwho
    split_ifs at hwho
    · rw [attached_at, side_at, hkey]
      exact hwho
    · simp at hwho

theorem attach_refused_attached [LeakyBucket B] (r : ChannelRegistry B) {key : ChannelKey}
    {role : Role} {viewer_epoch : Option ℕ} {resume_from_seq sink now : ℕ} {error : AttachError}
    {r' : ChannelRegistry B}
    (h : r.attach key role viewer_epoch resume_from_seq sink now = (.error error, r')) :
    r'.gen_counter = r.gen_counter ∧ r.AttachedFrom r' := by
  cases hfence : (r.touched key now).fence viewer_epoch with
  | none =>
    rw [attach_refused hfence] at h
    obtain ⟨-, rfl⟩ := Prod.mk.inj h
    refine ⟨rfl, ?_⟩
    apply AttachedFrom.set_channel
    intro role' who hwho
    cases hchan : r.channels key with
    | none =>
      rw [touched, hchan] at hwho
      cases role' <;> simp [LiveChannel.vacant, LiveChannel.side] at hwho
    | some chan =>
      rw [touched, hchan] at hwho
      rw [attached_at, side_at, hchan]
      cases role' <;> exact hwho
  | some chan =>
    rw [attach_accepted hfence] at h
    simp at h

theorem attach_attached [LeakyBucket B] (r : ChannelRegistry B) {key : ChannelKey} {role : Role}
    {viewer_epoch : Option ℕ} {resume_from_seq sink now : ℕ} {attached : Attached}
    {r' : ChannelRegistry B}
    (h : r.attach key role viewer_epoch resume_from_seq sink now = (.ok attached, r')) :
    attached.gen = r.gen_counter ∧ r'.gen_counter = r.gen_counter + 1 ∧
      ∀ key' role' who, r'.attached_at key' role' = some who →
        (key' = key ∧ role' = role ∧ who = (sink, r.gen_counter)) ∨
          ¬ (key' = key ∧ role' = role) ∧ r.attached_at key' role' = some who := by
  cases hfence : (r.touched key now).fence viewer_epoch with
  | none =>
    rw [attach_refused hfence] at h
    simp at h
  | some chan =>
    rw [attach_accepted hfence] at h
    obtain ⟨hattached, rfl⟩ := Prod.mk.inj h
    cases hattached
    refine ⟨rfl, rfl, ?_⟩
    intro key' role' who hwho
    -- The fence and the touch leave both sides where they are.
    have hsides : chan.agent = (r.touched key now).agent ∧ chan.client = (r.touched key now).client := by
      unfold LiveChannel.fence at hfence
      split at hfence
      · split_ifs at hfence
        cases hfence
        exact ⟨rfl, rfl⟩
      · cases hfence
        exact ⟨rfl, rfl⟩
    have hset := r.set_channel_attached key
      (some (chan.set_side role (some (r.new_side resume_from_seq sink now)))) role'
    by_cases hkey : key' = key
    · subst hkey
      by_cases hrole : role' = role
      · subst hrole
        left
        refine ⟨rfl, rfl, ?_⟩
        have hself : (chan.set_side role' (some (r.new_side resume_from_seq sink now))).side role'
            = some (r.new_side resume_from_seq sink now) := by
          cases role' <;> rfl
        rw [Option.bind_some, hself] at hset
        exact (Option.some.inj (hwho.symm.trans hset))
      · right
        refine ⟨fun hboth => hrole hboth.2, ?_⟩
        have hother : (chan.set_side role (some (r.new_side resume_from_seq sink now))).side role'
            = (r.touched key' now).side role' := by
          cases role <;> cases role' <;>
            simp_all [LiveChannel.set_side, LiveChannel.side]
        rw [Option.bind_some, hother] at hset
        have hwho' : ((r.touched key' now).side role').map (fun side => (side.sink, side.gen))
            = some who := hset.symm.trans hwho
        unfold touched at hwho'
        unfold attached_at side_at
        cases hchan : r.channels key' with
        | none =>
          rw [hchan] at hwho'
          cases role' <;> simp [LiveChannel.vacant, LiveChannel.side] at hwho'
        | some chan₀ =>
          rw [hchan] at hwho'
          cases role' <;> exact hwho'
    · right
      exact ⟨fun hboth => hkey hboth.1, (r.set_channel_attached_other _ hkey role').symm.trans hwho⟩

theorem detach_stale {role : Role} {gen : ℕ}
    (h : ∀ who, r.attached_at key role = some who → who.2 ≠ gen) : r.detach key role gen = r := by
  unfold detach
  split
  · rfl
  · next chan hchan =>
    rw [if_neg]
    intro hany
    obtain ⟨side, hside, hgen⟩ := (Option.any_eq_true _ _).1 hany
    refine h (side.sink, side.gen) ?_ (by simpa using hgen)
    rw [attached_at, side_at, hchan, Option.bind_some, hside]
    rfl

end Attached

end ChannelRegistry

end OpenGeni.Relay
