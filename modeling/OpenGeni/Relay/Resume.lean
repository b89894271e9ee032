/-
What a reconnecting agent is replayed
(`opengeni-agent-stream/src/channel.rs` against `registry.rs`).

A dropped agent redials and presents `next_seq`, the number of frames it has itself
sent. The relay reads the same number as a cursor into the ring of the client's
frames and replays from there. The two directions number their frames apart, so
the number means two things: the replay is the missing frames exactly when the
agent's own cursor happens to separate what it has got from what it has not.
`InStep` says so of one attach, and the runs that deliver every client frame once
and in order are the runs all of whose attaches are in step.

Everything the relay does meanwhile to other channels, and to the client's side of
this one, runs along: the ring may vanish with its entry.
-/
import OpenGeni.Lib.Numbered
import OpenGeni.Relay.Connections
import OpenGeni.Relay.EpochFence

namespace OpenGeni.Relay

open OpenGeni.Lib

/-! ## The agent's end -/

/-- `RelayChannel`: its send cursor, which is also what a reconnect presents. -/
structure RelayChannel where
  next_seq : ℕ

namespace RelayChannel

/-- `RelayChannel::open_on`, from what was presented and what the ack says. -/
def open_on (resume_from_seq ack_resume_from_seq : ℕ) : RelayChannel := ⟨max ack_resume_from_seq resume_from_seq⟩

/-- What `RelayChannel::reconnect` adopts from the new registration. -/
def adopt (chan resumed : RelayChannel) : RelayChannel := ⟨max resumed.next_seq chan.next_seq⟩

/-- `RelayChannel::send_frame`, once the transport has taken the frame. -/
def send_frame (chan : RelayChannel) : RelayChannel := ⟨(chan.next_seq + 1) % 2 ^ 64⟩

end RelayChannel

/-- A relay, and one agent of it with the client frames it is owed. -/
structure Exchange (B : Type) where
  registry : ChannelRegistry B
  channel : RelayChannel
  /-- The frames the client has sent and the relay has admitted. -/
  sent : List StreamFrame
  /-- What the agent got: each attach's replay, and the frames put into its sink. -/
  received : List StreamFrame

inductive ExchangeEvent
  /-- `RelayChannel::reconnect`, or the first `register`, succeeds. -/
  | reconnect (sink now : ℕ)
  | send_frame
  | client_frame (frame : StreamFrame) (now : ℕ)
  | relay (op : RegistryOp)

namespace ChannelRegistry

variable {B : Type}

/-- The agent's side is attached and its connection reads its sink. -/
def Connected (r : ChannelRegistry B) (key : ChannelKey) : Prop :=
  ∃ who, r.attached_at key .agent = some who ∧ (r.queues who.1).receiving = true

def delivers (r : ChannelRegistry B) (key : ChannelKey) : Bool :=
  (r.attached_at key .agent).any fun who => (r.queues who.1).accepts

def open_sink (r : ChannelRegistry B) (sink : ℕ) : ChannelRegistry B :=
  { r with queues := Function.update r.queues sink ⟨[], OUTBOUND_QUEUE, true⟩ }

def ring (r : ChannelRegistry B) (key : ChannelKey) : List StreamFrame :=
  (((r.channels key).bind fun chan => chan.to_agent).map fun ring => ring.frames).getD []

end ChannelRegistry

/-- An operation of someone else: the agent does not attach and the client does not
send, and the agent's dropped receiver does not come back. -/
def RegistryOp.Foreign {B : Type} (r : ChannelRegistry B) (key : ChannelKey) : RegistryOp → Prop
  | .attach key' role _ _ _ _ => ¬ (key' = key ∧ role = .agent)
  | .forward key' from_role _ _ => ¬ (key' = key ∧ from_role = .client)
  | .queue sink q => ∀ who, r.attached_at key .agent = some who → who.1 = sink →
      q.receiving = true → (r.queues sink).receiving = true
  | _ => True

namespace Exchange

variable {B : Type} [LeakyBucket B]

omit [LeakyBucket B] in
/-- A relay without connections, and an agent that has sent nothing. -/
def new (config : RelayConfig) : Exchange B := ⟨.new config, ⟨0⟩, [], []⟩

def reconnect (key : ChannelKey) (s : Exchange B) (sink now : ℕ) : Exchange B :=
  let presented := s.channel.next_seq
  match (s.registry.open_sink sink).attach key .agent none presented sink now with
  | (.ok attached, registry) =>
    { registry := registry, channel := s.channel.adopt (.open_on presented attached.resume_from_seq), sent := s.sent
      received := s.received ++ attached.replay }
  | (.error _, registry) => { s with registry }

/-- What an event makes of the exchange over the channel of `key`. -/
def serve (key : ChannelKey) (s : Exchange B) : ExchangeEvent → Exchange B
  | .reconnect sink now => s.reconnect key sink now
  | .send_frame => { s with channel := s.channel.send_frame }
  | .client_frame frame now =>
    { s with
      registry := (s.registry.forward key .client frame now).2
      sent := s.sent ++ [frame]
      received := if s.registry.delivers key then s.received ++ [frame] else s.received }
  | .relay op => { s with registry := s.registry.apply op }

/-- When an event can happen. The client numbers its frames upwards; its rate limit
lets them through, and a sink that is read has room for them. -/
def Enabled (key : ChannelKey) (s : Exchange B) : ExchangeEvent → Prop
  | .client_frame frame now =>
    s.registry.admits key .client frame.data.length now = true ∧ (∀ f ∈ s.sent, f.seq < frame.seq) ∧
      (s.registry.Connected key → s.registry.delivers key = true)
  | .relay op => op.Foreign s.registry key
  | _ => True

def Step (key : ChannelKey) (s : Exchange B) (e : ExchangeEvent) (s' : Exchange B) : Prop :=
  s.Enabled key e ∧ s' = s.serve key e

omit [LeakyBucket B] in
/-- Nothing came twice or out of order, and a connected agent has got everything. -/
structure Exact (key : ChannelKey) (s : Exchange B) : Prop where
  once : s.received.Pairwise fun f g => f.seq < g.seq
  all : s.registry.Connected key → ∀ f ∈ s.sent, f ∈ s.received

omit [LeakyBucket B] in
/-- The agent's send cursor is above what it has got, as far as the relay still holds
it, and not above what it is missing, all of which the relay still holds. -/
structure InStep (key : ChannelKey) (s : Exchange B) : Prop where
  above : ∀ f ∈ s.registry.ring key, f ∈ s.received → f.seq < s.channel.next_seq
  below : ∀ f ∈ s.sent, f ∉ s.received → f ∈ s.registry.ring key ∧ s.channel.next_seq ≤ f.seq

end Exchange

/-! ## What happens to the ring and to the receiver -/

namespace ChannelRegistry

variable {B : Type} {r r' : ChannelRegistry B} {key : ChannelKey}

theorem set_channel_ring (chan : Option (LiveChannel B)) : (r.set_channel key chan).ring key
      = ((chan.bind fun c => c.to_agent).map fun ring => ring.frames).getD [] := by
  rw [ring, set_channel_self]

theorem set_channel_ring_other {key' : ChannelKey} (chan : Option (LiveChannel B))
    (h : key ≠ key') : (r.set_channel key' chan).ring key = r.ring key := by
  rw [ring, set_channel_other _ _ h, ring]

theorem set_channel_ring_same {key' : ChannelKey} {chan : LiveChannel B}
    (h : key = key' → chan.to_agent = (r.channels key).bind fun c => c.to_agent) :
    (r.set_channel key' (some chan)).ring key = r.ring key := by
  by_cases hkey : key = key'
  · have hsame := h hkey
    subst hkey
    rw [set_channel_ring, Option.bind_some, hsame, ring]
  · exact set_channel_ring_other _ hkey

theorem ring_of_core (h : r'.core key = r.core key) : r'.ring key = r.ring key := by
  have hread : ∀ r : ChannelRegistry B, r.ring key
      = (((r.core key).bind fun c => c.2.2.2.1).map fun ring => ring.frames).getD [] := by
    intro r
    unfold ring core
    cases r.channels key with
    | none | some => rfl
  rw [hread, hread, h]

theorem touched_to_agent (now : ℕ) : (r.touched key now).to_agent = (r.channels key).bind fun c => c.to_agent := by
  unfold touched
  cases r.channels key with
  | none | some => rfl

theorem fence_to_agent {chan chan' : LiveChannel B} {viewer_epoch : Option ℕ}
    (h : chan.fence viewer_epoch = some chan') : chan'.to_agent = chan.to_agent := by
  unfold LiveChannel.fence at h
  split at h
  · split_ifs at h
    cases h
    rfl
  · cases h
    rfl

theorem detach_ring (key' : ChannelKey) (role : Role) (gen : ℕ) :
    (r.detach key' role gen).ring key = r.ring key ∨ (r.detach key' role gen).ring key = [] := by
  unfold detach
  split
  · exact .inl rfl
  · next chan hchan =>
    split_ifs
    · dsimp only
      split_ifs
      · by_cases hkey : key = key'
        · subst hkey
          exact .inr (set_channel_ring none)
        · exact .inl (set_channel_ring_other _ hkey)
      · left
        apply set_channel_ring_same
        rintro rfl
        rw [hchan]
        cases role <;> rfl
    · exact .inl rfl

variable [LeakyBucket B]

theorem attach_ring (key' : ChannelKey) (role : Role) (viewer_epoch : Option ℕ) (resume_from_seq sink now : ℕ) :
    (r.attach key' role viewer_epoch resume_from_seq sink now).2.ring key = r.ring key := by
  cases hfence : (r.touched key' now).fence viewer_epoch with
  | none =>
    rw [attach_refused hfence]
    apply set_channel_ring_same
    rintro rfl
    exact touched_to_agent now
  | some chan =>
    rw [attach_accepted hfence]
    apply set_channel_ring_same
    rintro rfl
    rw [← touched_to_agent now, ← fence_to_agent hfence]
    cases role <;> rfl

theorem attach_queues (key' : ChannelKey) (role : Role) (viewer_epoch : Option ℕ) (resume_from_seq sink now : ℕ) :
    (r.attach key' role viewer_epoch resume_from_seq sink now).2.queues = r.queues := by
  unfold attach
  dsimp only
  split
  · rfl
  · rfl

theorem forward_agent_ring (key' : ChannelKey) (from_role : Role) (frame : StreamFrame) (now : ℕ)
    (h : ¬ (key' = key ∧ from_role = .client)) :
    (r.forward key' from_role frame now).2.ring key = r.ring key := by
  cases hadmits : r.admits key' from_role frame.data.length now with
  | false => exact ring_of_core ((forward_refused hadmits).2.2 key)
  | true =>
    obtain ⟨chan, side, hchan, hside, hbucket⟩ := admits_iff.1 hadmits
    have hset : (r.set_channel key' (some (r.recorded chan side from_role frame now))).ring key = r.ring key := by
      apply set_channel_ring_same
      rintro rfl
      rw [hchan]
      cases from_role with
      | agent => rfl
      | client => exact absurd ⟨rfl, rfl⟩ h
    rw [forward_admitted hchan hside hbucket]
    split
    · exact hset
    · exact hset

omit [LeakyBucket B] in
theorem send_to_receiving (sink sink' : ℕ) (msg : RelayMessage) :
    ((r.send_to sink msg).2.queues sink').receiving = (r.queues sink').receiving := by
  have htry : ((r.queues sink).try_send msg).2.receiving = (r.queues sink).receiving := by
    unfold PeerQueue.try_send
    split_ifs
    · rfl
    · rfl
  unfold send_to
  dsimp only
  by_cases hsink : sink' = sink
  · rw [hsink, Function.update_self, htry]
  · rw [Function.update_of_ne hsink]

theorem forward_receiving (key' : ChannelKey) (from_role : Role) (frame : StreamFrame)
    (now sink : ℕ) : ((r.forward key' from_role frame now).2.queues sink).receiving
      = (r.queues sink).receiving := by
  cases hadmits : r.admits key' from_role frame.data.length now with
  | false => rw [(forward_refused hadmits).2.1]
  | true =>
    obtain ⟨chan, side, hchan, hside, hbucket⟩ := admits_iff.1 hadmits
    rw [forward_admitted hchan hside hbucket]
    split
    · rfl
    · exact send_to_receiving _ _ _

theorem apply_ring {op : RegistryOp} (h : op.Foreign r key) :
    (r.apply op).ring key = r.ring key ∨ (r.apply op).ring key = [] := by
  cases op with
  | attach key' role viewer_epoch resume_from_seq sink now => exact .inl (attach_ring _ _ _ _ _ _)
  | forward key' from_role frame now => exact .inl (forward_agent_ring _ _ _ _ h)
  | forward_message key' from_role msg =>
    left
    show (r.forward_message key' from_role msg).2.ring key = r.ring key
    unfold forward_message
    split
    · rfl
    · rfl
  | detach key' role gen => exact detach_ring _ _ _
  | remove key' =>
    by_cases hkey : key = key'
    · subst hkey
      exact .inr (set_channel_ring none)
    · exact .inl (set_channel_ring_other none hkey)
  | reap_half_open now =>
    show (r.reap_half_open now).ring key = r.ring key ∨ (r.reap_half_open now).ring key = []
    unfold ring reap_half_open
    dsimp only
    cases hchan : r.channels key with
    | none => exact .inr rfl
    | some chan =>
      rw [Option.filter_some]
      split_ifs
      · exact .inl rfl
      · exact .inr rfl
  | queue sink q => exact .inl rfl

theorem apply_connected {op : RegistryOp} (h : op.Foreign r key)
    (hconnected : (r.apply op).Connected key) : r.Connected key := by
  obtain ⟨who, hwho, hreceiving⟩ := hconnected
  -- The agent's side is the one there was, so its receiver must have been there.
  cases op with
  | attach key' role viewer_epoch resume_from_seq sink now =>
    rw [show r.apply (.attach key' role viewer_epoch resume_from_seq sink now)
      = (r.attach key' role viewer_epoch resume_from_seq sink now).2 from rfl] at hwho hreceiving
    rw [attach_queues] at hreceiving
    refine ⟨who, ?_, hreceiving⟩
    cases hattach : r.attach key' role viewer_epoch resume_from_seq sink now with
    | mk outcome r' =>
      rw [hattach] at hwho
      cases outcome with
      | error error => exact (r.attach_refused_attached hattach).2 _ _ _ hwho
      | ok attached =>
        rcases (r.attach_attached hattach).2.2 _ _ _ hwho with ⟨hkey, hrole, -⟩ | ⟨-, hold⟩
        · exact absurd ⟨hkey.symm, hrole.symm⟩ h
        · exact hold
  | forward key' from_role frame now =>
    exact ⟨who, r.forward_attached _ _ _ _ _ _ _ hwho, (forward_receiving _ _ _ _ _).symm.trans hreceiving⟩
  | forward_message key' from_role msg =>
    refine ⟨who, r.forward_message_attached _ _ _ _ _ _ hwho, ?_⟩
    rw [show r.apply (.forward_message key' from_role msg)
      = (r.forward_message key' from_role msg).2 from rfl] at hreceiving
    unfold forward_message at hreceiving
    split at hreceiving
    · exact hreceiving
    · exact (send_to_receiving _ _ _).symm.trans hreceiving
  | detach key' role gen =>
    refine ⟨who, r.detach_attached _ _ _ _ _ _ hwho, ?_⟩
    rw [show r.apply (.detach key' role gen) = r.detach key' role gen from rfl] at hreceiving
    unfold detach at hreceiving
    split at hreceiving
    · exact hreceiving
    · split_ifs at hreceiving
      · exact hreceiving
      · exact hreceiving
  | remove key' => exact ⟨who, r.remove_attached _ _ _ _ hwho, hreceiving⟩
  | reap_half_open now => exact ⟨who, r.reap_half_open_attached _ _ _ _ hwho, hreceiving⟩
  | queue sink q =>
    refine ⟨who, hwho, ?_⟩
    by_cases hsink : who.1 = sink
    · have hq : (Function.update r.queues sink q who.1).receiving = true := hreceiving
      rw [hsink, Function.update_self] at hq
      rw [hsink]
      exact h who hwho hsink hq
    · have hq : (Function.update r.queues sink q who.1).receiving = true := hreceiving
      rwa [Function.update_of_ne hsink] at hq

omit [LeakyBucket B] in
theorem push_frames (ring : ReplayRing) (frame : StreamFrame) :
    (ring.push frame).frames.Sublist (ring.frames ++ [frame]) := by
  apply List.Sublist.append_right
  split_ifs
  · exact List.drop_sublist _ _
  · exact List.Sublist.refl _

theorem forward_client_ring {frame : StreamFrame} {now : ℕ}
    (h : r.admits key .client frame.data.length now = true) :
    ((r.forward key .client frame now).2.ring key).Sublist (r.ring key ++ [frame]) := by
  obtain ⟨chan, side, hchan, hside, hbucket⟩ := admits_iff.1 h
  have hset : ((r.set_channel key (some (r.recorded chan side .client frame now))).ring key).Sublist
      (r.ring key ++ [frame]) := by
    rw [set_channel_ring, Option.bind_some, ring, hchan, Option.bind_some]
    show ((chan.to_agent.getD (.new r.config.ring_frames)).push frame).frames.Sublist _
    cases chan.to_agent with
    | none | some => exact push_frames _ _
  rw [forward_admitted hchan hside hbucket]
  split
  · exact hset
  · exact hset

theorem forward_client_connected {frame : StreamFrame} {now : ℕ}
    (h : (r.forward key .client frame now).2.Connected key) : r.Connected key := by
  obtain ⟨who, hwho, hreceiving⟩ := h
  exact ⟨who, r.forward_attached _ _ _ _ _ _ _ hwho, (forward_receiving _ _ _ _ _).symm.trans hreceiving⟩

omit [LeakyBucket B] in
theorem connected_of_delivers (h : r.delivers key = true) : r.Connected key := by
  obtain ⟨who, hwho, haccepts⟩ := (Option.any_eq_true _ _).1 h
  exact ⟨who, hwho, (Bool.and_eq_true _ _ ▸ haccepts).1⟩

end ChannelRegistry

/-! ## One attach -/

namespace Exchange

variable {B : Type} [LeakyBucket B] {key : ChannelKey} {s s' : Exchange B} {e : ExchangeEvent}

/-- What the agent is replayed when it attaches with the send cursor. -/
def replay (key : ChannelKey) (s : Exchange B) : List StreamFrame :=
  (s.registry.ring key).filter fun f => decide (s.channel.next_seq ≤ f.seq)

structure Reattached (key : ChannelKey) (s s' : Exchange B) : Prop where
  connected : s'.registry.Connected key
  ring : s'.registry.ring key = s.registry.ring key
  next_seq : s'.channel.next_seq = s.channel.next_seq
  sent : s'.sent = s.sent
  received : s'.received = s.received ++ s.replay key

omit [LeakyBucket B] in
theorem replay_dir_frames (ring : Option ReplayRing) (resume_from_seq : ℕ) :
    replay_dir ring resume_from_seq = ((ring.map fun ring => ring.frames).getD []).filter
      fun f => decide (resume_from_seq ≤ f.seq) := by
  cases ring with
  | none | some => rfl

theorem reconnect_reattached (sink now : ℕ) : Reattached key s (s.reconnect key sink now) := by
  let r := s.registry.open_sink sink
  let side := r.new_side s.channel.next_seq sink now
  let chan := (r.touched key now).set_side .agent (some side)
  -- An agent presents no epoch, so the fence lets it through.
  have hfence : (r.touched key now).fence none = some (r.touched key now) := rfl
  have hreconnect : s.reconnect key sink now =
      { registry := { r.set_channel key (some chan) with gen_counter := r.gen_counter + 1 }
        channel := s.channel.adopt (.open_on s.channel.next_seq s.channel.next_seq)
        sent := s.sent
        received := s.received ++ replay_dir (chan.ring_to .agent) s.channel.next_seq } := by
    unfold reconnect
    dsimp only
    rw [ChannelRegistry.attach_accepted hfence]
  have hring : chan.to_agent = (s.registry.channels key).bind fun c => c.to_agent :=
    ChannelRegistry.touched_to_agent now
  rw [hreconnect]
  constructor
  · refine ⟨(sink, r.gen_counter), ?_, ?_⟩
    · show (r.set_channel key (some chan)).attached_at key .agent = _
      rw [ChannelRegistry.set_channel_attached]
      rfl
    · show (Function.update s.registry.queues sink _ sink).receiving = true
      rw [Function.update_self]
  · show (r.set_channel key (some chan)).ring key = s.registry.ring key
    rw [ChannelRegistry.set_channel_ring, Option.bind_some, hring, ChannelRegistry.ring]
  · simp [RelayChannel.adopt, RelayChannel.open_on]
  · rfl
  · show s.received ++ replay_dir chan.to_agent s.channel.next_seq = s.received ++ s.replay key
    rw [replay_dir_frames, hring, replay, ChannelRegistry.ring]

omit [LeakyBucket B] in
theorem Reattached.inStep (h : Reattached key s s') (hexact : s'.Exact key) : s.InStep key := by
  obtain ⟨honce, hall⟩ := hexact
  rw [h.received, List.pairwise_append] at honce
  constructor
  · intro f hring hreceived
    by_contra hcursor
    -- The frame would be replayed although the agent has it.
    have hreplayed : f ∈ s.replay key := List.mem_filter.2 ⟨hring, by simpa using hcursor⟩
    exact Nat.lt_irrefl _ (honce.2.2 f hreceived f hreplayed)
  · intro f hsent hmissing
    have hgot : f ∈ s'.received := hall h.connected f (by rwa [h.sent])
    rw [h.received] at hgot
    rcases List.mem_append.1 hgot with hold | hreplayed
    · exact absurd hold hmissing
    · obtain ⟨hring, hcursor⟩ := List.mem_filter.1 hreplayed
      exact ⟨hring, by simpa using hcursor⟩

/-! ## Whole runs -/

/-- What a run in step keeps: the agent has got a beginning of what was sent, all of
it while it is connected, and the relay holds some of what was sent. -/
structure Caught (key : ChannelKey) (s : Exchange B) : Prop where
  increasing : s.sent.Pairwise fun f g => f.seq < g.seq
  got : s.received <+: s.sent
  held : (s.registry.ring key).Sublist s.sent
  all : s.registry.Connected key → s.received = s.sent

omit [LeakyBucket B] in
theorem new_caught (config : RelayConfig) : (new config : Exchange B).Caught key where
  increasing := .nil
  got := List.prefix_rfl
  held := List.Sublist.refl _
  all := fun _ => rfl

omit [LeakyBucket B] in
theorem Caught.exact (h : s.Caught key) : s.Exact key where
  once := h.increasing.sublist h.got.sublist
  all := by
    intro hconnected f hf
    rwa [h.all hconnected]

omit [LeakyBucket B] in
theorem Caught.replay_missing (h : s.Caught key) (hstep : s.InStep key) : s.received ++ s.replay key = s.sent := by
  obtain ⟨missing, hsent⟩ := h.got
  rw [← hsent]
  congr 1
  have hdisjoint : ∀ f ∈ missing, f ∉ s.received := by
    intro f hf hf'
    have hinc := h.increasing
    rw [← hsent, List.pairwise_append] at hinc
    exact Nat.lt_irrefl _ (hinc.2.2 f hf' f hf)
  have hinc : (s.received ++ missing).Pairwise fun f g => f.seq < g.seq := by
    rw [hsent]
    exact h.increasing
  apply filter_window hinc
  · rw [hsent]
    exact h.held
  · exact hstep.above
  · intro f hf
    exact hstep.below f (hsent ▸ List.mem_append_right _ hf) (hdisjoint f hf)

theorem Caught.step (h : s.Caught key) (hstep : Step key s e s')
    (hok : ∀ sink now, e = .reconnect sink now → s.InStep key) : s'.Caught key := by
  obtain ⟨henabled, rfl⟩ := hstep
  cases e with
  | reconnect sink now =>
    have hre : Reattached key s (s.reconnect key sink now) := reconnect_reattached sink now
    have hall : (s.reconnect key sink now).received = s.sent := by
      rw [hre.received]
      exact h.replay_missing (hok sink now rfl)
    constructor
    · show (s.reconnect key sink now).sent.Pairwise _
      rw [hre.sent]
      exact h.increasing
    · show (s.reconnect key sink now).received <+: (s.reconnect key sink now).sent
      rw [hall, hre.sent]
    · show ((s.reconnect key sink now).registry.ring key).Sublist (s.reconnect key sink now).sent
      rw [hre.ring, hre.sent]
      exact h.held
    · intro _
      exact hall.trans hre.sent.symm
  | send_frame => exact ⟨h.increasing, h.got, h.held, h.all⟩
  | client_frame frame now =>
    obtain ⟨hadmits, hlast, hroom⟩ := henabled
    constructor
    · show (s.sent ++ [frame]).Pairwise _
      rw [List.pairwise_append]
      exact ⟨h.increasing, List.pairwise_singleton _ _, by simpa using hlast⟩
    · show (if s.registry.delivers key then s.received ++ [frame] else s.received) <+: s.sent ++ [frame]
      split_ifs with hdelivers
      · rw [h.all (ChannelRegistry.connected_of_delivers hdelivers)]
      · exact h.got.trans (List.prefix_append _ _)
    · exact (ChannelRegistry.forward_client_ring hadmits).trans (h.held.append_right _)
    · intro hconnected
      have hold := ChannelRegistry.forward_client_connected hconnected
      show (if s.registry.delivers key then s.received ++ [frame] else s.received) = s.sent ++ [frame]
      rw [if_pos (hroom hold), h.all hold]
  | relay op =>
    constructor
    · exact h.increasing
    · exact h.got
    · show ((s.registry.apply op).ring key).Sublist s.sent
      rcases ChannelRegistry.apply_ring henabled with hring | hring
      · rw [hring]
        exact h.held
      · rw [hring]
        exact List.nil_sublist _
    · intro hconnected
      exact h.all (ChannelRegistry.apply_connected henabled hconnected)

/-- **A reconnecting agent gets every client frame once and in order, in every state a
run reaches, if and only if every attach of the run is in step.** -/
theorem resume_exact_iff (key : ChannelKey) (config : RelayConfig) (es : List ExchangeEvent) (s : Exchange B) :
    Always (Step key) (fun _ _ t' => t'.Exact key) (new config) es s ↔
      Always (Step key) (fun t e _ => ∀ sink now, e = .reconnect sink now → t.InStep key) (new config) es s := by
  constructor
  · intro hexact es₁ e es₂ t t' hes hrun hstep hrest sink now he
    have hafter := hexact es₁ e es₂ t t' hes hrun hstep hrest
    subst he
    obtain ⟨-, rfl⟩ := hstep
    exact (reconnect_reattached sink now).inStep hafter
  · intro hin es₁ e es₂ t t' hes hrun hstep hrest
    subst hes
    have hok := hin es₁ e es₂ t t' rfl hrun hstep hrest
    have hcaught : t.Caught key := by
      refine (hin.restrict hrun (.cons hstep hrest)).invariant ?_ (new_caught config)
      rintro s e t ⟨hst, hok⟩ hs
      exact hs.step hst hok
    exact (hcaught.step hstep hok).exact

/-! ## An attach out of step -/

omit [LeakyBucket B] in
/-- Two client frames: the first reaches a connected agent that has sent nothing, and
is replayed when it reconnects; the second is buffered while the agent, which has sent
two frames by now, is away, and is below its cursor when it is back. -/
theorem send_cursor_misses : ∃ (es : List ExchangeEvent) (s : Exchange Unit) (key : ChannelKey)
      (f g : StreamFrame),
    Run (Step key) (new ⟨64, 100, 100, 5⟩) es s ∧ s.registry.Connected key ∧
      s.sent = [f, g] ∧ s.received = [f, f] ∧ g ≠ f ∧ ¬ s.Exact key := by
  let key : ChannelKey := ⟨"ws-1", "ag-1", 7681⟩
  let f : StreamFrame := ⟨"ch", 0, [1], 0⟩
  let g : StreamFrame := ⟨"ch", 1, [2], 0⟩
  let away : List ExchangeEvent := [.relay (.attach key .client (some 0) 0 1 0), .reconnect 0 0,
    .client_frame f 0, .reconnect 2 0, .send_frame, .send_frame, .relay (.detach key .agent 3)]
  let s₀ : Exchange Unit := new ⟨64, 100, 100, 5⟩
  let s₂ := (s₀.serve key (.relay (.attach key .client (some 0) 0 1 0))).serve key (.reconnect 0 0)
  let s₇ := away.foldl (serve key) s₀
  let s₈ := s₇.serve key (.client_frame g 0)
  have hf : s₂.Enabled key (.client_frame f 0) := ⟨by decide, by decide, fun _ => by decide⟩
  have hg : s₇.Enabled key (.client_frame g 0) := by
    refine ⟨by decide, by decide, ?_⟩
    -- The agent is not attached.
    rintro ⟨who, hwho, -⟩
    have hnone : s₇.registry.attached_at key .agent = none := rfl
    rw [hnone] at hwho
    simp at hwho
  have hattach : s₀.Enabled key (.relay (.attach key .client (some 0) 0 1 0)) :=
    fun h => Role.noConfusion h.2
  have hrun : Run (Step key) s₀ away s₇ :=
    .cons ⟨hattach, rfl⟩ (.cons ⟨trivial, rfl⟩ (.cons ⟨hf, rfl⟩ (.cons ⟨trivial, rfl⟩
      (.cons ⟨trivial, rfl⟩ (.cons ⟨trivial, rfl⟩ (.single ⟨trivial, rfl⟩))))))
  have hback : Run (Step key) s₇ [.client_frame g 0, .reconnect 3 0] (s₈.reconnect key 3 0) :=
    .cons ⟨hg, rfl⟩ (.single ⟨trivial, rfl⟩)
  have hreceived : (s₈.reconnect key 3 0).received = [f, f] := rfl
  refine ⟨_, s₈.reconnect key 3 0, key, f, g, hrun.append hback, ⟨(3, 4), rfl, rfl⟩, rfl,
    hreceived, by decide, ?_⟩
  intro hexact
  have honce := hexact.once
  rw [hreceived] at honce
  simp at honce

end Exchange

end OpenGeni.Relay
