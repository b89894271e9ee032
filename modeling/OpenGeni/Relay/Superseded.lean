/-
What a superseded connection can still do.

A connection is superseded once a newer one has attached for its key and role.
`detach` compares generations, so the older one's teardown leaves the newer side
in place, always. `forward`, `forward_message` and the removal in `close` do not
compare: between the newer attach and the moment the older task notices, a frame
is admitted on the newer side's limit, an input goes to the peer, and a Close
takes the channel down with the newer side in it.

`Spares` says when none of this happens: what is received finds no one to harm.
The generations carry the proof. Every attach mints one above all the others, so
the side attached for a key and role is never older than a connection that
presented them (`Minted`).
-/
import OpenGeni.Relay.Connections

namespace OpenGeni.Relay

open OpenGeni.Lib

def ConnEvent.by : ConnEvent → Option ℕ
  | .attach conn .. | .write conn _ | .outbound conn _ | .dropped conn | .inbound conn .. |
    .remove conn | .detach conn => some conn
  | .reap _ => none

namespace RelayState

variable {B : Type}

def Superseded (s : RelayState B) (conn : ℕ) : Prop :=
  ∃ c, s.conns conn = some c ∧ ∃ newer c', s.conns newer = some c' ∧ c'.key = c.key ∧
    c'.role = c.role ∧ c.conn_gen < c'.conn_gen

/-- The step of `conn` has delivered nothing to another connection, recorded nothing,
torn no channel down and detached no one. -/
structure Inert (s s' : RelayState B) (conn : ℕ) : Prop where
  queues : ∀ other, other ≠ conn → s'.registry.queues other = s.registry.queues other
  channels : ∀ key, s'.registry.core key = s.registry.core key

section Step

variable [LeakyBucket B] {s s' : RelayState B} {e : ConnEvent} {es : List ConnEvent} {conn : ℕ} {c : Conn}

/-- What connection `c` receives or is about to remove finds no one to harm: a frame
no channel, no side of its role or a side whose limit refuses it; an input or a Close
no peer, or one whose queue is full or gone; the removal no channel. -/
def Harmless (s : RelayState B) (c : Conn) : ConnEvent → Prop
  | .inbound _ (.message (.frame frame)) now =>
    s.registry.admits c.key c.role frame.data.length now = false
  | .inbound _ (.message _) _ => ∀ peer, s.registry.side_at c.key c.role.peer = some peer →
      (s.registry.queues peer.sink).accepts = false
  | .remove _ => s.registry.live c.key = false
  | _ => True

def Spares (s : RelayState B) (e : ConnEvent) : Prop :=
  ∀ conn c, e.by = some conn → s.conns conn = some c → s.Superseded conn → s.Harmless c e

/-! ## Generations -/

omit [LeakyBucket B] in
/-- Every connection got its generation from the counter, and who is attached is not
older than any connection for the same key and role. -/
structure Minted (s : RelayState B) : Prop where
  minted : ∀ conn c, s.conns conn = some c → c.conn_gen < s.registry.gen_counter
  newest : ∀ key role who, s.registry.attached_at key role = some who →
    ∀ conn c, s.conns conn = some c → c.key = key → c.role = role → c.conn_gen ≤ who.2

omit [LeakyBucket B] in
theorem Minted.keep (h : s.Minted) {registry : ChannelRegistry B} {conns : ℕ → Option Conn}
    (hgen : registry.gen_counter = s.registry.gen_counter)
    (hfrom : s.registry.AttachedFrom registry)
    (hconns : ∀ conn c, conns conn = some c → ∃ c₀, s.conns conn = some c₀ ∧ c₀.key = c.key ∧
      c₀.role = c.role ∧ c₀.conn_gen = c.conn_gen) :
    (⟨registry, conns⟩ : RelayState B).Minted where
  minted := by
    intro conn c hc
    obtain ⟨c₀, hc₀, -, -, heq⟩ := hconns conn c hc
    rw [← heq]
    show c₀.conn_gen < registry.gen_counter
    rw [hgen]
    exact h.minted conn c₀ hc₀
  newest := by
    intro key role who hwho conn c hc hkey hrole
    obtain ⟨c₀, hc₀, hkey₀, hrole₀, heq⟩ := hconns conn c hc
    rw [← heq]
    exact h.newest key role who (hfrom key role who hwho) conn c₀ hc₀ (hkey₀.trans hkey) (hrole₀.trans hrole)

theorem update_cases {conns : ℕ → Option Conn} {new c' : Conn} {conn' : ℕ}
    (h : Function.update conns conn (some new) conn' = some c') :
    (conn' = conn ∧ new = c') ∨ conns conn' = some c' := by
  by_cases heq : conn' = conn
  · subst heq
    rw [Function.update_self] at h
    exact Or.inl ⟨rfl, Option.some.inj h⟩
  · rw [Function.update_of_ne heq] at h
    exact Or.inr h

omit [LeakyBucket B] in
theorem phase_conns (hc : s.conns conn = some c) (phase : Phase) :
    ∀ conn' c', Function.update s.conns conn (some { c with phase }) conn' = some c' →
      ∃ c₀, s.conns conn' = some c₀ ∧ c₀.key = c'.key ∧ c₀.role = c'.role ∧ c₀.conn_gen = c'.conn_gen := by
  intro conn' c' h
  rcases update_cases h with ⟨rfl, rfl⟩ | hold
  · exact ⟨c, hc, rfl, rfl, rfl⟩
  · exact ⟨c', hold, rfl, rfl, rfl⟩

theorem Minted.handshake (h : s.Minted) (conn : ℕ) (key : ChannelKey) (role : Role)
    (client_epoch : Option ℕ) (resume_from_seq now : ℕ) :
    (s.handshake conn key role client_epoch resume_from_seq now).Minted := by
  unfold RelayState.handshake
  dsimp only
  split
  · next registry hattach =>
    -- Refused: no one is attached, and the table is as it was.
    obtain ⟨hcounter, hfrom⟩ := ChannelRegistry.attach_refused_attached _ hattach
    exact h.keep hcounter hfrom fun conn' c' hc' => ⟨c', hc', rfl, rfl, rfl⟩
  · next attached registry hattach =>
    obtain ⟨hgen, hcounter, hwho⟩ := ChannelRegistry.attach_attached _ hattach
    have hgen' : attached.gen = s.registry.gen_counter := hgen
    constructor
    · intro conn' c' hc'
      show c'.conn_gen < registry.gen_counter
      rcases update_cases hc' with ⟨-, rfl⟩ | hold
      · show attached.gen < registry.gen_counter
        omega
      · have := h.minted conn' c' hold
        omega
    · intro key' role' who hat conn' c' hc' hkey hrole
      rcases hwho key' role' who hat with ⟨rfl, rfl, rfl⟩ | ⟨hother, hwho'⟩
      · -- The one just attached is the newest of all.
        show c'.conn_gen ≤ s.registry.gen_counter
        rcases update_cases hc' with ⟨-, rfl⟩ | hold
        · exact le_of_eq hgen'
        · exact Nat.le_of_lt (h.minted conn' c' hold)
      · rcases update_cases hc' with ⟨-, rfl⟩ | hold
        · exact absurd ⟨hkey.symm, hrole.symm⟩ hother
        · exact h.newest key' role' who hwho' conn' c' hold hkey hrole

theorem Minted.handle_inbound (h : s.Minted) (hc : s.conns conn = some c) (now : ℕ)
    (item : Inbound) : (s.handle_inbound conn c now item).Minted := by
  have hsame : ∀ conn' c', s.conns conn' = some c' → ∃ c₀, s.conns conn' = some c₀ ∧
      c₀.key = c'.key ∧ c₀.role = c'.role ∧ c₀.conn_gen = c'.conn_gen :=
    fun conn' c' hc' => ⟨c', hc', rfl, rfl, rfl⟩
  cases item with
  | message msg =>
    cases msg with
    | frame frame =>
      exact h.keep (s.registry.forward_gen_counter _ _ _ _) (s.registry.forward_attached _ _ _ _) hsame
    | close channel_id reason message =>
      exact h.keep (s.registry.forward_message_gen_counter _ _ _)
        (s.registry.forward_message_attached _ _ _) (phase_conns hc .closing)
    | desktop_input body =>
      exact h.keep (s.registry.forward_message_gen_counter _ _ _) (s.registry.forward_message_attached _ _ _) hsame
  | ignored => exact h
  | ended => exact h.keep rfl (fun _ _ _ hwho => hwho) (phase_conns hc .leaving)

theorem Minted.step (h : s.Minted) (hstep : Step s e s') : s'.Minted := by
  unfold Step RelayState.step at hstep
  cases e with
  | attach conn key role client_epoch resume_from_seq now =>
    dsimp only at hstep
    split at hstep
    · simp at hstep
    · cases hstep
      exact h.handshake conn key role client_epoch resume_from_seq now
  | write conn ok =>
    dsimp only at hstep
    split at hstep
    · next c hc =>
      split at hstep
      · split at hstep
        · cases hstep
          exact h.keep rfl (fun _ _ _ hwho => hwho) (phase_conns hc _)
        · cases hstep
          exact h.keep rfl (fun _ _ _ hwho => hwho) (phase_conns hc _)
      · simp at hstep
    · simp at hstep
  | outbound conn ok =>
    dsimp only at hstep
    split at hstep
    · next c hc =>
      split at hstep
      · split_ifs at hstep
        · cases hstep
          exact h.keep rfl (fun _ _ _ hwho => hwho) fun conn' c' hc' => ⟨c', hc', rfl, rfl, rfl⟩
        · cases hstep
          exact h.keep rfl (fun _ _ _ hwho => hwho) (phase_conns hc _)
      · simp at hstep
    · simp at hstep
  | dropped conn =>
    dsimp only at hstep
    split at hstep
    · next c hc =>
      split_ifs at hstep
      cases hstep
      exact h.keep rfl (fun _ _ _ hwho => hwho) (phase_conns hc _)
    · simp at hstep
  | inbound conn item now =>
    dsimp only at hstep
    split at hstep
    · next c hc =>
      split_ifs at hstep
      cases hstep
      exact h.handle_inbound hc now item
    · simp at hstep
  | remove conn =>
    dsimp only at hstep
    split at hstep
    · next c hc =>
      split_ifs at hstep
      cases hstep
      exact h.keep rfl (s.registry.remove_attached c.key) (phase_conns hc _)
    · simp at hstep
  | detach conn =>
    dsimp only at hstep
    split at hstep
    · next c hc =>
      split_ifs at hstep
      cases hstep
      refine h.keep (s.registry.detach_gen_counter c.key c.role c.conn_gen)
        (s.registry.detach_attached c.key c.role c.conn_gen) ?_
      intro conn' c' hc'
      rcases update_cases hc' with ⟨rfl, rfl⟩ | hold
      · exact ⟨c, hc, rfl, rfl, rfl⟩
      · exact phase_conns hc .leaving conn' c' hold
    · simp at hstep
  | reap now =>
    cases hstep
    exact h.keep rfl (s.registry.reap_half_open_attached now) fun conn' c' hc' => ⟨c', hc', rfl, rfl, rfl⟩

/-! ## Superseded and harmless -/

omit [LeakyBucket B] in
theorem Minted.newer (h : s.Minted) (hold : s.Superseded conn) (hc : s.conns conn = some c)
    {who : ℕ × ℕ} (hwho : s.registry.attached_at c.key c.role = some who) : who.2 ≠ c.conn_gen := by
  obtain ⟨c₀, hc₀, newer, c', hc', hkey, hrole, hlt⟩ := hold
  cases hc.symm.trans hc₀
  have := h.newest c.key c.role who hwho newer c' hc' hkey hrole
  omega

omit [LeakyBucket B] in
theorem Inert.refl (s : RelayState B) (conn : ℕ) : s.Inert s conn := ⟨fun _ _ => rfl, fun _ => rfl⟩

omit [LeakyBucket B] in
theorem Inert.set_queue (h : s.Inert s' conn) (queue : PeerQueue) : s.Inert (s'.set_queue conn queue) conn where
  queues := by
    intro other hother
    show Function.update s'.registry.queues conn queue other = _
    rw [Function.update_of_ne hother]
    exact h.queues other hother
  channels := h.channels

omit [LeakyBucket B] in
theorem Inert.leave (h : s.Inert s' conn) (c : Conn) : s.Inert (s'.leave conn c) conn := by
  have hqueue := h.set_queue { s'.registry.queues conn with receiving := false }
  exact ⟨hqueue.queues, hqueue.channels⟩

omit [LeakyBucket B] in
theorem forward_message_harmless (msg : RelayMessage)
    (h : ∀ peer, s.registry.side_at c.key c.role.peer = some peer → (s.registry.queues peer.sink).accepts = false) :
    (s.registry.forward_message c.key c.role msg).2 = s.registry := by
  unfold ChannelRegistry.forward_message
  split
  · rfl
  · next peer hpeer =>
    have hno := h peer hpeer
    unfold ChannelRegistry.send_to PeerQueue.try_send
    simp only [hno]
    simp

theorem inbound_inert {item : Inbound} {now : ℕ} (h : s.Harmless c (.inbound conn item now)) :
    s.Inert (s.handle_inbound conn c now item) conn := by
  cases item with
  | message msg =>
    cases msg with
    | frame frame =>
      obtain ⟨-, hqueues, hcore⟩ := ChannelRegistry.forward_refused h
      constructor
      · intro other _
        show (s.registry.forward c.key c.role frame now).2.queues other = _
        rw [hqueues]
      · exact hcore
    | close channel_id reason message =>
      have hsame := forward_message_harmless (.close channel_id reason message) h
      constructor
      · intro other _
        show (s.registry.forward_message c.key c.role _).2.queues other = _
        rw [hsame]
      · intro key
        show (s.registry.forward_message c.key c.role _).2.core key = _
        rw [hsame]
    | desktop_input body =>
      have hsame := forward_message_harmless (.desktop_input body) h
      constructor
      · intro other _
        show (s.registry.forward_message c.key c.role _).2.queues other = _
        rw [hsame]
      · intro key
        show (s.registry.forward_message c.key c.role _).2.core key = _
        rw [hsame]
  | ignored => exact .refl s conn
  | ended => exact (Inert.refl s conn).leave c

theorem Minted.inert (h : s.Minted) (hstep : Step s e s') (hspares : s.Spares e)
    (hby : e.by = some conn) (hold : s.Superseded conn) : s.Inert s' conn := by
  obtain ⟨c, hc, hnewer⟩ := hold
  have hold : s.Superseded conn := ⟨c, hc, hnewer⟩
  have hharmless := hspares conn c hby hc hold
  unfold Step RelayState.step at hstep
  cases e with
  | attach conn' =>
    obtain rfl : conn' = conn := Option.some.inj hby
    simp [hc] at hstep
  | write conn' ok =>
    obtain rfl : conn' = conn := Option.some.inj hby
    simp only [hc] at hstep
    split at hstep
    · split at hstep
      · cases hstep
        exact ⟨fun _ _ => rfl, fun _ => rfl⟩
      · cases hstep
        exact ⟨fun _ _ => rfl, fun _ => rfl⟩
    · simp at hstep
  | outbound conn' ok =>
    obtain rfl : conn' = conn := Option.some.inj hby
    simp only [hc] at hstep
    split at hstep
    · split at hstep
      · cases hstep
        exact (Inert.refl s conn').set_queue _
      · cases hstep
        exact ((Inert.refl s conn').set_queue _).leave c
    · simp at hstep
  | dropped conn' =>
    obtain rfl : conn' = conn := Option.some.inj hby
    simp only [hc] at hstep
    split_ifs at hstep
    cases hstep
    exact (Inert.refl s conn').leave c
  | inbound conn' item now =>
    obtain rfl : conn' = conn := Option.some.inj hby
    simp only [hc] at hstep
    split_ifs at hstep
    cases hstep
    exact inbound_inert hharmless
  | remove conn' =>
    obtain rfl : conn' = conn := Option.some.inj hby
    simp only [hc] at hstep
    split_ifs at hstep
    cases hstep
    -- There is no channel to remove.
    have hgone : s.registry.channels c.key = none := by
      simpa [Harmless, ChannelRegistry.live] using hharmless
    have hsame : s.registry.remove c.key = s.registry := by
      unfold ChannelRegistry.remove ChannelRegistry.set_channel
      rw [← hgone, Function.update_eq_self]
    simp only [hsame]
    exact (Inert.refl s conn').leave c
  | detach conn' =>
    obtain rfl : conn' = conn := Option.some.inj hby
    simp only [hc] at hstep
    split_ifs at hstep
    cases hstep
    -- The generation is not the attached one.
    have hsame := ChannelRegistry.detach_stale fun who hwho => h.newer hold hc hwho
    simp only [hsame]
    have hleft := (Inert.refl s conn').leave c
    exact ⟨hleft.queues, hleft.channels⟩
  | reap now => simp [ConnEvent.by] at hby

omit [LeakyBucket B] in
theorem new_minted (config : RelayConfig) : (new config : RelayState B).Minted where
  minted := by simp [new]
  newest := by simp [new]

theorem run_minted {config : RelayConfig} (hrun : Run Step (new config : RelayState B) es s) : s.Minted :=
  hrun.invariant (fun _ _ _ hstep h => h.step hstep) (new_minted config)

/-- **Superseded connections are inert.** In every run of the relay in which whatever
a superseded connection does is harmless, every step of one is inert. -/
theorem superseded_inert {config : RelayConfig} (hrun : Run (Restrict Step Spares) (new config : RelayState B) es s)
    (hstep : Restrict Step Spares s e s') (hby : e.by = some conn) (hold : s.Superseded conn) :
    s.Inert s' conn :=
  (run_minted hrun.unrestrict).inert hstep.1 hstep.2 hby hold

/-- **No connection comes back.** Whatever the connections do, in any order, the side that is attached for
a key and role is never that of a superseded connection. -/
theorem superseded_never_attached (config : RelayConfig) (es : List ConnEvent) :
    EachState Step (fun s => ∀ conn c, s.conns conn = some c → s.Superseded conn →
      ∀ sink, s.registry.attached_at c.key c.role ≠ some (sink, c.conn_gen)) (new config : RelayState B) es := by
  rintro es₁ es₂ s hes hrun conn c hc ⟨c₀, hc₀, newer, c', hc', hkey, hrole, hlt⟩ sink hattached
  obtain rfl := Option.some.inj (hc.symm.trans hc₀)
  have hle := (run_minted hrun).newest c.key c.role _ hattached newer c' hc' hkey hrole
  exact absurd hlt (Nat.not_lt.2 hle)

/-! ## A superseded connection at work -/

end Step

def ttyKey : ChannelKey := ⟨"ws-1", "ag-1", 7681⟩

def reconnected : List ConnEvent :=
  [.attach 0 ttyKey .agent none 0 0, .write 0 true, .attach 1 ttyKey .agent none 0 0,
    .attach 2 ttyKey .client (some 0) 0 0]

/-- The relay after `reconnected`, without a rate limit. -/
def afterReconnect : RelayState Unit := (play step (new ⟨64, 100, 100, 5⟩) reconnected).getD (new ⟨64, 100, 100, 5⟩)

theorem afterReconnect_run : Run (Restrict Step Spares) (new ⟨64, 100, 100, 5⟩ : RelayState Unit) reconnected
      afterReconnect := by
  apply play_run
  · intro e he s conn c _ _ _
    simp only [reconnected, List.mem_cons, List.not_mem_nil, or_false] at he
    rcases he with rfl | rfl | rfl | rfl <;> exact trivial
  · rfl

theorem afterReconnect_superseded : afterReconnect.Superseded 0 :=
  ⟨⟨ttyKey, .agent, 1, .splicing⟩, rfl, 1, ⟨ttyKey, .agent, 2, .opening [.ack 0]⟩, rfl, rfl, rfl, by decide⟩

/-- A run in which the old agent connection notices that it was replaced: its step is
inert. -/
theorem superseded_inert_ended : ∃ s', Restrict Step Spares afterReconnect (.inbound 0 .ended 0) s' ∧
      afterReconnect.Inert s' 0 := by
  have hstep : Restrict Step Spares afterReconnect (.inbound 0 .ended 0)
      (afterReconnect.leave 0 ⟨ttyKey, .agent, 1, .splicing⟩) :=
    ⟨rfl, fun _ _ _ _ _ => trivial⟩
  exact ⟨_, hstep, superseded_inert afterReconnect_run hstep rfl afterReconnect_superseded⟩

def lateFrame : StreamFrame := ⟨"ch", 7, [1], 0⟩

/-- **The old connection is not inert.** It is superseded; its frame reaches the
viewer, and its Close takes down the channel that the new connection holds. -/
theorem superseded_connection_harms : ∃ s t u v : RelayState Unit,
    Run Step (new ⟨64, 100, 100, 5⟩) reconnected s ∧ s.Superseded 0 ∧
      Step s (.inbound 0 (.message (.frame lateFrame)) 0) t ∧
      (s.registry.queues 2).buffer = [] ∧ (t.registry.queues 2).buffer = [.frame lateFrame] ∧
      Step t (.inbound 0 (.message (.close "ch" 0 "")) 0) u ∧ Step u (.remove 0) v ∧
      u.registry.attached_at ttyKey .agent = some (1, 2) ∧ v.registry.live ttyKey = false :=
  ⟨afterReconnect, _, _, _, afterReconnect_run.unrestrict, afterReconnect_superseded, rfl, rfl, rfl, rfl, rfl,
    rfl, rfl⟩

end RelayState

end OpenGeni.Relay
