/-
The viewer epoch fence, over the life of a channel.

The floor of a channel is a field of its entry. No operation lowers it, so as long
as the entry stays, a viewer below an epoch that was once accepted is refused. The
relay keeps nothing past a channel's life: the detach of the last side, a close
and the reaping of a half-open channel remove the entry with its floor, and the
next attach starts a new one at 0.

`RegistryOp.Removes` names the operations that end a life, exactly.
-/
import OpenGeni.Relay.ChannelRegistry

namespace OpenGeni.Relay

open OpenGeni.Lib

/-! ## Runs of the registry -/

/-- One critical section of the registry, or what a connection does to its queue
between two of them. -/
inductive RegistryOp
  | attach (key : ChannelKey) (role : Role) (viewer_epoch : Option ℕ)
      (resume_from_seq sink now : ℕ)
  | forward (key : ChannelKey) (from_role : Role) (frame : StreamFrame) (now : ℕ)
  | forward_message (key : ChannelKey) (from_role : Role) (msg : RelayMessage)
  | detach (key : ChannelKey) (role : Role) (gen : ℕ)
  | remove (key : ChannelKey)
  | reap_half_open (now : ℕ)
  | queue (sink : ℕ) (queue : PeerQueue)

namespace ChannelRegistry

variable {B : Type} [LeakyBucket B]

def apply (r : ChannelRegistry B) : RegistryOp → ChannelRegistry B
  | .attach key role viewer_epoch resume_from_seq sink now =>
    (r.attach key role viewer_epoch resume_from_seq sink now).2
  | .forward key from_role frame now => (r.forward key from_role frame now).2
  | .forward_message key from_role msg => (r.forward_message key from_role msg).2
  | .detach key role gen => r.detach key role gen
  | .remove key => r.remove key
  | .reap_half_open now => r.reap_half_open now
  | .queue sink queue => { r with queues := Function.update r.queues sink queue }

def Step (r : ChannelRegistry B) (op : RegistryOp) (r' : ChannelRegistry B) : Prop := r' = r.apply op

end ChannelRegistry

/-- The operation ends the life of the channel of `key`, which is live in `r`. -/
def RegistryOp.Removes {B : Type} (r : ChannelRegistry B) (key : ChannelKey) : RegistryOp → Prop
  | .detach key' role gen => key' = key ∧ ∃ chan, r.channels key = some chan ∧
      (chan.side role).any (fun s => s.gen == gen) = true ∧ chan.side role.peer = none
  | .remove key' => key' = key
  | .reap_half_open now => ∃ chan, r.channels key = some chan ∧ r.reapable now chan = true
  | _ => False

/-! ## What an operation does to one entry -/

namespace LiveChannel

variable {B : Type}

@[simp] theorem set_side_floor (chan : LiveChannel B) (role : Role) (side : Option (Side B)) :
    (chan.set_side role side).epoch_floor = chan.epoch_floor := by
  cases role <;> rfl

@[simp] theorem set_ring_to_floor (chan : LiveChannel B) (role : Role) (ring : ReplayRing) :
    (chan.set_ring_to role ring).epoch_floor = chan.epoch_floor := by
  cases role <;> rfl

theorem set_side_empty (chan : LiveChannel B) (role : Role) :
    (chan.set_side role none).empty = (chan.side role.peer).isNone := by
  cases role <;> simp [set_side, empty, side, Role.peer]

theorem fence_some {chan chan' : LiveChannel B} {viewer_epoch : Option ℕ}
    (h : chan.fence viewer_epoch = some chan') :
    chan.epoch_floor ≤ chan'.epoch_floor ∧ ∀ epoch ∈ viewer_epoch, epoch ≤ chan'.epoch_floor := by
  unfold fence at h
  split at h
  · split_ifs at h
    cases h
    refine ⟨Nat.le_max_left _ _, ?_⟩
    intro epoch hepoch
    obtain rfl := Option.mem_some.1 hepoch
    exact Nat.le_max_right _ _
  · cases h
    exact ⟨le_rfl, by simp⟩

theorem fence_stale {chan : LiveChannel B} {epoch : ℕ} (h : epoch < chan.epoch_floor) :
    chan.fence (some epoch) = none := by
  exact if_pos h

end LiveChannel

namespace ChannelRegistry

variable {B : Type}

/-- The entry of `key` is live, with a floor of at least `floor`. -/
def FloorAtLeast (r : ChannelRegistry B) (key : ChannelKey) (floor : ℕ) : Prop :=
  ∃ chan, r.channels key = some chan ∧ floor ≤ chan.epoch_floor

section Fence

variable [LeakyBucket B] {r r' : ChannelRegistry B} {key : ChannelKey} {floor : ℕ}

omit [LeakyBucket B] in
theorem FloorAtLeast.set_channel (h : r.FloorAtLeast key floor) (key' : ChannelKey) (chan' : LiveChannel B)
    (hle : ∀ chan, r.channels key' = some chan → chan.epoch_floor ≤ chan'.epoch_floor) :
    (r.set_channel key' (some chan')).FloorAtLeast key floor := by
  obtain ⟨chan, hchan, hfloor⟩ := h
  by_cases hkey : key = key'
  · subst hkey
    exact ⟨chan', r.set_channel_self key _, Nat.le_trans hfloor (hle chan hchan)⟩
  · refine ⟨chan, ?_, hfloor⟩
    rw [r.set_channel_other _ hkey]
    exact hchan

theorem FloorAtLeast.attach (h : r.FloorAtLeast key floor) (key' : ChannelKey) (role : Role)
    (viewer_epoch : Option ℕ) (resume_from_seq sink now : ℕ) :
    (r.attach key' role viewer_epoch resume_from_seq sink now).2.FloorAtLeast key floor := by
  have htouched : ∀ chan, r.channels key' = some chan → (r.touched key' now).epoch_floor = chan.epoch_floor := by
    intro chan hchan
    rw [touched, hchan]
    rfl
  cases hfence : (r.touched key' now).fence viewer_epoch with
  | none =>
    rw [attach_refused hfence]
    apply h.set_channel
    intro chan hchan
    rw [htouched chan hchan]
  | some chan' =>
    rw [attach_accepted hfence]
    apply h.set_channel
    intro chan hchan
    rw [LiveChannel.set_side_floor, ← htouched chan hchan]
    exact (LiveChannel.fence_some hfence).1

theorem FloorAtLeast.forward (h : r.FloorAtLeast key floor) (key' : ChannelKey)
    (from_role : Role) (frame : StreamFrame) (now : ℕ) :
    (r.forward key' from_role frame now).2.FloorAtLeast key floor := by
  cases hadmits : r.admits key' from_role frame.data.length now with
  | false =>
    -- The core of the entry is what it was, and with it the floor.
    obtain ⟨chan, hchan, hfloor⟩ := h
    have hcore := (forward_refused hadmits).2.2 key
    rw [core, core, hchan, Option.map_some] at hcore
    obtain ⟨chan', hchan', hsame⟩ := Option.map_eq_some_iff.1 hcore
    refine ⟨chan', hchan', ?_⟩
    have : chan'.epoch_floor = chan.epoch_floor := by
      simp only [LiveChannel.core, Prod.mk.injEq] at hsame
      exact hsame.2.2.2.2
    omega
  | true =>
    obtain ⟨chan, side, hchan, hside, hbucket⟩ := admits_iff.1 hadmits
    have hset : (r.set_channel key' (some (r.recorded chan side from_role frame now))).FloorAtLeast key floor := by
      apply h.set_channel
      intro chan₀ hchan₀
      rw [hchan] at hchan₀
      cases hchan₀
      rw [recorded, LiveChannel.set_ring_to_floor, LiveChannel.set_side_floor]
    rw [forward_admitted hchan hside hbucket]
    split
    · exact hset
    · exact hset

theorem FloorAtLeast.apply (h : r.FloorAtLeast key floor) {op : RegistryOp}
    (hstays : ¬ op.Removes r key) : (r.apply op).FloorAtLeast key floor := by
  cases op with
  | attach key' role viewer_epoch resume_from_seq sink now => exact h.attach _ _ _ _ _ _
  | forward key' from_role frame now => exact h.forward _ _ _ _
  | forward_message key' from_role msg =>
    show (r.forward_message key' from_role msg).2.FloorAtLeast key floor
    unfold ChannelRegistry.forward_message
    split
    · exact h
    · exact h
  | detach key' role gen =>
    show (r.detach key' role gen).FloorAtLeast key floor
    unfold ChannelRegistry.detach
    split
    · exact h
    · next chan hchan =>
      split_ifs with hgen
      · dsimp only
        rw [LiveChannel.set_side_empty]
        split_ifs with hlast
        · -- The last side of another key.
          have hkey : key ≠ key' := by
            rintro rfl
            exact hstays ⟨rfl, chan, hchan, hgen, Option.isNone_iff_eq_none.1 hlast⟩
          obtain ⟨chan₀, hchan₀, hfloor⟩ := h
          refine ⟨chan₀, ?_, hfloor⟩
          rw [r.set_channel_other _ hkey]
          exact hchan₀
        · apply h.set_channel
          intro chan₀ hchan₀
          rw [hchan] at hchan₀
          cases hchan₀
          rw [LiveChannel.set_side_floor]
      · exact h
  | remove key' =>
    obtain ⟨chan, hchan, hfloor⟩ := h
    refine ⟨chan, ?_, hfloor⟩
    show (r.set_channel key' none).channels key = some chan
    rw [r.set_channel_other _ (fun heq => hstays heq.symm)]
    exact hchan
  | reap_half_open now =>
    obtain ⟨chan, hchan, hfloor⟩ := h
    refine ⟨chan, ?_, hfloor⟩
    show (r.channels key).filter _ = some chan
    rw [hchan, Option.filter_some, if_pos]
    by_contra hreap
    exact hstays ⟨chan, hchan, by simpa using hreap⟩
  | queue sink queue => exact h

theorem attach_floor {epoch resume_from_seq sink now : ℕ} {role : Role} {attached : Attached}
    (h : (r.attach key role (some epoch) resume_from_seq sink now).1 = .ok attached) :
    (r.attach key role (some epoch) resume_from_seq sink now).2.FloorAtLeast key epoch := by
  cases hfence : (r.touched key now).fence (some epoch) with
  | none =>
    rw [attach_refused hfence] at h
    simp at h
  | some chan =>
    rw [attach_accepted hfence]
    refine ⟨_, r.set_channel_self key _, ?_⟩
    rw [LiveChannel.set_side_floor]
    exact (LiveChannel.fence_some hfence).2 epoch rfl

theorem attach_stale (h : r.FloorAtLeast key floor) {epoch : ℕ} (hepoch : epoch < floor)
    (role : Role) (resume_from_seq sink now : ℕ) :
    (r.attach key role (some epoch) resume_from_seq sink now).1 = .error .stale_epoch := by
  obtain ⟨chan, hchan, hfloor⟩ := h
  rw [attach_refused]
  apply LiveChannel.fence_stale
  rw [touched, hchan]
  exact Nat.lt_of_lt_of_le hepoch hfloor

theorem attach_new (h : r.channels key = none) (role : Role) (viewer_epoch : Option ℕ)
    (resume_from_seq sink now : ℕ) :
    ∃ attached, (r.attach key role viewer_epoch resume_from_seq sink now).1 = .ok attached := by
  obtain ⟨chan, hfence⟩ := r.touched_new key h now viewer_epoch
  rw [attach_accepted hfence]
  exact ⟨_, rfl⟩

theorem apply_removes {op : RegistryOp} (h : op.Removes r key) : (r.apply op).channels key = none := by
  cases op with
  | attach | forward | forward_message | queue => exact h.elim
  | detach key' role gen =>
    obtain ⟨rfl, chan, hchan, hgen, hlast⟩ := h
    show (r.detach key' role gen).channels key' = none
    unfold ChannelRegistry.detach
    rw [hchan]
    dsimp only
    rw [if_pos hgen, LiveChannel.set_side_empty, hlast, Option.isNone_none, if_pos rfl, set_channel_self]
  | remove key' =>
    obtain rfl : key' = key := h
    exact r.set_channel_self key' none
  | reap_half_open now =>
    obtain ⟨chan, hchan, hreap⟩ := h
    show (r.channels key).filter _ = none
    rw [hchan, Option.filter_some, hreap]
    rfl

/-- The viewer epoch fence of the channel of `key`. -/
structure EpochFence (B : Type) [LeakyBucket B] (key : ChannelKey) : Prop where
  /-- Once a client attach with epoch `e` has been accepted, in every run during which
  the channel lives on, a client attach below `e` is refused. -/
  fenced : ∀ (r r' : ChannelRegistry B) ops e resume_from_seq sink now attached,
    (r.attach key .client (some e) resume_from_seq sink now).1 = .ok attached →
    Run (Restrict Step fun r op => ¬ op.Removes r key)
      (r.attach key .client (some e) resume_from_seq sink now).2 ops r' →
    ∀ e' < e, ∀ resume_from_seq' sink' now',
      (r'.attach key .client (some e') resume_from_seq' sink' now').1 = .error .stale_epoch
  ends : ∀ (r r' : ChannelRegistry B) op, r.live key = true → Step r op r' →
    (r'.live key = false ↔ op.Removes r key)
  anew : ∀ (r : ChannelRegistry B), r.live key = false → ∀ e resume_from_seq sink now, ∃ attached,
      (r.attach key .client (some e) resume_from_seq sink now).1 = .ok attached

/-- **The epoch fence of a live channel.** -/
theorem epoch_fence (B : Type) [LeakyBucket B] (key : ChannelKey) : EpochFence B key where
  fenced := by
    intro r r' ops e resume_from_seq sink now attached haccepted hrun e' hstale resume' sink' now'
    have hfloor : r'.FloorAtLeast key e := by
      refine hrun.invariant (P := fun r => r.FloorAtLeast key e) ?_ (attach_floor haccepted)
      rintro s op t ⟨rfl, hstays⟩ hs
      exact hs.apply hstays
    exact attach_stale hfloor hstale _ _ _ _
  ends := by
    rintro r _ op hlive rfl
    obtain ⟨chan, hchan⟩ := Option.isSome_iff_exists.1 hlive
    constructor
    · intro hgone
      by_contra hstays
      have hfloor : r.FloorAtLeast key 0 := ⟨chan, hchan, Nat.zero_le _⟩
      obtain ⟨chan', hchan', -⟩ := hfloor.apply hstays
      rw [live, hchan'] at hgone
      simp at hgone
    · intro hremoves
      rw [live, apply_removes hremoves]
      rfl
  anew := by
    intro r hgone e resume_from_seq sink now
    apply attach_new
    simpa [live] using hgone

/-! ## Across lives the floor is lost -/

/-- A viewer of epoch 5 attaches and detaches, and the channel goes with it; a viewer
of epoch 4 is accepted. -/
theorem floor_lost_with_channel : ∃ (r r' : ChannelRegistry Unit) (ops : List RegistryOp)
      (key : ChannelKey) (attached attached' : Attached),
    r = .new ⟨64, 100, 100, 5⟩ ∧ (r.attach key .client (some 5) 0 0 0).1 = .ok attached ∧
      Run Step (r.attach key .client (some 5) 0 0 0).2 ops r' ∧
      (r'.attach key .client (some 4) 0 1 0).1 = .ok attached' := by
  let key : ChannelKey := ⟨"ws-1", "ag-1", 7681⟩
  let r : ChannelRegistry Unit := .new ⟨64, 100, 100, 5⟩
  let r₁ := (r.attach key .client (some 5) 0 0 0).2
  refine ⟨r, r₁.detach key .client 1, [.detach key .client 1], key, ⟨0, [], 1⟩, ⟨0, [], 2⟩, rfl, rfl,
    .single rfl, ?_⟩
  rfl

end Fence

end ChannelRegistry

end OpenGeni.Relay
