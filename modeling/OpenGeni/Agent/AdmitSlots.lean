/-
Admission slots are conserved.

A running slot of a class is always somebody's: a caller that holds a ticket or has one
in its channel, a `release_slot` with a ticket in its hand (to send, or to give back), or
a promoted op in a `release_slot`'s worklist that has no ticket yet. Each step moves one
of these to the next, or makes or ends one together with the count. So the count is never
below what `release` takes off it, and it never passes the breaker, because both ways up
ask the breaker first.
-/
import OpenGeni.Agent.Admit

namespace OpenGeni.Agent

open OpenGeni.Lib OpenGeni.Engine

/-! ## Who holds the slots -/

/-- The live ticket of a caller: the one it returned, or the one in its channel. -/
def CallerPc.ticket : CallerPc → Option JobClass
  | .holding cls => some cls
  | .waiting chan => chan.ticket
  | .queued => none
  | .refused _ => none
  | .rejected _ => none
  | .abandoned => none
  | .released => none
  | .cancelled => none

def Caller.tickets (cls : JobClass) (c : Caller) : ℕ := if c.pc.ticket = some cls then 1 else 0

/-- How many tickets a `release_slot` has in its hand. -/
def Hand.tickets : Hand → ℕ
  | .release => 1
  | .pop => 0
  | .send _ => 1

def Releaser.tickets (cls : JobClass) (r : Releaser) : ℕ := if r.cls = cls then r.hand.tickets else 0

/-- How many promotions of the class wait in a `release_slot`'s worklist. -/
def Releaser.promotions (cls : JobClass) (r : Releaser) : ℕ := if r.cls = cls then r.to_wake.length else 0

theorem Caller.tickets_new (cls cls' : JobClass) (op : OpId) (outcome : AdmissionOutcome) :
    Caller.tickets cls' ⟨op, cls, .after_request cls outcome⟩ = if outcome = .admitted ∧ cls' = cls then 1 else 0 := by
  unfold Caller.tickets
  cases outcome with
  | admitted => simp [CallerPc.after_request, CallerPc.ticket, eq_comm]
  | queued | refused => simp [CallerPc.after_request, CallerPc.ticket]

namespace AdmitState

/-- The live armed tickets of the class, those inside a oneshot channel included. -/
def live_tickets (s : AdmitState) (cls : JobClass) : ℕ :=
  tally (Caller.tickets cls) s.callers + tally (Releaser.tickets cls) s.releasers

def promotions (s : AdmitState) (cls : JobClass) : ℕ := tally (Releaser.promotions cls) s.releasers

def Balanced (s : AdmitState) : Prop := ∀ cls, s.admission.running cls = s.live_tickets cls + s.promotions cls

section

variable {s t : AdmitState} {e : AdmitEvent} {cls : JobClass} {i k : ℕ} {c : Caller} {r : Releaser}

theorem Balanced.init (config : AdmissionConfig) : (init config).Balanced := fun _ => rfl

theorem tickets_set (hc : s.callers[i]? = some c) (pc : CallerPc) (cls : JobClass) :
    tally (Caller.tickets cls) (s.callers.set i { c with pc := pc }) + (if c.pc.ticket = some cls then 1 else 0)
      = tally (Caller.tickets cls) s.callers + (if pc.ticket = some cls then 1 else 0) :=
  tally_set (Caller.tickets cls) hc { c with pc := pc }

variable {chan : Chan} {pc : CallerPc}

theorem deliver_tickets (s : AdmitState) (i : ℕ) (hchan : chan.ticket = none) (cls : JobClass) :
    tally (Caller.tickets cls) (s.deliver i chan).callers = tally (Caller.tickets cls) s.callers ∧
      (s.deliver i chan).admission = s.admission ∧
      (s.deliver i chan).releasers = s.releasers := by
  unfold deliver
  split
  · exact ⟨rfl, rfl, rfl⟩
  · rename_i c hc
    split
    · rename_i hpc
      have hset := tickets_set hc (.waiting chan) cls
      have hnew : (CallerPc.waiting chan).ticket = none := hchan
      rw [hnew, hpc] at hset
      exact ⟨Nat.add_right_cancel hset, rfl, rfl⟩
    · exact ⟨rfl, rfl, rfl⟩

theorem deliver_to_tickets (s : AdmitState) (caller : Option ℕ) (hchan : chan.ticket = none) (cls : JobClass) :
    tally (Caller.tickets cls) (s.deliver_to caller chan).callers = tally (Caller.tickets cls) s.callers ∧
      (s.deliver_to caller chan).admission = s.admission ∧
      (s.deliver_to caller chan).releasers = s.releasers := by
  unfold deliver_to
  split
  · exact ⟨rfl, rfl, rfl⟩
  · exact s.deliver_tickets _ hchan cls

theorem drop_ticket_tickets (s : AdmitState) (cls cls' : JobClass) :
    tally (Releaser.tickets cls') (s.drop_ticket cls).releasers
        = tally (Releaser.tickets cls') s.releasers + (if cls = cls' then 1 else 0) ∧
      tally (Releaser.promotions cls') (s.drop_ticket cls).releasers
        = tally (Releaser.promotions cls') s.releasers := by
  unfold drop_ticket
  rw [tally_append, tally_append, tally_singleton, tally_singleton]
  refine ⟨rfl, ?_⟩
  unfold Releaser.promotions
  split <;> rfl

theorem poll_ticket (h : chan.poll = some pc) : pc.ticket = chan.ticket := by
  unfold Chan.poll at h
  split at h
  · contradiction
  · rw [← Option.some.inj h]
    rfl
  · rw [← Option.some.inj h]
    rfl
  · rw [← Option.some.inj h]
    rfl

theorem Balanced.running_pos (h : s.Balanced) (hr : s.releasers[k]? = some r)
    (hhand : r.hand = .release) : 0 < s.admission.running r.cls := by
  have hle := le_tally (Releaser.tickets r.cls) hr
  simp only [Releaser.tickets, Hand.tickets, hhand, if_true] at hle
  have hbooks := h r.cls
  unfold live_tickets at hbooks
  omega

theorem Balanced.release (h : s.Balanced) (hr : s.releasers[k]? = some r)
    (hhand : r.hand = .release) : (s.release k r).Balanced := by
  intro cls
  have hbooks := h cls
  have hreleased := AdmissionState.release_released s.admission r.cls
  unfold live_tickets AdmitState.promotions at hbooks ⊢
  unfold AdmitState.release
  dsimp only
  generalize s.admission.release r.cls = out at hreleased
  have htickets := tally_set (Releaser.tickets cls) hr { r with to_wake := r.to_wake ++ out.1, hand := .pop }
  have hpromotions := tally_set (Releaser.promotions cls) hr { r with to_wake := r.to_wake ++ out.1, hand := .pop }
  simp only [Releaser.tickets, Hand.tickets, hhand] at htickets
  simp only [Releaser.promotions, List.length_append] at hpromotions
  by_cases heq : r.cls = cls
  · subst heq
    simp only [if_true] at htickets hpromotions
    rw [hreleased.running]
    omega
  · simp only [if_neg heq] at htickets hpromotions
    rw [hreleased.running_other cls (Ne.symm heq)]
    omega

theorem Balanced.wake {rest : List OpId} {op : OpId} (h : s.Balanced)
    (hr : s.releasers[k]? = some r) (hhand : r.hand = .pop) (hwake : r.to_wake = rest ++ [op]) :
    (s.wake k r rest op).Balanced := by
  intro cls
  have hbooks := h cls
  unfold live_tickets AdmitState.promotions at hbooks ⊢
  have hfound : (s.wake_hand op).tickets = 1 := by
    unfold wake_hand
    split <;> rfl
  unfold AdmitState.wake
  dsimp only
  have htickets := tally_set (Releaser.tickets cls) hr { r with to_wake := rest, hand := s.wake_hand op }
  have hpromotions := tally_set (Releaser.promotions cls) hr { r with to_wake := rest, hand := s.wake_hand op }
  simp only [Releaser.tickets, hhand, hfound, show Hand.pop.tickets = 0 from rfl] at htickets
  simp only [Releaser.promotions, hwake, List.length_append, List.length_singleton] at hpromotions
  by_cases heq : r.cls = cls
  · simp only [if_pos heq] at htickets hpromotions
    omega
  · simp only [if_neg heq] at htickets hpromotions
    omega

theorem Balanced.send (h : s.Balanced) (hr : s.releasers[k]? = some r)
    (hhand : r.hand = .send i) (hc : s.callers[i]? = some c) : (s.send k r i c).Balanced := by
  intro cls
  have hbooks := h cls
  have hpromotions : ∀ hand, tally (Releaser.promotions cls)
      (s.releasers.set k { r with hand := hand }) = tally (Releaser.promotions cls) s.releasers :=
    fun hand => Nat.add_right_cancel (tally_set (Releaser.promotions cls) hr { r with hand := hand })
  unfold live_tickets AdmitState.promotions at hbooks ⊢
  unfold AdmitState.send
  split
  · rename_i hpc
    have hcaller := tickets_set hc (.waiting (.sent (.ok r.cls))) cls
    have htickets := tally_set (Releaser.tickets cls) hr { r with hand := .pop }
    simp only [Releaser.tickets, Hand.tickets, hhand] at htickets
    rw [hpc] at hcaller
    dsimp only [CallerPc.ticket, Chan.ticket] at hcaller ⊢
    rw [hpromotions]
    by_cases heq : r.cls = cls
    · subst heq
      simp only [if_true, reduceCtorEq, if_false] at htickets hcaller
      omega
    · simp only [Option.some.injEq, heq, reduceCtorEq, if_false] at htickets hcaller
      omega
  · -- the ticket bounced: it stays in the hand
    have htickets := tally_set (Releaser.tickets cls) hr { r with hand := .release }
    simp only [Releaser.tickets, Hand.tickets, hhand] at htickets
    rw [hpromotions, Nat.add_right_cancel htickets]
    exact hbooks

theorem Balanced.drop_ticket (h : s.Balanced) (hc : s.callers[i]? = some c)
    (hticket : c.pc.ticket = some cls) (hpc : pc.ticket = none) :
    ({ s with callers := s.callers.set i { c with pc := pc } }.drop_ticket cls).Balanced := by
  intro cls'
  have hbooks := h cls'
  have hcaller := tickets_set hc pc cls'
  obtain ⟨htickets, hpromotions⟩ :=
    drop_ticket_tickets { s with callers := s.callers.set i { c with pc := pc } } cls cls'
  rw [hticket, hpc] at hcaller
  simp only [Option.some.injEq, reduceCtorEq, if_false] at hcaller
  unfold live_tickets AdmitState.promotions at hbooks ⊢
  rw [htickets, hpromotions]
  unfold AdmitState.drop_ticket
  dsimp only
  omega

theorem Balanced.go_on (h : s.Balanced) (hc : s.callers[i]? = some c) (hticket : pc.ticket = c.pc.ticket) :
    ({ s with callers := s.callers.set i { c with pc := pc } } : AdmitState).Balanced := by
  intro cls
  have hbooks := h cls
  have hcaller := tickets_set hc pc cls
  rw [hticket] at hcaller
  unfold live_tickets AdmitState.promotions at hbooks ⊢
  dsimp only
  omega

theorem Balanced.congr (h : s.Balanced) (hadmission : t.admission = s.admission)
    (hcallers : t.callers = s.callers) (hreleasers : t.releasers = s.releasers) : t.Balanced := by
  intro cls
  unfold live_tickets AdmitState.promotions
  rw [hadmission, hcallers, hreleasers]
  exact h cls

theorem Balanced.deliver_to (h : s.Balanced) (caller : Option ℕ) (hchan : chan.ticket = none) :
    (s.deliver_to caller chan).Balanced := by
  intro cls
  obtain ⟨htickets, hadmission, hreleasers⟩ := s.deliver_to_tickets caller hchan cls
  unfold live_tickets AdmitState.promotions
  rw [htickets, hadmission, hreleasers]
  exact h cls

/-- **One step** keeps the books balanced. -/
theorem balanced_step (h : s.Balanced) (hstep : AdmitStep s e t) : t.Balanced := by
  cases hstep with
  | request op cls origin now_ms =>
    intro cls'
    have hbooks := h cls'
    have hrequested := AdmissionState.request_requested s.admission op cls origin now_ms
    unfold live_tickets AdmitState.promotions at hbooks ⊢
    unfold AdmitState.request
    dsimp only
    rw [hrequested.running cls', tally_append, tally_singleton, Caller.tickets_new]
    omega
  | register hc hpc =>
    refine Balanced.deliver_to ?_ _ rfl
    exact (h.go_on hc (by rw [hpc]; rfl)).congr rfl rfl rfl
  | poll hc hpc hpoll => exact h.go_on hc (by rw [hpc]; exact poll_ticket hpoll)
  | cancel hc hpc hticket => exact h.go_on hc (by rw [hpc]; exact hticket.symm)
  | cancel_delivered hc hpc hticket => exact h.drop_ticket hc (by rw [hpc]; exact hticket) rfl
  | drop_ticket hc hpc => exact h.drop_ticket hc (by rw [hpc]; rfl) rfl
  | release hr hhand => exact h.release hr hhand
  | wake rest op hr hhand hwake => exact h.wake hr hhand hwake
  | send hr hhand hc => exact h.send hr hhand hc
  | @expire now_ms order horder =>
    intro cls
    have hexpired := AdmissionState.expire_expiredFrom s.admission now_ms order
    unfold AdmitState.expire
    rw [hexpired.running cls]
    exact h cls
  | reject hk =>
    refine Balanced.deliver_to ?_ _ rfl
    exact h.congr rfl rfl rfl

theorem admission_step (hstep : AdmitStep s e t) : t.admission = s.admission ∨
      (∃ op cls origin now_ms, t.admission = (s.admission.request op cls origin now_ms).2) ∨
      (∃ cls, t.admission = (s.admission.release cls).2) ∨
      ∃ now_ms order, t.admission = (s.admission.expire now_ms order).2 := by
  have hdeliver : ∀ (u : AdmitState) (caller : Option ℕ) (chan : Chan),
      (u.deliver_to caller chan).admission = u.admission := by
    intro u caller chan
    unfold deliver_to deliver
    split
    · rfl
    · split
      · rfl
      · split <;> rfl
  cases hstep with
  | request op cls origin now_ms => exact Or.inr (Or.inl ⟨op, cls, origin, now_ms, rfl⟩)
  | register | reject => exact Or.inl (hdeliver _ _ _)
  | @release _ r => exact Or.inr (Or.inr (Or.inl ⟨r.cls, rfl⟩))
  | send =>
    unfold AdmitState.send
    left
    split <;> rfl
  | expire => exact Or.inr (Or.inr (Or.inr ⟨_, _, rfl⟩))
  | _ => exact Or.inl rfl

theorem breakers_step (h : s.admission.WithinBreakers) (hstep : AdmitStep s e t) :
    t.admission.config = s.admission.config ∧ t.admission.WithinBreakers := by
  rcases admission_step hstep with
    hsame | ⟨op, cls, origin, now_ms, hres⟩ | ⟨cls, hres⟩ | ⟨now_ms, order, hres⟩
  · rw [hsame]
    exact ⟨rfl, h⟩
  · have hrequested := AdmissionState.request_requested s.admission op cls origin now_ms
    rw [hres]
    exact ⟨hrequested.config, hrequested.breakers h⟩
  · have hreleased := AdmissionState.release_released s.admission cls
    rw [hres]
    exact ⟨hreleased.config, hreleased.breakers h⟩
  · have hexpired := AdmissionState.expire_expiredFrom s.admission now_ms order
    rw [hres]
    exact ⟨hexpired.config, hexpired.breakers h⟩

end

end AdmitState

/-! ## Whole runs -/

structure SlotsConserved (config : AdmissionConfig) (s : AdmitState) : Prop where
  /-- The running count of a class is its live armed tickets, those in flight inside a
  oneshot included, plus its promotions not yet turned into a ticket. -/
  counted : ∀ cls, s.admission.running cls = s.live_tickets cls + s.promotions cls
  within_breaker : ∀ cls max, (config.limits cls).max_running = some max → s.admission.running cls ≤ max
  /-- The subtraction of a release that is about to happen does not saturate. -/
  never_saturates : ∀ (k : ℕ) (r : Releaser), s.releasers[k]? = some r → r.hand = .release →
    0 < s.admission.running r.cls

/-- **Admission slots are conserved**, in every state of every interleaving. -/
theorem admission_slots_conserved {config : AdmissionConfig} {es : List AdmitEvent}
    {s : AdmitState} (h : Run AdmitStep (.init config) es s) : SlotsConserved config s := by
  have hinv : s.Balanced ∧ s.admission.config = config ∧ s.admission.WithinBreakers := by
    refine h.invariant (P := fun s : AdmitState =>
      s.Balanced ∧ s.admission.config = config ∧ s.admission.WithinBreakers) ?_
      ⟨.init config, rfl, fun _ _ _ => Nat.zero_le _⟩
    rintro s e t hstep ⟨hbalanced, hconfig, hbreakers⟩
    obtain ⟨hconfig', hbreakers'⟩ := AdmitState.breakers_step hbreakers hstep
    exact ⟨AdmitState.balanced_step hbalanced hstep, hconfig'.trans hconfig, hbreakers'⟩
  obtain ⟨hbalanced, rfl, hbreakers⟩ := hinv
  exact ⟨hbalanced, hbreakers, fun k r hr hhand => hbalanced.running_pos hr hhand⟩

def one_at_a_time : AdmissionConfig := ⟨⟨none, none, none⟩, ⟨some 1, none, none⟩⟩

/-- The slot of a dropped ticket reaches the job that was queued behind it. -/
theorem slot_is_handed_on : ∃ s : AdmitState, SlotsConserved one_at_a_time s ∧
    s.admission.running .heavy = 1 ∧ s.callers.map (·.pc) = [.released, .holding .heavy] := by
  have hqueued : Run AdmitStep (.init one_at_a_time) _ _ :=
    (Run.single (AdmitStep.request (.init one_at_a_time) ⟨"a"⟩ .heavy "o" 0)).snoc (.request _ ⟨"b"⟩ .heavy "o" 1)
  have hwaiting := hqueued.snoc (.register (i := 1) rfl rfl)
  have hpromoted := (hwaiting.snoc (.drop_ticket (i := 0) rfl rfl)).snoc (.release (k := 0) rfl rfl)
  have hsent := (hpromoted.snoc (.wake (k := 0) [] ⟨"b"⟩ rfl rfl rfl)).snoc (.send (k := 0) rfl rfl rfl)
  have hdone := hsent.snoc (.poll (i := 1) rfl rfl rfl)
  exact ⟨_, admission_slots_conserved hdone, by decide, by decide⟩

end OpenGeni.Agent
