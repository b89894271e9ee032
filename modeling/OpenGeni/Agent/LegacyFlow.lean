/-
A link whose one consumer attaches with a window of `breaker`
bytes and never asks for another.

As long as the job's output fits the window, the window cannot be what holds a frame
back: the bytes in flight are bytes of the output. So once the consumer is attached
everything is sent, and what it is sent is the output (`Local.settled`). Past
`breaker` bytes nothing of the kind holds, and before the attach nothing is sent at
all.

The invariant does not depend on what is acknowledged. An ack may run ahead of the
cursor and make the link skip frames, but within the window there is nothing left to
skip by then.
-/
import OpenGeni.Agent.JobOutput

namespace OpenGeni.Agent

open OpenGeni.Lib OpenGeni.Engine

/-! ## One consumer, one window -/

namespace Link

def emitted_bodies (l : Link) : List FrameBody := l.history.emitted.map fun f => f.body

theorem Step.emitted_prefix {l l' : Link} {e : PumpEvent} (h : l.Step e l') :
    l.history.emitted <+: l'.history.emitted := by
  have hflush (l₁ : Link) : l₁.history.emitted <+: l₁.flush.history.emitted :=
    flush_rule (P := fun l₂ => l₁.history.emitted <+: l₂.history.emitted)
      (fun _ f _ _ _ _ hpre => hpre.trans (List.prefix_append _ [f])) List.prefix_rfl
  cases h with
  | attach generation from_seq window_bytes =>
    rw [Link.attach]
    split_ifs
    · exact List.prefix_rfl
    · exact hflush (l.fresh generation from_seq window_bytes)
  | ack generation acked_seq credit_bytes final_ack =>
    rw [Link.ack]
    split_ifs
    · exact List.prefix_rfl
    · exact hflush (l.acked acked_seq credit_bytes)
  | detach | quiet => exact List.prefix_rfl
  | append _ =>
    rw [Link.append]
    split_ifs
    · exact List.prefix_append _ _
    · exact List.prefix_rfl

/-- A link whose consumer attaches once, from the start, with `breaker` bytes of window,
and acknowledges with the same. -/
structure Local (breaker : ℕ) (l : Link) : Prop where
  wf : l.Wf
  /-- Before the attach nothing has happened to the flow. -/
  idle : l.flow.attached = false → l.flow = .new ∧ l.history.emitted = [] ∧ l.log.floor = 0
  window : l.flow.attached = true → l.flow.window_bytes = breaker
  unacked : l.flow.unacked_sent_bytes ≤ payload_sum l.emitted_bodies
  /-- What is sent is sent in order, from below the cursor. -/
  sent : l.emitted_bodies.Sublist (l.log.appended.take l.flow.sent_hi)
  settled : l.flow.attached = true → payload_sum l.log.appended ≤ breaker →
    payload_sum l.emitted_bodies = payload_sum l.log.appended
  caught_up : l.flow.attached = true → payload_sum l.log.appended < breaker → l.flow.sent_hi = l.log.high

/-- The commands such a consumer gives, and when: none but its one attach and its acks. -/
def LocalEvent (breaker : ℕ) (l : Link) (e : PumpEvent) : Prop :=
  (∀ a ∈ e.attach?, a = (1, 0, breaker) ∧ l.flow.attached = false) ∧ (∀ a ∈ e.ack?, a.1 = 1 ∧ a.2.2 = breaker) ∧
    e ≠ .wake (.command (some .detach))

section Local

variable {breaker : ℕ} {l l' : Link} {f : Frame} {rest : List Frame} {body : FrameBody} {e : PumpEvent}

theorem init_local : init.Local breaker where
  wf := init_wf
  idle := fun _ => ⟨rfl, rfl, rfl⟩
  window := fun h => absurd h Bool.false_ne_true
  unacked := Nat.le_refl 0
  sent := List.Sublist.refl _
  settled := fun h => absurd h Bool.false_ne_true
  caught_up := fun h => absurd h Bool.false_ne_true

@[simp] theorem send_emitted_bodies : (l.send f).emitted_bodies = l.emitted_bodies ++ [f.body] := by
  simp [emitted_bodies, send]

theorem sent_send (hp : l.pending = f :: rest) (h : l.emitted_bodies.Sublist (l.log.appended.take l.flow.sent_hi)) :
    (l.send f).emitted_bodies.Sublist ((l.send f).log.appended.take (l.send f).flow.sent_hi) := by
  have hseq := pending_seq hp
  have hcursor : l.flow.sent_hi ≤ l.cursor := Nat.le_max_left _ _
  have hbody := pending_body hp
  rw [send_sent_hi hp, send_log, send_emitted_bodies]
  have htake : l.log.appended.take f.seq = l.log.appended.take (f.seq - 1) ++ [f.body] := by
    have hnext : f.seq = f.seq - 1 + 1 := by omega
    conv_lhs => rw [hnext]
    rw [List.take_add_one, hbody]
    rfl
  rw [htake]
  apply List.Sublist.append_right
  exact h.trans (List.take_sublist_take_left (by omega))

theorem pending_bodies : l.pending.map (fun f => f.body) = l.log.appended.drop l.cursor := by
  unfold pending framesAbove
  rw [numberFrom_map (f := fun f : Frame => f.body) (g := id) (fun _ _ => rfl), List.map_id]

/-- A link in the middle of sending: it is attached, and as long as the output fits the
window, what has been sent and what is pending make up all of it. -/
structure Sending (breaker : ℕ) (l : Link) : Prop where
  wf : l.Wf
  attached : l.flow.attached = true
  window : l.flow.window_bytes = breaker
  unacked : l.flow.unacked_sent_bytes ≤ payload_sum l.emitted_bodies
  sent : l.emitted_bodies.Sublist (l.log.appended.take l.flow.sent_hi)
  total : payload_sum l.log.appended ≤ breaker →
    payload_sum l.emitted_bodies + payload_sum (l.pending.map fun f => f.body) = payload_sum l.log.appended
  floor_le : payload_sum l.log.appended < breaker → l.log.floor ≤ l.flow.sent_hi

theorem Sending.send (h : l.Sending breaker) (hp : l.pending = f :: rest) : (l.send f).Sending breaker where
  wf := h.wf.send hp
  attached := h.attached
  window := h.window
  unacked := by
    have := h.unacked
    rw [send_unacked, send_emitted_bodies, payload_sum_append, payload_sum_cons, payload_sum_nil]
    show _ + f.body.payload_len ≤ _
    omega
  sent := sent_send hp h.sent
  total := by
    intro hfits
    have htotal := h.total hfits
    rw [hp, List.map_cons, payload_sum_cons] at htotal
    rw [send_emitted_bodies, send_pending hp, payload_sum_append, payload_sum_cons, payload_sum_nil, send_log, ← htotal]
    omega
  floor_le := by
    intro hshort
    have hcursor : l.log.floor ≤ l.cursor := Nat.le_max_right _ _
    rw [send_sent_hi hp, pending_seq hp, send_log]
    omega

theorem Sending.may_send (h : l.Sending breaker) (hfits : payload_sum l.log.appended ≤ breaker)
    (hp : l.pending = f :: rest) : l.flow.may_send (Frame.payload_len f) = true := by
  have htotal := h.total hfits
  have hunacked := h.unacked
  rw [hp, List.map_cons, payload_sum_cons] at htotal
  rw [CreditFlow.may_send_iff h.attached, h.window]
  right
  show l.flow.unacked_sent_bytes + f.body.payload_len ≤ breaker
  omega

theorem Sending.flush (h : l.Sending breaker) : l.flush.Local breaker := by
  have hend : l.flush.Sending breaker := flush_rule (fun _ _ _ _ hp _ hsending => Sending.send hsending hp) h
  obtain ⟨sent, hflushed⟩ := flush_spec h.attached
  have hstop : payload_sum l.flush.log.appended ≤ breaker →
      l.flush.pending = [] ∨ breaker ≤ l.flush.flow.unacked_sent_bytes := by
    intro hfits
    rcases hflushed.stop with hnil | hfull | ⟨f, rest, hp, hno⟩
    · exact .inl hnil
    · exact .inr (h.window ▸ hfull)
    · rw [hend.may_send hfits hp] at hno
      simp at hno
  have hunacked := hend.unacked
  refine ⟨hend.wf, fun hdetached => ?_, fun _ => hend.window, hunacked, hend.sent, ?_, ?_⟩
  · rw [hend.attached] at hdetached
    simp at hdetached
  · intro _ hfits
    have htotal := hend.total hfits
    rcases hstop hfits with hnil | hfull
    · rw [hnil, List.map_nil, payload_sum_nil] at htotal
      omega
    · omega
  · intro _ hshort
    have hle := hend.wf.sent_le
    have htotal := hend.total (by omega)
    have hfloor := hend.floor_le hshort
    rcases hstop (by omega) with hnil | hfull
    · rw [pending_eq_nil_iff, cursor] at hnil
      omega
    · omega

theorem Local.sent_sum (h : l.Local breaker) : payload_sum l.emitted_bodies ≤ payload_sum l.log.appended :=
  payload_sum_le (h.sent.trans (List.take_sublist _ _))

theorem Local.append (h : l.Local breaker) (body : FrameBody) : (l.append body).Local breaker := by
  have hsum := h.sent_sum
  have hunacked := h.unacked
  have htake : (l.log.append body).appended.take l.flow.sent_hi = l.log.appended.take l.flow.sent_hi :=
    List.take_append_of_le_length h.wf.sent_le
  rcases append_cases h.wf body with ⟨heq, hnot⟩ | ⟨hatt, hhi, hmay, hp, heq⟩
  · -- It stays behind: then the link is not attached, or the output has outgrown the window.
    have hlate : l.flow.attached = true →
        payload_sum l.log.appended + body.payload_len ≤ breaker → breaker ≤ payload_sum l.log.appended := by
      intro hatt hfits
      by_contra hshort
      have hhi := h.caught_up hatt (by omega)
      refine hnot ⟨hatt, hhi, ?_⟩
      rw [CreditFlow.may_send_iff hatt, h.window hatt]
      right
      omega
    rw [heq]
    refine ⟨h.wf.extend body, h.idle, h.window, h.unacked, ?_, ?_, ?_⟩
    · show l.emitted_bodies.Sublist ((l.log.append body).appended.take l.flow.sent_hi)
      rw [htake]
      exact h.sent
    · intro hatt hfits
      have hfits' : payload_sum l.log.appended + body.payload_len ≤ breaker := by
        simpa [AckLog.append] using hfits
      have hsettled := h.settled hatt (by omega)
      have hfull := hlate hatt hfits'
      show payload_sum l.emitted_bodies = payload_sum (l.log.appended ++ [body])
      rw [payload_sum_append, payload_sum_cons, payload_sum_nil, hsettled]
      omega
    · intro hatt hshort
      have hshort' : payload_sum l.log.appended + body.payload_len < breaker := by
        simpa [AckLog.append] using hshort
      have hfull := hlate hatt (by omega)
      omega
  · rw [heq]
    have hextended : (({ l with log := l.log.append body } : Link).send
        ⟨l.log.high + 1, body⟩).Wf := (h.wf.extend body).send hp
    have hsent_hi := send_sent_hi hp
    refine ⟨hextended, fun hdetached => ?_, fun _ => h.window hatt, ?_, ?_, ?_, ?_⟩
    · have hstill : l.flow.attached = false := hdetached
      rw [hatt] at hstill
      simp at hstill
    · rw [send_unacked, send_emitted_bodies, payload_sum_append, payload_sum_cons, payload_sum_nil]
      exact Nat.add_le_add hunacked (Nat.le_refl _)
    · apply sent_send hp
      show l.emitted_bodies.Sublist ((l.log.append body).appended.take l.flow.sent_hi)
      rw [htake]
      exact h.sent
    · intro _ hfits
      have hfits' : payload_sum l.log.appended + body.payload_len ≤ breaker := by
        simpa [AckLog.append] using hfits
      have hsettled := h.settled hatt (by omega)
      rw [send_emitted_bodies]
      show payload_sum (l.emitted_bodies ++ [body]) = payload_sum (l.log.appended ++ [body])
      rw [payload_sum_append, payload_sum_append, hsettled]
    · intro _ _
      rw [hsent_hi, send_log, AckLog.append_high]

theorem Local.attach (h : l.Local breaker) (hidle : l.flow.attached = false) :
    (l.attach 1 0 breaker).Local breaker := by
  obtain ⟨hflow, hemitted, hfloor⟩ := h.idle hidle
  have hfirst : ¬ ((1 : ℕ) = 0 ∨ 1 < l.flow.attach_gen) := by
    rw [hflow]
    simp [CreditFlow.new]
  have hbodies : l.emitted_bodies = [] := by
    rw [emitted_bodies, hemitted]
    rfl
  rw [Link.attach, if_neg hfirst]
  apply Sending.flush
  refine ⟨Wf.fresh l 1 0 breaker, rfl, rfl, Nat.zero_le _, ?_, ?_, ?_⟩
  · show l.emitted_bodies.Sublist _
    rw [hbodies]
    exact List.nil_sublist _
  · intro _
    rw [pending_bodies]
    show payload_sum l.emitted_bodies + payload_sum (l.log.appended.drop (max _ l.log.floor)) = _
    rw [hbodies, hfloor]
    show 0 + payload_sum (l.log.appended.drop (max (min 0 l.log.high) 0)) = _
    rw [Nat.zero_min, Nat.max_self, List.drop_zero, Nat.zero_add]
    rfl
  · intro _
    show l.log.floor ≤ _
    rw [hfloor]
    exact Nat.zero_le _

theorem Local.ack (h : l.Local breaker) (acked_seq : ℕ) : (l.ack 1 acked_seq breaker).Local breaker := by
  rw [Link.ack]
  split_ifs with hstale
  · exact h
  · have hatt : l.flow.attached = true := by
      by_contra hdetached
      obtain ⟨hflow, -⟩ := h.idle (Bool.eq_false_of_not_eq_true hdetached)
      rw [hflow] at hstale
      exact hstale (by simp [CreditFlow.new])
    apply Sending.flush
    refine ⟨h.wf.acked acked_seq breaker, hatt, rfl, ?_, h.sent, ?_, ?_⟩
    · exact Nat.le_trans (Nat.sub_le _ _) h.unacked
    · intro hfits
      have hsettled : payload_sum l.emitted_bodies = payload_sum l.log.appended := h.settled hatt hfits
      have hcursor : l.flow.sent_hi ≤ (l.acked acked_seq breaker).cursor := Nat.le_max_left _ _
      have hrest : payload_sum (l.log.appended.drop (l.acked acked_seq breaker).cursor)
          ≤ payload_sum (l.log.appended.drop l.flow.sent_hi) :=
        payload_sum_le (List.drop_sublist_drop_left _ hcursor)
      have hparts : payload_sum (l.log.appended.take l.flow.sent_hi)
          + payload_sum (l.log.appended.drop l.flow.sent_hi) = payload_sum l.log.appended := by
        rw [← payload_sum_append, List.take_append_drop]
      have hsent := payload_sum_le h.sent
      rw [pending_bodies]
      show payload_sum l.emitted_bodies + payload_sum (l.log.appended.drop (l.acked acked_seq breaker).cursor)
          = payload_sum l.log.appended
      omega
    · intro hshort
      have hhi : l.flow.sent_hi = l.log.high := h.caught_up hatt hshort
      show max l.log.floor (min acked_seq l.log.high) ≤ l.flow.sent_hi
      rw [hhi]
      exact Nat.max_le.2 ⟨l.log.floor_le, Nat.min_le_right _ _⟩

theorem Local.step (h : l.Local breaker) (hstep : l.Step e l') (he : l.LocalEvent breaker e) : l'.Local breaker := by
  obtain ⟨hattach, hack, hdetach⟩ := he
  cases hstep with
  | attach generation from_seq window_bytes =>
    obtain ⟨heq, hidle⟩ := hattach _ rfl
    obtain ⟨rfl, rfl, rfl⟩ : generation = 1 ∧ from_seq = 0 ∧ window_bytes = breaker := by
      simpa using heq
    exact h.attach hidle
  | ack generation acked_seq credit_bytes final_ack =>
    obtain ⟨hgen, hcredit⟩ := hack _ rfl
    obtain rfl : generation = 1 := hgen
    obtain rfl : credit_bytes = breaker := hcredit
    exact h.ack acked_seq
  | detach => exact absurd rfl hdetach
  | append _ => exact h.append _
  | quiet _ => exact h

theorem Local.step_attached (h : l.Local breaker) (hstep : l.Step e l') (he : l.LocalEvent breaker e) :
    l'.flow.attached = (l.flow.attached || e.attach?.isSome) := by
  obtain ⟨hattach, -, hdetach⟩ := he
  cases hstep with
  | attach generation from_seq window_bytes =>
    obtain ⟨heq, hidle⟩ := hattach _ rfl
    obtain ⟨hflow, -, -⟩ := h.idle hidle
    have hcurrent : ¬ (generation = 0 ∨ generation < l.flow.attach_gen) := by
      simp only [Prod.mk.injEq] at heq
      rw [hflow]
      simp [CreditFlow.new, heq.1]
    rw [Link.attach, if_neg hcurrent, flush_attached]
    simp [fresh, PumpEvent.attach?]
  | ack generation acked_seq credit_bytes final_ack =>
    rw [Link.ack]
    split_ifs
    · simp [PumpEvent.attach?]
    · rw [flush_attached]
      simp [acked, PumpEvent.attach?]
  | detach => exact absurd rfl hdetach
  | @append _ body hcarries =>
    have hplain : e.attach? = none := by
      cases e with
      | finish duration_ms => rfl
      | wake event =>
        cases event with
        | command cmd => exact hcarries.elim
        | _ => rfl
    rw [hplain, Link.append]
    split_ifs <;> simp
  | quiet hquiet =>
    have hplain : e.attach? = none := by
      cases e with
      | finish duration_ms => rfl
      | wake event =>
        cases event with
        | command cmd =>
          cases cmd with
          | none => rfl
          | some cmd =>
            cases cmd with
            | cancel => rfl
            | _ => exact hquiet.elim
        | _ => rfl
    simp [hplain]

end Local

end Link

end OpenGeni.Agent
