/-
The pump's byte ledger against what it has in flight.

The flow counts `unacked_sent_bytes` by itself: it adds each frame sent and
subtracts what an ack frees. What an ack frees is recomputed from the retention
log, over everything retained between the floor and the ack. The two agree as long
as everything retained there was sent in this attachment.

It need not be. An attachment may start above the floor (the last ack of the one
before was lost), and then an ack frees frames this attachment never sent. Their
bytes are released from the ledger although they were never charged to it, and the
window admits as much again. `AckInStep` is the condition that an ack frees no such
payload, or else that nothing it could be mistaken for is still in flight; under it
the ledger is exact and the window holds in every reachable state, and a run of
seven wakeups without it oversteps the window.
-/
import OpenGeni.Agent.JobLink

namespace OpenGeni.Agent

open OpenGeni.Lib OpenGeni.Engine

/-- No emission with payload took the unacknowledged payload of its attachment
above the window in force. -/
def WithinWindow (attachment : List Emission) : Prop :=
  ∀ (sent : List Emission) (e : Emission), sent ++ [e] <+: attachment → 0 < Frame.payload_len e.frame →
    Link.outstanding_bytes e.floor (sent ++ [e]) ≤ e.window_bytes

theorem withinWindow_nil : WithinWindow [] := by
  intro sent e hpre _
  exact absurd (List.prefix_nil.1 hpre) (by simp)

theorem WithinWindow.concat {attachment : List Emission} {e : Emission} (h : WithinWindow attachment)
    (he : 0 < Frame.payload_len e.frame → Link.outstanding_bytes e.floor (attachment ++ [e]) ≤ e.window_bytes) :
    WithinWindow (attachment ++ [e]) := by
  intro sent e' hpre hpos
  rcases List.prefix_concat_iff.1 hpre with hall | hpart
  · obtain ⟨rfl, hlast⟩ := List.append_inj' hall rfl
    obtain rfl : e' = e := List.singleton_inj.1 hlast
    exact he hpos
  · exact h sent e' hpart hpos

namespace Pump

/-- The claim about a state: while attached, the flow's ledger is the payload of
the frames emitted in the current attachment and not acknowledged; and no emission
overstepped the window. -/
structure CreditSafe (p : Pump) : Prop where
  ledger : p.flow.attached = true →
    p.flow.unacked_sent_bytes = Link.outstanding_bytes p.retention.floor p.history.attachment
  window : WithinWindow p.history.attachment

/-- The condition on a step. An ack of the current generation, while attached,
frees no payload at or below the seq the attachment started from; or it leaves
nothing emitted in the attachment unacknowledged but frames without payload. -/
def AckInStep (p : Pump) (e : PumpEvent) : Prop := ∀ ack ∈ e.ack?, ack.1 = p.flow.attach_gen → p.flow.attached = true →
    p.retention.payload_bytes_in_range p.retention.floor (min p.history.attach_from ack.2.1) = 0 ∨
      p.retention.payload_bytes_in_range (max p.history.attach_from ack.2.1) p.flow.sent_hi = 0

instance (p : Pump) (e : PumpEvent) : Decidable (p.AckInStep e) :=
  inferInstanceAs (Decidable (∀ ack ∈ e.ack?, _))

end Pump

namespace Link

variable {l l' : Link} {e : PumpEvent}

structure Accounted (l : Link) : Prop where
  wf : l.Wf
  ledger : l.flow.attached = true → l.flow.unacked_sent_bytes = outstanding_bytes l.log.floor l.history.attachment
  window : WithinWindow l.history.attachment

theorem init_accounted : Accounted init := ⟨init_wf, fun hatt => absurd hatt Bool.false_ne_true, withinWindow_nil⟩

/-! ## Steps that send -/

theorem Accounted.send (h : l.Accounted) {f : Frame} {rest : List Frame}
    (hatt : l.flow.attached = true) (hp : l.pending = f :: rest)
    (hmay : l.flow.may_send (Frame.payload_len f) = true) : (l.send f).Accounted := by
  have hseq := pending_seq hp
  have hfloor : l.log.floor < f.seq := by
    have : l.log.floor ≤ l.cursor := Nat.le_max_right _ _
    omega
  have hcharge : outstanding_bytes l.log.floor (l.send f).history.attachment
      = l.flow.unacked_sent_bytes + Frame.payload_len f := by
    rw [h.ledger hatt]
    exact outstanding_bytes_concat _ hfloor
  refine ⟨h.wf.send hp, fun _ => ?_, ?_⟩
  · rw [send_unacked, send_log, hcharge]
  · refine h.window.concat fun hpos => ?_
    show outstanding_bytes l.log.floor (l.send f).history.attachment ≤ l.flow.window_bytes
    rw [hcharge]
    rcases (CreditFlow.may_send_iff hatt _).1 hmay with hzero | hfit
    · exact absurd hzero hpos.ne'
    · exact hfit

theorem Accounted.flush (h : l.Accounted) : l.flush.Accounted :=
  flush_rule (fun _ _ _ hatt hp hmay hacc => Accounted.send hacc hatt hp hmay) h

theorem Accounted.append (h : l.Accounted) (body : FrameBody) : (l.append body).Accounted := by
  have hext : ({ l with log := l.log.append body } : Link).Accounted := ⟨h.wf.extend body, h.ledger, h.window⟩
  rcases append_cases h.wf body with ⟨heq, -⟩ | ⟨hatt, -, hmay, hp, heq⟩
  · rw [heq]; exact hext
  · rw [heq]; exact hext.send hatt hp hmay

theorem Accounted.attach (h : l.Accounted) (generation from_seq window : ℕ) :
    (l.attach generation from_seq window).Accounted := by
  rw [Link.attach]
  split_ifs
  · exact h
  · exact Accounted.flush ⟨Wf.fresh l generation from_seq window, fun _ => rfl, withinWindow_nil⟩

/-! ## Acks -/

/-- **What an ack frees is what it acknowledges** exactly under the condition on the
seqs below the start of the attachment. Both sides are weights of ranges of the
sequence; the cases are where the ack falls against the floor, the start of the
attachment and the cursor. -/
theorem Accounted.acked_ledger_iff (h : l.Accounted) (hatt : l.flow.attached = true) (acked_seq credit : ℕ) :
    (l.acked acked_seq credit).flow.unacked_sent_bytes
        = outstanding_bytes (l.acked acked_seq credit).log.floor l.history.attachment ↔
      l.log.weight FrameBody.payload_len l.log.floor (min l.history.attach_from acked_seq) = 0 ∨
        l.log.weight FrameBody.payload_len
          (max (max l.history.attach_from acked_seq) l.log.floor) l.flow.sent_hi = 0 := by
  have hafter := (h.wf.acked acked_seq credit).bytes
  have hbefore := (h.ledger hatt).trans h.wf.bytes
  have hsent := h.wf.sent_le
  have hzero : ∀ lo hi : ℕ, hi ≤ lo → l.log.weight FrameBody.payload_len lo hi = 0 :=
    fun lo hi hle => AckLog.weight_eq_zero _ _ hle
  have hsplit : ∀ lo mid hi : ℕ, lo ≤ mid → mid ≤ hi →
      l.log.weight FrameBody.payload_len lo hi = l.log.weight FrameBody.payload_len lo mid
        + l.log.weight FrameBody.payload_len mid hi :=
    fun lo mid hi hlo hhi => AckLog.weight_split _ _ hlo hhi
  have hacked : (l.acked acked_seq credit).flow.unacked_sent_bytes = l.flow.unacked_sent_bytes
        - l.log.weight FrameBody.payload_len l.log.floor (min acked_seq l.flow.sent_hi) := rfl
  have hafter' : outstanding_bytes (l.acked acked_seq credit).log.floor l.history.attachment
      = l.log.weight FrameBody.payload_len (max l.history.attach_from (max l.log.floor (min acked_seq l.log.high)))
          l.flow.sent_hi := hafter
  rw [hacked, hafter', hbefore]
  by_cases hold : acked_seq ≤ l.log.floor
  · -- Nothing new is acknowledged.
    have hsame : max l.log.floor (min acked_seq l.log.high) = l.log.floor := by omega
    rw [hsame, hzero l.log.floor (min acked_seq l.flow.sent_hi) (by omega), Nat.sub_zero]
    exact iff_of_true rfl (Or.inl (hzero _ _ (by omega)))
  · by_cases hall : l.flow.sent_hi ≤ acked_seq
    · -- Everything in flight is acknowledged.
      refine iff_of_true ?_ (Or.inr (hzero _ _ (by omega)))
      rw [Nat.min_eq_right hall, hzero (max l.history.attach_from
        (max l.log.floor (min acked_seq l.log.high))) l.flow.sent_hi (by omega)]
      by_cases hstart : max l.history.attach_from l.log.floor ≤ l.flow.sent_hi
      · rw [hsplit l.log.floor _ _ (Nat.le_max_right l.history.attach_from _) hstart]
        omega
      · rw [hzero (max l.history.attach_from l.log.floor) l.flow.sent_hi (by omega), Nat.zero_sub]
    · have hcap : min acked_seq l.log.high = acked_seq := by omega
      rw [hcap, Nat.min_eq_left (by omega : acked_seq ≤ l.flow.sent_hi)]
      by_cases hbelow : acked_seq ≤ l.history.attach_from
      · -- The ack falls below the start of the attachment: it frees nothing in flight.
        have hbase : max l.history.attach_from l.log.floor = l.history.attach_from := by omega
        have hbase' : max l.history.attach_from (max l.log.floor acked_seq) = l.history.attach_from := by omega
        rw [Nat.min_eq_right hbelow, Nat.max_eq_left hbelow, hbase, hbase']
        omega
      · -- It falls inside the attachment.
        have hbase' : max l.history.attach_from (max l.log.floor acked_seq) = acked_seq := by omega
        rw [Nat.min_eq_left (by omega : l.history.attach_from ≤ acked_seq), Nat.max_assoc,
          Nat.max_comm acked_seq, hbase',
          hsplit (max l.history.attach_from l.log.floor) acked_seq l.flow.sent_hi (by omega) (by omega)]
        by_cases hlow : l.history.attach_from ≤ l.log.floor
        · rw [Nat.max_eq_right hlow, hzero l.log.floor l.history.attach_from hlow]
          omega
        · rw [Nat.max_eq_left (by omega), hsplit l.log.floor l.history.attach_from acked_seq (by omega) (by omega)]
          omega

theorem Accounted.step (h : l.Accounted) (hstep : l.Step e l')
    (hok : ∀ ack ∈ e.ack?, ack.1 = l.flow.attach_gen → l.flow.attached = true →
      l.log.weight FrameBody.payload_len l.log.floor (min l.history.attach_from ack.2.1) = 0 ∨
        l.log.weight FrameBody.payload_len (max (max l.history.attach_from ack.2.1) l.log.floor) l.flow.sent_hi = 0) :
    l'.Accounted := by
  cases hstep with
  | attach generation from_seq window_bytes => exact h.attach generation from_seq window_bytes
  | ack generation acked_seq credit_bytes final_ack =>
    rw [Link.ack]
    split_ifs with hstale
    · exact h
    · obtain rfl : generation = l.flow.attach_gen := not_not.1 hstale
      refine Accounted.flush ⟨h.wf.acked acked_seq credit_bytes, fun hatt => ?_, h.window⟩
      exact (h.acked_ledger_iff hatt acked_seq credit_bytes).2 (hok _ rfl rfl hatt)
  | detach => exact ⟨h.wf.detach, fun hatt => absurd hatt Bool.false_ne_true, h.window⟩
  | append _ => exact h.append _
  | quiet _ => exact h

end Link

namespace Pump

section Runs

variable {blake3 : List UInt8 → List UInt8} {retention : RetentionConfig} {hooks : JobHooks}
  {deadline : Option ℕ} {config : JobConfig} {es : List PumpEvent} {p : Pump}

theorem Models.creditSafe {l : Link} (h : p.Models l) (hacc : l.Accounted) : p.CreditSafe where
  ledger := by
    rw [h.flow, h.retention.floor, h.history]
    exact hacc.ledger
  window := by
    rw [h.history]
    exact hacc.window

theorem AckInStep.link {l : Link} {e : PumpEvent} (h : p.AckInStep e) (hmod : p.Models l)
    (hwf : l.Wf) : ∀ ack ∈ e.ack?, ack.1 = l.flow.attach_gen → l.flow.attached = true →
      l.log.weight FrameBody.payload_len l.log.floor (min l.history.attach_from ack.2.1) = 0 ∨
        l.log.weight FrameBody.payload_len
          (max (max l.history.attach_from ack.2.1) l.log.floor) l.flow.sent_hi = 0 := by
  intro ack hack hgen hatt
  have hcond := h ack hack (by rw [hmod.flow]; exact hgen) (by rw [hmod.flow]; exact hatt)
  rw [RetentionLog.payload_bytes_in_range_refines hmod.retention,
    RetentionLog.payload_bytes_in_range_refines hmod.retention, hmod.flow, hmod.history,
    hmod.retention.floor, Nat.max_self, Nat.min_eq_left hwf.sent_le,
    Nat.min_eq_left (Nat.le_trans (Nat.min_le_left _ _) (Nat.le_trans hwf.from_le hwf.sent_le))] at hcond
  exact hcond

/-- **Credit-window safety.** In every run whose steps meet the condition, in every
state reached: while attached the ledger is the emitted, unacknowledged payload of
the current attachment, and no emission overstepped its window. -/
theorem credit_window_safe (hrun : Run (Restrict (PumpStep blake3) fun p e => p.StepFits blake3 e ∧ p.AckInStep e)
      (new retention hooks deadline config) es p) : p.CreditSafe := by
  obtain ⟨l, hmod, hacc⟩ := pump_run_link Link.init_accounted
    (fun p l e l' hmod hok hacc hstep => hacc.step hstep (hok.link hmod hacc.wf)) hrun
  exact hmod.creditSafe hacc

def creditCheck (p : Pump) (event : Event) : Bool :=
  decide (p.StepFits (fun _ => []) (.wake event)) && decide (p.AckInStep (.wake event))

/-- A consumer attaches, acks, and comes back where its acks had got to. -/
def reattach : List Event := [.oneByte, .oneByte, .command (some (.attach 1 0 4)), .command (some (.ack 1 1 4 false)),
    .command (some .detach), .command (some (.attach 2 1 1)), .command (some (.ack 2 2 1 false))]

theorem credit_window_safe_reattach : ∃ p, Run (Restrict (PumpStep fun _ => []) fun p e =>
        p.StepFits (fun _ => []) e ∧ p.AckInStep e) smallJob (reattach.map .wake) p ∧
      p.CreditSafe := by
  have hsome : (smallJob.service creditCheck reattach).isSome := by decide
  obtain ⟨p, hp⟩ := Option.isSome_iff_exists.1 hsome
  have hrun := service_run (fun _ => [])
    (fun p e => p.StepFits (fun _ => []) e ∧ p.AckInStep e) (fun p event hcheck => by
      rw [creditCheck, Bool.and_eq_true, decide_eq_true_eq, decide_eq_true_eq] at hcheck
      exact hcheck) hp
  exact ⟨p, hrun, credit_window_safe hrun⟩

/-- Four bytes are sent to a first consumer. A second one attaches after seq 2,
because the ack of 2 was lost, with a window of one byte, and acks 2. -/
def lostAck : List Event := [.oneByte, .oneByte, .oneByte, .oneByte, .command (some (.attach 1 0 4)),
    .command (some (.attach 2 2 1)), .command (some (.ack 2 2 1 false))]

/-- **The lost last ack.** The second consumer was sent seq 3. Its ack releases
the two bytes of seqs 1 and 2, which its attachment never sent, and seq 4 goes
out: two bytes are in flight under a window of one, and the ledger shows one. -/
theorem lost_ack_oversteps_window : ∃ p, Run (PumpStep fun _ => []) smallJob (lostAck.map .wake) p ∧
      p.flow.attached = true ∧ p.flow.window_bytes = 1 ∧ p.flow.unacked_sent_bytes = 1 ∧
      Link.outstanding_bytes p.retention.floor p.history.attachment = 2 ∧ ¬ p.CreditSafe := by
  have hreach : (smallJob.service (fun _ _ => true) lostAck).any (fun p => p.flow.attached &&
      p.flow.window_bytes == 1 && p.flow.unacked_sent_bytes == 1 &&
      Link.outstanding_bytes p.retention.floor p.history.attachment == 2) = true := by decide
  obtain ⟨p, hrun, hfacts⟩ := service_reaches hreach
  simp only [Bool.and_eq_true, beq_iff_eq] at hfacts
  obtain ⟨⟨⟨hatt, hwindow⟩, hledger⟩, hflight⟩ := hfacts
  refine ⟨p, hrun, hatt, hwindow, hledger, hflight, fun hsafe => ?_⟩
  rw [hsafe.ledger hatt, hflight] at hledger
  exact absurd hledger (by decide)

end Runs

end Pump

end OpenGeni.Agent
