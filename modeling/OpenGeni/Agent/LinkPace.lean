/-
How far the link runs ahead of its consumer.

A consumer that acknowledges credit only leaves the floor at zero, and the ledger of the
flow is all the payload sent since the start of the attachment. Against it stand the window
in force, which the consumer counts from the start of the op, and the frontier `n` of the
frames the consumer has applied. `Paced` relates the three: what was sent above the frontier
fits one window, and the window in force is at most one window beyond the payload that the
consumer has of this attachment. Moving the frontier, sending, and starting an attachment
keep it; an ack keeps it if it grants no more than that.
-/
import OpenGeni.Agent.JobOrder

namespace OpenGeni.Agent

open OpenGeni.Lib OpenGeni.Engine

namespace Link

/-- The payload of the frames numbered in `(lo, hi]`. -/
def payload (l : Link) (lo hi : ℕ) : ℕ := l.log.weight FrameBody.payload_len lo hi

section Payload

variable {l : Link} {lo mid hi : ℕ}

theorem payload_eq_zero (h : hi ≤ lo) : l.payload lo hi = 0 := AckLog.weight_eq_zero _ _ h

theorem payload_split (hlo : lo ≤ mid) (hhi : mid ≤ hi) : l.payload lo hi = l.payload lo mid + l.payload mid hi :=
  AckLog.weight_split _ _ hlo hhi

theorem payload_mono (hhi : mid ≤ hi) : l.payload lo mid ≤ l.payload lo hi := by
  by_cases hlo : lo ≤ mid
  · rw [payload_split hlo hhi]
    exact Nat.le_add_right _ _
  · rw [payload_eq_zero (Nat.le_of_not_le hlo)]
    exact Nat.zero_le _

theorem payload_succ {body : FrameBody} (h : l.log.appended[hi]? = some body) :
    l.payload hi (hi + 1) = body.payload_len := by
  obtain ⟨hlt, hget⟩ := List.getElem?_eq_some_iff.1 h
  have hone : l.log.between hi (hi + 1) = [body] := by
    rw [AckLog.between, List.drop_take, Nat.add_sub_cancel_left, List.drop_eq_getElem_cons hlt, hget]
    rfl
  rw [payload, AckLog.weight, hone, List.map_singleton, List.sum_singleton]

end Payload

/-- The link is paced by a window and the frontier `n` of its consumer. -/
structure Paced (window n : ℕ) (l : Link) : Prop where
  wf : l.Wf
  floor : l.log.floor = 0
  from_le : l.history.attach_from ≤ n
  frontier_le : n ≤ l.log.high
  ledger : l.flow.unacked_sent_bytes = l.payload l.history.attach_from l.flow.sent_hi
  /-- What was sent above the frontier fits one window. -/
  ahead : l.payload n l.flow.sent_hi ≤ window
  /-- The window in force is one window beyond what the consumer has of the attachment. -/
  grant : l.flow.window_bytes ≤ window + l.payload l.history.attach_from n
  genuine : ∀ f ∈ l.history.emitted, 0 < f.seq ∧ l.log.appended[f.seq - 1]? = some f.body

section Paced

variable {l l' : Link} {window n n' : ℕ} {e : PumpEvent}

theorem init_paced (window : ℕ) : Paced window 0 init where
  wf := init_wf
  floor := rfl
  from_le := le_rfl
  frontier_le := le_rfl
  ledger := rfl
  ahead := Nat.zero_le _
  grant := Nat.zero_le _
  genuine := by
    intro f hf
    cases hf

theorem Paced.cursor (h : l.Paced window n) : l.cursor = l.flow.sent_hi := by
  rw [Link.cursor, h.floor, Nat.max_zero]

/-- **Sending** what the window in force lets through. -/
theorem Paced.send (h : l.Paced window n) {f : Frame} {rest : List Frame} (hatt : l.flow.attached = true)
    (hp : l.pending = f :: rest) (hmay : l.flow.may_send (Frame.payload_len f) = true) :
    (l.send f).Paced window n := by
  have hseq : f.seq = l.flow.sent_hi + 1 := by rw [pending_seq hp, h.cursor]
  have hbody : l.log.appended[f.seq - 1]? = some f.body := pending_body hp
  have hlen : l.payload l.flow.sent_hi (l.flow.sent_hi + 1) = Frame.payload_len f := by
    apply payload_succ
    rw [hseq, Nat.add_sub_cancel] at hbody
    exact hbody
  have hsent : (l.send f).flow.sent_hi = l.flow.sent_hi + 1 := by rw [send_sent_hi hp, hseq]
  have hcharge : l.payload l.history.attach_from (l.flow.sent_hi + 1) =
      l.flow.unacked_sent_bytes + Frame.payload_len f := by
    rw [payload_split h.wf.from_le (Nat.le_succ _), hlen, h.ledger]
  refine ⟨h.wf.send hp, h.floor, h.from_le, h.frontier_le, ?_, ?_, h.grant, ?_⟩
  · rw [hsent]
    exact hcharge.symm
  · rw [hsent]
    show l.payload n (l.flow.sent_hi + 1) ≤ window
    by_cases hahead : n ≤ l.flow.sent_hi
    · have hsplit := payload_split (l := l) h.from_le hahead
      have hnext : l.payload n (l.flow.sent_hi + 1) = l.payload n l.flow.sent_hi + Frame.payload_len f := by
        rw [payload_split hahead (Nat.le_succ _), hlen]
      have hbefore := h.ahead
      have hgrant := h.grant
      have hledger := h.ledger
      rcases (CreditFlow.may_send_iff hatt _).1 hmay with hzero | hfit
      · omega
      · omega
    · rw [payload_eq_zero (by omega)]
      exact Nat.zero_le _
  · intro g hg
    rcases List.mem_append.1 hg with hbefore | hnew
    · exact h.genuine g hbefore
    · obtain rfl : g = f := List.mem_singleton.1 hnew
      exact ⟨by omega, hbody⟩

@[simp] theorem flush_attach_from : l.flush.history.attach_from = l.history.attach_from :=
  flush_rule (P := fun l' => l'.history.attach_from = l.history.attach_from) (fun _ _ _ _ _ _ h => h) rfl

theorem Paced.flush (h : l.Paced window n) : l.flush.Paced window n :=
  flush_rule (fun _ _ _ hatt hp hmay hpaced => Paced.send hpaced hatt hp hmay) h

theorem Paced.extend (h : l.Paced window n) (body : FrameBody) :
    ({ l with log := l.log.append body } : Link).Paced window n := by
  have hsame : ∀ {lo hi : ℕ}, hi ≤ l.log.high →
      ({ l with log := l.log.append body } : Link).payload lo hi = l.payload lo hi :=
    fun hhi => AckLog.append_weight _ _ body hhi
  refine ⟨h.wf.extend body, h.floor, h.from_le, ?_, ?_, ?_, ?_, ?_⟩
  · show n ≤ (l.log.append body).high
    rw [AckLog.append_high]
    exact Nat.le_succ_of_le h.frontier_le
  · exact h.ledger.trans (hsame h.wf.sent_le).symm
  · exact (hsame h.wf.sent_le).le.trans h.ahead
  · exact h.grant.trans_eq (congrArg (window + ·) (hsame h.frontier_le).symm)
  · intro f hf
    obtain ⟨hpos, hbody⟩ := h.genuine f hf
    refine ⟨hpos, ?_⟩
    show (l.log.appended ++ [body])[f.seq - 1]? = some f.body
    rw [List.getElem?_append_left (List.getElem?_eq_some_iff.1 hbody).1]
    exact hbody

theorem Paced.append (h : l.Paced window n) (body : FrameBody) : (l.append body).Paced window n := by
  rcases append_cases h.wf body with ⟨heq, -⟩ | ⟨hatt, -, hmay, hp, heq⟩
  · rw [heq]
    exact h.extend body
  · rw [heq]
    exact (h.extend body).send hatt hp hmay

theorem Paced.detach (h : l.Paced window n) : l.detach.Paced window n :=
  ⟨h.wf.detach, h.floor, h.from_le, h.frontier_le, h.ledger, h.ahead, h.grant, h.genuine⟩

/-- **A new attachment** starts at or below the frontier, under one window. -/
theorem Paced.attach (h : l.Paced window n) (generation : ℕ) {from_seq granted : ℕ} (hfrom : from_seq ≤ n)
    (hgranted : granted ≤ window) : (l.attach generation from_seq granted).Paced window n := by
  rw [Link.attach]
  split_ifs
  · exact h
  · apply Paced.flush
    have hstart : min from_seq l.log.high ≤ n := (Nat.min_le_left _ _).trans hfrom
    refine ⟨Wf.fresh l generation from_seq granted, h.floor, hstart, h.frontier_le, ?_, ?_, ?_, h.genuine⟩
    · exact (payload_eq_zero le_rfl).symm
    · rw [payload_eq_zero (show (l.fresh generation from_seq granted).flow.sent_hi ≤ n from hstart)]
      exact Nat.zero_le _
    · exact hgranted.trans (Nat.le_add_right _ _)

/-- **An ack of credit** that grants one window beyond what the consumer has of the attachment. -/
theorem Paced.ack (h : l.Paced window n) (generation : ℕ) {credit : ℕ}
    (hcredit : credit ≤ window + l.payload l.history.attach_from n) :
    (l.ack generation 0 credit).Paced window n := by
  rw [Link.ack]
  split_ifs
  · exact h
  · apply Paced.flush
    -- nothing is acknowledged, so nothing is freed
    have hfreed : l.log.weight FrameBody.payload_len l.log.floor (min 0 l.flow.sent_hi) = 0 := by
      apply AckLog.weight_eq_zero
      rw [Nat.zero_min]
      exact Nat.zero_le _
    refine ⟨h.wf.acked 0 credit, ?_, h.from_le, h.frontier_le, ?_, h.ahead, hcredit, h.genuine⟩
    · show max l.log.floor (min 0 l.log.high) = 0
      rw [h.floor, Nat.zero_min, Nat.max_zero]
    · show l.flow.unacked_sent_bytes - _ = _
      rw [hfreed, Nat.sub_zero]
      exact h.ledger

/-- **The frontier moves.** -/
theorem Paced.advance (h : l.Paced window n) (hn : n ≤ n') (hhigh : n' ≤ l.log.high) : l.Paced window n' := by
  refine ⟨h.wf, h.floor, h.from_le.trans hn, hhigh, h.ledger, ?_, ?_, h.genuine⟩
  · refine le_trans ?_ h.ahead
    by_cases hsent : n' ≤ l.flow.sent_hi
    · rw [payload_split hn hsent]
      exact Nat.le_add_left _ _
    · rw [payload_eq_zero (Nat.le_of_not_le hsent)]
      exact Nat.zero_le _
  · exact h.grant.trans (Nat.add_le_add_left (payload_mono hn) _)

theorem Paced.step (h : l.Paced window n) (hstep : l.Step e l') (hattach : e.attach? = none) (hack : e.ack? = none) :
    l'.Paced window n := by
  cases hstep with
  | attach generation from_seq window_bytes => cases hattach
  | ack generation acked_seq credit_bytes final_ack => cases hack
  | detach => exact h.detach
  | append _ => exact h.append _
  | quiet _ => exact h

/-- Such a wakeup leaves the attachment and its window as they are. -/
structure SameWindow (l l' : Link) : Prop where
  attach_gen : l'.flow.attach_gen = l.flow.attach_gen
  window_bytes : l'.flow.window_bytes = l.flow.window_bytes
  attach_from : l'.history.attach_from = l.history.attach_from
  before : l'.payload 0 l.history.attach_from = l.payload 0 l.history.attach_from
  attached : l'.flow.attached = true → l.flow.attached = true

theorem Paced.step_sameWindow (h : l.Paced window n) (hstep : l.Step e l') (hattach : e.attach? = none)
    (hack : e.ack? = none) : l.SameWindow l' := by
  cases hstep with
  | attach generation from_seq window_bytes => cases hattach
  | ack generation acked_seq credit_bytes final_ack => cases hack
  | detach =>
    refine ⟨rfl, rfl, rfl, rfl, ?_⟩
    intro hatt
    cases hatt
  | @append _ body _ =>
    have hbefore : (l.log.append body).weight FrameBody.payload_len 0 l.history.attach_from =
        l.payload 0 l.history.attach_from :=
      AckLog.append_weight _ _ body (h.from_le.trans h.frontier_le)
    rcases append_cases h.wf body with ⟨heq, -⟩ | ⟨-, -, -, -, heq⟩
    · rw [heq]
      exact ⟨rfl, rfl, rfl, hbefore, id⟩
    · rw [heq]
      exact ⟨rfl, rfl, rfl, hbefore, id⟩
  | quiet _ => exact ⟨rfl, rfl, rfl, rfl, id⟩

/-! ## What the consumer lacks -/

theorem Paced.sent_in_attachment (h : l.Paced window n) {k : ℕ} (hlow : l.history.attach_from < k)
    (hhigh : k ≤ l.flow.sent_hi) : ∃ e ∈ l.history.attachment, e.frame.seq = k := by
  have hlen : l.flow.sent_hi ≤ l.log.high := h.wf.sent_le
  have hget : ∃ f, (framesBetween l.log l.history.attach_from l.flow.sent_hi)[k - l.history.attach_from - 1]? = some f ∧
      f.seq = k := by
    have hlt : k - 1 < l.log.appended.length := by
      rw [AckLog.high] at hlen
      omega
    refine ⟨⟨k, l.log.appended[k - 1]⟩, ?_, rfl⟩
    rw [framesBetween, List.getElem?_take, if_pos (by omega), framesAbove, numberFrom_getElem?, List.getElem?_drop]
    have hindex : l.history.attach_from + (k - l.history.attach_from - 1) = k - 1 := by omega
    rw [hindex, List.getElem?_eq_getElem hlt, Option.map_some]
    congr 2
    omega
  obtain ⟨f, hf, hseq⟩ := hget
  have hsent := h.wf.sent
  rw [h.floor, Nat.max_zero] at hsent
  rw [← hsent] at hf
  obtain ⟨e, he, rfl⟩ := List.mem_map.1 (List.mem_of_getElem? hf)
  exact ⟨e, (List.mem_filter.1 he).1, hseq⟩

theorem Paced.lacking_le (h : l.Paced window n) {lacks : Emission → Bool}
    (hlacks : ∀ e, lacks e = true → n < e.frame.seq) :
    ((l.history.attachment.filter lacks).map fun e => Frame.payload_len e.frame).sum ≤ window := by
  refine le_trans ?_ h.ahead
  have hsent := h.wf.sent
  rw [h.floor, Nat.max_zero] at hsent
  have habove : (((outstanding 0 l.history.attachment).filter fun e => decide (n < e.frame.seq)).map
      fun e => Frame.payload_len e.frame).sum = l.payload n l.flow.sent_hi := by
    have hframes : ((outstanding 0 l.history.attachment).filter fun e => decide (n < e.frame.seq)).map Emission.frame =
        framesBetween l.log n l.flow.sent_hi := by
      have hfilter := framesBetween_filter l.log l.history.attach_from l.flow.sent_hi n
      rw [Nat.max_eq_right h.from_le, ← hsent, List.filter_map] at hfilter
      exact hfilter
    rw [payload, ← framesBetween_payload, ← hframes, List.map_map]
    rfl
  rw [← habove]
  refine List.Sublist.sum_le_sum (List.Sublist.map _ ?_) fun _ _ => Nat.zero_le _
  -- what the consumer lacks is a part of what is above its frontier
  have hpart : l.history.attachment.filter lacks =
      (((outstanding 0 l.history.attachment).filter fun e => decide (n < e.frame.seq))).filter lacks := by
    rw [outstanding, List.filter_filter, List.filter_filter]
    refine List.filter_congr fun e _ => ?_
    by_cases hlack : lacks e = true
    · have hn := hlacks e hlack
      simp [hn, Nat.zero_lt_of_lt hn]
    · simp [Bool.eq_false_iff.2 hlack]
  rw [hpart]
  exact List.filter_sublist

end Paced

end Link

end OpenGeni.Agent
