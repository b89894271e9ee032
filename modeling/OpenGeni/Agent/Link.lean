/-
What the pump is for: the link between a job and its consumer.

The abstract link is a numbered sequence of frame bodies with a cumulative floor,
a credit flow, and what the current attachment has been sent. It knows nothing of
deques, spools, bites or fuel: to flush is to send, in order, what the window
lets through. `JobLink.lean` proves that the pump simulates it, so every property
of the link is a property of the pump.

`flush_rule` is how a property is carried through a flush; `flush_spec` says where
a flush stops.
-/
import OpenGeni.Agent.Job

namespace OpenGeni.Agent

open OpenGeni.Lib OpenGeni.Engine

abbrev Frame.payload_len (f : Frame) : ℕ := f.body.payload_len

/-- The link: the sequence, the flow, and what the consumer was sent. -/
structure Link where
  log : AckLog FrameBody
  flow : CreditFlow
  history : History

namespace Link

/-- The pending-send cursor: nothing at or below it will be sent again. -/
def cursor (l : Link) : ℕ := max l.flow.sent_hi l.log.floor

def pending (l : Link) : List Frame := framesAbove l.log l.cursor

def send (l : Link) (f : Frame) : Link where
  log := l.log
  flow := l.flow.on_sent f.seq (Frame.payload_len f)
  history := { l.history with
    attachment := l.history.attachment ++ [⟨f, l.flow.window_bytes, l.log.floor⟩]
    emitted := l.history.emitted ++ [f] }

/-- What a window with `unacked` bytes in flight lets through of a queue. An
exhausted window stops the queue even in front of a frame without payload. -/
def sendable (window : ℕ) : ℕ → List Frame → List Frame
  | _, [] => []
  | unacked, f :: rest =>
    if window ≤ unacked then []
    else if Frame.payload_len f = 0 ∨ unacked + Frame.payload_len f ≤ window then
      f :: sendable window (unacked + Frame.payload_len f) rest
    else []

def flush (l : Link) : Link := if l.flow.attached then
    (sendable l.flow.window_bytes l.flow.unacked_sent_bytes l.pending).foldl send l
  else l

/-- A new frame goes out at once iff the link is caught up and the window allows. -/
def append (l : Link) (body : FrameBody) : Link := let appended : Link := { l with log := l.log.append body }
  if l.flow.attached && l.flow.sent_hi == l.log.high && l.flow.may_send body.payload_len then
    appended.send ⟨l.log.high + 1, body⟩
  else appended

def fresh (l : Link) (generation from_seq window : ℕ) : Link where
  log := l.log
  flow := ⟨generation, true, window, min from_seq l.log.high, 0⟩
  history := { l.history with attach_from := min from_seq l.log.high, attachment := [] }

def attach (l : Link) (generation from_seq window : ℕ) : Link :=
  if generation = 0 ∨ generation < l.flow.attach_gen then l
  else (l.fresh generation from_seq window).flush

def acked (l : Link) (acked_seq credit : ℕ) : Link where
  log := l.log.ack acked_seq
  flow := { l.flow with
    window_bytes := credit
    unacked_sent_bytes := l.flow.unacked_sent_bytes
      - l.log.weight FrameBody.payload_len l.log.floor (min acked_seq l.flow.sent_hi) }
  history := l.history

def ack (l : Link) (generation acked_seq credit : ℕ) : Link :=
  if generation ≠ l.flow.attach_gen then l else (l.acked acked_seq credit).flush

def detach (l : Link) : Link := { l with flow := l.flow.detach }

def init : Link := ⟨AckLog.empty, .new, ⟨0, [], []⟩⟩

/-! ## Sending in order -/

section Send

variable {l : Link} {f : Frame} {rest : List Frame}

@[simp] theorem send_log : (l.send f).log = l.log := rfl

@[simp] theorem send_attached : (l.send f).flow.attached = l.flow.attached := rfl

@[simp] theorem send_window : (l.send f).flow.window_bytes = l.flow.window_bytes := rfl

@[simp] theorem send_unacked :
    (l.send f).flow.unacked_sent_bytes = l.flow.unacked_sent_bytes + Frame.payload_len f := rfl

@[simp] theorem send_attach_from : (l.send f).history.attach_from = l.history.attach_from := rfl

theorem pending_eq_nil_iff : l.pending = [] ↔ l.log.high ≤ l.cursor := by
  rw [pending, ← List.length_eq_zero_iff, framesAbove_length]
  omega

theorem pending_seq (h : l.pending = f :: rest) : f.seq = l.cursor + 1 := by
  have hnum := framesAbove_numbered l.log l.cursor
  rw [← pending, h] at hnum
  exact hnum.1

theorem cursor_lt_high (h : l.pending = f :: rest) : l.cursor < l.log.high := by
  by_contra hle
  rw [pending_eq_nil_iff.2 (Nat.not_lt.1 hle)] at h
  contradiction

theorem send_sent_hi (h : l.pending = f :: rest) : (l.send f).flow.sent_hi = f.seq := by
  refine CreditFlow.on_sent_sent_hi _ _ ?_
  have hcur : l.flow.sent_hi ≤ l.cursor := Nat.le_max_left _ _
  have := pending_seq h
  omega

theorem send_cursor (h : l.pending = f :: rest) : (l.send f).cursor = l.cursor + 1 := by
  have hcur : l.log.floor ≤ l.cursor := Nat.le_max_right _ _
  rw [cursor, send_sent_hi h, send_log, pending_seq h]
  omega

theorem send_pending (h : l.pending = f :: rest) : (l.send f).pending = rest := by
  rw [pending, send_cursor h, send_log, ← framesAbove_drop]
  show l.pending.drop 1 = rest
  rw [h]
  rfl

end Send

/-! ## Flushing -/

section Flush

variable {l : Link} {f : Frame} {rest : List Frame}

theorem flush_nil (h : l.pending = []) : l.flush = l := by
  rw [flush, h]
  split_ifs <;> rfl

theorem flush_detached (hatt : l.flow.attached = false) : l.flush = l := by
  rw [flush, hatt]
  rfl

theorem flush_exhausted (hfull : l.flow.window_bytes ≤ l.flow.unacked_sent_bytes) : l.flush = l := by
  rw [flush]
  cases hp : l.pending with
  | nil => split_ifs <;> rfl
  | cons f rest =>
    rw [sendable, if_pos hfull]
    split_ifs <;> rfl

theorem flush_blocked (hp : l.pending = f :: rest)
    (hno : l.flow.may_send (Frame.payload_len f) = false) : l.flush = l := by
  by_cases hatt : l.flow.attached = true
  · have hnot : ¬ (Frame.payload_len f = 0 ∨
        l.flow.unacked_sent_bytes + Frame.payload_len f ≤ l.flow.window_bytes) := by
      rw [← CreditFlow.may_send_iff hatt, hno]
      exact Bool.false_ne_true
    rw [flush, if_pos hatt, hp, sendable, if_neg hnot]
    split_ifs <;> rfl
  · exact flush_detached (Bool.not_eq_true _ ▸ hatt)

theorem flush_send (hatt : l.flow.attached = true)
    (hroom : l.flow.unacked_sent_bytes < l.flow.window_bytes) (hp : l.pending = f :: rest)
    (hmay : l.flow.may_send (Frame.payload_len f) = true) : l.flush = (l.send f).flush := by
  have hfit := (CreditFlow.may_send_iff hatt _).1 hmay
  rw [flush, if_pos hatt, hp, sendable, if_neg (Nat.not_le.2 hroom), if_pos hfit,
    List.foldl_cons, flush, send_attached, if_pos hatt, send_pending hp]
  rfl

/-- **The flush rule.** What sending the first pending frame preserves, whenever
the window lets it through, a flush preserves. -/
theorem flush_rule {P : Link → Prop} (hsend : ∀ (l : Link) (f : Frame) (rest : List Frame), l.flow.attached = true →
      l.pending = f :: rest → l.flow.may_send (Frame.payload_len f) = true → P l → P (l.send f))
    (h : P l) : P l.flush := by
  -- Induction on the queue: every send shortens it by its head.
  generalize hq : l.pending = queue
  induction queue generalizing l with
  | nil => rwa [flush_nil hq]
  | cons f rest ih =>
    by_cases hatt : l.flow.attached = true
    · by_cases hroom : l.flow.unacked_sent_bytes < l.flow.window_bytes
      · by_cases hmay : l.flow.may_send (Frame.payload_len f) = true
        · rw [flush_send hatt hroom hq hmay]
          exact ih (hsend l f rest hatt hq hmay h) (send_pending hq)
        · rwa [flush_blocked hq (Bool.not_eq_true _ ▸ hmay)]
      · rwa [flush_exhausted (Nat.not_lt.1 hroom)]
    · rwa [flush_detached (Bool.not_eq_true _ ▸ hatt)]

@[simp] theorem flush_log : l.flush.log = l.log :=
  flush_rule (P := fun l' => l'.log = l.log) (fun _ _ _ _ _ _ h => h) rfl

@[simp] theorem flush_attached : l.flush.flow.attached = l.flow.attached :=
  flush_rule (P := fun l' => l'.flow.attached = l.flow.attached) (fun _ _ _ _ _ _ h => h) rfl

@[simp] theorem flush_window : l.flush.flow.window_bytes = l.flow.window_bytes :=
  flush_rule (P := fun l' => l'.flow.window_bytes = l.flow.window_bytes) (fun _ _ _ _ _ _ h => h) rfl

/-- What a flush of `l` that sends `sent` and ends in `l'` has done. -/
structure Flushed (l : Link) (sent : List Frame) (l' : Link) : Prop where
  queue : l.pending = sent ++ l'.pending
  unacked : l'.flow.unacked_sent_bytes = l.flow.unacked_sent_bytes + (sent.map Frame.payload_len).sum
  idle : sent = [] → l' = l
  /-- It never sends past the window, and it ends with the cursor on the frame sent last. -/
  busy : sent ≠ [] → l'.flow.unacked_sent_bytes ≤ l.flow.window_bytes ∧ l.log.floor ≤ l'.flow.sent_hi
  /-- It sends only while the window is not exhausted. -/
  room : ∀ pre post, sent = pre ++ post → post ≠ [] →
    l.flow.unacked_sent_bytes + (pre.map Frame.payload_len).sum < l.flow.window_bytes
  stop : l'.pending = [] ∨ l.flow.window_bytes ≤ l'.flow.unacked_sent_bytes ∨
    ∃ f rest, l'.pending = f :: rest ∧ l'.flow.may_send (Frame.payload_len f) = false

theorem flushed_nil (heq : l.flush = l) (hstop : l.pending = [] ∨ l.flow.window_bytes ≤ l.flow.unacked_sent_bytes ∨
      ∃ f rest, l.pending = f :: rest ∧ l.flow.may_send (Frame.payload_len f) = false) :
    Flushed l [] l.flush := by
  rw [heq]
  refine ⟨rfl, rfl, fun _ => rfl, fun hne => absurd rfl hne, ?_, hstop⟩
  intro pre post hsplit hne
  exact absurd (List.append_eq_nil_iff.1 hsplit.symm).2 hne

theorem Flushed.cons {sent : List Frame} {l' : Link} (hp : l.pending = f :: rest) (hatt : l.flow.attached = true)
    (hroom : l.flow.unacked_sent_bytes < l.flow.window_bytes)
    (hmay : l.flow.may_send (Frame.payload_len f) = true) (h : Flushed (l.send f) sent l') :
    Flushed l (f :: sent) l' where
  queue := by rw [hp, List.cons_append, ← h.queue, send_pending hp]
  unacked := by rw [h.unacked, send_unacked, List.map_cons, List.sum_cons, Nat.add_assoc]
  idle := fun hnil => absurd hnil (List.cons_ne_nil _ _)
  busy := by
    intro _
    by_cases hnil : sent = []
    · have hcur : l.log.floor ≤ l.cursor := Nat.le_max_right _ _
      rw [h.idle hnil, send_unacked, send_sent_hi hp, pending_seq hp]
      rcases (CreditFlow.may_send_iff hatt _).1 hmay with hzero | hfit
      · exact ⟨by omega, by omega⟩
      · exact ⟨hfit, by omega⟩
    · exact h.busy hnil
  room := by
    intro pre post hsplit hne
    cases pre with
    | nil => exact hroom
    | cons g pre =>
      obtain ⟨rfl, htail⟩ := List.cons_eq_cons.1 hsplit
      have := h.room pre post htail hne
      rw [send_unacked, send_window] at this
      rw [List.map_cons, List.sum_cons]
      omega
  stop := h.stop

/-- **Where a flush stops.** -/
theorem flush_spec (hatt : l.flow.attached = true) : ∃ sent, Flushed l sent l.flush := by
  generalize hq : l.pending = queue
  induction queue generalizing l with
  | nil => exact ⟨[], flushed_nil (flush_nil hq) (Or.inl hq)⟩
  | cons f rest ih =>
    by_cases hroom : l.flow.unacked_sent_bytes < l.flow.window_bytes
    · by_cases hmay : l.flow.may_send (Frame.payload_len f) = true
      · obtain ⟨sent, hsent⟩ := ih (l := l.send f) hatt (send_pending hq)
        rw [flush_send hatt hroom hq hmay]
        exact ⟨f :: sent, hsent.cons hq hatt hroom hmay⟩
      · have hno := Bool.not_eq_true _ ▸ hmay
        exact ⟨[], flushed_nil (flush_blocked hq hno) (Or.inr (Or.inr ⟨f, rest, hq, hno⟩))⟩
    · have hfull := Nat.not_lt.1 hroom
      exact ⟨[], flushed_nil (flush_exhausted hfull) (Or.inr (Or.inl hfull))⟩

end Flush

/-! ## What the current attachment was sent -/

/-- The frames numbered in `(lo, hi]` of a sequence of bodies. -/
def framesBetween (m : AckLog FrameBody) (lo hi : ℕ) : List Frame := (framesAbove m lo).take (hi - lo)

theorem framesBetween_payload (m : AckLog FrameBody) (lo hi : ℕ) :
    ((framesBetween m lo hi).map Frame.payload_len).sum = m.weight FrameBody.payload_len lo hi := by
  rw [framesBetween, List.map_take, framesAbove_map, ← List.map_take, AckLog.weight, AckLog.between, List.drop_take]

theorem framesBetween_append (m : AckLog FrameBody) (body : FrameBody) {lo hi : ℕ}
    (hlo : lo ≤ m.high) (hhi : hi ≤ m.high) :
    framesBetween (m.append body) lo hi = framesBetween m lo hi := by
  rw [framesBetween, framesAbove_append m body hlo, List.take_append_of_le_length, framesBetween]
  rw [framesAbove_length]
  omega

theorem framesBetween_filter (m : AckLog FrameBody) (lo hi k : ℕ) :
    (framesBetween m lo hi).filter (fun f => decide (k < f.seq)) = framesBetween m (max lo k) hi := by
  have hnum : Numbered Frame.seq lo (framesBetween m lo hi) := (Numbered.append_iff.1 (by
      rw [framesBetween, List.take_append_drop]; exact framesAbove_numbered m lo)).1
  have hlo : lo + (k - lo) = max lo k := by omega
  have hlen : hi - lo - (k - lo) = hi - max lo k := by omega
  rw [hnum.filter_gt, framesBetween, framesBetween, List.drop_take, framesAbove_drop, hlo, hlen]

/-- The emissions above the floor: sent in this attachment and not acknowledged. -/
def outstanding (floor : ℕ) (attachment : List Emission) : List Emission :=
  attachment.filter fun e => decide (floor < e.frame.seq)

theorem outstanding_concat {floor : ℕ} {e : Emission} (attachment : List Emission) (h : floor < e.frame.seq) :
    outstanding floor (attachment ++ [e]) = outstanding floor attachment ++ [e] := by
  simp [outstanding, h]

def outstanding_bytes (floor : ℕ) (attachment : List Emission) : ℕ :=
  ((outstanding floor attachment).map fun e => Frame.payload_len e.frame).sum

theorem outstanding_bytes_concat {floor : ℕ} {e : Emission} (attachment : List Emission) (h : floor < e.frame.seq) :
    outstanding_bytes floor (attachment ++ [e]) = outstanding_bytes floor attachment + Frame.payload_len e.frame := by
  rw [outstanding_bytes, outstanding_concat _ h, List.map_append, List.sum_append]
  rfl

structure Wf (l : Link) : Prop where
  sent_le : l.flow.sent_hi ≤ l.log.high
  from_le : l.history.attach_from ≤ l.flow.sent_hi
  /-- The consumer was sent, of what is not acknowledged, exactly the frames from
  the start of the attachment to the cursor, each once and in order. -/
  sent : (outstanding l.log.floor l.history.attachment).map Emission.frame
    = framesBetween l.log (max l.history.attach_from l.log.floor) l.flow.sent_hi

theorem init_wf : Wf init := ⟨Nat.le_refl 0, Nat.le_refl 0, rfl⟩

section Wf

variable {l : Link}

theorem Wf.bytes (h : l.Wf) : outstanding_bytes l.log.floor l.history.attachment
    = l.log.weight FrameBody.payload_len (max l.history.attach_from l.log.floor) l.flow.sent_hi := by
  rw [← framesBetween_payload, ← h.sent, List.map_map]
  rfl

theorem Wf.send (h : l.Wf) {f : Frame} {rest : List Frame} (hp : l.pending = f :: rest) : (l.send f).Wf := by
  have hseq := pending_seq hp
  have hhigh := cursor_lt_high hp
  have hcur : l.flow.sent_hi ≤ l.cursor := Nat.le_max_left _ _
  have hfloor : l.log.floor ≤ l.cursor := Nat.le_max_right _ _
  have hfrom := h.from_le
  refine ⟨?_, ?_, ?_⟩
  · rw [send_sent_hi hp, send_log]; omega
  · rw [send_sent_hi hp, send_attach_from]; omega
  · rw [send_sent_hi hp, send_log, send_attach_from]
    set base := max l.history.attach_from l.log.floor with hbase
    -- Below a floor that overtook the cursor there is nothing outstanding.
    have hsame : framesBetween l.log base l.flow.sent_hi = framesBetween l.log base l.cursor := by
      have : l.flow.sent_hi - base = l.cursor - base := by rw [hbase, cursor]; omega
      rw [framesBetween, framesBetween, this]
    have hnext : framesBetween l.log base f.seq = framesBetween l.log base l.cursor ++ [f] := by
      have htail : (framesAbove l.log base).drop (l.cursor - base) = f :: rest := by
        rw [framesAbove_drop, Nat.add_sub_cancel' (by omega), ← pending, hp]
      have hlen : f.seq - base = (l.cursor - base) + 1 := by omega
      rw [framesBetween, framesBetween, hlen, List.take_add, htail]
      rfl
    show (outstanding l.log.floor (l.history.attachment ++ [_])).map Emission.frame = _
    rw [outstanding_concat _ (by show l.log.floor < f.seq; omega), List.map_append, h.sent, hsame, hnext]
    rfl

theorem Wf.flush (h : l.Wf) : l.flush.Wf := flush_rule (fun _ _ _ _ hp _ hwf => Wf.send hwf hp) h

theorem append_pending (body : FrameBody) (hcur : l.cursor ≤ l.log.high) :
    ({ l with log := l.log.append body } : Link).pending = l.pending ++ [⟨l.log.high + 1, body⟩] := by
  rw [pending, pending]
  exact framesAbove_append l.log body hcur

theorem Wf.cursor_le (h : l.Wf) : l.cursor ≤ l.log.high := Nat.max_le.2 ⟨h.sent_le, l.log.floor_le⟩

theorem Wf.extend (h : l.Wf) (body : FrameBody) : ({ l with log := l.log.append body } : Link).Wf where
  sent_le := by
    show l.flow.sent_hi ≤ (l.log.append body).high
    rw [AckLog.append_high]
    exact Nat.le_succ_of_le h.sent_le
  from_le := h.from_le
  sent := by
    have hbase : max l.history.attach_from l.log.floor ≤ l.log.high :=
      Nat.max_le.2 ⟨Nat.le_trans h.from_le h.sent_le, l.log.floor_le⟩
    show _ = framesBetween (l.log.append body) (max l.history.attach_from l.log.floor) _
    rw [framesBetween_append _ _ hbase h.sent_le]
    exact h.sent

theorem append_cases (h : l.Wf) (body : FrameBody) : (l.append body = { l with log := l.log.append body } ∧
        ¬ (l.flow.attached = true ∧ l.flow.sent_hi = l.log.high ∧ l.flow.may_send body.payload_len = true)) ∨
      (l.flow.attached = true ∧ l.flow.sent_hi = l.log.high ∧ l.flow.may_send body.payload_len = true ∧
        ({ l with log := l.log.append body } : Link).pending = [⟨l.log.high + 1, body⟩] ∧
        l.append body = ({ l with log := l.log.append body } : Link).send ⟨l.log.high + 1, body⟩) := by
  rw [append]
  split_ifs with hlive
  · simp only [Bool.and_eq_true, beq_iff_eq] at hlive
    obtain ⟨⟨hatt, hhi⟩, hmay⟩ := hlive
    have hnil : l.pending = [] := by
      rw [pending_eq_nil_iff, cursor, hhi]
      exact Nat.le_max_left _ _
    refine Or.inr ⟨hatt, hhi, hmay, ?_, rfl⟩
    rw [append_pending body h.cursor_le, hnil]
    rfl
  · refine Or.inl ⟨rfl, ?_⟩
    rintro ⟨hatt, hhi, hmay⟩
    rw [hatt, hhi, hmay] at hlive
    simp at hlive

theorem Wf.fresh (l : Link) (generation from_seq window : ℕ) : (l.fresh generation from_seq window).Wf where
  sent_le := Nat.min_le_right _ _
  from_le := le_rfl
  sent := by
    show [] = framesBetween l.log (max (min from_seq l.log.high) l.log.floor) (min from_seq l.log.high)
    rw [framesBetween, Nat.sub_eq_zero_of_le (Nat.le_max_left _ _)]
    rfl

theorem Wf.acked (h : l.Wf) (acked_seq credit : ℕ) : (l.acked acked_seq credit).Wf where
  sent_le := h.sent_le
  from_le := h.from_le
  sent := by
    -- Filtering by the new floor is filtering by the old one first.
    have hfloor : (l.acked acked_seq credit).log.floor = max l.log.floor (min acked_seq l.log.high) := rfl
    have htwice : outstanding (l.acked acked_seq credit).log.floor l.history.attachment
        = (outstanding l.log.floor l.history.attachment).filter
            fun e => decide ((l.acked acked_seq credit).log.floor < e.frame.seq) := by
      rw [outstanding, outstanding, List.filter_filter]
      congr 1
      funext e
      rw [← Bool.decide_and]
      refine decide_eq_decide.2 ⟨fun hlt => ⟨hlt, ?_⟩, fun hlt => hlt.1⟩
      omega
    have hmap : ((outstanding l.log.floor l.history.attachment).filter
          fun e => decide ((l.acked acked_seq credit).log.floor < e.frame.seq)).map Emission.frame
        = ((outstanding l.log.floor l.history.attachment).map Emission.frame).filter
          fun f => decide ((l.acked acked_seq credit).log.floor < f.seq) := by
      rw [List.filter_map]
      rfl
    show (outstanding _ l.history.attachment).map Emission.frame = framesBetween l.log _ _
    rw [htwice, hmap, h.sent, framesBetween_filter]
    show framesBetween l.log _ l.flow.sent_hi = framesBetween l.log (max l.history.attach_from _) _
    congr 1
    omega

theorem Wf.detach (h : l.Wf) : l.detach.Wf := ⟨h.sent_le, h.from_le, h.sent⟩

end Wf

end Link

end OpenGeni.Agent
