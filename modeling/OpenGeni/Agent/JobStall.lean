/-
When the pump leaves a frame unsent, and why.

Between two events an attached pump should have a frame waiting only because the
window is too small for it; and with nothing waiting it should be caught up, so
that its read gate depends on the window alone and a Progress frame goes out at
once. Appends and detaches keep this. What can break it is a flush, on an attach or
an ack, in two ways.

* The window is exhausted exactly in front of a Progress frame. `catch_up` returns
  on a zero allowance without asking `may_send`, which would let the frame pass.
* The cursor is left below a floor that has reached the high seq: a consumer
  attached below the floor, or acknowledged frames this attachment never sent.
  `catch_up` looks at the higher of the two and finds nothing to do;
  `append_and_send` and `may_read` look at the cursor alone, and find the pump
  behind.

`FlushCond` excludes the two. It is exact for one flush (`flush_unstalled_iff`), and
in a run whose attaches and acks meet it no frame is ever stalled.
-/
import OpenGeni.Agent.JobLink

namespace OpenGeni.Agent

open OpenGeni.Lib OpenGeni.Engine

/-- The condition on a flush, by the window, the bytes in flight, the cursor, the floor and the queue in front of
it: an empty queue means that the cursor has passed the floor, and no frame without payload stands where the window
is exhausted. An overdrawn window stops the flush at the front of the queue only. -/
def FlushCond (window unacked sent_hi floor : ℕ) (queue : List Frame) : Prop := (queue = [] → floor ≤ sent_hi) ∧
    ∀ k, (h : k < queue.length) → Frame.payload_len (queue.get ⟨k, h⟩) = 0 →
      unacked + ((queue.take k).map Frame.payload_len).sum < window ∨
        (k ≠ 0 ∧ window < unacked + ((queue.take k).map Frame.payload_len).sum)

instance (window unacked sent_hi floor : ℕ) (queue : List Frame) :
    Decidable (FlushCond window unacked sent_hi floor queue) :=
  inferInstanceAs (Decidable (_ ∧ _))

namespace Pump

def unsent (p : Pump) : List Frame := p.retention.tail_from (max p.flow.sent_hi p.retention.floor)

structure NoStall (p : Pump) : Prop where
  /-- The first unsent frame does not fit the window. -/
  blocked : p.flow.attached = true → ∀ f rest, p.unsent = f :: rest → p.flow.may_send f.body.payload_len = false
  /-- With nothing unsent, the read gate is the window. -/
  gate : p.flow.attached = true → p.unsent = [] → p.child_done = false → (p.may_read = true ↔ 0 < p.flow.allowance)
  /-- With nothing unsent, a new Progress frame is emitted at once. -/
  progress : p.flow.attached = true → p.unsent = [] → ∀ seq p', p.append_and_send .progress = some (.ok seq, p') →
      p'.history.emitted = p.history.emitted ++ [⟨seq, .progress⟩]

/-- The condition on a step: an accepted attach, and an ack applied while attached,
flush under `FlushCond`. The arguments are the flow, the floor and the queue that
the two leave for the flush. -/
def FlushInStep (p : Pump) (e : PumpEvent) : Prop :=
  (∀ attach ∈ e.attach?, attach.1 ≠ 0 → p.flow.attach_gen ≤ attach.1 →
    let start := min attach.2.1 p.retention.high_seq
    FlushCond attach.2.2 0 start p.retention.floor (p.retention.tail_from (max start p.retention.floor))) ∧
  ∀ ack ∈ e.ack?, ack.1 = p.flow.attach_gen → p.flow.attached = true →
    let floor := max p.retention.floor (min ack.2.1 p.retention.high_seq)
    FlushCond ack.2.2 (p.flow.unacked_sent_bytes - p.retention.payload_bytes_in_range p.retention.floor
        (min ack.2.1 p.flow.sent_hi))
      p.flow.sent_hi floor (p.retention.tail_from (max p.flow.sent_hi floor))

instance (p : Pump) (e : PumpEvent) : Decidable (p.FlushInStep e) :=
  inferInstanceAs (Decidable ((∀ attach ∈ e.attach?, _) ∧ ∀ ack ∈ e.ack?, _))

end Pump

namespace Link

variable {l l' : Link} {e : PumpEvent}

/-- The invariant: while attached, a frame is left only for lack of window, and
with none left the link is caught up. -/
structure Unstalled (l : Link) : Prop where
  wf : l.Wf
  caught_up : l.flow.attached = true → l.pending = [] → l.flow.sent_hi = l.log.high
  blocked : l.flow.attached = true → ∀ f rest, l.pending = f :: rest → l.flow.may_send (Frame.payload_len f) = false

theorem init_unstalled : Unstalled init := ⟨init_wf, fun hatt => absurd hatt Bool.false_ne_true, fun hatt => absurd hatt Bool.false_ne_true⟩

def FlushOk (l : Link) : Prop :=
  FlushCond l.flow.window_bytes l.flow.unacked_sent_bytes l.flow.sent_hi l.log.floor l.pending

theorem FlushOk.at (h : l.FlushOk) {pre post : List Frame} {f : Frame}
    (hq : l.pending = pre ++ f :: post) (hzero : Frame.payload_len f = 0) :
    l.flow.unacked_sent_bytes + (pre.map Frame.payload_len).sum < l.flow.window_bytes ∨ (pre ≠ [] ∧
        l.flow.window_bytes < l.flow.unacked_sent_bytes + (pre.map Frame.payload_len).sum) := by
  have hlt : pre.length < l.pending.length := by
    rw [hq, List.length_append, List.length_cons]; omega
  have hcond := h.2 pre.length hlt
  simp only [hq, List.get_eq_getElem, List.getElem_append_right (Nat.le_refl _), Nat.sub_self,
    List.getElem_cons_zero, List.take_left'] at hcond
  rcases hcond hzero with hroom | ⟨hne, hover⟩
  · exact Or.inl hroom
  · exact Or.inr ⟨fun hnil => hne (by rw [hnil]; rfl), hover⟩

theorem Wf.flush_unstalled (hwf : l.Wf) (hatt : l.flow.attached = true) (hok : l.FlushOk) : l.flush.Unstalled := by
  obtain ⟨sent, hsent⟩ := flush_spec hatt
  have hatt' : l.flush.flow.attached = true := by rw [flush_attached]; exact hatt
  refine ⟨hwf.flush, fun _ hnil => ?_, fun _ f rest hp => ?_⟩
  · -- Everything was sent. If that was nothing, the cursor had passed the floor.
    have hend := pending_eq_nil_iff.1 hnil
    have hle := hwf.flush.sent_le
    have hfloor : l.flush.log.floor ≤ l.flush.flow.sent_hi := by
      by_cases hidle : sent = []
      · rw [hsent.idle hidle]
        rw [hsent.idle hidle] at hnil
        exact hok.1 hnil
      · rw [flush_log]
        exact (hsent.busy hidle).2
    rw [cursor] at hend
    omega
  · -- Something is left: the flush stopped in front of it.
    rcases hsent.stop with hnil | hfull | ⟨g, rest', hq, hno⟩
    · rw [hnil] at hp
      contradiction
    · by_contra hmay
      rw [Bool.not_eq_false, CreditFlow.may_send_iff hatt', flush_window] at hmay
      have hqueue := hsent.queue
      rw [hp] at hqueue
      have hunacked := hsent.unacked
      by_cases hzero : Frame.payload_len f = 0
      · rcases hok.at hqueue hzero with hroom | ⟨hne, hover⟩
        · omega
        · have := (hsent.busy hne).1
          omega
      · omega
    · rw [hp] at hq
      obtain ⟨rfl, rfl⟩ := List.cons_eq_cons.1 hq
      exact hno

/-! ## Steps -/

theorem Unstalled.append (h : l.Unstalled) (body : FrameBody) : (l.append body).Unstalled := by
  rcases append_cases h.wf body with ⟨heq, hwait⟩ | ⟨-, hhi, -, hp, heq⟩
  · rw [heq]
    have hpend := append_pending body h.wf.cursor_le
    refine ⟨h.wf.extend body, fun _ hnil => ?_, fun hatt f rest hp => ?_⟩
    · rw [hpend] at hnil
      exact absurd (List.append_eq_nil_iff.1 hnil).2 (List.cons_ne_nil _ _)
    · rw [hpend] at hp
      show l.flow.may_send (Frame.payload_len f) = false
      cases hq : l.pending with
      | nil =>
        rw [hq] at hp
        obtain ⟨rfl, -⟩ := List.cons_eq_cons.1 hp
        have hcaught := h.caught_up hatt hq
        by_contra hmay
        exact hwait ⟨hatt, hcaught, Bool.not_eq_false _ ▸ hmay⟩
      | cons g tail =>
        rw [hq] at hp
        obtain ⟨rfl, -⟩ := List.cons_eq_cons.1 hp
        exact h.blocked hatt _ _ hq
  · rw [heq]
    refine ⟨(h.wf.extend body).send hp, fun _ _ => ?_, fun _ f rest hq => ?_⟩
    · rw [send_sent_hi hp]
      exact (AckLog.append_high l.log body).symm
    · rw [send_pending hp] at hq
      contradiction

theorem Unstalled.step (h : l.Unstalled) (hstep : l.Step e l')
    (hattach : ∀ attach ∈ e.attach?, attach.1 ≠ 0 → l.flow.attach_gen ≤ attach.1 →
      (l.fresh attach.1 attach.2.1 attach.2.2).FlushOk)
    (hack : ∀ ack ∈ e.ack?, ack.1 = l.flow.attach_gen → l.flow.attached = true →
      (l.acked ack.2.1 ack.2.2).FlushOk) : l'.Unstalled := by
  cases hstep with
  | attach generation from_seq window =>
    by_cases hstale : generation = 0 ∨ generation < l.flow.attach_gen
    · rw [Link.attach, if_pos hstale]
      exact h
    · obtain ⟨hzero, hcur⟩ := not_or.1 hstale
      rw [Link.attach, if_neg hstale]
      exact (Wf.fresh l generation from_seq window).flush_unstalled rfl (hattach _ rfl hzero (Nat.not_lt.1 hcur))
  | ack generation acked_seq credit_bytes final_ack =>
    rw [Link.ack]
    split_ifs with hstale
    · exact h
    · have hwf := h.wf.acked acked_seq credit_bytes
      by_cases hatt : l.flow.attached = true
      · exact hwf.flush_unstalled hatt (hack _ rfl (not_not.1 hstale) hatt)
      · have hdet : (l.acked acked_seq credit_bytes).flow.attached = false := Bool.not_eq_true _ ▸ hatt
        rw [flush_detached hdet]
        exact ⟨hwf, fun hyes => absurd hyes hatt, fun hyes => absurd hyes hatt⟩
  | detach =>
    have hdet : ¬ l.detach.flow.attached = true := Bool.false_ne_true
    exact ⟨h.wf.detach, fun hatt => absurd hatt hdet, fun hatt => absurd hatt hdet⟩
  | append _ => exact h.append _
  | quiet _ => exact h

end Link

namespace Pump

section Runs

variable {blake3 : List UInt8 → List UInt8} {retention : RetentionConfig} {hooks : JobHooks}
  {deadline : Option ℕ} {config : JobConfig} {es : List PumpEvent} {p : Pump} {l : Link}

theorem Models.unsent (h : p.Models l) : p.unsent = l.pending := by
  rw [Pump.unsent, h.flow, h.retention.floor]
  exact RetentionLog.tail_from_refines h.retention (Nat.le_max_right _ _)

theorem Models.noStall (h : p.Models l) (hun : l.Unstalled) : p.NoStall where
  blocked := by
    rw [h.unsent, h.flow]
    exact hun.blocked
  gate := by
    rw [h.unsent, h.flow]
    intro hatt hnil hchild
    rw [may_read, hchild, h.flow, hatt, h.retention.high_seq, hun.caught_up hatt hnil]
    simp
  progress := by
    rw [h.unsent, h.flow, h.history]
    intro hatt hnil seq p' happ
    have hlive : (p.flow.attached && p.flow.sent_hi == p.retention.high_seq &&
        p.flow.may_send FrameBody.progress.payload_len) = true := by
      rw [h.flow, h.retention.high_seq, hun.caught_up hatt hnil, hatt]
      simp [CreditFlow.may_send, hatt]
    rw [append_and_send, hlive] at happ
    cases hres : p.retention.append .progress with
    | none => rw [hres] at happ; contradiction
    | some result =>
      obtain ⟨r, retention⟩ := result
      rw [hres] at happ
      cases r with
      | error e =>
        have hseq := (Prod.mk.inj (Option.some.inj happ)).1
        contradiction
      | ok n =>
        obtain ⟨hseq, hp'⟩ := Prod.mk.inj (Option.some.inj happ)
        obtain rfl : n = seq := Except.ok.inj hseq
        rw [← hp', ← h.history]
        rfl

theorem FlushInStep.attach {e : PumpEvent} (h : p.FlushInStep e) (hmod : p.Models l) :
    ∀ attach ∈ e.attach?, attach.1 ≠ 0 → l.flow.attach_gen ≤ attach.1 →
      (l.fresh attach.1 attach.2.1 attach.2.2).FlushOk := by
  intro attach hattach hzero hcur
  have hcond := h.1 attach hattach hzero (by rw [hmod.flow]; exact hcur)
  dsimp only at hcond
  rw [hmod.retention.floor, hmod.retention.high_seq,
    RetentionLog.tail_from_refines hmod.retention (Nat.le_max_right _ _)] at hcond
  exact hcond

theorem FlushInStep.ack {e : PumpEvent} (h : p.FlushInStep e) (hmod : p.Models l) :
    ∀ ack ∈ e.ack?, ack.1 = l.flow.attach_gen → l.flow.attached = true → (l.acked ack.2.1 ack.2.2).FlushOk := by
  intro ack hack hgen hatt
  have hcond := h.2 ack hack (by rw [hmod.flow]; exact hgen) (by rw [hmod.flow]; exact hatt)
  have hfreed : p.retention.payload_bytes_in_range l.log.floor (min ack.2.1 l.flow.sent_hi)
      = l.log.weight FrameBody.payload_len l.log.floor (min ack.2.1 l.flow.sent_hi) := by
    rw [RetentionLog.payload_bytes_in_range_refines hmod.retention, Nat.max_self, ← AckLog.weight_min_high]
    rfl
  dsimp only at hcond
  rw [hmod.flow, hmod.retention.floor, hmod.retention.high_seq, hfreed,
    RetentionLog.tail_from_refines hmod.retention (by omega)] at hcond
  exact hcond

/-- **No stalled frame.** In every run whose steps meet the condition, in every
state reached: a frame left unsent does not fit the window, and with none left the
read gate is the window and a Progress frame goes out at once. -/
theorem no_stalled_frame (hrun : Run (Restrict (PumpStep blake3) fun p e => p.StepFits blake3 e ∧ p.FlushInStep e)
      (new retention hooks deadline config) es p) : p.NoStall := by
  obtain ⟨l, hmod, hun⟩ := pump_run_link Link.init_unstalled (fun p l e l' hmod hok hun hstep =>
      hun.step hstep (hok.attach hmod) (hok.ack hmod)) hrun
  exact hmod.noStall hun

def stallCheck (p : Pump) (event : Event) : Bool :=
  decide (p.StepFits (fun _ => []) (.wake event)) && decide (p.FlushInStep (.wake event))

/-- A consumer attaches behind a byte and a Progress frame, acks them, and comes
back where its acks had got to. -/
def attachAndAck : List Event :=
  [.oneByte, .progress_tick, .command (some (.attach 1 0 4)), .command (some (.ack 1 2 4 false)),
    .command (some .detach), .oneByte, .command (some (.attach 2 2 4))]

theorem no_stalled_frame_attach : ∃ p, Run (Restrict (PumpStep fun _ => []) fun p e =>
        p.StepFits (fun _ => []) e ∧ p.FlushInStep e) smallJob (attachAndAck.map .wake) p ∧
      p.NoStall := by
  have hsome : (smallJob.service stallCheck attachAndAck).isSome := by decide
  obtain ⟨p, hp⟩ := Option.isSome_iff_exists.1 hsome
  have hrun := service_run (fun _ => [])
    (fun p e => p.StepFits (fun _ => []) e ∧ p.FlushInStep e) (fun p event hcheck => by
      rw [stallCheck, Bool.and_eq_true, decide_eq_true_eq, decide_eq_true_eq] at hcheck
      exact hcheck) hp
  exact ⟨p, hrun, no_stalled_frame hrun⟩

/-- A byte and a Progress frame wait for a consumer whose window is one byte. -/
def exactWindow : List Event := [.oneByte, .progress_tick, .command (some (.attach 1 0 1))]

/-- A byte is sent and acknowledged; then a consumer attaches below the floor. -/
def attachBelowFloor : List Event := [.oneByte, .command (some (.attach 1 0 4)), .command (some (.ack 1 1 4 false)),
    .command (some (.attach 2 0 4))]

/-- **The two ways a pump stalls.** Behind a window exhausted exactly, a Progress
frame that `may_send` allows stays unsent. And after an attach below the floor,
with nothing unsent and allowance left, the read gate is closed. -/
theorem flush_stalls : (∃ p, Run (PumpStep fun _ => []) smallJob (exactWindow.map .wake) p ∧
      p.flow.attached = true ∧ p.unsent = [⟨2, .progress⟩] ∧
      p.flow.may_send 0 = true ∧ ¬ p.NoStall) ∧
    ∃ p, Run (PumpStep fun _ => []) smallJob (attachBelowFloor.map .wake) p ∧
      p.flow.attached = true ∧ p.unsent = [] ∧ p.child_done = false ∧ p.flow.allowance = 4 ∧
      p.may_read = false ∧ ¬ p.NoStall := by
  constructor
  · have hreach : (smallJob.service (fun _ _ => true) exactWindow).any (fun p =>
        p.flow.attached && p.unsent == [⟨2, .progress⟩] && p.flow.may_send 0) = true := by decide
    obtain ⟨p, hrun, hfacts⟩ := service_reaches hreach
    simp only [Bool.and_eq_true, beq_iff_eq] at hfacts
    obtain ⟨⟨hatt, hunsent⟩, hmay⟩ := hfacts
    refine ⟨p, hrun, hatt, hunsent, hmay, fun hsafe => ?_⟩
    have hblocked := hsafe.blocked hatt _ _ hunsent
    rw [FrameBody.payload_len_progress, hmay] at hblocked
    exact absurd hblocked (by decide)
  · have hreach : (smallJob.service (fun _ _ => true) attachBelowFloor).any (fun p =>
        p.flow.attached && p.unsent == [] && !p.child_done && p.flow.allowance == 4 && !p.may_read) = true := by decide
    obtain ⟨p, hrun, hfacts⟩ := service_reaches hreach
    simp only [Bool.and_eq_true, beq_iff_eq, Bool.not_eq_true'] at hfacts
    obtain ⟨⟨⟨⟨hatt, hunsent⟩, hchild⟩, hallow⟩, hgate⟩ := hfacts
    refine ⟨p, hrun, hatt, hunsent, hchild, hallow, hgate, fun hsafe => ?_⟩
    have hopen := (hsafe.gate hatt hunsent hchild).2 (by rw [hallow]; decide)
    rw [hgate] at hopen
    exact absurd hopen (by decide)

end Runs

end Pump

end OpenGeni.Agent
