/-
What one attachment is sent, in order.

Live emission and replay share one cursor, so whatever the order of attaches,
acks, detaches and appends, a frame goes out exactly when it is the next one: the
frame just above the later of the frame sent before it and the retention floor.
The floor matters because an ack may run ahead of the cursor, for instance after
a redelivered attach has moved the cursor back. The pump does not send again what
has been acknowledged.

The order is an invariant of the link (`Link.Ordered`); `Logged.Mirrors` carries
it to the pump, together with the fact that the link's sequence is the bodies the
pump has numbered. `fenced` is the result of this file and of `JobFence.lean`.
-/
import OpenGeni.Agent.JobFence

namespace OpenGeni.Agent

open OpenGeni.Lib OpenGeni.Engine

/-! ## Emissions in order -/

/-- The emissions of an attachment that starts above `cursor`: each is just above
the later of the one before it and the floor it was sent under, and carries the
body that was numbered so. -/
def InOrder (bodies : List FrameBody) : ℕ → List Emission → Prop
  | _, [] => True
  | cursor, e :: rest =>
    e.frame.seq = max cursor e.floor + 1 ∧ bodies[e.frame.seq - 1]? = some e.frame.body ∧
      InOrder bodies e.frame.seq rest

def lastSeq : ℕ → List Emission → ℕ
  | cursor, [] => cursor
  | _, e :: rest => lastSeq e.frame.seq rest

section InOrder

variable {bodies : List FrameBody} {cursor : ℕ} {sent : List Emission} {e : Emission}

theorem lastSeq_concat : lastSeq cursor (sent ++ [e]) = e.frame.seq := by
  induction sent generalizing cursor with
  | nil => rfl
  | cons _ _ ih => exact ih

theorem InOrder.concat (h : InOrder bodies cursor sent) (hseq : e.frame.seq = max (lastSeq cursor sent) e.floor + 1)
    (hbody : bodies[e.frame.seq - 1]? = some e.frame.body) :
    InOrder bodies cursor (sent ++ [e]) := by
  induction sent generalizing cursor with
  | nil => exact ⟨hseq, hbody, trivial⟩
  | cons first rest ih => exact ⟨h.1, h.2.1, ih h.2.2 hseq⟩

theorem InOrder.append_bodies (h : InOrder bodies cursor sent) (more : List FrameBody) :
    InOrder (bodies ++ more) cursor sent := by
  induction sent generalizing cursor with
  | nil => trivial
  | cons first rest ih =>
    obtain ⟨hseq, hbody, hrest⟩ := h
    refine ⟨hseq, ?_, ih hrest⟩
    rw [List.getElem?_append_left (List.getElem?_eq_some_iff.1 hbody).1]
    exact hbody

end InOrder

/-! ## The link keeps the order -/

namespace Link

variable {l l' : Link} {e : PumpEvent}

/-- The attachment was sent its frames in order, and the cursor is on the last. -/
structure Ordered (l : Link) : Prop where
  wf : l.Wf
  order : InOrder l.log.appended l.history.attach_from l.history.attachment
  last : lastSeq l.history.attach_from l.history.attachment = l.flow.sent_hi

theorem init_ordered : Ordered init := ⟨init_wf, trivial, rfl⟩

theorem pending_body {f : Frame} {rest : List Frame} (hp : l.pending = f :: rest) :
    l.log.appended[f.seq - 1]? = some f.body := by
  have hhead : (framesAbove l.log l.cursor)[0]? = some f := by
    show l.pending[0]? = some f
    rw [hp]
    rfl
  rw [framesAbove, numberFrom_getElem?, List.getElem?_drop] at hhead
  obtain ⟨body, hbody, hf⟩ := Option.map_eq_some_iff.1 hhead
  rw [pending_seq hp, Nat.add_sub_cancel, ← hf]
  exact hbody

theorem Ordered.send (h : l.Ordered) {f : Frame} {rest : List Frame}
    (hp : l.pending = f :: rest) : (l.send f).Ordered where
  wf := h.wf.send hp
  order := by
    apply h.order.concat
    · show f.seq = max _ l.log.floor + 1
      rw [h.last]
      exact pending_seq hp
    · exact pending_body hp
  last := by
    rw [send_sent_hi hp]
    exact lastSeq_concat

theorem Ordered.flush (h : l.Ordered) : l.flush.Ordered := flush_rule (fun _ _ _ _ hp _ hord => Ordered.send hord hp) h

theorem Ordered.extend (h : l.Ordered) (body : FrameBody) : ({ l with log := l.log.append body } : Link).Ordered where
  wf := h.wf.extend body
  order := h.order.append_bodies [body]
  last := h.last

theorem Ordered.append (h : l.Ordered) (body : FrameBody) : (l.append body).Ordered := by
  rcases append_cases h.wf body with ⟨heq, -⟩ | ⟨-, -, -, hp, heq⟩
  · rw [heq]
    exact h.extend body
  · rw [heq]
    exact (h.extend body).send hp

theorem fresh_ordered (l : Link) (generation from_seq window : ℕ) : (l.fresh generation from_seq window).Ordered :=
  ⟨Wf.fresh l generation from_seq window, trivial, rfl⟩

theorem Ordered.step (h : l.Ordered) (hstep : l.Step e l') : l'.Ordered := by
  cases hstep with
  | attach generation from_seq window_bytes =>
    rw [Link.attach]
    split_ifs
    · exact h
    · exact (fresh_ordered l generation from_seq window_bytes).flush
  | ack generation acked_seq credit_bytes final_ack =>
    rw [Link.ack]
    split_ifs
    · exact h
    · -- An ack moves the floor: no frame sent before it, only where the next send starts.
      apply Ordered.flush
      exact ⟨h.wf.acked acked_seq credit_bytes, h.order, h.last⟩
  | detach => exact ⟨h.wf.detach, h.order, h.last⟩
  | append _ => exact h.append _
  | quiet _ => exact h

theorem append_appended (l : Link) (body : FrameBody) : (l.append body).log.appended = l.log.appended ++ [body] := by
  rw [Link.append]
  split_ifs <;> rfl

/-- Since an attach at `start`, when `emitted` had been emitted, everything emitted
belongs to one attachment. -/
structure Since (start : ℕ) (emitted : List Frame) (l : Link) : Prop where
  attach_from : l.history.attach_from = start
  emitted : l.history.emitted = emitted ++ l.history.attachment.map Emission.frame

section Since

variable {start : ℕ} {emitted : List Frame}

theorem Since.send (h : l.Since start emitted) (f : Frame) : (l.send f).Since start emitted where
  attach_from := h.attach_from
  emitted := by
    show l.history.emitted ++ [f] = emitted ++ (l.history.attachment ++ [_]).map Emission.frame
    rw [h.emitted, List.map_append, List.append_assoc]
    rfl

theorem Since.flush (h : l.Since start emitted) : l.flush.Since start emitted :=
  flush_rule (fun _ f _ _ _ _ hsince => Since.send hsince f) h

theorem Since.step (h : l.Since start emitted) (hstep : l.Step e l')
    (hsame : ∀ a ∈ e.attach?, a.1 = 0 ∨ a.1 < l.flow.attach_gen) : l'.Since start emitted := by
  cases hstep with
  | attach generation from_seq window_bytes =>
    rw [Link.attach, if_pos (hsame _ rfl)]
    exact h
  | ack generation acked_seq credit_bytes final_ack =>
    rw [Link.ack]
    split_ifs
    · exact h
    · exact Since.flush ⟨h.attach_from, h.emitted⟩
  | detach => exact ⟨h.attach_from, h.emitted⟩
  | @append _ body _ =>
    have hextended : Since start emitted { l with log := l.log.append body } := ⟨h.attach_from, h.emitted⟩
    rw [Link.append]
    split_ifs
    · exact hextended.send _
    · exact hextended
  | quiet _ => exact h

theorem attach_since {generation from_seq window : ℕ} (hacc : ¬ (generation = 0 ∨ generation < l.flow.attach_gen)) :
    (l.attach generation from_seq window).Since (min from_seq l.log.high) l.history.emitted := by
  rw [Link.attach, if_neg hacc]
  apply Since.flush
  exact ⟨rfl, (List.append_nil _).symm⟩

end Since

end Link

/-! ## The pump keeps the order -/

theorem PumpEvent.Carries.appended {blake3 : List UInt8 → List UInt8} {p : Pump} {event : Event}
    {body : FrameBody} (h : PumpEvent.Carries (.wake event) body) :
    p.appended blake3 (.wake event) = some body := by
  cases event with
  | progress_tick =>
    cases body with
    | progress => rfl
    | data | exit => exact h.elim
  | read channel result =>
    cases result with
    | error error => exact h.elim
    | ok bytes =>
      cases body with
      | data channel' bytes' =>
        obtain ⟨rfl, rfl, hne⟩ := h
        cases bytes with
        | nil => contradiction
        | cons b bytes => rfl
      | progress | exit => exact h.elim
  | _ => exact h.elim

namespace Logged

variable {blake3 : List UInt8 → List UInt8} {s s' : Logged} {l : Link} {e : PumpEvent} {es : List PumpEvent}

/-- The pump represents an ordered link whose sequence is the bodies it has numbered. -/
structure Mirrors (s : Logged) (l : Link) : Prop where
  models : s.pump.Models l
  bodies : l.log.appended = s.bodies
  ordered : l.Ordered

theorem Mirrors.step (h : s.Mirrors l) (hstep : Step blake3 s e s')
    (hfit : s.pump.StepFits blake3 e) : ∃ l', s'.Mirrors l' ∧ l.Step e l' := by
  obtain ⟨hpump, hbodies⟩ := hstep
  have hseq := h.models.retention.next_seq
  -- Either the sequence is the old one or it has grown by the body of the step.
  have hgoal : ∀ l', s'.pump.Models l' → l.Step e l' →
      (l'.log.appended = l.log.appended ∨ ∃ body, s.pump.appended blake3 e = some body ∧
        l'.log.appended = l.log.appended ++ [body]) → ∃ l', s'.Mirrors l' ∧ l.Step e l' := by
    intro l' hmod hlink hlog
    refine ⟨l', ⟨hmod, ?_, h.ordered.step hlink⟩, hlink⟩
    have hseq' := hmod.retention.next_seq
    rw [AckLog.high] at hseq hseq'
    rcases hlog with hsame | ⟨body, happ, hmore⟩
    · rw [hbodies, Pump.newly_same (by rw [hseq', hseq, hsame]), List.append_nil, hsame, h.bodies]
    · have hgrown : s'.pump.retention.next_seq = s.pump.retention.next_seq + 1 := by
        rw [hseq', hseq, hmore, List.length_append]
        rfl
      rw [hbodies, Pump.newly_grown hgrown happ, hmore, h.bodies]
  cases e with
  | finish duration_ms =>
    -- The link's step does not tell the payload of the Exit frame; the pump's does.
    cases hpump with
    | finish hloop hfence hres =>
      have hmod₀ : ({ s.pump with pending_outcome := none } : Pump).Models l := h.models.congr rfl rfl rfl
      obtain ⟨r, q, happ, -, hcase⟩ := Pump.append_and_send_models hmod₀ (hfit _ rfl)
      rw [Pump.finish, happ] at hres
      have hq := Option.some.inj hres
      rcases hcase with ⟨-, hmod⟩ | ⟨-, hmod⟩
      · apply hgoal (l.append (.exit _))
        · rw [← hq]
          exact hmod.congr rfl rfl rfl
        · exact .append trivial
        · exact Or.inr ⟨_, rfl, Link.append_appended l _⟩
      · refine hgoal l ?_ (.quiet trivial) (Or.inl rfl)
        rw [← hq]
        exact hmod.congr rfl rfl rfl
  | wake event =>
    obtain ⟨-, l', hmod, hlink⟩ := Pump.pump_step_link hpump hfit h.models
    apply hgoal l' hmod hlink
    cases hlink with
    | attach generation from_seq window_bytes =>
      left
      rw [Link.attach]
      split_ifs
      · rfl
      · rw [Link.flush_log]
        rfl
    | ack generation acked_seq credit_bytes final_ack =>
      left
      rw [Link.ack]
      split_ifs
      · rfl
      · rw [Link.flush_log]
        rfl
    | detach | quiet => exact Or.inl rfl
    | append hcarries => exact Or.inr ⟨_, hcarries.appended, Link.append_appended l _⟩

theorem new_mirrors (retention : RetentionConfig) (hooks : JobHooks) (deadline : Option ℕ)
    (config : JobConfig) : (new retention hooks deadline config).Mirrors Link.init :=
  ⟨Pump.new_models retention hooks deadline config, rfl, Link.init_ordered⟩

def StepFits (blake3 : List UInt8 → List UInt8) (s : Logged) (e : PumpEvent) : Prop := s.pump.StepFits blake3 e

def StaysAttached (blake3 : List UInt8 → List UInt8) (s : Logged) (e : PumpEvent) : Prop :=
  s.pump.StepFits blake3 e ∧ ¬ e.Attaches s.pump

theorem run_mirrors (hrun : Run (Restrict (Step blake3) (StepFits blake3)) s es s')
    (h : s.Mirrors l) : ∃ l', s'.Mirrors l' := by
  refine hrun.invariant (P := fun s => ∃ l, s.Mirrors l) ?_ ⟨l, h⟩
  rintro s e t ⟨hstep, hfit⟩ ⟨l, hl⟩
  obtain ⟨l', hl', -⟩ := hl.step hstep hfit
  exact ⟨l', hl'⟩

theorem run_since {start : ℕ} {emitted : List Frame}
    (hrun : Run (Restrict (Step blake3) (StaysAttached blake3)) s es s')
    (h : s.Mirrors l) (hsince : l.Since start emitted) :
    ∃ l', s'.Mirrors l' ∧ l'.Since start emitted := by
  refine hrun.invariant (P := fun s => ∃ l, s.Mirrors l ∧ l.Since start emitted) ?_ ⟨l, h, hsince⟩
  rintro s e t ⟨hstep, hfit, hsame⟩ ⟨l, hl, hs⟩
  obtain ⟨l', hl', hlink⟩ := hl.step hstep hfit
  refine ⟨l', hl', hs.step hlink ?_⟩
  intro a ha
  by_contra hacc
  rw [← hl.models.flow] at hacc
  exact hsame ⟨a, ha, hacc⟩

/-- **Order within an attachment.** From an accepted attach on, as long as no other
attach is accepted, what the pump emits is in order above the clamped `from_seq`. -/
theorem attachment_in_order {retention : RetentionConfig} {hooks : JobHooks}
    {deadline : Option ℕ} {config : JobConfig} {s₁ s₂ : Logged} {es₁ es₂ : List PumpEvent}
    {generation from_seq window_bytes : ℕ}
    (hrun₁ : Run (Restrict (Step blake3) (StepFits blake3)) (new retention hooks deadline config) es₁ s₁)
    (hattach : Step blake3 s₁ (.wake (.command (some (.attach generation from_seq window_bytes)))) s₂)
    (hacc : generation ≠ 0 ∧ s₁.pump.flow.attach_gen ≤ generation)
    (hrun₂ : Run (Restrict (Step blake3) (StaysAttached blake3)) s₂ es₂ s) :
    ∃ sent, s.pump.history.emitted = s₁.pump.history.emitted ++ sent.map Emission.frame ∧
      InOrder s.bodies (min from_seq s₁.pump.retention.high_seq) sent := by
  obtain ⟨l₁, hl₁⟩ := run_mirrors hrun₁ (new_mirrors retention hooks deadline config)
  have hfit : s₁.pump.StepFits blake3 (.wake (.command (some (.attach generation from_seq window_bytes)))) := by
    intro body hbody
    simp [Pump.appended] at hbody
  obtain ⟨l₂, hl₂, hlink⟩ := hl₁.step hattach hfit
  -- The link step of an attach event is the attach.
  have hsince : l₂.Since (min from_seq l₁.log.high) l₁.history.emitted := by
    cases hlink with
    | attach generation from_seq window_bytes =>
      apply Link.attach_since
      rw [← hl₁.models.flow]
      omega
    | append hcarries => exact hcarries.elim
    | quiet hquiet => exact hquiet.elim
  obtain ⟨l, hl, hend⟩ := run_since hrun₂ hl₂ hsince
  refine ⟨l.history.attachment, ?_, ?_⟩
  · rw [hl.models.history, hl₁.models.history, hend.emitted]
  · rw [hl₁.models.retention.high_seq, ← hl.bodies, ← hend.attach_from]
    exact hl.ordered.order

/-! ## The fence -/

/-- Generation fencing and final-ack safety of a run from the fresh job `start` to `s`. -/
structure Fenced (blake3 : List UInt8 → List UInt8) (start : Logged) (es : List PumpEvent)
    (s : Logged) : Prop where
  /-- A stale command changes nothing, wherever it is serviced. -/
  stale : ∀ t e t', Step blake3 t e t' → e.Stale t.pump → t' = t
  /-- The run without its stale commands emits the same frames and ends in the same state. -/
  deleted : ∃ es', Pruned (Step blake3) (fun t e => e.Stale t.pump) start es es' s ∧ Run (Step blake3) start es' s
  /-- From any accepted attach of the run to its end or to the next one, frames are
  emitted in order. -/
  in_order : ∀ es₁ es₂ s₁ s₂ generation from_seq window_bytes,
    es = es₁ ++ .wake (.command (some (.attach generation from_seq window_bytes))) :: es₂ →
    Run (Restrict (Step blake3) (StepFits blake3)) start es₁ s₁ →
    Step blake3 s₁ (.wake (.command (some (.attach generation from_seq window_bytes)))) s₂ →
    generation ≠ 0 ∧ s₁.pump.flow.attach_gen ≤ generation →
    Run (Restrict (Step blake3) (StaysAttached blake3)) s₂ es₂ s →
    ∃ sent, s.pump.history.emitted = s₁.pump.history.emitted ++ sent.map Emission.frame ∧
      InOrder s.bodies (min from_seq s₁.pump.retention.high_seq) sent
  /-- The bodies are numbered from 1 to the highest seq. -/
  numbered : s.bodies.length = s.pump.retention.high_seq
  /-- An Exit frame has the highest seq, so there is at most one. -/
  exit_last : ∀ (i : ℕ) payload, s.bodies[i]? = some (.exit payload) → i + 1 = s.pump.retention.high_seq
  /-- `on_exit` has fired exactly once if the terminal record has been produced, and
  not before. -/
  exits : s.pump.exits.length = if s.pump.exit_fence.isSome then 1 else 0
  /-- The job ends as collected only by a current-generation final ack that covers the
  fence, after the terminal record. -/
  final : s.pump.job_end = some .final_acked →
    Sometime (Step blake3) (fun t e _ => ∃ fence, t.pump.exit_fence = some fence ∧ e.FinalAck t.pump fence) start es s

theorem run_logged {p p' : Pump} (hrun : Run (PumpStep blake3) p es p') (bodies : List FrameBody) :
    ∃ bodies', Run (Step blake3) ⟨p, bodies⟩ es ⟨p', bodies'⟩ := by
  induction hrun generalizing bodies with
  | nil p => exact ⟨bodies, .nil _⟩
  | @cons p q p' e es hstep _ ih =>
    obtain ⟨bodies', hrest⟩ := ih (bodies ++ p.newly blake3 e q)
    exact ⟨bodies', .cons ⟨hstep, rfl⟩ hrest⟩

/-- Three bytes, of which a consumer is sent two. Its attach is delivered again,
and the first byte is sent a second time under a window of one. Then both bytes
are acknowledged. -/
def ackedAhead : List Event := [.oneByte, .oneByte, .oneByte, .command (some (.attach 1 0 2)),
    .command (some (.attach 1 0 1)), .command (some (.ack 1 2 1 false))]

end Logged

end OpenGeni.Agent
