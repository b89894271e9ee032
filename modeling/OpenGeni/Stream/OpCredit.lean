/-
The credit of one op, end to end: the pump of the job and the consumer of its
frames, over a network that loses, repeats and reorders frames, acks and attaches.

What is in flight is not kept: a frame that was emitted, and a call that the consumer has made, may
be delivered at any time, any number of times, or never. Delivering an attach is `serve_op_attach`,
delivering an ack `handle_op_ack`, and the exit record is decoded by a parameter. Answers to the
consumer's requests are whatever the outside sends. The final ack, which is the client's and not the
consumer's, is left out.
-/
import OpenGeni.Agent.LinkPace
import OpenGeni.Runtime.CreditBooks

namespace OpenGeni.Stream

open OpenGeni.Lib OpenGeni.Engine OpenGeni.Agent OpenGeni.Runtime

/-! ## The two ends of an op -/

def wire_channel : Channel → OpChannel
  | .stdout => .stdout
  | .stderr => .stderr
  | .content => .content

def DEFAULT_WINDOW_BYTES : ℕ := 4 * 1024 * 1024

def clamp_window (max_frame_bytes requested : ℕ) : ℕ :=
  let window := if requested = 0 then DEFAULT_WINDOW_BYTES else requested
  if window < max_frame_bytes then max_frame_bytes else window

structure OpSettings where
  opId : String
  windowBytes : ℕ
  /-- The number that the consumer's attach generation spells. -/
  generation : ℕ
  max_frame_bytes : ℕ
  blake3 : List UInt8 → List UInt8
  /-- `OpExit::decode`. -/
  decodeExit : List UInt8 → Option OpExit
  client : ConsumerConfig

namespace OpSettings

variable (o : OpSettings)

def granted : ℕ := clamp_window o.max_frame_bytes o.windowBytes

/-- `frame_publisher`: a frame as the consumer decodes it. One without a body is not published. -/
def wire (frame : Frame) : OpFrame where
  opId := o.opId
  seq := frame.seq
  body := match frame.body with
    | .data channel bytes => some (.data (wire_channel channel) bytes)
    | .progress => some .progress
    | .exit payload => (o.decodeExit payload).map .exit

def frames (bodies : List FrameBody) : List OpFrame := numberFrom (fun seq body => o.wire ⟨seq, body⟩) 0 bodies

end OpSettings

structure OpEnds where
  job : Logged
  consumer : OpConsumer
  /-- Whether the pump has served OpStart's own attach. -/
  opened : Bool := false
  /-- The newest ack that has arrived, counted in the consumer's calls from 1. -/
  heard : ℕ := 0

inductive OpEvent
  | opened
  | pump (event : PumpEvent)
  | attach (k : ℕ)
  | ack (k : ℕ)
  | frame (k now : ℕ)
  | consumer (event : ConsumerEvent)

inductive OpStep (o : OpSettings) : OpEnds → OpEvent → OpEnds → Prop
  /-- `serve_op_start` attaches the consumer that subscribed before it asked. -/
  | opened {s : OpEnds} {job : Logged} (hopened : s.opened = false)
      (hjob : Logged.Step o.blake3 s.job (.wake (.command (some (.attach 1 0 o.granted)))) job) :
      OpStep o s .opened { s with job, opened := true }
  | pump {s : OpEnds} {event : PumpEvent} {job : Logged} (hattach : event.attach? = none)
      (hack : event.ack? = none) (hjob : Logged.Step o.blake3 s.job event job) :
      OpStep o s (.pump event) { s with job }
  /-- `serve_op_attach`: no window means the one granted at OpStart. -/
  | attach {s : OpEnds} {k fromSeq windowBytes : ℕ} {job : Logged} (hopened : s.opened = true)
      (hcall : s.consumer.calls[k]? = some (.opAttach fromSeq windowBytes))
      (hjob : Logged.Step o.blake3 s.job
        (.wake (.command (some (.attach o.generation fromSeq (if 0 < windowBytes then windowBytes else o.granted))))) job) :
      OpStep o s (.attach k) { s with job }
  /-- `handle_op_ack`. -/
  | ack {s : OpEnds} {k : ℕ} {ack : OpAck} {job : Logged} (hopened : s.opened = true)
      (hcall : s.consumer.calls[k]? = some (.publish ack))
      (hjob : Logged.Step o.blake3 s.job
        (.wake (.command (some (.ack o.generation ack.ackedSeq ack.creditBytes ack.final)))) job) :
      OpStep o s (.ack k) { s with job, heard := max s.heard (k + 1) }
  /-- A frame reaches the consumer while it is subscribed. -/
  | frame {s : OpEnds} {k : ℕ} {frame : Frame} (now : ℕ) (hemitted : s.job.pump.history.emitted[k]? = some frame)
      (hbody : (o.wire frame).body.isSome) (htorn : s.consumer.torn = false) :
      OpStep o s (.frame k now) { s with consumer := s.consumer.onFramePayload now (some (o.wire frame)) }
  | consumer {s : OpEnds} {event : ConsumerEvent} {consumer : OpConsumer}
      (hframe : ∀ now payload, event ≠ .frame now payload)
      (hstep : ConsumerStep o.client s.consumer event consumer) : OpStep o s (.consumer event) { s with consumer }

/-- A fresh op: the job that OpStart begins, and the consumer that has subscribed. -/
def OpEnds.new (o : OpSettings) (retention : RetentionConfig) (hooks : JobHooks) (deadline : Option ℕ)
    (generation : String) (now : ℕ) : OpEnds where
  job := .new retention hooks deadline ⟨o.max_frame_bytes⟩
  consumer := .new o.opId generation o.windowBytes now

namespace OpEnds

/-! ## In step -/

/-- The consumer has the frame: applied, or waiting for the ones before it. -/
def holds (s : OpEnds) (seq : ℕ) : Bool := decide (seq ≤ s.consumer.lastApplied) || decide (seq ∈ s.consumer.stash)

/-- The payload emitted in the current attachment that the consumer has not received. -/
def inFlight (s : OpEnds) : ℕ :=
  ((s.job.pump.history.attachment.filter fun e => !s.holds e.frame.seq).map fun e => Frame.payload_len e.frame).sum

def WithinOneWindow (window : ℕ) (s : OpEnds) : Prop := s.inFlight ≤ window ∨
    ∃ e ∈ s.job.pump.history.attachment, window < Frame.payload_len e.frame ∧
      s.inFlight ≤ window + Frame.payload_len e.frame

def LatestArrived (s : OpEnds) : Prop := ∀ k ack, s.consumer.calls[k]? = some (.publish ack) → k < s.heard

instance (s : OpEnds) : Decidable s.LatestArrived :=
  decidable_of_iff (∀ k < s.consumer.calls.length, ∀ ack ∈ s.consumer.calls[k]?.bind Call.ack, k < s.heard) (by
    constructor
    · intro h k ack hcall
      exact h k (List.getElem?_eq_some_iff.1 hcall).1 ack (by rw [hcall]; rfl)
    · intro h k _ ack hack
      obtain ⟨call, hcall, hpublish⟩ := Option.bind_eq_some_iff.1 hack
      cases call with
      | publish ack' => exact h k ack' hcall
      | _ => cases hpublish)

/-- With everything received and the latest ack arrived, the next retained frame may be sent. -/
def KeepsUp (s : OpEnds) : Prop :=
  s.job.pump.flow.attached = true → (∀ e ∈ s.job.pump.history.attachment, s.holds e.frame.seq = true) →
    s.LatestArrived → ∀ body ∈ s.job.bodies[max s.job.pump.flow.sent_hi s.job.pump.retention.floor]?,
      s.job.pump.flow.may_send body.payload_len = true

instance (window : ℕ) (s : OpEnds) : Decidable (s.WithinOneWindow window) :=
  inferInstanceAs (Decidable (_ ∨ ∃ e ∈ s.job.pump.history.attachment, _ ∧ _))

instance (s : OpEnds) : Decidable s.KeepsUp :=
  inferInstanceAs (Decidable (_ = true → (∀ e ∈ s.job.pump.history.attachment, _ = true) → s.LatestArrived →
    ∀ body ∈ s.job.bodies[max s.job.pump.flow.sent_hi s.job.pump.retention.floor]?, _ = true))

/-- The grants of the consumer and the flow of the runner are in step. -/
structure InStep (window : ℕ) (s : OpEnds) : Prop where
  within : s.WithinOneWindow window
  keepsUp : s.KeepsUp

/-! ## When they are -/

/-- The payload numbered in `(lo, hi]`. -/
def payload (s : OpEnds) (lo hi : ℕ) : ℕ := (((s.job.bodies.take hi).drop lo).map FrameBody.payload_len).sum

def Clean (o : OpSettings) (s : OpEnds) : OpEvent → Prop
  -- the runner takes the consumer's window as it is
  | .opened => o.granted ≤ o.windowBytes
  -- a frame takes at most half a window, and fits a record
  | .pump event => s.job.pump.StepFits o.blake3 event ∧
      ∀ body ∈ s.job.pump.appended o.blake3 event, body.payload_len ≤ o.windowBytes - o.windowBytes / 2
  -- the latest ack is still to come, or it granted nothing beyond the start of the attachment
  | .attach k => o.granted ≤ o.windowBytes ∧ (s.LatestArrived →
      ∀ fromSeq ∈ s.consumer.calls[k]?.bind Call.attachFrom, s.consumer.creditAtLastAck ≤ s.payload 0 fromSeq)
  -- no newer ack has arrived, the consumer is attached, and it is granted one window beyond what it
  -- has of the attachment
  | .ack k => s.heard ≤ k + 1 ∧ s.job.pump.flow.attach_gen = o.generation ∧
      ∀ ack ∈ s.consumer.calls[k]?.bind Call.ack,
        ack.creditBytes ≤ o.windowBytes + s.payload s.job.pump.history.attach_from s.consumer.lastApplied
  | .frame _ _ => True
  | .consumer _ => True

instance (o : OpSettings) (s : OpEnds) : (e : OpEvent) → Decidable (s.Clean o e)
  | .opened => inferInstanceAs (Decidable (_ ≤ _))
  | .pump event => inferInstanceAs (Decidable (s.job.pump.StepFits o.blake3 event ∧
      ∀ body ∈ s.job.pump.appended o.blake3 event, _))
  | .attach k => inferInstanceAs (Decidable (_ ∧ (s.LatestArrived →
      ∀ fromSeq ∈ s.consumer.calls[k]?.bind Call.attachFrom, _)))
  | .ack k => inferInstanceAs (Decidable (_ ∧ _ ∧ ∀ ack ∈ s.consumer.calls[k]?.bind Call.ack, _))
  | .frame _ _ => inferInstanceAs (Decidable True)
  | .consumer _ => inferInstanceAs (Decidable True)

end OpEnds

/-- What holds at the two ends on the way, over the link that the pump represents. -/
structure OpEnds.Sound (o : OpSettings) (s : OpEnds) (l : Link) : Prop where
  mirrors : s.job.Mirrors l
  sealed : s.job.Sealed
  paced : l.Paced o.windowBytes s.consumer.lastApplied
  reads : ∃ b, s.consumer.assembly = .of b ∧ b.Within (o.frames s.job.bodies)
  books : s.consumer.Books
  level : s.consumer.Level
  window : s.consumer.windowBytes = o.windowBytes
  heard_le : s.heard ≤ s.consumer.calls.length
  unopened : s.opened = false → l.flow.attached = false ∧ l.flow.attach_gen = 0 ∧ s.heard = 0
  /-- Counted from the start of the op, the window in force is what the consumer has granted. -/
  granted : s.opened = true → s.LatestArrived →
    s.consumer.creditAtLastAck + o.windowBytes ≤ l.flow.window_bytes + l.payload 0 l.history.attach_from
  sizes : ∀ body ∈ s.job.bodies, body.payload_len ≤ o.windowBytes - o.windowBytes / 2

section Proofs

variable {o : OpSettings} {s s' : OpEnds} {l : Link} {e : OpEvent}

/-! ## The frames of the log -/

theorem OpSettings.frames_append (o : OpSettings) (bodies more : List FrameBody) :
    ∃ later, o.frames (bodies ++ more) = o.frames bodies ++ later := by
  unfold OpSettings.frames
  rw [numberFrom_append]
  exact ⟨_, rfl⟩

variable {bodies : List FrameBody}

theorem OpSettings.frames_getElem? (o : OpSettings) {f : Frame} (hpos : 0 < f.seq)
    (hbody : bodies[f.seq - 1]? = some f.body) :
    (o.frames bodies)[(o.wire f).seq - 1]? = some (o.wire f) := by
  show (o.frames bodies)[f.seq - 1]? = _
  unfold OpSettings.frames
  rw [numberFrom_getElem?, hbody, Option.map_some, Nat.zero_add]
  have hseq : f.seq - 1 + 1 = f.seq := Nat.sub_add_cancel hpos
  rw [hseq]

theorem OpSettings.frames_length (o : OpSettings) (bodies : List FrameBody) :
    (o.frames bodies).length = bodies.length := by
  unfold OpSettings.frames
  rw [numberFrom_length]

theorem OpSettings.wire_dataBytes (o : OpSettings) {f : Frame} (hexit : f.body.is_exit = false) :
    (o.wire f).dataBytes = Frame.payload_len f := by
  obtain ⟨seq, body⟩ := f
  cases body with
  | data | progress => rfl
  | exit payload => cases hexit

theorem OpSettings.payloadBytes_frames (o : OpSettings) (hexit : ∀ body ∈ bodies, body.is_exit = false) :
    payloadBytes (o.frames bodies) = (bodies.map FrameBody.payload_len).sum := by
  unfold payloadBytes OpSettings.frames
  congr 1
  apply List.ext_getElem?
  intro i
  rw [List.getElem?_map, List.getElem?_map, numberFrom_getElem?, Option.map_map]
  cases hbody : bodies[i]? with
  | none => rfl
  | some body =>
    have hplain : body.is_exit = false := hexit body (List.mem_of_getElem? hbody)
    exact congrArg some (o.wire_dataBytes hplain)

theorem OpSettings.frames_take (o : OpSettings) (bodies : List FrameBody) (n : ℕ) :
    o.frames (bodies.take n) = (o.frames bodies).take n :=
  (numberFrom_take n).symm

namespace OpEnds

/-! ## What the invariant says -/

theorem Sound.payload_eq (h : s.Sound o l) (lo hi : ℕ) : s.payload lo hi = l.payload lo hi := by
  unfold payload Link.payload AckLog.weight AckLog.between
  rw [h.mirrors.bodies]

theorem Sound.flow_eq (h : s.Sound o l) : s.job.pump.flow = l.flow := h.mirrors.models.flow

theorem Sound.history_eq (h : s.Sound o l) : s.job.pump.history = l.history := h.mirrors.models.history

theorem Sound.stash_later (h : s.Sound o l) {seq : ℕ} (hseq : seq ∈ s.consumer.stash) :
    s.consumer.lastApplied + 1 < seq := by
  obtain ⟨b, hb, hwithin⟩ := h.reads
  have hstash : s.consumer.stash = b.stash := congrArg Assembly.stash hb
  have hlast : s.consumer.lastApplied = b.released.length := congrArg Assembly.lastApplied hb
  rw [hstash] at hseq
  obtain ⟨frame, hframe⟩ := Option.isSome_iff_exists.1 (AList.lookup_isSome.2 hseq)
  have hlt := (hwithin.stashed hframe).1
  rw [Reorder.next] at hlt
  omega

theorem Sound.keyed (h : s.Sound o l) : ∀ k f, s.consumer.stash.lookup k = some f → f.seq = k := by
  intro k f hk
  obtain ⟨b, hb, hwithin⟩ := h.reads
  have hstash : s.consumer.stash = b.stash := congrArg Assembly.stash hb
  rw [hstash] at hk
  obtain ⟨hle, hget⟩ := hwithin.stashed hk
  unfold OpSettings.frames at hget
  rw [numberFrom_getElem?, Option.map_eq_some_iff] at hget
  obtain ⟨body, -, rfl⟩ := hget
  show 0 + (k - 1) + 1 = k
  omega

/-- **What the consumer lacks fits one window.** -/
theorem Sound.within (h : s.Sound o l) : s.WithinOneWindow o.windowBytes := by
  left
  unfold inFlight
  rw [h.history_eq]
  apply h.paced.lacking_le
  intro e hlacks
  unfold holds at hlacks
  rw [Bool.not_eq_true', Bool.or_eq_false_iff, decide_eq_false_iff_not] at hlacks
  exact Nat.lt_of_not_le hlacks.1

theorem Sound.received_all (h : s.Sound o l) (hall : ∀ e ∈ l.history.attachment, s.holds e.frame.seq = true) :
    l.flow.sent_hi ≤ s.consumer.lastApplied := by
  by_contra hbehind
  have hnext : l.history.attach_from < s.consumer.lastApplied + 1 := Nat.lt_succ_of_le h.paced.from_le
  obtain ⟨e, he, hseq⟩ := h.paced.sent_in_attachment hnext (by omega)
  have hheld := hall e he
  unfold holds at hheld
  rw [hseq, Bool.or_eq_true, decide_eq_true_iff, decide_eq_true_iff] at hheld
  rcases hheld with happlied | hstashed
  · omega
  · have hlater := h.stash_later hstashed
    omega

theorem Sound.payload_le_received (h : s.Sound o l) {hi : ℕ} (happlied : hi ≤ s.consumer.lastApplied)
    (hnext : hi < s.job.bodies.length) : l.payload 0 hi ≤ s.consumer.receivedPayloadBytes := by
  obtain ⟨b, hb, hwithin⟩ := h.reads
  have hlast : s.consumer.lastApplied = b.released.length := congrArg Assembly.lastApplied hb
  have hreceived : s.consumer.receivedPayloadBytes = payloadBytes b.released :=
    congrArg Assembly.receivedPayloadBytes hb
  have hexit : ∀ body ∈ s.job.bodies.take hi, body.is_exit = false := by
    intro body hmem
    obtain ⟨i, hi'⟩ := List.mem_iff_getElem?.1 hmem
    rw [List.getElem?_take] at hi'
    split_ifs at hi' with hlt
    rw [Bool.eq_false_iff]
    intro hexit
    have hend := h.sealed.exit_last hi' hexit
    rw [h.sealed.high_seq] at hend
    omega
  have hcount : l.payload 0 hi = payloadBytes ((o.frames s.job.bodies).take hi) := by
    rw [← OpSettings.frames_take, o.payloadBytes_frames hexit]
    unfold Link.payload AckLog.weight AckLog.between
    rw [h.mirrors.bodies, List.drop_zero]
  rw [hcount, hreceived, hwithin.released_eq, ← hlast]
  have hinit : (o.frames s.job.bodies).take hi <+: (o.frames s.job.bodies).take s.consumer.lastApplied :=
    List.take_prefix_take_left happlied
  refine List.Sublist.sum_le_sum (List.Sublist.map _ hinit.sublist) fun _ _ => Nat.zero_le _

/-- **The next retained frame may be sent.** -/
theorem Sound.keepsUp (h : s.Sound o l) : s.KeepsUp := by
  intro hatt hall harrived body hbody
  rw [h.history_eq] at hall
  rw [h.flow_eq] at hatt hbody ⊢
  rw [h.mirrors.models.retention.floor, h.paced.floor, Nat.max_zero] at hbody
  have hopened : s.opened = true := by
    by_contra hclosed
    have hdetached := (h.unopened (Bool.not_eq_true _ ▸ hclosed)).1
    rw [hdetached] at hatt
    cases hatt
  have hnext : l.flow.sent_hi < s.job.bodies.length := (List.getElem?_eq_some_iff.1 hbody).1
  have hreceived : l.payload 0 l.flow.sent_hi ≤ s.consumer.receivedPayloadBytes :=
    h.payload_le_received (h.received_all hall) hnext
  have hsplit : l.payload 0 l.flow.sent_hi = l.payload 0 l.history.attach_from + l.flow.unacked_sent_bytes := by
    rw [h.paced.ledger]
    exact Link.payload_split (Nat.zero_le _) h.paced.wf.from_le
  have hgranted := h.granted hopened harrived
  have hlevel := h.level
  unfold OpConsumer.Level at hlevel
  rw [h.window] at hlevel
  have hsize := h.sizes body (List.mem_of_getElem? hbody)
  rw [CreditFlow.may_send_iff hatt]
  -- half a window at most is not granted yet, and the frame takes at most the other half
  right
  by_cases hhalf : o.windowBytes / 2 = 0
  · rw [hhalf, Nat.max_eq_left (Nat.zero_le 1)] at hlevel
    omega
  · rw [Nat.max_eq_right (Nat.one_le_iff_ne_zero.2 hhalf)] at hlevel
    omega

theorem Sound.inStep (h : s.Sound o l) : s.InStep o.windowBytes := ⟨h.within, h.keepsUp⟩

/-! ## What a step does -/

theorem new_sound (o : OpSettings) (retention : RetentionConfig) (hooks : JobHooks) (deadline : Option ℕ)
    (generation : String) (now : ℕ) :
    (OpEnds.new o retention hooks deadline generation now).Sound o Link.init where
  mirrors := Logged.new_mirrors _ _ _ _
  sealed := Logged.new_sealed _ _ _ _
  paced := Link.init_paced _
  reads := ⟨.empty, rfl, Reorder.empty_within _⟩
  books := OpConsumer.new_books _ _ _ _
  level := OpConsumer.new_level _ _ _ _
  window := rfl
  heard_le := le_rfl
  unopened := fun _ => ⟨rfl, rfl, rfl⟩
  granted := by
    intro hopened
    cases hopened
  sizes := by
    intro body hbody
    cases hbody

theorem Sound.credit_eq_zero (h : s.Sound o l) (hheard : s.heard = 0) (harrived : s.LatestArrived) :
    s.consumer.creditAtLastAck = 0 := by
  have hnone : s.consumer.calls.filterMap Call.ack = [] := by
    rw [List.filterMap_eq_nil_iff]
    intro call hcall
    obtain ⟨k, hk⟩ := List.mem_iff_getElem?.1 hcall
    cases call with
    | publish ack =>
      have hlt := harrived k ack hk
      omega
    | _ => rfl
  have hgranted := h.books.granted
  unfold OpConsumer.granted at hgranted
  rw [hnone, List.getLast?_nil, Option.map_none, Option.getD_none] at hgranted
  omega

theorem Sound.latest_credit (h : s.Sound o l) {k : ℕ} {ack : OpAck} (hcall : s.consumer.calls[k]? = some (.publish ack))
    (hlast : ∀ k' ack', s.consumer.calls[k']? = some (.publish ack') → k' ≤ k) :
    ack.creditBytes = s.consumer.creditAtLastAck + o.windowBytes := by
  have hgranted := h.books.granted
  rw [h.window] at hgranted
  rw [← hgranted]
  obtain ⟨hlt, hget⟩ := List.getElem?_eq_some_iff.1 hcall
  -- behind it there are no acks
  have hlater : (s.consumer.calls.drop (k + 1)).filterMap Call.ack = [] := by
    rw [List.filterMap_eq_nil_iff]
    intro call hmem
    obtain ⟨i, hi⟩ := List.mem_iff_getElem?.1 hmem
    rw [List.getElem?_drop] at hi
    cases call with
    | publish ack' =>
      have hle := hlast _ ack' hi
      omega
    | _ => rfl
  have hsplit : s.consumer.calls = s.consumer.calls.take k ++ .publish ack :: s.consumer.calls.drop (k + 1) := by
    rw [← hget, List.getElem_cons_drop, List.take_append_drop]
  unfold OpConsumer.granted
  rw [hsplit, List.filterMap_append, List.filterMap_cons_some (show Call.ack (.publish ack) = some ack from rfl), hlater,
    List.getLast?_concat]
  rfl

variable {job : Logged}

theorem Sound.jobStep (h : s.Sound o l) {event : PumpEvent}
    (hjob : Logged.Step o.blake3 s.job event job) (hfit : s.job.pump.StepFits o.blake3 event)
    (hsize : ∀ body ∈ s.job.pump.appended o.blake3 event, body.payload_len ≤ o.windowBytes - o.windowBytes / 2) :
    ∃ l', job.Mirrors l' ∧ l.Step event l' ∧ job.Sealed ∧
      (∃ b, s.consumer.assembly = .of b ∧ b.Within (o.frames job.bodies)) ∧
      ∀ body ∈ job.bodies, body.payload_len ≤ o.windowBytes - o.windowBytes / 2 := by
  obtain ⟨l', hmirrors, hlink⟩ := h.mirrors.step hjob hfit
  refine ⟨l', hmirrors, hlink, h.sealed.step hjob, ?_, ?_⟩
  · obtain ⟨b, hb, hwithin⟩ := h.reads
    obtain ⟨later, hlater⟩ := o.frames_append s.job.bodies (s.job.pump.newly o.blake3 event job.pump)
    refine ⟨b, hb, ?_⟩
    rw [hjob.2, hlater]
    exact hwithin.extend later
  · intro body hbody
    rw [hjob.2] at hbody
    rcases List.mem_append.1 hbody with hbefore | hnew
    · exact h.sizes body hbefore
    · unfold Pump.newly at hnew
      split_ifs at hnew
      · exact hsize body (Option.mem_toList.1 hnew)
      · cases hnew

theorem command_fits (blake3 : List UInt8 → List UInt8) (p : Pump) (cmd : JobCommand) :
    p.StepFits blake3 (.wake (.command (some cmd))) := by
  intro body hbody
  cases hbody

theorem clamp_window_ge (max_frame_bytes requested : ℕ) : requested ≤ clamp_window max_frame_bytes requested := by
  unfold clamp_window
  dsimp only
  split_ifs with hzero hfloor hfloor
  · omega
  · omega
  · omega
  · exact le_rfl

theorem Sound.opened (h : s.Sound o l) (hopened : s.opened = false) (hclean : o.granted ≤ o.windowBytes)
    (hjob : Logged.Step o.blake3 s.job (.wake (.command (some (.attach 1 0 o.granted)))) job) :
    ∃ l', Sound o { s with job, opened := true } l' := by
  obtain ⟨l', hmirrors, hlink, hsealed, hreads, hsizes⟩ := h.jobStep hjob (command_fits _ _ _) (by rintro _ ⟨⟩)
  cases hlink with
  | append hcarries => cases hcarries
  | quiet hquiet => cases hquiet
  | attach =>
    obtain ⟨-, hgen, hheard⟩ := h.unopened hopened
    refine ⟨_, hmirrors, hsealed, h.paced.attach 1 (Nat.zero_le _) hclean, hreads, h.books, h.level, h.window,
      h.heard_le, ?_, ?_, hsizes⟩
    · intro hclosed
      cases hclosed
    · intro _ harrived
      have hcredit : s.consumer.creditAtLastAck = 0 := h.credit_eq_zero hheard harrived
      have haccepted : ¬ ((1 : ℕ) = 0 ∨ 1 < l.flow.attach_gen) := by omega
      show s.consumer.creditAtLastAck + o.windowBytes ≤ _
      rw [hcredit, Nat.zero_add, Link.attach, if_neg haccepted, Link.flush_window]
      exact (clamp_window_ge _ _).trans (Nat.le_add_right _ _)

theorem Sound.pump (h : s.Sound o l) {event : PumpEvent} (hattach : event.attach? = none)
    (hack : event.ack? = none) (hclean : s.Clean o (.pump event))
    (hjob : Logged.Step o.blake3 s.job event job) :
    ∃ l', Sound o { s with job } l' := by
  obtain ⟨hfit, hsize⟩ := hclean
  obtain ⟨l', hmirrors, hlink, hsealed, hreads, hsizes⟩ := h.jobStep hjob hfit hsize
  have hsame := h.paced.step_sameWindow hlink hattach hack
  refine ⟨l', hmirrors, hsealed, h.paced.step hlink hattach hack, hreads, h.books, h.level, h.window, h.heard_le, ?_, ?_,
    hsizes⟩
  · intro hclosed
    obtain ⟨hdetached, hgen, hheard⟩ := h.unopened hclosed
    refine ⟨?_, hsame.attach_gen.trans hgen, hheard⟩
    rw [Bool.eq_false_iff]
    intro hatt
    rw [hsame.attached hatt] at hdetached
    cases hdetached
  · intro hopened harrived
    rw [hsame.window_bytes, hsame.attach_from, hsame.before]
    exact h.granted hopened harrived

theorem Sound.attach (h : s.Sound o l) {k fromSeq windowBytes : ℕ} (hopened : s.opened = true)
    (hcall : s.consumer.calls[k]? = some (.opAttach fromSeq windowBytes)) (hclean : s.Clean o (.attach k))
    (hjob : Logged.Step o.blake3 s.job
      (.wake (.command (some (.attach o.generation fromSeq (if 0 < windowBytes then windowBytes else o.granted))))) job) :
    ∃ l', Sound o { s with job } l' := by
  obtain ⟨hgranted, hcredit⟩ := hclean
  obtain ⟨hfrom, hwindow⟩ := h.books.attaches fromSeq windowBytes (List.mem_of_getElem? hcall)
  rw [h.window] at hwindow
  -- either window is the consumer's
  have hsame : (if 0 < windowBytes then windowBytes else o.granted) = o.windowBytes := by
    have hfull : o.granted = o.windowBytes := Nat.le_antisymm hgranted (clamp_window_ge _ _)
    rcases hwindow with hzero | hown
    · rw [hzero, if_neg (Nat.lt_irrefl 0), hfull]
    · rw [hown, hfull, ite_self]
  rw [hsame] at hjob
  obtain ⟨l', hmirrors, hlink, hsealed, hreads, hsizes⟩ := h.jobStep hjob (command_fits _ _ _) (by rintro _ ⟨⟩)
  cases hlink with
  | append hcarries => cases hcarries
  | quiet hquiet => cases hquiet
  | attach =>
    refine ⟨_, hmirrors, hsealed, h.paced.attach _ hfrom le_rfl, hreads, h.books, h.level, h.window, h.heard_le, ?_, ?_,
      hsizes⟩
    · intro hclosed
      rw [show s.opened = true from hopened] at hclosed
      cases hclosed
    · intro _ harrived
      show s.consumer.creditAtLastAck + o.windowBytes ≤ _
      rw [Link.attach]
      split_ifs
      · exact h.granted hopened harrived
      · have hbefore := hcredit harrived fromSeq (by rw [hcall]; rfl)
        rw [h.payload_eq] at hbefore
        rw [Link.flush_window, Link.flush_attach_from]
        unfold Link.payload at hbefore ⊢
        rw [Link.flush_log]
        have hstart : l.log.weight FrameBody.payload_len 0 (min fromSeq l.log.high) =
            l.log.weight FrameBody.payload_len 0 fromSeq := AckLog.weight_min_high _ _ _ _
        show s.consumer.creditAtLastAck + o.windowBytes ≤
          o.windowBytes + l.log.weight FrameBody.payload_len 0 (min fromSeq l.log.high)
        omega

theorem Sound.ack (h : s.Sound o l) {k : ℕ} {ack : OpAck} (hopened : s.opened = true)
    (hcall : s.consumer.calls[k]? = some (.publish ack)) (hclean : s.Clean o (.ack k))
    (hjob : Logged.Step o.blake3 s.job
      (.wake (.command (some (.ack o.generation ack.ackedSeq ack.creditBytes ack.final)))) job) :
    ∃ l', Sound o { s with job, heard := max s.heard (k + 1) } l' := by
  obtain ⟨hnewest, hgen, hcredit⟩ := hclean
  obtain ⟨hseq, -⟩ := h.books.acks ack (List.mem_of_getElem? hcall)
  rw [hseq] at hjob
  obtain ⟨l', hmirrors, hlink, hsealed, hreads, hsizes⟩ := h.jobStep hjob (command_fits _ _ _) (by rintro _ ⟨⟩)
  rw [h.flow_eq] at hgen
  have hgrant : ack.creditBytes ≤ o.windowBytes + l.payload l.history.attach_from s.consumer.lastApplied := by
    have hbound := hcredit ack (by rw [hcall]; rfl)
    rw [h.payload_eq, h.history_eq] at hbound
    exact hbound
  cases hlink with
  | append hcarries => cases hcarries
  | quiet hquiet => cases hquiet
  | ack =>
    refine ⟨_, hmirrors, hsealed, h.paced.ack _ hgrant, hreads, h.books, h.level, h.window, ?_, ?_, ?_, hsizes⟩
    · exact Nat.max_le.2 ⟨h.heard_le, (List.getElem?_eq_some_iff.1 hcall).1⟩
    · intro hclosed
      rw [show s.opened = true from hopened] at hclosed
      cases hclosed
    · intro _ harrived
      -- the ack that arrived is the latest
      have hlatest : ack.creditBytes = s.consumer.creditAtLastAck + o.windowBytes := by
        refine h.latest_credit hcall fun k' ack' hcall' => ?_
        have hlt : k' < max s.heard (k + 1) := harrived k' ack' hcall'
        omega
      show s.consumer.creditAtLastAck + o.windowBytes ≤ _
      rw [Link.ack, if_neg (not_not_intro hgen.symm), Link.flush_window, ← hlatest]
      exact Nat.le_add_right _ _

/-- **The consumer takes a step.** Whatever it grants is still to arrive. -/
theorem Sound.consumerStep (h : s.Sound o l) {consumer : OpConsumer} (hleads : s.consumer.Leads consumer)
    (hlevel : consumer.Level) (hreads : ∃ b, consumer.assembly = .of b ∧ b.Within (o.frames s.job.bodies)) :
    Sound o { s with consumer } l := by
  have hfrontier : consumer.lastApplied ≤ l.log.high := by
    obtain ⟨b, hb, hwithin⟩ := hreads
    have hlast : consumer.lastApplied = b.released.length := congrArg Assembly.lastApplied hb
    have hlength := hwithin.released.length_le
    rw [o.frames_length, ← h.mirrors.bodies] at hlength
    rw [hlast]
    exact hlength
  obtain ⟨more, hcalls, hcredit⟩ := hleads.calls
  refine ⟨h.mirrors, h.sealed, h.paced.advance hleads.applied hfrontier, hreads, hleads.books h.books, hlevel,
    hleads.window.trans h.window, ?_, h.unopened, ?_, h.sizes⟩
  · show s.heard ≤ consumer.calls.length
    rw [hcalls, List.length_append]
    exact h.heard_le.trans (Nat.le_add_right _ _)
  · intro hopened harrived
    have hnone : more.filterMap Call.ack = [] := by
      rw [List.filterMap_eq_nil_iff]
      intro call hmem
      obtain ⟨i, hi⟩ := List.mem_iff_getElem?.1 hmem
      have hnew : consumer.calls[s.consumer.calls.length + i]? = some call := by
        rw [hcalls, List.getElem?_append_right (Nat.le_add_right _ _), Nat.add_sub_cancel_left]
        exact hi
      cases call with
      | publish ack =>
        have hlt : s.consumer.calls.length + i < s.heard := harrived _ ack hnew
        have hle := h.heard_le
        omega
      | _ => rfl
    have hbefore : s.LatestArrived := by
      intro k ack hcall
      refine harrived k ack ?_
      show consumer.calls[k]? = _
      rw [hcalls, List.getElem?_append_left (List.getElem?_eq_some_iff.1 hcall).1]
      exact hcall
    show consumer.creditAtLastAck + o.windowBytes ≤ _
    rw [hcredit hnone]
    exact h.granted hopened hbefore

theorem Sound.frame (h : s.Sound o l) {k : ℕ} {frame : Frame} (now : ℕ)
    (hemitted : s.job.pump.history.emitted[k]? = some frame) (htorn : s.consumer.torn = false) :
    Sound o { s with consumer := s.consumer.onFramePayload now (some (o.wire frame)) } l := by
  have hleads := OpConsumer.onFramePayload_leads now (some (o.wire frame)) h.keyed
  have hlevel := OpConsumer.onFramePayload_level now (some (o.wire frame)) h.level htorn
  refine h.consumerStep hleads hlevel ?_
  rw [h.history_eq] at hemitted
  obtain ⟨hpos, hbody⟩ := h.paced.genuine frame (List.mem_of_getElem? hemitted)
  rw [h.mirrors.bodies] at hbody
  obtain ⟨b, hb, hwithin⟩ := h.reads
  have hget := o.frames_getElem? hpos hbody
  unfold OpConsumer.onFramePayload
  dsimp only
  split_ifs
  · exact ⟨b, hb, hwithin⟩
  · refine ⟨_, OpConsumer.receive_assembly (o.wire frame) hb ?_, (hwithin.accept _ hget).1⟩
    intro k' f hf
    have hstash : s.consumer.stash = b.stash := congrArg Assembly.stash hb
    rw [← hstash] at hf
    exact h.keyed k' f hf

/-- **The step lemma.** -/
theorem Sound.step (h : s.Sound o l) (hstep : OpStep o s e s') (hclean : s.Clean o e) : ∃ l', s'.Sound o l' := by
  cases hstep with
  | opened hopened hjob => exact h.opened hopened hclean hjob
  | pump hattach hack hjob => exact h.pump hattach hack hclean hjob
  | attach hopened hcall hjob => exact h.attach hopened hcall hclean hjob
  | ack hopened hcall hjob => exact h.ack hopened hcall hclean hjob
  | frame now hemitted _ htorn => exact ⟨l, h.frame now hemitted htorn⟩
  | consumer hframe hstep =>
    obtain ⟨hleads, hassembly⟩ := OpConsumer.step_leads hstep hframe
    have hreceived := congrArg Assembly.receivedPayloadBytes hassembly
    obtain ⟨b, hb, hwithin⟩ := h.reads
    exact ⟨l, h.consumerStep hleads (hleads.keeps_level hreceived h.level) ⟨b, hassembly.trans hb, hwithin⟩⟩

end OpEnds

/-- **The two ends stay in step**, after any number of heals, in every state of every run whose
steps meet the condition. -/
theorem op_credit_in_step {retention : RetentionConfig} {hooks : JobHooks} {deadline : Option ℕ}
    {generation : String} {now : ℕ} {es : List OpEvent}
    (hrun : Run (Restrict (OpStep o) fun s e => s.Clean o e) (.new o retention hooks deadline generation now) es s) :
    s.InStep o.windowBytes := by
  have hsound := hrun.invariant (P := fun s => ∃ l, s.Sound o l)
    (fun _ _ _ hstep ⟨_, h⟩ => h.step hstep.1 hstep.2) ⟨_, OpEnds.new_sound o retention hooks deadline generation now⟩
  obtain ⟨l, h⟩ := hsound
  exact h.inStep

end Proofs

/-! ## Runs that fall out of step -/

section Runs

def wake (blake3 : List UInt8 → List UInt8) (job : Logged) (event : Event) : Option Logged :=
  if !job.pump.exited && job.pump.exit_fence.isNone && job.pump.enabled event then
    (job.pump.handle event).map fun pump => ⟨pump, job.bodies ++ job.pump.newly blake3 (.wake event) pump⟩
  else none

theorem wake_step {blake3 : List UInt8 → List UInt8} {job job' : Logged} {event : Event}
    (h : wake blake3 job event = some job') : Logged.Step blake3 job (.wake event) job' := by
  unfold wake at h
  split_ifs at h with hguard
  obtain ⟨pump, hpump, rfl⟩ := Option.map_eq_some_iff.1 h
  simp only [Bool.and_eq_true, Bool.not_eq_true', Option.isNone_iff_eq_none] at hguard
  obtain ⟨⟨hloop, hfence⟩, henabled⟩ := hguard
  exact ⟨.wake hloop hfence henabled hpump, rfl⟩

/-- The events of the runs below, computed: the main loop of the pump, and of the consumer's own
events `run` and the ack timer. -/
def OpEnds.exec (o : OpSettings) (s : OpEnds) : OpEvent → Option OpEnds
  | .opened =>
    if s.opened = false then
      (wake o.blake3 s.job (.command (some (.attach 1 0 o.granted)))).map fun job => { s with job, opened := true }
    else none
  | .pump (.wake event) =>
    if (PumpEvent.wake event).attach? = none ∧ (PumpEvent.wake event).ack? = none then
      (wake o.blake3 s.job event).map fun job => { s with job }
    else none
  | .attach k =>
    match s.consumer.calls[k]? with
    | some (.opAttach fromSeq windowBytes) =>
      if s.opened = true then
        (wake o.blake3 s.job (.command (some (.attach o.generation fromSeq
          (if 0 < windowBytes then windowBytes else o.granted))))).map fun job => { s with job }
      else none
    | _ => none
  | .ack k =>
    match s.consumer.calls[k]? with
    | some (.publish ack) =>
      if s.opened = true then
        (wake o.blake3 s.job (.command (some (.ack o.generation ack.ackedSeq ack.creditBytes ack.final)))).map
          fun job => { s with job, heard := max s.heard (k + 1) }
      else none
    | _ => none
  | .frame k now =>
    s.job.pump.history.emitted[k]?.bind fun frame =>
      if (o.wire frame).body.isSome ∧ s.consumer.torn = false then
        some { s with consumer := s.consumer.onFramePayload now (some (o.wire frame)) }
      else none
  | .consumer .ackTimer => some { s with consumer := s.consumer.sendAck }
  | .consumer (.started answer) =>
    match s.consumer.phase with
    | .starting => some { s with consumer := s.consumer.started answer }
    | _ => none
  | .consumer (.attached answer) =>
    match s.consumer.phase with
    | .attaching startRetries => some { s with consumer := s.consumer.attached startRetries answer }
    | _ => none
  | _ => none

theorem OpEnds.exec_step {o : OpSettings} {s s' : OpEnds} {e : OpEvent} (h : s.exec o e = some s') :
    OpStep o s e s' := by
  unfold OpEnds.exec at h
  split at h
  · split_ifs at h with hopened
    obtain ⟨job, hjob, rfl⟩ := Option.map_eq_some_iff.1 h
    exact .opened hopened (wake_step hjob)
  · split_ifs at h with hplain
    obtain ⟨job, hjob, rfl⟩ := Option.map_eq_some_iff.1 h
    exact .pump hplain.1 hplain.2 (wake_step hjob)
  · split at h
    next hcall =>
      by_cases hopened : s.opened = true
      · rw [if_pos hopened] at h
        obtain ⟨job, hjob, rfl⟩ := Option.map_eq_some_iff.1 h
        exact .attach hopened hcall (wake_step hjob)
      · rw [if_neg hopened] at h
        cases h
    · cases h
  · split at h
    next hcall =>
      split_ifs at h with hopened
      obtain ⟨job, hjob, rfl⟩ := Option.map_eq_some_iff.1 h
      exact .ack hopened hcall (wake_step hjob)
    · cases h
  · obtain ⟨frame, hframe, hsome⟩ := Option.bind_eq_some_iff.1 h
    split_ifs at hsome with hlive
    cases hsome
    exact .frame _ hframe hlive.1 hlive.2
  · cases h
    exact .consumer (by rintro _ _ ⟨⟩) (.ackTimer _)
  · split at h
    next hphase =>
      cases h
      exact .consumer (by rintro _ _ ⟨⟩) (.started _ _ hphase)
    · cases h
  · split at h
    next hphase =>
      cases h
      exact .consumer (by rintro _ _ ⟨⟩) (.attached _ _ _ hphase)
    · cases h
  · cases h

def OpSettings.small : OpSettings where
  opId := "op"
  windowBytes := 4
  generation := 1
  max_frame_bytes := 1
  blake3 := fun _ => []
  decodeExit := fun _ => none
  client := ⟨fun _ => "", 30000, 120000⟩

def OpEnds.small : OpEnds := .new .small ⟨1000, 100, 1000, 100⟩ ⟨fun _ => []⟩ none "1" 0

def begins : List OpEvent := [.opened, .consumer (.started (.ok 0)), .attach 0,
    .consumer (.attached (.ok (.opStatus ⟨.running, 1, .unspecified⟩)))]

def prints (n : ℕ) : List OpEvent := List.replicate n (.pump (.wake .oneByte))

/-- The first frame is lost, and the second one brings a heal. -/
theorem op_credit_in_step_healed :
    ∃ es s, Run (Restrict (OpStep .small) fun s e => s.Clean .small e) OpEnds.small es s ∧
      s.consumer.lastApplied = 2 ∧ s.InStep 4 := by
  have hplay : (play (guarded (OpEnds.exec .small) (OpEnds.Clean .small)) OpEnds.small
      (begins ++ prints 2 ++ [.frame 1 0, .attach 1, .frame 2 0])).any
        (fun s => decide (s.consumer.lastApplied = 2)) = true := by
    decide +kernel
  obtain ⟨s, hs, happlied⟩ := (Option.any_eq_true _ _).1 hplay
  have hrun : Run (Restrict (OpStep .small) fun s e => s.Clean .small e) OpEnds.small _ s :=
    (guarded_run hs).mono (P := fun _ => True) (fun _ _ _ _ _ => trivial)
      (fun _ _ _ _ hstep => ⟨OpEnds.exec_step hstep.1, hstep.2⟩) trivial
  exact ⟨_, s, hrun, of_decide_eq_true happlied, op_credit_in_step hrun⟩

theorem exec_run {o : OpSettings} {s s' : OpEnds} {es : List OpEvent} (h : play (OpEnds.exec o) s es = some s') :
    Run (OpStep o) s es s' :=
  (run_of_play h).mono (P := fun _ => True) (fun _ _ _ _ _ => trivial) (fun _ _ _ _ hstep => OpEnds.exec_step hstep)
    trivial

/-- After four bytes are received a heal starts the runner's count again, and the next ack lets it run eight bytes
ahead of a window of four. And with no heal, an ack that arrives behind a newer one leaves the runner with output it
may not send, though all it sent was received. -/
theorem op_credit_falls_out_of_step : (∃ es s, Run (OpStep .small) OpEnds.small es s ∧ ¬ s.WithinOneWindow 4) ∧
      ∃ es s, Run (OpStep .small) OpEnds.small es s ∧ ¬ s.KeepsUp := by
  constructor
  · have hplay : (play (OpEnds.exec .small) OpEnds.small
        (begins ++ prints 4 ++ [.frame 0 0, .frame 1 0, .frame 2 0, .frame 3 0, .ack 2] ++ prints 2 ++
          [.frame 5 0, .attach 3, .frame 6 0, .ack 4] ++ prints 8)).any
        (fun s => !decide (s.WithinOneWindow 4)) = true := by
      decide +kernel
    obtain ⟨s, hs, hover⟩ := (Option.any_eq_true _ _).1 hplay
    rw [Bool.not_eq_true', decide_eq_false_iff_not] at hover
    exact ⟨_, s, exec_run hs, hover⟩
  · have hplay : (play (OpEnds.exec .small) OpEnds.small
        (begins ++ [.consumer .ackTimer] ++ prints 4 ++ [.frame 0 0, .frame 1 0, .frame 2 0, .frame 3 0, .ack 3, .ack 1,
          .pump (.wake (.child_exit (.ok (some 0))))] ++ prints 1)).any
        (fun s => !decide s.KeepsUp) = true := by
      decide +kernel
    obtain ⟨s, hs, hstuck⟩ := (Option.any_eq_true _ _).1 hplay
    rw [Bool.not_eq_true', decide_eq_false_iff_not] at hstuck
    exact ⟨_, s, exec_run hs, hstuck⟩

end Runs

end OpenGeni.Stream
