/-
What the consumer reassembles is the runner's log.

`OpLog` is the runner's log of one op: numbered frames, Data or Progress, and one Exit
at the end. The consumer is shown deliveries drawn from it, in any order and any number
of times, with torn payloads and frames of other ops in between.

Two views of the consumer carry the proof. Its `assembly` (frontier, stash, chunks,
total, exit) is a function of a reorder buffer that the frames pass through, so the
library's invariant says that what was applied is a prefix of the log. Its `standing`
(race, phase, settle calls) changes in `maybeSettle` and in `run` only. The difficulty is
in the first view: the direct path, the drain loop and the stash advance one frontier.
-/
import OpenGeni.Lib.Reorder
import OpenGeni.Lib.Numbered
import OpenGeni.Runtime.OpStream

namespace OpenGeni.Runtime

open OpenGeni.Lib

/-! ## What a list of frames carries -/

def OpFrame.dataOn (name : StreamName) (frame : OpFrame) : Option (List UInt8) := match frame.body with
  | some (.data channel bytes) => if OP_CHANNEL_NAMES channel = some name then some bytes else none
  | _ => none

def OpFrame.dataBytes (frame : OpFrame) : ℕ := match frame.body with
  | some (.data _ bytes) => bytes.length
  | _ => 0

def OpFrame.exitRecord (frame : OpFrame) : Option (ℕ × OpExit) := match frame.body with
  | some (.exit exit) => some (frame.seq, exit)
  | _ => none

def streamOf (name : StreamName) (frames : List OpFrame) : List UInt8 :=
  (frames.filterMap (OpFrame.dataOn name)).flatten

def payloadBytes (frames : List OpFrame) : ℕ := (frames.map OpFrame.dataBytes).sum

theorem filterMap_concat {α β : Type*} (f : α → Option β) (l : List α) (a : α) :
    (l ++ [a]).filterMap f = l.filterMap f ++ (f a).toList := by
  rw [List.filterMap_append, List.filterMap_cons, List.filterMap_nil]
  cases f a <;> rfl

theorem getLast?_append_toList {α : Type*} (l : List α) (o : Option α) :
    (l ++ o.toList).getLast? = o.or l.getLast? := by
  cases o <;> simp

/-! ## The runner's log -/

inductive OutputBody
  | data (channel : OpChannel) (bytes : List UInt8)
  | progress

def OutputBody.wire : OutputBody → OpBody
  | .data channel bytes => .data channel bytes
  | .progress => .progress

structure OpLog where
  opId : String
  output : List OutputBody
  exit : OpExit

namespace OpLog

def length (log : OpLog) : ℕ := log.output.length + 1

def bodies (log : OpLog) : List OpBody := log.output.map OutputBody.wire ++ [.exit log.exit]

def frames (log : OpLog) : List OpFrame := numberFrom (fun seq body => ⟨log.opId, seq, some body⟩) 0 log.bodies

/-- A delivery drawn from the log: a torn payload, a frame of another op, or a frame of
the log. -/
def Draws (log : OpLog) (payload : Option OpFrame) : Prop :=
  ∀ frame, payload = some frame → frame.opId = log.opId → frame ∈ log.frames

variable {log : OpLog} {frame : OpFrame} {i : ℕ}

theorem frames_length (log : OpLog) : log.frames.length = log.length := by
  unfold frames bodies length
  simp

theorem seq_of_get (h : log.frames[i]? = some frame) : frame.seq = i + 1 := by
  unfold frames at h
  rw [numberFrom_getElem?, Option.map_eq_some_iff] at h
  obtain ⟨body, -, rfl⟩ := h
  exact Nat.add_comm 0 i ▸ rfl

theorem get_of_mem (h : frame ∈ log.frames) : log.frames[frame.seq - 1]? = some frame := by
  obtain ⟨i, hi⟩ := List.mem_iff_getElem?.1 h
  rw [seq_of_get hi]
  exact hi

theorem exit_seq {exit : OpExit} (h : frame ∈ log.frames) (hexit : frame.body = some (.exit exit)) :
    frame.seq = log.length := by
  obtain ⟨i, hi⟩ := List.mem_iff_getElem?.1 h
  rw [seq_of_get hi]
  unfold frames at hi
  rw [numberFrom_getElem?, Option.map_eq_some_iff] at hi
  obtain ⟨body, hbody, rfl⟩ := hi
  cases hexit
  unfold bodies at hbody
  rw [List.getElem?_append] at hbody
  split at hbody
  · -- none of the bodies before the last is an exit
    rw [List.getElem?_map, Option.map_eq_some_iff] at hbody
    obtain ⟨output, -, hwire⟩ := hbody
    cases output <;> simp [OutputBody.wire] at hwire
  next hle =>
    rw [List.length_map] at hbody hle
    have hi : i - log.output.length < 1 := (List.getElem?_eq_some_iff.1 hbody).1
    unfold length
    omega

theorem exitRecord_frames (log : OpLog) :
    (log.frames.filterMap OpFrame.exitRecord).getLast? = some (log.length, log.exit) := by
  unfold frames bodies
  rw [numberFrom_append, numberFrom, numberFrom, filterMap_concat, getLast?_append_toList]
  simp [OpFrame.exitRecord, length]

end OpLog

def ConsumerEvent.DrawnFrom (log : OpLog) : ConsumerEvent → Prop
  | .frame _ payload => log.Draws payload
  | _ => True

/-! ## The two views of the consumer -/

@[ext] structure Assembly where
  lastApplied : ℕ
  stash : AList fun _ : ℕ => OpFrame
  chunks : Chunks
  receivedPayloadBytes : ℕ
  exit : Option OpExit
  exitSeq : Option ℕ

def Assembly.of (b : Reorder OpFrame) : Assembly where
  lastApplied := b.released.length
  stash := b.stash
  chunks := ⟨b.released.filterMap (OpFrame.dataOn .stdout), b.released.filterMap (OpFrame.dataOn .stderr)⟩
  receivedPayloadBytes := payloadBytes b.released
  exit := (b.released.filterMap OpFrame.exitRecord).getLast?.map Prod.snd
  exitSeq := (b.released.filterMap OpFrame.exitRecord).getLast?.map Prod.fst

def Assembly.apply (a : Assembly) (frame : OpFrame) : Assembly where
  lastApplied := frame.seq
  stash := a.stash
  chunks := ⟨a.chunks.stdout ++ (frame.dataOn .stdout).toList, a.chunks.stderr ++ (frame.dataOn .stderr).toList⟩
  receivedPayloadBytes := a.receivedPayloadBytes + frame.dataBytes
  exit := (frame.exitRecord.map Prod.snd).or a.exit
  exitSeq := (frame.exitRecord.map Prod.fst).or a.exitSeq

theorem Assembly.apply_of {b : Reorder OpFrame} {frame : OpFrame} (hseq : frame.seq = b.next) :
    (Assembly.of b).apply frame = .of (b.release frame) := by
  unfold apply of Reorder.release
  apply Assembly.ext
  · show frame.seq = (b.released ++ [frame]).length
    rw [hseq, List.length_append, List.length_singleton, Reorder.next]
  · rfl
  · exact congrArg₂ Chunks.mk (filterMap_concat _ _ _).symm (filterMap_concat _ _ _).symm
  · simp [payloadBytes]
  · dsimp only
    rw [filterMap_concat, getLast?_append_toList, Option.map_or]
  · dsimp only
    rw [filterMap_concat, getLast?_append_toList, Option.map_or]

/-- The part of the consumer that decides `run`. -/
structure Standing where
  opId : String
  race : Option (Except Thrown Unit)
  phase : RunPhase
  resolves : List ℕ

def Call.resolve : Call → Option ℕ
  | .settleResolve lastApplied => some lastApplied
  | _ => none

namespace OpConsumer

def assembly (c : OpConsumer) : Assembly :=
  ⟨c.lastApplied, c.stash, c.chunks, c.receivedPayloadBytes, c.exit, c.exitSeq⟩

/-- Where `run` stands. -/
def standing (c : OpConsumer) : Standing := ⟨c.opId, c.race, c.phase, c.calls.filterMap Call.resolve⟩

variable {c : OpConsumer} {b : Reorder OpFrame} {frame : OpFrame}

/-! ## Calls that touch neither view -/

@[simp] theorem emit_assembly (c : OpConsumer) (call : Call) : (c.emit call).assembly = c.assembly := rfl

theorem emit_standing (c : OpConsumer) {call : Call} (hcall : call.resolve = none) :
    (c.emit call).standing = c.standing := by
  unfold standing emit
  simp [hcall]

@[simp] theorem sendAck_assembly (c : OpConsumer) : c.sendAck.assembly = c.assembly := by
  unfold sendAck
  split <;> rfl

@[simp] theorem sendAck_standing (c : OpConsumer) : c.sendAck.standing = c.standing := by
  unfold sendAck
  split
  · rfl
  · exact emit_standing _ rfl

@[simp] theorem requestAttachHeal_assembly (c : OpConsumer) : c.requestAttachHeal.assembly = c.assembly := by
  unfold requestAttachHeal
  split <;> rfl

@[simp] theorem requestAttachHeal_standing (c : OpConsumer) : c.requestAttachHeal.standing = c.standing := by
  unfold requestAttachHeal
  split
  · rfl
  · exact emit_standing _ rfl

@[simp] theorem maybeGrantCredit_assembly (c : OpConsumer) : c.maybeGrantCredit.assembly = c.assembly := by
  unfold maybeGrantCredit
  split
  · exact sendAck_assembly c
  · rfl

@[simp] theorem maybeGrantCredit_standing (c : OpConsumer) : c.maybeGrantCredit.standing = c.standing := by
  unfold maybeGrantCredit
  split
  · exact sendAck_standing c
  · rfl

@[simp] theorem maybeSettle_assembly (c : OpConsumer) : c.maybeSettle.assembly = c.assembly := by
  unfold maybeSettle
  split
  · split <;> rfl
  · rfl

@[simp] theorem applyFrame_standing (c : OpConsumer) (frame : OpFrame) :
    (c.applyFrame frame).standing = c.standing := by
  unfold applyFrame
  split
  · rfl
  · rfl
  · rw [sendAck_standing]
    rfl
  · rfl

@[simp] theorem drain_standing (fuel : ℕ) (c : OpConsumer) : (c.drain fuel).standing = c.standing := by
  induction fuel generalizing c with
  | zero => rfl
  | succ fuel ih =>
    rw [drain]
    split
    · rfl
    · rw [ih, applyFrame_standing]
      rfl

/-! ## Frames pass through a reorder buffer -/

def SelfKeyed (b : Reorder OpFrame) : Prop := ∀ k f, b.stash.lookup k = some f → f.seq = k

theorem applyFrame_assembly (c : OpConsumer) (frame : OpFrame) :
    (c.applyFrame frame).assembly = c.assembly.apply frame := by
  obtain ⟨opId, seq, body⟩ := frame
  cases body with
  | none => simp [applyFrame, assembly, Assembly.apply, OpFrame.dataOn, OpFrame.exitRecord,
      OpFrame.dataBytes]
  | some body =>
    cases body with
    | data channel bytes =>
      cases channel <;> simp [applyFrame, assembly, Assembly.apply, OpFrame.dataOn,
        OpFrame.exitRecord, OpFrame.dataBytes, OP_CHANNEL_NAMES, Chunks.push]
    | progress =>
      unfold applyFrame
      rw [sendAck_assembly]
      simp [assembly, Assembly.apply, OpFrame.dataOn, OpFrame.exitRecord, OpFrame.dataBytes]
    | exit exit => simp [applyFrame, assembly, Assembly.apply, OpFrame.dataOn,
        OpFrame.exitRecord, OpFrame.dataBytes]

theorem with_stash_assembly (h : c.assembly = .of b) (stash : AList fun _ : ℕ => OpFrame) :
    ({ c with stash } : OpConsumer).assembly = .of ⟨b.released, stash⟩ := by
  show { c.assembly with stash } = _
  rw [h]
  rfl

/-- **The drain loop is the buffer's.** -/
theorem drain_assembly (fuel : ℕ) (h : c.assembly = .of b) (hkeyed : SelfKeyed b) :
    (c.drain fuel).assembly = .of (b.drain fuel) := by
  induction fuel generalizing c b with
  | zero => exact h
  | succ fuel ih =>
    have hstash : c.stash = b.stash := congrArg Assembly.stash h
    have hnext : c.lastApplied + 1 = b.next := by
      have hlast : c.lastApplied = b.released.length := congrArg Assembly.lastApplied h
      rw [hlast, Reorder.next]
    rw [drain, Reorder.drain, hstash, hnext]
    cases hlookup : b.stash.lookup b.next with
    | none => exact h
    | some frame =>
      refine ih ?_ ?_
      · rw [applyFrame_assembly, with_stash_assembly h]
        exact Assembly.apply_of (hkeyed _ _ hlookup)
      · intro k f hk
        have hne : k ≠ b.next := by
          rintro rfl
          exact absurd ((AList.lookup_erase _ _).symm.trans hk) (by simp)
        exact hkeyed k f ((AList.lookup_erase_ne hne).symm.trans hk)

/-- **A frame of this op is an arrival at the buffer.** -/
theorem receive_assembly (frame : OpFrame) (h : c.assembly = .of b) (hkeyed : SelfKeyed b) :
    (c.receive frame).assembly = .of (b.accept OP_STREAM_MAX_STASHED_FRAMES frame.seq frame) := by
  have hstash : c.stash = b.stash := congrArg Assembly.stash h
  have hlast : b.released.length = c.lastApplied := congrArg Assembly.lastApplied h.symm
  unfold receive Reorder.accept Reorder.next
  rw [hlast, ← hstash]
  by_cases hdup : frame.seq ≤ c.lastApplied
  · rw [if_pos hdup, if_pos (Nat.lt_succ_of_le hdup)]
    exact h
  · rw [if_neg hdup, if_neg (show ¬ frame.seq < c.lastApplied + 1 by omega)]
    by_cases hnext : frame.seq = c.lastApplied + 1
    · rw [if_neg (not_not_intro hnext), if_pos hnext, maybeGrantCredit_assembly, maybeSettle_assembly]
      refine drain_assembly _ ?_ hkeyed
      rw [applyFrame_assembly, h]
      exact Assembly.apply_of (by rw [hnext, Reorder.next, hlast])
    · -- out of order: stashed, or dropped at the bound
      rw [if_pos hnext, if_neg hnext, requestAttachHeal_assembly]
      split
      · exact with_stash_assembly h _
      · exact h

end OpConsumer

/-! ## The invariant of a run -/

/-- What `run` returns over a log: the exit's fields and the log's two streams. -/
def OpLog.response (log : OpLog) : ExecResponse :=
  ⟨log.exit.exitCode, streamOf .stdout log.frames, streamOf .stderr log.frames,
    log.exit.timedOut, log.exit.durationMs⟩

structure Reads (log : OpLog) (a : Assembly) (s : Standing) : Prop where
  opId : s.opId = log.opId
  applied : ∃ b, a = .of b ∧ b.Within log.frames
  settled : ∀ m ∈ s.resolves, m = log.length
  raced : s.race = some (.ok ()) → a.lastApplied = log.length
  returned : ∀ r, s.phase = .done (.ok r) → r.response = log.response ∧ r.exitSeq = log.length

namespace Reads

open OpConsumer

variable {log : OpLog} {a : Assembly} {s : Standing} {c : OpConsumer} {b : Reorder OpFrame}

theorem init (log : OpLog) (generation : String) (windowBytes now : ℕ) :
    Reads log (OpConsumer.new log.opId generation windowBytes now).assembly
      (OpConsumer.new log.opId generation windowBytes now).standing where
  opId := rfl
  applied := ⟨.empty, rfl, Reorder.empty_within _⟩
  settled m hm := by simp [OpConsumer.new, standing] at hm
  raced h := by simp [OpConsumer.new, standing] at h
  returned r h := by simp [OpConsumer.new, standing] at h

theorem lose (h : Reads log a s) (e : Thrown) : Reads log a { s with race := s.race.or (some (.error e)) } where
  opId := h.opId
  applied := h.applied
  settled := h.settled
  raced hrace := by
    apply h.raced
    cases hs : s.race with
    | none => simp [hs] at hrace
    | some result => simpa [hs] using hrace
  returned := h.returned

theorem wait (h : Reads log a s) (phase : RunPhase) (hphase : ∀ r, phase ≠ .done (.ok r)) :
    Reads log a { s with phase } where
  opId := h.opId
  applied := h.applied
  settled := h.settled
  raced := h.raced
  returned r hr := absurd hr (hphase r)

/-! ## Frames -/

theorem selfKeyed (hb : b.Within log.frames) : SelfKeyed b := by
  intro k f hk
  obtain ⟨hle, hget⟩ := hb.stashed hk
  rw [OpLog.seq_of_get hget]
  omega

theorem applied_le (hb : b.Within log.frames) : b.released.length ≤ log.length := by
  rw [← log.frames_length]
  exact hb.released.length_le

theorem exitSeq_eq (hb : b.Within log.frames) {exitSeq : ℕ}
    (hexit : (Assembly.of b).exitSeq = some exitSeq) : exitSeq = log.length := by
  obtain ⟨⟨seq, exit⟩, hlast, rfl⟩ := Option.map_eq_some_iff.1 hexit
  obtain ⟨frame, hmem, hrecord⟩ := List.mem_filterMap.1 (List.mem_of_getLast? hlast)
  have hbody : frame.seq = seq ∧ frame.body = some (.exit exit) := by
    unfold OpFrame.exitRecord at hrecord
    split at hrecord
    · next hbody => rw [hbody]; simp_all
    · simp at hrecord
  rw [← hbody.1]
  exact OpLog.exit_seq (hb.released.subset hmem) hbody.2

theorem released_eq (hb : b.Within log.frames) (hall : (Assembly.of b).lastApplied = log.length) :
    b.released = log.frames :=
  hb.released.eq_of_length (hall.trans log.frames_length.symm)

theorem maybeSettle (h : Reads log c.assembly c.standing) :
    Reads log c.maybeSettle.assembly c.maybeSettle.standing := by
  rw [maybeSettle_assembly]
  unfold OpConsumer.maybeSettle
  split
  next exitSeq hexit =>
    split
    next hle =>
      obtain ⟨b, hb, hwithin⟩ := h.applied
      have hlast : c.lastApplied = log.length := by
        have hseq : exitSeq = log.length := exitSeq_eq hwithin (by rw [← hb]; exact hexit)
        have hbound : c.lastApplied ≤ log.length := by
          rw [show c.lastApplied = b.released.length from congrArg Assembly.lastApplied hb]
          exact applied_le hwithin
        omega
      refine ⟨h.opId, h.applied, fun m hm => ?_, fun _ => hlast, h.returned⟩
      have hresolves : m ∈ c.standing.resolves ++ [c.lastApplied] := by
        simpa [standing, emit, decide_race, Call.resolve] using hm
      rcases List.mem_append.1 hresolves with hm | hm
      · exact h.settled m hm
      · rw [List.mem_singleton.1 hm, hlast]
    next => exact h
  next => exact h

theorem advance (h : Reads log c.assembly c.standing) {c' : OpConsumer}
    (hasm : c'.assembly = .of b) (hb : b.Within log.frames)
    (hle : c.lastApplied ≤ c'.lastApplied) (hstanding : c'.standing = c.standing) :
    Reads log c'.assembly c'.standing := by
  rw [hstanding]
  refine ⟨h.opId, ⟨b, hasm, hb⟩, h.settled, fun hrace => ?_, h.returned⟩
  -- the frontier does not move back, so a run that was settled stays complete
  have hall : c.lastApplied = log.length := h.raced hrace
  have hbound : c'.lastApplied ≤ log.length := by
    rw [show c'.lastApplied = b.released.length from congrArg Assembly.lastApplied hasm]
    exact applied_le hb
  exact Nat.le_antisymm hbound (hall ▸ hle)

/-- **One frame of the log.** -/
theorem receive (h : Reads log c.assembly c.standing) {frame : OpFrame} (hmem : frame ∈ log.frames) :
    Reads log (c.receive frame).assembly (c.receive frame).standing := by
  obtain ⟨b, hb, hwithin⟩ := h.applied
  obtain ⟨hwithin', hle⟩ := hwithin.accept OP_STREAM_MAX_STASHED_FRAMES (OpLog.get_of_mem hmem)
  have hasm := receive_assembly frame hb (selfKeyed hwithin)
  have hlast : c.lastApplied ≤ (c.receive frame).lastApplied := by
    rw [show c.lastApplied = b.released.length from congrArg Assembly.lastApplied hb,
      show (c.receive frame).lastApplied = _ from congrArg Assembly.lastApplied hasm]
    exact Nat.le_of_succ_le_succ hle
  generalize hb' : b.accept OP_STREAM_MAX_STASHED_FRAMES frame.seq frame = b' at hasm hwithin'
  unfold OpConsumer.receive at hasm hlast ⊢
  split at hasm <;> rename_i hdup
  · rw [if_pos hdup]
    exact h
  · rw [if_neg hdup] at hlast ⊢
    split at hasm <;> rename_i hnext
    · rw [if_pos hnext] at hlast ⊢
      refine h.advance hasm hwithin' hlast ?_
      rw [requestAttachHeal_standing]
      split <;> rfl
    · rw [if_neg hnext] at hlast ⊢
      rw [maybeGrantCredit_assembly, maybeSettle_assembly] at hasm
      rw [maybeGrantCredit_assembly, maybeGrantCredit_standing]
      refine Reads.maybeSettle (h.advance hasm hwithin' ?_ ?_)
      · refine hlast.trans_eq ?_
        exact congrArg Assembly.lastApplied ((maybeGrantCredit_assembly _).trans (maybeSettle_assembly _))
      · rw [drain_standing, applyFrame_standing]

/-- **One delivery drawn from the log.** -/
theorem onFramePayload (h : Reads log c.assembly c.standing) (now : ℕ) {payload : Option OpFrame}
    (hdrawn : log.Draws payload) :
    Reads log (c.onFramePayload now payload).assembly (c.onFramePayload now payload).standing := by
  unfold OpConsumer.onFramePayload
  split
  · exact h
  next frame =>
    split
    · exact h
    next hop =>
      have hopId : c.opId = log.opId := h.opId
      refine Reads.receive (c := { c with lastFrameAt := now, silenceSince := none }) h ?_
      exact hdrawn frame rfl ((not_ne_iff.1 hop).trans hopId)

/-! ## The other events -/

theorem requestAttachHeal (h : Reads log c.assembly c.standing) :
    Reads log c.requestAttachHeal.assembly c.requestAttachHeal.standing := by
  rw [requestAttachHeal_assembly, requestAttachHeal_standing]
  exact h

theorem attachHealed (h : Reads log c.assembly c.standing) (answer : Except Thrown ControlResult) :
    Reads log (c.attachHealed answer).assembly (c.attachHealed answer).standing := by
  unfold OpConsumer.attachHealed
  split
  · exact h
  next error _ =>
    split
    · have hlose := h.lose (.control error)
      have hstanding : (c.emit (.settleReject (.control error))).standing = c.standing := emit_standing c rfl
      rw [← hstanding] at hlose
      exact hlose
    · exact h
  · exact h

theorem holdOrFail (h : Reads log c.assembly c.standing) (hold now : ℕ) (error : SelfhostedControlError) :
    Reads log (c.holdOrFail hold now error).assembly (c.holdOrFail hold now error).standing := by
  unfold OpConsumer.holdOrFail
  dsimp only
  split
  · exact h
  · exact h.lose (.control error)

theorem silenceProbed (h : Reads log c.assembly c.standing) (hold now : ℕ) (answer : Except Thrown ControlResult) :
    Reads log (c.silenceProbed hold now answer).assembly (c.silenceProbed hold now answer).standing := by
  unfold OpConsumer.silenceProbed
  split
  next status =>
    split
    · exact h.lose (.control (lostToControlError status))
    · split
      · exact h.requestAttachHeal
      · exact h
  next case => exact h.holdOrFail hold now _
  next error => exact h.holdOrFail hold now error
  next message => exact h.lose (.other message)

theorem probeSilence (h : Reads log c.assembly c.standing) (now : ℕ) :
    Reads log (c.probeSilence now).assembly (c.probeSilence now).standing := by
  unfold OpConsumer.probeSilence
  rw [emit_assembly, emit_standing _ rfl]
  exact h

theorem started (h : Reads log c.assembly c.standing) (answer : Except Thrown ℕ) :
    Reads log (c.started answer).assembly (c.started answer).standing := by
  unfold OpConsumer.started
  split
  next startRetries =>
    rw [emit_assembly, emit_standing _ rfl]
    exact h.wait (.attaching startRetries) (by rintro r ⟨⟩)
  next e => exact h.wait (.done (.error e)) (by rintro r ⟨⟩)

theorem attached (h : Reads log c.assembly c.standing) (startRetries : ℕ) (answer : Except Thrown ControlResult) :
    Reads log (c.attached startRetries answer).assembly (c.attached startRetries answer).standing := by
  unfold OpConsumer.attached
  split
  · exact h.wait (.racing startRetries) (by rintro r ⟨⟩)
  next e _ => exact h.wait (.done (.error e)) (by rintro r ⟨⟩)

/-- **What `run` returns.** The race was won, so the whole log is applied. -/
theorem finish (h : Reads log c.assembly c.standing) (hrace : c.race = some (.ok ()))
    {blake3 : List UInt8 → String} {startRetries : ℕ} {r : RunOutcome}
    (hr : c.finish blake3 startRetries = .ok r) :
    r.response = log.response ∧ r.exitSeq = log.length := by
  obtain ⟨b, hb, hwithin⟩ := h.applied
  have hall : c.lastApplied = log.length := h.raced hrace
  have hframes : b.released = log.frames := released_eq hwithin (by rw [← hb]; exact hall)
  have hrecord := log.exitRecord_frames
  rw [← hframes] at hrecord
  have hexit : c.exit = some log.exit := by
    rw [show c.exit = (Assembly.of b).exit from congrArg Assembly.exit hb]
    simp only [Assembly.of, hrecord, Option.map_some]
  have hexitSeq : c.exitSeq = some log.length := by
    rw [show c.exitSeq = (Assembly.of b).exitSeq from congrArg Assembly.exitSeq hb]
    simp only [Assembly.of, hrecord, Option.map_some]
  have hchunks : c.chunks = (Assembly.of b).chunks := congrArg Assembly.chunks hb
  unfold OpConsumer.finish at hr
  rw [hexit, hexitSeq] at hr
  dsimp only at hr
  split at hr
  · exact absurd hr (by rintro ⟨⟩)
  · split at hr
    · exact absurd hr (by rintro ⟨⟩)
    · cases hr
      refine ⟨?_, rfl⟩
      rw [hchunks, OpLog.response, ← hframes]
      rfl

theorem raced_step (h : Reads log c.assembly c.standing) {result : Except Thrown Unit}
    (hrace : c.race = some result) (blake3 : List UInt8 → String) (startRetries : ℕ) :
    Reads log (c.raced blake3 startRetries result).assembly (c.raced blake3 startRetries result).standing := by
  unfold OpConsumer.raced
  split
  · refine ⟨h.opId, h.applied, h.settled, h.raced, fun r hr => ?_⟩
    exact h.finish hrace (RunPhase.done.inj hr)
  next e => exact h.wait (.done (.error e)) (by rintro r ⟨⟩)

/-- **The step lemma.** -/
theorem step (h : Reads log c.assembly c.standing) {config : ConsumerConfig} {e : ConsumerEvent}
    {c' : OpConsumer} (hstep : ConsumerStep config c e c') (hdrawn : e.DrawnFrom log) :
    Reads log c'.assembly c'.standing := by
  cases hstep with
  | frame now payload => exact h.onFramePayload now hdrawn
  | ackTimer =>
    rw [sendAck_assembly, sendAck_standing]
    exact h
  | attachHealed answer => exact h.attachHealed answer
  | silence now => exact h.probeSilence now
  | silenceProbed now answer => exact h.silenceProbed config.reconnectHoldMs now answer
  | wall => exact h.lose (.control wallError)
  | started answer => exact h.started answer
  | attached startRetries answer => exact h.attached startRetries answer
  | raced startRetries result hphase hrace => exact h.raced_step hrace config.blake3 startRetries
  | teardown => exact h

end Reads

/-! ## Every run -/

/-- What holds of the consumer of a log, after whatever deliveries. -/
structure OpConsumer.Reassembles (c : OpConsumer) (log : OpLog) : Prop where
  /-- Each channel is the stream of the frames applied. -/
  chunks : ∀ name, concatChunks (c.chunks.get name) = streamOf name (log.frames.take c.lastApplied)
  /-- The total is the Data payload of the frames applied. -/
  received : c.receivedPayloadBytes = payloadBytes (log.frames.take c.lastApplied)
  stash : ∀ seq ∈ c.stash, c.lastApplied + 1 < seq
  /-- `settleResolve` is called with the whole log applied. -/
  settled : ∀ lastApplied, .settleResolve lastApplied ∈ c.calls → lastApplied = log.length
  /-- An outcome that is returned carries the log's streams and its exit. -/
  returned : ∀ r, c.phase = .done (.ok r) → r.response = log.response ∧ r.exitSeq = log.length

theorem Reads.reassembles {log : OpLog} {c : OpConsumer} (h : Reads log c.assembly c.standing) :
    c.Reassembles log := by
  obtain ⟨b, hb, hwithin⟩ := h.applied
  have hlast : c.lastApplied = b.released.length := congrArg Assembly.lastApplied hb
  have htake : log.frames.take c.lastApplied = b.released := by
    rw [hlast]
    exact hwithin.released_eq.symm
  refine ⟨fun name => ?_, ?_, fun seq hseq => ?_, fun n hn => ?_, h.returned⟩
  · rw [htake, show c.chunks = (Assembly.of b).chunks from congrArg Assembly.chunks hb]
    cases name <;> rfl
  · rw [htake]
    exact congrArg Assembly.receivedPayloadBytes hb
  · rw [show c.stash = b.stash from congrArg Assembly.stash hb] at hseq
    obtain ⟨frame, hframe⟩ := Option.isSome_iff_exists.1 (AList.lookup_isSome.2 hseq)
    have hlt := (hwithin.stashed hframe).1
    rw [Reorder.next] at hlt
    omega
  · exact h.settled n (List.mem_filterMap.2 ⟨_, hn, rfl⟩)

/-- **One op stream, end to end.** In every state of every run of the consumer whose
deliveries are drawn from the log. -/
theorem op_stream_reassembles {log : OpLog} {config : ConsumerConfig} {generation : String}
    {windowBytes now : ℕ} {es : List ConsumerEvent} {c : OpConsumer}
    (hrun : Run (Restrict (ConsumerStep config) fun _ e => e.DrawnFrom log)
      (.new log.opId generation windowBytes now) es c) :
    c.Reassembles log := by
  have hinv := hrun.invariant (P := fun c => Reads log c.assembly c.standing)
    (fun _ _ _ hstep h => h.step hstep.1 hstep.2)
  exact (hinv (Reads.init log generation windowBytes now)).reassembles

def OpLog.small : OpLog where
  opId := "op"
  output := [.data .stdout [65], .data .stderr [66]]
  exit := ⟨0, false, 7, ∅, AList.insert "stdout" 1 ∅, "", ∅⟩

def OpLog.smallFrame (seq : ℕ) (body : OpBody) : Option OpFrame := some ⟨"op", seq, some body⟩

/-- The exit arrives first, the first frame twice, a torn one in between. -/
def smallDeliveries : List ConsumerEvent :=
  [.started (.ok 0), .attached (.ok (.opStatus ⟨.running, 1, .unspecified⟩)),
    .frame 1 (OpLog.smallFrame 3 (.exit OpLog.small.exit)),
    .frame 2 (OpLog.smallFrame 1 (.data .stdout [65])),
    .frame 3 (OpLog.smallFrame 1 (.data .stdout [65])), .frame 4 none,
    .frame 5 (OpLog.smallFrame 2 (.data .stderr [66])), .raced]

theorem op_stream_reassembles_small : ∃ c, Run (Restrict (ConsumerStep ⟨fun _ => "", 30000, 120000⟩)
        fun _ e => e.DrawnFrom OpLog.small) (.new "op" "1" 4 0) smallDeliveries c ∧
      c.lastApplied = 3 ∧ c.phase = .done (.ok ⟨OpLog.small.response, 0, 0, 2, 3⟩) ∧
      c.Reassembles OpLog.small := by
  have hdrawn : ∀ seq body, (⟨"op", seq, some body⟩ : OpFrame) ∈ OpLog.small.frames →
      OpLog.small.Draws (OpLog.smallFrame seq body) := by
    rintro seq body hmem frame ⟨⟩ -
    exact hmem
  have hrun : Run (Restrict (ConsumerStep ⟨fun _ => "", 30000, 120000⟩)
      fun _ e => e.DrawnFrom OpLog.small) (.new "op" "1" 4 0) smallDeliveries _ :=
    .cons ⟨.started _ _ rfl, trivial⟩ <| .cons ⟨.attached _ 0 _ rfl, trivial⟩ <|
    .cons ⟨.frame _ _ _, hdrawn _ _ (List.mem_of_getElem? (i := 2) rfl)⟩ <|
    .cons ⟨.frame _ _ _, hdrawn _ _ (List.mem_of_getElem? (i := 0) rfl)⟩ <|
    .cons ⟨.frame _ _ _, hdrawn _ _ (List.mem_of_getElem? (i := 0) rfl)⟩ <|
    .cons ⟨.frame _ _ _, by rintro _ ⟨⟩⟩ <|
    .cons ⟨.frame _ _ _, hdrawn _ _ (List.mem_of_getElem? (i := 1) rfl)⟩ <|
    .cons ⟨.raced _ 0 (.ok ()) rfl rfl, trivial⟩ <|
    .nil _
  exact ⟨_, hrun, rfl, rfl, op_stream_reassembles hrun⟩

end OpenGeni.Runtime
