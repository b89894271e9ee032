/-
The retention log over whole runs of its interface.

A run is any sequence of `append`, `ack`, `replay_bounded` and
`payload_bytes_in_range` calls on a log made by `new` over a fresh spool
directory. Next to the log the run carries the plain sequence those calls stand
for: a successful append extends it, an ack acknowledges in it, and nothing else
touches it. The result is that every answer of the log is a function of that
sequence alone, so neither the representation, nor the caps, nor the segment size
can be observed.

The spool's record header holds the number in a `u64` and the payload length in a
`u32`, and `Spool::append` refuses a longer payload. `CallFits` is that bound. It
cannot be dropped: a spill that meets an oversized frame abandons the drain and
loses the frames already in memory (`oversized_frame_breaks_refinement`).
-/
import OpenGeni.Engine.Retention
import OpenGeni.Lib.Run

namespace OpenGeni.Engine

open OpenGeni.Lib

/-! ## Runs -/

inductive LogCall
  | append (body : FrameBody)
  | ack (acked_seq : ℕ)
  | replay_bounded (from_exclusive max_bytes : ℕ)
  | payload_bytes_in_range (from_exclusive to_inclusive : ℕ)

abbrev LogState := RetentionLog × AckLog FrameBody

/-- One call. The sequence follows the results only: `A` is extended by the bodies
successfully appended, and the floor is the running maximum of the acks clamped
to the number appended at that time. A call that panics has no step. -/
inductive LogStep : LogState → LogCall → LogState → Prop
  | append_ok {log log' : RetentionLog} {m : AckLog FrameBody} {body : FrameBody} {seq : ℕ}
      (h : log.append body = some (.ok seq, log')) :
      LogStep (log, m) (.append body) (log', m.append body)
  | append_err {log log' : RetentionLog} {m : AckLog FrameBody} {body : FrameBody}
      {e : RetentionError} (h : log.append body = some (.error e, log')) :
      LogStep (log, m) (.append body) (log', m)
  | ack {log log' : RetentionLog} {m : AckLog FrameBody} {acked_seq : ℕ}
      (h : log.ack acked_seq = some log') :
      LogStep (log, m) (.ack acked_seq) (log', m.ack acked_seq)
  | replay_bounded (log : RetentionLog) (m : AckLog FrameBody) (from_exclusive max_bytes : ℕ) :
      LogStep (log, m) (.replay_bounded from_exclusive max_bytes) (log, m)
  | payload_bytes_in_range (log : RetentionLog) (m : AckLog FrameBody)
      (from_exclusive to_inclusive : ℕ) :
      LogStep (log, m) (.payload_bytes_in_range from_exclusive to_inclusive) (log, m)

/-- An appended frame fits a spool record: its number is a `u64` and its payload
length a `u32`. -/
def CallFits (s : LogState) (call : LogCall) : Prop :=
  ∀ body, call = .append body → (⟨s.1.next_seq, body⟩ : Frame).Fits

def LogState.init (config : RetentionConfig) : LogState := (RetentionLog.new config fun _ => none, AckLog.empty)

theorem log_step_refines (s : LogState) (call : LogCall) (t : LogState)
    (h : Restrict LogStep CallFits s call t) (href : s.1.Refines s.2) : t.1.Refines t.2 := by
  obtain ⟨hstep, hfit⟩ := h
  cases hstep with
  | append_ok h =>
    obtain ⟨r, log', happ, -, hcase⟩ := RetentionLog.append_refines href (hfit _ rfl)
    rw [h, Option.some.injEq, Prod.mk.injEq] at happ
    obtain ⟨hr, rfl⟩ := happ
    rcases hcase with ⟨-, hok, -⟩ | ⟨herr, -⟩
    · exact hok
    · rw [herr] at hr; contradiction
  | append_err h =>
    obtain ⟨r, log', happ, -, hcase⟩ := RetentionLog.append_refines href (hfit _ rfl)
    rw [h, Option.some.injEq, Prod.mk.injEq] at happ
    obtain ⟨hr, rfl⟩ := happ
    rcases hcase with ⟨hok, -⟩ | ⟨-, herr, -⟩
    · rw [hok] at hr; contradiction
    · exact herr
  | ack h =>
    obtain ⟨log', hack, hok, -⟩ := RetentionLog.ack_refines href _
    rw [h, Option.some.injEq] at hack
    rw [hack]
    exact hok
  | replay_bounded | payload_bytes_in_range => exact href

variable {log : RetentionLog} {m : AckLog FrameBody}

theorem log_run_refines {config : RetentionConfig} {calls : List LogCall}
    (h : Run (Restrict LogStep CallFits) (LogState.init config) calls (log, m)) :
    log.Refines m :=
  h.invariant (P := fun s : LogState => s.1.Refines s.2) log_step_refines (RetentionLog.new_refines config)

/-! ## What can be observed -/

/-- Every answer of the log, in terms of the sequence `m` (`n` is `m.high`, `F` is
`m.floor`). -/
structure Observes (log : RetentionLog) (m : AckLog FrameBody) : Prop where
  floor : log.floor = m.floor
  high_seq : log.high_seq = m.high
  /-- The ledger is the payload plus the flat overhead, over the seqs in `(F, n]`. -/
  retained_bytes : log.retained_bytes
    = ((m.between m.floor m.high).map fun b => b.payload_len + RECORD_OVERHEAD_BYTES).sum
  /-- No subtraction underflows, and no append panics: the next call has a result. -/
  ack_total : ∀ acked_seq, (log.ack acked_seq).isSome
  append_total : ∀ body, (⟨log.next_seq, body⟩ : Frame).Fits → (log.append body).isSome
  /-- A replay below the floor is refused, and nothing else is. -/
  replay_below : ∀ from_exclusive max_bytes, log.replay_bounded from_exclusive max_bytes
        = .error (.replay_below_floor from_exclusive log.floor) ↔ from_exclusive < m.floor
  /-- Any other replay returns the frames `from + 1, from + 2, …` with their
  original bodies, up to the first whose cumulative payload reaches the budget. -/
  replay : ∀ from_exclusive max_bytes, m.floor ≤ from_exclusive →
    ∃ out, log.replay_bounded from_exclusive max_bytes = .ok out ∧
      BudgetPrefix (fun f => f.body.payload_len) max_bytes
        (numberFrom Frame.mk from_exclusive (m.appended.drop from_exclusive)) out
  payload : ∀ a b, log.payload_bytes_in_range a b
    = ((m.between (max a m.floor) (min b m.high)).map FrameBody.payload_len).sum

structure SameAnswers (log log' : RetentionLog) : Prop where
  floor : log.floor = log'.floor
  high_seq : log.high_seq = log'.high_seq
  retained_bytes : log.retained_bytes = log'.retained_bytes
  replay_bounded : ∀ from_exclusive max_bytes,
    log.replay_bounded from_exclusive max_bytes = log'.replay_bounded from_exclusive max_bytes
  payload : ∀ a b, log.payload_bytes_in_range a b = log'.payload_bytes_in_range a b

theorem observes_of_refines {log : RetentionLog} {m : AckLog FrameBody} (h : log.Refines m) : Observes log m where
  floor := h.floor
  high_seq := h.high_seq
  retained_bytes := by rw [h.ledger, AckLog.retained_eq_between]; rfl
  ack_total := by
    intro acked_seq
    obtain ⟨log', hack, -, -⟩ := RetentionLog.ack_refines h acked_seq
    rw [hack]; rfl
  append_total := by
    intro body hfit
    obtain ⟨r, log', happ, -, -⟩ := RetentionLog.append_refines h hfit
    rw [happ]; rfl
  replay_below := by
    intro from_exclusive max_bytes
    rw [RetentionLog.replay_bounded_refines h, h.floor]
    split_ifs with hbelow
    · exact iff_of_true rfl hbelow
    · exact iff_of_false (by rintro ⟨⟩) hbelow
  replay := by
    intro from_exclusive max_bytes hle
    rw [RetentionLog.replay_bounded_refines h, if_neg (Nat.not_lt.2 hle)]
    refine ⟨_, rfl, ?_⟩
    have hread : BudgetPrefix (fun f : Frame => f.body.payload_len) (max_bytes - 0)
        (framesAbove m from_exclusive) _ :=
      readWithin_budgetPrefix 0 (framesAbove m from_exclusive) (Nat.zero_le _)
    rwa [Nat.sub_zero] at hread
  payload := RetentionLog.payload_bytes_in_range_refines h

theorem sameAnswers_of_refines {log' : RetentionLog} (h : log.Refines m) (h' : log'.Refines m) :
    SameAnswers log log' where
  floor := by rw [h.floor, h'.floor]
  high_seq := by rw [h.high_seq, h'.high_seq]
  retained_bytes := by rw [h.ledger, h'.ledger]
  replay_bounded := by
    intro from_exclusive max_bytes
    rw [RetentionLog.replay_bounded_refines h, RetentionLog.replay_bounded_refines h']
  payload := by
    intro a b
    rw [RetentionLog.payload_bytes_in_range_refines h, RetentionLog.payload_bytes_in_range_refines h']

/-- **The retention log refines the plain sequence.** After any calls whose appended frames fit a spool record,
under any configuration, every answer is the one of the sequence `m`, and any other log that stands for the same
sequence answers the same. -/
theorem retention_log_refines_sequence {config : RetentionConfig} {calls : List LogCall}
    {log : RetentionLog} {m : AckLog FrameBody}
    (h : Run (Restrict LogStep CallFits) (LogState.init config) calls (log, m)) :
    Observes log m ∧ ∀ (config' : RetentionConfig) (calls' : List LogCall) (log' : RetentionLog),
        Run (Restrict LogStep CallFits) (LogState.init config') calls' (log', m) → SameAnswers log log' :=
  ⟨observes_of_refines (log_run_refines h), fun _ _ _ h' =>
    sameAnswers_of_refines (log_run_refines h) (log_run_refines h')⟩

/-- A log that spills on its second frame, rotates on every record and is acked in
the spool still answers as the sequence does. -/
theorem retention_log_refines_sequence_spilled :
    ∃ log m, Run (Restrict LogStep CallFits) (LogState.init ⟨100, 8, 1000, 1⟩)
        [.append (.data .stdout [1, 2]), .append (.data .stderr [3]), .append .progress, .ack 2]
        (log, m) ∧
      m.appended = [.data .stdout [1, 2], .data .stderr [3], .progress] ∧ m.floor = 2 ∧
      Observes log m := by
  have hrun : ∃ log m, Run (Restrict LogStep CallFits) (LogState.init ⟨100, 8, 1000, 1⟩)
      [.append (.data .stdout [1, 2]), .append (.data .stderr [3]), .append .progress, .ack 2]
      (log, m) ∧ m.appended = [.data .stdout [1, 2], .data .stderr [3], .progress] ∧
      m.floor = 2 := by
    have hfit : ∀ (s : LogState) (body : FrameBody), s.1.next_seq < 2 ^ 64 →
        body.payload_len ≤ U32_MAX → CallFits s (.append body) := by
      rintro s body hseq hlen _ ⟨⟩
      exact ⟨hseq, hlen⟩
    refine ⟨_, _, .cons ⟨.append_ok rfl, hfit _ _ (by decide) (by decide)⟩
      (.cons ⟨.append_ok rfl, hfit _ _ (by decide) (by decide)⟩
        (.cons ⟨.append_ok rfl, hfit _ _ (by decide) (by decide)⟩
          (.cons ⟨.ack rfl, by rintro _ ⟨⟩⟩ (.nil _)))), rfl, rfl⟩
  obtain ⟨log, m, hrun, happended, hfloor⟩ := hrun
  exact ⟨log, m, hrun, happended, hfloor, (retention_log_refines_sequence hrun).1⟩

/-! ## The bound cannot be dropped -/

/-- Spilling a log whose only frame has an oversized payload loses that frame: the
append that caused the spill fails, the log is back in memory with nothing in it,
and the number and the charge of the lost frame remain. -/
theorem spill_oversized (config : RetentionConfig) (frame : Frame) (next_seq floor bytes : ℕ)
    (hbig : U32_MAX < frame.body.payload_len) :
    (⟨config, .memory [frame], next_seq, floor, bytes, some fun _ => none⟩ : RetentionLog).spill_to_spool
      = some (.error (.spool_io "encode record (payload too large)" "frame > 4GiB"),
          ⟨config, .memory [], next_seq, floor, bytes, none⟩) := by
  obtain ⟨spool', happ, -⟩ := Spool.append_oversized Spool.create_holds hbig config.spool_segment_bytes
  simp only [RetentionLog.spill_to_spool, Spool.append_all, happ]

/-- A log that may hold 8 GiB in memory accepts a frame of `2 ^ 32` payload bytes;
the next append exceeds the frame count, spills, fails on the oversized record and
loses it. The sequence still holds the frame, but a replay from the floor returns
nothing. -/
theorem oversized_frame_lost (bytes : List UInt8) (hbytes : bytes.length = 2 ^ 32) :
    ∃ log m, Run LogStep (LogState.init ⟨2 ^ 33, 1, 1, 1⟩)
        [.append (.data .stdout bytes), .append .progress] (log, m) ∧
      m.appended = [.data .stdout bytes] ∧ m.floor = 0 ∧
      log.replay_bounded 0 1 = .ok [] ∧ ¬ Observes log m := by
  obtain ⟨body, hbody⟩ : ∃ body : FrameBody, body = .data .stdout bytes := ⟨_, rfl⟩
  have hlen : body.payload_len = 2 ^ 32 := by rw [hbody]; exact hbytes
  have hcost : record_cost body = 2 ^ 32 + 64 := by rw [record_cost, hlen]; rfl
  rw [← hbody]
  obtain ⟨config, hconfig⟩ : ∃ config : RetentionConfig, config = ⟨2 ^ 33, 1, 1, 1⟩ := ⟨_, rfl⟩
  rw [← hconfig]
  have hfirst : (RetentionLog.new config fun _ => none).append body
      = some (.ok 1, ⟨config, .memory [⟨1, body⟩], 2, 0, record_cost body, some fun _ => none⟩) := by
    have hroom : ¬ (config.memory_max_bytes < record_cost body ∨
        config.memory_max_frames < ([] : List Frame).length + 1) := by
      rw [hcost, hconfig]; decide
    simp only [RetentionLog.append, RetentionLog.make_room, RetentionLog.new, Nat.zero_add,
      if_neg hroom, RetentionLog.store, List.nil_append]
  have hsecond : (⟨config, .memory [⟨1, body⟩], 2, 0, record_cost body, some fun _ => none⟩ :
        RetentionLog).append .progress
      = some (.error (.spool_io "encode record (payload too large)" "frame > 4GiB"),
          ⟨config, .memory [], 2, 0, record_cost body, none⟩) := by
    have hover : config.memory_max_bytes < record_cost body + record_cost .progress ∨
        config.memory_max_frames < [(⟨1, body⟩ : Frame)].length + 1 :=
      Or.inr (by rw [hconfig]; exact Nat.one_lt_two)
    have hspool : ¬ config.spool_max_bytes = 0 := by rw [hconfig]; decide
    have hspill := spill_oversized config ⟨1, body⟩ 2 0 (record_cost body) (by dsimp only; rw [hlen]; decide)
    simp only [RetentionLog.append, RetentionLog.make_room, if_pos hover, if_neg hspool, hspill]
  have hreplay : (⟨config, .memory [], 2, 0, record_cost body, none⟩ :
      RetentionLog).replay_bounded 0 1 = .ok [] := rfl
  refine ⟨_, AckLog.empty.append body, .cons (.append_ok hfirst) (.cons (.append_err hsecond)
    (.nil _)), rfl, rfl, hreplay, fun hobs => ?_⟩
  obtain ⟨out, hout, hbudget⟩ := hobs.replay 0 1 (Nat.zero_le _)
  rw [hreplay] at hout
  have hnil : out = [] := (Except.ok.inj hout).symm
  exact hbudget.nonempty (List.cons_ne_nil _ _) hnil

/-- **The refinement fails above `u32::MAX`**, at a frame of `2 ^ 32` zero bytes. -/
theorem oversized_frame_breaks_refinement : ∃ log m, Run LogStep (LogState.init ⟨2 ^ 33, 1, 1, 1⟩)
        [.append (.data .stdout (List.replicate (2 ^ 32) 0)), .append .progress] (log, m) ∧
      m.appended = [.data .stdout (List.replicate (2 ^ 32) 0)] ∧ m.floor = 0 ∧
      log.replay_bounded 0 1 = .ok [] ∧ ¬ Observes log m :=
  oversized_frame_lost (List.replicate (2 ^ 32) 0) List.length_replicate

end OpenGeni.Engine
