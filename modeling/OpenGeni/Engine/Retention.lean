/-
The seq-addressed retention log
(`opengeni-agent-engine/src/retention.rs`, `RetentionLog`).

Frames are appended with consecutive numbers, freed by a cumulative ack floor and
replayed as a contiguous range. They live in memory until an append exceeds the
memory caps; then everything migrates to a disk spool, once and for good.

A `none` result is a Rust panic: a `u64` subtraction below zero, or the `expect`
of a second spill. The refinement of the plain sequence model is stated by
`Refines` and proved one operation at a time; callers of the log use these lemmas
and never unfold an operation.
-/
import OpenGeni.Engine.Spool
import OpenGeni.Lib.AckLog

namespace OpenGeni.Engine

open OpenGeni.Lib

/-! ## The model -/

/-- `RetentionConfig`: the bounds of one op's log. -/
structure RetentionConfig where
  memory_max_bytes : ℕ
  memory_max_frames : ℕ
  spool_max_bytes : ℕ
  spool_segment_bytes : ℕ

/-- `Mode`: where the retained frames live. -/
inductive Mode
  | memory (frames : List Frame)
  | spooled (spool : Spool)

structure RetentionLog where
  config : RetentionConfig
  mode : Mode
  next_seq : ℕ
  floor : ℕ
  retained_bytes : ℕ
  spool_dir_pending : Option Dir

/-- A `u64` subtraction: `none` is the underflow panic. -/
def checked_sub (a b : ℕ) : Option ℕ := if b ≤ a then some (a - b) else none

theorem checked_sub_add (a b : ℕ) : checked_sub (a + b) b = some a := by
  rw [checked_sub, if_pos (Nat.le_add_left b a), Nat.add_sub_cancel]

/-- Appends frames to a spool one by one, stopping at the first failure (the body
of the drain loop of `spill_to_spool`). -/
def Spool.append_all (segment_bytes : ℕ) : Spool → List Frame → Except RetentionError Unit × Spool
  | spool, [] => (.ok (), spool)
  | spool, frame :: frames =>
    match spool.append frame segment_bytes with
    | (.error e, spool') => (.error e, spool')
    | (.ok (), spool') => append_all segment_bytes spool' frames

namespace RetentionLog

def new (config : RetentionConfig) (spool_dir : Dir) : RetentionLog where
  config := config
  mode := .memory []
  next_seq := 1
  floor := 0
  retained_bytes := 0
  spool_dir_pending := some spool_dir

/-- `RetentionLog::spill_to_spool`. The first `none` is the `expect` that a spill
happens once. On a failure in the middle, the abandoned drain has emptied the
deque and the mode is still memory. -/
def spill_to_spool (log : RetentionLog) : Option (Except RetentionError Unit × RetentionLog) :=
  match log.spool_dir_pending with
  | none => none
  | some dir =>
    match log.mode with
    | .memory frames =>
      match Spool.append_all log.config.spool_segment_bytes (Spool.create dir) frames with
      | (.error e, _) =>
        some (.error e, { log with mode := .memory [], spool_dir_pending := none })
      | (.ok (), spool) =>
        some (.ok (), { log with mode := .spooled spool, spool_dir_pending := none })
    | .spooled _ =>
      some (.ok (), { log with mode := .spooled (Spool.create dir), spool_dir_pending := none })

/-- The first half of `append`: spill before a frame of cost `len` would push
memory past its caps. -/
def make_room (log : RetentionLog) (len : ℕ) : Option (Except RetentionError Unit × RetentionLog) :=
  match log.mode with
  | .memory frames =>
    let over_bytes := log.config.memory_max_bytes < log.retained_bytes + len
    let over_frames := log.config.memory_max_frames < frames.length + 1
    if over_bytes ∨ over_frames then
      if log.config.spool_max_bytes = 0 then
        some (.error (.overflow (log.retained_bytes + len) log.config.memory_max_bytes
          log.config.spool_max_bytes), log)
      else log.spill_to_spool
    else some (.ok (), log)
  | .spooled _ => some (.ok (), log)

/-- The second half of `append`: store the frame and charge it. -/
def store (log : RetentionLog) (seq len : ℕ) (body : FrameBody) : Except RetentionError ℕ × RetentionLog :=
  let charged (log : RetentionLog) (mode : Mode) : RetentionLog :=
    { log with mode := mode, next_seq := log.next_seq + 1, retained_bytes := log.retained_bytes + len }
  match log.mode with
  | .memory frames => (.ok seq, charged log (.memory (frames ++ [⟨seq, body⟩])))
  | .spooled spool =>
    if log.config.spool_max_bytes < log.retained_bytes + len then
      (.error (.overflow (log.retained_bytes + len) log.config.memory_max_bytes log.config.spool_max_bytes), log)
    else
      match spool.append ⟨seq, body⟩ log.config.spool_segment_bytes with
      | (.error e, spool') => (.error e, { log with mode := .spooled spool' })
      | (.ok (), spool') => (.ok seq, charged log (.spooled spool'))

def append (log : RetentionLog) (body : FrameBody) : Option (Except RetentionError ℕ × RetentionLog) :=
  let seq := log.next_seq
  let len := record_cost body
  match log.make_room len with
  | none => none
  | some (.error e, log') => some (.error e, log')
  | some (.ok (), log') => some (log'.store seq len body)

/-- The memory loop of `ack`: pop and refund acked frames. -/
def ack_memory (acked_seq : ℕ) : ℕ → List Frame → Option (ℕ × List Frame)
  | retained_bytes, [] => some (retained_bytes, [])
  | retained_bytes, front :: frames =>
    if acked_seq < front.seq then some (retained_bytes, front :: frames)
    else
      match checked_sub retained_bytes (record_cost front.body) with
      | none => none
      | some retained_bytes' => ack_memory acked_seq retained_bytes' frames

def ack (log : RetentionLog) (acked_seq : ℕ) : Option RetentionLog := if acked_seq ≤ log.floor then some log
  else
    let acked_seq := min acked_seq (log.next_seq - 1)
    match log.mode with
    | .memory frames =>
      match ack_memory acked_seq log.retained_bytes frames with
      | none => none
      | some (retained_bytes, frames') =>
        some { log with mode := .memory frames', retained_bytes, floor := acked_seq }
    | .spooled spool =>
      let freed := spool.free_through acked_seq
      match checked_sub log.retained_bytes freed.1 with
      | none => none
      | some retained_bytes =>
        some { log with mode := .spooled freed.2, retained_bytes, floor := acked_seq }

def replay_bounded (log : RetentionLog) (from_exclusive max_bytes : ℕ) : Except RetentionError (List Frame) :=
  if from_exclusive < log.floor then
    .error (.replay_below_floor from_exclusive log.floor)
  else
    match log.mode with
    | .memory frames =>
      .ok (readWithin (fun f => f.body.payload_len) max_bytes 0
        (frames.filter fun f => decide (from_exclusive < f.seq)))
    | .spooled spool => spool.read_from from_exclusive max_bytes

def payload_bytes_in_range (log : RetentionLog) (from_exclusive to_inclusive : ℕ) : ℕ := match log.mode with
  | .memory frames =>
    ((frames.filter fun f => decide (from_exclusive < f.seq ∧ f.seq ≤ to_inclusive)).map
      fun f => f.body.payload_len).sum
  | .spooled spool => spool.payload_bytes_in_range from_exclusive to_inclusive

def high_seq (log : RetentionLog) : ℕ := log.next_seq - 1

end RetentionLog

/-! ## The abstraction -/

/-- What the mode stores: exactly `frames`. A log still in memory has its fresh
spool directory pending. -/
def Mode.Stores (mode : Mode) (pending : Option Dir) (frames : List Frame) : Prop := match mode with
  | .memory stored => stored = frames ∧ pending = some fun _ => none
  | .spooled spool => spool.Holds frames ∧ pending = none

/-- The frames numbered above `lo` of a sequence of bodies. -/
def framesAbove (m : AckLog FrameBody) (lo : ℕ) : List Frame := numberFrom Frame.mk lo (m.appended.drop lo)

theorem framesAbove_numbered (m : AckLog FrameBody) (lo : ℕ) : Numbered Frame.seq lo (framesAbove m lo) :=
  numberFrom_numbered fun _ _ => rfl

theorem framesAbove_drop (m : AckLog FrameBody) (lo k : ℕ) :
    (framesAbove m lo).drop k = framesAbove m (lo + k) := by
  rw [framesAbove, numberFrom_drop, List.drop_drop, framesAbove]

theorem framesAbove_append (m : AckLog FrameBody) (body : FrameBody) {lo : ℕ} (hlo : lo ≤ m.high) :
    framesAbove (m.append body) lo = framesAbove m lo ++ [⟨m.high + 1, body⟩] := by
  have hlen : lo + (m.appended.drop lo).length = m.high := by
    rw [List.length_drop, AckLog.high]; rw [AckLog.high] at hlo; omega
  rw [framesAbove, AckLog.append, List.drop_append_of_le_length hlo, numberFrom_append, hlen]
  rfl

theorem framesAbove_length (m : AckLog FrameBody) (lo : ℕ) : (framesAbove m lo).length = m.high - lo := by
  rw [framesAbove, numberFrom_length, List.length_drop, AckLog.high]

theorem framesAbove_map {β : Type*} (g : FrameBody → β) (m : AckLog FrameBody) (lo : ℕ) :
    ((framesAbove m lo).map fun f => g f.body) = (m.appended.drop lo).map g :=
  numberFrom_map (f := fun f : Frame => g f.body) fun _ _ => rfl

/-- **The abstraction relation**: the log represents the sequence `m`. -/
structure RetentionLog.Refines (log : RetentionLog) (m : AckLog FrameBody) : Prop where
  next_seq : log.next_seq = m.high + 1
  floor : log.floor = m.floor
  /-- The ledger is the record cost of what is retained. -/
  ledger : log.retained_bytes = (m.retained.map record_cost).sum
  /-- What is stored is what is retained, in either representation. -/
  stored : log.mode.Stores log.spool_dir_pending (framesAbove m m.floor)
  /-- Everything retained can be laid out as a spool record. -/
  fits : ∀ f ∈ framesAbove m m.floor, f.Fits

namespace RetentionLog

theorem new_refines (config : RetentionConfig) : (new config fun _ => none).Refines AckLog.empty where
  next_seq := rfl
  floor := rfl
  ledger := rfl
  stored := ⟨rfl, rfl⟩
  fits := by intro f hf; exact absurd hf (by simp [framesAbove, AckLog.empty, numberFrom])

section Operations

variable {log : RetentionLog} {m : AckLog FrameBody}

theorem Refines.high_seq (h : log.Refines m) : log.high_seq = m.high := by
  rw [RetentionLog.high_seq, h.next_seq, Nat.add_sub_cancel]

theorem Refines.ledger_frames (h : log.Refines m) :
    log.retained_bytes = ((framesAbove m m.floor).map fun f => record_cost f.body).sum := by
  rw [h.ledger, framesAbove_map, AckLog.retained]

/-! ## `append` -/

theorem append_all_holds (segment_bytes : ℕ) :
    ∀ (frames : List Frame) (spool : Spool) (held : List Frame), spool.Holds held → (∀ f ∈ frames, f.Fits) →
      ∃ spool', Spool.append_all segment_bytes spool frames = (.ok (), spool') ∧ spool'.Holds (held ++ frames) := by
  intro frames
  induction frames with
  | nil => intro spool held h _; exact ⟨spool, rfl, by rwa [List.append_nil]⟩
  | cons f frames ih =>
    intro spool held h hfit
    obtain ⟨s, hs, hh⟩ := Spool.append_holds h (hfit f (by simp)) segment_bytes
    obtain ⟨s', hs', hh'⟩ := ih s (held ++ [f]) hh fun g hg => hfit g (List.mem_cons_of_mem _ hg)
    refine ⟨s', by rw [Spool.append_all, hs]; exact hs', ?_⟩
    rwa [List.append_assoc] at hh'

/-- **`make_room`** never panics. It fails only with `Overflow`, when the memory
caps are exceeded and spooling is off; either way the sequence is unchanged. -/
theorem make_room_refines (h : log.Refines m) (len : ℕ) :
    ∃ r log', log.make_room len = some (r, log') ∧ log'.Refines m ∧ log'.config = log.config ∧
      ((r = .ok () ∧ ((∃ frames, log'.mode = .memory frames ∧
            log.retained_bytes + len ≤ log.config.memory_max_bytes) ∨
          ∃ spool, log'.mode = .spooled spool)) ∨
        (r = .error (.overflow (log.retained_bytes + len) log.config.memory_max_bytes
            log.config.spool_max_bytes) ∧ log.config.spool_max_bytes = 0)) := by
  obtain ⟨config, mode, next_seq, floor, retained_bytes, pending⟩ := log
  rw [make_room]
  cases mode with
  | spooled spool => exact ⟨_, _, rfl, h, rfl, Or.inl ⟨rfl, Or.inr ⟨spool, rfl⟩⟩⟩
  | memory frames =>
    dsimp only
    split_ifs with hover hzero
    · exact ⟨_, _, rfl, h, rfl, Or.inr ⟨rfl, hzero⟩⟩
    · obtain ⟨hframes, hpending⟩ := h.stored
      subst hframes hpending
      obtain ⟨spool, hspool, hholds⟩ := append_all_holds config.spool_segment_bytes _ _ _ Spool.create_holds h.fits
      refine ⟨.ok (), ⟨config, .spooled spool, next_seq, floor, retained_bytes, none⟩, ?_, ?_,
        rfl, Or.inl ⟨rfl, Or.inr ⟨spool, rfl⟩⟩⟩
      · simp only [spill_to_spool, hspool]
      · exact ⟨h.next_seq, h.floor, h.ledger, ⟨hholds, rfl⟩, h.fits⟩
    · rw [not_or, Nat.not_lt, Nat.not_lt] at hover
      exact ⟨_, _, rfl, h, rfl, Or.inl ⟨rfl, Or.inl ⟨frames, rfl, hover.1⟩⟩⟩

variable {body : FrameBody} {log' : RetentionLog}

theorem Refines.extend (h : log.Refines m) (mode : Mode) (hfit : (⟨log.next_seq, body⟩ : Frame).Fits)
    (hstored : mode.Stores log.spool_dir_pending (framesAbove m m.floor ++ [⟨log.next_seq, body⟩])) :
    ({ log with mode := mode, next_seq := log.next_seq + 1,
                retained_bytes := log.retained_bytes + record_cost body } : RetentionLog).Refines
      (m.append body) := by
  have hframes : framesAbove (m.append body) (m.append body).floor
      = framesAbove m m.floor ++ [⟨log.next_seq, body⟩] := by
    rw [h.next_seq]; exact framesAbove_append m body m.floor_le
  refine ⟨?_, h.floor, ?_, by rw [hframes]; exact hstored, ?_⟩
  · dsimp only; rw [h.next_seq, AckLog.append_high]
  · rw [h.ledger, AckLog.append_retained, List.map_append, List.sum_append]
    simp
  · intro f hf
    rw [hframes] at hf
    rcases List.mem_append.mp hf with hold | hnew
    · exact h.fits f hold
    · rw [List.mem_singleton.mp hnew]; exact hfit

/-- **`append`**, for a frame that fits a spool record. It succeeds with the next number and extends the sequence,
or it fails with `Overflow` and leaves it unchanged; and it fails exactly when the quota that governs the log after
the spill decision is short. -/
theorem append_refines (h : log.Refines m) (hfit : (⟨log.next_seq, body⟩ : Frame).Fits) :
    ∃ r log', log.append body = some (r, log') ∧ log'.config = log.config ∧
      ((r = .ok (m.high + 1) ∧ log'.Refines (m.append body) ∧
          (log.retained_bytes + record_cost body ≤ log.config.memory_max_bytes ∨
            log.retained_bytes + record_cost body ≤ log.config.spool_max_bytes)) ∨
        (r = .error (.overflow (log.retained_bytes + record_cost body)
            log.config.memory_max_bytes log.config.spool_max_bytes) ∧ log'.Refines m ∧
          (log.config.spool_max_bytes = 0 ∨
            log.config.spool_max_bytes < log.retained_bytes + record_cost body))) := by
  obtain ⟨r, log₁, hroom, href, hconfig, hcase⟩ := make_room_refines h (record_cost body)
  have hseq : log₁.next_seq = log.next_seq := by rw [href.next_seq, h.next_seq]
  have hbytes : log₁.retained_bytes = log.retained_bytes := by rw [href.ledger, h.ledger]
  have hnext : log.next_seq = m.high + 1 := h.next_seq
  obtain ⟨config₁, mode₁, next₁, floor₁, bytes₁, pending₁⟩ := log₁
  subst hseq hbytes hconfig
  rcases hcase with ⟨rfl, hmode⟩ | ⟨rfl, hzero⟩
  · simp only [append, hroom, store]
    rcases hmode with ⟨frames, rfl, hle⟩ | ⟨spool, rfl⟩
    · obtain ⟨hframes, hpending⟩ := href.stored
      refine ⟨_, _, rfl, rfl, Or.inl ⟨by rw [hnext], ?_, Or.inl hle⟩⟩
      exact href.extend _ hfit ⟨by rw [hframes], hpending⟩
    · obtain ⟨hholds, hpending⟩ := href.stored
      obtain ⟨spool', hspool', hholds'⟩ := Spool.append_holds hholds hfit log.config.spool_segment_bytes
      dsimp only
      rw [hspool']
      split_ifs with hquota
      · exact ⟨_, _, rfl, rfl, Or.inr ⟨rfl, href, Or.inr hquota⟩⟩
      · refine ⟨_, _, rfl, rfl, Or.inl ⟨by rw [hnext], ?_, Or.inr (Nat.not_lt.1 hquota)⟩⟩
        exact href.extend (.spooled spool') hfit ⟨hholds', hpending⟩
  · simp only [append, hroom]
    exact ⟨_, _, rfl, rfl, Or.inr ⟨rfl, href, Or.inl hzero⟩⟩

/-! ## `ack` -/

theorem ack_memory_numbered (acked_seq : ℕ) : ∀ (frames : List Frame) (lo rest : ℕ), Numbered Frame.seq lo frames →
      ack_memory acked_seq ((frames.map fun f => record_cost f.body).sum + rest) frames
        = some (((frames.drop (acked_seq - lo)).map fun f => record_cost f.body).sum + rest,
            frames.drop (acked_seq - lo)) := by
  intro frames
  induction frames with
  | nil => intro lo rest _; simp [ack_memory]
  | cons f frames ih =>
    intro lo rest hnum
    have hseq : f.seq = lo + 1 := hnum.1
    rw [ack_memory]
    by_cases hstop : acked_seq < f.seq
    · rw [if_pos hstop, Nat.sub_eq_zero_of_le (by omega : acked_seq ≤ lo), List.drop_zero]
    · rw [if_neg hstop]
      have hsum : ((f :: frames).map fun f => record_cost f.body).sum + rest
          = ((frames.map fun f => record_cost f.body).sum + rest) + record_cost f.body := by
        rw [List.map_cons, List.sum_cons]; omega
      have hsub : acked_seq - lo = (acked_seq - (lo + 1)) + 1 := by omega
      rw [hsum, checked_sub_add, hsub, List.drop_succ_cons]
      exact ih (lo + 1) rest hnum.2

theorem record_cost_split (frames : List Frame) (k : ℕ) : (frames.map fun f => record_cost f.body).sum
      = ((frames.drop k).map fun f => record_cost f.body).sum
        + ((frames.take k).map fun f => record_cost f.body).sum := by
  conv_lhs => rw [← List.take_append_drop k frames, List.map_append, List.sum_append]
  exact Nat.add_comm _ _

/-- **`ack`** never underflows the ledger, and it acknowledges in the sequence. -/
theorem ack_refines (h : log.Refines m) (acked_seq : ℕ) :
    ∃ log', log.ack acked_seq = some log' ∧ log'.Refines (m.ack acked_seq) ∧ log'.config = log.config := by
  by_cases hle : acked_seq ≤ log.floor
  · refine ⟨log, by rw [ack, if_pos hle], ?_, rfl⟩
    have hsame : m.ack acked_seq = m := by
      rw [h.floor] at hle
      ext1
      · rfl
      · simp only [AckLog.ack]; omega
    rwa [hsame]
  · -- The clamped ack is the new floor, and it is ahead of the old one.
    set a := min acked_seq m.high with ha
    have hfloor : (m.ack acked_seq).floor = a := by
      have := h.floor; have := m.floor_le
      simp only [AckLog.ack, AckLog.high] at ha ⊢
      omega
    have hframes : framesAbove (m.ack acked_seq) (m.ack acked_seq).floor
        = (framesAbove m m.floor).drop (a - m.floor) := by
      rw [framesAbove_drop, hfloor]
      have : m.floor + (a - m.floor) = a := by
        have := h.floor; have := m.floor_le
        simp only [AckLog.high] at ha
        omega
      rw [this]; rfl
    have hhigh : log.next_seq - 1 = m.high := h.high_seq
    have hnum := framesAbove_numbered m m.floor
    have hcost : ((m.ack acked_seq).retained.map record_cost).sum
        = (((framesAbove m m.floor).drop (a - m.floor)).map fun f => record_cost f.body).sum := by
      rw [← hframes, framesAbove_map, AckLog.retained]
    have hfits : ∀ f ∈ framesAbove (m.ack acked_seq) (m.ack acked_seq).floor, f.Fits := by
      intro f hf
      rw [hframes] at hf
      exact h.fits f (List.mem_of_mem_drop hf)
    rw [ack, if_neg hle, hhigh, ← ha]
    obtain ⟨config, mode, next_seq, floor, retained_bytes, pending⟩ := log
    have hledger := h.ledger_frames
    dsimp only at hledger ⊢
    cases mode with
    | memory frames =>
      obtain ⟨hstored, hpending⟩ := h.stored
      subst hstored
      have hack := ack_memory_numbered a _ m.floor 0 hnum
      rw [Nat.add_zero, Nat.add_zero] at hack
      dsimp only
      rw [hledger, hack]
      refine ⟨_, rfl, ⟨h.next_seq, hfloor.symm, hcost.symm, ⟨hframes.symm, hpending⟩, hfits⟩, rfl⟩
    | spooled spool =>
      obtain ⟨hholds, hpending⟩ := h.stored
      obtain ⟨hfreed, hholds'⟩ := Spool.free_through_holds hholds hnum a
      dsimp only
      rw [hledger, hfreed, record_cost_split _ (a - m.floor), checked_sub_add]
      refine ⟨_, rfl, ⟨h.next_seq, hfloor.symm, hcost.symm, ⟨?_, hpending⟩, hfits⟩, rfl⟩
      rw [hframes]
      exact hholds'

/-! ## Reads -/

/-- **`replay_bounded`** is the bounded read of the frames above its start. -/
theorem replay_bounded_refines (h : log.Refines m) (from_exclusive max_bytes : ℕ) :
    log.replay_bounded from_exclusive max_bytes
      = if from_exclusive < m.floor then .error (.replay_below_floor from_exclusive m.floor)
        else .ok (readWithin (fun f => f.body.payload_len) max_bytes 0 (framesAbove m from_exclusive)) := by
  rw [replay_bounded, h.floor]
  split_ifs with hbelow
  · rfl
  · have hnum := framesAbove_numbered m m.floor
    have hdrop : (framesAbove m m.floor).drop (from_exclusive - m.floor) = framesAbove m from_exclusive := by
      rw [framesAbove_drop, Nat.add_sub_cancel' (Nat.not_lt.1 hbelow)]
    have hst := h.stored
    cases hmode : log.mode with
    | memory frames =>
      rw [hmode] at hst
      dsimp only
      rw [hst.1, hnum.filter_gt, hdrop]
    | spooled spool =>
      rw [hmode] at hst
      dsimp only
      rw [Spool.read_from_holds hst.1 hnum h.fits, hdrop]

/-- The retained frames numbered above `from_exclusive`: a replay whose budget is
above everything retained. -/
def tail_from (log : RetentionLog) (from_exclusive : ℕ) : List Frame :=
  match log.replay_bounded from_exclusive (log.retained_bytes + 1) with
  | .ok frames => frames
  | .error _ => []

theorem tail_from_refines (h : log.Refines m) {from_exclusive : ℕ} (hfloor : m.floor ≤ from_exclusive) :
    log.tail_from from_exclusive = framesAbove m from_exclusive := by
  have hweight : ((framesAbove m from_exclusive).map fun f => f.body.payload_len).sum ≤ log.retained_bytes := by
    have hdrop : framesAbove m from_exclusive = (framesAbove m m.floor).drop (from_exclusive - m.floor) := by
      rw [framesAbove_drop, Nat.add_sub_cancel' hfloor]
    rw [h.ledger_frames, record_cost_split _ (from_exclusive - m.floor), ← hdrop]
    refine Nat.le_add_right_of_le (List.sum_le_sum ?_)
    intro f _
    exact Nat.le_add_right _ _
  rw [tail_from, replay_bounded_refines h, if_neg (Nat.not_lt.2 hfloor)]
  exact readWithin_eq_self 0 _ (by rw [Nat.zero_add]; exact Nat.lt_succ_of_le hweight)

/-- **`payload_bytes_in_range`** is the payload numbered in
`(max from floor, min to high]`. -/
theorem payload_bytes_in_range_refines (h : log.Refines m) (from_exclusive to_inclusive : ℕ) :
    log.payload_bytes_in_range from_exclusive to_inclusive
      = ((m.between (max from_exclusive m.floor) (min to_inclusive m.high)).map FrameBody.payload_len).sum := by
  have hnum := framesAbove_numbered m m.floor
  have hslice : (((framesAbove m m.floor).filter fun f =>
        decide (from_exclusive < f.seq ∧ f.seq ≤ to_inclusive)).map fun f => f.body.payload_len)
      = (m.between (max from_exclusive m.floor) (min to_inclusive m.high)).map FrameBody.payload_len := by
    rw [hnum.filter_between, List.map_drop, List.map_take, framesAbove_map, ← List.map_take, ← List.map_drop]
    congr 1
    rw [AckLog.between, List.take_drop, List.drop_drop]
    have hstart : m.floor + (from_exclusive - m.floor) = max from_exclusive m.floor := by omega
    rw [hstart]
    -- Past the floor the two slices end together; before it both are empty.
    by_cases hto : m.floor ≤ to_inclusive
    · rw [Nat.add_sub_cancel' hto, AckLog.high, ← List.take_take, List.take_length]
    · have hempty : ∀ n, n ≤ m.floor → (m.appended.take n).drop (max from_exclusive m.floor) = [] := by
        intro n hn
        refine List.drop_eq_nil_of_le ?_
        rw [List.length_take]
        omega
      rw [hempty _ (by omega), hempty _ (by omega)]
  have hst := h.stored
  rw [payload_bytes_in_range]
  cases hmode : log.mode with
  | memory frames =>
    rw [hmode] at hst
    dsimp only
    rw [hst.1, hslice]
  | spooled spool =>
    rw [hmode] at hst
    dsimp only
    rw [Spool.payload_bytes_in_range_holds hst.1, hslice]

/-! ## Limits -/

/-- What no operation does to a log: change its limits, or make it retain more than
they allow. -/
structure KeepsLimits (log log' : RetentionLog) : Prop where
  config : log'.config = log.config
  quota : log'.retained_bytes ≤ max log.retained_bytes (max log.config.memory_max_bytes log.config.spool_max_bytes)

theorem KeepsLimits.refl (log : RetentionLog) : log.KeepsLimits log := ⟨rfl, Nat.le_max_left _ _⟩

theorem KeepsLimits.trans {log₁ log₂ log₃ : RetentionLog} (h : log₁.KeepsLimits log₂)
    (h' : log₂.KeepsLimits log₃) : log₁.KeepsLimits log₃ where
  config := h'.config.trans h.config
  quota := by
    have hstart := h.quota
    have hend := h'.quota
    rw [h.config] at hend
    omega

theorem Refines.append_bytes (h : log.Refines m) (h' : log'.Refines (m.append body)) :
    log'.retained_bytes = log.retained_bytes + record_cost body := by
  rw [h'.ledger, h.ledger, AckLog.append_retained, List.map_append, List.sum_append]
  rfl

theorem append_keepsLimits (h : log.Refines m) (hfit : (⟨log.next_seq, body⟩ : Frame).Fits)
    {r : Except RetentionError ℕ} (happ : log.append body = some (r, log')) :
    log.KeepsLimits log' := by
  obtain ⟨r₁, log₁, hres, hconfig, hcase⟩ := append_refines h hfit
  rw [happ, Option.some.injEq, Prod.mk.injEq] at hres
  obtain ⟨rfl, rfl⟩ := hres
  refine ⟨hconfig, ?_⟩
  rcases hcase with ⟨-, href, hquota⟩ | ⟨-, href, -⟩
  · rw [h.append_bytes href]
    omega
  · rw [href.ledger, h.ledger]
    exact Nat.le_max_left _ _

theorem ack_keepsLimits (h : log.Refines m) {acked_seq : ℕ} (hack : log.ack acked_seq = some log') :
    log.KeepsLimits log' := by
  obtain ⟨log₁, hres, href, hconfig⟩ := ack_refines h acked_seq
  cases hack.symm.trans hres
  refine ⟨hconfig, Nat.le_trans ?_ (Nat.le_max_left _ _)⟩
  -- The acknowledged frames are a prefix of what was retained.
  rw [href.ledger, h.ledger, AckLog.ack_retained, List.map_drop]
  exact (List.drop_sublist _ _).sum_le_sum fun _ _ => Nat.zero_le _

end Operations

/-! ## Numbering

What the operations do to `next_seq`, of any log. -/

section NextSeq

variable {log log' : RetentionLog}

variable {r : Except RetentionError Unit}

theorem spill_to_spool_next_seq (h : log.spill_to_spool = some (r, log')) : log'.next_seq = log.next_seq := by
  unfold spill_to_spool at h
  split at h
  · simp at h
  · split at h
    · split at h <;> (obtain ⟨-, rfl⟩ := Prod.mk.inj (Option.some.inj h); rfl)
    · obtain ⟨-, rfl⟩ := Prod.mk.inj (Option.some.inj h)
      rfl

theorem make_room_next_seq {len : ℕ} (h : log.make_room len = some (r, log')) : log'.next_seq = log.next_seq := by
  unfold make_room at h
  split at h
  · dsimp only at h
    split_ifs at h
    · obtain ⟨-, rfl⟩ := Prod.mk.inj (Option.some.inj h)
      rfl
    · exact spill_to_spool_next_seq h
    · obtain ⟨-, rfl⟩ := Prod.mk.inj (Option.some.inj h)
      rfl
  · obtain ⟨-, rfl⟩ := Prod.mk.inj (Option.some.inj h)
    rfl

theorem append_next_seq {body : FrameBody} {r : Except RetentionError ℕ} (h : log.append body = some (r, log')) :
    (r = .ok log.next_seq ∧ log'.next_seq = log.next_seq + 1) ∨
      ((∃ error, r = .error error) ∧ log'.next_seq = log.next_seq) := by
  unfold append at h
  dsimp only at h
  split at h
  · simp at h
  · next error room hroom =>
      cases h
      exact Or.inr ⟨⟨error, rfl⟩, make_room_next_seq hroom⟩
  · next room hroom =>
      have hseq := make_room_next_seq hroom
      have hstore := Option.some.inj h
      unfold store at hstore
      split at hstore
      · cases hstore
        exact Or.inl ⟨rfl, by rw [← hseq]⟩
      · split_ifs at hstore
        · cases hstore
          exact Or.inr ⟨⟨_, rfl⟩, hseq⟩
        · split at hstore
          · cases hstore
            exact Or.inr ⟨⟨_, rfl⟩, hseq⟩
          · cases hstore
            exact Or.inl ⟨rfl, by rw [← hseq]⟩

theorem ack_next_seq {acked_seq : ℕ} (h : log.ack acked_seq = some log') : log'.next_seq = log.next_seq := by
  unfold ack at h
  dsimp only at h
  split_ifs at h
  · cases h
    rfl
  · split at h
    · split at h
      · simp at h
      · cases h
        rfl
    · split at h
      · simp at h
      · cases h
        rfl

end NextSeq

end RetentionLog

end OpenGeni.Engine
