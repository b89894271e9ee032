/-
The retention log on a disk that fails.

The spool of `Spool.lean` writes what it is told. Here the disk answers every call: the directory is
created or not, a segment opens or not, and a record is written in full or only up to some byte. A
file that was deleted may still be there.

A failed append must leave the log as it was. What a reader of the log sees lies in the index and in
the bytes the index points at, and a failed write only adds bytes behind them. The one append that
does change something is the one that migrates the frames from memory: the frames are drained before
they are written, and the directory is given up before it exists.
-/
import OpenGeni.Engine.RetentionRuns

namespace OpenGeni.Engine

open OpenGeni.Lib

/-! ## A disk that fails -/

/-- How the disk takes one record. A failure carries the text of its error. -/
structure RecordIo where
  opens : Option String
  /-- The bytes that were written before the failure. -/
  writes : Option (ℕ × String)

/-- How the disk takes one `append`: the directory and the migrated records, if the log spills, and the
new record. -/
structure AppendIo where
  create_dir : Option String
  migrated : ℕ → RecordIo
  appended : RecordIo

namespace Spool

/-- `create_new(true)` on a disk that may refuse. -/
def open_segment_io (io : RecordIo) (spool : Spool) (id : ℕ) : Except RetentionError Spool := match io.opens with
  | some source => .error (.spool_io "open segment" source)
  | none => spool.open_segment id

def rotate_io (io : RecordIo) (spool : Spool) (segment_bytes : ℕ) : Except RetentionError Spool :=
  match spool.active with
  | none => spool.open_segment_io io 0
  | some (id, written) =>
    if segment_bytes ≤ written then spool.open_segment_io io (id + 1) else .ok spool

/-- A record that is not written in full is not indexed, and the bytes of it stay in the file. -/
def write_record_io (io : RecordIo) (spool : Spool) (segment written : ℕ) (frame : Frame) :
    Except RetentionError Unit × Spool :=
  if U32_MAX < frame.body.payload.length then
    (.error (.spool_io "encode record (payload too large)" "frame > 4GiB"), spool)
  else
    match io.writes with
    | some (n, source) =>
      (.error (.spool_io "append record" source),
        { spool with dir := write_all spool.dir segment ((encode_record frame).take n) })
    | none => spool.write_record segment written frame

/-- `Spool::append`. -/
def append_io (io : RecordIo) (spool : Spool) (frame : Frame) (segment_bytes : ℕ) :
    Except RetentionError Unit × Spool :=
  match spool.rotate_io io segment_bytes with
  | .error e => (.error e, spool)
  | .ok spool' =>
    match spool'.active with
    | some (segment, written) => spool'.write_record_io io segment written frame
    | none => (.ok (), spool')

/-- The drain loop of `spill_to_spool`, from its `i`-th record on. -/
def append_all_io (records : ℕ → RecordIo) (segment_bytes : ℕ) :
    ℕ → Spool → List Frame → Except RetentionError Unit × Spool
  | _, spool, [] => (.ok (), spool)
  | i, spool, frame :: frames =>
    match spool.append_io (records i) frame segment_bytes with
    | (.error e, spool') => (.error e, spool')
    | (.ok (), spool') => append_all_io records segment_bytes (i + 1) spool' frames

/-- `Spool::free_through`, where `unlink` says which deletions the disk performs. -/
def free_loop_io (unlink : ℕ → Bool) (active : Option (ℕ × ℕ)) (acked_seq : ℕ) :
    Dir → ℕ → List FrameLoc → ℕ × Dir × List FrameLoc
  | dir, freed, [] => (freed, dir, [])
  | dir, freed, front :: rest =>
    if acked_seq < front.seq then (freed, dir, front :: rest)
    else
      let segment_still_referenced := rest.head?.any (fun next => next.segment == front.segment)
      let segment_is_active := active.any (fun a => a.1 == front.segment)
      let dir' := if !segment_still_referenced && !segment_is_active && unlink front.segment then
          Function.update dir front.segment none
        else dir
      free_loop_io unlink active acked_seq dir' (freed + (front.payload_len + RECORD_OVERHEAD_BYTES)) rest

def free_through_io (unlink : ℕ → Bool) (spool : Spool) (acked_seq : ℕ) : ℕ × Spool :=
  let r := free_loop_io unlink spool.active acked_seq spool.dir 0 spool.index
  (r.1, { spool with dir := r.2.1, index := r.2.2 })

end Spool

namespace RetentionLog

/-- `RetentionLog::spill_to_spool`. The directory is taken before it is created, and the deque is
drained before its frames are written. -/
def spill_to_spool_io (io : AppendIo) (log : RetentionLog) : Option (Except RetentionError Unit × RetentionLog) :=
  match log.spool_dir_pending with
  | none => none
  | some dir =>
    match io.create_dir with
    | some source =>
      some (.error (.spool_io "create spool dir" source), { log with spool_dir_pending := none })
    | none =>
      match log.mode with
      | .memory frames =>
        match Spool.append_all_io io.migrated log.config.spool_segment_bytes 0 (Spool.create dir) frames with
        | (.error e, _) => some (.error e, { log with mode := .memory [], spool_dir_pending := none })
        | (.ok (), spool) => some (.ok (), { log with mode := .spooled spool, spool_dir_pending := none })
      | .spooled _ => some (.ok (), { log with mode := .spooled (Spool.create dir), spool_dir_pending := none })

/-- Whether a frame of cost `len` pushes the log past its memory caps. -/
def over_caps (log : RetentionLog) (len : ℕ) : Bool := match log.mode with
  | .memory frames =>
    log.config.memory_max_bytes < log.retained_bytes + len || log.config.memory_max_frames < frames.length + 1
  | .spooled _ => false

def make_room_io (io : AppendIo) (log : RetentionLog) (len : ℕ) :
    Option (Except RetentionError Unit × RetentionLog) :=
  if log.over_caps len then
    if log.config.spool_max_bytes = 0 then
      some (.error (.overflow (log.retained_bytes + len) log.config.memory_max_bytes
        log.config.spool_max_bytes), log)
    else log.spill_to_spool_io io
  else some (.ok (), log)

def store_io (io : RecordIo) (log : RetentionLog) (seq len : ℕ) (body : FrameBody) :
    Except RetentionError ℕ × RetentionLog :=
  let charged (log : RetentionLog) (mode : Mode) : RetentionLog :=
    { log with mode := mode, next_seq := log.next_seq + 1, retained_bytes := log.retained_bytes + len }
  match log.mode with
  | .memory frames => (.ok seq, charged log (.memory (frames ++ [⟨seq, body⟩])))
  | .spooled spool =>
    if log.config.spool_max_bytes < log.retained_bytes + len then
      (.error (.overflow (log.retained_bytes + len) log.config.memory_max_bytes log.config.spool_max_bytes), log)
    else
      match spool.append_io io ⟨seq, body⟩ log.config.spool_segment_bytes with
      | (.error e, spool') => (.error e, { log with mode := .spooled spool' })
      | (.ok (), spool') => (.ok seq, charged log (.spooled spool'))

/-- `RetentionLog::append`. -/
def append_io (io : AppendIo) (log : RetentionLog) (body : FrameBody) :
    Option (Except RetentionError ℕ × RetentionLog) :=
  match log.make_room_io io (record_cost body) with
  | none => none
  | some (.error e, log') => some (.error e, log')
  | some (.ok (), log') => some (log'.store_io io.appended log.next_seq (record_cost body) body)

/-- `RetentionLog::ack`. -/
def ack_io (unlink : ℕ → Bool) (log : RetentionLog) (acked_seq : ℕ) : Option RetentionLog :=
  if acked_seq ≤ log.floor then some log
  else
    let acked_seq := min acked_seq (log.next_seq - 1)
    match log.mode with
    | .memory frames =>
      match ack_memory acked_seq log.retained_bytes frames with
      | none => none
      | some (retained_bytes, frames') =>
        some { log with mode := .memory frames', retained_bytes, floor := acked_seq }
    | .spooled spool =>
      let freed := spool.free_through_io unlink acked_seq
      match checked_sub log.retained_bytes freed.1 with
      | none => none
      | some retained_bytes =>
        some { log with mode := .spooled freed.2, retained_bytes, floor := acked_seq }

end RetentionLog

/-- A call that changes the log, with the disk's answers to it. Reads do not change it. -/
inductive LogOp
  | append (io : AppendIo) (body : FrameBody)
  | ack (unlink : ℕ → Bool) (acked_seq : ℕ)

/-- The log after a call; `none` is a panic. -/
def RetentionLog.perform (log : RetentionLog) : LogOp → Option RetentionLog
  | .append io body => (log.append_io io body).map Prod.snd
  | .ack unlink acked_seq => log.ack_io unlink acked_seq

/-- A call that returns. A number that is assigned is a `u64`. -/
def FaultStep (log : RetentionLog) (op : LogOp) (log' : RetentionLog) : Prop :=
  log.perform op = some log' ∧ log'.next_seq ≤ 2 ^ 64

/-! ## What a reader of a spool sees -/

namespace Spool

/-- Every index entry points into its file, whatever else the disk has written there. -/
structure Ranged (spool : Spool) : Prop where
  in_file : ∀ loc ∈ spool.index, ∀ file, spool.dir loc.segment = some file →
    loc.offset + loc.record_len ≤ file.length
  upto_active : ∀ loc ∈ spool.index, ∃ id w, spool.active = some (id, w) ∧ loc.segment ≤ id
  /-- What a failed write left stands behind what the spool counts. -/
  active_len : ∀ id w, spool.active = some (id, w) → ∀ file, spool.dir id = some file → w ≤ file.length
  fresh : ∀ seg, (∀ id w, spool.active = some (id, w) → id < seg) → spool.dir seg = none

theorem create_ranged : (create fun _ => none).Ranged where
  in_file := by intro loc hloc; exact absurd hloc List.not_mem_nil
  upto_active := by intro loc hloc; exact absurd hloc List.not_mem_nil
  active_len := by intro id w h; exact absurd h (by simp [create])
  fresh := fun _ _ => rfl

structure Grown (spool spool' : Spool) : Prop where
  index : spool'.index = spool.index
  dir : ∀ loc ∈ spool.index, ∃ more, spool'.dir loc.segment = (spool.dir loc.segment).map (· ++ more)

theorem Grown.refl (spool : Spool) : Grown spool spool where
  index := rfl
  dir := fun _ _ => ⟨[], by simp⟩

theorem Grown.trans {spool₁ spool₂ spool₃ : Spool} (h : Grown spool₁ spool₂) (h' : Grown spool₂ spool₃) :
    Grown spool₁ spool₃ where
  index := h'.index.trans h.index
  dir := by
    intro loc hloc
    obtain ⟨more, hmore⟩ := h.dir loc hloc
    obtain ⟨more', hmore'⟩ := h'.dir loc (by rw [h.index]; exact hloc)
    refine ⟨more ++ more', ?_⟩
    rw [hmore', hmore, Option.map_map]
    congr 1
    funext file
    exact List.append_assoc _ _ _

theorem open_for_replay_eq {dir : Dir} {opened : Option (ℕ × List UInt8)} (segment : ℕ)
    (hopened : ∀ seg file, opened = some (seg, file) → dir seg = some file) :
    open_for_replay dir opened segment = open_for_replay dir none segment := by
  cases opened with
  | none => rfl
  | some o =>
    obtain ⟨seg, file⟩ := o
    by_cases hseg : seg = segment
    · subst hseg
      simp only [open_for_replay, ne_eq, not_true_eq_false, if_false, hopened seg file rfl]
    · simp only [open_for_replay, ne_eq, hseg, not_false_eq_true, if_true]

theorem read_record_append {file : List UInt8} {loc : FrameLoc} (more : List UInt8)
    (h : loc.offset + loc.record_len ≤ file.length) : read_record (file ++ more) loc = read_record file loc := by
  have hslice : ((file ++ more).drop loc.offset).take loc.record_len = (file.drop loc.offset).take loc.record_len := by
    rw [List.drop_append_of_le_length (by omega), List.take_append_of_le_length (by rw [List.length_drop]; omega)]
  simp only [read_record, hslice]

theorem read_loop_grown {dir dir' : Dir} {max_bytes : ℕ} {locs : List FrameLoc}
    (hin : ∀ loc ∈ locs, ∀ file, dir loc.segment = some file → loc.offset + loc.record_len ≤ file.length)
    (hgrown : ∀ loc ∈ locs, ∃ more, dir' loc.segment = (dir loc.segment).map (· ++ more)) :
    ∀ (opened opened' : Option (ℕ × List UInt8)) (budget : ℕ),
      (∀ seg file, opened = some (seg, file) → dir seg = some file) →
      (∀ seg file, opened' = some (seg, file) → dir' seg = some file) →
      read_loop dir' max_bytes opened' budget locs = read_loop dir max_bytes opened budget locs := by
  induction locs with
  | nil => intro opened opened' budget _ _; rfl
  | cons loc locs ih =>
    intro opened opened' budget hopened hopened'
    obtain ⟨more, hmore⟩ := hgrown loc List.mem_cons_self
    rw [read_loop, read_loop, open_for_replay_eq _ hopened, open_for_replay_eq _ hopened']
    cases hfile : dir loc.segment with
    | none =>
      rw [hfile] at hmore
      simp only [open_for_replay, hfile, hmore, Option.map_none, bind, Except.bind]
    | some file =>
      rw [hfile] at hmore
      have hread := read_record_append more (hin loc List.mem_cons_self file hfile)
      have hrest := ih (fun l hl => hin l (List.mem_cons_of_mem _ hl))
        (fun l hl => hgrown l (List.mem_cons_of_mem _ hl)) (some (loc.segment, file))
        (some (loc.segment, file ++ more)) (budget + loc.payload_len) (by rintro seg g ⟨⟩; exact hfile)
        (by rintro seg g ⟨⟩; exact hmore)
      simp only [open_for_replay, hfile, hmore, Option.map_some, bind, Except.bind, hread, hrest]

variable {spool : Spool}

/-- **What a failed write does to a reader**: nothing. -/
theorem read_from_grown {spool' : Spool} (hranged : spool.Ranged) (h : Grown spool spool')
    (from_exclusive max_bytes : ℕ) :
    spool'.read_from from_exclusive max_bytes = spool.read_from from_exclusive max_bytes := by
  rw [read_from, read_from, h.index]
  refine read_loop_grown ?_ ?_ none none 0 (by rintro _ _ ⟨⟩) (by rintro _ _ ⟨⟩)
  · exact fun loc hloc => hranged.in_file loc (List.mem_of_mem_filter hloc)
  · exact fun loc hloc => h.dir loc (List.mem_of_mem_filter hloc)

/-! ## Appending to a spool -/

def cost (spool : Spool) : ℕ := (spool.index.map fun loc => loc.payload_len + RECORD_OVERHEAD_BYTES).sum

theorem open_segment_io_cases (io : RecordIo) (id : ℕ) (hranged : spool.Ranged)
    (hid : ∀ i w, spool.active = some (i, w) → i < id) :
    (io.opens ≠ none ∧ ∃ e, spool.open_segment_io io id = .error e) ∨
      io.opens = none ∧ ∃ spool', spool.open_segment_io io id = .ok spool' ∧ spool.open_segment id = .ok spool' ∧
        spool'.active = some (id, 0) ∧ spool'.Ranged ∧ Grown spool spool' := by
  cases hopens : io.opens with
  | some source => exact .inl ⟨by simp, _, by rw [open_segment_io, hopens]⟩
  | none =>
    right
    have hnone : spool.dir id = none := hranged.fresh id hid
    have hne : ∀ loc ∈ spool.index, loc.segment ≠ id := by
      intro loc hloc heq
      obtain ⟨i, w, hactive, hle⟩ := hranged.upto_active loc hloc
      have := hid i w hactive
      omega
    have hopen : spool.open_segment id =
        .ok { spool with dir := Function.update spool.dir id (some []), active := some (id, 0) } := by
      rw [open_segment, hnone]
    refine ⟨rfl, _, by rw [open_segment_io, hopens]; exact hopen, hopen, rfl, ⟨?_, ?_, ?_, ?_⟩, rfl, ?_⟩
    · intro loc hloc file hfile
      dsimp only at hfile
      rw [Function.update_of_ne (hne loc hloc)] at hfile
      exact hranged.in_file loc hloc file hfile
    · intro loc hloc
      obtain ⟨i, w, hactive, hle⟩ := hranged.upto_active loc hloc
      exact ⟨id, 0, rfl, le_trans hle (le_of_lt (hid i w hactive))⟩
    · rintro i w ⟨⟩ file -
      exact Nat.zero_le _
    · intro seg hseg
      have hlt : id < seg := hseg id 0 rfl
      dsimp only
      rw [Function.update_of_ne (Nat.ne_of_gt hlt)]
      exact hranged.fresh seg fun i w hactive => lt_trans (hid i w hactive) hlt
    · intro loc hloc
      refine ⟨[], ?_⟩
      dsimp only
      rw [Function.update_of_ne (hne loc hloc)]
      simp

def needs_new (segment_bytes : ℕ) (written : Option ℕ) : Bool := written.all fun w => segment_bytes ≤ w

theorem rotate_io_cases (io : RecordIo) (segment_bytes : ℕ) (hranged : spool.Ranged) :
    (needs_new segment_bytes (spool.active.map Prod.snd) = true ∧ io.opens ≠ none ∧
        ∃ e, spool.rotate_io io segment_bytes = .error e) ∨
      (needs_new segment_bytes (spool.active.map Prod.snd) = true → io.opens = none) ∧
        ∃ spool' id w, spool.rotate_io io segment_bytes = .ok spool' ∧ spool.rotate segment_bytes = .ok spool' ∧
          spool'.active = some (id, w) ∧
          w = (if needs_new segment_bytes (spool.active.map Prod.snd) then 0 else (spool.active.map Prod.snd).getD 0) ∧
          spool'.Ranged ∧ Grown spool spool' := by
  cases hactive : spool.active with
  | none =>
    have hcases := open_segment_io_cases io 0 hranged (by rintro i w h; rw [hactive] at h; cases h)
    rcases hcases with ⟨hopens, e, herror⟩ | ⟨hopens, spool', hok, hplain, hact, hranged', hgrown⟩
    · exact .inl ⟨rfl, hopens, e, by rw [rotate_io, hactive]; exact herror⟩
    · exact .inr ⟨fun _ => hopens, spool', 0, 0, by rw [rotate_io, hactive]; exact hok, by rw [rotate, hactive]; exact hplain,
        hact, rfl, hranged', hgrown⟩
  | some a =>
    obtain ⟨id, written⟩ := a
    by_cases hnew : segment_bytes ≤ written
    · have hneeds : needs_new segment_bytes (some written) = true := decide_eq_true hnew
      have hcases := open_segment_io_cases io (id + 1) hranged (by
        rintro i w h
        rw [hactive] at h
        cases h
        exact Nat.lt_succ_self id)
      rcases hcases with ⟨hopens, e, herror⟩ | ⟨hopens, spool', hok, hplain, hact, hranged', hgrown⟩
      · exact .inl ⟨hneeds, hopens, e, by rw [rotate_io, hactive]; simp only [if_pos hnew]; exact herror⟩
      · refine .inr ⟨fun _ => hopens, spool', id + 1, 0, ?_, ?_, hact, ?_, hranged', hgrown⟩
        · rw [rotate_io, hactive]
          simp only [if_pos hnew]
          exact hok
        · rw [rotate, hactive]
          simp only [if_pos hnew]
          exact hplain
        · exact (if_pos hneeds).symm
    · have hneeds : needs_new segment_bytes (some written) = false := decide_eq_false hnew
      refine .inr ⟨fun h => ?_, spool, id, written, ?_, ?_, hactive, ?_, hranged, .refl spool⟩
      · rw [Option.map_some, hneeds] at h
        cases h
      · rw [rotate_io, hactive]
        simp only [if_neg hnew]
      · rw [rotate, hactive]
        simp only [if_neg hnew]
      · rw [Option.map_some, hneeds]
        rfl

theorem write_all_grown (hranged : spool.Ranged) (id : ℕ) (bytes : List UInt8) :
    (Spool.mk (write_all spool.dir id bytes) spool.active spool.index).Ranged ∧
      Grown spool ⟨write_all spool.dir id bytes, spool.active, spool.index⟩ := by
  have hdir : ∀ seg, ∃ more, write_all spool.dir id bytes seg = (spool.dir seg).map (· ++ more) := by
    intro seg
    by_cases hseg : seg = id
    · exact ⟨bytes, by rw [hseg, write_all, Function.update_self]⟩
    · exact ⟨[], by rw [write_all, Function.update_of_ne hseg]; simp⟩
  have hlonger : ∀ seg file, write_all spool.dir id bytes seg = some file →
      ∃ file₀, spool.dir seg = some file₀ ∧ file₀.length ≤ file.length := by
    intro seg file hfile
    obtain ⟨more, hmore⟩ := hdir seg
    rw [hmore, Option.map_eq_some_iff] at hfile
    obtain ⟨file₀, hfile₀, rfl⟩ := hfile
    exact ⟨file₀, hfile₀, by rw [List.length_append]; exact Nat.le_add_right _ _⟩
  refine ⟨⟨?_, hranged.upto_active, ?_, ?_⟩, rfl, fun loc _ => hdir loc.segment⟩
  · intro loc hloc file hfile
    obtain ⟨file₀, hfile₀, hle⟩ := hlonger _ _ hfile
    exact le_trans (hranged.in_file loc hloc file₀ hfile₀) hle
  · intro i w' hi file hfile
    obtain ⟨file₀, hfile₀, hle⟩ := hlonger _ _ hfile
    exact le_trans (hranged.active_len i w' hi file₀ hfile₀) hle
  · intro seg hseg
    obtain ⟨more, hmore⟩ := hdir seg
    dsimp only
    rw [hmore, hranged.fresh seg hseg, Option.map_none]

/-- A record that is written in full is indexed where it stands, or where the spool believes it to
stand: never beyond the end of the file. -/
theorem write_record_ranged {id w : ℕ} {frame : Frame} (hactive : spool.active = some (id, w))
    (hranged : spool.Ranged) (hsmall : ¬ U32_MAX < frame.body.payload_len) :
    ∃ spool', spool.write_record id w frame = (.ok (), spool') ∧ spool'.Ranged ∧
      spool'.cost = spool.cost + record_cost frame.body ∧
      spool'.active = some (id, w + (RECORD_HEADER_LEN + frame.body.payload_len)) := by
  have hlen := FrameBody.payload_length frame.body
  obtain ⟨hgrown, -⟩ := write_all_grown hranged id (encode_record frame)
  have hfile : ∀ file, write_all spool.dir id (encode_record frame) id = some file →
      w + (RECORD_HEADER_LEN + frame.body.payload_len) ≤ file.length := by
    intro file hfile
    rw [write_all, Function.update_self, Option.map_eq_some_iff] at hfile
    obtain ⟨file₀, hfile₀, rfl⟩ := hfile
    rw [List.length_append, encode_record_length]
    have := hranged.active_len id w hactive file₀ hfile₀
    omega
  refine ⟨_, by rw [write_record, hlen, if_neg hsmall], ⟨?_, ?_, ?_, ?_⟩, ?_, rfl⟩
  · intro loc hloc file hread
    rcases List.mem_append.1 hloc with hold | hnew
    · exact hgrown.in_file loc hold file hread
    · obtain rfl := List.mem_singleton.1 hnew
      exact hfile file hread
  · intro loc hloc
    rcases List.mem_append.1 hloc with hold | hnew
    · obtain ⟨i, w', hi, hle⟩ := hranged.upto_active loc hold
      rw [hactive, Option.some.injEq, Prod.mk.injEq] at hi
      exact ⟨id, _, rfl, by rw [hi.1]; exact hle⟩
    · obtain rfl := List.mem_singleton.1 hnew
      exact ⟨id, _, rfl, le_rfl⟩
  · rintro i w' ⟨⟩ file hread
    exact hfile file hread
  · intro seg hseg
    refine hgrown.fresh seg fun i w' hi => ?_
    rw [hactive, Option.some.injEq, Prod.mk.injEq] at hi
    rw [← hi.1]
    exact hseg id _ rfl
  · rw [cost, List.map_append, List.sum_append, cost, record_cost]
    rfl

/-- What one `append` asks of the disk. -/
structure Taken (io : RecordIo) (segment_bytes : ℕ) (written : Option ℕ) (frame : Frame) : Prop where
  opens : needs_new segment_bytes written = true → io.opens = none
  fits : frame.body.payload_len ≤ U32_MAX
  writes : io.writes = none

def written_after (segment_bytes : ℕ) (written : Option ℕ) (frame : Frame) : ℕ :=
  (if needs_new segment_bytes written then 0 else written.getD 0) + (RECORD_HEADER_LEN + frame.body.payload_len)

/-- **A record on a disk that may fail.** If the disk takes it, the spool is the one of a disk that does
not fail. If not, no reader sees a difference. -/
theorem append_io_cases (io : RecordIo) (segment_bytes : ℕ) (frame : Frame) (hranged : spool.Ranged) :
    (Taken io segment_bytes (spool.active.map Prod.snd) frame ∧ ∃ spool',
        spool.append_io io frame segment_bytes = (.ok (), spool') ∧ spool.append frame segment_bytes = (.ok (), spool') ∧
        spool'.Ranged ∧ spool'.cost = spool.cost + record_cost frame.body ∧
        spool'.active.map Prod.snd = some (written_after segment_bytes (spool.active.map Prod.snd) frame)) ∨
      ¬ Taken io segment_bytes (spool.active.map Prod.snd) frame ∧ ∃ e spool',
        spool.append_io io frame segment_bytes = (.error e, spool') ∧ spool'.Ranged ∧ Grown spool spool' := by
  rcases rotate_io_cases io segment_bytes hranged with
    ⟨hneeds, hopens, e, herror⟩ | ⟨hopens, rotated, id, w, hio, hplain, hactive, hw, hranged', hgrown⟩
  · refine .inr ⟨fun htaken => hopens (htaken.opens hneeds), e, spool, ?_, hranged, .refl spool⟩
    rw [append_io, herror]
  · have hlen := FrameBody.payload_length frame.body
    by_cases hbig : U32_MAX < frame.body.payload_len
    · refine .inr ⟨fun htaken => absurd htaken.fits (Nat.not_le.2 hbig),
        .spool_io "encode record (payload too large)" "frame > 4GiB", rotated, ?_, hranged', hgrown⟩
      rw [append_io, hio]
      simp only [hactive, write_record_io, hlen, if_pos hbig]
    · cases hwrites : io.writes with
      | some failure =>
        obtain ⟨n, source⟩ := failure
        obtain ⟨hranged'', hgrown'⟩ := write_all_grown hranged' id ((encode_record frame).take n)
        refine .inr ⟨fun htaken => ?_, .spool_io "append record" source, _, ?_, hranged'', hgrown.trans hgrown'⟩
        · rw [htaken.writes] at hwrites
          cases hwrites
        · rw [append_io, hio]
          simp only [hactive, write_record_io, hlen, if_neg hbig, hwrites]
      | none =>
        obtain ⟨spool', hwrite, hranged'', hcost, hact⟩ := write_record_ranged hactive hranged' hbig
        refine .inl ⟨⟨hopens, Nat.not_lt.1 hbig, hwrites⟩, spool', ?_, ?_, hranged'', ?_, ?_⟩
        · rw [append_io, hio]
          simp only [hactive, write_record_io, hlen, if_neg hbig, hwrites, hwrite]
        · rw [append, hplain]
          simp only [hactive, hwrite]
        · rw [hcost, cost, hgrown.index, cost]
        · rw [hact, Option.map_some, written_after, ← hw]

/-- The disk takes the records of a migration, from the `i`-th on. -/
def Migrates (records : ℕ → RecordIo) (segment_bytes : ℕ) : ℕ → Option ℕ → List Frame → Prop
  | _, _, [] => True
  | i, written, frame :: frames =>
    Taken (records i) segment_bytes written frame ∧
      Migrates records segment_bytes (i + 1) (some (written_after segment_bytes written frame)) frames

theorem append_all_io_cases (records : ℕ → RecordIo) (segment_bytes : ℕ) :
    ∀ (frames : List Frame) (i : ℕ) (spool : Spool), spool.Ranged →
      (Migrates records segment_bytes i (spool.active.map Prod.snd) frames ∧ ∃ spool',
          append_all_io records segment_bytes i spool frames = (.ok (), spool') ∧
          append_all segment_bytes spool frames = (.ok (), spool') ∧ spool'.Ranged ∧
          spool'.cost = spool.cost + (frames.map fun f => record_cost f.body).sum) ∨
        ¬ Migrates records segment_bytes i (spool.active.map Prod.snd) frames ∧ ∃ e spool',
          append_all_io records segment_bytes i spool frames = (.error e, spool') := by
  intro frames
  induction frames with
  | nil => exact fun i spool hranged => .inl ⟨trivial, spool, rfl, rfl, hranged, rfl⟩
  | cons frame frames ih =>
    intro i spool hranged
    rcases append_io_cases (records i) segment_bytes frame hranged with
      ⟨htaken, next, hio, hplain, hranged', hcost, hactive⟩ | ⟨htaken, e, next, hio, -⟩
    · rcases ih (i + 1) next hranged' with ⟨hrest, spool', hall, hplain', hranged'', hcost'⟩ | ⟨hrest, e, spool', hall⟩
      · rw [hactive] at hrest
        refine .inl ⟨⟨htaken, hrest⟩, spool', ?_, ?_, hranged'', ?_⟩
        · rw [append_all_io, hio]
          exact hall
        · rw [append_all, hplain]
          exact hplain'
        · rw [hcost', hcost, List.map_cons, List.sum_cons, Nat.add_assoc]
      · rw [hactive] at hrest
        refine .inr ⟨fun hmigrates => hrest hmigrates.2, e, spool', ?_⟩
        rw [append_all_io, hio]
        exact hall
    · refine .inr ⟨fun hmigrates => htaken hmigrates.1, e, next, ?_⟩
      rw [append_all_io, hio]

theorem Migrates.fits {records : ℕ → RecordIo} {segment_bytes : ℕ} :
    ∀ {frames : List Frame} {i : ℕ} {written : Option ℕ}, Migrates records segment_bytes i written frames →
      ∀ f ∈ frames, f.body.payload_len ≤ U32_MAX
  | frame :: frames, i, written, h, f, hf => by
    rcases List.mem_cons.1 hf with rfl | hf
    · exact h.1.fits
    · exact Migrates.fits h.2 f hf

/-! ## Freeing -/

theorem free_loop_io_cases (unlink : ℕ → Bool) (active : Option (ℕ × ℕ)) (acked_seq : ℕ) :
    ∀ (index : List FrameLoc) (dir : Dir) (freed : ℕ), ∃ k dir',
      free_loop_io unlink active acked_seq dir freed index =
        (freed + ((index.take k).map fun loc => loc.payload_len + RECORD_OVERHEAD_BYTES).sum, dir', index.drop k) ∧
      ∀ seg, dir' seg = dir seg ∨ dir' seg = none := by
  intro index
  induction index with
  | nil => exact fun dir freed => ⟨0, dir, rfl, fun _ => .inl rfl⟩
  | cons front rest ih =>
    intro dir freed
    by_cases hstop : acked_seq < front.seq
    · exact ⟨0, dir, by rw [free_loop_io, if_pos hstop]; rfl, fun _ => .inl rfl⟩
    · obtain ⟨k, dir', hloop, hdir⟩ := ih (if !(rest.head?.any fun next => next.segment == front.segment) &&
            !(active.any fun a => a.1 == front.segment) && unlink front.segment then
          Function.update dir front.segment none
        else dir) (freed + (front.payload_len + RECORD_OVERHEAD_BYTES))
      refine ⟨k + 1, dir', ?_, fun seg => ?_⟩
      · rw [free_loop_io, if_neg hstop]
        simp only [hloop, List.take_succ_cons, List.drop_succ_cons, List.map_cons, List.sum_cons, Nat.add_assoc]
      · rcases hdir seg with hsame | hgone
        · rw [hsame]
          split_ifs
          · by_cases hseg : seg = front.segment
            · exact .inr (by rw [hseg, Function.update_self])
            · exact .inl (Function.update_of_ne hseg _ _)
          · exact .inl rfl
        · exact .inr hgone

/-- **Freeing** refunds what was charged for the entries it drops. -/
theorem free_through_io_cases (unlink : ℕ → Bool) (acked_seq : ℕ) (hranged : spool.Ranged) :
    ∃ freed spool', spool.free_through_io unlink acked_seq = (freed, spool') ∧ spool'.Ranged ∧
      freed + spool'.cost = spool.cost := by
  obtain ⟨k, dir', hloop, hdir⟩ := free_loop_io_cases unlink spool.active acked_seq spool.index spool.dir 0
  refine ⟨_, ⟨dir', spool.active, spool.index.drop k⟩, by rw [free_through_io, hloop], ⟨?_, ?_, ?_, ?_⟩, ?_⟩
  · intro loc hloc file hfile
    rcases hdir loc.segment with hsame | hgone
    · exact hranged.in_file loc (List.mem_of_mem_drop hloc) file (hsame ▸ hfile)
    · dsimp only at hfile
      rw [hgone] at hfile
      cases hfile
  · exact fun loc hloc => hranged.upto_active loc (List.mem_of_mem_drop hloc)
  · intro id w hactive file hfile
    rcases hdir id with hsame | hgone
    · exact hranged.active_len id w hactive file (hsame ▸ hfile)
    · dsimp only at hfile
      rw [hgone] at hfile
      cases hfile
  · intro seg hseg
    rcases hdir seg with hsame | hgone
    · exact hsame.trans (hranged.fresh seg hseg)
    · exact hgone
  · rw [Nat.zero_add, cost, cost, ← List.sum_append, ← List.map_append, List.take_append_drop]

end Spool

/-! ## The log -/

def frames_cost (frames : List Frame) : ℕ := (frames.map fun f => record_cost f.body).sum

namespace RetentionLog

def Intact (log : RetentionLog) : Prop := match log.mode with
  | .memory frames =>
    log.spool_dir_pending = some (fun _ => none) ∧ frames_cost frames = log.retained_bytes ∧
      ∀ f ∈ frames, f.seq < log.next_seq
  | .spooled spool => log.spool_dir_pending = none ∧ spool.cost = log.retained_bytes ∧ spool.Ranged

/-- A log whose migration failed: in memory, charged for more than it has, with no directory to spill to. -/
def Broken (log : RetentionLog) : Prop :=
  ∃ frames, log.mode = .memory frames ∧ log.spool_dir_pending = none ∧ frames_cost frames ≤ log.retained_bytes ∧
    log.config.spool_max_bytes ≠ 0

def Settled (log : RetentionLog) : Prop :=
  log.Intact ∧ (log.config.spool_max_bytes = 0 ∨ ∃ spool, log.mode = .spooled spool)

/-- The disk takes all that an `append` migrates. -/
def TakesMigration (log : RetentionLog) (io : AppendIo) : Prop := match log.mode with
  | .memory frames =>
    io.create_dir = none ∧ Spool.Migrates io.migrated log.config.spool_segment_bytes 0 none frames
  | .spooled _ => True

/-- An `append` of the body migrates the frames from memory. -/
def Spills (log : RetentionLog) (body : FrameBody) : Prop :=
  log.over_caps (record_cost body) = true ∧ log.config.spool_max_bytes ≠ 0

structure Unchanged (log log' : RetentionLog) : Prop where
  floor : log'.floor = log.floor
  high_seq : log'.high_seq = log.high_seq
  retained_bytes : log'.retained_bytes = log.retained_bytes
  replay : ∀ max_bytes, log'.replay_bounded log'.floor max_bytes = log.replay_bounded log.floor max_bytes

/-- No call panics, whatever is called and however the disk answers. -/
def NeverPanics (log : RetentionLog) : Prop :=
  ∀ ops log', Run FaultStep log ops log' → ∀ op, (log'.perform op).isSome

theorem new_intact (config : RetentionConfig) : (new config fun _ => none).Intact :=
  ⟨rfl, rfl, List.forall_mem_nil _⟩

section

variable {log log' : RetentionLog} {io : AppendIo} {body : FrameBody}

/-! ## `append` -/

theorem spill_to_spool_io_taken (hintact : log.Intact) (hover : log.over_caps (record_cost body) = true)
    (htaken : log.TakesMigration io) (hseq : log.next_seq ≤ 2 ^ 64) :
    ∃ spool, log.spill_to_spool_io io = some (.ok (), { log with mode := .spooled spool, spool_dir_pending := none }) ∧
      spool.cost = log.retained_bytes ∧ spool.Ranged ∧ ∀ max_bytes,
      spool.read_from log.floor max_bytes = log.replay_bounded log.floor max_bytes := by
  obtain ⟨config, mode, next_seq, floor, retained_bytes, pending⟩ := log
  cases mode with
  | spooled spool => cases hover
  | memory frames =>
    obtain ⟨hpending, hcost, hnumbers⟩ := hintact
    obtain ⟨hcreate, hmigrates⟩ := htaken
    dsimp only at hpending hcost hnumbers hcreate hmigrates hseq
    have hfits : ∀ f ∈ frames, f.Fits := fun f hf =>
      ⟨lt_of_lt_of_le (hnumbers f hf) hseq, hmigrates.fits f hf⟩
    rcases Spool.append_all_io_cases io.migrated config.spool_segment_bytes frames 0
      (Spool.create fun _ => none) Spool.create_ranged with ⟨-, spool, hio, hplain, hranged, hspool⟩ | ⟨hnot, -⟩
    · obtain ⟨spool', hplain', hholds⟩ :=
        append_all_holds config.spool_segment_bytes frames (Spool.create fun _ => none) [] Spool.create_holds hfits
      rw [hplain, Prod.mk.injEq] at hplain'
      obtain ⟨-, rfl⟩ := hplain'
      refine ⟨spool, ?_, ?_, hranged, fun max_bytes => ?_⟩
      · simp only [spill_to_spool_io, hpending, hcreate, hio]
      · rw [hspool, ← hcost]
        exact Nat.zero_add _
      · have hlocated : List.Forall₂ (Spool.Located spool.dir)
            (spool.index.filter fun l => decide (floor < l.seq)) (frames.filter fun f => decide (floor < f.seq)) := by
          refine List.rel_filter (fun {loc f} hloc => ?_) hholds.located
          simp only [hloc.seq]
        rw [Spool.read_from, Spool.read_loop_located hlocated (fun f hf => hfits f (List.mem_of_mem_filter hf)) none 0
          (by simp), replay_bounded, if_neg (Nat.lt_irrefl _)]
    · exact absurd hmigrates hnot

theorem spill_to_spool_io_refused (hintact : log.Intact) (hover : log.over_caps (record_cost body) = true)
    (hspool : log.config.spool_max_bytes ≠ 0) (htaken : ¬ log.TakesMigration io) :
    ∃ e log', log.spill_to_spool_io io = some (.error e, log') ∧ log'.Broken := by
  obtain ⟨config, mode, next_seq, floor, retained_bytes, pending⟩ := log
  cases mode with
  | spooled spool => cases hover
  | memory frames =>
    obtain ⟨hpending, hcost, -⟩ := hintact
    dsimp only at hpending hcost
    cases hcreate : io.create_dir with
    | some source =>
      refine ⟨.spool_io "create spool dir" source, ⟨config, .memory frames, next_seq, floor, retained_bytes, none⟩, ?_,
        frames, rfl, rfl, hcost.le, hspool⟩
      simp only [spill_to_spool_io, hpending, hcreate]
    | none =>
      rcases Spool.append_all_io_cases io.migrated config.spool_segment_bytes frames 0
        (Spool.create fun _ => none) Spool.create_ranged with ⟨hmigrates, -⟩ | ⟨-, e, spool, hio⟩
      · exact absurd ⟨hcreate, hmigrates⟩ htaken
      · refine ⟨e, ⟨config, .memory [], next_seq, floor, retained_bytes, none⟩, ?_, [], rfl, rfl, Nat.zero_le _,
          hspool⟩
        simp only [spill_to_spool_io, hpending, hcreate, hio]

theorem store_io_memory {frames : List Frame} (record : RecordIo) (hmode : log.mode = .memory frames) :
    log.store_io record log.next_seq (record_cost body) body = (.ok log.next_seq, { log with
          mode := .memory (frames ++ [⟨log.next_seq, body⟩]), next_seq := log.next_seq + 1,
          retained_bytes := log.retained_bytes + record_cost body }) := by
  simp only [store_io, hmode]

theorem store_io_spooled (log : RetentionLog) (body : FrameBody) {spool : Spool} (record : RecordIo) (seq : ℕ)
    (hmode : log.mode = .spooled spool) (hranged : spool.Ranged) :
    (∃ spool', log.store_io record seq (record_cost body) body = (.ok seq, { log with
            mode := .spooled spool', next_seq := log.next_seq + 1,
            retained_bytes := log.retained_bytes + record_cost body }) ∧
        spool'.Ranged ∧ spool'.cost = spool.cost + record_cost body) ∨
      ∃ e spool', log.store_io record seq (record_cost body) body = (.error e, { log with mode := .spooled spool' }) ∧
        spool'.Ranged ∧ Spool.Grown spool spool' := by
  by_cases hquota : log.config.spool_max_bytes < log.retained_bytes + record_cost body
  · refine .inr ⟨.overflow (log.retained_bytes + record_cost body) log.config.memory_max_bytes log.config.spool_max_bytes,
      spool, ?_, hranged, .refl spool⟩
    simp only [store_io, hmode, if_pos hquota]
    rw [← hmode]
  · rcases Spool.append_io_cases record log.config.spool_segment_bytes ⟨seq, body⟩ hranged with
      ⟨-, spool', hio, -, hranged', hcost, -⟩ | ⟨-, e, spool', hio, hranged', hgrown⟩
    · refine .inl ⟨spool', ?_, hranged', hcost⟩
      simp only [store_io, hmode, if_neg hquota, hio]
    · refine .inr ⟨e, spool', ?_, hranged', hgrown⟩
      simp only [store_io, hmode, if_neg hquota, hio]

theorem replay_bounded_grown {spool spool' : Spool} (hmode : log.mode = .spooled spool) (hmode' : log'.mode = .spooled spool')
    (hfloor : log'.floor = log.floor) (hranged : spool.Ranged) (hgrown : Spool.Grown spool spool') (max_bytes : ℕ) :
    log'.replay_bounded log'.floor max_bytes = log.replay_bounded log.floor max_bytes := by
  simp only [replay_bounded, hmode, hmode', hfloor, Spool.read_from_grown hranged hgrown]

theorem Unchanged.trans {log₁ log₂ log₃ : RetentionLog} (h : Unchanged log₁ log₂) (h' : Unchanged log₂ log₃) :
    Unchanged log₁ log₃ where
  floor := h'.floor.trans h.floor
  high_seq := h'.high_seq.trans h.high_seq
  retained_bytes := h'.retained_bytes.trans h.retained_bytes
  replay := fun max_bytes => (h'.replay max_bytes).trans (h.replay max_bytes)

theorem Intact.store_io_cases (h : log.Intact) (record : RecordIo) (body : FrameBody) :
    (∃ log', log.store_io record log.next_seq (record_cost body) body = (.ok log.next_seq, log') ∧ log'.Intact ∧
        (log.Settled → log'.Settled)) ∨
      ∃ e log', log.store_io record log.next_seq (record_cost body) body = (.error e, log') ∧ Unchanged log log' ∧
        log'.Settled := by
  obtain ⟨config, mode, next_seq, floor, retained_bytes, pending⟩ := log
  cases mode with
  | memory frames =>
    obtain ⟨hpending, hcost, hnumbers⟩ := h
    dsimp only at hpending hcost hnumbers
    have hintact : Intact ⟨config, .memory (frames ++ [⟨next_seq, body⟩]), next_seq + 1, floor,
        retained_bytes + record_cost body, pending⟩ := by
      refine ⟨hpending, ?_, fun f hf => ?_⟩
      · simp only [frames_cost, List.map_append, List.sum_append, List.map_cons, List.map_nil, List.sum_cons, List.sum_nil,
          Nat.add_zero]
        rw [← hcost, frames_cost]
      · rcases List.mem_append.1 hf with hold | hnew
        · exact Nat.lt_succ_of_lt (hnumbers f hold)
        · rw [List.mem_singleton.1 hnew]
          exact Nat.lt_succ_self _
    refine .inl ⟨_, rfl, hintact, fun hsettled => ⟨hintact, ?_⟩⟩
    rcases hsettled.2 with hzero | ⟨spool, hmode⟩
    · exact .inl hzero
    · cases hmode
  | spooled spool =>
    obtain ⟨hpending, hcost, hranged⟩ := h
    rcases store_io_spooled ⟨config, .spooled spool, next_seq, floor, retained_bytes, pending⟩ body record next_seq rfl
      hranged with ⟨spool', hstore, hranged', hcost'⟩ | ⟨e, spool', hstore, hranged', hgrown⟩
    · have hintact : Intact ⟨config, .spooled spool', next_seq + 1, floor, retained_bytes + record_cost body, pending⟩ :=
        ⟨hpending, by rw [hcost', hcost], hranged'⟩
      exact .inl ⟨_, hstore, hintact, fun _ => ⟨hintact, .inr ⟨spool', rfl⟩⟩⟩
    · have hcost' : spool'.cost = spool.cost := by rw [Spool.cost, Spool.cost, hgrown.index]
      refine .inr ⟨e, _, hstore, ⟨rfl, rfl, rfl, ?_⟩, ⟨hpending, hcost'.trans hcost, hranged'⟩, .inr ⟨spool', rfl⟩⟩
      exact replay_bounded_grown rfl rfl rfl hranged hgrown

/-- **What an `append` to an intact log does**: it stores the frame; or it fails and changes nothing; or
the disk refuses the migration and the log is broken. -/
theorem Intact.append_io_cases (h : log.Intact) (hseq : log.next_seq ≤ 2 ^ 64) (io : AppendIo) (body : FrameBody) :
    (∃ log', log.append_io io body = some (.ok log.next_seq, log') ∧ log'.Intact ∧ (log.Settled → log'.Settled)) ∨
      (∃ e log', log.append_io io body = some (.error e, log') ∧ Unchanged log log' ∧ log'.Settled ∧
        ¬ (log.Spills body ∧ ¬ log.TakesMigration io)) ∨
      ∃ e log', log.append_io io body = some (.error e, log') ∧ log'.Broken ∧ log.Spills body ∧
        ¬ log.TakesMigration io := by
  by_cases hover : log.over_caps (record_cost body) = true
  · by_cases hzero : log.config.spool_max_bytes = 0
    · refine .inr (.inl ⟨.overflow (log.retained_bytes + record_cost body) log.config.memory_max_bytes
        log.config.spool_max_bytes, log, ?_, ⟨rfl, rfl, rfl, fun _ => rfl⟩, ⟨h, .inl hzero⟩, fun hkeep => hkeep.1.2 hzero⟩)
      simp only [append_io, make_room_io, if_pos hover, if_pos hzero]
    · by_cases htaken : log.TakesMigration io
      · obtain ⟨spool, hspill, hcost, hranged, hreplay⟩ := spill_to_spool_io_taken h hover htaken hseq
        set spilled : RetentionLog := { log with mode := .spooled spool, spool_dir_pending := none } with hspilled
        have hintact : spilled.Intact := ⟨rfl, hcost, hranged⟩
        have hunchanged : Unchanged log spilled :=
          ⟨rfl, rfl, rfl, fun max_bytes => (if_neg (Nat.lt_irrefl _)).trans (hreplay max_bytes)⟩
        have happend : log.append_io io body =
            some (spilled.store_io io.appended spilled.next_seq (record_cost body) body) := by
          simp only [append_io, make_room_io, if_pos hover, if_neg hzero, hspill]
          rfl
        rcases hintact.store_io_cases io.appended body with
          ⟨log', hstore, hintact', hsettled⟩ | ⟨e, log', hstore, hunchanged', hsettled⟩
        · exact .inl ⟨log', by rw [happend, hstore], hintact', fun _ => hsettled ⟨hintact, .inr ⟨spool, rfl⟩⟩⟩
        · exact .inr (.inl ⟨e, log', by rw [happend, hstore], hunchanged.trans hunchanged', hsettled,
            fun hkeep => hkeep.2 htaken⟩)
      · obtain ⟨e, log', hspill, hbroken⟩ := spill_to_spool_io_refused h hover hzero htaken
        refine .inr (.inr ⟨e, log', ?_, hbroken, ⟨hover, hzero⟩, htaken⟩)
        simp only [append_io, make_room_io, if_pos hover, if_neg hzero, hspill]
  · have happend : log.append_io io body =
        some (log.store_io io.appended log.next_seq (record_cost body) body) := by
      simp only [append_io, make_room_io, if_neg hover]
    rcases h.store_io_cases io.appended body with
      ⟨log', hstore, hintact, hsettled⟩ | ⟨e, log', hstore, hunchanged, hsettled⟩
    · exact .inl ⟨log', by rw [happend, hstore], hintact, hsettled⟩
    · exact .inr (.inl ⟨e, log', by rw [happend, hstore], hunchanged, hsettled, fun hkeep => hover hkeep.1.1⟩)

theorem Broken.append_io_cases (h : log.Broken) (io : AppendIo) (body : FrameBody) :
    (log.over_caps (record_cost body) = true ∧ log.append_io io body = none) ∨
      log.over_caps (record_cost body) ≠ true ∧
        ∃ log', log.append_io io body = some (.ok log.next_seq, log') ∧ log'.Broken := by
  obtain ⟨frames, hmode, hpending, hcost, hspool⟩ := h
  by_cases hover : log.over_caps (record_cost body) = true
  · refine .inl ⟨hover, ?_⟩
    simp only [append_io, make_room_io, if_pos hover, if_neg hspool, spill_to_spool_io, hpending]
  · have happend : log.append_io io body = some (log.store_io io.appended log.next_seq (record_cost body) body) := by
      simp only [append_io, make_room_io, if_neg hover]
    rw [store_io_memory io.appended hmode] at happend
    refine .inr ⟨hover, _, happend, frames ++ [⟨log.next_seq, body⟩], rfl, hpending, ?_, hspool⟩
    simp only [frames_cost, List.map_append, List.sum_append, List.map_cons, List.map_nil, List.sum_cons, List.sum_nil,
      Nat.add_zero]
    exact Nat.add_le_add_right hcost _

/-! ## `ack` -/

theorem ack_memory_cases (acked_seq : ℕ) : ∀ (frames : List Frame) (rest : ℕ), ∃ k,
      ack_memory acked_seq (frames_cost frames + rest) frames = some (frames_cost (frames.drop k) + rest, frames.drop k) := by
  intro frames
  induction frames with
  | nil => exact fun rest => ⟨0, rfl⟩
  | cons f frames ih =>
    intro rest
    by_cases hstop : acked_seq < f.seq
    · exact ⟨0, by rw [ack_memory, if_pos hstop, List.drop_zero]⟩
    · obtain ⟨k, hk⟩ := ih rest
      refine ⟨k + 1, ?_⟩
      have hsum : frames_cost (f :: frames) + rest = frames_cost frames + rest + record_cost f.body := by
        simp only [frames_cost, List.map_cons, List.sum_cons]
        omega
      rw [ack_memory, if_neg hstop, hsum, checked_sub_add, List.drop_succ_cons]
      exact hk

/-- **`ack`** never panics, and what the log is stays. -/
theorem ack_io_cases (unlink : ℕ → Bool) (acked_seq : ℕ) (h : log.Intact ∨ log.Broken) :
    ∃ log', log.ack_io unlink acked_seq = some log' ∧ (log.Intact → log'.Intact) ∧ (log.Broken → log'.Broken) ∧
      (log.Settled → log'.Settled) := by
  by_cases hbelow : acked_seq ≤ log.floor
  · exact ⟨log, by rw [ack_io, if_pos hbelow], id, id, id⟩
  · obtain ⟨config, mode, next_seq, floor, retained_bytes, pending⟩ := log
    cases mode with
    | memory frames =>
      obtain ⟨rest, hrest⟩ : ∃ rest, retained_bytes = frames_cost frames + rest := by
        rcases h with ⟨-, hcost, -⟩ | ⟨frames', hmode, -, hcost, -⟩
        · exact ⟨0, hcost.symm⟩
        · cases hmode
          exact ⟨retained_bytes - frames_cost frames, (Nat.add_sub_cancel' hcost).symm⟩
      obtain ⟨k, hack⟩ := ack_memory_cases (min acked_seq (next_seq - 1)) frames rest
      have hintact : Intact ⟨config, .memory frames, next_seq, floor, retained_bytes, pending⟩ →
          Intact ⟨config, .memory (frames.drop k), next_seq, min acked_seq (next_seq - 1), frames_cost (frames.drop k) + rest,
            pending⟩ := by
        rintro ⟨hpending, hcost, hnumbers⟩
        dsimp only at hcost
        exact ⟨hpending, by dsimp only; omega, fun f hf => hnumbers f (List.mem_of_mem_drop hf)⟩
      refine ⟨_, by rw [ack_io, if_neg hbelow]; simp only [hrest, hack], hintact, ?_, fun hsettled => ⟨hintact hsettled.1, ?_⟩⟩
      · rintro ⟨frames', hmode, hpending, -, hspool⟩
        exact ⟨frames.drop k, rfl, hpending, Nat.le_add_right _ _, hspool⟩
      · rcases hsettled.2 with hzero | ⟨spool, hmode⟩
        · exact .inl hzero
        · cases hmode
    | spooled spool =>
      have hintact : Intact ⟨config, .spooled spool, next_seq, floor, retained_bytes, pending⟩ := by
        rcases h with hintact | ⟨frames, hmode, -⟩
        · exact hintact
        · cases hmode
      obtain ⟨hpending, hcost, hranged⟩ := hintact
      dsimp only at hpending hcost
      obtain ⟨freed, spool', hfree, hranged', hsum⟩ :=
        Spool.free_through_io_cases unlink (min acked_seq (next_seq - 1)) hranged
      have hsub : checked_sub retained_bytes freed = some spool'.cost := by
        rw [← hcost, ← hsum, Nat.add_comm freed, checked_sub_add]
      have hafter : Intact ⟨config, .spooled spool', next_seq, min acked_seq (next_seq - 1), spool'.cost, pending⟩ :=
        ⟨hpending, rfl, hranged'⟩
      refine ⟨_, by rw [ack_io, if_neg hbelow]; simp only [hfree, hsub], fun _ => hafter, ?_, fun _ => ⟨hafter, .inr ⟨spool', rfl⟩⟩⟩
      rintro ⟨frames, hmode, -⟩
      cases hmode

end

/-! ## Runs -/

variable {log : RetentionLog}

theorem reachable_intact_or_broken {config : RetentionConfig} {ops : List LogOp}
    (h : Run FaultStep (new config fun _ => none) ops log) :
    (log.Intact ∨ log.Broken) ∧ log.next_seq ≤ 2 ^ 64 := by
  refine h.invariant (P := fun log => (log.Intact ∨ log.Broken) ∧ log.next_seq ≤ 2 ^ 64) ?_
    ⟨.inl (new_intact config), Nat.one_le_two_pow⟩
  rintro log op log' ⟨hperform, hseq'⟩ ⟨hsound, hseq⟩
  refine ⟨?_, hseq'⟩
  cases op with
  | append io body =>
    rw [perform, Option.map_eq_some_iff] at hperform
    obtain ⟨⟨r, found⟩, happend, rfl⟩ := hperform
    rcases hsound with hintact | hbroken
    · rcases hintact.append_io_cases hseq io body with
        ⟨log₁, heq, h₁, -⟩ | ⟨e, log₁, heq, -, hsettled, -⟩ | ⟨e, log₁, heq, h₁, -⟩
      · obtain ⟨-, rfl⟩ := Prod.mk.inj (Option.some.inj (happend.symm.trans heq))
        exact .inl h₁
      · obtain ⟨-, rfl⟩ := Prod.mk.inj (Option.some.inj (happend.symm.trans heq))
        exact .inl hsettled.1
      · obtain ⟨-, rfl⟩ := Prod.mk.inj (Option.some.inj (happend.symm.trans heq))
        exact .inr h₁
    · rcases hbroken.append_io_cases io body with ⟨-, heq⟩ | ⟨-, log₁, heq, h₁⟩
      · rw [heq] at happend
        cases happend
      · obtain ⟨-, rfl⟩ := Prod.mk.inj (Option.some.inj (happend.symm.trans heq))
        exact .inr h₁
  | ack unlink acked_seq =>
    obtain ⟨log₁, heq, hintact, hbroken, -⟩ := ack_io_cases unlink acked_seq hsound
    cases hperform.symm.trans heq
    exact hsound.imp hintact hbroken

theorem Settled.perform (h : log.Settled) (hseq : log.next_seq ≤ 2 ^ 64) (op : LogOp) :
    ∃ log', log.perform op = some log' ∧ log'.Settled := by
  cases op with
  | append io body =>
    rcases h.1.append_io_cases hseq io body with
      ⟨log', heq, -, hsettled⟩ | ⟨e, log', heq, -, hsettled, -⟩ | ⟨e, log', -, -, hspills, -⟩
    · exact ⟨log', by rw [RetentionLog.perform, heq, Option.map_some], hsettled h⟩
    · exact ⟨log', by rw [RetentionLog.perform, heq, Option.map_some], hsettled⟩
    · rcases h.2 with hzero | ⟨spool, hmode⟩
      · exact absurd hzero hspills.2
      · have hover := hspills.1
        simp only [over_caps, hmode] at hover
        cases hover
  | ack unlink acked_seq =>
    obtain ⟨log', heq, -, -, hsettled⟩ := ack_io_cases unlink acked_seq (.inl h.1)
    exact ⟨log', heq, hsettled h⟩

theorem Settled.neverPanics (h : log.Settled) (hseq : log.next_seq ≤ 2 ^ 64) : log.NeverPanics := by
  intro ops log' hrun op
  have hkept : log'.Settled ∧ log'.next_seq ≤ 2 ^ 64 := by
    refine hrun.invariant (P := fun log => log.Settled ∧ log.next_seq ≤ 2 ^ 64) ?_ ⟨h, hseq⟩
    rintro log₁ op₁ log₂ ⟨hperform, hseq₂⟩ ⟨hsettled, hseq₁⟩
    obtain ⟨log₃, heq, hsettled'⟩ := hsettled.perform hseq₁ op₁
    cases hperform.symm.trans heq
    exact ⟨hsettled', hseq₂⟩
  obtain ⟨log'', heq, -⟩ := hkept.1.perform hkept.2 op
  rw [heq]
  rfl

/-- A frame that does not fit in memory. -/
def tooMuch (log : RetentionLog) : FrameBody := .data .stdout (List.replicate log.config.memory_max_bytes 0)

theorem over_caps_tooMuch {frames : List Frame} (hmode : log.mode = .memory frames) :
    log.over_caps (record_cost log.tooMuch) = true := by
  have hbytes : log.config.memory_max_bytes < log.retained_bytes + record_cost log.tooMuch := by
    simp only [tooMuch, record_cost, FrameBody.payload_len, List.length_replicate, RECORD_OVERHEAD_BYTES]
    omega
  simp only [over_caps, hmode, decide_eq_true hbytes, Bool.true_or]

theorem Broken.panics (h : log.Broken) : ¬ log.NeverPanics := by
  intro hnever
  obtain ⟨frames, hmode, -⟩ := id h
  have hsome := hnever [] log (.nil log) (.append ⟨none, fun _ => ⟨none, none⟩, ⟨none, none⟩⟩ log.tooMuch)
  rcases h.append_io_cases ⟨none, fun _ => ⟨none, none⟩, ⟨none, none⟩⟩ log.tooMuch with ⟨-, heq⟩ | ⟨hfits, -⟩
  · rw [perform, heq] at hsome
    cases hsome
  · exact hfits (over_caps_tooMuch hmode)

/-- **A log is safe exactly once it is spooled**, or where there is no quota to spool: in every state, however
the disk has answered, only then no later call panics, however it will answer. -/
theorem never_panics_iff_spooled (config : RetentionConfig) (ops : List LogOp) :
    EachState FaultStep (fun log => log.NeverPanics ↔
      log.config.spool_max_bytes = 0 ∨ ∃ spool, log.mode = .spooled spool) (new config fun _ => none) ops := by
  intro ops₁ ops₂ log hops hrun
  obtain ⟨hsound, hseq⟩ := reachable_intact_or_broken hrun
  rcases hsound with hintact | hbroken
  · refine ⟨fun hnever => ?_, fun hspooled => Settled.neverPanics ⟨hintact, hspooled⟩ hseq⟩
    by_contra hmemory
    rw [not_or] at hmemory
    cases hmode : log.mode with
    | spooled spool => exact hmemory.2 ⟨spool, hmode⟩
    | memory frames =>
      -- the directory cannot be created for a frame that does not fit, and the log is broken
      have hintact' := hintact
      simp only [Intact, hmode] at hintact'
      obtain ⟨hpending, hcost, -⟩ := hintact'
      have hfails : log.perform (.append ⟨some "no space left on device", fun _ => ⟨none, none⟩, ⟨none, none⟩⟩
          log.tooMuch) = some { log with spool_dir_pending := none } := by
        simp only [perform, append_io, make_room_io, if_pos (over_caps_tooMuch hmode), if_neg hmemory.1,
          spill_to_spool_io, hmode, hpending, Option.map_some]
      have hbroken : Broken { log with spool_dir_pending := none } := ⟨frames, hmode, rfl, hcost.le, hmemory.1⟩
      exact hbroken.panics fun ops' log' hrun' => hnever _ log' (.cons ⟨hfails, hseq⟩ hrun')
  · refine iff_of_false hbroken.panics ?_
    obtain ⟨frames, hmode, -, -, hquota⟩ := hbroken
    rintro (hzero | ⟨spool, hspooled⟩)
    · exact hquota hzero
    · cases hmode.symm.trans hspooled

/-! ## The two ways to fail -/

end RetentionLog

end OpenGeni.Engine
