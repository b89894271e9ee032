/-
The disk spool of the retention log
(`opengeni-agent-engine/src/retention.rs`, the second half).

A spool is an append-only sequence of numbered segment files plus an in-memory
index from sequence number to file location. The op-private directory is a map
from segment number to file content, so the model reads back exactly the bytes it
wrote: every record is laid out as header and payload bytes and decoded from a
byte slice at the indexed offset. The file operations themselves succeed; the
failures kept are the ones the state decides (creating a segment that exists,
opening one that does not, a short read, a record that does not decode, a payload
whose length does not fit the header).

`Spool.Holds spool frames` says that the spool holds exactly `frames`. It is what
`create` establishes and what `append` and `free_through` maintain, and it is all
`read_from` needs.
-/
import OpenGeni.Engine.Frame
import OpenGeni.Lib.LittleEndian
import OpenGeni.Lib.Numbered

namespace OpenGeni.Engine

open OpenGeni.Lib

/-! ## Errors and constants -/

/-- `RetentionError`. The `source` of a spool failure is its rendered text. -/
inductive RetentionError
  | overflow (retained_bytes memory_max_bytes spool_max_bytes : ℕ)
  | spool_io (during source : String)
  | replay_below_floor (from_exclusive floor : ℕ)

/-- `RECORD_OVERHEAD_BYTES`: the flat per-frame cost charged to the ledger. -/
def RECORD_OVERHEAD_BYTES : ℕ := 64

/-- `RECORD_HEADER_LEN`: `[seq: u64 LE][kind: u8][payload_len: u32 LE]`. -/
def RECORD_HEADER_LEN : ℕ := 8 + 1 + 4

/-- `u32::MAX`, the largest payload length a record header can carry. -/
def U32_MAX : ℕ := 2 ^ 32 - 1

/-- `record_cost`: the ledger cost of one frame. -/
def record_cost (body : FrameBody) : ℕ := body.payload_len + RECORD_OVERHEAD_BYTES

/-! ## Records -/

/-- `RecordKind`: the kind byte of a record. -/
inductive RecordKind
  | stdout
  | stderr
  | content
  | progress
  | exit
deriving DecidableEq

namespace RecordKind

def to_byte : RecordKind → UInt8
  | .stdout => 0
  | .stderr => 1
  | .content => 2
  | .progress => 3
  | .exit => 4

def from_byte (b : UInt8) : Option RecordKind := if b = 0 then some .stdout
  else if b = 1 then some .stderr
  else if b = 2 then some .content
  else if b = 3 then some .progress
  else if b = 4 then some .exit
  else none

def of : FrameBody → RecordKind
  | .data .stdout _ => .stdout
  | .data .stderr _ => .stderr
  | .data .content _ => .content
  | .progress => .progress
  | .exit _ => .exit

theorem from_byte_to_byte (kind : RecordKind) : from_byte kind.to_byte = some kind := by
  cases kind <;> decide

/-- The body a kind and a payload stand for (the `match kind` of
`decode_record`). -/
def body (kind : RecordKind) (payload : List UInt8) : FrameBody := match kind with
  | .stdout => .data .stdout payload
  | .stderr => .data .stderr payload
  | .content => .data .content payload
  | .progress => .progress
  | .exit => .exit payload

theorem body_of (b : FrameBody) : (of b).body b.payload = b := by
  cases b with
  | data channel bytes => cases channel <;> rfl
  | progress | exit => rfl

end RecordKind

/-- `FrameLoc`: where one frame lives in the spool. -/
structure FrameLoc where
  seq : ℕ
  segment : ℕ
  offset : ℕ
  record_len : ℕ
  payload_len : ℕ
  kind : RecordKind

/-- The bytes `Spool::append` writes for a frame: header, then payload. -/
def encode_record (frame : Frame) : List UInt8 := toLE 8 frame.seq ++ (RecordKind.of frame.body).to_byte ::
    (toLE 4 frame.body.payload.length ++ frame.body.payload)

/-- `decode_record`: one spool record back into a frame, the header validated
against the index entry it was read for. -/
def decode_record (record : List UInt8) (loc : FrameLoc) : Except RetentionError Frame :=
  if record.length < RECORD_HEADER_LEN then
    .error (.spool_io "decode record" "short record")
  else
    let seq := ofLE (record.take 8)
    if seq ≠ loc.seq then
      .error (.spool_io "decode record" "seq mismatch between index and record")
    else
      match RecordKind.from_byte (record.getD 8 0) with
      | none => .error (.spool_io "decode record" "unknown record kind")
      | some kind =>
        if kind ≠ loc.kind then
          .error (.spool_io "decode record" "kind mismatch between index and record")
        else
          .ok ⟨seq, kind.body (record.drop RECORD_HEADER_LEN)⟩

/-- A frame whose number and payload length fit the fields of a record header:
`seq` is a `u64`, and `Spool::append` refuses a payload above `u32::MAX`. -/
def Frame.Fits (frame : Frame) : Prop := frame.seq < 2 ^ 64 ∧ frame.body.payload_len ≤ U32_MAX

instance (frame : Frame) : Decidable frame.Fits := inferInstanceAs (Decidable (_ ∧ _))

theorem encode_record_length (frame : Frame) :
    (encode_record frame).length = RECORD_HEADER_LEN + frame.body.payload_len := by
  simp only [encode_record, List.length_append, List.length_cons, toLE_length,
    FrameBody.payload_length, RECORD_HEADER_LEN]
  omega

/-- **The record round trip.** The bytes written for a frame decode, under the
index entry made for it, to that frame. -/
theorem decode_encode_record {frame : Frame} {loc : FrameLoc} (hfit : frame.Fits)
    (hseq : loc.seq = frame.seq) (hkind : loc.kind = RecordKind.of frame.body) :
    decode_record (encode_record frame) loc = .ok frame := by
  have hlong : ¬ (encode_record frame).length < RECORD_HEADER_LEN := by
    rw [encode_record_length]; omega
  have hread : ofLE ((encode_record frame).take 8) = frame.seq := by
    have htake : (encode_record frame).take 8 = toLE 8 frame.seq := by
      rw [encode_record, List.take_left' (toLE_length 8 _)]
    rw [htake, ofLE_toLE (by simpa using hfit.1)]
  have hbyte : (encode_record frame).getD 8 0 = (RecordKind.of frame.body).to_byte := by
    have h8 : 8 = (toLE 8 frame.seq).length := (toLE_length 8 _).symm
    rw [encode_record, List.getD_eq_getElem?_getD, List.getElem?_append_right (by rw [← h8])]
    simp
  have hpayload : (encode_record frame).drop RECORD_HEADER_LEN = frame.body.payload := by
    have hsplit : encode_record frame = (toLE 8 frame.seq ++ (RecordKind.of frame.body).to_byte ::
            toLE 4 frame.body.payload.length) ++ frame.body.payload := by
      simp only [encode_record, List.append_assoc, List.cons_append]
    rw [hsplit, List.drop_left']
    simp [RECORD_HEADER_LEN]
  simp only [decode_record, if_neg hlong, hread, hseq, ne_eq, not_true_eq_false, if_false, hbyte,
    RecordKind.from_byte_to_byte, hkind, hpayload, RecordKind.body_of]

/-! ## The spool -/

/-- The content of the op-private spool directory, by segment number
(`segment_path` names distinct files for distinct segments). -/
abbrev Dir := ℕ → Option (List UInt8)

/-- `Spool`. The open handle of the active segment is the file of that number;
its second component is the bytes written so far. -/
structure Spool where
  dir : Dir
  active : Option (ℕ × ℕ)
  index : List FrameLoc

namespace Spool

def create (dir : Dir) : Spool := { dir, active := none, index := [] }

/-- Opens segment `id` with `create_new(true)`. -/
def open_segment (spool : Spool) (id : ℕ) : Except RetentionError Spool := match spool.dir id with
  | some _ => .error (.spool_io "open segment" "file exists")
  | none =>
    .ok { spool with dir := Function.update spool.dir id (some []), active := some (id, 0) }

/-- The rotation at the head of `Spool::append`: a new segment when none is
active, or when the active one is past the rotation size. -/
def rotate (spool : Spool) (segment_bytes : ℕ) : Except RetentionError Spool := match spool.active with
  | none => spool.open_segment 0
  | some (id, written) =>
    if segment_bytes ≤ written then spool.open_segment (id + 1) else .ok spool

/-- `write_all` at the end of an open segment file. -/
def write_all (dir : Dir) (segment : ℕ) (bytes : List UInt8) : Dir :=
  Function.update dir segment ((dir segment).map (· ++ bytes))

/-- The second half of `Spool::append`: encode the record, write it to the active
segment and index it. -/
def write_record (spool : Spool) (segment written : ℕ) (frame : Frame) :
    Except RetentionError Unit × Spool :=
  if U32_MAX < frame.body.payload.length then
    (.error (.spool_io "encode record (payload too large)" "frame > 4GiB"), spool)
  else
    let record_len := RECORD_HEADER_LEN + frame.body.payload.length
    (.ok (),
      { dir := write_all spool.dir segment (encode_record frame), active := some (segment, written + record_len)
        index := spool.index ++
          [{ seq := frame.seq, segment := segment, offset := written, record_len := record_len,
             payload_len := frame.body.payload.length, kind := RecordKind.of frame.body }] })

def append (spool : Spool) (frame : Frame) (segment_bytes : ℕ) : Except RetentionError Unit × Spool :=
  match spool.rotate segment_bytes with
  | .error e => (.error e, spool)
  | .ok spool' =>
    match spool'.active with
    | some (segment, written) => spool'.write_record segment written frame
    -- `expect("active segment ensured above")`: `rotate` leaves one active.
    | none => (.ok (), spool')

/-- The loop of `Spool::free_through`: pop acked entries, and delete a segment
once no entry refers to it and it is not being appended to. -/
def free_loop (active : Option (ℕ × ℕ)) (acked_seq : ℕ) : Dir → ℕ → List FrameLoc → ℕ × Dir × List FrameLoc
  | dir, freed, [] => (freed, dir, [])
  | dir, freed, front :: rest =>
    if acked_seq < front.seq then (freed, dir, front :: rest)
    else
      let segment_still_referenced := rest.head?.any (fun next => next.segment == front.segment)
      let segment_is_active := active.any (fun a => a.1 == front.segment)
      let dir' := if !segment_still_referenced && !segment_is_active then
          Function.update dir front.segment none
        else dir
      free_loop active acked_seq dir' (freed + (front.payload_len + RECORD_OVERHEAD_BYTES)) rest

/-- `Spool::free_through`: the record cost freed, and the spool left. -/
def free_through (spool : Spool) (acked_seq : ℕ) : ℕ × Spool :=
  let r := free_loop spool.active acked_seq spool.dir 0 spool.index
  (r.1, { spool with dir := r.2.1, index := r.2.2 })

/-- Seek to the record of `loc` and `read_exact` it. -/
def read_record (file : List UInt8) (loc : FrameLoc) : Except RetentionError (List UInt8) :=
  let record := (file.drop loc.offset).take loc.record_len
  if record.length < loc.record_len then
    .error (.spool_io "read record" "failed to fill whole buffer")
  else .ok record

/-- The handle `read_from` keeps open: reopened only when the segment changes. -/
def open_for_replay (dir : Dir) (opened : Option (ℕ × List UInt8)) (segment : ℕ) :
    Except RetentionError (List UInt8) :=
  match opened with
  | some (seg, file) =>
    if seg ≠ segment then
      match dir segment with
      | some file' => .ok file'
      | none => .error (.spool_io "open segment for replay" "no such file")
    else .ok file
  | none =>
    match dir segment with
    | some file' => .ok file'
    | none => .error (.spool_io "open segment for replay" "no such file")

/-- The loop of `Spool::read_from` over the index entries past the start. -/
def read_loop (dir : Dir) (max_bytes : ℕ) :
    Option (ℕ × List UInt8) → ℕ → List FrameLoc → Except RetentionError (List Frame)
  | _, _, [] => .ok []
  | opened, budget, loc :: rest => do
    let file ← open_for_replay dir opened loc.segment
    let record ← read_record file loc
    let frame ← decode_record record loc
    if max_bytes ≤ budget + loc.payload_len then .ok [frame]
    else do
      let out ← read_loop dir max_bytes (some (loc.segment, file)) (budget + loc.payload_len) rest
      .ok (frame :: out)

def read_from (spool : Spool) (from_exclusive max_bytes : ℕ) : Except RetentionError (List Frame) :=
  read_loop spool.dir max_bytes none 0 (spool.index.filter (fun l => decide (from_exclusive < l.seq)))

def payload_bytes_in_range (spool : Spool) (from_exclusive to_inclusive : ℕ) : ℕ := ((spool.index.filter
      (fun l => decide (from_exclusive < l.seq ∧ l.seq ≤ to_inclusive))).map
    FrameLoc.payload_len).sum

/-! ## What a spool holds -/

/-- The index entry `loc` describes the frame `f`, and the bytes it points at are
`f`'s record. -/
structure Located (dir : Dir) (loc : FrameLoc) (f : Frame) : Prop where
  seq : loc.seq = f.seq
  kind : loc.kind = RecordKind.of f.body
  payload_len : loc.payload_len = f.body.payload_len
  record_len : loc.record_len = RECORD_HEADER_LEN + f.body.payload_len
  on_disk : ∃ file, dir loc.segment = some file ∧ (file.drop loc.offset).take loc.record_len = encode_record f

/-- **The spool invariant**: the index and the files hold exactly `frames`. -/
structure Holds (spool : Spool) (frames : List Frame) : Prop where
  located : List.Forall₂ (Located spool.dir) spool.index frames
  /-- Segments do not decrease along the index, so a segment's entries are
  contiguous: this is what makes deleting one behind the front safe. -/
  sorted : spool.index.Pairwise (fun a b => a.segment ≤ b.segment)
  upto_active : ∀ loc ∈ spool.index, ∃ id w, spool.active = some (id, w) ∧ loc.segment ≤ id
  /-- The active segment's file has the length the spool believes. -/
  active_len : ∀ id w, spool.active = some (id, w) → ∃ file, spool.dir id = some file ∧ file.length = w
  fresh : ∀ seg, (∀ id w, spool.active = some (id, w) → id < seg) → spool.dir seg = none

theorem create_holds : (create (fun _ => none)).Holds [] where
  located := .nil
  sorted := .nil
  upto_active := by intro loc hloc; exact absurd hloc (by simp [create])
  active_len := by intro id w h; exact absurd h (by simp [create])
  fresh := fun _ _ => rfl

variable {dir : Dir} {f frame : Frame} {spool : Spool} {frames : List Frame} {active : Option (ℕ × ℕ)}

theorem Located.grow {dir' : Dir} {loc : FrameLoc} (h : Located dir loc f)
    (hgrow : ∀ file, dir loc.segment = some file → ∃ more, dir' loc.segment = some (file ++ more)) :
    Located dir' loc f := by
  obtain ⟨file, hfile, hslice⟩ := h.on_disk
  obtain ⟨more, hmore⟩ := hgrow file hfile
  refine ⟨h.seq, h.kind, h.payload_len, h.record_len, file ++ more, hmore, ?_⟩
  -- The record has its full length in `file`, so what follows is not looked at.
  have hlen : loc.record_len ≤ (file.drop loc.offset).length := by
    have := congrArg List.length hslice
    rw [encode_record_length, ← h.record_len, List.length_take] at this
    omega
  have hoff : loc.offset ≤ file.length := by
    rw [List.length_drop] at hlen
    have hpos : 0 < loc.record_len := by rw [h.record_len, RECORD_HEADER_LEN]; omega
    omega
  rw [List.drop_append_of_le_length hoff, List.take_append_of_le_length hlen, hslice]

theorem open_segment_holds (id : ℕ) (h : spool.Holds frames) (hid : ∀ i w, spool.active = some (i, w) → i < id) :
    ∃ spool', spool.open_segment id = .ok spool' ∧ spool'.Holds frames ∧ spool'.active = some (id, 0) := by
  have hnone : spool.dir id = none := h.fresh id hid
  refine ⟨_, by rw [open_segment, hnone], ?_, rfl⟩
  refine ⟨?_, h.sorted, ?_, ?_, ?_⟩
  · refine h.located.imp fun loc f hloc => hloc.grow fun file hfile => ⟨[], ?_⟩
    have hne : loc.segment ≠ id := by rintro rfl; rw [hnone] at hfile; contradiction
    dsimp only
    rw [Function.update_of_ne hne, hfile, List.append_nil]
  · intro loc hloc
    obtain ⟨i, w, hact, hle⟩ := h.upto_active loc hloc
    exact ⟨id, 0, rfl, le_trans hle (le_of_lt (hid i w hact))⟩
  · rintro i w hact
    obtain ⟨rfl, rfl⟩ : id = i ∧ 0 = w := by simpa using hact
    exact ⟨[], Function.update_self _ _ _, rfl⟩
  · intro seg hseg
    have hlt : id < seg := hseg id 0 rfl
    dsimp only
    rw [Function.update_of_ne (Nat.ne_of_gt hlt)]
    exact h.fresh seg fun i w hact => lt_trans (hid i w hact) hlt

theorem rotate_holds (h : spool.Holds frames) (segment_bytes : ℕ) :
    ∃ spool' id w, spool.rotate segment_bytes = .ok spool' ∧ spool'.Holds frames ∧
      spool'.active = some (id, w) := by
  rw [rotate]
  cases hact : spool.active with
  | none =>
    obtain ⟨s, hs, hh, ha⟩ := open_segment_holds 0 h (by simp [hact])
    exact ⟨s, 0, 0, hs, hh, ha⟩
  | some a =>
    obtain ⟨id, w⟩ := a
    dsimp only
    by_cases hrot : segment_bytes ≤ w
    · rw [if_pos hrot]
      obtain ⟨s, hs, hh, ha⟩ := open_segment_holds (id + 1) h (by
        rintro i w' hi
        obtain ⟨rfl, -⟩ : id = i ∧ w = w' := by simpa [hact] using hi
        omega)
      exact ⟨s, id + 1, 0, hs, hh, ha⟩
    · rw [if_neg hrot]
      exact ⟨spool, id, w, rfl, h, hact⟩

theorem write_record_holds {id w : ℕ} (h : spool.Holds frames)
    (hact : spool.active = some (id, w)) (hfit : frame.Fits) :
    ∃ spool', spool.write_record id w frame = (.ok (), spool') ∧ spool'.Holds (frames ++ [frame]) := by
  obtain ⟨file, hfile, hlen⟩ := h.active_len id w hact
  have hsmall : ¬ U32_MAX < frame.body.payload.length := by
    rw [FrameBody.payload_length]; exact Nat.not_lt.2 hfit.2
  have hgrown : write_all spool.dir id (encode_record frame) id = some (file ++ encode_record frame) := by
    rw [write_all, Function.update_self, hfile]; rfl
  refine ⟨_, by rw [write_record, if_neg hsmall], ?_⟩
  refine ⟨?_, ?_, ?_, ?_, ?_⟩
  · have hold : List.Forall₂ (Located (write_all spool.dir id (encode_record frame))) spool.index frames := by
      refine h.located.imp fun loc f hloc => hloc.grow fun file' hfile' => ?_
      by_cases hseg : loc.segment = id
      · rw [hseg, hfile] at hfile'
        exact ⟨encode_record frame, by rw [hseg, hgrown, ← Option.some.inj hfile']⟩
      · exact ⟨[], by rw [write_all, Function.update_of_ne hseg, hfile', List.append_nil]⟩
    refine List.rel_append hold (.cons ?_ .nil)
    refine ⟨rfl, rfl, FrameBody.payload_length _, by rw [FrameBody.payload_length], _, hgrown, ?_⟩
    rw [← hlen, List.drop_left, List.take_of_length_le]
    rw [encode_record_length, FrameBody.payload_length]
  · rw [List.pairwise_append]
    refine ⟨h.sorted, List.pairwise_singleton _ _, ?_⟩
    intro loc hloc new hnew
    obtain ⟨i, w', hi, hle⟩ := h.upto_active loc hloc
    obtain ⟨rfl, -⟩ : id = i ∧ w = w' := by simpa [hact] using hi
    rw [List.mem_singleton.mp hnew]
    exact hle
  · intro loc hloc
    rcases List.mem_append.mp hloc with hold | hnew
    · obtain ⟨i, w', hi, hle⟩ := h.upto_active loc hold
      obtain ⟨rfl, -⟩ : id = i ∧ w = w' := by simpa [hact] using hi
      exact ⟨_, _, rfl, hle⟩
    · rw [List.mem_singleton.mp hnew]
      exact ⟨_, _, rfl, le_rfl⟩
  · rintro i w' hi
    obtain ⟨rfl, rfl⟩ : id = i ∧ w + (RECORD_HEADER_LEN + frame.body.payload.length) = w' := by
      simpa using hi
    refine ⟨_, hgrown, ?_⟩
    rw [List.length_append, encode_record_length, hlen, FrameBody.payload_length]
  · intro seg hseg
    have hlt : id < seg := hseg id _ rfl
    dsimp only
    rw [write_all, Function.update_of_ne (Nat.ne_of_gt hlt)]
    refine h.fresh seg fun i w' hi => ?_
    obtain ⟨rfl, -⟩ : id = i ∧ w = w' := by simpa [hact] using hi
    exact hlt

/-- **`append`**: a frame that fits a record header is appended to what the spool
holds, whatever the rotation size. -/
theorem append_holds (h : spool.Holds frames) (hfit : frame.Fits) (segment_bytes : ℕ) :
    ∃ spool', spool.append frame segment_bytes = (.ok (), spool') ∧ spool'.Holds (frames ++ [frame]) := by
  obtain ⟨s, id, w, hrot, hh, hact⟩ := rotate_holds h segment_bytes
  obtain ⟨s', hs', hh'⟩ := write_record_holds hh hact hfit
  exact ⟨s', by rw [append, hrot]; dsimp only; rw [hact]; exact hs', hh'⟩

theorem append_oversized (h : spool.Holds frames) (hbig : U32_MAX < frame.body.payload_len) (segment_bytes : ℕ) :
    ∃ spool', spool.append frame segment_bytes =
        (.error (.spool_io "encode record (payload too large)" "frame > 4GiB"), spool') ∧
      spool'.Holds frames := by
  obtain ⟨s, id, w, hrot, hh, hact⟩ := rotate_holds h segment_bytes
  refine ⟨s, ?_, hh⟩
  rw [append, hrot]
  dsimp only
  rw [hact]
  dsimp only
  rw [write_record, if_pos (by rwa [FrameBody.payload_length])]

/-! ## Freeing -/

/-- One pop of `free_through`: the rest is still held, whether or not the front's
segment is deleted. A deleted segment is neither the active one nor, by the order
of the index, the segment of any later entry. -/
theorem pop_holds {front : FrameLoc} {rest : List FrameLoc}
    (h : (⟨dir, active, front :: rest⟩ : Spool).Holds (f :: frames)) :
    (⟨if !(rest.head?.any fun next => next.segment == front.segment) &&
          !(active.any fun a => a.1 == front.segment) then
        Function.update dir front.segment none
      else dir, active, rest⟩ : Spool).Holds frames := by
  obtain ⟨hlocated, hsorted, hupto, hlen, hfresh⟩ := h
  obtain ⟨-, hrest⟩ := List.forall₂_cons.1 hlocated
  obtain ⟨hfront, hsorted'⟩ := List.pairwise_cons.1 hsorted
  have hupto' : ∀ loc ∈ rest, ∃ id w, active = some (id, w) ∧ loc.segment ≤ id :=
    fun loc hloc => hupto loc (List.mem_cons_of_mem _ hloc)
  split_ifs with hdel
  · rw [Bool.and_eq_true, Bool.not_eq_true', Bool.not_eq_true'] at hdel
    obtain ⟨hunref, hinactive⟩ := hdel
    -- Every later entry is in a later segment.
    have hlater : ∀ loc ∈ rest, loc.segment ≠ front.segment := by
      intro loc hloc heq
      cases rest with
      | nil => simp at hloc
      | cons next tail =>
        have hne : next.segment ≠ front.segment := by simpa using hunref
        have hle : next.segment ≤ loc.segment := by
          rcases List.mem_cons.mp hloc with hln | hlt
          · rw [hln]
          · exact (List.pairwise_cons.1 hsorted').1 loc hlt
        have hge := hfront next (by simp)
        omega
    have hnotactive : ∀ id w, active = some (id, w) → id ≠ front.segment := by
      rintro id w rfl
      simpa using hinactive
    refine ⟨?_, hsorted', hupto', ?_, ?_⟩
    · -- Deleting the front's segment moves no located record.
      clear hlocated hsorted hupto hfresh hlen hfront hsorted' hupto' hunref
      dsimp only at hrest ⊢
      induction hrest with
      | nil => exact .nil
      | @cons loc g locs gs hloc _ ih =>
        refine .cons (hloc.grow fun file hfile => ⟨[], ?_⟩) (ih fun l hl => hlater l (List.mem_cons_of_mem _ hl))
        rw [Function.update_of_ne (hlater loc (by simp)), hfile, List.append_nil]
    · intro id w hact
      obtain ⟨file, hfile, hfl⟩ := hlen id w hact
      exact ⟨file, by dsimp only; rw [Function.update_of_ne (hnotactive id w hact)]; exact hfile, hfl⟩
    · intro seg hseg
      dsimp only
      by_cases heq : seg = front.segment
      · rw [heq, Function.update_self]
      · rw [Function.update_of_ne heq]; exact hfresh seg hseg
  · exact ⟨hrest, hsorted', hupto', hlen, hfresh⟩

theorem free_loop_holds {acked_seq : ℕ} :
    ∀ (index : List FrameLoc) (frames : List Frame) (dir : Dir) (freed lo : ℕ),
      (⟨dir, active, index⟩ : Spool).Holds frames → Numbered Frame.seq lo frames →
      (free_loop active acked_seq dir freed index).1
          = freed + ((frames.take (acked_seq - lo)).map fun f => record_cost f.body).sum ∧
        (⟨(free_loop active acked_seq dir freed index).2.1, active,
            (free_loop active acked_seq dir freed index).2.2⟩ : Spool).Holds
          (frames.drop (acked_seq - lo)) := by
  intro index
  induction index with
  | nil =>
    intro frames dir freed lo h _
    have hnil : frames = [] := List.forall₂_nil_left_iff.1 h.located
    subst hnil
    simpa [free_loop] using h
  | cons front rest ih =>
    intro frames dir freed lo h hnum
    cases frames with
    | nil => exact absurd h.located (by simp)
    | cons f frames =>
      obtain ⟨hloc, -⟩ := List.forall₂_cons.1 h.located
      have hseq : front.seq = lo + 1 := by rw [hloc.seq]; exact hnum.1
      rw [free_loop]
      by_cases hstop : acked_seq < front.seq
      · rw [if_pos hstop, Nat.sub_eq_zero_of_le (by omega : acked_seq ≤ lo)]
        exact ⟨by simp, h⟩
      · rw [if_neg hstop]
        have hsub : acked_seq - lo = (acked_seq - (lo + 1)) + 1 := by omega
        obtain ⟨hfreed, hholds⟩ := ih frames _ (freed + (front.payload_len +
          RECORD_OVERHEAD_BYTES)) (lo + 1) (pop_holds h) hnum.2
        rw [hsub, List.take_succ_cons, List.drop_succ_cons, List.map_cons, List.sum_cons]
        refine ⟨?_, hholds⟩
        rw [hfreed, hloc.payload_len, record_cost, Nat.add_assoc]

/-- **`free_through`**: the frames numbered at most `acked_seq` are freed, their
record cost is returned, and the rest is still held. -/
theorem free_through_holds {lo : ℕ} (h : spool.Holds frames) (hnum : Numbered Frame.seq lo frames) (acked_seq : ℕ) :
    (spool.free_through acked_seq).1 = ((frames.take (acked_seq - lo)).map fun f => record_cost f.body).sum ∧
      (spool.free_through acked_seq).2.Holds (frames.drop (acked_seq - lo)) := by
  obtain ⟨hfreed, hholds⟩ := free_loop_holds spool.index frames spool.dir 0 lo h hnum
  exact ⟨by rw [free_through, hfreed, Nat.zero_add], hholds⟩

/-! ## Reading back -/

theorem open_for_replay_located {opened : Option (ℕ × List UInt8)} {segment : ℕ}
    {file : List UInt8} (hfile : dir segment = some file)
    (hopened : ∀ seg f, opened = some (seg, f) → dir seg = some f) :
    open_for_replay dir opened segment = .ok file := by
  cases opened with
  | none => simp only [open_for_replay, hfile]
  | some o =>
    obtain ⟨seg, f⟩ := o
    by_cases hseg : seg = segment
    · subst hseg
      have hf : dir seg = some f := hopened seg f rfl
      rw [hfile] at hf
      simp only [open_for_replay, ne_eq, not_true_eq_false, if_false, Option.some.inj hf]
    · simp only [open_for_replay, ne_eq, hseg, not_false_eq_true, if_true, hfile]

theorem read_loop_located {max_bytes : ℕ} {locs : List FrameLoc}
    (h : List.Forall₂ (Located dir) locs frames) (hfit : ∀ f ∈ frames, f.Fits) :
    ∀ (opened : Option (ℕ × List UInt8)) (budget : ℕ), (∀ seg f, opened = some (seg, f) → dir seg = some f) →
      read_loop dir max_bytes opened budget locs
        = .ok (readWithin (fun f => f.body.payload_len) max_bytes budget frames) := by
  induction h with
  | nil => intro opened budget _; rfl
  | @cons loc f locs frames hloc _ ih =>
    intro opened budget hopened
    obtain ⟨file, hfile, hslice⟩ := hloc.on_disk
    have hlen : ¬ (encode_record f).length < loc.record_len := by
      rw [encode_record_length, hloc.record_len]; omega
    have hread : read_record file loc = .ok (encode_record f) := by
      simp only [read_record, hslice, if_neg hlen]
    have hdecode : decode_record (encode_record f) loc = .ok f :=
      decode_encode_record (hfit f (by simp)) hloc.seq hloc.kind
    have hrest := ih (fun g hg => hfit g (List.mem_cons_of_mem _ hg))
      (some (loc.segment, file)) (budget + loc.payload_len) (by
        rintro seg g hg
        obtain ⟨rfl, rfl⟩ : loc.segment = seg ∧ file = g := by simpa using hg
        exact hfile)
    rw [hloc.payload_len] at hrest
    rw [read_loop, readWithin, open_for_replay_located hfile hopened]
    simp only [bind, Except.bind, hread, hdecode, hloc.payload_len, hrest]
    split_ifs <;> rfl

/-- **`read_from`**: the frames above `from_exclusive`, decoded from disk, within
the budget. -/
theorem read_from_holds {lo : ℕ} (h : spool.Holds frames) (hnum : Numbered Frame.seq lo frames)
    (hfit : ∀ f ∈ frames, f.Fits) (from_exclusive max_bytes : ℕ) :
    spool.read_from from_exclusive max_bytes = .ok (readWithin (fun f => f.body.payload_len) max_bytes 0
          (frames.drop (from_exclusive - lo))) := by
  have hfilter : List.Forall₂ (Located spool.dir) (spool.index.filter fun l => decide (from_exclusive < l.seq))
      (frames.filter fun f => decide (from_exclusive < f.seq)) := by
    refine List.rel_filter (fun {loc f} hloc => ?_) h.located
    simp only [hloc.seq]
  rw [read_from, read_loop_located hfilter (fun f hf => hfit f (List.mem_of_mem_filter hf)) none 0
    (by simp), hnum.filter_gt]

theorem payload_lens_located {locs : List FrameLoc} (h : List.Forall₂ (Located dir) locs frames) :
    locs.map FrameLoc.payload_len = frames.map fun f => f.body.payload_len := by
  induction h with
  | nil => rfl
  | cons hloc _ ih => rw [List.map_cons, List.map_cons, hloc.payload_len, ih]

/-- **`payload_bytes_in_range`**: the payload of the held frames numbered in
`(from_exclusive, to_inclusive]`. -/
theorem payload_bytes_in_range_holds (h : spool.Holds frames) (from_exclusive to_inclusive : ℕ) :
    spool.payload_bytes_in_range from_exclusive to_inclusive
      = ((frames.filter fun f => decide (from_exclusive < f.seq ∧ f.seq ≤ to_inclusive)).map
          fun f => f.body.payload_len).sum := by
  have hfilter : List.Forall₂ (Located spool.dir)
      (spool.index.filter fun l => decide (from_exclusive < l.seq ∧ l.seq ≤ to_inclusive))
      (frames.filter fun f => decide (from_exclusive < f.seq ∧ f.seq ≤ to_inclusive)) := by
    refine List.rel_filter (fun {loc f} hloc => ?_) h.located
    simp only [hloc.seq]
  rw [payload_bytes_in_range, payload_lens_located hfilter]

end Spool

end OpenGeni.Engine
