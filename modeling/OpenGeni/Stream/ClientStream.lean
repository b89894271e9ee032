/-
The event stream of the SDK
(`packages/sdk/src/stream.ts`, `streamSessionEvents`).

The generator keeps one cursor over all its connections. An event at or below the cursor is
dropped, and a gap is backfilled page by page before the event is yielded. A page that does not go
on with the next sequence ends the generator with an error. So what it yields is contiguous, over
connections that break at any point (`yields_are_contiguous_iff`). Sequences are numbers: the one
thing that the generator does not look for is a number between two sequences.

The delays between two attempts and the callbacks of the state are left out.
-/
import OpenGeni.Lib.Run

namespace OpenGeni.Stream

open OpenGeni.Lib

/-! ## Messages -/

/-- The data of a message, as `JSON.parse` reads it. -/
inductive MessageData
  | notJson
  /-- `null`, a text, a number and so on. -/
  | notObject
  /-- An object, with the fields that are of the right type. -/
  | object (sequence : Option ℚ) (type id : Option String)

def parseSessionEvent : MessageData → Option ℚ
  | .object (some sequence) (some _) (some _) => some sequence
  | _ => none

inductive StreamFailure
  | abortError
  /-- A `TypeError`, or a status that is worth another attempt. -/
  | retryable
  /-- Any other error, an `OpenGeniStreamError` among them. -/
  | permanent
deriving DecidableEq

/-! ## The generator -/

structure StreamOptions where
  reconnect : Bool
  maxReconnectAttempts : Option ℕ

/-- A backfill: its own cursor, its end, and the event behind it. -/
structure Backfill where
  cursor : ℚ
  toInclusive : ℚ
  sequence : ℚ

inductive StreamPhase
  | loop
  | opening
  | reading
  | listing (b : Backfill)
  /-- An event of a page was yielded, with those behind it. -/
  | yielded (b : Backfill) (rest : List ℚ)
  | sleeping
  | returned
  | thrown

structure ClientStream where
  after : ℕ
  cursor : ℚ
  cursorAtOpen : ℚ
  failedAttempts : ℕ
  aborted : Bool
  phase : StreamPhase
  events : List ℚ

inductive TransportEvent
  | abort
  /-- The generator goes on by itself: it is resumed, or its delay is over. -/
  | resume
  | opened
  | message (data : MessageData)
  | closed
  | page (sequences : List ℚ)
  | failed (failure : StreamFailure)

namespace ClientStream

def called (after : ℕ) : ClientStream :=
  { after, cursor := after, cursorAtOpen := after, failedAttempts := 0, aborted := false, phase := .loop
    events := [] }

def yield (sequence : ℚ) (s : ClientStream) : ClientStream := { s with
    cursor := sequence
    events := s.events ++ [sequence] }

/-- The `catch` of the loop. -/
def fail (options : StreamOptions) (failure : StreamFailure) (s : ClientStream) : ClientStream :=
  if s.aborted ∨ failure = .abortError then { s with phase := .returned }
  else if options.reconnect = false ∨ failure ≠ .retryable then { s with phase := .thrown }
  else
    let failedAttempts := s.failedAttempts + 1
    if options.maxReconnectAttempts.any (· < failedAttempts) then { s with failedAttempts, phase := .thrown }
    else { s with failedAttempts, phase := .sleeping }

def message (data : MessageData) (s : ClientStream) : ClientStream :=
  if s.aborted then { s with phase := .returned }
  else
    match parseSessionEvent data with
    | none => s
    | some sequence =>
      if sequence ≤ s.cursor then s
      else if s.cursor + 1 < sequence then
        { s with phase := .listing { cursor := s.cursor, toInclusive := sequence - 1, sequence } }
      else s.yield sequence

/-- The next event of a page, which has to be the next of the log. -/
def yieldMissed (options : StreamOptions) (b : Backfill) (sequence : ℚ) (rest : List ℚ) (s : ClientStream) : ClientStream :=
  if sequence ≠ b.cursor + 1 then s.fail options .permanent
  else { s.yield sequence with phase := .yielded { b with cursor := sequence } rest }

def advancing (b : Backfill) (page : List ℚ) : List ℚ :=
  (page.filter fun sequence => b.cursor < sequence && sequence ≤ b.toInclusive).insertionSort (· ≤ ·)

def listed (options : StreamOptions) (b : Backfill) (page : List ℚ) (s : ClientStream) : ClientStream :=
  match advancing b page with
  | [] => s.fail options .permanent
  | sequence :: rest => s.yieldMissed options b sequence rest

def resumeBackfill (options : StreamOptions) (b : Backfill) (rest : List ℚ) (s : ClientStream) : ClientStream :=
  if s.aborted then { s with phase := .returned }
  else
    match rest with
    | sequence :: rest => s.yieldMissed options b sequence rest
    | [] =>
      if b.cursor < b.toInclusive then { s with phase := .listing b }
      else { s.yield b.sequence with phase := .reading }

def step (options : StreamOptions) (s : ClientStream) : TransportEvent → Option ClientStream
  | .abort => some { s with aborted := true }
  | .resume =>
    match s.phase with
    | .loop =>
      if s.aborted then some { s with phase := .returned }
      else some { s with cursorAtOpen := s.cursor, phase := .opening }
    | .yielded b rest => some (s.resumeBackfill options b rest)
    | .sleeping => some { s with phase := .loop }
    | _ => none
  | .opened =>
    match s.phase with
    | .opening => some { s with failedAttempts := 0, phase := .reading }
    | _ => none
  | .message data =>
    match s.phase with
    | .reading => some (s.message data)
    | _ => none
  | .closed =>
    match s.phase with
    | .reading =>
      if options.reconnect = false then some { s with phase := .returned }
      else if s.cursor = s.cursorAtOpen then some { s with phase := .sleeping }
      else some { s with phase := .loop }
    | _ => none
  | .page sequences =>
    match s.phase with
    | .listing b => some (s.listed options b sequences)
    | _ => none
  | .failed failure =>
    match s.phase with
    | .opening => some (s.fail options failure)
    | .reading => some (s.fail options failure)
    | .listing _ => some (s.fail options failure)
    | _ => none

/-- The events after the start, each once and in order, and the cursor
is at the last. -/
structure Contiguous (s : ClientStream) : Prop where
  events : s.events = (List.range' (s.after + 1) s.events.length).map fun (sequence : ℕ) => (sequence : ℚ)
  cursor : s.cursor = s.after + s.events.length

/-- A message that is read has no number between the cursor and the next sequence. -/
def Whole (s : ClientStream) : TransportEvent → Prop
  | .message data =>
    s.aborted = false → ∀ sequence ∈ parseSessionEvent data, s.cursor < sequence → s.cursor + 1 ≤ sequence
  | _ => True

instance (s : ClientStream) : DecidablePred s.Whole
  | .message _ => inferInstanceAs (Decidable (_ → ∀ _ ∈ _, _ → _))
  | .abort => .isTrue trivial
  | .resume => .isTrue trivial
  | .opened => .isTrue trivial
  | .closed => .isTrue trivial
  | .page _ => .isTrue trivial
  | .failed _ => .isTrue trivial

/-! ## The invariant -/

/-- A backfill has reached the cursor, and it ends before its event. -/
structure Reached (s : ClientStream) (b : Backfill) : Prop where
  cursor : b.cursor = s.cursor
  last : b.sequence = b.toInclusive + 1
  ahead : b.cursor ≤ b.toInclusive

def Backfills (s : ClientStream) : Prop := match s.phase with
  | .listing b => s.Reached b
  | .yielded b rest => s.Reached b ∧ ∀ sequence ∈ rest, sequence ≤ b.toInclusive
  | _ => True

section

variable {options : StreamOptions} {s t : ClientStream} {b : Backfill} {sequence : ℚ}

theorem Contiguous.yield (h : s.Contiguous) (hnext : sequence = s.cursor + 1) : (s.yield sequence).Contiguous := by
  have hlength : (s.yield sequence).events.length = s.events.length + 1 := by
    unfold ClientStream.yield
    rw [List.length_append, List.length_singleton]
  have hvalue : sequence = ((s.after + 1 + s.events.length : ℕ) : ℚ) := by
    rw [hnext, h.cursor]
    push_cast
    ring
  refine ⟨?_, ?_⟩
  · rw [hlength]
    unfold ClientStream.yield
    rw [List.range'_concat, List.map_append, ← h.events, List.map_singleton, Nat.one_mul, ← hvalue]
  · rw [hlength]
    unfold ClientStream.yield
    rw [hnext, h.cursor]
    push_cast
    ring

theorem fail_frame (options : StreamOptions) (failure : StreamFailure) (s : ClientStream) :
    (s.fail options failure).after = s.after ∧ (s.fail options failure).cursor = s.cursor ∧
      (s.fail options failure).events = s.events ∧ (s.fail options failure).Backfills := by
  unfold ClientStream.fail
  split
  · exact ⟨rfl, rfl, rfl, trivial⟩
  · split
    · exact ⟨rfl, rfl, rfl, trivial⟩
    · dsimp only
      split
      · exact ⟨rfl, rfl, rfl, trivial⟩
      · exact ⟨rfl, rfl, rfl, trivial⟩

theorem Contiguous.fail (h : s.Contiguous) (failure : StreamFailure) :
    (s.fail options failure).Contiguous ∧ (s.fail options failure).Backfills := by
  obtain ⟨hafter, hcursor, hevents, hbackfills⟩ := fail_frame options failure s
  refine ⟨⟨?_, ?_⟩, hbackfills⟩
  · rw [hevents, hafter]
    exact h.events
  · rw [hevents, hafter, hcursor]
    exact h.cursor

theorem Contiguous.yieldMissed (h : s.Contiguous) (hb : s.Reached b) {rest : List ℚ}
    (hrest : ∀ later ∈ sequence :: rest, later ≤ b.toInclusive) :
    (s.yieldMissed options b sequence rest).Contiguous ∧ (s.yieldMissed options b sequence rest).Backfills := by
  unfold ClientStream.yieldMissed
  split
  · exact h.fail .permanent
  case isFalse hnext =>
    have hnext : sequence = s.cursor + 1 := by
      rw [← hb.cursor]
      exact not_not.1 hnext
    have hyield := h.yield hnext
    refine ⟨⟨hyield.events, hyield.cursor⟩, ⟨rfl, hb.last, ?_⟩, ?_⟩
    · exact hrest sequence List.mem_cons_self
    · exact fun later hmem => hrest later (List.mem_cons_of_mem _ hmem)

theorem advancing_le {page : List ℚ} (h : sequence ∈ advancing b page) : sequence ≤ b.toInclusive := by
  have hmem := List.mem_filter.1 ((List.mem_insertionSort _).1 h)
  exact of_decide_eq_true (Bool.and_eq_true_iff.1 hmem.2).2

theorem Contiguous.listed (h : s.Contiguous) (hb : s.Reached b) (page : List ℚ) :
    (s.listed options b page).Contiguous ∧ (s.listed options b page).Backfills := by
  unfold ClientStream.listed
  cases hpage : advancing b page with
  | nil => exact h.fail .permanent
  | cons sequence rest =>
    apply h.yieldMissed hb
    intro later hmem
    rw [← hpage] at hmem
    exact advancing_le hmem

theorem Contiguous.resumeBackfill (h : s.Contiguous) (hb : s.Reached b) {rest : List ℚ}
    (hrest : ∀ later ∈ rest, later ≤ b.toInclusive) :
    (s.resumeBackfill options b rest).Contiguous ∧ (s.resumeBackfill options b rest).Backfills := by
  unfold ClientStream.resumeBackfill
  split
  · exact ⟨⟨h.events, h.cursor⟩, trivial⟩
  · cases rest with
    | cons sequence rest => exact h.yieldMissed hb hrest
    | nil =>
      dsimp only
      split
      · exact ⟨⟨h.events, h.cursor⟩, hb.cursor, hb.last, hb.ahead⟩
      case isFalse hend =>
        -- the backfill has reached its end, and the event is next
        have hnext : b.sequence = s.cursor + 1 := by
          rw [hb.last, ← hb.cursor, le_antisymm hb.ahead (not_lt.1 hend)]
        have hyield := h.yield hnext
        exact ⟨⟨hyield.events, hyield.cursor⟩, trivial⟩

theorem Contiguous.message (h : s.Contiguous) (hphase : s.phase = .reading) {data : MessageData}
    (hwhole : s.aborted = false → ∀ sequence ∈ parseSessionEvent data, s.cursor < sequence → s.cursor + 1 ≤ sequence) :
    (s.message data).Contiguous ∧ (s.message data).Backfills := by
  have hsame : s.Contiguous ∧ s.Backfills := by
    refine ⟨h, ?_⟩
    unfold Backfills
    rw [hphase]
    trivial
  unfold ClientStream.message
  split
  · exact ⟨⟨h.events, h.cursor⟩, trivial⟩
  case isFalse hactive =>
    cases hparse : parseSessionEvent data with
    | none => exact hsame
    | some sequence =>
      dsimp only
      split
      · exact hsame
      case isFalse hnew =>
        have hahead := hwhole (Bool.eq_false_iff.2 hactive) sequence hparse (not_le.1 hnew)
        split
        case isTrue hgap =>
          refine ⟨⟨h.events, h.cursor⟩, rfl, ?_, ?_⟩
          · exact (sub_add_cancel sequence 1).symm
          · exact le_sub_iff_add_le.2 hahead
        case isFalse hnext =>
          have hyield := h.yield (le_antisymm (not_lt.1 hnext) hahead)
          refine ⟨hyield, ?_⟩
          unfold Backfills ClientStream.yield
          rw [hphase]
          trivial

def Sound (s : ClientStream) : Prop := s.Contiguous ∧ s.Backfills

theorem Sound.step (h : s.Sound) {e : TransportEvent} (hok : s.Whole e) (hstep : s.step options e = some t) :
    t.Sound := by
  obtain ⟨hcontiguous, hbackfills⟩ := h
  unfold Backfills at hbackfills
  cases e with
  | abort =>
    cases hstep
    refine ⟨⟨hcontiguous.events, hcontiguous.cursor⟩, ?_⟩
    cases hphase : s.phase with
    | listing b =>
      rw [hphase] at hbackfills
      exact ⟨hbackfills.cursor, hbackfills.last, hbackfills.ahead⟩
    | yielded b rest =>
      rw [hphase] at hbackfills
      obtain ⟨hb, hrest⟩ := hbackfills
      exact ⟨⟨hb.cursor, hb.last, hb.ahead⟩, hrest⟩
    | _ => trivial
  | resume =>
    unfold ClientStream.step at hstep
    dsimp only at hstep
    split at hstep
    · split at hstep
      · cases hstep
        exact ⟨⟨hcontiguous.events, hcontiguous.cursor⟩, trivial⟩
      · cases hstep
        exact ⟨⟨hcontiguous.events, hcontiguous.cursor⟩, trivial⟩
    case h_2 b rest hphase =>
      cases hstep
      rw [hphase] at hbackfills
      exact hcontiguous.resumeBackfill hbackfills.1 hbackfills.2
    · cases hstep
      exact ⟨⟨hcontiguous.events, hcontiguous.cursor⟩, trivial⟩
    · cases hstep
  | opened =>
    unfold ClientStream.step at hstep
    dsimp only at hstep
    split at hstep
    · cases hstep
      exact ⟨⟨hcontiguous.events, hcontiguous.cursor⟩, trivial⟩
    · cases hstep
  | message data =>
    unfold ClientStream.step at hstep
    dsimp only at hstep
    split at hstep
    case h_1 hphase =>
      cases hstep
      exact hcontiguous.message hphase hok
    · cases hstep
  | closed =>
    unfold ClientStream.step at hstep
    dsimp only at hstep
    split at hstep
    · split at hstep
      · cases hstep
        exact ⟨⟨hcontiguous.events, hcontiguous.cursor⟩, trivial⟩
      · split at hstep
        · cases hstep
          exact ⟨⟨hcontiguous.events, hcontiguous.cursor⟩, trivial⟩
        · cases hstep
          exact ⟨⟨hcontiguous.events, hcontiguous.cursor⟩, trivial⟩
    · cases hstep
  | page sequences =>
    unfold ClientStream.step at hstep
    dsimp only at hstep
    split at hstep
    case h_1 b hphase =>
      cases hstep
      rw [hphase] at hbackfills
      exact hcontiguous.listed hbackfills sequences
    · cases hstep
  | failed failure =>
    unfold ClientStream.step at hstep
    dsimp only at hstep
    split at hstep
    · cases hstep
      exact hcontiguous.fail failure
    · cases hstep
      exact hcontiguous.fail failure
    · cases hstep
      exact hcontiguous.fail failure
    · cases hstep

theorem Sound.needs (h : s.Sound) {e : TransportEvent} (hstep : s.step options e = some t) (ht : t.Contiguous) :
    s.Whole e := by
  cases e with
  | message data =>
    intro hactive sequence hparse hnew
    by_contra hbetween
    unfold ClientStream.step at hstep
    dsimp only at hstep
    split at hstep
    case h_2 => cases hstep
    cases hstep
    have hyield : s.message data = s.yield sequence := by
      unfold ClientStream.message
      rw [hactive, if_neg Bool.false_ne_true, hparse]
      dsimp only
      rw [if_neg (not_le.2 hnew), if_neg (not_lt.2 (le_of_lt (not_le.1 hbetween)))]
    -- one more event, with a cursor that is not at the next sequence
    have hcursor := ht.cursor
    rw [hyield] at hcursor
    unfold ClientStream.yield at hcursor
    dsimp only at hcursor
    rw [List.length_append, List.length_singleton] at hcursor
    apply hbetween
    rw [hcursor, h.1.cursor]
    push_cast
    linarith
  | _ => trivial

end

theorem called_sound (after : ℕ) : (called after).Sound := by
  refine ⟨⟨rfl, ?_⟩, trivial⟩
  unfold called
  simp

theorem fail_permanent (options : StreamOptions) (s : ClientStream) :
    (s.fail options .permanent).phase = .thrown ∨ s.aborted = true ∧ (s.fail options .permanent).phase = .returned := by
  unfold ClientStream.fail
  split
  case isTrue hreturned => exact .inr ⟨hreturned.resolve_right (by decide), rfl⟩
  case isFalse => exact .inl (by rw [if_pos (.inr (by decide))])

theorem missing_page_throws {options : StreamOptions} {s t : ClientStream} {b : Backfill} {page : List ℚ}
    (hphase : s.phase = .listing b) (hmissing : b.cursor + 1 ∉ page) (hstep : s.step options (.page page) = some t) :
    t.events = s.events ∧ (t.phase = .thrown ∨ s.aborted = true ∧ t.phase = .returned) := by
  have hfail : s.listed options b page = s.fail options .permanent := by
    unfold ClientStream.listed
    cases hpage : advancing b page with
    | nil => rfl
    | cons sequence rest =>
      have hmem : sequence ∈ advancing b page := hpage ▸ List.mem_cons_self
      have hin : sequence ∈ page := (List.mem_filter.1 ((List.mem_insertionSort _).1 hmem)).1
      have hne : sequence ≠ b.cursor + 1 := by
        intro heq
        rw [heq] at hin
        exact hmissing hin
      exact if_pos hne
  unfold ClientStream.step at hstep
  rw [hphase] at hstep
  cases hstep
  rw [hfail]
  exact ⟨(fail_frame options .permanent s).2.2.1, fail_permanent options s⟩

end ClientStream

/-- **The generator yields a contiguous piece of the log** exactly if no message has a number
between the cursor and the next sequence. Where a page misses the next sequence it throws. -/
theorem yields_are_contiguous_iff (options : StreamOptions) (after : ℕ) (es : List TransportEvent) :
    (EachState (fun s e t => ClientStream.step options s e = some t) ClientStream.Contiguous (.called after) es ↔
      EachStep (fun s e t => ClientStream.step options s e = some t) ClientStream.Whole (.called after) es) ∧
    ∀ (s t : ClientStream) (b : Backfill) (page : List ℚ), s.phase = .listing b → b.cursor + 1 ∉ page →
      s.step options (.page page) = some t →
      t.events = s.events ∧ (t.phase = .thrown ∨ s.aborted = true ∧ t.phase = .returned) := by
  refine ⟨?_, fun s t b page hphase hmissing hstep => ClientStream.missing_page_throws hphase hmissing hstep⟩
  exact eachState_iff_eachStep (fun _ h => h.1) (fun _ _ _ hstep h hok => h.step hok hstep)
    (fun _ _ _ hstep h ht => h.needs hstep ht) (ClientStream.called_sound after)

/-! ## A number between two sequences -/

/-- A stream brings event 1, then an event with a number behind it. -/
def betweenSequences : List TransportEvent :=
  [.resume, .opened, .message (.object (some 1) (some "turn.started") (some "e1")),
    .message (.object (some (3 / 2)) (some "turn.started") (some "e2"))]

def untilClosed : StreamOptions :=
  { reconnect := true, maxReconnectAttempts := none }

theorem fraction_is_yielded :
    (∃ s : ClientStream, Run (fun s e t => ClientStream.step untilClosed s e = some t) (.called 0) betweenSequences s ∧
      s.events = [1, 3 / 2]) ∧
    ¬ EachState (fun s e t => ClientStream.step untilClosed s e = some t) ClientStream.Contiguous (.called 0)
        betweenSequences := by
  have hplay : ∃ s ∈ play (ClientStream.step untilClosed) (.called 0) betweenSequences,
      s.after = 0 ∧ s.events = [1, 3 / 2] ∧ s.cursor = 3 / 2 := by decide +kernel
  obtain ⟨s, hs, hafter, hevents, hcursor⟩ := hplay
  refine ⟨⟨s, run_of_play hs, hevents⟩, ?_⟩
  intro hcontiguous
  have hlast := (hcontiguous betweenSequences [] s (List.append_nil _).symm (run_of_play hs)).cursor
  rw [hafter, hevents, hcursor] at hlast
  norm_num at hlast

end OpenGeni.Stream
