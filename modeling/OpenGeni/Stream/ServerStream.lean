/-
The events of a session as a server stream
(`apps/api/src/http/sse.ts`, `sseSessionStream`).

The stream replays the log and buffers what the bus brings meanwhile. Then it drains the buffer,
and the live callback sends as well. A send that finds a gap first loads the missing events, and
`lastSent` may move on while it waits. The loop over the loaded events looks at `lastSent` again;
the send of the event itself does not. So the stream is exact as long as no waiting send is
overtaken (`stream_is_exact_iff`).

An event is its sequence: the log has one event for each.
-/
import OpenGeni.Lib.Run

namespace OpenGeni.Stream

open OpenGeni.Lib

/-! ## The stream -/

/-- The first `limit` events after the cursor, in a log of the sequences `1` to `last`. -/
def listSessionEvents (last after limit : ℕ) : List ℕ := (List.range' (after + 1) (last - after)).take limit

/-- A send that waits for the events between `after` and its own. -/
structure Send where
  sequence : ℕ
  after : ℕ
deriving DecidableEq

structure Sender where
  rest : List ℕ
  sending : Option Send
deriving DecidableEq

def Sender.idle : Sender :=
  { rest := [], sending := none }

def Sender.of (events : List ℕ) : Sender :=
  { rest := events, sending := none }

/-- Where `start` is. -/
inductive StartStep
  | loadPage (cursor : ℕ)
  | page (cursor length : ℕ)
  | drain
  | connected

structure SseStream where
  last : ℕ
  after : ℕ
  lastSent : ℕ
  replaying : Bool
  buffered : List ℕ
  start : StartStep
  /-- The loop of `start`, and the loop of the live callback. -/
  main : Sender
  live : Sender
  enqueued : List ℕ

inductive StreamEvent
  | append
  | message (events : List ℕ)
  /-- `start` goes on. -/
  | main
  | live

def sortEvents (events : List ℕ) : List ℕ := events.insertionSort (· ≤ ·)

def pageSize : ℕ := 1000

namespace SseStream

def enqueue (sequence : ℕ) (s : SseStream) : SseStream := { s with
    lastSent := sequence
    enqueued := s.enqueued ++ [sequence] }

/-- `send` up to its first wait. The send that waits, if it does. -/
def send (sequence : ℕ) (s : SseStream) : SseStream × Option Send := if sequence ≤ s.lastSent then (s, none)
  else if s.lastSent + 1 < sequence then (s, some { sequence, after := s.lastSent })
  else (s.enqueue sequence, none)

def sendMissed (s : SseStream) (missed : ℕ) : SseStream := if s.lastSent < missed then s.enqueue missed else s

/-- `send` after its wait. -/
def finishSend (p : Send) (s : SseStream) : SseStream :=
  let missing := listSessionEvents s.last p.after (p.sequence - p.after - 1)
  (missing.foldl sendMissed s).enqueue p.sequence

/-- A loop goes on by one send, or by the end of one. `none` at its end. -/
def advance (sender : Sender) (s : SseStream) : Option (SseStream × Sender) :=
  match sender.sending, sender.rest with
  | some p, rest => some (s.finishSend p, .of rest)
  | none, sequence :: rest =>
    let (s, sending) := s.send sequence
    some (s, { rest, sending })
  | none, [] => none

def endReplay (s : SseStream) : SseStream := { s with
    replaying := false
    start := .drain
    main := .of (sortEvents s.buffered) }

/-- The cursor behind the event that is sent next. Nothing reads it before the end of the page. -/
def cursorAfter (cursor : ℕ) (sender : Sender) : ℕ := match sender.sending, sender.rest with
  | none, sequence :: _ => max cursor sequence
  | _, _ => cursor

/-- `start` goes on. -/
def startStep (s : SseStream) : Option SseStream := match s.start with
  | .loadPage cursor =>
    let page := listSessionEvents s.last cursor pageSize
    if page.isEmpty then some s.endReplay
    else some { s with start := .page cursor page.length, main := .of (sortEvents page) }
  | .page cursor length =>
    match s.advance s.main with
    | some (t, main) => some { t with start := .page (cursorAfter cursor s.main) length, main }
    | none => if length < pageSize then some s.endReplay else some { s with start := .loadPage cursor }
  | .drain =>
    match s.advance s.main with
    | some (t, main) => some { t with main }
    | none => some { s with buffered := [], start := .connected }
  | .connected => none

/-- The bus brings events of the log. It waits until the callback is done with those before. -/
def step (s : SseStream) : StreamEvent → Option SseStream
  | .append => some { s with last := s.last + 1 }
  | .message events =>
    if s.live ≠ .idle ∨ events.any (s.last < ·) then none
    else if s.replaying then some { s with buffered := s.buffered ++ events }
    else some { s with live := .of (sortEvents events) }
  | .main => s.startStep
  | .live => (s.advance s.live).map fun (t, live) => { t with live }

structure Opened (s : SseStream) : Prop where
  lastSent : s.lastSent = s.after
  replaying : s.replaying = true
  buffered : s.buffered = []
  start : s.start = .loadPage s.after
  main : s.main = .idle
  live : s.live = .idle
  enqueued : s.enqueued = []

/-- The events after the cursor, each once and in order. -/
structure Exact (s : SseStream) : Prop where
  enqueued : s.enqueued = List.range' (s.after + 1) s.enqueued.length
  lastSent : s.lastSent = s.after + s.enqueued.length

/-- No send that has waited is overtaken: the cursor is still below its event. -/
def NotOvertaken (s : SseStream) : StreamEvent → Prop
  | .main => ∀ p ∈ s.main.sending, s.lastSent < p.sequence
  | .live => ∀ p ∈ s.live.sending, s.lastSent < p.sequence
  | _ => True

instance (s : SseStream) : DecidablePred s.NotOvertaken
  | .main => inferInstanceAs (Decidable (∀ _ ∈ _, _))
  | .live => inferInstanceAs (Decidable (∀ _ ∈ _, _))
  | .append => .isTrue trivial
  | .message _ => .isTrue trivial

/-! ## Sending -/

/-- The sends of a loop are of the log, and the gap that one waits for begins at or below the cursor. -/
structure Within (last lastSent : ℕ) (sender : Sender) : Prop where
  rest : ∀ sequence ∈ sender.rest, sequence ≤ last
  sending : ∀ p ∈ sender.sending, p.sequence ≤ last ∧ p.after ≤ lastSent

structure Frame (s t : SseStream) : Prop where
  last : t.last = s.last
  after : t.after = s.after
  buffered : t.buffered = s.buffered
  start : t.start = s.start
  main : t.main = s.main
  live : t.live = s.live
  lastSent : s.lastSent ≤ t.lastSent

section

variable {s t : SseStream} {sender sender' : Sender} {p : Send} {sequence : ℕ}

theorem Frame.refl (s : SseStream) : s.Frame s := ⟨rfl, rfl, rfl, rfl, rfl, rfl, le_refl _⟩

theorem Frame.trans {u : SseStream} (h : s.Frame t) (h' : t.Frame u) : s.Frame u :=
  ⟨h'.last.trans h.last, h'.after.trans h.after, h'.buffered.trans h.buffered, h'.start.trans h.start,
    h'.main.trans h.main, h'.live.trans h.live, h.lastSent.trans h'.lastSent⟩

variable {last sent : ℕ}

theorem Within.mono {last' sent' : ℕ} (h : Within last sent sender) (hlast : last ≤ last') (hsent : sent ≤ sent') :
    Within last' sent' sender := by
  refine ⟨fun sequence hmem => (h.rest sequence hmem).trans hlast, ?_⟩
  intro p hp
  obtain ⟨hseq, hafter⟩ := h.sending p hp
  exact ⟨hseq.trans hlast, hafter.trans hsent⟩

theorem Exact.enqueue (h : s.Exact) : (s.enqueue (s.lastSent + 1)).Exact := by
  refine ⟨?_, ?_⟩
  · unfold SseStream.enqueue
    dsimp only
    rw [List.length_append, List.length_singleton, List.range'_concat, ← h.enqueued, Nat.one_mul, h.lastSent]
    congr 2
    omega
  · unfold SseStream.enqueue
    rw [List.length_append, List.length_singleton, h.lastSent, Nat.add_assoc]

theorem frame_enqueue (h : s.lastSent ≤ sequence) : s.Frame (s.enqueue sequence) :=
  ⟨rfl, rfl, rfl, rfl, rfl, rfl, h⟩

theorem Exact.foldl_sendMissed (h : s.Exact) (first count : ℕ) (hfirst : first ≤ s.lastSent + 1) :
    ((List.range' first count).foldl sendMissed s).Exact ∧ s.Frame ((List.range' first count).foldl sendMissed s) ∧
      ((List.range' first count).foldl sendMissed s).lastSent = max s.lastSent (first + count - 1) := by
  induction count generalizing first s with
  | zero =>
    refine ⟨h, .refl s, ?_⟩
    rw [List.range'_zero, List.foldl_nil]
    omega
  | succ count ih =>
    rw [List.range'_succ, List.foldl_cons]
    unfold sendMissed
    by_cases hmissing : s.lastSent < first
    · obtain rfl : first = s.lastSent + 1 := by omega
      rw [if_pos hmissing]
      have hsent : (s.enqueue (s.lastSent + 1)).lastSent = s.lastSent + 1 := rfl
      obtain ⟨hexact, hframe, hlast⟩ := ih h.enqueue (s.lastSent + 1 + 1) (by rw [hsent])
      refine ⟨hexact, (frame_enqueue (Nat.le_succ _)).trans hframe, ?_⟩
      refine hlast.trans ?_
      rw [hsent]
      omega
    · rw [if_neg hmissing]
      obtain ⟨hexact, hframe, hlast⟩ := ih h (first + 1) (by omega)
      refine ⟨hexact, hframe, hlast.trans ?_⟩
      omega

theorem listSessionEvents_gap (hlast : p.sequence ≤ s.last) :
    listSessionEvents s.last p.after (p.sequence - p.after - 1) =
      List.range' (p.after + 1) (p.sequence - p.after - 1) := by
  unfold listSessionEvents
  rw [List.take_range'_of_length_ge (by omega)]

theorem Exact.finishSend (h : s.Exact) (hlast : p.sequence ≤ s.last) (hafter : p.after ≤ s.lastSent)
    (hnot : s.lastSent < p.sequence) : (s.finishSend p).Exact ∧ s.Frame (s.finishSend p) := by
  unfold SseStream.finishSend
  rw [listSessionEvents_gap hlast]
  dsimp only
  obtain ⟨hexact, hframe, hsent⟩ := h.foldl_sendMissed (p.after + 1) (p.sequence - p.after - 1) (by omega)
  generalize (List.range' (p.after + 1) (p.sequence - p.after - 1)).foldl sendMissed s = u at hexact hframe hsent
  have hnext : p.sequence = u.lastSent + 1 := by
    rw [hsent]
    omega
  rw [hnext]
  exact ⟨hexact.enqueue, hframe.trans (frame_enqueue (Nat.le_succ _))⟩

theorem finishSend_grows (p : Send) (s : SseStream) :
    (s.finishSend p).lastSent = p.sequence ∧ (s.finishSend p).after = s.after ∧
      s.enqueued.length < (s.finishSend p).enqueued.length := by
  unfold SseStream.finishSend
  generalize listSessionEvents s.last p.after (p.sequence - p.after - 1) = missing
  have hfold : (missing.foldl sendMissed s).after = s.after ∧
      s.enqueued.length ≤ (missing.foldl sendMissed s).enqueued.length := by
    induction missing generalizing s with
    | nil => exact ⟨rfl, le_refl _⟩
    | cons missed missing ih =>
      obtain ⟨hafter, hlength⟩ := ih (s.sendMissed missed)
      have hone : (s.sendMissed missed).after = s.after ∧ s.enqueued.length ≤ (s.sendMissed missed).enqueued.length := by
        unfold sendMissed
        split
        · refine ⟨rfl, ?_⟩
          unfold SseStream.enqueue
          rw [List.length_append]
          exact Nat.le_add_right _ _
        · exact ⟨rfl, le_refl _⟩
      exact ⟨hafter.trans hone.1, hone.2.trans hlength⟩
  refine ⟨rfl, hfold.1, ?_⟩
  unfold SseStream.enqueue
  rw [List.length_append, List.length_singleton]
  exact Nat.lt_succ_of_le hfold.2

theorem Exact.advance (h : s.Exact) (hwithin : Within s.last s.lastSent sender) (hnot : ∀ p ∈ sender.sending, s.lastSent < p.sequence)
    (hstep : s.advance sender = some (t, sender')) : t.Exact ∧ s.Frame t ∧ Within t.last t.lastSent sender' := by
  unfold SseStream.advance at hstep
  obtain ⟨rest, sending⟩ := sender
  cases sending with
  | some p =>
    cases hstep
    obtain ⟨hlast, hafter⟩ := hwithin.sending p rfl
    obtain ⟨hexact, hframe⟩ := h.finishSend hlast hafter (hnot p rfl)
    refine ⟨hexact, hframe, ?_, ?_⟩
    · intro sequence hmem
      rw [hframe.last]
      exact hwithin.rest sequence hmem
    · exact fun _ hmem => absurd hmem (Option.not_mem_none _)
  | none =>
    cases rest with
    | nil => cases hstep
    | cons sequence rest =>
      dsimp only at hstep
      have hrest : ∀ later ∈ rest, later ≤ s.last := fun later hmem =>
        hwithin.rest later (List.mem_cons_of_mem _ hmem)
      unfold SseStream.send at hstep
      split at hstep
      · cases hstep
        exact ⟨h, .refl s, hrest, fun _ hmem => absurd hmem (Option.not_mem_none _)⟩
      · split at hstep
        · cases hstep
          refine ⟨h, .refl s, hrest, ?_⟩
          rintro _ ⟨⟩
          exact ⟨hwithin.rest sequence List.mem_cons_self, le_refl _⟩
        · cases hstep
          obtain rfl : sequence = s.lastSent + 1 := by omega
          exact ⟨h.enqueue, frame_enqueue (Nat.le_succ _), hrest, fun _ hmem => absurd hmem (Option.not_mem_none _)⟩

theorem Exact.needs (h : s.Exact) (hp : p ∈ sender.sending) (hstep : s.advance sender = some (t, sender'))
    (ht : t.lastSent = t.after + t.enqueued.length) : s.lastSent < p.sequence := by
  obtain ⟨rest, sending⟩ := sender
  obtain rfl : sending = some p := hp
  cases hstep
  obtain ⟨hsent, hafter, hlength⟩ := finishSend_grows p s
  have hcursor := h.lastSent
  omega

/-! ## The run -/

structure Loops (s : SseStream) : Prop where
  buffered : ∀ sequence ∈ s.buffered, sequence ≤ s.last
  main : Within s.last s.lastSent s.main
  live : Within s.last s.lastSent s.live
  loading : ∀ cursor, s.start = .loadPage cursor → s.main.sending = none

def Sound (s : SseStream) : Prop := s.Exact ∧ s.Loops

theorem within_of {events : List ℕ} (h : ∀ sequence ∈ events, sequence ≤ last) :
    Within last sent (.of (sortEvents events)) := by
  refine ⟨?_, fun _ hmem => absurd hmem (Option.not_mem_none _)⟩
  intro sequence hmem
  exact h sequence ((List.mem_insertionSort _).1 hmem)

theorem Opened.sound (h : s.Opened) : s.Sound := by
  obtain ⟨hsent, -, hbuffered, hstart, hmain, hlive, henqueued⟩ := h
  have hidle : Within s.last s.lastSent .idle :=
    ⟨List.forall_mem_nil _, fun _ hmem => absurd hmem (Option.not_mem_none _)⟩
  refine ⟨⟨?_, ?_⟩, ?_, ?_, ?_, ?_⟩
  · rw [henqueued]
    rfl
  · rw [henqueued]
    exact hsent
  · rw [hbuffered]
    exact List.forall_mem_nil _
  · rw [hmain]
    exact hidle
  · rw [hlive]
    exact hidle
  · rw [hmain]
    exact fun _ _ => rfl

theorem Sound.endReplay (h : s.Sound) : s.endReplay.Sound := by
  obtain ⟨hexact, hloops⟩ := h
  refine ⟨⟨hexact.enqueued, hexact.lastSent⟩, hloops.buffered, within_of hloops.buffered, hloops.live, ?_⟩
  intro cursor hcursor
  cases hcursor

theorem listSessionEvents_le {after limit : ℕ} (h : sequence ∈ listSessionEvents last after limit) :
    sequence ≤ last := by
  have hmem := List.mem_range'_1.1 (List.mem_of_mem_take h)
  omega

theorem Sound.startStep (h : s.Sound) (hnot : ∀ p ∈ s.main.sending, s.lastSent < p.sequence)
    (hstep : s.startStep = some t) : t.Sound := by
  obtain ⟨hexact, hloops⟩ := h
  unfold SseStream.startStep at hstep
  cases hstart : s.start with
  | connected =>
    rw [hstart] at hstep
    cases hstep
  | loadPage cursor =>
    rw [hstart] at hstep
    dsimp only at hstep
    split at hstep
    · cases hstep
      exact Sound.endReplay ⟨hexact, hloops⟩
    · cases hstep
      refine ⟨⟨hexact.enqueued, hexact.lastSent⟩, hloops.buffered, ?_, hloops.live, ?_⟩
      · exact within_of fun sequence hmem => listSessionEvents_le hmem
      · intro cursor' hcursor
        cases hcursor
  | page cursor length =>
    rw [hstart] at hstep
    cases hadvance : s.advance s.main with
    | some next =>
      rw [hadvance] at hstep
      cases hstep
      obtain ⟨hu, hframe, hmain⟩ := hexact.advance hloops.main hnot hadvance
      refine ⟨⟨hu.enqueued, hu.lastSent⟩, ?_, hmain, ?_, ?_⟩
      · rw [hframe.buffered, hframe.last]
        exact hloops.buffered
      · rw [hframe.live]
        exact hloops.live.mono (le_of_eq hframe.last.symm) hframe.lastSent
      · intro cursor' hcursor
        cases hcursor
    | none =>
      rw [hadvance] at hstep
      dsimp only at hstep
      split at hstep
      · cases hstep
        exact Sound.endReplay ⟨hexact, hloops⟩
      · cases hstep
        refine ⟨⟨hexact.enqueued, hexact.lastSent⟩, hloops.buffered, hloops.main, hloops.live, ?_⟩
        intro cursor' _
        -- the page is at its end
        unfold SseStream.advance at hadvance
        cases hsending : s.main.sending with
        | none => rfl
        | some p =>
          rw [hsending] at hadvance
          cases hadvance
  | drain =>
    rw [hstart] at hstep
    cases hadvance : s.advance s.main with
    | some next =>
      rw [hadvance] at hstep
      cases hstep
      obtain ⟨hu, hframe, hmain⟩ := hexact.advance hloops.main hnot hadvance
      refine ⟨⟨hu.enqueued, hu.lastSent⟩, ?_, hmain, ?_, ?_⟩
      · rw [hframe.buffered, hframe.last]
        exact hloops.buffered
      · rw [hframe.live]
        exact hloops.live.mono (le_of_eq hframe.last.symm) hframe.lastSent
      · rw [hframe.start, hstart]
        intro cursor' hcursor
        cases hcursor
    | none =>
      rw [hadvance] at hstep
      cases hstep
      refine ⟨⟨hexact.enqueued, hexact.lastSent⟩, fun _ hmem => absurd hmem List.not_mem_nil, hloops.main,
        hloops.live, ?_⟩
      intro cursor' hcursor
      cases hcursor

theorem Sound.step (h : s.Sound) {e : StreamEvent} (hok : s.NotOvertaken e) (hstep : s.step e = some t) : t.Sound := by
  cases e with
  | append =>
    cases hstep
    obtain ⟨hexact, hloops⟩ := h
    refine ⟨⟨hexact.enqueued, hexact.lastSent⟩, ?_, ?_, ?_, hloops.loading⟩
    · exact fun sequence hmem => Nat.le_succ_of_le (hloops.buffered sequence hmem)
    · exact hloops.main.mono (Nat.le_succ _) (le_refl _)
    · exact hloops.live.mono (Nat.le_succ _) (le_refl _)
  | message events =>
    unfold SseStream.step at hstep
    dsimp only at hstep
    split at hstep
    · cases hstep
    case isFalse hguard =>
      obtain ⟨hexact, hloops⟩ := h
      have hevents : ∀ sequence ∈ events, sequence ≤ s.last := by
        intro sequence hmem
        by_contra hlt
        exact (not_or.1 hguard).2 (List.any_eq_true.2 ⟨sequence, hmem, by simpa using hlt⟩)
      split at hstep
      · cases hstep
        refine ⟨⟨hexact.enqueued, hexact.lastSent⟩, ?_, hloops.main, hloops.live, hloops.loading⟩
        intro sequence hmem
        rcases List.mem_append.1 hmem with hold | hnew
        · exact hloops.buffered sequence hold
        · exact hevents sequence hnew
      · cases hstep
        exact ⟨⟨hexact.enqueued, hexact.lastSent⟩, hloops.buffered, hloops.main, within_of hevents, hloops.loading⟩
  | main => exact h.startStep hok hstep
  | live =>
    obtain ⟨hexact, hloops⟩ := h
    obtain ⟨⟨u, live⟩, hadvance, rfl⟩ := Option.map_eq_some_iff.1 hstep
    obtain ⟨hu, hframe, hlive⟩ := hexact.advance hloops.live hok hadvance
    refine ⟨⟨hu.enqueued, hu.lastSent⟩, ?_, ?_, hlive, ?_⟩
    · rw [hframe.buffered, hframe.last]
      exact hloops.buffered
    · rw [hframe.main]
      exact hloops.main.mono (le_of_eq hframe.last.symm) hframe.lastSent
    · rw [hframe.start, hframe.main]
      exact hloops.loading

theorem Sound.needs (h : s.Sound) {e : StreamEvent} (hstep : s.step e = some t) (ht : t.Exact) : s.NotOvertaken e := by
  obtain ⟨hexact, hloops⟩ := h
  cases e with
  | append | message => trivial
  | live =>
    obtain ⟨⟨u, live⟩, hadvance, rfl⟩ := Option.map_eq_some_iff.1 hstep
    exact fun p hp => hexact.needs hp hadvance ht.lastSent
  | main =>
    intro p hp
    have hstart : s.startStep = some t := hstep
    unfold SseStream.startStep at hstart
    split at hstart
    case h_1 cursor hload =>
      rw [hloops.loading cursor hload] at hp
      cases hp
    case h_2 cursor length _ =>
      split at hstart
      case h_1 u main hadvance =>
        cases hstart
        exact hexact.needs hp hadvance ht.lastSent
      case h_2 hadvance =>
        unfold SseStream.advance at hadvance
        rw [hp] at hadvance
        cases hadvance
    case h_3 =>
      split at hstart
      case h_1 u main hadvance =>
        cases hstart
        exact hexact.needs hp hadvance ht.lastSent
      case h_2 hadvance =>
        unfold SseStream.advance at hadvance
        rw [hp] at hadvance
        cases hadvance
    case h_4 => cases hstart

end

/-- **The stream is exact on the way** exactly if no send that waits is overtaken. -/
theorem stream_is_exact_iff {s : SseStream} (hs : s.Opened) (es : List StreamEvent) :
    EachState (fun s e t => s.step e = some t) Exact s es ↔
      EachStep (fun s e t => s.step e = some t) NotOvertaken s es :=
  eachState_iff_eachStep (fun _ h => h.1) (fun _ _ _ hstep h hok => h.step hok hstep) (fun _ _ _ hstep h ht => h.needs hstep ht)
    hs.sound

/-! ## A send that is overtaken -/

def firstStream : SseStream :=
  { last := 1, after := 0, lastSent := 0, replaying := true, buffered := [], start := .loadPage 0, main := .idle
    live := .idle, enqueued := [] }

theorem firstStream_opened : firstStream.Opened := ⟨rfl, rfl, rfl, rfl, rfl, rfl, rfl⟩

/-- The bus loses event 2, and event 3 comes during the replay. While the drain waits for event 2,
event 4 comes and is sent with everything before it. -/
def overtaken : List StreamEvent :=
  [.main, .main, .append, .append, .message [3], .main, .main, .append, .message [4], .live, .live, .main]

theorem overtaken_send_is_repeated :
    firstStream.Opened ∧
      (∃ s : SseStream, Run (fun s e t => s.step e = some t) firstStream overtaken s ∧
        s.enqueued = [1, 2, 3, 4, 3] ∧ s.lastSent = 3) ∧
      ¬ EachState (fun s e t => s.step e = some t) Exact firstStream overtaken := by
  have hplay : ∃ s ∈ play step firstStream overtaken, s.after = 0 ∧ s.enqueued = [1, 2, 3, 4, 3] ∧ s.lastSent = 3 := by
    decide +kernel
  obtain ⟨s, hs, hafter, henqueued, hsent⟩ := hplay
  refine ⟨firstStream_opened, ⟨s, run_of_play hs, henqueued, hsent⟩, ?_⟩
  intro hexact
  have hlast := (hexact overtaken [] s (List.append_nil _).symm (run_of_play hs)).lastSent
  rw [hafter, henqueued, hsent] at hlast
  exact absurd hlast (by decide)

def patient : List StreamEvent :=
  [.main, .main, .append, .append, .message [3], .main, .main, .main, .append, .message [4, 3, 4], .live, .live, .live]

theorem patient_stream_is_exact :
    EachState (fun s e t => s.step e = some t) Exact firstStream patient ∧
      ∃ s : SseStream, Run (fun s e t => s.step e = some t) firstStream patient s ∧ s.enqueued = [1, 2, 3, 4] := by
  have hplay : ∃ s ∈ play (guarded step NotOvertaken) firstStream patient, s.enqueued = [1, 2, 3, 4] := by
    decide +kernel
  obtain ⟨s, hs, henqueued⟩ := hplay
  exact ⟨(stream_is_exact_iff firstStream_opened patient).2 (eachStep_of_guarded hs), s, (guarded_run hs).unrestrict,
    henqueued⟩

end SseStream

end OpenGeni.Stream
