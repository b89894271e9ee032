/-
The batcher of runtime events
(`apps/worker/src/activities/streaming.ts`, `createRuntimeBatcher`).

Flushes are serialized: a flush that finds one in flight waits for it and then starts over,
whether that one was resolved or rejected. So every event is in one batch and the batches are in
the order of the pushes. A batch that is rejected rejects the call whose flush has started it, and
no other. If that was the trailing timer's flush, nobody hears of it (`batcher_delivers_iff`).

A promise that settles makes the flushes behind it runnable; they run in any order, between any
other calls.
-/
import OpenGeni.Lib.Run

namespace OpenGeni.Worker

open OpenGeni.Lib

/-! ## The batcher -/

structure BatchedEvent (P : Type*) where
  type : String
  payload : P

def structural : List String :=
  ["terminal.pty.output.delta", "agent.toolCall.created", "agent.toolCall.output", "agent.message.completed",
    "tool.auth_needed", "session.requiresAction", "turn.completed", "turn.failed", "turn.cancelled"]

inductive BatcherCallKind
  | push | flush | trailingTimer
deriving DecidableEq

/-- A call of `push` or `flush`, or the flush of the timer. -/
structure BatcherCall where
  id : ℕ
  kind : BatcherCallKind
  /-- How many events had been pushed, its own included. -/
  pushedBefore : ℕ

def BatcherCall.byCaller (call : BatcherCall) : Bool := call.kind != .trailingTimer

/-- A batch in the hands of `flushEvents`, with the call whose flush has started it. -/
structure Batch (P : Type*) where
  events : List (BatchedEvent P)
  owner : BatcherCall

structure Batcher (P : Type*) where
  pushed : List (BatchedEvent P)
  pending : List (BatchedEvent P)
  lastFlush : ℕ
  /-- `trailingTimer` is set. -/
  timerArmed : Bool
  inFlight : Option (Batch P)
  waiting : List BatcherCall
  /-- The flushes whose promise has settled, and that are to start over. -/
  runnable : List BatcherCall
  calls : ℕ
  /-- The batches that were handed over, and which of them have settled how. -/
  handed : List (Batch P)
  outcomes : List (Batch P × Bool)
  /-- The calls that are resolved (`true`) or rejected. -/
  settled : List (BatcherCall × Bool)

inductive BatcherEvent (P : Type*)
  | push (event : BatchedEvent P) (now : ℕ)
  | flush (now : ℕ)
  | timer (now : ℕ)
  /-- `flushEvents` settles. -/
  | settle (resolved : Bool)
  | startOver (index now : ℕ)

namespace Batcher

variable {P : Type*}

/-- `flush()`, for a call. -/
def flush (call : BatcherCall) (now : ℕ) (s : Batcher P) : Batcher P :=
  if s.inFlight.isSome then { s with waiting := s.waiting ++ [call] }
  else if s.pending.isEmpty then { s with settled := s.settled ++ [(call, true)] }
  else
    let batch : Batch P :=
      { events := s.pending, owner := call }
    { s with
      pending := []
      lastFlush := now
      timerArmed := false
      inFlight := some batch
      handed := s.handed ++ [batch] }

def newCall (kind : BatcherCallKind) (s : Batcher P) : BatcherCall :=
  { id := s.calls, kind, pushedBefore := s.pushed.length }

def push (event : BatchedEvent P) (now : ℕ) (s : Batcher P) : Batcher P :=
  let s := { s with pushed := s.pushed ++ [event], pending := s.pending ++ [event] }
  let call := s.newCall .push
  let s := { s with calls := s.calls + 1 }
  if 50 ≤ s.pending.length ∨ 33 ≤ now - s.lastFlush ∨ structural.contains event.type then s.flush call now
  else { s with timerArmed := true, settled := s.settled ++ [(call, true)] }

/-- A call of `flush`, or of the timer. -/
def callFlush (kind : BatcherCallKind) (now : ℕ) (s : Batcher P) : Batcher P :=
  { s with calls := s.calls + 1 }.flush (s.newCall kind) now

def settle (resolved : Bool) (batch : Batch P) (s : Batcher P) : Batcher P := { s with
    inFlight := none
    waiting := []
    runnable := s.runnable ++ s.waiting
    outcomes := s.outcomes ++ [(batch, resolved)]
    settled := s.settled ++ [(batch.owner, resolved)] }

def step (s : Batcher P) : BatcherEvent P → Option (Batcher P)
  | .push event now => some (s.push event now)
  | .flush now => some (s.callFlush .flush now)
  | .timer now => if s.timerArmed then some ({ s with timerArmed := false }.callFlush .trailingTimer now) else none
  | .settle resolved => s.inFlight.map fun batch => s.settle resolved batch
  | .startOver index now =>
    s.runnable[index]?.map fun call => { s with runnable := s.runnable.eraseIdx index }.flush call now

def created (now : ℕ) : Batcher P :=
  { pushed := [], pending := [], lastFlush := now, timerArmed := false, inFlight := none, waiting := []
    runnable := [], calls := 0, handed := [], outcomes := [], settled := [] }

/-! ## What is to be delivered -/

def handedOver (s : Batcher P) : List (BatchedEvent P) := (s.handed.map (·.events)).flatten

/-- All batches but the one in flight have settled, they are the pushed
events in their order, a call of `flush` that is settled has handed over what was pushed before,
and a rejected batch rejects a call of a caller. -/
structure Delivers (s : Batcher P) : Prop where
  serialized : s.handed = s.outcomes.map Prod.fst ++ s.inFlight.toList
  ordered : s.handedOver <+: s.pushed
  flushed : ∀ e ∈ s.settled, e.1.kind = .flush → s.pushed.take e.1.pushedBefore <+: s.handedOver
  heard : ∀ e ∈ s.outcomes, e.2 = false → e.1.owner.byCaller = true ∧ (e.1.owner, false) ∈ s.settled

/-- A batch is rejected only where a caller's flush has started it. -/
def HasListener (s : Batcher P) : BatcherEvent P → Prop
  | .settle resolved => resolved = false → ∀ batch ∈ s.inFlight, batch.owner.byCaller = true
  | _ => True

instance (s : Batcher P) : DecidablePred s.HasListener
  | .settle _ => inferInstanceAs (Decidable (_ → ∀ _ ∈ _, _))
  | .push _ _ => .isTrue trivial
  | .flush _ => .isTrue trivial
  | .timer _ => .isTrue trivial
  | .startOver _ _ => .isTrue trivial

/-! ## The invariant -/

structure Books (s : Batcher P) : Prop where
  serialized : s.handed = s.outcomes.map Prod.fst ++ s.inFlight.toList
  split : s.handedOver ++ s.pending = s.pushed
  waiting : ∀ call ∈ s.waiting ++ s.runnable, call.pushedBefore ≤ s.pushed.length
  owner : ∀ batch ∈ s.inFlight, batch.owner.pushedBefore ≤ s.handedOver.length
  settled : ∀ e ∈ s.settled, e.1.kind ≠ .push → e.1.pushedBefore ≤ s.handedOver.length

def Heard (s : Batcher P) : Prop :=
  ∀ e ∈ s.outcomes, e.2 = false → e.1.owner.byCaller = true ∧ (e.1.owner, false) ∈ s.settled

section

variable {s t : Batcher P} {call : BatcherCall} {now : ℕ}

theorem Books.flush (h : s.Books) (hcall : call.pushedBefore ≤ s.pushed.length) : (s.flush call now).Books := by
  unfold Batcher.flush
  split
  · refine ⟨h.serialized, h.split, ?_, h.owner, h.settled⟩
    intro other hmem
    rcases List.mem_append.1 hmem with hwaiting | hrunnable
    · rcases List.mem_append.1 hwaiting with hbefore | hlast
      · exact h.waiting other (List.mem_append_left _ hbefore)
      · rw [List.mem_singleton.1 hlast]
        exact hcall
    · exact h.waiting other (List.mem_append_right _ hrunnable)
  case isFalse hidle =>
    have hnone : s.inFlight = none := Option.not_isSome_iff_eq_none.1 hidle
    have hlength : s.handedOver.length + s.pending.length = s.pushed.length := by
      rw [← List.length_append, h.split]
    split
    case isTrue hempty =>
      -- everything has been handed over
      refine ⟨h.serialized, h.split, h.waiting, h.owner, ?_⟩
      intro e hmem hkind
      rcases List.mem_append.1 hmem with hbefore | hlast
      · exact h.settled e hbefore hkind
      · rw [List.mem_singleton.1 hlast]
        have hzero : s.pending.length = 0 := by rw [List.isEmpty_iff.1 hempty, List.length_nil]
        have hsame : handedOver { s with settled := s.settled ++ [(call, true)] } = s.handedOver := rfl
        rw [hsame]
        dsimp only
        omega
    case isFalse hsome =>
      have hover : ((s.handed ++ [({ events := s.pending, owner := call } : Batch P)]).map (·.events)).flatten = s.pushed := by
        rw [List.map_append, List.flatten_append, ← h.split]
        unfold handedOver
        simp
      refine ⟨?_, ?_, h.waiting, ?_, ?_⟩
      · rw [h.serialized, hnone]
        simp
      · unfold handedOver
        rw [hover]
        exact List.append_nil _
      · rintro batch ⟨⟩
        unfold handedOver
        rw [hover]
        exact hcall
      · intro e hmem hkind
        unfold handedOver
        rw [hover]
        have hbefore := h.settled e hmem hkind
        omega

theorem heard_flush (h : s.Heard) : (s.flush call now).Heard := by
  unfold Batcher.flush
  split
  · exact h
  · split
    · intro e hmem hrejected
      obtain ⟨howner, hsettled⟩ := h e hmem hrejected
      exact ⟨howner, List.mem_append_left _ hsettled⟩
    · exact h

theorem Books.push (h : s.Books) (event : BatchedEvent P) (now : ℕ) : (s.push event now).Books := by
  have hpushed : Books { s with pushed := s.pushed ++ [event], pending := s.pending ++ [event] } := by
    refine ⟨h.serialized, ?_, ?_, h.owner, h.settled⟩
    · have hsplit : s.handedOver ++ (s.pending ++ [event]) = s.pushed ++ [event] := by
        rw [← List.append_assoc, h.split]
      exact hsplit
    · intro other hmem
      have hbefore := h.waiting other hmem
      rw [List.length_append]
      omega
  unfold Batcher.push
  dsimp only
  split
  · have hcalls : Books { s with pushed := s.pushed ++ [event], pending := s.pending ++ [event], calls := s.calls + 1 } :=
      ⟨hpushed.serialized, hpushed.split, hpushed.waiting, hpushed.owner, hpushed.settled⟩
    exact hcalls.flush (le_refl _)
  · refine ⟨hpushed.serialized, hpushed.split, hpushed.waiting, hpushed.owner, ?_⟩
    intro e hmem hkind
    rcases List.mem_append.1 hmem with hbefore | hlast
    · exact hpushed.settled e hbefore hkind
    · rw [List.mem_singleton.1 hlast] at hkind
      exact absurd rfl hkind

theorem heard_push (h : s.Heard) (event : BatchedEvent P) (now : ℕ) : (s.push event now).Heard := by
  unfold Batcher.push
  dsimp only
  split
  · exact heard_flush h
  · intro e hmem hrejected
    obtain ⟨howner, hsettled⟩ := h e hmem hrejected
    exact ⟨howner, List.mem_append_left _ hsettled⟩

theorem Books.settle (h : s.Books) {batch : Batch P} (hbatch : s.inFlight = some batch) (resolved : Bool) :
    (s.settle resolved batch).Books := by
  refine ⟨?_, h.split, ?_, fun _ hmem => absurd hmem (Option.not_mem_none _), ?_⟩
  · unfold Batcher.settle
    rw [h.serialized, hbatch, List.map_append]
    simp
  · intro other hmem
    apply h.waiting other
    unfold Batcher.settle at hmem
    rw [List.nil_append] at hmem
    exact List.mem_append.2 (List.mem_append.1 hmem).symm
  · intro e hmem hkind
    rcases List.mem_append.1 hmem with hbefore | hlast
    · exact h.settled e hbefore hkind
    · rw [List.mem_singleton.1 hlast]
      exact h.owner batch hbatch

variable {e : BatcherEvent P}

theorem Books.step (h : s.Books) (hstep : s.step e = some t) : t.Books := by
  cases e with
  | push event now =>
    cases hstep
    exact h.push event now
  | flush now =>
    cases hstep
    have hcalls : Books { s with calls := s.calls + 1 } := ⟨h.serialized, h.split, h.waiting, h.owner, h.settled⟩
    exact hcalls.flush (le_refl _)
  | timer now =>
    unfold Batcher.step at hstep
    dsimp only at hstep
    split at hstep
    · cases hstep
      have hcalls : Books { s with timerArmed := false, calls := s.calls + 1 } :=
        ⟨h.serialized, h.split, h.waiting, h.owner, h.settled⟩
      exact hcalls.flush (le_refl _)
    · cases hstep
  | settle resolved =>
    obtain ⟨batch, hbatch, rfl⟩ := Option.map_eq_some_iff.1 hstep
    exact h.settle hbatch resolved
  | startOver index now =>
    obtain ⟨call, hcall, rfl⟩ := Option.map_eq_some_iff.1 hstep
    have hmem : call ∈ s.runnable := List.mem_of_getElem? hcall
    have hless : Books { s with runnable := s.runnable.eraseIdx index } := by
      refine ⟨h.serialized, h.split, ?_, h.owner, h.settled⟩
      intro other hother
      rcases List.mem_append.1 hother with hwaiting | hrunnable
      · exact h.waiting other (List.mem_append_left _ hwaiting)
      · exact h.waiting other (List.mem_append_right _ (List.mem_of_mem_eraseIdx hrunnable))
    exact hless.flush (h.waiting call (List.mem_append_right _ hmem))

theorem heard_step (h : s.Heard) (hok : s.HasListener e) (hstep : s.step e = some t) : t.Heard := by
  cases e with
  | push event now =>
    cases hstep
    exact heard_push h event now
  | flush now =>
    cases hstep
    exact heard_flush h
  | timer now =>
    unfold Batcher.step at hstep
    dsimp only at hstep
    split at hstep
    · cases hstep
      exact heard_flush h
    · cases hstep
  | settle resolved =>
    obtain ⟨batch, hbatch, rfl⟩ := Option.map_eq_some_iff.1 hstep
    intro e hmem hrejected
    rcases List.mem_append.1 hmem with hbefore | hlast
    · obtain ⟨howner, hsettled⟩ := h e hbefore hrejected
      exact ⟨howner, List.mem_append_left _ hsettled⟩
    · rw [List.mem_singleton.1 hlast] at hrejected ⊢
      obtain rfl : resolved = false := hrejected
      exact ⟨hok rfl batch hbatch, List.mem_append_right _ (List.mem_singleton.2 rfl)⟩
  | startOver index now =>
    obtain ⟨call, hcall, rfl⟩ := Option.map_eq_some_iff.1 hstep
    exact heard_flush h

theorem Books.delivers (h : s.Books) (hheard : s.Heard) : s.Delivers := by
  refine ⟨h.serialized, ⟨s.pending, h.split⟩, ?_, hheard⟩
  intro e hmem hkind
  have hle := h.settled e hmem (by rw [hkind]; decide)
  rw [← h.split, List.take_append_of_le_length hle]
  exact List.take_prefix _ _

theorem hasListener_of_heard (hstep : s.step e = some t) (ht : t.Heard) : s.HasListener e := by
  cases e with
  | settle resolved =>
    rintro rfl batch hbatch
    obtain ⟨other, hother, rfl⟩ := Option.map_eq_some_iff.1 hstep
    obtain rfl : other = batch := Option.some.inj (hother.symm.trans hbatch)
    exact (ht (other, false) (List.mem_append_right _ (List.mem_singleton.2 rfl)) rfl).1
  | _ => trivial

end

theorem created_books (now : ℕ) : (created now : Batcher P).Books := by
  refine ⟨rfl, rfl, List.forall_mem_nil _, fun _ hmem => absurd hmem (Option.not_mem_none _), ?_⟩
  exact List.forall_mem_nil _

end Batcher

/-- **The batcher delivers on the way** exactly if no batch is rejected that the timer has started. -/
theorem batcher_delivers_iff {P : Type*} (now : ℕ) (es : List (BatcherEvent P)) :
    EachState (fun s e t => s.step e = some t) Batcher.Delivers (.created now) es ↔
      EachStep (fun s e t => s.step e = some t) Batcher.HasListener (.created now) es :=
  eachState_iff_eachStep (P := fun s => s.Books ∧ s.Heard) (fun _ h => h.1.delivers h.2)
    (fun _ _ _ hstep h hok => ⟨h.1.step hstep, Batcher.heard_step h.2 hok hstep⟩)
    (fun _ _ _ hstep _ ht => Batcher.hasListener_of_heard hstep ht.heard)
    ⟨Batcher.created_books now, List.forall_mem_nil _⟩

/-! ## Nothing stays behind -/

namespace Batcher

/-- No timer is armed, no batch is out and no flush is to start over. -/
def Quiet {P : Type*} (s : Batcher P) : Prop := s.timerArmed = false ∧ s.inFlight = none ∧ s.runnable = []

/-- What is pending will be flushed by someone. -/
structure Attended {P : Type*} (s : Batcher P) : Prop where
  woken : s.pending ≠ [] → s.timerArmed = true ∨ s.waiting ≠ [] ∨ s.runnable ≠ []
  awaiting : s.waiting ≠ [] → s.inFlight.isSome

variable {P : Type*} {s t : Batcher P}

theorem attended_flush (call : BatcherCall) (now : ℕ) (h : s.waiting ≠ [] → s.inFlight.isSome) :
    (s.flush call now).Attended := by
  unfold flush
  split_ifs with hflight hpending
  · exact ⟨fun _ => .inr (.inl (List.append_ne_nil_of_right_ne_nil _ (List.cons_ne_nil _ _))), fun _ => hflight⟩
  · exact ⟨fun hne => absurd (List.isEmpty_iff.1 hpending) hne, h⟩
  · exact ⟨fun hne => absurd rfl hne, fun _ => rfl⟩

theorem Attended.step {e : BatcherEvent P} (h : s.Attended) (hstep : s.step e = some t) : t.Attended := by
  cases e with
  | push event now =>
    cases hstep
    unfold push
    dsimp only
    split_ifs
    · exact attended_flush _ now h.awaiting
    · exact ⟨fun _ => .inl rfl, h.awaiting⟩
  | flush now =>
    cases hstep
    exact attended_flush _ now h.awaiting
  | timer now =>
    rw [Batcher.step] at hstep
    split_ifs at hstep
    cases hstep
    exact attended_flush _ now h.awaiting
  | settle resolved =>
    obtain ⟨batch, -, rfl⟩ := Option.map_eq_some_iff.1 hstep
    refine ⟨fun hne => ?_, fun hne => absurd rfl hne⟩
    -- who waited for the batch starts over
    obtain htimer | hwaiting | hrunnable := h.woken hne
    · exact .inl htimer
    · exact .inr (.inr (List.append_ne_nil_of_right_ne_nil _ hwaiting))
    · exact .inr (.inr (List.append_ne_nil_of_left_ne_nil hrunnable _))
  | startOver index now =>
    obtain ⟨call, -, rfl⟩ := Option.map_eq_some_iff.1 hstep
    exact attended_flush call now h.awaiting

end Batcher

/-- **No event stays behind.** Whatever is pushed, flushed and rejected, in any order: where nothing is
left to run every pushed event was handed over. -/
theorem batcher_hands_over_all {P : Type*} (now : ℕ) (es : List (BatcherEvent P)) :
    EachState (fun s e t => s.step e = some t) (fun s : Batcher P => s.Quiet → s.handedOver = s.pushed) (.created now)
      es := by
  have hany : EachStep (fun (s : Batcher P) e t => s.step e = some t) (fun _ _ => True) (.created now) es :=
    fun _ _ _ _ _ _ _ _ => trivial
  refine eachState_of_eachStep (P := fun s => s.Books ∧ s.Attended) (fun s h hquiet => ?_)
    (fun _ _ _ hstep h _ => ⟨h.1.step hstep, h.2.step hstep⟩)
    ⟨Batcher.created_books now, fun hne => absurd rfl hne, fun hne => absurd rfl hne⟩ hany
  obtain ⟨htimer, hflight, hrunnable⟩ := hquiet
  have hpending : s.pending = [] := by
    by_contra hne
    obtain hwake | hwaiting | hrun := h.2.woken hne
    · exact absurd hwake (by rw [htimer]; decide)
    · exact absurd (h.2.awaiting hwaiting) (by simp [hflight])
    · exact hrun hrunnable
  rw [← h.1.split, hpending, List.append_nil]

/-! ## A rejection that nobody hears -/

def deltaEvent (text : String) : BatchedEvent String :=
  { type := "agent.message.delta", payload := text }

/-- A delta is left to the timer. Its batch is rejected, and the last flush finds nothing to do. -/
def trailingRejection : List (BatcherEvent String) :=
  [.push (deltaEvent "a") 1, .timer 34, .settle false, .flush 40]

theorem trailing_rejection_is_silent :
    (∃ s : Batcher String, Run (fun s e t => s.step e = some t) (.created 0) trailingRejection s ∧
      s.outcomes.map Prod.snd = [false] ∧ ∀ e ∈ s.settled, e.1.byCaller = true → e.2 = true) ∧
    ¬ EachState (fun s e t => s.step e = some t) Batcher.Delivers (.created 0) trailingRejection := by
  have hplay : ∃ s ∈ play Batcher.step (.created 0) trailingRejection,
      s.outcomes.map Prod.snd = [false] ∧ ∀ e ∈ s.settled, e.1.byCaller = true → e.2 = true := by decide +kernel
  obtain ⟨s, hs, houtcomes, hsettled⟩ := hplay
  refine ⟨⟨s, run_of_play hs, houtcomes, hsettled⟩, ?_⟩
  intro hdelivers
  have hheard := (hdelivers trailingRejection [] s (List.append_nil _).symm (run_of_play hs)).heard
  obtain ⟨e, he, hrejected⟩ : ∃ e ∈ s.outcomes, e.2 = false := by
    have hmem : false ∈ s.outcomes.map Prod.snd := houtcomes ▸ List.mem_singleton.2 rfl
    exact List.mem_map.1 hmem
  obtain ⟨hcaller, hmem⟩ := hheard e he hrejected
  exact Bool.false_ne_true (hsettled _ hmem hcaller)

end OpenGeni.Worker
