/-
The compact form of a window of the log (`packages/events/src/coalesce.ts`).

Consecutive deltas of one turn, and for sandbox output of one command, stream and operation, become
one event. It has the identity of the first of them, all of their texts and, as `coalescedUntil`,
the sequence of the last.
-/
import OpenGeni.Stream.SessionEvent

namespace OpenGeni.Stream

open OpenGeni.Lib

/-! ## Events as they are read -/

abbrev Payload := Json ℚ String

abbrev LogEvent := SessionEvent ℚ String

/-- `event.turnId ?? null`. -/
def LogEvent.turn (event : LogEvent) : Option String := event.turnId.join

def isCoalescibleDelta (event : LogEvent) : Bool :=
  event.type = .agentMessageDelta || event.type = .agentReasoningDelta || event.type = .sandboxCommandOutputDelta

def reasoningText (payload : Payload) : String := match Json.asString (payload.member "text") with
  | some text => text
  | none =>
    let rawItem := (payload.member "item").bind fun item => item.member "rawItem"
    match rawItem.bind fun item => item.member "content" with
    | some (.array content) =>
      String.join <| content.map fun part => (Json.asString (part.member "text")).getD ""
    | _ => ""

/-- `deltaText`. The later keys of sandbox output are older shapes. -/
def deltaText (event : LogEvent) : String := let string := fun name => Json.asString (event.payload.member name)
  if event.type = .agentReasoningDelta then
    reasoningText event.payload
  else if event.type = .sandboxCommandOutputDelta then
    (((string "chunk").or (string "text")).or (string "output")).getD ""
  else
    (string "text").getD ""

/-- `isSandbox ? sandboxDeltaName(…) : undefined`, and the same of the other two fields. -/
def sandboxDeltaString (event : LogEvent) (name : String) : Option String :=
  if event.type = .sandboxCommandOutputDelta then
    Json.asString (event.payload.member name)
  else
    none

/-! ## Runs -/

structure DeltaRun where
  first : LogEvent
  lastSequence : ℕ
  text : String
  sandboxName : Option String
  sandboxStream : Option String
  sandboxCommandId : Option String

def startRun (event : LogEvent) : DeltaRun :=
  { first := event, lastSequence := event.sequence, text := deltaText event
    sandboxName := sandboxDeltaString event "name", sandboxStream := sandboxDeltaString event "stream"
    sandboxCommandId := sandboxDeltaString event "commandId" }

def sameDeltaRun (first next : LogEvent) (firstSandboxName nextSandboxName : Option String) : Bool :=
  if first.type ≠ next.type then
    false
  else if first.turn ≠ next.turn then
    false
  else
    first.type ≠ .sandboxCommandOutputDelta || firstSandboxName = nextSandboxName

def DeltaRun.joins (run : DeltaRun) (event : LogEvent) : Bool :=
  sameDeltaRun run.first event run.sandboxName (sandboxDeltaString event "name") &&
    run.sandboxStream = sandboxDeltaString event "stream" &&
    run.sandboxCommandId = sandboxDeltaString event "commandId"

def DeltaRun.extend (run : DeltaRun) (event : LogEvent) : DeltaRun :=
  { run with text := run.text ++ deltaText event, lastSequence := event.sequence }

def definedMember (name : String) (value : Option String) : List (String × Payload) :=
  (value.map fun s => (name, Json.string s)).toList

def DeltaRun.event (run : DeltaRun) : LogEvent := { run.first with
    payload := if run.first.type = .sandboxCommandOutputDelta then
        .object <|
          [("chunk", .string run.text), ("coalescedUntil", .number run.lastSequence)] ++
            definedMember "stream" run.sandboxStream ++
            definedMember "commandId" run.sandboxCommandId ++ definedMember "name" run.sandboxName
      else
        .object [("text", .string run.text), ("coalescedUntil", .number run.lastSequence)] }

/-! ## The loop -/

structure Coalescer where
  coalesced : List LogEvent := []
  run : Option DeltaRun := none

def Coalescer.flush (s : Coalescer) : Coalescer := match s.run with
  | none => s
  | some run => { coalesced := s.coalesced ++ [run.event], run := none }

def coalesceEvent (s : Coalescer) (event : LogEvent) : Coalescer := if !isCoalescibleDelta event then
    { s.flush with coalesced := s.flush.coalesced ++ [event] }
  else
    match s.run with
    | none => { s.flush with run := some (startRun event) }
    | some run =>
      if run.joins event then
        { s with run := some (run.extend event) }
      else
        { s.flush with run := some (startRun event) }

def coalesceSessionEventDeltas (events : List LogEvent) : List LogEvent :=
  (events.foldl coalesceEvent {}).flush.coalesced

/-! ## What becomes of a window -/

inductive IsRun : List LogEvent → DeltaRun → Prop
  | start {event : LogEvent} (h : isCoalescibleDelta event = true) :
      IsRun [event] (startRun event)
  | extend {events : List LogEvent} {run : DeltaRun} {event : LogEvent} (h : IsRun events run)
      (hdelta : isCoalescibleDelta event = true) (hjoins : run.joins event = true) :
      IsRun (events ++ [event]) (run.extend event)

/-- A window and its compact form: runs become events, other events stay. -/
inductive Compacts : List LogEvent → List LogEvent → Prop
  | nil : Compacts [] []
  | keep {events compact : List LogEvent} {event : LogEvent} (h : Compacts events compact)
      (hother : isCoalescibleDelta event = false) : Compacts (events ++ [event]) (compact ++ [event])
  | run {events compact deltas : List LogEvent} {run : DeltaRun} (h : Compacts events compact)
      (hrun : IsRun deltas run) : Compacts (events ++ deltas) (compact ++ [run.event])

variable {events deltas : List LogEvent} {run : DeltaRun} {event : LogEvent}

/-! ## Runs in detail -/

theorem DeltaRun.of_joins (h : run.joins event = true) : event.type = run.first.type ∧ event.turn = run.first.turn ∧
      (run.first.type = .sandboxCommandOutputDelta → sandboxDeltaString event "name" = run.sandboxName) := by
  have hsame := (Bool.and_eq_true_iff.1 (Bool.and_eq_true_iff.1 h).1).1
  unfold sameDeltaRun at hsame
  split_ifs at hsame with htype hturn
  refine ⟨(not_not.1 htype).symm, (not_not.1 hturn).symm, fun hsandbox => ?_⟩
  simp only [hsandbox, ne_eq, not_true_eq_false, decide_false, Bool.false_or, decide_eq_true_eq] at hsame
  exact hsame.symm

namespace IsRun

theorem head (h : IsRun deltas run) : ∃ rest, deltas = run.first :: rest := by
  induction h with
  | start h => exact ⟨[], rfl⟩
  | @extend deltas run event h hdelta hjoins ih =>
    obtain ⟨rest, hrest⟩ := ih
    exact ⟨rest ++ [event], by rw [hrest, DeltaRun.extend, List.cons_append]⟩

theorem mem (h : IsRun deltas run) (hevent : event ∈ deltas) :
    isCoalescibleDelta event = true ∧ event.type = run.first.type ∧ event.turn = run.first.turn := by
  induction h with
  | start h =>
    rw [List.mem_singleton] at hevent
    subst hevent
    exact ⟨h, rfl, rfl⟩
  | extend h hdelta hjoins ih =>
    rw [List.mem_append, List.mem_singleton] at hevent
    cases hevent with
    | inl hevent => exact ih hevent
    | inr hevent =>
      subst hevent
      exact ⟨hdelta, (DeltaRun.of_joins hjoins).1, (DeltaRun.of_joins hjoins).2.1⟩

theorem name (h : IsRun deltas run) : run.sandboxName = sandboxDeltaString run.first "name" := by
  induction h with
  | start h => rfl
  | extend h hdelta hjoins ih => exact ih

end IsRun

theorem isCoalescibleDelta_iff : isCoalescibleDelta event = true ↔
    event.type = .agentMessageDelta ∨ event.type = .agentReasoningDelta ∨
      event.type = .sandboxCommandOutputDelta := by
  simp only [isCoalescibleDelta, Bool.or_eq_true, decide_eq_true_eq, or_assoc]

theorem IsRun.delta (h : IsRun deltas run) : isCoalescibleDelta run.first = true := by
  obtain ⟨rest, hrest⟩ := h.head
  exact (h.mem (hrest ▸ List.mem_cons_self)).1

theorem IsRun.deltaText_event (h : IsRun deltas run) : deltaText run.event = run.text := by
  rcases isCoalescibleDelta_iff.1 h.delta with htype | htype | htype
  all_goals
    simp only [deltaText, DeltaRun.event, htype]
    rfl

theorem IsRun.sandboxName_event (h : IsRun deltas run) : sandboxDeltaString run.event "name" = run.sandboxName := by
  by_cases htype : run.first.type = .sandboxCommandOutputDelta
  · unfold sandboxDeltaString DeltaRun.event
    simp only [htype, if_true]
    cases run.sandboxStream <;> cases run.sandboxCommandId <;> cases run.sandboxName <;> rfl
  · rw [h.name]
    unfold sandboxDeltaString DeltaRun.event
    simp only [htype, if_false]

/-! ## The compact form of a window -/

/-- The loop's state after a window: what was written, and the run that is open. -/
inductive Coalescer.Holds : List LogEvent → Coalescer → Prop
  | closed {events compact : List LogEvent} (h : Compacts events compact) :
      Holds events { coalesced := compact, run := none }
  | opened {events compact deltas : List LogEvent} {run : DeltaRun} (h : Compacts events compact)
      (hrun : IsRun deltas run) : Holds (events ++ deltas) { coalesced := compact, run := some run }

namespace Coalescer.Holds

variable {s : Coalescer}

theorem flush (h : Holds events s) : Compacts events s.flush.coalesced ∧ s.flush.run = none := by
  cases h with
  | closed h => exact ⟨h, rfl⟩
  | opened h hrun => exact ⟨h.run hrun, rfl⟩

theorem start (h : Holds events s) (hdelta : isCoalescibleDelta event = true) :
    Holds (events ++ [event]) { s.flush with run := some (startRun event) } :=
  .opened h.flush.1 (.start hdelta)

theorem step (h : Holds events s) (event : LogEvent) : Holds (events ++ [event]) (coalesceEvent s event) := by
  unfold coalesceEvent
  cases hdelta : isCoalescibleDelta event with
  | false =>
    have hclosed := Holds.closed (h.flush.1.keep hdelta)
    rw [← h.flush.2] at hclosed
    exact hclosed
  | true =>
    cases h with
    | closed h => exact start (.closed h) hdelta
    | @opened before compact deltas run h hrun =>
      by_cases hjoins : run.joins event = true
      · simp only [Bool.not_true, Bool.false_eq_true, if_false, hjoins, if_true]
        rw [List.append_assoc]
        exact .opened h (hrun.extend hdelta hjoins)
      · simp only [Bool.not_true, Bool.false_eq_true, if_false, hjoins]
        exact start (.opened h hrun) hdelta

theorem loop (h : Holds events s) (more : List LogEvent) : Holds (events ++ more) (more.foldl coalesceEvent s) := by
  induction more generalizing events s with
  | nil =>
    rw [List.append_nil]
    exact h
  | cons event more ih =>
    rw [List.append_cons]
    exact ih (h.step event)

end Coalescer.Holds

theorem compacts_coalesce (events : List LogEvent) : Compacts events (coalesceSessionEventDeltas events) :=
  ((Coalescer.Holds.closed .nil).loop events).flush.1

/-! ## Windows in order -/

def Ascending (events : List LogEvent) : Prop := events.Pairwise fun a b => a.sequence < b.sequence

variable {compact : List LogEvent}

theorem Ascending.inj (h : Ascending events) {a b : LogEvent} (ha : a ∈ events) (hb : b ∈ events)
    (heq : a.sequence = b.sequence) : a = b := by
  have hnodup : (events.map fun event => event.sequence).Nodup :=
    List.pairwise_map.2 (h.imp fun hlt => Nat.ne_of_lt hlt)
  exact List.inj_on_of_nodup_map hnodup ha hb heq

theorem Ascending.left (h : Ascending (events ++ deltas)) : Ascending events := (List.pairwise_append.1 h).1

theorem Ascending.right (h : Ascending (events ++ deltas)) : Ascending deltas := (List.pairwise_append.1 h).2.1

theorem Ascending.first_le (hdeltas : Ascending deltas) (h : IsRun deltas run)
    (hevent : event ∈ deltas) : run.first.sequence ≤ event.sequence := by
  obtain ⟨rest, rfl⟩ := h.head
  cases List.mem_cons.1 hevent with
  | inl heq => rw [heq]
  | inr hmem => exact Nat.le_of_lt ((List.pairwise_cons.1 hdeltas).1 event hmem)

theorem sequences_compacts (h : Compacts events compact) :
    (compact.map fun event => event.sequence).Sublist (events.map fun event => event.sequence) := by
  induction h with
  | nil => exact .refl _
  | keep h hother ih =>
    rw [List.map_append, List.map_append]
    exact ih.append (.refl _)
  | run h hrun ih =>
    obtain ⟨rest, rfl⟩ := hrun.head
    rw [List.map_append, List.map_append]
    exact ih.append (List.singleton_sublist.2 List.mem_cons_self)

theorem Ascending.compacts (hevents : Ascending events) (h : Compacts events compact) : Ascending compact := by
  have hsequences : (events.map fun event => event.sequence).Pairwise (· < ·) := List.pairwise_map.2 hevents
  exact List.pairwise_map.1 (hsequences.sublist (sequences_compacts h))

/-! ## Ranges -/

/-- `coalescedUntil` of an event that stands for a run. -/
def coalescedUntil (event : LogEvent) : Option ℕ := if isCoalescibleDelta event then
    match event.payload.member "coalescedUntil" with
    | some (.number n) => some n.floor.toNat
    | _ => none
  else
    none

def coveredUntil (event : LogEvent) : ℕ := (coalescedUntil event).getD event.sequence

def CoversSequence (event : LogEvent) (n : ℕ) : Prop := event.sequence ≤ n ∧ n ≤ coveredUntil event

def Consecutive (events : List LogEvent) : Prop :=
  ∃ first, events.map (fun event => event.sequence) = List.range' first events.length

def IsLog (log : List LogEvent) : Prop := log.map (fun event => event.sequence) = List.range' 1 log.length

theorem Consecutive.left (h : Consecutive (events ++ deltas)) : Consecutive events := by
  obtain ⟨first, h⟩ := h
  rw [List.map_append, List.length_append, ← List.range'_append_1] at h
  exact ⟨first, (List.append_inj h (by simp)).1⟩

theorem Consecutive.right (h : Consecutive (events ++ deltas)) : Consecutive deltas := by
  obtain ⟨first, h⟩ := h
  rw [List.map_append, List.length_append, ← List.range'_append_1] at h
  exact ⟨_, (List.append_inj h (by simp)).2⟩

theorem IsLog.consecutive {log : List LogEvent} (h : IsLog log) (hwindow : events <:+: log) :
    Consecutive events := by
  obtain ⟨before, after, rfl⟩ := hwindow
  have hlog : Consecutive (before ++ events ++ after) := ⟨1, h⟩
  exact hlog.left.right

theorem Consecutive.ascending (h : Consecutive events) : Ascending events := by
  obtain ⟨first, h⟩ := h
  have hlt := List.pairwise_lt_range' (s := first) (n := events.length)
  rw [← h] at hlt
  exact List.pairwise_map.1 hlt

theorem IsRun.last (h : IsRun deltas run) :
    ∃ init last, deltas = init ++ [last] ∧ last.sequence = run.lastSequence := by
  cases h with
  | start h => exact ⟨[], _, rfl, rfl⟩
  | extend h hdelta hjoins => exact ⟨_, _, rfl, rfl⟩

theorem coveredUntil_run (h : IsRun deltas run) : coveredUntil run.event = run.lastSequence := by
  have hdelta : isCoalescibleDelta run.event = true := h.delta
  have hmember : run.event.payload.member "coalescedUntil" = some (.number run.lastSequence) := by
    unfold DeltaRun.event
    split <;> rfl
  have hfloor : (run.lastSequence : ℚ).floor = run.lastSequence := Rat.floor_intCast run.lastSequence
  rw [coveredUntil, coalescedUntil, if_pos hdelta, hmember]
  dsimp only
  rw [hfloor, Int.toNat_natCast]
  rfl

theorem coveredUntil_other (h : isCoalescibleDelta event = false) : coveredUntil event = event.sequence := by
  rw [coveredUntil, coalescedUntil, h]
  rfl

theorem covers_run (h : IsRun deltas run) (hdeltas : Consecutive deltas) (n : ℕ) :
    CoversSequence run.event n ↔ ∃ event ∈ deltas, event.sequence = n := by
  obtain ⟨rest, hhead⟩ := h.head
  obtain ⟨init, last, htail, hlast⟩ := h.last
  obtain ⟨first, hsequences⟩ := hdeltas
  have hmem : (∃ event ∈ deltas, event.sequence = n) ↔ first ≤ n ∧ n < first + deltas.length := by
    rw [← List.mem_map, hsequences, List.mem_range'_1]
  have hfirst : run.first.sequence = first := by
    rw [hhead, List.map_cons, List.length_cons, List.range'_succ] at hsequences
    exact (List.cons_eq_cons.1 hsequences).1
  have hend : last.sequence + 1 = first + deltas.length := by
    rw [htail, List.map_append, List.length_append, ← List.range'_append_1] at hsequences
    have hlast' := (List.append_inj hsequences (by simp)).2
    have hlast'' : last.sequence = first + init.length := by
      simpa using (List.cons_eq_cons.1 hlast').1
    rw [htail, List.length_append, List.length_singleton]
    omega
  rw [hmem, CoversSequence, coveredUntil_run h, ← hlast]
  have hsequence : run.event.sequence = run.first.sequence := rfl
  omega

/-- The events of `compact` stand for those of `events`: their ranges ascend, and hold the sequences
of these events and no others. -/
structure Covers (compact events : List LogEvent) : Prop where
  nonempty : ∀ c ∈ compact, c.sequence ≤ coveredUntil c
  disjoint : compact.Pairwise fun c d => coveredUntil c < d.sequence
  exact : ∀ n, (∃ c ∈ compact, CoversSequence c n) ↔ ∃ event ∈ events, event.sequence = n

theorem Covers.snoc {more : List LogEvent} (h : Covers compact events)
    (hascending : Ascending (events ++ more)) (hmore : more ≠ [])
    (hevent : ∀ n, CoversSequence event n ↔ ∃ e ∈ more, e.sequence = n) :
    Covers (compact ++ [event]) (events ++ more) := by
  obtain ⟨e, he⟩ := List.exists_mem_of_ne_nil more hmore
  have hrange := (hevent e.sequence).2 ⟨e, he, rfl⟩
  have hself : event.sequence ≤ coveredUntil event := hrange.1.trans hrange.2
  constructor
  · intro c hc
    rw [List.mem_append, List.mem_singleton] at hc
    cases hc with
    | inl hc => exact h.nonempty c hc
    | inr hc => rw [hc]; exact hself
  · rw [List.pairwise_append]
    refine ⟨h.disjoint, List.pairwise_singleton _ _, fun c hc d hd => ?_⟩
    rw [List.mem_singleton.1 hd]
    obtain ⟨a, ha, heqa⟩ := (h.exact (coveredUntil c)).1 ⟨c, hc, h.nonempty c hc, Nat.le_refl _⟩
    obtain ⟨b, hb, heqb⟩ := (hevent event.sequence).1 ⟨Nat.le_refl _, hself⟩
    have hlt := (List.pairwise_append.1 hascending).2.2 a ha b hb
    omega
  · intro n
    constructor
    · rintro ⟨c, hc, hn⟩
      rw [List.mem_append, List.mem_singleton] at hc
      cases hc with
      | inl hc =>
        obtain ⟨a, ha, heq⟩ := (h.exact n).1 ⟨c, hc, hn⟩
        exact ⟨a, List.mem_append_left _ ha, heq⟩
      | inr hc =>
        obtain ⟨a, ha, heq⟩ := (hevent n).1 (hc ▸ hn)
        exact ⟨a, List.mem_append_right _ ha, heq⟩
    · rintro ⟨a, ha, heq⟩
      cases List.mem_append.1 ha with
      | inl ha =>
        obtain ⟨c, hc, hn⟩ := (h.exact n).2 ⟨a, ha, heq⟩
        exact ⟨c, List.mem_append_left _ hc, hn⟩
      | inr ha =>
        exact ⟨event, List.mem_append_right _ List.mem_cons_self, (hevent n).2 ⟨a, ha, heq⟩⟩

/-- **The ranges of a compact window.** -/
theorem covers_compacts (h : Compacts events compact) (hevents : Consecutive events) : Covers compact events := by
  induction h with
  | nil => exact ⟨List.forall_mem_nil _, .nil, fun n => by simp⟩
  | @keep events compact event h hother ih =>
    refine (ih hevents.left).snoc hevents.ascending (List.cons_ne_nil _ _) fun n => ?_
    rw [CoversSequence, coveredUntil_other hother]
    constructor
    · rintro ⟨hle, hge⟩
      exact ⟨event, List.mem_cons_self, Nat.le_antisymm hle hge⟩
    · rintro ⟨e, he, rfl⟩
      rw [List.mem_singleton.1 he]
      exact ⟨Nat.le_refl _, Nat.le_refl _⟩
  | @run events compact deltas run h hrun ih =>
    have hne : deltas ≠ [] := by
      obtain ⟨rest, hrest⟩ := hrun.head
      rw [hrest]
      exact List.cons_ne_nil _ _
    exact (ih hevents.left).snoc hevents.ascending hne (covers_run hrun hevents.right)

end OpenGeni.Stream
