/-
The projection of a compact window.

The messages of users are moved to the starts of their turns before anything is projected. None is
moved into a run of deltas: it would have to stand before the first event of a turn, and a delta of
that turn stands before it. So the events are in the same order, runs apart, and what is projected
of them is the same.
-/
import OpenGeni.React.SameTimeline

namespace OpenGeni.React

open OpenGeni.Lib OpenGeni.Stream

variable {events compact deltas : List LogEvent} {run : DeltaRun} {event : LogEvent} {anchors : Anchors}

/-! ## The prescan -/

theorem sort_ascending (h : Ascending events) : sortBySequence events = events := by
  apply List.mergeSort_of_pairwise
  exact h.imp fun hlt => decide_eq_true (Nat.le_of_lt hlt)

theorem scanEvent_delta (h : isCoalescibleDelta event = true) :
    scanEvent anchors event = scanTurn anchors event := by
  rcases isCoalescibleDelta_iff.1 h with htype | htype | htype
  all_goals simp only [scanEvent, scanType, htype, reduceCtorEq, if_false]

theorem isAgentActivity_delta (h : isCoalescibleDelta event = true) :
    isAgentActivityEvent event.type = true ∧ event.type ≠ .turnQueued ∧
      event.type ≠ .turnCancelled := by
  rcases isCoalescibleDelta_iff.1 h with htype | htype | htype
  all_goals
    rw [htype]
    decide

theorem scanTurn_again {first : LogEvent} (hfirst : isCoalescibleDelta first = true)
    (htype : event.type = first.type) (hturn : event.turn = first.turn)
    (hle : first.sequence ≤ event.sequence) :
    scanTurn (scanTurn anchors first) event = scanTurn anchors first := by
  obtain ⟨hactivity, hqueued, hcancelled⟩ := isAgentActivity_delta hfirst
  cases hof : first.turn.filter (· ≠ "") with
  | none =>
    unfold scanTurn
    rw [hturn, hof]
  | some turn =>
    have hmin : ((scanTurn anchors first).fallbackSeqByTurn turn).all
        (fun previous => event.sequence < previous) = false := by
      rw [scanTurn, hof]
      dsimp only
      by_cases hnew : (anchors.fallbackSeqByTurn turn).all (fun p => first.sequence < p) = true
      · rw [if_pos ⟨hqueued, hcancelled, hnew⟩, Function.update_self]
        exact decide_eq_false (Nat.not_lt.2 hle)
      · rw [if_neg fun h => hnew h.2.2]
        cases hold : anchors.fallbackSeqByTurn turn with
        | none => exact absurd (by rw [hold]; rfl) hnew
        | some p =>
          rw [hold] at hnew
          have hp : ¬ first.sequence < p := fun hlt => hnew (decide_eq_true hlt)
          exact decide_eq_false (by omega)
    have hstarted : turn ∈ (scanTurn anchors first).startedTurnIds := by
      rw [scanTurn, hof]
      dsimp only
      rw [if_pos hactivity]
      exact List.mem_insert_self
    rw [scanTurn, hturn, hof]
    dsimp only
    rw [htype, if_pos hactivity, List.insert_of_mem hstarted, if_neg]
    rw [hmin]
    exact fun h => Bool.false_ne_true h.2.2

theorem foldl_scanEvent_run (h : IsRun deltas run) (hdeltas : Ascending deltas) :
    deltas.foldl scanEvent anchors = scanEvent anchors run.event := by
  have hrun {deltas : List LogEvent} {run : DeltaRun} (h : IsRun deltas run) :
      scanEvent anchors run.event = scanTurn anchors run.first := by
    have hdelta : isCoalescibleDelta run.event = true := h.delta
    rw [scanEvent_delta hdelta]
    rfl
  induction h with
  | start h => exact (scanEvent_delta h).trans (hrun (.start h)).symm
  | @extend deltas run event h hdelta hjoins ih =>
    have hfirst : run.first ∈ deltas := by
      obtain ⟨rest, hrest⟩ := h.head
      exact hrest ▸ List.mem_cons_self
    have hlt := (List.pairwise_append.1 hdeltas).2.2 _ hfirst _ List.mem_cons_self
    obtain ⟨htype, hturn, -⟩ := DeltaRun.of_joins hjoins
    rw [List.foldl_append, ih hdeltas.left, List.foldl_cons, List.foldl_nil,
      scanEvent_delta hdelta, hrun h, hrun (.extend h hdelta hjoins)]
    exact scanTurn_again h.delta htype hturn (Nat.le_of_lt hlt)

theorem foldl_scanEvent (h : Compacts events compact) (hevents : Ascending events) :
    events.foldl scanEvent anchors = compact.foldl scanEvent anchors := by
  induction h with
  | nil => rfl
  | keep h hother ih => rw [List.foldl_append, List.foldl_append, ih hevents.left]
  | run h hrun ih =>
    rw [List.foldl_append, List.foldl_append, ih hevents.left, foldl_scanEvent_run hrun hevents.right]
    rfl

/-- **The anchors of a window are those of its compact form.** -/
theorem prescan_compacts (h : Compacts events compact) (hevents : Ascending events) :
    prescanTurnAnchors compact = prescanTurnAnchors events := by
  rw [prescanTurnAnchors, prescanTurnAnchors, sort_ascending hevents,
    sort_ascending (hevents.compacts h), foldl_scanEvent h hevents]

/-! ## Where the prescan found a place -/

theorem startSeq_scanTurn : (scanTurn anchors event).startSeqByTrigger = anchors.startSeqByTrigger := by
  unfold scanTurn
  split <;> rfl

theorem fallbackSeq_scanType : (scanType anchors event).fallbackSeqByTurn = anchors.fallbackSeqByTurn := by
  unfold scanType
  split
  · rfl
  · split
    · split <;> rfl
    · split <;> rfl

theorem startSeq_scanType {trigger : String} {sequence : ℕ}
    (h : (scanType anchors event).startSeqByTrigger trigger = some sequence) :
    anchors.startSeqByTrigger trigger = some sequence ∨ event.type = .turnStarted ∧ event.sequence = sequence := by
  unfold scanType at h
  by_cases htype : event.type = .turnStarted
  · rw [if_pos htype] at h
    cases hof : (stringField event.payload "triggerEventId").filter (· ≠ "") with
    | none =>
      rw [hof] at h
      exact .inl h
    | some t =>
      rw [hof] at h
      dsimp only at h
      rw [Function.update_apply] at h
      split at h
      · exact .inr ⟨htype, Option.some.inj h⟩
      · exact .inl h
  · rw [if_neg htype] at h
    split at h
    · split at h <;> exact .inl h
    · split at h <;> exact .inl h

variable {turn : String}

theorem fallbackSeq_scanTurn (hturn : event.turn = some turn) (hne : turn ≠ "") :
    (scanTurn anchors event).fallbackSeqByTurn = if event.type ≠ .turnQueued ∧ event.type ≠ .turnCancelled ∧
          (anchors.fallbackSeqByTurn turn).all (fun previous => event.sequence < previous) = true then
        Function.update anchors.fallbackSeqByTurn turn (some event.sequence)
      else anchors.fallbackSeqByTurn := by
  have hof : event.turn.filter (· ≠ "") = some turn := by
    rw [hturn, Option.filter_some, if_pos (decide_eq_true hne)]
  rw [scanTurn, hof]

theorem fallbackSeq_le {previous : ℕ} (hturn : event.turn = some turn) (hne : turn ≠ "")
    (h : anchors.fallbackSeqByTurn turn = some previous) :
    ∃ sequence, (scanTurn anchors event).fallbackSeqByTurn turn = some sequence ∧ sequence ≤ previous := by
  rw [fallbackSeq_scanTurn hturn hne]
  split
  · rename_i hnew
    rw [h] at hnew
    exact ⟨event.sequence, Function.update_self .., Nat.le_of_lt (of_decide_eq_true hnew.2.2)⟩
  · exact ⟨previous, h, Nat.le_refl _⟩

theorem fallbackSeq_delta (hturn : event.turn = some turn) (hne : turn ≠ "")
    (hdelta : isCoalescibleDelta event = true) :
    ∃ sequence, (scanTurn anchors event).fallbackSeqByTurn turn = some sequence ∧ sequence ≤ event.sequence := by
  obtain ⟨-, hqueued, hcancelled⟩ := isAgentActivity_delta hdelta
  rw [fallbackSeq_scanTurn hturn hne]
  split
  · exact ⟨event.sequence, Function.update_self .., Nat.le_refl _⟩
  · rename_i hold
    cases hplace : anchors.fallbackSeqByTurn turn with
    | none => exact absurd ⟨hqueued, hcancelled, by rw [hplace]; rfl⟩ hold
    | some previous =>
      refine ⟨previous, rfl, ?_⟩
      by_contra hlt
      exact hold ⟨hqueued, hcancelled, by
        rw [hplace]
        exact decide_eq_true (by omega)⟩

theorem scanTurn_none (h : ∀ turn, event.turn = some turn → turn = "") : scanTurn anchors event = anchors := by
  have hof : event.turn.filter (· ≠ "") = none := by
    rw [Option.filter_eq_none_iff]
    intro turn hturn
    simpa using h turn hturn
  rw [scanTurn, hof]

/-- The places the prescan knows are those of events: a turn's start, and the first event of a
turn. -/
structure Places (events : List LogEvent) (anchors : Anchors) : Prop where
  started : ∀ trigger sequence, anchors.startSeqByTrigger trigger = some sequence →
    ∃ event ∈ events, event.type = .turnStarted ∧ event.sequence = sequence
  first : ∀ turn sequence, anchors.fallbackSeqByTurn turn = some sequence →
    turn ≠ "" ∧ ∃ event ∈ events, event.turn = some turn ∧ event.sequence = sequence
  first_le : ∀ event ∈ events, isCoalescibleDelta event = true → ∀ turn ≠ "", event.turn = some turn →
      ∃ sequence, anchors.fallbackSeqByTurn turn = some sequence ∧ sequence ≤ event.sequence

namespace Places

theorem startSeq (h : Places events anchors) (event : LogEvent) :
    ∀ trigger sequence, (scanType anchors event).startSeqByTrigger trigger = some sequence →
      ∃ e ∈ events ++ [event], e.type = .turnStarted ∧ e.sequence = sequence := by
  intro trigger sequence hstart
  cases startSeq_scanType hstart with
  | inl hold =>
    obtain ⟨e, hmem, htype⟩ := h.started _ _ hold
    exact ⟨e, List.mem_append_left _ hmem, htype⟩
  | inr hnew => exact ⟨event, List.mem_append_right _ List.mem_cons_self, hnew⟩

theorem more (h : Places events anchors) (event : LogEvent) : ∀ turn sequence,
    anchors.fallbackSeqByTurn turn = some sequence →
      turn ≠ "" ∧ ∃ e ∈ events ++ [event], e.turn = some turn ∧ e.sequence = sequence := by
  intro turn sequence hplace
  obtain ⟨hne, e, hmem, he⟩ := h.first turn sequence hplace
  exact ⟨hne, e, List.mem_append_left _ hmem, he⟩

theorem scanTurn (h : Places events anchors) (event : LogEvent) {scanned : Anchors}
    (hsame : scanned.fallbackSeqByTurn = anchors.fallbackSeqByTurn)
    (hstarted : ∀ trigger sequence, scanned.startSeqByTrigger trigger = some sequence →
      ∃ e ∈ events ++ [event], e.type = .turnStarted ∧ e.sequence = sequence) :
    Places (events ++ [event]) (scanTurn scanned event) := by
  have hmore := h.more event
  rw [← hsame] at hmore
  have hle := h.first_le
  rw [← hsame] at hle
  by_cases hturn : ∀ turn, event.turn = some turn → turn = ""
  · rw [scanTurn_none hturn]
    refine ⟨hstarted, hmore, fun e hmem hdelta turn hne he => ?_⟩
    rw [List.mem_append, List.mem_singleton] at hmem
    cases hmem with
    | inl hmem => exact hle e hmem hdelta turn hne he
    | inr hnew => exact absurd (hturn turn (hnew ▸ he)) hne
  · push Not at hturn
    obtain ⟨turn, hturn, hne⟩ := hturn
    refine ⟨fun trigger sequence hstart => hstarted trigger sequence (startSeq_scanTurn ▸ hstart), ?_, ?_⟩
    · intro t sequence hplace
      rw [fallbackSeq_scanTurn hturn hne] at hplace
      split at hplace
      · rw [Function.update_apply] at hplace
        split at hplace
        · rename_i heq
          subst heq
          exact ⟨hne, event, List.mem_append_right _ List.mem_cons_self, hturn, Option.some.inj hplace⟩
        · exact hmore t sequence hplace
      · exact hmore t sequence hplace
    · intro e hmem hdelta t ht he
      rw [List.mem_append, List.mem_singleton] at hmem
      cases hmem with
      | inl hmem =>
        obtain ⟨previous, hprevious, hbefore⟩ := hle e hmem hdelta t ht he
        by_cases heq : t = turn
        · subst heq
          obtain ⟨sequence, hplace, hearlier⟩ := fallbackSeq_le hturn hne hprevious
          exact ⟨sequence, hplace, by omega⟩
        · refine ⟨previous, ?_, hbefore⟩
          rw [fallbackSeq_scanTurn hturn hne]
          split
          · rw [Function.update_of_ne heq]
            exact hprevious
          · exact hprevious
      | inr hnew =>
        subst hnew
        exact fallbackSeq_delta he ht hdelta

theorem step (h : Places events anchors) (event : LogEvent) :
    Places (events ++ [event]) (scanEvent anchors event) := by
  unfold scanEvent
  by_cases htype : event.type = .turnQueued
  · -- only the map of queued turns changes
    have hkeep {scanned : Anchors} (hstart : scanned.startSeqByTrigger = anchors.startSeqByTrigger)
        (hsame : scanned.fallbackSeqByTurn = anchors.fallbackSeqByTurn) :
        Places (events ++ [event]) scanned := by
      refine ⟨?_, hsame ▸ h.more event, ?_⟩
      · intro trigger sequence hplace
        obtain ⟨e, hmem, he⟩ := h.started trigger sequence (hstart ▸ hplace)
        exact ⟨e, List.mem_append_left _ hmem, he⟩
      · rw [hsame]
        intro e hmem hdelta turn hne he
        rw [List.mem_append, List.mem_singleton] at hmem
        cases hmem with
        | inl hmem => exact h.first_le e hmem hdelta turn hne he
        | inr hnew => exact absurd (hnew ▸ htype) (isAgentActivity_delta hdelta).2.1
    rw [if_pos htype]
    dsimp only
    split
    · exact hkeep rfl rfl
    · exact hkeep rfl rfl
  · rw [if_neg htype]
    exact h.scanTurn event fallbackSeq_scanType (h.startSeq event)

theorem prescan (h : Ascending events) : Places events (prescanTurnAnchors events) := by
  have hloop : ∀ (more before : List LogEvent) (anchors : Anchors), Places before anchors →
      Places (before ++ more) (more.foldl scanEvent anchors) := by
    intro more
    induction more with
    | nil =>
      intro before anchors h
      rw [List.append_nil]
      exact h
    | cons event more ih =>
      intro before anchors h
      rw [List.append_cons]
      exact ih _ _ (h.step event)
  rw [prescanTurnAnchors, sort_ascending h]
  apply hloop events [] {}
  constructor
  · intro trigger sequence hplace
    contradiction
  · intro turn sequence hplace
    contradiction
  · intro event hmem
    contradiction

end Places

/-! ## The order of the events -/

theorem insertions_run (h : IsRun deltas run) (hevents : Ascending events)
    (hdeltas : ∀ e ∈ deltas, e ∈ events) (hplaces : Places events anchors)
    (hrun : Ascending deltas) (hevent : event ∈ deltas) (hne : event ≠ run.first) :
    insertions anchors (userMessages events) event.sequence = [] := by
  obtain ⟨hdelta, -, hturn⟩ := h.mem hevent
  have hfirst : run.first ∈ deltas := by
    obtain ⟨rest, hrest⟩ := h.head
    exact hrest ▸ List.mem_cons_self
  have hlater : run.first.sequence < event.sequence := by
    apply Nat.lt_of_le_of_ne (hrun.first_le h hevent)
    intro heq
    exact hne (hrun.inj hevent hfirst heq.symm)
  -- nothing but a delta has the sequence of this one
  have hunique {e : LogEvent} (hmem : e ∈ events) (hother : isCoalescibleDelta e = false) :
      e.sequence ≠ event.sequence := by
    intro heq
    rw [hevents.inj hmem (hdeltas event hevent) heq, hdelta] at hother
    contradiction
  unfold insertions
  rw [List.filterMap_eq_nil_iff]
  intro message hmessage
  obtain ⟨hmem, htype⟩ := List.mem_filter.1 hmessage
  have hother : isCoalescibleDelta message = false := by
    simp [isCoalescibleDelta, of_decide_eq_true htype]
  cases hanchor : anchorOf anchors message with
  | pending | dropped => rfl
  | before place =>
    refine if_neg fun hplace => ?_
    subst hplace
    unfold anchorOf at hanchor
    split at hanchor
    · exact hunique hmem hother (Anchor.before.inj hanchor)
    · split at hanchor
      · contradiction
      · split at hanchor
        · rename_i sequence hstart
          rw [Anchor.before.inj hanchor] at hstart
          rcases Option.or_eq_some_iff.1 hstart with hstarted | ⟨-, hfallback⟩
          · obtain ⟨e, hmem', htype', heq⟩ := hplaces.started _ _ hstarted
            exact hunique hmem' (by simp [isCoalescibleDelta, htype']) heq
          · obtain ⟨turn, -, hfallback⟩ := Option.bind_eq_some_iff.1 hfallback
            obtain ⟨hturn', e, hmem', heturn, heq⟩ := hplaces.first _ _ hfallback
            have hsame := hevents.inj hmem' (hdeltas event hevent) heq
            rw [hsame, hturn] at heturn
            obtain ⟨sequence', hplace, hle⟩ := hplaces.first_le run.first (hdeltas _ hfirst)
              h.delta turn hturn' heturn
            rw [hfallback] at hplace
            have heq' := Option.some.inj hplace
            omega
        · contradiction

theorem flatMap_projected_run (h : IsRun deltas run) (hrun : Ascending deltas) {messages : List LogEvent}
    (hnone : ∀ event ∈ deltas, event ≠ run.first → insertions anchors messages event.sequence = []) :
    deltas.flatMap (projectedEvents anchors messages) = insertions anchors messages run.first.sequence ++
        deltas.map (fun event => { event := event }) := by
  have hprojected : ∀ event ∈ deltas, projectedEvents anchors messages event =
      insertions anchors messages event.sequence ++ [{ event := event }] := by
    intro event hevent
    have htype : event.type ≠ .userMessage := by
      intro htype
      have hdelta := (h.mem hevent).1
      simp [isCoalescibleDelta, htype] at hdelta
    rw [projectedEvents, if_neg htype]
  obtain ⟨rest, rfl⟩ := h.head
  have hrest : rest.flatMap (projectedEvents anchors messages) = rest.map (fun event => { event := event }) := by
    rw [← List.flatMap_pure_eq_map]
    apply List.flatMap_congr
    intro event hevent
    have hlt := (List.pairwise_cons.1 hrun).1 event hevent
    have hmem := List.mem_cons_of_mem run.first hevent
    rw [hprojected event hmem, hnone event hmem fun heq => by rw [heq] at hlt; omega]
    rfl
  rw [List.flatMap_cons, hprojected _ List.mem_cons_self, hrest, List.map_cons, List.append_assoc]
  rfl

theorem userMessages_compacts (h : Compacts events compact) : userMessages compact = userMessages events := by
  induction h with
  | nil => rfl
  | keep h hother ih =>
    unfold userMessages at ih ⊢
    rw [List.filter_append, List.filter_append, ih]
  | @run events compact deltas run h hrun ih =>
    have htype {e : LogEvent} (hdelta : isCoalescibleDelta e = true) : ¬ decide (e.type = .userMessage) = true := by
      intro htype
      simp [isCoalescibleDelta, of_decide_eq_true htype] at hdelta
    have hevent : isCoalescibleDelta run.event = true := hrun.delta
    have hnone : userMessages deltas = [] := List.filter_eq_nil_iff.2 fun e he => htype (hrun.mem he).1
    have hnone' : userMessages [run.event] = [] := by
      apply List.filter_eq_nil_iff.2
      intro e he
      rw [List.mem_singleton.1 he]
      exact htype hevent
    unfold userMessages at ih hnone hnone' ⊢
    rw [List.filter_append, List.filter_append, ih, hnone, hnone']

/-! ## The timeline -/

variable {js : JsLibrary} {streamed : String → Prop} {xs ys : List Item}

theorem SameItems.foldl (timeline : List TimelineEvent) (h : SameItems streamed xs ys) :
    SameItems streamed (timeline.foldl (React.project js anchors) xs)
      (timeline.foldl (React.project js anchors) ys) := by
  induction timeline generalizing xs ys with
  | nil => exact h
  | cons event timeline ih => exact ih (h.project js anchors event)

def IsDeltaId (events : List LogEvent) (id : String) : Prop :=
  ∃ event ∈ events, isCoalescibleDelta event = true ∧ event.id = id

theorem sameItems_upTo {whole : List LogEvent} (hwhole : Ascending whole)
    (hplaces : Places whole anchors) (h : Compacts events compact) (hevents : Ascending events)
    (hmem : ∀ e ∈ events, e ∈ whole) :
    SameItems (IsDeltaId whole)
      ((events.flatMap (projectedEvents anchors (userMessages whole))).foldl (project js anchors) [])
      ((compact.flatMap (projectedEvents anchors (userMessages whole))).foldl (project js anchors) []) := by
  induction h with
  | nil => exact .refl _
  | keep h hother ih =>
    rw [List.flatMap_append, List.flatMap_append, List.foldl_append, List.foldl_append]
    exact (ih hevents.left fun e he => hmem e (List.mem_append_left _ he)).foldl _
  | @run events compact deltas run h hrun ih =>
    have hdeltas : ∀ e ∈ deltas, e ∈ whole := fun e he => hmem e (List.mem_append_right _ he)
    have hbefore := ih hevents.left fun e he => hmem e (List.mem_append_left _ he)
    have hcompact : projectedEvents anchors (userMessages whole) run.event =
        insertions anchors (userMessages whole) run.first.sequence ++ [{ event := run.event }] := by
      have htype : run.event.type ≠ .userMessage := by
        intro htype
        have hdelta : isCoalescibleDelta run.event = true := hrun.delta
        simp [isCoalescibleDelta, htype] at hdelta
      rw [projectedEvents, if_neg htype]
      rfl
    rw [List.flatMap_append, List.flatMap_append, flatMap_projected_run hrun hevents.right fun e he hne =>
        insertions_run hrun hwhole hdeltas hplaces hevents.right he hne,
      List.flatMap_singleton, hcompact, ← List.append_assoc, ← List.append_assoc,
      List.foldl_append, List.foldl_concat]
    have hstreamed : ∀ e ∈ deltas, IsDeltaId whole e.id := fun e he => ⟨e, hdeltas e he, (hrun.mem he).1, rfl⟩
    apply foldl_run hrun hstreamed
    rw [List.foldl_append, List.foldl_append]
    exact hbefore.foldl _

/-- **The compact form shows the same conversation.** -/
theorem buildTimeline_coalesce (js : JsLibrary) (hevents : Ascending events) :
    SameItems (IsDeltaId events) (buildTimeline js events)
      (buildTimeline js (coalesceSessionEventDeltas events)) := by
  have hcompacts := compacts_coalesce events
  have hplaces := Places.prescan hevents
  unfold buildTimeline orderTimelineEvents
  dsimp only
  rw [prescan_compacts hcompacts hevents, sort_ascending hevents,
    sort_ascending (hevents.compacts hcompacts), userMessages_compacts hcompacts,
    List.foldl_append, List.foldl_append]
  exact (sameItems_upTo hevents hplaces hcompacts hevents fun e he => he).foldl _

/-- **Compact replay.** The compact form of a window of the log stands for the sequences of the
window, each once and in order, and shows the same timeline, up to the identifier and the time of
what was streamed. -/
theorem compact_replay (js : JsLibrary) {log : List LogEvent} (hlog : IsLog log) (hwindow : events <:+: log) :
    Covers (coalesceSessionEventDeltas events) events ∧ SameItems (IsDeltaId events) (buildTimeline js events)
        (buildTimeline js (coalesceSessionEventDeltas events)) :=
  ⟨covers_compacts (compacts_coalesce events) (hlog.consecutive hwindow),
    buildTimeline_coalesce js (hlog.consecutive hwindow).ascending⟩

/-- A log: a message, and two deltas of an answer with output of a command in between. -/
def answerLog : List LogEvent :=
  let event (sequence : ℕ) (type : SessionEventType) (payload : Payload) : LogEvent :=
    { id := "e" ++ toString sequence, workspaceId := "w", sessionId := "s", sequence := sequence
      type := type, payload := payload, occurredAt := "t" ++ toString sequence, turnId := some (some "turn") }
  [event 1 .userMessage (.object [("text", .string "hi")]),
   event 2 .agentMessageDelta (.object [("text", .string "an")]),
   event 3 .agentMessageDelta (.object [("text", .string "swer")]),
   event 4 .sandboxCommandOutputDelta (.object [("chunk", .string "out")]),
   event 5 .agentMessageDelta (.object [("text", .string "!")])]

/-- A library, for payloads in which there is nothing to trim or to parse. -/
def plainJs : JsLibrary := { trim := id, toLowerCase := id, parse := fun _ => none }

/-- Three events of it are two. -/
theorem compact_replay_answer : (coalesceSessionEventDeltas (answerLog.take 3)).length = 2 ∧
      Covers (coalesceSessionEventDeltas (answerLog.take 3)) (answerLog.take 3) ∧
        SameItems (IsDeltaId (answerLog.take 3)) (buildTimeline plainJs (answerLog.take 3))
          (buildTimeline plainJs (coalesceSessionEventDeltas (answerLog.take 3))) := by
  have hlog : IsLog answerLog := by
    rfl
  exact ⟨by decide, compact_replay plainJs hlog (List.take_prefix 3 answerLog).isInfix⟩

end OpenGeni.React
