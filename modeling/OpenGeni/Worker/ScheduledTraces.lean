/-
The traces that a run leaves in the sessions.

The stage of a fire tells where the message and the turn of its run are. A step that is made for one
run leaves the traces of every other run as they are, so what a fire knows stays true while the
others go on. Every transaction of a fire keeps the rows sound and moves its own traces on.
-/
import OpenGeni.Worker.ScheduledTask

namespace OpenGeni.Worker.Schedule

open OpenGeni.Lib
open OpenGeni.Db (SessionStatus SessionTurnStatus)

variable {sessions sessions' : List SessionRow} {row row' : SessionRow} {turn turn' : SessionTurn}
  {own : Option ℕ} {runId sessionId : ℕ} {message place : Option (ℕ × ℕ)} {rows rows' : Rows} {fire : Fire}
  {stage : Stage} {f : SessionRow → SessionRow}

/-! ## What a step made for a run does to a session -/

structure SessionTurn.Moves (turn turn' : SessionTurn) : Prop where
  trigger : turn'.triggerEventId = turn.triggerEventId
  run : turn'.scheduledTaskRunId = turn.scheduledTaskRunId
  settled : turn.settled → turn'.settled

theorem SessionTurn.Moves.refl : turn.Moves turn := ⟨rfl, rfl, id⟩

/-- The session keeps what it has. What is new of a run is of the run `own`. -/
structure SessionRow.Grows (own : Option ℕ) (row row' : SessionRow) : Prop where
  variableSet : row'.variableSetId = row.variableSetId
  events : row.events <+: row'.events
  newEvents : ∀ event ≥ row.events.length, ∀ runId, row'.events[event]? = some (.userMessage (some runId)) →
    own = some runId
  turns : ∀ (n : ℕ) (turn : SessionTurn), row.turns[n]? = some turn →
    ∃ turn', row'.turns[n]? = some turn' ∧ turn.Moves turn'
  newTurns : ∀ n ≥ row.turns.length, ∀ turn', row'.turns[n]? = some turn' → ∀ runId ∈ turn'.scheduledTaskRunId,
    own = some runId

theorem SessionRow.Grows.of_eq (hvariableSet : row'.variableSetId = row.variableSetId) (hevents : row'.events = row.events)
    (hturns : row'.turns = row.turns) : row.Grows own row' := by
  refine ⟨hvariableSet, ?_, ?_, ?_, ?_⟩
  · rw [hevents]
  · intro event hle runId hevent
    rw [hevents, List.getElem?_eq_none hle] at hevent
    contradiction
  · intro n turn hturn
    rw [hturns]
    exact ⟨turn, hturn, .refl⟩
  · intro n hle turn' hturn
    rw [hturns, List.getElem?_eq_none hle] at hturn
    contradiction

theorem SessionRow.Grows.refl : row.Grows own row := .of_eq rfl rfl rfl

theorem SessionRow.grows_append {added : List SessionEvent}
    (h : ∀ runId, .userMessage (some runId) ∈ added → own = some runId) : row.Grows own (row.append added) := by
  refine ⟨rfl, List.prefix_append _ _, ?_, ?_, ?_⟩
  · intro event hle runId hevent
    apply h
    change (row.events ++ added)[event]? = _ at hevent
    rw [List.getElem?_append_right hle] at hevent
    exact List.mem_of_getElem? hevent
  · exact fun n turn hturn => ⟨turn, hturn, .refl⟩
  · intro n hle turn' hturn
    change row.turns[n]? = some turn' at hturn
    rw [List.getElem?_eq_none hle] at hturn
    contradiction

theorem SessionRow.grows_enqueue (h : ∀ runId ∈ turn.scheduledTaskRunId, own = some runId) :
    row.Grows own (row.enqueue turn) := by
  refine ⟨rfl, List.prefix_rfl, ?_, ?_, ?_⟩
  · intro event hle runId hevent
    change row.events[event]? = _ at hevent
    rw [List.getElem?_eq_none hle] at hevent
    contradiction
  · intro n old hold
    refine ⟨old, ?_, .refl⟩
    change (row.turns ++ [turn])[n]? = some old
    rw [List.getElem?_append_left (List.getElem?_eq_some_iff.1 hold).1, hold]
  · intro n hle turn' hturn
    change (row.turns ++ [turn])[n]? = some turn' at hturn
    rw [List.getElem?_append_right hle] at hturn
    have hmem : turn' ∈ [turn] := List.mem_of_getElem? hturn
    rw [List.mem_singleton.1 hmem]
    exact h

theorem SessionRow.Grows.trans {row'' : SessionRow} (h : row.Grows own row') (h' : row'.Grows own row'') :
    row.Grows own row'' := by
  refine ⟨h'.variableSet.trans h.variableSet, h.events.trans h'.events, ?_, ?_, ?_⟩
  · intro event hle runId hevent
    by_cases hlt : event < row'.events.length
    · apply h.newEvents event hle
      rw [← hevent]
      exact (List.getElem?_eq_getElem hlt).trans (List.prefix_iff_getElem?.1 h'.events event hlt).symm
    · exact h'.newEvents event (Nat.le_of_not_lt hlt) runId hevent
  · intro n turn hturn
    obtain ⟨turn', hturn', hmoves⟩ := h.turns n turn hturn
    obtain ⟨turn'', hturn'', hmoves'⟩ := h'.turns n turn' hturn'
    refine ⟨turn'', hturn'', hmoves'.trigger.trans hmoves.trigger, hmoves'.run.trans hmoves.run, ?_⟩
    exact fun hsettled => hmoves'.settled (hmoves.settled hsettled)
  · intro n hle turn'' hturn'' runId hrun
    by_cases hlt : n < row'.turns.length
    · obtain ⟨turn', hturn', hmoves⟩ := h'.turns n _ (List.getElem?_eq_getElem hlt)
      rw [hturn'] at hturn''
      rw [← Option.some.inj hturn'', hmoves.run] at hrun
      exact h.newTurns n hle _ (List.getElem?_eq_getElem hlt) runId hrun
    · exact h'.newTurns n (Nat.le_of_not_lt hlt) turn'' hturn'' runId hrun

structure Grows (own : Option ℕ) (sessions sessions' : List SessionRow) : Prop where
  old : ∀ (i : ℕ) (row : SessionRow), sessions[i]? = some row → ∃ row', sessions'[i]? = some row' ∧ row.Grows own row'
  new : ∀ i ≥ sessions.length, ∀ row', sessions'[i]? = some row' → row'.events = [] ∧ row'.turns = []

theorem Grows.refl : Grows own sessions sessions := by
  refine ⟨fun i row hrow => ⟨row, hrow, .refl⟩, ?_⟩
  intro i hle row' hrow
  rw [List.getElem?_eq_none hle] at hrow
  contradiction

theorem grows_modify (h : ∀ row, sessions[sessionId]? = some row → row.Grows own (f row)) :
    Grows own sessions (sessions.modify sessionId f) := by
  refine ⟨?_, ?_⟩
  · intro i row hrow
    rw [List.getElem?_modify, hrow]
    by_cases heq : sessionId = i
    · subst heq
      refine ⟨f row, ?_, h row hrow⟩
      simp
    · refine ⟨row, ?_, .refl⟩
      simp [heq]
  · intro i hle row' hrow
    rw [List.getElem?_eq_none (by rw [List.length_modify]; exact hle)] at hrow
    contradiction

theorem grows_create (hevents : row.events = []) (hturns : row.turns = []) : Grows own sessions (sessions ++ [row]) := by
  refine ⟨?_, ?_⟩
  · intro i old hold
    refine ⟨old, ?_, .refl⟩
    rw [List.getElem?_append_left (List.getElem?_eq_some_iff.1 hold).1, hold]
  · intro i hle row' hrow
    rw [List.getElem?_append_right hle] at hrow
    rw [List.mem_singleton.1 (List.mem_of_getElem? hrow)]
    exact ⟨hevents, hturns⟩

/-! ## The traces of a run -/

def TurnAt (sessions : List SessionRow) (runId sessionId n : ℕ) : Prop :=
  ∃ (row : SessionRow) (turn : SessionTurn), sessions[sessionId]? = some row ∧ row.turns[n]? = some turn ∧ turn.scheduledTaskRunId = some runId

theorem Grows.messageAt_iff (h : Grows own sessions sessions') (hown : own ≠ some runId) (i event : ℕ) :
    MessageAt sessions' runId i event ↔ MessageAt sessions runId i event := by
  constructor
  · rintro ⟨row', hrow', hevent⟩
    by_cases hi : i < sessions.length
    · obtain ⟨row'', hrow'', hgrows⟩ := h.old i _ (List.getElem?_eq_getElem hi)
      rw [hrow'] at hrow''
      cases hrow''
      refine ⟨_, List.getElem?_eq_getElem hi, ?_⟩
      by_cases hlt : event < sessions[i].events.length
      · rw [← hevent]
        exact (List.getElem?_eq_getElem hlt).trans (List.prefix_iff_getElem?.1 hgrows.events event hlt).symm
      · exact absurd (hgrows.newEvents event (Nat.le_of_not_lt hlt) runId hevent) hown
    · rw [(h.new i (Nat.le_of_not_lt hi) row' hrow').1] at hevent
      contradiction
  · rintro ⟨row, hrow, hevent⟩
    obtain ⟨row', hrow', hgrows⟩ := h.old i row hrow
    have hlt : event < row.events.length := (List.getElem?_eq_some_iff.1 hevent).1
    refine ⟨row', hrow', ?_⟩
    rw [← hevent]
    exact (List.prefix_iff_getElem?.1 hgrows.events event hlt).trans (List.getElem?_eq_getElem hlt).symm

theorem Grows.turnAt_iff (h : Grows own sessions sessions') (hown : own ≠ some runId) (i n : ℕ) :
    TurnAt sessions' runId i n ↔ TurnAt sessions runId i n := by
  constructor
  · rintro ⟨row', turn', hrow', hturn', hrun⟩
    by_cases hi : i < sessions.length
    · obtain ⟨row'', hrow'', hgrows⟩ := h.old i _ (List.getElem?_eq_getElem hi)
      rw [hrow'] at hrow''
      cases hrow''
      by_cases hlt : n < sessions[i].turns.length
      · obtain ⟨turn'', hturn'', hmoves⟩ := hgrows.turns n _ (List.getElem?_eq_getElem hlt)
        rw [hturn'] at hturn''
        cases hturn''
        exact ⟨_, _, List.getElem?_eq_getElem hi, List.getElem?_eq_getElem hlt, hmoves.run ▸ hrun⟩
      · exact absurd (hgrows.newTurns n (Nat.le_of_not_lt hlt) turn' hturn' runId hrun) hown
    · rw [(h.new i (Nat.le_of_not_lt hi) row' hrow').2] at hturn'
      contradiction
  · rintro ⟨row, turn, hrow, hturn, hrun⟩
    obtain ⟨row', hrow', hgrows⟩ := h.old i row hrow
    obtain ⟨turn', hturn', hmoves⟩ := hgrows.turns n turn hturn
    exact ⟨row', turn', hrow', hturn', hmoves.run.trans hrun⟩

structure Traces (sessions : List SessionRow) (runId : ℕ) (message place : Option (ℕ × ℕ)) : Prop where
  messages : ∀ i event, MessageAt sessions runId i event ↔ message = some (i, event)
  turns : ∀ i n, TurnAt sessions runId i n ↔ place = some (i, n)

theorem Traces.grows (h : Traces sessions runId message place) (hgrows : Grows own sessions sessions')
    (hown : own ≠ some runId) : Traces sessions' runId message place := by
  refine ⟨?_, ?_⟩
  · intro i event
    rw [hgrows.messageAt_iff hown, h.messages]
  · intro i n
    rw [hgrows.turnAt_iff hown, h.turns]

theorem messageAt_modify_iff (hevents : ∀ row, (f row).events = row.events) (i event : ℕ) :
    MessageAt (sessions.modify sessionId f) runId i event ↔ MessageAt sessions runId i event := by
  unfold MessageAt
  rw [List.getElem?_modify]
  by_cases heq : sessionId = i
  · cases hrow : sessions[i]? with
    | none => simp
    | some row => simp [heq, hevents]
  · simp [heq]

theorem turnAt_modify_iff (hturns : ∀ row, (f row).turns = row.turns) (i n : ℕ) :
    TurnAt (sessions.modify sessionId f) runId i n ↔ TurnAt sessions runId i n := by
  unfold TurnAt
  rw [List.getElem?_modify]
  by_cases heq : sessionId = i
  · cases hrow : sessions[i]? with
    | none => simp
    | some row => simp [heq, hturns]
  · simp [heq]

theorem Traces.append_message (h : Traces sessions runId none place) (hrow : sessions[sessionId]? = some row)
    {before after : List SessionEvent} (hbefore : .userMessage (some runId) ∉ before)
    (hafter : .userMessage (some runId) ∉ after) :
    Traces (sessions.modify sessionId (·.append (before ++ .userMessage (some runId) :: after))) runId
      (some (sessionId, row.events.length + before.length)) place := by
  refine ⟨?_, ?_⟩
  case refine_2 =>
    intro i n
    rw [turnAt_modify_iff, h.turns]
    exact fun _ => rfl
  intro i event
  rw [Option.some.injEq, Prod.mk.injEq]
  have hnone : ∀ i event, ¬ MessageAt sessions runId i event := by
    intro i event hmessage
    have := (h.messages i event).1 hmessage
    contradiction
  constructor
  · rintro ⟨row', hrow', hevent⟩
    by_cases heq : sessionId = i
    · subst heq
      rw [List.getElem?_modify_eq, hrow] at hrow'
      cases hrow'
      change (row.events ++ _)[event]? = _ at hevent
      by_cases hold : event < row.events.length
      · rw [List.getElem?_append_left hold] at hevent
        exact absurd ⟨row, hrow, hevent⟩ (hnone sessionId event)
      rw [List.getElem?_append_right (Nat.le_of_not_lt hold)] at hevent
      by_cases hlt : event - row.events.length < before.length
      · rw [List.getElem?_append_left hlt] at hevent
        exact absurd (List.mem_of_getElem? hevent) hbefore
      rw [List.getElem?_append_right (Nat.le_of_not_lt hlt)] at hevent
      cases hplace : event - row.events.length - before.length with
      | zero => exact ⟨rfl, by omega⟩
      | succ k =>
        rw [hplace, List.getElem?_cons_succ] at hevent
        exact absurd (List.mem_of_getElem? hevent) hafter
    · rw [List.getElem?_modify_ne _ _ heq] at hrow'
      exact absurd ⟨row', hrow', hevent⟩ (hnone i event)
  · rintro ⟨rfl, rfl⟩
    refine ⟨row.append (before ++ .userMessage (some runId) :: after), ?_, ?_⟩
    · rw [List.getElem?_modify_eq, hrow]
      rfl
    · change (row.events ++ (before ++ _))[row.events.length + before.length]? = _
      rw [List.getElem?_append_right (Nat.le_add_right _ _), Nat.add_sub_cancel_left,
        List.getElem?_append_right (Nat.le_refl _), Nat.sub_self, List.getElem?_cons_zero]

theorem Traces.enqueue (h : Traces sessions runId message none) (hrow : sessions[sessionId]? = some row)
    (hrun : turn.scheduledTaskRunId = some runId) :
    Traces (sessions.modify sessionId (·.enqueue turn)) runId message (some (sessionId, row.turns.length)) := by
  refine ⟨?_, ?_⟩
  case refine_1 =>
    intro i event
    rw [messageAt_modify_iff, h.messages]
    exact fun _ => rfl
  intro i n
  rw [Option.some.injEq, Prod.mk.injEq]
  have hnone : ∀ i n, ¬ TurnAt sessions runId i n := by
    intro i n hturn
    have := (h.turns i n).1 hturn
    contradiction
  constructor
  · rintro ⟨row', turn', hrow', hturn', hrun'⟩
    by_cases heq : sessionId = i
    · subst heq
      rw [List.getElem?_modify_eq, hrow] at hrow'
      cases hrow'
      change (row.turns ++ [turn])[n]? = _ at hturn'
      by_cases hold : n < row.turns.length
      · rw [List.getElem?_append_left hold] at hturn'
        exact absurd ⟨row, turn', hrow, hturn', hrun'⟩ (hnone sessionId n)
      rw [List.getElem?_append_right (Nat.le_of_not_lt hold)] at hturn'
      have hlast : n - row.turns.length < 1 := (List.getElem?_eq_some_iff.1 hturn').1
      exact ⟨rfl, by omega⟩
    · rw [List.getElem?_modify_ne _ _ heq] at hrow'
      exact absurd ⟨row', turn', hrow', hturn', hrun'⟩ (hnone i n)
  · rintro ⟨rfl, rfl⟩
    refine ⟨row.enqueue turn, turn, ?_, ?_, hrun⟩
    · rw [List.getElem?_modify_eq, hrow]
      rfl
    · change (row.turns ++ [turn])[row.turns.length]? = _
      rw [List.getElem?_append_right (Nat.le_refl _), Nat.sub_self, List.getElem?_cons_zero]

/-! ## Sound rows -/

structure SessionRow.Sound (row : SessionRow) : Prop where
  /-- The trigger of a turn is the message of its run. -/
  triggered : ∀ turn ∈ row.turns, row.events[turn.triggerEventId]? = some (.userMessage turn.scheduledTaskRunId)
  cancelled : row.status = .cancelled ↔ row.turnsAtCancel.isSome = true
  revived : ∀ n ∈ row.turnsAtCancel, ∀ k ≥ n, ∀ turn, row.turns[k]? = some turn → turn.scheduledTaskRunId = none

structure Rows.Sound (rows : Rows) : Prop where
  sessions : ∀ row ∈ rows.sessions, row.Sound
  fresh : ∀ runId ≥ rows.runs.length, Traces rows.sessions runId none none
  dispatched : ∀ (runId : ℕ) (run : ScheduledTaskRun), rows.runs[runId]? = some run → run.status = .dispatched →
    run.Dispatched rows.sessions runId
  failed : ∀ (runId : ℕ) (run : ScheduledTaskRun), rows.runs[runId]? = some run → run.status = .failed →
    ∀ row ∈ rows.sessions, ∀ turn ∈ row.turns, turn.scheduledTaskRunId = some runId → turn.settled
  variableSet : ∀ (runId : ℕ) (run : ScheduledTaskRun), rows.runs[runId]? = some run →
    ∀ row ∈ rows.sessions, ∀ turn ∈ row.turns, turn.scheduledTaskRunId = some runId →
      row.variableSetId = run.variableSetId

theorem Grows.turn_cases (h : Grows own sessions sessions') (hrow' : row' ∈ sessions') (hturn' : turn' ∈ row'.turns)
    (hrun : turn'.scheduledTaskRunId = some runId) (hown : own ≠ some runId) :
    ∃ row ∈ sessions, ∃ turn ∈ row.turns, turn.scheduledTaskRunId = some runId ∧
      row'.variableSetId = row.variableSetId ∧ (turn.settled → turn'.settled) := by
  obtain ⟨i, hrow'⟩ := List.mem_iff_getElem?.1 hrow'
  obtain ⟨n, hturn'⟩ := List.mem_iff_getElem?.1 hturn'
  obtain ⟨row, turn, hrow, hturn, hbefore⟩ := (h.turnAt_iff hown i n).1 ⟨row', turn', hrow', hturn', hrun⟩
  obtain ⟨row'', hrow'', hgrows⟩ := h.old i row hrow
  cases hrow'.symm.trans hrow''
  obtain ⟨turn'', hturn'', hmoves⟩ := hgrows.turns n turn hturn
  cases hturn'.symm.trans hturn''
  exact ⟨row, List.mem_of_getElem? hrow, turn, List.mem_of_getElem? hturn, hbefore, hgrows.variableSet, hmoves.settled⟩

theorem ScheduledTaskRun.Dispatched.grows {run : ScheduledTaskRun} (h : run.Dispatched sessions runId)
    (hgrows : Grows own sessions sessions') (hown : own ≠ some runId) (hsound : ∀ row ∈ sessions', row.Sound) :
    run.Dispatched sessions' runId := by
  obtain ⟨i, event, row, hsession, htrigger, hrow, hmessages, n, hn, hunique⟩ := h
  obtain ⟨row', hrow', hrowGrows⟩ := hgrows.old i row hrow
  refine ⟨i, event, row', hsession, htrigger, hrow', ?_, n, ?_, ?_⟩
  · intro i' event'
    rw [hgrows.messageAt_iff hown, hmessages]
  · obtain ⟨turn, hturn, hevent⟩ := Option.map_eq_some_iff.1 hn
    obtain ⟨turn', hturn', hmoves⟩ := hrowGrows.turns n turn hturn
    change (row'.turns[n]?).map (·.triggerEventId) = some event
    rw [hturn', Option.map_some, hmoves.trigger, hevent]
  · intro k hk
    apply hunique
    obtain ⟨turn', hturn', hevent⟩ := Option.map_eq_some_iff.1 hk
    by_cases hlt : k < row.turns.length
    · obtain ⟨turn'', hturn'', hmoves⟩ := hrowGrows.turns k _ (List.getElem?_eq_getElem hlt)
      cases hturn'.symm.trans hturn''
      change (row.turns[k]?).map (·.triggerEventId) = some event
      rw [List.getElem?_eq_getElem hlt, Option.map_some, ← hmoves.trigger, hevent]
    · -- a new turn with this trigger would be of the run
      have htriggered := (hsound row' (List.mem_of_getElem? hrow')).triggered turn' (List.mem_of_getElem? hturn')
      have hmessage : MessageAt sessions' runId i event := by
        rw [hgrows.messageAt_iff hown, hmessages]
        exact ⟨rfl, rfl⟩
      obtain ⟨row'', hrow'', hmessage⟩ := hmessage
      cases hrow'.symm.trans hrow''
      rw [hevent, hmessage, Option.some.injEq, SessionEvent.userMessage.injEq] at htriggered
      exact absurd (hrowGrows.newTurns k (Nat.le_of_not_lt hlt) turn' hturn' runId htriggered.symm) hown

/-- **A step that changes sessions** for a run that is queued keeps the rows sound. -/
theorem Rows.Sound.grows (hs : rows.Sound) (hgrows : Grows own rows.sessions rows'.sessions) (hruns : rows'.runs = rows.runs)
    (hsound : ∀ row ∈ rows'.sessions, row.Sound)
    (hown : ∀ runId ∈ own, ∃ run, rows.runs[runId]? = some run ∧ run.status = .queued ∧
      ∀ row ∈ rows'.sessions, ∀ turn ∈ row.turns, turn.scheduledTaskRunId = some runId →
        row.variableSetId = run.variableSetId) : rows'.Sound := by
  -- the run of the step is none whose status says something
  have hother : ∀ (runId : ℕ) (run : ScheduledTaskRun), rows.runs[runId]? = some run → run.status ≠ .queued →
      own ≠ some runId := by
    intro runId run hrun hstatus heq
    obtain ⟨run', hrun', hqueued, -⟩ := hown runId heq
    rw [hrun] at hrun'
    exact hstatus (Option.some.inj hrun' ▸ hqueued)
  refine ⟨hsound, ?_, ?_, ?_, ?_⟩
  · intro runId hle
    rw [hruns] at hle
    refine (hs.fresh runId hle).grows hgrows ?_
    intro heq
    obtain ⟨run, hrun, -⟩ := hown runId heq
    rw [List.getElem?_eq_none hle] at hrun
    contradiction
  · intro runId run hrun hstatus
    rw [hruns] at hrun
    exact (hs.dispatched runId run hrun hstatus).grows hgrows (hother runId run hrun (by rw [hstatus]; decide)) hsound
  · intro runId run hrun hstatus row' hrow' turn' hturn' hof
    rw [hruns] at hrun
    obtain ⟨row, hrow, turn, hturn, hbefore, -, hsettled⟩ :=
      hgrows.turn_cases hrow' hturn' hof (hother runId run hrun (by rw [hstatus]; decide))
    exact hsettled (hs.failed runId run hrun hstatus row hrow turn hturn hbefore)
  · intro runId run hrun row' hrow' turn' hturn' hof
    rw [hruns] at hrun
    by_cases heq : own = some runId
    · obtain ⟨run', hrun', -, hset⟩ := hown runId heq
      cases hrun.symm.trans hrun'
      exact hset row' hrow' turn' hturn' hof
    · obtain ⟨row, hrow, turn, hturn, hbefore, hset, -⟩ := hgrows.turn_cases hrow' hturn' hof heq
      rw [hset]
      exact hs.variableSet runId run hrun row hrow turn hturn hbefore

/-! ## Changes of one session -/

theorem forall_mem_modify {P : SessionRow → Prop} (hall : ∀ row ∈ sessions, P row)
    (hone : ∀ row, sessions[sessionId]? = some row → P (f row)) : ∀ row ∈ sessions.modify sessionId f, P row := by
  intro row' hrow'
  obtain ⟨i, hrow'⟩ := List.mem_iff_getElem?.1 hrow'
  by_cases heq : sessionId = i
  · subst heq
    rw [List.getElem?_modify_eq] at hrow'
    obtain ⟨row, hrow, rfl⟩ := Option.map_eq_some_iff.1 hrow'
    exact hone row hrow
  · rw [List.getElem?_modify_ne _ _ heq] at hrow'
    exact hall row' (List.mem_of_getElem? hrow')

theorem ScheduledTask.session_sound (task : ScheduledTask) : task.session.Sound := by
  refine ⟨List.forall_mem_nil _, ?_, fun n hn => absurd hn (Option.not_mem_none n)⟩
  simp [ScheduledTask.session]

theorem SessionRow.Sound.of_eq (h : row.Sound) (hevents : row'.events = row.events) (hturns : row'.turns = row.turns)
    (hstatus : row'.status = row.status) (hcancel : row'.turnsAtCancel = row.turnsAtCancel) : row'.Sound := by
  refine ⟨?_, ?_, ?_⟩
  · rw [hevents, hturns]
    exact h.triggered
  · rw [hstatus, hcancel]
    exact h.cancelled
  · rw [hcancel, hturns]
    exact h.revived

theorem SessionRow.Sound.append (h : row.Sound) (added : List SessionEvent) : (row.append added).Sound := by
  refine ⟨?_, h.cancelled, h.revived⟩
  intro turn hturn
  have hbefore := h.triggered turn hturn
  change (row.events ++ added)[turn.triggerEventId]? = _
  rw [List.getElem?_append_left (List.getElem?_eq_some_iff.1 hbefore).1, hbefore]

theorem SessionRow.Sound.enqueue (h : row.Sound)
    (htrigger : row.events[turn.triggerEventId]? = some (.userMessage turn.scheduledTaskRunId))
    (hcancel : row.status ≠ .cancelled ∨ turn.scheduledTaskRunId = none) : (row.enqueue turn).Sound := by
  refine ⟨?_, h.cancelled, ?_⟩
  · intro other hother
    change other ∈ row.turns ++ [turn] at hother
    rw [List.mem_append, List.mem_singleton] at hother
    rcases hother with hold | rfl
    · exact h.triggered other hold
    · exact htrigger
  · intro n hn k hk other hother
    change n ∈ row.turnsAtCancel at hn
    change (row.turns ++ [turn])[k]? = some other at hother
    by_cases hlt : k < row.turns.length
    · rw [List.getElem?_append_left hlt] at hother
      exact h.revived n hn k hk other hother
    rw [List.getElem?_append_right (Nat.le_of_not_lt hlt)] at hother
    rw [List.mem_singleton.1 (List.mem_of_getElem? hother)]
    rcases hcancel with halive | hnone
    · -- a session with a mark of its cancellation is cancelled
      exact absurd (h.cancelled.2 (by rw [Option.mem_def.1 hn]; rfl)) halive
    · exact hnone

/-! ## Fires -/

namespace Stage

def run : Stage → Option ℕ
  | .recordingFired runId | .choosing runId | .creatingGoal runId _ | .settingWorkflowId runId _
  | .settingReusableSession runId _ | .appending runId _ | .upsertingGoal runId _ | .appendingLocked runId _
  | .enqueuing runId _ _ | .announcing runId _ _ _ | .markingDispatched runId _ _ _ | .recordingCreated runId
  | .markingFailed runId => some runId
  | .creatingRun | .ended => none

def trace : Stage → Option (ℕ × Option (ℕ × ℕ) × Option (ℕ × ℕ))
  | .recordingFired runId | .choosing runId | .creatingGoal runId _ | .settingWorkflowId runId _
  | .settingReusableSession runId _ | .appending runId _ | .upsertingGoal runId _ | .appendingLocked runId _ =>
    some (runId, none, none)
  | .enqueuing runId sessionId event => some (runId, some (sessionId, event), none)
  | .announcing runId sessionId event turn | .markingDispatched runId sessionId event turn =>
    some (runId, some (sessionId, event), some (sessionId, turn))
  | _ => none

def session : Stage → Option ℕ
  | .creatingGoal _ sessionId | .settingWorkflowId _ sessionId | .settingReusableSession _ sessionId
  | .appending _ sessionId | .upsertingGoal _ sessionId | .appendingLocked _ sessionId | .enqueuing _ sessionId _
  | .announcing _ sessionId _ _ | .markingDispatched _ sessionId _ _ => some sessionId
  | _ => none

variable {stage : Stage}

theorem session_of_aims (h : sessionId ∈ stage.aims) : sessionId ∈ stage.session := by
  cases stage with
  | creatingGoal _ _ | settingWorkflowId _ _ | settingReusableSession _ _ | appending _ _ | enqueuing _ _ _ => exact h
  | _ => exact absurd h (Option.not_mem_none _)

theorem run_of_trace (h : stage.trace = some (runId, message, place)) : stage.run = some runId := by
  cases stage with
  | creatingRun | recordingCreated _ | markingFailed _ | ended => contradiction
  | _ =>
    have hrun := congrArg (Option.map Prod.fst) h
    exact hrun

end Stage

structure Fire.Sound (rows : Rows) (fire : Fire) : Prop where
  traces : ∀ runId message place, fire.stage.trace = some (runId, message, place) →
    Traces rows.sessions runId message place ∧
    ∃ run, rows.runs[runId]? = some run ∧ run.status = .queued ∧ run.variableSetId = fire.task.variableSetId
  session : ∀ sessionId ∈ fire.stage.session, ∃ row, rows.sessions[sessionId]? = some row ∧
    row.variableSetId = fire.task.variableSetId
  aims : ∀ sessionId ∈ fire.stage.aims, ∀ row, rows.sessions[sessionId]? = some row → row.status ≠ .cancelled

/-- What a step for the run `own` leaves to the others. -/
structure Rows.Keeps (own : Option ℕ) (rows rows' : Rows) : Prop where
  sessions : Grows own rows.sessions rows'.sessions
  alive : ∀ (i : ℕ) (row row' : SessionRow), rows.sessions[i]? = some row → rows'.sessions[i]? = some row' →
    row.status ≠ .cancelled → row'.status ≠ .cancelled
  runs : ∀ (runId : ℕ) (run : ScheduledTaskRun), own ≠ some runId → rows.runs[runId]? = some run →
    rows'.runs[runId]? = some run
  length : rows.runs.length ≤ rows'.runs.length

theorem Rows.Keeps.of_eq (hsessions : rows'.sessions = rows.sessions) (hruns : rows'.runs = rows.runs) :
    rows.Keeps own rows' := by
  refine ⟨?_, ?_, ?_, ?_⟩
  · rw [hsessions]
    exact .refl
  · intro i row row' hrow hrow'
    rw [hsessions, hrow] at hrow'
    rw [Option.some.inj hrow']
    exact id
  · intro runId run _ hrun
    rw [hruns, hrun]
  · rw [hruns]

theorem Rows.keeps_updateSession (hgrows : ∀ row, rows.sessions[sessionId]? = some row → row.Grows own (f row))
    (halive : ∀ row, rows.sessions[sessionId]? = some row → row.status ≠ .cancelled → (f row).status ≠ .cancelled) :
    rows.Keeps own (rows.updateSession sessionId f) := by
  refine ⟨grows_modify hgrows, ?_, fun _ _ _ hrun => hrun, le_rfl⟩
  intro i row row' hrow hrow'
  change (rows.sessions.modify sessionId f)[i]? = some row' at hrow'
  by_cases heq : sessionId = i
  · subst heq
    rw [List.getElem?_modify_eq, hrow] at hrow'
    rw [← Option.some.inj hrow']
    exact halive row hrow
  · rw [List.getElem?_modify_ne _ _ heq, hrow] at hrow'
    rw [Option.some.inj hrow']
    exact id

theorem Fire.Sound.grows (h : fire.Sound rows) (hgrows : Grows own rows.sessions rows'.sessions)
    (hruns : ∀ (runId : ℕ) (run : ScheduledTaskRun), own ≠ some runId → rows.runs[runId]? = some run →
      rows'.runs[runId]? = some run)
    (hown : ∀ runId ∈ fire.stage.run, own ≠ some runId)
    (halive : ∀ i ∈ fire.stage.aims, ∀ row row', rows.sessions[i]? = some row → rows'.sessions[i]? = some row' →
      row.status ≠ .cancelled → row'.status ≠ .cancelled) : fire.Sound rows' := by
  refine ⟨?_, ?_, ?_⟩
  · intro runId message place htrace
    obtain ⟨htraces, run, hget, hstatus, hset⟩ := h.traces runId message place htrace
    have hne := hown runId (Stage.run_of_trace htrace)
    exact ⟨htraces.grows hgrows hne, run, hruns runId run hne hget, hstatus, hset⟩
  · intro i hi
    obtain ⟨row, hrow, hset⟩ := h.session i hi
    obtain ⟨row', hrow', hrowGrows⟩ := hgrows.old i row hrow
    exact ⟨row', hrow', hrowGrows.variableSet.trans hset⟩
  · intro i hi row' hrow'
    obtain ⟨row, hrow, -⟩ := h.session i (Stage.session_of_aims hi)
    exact halive i hi row row' hrow hrow' (h.aims i hi row hrow)

/-- **A fire stays sound** while the others go on. -/
theorem Fire.Sound.keeps (h : fire.Sound rows) (hkeeps : rows.Keeps own rows')
    (hown : ∀ runId ∈ fire.stage.run, own ≠ some runId) : fire.Sound rows' :=
  h.grows hkeeps.sessions hkeeps.runs hown fun i _ => hkeeps.alive i

/-! ## One transaction -/

structure Transacted (rows : Rows) (fire : Fire) (rows' : Rows) (stage : Stage) : Prop where
  sound : rows'.Sound
  keeps : rows.Keeps fire.stage.run rows'
  fireSound : Fire.Sound rows' { fire with stage }
  run : ∀ runId ∈ stage.run, runId < rows'.runs.length ∧ (fire.stage.run = some runId ∨ rows.runs.length ≤ runId)

theorem Fire.sound_of_silent (htrace : fire.stage.trace = none) (hsession : fire.stage.session = none) :
    fire.Sound rows := by
  refine ⟨?_, ?_, ?_⟩
  · intro runId message place h
    rw [htrace] at h
    contradiction
  · intro i hi
    rw [hsession] at hi
    contradiction
  · intro i hi
    have hsome := Stage.session_of_aims hi
    rw [hsession] at hsome
    contradiction

theorem Fire.Sound.goesOn (h : fire.Sound rows) (htrace : stage.trace = fire.stage.trace)
    (hsession : stage.session = fire.stage.session) (haims : ∀ i ∈ stage.aims, i ∈ fire.stage.aims) :
    Fire.Sound rows { fire with stage } := by
  refine ⟨?_, ?_, fun i hi => h.aims i (haims i hi)⟩
  · rw [htrace]
    exact h.traces
  · rw [hsession]
    exact h.session

theorem transacted_run (hs : rows.Sound) (run : ScheduledTaskRun) (hqueued : run.status = .queued)
    (hset : run.variableSetId = fire.task.variableSetId) :
    Transacted rows fire { rows with runs := rows.runs ++ [run] } (.recordingFired rows.runs.length) := by
  have hcases : ∀ (runId : ℕ) (other : ScheduledTaskRun), (rows.runs ++ [run])[runId]? = some other →
      rows.runs[runId]? = some other ∨ runId = rows.runs.length ∧ other = run := by
    intro runId other hother
    by_cases hlt : runId < rows.runs.length
    · rw [List.getElem?_append_left hlt] at hother
      exact .inl hother
    · rw [List.getElem?_append_right (Nat.le_of_not_lt hlt)] at hother
      have hlast : runId - rows.runs.length < 1 := (List.getElem?_eq_some_iff.1 hother).1
      exact .inr ⟨by omega, List.mem_singleton.1 (List.mem_of_getElem? hother)⟩
  have hfresh : ∀ runId ≥ (rows.runs ++ [run]).length, Traces rows.sessions runId none none := by
    intro runId hle
    rw [List.length_append] at hle
    exact hs.fresh runId (Nat.le_trans (Nat.le_add_right _ _) hle)
  have hnew : rows.runs.length < (rows.runs ++ [run]).length := by
    rw [List.length_append]
    exact Nat.lt_succ_self _
  refine ⟨⟨hs.sessions, hfresh, ?_, ?_, ?_⟩, ⟨.refl, ?_, ?_, Nat.le_of_lt hnew⟩, ⟨?_, ?_, ?_⟩, ?_⟩
  · intro runId other hother hstatus
    rcases hcases runId other hother with hold | ⟨-, rfl⟩
    · exact hs.dispatched runId other hold hstatus
    · rw [hqueued] at hstatus
      contradiction
  · intro runId other hother hstatus
    rcases hcases runId other hother with hold | ⟨-, rfl⟩
    · exact hs.failed runId other hold hstatus
    · rw [hqueued] at hstatus
      contradiction
  · intro runId other hother row hrow turn hturn hof
    rcases hcases runId other hother with hold | ⟨rfl, -⟩
    · exact hs.variableSet runId other hold row hrow turn hturn hof
    · -- the new run has no turn anywhere
      obtain ⟨i, hi⟩ := List.mem_iff_getElem?.1 hrow
      obtain ⟨n, hn⟩ := List.mem_iff_getElem?.1 hturn
      have hnone := ((hs.fresh rows.runs.length le_rfl).turns i n).1 ⟨row, turn, hi, hn, hof⟩
      contradiction
  · intro i row row' hrow hrow'
    rw [hrow] at hrow'
    rw [Option.some.inj hrow']
    exact id
  · intro runId other _ hother
    change (rows.runs ++ [run])[runId]? = some other
    rw [List.getElem?_append_left (List.getElem?_eq_some_iff.1 hother).1, hother]
  · intro runId message place htrace
    obtain ⟨rfl, hrest⟩ := Prod.mk.inj (Option.some.inj htrace)
    cases hrest
    refine ⟨hs.fresh _ le_rfl, run, ?_, hqueued, hset⟩
    change (rows.runs ++ [run])[rows.runs.length]? = some run
    rw [List.getElem?_append_right le_rfl, Nat.sub_self, List.getElem?_cons_zero]
  · exact fun i hi => absurd hi (Option.not_mem_none i)
  · exact fun i hi => absurd hi (Option.not_mem_none i)
  · intro runId hrun
    rw [← Option.some.inj hrun]
    exact ⟨hnew, .inr le_rfl⟩

theorem transacted_same (hs : rows.Sound) (hsessions : rows'.sessions = rows.sessions) (hruns : rows'.runs = rows.runs)
    (hsound : Fire.Sound rows { fire with stage }) (hknown : ∀ runId ∈ fire.stage.run, runId < rows.runs.length)
    (hrun : ∀ runId ∈ stage.run, fire.stage.run = some runId) : Transacted rows fire rows' stage := by
  have hkeeps : ∀ own, rows.Keeps own rows' := fun _ => .of_eq hsessions hruns
  refine ⟨?_, hkeeps _, hsound.keeps (hkeeps none) (fun _ _ h => absurd h.symm (Option.some_ne_none _)), ?_⟩
  · refine hs.grows (hkeeps none).sessions hruns ?_ (fun _ h => absurd h (Option.not_mem_none _))
    rw [hsessions]
    exact hs.sessions
  · intro runId h
    rw [hruns]
    exact ⟨hknown runId (hrun runId h), .inl (hrun runId h)⟩

theorem transacted_aside (hs : rows.Sound) (hfire : fire.Sound rows)
    (hknown : ∀ runId ∈ fire.stage.run, runId < rows.runs.length)
    (hgrows : ∀ row : SessionRow, row.Grows none (f row)) (hsound : ∀ row : SessionRow, row.Sound → (f row).Sound)
    (hstatus : ∀ row, (f row).status = row.status) (htrace : stage.trace = fire.stage.trace)
    (hsession : stage.session = fire.stage.session) (haims : ∀ i ∈ stage.aims, i ∈ fire.stage.aims)
    (hrun : stage.run = fire.stage.run) : Transacted rows fire (rows.updateSession sessionId f) stage := by
  have hkeeps : ∀ own, (∀ row : SessionRow, row.Grows own (f row)) → rows.Keeps own (rows.updateSession sessionId f) := by
    intro own hown
    refine Rows.keeps_updateSession (fun row _ => hown row) ?_
    intro row _
    rw [hstatus]
    exact id
  have hnone := hkeeps none hgrows
  have hwiden : ∀ row : SessionRow, row.Grows fire.stage.run (f row) := by
    intro row
    have hrow := hgrows row
    refine ⟨hrow.variableSet, hrow.events, ?_, hrow.turns, ?_⟩
    · intro event hle runId hevent
      have := hrow.newEvents event hle runId hevent
      contradiction
    · intro n hle turn' hturn' runId hof
      have := hrow.newTurns n hle turn' hturn' runId hof
      contradiction
  have hkept : fire.Sound (rows.updateSession sessionId f) :=
    hfire.keeps hnone (fun _ _ h => absurd h.symm (Option.some_ne_none _))
  refine ⟨?_, hkeeps _ hwiden, hkept.goesOn htrace hsession haims, ?_⟩
  · refine hs.grows hnone.sessions rfl ?_ (fun _ h => absurd h (Option.not_mem_none _))
    exact forall_mem_modify hs.sessions (fun row hrow => hsound row (hs.sessions row (List.mem_of_getElem? hrow)))
  · intro runId h
    rw [hrun] at h
    exact ⟨hknown runId h, .inl h⟩

theorem transacted_message (hs : rows.Sound) (hfire : fire.Sound rows) (htrace : fire.stage.trace = some (runId, none, none))
    (hsession : fire.stage.session = some sessionId) (hrow : rows.sessions[sessionId]? = some row)
    (halive : row.status ≠ .cancelled) {before after : List SessionEvent}
    (hbefore : ∀ runId, .userMessage (some runId) ∉ before) (hafter : ∀ runId, .userMessage (some runId) ∉ after) :
    Transacted rows fire (rows.updateSession sessionId (·.append (before ++ .userMessage (some runId) :: after)))
      (.enqueuing runId sessionId (row.events.length + before.length)) := by
  obtain ⟨htraces, run, hget, hqueued, hset⟩ := hfire.traces runId none none htrace
  obtain ⟨row', hrow', hvariableSet⟩ := hfire.session sessionId hsession
  cases hrow.symm.trans hrow'
  have hrun : fire.stage.run = some runId := Stage.run_of_trace htrace
  have hgrows : ∀ row : SessionRow,
      row.Grows fire.stage.run (row.append (before ++ .userMessage (some runId) :: after)) := by
    intro row
    apply SessionRow.grows_append
    intro other hother
    rw [List.mem_append, List.mem_cons] at hother
    rcases hother with hmem | heq | hmem
    · exact absurd hmem (hbefore other)
    · rw [hrun, (SessionEvent.userMessage.inj heq)]
    · exact absurd hmem (hafter other)
  have hafterTraces := htraces.append_message hrow (hbefore runId) (hafter runId)
  refine ⟨?_, Rows.keeps_updateSession (fun row _ => hgrows row) (fun _ _ h => h), ⟨?_, ?_, ?_⟩, ?_⟩
  · refine hs.grows (grows_modify fun row _ => hgrows row) rfl ?_ ?_
    · exact forall_mem_modify hs.sessions (fun row hrow => (hs.sessions row (List.mem_of_getElem? hrow)).append _)
    · intro other hother
      rw [hrun] at hother
      cases hother
      refine ⟨run, hget, hqueued, ?_⟩
      -- the run has no turn yet
      intro row' hrow' turn hturn hof
      obtain ⟨i, hi⟩ := List.mem_iff_getElem?.1 hrow'
      obtain ⟨n, hn⟩ := List.mem_iff_getElem?.1 hturn
      have hnone := (hafterTraces.turns i n).1 ⟨row', turn, hi, hn, hof⟩
      contradiction
  · intro other message place h
    obtain ⟨rfl, hrest⟩ := Prod.mk.inj (Option.some.inj h)
    cases hrest
    exact ⟨hafterTraces, run, hget, hqueued, hset⟩
  · intro i hi
    cases hi
    refine ⟨row.append (before ++ .userMessage (some runId) :: after), ?_, hvariableSet⟩
    change (rows.sessions.modify sessionId _)[sessionId]? = _
    rw [List.getElem?_modify_eq, hrow]
    rfl
  · intro i hi row' hrow'
    cases hi
    change (rows.sessions.modify sessionId _)[sessionId]? = _ at hrow'
    rw [List.getElem?_modify_eq, hrow] at hrow'
    rw [← Option.some.inj hrow']
    exact halive
  · intro other hother
    cases hother
    exact ⟨(List.getElem?_eq_some_iff.1 hget).1, .inl hrun⟩

theorem transacted_turn (hs : rows.Sound) (hfire : fire.Sound rows) {event : ℕ}
    (hstage : fire.stage = .enqueuing runId sessionId event) (hrow : rows.sessions[sessionId]? = some row)
    (htrigger : turn.triggerEventId = event) (hof : turn.scheduledTaskRunId = some runId) :
    Transacted rows fire (rows.updateSession sessionId (·.enqueue turn))
      (.announcing runId sessionId event row.turns.length) := by
  have htrace : fire.stage.trace = some (runId, some (sessionId, event), none) := by
    rw [hstage]
    rfl
  have hrun : fire.stage.run = some runId := Stage.run_of_trace htrace
  obtain ⟨htraces, run, hget, hqueued, hset⟩ := hfire.traces runId _ none htrace
  obtain ⟨row', hrow', hvariableSet⟩ := hfire.session sessionId (by rw [hstage]; rfl)
  cases hrow.symm.trans hrow'
  have halive : row.status ≠ .cancelled := hfire.aims sessionId (by rw [hstage]; rfl) row hrow
  have hgrows : ∀ row : SessionRow, row.Grows fire.stage.run (row.enqueue turn) := by
    intro row
    apply SessionRow.grows_enqueue
    intro other hother
    rw [hrun, ← hof]
    exact hother
  have hmessage : row.events[event]? = some (.userMessage (some runId)) := by
    obtain ⟨row', hrow', hevent⟩ := (htraces.messages sessionId event).2 rfl
    rw [Option.some.inj (hrow.symm.trans hrow'), hevent]
  have hafterTraces := htraces.enqueue hrow hof
  have hat : (rows.sessions.modify sessionId (·.enqueue turn))[sessionId]? = some (row.enqueue turn) := by
    rw [List.getElem?_modify_eq, hrow]
    rfl
  refine ⟨?_, Rows.keeps_updateSession (fun row _ => hgrows row) (fun _ _ h => h), ⟨?_, ?_, ?_⟩, ?_⟩
  · refine hs.grows (grows_modify fun row _ => hgrows row) rfl ?_ ?_
    · refine forall_mem_modify hs.sessions ?_
      intro row' hrow'
      cases hrow.symm.trans hrow'
      refine (hs.sessions row (List.mem_of_getElem? hrow)).enqueue ?_ (.inl halive)
      rw [htrigger, hof, hmessage]
    · intro other hother
      rw [hrun] at hother
      cases hother
      refine ⟨run, hget, hqueued, ?_⟩
      -- its one turn is the new one
      intro row' hrow' turn' hturn' hof'
      obtain ⟨i, hi⟩ := List.mem_iff_getElem?.1 hrow'
      obtain ⟨n, hn⟩ := List.mem_iff_getElem?.1 hturn'
      have hplace := Option.some.inj ((hafterTraces.turns i n).1 ⟨row', turn', hi, hn, hof'⟩)
      obtain ⟨rfl, -⟩ := Prod.mk.inj hplace
      have hsame : row.enqueue turn = row' := Option.some.inj (hat.symm.trans hi)
      rw [← hsame, hset]
      exact hvariableSet
  · intro other message place h
    obtain ⟨rfl, hrest⟩ := Prod.mk.inj (Option.some.inj h)
    cases hrest
    exact ⟨hafterTraces, run, hget, hqueued, hset⟩
  · intro i hi
    cases hi
    exact ⟨row.enqueue turn, hat, hvariableSet⟩
  · exact fun i hi => absurd hi (Option.not_mem_none i)
  · intro other hother
    cases hother
    exact ⟨(List.getElem?_eq_some_iff.1 hget).1, .inl hrun⟩

theorem transacted_session (hs : rows.Sound) (hfire : fire.Sound rows) (htrace : fire.stage.trace = some (runId, none, none))
    (hstage : stage.trace = some (runId, none, none)) (hsession : stage.session = some rows.sessions.length) :
    Transacted rows fire { rows with sessions := rows.sessions ++ [fire.task.session] } stage := by
  have hrun : fire.stage.run = some runId := Stage.run_of_trace htrace
  have hgrows : ∀ own, Grows own rows.sessions (rows.sessions ++ [fire.task.session]) := fun _ => grows_create rfl rfl
  obtain ⟨htraces, run, hget, hqueued, hset⟩ := hfire.traces runId none none htrace
  have hat : (rows.sessions ++ [fire.task.session])[rows.sessions.length]? = some fire.task.session := by
    rw [List.getElem?_append_right le_rfl, Nat.sub_self, List.getElem?_cons_zero]
  have hnone : (none : Option ℕ) ≠ some runId := (Option.some_ne_none _).symm
  refine ⟨?_, ⟨hgrows _, ?_, fun _ _ _ h => h, le_rfl⟩, ⟨?_, ?_, ?_⟩, ?_⟩
  · refine hs.grows (hgrows none) rfl ?_ (fun _ h => absurd h (Option.not_mem_none _))
    intro row hrow
    rw [List.mem_append, List.mem_singleton] at hrow
    rcases hrow with hold | rfl
    · exact hs.sessions row hold
    · exact fire.task.session_sound
  · intro i row row' hrow hrow'
    change (rows.sessions ++ [_])[i]? = some row' at hrow'
    rw [List.getElem?_append_left (List.getElem?_eq_some_iff.1 hrow).1, hrow] at hrow'
    rw [Option.some.inj hrow']
    exact id
  · intro other message place h
    rw [hstage] at h
    obtain ⟨rfl, hrest⟩ := Prod.mk.inj (Option.some.inj h)
    cases hrest
    exact ⟨htraces.grows (hgrows none) hnone, run, hget, hqueued, hset⟩
  · intro i hi
    cases hsession.symm.trans hi
    exact ⟨_, hat, rfl⟩
  · intro i hi row hrow
    cases hsession.symm.trans (Stage.session_of_aims hi)
    rw [Option.some.inj (hrow.symm.trans hat)]
    exact fun h => absurd h (by simp [ScheduledTask.session])
  · intro other hother
    have hsame : stage.run = some runId := Stage.run_of_trace hstage
    cases hsame.symm.trans hother
    exact ⟨(List.getElem?_eq_some_iff.1 hget).1, .inl hrun⟩

theorem Traces.dispatched {event n : ℕ} (h : Traces sessions runId (some (sessionId, event)) (some (sessionId, n)))
    (hsound : ∀ row ∈ sessions, row.Sound) {run : ScheduledTaskRun} (hsession : run.sessionId = some sessionId)
    (htrigger : run.triggerEventId = some event) : run.Dispatched sessions runId := by
  obtain ⟨row, turn, hrow, hturn, hof⟩ := (h.turns sessionId n).2 rfl
  have hrowSound : row.Sound := hsound row (List.mem_of_getElem? hrow)
  have hmessages : ∀ i e, MessageAt sessions runId i e ↔ i = sessionId ∧ e = event := by
    intro i e
    rw [h.messages, Option.some.injEq, Prod.mk.injEq]
    exact ⟨fun heq => ⟨heq.1.symm, heq.2.symm⟩, fun heq => ⟨heq.1.symm, heq.2.symm⟩⟩
  have hmessage : row.events[event]? = some (.userMessage (some runId)) := by
    obtain ⟨row', hrow', hevent⟩ := (h.messages sessionId event).2 rfl
    rw [Option.some.inj (hrow.symm.trans hrow'), hevent]
  refine ⟨sessionId, event, row, hsession, htrigger, hrow, hmessages, n, ?_, ?_⟩
  · have htriggered := hrowSound.triggered turn (List.mem_of_getElem? hturn)
    rw [hof] at htriggered
    change (row.turns[n]?).map (·.triggerEventId) = some event
    rw [hturn, Option.map_some, ((hmessages sessionId _).1 ⟨row, hrow, htriggered⟩).2]
  · intro k hk
    obtain ⟨turn', hturn', hevent⟩ := Option.map_eq_some_iff.1 hk
    have htriggered := hrowSound.triggered turn' (List.mem_of_getElem? hturn')
    rw [hevent, hmessage, Option.some.injEq, SessionEvent.userMessage.injEq] at htriggered
    have hplace := (h.turns sessionId k).1 ⟨row, turn', hrow, hturn', htriggered.symm⟩
    exact (Prod.mk.inj (Option.some.inj hplace)).2.symm

theorem transacted_mark (hs : rows.Sound) (hrun : fire.stage.run = some runId)
    (hknown : ∀ runId ∈ fire.stage.run, runId < rows.runs.length) (g : ScheduledTaskRun → ScheduledTaskRun)
    (hset : ∀ run, (g run).variableSetId = run.variableSetId)
    (hdispatched : ∀ run, (g run).status = .dispatched → (g run).Dispatched rows.sessions runId)
    (hfailed : ∀ run, (g run).status = .failed → ∀ row ∈ rows.sessions, ∀ turn ∈ row.turns,
      turn.scheduledTaskRunId = some runId → turn.settled)
    (htrace : stage.trace = none) (hsession : stage.session = none) (hnext : ∀ other ∈ stage.run, other = runId) :
    Transacted rows fire (rows.updateScheduledTaskRun runId g) stage := by
  have hcases : ∀ (other : ℕ) (run : ScheduledTaskRun), (rows.runs.modify runId g)[other]? = some run →
      runId ≠ other ∧ rows.runs[other]? = some run ∨
        runId = other ∧ ∃ run', rows.runs[runId]? = some run' ∧ run = g run' := by
    intro other run h
    by_cases heq : runId = other
    · subst heq
      rw [List.getElem?_modify_eq] at h
      obtain ⟨run', hrun', rfl⟩ := Option.map_eq_some_iff.1 h
      exact .inr ⟨rfl, run', hrun', rfl⟩
    · rw [List.getElem?_modify_ne _ _ heq] at h
      exact .inl ⟨heq, h⟩
  have hlength : (rows.updateScheduledTaskRun runId g).runs.length = rows.runs.length := List.length_modify _ _ _
  refine ⟨⟨hs.sessions, ?_, ?_, ?_, ?_⟩, ⟨.refl, ?_, ?_, ?_⟩, Fire.sound_of_silent htrace hsession, ?_⟩
  · intro other hle
    rw [hlength] at hle
    exact hs.fresh other hle
  · intro other run hget hstatus
    rcases hcases other run hget with ⟨-, hold⟩ | ⟨rfl, run', -, rfl⟩
    · exact hs.dispatched other run hold hstatus
    · exact hdispatched run' hstatus
  · intro other run hget hstatus
    rcases hcases other run hget with ⟨-, hold⟩ | ⟨rfl, run', -, rfl⟩
    · exact hs.failed other run hold hstatus
    · exact hfailed run' hstatus
  · intro other run hget
    rcases hcases other run hget with ⟨-, hold⟩ | ⟨rfl, run', hrun', rfl⟩
    · exact hs.variableSet other run hold
    · rw [hset]
      exact hs.variableSet runId run' hrun'
  · intro i row row' hrow hrow'
    change rows.sessions[i]? = some row' at hrow'
    rw [hrow] at hrow'
    rw [Option.some.inj hrow']
    exact id
  · intro other run hne hget
    change (rows.runs.modify runId g)[other]? = some run
    rw [List.getElem?_modify_ne _ _ (fun heq => hne (by rw [hrun, heq])), hget]
  · exact hlength.ge
  · intro other hother
    rw [hnext other hother, hlength]
    exact ⟨hknown runId hrun, .inl hrun⟩

theorem ScheduledTask.userMessage_notMem_goalEvents (task : ScheduledTask) (runId : ℕ) :
    .userMessage (some runId) ∉ task.goalEvents := by
  unfold goalEvents
  cases task.goal with
  | none | some => simp

theorem ScheduledTask.userMessage_notMem_openingEvents (task : ScheduledTask) (runId other : ℕ) :
    .userMessage (some other) ∉ task.openingEvents runId := by
  unfold openingEvents
  cases task.goal with
  | none | some => simp

theorem transacted_choosing {task : ScheduledTask} (hs : rows.Sound) (hfire : Fire.Sound rows ⟨task, .choosing runId⟩)
    (hknown : ∀ other ∈ (Stage.choosing runId).run, other < rows.runs.length)
    (h : Fire.transact rows ⟨task, .choosing runId⟩ = some (rows', stage)) :
    Transacted rows ⟨task, .choosing runId⟩ rows' stage := by
  simp only [Fire.transact] at h
  split at h
  · split at h
    · contradiction
    rename_i sessionId _ _ _ session hsession
    by_cases hfits : task.fits session = true
    · rw [if_pos hfits] at h
      obtain ⟨rfl, hstage⟩ := Prod.mk.inj (Option.some.inj h)
      have hset : session.variableSetId = task.variableSetId := of_decide_eq_true (Bool.and_eq_true_iff.1 hfits).2
      rw [← hstage]
      split
      all_goals
        refine transacted_same hs rfl rfl ⟨hfire.traces, ?_, fun i hi => absurd hi (Option.not_mem_none i)⟩ hknown
          fun _ hrun => hrun
        intro i hi
        cases hi
        exact ⟨session, hsession, hset⟩
    · rw [if_neg hfits] at h
      contradiction
  · obtain ⟨rfl, hstage⟩ := Prod.mk.inj (Option.some.inj h)
    rw [← hstage]
    split
    all_goals exact transacted_session hs hfire rfl rfl rfl

/-- **Every transaction of a fire** keeps the rows sound, the fire and the others. -/
theorem Fire.transacted (hs : rows.Sound) (hfire : fire.Sound rows)
    (hknown : ∀ runId ∈ fire.stage.run, runId < rows.runs.length)
    (hfails : ∀ runId ∈ fire.stage.fails, ∀ row ∈ rows.sessions, ∀ turn ∈ row.turns,
      turn.scheduledTaskRunId = some runId → turn.settled)
    (h : fire.transact rows = some (rows', stage)) : Transacted rows fire rows' stage := by
  obtain ⟨task, stage₀⟩ := fire
  cases stage₀ with
  | creatingRun =>
    cases h
    exact transacted_run hs _ rfl rfl
  | recordingFired | settingReusableSession =>
    cases h
    exact transacted_same hs rfl rfl (hfire.goesOn rfl rfl fun _ hi => hi) hknown fun _ hrun => hrun
  | choosing runId => exact transacted_choosing hs hfire hknown h
  | creatingGoal | upsertingGoal =>
    cases h
    exact transacted_aside hs hfire hknown (fun _ => .of_eq rfl rfl rfl) (fun _ hrow => hrow.of_eq rfl rfl rfl rfl)
      (fun _ => rfl) rfl rfl (fun _ hi => hi) rfl
  | settingWorkflowId runId sessionId =>
    obtain ⟨rfl, hstage⟩ := Prod.mk.inj (Option.some.inj h)
    rw [← hstage]
    split
    all_goals
      exact transacted_aside hs hfire hknown (fun _ => .of_eq rfl rfl rfl) (fun _ hrow => hrow.of_eq rfl rfl rfl rfl)
        (fun _ => rfl) rfl rfl (fun _ hi => hi) rfl
  | appending runId sessionId =>
    simp only [Fire.transact] at h
    split at h
    · contradiction
    rename_i row hrow
    cases h
    have halive : row.status ≠ .cancelled := hfire.aims sessionId rfl row hrow
    refine transacted_message hs hfire rfl rfl hrow halive (task.userMessage_notMem_openingEvents runId) ?_
    intro other hother
    rw [List.mem_singleton] at hother
    contradiction
  | appendingLocked runId sessionId =>
    simp only [Fire.transact] at h
    split at h
    · contradiction
    rename_i row hrow
    by_cases hcancelled : row.status = .cancelled
    · rw [if_pos hcancelled] at h
      contradiction
    rw [if_neg hcancelled] at h
    cases h
    exact transacted_message hs hfire rfl rfl hrow hcancelled task.userMessage_notMem_goalEvents
      fun _ => List.not_mem_nil
  | enqueuing runId sessionId event =>
    simp only [Fire.transact] at h
    split at h
    · contradiction
    rename_i row hrow
    cases h
    exact transacted_turn hs hfire rfl hrow rfl rfl
  | announcing runId sessionId event turn =>
    cases h
    refine transacted_aside hs hfire hknown ?_ (fun _ hrow => hrow.append _) (fun _ => rfl) rfl rfl (fun _ hi => hi) rfl
    intro row
    apply SessionRow.grows_append
    intro other hother
    rw [List.mem_singleton] at hother
    contradiction
  | markingDispatched runId sessionId event turn =>
    cases h
    refine transacted_mark hs rfl hknown _ (fun _ => rfl) ?_ (fun _ hstatus => ?_) rfl rfl ?_
    · exact fun _ _ => (hfire.traces runId _ _ rfl).1.dispatched hs.sessions rfl rfl
    · contradiction
    · exact fun other hother => (Option.some.inj hother).symm
  | recordingCreated runId =>
    cases h
    exact transacted_same hs rfl rfl (Fire.sound_of_silent rfl rfl) hknown fun _ hrun => absurd hrun (Option.not_mem_none _)
  | markingFailed runId =>
    cases h
    refine transacted_mark hs rfl hknown _ (fun _ => rfl) (fun _ hstatus => ?_) (fun _ _ => hfails runId rfl) rfl rfl ?_
    · contradiction
    · exact fun other hother => absurd hother (Option.not_mem_none _)
  | ended => contradiction

end OpenGeni.Worker.Schedule
