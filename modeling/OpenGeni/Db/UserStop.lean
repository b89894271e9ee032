/-
The stop of a user and the goal tools of a machine's turn.

A user's interrupt, unless it steers, pauses the active goal with the reason `user_interrupt`.
`goal_set` asks `assertGoalReactivationAllowed` first: a turn that the machine injected for a
finished child may not set a goal that is paused for that reason. The question and the upsert
are two transactions, and so are the read and the write of the stop. Everything the guard knows
of the stop is the reason on the row.
-/
import OpenGeni.Db.SessionGoals
import OpenGeni.Lib.Run

namespace OpenGeni.Db

open OpenGeni.Lib

/-! ## What the code asks -/

/-- The event that triggered an interrupt; `reason` is its payload's, where that is an object. -/
structure InterruptTrigger where
  type : String
  reason : Option String

def isSteerInterrupt (trigger : Option InterruptTrigger) : Bool :=
  trigger.any fun trigger => trigger.type == "user.interrupt" && trigger.reason == some "steer"

/-- What identifies the turn that minted a token. `metadata` are the keys of the object. -/
structure CallerTurn where
  source : String
  metadata : Option (List String)

def isMachineChildNotificationTurn (turn : CallerTurn) : Bool :=
  turn.source == "child_notification" || turn.metadata.any (·.contains "childCompletion")

def GoalPauseReason.text : GoalPauseReason → String
  | .noProgress => "no_progress"
  | .maxAutoContinuations => "max_auto_continuations"
  | .limits => "limits"

/-! ## The state -/

/-- A `goal_set` call that is past its guard. -/
structure GoalSetCall where
  callerTurnId : Option ℕ
  input : CreateSessionGoalInput

structure GoalControl where
  tables : SessionTables
  pausedReason : Option String
  goalSets : List GoalSetCall
  /-- The stops that have read an active goal and are about to pause it. -/
  stops : ℕ
  /-- A stop has been handled, and nothing that may lift it has happened since. -/
  stopped : Bool

namespace GoalControl

def Marked (s : GoalControl) : Prop :=
  s.tables.goal.any (·.status == .paused) = true ∧ s.pausedReason = some "user_interrupt"

instance (s : GoalControl) : Decidable s.Marked := inferInstanceAs (Decidable (_ ∧ _))

def Active (s : GoalControl) : Prop := s.tables.goal.any (·.status == .active) = true

instance (s : GoalControl) : Decidable s.Active := inferInstanceAs (Decidable (_ = true))

/-- The rows of turns by id: the source of a turn and its marker never change. -/
abbrev CallerTurns := ℕ → Option CallerTurn

def machine (callers : CallerTurns) (callerTurnId : Option ℕ) : Bool :=
  (callerTurnId.bind callers).any isMachineChildNotificationTurn

/-- `false` throws. -/
def assertGoalReactivationAllowed (callers : CallerTurns) (callerTurnId : Option ℕ) (s : GoalControl) : Bool :=
  match callerTurnId with
  | none => true
  | some callerTurnId =>
    if ¬ s.Marked then true
    else
      match callers callerTurnId with
      | none => true
      | some turn => !isMachineChildNotificationTurn turn

def upsertGoal (input : CreateSessionGoalInput) (s : GoalControl) : GoalControl :=
  { s with tables := upsertSessionGoal input s.tables, pausedReason := none }

/-- `setSessionGoalStatus` with the reason of a pause. A goal that has the status already is left alone. -/
def setGoalStatus (status : SessionGoalStatus) (pausedReason : Option String) (s : GoalControl) :
    Option GoalControl :=
  (setSessionGoalStatus status s.tables).map fun tables =>
    { s with
      tables
      pausedReason := if s.tables.goal.any (·.status == status) then s.pausedReason
        else if status = .paused then pausedReason
        else none }

def evaluate (input : EvaluateInput) (s : GoalControl) : GoalControl :=
  let (tables, decision) := evaluateGoalContinuation input s.tables
  { s with
    tables
    pausedReason := match decision with
      | .paused reason _ => some reason.text
      | _ => s.pausedReason }

/-! ## Steps -/

inductive Event
  /-- `pauseGoalForInterrupt`, or the pause inside `interruptActiveTurn`, up to its read. -/
  | interrupt (trigger : Option InterruptTrigger)
  /-- The write of a stop that has read an active goal. -/
  | interruptWrite
  /-- `goal_set` up to its guard. -/
  | goalSet (callerTurnId : Option ℕ) (input : CreateSessionGoalInput)
  | goalSetWrite (index : ℕ)
  | goalUpdate (text : Option String) (successCriteria : Option (Option String))
  | goalComplete
  | goalPause
  | evaluate (input : EvaluateInput)
  | requestSet (input : CreateSessionGoalInput)
  | requestResume
  | requestPause
  | requestClear (eventId : ℕ)
  /-- Everything else that happens to the session leaves the status of the goal. -/
  | elsewhere (tables : SessionTables)

def step (callers : CallerTurns) (s : GoalControl) : Event → Option GoalControl
  | .interrupt trigger =>
    if isSteerInterrupt trigger then some s
    else if ¬ s.Active then some { s with stopped := true }
    else some { s with stops := s.stops + 1 }
  | .interruptWrite =>
    if s.stops = 0 then none
    else
      let s := { s with stops := s.stops - 1 }
      match s.setGoalStatus .paused (some "user_interrupt") with
      -- The goal is gone or completed: the activity throws, and is tried again from its read.
      | none => some s
      | some t => some { t with stopped := true }
  | .goalSet callerTurnId input =>
    if assertGoalReactivationAllowed callers callerTurnId s then
      some { s with goalSets := s.goalSets ++ [{ callerTurnId, input }] }
    else some s
  | .goalSetWrite index =>
    s.goalSets[index]?.map fun call =>
      { s.upsertGoal call.input with
        goalSets := s.goalSets.eraseIdx index
        stopped := s.stopped && machine callers call.callerTurnId }
  | .goalUpdate text successCriteria =>
    (updateSessionGoal text successCriteria s.tables).map fun tables => { s with tables }
  | .goalComplete => s.setGoalStatus .completed none
  | .goalPause => s.setGoalStatus .paused (some "agent")
  | .evaluate input => some (s.evaluate input)
  | .requestSet input => some { s.upsertGoal input with stopped := false }
  | .requestResume => (s.setGoalStatus .active none).map fun t => { t with stopped := false }
  | .requestPause => s.setGoalStatus .paused (some "api")
  | .requestClear eventId => some { s with tables := clearSessionGoal eventId s.tables }
  | .elsewhere tables =>
    if tables.goal.map (·.status) = s.tables.goal.map (·.status) then some { s with tables } else none

def Fresh (s : GoalControl) : Prop := s.stopped = false ∧ s.goalSets = [] ∧ s.stops = 0

instance (s : GoalControl) : Decidable s.Fresh := inferInstanceAs (Decidable (_ ∧ _))

/-- **A stop stands**: the goal is not active. -/
def Sacred (s : GoalControl) : Prop := s.stopped = true → ¬ s.Active

instance (s : GoalControl) : Decidable s.Sacred := inferInstanceAs (Decidable (_ → _))

def Handles (s : GoalControl) : Event → Prop
  | .interrupt trigger => isSteerInterrupt trigger = false ∧ ¬ s.Active
  | .interruptWrite => s.tables.goal.any (·.status != .completed) = true
  | _ => False

/-- A machine's turn that sets a goal after a stop finds the mark of the stop. -/
def FindsMark (callers : CallerTurns) (s : GoalControl) : Event → Prop
  | .goalSet callerTurnId _ => machine callers callerTurnId = true → s.stopped = true → s.Marked
  | _ => True

/-- What the guard takes for granted: a machine's turn finds the mark of a stop, and no stop is
handled while such a turn is past its guard. -/
def Guarded (callers : CallerTurns) (s : GoalControl) (e : Event) : Prop :=
  s.FindsMark callers e ∧ (s.Handles e → ∀ call ∈ s.goalSets, machine callers call.callerTurnId = false)

instance (s : GoalControl) : (e : Event) → Decidable (s.Handles e)
  | .interrupt _ => inferInstanceAs (Decidable (_ ∧ _))
  | .interruptWrite => inferInstanceAs (Decidable (_ = true))
  | .goalSet _ _ | .goalSetWrite _ | .goalUpdate _ _ | .goalComplete | .goalPause | .evaluate _ | .requestSet _
  | .requestResume | .requestPause | .requestClear _ | .elsewhere _ => .isFalse id

instance (callers : CallerTurns) (s : GoalControl) : (e : Event) → Decidable (s.FindsMark callers e)
  | .goalSet _ _ => inferInstanceAs (Decidable (_ → _ → _))
  | .interrupt _ | .interruptWrite | .goalSetWrite _ | .goalUpdate _ _ | .goalComplete | .goalPause | .evaluate _
  | .requestSet _ | .requestResume | .requestPause | .requestClear _ | .elsewhere _ => .isTrue trivial

instance (callers : CallerTurns) (s : GoalControl) (e : Event) : Decidable (s.Guarded callers e) :=
  inferInstanceAs (Decidable (_ ∧ (_ → _)))

end GoalControl

/-! ## The status of the goal -/

section

variable {tables tables' : SessionTables}

theorem upsertSessionGoal_status (input : CreateSessionGoalInput) (tables : SessionTables) :
    (upsertSessionGoal input tables).goal.map (·.status) = some .active := by
  unfold upsertSessionGoal
  split <;> rfl

theorem setSessionGoalStatus_status {status : SessionGoalStatus} (h : setSessionGoalStatus status tables = some tables') :
    tables'.goal.map (·.status) = some status := by
  unfold setSessionGoalStatus at h
  split at h
  · contradiction
  rename_i existing hgoal
  by_cases hsame : existing.status = status
  · rw [if_pos hsame] at h
    rw [← Option.some.inj h, hgoal, Option.map_some, hsame]
  rw [if_neg hsame] at h
  by_cases hcompleted : existing.status = .completed
  · rw [if_pos hcompleted] at h
    contradiction
  rw [if_neg hcompleted] at h
  rw [← Option.some.inj h, Option.map_some]
  split <;> rfl

theorem setSessionGoalStatus_paused_isSome (tables : SessionTables) :
    (setSessionGoalStatus .paused tables).isSome = tables.goal.any (·.status != .completed) := by
  unfold setSessionGoalStatus
  cases hgoal : tables.goal with
  | none => rfl
  | some existing =>
    by_cases hpaused : existing.status = .paused
    · simp [hpaused]
    by_cases hcompleted : existing.status = .completed
    · simp [hcompleted]
    · simp [hpaused, hcompleted]

theorem updateSessionGoal_status {text : Option String} {successCriteria : Option (Option String)}
    (h : updateSessionGoal text successCriteria tables = some tables') :
    tables'.goal.map (·.status) = tables.goal.map (·.status) := by
  unfold updateSessionGoal at h
  rw [Option.map_eq_some_iff] at h
  obtain ⟨goal, hgoal, htables⟩ := h
  rw [← htables, hgoal]
  rfl

theorem clearSessionGoal_status (eventId : ℕ) (tables : SessionTables) :
    (clearSessionGoal eventId tables).goal.map (·.status) = none := by
  unfold clearSessionGoal
  split
  · rename_i hgoal
    rw [hgoal, Option.map_none]
  · rfl

theorem evaluateGoalContinuation_status (input : EvaluateInput) (tables : SessionTables)
    (h : (evaluateGoalContinuation input tables).1.goal.map (·.status) = some .active) :
    tables.goal.map (·.status) = some .active := by
  unfold evaluateGoalContinuation at h
  split at h
  · exact h
  rename_i goal hactive
  rw [Option.filter_eq_some_iff] at hactive
  rw [hactive.1, Option.map_some, beq_iff_eq.1 hactive.2]

end

namespace GoalControl

variable {callers : CallerTurns} {s t : GoalControl} {e : Event}

theorem active_iff : s.Active ↔ s.tables.goal.map (·.status) = some .active := by
  unfold Active
  rw [Option.any_eq_true, Option.map_eq_some_iff]
  simp only [beq_iff_eq]

variable {status : SessionGoalStatus} {reason : Option String}

theorem not_active_of_status (h : s.tables.goal.map (·.status) = some status)
    (hne : status ≠ .active) : ¬ s.Active := by
  rw [active_iff, h]
  exact fun heq => hne (Option.some.inj heq)

theorem active_of_status_eq (h : t.tables.goal.map (·.status) = s.tables.goal.map (·.status)) (ht : t.Active) :
    s.Active := by
  rw [active_iff] at ht ⊢
  rw [← h, ht]

theorem setGoalStatus_frame (h : s.setGoalStatus status reason = some t) :
    t.stopped = s.stopped ∧ t.goalSets = s.goalSets ∧ t.tables.goal.map (·.status) = some status := by
  unfold setGoalStatus at h
  rw [Option.map_eq_some_iff] at h
  obtain ⟨tables, htables, rfl⟩ := h
  exact ⟨rfl, rfl, setSessionGoalStatus_status htables⟩

theorem setGoalStatus_isSome (status : SessionGoalStatus) (reason : Option String) (s : GoalControl) :
    (s.setGoalStatus status reason).isSome = (setSessionGoalStatus status s.tables).isSome :=
  Option.isSome_map

/-! ## What a step can do -/

theorem assertGoalReactivationAllowed_eq (callers : CallerTurns) (callerTurnId : Option ℕ) (s : GoalControl) :
    assertGoalReactivationAllowed callers callerTurnId s = !(decide s.Marked && machine callers callerTurnId) := by
  unfold assertGoalReactivationAllowed machine
  cases callerTurnId with
  | none => simp
  | some callerTurnId =>
    by_cases hmarked : s.Marked
    · cases hturn : callers callerTurnId with
      | none | some => simp [hturn]
    · simp [hmarked]

inductive Effect (callers : CallerTurns) (s : GoalControl) (e : Event) (t : GoalControl) : Prop
  | quiet (stopped : t.stopped = s.stopped) (active : t.Active → s.Active) (goalSets : t.goalSets = s.goalSets)
  | lifted (stopped : t.stopped = false)
  | handled (handles : s.Handles e) (inactive : ¬ t.Active) (stopped : t.stopped = true)
      (goalSets : t.goalSets = s.goalSets)
  | letThrough (call : GoalSetCall) (event : e = .goalSet call.callerTurnId call.input)
      (allowed : assertGoalReactivationAllowed callers call.callerTurnId s = true)
      (next : t = { s with goalSets := s.goalSets ++ [call] })
  | upserted (call : GoalSetCall) (mem : call ∈ s.goalSets) (machine : machine callers call.callerTurnId = true)
      (stopped : t.stopped = s.stopped) (goalSets : ∀ other ∈ t.goalSets, other ∈ s.goalSets)

theorem effect_of_setGoalStatus (h : s.setGoalStatus status reason = some t)
    (hne : status ≠ .active) : Effect callers s e t := by
  obtain ⟨hstopped, hcalls, hstatus⟩ := setGoalStatus_frame h
  refine .quiet hstopped ?_ hcalls
  exact fun hactive => absurd hactive (not_active_of_status hstatus hne)

theorem interrupt_effect {trigger : Option InterruptTrigger} (h : step callers s (.interrupt trigger) = some t) :
    Effect callers s (.interrupt trigger) t := by
  simp only [step] at h
  by_cases hsteer : isSteerInterrupt trigger = true
  · rw [if_pos hsteer] at h
    rw [← Option.some.inj h]
    exact .quiet rfl id rfl
  rw [if_neg hsteer] at h
  by_cases hactive : s.Active
  · rw [if_neg (not_not.2 hactive)] at h
    rw [← Option.some.inj h]
    exact .quiet rfl id rfl
  · rw [if_pos hactive] at h
    rw [← Option.some.inj h]
    exact .handled ⟨Bool.not_eq_true _ ▸ hsteer, hactive⟩ hactive rfl rfl

theorem interruptWrite_effect (h : step callers s .interruptWrite = some t) : Effect callers s .interruptWrite t := by
  simp only [step] at h
  by_cases hstops : s.stops = 0
  · rw [if_pos hstops] at h
    contradiction
  rw [if_neg hstops] at h
  split at h
  · rw [← Option.some.inj h]
    exact .quiet rfl id rfl
  rename_i u hset
  obtain ⟨-, hcalls, hstatus⟩ := setGoalStatus_frame hset
  have hhandles : s.Handles .interruptWrite := by
    unfold Handles
    rw [← setSessionGoalStatus_paused_isSome, ← setGoalStatus_isSome .paused (some "user_interrupt")
      { s with stops := s.stops - 1 }, hset]
    rfl
  rw [← Option.some.inj h]
  exact .handled hhandles (not_active_of_status hstatus (by decide)) rfl hcalls

theorem goalSet_effect {callerTurnId : Option ℕ} {input : CreateSessionGoalInput}
    (h : step callers s (.goalSet callerTurnId input) = some t) : Effect callers s (.goalSet callerTurnId input) t := by
  simp only [step] at h
  by_cases hallowed : assertGoalReactivationAllowed callers callerTurnId s = true
  · rw [if_pos hallowed] at h
    exact .letThrough ⟨callerTurnId, input⟩ rfl hallowed (Option.some.inj h).symm
  · rw [if_neg hallowed] at h
    rw [← Option.some.inj h]
    exact .quiet rfl id rfl

theorem goalSetWrite_effect {index : ℕ} (h : step callers s (.goalSetWrite index) = some t) :
    Effect callers s (.goalSetWrite index) t := by
  simp only [step] at h
  rw [Option.map_eq_some_iff] at h
  obtain ⟨call, hcall, rfl⟩ := h
  by_cases hmachine : machine callers call.callerTurnId = true
  · refine .upserted call (List.mem_of_getElem? hcall) hmachine ?_ ?_
    · change (s.stopped && machine callers call.callerTurnId) = s.stopped
      rw [hmachine, Bool.and_true]
    · exact fun other hother => List.mem_of_mem_eraseIdx hother
  · rw [Bool.not_eq_true] at hmachine
    apply Effect.lifted
    change (s.stopped && machine callers call.callerTurnId) = false
    rw [hmachine, Bool.and_false]

theorem step_effect (h : step callers s e = some t) : Effect callers s e t := by
  cases e with
  | interrupt trigger => exact interrupt_effect h
  | interruptWrite => exact interruptWrite_effect h
  | goalSet callerTurnId input => exact goalSet_effect h
  | goalSetWrite index => exact goalSetWrite_effect h
  | goalUpdate text successCriteria =>
    simp only [step] at h
    rw [Option.map_eq_some_iff] at h
    obtain ⟨tables, htables, rfl⟩ := h
    exact .quiet rfl (active_of_status_eq (updateSessionGoal_status htables)) rfl
  | evaluate input =>
    rw [← Option.some.inj h]
    refine .quiet rfl ?_ rfl
    rw [active_iff, active_iff]
    exact evaluateGoalContinuation_status input s.tables
  | requestSet input =>
    rw [← Option.some.inj h]
    exact .lifted rfl
  | requestResume =>
    simp only [step] at h
    rw [Option.map_eq_some_iff] at h
    obtain ⟨u, -, rfl⟩ := h
    exact .lifted rfl
  | requestClear eventId =>
    rw [← Option.some.inj h]
    refine .quiet rfl ?_ rfl
    rw [active_iff, clearSessionGoal_status]
    intro hnone
    contradiction
  | elsewhere tables =>
    simp only [step] at h
    by_cases hsame : tables.goal.map (·.status) = s.tables.goal.map (·.status)
    · rw [if_pos hsame] at h
      rw [← Option.some.inj h]
      exact .quiet rfl (active_of_status_eq hsame) rfl
    · rw [if_neg hsame] at h
      contradiction
  | _ => exact effect_of_setGoalStatus h (by decide)

/-! ## The stop stands -/

/-- Under a stop the goal is not active, and no call of a machine is past its guard. -/
def Held (callers : CallerTurns) (s : GoalControl) : Prop :=
  s.Sacred ∧ (s.stopped = true → ∀ call ∈ s.goalSets, machine callers call.callerTurnId = false)

theorem Fresh.held (h : s.Fresh) : s.Held callers := by
  refine ⟨?_, ?_⟩
  · intro hstopped
    rw [h.1] at hstopped
    contradiction
  · rw [h.2.1]
    exact fun _ _ hcall => absurd hcall List.not_mem_nil

theorem Held.next (hs : s.Held callers) (h : step callers s e = some t) (hguarded : s.Guarded callers e) :
    t.Held callers := by
  unfold Held Sacred at *
  rcases step_effect h with ⟨hstopped, hactive, hcalls⟩ | hlifted | ⟨hhandles, hinactive, -, hcalls⟩ |
    ⟨call, he, hallowed, rfl⟩ | ⟨call, hmem, hmachine, hstopped, -⟩
  · rw [hstopped, hcalls]
    exact ⟨fun hstands ht => hs.1 hstands (hactive ht), hs.2⟩
  · rw [hlifted]
    exact ⟨fun hfalse => absurd hfalse Bool.false_ne_true, fun hfalse => absurd hfalse Bool.false_ne_true⟩
  · rw [hcalls]
    exact ⟨fun _ => hinactive, fun _ => hguarded.2 hhandles⟩
  · refine ⟨hs.1, ?_⟩
    intro hstands other hother
    rw [List.mem_append, List.mem_singleton] at hother
    rcases hother with hold | rfl
    · exact hs.2 hstands other hold
    -- a machine's call that is let through under the stop would have found the mark
    by_contra hmachine
    rw [Bool.not_eq_false] at hmachine
    rw [he] at hguarded
    have hmarked : s.Marked := hguarded.1 hmachine hstands
    rw [assertGoalReactivationAllowed_eq, hmachine, decide_eq_true hmarked] at hallowed
    contradiction
  · -- the upsert of a machine's call would break the stop, so there is none
    have hlifted : s.stopped = false := by
      by_contra hstands
      rw [Bool.not_eq_false] at hstands
      rw [hs.2 hstands call hmem] at hmachine
      contradiction
    rw [hstopped, hlifted]
    exact ⟨fun hfalse => absurd hfalse Bool.false_ne_true, fun hfalse => absurd hfalse Bool.false_ne_true⟩

/-! ## What the condition leaves out -/

theorem machine_call_rearms {call : GoalSetCall} (hstopped : s.stopped = true) (hcall : call ∈ s.goalSets)
    (hmachine : machine callers call.callerTurnId = true) :
    ∃ index t, step callers s (.goalSetWrite index) = some t ∧ ¬ t.Sacred := by
  obtain ⟨index, hindex, hget⟩ := List.mem_iff_getElem.1 hcall
  have hstep : step callers s (.goalSetWrite index) = some { s.upsertGoal call.input with
          goalSets := s.goalSets.eraseIdx index
          stopped := s.stopped && machine callers call.callerTurnId } := by
    simp only [step]
    rw [List.getElem?_eq_getElem hindex, hget, Option.map_some]
  refine ⟨index, _, hstep, ?_⟩
  intro hsacred
  apply hsacred
  · change (s.stopped && machine callers call.callerTurnId) = true
    rw [hstopped, hmachine]
    rfl
  · rw [active_iff]
    exact upsertSessionGoal_status call.input s.tables

theorem Handles.stopped (hhandles : s.Handles e) (h : step callers s e = some t) :
    t.stopped = true ∧ t.goalSets = s.goalSets := by
  cases e with
  | interrupt trigger =>
    simp only [step] at h
    rw [if_neg (by rw [hhandles.1]; decide), if_pos hhandles.2] at h
    rw [← Option.some.inj h]
    exact ⟨rfl, rfl⟩
  | interruptWrite =>
    simp only [step] at h
    by_cases hstops : s.stops = 0
    · rw [if_pos hstops] at h
      contradiction
    rw [if_neg hstops] at h
    split at h
    · rename_i hthrows
      unfold Handles at hhandles
      rw [← setSessionGoalStatus_paused_isSome, ← setGoalStatus_isSome .paused (some "user_interrupt")
        { s with stops := s.stops - 1 }, hthrows] at hhandles
      contradiction
    · rename_i u hset
      rw [← Option.some.inj h]
      exact ⟨rfl, (setGoalStatus_frame hset).2.1⟩
  | _ => exact hhandles.elim

theorem unguarded_rearms (h : step callers s e = some t) (hguarded : ¬ s.Guarded callers e) :
    ∃ index u, step callers t (.goalSetWrite index) = some u ∧ ¬ u.Sacred := by
  rcases not_and_or.1 hguarded with hunmarked | hpast
  · -- the machine's call finds no mark, and the guard lets it through
    cases e with
    | goalSet callerTurnId input => ?_
    | _ => exact absurd trivial hunmarked
    unfold FindsMark at hunmarked
    push Not at hunmarked
    obtain ⟨hmachine, hstopped, hmark⟩ := hunmarked
    have hallowed : assertGoalReactivationAllowed callers callerTurnId s = true := by
      rw [assertGoalReactivationAllowed_eq, decide_eq_false hmark]
      rfl
    simp only [step] at h
    rw [if_pos hallowed] at h
    rw [← Option.some.inj h]
    exact machine_call_rearms hstopped (List.mem_append_right _ (List.mem_singleton_self _)) hmachine
  · -- the call was past its guard when the stop was handled
    push Not at hpast
    obtain ⟨hhandles, call, hcall, hmachine⟩ := hpast
    rw [ne_eq, Bool.not_eq_false] at hmachine
    obtain ⟨hstopped, hcalls⟩ := hhandles.stopped h
    rw [← hcalls] at hcall
    exact machine_call_rearms hstopped hcall hmachine

/-! ## Runs -/

def Step (callers : CallerTurns) (s : GoalControl) (e : Event) (t : GoalControl) : Prop := step callers s e = some t

/-- **A stop stands for good where the guard can see it.** In every run whose machine turns find the mark of the
stop, and are not past their guard when it is handled, the goal stays inactive until a request, a fire or another
turn sets it; the first step without this leaves a call whose upsert revives it. -/
theorem sacred_of_guarded (callers : CallerTurns) {s : GoalControl} (hs : s.Fresh) (es : List Event) :
    (EachStep (Step callers) (Guarded callers) s es → EachState (Step callers) Sacred s es) ∧
    ∀ es₁ e t t', Run (Step callers) s es₁ t → Step callers t e t' → ¬ t.Guarded callers e →
      ∃ index u, Step callers t' (.goalSetWrite index) u ∧ ¬ u.Sacred := by
  refine ⟨?_, ?_⟩
  · intro hsteps
    refine eachState_of_eachStep (P := Held callers) ?_ ?_ hs.held hsteps
    · exact fun _ hheld => hheld.1
    · exact fun _ _ _ hstep hheld hguarded => hheld.next hstep hguarded
  · exact fun _ _ _ _ _ hstep hguarded => unguarded_rearms hstep hguarded

/-! ## The short sequences -/

def digestTurns : CallerTurns := fun _ => some { source := "child_notification", metadata := none }

def resumeInput : CreateSessionGoalInput :=
  { id := 1, text := "go on", successCriteria := none, maxAutoContinuations := none }

def working : GoalControl :=
  { tables :=
      { session :=
          { id := 0, status := .running, activeTurnId := none, lastSequence := 0, passiveMode := false }
        turns := []
        goal := some resumeInput.row
        events := []
        leases := []
        waiter := none }
    pausedReason := none
    goalSets := []
    stops := 0
    stopped := false }

/-- The stop comes between the guard of a call and its upsert, or finds the goal paused by the agent;
or the turn completes the goal first. -/
def brokenStops : List (List Event) :=
  [ [.goalSet (some 7) resumeInput, .interrupt none, .interruptWrite, .goalSetWrite 0],
    [.goalPause, .interrupt none, .goalSet (some 7) resumeInput, .goalSetWrite 0],
    [.interrupt none, .interruptWrite, .goalComplete, .goalSet (some 7) resumeInput, .goalSetWrite 0] ]

/-- Each of them makes the goal active under the stop. -/
theorem machine_turn_rearms_stopped_goal :
    working.Fresh ∧ ∀ es ∈ brokenStops, ¬ EachState (Step digestTurns) Sacred working es := by
  refine ⟨by decide, ?_⟩
  have hplay : ∀ es ∈ brokenStops, ∃ t ∈ play (step digestTurns) working es, ¬ t.Sacred := by
    decide +kernel
  exact fun es hes => not_eachState_of_play (hplay es hes)

/-- Right after the stop the guard refuses. -/
theorem sacred_of_guarded_refused :
    EachState (Step digestTurns) Sacred working [.interrupt none, .interruptWrite, .goalSet (some 7) resumeInput] := by
  apply (sacred_of_guarded digestTurns (s := working) (by decide) _).1
  have hplay : ((play (guarded (step digestTurns) (Guarded digestTurns)) working
      [.interrupt none, .interruptWrite, .goalSet (some 7) resumeInput]).isSome) = true := by
    decide +kernel
  obtain ⟨t, ht⟩ := Option.isSome_iff_exists.1 hplay
  exact eachStep_of_guarded ht

end GoalControl

end OpenGeni.Db
