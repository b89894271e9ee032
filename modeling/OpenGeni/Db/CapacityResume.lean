/-
One continuation for a capacity wait, and only if nothing overtook it.

The history of a session keeps what its rows forget: which turns were enqueued since the
present generation was armed, whether the goal has stood at the armed version all the time,
and which continuations were created, with what had happened then. A generation is resumed
once because the resume ends its waiting, and the goal is compared by a version that only
rises.

That no other turn was enqueued is decided by positions: a turn behind the blocked one counts
as later. A reorder, or a message that takes a notification's slot, can give a later turn a
position that is not behind, and once it has finished nothing tells of it any more.
`KeepsBehind` rules that out.
-/
import OpenGeni.Db.CapacityWait
import OpenGeni.Db.SessionGoals
import OpenGeni.Lib.Run

namespace OpenGeni.Db

open OpenGeni.Lib

/-! ## The history of a session -/

/-- A continuation turn, with what had happened since its generation was armed. -/
structure CapacityContinuation where
  waiterId : ℕ
  generation : ℕ
  goalKept : Bool
  enqueuedSince : List ℕ

structure CapacityHistory where
  tables : SessionTables
  enqueuedSince : List ℕ
  goalKept : Bool
  continuations : List CapacityContinuation

inductive CapacityEvent
  | armCodexCapacityWait (now : ℕ) (input : ArmInput)
  | reconcileCodexCapacityWait (now : ℕ) (input : ReconcileInput) (decision : CapacityAvailability)
  | validateCodexCapacityResumeTurn (now : ℕ) (input : ValidateInput)
  | enqueueSessionTurn (now : ℕ) (input : EnqueueSessionTurnInput)
  | reorderQueuedSessionTurns (turnIds : List ℕ)
  | turnEdit (edit : TurnEdit)
  | goalEdit (edit : GoalEdit)

def SessionTables.armedGoalStands (t : SessionTables) : Bool :=
  t.waiter.all fun w => t.goal.any fun goal => goal.id == w.goalId && goal.status == .active && goal.version == w.goalVersion

namespace CapacityHistory

def setTables (s : CapacityHistory) (tables : SessionTables) : CapacityHistory :=
  { s with tables, goalKept := s.goalKept && tables.armedGoalStands }

def hasTurn (turnId : ℕ) (s : CapacityHistory) : Bool := s.tables.turns.any (·.id == turnId)

/-- One transaction, in a workspace that has its rotation row. `none` where it throws, and where
an id that is to be new is not. -/
def step (s : CapacityHistory) : CapacityEvent → Option CapacityHistory
  | .armCodexCapacityWait now input =>
    let t := (armCodexCapacityWait now true input s.tables).1
    if t.waiter = s.tables.waiter then some (s.setTables t)
    else if s.tables.waiter = none ∧ s.continuations.any (·.waiterId == input.waiterId) then none
    else some { s with tables := t, enqueuedSince := [], goalKept := true }
  | .reconcileCodexCapacityWait now input decision =>
    let (t, action) := reconcileCodexCapacityWait now true input decision s.tables
    if action = .resumed input.turnId then
      if s.hasTurn input.turnId then none
      else
        some
          { s.setTables t with
            continuations := s.continuations ++
              [{ waiterId := input.waiterId, generation := input.generation, goalKept := s.goalKept
                 enqueuedSince := s.enqueuedSince }] }
    else
      some (s.setTables t)
  | .validateCodexCapacityResumeTurn now input =>
    some (s.setTables (validateCodexCapacityResumeTurn now input s.tables).1)
  | .enqueueSessionTurn now input =>
    if s.hasTurn input.id then none
    else
      some
        { s.setTables (enqueueSessionTurn now input s.tables) with
          enqueuedSince := s.enqueuedSince ++ [input.id] }
  | .reorderQueuedSessionTurns turnIds => (reorderQueuedSessionTurns turnIds s.tables).map s.setTables
  | .turnEdit edit => (edit.run s.tables).map s.setTables
  | .goalEdit edit => (edit.run s.tables).map s.setTables

/-- A generation has one continuation at most, and it has one only if the
goal stood and nothing was enqueued. -/
def ResumedOnce (s : CapacityHistory) : Prop := (s.continuations.map fun c => (c.waiterId, c.generation)).Nodup ∧
    ∀ c ∈ s.continuations, c.goalKept = true ∧ c.enqueuedSince = []

def Fresh (s : CapacityHistory) : Prop :=
  (s.tables.turns.map (·.id)).Nodup ∧ s.tables.waiter = none ∧ s.enqueuedSince = [] ∧ s.continuations = []

instance : DecidablePred Fresh := fun _ => inferInstanceAs (Decidable (_ ∧ _ ∧ _ ∧ _))

/-! ## What stays behind -/

/-- After the change of positions the turns enqueued since the arming are behind the blocked one. -/
def BehindAfter (s : CapacityHistory) (f : TurnRow → TurnRow) : Prop :=
  ∀ w ∈ s.tables.waiter, w.status = .waiting → ∀ blocked ∈ s.tables.turns, blocked.id = w.blockedTurnId →
    ∀ turn ∈ s.tables.turns, turn.id ∈ s.enqueuedSince → (f blocked).position < (f turn).position

/-- A reorder leaves the turns that were enqueued since the arming behind the blocked turn, and a
message takes a slot behind it. -/
def KeepsBehind (s : CapacityHistory) : CapacityEvent → Prop
  | .reorderQueuedSessionTurns turnIds => s.BehindAfter (TurnRow.renumbered turnIds)
  | .enqueueSessionTurn _ input => input.preemptChildNotifications = true →
      ∀ w ∈ s.tables.waiter, w.status = .waiting → ∀ minPos ∈ minNotification s.tables.turns,
        ∀ blocked ∈ s.tables.turns, blocked.id = w.blockedTurnId → blocked.position < minPos
  | _ => True

instance (s : CapacityHistory) : DecidablePred s.KeepsBehind
  | .reorderQueuedSessionTurns _ =>
    inferInstanceAs (Decidable (∀ _ ∈ _, _ → ∀ _ ∈ _, _ → ∀ _ ∈ _, _ → _))
  | .enqueueSessionTurn _ _ =>
    inferInstanceAs (Decidable (_ → ∀ _ ∈ _, _ → ∀ _ ∈ _, ∀ _ ∈ _, _ → _))
  | .armCodexCapacityWait _ _ => .isTrue trivial
  | .reconcileCodexCapacityWait _ _ _ => .isTrue trivial
  | .validateCodexCapacityResumeTurn _ _ => .isTrue trivial
  | .turnEdit _ => .isTrue trivial
  | .goalEdit _ => .isTrue trivial

/-! ## The invariant -/

structure Sound (s : CapacityHistory) : Prop where
  ids : (s.tables.turns.map (·.id)).Nodup
  enqueued : ∀ turnId ∈ s.enqueuedSince, ∃ turn ∈ s.tables.turns, turn.id = turnId
  blocked : ∀ w ∈ s.tables.waiter, w.status = .waiting → ∃ turn ∈ s.tables.turns, turn.id = w.blockedTurnId
  behind : s.BehindAfter id
  /-- The version of the goal tells whether it has been kept. -/
  goal : ∀ w ∈ s.tables.waiter, w.status = .waiting → ∃ goal ∈ s.tables.goal, goal.id = w.goalId ∧
    (s.goalKept = true → goal.status = .active ∧ goal.version = w.goalVersion) ∧
      (s.goalKept = false → w.goalVersion < goal.version)
  /-- A generation that has been resumed does not wait. -/
  armed : ∀ w ∈ s.tables.waiter, ∀ c ∈ s.continuations, c.waiterId = w.id →
    c.generation ≤ w.generation ∧ (w.status = .waiting → c.generation < w.generation)
  once : s.ResumedOnce

section

variable {s s' : CapacityHistory} {tables : SessionTables} {f : TurnRow → TurnRow} {since : List ℕ}

theorem Fresh.sound (h : s.Fresh) : s.Sound := by
  obtain ⟨hids, hwaiter, hsince, hnone⟩ := h
  have hno : ∀ w, w ∉ s.tables.waiter := by
    intro w hw
    rw [hwaiter] at hw
    cases hw
  refine ⟨hids, ?_, ?_, ?_, ?_, ?_, ?_⟩
  · intro turnId hmem
    rw [hsince] at hmem
    exact absurd hmem List.not_mem_nil
  · exact fun w hw => absurd hw (hno w)
  · exact fun w hw => absurd hw (hno w)
  · exact fun w hw => absurd hw (hno w)
  · exact fun w hw => absurd hw (hno w)
  · unfold ResumedOnce
    rw [hnone]
    exact ⟨List.nodup_nil, List.forall_mem_nil _⟩

theorem Sound.goal_moves (h : s.Sound) {w₀ w : CapacityWaiter} (hw₀ : w₀ ∈ s.tables.waiter) (hw : w ∈ tables.waiter)
    (hcont : w₀.Continues w) (hwaiting : w.status = .waiting) (hgoal : s.tables.GoalMoves tables) :
    ∃ goal ∈ tables.goal, goal.id = w.goalId ∧
      ((s.setTables tables).goalKept = true → goal.status = .active ∧ goal.version = w.goalVersion) ∧
        ((s.setTables tables).goalKept = false → w.goalVersion < goal.version) := by
  obtain ⟨hwas, hgoalId, hversion, -⟩ := hcont.2.2 hwaiting
  obtain ⟨goal, hmem, hid, hkept, hlost⟩ := h.goal w₀ hw₀ hwas
  rw [hgoalId] at hid
  rw [hversion] at hkept hlost
  -- the waiter is still there, so its goal is
  obtain ⟨goal', hmem', -⟩ : ∃ goal' ∈ tables.goal, goal'.id = goal.id := by
    rcases hgoal.2 goal hmem with hstays | hgone
    · exact hstays
    · exact absurd hid.symm (hgone w hw)
  obtain ⟨hid', hmove⟩ : goal.Revises goal' := by
    rcases hgoal.1 goal' hmem' with hnone | ⟨g, hg, hrev⟩
    · rw [hnone] at hmem
      cases hmem
    · rwa [Option.some.inj (hmem.symm.trans hg)]
  have hstands : tables.armedGoalStands = (goal'.status == .active && goal'.version == w.goalVersion) := by
    unfold SessionTables.armedGoalStands
    rw [Option.mem_def.1 hw, Option.mem_def.1 hmem']
    simp [hid', hid]
  refine ⟨goal', hmem', hid'.trans hid, ?_, ?_⟩
  · intro hall
    have hboth := Bool.and_eq_true_iff.1 hall
    rw [hstands] at hboth
    simpa using hboth.2
  · intro hsome
    rcases Bool.and_eq_false_iff.1 hsome with hbefore | hnow
    · have hlt := hlost hbefore
      rcases hmove with ⟨-, heq⟩ | hup <;> omega
    · cases hall : s.goalKept with
      | true =>
        obtain ⟨hactive, heq⟩ := hkept hall
        rcases hmove with ⟨hstatus, hsame⟩ | hup
        · -- nothing has changed, and the goal would stand
          rw [hstands, hstatus, hactive, hsame, heq] at hnow
          simp at hnow
        · omega
      | false =>
        have hlt := hlost hall
        rcases hmove with ⟨-, heq⟩ | hup <;> omega

theorem Sound.frame (h : s.Sound) (hwait : ∀ w ∈ tables.waiter, ∃ w₀ ∈ s.tables.waiter, w₀.Continues w)
    (hgoal : s.tables.GoalMoves tables) (hids : (tables.turns.map (·.id)).Nodup)
    (hturns : ∀ turn ∈ s.tables.turns, ∃ turn' ∈ tables.turns, turn'.id = turn.id)
    (henqueued : ∀ turnId ∈ since, ∃ turn ∈ tables.turns, turn.id = turnId)
    (hbehind : ∀ w ∈ s.tables.waiter, w.status = .waiting → ∀ blocked ∈ tables.turns,
      blocked.id = w.blockedTurnId → ∀ turn ∈ tables.turns, turn.id ∈ since → blocked.position < turn.position) :
    Sound { s.setTables tables with enqueuedSince := since } := by
  refine ⟨hids, henqueued, ?_, ?_, ?_, ?_, h.once⟩
  · intro w hw hwaiting
    obtain ⟨w₀, hw₀, hcont⟩ := hwait w hw
    obtain ⟨hwas, -, -, hblocked⟩ := hcont.2.2 hwaiting
    obtain ⟨turn, hturn, hid⟩ := h.blocked w₀ hw₀ hwas
    obtain ⟨turn', hturn', hid'⟩ := hturns turn hturn
    exact ⟨turn', hturn', hid'.trans (hid.trans hblocked)⟩
  · intro w hw hwaiting
    obtain ⟨w₀, hw₀, hcont⟩ := hwait w hw
    obtain ⟨hwas, -, -, hblocked⟩ := hcont.2.2 hwaiting
    rw [← hblocked]
    exact hbehind w₀ hw₀ hwas
  · intro w hw hwaiting
    obtain ⟨w₀, hw₀, hcont⟩ := hwait w hw
    exact h.goal_moves hw₀ hw hcont hwaiting hgoal
  · intro w hw c hc hid
    obtain ⟨w₀, hw₀, hcont⟩ := hwait w hw
    obtain ⟨hle, hlt⟩ := h.armed w₀ hw₀ c hc (hid.trans hcont.1.symm)
    rw [← hcont.2.1]
    exact ⟨hle, fun hwaiting => hlt (hcont.2.2 hwaiting).1⟩

theorem Sound.map (h : s.Sound) (hwait : ∀ w ∈ tables.waiter, ∃ w₀ ∈ s.tables.waiter, w₀.Continues w)
    (hgoal : s.tables.GoalMoves tables) (hid : ∀ row, (f row).id = row.id)
    (hturns : tables.turns = s.tables.turns.map f) (hbehind : s.BehindAfter f) : (s.setTables tables).Sound := by
  have hmapped : Sound { s.setTables tables with enqueuedSince := s.enqueuedSince } := by
    refine h.frame hwait hgoal ?_ ?_ ?_ ?_
    · have hsame : (s.tables.turns.map f).map (·.id) = s.tables.turns.map (·.id) := by
        rw [List.map_map]
        exact List.map_congr_left fun row _ => hid row
      rw [hturns, hsame]
      exact h.ids
    · intro turn hturn
      rw [hturns]
      exact ⟨f turn, List.mem_map_of_mem hturn, hid turn⟩
    · intro turnId hmem
      obtain ⟨turn, hturn, rfl⟩ := h.enqueued turnId hmem
      rw [hturns]
      exact ⟨f turn, List.mem_map_of_mem hturn, hid turn⟩
    · intro w hw hwaiting blocked hblocked hblockedId turn hturn hsince
      rw [hturns] at hblocked hturn
      obtain ⟨blocked₀, hmem₀, rfl⟩ := List.mem_map.1 hblocked
      obtain ⟨turn₀, hmem, rfl⟩ := List.mem_map.1 hturn
      rw [hid] at hblockedId hsince
      exact hbehind w hw hwaiting blocked₀ hmem₀ hblockedId turn₀ hmem hsince
  exact hmapped

theorem Sound.behind_of_positions (h : s.Sound) (hf : ∀ row, (f row).position = row.position) : s.BehindAfter f := by
  intro w hw hwaiting blocked hblocked hid turn hturn hsince
  rw [hf, hf]
  exact h.behind w hw hwaiting blocked hblocked hid turn hturn hsince

theorem continues_of_eq {t t' : SessionTables} (hw : t'.waiter = t.waiter) :
    ∀ w ∈ t'.waiter, ∃ w₀ ∈ t.waiter, w₀.Continues w := by
  intro w hmem
  rw [hw] at hmem
  exact ⟨w, hmem, .refl w⟩

/-! ## The transactions -/

theorem Sound.keepsPositions (h : s.Sound) (hkeeps : s.tables.KeepsPositions tables) : (s.setTables tables).Sound := by
  obtain ⟨f, hf, hturns⟩ := hkeeps.turns
  exact h.map (continues_of_eq hkeeps.waiter) (goalMoves_of_goal_eq hkeeps.goal) (fun row => (hf row).1) hturns
    (h.behind_of_positions fun row => (hf row).2)

theorem Sound.arm (h : s.Sound) {now : ℕ} {input : ArmInput}
    (hstep : s.step (.armCodexCapacityWait now input) = some s') : s'.Sound := by
  unfold step at hstep
  dsimp only at hstep
  rcases armCodexCapacityWait_cases now true input s.tables with
    hstale | ⟨goal, turn, -, -, hgoal, hgoalId, hturn, hfresh, -, harm⟩
  · rw [hstale, if_pos rfl] at hstep
    cases hstep
    exact h.keepsPositions (.refl s.tables)
  rw [harm] at hstep
  obtain ⟨hsameGoal, f, hf, hturns⟩ := input.arm_frame now s.tables turn
  have hwaiter := input.arm_waiter now s.tables turn
  split at hstep
  case isTrue hsame =>
    -- it would have the generation of the one before
    cases hstep
    refine h.map (continues_of_eq hsame) (goalMoves_of_goal_eq hsameGoal) (fun row => (hf row).1) hturns
      (h.behind_of_positions fun row => (hf row).2)
  split at hstep
  · cases hstep
  case isFalse hnew =>
    cases hstep
    simp only [ArmInput.fresh, Bool.and_eq_true, beq_iff_eq] at hfresh
    refine ⟨?_, ?_, ?_, ?_, ?_, ?_, h.once⟩
    · rw [hturns, List.map_map]
      exact (List.map_congr_left fun row _ => (hf row).1) ▸ h.ids
    · exact fun _ hmem => absurd hmem List.not_mem_nil
    · intro w hw _
      cases hwaiter.symm.trans hw
      obtain ⟨hmem, hid⟩ := mem_of_turn? hturn
      rw [hturns]
      exact ⟨f turn, List.mem_map_of_mem hmem, (hf turn).1.trans hid⟩
    · exact fun _ _ _ _ _ _ _ _ hmem => absurd hmem List.not_mem_nil
    · intro w hw _
      cases hwaiter.symm.trans hw
      refine ⟨goal, by rw [hsameGoal, hgoal]; rfl, hgoalId, ?_, ?_⟩
      · exact fun _ => ⟨hfresh.1.1.1.1.2, hfresh.1.1.1.2⟩
      · exact fun hfalse => absurd hfalse Bool.noConfusion
    · intro w hw c hc hid
      cases hwaiter.symm.trans hw
      have hlt : c.generation < (input.waiter now s.tables turn).generation := by
        unfold ArmInput.waiter at hid ⊢
        cases hold : s.tables.waiter with
        | none =>
          -- a new row has an id that was never seen
          rw [hold] at hid
          exact absurd ⟨hold, List.any_eq_true.2 ⟨c, hc, by simpa using hid⟩⟩ hnew
        | some w₀ =>
          rw [hold] at hid
          exact Nat.lt_succ_of_le (h.armed w₀ hold c hc hid).1
      exact ⟨le_of_lt hlt, fun _ => hlt⟩

variable {input : ReconcileInput}

theorem Sound.resumes (h : s.Sound) {w : CapacityWaiter} {goal : GoalRow} {blockedTurn : TurnRow}
    (hrows : input.rows s.tables = some (w, goal, blockedTurn))
    (hnone : supersedeReason s.tables w goal blockedTurn = none) :
    s.goalKept = true ∧ s.enqueuedSince = [] := by
  obtain ⟨hw, -, -, hwaiting, hgoal, -, hblocked⟩ := input.rows_spec hrows
  obtain ⟨-, hversion, hturns⟩ := supersedeReason_none hnone
  obtain ⟨hmem, hblockedId⟩ := mem_of_turn? hblocked
  refine ⟨?_, ?_⟩
  · by_contra hlost
    obtain ⟨goal', hgoal', -, -, hraised⟩ := h.goal w hw hwaiting
    cases hgoal.symm.trans hgoal'
    have hlt := hraised (by simpa using hlost)
    omega
  · by_contra hsome
    obtain ⟨turnId, hsince⟩ := List.exists_mem_of_ne_nil _ hsome
    obtain ⟨turn, hturn, rfl⟩ := h.enqueued turnId hsince
    have hlt := h.behind w hw hwaiting blockedTurn hmem hblockedId turn hturn hsince
    have hle := (hturns turn hturn).2
    simp only [id] at hlt
    omega

theorem Sound.reconcile (h : s.Sound) {now : ℕ} {decision : CapacityAvailability}
    (hstep : s.step (.reconcileCodexCapacityWait now input decision) = some s') : s'.Sound := by
  unfold step at hstep
  dsimp only at hstep
  rcases reconcileCodexCapacityWait_cases now true input decision s.tables with
    hstale | ⟨w, goal, blockedTurn, hrows, hcases⟩
  · rw [hstale, if_neg ReconcileAction.noConfusion] at hstep
    cases hstep
    exact h.keepsPositions (.refl s.tables)
  obtain ⟨hw, hid, hgeneration, hwaiting, hgoal, hgoalId, hblocked⟩ := input.rows_spec hrows
  rcases hcases with ⟨reason, hrun⟩ | ⟨earliestResetAt, resetKind, hrun⟩ | ⟨hnone, hrun⟩
  · rw [hrun, if_neg ReconcileAction.noConfusion] at hstep
    cases hstep
    refine h.map ?_ (goalMoves_of_goal_eq rfl) (fun _ => rfl) (List.map_id _).symm h.behind
    intro w' hw'
    cases Option.mem_def.1 hw'
    exact ⟨w, hw, rfl, rfl, CapacityWaitStatus.noConfusion⟩
  · rw [hrun, if_neg ReconcileAction.noConfusion] at hstep
    cases hstep
    refine h.map ?_ (goalMoves_of_goal_eq rfl) (fun _ => rfl) (List.map_id _).symm h.behind
    intro w' hw'
    cases Option.mem_def.1 hw'
    exact ⟨w, hw, w.recheck_continues now earliestResetAt resetKind⟩
  · rw [hrun, if_pos rfl] at hstep
    split at hstep
    · cases hstep
    case isFalse hnew =>
      cases hstep
      have hresumed : ({ s.setTables (input.resume now w goal blockedTurn s.tables) with
          enqueuedSince := s.enqueuedSince } : CapacityHistory).Sound := by
        obtain ⟨-, hsince⟩ := h.resumes hrows hnone
        refine h.frame ?_ (goalMoves_of_update hgoal rfl ⟨rfl, .inl ⟨rfl, rfl⟩⟩) ?_ ?_ ?_ ?_
        · intro w' hw'
          cases Option.mem_def.1 hw'
          exact ⟨w, hw, rfl, rfl, CapacityWaitStatus.noConfusion⟩
        · unfold ReconcileInput.resume SessionTables.append
          rw [List.map_append, List.nodup_append]
          refine ⟨h.ids, List.nodup_singleton _, ?_⟩
          intro a ha b hb
          obtain ⟨turn, hturn, rfl⟩ := List.mem_map.1 ha
          rw [List.mem_singleton.1 hb]
          exact fun heq => hnew (List.any_eq_true.2 ⟨turn, hturn, by simpa using heq⟩)
        · exact fun turn hturn => ⟨turn, List.mem_append_left _ hturn, rfl⟩
        · intro turnId hmem
          rw [hsince] at hmem
          exact absurd hmem List.not_mem_nil
        · intro w' hw' _ blocked _ _ turn _ hmem
          rw [hsince] at hmem
          exact absurd hmem List.not_mem_nil
      obtain ⟨hkept, hsince⟩ := h.resumes hrows hnone
      refine ⟨hresumed.ids, hresumed.enqueued, hresumed.blocked, hresumed.behind, hresumed.goal, ?_, ?_, ?_⟩
      · intro w' hw' c hc hcid
        cases Option.mem_def.1 hw'
        refine ⟨?_, CapacityWaitStatus.noConfusion⟩
        rcases List.mem_append.1 hc with hold | hlast
        · exact (h.armed w hw c hold hcid).1
        · rw [List.mem_singleton.1 hlast, hgeneration]
      · -- the generation was waiting, so it has no continuation yet
        rw [List.map_append, List.nodup_append]
        refine ⟨h.once.1, List.nodup_singleton _, ?_⟩
        intro a ha b hb
        obtain ⟨c, hc, rfl⟩ := List.mem_map.1 ha
        obtain rfl := List.mem_singleton.1 hb
        intro heq
        obtain ⟨hcid, hcgen⟩ := Prod.mk.inj heq
        have hlt := (h.armed w hw c hc (hcid.trans hid.symm)).2 hwaiting
        rw [hcgen, hgeneration] at hlt
        exact lt_irrefl _ hlt
      · intro c hc
        rcases List.mem_append.1 hc with hold | hlast
        · exact h.once.2 c hold
        · rw [List.mem_singleton.1 hlast]
          exact ⟨hkept, hsince⟩

theorem Sound.enqueue (h : s.Sound) {now : ℕ} {input : EnqueueSessionTurnInput}
    (hok : s.KeepsBehind (.enqueueSessionTurn now input))
    (hstep : s.step (.enqueueSessionTurn now input) = some s') : s'.Sound := by
  unfold step at hstep
  dsimp only at hstep
  split at hstep
  · cases hstep
  case isFalse hnew =>
    cases hstep
    have hfreshId : ∀ turn ∈ s.tables.turns, turn.id ≠ input.id := by
      intro turn hturn heq
      exact hnew (List.any_eq_true.2 ⟨turn, hturn, by simpa using heq⟩)
    obtain ⟨new, hnewId, -, -, hcases⟩ := enqueueSessionTurn_cases now input s.tables
    -- every row stays or moves back, and the blocked turn stays
    obtain ⟨f, hid, hturns, hle, hblockedStays⟩ :
        ∃ f : TurnRow → TurnRow, (∀ row, (f row).id = row.id) ∧
          (enqueueSessionTurn now input s.tables).turns = s.tables.turns.map f ++ [new] ∧
          (∀ row, row.position ≤ (f row).position) ∧
          ∀ w ∈ s.tables.waiter, w.status = .waiting → ∀ blocked ∈ s.tables.turns, blocked.id = w.blockedTurnId →
            f blocked = blocked ∧ blocked.position < new.position := by
      rcases hcases with ⟨hturns, hback⟩ | ⟨hpreempt, hmin, hturns⟩
      · refine ⟨id, fun _ => rfl, by rw [hturns, List.map_id], fun _ => le_refl _, ?_⟩
        intro w _ _ blocked hblocked _
        exact ⟨rfl, hback blocked hblocked⟩
      · refine ⟨(·.movedBack new.position), fun row => (row.movedBack_spec _).1, hturns,
          fun row => (row.movedBack_spec _).2.2.2, ?_⟩
        intro w hw hwaiting blocked hblocked hblockedId
        have hlt := hok hpreempt w hw hwaiting _ hmin blocked hblocked hblockedId
        exact ⟨TurnRow.movedBack_of_lt hlt, hlt⟩
    refine h.frame (continues_of_eq rfl) (goalMoves_of_goal_eq rfl) ?_ ?_ ?_ ?_
    · rw [hturns, List.map_append, List.map_map, List.nodup_append]
      refine ⟨(List.map_congr_left fun row _ => hid row) ▸ h.ids, List.nodup_singleton _, ?_⟩
      intro a ha b hb heq
      obtain ⟨turn, hturn, rfl⟩ := List.mem_map.1 ha
      obtain rfl := List.mem_singleton.1 hb
      have hsame : (f turn).id = new.id := heq
      rw [hid, hnewId] at hsame
      exact hfreshId turn hturn hsame
    · intro turn hturn
      rw [hturns]
      exact ⟨f turn, List.mem_append_left _ (List.mem_map_of_mem hturn), hid turn⟩
    · intro turnId hmem
      rw [hturns]
      rcases List.mem_append.1 hmem with hold | hlast
      · obtain ⟨turn, hturn, rfl⟩ := h.enqueued turnId hold
        exact ⟨f turn, List.mem_append_left _ (List.mem_map_of_mem hturn), hid turn⟩
      · rw [List.mem_singleton.1 hlast]
        exact ⟨new, List.mem_append_right _ (List.mem_singleton.2 rfl), hnewId⟩
    · intro w hw hwaiting blocked hblocked hblockedId turn hturn hsince
      rw [hturns] at hblocked hturn
      -- the blocked turn was there before
      obtain ⟨old, hold, hcases⟩ : ∃ old ∈ s.tables.turns, f old = blocked := by
        rcases List.mem_append.1 hblocked with hmem | hlast
        · exact List.mem_map.1 hmem
        · obtain ⟨old, hold, holdId⟩ := h.blocked w hw hwaiting
          rw [List.mem_singleton.1 hlast, hnewId] at hblockedId
          exact absurd (holdId.trans hblockedId.symm) (hfreshId old hold)
      subst hcases
      rw [hid] at hblockedId
      obtain ⟨hstays, hbefore⟩ := hblockedStays w hw hwaiting old hold hblockedId
      rw [hstays]
      rcases List.mem_append.1 hturn with hmem | hlast
      · obtain ⟨row, hrow, rfl⟩ := List.mem_map.1 hmem
        rw [hid] at hsince
        have hrowSince : row.id ∈ s.enqueuedSince := by
          rcases List.mem_append.1 hsince with hyes | hno
          · exact hyes
          · exact absurd (List.mem_singleton.1 hno) (hfreshId row hrow)
        exact lt_of_lt_of_le (h.behind w hw hwaiting old hold hblockedId row hrow hrowSince) (hle row)
      · rw [List.mem_singleton.1 hlast]
        exact hbefore

/-- **Every transaction keeps the invariant, if it leaves behind what is behind.** -/
theorem Sound.step (h : s.Sound) {e : CapacityEvent} (hstep : s.step e = some s') (hok : s.KeepsBehind e) :
    s'.Sound := by
  cases e with
  | armCodexCapacityWait now input => exact h.arm hstep
  | reconcileCodexCapacityWait now input decision => exact h.reconcile hstep
  | validateCodexCapacityResumeTurn now input =>
    cases hstep
    obtain ⟨hgoal, -, f, hf, hturns⟩ := validateCodexCapacityResumeTurn_frame now input s.tables
    refine h.map ?_ (goalMoves_of_goal_eq hgoal) (fun row => (hf row).1) hturns
      (h.behind_of_positions fun row => (hf row).2)
    intro w hw
    obtain ⟨w₀, hw₀, hcont, -⟩ := validateCodexCapacityResumeTurn_waiter now input s.tables hw
    exact ⟨w₀, hw₀, hcont⟩
  | enqueueSessionTurn now input => exact h.enqueue hok hstep
  | reorderQueuedSessionTurns turnIds =>
    obtain ⟨tables, hrun, rfl⟩ := Option.map_eq_some_iff.1 hstep
    obtain ⟨-, hturns⟩ := reorderQueuedSessionTurns_eq h.ids hrun
    obtain ⟨hwaiter, hgoal⟩ := reorderQueuedSessionTurns_frame hrun
    exact h.map (f := TurnRow.renumbered turnIds) (continues_of_eq hwaiter) (goalMoves_of_goal_eq hgoal)
      (fun _ => rfl) hturns hok
  | turnEdit edit =>
    obtain ⟨tables, hrun, rfl⟩ := Option.map_eq_some_iff.1 hstep
    exact h.keepsPositions (edit.run_keepsPositions hrun)
  | goalEdit edit =>
    obtain ⟨tables, hrun, rfl⟩ := Option.map_eq_some_iff.1 hstep
    obtain ⟨hturns, hwaiter⟩ := edit.run_frame hrun
    refine h.map (f := id) ?_ (edit.run_moves hrun) (fun _ => rfl) (by rw [hturns, List.map_id]) h.behind
    exact fun w hw => ⟨w, hwaiter w hw, .refl w⟩

end

/-- **In every run in which nothing enqueued since an arming gets ahead of the blocked turn, each
generation is resumed once at most, and only if its goal stood and nothing was enqueued.** -/
theorem capacity_is_resumed_once {s s' : CapacityHistory} {es : List CapacityEvent} (hs : s.Fresh)
    (hrun : Run (Restrict (fun s e s' => s.step e = some s') KeepsBehind) s es s') : s'.ResumedOnce := by
  have hsound : s'.Sound := hrun.invariant (fun _ _ _ hstep h => h.step hstep.1 hstep.2) hs.sound
  exact hsound.once

/-! ## A later turn that is moved to the front -/

def goalSession : CapacityHistory :=
  { tables :=
      { session := { id := 1, status := .queued, activeTurnId := none, lastSequence := 0, passiveMode := false }
        turns := []
        goal := some
          { id := 2, status := .active, text := "", successCriteria := none, version := 1, autoContinuations := 0
            noProgressStreak := 0, maxAutoContinuations := none, lastContinuationTurnId := none
            versionAtLastContinuation := none }
        events := []
        leases := []
        waiter := none }
    enqueuedSince := []
    goalKept := false
    continuations := [] }

def enqueueOf (turnId : ℕ) : CapacityEvent := .enqueueSessionTurn turnId
    { id := turnId, triggerEventId := turnId, source := .user, prompt := "", metadata := .none
      preemptChildNotifications := false }

def blockedOnCapacity : List CapacityEvent := [enqueueOf 7, .turnEdit (.claimNextQueuedTurn 8),
   .armCodexCapacityWait 9
     { sessionId := 1, turnId := 7, goalId := 2, goalVersion := 1, controlGeneration := 0, policyHash := none
       earliestResetAt := none, resetKind := .boundedRefresh, failurePayload := .none, leaseFence := none
       expectedRedispatches := none, waiterId := 5, failedEventId := 21, waitingEventId := 22, statusEventId := 23 }]

def capacityReturns : CapacityEvent := .reconcileCodexCapacityWait 30
    { sessionId := 1, waiterId := 5, generation := 1, turnId := 40, supersededEventId := 41
      continuationEventId := 42, resumedEventId := 43, queuedEventId := 44, statusEventId := 45 }
    .available

/-- Turn 12 is enqueued, gets the first position by a reorder, and runs to its end. -/
def overtaken : List CapacityEvent := blockedOnCapacity ++
    [enqueueOf 12, .reorderQueuedSessionTurns [12], .turnEdit (.claimNextQueuedTurn 13),
     .turnEdit (.finishTurn 14 12 (.session .idle)), .turnEdit (.setSessionStatus .idle (some none)), capacityReturns]

theorem reordered_turn_is_forgotten :
    ∃ s, goalSession.Fresh ∧ Run (fun s e s' => CapacityHistory.step s e = some s') goalSession overtaken s ∧
      s.continuations.map (·.enqueuedSince) = [[12]] ∧ ¬ s.ResumedOnce := by
  have hplay : ∃ s ∈ play CapacityHistory.step goalSession overtaken,
      s.continuations.map (·.enqueuedSince) = [[12]] := by decide +kernel
  obtain ⟨s, hs, hsince⟩ := hplay
  refine ⟨s, by decide, run_of_play hs, hsince, ?_⟩
  rintro ⟨-, hclean⟩
  have hmem : [12] ∈ s.continuations.map (·.enqueuedSince) := by
    rw [hsince]
    exact List.mem_singleton.2 rfl
  obtain ⟨c, hc, hc12⟩ := List.mem_map.1 hmem
  rw [(hclean c hc).2] at hc12
  cases hc12

/-- Without it the session is resumed, once. -/
theorem blocked_turn_is_resumed_once :
    ∃ s : CapacityHistory, s.ResumedOnce ∧ s.continuations.length = 1 := by
  have hplay : ∃ s ∈ play (guarded CapacityHistory.step KeepsBehind) goalSession
      (blockedOnCapacity ++ [capacityReturns, capacityReturns]), s.continuations.length = 1 := by decide +kernel
  obtain ⟨s, hs, hlen⟩ := hplay
  have hfresh : goalSession.Fresh := by decide
  exact ⟨s, capacity_is_resumed_once hfresh (guarded_run hs), hlen⟩

end CapacityHistory

end OpenGeni.Db
