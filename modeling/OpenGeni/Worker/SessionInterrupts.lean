/-
What becomes of an interrupt.

An interrupt waits in `interruptedEventId` until the code reads it. The idle wait takes the
id out before it awaits the activity. `runTurn` empties the slot behind the activity, so an
interrupt that has come in meanwhile goes with the old one; and where the workflow ends
behind an activity, one that came in meanwhile is not read at all.

`Heeds` says when neither happens. Then an interrupt is handed to an activity or superseded,
within three answers (`interrupts_kept`).
-/
import OpenGeni.Worker.SessionWorkflow

namespace OpenGeni.Worker

open OpenGeni.Lib

/-! ## The fate of an interrupt -/

def Await.interrupts : Await → Option EventId
  | .interruptActiveTurn eventId | .pauseGoalForInterrupt eventId => some eventId
  | _ => none

/-- The last interrupt that no activity has been started for, after one more entry. -/
def pend (pending : Option EventId) : HistoryEvent → Option EventId
  | .signaled (.interrupt eventId) => some eventId
  | .signaled _ => pending
  | .reached pc => if pc.interrupts = pending then none else pending

def outstanding (history : List HistoryEvent) : Option EventId := history.foldl pend none

/-- An activity is started for the interrupt, or a later one supersedes it. -/
def Resolved (eventId : EventId) (later : List HistoryEvent) : Prop :=
  (∃ pc, .reached pc ∈ later ∧ pc.interrupts = some eventId) ∨ ∃ eventId', .signaled (.interrupt eventId') ∈ later

/-- Awaits behind which the slot is emptied, or not read before the end. -/
def Await.deaf : Await → Bool
  | .interruptActiveTurn _ | .pauseGoalForInterrupt _ | .markSessionIdleInterrupted |
    .failSession _ _ => true
  | _ => false

def givesUp (act : Activation) : Await → Answer → Bool
  | .getCodexCapacityWaitOnFailure _ _ error, .capacityWait none =>
    !(error.isWorkerDeathFailure && act.patched .workerDeathRedispatch)
  | .requeueTurnAfterWorkerDeath _, .requeue (.exceeded _) => true
  | _, _ => false

def Await.fatal (pc : Await) (error : ActivityFailure) : Bool := match pc with
  | .maybeContinueGoal => decide (error.cause = .cancellation)
  | .runAgentSegment _ _ => false
  | _ => true

def Signal.isInterrupt : Signal → Bool
  | .interrupt _ => true
  | _ => false

/-- No interrupt comes in during a deaf await, and with one in the slot the code neither
fails the session nor ends on a failure. -/
def Heeds (x : Execution) (a : Activation × Event) : Prop := match a.2 with
  | .signals batch => x.workflow.pc.deaf = true → ∀ signal ∈ batch, signal.isInterrupt = false
  | .timeout => True
  | .returned answer =>
    x.workflow.interruptedEventId.isSome = true → givesUp a.1 x.workflow.pc answer = false
  | .threw error => x.workflow.interruptedEventId.isSome = true →
      x.workflow.pc.interrupts.isSome = true ∨ x.workflow.pc.fatal error = false

variable {input : SessionWorkflowInput} {act : Activation} {x x' : Execution}
  {a : Activation × Event} {as : List (Activation × Event)} {w w' : Workflow} {id : EventId}
  {history later : List HistoryEvent}

instance : Decidable (Heeds x a) :=
  match a with
  | (_, .signals batch) =>
    inferInstanceAs (Decidable (x.workflow.pc.deaf = true → ∀ signal ∈ batch, signal.isInterrupt = false))
  | (_, .timeout) => inferInstanceAs (Decidable True)
  | (act, .returned answer) =>
    inferInstanceAs (Decidable (x.workflow.interruptedEventId.isSome = true →
      givesUp act x.workflow.pc answer = false))
  | (_, .threw error) =>
    inferInstanceAs (Decidable (x.workflow.interruptedEventId.isSome = true →
      x.workflow.pc.interrupts.isSome = true ∨ x.workflow.pc.fatal error = false))

def Event.isAnswer : Event → Bool
  | .signals _ => false
  | _ => true

def answers (as : List (Activation × Event)) : ℕ := as.countP fun a => a.2.isAnswer

/-- **The claim**, in one state: every interrupt delivered is resolved, or it is in the slot,
the workflow awaits an activity, and after three answers it is resolved. -/
def InterruptKept (input : SessionWorkflowInput) (x : Execution) : Prop :=
  ∀ before eventId after, x.history = before ++ .signaled (.interrupt eventId) :: after → Resolved eventId after ∨
      x.workflow.interruptedEventId = some eventId ∧ x.workflow.pc.isActivity = true ∧
        ∀ as x', Run (Restrict (Execution.Steps input) Heeds) x as x' → 3 ≤ answers as →
          ∃ later, x'.history = x.history ++ later ∧ Resolved eventId later

theorem outstanding_append : outstanding (history ++ later) = later.foldl pend (outstanding history) :=
  List.foldl_append

theorem pend_of_not_resolved (h : ¬ Resolved id later) : later.foldl pend (some id) = some id := by
  induction later with
  | nil => rfl
  | cons e later ih =>
    have hrest : ¬ Resolved id later := by
      intro hres
      apply h
      rcases hres with ⟨pc, hpc, hid⟩ | ⟨id', hid'⟩
      · exact Or.inl ⟨pc, List.mem_cons_of_mem e hpc, hid⟩
      · exact Or.inr ⟨id', List.mem_cons_of_mem e hid'⟩
    have hfirst : pend (some id) e = some id := by
      cases e with
      | signaled signal =>
        cases signal with
        | interrupt id' => exact absurd (Or.inr ⟨id', List.mem_cons_self⟩) h
        | _ => rfl
      | reached pc =>
        apply if_neg
        intro hid
        exact h (Or.inl ⟨pc, List.mem_cons_self, hid⟩)
    rw [List.foldl_cons, hfirst]
    exact ih hrest

theorem resolved_or_outstanding {before after : List HistoryEvent}
    (h : history = before ++ .signaled (.interrupt id) :: after) :
    Resolved id after ∨ outstanding history = some id := by
  by_cases hres : Resolved id after
  · exact Or.inl hres
  · right
    rw [h, outstanding_append, List.foldl_cons]
    exact pend_of_not_resolved hres

theorem Resolved.append (h : Resolved id history) : Resolved id (history ++ later) := by
  rcases h with ⟨pc, hpc, hid⟩ | ⟨id', hid'⟩
  · exact Or.inl ⟨pc, List.mem_append_left later hpc, hid⟩
  · exact Or.inr ⟨id', List.mem_append_left later hid'⟩

theorem Resolved.append_right (h : Resolved id later) : Resolved id (history ++ later) := by
  rcases h with ⟨pc, hpc, hid⟩ | ⟨id', hid'⟩
  · exact Or.inl ⟨pc, List.mem_append_right history hpc, hid⟩
  · exact Or.inr ⟨id', List.mem_append_right history hid'⟩

/-! ## What the code does with the slot -/

def Await.reads : Await → Bool
  | .claimNextQueuedTurn | .getCodexCapacityWait | .reconcileCodexCapacityWait _ _ |
    .maybeContinueGoal | .claimFinalTurn _ | .markSessionIdle _ |
    .getCodexCapacityWaitOnFailure _ _ _ | .requeueTurnAfterWorkerDeath _ => true
  | _ => false

/-- Where the code may stop that started with `pending` in the slot: it has started an
activity for it, or there was none, or it is still in the slot and will be read. -/
def Settles (pending : Option EventId) (w : Workflow) : Prop := match w.pc with
  | .interruptActiveTurn eventId => pending = some eventId ∧ w.interruptedEventId = some eventId
  | .pauseGoalForInterrupt eventId => pending = some eventId ∧ w.interruptedEventId = none
  | .closed _ => pending = none
  | pc => w.interruptedEventId = pending ∧ (pc.reads = false → pending = none)

def Await.rank : Await → ℕ
  | .claimNextQueuedTurn => 1
  | .claimFinalTurn _ | .getCodexCapacityWaitOnFailure _ _ _ => 3
  | _ => 2

namespace Workflow

theorem settles_loopTop : Settles w.interruptedEventId (w.loopTop input act) := by
  unfold loopTop
  dsimp only
  split_ifs with hcontinue
  · cases hslot : w.interruptedEventId with
    | none => rfl
    | some eventId => simp [hslot] at hcontinue
  · exact ⟨rfl, by simp [Await.reads]⟩

variable {turn : Turn} {current : CodexCapacityWaitRef} {result : RunAgentTurnResult} {seenWakeups : ℕ}

theorem settles_runTurn : Settles w.interruptedEventId (w.runTurn turn) := by
  unfold runTurn
  cases hslot : w.interruptedEventId with
  | none => exact ⟨rfl, fun _ => rfl⟩
  | some eventId => exact ⟨rfl, rfl⟩

theorem settles_waitForCodexCapacity {entry : Option Baseline} :
    Settles w.interruptedEventId (w.waitForCodexCapacity input act current entry) := by
  unfold waitForCodexCapacity
  dsimp only
  split_ifs with hslot hwait
  · exact settles_loopTop
  · exact ⟨rfl, fun _ => by simpa using hslot⟩
  · exact ⟨rfl, by simp [Await.reads]⟩

theorem settles_afterCapacityCondition {seen : Baseline} :
    Settles w.interruptedEventId (w.afterCapacityCondition input act current seen) := by
  unfold afterCapacityCondition
  split_ifs
  · exact settles_loopTop
  · exact ⟨rfl, by simp [Await.reads]⟩

theorem settles_afterReconcile {result : ReconcileResult} :
    Settles w.interruptedEventId (w.afterReconcile input act result) := by
  unfold afterReconcile
  split
  · dsimp only
    split_ifs with hcontinue
    · cases hslot : w.interruptedEventId with
      | none => rfl
      | some eventId => simp [hslot] at hcontinue
    · exact settles_waitForCodexCapacity
  · exact settles_loopTop

theorem settles_afterIdleCondition {woke : Bool} :
    Settles w.interruptedEventId (w.afterIdleCondition input act seenWakeups woke) := by
  unfold afterIdleCondition
  cases hslot : w.interruptedEventId with
  | none =>
    dsimp only
    split_ifs
    · rw [← hslot]
      exact settles_loopTop
    · exact ⟨rfl, fun _ => rfl⟩
  | some eventId => exact ⟨rfl, rfl⟩

theorem settles_idleWait : Settles w.interruptedEventId (w.idleWait input act) := by
  unfold idleWait
  split_ifs with hslot
  · exact settles_afterIdleCondition
  · exact ⟨rfl, fun _ => by simpa using hslot⟩

theorem settles_goalCheck : Settles w.interruptedEventId (w.goalCheck input act) := by
  unfold goalCheck
  split_ifs
  · exact ⟨rfl, by simp [Await.reads]⟩
  · exact settles_idleWait

theorem settles_afterGoalCheck {action : GoalAction} :
    Settles w.interruptedEventId (w.afterGoalCheck input act action) := by
  unfold afterGoalCheck
  split_ifs
  · exact settles_loopTop
  · exact settles_idleWait

theorem settles_afterClaim {turn : Option Turn} : Settles w.interruptedEventId (w.afterClaim input act turn) := by
  unfold afterClaim
  split
  · split_ifs
    · exact ⟨rfl, by simp [Await.reads]⟩
    · exact settles_goalCheck
  · exact settles_runTurn (w := { w with turnsThisRun := w.turnsThisRun + 1 })

theorem settles_afterFinalClaim {turn : Option Turn} :
    Settles w.interruptedEventId (w.afterFinalClaim turn seenWakeups) := by
  unfold afterFinalClaim
  split
  · exact ⟨rfl, by simp [Await.reads]⟩
  · exact settles_runTurn (w := { w with turnsThisRun := w.turnsThisRun + 1 })

theorem settles_afterMarkIdle : Settles w.interruptedEventId (w.afterMarkIdle input act seenWakeups) := by
  unfold afterMarkIdle
  split_ifs with hmore
  · exact settles_loopTop
  · rw [not_or] at hmore
    simpa [Settles] using hmore.1

theorem settles_afterInterrupt : Settles none (w.afterInterrupt input act) :=
  settles_loopTop (w := { w with interruptedEventId := none })

theorem settles_hold : Settles w.interruptedEventId (w.hold input act result) := by
  unfold hold
  split_ifs with hhold
  · exact ⟨rfl, fun _ => by simpa using hhold.2⟩
  · exact settles_loopTop

theorem settles_afterApprovalCondition :
    Settles w.interruptedEventId (w.afterApprovalCondition input act turn result) := by
  unfold afterApprovalCondition
  split
  · next eventId hslot => exact ⟨hslot, hslot⟩
  · next approvalEventId approvalQueue hslot hqueue => exact settles_runTurn (w := { w with approvalQueue })
  · exact settles_hold

theorem settles_approvalWait : Settles w.interruptedEventId (w.approvalWait input act turn result) := by
  unfold approvalWait
  split_ifs with hready
  · exact settles_afterApprovalCondition
  · rw [not_or] at hready
    exact ⟨rfl, fun _ => by simpa using hready.1⟩

theorem settles_afterSegment {baseline : Baseline} (hslot : w.interruptedEventId = none) :
    Settles w.interruptedEventId (w.afterSegment input act turn baseline result) := by
  unfold afterSegment
  by_cases hfailed : result.status = .failed
  · rw [if_pos hfailed]
    exact hslot
  · rw [if_neg hfailed]
    by_cases hover : result.status = .cancelled ∨ result.status = .preempted
    · rw [if_pos hover]
      exact settles_loopTop
    · rw [if_neg hover]
      split
      · exact settles_waitForCodexCapacity
      · split_ifs
        · exact settles_approvalWait
        · exact settles_hold

theorem settles_afterFailure {error : ActivityFailure} (h : w.interruptedEventId.isSome = true →
      (error.isWorkerDeathFailure && act.patched .workerDeathRedispatch) = true) :
    Settles w.interruptedEventId (w.afterFailure act turn error) := by
  unfold afterFailure
  split_ifs with hdeath
  · exact ⟨rfl, by simp [Await.reads]⟩
  · refine ⟨rfl, fun _ => ?_⟩
    by_contra hslot
    exact hdeath (h (Option.isSome_iff_ne_none.2 hslot))

theorem settles_afterRequeue {result : RequeueResult}
    (h : w.interruptedEventId.isSome = true → ∀ n, result ≠ .exceeded n) :
    Settles w.interruptedEventId (w.afterRequeue input act turn result) := by
  unfold afterRequeue
  split
  · next redispatches =>
      refine ⟨rfl, fun _ => ?_⟩
      by_contra hslot
      exact h (Option.isSome_iff_ne_none.2 hslot) redispatches rfl
  · exact settles_loopTop

theorem settles_unblock (h : w.unblock input act = some w') : Settles w.interruptedEventId w' := by
  unfold unblock at h
  split at h
  · split_ifs at h
    cases h
    exact settles_afterCapacityCondition
  · split_ifs at h
    cases h
    exact settles_afterIdleCondition
  · -- The race is lost to an interrupt.
    obtain ⟨eventId, hslot, rfl⟩ := Option.map_eq_some_iff.1 h
    exact ⟨hslot, hslot⟩
  · split_ifs at h
    cases h
    exact settles_afterApprovalCondition
  · split_ifs at h
    cases h
    exact settles_loopTop
  · simp at h

theorem slot_of_blocked (h : w.unblock input act = none) (hreads : w.pc.reads = false)
    (hdeaf : w.pc.deaf = false) (hopen : ∀ why, w.pc ≠ .closed why) : w.interruptedEventId = none := by
  unfold unblock at h
  split at h
  · split_ifs at h with hcond
    rw [not_or] at hcond
    simpa using hcond.1
  · split_ifs at h with hcond
    rw [not_or] at hcond
    simpa using hcond.1
  · simpa using h
  · split_ifs at h with hcond
    rw [not_or] at hcond
    simpa using hcond.1
  · split_ifs at h with hcond
    rw [not_or] at hcond
    simpa using hcond.1
  · -- No other await is neither deaf, nor closed, nor read behind.
    cases hpc : w.pc with
    | closed why => exact absurd hpc (hopen why)
    | _ => simp_all [Await.reads, Await.deaf]

theorem settles_timeout (h : w.timeout input act = some w') : Settles w.interruptedEventId w' := by
  unfold timeout at h
  split at h
  · cases h
    exact settles_afterCapacityCondition
  · cases h
    exact settles_afterIdleCondition
  · cases h
    exact settles_loopTop
  · simp at h

end Workflow

/-! ## Steps -/

def Stands (pending : Option EventId) (w : Workflow) : Prop := match w.pc with
  | .interruptActiveTurn eventId => w.interruptedEventId = some eventId ∧ pending = none
  | .closed _ => pending = none
  | pc => w.interruptedEventId = pending ∧ (pc.reads = false → pending = none)

variable {pending : Option EventId} {batch : List Signal}

theorem Stands.held (h : Stands pending w) (hinterrupting : ∀ id, w.pc ≠ .interruptActiveTurn id)
    (hopen : ∀ why, w.pc ≠ .closed why) :
    w.interruptedEventId = pending ∧ (w.pc.reads = false → pending = none) := by
  unfold Stands at h
  split at h
  · next eventId hpc => exact absurd hpc (hinterrupting eventId)
  · next why hpc => exact absurd hpc (hopen why)
  · exact h

theorem Stands.interrupting (h : Stands pending w) (hpc : w.pc = .interruptActiveTurn id) :
    w.interruptedEventId = some id ∧ pending = none := by
  unfold Stands at h
  rwa [hpc] at h

theorem Settles.stands (h : Settles pending w) : Stands (pend pending (.reached w.pc)) w := by
  have hkeep : w.pc.interrupts = none → pend pending (.reached w.pc) = pending := by
    intro hnone
    show (if w.pc.interrupts = pending then none else pending) = pending
    rw [hnone]
    cases pending with
    | none | some => rfl
  unfold Settles at h
  unfold Stands
  split at h
  · next eventId hpc =>
      rw [hpc]
      obtain ⟨rfl, hslot⟩ := h
      exact ⟨hslot, if_pos rfl⟩
  · next eventId hpc =>
      rw [hpc]
      obtain ⟨rfl, hslot⟩ := h
      have htaken : pend (some eventId) (.reached (.pauseGoalForInterrupt eventId)) = none := if_pos rfl
      rw [htaken]
      exact ⟨hslot, fun _ => rfl⟩
  · next why hpc =>
      rw [hkeep (by rw [hpc]; rfl)]
      rw [hpc]
      exact h
  · next hinterrupt hpause hclosed =>
      have hnone : w.pc.interrupts = none := by
        unfold Await.interrupts
        split
        · next eventId hpc => exact absurd hpc (hinterrupt eventId)
        · next eventId hpc => exact absurd hpc (hpause eventId)
        · rfl
      rw [hkeep hnone]
      split
      · next eventId hpc => exact absurd hpc (hinterrupt eventId)
      · next why hpc => exact absurd hpc (hclosed why)
      · exact h

theorem Stands.resume {answer : Answer} (hst : Stands pending w) (h : w.resume input act answer = some w')
    (hgives : w.interruptedEventId.isSome = true → givesUp act w.pc answer = false) :
    Settles pending w' := by
  -- Where neither an interrupt is under way nor the end, the slot is what is outstanding.
  have hheld : (∀ id, w.pc ≠ .interruptActiveTurn id) → (∀ why, w.pc ≠ .closed why) →
      w.interruptedEventId = pending ∧ (w.pc.reads = false → pending = none) := hst.held
  unfold Workflow.resume at h
  split at h
  · next turn hpc =>
      obtain ⟨rfl, -⟩ := hheld (by simp [hpc]) (by simp [hpc])
      cases h
      exact Workflow.settles_afterClaim
  · next wait hpc =>
      obtain ⟨rfl, -⟩ := hheld (by simp [hpc]) (by simp [hpc])
      cases h
      exact Workflow.settles_waitForCodexCapacity
  · next hpc =>
      obtain ⟨rfl, -⟩ := hheld (by simp [hpc]) (by simp [hpc])
      cases h
      exact Workflow.settles_goalCheck
  · next current cause result hpc =>
      obtain ⟨rfl, -⟩ := hheld (by simp [hpc]) (by simp [hpc])
      cases h
      exact Workflow.settles_afterReconcile
  · next action hpc =>
      obtain ⟨rfl, -⟩ := hheld (by simp [hpc]) (by simp [hpc])
      cases h
      exact Workflow.settles_afterGoalCheck
  · next eventId hpc =>
      obtain ⟨hslot, hnone⟩ := hheld (by simp [hpc]) (by simp [hpc])
      cases h
      exact ⟨hslot, fun _ => hnone (by rw [hpc]; rfl)⟩
  · next hpc =>
      obtain ⟨-, hnone⟩ := hheld (by simp [hpc]) (by simp [hpc])
      cases h
      exact hnone (by rw [hpc]; rfl)
  · next seenWakeups turn hpc =>
      obtain ⟨rfl, -⟩ := hheld (by simp [hpc]) (by simp [hpc])
      cases h
      exact Workflow.settles_afterFinalClaim
  · next seenWakeups hpc =>
      obtain ⟨rfl, -⟩ := hheld (by simp [hpc]) (by simp [hpc])
      cases h
      exact Workflow.settles_afterMarkIdle
  · next eventId hpc =>
      -- The slot is emptied, and nothing was outstanding.
      obtain ⟨-, rfl⟩ := hst.interrupting hpc
      cases h
      exact Workflow.settles_afterInterrupt
  · next turn baseline result hpc =>
      obtain ⟨hslot, hnone⟩ := hheld (by simp [hpc]) (by simp [hpc])
      cases h
      have hempty : w.interruptedEventId = none := by
        rw [hslot]
        exact hnone (by rw [hpc]; rfl)
      rw [← hslot]
      exact Workflow.settles_afterSegment hempty
  · next turn baseline error wait hpc =>
      obtain ⟨rfl, -⟩ := hheld (by simp [hpc]) (by simp [hpc])
      cases h
      exact Workflow.settles_waitForCodexCapacity
  · next turn baseline error hpc =>
      obtain ⟨rfl, -⟩ := hheld (by simp [hpc]) (by simp [hpc])
      cases h
      apply Workflow.settles_afterFailure
      intro hslot
      have hno := hgives hslot
      rw [hpc] at hno
      simpa [givesUp] using hno
  · next turn result hpc =>
      obtain ⟨rfl, -⟩ := hheld (by simp [hpc]) (by simp [hpc])
      cases h
      apply Workflow.settles_afterRequeue
      rintro hslot n rfl
      have hno := hgives hslot
      rw [hpc] at hno
      simp [givesUp] at hno
  · next turn error hpc =>
      obtain ⟨-, hnone⟩ := hheld (by simp [hpc]) (by simp [hpc])
      cases h
      exact hnone (by rw [hpc]; rfl)
  · simp at h

theorem Stands.throw {error : ActivityFailure} (hst : Stands pending w) (h : w.throw input act error = some w')
    (hheeds : w.interruptedEventId.isSome = true → w.pc.interrupts.isSome = true ∨ w.pc.fatal error = false) :
    Settles pending w' := by
  unfold Workflow.throw at h
  split at h
  · next hpc =>
      obtain ⟨rfl, -⟩ := hst.held (by simp [hpc]) (by simp [hpc])
      rw [hpc] at hheeds
      split_ifs at h with hcancel
      · cases h
        show w.interruptedEventId = none
        by_contra hslot
        have hno := hheeds (Option.isSome_iff_ne_none.2 hslot)
        simp [Await.interrupts, Await.fatal, hcancel] at hno
      · cases h
        exact Workflow.settles_afterGoalCheck
  · next turn baseline hpc =>
      obtain ⟨hslot, hnone⟩ := hst.held (by simp [hpc]) (by simp [hpc])
      obtain rfl : pending = none := hnone (by rw [hpc]; rfl)
      cases h
      unfold Workflow.afterSegmentFailure
      split_ifs
      · exact ⟨hslot, fun _ => rfl⟩
      · rw [← hslot]
        apply Workflow.settles_afterFailure
        intro hsome
        simp [hslot] at hsome
  · next hgoal hsegment =>
      split_ifs at h with hactivity
      cases h
      show pending = none
      have hfatal : w.pc.fatal error = true := by
        unfold Await.fatal
        split
        · next hpc => exact absurd hpc hgoal
        · next turn baseline hpc => exact absurd hpc (hsegment turn baseline)
        · rfl
      by_contra hpending
      cases hpc : w.pc with
      | interruptActiveTurn id => exact hpending (hst.interrupting hpc).2
      | closed why => simp [hpc, Await.isActivity] at hactivity
      | pauseGoalForInterrupt id =>
        have hheld := hst.held (by simp [hpc]) (by simp [hpc])
        exact hpending (hheld.2 (by rw [hpc]; rfl))
      | _ =>
        have hheld := hst.held (by simp [hpc]) (by simp [hpc])
        have hno := hheeds (by rw [hheld.1]; exact Option.isSome_iff_ne_none.2 hpending)
        simp [hfatal] at hno
        simp [hpc, Await.interrupts] at hno

/-! ## Signals -/

theorem handle_pend (h : w.interruptedEventId = pending) : (batch.foldl Workflow.handle w).interruptedEventId
      = (batch.map HistoryEvent.signaled).foldl pend pending := by
  induction batch generalizing w pending with
  | nil => exact h
  | cons signal batch ih =>
    rw [List.foldl_cons, List.map_cons, List.foldl_cons]
    apply ih
    cases signal with
    | interrupt eventId => rfl
    | _ => exact h

theorem handle_slot (h : ∀ signal ∈ batch, signal.isInterrupt = false) :
    (batch.foldl Workflow.handle w).interruptedEventId = w.interruptedEventId := by
  induction batch generalizing w with
  | nil => rfl
  | cons signal batch ih =>
    obtain ⟨hsignal, hbatch⟩ := List.forall_mem_cons.1 h
    rw [List.foldl_cons, ih hbatch]
    cases signal with
    | interrupt eventId => simp [Signal.isInterrupt] at hsignal
    | _ => rfl

theorem pend_signaled (h : ∀ signal ∈ batch, signal.isInterrupt = false) :
    (batch.map HistoryEvent.signaled).foldl pend pending = pending := by
  induction batch with
  | nil => rfl
  | cons signal batch ih =>
    obtain ⟨hsignal, hbatch⟩ := List.forall_mem_cons.1 h
    rw [List.map_cons, List.foldl_cons]
    cases signal with
    | interrupt eventId => simp [Signal.isInterrupt] at hsignal
    | _ => exact ih hbatch

theorem unblock_eq_none (h : w.pc.deaf = true ∨ w.pc.reads = true) : w.unblock input act = none := by
  unfold Workflow.unblock
  split
  all_goals simp_all [Await.deaf, Await.reads]

/-! ## Runs -/

def Attended (x : Execution) : Prop := Stands (outstanding x.history) x.workflow

theorem Settles.attended (h : Settles (outstanding x.history) w) : Attended (x.go w) := by
  unfold Attended Execution.go
  rw [outstanding_append]
  exact h.stands

theorem attended_start : Attended (Execution.start input act) := by
  have hstart : Settles (outstanding []) (Workflow.start input act) := Workflow.settles_loopTop
  exact hstart.attended (x := ⟨Workflow.start input act, []⟩)

/-- **Every step that heeds keeps the slot and the history together.** -/
theorem attended_step (hx : Attended x) (h : Restrict (Execution.Steps input) Heeds x a x') : Attended x' := by
  obtain ⟨hstep, hheeds⟩ := h
  obtain ⟨act, e⟩ := a
  cases e with
  | signals batch =>
    obtain ⟨hopen, hcases⟩ := Execution.signals_cases hstep
    have hafter : outstanding (x.deliver batch).history
        = (batch.map HistoryEvent.signaled).foldl pend (outstanding x.history) := outstanding_append
    by_cases hdeaf : x.workflow.pc.deaf = true
    · -- Nothing that comes in touches the slot.
      have hnone := hheeds hdeaf
      have hblocked : (x.deliver batch).workflow.unblock input act = none :=
        unblock_eq_none (Or.inl (by rw [Execution.deliver_pc]; exact hdeaf))
      rcases hcases with ⟨w, hw, -⟩ | ⟨-, rfl⟩
      · rw [hblocked] at hw
        simp at hw
      · have hslot : (x.deliver batch).workflow.interruptedEventId = x.workflow.interruptedEventId :=
          handle_slot hnone
        unfold Attended Stands at hx ⊢
        rwa [hafter, pend_signaled hnone, Execution.deliver_pc, hslot]
    · have hinterrupting : ∀ id, x.workflow.pc ≠ .interruptActiveTurn id := by
        intro id heq
        rw [heq] at hdeaf
        exact hdeaf rfl
      have hslot : (x.deliver batch).workflow.interruptedEventId = outstanding (x.deliver batch).history := by
        rw [hafter]
        exact handle_pend (hx.held hinterrupting hopen).1
      rcases hcases with ⟨w, hw, rfl⟩ | ⟨hblocked, rfl⟩
      · have hsettles := Workflow.settles_unblock hw
        rw [hslot] at hsettles
        exact hsettles.attended
      · -- It stands where it stood, and if that is a condition, the slot is empty.
        unfold Attended Stands
        rw [Execution.deliver_pc]
        split
        · next id heq => exact absurd heq (hinterrupting id)
        · next why heq => exact absurd heq (hopen why)
        · refine ⟨hslot, fun hreads => ?_⟩
          rw [← hslot]
          apply Workflow.slot_of_blocked hblocked
          · rw [Execution.deliver_pc]
            exact hreads
          · rw [Execution.deliver_pc]
            simpa using hdeaf
          · rw [Execution.deliver_pc]
            exact hopen
  | timeout =>
    obtain ⟨w, hw, rfl⟩ := Option.map_eq_some_iff.1 hstep
    have hsettles := Workflow.settles_timeout hw
    have hheld : x.workflow.interruptedEventId = outstanding x.history := by
      unfold Workflow.timeout at hw
      split at hw
      · next hpc => exact (hx.held (by simp [hpc]) (by simp [hpc])).1
      · next hpc => exact (hx.held (by simp [hpc]) (by simp [hpc])).1
      · next hpc => exact (hx.held (by simp [hpc]) (by simp [hpc])).1
      · simp at hw
    rw [hheld] at hsettles
    exact hsettles.attended
  | returned answer =>
    obtain ⟨w, hw, rfl⟩ := Option.map_eq_some_iff.1 hstep
    exact (hx.resume hw hheeds).attended
  | threw error =>
    obtain ⟨w, hw, rfl⟩ := Option.map_eq_some_iff.1 hstep
    exact (hx.throw hw hheeds).attended

theorem history_step (h : Execution.Steps input x a x') : ∃ later, x'.history = x.history ++ later := by
  obtain ⟨act, e⟩ := a
  cases e with
  | signals batch =>
    obtain ⟨-, ⟨w, -, rfl⟩ | ⟨-, rfl⟩⟩ := Execution.signals_cases h
    · exact ⟨_, List.append_assoc _ _ _⟩
    · exact ⟨_, rfl⟩
  | _ =>
    obtain ⟨w, -, rfl⟩ := Option.map_eq_some_iff.1 h
    exact ⟨_, rfl⟩

theorem history_run (h : Run (Execution.Steps input) x as x') : ∃ later, x'.history = x.history ++ later := by
  induction h with
  | nil x => exact ⟨[], (List.append_nil _).symm⟩
  | cons hstep _ ih =>
    obtain ⟨later, hlater⟩ := history_step hstep
    obtain ⟨rest, hrest⟩ := ih
    exact ⟨later ++ rest, by rw [hrest, hlater, List.append_assoc]⟩

section Rank

variable (hslot : w.interruptedEventId = some id)

include hslot

/-! With an interrupt in the slot every block is short: it does not end the run, it does not
wait for a condition, and it asks for no goal. -/

theorem loopTop_pc : (w.loopTop input act).pc = .claimNextQueuedTurn := by
  simp [Workflow.loopTop, hslot]

theorem waitForCodexCapacity_pc {current : CodexCapacityWaitRef} {entry : Option Baseline} :
    (w.waitForCodexCapacity input act current entry).pc = .claimNextQueuedTurn := by
  simp [Workflow.waitForCodexCapacity, hslot, loopTop_pc]

theorem afterReconcile_pc {result : ReconcileResult} :
    (w.afterReconcile input act result).pc = .claimNextQueuedTurn := by
  unfold Workflow.afterReconcile
  split
  · simp [hslot, waitForCodexCapacity_pc]
  · exact loopTop_pc hslot

theorem idleWait_pc : (w.idleWait input act).pc = .pauseGoalForInterrupt id := by
  simp [Workflow.idleWait, Workflow.afterIdleCondition, hslot]

theorem goalCheck_pc : (w.goalCheck input act).pc = .pauseGoalForInterrupt id := by
  simp [Workflow.goalCheck, hslot, idleWait_pc]

theorem afterGoalCheck_interrupts {action : GoalAction} :
    (w.afterGoalCheck input act action).pc = .claimNextQueuedTurn ∨
      (w.afterGoalCheck input act action).pc = .pauseGoalForInterrupt id := by
  unfold Workflow.afterGoalCheck
  split_ifs
  · exact Or.inl (loopTop_pc hslot)
  · exact Or.inr (idleWait_pc hslot)

theorem runTurn_pc {turn : Turn} : (w.runTurn turn).pc = .interruptActiveTurn id := by
  simp [Workflow.runTurn, hslot]

/-- **Every answer brings the code closer** to the interrupt in the slot. -/
theorem rank_resume {answer : Answer} (hreads : w.pc.reads = true)
    (h : w.resume input act answer = some w') (hgives : givesUp act w.pc answer = false) :
    w'.pc.interrupts = some id ∨ w'.pc.rank < w.pc.rank := by
  unfold Workflow.resume at h
  split at h
  · next turn hpc =>
      cases h
      left
      unfold Workflow.afterClaim
      cases turn with
      | none => simp [hslot, goalCheck_pc, Await.interrupts]
      | some turn => simp [hslot, runTurn_pc, Await.interrupts]
  · next wait hpc =>
      cases h
      right
      rw [waitForCodexCapacity_pc hslot, hpc]
      simp [Await.rank]
  · next hpc =>
      cases h
      left
      rw [goalCheck_pc hslot]
      rfl
  · next current cause result hpc =>
      cases h
      right
      rw [afterReconcile_pc hslot, hpc]
      simp [Await.rank]
  · next action hpc =>
      cases h
      have hcases : _ ∨ (w.afterGoalCheck input act action).pc = _ := afterGoalCheck_interrupts hslot
      rcases hcases with hgo | hgo
      · right
        rw [hgo, hpc]
        simp [Await.rank]
      · left
        rw [hgo]
        rfl
  · next hpc => simp [hpc, Await.reads] at hreads
  · next hpc => simp [hpc, Await.reads] at hreads
  · next seenWakeups turn hpc =>
      cases h
      unfold Workflow.afterFinalClaim
      cases turn with
      | none =>
        right
        rw [hpc]
        simp [Await.rank]
      | some turn =>
        left
        simp [hslot, runTurn_pc, Await.interrupts]
  · next seenWakeups hpc =>
      cases h
      right
      simp [Workflow.afterMarkIdle, hslot, loopTop_pc, hpc, Await.rank]
  · next hpc => simp [hpc, Await.reads] at hreads
  · next hpc => simp [hpc, Await.reads] at hreads
  · next turn baseline error wait hpc =>
      cases h
      right
      rw [waitForCodexCapacity_pc hslot, hpc]
      simp [Await.rank]
  · next turn baseline error hpc =>
      cases h
      right
      rw [hpc] at hgives ⊢
      have hdeath : (error.isWorkerDeathFailure && act.patched .workerDeathRedispatch) = true := by
        simpa [givesUp] using hgives
      unfold Workflow.afterFailure
      rw [if_pos hdeath]
      simp [Await.rank]
  · next turn result hpc =>
      cases h
      right
      rw [hpc] at hgives ⊢
      cases result with
      | exceeded n => simp [givesUp] at hgives
      | _ => simp [Workflow.afterRequeue, hslot, loopTop_pc, Await.rank]
  · next hpc => simp [hpc, Await.reads] at hreads
  · simp at h

theorem rank_throw {error : ActivityFailure} (hreads : w.pc.reads = true)
    (h : w.throw input act error = some w') (hfatal : w.pc.fatal error = false) :
    w'.pc.interrupts = some id ∨ w'.pc.rank < w.pc.rank := by
  unfold Workflow.throw at h
  split at h
  · next hpc =>
      rw [hpc] at hfatal
      have hcancel : error.cause ≠ .cancellation := by simpa [Await.fatal] using hfatal
      rw [if_neg hcancel] at h
      cases h
      left
      simp [Workflow.afterGoalCheck, idleWait_pc, hslot, Await.interrupts]
  · next hpc => simp [hpc, Await.reads] at hreads
  · next hgoal hsegment =>
      unfold Await.fatal at hfatal
      split at hfatal
      · next hpc => exact absurd hpc hgoal
      · next turn baseline hpc => exact absurd hpc (hsegment turn baseline)
      · simp at hfatal

end Rank

theorem Attended.outstanding (hx : Attended x) (hout : outstanding x.history = some id) :
    x.workflow.interruptedEventId = some id ∧ x.workflow.pc.reads = true := by
  have hinterrupting : ∀ id, x.workflow.pc ≠ .interruptActiveTurn id := by
    intro id hpc
    have hnone := (hx.interrupting hpc).2
    simp [hout] at hnone
  have hopen : ∀ why, x.workflow.pc ≠ .closed why := by
    intro why hpc
    unfold Attended Stands at hx
    rw [hpc, hout] at hx
    simp at hx
  have hheld := hx.held hinterrupting hopen
  refine ⟨by rw [hheld.1, hout], ?_⟩
  by_contra hreads
  have hnone := hheld.2 (by simpa using hreads)
  simp [hout] at hnone

theorem rank_step (hx : Attended x) (hout : outstanding x.history = some id)
    (h : Restrict (Execution.Steps input) Heeds x a x') (hanswer : a.2.isAnswer = true) :
    (∃ later, x'.history = x.history ++ later ∧ Resolved id later) ∨
      outstanding x'.history = some id ∧ x'.workflow.pc.rank < x.workflow.pc.rank := by
  obtain ⟨hslot, hreads⟩ := hx.outstanding hout
  obtain ⟨hstep, hheeds⟩ := h
  obtain ⟨act, e⟩ := a
  have hgo : ∀ w : Workflow, (w.pc.interrupts = some id ∨ w.pc.rank < x.workflow.pc.rank) →
      (∃ later, (x.go w).history = x.history ++ later ∧ Resolved id later) ∨
        outstanding (x.go w).history = some id ∧ w.pc.rank < x.workflow.pc.rank := by
    intro w hw
    by_cases hid : w.pc.interrupts = some id
    · exact Or.inl ⟨[.reached w.pc], rfl, Or.inl ⟨w.pc, List.mem_singleton_self _, hid⟩⟩
    · right
      refine ⟨?_, hw.resolve_left hid⟩
      unfold Execution.go
      rw [outstanding_append, hout]
      exact if_neg hid
  cases e with
  | signals batch => simp [Event.isAnswer] at hanswer
  | timeout =>
    obtain ⟨w, hw, rfl⟩ := Option.map_eq_some_iff.1 hstep
    unfold Workflow.timeout at hw
    split at hw
    · next hpc => simp [hpc, Await.reads] at hreads
    · next hpc => simp [hpc, Await.reads] at hreads
    · next hpc => simp [hpc, Await.reads] at hreads
    · simp at hw
  | returned answer =>
    obtain ⟨w, hw, rfl⟩ := Option.map_eq_some_iff.1 hstep
    exact hgo w (rank_resume hslot hreads hw (hheeds (by rw [hslot]; rfl)))
  | threw error =>
    obtain ⟨w, hw, rfl⟩ := Option.map_eq_some_iff.1 hstep
    have hfatal : x.workflow.pc.fatal error = false := by
      rcases hheeds (by rw [hslot]; rfl) with hinterrupts | hfatal
      · -- Behind an interrupt activity the slot is not read.
        unfold Await.interrupts at hinterrupts
        split at hinterrupts
        · next hpc => simp [hpc, Await.reads] at hreads
        · next hpc => simp [hpc, Await.reads] at hreads
        · simp at hinterrupts
      · exact hfatal
    exact hgo w (rank_throw hslot hreads hw hfatal)

theorem signals_outstanding {batch : List Signal} (hx : Attended x)
    (hout : outstanding x.history = some id) (h : Execution.Steps input x (act, .signals batch) x') :
    (∃ later, x'.history = x.history ++ later ∧ Resolved id later) ∨
      outstanding x'.history = some id ∧ x'.workflow.pc = x.workflow.pc := by
  obtain ⟨hslot, hreads⟩ := hx.outstanding hout
  obtain ⟨-, ⟨w, hw, -⟩ | ⟨-, rfl⟩⟩ := Execution.signals_cases h
  · rw [unblock_eq_none (Or.inr (by rw [Execution.deliver_pc]; exact hreads))] at hw
    simp at hw
  · by_cases hres : Resolved id (batch.map HistoryEvent.signaled)
    · exact Or.inl ⟨_, rfl, hres⟩
    · right
      refine ⟨?_, Execution.deliver_pc⟩
      show outstanding (x.history ++ batch.map .signaled) = some id
      rw [outstanding_append, hout]
      exact pend_of_not_resolved hres

theorem resolved_of_run (h : Run (Restrict (Execution.Steps input) Heeds) x as x') :
    Attended x → outstanding x.history = some id → x.workflow.pc.rank ≤ answers as →
      ∃ later, x'.history = x.history ++ later ∧ Resolved id later := by
  induction h with
  | nil x =>
    intro hx hout hrank
    have hpos : 0 < x.workflow.pc.rank := by
      unfold Await.rank
      split <;> omega
    simp only [answers, List.countP_nil] at hrank
    omega
  | @cons x y x' a as hstep hrun ih =>
    intro hx hout hrank
    -- One step resolves it, or the rest of the run does.
    have hone : (∃ later, y.history = x.history ++ later ∧ Resolved id later) ∨
        outstanding y.history = some id ∧ y.workflow.pc.rank ≤ answers as := by
      unfold answers at hrank ⊢
      rw [List.countP_cons] at hrank
      by_cases hanswer : a.2.isAnswer = true
      · rw [if_pos hanswer] at hrank
        refine (rank_step hx hout hstep hanswer).imp_right fun hcloser => ⟨hcloser.1, ?_⟩
        omega
      · rw [if_neg hanswer] at hrank
        obtain ⟨act, e⟩ := a
        cases e with
        | signals batch =>
          refine (signals_outstanding hx hout hstep.1).imp_right fun hsame => ⟨hsame.1, ?_⟩
          rw [hsame.2]
          omega
        | _ => exact absurd rfl hanswer
    rcases hone with ⟨later, hlater, hres⟩ | ⟨hout', hrank'⟩
    · obtain ⟨rest, hrest⟩ := history_run hrun.unrestrict
      exact ⟨later ++ rest, by rw [hrest, hlater, List.append_assoc], hres.append⟩
    · obtain ⟨rest, hrest, hres⟩ := ih (attended_step hx hstep) hout' hrank'
      obtain ⟨later, hlater⟩ := history_step hstep.1
      exact ⟨later ++ rest, by rw [hrest, hlater, List.append_assoc], hres.append_right⟩

/-- **No interrupt is lost** in a run that heeds. -/
theorem interrupts_kept (h : Run (Restrict (Execution.Steps input) Heeds) (.start input act) as x) :
    InterruptKept input x := by
  have hx : Attended x := h.invariant (fun _ _ _ hstep hs => attended_step hs hstep) attended_start
  intro before eventId after hhistory
  rcases resolved_or_outstanding hhistory with hres | hout
  · exact Or.inl hres
  · right
    obtain ⟨hslot, hreads⟩ := hx.outstanding hout
    refine ⟨hslot, ?_, ?_⟩
    · unfold Await.isActivity
      split
      all_goals simp_all [Await.reads]
    · intro as' x' hrun hanswers
      apply resolved_of_run hrun hx hout
      have hrank : x.workflow.pc.rank ≤ 3 := by
        unfold Await.rank
        split <;> omega
      omega

/-- An activation of a worker that has all the patches, at time 0. -/
def plainActivation : Activation :=
  { continueAsNewSuggested := false, patched := fun _ => true, now := 0 }

def plainInput : SessionWorkflowInput := ⟨none, none⟩

def stopEvent : EventId := ⟨"stop", by decide⟩

/-- An idle workflow is interrupted and pauses the goal. -/
theorem interrupts_kept_idle : ∃ x, outstanding x.history = none ∧ InterruptKept plainInput x := by
  have hrun : play (guarded (Execution.step plainInput) Heeds) (.start plainInput plainActivation)
      [(plainActivation, .signals [.interrupt stopEvent]), (plainActivation, .returned (.claimed none))]
      = some _ := rfl
  exact ⟨_, rfl, interrupts_kept (guarded_run hrun)⟩

/-- **An interrupt that comes in while the turn is being interrupted** is lost. -/
theorem interrupts_overwritten : ∃ as x,
    Run (Execution.Steps plainInput) (.start plainInput plainActivation) as x ∧
      ¬ InterruptKept plainInput x := by
  have hrun : play (Execution.step plainInput) (.start plainInput plainActivation)
      [(plainActivation, .returned (.claimed (some ⟨"turn", ⟨"message", by decide⟩⟩))),
        (plainActivation, .signals [.interrupt stopEvent]),
        (plainActivation, .signals [.interrupt ⟨"stop again", by decide⟩]),
        (plainActivation, .returned .void)] = some _ := rfl
  refine ⟨_, _, run_of_play hrun, ?_⟩
  intro hkept
  -- The slot is empty, and the run goes on as if there had been one interrupt.
  rcases hkept [_, _, _, _] ⟨"stop again", by decide⟩ [.reached .claimNextQueuedTurn] rfl with
    (⟨pc, hpc, hid⟩ | ⟨id, hid⟩) | ⟨hslot, -⟩
  · obtain rfl : pc = .claimNextQueuedTurn := by simpa using hpc
    simp [Await.interrupts] at hid
  · simp at hid
  · have hempty : none = some _ := hslot
    simp at hempty

end OpenGeni.Worker
