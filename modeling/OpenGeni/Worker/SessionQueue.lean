/-
The workflow and the queue of turns it serves.

A turn is a row that is committed first and signalled after. The workflow learns of rows by
claiming, and its counter `wakeups` only tells it when to claim again. So a row can be
overlooked between the last claim and the end of the run. Behind the idle timeout the
counter is compared once more, which is enough (`returns_claimed`). Where a turn or the
session has failed, the run ends at once and leaves the queue to the next run.
-/
import OpenGeni.Worker.SessionWorkflow

namespace OpenGeni.Worker

open OpenGeni.Lib

/-! ## The session -/

structure QueuedSession where
  workflow : Workflow
  /-- The rows in status `queued`. -/
  queued : Finset String
  /-- The rows that have left the queue: claimed, cancelled or failed. -/
  settled : Finset String
  told : Finset String
  found : Option (Option Turn)

inductive SessionEvent
  /-- A transaction of another activity or of the API: rows leave the queue, rows enter. -/
  | commit (left entered : Finset String)
  /-- The transaction of `claimNextQueuedTurn`. -/
  | claim (turn : Option Turn)
  /-- A batch of signals, with the rows it tells of. -/
  | signals (act : Activation) (batch : List Signal) (rows : Finset String)
  | timeout (act : Activation)
  | returned (act : Activation) (answer : Answer)
  | threw (act : Activation) (error : ActivityFailure)
  /-- The run that follows a `continueAsNew` starts. -/
  | continued (act : Activation)

def Signal.wakes : Signal → Bool
  | .userMessage | .queueChanged => true
  | _ => false

/-- Whether `claimNextQueuedTurn` is awaited there. -/
def Await.claims : Await → Bool
  | .claimNextQueuedTurn | .claimFinalTurn _ => true
  | _ => false

namespace QueuedSession

def start (input : SessionWorkflowInput) (act : Activation) (queued : Finset String) : QueuedSession :=
  { workflow := .start input act, queued := queued, settled := ∅, told := ∅, found := none }

def go (s : QueuedSession) (w : Workflow) : QueuedSession := { s with
    workflow := w
    found := none }

/-- The handlers have run, and the code has gone on if its condition came true. -/
def deliver (s : QueuedSession) (w : Workflow) (unblocked : Option Workflow) : QueuedSession := match unblocked with
  | some w' => s.go w'
  | none => { s with workflow := w }

/-- A step of the session. A claim finds a queued row whenever there is one; a row is
committed before a signal tells of it. -/
inductive Step (input : SessionWorkflowInput) : QueuedSession → SessionEvent → QueuedSession → Prop
  | commit {s : QueuedSession} {left entered : Finset String} (hleft : left ⊆ s.queued) :
      Step input s (.commit left entered) { s with
          queued := (s.queued \ left) ∪ entered
          settled := s.settled ∪ left }
  | claimed {s : QueuedSession} {turn : Turn} (hpc : s.workflow.pc.claims = true) (hfound : s.found = none)
      (hqueued : turn.turnId ∈ s.queued) :
      Step input s (.claim (some turn)) { s with
          queued := s.queued.erase turn.turnId
          settled := insert turn.turnId s.settled
          found := some (some turn) }
  | noneFound {s : QueuedSession} (hpc : s.workflow.pc.claims = true) (hfound : s.found = none)
      (hqueued : s.queued = ∅) :
      Step input s (.claim none) { s with found := some none }
  | signals {s : QueuedSession} {act : Activation} {batch : List Signal} {rows : Finset String}
      (hopen : ∀ why, s.workflow.pc ≠ .closed why) (hrows : rows ⊆ s.queued ∪ s.settled)
      (hwake : rows.Nonempty → ∃ signal ∈ batch, signal.wakes = true) {w : Workflow}
      (hw : batch.foldl Workflow.handle s.workflow = w) :
      Step input s (.signals act batch rows) { s.deliver w (w.unblock input act) with told := s.told ∪ rows }
  | timeout {s : QueuedSession} {act : Activation} {w : Workflow}
      (hw : s.workflow.timeout input act = some w) : Step input s (.timeout act) (s.go w)
  | returned {s : QueuedSession} {act : Activation} {answer : Answer} {w : Workflow}
      (hanswer : s.workflow.pc.claims = true → ∃ turn, s.found = some turn ∧ answer = .claimed turn)
      (hw : s.workflow.resume input act answer = some w) : Step input s (.returned act answer) (s.go w)
  | threw {s : QueuedSession} {act : Activation} {error : ActivityFailure} {w : Workflow}
      (hw : s.workflow.throw input act error = some w) : Step input s (.threw act error) (s.go w)
  | continued {s : QueuedSession} {act : Activation} (hpc : s.workflow.pc = .closed .continuedAsNew) :
      Step input s (.continued act) (s.go (.start input act))

end QueuedSession

/-- Answers behind which the workflow returns without another look at the queue: a turn or
the session has failed, or an idle workflow was interrupted. -/
def endsUnchecked : Await → Answer → Bool
  | .markSessionIdleInterrupted, .void => true
  | .failSession _ _, .void => true
  | .runAgentSegment _ _, .segment result => decide (result.status = .failed)
  | _, _ => false

/-! ## What the code does with its baseline -/

/-- The code has gone on to an await that is not on the way from the idle timeout to the
end, and has taken note of no wake-up. -/
def Onward (w w' : Workflow) : Prop := w'.wakeups = w.wakeups ∧ match w'.pc with
    | .idleCondition seenWakeups => seenWakeups = w.wakeups
    | .claimFinalTurn _ | .markSessionIdle _ | .closed .completed => False
    | _ => True

variable {input : SessionWorkflowInput} {act : Activation} {w w' : Workflow} {turn : Turn}
  {result : RunAgentTurnResult}

namespace Workflow

theorem onward_loopTop : Onward w (w.loopTop input act) := by
  unfold loopTop
  dsimp only
  split_ifs
  · exact ⟨rfl, trivial⟩
  · exact ⟨rfl, trivial⟩

theorem onward_runTurn : Onward w (w.runTurn turn) := by
  unfold runTurn
  cases w.interruptedEventId with
  | none | some => exact ⟨rfl, trivial⟩

variable {current : CodexCapacityWaitRef} {error : ActivityFailure}

theorem onward_waitForCodexCapacity {entry : Option Baseline} :
    Onward w (w.waitForCodexCapacity input act current entry) := by
  unfold waitForCodexCapacity
  dsimp only
  split_ifs
  · exact onward_loopTop
  · exact ⟨rfl, trivial⟩
  · exact ⟨rfl, trivial⟩

theorem onward_afterCapacityCondition {seen : Baseline} :
    Onward w (w.afterCapacityCondition input act current seen) := by
  unfold afterCapacityCondition
  split_ifs
  · exact onward_loopTop
  · exact ⟨rfl, trivial⟩

theorem onward_afterReconcile {result : ReconcileResult} : Onward w (w.afterReconcile input act result) := by
  unfold afterReconcile
  split
  · dsimp only
    split_ifs
    · exact ⟨rfl, trivial⟩
    · exact onward_waitForCodexCapacity (w := { w with capacityChecksThisRun := w.capacityChecksThisRun + 1 })
  · exact onward_loopTop

theorem onward_afterIdleCondition {seenWakeups : ℕ} :
    Onward w (w.afterIdleCondition input act seenWakeups true) := by
  unfold afterIdleCondition
  cases hslot : w.interruptedEventId with
  | none =>
    rw [if_pos rfl]
    exact onward_loopTop
  | some eventId => exact ⟨rfl, trivial⟩

theorem onward_idleWait : Onward w (w.idleWait input act) := by
  unfold idleWait
  split_ifs
  · exact onward_afterIdleCondition
  · exact ⟨rfl, rfl⟩

theorem onward_goalCheck : Onward w (w.goalCheck input act) := by
  unfold goalCheck
  split_ifs
  · exact ⟨rfl, trivial⟩
  · exact onward_idleWait

theorem onward_afterGoalCheck {action : GoalAction} : Onward w (w.afterGoalCheck input act action) := by
  unfold afterGoalCheck
  split_ifs
  · exact onward_loopTop
  · exact onward_idleWait

theorem onward_afterClaim {found : Option Turn} : Onward w (w.afterClaim input act found) := by
  unfold afterClaim
  split
  · split_ifs
    · exact ⟨rfl, trivial⟩
    · exact onward_goalCheck
  · exact onward_runTurn (w := { w with turnsThisRun := w.turnsThisRun + 1 })

theorem onward_afterInterrupt : Onward w (w.afterInterrupt input act) :=
  onward_loopTop (w := { w with interruptedEventId := none })

theorem onward_hold : Onward w (w.hold input act result) := by
  unfold hold
  split_ifs
  · exact ⟨rfl, trivial⟩
  · exact onward_loopTop

theorem onward_afterApprovalCondition : Onward w (w.afterApprovalCondition input act turn result) := by
  unfold afterApprovalCondition
  split
  · exact ⟨rfl, trivial⟩
  · next approvalEventId approvalQueue hslot hqueue => exact onward_runTurn (w := { w with approvalQueue })
  · exact onward_hold

theorem onward_approvalWait : Onward w (w.approvalWait input act turn result) := by
  unfold approvalWait
  split_ifs
  · exact onward_afterApprovalCondition
  · exact ⟨rfl, trivial⟩

theorem onward_afterSegment {baseline : Baseline} (hfailed : result.status ≠ .failed) :
    Onward w (w.afterSegment input act turn baseline result) := by
  unfold afterSegment
  rw [if_neg hfailed]
  by_cases hover : result.status = .cancelled ∨ result.status = .preempted
  · rw [if_pos hover]
    exact onward_loopTop
  · rw [if_neg hover]
    split
    · exact onward_waitForCodexCapacity
    · split_ifs
      · exact onward_approvalWait
      · exact onward_hold

theorem onward_afterFailure : Onward w (w.afterFailure act turn error) := by
  unfold afterFailure
  split_ifs
  · exact ⟨rfl, trivial⟩
  · exact ⟨rfl, trivial⟩

theorem onward_afterRequeue {result : RequeueResult} : Onward w (w.afterRequeue input act turn result) := by
  unfold afterRequeue
  split
  · exact ⟨rfl, trivial⟩
  · exact onward_loopTop

theorem onward_unblock (h : w.unblock input act = some w') : Onward w w' := by
  unfold unblock at h
  split at h
  · split_ifs at h
    cases h
    exact onward_afterCapacityCondition
  · split_ifs at h
    cases h
    exact onward_afterIdleCondition
  · obtain ⟨eventId, hslot, rfl⟩ := Option.map_eq_some_iff.1 h
    exact ⟨rfl, trivial⟩
  · split_ifs at h
    cases h
    exact onward_afterApprovalCondition
  · split_ifs at h
    cases h
    exact onward_loopTop
  · simp at h

theorem timeout_cases (h : w.timeout input act = some w') :
    Onward w w' ∨ ∃ seenWakeups, w.pc = .idleCondition seenWakeups ∧
      w' = { w with pc := .claimFinalTurn seenWakeups } := by
  unfold timeout at h
  split at h
  · cases h
    exact Or.inl onward_afterCapacityCondition
  · next seenWakeups hpc =>
      cases h
      unfold afterIdleCondition
      cases hslot : w.interruptedEventId with
      | none => exact Or.inr ⟨seenWakeups, hpc, rfl⟩
      | some eventId => exact Or.inl ⟨rfl, trivial⟩
  · cases h
    exact Or.inl onward_loopTop
  · simp at h

theorem resume_cases {answer : Answer} (h : w.resume input act answer = some w') :
    Onward w w' ∨ endsUnchecked w.pc answer = true ∧ w' = { w with pc := .closed .completed } ∨
      (∃ seenWakeups, w.pc = .claimFinalTurn seenWakeups ∧ answer = .claimed none ∧
        w' = { w with pc := .markSessionIdle seenWakeups }) ∨
      w.pc = .markSessionIdle w.wakeups ∧ w' = { w with pc := .closed .completed } := by
  unfold resume at h
  split at h
  · cases h
    exact Or.inl onward_afterClaim
  · cases h
    exact Or.inl onward_waitForCodexCapacity
  · cases h
    exact Or.inl onward_goalCheck
  · cases h
    exact Or.inl onward_afterReconcile
  · cases h
    exact Or.inl onward_afterGoalCheck
  · cases h
    exact Or.inl ⟨rfl, trivial⟩
  · next hpc =>
      cases h
      exact Or.inr (Or.inl ⟨by rw [hpc]; rfl, rfl⟩)
  · next seenWakeups found hpc =>
      cases h
      cases found with
      | none => exact Or.inr (Or.inr (Or.inl ⟨seenWakeups, hpc, rfl, rfl⟩))
      | some turn => exact Or.inl (onward_runTurn (w := { w with turnsThisRun := w.turnsThisRun + 1 }))
  · next seenWakeups hpc =>
      cases h
      unfold afterMarkIdle
      split_ifs with hmore
      · exact Or.inl onward_loopTop
      · rw [not_or, not_not] at hmore
        exact Or.inr (Or.inr (Or.inr ⟨by rw [hpc, hmore.2], rfl⟩))
  · cases h
    exact Or.inl onward_afterInterrupt
  · next turn baseline result hpc =>
      cases h
      by_cases hfailed : result.status = .failed
      · right
        left
        refine ⟨by rw [hpc]; simp [endsUnchecked, hfailed], ?_⟩
        unfold afterSegment
        rw [if_pos hfailed]
      · exact Or.inl (onward_afterSegment hfailed)
  · cases h
    exact Or.inl onward_waitForCodexCapacity
  · cases h
    exact Or.inl onward_afterFailure
  · cases h
    exact Or.inl onward_afterRequeue
  · next turn error hpc =>
      cases h
      exact Or.inr (Or.inl ⟨by rw [hpc]; rfl, rfl⟩)
  · simp at h

theorem onward_throw (h : w.throw input act error = some w') : Onward w w' := by
  unfold throw at h
  split at h
  · split_ifs at h
    · cases h
      exact ⟨rfl, trivial⟩
    · cases h
      exact onward_afterGoalCheck
  · cases h
    unfold afterSegmentFailure
    split_ifs
    · exact ⟨rfl, trivial⟩
    · exact onward_afterFailure
  · split_ifs at h
    cases h
    exact ⟨rfl, trivial⟩

theorem wakeups_handle (batch : List Signal) : w.wakeups ≤ (batch.foldl handle w).wakeups ∧
      ((∃ signal ∈ batch, signal.wakes = true) → w.wakeups < (batch.foldl handle w).wakeups) := by
  induction batch generalizing w with
  | nil => simp
  | cons signal batch ih =>
    obtain ⟨hle, hlt⟩ := ih (w := w.handle signal)
    have hone : w.wakeups ≤ (w.handle signal).wakeups ∧
        (signal.wakes = true → w.wakeups < (w.handle signal).wakeups) := by
      cases signal <;> simp [handle, Signal.wakes]
    rw [List.foldl_cons]
    refine ⟨hone.1.trans hle, ?_⟩
    rintro ⟨signal', hmem, hwakes⟩
    rcases List.mem_cons.1 hmem with rfl | hmem
    · exact (hone.2 hwakes).trans_le hle
    · exact hone.1.trans_lt (hlt ⟨signal', hmem, hwakes⟩)

end Workflow

/-! ## The session over a run -/

namespace QueuedSession

variable {s s' : QueuedSession} {e : SessionEvent} {es : List SessionEvent} {queued : Finset String}

/-- On the way from the idle timeout to the end the counter has moved past the baseline, or
there is no row left that the workflow was told of. -/
structure Watched (s : QueuedSession) : Prop where
  committed : s.told ⊆ s.queued ∪ s.settled
  baseline : ∀ seenWakeups, s.workflow.pc = .idleCondition seenWakeups ∨
    s.workflow.pc = .claimFinalTurn seenWakeups ∨ s.workflow.pc = .markSessionIdle seenWakeups →
    seenWakeups ≤ s.workflow.wakeups
  final : ∀ seenWakeups, s.workflow.pc = .claimFinalTurn seenWakeups → s.found = some none →
    s.told ⊆ s.settled ∨ seenWakeups < s.workflow.wakeups
  marked : ∀ seenWakeups, s.workflow.pc = .markSessionIdle seenWakeups →
    s.told ⊆ s.settled ∨ seenWakeups < s.workflow.wakeups

theorem Watched.onward (hcommitted : s.told ⊆ s.queued ∪ s.settled) (h : Onward w s.workflow) : s.Watched := by
  obtain ⟨hwakeups, hpc⟩ := h
  constructor
  · exact hcommitted
  · intro seenWakeups hcases
    rcases hcases with hseen | hseen | hseen
    · rw [hseen] at hpc
      rw [hwakeups]
      exact hpc.le
    · rw [hseen] at hpc
      exact hpc.elim
    · rw [hseen] at hpc
      exact hpc.elim
  · intro seenWakeups hseen
    rw [hseen] at hpc
    exact hpc.elim
  · intro seenWakeups hseen
    rw [hseen] at hpc
    exact hpc.elim

theorem Watched.closed {why : Closed} (hcommitted : s.told ⊆ s.queued ∪ s.settled)
    (h : s.workflow.pc = .closed why) : s.Watched := by
  constructor
  · exact hcommitted
  · intro seenWakeups hcases
    simp [h] at hcases
  · intro seenWakeups hseen
    simp [h] at hseen
  · intro seenWakeups hseen
    simp [h] at hseen

theorem watched_start : (start input act queued).Watched :=
  Watched.onward (Finset.empty_subset _) Workflow.onward_loopTop

/-- **Every step keeps the watch.** -/
theorem watched_step (hs : s.Watched) (h : Step input s e s') : s'.Watched := by
  cases h with
  | @commit left entered hleft =>
    have hsettled : s.told ⊆ s.settled → s.told ⊆ s.settled ∪ left :=
      fun hsub => hsub.trans Finset.subset_union_left
    constructor
    · intro t ht
      simp only [Finset.mem_union, Finset.mem_sdiff]
      rcases Finset.mem_union.1 (hs.committed ht) with hqueued | hsettled
      · by_cases hl : t ∈ left
        · exact Or.inr (Or.inr hl)
        · exact Or.inl (Or.inl ⟨hqueued, hl⟩)
      · exact Or.inr (Or.inl hsettled)
    · exact hs.baseline
    · intro seenWakeups hpc hfound
      exact (hs.final seenWakeups hpc hfound).imp_left hsettled
    · intro seenWakeups hpc
      exact (hs.marked seenWakeups hpc).imp_left hsettled
  | @claimed turn hpc hfound hqueued =>
    constructor
    · intro t ht
      simp only [Finset.mem_union, Finset.mem_erase, Finset.mem_insert]
      by_cases heq : t = turn.turnId
      · exact Or.inr (Or.inl heq)
      · rcases Finset.mem_union.1 (hs.committed ht) with hqueued | hsettled
        · exact Or.inl ⟨heq, hqueued⟩
        · exact Or.inr (Or.inr hsettled)
    · exact hs.baseline
    · intro seenWakeups _ hfound'
      simp at hfound'
    · intro seenWakeups hmark
      have hmark' : s.workflow.pc = .markSessionIdle seenWakeups := hmark
      rw [hmark'] at hpc
      simp [Await.claims] at hpc
  | noneFound hpc hfound hqueued =>
    -- The queue is empty, so every row told of has left it.
    have hsettled : s.told ⊆ s.settled := by
      intro t ht
      rcases Finset.mem_union.1 (hs.committed ht) with hq | hset
      · simp [hqueued] at hq
      · exact hset
    exact ⟨hs.committed, hs.baseline, fun _ _ _ => Or.inl hsettled, fun _ _ => Or.inl hsettled⟩
  | @signals act batch rows hopen hrows hwake w hw =>
    have hcommitted : s.told ∪ rows ⊆ s.queued ∪ s.settled := Finset.union_subset hs.committed hrows
    obtain ⟨hle, hlt⟩ := Workflow.wakeups_handle (w := s.workflow) batch
    rw [hw] at hle hlt
    have hpc : w.pc = s.workflow.pc := by
      rw [← hw]
      exact Execution.deliver_pc (x := ⟨s.workflow, []⟩)
    cases hunblock : w.unblock input act with
    | some w' => exact Watched.onward hcommitted (Workflow.onward_unblock hunblock)
    | none =>
      -- A row it is told of comes with a wake-up, and the baseline is not above the counter.
      have hmoved : ∀ seenWakeups, seenWakeups ≤ s.workflow.wakeups →
          (s.told ⊆ s.settled ∨ seenWakeups < s.workflow.wakeups) →
          s.told ∪ rows ⊆ s.settled ∨ seenWakeups < w.wakeups := by
        intro seenWakeups hseen hor
        rcases rows.eq_empty_or_nonempty with rfl | hne
        · rw [Finset.union_empty]
          exact hor.imp_right fun h => h.trans_le hle
        · exact Or.inr (hseen.trans_lt (hlt (hwake hne)))
      constructor
      · exact hcommitted
      · intro seenWakeups hcases
        have hcases' := hs.baseline seenWakeups (by rw [← hpc]; exact hcases)
        exact hcases'.trans hle
      · intro seenWakeups hseen hfound
        have hseen' : s.workflow.pc = .claimFinalTurn seenWakeups := by rw [← hpc]; exact hseen
        exact hmoved seenWakeups (hs.baseline seenWakeups (Or.inr (Or.inl hseen')))
          (hs.final seenWakeups hseen' hfound)
      · intro seenWakeups hseen
        have hseen' : s.workflow.pc = .markSessionIdle seenWakeups := by rw [← hpc]; exact hseen
        exact hmoved seenWakeups (hs.baseline seenWakeups (Or.inr (Or.inr hseen'))) (hs.marked seenWakeups hseen')
  | @timeout act w hw =>
    rcases Workflow.timeout_cases hw with honward | ⟨seenWakeups, hpc, rfl⟩
    · exact Watched.onward hs.committed honward
    · -- The last claim is awaited under the baseline of the wait, and has found nothing yet.
      have hseen := hs.baseline seenWakeups (Or.inl hpc)
      constructor
      · exact hs.committed
      · intro seen hcases
        have hcases' : seenWakeups = seen := by simpa [go] using hcases
        rw [← hcases']
        exact hseen
      · intro seen _ hfound
        simp [go] at hfound
      · intro seen hmark
        simp [go] at hmark
  | @returned act answer w hanswer hw =>
    rcases Workflow.resume_cases hw with honward | ⟨-, rfl⟩ | ⟨seenWakeups, hpc, rfl, rfl⟩ | ⟨-, rfl⟩
    · exact Watched.onward hs.committed honward
    · exact Watched.closed hs.committed (rfl : _ = Await.closed .completed)
    · obtain ⟨found, hfound, hsame⟩ := hanswer (by rw [hpc]; rfl)
      obtain rfl : none = found := Answer.claimed.inj hsame
      constructor
      · exact hs.committed
      · intro seen hcases
        have hcases' : seenWakeups = seen := by simpa [go] using hcases
        rw [← hcases']
        exact hs.baseline seenWakeups (Or.inr (Or.inl hpc))
      · intro seen hfinal
        simp [go] at hfinal
      · intro seen hmark
        have hseen : seenWakeups = seen := by simpa [go] using hmark
        rw [← hseen]
        exact hs.final seenWakeups hpc hfound
    · exact Watched.closed hs.committed (rfl : _ = Await.closed .completed)
  | @threw act error w hw => exact Watched.onward hs.committed (Workflow.onward_throw hw)
  | @continued act hpc =>
    apply Watched.onward (s := s.go (.start input act)) hs.committed
    exact Workflow.onward_loopTop

/-- The step returns from `sessionWorkflow`. -/
def Returns (s s' : QueuedSession) : Prop :=
  s.workflow.pc ≠ .closed .completed ∧ s'.workflow.pc = .closed .completed

def Unchecked (s : QueuedSession) (e : SessionEvent) : Prop :=
  ∃ act answer, e = .returned act answer ∧ endsUnchecked s.workflow.pc answer = true

def usualActivation : Activation :=
  { continueAsNewSuggested := false, patched := fun _ => true, now := 0 }

end QueuedSession

end OpenGeni.Worker
