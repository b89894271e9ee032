/-
Which turn an approval decision resumes.

Decisions of all turns wait in one queue. A turn that comes to `requires_action` takes the
oldest one, whatever turn it was delivered for, and what a turn leaves behind stays in the
queue until the workflow continues as new. So a surplus decision of one turn resumes the
next one that asks, unless the queue is clean when that turn asks (`decisions_own`).
-/
import OpenGeni.Worker.SessionWorkflow

namespace OpenGeni.Worker

open OpenGeni.Lib

/-! ## The turns of decisions -/

/-- The turn that `runTurn` is at work on. -/
def Await.turnId : Await → Option String
  | .runAgentSegment turn _ | .getCodexCapacityWaitOnFailure turn _ _ |
    .requeueTurnAfterWorkerDeath turn | .failSession turn _ | .approvalCondition turn _ =>
      some turn.turnId
  | _ => none

/-- The turn that an entry of the queue is taken for: the one whose segment starts with it. -/
def Await.resumes : Await → Option String
  | .runAgentSegment turn _ => some turn.turnId
  | _ => none

def Signal.isDecision : Signal → Bool
  | .approvalDecision _ => true
  | _ => false

/-- A workflow, with the turn each entry of `approvalQueue` was delivered for and the
decisions that have been taken out for a turn. -/
structure ApprovalSession where
  workflow : Workflow
  deliveredFor : List (Option String)
  /-- The turn a decision was delivered for, and the turn it has resumed. -/
  used : List (Option String × String)

namespace ApprovalSession

def start (input : SessionWorkflowInput) (act : Activation) : ApprovalSession :=
  { workflow := .start input act, deliveredFor := [], used := [] }

/-- The code has gone on to its next await. What it has taken out of the queue, it has taken
for the turn it now runs. -/
def go (s : ApprovalSession) (w : Workflow) : ApprovalSession :=
  let taken := s.deliveredFor.length - w.approvalQueue.length
  { workflow := w, deliveredFor := s.deliveredFor.drop taken
    used := s.used ++
      (w.pc.resumes.map fun turnId => (s.deliveredFor.take taken).map fun t => (t, turnId)).getD [] }

def deliver (s : ApprovalSession) (batch : List Signal) : ApprovalSession := { s with
    workflow := batch.foldl Workflow.handle s.workflow
    deliveredFor := s.deliveredFor ++ (batch.filter Signal.isDecision).map fun _ => s.workflow.pc.turnId }

def step (input : SessionWorkflowInput) (s : ApprovalSession) (a : Activation × Event) : Option ApprovalSession :=
  match a.2 with
  | .signals batch =>
    match s.workflow.pc with
    | .closed _ => none
    | _ =>
      let s' := s.deliver batch
      some (((s'.workflow.unblock input a.1).map s'.go).getD s')
  | .timeout => (s.workflow.timeout input a.1).map s.go
  | .returned answer => (s.workflow.resume input a.1 answer).map s.go
  | .threw error => (s.workflow.throw input a.1 error).map s.go

end ApprovalSession

/-- An agent turn that comes to `requires_action` finds no decision of another turn at the
head of the queue. -/
def Clean (s : ApprovalSession) (a : Activation × Event) : Prop := match a.2 with
  | .returned (.segment result) =>
    result.status = .requiresAction → result.capacityWait = none →
      ∀ t ∈ s.deliveredFor.head?, t = s.workflow.pc.turnId
  | _ => True

instance (s : ApprovalSession) (a : Activation × Event) : Decidable (Clean s a) :=
  match a with
  | (_, .returned (.segment result)) =>
    inferInstanceAs (Decidable (result.status = .requiresAction → result.capacityWait = none →
      ∀ t ∈ s.deliveredFor.head?, t = s.workflow.pc.turnId))
  | (_, .returned .void) | (_, .returned (.claimed _)) | (_, .returned (.capacityWait _)) |
    (_, .returned (.reconciled _)) | (_, .returned (.goal _)) | (_, .returned (.requeue _)) |
    (_, .signals _) | (_, .timeout) | (_, .threw _) => inferInstanceAs (Decidable True)

/-- **The claim**, in one state: every decision used was delivered for the turn it resumed. -/
def DecisionsOwn (s : ApprovalSession) : Prop := ∀ u ∈ s.used, u.1 = some u.2

/-! ## What the code does with the queue -/

def Await.asks : Await → Bool
  | .approvalCondition _ _ => true
  | _ => false

/-- The queue is left alone, or emptied where the run continues as new; and a decision is
awaited only where there is none. -/
def Keeps (w w' : Workflow) : Prop :=
  (w'.approvalQueue = w.approvalQueue ∨ w'.approvalQueue = [] ∧ w'.pc = .closed .continuedAsNew) ∧
    (w'.pc.asks = true → w'.approvalQueue = [])

def Consumes (w w' : Workflow) (turnId : String) : Prop :=
  (∃ eventId, w.approvalQueue = eventId :: w'.approvalQueue) ∧ w'.pc.resumes = some turnId

variable {input : SessionWorkflowInput} {act : Activation} {w w' : Workflow} {turn : Turn}
  {result : RunAgentTurnResult}

theorem keeps_of_eq (hqueue : w'.approvalQueue = w.approvalQueue) (hpc : w'.pc.asks = false) : Keeps w w' := by
  refine ⟨Or.inl hqueue, ?_⟩
  rw [hpc]
  simp

namespace Workflow

theorem keeps_loopTop : Keeps w (w.loopTop input act) := by
  unfold loopTop
  dsimp only
  split_ifs
  · exact ⟨Or.inr ⟨rfl, rfl⟩, by simp⟩
  · exact keeps_of_eq rfl rfl

theorem keeps_runTurn : Keeps w (w.runTurn turn) := by
  unfold runTurn
  cases w.interruptedEventId with
  | none | some => exact keeps_of_eq rfl rfl

variable {current : CodexCapacityWaitRef} {seenWakeups : ℕ} {error : ActivityFailure}

theorem keeps_waitForCodexCapacity {entry : Option Baseline} :
    Keeps w (w.waitForCodexCapacity input act current entry) := by
  unfold waitForCodexCapacity
  dsimp only
  split_ifs
  · exact keeps_loopTop
  · exact keeps_of_eq rfl rfl
  · exact keeps_of_eq rfl rfl

theorem keeps_afterCapacityCondition {seen : Baseline} :
    Keeps w (w.afterCapacityCondition input act current seen) := by
  unfold afterCapacityCondition
  split_ifs
  · exact keeps_loopTop
  · exact keeps_of_eq rfl rfl

theorem keeps_afterReconcile {result : ReconcileResult} : Keeps w (w.afterReconcile input act result) := by
  unfold afterReconcile
  split
  · dsimp only
    split_ifs
    · exact keeps_of_eq rfl rfl
    · exact keeps_waitForCodexCapacity (w := { w with capacityChecksThisRun := w.capacityChecksThisRun + 1 })
  · exact keeps_loopTop

theorem keeps_afterIdleCondition {woke : Bool} : Keeps w (w.afterIdleCondition input act seenWakeups woke) := by
  unfold afterIdleCondition
  split
  · exact keeps_of_eq rfl rfl
  · split_ifs
    · exact keeps_loopTop
    · exact keeps_of_eq rfl rfl

theorem keeps_idleWait : Keeps w (w.idleWait input act) := by
  unfold idleWait
  split_ifs
  · exact keeps_afterIdleCondition
  · exact keeps_of_eq rfl rfl

theorem keeps_goalCheck : Keeps w (w.goalCheck input act) := by
  unfold goalCheck
  split_ifs
  · exact keeps_of_eq rfl rfl
  · exact keeps_idleWait

theorem keeps_afterGoalCheck {action : GoalAction} : Keeps w (w.afterGoalCheck input act action) := by
  unfold afterGoalCheck
  split_ifs
  · exact keeps_loopTop
  · exact keeps_idleWait

theorem keeps_afterClaim {found : Option Turn} : Keeps w (w.afterClaim input act found) := by
  unfold afterClaim
  split
  · split_ifs
    · exact keeps_of_eq rfl rfl
    · exact keeps_goalCheck
  · exact keeps_runTurn (w := { w with turnsThisRun := w.turnsThisRun + 1 })

theorem keeps_afterFinalClaim {found : Option Turn} : Keeps w (w.afterFinalClaim found seenWakeups) := by
  unfold afterFinalClaim
  split
  · exact keeps_of_eq rfl rfl
  · exact keeps_runTurn (w := { w with turnsThisRun := w.turnsThisRun + 1 })

theorem keeps_afterMarkIdle : Keeps w (w.afterMarkIdle input act seenWakeups) := by
  unfold afterMarkIdle
  split_ifs
  · exact keeps_loopTop
  · exact keeps_of_eq rfl rfl

theorem keeps_afterInterrupt : Keeps w (w.afterInterrupt input act) :=
  keeps_loopTop (w := { w with interruptedEventId := none })

theorem keeps_hold : Keeps w (w.hold input act result) := by
  unfold hold
  split_ifs
  · exact keeps_of_eq rfl rfl
  · exact keeps_loopTop

theorem consumes_afterApprovalCondition : Keeps w (w.afterApprovalCondition input act turn result) ∨
      Consumes w (w.afterApprovalCondition input act turn result) turn.turnId := by
  unfold afterApprovalCondition
  split
  · exact Or.inl (keeps_of_eq rfl rfl)
  · next approvalEventId approvalQueue hslot hqueue =>
      right
      rw [hslot]
      exact ⟨⟨approvalEventId, hqueue⟩, rfl⟩
  · exact Or.inl keeps_hold

theorem consumes_approvalWait : Keeps w (w.approvalWait input act turn result) ∨
      Consumes w (w.approvalWait input act turn result) turn.turnId := by
  unfold approvalWait
  split_ifs with hready
  · exact consumes_afterApprovalCondition
  · rw [not_or, not_not] at hready
    exact Or.inl ⟨Or.inl rfl, fun _ => hready.2⟩

theorem consumes_afterSegment {baseline : Baseline} : Keeps w (w.afterSegment input act turn baseline result) ∨
      (result.status = .requiresAction ∧ result.capacityWait = none) ∧
        Consumes w (w.afterSegment input act turn baseline result) turn.turnId := by
  unfold afterSegment
  by_cases hfailed : result.status = .failed
  · rw [if_pos hfailed]
    exact Or.inl (keeps_of_eq rfl rfl)
  · rw [if_neg hfailed]
    by_cases hover : result.status = .cancelled ∨ result.status = .preempted
    · rw [if_pos hover]
      exact Or.inl keeps_loopTop
    · rw [if_neg hover]
      cases hwait : result.capacityWait with
      | some wait => exact Or.inl keeps_waitForCodexCapacity
      | none =>
        split_ifs with hrequires
        · exact consumes_approvalWait.imp_right fun h => ⟨⟨hrequires, rfl⟩, h⟩
        · exact Or.inl keeps_hold

theorem keeps_afterFailure : Keeps w (w.afterFailure act turn error) := by
  unfold afterFailure
  split_ifs
  · exact keeps_of_eq rfl rfl
  · exact keeps_of_eq rfl rfl

theorem keeps_afterRequeue {result : RequeueResult} : Keeps w (w.afterRequeue input act turn result) := by
  unfold afterRequeue
  split
  · exact keeps_of_eq rfl rfl
  · exact keeps_loopTop

theorem consumes_unblock (h : w.unblock input act = some w') :
    Keeps w w' ∨ ∃ turn result, w.pc = .approvalCondition turn result ∧ Consumes w w' turn.turnId := by
  unfold unblock at h
  split at h
  · split_ifs at h
    cases h
    exact Or.inl keeps_afterCapacityCondition
  · split_ifs at h
    cases h
    exact Or.inl keeps_afterIdleCondition
  · obtain ⟨eventId, hslot, rfl⟩ := Option.map_eq_some_iff.1 h
    exact Or.inl (keeps_of_eq rfl rfl)
  · next turn result hpc =>
      split_ifs at h
      cases h
      exact consumes_afterApprovalCondition.imp_right fun hc => ⟨turn, result, hpc, hc⟩
  · split_ifs at h
    cases h
    exact Or.inl keeps_loopTop
  · simp at h

theorem queue_of_blocked (h : w.unblock input act = none) (hpc : w.pc = .approvalCondition turn result) :
    w.approvalQueue = [] := by
  unfold unblock at h
  rw [hpc] at h
  simp only [ite_eq_right_iff, reduceCtorEq, imp_false, not_or, not_not] at h
  exact h.2

theorem keeps_timeout (h : w.timeout input act = some w') : Keeps w w' := by
  unfold timeout at h
  split at h
  · cases h
    exact keeps_afterCapacityCondition
  · cases h
    exact keeps_afterIdleCondition
  · cases h
    exact keeps_loopTop
  · simp at h

theorem consumes_resume {answer : Answer} (h : w.resume input act answer = some w') :
    Keeps w w' ∨ ∃ turn baseline result, w.pc = .runAgentSegment turn baseline ∧
      answer = .segment result ∧ (result.status = .requiresAction ∧ result.capacityWait = none) ∧
      Consumes w w' turn.turnId := by
  unfold resume at h
  split at h
  all_goals try obtain rfl := Option.some.inj h
  · exact Or.inl keeps_afterClaim
  · exact Or.inl keeps_waitForCodexCapacity
  · exact Or.inl keeps_goalCheck
  · exact Or.inl keeps_afterReconcile
  · exact Or.inl keeps_afterGoalCheck
  · exact Or.inl (keeps_of_eq rfl rfl)
  · exact Or.inl (keeps_of_eq rfl rfl)
  · exact Or.inl keeps_afterFinalClaim
  · exact Or.inl keeps_afterMarkIdle
  · exact Or.inl keeps_afterInterrupt
  · next turn baseline result hpc =>
      exact consumes_afterSegment.imp_right fun hc => ⟨turn, baseline, result, hpc, rfl, hc⟩
  · exact Or.inl keeps_waitForCodexCapacity
  · exact Or.inl keeps_afterFailure
  · exact Or.inl keeps_afterRequeue
  · exact Or.inl (keeps_of_eq rfl rfl)
  · simp at h

theorem keeps_throw (h : w.throw input act error = some w') : Keeps w w' := by
  unfold throw at h
  split at h
  · split_ifs at h
    · cases h
      exact keeps_of_eq rfl rfl
    · cases h
      exact keeps_afterGoalCheck
  · cases h
    unfold afterSegmentFailure
    split_ifs
    · exact keeps_of_eq rfl rfl
    · exact keeps_afterFailure
  · split_ifs at h
    cases h
    exact keeps_of_eq rfl rfl

end Workflow

namespace ApprovalSession

variable {s s' : ApprovalSession} {a : Activation × Event} {as : List (Activation × Event)} {batch : List Signal}

/-- `step`, as a relation. -/
def Steps (input : SessionWorkflowInput) (s : ApprovalSession) (a : Activation × Event)
    (s' : ApprovalSession) : Prop :=
  s.step input a = some s'

/-- The tags go with the queue, a turn that asks finds it empty, and what was used was for
the turn it resumed. -/
structure Tagged (s : ApprovalSession) : Prop where
  length : s.deliveredFor.length = s.workflow.approvalQueue.length
  asks : s.workflow.pc.asks = true → s.workflow.approvalQueue = []
  own : DecisionsOwn s

theorem go_keeps (hlength : s.deliveredFor.length = s.workflow.approvalQueue.length)
    (hown : DecisionsOwn s) (h : Keeps s.workflow w) : (s.go w).Tagged := by
  obtain ⟨hsame | ⟨hempty, hpc⟩, hasks⟩ := h
  · have htaken : s.deliveredFor.length - w.approvalQueue.length = 0 := by
      rw [hlength, hsame, Nat.sub_self]
    refine ⟨?_, hasks, ?_⟩
    · simp [go, hlength, hsame]
    · intro u hu
      apply hown
      cases hres : w.pc.resumes with
      | none => simpa [go, hres] using hu
      | some turnId => simpa [go, htaken, hres] using hu
  · refine ⟨by simp [go, hempty], hasks, ?_⟩
    intro u hu
    apply hown
    simpa [go, hpc, Await.resumes] using hu

theorem go_consumes {turnId : String} (hlength : s.deliveredFor.length = s.workflow.approvalQueue.length)
    (hown : DecisionsOwn s) (h : Consumes s.workflow w turnId)
    (hhead : ∀ t ∈ s.deliveredFor.head?, t = some turnId) : (s.go w).Tagged := by
  obtain ⟨⟨eventId, hqueue⟩, hpc⟩ := h
  rw [hqueue, List.length_cons] at hlength
  obtain ⟨t, rest, hdelivered⟩ := List.exists_cons_of_length_eq_add_one hlength
  have htaken : s.deliveredFor.length - w.approvalQueue.length = 1 := by omega
  have ht : t = some turnId := hhead t (by rw [hdelivered]; rfl)
  refine ⟨?_, ?_, ?_⟩
  · simp [go, hlength]
  · intro hasks
    cases hw : w.pc <;> simp_all [Await.asks, Await.resumes, go]
  · intro u hu
    unfold go at hu
    rw [htaken, hpc, hdelivered] at hu
    rcases List.mem_append.1 hu with hold | hnew
    · exact hown u hold
    · have hu' : u = (t, turnId) := by simpa using hnew
      rw [hu']
      exact ht

theorem deliver_length (batch : List Signal) (hlength : s.deliveredFor.length = s.workflow.approvalQueue.length) :
    (s.deliver batch).deliveredFor.length = (s.deliver batch).workflow.approvalQueue.length := by
  have hfold : ∀ (batch : List Signal) (w : Workflow), (batch.foldl Workflow.handle w).approvalQueue.length
        = w.approvalQueue.length + (batch.filter Signal.isDecision).length := by
    intro batch
    induction batch with
    | nil => exact fun _ => rfl
    | cons signal batch ih =>
      intro w
      rw [List.foldl_cons, ih, List.filter_cons]
      cases signal with
      | approvalDecision eventId =>
        simp only [Workflow.handle, Signal.isDecision, if_true, List.length_append,
          List.length_cons, List.length_nil]
        omega
      | _ => rfl
  unfold deliver
  rw [List.length_append, List.length_map, hfold, hlength]

theorem tagged_start : (start input act).Tagged := by
  obtain ⟨hqueue, hasks⟩ : Keeps _ (Workflow.start input act) := Workflow.keeps_loopTop
  have hempty : (Workflow.start input act).approvalQueue = [] := by
    rcases hqueue with hsame | ⟨hempty, -⟩
    · exact hsame
    · exact hempty
  refine ⟨?_, hasks, ?_⟩
  · show 0 = (Workflow.start input act).approvalQueue.length
    rw [hempty]
    rfl
  · intro u hu
    exact absurd hu List.not_mem_nil

/-- **Every clean step uses a decision for its own turn**, if it uses one. -/
theorem tagged_step (hs : s.Tagged) (h : Restrict (Steps input) Clean s a s') : s'.Tagged := by
  obtain ⟨hstep, hclean⟩ := h
  obtain ⟨act, e⟩ := a
  unfold Steps step at hstep
  cases e with
  | signals batch =>
    dsimp only at hstep
    have hpc : (s.deliver batch).workflow.pc = s.workflow.pc := Execution.deliver_pc (x := ⟨s.workflow, []⟩)
    have hlength := deliver_length batch hs.length
    have hown : DecisionsOwn (s.deliver batch) := hs.own
    split at hstep
    · simp at hstep
    · cases hstep
      cases hunblock : (s.deliver batch).workflow.unblock input act with
      | none =>
        refine ⟨hlength, ?_, hown⟩
        intro hasks
        cases hw : (s.deliver batch).workflow.pc with
        | approvalCondition turn result => exact Workflow.queue_of_blocked hunblock hw
        | _ =>
          have hasks' : (s.deliver batch).workflow.pc.asks = true := hasks
          rw [hw] at hasks'
          simp [Await.asks] at hasks'
      | some w =>
        rcases Workflow.consumes_unblock hunblock with hkeeps | ⟨turn, result, hw, hconsumes⟩
        · exact go_keeps hlength hown hkeeps
        · -- The queue was empty, so what is taken has come in for this turn.
          apply go_consumes hlength hown hconsumes
          rw [hpc] at hw
          have hempty : s.deliveredFor = [] := by
            rw [← List.length_eq_zero_iff, hs.length, hs.asks (by rw [hw]; rfl)]
            rfl
          intro t ht
          have hmem : t ∈ (s.deliver batch).deliveredFor := List.mem_of_mem_head? ht
          unfold deliver at hmem
          rw [hempty, List.nil_append, hw] at hmem
          obtain ⟨_, _, rfl⟩ := List.mem_map.1 hmem
          rfl
  | timeout =>
    obtain ⟨w, hw, rfl⟩ := Option.map_eq_some_iff.1 hstep
    exact go_keeps hs.length hs.own (Workflow.keeps_timeout hw)
  | returned answer =>
    obtain ⟨w, hw, rfl⟩ := Option.map_eq_some_iff.1 hstep
    rcases Workflow.consumes_resume hw with hkeeps | ⟨turn, baseline, result, hpc, rfl, hrequires, hconsumes⟩
    · exact go_keeps hs.length hs.own hkeeps
    · apply go_consumes hs.length hs.own hconsumes
      intro t ht
      rw [hclean hrequires.1 hrequires.2 t ht, hpc]
      rfl
  | threw error =>
    obtain ⟨w, hw, rfl⟩ := Option.map_eq_some_iff.1 hstep
    exact go_keeps hs.length hs.own (Workflow.keeps_throw hw)

def patchedActivation : Activation :=
  { continueAsNewSuggested := false, patched := fun _ => true, now := 0 }

def askingTurn (turnId : String) : List (Activation × Event) :=
  [(patchedActivation, .returned (.claimed (some ⟨turnId, ⟨"message", by decide⟩⟩))),
    (patchedActivation, .returned (.segment ⟨.requiresAction, none, false, none⟩))]

def decision : Activation × Event := (patchedActivation, .signals [.approvalDecision ⟨"decision", by decide⟩])

end ApprovalSession

end OpenGeni.Worker
