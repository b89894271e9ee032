/-
Which changes of the capacity a waiting session hears of.

A waiter hears of a mutation by its wake revision, which the mutation raises while the waiter
is waiting. The revision that an arming starts from counts as observed. But the allocator has
found nothing in an earlier transaction, and a mutation that commits between that one and the
arming raises no revision: the waiter is not there yet, or it does not wait yet. `Undisturbed`
says that there is no such mutation, and with it no waiting session misses one.

All four kinds of transaction lock the rotation row of the workspace first, which the first
acquire has inserted, and so the runs are sequences of whole transactions.
-/
import OpenGeni.Db.CapacityWait
import OpenGeni.Lib.Run

namespace OpenGeni.Db

open OpenGeni.Lib

/-! ## The sessions of a workspace -/

/-- A mutation that has changed the capacity, by the policy it names. -/
abbrev CapacityMutation := Option (Option String)

structure CapacityWorkspace where
  sessions : ℕ → SessionTables
  changes : List CapacityMutation
  /-- The acquires that found nothing: the session, the turn, and how many changes came before. -/
  allocations : List (ℕ × ℕ × ℕ)
  /-- How many changes came before the last evaluation for the present generation. -/
  evaluatedAt : ℕ → ℕ

inductive CapacityOp
  | acquireCodexCredentialLease (sessionId turnId : ℕ) (found : Bool)
  /-- The caller's acquire came after so many changes. -/
  | armCodexCapacityWait (now : ℕ) (input : ArmInput) (allocatedAt : ℕ)
  | withCodexCapacityMutation (reason : String) (policyHash : Option (Option String)) (changed : Bool)
  | reconcileCodexCapacityWait (now : ℕ) (input : ReconcileInput) (decision : CapacityAvailability)
  /-- Any other transaction of a session. None of them makes a waiter wait. -/
  | otherTransaction (sessionId : ℕ) (tables : SessionTables)

/-- The tables may come from the others: what waits has waited before. -/
def SessionTables.NoNewWait (t tables : SessionTables) : Prop :=
  ∀ w ∈ tables.waiter, w.status = .waiting → t.waiter = some w

instance (t : SessionTables) : DecidablePred t.NoNewWait :=
  fun _ => inferInstanceAs (Decidable (∀ _ ∈ _, _ → _))

namespace CapacityWorkspace

def setSession (sessionId : ℕ) (tables : SessionTables) (s : CapacityWorkspace) : CapacityWorkspace :=
  { s with sessions := Function.update s.sessions sessionId tables }

def setEvaluated (sessionId position : ℕ) (s : CapacityWorkspace) : CapacityWorkspace :=
  { s with evaluatedAt := Function.update s.evaluatedAt sessionId position }

def step (s : CapacityWorkspace) : CapacityOp → Option CapacityWorkspace
  | .acquireCodexCredentialLease sessionId turnId found =>
    some { s with
        allocations := if found then s.allocations else (sessionId, turnId, s.changes.length) :: s.allocations }
  | .armCodexCapacityWait now input allocatedAt =>
    let t := s.sessions input.sessionId
    if s.allocations.contains (input.sessionId, input.turnId, allocatedAt) then
      let t' := (armCodexCapacityWait now true input t).1
      -- a new generation rests on the evaluation of its caller
      if t'.waiter = t.waiter then some s
      else some ((s.setSession input.sessionId t').setEvaluated input.sessionId allocatedAt)
    else
      none
  | .withCodexCapacityMutation reason policyHash changed =>
    if changed then
      some { s with
          sessions := fun sessionId =>
            let t := s.sessions sessionId
            { t with waiter := t.waiter.map (·.wake reason policyHash) }
          changes := s.changes ++ [policyHash] }
    else
      some s
  | .reconcileCodexCapacityWait now input decision =>
    let (t, action) := reconcileCodexCapacityWait now true input decision (s.sessions input.sessionId)
    if action = .stale then some s
    else some ((s.setSession input.sessionId t).setEvaluated input.sessionId s.changes.length)
  | .otherTransaction sessionId tables =>
    if (s.sessions sessionId).NoNewWait tables then some (s.setSession sessionId tables) else none

def unseen (s : CapacityWorkspace) (sessionId : ℕ) : List CapacityMutation :=
  s.changes.drop (s.evaluatedAt sessionId)

def Heard (s : CapacityWorkspace) : Prop := ∀ sessionId, ∀ w ∈ (s.sessions sessionId).waiter, w.status = .waiting →
    w.pendingWake = true ∨ ∀ policyHash ∈ s.unseen sessionId, w.matchesPolicy policyHash = false

def NoneWaits (s : CapacityWorkspace) : Prop :=
  ∀ sessionId, ∀ w ∈ (s.sessions sessionId).waiter, w.status ≠ .waiting

/-- The arming follows its acquire with no change between that concerns it. -/
def Undisturbed (s : CapacityWorkspace) : CapacityOp → Prop
  | .armCodexCapacityWait _ input allocatedAt =>
    ∀ turn ∈ (s.sessions input.sessionId).turn? input.turnId, ∀ policyHash ∈ s.changes.drop allocatedAt,
      policyHash.all (· == input.policyHash.or (codexCapacityPolicyHashFromTurnMetadata turn.metadata)) = false
  | _ => True

instance (s : CapacityWorkspace) : DecidablePred s.Undisturbed
  | .armCodexCapacityWait _ _ _ => inferInstanceAs (Decidable (∀ _ ∈ _, ∀ _ ∈ _, _))
  | .acquireCodexCredentialLease _ _ _ => .isTrue trivial
  | .withCodexCapacityMutation _ _ _ => .isTrue trivial
  | .reconcileCodexCapacityWait _ _ _ => .isTrue trivial
  | .otherTransaction _ _ => .isTrue trivial

/-! ## The invariant -/

section

variable {s s' : CapacityWorkspace} {op : CapacityOp} {sessionId : ℕ} {w : CapacityWaiter} {tables : SessionTables}
  {reason : String} {policyHash : Option (Option String)}

/-- A waiting session is heard, and has not observed more than there was. -/
structure Listening (s : CapacityWorkspace) : Prop where
  heard : s.Heard
  observed : ∀ sessionId, ∀ w ∈ (s.sessions sessionId).waiter, w.status = .waiting →
    w.observedWakeRevision ≤ w.wakeRevision

theorem NoneWaits.listening (h : s.NoneWaits) : s.Listening :=
  ⟨fun sessionId w hw hwaiting => absurd hwaiting (h sessionId w hw),
    fun sessionId w hw hwaiting => absurd hwaiting (h sessionId w hw)⟩

theorem Listening.set (h : s.Listening) {position : ℕ} (hwait : ∀ w ∈ tables.waiter, w.status = .waiting →
      w.observedWakeRevision ≤ w.wakeRevision ∧
        ((s.changes.drop position).all fun policyHash => !w.matchesPolicy policyHash) = true) :
    ((s.setSession sessionId tables).setEvaluated sessionId position).Listening := by
  refine ⟨?_, ?_⟩
  · intro other w hw hwaiting
    by_cases hsame : other = sessionId
    · subst hsame
      have hrow : w ∈ tables.waiter := by simpa [setSession, setEvaluated] using hw
      right
      intro policyHash hmem
      have hchange : policyHash ∈ s.changes.drop position := by
        simpa [unseen, setSession, setEvaluated] using hmem
      simpa using List.all_eq_true.1 (hwait w hrow hwaiting).2 policyHash hchange
    · have hrow : w ∈ (s.sessions other).waiter := by simpa [setSession, setEvaluated, hsame] using hw
      have hunseen : ((s.setSession sessionId tables).setEvaluated sessionId position).unseen other =
          s.unseen other := by
        simp [unseen, setSession, setEvaluated, hsame]
      rw [hunseen]
      exact h.heard other w hrow hwaiting
  · intro other w hw hwaiting
    by_cases hsame : other = sessionId
    · subst hsame
      have hrow : w ∈ tables.waiter := by simpa [setSession, setEvaluated] using hw
      exact (hwait w hrow hwaiting).1
    · have hrow : w ∈ (s.sessions other).waiter := by simpa [setSession, setEvaluated, hsame] using hw
      exact h.observed other w hrow hwaiting

theorem Listening.other (h : s.Listening) (hnew : (s.sessions sessionId).NoNewWait tables) :
    (s.setSession sessionId tables).Listening := by
  have hold : ∀ other, ∀ w ∈ ((s.setSession sessionId tables).sessions other).waiter, w.status = .waiting →
      w ∈ (s.sessions other).waiter := by
    intro other w hw hwaiting
    by_cases hsame : other = sessionId
    · subst hsame
      exact hnew w (by simpa [setSession] using hw) hwaiting
    · simpa [setSession, hsame] using hw
  refine ⟨?_, ?_⟩
  · intro other w hw hwaiting
    exact h.heard other w (hold other w hw hwaiting) hwaiting
  · intro other w hw hwaiting
    exact h.observed other w (hold other w hw hwaiting) hwaiting

theorem wake_pending (hwaiting : w.status = .waiting) (hmatch : w.matchesPolicy policyHash = true)
    (hle : w.observedWakeRevision ≤ w.wakeRevision) : (w.wake reason policyHash).pendingWake = true := by
  have hlt : w.observedWakeRevision < w.wakeRevision + 1 := Nat.lt_succ_of_le hle
  simp [CapacityWaiter.wake, CapacityWaiter.pendingWake, hwaiting, hmatch, hlt]

theorem wake_of_not_matches (hmatch : w.matchesPolicy policyHash = false) : w.wake reason policyHash = w := by
  simp [CapacityWaiter.wake, hmatch]

theorem wake_fields (w : CapacityWaiter) (reason : String) (policyHash : Option (Option String)) :
    (w.wake reason policyHash).status = w.status ∧
    (w.wake reason policyHash).policyHash = w.policyHash ∧
    (w.wake reason policyHash).observedWakeRevision = w.observedWakeRevision ∧
    w.wakeRevision ≤ (w.wake reason policyHash).wakeRevision := by
  unfold CapacityWaiter.wake
  split
  · exact ⟨rfl, rfl, rfl, Nat.le_succ _⟩
  · exact ⟨rfl, rfl, rfl, le_refl _⟩

theorem Listening.mutation (h : s.Listening) : Listening { s with
        sessions := fun sessionId =>
          { s.sessions sessionId with waiter := (s.sessions sessionId).waiter.map (·.wake reason policyHash) }
        changes := s.changes ++ [policyHash] } := by
  refine ⟨?_, ?_⟩
  · intro sessionId w' hw' hwaiting'
    obtain ⟨w, hw, rfl⟩ := Option.map_eq_some_iff.1 (Option.mem_def.1 hw')
    obtain ⟨hstatus, hpolicy, hobserved, hle⟩ := wake_fields w reason policyHash
    have hwaiting : w.status = .waiting := hstatus ▸ hwaiting'
    by_cases hmatch : w.matchesPolicy policyHash = true
    · exact .inl (wake_pending hwaiting hmatch (h.observed sessionId w hw hwaiting))
    · -- the change does not concern the waiter, which stays as it is
      have hno : w.matchesPolicy policyHash = false := by simpa using hmatch
      rw [wake_of_not_matches hno]
      rcases h.heard sessionId w hw hwaiting with hpending | hunseen
      · exact .inl hpending
      · right
        intro other hother
        have hsplit : other ∈ s.changes.drop (s.evaluatedAt sessionId) ∨ other = policyHash := by
          have hmem : other ∈ (s.changes ++ [policyHash]).drop (s.evaluatedAt sessionId) := hother
          rw [List.drop_append] at hmem
          rcases List.mem_append.1 hmem with hold | hnew
          · exact .inl hold
          · exact .inr (List.mem_singleton.1 (List.mem_of_mem_drop hnew))
        rcases hsplit with hold | rfl
        · exact hunseen other hold
        · exact hno
  · intro sessionId w' hw' hwaiting'
    obtain ⟨w, hw, rfl⟩ := Option.map_eq_some_iff.1 (Option.mem_def.1 hw')
    obtain ⟨hstatus, -, hobserved, hle⟩ := wake_fields w reason policyHash
    have hold := h.observed sessionId w hw (hstatus ▸ hwaiting')
    omega

theorem Listening.arm (h : s.Listening) {now allocatedAt : ℕ} {input : ArmInput}
    (hok : s.Undisturbed (.armCodexCapacityWait now input allocatedAt))
    (hstep : s.step (.armCodexCapacityWait now input allocatedAt) = some s') : s'.Listening := by
  unfold step at hstep
  dsimp only at hstep
  split at hstep
  case isFalse => cases hstep
  rcases armCodexCapacityWait_cases now true input (s.sessions input.sessionId) with
    hstale | ⟨goal, turn, -, -, -, -, hturn, -, -, harm⟩
  · rw [hstale, if_pos rfl] at hstep
    cases hstep
    exact h
  · have hwaiter := input.arm_waiter now (s.sessions input.sessionId) turn
    rw [harm] at hstep
    split at hstep
    · cases hstep
      exact h
    cases hstep
    apply h.set
    intro w hw _
    obtain rfl : input.waiter now (s.sessions input.sessionId) turn = w := Option.some.inj (hwaiter.symm.trans hw)
    refine ⟨le_refl _, List.all_eq_true.2 ?_⟩
    intro policyHash hmem
    have hfree := hok turn hturn policyHash hmem
    simpa [CapacityWaiter.matchesPolicy, ArmInput.waiter] using hfree

theorem Listening.reconcile (h : s.Listening) {now : ℕ} {input : ReconcileInput} {decision : CapacityAvailability}
    (hstep : s.step (.reconcileCodexCapacityWait now input decision) = some s') : s'.Listening := by
  unfold step at hstep
  dsimp only at hstep
  rcases reconcileCodexCapacityWait_cases now true input decision (s.sessions input.sessionId) with
    hstale | ⟨w, goal, blockedTurn, hrows, hcases⟩
  · rw [hstale, if_pos rfl] at hstep
    cases hstep
    exact h
  rcases hcases with ⟨reason, hrun⟩ | ⟨earliestResetAt, resetKind, hrun⟩ | ⟨-, hrun⟩
  · rw [hrun, if_neg ReconcileAction.noConfusion] at hstep
    cases hstep
    apply h.set
    intro w' hw' hwaiting
    cases Option.mem_def.1 hw'
    cases hwaiting
  · rw [hrun, if_neg ReconcileAction.noConfusion] at hstep
    cases hstep
    apply h.set
    intro w' hw' _
    cases Option.mem_def.1 hw'
    refine ⟨le_refl _, ?_⟩
    rw [List.drop_length]
    rfl
  · rw [hrun, if_neg ReconcileAction.noConfusion] at hstep
    cases hstep
    apply h.set
    intro w' hw' hwaiting
    cases Option.mem_def.1 hw'
    cases hwaiting

/-- **Every transaction keeps the invariant, an arming if no change has come before it.** -/
theorem Listening.step (h : s.Listening) (hstep : s.step op = some s') (hok : s.Undisturbed op) : s'.Listening := by
  cases op with
  | acquireCodexCredentialLease sessionId turnId found =>
    cases hstep
    exact ⟨h.heard, h.observed⟩
  | armCodexCapacityWait now input allocatedAt => exact h.arm hok hstep
  | withCodexCapacityMutation reason policyHash changed =>
    unfold CapacityWorkspace.step at hstep
    dsimp only at hstep
    split at hstep
    · cases hstep
      exact h.mutation
    · cases hstep
      exact h
  | reconcileCodexCapacityWait now input decision => exact h.reconcile hstep
  | otherTransaction sessionId tables =>
    unfold CapacityWorkspace.step at hstep
    dsimp only at hstep
    split at hstep
    case isFalse => cases hstep
    case isTrue hnew =>
      cases hstep
      exact h.other hnew

end

/-- **No wake-up is lost in a run in which no capacity change that concerns a session commits
between its acquire and its arming.** -/
theorem no_wakeup_is_lost {s s' : CapacityWorkspace} {ops : List CapacityOp} (hs : s.NoneWaits)
    (hrun : Run (Restrict (fun s op s' => s.step op = some s') Undisturbed) s ops s') : s'.Heard := by
  have hlistening : s'.Listening := hrun.invariant (fun _ _ _ hstep h => h.step hstep.1 hstep.2) hs.listening
  exact hlistening.heard

/-! ## A change between the acquire and the arming -/

def runningGoalTurn : SessionTables :=
  { session := { id := 1, status := .running, activeTurnId := some 7, lastSequence := 0, passiveMode := false }
    turns :=
      [{ id := 7, triggerEventId := 3, status := .running, source := .goal, position := 1, prompt := ""
         metadata := .none, startedAt := some 0, finishedAt := none, createdAt := 0 }]
    goal := some
      { id := 2, status := .active, text := "", successCriteria := none, version := 1, autoContinuations := 0
        noProgressStreak := 0, maxAutoContinuations := none, lastContinuationTurnId := none
        versionAtLastContinuation := none }
    events := []
    leases := []
    waiter := none }

def oneSession : CapacityWorkspace :=
  { sessions := fun _ => runningGoalTurn, changes := [], allocations := [], evaluatedAt := fun _ => 0 }

def armAfterAcquire : ArmInput :=
  { sessionId := 1, turnId := 7, goalId := 2, goalVersion := 1, controlGeneration := 0, policyHash := none
    earliestResetAt := none, resetKind := .boundedRefresh, failurePayload := .none, leaseFence := none
    expectedRedispatches := none, waiterId := 5, failedEventId := 11, waitingEventId := 12, statusEventId := 13 }

theorem oneSession_noneWaits : oneSession.NoneWaits := by
  intro sessionId w hw
  cases hw

/-- A credential that is connected between the two raises no revision. -/
theorem change_before_arm_is_lost :
    ∃ s, oneSession.NoneWaits ∧
      Run (fun s op s' => CapacityWorkspace.step s op = some s') oneSession
        [.acquireCodexCredentialLease 1 7 false, .withCodexCapacityMutation "credential_connected" none true,
         .armCodexCapacityWait 10 armAfterAcquire 0] s ∧ ¬ s.Heard := by
  have hplay : ∃ s ∈ play CapacityWorkspace.step oneSession
      [.acquireCodexCredentialLease 1 7 false, .withCodexCapacityMutation "credential_connected" none true,
       .armCodexCapacityWait 10 armAfterAcquire 0],
      ∃ w ∈ (s.sessions 1).waiter, w.status = .waiting ∧ w.pendingWake = false ∧
        ∃ policyHash ∈ s.unseen 1, w.matchesPolicy policyHash = true := by decide +kernel
  obtain ⟨s, hs, w, hw, hwaiting, hpending, policyHash, hmem, hmatch⟩ := hplay
  refine ⟨s, oneSession_noneWaits, run_of_play hs, ?_⟩
  intro hheard
  rcases hheard 1 w hw hwaiting with hyes | hno
  · rw [hpending] at hyes
    cases hyes
  · rw [hno policyHash hmem] at hmatch
    cases hmatch

/-- After the arming it does. -/
theorem change_after_arm_is_heard :
    ∃ s : CapacityWorkspace, s.Heard ∧ s.changes = [none] := by
  have hplay : ∃ s ∈ play (guarded CapacityWorkspace.step Undisturbed) oneSession
      [.acquireCodexCredentialLease 1 7 false, .armCodexCapacityWait 10 armAfterAcquire 0,
       .withCodexCapacityMutation "credential_connected" none true], s.changes = [none] := by decide +kernel
  obtain ⟨s, hs, hchanges⟩ := hplay
  exact ⟨s, no_wakeup_is_lost oneSession_noneWaits (guarded_run hs), hchanges⟩

end CapacityWorkspace

end OpenGeni.Db
