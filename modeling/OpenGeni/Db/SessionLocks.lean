/-
The order in which the transactions of a session lock its rows.

Claims, capacity waits and appends lock upwards: rotation row, session, goal, turn, and then
the lease and the waiter. The two settlements lock the turn before its session, and
`clearSessionGoal` locks the goal before its session. Each of them can so come to wait for a
transaction that has the session and waits for that turn or goal.

Nothing else can close a cycle. Who has a lease has all else it needs, and who has a goal, a
turn or a waiter has the session, unless it is one of the three. So it is enough that those
three do not cross another transaction.
-/
import OpenGeni.Lib.RowLocks

namespace OpenGeni.Db

open OpenGeni.Lib

/-! ## Rows and programs -/

/-- A row that is locked. Goals, turns and waiters are rows of a session, and a lease is that of
a turn. -/
inductive LockedRow
  | rotation (workspaceId : ℕ)
  | session (sessionId : ℕ)
  | goal (sessionId goalId : ℕ)
  | turn (sessionId turnId : ℕ)
  | lease (sessionId turnId : ℕ)
  | waiter (sessionId : ℕ)
deriving DecidableEq

/-- The rows that a call's statements find. Rows of a session refer to it. -/
structure RowLookup where
  found : LockedRow → Bool
  session_of_goal : ∀ sessionId goalId, found (.goal sessionId goalId) = true → found (.session sessionId) = true
  session_of_turn : ∀ sessionId turnId, found (.turn sessionId turnId) = true → found (.session sessionId) = true
  session_of_waiter : ∀ sessionId, found (.waiter sessionId) = true → found (.session sessionId) = true

inductive SessionTxn
  | claimNextQueuedTurn (sessionId : ℕ) (queued : List ℕ)
  /-- The turn is given by its id, and may be of another session. -/
  | armCodexCapacityWait (workspaceId sessionId goalId turnSessionId turnId : ℕ) (leaseFence : Bool)
  /-- With the goal and the turn of the waiter that is read before the locks. -/
  | reconcileCodexCapacityWait (workspaceId sessionId goalId blockedTurnId : ℕ)
  | validateCodexCapacityResumeTurn (sessionId goalId turnId : ℕ)
  | settleCodexCredentialFailover (sessionId turnId : ℕ)
  | settleCodexCredentialLeaseLoss (sessionId turnId : ℕ)
  | clearSessionGoal (sessionId goalId : ℕ)
  | appendSessionEvents (sessionId : ℕ)

structure SessionCall where
  txn : SessionTxn
  lookup : RowLookup

def settleRows (sessionId turnId : ℕ) : List LockedRow :=
  [.turn sessionId turnId, .session sessionId, .lease sessionId turnId]

/-- The rows that are selected for update or deleted, in the order of the statements. Updates
change rows that have been selected. -/
def SessionTxn.rows : SessionTxn → List LockedRow
  | .claimNextQueuedTurn sessionId _ => [.session sessionId]
  | .armCodexCapacityWait workspaceId sessionId goalId turnSessionId turnId leaseFence =>
    [.rotation workspaceId, .session sessionId, .goal sessionId goalId] ++
      (if turnSessionId = sessionId then [.turn sessionId turnId] else []) ++
      -- without a fence the lease is locked by the delete at the end
      if leaseFence then [.lease turnSessionId turnId, .waiter sessionId]
      else [.waiter sessionId, .lease turnSessionId turnId]
  | .reconcileCodexCapacityWait workspaceId sessionId goalId blockedTurnId =>
    [.rotation workspaceId, .session sessionId, .goal sessionId goalId, .turn sessionId blockedTurnId,
     .waiter sessionId]
  | .validateCodexCapacityResumeTurn sessionId goalId turnId =>
    [.session sessionId, .goal sessionId goalId, .turn sessionId turnId, .waiter sessionId]
  | .settleCodexCredentialFailover sessionId turnId => settleRows sessionId turnId
  | .settleCodexCredentialLeaseLoss sessionId turnId => settleRows sessionId turnId
  -- the delete of the goal deletes the waiter that refers to it
  | .clearSessionGoal sessionId goalId => [.goal sessionId goalId, .waiter sessionId, .session sessionId]
  | .appendSessionEvents sessionId => [.session sessionId]

def SessionTxn.required : SessionTxn → Option LockedRow
  | .claimNextQueuedTurn sessionId _ => some (.session sessionId)
  | .armCodexCapacityWait workspaceId _ _ _ _ _ => some (.rotation workspaceId)
  | .reconcileCodexCapacityWait workspaceId _ _ _ => some (.rotation workspaceId)
  | .validateCodexCapacityResumeTurn _ _ _ => none
  | .settleCodexCredentialFailover sessionId turnId => some (.turn sessionId turnId)
  | .settleCodexCredentialLeaseLoss sessionId turnId => some (.turn sessionId turnId)
  | .clearSessionGoal sessionId goalId => some (.goal sessionId goalId)
  | .appendSessionEvents sessionId => some (.session sessionId)

/-- The queued turns, of which a claim takes the first that is not locked. -/
def SessionTxn.skips : SessionTxn → List (LockRequest LockedRow)
  | .claimNextQueuedTurn sessionId queued => [.skipLocked (queued.map (.turn sessionId))]
  | _ => []

def SessionCall.requests (c : SessionCall) : List (LockRequest LockedRow) :=
  if c.txn.required.all c.lookup.found then
    (c.txn.rows.filter c.lookup.found).map .lock ++ c.txn.skips
  else
    []

/-- The transaction locks a row of its session before the session. -/
def SessionTxn.Backward : SessionTxn → Prop
  | .settleCodexCredentialFailover _ _ => True
  | .settleCodexCredentialLeaseLoss _ _ => True
  | .clearSessionGoal _ _ => True
  | _ => False

instance : DecidablePred SessionTxn.Backward
  | .claimNextQueuedTurn _ _ => .isFalse id
  | .armCodexCapacityWait _ _ _ _ _ _ => .isFalse id
  | .reconcileCodexCapacityWait _ _ _ _ => .isFalse id
  | .validateCodexCapacityResumeTurn _ _ _ => .isFalse id
  | .settleCodexCredentialFailover _ _ => .isTrue trivial
  | .settleCodexCredentialLeaseLoss _ _ => .isTrue trivial
  | .clearSessionGoal _ _ => .isTrue trivial
  | .appendSessionEvents _ => .isFalse id

def SessionCall.Backward (c : SessionCall) : Prop := c.txn.Backward

instance : DecidablePred SessionCall.Backward := fun c => inferInstanceAs (Decidable c.txn.Backward)

/-! ## Stages -/

def LockedRow.rank : LockedRow → ℕ
  | .rotation _ => 0
  | .session _ => 1
  | .goal _ _ => 2
  | .turn _ _ => 3
  | .waiter _ => 4
  | .lease _ _ => 5

def SessionTxn.stage : SessionTxn → LockedRow → ℕ
  | .armCodexCapacityWait _ _ _ _ _ true, .waiter _ => 6
  | .settleCodexCredentialFailover _ _, .session _ => 4
  | .settleCodexCredentialLeaseLoss _ _, .session _ => 4
  | .clearSessionGoal _ _, .session _ => 5
  | _, row => row.rank

theorem SessionTxn.rows_rise (txn : SessionTxn) :
    txn.rows.Pairwise fun row row' => txn.stage row < txn.stage row' := by
  cases txn with
  | armCodexCapacityWait workspaceId sessionId goalId turnSessionId turnId leaseFence =>
    unfold SessionTxn.rows
    by_cases hsame : turnSessionId = sessionId
    · cases leaseFence <;> simp [hsame, stage, LockedRow.rank]
    · cases leaseFence <;> simp [hsame, stage, LockedRow.rank]
  | _ => simp [rows, settleRows, stage, LockedRow.rank]

theorem SessionCall.requests_inStages (c : SessionCall) : InStages c.txn.stage c.requests := by
  unfold requests
  split
  case isFalse => exact List.Pairwise.nil
  have hrows := inStages_map (c.txn.rows_rise.filter c.lookup.found)
  cases htxn : c.txn with
  | claimNextQueuedTurn sessionId queued =>
    rw [htxn] at hrows
    unfold InStages SessionTxn.skips
    rw [List.pairwise_append]
    refine ⟨hrows, List.pairwise_singleton _ _, ?_⟩
    intro q hq q' hq' row hrow row' hrow'
    -- the session comes before its turns
    obtain ⟨r, hr, rfl⟩ := List.mem_map.1 hq
    obtain rfl := List.mem_singleton.1 hrow
    obtain rfl := List.mem_singleton.1 hq'
    obtain ⟨turnId, -, rfl⟩ := List.mem_map.1 hrow'
    obtain rfl := List.mem_singleton.1 (List.mem_of_mem_filter hr)
    simp [SessionTxn.stage, LockedRow.rank]
  | _ =>
    rw [htxn] at hrows
    simpa [SessionTxn.skips] using hrows

/-! ## Who has what -/

def LockedRow.sessionId? : LockedRow → Option ℕ
  | .goal sessionId _ => some sessionId
  | .turn sessionId _ => some sessionId
  | .waiter sessionId => some sessionId
  | _ => none

section

variable {c : SessionCall} {q : LockRequest LockedRow} {row row' : LockedRow} {sessionId turnId : ℕ}

theorem RowLookup.session_of (lookup : RowLookup) (hrow : row.sessionId? = some sessionId)
    (hfound : lookup.found row = true) : lookup.found (.session sessionId) = true := by
  cases row with
  | goal s g =>
    cases hrow
    exact lookup.session_of_goal _ _ hfound
  | turn s t =>
    cases hrow
    exact lookup.session_of_turn _ _ hfound
  | waiter s =>
    cases hrow
    exact lookup.session_of_waiter _ hfound
  | _ => cases hrow

theorem lock_mem_requests : .lock row ∈ c.requests ↔
      c.txn.required.all c.lookup.found = true ∧ row ∈ c.txn.rows ∧ c.lookup.found row = true := by
  have hskips : LockRequest.lock row ∉ c.txn.skips := by
    unfold SessionTxn.skips
    split <;> simp
  unfold SessionCall.requests
  split
  case isFalse hnone => simp [hnone]
  case isTrue hall => simp [hall, hskips]

theorem mem_requests (hq : q ∈ c.requests) (hrow : row ∈ q.rows) :
    .lock row ∈ c.requests ∨ ∃ sessionId queued turnId,
      c.txn = .claimNextQueuedTurn sessionId queued ∧ row = .turn sessionId turnId ∧
        .lock (.session sessionId) ∈ c.requests := by
  have hmem := hq
  unfold SessionCall.requests at hq
  split at hq
  case isFalse => exact absurd hq List.not_mem_nil
  case isTrue hall =>
    rcases List.mem_append.1 hq with hrows | hskips
    · obtain ⟨r, -, rfl⟩ := List.mem_map.1 hrows
      rw [List.mem_singleton.1 hrow]
      exact .inl hmem
    · cases htxn : c.txn with
      | claimNextQueuedTurn sessionId queued =>
        rw [htxn] at hskips hall
        obtain rfl := List.mem_singleton.1 hskips
        obtain ⟨turnId, -, rfl⟩ := List.mem_map.1 hrow
        refine .inr ⟨sessionId, queued, turnId, rfl, rfl, lock_mem_requests.2 ?_⟩
        rw [htxn]
        exact ⟨hall, List.mem_singleton.2 rfl, by simpa [SessionTxn.required] using hall⟩
      | _ =>
        rw [htxn] at hskips
        exact absurd hskips List.not_mem_nil

theorem SessionTxn.session_mem (txn : SessionTxn) (hmem : row ∈ txn.rows)
    (hsession : row.sessionId? = some sessionId) : .session sessionId ∈ txn.rows := by
  cases txn with
  | armCodexCapacityWait workspaceId s goalId turnSessionId t leaseFence =>
    -- with or without the fence, the rows of the session are its goal, turn and waiter
    cases leaseFence <;> cases row <;> simp_all [rows, LockedRow.sessionId?]
  | _ => cases row <;> simp_all [rows, settleRows, LockedRow.sessionId?]

theorem SessionTxn.session_lt (txn : SessionTxn) (hmem : row ∈ txn.rows)
    (hsession : row.sessionId? = some sessionId) (hforward : ¬ txn.Backward) :
    txn.stage (.session sessionId) < txn.stage row := by
  cases txn with
  | armCodexCapacityWait workspaceId s goalId turnSessionId t leaseFence =>
    cases leaseFence <;> cases row <;>
      simp_all [LockedRow.sessionId?, stage, LockedRow.rank]
  | _ =>
    cases row <;>
      simp_all [LockedRow.sessionId?, stage, LockedRow.rank, Backward]

theorem session_locked (hq : q ∈ c.requests) (hrow : row ∈ q.rows) (hsession : row.sessionId? = some sessionId) :
    .lock (.session sessionId) ∈ c.requests := by
  rcases mem_requests hq hrow with hlock | ⟨s, queued, t, htxn, rfl, hlock⟩
  · obtain ⟨hall, hmem, hfound⟩ := lock_mem_requests.1 hlock
    exact lock_mem_requests.2 ⟨hall, c.txn.session_mem hmem hsession, c.lookup.session_of hsession hfound⟩
  · cases hsession
    exact hlock

theorem session_before (hq : q ∈ c.requests) (hrow : row ∈ q.rows) (hsession : row.sessionId? = some sessionId)
    (hforward : ¬ c.Backward) : c.txn.stage (.session sessionId) < c.txn.stage row := by
  rcases mem_requests hq hrow with hlock | ⟨s, queued, t, htxn, rfl, hlock⟩
  · exact c.txn.session_lt (lock_mem_requests.1 hlock).2.1 hsession hforward
  · cases hsession
    rw [htxn]
    simp [SessionTxn.stage, LockedRow.rank]

theorem SessionTxn.after_lease (txn : SessionTxn) (hlease : .lease sessionId turnId ∈ txn.rows) (hmem : row ∈ txn.rows)
    (hlt : txn.stage (.lease sessionId turnId) < txn.stage row) : ¬ txn.Backward ∧ ∃ s, row = .waiter s := by
  cases txn with
  | armCodexCapacityWait workspaceId s goalId turnSessionId t leaseFence =>
    cases leaseFence <;> cases row <;> simp_all [stage, LockedRow.rank, Backward]
  | _ => cases row <;> simp_all [stage, LockedRow.rank]

theorem SessionTxn.descent (txn : SessionTxn) (hmem : row ∈ txn.rows) (hmem' : row' ∈ txn.rows)
    (hlt : txn.stage row' < txn.stage row) (hle : row.rank ≤ row'.rank) :
    (¬ txn.Backward ∧ ∃ s, row = .waiter s) ∨ ∃ s, row = .session s := by
  cases txn with
  | armCodexCapacityWait workspaceId s goalId turnSessionId t leaseFence =>
    cases leaseFence <;> cases row <;> cases row' <;> simp_all [stage, LockedRow.rank, Backward]
  | _ => cases row <;> cases row' <;> simp_all [stage, LockedRow.rank]

theorem SessionTxn.after_session (txn : SessionTxn) (hsession : .session sessionId ∈ txn.rows)
    (hmem : row ∈ txn.rows) (hlt : txn.stage (.session sessionId) < txn.stage row) :
    row.sessionId? = some sessionId ∨ ∃ s t, row = .lease s t := by
  cases txn with
  | armCodexCapacityWait workspaceId s goalId turnSessionId t leaseFence =>
    cases leaseFence <;> cases row <;> simp_all [rows, LockedRow.sessionId?, stage, LockedRow.rank]
  | _ => cases row <;> simp_all [rows, LockedRow.sessionId?, stage, LockedRow.rank]

end

/-! ## Waiting -/

section

variable {s : Transactions.State Unit (LockTxn SessionCall LockedRow)} {x : LockTxn SessionCall LockedRow}
  {row : LockedRow} {i j sessionId turnId : ℕ}

abbrev LocksSafe (s : Transactions.State Unit (LockTxn SessionCall LockedRow)) : Prop :=
  Transactions.Safe (fun _ => True) (fun _ x => x.Follows SessionCall.requests)
    (LockTxn.Apart SessionCall.Backward) s

theorem LocksSafe.follows (h : LocksSafe s) (hx : s.opened.get i = some x) : x.Follows SessionCall.requests :=
  h.inv _ (Slots.mem_of_get hx)

theorem holds_session (h : x.Follows SessionCall.requests) (hheld : row ∈ x.held)
    (hsession : row.sessionId? = some sessionId) :
    .session sessionId ∈ x.held ∨ x.call.Backward ∧ .lock (.session sessionId) ∈ x.todo := by
  obtain ⟨q, hq, hrow⟩ := h.held_mem hheld
  have hlock := session_locked hq hrow hsession
  by_cases hback : x.call.Backward
  · exact (h.held_or_todo hlock).imp id fun htodo => ⟨hback, htodo⟩
  · have hlt := session_before hq hrow hsession hback
    exact .inl (h.held_below x.call.requests_inStages hheld hlock hlt)

theorem LocksSafe.session_row_free (h : LocksSafe s) (hwaits : Waits s i j) (hx : s.opened.get i = some x)
    (hwants : x.wants = some row) (hsession : row.sessionId? = some sessionId)
    (hhas : .session sessionId ∈ x.held) : False := by
  obtain ⟨hne, x', hx', y, hy, row', hrow, hheld⟩ := hwaits
  cases hx.symm.trans hx'
  cases hwants ▸ hrow
  have hapart := h.apart _ (Slots.mem_of_get hx) _ (Slots.mem_of_get hy) hne
  rcases holds_session (h.follows hy) hheld hsession with hboth | ⟨hback, htodo⟩
  · exact hapart.1 _ hhas hboth
  · -- the other has the row, and its session is still to come
    exact hapart.2 (.inr hback) ⟨⟨_, hhas, htodo⟩, row, hheld, ((h.follows hx).wants_mem hwants).1⟩

theorem LocksSafe.waiter_free (h : LocksSafe s) (hwaits : Waits s i j) (hx : s.opened.get i = some x)
    (hwants : x.wants = some (.waiter sessionId)) (hforward : ¬ x.call.Backward) : False := by
  have hfollows := h.follows hx
  have hmem := (hfollows.wants_mem hwants).2
  have hlock : .lock (.session sessionId) ∈ x.call.requests := session_locked hmem (List.mem_singleton.2 rfl) rfl
  have hlt := session_before hmem (List.mem_singleton.2 rfl) rfl hforward
  have hhas := hfollows.below_wanted x.call.requests_inStages hwants hlock hlt
  exact h.session_row_free hwaits hx hwants rfl hhas

theorem LocksSafe.lease_holder_runs (h : LocksSafe s) (hx : s.opened.get i = some x)
    (hheld : .lease sessionId turnId ∈ x.held) : ¬ Waits s i j := by
  intro hwaits
  obtain ⟨-, x', hx', y, -, row, hrow, -⟩ := id hwaits
  cases hx.symm.trans hx'
  have hfollows := h.follows hx
  obtain ⟨htodo, hlock⟩ := hfollows.wants_mem hrow
  have hlt := hfollows.held_lt x.call.requests_inStages hheld htodo
  obtain ⟨q, hq, hmem⟩ := hfollows.held_mem hheld
  rcases mem_requests hq hmem with hlease | ⟨_, _, _, _, hturn, _⟩
  · obtain ⟨hforward, w, rfl⟩ :=
      x.call.txn.after_lease (lock_mem_requests.1 hlease).2.1 (lock_mem_requests.1 hlock).2.1 hlt
    exact h.waiter_free hwaits hx hrow hforward
  · cases hturn

theorem LocksSafe.session_on_cycle (h : LocksSafe s) (hdead : Deadlocked s) :
    ∃ j k, WaitsOnCycle s j k ∧ ∃ y ∈ s.opened.get j, ∃ sessionId, .session sessionId ∈ y.held := by
  obtain ⟨i, j, hij, x, hx, row, hrow, row', hrow', hle⟩ := hdead.descends LockedRow.rank
  obtain ⟨k, hjk⟩ := hij.next
  obtain ⟨-, x', hx', y, hy, r, hr, hheld⟩ := id hij.1
  cases Option.mem_def.1 hx ▸ hx'
  cases Option.mem_def.1 hrow ▸ hr
  have hfollows := h.follows hx
  obtain ⟨htodo, hlock⟩ := hfollows.wants_mem hrow
  have hlt := hfollows.held_lt x.call.requests_inStages hrow' htodo
  obtain ⟨q, hq, hmem⟩ := hfollows.held_mem hrow'
  rcases mem_requests hq hmem with hlock' | ⟨s', queued, t, htxn, rfl, -⟩
  · rcases x.call.txn.descent (lock_mem_requests.1 hlock).2.1 (lock_mem_requests.1 hlock').2.1 hlt hle with
      ⟨hforward, w, rfl⟩ | ⟨w, rfl⟩
    · exact absurd (h.waiter_free hij.1 hx hrow hforward) not_false
    · exact ⟨j, k, hjk, y, hy, w, hheld⟩
  · -- a claim wants its session only, before it holds anything
    have hmemRow := (lock_mem_requests.1 hlock).2.1
    rw [htxn] at hlt hmemRow
    obtain rfl := List.mem_singleton.1 hmemRow
    simp [SessionTxn.stage, LockedRow.rank] at hlt

/-- **Without a crossing there is no deadlock.** On a cycle somebody has a session and waits: for
a row of the session, whose holder would cross, or for a lease, whose holder does not wait. -/
theorem LocksSafe.not_deadlocked (h : LocksSafe s) : ¬ Deadlocked s := by
  intro hdead
  obtain ⟨j, k, hjk, y, hy, sessionId, hsession⟩ := h.session_on_cycle hdead
  obtain ⟨l, hkl⟩ := hjk.next
  obtain ⟨-, y', hy', z, hz, row, hwants, hheld⟩ := id hjk.1
  cases Option.mem_def.1 hy ▸ hy'
  have hfollows := h.follows hy
  obtain ⟨htodo, hlock⟩ := hfollows.wants_mem hwants
  have hlt := hfollows.held_lt y.call.requests_inStages hsession htodo
  have hsessionRow : .session sessionId ∈ y.call.txn.rows := by
    obtain ⟨q, hq, hmem⟩ := hfollows.held_mem hsession
    rcases mem_requests hq hmem with hlocked | ⟨_, _, _, _, hturn, _⟩
    · exact (lock_mem_requests.1 hlocked).2.1
    · cases hturn
  rcases y.call.txn.after_session hsessionRow (lock_mem_requests.1 hlock).2.1 hlt with hhangs | ⟨w, t, rfl⟩
  · exact h.session_row_free hjk.1 hy hwants hhangs hsession
  · exact h.lease_holder_runs hz hheld hkl.1

end

/-! ## Runs -/

def sessionLocks : Transactions SessionCall Unit (LockTxn SessionCall LockedRow) := rowLocks SessionCall.requests

/-- **In every run in which no settlement and no `clearSessionGoal` crosses another transaction,
no cycle of transactions ever wait for one another.** -/
theorem sessions_do_not_deadlock {s : Transactions.State Unit (LockTxn SessionCall LockedRow)}
    {es : List (Transactions.Event SessionCall)}
    (hrun : Run (Restrict sessionLocks.Steps (Uncrossed SessionCall.Backward)) (.idle ()) es s) :
    ¬ Deadlocked s := by
  have hsafe : LocksSafe s := (rowLocks_sound SessionCall.Backward).run hrun (.idle trivial)
  exact hsafe.not_deadlocked

/-! ## A settlement and an arming of one turn -/

def allFound : RowLookup := ⟨fun _ => true, fun _ _ _ => rfl, fun _ _ _ => rfl, fun _ _ => rfl⟩

def armOfTurn : SessionCall := ⟨.armCodexCapacityWait 1 2 3 2 4 true, allFound⟩

def settlementOfTurn : SessionCall := ⟨.settleCodexCredentialLeaseLoss 2 4, allFound⟩

/-- The settlement locks the turn while the arming locks its rows up to the goal. -/
def settlementAgainstArm : List (Transactions.Event SessionCall) :=
  [.start 0 armOfTurn, .start 1 settlementOfTurn, .exec 1, .exec 0, .exec 0, .exec 0]

theorem settlement_and_arm_deadlock :
    ∃ s, Run sessionLocks.Steps (.idle ()) settlementAgainstArm s ∧ Deadlocked s := by
  have hplay : ∃ s ∈ play sessionLocks.step (.idle ()) settlementAgainstArm,
      (∃ x ∈ s.opened.get 0, ∃ y ∈ s.opened.get 1, ∃ row ∈ x.wants, row ∈ y.held) ∧
        ∃ x ∈ s.opened.get 1, ∃ y ∈ s.opened.get 0, ∃ row ∈ x.wants, row ∈ y.held := by decide +kernel
  obtain ⟨s, hs, harm, hsettle⟩ := hplay
  refine ⟨s, run_of_play hs, 0, ?_⟩
  exact .tail (.single ⟨by decide, harm⟩) ⟨by decide, hsettle⟩

/-- The settlement may also lock the turn first and go through. -/
theorem settlement_before_arm_goes_through : ∃ s : Transactions.State Unit (LockTxn SessionCall LockedRow),
      s.opened.map Prod.fst = [0] ∧ ¬ Deadlocked s := by
  have hplay : ∃ s ∈ play (guarded sessionLocks.step (Uncrossed SessionCall.Backward)) (.idle ())
      [.start 0 armOfTurn, .start 1 settlementOfTurn, .exec 1, .exec 1, .exec 0, .exec 1, .commit 1, .exec 0],
      s.opened.map Prod.fst = [0] := by decide +kernel
  obtain ⟨s, hs, hopen⟩ := hplay
  exact ⟨s, hopen, sessions_do_not_deadlock (guarded_run hs)⟩

end OpenGeni.Db
