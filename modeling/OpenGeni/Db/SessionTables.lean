/-
The rows of a session and the queue of its turns.

A turn is a row of `session_turns`. Its place in the queue is its `position`, and a claim
takes the first queued row by position, creation and id. Every function of this file is one
transaction, for one session: those that move a turn hold the session's row, or insert a row
that refers to it, and so they follow one another. `now` is the transaction's `now()`, in
milliseconds. Of the JSON columns the keys that are read are fields; new ids are inputs.
-/
import Mathlib

namespace OpenGeni.Db

/-! ## The rows -/

inductive SessionStatus
  | queued | running | idle | requiresAction | failed | cancelled
deriving DecidableEq

inductive SessionTurnStatus
  | queued | running | requiresAction | completed | failed | cancelled
deriving DecidableEq

inductive SessionTurnSource
  | user | scheduledTask | api | goal
deriving DecidableEq

structure TurnMetadata where
  workerDeathRedispatches : Option ℕ
  codexCredentialFailovers : Option ℕ
  codexCredentialPolicyHash : Option String
  sessionControlGeneration : Option ℕ
  /-- The key `childCompletion` exists. -/
  childCompletion : Bool
  childSummaries : Option (List String)
  /-- The waiter that the turn continues, with its generation. -/
  codexCapacityWaiter : Option (ℕ × ℕ)
deriving DecidableEq

def TurnMetadata.none : TurnMetadata :=
  { workerDeathRedispatches := .none, codexCredentialFailovers := .none, codexCredentialPolicyHash := .none
    sessionControlGeneration := .none, childCompletion := false, childSummaries := .none
    codexCapacityWaiter := .none }

/-- A row of `session_turns`. -/
structure TurnRow where
  id : ℕ
  triggerEventId : ℕ
  status : SessionTurnStatus
  source : SessionTurnSource
  position : ℕ
  prompt : String
  metadata : TurnMetadata
  startedAt : Option ℕ
  finishedAt : Option ℕ
  createdAt : ℕ
deriving DecidableEq

/-- A row of `sessions`. -/
structure SessionRow where
  id : ℕ
  status : SessionStatus
  activeTurnId : Option ℕ
  lastSequence : ℕ
  /-- `metadata.childNotificationsMode` is `passive`. -/
  passiveMode : Bool
deriving DecidableEq

inductive SessionEventType
  | userMessage | statusChanged | turnQueued | turnStarted | turnPreempted | turnFailed | turnCancelled
  | toolCallCreated | goalContinuation | goalCleared | capacityWaiting | capacitySuperseded | capacityResumed
deriving DecidableEq

structure EventPayload where
  text : Option String
  rotated : Bool
  recovery : Option String
deriving DecidableEq

def EventPayload.none : EventPayload :=
  { text := .none, rotated := false, recovery := .none }

/-- A row of `session_events`. -/
structure EventRow where
  id : ℕ
  sequence : ℕ
  type : SessionEventType
  payload : EventPayload
  clientEventId : Option String
  turnId : Option ℕ
deriving DecidableEq

inductive SessionGoalStatus
  | active | paused | completed
deriving DecidableEq

/-- A row of `session_goals`. -/
structure GoalRow where
  id : ℕ
  status : SessionGoalStatus
  text : String
  successCriteria : Option String
  version : ℕ
  autoContinuations : ℕ
  noProgressStreak : ℕ
  maxAutoContinuations : Option ℕ
  lastContinuationTurnId : Option ℕ
  versionAtLastContinuation : Option ℕ
deriving DecidableEq

/-- A row of `codex_credential_leases`. -/
structure CredentialLease where
  turnId : ℕ
  holderId : String
  generation : ℕ
  leasedUntil : ℕ
deriving DecidableEq

inductive CapacityWaitStatus
  | waiting | resumed | superseded
deriving DecidableEq

inductive CapacityResetKind
  | authoritative | boundedRefresh
deriving DecidableEq

/-- A row of `codex_capacity_waiters`. There is one for a session at most. -/
structure CapacityWaiter where
  id : ℕ
  goalId : ℕ
  blockedTurnId : ℕ
  generation : ℕ
  status : CapacityWaitStatus
  goalVersion : ℕ
  controlGeneration : ℕ
  policyHash : Option String
  earliestResetAt : Option ℕ
  nextCheckAt : ℕ
  resetKind : CapacityResetKind
  refreshAttempt : ℕ
  wakeRevision : ℕ
  observedWakeRevision : ℕ
  lastWakeReason : String
  resumedTurnId : Option ℕ
deriving DecidableEq

structure SessionTables where
  session : SessionRow
  turns : List TurnRow
  goal : Option GoalRow
  events : List EventRow
  leases : List CredentialLease
  waiter : Option CapacityWaiter
deriving DecidableEq

/-! ## Rows by id -/

namespace SessionTables

def turn? (turnId : ℕ) (t : SessionTables) : Option TurnRow := t.turns.find? (·.id == turnId)

/-- `update session_turns set .. where ..`. -/
def updateTurns (p : TurnRow → Bool) (f : TurnRow → TurnRow) (t : SessionTables) : SessionTables :=
  { t with turns := t.turns.map fun turn => if p turn then f turn else turn }

/-- `update session_turns set .. where id = ..`. -/
def updateTurn (turnId : ℕ) (f : TurnRow → TurnRow) (t : SessionTables) : SessionTables :=
  t.updateTurns (·.id == turnId) f

end SessionTables

variable {t t' : SessionTables}

theorem mem_of_turn? {turnId : ℕ} {turn : TurnRow} (h : t.turn? turnId = some turn) : turn ∈ t.turns ∧ turn.id = turnId :=
  ⟨List.mem_of_find?_eq_some h, by simpa using List.find?_some h⟩

/-! ## Enqueueing -/

structure EnqueueSessionTurnInput where
  id : ℕ
  triggerEventId : ℕ
  source : SessionTurnSource
  prompt : String
  metadata : TurnMetadata
  preemptChildNotifications : Bool

def maxPosition (turns : List TurnRow) : ℕ := (turns.map (·.position)).foldr max 0

def nextTurnPosition (turns : List TurnRow) : ℕ := maxPosition turns + 1

def TurnRow.notifies (turn : TurnRow) : Bool := turn.status == .queued && turn.metadata.childCompletion

/-- `min(position)` of those. -/
def minNotification (turns : List TurnRow) : Option ℕ := ((turns.filter (·.notifies)).map (·.position)).min?

def TurnRow.movedBack (minPos : ℕ) (turn : TurnRow) : TurnRow :=
  if turn.status == .queued && minPos ≤ turn.position then { turn with position := turn.position + 1 } else turn

/-- A human message takes the slot of the first notification, which moves back with all
behind it. -/
def positionForEnqueue (preemptChildNotifications : Bool) (turns : List TurnRow) : ℕ × List TurnRow :=
  if preemptChildNotifications then
    match minNotification turns with
    | none => (nextTurnPosition turns, turns)
    | some minPos => (minPos, turns.map (·.movedBack minPos))
  else
    (nextTurnPosition turns, turns)

def EnqueueSessionTurnInput.row (now position : ℕ) (input : EnqueueSessionTurnInput) : TurnRow :=
  { id := input.id, triggerEventId := input.triggerEventId, status := .queued, source := input.source, position
    prompt := input.prompt, metadata := input.metadata, startedAt := none, finishedAt := none, createdAt := now }

def enqueueSessionTurn (now : ℕ) (input : EnqueueSessionTurnInput) (t : SessionTables) : SessionTables :=
  let (position, turns) := positionForEnqueue input.preemptChildNotifications t.turns
  { t with turns := turns ++ [input.row now position] }

section

variable {turns : List TurnRow} {turn : TurnRow}

theorem position_le_maxPosition (h : turn ∈ turns) : turn.position ≤ maxPosition turns := by
  unfold maxPosition
  induction turns with
  | nil => exact absurd h List.not_mem_nil
  | cons first rest ih =>
    rw [List.map_cons, List.foldr_cons]
    rcases List.mem_cons.1 h with rfl | hrest
    · exact le_max_left _ _
    · exact (ih hrest).trans (le_max_right _ _)

theorem position_lt_nextTurnPosition (h : turn ∈ turns) : turn.position < nextTurnPosition turns :=
  Nat.lt_succ_of_le (position_le_maxPosition h)

theorem TurnRow.movedBack_spec (minPos : ℕ) (turn : TurnRow) :
    (turn.movedBack minPos).id = turn.id ∧ (turn.movedBack minPos).status = turn.status ∧
      (turn.movedBack minPos).createdAt = turn.createdAt ∧ turn.position ≤ (turn.movedBack minPos).position := by
  unfold movedBack
  split
  · exact ⟨rfl, rfl, rfl, Nat.le_succ _⟩
  · exact ⟨rfl, rfl, rfl, le_refl _⟩

theorem TurnRow.movedBack_of_lt {minPos : ℕ} (h : turn.position < minPos) : turn.movedBack minPos = turn := by
  apply if_neg
  intro hmoved
  have hle : minPos ≤ turn.position := by simpa using (Bool.and_eq_true_iff.1 hmoved).2
  omega

theorem enqueueSessionTurn_cases (now : ℕ) (input : EnqueueSessionTurnInput) (t : SessionTables) :
    ∃ new : TurnRow, new.id = input.id ∧ new.status = .queued ∧ new.createdAt = now ∧
      (((enqueueSessionTurn now input t).turns = t.turns ++ [new] ∧
          ∀ turn ∈ t.turns, turn.position < new.position) ∨
        (input.preemptChildNotifications = true ∧ minNotification t.turns = some new.position ∧
          (enqueueSessionTurn now input t).turns = t.turns.map (·.movedBack new.position) ++ [new])) := by
  unfold enqueueSessionTurn positionForEnqueue
  by_cases hpreempt : input.preemptChildNotifications = true
  case neg =>
    rw [if_neg hpreempt]
    exact ⟨input.row now (nextTurnPosition t.turns), rfl, rfl, rfl,
      .inl ⟨rfl, fun turn hmem => position_lt_nextTurnPosition hmem⟩⟩
  rw [if_pos hpreempt]
  cases hmin : minNotification t.turns with
  | none =>
    exact ⟨input.row now (nextTurnPosition t.turns), rfl, rfl, rfl,
      .inl ⟨rfl, fun turn hmem => position_lt_nextTurnPosition hmem⟩⟩
  | some minPos => exact ⟨input.row now minPos, rfl, rfl, rfl, .inr ⟨hpreempt, rfl, rfl⟩⟩

theorem enqueueSessionTurn_rows (now : ℕ) (input : EnqueueSessionTurnInput) (t : SessionTables) :
    ∃ (position : ℕ) (f : TurnRow → TurnRow), (f = id ∨ f = (·.movedBack position)) ∧
      (enqueueSessionTurn now input t).turns = t.turns.map f ++ [input.row now position] := by
  unfold enqueueSessionTurn positionForEnqueue
  by_cases hpreempt : input.preemptChildNotifications = true
  case neg =>
    rw [if_neg hpreempt]
    exact ⟨_, id, .inl rfl, by rw [List.map_id]⟩
  rw [if_pos hpreempt]
  cases minNotification t.turns with
  | none => exact ⟨_, id, .inl rfl, by rw [List.map_id]⟩
  | some minPos => exact ⟨minPos, _, .inr rfl, rfl⟩

end

/-! ## The order of the queue -/

/-- `order by position asc, created_at asc, id asc`. -/
def TurnRow.place (turn : TurnRow) : ℕ ×ₗ ℕ ×ₗ ℕ := toLex (turn.position, toLex (turn.createdAt, turn.id))

def nextQueuedTurn (turns : List TurnRow) : Option TurnRow :=
  (turns.filter (·.status == .queued)).argmin TurnRow.place

def claimNextQueuedTurn (now : ℕ) (t : SessionTables) : SessionTables × Option TurnRow :=
  match nextQueuedTurn t.turns with
  | none => (t, none)
  | some turn =>
    let claimed : TurnRow := { turn with status := .running, startedAt := some now }
    let t := t.updateTurn turn.id fun turn => { turn with status := .running, startedAt := some now }
    ({ t with session := { t.session with status := .running, activeTurnId := some turn.id } }, some claimed)

/-- Puts a preempted turn back where it was. Throws when its status is another. -/
def requeuePreemptedTurn (turnId triggerEventId : ℕ) (fromStatuses : List SessionTurnStatus)
    (t : SessionTables) : Option SessionTables :=
  if t.turns.any fun turn => turn.id == turnId && fromStatuses.contains turn.status then
    some (t.updateTurns (fun turn => turn.id == turnId && fromStatuses.contains turn.status) fun turn =>
      { turn with status := .queued, triggerEventId, startedAt := none, finishedAt := none })
  else
    none

def cancelQueuedSessionTurn (now turnId : ℕ) (t : SessionTables) : Option SessionTables :=
  if t.turns.any fun turn => turn.id == turnId && turn.status == .queued then
    some (t.updateTurns (fun turn => turn.id == turnId && turn.status == .queued) fun turn =>
      { turn with status := .cancelled, finishedAt := some now })
  else
    none

def cancelQueuedSessionTurns (now : ℕ) (t : SessionTables) : SessionTables :=
  t.updateTurns (·.status == .queued) fun turn => { turn with status := .cancelled, finishedAt := some now }

/-- The updates of the loop: the turns take the positions from `index + 1` on. -/
def renumber : ℕ → List ℕ → SessionTables → SessionTables
  | _, [], t => t
  | index, turnId :: turnIds, t =>
    renumber (index + 1) turnIds (t.updateTurn turnId fun turn => { turn with position := index + 1 })

def reorderQueuedSessionTurns (turnIds : List ℕ) (t : SessionTables) : Option SessionTables :=
  if (t.turns.filter fun turn => turn.status == .queued && turnIds.contains turn.id).length = turnIds.length then
    some (renumber 0 turnIds t)
  else
    none

def TurnRow.renumbered (turnIds : List ℕ) (turn : TurnRow) : TurnRow :=
  { turn with position := if turn.id ∈ turnIds then turnIds.idxOf turn.id + 1 else turn.position }

theorem renumber_eq (turnIds : List ℕ) (hnodup : turnIds.Nodup) (index : ℕ) (t : SessionTables) :
    (renumber index turnIds t).turns = t.turns.map fun turn =>
      { turn with
        position := if turn.id ∈ turnIds then index + turnIds.idxOf turn.id + 1 else turn.position } := by
  induction turnIds generalizing index t with
  | nil => simp [renumber]
  | cons turnId turnIds ih =>
    obtain ⟨hnotin, hrest⟩ := List.nodup_cons.1 hnodup
    rw [renumber, ih hrest]
    unfold SessionTables.updateTurn SessionTables.updateTurns
    rw [List.map_map]
    apply List.map_congr_left
    intro turn _
    by_cases hid : turn.id = turnId
    · -- the row gets its number now, and the rest of the list does not name it
      simp [hid, hnotin]
    · by_cases hmem : turn.id ∈ turnIds
      · simp [hid, hmem, List.idxOf_cons_ne _ (Ne.symm hid)]
        omega
      · simp [hid, hmem]

theorem reorderQueuedSessionTurns_eq {turnIds : List ℕ} (hids : (t.turns.map (·.id)).Nodup)
    (h : reorderQueuedSessionTurns turnIds t = some t') :
    turnIds.Nodup ∧ t'.turns = t.turns.map (TurnRow.renumbered turnIds) := by
  unfold reorderQueuedSessionTurns at h
  split_ifs at h with hlen
  have hnodup : turnIds.Nodup := by
    let found := (t.turns.filter fun turn => turn.status == .queued && turnIds.contains turn.id).map (·.id)
    have hfound : found.Nodup := hids.sublist (List.filter_sublist.map _)
    have hsub : found ⊆ turnIds := by
      intro turnId hmem
      obtain ⟨turn, hturn, rfl⟩ := List.mem_map.1 hmem
      have hlisted := (Bool.and_eq_true_iff.1 (List.mem_filter.1 hturn).2).2
      simpa using hlisted
    have hfull : turnIds.length ≤ found.length := by
      rw [List.length_map, hlen]
    have hperm := (List.subperm_of_subset hfound hsub).perm_of_length_le hfull
    exact hperm.nodup hfound
  refine ⟨hnodup, ?_⟩
  rw [← Option.some.inj h, renumber_eq turnIds hnodup]
  simp [TurnRow.renumbered]

theorem renumber_frame (turnIds : List ℕ) (index : ℕ) (t : SessionTables) :
    (renumber index turnIds t).waiter = t.waiter ∧ (renumber index turnIds t).goal = t.goal := by
  induction turnIds generalizing index t with
  | nil => exact ⟨rfl, rfl⟩
  | cons turnId turnIds ih => exact ih (index + 1) _

theorem reorderQueuedSessionTurns_frame {turnIds : List ℕ} (h : reorderQueuedSessionTurns turnIds t = some t') :
    t'.waiter = t.waiter ∧ t'.goal = t.goal := by
  unfold reorderQueuedSessionTurns at h
  split_ifs at h
  rw [← Option.some.inj h]
  exact renumber_frame turnIds 0 t

/-! ## The end of a turn -/

inductive FinishStatus
  | session (status : SessionStatus)
  | turn (status : SessionTurnStatus)

def turnStatusForFinish : FinishStatus → SessionTurnStatus
  | .session .idle => .completed
  | .session .queued => .queued
  | .session .running => .running
  | .session .requiresAction => .requiresAction
  | .session .failed => .failed
  | .session .cancelled => .cancelled
  | .turn status => status

def finishTurn (now turnId : ℕ) (status : FinishStatus) (t : SessionTables) : SessionTables :=
  t.updateTurn turnId fun turn =>
    { turn with
      status := turnStatusForFinish status
      finishedAt := if turnStatusForFinish status = .requiresAction then turn.finishedAt else some now }

def setSessionStatus (status : SessionStatus) (activeTurnId : Option (Option ℕ)) (t : SessionTables) :
    SessionTables :=
  { t with session := { t.session with status, activeTurnId := activeTurnId.getD t.session.activeTurnId } }

/-! ## Worker deaths -/

/-- `metadata.workerDeathRedispatches`, zero when it is not there. -/
def TurnRow.redispatches (turn : TurnRow) : ℕ := turn.metadata.workerDeathRedispatches.getD 0

def incrementTurnWorkerDeathRedispatches (turnId : ℕ) (t : SessionTables) : Option (SessionTables × ℕ) :=
  (t.turn? turnId).map fun turn =>
    (t.updateTurn turnId fun turn =>
        { turn with metadata := { turn.metadata with workerDeathRedispatches := some (turn.redispatches + 1) } },
      turn.redispatches + 1)

def SessionTurnStatus.live (status : SessionTurnStatus) : Bool := status == .running || status == .requiresAction

def SessionTurnStatus.over (status : SessionTurnStatus) : Bool := !(status == .queued || status.live)

/-- The `where` of the cancellation by a dying attempt. -/
def TurnRow.ownedBy (turnId expectedRedispatches : ℕ) (turn : TurnRow) : Bool :=
  turn.id == turnId && turn.status.live && turn.redispatches == expectedRedispatches

def cancelTurnFromDyingDispatch (now turnId expectedRedispatches : ℕ) (t : SessionTables) : SessionTables × Bool :=
  (t.updateTurns (TurnRow.ownedBy turnId expectedRedispatches) fun turn =>
      { turn with status := .cancelled, finishedAt := some now },
    t.turns.any (TurnRow.ownedBy turnId expectedRedispatches))

/-! ## Appending events -/

structure EventInput where
  id : ℕ
  type : SessionEventType
  payload : EventPayload
  clientEventId : Option String
  turnId : Option ℕ

/-- The rows for the inputs, with the sequences after `last`. -/
def numberEvents : ℕ → List EventInput → List EventRow
  | _, [] => []
  | last, input :: inputs =>
    { id := input.id, sequence := last + 1, type := input.type, payload := input.payload
      clientEventId := input.clientEventId, turnId := input.turnId } :: numberEvents (last + 1) inputs

/-- Inserts the events and moves `last_sequence` on. -/
def SessionTables.append (inputs : List EventInput) (t : SessionTables) : SessionTables := { t with
    events := t.events ++ numberEvents t.session.lastSequence inputs
    session := { t.session with lastSequence := t.session.lastSequence + inputs.length } }

/-! ## Edits of turns that leave their positions -/

inductive TurnEdit
  | claimNextQueuedTurn (now : ℕ)
  | finishTurn (now turnId : ℕ) (status : FinishStatus)
  | setSessionStatus (status : SessionStatus) (activeTurnId : Option (Option ℕ))
  | requeuePreemptedTurn (turnId triggerEventId : ℕ) (fromStatuses : List SessionTurnStatus)
  | cancelQueuedSessionTurn (now turnId : ℕ)
  | cancelQueuedSessionTurns (now : ℕ)

namespace TurnEdit

def run (t : SessionTables) : TurnEdit → Option SessionTables
  | .claimNextQueuedTurn now => some (Db.claimNextQueuedTurn now t).1
  | .finishTurn now turnId status => some (Db.finishTurn now turnId status t)
  | .setSessionStatus status activeTurnId => some (Db.setSessionStatus status activeTurnId t)
  | .requeuePreemptedTurn turnId triggerEventId fromStatuses =>
    Db.requeuePreemptedTurn turnId triggerEventId fromStatuses t
  | .cancelQueuedSessionTurn now turnId => Db.cancelQueuedSessionTurn now turnId t
  | .cancelQueuedSessionTurns now => some (Db.cancelQueuedSessionTurns now t)

def proper : TurnEdit → Bool
  | .finishTurn _ _ status => (turnStatusForFinish status).over || turnStatusForFinish status == .requiresAction
  | _ => true

end TurnEdit

/-- Goal and waiter stay, and the turns keep their ids and positions. -/
structure SessionTables.KeepsPositions (t t' : SessionTables) : Prop where
  waiter : t'.waiter = t.waiter
  goal : t'.goal = t.goal
  turns : ∃ f : TurnRow → TurnRow, (∀ row, (f row).id = row.id ∧ (f row).position = row.position) ∧
    t'.turns = t.turns.map f

theorem SessionTables.KeepsPositions.refl (t : SessionTables) : t.KeepsPositions t :=
  ⟨rfl, rfl, id, fun _ => ⟨rfl, rfl⟩, (List.map_id _).symm⟩

theorem updateTurns_keepsPositions (t : SessionTables) (p : TurnRow → Bool) {f : TurnRow → TurnRow}
    (hf : ∀ row, (f row).id = row.id ∧ (f row).position = row.position) :
    t.KeepsPositions (t.updateTurns p f) := by
  refine ⟨rfl, rfl, fun turn => if p turn then f turn else turn, ?_, rfl⟩
  intro row
  dsimp only
  by_cases hrow : p row = true
  · rw [if_pos hrow]
    exact hf row
  · rw [if_neg hrow]
    exact ⟨rfl, rfl⟩

theorem TurnEdit.run_keepsPositions {edit : TurnEdit} (h : edit.run t = some t') : t.KeepsPositions t' := by
  cases edit with
  | claimNextQueuedTurn now =>
    cases h
    unfold Db.claimNextQueuedTurn
    cases nextQueuedTurn t.turns with
    | none => exact .refl t
    | some turn =>
      have hrow := updateTurns_keepsPositions t (·.id == turn.id)
        (f := fun row => { row with status := .running, startedAt := some now }) fun _ => ⟨rfl, rfl⟩
      exact ⟨hrow.waiter, hrow.goal, hrow.turns⟩
  | finishTurn | cancelQueuedSessionTurns =>
    cases h
    exact updateTurns_keepsPositions t _ fun _ => ⟨rfl, rfl⟩
  | setSessionStatus status activeTurnId =>
    cases h
    exact ⟨rfl, rfl, id, fun _ => ⟨rfl, rfl⟩, (List.map_id _).symm⟩
  | requeuePreemptedTurn turnId triggerEventId fromStatuses =>
    unfold run Db.requeuePreemptedTurn at h
    dsimp only at h
    split at h
    · cases h
      exact updateTurns_keepsPositions t _ fun _ => ⟨rfl, rfl⟩
    · cases h
  | cancelQueuedSessionTurn now turnId =>
    unfold run Db.cancelQueuedSessionTurn at h
    dsimp only at h
    split at h
    · cases h
      exact updateTurns_keepsPositions t _ fun _ => ⟨rfl, rfl⟩
    · cases h

end OpenGeni.Db
