/-
A child session has ended, and its manager is told.

`wakeParentSessionForChildCompletion` records a card event for the completion, under the client
event id that makes the call idempotent. If a notification turn is queued already, the summary
is folded into it: the trigger event of that turn gets the digest of all its summaries. If not,
a turn is enqueued with the card as its trigger.
-/
import OpenGeni.Db.SessionTables

namespace OpenGeni.Db

/-! ## The call -/

def buildChildCompletionDigest (summaries : List String) (trailing : String) : String :=
  if summaries.length ≤ 1 then "\n".intercalate [summaries.headD "", "", trailing]
  else
    let header := toString summaries.length ++ " worker sessions you spawned reached a terminal state:"
    let numbered := "\n\n".intercalate (summaries.mapIdx fun index summary => toString (index + 1) ++ ". " ++ summary)
    "\n".intercalate [header, "", numbered, "", trailing]

structure WakeInput where
  childSummary : String
  trailing : String
  clientEventId : String
  cardEventId : ℕ
  statusEventId : ℕ
  turnId : ℕ
  queuedEventId : ℕ

inductive WakeResult
  | parentCancelled | alreadyDelivered | passive
  | folded (turnId : ℕ)
  | opened

namespace WakeInput

def cardText (input : WakeInput) : String := buildChildCompletionDigest [input.childSummary] input.trailing

def card (input : WakeInput) : EventInput :=
  { id := input.cardEventId, type := .userMessage, payload := { EventPayload.none with text := some input.cardText }
    clientEventId := some input.clientEventId, turnId := none }

def statusChanged (input : WakeInput) : EventInput :=
  { id := input.statusEventId, type := .statusChanged, payload := .none, clientEventId := none, turnId := none }

def queued (input : WakeInput) : EventInput :=
  { id := input.queuedEventId, type := .turnQueued, payload := .none, clientEventId := none
    turnId := some input.turnId }

end WakeInput

def digestTurn (turns : List TurnRow) : Option TurnRow :=
  (turns.filter fun turn => turn.status == .queued && turn.metadata.childCompletion).argmax (·.position)

namespace WakeInput

variable (input : WakeInput)

def summariesWith (turn : TurnRow) : List String := turn.metadata.childSummaries.getD [] ++ [input.childSummary]

def digestText (turn : TurnRow) : String := buildChildCompletionDigest (input.summariesWith turn) input.trailing

def retold (turn : TurnRow) (event : EventRow) : EventRow := if event.id = turn.triggerEventId then
    { event with payload := { event.payload with text := some (input.digestText turn) } }
  else
    event

def fold (turn : TurnRow) (t : SessionTables) : SessionTables :=
  { t with events := t.events.map (input.retold turn) }.updateTurn turn.id fun row =>
    { row with
      prompt := input.digestText turn
      metadata := { turn.metadata with childSummaries := some (input.summariesWith turn) } }

def newTurn (now position : ℕ) : TurnRow :=
  { id := input.turnId, triggerEventId := input.cardEventId, status := .queued, source := .user, position
    prompt := input.cardText
    metadata := { TurnMetadata.none with childCompletion := true, childSummaries := some [input.childSummary] }
    startedAt := none, finishedAt := none, createdAt := now }

def openTurn (now : ℕ) (t : SessionTables) : SessionTables :=
  { t with turns := t.turns ++ [input.newTurn now (nextTurnPosition t.turns)] }.append [input.queued]

end WakeInput

def wakeParentSessionForChildCompletion (now : ℕ) (input : WakeInput) (t : SessionTables) :
    SessionTables × WakeResult :=
  if t.session.status = .cancelled then (t, .parentCancelled)
  else if t.events.any (·.clientEventId == some input.clientEventId) then (t, .alreadyDelivered)
  else if t.session.passiveMode then (t.append [input.card], .passive)
  else
    let shouldQueue := t.session.status = .idle ∨ t.session.status = .failed
    let t := t.append (input.card :: if shouldQueue then [input.statusChanged] else [])
    let (t, result) := match digestTurn t.turns with
      | some turn => (input.fold turn t, WakeResult.folded turn.id)
      | none => (input.openTurn now t, .opened)
    (if shouldQueue then setSessionStatus .queued (some none) t else t, result)

theorem wakeParentSessionForChildCompletion_cases (now : ℕ) (input : WakeInput) (t : SessionTables) :
    wakeParentSessionForChildCompletion now input t = (t, .parentCancelled) ∨
      (t.events.any (·.clientEventId == some input.clientEventId) = true ∧
        wakeParentSessionForChildCompletion now input t = (t, .alreadyDelivered)) ∨
      t.session.passiveMode = true ∨
      (t.events.any (·.clientEventId == some input.clientEventId) = false ∧
        ∃ rest session, (rest = [] ∨ rest = [input.statusChanged]) ∧ ((∃ turn, digestTurn t.turns = some turn ∧
              wakeParentSessionForChildCompletion now input t =
                ({ input.fold turn (t.append (input.card :: rest)) with session }, .folded turn.id)) ∨
            (digestTurn t.turns = none ∧ wakeParentSessionForChildCompletion now input t =
                ({ input.openTurn now (t.append (input.card :: rest)) with session }, .opened))) ∧
          session.passiveMode = t.session.passiveMode) := by
  unfold wakeParentSessionForChildCompletion
  by_cases hcancelled : t.session.status = .cancelled
  · rw [if_pos hcancelled]
    exact .inl rfl
  rw [if_neg hcancelled]
  by_cases hdelivered : t.events.any (·.clientEventId == some input.clientEventId) = true
  · rw [if_pos hdelivered]
    exact .inr (.inl ⟨hdelivered, rfl⟩)
  rw [if_neg hdelivered]
  by_cases hpassive : t.session.passiveMode = true
  · exact .inr (.inr (.inl hpassive))
  rw [if_neg hpassive]
  refine .inr (.inr (.inr ⟨Bool.eq_false_iff.2 hdelivered, ?_⟩))
  have hturns : ∀ inputs, (t.append inputs).turns = t.turns := fun _ => rfl
  by_cases hqueue : t.session.status = .idle ∨ t.session.status = .failed
  · -- the session is queued
    dsimp only
    rw [if_pos hqueue, if_pos hqueue, hturns]
    cases hdigest : digestTurn t.turns with
    | some turn => exact ⟨[input.statusChanged], _, .inr rfl, .inl ⟨turn, rfl, rfl⟩, rfl⟩
    | none => exact ⟨[input.statusChanged], _, .inr rfl, .inr ⟨rfl, rfl⟩, rfl⟩
  · dsimp only
    rw [if_neg hqueue, if_neg hqueue, hturns]
    cases hdigest : digestTurn t.turns with
    | some turn => exact ⟨[], _, .inl rfl, .inl ⟨turn, rfl, rfl⟩, rfl⟩
    | none => exact ⟨[], _, .inl rfl, .inr ⟨rfl, rfl⟩, rfl⟩

/-! ## The death of a worker -/

def workerDeathMaxRedispatches : ℕ := 3

def workerDeathResumeText : String := "\n".intercalate
    ["[TURN RESUMED AFTER WORKER CRASH] The platform worker running this turn died before the turn finished.",
     "Your conversation history above, including this turn's earlier work, is preserved up to the last checkpoint; anything in flight after that checkpoint was lost.",
     "Continue the original task from where it left off. Before repeating any action with side effects, check whether it already happened."]

structure RequeueCall where
  turnId : ℕ
  triggerEventId : ℕ
  resumeWithNotice : Bool
  text : String
  fromStatuses : List SessionTurnStatus
  preemptedEventId : Option ℕ

/-- The event of the preemption, with the text of the notice if there is to be one. -/
def RequeueCall.preempted (eventId : ℕ) (call : RequeueCall) : EventInput :=
  { id := eventId, type := .turnPreempted
    payload := { EventPayload.none with text := if call.resumeWithNotice then some call.text else none }
    clientEventId := none, turnId := some call.turnId }

def RequeueCall.statusChanged (eventId : ℕ) (call : RequeueCall) : EventInput :=
  { id := eventId, type := .statusChanged, payload := .none, clientEventId := none, turnId := some call.turnId }

def RequeueCall.resumeTrigger (call : RequeueCall) : ℕ :=
  if call.resumeWithNotice then call.preemptedEventId.getD call.triggerEventId else call.triggerEventId

/-- What `requeueTurnAfterWorkerDeath` has decided before it appends. `none` is stale or exceeded. -/
def requeueTurnAfterWorkerDeath (turnId triggerEventId storedItems : ℕ) (t : SessionTables) :
    SessionTables × Option RequeueCall :=
  match (t.turn? turnId).filter fun turn => turn.status.live || turn.status == .cancelled with
  | none => (t, none)
  | some _ =>
    match incrementTurnWorkerDeathRedispatches turnId t with
    | none => (t, none)
    | some (t, redispatches) =>
      if workerDeathMaxRedispatches < redispatches then (t, none)
      else
        (t, some
          { turnId, triggerEventId, resumeWithNotice := decide (0 < storedItems), text := workerDeathResumeText
            fromStatuses := [.running, .requiresAction, .cancelled], preemptedEventId := none })

end OpenGeni.Db
