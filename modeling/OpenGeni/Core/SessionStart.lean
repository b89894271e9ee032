/-
How a session is created and started, and how a user message reaches it.

A create inserts the session, writes its goal, appends the first events with the user message, seeds
the active sandbox, sets the workflow id, enqueues the first turn, announces it and signals the
workflow. A user message is appended, enqueued, announced and signalled. Every one of these is
committed on its own, and a call may stop after any of them.

A create under an idempotency key is answered with the session of the key as soon as there is one.
A client event id is unique in the log of a session.
-/
import OpenGeni.Lib.Run
import OpenGeni.Lib.Slots

namespace OpenGeni.Core

open OpenGeni.Lib

/-! ## The rows -/

inductive SessionStatus
  | queued
  | running
  | requiresAction
  | idle
  | failed
  | cancelled
deriving DecidableEq

inductive SessionEvent
  | sessionCreated
  | goalSet (text : String)
  /-- `initial` where it is the message that the session was created with. -/
  | userMessage (text : String) (clientEventId : Option String) (initial : Bool)
  | statusChanged (status : SessionStatus)
  | turnQueued (turn triggerEventId : ℕ)
  | goalContinuation

structure SessionTurn where
  triggerEventId : ℕ
  prompt : String
  pending : Bool
deriving DecidableEq

structure SessionRow where
  createIdempotencyKey : Option String
  initialMessage : String
  status : SessionStatus
  goal : Option String
  activeSandboxId : Option String
  temporalWorkflowId : Option String
  events : List SessionEvent
  turns : List SessionTurn
  /-- The signals to its workflow: how many turns there were at each. -/
  signals : List ℕ

def SessionEvent.clientEventId : SessionEvent → Option String
  | .userMessage _ clientEventId _ => clientEventId
  | _ => none

def SessionEvent.isInitial : SessionEvent → Bool
  | .userMessage _ _ initial => initial
  | _ => false

namespace SessionRow

def clientEventIds (row : SessionRow) : List String := row.events.filterMap (·.clientEventId)

def triggers (row : SessionRow) : List ℕ := row.turns.map (·.triggerEventId)

def refuses (row : SessionRow) (clientEventId : Option String) : Bool := clientEventId.any (row.clientEventIds.contains ·)

def append (row : SessionRow) (events : List SessionEvent) : SessionRow := { row with events := row.events ++ events }

end SessionRow

def workflowIdForSession (sessionId : ℕ) : String := "session-" ++ toString sessionId

/-- `getSessionByCreateIdempotencyKey`. -/
def sessionOfKey (sessions : List SessionRow) (key : Option String) : Option ℕ :=
  key.bind fun key => sessions.findIdx? (·.createIdempotencyKey = some key)

/-! ## The calls -/

structure CreateRequest where
  createIdempotencyKey : Option String
  initialMessage : String
  clientEventId : Option String
  goal : Option String
  seedTargetSandbox : Option String
  /-- The sandbox backend is `none`. -/
  withoutSandbox : Bool
deriving DecidableEq

inductive QueuePolicy
  | append
  | rejectConflicts
deriving DecidableEq

structure MessageRequest where
  sessionId : ℕ
  text : String
  clientEventId : Option String
  queuePolicy : QueuePolicy
deriving DecidableEq

inductive Request
  | create (request : CreateRequest)
  | message (request : MessageRequest)
deriving DecidableEq

inductive Stage
  | looking
  | inserting
  | creatingGoal (sessionId : ℕ)
  | appending (sessionId : ℕ)
  | seeding (sessionId event : ℕ)
  | settingWorkflowId (sessionId event : ℕ)
  | posting
  | enqueuing (sessionId event : ℕ)
  | announcing (sessionId event turn : ℕ)
  | waking (sessionId event turn : ℕ)
  | accepted (sessionId event turn : ℕ)
  /-- It has returned the session that was there under its key. -/
  | existing (sessionId : ℕ)
  | thrown
deriving DecidableEq

structure Call where
  request : Request
  stage : Stage
deriving DecidableEq

def Stage.isOver : Stage → Bool
  | .accepted _ _ _ => true
  | .existing _ => true
  | .thrown => true
  | _ => false

def Request.text : Request → String
  | .create request => request.initialMessage
  | .message request => request.text

def Request.userMessage : Request → SessionEvent
  | .create request => .userMessage request.initialMessage request.clientEventId true
  | .message request => .userMessage request.text request.clientEventId false

def Request.createIdempotencyKey : Request → Option String
  | .create request => request.createIdempotencyKey
  | .message _ => none

def CreateRequest.row (request : CreateRequest) : SessionRow where
  createIdempotencyKey := request.createIdempotencyKey
  initialMessage := request.initialMessage
  status := .queued
  goal := none
  activeSandboxId := none
  temporalWorkflowId := none
  events := []
  turns := []
  signals := []

def CreateRequest.openingEvents (request : CreateRequest) : List SessionEvent :=
  .sessionCreated :: (request.goal.map .goalSet).toList

def CreateRequest.initialEvents (request : CreateRequest) : List SessionEvent :=
  request.openingEvents ++ [Request.userMessage (.create request), .statusChanged .queued]

def MessageRequest.conflicts (request : MessageRequest) (row : SessionRow) : Bool := row.status = .cancelled ∨
    (request.queuePolicy = .rejectConflicts ∧
      (row.turns.any (·.pending) ∨ row.status = .queued ∨ row.status = .running ∨ row.status = .requiresAction))

def MessageRequest.post (request : MessageRequest) (row : SessionRow) : SessionRow :=
  if row.status = .idle ∨ row.status = .failed then
    { row.append [Request.userMessage (.message request), .statusChanged .queued] with status := .queued }
  else
    row.append [Request.userMessage (.message request)]

namespace Call

/-- The session that is there under the key, where the call asks for it. -/
def finds (sessions : List SessionRow) (call : Call) : Option ℕ := match call.request, call.stage with
  | .create request, .looking => sessionOfKey sessions request.createIdempotencyKey
  | .create request, .inserting => sessionOfKey sessions request.createIdempotencyKey
  | _, _ => none

def fails (sessions : List SessionRow) (swapped : Bool) (call : Call) : Bool := match call.request, call.stage with
  | .create request, .appending sessionId => sessions[sessionId]?.any (·.refuses request.clientEventId)
  | .create request, .seeding _ _ => request.withoutSandbox || !swapped
  | _, _ => false

/-- The next step of a call: the sessions after it, and what is next. `swapped` is the answer of
`swapActiveSandbox`. -/
def advance (sessions : List SessionRow) (swapped : Bool) (call : Call) : Option (List SessionRow × Stage) :=
  match call.request, call.stage with
  | .create request, .looking =>
    match sessionOfKey sessions request.createIdempotencyKey with
    | some sessionId => some (sessions, .existing sessionId)
    | none => some (sessions, .inserting)
  | .create request, .inserting =>
    match sessionOfKey sessions request.createIdempotencyKey with
    | some sessionId => some (sessions, .existing sessionId)
    | none =>
      some (sessions ++ [request.row],
        if request.goal.isSome then .creatingGoal sessions.length else .appending sessions.length)
  | .create request, .creatingGoal sessionId =>
    some (sessions.modify sessionId fun row => { row with goal := request.goal }, .appending sessionId)
  | .create request, .appending sessionId =>
    match sessions[sessionId]? with
    | none => some (sessions, .thrown)
    | some row =>
      if row.refuses request.clientEventId then
        some (sessions, .thrown)
      else
        let event := row.events.length + request.openingEvents.length
        some (sessions.modify sessionId (·.append request.initialEvents),
          if request.seedTargetSandbox.isSome then .seeding sessionId event else .settingWorkflowId sessionId event)
  | .create request, .seeding sessionId event =>
    if request.withoutSandbox || !swapped then
      some (sessions, .thrown)
    else
      some (sessions.modify sessionId fun row => { row with activeSandboxId := request.seedTargetSandbox },
        .settingWorkflowId sessionId event)
  | .create _, .settingWorkflowId sessionId event =>
    some (sessions.modify sessionId fun row => { row with temporalWorkflowId := some (workflowIdForSession sessionId) },
      .enqueuing sessionId event)
  | .message request, .posting =>
    match sessions[request.sessionId]? with
    | none => some (sessions, .thrown)
    | some row =>
      if request.conflicts row || row.refuses request.clientEventId then
        some (sessions, .thrown)
      else
        some (sessions.modify request.sessionId request.post, .enqueuing request.sessionId row.events.length)
  | request, .enqueuing sessionId event =>
    match sessions[sessionId]? with
    | none => some (sessions, .thrown)
    | some row =>
      let turn : SessionTurn := { triggerEventId := event, prompt := request.text, pending := true }
      some (sessions.modify sessionId fun row => { row with turns := row.turns ++ [turn] },
        .announcing sessionId event row.turns.length)
  | _, .announcing sessionId event turn =>
    some (sessions.modify sessionId (·.append [.turnQueued turn event]), .waking sessionId event turn)
  | _, .waking sessionId event turn =>
    some (sessions.modify sessionId fun row => { row with signals := row.signals ++ [row.turns.length] },
      .accepted sessionId event turn)
  | _, _ => none

end Call

/-! ## The system -/

structure StartState where
  sessions : List SessionRow
  calls : Slots ℕ Call

inductive StartEvent
  | create (i : ℕ) (request : CreateRequest)
  | message (i : ℕ) (request : MessageRequest)
  | advance (i : ℕ) (swapped : Bool)
  | stop (i : ℕ)
  | setSessionStatus (sessionId : ℕ) (status : SessionStatus)
  | finishTurn (sessionId turn : ℕ)
  | continueGoal (sessionId : ℕ)

namespace StartState

def empty : StartState := { sessions := [], calls := [] }

def update (s : StartState) (sessionId : ℕ) (f : SessionRow → SessionRow) : StartState :=
  { s with sessions := s.sessions.modify sessionId f }

def open? (s : StartState) (i : ℕ) (call : Call) : Option StartState := match s.calls.get i with
  | some _ => none
  | none => some { s with calls := s.calls.put i call }

def step (s : StartState) : StartEvent → Option StartState
  | .create i request => s.open? i { request := .create request, stage := .looking }
  | .message i request => s.open? i { request := .message request, stage := .posting }
  | .advance i swapped => do
    let call ← s.calls.get i
    let (sessions, stage) ← call.advance s.sessions swapped
    some { sessions, calls := s.calls.put i { call with stage } }
  | .stop i => do
    let call ← s.calls.get i
    if call.stage.isOver then none else some { s with calls := s.calls.put i { call with stage := .thrown } }
  | .setSessionStatus sessionId status => some (s.update sessionId fun row => { row with status })
  | .finishTurn sessionId turn =>
    some (s.update sessionId fun row => { row with turns := row.turns.modify turn fun turn => { turn with pending := false } })
  | .continueGoal sessionId =>
    some (s.update sessionId fun row =>
      { row with
        events := row.events ++ [.goalContinuation]
        turns := row.turns ++ [{ triggerEventId := row.events.length, prompt := row.goal.getD "", pending := true }] })

end StartState

def startSteps (s : StartState) (e : StartEvent) (s' : StartState) : Prop := s.step e = some s'

/-! ## What is to hold -/

/-- The message of the request has reached the session once, with one turn, and its workflow was signalled
after the turn. -/
structure SessionRow.Received (row : SessionRow) (request : Request) (event turn : ℕ) : Prop where
  message : row.events[event]? = some request.userMessage
  once : ∀ id ∈ request.userMessage.clientEventId, row.clientEventIds.count id = 1
  initial : request.userMessage.isInitial → row.events.countP (·.isInitial) = 1
  enqueued : row.triggers[turn]? = some event
  oneTurn : row.triggers.count event = 1
  signal : ∃ n ∈ row.signals, turn < n

def Call.leads (call : Call) : Option ℕ := match call.request, call.stage with
  | .create _, .creatingGoal sessionId => some sessionId
  | .create _, .appending sessionId => some sessionId
  | .create _, .seeding sessionId _ => some sessionId
  | .create _, .settingWorkflowId sessionId _ => some sessionId
  | .create _, .enqueuing sessionId _ => some sessionId
  | .create _, .announcing sessionId _ _ => some sessionId
  | .create _, .waking sessionId _ _ => some sessionId
  | .create _, .accepted sessionId _ _ => some sessionId
  | _, _ => none

namespace StartState

structure Settled (s : StartState) : Prop where
  keys : ∀ (a b : ℕ) (row row' : SessionRow) (key : String), s.sessions[a]? = some row → s.sessions[b]? = some row' →
    row.createIdempotencyKey = some key → row'.createIdempotencyKey = some key → a = b
  /-- A request that is accepted has reached its session. -/
  accepted : ∀ e ∈ s.calls, ∀ sessionId event turn, e.2.stage = .accepted sessionId event turn →
    ∃ row, s.sessions[sessionId]? = some row ∧ row.Received e.2.request event turn
  /-- Where all creates of a key have ended, a create that was answered with the session of the key repeats one
  that is accepted. -/
  existing : ∀ e ∈ s.calls, ∀ sessionId, e.2.stage = .existing sessionId →
    (∀ e' ∈ s.calls, e'.2.request.createIdempotencyKey = e.2.request.createIdempotencyKey → e'.2.stage.isOver) →
    ∃ e' ∈ s.calls, e'.2.request.createIdempotencyKey = e.2.request.createIdempotencyKey ∧
      e'.2.leads = some sessionId ∧ ∃ event turn, e'.2.stage = .accepted sessionId event turn

def HandedOut (s : StartState) (sessionId : ℕ) : Prop := ∃ e ∈ s.calls, e.2.stage = .existing sessionId

/-- The create that has inserted the session is under way, or accepted. -/
def InHand (s : StartState) (sessionId : ℕ) : Prop := ∃ e ∈ s.calls, e.2.leads = some sessionId

/-- No create leaves a session that another was answered with: it does not stop, nor is refused, once the session
was handed out, and none is handed out that was left. -/
def Carried (s : StartState) : StartEvent → Prop
  | .advance i swapped => ∀ call ∈ s.calls.get i, (∀ sessionId ∈ call.finds s.sessions, s.InHand sessionId) ∧
      (call.fails s.sessions swapped → ∀ sessionId ∈ call.leads, ¬ s.HandedOut sessionId)
  | .stop i => ∀ call ∈ s.calls.get i, ∀ sessionId ∈ call.leads, ¬ s.HandedOut sessionId
  | _ => True

instance (s : StartState) (sessionId : ℕ) : Decidable (s.HandedOut sessionId) :=
  inferInstanceAs (Decidable (∃ e ∈ s.calls, e.2.stage = .existing sessionId))

instance (s : StartState) (sessionId : ℕ) : Decidable (s.InHand sessionId) :=
  inferInstanceAs (Decidable (∃ e ∈ s.calls, e.2.leads = some sessionId))

instance (s : StartState) (e : StartEvent) : Decidable (s.Carried e) := by
  cases e <;> unfold Carried <;> infer_instance

end StartState

/-! ## The invariant -/

structure SessionRow.Ordered (row : SessionRow) : Prop where
  clientEventIds : row.clientEventIds.Nodup
  initial : row.events.countP (·.isInitial) ≤ 1
  triggers : row.triggers.Nodup
  triggered : ∀ event ∈ row.triggers, event < row.events.length

def Stage.owes : Stage → Option (ℕ × ℕ)
  | .seeding sessionId event => some (sessionId, event)
  | .settingWorkflowId sessionId event => some (sessionId, event)
  | .enqueuing sessionId event => some (sessionId, event)
  | _ => none

def Stage.Knows (sessions : List SessionRow) (request : Request) : Stage → Prop
  | .creatingGoal sessionId => (∃ created, request = .create created) ∧
      ∃ row, sessions[sessionId]? = some row ∧ row.events.countP (·.isInitial) = 0
  | .appending sessionId => (∃ created, request = .create created) ∧
      ∃ row, sessions[sessionId]? = some row ∧ row.events.countP (·.isInitial) = 0
  | .seeding sessionId event => ∃ row, sessions[sessionId]? = some row ∧ row.events[event]? = some request.userMessage ∧
      event ∉ row.triggers
  | .settingWorkflowId sessionId event => ∃ row, sessions[sessionId]? = some row ∧
      row.events[event]? = some request.userMessage ∧ event ∉ row.triggers
  | .enqueuing sessionId event => ∃ row, sessions[sessionId]? = some row ∧ row.events[event]? = some request.userMessage ∧
      event ∉ row.triggers
  | .announcing sessionId event turn => ∃ row, sessions[sessionId]? = some row ∧
      row.events[event]? = some request.userMessage ∧ row.triggers[turn]? = some event
  | .waking sessionId event turn => ∃ row, sessions[sessionId]? = some row ∧
      row.events[event]? = some request.userMessage ∧ row.triggers[turn]? = some event
  | .accepted sessionId event turn => ∃ row, sessions[sessionId]? = some row ∧
      row.events[event]? = some request.userMessage ∧ row.triggers[turn]? = some event ∧ ∃ n ∈ row.signals, turn < n
  | _ => True

namespace StartState

structure Sound (s : StartState) : Prop where
  unique : s.calls.Unique
  rows : ∀ row ∈ s.sessions, row.Ordered
  keys : ∀ (a b : ℕ) (row row' : SessionRow) (key : String), s.sessions[a]? = some row → s.sessions[b]? = some row' →
    row.createIdempotencyKey = some key → row'.createIdempotencyKey = some key → a = b
  knows : ∀ e ∈ s.calls, e.2.stage.Knows s.sessions e.2.request
  leads : ∀ e ∈ s.calls, ∀ sessionId ∈ e.2.leads, ∃ row, s.sessions[sessionId]? = some row ∧
    row.createIdempotencyKey = e.2.request.createIdempotencyKey
  existing : ∀ e ∈ s.calls, ∀ sessionId, e.2.stage = .existing sessionId → s.InHand sessionId ∧
    ∃ row, s.sessions[sessionId]? = some row ∧ row.createIdempotencyKey = e.2.request.createIdempotencyKey
  owesApart : ∀ e ∈ s.calls, ∀ e' ∈ s.calls, e.1 ≠ e'.1 → ∀ owed ∈ e.2.stage.owes, owed ∉ e'.2.stage.owes
  leadsApart : ∀ e ∈ s.calls, ∀ e' ∈ s.calls, e.1 ≠ e'.1 → ∀ sessionId ∈ e.2.leads, sessionId ∉ e'.2.leads

end StartState

variable {s s' : StartState} {sessions sessions' : List SessionRow} {row row' : SessionRow} {request : Request} {call : Call}
  {stage stage' : Stage} {i sessionId event turn : ℕ} {owed : Option (ℕ × ℕ)} {leads : Option ℕ} {key : Option String}
  {f : SessionRow → SessionRow} {events : List SessionEvent}

/-! ## The rows -/

structure SessionRow.Grows (row row' : SessionRow) : Prop where
  key : row'.createIdempotencyKey = row.createIdempotencyKey
  events : row.events <+: row'.events
  triggers : row.triggers <+: row'.triggers
  signals : row.signals ⊆ row'.signals

/-- What a step leaves to the others: no turn for an event that was there but the one that it owes, and no
initial message but in the session that it leads. -/
def Keeps (sessions sessions' : List SessionRow) (owed : Option (ℕ × ℕ)) (leads : Option ℕ) : Prop :=
  ∀ sessionId row, sessions[sessionId]? = some row → ∃ row', sessions'[sessionId]? = some row' ∧ row.Grows row' ∧
    (∀ event < row.events.length, event ∈ row'.triggers → event ∈ row.triggers ∨ owed = some (sessionId, event)) ∧
    (row'.events.countP (·.isInitial) = row.events.countP (·.isInitial) ∨ leads = some sessionId)

theorem SessionRow.Grows.refl : row.Grows row := ⟨rfl, List.prefix_rfl, List.prefix_rfl, List.Subset.refl _⟩

theorem Keeps.refl : Keeps sessions sessions owed leads :=
  fun _ row hrow => ⟨row, hrow, .refl, fun _ _ hmem => .inl hmem, .inl rfl⟩

theorem keeps_modify (h : ∀ row, sessions[sessionId]? = some row → row.Grows (f row) ∧
      (∀ event < row.events.length, event ∈ (f row).triggers → event ∈ row.triggers ∨ owed = some (sessionId, event)) ∧
      ((f row).events.countP (·.isInitial) = row.events.countP (·.isInitial) ∨ leads = some sessionId)) :
    Keeps sessions (sessions.modify sessionId f) owed leads := by
  intro i row hrow
  rw [List.getElem?_modify, hrow]
  by_cases heq : sessionId = i
  · subst heq
    refine ⟨f row, ?_, h row hrow⟩
    simp
  · refine ⟨row, ?_, .refl, fun _ _ hmem => .inl hmem, .inl rfl⟩
    simp [heq]

theorem keeps_modify_aside (hkey : ∀ row, (f row).createIdempotencyKey = row.createIdempotencyKey)
    (hevents : ∀ row, (f row).events = row.events) (htriggers : ∀ row, (f row).triggers = row.triggers)
    (hsignals : ∀ row, row.signals ⊆ (f row).signals) : Keeps sessions (sessions.modify sessionId f) owed leads := by
  refine keeps_modify fun row _ => ⟨⟨hkey row, ?_, ?_, hsignals row⟩, fun event _ hmem => .inl ?_, .inl ?_⟩
  · rw [hevents]
  · rw [htriggers]
  · rwa [htriggers] at hmem
  · rw [hevents]

theorem keeps_modify_append (hkey : ∀ row, (f row).createIdempotencyKey = row.createIdempotencyKey)
    (hevents : ∀ row, sessions[sessionId]? = some row → ∃ added, (f row).events = row.events ++ added ∧
      (added.countP (·.isInitial) = 0 ∨ leads = some sessionId))
    (htriggers : ∀ row, (f row).triggers = row.triggers) (hsignals : ∀ row, (f row).signals = row.signals) :
    Keeps sessions (sessions.modify sessionId f) owed leads := by
  refine keeps_modify fun row hrow => ?_
  obtain ⟨added, hadded, hinitial⟩ := hevents row hrow
  refine ⟨⟨hkey row, ?_, ?_, ?_⟩, fun event _ hmem => .inl ?_, ?_⟩
  · rw [hadded]
    exact List.prefix_append _ _
  · rw [htriggers]
  · rw [hsignals]
    exact List.Subset.refl _
  · rwa [htriggers] at hmem
  · refine hinitial.imp_left fun hzero => ?_
    rw [hadded, List.countP_append, hzero, Nat.add_zero]

theorem getElem?_of_starts {α : Type*} {l l' : List α} {a : α} (h : l <+: l') (hi : l[i]? = some a) : l'[i]? = some a := by
  obtain ⟨rest, rfl⟩ := h
  rw [List.getElem?_append_left (List.getElem?_eq_some_iff.1 hi).1]
  exact hi

theorem Stage.Knows.mono (h : stage.Knows sessions request) (hkeeps : Keeps sessions sessions' owed leads)
    (howed : ∀ o ∈ stage.owes, owed ≠ some o)
    (hleads : ∀ sessionId ∈ (Call.mk request stage).leads, leads ≠ some sessionId) : stage.Knows sessions' request := by
  have hinitial : ∀ sessionId row, sessions[sessionId]? = some row → row.events.countP (·.isInitial) = 0 →
      leads ≠ some sessionId → ∃ row', sessions'[sessionId]? = some row' ∧ row'.events.countP (·.isInitial) = 0 := by
    intro sessionId row hrow hzero hne
    obtain ⟨row', hrow', -, -, hcount⟩ := hkeeps sessionId row hrow
    exact ⟨row', hrow', (hcount.resolve_right hne).trans hzero⟩
  have howing : ∀ sessionId event row, sessions[sessionId]? = some row → row.events[event]? = some request.userMessage →
      event ∉ row.triggers → owed ≠ some (sessionId, event) →
      ∃ row', sessions'[sessionId]? = some row' ∧ row'.events[event]? = some request.userMessage ∧ event ∉ row'.triggers := by
    intro sessionId event row hrow hevent hnew hne
    obtain ⟨row', hrow', hgrows, htriggers, -⟩ := hkeeps sessionId row hrow
    refine ⟨row', hrow', getElem?_of_starts hgrows.events hevent, fun hmem => ?_⟩
    obtain hold | hnow := htriggers event (List.getElem?_eq_some_iff.1 hevent).1 hmem
    · exact hnew hold
    · exact hne hnow
  cases stage with
  | creatingGoal sessionId =>
    obtain ⟨⟨created, rfl⟩, row, hrow, hzero⟩ := h
    exact ⟨⟨created, rfl⟩, hinitial sessionId row hrow hzero (hleads sessionId rfl)⟩
  | appending sessionId =>
    obtain ⟨⟨created, rfl⟩, row, hrow, hzero⟩ := h
    exact ⟨⟨created, rfl⟩, hinitial sessionId row hrow hzero (hleads sessionId rfl)⟩
  | seeding sessionId event =>
    obtain ⟨row, hrow, hevent, hnew⟩ := h
    exact howing sessionId event row hrow hevent hnew (howed _ rfl)
  | settingWorkflowId sessionId event =>
    obtain ⟨row, hrow, hevent, hnew⟩ := h
    exact howing sessionId event row hrow hevent hnew (howed _ rfl)
  | enqueuing sessionId event =>
    obtain ⟨row, hrow, hevent, hnew⟩ := h
    exact howing sessionId event row hrow hevent hnew (howed _ rfl)
  | announcing sessionId event turn =>
    obtain ⟨row, hrow, hevent, hturn⟩ := h
    obtain ⟨row', hrow', hgrows, -, -⟩ := hkeeps sessionId row hrow
    exact ⟨row', hrow', getElem?_of_starts hgrows.events hevent, getElem?_of_starts hgrows.triggers hturn⟩
  | waking sessionId event turn =>
    obtain ⟨row, hrow, hevent, hturn⟩ := h
    obtain ⟨row', hrow', hgrows, -, -⟩ := hkeeps sessionId row hrow
    exact ⟨row', hrow', getElem?_of_starts hgrows.events hevent, getElem?_of_starts hgrows.triggers hturn⟩
  | accepted sessionId event turn =>
    obtain ⟨row, hrow, hevent, hturn, n, hn, hlt⟩ := h
    obtain ⟨row', hrow', hgrows, -, -⟩ := hkeeps sessionId row hrow
    exact ⟨row', hrow', getElem?_of_starts hgrows.events hevent, getElem?_of_starts hgrows.triggers hturn, n,
      hgrows.signals hn, hlt⟩
  | _ => trivial

theorem Stage.Knows.owed_lt {o : ℕ × ℕ} (h : stage.Knows sessions request) (ho : o ∈ stage.owes) :
    ∃ row, sessions[o.1]? = some row ∧ o.2 < row.events.length := by
  cases stage with
  | seeding | settingWorkflowId | enqueuing =>
    cases ho
    obtain ⟨row, hrow, hevent, -⟩ := h
    exact ⟨row, hrow, (List.getElem?_eq_some_iff.1 hevent).1⟩
  | _ => cases ho

theorem SessionRow.Ordered.of_eq (h : row.Ordered) (hevents : row'.events = row.events) (htriggers : row'.triggers = row.triggers) :
    row'.Ordered where
  clientEventIds := by
    rw [SessionRow.clientEventIds, hevents]
    exact h.clientEventIds
  initial := by
    rw [hevents]
    exact h.initial
  triggers := by
    rw [htriggers]
    exact h.triggers
  triggered := by
    rw [htriggers, hevents]
    exact h.triggered

theorem SessionRow.Ordered.append (h : row.Ordered) (hevents : row'.events = row.events ++ events)
    (htriggers : row'.triggers = row.triggers)
    (hids : (events.filterMap (·.clientEventId)).Nodup) (hnew : ∀ id ∈ events.filterMap (·.clientEventId), id ∉ row.clientEventIds)
    (hinitial : row.events.countP (·.isInitial) + events.countP (·.isInitial) ≤ 1) : row'.Ordered where
  clientEventIds := by
    rw [SessionRow.clientEventIds, hevents, List.filterMap_append]
    exact h.clientEventIds.append hids fun id hid hid' => hnew id hid' hid
  initial := by
    rw [hevents, List.countP_append]
    exact hinitial
  triggers := by
    rw [htriggers]
    exact h.triggers
  triggered event hmem := by
    rw [htriggers] at hmem
    rw [hevents, List.length_append]
    exact (h.triggered event hmem).trans_le (Nat.le_add_right _ _)

theorem SessionRow.Ordered.enqueue (h : row.Ordered) (hevents : row'.events = row.events)
    (htriggers : row'.triggers = row.triggers ++ [event]) (hnew : event ∉ row.triggers) (hlt : event < row.events.length) :
    row'.Ordered where
  clientEventIds := by
    rw [SessionRow.clientEventIds, hevents]
    exact h.clientEventIds
  initial := by
    rw [hevents]
    exact h.initial
  triggers := by
    rw [htriggers, ← List.concat_eq_append]
    exact h.triggers.concat hnew
  triggered i hmem := by
    rw [htriggers] at hmem
    rw [hevents]
    obtain hold | hlast := List.mem_append.1 hmem
    · exact h.triggered i hold
    · rw [List.mem_singleton.1 hlast]
      exact hlt

theorem forall_mem_modify {P : SessionRow → Prop} (h : ∀ row ∈ sessions, P row)
    (hf : ∀ row, sessions[sessionId]? = some row → P row → P (f row)) : ∀ row ∈ sessions.modify sessionId f, P row := by
  intro row' hmem
  obtain ⟨i, hi⟩ := List.mem_iff_getElem?.1 hmem
  rw [List.getElem?_modify] at hi
  obtain ⟨row, hrow, hrow'⟩ := Option.map_eq_some_iff.1 hi
  have hP := h row (List.mem_of_getElem? hrow)
  by_cases heq : sessionId = i
  · rw [if_pos heq] at hrow'
    rw [← hrow']
    exact hf row (heq ▸ hrow) hP
  · rw [if_neg heq] at hrow'
    rwa [← hrow']

theorem keys_modify (hf : ∀ row, (f row).createIdempotencyKey = row.createIdempotencyKey) {a : ℕ}
    (h : (sessions.modify sessionId f)[a]? = some row') :
    ∃ row, sessions[a]? = some row ∧ row.createIdempotencyKey = row'.createIdempotencyKey := by
  rw [List.getElem?_modify] at h
  obtain ⟨row, hrow, hrow'⟩ := Option.map_eq_some_iff.1 h
  refine ⟨row, hrow, ?_⟩
  rw [← hrow']
  split_ifs
  · exact (hf row).symm
  · rfl

theorem sessionOfKey_some (h : sessionOfKey sessions key = some sessionId) :
    ∃ row, sessions[sessionId]? = some row ∧ row.createIdempotencyKey = key := by
  obtain ⟨text, rfl, hfind⟩ := Option.bind_eq_some_iff.1 h
  obtain ⟨hlt, hkey, -⟩ := List.findIdx?_eq_some_iff_getElem.1 hfind
  exact ⟨sessions[sessionId], List.getElem?_eq_getElem hlt, of_decide_eq_true hkey⟩

theorem sessionOfKey_none {text : String} (h : sessionOfKey sessions (some text) = none) :
    ∀ row ∈ sessions, row.createIdempotencyKey ≠ some text := by
  intro row hrow heq
  have hnone := List.findIdx?_eq_none_iff.1 h row hrow
  rw [heq, decide_eq_true rfl] at hnone
  cases hnone

/-! ## A step -/

namespace StartState

theorem Sound.put (h : s.Sound) (hcall : s.calls.get i = some call)
    (hkeeps : Keeps s.sessions sessions' call.stage.owes call.leads) (hrows : ∀ row ∈ sessions', row.Ordered)
    (hkeys : ∀ (a b : ℕ) (row row' : SessionRow) (key : String), sessions'[a]? = some row → sessions'[b]? = some row' →
      row.createIdempotencyKey = some key → row'.createIdempotencyKey = some key → a = b)
    (hknows : stage'.Knows sessions' call.request)
    (hleads : ∀ sessionId ∈ ({ call with stage := stage' } : Call).leads, call.leads = some sessionId ∨
      (s.sessions[sessionId]? = none ∧
        ∃ row, sessions'[sessionId]? = some row ∧ row.createIdempotencyKey = call.request.createIdempotencyKey))
    (howes : ∀ o ∈ stage'.owes, call.stage.owes = some o ∨ ∀ row, s.sessions[o.1]? = some row → row.events.length ≤ o.2)
    (hexisting : ∀ sessionId, stage' = .existing sessionId → s.InHand sessionId ∧ call.leads = none ∧
      ∃ row, sessions'[sessionId]? = some row ∧ row.createIdempotencyKey = call.request.createIdempotencyKey)
    (hkept : ∀ sessionId ∈ call.leads, ({ call with stage := stage' } : Call).leads = some sessionId ∨ ¬ s.HandedOut sessionId) :
    ({ sessions := sessions', calls := s.calls.put i { call with stage := stage' } } : StartState).Sound := by
  have hmem : (i, call) ∈ s.calls := Slots.mem_of_get hcall
  have hrow : ∀ (sessionId : ℕ) (row : SessionRow), s.sessions[sessionId]? = some row →
      ∃ row' : SessionRow, sessions'[sessionId]? = some row' ∧ row'.createIdempotencyKey = row.createIdempotencyKey := by
    intro sessionId row hrow
    obtain ⟨row', hrow', hgrows, -, -⟩ := hkeeps sessionId row hrow
    exact ⟨row', hrow', hgrows.key⟩
  -- what another call leads and owes is not what this one does now
  have hleadsOther : ∀ e ∈ s.calls, e.1 ≠ i → ∀ sessionId ∈ ({ call with stage := stage' } : Call).leads,
      sessionId ∉ e.2.leads := by
    intro e he hne sessionId hlead hlead'
    obtain hold | ⟨hnew, -⟩ := hleads sessionId hlead
    · exact h.leadsApart (i, call) hmem e he (Ne.symm hne) sessionId hold hlead'
    · obtain ⟨row, hrow, -⟩ := h.leads e he sessionId hlead'
      rw [hnew] at hrow
      cases hrow
  have howesOther : ∀ e ∈ s.calls, e.1 ≠ i → ∀ o ∈ stage'.owes, o ∉ e.2.stage.owes := by
    intro e he hne o howed howed'
    obtain hold | hnew := howes o howed
    · exact h.owesApart (i, call) hmem e he (Ne.symm hne) o hold howed'
    · obtain ⟨row, hrow, hlt⟩ := (h.knows e he).owed_lt howed'
      exact absurd hlt (Nat.not_lt.2 (hnew row hrow))
  have hinHand : ∀ sessionId, s.InHand sessionId → s.HandedOut sessionId ∨ call.leads = none →
      ({ sessions := sessions', calls := s.calls.put i { call with stage := stage' } } : StartState).InHand sessionId := by
    rintro sessionId ⟨e, he, hlead⟩ hout
    by_cases hi : e.1 = i
    · rw [h.unique.eq_of_get hcall he hi] at hlead
      obtain hout | hnone := hout
      · exact ⟨_, Slots.mem_put_self, (hkept sessionId hlead).resolve_right fun hnot => hnot hout⟩
      · rw [hnone] at hlead
        cases hlead
    · exact ⟨e, Slots.mem_put_of_ne he hi, hlead⟩
  refine ⟨h.unique.put, hrows, hkeys, ?_, ?_, ?_, ?_, ?_⟩
  · intro e he
    obtain rfl | ⟨hne, he⟩ := Slots.mem_put_cases he
    · exact hknows
    · refine (h.knows e he).mono hkeeps ?_ ?_
      · exact fun o ho heq => h.owesApart (i, call) hmem e he (Ne.symm hne) o heq ho
      · exact fun sessionId hlead heq => h.leadsApart (i, call) hmem e he (Ne.symm hne) sessionId heq hlead
  · intro e he sessionId hlead
    obtain rfl | ⟨hne, he⟩ := Slots.mem_put_cases he
    · obtain hold | ⟨-, hnew⟩ := hleads sessionId hlead
      · obtain ⟨row, hrow₀, hkey⟩ := h.leads (i, call) hmem sessionId hold
        obtain ⟨row', hrow', hkey'⟩ := hrow sessionId row hrow₀
        exact ⟨row', hrow', hkey'.trans hkey⟩
      · exact hnew
    · obtain ⟨row, hrow₀, hkey⟩ := h.leads e he sessionId hlead
      obtain ⟨row', hrow', hkey'⟩ := hrow sessionId row hrow₀
      exact ⟨row', hrow', hkey'.trans hkey⟩
  · intro e he sessionId hstage
    obtain rfl | ⟨hne, he⟩ := Slots.mem_put_cases he
    · obtain ⟨hin, hnone, hnew⟩ := hexisting sessionId hstage
      exact ⟨hinHand sessionId hin (.inr hnone), hnew⟩
    · obtain ⟨hin, row, hrow₀, hkey⟩ := h.existing e he sessionId hstage
      obtain ⟨row', hrow', hkey'⟩ := hrow sessionId row hrow₀
      exact ⟨hinHand sessionId hin (.inl ⟨e, he, hstage⟩), row', hrow', hkey'.trans hkey⟩
  · intro e he e' he' hne o ho ho'
    obtain rfl | ⟨hi, he⟩ := Slots.mem_put_cases he
    · obtain rfl | ⟨hi', he'⟩ := Slots.mem_put_cases he'
      · exact hne rfl
      · exact howesOther e' he' hi' o ho ho'
    · obtain rfl | ⟨hi', he'⟩ := Slots.mem_put_cases he'
      · exact howesOther e he hi o ho' ho
      · exact h.owesApart e he e' he' hne o ho ho'
  · intro e he e' he' hne sessionId hlead hlead'
    obtain rfl | ⟨hi, he⟩ := Slots.mem_put_cases he
    · obtain rfl | ⟨hi', he'⟩ := Slots.mem_put_cases he'
      · exact hne rfl
      · exact hleadsOther e' he' hi' sessionId hlead hlead'
    · obtain rfl | ⟨hi', he'⟩ := Slots.mem_put_cases he'
      · exact hleadsOther e he hi sessionId hlead' hlead
      · exact h.leadsApart e he e' he' hne sessionId hlead hlead'

theorem Sound.putModify (h : s.Sound) (hcall : s.calls.get i = some call)
    (hkeeps : Keeps s.sessions (s.sessions.modify sessionId f) call.stage.owes call.leads)
    (hkey : ∀ row, (f row).createIdempotencyKey = row.createIdempotencyKey)
    (hrows : ∀ row, s.sessions[sessionId]? = some row → row.Ordered → (f row).Ordered)
    (hknows : stage'.Knows (s.sessions.modify sessionId f) call.request)
    (hleads : ({ call with stage := stage' } : Call).leads = call.leads)
    (howes : ∀ o ∈ stage'.owes, call.stage.owes = some o ∨ ∀ row, s.sessions[o.1]? = some row → row.events.length ≤ o.2)
    (hexisting : ∀ sessionId, stage' ≠ .existing sessionId) :
    ({ sessions := s.sessions.modify sessionId f, calls := s.calls.put i { call with stage := stage' } } : StartState).Sound := by
  refine h.put hcall hkeeps (forall_mem_modify h.rows hrows) ?_ hknows ?_ howes ?_ ?_
  · intro a b row row' key ha hb hrow hrow'
    obtain ⟨row₀, ha₀, hkey₀⟩ := keys_modify hkey ha
    obtain ⟨row₁, hb₁, hkey₁⟩ := keys_modify hkey hb
    exact h.keys a b row₀ row₁ key ha₀ hb₁ (hkey₀.trans hrow) (hkey₁.trans hrow')
  · intro sessionId hlead
    rw [hleads] at hlead
    exact .inl hlead
  · exact fun sessionId hstage => absurd hstage (hexisting sessionId)
  · intro sessionId hlead
    rw [hleads]
    exact .inl hlead

theorem Sound.throw (h : s.Sound) (hcall : s.calls.get i = some call) (hfree : ∀ sessionId ∈ call.leads, ¬ s.HandedOut sessionId) :
    ({ s with calls := s.calls.put i { call with stage := .thrown } } : StartState).Sound := by
  refine h.put hcall .refl h.rows h.keys trivial ?_ (fun o ho => by cases ho) (fun _ hstage => by cases hstage) ?_
  · intro sessionId hlead
    cases hrequest : call.request <;> rw [hrequest] at hlead <;> cases hlead
  · exact fun sessionId hlead => .inr (hfree sessionId hlead)

theorem Sound.answer (h : s.Sound) (hcall : s.calls.get i = some call) (hleads : call.leads = none)
    (hkey : sessionOfKey s.sessions call.request.createIdempotencyKey = some sessionId) (hin : s.InHand sessionId) :
    ({ s with calls := s.calls.put i { call with stage := .existing sessionId } } : StartState).Sound := by
  refine h.put hcall .refl h.rows h.keys trivial ?_ (fun o ho => by cases ho) ?_ ?_
  · intro sessionId hlead
    cases hrequest : call.request <;> rw [hrequest] at hlead <;> cases hlead
  · intro sessionId' hstage
    obtain rfl := Stage.existing.inj hstage
    exact ⟨hin, hleads, sessionOfKey_some hkey⟩
  · intro sessionId hlead
    rw [hleads] at hlead
    cases hlead

end StartState

/-! ## The events that are written -/

theorem initialEvents_clientEventIds (request : CreateRequest) :
    request.initialEvents.filterMap (·.clientEventId) = request.clientEventId.toList := by
  unfold CreateRequest.initialEvents CreateRequest.openingEvents
  cases request.goal <;> cases hid : request.clientEventId <;> simp [SessionEvent.clientEventId, Request.userMessage, hid]

theorem initialEvents_initial (request : CreateRequest) : request.initialEvents.countP (·.isInitial) = 1 := by
  unfold CreateRequest.initialEvents CreateRequest.openingEvents
  cases request.goal <;> simp [SessionEvent.isInitial, Request.userMessage]

theorem initialEvents_getElem? (request : CreateRequest) :
    request.initialEvents[request.openingEvents.length]? = some (Request.userMessage (.create request)) := by
  unfold CreateRequest.initialEvents
  rw [List.getElem?_append_right le_rfl, Nat.sub_self]
  rfl

theorem MessageRequest.post_spec (request : MessageRequest) (row : SessionRow) :
    (request.post row).createIdempotencyKey = row.createIdempotencyKey ∧ (request.post row).triggers = row.triggers ∧
      (request.post row).signals = row.signals ∧
      ∃ added, (request.post row).events = row.events ++ added ∧ added[0]? = some (Request.userMessage (.message request)) ∧
        added.filterMap (·.clientEventId) = request.clientEventId.toList ∧ added.countP (·.isInitial) = 0 := by
  unfold MessageRequest.post
  split_ifs
  · refine ⟨rfl, rfl, rfl, _, rfl, rfl, ?_, ?_⟩
    · cases hid : request.clientEventId <;> simp [SessionEvent.clientEventId, Request.userMessage, hid]
    · simp [SessionEvent.isInitial, Request.userMessage]
  · refine ⟨rfl, rfl, rfl, _, rfl, rfl, ?_, ?_⟩
    · cases hid : request.clientEventId <;> simp [SessionEvent.clientEventId, Request.userMessage, hid]
    · simp [SessionEvent.isInitial, Request.userMessage]

theorem nodup_toList (clientEventId : Option String) : clientEventId.toList.Nodup := by
  cases clientEventId <;> simp

theorem not_mem_of_not_refuses {clientEventId : Option String} (h : ¬ row.refuses clientEventId) :
    ∀ id ∈ clientEventId.toList, id ∉ row.clientEventIds := by
  intro id hid hmem
  obtain rfl := Option.mem_toList.1 hid
  exact h (List.contains_iff_mem.2 hmem)

namespace StartState

variable {created : CreateRequest}

theorem Sound.insert (h : s.Sound)
    (hcall : s.calls.get i = some { request := .create created, stage := .inserting })
    (hfree : sessionOfKey s.sessions created.createIdempotencyKey = none)
    (hstage : stage' = .creatingGoal s.sessions.length ∨ stage' = .appending s.sessions.length) :
    ({ sessions := s.sessions ++ [created.row], calls := s.calls.put i { request := .create created, stage := stage' } } :
      StartState).Sound := by
  have hlast : (s.sessions ++ [created.row])[s.sessions.length]? = some created.row := List.getElem?_concat_length
  have hkeeps : Keeps s.sessions (s.sessions ++ [created.row]) none none := by
    intro sessionId row hrow
    exact ⟨row, getElem?_of_starts (List.prefix_append _ _) hrow, .refl, fun _ _ hmem => .inl hmem, .inl rfl⟩
  have hordered : created.row.Ordered := ⟨List.nodup_nil, Nat.zero_le 1, List.nodup_nil, List.forall_mem_nil _⟩
  have hleads : ({ request := .create created, stage := stage' } : Call).leads = some s.sessions.length := by
    obtain rfl | rfl := hstage <;> rfl
  have howes : stage'.owes = none := by
    obtain rfl | rfl := hstage <;> rfl
  -- a session that was there has not the key
  have hother : ∀ (a : ℕ) (row : SessionRow) (key : String), s.sessions[a]? = some row → row.createIdempotencyKey = some key →
      created.createIdempotencyKey ≠ some key := by
    intro a row key ha hrow hkey
    rw [hkey] at hfree
    exact sessionOfKey_none hfree row (List.mem_of_getElem? ha) hrow
  have hcases : ∀ (a : ℕ) (row : SessionRow), (s.sessions ++ [created.row])[a]? = some row →
      s.sessions[a]? = some row ∨ (a = s.sessions.length ∧ row = created.row) := by
    intro a row ha
    by_cases hlt : a < s.sessions.length
    · rw [List.getElem?_append_left hlt] at ha
      exact .inl ha
    · have heq : a = s.sessions.length := by
        have hbound := (List.getElem?_eq_some_iff.1 ha).1
        rw [List.length_append, List.length_singleton] at hbound
        omega
      rw [heq, hlast] at ha
      exact .inr ⟨heq, (Option.some.inj ha).symm⟩
  refine h.put hcall hkeeps ?_ ?_ ?_ ?_ (fun o ho => by rw [howes] at ho; cases ho) ?_ (fun _ hlead => by cases hlead)
  · exact List.forall_mem_append.2 ⟨h.rows, List.forall_mem_singleton.2 hordered⟩
  · intro a b row row' key ha hb hrow hrow'
    obtain ha | ⟨rfl, rfl⟩ := hcases a row ha
    · obtain hb | ⟨rfl, rfl⟩ := hcases b row' hb
      · exact h.keys a b row row' key ha hb hrow hrow'
      · exact absurd hrow' (hother a row key ha hrow)
    · obtain hb | ⟨rfl, rfl⟩ := hcases b row' hb
      · exact absurd hrow (hother b row' key hb hrow')
      · rfl
  · obtain rfl | rfl := hstage
    · exact ⟨⟨created, rfl⟩, created.row, hlast, rfl⟩
    · exact ⟨⟨created, rfl⟩, created.row, hlast, rfl⟩
  · intro sessionId hlead
    rw [hleads] at hlead
    cases hlead
    exact .inr ⟨List.getElem?_eq_none le_rfl, created.row, hlast, rfl⟩
  · intro sessionId hexisting
    obtain rfl | rfl := hstage <;> cases hexisting

theorem Sound.append (h : s.Sound)
    (hcall : s.calls.get i = some { request := .create created, stage := .appending sessionId })
    (hrow : s.sessions[sessionId]? = some row) (hnew : ¬ row.refuses created.clientEventId)
    (hstage : stage' = .seeding sessionId (row.events.length + created.openingEvents.length) ∨
      stage' = .settingWorkflowId sessionId (row.events.length + created.openingEvents.length)) :
    ({ sessions := s.sessions.modify sessionId (·.append created.initialEvents)
       calls := s.calls.put i { request := .create created, stage := stage' } } : StartState).Sound := by
  obtain ⟨-, row₀, hrow₀, hzero⟩ := h.knows _ (Slots.mem_of_get hcall)
  obtain rfl := Option.some.inj (hrow₀.symm.trans hrow)
  have hordered := h.rows row₀ (List.mem_of_getElem? hrow)
  have hafter : (s.sessions.modify sessionId (·.append created.initialEvents))[sessionId]? =
      some (row₀.append created.initialEvents) := by
    rw [List.getElem?_modify, hrow]
    simp
  have hevent : (row₀.append created.initialEvents).events[row₀.events.length + created.openingEvents.length]? =
      some (Request.userMessage (.create created)) := by
    simp only [SessionRow.append]
    rw [List.getElem?_append_right (Nat.le_add_right _ _), Nat.add_sub_cancel_left]
    exact initialEvents_getElem? created
  have huntriggered : row₀.events.length + created.openingEvents.length ∉ (row₀.append created.initialEvents).triggers :=
    fun hmem => absurd (hordered.triggered _ hmem) (by omega)
  have howes : stage'.owes = some (sessionId, row₀.events.length + created.openingEvents.length) := by
    obtain rfl | rfl := hstage <;> rfl
  refine h.putModify hcall ?_ (fun _ => rfl) ?_ ?_ ?_ ?_ ?_
  · exact keeps_modify_append (fun _ => rfl) (fun _ _ => ⟨created.initialEvents, rfl, .inr rfl⟩) (fun _ => rfl) (fun _ => rfl)
  · intro row' hrow' hordered'
    obtain rfl := Option.some.inj (hrow'.symm.trans hrow)
    refine hordered'.append rfl rfl ?_ ?_ ?_
    · rw [initialEvents_clientEventIds]
      exact nodup_toList _
    · rw [initialEvents_clientEventIds]
      exact not_mem_of_not_refuses hnew
    · rw [hzero, initialEvents_initial]
  · obtain rfl | rfl := hstage
    · exact ⟨_, hafter, hevent, huntriggered⟩
    · exact ⟨_, hafter, hevent, huntriggered⟩
  · obtain rfl | rfl := hstage <;> rfl
  · intro o ho
    rw [howes] at ho
    cases ho
    refine .inr fun row' hrow' => ?_
    obtain rfl := Option.some.inj (hrow'.symm.trans hrow)
    exact Nat.le_add_right _ _
  · obtain rfl | rfl := hstage
    · exact fun _ hexisting => by cases hexisting
    · exact fun _ hexisting => by cases hexisting

theorem Sound.post {request : MessageRequest} (h : s.Sound)
    (hcall : s.calls.get i = some { request := .message request, stage := .posting })
    (hrow : s.sessions[request.sessionId]? = some row) (hnew : ¬ row.refuses request.clientEventId) :
    ({ sessions := s.sessions.modify request.sessionId request.post
       calls := s.calls.put i { request := .message request, stage := .enqueuing request.sessionId row.events.length } } :
      StartState).Sound := by
  have hordered := h.rows row (List.mem_of_getElem? hrow)
  refine h.putModify hcall ?_ (fun row => (request.post_spec row).1) ?_ ?_ rfl ?_ (fun _ hexisting => by cases hexisting)
  · refine keeps_modify_append (fun row => (request.post_spec row).1) (fun row _ => ?_) (fun row => (request.post_spec row).2.1)
      (fun row => (request.post_spec row).2.2.1)
    obtain ⟨-, -, -, added, hevents, -, -, hinitial⟩ := request.post_spec row
    exact ⟨added, hevents, .inl hinitial⟩
  · intro row' hrow' hordered'
    obtain rfl := Option.some.inj (hrow'.symm.trans hrow)
    obtain ⟨-, htriggers, -, added, hevents, -, hids, hinitial⟩ := request.post_spec row'
    refine hordered'.append hevents htriggers ?_ ?_ ?_
    · rw [hids]
      exact nodup_toList _
    · rw [hids]
      exact not_mem_of_not_refuses hnew
    · rw [hinitial]
      exact hordered'.initial
  · obtain ⟨-, htriggers, -, added, hevents, hfirst, -, -⟩ := request.post_spec row
    refine ⟨request.post row, ?_, ?_, ?_⟩
    · rw [List.getElem?_modify, hrow]
      simp
    · rw [hevents, List.getElem?_append_right le_rfl, Nat.sub_self]
      exact hfirst
    · rw [htriggers]
      exact fun hmem => absurd (hordered.triggered _ hmem) (lt_irrefl _)
  · intro o ho
    cases ho
    refine .inr fun row' hrow' => ?_
    obtain rfl := Option.some.inj (hrow'.symm.trans hrow)
    exact le_rfl

theorem Sound.enqueue (h : s.Sound) (hcall : s.calls.get i = some { request, stage := .enqueuing sessionId event })
    (hrow : s.sessions[sessionId]? = some row) (prompt : String) :
    ({ sessions := s.sessions.modify sessionId fun row =>
        { row with turns := row.turns ++ [{ triggerEventId := event, prompt, pending := true }] }
       calls := s.calls.put i { request, stage := .announcing sessionId event row.turns.length } } : StartState).Sound := by
  obtain ⟨row₀, hrow₀, hevent, hnew⟩ := h.knows _ (Slots.mem_of_get hcall)
  obtain rfl := Option.some.inj (hrow₀.symm.trans hrow)
  have htriggers : ∀ row : SessionRow, SessionRow.triggers
      { row with turns := row.turns ++ [{ triggerEventId := event, prompt, pending := true }] } = row.triggers ++ [event] :=
    fun row => by simp [SessionRow.triggers]
  refine h.putModify hcall ?_ (fun _ => rfl) ?_ ?_ ?_ (fun o ho => by cases ho) (fun _ hexisting => by cases hexisting)
  · refine keeps_modify fun row _ => ⟨⟨rfl, List.prefix_rfl, ?_, List.Subset.refl _⟩, fun e _ hmem => ?_, .inl rfl⟩
    · rw [htriggers]
      exact List.prefix_append _ _
    · rw [htriggers] at hmem
      obtain hold | hlast := List.mem_append.1 hmem
      · exact .inl hold
      · rw [List.mem_singleton.1 hlast]
        exact .inr rfl
  · intro row' hrow' hordered
    obtain rfl := Option.some.inj (hrow'.symm.trans hrow)
    exact hordered.enqueue rfl (htriggers row') hnew (List.getElem?_eq_some_iff.1 hevent).1
  · refine ⟨{ row₀ with turns := row₀.turns ++ [{ triggerEventId := event, prompt, pending := true }] }, ?_, hevent, ?_⟩
    · rw [List.getElem?_modify, hrow]
      simp
    · rw [htriggers]
      have hlength : row₀.turns.length = row₀.triggers.length := by simp [SessionRow.triggers]
      rw [hlength, List.getElem?_concat_length]
  · cases request <;> rfl

/-- **A step of a call.** -/
theorem Sound.advance {swapped : Bool} (h : s.Sound) (hcall : s.calls.get i = some call)
    (hfinds : ∀ sessionId ∈ call.finds s.sessions, s.InHand sessionId)
    (hfails : call.fails s.sessions swapped → ∀ sessionId ∈ call.leads, ¬ s.HandedOut sessionId)
    (hadvance : call.advance s.sessions swapped = some (sessions', stage')) :
    ({ sessions := sessions', calls := s.calls.put i { call with stage := stage' } } : StartState).Sound := by
  have hknows := h.knows _ (Slots.mem_of_get hcall)
  obtain ⟨request, stage⟩ := call
  cases stage with
  | looking =>
    cases request with
    | message request => cases hadvance
    | create created =>
      simp only [Call.advance] at hadvance
      split at hadvance
      · rename_i sessionId hkey
        cases hadvance
        exact h.answer hcall rfl hkey (hfinds sessionId hkey)
      · cases hadvance
        exact h.put hcall .refl h.rows h.keys trivial (fun _ hlead => by cases hlead) (fun o ho => by cases ho)
          (fun _ hstage => by cases hstage) (fun _ hlead => by cases hlead)
  | inserting =>
    cases request with
    | message request => cases hadvance
    | create created =>
      simp only [Call.advance] at hadvance
      split at hadvance
      · rename_i sessionId hkey
        cases hadvance
        exact h.answer hcall rfl hkey (hfinds sessionId hkey)
      · rename_i hkey
        cases hadvance
        refine h.insert hcall hkey ?_
        split_ifs
        · exact .inl rfl
        · exact .inr rfl
  | creatingGoal sessionId =>
    cases request with
    | message request => cases hadvance
    | create created =>
      cases hadvance
      obtain ⟨-, row, hrow, hzero⟩ := hknows
      refine h.putModify hcall ?_ (fun _ => rfl) (fun _ _ hordered => hordered.of_eq rfl rfl) ?_ rfl
        (fun o ho => by cases ho) (fun _ hexisting => by cases hexisting)
      · exact keeps_modify_aside (fun _ => rfl) (fun _ => rfl) (fun _ => rfl) (fun _ => List.Subset.refl _)
      · refine ⟨⟨created, rfl⟩, { row with goal := created.goal }, ?_, hzero⟩
        rw [List.getElem?_modify, hrow]
        simp
  | appending sessionId =>
    cases request with
    | message request => cases hadvance
    | create created =>
      obtain ⟨-, row, hrow, -⟩ := hknows
      simp only [Call.advance, hrow] at hadvance
      split_ifs at hadvance with hrefuses htarget
      · cases hadvance
        refine h.throw hcall (hfails ?_)
        simp only [Call.fails, hrow, Option.any_some]
        exact hrefuses
      · cases hadvance
        exact h.append hcall hrow hrefuses (.inl rfl)
      · cases hadvance
        exact h.append hcall hrow hrefuses (.inr rfl)
  | seeding sessionId event =>
    cases request with
    | message request => cases hadvance
    | create created =>
      obtain ⟨row, hrow, hevent, hnew⟩ := hknows
      simp only [Call.advance] at hadvance
      split_ifs at hadvance with hrefused
      · cases hadvance
        exact h.throw hcall (hfails hrefused)
      · cases hadvance
        refine h.putModify hcall ?_ (fun _ => rfl) (fun _ _ hordered => hordered.of_eq rfl rfl) ?_ rfl
          (fun o ho => .inl ho) (fun _ hexisting => by cases hexisting)
        · exact keeps_modify_aside (fun _ => rfl) (fun _ => rfl) (fun _ => rfl) (fun _ => List.Subset.refl _)
        · refine ⟨{ row with activeSandboxId := created.seedTargetSandbox }, ?_, hevent, hnew⟩
          rw [List.getElem?_modify, hrow]
          simp
  | settingWorkflowId sessionId event =>
    cases request with
    | message request => cases hadvance
    | create created =>
      cases hadvance
      obtain ⟨row, hrow, hevent, hnew⟩ := hknows
      refine h.putModify hcall ?_ (fun _ => rfl) (fun _ _ hordered => hordered.of_eq rfl rfl) ?_ rfl
        (fun o ho => .inl ho) (fun _ hexisting => by cases hexisting)
      · exact keeps_modify_aside (fun _ => rfl) (fun _ => rfl) (fun _ => rfl) (fun _ => List.Subset.refl _)
      · refine ⟨{ row with temporalWorkflowId := some (workflowIdForSession sessionId) }, ?_, hevent, hnew⟩
        rw [List.getElem?_modify, hrow]
        simp
  | posting =>
    cases request with
    | create created => cases hadvance
    | message request =>
      simp only [Call.advance] at hadvance
      split at hadvance
      · cases hadvance
        exact h.throw hcall fun _ hlead => by cases hlead
      · rename_i row hrow
        split_ifs at hadvance with hrefused
        · cases hadvance
          exact h.throw hcall fun _ hlead => by cases hlead
        · cases hadvance
          rw [Bool.or_eq_true, not_or] at hrefused
          exact h.post hcall hrow hrefused.2
  | enqueuing sessionId event =>
    obtain ⟨row, hrow, -, -⟩ := hknows
    simp only [Call.advance, hrow] at hadvance
    cases hadvance
    exact h.enqueue hcall hrow request.text
  | announcing sessionId event turn =>
    simp only [Call.advance] at hadvance
    cases hadvance
    obtain ⟨row, hrow, hevent, hturn⟩ := hknows
    refine h.putModify hcall ?_ (fun _ => rfl) ?_ ?_ ?_ (fun o ho => by cases ho) (fun _ hexisting => by cases hexisting)
    · exact keeps_modify_append (fun _ => rfl) (fun _ _ => ⟨_, rfl, .inl rfl⟩) (fun _ => rfl) (fun _ => rfl)
    · intro row' _ hordered
      exact hordered.append rfl rfl List.nodup_nil (List.forall_mem_nil _) hordered.initial
    · refine ⟨row.append [.turnQueued turn event], ?_, getElem?_of_starts (List.prefix_append _ _) hevent, hturn⟩
      rw [List.getElem?_modify, hrow]
      simp
    · cases request <;> rfl
  | waking sessionId event turn =>
    simp only [Call.advance] at hadvance
    cases hadvance
    obtain ⟨row, hrow, hevent, hturn⟩ := hknows
    refine h.putModify hcall ?_ (fun _ => rfl) (fun _ _ hordered => hordered.of_eq rfl rfl) ?_ ?_ (fun o ho => by cases ho)
      (fun _ hexisting => by cases hexisting)
    · exact keeps_modify_aside (fun _ => rfl) (fun _ => rfl) (fun _ => rfl) (fun _ => List.subset_append_left _ _)
    · refine ⟨{ row with signals := row.signals ++ [row.turns.length] }, ?_, hevent, hturn, row.turns.length,
        List.mem_append_right _ (List.mem_singleton_self _), ?_⟩
      · rw [List.getElem?_modify, hrow]
        simp
      · have hlt := (List.getElem?_eq_some_iff.1 hturn).1
        rwa [SessionRow.triggers, List.length_map] at hlt
    · cases request <;> rfl
  | _ => cases request <;> cases hadvance

theorem Sound.begin (h : s.Sound) (hget : s.calls.get i = none) (hstage : stage = .looking ∨ stage = .posting) :
    ({ s with calls := s.calls.put i { request, stage } } : StartState).Sound := by
  have hfree : ∀ e ∈ s.calls, e.1 ≠ i := by
    intro e he heq
    have hnone := List.find?_eq_none.1 (Option.map_eq_none_iff.1 hget) e he
    exact hnone (decide_eq_true heq)
  have hleads : ({ request, stage } : Call).leads = none := by
    obtain rfl | rfl := hstage <;> cases request <;> rfl
  have howes : stage.owes = none := by
    obtain rfl | rfl := hstage <;> rfl
  refine ⟨h.unique.put, h.rows, h.keys, ?_, ?_, ?_, ?_, ?_⟩
  · intro e he
    obtain rfl | ⟨-, he⟩ := Slots.mem_put_cases he
    · obtain rfl | rfl := hstage <;> trivial
    · exact h.knows e he
  · intro e he sessionId hlead
    obtain rfl | ⟨-, he⟩ := Slots.mem_put_cases he
    · rw [hleads] at hlead
      cases hlead
    · exact h.leads e he sessionId hlead
  · intro e he sessionId hexisting
    obtain rfl | ⟨-, he⟩ := Slots.mem_put_cases he
    · obtain rfl | rfl := hstage <;> cases hexisting
    · obtain ⟨⟨e', he', hlead⟩, hrow⟩ := h.existing e he sessionId hexisting
      exact ⟨⟨e', Slots.mem_put_of_ne he' (hfree e' he'), hlead⟩, hrow⟩
  · intro e he e' he' hne o ho ho'
    obtain rfl | ⟨-, he⟩ := Slots.mem_put_cases he
    · rw [howes] at ho
      cases ho
    · obtain rfl | ⟨-, he'⟩ := Slots.mem_put_cases he'
      · rw [howes] at ho'
        cases ho'
      · exact h.owesApart e he e' he' hne o ho ho'
  · intro e he e' he' hne sessionId hlead hlead'
    obtain rfl | ⟨-, he⟩ := Slots.mem_put_cases he
    · rw [hleads] at hlead
      cases hlead
    · obtain rfl | ⟨-, he'⟩ := Slots.mem_put_cases he'
      · rw [hleads] at hlead'
        cases hlead'
      · exact h.leadsApart e he e' he' hne sessionId hlead hlead'

theorem Sound.update (h : s.Sound) (hkeeps : Keeps s.sessions (s.sessions.modify sessionId f) none none)
    (hkey : ∀ row, (f row).createIdempotencyKey = row.createIdempotencyKey) (hrows : ∀ row, row.Ordered → (f row).Ordered) :
    (s.update sessionId f).Sound := by
  have hrow : ∀ (sessionId' : ℕ) (row : SessionRow) (key : Option String), s.sessions[sessionId']? = some row →
      row.createIdempotencyKey = key →
      ∃ row' : SessionRow, (s.sessions.modify sessionId f)[sessionId']? = some row' ∧ row'.createIdempotencyKey = key := by
    intro sessionId' row key hrow hkey
    obtain ⟨row', hrow', hgrows, -, -⟩ := hkeeps sessionId' row hrow
    exact ⟨row', hrow', hgrows.key.trans hkey⟩
  refine ⟨h.unique, forall_mem_modify h.rows fun row _ => hrows row, ?_, ?_, ?_, ?_, h.owesApart, h.leadsApart⟩
  · intro a b row row' key ha hb hrow hrow'
    obtain ⟨row₀, ha₀, hkey₀⟩ := keys_modify hkey ha
    obtain ⟨row₁, hb₁, hkey₁⟩ := keys_modify hkey hb
    exact h.keys a b row₀ row₁ key ha₀ hb₁ (hkey₀.trans hrow) (hkey₁.trans hrow')
  · exact fun e he => (h.knows e he).mono hkeeps (fun _ _ heq => by cases heq) (fun _ _ heq => by cases heq)
  · intro e he sessionId' hlead
    obtain ⟨row, hrow₀, hkey⟩ := h.leads e he sessionId' hlead
    exact hrow sessionId' row _ hrow₀ hkey
  · intro e he sessionId' hexisting
    obtain ⟨hin, row, hrow₀, hkey⟩ := h.existing e he sessionId' hexisting
    exact ⟨hin, hrow sessionId' row _ hrow₀ hkey⟩

/-- **The step.** -/
theorem Sound.step {e : StartEvent} (hstep : startSteps s e s') (h : s.Sound) (hok : s.Carried e) : s'.Sound := by
  have hopen : ∀ i call, s.open? i call = some s' → call.stage = .looking ∨ call.stage = .posting → s'.Sound := by
    intro i call hopen hstage
    unfold open? at hopen
    split at hopen
    · cases hopen
    · rename_i hget
      cases hopen
      exact h.begin hget hstage
  cases e with
  | create i request => exact hopen i _ hstep (.inl rfl)
  | message i request => exact hopen i _ hstep (.inr rfl)
  | advance i swapped =>
    obtain ⟨call, hcall, hrest⟩ := Option.bind_eq_some_iff.1 hstep
    obtain ⟨⟨sessions', stage'⟩, hadvance, hs'⟩ := Option.bind_eq_some_iff.1 hrest
    cases hs'
    obtain ⟨hfinds, hfails⟩ := hok call hcall
    exact h.advance hcall hfinds hfails hadvance
  | stop i =>
    obtain ⟨call, hcall, hrest⟩ := Option.bind_eq_some_iff.1 hstep
    split_ifs at hrest
    cases hrest
    exact h.throw hcall (hok call hcall)
  | setSessionStatus sessionId status =>
    cases hstep
    refine h.update ?_ (fun _ => rfl) fun _ hordered => hordered.of_eq rfl rfl
    exact keeps_modify_aside (fun _ => rfl) (fun _ => rfl) (fun _ => rfl) (fun _ => List.Subset.refl _)
  | finishTurn sessionId turn =>
    have htriggers : ∀ row : SessionRow, SessionRow.triggers
        { row with turns := row.turns.modify turn fun turn => { turn with pending := false } } = row.triggers := by
      intro row
      refine List.ext_getElem? fun j => ?_
      simp only [SessionRow.triggers]
      rw [List.getElem?_map, List.getElem?_map, List.getElem?_modify]
      cases row.turns[j]? with
      | none => rfl
      | some t => by_cases h : turn = j <;> simp [h]
    cases hstep
    refine h.update ?_ (fun _ => rfl) fun row hordered => hordered.of_eq rfl (htriggers row)
    exact keeps_modify_aside (fun _ => rfl) (fun _ => rfl) htriggers (fun _ => List.Subset.refl _)
  | continueGoal sessionId =>
    cases hstep
    refine h.update ?_ (fun _ => rfl) fun row hordered => ?_
    · refine keeps_modify fun row _ => ⟨⟨rfl, List.prefix_append _ _, ?_, List.Subset.refl _⟩, fun e hlt hmem => .inl ?_, .inl ?_⟩
      · simp only [SessionRow.triggers, List.map_append]
        exact List.prefix_append _ _
      · simp only [SessionRow.triggers, List.map_append, List.map_cons, List.map_nil] at hmem
        obtain hold | hlast := List.mem_append.1 hmem
        · exact hold
        · rw [List.mem_singleton.1 hlast] at hlt
          exact absurd hlt (lt_irrefl _)
      · simp [SessionEvent.isInitial]
    · have hmiddle : (row.append [.goalContinuation]).Ordered :=
        hordered.append rfl rfl List.nodup_nil (List.forall_mem_nil _) hordered.initial
      have hnew : row.events.length ∉ (row.append [.goalContinuation]).triggers :=
        fun hmem => absurd (hordered.triggered _ hmem) (lt_irrefl _)
      have hlt : row.events.length < (row.append [.goalContinuation]).events.length := by simp [SessionRow.append]
      exact hmiddle.enqueue rfl (by simp [SessionRow.triggers, SessionRow.append]) hnew hlt

theorem Sound.empty : StartState.empty.Sound where
  unique := Slots.Unique.nil
  rows _ hmem := absurd hmem List.not_mem_nil
  keys a b row row' key ha := by simp [StartState.empty] at ha
  knows _ hmem := absurd hmem List.not_mem_nil
  leads _ hmem := absurd hmem List.not_mem_nil
  existing _ hmem := absurd hmem List.not_mem_nil
  owesApart _ hmem := absurd hmem List.not_mem_nil
  leadsApart _ hmem := absurd hmem List.not_mem_nil

theorem Sound.settled (h : s.Sound) : s.Settled where
  keys := h.keys
  accepted := by
    intro e he sessionId event turn hstage
    have hknows := h.knows e he
    rw [hstage] at hknows
    obtain ⟨row, hrow, hevent, hturn, hsignal⟩ := hknows
    have hordered := h.rows row (List.mem_of_getElem? hrow)
    have hmem : e.2.request.userMessage ∈ row.events := List.mem_of_getElem? hevent
    refine ⟨row, hrow, hevent, ?_, ?_, hturn, ?_, hsignal⟩
    · intro id hid
      exact List.count_eq_one_of_mem hordered.clientEventIds (List.mem_filterMap.2 ⟨_, hmem, hid⟩)
    · intro hinitial
      exact le_antisymm hordered.initial (List.countP_pos_iff.2 ⟨_, hmem, hinitial⟩)
    · exact List.count_eq_one_of_mem hordered.triggers (List.mem_of_getElem? hturn)
  existing := by
    intro e he sessionId hstage hover
    obtain ⟨⟨e', he', hlead⟩, row, hrow, hkey⟩ := h.existing e he sessionId hstage
    obtain ⟨row', hrow', hkey'⟩ := h.leads e' he' sessionId hlead
    cases hrow'.symm.trans hrow
    have hsame := hkey'.symm.trans hkey
    refine ⟨e', he', hsame, hlead, ?_⟩
    -- of the calls that lead a session only an accepted one is over
    have hend := hover e' he' hsame
    obtain ⟨j, request, stage⟩ := e'
    cases request with
    | message request => cases hlead
    | create created =>
      cases stage with
      | accepted sessionId' event turn =>
        cases hlead
        exact ⟨event, turn, rfl⟩
      | existing | thrown => cases hlead
      | _ => cases hend

end StartState

/-- **Every accepted message has one turn and one wake**, in every run in which no create leaves a session that
another was answered with. -/
theorem accepted_messages_have_one_turn {es : List StartEvent} (hrun : Run (Restrict startSteps StartState.Carried) .empty es s) :
    s.Settled :=
  (hrun.invariant (fun _ _ _ hstep h => h.step hstep.1 hstep.2) StartState.Sound.empty).settled

def goesOn (i n : ℕ) : List StartEvent := List.replicate n (.advance i true)

def keyed : CreateRequest where
  createIdempotencyKey := some "key"
  initialMessage := "hello"
  clientEventId := none
  goal := none
  seedTargetSandbox := none
  withoutSandbox := false

/-- Two creates race for one key: the second is answered with the session while the first is still at work. -/
theorem accepted_messages_have_one_turn_raced : ∃ s, Run (Restrict startSteps StartState.Carried) .empty
        (.create 0 keyed :: .create 1 keyed :: goesOn 0 1 ++ goesOn 1 1 ++ goesOn 0 1 ++ goesOn 1 1 ++ goesOn 0 5) s ∧
      (s.calls.get 0).map (·.stage) = some (.accepted 0 1 0) ∧ (s.calls.get 1).map (·.stage) = some (.existing 0) ∧
      s.Settled := by
  obtain ⟨s, hplay, hfirst, hsecond⟩ : ∃ s, play (guarded StartState.step StartState.Carried) .empty
        (.create 0 keyed :: .create 1 keyed :: goesOn 0 1 ++ goesOn 1 1 ++ goesOn 0 1 ++ goesOn 1 1 ++ goesOn 0 5) = some s ∧
      (s.calls.get 0).map (·.stage) = some (.accepted 0 1 0) ∧ (s.calls.get 1).map (·.stage) = some (.existing 0) := by
    decide +kernel
  have hrun := guarded_run hplay
  exact ⟨s, hrun, hfirst, hsecond, accepted_messages_have_one_turn hrun⟩

def targeted : CreateRequest := { keyed with seedTargetSandbox := some "offline" }

/-- The target of a create cannot be attached: the create is refused after its session and its user message are
committed. The same create again is answered with the session, which never has a turn. -/
theorem repeated_create_returns_session_without_turn : ∃ s, Run startSteps .empty
        (.create 0 targeted :: goesOn 0 3 ++ .advance 0 false :: .create 1 targeted :: goesOn 1 1) s ∧
      (s.calls.get 1).map (·.stage) = some (.existing 0) ∧ s.sessions.map (·.turns) = [[]] ∧
      s.sessions.map (·.signals) = [[]] ∧ ¬ s.Settled := by
  obtain ⟨s, hplay, hcalls, hturns, hsignals⟩ : ∃ s, play StartState.step .empty
        (.create 0 targeted :: goesOn 0 3 ++ .advance 0 false :: .create 1 targeted :: goesOn 1 1) = some s ∧
      s.calls = [(1, ⟨.create targeted, .existing 0⟩), (0, ⟨.create targeted, .thrown⟩)] ∧ s.sessions.map (·.turns) = [[]] ∧
      s.sessions.map (·.signals) = [[]] := by
    decide +kernel
  refine ⟨s, run_of_play hplay, ?_, hturns, hsignals, fun hsettled => ?_⟩
  · rw [hcalls]
    rfl
  · have hover : ∀ e ∈ s.calls, e.2.stage.isOver ∧ ∀ event turn, e.2.stage ≠ .accepted 0 event turn := by
      rw [hcalls]
      simp [Stage.isOver]
    have hmem : (1, ⟨.create targeted, .existing 0⟩) ∈ s.calls := by
      rw [hcalls]
      exact List.mem_cons_self
    obtain ⟨e, he, -, -, event, turn, haccepted⟩ := hsettled.existing _ hmem 0 rfl fun e he _ => (hover e he).1
    exact (hover e he).2 event turn haccepted

end OpenGeni.Core
