/-
Each completion of a child reaches the manager once.

A completion is recorded once because of its client event id, and it belongs to one digest turn.
What the turn tells is the text of its trigger event, and that text is rewritten as long as the
turn is queued. A turn that was put back is queued as well, although it has been started: a fold
into it changes what its attempt was told, and where the turn comes back through a resume
notice, it overwrites the notice. `Orderly` rules these folds out.
-/
import OpenGeni.Db.ChildWake
import OpenGeni.Lib.Run
import OpenGeni.Lib.Slots

namespace OpenGeni.Db

open OpenGeni.Lib

/-! ## The history of a manager -/

structure Completion where
  clientEventId : String
  summary : String
  turnId : ℕ

structure TurnClaim where
  turnId : ℕ
  text : Option String
  /-- The trigger was a notice that the turn resumes. -/
  notice : Bool
  stored : Bool

structure Fold where
  turnId : ℕ
  started : Bool
  notice : Bool
deriving DecidableEq

structure ChildHistory where
  tables : SessionTables
  /-- The client event ids of the calls that were not refused. -/
  asked : List String
  completions : List Completion
  /-- The digest turns, with the card event that opened each. -/
  cards : List (ℕ × ℕ)
  claims : List TurnClaim
  stored : List ℕ
  requeues : Slots ℕ RequeueCall
  folds : List Fold

inductive ChildEvent
  | wakeParentSessionForChildCompletion (now : ℕ) (input : WakeInput)
  | claimNextQueuedTurn (now : ℕ)
  | enqueueSessionTurn (now : ℕ) (input : EnqueueSessionTurnInput)
  | turnEdit (edit : TurnEdit)
  | storeItems (turnId : ℕ)
  | workerDeath (i turnId : ℕ)
  | preempt (i turnId : ℕ) (resumeWithNotice : Bool) (text : String)
  | appendPreempted (i eventId statusEventId : ℕ)
  | requeue (i : ℕ)
  | appendEvents (inputs : List EventInput)

def SessionTables.event? (eventId : ℕ) (t : SessionTables) : Option EventRow := t.events.find? (·.id == eventId)

def SessionTables.isNotice (eventId : ℕ) (t : SessionTables) : Bool :=
  (t.event? eventId).any (·.type == .turnPreempted)

def TurnEdit.settles : TurnEdit → Bool
  | .claimNextQueuedTurn _ => false
  | .requeuePreemptedTurn _ _ _ => false
  | edit => edit.proper

namespace ChildHistory

def hasTurn (turnId : ℕ) (s : ChildHistory) : Bool := s.tables.turns.any (·.id == turnId)

def newEvents (eventIds : List ℕ) (s : ChildHistory) : Bool :=
  decide eventIds.Nodup && eventIds.all fun eventId => !s.tables.events.any (·.id == eventId)

def started (turnId : ℕ) (s : ChildHistory) : Bool := s.claims.any (·.turnId == turnId)

def wake (now : ℕ) (input : WakeInput) (s : ChildHistory) : Option ChildHistory :=
  if s.hasTurn input.turnId ∨ s.newEvents [input.cardEventId, input.statusEventId, input.queuedEventId] = false then none
  else
    let (tables, result) := wakeParentSessionForChildCompletion now input s.tables
    match result with
    | .parentCancelled => some s
    | .alreadyDelivered => some { s with asked := s.asked ++ [input.clientEventId] }
    | .passive => some { s with tables, asked := s.asked ++ [input.clientEventId] }
    | .folded turnId =>
      some
        { s with
          tables
          asked := s.asked ++ [input.clientEventId]
          completions := s.completions ++
            [{ clientEventId := input.clientEventId, summary := input.childSummary, turnId }]
          folds := s.folds ++
            [{ turnId, started := s.started turnId
               notice := (s.tables.turn? turnId).any fun turn => s.tables.isNotice turn.triggerEventId }] }
    | .opened =>
      some
        { s with
          tables
          asked := s.asked ++ [input.clientEventId]
          completions := s.completions ++
            [{ clientEventId := input.clientEventId, summary := input.childSummary, turnId := input.turnId }]
          cards := s.cards ++ [(input.turnId, input.cardEventId)] }

def claim (now : ℕ) (s : ChildHistory) : ChildHistory :=
  match claimNextQueuedTurn now s.tables with
  | (_, none) => s
  | (tables, some turn) =>
    { s with
      tables
      claims := s.claims ++
        [{ turnId := turn.id, text := (s.tables.event? turn.triggerEventId).bind (·.payload.text)
           notice := s.tables.isNotice turn.triggerEventId, stored := s.stored.contains turn.id }] }

def workerDeath (i turnId : ℕ) (s : ChildHistory) : Option ChildHistory :=
  if (Slots.get i s.requeues).isSome ∨ s.started turnId = false then none
  else
    (s.tables.turn? turnId).map fun turn =>
      match requeueTurnAfterWorkerDeath turnId turn.triggerEventId (s.stored.count turnId) s.tables with
      | (tables, some call) => { s with tables, requeues := Slots.put i call s.requeues }
      | (tables, none) => { s with tables }

def preempt (i turnId : ℕ) (resumeWithNotice : Bool) (text : String) (s : ChildHistory) : Option ChildHistory :=
  if (Slots.get i s.requeues).isSome ∨ s.started turnId = false then none
  else
    (s.tables.turn? turnId).map fun turn =>
      let call : RequeueCall :=
        { turnId, triggerEventId := turn.triggerEventId, resumeWithNotice, text
          fromStatuses := [.running, .requiresAction], preemptedEventId := none }
      { s with requeues := Slots.put i call s.requeues }

def appendPreempted (i eventId statusEventId : ℕ) (s : ChildHistory) : Option ChildHistory :=
  match Slots.get i s.requeues with
  | none => none
  | some call =>
    if s.newEvents [eventId, statusEventId] = false then none
    else
      some { s with
          tables := s.tables.append [call.preempted eventId, call.statusChanged statusEventId]
          requeues := Slots.put i { call with preemptedEventId := some eventId } s.requeues }

/-- The turn is put back, or its status is another by now. A notice is appended before. -/
def requeue (i : ℕ) (s : ChildHistory) : Option ChildHistory := match Slots.get i s.requeues with
  | none => none
  | some call =>
    if call.resumeWithNotice && call.preemptedEventId.isNone then none
    else
      match requeuePreemptedTurn call.turnId call.resumeTrigger call.fromStatuses s.tables with
      | none => some { s with requeues := Slots.drop i s.requeues }
      | some tables =>
        some { s with tables := setSessionStatus .queued (some none) tables, requeues := Slots.drop i s.requeues }

/-- One transaction, or one access. `none` where an id that is to be new is not, and where nobody
makes the call. -/
def step (s : ChildHistory) : ChildEvent → Option ChildHistory
  | .wakeParentSessionForChildCompletion now input => s.wake now input
  | .claimNextQueuedTurn now => some (s.claim now)
  | .enqueueSessionTurn now input =>
    if s.hasTurn input.id ∨ input.metadata.childCompletion = true then none
    else some { s with tables := Db.enqueueSessionTurn now input s.tables }
  | .turnEdit edit => if edit.settles then (edit.run s.tables).map fun tables => { s with tables } else none
  | .storeItems turnId => if s.started turnId then some { s with stored := s.stored ++ [turnId] } else none
  | .workerDeath i turnId => s.workerDeath i turnId
  | .preempt i turnId resumeWithNotice text => s.preempt i turnId resumeWithNotice text
  | .appendPreempted i eventId statusEventId => s.appendPreempted i eventId statusEventId
  | .requeue i => s.requeue i
  | .appendEvents inputs =>
    if s.newEvents (inputs.map (·.id)) = false ∨ inputs.any (·.clientEventId.isSome) then none
    else some { s with tables := s.tables.append inputs }

/-! ## What is to be delivered -/

def summariesOf (s : ChildHistory) (turnId : ℕ) : List String :=
  (s.completions.filter (·.turnId == turnId)).map (·.summary)

def Tells (s : ChildHistory) (turnId : ℕ) (text : Option String) : Prop :=
  ∃ trailing, text = some (buildChildCompletionDigest (s.summariesOf turnId) trailing)

def isDigest (s : ChildHistory) (turnId : ℕ) : Prop := turnId ∈ s.cards.map Prod.fst

/-- Every completion that was asked for has one card event, and one turn
that tells it: when the turn was first claimed, or when it will be. A digest turn is claimed
again with the same summaries or with a notice, and with a notice if it has stored items. No fold
touches a turn that was started, and none overwrites a notice. -/
structure Delivered (s : ChildHistory) : Prop where
  recorded : ∀ clientEventId ∈ s.asked, s.tables.events.countP (·.clientEventId == some clientEventId) = 1 ∧
      s.completions.countP (·.clientEventId == clientEventId) = 1
  told : ∀ c ∈ s.completions, s.isDigest c.turnId ∧
    ((∃ claim ∈ s.claims, claim.turnId = c.turnId ∧ claim.notice = false) ∨
      (s.started c.turnId = false ∧ ∃ turn ∈ s.tables.turns, turn.id = c.turnId ∧
        ∃ event ∈ s.tables.events, event.id = turn.triggerEventId ∧ s.Tells c.turnId event.payload.text))
  claimed : ∀ claim ∈ s.claims, s.isDigest claim.turnId → claim.notice = true ∨ s.Tells claim.turnId claim.text
  resumed : ∀ claim ∈ s.claims, s.isDigest claim.turnId → claim.stored = true → claim.notice = true
  folds : ∀ fold ∈ s.folds, fold.started = false ∧ fold.notice = false

def Fresh (s : ChildHistory) : Prop :=
  s.tables.session.passiveMode = false ∧ s.tables.turns = [] ∧ s.tables.events = [] ∧ s.asked = [] ∧
    s.completions = [] ∧ s.cards = [] ∧ s.claims = [] ∧ s.stored = [] ∧ s.requeues = [] ∧ s.folds = []

instance : DecidablePred Fresh := fun _ => inferInstanceAs (Decidable (_ ∧ _ ∧ _ ∧ _ ∧ _ ∧ _ ∧ _ ∧ _ ∧ _ ∧ _))

/-- A completion is folded only into a turn that was never started. A turn that has stored items is
put back with a notice, and none are stored for a turn that is queued without one. -/
def Orderly (s : ChildHistory) : ChildEvent → Prop
  | .wakeParentSessionForChildCompletion _ _ => ∀ turn ∈ digestTurn s.tables.turns, s.started turn.id = false
  | .requeue i => ∀ call ∈ Slots.get i s.requeues, call.resumeWithNotice = true ∨ call.turnId ∉ s.stored
  | .storeItems turnId => ∀ turn ∈ s.tables.turns, turn.id = turnId → turn.status = .queued →
      s.tables.isNotice turn.triggerEventId = true
  | _ => True

instance (s : ChildHistory) : DecidablePred s.Orderly
  | .wakeParentSessionForChildCompletion _ _ => inferInstanceAs (Decidable (∀ _ ∈ _, _))
  | .requeue _ => inferInstanceAs (Decidable (∀ _ ∈ _, _ ∨ _))
  | .storeItems _ => inferInstanceAs (Decidable (∀ _ ∈ _, _ → _ → _))
  | .claimNextQueuedTurn _ => .isTrue trivial
  | .enqueueSessionTurn _ _ => .isTrue trivial
  | .turnEdit _ => .isTrue trivial
  | .workerDeath _ _ => .isTrue trivial
  | .preempt _ _ _ _ => .isTrue trivial
  | .appendPreempted _ _ _ => .isTrue trivial
  | .appendEvents _ => .isTrue trivial

/-! ## The invariants -/

structure Books (s : ChildHistory) : Prop where
  active : s.tables.session.passiveMode = false
  clientIds : s.tables.events.filterMap (·.clientEventId) = s.completions.map (·.clientEventId)
  nodup : (s.completions.map (·.clientEventId)).Nodup
  asked : ∀ clientEventId ∈ s.asked, clientEventId ∈ s.completions.map (·.clientEventId)

structure Holds (s : ChildHistory) (turn : TurnRow) (card : ℕ) : Prop where
  mem : (turn.id, card) ∈ s.cards
  summaries : turn.metadata.childSummaries = some (s.summariesOf turn.id)
  trigger : turn.triggerEventId = card ∨ s.tables.isNotice turn.triggerEventId = true
  fresh : s.started turn.id = false → turn.triggerEventId = card
  resumed : turn.status = .queued → turn.id ∈ s.stored → s.tables.isNotice turn.triggerEventId = true

def CardTells (s : ChildHistory) (turnId card : ℕ) : Prop :=
  ∃ event ∈ s.tables.events, event.id = card ∧ event.type = .userMessage ∧ s.Tells turnId event.payload.text

structure RequeueSound (s : ChildHistory) (call : RequeueCall) : Prop where
  started : s.started call.turnId = true
  trigger : ∀ card, (call.turnId, card) ∈ s.cards →
    call.triggerEventId = card ∨ s.tables.isNotice call.triggerEventId = true
  notice : ∀ eventId ∈ call.preemptedEventId, s.tables.isNotice eventId = true

structure Kept (s : ChildHistory) : Prop where
  turnIds : (s.tables.turns.map (·.id)).Nodup
  eventIds : (s.tables.events.map (·.id)).Nodup
  cardTurns : (s.cards.map Prod.fst).Nodup
  cardEvents : (s.cards.map Prod.snd).Nodup
  owned : ∀ c ∈ s.completions, s.isDigest c.turnId
  turns : ∀ turn ∈ s.tables.turns, turn.metadata.childCompletion = true → ∃ card, s.Holds turn card
  cards : ∀ card ∈ s.cards, (∃ turn ∈ s.tables.turns, turn.id = card.1 ∧ turn.metadata.childCompletion = true) ∧
    s.CardTells card.1 card.2
  requeues : ∀ e ∈ s.requeues, s.RequeueSound e.2
  stored : ∀ turnId ∈ s.stored, s.started turnId = true
  first : ∀ turnId, s.isDigest turnId → s.started turnId = true →
    ∃ claim ∈ s.claims, claim.turnId = turnId ∧ claim.notice = false
  claims : ∀ claim ∈ s.claims, s.hasTurn claim.turnId = true ∧ (s.isDigest claim.turnId →
    (claim.notice = true ∨ s.Tells claim.turnId claim.text) ∧ (claim.stored = true → claim.notice = true))
  folds : ∀ fold ∈ s.folds, fold.started = false ∧ fold.notice = false

section

variable {s s' : ChildHistory} {tables : SessionTables} {t t' : SessionTables} {turn row : TurnRow} {card eventId turnId : ℕ}
  {event : EventRow} {inputs : List EventInput}

/-! ### Events by id -/

theorem event?_eq (hids : (t.events.map (·.id)).Nodup) (hevent : event ∈ t.events) : t.event? event.id = some event := by
  unfold SessionTables.event?
  have hsome : (t.events.find? (·.id == event.id)).isSome = true := List.find?_isSome.2 ⟨event, hevent, by simp⟩
  obtain ⟨found, hfound⟩ := Option.isSome_iff_exists.1 hsome
  have hid : found.id = event.id := by simpa using List.find?_some hfound
  rw [hfound, List.inj_on_of_nodup_map hids (List.mem_of_find?_eq_some hfound) hevent hid]

theorem isNotice_iff (hids : (t.events.map (·.id)).Nodup) :
    t.isNotice eventId = true ↔ ∃ event ∈ t.events, event.id = eventId ∧ event.type = .turnPreempted := by
  unfold SessionTables.isNotice
  constructor
  · intro h
    cases hfound : t.event? eventId with
    | none =>
      rw [hfound] at h
      cases h
    | some event =>
      rw [hfound] at h
      exact ⟨event, List.mem_of_find?_eq_some hfound, by simpa using List.find?_some hfound, by simpa using h⟩
  · rintro ⟨event, hevent, rfl, htype⟩
    rw [event?_eq hids hevent]
    simpa using htype

theorem numberEvents_map_id (last : ℕ) : (numberEvents last inputs).map (·.id) = inputs.map (·.id) := by
  induction inputs generalizing last with
  | nil => rfl
  | cons input inputs ih =>
    rw [numberEvents, List.map_cons, List.map_cons, ih]

theorem numberEvents_filterMap (last : ℕ) :
    (numberEvents last inputs).filterMap (·.clientEventId) = inputs.filterMap (·.clientEventId) := by
  induction inputs generalizing last with
  | nil => rfl
  | cons input inputs ih =>
    rw [numberEvents, List.filterMap_cons, List.filterMap_cons, ih]

theorem numberEvents_mem {input : EventInput} (h : input ∈ inputs) (last : ℕ) :
    ∃ event ∈ numberEvents last inputs, event.id = input.id ∧ event.type = input.type ∧ event.payload = input.payload := by
  induction inputs generalizing last with
  | nil => exact absurd h List.not_mem_nil
  | cons first rest ih =>
    rw [numberEvents]
    rcases List.mem_cons.1 h with rfl | hrest
    · exact ⟨_, List.mem_cons_self, rfl, rfl, rfl⟩
    · obtain ⟨event, hevent, hspec⟩ := ih hrest (last + 1)
      exact ⟨event, List.mem_cons_of_mem _ hevent, hspec⟩

theorem append_eventIds (hids : (t.events.map (·.id)).Nodup) (hnodup : (inputs.map (·.id)).Nodup)
    (hnew : ∀ input ∈ inputs, ∀ event ∈ t.events, event.id ≠ input.id) :
    ((t.append inputs).events.map (·.id)).Nodup := by
  unfold SessionTables.append
  rw [List.map_append, numberEvents_map_id, List.nodup_append]
  refine ⟨hids, hnodup, ?_⟩
  intro a ha b hb
  obtain ⟨event, hevent, rfl⟩ := List.mem_map.1 ha
  obtain ⟨input, hinput, rfl⟩ := List.mem_map.1 hb
  exact hnew input hinput event hevent

theorem isNotice_append (hids : (t.events.map (·.id)).Nodup) (hids' : ((t.append inputs).events.map (·.id)).Nodup)
    (h : t.isNotice eventId = true) : (t.append inputs).isNotice eventId = true := by
  obtain ⟨event, hevent, hspec⟩ := (isNotice_iff hids).1 h
  exact (isNotice_iff hids').2 ⟨event, List.mem_append_left _ hevent, hspec⟩

/-! ### What keeps them -/

def SameStory (s s' : ChildHistory) : Prop :=
  s'.completions = s.completions ∧ s'.cards = s.cards ∧ s'.claims = s.claims ∧ s'.folds = s.folds

theorem SameStory.tells (h : s.SameStory s') {text : Option String} : s'.Tells turnId text ↔ s.Tells turnId text := by
  unfold Tells summariesOf
  rw [h.1]

variable {f : TurnRow → TurnRow} {c : Completion} {now i : ℕ}

theorem Kept.of_turns (h : s.Kept) (hstory : s.SameStory s') {extra : List TurnRow}
    (hturns : s'.tables.turns = s.tables.turns.map f ++ extra)
    (hevents : s'.tables.events = s.tables.events) (hids : (s'.tables.turns.map (·.id)).Nodup)
    (hrow : ∀ row, (f row).id = row.id ∧ (f row).metadata.childCompletion = row.metadata.childCompletion)
    (hextra : ∀ turn ∈ extra, turn.metadata.childCompletion = false)
    (hholds : ∀ row ∈ s.tables.turns, ∀ card, row.metadata.childCompletion = true → s.Holds row card → s'.Holds (f row) card)
    (hrequeues : ∀ e ∈ s'.requeues, s'.RequeueSound e.2) (hstored : s'.stored = s.stored) :
    s'.Kept := by
  obtain ⟨hcompletions, hcards, hclaims, hfolds⟩ := hstory
  have hmem : ∀ row ∈ s.tables.turns, f row ∈ s'.tables.turns := by
    intro row hmem
    rw [hturns]
    exact List.mem_append_left _ (List.mem_map_of_mem hmem)
  refine ⟨hids, ?_, ?_, ?_, ?_, ?_, ?_, hrequeues, ?_, ?_, ?_, ?_⟩
  · rw [hevents]
    exact h.eventIds
  · rw [hcards]
    exact h.cardTurns
  · rw [hcards]
    exact h.cardEvents
  · unfold isDigest
    rw [hcompletions, hcards]
    exact h.owned
  · intro turn hturn hchild
    rw [hturns] at hturn
    rcases List.mem_append.1 hturn with hold | hnew
    · obtain ⟨row, hrowMem, rfl⟩ := List.mem_map.1 hold
      rw [(hrow row).2] at hchild
      obtain ⟨card, hcard⟩ := h.turns row hrowMem hchild
      exact ⟨card, hholds row hrowMem card hchild hcard⟩
    · rw [hextra turn hnew] at hchild
      cases hchild
  · intro card hcard
    rw [hcards] at hcard
    obtain ⟨⟨row, hrowMem, hid, hchild⟩, event, hevent, hspec, htype, htells⟩ := h.cards card hcard
    refine ⟨⟨f row, hmem row hrowMem, (hrow row).1.trans hid, (hrow row).2.trans hchild⟩, event, ?_, hspec, htype, ?_⟩
    · rw [hevents]
      exact hevent
    · exact (SameStory.tells ⟨hcompletions, hcards, hclaims, hfolds⟩).2 htells
  · unfold started
    rw [hstored, hclaims]
    exact h.stored
  · unfold isDigest started
    rw [hcards, hclaims]
    exact h.first
  · intro claim hclaim
    rw [hclaims] at hclaim
    obtain ⟨hthere, hspec⟩ := h.claims claim hclaim
    refine ⟨?_, ?_⟩
    · obtain ⟨row, hrowMem, hid⟩ := List.any_eq_true.1 hthere
      refine List.any_eq_true.2 ⟨f row, hmem row hrowMem, ?_⟩
      rw [(hrow row).1]
      exact hid
    · unfold isDigest
      rw [hcards]
      intro hdigest
      obtain ⟨htext, hstored⟩ := hspec hdigest
      exact ⟨htext.imp_right (SameStory.tells ⟨hcompletions, hcards, hclaims, hfolds⟩).2, hstored⟩
  · rw [hfolds]
    exact h.folds

theorem RequeueSound.congr {call : RequeueCall} (h : s.RequeueSound call) (hstory : s.SameStory s')
    (hevents : s'.tables.events = s.tables.events) : s'.RequeueSound call := by
  obtain ⟨-, hcards, hclaims, -⟩ := hstory
  have hnotice : ∀ eventId, s'.tables.isNotice eventId = s.tables.isNotice eventId := by
    intro eventId
    unfold SessionTables.isNotice SessionTables.event?
    rw [hevents]
  refine ⟨?_, ?_, ?_⟩
  · unfold ChildHistory.started
    rw [hclaims]
    exact h.started
  · intro card hcard
    rw [hcards] at hcard
    rw [hnotice]
    exact h.trigger card hcard
  · intro eventId hid
    rw [hnotice]
    exact h.notice eventId hid

theorem Holds.congr (h : s.Holds row card) (hstory : s.SameStory s') (hevents : s'.tables.events = s.tables.events)
    (hstored : s'.stored = s.stored) (hid : turn.id = row.id) (htrigger : turn.triggerEventId = row.triggerEventId)
    (hsummaries : turn.metadata.childSummaries = row.metadata.childSummaries)
    (hqueued : turn.status = .queued → row.status = .queued) : s'.Holds turn card := by
  obtain ⟨hcompletions, hcards, hclaims, -⟩ := hstory
  have hnotice : ∀ eventId, s'.tables.isNotice eventId = s.tables.isNotice eventId := by
    intro eventId
    unfold SessionTables.isNotice SessionTables.event?
    rw [hevents]
  have hstarted : s'.started turn.id = s.started row.id := by
    unfold started
    rw [hclaims, hid]
  refine ⟨?_, ?_, ?_, ?_, ?_⟩
  · rw [hcards, hid]
    exact h.mem
  · rw [hsummaries, hid, h.summaries]
    unfold summariesOf
    rw [hcompletions]
  · rw [htrigger, hnotice]
    exact h.trigger
  · rw [hstarted, htrigger]
    exact h.fresh
  · rw [htrigger, hnotice, hid, hstored]
    exact fun hstatus => h.resumed (hqueued hstatus)

theorem Kept.append (h : s.Kept) (inputs : List EventInput) (hnodup : (inputs.map (·.id)).Nodup)
    (hnew : ∀ input ∈ inputs, ∀ event ∈ s.tables.events, event.id ≠ input.id) :
    Kept { s with tables := s.tables.append inputs } := by
  have hids := append_eventIds h.eventIds hnodup hnew
  have hnotice : ∀ eventId, s.tables.isNotice eventId = true → (s.tables.append inputs).isNotice eventId = true :=
    fun eventId => isNotice_append h.eventIds hids
  refine ⟨h.turnIds, hids, h.cardTurns, h.cardEvents, h.owned, ?_, ?_, ?_, h.stored, h.first, h.claims, h.folds⟩
  · intro turn hturn hchild
    obtain ⟨card, hcard⟩ := h.turns turn hturn hchild
    exact ⟨card, hcard.mem, hcard.summaries, hcard.trigger.imp_right (hnotice _), hcard.fresh,
      fun hqueued hstored => hnotice _ (hcard.resumed hqueued hstored)⟩
  · intro card hcard
    obtain ⟨hturn, event, hevent, hspec⟩ := h.cards card hcard
    exact ⟨hturn, event, List.mem_append_left _ hevent, hspec⟩
  · intro e he
    have hcall := h.requeues e he
    exact ⟨hcall.started, fun card hcard => (hcall.trigger card hcard).imp_right (hnotice _),
      fun eventId hid => hnotice _ (hcall.notice eventId hid)⟩

/-! ### A completion is told by a turn -/

theorem not_started (h : s.Kept) (hnew : s.hasTurn turnId = false) : s.started turnId = false := by
  rw [Bool.eq_false_iff]
  intro hstarted
  obtain ⟨claim, hclaim, hid⟩ := List.any_eq_true.1 hstarted
  have hthere := (h.claims claim hclaim).1
  rw [beq_iff_eq.1 hid, hnew] at hthere
  cases hthere

theorem not_digest (h : s.Kept) (hnew : s.hasTurn turnId = false) : ¬ s.isDigest turnId := by
  intro hdigest
  obtain ⟨card, hcard, rfl⟩ := List.mem_map.1 hdigest
  obtain ⟨⟨turn, hturn, hid, -⟩, -⟩ := h.cards card hcard
  have hthere : s.hasTurn card.1 = true := List.any_eq_true.2 ⟨turn, hturn, by simpa using hid⟩
  rw [hnew] at hthere
  cases hthere

theorem summariesOf_snoc (hcompletions : s'.completions = s.completions ++ [c]) :
    s'.summariesOf c.turnId = s.summariesOf c.turnId ++ [c.summary] := by
  unfold summariesOf
  rw [hcompletions, List.filter_append, List.map_append, List.filter_cons_of_pos (by simp)]
  rfl

theorem summariesOf_of_ne (hcompletions : s'.completions = s.completions ++ [c])
    (hne : turnId ≠ c.turnId) : s'.summariesOf turnId = s.summariesOf turnId := by
  unfold summariesOf
  rw [hcompletions, List.filter_append, List.filter_cons_of_neg (by simpa using Ne.symm hne), List.filter_nil,
    List.append_nil]

theorem tells_of_ne (hcompletions : s'.completions = s.completions ++ [c])
    (hne : turnId ≠ c.turnId) {text : Option String} (h : s.Tells turnId text) :
    s'.Tells turnId text := by
  unfold Tells at h ⊢
  rwa [summariesOf_of_ne hcompletions hne]

theorem retold_frame (input : WakeInput) (turn : TurnRow) (event : EventRow) :
    (input.retold turn event).id = event.id ∧ (input.retold turn event).type = event.type ∧
      (input.retold turn event).clientEventId = event.clientEventId := by
  unfold WakeInput.retold
  split <;> exact ⟨rfl, rfl, rfl⟩

theorem fold_eventIds (input : WakeInput) (turn : TurnRow) (t : SessionTables) :
    (input.fold turn t).events.map (·.id) = t.events.map (·.id) := by
  have hevents : (input.fold turn t).events = t.events.map (input.retold turn) := rfl
  rw [hevents, List.map_map]
  exact List.map_congr_left fun event _ => (retold_frame input turn event).1

theorem fold_isNotice (hids : (t.events.map (·.id)).Nodup) (input : WakeInput) (turn : TurnRow)
    (h : t.isNotice eventId = true) : (input.fold turn t).isNotice eventId = true := by
  obtain ⟨event, hevent, hid, htype⟩ := (isNotice_iff hids).1 h
  have hframe := retold_frame input turn event
  refine (isNotice_iff ((fold_eventIds input turn t).symm ▸ hids)).2 ?_
  exact ⟨input.retold turn event, List.mem_map_of_mem hevent, hframe.1.trans hid, hframe.2.1.trans htype⟩

theorem Kept.fold (h : s.Kept) (hturn : turn ∈ s.tables.turns) (hchild : turn.metadata.childCompletion = true)
    (hfresh : s.started turn.id = false) (input : WakeInput) (asked : List String) :
    Kept { s with
        tables := input.fold turn s.tables
        asked
        completions := s.completions ++
          [{ clientEventId := input.clientEventId, summary := input.childSummary, turnId := turn.id }]
        folds := s.folds ++ [{ turnId := turn.id, started := false, notice := false }] } := by
  obtain ⟨card, hcard⟩ := h.turns turn hturn hchild
  have htrigger := hcard.fresh hfresh
  have hdigest : s.isDigest turn.id := List.mem_map_of_mem hcard.mem
  have hids : ((input.fold turn s.tables).events.map (·.id)).Nodup := (fold_eventIds input turn s.tables).symm ▸ h.eventIds
  have hnotice : ∀ eventId, s.tables.isNotice eventId = true → (input.fold turn s.tables).isNotice eventId = true :=
    fun eventId => fold_isNotice h.eventIds input turn
  let f : TurnRow → TurnRow := fun row =>
    if row.id == turn.id then
      { row with
        prompt := input.digestText turn
        metadata := { turn.metadata with childSummaries := some (input.summariesWith turn) } }
    else
      row
  have hturns : (input.fold turn s.tables).turns = s.tables.turns.map f := rfl
  have hsame : ∀ row ∈ s.tables.turns, row.id = turn.id → row = turn :=
    fun row hrow hid => List.inj_on_of_nodup_map h.turnIds hrow hturn hid
  have hf : ∀ row, (f row).id = row.id ∧ (f row).triggerEventId = row.triggerEventId ∧ (f row).status = row.status := by
    intro row
    by_cases hid : row.id = turn.id
    · simp [f, hid]
    · simp [f, hid]
  have hflag : ∀ row ∈ s.tables.turns, (f row).metadata.childCompletion = row.metadata.childCompletion := by
    intro row hrow
    by_cases hid : row.id = turn.id
    · rw [hsame row hrow hid]
      simp [f]
    · simp [f, hid]
  have htold : ∀ s' : ChildHistory, s'.completions = s.completions ++
      [{ clientEventId := input.clientEventId, summary := input.childSummary, turnId := turn.id }] →
      s'.summariesOf turn.id = input.summariesWith turn := by
    intro s' hcompletions
    have hsnoc := summariesOf_snoc hcompletions
    rw [hsnoc]
    unfold WakeInput.summariesWith
    rw [hcard.summaries]
    rfl
  refine ⟨?_, hids, h.cardTurns, h.cardEvents, ?_, ?_, ?_, ?_, h.stored, h.first, ?_, ?_⟩
  · have heq : (s.tables.turns.map f).map (·.id) = s.tables.turns.map (·.id) := by
      rw [List.map_map]
      exact List.map_congr_left fun row _ => (hf row).1
    rw [hturns, heq]
    exact h.turnIds
  · intro c hc
    rcases List.mem_append.1 hc with hold | hlast
    · exact h.owned c hold
    · rw [List.mem_singleton.1 hlast]
      exact hdigest
  · intro turn' hturn' hchild'
    rw [hturns] at hturn'
    obtain ⟨row, hrow, rfl⟩ := List.mem_map.1 hturn'
    rw [hflag row hrow] at hchild'
    obtain ⟨card', hcard'⟩ := h.turns row hrow hchild'
    refine ⟨card', ?_, ?_, ?_, ?_, ?_⟩
    · rw [(hf row).1]
      exact hcard'.mem
    · rw [(hf row).1]
      by_cases hid : row.id = turn.id
      · rw [hid, htold _ rfl]
        simp [f, hid]
      · rw [summariesOf_of_ne rfl hid, ← hcard'.summaries]
        simp [f, hid]
    · rw [(hf row).2.1]
      exact hcard'.trigger.imp_right (hnotice _)
    · rw [(hf row).1, (hf row).2.1]
      exact hcard'.fresh
    · rw [(hf row).1, (hf row).2.1, (hf row).2.2]
      exact fun hqueued hstored => hnotice _ (hcard'.resumed hqueued hstored)
  · intro card' hcard'
    obtain ⟨⟨row, hrow, hid, hchildRow⟩, event, hevent, heventId, htype, htells⟩ := h.cards card' hcard'
    have hframe := retold_frame input turn event
    refine ⟨⟨f row, hturns ▸ List.mem_map_of_mem hrow, (hf row).1.trans hid, (hflag row hrow).trans hchildRow⟩,
      input.retold turn event, List.mem_map_of_mem hevent, hframe.1.trans heventId, hframe.2.1.trans htype, ?_⟩
    by_cases hcardId : card'.2 = card
    · -- the card of the turn is told anew
      have hpair : card' = (turn.id, card) := List.inj_on_of_nodup_map h.cardEvents hcard' hcard.mem hcardId
      rw [hpair]
      refine ⟨input.trailing, ?_⟩
      rw [htold _ rfl]
      unfold WakeInput.retold
      rw [if_pos (heventId.trans (hcardId.trans htrigger.symm))]
      rfl
    · have hne : card'.1 ≠ turn.id := by
        intro heq
        have hpair : card' = (turn.id, card) := List.inj_on_of_nodup_map h.cardTurns hcard' hcard.mem heq
        rw [hpair] at hcardId
        exact hcardId rfl
      have hkept : input.retold turn event = event := by
        apply if_neg
        intro heq
        exact hcardId (heventId.symm.trans (heq.trans htrigger))
      rw [hkept]
      exact tells_of_ne rfl hne htells
  · intro e he
    have hcall := h.requeues e he
    exact ⟨hcall.started, fun c hc => (hcall.trigger c hc).imp_right (hnotice _),
      fun eventId hid => hnotice _ (hcall.notice eventId hid)⟩
  · intro claim hclaim
    obtain ⟨hthere, hspec⟩ := h.claims claim hclaim
    refine ⟨?_, fun hdig => ?_⟩
    · obtain ⟨row, hrow, hid⟩ := List.any_eq_true.1 hthere
      refine List.any_eq_true.2 ⟨f row, hturns ▸ List.mem_map_of_mem hrow, ?_⟩
      rw [(hf row).1]
      exact hid
    · have hne : claim.turnId ≠ turn.id := by
        intro heq
        have hstarted : s.started turn.id = true := List.any_eq_true.2 ⟨claim, hclaim, by simpa using heq⟩
        rw [hfresh] at hstarted
        cases hstarted
      obtain ⟨htext, hstored⟩ := hspec hdig
      exact ⟨htext.imp_right (tells_of_ne rfl hne), hstored⟩
  · intro fold hfold
    rcases List.mem_append.1 hfold with hold | hlast
    · exact h.folds fold hold
    · rw [List.mem_singleton.1 hlast]
      exact ⟨rfl, rfl⟩

theorem Kept.openTurn (h : s.Kept) (now position : ℕ) {input : WakeInput} (hnew : s.hasTurn input.turnId = false)
    (hevent : event ∈ s.tables.events) (hid : event.id = input.cardEventId) (htype : event.type = .userMessage)
    (htext : event.payload.text = some input.cardText) (hcard : ∀ card ∈ s.cards, card.2 ≠ input.cardEventId)
    (asked : List String) :
    Kept { s with
        tables := { s.tables with turns := s.tables.turns ++ [input.newTurn now position] }
        asked
        completions := s.completions ++
          [{ clientEventId := input.clientEventId, summary := input.childSummary, turnId := input.turnId }]
        cards := s.cards ++ [(input.turnId, input.cardEventId)] } := by
  have hnotStarted := not_started h hnew
  have hnotDigest := not_digest h hnew
  have hold : ∀ turn ∈ s.tables.turns, turn.id ≠ input.turnId := by
    intro turn hturn heq
    have hthere : s.hasTurn input.turnId = true := List.any_eq_true.2 ⟨turn, hturn, by simpa using heq⟩
    rw [hnew] at hthere
    cases hthere
  have hone : ∀ s' : ChildHistory, s'.completions = s.completions ++
      [{ clientEventId := input.clientEventId, summary := input.childSummary, turnId := input.turnId }] →
      s'.summariesOf input.turnId = [input.childSummary] := by
    intro s' hcompletions
    have hsnoc := summariesOf_snoc hcompletions
    have hnone : s.summariesOf input.turnId = [] := by
      unfold summariesOf
      rw [List.map_eq_nil_iff, List.filter_eq_nil_iff]
      intro c hc heq
      exact hnotDigest (beq_iff_eq.1 heq ▸ h.owned c hc)
    rw [hsnoc, hnone]
    rfl
  refine ⟨?_, h.eventIds, ?_, ?_, ?_, ?_, ?_, ?_, h.stored, ?_, ?_, h.folds⟩
  · rw [List.map_append, List.nodup_append]
    refine ⟨h.turnIds, List.nodup_singleton _, ?_⟩
    intro a ha b hb
    obtain ⟨turn, hturn, rfl⟩ := List.mem_map.1 ha
    rw [List.mem_singleton.1 hb]
    exact hold turn hturn
  · rw [List.map_append, List.nodup_append]
    refine ⟨h.cardTurns, List.nodup_singleton _, ?_⟩
    intro a ha b hb heq
    rw [heq, List.mem_singleton.1 hb] at ha
    exact hnotDigest ha
  · rw [List.map_append, List.nodup_append]
    refine ⟨h.cardEvents, List.nodup_singleton _, ?_⟩
    intro a ha b hb heq
    obtain ⟨card, hmem, rfl⟩ := List.mem_map.1 ha
    rw [List.mem_singleton.1 hb] at heq
    exact hcard card hmem heq
  · intro c hc
    unfold isDigest
    rw [List.map_append]
    rcases List.mem_append.1 hc with hbefore | hlast
    · exact List.mem_append_left _ (h.owned c hbefore)
    · rw [List.mem_singleton.1 hlast]
      exact List.mem_append_right _ (List.mem_singleton.2 rfl)
  · intro turn hturn hchild
    rcases List.mem_append.1 hturn with hbefore | hlast
    · obtain ⟨card, hholds⟩ := h.turns turn hbefore hchild
      refine ⟨card, List.mem_append_left _ hholds.mem, ?_, hholds.trigger, hholds.fresh, hholds.resumed⟩
      rw [summariesOf_of_ne rfl (hold turn hbefore)]
      exact hholds.summaries
    · rw [List.mem_singleton.1 hlast]
      refine ⟨input.cardEventId, List.mem_append_right _ (List.mem_singleton.2 rfl), ?_, .inl rfl, fun _ => rfl, ?_⟩
      · have hsummaries := hone { s with
            tables := { s.tables with turns := s.tables.turns ++ [input.newTurn now position] }
            asked
            completions := s.completions ++
              [{ clientEventId := input.clientEventId, summary := input.childSummary, turnId := input.turnId }]
            cards := s.cards ++ [(input.turnId, input.cardEventId)] } rfl
        exact congrArg some hsummaries.symm
      · intro _ hstored
        have hstarted : s.started input.turnId = true := h.stored _ hstored
        rw [hnotStarted] at hstarted
        cases hstarted
  · intro card hmem
    rcases List.mem_append.1 hmem with hbefore | hlast
    · obtain ⟨⟨turn, hturn, hturnId, hchild⟩, told, htold, htoldId, htoldType, htells⟩ := h.cards card hbefore
      have hne : card.1 ≠ input.turnId := fun heq => hold turn hturn (hturnId.trans heq)
      exact ⟨⟨turn, List.mem_append_left _ hturn, hturnId, hchild⟩, told, htold, htoldId, htoldType, tells_of_ne rfl hne htells⟩
    · rw [List.mem_singleton.1 hlast]
      refine ⟨⟨input.newTurn now position, List.mem_append_right _ (List.mem_singleton.2 rfl), rfl, rfl⟩, event, hevent,
        hid, htype, input.trailing, ?_⟩
      rw [hone _ rfl]
      exact htext
  · intro e he
    have hcall := h.requeues e he
    refine ⟨hcall.started, ?_, hcall.notice⟩
    intro card hmem
    rcases List.mem_append.1 hmem with hbefore | hlast
    · exact hcall.trigger card hbefore
    · have heq : e.2.turnId = input.turnId := congrArg Prod.fst (List.mem_singleton.1 hlast)
      have hstarted := hcall.started
      rw [heq, hnotStarted] at hstarted
      cases hstarted
  · intro turnId hdigest hstarted
    apply h.first turnId ?_ hstarted
    unfold isDigest at hdigest
    rw [List.map_append] at hdigest
    rcases List.mem_append.1 hdigest with hbefore | hlast
    · exact hbefore
    · have hagain : s.started turnId = true := hstarted
      rw [List.mem_singleton.1 hlast, hnotStarted] at hagain
      cases hagain
  · intro claim hclaim
    obtain ⟨hthere, hspec⟩ := h.claims claim hclaim
    have hne : claim.turnId ≠ input.turnId := by
      intro heq
      rw [heq, hnew] at hthere
      cases hthere
    refine ⟨?_, fun hdigest => ?_⟩
    · unfold hasTurn
      rw [List.any_append]
      exact Bool.or_eq_true_iff.2 (.inl hthere)
    · unfold isDigest at hdigest
      rw [List.map_append] at hdigest
      rcases List.mem_append.1 hdigest with hbefore | hlast
      · obtain ⟨htext, hstored⟩ := hspec hbefore
        exact ⟨htext.imp_right (tells_of_ne rfl hne), hstored⟩
      · exact absurd (List.mem_singleton.1 hlast) hne

/-! ### The steps -/

def Sound (s : ChildHistory) : Prop := s.Books ∧ s.Kept

theorem Fresh.sound (h : s.Fresh) : s.Sound := by
  obtain ⟨hactive, hturns, hevents, hasked, hcompletions, hcards, hclaims, hstored, hrequeues, hfolds⟩ := h
  refine ⟨⟨hactive, ?_, ?_, ?_⟩, ?_, ?_, ?_, ?_, ?_, ?_, ?_, ?_, ?_, ?_, ?_, ?_⟩
  · rw [hevents, hcompletions]
    rfl
  · rw [hcompletions]
    exact List.nodup_nil
  · rw [hasked]
    exact List.forall_mem_nil _
  · rw [hturns]
    exact List.nodup_nil
  · rw [hevents]
    exact List.nodup_nil
  · rw [hcards]
    exact List.nodup_nil
  · rw [hcards]
    exact List.nodup_nil
  · rw [hcompletions]
    exact List.forall_mem_nil _
  · rw [hturns]
    exact List.forall_mem_nil _
  · rw [hcards]
    exact List.forall_mem_nil _
  · rw [hrequeues]
    exact List.forall_mem_nil _
  · rw [hstored]
    exact List.forall_mem_nil _
  · unfold isDigest
    rw [hcards]
    exact List.forall_mem_nil _
  · rw [hclaims]
    exact List.forall_mem_nil _
  · rw [hfolds]
    exact List.forall_mem_nil _

theorem newEvents_spec {eventIds : List ℕ} (h : s.newEvents eventIds = true) :
    eventIds.Nodup ∧ ∀ eventId ∈ eventIds, ∀ event ∈ s.tables.events, event.id ≠ eventId := by
  obtain ⟨hnodup, hall⟩ := Bool.and_eq_true_iff.1 h
  refine ⟨of_decide_eq_true hnodup, ?_⟩
  intro eventId hid event hevent heq
  have hnone := List.all_eq_true.1 hall eventId hid
  have hany : (s.tables.events.any (·.id == eventId)) = true := List.any_eq_true.2 ⟨event, hevent, by simpa using heq⟩
  rw [hany] at hnone
  cases hnone

theorem append_clientIds : (t.append inputs).events.filterMap (·.clientEventId) =
    t.events.filterMap (·.clientEventId) ++ inputs.filterMap (·.clientEventId) := by
  unfold SessionTables.append
  rw [List.filterMap_append, numberEvents_filterMap]

theorem fold_clientIds (input : WakeInput) (turn : TurnRow) (t : SessionTables) :
    (input.fold turn t).events.filterMap (·.clientEventId) = t.events.filterMap (·.clientEventId) := by
  have hevents : (input.fold turn t).events = t.events.map (input.retold turn) := rfl
  rw [hevents, List.filterMap_map]
  exact List.filterMap_congr fun event _ => (retold_frame input turn event).2.2

theorem Kept.congr (h : s.Kept) (hstory : s.SameStory s') (hturns : s'.tables.turns = s.tables.turns)
    (hevents : s'.tables.events = s.tables.events) (hstored : s'.stored = s.stored)
    (hrequeues : ∀ e ∈ s'.requeues, s.RequeueSound e.2) : s'.Kept := by
  refine h.of_turns (f := id) hstory (by rw [hturns, List.map_id, List.append_nil]) hevents (hturns ▸ h.turnIds)
    (fun _ => ⟨rfl, rfl⟩) (List.forall_mem_nil _) ?_ ?_ hstored
  · exact fun row _ card _ hholds => hholds.congr hstory hevents hstored rfl rfl rfl id
  · exact fun e he => (hrequeues e he).congr hstory hevents

theorem Kept.not_notice (h : s.Kept) (hcard : (turnId, card) ∈ s.cards) : s.tables.isNotice card = false := by
  rw [Bool.eq_false_iff]
  intro hnotice
  obtain ⟨event, hevent, hid, htype⟩ := (isNotice_iff h.eventIds).1 hnotice
  obtain ⟨-, told, htold, htoldId, htoldType, -⟩ := h.cards _ hcard
  obtain rfl : event = told := List.inj_on_of_nodup_map h.eventIds hevent htold (hid.trans htoldId.symm)
  rw [htype] at htoldType
  cases htoldType

theorem Books.snoc (h : s.Books) {c : Completion}
    (hnew : c.clientEventId ∉ s.completions.map (·.clientEventId)) (hactive : s'.tables.session.passiveMode = false)
    (hevents : s'.tables.events.filterMap (·.clientEventId) =
      s.tables.events.filterMap (·.clientEventId) ++ [c.clientEventId])
    (hcompletions : s'.completions = s.completions ++ [c]) (hasked : s'.asked = s.asked ++ [c.clientEventId]) :
    s'.Books := by
  refine ⟨hactive, ?_, ?_, ?_⟩
  · rw [hevents, hcompletions, h.clientIds, List.map_append]
    rfl
  · rw [hcompletions, List.map_append, List.nodup_append]
    refine ⟨h.nodup, List.nodup_singleton _, ?_⟩
    intro a ha b hb heq
    rw [heq, List.mem_singleton.1 hb] at ha
    exact hnew ha
  · intro clientEventId hmem
    rw [hasked] at hmem
    rw [hcompletions, List.map_append]
    rcases List.mem_append.1 hmem with hold | hlast
    · exact List.mem_append_left _ (h.asked clientEventId hold)
    · exact List.mem_append_right _ hlast

theorem Sound.wake (h : s.Sound) {input : WakeInput}
    (hok : ∀ turn ∈ digestTurn s.tables.turns, s.started turn.id = false)
    (hstep : s.wake now input = some s') : s'.Sound := by
  obtain ⟨hbooks, hkept⟩ := h
  unfold ChildHistory.wake at hstep
  split at hstep
  · cases hstep
  case isFalse hnew =>
    obtain ⟨hturnNew, heventsNew⟩ := not_or.1 hnew
    have hturnNew : s.hasTurn input.turnId = false := Bool.eq_false_iff.2 hturnNew
    obtain ⟨hnodup, hfresh⟩ := newEvents_spec (by simpa using heventsNew)
    rcases wakeParentSessionForChildCompletion_cases now input s.tables with
      hrun | ⟨hdelivered, hrun⟩ | hpassive | ⟨hdelivered, rest, session, hrest, hcases, hactive⟩
    · rw [hrun] at hstep
      cases hstep
      exact ⟨hbooks, hkept⟩
    · rw [hrun] at hstep
      cases hstep
      refine ⟨⟨hbooks.active, hbooks.clientIds, hbooks.nodup, ?_⟩, ?_⟩
      · intro clientEventId hmem
        rcases List.mem_append.1 hmem with hold | hlast
        · exact hbooks.asked clientEventId hold
        · obtain ⟨event, hevent, heq⟩ := List.any_eq_true.1 hdelivered
          rw [List.mem_singleton.1 hlast]
          rw [← hbooks.clientIds]
          exact List.mem_filterMap.2 ⟨event, hevent, by simpa using heq⟩
      · exact hkept.congr ⟨rfl, rfl, rfl, rfl⟩ rfl rfl rfl hkept.requeues
    · rw [hbooks.active] at hpassive
      cases hpassive
    -- the card is appended, perhaps with a change of status
    have hbatch : ((input.card :: rest).map (·.id)).Nodup ∧ ∀ i ∈ input.card :: rest,
        i.id = input.cardEventId ∨ i.id = input.statusEventId := by
      have hne : input.cardEventId ≠ input.statusEventId := by
        intro heq
        rw [heq] at hnodup
        exact (List.nodup_cons.1 hnodup).1 List.mem_cons_self
      rcases hrest with rfl | rfl
      · refine ⟨List.nodup_singleton _, fun i hi => .inl ?_⟩
        rw [List.mem_singleton.1 hi]
        rfl
      · refine ⟨by simpa [WakeInput.card, WakeInput.statusChanged] using hne, fun i hi => ?_⟩
        rcases List.mem_cons.1 hi with rfl | hlast
        · exact .inl rfl
        · rw [List.mem_singleton.1 hlast]
          exact .inr rfl
    have hbatchNew : ∀ i ∈ input.card :: rest, ∀ event ∈ s.tables.events, event.id ≠ i.id := by
      intro i hi event hevent
      rcases hbatch.2 i hi with heq | heq
      · rw [heq]
        exact hfresh _ List.mem_cons_self event hevent
      · rw [heq]
        exact hfresh _ (List.mem_cons_of_mem _ List.mem_cons_self) event hevent
    have happended := hkept.append (input.card :: rest) hbatch.1 hbatchNew
    have hclientIds : (input.card :: rest).filterMap (·.clientEventId) = [input.clientEventId] := by
      rcases hrest with rfl | rfl <;> rfl
    have hnotYet : input.clientEventId ∉ s.completions.map (·.clientEventId) := by
      rw [← hbooks.clientIds]
      intro hmem
      obtain ⟨event, hevent, heq⟩ := List.mem_filterMap.1 hmem
      have hnone := List.any_eq_false.1 hdelivered event hevent
      exact hnone (by simpa using heq)
    have hquiet : session.passiveMode = false := hactive.trans hbooks.active
    rcases hcases with ⟨turn, hdigest, hrun⟩ | ⟨-, hrun⟩
    · rw [hrun] at hstep
      cases hstep
      obtain ⟨hturn, hboth⟩ := List.mem_filter.1 (List.argmax_mem hdigest)
      have hchild : turn.metadata.childCompletion = true := (Bool.and_eq_true_iff.1 hboth).2
      have hunstarted := hok turn hdigest
      obtain ⟨card, hholds⟩ := hkept.turns turn hturn hchild
      have hnoNotice : ((s.tables.turn? turn.id).any fun turn => s.tables.isNotice turn.triggerEventId) = false := by
        cases hfound : s.tables.turn? turn.id with
        | none => rfl
        | some found =>
          obtain ⟨hmem, hid⟩ := mem_of_turn? hfound
          obtain rfl : found = turn := List.inj_on_of_nodup_map hkept.turnIds hmem hturn hid
          rw [Option.any_some, hholds.fresh hunstarted]
          exact hkept.not_notice hholds.mem
      rw [hunstarted, hnoNotice]
      have hfolded := happended.fold hturn hchild hunstarted input (s.asked ++ [input.clientEventId])
      refine ⟨hbooks.snoc hnotYet hquiet ?_ rfl rfl, ?_⟩
      · rw [fold_clientIds, append_clientIds, hclientIds]
      · exact hfolded.congr ⟨rfl, rfl, rfl, rfl⟩ rfl rfl rfl hfolded.requeues
    · rw [hrun] at hstep
      cases hstep
      obtain ⟨event, hevent, hid, htype, hpayload⟩ := numberEvents_mem
        (List.mem_cons_self : input.card ∈ input.card :: rest) s.tables.session.lastSequence
      have htext : event.payload.text = some input.cardText := by
        rw [hpayload]
        rfl
      have hcardNew : ∀ card ∈ s.cards, card.2 ≠ input.cardEventId := by
        intro card hcard heq
        obtain ⟨-, told, htold, htoldId, -⟩ := hkept.cards card hcard
        exact hfresh _ List.mem_cons_self told htold (htoldId.trans heq)
      have hopened := happended.openTurn now (nextTurnPosition s.tables.turns) hturnNew
        (List.mem_append_right _ hevent) hid htype htext hcardNew (s.asked ++ [input.clientEventId])
      have hqueuedNew : ∀ i ∈ [input.queued], ∀ event ∈ (s.tables.append (input.card :: rest)).events, event.id ≠ i.id := by
        intro i hi event hevent
        rw [List.mem_singleton.1 hi]
        have hlast : input.queuedEventId ∈ [input.cardEventId, input.statusEventId, input.queuedEventId] := by simp
        rcases List.mem_append.1 hevent with hold | hbefore
        · exact hfresh _ hlast event hold
        · intro heq
          have hids : event.id ∈ (input.card :: rest).map (·.id) := by
            rw [← numberEvents_map_id s.tables.session.lastSequence]
            exact List.mem_map_of_mem hbefore
          obtain ⟨i', hi', hsame⟩ := List.mem_map.1 hids
          rw [List.nodup_cons, List.nodup_cons] at hnodup
          have hqueued : event.id = input.queuedEventId := heq
          rcases hbatch.2 i' hi' with hcard | hstatus
          · apply hnodup.1
            rw [← hcard, hsame, hqueued]
            simp
          · apply hnodup.2.1
            rw [← hstatus, hsame, hqueued]
            exact List.mem_singleton.2 rfl
      have hqueued := hopened.append [input.queued] (List.nodup_singleton _) hqueuedNew
      refine ⟨hbooks.snoc hnotYet hquiet ?_ rfl rfl, ?_⟩
      · unfold WakeInput.openTurn
        rw [append_clientIds]
        rw [append_clientIds, hclientIds]
        simp [WakeInput.queued]
      · exact hqueued.congr ⟨rfl, rfl, rfl, rfl⟩ rfl rfl rfl hqueued.requeues

theorem Kept.edit (h : s.Kept) (hstory : s.SameStory s') {f : TurnRow → TurnRow} {extra : List TurnRow}
    (hturns : s'.tables.turns = s.tables.turns.map f ++ extra) (hevents : s'.tables.events = s.tables.events)
    (hids : (s'.tables.turns.map (·.id)).Nodup)
    (hf : ∀ row, (f row).id = row.id ∧ (f row).triggerEventId = row.triggerEventId ∧
      (f row).metadata.childCompletion = row.metadata.childCompletion ∧
      (f row).metadata.childSummaries = row.metadata.childSummaries ∧
      ((f row).status = .queued → row.status = .queued))
    (hextra : ∀ turn ∈ extra, turn.metadata.childCompletion = false)
    (hrequeues : ∀ e ∈ s'.requeues, s.RequeueSound e.2) (hstored : s'.stored = s.stored) : s'.Kept := by
  refine h.of_turns hstory hturns hevents hids (fun row => ⟨(hf row).1, (hf row).2.2.1⟩) hextra ?_ ?_ hstored
  · intro row _ card _ hholds
    obtain ⟨hid, htrigger, -, hsummaries, hstatus⟩ := hf row
    exact hholds.congr hstory hevents hstored hid htrigger hsummaries hstatus
  · exact fun e he => (hrequeues e he).congr hstory hevents

theorem map_rowIds (hf : ∀ row, (f row).id = row.id) (turns : List TurnRow) :
    (turns.map f).map (·.id) = turns.map (·.id) := by
  rw [List.map_map]
  exact List.map_congr_left fun row _ => hf row

theorem Books.congr (h : s.Books) (hactive : s'.tables.session.passiveMode = s.tables.session.passiveMode)
    (hevents : s'.tables.events = s.tables.events) (hcompletions : s'.completions = s.completions)
    (hasked : s'.asked = s.asked) : s'.Books := by
  refine ⟨hactive.trans h.active, ?_, ?_, ?_⟩
  · rw [hevents, hcompletions]
    exact h.clientIds
  · rw [hcompletions]
    exact h.nodup
  · rw [hasked, hcompletions]
    exact h.asked

theorem Kept.holds (h : s.Kept) (hturn : turn ∈ s.tables.turns) (hcard : (turn.id, card) ∈ s.cards) :
    s.Holds turn card := by
  obtain ⟨⟨row, hrow, hid, hchild⟩, -⟩ := h.cards _ hcard
  obtain rfl : row = turn := List.inj_on_of_nodup_map h.turnIds hrow hturn hid
  obtain ⟨card', hholds⟩ := h.turns row hrow hchild
  have hpair := List.inj_on_of_nodup_map h.cardTurns hholds.mem hcard rfl
  rw [← (Prod.mk.inj hpair).2]
  exact hholds

theorem Sound.enqueueSessionTurn (h : s.Sound) {input : EnqueueSessionTurnInput}
    (hnew : s.hasTurn input.id = false) (hchild : input.metadata.childCompletion = false) :
    Sound { s with tables := Db.enqueueSessionTurn now input s.tables } := by
  obtain ⟨hbooks, hkept⟩ := h
  obtain ⟨position, f, hf, hturns⟩ := enqueueSessionTurn_rows now input s.tables
  have hframe : (Db.enqueueSessionTurn now input s.tables).events = s.tables.events ∧
      (Db.enqueueSessionTurn now input s.tables).session = s.tables.session := ⟨rfl, rfl⟩
  have hrow : ∀ row, (f row).id = row.id ∧ (f row).triggerEventId = row.triggerEventId ∧
      (f row).metadata.childCompletion = row.metadata.childCompletion ∧
      (f row).metadata.childSummaries = row.metadata.childSummaries ∧
      ((f row).status = .queued → row.status = .queued) := by
    intro row
    rcases hf with rfl | rfl
    · exact ⟨rfl, rfl, rfl, rfl, id⟩
    · unfold TurnRow.movedBack
      dsimp only
      split
      · exact ⟨rfl, rfl, rfl, rfl, id⟩
      · exact ⟨rfl, rfl, rfl, rfl, id⟩
  refine ⟨hbooks.congr (by rw [hframe.2]) hframe.1 rfl rfl, ?_⟩
  refine hkept.edit ⟨rfl, rfl, rfl, rfl⟩ hturns hframe.1 ?_ hrow ?_ hkept.requeues rfl
  · rw [hturns, List.map_append, map_rowIds fun row => (hrow row).1, List.nodup_append]
    refine ⟨hkept.turnIds, List.nodup_singleton _, ?_⟩
    intro a ha b hb heq
    obtain ⟨turn, hturn, rfl⟩ := List.mem_map.1 ha
    have hthere : s.hasTurn input.id = true := by
      refine List.any_eq_true.2 ⟨turn, hturn, ?_⟩
      rw [heq, List.mem_singleton.1 hb]
      exact beq_self_eq_true _
    rw [hnew] at hthere
    cases hthere
  · intro turn hturn
    rw [List.mem_singleton.1 hturn]
    exact hchild

theorem Sound.updateTurns (h : s.Sound) (p : TurnRow → Bool) {f : TurnRow → TurnRow}
    (hf : ∀ row, (f row).id = row.id ∧ (f row).triggerEventId = row.triggerEventId ∧
      (f row).metadata.childCompletion = row.metadata.childCompletion ∧
      (f row).metadata.childSummaries = row.metadata.childSummaries ∧
      ((f row).status = .queued → row.status = .queued)) (requeues : Slots ℕ RequeueCall)
    (hrequeues : ∀ e ∈ requeues, s.RequeueSound e.2) :
    Sound { s with tables := s.tables.updateTurns p f, requeues } := by
  obtain ⟨hbooks, hkept⟩ := h
  have hrow : ∀ row, (if p row then f row else row).id = row.id ∧
      (if p row then f row else row).triggerEventId = row.triggerEventId ∧
      (if p row then f row else row).metadata.childCompletion = row.metadata.childCompletion ∧
      (if p row then f row else row).metadata.childSummaries = row.metadata.childSummaries ∧
      ((if p row then f row else row).status = .queued → row.status = .queued) := by
    intro row
    by_cases hp : p row = true
    · rw [if_pos hp]
      exact hf row
    · rw [if_neg hp]
      exact ⟨rfl, rfl, rfl, rfl, id⟩
  have hturns : (s.tables.updateTurns p f).turns = s.tables.turns.map fun row => if p row then f row else row := rfl
  refine ⟨hbooks.congr rfl rfl rfl rfl, ?_⟩
  refine hkept.edit ⟨rfl, rfl, rfl, rfl⟩ (by rw [List.append_nil]; exact hturns) rfl ?_ hrow
    (List.forall_mem_nil _) hrequeues rfl
  rw [hturns, map_rowIds fun row => (hrow row).1]
  exact hkept.turnIds

theorem Sound.turnEdit (h : s.Sound) {edit : TurnEdit} (hsettles : edit.settles = true)
    (hrun : edit.run s.tables = some tables) : Sound { s with tables } := by
  cases edit with
  | claimNextQueuedTurn | requeuePreemptedTurn => cases hsettles
  | finishTurn now turnId status =>
    cases hrun
    refine h.updateTurns _ ?_ s.requeues h.2.requeues
    intro row
    refine ⟨rfl, rfl, rfl, rfl, ?_⟩
    intro hqueued
    have hproper : ((turnStatusForFinish status).over || turnStatusForFinish status == .requiresAction) = true := hsettles
    have hstatus : turnStatusForFinish status = .queued := hqueued
    rw [hstatus] at hproper
    cases hproper
  | setSessionStatus status activeTurnId =>
    cases hrun
    exact ⟨h.1.congr rfl rfl rfl rfl, h.2.congr ⟨rfl, rfl, rfl, rfl⟩ rfl rfl rfl h.2.requeues⟩
  | cancelQueuedSessionTurn now turnId =>
    unfold TurnEdit.run Db.cancelQueuedSessionTurn at hrun
    dsimp only at hrun
    split at hrun
    · cases hrun
      refine h.updateTurns _ ?_ s.requeues h.2.requeues
      exact fun row => ⟨rfl, rfl, rfl, rfl, fun hqueued => by cases hqueued⟩
    · cases hrun
  | cancelQueuedSessionTurns now =>
    cases hrun
    refine h.updateTurns _ ?_ s.requeues h.2.requeues
    exact fun row => ⟨rfl, rfl, rfl, rfl, fun hqueued => by cases hqueued⟩

theorem Sound.storeItems (h : s.Sound) (hstarted : s.started turnId = true)
    (hok : ∀ turn ∈ s.tables.turns, turn.id = turnId → turn.status = .queued →
      s.tables.isNotice turn.triggerEventId = true) : Sound { s with stored := s.stored ++ [turnId] } := by
  obtain ⟨hbooks, hkept⟩ := h
  refine ⟨hbooks.congr rfl rfl rfl rfl, ?_⟩
  refine ⟨hkept.turnIds, hkept.eventIds, hkept.cardTurns, hkept.cardEvents, hkept.owned, ?_, hkept.cards, ?_, ?_,
    hkept.first, hkept.claims, hkept.folds⟩
  · intro turn hturn hchild
    obtain ⟨card, hholds⟩ := hkept.turns turn hturn hchild
    refine ⟨card, hholds.mem, hholds.summaries, hholds.trigger, hholds.fresh, ?_⟩
    intro hqueued hstored
    rcases List.mem_append.1 hstored with hold | hlast
    · exact hholds.resumed hqueued hold
    · exact hok turn hturn (List.mem_singleton.1 hlast) hqueued
  · intro e he
    have hcall := hkept.requeues e he
    exact ⟨hcall.started, hcall.trigger, hcall.notice⟩
  · intro turnId' hmem
    rcases List.mem_append.1 hmem with hold | hlast
    · exact hkept.stored turnId' hold
    · rw [List.mem_singleton.1 hlast]
      exact hstarted

theorem Sound.claim (h : s.Sound) (now : ℕ) : (s.claim now).Sound := by
  obtain ⟨hbooks, hkept⟩ := h
  unfold ChildHistory.claim claimNextQueuedTurn
  cases hnext : nextQueuedTurn s.tables.turns with
  | none => exact ⟨hbooks, hkept⟩
  | some turn =>
    obtain ⟨hturn, hstatus⟩ := List.mem_filter.1 (List.argmin_mem hnext)
    have hqueued : turn.status = .queued := by simpa using hstatus
    let f : TurnRow → TurnRow := fun row =>
      if row.id == turn.id then { row with status := .running, startedAt := some now } else row
    have hf : ∀ row, (f row).id = row.id ∧ (f row).triggerEventId = row.triggerEventId ∧
        (f row).metadata = row.metadata ∧ ((f row).status = .queued → row.status = .queued) := by
      intro row
      by_cases hid : row.id = turn.id
      · simp [f, hid]
      · simp [f, hid]
    have hmono : ∀ turnId claim, s.started turnId = true → (s.claims ++ [claim]).any (·.turnId == turnId) = true := by
      intro turnId claim hstarted
      rw [List.any_append]
      exact Bool.or_eq_true_iff.2 (.inl hstarted)
    have hthere : ∀ turnId, s.hasTurn turnId = true → (s.tables.turns.map f).any (·.id == turnId) = true := by
      intro turnId hany
      obtain ⟨row, hrow, hid⟩ := List.any_eq_true.1 hany
      refine List.any_eq_true.2 ⟨f row, List.mem_map_of_mem hrow, ?_⟩
      rw [(hf row).1]
      exact hid
    refine ⟨hbooks.congr rfl rfl rfl rfl, ?_⟩
    refine ⟨?_, hkept.eventIds, hkept.cardTurns, hkept.cardEvents, hkept.owned, ?_, ?_, ?_, ?_, ?_, ?_, hkept.folds⟩
    · have hids := map_rowIds (fun row => (hf row).1) s.tables.turns
      exact hids.symm ▸ hkept.turnIds
    · intro row' hrow' hchild
      obtain ⟨row, hrow, rfl⟩ := List.mem_map.1 (show row' ∈ s.tables.turns.map f from hrow')
      rw [(hf row).2.2.1] at hchild
      obtain ⟨card, hholds⟩ := hkept.turns row hrow hchild
      refine ⟨card, ?_, ?_, ?_, ?_, ?_⟩
      · rw [(hf row).1]
        exact hholds.mem
      · rw [(hf row).1, (hf row).2.2.1]
        exact hholds.summaries
      · rw [(hf row).2.1]
        exact hholds.trigger
      · rw [(hf row).1, (hf row).2.1]
        intro hfresh
        apply hholds.fresh
        rw [Bool.eq_false_iff]
        intro hstarted
        exact absurd ((hmono _ _ hstarted).symm.trans hfresh) (by decide)
      · rw [(hf row).1, (hf row).2.1]
        exact fun hagain hstored => hholds.resumed ((hf row).2.2.2 hagain) hstored
    · intro card hcard
      obtain ⟨⟨row, hrow, hid, hchild⟩, htells⟩ := hkept.cards card hcard
      refine ⟨⟨f row, List.mem_map_of_mem hrow, (hf row).1.trans hid, ?_⟩, htells⟩
      rw [(hf row).2.2.1]
      exact hchild
    · intro e he
      have hcall := hkept.requeues e he
      exact ⟨hmono _ _ hcall.started, hcall.trigger, hcall.notice⟩
    · exact fun turnId hmem => hmono _ _ (hkept.stored turnId hmem)
    · intro turnId hdigest hstarted
      by_cases hbefore : s.started turnId = true
      · obtain ⟨claim, hclaim, hspec⟩ := hkept.first turnId hdigest hbefore
        exact ⟨claim, List.mem_append_left _ hclaim, hspec⟩
      · -- the turn is claimed for the first time, through its card
        refine ⟨_, List.mem_append_right _ (List.mem_singleton.2 rfl), ?_⟩
        obtain ⟨claim, hclaim, hid⟩ := List.any_eq_true.1 hstarted
        rcases List.mem_append.1 hclaim with hold | hlast
        · exact absurd (List.any_eq_true.2 ⟨claim, hold, hid⟩) hbefore
        rw [List.mem_singleton.1 hlast] at hid
        obtain rfl : turn.id = turnId := beq_iff_eq.1 hid
        obtain ⟨card, hcard, hcardId⟩ := List.mem_map.1 hdigest
        have hholds : s.Holds turn card.2 := hkept.holds hturn (hcardId ▸ hcard)
        refine ⟨rfl, ?_⟩
        rw [hholds.fresh (Bool.eq_false_iff.2 hbefore)]
        exact hkept.not_notice hholds.mem
    · intro claim hclaim
      rcases List.mem_append.1 hclaim with hold | hlast
      · obtain ⟨hrow, hspec⟩ := hkept.claims claim hold
        exact ⟨hthere _ hrow, hspec⟩
      · rw [List.mem_singleton.1 hlast]
        refine ⟨hthere _ (List.any_eq_true.2 ⟨turn, hturn, beq_self_eq_true _⟩), fun hdigest => ?_⟩
        obtain ⟨card, hcard, hcardTurn⟩ := List.mem_map.1 hdigest
        have hcardId : card.1 = turn.id := hcardTurn
        have hholds : s.Holds turn card.2 := hkept.holds hturn (hcardId ▸ hcard)
        obtain ⟨-, event, hevent, hid, -, htells⟩ := hkept.cards card hcard
        refine ⟨?_, fun hstored => hholds.resumed hqueued (by simpa using hstored)⟩
        rcases hholds.trigger with hown | hnotice
        · refine .inr ?_
          rw [hown, ← hid, event?_eq hkept.eventIds hevent]
          rw [hcardId] at htells
          exact htells
        · exact .inl hnotice

theorem Kept.call (h : s.Kept) (hturn : turn ∈ s.tables.turns) (hstarted : s.started turn.id = true) {call : RequeueCall}
    (hid : call.turnId = turn.id) (htrigger : call.triggerEventId = turn.triggerEventId)
    (hnone : call.preemptedEventId = none) : s.RequeueSound call := by
  refine ⟨?_, ?_, ?_⟩
  · rw [hid]
    exact hstarted
  · intro card hcard
    rw [hid] at hcard
    rw [htrigger]
    exact (h.holds hturn hcard).trigger
  · rw [hnone]
    exact fun _ hmem => absurd hmem (Option.not_mem_none _)

theorem Sound.preempt (h : s.Sound) {resumeWithNotice : Bool} {text : String}
    (hstep : s.preempt i turnId resumeWithNotice text = some s') : s'.Sound := by
  unfold ChildHistory.preempt at hstep
  split at hstep
  · cases hstep
  case isFalse hguard =>
    have hstarted : s.started turnId = true := by
      rw [← Bool.not_eq_false]
      exact (not_or.1 hguard).2
    obtain ⟨turn, hfound, rfl⟩ := Option.map_eq_some_iff.1 hstep
    obtain ⟨hturn, rfl⟩ := mem_of_turn? hfound
    refine ⟨h.1.congr rfl rfl rfl rfl, h.2.congr ⟨rfl, rfl, rfl, rfl⟩ rfl rfl rfl ?_⟩
    exact Slots.forall_put h.2.requeues (h.2.call hturn hstarted rfl rfl rfl)

theorem requeueTurnAfterWorkerDeath_spec {triggerEventId storedItems : ℕ} {result : Option RequeueCall}
    (h : requeueTurnAfterWorkerDeath turnId triggerEventId storedItems t = (t', result)) :
    (t' = t ∨ t' = t.updateTurn turnId fun turn =>
        { turn with metadata := { turn.metadata with workerDeathRedispatches := some (turn.redispatches + 1) } }) ∧
      ∀ call ∈ result, call.turnId = turnId ∧ call.triggerEventId = triggerEventId ∧ call.preemptedEventId = none := by
  unfold requeueTurnAfterWorkerDeath incrementTurnWorkerDeathRedispatches at h
  split at h
  · cases h
    exact ⟨.inl rfl, fun _ hmem => absurd hmem (Option.not_mem_none _)⟩
  · cases hfound : t.turn? turnId with
    | none =>
      rw [hfound] at h
      cases h
      exact ⟨.inl rfl, fun _ hmem => absurd hmem (Option.not_mem_none _)⟩
    | some turn =>
      rw [hfound] at h
      dsimp only [Option.map_some] at h
      split at h
      · cases h
        exact ⟨.inr rfl, fun _ hmem => absurd hmem (Option.not_mem_none _)⟩
      · cases h
        refine ⟨.inr rfl, ?_⟩
        intro call hcall
        cases hcall
        exact ⟨rfl, rfl, rfl⟩

theorem Sound.workerDeath (h : s.Sound) (hstep : s.workerDeath i turnId = some s') : s'.Sound := by
  unfold ChildHistory.workerDeath at hstep
  split at hstep
  · cases hstep
  case isFalse hguard =>
    have hstarted : s.started turnId = true := by
      rw [← Bool.not_eq_false]
      exact (not_or.1 hguard).2
    obtain ⟨turn, hfound, heq⟩ := Option.map_eq_some_iff.1 hstep
    obtain ⟨hturn, rfl⟩ := mem_of_turn? hfound
    have hany : ∀ t' requeues, (t' = s.tables ∨ t' = s.tables.updateTurn turn.id fun turn =>
        { turn with metadata := { turn.metadata with workerDeathRedispatches := some (turn.redispatches + 1) } }) →
        (∀ e ∈ requeues, s.RequeueSound e.2) → Sound { s with tables := t', requeues } := by
      rintro t' requeues (rfl | rfl) hrequeues
      · exact ⟨h.1.congr rfl rfl rfl rfl, h.2.congr ⟨rfl, rfl, rfl, rfl⟩ rfl rfl rfl hrequeues⟩
      · refine h.updateTurns _ ?_ requeues hrequeues
        exact fun row => ⟨rfl, rfl, rfl, rfl, id⟩
    cases hcall : requeueTurnAfterWorkerDeath turn.id turn.triggerEventId (s.stored.count turn.id) s.tables with
    | mk t' result =>
      obtain ⟨htables, hspec⟩ := requeueTurnAfterWorkerDeath_spec hcall
      rw [hcall] at heq
      cases result with
      | none =>
        cases heq
        exact hany t' s.requeues htables h.2.requeues
      | some call =>
        cases heq
        obtain ⟨hid, htrigger, hnone⟩ := hspec call rfl
        exact hany t' _ htables (Slots.forall_put h.2.requeues (h.2.call hturn hstarted hid htrigger hnone))

theorem Sound.append (h : s.Sound) (inputs : List EventInput) (hnew : s.newEvents (inputs.map (·.id)) = true)
    (hquiet : ∀ input ∈ inputs, input.clientEventId = none) : Sound { s with tables := s.tables.append inputs } := by
  obtain ⟨hnodup, hfresh⟩ := newEvents_spec hnew
  refine ⟨⟨h.1.active, ?_, h.1.nodup, h.1.asked⟩, ?_⟩
  · have hnone : inputs.filterMap (·.clientEventId) = [] := List.filterMap_eq_nil_iff.2 hquiet
    rw [append_clientIds, hnone, List.append_nil]
    exact h.1.clientIds
  · exact h.2.append inputs hnodup fun input hinput => hfresh _ (List.mem_map_of_mem hinput)

theorem Sound.appendPreempted (h : s.Sound) {eventId statusEventId : ℕ}
    (hstep : s.appendPreempted i eventId statusEventId = some s') : s'.Sound := by
  unfold ChildHistory.appendPreempted at hstep
  cases hget : Slots.get i s.requeues with
  | none =>
    rw [hget] at hstep
    cases hstep
  | some call =>
    rw [hget] at hstep
    dsimp only at hstep
    split at hstep
    · cases hstep
    case isFalse hnew =>
      cases hstep
      have happended := h.append [call.preempted eventId, call.statusChanged statusEventId]
        (by simpa [RequeueCall.preempted, RequeueCall.statusChanged] using hnew)
        (by simp [RequeueCall.preempted, RequeueCall.statusChanged])
      refine ⟨happended.1.congr rfl rfl rfl rfl, happended.2.congr ⟨rfl, rfl, rfl, rfl⟩ rfl rfl rfl ?_⟩
      have hcall := happended.2.requeues _ (Slots.mem_of_get hget)
      refine Slots.forall_put happended.2.requeues ⟨hcall.started, hcall.trigger, ?_⟩
      rintro _ ⟨⟩
      obtain ⟨event, hevent, hid, htype, -⟩ := numberEvents_mem
        (List.mem_cons_self : call.preempted eventId ∈ [call.preempted eventId, call.statusChanged statusEventId])
        s.tables.session.lastSequence
      exact (isNotice_iff happended.2.eventIds).2 ⟨event, List.mem_append_right _ hevent, hid, htype⟩

theorem Sound.requeue (h : s.Sound)
    (hok : ∀ call ∈ Slots.get i s.requeues, call.resumeWithNotice = true ∨ call.turnId ∉ s.stored)
    (hstep : s.requeue i = some s') : s'.Sound := by
  unfold ChildHistory.requeue at hstep
  cases hget : Slots.get i s.requeues with
  | none =>
    rw [hget] at hstep
    cases hstep
  | some call =>
    rw [hget] at hstep hok
    dsimp only at hstep
    split at hstep
    · cases hstep
    case isFalse hready =>
      have hcall := h.2.requeues _ (Slots.mem_of_get hget)
      have hrest := Slots.forall_drop h.2.requeues (k := i)
      cases hrun : requeuePreemptedTurn call.turnId call.resumeTrigger call.fromStatuses s.tables with
      | none =>
        rw [hrun] at hstep
        cases hstep
        exact ⟨h.1.congr rfl rfl rfl rfl, h.2.congr ⟨rfl, rfl, rfl, rfl⟩ rfl rfl rfl hrest⟩
      | some tables =>
        rw [hrun] at hstep
        cases hstep
        unfold requeuePreemptedTurn at hrun
        split at hrun
        case isFalse => cases hrun
        cases hrun
        -- the notice where there is one, else what triggered the turn before
        have htrigger : (call.resumeWithNotice = true ∧ s.tables.isNotice call.resumeTrigger = true) ∨
            (call.resumeWithNotice = false ∧ call.resumeTrigger = call.triggerEventId) := by
          unfold RequeueCall.resumeTrigger
          by_cases hnotice : call.resumeWithNotice = true
          · rw [if_pos hnotice]
            cases hpreempted : call.preemptedEventId with
            | none =>
              rw [hnotice, hpreempted] at hready
              exact absurd rfl hready
            | some eventId => exact .inl ⟨hnotice, hcall.notice eventId hpreempted⟩
          · rw [if_neg hnotice]
            exact .inr ⟨Bool.eq_false_iff.2 hnotice, rfl⟩
        refine ⟨h.1.congr rfl rfl rfl rfl, ?_⟩
        let p : TurnRow → Bool := fun row => row.id == call.turnId && call.fromStatuses.contains row.status
        let f : TurnRow → TurnRow := fun row =>
          if p row then
            { row with
              status := .queued
              triggerEventId := call.resumeTrigger
              startedAt := none
              finishedAt := none }
          else row
        have hf : ∀ row, (f row).id = row.id ∧ (f row).metadata = row.metadata := by
          intro row
          by_cases hp : p row = true
          · simp [f, hp]
          · simp [f, hp]
        have hturns : (s.tables.updateTurns p fun row =>
            { row with
              status := .queued
              triggerEventId := call.resumeTrigger
              startedAt := none
              finishedAt := none }).turns = s.tables.turns.map f ++ [] := (List.append_nil _).symm
        refine h.2.of_turns ⟨rfl, rfl, rfl, rfl⟩ hturns rfl ?_ ?_ (fun _ hmem => absurd hmem List.not_mem_nil) ?_ ?_ rfl
        · have hids := map_rowIds (fun row => (hf row).1) s.tables.turns
          exact hids.symm ▸ h.2.turnIds
        · intro row
          rw [(hf row).2]
          exact ⟨(hf row).1, rfl⟩
        · intro row hrow card hchild hholds
          by_cases hp : p row = true
          · have hid : row.id = call.turnId := by simpa using (Bool.and_eq_true_iff.1 hp).1
            have hmoved : (f row).triggerEventId = call.resumeTrigger := by simp [f, hp]
            have hmem : (call.turnId, card) ∈ s.cards := hid ▸ hholds.mem
            refine ⟨?_, ?_, ?_, ?_, ?_⟩
            · rw [(hf row).1]
              exact hholds.mem
            · rw [(hf row).1, (hf row).2]
              exact hholds.summaries
            · rw [hmoved]
              rcases htrigger with ⟨-, hnotice⟩ | ⟨-, hsame⟩
              · exact .inr hnotice
              · rw [hsame]
                exact hcall.trigger card hmem
            · rw [(hf row).1, hid]
              intro hfresh
              exact absurd (hcall.started.symm.trans hfresh) (by decide)
            · rw [(hf row).1, hid, hmoved]
              intro _ hstored
              rcases htrigger with ⟨-, hnotice⟩ | ⟨hwithout, -⟩
              · exact hnotice
              · rcases hok call rfl with hwith | hnone
                · exact absurd (hwith.symm.trans hwithout) (by decide)
                · exact absurd hstored hnone
          · have hsame : f row = row := if_neg hp
            rw [hsame]
            exact hholds.congr ⟨rfl, rfl, rfl, rfl⟩ rfl rfl rfl rfl rfl id
        · exact fun e he => (hrest e he).congr ⟨rfl, rfl, rfl, rfl⟩ rfl

theorem Sound.step (h : s.Sound) {e : ChildEvent} (hok : s.Orderly e) (hstep : s.step e = some s') : s'.Sound := by
  cases e with
  | wakeParentSessionForChildCompletion now input => exact h.wake hok hstep
  | claimNextQueuedTurn now =>
    cases hstep
    exact h.claim now
  | enqueueSessionTurn now input =>
    unfold ChildHistory.step at hstep
    dsimp only at hstep
    split at hstep
    · cases hstep
    case isFalse hguard =>
      cases hstep
      obtain ⟨hnew, hchild⟩ := not_or.1 hguard
      exact h.enqueueSessionTurn (Bool.eq_false_iff.2 hnew) (Bool.eq_false_iff.2 hchild)
  | turnEdit edit =>
    unfold ChildHistory.step at hstep
    dsimp only at hstep
    split at hstep
    case isFalse => cases hstep
    case isTrue hsettles =>
      obtain ⟨tables, hrun, rfl⟩ := Option.map_eq_some_iff.1 hstep
      exact h.turnEdit hsettles hrun
  | storeItems turnId =>
    unfold ChildHistory.step at hstep
    dsimp only at hstep
    split at hstep
    case isFalse => cases hstep
    case isTrue hstarted =>
      cases hstep
      exact h.storeItems hstarted hok
  | workerDeath i turnId => exact h.workerDeath hstep
  | preempt i turnId resumeWithNotice text => exact h.preempt hstep
  | appendPreempted i eventId statusEventId => exact h.appendPreempted hstep
  | requeue i => exact h.requeue hok hstep
  | appendEvents inputs =>
    unfold ChildHistory.step at hstep
    dsimp only at hstep
    split at hstep
    · cases hstep
    case isFalse hguard =>
      cases hstep
      obtain ⟨hnew, hids⟩ := not_or.1 hguard
      refine h.append inputs (by simpa using hnew) ?_
      intro input hinput
      have hnone := List.any_eq_false.1 (Bool.eq_false_iff.2 hids) input hinput
      simpa using hnone

theorem countP_clientEventId (clientEventId : String) (events : List EventRow) :
    events.countP (·.clientEventId == some clientEventId) = (events.filterMap (·.clientEventId)).count clientEventId := by
  induction events with
  | nil => rfl
  | cons event events ih =>
    rw [List.countP_cons, List.filterMap_cons, ih]
    cases event.clientEventId with
    | none => rfl
    | some id =>
      rw [List.count_cons, Option.some_beq_some]

theorem Sound.delivered (h : s.Sound) : s.Delivered := by
  obtain ⟨hbooks, hkept⟩ := h
  refine ⟨?_, ?_, ?_, ?_, hkept.folds⟩
  · intro clientEventId hasked
    have hmem := hbooks.asked clientEventId hasked
    have hone : (s.completions.map (·.clientEventId)).count clientEventId = 1 :=
      List.count_eq_one_of_mem hbooks.nodup hmem
    refine ⟨?_, ?_⟩
    · rw [countP_clientEventId, hbooks.clientIds]
      exact hone
    · rw [← hone, List.count, List.countP_map]
      rfl
  · intro c hc
    have hdigest := hkept.owned c hc
    refine ⟨hdigest, ?_⟩
    by_cases hstarted : s.started c.turnId = true
    · exact .inl (hkept.first c.turnId hdigest hstarted)
    · -- its card will be read at the first claim
      have hfresh := Bool.eq_false_iff.2 hstarted
      obtain ⟨card, hcard, hid⟩ := List.mem_map.1 hdigest
      obtain ⟨⟨turn, hturn, hturnId, -⟩, event, hevent, heventId, -, htells⟩ := hkept.cards card hcard
      have hholds : s.Holds turn card.2 := hkept.holds hturn (hturnId ▸ hcard)
      have htrigger := hholds.fresh ((hturnId.trans hid).symm ▸ hfresh)
      refine .inr ⟨hfresh, turn, hturn, hturnId.trans hid, event, hevent, heventId.trans htrigger.symm, ?_⟩
      rw [← hid]
      exact htells
  · exact fun claim hclaim hdigest => ((hkept.claims claim hclaim).2 hdigest).1
  · exact fun claim hclaim hdigest => ((hkept.claims claim hclaim).2 hdigest).2

end

/-- **In an orderly run each completion is delivered once.** -/
theorem completions_are_delivered {s s' : ChildHistory} {es : List ChildEvent} (hs : s.Fresh)
    (hrun : Run (Restrict (fun s e s' => s.step e = some s') Orderly) s es s') : s'.Delivered := by
  have hsound : s'.Sound := hrun.invariant (fun _ _ _ hstep h => h.step hstep.2 hstep.1) hs.sound
  exact hsound.delivered

/-! ## Folds that come too late -/

def idleManager : ChildHistory :=
  { tables :=
      { session := { id := 1, status := .idle, activeTurnId := none, lastSequence := 0, passiveMode := false }
        turns := [], goal := none, events := [], leases := [], waiter := none }
    asked := []
    completions := []
    cards := []
    claims := []
    stored := []
    requeues := []
    folds := [] }

def completionOf (clientEventId : String) (id : ℕ) : ChildEvent :=
  .wakeParentSessionForChildCompletion 0
    { childSummary := clientEventId, trailing := "", clientEventId, cardEventId := id, statusEventId := id + 1
      turnId := id + 2, queuedEventId := id + 3 }

def redispatch (turnId eventId : ℕ) : List ChildEvent :=
  [.workerDeath 0 turnId, .appendPreempted 0 eventId (eventId + 1), .requeue 0]

def foldedAfterDeath : List ChildEvent :=
  [completionOf "a" 10, .claimNextQueuedTurn 1] ++ redispatch 12 20 ++ [completionOf "b" 30]

def foldedIntoNotice : List ChildEvent :=
  [completionOf "a" 10, .claimNextQueuedTurn 1, .storeItems 12] ++ redispatch 12 20 ++
    [completionOf "b" 30, .claimNextQueuedTurn 2]

theorem late_fold_changes_trigger :
    idleManager.Fresh ∧
      (∃ s : ChildHistory, Run (fun s e s' => s.step e = some s') idleManager foldedAfterDeath s ∧
        s.folds = [{ turnId := 12, started := true, notice := false }] ∧ ¬ s.Delivered) ∧
      (∃ s : ChildHistory, Run (fun s e s' => s.step e = some s') idleManager foldedIntoNotice s ∧
        s.folds = [{ turnId := 12, started := true, notice := true }] ∧
        (∃ claim ∈ s.claims, claim.stored = true ∧ claim.text = some (buildChildCompletionDigest ["a", "b"] "")) ∧
        ¬ s.Delivered) := by
  have hlate : ∀ (s : ChildHistory) (fold : Fold), s.folds = [fold] → fold.started = true → ¬ s.Delivered := by
    intro s fold hfolds hstarted hdelivered
    have hfold := hdelivered.folds fold (hfolds ▸ List.mem_singleton.2 rfl)
    exact absurd (hstarted.symm.trans hfold.1) (by decide)
  refine ⟨by decide, ?_, ?_⟩
  · have hplay : ∃ s ∈ play step idleManager foldedAfterDeath,
        s.folds = [{ turnId := 12, started := true, notice := false }] := by decide +kernel
    obtain ⟨s, hs, hfolds⟩ := hplay
    exact ⟨s, run_of_play hs, hfolds, hlate s _ hfolds rfl⟩
  · have hplay : ∃ s ∈ play step idleManager foldedIntoNotice,
        s.folds = [{ turnId := 12, started := true, notice := true }] ∧
          ∃ claim ∈ s.claims, claim.stored = true ∧ claim.text = some (buildChildCompletionDigest ["a", "b"] "") := by
      decide +kernel
    obtain ⟨s, hs, hfolds, hclaim⟩ := hplay
    exact ⟨s, run_of_play hs, hfolds, hclaim, hlate s _ hfolds rfl⟩

/-- Two completions in one turn, which dies after its first item and comes back with a notice. -/
theorem digest_is_told_once :
    ∃ s : ChildHistory, s.Delivered ∧ s.asked = ["a", "b", "a"] ∧ s.claims.map (·.notice) = [false, true] := by
  have hplay : ∃ s ∈ play (guarded step Orderly) idleManager
      ([completionOf "a" 10, completionOf "b" 30, completionOf "a" 40, .claimNextQueuedTurn 1, .storeItems 12] ++
        redispatch 12 20 ++ [.claimNextQueuedTurn 2]),
      s.asked = ["a", "b", "a"] ∧ s.claims.map (·.notice) = [false, true] := by decide +kernel
  obtain ⟨s, hs, hspec⟩ := hplay
  have hfresh : idleManager.Fresh := by decide
  exact ⟨s, completions_are_delivered hfresh (guarded_run hs), hspec⟩

end ChildHistory

end OpenGeni.Db
