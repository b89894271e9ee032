/-
How the events of a session get their sequences.

A writer locks the session's row, reads `last_sequence` from it, inserts events with the
sequences after that, and writes back how far it has come. The lock keeps the others out in
between. One writer serves all sessions of a sandbox group at once: it locks the sessions that
it finds and inserts an event for each, and then it raises `last_sequence` of the sessions that
it finds again. A session that was created in the meantime is raised without an event.
-/
import OpenGeni.Db.SessionTables
import OpenGeni.Lib.Transactions

namespace OpenGeni.Db

open OpenGeni.Lib

/-! ## The rows -/

/-- What is read and written of a row of `sessions`. -/
structure LoggedSession where
  id : ℕ
  sandboxGroupId : ℕ
  lastSequence : ℕ
deriving DecidableEq

structure AppendEventInput where
  type : SessionEventType
  payload : EventPayload
  clientEventId : Option String
  turnId : Option ℕ

structure LoggedEvent where
  sessionId : ℕ
  sequence : ℕ
  input : AppendEventInput

/-- Sessions as they were created, and events as they were committed. -/
structure EventLog where
  sessions : List LoggedSession
  events : List LoggedEvent

def sequences (sessionId : ℕ) (events : List LoggedEvent) : List ℕ :=
  (events.filter (·.sessionId == sessionId)).map (·.sequence)

/-- The events of a session have the sequences from one to the last, as
they were committed. -/
def EventLog.Dense (d : EventLog) : Prop :=
  ∀ session ∈ d.sessions, sequences session.id d.events = List.range' 1 session.lastSequence

instance : DecidablePred EventLog.Dense := fun _ => inferInstanceAs (Decidable (∀ _ ∈ _, _ = _))

def EventLog.session? (sessionId : ℕ) (d : EventLog) : Option LoggedSession := d.sessions.find? (·.id == sessionId)

/-- `select id from sessions where sandbox_group_id = ..`. -/
def EventLog.group (sandboxGroupId : ℕ) (d : EventLog) : List ℕ :=
  (d.sessions.filter (·.sandboxGroupId == sandboxGroupId)).map (·.id)

/-- The events for the inputs, with the sequences after the given one. -/
def numberInputs (sessionId : ℕ) : ℕ → List AppendEventInput → List LoggedEvent
  | _, [] => []
  | sequence, input :: inputs =>
    { sessionId, sequence := sequence + 1, input } :: numberInputs sessionId (sequence + 1) inputs

/-! ## The writers -/

inductive LogRow
  | session (sessionId : ℕ)
  | goal (sessionId : ℕ)
  | turn (turnId : ℕ)
deriving DecidableEq

inductive LogStatement
  /-- `select .. for update`. -/
  | lock (row : LogRow)
  | insertEvents (sessionId : ℕ) (inputs : List AppendEventInput)
  /-- `update sessions set last_sequence = $sequence where id = ..`. -/
  | setLastSequence (sessionId : ℕ)
  /-- `select .. where sandbox_group_id = .. for update`. -/
  | lockGroup (sandboxGroupId : ℕ)
  | insertEventForEach (input : AppendEventInput)
  /-- `update sessions set last_sequence = last_sequence + 1 where sandbox_group_id = ..`. -/
  | bumpGroup (sandboxGroupId : ℕ)
  | bump (sessionId : ℕ)
  | insertSession (sessionId sandboxGroupId : ℕ)

/-- Locks the session, inserts, and writes the last sequence back. -/
def logTo (sessionId : ℕ) (batches : List (List AppendEventInput)) : List LogStatement :=
  .lock (.session sessionId) :: batches.map (.insertEvents sessionId) ++ [.setLastSequence sessionId]

/-- A call, with the events that it comes to insert. There are none where it finds nothing to do. -/
inductive LogCall
  | createSession (sessionId sandboxGroupId : ℕ)
  | appendSessionEvents (sessionId : ℕ) (inputs : List AppendEventInput)
  | appendSessionEventsAndUpdateSession (sessionId : ℕ) (inputs : List AppendEventInput)
  | appendSessionEventsWithLockedSessionUpdate (sessionId : ℕ) (built : List AppendEventInput)
  | appendSessionEventToSandboxGroup (sandboxGroupId : ℕ) (input : AppendEventInput)
  | clearSessionGoal (sessionId : ℕ) (cleared : Option AppendEventInput)
  /-- The card, with a change of status perhaps, and the queued turn unless it was folded. -/
  | wakeParentSessionForChildCompletion (parentSessionId : ℕ) (card : List AppendEventInput)
      (queued : Option AppendEventInput)
  | settleCodexCredentialFailover (sessionId turnId : ℕ) (settlement : List AppendEventInput)
  | settleCodexCredentialLeaseLoss (sessionId turnId : ℕ) (settlement : List AppendEventInput)

namespace LogCall

def settle (sessionId turnId : ℕ) (settlement : List AppendEventInput) : List LogStatement := match settlement with
  | [] => [.lock (.turn turnId), .lock (.session sessionId)]
  | _ => .lock (.turn turnId) :: logTo sessionId [settlement]

def program : LogCall → List LogStatement
  | .createSession sessionId sandboxGroupId => [.insertSession sessionId sandboxGroupId]
  | .appendSessionEvents _ [] => []
  | .appendSessionEvents sessionId inputs => logTo sessionId [inputs]
  | .appendSessionEventsAndUpdateSession _ [] => []
  | .appendSessionEventsAndUpdateSession sessionId inputs => logTo sessionId [inputs]
  | .appendSessionEventsWithLockedSessionUpdate sessionId [] => [.lock (.session sessionId)]
  | .appendSessionEventsWithLockedSessionUpdate sessionId built => logTo sessionId [built]
  | .appendSessionEventToSandboxGroup sandboxGroupId input =>
    [.lockGroup sandboxGroupId, .insertEventForEach input, .bumpGroup sandboxGroupId]
  | .clearSessionGoal sessionId none => [.lock (.goal sessionId)]
  | .clearSessionGoal sessionId (some cleared) => .lock (.goal sessionId) :: logTo sessionId [[cleared]]
  | .wakeParentSessionForChildCompletion parentSessionId [] _ => [.lock (.session parentSessionId)]
  | .wakeParentSessionForChildCompletion parentSessionId card queued =>
    logTo parentSessionId (card :: queued.toList.map ([·]))
  | .settleCodexCredentialFailover sessionId turnId settlement => settle sessionId turnId settlement
  | .settleCodexCredentialLeaseLoss sessionId turnId settlement => settle sessionId turnId settlement

end LogCall

/-! ## Their transactions -/

structure LogTxn where
  todo : List LogStatement
  held : List LogRow
  /-- The sessions that were read under their locks, with the sequence that is counted up. -/
  rows : List (ℕ × ℕ)
  events : List LoggedEvent
  written : List (ℕ × ℕ)
  created : List LoggedSession

namespace LogTxn

def sequence? (sessionId : ℕ) (x : LogTxn) : Option ℕ := (x.rows.find? (·.1 == sessionId)).map Prod.snd

def waitsFor (others : List LogTxn) (row : LogRow) : Bool := others.any (·.held.contains row)

def exec (d : EventLog) (others : List LogTxn) (x : LogTxn) : Option LogTxn := match x.todo with
  | [] => none
  | .lock row :: todo =>
    if waitsFor others row then none
    else
      match row with
      | .session sessionId =>
        (d.session? sessionId).map fun session =>
          { x with todo, held := row :: x.held, rows := x.rows ++ [(sessionId, session.lastSequence)] }
      | _ => some { x with todo, held := row :: x.held }
  | .insertEvents sessionId inputs :: todo =>
    (x.sequence? sessionId).map fun sequence =>
      { x with
        todo
        events := x.events ++ numberInputs sessionId sequence inputs
        rows := x.rows.map fun row => if row.1 = sessionId then (row.1, sequence + inputs.length) else row }
  | .setLastSequence sessionId :: todo =>
    (x.sequence? sessionId).map fun sequence => { x with todo, written := x.written ++ [(sessionId, sequence)] }
  | .lockGroup sandboxGroupId :: todo =>
    some { x with todo := (d.group sandboxGroupId).map (fun sessionId => .lock (.session sessionId)) ++ todo }
  | .insertEventForEach input :: todo =>
    -- without a session the call returns here
    if x.rows = [] then some { x with todo := [] }
    else
      some { x with
          todo
          events := x.rows.flatMap fun row => numberInputs row.1 row.2 [input]
          rows := x.rows.map fun row => (row.1, row.2 + 1) }
  | .bumpGroup sandboxGroupId :: todo => some { x with todo := (d.group sandboxGroupId).map .bump ++ todo }
  | .bump sessionId :: todo =>
    if waitsFor others (.session sessionId) then none
    else
      (d.session? sessionId).map fun session =>
        { x with
          todo
          held := .session sessionId :: x.held
          written := x.written ++ [(sessionId, session.lastSequence + 1)] }
  | .insertSession sessionId sandboxGroupId :: todo =>
    if (d.session? sessionId).isSome || others.any (·.created.any (·.id == sessionId)) then none
    else some { x with todo, created := x.created ++ [{ id := sessionId, sandboxGroupId, lastSequence := 0 }] }

def update (x : LogTxn) (session : LoggedSession) : LoggedSession := match x.written.find? (·.1 == session.id) with
  | some write => { session with lastSequence := write.2 }
  | none => session

end LogTxn

/-- The transactions that append events, and those that create sessions. -/
def eventWriters : Transactions LogCall EventLog LogTxn where
  start call := { todo := call.program, held := [], rows := [], events := [], written := [], created := [] }
  exec := LogTxn.exec
  finished x := x.todo = []
  commit d x :=
    { sessions := d.sessions.map x.update ++ x.created, events := d.events ++ x.events }
  observe _ y := y

def LogTxn.bumps (x : LogTxn) : Option ℕ := match x.todo with
  | .bumpGroup sandboxGroupId :: _ => some sandboxGroupId
  | _ => none

/-- The update of the group finds only sessions that its transaction has locked. -/
def FindsLocked (s : Transactions.State EventLog LogTxn) : Transactions.Event LogCall → Prop
  | .exec i => ∀ x ∈ s.opened.get i, ∀ sandboxGroupId ∈ x.bumps, ∀ sessionId ∈ s.data.group sandboxGroupId,
      sessionId ∈ x.rows.map Prod.fst
  | _ => True

instance (s : Transactions.State EventLog LogTxn) : DecidablePred (FindsLocked s)
  | .exec _ => inferInstanceAs (Decidable (∀ _ ∈ _, ∀ _ ∈ _, ∀ _ ∈ _, _))
  | .start _ _ => .isTrue trivial
  | .commit _ => .isTrue trivial
  | .rollback _ => .isTrue trivial

/-! ## Sequences -/

section

variable {d : EventLog} {sessionId : ℕ} {events events' : List LoggedEvent} {inputs : List AppendEventInput}

theorem sequences_append : sequences sessionId (events ++ events') = sequences sessionId events ++ sequences sessionId events' := by
  unfold sequences
  rw [List.filter_append, List.map_append]

theorem sequences_of_none (h : ∀ e ∈ events, e.sessionId ≠ sessionId) : sequences sessionId events = [] := by
  unfold sequences
  rw [List.map_eq_nil_iff, List.filter_eq_nil_iff]
  intro e he
  simpa using h e he

theorem mem_numberInputs {sequence : ℕ} {e : LoggedEvent} (h : e ∈ numberInputs sessionId sequence inputs) :
    e.sessionId = sessionId := by
  induction inputs generalizing sequence with
  | nil => exact absurd h List.not_mem_nil
  | cons input inputs ih =>
    rcases List.mem_cons.1 h with rfl | hrest
    · rfl
    · exact ih hrest

theorem sequences_numberInputs (sequence : ℕ) :
    sequences sessionId (numberInputs sessionId sequence inputs) = List.range' (sequence + 1) inputs.length := by
  induction inputs generalizing sequence with
  | nil => rfl
  | cons input inputs ih =>
    have hrest := ih (sequence + 1)
    unfold sequences at hrest ⊢
    rw [numberInputs, List.filter_cons_of_pos (by simp), List.map_cons, hrest, List.length_cons, List.range'_succ]

theorem session?_eq {session : LoggedSession} (h : d.session? sessionId = some session) :
    session ∈ d.sessions ∧ session.id = sessionId :=
  ⟨List.mem_of_find?_eq_some h, by simpa using List.find?_some h⟩

theorem mem_group {sandboxGroupId : ℕ} :
    sessionId ∈ d.group sandboxGroupId ↔ ∃ session ∈ d.sessions, session.sandboxGroupId = sandboxGroupId ∧ session.id = sessionId := by
  unfold EventLog.group
  simp [and_assoc]

end

/-! ## What is known -/

/-- The log is dense, ids are given once, and every event has its session. -/
structure EventLog.Good (d : EventLog) : Prop where
  ids : (d.sessions.map (·.id)).Nodup
  owned : ∀ e ∈ d.events, ∃ session ∈ d.sessions, session.id = e.sessionId
  dense : d.Dense

namespace LogTxn

inductive Point (d : EventLog) : LogTxn → Prop
  | looking {locks : List LogRow} {held : List LogRow} {rows : List (ℕ × ℕ)} :
      Point d { todo := locks.map .lock, held, rows, events := [], written := [], created := [] }
  | locking {locks : List LogRow} {sessionId : ℕ} {batches : List (List AppendEventInput)} {held : List LogRow}
      (hlocks : ∀ row ∈ locks, ∀ other, row ≠ .session other) :
      Point d
        { todo := locks.map .lock ++ logTo sessionId batches, held, rows := [], events := [], written := [], created := [] }
  | inserting {sessionId sequence : ℕ} {batches : List (List AppendEventInput)} {held : List LogRow}
      {events : List LoggedEvent} :
      Point d
        { todo := batches.map (.insertEvents sessionId) ++ [.setLastSequence sessionId], held
          rows := [(sessionId, sequence)], events, written := [], created := [] }
  | written {sessionId sequence : ℕ} {held : List LogRow} {events : List LoggedEvent} :
      Point d
        { todo := [], held, rows := [(sessionId, sequence)], events, written := [(sessionId, sequence)], created := [] }
  | findingGroup {sandboxGroupId : ℕ} {input : AppendEventInput} :
      Point d
        { todo := [.lockGroup sandboxGroupId, .insertEventForEach input, .bumpGroup sandboxGroupId], held := []
          rows := [], events := [], written := [], created := [] }
  | lockingGroup {sandboxGroupId : ℕ} {input : AppendEventInput} {sessionIds : List ℕ} {held : List LogRow}
      {rows : List (ℕ × ℕ)} (hids : (rows.map Prod.fst ++ sessionIds).Nodup)
      (hgroup : ∀ sessionId ∈ rows.map Prod.fst ++ sessionIds, sessionId ∈ d.group sandboxGroupId) :
      Point d
        { todo := sessionIds.map (fun sessionId => .lock (.session sessionId)) ++
            [.insertEventForEach input, .bumpGroup sandboxGroupId]
          held, rows, events := [], written := [], created := [] }
  | insertedGroup {sandboxGroupId : ℕ} {held : List LogRow} {rows : List (ℕ × ℕ)} {events : List LoggedEvent}
      (hone : ∀ row ∈ rows, ∀ session ∈ d.sessions, session.id = row.1 → row.2 = session.lastSequence + 1)
      (hgroup : ∀ sessionId ∈ rows.map Prod.fst, sessionId ∈ d.group sandboxGroupId) :
      Point d { todo := [.bumpGroup sandboxGroupId], held, rows, events, written := [], created := [] }
  | bumping {sessionIds : List ℕ} {held : List LogRow} {rows written : List (ℕ × ℕ)} {events : List LoggedEvent}
      (hone : ∀ row ∈ rows, ∀ session ∈ d.sessions, session.id = row.1 → row.2 = session.lastSequence + 1)
      (hlocked : ∀ sessionId ∈ sessionIds, sessionId ∈ rows.map Prod.fst)
      (hrest : ∀ row ∈ rows, row ∈ written ∨ row.1 ∈ sessionIds) :
      Point d { todo := sessionIds.map .bump, held, rows, events, written, created := [] }
  | creating {sessionId sandboxGroupId : ℕ} :
      Point d
        { todo := [.insertSession sessionId sandboxGroupId], held := [], rows := [], events := [], written := []
          created := [] }
  | created {session : LoggedSession} (hzero : session.lastSequence = 0) :
      Point d { todo := [], held := [], rows := [], events := [], written := [], created := [session] }

/-- What a transaction knows of the sessions it has locked, and what it has inserted for them. -/
structure Knows (d : EventLog) (x : LogTxn) : Prop where
  held : ∀ row ∈ x.rows, .session row.1 ∈ x.held
  rows : ∀ row ∈ x.rows, ∃ session ∈ d.sessions, session.id = row.1 ∧ session.lastSequence ≤ row.2 ∧
    sequences row.1 x.events = List.range' (session.lastSequence + 1) (row.2 - session.lastSequence)
  events : ∀ e ∈ x.events, e.sessionId ∈ x.rows.map Prod.fst
  written : ∀ write ∈ x.written, write ∈ x.rows
  created : ∀ session ∈ x.created, ∀ other ∈ d.sessions, other.id ≠ session.id

def Inv (d : EventLog) (x : LogTxn) : Prop := x.Point d ∧ x.Knows d

def Apart (x y : LogTxn) : Prop :=
  (∀ row ∈ x.held, row ∉ y.held) ∧ ∀ session ∈ x.created, ∀ other ∈ y.created, session.id ≠ other.id

section

variable {d : EventLog} {x x' y : LogTxn} {others : List LogTxn} {todo : List LogStatement} {row : LogRow}

theorem Apart.symm (h : x.Apart y) : y.Apart x :=
  ⟨fun row hy hx => h.1 row hx hy, fun session hy other hx heq => h.2 other hx session hy heq.symm⟩

theorem not_held_of_waitsFor (h : waitsFor others row = false) : ∀ y ∈ others, row ∉ y.held := by
  intro y hy hmem
  have hall := List.any_eq_false.1 h y hy
  exact hall (by simpa using hmem)

/-! ### One statement -/

theorem exec_apart (h : x.exec d others = some x') (hy : y ∈ others) (hapart : x.Apart y) : x'.Apart y := by
  unfold exec at h
  have hlock : ∀ {row : LogRow} {held : List LogRow}, waitsFor others row = false → held = row :: x.held →
      ∀ r ∈ held, r ∉ y.held := by
    intro row held hfree heq r hr
    rw [heq] at hr
    rcases List.mem_cons.1 hr with rfl | hold
    · exact not_held_of_waitsFor hfree y hy
    · exact hapart.1 r hold
  split at h
  · cases h
  · split at h
    · cases h
    case isFalse hfree =>
      have hfree := Bool.eq_false_iff.2 hfree
      split at h
      · obtain ⟨session, -, rfl⟩ := Option.map_eq_some_iff.1 h
        exact ⟨hlock hfree rfl, hapart.2⟩
      · cases h
        exact ⟨hlock hfree rfl, hapart.2⟩
  · obtain ⟨sequence, -, rfl⟩ := Option.map_eq_some_iff.1 h
    exact hapart
  · obtain ⟨sequence, -, rfl⟩ := Option.map_eq_some_iff.1 h
    exact hapart
  · cases h
    exact hapart
  · split at h
    · cases h
      exact hapart
    · cases h
      exact hapart
  · cases h
    exact hapart
  · split at h
    · cases h
    case isFalse hfree =>
      obtain ⟨session, -, rfl⟩ := Option.map_eq_some_iff.1 h
      exact ⟨hlock (Bool.eq_false_iff.2 hfree) rfl, hapart.2⟩
  · split at h
    · cases h
    case isFalse hnew =>
      cases h
      refine ⟨hapart.1, ?_⟩
      intro session hsession other hother heq
      rcases List.mem_append.1 hsession with hold | hlast
      · exact hapart.2 session hold other hother heq
      · rw [List.mem_singleton.1 hlast] at heq
        apply hnew
        have hany : (others.any fun y => y.created.any fun session => session.id == _) = true :=
          List.any_eq_true.2 ⟨y, hy, List.any_eq_true.2 ⟨other, hother, by simpa using heq.symm⟩⟩
        rw [hany, Bool.or_true]

theorem Knows.of_held (h : x.Knows d) {held : List LogRow} (hheld : ∀ row ∈ x.held, row ∈ held) (todo : List LogStatement) :
    Knows d { x with todo, held } :=
  ⟨fun row hrow => hheld _ (h.held row hrow), h.rows, h.events, h.written, h.created⟩

variable {session : LoggedSession} {rest : List LogStatement}

theorem Knows.lock (h : x.Knows d) (hsession : session ∈ d.sessions) (hnone : x.events = [])
    (todo : List LogStatement) :
    Knows d { x with
        todo
        held := .session session.id :: x.held
        rows := x.rows ++ [(session.id, session.lastSequence)] } := by
  refine ⟨?_, ?_, ?_, fun write hwrite => List.mem_append_left _ (h.written write hwrite), h.created⟩
  · intro row hrow
    rcases List.mem_append.1 hrow with hold | hlast
    · exact List.mem_cons_of_mem _ (h.held row hold)
    · rw [List.mem_singleton.1 hlast]
      exact List.mem_cons_self
  · intro row hrow
    rcases List.mem_append.1 hrow with hold | hlast
    · exact h.rows row hold
    · rw [List.mem_singleton.1 hlast]
      refine ⟨session, hsession, rfl, le_refl _, ?_⟩
      rw [hnone, Nat.sub_self]
      rfl
  · intro e he
    rw [hnone] at he
    exact absurd he List.not_mem_nil

theorem exec_lock (htodo : x.todo = .lock row :: rest) (h : x.exec d others = some x') :
    (x' = { x with todo := rest, held := row :: x.held } ∧ ∀ sessionId, row ≠ .session sessionId) ∨
      ∃ session ∈ d.sessions, row = .session session.id ∧
        x' = { x with todo := rest, held := row :: x.held, rows := x.rows ++ [(session.id, session.lastSequence)] } := by
  unfold exec at h
  rw [htodo] at h
  dsimp only at h
  split at h
  · cases h
  split at h
  case h_1 sessionId =>
    obtain ⟨session, hfound, rfl⟩ := Option.map_eq_some_iff.1 h
    obtain ⟨hmem, rfl⟩ := session?_eq hfound
    exact .inr ⟨session, hmem, rfl, rfl⟩
  case h_2 hnot =>
    cases h
    exact .inl ⟨rfl, fun sessionId heq => hnot sessionId heq⟩

theorem exec_bump {sessionId : ℕ} (htodo : x.todo = .bump sessionId :: rest) (h : x.exec d others = some x') :
    ∃ session ∈ d.sessions, session.id = sessionId ∧ x' = { x with
          todo := rest
          held := .session sessionId :: x.held
          written := x.written ++ [(sessionId, session.lastSequence + 1)] } := by
  unfold exec at h
  rw [htodo] at h
  dsimp only at h
  split at h
  · cases h
  obtain ⟨session, hfound, rfl⟩ := Option.map_eq_some_iff.1 h
  obtain ⟨hsession, hid⟩ := session?_eq hfound
  exact ⟨session, hsession, hid, rfl⟩

theorem range'_snoc (start count more : ℕ) :
    List.range' start count ++ List.range' (start + count) more = List.range' start (count + more) :=
  List.range'_append_1

theorem Knows.insert {sessionId sequence : ℕ} (h : x.Knows d) (hrows : x.rows = [(sessionId, sequence)])
    (inputs : List AppendEventInput) (todo : List LogStatement) (hwritten : x.written = []) :
    Knows d { x with
        todo
        rows := [(sessionId, sequence + inputs.length)]
        events := x.events ++ numberInputs sessionId sequence inputs } := by
  have hmem : (sessionId, sequence) ∈ x.rows := by
    rw [hrows]
    exact List.mem_singleton.2 rfl
  refine ⟨?_, ?_, ?_, ?_, h.created⟩
  · intro row hrow
    rw [List.mem_singleton.1 hrow]
    exact h.held (sessionId, sequence) hmem
  · intro row hrow
    obtain ⟨session, hsession, hid, hle, hseq⟩ := h.rows _ hmem
    rw [List.mem_singleton.1 hrow]
    refine ⟨session, hsession, hid, hle.trans (Nat.le_add_right _ _), ?_⟩
    have hstart : sequence + 1 = session.lastSequence + 1 + (sequence - session.lastSequence) := by omega
    have hcount : sequence + inputs.length - session.lastSequence =
        sequence - session.lastSequence + inputs.length := by omega
    rw [sequences_append, hseq, sequences_numberInputs, hstart, range'_snoc, hcount]
  · intro e he
    rcases List.mem_append.1 he with hold | hnew
    · have hbefore := h.events e hold
      rw [hrows] at hbefore
      exact hbefore
    · rw [mem_numberInputs hnew]
      exact List.mem_singleton.2 rfl
  · intro write hwrite
    rw [hwritten] at hwrite
    exact absurd hwrite List.not_mem_nil

theorem Knows.insertForEach (h : x.Knows d) (hnodup : (x.rows.map Prod.fst).Nodup) (hnone : x.events = [])
    (hwritten : x.written = []) (input : AppendEventInput) (todo : List LogStatement) :
    Knows d { x with
        todo
        rows := x.rows.map fun row => (row.1, row.2 + 1)
        events := x.rows.flatMap fun row => numberInputs row.1 row.2 [input] } := by
  refine ⟨?_, ?_, ?_, ?_, h.created⟩
  · intro row' hrow'
    obtain ⟨row, hrow, rfl⟩ := List.mem_map.1 hrow'
    exact h.held row hrow
  · intro row' hrow'
    obtain ⟨row, hrow, rfl⟩ := List.mem_map.1 hrow'
    obtain ⟨session, hsession, hid, hle, hseq⟩ := h.rows row hrow
    rw [hnone] at hseq
    have hsame : row.2 = session.lastSequence := by
      have hlen := congrArg List.length hseq
      rw [List.length_range'] at hlen
      have hzero : row.2 - session.lastSequence = 0 := hlen.symm
      omega
    refine ⟨session, hsession, hid, hle.trans (Nat.le_succ _), ?_⟩
    -- the other sessions' events are not counted
    have hone : ∀ rows : List (ℕ × ℕ), (rows.map Prod.fst).Nodup → row ∈ rows →
        sequences row.1 (rows.flatMap fun row => numberInputs row.1 row.2 [input]) = [row.2 + 1] := by
      intro rows hrows hmem
      induction rows with
      | nil => exact absurd hmem List.not_mem_nil
      | cons first rest ih =>
        rw [List.flatMap_cons, sequences_append]
        obtain ⟨hnotin, hrest⟩ := List.nodup_cons.1 hrows
        rcases List.mem_cons.1 hmem with rfl | hlater
        · have hnoMore : sequences row.1 (rest.flatMap fun row => numberInputs row.1 row.2 [input]) = [] := by
            apply sequences_of_none
            intro e he heq
            obtain ⟨other, hother, heOther⟩ := List.mem_flatMap.1 he
            rw [mem_numberInputs heOther] at heq
            exact hnotin (heq ▸ List.mem_map_of_mem hother)
          rw [hnoMore, List.append_nil, sequences_numberInputs]
          rfl
        · have hnoFirst : sequences row.1 (numberInputs first.1 first.2 [input]) = [] := by
            apply sequences_of_none
            intro e he heq
            rw [mem_numberInputs he] at heq
            have hthere : row.1 ∈ rest.map Prod.fst := List.mem_map_of_mem hlater
            exact hnotin (heq ▸ hthere)
          rw [hnoFirst, List.nil_append, ih hrest hlater]
    rw [hone x.rows hnodup hrow, hsame, Nat.add_sub_cancel_left]
    rfl
  · intro e he
    obtain ⟨row, hrow, hmem⟩ := List.mem_flatMap.1 he
    rw [mem_numberInputs hmem]
    exact List.mem_map.2 ⟨(row.1, row.2 + 1), List.mem_map_of_mem hrow, rfl⟩
  · intro write hwrite
    rw [hwritten] at hwrite
    exact absurd hwrite List.not_mem_nil

theorem group_nodup (h : d.Good) (sandboxGroupId : ℕ) : (d.group sandboxGroupId).Nodup :=
  h.ids.sublist (List.filter_sublist.map _)

/-- **A statement keeps what is known, if the update of a group finds only locked sessions.** -/
theorem Inv.exec (hgood : d.Good) (h : x.Inv d)
    (hok : ∀ sandboxGroupId ∈ x.bumps, ∀ sessionId ∈ d.group sandboxGroupId, sessionId ∈ x.rows.map Prod.fst)
    (hexec : x.exec d others = some x') : x'.Inv d := by
  obtain ⟨hpoint, hknows⟩ := h
  cases hpoint with
  | @looking locks held rows =>
    cases locks with
    | nil => cases hexec
    | cons row locks =>
      rcases exec_lock rfl hexec with ⟨rfl, -⟩ | ⟨session, hsession, rfl, rfl⟩
      · exact ⟨.looking, hknows.of_held (fun _ => List.mem_cons_of_mem _) _⟩
      · exact ⟨.looking, hknows.lock hsession rfl _⟩
  | @locking locks sessionId batches held hlocks =>
    cases locks with
    | nil =>
      rcases exec_lock rfl hexec with ⟨-, hno⟩ | ⟨session, hsession, hrow, rfl⟩
      · exact absurd rfl (hno sessionId)
      · obtain rfl := LogRow.session.inj hrow
        exact ⟨.inserting, hknows.lock hsession rfl _⟩
    | cons row locks =>
      rcases exec_lock rfl hexec with ⟨rfl, -⟩ | ⟨session, -, hrow, -⟩
      · have hrest : ∀ row ∈ locks, ∀ other, row ≠ .session other :=
          fun row hmem => hlocks row (List.mem_cons_of_mem _ hmem)
        exact ⟨.locking hrest, hknows.of_held (fun _ => List.mem_cons_of_mem _) _⟩
      · exact absurd hrow (hlocks row List.mem_cons_self session.id)
  | @inserting sessionId sequence batches held events =>
    cases batches with
    | nil =>
      simp only [LogTxn.exec, sequence?, List.map_nil, List.nil_append, List.find?_cons, beq_self_eq_true,
        Option.map_some, Option.some.injEq] at hexec
      obtain rfl := hexec
      refine ⟨.written, hknows.held, hknows.rows, hknows.events, ?_, hknows.created⟩
      exact fun write hwrite => hwrite
    | cons inputs batches =>
      simp only [LogTxn.exec, sequence?, List.map_cons, List.cons_append, List.find?_cons, beq_self_eq_true,
        Option.map_some, Option.some.injEq, if_true, List.map_nil] at hexec
      obtain rfl := hexec
      exact ⟨.inserting, hknows.insert rfl inputs _ rfl⟩
  | written | created => cases hexec
  | @findingGroup sandboxGroupId input =>
    cases hexec
    refine ⟨.lockingGroup (group_nodup hgood sandboxGroupId) fun _ hmem => hmem, ?_⟩
    exact hknows.of_held (fun _ hmem => hmem) _
  | @lockingGroup sandboxGroupId input sessionIds held rows hids hgroup =>
    cases sessionIds with
    | nil =>
      rw [List.append_nil] at hids hgroup
      by_cases hnone : rows = []
      · -- no session was found
        subst hnone
        cases hexec
        exact ⟨@Point.looking d [] held [], hknows.of_held (fun _ hmem => hmem) []⟩
      · simp only [LogTxn.exec, List.map_nil, List.nil_append, if_neg hnone, Option.some.injEq] at hexec
        obtain rfl := hexec
        have hinserted := hknows.insertForEach hids rfl rfl input [.bumpGroup sandboxGroupId]
        refine ⟨.insertedGroup ?_ ?_, hinserted⟩
        · intro row' hrow' other hother hid
          obtain ⟨row, hrow, rfl⟩ := List.mem_map.1 hrow'
          obtain ⟨session, hsession, hsessionId, hle, hseq⟩ := hknows.rows row hrow
          obtain rfl : session = other := List.inj_on_of_nodup_map hgood.ids hsession hother (hsessionId.trans hid.symm)
          have hlen := congrArg List.length hseq
          rw [List.length_range'] at hlen
          have hzero : row.2 - session.lastSequence = 0 := hlen.symm
          omega
        · intro sessionId hmem
          rw [List.map_map] at hmem
          exact hgroup sessionId hmem
    | cons sessionId sessionIds =>
      rcases exec_lock rfl hexec with ⟨-, hno⟩ | ⟨session, hsession, hrow, rfl⟩
      · exact absurd rfl (hno sessionId)
      · obtain rfl := LogRow.session.inj hrow
        have hsplit : (rows ++ [(session.id, session.lastSequence)]).map Prod.fst ++ sessionIds =
            rows.map Prod.fst ++ session.id :: sessionIds := by
          rw [List.map_append, List.append_assoc]
          rfl
        exact ⟨.lockingGroup (hsplit ▸ hids) (hsplit ▸ hgroup), hknows.lock hsession rfl _⟩
  | @insertedGroup sandboxGroupId held rows events hone hgroup =>
    cases hexec
    have htodo : (d.group sandboxGroupId).map LogStatement.bump ++ [] = (d.group sandboxGroupId).map .bump :=
      List.append_nil _
    rw [htodo]
    refine ⟨.bumping hone ?_ ?_, hknows.of_held (fun _ hmem => hmem) _⟩
    · exact hok sandboxGroupId rfl
    · exact fun row hrow => .inr (hgroup row.1 (List.mem_map_of_mem hrow))
  | @bumping sessionIds held rows written events hone hlocked hrest =>
    cases sessionIds with
    | nil => cases hexec
    | cons sessionId sessionIds =>
      obtain ⟨session, hsession, hid, rfl⟩ := exec_bump rfl hexec
      -- the row of the session counts the one event
      have hrow : ∀ row ∈ rows, row.1 = sessionId → row = (sessionId, session.lastSequence + 1) := by
        intro row hmem heq
        have hcount := hone row hmem session hsession (hid.trans heq.symm)
        exact Prod.ext heq hcount
      refine ⟨.bumping hone (fun other hmem => hlocked other (List.mem_cons_of_mem _ hmem)) ?_, ?_, hknows.rows,
        hknows.events, ?_, hknows.created⟩
      · intro row hmem
        rcases hrest row hmem with hdone | hcoming
        · exact .inl (List.mem_append_left _ hdone)
        · rcases List.mem_cons.1 hcoming with heq | hlater
          · left
            rw [hrow row hmem heq]
            exact List.mem_append_right _ (List.mem_singleton.2 rfl)
          · exact .inr hlater
      · exact fun row hmem => List.mem_cons_of_mem _ (hknows.held row hmem)
      · intro write hwrite
        rcases List.mem_append.1 hwrite with hold | hlast
        · exact hknows.written write hold
        · obtain ⟨row, hmem, heq⟩ := List.mem_map.1 (hlocked sessionId List.mem_cons_self)
          rw [List.mem_singleton.1 hlast, ← hrow row hmem heq]
          exact hmem
  | @creating sessionId sandboxGroupId =>
    unfold LogTxn.exec at hexec
    dsimp only at hexec
    split at hexec
    · cases hexec
    case isFalse hnew =>
      cases hexec
      refine ⟨.created rfl, hknows.held, hknows.rows, hknows.events, hknows.written, ?_⟩
      intro session hsession other hother heq
      rw [List.mem_singleton.1 hsession] at heq
      apply hnew
      have hfound : (d.session? sessionId).isSome = true :=
        List.find?_isSome.2 ⟨other, hother, by simpa using heq⟩
      rw [hfound, Bool.true_or]

theorem Inv.closed (h : x.Inv d) (hdone : x.todo = []) : ∀ row ∈ x.rows, x.events = [] ∨ row ∈ x.written := by
  obtain ⟨hpoint, -⟩ := h
  intro row hrow
  cases hpoint with
  | inserting =>
    simp at hdone
  | written => exact .inr hrow
  | findingGroup | insertedGroup => cases hdone
  | bumping hone hlocked hrest =>
    obtain rfl := List.map_eq_nil_iff.1 hdone
    exact .inr ((hrest row hrow).resolve_right List.not_mem_nil)
  | _ => exact .inl rfl

/-! ### A commit -/

theorem update_frame (x : LogTxn) (session : LoggedSession) :
    (x.update session).id = session.id ∧ (x.update session).sandboxGroupId = session.sandboxGroupId := by
  unfold update
  split <;> exact ⟨rfl, rfl⟩

theorem Knows.update_of_not_held (h : x.Knows d) (hfree : .session session.id ∉ x.held) :
    x.update session = session := by
  unfold update
  split
  case h_1 write hfind =>
    have hid : write.1 = session.id := by simpa using List.find?_some hfind
    exact absurd (hid ▸ h.held write (h.written write (List.mem_of_find?_eq_some hfind))) hfree
  case h_2 => rfl

theorem Inv.created_spec (h : x.Inv d) (hsession : session ∈ x.created) :
    session.lastSequence = 0 ∧ x.created = [session] ∧ x.events = [] := by
  obtain ⟨hpoint, -⟩ := h
  cases hpoint with
  | created hzero =>
    obtain rfl := List.mem_singleton.1 hsession
    exact ⟨hzero, rfl, rfl⟩
  | _ => exact absurd hsession List.not_mem_nil

/-- **A commit keeps the log dense.** -/
theorem Inv.commit (hgood : d.Good) (h : x.Inv d) (hdone : x.todo = []) : (eventWriters.commit d x).Good := by
  have hknows := h.2
  refine ⟨?_, ?_, ?_⟩
  · have hsame : (d.sessions.map x.update).map (·.id) = d.sessions.map (·.id) := by
      rw [List.map_map]
      exact List.map_congr_left fun session _ => (x.update_frame session).1
    unfold eventWriters
    rw [List.map_append, hsame, List.nodup_append]
    refine ⟨hgood.ids, ?_, ?_⟩
    · cases hcreated : x.created with
      | nil => exact List.nodup_nil
      | cons session rest =>
        have hmem : session ∈ x.created := by
          rw [hcreated]
          exact List.mem_cons_self
        rw [← hcreated, (h.created_spec hmem).2.1]
        exact List.nodup_singleton _
    · intro a ha b hb
      obtain ⟨old, hold, rfl⟩ := List.mem_map.1 ha
      obtain ⟨new, hnew, rfl⟩ := List.mem_map.1 hb
      exact hknows.created new hnew old hold
  · intro e he
    rcases List.mem_append.1 he with hold | hnew
    · obtain ⟨session, hsession, hid⟩ := hgood.owned e hold
      exact ⟨x.update session, List.mem_append_left _ (List.mem_map_of_mem hsession), (x.update_frame session).1.trans hid⟩
    · obtain ⟨row, hrow, heq⟩ := List.mem_map.1 (hknows.events e hnew)
      obtain ⟨session, hsession, hid, -⟩ := hknows.rows row hrow
      exact ⟨x.update session, List.mem_append_left _ (List.mem_map_of_mem hsession),
        (x.update_frame session).1.trans (hid.trans heq)⟩
  · intro session' hsession'
    have hevents : (eventWriters.commit d x).events = d.events ++ x.events := rfl
    rw [hevents, sequences_append]
    rcases List.mem_append.1 hsession' with hold | hnew
    · obtain ⟨session, hsession, rfl⟩ := List.mem_map.1 hold
      rw [(x.update_frame session).1, hgood.dense session hsession]
      unfold update
      cases hfind : x.written.find? (·.1 == session.id) with
      | some write =>
        -- the events go on after those that there were
        have hid : write.1 = session.id := by simpa using List.find?_some hfind
        obtain ⟨other, hother, hotherId, hle, hseq⟩ :=
          hknows.rows write (hknows.written write (List.mem_of_find?_eq_some hfind))
        obtain rfl : other = session := List.inj_on_of_nodup_map hgood.ids hother hsession (hotherId.trans hid)
        rw [← hid, hseq, Nat.add_comm, range'_snoc]
        rw [Nat.add_sub_cancel' hle]
      | none =>
        have hno : sequences session.id x.events = [] := by
          apply sequences_of_none
          intro e he heq
          obtain ⟨row, hrow, hrowId⟩ := List.mem_map.1 (hknows.events e he)
          rcases h.closed hdone row hrow with hnone | hwritten
          · rw [hnone] at he
            exact List.not_mem_nil he
          · have hmiss := List.find?_eq_none.1 hfind row hwritten
            exact hmiss (by simpa using hrowId.trans heq)
        rw [hno, List.append_nil]
    · obtain ⟨hzero, -, hnone⟩ := h.created_spec hnew
      have hfresh : sequences session'.id d.events = [] := by
        apply sequences_of_none
        intro e he heq
        obtain ⟨session, hsession, hid⟩ := hgood.owned e he
        exact hknows.created session' hnew session hsession (hid.trans heq)
      rw [hfresh, hnone, hzero]
      rfl

theorem Inv.commit_other (hx : x.Inv d) (hapart : x.Apart y) (hy : y.Inv d) : y.Inv (eventWriters.commit d x) := by
  obtain ⟨hpoint, hknows⟩ := hy
  have hkept : ∀ row ∈ y.rows, ∀ session ∈ d.sessions, session.id = row.1 → x.update session = session := by
    intro row hrow session _ hid
    apply hx.2.update_of_not_held
    intro hheld
    exact hapart.1 _ hheld (hid ▸ hknows.held row hrow)
  have hgroup : ∀ sandboxGroupId, ∀ sessionId ∈ d.group sandboxGroupId,
      sessionId ∈ (eventWriters.commit d x).group sandboxGroupId := by
    intro sandboxGroupId sessionId hmem
    obtain ⟨session, hsession, hgroupId, hid⟩ := mem_group.1 hmem
    have hframe := x.update_frame session
    exact mem_group.2 ⟨x.update session, List.mem_append_left _ (List.mem_map_of_mem hsession),
      hframe.2.trans hgroupId, hframe.1.trans hid⟩
  have hone : (∀ row ∈ y.rows, ∀ session ∈ d.sessions, session.id = row.1 → row.2 = session.lastSequence + 1) →
      ∀ row ∈ y.rows, ∀ session ∈ (eventWriters.commit d x).sessions, session.id = row.1 →
        row.2 = session.lastSequence + 1 := by
    intro hbefore row hrow session' hsession' hid
    rcases List.mem_append.1 hsession' with hold | hnew
    · obtain ⟨session, hsession, rfl⟩ := List.mem_map.1 hold
      rw [(x.update_frame session).1] at hid
      rw [hkept row hrow session hsession hid]
      exact hbefore row hrow session hsession hid
    · obtain ⟨session, hsession, hsessionId, -⟩ := hknows.rows row hrow
      exact absurd (hsessionId.trans hid.symm) (hx.2.created session' hnew session hsession)
  refine ⟨?_, hknows.held, ?_, hknows.events, hknows.written, ?_⟩
  · cases hpoint with
    | looking => exact .looking
    | locking hlocks => exact .locking hlocks
    | inserting => exact .inserting
    | written => exact .written
    | findingGroup => exact .findingGroup
    | lockingGroup hids hmem => exact .lockingGroup hids fun sessionId hin => hgroup _ sessionId (hmem sessionId hin)
    | insertedGroup hcount hmem =>
      exact .insertedGroup (hone hcount) fun sessionId hin => hgroup _ sessionId (hmem sessionId hin)
    | bumping hcount hlocked hrest => exact .bumping (hone hcount) hlocked hrest
    | creating => exact .creating
    | created hzero => exact .created hzero
  · intro row hrow
    obtain ⟨session, hsession, hid, hrest⟩ := hknows.rows row hrow
    have hmem : session ∈ (eventWriters.commit d x).sessions := by
      refine List.mem_append_left _ (List.mem_map.2 ⟨session, hsession, ?_⟩)
      exact hkept row hrow session hsession hid
    exact ⟨session, hmem, hid, hrest⟩
  · intro session hsession other hother
    rcases List.mem_append.1 hother with hold | hnew
    · obtain ⟨old, hmem, rfl⟩ := List.mem_map.1 hold
      rw [(x.update_frame old).1]
      exact hknows.created session hsession old hmem
    · exact hapart.2 other hnew session hsession

theorem start_point (d : EventLog) (call : LogCall) : (eventWriters.start call).Point d := by
  have hnoLocks : ∀ row ∈ ([] : List LogRow), ∀ other, row ≠ .session other :=
    List.forall_mem_nil _
  have hlog : ∀ sessionId batches, Point d
      { todo := logTo sessionId batches, held := [], rows := [], events := [], written := [], created := [] } :=
    fun sessionId batches => @Point.locking d [] sessionId batches [] hnoLocks
  have hlogAfter : ∀ row sessionId batches, (∀ other, row ≠ .session other) → Point d
      { todo := .lock row :: logTo sessionId batches, held := [], rows := [], events := [], written := []
        created := [] } := by
    intro row sessionId batches hrow
    refine @Point.locking d [row] sessionId batches [] ?_
    intro r hr
    rw [List.mem_singleton.1 hr]
    exact hrow
  have hlook : ∀ locks : List LogRow, Point d
      { todo := locks.map .lock, held := [], rows := [], events := [], written := [], created := [] } :=
    fun _ => .looking
  have hsettle : ∀ sessionId turnId settlement, Point d
      { todo := LogCall.settle sessionId turnId settlement, held := [], rows := [], events := [], written := []
        created := [] } := by
    intro sessionId turnId settlement
    cases settlement with
    | nil => exact hlook [.turn turnId, .session sessionId]
    | cons => exact hlogAfter _ _ _ fun _ => LogRow.noConfusion
  cases call with
  | createSession sessionId sandboxGroupId => exact .creating
  | appendSessionEvents sessionId inputs =>
    cases inputs with
    | nil => exact hlook []
    | cons => exact hlog _ _
  | appendSessionEventsAndUpdateSession sessionId inputs =>
    cases inputs with
    | nil => exact hlook []
    | cons => exact hlog _ _
  | appendSessionEventsWithLockedSessionUpdate sessionId built =>
    cases built with
    | nil => exact hlook [.session sessionId]
    | cons => exact hlog _ _
  | appendSessionEventToSandboxGroup sandboxGroupId input => exact .findingGroup
  | clearSessionGoal sessionId cleared =>
    cases cleared with
    | none => exact hlook [.goal sessionId]
    | some => exact hlogAfter _ _ _ fun _ => LogRow.noConfusion
  | wakeParentSessionForChildCompletion parentSessionId card queued =>
    cases card with
    | nil => exact hlook [.session parentSessionId]
    | cons => exact hlog _ _
  | settleCodexCredentialFailover | settleCodexCredentialLeaseLoss => exact hsettle _ _ _

end

end LogTxn

/-! ## Every interleaving -/

theorem eventWriters_sound : eventWriters.Sound EventLog.Good (fun d x => x.Inv d) LogTxn.Apart FindsLocked where
  symm _ _ h := h.symm
  start d call _ := by
    have hno : ∀ {α : Type} {P : α → Prop}, ∀ a ∈ ([] : List α), P a := List.forall_mem_nil _
    exact ⟨LogTxn.start_point d call, hno, hno, hno, hno, hno⟩
  start_apart call y := by
    constructor
    · exact List.forall_mem_nil _
    · exact List.forall_mem_nil _
  exec s i x x' hx hok hgood hinv hapart hexec := by
    constructor
    · exact hinv.exec hgood (hok x hx) hexec
    · exact fun y hy => LogTxn.exec_apart hexec hy (hapart y hy)
  commit s i x _ _ hgood hinv hdone := hinv.commit hgood hdone
  commit_other s i x y _ _ _ hinv _ _ hapart hother := hinv.commit_other hapart hother
  observe_apart _ _ _ h := h

/-- **If the update of a group finds only sessions that are locked, every committed log is dense, in
every interleaving.** -/
theorem event_log_is_dense {d : EventLog} {es : List (Transactions.Event LogCall)}
    {s : Transactions.State EventLog LogTxn} (hd : d.Good)
    (hrun : Run (Restrict eventWriters.Steps FindsLocked) (.idle d) es s) : s.data.Dense :=
  (eventWriters_sound.run hrun (.idle hd)).good.dense

/-! ## A session that joins the group -/

def loneSession : EventLog :=
  { sessions := [{ id := 1, sandboxGroupId := 9, lastSequence := 0 }], events := [] }

theorem loneSession_good : loneSession.Good := by
  refine ⟨by decide, ?_, by decide⟩
  exact List.forall_mem_nil _

def groupNotice : AppendEventInput :=
  { type := .statusChanged, payload := .none, clientEventId := none, turnId := none }

def joinsBetween : List (Transactions.Event LogCall) :=
  [.start 0 (.appendSessionEventToSandboxGroup 9 groupNotice), .exec 0, .exec 0, .exec 0,
    .start 1 (.createSession 2 9), .exec 1, .commit 1, .exec 0, .exec 0, .exec 0, .commit 0]

theorem joining_session_has_gap :
    loneSession.Good ∧ ∃ s, Run eventWriters.Steps (.idle loneSession) joinsBetween s ∧
      { id := 2, sandboxGroupId := 9, lastSequence := 1 } ∈ s.data.sessions ∧ sequences 2 s.data.events = [] ∧
        ¬ s.data.Dense :=
  ⟨loneSession_good, exists_run_of_play (by decide +kernel)⟩

/-- A session that joins before, and one that waits for its lock. -/
theorem joined_session_is_dense :
    ∃ s : Transactions.State EventLog LogTxn, s.data.Dense ∧
      sequences 1 s.data.events = [1, 2] ∧ sequences 2 s.data.events = [1] := by
  have hplay : ∃ s ∈ play (guarded eventWriters.step FindsLocked) (.idle loneSession)
      [.start 1 (.createSession 2 9), .exec 1, .commit 1,
        .start 0 (.appendSessionEventToSandboxGroup 9 groupNotice), .exec 0, .exec 0, .exec 0, .exec 0,
        .start 2 (.appendSessionEvents 1 [groupNotice]), .exec 0, .exec 0, .exec 0, .commit 0,
        .exec 2, .exec 2, .exec 2, .commit 2],
      sequences 1 s.data.events = [1, 2] ∧ sequences 2 s.data.events = [1] := by decide +kernel
  obtain ⟨s, hs, hseq⟩ := hplay
  exact ⟨s, event_log_is_dense loneSession_good (guarded_run hs), hseq⟩

end OpenGeni.Db
