/-
The link of a machine as its sessions are told of it.

A machine says goodbye with a GoingOffline notice and is back with a heartbeat or with the Hello
of its next connect. The enrollment row has a marker for the time between. The handler of the
notice sets it, the handlers of the other two clear it; the first and the last then read which
sessions have a turn running on the machine, and append an event to each. The messages are
handled concurrently, in any order, and may be delivered again.

How often the marker has changed is counted next to the model (`changes`): an even number of
changes means that it is clear. The sessions should have been told of the changes one by one.
-/
import OpenGeni.Lib.Run
import OpenGeni.Lib.Slots

namespace OpenGeni.Machines

open OpenGeni.Lib

/-! ## The session events -/

inductive GoingOfflineReason
  | unspecified
  | userStop
  | update
  | hostShutdown
deriving DecidableEq

inductive MachineEvent
  | linkLost (turnId : ℕ) (reason : GoingOfflineReason)
  | linkRestored (turnId : ℕ)
  | runnerRestarted (turnId : ℕ)
deriving DecidableEq

inductive LinkKind
  | lost
  | restored

def MachineEvent.link : MachineEvent → Option LinkKind
  | .linkLost _ _ => some .lost
  | .linkRestored _ => some .restored
  | .runnerRestarted _ => none

def links (events : List MachineEvent) : List LinkKind := events.filterMap MachineEvent.link

def linkAt (n : ℕ) : LinkKind := if n % 2 = 0 then .lost else .restored

def Alternates (l : List LinkKind) : Prop := l = (List.range l.length).map linkAt

/-! ## The handlers -/

structure SessionRow where
  /-- The active sandbox of the session is the machine. -/
  pointed : Bool
  activeTurnId : Option ℕ
  throughout : Bool
  events : List MachineEvent
deriving DecidableEq

inductive AgentMessage
  | goingOffline (reason : GoingOfflineReason)
  | heartbeat (metrics : Bool)
  | hello
deriving DecidableEq

inductive Announcement
  | lost (reason : GoingOfflineReason)
  | restored
deriving DecidableEq

/-- `build(activeTurnId)`. -/
def Announcement.events (turnId : ℕ) : Announcement → List MachineEvent
  | .lost .update => [.linkLost turnId .update, .runnerRestarted turnId]
  | .lost reason => [.linkLost turnId reason]
  | .restored => [.linkRestored turnId]

def Announcement.kind : Announcement → LinkKind
  | .lost _ => .lost
  | .restored => .restored

/-- Where the handler of a message stands. `change` counts the changes of the marker before its
own. -/
inductive Handler
  | received (message : AgentMessage)
  /-- It has written the marker and is about to read the sessions. -/
  | announcing (change : ℕ) (announcement : Announcement)
  | appending (change : ℕ) (announcement : Announcement) (todo : List (String × ℕ))
deriving DecidableEq

structure LinkState where
  /-- `went_offline_reason`, set together with `went_offline_at`. -/
  wentOffline : Option GoingOfflineReason
  sessions : Slots String SessionRow
  handlers : Slots ℕ Handler
  changes : ℕ
deriving DecidableEq

inductive LinkEvent
  | receive (i : ℕ) (message : AgentMessage)
  | mark (i : ℕ)
  /-- `sessionsWithActiveOpOnEnrollment`. -/
  | list (i : ℕ)
  /-- The append to the next session. One that fails is logged and skipped. -/
  | append (i : ℕ) (succeeds : Bool)
  | stop (i : ℕ)
  | startTurn (sessionId : String) (turnId : ℕ)
  | endTurn (sessionId : String)
  | point (sessionId : String)
  | unpoint (sessionId : String)

namespace LinkState

def mark (s : LinkState) (i : ℕ) : AgentMessage → LinkState
  | .goingOffline reason =>
    { s with
      wentOffline := some reason
      changes := if s.wentOffline = none then s.changes + 1 else s.changes
      handlers := s.handlers.put i (.announcing s.changes (.lost reason)) }
  | .heartbeat metrics =>
    if metrics then
      -- `touchEnrollmentLastSeen` clears the marker as well
      { s with
        wentOffline := none
        changes := if s.wentOffline = none then s.changes else s.changes + 1
        handlers := s.handlers.drop i }
    else
      { s with handlers := s.handlers.drop i }
  | .hello =>
    if s.wentOffline = none then
      { s with handlers := s.handlers.drop i }
    else
      { s with
        wentOffline := none
        changes := s.changes + 1
        handlers := s.handlers.put i (.announcing s.changes .restored) }

def activeSessions (s : LinkState) : List (String × ℕ) :=
  s.sessions.filterMap fun e => if e.2.pointed then e.2.activeTurnId.map fun turnId => (e.1, turnId) else none

def update (s : LinkState) (sessionId : String) (f : SessionRow → SessionRow) : Option LinkState :=
  (s.sessions.get sessionId).map fun row => { s with sessions := s.sessions.put sessionId (f row) }

def step (s : LinkState) : LinkEvent → Option LinkState
  | .receive i message =>
    match s.handlers.get i with
    | none => some { s with handlers := s.handlers.put i (.received message) }
    | some _ => none
  | .mark i =>
    match s.handlers.get i with
    | some (.received message) => some (s.mark i message)
    | _ => none
  | .list i =>
    match s.handlers.get i with
    | some (.announcing change announcement) =>
      some { s with handlers := s.handlers.put i (.appending change announcement s.activeSessions) }
    | _ => none
  | .append i succeeds =>
    match s.handlers.get i with
    | some (.appending change announcement ((sessionId, turnId) :: todo)) =>
      let s' := { s with handlers := s.handlers.put i (.appending change announcement todo) }
      if succeeds then
        s'.update sessionId fun row => { row with events := row.events ++ announcement.events turnId }
      else
        some s'
    | some (.appending _ _ []) => some { s with handlers := s.handlers.drop i }
    | _ => none
  | .stop i => some { s with handlers := s.handlers.drop i }
  | .startTurn sessionId turnId => s.update sessionId fun row => { row with activeTurnId := some turnId }
  | .endTurn sessionId => s.update sessionId fun row => { row with activeTurnId := none }
  | .point sessionId => s.update sessionId fun row => { row with pointed := true }
  | .unpoint sessionId => s.update sessionId fun row => { row with pointed := false, throughout := false }

end LinkState

def linkSteps (s : LinkState) (e : LinkEvent) (s' : LinkState) : Prop := s.step e = some s'

structure LinkState.Fresh (s : LinkState) : Prop where
  marker : s.wentOffline = none
  changes : s.changes = 0
  handlers : s.handlers = []
  sessions : ∀ id row, s.sessions.get id = some row → row.events = [] ∧ (row.throughout → row.pointed)

/-! ## What the sessions are told -/

/-- The number of the change that a handler has still to announce. -/
def Handler.change : Handler → Option ℕ
  | .received _ => none
  | .announcing change _ => some change
  | .appending change _ todo => if todo = [] then none else some change

/-- The session was told of changes in turn, of none twice, and of all that nobody is announcing. -/
structure LinkState.PairsUp (s : LinkState) (row : SessionRow) : Prop where
  alternates : Alternates (links row.events)
  once : (links row.events).length ≤ s.changes
  told : (∀ e ∈ s.handlers, e.2.change = none) → (links row.events).length = s.changes

def LinkState.Watches (s : LinkState) (sessionId : String) : Prop :=
  ∃ row ∈ s.sessions.get sessionId, row.throughout

def LinkState.InTurn (s : LinkState) (change : ℕ) (sessionId : String) : Prop :=
  ∀ row ∈ s.sessions.get sessionId, row.throughout → (links row.events).length = change

instance (s : LinkState) (sessionId : String) : Decidable (s.Watches sessionId) := by
  unfold LinkState.Watches
  infer_instance

instance (s : LinkState) (change : ℕ) (sessionId : String) : Decidable (s.InTurn change sessionId) := by
  unfold LinkState.InTurn
  infer_instance

/-- A notice and a heartbeat with metrics find no goodbye pending. -/
def Handler.FindsClear (s : LinkState) : Handler → Prop
  | .received (.goingOffline _) => s.wentOffline = none
  | .received (.heartbeat true) => s.wentOffline = none
  | _ => True

/-- The next session is told in turn, and the append does not fail. -/
def Handler.TellsInTurn (s : LinkState) (succeeds : Bool) : Handler → Prop
  | .appending change _ ((sessionId, _) :: _) =>
    (s.Watches sessionId → succeeds = true) ∧ s.InTurn change sessionId
  | _ => True

def Handler.HasTold (s : LinkState) : Handler → Prop
  | .received _ => True
  | .announcing _ _ => ∀ e ∈ s.sessions, ¬ e.2.throughout
  | .appending _ _ todo => ∀ e ∈ todo, ¬ s.Watches e.1

/-- A heartbeat and a notice come only while no goodbye is pending; the sessions have a turn
running when they are looked up; they are told in the order of the changes, without a failure,
and no handler stops before it has told them. -/
def Announced (s : LinkState) : LinkEvent → Prop
  | .mark i => ∀ h ∈ s.handlers.get i, h.FindsClear s
  | .list _ => ∀ e ∈ s.sessions, e.2.throughout → e.2.activeTurnId.isSome
  | .append i succeeds => ∀ h ∈ s.handlers.get i, h.TellsInTurn s succeeds
  | .stop i => ∀ h ∈ s.handlers.get i, h.HasTold s
  | _ => True

instance (s : LinkState) : DecidablePred (Handler.FindsClear s) := fun h => by
  unfold Handler.FindsClear
  split <;> infer_instance

instance (s : LinkState) (succeeds : Bool) : DecidablePred (Handler.TellsInTurn s succeeds) := fun h => by
  unfold Handler.TellsInTurn
  split <;> infer_instance

instance (s : LinkState) : DecidablePred (Handler.HasTold s) := fun h => by
  unfold Handler.HasTold
  split <;> infer_instance

instance (s : LinkState) (e : LinkEvent) : Decidable (Announced s e) := by
  unfold Announced
  split <;> infer_instance

/-! ## The invariant -/

def Handler.Owes (sessionId : String) (change : ℕ) : Handler → Prop
  | .received _ => False
  | .announcing n _ => n = change
  | .appending n _ todo => n = change ∧ sessionId ∈ todo.map Prod.fst

def Handler.Announces (changes : ℕ) : Handler → Prop
  | .received _ => True
  | .announcing n announcement => n < changes ∧ announcement.kind = linkAt n
  | .appending n announcement _ => n < changes ∧ announcement.kind = linkAt n

structure LinkState.Paired (s : LinkState) : Prop where
  /-- The marker is set after an odd number of changes. -/
  marker : s.wentOffline = none ↔ s.changes % 2 = 0
  announces : ∀ i h, s.handlers.get i = some h → h.Announces s.changes
  pointed : ∀ id row, s.sessions.get id = some row → row.throughout → row.pointed
  alternates : ∀ id row, s.sessions.get id = some row → row.throughout → Alternates (links row.events)
  once : ∀ id row, s.sessions.get id = some row → row.throughout → (links row.events).length ≤ s.changes
  /-- Each change that a session has not been told of is owed to it by a handler. -/
  owed : ∀ id row n, s.sessions.get id = some row → row.throughout → (links row.events).length ≤ n →
    n < s.changes → ∃ i h, s.handlers.get i = some h ∧ h.Owes id n

variable {s s' : LinkState} {i : ℕ} {h : Handler} {change : ℕ} {announcement : Announcement}

variable {id sessionId : String} {row : SessionRow} {message : AgentMessage}

theorem LinkState.Paired.pairsUp (hs : s.Paired) (hrow : s.sessions.get id = some row)
    (hthrough : row.throughout) : s.PairsUp row where
  alternates := hs.alternates id row hrow hthrough
  once := hs.once id row hrow hthrough
  told hquiet := by
    have hle := hs.once id row hrow hthrough
    by_contra hne
    obtain ⟨i, h, hget, howes⟩ := hs.owed id row (links row.events).length hrow hthrough (le_refl _) (by omega)
    have hnone : h.change = none := hquiet _ (Slots.mem_of_get hget)
    cases h with
    | received message => exact howes
    | announcing n announcement => cases hnone
    | appending n announcement todo =>
      obtain ⟨-, hmem⟩ := howes
      cases todo with
      | nil => exact absurd hmem List.not_mem_nil
      | cons e todo => cases hnone

theorem links_append (events : List MachineEvent) (turnId : ℕ) :
    links (events ++ announcement.events turnId) = links events ++ [announcement.kind] := by
  unfold links
  rw [List.filterMap_append]
  congr 1
  cases announcement with
  | restored => rfl
  | lost reason => cases reason <;> rfl

theorem Alternates.concat {l : List LinkKind} (hl : Alternates l) : Alternates (l ++ [linkAt l.length]) := by
  unfold Alternates at hl ⊢
  rw [List.length_append, List.length_singleton, List.range_succ, List.map_append, ← hl]
  rfl

theorem linkAt_even (hn : change % 2 = 0) : linkAt change = .lost := if_pos hn

theorem linkAt_odd (hn : change % 2 ≠ 0) : linkAt change = .restored := if_neg hn

/-! ## The steps -/

/-- **A handler goes on.** What it owed to a session that was not told, it still owes. -/
theorem LinkState.Paired.handle {handlers : Slots ℕ Handler} (hs : s.Paired)
    (hkeep : ∀ j, j ≠ i → handlers.get j = s.handlers.get j)
    (hannounces : ∀ h, handlers.get i = some h → h.Announces s.changes)
    (howes : ∀ id row n h, s.sessions.get id = some row → row.throughout → s.handlers.get i = some h →
      h.Owes id n → ∃ h', handlers.get i = some h' ∧ h'.Owes id n) :
    ({ s with handlers } : LinkState).Paired := by
  refine { marker := hs.marker, announces := ?_, pointed := hs.pointed, alternates := hs.alternates,
           once := hs.once, owed := ?_ }
  · intro j h hget
    by_cases hj : j = i
    · subst hj
      exact hannounces h hget
    · exact hs.announces j h ((hkeep j hj).symm.trans hget)
  · intro id row n hrow hthrough hn hlt
    obtain ⟨j, h, hget, howe⟩ := hs.owed id row n hrow hthrough hn hlt
    by_cases hj : j = i
    · subst hj
      obtain ⟨h', hget', howe'⟩ := howes id row n h hrow hthrough hget howe
      exact ⟨j, h', hget', howe'⟩
    · exact ⟨j, h, (hkeep j hj).trans hget, howe⟩

theorem LinkState.Paired.done (hs : s.Paired)
    (hnone : ∀ id row n h, s.sessions.get id = some row → row.throughout → s.handlers.get i = some h →
      ¬ h.Owes id n) : ({ s with handlers := s.handlers.drop i } : LinkState).Paired :=
  hs.handle (fun _ hj => Slots.get_drop_of_ne hj) (fun h hget => by simp at hget)
    fun id row n h hrow hthrough hget howe => absurd howe (hnone id row n h hrow hthrough hget)

/-- **The marker changes**, and the handler has the change to announce. -/
theorem LinkState.Paired.mark {wentOffline : Option GoingOfflineReason} (hs : s.Paired)
    (hget : s.handlers.get i = some (.received message))
    (hmarker : wentOffline = none ↔ (s.changes + 1) % 2 = 0)
    (hkind : announcement.kind = linkAt s.changes) :
    ({ s with
        wentOffline
        changes := s.changes + 1
        handlers := s.handlers.put i (.announcing s.changes announcement) } : LinkState).Paired := by
  refine { marker := hmarker, announces := ?_, pointed := hs.pointed, alternates := hs.alternates,
           once := fun id row hrow hthrough => Nat.le_succ_of_le (hs.once id row hrow hthrough), owed := ?_ }
  · intro j h hj
    by_cases hji : j = i
    · subst hji
      cases Slots.get_put.symm.trans hj
      exact ⟨Nat.lt_succ_self _, hkind⟩
    · have hold := hs.announces j h ((Slots.get_put_of_ne hji).symm.trans hj)
      cases h with
      | received message => trivial
      | announcing | appending => exact ⟨Nat.lt_succ_of_lt hold.1, hold.2⟩
  · intro id row n hrow hthrough hn hlt
    obtain heq | hlt := Nat.eq_or_lt_of_le (Nat.le_of_lt_succ hlt)
    · exact ⟨i, _, Slots.get_put, heq.symm⟩
    · obtain ⟨j, h, hj, howe⟩ := hs.owed id row n hrow hthrough hn hlt
      have hji : j ≠ i := by
        rintro rfl
        cases hget.symm.trans hj
        exact howe
      exact ⟨j, h, (Slots.get_put_of_ne hji).trans hj, howe⟩

theorem LinkState.Paired.session {row' : SessionRow} (hs : s.Paired)
    (hrow : s.sessions.get sessionId = some row) (hevents : row'.events = row.events)
    (hthrough : row'.throughout → row.throughout ∧ row'.pointed) :
    ({ s with sessions := s.sessions.put sessionId row' } : LinkState).Paired := by
  have hold : ∀ id r, Slots.get id (s.sessions.put sessionId row') = some r → r.throughout →
      ∃ r', s.sessions.get id = some r' ∧ r'.throughout ∧ r.events = r'.events ∧ r.pointed := by
    intro id r hr hthr
    by_cases hid : id = sessionId
    · subst hid
      cases Slots.get_put.symm.trans hr
      exact ⟨row, hrow, (hthrough hthr).1, hevents, (hthrough hthr).2⟩
    · rw [Slots.get_put_of_ne hid] at hr
      exact ⟨r, hr, hthr, rfl, hs.pointed id r hr hthr⟩
  refine { marker := hs.marker, announces := hs.announces, pointed := ?_, alternates := ?_, once := ?_, owed := ?_ }
  · intro id r hr hthr
    obtain ⟨-, -, -, -, hpointed⟩ := hold id r hr hthr
    exact hpointed
  · intro id r hr hthr
    obtain ⟨r', hr', hthr', hev, -⟩ := hold id r hr hthr
    rw [hev]
    exact hs.alternates id r' hr' hthr'
  · intro id r hr hthr
    obtain ⟨r', hr', hthr', hev, -⟩ := hold id r hr hthr
    rw [hev]
    exact hs.once id r' hr' hthr'
  · intro id r n hr hthr hn
    obtain ⟨r', hr', hthr', hev, -⟩ := hold id r hr hthr
    rw [hev] at hn
    exact hs.owed id r' n hr' hthr' hn

/-- **A session is told** of the change it has not been told of yet. -/
theorem LinkState.Paired.tell {turnId : ℕ} {todo : List (String × ℕ)} (hs : s.Paired)
    (hget : s.handlers.get i = some (.appending change announcement ((sessionId, turnId) :: todo)))
    (hrow : s.sessions.get sessionId = some row)
    (hturn : row.throughout → (links row.events).length = change) :
    ({ s with
        handlers := s.handlers.put i (.appending change announcement todo)
        sessions := s.sessions.put sessionId
          { row with events := row.events ++ announcement.events turnId } } : LinkState).Paired := by
  obtain ⟨hlt, hkind⟩ := hs.announces i _ hget
  have hlinks : links (row.events ++ announcement.events turnId) = links row.events ++ [linkAt change] := by
    rw [links_append, hkind]
  refine { marker := hs.marker, announces := ?_, pointed := ?_, alternates := ?_, once := ?_, owed := ?_ }
  · intro j h hj
    by_cases hji : j = i
    · subst hji
      cases Slots.get_put.symm.trans hj
      exact ⟨hlt, hkind⟩
    · exact hs.announces j h ((Slots.get_put_of_ne hji).symm.trans hj)
  · intro id r hr hthr
    by_cases hid : id = sessionId
    · subst hid
      cases Slots.get_put.symm.trans hr
      exact hs.pointed id row hrow hthr
    · exact hs.pointed id r ((Slots.get_put_of_ne hid).symm.trans hr) hthr
  · intro id r hr hthr
    by_cases hid : id = sessionId
    · subst hid
      cases Slots.get_put.symm.trans hr
      change Alternates (links (row.events ++ announcement.events turnId))
      rw [hlinks, ← hturn hthr]
      exact (hs.alternates id row hrow hthr).concat
    · exact hs.alternates id r ((Slots.get_put_of_ne hid).symm.trans hr) hthr
  · intro id r hr hthr
    by_cases hid : id = sessionId
    · subst hid
      cases Slots.get_put.symm.trans hr
      change (links (row.events ++ announcement.events turnId)).length ≤ s.changes
      rw [hlinks, List.length_append, List.length_singleton, hturn hthr]
      omega
    · exact hs.once id r ((Slots.get_put_of_ne hid).symm.trans hr) hthr
  · intro id r n hr hthr hn hltn
    -- the handler still owes to the sessions after the first
    have hother : ∀ row', s.sessions.get id = some row' → row'.throughout →
        (links row'.events).length ≤ n → (id ≠ sessionId ∨ n ≠ change) →
        ∃ j h, (s.handlers.put i (.appending change announcement todo)).get j = some h ∧ h.Owes id n := by
      intro row' hrow' hthr' hn' hne
      obtain ⟨j, h, hj, howe⟩ := hs.owed id row' n hrow' hthr' hn' hltn
      by_cases hji : j = i
      · subst hji
        cases hget.symm.trans hj
        obtain ⟨rfl, hmem⟩ := howe
        refine ⟨j, _, Slots.get_put, rfl, ?_⟩
        obtain rfl | hmem := List.mem_cons.1 hmem
        · exact absurd rfl (hne.resolve_right fun h => h rfl)
        · exact hmem
      · exact ⟨j, h, (Slots.get_put_of_ne hji).trans hj, howe⟩
    by_cases hid : id = sessionId
    · subst hid
      cases Slots.get_put.symm.trans hr
      change (links (row.events ++ announcement.events turnId)).length ≤ n at hn
      rw [hlinks, List.length_append, List.length_singleton, hturn hthr] at hn
      exact hother row hrow hthr (by rw [hturn hthr]; omega) (.inr (by omega))
    · exact hother r ((Slots.get_put_of_ne hid).symm.trans hr) hthr hn (.inl hid)

theorem LinkState.Paired.markStep (hs : s.Paired) (hget : s.handlers.get i = some (.received message))
    (hclear : Handler.FindsClear s (.received message)) :
    (s.mark i message).Paired := by
  have hdone : ({ s with handlers := s.handlers.drop i } : LinkState).Paired :=
    hs.done fun id row n h _ _ hget' howe => by
      cases hget.symm.trans hget'
      exact howe
  cases message with
  | goingOffline reason =>
    have hnone : s.wentOffline = none := hclear
    have heven := hs.marker.1 hnone
    simp only [LinkState.mark, if_pos hnone]
    refine hs.mark hget (iff_of_false (by simp) (by omega)) ?_
    rw [linkAt_even heven]
    rfl
  | heartbeat metrics =>
    cases metrics with
    | false => exact hdone
    | true =>
      have hnone : s.wentOffline = none := hclear
      simp only [LinkState.mark, if_pos hnone, if_true]
      rw [← hnone]
      exact hdone
  | hello =>
    by_cases hnone : s.wentOffline = none
    · simp only [LinkState.mark, if_pos hnone]
      exact hdone
    · have hodd : s.changes % 2 ≠ 0 := fun heven => hnone (hs.marker.2 heven)
      simp only [LinkState.mark, if_neg hnone]
      refine hs.mark hget (iff_of_true rfl (by omega)) ?_
      rw [linkAt_odd hodd]
      rfl

theorem LinkState.Paired.mem_activeSessions (hs : s.Paired) (hrow : s.sessions.get id = some row)
    (hthrough : row.throughout)
    (hactive : ∀ e ∈ s.sessions, e.2.throughout → e.2.activeTurnId.isSome) :
    id ∈ s.activeSessions.map Prod.fst := by
  have hmem : (id, row) ∈ s.sessions := Slots.mem_of_get hrow
  obtain ⟨turnId, hturn⟩ := Option.isSome_iff_exists.1 (hactive _ hmem hthrough)
  have hpointed := hs.pointed id row hrow hthrough
  refine List.mem_map.2 ⟨(id, turnId), List.mem_filterMap.2 ⟨(id, row), hmem, ?_⟩, rfl⟩
  rw [if_pos hpointed]
  change row.activeTurnId.map _ = _
  change row.activeTurnId = _ at hturn
  rw [hturn]
  rfl

theorem LinkState.Paired.update {f : SessionRow → SessionRow} (hs : s.Paired)
    (hstep : s.update sessionId f = some s') (hevents : ∀ row, (f row).events = row.events)
    (hthrough : ∀ row : SessionRow, (row.throughout → row.pointed) → (f row).throughout →
      row.throughout ∧ (f row).pointed) : s'.Paired := by
  obtain ⟨row, hrow, rfl⟩ := Option.map_eq_some_iff.1 hstep
  exact hs.session hrow (hevents row) (hthrough row (hs.pointed sessionId row hrow))

/-- **One step.** -/
theorem LinkState.Paired.step {e : LinkEvent} (hstep : linkSteps s e s') (hs : s.Paired) (hok : Announced s e) :
    s'.Paired := by
  cases e with
  | receive i message =>
    simp only [linkSteps, LinkState.step] at hstep
    split at hstep
    · rename_i hget
      cases hstep
      refine hs.handle (fun _ hj => Slots.get_put_of_ne hj) (fun h hput => ?_) fun id row n h _ _ hget' _ => ?_
      · cases Slots.get_put.symm.trans hput
        trivial
      · rw [hget] at hget'
        cases hget'
    · cases hstep
  | mark i =>
    simp only [linkSteps, LinkState.step] at hstep
    split at hstep
    · rename_i message hget
      cases hstep
      exact hs.markStep hget (hok _ hget)
    · cases hstep
  | list i =>
    simp only [linkSteps, LinkState.step] at hstep
    split at hstep
    · rename_i n announcement hget
      cases hstep
      refine hs.handle (fun _ hj => Slots.get_put_of_ne hj) (fun h hput => ?_)
        fun id row n' h hrow hthrough hget' howe => ⟨_, Slots.get_put, ?_⟩
      · cases Slots.get_put.symm.trans hput
        have hcounted := hs.announces i _ hget
        exact hcounted
      · cases hget.symm.trans hget'
        exact ⟨howe, hs.mem_activeSessions hrow hthrough hok⟩
    · cases hstep
  | append i succeeds =>
    simp only [linkSteps, LinkState.step] at hstep
    split at hstep
    · rename_i n announcement sessionId turnId todo hget
      obtain ⟨hsucceeds, hturn⟩ := hok _ hget
      cases succeeds with
      | true =>
        rw [if_pos rfl] at hstep
        obtain ⟨row, hrow, rfl⟩ := Option.map_eq_some_iff.1 hstep
        exact hs.tell hget hrow (hturn row hrow)
      | false =>
        rw [if_neg Bool.false_ne_true] at hstep
        cases hstep
        refine hs.handle (fun _ hj => Slots.get_put_of_ne hj) (fun h hput => ?_)
          fun id row n' h hrow hthrough hget' howe => ⟨_, Slots.get_put, ?_⟩
        · cases Slots.get_put.symm.trans hput
          have hcounted := hs.announces i _ hget
          exact hcounted
        · cases hget.symm.trans hget'
          refine ⟨howe.1, ?_⟩
          obtain rfl | hmem := List.mem_cons.1 howe.2
          · cases hsucceeds ⟨row, hrow, hthrough⟩
          · exact hmem
    · rename_i n announcement hget
      cases hstep
      refine hs.done fun id row n' h _ _ hget' howe => ?_
      cases hget.symm.trans hget'
      exact absurd howe.2 List.not_mem_nil
    · cases hstep
  | stop i =>
    cases hstep
    refine hs.done fun id row n h hrow hthrough hget howe => ?_
    have htold := hok h hget
    cases h with
    | received message => exact howe
    | announcing n announcement => exact htold _ (Slots.mem_of_get hrow) hthrough
    | appending n announcement todo =>
      obtain ⟨e, he, rfl⟩ := List.mem_map.1 howe.2
      exact htold e he ⟨row, hrow, hthrough⟩
  | startTurn | endTurn => exact hs.update hstep (fun _ => rfl) fun _ hp ht => ⟨ht, hp ht⟩
  | point sessionId => exact hs.update hstep (fun _ => rfl) fun _ _ ht => ⟨ht, rfl⟩
  | unpoint sessionId => exact hs.update hstep (fun _ => rfl) fun _ _ ht => by cases ht

theorem LinkState.Fresh.paired (hs : s.Fresh) : s.Paired where
  marker := iff_of_true hs.marker (by rw [hs.changes])
  announces i h hget := by
    rw [hs.handlers] at hget
    cases hget
  pointed id row hrow := (hs.sessions id row hrow).2
  alternates id row hrow _ := by
    rw [(hs.sessions id row hrow).1]
    rfl
  once id row hrow _ := by
    rw [(hs.sessions id row hrow).1]
    exact Nat.zero_le _
  owed id row n _ _ _ hlt := by
    rw [hs.changes] at hlt
    exact absurd hlt (Nat.not_lt_zero n)

/-- **Link events pair up.** As long as every step meets the condition, each session that was pointed at the machine
throughout was told of its losses and returns in turn, of none twice, and of all once no handler has one to
announce. -/
theorem machine_link_events_pair_up {es : List LinkEvent} (hfresh : s.Fresh)
    (hrun : Run (Restrict linkSteps Announced) s es s') {id : String} {row : SessionRow}
    (hrow : s'.sessions.get id = some row) (hthrough : row.throughout) : s'.PairsUp row :=
  (hrun.invariant (fun _ _ _ hstep hs => hs.step hstep.1 hstep.2) hfresh.paired).pairsUp hrow hthrough

/-! ## A machine that goes and comes back -/

def oneSession : LinkState where
  wentOffline := none
  sessions := [("s", { pointed := true, activeTurnId := some 7, throughout := true, events := [] })]
  handlers := []
  changes := 0

theorem oneSession_fresh : oneSession.Fresh where
  marker := rfl
  changes := rfl
  handlers := rfl
  sessions id row hrow := by
    obtain ⟨rfl, rfl⟩ := Prod.mk.inj (List.mem_singleton.1 (Slots.mem_of_get hrow))
    exact ⟨rfl, fun _ => rfl⟩

def handled (i : ℕ) (message : AgentMessage) : List LinkEvent :=
  [.receive i message, .mark i, .list i, .append i true, .append i true]

/-- It says goodbye, and its next message is the Hello of a connect. -/
def backWithHello : List LinkEvent := handled 0 (.goingOffline .update) ++ handled 1 .hello

def backWithHeartbeat : List LinkEvent :=
  handled 0 (.goingOffline .userStop) ++ [.receive 1 (.heartbeat true), .mark 1]

def told (events : List MachineEvent) (changes : ℕ) : LinkState where
  wentOffline := none
  sessions := [("s", { pointed := true, activeTurnId := some 7, throughout := true, events })]
  handlers := []
  changes := changes

theorem machine_link_events_pair_up_hello :
    (told [.linkLost 7 .update, .runnerRestarted 7, .linkRestored 7] 2).PairsUp
      { pointed := true, activeTurnId := some 7, throughout := true
        events := [.linkLost 7 .update, .runnerRestarted 7, .linkRestored 7] } := by
  have hplay : play (guarded LinkState.step Announced) oneSession backWithHello =
      some (told [.linkLost 7 .update, .runnerRestarted 7, .linkRestored 7] 2) := by decide +kernel
  have hrun : Run (Restrict linkSteps Announced) oneSession backWithHello
      (told [.linkLost 7 .update, .runnerRestarted 7, .linkRestored 7] 2) := guarded_run hplay
  have hrow : (told [.linkLost 7 .update, .runnerRestarted 7, .linkRestored 7] 2).sessions.get "s" =
      some { pointed := true, activeTurnId := some 7, throughout := true,
             events := [.linkLost 7 .update, .runnerRestarted 7, .linkRestored 7] } := rfl
  exact machine_link_events_pair_up oneSession_fresh hrun hrow rfl

/-- The heartbeat clears the marker, and nobody is told. -/
theorem heartbeat_restores_silently : Run linkSteps oneSession backWithHeartbeat (told [.linkLost 7 .userStop] 2) ∧
      ¬ (told [.linkLost 7 .userStop] 2).PairsUp
        { pointed := true, activeTurnId := some 7, throughout := true, events := [.linkLost 7 .userStop] } := by
  have hplay : play LinkState.step oneSession backWithHeartbeat = some (told [.linkLost 7 .userStop] 2) := by
    decide +kernel
  refine ⟨run_of_play hplay, fun hpairs => ?_⟩
  have hlength := hpairs.told fun e he => absurd he List.not_mem_nil
  exact absurd hlength (by decide)

end OpenGeni.Machines
