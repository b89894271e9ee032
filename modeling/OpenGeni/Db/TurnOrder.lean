/-
A turn that is put back on the queue runs before what was behind it.

A claim takes the first queued turn, so the turn that runs was before all that were queued when
it was claimed. It keeps its position while it runs, and what is enqueued meanwhile goes to the
back. Three things can still overtake it:

* `reorderQueuedSessionTurns` numbers the listed turns from one, whatever the running turn has;
* a human message takes the position of the first queued notification, and that is the turn's
  own where two rows have one position, or where the turn itself has been put back as one;
* the turn can be cancelled while it waits for its next claim.

`KeepsOrder` rules these out. The invariant is that the turn is before every queued turn, from
its claim until the next one.
-/
import OpenGeni.Db.CodexSettlement
import OpenGeni.Lib.Run

namespace OpenGeni.Db

open OpenGeni.Lib

/-! ## The queue of a session -/

inductive ClaimPhase
  | idle
  | running (turnId : ℕ)
  | returned (turnId : ℕ)
deriving DecidableEq

structure TurnQueue where
  tables : SessionTables
  phase : ClaimPhase

inductive QueueOp
  | enqueueSessionTurn (now : ℕ) (input : EnqueueSessionTurnInput)
  | reorderQueuedSessionTurns (turnIds : List ℕ)
  | cancelQueuedSessionTurn (now turnId : ℕ)
  | cancelQueuedSessionTurns (now : ℕ)
  | claimNextQueuedTurn (now : ℕ)
  | requeuePreemptedTurn (turnId triggerEventId : ℕ)
  | settleCodexCredentialFailover (now : ℕ) (input : SettleFailoverInput)
  | finishTurn (now : ℕ) (status : FinishStatus)
  /-- The allocator and the renewals write the leases. -/
  | credentialLeases (leases : List CredentialLease)

/-- The statuses from which a turn is put back when the caller names none. -/
def preemptibleStatuses : List SessionTurnStatus := [.running, .requiresAction]

def ClaimPhase.ofStatus (turnId : ℕ) (status : SessionTurnStatus) : ClaimPhase :=
  if status.live then .running turnId else if status = .queued then .returned turnId else .idle

namespace TurnQueue

/-- One transaction. `none` where it throws, or where it is not called: a turn is claimed when
none runs, and the turn that ends is the one that was claimed. -/
def step (s : TurnQueue) : QueueOp → Option TurnQueue
  | .enqueueSessionTurn now input =>
    if s.tables.turns.any (·.id == input.id) then none
    else some { s with tables := enqueueSessionTurn now input s.tables }
  | .reorderQueuedSessionTurns turnIds =>
    (reorderQueuedSessionTurns turnIds s.tables).map fun tables => { s with tables }
  | .cancelQueuedSessionTurn now turnId =>
    (cancelQueuedSessionTurn now turnId s.tables).map fun tables => { s with tables }
  | .cancelQueuedSessionTurns now => some { s with tables := cancelQueuedSessionTurns now s.tables }
  | .claimNextQueuedTurn now =>
    if s.tables.turns.any (·.status.live) then none
    else
      let (tables, claimed) := claimNextQueuedTurn now s.tables
      some { tables, phase := (claimed.map fun turn => .running turn.id).getD .idle }
  | .requeuePreemptedTurn turnId triggerEventId =>
    (requeuePreemptedTurn turnId triggerEventId preemptibleStatuses s.tables).map fun tables =>
      { tables, phase := .returned turnId }
  | .settleCodexCredentialFailover now input =>
    (settleCodexCredentialFailover now input s.tables).map fun (tables, action) =>
      { tables, phase := if action = .requeued then .returned input.turnId else s.phase }
  | .finishTurn now status =>
    match s.phase with
    | .running turnId =>
      some
        { tables := finishTurn now turnId status s.tables, phase := .ofStatus turnId (turnStatusForFinish status) }
    | _ => none
  | .credentialLeases leases => some { s with tables := { s.tables with leases } }

def Fresh (s : TurnQueue) : Prop :=
  (s.tables.turns.map (·.id)).Nodup ∧ (∀ turn ∈ s.tables.turns, turn.status.live = false) ∧ s.phase = .idle

instance : DecidablePred Fresh := fun _ => inferInstanceAs (Decidable (_ ∧ _ ∧ _))

end TurnQueue

/-! ## When the order is kept -/

def ClaimPhase.turnId? : ClaimPhase → Option ℕ
  | .idle => none
  | .running turnId => some turnId
  | .returned turnId => some turnId

namespace TurnQueue

/-- The numbers of the list leave the turn before the queued ones. -/
def KeptByReorder (s : TurnQueue) (turnIds : List ℕ) : Prop :=
  ∀ turnId ∈ s.phase.turnId?, ∀ turn ∈ s.tables.turns, turn.id = turnId →
    ∀ other ∈ s.tables.turns, other.status = .queued → other.id ≠ turnId →
      (turn.renumbered turnIds).place < (other.renumbered turnIds).place

/-- The slot of the first notification is behind the turn, which is not moved back itself. -/
def KeptByEnqueue (s : TurnQueue) (now : ℕ) (input : EnqueueSessionTurnInput) : Prop :=
  input.preemptChildNotifications = true → ∀ minPos ∈ minNotification s.tables.turns,
    ∀ turnId ∈ s.phase.turnId?, ∀ turn ∈ s.tables.turns, turn.id = turnId →
      turn.place < toLex (minPos, toLex (now, input.id)) ∧ (s.phase = .returned turnId → turn.position < minPos)

def KeepsOrder (s : TurnQueue) : QueueOp → Prop
  | .enqueueSessionTurn now input => s.KeptByEnqueue now input
  | .reorderQueuedSessionTurns turnIds => s.KeptByReorder turnIds
  | .cancelQueuedSessionTurn _ turnId => s.phase ≠ .returned turnId
  | .cancelQueuedSessionTurns _ => ∀ turn ∈ s.tables.turns, s.phase ≠ .returned turn.id
  | _ => True

instance (s : TurnQueue) : DecidablePred s.KeepsOrder
  | .enqueueSessionTurn _ _ =>
    inferInstanceAs (Decidable (_ → ∀ _ ∈ _, ∀ _ ∈ _, ∀ _ ∈ _, _ → _ ∧ (_ → _)))
  | .reorderQueuedSessionTurns _ =>
    inferInstanceAs (Decidable (∀ _ ∈ _, ∀ _ ∈ _, _ → ∀ _ ∈ _, _ → _ → _))
  | .cancelQueuedSessionTurn _ _ => inferInstanceAs (Decidable (_ ≠ _))
  | .cancelQueuedSessionTurns _ => inferInstanceAs (Decidable (∀ _ ∈ _, _ ≠ _))
  | .claimNextQueuedTurn _ => .isTrue trivial
  | .requeuePreemptedTurn _ _ => .isTrue trivial
  | .settleCodexCredentialFailover _ _ => .isTrue trivial
  | .finishTurn _ _ => .isTrue trivial
  | .credentialLeases _ => .isTrue trivial

end TurnQueue

/-! ## Places -/

section

variable {turn turn' other : TurnRow} {turns : List TurnRow}

theorem place_lt_iff : turn.place < other.place ↔ turn.position < other.position ∨ turn.position = other.position ∧
      (turn.createdAt < other.createdAt ∨ turn.createdAt = other.createdAt ∧ turn.id < other.id) := by
  unfold TurnRow.place
  rw [Prod.Lex.toLex_lt_toLex, Prod.Lex.toLex_lt_toLex]

theorem place_lt_of_position (h : turn.position < other.position) : turn.place < other.place :=
  place_lt_iff.2 (.inl h)

theorem place_ne (h : turn.id ≠ other.id) : turn.place ≠ other.place := by
  intro heq
  exact h (congrArg (fun place => (ofLex (ofLex place).2).2) heq)

theorem place_le_movedBack (minPos : ℕ) (turn : TurnRow) : turn.place ≤ (turn.movedBack minPos).place := by
  unfold TurnRow.movedBack
  split
  · exact le_of_lt (place_lt_of_position (Nat.lt_succ_self _))
  · exact le_refl _

def TurnRow.Ahead (turns : List TurnRow) (turn : TurnRow) : Prop :=
  ∀ other ∈ turns, other.status = .queued → other.id ≠ turn.id → turn.place < other.place

theorem TurnRow.Ahead.map {f : TurnRow → TurnRow} (h : turn.Ahead turns) (hid : ∀ row, (f row).id = row.id)
    (hplace : (f turn).place = turn.place)
    (hothers : ∀ other ∈ turns, other.id ≠ turn.id → (f other).status = .queued →
      other.status = .queued ∧ other.place ≤ (f other).place) : (f turn).Ahead (turns.map f) := by
  intro row hrow hqueued hne
  obtain ⟨other, hmem, rfl⟩ := List.mem_map.1 hrow
  rw [hid, hid] at hne
  obtain ⟨hwas, hle⟩ := hothers other hmem hne hqueued
  rw [hplace]
  exact lt_of_lt_of_le (h other hmem hwas hne) hle

theorem TurnRow.Ahead.append (h : turn.Ahead turns) (hnew : turn.place < other.place) :
    turn.Ahead (turns ++ [other]) := by
  intro row hrow hqueued hne
  rcases List.mem_append.1 hrow with hold | hlast
  · exact h row hold hqueued hne
  · rw [List.mem_singleton.1 hlast]
    exact hnew

/-! ## The first queued turn -/

theorem nextQueuedTurn_spec (h : nextQueuedTurn turns = some turn) :
    turn ∈ turns ∧ turn.status = .queued ∧ turn.Ahead turns := by
  have hmin : turn ∈ (turns.filter (·.status == .queued)).argmin TurnRow.place := h
  obtain ⟨hmem, hqueued⟩ := List.mem_filter.1 (List.argmin_mem hmin)
  refine ⟨hmem, by simpa using hqueued, ?_⟩
  intro other hother hstatus hne
  have hle := List.le_of_mem_argmin (List.mem_filter.2 ⟨hother, by simpa using hstatus⟩) hmin
  exact lt_of_le_of_ne hle (place_ne hne.symm)

theorem nextQueuedTurn_of_ahead (hids : (turns.map (·.id)).Nodup) (hmem : turn ∈ turns)
    (hqueued : turn.status = .queued) (hahead : turn.Ahead turns) : nextQueuedTurn turns = some turn := by
  have hfilter : turn ∈ turns.filter (·.status == .queued) := List.mem_filter.2 ⟨hmem, by simpa using hqueued⟩
  cases hnext : nextQueuedTurn turns with
  | none =>
    rw [List.argmin_eq_none.1 hnext] at hfilter
    exact absurd hfilter List.not_mem_nil
  | some first =>
    obtain ⟨hfirst, hstatus, hbefore⟩ := nextQueuedTurn_spec hnext
    by_cases hid : first.id = turn.id
    · rw [List.inj_on_of_nodup_map hids hfirst hmem hid]
    · -- each would be before the other
      have h₁ := hahead first hfirst hstatus hid
      have h₂ := hbefore turn hmem hqueued (Ne.symm hid)
      exact absurd (h₁.trans h₂) (lt_irrefl _)

end

/-! ## The invariant -/

namespace TurnQueue

structure Ordered (s : TurnQueue) : Prop where
  ids : (s.tables.turns.map (·.id)).Nodup
  live : ∀ turn ∈ s.tables.turns, turn.status.live = true → s.phase = .running turn.id
  running : ∀ turnId, s.phase = .running turnId →
    ∃ turn ∈ s.tables.turns, turn.id = turnId ∧ turn.status.live = true ∧ turn.Ahead s.tables.turns
  returned : ∀ turnId, s.phase = .returned turnId →
    ∃ turn ∈ s.tables.turns, turn.id = turnId ∧ turn.status = .queued ∧ turn.Ahead s.tables.turns

section

variable {s s' : TurnQueue} {tables : SessionTables} {turn new : TurnRow} {f : TurnRow → TurnRow} {op : QueueOp}

theorem Fresh.ordered (h : s.Fresh) : s.Ordered := by
  obtain ⟨hids, hlive, hphase⟩ := h
  refine ⟨hids, ?_, ?_, ?_⟩
  · intro turn hmem hturn
    rw [hlive turn hmem] at hturn
    exact absurd hturn Bool.false_ne_true
  · intro turnId hrunning
    rw [hphase] at hrunning
    cases hrunning
  · intro turnId hreturned
    rw [hphase] at hreturned
    cases hreturned

theorem map_ids (hid : ∀ row, (f row).id = row.id) (turns : List TurnRow) :
    (turns.map f).map (·.id) = turns.map (·.id) := by
  rw [List.map_map]
  exact List.map_congr_left fun row _ => hid row

theorem live_ne_queued {status : SessionTurnStatus} (h : status.live = true) : status ≠ .queued := by
  rintro rfl
  cases h

theorem Ordered.map (h : s.Ordered) (hturns : tables.turns = s.tables.turns.map f)
    (hid : ∀ row, (f row).id = row.id)
    (hstatus : ∀ row ∈ s.tables.turns, (f row).status = row.status ∨
      row.status = .queued ∧ (f row).status = .cancelled ∧ s.phase ≠ .returned row.id)
    (hahead : ∀ turn ∈ s.tables.turns, s.phase.turnId? = some turn.id → turn.Ahead s.tables.turns →
      (f turn).Ahead (s.tables.turns.map f)) : Ordered { s with tables } := by
  refine ⟨?_, ?_, ?_, ?_⟩
  · rw [hturns, map_ids hid]
    exact h.ids
  · intro row hrow hlive
    rw [hturns] at hrow
    obtain ⟨turn, hmem, rfl⟩ := List.mem_map.1 hrow
    rw [hid]
    rcases hstatus turn hmem with hsame | ⟨-, hcancelled, -⟩
    · rw [hsame] at hlive
      exact h.live turn hmem hlive
    · rw [hcancelled] at hlive
      cases hlive
  · intro turnId hphase
    obtain ⟨turn, hmem, rfl, hlive, hturn⟩ := h.running turnId hphase
    have hsame : (f turn).status = turn.status := by
      rcases hstatus turn hmem with hsame | ⟨hqueued, -, -⟩
      · exact hsame
      · exact absurd hqueued (live_ne_queued hlive)
    rw [hturns]
    refine ⟨f turn, List.mem_map_of_mem hmem, hid turn, by rw [hsame]; exact hlive, ?_⟩
    exact hahead turn hmem (congrArg ClaimPhase.turnId? hphase) hturn
  · intro turnId hphase
    obtain ⟨turn, hmem, rfl, hqueued, hturn⟩ := h.returned turnId hphase
    have hsame : (f turn).status = turn.status := by
      rcases hstatus turn hmem with hsame | ⟨-, -, hne⟩
      · exact hsame
      · exact absurd hphase hne
    rw [hturns]
    refine ⟨f turn, List.mem_map_of_mem hmem, hid turn, by rw [hsame]; exact hqueued, ?_⟩
    exact hahead turn hmem (congrArg ClaimPhase.turnId? hphase) hturn

theorem Ordered.append (h : s.Ordered) (hturns : tables.turns = s.tables.turns ++ [new])
    (hid : ∀ turn ∈ s.tables.turns, turn.id ≠ new.id) (hqueued : new.status = .queued)
    (hbehind : ∀ turn ∈ s.tables.turns, s.phase.turnId? = some turn.id → turn.place < new.place) :
    Ordered { s with tables } := by
  refine ⟨?_, ?_, ?_, ?_⟩
  · rw [hturns, List.map_append, List.nodup_append]
    refine ⟨h.ids, List.nodup_singleton _, ?_⟩
    intro a ha b hb
    obtain ⟨turn, hmem, rfl⟩ := List.mem_map.1 ha
    rw [List.mem_singleton.1 hb]
    exact hid turn hmem
  · intro turn hturn hlive
    rw [hturns] at hturn
    rcases List.mem_append.1 hturn with hold | hnew
    · exact h.live turn hold hlive
    · rw [List.mem_singleton.1 hnew] at hlive
      exact absurd hqueued (live_ne_queued hlive)
  · intro turnId hphase
    obtain ⟨turn, hmem, rfl, hlive, hahead⟩ := h.running turnId hphase
    rw [hturns]
    have hlt := hbehind turn hmem (congrArg ClaimPhase.turnId? hphase)
    exact ⟨turn, List.mem_append_left _ hmem, rfl, hlive, hahead.append hlt⟩
  · intro turnId hphase
    obtain ⟨turn, hmem, rfl, hstatus, hahead⟩ := h.returned turnId hphase
    rw [hturns]
    have hlt := hbehind turn hmem (congrArg ClaimPhase.turnId? hphase)
    exact ⟨turn, List.mem_append_left _ hmem, rfl, hstatus, hahead.append hlt⟩

theorem Ordered.of_status (hids : (s.tables.turns.map (·.id)).Nodup) (hmem : turn ∈ s.tables.turns)
    (hothers : ∀ other ∈ s.tables.turns, other.id ≠ turn.id → other.status.live = false)
    (hahead : turn.Ahead s.tables.turns) (hturns : tables.turns = s.tables.turns.map f)
    (hid : ∀ row, (f row).id = row.id) (hf : ∀ row ∈ s.tables.turns, row.id ≠ turn.id → f row = row)
    (hplace : (f turn).place = turn.place) :
    Ordered { tables, phase := .ofStatus turn.id (f turn).status } := by
  have hfront : (f turn).Ahead (s.tables.turns.map f) := by
    apply hahead.map hid hplace
    intro other hother hne hqueued
    rw [hf other hother hne] at hqueued ⊢
    exact ⟨hqueued, le_refl _⟩
  have hrow : f turn ∈ s.tables.turns.map f := List.mem_map_of_mem hmem
  refine ⟨?_, ?_, ?_, ?_⟩
  · rw [hturns, map_ids hid]
    exact hids
  · intro row hrow hlive
    rw [hturns] at hrow
    obtain ⟨other, hother, rfl⟩ := List.mem_map.1 hrow
    by_cases hsame : other.id = turn.id
    · rw [List.inj_on_of_nodup_map hids hother hmem hsame] at hlive ⊢
      rw [hid]
      exact if_pos hlive
    · rw [hf other hother hsame, hothers other hother hsame] at hlive
      exact absurd hlive Bool.false_ne_true
  · intro turnId hphase
    unfold ClaimPhase.ofStatus at hphase
    split_ifs at hphase with hlive
    cases hphase
    rw [hturns]
    exact ⟨f turn, hrow, hid turn, hlive, hfront⟩
  · intro turnId hphase
    unfold ClaimPhase.ofStatus at hphase
    split_ifs at hphase with hlive hqueued
    cases hphase
    rw [hturns]
    exact ⟨f turn, hrow, hid turn, hqueued, hfront⟩

theorem Ordered.of_live (h : s.Ordered) (hmem : turn ∈ s.tables.turns) (hlive : turn.status.live = true) :
    turn.Ahead s.tables.turns ∧ ∀ other ∈ s.tables.turns, other.id ≠ turn.id → other.status.live = false := by
  have hphase := h.live turn hmem hlive
  obtain ⟨found, hfound, hid, -, hahead⟩ := h.running turn.id hphase
  rw [List.inj_on_of_nodup_map h.ids hfound hmem hid] at hahead
  refine ⟨hahead, ?_⟩
  intro other hother hne
  by_contra hotherLive
  have hsame := h.live other hother (by simpa using hotherLive)
  rw [hphase] at hsame
  exact hne (ClaimPhase.running.inj hsame).symm

/-! ## The operations -/

variable {now turnId : ℕ}

theorem Ordered.cancel (h : s.Ordered) {p : TurnRow → Bool} (htables : tables = s.tables.updateTurns p fun turn =>
      { turn with status := .cancelled, finishedAt := some now })
    (hp : ∀ row ∈ s.tables.turns, p row = true → row.status = .queued ∧ s.phase ≠ .returned row.id) :
    Ordered { s with tables } := by
  subst htables
  apply h.map rfl
  · intro row
    by_cases hrow : p row = true <;> simp [hrow]
  · intro row hmem
    by_cases hrow : p row = true
    · obtain ⟨hqueued, hne⟩ := hp row hmem hrow
      exact .inr ⟨hqueued, by simp [hrow], hne⟩
    · exact .inl (by simp [hrow])
  · intro turn hmem _ hahead
    apply hahead.map
    · intro row
      by_cases hrow : p row = true <;> simp [hrow]
    · by_cases hrow : p turn = true <;> simp [hrow, TurnRow.place]
    · intro other _ _ hqueued
      by_cases hrow : p other = true
      · simp [hrow] at hqueued
      · simp only [hrow] at hqueued ⊢
        exact ⟨hqueued, le_refl _⟩

theorem Ordered.reorder (h : s.Ordered) {turnIds : List ℕ} (hkeeps : s.KeptByReorder turnIds)
    (hrun : reorderQueuedSessionTurns turnIds s.tables = some tables) : Ordered { s with tables } := by
  obtain ⟨-, hturns⟩ := reorderQueuedSessionTurns_eq h.ids hrun
  apply h.map hturns (fun _ => rfl) (fun _ _ => .inl rfl)
  intro turn hmem hphase _ row hrow hqueued hne
  obtain ⟨other, hother, rfl⟩ := List.mem_map.1 hrow
  exact hkeeps turn.id hphase turn hmem rfl other hother hqueued hne

theorem Ordered.returned_of_queued (h : s.Ordered) (hmem : turn ∈ s.tables.turns) (hqueued : turn.status = .queued)
    (hphase : s.phase.turnId? = some turn.id) : s.phase = .returned turn.id := by
  cases hcase : s.phase with
  | idle =>
    rw [hcase] at hphase
    cases hphase
  | running turnId =>
    rw [hcase] at hphase
    obtain ⟨found, hfound, hfoundId, hlive, -⟩ := h.running turnId hcase
    have hsame : found.id = turn.id := hfoundId.trans (Option.some.inj hphase)
    rw [List.inj_on_of_nodup_map h.ids hfound hmem hsame] at hlive
    exact absurd hqueued (live_ne_queued hlive)
  | returned turnId =>
    rw [hcase] at hphase
    exact congrArg ClaimPhase.returned (Option.some.inj hphase)

theorem Ordered.enqueue (h : s.Ordered) {input : EnqueueSessionTurnInput}
    (hid : ∀ turn ∈ s.tables.turns, turn.id ≠ input.id) (hkeeps : s.KeptByEnqueue now input) :
    Ordered { s with tables := enqueueSessionTurn now input s.tables } := by
  obtain ⟨new, hnewId, hqueued, hcreated, hcases⟩ := enqueueSessionTurn_cases now input s.tables
  rw [← hnewId] at hid
  rcases hcases with ⟨hturns, hback⟩ | ⟨hpreempt, hmin, hturns⟩
  · refine h.append hturns hid hqueued ?_
    intro turn hmem _
    exact place_lt_of_position (hback turn hmem)
  -- the queued rows from the slot on move back first, and the turn is not among them
  have hkept : ∀ turn ∈ s.tables.turns, s.phase.turnId? = some turn.id → turn.movedBack new.position = turn := by
    intro turn hmem hphase
    by_cases hstatus : turn.status = .queued
    · have hreturned := h.returned_of_queued hmem hstatus hphase
      exact TurnRow.movedBack_of_lt ((hkeeps hpreempt _ hmin turn.id hphase turn hmem rfl).2 hreturned)
    · exact if_neg (by simp [hstatus])
  have hmoved : Ordered { s with tables := { s.tables with turns := s.tables.turns.map (·.movedBack new.position) } } := by
    apply h.map rfl (fun row => (row.movedBack_spec _).1) (fun row _ => .inl (row.movedBack_spec _).2.1)
    intro turn hmem hphase hahead
    apply hahead.map (fun row => (row.movedBack_spec _).1) (by rw [hkept turn hmem hphase])
    intro other _ _ hstatus
    rw [(other.movedBack_spec _).2.1] at hstatus
    exact ⟨hstatus, place_le_movedBack _ other⟩
  refine hmoved.append hturns ?_ hqueued ?_
  · intro row hrow
    obtain ⟨turn, hmem, rfl⟩ := List.mem_map.1 hrow
    rw [(turn.movedBack_spec _).1]
    exact hid turn hmem
  · intro row hrow hphase
    obtain ⟨turn, hmem, rfl⟩ := List.mem_map.1 hrow
    rw [(turn.movedBack_spec _).1] at hphase
    rw [hkept turn hmem hphase]
    have hslot := (hkeeps hpreempt _ hmin turn.id hphase turn hmem rfl).1
    unfold TurnRow.place at hslot ⊢
    rw [hcreated, hnewId]
    exact hslot

theorem Ordered.claim (h : s.Ordered) (hnone : ∀ turn ∈ s.tables.turns, turn.status.live = false) :
    Ordered
      { tables := (claimNextQueuedTurn now s.tables).1
        phase := ((claimNextQueuedTurn now s.tables).2.map fun turn => .running turn.id).getD .idle } := by
  unfold claimNextQueuedTurn
  cases hnext : nextQueuedTurn s.tables.turns with
  | none => exact Fresh.ordered ⟨h.ids, hnone, rfl⟩
  | some turn =>
    obtain ⟨hmem, -, hahead⟩ := nextQueuedTurn_spec hnext
    let f : TurnRow → TurnRow := fun row =>
      if row.id == turn.id then { row with status := .running, startedAt := some now } else row
    have hf : f turn = { turn with status := .running, startedAt := some now } := by
      unfold f
      rw [if_pos (beq_self_eq_true turn.id)]
    have hphase : ClaimPhase.ofStatus turn.id (f turn).status = .running turn.id := by
      rw [hf]
      rfl
    have hclaimed : Ordered
        { tables :=
            { s.tables with
              turns := s.tables.turns.map f
              session := { s.tables.session with status := .running, activeTurnId := some turn.id } }
          phase := .ofStatus turn.id (f turn).status } :=
      Ordered.of_status (f := f) h.ids hmem (fun other hother _ => hnone other hother) hahead rfl
      (by intro row; unfold f; split <;> rfl)
      (by intro row _ hne; unfold f; rw [if_neg (by simpa using hne)])
      (by rw [hf]; rfl)
    rw [hphase] at hclaimed
    exact hclaimed

theorem Ordered.requeue (h : s.Ordered) {triggerEventId : ℕ}
    (hrun : requeuePreemptedTurn turnId triggerEventId preemptibleStatuses s.tables = some tables) :
    Ordered { tables, phase := .returned turnId } := by
  unfold requeuePreemptedTurn at hrun
  split_ifs at hrun with hany
  obtain ⟨turn, hmem, hturn⟩ := List.any_eq_true.1 hany
  obtain ⟨hid, hstatus⟩ := Bool.and_eq_true_iff.1 hturn
  obtain rfl : turn.id = turnId := by simpa using hid
  have hlive : turn.status.live = true := by
    unfold preemptibleStatuses at hstatus
    unfold SessionTurnStatus.live
    simpa using hstatus
  obtain ⟨hahead, hothers⟩ := h.of_live hmem hlive
  let f : TurnRow → TurnRow := fun row =>
    if row.id == turn.id && preemptibleStatuses.contains row.status then
      { row with status := .queued, triggerEventId, startedAt := none, finishedAt := none }
    else row
  have hf : f turn = { turn with status := .queued, triggerEventId, startedAt := none, finishedAt := none } := by
    unfold f
    rw [if_pos hturn]
  have hphase : ClaimPhase.ofStatus turn.id (f turn).status = .returned turn.id := by
    rw [hf]
    rfl
  have hreturned : Ordered { tables, phase := .ofStatus turn.id (f turn).status } :=
    Ordered.of_status (f := f) h.ids hmem hothers hahead
    (by rw [← Option.some.inj hrun]; rfl)
    (by intro row; unfold f; split <;> rfl)
    (by intro row _ hne; unfold f; rw [if_neg (by simp [hne])])
    (by rw [hf]; rfl)
  rw [hphase] at hreturned
  exact hreturned

theorem Ordered.failover (h : s.Ordered) {input : SettleFailoverInput}
    {result : SessionTables × SettleAction}
    (hrun : settleCodexCredentialFailover now input s.tables = some result) :
    Ordered
      { tables := result.1, phase := if result.2 = .requeued then .returned input.turnId else s.phase } := by
  rcases failover_cases hrun with ⟨htables, hne⟩ | ⟨haction, turn, hfound, hlive, trigger, metadata, hturns⟩
  · rw [htables, if_neg hne]
    exact h
  obtain ⟨hmem, hid⟩ : turn ∈ s.tables.turns ∧ turn.id = input.turnId :=
    ⟨List.mem_of_find?_eq_some hfound, by simpa using List.find?_some hfound⟩
  obtain ⟨hahead, hothers⟩ := h.of_live hmem hlive
  let f : TurnRow → TurnRow := fun row =>
    if row.id == input.turnId then
      { row with status := .queued, triggerEventId := trigger, metadata, startedAt := none, finishedAt := none }
    else row
  have hf : f turn =
      { turn with status := .queued, triggerEventId := trigger, metadata, startedAt := none, finishedAt := none } := by
    unfold f
    rw [if_pos (by simpa using hid)]
  have hphase : ClaimPhase.ofStatus turn.id (f turn).status = .returned turn.id := by
    rw [hf]
    rfl
  have hreturned : Ordered { tables := result.1, phase := .ofStatus turn.id (f turn).status } :=
    Ordered.of_status (f := f) h.ids hmem hothers hahead hturns
    (by intro row; unfold f; split <;> rfl)
    (by intro row _ hne; unfold f; rw [if_neg (by simpa [← hid] using hne)])
    (by rw [hf]; rfl)
  rw [hphase, hid] at hreturned
  rw [if_pos haction]
  exact hreturned

theorem Ordered.finish (h : s.Ordered) {status : FinishStatus} (hphase : s.phase = .running turnId) :
    Ordered
      { tables := finishTurn now turnId status s.tables
        phase := .ofStatus turnId (turnStatusForFinish status) } := by
  obtain ⟨turn, hmem, rfl, hlive, -⟩ := h.running turnId hphase
  obtain ⟨hahead, hothers⟩ := h.of_live hmem hlive
  let f : TurnRow → TurnRow := fun row =>
    if row.id == turn.id then
      { row with
        status := turnStatusForFinish status
        finishedAt := if turnStatusForFinish status = .requiresAction then row.finishedAt else some now }
    else row
  have hf : (f turn).status = turnStatusForFinish status ∧ (f turn).place = turn.place := by
    unfold f
    rw [if_pos (beq_self_eq_true turn.id)]
    exact ⟨rfl, rfl⟩
  have hfinished : Ordered
      { tables := finishTurn now turn.id status s.tables, phase := .ofStatus turn.id (f turn).status } :=
    Ordered.of_status (f := f) h.ids hmem hothers hahead rfl
    (by intro row; unfold f; split <;> rfl)
    (by intro row _ hne; unfold f; rw [if_neg (by simpa using hne)])
    hf.2
  rw [hf.1] at hfinished
  exact hfinished

/-- **Every operation that keeps the order keeps the invariant.** -/
theorem Ordered.step (h : s.Ordered) (hstep : s.step op = some s') (hkeeps : s.KeepsOrder op) : s'.Ordered := by
  cases op with
  | enqueueSessionTurn now input =>
    unfold TurnQueue.step at hstep
    dsimp only at hstep
    by_cases hany : (s.tables.turns.any (·.id == input.id)) = true
    · rw [if_pos hany] at hstep
      cases hstep
    · rw [if_neg hany] at hstep
      cases hstep
      refine h.enqueue ?_ hkeeps
      intro turn hmem hid
      exact hany (List.any_eq_true.2 ⟨turn, hmem, by simpa using hid⟩)
  | reorderQueuedSessionTurns turnIds =>
    obtain ⟨tables, hrun, rfl⟩ := Option.map_eq_some_iff.1 hstep
    exact h.reorder hkeeps hrun
  | cancelQueuedSessionTurn now turnId =>
    obtain ⟨tables, hrun, rfl⟩ := Option.map_eq_some_iff.1 hstep
    unfold cancelQueuedSessionTurn at hrun
    split_ifs at hrun
    refine h.cancel (Option.some.inj hrun).symm ?_
    intro row _ hrow
    simp only [Bool.and_eq_true, beq_iff_eq] at hrow
    rw [hrow.1]
    exact ⟨hrow.2, hkeeps⟩
  | cancelQueuedSessionTurns now =>
    cases hstep
    refine h.cancel rfl ?_
    intro row hmem hrow
    exact ⟨by simpa using hrow, hkeeps row hmem⟩
  | claimNextQueuedTurn now =>
    unfold TurnQueue.step at hstep
    split_ifs at hstep with hany
    cases hstep
    apply h.claim
    intro turn hmem
    by_contra hlive
    exact hany (List.any_eq_true.2 ⟨turn, hmem, by simpa using hlive⟩)
  | requeuePreemptedTurn turnId triggerEventId =>
    obtain ⟨tables, hrun, rfl⟩ := Option.map_eq_some_iff.1 hstep
    exact h.requeue hrun
  | settleCodexCredentialFailover now input =>
    obtain ⟨result, hrun, rfl⟩ := Option.map_eq_some_iff.1 hstep
    exact h.failover hrun
  | finishTurn now status =>
    unfold TurnQueue.step at hstep
    cases hphase : s.phase with
    | running turnId =>
      rw [hphase] at hstep
      cases hstep
      exact h.finish hphase
    | idle | returned =>
      rw [hphase] at hstep
      cases hstep
  | credentialLeases leases =>
    cases hstep
    exact ⟨h.ids, h.live, h.running, h.returned⟩

theorem Ordered.claims_returned (h : s.Ordered) (hphase : s.phase = .returned turnId) (now : ℕ) :
    (claimNextQueuedTurn now s.tables).2.map (·.id) = some turnId := by
  obtain ⟨turn, hmem, rfl, hqueued, hahead⟩ := h.returned turnId hphase
  unfold claimNextQueuedTurn
  rw [nextQueuedTurn_of_ahead h.ids hmem hqueued hahead]
  rfl

end

/-- **In every run whose steps keep the order, the next claim after the turn is put back
returns that turn.** -/
theorem returned_turn_is_claimed_next {s s' : TurnQueue} {ops : List QueueOp} (hs : s.Fresh)
    (hrun : Run (Restrict (fun s op s' => s.step op = some s') KeepsOrder) s ops s') {turnId : ℕ}
    (hreturned : s'.phase = .returned turnId) (now : ℕ) :
    (claimNextQueuedTurn now s'.tables).2.map (·.id) = some turnId := by
  have hordered : s'.Ordered := hrun.invariant (fun _ _ _ hstep h => h.step hstep.1 hstep.2) hs.ordered
  exact hordered.claims_returned hreturned now

/-! ## A reorder while a turn runs -/

def secondRuns : List QueueOp := let input (id : ℕ) : EnqueueSessionTurnInput :=
    { id, triggerEventId := id, source := .user, prompt := "", metadata := .none, preemptChildNotifications := false }
  [.enqueueSessionTurn 1 (input 11), .enqueueSessionTurn 2 (input 12), .enqueueSessionTurn 3 (input 13),
   .claimNextQueuedTurn 4, .finishTurn 5 (.session .idle), .claimNextQueuedTurn 6]

def emptyQueue : TurnQueue :=
  { tables :=
      { session :=
          { id := 1, status := .idle, activeTurnId := none, lastSequence := 0, passiveMode := false }
        turns := [], goal := none, events := [], leases := [], waiter := none }
    phase := .idle }

/-- The reorder of the one turn that is left gives it the first position, and the turn that is
put back has the second. -/
theorem reorder_overtakes_running :
    ∃ s : TurnQueue, Run (fun s op s' => TurnQueue.step s op = some s') emptyQueue
        (secondRuns ++ [.reorderQueuedSessionTurns [13], .requeuePreemptedTurn 12 12]) s ∧
      s.phase = .returned 12 ∧ (claimNextQueuedTurn 9 s.tables).2.map (·.id) = some 13 :=
  exists_run_of_play (by decide +kernel)

/-- Without the reorder it is claimed again. -/
theorem returned_second_is_claimed_next :
    ∃ s : TurnQueue, s.phase = .returned 12 ∧ (claimNextQueuedTurn 9 s.tables).2.map (·.id) = some 12 := by
  have hplay : ∃ s ∈ play (guarded TurnQueue.step KeepsOrder) emptyQueue
      (secondRuns ++ [.requeuePreemptedTurn 12 12]), s.phase = .returned 12 := by decide +kernel
  obtain ⟨s, hs, hphase⟩ := hplay
  have hfresh : emptyQueue.Fresh := by decide
  exact ⟨s, hphase, returned_turn_is_claimed_next hfresh (guarded_run hs) hphase 9⟩

end TurnQueue

end OpenGeni.Db
