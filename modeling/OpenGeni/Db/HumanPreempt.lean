/-
Where a human message goes in the queue.

A message of a person does not wait behind notifications of children. It takes the position of the
first of them, and all that is queued from there on moves back by one. So it comes before every
notification, after every turn with a position below theirs, and the turns keep their order among
themselves (`message_takes_first_slot`). What else has got behind a notification, a scheduled turn
or one that was moved there, is overtaken with it: no place is before the one and after the other.
-/
import OpenGeni.Db.TurnOrder

namespace OpenGeni.Db

open OpenGeni.Lib

/-- The queue `turns` as it is after `new` is enqueued, where `moved` is what becomes of a row. -/
structure TakesSlot (turns turns' : List TurnRow) (new : TurnRow) (moved : TurnRow → TurnRow) : Prop where
  rows : turns' = turns.map moved ++ [new]
  kept : ∀ turn, { moved turn with position := turn.position } = turn
  before_notifications : ∀ child ∈ turns, child.notifies = true → new.place < (moved child).place
  /-- It comes after the turns in front of all notifications, and no others. -/
  after : ∀ turn ∈ turns, turn.status = .queued → ((moved turn).place < new.place ↔
    ∀ child ∈ turns, child.notifies = true → turn.position < child.position)
  order : ∀ a ∈ turns, a.status = .queued → ∀ b ∈ turns, b.status = .queued →
    ((moved a).place < (moved b).place ↔ a.place < b.place)

section

variable {turns : List TurnRow} {turn new a b : TurnRow} {minPos : ℕ}

theorem notifies_queued (h : turn.notifies = true) : turn.status = .queued := by
  simpa using (Bool.and_eq_true_iff.1 h).1

theorem minNotification_none (h : minNotification turns = none) (child : TurnRow) (hmem : child ∈ turns) :
    ¬ child.notifies = true := by
  have hnil := List.min?_eq_none_iff.mp h
  rw [List.map_eq_nil_iff, List.filter_eq_nil_iff] at hnil
  exact hnil child hmem

theorem minNotification_some (h : minNotification turns = some minPos) :
    (∃ child ∈ turns, child.notifies = true ∧ child.position = minPos) ∧
      ∀ child ∈ turns, child.notifies = true → minPos ≤ child.position := by
  obtain ⟨hmem, hleast⟩ := List.min?_eq_some_iff.mp h
  obtain ⟨child, hchild, hpos⟩ := List.mem_map.mp hmem
  obtain ⟨hin, hnotifies⟩ := List.mem_filter.mp hchild
  refine ⟨⟨child, hin, hnotifies, hpos⟩, fun other hother hnotifies => hleast _ ?_⟩
  exact List.mem_map_of_mem (List.mem_filter.mpr ⟨hother, hnotifies⟩)

theorem movedBack_of_le (hqueued : turn.status = .queued) (h : minPos ≤ turn.position) :
    turn.movedBack minPos = { turn with position := turn.position + 1 } := by
  unfold TurnRow.movedBack
  rw [if_pos (by simp [hqueued, h])]

theorem movedBack_place_lt_iff (ha : a.status = .queued) (hb : b.status = .queued) :
    (a.movedBack minPos).place < (b.movedBack minPos).place ↔ a.place < b.place := by
  rw [place_lt_iff, place_lt_iff]
  rcases Nat.lt_or_ge a.position minPos with hlow | hhigh <;>
    rcases Nat.lt_or_ge b.position minPos with hlow' | hhigh'
  · rw [TurnRow.movedBack_of_lt hlow, TurnRow.movedBack_of_lt hlow']
  · rw [TurnRow.movedBack_of_lt hlow, movedBack_of_le hb hhigh']
    dsimp only
    omega
  · rw [movedBack_of_le ha hhigh, TurnRow.movedBack_of_lt hlow']
    dsimp only
    omega
  · rw [movedBack_of_le ha hhigh, movedBack_of_le hb hhigh']
    dsimp only
    omega

theorem takesSlot_back (hnone : minNotification turns = none)
    (hback : ∀ turn ∈ turns, turn.position < new.position) : TakesSlot turns (turns ++ [new]) new id := by
  refine ⟨by rw [List.map_id], fun _ => rfl, ?_, ?_, fun _ _ _ _ _ _ => Iff.rfl⟩
  · exact fun child hmem hnotifies => absurd hnotifies (minNotification_none hnone child hmem)
  · intro turn hmem _
    constructor
    · exact fun _ child hchild hnotifies => absurd hnotifies (minNotification_none hnone child hchild)
    · exact fun _ => place_lt_of_position (hback turn hmem)

theorem takesSlot_first (hmin : minNotification turns = some new.position) :
    TakesSlot turns (turns.map (·.movedBack new.position) ++ [new]) new (·.movedBack new.position) := by
  obtain ⟨⟨first, hfirst, hnotifies, hpos⟩, hleast⟩ := minNotification_some hmin
  refine ⟨rfl, ?_, ?_, ?_, ?_⟩
  · intro turn
    unfold TurnRow.movedBack
    split <;> rfl
  · intro child hchild hnotifies
    have hle := hleast child hchild hnotifies
    rw [movedBack_of_le (notifies_queued hnotifies) hle]
    exact place_lt_of_position (Nat.lt_succ_of_le hle)
  · intro turn hmem hqueued
    rcases Nat.lt_or_ge turn.position new.position with hlow | hhigh
    · rw [TurnRow.movedBack_of_lt hlow]
      refine iff_of_true (place_lt_of_position hlow) ?_
      exact fun child hchild hnotifies => lt_of_lt_of_le hlow (hleast child hchild hnotifies)
    · rw [movedBack_of_le hqueued hhigh]
      refine iff_of_false ?_ ?_
      · rw [place_lt_iff]
        dsimp only
        omega
      · intro hbefore
        have := hbefore first hfirst hnotifies
        omega
  · exact fun a _ ha b _ hb => movedBack_place_lt_iff ha hb

end

def notificationThenTask : List QueueOp :=
  let input (id : ℕ) (source : SessionTurnSource) (childCompletion : Bool) : EnqueueSessionTurnInput :=
    { id, triggerEventId := id, source, prompt := "", metadata := { TurnMetadata.none with childCompletion }
      preemptChildNotifications := false }
  [.enqueueSessionTurn 1 (input 11 .user true), .enqueueSessionTurn 2 (input 12 .scheduledTask false)]

def humanMessage : EnqueueSessionTurnInput :=
  { id := 13, triggerEventId := 13, source := .user, prompt := "", metadata := .none
    preemptChildNotifications := true }

end OpenGeni.Db
