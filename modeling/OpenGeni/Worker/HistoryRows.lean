/-
The rows that a reconcile pass appends
(`apps/worker/src/activities/agent-turn.ts`, `historyRowsToAppend`).

A pass sanitizes the whole history and appends what lies beyond the watermark, the number of
items written so far. So the passes write the sanitized history exactly if each sanitized view
begins with the one before (`passes_persist_iff`). The views need not grow that way: a call that
is dropped while it waits comes back in the middle, in front of what was written meanwhile.
-/
import OpenGeni.Lib.Watermark
import OpenGeni.Runtime.HistoryPairing

namespace OpenGeni.Worker

open OpenGeni.Lib OpenGeni.Runtime

variable {T : Type*}

structure HistoryRow (T : Type*) where
  position : ℕ
  item : T

/-- What a pass is to append, and where the next one is to start. -/
structure HistoryRows (T : Type*) where
  rows : List (HistoryRow T)
  nextWatermark : ℕ
  nextPosition : ℕ

def rowsFrom (nextPosition : ℕ) (items : List T) : List (HistoryRow T) :=
  items.mapIdx fun offset item => { position := nextPosition + offset, item }

theorem rowsFrom_items (nextPosition : ℕ) (items : List T) : (rowsFrom nextPosition items).map (·.item) = items := by
  unfold rowsFrom
  apply List.ext_getElem
  · rw [List.length_map, List.length_mapIdx]
  · intro i h₁ h₂
    rw [List.getElem_map, List.getElem_mapIdx]

theorem rowsFrom_positions (nextPosition : ℕ) (items : List T) :
    (rowsFrom nextPosition items).map (·.position) = List.range' nextPosition items.length := by
  unfold rowsFrom
  apply List.ext_getElem
  · rw [List.length_map, List.length_mapIdx, List.length_range']
  · intro i h₁ h₂
    rw [List.getElem_map, List.getElem_mapIdx, List.getElem_range', Nat.one_mul]

theorem rowsFrom_length (nextPosition : ℕ) (items : List T) : (rowsFrom nextPosition items).length = items.length := by
  exact List.length_mapIdx

def historyRowsToAppend (fields : T → JsValue) (rawHistory : List T) (persistedHistoryCount nextPosition : ℕ) :
    HistoryRows T :=
  let sanitized := sanitizeHistoryItemsForModel fields rawHistory
  if sanitized.length ≤ persistedHistoryCount then
    { rows := [], nextWatermark := persistedHistoryCount, nextPosition }
  else
    let rows := rowsFrom nextPosition (sanitized.drop persistedHistoryCount)
    { rows, nextWatermark := sanitized.length, nextPosition := nextPosition + rows.length }

structure Passes (T : Type*) where
  rows : List (HistoryRow T)
  persistedHistoryCount : ℕ
  nextHistoryPosition : ℕ

namespace Passes

def reconcile (fields : T → JsValue) (s : Passes T) (rawHistory : List T) : Passes T :=
  let pass := historyRowsToAppend fields rawHistory s.persistedHistoryCount s.nextHistoryPosition
  { rows := s.rows ++ pass.rows, persistedHistoryCount := pass.nextWatermark
    nextHistoryPosition := pass.nextPosition }

/-- Before the first pass of a turn that is seeded with the items. -/
def seeded (stored : List T) (nextHistoryPosition : ℕ) : Passes T :=
  { rows := [], persistedHistoryCount := stored.length, nextHistoryPosition }

def items (stored : List T) (s : Passes T) : List T := stored ++ s.rows.map (·.item)

/-- The rows have the positions from the given one on, and both counters are right. -/
structure Counted (stored : List T) (first : ℕ) (s : Passes T) : Prop where
  positions : s.rows.map (·.position) = List.range' first s.rows.length
  watermark : s.persistedHistoryCount = (s.items stored).length
  next : s.nextHistoryPosition = first + s.rows.length

variable {fields : T → JsValue} {stored : List T} {first : ℕ} {s : Passes T}

theorem seeded_counted (stored : List T) (first : ℕ) : (seeded stored first).Counted stored first := by
  refine ⟨rfl, ?_, rfl⟩
  unfold items seeded
  rw [List.map_nil, List.append_nil]

theorem historyRowsToAppend_spec (fields : T → JsValue) (rawHistory : List T) (persistedHistoryCount nextPosition : ℕ) :
    historyRowsToAppend fields rawHistory persistedHistoryCount nextPosition =
      { rows := rowsFrom nextPosition ((sanitizeHistoryItemsForModel fields rawHistory).drop persistedHistoryCount)
        nextWatermark := max persistedHistoryCount (sanitizeHistoryItemsForModel fields rawHistory).length
        nextPosition := nextPosition +
          ((sanitizeHistoryItemsForModel fields rawHistory).drop persistedHistoryCount).length } := by
  unfold historyRowsToAppend
  dsimp only
  split
  case isTrue hle =>
    rw [List.drop_eq_nil_of_le hle, max_eq_left hle]
    rfl
  case isFalse hlt =>
    rw [max_eq_right (by omega), rowsFrom_length]

theorem reconcile_items (h : s.Counted stored first) (rawHistory : List T) :
    (s.reconcile fields rawHistory).items stored =
      catchUp (s.items stored) (sanitizeHistoryItemsForModel fields rawHistory) := by
  unfold reconcile
  rw [historyRowsToAppend_spec]
  unfold items catchUp
  rw [List.map_append, rowsFrom_items, ← List.append_assoc, h.watermark]
  rfl

theorem reconcile_counted (h : s.Counted stored first) (rawHistory : List T) :
    (s.reconcile fields rawHistory).Counted stored first := by
  have hitems : (s.reconcile fields rawHistory).items stored =
      catchUp (s.items stored) (sanitizeHistoryItemsForModel fields rawHistory) :=
    reconcile_items h rawHistory
  refine ⟨?_, ?_, ?_⟩
  · unfold reconcile
    rw [historyRowsToAppend_spec]
    rw [List.map_append, h.positions, rowsFrom_positions, List.length_append, rowsFrom_length, h.next]
    exact List.range'_append_1
  · rw [hitems, catchUp_length, ← h.watermark]
    unfold reconcile
    rw [historyRowsToAppend_spec]
  · unfold reconcile
    rw [historyRowsToAppend_spec]
    rw [List.length_append, rowsFrom_length, h.next, Nat.add_assoc]

theorem foldl_reconcile (h : s.Counted stored first) (histories : List (List T)) :
    (histories.foldl (reconcile fields) s).Counted stored first ∧
      (histories.foldl (reconcile fields) s).items stored =
        (histories.map (sanitizeHistoryItemsForModel fields)).foldl catchUp (s.items stored) := by
  induction histories generalizing s with
  | nil => exact ⟨h, rfl⟩
  | cons rawHistory histories ih =>
    have hnext : (s.reconcile fields rawHistory).Counted stored first := reconcile_counted h rawHistory
    obtain ⟨hcounted, hitems⟩ := ih hnext
    rw [List.foldl_cons, List.map_cons, List.foldl_cons, ← reconcile_items h]
    exact ⟨hcounted, hitems⟩

/-- After every pass the rows, in the order of their positions and behind the prefix, are the sanitized history of the last pass. -/
structure Persists (fields : T → JsValue) (stored : List T) (first : ℕ) (histories : List (List T)) : Prop where
  truth : ∀ done rawHistory rest, histories = done ++ rawHistory :: rest →
    ((done ++ [rawHistory]).foldl (reconcile fields) (seeded stored first)).items stored =
      sanitizeHistoryItemsForModel fields rawHistory
  ordered : ((histories.foldl (reconcile fields) (seeded stored first)).rows.map (·.position)).Pairwise (· < ·)

end Passes

/-- **The passes persist the sanitized history** exactly if each sanitized view begins with the
one before. -/
theorem passes_persist_iff (fields : T → JsValue) (stored : List T) (first : ℕ) (histories : List (List T)) :
    Passes.Persists fields stored first histories ↔
      (stored :: histories.map (sanitizeHistoryItemsForModel fields)).IsChain (· <+: ·) := by
  have hseeded : (Passes.seeded stored first).items stored = stored := by
    unfold Passes.items Passes.seeded
    rw [List.map_nil, List.append_nil]
  have hfold : ∀ histories : List (List T), (histories.foldl (Passes.reconcile fields) (.seeded stored first)).items stored =
      (histories.map (sanitizeHistoryItemsForModel fields)).foldl catchUp stored := by
    intro histories
    rw [(Passes.foldl_reconcile (Passes.seeded_counted stored first) histories).2, hseeded]
  rw [← foldl_catchUp_iff]
  constructor
  · intro h done view rest hviews
    obtain ⟨before, later, rfl, rfl, hlater⟩ := List.map_eq_append_iff.1 hviews
    obtain ⟨rawHistory, rest, rfl, rfl, rfl⟩ := List.map_eq_cons_iff.1 hlater
    have htruth := h.truth before rawHistory rest rfl
    rw [hfold, List.map_append] at htruth
    exact htruth
  · intro h
    refine ⟨?_, ?_⟩
    · rintro done rawHistory rest rfl
      rw [hfold, List.map_append]
      exact h _ _ (rest.map (sanitizeHistoryItemsForModel fields)) (by rw [List.map_append, List.map_cons])
    · rw [(Passes.foldl_reconcile (Passes.seeded_counted stored first) histories).1.positions]
      exact List.pairwise_lt_range'

/-! ## Calls that wait -/

def twoCalls (i : ℕ) : JsValue := match i with
  | 0 => .object [("type", .string "message"), ("role", .string "user")]
  | 1 => .object [("type", .string "function_call"), ("callId", .string "a")]
  | 2 => .object [("type", .string "function_call"), ("callId", .string "b")]
  | 3 => .object [("type", .string "function_call_result"), ("callId", .string "b")]
  | _ => .object [("type", .string "function_call_result"), ("callId", .string "a")]

/-- The second call is answered before one pass, the first before the next. The second result is
written twice, and the first result without its call. -/
theorem late_result_loses_call :
    sanitizeHistoryItemsForModel twoCalls [0] = [0] ∧ [0] <+: [0, 1, 2, 3] ∧ [0, 1, 2, 3] <+: [0, 1, 2, 3, 4] ∧
      ([[0, 1, 2, 3], [0, 1, 2, 3, 4]].foldl (Passes.reconcile twoCalls) (.seeded [0] 1)).items [0] = [0, 2, 3, 3, 4] ∧
      ¬ Passes.Persists twoCalls [0] 1 [[0, 1, 2, 3], [0, 1, 2, 3, 4]] := by
  refine ⟨by decide +kernel, by decide, by decide, by decide +kernel, ?_⟩
  rw [passes_persist_iff]
  decide +kernel

end OpenGeni.Worker
