/-
Cutting a history that does not fit the input
(`packages/runtime/src/context-compaction.ts`, `enforceInputBudget`, and
`packages/runtime/src/index.ts`, `guardAssembledInput`).

The oldest items go, up to the first user message from which on the rest fits, or up to the last one
if it never does. The cut looks at sizes and user messages only: a call before it loses its result
behind it where a user message stands between the two.

The size of an item is a parameter.
-/
import OpenGeni.Runtime.HistoryPairing

namespace OpenGeni.Runtime

open OpenGeni.Lib

variable {T : Type*} (fields : T → JsValue) (estimateItemTokens : T → ℕ)

/-! ## The guard -/

def isUserMessage (item : JsValue) : Bool := itemType item == some "message" && item.id? "role" == some "user"

def estimateTokens (items : List T) : ℕ := (items.map estimateItemTokens).sum

def boundaries (items : List T) : List ℕ :=
  (List.range items.length).filter fun i => items[i]?.any fun item => isUserMessage (fields item)

def findKeepBoundary (items : List T) (keepRecentTokens : ℚ) : ℕ := ((boundaries fields items).find? fun boundary =>
    decide (estimateTokens estimateItemTokens (items.drop boundary) ≤ keepRecentTokens)).getD
      ((boundaries fields items).getLastD 0)

structure BudgetedInput (T : Type*) where
  items : List T
  trimmed : Bool
  droppedCount : ℕ
  estimatedTokens : ℚ

def enforceInputBudget (items : List T) (maxTokens trailingTokens : ℚ) : BudgetedInput T :=
  let total : ℚ := estimateTokens estimateItemTokens items + max 0 trailingTokens
  if items.length = 0 ∨ total ≤ maxTokens then ⟨items, false, 0, total⟩
  else
    let historyBudget := max 0 (maxTokens - max 0 trailingTokens)
    let boundary := findKeepBoundary fields estimateItemTokens items historyBudget
    if boundary ≤ 0 then ⟨items, false, 0, total⟩
    else
      let kept := items.drop boundary
      ⟨kept, true, boundary, estimateTokens estimateItemTokens kept + max 0 trailingTokens⟩

def guardAssembledInput (history : List T) (trailing : T) (inputBudgetTokens : Option ℚ) : List T :=
  match inputBudgetTokens with
  | none => history ++ [trailing]
  | some budget =>
    if budget ≤ 0 then history ++ [trailing]
    else
      (enforceInputBudget fields estimateItemTokens history budget (estimateItemTokens trailing)).items ++ [trailing]

/-! ## The cut -/

def StartsAt (items : List T) (i : ℕ) : Prop := ∃ item, items[i]? = some item ∧ isUserMessage (fields item) = true

def Fits (items : List T) (budget : ℚ) (i : ℕ) : Prop :=
  (estimateTokens estimateItemTokens (items.drop i) : ℚ) ≤ budget

/-- The longest part from a user message on that fits, or the one from the last user message on. -/
def Cut (items : List T) (budget : ℚ) (i : ℕ) : Prop := StartsAt fields items i ∧
    ((Fits estimateItemTokens items budget i ∧
        ∀ j, StartsAt fields items j → Fits estimateItemTokens items budget j → i ≤ j) ∨
      ((∀ j, StartsAt fields items j → ¬ Fits estimateItemTokens items budget j) ∧
        ∀ j, StartsAt fields items j → j ≤ i))

def remaining (items : List T) (maxTokens trailingTokens : ℚ) : Option ℚ :=
  if estimateTokens estimateItemTokens items + max 0 trailingTokens ≤ maxTokens then none
  else some (max 0 (maxTokens - max 0 trailingTokens))

/-- Where the part that is kept starts. Nothing is cut without a user message. -/
def KeepsFrom (items : List T) (budget : Option ℚ) (i : ℕ) : Prop := match budget with
  | none => i = 0
  | some budget => Cut fields estimateItemTokens items budget i ∨ (∀ j, ¬ StartsAt fields items j) ∧ i = 0

/-- A call before the place has its result behind it, and no call of the same id is between them. -/
def SplitsAt (items : List T) (i : ℕ) : Prop :=
  ∃ resultType callId, (∃ c ∈ items.take i, ToolCall (fields c) resultType callId) ∧
    ∃ pre r post, items.drop i = pre ++ r :: post ∧ ToolResult (fields r) resultType callId ∧
      ∀ c ∈ pre, ¬ ToolCall (fields c) resultType callId

def SplitsNone (items : List T) (budget : Option ℚ) : Prop :=
  ∀ i, KeepsFrom fields estimateItemTokens items budget i → ¬ SplitsAt fields items i

section

variable {fields estimateItemTokens} {items : List T} {budget : ℚ} {i j : ℕ}

theorem mem_boundaries : i ∈ boundaries fields items ↔ StartsAt fields items i := by
  rw [boundaries, List.mem_filter, List.mem_range, Option.any_eq_true_iff_get]
  constructor
  · rintro ⟨-, hsome, huser⟩
    exact ⟨_, (Option.some_get hsome).symm, huser⟩
  · rintro ⟨item, hitem, huser⟩
    refine ⟨(List.getElem?_eq_some_iff.1 hitem).1, by rw [hitem]; rfl, ?_⟩
    simpa only [hitem, Option.get_some] using huser

theorem boundaries_sorted (fields : T → JsValue) (items : List T) : (boundaries fields items).Pairwise (· < ·) :=
  List.pairwise_lt_range.filter _

/-- **The boundary is the cut**, where there is a user message. -/
theorem findKeepBoundary_spec (items : List T) (budget : ℚ) :
    Cut fields estimateItemTokens items budget (findKeepBoundary fields estimateItemTokens items budget) ∨
      (∀ j, ¬ StartsAt fields items j) ∧ findKeepBoundary fields estimateItemTokens items budget = 0 := by
  unfold findKeepBoundary
  cases hfind : (boundaries fields items).find? fun boundary =>
      decide (estimateTokens estimateItemTokens (items.drop boundary) ≤ budget) with
  | some boundary =>
    left
    obtain ⟨hfits, before, after, hsplit, hbefore⟩ := List.find?_eq_some_iff_append.1 hfind
    refine ⟨mem_boundaries.1 (by rw [hsplit]; simp), .inl ⟨by simpa [Fits] using hfits, ?_⟩⟩
    intro j hstart hfitsj
    have hmem := mem_boundaries.2 hstart
    have hsorted := boundaries_sorted fields items
    rw [hsplit] at hmem hsorted
    obtain hearlier | hlater := List.mem_append.1 hmem
    · -- an earlier boundary would have been found
      have hnot := hbefore j hearlier
      rw [Bool.not_eq_true', decide_eq_false_iff_not] at hnot
      exact absurd hfitsj hnot
    · obtain rfl | hlater := List.mem_cons.1 hlater
      · exact le_rfl
      · exact Nat.le_of_lt ((List.pairwise_cons.1 (List.pairwise_append.1 hsorted).2.1).1 j hlater)
  | none =>
    have hnone : ∀ j, StartsAt fields items j → ¬ Fits estimateItemTokens items budget j := by
      intro j hstart hfits
      have hnot := List.find?_eq_none.1 hfind j (mem_boundaries.2 hstart)
      exact hnot (decide_eq_true hfits)
    obtain hempty | ⟨before, last, hlast⟩ := List.eq_nil_or_concat (boundaries fields items)
    · refine .inr ⟨fun j hstart => ?_, by rw [hempty]; rfl⟩
      have hmem := mem_boundaries.2 hstart
      rw [hempty] at hmem
      exact absurd hmem List.not_mem_nil
    · left
      have hsorted := boundaries_sorted fields items
      rw [hlast, List.concat_eq_append] at hsorted
      rw [hlast, Option.getD_none, List.concat_eq_append, List.getLastD_concat]
      refine ⟨mem_boundaries.1 (by rw [hlast]; simp), .inr ⟨hnone, ?_⟩⟩
      intro j hstart
      have hmem := mem_boundaries.2 hstart
      rw [hlast, List.concat_eq_append] at hmem
      obtain hmem | hmem := List.mem_append.1 hmem
      · exact Nat.le_of_lt ((List.pairwise_append.1 hsorted).2.2 j hmem last List.mem_cons_self)
      · exact Nat.le_of_eq (List.mem_singleton.1 hmem)

theorem KeepsFrom.unique {budget : Option ℚ} (hi : KeepsFrom fields estimateItemTokens items budget i)
    (hj : KeepsFrom fields estimateItemTokens items budget j) : i = j := by
  cases budget with
  | none => exact Eq.trans hi (Eq.symm hj)
  | some budget =>
    obtain ⟨hi, hicut⟩ | ⟨hnone, rfl⟩ := hi
    · obtain ⟨hj, hjcut⟩ | ⟨hnone, -⟩ := hj
      · obtain ⟨hfits, hfirst⟩ | ⟨hnot, hlast⟩ := hicut
        · obtain ⟨hfits', hfirst'⟩ | ⟨hnot', -⟩ := hjcut
          · exact le_antisymm (hfirst j hj hfits') (hfirst' i hi hfits)
          · exact absurd hfits (hnot' i hi)
        · obtain ⟨hfits', -⟩ | ⟨-, hlast'⟩ := hjcut
          · exact absurd hfits' (hnot j hj)
          · exact le_antisymm (hlast' i hi) (hlast j hj)
      · exact absurd hi (hnone i)
    · obtain ⟨hj, -⟩ | ⟨-, rfl⟩ := hj
      · exact absurd hj (hnone j)
      · rfl

variable (fields estimateItemTokens) in
theorem enforceInputBudget_spec (items : List T) (maxTokens trailingTokens : ℚ) :
    ∃ i, (enforceInputBudget fields estimateItemTokens items maxTokens trailingTokens).items = items.drop i ∧
      KeepsFrom fields estimateItemTokens items (remaining estimateItemTokens items maxTokens trailingTokens) i := by
  unfold enforceInputBudget remaining
  dsimp only
  by_cases hfits : (estimateTokens estimateItemTokens items : ℚ) + max 0 trailingTokens ≤ maxTokens
  · rw [if_pos (.inr hfits), if_pos hfits]
    exact ⟨0, rfl, rfl⟩
  · rw [if_neg hfits]
    by_cases hempty : items.length = 0
    · rw [if_pos (.inl hempty)]
      refine ⟨0, rfl, .inr ⟨?_, rfl⟩⟩
      rintro j ⟨item, hitem, -⟩
      rw [List.length_eq_zero_iff.1 hempty] at hitem
      contradiction
    · rw [if_neg (not_or.2 ⟨hempty, hfits⟩)]
      refine ⟨_, ?_, findKeepBoundary_spec items _⟩
      split_ifs with hstart
      · rw [Nat.le_zero.1 hstart]
        rfl
      · rfl

/-! ## Pairs -/

theorem labelOf_message {item : T} (h : itemType (fields item) = some "message") : labelOf fields item = .plain := by
  have hnone : RESULT_TYPE_BY_CALL_TYPE "message" = none ∧ "message" ∉ RESULT_TYPES := by decide
  unfold labelOf itemLabel
  cases hcorr : correlated (fields item) with
  | none => simp [h]
  | some pair =>
    have htype : pair.1 = "message" := Option.some.inj ((correlated_type hcorr).symm.trans h)
    simp [htype, hnone, h]

theorem sanitize_drop_iff (hsanitized : sanitizeHistoryItemsForModel fields items = items) (i : ℕ) {tail : List T}
    (htail : ∀ item ∈ tail, itemType (fields item) = some "message") :
    sanitizeHistoryItemsForModel fields (items.drop i ++ tail) = items.drop i ++ tail ↔ ¬ SplitsAt fields items i := by
  have hplain : ∀ item ∈ tail, labelOf fields item = .plain := fun item hitem => labelOf_message (htail item hitem)
  rw [sanitize_eq_tidy, tidy_eq_self_iff] at hsanitized ⊢
  have hparts : items.take i ++ items.drop i = items := List.take_append_drop i items
  constructor
  · rintro h ⟨resultType, callId, -, pre, r, post, hdrop, hresult, hnone⟩
    have hcloses : labelOf fields r = .closes (.own resultType, callId) := toolResult_iff.2 ⟨_, _, rfl, hresult⟩
    obtain ⟨c, hc, hopens⟩ := (h _).2.asked pre r (post ++ tail) (by rw [hdrop, List.append_assoc]; rfl) hcloses
    exact hnone c hc (toolCall_iff.2 hopens)
  · intro hsplits k
    have hall := hsanitized k
    rw [← hparts] at hall
    have hasked : Asked (labelOf fields) k (items.drop i) := by
      intro pre r post hdrop hcloses
      by_contra hnone
      push Not at hnone
      obtain ⟨resultType, callId, rfl, hresult⟩ := toolResult_iff.1 hcloses
      obtain ⟨c, hc, hopens⟩ := hall.2.asked (items.take i ++ pre) r post (by rw [hdrop, List.append_assoc]) hcloses
      obtain hc | hc := List.mem_append.1 hc
      · exact hsplits ⟨resultType, callId, ⟨c, hc, toolCall_iff.2 hopens⟩, pre, r, post, hdrop, hresult,
          fun d hd hcall => hnone d hd (toolCall_iff.1 hcall)⟩
      · exact hnone c hc hopens
    exact ⟨hall.1.of_append.append_plain hplain, (hall.2.of_append hasked).append_plain hplain⟩

end

/-! ## The claim -/

/-- The history is cut where it should be, and sanitizing the output changes nothing. -/
def KeepsPairs (history : List T) (budget : Option ℚ) (tail output : List T) : Prop :=
  ∃ i, KeepsFrom fields estimateItemTokens history budget i ∧ output = history.drop i ++ tail ∧
    sanitizeHistoryItemsForModel fields output = output

theorem keepsPairs_iff {history : List T} (hsanitized : sanitizeHistoryItemsForModel fields history = history)
    {tail : List T} (htail : ∀ item ∈ tail, itemType (fields item) = some "message") {budget : Option ℚ} {i : ℕ}
    (hi : KeepsFrom fields estimateItemTokens history budget i) :
    KeepsPairs fields estimateItemTokens history budget tail (history.drop i ++ tail) ↔
      SplitsNone fields estimateItemTokens history budget := by
  constructor
  · rintro ⟨-, -, -, hsame⟩ j hj
    rw [hj.unique hi]
    exact (sanitize_drop_iff hsanitized i htail).1 hsame
  · intro h
    exact ⟨i, hi, rfl, (sanitize_drop_iff hsanitized i htail).2 (h i hi)⟩

/-- The budget that is left for the history, where it has to be cut. -/
def historyBudget (history : List T) (trailing : T) (inputBudgetTokens : Option ℚ) : Option ℚ :=
  (inputBudgetTokens.filter (0 < ·)).bind fun budget =>
    remaining estimateItemTokens history budget (estimateItemTokens trailing)

/-- **Where the guard keeps pairs.** The assembled input is the right part of the history with the
trailing message, and so is the input cut for a call, and sanitizing changes nothing, exactly if no
call before the cut has its result behind it. -/
theorem guard_keeps_pairs_iff (history : List T) (hsanitized : sanitizeHistoryItemsForModel fields history = history)
    (trailing : T) (htrailing : itemType (fields trailing) = some "message") (inputBudgetTokens : Option ℚ)
    (maxTokens : ℚ) :
    (KeepsPairs fields estimateItemTokens history (historyBudget estimateItemTokens history trailing inputBudgetTokens)
          [trailing] (guardAssembledInput fields estimateItemTokens history trailing inputBudgetTokens) ↔
        SplitsNone fields estimateItemTokens history
          (historyBudget estimateItemTokens history trailing inputBudgetTokens)) ∧
      (KeepsPairs fields estimateItemTokens history (remaining estimateItemTokens history maxTokens 0) []
          (enforceInputBudget fields estimateItemTokens history maxTokens 0).items ↔
        SplitsNone fields estimateItemTokens history (remaining estimateItemTokens history maxTokens 0)) := by
  have htail : ∀ item ∈ [trailing], itemType (fields item) = some "message" := List.forall_mem_singleton.2 htrailing
  constructor
  · have hguard : ∃ i, guardAssembledInput fields estimateItemTokens history trailing inputBudgetTokens
        = history.drop i ++ [trailing] ∧ KeepsFrom fields estimateItemTokens history
          (historyBudget estimateItemTokens history trailing inputBudgetTokens) i := by
      unfold guardAssembledInput historyBudget
      cases inputBudgetTokens with
      | none => exact ⟨0, rfl, rfl⟩
      | some budget =>
        by_cases hnone : budget ≤ 0
        · rw [Option.filter_some_neg (by simpa using hnone)]
          exact ⟨0, if_pos hnone, rfl⟩
        · rw [Option.filter_some_pos (by simpa using hnone)]
          obtain ⟨i, hitems, hkeeps⟩ :=
            enforceInputBudget_spec fields estimateItemTokens history budget (estimateItemTokens trailing)
          exact ⟨i, (if_neg hnone).trans (by rw [hitems]), hkeeps⟩
    obtain ⟨i, houtput, hi⟩ := hguard
    rw [houtput]
    exact keepsPairs_iff fields estimateItemTokens hsanitized htail hi
  · have hnone : ∀ item ∈ ([] : List T), itemType (fields item) = some "message" := fun _ h => absurd h List.not_mem_nil
    obtain ⟨i, hitems, hi⟩ := enforceInputBudget_spec fields estimateItemTokens history maxTokens 0
    rw [hitems, ← List.append_nil (history.drop i)]
    exact keepsPairs_iff fields estimateItemTokens hsanitized hnone hi

def interruptedItem (i : ℕ) : JsValue :=
  if i = 0 then .object [("type", .string "function_call"), ("callId", .string "call_1")]
  else if i = 2 then .object [("type", .string "function_call_result"), ("callId", .string "call_1")]
  else .object [("type", .string "message"), ("role", .string "user")]

theorem guard_keeps_pairs_alone :
    (KeepsPairs interruptedItem (fun _ => 1) [1] (historyBudget (fun _ => 1) [1] 1 none) [1]
          (guardAssembledInput interruptedItem (fun _ => 1) [1] 1 none) ↔
        SplitsNone interruptedItem (fun _ => 1) [1] (historyBudget (fun _ => 1) [1] 1 none)) ∧
      (KeepsPairs interruptedItem (fun _ => 1) [1] (remaining (fun _ => 1) [1] 1 0) []
          (enforceInputBudget interruptedItem (fun _ => 1) [1] 1 0).items ↔
        SplitsNone interruptedItem (fun _ => 1) [1] (remaining (fun _ => 1) [1] 1 0)) :=
  guard_keeps_pairs_iff interruptedItem (fun _ => 1) [1] (by decide +kernel) 1 (by decide) none 1

/-- Where the call does not fit any more, its result is sent without it. -/
theorem guard_splits_pair : ¬ ∀ (estimateItemTokens : ℕ → ℕ) (history : List ℕ) (trailing : ℕ) (budget : ℚ),
      sanitizeHistoryItemsForModel interruptedItem history = history →
        itemType (interruptedItem trailing) = some "message" → sanitizeHistoryItemsForModel interruptedItem
              (guardAssembledInput interruptedItem estimateItemTokens history trailing (some budget))
            = guardAssembledInput interruptedItem estimateItemTokens history trailing (some budget) := by
  intro h
  exact absurd (h (fun _ => 1) [0, 1, 2] 3 3 (by decide +kernel) (by decide)) (by decide +kernel)

end OpenGeni.Runtime
