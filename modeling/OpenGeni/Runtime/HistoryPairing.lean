/-
What the sanitizer makes of a history.

The three passes are one sifting (`sanitize_eq_tidy`): a call opens the key of its result
type and id, a result closes it, a reasoning item leads. So the output is a projection in
which every result stands behind its call, always. Calls are another matter. The backward
walk drops one call for each id that still waits, and where an id waits because it was
called twice, the other call stays, without a result.
-/
import OpenGeni.Runtime.HistorySanitizer

namespace OpenGeni.Runtime

open OpenGeni.Lib

/-! ## The labels of items -/

def itemLabel (item : JsValue) : Label (Property × String) := match correlated item with
  | none => if itemType item = some "reasoning" then .leads else .plain
  | some (type, callId) =>
    match RESULT_TYPE_BY_CALL_TYPE type with
    | some resultType => .opens (resultType, callId)
    | none =>
      if type ∈ RESULT_TYPES then .closes (.own type, callId)
      else if itemType item = some "reasoning" then .leads else .plain

variable {item : JsValue} {k : Property × String} {index : ℕ} {s : Sanitizer}

theorem correlated_type {type callId : String} (h : correlated item = some (type, callId)) :
    itemType item = some type := by
  unfold correlated at h
  split at h
  · next type' callId' htype hid =>
      split_ifs at h
      cases h
      exact htype
  · simp at h

theorem itemLabel_leads_iff : itemLabel item = .leads ↔ itemType item = some "reasoning" := by
  unfold itemLabel
  cases hcorr : correlated item with
  | none =>
    split_ifs with hreasoning
    · simp [hreasoning]
    · simp [hreasoning]
  | some tc =>
    obtain ⟨type, callId⟩ := tc
    have htype := correlated_type hcorr
    dsimp only
    by_cases hreasoning : type = "reasoning"
    · subst hreasoning
      have hno : RESULT_TYPE_BY_CALL_TYPE "reasoning" = none := by decide
      have hno' : "reasoning" ∉ RESULT_TYPES := by decide
      simp [hno, hno']
    · cases RESULT_TYPE_BY_CALL_TYPE type with
      | some resultType => simp [htype, hreasoning]
      | none =>
        split_ifs with hresult
        · simp [htype, hreasoning]
        · simp_all
        · simp_all

def Sanitizer.scan (label : Label (Property × String)) (index : ℕ) (s : Sanitizer) : Sanitizer := match label with
  | .opens k => { s with openCallIds := insert k s.openCallIds }
  | .closes k =>
    if k ∈ s.openCallIds then { s with openCallIds := s.openCallIds.erase k }
    else { s with dropped := insert index s.dropped }
  | _ => s

theorem scanItem_eq : scanItem item index s = s.scan (itemLabel item) index := by
  unfold scanItem itemLabel
  cases correlated item with
  | none =>
    split_ifs <;> rfl
  | some tc =>
    dsimp only
    cases RESULT_TYPE_BY_CALL_TYPE tc.1 with
    | some resultType => rfl
    | none =>
      by_cases hresult : tc.1 ∈ RESULT_TYPES
      · rw [if_pos hresult, if_pos hresult]
        rfl
      · rw [if_neg hresult, if_neg hresult]
        split_ifs <;> rfl

def Sanitizer.rewalk (label : Label (Property × String)) (index : ℕ) (s : Sanitizer) : Sanitizer :=
  match label with
  | .opens k =>
    if k ∈ s.openCallIds then
      { openCallIds := s.openCallIds.erase k, dropped := insert index s.dropped }
    else s
  | _ => s

theorem rewalkItem_eq : rewalkItem item index s = s.rewalk (itemLabel item) index := by
  unfold rewalkItem itemLabel
  cases correlated item with
  | none =>
    split_ifs <;> rfl
  | some tc =>
    dsimp only
    cases RESULT_TYPE_BY_CALL_TYPE tc.1 with
    | some resultType => rfl
    | none =>
      split_ifs <;> rfl

/-! ## The passes -/

section Passes

variable {T : Type*} {fields : T → JsValue} {items pre post : List T} {i n : ℕ}

def labelOf (fields : T → JsValue) (item : T) : Label (Property × String) := itemLabel (fields item)

theorem scan_concat (a : T) : scan fields (items ++ [a])
    = (scan fields items).scan (labelOf fields a) items.length := by
  unfold scan
  rw [List.zipIdx_append, List.foldl_append, Nat.zero_add]
  exact scanItem_eq

theorem rewalk_cons (a : T) : rewalk fields (a :: items) n s
    = (rewalk fields items (n + 1) s).rewalk (labelOf fields a) n := by
  unfold rewalk
  rw [List.zipIdx_cons, List.foldr_cons]
  exact rewalkItem_eq

theorem scan_spec (fields : T → JsValue) (items : List T) :
    (scan fields items).openCallIds = waiting (labelOf fields) items ∧ ∀ i, i ∈ (scan fields items).dropped ↔
        AtPlace (fun pre r _ => ∃ k, labelOf fields r = .closes k ∧ k ∉ waiting (labelOf fields) pre) items i := by
  -- Induction from the right: the last item is scanned last.
  induction items using List.reverseRecOn with
  | nil => exact ⟨rfl, fun i => iff_of_false (Finset.notMem_empty i) not_atPlace_nil⟩
  | append_singleton items a ih =>
    obtain ⟨hopen, hdropped⟩ := ih
    rw [scan_concat, waiting_concat]
    simp only [atPlace_concat]
    cases hlabel : labelOf fields a with
    | opens k =>
      refine ⟨by simp [Sanitizer.scan, Label.serve, hopen], fun i => ?_⟩
      simp [Sanitizer.scan, hdropped]
    | closes k =>
      by_cases hwaits : k ∈ waiting (labelOf fields) items
      · refine ⟨by simp [Sanitizer.scan, Label.serve, hopen, hwaits], fun i => ?_⟩
        simp [Sanitizer.scan, hdropped, hopen, hwaits]
      · refine ⟨by simp [Sanitizer.scan, Label.serve, hopen, hwaits], fun i => ?_⟩
        simp [Sanitizer.scan, hdropped, hopen, hwaits, or_comm]
    | leads | plain => exact ⟨hopen, fun i => by simp [Sanitizer.scan, hdropped]⟩

theorem rewalk_spec (fields : T → JsValue) (items : List T) (n : ℕ) (s : Sanitizer) :
    (∀ k, k ∈ (rewalk fields items n s).openCallIds ↔
        k ∈ s.openCallIds ∧ ∀ b ∈ items, labelOf fields b ≠ .opens k) ∧
      ∀ i, i ∈ (rewalk fields items n s).dropped ↔
        i ∈ s.dropped ∨ ∃ j, i = n + j ∧ AtPlace (fun _ c post => ∃ k, labelOf fields c = .opens k ∧
          k ∈ s.openCallIds ∧ ∀ b ∈ post, labelOf fields b ≠ .opens k) items j := by
  induction items generalizing n with
  | nil =>
    refine ⟨fun k => by simp [rewalk], fun i => ?_⟩
    simp [rewalk, not_atPlace_nil]
  | cons a items ih =>
    obtain ⟨hopen, hdropped⟩ := ih (n + 1)
    -- The places from here on: this one, or one further on, counted from the next.
    have hplaces : ∀ i, (∃ j, i = n + j ∧ AtPlace (fun _ c post => ∃ k,
          labelOf fields c = .opens k ∧ k ∈ s.openCallIds ∧
          ∀ b ∈ post, labelOf fields b ≠ .opens k) (a :: items) j) ↔
        (i = n ∧ ∃ k, labelOf fields a = .opens k ∧ k ∈ (rewalk fields items (n + 1) s).openCallIds) ∨
        ∃ j, i = n + 1 + j ∧ AtPlace (fun _ c post => ∃ k, labelOf fields c = .opens k ∧
          k ∈ s.openCallIds ∧ ∀ b ∈ post, labelOf fields b ≠ .opens k) items j := by
      intro i
      simp only [atPlace_cons, hopen]
      constructor
      · rintro ⟨j, rfl, ⟨rfl, hhere⟩ | ⟨j', rfl, hplace⟩⟩
        · exact Or.inl ⟨rfl, hhere⟩
        · exact Or.inr ⟨j', by omega, hplace⟩
      · rintro (⟨rfl, hhere⟩ | ⟨j, rfl, hplace⟩)
        · exact ⟨0, rfl, Or.inl ⟨rfl, hhere⟩⟩
        · exact ⟨j + 1, by omega, Or.inr ⟨j, rfl, hplace⟩⟩
    simp only [hplaces]
    rw [rewalk_cons]
    revert hopen hdropped
    generalize rewalk fields items (n + 1) s = t
    intro hopen hdropped
    cases hlabel : labelOf fields a with
    | opens k =>
      by_cases hwaits : k ∈ t.openCallIds
      · have hhit : t.rewalk (.opens k) n = ⟨t.openCallIds.erase k, insert n t.dropped⟩ :=
          if_pos hwaits
        rw [hhit]
        constructor
        · intro k'
          simp only [Finset.mem_erase, hopen, List.forall_mem_cons, hlabel, ne_eq,
            Label.opens.injEq]
          constructor
          · rintro ⟨hne, hmem, hnone⟩
            exact ⟨hmem, fun heq => hne heq.symm, hnone⟩
          · rintro ⟨hmem, hne, hnone⟩
            exact ⟨fun heq => hne heq.symm, hmem, hnone⟩
        · intro i
          simp only [Finset.mem_insert, hdropped, Label.opens.injEq, exists_eq_left']
          tauto
      · have hmiss : t.rewalk (.opens k) n = t := if_neg hwaits
        rw [hmiss]
        constructor
        · intro k'
          simp only [hopen, List.forall_mem_cons, hlabel, ne_eq, Label.opens.injEq]
          constructor
          · rintro ⟨hmem, hnone⟩
            refine ⟨hmem, ?_, hnone⟩
            rintro rfl
            exact hwaits ((hopen k).2 ⟨hmem, hnone⟩)
          · rintro ⟨hmem, -, hnone⟩
            exact ⟨hmem, hnone⟩
        · intro i
          simp only [hdropped, Label.opens.injEq, exists_eq_left', hwaits, and_false, false_or]
    | _ => exact ⟨fun k' => by simp [Sanitizer.rewalk, hopen, hlabel],
        fun i => by simp [Sanitizer.rewalk, hdropped]⟩

theorem unpaired_spec (fields : T → JsValue) (items : List T) (i : ℕ) :
    i ∈ (rewalk fields items 0 (scan fields items)).dropped ↔
      AtPlace (fun pre a post => unpaired (labelOf fields) pre a post = true) items i := by
  obtain ⟨hopen, hscan⟩ := scan_spec fields items
  rw [(rewalk_spec fields items 0 (scan fields items)).2 i, hscan, hopen]
  simp only [Nat.zero_add, exists_eq_left']
  constructor
  · rintro (⟨pre, r, post, rfl, rfl, k, hr, hnot⟩ | ⟨pre, c, post, rfl, rfl, k, hc, hwaits, hlast⟩)
    · exact atPlace_split.2 ((unpaired_closes hr).2 hnot)
    · rw [atPlace_split, unpaired_opens hc]
      intro b hb
      exact ⟨hlast b hb, (mem_waiting_split hc hlast).1 hwaits b hb⟩
  · rintro ⟨pre, a, post, rfl, rfl, hun⟩
    cases hlabel : labelOf fields a with
    | opens k =>
      have hnone := (unpaired_opens hlabel).1 hun
      have hlast : ∀ b ∈ post, labelOf fields b ≠ .opens k := fun b hb => (hnone b hb).1
      right
      rw [atPlace_split]
      exact ⟨k, hlabel, (mem_waiting_split hlabel hlast).2 fun b hb => (hnone b hb).2, hlast⟩
    | closes k =>
      left
      rw [atPlace_split]
      exact ⟨k, hlabel, (unpaired_closes hlabel).1 hun⟩
    | leads | plain => simp [unpaired, hlabel] at hun

theorem nextItem_eq_some_iff {next : ℕ} : nextItem fields (items.zipIdx n) = some next ↔
    ∃ m b post, items = m ++ b :: post ∧ (∀ d ∈ m, labelOf fields d = .leads) ∧
      labelOf fields b ≠ .leads ∧ n + m.length = next := by
  induction items generalizing n with
  | nil => simp [nextItem]
  | cons a items ih =>
    rw [List.zipIdx_cons, nextItem]
    have hlabel : labelOf fields a = .leads ↔ itemType (fields a) = some "reasoning" := itemLabel_leads_iff
    split_ifs with hreasoning
    · rw [ih]
      constructor
      · rintro ⟨m, b, post, rfl, hm, hb, rfl⟩
        refine ⟨a :: m, b, post, rfl, ?_, hb, ?_⟩
        · exact List.forall_mem_cons.2 ⟨hlabel.2 hreasoning, hm⟩
        · rw [List.length_cons]
          omega
      · rintro ⟨m, b, post, hitems, hm, hb, rfl⟩
        cases m with
        | nil =>
          obtain ⟨rfl, rfl⟩ := List.cons_eq_cons.1 hitems
          exact absurd (hlabel.2 hreasoning) hb
        | cons d m =>
          obtain ⟨rfl, rfl⟩ := List.cons_eq_cons.1 hitems
          refine ⟨m, b, post, rfl, (List.forall_mem_cons.1 hm).2, hb, ?_⟩
          rw [List.length_cons]
          omega
    · constructor
      · intro hnext
        cases hnext
        exact ⟨[], a, items, rfl, by simp, fun h => hreasoning (hlabel.1 h), rfl⟩
      · rintro ⟨m, b, post, hitems, hm, hb, rfl⟩
        cases m with
        | nil => rfl
        | cons d m =>
          obtain ⟨rfl, -⟩ := List.cons_eq_cons.1 hitems
          exact absurd (hlabel.1 (hm a List.mem_cons_self)) hreasoning

theorem drop_zipIdx {a : T} (h : items = pre ++ a :: post) :
    items.zipIdx.drop (pre.length + 1) = post.zipIdx (pre.length + 1) := by
  have hlen : pre.length + 1 = (pre.zipIdx ++ [(a, pre.length)]).length := by simp
  have hzip : items.zipIdx = (pre.zipIdx ++ [(a, pre.length)]) ++ post.zipIdx (pre.length + 1) := by
    rw [h, List.zipIdx_append, Nat.zero_add, List.zipIdx_cons, List.append_assoc]
    rfl
  rw [hzip, hlen, List.drop_left]

def LeadsTo (fields : T → JsValue) (dropped : Finset ℕ) (pre : List T) (a : T) (post : List T) : Prop :=
  labelOf fields a = .leads ∧ ∃ m b post', post = m ++ b :: post' ∧
    (∀ d ∈ m, labelOf fields d = .leads) ∧ labelOf fields b ≠ .leads ∧
    pre.length + 1 + m.length ∈ dropped

theorem strand_spec {dropped : Finset ℕ}
    (hplain : ∀ i ∈ dropped, AtPlace (fun _ a _ => labelOf fields a ≠ .leads) items i) :
    i ∈ strand fields items dropped ↔ i ∈ dropped ∨ AtPlace (LeadsTo fields dropped) items i := by
  -- What has been added after a part of the items.
  have hpart : ∀ (done rest : List T), items = done ++ rest → ∀ i,
      i ∈ done.zipIdx.foldl (fun d x => strandItem fields items d x.1 x.2) dropped ↔
        i ∈ dropped ∨ i < done.length ∧ AtPlace (LeadsTo fields dropped) items i := by
    intro done
    induction done using List.reverseRecOn with
    | nil => simp
    | append_singleton done a ih =>
      intro rest hitems i
      have hsplit : items = done ++ a :: rest := by simpa using hitems
      have hbefore := ih (a :: rest) hsplit
      rw [List.zipIdx_append, List.foldl_append, Nat.zero_add]
      generalize done.zipIdx.foldl (fun d x => strandItem fields items d x.1 x.2) dropped = d at hbefore
      show i ∈ strandItem fields items d a done.length ↔ _
      -- What has been added so far is reasoning, so no item leads to it.
      have hnext : ∀ next, nextItem fields (items.zipIdx.drop (done.length + 1)) = some next →
          (next ∈ d ↔ next ∈ dropped) := by
        intro next hsome
        rw [hbefore, or_iff_left]
        rintro ⟨-, hleads⟩
        rw [drop_zipIdx hsplit, nextItem_eq_some_iff] at hsome
        obtain ⟨m, b, post, rfl, -, hb, rfl⟩ := hsome
        have hitems' : items = (done ++ a :: m) ++ b :: post := by simp [hsplit]
        have hlen : done.length + 1 + m.length = (done ++ a :: m).length := by
          rw [List.length_append, List.length_cons]
          omega
        rw [hitems', hlen, atPlace_split] at hleads
        exact hb hleads.1
      have hhere : AtPlace (LeadsTo fields dropped) items done.length ↔ labelOf fields a = .leads ∧ ∃ next,
            nextItem fields (items.zipIdx.drop (done.length + 1)) = some next ∧ next ∈ d := by
        rw [hsplit, atPlace_split, ← hsplit]
        refine and_congr_right fun _ => ?_
        constructor
        · rintro ⟨m, b, post, hrest, hm, hb, hmem⟩
          have hsome : nextItem fields (items.zipIdx.drop (done.length + 1))
              = some (done.length + 1 + m.length) := by
            rw [drop_zipIdx hsplit]
            exact nextItem_eq_some_iff.2 ⟨m, b, post, hrest, hm, hb, rfl⟩
          exact ⟨_, hsome, (hnext _ hsome).2 hmem⟩
        · rintro ⟨next, hsome, hmem⟩
          have hmem' := (hnext next hsome).1 hmem
          rw [drop_zipIdx hsplit, nextItem_eq_some_iff] at hsome
          obtain ⟨m, b, post, hrest, hm, hb, rfl⟩ := hsome
          exact ⟨m, b, post, hrest, hm, hb, hmem'⟩
      have hadds : i ∈ strandItem fields items d a done.length ↔
          i ∈ d ∨ i = done.length ∧ AtPlace (LeadsTo fields dropped) items done.length := by
        have hlabel : labelOf fields a = .leads ↔ itemType (fields a) = some "reasoning" := itemLabel_leads_iff
        rw [hhere, hlabel]
        unfold strandItem
        split_ifs with hskip
        · rcases hskip with hin | hplain
          · rw [or_iff_left_of_imp]
            rintro ⟨rfl, -⟩
            exact hin
          · simp [hplain]
        · rw [not_or, not_not] at hskip
          cases nextItem fields (items.zipIdx.drop (done.length + 1)) with
          | none => simp
          | some next =>
            dsimp only
            split_ifs with hmem
            · simp [hskip.2, hmem, or_comm]
            · simp [hmem]
      rw [hadds, hbefore, List.length_append, List.length_singleton, or_assoc]
      refine or_congr_right ?_
      constructor
      · rintro (⟨hlt, hplace⟩ | ⟨rfl, hplace⟩)
        · exact ⟨by omega, hplace⟩
        · exact ⟨by omega, hplace⟩
      · rintro ⟨hlt, hplace⟩
        rcases Nat.lt_succ_iff_lt_or_eq.1 hlt with hlt | rfl
        · exact Or.inl ⟨hlt, hplace⟩
        · exact Or.inr ⟨rfl, hplace⟩
  rw [strand, hpart items [] (by simp)]
  refine or_congr_right (and_iff_right_of_imp ?_)
  rintro ⟨pre, a, post, rfl, rfl, -⟩
  simp

/-- **What the passes drop.** -/
theorem dropped_spec (fields : T → JsValue) (items : List T) (i : ℕ) : i ∈ droppedIndices fields items ↔
      AtPlace (fun pre a post => isDropped (labelOf fields) pre a post = true) items i := by
  have hunpaired := unpaired_spec fields items
  unfold droppedIndices
  revert hunpaired
  generalize (rewalk fields items 0 (scan fields items)).dropped = dropped
  intro hunpaired
  have hplain : ∀ i ∈ dropped, AtPlace (fun _ a _ => labelOf fields a ≠ .leads) items i := by
    intro i hi
    obtain ⟨pre, a, post, rfl, rfl, hun⟩ := (hunpaired i).1 hi
    rw [atPlace_split]
    intro hleads
    simp [unpaired, hleads] at hun
  -- Without a dropped item there is nothing to lead to.
  have hstrand : (if dropped = ∅ then ∅ else strand fields items dropped) = strand fields items dropped := by
    split_ifs with hempty
    · symm
      rw [Finset.eq_empty_iff_forall_notMem]
      intro i hi
      rw [strand_spec hplain, hempty] at hi
      obtain hi | ⟨pre, a, post, -, -, -, m, b, post', -, -, -, hmem⟩ := hi
      · simp at hi
      · simp at hmem
    · rfl
  rw [hstrand, strand_spec hplain, hunpaired]
  have hleads : ∀ pre a post, items = pre ++ a :: post → (LeadsTo fields dropped pre a post ↔
      labelOf fields a = .leads ∧ strands (labelOf fields) (pre ++ [a]) post = true) := by
    intro pre a post hitems
    refine and_congr_right fun _ => ?_
    rw [strands_iff]
    constructor
    · rintro ⟨m, b, post', rfl, hm, hb, hmem⟩
      refine ⟨m, b, post', rfl, hm, hb, ?_⟩
      have hsplit : items = (pre ++ [a] ++ m) ++ b :: post' := by simp [hitems]
      have hlen : pre.length + 1 + m.length = (pre ++ [a] ++ m).length := by
        rw [List.length_append, List.length_append, List.length_singleton]
      rwa [hunpaired, hlen, hsplit, atPlace_split] at hmem
    · rintro ⟨m, b, post', rfl, hm, hb, hun⟩
      refine ⟨m, b, post', rfl, hm, hb, ?_⟩
      have hsplit : items = (pre ++ [a] ++ m) ++ b :: post' := by simp [hitems]
      have hlen : pre.length + 1 + m.length = (pre ++ [a] ++ m).length := by
        rw [List.length_append, List.length_append, List.length_singleton]
      rwa [hunpaired, hlen, hsplit, atPlace_split]
  constructor
  · rintro (⟨pre, a, post, hitems, rfl, hun⟩ | ⟨pre, a, post, hitems, rfl, hlead⟩)
    · have hlabel : labelOf fields a ≠ .leads := by
        intro hleads
        simp [unpaired, hleads] at hun
      have hdropped : isDropped (labelOf fields) pre a post = true := by
        rw [isDropped_of_ne_leads hlabel]
        exact hun
      exact ⟨pre, a, post, hitems, rfl, hdropped⟩
    · obtain ⟨hlabel, hstrands⟩ := (hleads pre a post hitems).1 hlead
      have hdropped : isDropped (labelOf fields) pre a post = true := by
        unfold isDropped
        rw [hlabel]
        exact hstrands
      exact ⟨pre, a, post, hitems, rfl, hdropped⟩
  · rintro ⟨pre, a, post, hitems, rfl, hplace⟩
    have hdropped : isDropped (labelOf fields) pre a post = true := hplace
    by_cases hlabel : labelOf fields a = .leads
    · right
      refine ⟨pre, a, post, hitems, rfl, (hleads pre a post hitems).2 ⟨hlabel, ?_⟩⟩
      unfold isDropped at hdropped
      rwa [hlabel] at hdropped
    · left
      rw [isDropped_of_ne_leads hlabel] at hdropped
      exact ⟨pre, a, post, hitems, rfl, hdropped⟩

theorem sanitize_eq_filter (fields : T → JsValue) (items : List T) : sanitizeHistoryItemsForModel fields items
      = (items.zipIdx.filter fun x => decide (x.2 ∉ droppedIndices fields items)).map Prod.fst := by
  unfold sanitizeHistoryItemsForModel
  split_ifs with hempty hnone
  · rw [List.isEmpty_iff.1 hempty]
    rfl
  · rw [hnone]
    simp
  · rfl

/-- **The sanitizer tidies.** -/
theorem sanitize_eq_tidy (fields : T → JsValue) (items : List T) :
    sanitizeHistoryItemsForModel fields items = tidy (labelOf fields) items := by
  rw [sanitize_eq_filter]
  calc (items.zipIdx.filter fun x => decide (x.2 ∉ droppedIndices fields items)).map Prod.fst
      = sift (fun pre _ _ => decide (pre.length ∉ droppedIndices fields items)) items :=
        filter_zipIdx_eq_sift (f := fun i => decide (i ∉ droppedIndices fields items))
    _ = tidy (labelOf fields) items := by
        apply sift_congr
        intro pre a post hitems
        have hplace : pre.length ∈ droppedIndices fields items ↔ isDropped (labelOf fields) pre a post = true := by
          rw [dropped_spec, hitems, atPlace_split]
        cases hdropped : isDropped (labelOf fields) pre a post with
        | false | true => simp [hplace, hdropped]

end Passes

/-! ## Valid histories -/

/-- A tool call with an id, and the type of the result that settles it. -/
def ToolCall (item : JsValue) (resultType callId : String) : Prop := ∃ type, itemType item = some type ∧
    TOOL_CALL_RESULT_TYPE_BY_CALL_TYPE.lookup type = some resultType ∧ callIdOf item = some callId

def ToolResult (item : JsValue) (resultType callId : String) : Prop :=
  itemType item = some resultType ∧ resultType ∈ RESULT_TYPES ∧ callIdOf item = some callId

variable {T : Type*}

structure Valid (fields : T → JsValue) (items : List T) : Prop where
  calls : ∀ pre c post, items = pre ++ c :: post → ∀ resultType callId,
    ToolCall (fields c) resultType callId → ∃ r ∈ post, ToolResult (fields r) resultType callId
  results : ∀ pre r post, items = pre ++ r :: post → ∀ resultType callId,
    ToolResult (fields r) resultType callId → ∃ c ∈ pre, ToolCall (fields c) resultType callId

structure Sanitary (fields : T → JsValue) (items : List T) : Prop where
  /-- The output is the input without the dropped items. -/
  projection : sanitizeHistoryItemsForModel fields items
    = (items.zipIdx.filter fun x => decide (x.2 ∉ droppedIndices fields items)).map Prod.fst
  sublist : (sanitizeHistoryItemsForModel fields items).Sublist items
  valid : Valid fields (sanitizeHistoryItemsForModel fields items)
  /-- A reasoning item is dropped with the next item that is no reasoning. -/
  reasoning : ∀ pre a m b post, items = pre ++ a :: (m ++ b :: post) →
    (∀ d ∈ a :: m, itemType (fields d) = some "reasoning") →
    itemType (fields b) ≠ some "reasoning" →
    pre.length + 1 + m.length ∈ droppedIndices fields items → pre.length ∈ droppedIndices fields items
  identity : Valid fields items → sanitizeHistoryItemsForModel fields items = items
  idempotent : sanitizeHistoryItemsForModel fields (sanitizeHistoryItemsForModel fields items)
    = sanitizeHistoryItemsForModel fields items

/-- The condition: no call without a result behind it is made again; and where the history
is valid, every result is the first to answer a call, and no item with an id has the name
of an inherited property for its type. -/
structure Unambiguous (fields : T → JsValue) (items : List T) : Prop where
  unrepeated : ∀ k, Unrepeated (labelOf fields) k items
  once : Valid fields items → ∀ k, Fresh (labelOf fields) k items
  own : Valid fields items → ∀ item ∈ items, ∀ type callId,
    correlated (fields item) = some (type, callId) → type ∉ objectPrototypeNames

section Claim

variable {fields : T → JsValue} {items : List T} {item : JsValue} {resultType callId : String}

variable {type : String}

theorem RESULT_TYPE_BY_CALL_TYPE_eq_own_iff : RESULT_TYPE_BY_CALL_TYPE type = some (.own resultType) ↔
      TOOL_CALL_RESULT_TYPE_BY_CALL_TYPE.lookup type = some resultType := by
  unfold RESULT_TYPE_BY_CALL_TYPE
  cases hlookup : TOOL_CALL_RESULT_TYPE_BY_CALL_TYPE.lookup type with
  | some resultType' => simp
  | none =>
    split_ifs
    · simp
    · simp

theorem RESULT_TYPE_BY_CALL_TYPE_result : ∀ type ∈ RESULT_TYPES, RESULT_TYPE_BY_CALL_TYPE type = none := by
  decide

theorem correlated_eq_some (htype : itemType item = some type) (hid : callIdOf item = some callId)
    (hne : type ≠ "") : correlated item = some (type, callId) := by
  unfold correlated
  rw [htype, hid]
  exact if_neg hne

theorem correlated_callIdOf (h : correlated item = some (type, callId)) : callIdOf item = some callId := by
  unfold correlated at h
  split at h
  · next type' callId' htype hid =>
      split_ifs at h
      cases h
      exact hid
  · simp at h

theorem toolCall_iff : ToolCall item resultType callId ↔ itemLabel item = .opens (.own resultType, callId) := by
  constructor
  · rintro ⟨type, htype, hlookup, hid⟩
    have hne : type ≠ "" := by
      rintro rfl
      simp [TOOL_CALL_RESULT_TYPE_BY_CALL_TYPE, List.lookup] at hlookup
    unfold itemLabel
    rw [correlated_eq_some htype hid hne]
    dsimp only
    rw [RESULT_TYPE_BY_CALL_TYPE_eq_own_iff.2 hlookup]
  · intro hlabel
    unfold itemLabel at hlabel
    split at hlabel
    · split_ifs at hlabel
    · next type callId' hcorr =>
        split at hlabel
        · next found hfound =>
            obtain ⟨rfl, rfl⟩ := Prod.mk.inj (Label.opens.inj hlabel)
            exact ⟨type, correlated_type hcorr, RESULT_TYPE_BY_CALL_TYPE_eq_own_iff.1 hfound,
              correlated_callIdOf hcorr⟩
        · split_ifs at hlabel

theorem toolResult_iff {k : Property × String} : itemLabel item = .closes k ↔
    ∃ resultType callId, k = (.own resultType, callId) ∧ ToolResult item resultType callId := by
  constructor
  · intro hlabel
    unfold itemLabel at hlabel
    split at hlabel
    · split_ifs at hlabel
    · next type callId hcorr =>
        split at hlabel
        · simp at hlabel
        · split_ifs at hlabel with hresult
          obtain rfl := Label.closes.inj hlabel
          exact ⟨type, callId, rfl, correlated_type hcorr, hresult, correlated_callIdOf hcorr⟩
  · rintro ⟨type, callId, rfl, htype, hresult, hid⟩
    have hne : type ≠ "" := by
      rintro rfl
      revert hresult
      decide
    unfold itemLabel
    rw [correlated_eq_some htype hid hne]
    dsimp only
    rw [RESULT_TYPE_BY_CALL_TYPE_result type hresult]
    exact if_pos hresult

theorem inherited_iff {name : String} : itemLabel item = .opens (.inherited name, callId) ↔
    correlated item = some (name, callId) ∧ name ∈ objectPrototypeNames := by
  have hinherited : ∀ type, RESULT_TYPE_BY_CALL_TYPE type = some (.inherited name) ↔
      type = name ∧ name ∈ objectPrototypeNames := by
    intro type
    unfold RESULT_TYPE_BY_CALL_TYPE
    constructor
    · intro h
      split at h
      · simp at h
      · split_ifs at h with hname
        obtain rfl := Property.inherited.inj (Option.some.inj h)
        exact ⟨rfl, hname⟩
    · rintro ⟨rfl, hname⟩
      -- None of the names is a key of the table.
      have hlookup : ∀ name ∈ objectPrototypeNames,
          TOOL_CALL_RESULT_TYPE_BY_CALL_TYPE.lookup name = none := by decide
      rw [hlookup type hname]
      exact if_pos hname
  unfold itemLabel
  constructor
  · intro hlabel
    split at hlabel
    · split_ifs at hlabel
    · next type callId' hcorr =>
        split at hlabel
        · next found hfound =>
            obtain ⟨rfl, rfl⟩ := Prod.mk.inj (Label.opens.inj hlabel)
            obtain ⟨rfl, hname⟩ := (hinherited type).1 hfound
            exact ⟨hcorr, hname⟩
        · split_ifs at hlabel
  · rintro ⟨hcorr, hname⟩
    rw [hcorr]
    dsimp only
    rw [(hinherited name).2 ⟨rfl, hname⟩]

theorem valid_iff : Valid fields items ↔
    (∀ resultType callId, Answered (labelOf fields) (.own resultType, callId) items) ∧
      ∀ k, Asked (labelOf fields) k items := by
  constructor
  · intro h
    constructor
    · intro resultType callId pre c post hitems hc
      obtain ⟨r, hr, hresult⟩ := h.calls pre c post hitems resultType callId (toolCall_iff.2 hc)
      exact ⟨r, hr, toolResult_iff.2 ⟨resultType, callId, rfl, hresult⟩⟩
    · intro k pre r post hitems hr
      obtain ⟨resultType, callId, rfl, hresult⟩ := toolResult_iff.1 hr
      obtain ⟨c, hc, hcall⟩ := h.results pre r post hitems resultType callId hresult
      exact ⟨c, hc, toolCall_iff.1 hcall⟩
  · rintro ⟨hcalls, hresults⟩
    constructor
    · intro pre c post hitems resultType callId hcall
      obtain ⟨r, hr, hcloses⟩ := hcalls resultType callId pre c post hitems (toolCall_iff.1 hcall)
      obtain ⟨resultType', callId', hkey, hresult⟩ := toolResult_iff.1 hcloses
      obtain ⟨hown, rfl⟩ := Prod.mk.inj hkey
      obtain rfl := Property.own.inj hown
      exact ⟨r, hr, hresult⟩
    · intro pre r post hitems resultType callId hresult
      have hcloses := toolResult_iff.2 ⟨resultType, callId, rfl, hresult⟩
      obtain ⟨c, hc, hopens⟩ := hresults _ pre r post hitems hcloses
      exact ⟨c, hc, toolCall_iff.2 hopens⟩

theorem reasoning_dropped {pre m post : List T} {a b : T} (hitems : items = pre ++ a :: (m ++ b :: post))
    (hreasoning : ∀ d ∈ a :: m, itemType (fields d) = some "reasoning")
    (hb : itemType (fields b) ≠ some "reasoning")
    (hdropped : pre.length + 1 + m.length ∈ droppedIndices fields items) :
    pre.length ∈ droppedIndices fields items := by
  have hleads : ∀ d ∈ a :: m, labelOf fields d = .leads := fun d hd => itemLabel_leads_iff.2 (hreasoning d hd)
  have hb' : labelOf fields b ≠ .leads := fun h => hb (itemLabel_leads_iff.1 h)
  have hsplit : items = (pre ++ [a] ++ m) ++ b :: post := by simp [hitems]
  have hlen : pre.length + 1 + m.length = (pre ++ [a] ++ m).length := by
    rw [List.length_append, List.length_append, List.length_singleton]
  have hun : unpaired (labelOf fields) (pre ++ [a] ++ m) b post = true := by
    rw [hlen, dropped_spec, hsplit, atPlace_split] at hdropped
    rwa [isDropped_of_ne_leads hb'] at hdropped
  have hstrands : strands (labelOf fields) (pre ++ [a]) (m ++ b :: post) = true :=
    strands_iff.2 ⟨m, b, post, rfl, fun d hd => hleads d (List.mem_cons_of_mem _ hd), hb', hun⟩
  rw [dropped_spec, hitems, atPlace_split]
  unfold isDropped
  rw [hleads a List.mem_cons_self]
  exact hstrands

/-- **The output is sanitary exactly where the calls are unambiguous.** -/
theorem sanitary_iff (fields : T → JsValue) (items : List T) :
    Sanitary fields items ↔ Unambiguous fields items := by
  constructor
  · intro h
    have hself : Valid fields items → ∀ k, Answered (labelOf fields) k items ∧ Fresh (labelOf fields) k items := by
      intro hvalid
      have hident := h.identity hvalid
      rw [sanitize_eq_tidy] at hident
      exact tidy_eq_self_iff.1 hident
    constructor
    · have hidem := h.idempotent
      rw [sanitize_eq_tidy, sanitize_eq_tidy] at hidem
      exact tidy_idem_iff.1 hidem
    · intro hvalid k
      exact (hself hvalid k).2
    · intro hvalid item hitem type callId hcorr hname
      -- Such an item is taken for a call, and no result answers it.
      have hopens := inherited_iff.2 ⟨hcorr, hname⟩
      obtain ⟨pre, post, rfl⟩ := List.append_of_mem hitem
      obtain ⟨r, -, hcloses⟩ := (hself hvalid _).1 pre item post rfl hopens
      obtain ⟨resultType, callId', hkey, -⟩ := toolResult_iff.1 hcloses
      simp at hkey
  · intro h
    have hout : Valid fields (tidy (labelOf fields) items) :=
      valid_iff.2 ⟨fun resultType callId => tidy_answered_iff.2 (h.unrepeated _),
        fun k => (tidy_fresh k items).asked⟩
    constructor
    · exact sanitize_eq_filter fields items
    · rw [sanitize_eq_tidy]
      exact tidy_sublist
    · rw [sanitize_eq_tidy]
      exact hout
    · intro pre a m b post hitems hreasoning hb hdropped
      exact reasoning_dropped hitems hreasoning hb hdropped
    · intro hvalid
      rw [sanitize_eq_tidy, tidy_eq_self_iff]
      rintro ⟨property, callId⟩
      refine ⟨?_, h.once hvalid _⟩
      cases property with
      | own resultType => exact (valid_iff.1 hvalid).1 resultType callId
      | inherited name =>
        intro pre c post hitems hc
        obtain ⟨hcorr, hname⟩ := inherited_iff.1 hc
        exact absurd hname (h.own hvalid c (by simp [hitems]) name callId hcorr)
    · rw [sanitize_eq_tidy, sanitize_eq_tidy]
      exact tidy_idem_iff.2 h.unrepeated

/-- Two calls of one tool under one id, two results, and an item of an inherited name. -/
def repeatedItem (i : ℕ) : JsValue :=
  .object [("type", .string (if i < 2 then "function_call" else if i < 4 then "function_call_result"
    else "constructor")), ("callId", .string "call_1")]

theorem toolCall_repeatedItem {i : ℕ} : ToolCall (repeatedItem i) resultType callId ↔
    i < 2 ∧ resultType = "function_call_result" ∧ callId = "call_1" := by
  have htype : itemType (repeatedItem i) = some (if i < 2 then "function_call"
      else if i < 4 then "function_call_result" else "constructor") := rfl
  have hid : callIdOf (repeatedItem i) = some "call_1" := rfl
  unfold ToolCall
  rw [htype, hid]
  split_ifs with hcall hresult
  · simp [TOOL_CALL_RESULT_TYPE_BY_CALL_TYPE, hcall, eq_comm]
  · simp [TOOL_CALL_RESULT_TYPE_BY_CALL_TYPE, List.lookup, hcall]
  · simp [TOOL_CALL_RESULT_TYPE_BY_CALL_TYPE, List.lookup, hcall]

theorem toolResult_repeatedItem {i : ℕ} : ToolResult (repeatedItem i) resultType callId ↔
    (2 ≤ i ∧ i < 4) ∧ resultType = "function_call_result" ∧ callId = "call_1" := by
  have htype : itemType (repeatedItem i) = some (if i < 2 then "function_call"
      else if i < 4 then "function_call_result" else "constructor") := rfl
  have hid : callIdOf (repeatedItem i) = some "call_1" := rfl
  have hnot : "function_call" ∉ RESULT_TYPES ∧ "constructor" ∉ RESULT_TYPES := by decide
  have hin : "function_call_result" ∈ RESULT_TYPES := by decide
  unfold ToolResult
  rw [htype, hid]
  split_ifs with hcall hresult
  · constructor
    · rintro ⟨h, hmem, -⟩
      exact absurd (Option.some.inj h ▸ hmem) hnot.1
    · rintro ⟨h, -⟩
      omega
  · constructor
    · rintro ⟨h, -, h'⟩
      exact ⟨by omega, (Option.some.inj h).symm, (Option.some.inj h').symm⟩
    · rintro ⟨-, rfl, rfl⟩
      exact ⟨rfl, hin, rfl⟩
  · constructor
    · rintro ⟨h, hmem, -⟩
      exact absurd (Option.some.inj h ▸ hmem) hnot.2
    · rintro ⟨h, -⟩
      omega

/-- **A history with a call made twice** is not sanitary, nor is one with a result given
twice, nor one with an item named after an inherited property. -/
theorem sanitary_fails_repeated : ¬ Sanitary repeatedItem [0, 1] ∧ ¬ Sanitary repeatedItem [0, 2, 3] ∧
    ¬ Sanitary repeatedItem [4] := by
  refine ⟨?_, ?_, ?_⟩
  · intro h
    have hout : sanitizeHistoryItemsForModel repeatedItem [0, 1] = [0] := by decide +kernel
    have hcall : ToolCall (repeatedItem 0) "function_call_result" "call_1" := ⟨"function_call", rfl, rfl, rfl⟩
    -- The call that is left has no result.
    obtain ⟨r, hr, -⟩ := h.valid.calls [] 0 [] hout _ _ hcall
    simp at hr
  · intro h
    have hout : sanitizeHistoryItemsForModel repeatedItem [0, 2, 3] = [0, 2] := by decide +kernel
    have hvalid : Valid repeatedItem [0, 2, 3] := by
      constructor
      · intro pre c post hitems resultType callId hcall
        obtain ⟨hc, rfl, rfl⟩ := toolCall_repeatedItem.1 hcall
        have hhead : 2 ∈ post := by
          cases pre with
          | nil =>
            obtain ⟨rfl, rfl⟩ := List.cons_eq_cons.1 hitems
            exact List.mem_cons_self
          | cons d pre =>
            have hmem : c ∈ [2, 3] := by
              rw [(List.cons_eq_cons.1 hitems).2]
              simp
            simp at hmem
            omega
        exact ⟨2, hhead, toolResult_repeatedItem.2 ⟨by omega, rfl, rfl⟩⟩
      · intro pre r post hitems resultType callId hresult
        obtain ⟨hr, rfl, rfl⟩ := toolResult_repeatedItem.1 hresult
        have hhead : 0 ∈ pre := by
          cases pre with
          | nil =>
            obtain ⟨rfl, -⟩ := List.cons_eq_cons.1 hitems
            omega
          | cons d pre =>
            rw [(List.cons_eq_cons.1 hitems).1]
            exact List.mem_cons_self
        exact ⟨0, hhead, toolCall_repeatedItem.2 ⟨by omega, rfl, rfl⟩⟩
    rw [h.identity hvalid] at hout
    simp at hout
  · intro h
    have hout : sanitizeHistoryItemsForModel repeatedItem [4] = [] := by decide +kernel
    have hvalid : Valid repeatedItem [4] := by
      constructor
      · intro pre c post hitems resultType callId hcall
        have hc : c ∈ [4] := by simp [hitems]
        have hlt := (toolCall_repeatedItem.1 hcall).1
        simp at hc
        omega
      · intro pre r post hitems resultType callId hresult
        have hr : r ∈ [4] := by simp [hitems]
        have hlt := (toolResult_repeatedItem.1 hresult).1
        simp at hr
        omega
    rw [h.identity hvalid] at hout
    simp at hout

end Claim

end OpenGeni.Runtime
