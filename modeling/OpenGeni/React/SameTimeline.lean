/-
Timelines that differ in the identity of streamed items only.

A run of deltas and the event it became leave the same items, except for the identifier and the
time of an item that was streamed: those are of the first delta with a text, or of the first delta.
No branch of the projection looks at them, so the difference never spreads.
-/
import OpenGeni.React.Projection

namespace OpenGeni.React

open OpenGeni.Lib OpenGeni.Stream

/-! ## The same items -/

/-- The same item, up to the identifier and the time of a streamed one. `streamed` holds of the
identifiers that deltas have. -/
inductive SameItem (streamed : String → Prop) : Item → Item → Prop
  | refl (item : Item) : SameItem streamed item item
  | message (item : AgentMessageItem) {id id' at' at'' : String} (h : streamed id)
      (h' : streamed id') :
      SameItem streamed (.agentMessage { item with id := id, occurredAt := at' })
        (.agentMessage { item with id := id', occurredAt := at'' })
  | reasoning (item : ReasoningItem) {id id' at' at'' : String} (h : streamed id)
      (h' : streamed id') :
      SameItem streamed (.activity (.reasoning { item with id := id, occurredAt := at' }))
        (.activity (.reasoning { item with id := id', occurredAt := at'' }))

def SameItems (streamed : String → Prop) : List Item → List Item → Prop := List.Forall₂ (SameItem streamed)

variable {streamed : String → Prop} {x y : Item} {xs ys : List Item}

theorem SameItems.refl (items : List Item) : SameItems streamed items items :=
  List.forall₂_same.2 fun item _ => .refl item

namespace SameItem

theorem trans {z : Item} (h : SameItem streamed x y) (h' : SameItem streamed y z) : SameItem streamed x z := by
  cases h with
  | refl => exact h'
  | message item hid hid' =>
    obtain ⟨id, turnId, text, streaming, at'⟩ := item
    generalize hy : TimelineItem.agentMessage _ = y at h'
    cases h' with
    | refl =>
      subst hy
      exact .message ⟨id, turnId, text, streaming, at'⟩ hid hid'
    | message item hz hz' =>
      obtain ⟨-, rfl, rfl, rfl, -⟩ := hy
      exact .message item hid hz'
    | reasoning item hz hz' => contradiction
  | reasoning item hid hid' =>
    obtain ⟨id, turnId, text, streaming, at'⟩ := item
    generalize hy : TimelineItem.activity _ = y at h'
    cases h' with
    | refl =>
      subst hy
      exact .reasoning ⟨id, turnId, text, streaming, at'⟩ hid hid'
    | message item hz hz' => contradiction
    | reasoning item hz hz' =>
      obtain ⟨-, rfl, rfl, rfl, -⟩ := hy
      exact .reasoning item hid hz'

/-! A test or a change that does not look at identifiers and times. -/

theorem isStreamingMessage (turnId : Option String) (h : SameItem streamed x y) :
    isStreamingMessage turnId x = isStreamingMessage turnId y := by
  cases h <;> rfl

theorem isStreamingReasoning (turnId : Option String) (h : SameItem streamed x y) :
    isStreamingReasoning turnId x = isStreamingReasoning turnId y := by
  cases h <;> rfl

theorem isMessageOf (turnId : Option String) (h : SameItem streamed x y) :
    isMessageOf turnId x = isMessageOf turnId y := by
  cases h <;> rfl

theorem reconciles (text : String) (h : SameItem streamed x y) : reconciles text x = reconciles text y := by
  cases h <;> rfl

theorem callOf (h : SameItem streamed x y) : callOf x = callOf y := by
  cases h <;> rfl

theorem isCallWith (callId : Option String) (h : SameItem streamed x y) :
    isCallWith callId x = isCallWith callId y := by
  unfold React.isCallWith
  rw [h.callOf]

theorem isRunningCall (h : SameItem streamed x y) : isRunningCall x = isRunningCall y := by
  unfold React.isRunningCall
  rw [h.callOf]

theorem isRunningSandbox (name : Option String) (h : SameItem streamed x y) :
    isRunningSandbox name x = isRunningSandbox name y := by
  cases h <;> rfl

theorem dividerStatus (h : SameItem streamed x y) : dividerStatus x = dividerStatus y := by
  cases h <;> rfl

theorem openTurn (h : SameItem streamed x y) : openTurn x = openTurn y := by
  cases h <;> rfl

theorem stopStreaming (h : SameItem streamed x y) : SameItem streamed (stopStreaming x) (stopStreaming y) := by
  cases h with
  | refl => exact .refl _
  | message item h h' => exact .message { item with streaming := false } h h'
  | reasoning item h h' => exact .reasoning { item with streaming := false } h h'

theorem settle (disposition : ItemStatus) (h : SameItem streamed x y) :
    SameItem streamed (settle disposition x) (settle disposition y) := by
  cases h with
  | refl => exact .refl _
  | message item h h' => exact .message { item with streaming := false } h h'
  | reasoning item h h' => exact .reasoning { item with streaming := false } h h'

theorem appendText (text : String) (h : SameItem streamed x y) :
    SameItem streamed (appendText text x) (appendText text y) := by
  cases h with
  | refl => exact .refl _
  | message item h h' => exact .message { item with text := item.text ++ text } h h'
  | reasoning item h h' => exact .reasoning { item with text := item.text ++ text } h h'

theorem complete (text : String) (h : SameItem streamed x y) :
    SameItem streamed (complete text x) (complete text y) := by
  cases h with
  | refl => exact .refl _
  | message item h h' =>
    exact .message { item with
        streaming := false
        text := if item.text = "" ∨ text ≠ "" ∧ startsWith text item.text = true then
            if text = "" then item.text else text
          else item.text } h h'
  | reasoning item h h' => exact .reasoning item h h'

theorem settleCall (js : JsLibrary) (payload : Payload) (h : SameItem streamed x y) :
    SameItem streamed (settleCall js payload x) (settleCall js payload y) := by
  cases h with
  | refl => exact .refl _
  | message item h h' => exact .message item h h'
  | reasoning item h h' => exact .reasoning item h h'

theorem settleSandbox (status : ItemStatus) (message : Option String) (h : SameItem streamed x y) :
    SameItem streamed (settleSandbox status message x) (settleSandbox status message y) := by
  cases h with
  | refl => exact .refl _
  | message item h h' => exact .message item h h'
  | reasoning item h h' => exact .reasoning item h h'

end SameItem

namespace SameItems

theorem trans {zs : List Item} (h : SameItems streamed xs ys) (h' : SameItems streamed ys zs) :
    SameItems streamed xs zs := by
  induction h generalizing zs with
  | nil => exact h'
  | cons hxy h ih =>
    cases h' with
    | cons hyz h' => exact .cons (hxy.trans hyz) (ih h')

theorem push (h : SameItems streamed xs ys) (items : List Item) : SameItems streamed (xs ++ items) (ys ++ items) :=
  List.rel_append h (refl items)

theorem closeStreamingTail (h : SameItems streamed xs ys) :
    SameItems streamed (closeStreamingTail xs) (closeStreamingTail ys) :=
  modifyTail_related (fun _ _ h => h.stopStreaming) h

theorem finalizeOpen (turnId : Option String) (disposition : ItemStatus) (h : SameItems streamed xs ys) :
    SameItems streamed (finalizeOpen turnId disposition xs) (finalizeOpen turnId disposition ys) := by
  apply List.rel_map ?_ h
  intro x y hxy
  dsimp only
  rw [hxy.openTurn]
  split
  · exact hxy
  · exact hxy.settle disposition

theorem hasTurnActivity (turnId : Option String) (h : SameItems streamed xs ys) :
    hasTurnActivity xs turnId = hasTurnActivity ys turnId := by
  have htrailing : ∀ {xs ys}, SameItems streamed xs ys → hasTrailingActivity xs = hasTrailingActivity ys := by
    intro xs ys h
    induction h with
    | nil => rfl
    | @cons x y xs ys hxy h ih =>
      cases hxy with
      | refl =>
        cases x with
        | turnEnd | userMessage | activity => rfl
        | _ => exact ih
      | message item h h' => exact ih
      | reasoning item h h' => rfl
  unfold React.hasTurnActivity
  rw [htrailing (List.rel_reverse h), any_related ?_ h]
  intro x y hxy
  cases hxy <;> rfl

theorem stream {isOpen : Item → Bool} {append : Item → Item} {item item' : Item}
    (hopen : ∀ x y, SameItem streamed x y → isOpen x = isOpen y)
    (happend : ∀ x y, SameItem streamed x y → SameItem streamed (append x) (append y))
    (hitem : SameItem streamed item item') (h : SameItems streamed xs ys) :
    SameItems streamed (stream isOpen append item xs) (stream isOpen append item' ys) := by
  unfold React.stream
  rw [getLast?_related hopen h]
  split
  · exact modifyTail_related happend h
  · exact List.rel_append h.closeStreamingTail (.cons hitem .nil)

theorem messageDelta (event : LogEvent) (h : SameItems streamed xs ys) :
    SameItems streamed (messageDelta event xs) (messageDelta event ys) := by
  unfold React.messageDelta
  dsimp only
  split
  · exact h
  · exact h.stream (fun _ _ h => h.isStreamingMessage _) (fun _ _ h => h.appendText _) (.refl _)

theorem reasoningDelta (event : LogEvent) (h : SameItems streamed xs ys) :
    SameItems streamed (reasoningDelta event xs) (reasoningDelta event ys) := by
  unfold React.reasoningDelta
  dsimp only
  split
  · exact h
  · exact h.stream (fun _ _ h => h.isStreamingReasoning _) (fun _ _ h => h.appendText _) (.refl _)

theorem messageCompleted (event : LogEvent) (h : SameItems streamed xs ys) :
    SameItems streamed (messageCompleted event xs) (messageCompleted event ys) := by
  unfold React.messageCompleted
  dsimp only
  rw [find?_related (fun _ _ h => SameItem.isMessageOf _ h) (fun _ _ h => SameItem.reconciles _ h)
    (List.rel_reverse h)]
  split
  · exact modifyLatest_related (fun _ _ h => h.isMessageOf _) (fun _ _ h => h.complete _) h
  · split
    · exact h
    · exact h.push _

theorem toolCallOutput (js : JsLibrary) (event : LogEvent) (h : SameItems streamed xs ys) :
    SameItems streamed (toolCallOutput js event xs) (toolCallOutput js event ys) := by
  unfold React.toolCallOutput
  dsimp only
  rw [any_related (fun _ _ h => SameItem.isCallWith _ h) h]
  split
  · exact modifyLatest_related (fun _ _ h => h.isCallWith _) (fun _ _ h => h.settleCall js _) h
  · exact modifyLatest_related (fun _ _ h => h.isRunningCall) (fun _ _ h => h.settleCall js _) h

theorem sandboxOperation (js : JsLibrary) (status : ItemStatus) (event : LogEvent) (h : SameItems streamed xs ys) :
    SameItems streamed (sandboxOperation js status event xs) (sandboxOperation js status event ys) := by
  unfold React.sandboxOperation
  dsimp only
  rw [any_related (fun _ _ h => SameItem.isRunningSandbox _ h) h]
  split
  · exact h
  · split
    · split
      · exact h
      · exact modifyLatest_related (fun _ _ h => h.isRunningSandbox _) (fun _ _ h => h.settleSandbox _ _) h
    · exact h.closeStreamingTail.push _

theorem sandboxOutput (event : LogEvent) (h : SameItems streamed xs ys) :
    SameItems streamed (sandboxOutput event xs) (sandboxOutput event ys) := by
  unfold React.sandboxOutput
  dsimp only
  rw [any_related (fun _ _ h => SameItem.isRunningSandbox _ h) h]
  split
  · exact h
  · split
    · exact modifyLatest_related (fun _ _ h => h.isRunningSandbox _) (fun _ _ h => h.appendText _) h
    · exact modifyLatest_related (fun _ _ h => h.isRunningSandbox _) (fun _ _ h => h.appendText _) h

theorem statusChanged (event : LogEvent) (h : SameItems streamed xs ys) :
    SameItems streamed (statusChanged event xs) (statusChanged event ys) := by
  unfold React.statusChanged
  rw [findSome?_related (fun _ _ h => SameItem.dividerStatus h) (List.rel_reverse h)]
  split
  · exact h
  · split
    · exact h
    · split
      · exact h
      · exact h.push _

theorem turnFailed (js : JsLibrary) (event : LogEvent) (h : SameItems streamed xs ys) :
    SameItems streamed (turnFailed js event xs) (turnFailed js event ys) := by
  unfold React.turnFailed
  rw [h.hasTurnActivity]
  exact ((h.finalizeOpen _ _).push _).push _

theorem turnCancelled (anchors : Anchors) (event : LogEvent) (h : SameItems streamed xs ys) :
    SameItems streamed (turnCancelled anchors event xs) (turnCancelled anchors event ys) := by
  unfold React.turnCancelled
  rw [h.hasTurnActivity]
  split
  · exact h
  · exact ((h.finalizeOpen _ _).push _).push _

theorem memoryWritten (event : LogEvent) (h : SameItems streamed xs ys) :
    SameItems streamed (memoryWritten event xs) (memoryWritten event ys) := by
  unfold React.memoryWritten
  split
  · exact h
  · exact h.closeStreamingTail.push _

/-- **Every event keeps items the same.** -/
theorem project (js : JsLibrary) (anchors : Anchors) (event : TimelineEvent) (h : SameItems streamed xs ys) :
    SameItems streamed (project js anchors xs event) (project js anchors ys event) := by
  unfold React.project
  split
  · exact h.closeStreamingTail.push _
  · exact h.messageDelta _
  · exact h.messageCompleted _
  · exact h.reasoningDelta _
  · exact h.closeStreamingTail.push _
  · exact h.toolCallOutput js _
  · exact h.sandboxOperation js _ _
  · exact h.sandboxOperation js _ _
  · exact h.sandboxOperation js _ _
  · exact h.sandboxOutput _
  · exact h.statusChanged _
  · exact (h.finalizeOpen _ _).push _
  · exact h.closeStreamingTail.push _
  · exact (h.finalizeOpen _ _).push _
  · exact h.turnFailed js _
  · exact h.turnCancelled anchors _
  · exact h.memoryWritten _
  · exact h.memoryWritten _
  -- the seven changes of a goal
  iterate 7
    · exact h.push _
  · exact h

end SameItems

/-! ## One delta after another -/

def deliver (type : SessionEventType) (id at' : String) (turnId : Option String) (text : String)
    (name : Option String) (items : List Item) : List Item :=
  if text = "" then items
  else if type = .agentMessageDelta then
    stream (isStreamingMessage turnId) (appendText text) (.agentMessage
        { id := id, turnId := turnId, text := text, streaming := true, occurredAt := at' }) items
  else if type = .agentReasoningDelta then
    stream (isStreamingReasoning turnId) (appendText text) (.activity (.reasoning
        { id := id, turnId := turnId, text := text, streaming := true, occurredAt := at' })) items
  else if name.isSome && items.any (isRunningSandbox name) then
    modifyLatest (isRunningSandbox name) (appendText text) items
  else
    modifyLatest (isRunningSandbox none) (appendText text) items

variable {js : JsLibrary} {anchors : Anchors} {event : LogEvent} {items : List Item}

theorem project_delta (h : isCoalescibleDelta event = true) : project js anchors items { event := event } =
      deliver event.type event.id event.occurredAt event.turn (deltaText event)
        (sandboxDeltaString event "name") items := by
  rcases isCoalescibleDelta_iff.1 h with htype | htype | htype
  · simp only [project, htype, messageDelta, deliver, deltaText, stringField]
    rfl
  · simp only [project, htype, reasoningDelta, deliver, deltaText]
    rfl
  · simp only [project, htype, sandboxOutput, deliver, deltaText, sandboxDeltaString, stringField]
    rfl

theorem appendText_appendText (text text' : String) :
    appendText text' ∘ appendText text = appendText (text ++ text') := by
  funext item
  cases item with
  | agentMessage => simp [appendText, String.append_assoc]
  | activity item => cases item <;> simp [appendText, String.append_assoc]
  | _ => rfl

theorem stream_stream {isOpen : Item → Bool} {append append' : Item → Item} {item item' : Item}
    (happend : ∀ x, isOpen (append x) = isOpen x) (hitem : isOpen item = true) :
    stream isOpen append' item' (stream isOpen append item items) =
      stream isOpen (append' ∘ append) (append' item) items := by
  unfold stream
  by_cases hopen : items.getLast?.any isOpen = true
  · have hstill : (modifyTail append items).getLast?.any isOpen = true := by
      rw [getLast?_modifyTail, Option.any_map, ← hopen]
      exact congrArg (Option.any · items.getLast?) (funext happend)
    rw [if_pos hopen, if_pos hopen, if_pos hstill, modifyTail_modifyTail]
  · have hopened : (closeStreamingTail items ++ [item]).getLast?.any isOpen = true := by
      rw [List.getLast?_concat]
      exact hitem
    rw [if_neg hopen, if_neg hopen, if_pos hopened, modifyTail_concat]

theorem isRunningSandbox_append (name : Option String) (text : String) (item : Item) :
    isRunningSandbox name (appendText text item) = isRunningSandbox name item := by
  cases item with
  | activity item => cases item <;> rfl
  | _ => rfl

theorem isStreamingMessage_append (turnId : Option String) (text : String) (item : Item) :
    isStreamingMessage turnId (appendText text item) = isStreamingMessage turnId item := by
  cases item with
  | activity item => cases item <;> rfl
  | _ => rfl

theorem isStreamingReasoning_append (turnId : Option String) (text : String) (item : Item) :
    isStreamingReasoning turnId (appendText text item) = isStreamingReasoning turnId item := by
  cases item with
  | activity item => cases item <;> rfl
  | _ => rfl

section Deliver

variable {type : SessionEventType} {id id' at' at'' : String} {turnId name : Option String} {text text' : String}

theorem deliver_same (hid : streamed id) (hid' : streamed id') :
    SameItems streamed (deliver type id' at'' turnId text name items)
      (deliver type id at' turnId text name items) := by
  unfold deliver
  split
  · exact .refl _
  · split
    · exact (SameItems.refl items).stream (fun _ _ h => h.isStreamingMessage _)
        (fun _ _ h => h.appendText _) (.message ⟨id, turnId, text, true, at'⟩ hid' hid)
    · split
      · exact (SameItems.refl items).stream (fun _ _ h => h.isStreamingReasoning _)
          (fun _ _ h => h.appendText _) (.reasoning ⟨id, turnId, text, true, at'⟩ hid' hid)
      · exact .refl _

theorem deliver_append (htext : text ≠ "") (htext' : text' ≠ "") :
    deliver type id' at'' turnId text' name (deliver type id at' turnId text name items) =
      deliver type id at' turnId (text ++ text') name items := by
  have hboth : text ++ text' ≠ "" := by
    intro hempty
    have hlist : text.toList ++ text'.toList = [] := by
      rw [← String.toList_append, hempty]
      rfl
    exact htext (String.toList_inj.1 (List.append_eq_nil_iff.1 hlist).1)
  unfold deliver
  rw [if_neg htext, if_neg htext', if_neg hboth]
  by_cases hmessage : type = .agentMessageDelta
  · rw [if_pos hmessage, if_pos hmessage, if_pos hmessage,
      stream_stream (isStreamingMessage_append turnId text) (by simp [isStreamingMessage]),
      appendText_appendText]
    rfl
  · rw [if_neg hmessage, if_neg hmessage, if_neg hmessage]
    by_cases hreasoning : type = .agentReasoningDelta
    · rw [if_pos hreasoning, if_pos hreasoning, if_pos hreasoning,
        stream_stream (isStreamingReasoning_append turnId text) (by simp [isStreamingReasoning]),
        appendText_appendText]
      rfl
    · rw [if_neg hreasoning, if_neg hreasoning, if_neg hreasoning]
      by_cases hnamed : (name.isSome && items.any (isRunningSandbox name)) = true
      · rw [if_pos hnamed, if_pos hnamed, any_modifyLatest (isRunningSandbox_append name text),
          if_pos hnamed, modifyLatest_modifyLatest (isRunningSandbox_append name text),
          appendText_appendText]
      · rw [if_neg hnamed, if_neg hnamed, any_modifyLatest (isRunningSandbox_append name text),
          if_neg hnamed, modifyLatest_modifyLatest (isRunningSandbox_append none text),
          appendText_appendText]

/-- **Two deltas are one.** -/
theorem deliver_deliver (hid : streamed id) (hid' : streamed id') : SameItems streamed
      (deliver type id' at'' turnId text' name (deliver type id at' turnId text name items))
      (deliver type id at' turnId (text ++ text') name items) := by
  by_cases htext' : text' = ""
  · have hlast : deliver type id' at'' turnId text' name (deliver type id at' turnId text name items) =
        deliver type id at' turnId text name items := if_pos htext'
    rw [hlast, htext', String.append_empty]
    exact .refl _
  · by_cases htext : text = ""
    · have hfirst : deliver type id at' turnId text name items = items := if_pos htext
      rw [hfirst, htext, String.empty_append]
      exact deliver_same hid hid'
    · rw [deliver_append htext htext']
      exact .refl _

end Deliver

variable {deltas : List LogEvent} {run : DeltaRun}

theorem project_run (h : IsRun deltas run) : project js anchors items { event := run.event } =
      deliver run.first.type run.first.id run.first.occurredAt run.first.turn run.text run.sandboxName items := by
  have hdelta : isCoalescibleDelta run.event = true := h.delta
  rw [project_delta hdelta, h.deltaText_event, h.sandboxName_event]
  rfl

theorem deliver_joins (h : IsRun deltas run) (hjoins : run.joins event = true) {id at' text : String}
    {turnId : Option String} :
    deliver event.type id at' turnId text (sandboxDeltaString event "name") items =
      deliver run.first.type id at' turnId text run.sandboxName items := by
  obtain ⟨htype, hturn, hname⟩ := DeltaRun.of_joins hjoins
  rw [htype]
  by_cases hsandbox : run.first.type = .sandboxCommandOutputDelta
  · rw [hname hsandbox]
  · rw [h.name, sandboxDeltaString, sandboxDeltaString, htype, if_neg hsandbox, if_neg hsandbox]

/-- **A run and the event it becomes.** -/
theorem foldl_run (h : IsRun deltas run) (hstreamed : ∀ event ∈ deltas, streamed event.id)
    (hsame : SameItems streamed xs ys) :
    SameItems streamed ((deltas.map fun event => { event := event }).foldl (project js anchors) xs)
      (project js anchors ys { event := run.event }) := by
  induction h with
  | @start event h =>
    have hproject : project js anchors ys { event := (startRun event).event } =
        project js anchors ys { event := event } := by
      rw [project_run (.start h), project_delta h]
      rfl
    rw [hproject]
    exact hsame.project js anchors _
  | @extend deltas run event h hdelta hjoins ih =>
    have hdeltas := ih fun e he => hstreamed e (List.mem_append_left _ he)
    have hfirst : streamed run.first.id := by
      obtain ⟨rest, hrest⟩ := h.head
      exact hstreamed _ (List.mem_append_left _ (hrest ▸ List.mem_cons_self))
    have hevent : streamed event.id := hstreamed _ (List.mem_append_right _ List.mem_cons_self)
    rw [List.map_append, List.foldl_append]
    have hnext := hdeltas.project js anchors { event := event }
    rw [project_run h, project_delta hdelta, project_delta hdelta,
      deliver_joins h hjoins, deliver_joins h hjoins, (DeltaRun.of_joins hjoins).2.1] at hnext
    rw [List.map_singleton, List.foldl_cons, List.foldl_nil, project_delta hdelta,
      deliver_joins h hjoins, (DeltaRun.of_joins hjoins).2.1,
      project_run (.extend h hdelta hjoins)]
    exact hnext.trans (deliver_deliver hfirst hevent)

end OpenGeni.React
