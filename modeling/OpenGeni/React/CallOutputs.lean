/-
Which call an output settles.

`findOpenCall` looks for the call with the identifier of the output, and where there is none it
takes the latest call that runs. A window of a log may start between a call and its output; then
the output of that call settles another that happens to run. Where every output finds a call with
its identifier, or no call runs, or the latest one that runs has the very same identifier, an
output changes its own call only; and where one does not, it changes another
(`outputs_settle_own_iff`). No other event but the end of a turn changes what a call has come to.
-/
import OpenGeni.React.CompactReplay

namespace OpenGeni.React

open OpenGeni.Lib OpenGeni.Stream

def callIdOf (item : Item) : Option (Option String) := (callOf item).map (·.1)

/-- What a call has come to: its status, its output, and the session that a worker's call started. -/
def callResult : Item → Option (Option String × ItemStatus × Unknown × Option String)
  | .activity (.toolCall item) => some (item.callId, item.status, item.output, none)
  | .activity (.worker item) => some (item.callId, item.status, none, item.workerSessionId)
  | _ => none

/-- The events that settle all that is open: a turn has ended, or waits for an approval. -/
def endsTurn (type : SessionEventType) : Bool :=
  type = .turnCompleted || type = .turnFailed || type = .turnCancelled || type = .sessionRequiresAction

/-- An output changes calls with its own identifier only, and other events leave the calls alone. -/
structure SettlesOwn (event : LogEvent) (items items' : List Item) : Prop where
  output : event.type = .agentToolCallOutput → items'.length = items.length ∧
    ∀ (i : ℕ) (item item' : Item), items[i]? = some item → items'[i]? = some item' → item' ≠ item →
      callIdOf item = some (stringField event.payload "id")
  others : event.type ≠ .agentToolCallOutput → endsTurn event.type = false →
    items.map callResult <+: items'.map callResult

/-- An output has a call with its identifier, or finds no running call of another. -/
def FindsOwn (event : LogEvent) (items : List Item) : Prop := event.type = .agentToolCallOutput →
    (truthy (stringField event.payload "id") = true ∧
        items.any (isCallWith (stringField event.payload "id")) = true) ∨
      ∀ running, items.reverse.find? isRunningCall = some running →
        callIdOf running = some (stringField event.payload "id")

section

variable {items : List Item} {event : LogEvent}

/-! ## Events that are no outputs -/

theorem callResult_stopStreaming (item : Item) : callResult (stopStreaming item) = callResult item := by
  cases item with
  | activity activity => cases activity <;> rfl
  | _ => rfl

theorem callResult_appendText (text : String) (item : Item) :
    callResult (appendText text item) = callResult item := by
  cases item with
  | activity activity => cases activity <;> rfl
  | _ => rfl

theorem callResult_complete (text : String) (item : Item) : callResult (complete text item) = callResult item := by
  cases item <;> rfl

theorem callResult_settleSandbox (status : ItemStatus) (message : Option String) (item : Item) :
    callResult (settleSandbox status message item) = callResult item := by
  cases item with
  | activity activity => cases activity <;> rfl
  | _ => rfl

theorem results_append (added : List Item) : items.map callResult <+: (items ++ added).map callResult := by
  rw [List.map_append]
  exact List.prefix_append _ _

theorem results_of_eq {items' : List Item} (h : items'.map callResult = items.map callResult) :
    items.map callResult <+: items'.map callResult := by
  rw [h]

theorem results_closeStreamingTail (added : List Item) :
    items.map callResult <+: (closeStreamingTail items ++ added).map callResult := by
  have h : (closeStreamingTail items).map callResult <+: (closeStreamingTail items ++ added).map callResult :=
    results_append added
  rwa [closeStreamingTail, map_modifyTail callResult_stopStreaming] at h

theorem results_stream {isOpen : Item → Bool} (text : String) (item : Item) :
    items.map callResult <+: (stream isOpen (appendText text) item items).map callResult := by
  unfold stream
  split
  · exact results_of_eq (map_modifyTail (callResult_appendText text))
  · exact results_closeStreamingTail [item]

theorem results_messageDelta : items.map callResult <+: (messageDelta event items).map callResult := by
  unfold messageDelta
  dsimp only
  split
  · exact List.prefix_rfl
  · exact results_stream _ _

theorem results_reasoningDelta : items.map callResult <+: (reasoningDelta event items).map callResult := by
  unfold reasoningDelta
  dsimp only
  split
  · exact List.prefix_rfl
  · exact results_stream _ _

theorem results_messageCompleted : items.map callResult <+: (messageCompleted event items).map callResult := by
  unfold messageCompleted
  dsimp only
  split
  · exact results_of_eq (map_modifyLatest (callResult_complete _))
  · split
    · exact List.prefix_rfl
    · exact results_append _

theorem results_sandboxOperation (js : JsLibrary) (status : ItemStatus) :
    items.map callResult <+: (sandboxOperation js status event items).map callResult := by
  unfold sandboxOperation
  dsimp only
  split
  · exact List.prefix_rfl
  · split
    · split
      · exact List.prefix_rfl
      · exact results_of_eq (map_modifyLatest (callResult_settleSandbox _ _))
    · exact results_closeStreamingTail _

theorem results_sandboxOutput : items.map callResult <+: (sandboxOutput event items).map callResult := by
  unfold sandboxOutput
  dsimp only
  split
  · exact List.prefix_rfl
  · split
    · exact results_of_eq (map_modifyLatest (callResult_appendText _))
    · exact results_of_eq (map_modifyLatest (callResult_appendText _))

theorem results_statusChanged : items.map callResult <+: (statusChanged event items).map callResult := by
  unfold statusChanged
  split
  · exact List.prefix_rfl
  · split
    · exact List.prefix_rfl
    · split
      · exact List.prefix_rfl
      · exact results_append _

theorem results_memoryWritten : items.map callResult <+: (memoryWritten event items).map callResult := by
  unfold memoryWritten
  split
  · exact List.prefix_rfl
  · exact results_closeStreamingTail _

theorem results_project (js : JsLibrary) (anchors : Anchors) {event : TimelineEvent}
    (houtput : event.event.type ≠ .agentToolCallOutput) (hend : endsTurn event.event.type = false) :
    items.map callResult <+: (project js anchors items event).map callResult := by
  unfold project
  split
  case h_6 h => exact absurd h houtput
  case h_12 h => rw [h] at hend; cases hend
  case h_14 h => rw [h] at hend; cases hend
  case h_15 h => rw [h] at hend; cases hend
  case h_16 h => rw [h] at hend; cases hend
  · exact results_closeStreamingTail _
  · exact results_messageDelta
  · exact results_messageCompleted
  · exact results_reasoningDelta
  · exact results_closeStreamingTail _
  · exact results_sandboxOperation js _
  · exact results_sandboxOperation js _
  · exact results_sandboxOperation js _
  · exact results_sandboxOutput
  · exact results_statusChanged
  · exact results_closeStreamingTail _
  · exact results_memoryWritten
  · exact results_memoryWritten
  -- the seven changes of a goal
  iterate 7
    · exact results_append _
  · exact List.prefix_rfl

/-! ## Outputs -/

variable {callId : Option String} {item : Item}

theorem callIdOf_of_isCallWith (h : isCallWith callId item = true) : callIdOf item = some callId := by
  unfold isCallWith at h
  unfold callIdOf
  cases hcall : callOf item with
  | none => simp [hcall] at h
  | some call => simpa [hcall] using h

theorem settleCall_ne (js : JsLibrary) (payload : Payload) (h : isRunningCall item = true) :
    settleCall js payload item ≠ item := by
  intro heq
  have hstatus := congrArg isRunningCall heq
  rw [h] at hstatus
  cases item with
  | activity activity =>
    cases activity with
    | toolCall | worker =>
      cases hp : isErrorOutput payload <;> simp [settleCall, isRunningCall, callOf, hp] at hstatus
    | _ => cases h
  | _ => cases h

theorem settlesOwn_iff_findsOwn (js : JsLibrary) (anchors : Anchors) (event : TimelineEvent) :
    SettlesOwn event.event items (project js anchors items event) ↔ FindsOwn event.event items := by
  by_cases houtput : event.event.type = .agentToolCallOutput
  case neg =>
    refine iff_of_true ⟨fun h => absurd h houtput, fun h hend => results_project js anchors h hend⟩ ?_
    exact fun h => absurd h houtput
  have hproject : project js anchors items event = toolCallOutput js event.event items := by
    unfold project
    rw [houtput]
  rw [hproject]
  unfold toolCallOutput
  by_cases hby : truthy (stringField event.event.payload "id") = true ∧
      items.any (isCallWith (stringField event.event.payload "id")) = true
  case pos =>
    rw [if_pos (by simpa using hby)]
    refine iff_of_true ⟨fun _ => ⟨length_modifyLatest, ?_⟩, fun h => absurd houtput h⟩ fun _ => .inl hby
    intro i item item' hitem hitem' hne
    exact callIdOf_of_isCallWith (List.find?_some (changed_modifyLatest hitem hitem' hne))
  case neg =>
    rw [if_neg (by simpa using hby)]
    constructor
    · intro hsettles
      refine fun _ => .inr fun running hrunning => ?_
      have hany : items.any isRunningCall = true := by
        rw [List.any_eq_true]
        exact ⟨running, by simpa using List.mem_of_find?_eq_some hrunning, List.find?_some hrunning⟩
      obtain ⟨front, found, back, hitems, hruns, hfind, hmodify⟩ :=
        modifyLatest_split (f := settleCall js event.event.payload) hany
      cases hfind.symm.trans hrunning
      refine (hsettles.output houtput).2 front.length running (settleCall js event.event.payload running) ?_ ?_
        (settleCall_ne js _ hruns)
      · rw [hitems]
        simp
      · rw [hmodify]
        simp
    · intro hfinds
      refine ⟨fun _ => ⟨length_modifyLatest, ?_⟩, fun h => absurd houtput h⟩
      intro i item item' hitem hitem' hne
      obtain hown | hlatest := hfinds houtput
      · exact absurd hown hby
      · exact hlatest item (changed_modifyLatest hitem hitem' hne)

/-! ## The whole timeline -/

def itemsAfter (js : JsLibrary) (events : List LogEvent) (part : List TimelineEvent) : List Item :=
  part.foldl (project js (prescanTurnAnchors events)) []

/-- In the building of the timeline every event meets the condition in the items it finds. -/
def Throughout (js : JsLibrary) (events : List LogEvent) (P : TimelineEvent → List Item → Prop) : Prop :=
  ∀ part event rest, orderTimelineEvents events (prescanTurnAnchors events) = part ++ event :: rest →
    P event (itemsAfter js events part)

/-- **In the building of a timeline outputs settle their own calls throughout, exactly if each finds
a call with its identifier, or no running call of another.** -/
theorem outputs_settle_own_iff (js : JsLibrary) (events : List LogEvent) : (Throughout js events fun event items =>
        SettlesOwn event.event items (project js (prescanTurnAnchors events) items event)) ↔
      Throughout js events fun event items => FindsOwn event.event items :=
  forall₄_congr fun _ _ _ _ => settlesOwn_iff_findsOwn js _ _

end

/-! ## A window that starts between a call and its output -/

/-- The output of a call before the window, while a call of the window runs. -/
def lateOutput : List LogEvent :=
  let event (sequence : ℕ) (type : SessionEventType) (payload : Payload) : LogEvent :=
    { id := "e" ++ toString sequence, workspaceId := "w", sessionId := "s", sequence := sequence
      type := type, payload := payload, occurredAt := "t" ++ toString sequence, turnId := some (some "turn") }
  [event 8 .agentToolCallCreated (.object [("id", .string "call-2"), ("name", .string "shell")]),
   event 9 .agentToolCallOutput (.object [("id", .string "call-1"), ("output", .string "late")])]

/-- It completes the call that runs. -/
theorem late_output_settles_other :
    (lateOutput.map fun event => stringField event.payload "id") = [some "call-2", some "call-1"] ∧
      (buildTimeline plainJs (lateOutput.take 1)).map callOf = [some (some "call-2", .running)] ∧
        (buildTimeline plainJs lateOutput).map callOf = [some (some "call-2", .complete)] := by
  have hsort : sortBySequence lateOutput = lateOutput := sort_ascending (by unfold Ascending; decide)
  have hsort' : sortBySequence (lateOutput.take 1) = lateOutput.take 1 :=
    sort_ascending (by unfold Ascending; decide)
  simp only [buildTimeline, prescanTurnAnchors, orderTimelineEvents, hsort, hsort']
  decide +kernel

end OpenGeni.React
