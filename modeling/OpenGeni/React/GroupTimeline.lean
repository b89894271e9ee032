/-
`groupTimeline` of `packages/react/src/timeline/projection.ts`.

One pass over the items. An activity item joins the open group at the tail; the end of a
turn stamps the open groups of the turn and folds the tail of the list behind one group.
The source rewrites the list in place; here every helper returns the new list.

A fold moves groups and a stamp marks them, so neither touches the items: the groups hold
the items they were given, in their order (`flatten_groupTimeline`).
-/
import OpenGeni.React.Timeline

namespace OpenGeni.React

variable {J : Type*}

def truthy (s : Option String) : Bool := s.any fun t => decide (t ≠ "")

/-! ## Activity -/

def newActivity (item : ActivityItem J) : TimelineGroup J :=
  .activity
    { id := "activity-" ++ item.id, items := [item], outcome := none, failureText := none }

def pushActivity (groups : List (TimelineGroup J)) (item : ActivityItem J) : List (TimelineGroup J) :=
  match groups.getLast? with
  | some (.activity tail) =>
    if tail.outcome.isNone then
      groups.dropLast ++ [.activity { tail with items := tail.items ++ [item] }]
    else groups ++ [newActivity item]
  | _ => groups ++ [newActivity item]

/-! ## Outcomes -/

/-- `applyTurnOutcome`. A group reports its own outcome, not that of the turn. -/
def applyTurnOutcome (group : ActivityGroup J) (turnEnd : TurnEndItem) : ActivityGroup J :=
  if turnEnd.outcome = .complete then { group with outcome := some .complete }
  else
    let hasFailed := group.items.any fun item => decide (item.status = some .failed)
    let hasInterrupted := group.items.any fun item => decide (item.status = some .cancelled)
    let outcome := if hasFailed then .failed else if hasInterrupted then .cancelled else .complete
    if truthy turnEnd.failureText && hasFailed then
      { group with
        outcome := some outcome
        failureText := turnEnd.failureText }
    else { group with outcome := some outcome }

/-- The loop body of `stampTurnOutcome`. -/
def stampGroup (turnEnd : TurnEndItem) (group : TimelineGroup J) : TimelineGroup J := match group with
  | .activity g =>
    if g.outcome.isSome then group
    else if g.items.any fun item => decide (item.turnId = turnEnd.turnId) then
      .activity (applyTurnOutcome g turnEnd)
    else group
  | _ => group

def stampTurnOutcome (groups : List (TimelineGroup J)) (turnEnd : TurnEndItem) : List (TimelineGroup J) :=
  if turnEnd.turnId = none then
    match groups.getLast? with
    | some (.activity trailing) =>
      if trailing.outcome.isNone then
        groups.dropLast ++ [.activity (applyTurnOutcome trailing turnEnd)]
      else groups
    | _ => groups
  else groups.map (stampGroup turnEnd)

/-! ## Folding -/

def isTurnBoundary : TimelineGroup J → Bool
  | .turn .. => true
  | .item (.userMessage _) => true
  | _ => false

def belongsToDifferentTurn (group : TimelineGroup J) (turnId : Option String) : Bool := if truthy turnId then
    match group with
    | .activity g =>
      decide (0 < g.items.length) && g.items.all fun item => item.turnId.isSome && decide (item.turnId ≠ turnId)
    | .item (.agentMessage message) => message.turnId.isSome && decide (message.turnId ≠ turnId)
    | _ => false
  else false

def isBetweenTurnDivider : TimelineGroup J → Bool
  | .item (.sessionStatus item) => decide (item.status ≠ .running)
  | _ => false

/-- The backward loop of `foldSettledTurn`: where it stops, and whether at a foreign turn. -/
def walkBack (groups : List (TimelineGroup J)) (turnId : Option String) : ℕ → ℕ × Bool
  | 0 => (0, false)
  | startIndex + 1 =>
    match groups[startIndex]? with
    | none => (startIndex + 1, false)
    | some previous =>
      if isTurnBoundary previous then (startIndex + 1, false)
      else if belongsToDifferentTurn previous turnId then (startIndex + 1, true)
      else walkBack groups turnId startIndex

/-- The forward loop of `foldSettledTurn`, over the groups from `startIndex` on. -/
def skipDividers : List (TimelineGroup J) → ℕ → ℕ
  | [], startIndex => startIndex
  | group :: groups, startIndex =>
    if isBetweenTurnDivider group then skipDividers groups (startIndex + 1) else startIndex

def foldStart (groups : List (TimelineGroup J)) (turnId : Option String) : ℕ :=
  let (startIndex, stoppedAtForeignTurn) := walkBack groups turnId groups.length
  if stoppedAtForeignTurn then skipDividers (groups.drop startIndex) startIndex else startIndex

def extractFinalAgentMessage (groups : List (TimelineGroup J)) (turnEnd : TurnEndItem) : Option (TimelineGroup J) :=
  match groups.getLast? with
  | some (.item (.agentMessage message)) =>
    if message.streaming then none
    else if truthy message.turnId && truthy turnEnd.turnId && decide (message.turnId ≠ turnEnd.turnId) then none
    else some (.item (.agentMessage message))
  | _ => none

def groupStartedAt : TimelineGroup J → Option String
  | .item item => some item.occurredAt
  | .activity group => group.items.head?.map ActivityItem.occurredAt
  | .turn _ _ _ startedAt _ _ => some startedAt

/-- `groups.splice(start, deleteCount, ...inserted)`. -/
def splice (groups : List (TimelineGroup J)) (start deleteCount : ℕ)
    (inserted : List (TimelineGroup J)) : List (TimelineGroup J) :=
  groups.take start ++ inserted ++ groups.drop (start + deleteCount)

def turnGroup (turnEnd : TurnEndItem) (body : List (TimelineGroup J)) : TimelineGroup J :=
  .turn ("turn-" ++ turnEnd.turnId.getD turnEnd.id) turnEnd.outcome
    (if truthy turnEnd.failureText then turnEnd.failureText else none)
    ((body.head?.bind groupStartedAt).getD turnEnd.occurredAt) turnEnd.occurredAt body

/-- The groups that go behind the turn: the collected ones, the final message apart. -/
def foldBody (collected : List (TimelineGroup J)) (finalMessage : Option (TimelineGroup J)) :
    List (TimelineGroup J) :=
  if finalMessage.isSome then collected.dropLast else collected

def foldSettledTurn (groups : List (TimelineGroup J)) (turnEnd : TurnEndItem) : List (TimelineGroup J) :=
  let startIndex := foldStart groups turnEnd.turnId
  let collected := groups.drop startIndex
  let finalMessage := extractFinalAgentMessage collected turnEnd
  let body := foldBody collected finalMessage
  -- Nothing is folded behind a turn without a body, also where nothing was collected.
  if collected.length = 0 then groups
  else if body.length = 0 then groups
  else splice groups startIndex collected.length (turnGroup turnEnd body :: finalMessage.toList)

/-! ## The pass -/

/-- The loop body of `groupTimeline`. -/
def groupItem (groups : List (TimelineGroup J)) (item : TimelineItem J) : List (TimelineGroup J) := match item with
  | .activity activity => pushActivity groups activity
  | .turnEnd turnEnd => foldSettledTurn (stampTurnOutcome groups turnEnd) turnEnd
  | _ => groups ++ [.item item]

def groupTimeline (items : List (TimelineItem J)) : List (TimelineGroup J) := items.foldl groupItem []

/-! ## What is kept -/

variable {groups : List (TimelineGroup J)} {group final : TimelineGroup J}
  {turnEnd : TurnEndItem} {item : ActivityItem J}

theorem flattenGroups_dropLast (h : groups.getLast? = some group) :
    flattenGroups groups = flattenGroups groups.dropLast ++ group.flatten := by
  rw [← flattenGroups_concat, List.dropLast_append_getLast? group h]

theorem flattenGroups_pushActivity :
    flattenGroups (pushActivity groups item) = flattenGroups groups ++ [.activity item] := by
  have hnew : flattenGroups (groups ++ [newActivity item]) = flattenGroups groups ++ [.activity item] :=
    flattenGroups_concat
  unfold pushActivity
  split
  · next tail htail =>
      split_ifs with hopen
      · rw [flattenGroups_concat, flattenGroups_dropLast htail]
        simp [TimelineGroup.flatten]
      · exact hnew
  · exact hnew

theorem applyTurnOutcome_items (g : ActivityGroup J) : (applyTurnOutcome g turnEnd).items = g.items := by
  unfold applyTurnOutcome
  dsimp only
  split_ifs <;> rfl

theorem stampGroup_flatten : (stampGroup turnEnd group).flatten = group.flatten := by
  unfold stampGroup
  split
  · next g =>
      split_ifs
      · rfl
      · simp [TimelineGroup.flatten, applyTurnOutcome_items]
      · rfl
  · rfl

theorem flattenGroups_stampTurnOutcome :
    flattenGroups (stampTurnOutcome groups turnEnd) = flattenGroups groups := by
  unfold stampTurnOutcome
  split_ifs with hturn
  · split
    · next trailing htrailing =>
        split_ifs
        · rw [flattenGroups_concat, flattenGroups_dropLast htrailing]
          simp [TimelineGroup.flatten, applyTurnOutcome_items]
        · rfl
    · rfl
  · apply flattenGroups_map
    intro group hgroup
    exact stampGroup_flatten

theorem getLast?_of_extractFinalAgentMessage (h : extractFinalAgentMessage groups turnEnd = some final) :
    groups.getLast? = some final := by
  unfold extractFinalAgentMessage at h
  split at h
  · next message hlast =>
      split_ifs at h
      rw [hlast, h]
  · simp at h

theorem flattenGroups_inserted (collected : List (TimelineGroup J)) (turnEnd : TurnEndItem) :
    flattenGroups (turnGroup turnEnd (foldBody collected (extractFinalAgentMessage collected turnEnd))
        :: (extractFinalAgentMessage collected turnEnd).toList) = flattenGroups collected := by
  rw [flattenGroups, turnGroup, TimelineGroup.flatten]
  cases hfinal : extractFinalAgentMessage collected turnEnd with
  | none => simp [flattenGroups, foldBody]
  | some final =>
    have hlast := getLast?_of_extractFinalAgentMessage hfinal
    rw [flattenGroups_dropLast hlast]
    simp [flattenGroups, foldBody]

theorem flattenGroups_foldSettledTurn : flattenGroups (foldSettledTurn groups turnEnd) = flattenGroups groups := by
  unfold foldSettledTurn
  dsimp only
  generalize foldStart groups turnEnd.turnId = startIndex
  split_ifs
  · rfl
  · rfl
  · -- The splice reaches to the end of the list, wherever it starts.
    have htail : groups.drop (startIndex + (groups.drop startIndex).length) = [] := by
      rw [List.drop_eq_nil_iff, List.length_drop]
      omega
    unfold splice
    rw [htail, List.append_nil, flattenGroups_append, flattenGroups_inserted,
      ← flattenGroups_append, List.take_append_drop]

theorem flattenGroups_groupItem (groups : List (TimelineGroup J)) (item : TimelineItem J) :
    flattenGroups (groupItem groups item) = flattenGroups groups ++ [item].filter fun i => !i.isTurnEnd := by
  cases item with
  | activity activity => exact flattenGroups_pushActivity
  | turnEnd turnEnd =>
    have hnone : [TimelineItem.turnEnd (J := J) turnEnd].filter (fun i => !i.isTurnEnd) = [] := rfl
    rw [hnone, List.append_nil]
    unfold groupItem
    rw [flattenGroups_foldSettledTurn, flattenGroups_stampTurnOutcome]
  | _ => exact flattenGroups_concat

/-- **The groups hold the items**, all but the ends of turns, in their order. -/
theorem flatten_groupTimeline (items : List (TimelineItem J)) :
    flattenGroups (groupTimeline items) = items.filter fun item => !item.isTurnEnd := by
  -- Induction from the right: the last item is grouped last.
  induction items using List.reverseRecOn with
  | nil => rfl
  | append_singleton items item ih =>
    have hstep : groupTimeline (items ++ [item]) = groupItem (groupTimeline items) item := by
      unfold groupTimeline
      rw [List.foldl_append]
      rfl
    rw [hstep, flattenGroups_groupItem, ih, List.filter_append]

end OpenGeni.React
