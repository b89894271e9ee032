/-
The writers of a workspace's memory.

A transaction reads committed rows, each statement at its own moment, and what it writes counts
from its commit on. Its reads are steps, therefore, and so is its commit, with all of its writes.
The unique index on the hashes of the visible rows is checked at the statement that writes; a
writer that finds the same hash uncommitted waits, so it is the committed rows that decide. A
transaction that stops or throws has written nothing.

Corrections are no writers of their own: one with a replacement is a save, one without archives.
Whether two vectors are close is the embedder's, so the nearest row of a save is the event's datum.
-/
import OpenGeni.Lib.Run
import OpenGeni.Memory.MemoryText

namespace OpenGeni.Memory

open OpenGeni.Lib

/-! ## Rows -/

inductive KnowledgeMemoryStatus
  | proposed
  | approved
  | rejected
  | active
  | superseded
  | archived
deriving DecidableEq

/-- `AGENT_VISIBLE_MEMORY_STATUSES`. -/
def KnowledgeMemoryStatus.visible : KnowledgeMemoryStatus → Bool
  | .active | .approved => true
  | _ => false

structure KnowledgeMemory where
  status : KnowledgeMemoryStatus
  text : CodeUnits
  textHash : String
  supersedesId : Option ℕ
  supersededById : Option ℕ
deriving DecidableEq

def KnowledgeMemory.visible (row : KnowledgeMemory) : Bool := row.status.visible

def visibleHashes (rows : List KnowledgeMemory) : List String := (rows.filter (·.visible)).map (·.textHash)

/-- `knowledge_memories_workspace_visible_text_hash_uq`. -/
def UniqueHashes (rows : List KnowledgeMemory) : Prop := (visibleHashes rows).Nodup

instance (rows : List KnowledgeMemory) : Decidable (UniqueHashes rows) := inferInstanceAs (Decidable (List.Nodup _))

def countVisible (rows : List KnowledgeMemory) : ℕ := rows.countP (·.visible)

def countOthers (id : Option ℕ) (rows : List KnowledgeMemory) : ℕ := match id with
  | none => countVisible rows
  | some id => countVisible (rows.eraseIdx id)

/-- The visible row with the hash, unless it is the one left out. -/
def findVisibleMemoryByTextHash (textHash : String) (excludeId : Option ℕ) (rows : List KnowledgeMemory) :
    Option ℕ :=
  (List.range rows.length).find? fun id =>
    rows[id]?.any (fun row => row.visible && row.textHash == textHash) && excludeId != some id

/-! ## Transactions -/

inductive DedupeReason
  | exact
  | near
deriving DecidableEq

inductive SaveStage
  | matching
  | comparing
  | counting
  | inserting (effectiveVisibleCount : ℕ)
  | losing
  /-- `dedupeToExisting`. -/
  | deduping (row : ℕ) (reason : DedupeReason)
  | done
deriving DecidableEq

/-- A `saveWorkspaceMemory` that is past its reads of the row it replaces. -/
structure Save where
  text : CodeUnits
  textHash : String
  replacesId : Option ℕ
  replacesVisible : Bool
  stage : SaveStage

inductive UpdateStage
  | counting
  | checking (visibleCount : ℕ)
  /-- The update is next. `none`: the row will not be visible. -/
  | updating (visibleCount : Option ℕ)
  | done
deriving DecidableEq

/-- An `updateKnowledgeMemory` that has read its row. -/
structure Update where
  memoryId : ℕ
  status : Option KnowledgeMemoryStatus
  existing : KnowledgeMemory
  textUpdate : Option CodeUnits
  stage : UpdateStage

structure WorkspaceMemory where
  rows : List KnowledgeMemory
  saves : List Save
  updates : List Update

def writableText (raw : CodeUnits) : Option CodeUnits := let text := (sanitizeMemoryText raw).1
  if text = [] ∨ isMemoryTextTooLong text = true then none else some text

def KnowledgeMemory.supersededBy (row : KnowledgeMemory) (id : ℕ) : KnowledgeMemory :=
  { row with status := .superseded, supersededById := some id }

namespace WorkspaceMemory

def empty : WorkspaceMemory := { rows := [], saves := [], updates := [] }

inductive Event
  /-- `createKnowledgeMemory`. -/
  | create (text : CodeUnits) (status : KnowledgeMemoryStatus)
  /-- `correctWorkspaceMemory` without a replacement. -/
  | archive (id : ℕ)
  | save (text : CodeUnits) (replacesId : Option ℕ)
  | findExact (index : ℕ)
  | findNear (index : ℕ) (nearest : Option ℕ)
  | countSave (index : ℕ)
  | commitSave (index : ℕ)
  | findWinner (index : ℕ)
  | update (id : ℕ) (status : Option KnowledgeMemoryStatus) (text : Option CodeUnits)
  | countUpdate (index : ℕ)
  | findDuplicate (index : ℕ)
  | commitUpdate (index : ℕ)

def setSave (index : ℕ) (save : Save) (s : WorkspaceMemory) : WorkspaceMemory :=
  { s with saves := s.saves.set index save }

def setUpdate (index : ℕ) (update : Update) (s : WorkspaceMemory) : WorkspaceMemory :=
  { s with updates := s.updates.set index update }

def rewrite (platform : Platform) (text : CodeUnits) (row : KnowledgeMemory) : KnowledgeMemory :=
  { row with text, textHash := hashMemoryText platform text }

def insertedRow (save : Save) : KnowledgeMemory :=
  { status := .active, text := save.text, textHash := save.textHash, supersedesId := save.replacesId
    supersededById := none }

def commitInsert (save : Save) (rows : List KnowledgeMemory) : List KnowledgeMemory := match save.replacesId with
  | none => rows ++ [insertedRow save]
  | some id => (rows.modify id fun row => row.supersededBy rows.length) ++ [insertedRow save]

/-- `dedupeToExisting`: the rows afterwards, `none` if the index refuses the text. -/
def commitDedupe (save : Save) (existing : ℕ) (rows : List KnowledgeMemory) : Option (List KnowledgeMemory) :=
  match save.replacesId with
  | none => some rows
  | some id =>
    if id = existing then
      let rows := rows.modify id fun row => { row with text := save.text, textHash := save.textHash }
      if UniqueHashes rows then some rows else none
    else some (rows.modify id fun row => row.supersededBy existing)

def updatedRow (platform : Platform) (update : Update) (row : KnowledgeMemory) : KnowledgeMemory :=
  let row := { row with status := update.status.getD row.status }
  update.textUpdate.elim row fun text => rewrite platform text row

def step (platform : Platform) (s : WorkspaceMemory) : Event → Option WorkspaceMemory
  | .create text status =>
    let text := trimUnits text
    let row : KnowledgeMemory :=
      { status, text, textHash := hashMemoryText platform text, supersedesId := none, supersededById := none }
    if text = [] then some s
    else if UniqueHashes (s.rows ++ [row]) then some { s with rows := s.rows ++ [row] }
    else some s
  | .archive id => some { s with rows := s.rows.modify id fun row => { row with status := .archived } }
  | .save raw replacesId =>
    match writableText raw with
    | none => some s
    | some text =>
      let save : Save :=
        { text, textHash := hashMemoryText platform text, replacesId, replacesVisible := false, stage := .matching }
      match replacesId with
      | none => some { s with saves := s.saves ++ [save] }
      | some id =>
        match s.rows[id]? with
        | none => some s
        | some row => some { s with saves := s.saves ++ [{ save with replacesVisible := row.visible }] }
  | .findExact index => do
    let save ← s.saves[index]?
    if save.stage ≠ .matching then none
    else
      let exact := (findVisibleMemoryByTextHash save.textHash save.replacesId s.rows).or
        (findVisibleMemoryByTextHash save.textHash none s.rows)
      match exact with
      | some row => some (s.setSave index { save with stage := .deduping row .exact })
      | none => some (s.setSave index { save with stage := .comparing })
  | .findNear index nearest => do
    let save ← s.saves[index]?
    if save.stage ≠ .comparing then none
    else
      match nearest with
      | none => some (s.setSave index { save with stage := .counting })
      | some row =>
        if s.rows[row]?.any (·.visible) then some (s.setSave index { save with stage := .deduping row .near })
        else none
  | .countSave index => do
    let save ← s.saves[index]?
    if save.stage ≠ .counting then none
    else
      let effectiveVisibleCount := countVisible s.rows - if save.replacesVisible then 1 else 0
      if MEMORY_VISIBLE_RECORD_CAP ≤ effectiveVisibleCount then some (s.setSave index { save with stage := .done })
      else some (s.setSave index { save with stage := .inserting effectiveVisibleCount })
  | .commitSave index => do
    let save ← s.saves[index]?
    match save.stage with
    | .inserting _ =>
      if UniqueHashes (s.rows ++ [insertedRow save]) then
        some ({ s with rows := commitInsert save s.rows }.setSave index { save with stage := .done })
      else some (s.setSave index { save with stage := .losing })
    | .deduping existing _ =>
      match commitDedupe save existing s.rows with
      | some rows => some ({ s with rows }.setSave index { save with stage := .done })
      | none => some (s.setSave index { save with stage := .done })
    | _ => none
  | .findWinner index => do
    let save ← s.saves[index]?
    if save.stage ≠ .losing then none
    else
      match findVisibleMemoryByTextHash save.textHash none s.rows with
      | some row => some (s.setSave index { save with stage := .deduping row .exact })
      | none => some (s.setSave index { save with stage := .done })
  | .update memoryId status raw =>
    let textUpdate := raw.bind writableText
    if raw.isSome ∧ textUpdate = none then some s
    else
      match s.rows[memoryId]? with
      | none => some s
      | some existing =>
        let stage := if (status.getD existing.status).visible then .counting else .updating none
        some { s with updates := s.updates ++ [{ memoryId, status, existing, textUpdate, stage }] }
  | .countUpdate index => do
    let update ← s.updates[index]?
    if update.stage ≠ .counting then none
    else
      let visibleCount := countOthers (some update.memoryId) s.rows
      if MEMORY_VISIBLE_RECORD_CAP ≤ visibleCount then some (s.setUpdate index { update with stage := .done })
      else if update.existing.visible then
        some (s.setUpdate index { update with stage := .updating (some visibleCount) })
      else
        -- a row that becomes visible is sanitized, if the update does not bring its own text
        match update.textUpdate.or (writableText update.existing.text) with
        | none => some (s.setUpdate index { update with stage := .done })
        | some text =>
          some (s.setUpdate index { update with textUpdate := some text, stage := .checking visibleCount })
  | .findDuplicate index => do
    let update ← s.updates[index]?
    match update.stage with
    | .checking visibleCount =>
      let nextTextHash := (update.textUpdate.map (hashMemoryText platform)).getD update.existing.textHash
      match findVisibleMemoryByTextHash nextTextHash (some update.memoryId) s.rows with
      | some _ => some (s.setUpdate index { update with stage := .done })
      | none => some (s.setUpdate index { update with stage := .updating (some visibleCount) })
    | _ => none
  | .commitUpdate index => do
    let update ← s.updates[index]?
    match update.stage with
    | .updating _ =>
      let rows := s.rows.modify update.memoryId (updatedRow platform update)
      if UniqueHashes rows then
        some ({ s with rows }.setUpdate index { update with stage := .done })
      else some (s.setUpdate index { update with stage := .done })
    | _ => none

end WorkspaceMemory

end OpenGeni.Memory
