/-
The chunks of a document and the runs that index it.

A run of `indexDocumentNow` marks the document, reads the content of its file, and replaces the
chunks in one transaction: a delete, an insert and the update of the document. The API process
runs it as it is, each of its writes in a transaction of its own. The worker runs it inside one
transaction that has taken the advisory lock of the workspace, so that its writes are seen
together at the end and no other run of a worker is between.

At READ COMMITTED a delete finds the chunks that were committed when it started. It waits for
the rows that another run has deleted, and passes over those that are gone by then; chunks that
were committed meanwhile it does not see. An insert waits for an uncommitted chunk with the same
index, and fails at a committed one. Whoever has written the row of the document, or refers to
it with a new chunk, keeps others from writing or deleting it.
-/
import OpenGeni.Lib.Run
import OpenGeni.Lib.Slots

namespace OpenGeni.Documents

open OpenGeni.Lib

/-! ## The rows -/

inductive DocumentStatus
  | queued
  | indexing
  | ready
  | failed
deriving DecidableEq

structure DocumentRow where
  status : DocumentStatus
  chunkCount : ℕ
deriving DecidableEq

/-- A chunk, with the run that has made it and the version of the content it was made from. -/
structure ChunkRow (V : Type*) where
  run : ℕ
  version : V
  chunkIndex : ℕ
  text : String
deriving DecidableEq

/-- Where a run stands. From the delete on it has a transaction open. -/
inductive Stage (V : Type*)
  | begun
  | found
  | indexing
  | fetched (version : V)
  /-- The delete has started and found these chunks. -/
  | deleting (version : V) (found : List (ChunkRow V))
  | deleted (version : V) (rows : List (ChunkRow V))
  | inserted (version : V) (rows : List (ChunkRow V))
  | updated (version : V) (rows : List (ChunkRow V))
  /-- It has thrown: the transaction is rolled back, and the failure is to be written. -/
  | failing

structure IndexRun (V : Type*) where
  /-- It runs in a worker, under the lock of the workspace. -/
  locked : Bool
  stage : Stage V

structure IndexState (V : Type*) where
  content : V
  document : Option DocumentRow
  chunks : List (ChunkRow V)
  runs : Slots ℕ (IndexRun V)
  /-- The number of runs that were started; runs are numbered by it. -/
  started : ℕ
  succeeded : List ℕ
  /-- The runs that have marked the document failed, with those that had succeeded before. -/
  failures : List (ℕ × List ℕ)

inductive IndexEvent (V : Type*)
  | indexDocumentNow (locked : Bool)
  /-- The next step of a run. What it calls may fail. -/
  | advance (i : ℕ) (succeeds : Bool)
  /-- The process of the run is gone; what it has not committed is rolled back. -/
  | stop (i : ℕ)
  | queueDocumentForReindex
  | deleteDocument
  | write (version : V)

variable {V : Type*}

def Stage.deletedRows : Stage V → List (ChunkRow V)
  | .deleted _ rows => rows
  | .inserted _ rows => rows
  | .updated _ rows => rows
  | _ => []

def Stage.insertedVersion : Stage V → Option V
  | .inserted version _ => some version
  | .updated version _ => some version
  | _ => none

def IndexRun.holdsDocument (run : IndexRun V) : Bool := match run.stage with
  | .updated _ _ => true
  | .begun => false
  | .found => false
  | _ => run.locked

section

variable (chunksOf : V → List String)

def rowsOf (run : ℕ) (version : V) : List (ChunkRow V) :=
  (chunksOf version).mapIdx fun chunkIndex text => { run, version, chunkIndex, text }

def Stage.hasInserted (stage : Stage V) : Bool := stage.insertedVersion.any fun version => chunksOf version ≠ []

namespace IndexState

def others (s : IndexState V) (i : ℕ) : List (IndexRun V) := (s.runs.drop i).map Prod.snd

def put (s : IndexState V) (i : ℕ) (run : IndexRun V) : IndexState V := { s with runs := s.runs.put i run }

def documentHeld (s : IndexState V) (i : ℕ) : Bool := (s.others i).any IndexRun.holdsDocument

variable [DecidableEq V]

def chunksHeld (s : IndexState V) (i : ℕ) (rows : List (ChunkRow V)) : Bool :=
  (s.others i).any fun run => run.stage.deletedRows.any fun row => rows.contains row && s.chunks.contains row

def remaining (s : IndexState V) (rows : List (ChunkRow V)) : List (ChunkRow V) :=
  s.chunks.filter fun row => !rows.contains row

def commit (s : IndexState V) (i : ℕ) (version : V) (rows : List (ChunkRow V)) : IndexState V := { s with
    chunks := s.remaining rows ++ rowsOf chunksOf i version
    document := s.document.map fun _ => { status := .ready, chunkCount := (chunksOf version).length }
    runs := s.runs.drop i
    succeeded := if s.document.isSome then i :: s.succeeded else s.succeeded }

/-- The insert of the chunks, for a run that has chunks to insert. -/
def insert (s : IndexState V) (i : ℕ) (run : IndexRun V) (version : V) (rows : List (ChunkRow V)) :
    Option (IndexState V) :=
  -- the committed chunks with an index that it needs
  let conflicts := (s.remaining rows).filter fun row => row.chunkIndex < (chunksOf version).length
  if (s.others i).any fun other => other.stage.hasInserted chunksOf then
    none
  else if s.chunksHeld i conflicts then
    none
  else if s.document.isNone ∨ conflicts ≠ [] then
    some (s.put i { run with stage := .failing })
  else
    some (s.put i { run with stage := .inserted version rows })

def advance (s : IndexState V) (i : ℕ) (succeeds : Bool) (run : IndexRun V) : Option (IndexState V) :=
  let next (stage : Stage V) := s.put i { run with stage }
  match run.stage with
  | .begun =>
    -- the document or its file is not there
    if s.document.isNone ∨ succeeds = false then some { s with runs := s.runs.drop i } else some (next .found)
  | .found =>
    if s.documentHeld i then
      none
    else if run.locked then
      some (next .indexing)
    else
      some { next .indexing with document := s.document.map fun row => { row with status := .indexing } }
  | .indexing => if succeeds then some (next (.fetched s.content)) else some (next .failing)
  | .fetched version => if succeeds then some (next (.deleting version s.chunks)) else some (next .failing)
  | .deleting version found =>
    if s.chunksHeld i found then
      none
    else
      some (next (.deleted version (s.chunks.filter found.contains)))
  | .deleted version rows =>
    if succeeds = false then
      some (next .failing)
    else if chunksOf version = [] then
      some (next (.inserted version rows))
    else
      s.insert chunksOf i run version rows
  | .inserted version rows =>
    if succeeds = false then
      some (next .failing)
    else if s.documentHeld i then
      none
    else
      some (next (.updated version rows))
  | .updated version rows => some (s.commit chunksOf i version rows)
  | .failing =>
    if s.documentHeld i then
      none
    else
      some { s with
          document := s.document.map fun row => { row with status := .failed }
          runs := s.runs.drop i
          failures := if s.document.isSome then (i, s.succeeded) :: s.failures else s.failures }

def step (s : IndexState V) : IndexEvent V → Option (IndexState V)
  | .indexDocumentNow locked =>
    if locked && s.runs.any fun e => e.2.locked then
      none
    else
      some { s.put s.started { locked, stage := .begun } with started := s.started + 1 }
  | .advance i succeeds => (s.runs.get i).bind (s.advance chunksOf i succeeds)
  | .stop i => some { s with runs := s.runs.drop i }
  | .queueDocumentForReindex =>
    if s.runs.any fun e => e.2.holdsDocument then
      none
    else
      some { s with document := s.document.map fun row => { row with status := .queued } }
  | .deleteDocument =>
    if s.runs.any fun e => e.2.holdsDocument || e.2.stage.hasInserted chunksOf then
      none
    else
      -- the chunks go with the document
      some { s with document := none, chunks := [] }
  | .write version => some { s with content := version }

end IndexState

variable [DecidableEq V]

def indexSteps (s : IndexState V) (e : IndexEvent V) (s' : IndexState V) : Prop := s.step chunksOf e = some s'

def IndexState.added (content : V) : IndexState V where
  content := content
  document := some { status := .queued, chunkCount := 0 }
  chunks := []
  runs := []
  started := 0
  succeeded := []
  failures := []

/-! ## What a ready document has -/

structure IndexState.Consistent (s : IndexState V) : Prop where
  /-- The chunks of a ready document are those of one run, made from one version of the content. -/
  ready : ∀ row, s.document = some row → row.status = .ready →
    ∃ run version, s.chunks = rowsOf chunksOf run version ∧ row.chunkCount = (chunksOf version).length
  /-- No run has marked the document failed after a later one has succeeded. -/
  failed : ∀ failure ∈ s.failures, ∀ run ∈ failure.2, run < failure.1

/-- A run with no chunks finds at its commit no chunks but those that its delete has found; and a
run writes its failure before a later run has succeeded. -/
def Undisturbed (s : IndexState V) : IndexEvent V → Prop
  | .advance i _ => ∀ run ∈ s.runs.get i, ∀ row ∈ s.document,
      (∀ version rows, run.stage = .updated version rows → chunksOf version = [] → s.remaining rows = []) ∧
        (run.stage = .failing → ∀ j ∈ s.succeeded, j < i)
  | _ => True

/-! ## The invariant -/

def IndexState.Committed (s : IndexState V) (row : ChunkRow V) : Prop :=
  row.run < s.started ∧ s.runs.get row.run = none

/-- The chunks that a run has found or deleted are all of the committed ones, or none. -/
def IndexState.Taken (s : IndexState V) (rows : List (ChunkRow V)) : Prop :=
  (∀ row ∈ rows, s.Committed row) ∧ ((∀ row ∈ s.chunks, row ∈ rows) ∨ ∀ row ∈ s.chunks, row ∉ rows)

def Stage.Relies (s : IndexState V) : Stage V → Prop
  | .deleting _ rows => s.Taken rows
  | .deleted _ rows => s.Taken rows
  | .inserted version rows => s.Taken rows ∧ (chunksOf version ≠ [] → s.remaining rows = [] ∧ s.document.isSome)
  | .updated version rows => s.Taken rows ∧ (chunksOf version ≠ [] → s.remaining rows = [] ∧ s.document.isSome)
  | _ => True

structure IndexState.Sound (s : IndexState V) : Prop where
  consistent : s.Consistent chunksOf
  whole : s.chunks = [] ∨ ∃ run version, s.chunks = rowsOf chunksOf run version
  gone : s.document = none → s.chunks = []
  committed : ∀ row ∈ s.chunks, s.Committed row
  started : ∀ i run, s.runs.get i = some run → i < s.started
  runs : ∀ i run, s.runs.get i = some run → run.stage.Relies chunksOf s
  apart : ∀ i j run other, s.runs.get i = some run → s.runs.get j = some other →
    run.stage.hasInserted chunksOf → other.stage.hasInserted chunksOf → i = j

variable {chunksOf} {s s' : IndexState V} {i j : ℕ} {run run' : IndexRun V} {version : V} {rows : List (ChunkRow V)}

omit [DecidableEq V] in
theorem mem_rowsOf {row : ChunkRow V} (h : row ∈ rowsOf chunksOf i version) : row.run = i := by
  obtain ⟨index, hindex, rfl⟩ := List.mem_mapIdx.1 h
  rfl

omit [DecidableEq V] in
theorem rowsOf_eq_nil : rowsOf chunksOf i version = [] ↔ chunksOf version = [] := List.mapIdx_eq_nil_iff

omit [DecidableEq V] in
theorem exists_first (h : rowsOf chunksOf i version ≠ []) : ∃ row ∈ rowsOf chunksOf i version, row.chunkIndex = 0 := by
  have hpos : 0 < (chunksOf version).length := List.length_pos_iff.2 (mt rowsOf_eq_nil.2 h)
  exact ⟨_, List.mem_mapIdx.2 ⟨0, hpos, rfl⟩, rfl⟩

theorem IndexState.remaining_eq_nil : s.remaining rows = [] ↔ ∀ row ∈ s.chunks, row ∈ rows := by
  simp [IndexState.remaining]

theorem IndexState.remaining_of_none (h : ∀ row ∈ s.chunks, row ∉ rows) : s.remaining rows = s.chunks := by
  rw [IndexState.remaining, List.filter_eq_self]
  simpa using h

/-! ## What a step leaves to the others -/

/-- A step after which the runs that have ended are still ended, and every chunk is one from before or of a
run that was open. -/
structure IndexState.Keeps (s s' : IndexState V) : Prop where
  started : s.started ≤ s'.started
  ended : ∀ j, j < s.started → s.runs.get j = none → s'.runs.get j = none
  chunks : s'.chunks = [] ∨ s'.chunks = s.chunks ∨ ∀ row ∈ s'.chunks, s.runs.get row.run ≠ none

omit [DecidableEq V] in
theorem IndexState.Committed.mono (hk : s.Keeps s') {row : ChunkRow V} (h : s.Committed row) : s'.Committed row :=
  ⟨h.1.trans_le hk.started, hk.ended row.run h.1 h.2⟩

omit [DecidableEq V] in
theorem IndexState.Taken.mono (hk : s.Keeps s') (h : s.Taken rows) : s'.Taken rows := by
  refine ⟨fun row hrow => (h.1 row hrow).mono hk, ?_⟩
  obtain hnil | hsame | hopen := hk.chunks
  · rw [hnil]
    exact .inl fun row hrow => absurd hrow List.not_mem_nil
  · rw [hsame]
    exact h.2
  · -- the chunks are those of a run that was open
    exact .inr fun row hrow hmem => hopen row hrow (h.1 row hmem).2

/-- A run that has inserted chunks finds the same chunks to delete, or fewer, and the document. -/
def IndexState.Holds (s s' : IndexState V) : Prop :=
  (∀ row ∈ s'.chunks, row ∈ s.chunks) ∧ (s.document.isSome → s'.document.isSome)

theorem Stage.Relies.mono {stage : Stage V} (hk : s.Keeps s') (hholds : stage.hasInserted chunksOf → s.Holds s')
    (h : stage.Relies chunksOf s) : stage.Relies chunksOf s' := by
  have hinserted (version : V) (rows : List (ChunkRow V)) (hstage : stage.insertedVersion = some version)
      (hrelies : s.Taken rows ∧ (chunksOf version ≠ [] → s.remaining rows = [] ∧ s.document.isSome)) :
      s'.Taken rows ∧ (chunksOf version ≠ [] → s'.remaining rows = [] ∧ s'.document.isSome) := by
    refine ⟨hrelies.1.mono hk, fun hne => ?_⟩
    have hheld : s.Holds s' := hholds (by simp [Stage.hasInserted, hstage, hne])
    obtain ⟨hnil, hdocument⟩ := hrelies.2 hne
    refine ⟨IndexState.remaining_eq_nil.2 fun row hrow => ?_, hheld.2 hdocument⟩
    exact IndexState.remaining_eq_nil.1 hnil row (hheld.1 row hrow)
  cases stage with
  | deleting | deleted => exact IndexState.Taken.mono hk h
  | inserted version rows => exact hinserted version rows rfl h
  | updated version rows => exact hinserted version rows rfl h
  | _ => trivial

theorem IndexState.Sound.next (h : s.Sound chunksOf) (hk : s.Keeps s') (hcons : s'.Consistent chunksOf)
    (hwhole : s'.chunks = [] ∨ ∃ run version, s'.chunks = rowsOf chunksOf run version)
    (hgone : s'.document = none → s'.chunks = []) (hcommitted : ∀ row ∈ s'.chunks, s'.Committed row)
    (hruns : ∀ j run, s'.runs.get j = some run →
      s.runs.get j = some run ∧ (run.stage.hasInserted chunksOf → s.Holds s')) : s'.Sound chunksOf where
  consistent := hcons
  whole := hwhole
  gone := hgone
  committed := hcommitted
  started j run hj := (h.started j run (hruns j run hj).1).trans_le hk.started
  runs j run hj := (h.runs j run (hruns j run hj).1).mono hk (hruns j run hj).2
  apart j k run other hj hk' := h.apart j k run other (hruns j run hj).1 (hruns k other hk').1

/-- **One run moves.** The others keep what they rely on. -/
theorem IndexState.Sound.put {n : ℕ} (h : s.Sound chunksOf) (hle : s.started ≤ n) (hi : i < n)
    (hnew : s.started ≤ i ∨ s.runs.get i ≠ none) (hrelies : run.stage.Relies chunksOf s)
    (hfree : run.stage.hasInserted chunksOf → ∀ j other, j ≠ i → s.runs.get j = some other →
      other.stage.hasInserted chunksOf = false) :
    ({ s.put i run with started := n } : IndexState V).Sound chunksOf := by
  have hk : s.Keeps { s.put i run with started := n } := by
    refine ⟨hle, fun j hj hnone => ?_, .inr (.inl rfl)⟩
    have hne : j ≠ i := by
      rintro rfl
      obtain hge | hopen := hnew
      · omega
      · exact hopen hnone
    exact (Slots.get_put_of_ne hne).trans hnone
  have hmono {stage : Stage V} (hstage : stage.Relies chunksOf s) : stage.Relies chunksOf { s.put i run with started := n } :=
    hstage.mono hk fun _ => ⟨fun _ hrow => hrow, id⟩
  exact
    { consistent := ⟨h.consistent.ready, h.consistent.failed⟩, whole := h.whole, gone := h.gone
      committed := fun row hrow => (h.committed row hrow).mono hk
      started := by
        intro j other hj
        obtain ⟨rfl, -⟩ | ⟨-, hold⟩ := Slots.get_put_cases hj
        · exact hi
        · exact (h.started j other hold).trans_le hle
      runs := by
        intro j other hj
        obtain ⟨-, rfl⟩ | ⟨-, hold⟩ := Slots.get_put_cases hj
        · exact hmono hrelies
        · exact hmono (h.runs j other hold)
      apart := by
        intro j k other other' hj hk' hother hother'
        obtain ⟨hji, rfl⟩ | ⟨hji, hold⟩ := Slots.get_put_cases hj
        · obtain ⟨hki, -⟩ | ⟨hki, hold'⟩ := Slots.get_put_cases hk'
          · rw [hji, hki]
          · rw [hfree hother k other' hki hold'] at hother'
            cases hother'
        · obtain ⟨hki, rfl⟩ | ⟨hki, hold'⟩ := Slots.get_put_cases hk'
          · rw [hfree hother' j other hji hold] at hother
            cases hother
          · exact h.apart j k other other' hold hold' hother hother' }

theorem IndexState.Sound.stage {stage : Stage V} (h : s.Sound chunksOf) (hi : s.runs.get i = some run)
    (hrelies : stage.Relies chunksOf s)
    (hfree : stage.hasInserted chunksOf → ∀ j other, j ≠ i → s.runs.get j = some other →
      other.stage.hasInserted chunksOf = false) :
    (s.put i { run with stage }).Sound chunksOf :=
  h.put (le_refl _) (h.started i run hi) (.inr (by rw [hi]; exact Option.some_ne_none run)) hrelies hfree

theorem IndexState.Sound.write (h : s.Sound chunksOf) {document : Option DocumentRow} {content : V}
    {runs : Slots ℕ (IndexRun V)} {failures : List (ℕ × List ℕ)}
    (hdocument : ∀ row, document = some row → row.status = .ready → s.document = some row)
    (hthere : document.isSome = s.document.isSome)
    (hruns : ∀ j run, runs.get j = some run → s.runs.get j = some run)
    (hfailures : ∀ failure ∈ failures, ∀ run ∈ failure.2, run < failure.1) :
    ({ s with content, document, runs, failures } : IndexState V).Sound chunksOf := by
  have hended (j : ℕ) (hj : s.runs.get j = none) : runs.get j = none := by
    cases hget : runs.get j with
    | none => rfl
    | some run =>
      rw [hruns j run hget] at hj
      cases hj
  have hk : s.Keeps { s with content, document, runs, failures } := ⟨le_refl _, fun j _ => hended j, .inr (.inl rfl)⟩
  refine h.next hk ⟨fun row hrow hready => h.consistent.ready row (hdocument row hrow hready) hready, hfailures⟩ h.whole
    (fun hnone => h.gone ?_) (fun row hrow => (h.committed row hrow).mono hk)
    (fun j run hj => ⟨hruns j run hj, fun _ => ⟨fun _ hrow => hrow, fun hsome => hthere.trans hsome⟩⟩)
  rw [← Option.not_isSome_iff_eq_none, ← hthere]
  exact Option.not_isSome_iff_eq_none.2 hnone

/-! ## The transaction of a run -/

theorem IndexState.Sound.remaining_of_insert (h : s.Sound chunksOf) (htaken : s.Taken rows) (hne : chunksOf version ≠ [])
    (hfree : (s.remaining rows).filter (fun row => row.chunkIndex < (chunksOf version).length) = []) :
    s.remaining rows = [] := by
  obtain hall | hnone := htaken.2
  · exact IndexState.remaining_eq_nil.2 hall
  · rw [IndexState.remaining_of_none hnone] at hfree ⊢
    by_contra hchunks
    obtain hnil | ⟨j, v, hrows⟩ := h.whole
    · exact hchunks hnil
    · -- the first of the chunks that are there is in the way
      rw [hrows] at hchunks hfree
      obtain ⟨row, hrow, hindex⟩ := exists_first hchunks
      have hpos : 0 < (chunksOf version).length := List.length_pos_iff.2 hne
      exact List.filter_eq_nil_iff.1 hfree row hrow (by rw [hindex]; exact decide_eq_true hpos)

theorem IndexState.Sound.remaining_of_undisturbed {succeeds : Bool} (h : s.Sound chunksOf) (hi : s.runs.get i = some run)
    (hstage : run.stage = .updated version rows) (hok : Undisturbed chunksOf s (.advance i succeeds)) :
    s.remaining rows = [] := by
  have hrelies : (Stage.updated version rows).Relies chunksOf s := hstage ▸ h.runs i run hi
  by_cases hne : chunksOf version = []
  · cases hdocument : s.document with
    | none => rw [IndexState.remaining, h.gone hdocument, List.filter_nil]
    | some row => exact (hok run hi row hdocument).1 version rows hstage hne
  · exact (hrelies.2 hne).1

theorem IndexState.Sound.commit (h : s.Sound chunksOf) (hi : s.runs.get i = some run)
    (hstage : run.stage = .updated version rows) (hnil : s.remaining rows = []) :
    (s.commit chunksOf i version rows).Sound chunksOf := by
  have hchunks : (s.commit chunksOf i version rows).chunks = rowsOf chunksOf i version := by
    change s.remaining rows ++ _ = _
    rw [hnil, List.nil_append]
  have hrelies : (Stage.updated version rows).Relies chunksOf s := hstage ▸ h.runs i run hi
  have hended (j : ℕ) (hj : s.runs.get j = none) : (s.runs.drop i).get j = none := by
    by_cases hji : j = i
    · rw [hji, Slots.get_drop_self]
    · rw [Slots.get_drop_of_ne hji, hj]
  refine h.next ⟨le_refl _, fun j _ => hended j, .inr (.inr fun row hrow => ?_)⟩ ⟨fun row hrow _ => ?_, h.consistent.failed⟩
    (.inr ⟨i, version, hchunks⟩) (fun hnone => ?_) (fun row hrow => ?_) (fun j other hj => ?_)
  · rw [hchunks] at hrow
    rw [mem_rowsOf hrow, hi]
    exact Option.some_ne_none run
  · obtain ⟨row', -, rfl⟩ := Option.map_eq_some_iff.1 hrow
    exact ⟨i, version, hchunks, rfl⟩
  · -- with no document there are no chunks to insert
    rw [hchunks, rowsOf_eq_nil]
    by_contra hne
    have hsome := (hrelies.2 hne).2
    rw [Option.map_eq_none_iff.1 hnone] at hsome
    cases hsome
  · rw [hchunks] at hrow
    rw [IndexState.Committed, mem_rowsOf hrow]
    exact ⟨h.started i run hi, Slots.get_drop_self⟩
  · have hold := Slots.get_of_get_drop hj
    refine ⟨hold, fun hinserted => ⟨?_, fun hsome => (Option.isSome_map).trans hsome⟩⟩
    rw [hchunks]
    by_cases hne : chunksOf version = []
    · rw [rowsOf_eq_nil.2 hne]
      exact List.forall_mem_nil _
    · -- two runs that both have inserted chunks
      have hself : run.stage.hasInserted chunksOf := by simp [Stage.hasInserted, hstage, Stage.insertedVersion, hne]
      obtain rfl := h.apart i j run other hi hold hself hinserted
      have hgone : (s.runs.drop i).get i = some other := hj
      rw [Slots.get_drop_self] at hgone
      cases hgone

omit [DecidableEq V] in
theorem IndexState.free_of_not_any {p : IndexRun V → Bool} (h : ¬ (s.others i).any p) {other : IndexRun V} (hne : j ≠ i)
    (hj : s.runs.get j = some other) : p other = false := by
  have hmem : other ∈ s.others i := by
    have hdrop : (s.runs.drop i).get j = some other := (Slots.get_drop_of_ne hne).trans hj
    exact List.mem_map.2 ⟨(j, other), Slots.mem_of_get hdrop, rfl⟩
  rw [List.any_eq_true] at h
  exact Bool.eq_false_iff.2 fun hp => h ⟨other, hmem, hp⟩

theorem IndexState.Sound.plain {stage : Stage V} (h : s.Sound chunksOf) (hi : s.runs.get i = some run)
    (hrelies : stage.Relies chunksOf s) (hstage : stage.insertedVersion = none) : (s.put i { run with stage }).Sound chunksOf :=
  h.stage hi hrelies fun hinserted => by simp [Stage.hasInserted, hstage] at hinserted

theorem IndexState.Sound.insert (h : s.Sound chunksOf) (hi : s.runs.get i = some run) (htaken : s.Taken rows)
    (hne : chunksOf version ≠ []) (hstep : s.insert chunksOf i run version rows = some s') : s'.Sound chunksOf := by
  simp only [IndexState.insert] at hstep
  split_ifs at hstep with hinserted hheld hfails
  · cases hstep
    exact h.plain hi trivial rfl
  · cases hstep
    obtain ⟨hsome, hfree⟩ := not_or.1 hfails
    refine h.stage hi ⟨htaken, fun _ => ⟨h.remaining_of_insert htaken hne (not_not.1 hfree), ?_⟩⟩ ?_
    · exact Option.isSome_iff_ne_none.2 fun hnone => hsome (by rw [hnone]; rfl)
    · exact fun _ j other hji hj => IndexState.free_of_not_any hinserted hji hj

/-! ## The steps -/

theorem IndexState.Sound.mark {stage : Stage V} (h : s.Sound chunksOf) (hi : s.runs.get i = some run)
    {status : DocumentStatus} (hstatus : status ≠ .ready) (hrelies : stage.Relies chunksOf s)
    (hstage : stage.insertedVersion = none) :
    ({ s.put i { run with stage } with document := s.document.map fun row => { row with status } } : IndexState V).Sound
      chunksOf := by
  refine (h.plain hi hrelies hstage).write (fun row hrow hready => ?_) Option.isSome_map (fun _ _ => id) h.consistent.failed
  obtain ⟨row', -, rfl⟩ := Option.map_eq_some_iff.1 hrow
  exact absurd hready hstatus

theorem IndexState.Sound.drop (h : s.Sound chunksOf) (i : ℕ) : ({ s with runs := s.runs.drop i } : IndexState V).Sound chunksOf :=
  h.write (fun _ hrow _ => hrow) rfl (fun _ _ => Slots.get_of_get_drop) h.consistent.failed

theorem IndexState.Sound.advance {succeeds : Bool} (h : s.Sound chunksOf) (hi : s.runs.get i = some run)
    (hok : Undisturbed chunksOf s (.advance i succeeds)) (hstep : s.advance chunksOf i succeeds run = some s') :
    s'.Sound chunksOf := by
  have hrelies : run.stage.Relies chunksOf s := h.runs i run hi
  unfold IndexState.advance at hstep
  cases hstage : run.stage with
  | begun =>
    simp only [hstage] at hstep
    split_ifs at hstep
    · cases hstep
      exact h.drop i
    · cases hstep
      exact h.plain hi trivial rfl
  | found =>
    simp only [hstage] at hstep
    split_ifs at hstep
    · cases hstep
      exact h.plain hi trivial rfl
    · cases hstep
      exact h.mark hi DocumentStatus.noConfusion trivial rfl
  | indexing =>
    simp only [hstage] at hstep
    split_ifs at hstep
    · cases hstep
      exact h.plain hi trivial rfl
    · cases hstep
      exact h.plain hi trivial rfl
  | fetched version =>
    simp only [hstage] at hstep
    split_ifs at hstep
    · cases hstep
      exact h.plain hi ⟨h.committed, .inl fun _ hrow => hrow⟩ rfl
    · cases hstep
      exact h.plain hi trivial rfl
  | deleting version rows =>
    simp only [hstage] at hstep hrelies
    split_ifs at hstep
    cases hstep
    -- what is gone of the chunks that it has found, it passes over
    have htaken : s.Taken (s.chunks.filter rows.contains) := by
      refine ⟨fun row hrow => h.committed row (List.mem_of_mem_filter hrow), hrelies.2.imp ?_ ?_⟩
      · exact fun hall row hrow => List.mem_filter.2 ⟨hrow, List.contains_iff_mem.2 (hall row hrow)⟩
      · exact fun hnone row hrow hmem => hnone row hrow (List.contains_iff_mem.1 (List.mem_filter.1 hmem).2)
    exact h.plain hi htaken rfl
  | deleted version rows =>
    simp only [hstage] at hstep hrelies
    split_ifs at hstep with hthrows hnone
    · cases hstep
      exact h.plain hi trivial rfl
    · cases hstep
      refine h.stage hi ⟨hrelies, fun hne => absurd hnone hne⟩ fun hinserted => ?_
      simp [Stage.hasInserted, Stage.insertedVersion, hnone] at hinserted
    · exact h.insert hi hrelies hnone hstep
  | inserted version rows =>
    simp only [hstage] at hstep hrelies
    split_ifs at hstep
    · cases hstep
      exact h.plain hi trivial rfl
    · cases hstep
      refine h.stage hi hrelies fun hinserted j other hji hj => ?_
      by_contra hother
      have hself : run.stage.hasInserted chunksOf := hstage ▸ hinserted
      exact hji (h.apart i j run other hi hj hself (by simpa using hother)).symm
  | updated version rows =>
    simp only [hstage] at hstep
    cases hstep
    exact h.commit hi hstage (h.remaining_of_undisturbed hi hstage hok)
  | failing =>
    simp only [hstage] at hstep
    split_ifs at hstep with hheld hsome
    · cases hstep
      refine h.write (fun row hrow hready => ?_) Option.isSome_map (fun _ _ => Slots.get_of_get_drop) ?_
      · obtain ⟨row', -, rfl⟩ := Option.map_eq_some_iff.1 hrow
        cases hready
      · rintro failure (_ | ⟨_, hfailure⟩)
        · obtain ⟨row, hrow⟩ := Option.isSome_iff_exists.1 hsome
          exact (hok run hi row hrow).2 hstage
        · exact h.consistent.failed failure hfailure
    · cases hstep
      have hnone : s.document = none := Option.not_isSome_iff_eq_none.1 hsome
      rw [hnone]
      exact h.write (fun row hrow => by cases hrow) (by rw [hnone]; rfl) (fun _ _ => Slots.get_of_get_drop)
        h.consistent.failed

theorem IndexState.Sound.delete (h : s.Sound chunksOf)
    (hfree : ¬ s.runs.any fun e => e.2.holdsDocument || e.2.stage.hasInserted chunksOf) :
    ({ s with document := none, chunks := [] } : IndexState V).Sound chunksOf := by
  refine h.next ⟨le_refl _, fun j _ => id, .inl rfl⟩ ⟨fun _ hrow _ => absurd hrow (Option.some_ne_none _).symm, h.consistent.failed⟩ (.inl rfl)
    (fun _ => rfl) (List.forall_mem_nil _) (fun j run hj => ⟨hj, fun hinserted => ?_⟩)
  refine absurd (List.any_eq_true.2 ⟨(j, run), Slots.mem_of_get hj, ?_⟩) hfree
  rw [hinserted, Bool.or_true]

/-- **The step lemma.** Steps that disturb no run keep the invariant. -/
theorem IndexState.Sound.step {e : IndexEvent V} (hstep : indexSteps chunksOf s e s') (h : s.Sound chunksOf)
    (hok : Undisturbed chunksOf s e) : s'.Sound chunksOf := by
  cases e with
  | indexDocumentNow locked =>
    simp only [indexSteps, IndexState.step] at hstep
    split_ifs at hstep
    cases hstep
    refine h.put (Nat.le_succ _) (Nat.lt_succ_self _) (.inl (le_refl _)) trivial fun hinserted => ?_
    simp [Stage.hasInserted, Stage.insertedVersion] at hinserted
  | advance i succeeds =>
    obtain ⟨run, hi, hadvance⟩ := Option.bind_eq_some_iff.1 hstep
    exact h.advance hi hok hadvance
  | stop i =>
    cases hstep
    exact h.drop i
  | queueDocumentForReindex =>
    simp only [indexSteps, IndexState.step] at hstep
    split_ifs at hstep
    cases hstep
    refine h.write (fun row hrow hready => ?_) Option.isSome_map (fun _ _ => id) h.consistent.failed
    obtain ⟨row', -, rfl⟩ := Option.map_eq_some_iff.1 hrow
    cases hready
  | deleteDocument =>
    simp only [indexSteps, IndexState.step] at hstep
    split_ifs at hstep with hfree
    cases hstep
    exact h.delete hfree
  | write version =>
    cases hstep
    exact h.write (fun _ hrow _ => hrow) rfl (fun _ _ => id) h.consistent.failed

theorem undisturbed_of_consistent {e : IndexEvent V} (hstep : indexSteps chunksOf s e s') (h : s'.Consistent chunksOf) :
    Undisturbed chunksOf s e := by
  cases e with
  | advance i succeeds =>
    intro run hi row hrow
    obtain ⟨run', hi', hadvance⟩ := Option.bind_eq_some_iff.1 hstep
    cases hi'.symm.trans hi
    refine ⟨fun version rows hstage hnil => ?_, fun hstage => ?_⟩
    · simp only [IndexState.advance, hstage] at hadvance
      cases hadvance
      -- the document is ready, with no chunks
      obtain ⟨j, v, hchunks, hcount⟩ := h.ready { status := .ready, chunkCount := (chunksOf version).length }
        (by rw [IndexState.commit, hrow, Option.map_some]) rfl
      have hv : chunksOf v = [] := by
        rw [← List.length_eq_zero_iff, ← hcount, hnil, List.length_nil]
      rw [rowsOf_eq_nil.2 hv] at hchunks
      exact (List.append_eq_nil_iff.1 hchunks).1
    · simp only [IndexState.advance, hstage] at hadvance
      split_ifs at hadvance with hheld hsome
      · cases hadvance
        exact h.failed (i, s.succeeded) List.mem_cons_self
      · rw [hrow] at hsome
        exact absurd rfl hsome
  | _ => trivial

theorem IndexState.Sound.added (content : V) : (IndexState.added content).Sound chunksOf where
  consistent :=
    { ready := by
        intro row hrow hready
        cases hrow
        cases hready
      failed := List.forall_mem_nil _ }
  whole := .inl rfl
  gone _ := rfl
  committed row hrow := absurd hrow List.not_mem_nil
  started i run hi := by cases hi
  runs i run hi := by cases hi
  apart i j run other hi := by cases hi

/-- **A ready document has the chunks of one run, and an old run's failure does not undo a newer one's success,
exactly where the runs do not disturb one another**, in every order of steps, each run failing or stopping anywhere.
-/
theorem ready_document_is_of_one_run (chunksOf : V → List String) (content : V) (es : List (IndexEvent V)) :
    EachState (indexSteps chunksOf) (IndexState.Consistent chunksOf) (IndexState.added content) es ↔
      EachStep (indexSteps chunksOf) (Undisturbed chunksOf) (IndexState.added content) es :=
  eachState_iff_eachStep (fun _ h => h.consistent) (fun _ _ _ hstep h hok => h.step hstep hok)
    (fun _ _ _ hstep _ hcons => undisturbed_of_consistent hstep hcons) (IndexState.Sound.added content)

end

/-! ## Runs that disturb one another -/

private def oneChunk (text : String) : List String := if text = "" then [] else [text]

private def upToDelete (i : ℕ) : List (IndexEvent String) := List.replicate 5 (.advance i true)

private def insertAndCommit (i : ℕ) : List (IndexEvent String) := List.replicate 3 (.advance i true)

/-- Two runs that the API has started. Both have deleted the chunks before either inserts its own; the
first then fails at the index of the chunk that the second has committed. -/
private def overlapping : List (IndexEvent String) :=
  [.indexDocumentNow false, .indexDocumentNow false] ++ upToDelete 0 ++ upToDelete 1 ++ insertAndCommit 1 ++
    [.advance 0 true, .advance 0 true]

/-- The first of two runs has read an empty content, and commits after the second. -/
private def emptyOverlapping : List (IndexEvent String) :=
  [.indexDocumentNow false, .indexDocumentNow false] ++ upToDelete 0 ++ [.write "a"] ++ upToDelete 1 ++
    insertAndCommit 1 ++ insertAndCommit 0

/-- An older run marks the document failed that a newer one has made ready; and a run with no chunks makes
the document ready over the chunks of another. -/
theorem overlapping_runs_disagree :
    ¬ EachState (indexSteps oneChunk) (IndexState.Consistent oneChunk) (IndexState.added "a") overlapping ∧
      ¬ EachState (indexSteps oneChunk) (IndexState.Consistent oneChunk) (IndexState.added "") emptyOverlapping := by
  constructor
  · intro h
    obtain ⟨t, hplay, hfailure⟩ : ∃ t, play (IndexState.step oneChunk) (.added "a") overlapping = some t ∧
        (0, [1]) ∈ t.failures := by
      decide +kernel
    have hcons := h overlapping [] t (List.append_nil _).symm (run_of_play hplay)
    exact absurd (hcons.failed _ hfailure 1 List.mem_cons_self) (by decide)
  · intro h
    obtain ⟨t, hplay, hdocument, hchunks⟩ : ∃ t, play (IndexState.step oneChunk) (.added "") emptyOverlapping = some t ∧
        t.document = some { status := .ready, chunkCount := 0 } ∧ t.chunks ≠ [] := by
      decide +kernel
    have hcons := h emptyOverlapping [] t (List.append_nil _).symm (run_of_play hplay)
    obtain ⟨run, version, hrows, hcount⟩ := hcons.ready _ hdocument rfl
    have hnone : oneChunk version = [] := List.length_eq_zero_iff.1 hcount.symm
    exact hchunks (hrows.trans (rowsOf_eq_nil.2 hnone))

end OpenGeni.Documents
