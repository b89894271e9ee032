/-
The table of a session's workspace captures and its queries (`packages/db/src/index.ts`,
`insertWorkspaceCapture` to `deleteWorkspaceCaptureRows`).

One session is modelled. A row keeps the storage keys that its revision is read through.
After-image keys name the content; the keys of the manifest and of the tree name the turn
that the capture was made for. Row ids are given out in order.
-/
import Mathlib.Data.List.Nodup
import OpenGeni.Lib.Newest

namespace OpenGeni.Db

open OpenGeni.Lib

/-- `input.turnId ?? randomUUID()`. -/
inductive TurnKey
  | turn (turnId : ℕ)
  | random (uuid : ℕ)
  deriving DecidableEq, Repr

inductive CaptureKey
  | blob (hash : ℕ)
  | tree (turnKey : TurnKey)
  | manifest (turnKey : TurnKey)
  deriving DecidableEq, Repr

/-- `WorkspaceCaptureRow`. Of `stats` the fingerprint is read. -/
structure WorkspaceCaptureRow where
  id : ℕ
  revision : ℕ
  manifestKey : Option CaptureKey
  treeIndexKey : Option CaptureKey
  blobKeys : List CaptureKey
  fingerprint : ℕ
  deriving DecidableEq, Repr

def WorkspaceCaptureRow.perRevisionKeys (r : WorkspaceCaptureRow) : List CaptureKey :=
  r.manifestKey.toList ++ r.treeIndexKey.toList

def WorkspaceCaptureRow.keys (r : WorkspaceCaptureRow) : List CaptureKey := r.blobKeys ++ r.perRevisionKeys

structure CaptureTable where
  rows : List WorkspaceCaptureRow
  nextId : ℕ
  deriving DecidableEq, Repr

namespace CaptureTable

/-- `order by revision desc`. -/
def byRevision (table : CaptureTable) : List WorkspaceCaptureRow :=
  table.rows.insertionSort fun a b => b.revision ≤ a.revision

def latestWorkspaceCapture (table : CaptureTable) : Option WorkspaceCaptureRow := table.byRevision.head?

end CaptureTable

/-- The values of `insertWorkspaceCapture`. -/
structure CaptureInsert where
  expectedEpoch : ℕ
  revision : ℕ
  manifestKey : CaptureKey
  treeIndexKey : CaptureKey
  blobKeys : List CaptureKey
  fingerprint : ℕ
  deriving DecidableEq, Repr

inductive InsertResult
  | inserted (table : CaptureTable)
  | rejected
  | uniqueViolation
  deriving DecidableEq, Repr

namespace CaptureTable

def newRow (table : CaptureTable) (input : CaptureInsert) : WorkspaceCaptureRow :=
  { id := table.nextId, revision := input.revision, manifestKey := some input.manifestKey
    treeIndexKey := some input.treeIndexKey, blobKeys := input.blobKeys, fingerprint := input.fingerprint }

def insertRow (table : CaptureTable) (input : CaptureInsert) : CaptureTable :=
  { rows := table.rows ++ [table.newRow input], nextId := table.nextId + 1 }

/-- `insertWorkspaceCapture`: fenced by the epoch of the lease; the index on the revision
refuses a number that is taken. -/
def insertWorkspaceCapture (table : CaptureTable) (leaseEpoch : Option ℕ) (input : CaptureInsert) : InsertResult :=
  if leaseEpoch = some input.expectedEpoch then
    if table.rows.any fun r => r.revision == input.revision then .uniqueViolation
    else .inserted (table.insertRow input)
  else .rejected

end CaptureTable

/-! ## The plan -/

structure WorkspaceCaptureGcPlan where
  evictedRowIds : List ℕ
  deleteBlobKeys : List CaptureKey
  deletePerRevisionKeys : List CaptureKey
  deriving DecidableEq, Repr

/-- `computeWorkspaceCaptureGcPlan`, over rows with the newest first. -/
def computeWorkspaceCaptureGcPlan (rows : List WorkspaceCaptureRow) (keepN : ℕ) : WorkspaceCaptureGcPlan :=
  let survivors := rows.take keepN
  let evicted := rows.drop keepN
  let survivingBlobKeys := survivors.flatMap (·.blobKeys)
  { evictedRowIds := evicted.map (·.id)
    deleteBlobKeys := ((evicted.flatMap (·.blobKeys)).filter fun key => !survivingBlobKeys.contains key).eraseDups
    deletePerRevisionKeys := evicted.flatMap (·.perRevisionKeys) }

namespace CaptureTable

def planWorkspaceCaptureGc (table : CaptureTable) (keepN : ℕ) : WorkspaceCaptureGcPlan :=
  computeWorkspaceCaptureGcPlan table.byRevision keepN

def deleteWorkspaceCaptureRows (table : CaptureTable) (rowIds : List ℕ) : CaptureTable :=
  { table with rows := table.rows.filter fun r => !rowIds.contains r.id }

end CaptureTable

/-! ## Tables as the inserts leave them -/

/-- The keys of a row are of one turn, its after-images are named by content. -/
def WorkspaceCaptureRow.OfTurn (r : WorkspaceCaptureRow) (turnKey : TurnKey) : Prop :=
  r.manifestKey = some (.manifest turnKey) ∧ r.treeIndexKey = some (.tree turnKey) ∧
    ∀ key ∈ r.blobKeys, ∃ hash, key = .blob hash

namespace CaptureTable

structure Numbered (table : CaptureTable) : Prop where
  revisions : (table.rows.map (·.revision)).Nodup
  ids : (table.rows.map (·.id)).Nodup
  fresh : ∀ r ∈ table.rows, r.id < table.nextId

end CaptureTable

section

variable {table table' : CaptureTable} {leaseEpoch : Option ℕ} {input : CaptureInsert}

theorem CaptureTable.inserted_iff : table.insertWorkspaceCapture leaseEpoch input = .inserted table' ↔
      leaseEpoch = some input.expectedEpoch ∧ (∀ r ∈ table.rows, r.revision ≠ input.revision) ∧
        table' = table.insertRow input := by
  have hfree : (table.rows.any fun r => r.revision == input.revision) = false ↔
      ∀ r ∈ table.rows, r.revision ≠ input.revision := by
    rw [List.any_eq_false]
    exact forall₂_congr fun r _ => by rw [beq_iff_eq]
  unfold CaptureTable.insertWorkspaceCapture
  split_ifs with hlease htaken
  · constructor
    · intro h
      cases h
    · rintro ⟨-, hnone, -⟩
      rw [hfree.2 hnone] at htaken
      cases htaken
  · rw [Bool.not_eq_true] at htaken
    constructor
    · intro h
      cases h
      exact ⟨hlease, hfree.1 htaken, rfl⟩
    · rintro ⟨-, -, rfl⟩
      rfl
  · constructor
    · intro h
      cases h
    · exact fun h => absurd h.1 hlease

variable {r : WorkspaceCaptureRow}

theorem CaptureTable.mem_insertRow :
    r ∈ (table.insertRow input).rows ↔ r ∈ table.rows ∨ r = table.newRow input := by
  unfold CaptureTable.insertRow
  rw [List.mem_append, List.mem_singleton]

theorem CaptureTable.Numbered.insertRow (h : table.Numbered)
    (hfree : ∀ r ∈ table.rows, r.revision ≠ input.revision) : (table.insertRow input).Numbered := by
  refine ⟨?_, ?_, ?_⟩
  · unfold CaptureTable.insertRow
    rw [List.map_append, List.nodup_append]
    refine ⟨h.revisions, List.nodup_singleton _, ?_⟩
    intro a ha b hb
    obtain ⟨r, hr, rfl⟩ := List.mem_map.1 ha
    rw [List.mem_singleton.1 hb]
    exact hfree r hr
  · unfold CaptureTable.insertRow
    rw [List.map_append, List.nodup_append]
    refine ⟨h.ids, List.nodup_singleton _, ?_⟩
    intro a ha b hb
    obtain ⟨r, hr, rfl⟩ := List.mem_map.1 ha
    rw [List.mem_singleton.1 hb]
    exact Nat.ne_of_lt (h.fresh r hr)
  · intro r hr
    rcases CaptureTable.mem_insertRow.1 hr with hold | rfl
    · exact Nat.lt_succ_of_lt (h.fresh r hold)
    · exact Nat.lt_succ_self _

theorem CaptureTable.Numbered.deleteRows (h : table.Numbered) (rowIds : List ℕ) :
    (table.deleteWorkspaceCaptureRows rowIds).Numbered where
  revisions := h.revisions.sublist (List.filter_sublist.map _)
  ids := h.ids.sublist (List.filter_sublist.map _)
  fresh r hr := h.fresh r (List.mem_filter.1 hr).1

theorem CaptureTable.mem_byRevision : r ∈ table.byRevision ↔ r ∈ table.rows := List.mem_insertionSort _

theorem CaptureTable.Numbered.byRevision_sorted (h : table.Numbered) :
    table.byRevision.Pairwise fun a b => b.revision < a.revision := by
  have hsorted : table.byRevision.Pairwise fun a b => b.revision ≤ a.revision := List.pairwise_insertionSort _ _
  have hperm : table.byRevision.Perm table.rows := List.perm_insertionSort _ _
  have hdistinct : table.byRevision.Pairwise fun a b => a.revision ≠ b.revision :=
    List.pairwise_map.1 ((hperm.map _).nodup_iff.2 h.revisions)
  exact (hsorted.and hdistinct).imp fun hab => lt_of_le_of_ne hab.1 hab.2.symm

theorem CaptureTable.Numbered.eq_of_id (h : table.Numbered) {r' : WorkspaceCaptureRow}
    (hr : r ∈ table.rows) (hr' : r' ∈ table.rows) (hid : r.id = r'.id) : r = r' :=
  List.inj_on_of_nodup_map h.ids hr hr' hid

/-- **An evicted row has `keepN` newer ones.** -/
theorem CaptureTable.Numbered.evicted_newer (h : table.Numbered) {keepN : ℕ} (hr : r ∈ table.rows)
    (hevicted : r.id ∈ (table.planWorkspaceCaptureGc keepN).evictedRowIds) :
    keepN ≤ (newer (·.revision) table.rows r).length := by
  obtain ⟨r', hr', hid⟩ := List.mem_map.1 hevicted
  have hmem : r' ∈ table.rows := CaptureTable.mem_byRevision.1 (List.mem_of_mem_drop hr')
  obtain rfl : r' = r := h.eq_of_id hmem hr hid
  have hperm : table.byRevision.Perm table.rows := List.perm_insertionSort _ _
  rw [← newer_perm hperm]
  exact le_newer_of_mem_drop h.byRevision_sorted hr'

theorem evictedRowIds_lt (h : table.Numbered) {keepN id : ℕ}
    (hid : id ∈ (table.planWorkspaceCaptureGc keepN).evictedRowIds) : id < table.nextId := by
  obtain ⟨r, hr, rfl⟩ := List.mem_map.1 hid
  exact h.fresh r (CaptureTable.mem_byRevision.1 (List.mem_of_mem_drop hr))

theorem WorkspaceCaptureRow.OfTurn.blob_not_perRevision {turnKey : TurnKey} (h : r.OfTurn turnKey)
    (hash : ℕ) : CaptureKey.blob hash ∉ r.perRevisionKeys := by
  unfold WorkspaceCaptureRow.perRevisionKeys
  rw [h.1, h.2.1, List.mem_append, Option.toList_some, Option.toList_some, List.mem_singleton, List.mem_singleton]
  rintro (hmanifest | htree)
  · cases hmanifest
  · cases htree

/-- **The plan deletes no after-image of a row that it does not evict.** -/
theorem plan_spares (hturn : ∀ r ∈ table.rows, ∃ turnKey, r.OfTurn turnKey) {keepN : ℕ}
    (hr : r ∈ table.rows) (hkept : r.id ∉ (table.planWorkspaceCaptureGc keepN).evictedRowIds) {hash : ℕ}
    (hdeleted : CaptureKey.blob hash ∈ (table.planWorkspaceCaptureGc keepN).deleteBlobKeys ++
      (table.planWorkspaceCaptureGc keepN).deletePerRevisionKeys) : CaptureKey.blob hash ∉ r.keys := by
  obtain ⟨turnKey, hof⟩ := hturn r hr
  have hsurvivor : r ∈ table.byRevision.take keepN := by
    have hmem := CaptureTable.mem_byRevision.2 hr
    rw [← List.take_append_drop keepN table.byRevision, List.mem_append] at hmem
    exact hmem.resolve_right fun hdrop => hkept (List.mem_map.2 ⟨r, hdrop, rfl⟩)
  intro hread
  have hown : CaptureKey.blob hash ∈ r.blobKeys :=
    (List.mem_append.1 hread).resolve_right (hof.blob_not_perRevision hash)
  rcases List.mem_append.1 hdeleted with hblob | hper
  · have hunshared := (List.mem_filter.1 (List.mem_eraseDups.1 hblob)).2
    rw [Bool.not_eq_true', ← Bool.not_eq_true, List.contains_iff_mem] at hunshared
    exact hunshared (List.mem_flatMap.2 ⟨r, hsurvivor, hown⟩)
  · obtain ⟨r', hr', hkey⟩ := List.mem_flatMap.1 hper
    obtain ⟨turnKey', hof'⟩ := hturn r' (CaptureTable.mem_byRevision.1 (List.mem_of_mem_drop hr'))
    exact hof'.blob_not_perRevision hash hkey

end

end OpenGeni.Db
