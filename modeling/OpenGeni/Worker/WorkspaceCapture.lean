/-
Captures of a session's workspace (`activities/workspace-capture.ts`, `runCapture`).

Captures run side by side: one that lost its 60 s race goes on in the background, and so
does the capture of a zombie dispatch. Each await of `runCapture` is a step of its own,
and each may fail. What the sandbox is probed for (the touched files' contents and the
change fingerprint) is given by the event.
-/
import OpenGeni.Lib.Run
import OpenGeni.Db.WorkspaceCaptures

namespace OpenGeni.Worker

open OpenGeni.Lib OpenGeni.Db

/-! ## State -/

structure CaptureInput where
  turnId : Option ℕ
  leaseEpoch : ℕ
  deriving DecidableEq, Repr

structure PendingRevision where
  revision : ℕ
  turnKey : TurnKey
  hashes : List ℕ
  fingerprint : ℕ
  deriving DecidableEq, Repr

def PendingRevision.blobKeys (p : PendingRevision) : List CaptureKey := (p.hashes.map CaptureKey.blob).eraseDups

def PendingRevision.keys (p : PendingRevision) : List CaptureKey :=
  p.blobKeys ++ [.tree p.turnKey, .manifest p.turnKey]

def PendingRevision.insert (p : PendingRevision) (expectedEpoch : ℕ) : CaptureInsert :=
  { expectedEpoch := expectedEpoch, revision := p.revision, manifestKey := .manifest p.turnKey
    treeIndexKey := .tree p.turnKey, blobKeys := p.blobKeys, fingerprint := p.fingerprint }

/-- Where in `runCapture` a capture is. `deleting` has the keys that are still to be deleted,
the rows that go with them, and the number of ids that were given when it was planned. A
superseded capture that deletes its own keys has no rows. -/
inductive CapturePhase
  | probing
  | collecting (prev : Option WorkspaceCaptureRow)
  | putting (pending : PendingRevision) (remaining : List CaptureKey)
  | planning
  | deleting (keys : List CaptureKey) (rowIds : List ℕ) (planned : ℕ)
  | finished
  deriving DecidableEq, Repr

structure Capture where
  input : CaptureInput
  phase : CapturePhase
  deriving DecidableEq, Repr

def Capture.evicts (c : Capture) : List ℕ := match c.phase with
  | .deleting _ rowIds _ => rowIds
  | _ => []

structure Captures where
  table : CaptureTable
  storage : List CaptureKey
  leaseEpoch : Option ℕ
  uuids : ℕ
  captures : List Capture
  deriving DecidableEq, Repr

def noCaptures (leaseEpoch : Option ℕ) : Captures :=
  { table := { rows := [], nextId := 0 }, storage := [], leaseEpoch := leaseEpoch, uuids := 0, captures := [] }

/-! ## Steps -/

inductive CaptureEvent
  | readLatest
  | collected (hashes : List ℕ) (fingerprint : ℕ)
  | put
  | abandoned
  | insert
  | plan
  | planFailed
  | delete (succeeds : Bool)
  | deleteRows
  | deleteRowsFailed
  deriving DecidableEq, Repr

inductive CapturesEvent
  | started (input : CaptureInput)
  | leaseMoved (leaseEpoch : Option ℕ)
  | capture (index : ℕ) (event : CaptureEvent)
  deriving DecidableEq, Repr

namespace Captures

def setPhase (s : Captures) (i : ℕ) (c : Capture) (phase : CapturePhase) : Captures :=
  { s with captures := s.captures.set i { c with phase := phase } }

/-- The empty-turn gate; past it the revision, the turn's key and the keys are fixed. -/
def collected (s : Captures) (i : ℕ) (c : Capture) (prev : Option WorkspaceCaptureRow) (hashes : List ℕ)
    (fingerprint : ℕ) : Captures :=
  if prev.any fun row => row.fingerprint == fingerprint then s.setPhase i c .finished
  else
    let pending : PendingRevision :=
      { revision := (prev.map fun row => row.revision + 1).getD 0
        turnKey := (c.input.turnId.map TurnKey.turn).getD (.random s.uuids), hashes := hashes
        fingerprint := fingerprint }
    { s.setPhase i c (.putting pending pending.keys) with uuids := s.uuids + 1 }

/-- The fenced insert. A capture that was superseded deletes the keys of its turn. -/
def insert (s : Captures) (i : ℕ) (c : Capture) (pending : PendingRevision) : Captures :=
  match s.table.insertWorkspaceCapture s.leaseEpoch (pending.insert c.input.leaseEpoch) with
  | .inserted table => { s.setPhase i c .planning with table := table }
  | .rejected => s.setPhase i c (.deleting [.manifest pending.turnKey, .tree pending.turnKey] [] 0)
  | .uniqueViolation => s.setPhase i c .finished

def plan (keepN : ℕ) (s : Captures) (i : ℕ) (c : Capture) : Captures :=
  let plan := s.table.planWorkspaceCaptureGc keepN
  if plan.evictedRowIds = [] then s.setPhase i c .finished
  else s.setPhase i c
    (.deleting (plan.deleteBlobKeys ++ plan.deletePerRevisionKeys) plan.evictedRowIds s.table.nextId)

/-- One key of `safeDelete`, which goes on after a failure. -/
def delete (s : Captures) (i : ℕ) (c : Capture) (key : CaptureKey) (phase : CapturePhase) (succeeds : Bool) :
    Captures :=
  { s.setPhase i c phase with
    storage := if succeeds then s.storage.filter fun other => other != key else s.storage }

def captureStep (keepN : ℕ) (s : Captures) (i : ℕ) (c : Capture) : CaptureEvent → CapturePhase → Option Captures
  | .readLatest, .probing => some (s.setPhase i c (.collecting s.table.latestWorkspaceCapture))
  | .collected hashes fingerprint, .collecting prev => some (s.collected i c prev hashes fingerprint)
  | .put, .putting pending (key :: remaining) =>
    some { s.setPhase i c (.putting pending remaining) with storage := key :: s.storage }
  | .insert, .putting pending [] => some (s.insert i c pending)
  | .abandoned, .probing => some (s.setPhase i c .finished)
  | .abandoned, .collecting _ => some (s.setPhase i c .finished)
  | .abandoned, .putting _ _ => some (s.setPhase i c .finished)
  | .plan, .planning => some (s.plan keepN i c)
  | .planFailed, .planning => some (s.setPhase i c .finished)
  | .delete succeeds, .deleting (key :: keys) rowIds planned =>
    some (s.delete i c key (.deleting keys rowIds planned) succeeds)
  | .deleteRows, .deleting [] rowIds _ =>
    some { s.setPhase i c .finished with table := s.table.deleteWorkspaceCaptureRows rowIds }
  | .deleteRowsFailed, .deleting [] _ _ => some (s.setPhase i c .finished)
  | _, _ => none

def step (keepN : ℕ) (s : Captures) : CapturesEvent → Option Captures
  | .started input => some { s with captures := s.captures ++ [{ input := input, phase := .probing }] }
  | .leaseMoved leaseEpoch => some { s with leaseEpoch := leaseEpoch }
  | .capture i event => s.captures[i]?.bind fun c => s.captureStep keepN i c event c.phase

end Captures

/-! ## What holds of the table and the storage -/

def Evicting (captures : List Capture) (rowId : ℕ) : Prop := ∃ c ∈ captures, rowId ∈ c.evicts

instance (captures : List Capture) (rowId : ℕ) : Decidable (Evicting captures rowId) :=
  inferInstanceAs (Decidable (∃ c ∈ captures, rowId ∈ c.evicts))

namespace Captures

/-- **No revision points at a deleted blob**, as far as it is not being evicted. -/
def KeysKept (s : Captures) : Prop :=
  ∀ r ∈ s.table.rows, ¬ Evicting s.captures r.id → ∀ key ∈ r.keys, key ∈ s.storage

instance (s : Captures) : Decidable s.KeysKept :=
  inferInstanceAs (Decidable (∀ r ∈ s.table.rows, ¬ Evicting s.captures r.id → ∀ key ∈ r.keys, key ∈ s.storage))

/-- Revisions are unique, and what is evicted is not among the newest. -/
structure NewestKept (keepN : ℕ) (s : Captures) : Prop where
  revisions : (s.table.rows.map (·.revision)).Nodup
  newest : ∀ r ∈ s.table.rows, Evicting s.captures r.id → keepN ≤ (newer (·.revision) s.table.rows r).length

/-- What a capture's step must find in the state: nobody has deleted a key between the put and
the insert; a key that is deleted is named by no row that stays, unless the row was there when
the plan was made and the key is an after-image; a plan whose rows could not be deleted has
left their keys alone. -/
def Uncrossed (s : Captures) (i : ℕ) (c : Capture) : CaptureEvent → CapturePhase → Prop
  | .insert, .putting pending [] =>
    s.leaseEpoch = some c.input.leaseEpoch → (∀ r ∈ s.table.rows, r.revision ≠ pending.revision) →
      ∀ key ∈ pending.keys, key ∈ s.storage
  | .delete true, .deleting (key :: _) _ planned =>
    ∀ r ∈ s.table.rows, key ∈ r.keys → Evicting s.captures r.id ∨ r.id < planned ∧ ∃ hash, key = .blob hash
  | .deleteRowsFailed, .deleting [] rowIds _ =>
    ∀ r ∈ s.table.rows, r.id ∈ rowIds → Evicting (s.captures.eraseIdx i) r.id ∨ ∀ key ∈ r.keys, key ∈ s.storage
  | _, _ => True

def Apart (s : Captures) : CapturesEvent → Prop
  | .capture i event => ∀ c ∈ s.captures[i]?, s.Uncrossed i c event c.phase
  | _ => True

end Captures

/-! ## Who is evicting -/

section

variable {captures : List Capture} {i rowId : ℕ} {c c' : Capture}

theorem evicting_set (hi : captures[i]? = some c) :
    Evicting (captures.set i c') rowId ↔ rowId ∈ c'.evicts ∨ Evicting (captures.eraseIdx i) rowId := by
  obtain ⟨hlt, -⟩ := List.getElem?_eq_some_iff.1 hi
  have hset : captures.set i c' = captures.take i ++ c' :: captures.drop (i + 1) := by
    rw [List.set_eq_take_append_cons_drop, if_pos hlt]
  rw [hset, List.eraseIdx_eq_take_drop_succ]
  constructor
  · rintro ⟨d, hd, hrow⟩
    rcases List.mem_append.1 hd with hbefore | hrest
    · exact .inr ⟨d, List.mem_append_left _ hbefore, hrow⟩
    · rcases List.mem_cons.1 hrest with rfl | hafter
      · exact .inl hrow
      · exact .inr ⟨d, List.mem_append_right _ hafter, hrow⟩
  · rintro (hrow | ⟨d, hd, hrow⟩)
    · exact ⟨c', List.mem_append_right _ List.mem_cons_self, hrow⟩
    · rcases List.mem_append.1 hd with hbefore | hafter
      · exact ⟨d, List.mem_append_left _ hbefore, hrow⟩
      · exact ⟨d, List.mem_append_right _ (List.mem_cons_of_mem _ hafter), hrow⟩

theorem evicting_iff (hi : captures[i]? = some c) :
    Evicting captures rowId ↔ rowId ∈ c.evicts ∨ Evicting (captures.eraseIdx i) rowId := by
  obtain ⟨hlt, hget⟩ := List.getElem?_eq_some_iff.1 hi
  have hsame : captures.set i c = captures := by
    rw [← hget]
    exact List.set_getElem_self hlt
  have hset : Evicting (captures.set i c) rowId ↔ rowId ∈ c.evicts ∨ Evicting (captures.eraseIdx i) rowId :=
    evicting_set hi
  rw [hsame] at hset
  exact hset

theorem evicting_grows (hi : captures[i]? = some c) (hevicts : c.evicts ⊆ c'.evicts)
    (h : Evicting captures rowId) : Evicting (captures.set i c') rowId :=
  (evicting_set hi).2 (((evicting_iff hi).1 h).imp_left fun hrow => hevicts hrow)

theorem evicting_shrinks (hi : captures[i]? = some c) (hevicts : c'.evicts ⊆ c.evicts)
    (h : Evicting (captures.set i c') rowId) : Evicting captures rowId :=
  (evicting_iff hi).2 (((evicting_set hi).1 h).imp_left fun hrow => hevicts hrow)

end

/-! ## The invariant of every run -/

/-- A plan under way: it names rows that were there, and no after-image of the others. -/
def CapturePhase.Sound (table : CaptureTable) : CapturePhase → Prop
  | .deleting keys rowIds planned => (∀ id ∈ rowIds, id < table.nextId) ∧ planned ≤ table.nextId ∧
      ∀ r ∈ table.rows, r.id < planned → r.id ∉ rowIds → ∀ hash, .blob hash ∈ keys → .blob hash ∉ r.keys
  | _ => True

theorem CapturePhase.Sound.insertRow {table : CaptureTable} {input : CaptureInsert} {phase : CapturePhase}
    (h : phase.Sound table) : phase.Sound (table.insertRow input) := by
  cases phase with
  | deleting keys rowIds planned =>
    obtain ⟨hids, hplanned, hspared⟩ := h
    refine ⟨fun id hid => Nat.lt_succ_of_lt (hids id hid), Nat.le_succ_of_le hplanned, ?_⟩
    intro r hr hlt hkept hash hkey
    rcases CaptureTable.mem_insertRow.1 hr with hold | rfl
    · exact hspared r hold hlt hkept hash hkey
    · -- a row that is inserted now was not there when the plan was made
      exact absurd hlt (Nat.not_lt.2 hplanned)
  | _ => trivial

theorem CapturePhase.Sound.deleteRows {table : CaptureTable} {phase : CapturePhase} (h : phase.Sound table)
    (rowIds : List ℕ) : phase.Sound (table.deleteWorkspaceCaptureRows rowIds) := by
  cases phase with
  | deleting keys ids planned =>
    obtain ⟨hids, hplanned, hspared⟩ := h
    exact ⟨hids, hplanned, fun r hr => hspared r (List.mem_filter.1 hr).1⟩
  | _ => trivial

namespace Captures

structure Books (keepN : ℕ) (s : Captures) : Prop where
  numbered : s.table.Numbered
  ofTurn : ∀ r ∈ s.table.rows, ∃ turnKey, r.OfTurn turnKey
  newest : ∀ r ∈ s.table.rows, Evicting s.captures r.id → keepN ≤ (newer (·.revision) s.table.rows r).length
  captures : ∀ c ∈ s.captures, c.phase.Sound s.table

section

variable {keepN i : ℕ} {s t : Captures} {c : Capture}

theorem Books.newestKept (h : s.Books keepN) : s.NewestKept keepN where
  revisions := h.numbered.revisions
  newest := h.newest

theorem noCaptures_books (keepN : ℕ) (leaseEpoch : Option ℕ) : (noCaptures leaseEpoch).Books keepN where
  numbered := ⟨List.nodup_nil, List.nodup_nil, fun r hr => by cases hr⟩
  ofTurn r hr := by cases hr
  newest r hr := by cases hr
  captures c hc := by cases hc

theorem Books.evicting_lt (h : s.Books keepN) {rowId : ℕ} (hrow : Evicting s.captures rowId) :
    rowId < s.table.nextId := by
  obtain ⟨d, hd, hmem⟩ := hrow
  have hsound := h.captures d hd
  unfold Capture.evicts at hmem
  split at hmem
  case h_1 hphase =>
    rw [hphase] at hsound
    exact hsound.1 rowId hmem
  case h_2 => cases hmem

variable {phase : CapturePhase} {pending : PendingRevision} {expectedEpoch planned : ℕ}
  {key : CaptureKey} {keys : List CaptureKey} {rowIds : List ℕ}

theorem Books.moved (h : s.Books keepN) (hi : s.captures[i]? = some c)
    (hphase : phase.Sound s.table) (hevicts : Capture.evicts { c with phase := phase } ⊆ c.evicts)
    (storage : List CaptureKey) (uuids : ℕ) :
    Books keepN { s.setPhase i c phase with storage := storage, uuids := uuids } where
  numbered := h.numbered
  ofTurn := h.ofTurn
  newest r hr hevicting := h.newest r hr (evicting_shrinks hi hevicts hevicting)
  captures d hd := by
    rcases List.mem_or_eq_of_mem_set hd with hold | rfl
    · exact h.captures d hold
    · exact hphase

theorem Books.setPhase (h : s.Books keepN) (hi : s.captures[i]? = some c)
    (hphase : phase.Sound s.table) (hevicts : Capture.evicts { c with phase := phase } ⊆ c.evicts) :
    (s.setPhase i c phase).Books keepN :=
  h.moved hi hphase hevicts s.storage s.uuids

theorem Books.finish (h : s.Books keepN) (hi : s.captures[i]? = some c) : (s.setPhase i c .finished).Books keepN :=
  h.setPhase hi trivial (List.nil_subset _)

theorem Books.collected (h : s.Books keepN) (hi : s.captures[i]? = some c) (prev : Option WorkspaceCaptureRow)
    (hashes : List ℕ) (fingerprint : ℕ) : (s.collected i c prev hashes fingerprint).Books keepN := by
  unfold Captures.collected
  split
  · exact h.finish hi
  · refine h.moved hi ?_ (List.nil_subset _) s.storage (s.uuids + 1)
    trivial

theorem insertRow_ofTurn {table : CaptureTable}
    (h : ∀ r ∈ table.rows, ∃ turnKey, r.OfTurn turnKey) :
    ∀ r ∈ (table.insertRow (pending.insert expectedEpoch)).rows, ∃ turnKey, r.OfTurn turnKey := by
  intro r hr
  rcases CaptureTable.mem_insertRow.1 hr with hold | rfl
  · exact h r hold
  · refine ⟨pending.turnKey, rfl, rfl, ?_⟩
    intro key hkey
    obtain ⟨hash, -, rfl⟩ := List.mem_map.1 (List.mem_eraseDups.1 hkey)
    exact ⟨hash, rfl⟩

theorem Books.insert (h : s.Books keepN) (hi : s.captures[i]? = some c) (pending : PendingRevision) :
    (s.insert i c pending).Books keepN := by
  unfold Captures.insert
  split
  case h_1 table hinserted =>
    obtain ⟨-, hfree, rfl⟩ := CaptureTable.inserted_iff.1 hinserted
    have hmoved : (s.setPhase i c .planning).Books keepN := h.setPhase hi trivial (List.nil_subset _)
    refine ⟨h.numbered.insertRow hfree, insertRow_ofTurn h.ofTurn, ?_, ?_⟩
    · intro r hr hevicting
      have hbefore : Evicting s.captures r.id := evicting_shrinks hi (List.nil_subset _) hevicting
      rcases CaptureTable.mem_insertRow.1 hr with hold | rfl
      · exact le_newer_append (h.newest r hold hbefore) _
      · exact absurd (h.evicting_lt hbefore) (Nat.lt_irrefl _)
    · intro d hd
      exact CapturePhase.Sound.insertRow (hmoved.captures d hd)
  case h_2 =>
    apply h.setPhase hi
    · refine ⟨List.forall_mem_nil _, Nat.zero_le _, ?_⟩
      intro r _ hlt
      exact absurd hlt (Nat.not_lt_zero _)
    · exact List.nil_subset _
  case h_3 => exact h.finish hi

theorem Books.plan (h : s.Books keepN) (hi : s.captures[i]? = some c) : (s.plan keepN i c).Books keepN := by
  unfold Captures.plan
  dsimp only
  split
  · exact h.finish hi
  · refine ⟨h.numbered, h.ofTurn, ?_, ?_⟩
    · intro r hr hevicting
      rcases (evicting_set hi).1 hevicting with hplanned | hother
      · exact h.numbered.evicted_newer hr hplanned
      · exact h.newest r hr ((evicting_iff hi).2 (.inr hother))
    · intro d hd
      rcases List.mem_or_eq_of_mem_set hd with hold | rfl
      · exact h.captures d hold
      · refine ⟨fun id hid => evictedRowIds_lt h.numbered hid, Nat.le_refl _, ?_⟩
        intro r hr _ hkept hash hkey
        exact plan_spares h.ofTurn hr hkept hkey

theorem Books.delete (h : s.Books keepN) (hi : s.captures[i]? = some c)
    (hc : c.phase = .deleting (key :: keys) rowIds planned) (succeeds : Bool) :
    (s.delete i c key (.deleting keys rowIds planned) succeeds).Books keepN := by
  have hsound := h.captures c (List.mem_of_getElem? hi)
  rw [hc] at hsound
  obtain ⟨hids, hplanned, hspared⟩ := hsound
  have hrest : CapturePhase.Sound s.table (.deleting keys rowIds planned) :=
    ⟨hids, hplanned, fun r hr hlt hkept hash hkey => hspared r hr hlt hkept hash (List.mem_cons_of_mem _ hkey)⟩
  apply h.moved hi hrest
  unfold Capture.evicts
  rw [hc]
  exact List.Subset.refl _

theorem Books.deleteRows (h : s.Books keepN) (hi : s.captures[i]? = some c)
    (hc : c.phase = .deleting [] rowIds planned) :
    Books keepN { s.setPhase i c .finished with table := s.table.deleteWorkspaceCaptureRows rowIds } := by
  have hfinished := h.finish hi
  have hevicts : c.evicts = rowIds := by
    unfold Capture.evicts
    rw [hc]
  refine ⟨h.numbered.deleteRows rowIds, fun r hr => h.ofTurn r (List.mem_filter.1 hr).1, ?_, ?_⟩
  · intro r hr hevicting
    have hbefore := h.newest r (List.mem_filter.1 hr).1 (evicting_shrinks hi (List.nil_subset _) hevicting)
    refine le_newer_filter ?_ hbefore
    intro d hd hgone
    rw [Bool.not_eq_false', List.contains_iff_mem] at hgone
    exact h.newest d hd ((evicting_iff hi).2 (.inl (hevicts ▸ hgone)))
  · intro d hd
    exact CapturePhase.Sound.deleteRows (hfinished.captures d hd) rowIds

theorem Books.captureStep (h : s.Books keepN) (hi : s.captures[i]? = some c) {event : CaptureEvent}
    (hstep : s.captureStep keepN i c event c.phase = some t) : t.Books keepN := by
  unfold Captures.captureStep at hstep
  split at hstep
  case h_1 =>
    cases hstep
    exact h.setPhase hi trivial (List.nil_subset _)
  case h_2 =>
    cases hstep
    exact h.collected hi _ _ _
  case h_3 =>
    cases hstep
    refine h.moved hi ?_ (List.nil_subset _) _ s.uuids
    trivial
  case h_4 pending _ =>
    cases hstep
    exact h.insert hi pending
  case h_8 =>
    cases hstep
    exact h.plan hi
  case h_10 hc =>
    cases hstep
    exact h.delete hi hc _
  case h_11 hc =>
    cases hstep
    exact h.deleteRows hi hc
  case h_13 => cases hstep
  all_goals
    cases hstep
    exact h.finish hi

theorem Books.step (h : s.Books keepN) {event : CapturesEvent} (hstep : s.step keepN event = some t) :
    t.Books keepN := by
  cases event with
  | started input =>
    cases hstep
    refine ⟨h.numbered, h.ofTurn, ?_, ?_⟩
    · rintro r hr ⟨d, hd, hrow⟩
      rcases List.mem_append.1 hd with hold | hnew
      · exact h.newest r hr ⟨d, hold, hrow⟩
      · rw [List.mem_singleton.1 hnew] at hrow
        cases hrow
    · intro d hd
      rcases List.mem_append.1 hd with hold | hnew
      · exact h.captures d hold
      · rw [List.mem_singleton.1 hnew]
        trivial
  | leaseMoved leaseEpoch =>
    cases hstep
    exact ⟨h.numbered, h.ofTurn, h.newest, h.captures⟩
  | capture i event =>
    obtain ⟨c, hi, hcapture⟩ := Option.bind_eq_some_iff.1 hstep
    exact h.captureStep hi hcapture

/-! ## What keeps the keys -/

theorem KeysKept.mono (h : s.KeysKept) (hstorage : s.storage ⊆ t.storage)
    (hrows : ∀ r ∈ t.table.rows, ¬ Evicting t.captures r.id → r ∈ s.table.rows ∧ ¬ Evicting s.captures r.id) :
    t.KeysKept := by
  intro r hr hstays key hkey
  obtain ⟨hbefore, hstayed⟩ := hrows r hr hstays
  exact hstorage (h r hbefore hstayed key hkey)

theorem KeysKept.moved (h : s.KeysKept) (hi : s.captures[i]? = some c)
    (hevicts : c.evicts ⊆ Capture.evicts { c with phase := phase }) {storage : List CaptureKey}
    (hstorage : s.storage ⊆ storage) (uuids : ℕ) :
    KeysKept { s.setPhase i c phase with storage := storage, uuids := uuids } := by
  refine h.mono hstorage fun r hr hstays => ⟨hr, fun hbefore => hstays ?_⟩
  exact evicting_grows hi hevicts hbefore

theorem KeysKept.setPhase (h : s.KeysKept) (hi : s.captures[i]? = some c)
    (hevicts : c.evicts ⊆ Capture.evicts { c with phase := phase }) :
    (s.setPhase i c phase).KeysKept :=
  h.moved hi hevicts (List.Subset.refl _) s.uuids

theorem evicts_eq_nil (hc : c.phase = phase)
    (hphase : ∀ keys rowIds planned, phase ≠ .deleting keys rowIds planned) : c.evicts = [] := by
  unfold Capture.evicts
  split
  case h_1 hdeleting => exact absurd (hc.symm.trans hdeleting) (hphase _ _ _)
  case h_2 => rfl

theorem mem_newRow_keys {table : CaptureTable} :
    key ∈ (table.newRow (pending.insert expectedEpoch)).keys ↔ key ∈ pending.keys :=
  ((List.Perm.swap _ _ _).append_left _).mem_iff

theorem insert_kept_iff (h : s.Books keepN) (hk : s.KeysKept) (hi : s.captures[i]? = some c)
    (hc : c.phase = .putting pending []) :
    (s.insert i c pending).KeysKept ↔ s.Uncrossed i c .insert (.putting pending []) := by
  have hevicts : c.evicts = [] := evicts_eq_nil hc fun _ _ _ heq => by cases heq
  have hsame : ∀ phase : CapturePhase, c.evicts ⊆ Capture.evicts { c with phase := phase } := by
    intro phase
    rw [hevicts]
    exact List.nil_subset _
  unfold Captures.insert
  split
  case h_1 table hinserted =>
    obtain ⟨hlease, hfree, rfl⟩ := CaptureTable.inserted_iff.1 hinserted
    constructor
    · intro hafter _ _ key hkey
      refine hafter _ (CaptureTable.mem_insertRow.2 (.inr rfl)) (fun hevicting => ?_) key (mem_newRow_keys.2 hkey)
      -- the id of the new row was not given before
      exact absurd (h.evicting_lt (evicting_shrinks hi (List.nil_subset _) hevicting)) (Nat.lt_irrefl _)
    · intro huncrossed r hr hstays key hkey
      rcases CaptureTable.mem_insertRow.1 hr with hold | rfl
      · exact hk r hold (fun hbefore => hstays (evicting_grows hi (hsame _) hbefore)) key hkey
      · exact huncrossed hlease hfree key (mem_newRow_keys.1 hkey)
  case h_2 hrejected =>
    refine ⟨fun _ hlease hfree => ?_, fun _ => hk.setPhase hi (hsame _)⟩
    rw [CaptureTable.inserted_iff.2 ⟨hlease, hfree, rfl⟩] at hrejected
    cases hrejected
  case h_3 hviolation =>
    refine ⟨fun _ hlease hfree => ?_, fun _ => hk.setPhase hi (hsame _)⟩
    rw [CaptureTable.inserted_iff.2 ⟨hlease, hfree, rfl⟩] at hviolation
    cases hviolation

theorem delete_kept_iff (h : s.Books keepN) (hk : s.KeysKept) (hi : s.captures[i]? = some c)
    (hc : c.phase = .deleting (key :: keys) rowIds planned) :
    (s.delete i c key (.deleting keys rowIds planned) true).KeysKept ↔
      s.Uncrossed i c (.delete true) (.deleting (key :: keys) rowIds planned) := by
  have hevicts : c.evicts = rowIds := by
    unfold Capture.evicts
    rw [hc]
  have hsound := h.captures c (List.mem_of_getElem? hi)
  rw [hc] at hsound
  obtain ⟨-, -, hspared⟩ := hsound
  have hsame : ∀ rowId, Evicting (s.delete i c key (.deleting keys rowIds planned) true).captures rowId ↔
      Evicting s.captures rowId := by
    intro rowId
    have hsub : c.evicts ⊆ Capture.evicts { c with phase := .deleting keys rowIds planned } := by
      rw [hevicts]
      exact List.Subset.refl _
    have hsup : Capture.evicts { c with phase := .deleting keys rowIds planned } ⊆ c.evicts := by
      rw [hevicts]
      exact List.Subset.refl _
    exact ⟨evicting_shrinks hi hsup, evicting_grows hi hsub⟩
  constructor
  · intro hafter r hr hread
    by_cases hevicting : Evicting s.captures r.id
    · exact .inl hevicting
    · have hstored := hafter r hr (fun hlater => hevicting ((hsame r.id).1 hlater)) key hread
      have hother := (List.mem_filter.1 hstored).2
      rw [bne_self_eq_false] at hother
      cases hother
  · intro huncrossed r hr hstays other hread
    have hstayed : ¬ Evicting s.captures r.id := fun hbefore => hstays ((hsame r.id).2 hbefore)
    refine List.mem_filter.2 ⟨hk r hr hstayed other hread, bne_iff_ne.2 ?_⟩
    rintro rfl
    rcases huncrossed r hr hread with hevicting | ⟨hplanned, hash, rfl⟩
    · exact hstayed hevicting
    · -- the plan spared the after-images of the rows that were there
      refine hspared r hr hplanned (fun hrow => ?_) hash List.mem_cons_self hread
      exact hstayed ((evicting_iff hi).2 (.inl (hevicts ▸ hrow)))

theorem deleteRowsFailed_kept_iff (hk : s.KeysKept) (hi : s.captures[i]? = some c)
    (hc : c.phase = .deleting [] rowIds planned) :
    (s.setPhase i c .finished).KeysKept ↔ s.Uncrossed i c .deleteRowsFailed (.deleting [] rowIds planned) := by
  have hevicts : c.evicts = rowIds := by
    unfold Capture.evicts
    rw [hc]
  have hothers : ∀ rowId, Evicting (s.setPhase i c .finished).captures rowId ↔
      Evicting (s.captures.eraseIdx i) rowId := by
    intro rowId
    exact (evicting_set hi).trans (or_iff_right List.not_mem_nil)
  constructor
  · intro hafter r hr _
    by_cases hother : Evicting (s.captures.eraseIdx i) r.id
    · exact .inl hother
    · exact .inr (hafter r hr fun hlater => hother ((hothers r.id).1 hlater))
  · intro huncrossed r hr hstays
    have hother : ¬ Evicting (s.captures.eraseIdx i) r.id := fun hlater => hstays ((hothers r.id).2 hlater)
    by_cases hrow : r.id ∈ rowIds
    · exact (huncrossed r hr hrow).resolve_left hother
    · refine hk r hr fun hbefore => ?_
      rcases (evicting_iff hi).1 hbefore with hown | hlater
      · exact hrow (hevicts ▸ hown)
      · exact hother hlater

theorem deleteRows_kept (hk : s.KeysKept) (hi : s.captures[i]? = some c)
    (hc : c.phase = .deleting [] rowIds planned) :
    KeysKept { s.setPhase i c .finished with table := s.table.deleteWorkspaceCaptureRows rowIds } := by
  refine hk.mono (List.Subset.refl _) fun r hr hstays => ?_
  obtain ⟨hrow, hkept⟩ := List.mem_filter.1 hr
  refine ⟨hrow, fun hbefore => ?_⟩
  rcases (evicting_iff hi).1 hbefore with hown | hother
  · unfold Capture.evicts at hown
    rw [hc] at hown
    rw [Bool.not_eq_true', ← Bool.not_eq_true, List.contains_iff_mem] at hkept
    exact hkept hown
  · exact hstays ((evicting_set hi).2 (.inr hother))

theorem collected_kept (hk : s.KeysKept) (hi : s.captures[i]? = some c) (hevicts : c.evicts = [])
    (prev : Option WorkspaceCaptureRow) (hashes : List ℕ) (fingerprint : ℕ) :
    (s.collected i c prev hashes fingerprint).KeysKept := by
  have hsame : ∀ phase : CapturePhase, c.evicts ⊆ Capture.evicts { c with phase := phase } := by
    intro phase
    rw [hevicts]
    exact List.nil_subset _
  unfold Captures.collected
  split
  · exact hk.setPhase hi (hsame _)
  · exact hk.moved hi (hsame _) (List.Subset.refl _) (s.uuids + 1)

theorem plan_kept (hk : s.KeysKept) (hi : s.captures[i]? = some c) (hevicts : c.evicts = []) :
    (s.plan keepN i c).KeysKept := by
  have hsame : ∀ phase : CapturePhase, c.evicts ⊆ Capture.evicts { c with phase := phase } := by
    intro phase
    rw [hevicts]
    exact List.nil_subset _
  unfold Captures.plan
  dsimp only
  split
  · exact hk.setPhase hi (hsame _)
  · exact hk.setPhase hi (hsame _)

/-- **What a step of a capture must find** is what keeps the keys. -/
theorem captureStep_kept_iff (h : s.Books keepN) (hk : s.KeysKept) (hi : s.captures[i]? = some c)
    {event : CaptureEvent} (hstep : s.captureStep keepN i c event c.phase = some t) :
    t.KeysKept ↔ s.Uncrossed i c event c.phase := by
  have hnil : (∀ keys rowIds planned, c.phase ≠ .deleting keys rowIds planned) → c.evicts = [] :=
    evicts_eq_nil rfl
  unfold Captures.captureStep at hstep
  split at hstep
  case h_4 pending hc =>
    cases hstep
    rw [hc]
    exact insert_kept_iff h hk hi hc
  case h_10 succeeds key keys rowIds planned hc =>
    cases hstep
    rw [hc]
    cases succeeds with
    | true => exact delete_kept_iff h hk hi hc
    | false =>
      refine iff_of_true (hk.moved hi ?_ (List.Subset.refl _) s.uuids) trivial
      unfold Capture.evicts
      rw [hc]
      exact List.Subset.refl _
  case h_11 hc =>
    cases hstep
    rw [hc]
    exact iff_of_true (deleteRows_kept hk hi hc) trivial
  case h_12 hc =>
    cases hstep
    rw [hc]
    exact deleteRowsFailed_kept_iff hk hi hc
  case h_13 => cases hstep
  case h_2 hc =>
    cases hstep
    have hevicts := hnil (by rw [hc]; exact fun _ _ _ heq => by cases heq)
    rw [hc]
    exact iff_of_true (collected_kept hk hi hevicts _ _ _) trivial
  case h_3 key _ hc =>
    cases hstep
    have hevicts := hnil (by rw [hc]; exact fun _ _ _ heq => by cases heq)
    rw [hc]
    refine iff_of_true (hk.moved hi ?_ (List.subset_cons_self key _) s.uuids) trivial
    rw [hevicts]
    exact List.nil_subset _
  case h_8 hc =>
    cases hstep
    have hevicts := hnil (by rw [hc]; exact fun _ _ _ heq => by cases heq)
    rw [hc]
    exact iff_of_true (plan_kept hk hi hevicts) trivial
  all_goals
    rename_i hc
    cases hstep
    have hevicts := hnil (by rw [hc]; exact fun _ _ _ heq => by cases heq)
    rw [hc]
    refine iff_of_true (hk.setPhase hi ?_) trivial
    rw [hevicts]
    exact List.nil_subset _

theorem step_kept_iff (h : s.Books keepN) (hk : s.KeysKept) {event : CapturesEvent}
    (hstep : s.step keepN event = some t) : t.KeysKept ↔ s.Apart event := by
  cases event with
  | started input =>
    cases hstep
    refine iff_of_true (hk.mono (List.Subset.refl _) fun r hr hstays => ⟨hr, ?_⟩) trivial
    rintro ⟨d, hd, hrow⟩
    exact hstays ⟨d, List.mem_append_left _ hd, hrow⟩
  | leaseMoved leaseEpoch =>
    cases hstep
    exact iff_of_true (hk.mono (List.Subset.refl _) fun r hr hstays => ⟨hr, hstays⟩) trivial
  | capture i event =>
    obtain ⟨c, hi, hcapture⟩ := Option.bind_eq_some_iff.1 hstep
    rw [captureStep_kept_iff h hk hi hcapture]
    constructor
    · intro huncrossed c' hc'
      cases hi.symm.trans hc'
      exact huncrossed
    · exact fun hapart => hapart c hi

theorem noCaptures_kept (leaseEpoch : Option ℕ) : (noCaptures leaseEpoch).KeysKept := by
  intro r hr
  cases hr

end

end Captures

/-- **A committed revision never points at a deleted blob** exactly if no step crosses another
capture. In every run the revisions are unique and the newest rows are not evicted. -/
theorem captures_keep_their_keys_iff (keepN : ℕ) (leaseEpoch : Option ℕ) (events : List CapturesEvent) :
    (EachState (fun s e t => Captures.step keepN s e = some t) Captures.KeysKept (noCaptures leaseEpoch) events ↔
      EachStep (fun s e t => Captures.step keepN s e = some t) Captures.Apart (noCaptures leaseEpoch) events) ∧
    EachState (fun s e t => Captures.step keepN s e = some t) (Captures.NewestKept keepN) (noCaptures leaseEpoch)
      events := by
  constructor
  · exact eachState_iff_eachStep (P := fun s => s.Books keepN ∧ s.KeysKept) (fun _ h => h.2)
      (fun _ _ _ hstep h hok => ⟨h.1.step hstep, (Captures.step_kept_iff h.1 h.2 hstep).2 hok⟩)
      (fun _ _ _ hstep h hafter => (Captures.step_kept_iff h.1 h.2 hstep).1 hafter)
      ⟨Captures.noCaptures_books keepN leaseEpoch, Captures.noCaptures_kept leaseEpoch⟩
  · have hany : EachStep (fun s e t => Captures.step keepN s e = some t) (fun _ _ => True) (noCaptures leaseEpoch)
        events := fun _ _ _ _ _ _ _ _ => trivial
    exact eachState_of_eachStep (fun _ h => h.newestKept) (fun _ _ _ hstep h _ => h.step hstep)
      (Captures.noCaptures_books keepN leaseEpoch) hany

/-! ## A zombie of the same turn, and a capture that outlived its race -/

/-- `KEEP_LATEST_REVISIONS`. -/
def keepLatestRevisions : ℕ := 10

/-- The steps of capture `i` up to its insert, of one touched file. -/
def committing (i hash : ℕ) : List CapturesEvent :=
  [.capture i .readLatest, .capture i (.collected [hash] hash), .capture i .put, .capture i .put, .capture i .put,
    .capture i .insert]

/-- A dispatch of turn 5 under epoch 1 captures; the lease moves on, the turn is dispatched again
and its capture commits; the first is superseded and deletes the keys of the turn. -/
def zombieDispatch : List CapturesEvent :=
  [.started { turnId := some 5, leaseEpoch := 1 }, .capture 0 .readLatest, .capture 0 (.collected [1] 1),
      .leaseMoved (some 2), .started { turnId := some 5, leaseEpoch := 2 }] ++ committing 1 1 ++
    [.capture 0 .put, .capture 0 .put, .capture 0 .put, .capture 0 .insert, .capture 0 (.delete true)]

def tenTurns : List CapturesEvent := (List.range 10).flatMap fun turn =>
    .started { turnId := some turn, leaseEpoch := 1 } :: committing turn turn ++ [.capture turn .plan]

/-- The capture of the eleventh turn plans to evict the first; it is slow. The twelfth turn has
put the first content back and commits before the eleventh deletes its after-image. -/
def slowCollection : List CapturesEvent :=
  tenTurns ++ .started { turnId := some 10, leaseEpoch := 1 } :: committing 10 10 ++ [.capture 10 .plan] ++
    .started { turnId := some 11, leaseEpoch := 1 } :: committing 11 0 ++ [.capture 10 (.delete true)]

theorem crossing_captures_lose_keys :
    ¬ EachState (fun s e t => Captures.step keepLatestRevisions s e = some t) Captures.KeysKept
        (noCaptures (some 1)) zombieDispatch ∧
      ¬ EachState (fun s e t => Captures.step keepLatestRevisions s e = some t) Captures.KeysKept
        (noCaptures (some 1)) slowCollection :=
  ⟨not_eachState_of_play (by decide +kernel), not_eachState_of_play (by decide +kernel)⟩

end OpenGeni.Worker
