/-
The fold of a workspace archive into a lease's envelope
(`packages/db/src/index.ts`, `foldWorkspaceArchiveOntoLease`) and what the envelope is read for
(`packages/runtime/src/sandbox/index.ts`, `deserializeSandboxSessionStateEnvelope`).

`jsonb_strip_nulls` is there to leave out the previous archive where there is none, but it is given
the whole session state: every null member of it goes, at every depth. The siblings are preserved
exactly if there is none (`fold_preserves_iff`).
-/
import OpenGeni.Lib.Jsonb
import OpenGeni.Db.SandboxLease

namespace OpenGeni.Db

open OpenGeni.Lib

variable {N : Type}

structure LeaseEnvelope (N : Type) where
  liveness : SandboxLeaseLiveness
  refcount : ℕ
  leaseEpoch : ℕ
  resumeState : Option (Json N JsString)

structure FoldInput where
  expectedEpoch : ℕ
  workspaceArchive : JsString
  /-- `'draining'`, or else `'warm'`. -/
  draining : Bool
  priorCurrentArchive : Option JsString
  clearPreviousArchive : Bool
  archiveAtIso : Option JsString

namespace FoldInput

def Guard (input : FoldInput) (row : LeaseEnvelope N) : Prop :=
  (if input.draining then row.liveness = .draining ∧ row.refcount = 0 else row.liveness = .warm) ∧
    row.leaseEpoch = input.expectedEpoch

instance (input : FoldInput) (row : LeaseEnvelope N) : Decidable (input.Guard row) := by
  unfold Guard
  infer_instance

/-- `archiveAt`. An empty text is none. -/
def archiveAt (now : JsString) (input : FoldInput) : JsString := match input.archiveAtIso with
  | some iso => if iso = [] then now else iso
  | none => now

def workspaceArchivePrev (input : FoldInput) : Option JsString :=
  if input.clearPreviousArchive then none else input.priorCurrentArchive

end FoldInput

/-- `case when jsonb_typeof(value) = 'object' then value else '{}'`. -/
def objectOrEmpty : Option (Json N JsString) → List (JsString × Json N JsString)
  | some (.object members) => members
  | _ => []

/-- `resume_state -> 'sessionState'`, or `'{}'` where it is no object. -/
def sessionStateOrEmpty (resumeState : Option (Json N JsString)) : List (JsString × Json N JsString) :=
  objectOrEmpty (resumeState.bind (·.member (.ascii "sessionState")))

def builtArchive (now : JsString) (input : FoldInput) : List (JsString × Json N JsString) :=
  [(.ascii "workspaceArchive", .string input.workspaceArchive),
    (.ascii "workspaceArchiveAt", .string (input.archiveAt now)),
    (.ascii "workspaceArchivePrev", (input.workspaceArchivePrev.map .string).getD .null)]

/-- `foldWorkspaceArchiveOntoLease`, with `now` the text of the time. -/
def foldWorkspaceArchiveOntoLease (now : JsString) (input : FoldInput) (row : LeaseEnvelope N) : LeaseEnvelope N :=
  if input.Guard row then
    { row with
      resumeState := some (.object (Json.setMember (.ascii "sessionState") (.object (Json.stripMembers
          (Json.concatMembers (sessionStateOrEmpty row.resumeState) (builtArchive now input))))
        (objectOrEmpty row.resumeState))) }
  else row

/-! ## Reading an envelope -/

section

variable [Zero N] [DecidableEq N]

def jsonTruthy : Json N JsString → Bool
  | .null => false
  | .boolean b => b
  | .number n => decide (n ≠ 0)
  | .string s => decide (s ≠ [])
  | .array _ => true
  | .object _ => true

/-- The members of an object literal; one may be `undefined`. -/
abbrev ObjectLiteral (N : Type) := List (JsString × Option (Json N JsString))

/-- `...value`. -/
def spreadValue : Json N JsString → ObjectLiteral N
  | .object members => members.map fun m => (m.1, some m.2)
  | .array items => items.zipIdx.map fun item => (.ascii (toString item.2), some item.1)
  | .string s => s.zipIdx.map fun unit => (.ascii (toString unit.2), some (.string [unit.1]))
  | _ => []

/-- What `deserializeSessionState` is called with. -/
def deserializeArgument (state : Json N JsString) : ObjectLiteral N :=
  let field (name : String) := state.member (.ascii name)
  let present (name : String) : ObjectLiteral N := ((field name).map fun value => (.ascii name, some value)).toList
  -- `state.providerState ?? {}`: nothing is spread of a null either
  ((field "providerState").map spreadValue).getD [] ++ [(.ascii "manifest", field "manifest")] ++
    present "snapshot" ++ present "snapshotFingerprint" ++ present "snapshotFingerprintVersion" ++
    [(.ascii "workspaceReady", field "workspaceReady")] ++
    (((field "exposedPorts").filter jsonTruthy).map fun value => (.ascii "exposedPorts", some value)).toList

/-- `deserializeSandboxSessionStateEnvelope`, for a client with or without `deserializeSessionState`.
The error is that the client has none. -/
def deserializeSandboxSessionStateEnvelope {R : Type} (client : Option (ObjectLiteral N → R))
    (envelope : Option (Json N JsString)) : Except Unit (Option R) :=
  match envelope with
  | some (.object members) => client.elim (.error ()) fun d => .ok (some (d (deserializeArgument (.object members))))
  | some (.array items) => client.elim (.error ()) fun d => .ok (some (d (deserializeArgument (.array items))))
  | _ => .ok none

/-! ## What the fold promises -/

def archiveKeys : List JsString :=
  [.ascii "workspaceArchive", .ascii "workspaceArchiveAt", .ascii "workspaceArchivePrev"]

/-- The fold has changed the archive, and nothing else. Where the session state was no object there
was no provider state, as of an empty object. -/
structure ChangesArchiveOnly (now : JsString) (input : FoldInput) (before after : Option (Json N JsString)) : Prop where
  object : ∃ members, after = some (.object members)
  archive : (after.bind (·.member (.ascii "sessionState"))).map (fun state => archiveKeys.map state.member) =
    some [some (.string input.workspaceArchive), some (.string (input.archiveAt now)),
      input.workspaceArchivePrev.map .string]
  outer : ∀ name ≠ .ascii "sessionState", after.bind (·.member name) = before.bind (·.member name)
  inner : ∀ name ∉ archiveKeys, (after.bind (·.member (.ascii "sessionState"))).bind (·.member name) =
    (before.bind (·.member (.ascii "sessionState"))).bind (·.member name)
  deserialized : ∀ (R : Type) (client : Option (ObjectLiteral N → R)),
    deserializeSandboxSessionStateEnvelope client (after.bind (·.member (.ascii "sessionState"))) =
      deserializeSandboxSessionStateEnvelope client (some (.object (sessionStateOrEmpty before)))

/-- No member of the session state beside the archive is null, or has a null member at any depth. -/
def NullFreeState (before : Option (Json N JsString)) : Prop := ∀ name ∉ archiveKeys, ∀ value,
    (before.bind (·.member (.ascii "sessionState"))).bind (·.member name) = some value → value.Survives

end

/-! ## The fold -/

section

variable {now : JsString} {input : FoldInput} {row : LeaseEnvelope N} {name : JsString}

theorem lookup_objectOrEmpty (value : Option (Json N JsString)) :
    (objectOrEmpty value).lookup name = value.bind (·.member name) := by
  unfold objectOrEmpty
  split
  · rfl
  · next hobject =>
      cases value with
      | none => rfl
      | some value =>
        cases value with
        | object members => exact absurd rfl (hobject members)
        | _ => rfl

theorem lookup_builtArchive (hname : name ∉ archiveKeys) : (builtArchive now input : List (_ × Json N _)).lookup name = none := by
  rw [List.lookup_eq_none_iff]
  rintro ⟨key, value⟩ hmem
  simp only [builtArchive, List.mem_cons, Prod.mk.injEq, List.not_mem_nil, or_false] at hmem
  simp only [archiveKeys, List.mem_cons, List.not_mem_nil, or_false, not_or] at hname
  obtain ⟨rfl, -⟩ | ⟨rfl, -⟩ | ⟨rfl, -⟩ := hmem
  · simpa using hname.1
  · simpa using hname.2.1
  · simpa using hname.2.2

def foldedMembers (now : JsString) (input : FoldInput) (before : Option (Json N JsString)) :
    List (JsString × Json N JsString) :=
  Json.stripMembers (Json.concatMembers (sessionStateOrEmpty before) (builtArchive now input))

theorem fold_resumeState (hguard : input.Guard row) : (foldWorkspaceArchiveOntoLease now input row).resumeState =
      some (.object (Json.setMember (.ascii "sessionState") (.object (foldedMembers now input row.resumeState))
        (objectOrEmpty row.resumeState))) := by
  unfold foldWorkspaceArchiveOntoLease
  rw [if_pos hguard]
  rfl

theorem fold_sessionState (hguard : input.Guard row) :
    (foldWorkspaceArchiveOntoLease now input row).resumeState.bind (·.member (.ascii "sessionState")) =
      some (.object (foldedMembers now input row.resumeState)) := by
  rw [fold_resumeState hguard, Option.bind_some]
  unfold Json.member
  exact Json.lookup_setMember_self _ _

theorem lookup_foldedMembers_archive (before : Option (Json N JsString)) :
    archiveKeys.map (fun name => (foldedMembers now input before).lookup name) =
      [some (.string input.workspaceArchive), some (.string (input.archiveAt now)),
        input.workspaceArchivePrev.map Json.string] := by
  have hbuilt : ∀ name ∈ archiveKeys, (foldedMembers now input before).lookup name =
      (Json.stripMembers (builtArchive now input)).lookup name := by
    intro name hname
    apply Json.lookup_stripMembers_concat
    simp only [archiveKeys, List.mem_cons, List.not_mem_nil, or_false] at hname
    obtain rfl | rfl | rfl := hname <;> rfl
  rw [List.map_congr_left hbuilt]
  unfold builtArchive
  cases input.workspaceArchivePrev with
  | some | none => rfl

theorem lookup_foldedMembers_iff (before : Option (Json N JsString)) (hname : name ∉ archiveKeys) :
    (foldedMembers now input before).lookup name = (sessionStateOrEmpty before).lookup name ↔
      ∀ value, (sessionStateOrEmpty before).lookup name = some value → value.Survives := by
  have hconcat : (Json.concatMembers (sessionStateOrEmpty before) (builtArchive now input)).lookup name =
      (sessionStateOrEmpty before).lookup name := by
    rw [Json.lookup_concatMembers, lookup_builtArchive hname, Option.none_or]
  rw [← hconcat]
  exact Json.lookup_stripMembers_eq_iff _

theorem deserialize_congr [Zero N] [DecidableEq N] {members members' : List (JsString × Json N JsString)}
    (h : ∀ name ∉ archiveKeys, members.lookup name = members'.lookup name) {R : Type}
    (client : Option (ObjectLiteral N → R)) :
    deserializeSandboxSessionStateEnvelope client (some (.object members)) =
      deserializeSandboxSessionStateEnvelope client (some (.object members')) := by
  have hargument : deserializeArgument (.object members) = deserializeArgument (.object members') := by
    unfold deserializeArgument Json.member
    simp only
    rw [h (.ascii "providerState") (by decide), h (.ascii "manifest") (by decide), h (.ascii "snapshot") (by decide),
      h (.ascii "snapshotFingerprint") (by decide), h (.ascii "snapshotFingerprintVersion") (by decide),
      h (.ascii "workspaceReady") (by decide), h (.ascii "exposedPorts") (by decide)]
  unfold deserializeSandboxSessionStateEnvelope
  simp only
  rw [hargument]

/-- **The fold changes the archive only** exactly if the rest of the session state has no null to
strip. -/
theorem fold_preserves_iff [Zero N] [DecidableEq N] (now : JsString) (input : FoldInput) (row : LeaseEnvelope N)
    (hguard : input.Guard row) :
    ChangesArchiveOnly now input row.resumeState (foldWorkspaceArchiveOntoLease now input row).resumeState ↔
      NullFreeState row.resumeState := by
  have hstate : _ = some (Json.object (foldedMembers now input row.resumeState)) := fold_sessionState hguard
  have hbefore : ∀ name, (sessionStateOrEmpty row.resumeState).lookup name =
      (row.resumeState.bind (·.member (.ascii "sessionState"))).bind (·.member name) :=
    fun name => lookup_objectOrEmpty _
  constructor
  · intro hchanges name hname
    have hinner := hchanges.inner name hname
    rw [hstate, ← hbefore] at hinner
    rw [← hbefore]
    exact (lookup_foldedMembers_iff _ hname).mp hinner
  · intro hnull
    have hkept : ∀ name ∉ archiveKeys, (foldedMembers now input row.resumeState).lookup name =
        (sessionStateOrEmpty row.resumeState).lookup name := by
      intro name hname
      apply (lookup_foldedMembers_iff _ hname).mpr
      rw [hbefore]
      exact hnull name hname
    refine ⟨⟨_, fold_resumeState hguard⟩, ?_, ?_, ?_, ?_⟩
    · rw [hstate]
      exact congrArg some (lookup_foldedMembers_archive _)
    · intro name hname
      rw [fold_resumeState hguard, ← lookup_objectOrEmpty row.resumeState]
      exact Json.lookup_setMember_ne hname _ _
    · intro name hname
      rw [hstate, ← hbefore]
      exact hkept name hname
    · intro R client
      rw [hstate]
      exact deserialize_congr hkept client

end

/-! ## A session state with a null in it -/

/-- A warm lease whose session state has the given provider state. -/
def warmEnvelope (providerState : Json ℕ JsString) : LeaseEnvelope ℕ where
  liveness := .warm
  refcount := 1
  leaseEpoch := 0
  resumeState := some (.object [(.ascii "sessionState", .object [(.ascii "providerState", providerState)])])

def warmInput : FoldInput where
  expectedEpoch := 0
  workspaceArchive := .ascii "archive"
  draining := false
  priorCurrentArchive := none
  clearPreviousArchive := false
  archiveAtIso := none

/-- A provider state without nulls is preserved. -/
theorem fold_preserves_empty : ChangesArchiveOnly [] warmInput (warmEnvelope (.object [])).resumeState
      (foldWorkspaceArchiveOntoLease [] warmInput (warmEnvelope (.object []))).resumeState := by
  refine (fold_preserves_iff [] warmInput (warmEnvelope (.object [])) ⟨rfl, rfl⟩).mpr ?_
  intro name _ value hvalue
  change [(JsString.ascii "providerState", Json.object [])].lookup name = some value at hvalue
  rw [List.lookup_cons] at hvalue
  split at hvalue
  · cases hvalue
    exact ⟨rfl, rfl⟩
  · cases hvalue

/-- A null in the provider state is lost. -/
theorem fold_strips_provider_state : ¬ ∀ (now : JsString) (input : FoldInput) (row : LeaseEnvelope ℕ), input.Guard row →
    ChangesArchiveOnly now input row.resumeState (foldWorkspaceArchiveOntoLease now input row).resumeState := by
  intro h
  have hinner := (h [] warmInput (warmEnvelope (.object [(.ascii "region", .null)])) ⟨rfl, rfl⟩).inner
    (.ascii "providerState") (by decide)
  have hstripped : some (Json.object []) = some (Json.object [(JsString.ascii "region", (.null : Json ℕ JsString))]) :=
    hinner
  simp at hstripped

end OpenGeni.Db
