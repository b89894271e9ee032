/-
The upload of a file: two rows in the database and an object in the store.

The client puts the object with a signed URL and asks to complete the upload. The route looks at
the row and at the head of the object, and marks the file ready in one transaction; or it claims
the upload for cleanup, deletes the object and settles the claim. The reaper does the same with
uploads that have expired. Every transaction locks the upload row before the file row, so each is
one step here; between two steps of a request anything else may happen, and each party may stop
after any of its steps. A delete that was reported as failed may still take effect later.

What happened to the object is kept next to the model, newest first.
-/
import OpenGeni.Lib.Run
import OpenGeni.Lib.Slots

namespace OpenGeni.Files

open OpenGeni.Lib

/-! ## The rows and the object -/

inductive FileStatus
  | pendingUpload
  | ready
  | failed
  | expired
  | deleted
deriving DecidableEq

inductive FileUploadStatus
  | pending
  | cleanupPending
  | completed
  | expired
  | failed
deriving DecidableEq

def FileUploadStatus.text : FileUploadStatus → String
  | .pending => "pending"
  | .cleanupPending => "cleanup_pending"
  | .completed => "completed"
  | .expired => "expired"
  | .failed => "failed"

structure FileRow where
  id : String
  workspaceId : String
  status : FileStatus
  contentType : String
  sizeBytes : ℕ
  sha256 : Option String
deriving DecidableEq

structure UploadRow where
  status : FileUploadStatus
  expiresAt : ℕ
  updatedAt : ℕ
deriving DecidableEq

structure ObjectHead where
  contentLength : Option ℕ
  contentType : Option String
  sha256 : Option String
deriving DecidableEq

structure UsageEvent where
  idempotencyKey : String
  quantity : ℕ
deriving DecidableEq

structure FileTables where
  upload : UploadRow
  file : FileRow
deriving DecidableEq

namespace FileTables

/-- `none` where it throws. -/
def completeFileUpload (now : ℕ) (t : FileTables) : Option FileTables :=
  if t.upload.status = .completed ∧ t.file.status = .ready then
    some t
  else if t.upload.status ≠ .pending then
    none
  else
    some
      { upload := { t.upload with status := .completed, updatedAt := now }
        file := { t.file with status := .ready } }

def condemn (now : ℕ) (t : FileTables) : FileTables where
  upload := { t.upload with status := .cleanupPending, updatedAt := now }
  file := { t.file with status := .failed }

inductive ClaimOutcome
  | claimed
  | completed
  | unavailable (status : FileUploadStatus)

def claimFileUploadCleanup (now : ℕ) (t : FileTables) : FileTables × ClaimOutcome :=
  if t.upload.status = .completed ∧ t.file.status = .ready then
    (t, .completed)
  else if t.upload.status ≠ .pending then
    (t, .unavailable t.upload.status)
  else
    (t.condemn now, .claimed)

/-- `claim_expired_file_upload_cleanup`, as far as it is about this upload. -/
def claimExpiredFileUploadCleanup (now graceMs claimTimeoutMs : ℕ) (t : FileTables) : Option FileTables :=
  if (t.upload.status = .pending ∧ t.upload.expiresAt + graceMs ≤ now) ∨
      (t.upload.status = .cleanupPending ∧ t.upload.updatedAt + claimTimeoutMs ≤ now) then
    some (t.condemn now)
  else
    none

inductive TerminalStatus
  | failed
  | expired
deriving DecidableEq

def TerminalStatus.status : TerminalStatus → FileUploadStatus
  | .failed => .failed
  | .expired => .expired

def completeFileUploadCleanup (now : ℕ) (terminalStatus : TerminalStatus) (t : FileTables) : FileTables × Bool :=
  if t.upload.status = terminalStatus.status then
    (t, true)
  else if t.upload.status ≠ .cleanupPending then
    (t, false)
  else
    ({ upload := { t.upload with status := terminalStatus.status, updatedAt := now }
       file := { t.file with status := .failed } }, true)

end FileTables

/-- The size, the type and the checksum of the head are those of the row. -/
def ObjectHead.Mismatch (file : FileRow) (head : ObjectHead) : Option String :=
  if head.contentLength ≠ some file.sizeBytes then
    some "uploaded object size does not match file metadata"
  else if file.contentType ≠ "" ∧ head.contentType.getD "" ≠ "" ∧ head.contentType ≠ some file.contentType then
    some "uploaded object content type does not match file metadata"
  else if file.sha256.getD "" ≠ "" ∧ head.sha256 ≠ file.sha256 then
    some "uploaded object checksum metadata does not match file metadata"
  else
    none

def ObjectHead.Passes (file : FileRow) (head : ObjectHead) : Prop := head.Mismatch file = none

def uploadedKey (file : FileRow) : String := "file.uploaded:" ++ file.workspaceId ++ ":" ++ file.id

def recordUsageEvent (event : UsageEvent) (rows : List UsageEvent) : List UsageEvent :=
  if rows.any (·.idempotencyKey = event.idempotencyKey) then rows else rows ++ [event]

/-! ## The requests -/

structure HttpError where
  status : ℕ
  message : String
deriving DecidableEq

/-- The arguments of `rejectAndCleanObject`. -/
structure Rejection where
  error : HttpError
  terminalStatus : FileTables.TerminalStatus
deriving DecidableEq

inductive Party
  | begun
  | fetched (uploadStatus : FileUploadStatus) (fileStatus : FileStatus) (expiresAt : ℕ)
  | heading
  | finalizing
  /-- `completeFileUpload` has thrown. -/
  | rereading
  | rejecting (rejection : Rejection)
  | deleting (rejection : Rejection)
  | settling (rejection : Rejection)
  | recording
  | answered (error : Option HttpError)
  | reaping
  | reapSettling
deriving DecidableEq

inductive ObjectStep
  | put (head : ObjectHead)
  | checked (head : ObjectHead)
  | deleted
deriving DecidableEq

structure UploadState where
  now : ℕ
  tables : FileTables
  object : Option ObjectHead
  usage : List UsageEvent
  parties : Slots ℕ Party
  deleteSent : Bool
  history : List ObjectStep
deriving DecidableEq

inductive UploadEvent
  | complete (i : ℕ)
  /-- The next step of a party. Where it calls the store, the call may fail. -/
  | advance (i : ℕ) (succeeds : Bool)
  | stop (i : ℕ)
  | put (head : ObjectHead)
  | reap (i graceMs claimTimeoutMs : ℕ)
  | deleteLands
  | tick (ms : ℕ)

def publicFileUploadStatus (status : FileUploadStatus) : String :=
  if status = .cleanupPending then "failed" else status.text

def conflict (message : String) : HttpError := { status := 409, message }

def uploadIs (status : FileUploadStatus) : HttpError :=
  conflict ("file upload is " ++ publicFileUploadStatus status)

namespace UploadState

def put (s : UploadState) (i : ℕ) (p : Party) : UploadState := { s with parties := s.parties.put i p }

def answer (s : UploadState) (i : ℕ) (error : Option HttpError) : UploadState := s.put i (.answered error)

def delete (s : UploadState) : UploadState :=
  { s with object := none, deleteSent := true, history := .deleted :: s.history }

def branch (s : UploadState) (i : ℕ) (uploadStatus : FileUploadStatus) (fileStatus : FileStatus)
    (expiresAt : ℕ) : UploadState :=
  if uploadStatus = .completed ∧ fileStatus = .ready then
    s.put i .finalizing
  else if uploadStatus ≠ .pending then
    s.answer i (some (uploadIs uploadStatus))
  else if expiresAt < s.now then
    s.put i (.rejecting { error := conflict "file upload has expired", terminalStatus := .expired })
  else
    s.put i .heading

def head (s : UploadState) (i : ℕ) (succeeds : Bool) : UploadState := match s.object, succeeds with
  | some head, true =>
    match head.Mismatch s.tables.file with
    | none => { s with history := .checked head :: s.history }.put i .finalizing
    | some message => s.put i (.rejecting { error := { status := 422, message }, terminalStatus := .failed })
  | _, _ => s.answer i (some (conflict "uploaded object is not available"))

def claim (s : UploadState) (i : ℕ) (rejection : Rejection) : UploadState :=
  match s.tables.claimFileUploadCleanup s.now with
  | (_, .completed) => s.put i .recording
  | (_, .unavailable status) => s.answer i (some (uploadIs status))
  | (tables, .claimed) => { s with tables }.put i (.deleting rejection)

def advance (s : UploadState) (i : ℕ) (succeeds : Bool) : Party → Option UploadState
  | .begun => some (s.put i (.fetched s.tables.upload.status s.tables.file.status s.tables.upload.expiresAt))
  | .fetched uploadStatus fileStatus expiresAt => some (s.branch i uploadStatus fileStatus expiresAt)
  | .heading => some (s.head i succeeds)
  | .finalizing =>
    match s.tables.completeFileUpload s.now with
    | some tables => some ({ s with tables }.put i .recording)
    | none => some (s.put i .rereading)
  | .rereading =>
    if s.tables.upload.status = .completed ∧ s.tables.file.status = .ready then
      some (s.put i .recording)
    else if s.tables.upload.status ≠ .pending then
      some (s.answer i (some (uploadIs s.tables.upload.status)))
    else
      some (s.answer i (some { status := 500, message := "Internal Server Error" }))
  | .rejecting rejection => some (s.claim i rejection)
  | .deleting rejection =>
    if succeeds then
      some (s.delete.put i (.settling rejection))
    else
      some ({ s with deleteSent := true }.answer i (some rejection.error))
  | .settling rejection =>
    let (tables, settled) := s.tables.completeFileUploadCleanup s.now rejection.terminalStatus
    some ({ s with tables }.answer i
      (some (if settled then rejection.error else conflict "file upload cleanup claim was superseded")))
  | .recording =>
    let event := { idempotencyKey := uploadedKey s.tables.file, quantity := s.tables.file.sizeBytes }
    some ({ s with usage := recordUsageEvent event s.usage }.answer i none)
  | .reaping =>
    if succeeds then
      some (s.delete.put i .reapSettling)
    else
      some { s with deleteSent := true, parties := s.parties.drop i }
  | .reapSettling =>
    let (tables, _) := s.tables.completeFileUploadCleanup s.now .expired
    some { s with tables, parties := s.parties.drop i }
  | .answered _ => none

def step (s : UploadState) : UploadEvent → Option UploadState
  | .complete i =>
    match s.parties.get i with
    | none => some (s.put i .begun)
    | some _ => none
  | .advance i succeeds => (s.parties.get i).bind (s.advance i succeeds)
  | .stop i => some { s with parties := s.parties.drop i }
  | .put head => some { s with object := some head, history := .put head :: s.history }
  | .reap i graceMs claimTimeoutMs =>
    match s.parties.get i with
    | none =>
      (s.tables.claimExpiredFileUploadCleanup s.now graceMs claimTimeoutMs).map fun tables =>
        { s with tables }.put i .reaping
    | some _ => none
  | .deleteLands => if s.deleteSent then some s.delete else none
  | .tick ms => some { s with now := s.now + ms }

end UploadState

def uploadSteps (s : UploadState) (e : UploadEvent) (s' : UploadState) : Prop := s.step e = some s'

/-! ## What a ready file has -/

/-- A request has found the object to match the row, nothing has deleted it since, and it is the one
that is there unless the client has put another. -/
def UploadState.Kept (s : UploadState) : Prop :=
  ∃ head later earlier, s.history = later ++ .checked head :: earlier ∧ head.Passes s.tables.file ∧
    .deleted ∉ later ∧ s.object.isSome ∧ ((∀ h, .put h ∉ later) → s.object = some head)

def UploadState.recorded (s : UploadState) : List UsageEvent :=
  s.usage.filter (·.idempotencyKey = uploadedKey s.tables.file)

/-- The rows of an upload that is not complete, or of a file that was deleted, before any request. -/
structure UploadState.Begins (s : UploadState) : Prop where
  pending : s.tables.upload.status = .pending → s.tables.file.status = .pendingUpload
  fenced : s.tables.upload.status = .cleanupPending → s.tables.file.status = .failed
  ready : s.tables.file.status ≠ .ready
  parties : s.parties = []
  sent : s.deleteSent = false
  usage : s.recorded = []

/-! ## The invariant -/

def FileUploadStatus.condemned : FileUploadStatus → Bool
  | .cleanupPending => true
  | .failed => true
  | .expired => true
  | _ => false

structure FileTables.Agree (t : FileTables) : Prop where
  pending : t.upload.status = .pending → t.file.status = .pendingUpload
  fenced : t.upload.status = .cleanupPending → t.file.status = .failed
  ready : t.file.status = .ready → t.upload.status = .completed

def Party.Relies (s : UploadState) : Party → Prop
  | .fetched uploadStatus _ _ => uploadStatus = .completed → s.tables.upload.status = .completed
  | .finalizing => s.tables.upload.status = .pending → s.Kept
  | .deleting _ => s.tables.upload.status.condemned
  | .settling _ => s.tables.upload.status.condemned
  | .reaping => s.tables.upload.status.condemned
  | .reapSettling => s.tables.upload.status.condemned
  | .recording => s.tables.file.status = .ready
  | _ => True

structure UploadState.Sound (s : UploadState) : Prop where
  agree : s.tables.Agree
  sent : s.deleteSent → s.tables.upload.status.condemned
  ready : s.tables.file.status = .ready → s.Kept
  parties : ∀ e ∈ s.parties, e.2.Relies s
  usage : s.recorded.length ≤ 1

structure UploadState.Keeps (s s' : UploadState) : Prop where
  completed : s.tables.upload.status = .completed → s'.tables.upload.status = .completed
  condemned : s.tables.upload.status.condemned → s'.tables.upload.status.condemned
  ready : s.tables.file.status = .ready → s'.tables.file.status = .ready
  kept : (s.tables.upload.status = .pending → s.Kept) → s'.tables.upload.status = .pending → s'.Kept

variable {s s' : UploadState} {t t' : FileTables} {i now : ℕ} {p : Party} {succeeds : Bool}

theorem Party.Relies.mono (hk : s.Keeps s') (h : p.Relies s) : p.Relies s' := by
  cases p with
  | fetched uploadStatus fileStatus expiresAt => exact fun heq => hk.completed (h heq)
  | finalizing => exact hk.kept h
  | deleting | settling | reaping | reapSettling => exact hk.condemned h
  | recording => exact hk.ready h
  | _ => trivial

/-- **One party moves.** The others keep what they rely on. -/
theorem UploadState.Sound.next (h : s.Sound) (hk : s.Keeps s') (hagree : s'.tables.Agree)
    (hsent : s'.deleteSent → s'.tables.upload.status.condemned) (hready : s'.tables.file.status = .ready → s'.Kept)
    (hparties : ∀ e ∈ s'.parties, e ∈ s.parties ∨ e.2.Relies s') (husage : s'.recorded.length ≤ 1) : s'.Sound where
  agree := hagree
  sent := hsent
  ready := hready
  parties e he := (hparties e he).elim (fun hold => (h.parties e hold).mono hk) id
  usage := husage

theorem UploadState.Sound.put (h : s.Sound) (hp : p.Relies s) : (s.put i p).Sound := by
  refine h.next ⟨id, id, id, id⟩ h.agree h.sent h.ready (fun e he => ?_) h.usage
  obtain rfl | he := Slots.mem_put he
  · exact .inr hp
  · exact .inl he

theorem UploadState.Sound.answer (h : s.Sound) {error : Option HttpError} : (s.answer i error).Sound :=
  h.put trivial

theorem UploadState.Sound.drop (h : s.Sound) : ({ s with parties := s.parties.drop i } : UploadState).Sound :=
  h.next ⟨id, id, id, id⟩ h.agree h.sent h.ready (fun _ he => .inl (Slots.mem_of_mem_drop he)) h.usage

/-! ## What happens to the object -/

theorem UploadState.Kept.put (h : s.Kept) (head : ObjectHead) :
    ({ s with object := some head, history := .put head :: s.history } : UploadState).Kept := by
  obtain ⟨found, later, earlier, hhist, hpass, hdel, -, -⟩ := h
  refine ⟨found, .put head :: later, earlier, by rw [hhist]; rfl, hpass, ?_, rfl, fun hput => ?_⟩
  · rintro (_ | ⟨_, hmem⟩)
    exact hdel hmem
  · exact absurd List.mem_cons_self (hput head)

theorem UploadState.kept_of_passes {head : ObjectHead} (hobject : s.object = some head)
    (hpass : head.Passes s.tables.file) :
    ({ s with history := .checked head :: s.history } : UploadState).Kept :=
  ⟨head, [], s.history, rfl, hpass, List.not_mem_nil, by rw [hobject]; rfl, fun _ => hobject⟩

theorem not_pending_of_condemned {status : FileUploadStatus} (h : status.condemned) : status ≠ .pending := by
  rintro rfl
  cases h

theorem FileTables.Agree.not_ready (h : t.Agree) (hcondemned : t.upload.status.condemned) : t.file.status ≠ .ready := by
  intro hready
  rw [h.ready hready] at hcondemned
  cases hcondemned

theorem UploadState.Sound.delete (h : s.Sound) (hcondemned : s.tables.upload.status.condemned) : s.delete.Sound :=
  h.next ⟨id, id, id, fun _ hpending => absurd hpending (not_pending_of_condemned hcondemned)⟩ h.agree
    (fun _ => hcondemned) (fun hready => absurd hready (h.agree.not_ready hcondemned)) (fun _ he => .inl he) h.usage

/-! ## What happens to the rows -/

theorem FileTables.completeFileUpload_cases (h : t.completeFileUpload now = some t') :
    (t' = t ∧ t.file.status = .ready) ∨
      (t.upload.status = .pending ∧ t'.upload.status = .completed ∧ t'.file = { t.file with status := .ready }) := by
  unfold FileTables.completeFileUpload at h
  split_ifs at h with hdone hpending
  · exact .inl ⟨(Option.some.inj h).symm, hdone.2⟩
  · cases h
    exact .inr ⟨not_not.1 hpending, rfl, rfl⟩

theorem FileTables.completeFileUploadCleanup_cases (t : FileTables) (now : ℕ) (terminalStatus : FileTables.TerminalStatus) :
    (t.completeFileUploadCleanup now terminalStatus).1 = t ∨ (t.upload.status = .cleanupPending ∧
        (t.completeFileUploadCleanup now terminalStatus).1.upload.status = terminalStatus.status ∧
          (t.completeFileUploadCleanup now terminalStatus).1.file = { t.file with status := .failed }) := by
  unfold FileTables.completeFileUploadCleanup
  split_ifs with hdone hfenced
  · exact .inl rfl
  · exact .inl rfl
  · exact .inr ⟨not_not.1 hfenced, rfl, rfl⟩

theorem FileTables.TerminalStatus.condemned (terminalStatus : FileTables.TerminalStatus) :
    terminalStatus.status.condemned := by
  cases terminalStatus <;> rfl

theorem UploadState.Sound.complete (h : s.Sound) (hpending : s.tables.upload.status = .pending) (hkept : s.Kept)
    (hupload : t.upload.status = .completed) (hfile : t.file = { s.tables.file with status := .ready }) :
    ({ s with tables := t } : UploadState).Sound := by
  have hnot : ¬ s.tables.upload.status.condemned := by rw [hpending]; exact Bool.false_ne_true
  have hkept' : ({ s with tables := t } : UploadState).Kept := by
    obtain ⟨head, later, earlier, hhist, hpass, hrest⟩ := hkept
    refine ⟨head, later, earlier, hhist, ?_, hrest⟩
    rw [hfile]
    exact hpass
  refine h.next ⟨fun _ => hupload, fun hc => absurd hc hnot, fun _ => by rw [hfile], fun _ _ => hkept'⟩ ⟨?_, ?_, fun _ => hupload⟩
    (fun hsent => absurd (h.sent hsent) hnot) (fun _ => hkept') (fun _ he => .inl he) ?_
  · exact fun hp => by simp [hupload] at hp
  · exact fun hp => by simp [hupload] at hp
  · have hsame : ({ s with tables := t } : UploadState).recorded = s.recorded := by
      unfold UploadState.recorded uploadedKey
      rw [hfile]
    rw [hsame]
    exact h.usage

theorem UploadState.Sound.condemn (h : s.Sound) (hnot : s.tables.upload.status ≠ .completed)
    (hupload : t.upload.status.condemned) (hfile : t.file = { s.tables.file with status := .failed }) :
    ({ s with tables := t } : UploadState).Sound := by
  have hfailed : t.file.status = .failed := by rw [hfile]
  refine h.next ⟨fun hc => absurd hc hnot, fun _ => hupload, fun hr => absurd (h.agree.ready hr) hnot,
    fun _ hp => absurd hp (not_pending_of_condemned hupload)⟩ ⟨?_, fun _ => hfailed, fun hr => ?_⟩ (fun _ => hupload)
    (fun hr => ?_) (fun _ he => .inl he) ?_
  · exact fun hp => absurd hp (not_pending_of_condemned hupload)
  · simp [hfailed] at hr
  · simp [hfailed] at hr
  · have hsame : ({ s with tables := t } : UploadState).recorded = s.recorded := by
      unfold UploadState.recorded uploadedKey
      rw [hfile]
    rw [hsame]
    exact h.usage

theorem UploadState.Sound.settle (h : s.Sound) (terminalStatus : FileTables.TerminalStatus) :
    ({ s with tables := (s.tables.completeFileUploadCleanup s.now terminalStatus).1 } : UploadState).Sound := by
  obtain hsame | ⟨hfenced, hupload, hfile⟩ := s.tables.completeFileUploadCleanup_cases s.now terminalStatus
  · rw [hsame]
    exact h
  · refine h.condemn (by rw [hfenced]; exact FileUploadStatus.noConfusion) ?_ hfile
    rw [hupload]
    exact terminalStatus.condemned

/-! ## The steps -/

theorem recordUsageEvent_count (event : UsageEvent) (rows : List UsageEvent) {key : String}
    (h : (rows.filter (·.idempotencyKey = key)).length ≤ 1) :
    ((recordUsageEvent event rows).filter (·.idempotencyKey = key)).length ≤ 1 := by
  unfold recordUsageEvent
  split_ifs with hany
  · exact h
  · rw [List.filter_append]
    by_cases hkey : event.idempotencyKey = key
    · subst hkey
      have hnone : rows.filter (·.idempotencyKey = event.idempotencyKey) = [] := by
        rw [List.filter_eq_nil_iff]
        exact fun row hrow heq => hany (List.any_eq_true.2 ⟨row, hrow, heq⟩)
      rw [hnone, List.nil_append]
      exact (List.length_filter_le _ _).trans (le_refl 1)
    · rw [List.filter_cons_of_neg (by simpa using hkey), List.filter_nil, List.append_nil]
      exact h

theorem UploadState.Sound.branch (h : s.Sound) {uploadStatus : FileUploadStatus} {fileStatus : FileStatus}
    {expiresAt : ℕ} (hrelies : (Party.fetched uploadStatus fileStatus expiresAt).Relies s) :
    (s.branch i uploadStatus fileStatus expiresAt).Sound := by
  unfold UploadState.branch
  split_ifs with hdone
  · refine h.put fun hpending => ?_
    rw [hrelies hdone.1] at hpending
    cases hpending
  · exact h.answer
  · exact h.put trivial
  · exact h.put trivial

theorem UploadState.Sound.head (h : s.Sound) : (s.head i succeeds).Sound := by
  unfold UploadState.head
  split
  · rename_i head hobject
    cases hmatch : head.Mismatch s.tables.file with
    | none =>
      have hkept := UploadState.kept_of_passes hobject hmatch
      have hchecked : ({ s with history := .checked head :: s.history } : UploadState).Sound :=
        h.next ⟨id, id, id, fun _ _ => hkept⟩ h.agree h.sent (fun _ => hkept) (fun _ he => .inl he) h.usage
      exact hchecked.put fun _ => hkept
    | some message => exact h.put trivial
  · exact h.answer

theorem UploadState.Sound.claim (h : s.Sound) {rejection : Rejection} : (s.claim i rejection).Sound := by
  unfold UploadState.claim FileTables.claimFileUploadCleanup
  by_cases hdone : s.tables.upload.status = .completed ∧ s.tables.file.status = .ready
  · simp only [if_pos hdone]
    exact h.put hdone.2
  · by_cases hpending : s.tables.upload.status = .pending
    · simp only [hpending, ne_eq, not_true_eq_false, if_false]
      have hcondemned : ({ s with tables := s.tables.condemn s.now } : UploadState).Sound :=
        h.condemn (by rw [hpending]; exact FileUploadStatus.noConfusion) rfl rfl
      exact hcondemned.put rfl
    · simp only [if_neg hdone, ne_eq, hpending, not_false_eq_true, if_true]
      exact h.answer

theorem UploadState.Sound.advance (h : s.Sound) (hp : s.parties.get i = some p)
    (hstep : s.advance i succeeds p = some s') : s'.Sound := by
  have hrelies : p.Relies s := h.parties _ (Slots.mem_of_get hp)
  cases p with
  | begun =>
    cases hstep
    exact h.put id
  | fetched uploadStatus fileStatus expiresAt =>
    cases hstep
    exact h.branch hrelies
  | heading =>
    cases hstep
    exact h.head
  | finalizing =>
    simp only [UploadState.advance] at hstep
    cases hcomplete : s.tables.completeFileUpload s.now with
    | none =>
      rw [hcomplete] at hstep
      cases hstep
      exact h.put trivial
    | some t =>
      rw [hcomplete] at hstep
      cases hstep
      obtain ⟨rfl, hready⟩ | ⟨hpending, hupload, hfile⟩ := FileTables.completeFileUpload_cases hcomplete
      · exact h.put hready
      · refine (h.complete hpending (hrelies hpending) hupload hfile).put ?_
        change t.file.status = .ready
        rw [hfile]
  | rereading =>
    simp only [UploadState.advance] at hstep
    split_ifs at hstep with hdone
    · cases hstep
      exact h.put hdone.2
    · cases hstep
      exact h.answer
    · cases hstep
      exact h.answer
  | rejecting rejection =>
    cases hstep
    exact h.claim
  | deleting rejection =>
    simp only [UploadState.advance] at hstep
    split_ifs at hstep
    · cases hstep
      exact (h.delete hrelies).put hrelies
    · cases hstep
      have hsent : ({ s with deleteSent := true } : UploadState).Sound :=
        h.next ⟨id, id, id, id⟩ h.agree (fun _ => hrelies) h.ready (fun _ he => .inl he) h.usage
      exact hsent.answer
  | settling rejection =>
    cases hstep
    exact (h.settle rejection.terminalStatus).answer
  | recording =>
    cases hstep
    have hrecorded : ({ s with
        usage := recordUsageEvent
          { idempotencyKey := uploadedKey s.tables.file, quantity := s.tables.file.sizeBytes } s.usage } :
        UploadState).Sound :=
      h.next ⟨id, id, id, id⟩ h.agree h.sent h.ready (fun _ he => .inl he) (recordUsageEvent_count _ _ h.usage)
    exact hrecorded.answer
  | reaping =>
    simp only [UploadState.advance] at hstep
    split_ifs at hstep
    · cases hstep
      exact (h.delete hrelies).put hrelies
    · cases hstep
      exact h.next ⟨id, id, id, id⟩ h.agree (fun _ => hrelies) h.ready
        (fun _ he => .inl (Slots.mem_of_mem_drop he)) h.usage
  | reapSettling =>
    cases hstep
    exact (h.settle .expired).drop
  | answered error => cases hstep

variable {e : UploadEvent}

theorem UploadState.Sound.step (hstep : uploadSteps s e s') (h : s.Sound) : s'.Sound := by
  cases e with
  | complete i =>
    simp only [uploadSteps, UploadState.step] at hstep
    split at hstep
    · cases hstep
      exact h.put trivial
    · cases hstep
  | advance i succeeds =>
    obtain ⟨p, hp, hadvance⟩ := Option.bind_eq_some_iff.1 hstep
    exact h.advance hp hadvance
  | stop i =>
    cases hstep
    exact h.drop
  | put head =>
    cases hstep
    exact h.next ⟨id, id, id, fun hkept hpending => (hkept hpending).put head⟩ h.agree h.sent
      (fun hready => (h.ready hready).put head) (fun _ he => .inl he) h.usage
  | reap i graceMs claimTimeoutMs =>
    simp only [uploadSteps, UploadState.step] at hstep
    split at hstep
    · obtain ⟨t, hclaim, rfl⟩ := Option.map_eq_some_iff.1 hstep
      obtain ⟨hexpired, ht⟩ := Option.ite_none_right_eq_some.1 hclaim
      cases ht
      have hnot : s.tables.upload.status ≠ .completed := by
        obtain ⟨hpending, -⟩ | ⟨hfenced, -⟩ := hexpired
        · rw [hpending]
          exact FileUploadStatus.noConfusion
        · rw [hfenced]
          exact FileUploadStatus.noConfusion
      have hcondemned : ({ s with tables := s.tables.condemn s.now } : UploadState).Sound := h.condemn hnot rfl rfl
      exact hcondemned.put rfl
    · cases hstep
  | deleteLands =>
    obtain ⟨hsent, hs'⟩ := Option.ite_none_right_eq_some.1 hstep
    cases hs'
    exact h.delete (h.sent hsent)
  | tick ms =>
    cases hstep
    exact h.next ⟨id, id, id, id⟩ h.agree h.sent h.ready (fun _ he => .inl he) h.usage

/-! ## What stays -/

/-- **What a step leaves.** Only an upload that is pending or claimed has its rows written, and usage
is recorded only by a party that has found the file ready. -/
theorem step_frame (hstep : uploadSteps s e s') :
    (s'.tables = s.tables ∨ s.tables.upload.status = .pending ∨ s.tables.upload.status = .cleanupPending) ∧
      (s'.usage = s.usage ∨ ∃ i, s.parties.get i = some .recording) := by
  have hsettle : ∀ terminalStatus, (s.tables.completeFileUploadCleanup s.now terminalStatus).1 = s.tables ∨
      s.tables.upload.status = .pending ∨ s.tables.upload.status = .cleanupPending := fun terminalStatus =>
    (s.tables.completeFileUploadCleanup_cases s.now terminalStatus).imp id fun hfenced => .inr hfenced.1
  cases e with
  | complete i =>
    simp only [uploadSteps, UploadState.step] at hstep
    split at hstep
    · cases hstep
      exact ⟨.inl rfl, .inl rfl⟩
    · cases hstep
  | advance i succeeds =>
    obtain ⟨p, hp, hadvance⟩ := Option.bind_eq_some_iff.1 hstep
    cases p with
    | begun =>
      cases hadvance
      exact ⟨.inl rfl, .inl rfl⟩
    | fetched uploadStatus fileStatus expiresAt =>
      cases hadvance
      unfold UploadState.branch
      split_ifs <;> exact ⟨.inl rfl, .inl rfl⟩
    | heading =>
      cases hadvance
      unfold UploadState.head
      split
      · split <;> exact ⟨.inl rfl, .inl rfl⟩
      · exact ⟨.inl rfl, .inl rfl⟩
    | finalizing =>
      simp only [UploadState.advance] at hadvance
      cases hcomplete : s.tables.completeFileUpload s.now with
      | none =>
        rw [hcomplete] at hadvance
        cases hadvance
        exact ⟨.inl rfl, .inl rfl⟩
      | some t =>
        rw [hcomplete] at hadvance
        cases hadvance
        obtain ⟨rfl, -⟩ | ⟨hpending, -⟩ := FileTables.completeFileUpload_cases hcomplete
        · exact ⟨.inl rfl, .inl rfl⟩
        · exact ⟨.inr (.inl hpending), .inl rfl⟩
    | rejecting rejection =>
      cases hadvance
      unfold UploadState.claim FileTables.claimFileUploadCleanup
      by_cases hpending : s.tables.upload.status = .pending
      · refine ⟨.inr (.inl hpending), ?_⟩
        split <;> exact .inl rfl
      · split_ifs <;> exact ⟨.inl rfl, .inl rfl⟩
    | settling rejection =>
      cases hadvance
      exact ⟨hsettle rejection.terminalStatus, .inl rfl⟩
    | recording =>
      cases hadvance
      exact ⟨.inl rfl, .inr ⟨i, hp⟩⟩
    | reapSettling =>
      cases hadvance
      exact ⟨hsettle .expired, .inl rfl⟩
    | answered error => cases hadvance
    | _ =>
      simp only [UploadState.advance] at hadvance
      split_ifs at hadvance <;> (cases hadvance; exact ⟨.inl rfl, .inl rfl⟩)
  | reap i graceMs claimTimeoutMs =>
    simp only [uploadSteps, UploadState.step] at hstep
    split at hstep
    · obtain ⟨t, hclaim, rfl⟩ := Option.map_eq_some_iff.1 hstep
      obtain ⟨hexpired, -⟩ := Option.ite_none_right_eq_some.1 hclaim
      exact ⟨.inr (hexpired.imp And.left And.left), .inl rfl⟩
    · cases hstep
  | deleteLands =>
    obtain ⟨-, hs'⟩ := Option.ite_none_right_eq_some.1 hstep
    cases hs'
    exact ⟨.inl rfl, .inl rfl⟩
  | _ =>
    cases hstep
    exact ⟨.inl rfl, .inl rfl⟩

theorem UploadState.Sound.file_stays (h : s.Sound) (hstep : uploadSteps s e s')
    (hover : s.tables.file.status = .ready ∨ s.tables.file.status = .deleted) :
    s'.tables.file.status = s.tables.file.status := by
  obtain hsame | hpending | hfenced := (step_frame hstep).1
  · rw [hsame]
  · rw [h.agree.pending hpending] at hover
    simp at hover
  · rw [h.agree.fenced hfenced] at hover
    simp at hover

theorem UploadState.Sound.file_stays_run {es : List UploadEvent} (hrun : Run uploadSteps s es s') (h : s.Sound)
    (hover : s.tables.file.status = .ready ∨ s.tables.file.status = .deleted) :
    s'.tables.file.status = s.tables.file.status := by
  induction hrun with
  | nil s => rfl
  | @cons s t u e es hstep hrest ih =>
    have hsame := h.file_stays hstep hover
    rw [ih (h.step hstep) (by rw [hsame]; exact hover), hsame]

/-! ## Every interleaving -/

structure UploadState.Safe (s : UploadState) : Prop where
  ready : s.tables.file.status = .ready → s.Kept
  stable : ∀ es s', Run uploadSteps s es s' → s.tables.file.status = .ready ∨ s.tables.file.status = .deleted →
      s'.tables.file.status = s.tables.file.status
  /-- The usage of the file is recorded once at most. -/
  once : s.recorded.length ≤ 1
  whenReady : ∀ e s', uploadSteps s e s' → s'.usage ≠ s.usage → s.tables.file.status = .ready

theorem UploadState.Begins.sound (h : s.Begins) : s.Sound where
  agree := ⟨h.pending, h.fenced, fun hready => absurd hready h.ready⟩
  sent hsent := by
    rw [h.sent] at hsent
    cases hsent
  ready hready := absurd hready h.ready
  parties e he := by
    rw [h.parties] at he
    exact absurd he List.not_mem_nil
  usage := by
    rw [h.usage]
    exact Nat.zero_le 1

/-- **A ready file has its object**, in every interleaving of uploads, completions, rejections and
reaps. -/
theorem ready_file_has_object {es : List UploadEvent} (hbegins : s.Begins) (hrun : Run uploadSteps s es s') :
    s'.Safe := by
  have hsound : s'.Sound := hrun.invariant (fun _ _ _ hstep h => h.step hstep) hbegins.sound
  refine ⟨hsound.ready, fun es' t hrest hover => hsound.file_stays_run hrest hover, hsound.usage, ?_⟩
  intro e t hstep hne
  obtain hsame | ⟨i, hi⟩ := (step_frame hstep).2
  · exact absurd hsame hne
  · exact hsound.parties _ (Slots.mem_of_get hi)

/-! ## An upload -/

def uploadedHead : ObjectHead where
  contentLength := some 5
  contentType := some "text/plain"
  sha256 := none

def newUpload : UploadState where
  now := 0
  tables :=
    { upload := { status := .pending, expiresAt := 900, updatedAt := 0 }
      file := { id := "f", workspaceId := "w", status := .pendingUpload, contentType := "text/plain"
                sizeBytes := 5, sha256 := none } }
  object := none
  usage := []
  parties := []
  deleteSent := false
  history := []

/-- The client puts the object and asks to complete it, while the reaper finds nothing to claim. -/
def completedUpload : List UploadEvent :=
  [.put uploadedHead, .complete 0, .advance 0 true, .advance 0 true, .advance 0 true, .tick 5000, .advance 0 true,
    .advance 0 true]

def readyUpload : UploadState := (play UploadState.step newUpload completedUpload).getD newUpload

theorem ready_file_has_object_completed :
    readyUpload.tables.file.status = .ready ∧ readyUpload.recorded.length = 1 ∧ readyUpload.Safe := by
  have hplay : play UploadState.step newUpload completedUpload = some readyUpload := by decide +kernel
  have hbegins : newUpload.Begins := ⟨fun _ => rfl, by decide, by decide, rfl, rfl, rfl⟩
  exact ⟨by decide +kernel, by decide +kernel, ready_file_has_object hbegins (run_of_play hplay)⟩

end OpenGeni.Files
