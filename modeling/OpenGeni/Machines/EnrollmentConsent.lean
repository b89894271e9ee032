/-
The machines of a workspace, and who has consented to them.

A machine asks with a device request; a user approves or denies it; the machine polls for its
credentials. A machine with an enroll token needs no request. Both ways end in the same upsert of
the enrollment of the machine's key, and a sandbox for it unless it has one. A revocation touches
the enrollment only.

Each function is one transaction or two, at READ COMMITTED. An approve locks the row of the request
before it reads its status. The upsert locks the enrollment of the key to the end of its transaction,
so that the next upsert of the key, and a revocation, wait for it. What has happened is kept in the
order of the commits, the oldest first.
-/
import OpenGeni.Lib.Transactions

namespace OpenGeni.Machines

open OpenGeni.Lib

/-! ## The rows -/

inductive DeviceEnrollmentStatus
  | pending
  | approved
  | denied
  | consumed
deriving DecidableEq

structure DeviceEnrollmentRequest (K : Type*) where
  pubkey : K
  status : DeviceEnrollmentStatus
  expired : Bool
  enrollmentId : Option ℕ

structure Enrollment (K : Type*) where
  pubkey : K
  active : Bool
  allowScreenControl : Bool
deriving DecidableEq

/-- What has happened. Where a call has read something before its commit, with how much had happened by then. -/
inductive Happened (K : Type*)
  | approved (request : ℕ) (pubkey : K) (allowScreenControl : Bool) (began : ℕ)
  /-- An enroll token was exchanged, and its credentials issued. -/
  | exchanged (pubkey : K) (allowScreenControl : Bool)
  | revoked (pubkey : K)
  | denied (request : ℕ)
  | expired (request : ℕ)
  | issued (request : ℕ) (pubkey : K) (allowScreenControl : Bool) (read : ℕ)
deriving DecidableEq

/-- The rows of a workspace. Requests and enrollments are named by their place. -/
structure EnrollmentTables (K : Type*) where
  requests : List (DeviceEnrollmentRequest K)
  enrollments : List (Enrollment K)
  sandboxes : List ℕ
  history : List (Happened K)

variable {K : Type*}

def EnrollmentTables.empty : EnrollmentTables K := { requests := [], enrollments := [], sandboxes := [], history := [] }

/-! ## The calls -/

inductive EnrollmentCall (K : Type*)
  | startDeviceEnrollment (pubkey : K)
  | expire (request : ℕ)
  | approveDeviceEnrollment (request : ℕ) (allowScreenControl : Bool)
  | denyDeviceEnrollment (request : ℕ)
  | pollDeviceEnrollment (request : ℕ)
  | consumeDeviceEnrollmentRequest (request : ℕ)
  | exchangeEnrollToken (pubkey : K) (allowScreenControl : Bool)
  | revokeEnrollment (enrollment : ℕ)

/-- The request that is approved, and how much had happened when the approve has read the clock. -/
structure Approval where
  request : ℕ
  began : ℕ

inductive EnrollmentTxn (K : Type*)
  | starting (pubkey : K)
  | expiring (request : ℕ)
  | approving (request : ℕ) (allowScreenControl : Bool)
  | approveFound (request : ℕ) (allowScreenControl : Bool)
  | approveBegan (approval : Approval) (expired : Bool) (allowScreenControl : Bool)
  | approveLocked (approval : Approval) (pubkey : K) (allowScreenControl : Bool)
  | exchanging (pubkey : K) (allowScreenControl : Bool)
  | upserted (approval : Option Approval) (pubkey : K) (allowScreenControl : Bool)
  | selected (approval : Option Approval) (pubkey : K) (allowScreenControl : Bool) (hasSandbox : Bool)
  | denying (request : ℕ)
  | denyFound (request : ℕ)
  | denyLocked (request : ℕ) (pending : Bool)
  | consuming (request : ℕ)
  | consumeLocked (request : ℕ) (approved : Bool)
  | revoking (enrollment : ℕ)
  | revokeLocked (enrollment : ℕ) (pubkey : K) (active : Bool)
  | polling (request : ℕ)
  | pollFound (request enrollment : ℕ)
  | pollSeen (request : ℕ) (pubkey : K) (allowScreenControl : Bool) (read : ℕ)
  | refused

namespace EnrollmentTxn

def start : EnrollmentCall K → EnrollmentTxn K
  | .startDeviceEnrollment pubkey => .starting pubkey
  | .expire request => .expiring request
  | .approveDeviceEnrollment request allowScreenControl => .approving request allowScreenControl
  | .denyDeviceEnrollment request => .denying request
  | .pollDeviceEnrollment request => .polling request
  | .consumeDeviceEnrollmentRequest request => .consuming request
  | .exchangeEnrollToken pubkey allowScreenControl => .exchanging pubkey allowScreenControl
  | .revokeEnrollment enrollment => .revoking enrollment

def lockedRequest : EnrollmentTxn K → Option ℕ
  | .approveLocked approval _ _ => some approval.request
  | .upserted approval _ _ => approval.map (·.request)
  | .selected approval _ _ _ => approval.map (·.request)
  | .denyLocked request _ => some request
  | .consumeLocked request _ => some request
  | _ => none

def lockedKey : EnrollmentTxn K → Option K
  | .upserted _ pubkey _ => some pubkey
  | .selected _ pubkey _ _ => some pubkey
  | .revokeLocked _ pubkey _ => some pubkey
  | _ => none

def isFinished : EnrollmentTxn K → Bool
  | .starting _ => true
  | .expiring _ => true
  | .selected _ _ _ _ => true
  | .denyLocked _ _ => true
  | .consumeLocked _ _ => true
  | .revokeLocked _ _ _ => true
  | .pollSeen _ _ _ _ => true
  | .refused => true
  | _ => false

end EnrollmentTxn

section

variable [DecidableEq K]

/-- The place of the enrollment of the key, or the next free one. -/
def enrollmentIndex (rows : List (Enrollment K)) (pubkey : K) : ℕ := (rows.map (·.pubkey)).idxOf pubkey

/-- The insert of an active enrollment, on conflict of the key an update. -/
def upsertEnrollment (rows : List (Enrollment K)) (pubkey : K) (allowScreenControl : Bool) : List (Enrollment K) :=
  if rows.any (·.pubkey = pubkey) then
    rows.map fun row => if row.pubkey = pubkey then { row with active := true, allowScreenControl } else row
  else
    rows ++ [{ pubkey, active := true, allowScreenControl }]

def EnrollmentTables.hasSandbox (d : EnrollmentTables K) (pubkey : K) : Bool :=
  d.sandboxes.contains (enrollmentIndex d.enrollments pubkey)

namespace EnrollmentTxn

def requestHeld (others : List (EnrollmentTxn K)) (request : ℕ) : Bool := others.any (·.lockedRequest = some request)

def keyHeld (others : List (EnrollmentTxn K)) (pubkey : K) : Bool := others.any (·.lockedKey = some pubkey)

def exec (d : EnrollmentTables K) (others : List (EnrollmentTxn K)) : EnrollmentTxn K → Option (EnrollmentTxn K)
  | .approving request allowScreenControl =>
    -- `getPendingDeviceEnrollmentRequestByUserCode`
    if d.requests[request]?.any (·.status = .pending) then
      some (.approveFound request allowScreenControl)
    else
      some .refused
  | .approveFound request allowScreenControl =>
    some (.approveBegan { request, began := d.history.length } (d.requests[request]?.any (·.expired)) allowScreenControl)
  | .approveBegan approval expired allowScreenControl =>
    if requestHeld others approval.request then
      none
    else
      match d.requests[approval.request]? with
      | none => some .refused
      | some pending =>
        if pending.status = .denied ∨ pending.status = .consumed then
          some .refused
        else if pending.status = .pending ∧ expired then
          some .refused
        else
          some (.approveLocked approval pending.pubkey allowScreenControl)
  | .approveLocked approval pubkey allowScreenControl =>
    if keyHeld others pubkey then none else some (.upserted (some approval) pubkey allowScreenControl)
  | .exchanging pubkey allowScreenControl =>
    if keyHeld others pubkey then none else some (.upserted none pubkey allowScreenControl)
  | .upserted approval pubkey allowScreenControl =>
    some (.selected approval pubkey allowScreenControl (d.hasSandbox pubkey))
  | .denying request =>
    if d.requests[request]?.any (·.status = .pending) then some (.denyFound request) else some .refused
  | .denyFound request =>
    if requestHeld others request then
      none
    else
      some (.denyLocked request (d.requests[request]?.any (·.status = .pending)))
  | .consuming request =>
    if requestHeld others request then
      none
    else
      some (.consumeLocked request (d.requests[request]?.any (·.status = .approved)))
  | .revoking enrollment =>
    match d.enrollments[enrollment]? with
    | none => some .refused
    | some row =>
      if keyHeld others row.pubkey then none else some (.revokeLocked enrollment row.pubkey row.active)
  | .polling request =>
    match d.requests[request]? with
    | some { status := .approved, enrollmentId := some enrollment, .. } => some (.pollFound request enrollment)
    | some { status := .consumed, enrollmentId := some enrollment, .. } => some (.pollFound request enrollment)
    | _ => some .refused
  | .pollFound request enrollment =>
    match d.enrollments[enrollment]? with
    | some { pubkey, active := true, allowScreenControl } =>
      some (.pollSeen request pubkey allowScreenControl d.history.length)
    | _ => some .refused
  | _ => none

def commit (d : EnrollmentTables K) : EnrollmentTxn K → EnrollmentTables K
  | .starting pubkey =>
    { d with requests := d.requests ++ [{ pubkey, status := .pending, expired := false, enrollmentId := none }] }
  | .expiring request =>
    if request < d.requests.length then
      { d with
        requests := d.requests.modify request fun row => { row with expired := true }
        history := d.history ++ [.expired request] }
    else
      d
  | .selected approval pubkey allowScreenControl hasSandbox =>
    let enrollment := enrollmentIndex d.enrollments pubkey
    { requests := match approval with
        | none => d.requests
        | some approval => d.requests.modify approval.request fun row =>
          { row with status := .approved, enrollmentId := some enrollment }
      enrollments := upsertEnrollment d.enrollments pubkey allowScreenControl
      sandboxes := if hasSandbox then d.sandboxes else d.sandboxes ++ [enrollment]
      history := d.history ++ [match approval with
          | none => .exchanged pubkey allowScreenControl
          | some approval => .approved approval.request pubkey allowScreenControl approval.began] }
  | .denyLocked request true =>
    { d with
      requests := d.requests.modify request fun row => { row with status := .denied }
      history := d.history ++ [.denied request] }
  | .consumeLocked request true =>
    { d with requests := d.requests.modify request fun row => { row with status := .consumed } }
  | .revokeLocked enrollment pubkey true =>
    { d with
      enrollments := d.enrollments.modify enrollment fun row => { row with active := false }
      history := d.history ++ [.revoked pubkey] }
  | .pollSeen request pubkey allowScreenControl read =>
    { d with history := d.history ++ [.issued request pubkey allowScreenControl read] }
  | _ => d

end EnrollmentTxn

def enrollmentCalls : Transactions (EnrollmentCall K) (EnrollmentTables K) (EnrollmentTxn K) where
  start := .start
  exec := EnrollmentTxn.exec
  finished x := x.isFinished
  commit := EnrollmentTxn.commit
  observe _ y := y

/-! ## Consent -/

def Happened.consent (pubkey : K) (before : Option Bool) : Happened K → Option Bool
  | .approved _ key allowScreenControl _ => if key = pubkey then some allowScreenControl else before
  | .exchanged key allowScreenControl => if key = pubkey then some allowScreenControl else before
  | .revoked key => if key = pubkey then none else before
  | _ => before

/-- The consent that stands for the machine: that of the last approve or exchange, unless it was revoked since. -/
def consentIn (history : List (Happened K)) (pubkey : K) : Option Bool :=
  history.foldl (fun before e => e.consent pubkey before) none

def ApprovedIn (history : List (Happened K)) (request : ℕ) (pubkey : K) : Prop :=
  ∃ allowScreenControl began, .approved request pubkey allowScreenControl began ∈ history

/-- What an event follows on. An approve begins before its request has expired, or the request was approved
before. A poll issues credentials of a request that was approved, with the consent that has stood when
it has read the enrollment. -/
def Happened.Follows (history : List (Happened K)) (n : ℕ) : Happened K → Prop
  | .approved request pubkey _ began => began ≤ n ∧
      (.expired request ∉ history.take began ∨ ApprovedIn (history.take n) request pubkey)
  | .issued request pubkey allowScreenControl read => read ≤ n ∧
      consentIn (history.take read) pubkey = some allowScreenControl ∧ ApprovedIn (history.take read) request pubkey
  | _ => True

structure EnrollmentTables.ConsentBound (d : EnrollmentTables K) : Prop where
  keys : (d.enrollments.map (·.pubkey)).Nodup
  sandboxes : ∀ i < d.enrollments.length, d.sandboxes.count i = 1
  /-- A machine is active exactly as long as consent stands for it. -/
  active : ∀ row ∈ d.enrollments, (if row.active then some row.allowScreenControl else none) = consentIn d.history row.pubkey
  follows : ∀ n e, d.history[n]? = some e → Happened.Follows d.history n e
  denied : ∀ request pubkey, .denied request ∈ d.history → ¬ ApprovedIn d.history request pubkey

/-! ## The invariant -/

def Happened.request : Happened K → Option ℕ
  | .approved request _ _ _ => some request
  | .denied request => some request
  | .expired request => some request
  | _ => none

structure EnrollmentTables.Tells (d : EnrollmentTables K) (request : ℕ) (row : DeviceEnrollmentRequest K) : Prop where
  expired : .expired request ∈ d.history → row.expired
  denied : .denied request ∈ d.history → row.status = .denied
  authorized : row.status = .approved ∨ row.status = .consumed → ApprovedIn d.history request row.pubkey
  approved : ∀ pubkey, ApprovedIn d.history request pubkey → row.status = .approved ∨ row.status = .consumed
  enrollment : ∀ i, row.enrollmentId = some i → (d.enrollments.map (·.pubkey))[i]? = some row.pubkey

structure EnrollmentTables.Good (d : EnrollmentTables K) : Prop where
  keys : (d.enrollments.map (·.pubkey)).Nodup
  sandboxes : ∀ i < d.enrollments.length, d.sandboxes.count i = 1
  enrolled : ∀ i ∈ d.sandboxes, i < d.enrollments.length
  active : ∀ row ∈ d.enrollments, (if row.active then some row.allowScreenControl else none) = consentIn d.history row.pubkey
  absent : ∀ pubkey, pubkey ∉ d.enrollments.map (·.pubkey) → consentIn d.history pubkey = none
  follows : ∀ n e, d.history[n]? = some e → Happened.Follows d.history n e
  tells : ∀ request row, d.requests[request]? = some row → d.Tells request row
  known : ∀ e ∈ d.history, ∀ request, e.request = some request → request < d.requests.length

def EnrollmentTables.Approves (d : EnrollmentTables K) (approval : Approval) (pubkey : K) : Prop :=
  approval.began ≤ d.history.length ∧ ∃ row, d.requests[approval.request]? = some row ∧ row.pubkey = pubkey ∧
    ((row.status = .pending ∧ .expired approval.request ∉ d.history.take approval.began) ∨ row.status = .approved)

def EnrollmentTxn.Knows (d : EnrollmentTables K) : EnrollmentTxn K → Prop
  | .approveBegan approval expired _ => approval.began ≤ d.history.length ∧
      (expired = false → .expired approval.request ∉ d.history.take approval.began)
  | .approveLocked approval pubkey _ => d.Approves approval pubkey
  | .upserted approval pubkey _ => ∀ a ∈ approval, d.Approves a pubkey
  | .selected approval pubkey _ hasSandbox => (∀ a ∈ approval, d.Approves a pubkey) ∧ hasSandbox = d.hasSandbox pubkey
  | .denyLocked request pending => pending → ∃ row, d.requests[request]? = some row ∧ row.status = .pending
  | .consumeLocked request approved => approved → ∃ row, d.requests[request]? = some row ∧ row.status = .approved
  | .revokeLocked enrollment pubkey _ => (d.enrollments.map (·.pubkey))[enrollment]? = some pubkey
  | .pollFound request enrollment => ∃ pubkey, (d.enrollments.map (·.pubkey))[enrollment]? = some pubkey ∧
      ApprovedIn d.history request pubkey
  | .pollSeen request pubkey allowScreenControl read => read ≤ d.history.length ∧
      consentIn (d.history.take read) pubkey = some allowScreenControl ∧ ApprovedIn (d.history.take read) request pubkey
  | _ => True

def EnrollmentTxn.Apart (x y : EnrollmentTxn K) : Prop :=
  (∀ request ∈ x.lockedRequest, y.lockedRequest ≠ some request) ∧ ∀ pubkey ∈ x.lockedKey, y.lockedKey ≠ some pubkey

variable {d d' : EnrollmentTables K} {x y x' : EnrollmentTxn K} {others : List (EnrollmentTxn K)} {request n : ℕ} {pubkey key : K} {allowScreenControl : Bool}
  {rows : List (Enrollment K)} {history later : List (Happened K)} {e : Happened K}

/-! ## The history -/

@[simp] theorem consentIn_append : consentIn (history ++ [e]) pubkey = e.consent pubkey (consentIn history pubkey) := by
  simp [consentIn]

omit [DecidableEq K] in
theorem take_of_starts (h : history <+: later) (hn : n ≤ history.length) : later.take n = history.take n := by
  obtain ⟨rest, rfl⟩ := h
  exact List.take_append_of_le_length hn

theorem getElem?_of_starts {α : Type*} {l l' : List α} {i : ℕ} {a : α} (h : l <+: l') (hi : l[i]? = some a) :
    l'[i]? = some a := by
  obtain ⟨rest, rfl⟩ := h
  rw [List.getElem?_append_left (List.getElem?_eq_some_iff.1 hi).1]
  exact hi

omit [DecidableEq K] in
theorem ApprovedIn.mono (hsub : history ⊆ later) (h : ApprovedIn history request pubkey) : ApprovedIn later request pubkey := by
  obtain ⟨allowScreenControl, began, hmem⟩ := h
  exact ⟨allowScreenControl, began, hsub hmem⟩

theorem Happened.Follows.append (hn : n ≤ history.length) (h : Happened.Follows history n e) (hstarts : history <+: later) :
    Happened.Follows later n e := by
  cases e with
  | approved request pubkey allowScreenControl began =>
    obtain ⟨hbegan, hrest⟩ := h
    refine ⟨hbegan, ?_⟩
    rw [take_of_starts hstarts (hbegan.trans hn), take_of_starts hstarts hn]
    exact hrest
  | issued request pubkey allowScreenControl read =>
    obtain ⟨hread, hrest⟩ := h
    refine ⟨hread, ?_⟩
    rw [take_of_starts hstarts (hread.trans hn)]
    exact hrest
  | _ => trivial

theorem follows_concat (h : ∀ n e, history[n]? = some e → Happened.Follows history n e)
    (hlast : Happened.Follows history history.length e) :
    ∀ n e', (history ++ [e])[n]? = some e' → Happened.Follows (history ++ [e]) n e' := by
  intro n e' hn
  by_cases hlt : n < history.length
  · rw [List.getElem?_append_left hlt] at hn
    exact (h n e' hn).append hlt.le (List.prefix_append history [e])
  · rw [List.getElem?_append_right (Nat.le_of_not_lt hlt)] at hn
    have hzero : n - history.length = 0 := by
      by_contra hne
      rw [List.getElem?_eq_none (by simp; omega)] at hn
      cases hn
    have heq : n = history.length := by omega
    rw [hzero] at hn
    cases hn
    rw [heq]
    exact hlast.append le_rfl (List.prefix_append history [e])

/-! ## The enrollments -/

theorem keys_upsertEnrollment : (upsertEnrollment rows pubkey allowScreenControl).map (·.pubkey) =
    if pubkey ∈ rows.map (·.pubkey) then rows.map (·.pubkey) else rows.map (·.pubkey) ++ [pubkey] := by
  have hany : rows.any (·.pubkey = pubkey) = true ↔ pubkey ∈ rows.map (·.pubkey) := by
    simp only [List.any_eq_true, decide_eq_true_eq, List.mem_map]
  unfold upsertEnrollment
  by_cases hmem : pubkey ∈ rows.map (·.pubkey)
  · rw [if_pos (hany.2 hmem), if_pos hmem, List.map_map]
    refine List.map_congr_left fun row _ => ?_
    simp only [Function.comp_apply]
    split_ifs <;> rfl
  · rw [if_neg (mt hany.1 hmem), if_neg hmem, List.map_append]
    rfl

theorem mem_upsertEnrollment {row : Enrollment K} (h : row ∈ upsertEnrollment rows pubkey allowScreenControl) :
    (row.pubkey = pubkey ∧ row.active ∧ row.allowScreenControl = allowScreenControl) ∨ (row.pubkey ≠ pubkey ∧ row ∈ rows) := by
  unfold upsertEnrollment at h
  split_ifs at h with hany
  · obtain ⟨row', hrow', rfl⟩ := List.mem_map.1 h
    split_ifs with hkey
    · exact .inl ⟨hkey, rfl, rfl⟩
    · exact .inr ⟨hkey, hrow'⟩
  · obtain hold | hnew := List.mem_append.1 h
    · refine .inr ⟨fun hkey => hany (List.any_eq_true.2 ⟨row, hold, decide_eq_true hkey⟩), hold⟩
    · obtain rfl := List.mem_singleton.1 hnew
      exact .inl ⟨rfl, rfl, rfl⟩

theorem mem_keys_upsertEnrollment : key ∈ (upsertEnrollment rows pubkey allowScreenControl).map (·.pubkey) ↔
    key = pubkey ∨ key ∈ rows.map (·.pubkey) := by
  rw [keys_upsertEnrollment]
  split_ifs with hmem
  · constructor
    · exact .inr
    · rintro (rfl | hkey)
      · exact hmem
      · exact hkey
  · rw [List.mem_append, List.mem_singleton, or_comm]

theorem keys_prefix_upsertEnrollment :
    rows.map (·.pubkey) <+: (upsertEnrollment rows pubkey allowScreenControl).map (·.pubkey) := by
  rw [keys_upsertEnrollment]
  split_ifs
  · exact List.prefix_rfl
  · exact List.prefix_append _ _

theorem keys_getElem?_enrollmentIndex :
    ((upsertEnrollment rows pubkey allowScreenControl).map (·.pubkey))[enrollmentIndex rows pubkey]? = some pubkey := by
  rw [keys_upsertEnrollment, enrollmentIndex]
  split_ifs with hmem
  · exact List.getElem?_idxOf hmem
  · rw [List.idxOf_eq_length hmem, List.getElem?_concat_length]

theorem length_upsertEnrollment : (upsertEnrollment rows pubkey allowScreenControl).length =
    if pubkey ∈ rows.map (·.pubkey) then rows.length else rows.length + 1 := by
  have hlength : ((upsertEnrollment rows pubkey allowScreenControl).map (·.pubkey)).length =
      (if pubkey ∈ rows.map (·.pubkey) then rows.map (·.pubkey) else rows.map (·.pubkey) ++ [pubkey]).length :=
    congrArg List.length keys_upsertEnrollment
  rw [List.length_map] at hlength
  rw [hlength]
  split_ifs
  · rw [List.length_map]
  · rw [List.length_append, List.length_map, List.length_singleton]

omit [DecidableEq K] in
theorem keys_revoke (i : ℕ) :
    (rows.modify i fun row => { row with active := false }).map (·.pubkey) = rows.map (·.pubkey) := by
  refine List.ext_getElem? fun j => ?_
  rw [List.getElem?_map, List.getElem?_map, List.getElem?_modify]
  cases rows[j]? with
  | none => rfl
  | some row => by_cases h : i = j <;> simp [h]

/-! ## The requests -/

omit [DecidableEq K] in
theorem getElem?_update {requests : List (DeviceEnrollmentRequest K)} {i : ℕ} {row' : DeviceEnrollmentRequest K}
    {f : DeviceEnrollmentRequest K → DeviceEnrollmentRequest K} (h : (requests.modify i f)[request]? = some row') :
    ∃ row, requests[request]? = some row ∧ ((request = i ∧ row' = f row) ∨ (request ≠ i ∧ row' = row)) := by
  rw [List.getElem?_modify] at h
  obtain ⟨row, hrow, hf⟩ := Option.map_eq_some_iff.1 h
  refine ⟨row, hrow, ?_⟩
  by_cases heq : request = i
  · rw [if_pos heq.symm] at hf
    exact .inl ⟨heq, hf.symm⟩
  · rw [if_neg (Ne.symm heq)] at hf
    exact .inr ⟨heq, hf.symm⟩

omit [DecidableEq K] in
theorem EnrollmentTables.Tells.keep {row : DeviceEnrollmentRequest K} (h : d.Tells request row)
    (hold : d.history ⊆ d'.history) (hnew : ∀ e ∈ d'.history, e.request = some request → e ∈ d.history)
    (hkeys : d.enrollments.map (·.pubkey) <+: d'.enrollments.map (·.pubkey)) : d'.Tells request row where
  expired hmem := h.expired (hnew _ hmem rfl)
  denied hmem := h.denied (hnew _ hmem rfl)
  authorized hstatus := (h.authorized hstatus).mono hold
  approved := by
    rintro pubkey ⟨allowScreenControl, began, hmem⟩
    exact h.approved pubkey ⟨allowScreenControl, began, hnew _ hmem rfl⟩
  enrollment i hi := getElem?_of_starts hkeys (h.enrollment i hi)

omit [DecidableEq K] in
theorem mem_of_mem_concat (hne : e.request ≠ some request) :
    ∀ e' ∈ history ++ [e], e'.request = some request → e' ∈ history := by
  intro e' hmem hrequest
  obtain hold | hlast := List.mem_append.1 hmem
  · exact hold
  · obtain rfl := List.mem_singleton.1 hlast
    exact absurd hrequest hne

theorem EnrollmentTables.Good.restamp {requests : List (DeviceEnrollmentRequest K)} (hd : d.Good)
    (hconsent : ∀ pubkey, consentIn later pubkey = consentIn d.history pubkey)
    (hfollows : ∀ n e, later[n]? = some e → Happened.Follows later n e)
    (htells : ∀ request row, requests[request]? = some row → ({ d with requests, history := later }).Tells request row)
    (hknown : ∀ e ∈ later, ∀ request, e.request = some request → request < requests.length) :
    ({ d with requests, history := later }).Good where
  keys := hd.keys
  sandboxes := hd.sandboxes
  enrolled := hd.enrolled
  active row hrow := (hd.active row hrow).trans (hconsent row.pubkey).symm
  absent pubkey hpubkey := (hconsent pubkey).trans (hd.absent pubkey hpubkey)
  follows := hfollows
  tells := htells
  known := hknown

theorem EnrollmentTables.Good.hasSandbox_iff (hd : d.Good) :
    d.hasSandbox pubkey = true ↔ pubkey ∈ d.enrollments.map (·.pubkey) := by
  unfold EnrollmentTables.hasSandbox enrollmentIndex
  rw [List.contains_iff_mem]
  constructor
  · intro hmem
    have hlt := hd.enrolled _ hmem
    rw [← List.length_map (f := (·.pubkey))] at hlt
    exact List.idxOf_lt_length_iff.1 hlt
  · intro hmem
    have hlt := List.idxOf_lt_length_iff.2 hmem
    rw [List.length_map] at hlt
    apply List.count_pos_iff.1
    rw [hd.sandboxes _ hlt]
    exact Nat.one_pos

/-! ## The sandboxes -/

theorem EnrollmentTables.Good.sandboxes_upsert (hd : d.Good) :
    ∀ i < (upsertEnrollment d.enrollments pubkey allowScreenControl).length,
      (if d.hasSandbox pubkey then d.sandboxes else d.sandboxes ++ [enrollmentIndex d.enrollments pubkey]).count i = 1 := by
  intro i hi
  rw [length_upsertEnrollment] at hi
  by_cases hmem : pubkey ∈ d.enrollments.map (·.pubkey)
  · rw [if_pos hmem] at hi
    rw [if_pos (hd.hasSandbox_iff.2 hmem)]
    exact hd.sandboxes i hi
  · rw [if_neg hmem] at hi
    rw [if_neg (mt hd.hasSandbox_iff.1 hmem), enrollmentIndex, List.idxOf_eq_length hmem, List.length_map, List.count_append]
    by_cases hlast : i = d.enrollments.length
    · have hnone : d.sandboxes.count i = 0 := List.count_eq_zero.2 fun h => absurd (hd.enrolled i h) (by omega)
      rw [hnone, hlast, List.count_singleton_self]
    · rw [hd.sandboxes i (by omega), List.count_singleton, if_neg (by simp; omega)]

theorem EnrollmentTables.Good.enrolled_upsert (hd : d.Good) :
    ∀ i ∈ if d.hasSandbox pubkey then d.sandboxes else d.sandboxes ++ [enrollmentIndex d.enrollments pubkey],
      i < (upsertEnrollment d.enrollments pubkey allowScreenControl).length := by
  intro i hi
  rw [length_upsertEnrollment]
  by_cases hmem : pubkey ∈ d.enrollments.map (·.pubkey)
  · rw [if_pos (hd.hasSandbox_iff.2 hmem)] at hi
    rw [if_pos hmem]
    exact hd.enrolled i hi
  · rw [if_neg (mt hd.hasSandbox_iff.1 hmem), enrollmentIndex, List.idxOf_eq_length hmem, List.length_map] at hi
    rw [if_neg hmem]
    obtain hold | hlast := List.mem_append.1 hi
    · exact (hd.enrolled i hold).trans (Nat.lt_succ_self _)
    · rw [List.mem_singleton.1 hlast]
      exact Nat.lt_succ_self _

/-! ## The commits -/

theorem EnrollmentTables.Good.activate {requests : List (DeviceEnrollmentRequest K)} (hd : d.Good)
    (hconsent : ∀ key, consentIn later key = if pubkey = key then some allowScreenControl else consentIn d.history key)
    (hfollows : ∀ n e, later[n]? = some e → Happened.Follows later n e)
    (htells : ∀ request row, requests[request]? = some row →
      EnrollmentTables.Tells
        { requests, enrollments := upsertEnrollment d.enrollments pubkey allowScreenControl
          sandboxes := if d.hasSandbox pubkey then d.sandboxes else d.sandboxes ++ [enrollmentIndex d.enrollments pubkey]
          history := later } request row)
    (hknown : ∀ e ∈ later, ∀ request, e.request = some request → request < requests.length) :
    EnrollmentTables.Good
      { requests, enrollments := upsertEnrollment d.enrollments pubkey allowScreenControl
        sandboxes := if d.hasSandbox pubkey then d.sandboxes else d.sandboxes ++ [enrollmentIndex d.enrollments pubkey]
        history := later } where
  keys := by
    rw [keys_upsertEnrollment]
    split_ifs with hmem
    · exact hd.keys
    · rw [← List.concat_eq_append]
      exact hd.keys.concat hmem
  sandboxes := hd.sandboxes_upsert
  enrolled := hd.enrolled_upsert
  active row hrow := by
    rw [hconsent]
    obtain ⟨hkey, hactive, hallow⟩ | ⟨hkey, hold⟩ := mem_upsertEnrollment hrow
    · rw [if_pos hkey.symm, if_pos hactive, hallow]
    · rw [if_neg (Ne.symm hkey)]
      exact hd.active row hold
  absent key hkey := by
    rw [mem_keys_upsertEnrollment, not_or] at hkey
    rw [hconsent, if_neg (Ne.symm hkey.1)]
    exact hd.absent key hkey.2
  follows := hfollows
  tells := htells
  known := hknown

theorem EnrollmentTables.Good.revoke {i : ℕ} (hd : d.Good) (hkey : (d.enrollments.map (·.pubkey))[i]? = some pubkey) :
    EnrollmentTables.Good { d with
        enrollments := d.enrollments.modify i fun row => { row with active := false }
        history := d.history ++ [.revoked pubkey] } where
  keys := by
    rw [keys_revoke]
    exact hd.keys
  sandboxes j hj := hd.sandboxes j (by rwa [List.length_modify] at hj)
  enrolled j hj := by
    rw [List.length_modify]
    exact hd.enrolled j hj
  active row' hrow' := by
    obtain ⟨j, hj⟩ := List.mem_iff_getElem?.1 hrow'
    rw [List.getElem?_modify] at hj
    obtain ⟨row, hrow, hf⟩ := Option.map_eq_some_iff.1 hj
    rw [consentIn_append, Happened.consent]
    by_cases heq : i = j
    · rw [if_pos heq] at hf
      rw [heq, List.getElem?_map, hrow] at hkey
      rw [← hf, if_pos (Option.some.inj hkey).symm]
      rfl
    · rw [if_neg heq] at hf
      have hother : pubkey ≠ row.pubkey := by
        intro hsame
        apply heq
        have hj' : (d.enrollments.map (·.pubkey))[j]? = some pubkey := by
          rw [List.getElem?_map, hrow, hsame]
          rfl
        exact (List.getElem?_inj (List.getElem?_eq_some_iff.1 hkey).1 hd.keys).1 (hkey.trans hj'.symm)
      rw [← hf, if_neg hother]
      exact hd.active row (List.mem_of_getElem? hrow)
  absent key habsent := by
    rw [keys_revoke] at habsent
    have hother : pubkey ≠ key := fun h => habsent (h ▸ List.mem_of_getElem? hkey)
    rw [consentIn_append, Happened.consent, if_neg hother]
    exact hd.absent key habsent
  follows := follows_concat hd.follows trivial
  tells request row hrow := by
    refine (hd.tells request row hrow).keep (List.subset_append_left _ _) (mem_of_mem_concat (Option.some_ne_none request).symm) ?_
    rw [keys_revoke]
  known := List.forall_mem_append.2 ⟨hd.known, by simp [Happened.request]⟩

theorem EnrollmentTables.Good.approve {approval : Approval} (hd : d.Good) (happroves : d.Approves approval pubkey) :
    (EnrollmentTxn.commit d (.selected (some approval) pubkey allowScreenControl (d.hasSandbox pubkey))).Good := by
  obtain ⟨hbegan, row, hrow, rfl, hstatus⟩ := happroves
  have htell := hd.tells _ _ hrow
  refine hd.activate (fun key => consentIn_append) (follows_concat hd.follows ⟨hbegan, ?_⟩) ?_ ?_
  · rw [List.take_length]
    obtain ⟨-, hlive⟩ | happroved := hstatus
    · exact .inl hlive
    · exact .inr (htell.authorized (.inl happroved))
  · intro request row' hrow'
    obtain ⟨row₀, hrow₀, ⟨rfl, rfl⟩ | ⟨hne, rfl⟩⟩ := getElem?_update hrow'
    · cases hrow₀.symm.trans hrow
      exact
        { expired := fun hmem => htell.expired (by simpa using hmem)
          denied := fun hmem => by
            have hdenied := htell.denied (by simpa using hmem)
            obtain ⟨hpending, -⟩ | happroved := hstatus
            · exact absurd (hdenied.symm.trans hpending) (by decide)
            · exact absurd (hdenied.symm.trans happroved) (by decide)
          authorized := fun _ => ⟨allowScreenControl, approval.began, List.mem_append_right _ (List.mem_singleton_self _)⟩
          approved := fun _ _ => .inl rfl
          enrollment := fun j hj => by
            rw [← Option.some.inj hj]
            exact keys_getElem?_enrollmentIndex }
    · have hother : (Happened.approved approval.request row.pubkey allowScreenControl approval.began).request ≠ some request :=
        fun h => hne (Option.some.inj h).symm
      exact (hd.tells request row' hrow₀).keep (List.subset_append_left _ _) (mem_of_mem_concat hother)
        keys_prefix_upsertEnrollment
  · refine List.forall_mem_append.2 ⟨fun e he request hrequest => ?_, fun e he request hrequest => ?_⟩
    · rw [List.length_modify]
      exact hd.known e he request hrequest
    · rw [List.mem_singleton.1 he] at hrequest
      rw [List.length_modify, ← Option.some.inj hrequest]
      exact (List.getElem?_eq_some_iff.1 hrow).1

theorem EnrollmentTables.Good.exchange (hd : d.Good) :
    (EnrollmentTxn.commit d (.selected none pubkey allowScreenControl (d.hasSandbox pubkey))).Good := by
  refine hd.activate (fun key => consentIn_append) (follows_concat hd.follows trivial) ?_ ?_
  · intro request row hrow
    exact (hd.tells request row hrow).keep (List.subset_append_left _ _)
      (mem_of_mem_concat (Option.some_ne_none request).symm) keys_prefix_upsertEnrollment
  · exact List.forall_mem_append.2 ⟨hd.known, by simp [Happened.request]⟩

theorem EnrollmentTables.Good.startRequest (hd : d.Good) : (EnrollmentTxn.commit d (.starting pubkey)).Good := by
  refine hd.restamp (fun _ => rfl) hd.follows ?_ ?_
  · intro request row hrow
    by_cases hlt : request < d.requests.length
    · rw [List.getElem?_append_left hlt] at hrow
      exact (hd.tells request row hrow).keep (List.Subset.refl _) (fun e he _ => he) List.prefix_rfl
    · have hnever : ∀ e ∈ d.history, e.request ≠ some request := fun e he h => hlt (hd.known e he request h)
      rw [List.getElem?_append_right (Nat.le_of_not_lt hlt)] at hrow
      obtain rfl := List.mem_singleton.1 (List.mem_of_getElem? hrow)
      exact
        { expired := fun hmem => absurd rfl (hnever _ hmem), denied := fun hmem => absurd rfl (hnever _ hmem)
          authorized := fun hstatus => by simp at hstatus
          approved := fun _ ⟨_, _, hmem⟩ => absurd rfl (hnever _ hmem), enrollment := fun _ hi => by cases hi }
  · intro e he request hrequest
    rw [List.length_append]
    exact (hd.known e he request hrequest).trans_le (Nat.le_add_right _ _)

theorem EnrollmentTables.Good.event {f : DeviceEnrollmentRequest K → DeviceEnrollmentRequest K}
    (hd : d.Good) (hlt : request < d.requests.length) (he : e.request = some request)
    (hconsent : ∀ pubkey, consentIn (d.history ++ [e]) pubkey = consentIn d.history pubkey)
    (hfollows : Happened.Follows d.history d.history.length e)
    (htells : ∀ row, d.requests[request]? = some row → d.Tells request row →
      EnrollmentTables.Tells { d with requests := d.requests.modify request f, history := d.history ++ [e] } request (f row)) :
    ({ d with requests := d.requests.modify request f, history := d.history ++ [e] }).Good := by
  refine hd.restamp hconsent (follows_concat hd.follows hfollows) ?_ ?_
  · intro i row' hrow'
    obtain ⟨row, hrow, ⟨rfl, rfl⟩ | ⟨hne, rfl⟩⟩ := getElem?_update hrow'
    · exact htells row hrow (hd.tells i row hrow)
    · refine (hd.tells i row' hrow).keep (List.subset_append_left _ _) (mem_of_mem_concat ?_) List.prefix_rfl
      rw [he]
      exact fun h => hne (Option.some.inj h).symm
  · refine List.forall_mem_append.2 ⟨fun e' he' i hi => ?_, fun e' he' i hi => ?_⟩
    · rw [List.length_modify]
      exact hd.known e' he' i hi
    · rw [List.mem_singleton.1 he', he] at hi
      rw [List.length_modify, ← Option.some.inj hi]
      exact hlt

theorem EnrollmentTables.Good.expire (hd : d.Good) : (EnrollmentTxn.commit d (.expiring request)).Good := by
  simp only [EnrollmentTxn.commit]
  split_ifs with hlt
  · refine hd.event hlt rfl (fun _ => consentIn_append) trivial fun row _ htell => ?_
    exact
      { expired := fun _ => rfl, denied := fun hmem => htell.denied (by simpa using hmem)
        authorized := fun hstatus => (htell.authorized hstatus).mono (List.subset_append_left _ _)
        approved := fun pubkey ⟨allowScreenControl, began, hmem⟩ =>
          htell.approved pubkey ⟨allowScreenControl, began, by simpa using hmem⟩
        enrollment := htell.enrollment }
  · exact hd

theorem EnrollmentTables.Good.deny {row : DeviceEnrollmentRequest K} (hd : d.Good) (hrow : d.requests[request]? = some row)
    (hpending : row.status = .pending) : (EnrollmentTxn.commit d (.denyLocked request true)).Good := by
  refine hd.event (List.getElem?_eq_some_iff.1 hrow).1 rfl (fun _ => consentIn_append) trivial fun row' hrow' htell => ?_
  cases hrow'.symm.trans hrow
  exact
    { expired := fun hmem => htell.expired (by simpa using hmem)
      denied := fun _ => rfl, authorized := fun hstatus => by simp at hstatus
      approved := fun pubkey ⟨allowScreenControl, began, hmem⟩ => by
        have hstatus := htell.approved pubkey ⟨allowScreenControl, began, by simpa using hmem⟩
        rw [hpending] at hstatus
        simp at hstatus
      enrollment := htell.enrollment }

theorem EnrollmentTables.Good.consume {row : DeviceEnrollmentRequest K} (hd : d.Good)
    (hrow : d.requests[request]? = some row) (happroved : row.status = .approved) :
    (EnrollmentTxn.commit d (.consumeLocked request true)).Good := by
  refine hd.restamp (fun _ => rfl) hd.follows ?_ ?_
  · intro i row' hrow'
    obtain ⟨row₀, hrow₀, ⟨rfl, rfl⟩ | ⟨hne, rfl⟩⟩ := getElem?_update hrow'
    · cases hrow₀.symm.trans hrow
      have htell := hd.tells _ _ hrow
      exact
        { expired := htell.expired
          denied := fun hmem => absurd ((htell.denied hmem).symm.trans happroved) (by decide)
          authorized := fun _ => htell.authorized (.inl happroved), approved := fun _ _ => .inr rfl
          enrollment := htell.enrollment }
    · exact (hd.tells i row' hrow₀).keep (List.Subset.refl _) (fun e he _ => he) List.prefix_rfl
  · intro e he i hi
    rw [List.length_modify]
    exact hd.known e he i hi

theorem EnrollmentTables.Good.issue (hd : d.Good) (hread : n ≤ d.history.length)
    (hconsent : consentIn (d.history.take n) pubkey = some allowScreenControl)
    (happroved : ApprovedIn (d.history.take n) request pubkey) :
    (EnrollmentTxn.commit d (.pollSeen request pubkey allowScreenControl n)).Good := by
  refine hd.restamp (fun _ => consentIn_append) (follows_concat hd.follows ⟨hread, hconsent, happroved⟩) ?_ ?_
  · intro i row hrow
    exact (hd.tells i row hrow).keep (List.subset_append_left _ _)
      (mem_of_mem_concat (Option.some_ne_none i).symm) List.prefix_rfl
  · exact List.forall_mem_append.2 ⟨hd.known, by simp [Happened.request]⟩

/-- **The commit.** -/
theorem EnrollmentTables.Good.commit (hd : d.Good) (hx : x.Knows d) : (EnrollmentTxn.commit d x).Good := by
  cases x with
  | starting pubkey => exact hd.startRequest
  | expiring request => exact hd.expire
  | selected approval pubkey allowScreenControl hasSandbox =>
    obtain ⟨happroves, rfl⟩ := hx
    cases approval with
    | none => exact hd.exchange
    | some approval => exact hd.approve (happroves approval rfl)
  | denyLocked request pending =>
    cases pending with
    | false => exact hd
    | true =>
      obtain ⟨row, hrow, hpending⟩ := hx rfl
      exact hd.deny hrow hpending
  | consumeLocked request approved =>
    cases approved with
    | false => exact hd
    | true =>
      obtain ⟨row, hrow, happroved⟩ := hx rfl
      exact hd.consume hrow happroved
  | revokeLocked enrollment pubkey active =>
    cases active with
    | false => exact hd
    | true => exact hd.revoke hx
  | pollSeen request pubkey allowScreenControl read =>
    obtain ⟨hread, hconsent, happroved⟩ := hx
    exact hd.issue hread hconsent happroved
  | _ => exact hd

/-! ## The other transactions -/

/-- What a commit leaves to the others: of a row that is not locked, its status, and of a key that is not
locked, whether it has an enrollment. -/
structure EnrollmentTxn.Keeps (x : EnrollmentTxn K) (d d' : EnrollmentTables K) : Prop where
  history : d.history <+: d'.history
  keys : d.enrollments.map (·.pubkey) <+: d'.enrollments.map (·.pubkey)
  requests : ∀ request row, d.requests[request]? = some row → x.lockedRequest ≠ some request →
    ∃ row', d'.requests[request]? = some row' ∧ row'.pubkey = row.pubkey ∧ row'.status = row.status
  absent : ∀ pubkey, x.lockedKey ≠ some pubkey → pubkey ∈ d'.enrollments.map (·.pubkey) →
    pubkey ∈ d.enrollments.map (·.pubkey)

omit [DecidableEq K] in
theorem EnrollmentTxn.Keeps.refl : x.Keeps d d where
  history := List.prefix_rfl
  keys := List.prefix_rfl
  requests _ row hrow _ := ⟨row, hrow, rfl, rfl⟩
  absent _ _ hmem := hmem

omit [DecidableEq K] in
theorem getElem?_update_other {requests : List (DeviceEnrollmentRequest K)} {i : ℕ} {row : DeviceEnrollmentRequest K}
    {f : DeviceEnrollmentRequest K → DeviceEnrollmentRequest K} (hrow : requests[request]? = some row) (hne : i ≠ request) :
    ∃ row', (requests.modify i f)[request]? = some row' ∧ row'.pubkey = row.pubkey ∧ row'.status = row.status := by
  refine ⟨row, ?_, rfl, rfl⟩
  rw [List.getElem?_modify, hrow]
  exact congrArg some (if_neg hne)

theorem EnrollmentTxn.commit_keeps (x : EnrollmentTxn K) (d : EnrollmentTables K) : x.Keeps d (commit d x) := by
  cases x with
  | starting pubkey =>
    exact
      { history := List.prefix_rfl, keys := List.prefix_rfl
        requests := fun _ row hrow _ => ⟨row, getElem?_of_starts (List.prefix_append _ _) hrow, rfl, rfl⟩
        absent := fun _ _ hmem => hmem }
  | expiring request =>
    simp only [commit]
    split_ifs with hlt
    · refine { history := List.prefix_append _ _, keys := List.prefix_rfl, requests := ?_, absent := fun _ _ hmem => hmem }
      intro i row hrow _
      refine ⟨if request = i then { row with expired := true } else row, ?_, ?_, ?_⟩
      · rw [List.getElem?_modify, hrow]
        rfl
      · split_ifs <;> rfl
      · split_ifs <;> rfl
    · exact .refl
  | selected approval pubkey allowScreenControl hasSandbox =>
    refine
      { history := List.prefix_append _ _, keys := keys_prefix_upsertEnrollment, requests := ?_
        absent := fun key hkey hmem => ?_ }
    · intro i row hrow hne
      cases approval with
      | none => exact ⟨row, hrow, rfl, rfl⟩
      | some approval => exact getElem?_update_other hrow fun h => hne (congrArg some h)
    · obtain rfl | hold := mem_keys_upsertEnrollment.1 hmem
      · exact absurd rfl hkey
      · exact hold
  | denyLocked request pending =>
    cases pending with
    | false => exact .refl
    | true =>
      exact
        { history := List.prefix_append _ _, keys := List.prefix_rfl
          requests := fun _ _ hrow hne => getElem?_update_other hrow fun h => hne (congrArg some h)
          absent := fun _ _ hmem => hmem }
  | consumeLocked request approved =>
    cases approved with
    | false => exact .refl
    | true =>
      exact
        { history := List.prefix_rfl, keys := List.prefix_rfl
          requests := fun _ _ hrow hne => getElem?_update_other hrow fun h => hne (congrArg some h)
          absent := fun _ _ hmem => hmem }
  | revokeLocked enrollment pubkey active =>
    cases active with
    | false => exact .refl
    | true =>
      refine
        { history := List.prefix_append _ _, keys := ?_, requests := fun _ row hrow _ => ⟨row, hrow, rfl, rfl⟩
          absent := fun key _ hmem => ?_ }
      · simp only [commit]
        rw [keys_revoke]
      · simp only [commit] at hmem
        rwa [keys_revoke] at hmem
  | pollSeen request pubkey allowScreenControl read =>
    exact
      { history := List.prefix_append _ _, keys := List.prefix_rfl
        requests := fun _ row hrow _ => ⟨row, hrow, rfl, rfl⟩, absent := fun _ _ hmem => hmem }
  | _ => exact .refl

omit [DecidableEq K] in
theorem EnrollmentTables.Approves.mono {approval : Approval} (h : d.Approves approval pubkey) (hkeeps : x.Keeps d d')
    (hfree : x.lockedRequest ≠ some approval.request) : d'.Approves approval pubkey := by
  obtain ⟨hbegan, row, hrow, rfl, hstatus⟩ := h
  obtain ⟨row', hrow', hkey, hsame⟩ := hkeeps.requests _ row hrow hfree
  refine ⟨hbegan.trans hkeeps.history.length_le, row', hrow', hkey, ?_⟩
  rw [hsame, take_of_starts hkeeps.history hbegan]
  exact hstatus

theorem EnrollmentTxn.Knows.mono (hy : y.Knows d) (hkeeps : x.Keeps d d') (hapart : x.Apart y) (hd : d.Good) (hd' : d'.Good) :
    y.Knows d' := by
  have hrequest : ∀ request, y.lockedRequest = some request → x.lockedRequest ≠ some request :=
    fun request hy hx => hapart.1 request hx hy
  have hkey : ∀ pubkey, y.lockedKey = some pubkey → x.lockedKey ≠ some pubkey := fun pubkey hy hx => hapart.2 pubkey hx hy
  cases y with
  | approveBegan | pollSeen =>
    refine ⟨hy.1.trans hkeeps.history.length_le, ?_⟩
    rw [take_of_starts hkeeps.history hy.1]
    exact hy.2
  | approveLocked approval pubkey allowScreenControl =>
    exact EnrollmentTables.Approves.mono hy hkeeps (hrequest _ rfl)
  | upserted approval pubkey allowScreenControl =>
    exact fun a ha => (hy a ha).mono hkeeps (hrequest _ (by rw [Option.mem_def.1 ha]; rfl))
  | selected approval pubkey allowScreenControl hasSandbox =>
    refine ⟨fun a ha => (hy.1 a ha).mono hkeeps (hrequest _ (by rw [Option.mem_def.1 ha]; rfl)), hy.2.trans ?_⟩
    rw [Bool.eq_iff_iff, hd.hasSandbox_iff, hd'.hasSandbox_iff]
    exact ⟨fun hmem => hkeeps.keys.subset hmem, hkeeps.absent pubkey (hkey pubkey rfl)⟩
  | denyLocked request pending =>
    intro hpending
    obtain ⟨row, hrow, hstatus⟩ := hy hpending
    obtain ⟨row', hrow', -, hsame⟩ := hkeeps.requests request row hrow (hrequest request rfl)
    exact ⟨row', hrow', hsame.trans hstatus⟩
  | consumeLocked request approved =>
    intro happroved
    obtain ⟨row, hrow, hstatus⟩ := hy happroved
    obtain ⟨row', hrow', -, hsame⟩ := hkeeps.requests request row hrow (hrequest request rfl)
    exact ⟨row', hrow', hsame.trans hstatus⟩
  | revokeLocked enrollment pubkey active => exact getElem?_of_starts hkeeps.keys hy
  | pollFound request enrollment =>
    obtain ⟨pubkey, hpubkey, happroved⟩ := hy
    exact ⟨pubkey, getElem?_of_starts hkeeps.keys hpubkey, happroved.mono hkeeps.history.subset⟩
  | _ => trivial

/-! ## A statement -/

omit [DecidableEq K] in
theorem lockedRequest_ne_of_free (hfree : ¬ EnrollmentTxn.requestHeld others request) :
    ∀ y ∈ others, y.lockedRequest ≠ some request := by
  intro y hy heq
  exact hfree (List.any_eq_true.2 ⟨y, hy, decide_eq_true heq⟩)

theorem lockedKey_ne_of_free (hfree : ¬ EnrollmentTxn.keyHeld others pubkey) : ∀ y ∈ others, y.lockedKey ≠ some pubkey := by
  intro y hy heq
  exact hfree (List.any_eq_true.2 ⟨y, hy, decide_eq_true heq⟩)

theorem EnrollmentTxn.exec_apart (hexec : exec d others x = some x') (hapart : ∀ y ∈ others, x.Apart y) :
    ∀ y ∈ others, x'.Apart y := by
  have hfree : x'.lockedRequest = none → x'.lockedKey = none → ∀ y ∈ others, x'.Apart y := by
    intro hrequest hkey y _
    rw [Apart, hrequest, hkey]
    exact ⟨fun _ h => (by cases h), fun _ h => by cases h⟩
  cases x with
  | approveBegan approval expired allowScreenControl =>
    simp only [exec] at hexec
    split_ifs at hexec with hheld
    split at hexec
    · cases hexec
      exact hfree rfl rfl
    · split_ifs at hexec
      · cases hexec
        exact hfree rfl rfl
      · cases hexec
        exact hfree rfl rfl
      · cases hexec
        refine fun y hy => ⟨?_, fun _ h => by cases h⟩
        rintro request ⟨⟩
        exact lockedRequest_ne_of_free hheld y hy
  | approveLocked approval pubkey allowScreenControl =>
    simp only [exec] at hexec
    split_ifs at hexec with hheld
    cases hexec
    refine fun y hy => ⟨(hapart y hy).1, ?_⟩
    rintro key ⟨⟩
    exact lockedKey_ne_of_free hheld y hy
  | exchanging pubkey allowScreenControl =>
    simp only [exec] at hexec
    split_ifs at hexec with hheld
    cases hexec
    refine fun y hy => ⟨fun _ h => (by cases h), ?_⟩
    rintro key ⟨⟩
    exact lockedKey_ne_of_free hheld y hy
  | upserted approval pubkey allowScreenControl =>
    cases hexec
    exact hapart
  | denyFound | consuming =>
    simp only [exec] at hexec
    split_ifs at hexec with hheld
    cases hexec
    refine fun y hy => ⟨?_, fun _ h => by cases h⟩
    rintro i ⟨⟩
    exact lockedRequest_ne_of_free hheld y hy
  | revoking enrollment =>
    simp only [exec] at hexec
    split at hexec
    · cases hexec
      exact hfree rfl rfl
    · split_ifs at hexec with hheld
      cases hexec
      refine fun y hy => ⟨fun _ h => (by cases h), ?_⟩
      rintro key ⟨⟩
      exact lockedKey_ne_of_free hheld y hy
  | approving | denying =>
    simp only [exec] at hexec
    split_ifs at hexec <;> cases hexec <;> exact hfree rfl rfl
  | approveFound request allowScreenControl =>
    cases hexec
    exact hfree rfl rfl
  | polling | pollFound =>
    simp only [exec] at hexec
    split at hexec <;> cases hexec <;> exact hfree rfl rfl
  | _ => cases hexec

omit [DecidableEq K] in
theorem exists_of_any {status : DeviceEnrollmentStatus} (h : d.requests[request]?.any (·.status = status) = true) :
    ∃ row, d.requests[request]? = some row ∧ row.status = status := by
  obtain ⟨row, hrow, hstatus⟩ := (Option.any_eq_true _ _).1 h
  exact ⟨row, hrow, of_decide_eq_true hstatus⟩

theorem EnrollmentTables.Good.not_expired (hd : d.Good) (h : d.requests[request]?.any (·.expired) = false) :
    .expired request ∉ d.history := by
  intro hmem
  obtain ⟨row, hrow⟩ : ∃ row, d.requests[request]? = some row :=
    ⟨_, List.getElem?_eq_getElem (hd.known _ hmem request rfl)⟩
  rw [hrow, Option.any_some, (hd.tells request row hrow).expired hmem] at h
  cases h

theorem EnrollmentTxn.exec_knows (hd : d.Good) (hx : x.Knows d) (hexec : exec d others x = some x') : x'.Knows d := by
  cases x with
  | approving | denying =>
    simp only [exec] at hexec
    split_ifs at hexec <;> cases hexec <;> trivial
  | approveFound request allowScreenControl =>
    cases hexec
    refine ⟨le_rfl, fun hexpired => ?_⟩
    rw [List.take_length]
    exact hd.not_expired hexpired
  | approveBegan approval expired allowScreenControl =>
    simp only [exec] at hexec
    split_ifs at hexec with hheld
    split at hexec
    · cases hexec
      trivial
    · rename_i row hrow
      split_ifs at hexec with hterminal hlate
      · cases hexec
        trivial
      · cases hexec
        trivial
      · cases hexec
        refine ⟨hx.1, row, hrow, rfl, ?_⟩
        rw [not_or] at hterminal
        cases hstatus : row.status with
        | pending =>
          refine .inl ⟨rfl, hx.2 ?_⟩
          cases expired with
          | false => rfl
          | true => exact absurd ⟨hstatus, rfl⟩ hlate
        | approved => exact .inr rfl
        | denied => exact absurd hstatus hterminal.1
        | consumed => exact absurd hstatus hterminal.2
  | approveLocked approval pubkey allowScreenControl =>
    simp only [exec] at hexec
    split_ifs at hexec
    cases hexec
    rintro a ⟨⟩
    exact hx
  | exchanging pubkey allowScreenControl =>
    simp only [exec] at hexec
    split_ifs at hexec
    cases hexec
    exact fun _ h => by cases h
  | upserted approval pubkey allowScreenControl =>
    cases hexec
    exact ⟨hx, rfl⟩
  | denyFound | consuming =>
    simp only [exec] at hexec
    split_ifs at hexec
    cases hexec
    exact exists_of_any
  | revoking enrollment =>
    simp only [exec] at hexec
    split at hexec
    · cases hexec
      trivial
    · rename_i row hrow
      split_ifs at hexec
      cases hexec
      simp only [Knows]
      rw [List.getElem?_map, hrow]
      rfl
  | polling request =>
    have hfound : ∀ row enrollment, d.requests[request]? = some row → row.status = .approved ∨ row.status = .consumed →
        row.enrollmentId = some enrollment → (EnrollmentTxn.pollFound request enrollment).Knows d := by
      intro row enrollment hrow hstatus henrollment
      have htell := hd.tells request row hrow
      exact ⟨row.pubkey, htell.enrollment enrollment henrollment, htell.authorized hstatus⟩
    simp only [exec] at hexec
    split at hexec
    · rename_i hrow
      cases hexec
      exact hfound _ _ hrow (.inl rfl) rfl
    · rename_i hrow
      cases hexec
      exact hfound _ _ hrow (.inr rfl) rfl
    · cases hexec
      trivial
  | pollFound request enrollment =>
    obtain ⟨pubkey, hpubkey, happroved⟩ := hx
    simp only [exec] at hexec
    split at hexec
    · rename_i key allowScreenControl hrow
      cases hexec
      rw [List.getElem?_map, hrow] at hpubkey
      cases hpubkey
      simp only [Knows]
      rw [List.take_length]
      exact ⟨le_rfl, (hd.active _ (List.mem_of_getElem? hrow)).symm, happroved⟩
    · cases hexec
      trivial
  | _ => cases hexec

/-! ## Every run -/

theorem enrollmentCalls_sound :
    Transactions.Sound enrollmentCalls EnrollmentTables.Good EnrollmentTxn.Knows EnrollmentTxn.Apart
      fun (_ : Transactions.State (EnrollmentTables K) (EnrollmentTxn K)) _ => True where
  symm x y h := ⟨fun request hy hx => h.1 request hx hy, fun pubkey hy hx => h.2 pubkey hx hy⟩
  start d call _ := by cases call <;> trivial
  start_apart call y := by cases call <;> exact ⟨fun _ h => (by cases h), fun _ h => by cases h⟩
  exec s i x x' _ _ hd hx hapart hexec := ⟨EnrollmentTxn.exec_knows hd hx hexec, EnrollmentTxn.exec_apart hexec hapart⟩
  commit s i x _ _ hd hx _ := hd.commit hx
  commit_other s i x y _ _ hd hx _ _ hapart hy := hy.mono (x.commit_keeps s.data) hapart hd (hd.commit hx)
  observe_apart _ _ _ h := h

theorem EnrollmentTables.Good.empty : (EnrollmentTables.empty : EnrollmentTables K).Good where
  keys := List.nodup_nil
  sandboxes _ h := absurd h (Nat.not_lt_zero _)
  enrolled _ h := absurd h List.not_mem_nil
  active _ h := absurd h List.not_mem_nil
  absent _ _ := rfl
  follows n e h := by simp [EnrollmentTables.empty] at h
  tells n row h := by simp [EnrollmentTables.empty] at h
  known _ h := absurd h List.not_mem_nil

theorem EnrollmentTables.Good.consentBound (hd : d.Good) : d.ConsentBound where
  keys := hd.keys
  sandboxes := hd.sandboxes
  active := hd.active
  follows := hd.follows
  denied := by
    intro request pubkey hdenied happroved
    obtain ⟨row, hrow⟩ : ∃ row, d.requests[request]? = some row :=
      ⟨_, List.getElem?_eq_getElem (hd.known _ hdenied request rfl)⟩
    have htell := hd.tells request row hrow
    have hstatus := htell.approved pubkey happroved
    rw [htell.denied hdenied] at hstatus
    simp at hstatus

/-- **Enrollment is bound to consent**, however the calls interleave. -/
theorem enrollments_are_consent_bound {es : List (Transactions.Event (EnrollmentCall K))}
    {s : Transactions.State (EnrollmentTables K) (EnrollmentTxn K)} (hrun : Run enrollmentCalls.Steps (.idle .empty) es s) :
    s.data.ConsentBound := by
  have hsafe : Transactions.Safe EnrollmentTables.Good EnrollmentTxn.Knows EnrollmentTxn.Apart s :=
    hrun.invariant (fun _ _ _ hstep => enrollmentCalls_sound.step hstep trivial) (.idle .empty)
  exact hsafe.good.consentBound

def calls (i : ℕ) (call : EnrollmentCall K) (statements : ℕ) : List (Transactions.Event (EnrollmentCall K)) :=
  .start i call :: ((List.replicate statements (.exec i)).concat (.commit i))

def statements (i n : ℕ) : List (Transactions.Event (EnrollmentCall K)) := List.replicate n (.exec i)


/-- A machine is approved, polls, is revoked, polls in vain, and comes back with a token. -/
theorem enrollments_are_consent_bound_revoked :
    ∃ s, Run enrollmentCalls.Steps (.idle (.empty : EnrollmentTables String))
        (calls 0 (.startDeviceEnrollment "key") 0 ++ calls 1 (.approveDeviceEnrollment 0 true) 5 ++
          calls 2 (.pollDeviceEnrollment 0) 2 ++ calls 3 (.revokeEnrollment 0) 1 ++ calls 4 (.pollDeviceEnrollment 0) 2 ++
          calls 5 (.exchangeEnrollToken "key" false) 2) s ∧
      s.data.history = [.approved 0 "key" true 0, .issued 0 "key" true 1, .revoked "key", .exchanged "key" false] ∧
      s.data.sandboxes = [0] ∧ s.data.ConsentBound := by
  obtain ⟨s, hplay, hhistory, hsandboxes⟩ : ∃ s, play enrollmentCalls.step (.idle (.empty : EnrollmentTables String))
        (calls 0 (.startDeviceEnrollment "key") 0 ++ calls 1 (.approveDeviceEnrollment 0 true) 5 ++
          calls 2 (.pollDeviceEnrollment 0) 2 ++ calls 3 (.revokeEnrollment 0) 1 ++ calls 4 (.pollDeviceEnrollment 0) 2 ++
          calls 5 (.exchangeEnrollToken "key" false) 2) = some s ∧
      s.data.history = [.approved 0 "key" true 0, .issued 0 "key" true 1, .revoked "key", .exchanged "key" false] ∧
      s.data.sandboxes = [0] := by
    decide +kernel
  have hrun : Run enrollmentCalls.Steps _ _ s := run_of_play hplay
  exact ⟨s, hrun, hhistory, hsandboxes, enrollments_are_consent_bound hrun⟩

/-- An approve finds the request pending, and commits after another approve and a revocation. -/
def overlappingApproves : List (Transactions.Event (EnrollmentCall String)) :=
  calls 0 (.startDeviceEnrollment "key") 0 ++ .start 1 (.approveDeviceEnrollment 0 true) :: statements 1 2 ++
    calls 2 (.approveDeviceEnrollment 0 true) 5 ++ calls 3 (.revokeEnrollment 0) 1 ++ (statements 1 3).concat (.commit 1)

/-- An approved request answers a poll after its time. And of two approves that have both found the request
pending, the second one commits after a revocation: the machine is active again. -/
theorem approval_outlives_expiry_and_revocation :
    (∃ s, Run enrollmentCalls.Steps (.idle (.empty : EnrollmentTables String))
        (calls 0 (.startDeviceEnrollment "key") 0 ++ calls 1 (.approveDeviceEnrollment 0 true) 5 ++ calls 2 (.expire 0) 0 ++
          calls 3 (.pollDeviceEnrollment 0) 2) s ∧
      s.data.history = [.approved 0 "key" true 0, .expired 0, .issued 0 "key" true 2]) ∧
    ∃ s, Run enrollmentCalls.Steps (.idle (.empty : EnrollmentTables String)) overlappingApproves s ∧
      s.data.history = [.approved 0 "key" true 0, .revoked "key", .approved 0 "key" true 0] ∧
      s.data.enrollments = [{ pubkey := "key", active := true, allowScreenControl := true }] := by
  exact ⟨exists_run_of_play (by decide +kernel), exists_run_of_play (by decide +kernel)⟩

end

end OpenGeni.Machines
