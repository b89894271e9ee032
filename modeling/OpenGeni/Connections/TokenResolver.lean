/-
The refresh token of a connection, and the calls that refresh it.

A call of the resolver reads the connection and, where it is to refresh, joins the refresh of the
same version that its process has under way, or starts one. The refresh sends the token that was
read to the authorization server, which gives a new token for it and accepts the old one no more,
and then writes the new token if the version is still the one that was read. A rejected refresh is
taken for a rejected grant: its calls move the connection to `needs_reauth`, under the same
condition on the version.

Processes know nothing of one another. Two that have read the same version both send its token, and
what the server answers the second is what it answers where the grant has ended.
-/
import OpenGeni.Lib.Run
import OpenGeni.Lib.Slots

namespace OpenGeni.Connections

open OpenGeni.Lib

/-! ## The authorization server -/

/-- A refresh token: the grant it belongs to, and how many were issued in the grant before it. -/
structure RefreshToken where
  grant : ℕ
  index : ℕ
deriving DecidableEq

structure AuthorizationServer where
  granted : ℕ
  newest : Slots ℕ ℕ
  ended : List ℕ

namespace AuthorizationServer

def newestOf (server : AuthorizationServer) (grant : ℕ) : ℕ := (server.newest.get grant).getD 0

def accepts (server : AuthorizationServer) (grant : ℕ) : Bool := !server.ended.contains grant

/-- The token endpoint. It accepts only the newest token of a grant, and issues the next. -/
def refresh (server : AuthorizationServer) (token : RefreshToken) : Option (AuthorizationServer × RefreshToken) :=
  if server.accepts token.grant ∧ token.index = server.newestOf token.grant then
    some ({ server with newest := server.newest.put token.grant (token.index + 1) },
      { token with index := token.index + 1 })
  else
    none

def authorize (server : AuthorizationServer) : AuthorizationServer × RefreshToken :=
  ({ server with granted := server.granted + 1, newest := server.newest.put server.granted 0 },
    { grant := server.granted, index := 0 })

end AuthorizationServer

/-! ## The row -/

inductive ConnectionStatus
  | active
  | needsReauth
  | revoked
deriving DecidableEq

structure ConnectionRow where
  status : ConnectionStatus
  version : ℕ
  refreshToken : RefreshToken

namespace ConnectionRow

/-- `none` where no row is updated. -/
def recordConnectionTokenRefresh (row : ConnectionRow) (version : ℕ) (refreshToken : RefreshToken) : Option ConnectionRow :=
  if row.version = version ∧ row.status = .active then
    some { status := .active, version := row.version + 1, refreshToken }
  else
    none

def setConnectionStatus (row : ConnectionRow) (status : ConnectionStatus) (version : ℕ) : Option ConnectionRow :=
  if row.version = version then some { row with status, version := row.version + 1 } else none

def updateConnection (row : ConnectionRow) (expectedVersion : Option ℕ) (credential : Option RefreshToken)
    (activates : Bool) : Option ConnectionRow :=
  if ∀ version ∈ expectedVersion, row.version = version then
    match credential with
    | none => some row
    | some refreshToken =>
      some { status := if activates then .active else row.status, version := row.version + 1, refreshToken }
  else
    none

def revokeConnection (row : ConnectionRow) : ConnectionRow := { row with status := .revoked, version := row.version + 1 }

end ConnectionRow

/-! ## The calls -/

inductive RefreshResult
  /-- The connection was read again, with this status. -/
  | current (status : ConnectionStatus)
  /-- `isPermanentRefreshError`. -/
  | rejected
  /-- The connection credential changed during the refresh. -/
  | changed
  /-- The server or the database could not be asked. -/
  | unavailable
deriving DecidableEq

inductive RefreshStage
  | calling
  | recording (refreshToken : RefreshToken)
  | reloading (persisted : Bool)
  | settled (result : RefreshResult)
deriving DecidableEq

/-- A refresh: `performRefresh`, with the credential that it was given. -/
structure Refresh where
  process : ℕ
  version : ℕ
  refreshToken : RefreshToken
  stage : RefreshStage

inductive Answer
  | ok
  | authNeeded
  /-- `auth_needed` because the refresh has failed that was sent with the token. -/
  | refreshFailed (refresh : ℕ) (refreshToken : RefreshToken)
deriving DecidableEq

inductive CallStage
  | begun
  | loaded (version : ℕ) (refreshToken : RefreshToken)
  | awaiting (version refresh : ℕ)
  | rejected (version refresh : ℕ) (refreshToken : RefreshToken)
  | answered (answer : Answer)
deriving DecidableEq

structure Call where
  process : ℕ
  stage : CallStage

structure ConnectionState where
  server : AuthorizationServer
  row : ConnectionRow
  refreshes : Slots ℕ Refresh
  /-- The number of refreshes that were started; they are numbered by it. -/
  started : ℕ
  calls : Slots ℕ Call
  /-- The refreshes that the server has answered with a new token, with the token they have sent. -/
  obtained : List (ℕ × RefreshToken)
  recorded : List (ℕ × RefreshToken)
  /-- For each move to `needs_reauth`, whether the server then accepted the newest token. -/
  reauths : List Bool
  /-- The connection was revoked, and no new credential has activated it since. -/
  isRevoked : Bool

inductive ConnectionEvent
  | resolve (i process : ℕ)
  /-- The next step of a call. The credential is to be refreshed, by force or as it expires. -/
  | advance (i : ℕ) (shouldRefresh succeeds : Bool)
  | advanceRefresh (j : ℕ) (succeeds : Bool)
  | stop (i : ℕ)
  | stopRefresh (j : ℕ)
  | updateConnection (expectedVersion : Option ℕ) (credential activates : Bool)
  | revokeConnection
  | endGrant (grant : ℕ)

def Refresh.isInflight (refresh : Refresh) (process version : ℕ) : Bool := match refresh.stage with
  | .settled _ => false
  | _ => refresh.process = process ∧ refresh.version = version

namespace ConnectionState

def putCall (s : ConnectionState) (i : ℕ) (call : Call) : ConnectionState := { s with calls := s.calls.put i call }

def putRefresh (s : ConnectionState) (j : ℕ) (refresh : Refresh) : ConnectionState :=
  { s with refreshes := s.refreshes.put j refresh }

def refreshSingleFlight (s : ConnectionState) (i : ℕ) (call : Call) (version : ℕ) (refreshToken : RefreshToken) :
    ConnectionState :=
  match (List.range s.started).find? fun j => (s.refreshes.get j).any (·.isInflight call.process version) with
  | some j => s.putCall i { call with stage := .awaiting version j }
  | none =>
    { (s.putRefresh s.started { process := call.process, version, refreshToken, stage := .calling }).putCall i
        { call with stage := .awaiting version s.started } with started := s.started + 1 }

def advance (s : ConnectionState) (i : ℕ) (shouldRefresh succeeds : Bool) (call : Call) : Option ConnectionState :=
  let next (stage : CallStage) := s.putCall i { call with stage }
  match call.stage with
  | .begun =>
    if succeeds = false ∨ s.row.status ≠ .active then
      some (next (.answered .authNeeded))
    else if shouldRefresh then
      some (next (.loaded s.row.version s.row.refreshToken))
    else
      some (next (.answered .ok))
  | .loaded version refreshToken => some (s.refreshSingleFlight i call version refreshToken)
  | .awaiting version j =>
    match s.refreshes.get j with
    | some { stage := .settled (.current status), .. } =>
      some (next (.answered (if status = .active then .ok else .authNeeded)))
    | some { stage := .settled .rejected, refreshToken, .. } => some (next (.rejected version j refreshToken))
    | some { stage := .settled .changed, refreshToken, .. } => some (next (.answered (.refreshFailed j refreshToken)))
    | some { stage := .settled .unavailable, .. } => some (next (.answered .authNeeded))
    | _ => none
  | .rejected version j refreshToken =>
    let answered := next (.answered (.refreshFailed j refreshToken))
    match s.row.setConnectionStatus .needsReauth version, succeeds with
    | some row, true =>
      some { answered with row, reauths := s.server.accepts s.row.refreshToken.grant :: s.reauths }
    | _, _ => some answered
  | .answered _ => none

def advanceRefresh (s : ConnectionState) (j : ℕ) (succeeds : Bool) (refresh : Refresh) : Option ConnectionState :=
  let next (stage : RefreshStage) := s.putRefresh j { refresh with stage }
  match refresh.stage with
  | .settled _ => none
  | .calling =>
    if succeeds = false then
      some (next (.settled .unavailable))
    else
      match s.server.refresh refresh.refreshToken with
      | none => some (next (.settled .rejected))
      | some (server, refreshToken) =>
        some { next (.recording refreshToken) with
          server := server, obtained := (j, refresh.refreshToken) :: s.obtained }
  | .recording refreshToken =>
    if succeeds = false then
      some (next (.settled .unavailable))
    else
      match s.row.recordConnectionTokenRefresh refresh.version refreshToken with
      | none => some (next (.reloading false))
      | some row => some { next (.reloading true) with
          row := row, recorded := (j, refresh.refreshToken) :: s.recorded }
  | .reloading persisted =>
    if succeeds = false then
      some (next (.settled .unavailable))
    else if persisted ∨ s.row.status = .active then
      some (next (.settled (.current s.row.status)))
    else
      some (next (.settled .changed))

def step (s : ConnectionState) : ConnectionEvent → Option ConnectionState
  | .resolve i process =>
    match s.calls.get i with
    | none => some (s.putCall i { process, stage := .begun })
    | some _ => none
  | .advance i shouldRefresh succeeds => (s.calls.get i).bind (s.advance i shouldRefresh succeeds)
  | .advanceRefresh j succeeds => (s.refreshes.get j).bind (s.advanceRefresh j succeeds)
  | .stop i => some { s with calls := s.calls.drop i }
  | .stopRefresh j => some { s with refreshes := s.refreshes.drop j }
  | .updateConnection expectedVersion credential activates =>
    let (server, refreshToken) := s.server.authorize
    if activates ∧ credential = false then
      none
    else if credential then
      (s.row.updateConnection expectedVersion (some refreshToken) activates).map fun row =>
        { s with row := row, server := server, isRevoked := s.isRevoked && !activates }
    else
      (s.row.updateConnection expectedVersion none activates).map fun row => { s with row := row }
  | .revokeConnection => some { s with row := s.row.revokeConnection, isRevoked := true }
  | .endGrant grant => some { s with server := { s.server with ended := grant :: s.server.ended } }

end ConnectionState

def connectionSteps (s : ConnectionState) (e : ConnectionEvent) (s' : ConnectionState) : Prop := s.step e = some s'

/-! ## A healthy connection -/

def Refresh.isInFlight (refresh : Refresh) : Bool := match refresh.stage with
  | .calling => true
  | .recording _ => true
  | _ => false

def Refresh.holds (refresh : Refresh) (grant : ℕ) : Bool := match refresh.stage with
  | .recording refreshToken => refreshToken.grant = grant
  | _ => false

structure ConnectionState.Healthy (s : ConnectionState) : Prop where
  /-- The connection was moved to `needs_reauth` only where the server did not accept its newest token. -/
  reauths : ∀ accepted ∈ s.reauths, accepted = false
  stored : (∀ j refresh, s.refreshes.get j = some refresh → refresh.isInFlight = false) →
    s.row.refreshToken.index = s.server.newestOf s.row.refreshToken.grant
  revoked : s.isRevoked → s.row.status = .revoked
  answers : ∀ i call j refreshToken, s.calls.get i = some call →
    call.stage = .answered (.refreshFailed j refreshToken) → ∀ j', (j', refreshToken) ∈ s.recorded → j' = j

def ConnectionState.connected : ConnectionState where
  server := { granted := 1, newest := [], ended := [] }
  row := { status := .active, version := 1, refreshToken := { grant := 0, index := 0 } }
  refreshes := []
  started := 0
  calls := []
  obtained := []
  recorded := []
  reauths := []
  isRevoked := false

/-- A refresh is sent with the newest token of its grant and, where the server accepts it, with the
version that the connection still has, unless it has another credential by now. Until the new token is
recorded the connection is not revoked, and the refresh neither fails nor stops. -/
def Exclusive (s : ConnectionState) : ConnectionEvent → Prop
  | .advanceRefresh j succeeds => ∀ refresh ∈ s.refreshes.get j,
      (refresh.stage = .calling → succeeds →
        refresh.refreshToken.index = s.server.newestOf refresh.refreshToken.grant ∧
          (s.server.accepts refresh.refreshToken.grant → refresh.refreshToken.grant = s.row.refreshToken.grant →
            s.row.version = refresh.version)) ∧
        (refresh.holds s.row.refreshToken.grant → succeeds)
  | .stopRefresh j => ∀ refresh ∈ s.refreshes.get j, refresh.holds s.row.refreshToken.grant = false
  | .revokeConnection => ∀ e ∈ s.refreshes, e.2.holds s.row.refreshToken.grant = false
  | _ => True

instance (s : ConnectionState) (e : ConnectionEvent) : Decidable (Exclusive s e) :=
  match e with
  | .advanceRefresh j succeeds =>
    inferInstanceAs (Decidable (∀ refresh ∈ s.refreshes.get j, (refresh.stage = .calling → succeeds →
        refresh.refreshToken.index = s.server.newestOf refresh.refreshToken.grant ∧
          (s.server.accepts refresh.refreshToken.grant → refresh.refreshToken.grant = s.row.refreshToken.grant →
            s.row.version = refresh.version)) ∧
        (refresh.holds s.row.refreshToken.grant → succeeds)))
  | .stopRefresh j =>
    inferInstanceAs (Decidable (∀ refresh ∈ s.refreshes.get j, refresh.holds s.row.refreshToken.grant = false))
  | .revokeConnection => inferInstanceAs (Decidable (∀ e ∈ s.refreshes, e.2.holds s.row.refreshToken.grant = false))
  | .resolve _ _ => isTrue trivial
  | .advance _ _ _ => isTrue trivial
  | .stop _ => isTrue trivial
  | .updateConnection _ _ _ => isTrue trivial
  | .endGrant _ => isTrue trivial

/-! ## The invariant -/

/-- What a version and a token that were read of the row tell of it later. -/
structure ConnectionState.Saw (s : ConnectionState) (version : ℕ) (refreshToken : RefreshToken) : Prop where
  known : version ≤ s.row.version
  current : s.row.version = version → s.row.refreshToken = refreshToken ∧ s.row.status = .active
  granted : refreshToken.grant < s.server.granted
  issued : refreshToken.index ≤ s.server.newestOf refreshToken.grant

def ConnectionState.Spent (s : ConnectionState) (refreshToken : RefreshToken) : Prop :=
  refreshToken.grant < s.server.granted ∧ s.server.accepts refreshToken.grant = false ∧ refreshToken.index = s.server.newestOf refreshToken.grant

def RefreshStage.Relies (s : ConnectionState) (j : ℕ) (sent : RefreshToken) : RefreshStage → Prop
  | .recording refreshToken => (j, sent) ∈ s.obtained ∧ refreshToken.grant = sent.grant ∧
      sent.index < refreshToken.index ∧ refreshToken.index ≤ s.server.newestOf sent.grant
  | .reloading _ => (j, sent) ∈ s.obtained
  | .settled .rejected => s.Spent sent
  | .settled .changed => (j, sent) ∈ s.obtained
  | _ => True

def CallStage.Relies (s : ConnectionState) : CallStage → Prop
  | .loaded version refreshToken => s.Saw version refreshToken
  | .awaiting version j => j < s.started ∧ ∀ refresh, s.refreshes.get j = some refresh → refresh.version = version
  | .rejected version _ refreshToken => s.Saw version refreshToken ∧ s.Spent refreshToken
  | .answered (.refreshFailed j refreshToken) => s.Spent refreshToken ∨ (j, refreshToken) ∈ s.obtained
  | _ => True

def ConnectionState.Held (s : ConnectionState) : Prop :=
  ∃ j refresh refreshToken, s.refreshes.get j = some refresh ∧ refresh.stage = .recording refreshToken ∧
    refresh.version = s.row.version ∧ refreshToken.grant = s.row.refreshToken.grant ∧
      refreshToken.index = s.server.newestOf s.row.refreshToken.grant

/-- The part of the invariant that is about the row, the server and the history. -/
structure ConnectionState.Books (s : ConnectionState) : Prop where
  reauths : ∀ accepted ∈ s.reauths, accepted = false
  revoked : s.isRevoked → s.row.status = .revoked
  granted : s.row.refreshToken.grant < s.server.granted
  issued : s.row.refreshToken.index ≤ s.server.newestOf s.row.refreshToken.grant
  /-- The newest token is the stored one or is to be. -/
  newest : s.row.refreshToken.index = s.server.newestOf s.row.refreshToken.grant ∨ s.Held
  once : ∀ j j' refreshToken, (j, refreshToken) ∈ s.obtained → (j', refreshToken) ∈ s.obtained → j = j'
  replaced : ∀ j refreshToken, (j, refreshToken) ∈ s.obtained →
    refreshToken.grant < s.server.granted ∧ refreshToken.index < s.server.newestOf refreshToken.grant
  recorded : s.recorded ⊆ s.obtained

structure ConnectionState.Tracks (s : ConnectionState) (j : ℕ) (refresh : Refresh) : Prop where
  started : j < s.started
  saw : s.Saw refresh.version refresh.refreshToken
  relies : refresh.stage.Relies s j refresh.refreshToken

structure ConnectionState.Sound (s : ConnectionState) : Prop where
  books : s.Books
  refreshes : ∀ j refresh, s.refreshes.get j = some refresh → s.Tracks j refresh
  calls : ∀ i call, s.calls.get i = some call → call.stage.Relies s

variable {s s' : ConnectionState} {i j version : ℕ} {call : Call} {refresh : Refresh} {sent refreshToken : RefreshToken}
  {server : AuthorizationServer}

/-! ## The server -/

structure AuthorizationServer.Later (server server' : AuthorizationServer) : Prop where
  granted : server.granted ≤ server'.granted
  newest : ∀ grant < server.granted, server.newestOf grant ≤ server'.newestOf grant
  ended : ∀ grant < server.granted, server.accepts grant = false →
    server'.accepts grant = false ∧ server'.newestOf grant = server.newestOf grant

theorem AuthorizationServer.Later.refl (server : AuthorizationServer) : server.Later server where
  granted := le_refl _
  newest _ _ := le_refl _
  ended _ _ h := ⟨h, rfl⟩

variable {server' : AuthorizationServer} {succeeds activates : Bool}

theorem AuthorizationServer.refresh_cases (h : server.refresh sent = some (server', refreshToken)) :
    server.accepts sent.grant = true ∧ sent.index = server.newestOf sent.grant ∧ server.Later server' ∧
      refreshToken = { sent with index := sent.index + 1 } ∧ server'.newestOf sent.grant = sent.index + 1 ∧
        (∀ grant, grant ≠ sent.grant → server'.newestOf grant = server.newestOf grant) ∧
          server'.granted = server.granted := by
  obtain ⟨⟨haccepts, hnewest⟩, hpair⟩ := Option.ite_none_right_eq_some.1 h
  cases hpair
  have hself : ({ server with newest := server.newest.put sent.grant (sent.index + 1) } : AuthorizationServer).newestOf
      sent.grant = sent.index + 1 := by
    simp [AuthorizationServer.newestOf]
  have hother (grant : ℕ) (hne : grant ≠ sent.grant) :
      ({ server with newest := server.newest.put sent.grant (sent.index + 1) } : AuthorizationServer).newestOf grant =
        server.newestOf grant := by
    simp only [AuthorizationServer.newestOf, Slots.get_put_of_ne hne]
  refine ⟨haccepts, hnewest, ⟨le_refl _, fun grant _ => ?_, fun grant _ hended => ⟨hended, ?_⟩⟩, rfl, hself, hother, rfl⟩
  · by_cases hgrant : grant = sent.grant
    · rw [hgrant, hself, ← hnewest]
      omega
    · rw [hother grant hgrant]
  · refine hother grant fun hgrant => ?_
    rw [hgrant, haccepts] at hended
    cases hended

theorem AuthorizationServer.later_authorize (server : AuthorizationServer) : server.Later server.authorize.1 := by
  have hother (grant : ℕ) (hgrant : grant < server.granted) :
      server.authorize.1.newestOf grant = server.newestOf grant := by
    simp only [AuthorizationServer.authorize, AuthorizationServer.newestOf, Slots.get_put_of_ne (Nat.ne_of_lt hgrant)]
  exact ⟨Nat.le_succ _, fun grant hgrant => (hother grant hgrant).ge, fun grant hgrant hended => ⟨hended, hother grant hgrant⟩⟩

theorem AuthorizationServer.later_end (server : AuthorizationServer) (grant : ℕ) :
    server.Later { server with ended := grant :: server.ended } where
  granted := le_refl _
  newest _ _ := le_refl _
  ended other _ hended := by
    refine ⟨?_, rfl⟩
    simp only [AuthorizationServer.accepts, Bool.not_eq_false'] at hended ⊢
    rw [List.contains_iff_mem] at hended ⊢
    exact List.mem_cons_of_mem _ hended

/-! ## What a step leaves to the others -/

structure ConnectionState.Keeps (s s' : ConnectionState) : Prop where
  server : s.server.Later s'.server
  version : s.row.version ≤ s'.row.version
  row : s'.row.version = s.row.version → s'.row = s.row
  obtained : s.obtained ⊆ s'.obtained
  started : s.started ≤ s'.started
  refreshes : ∀ j < s.started, ∀ refresh', s'.refreshes.get j = some refresh' →
    ∃ refresh, s.refreshes.get j = some refresh ∧ refresh.version = refresh'.version

theorem ConnectionState.Keeps.refl (s : ConnectionState) : s.Keeps s where
  server := .refl _
  version := le_refl _
  row _ := rfl
  obtained := List.Subset.refl _
  started := le_refl _
  refreshes _ _ refresh h := ⟨refresh, h, rfl⟩

theorem ConnectionState.Saw.mono (hk : s.Keeps s') (h : s.Saw version refreshToken) : s'.Saw version refreshToken where
  known := h.known.trans hk.version
  current hsame := by
    have hversion : s'.row.version = s.row.version := Nat.le_antisymm (hsame ▸ h.known) hk.version
    rw [hk.row hversion]
    exact h.current (hversion.symm.trans hsame)
  granted := h.granted.trans_le hk.server.granted
  issued := h.issued.trans (hk.server.newest _ h.granted)

theorem ConnectionState.Spent.mono (hk : s.Keeps s') (h : s.Spent refreshToken) : s'.Spent refreshToken := by
  obtain ⟨hgranted, hended, hnewest⟩ := h
  obtain ⟨hended', hsame⟩ := hk.server.ended _ hgranted hended
  exact ⟨hgranted.trans_le hk.server.granted, hended', hnewest.trans hsame.symm⟩

theorem RefreshStage.Relies.mono {stage : RefreshStage} (hk : s.Keeps s') (hgranted : sent.grant < s.server.granted)
    (h : stage.Relies s j sent) : stage.Relies s' j sent := by
  cases stage with
  | calling => trivial
  | recording refreshToken =>
    obtain ⟨hobtained, hgrant, hlt, hle⟩ := h
    exact ⟨hk.obtained hobtained, hgrant, hlt, hle.trans (hk.server.newest _ hgranted)⟩
  | reloading persisted => exact hk.obtained h
  | settled result =>
    cases result with
    | rejected => exact ConnectionState.Spent.mono hk h
    | changed => exact hk.obtained h
    | current | unavailable => trivial

theorem CallStage.Relies.mono {stage : CallStage} (hk : s.Keeps s') (h : stage.Relies s) : stage.Relies s' := by
  cases stage with
  | begun => trivial
  | loaded version refreshToken => exact ConnectionState.Saw.mono hk h
  | awaiting version j =>
    refine ⟨h.1.trans_le hk.started, fun refresh' hrefresh' => ?_⟩
    obtain ⟨refresh, hrefresh, hversion⟩ := hk.refreshes j h.1 refresh' hrefresh'
    exact hversion.symm.trans (h.2 refresh hrefresh)
  | rejected version j refreshToken => exact ⟨h.1.mono hk, h.2.mono hk⟩
  | answered answer =>
    cases answer with
    | ok | authNeeded => trivial
    | refreshFailed j refreshToken =>
      exact h.imp (ConnectionState.Spent.mono hk) fun hobtained => hk.obtained hobtained

/-- **One party moves.** The others keep what they rely on. -/
theorem ConnectionState.Sound.next (h : s.Sound) (hk : s.Keeps s') (hbooks : s'.Books)
    (hrefreshes : ∀ j refresh, s'.refreshes.get j = some refresh → s.refreshes.get j = some refresh ∨ s'.Tracks j refresh)
    (hcalls : ∀ i call, s'.calls.get i = some call → s.calls.get i = some call ∨ call.stage.Relies s') : s'.Sound where
  books := hbooks
  refreshes j refresh hj := by
    obtain hold | hnew := hrefreshes j refresh hj
    · obtain ⟨hstarted, hsaw, hrelies⟩ := h.refreshes j refresh hold
      exact ⟨hstarted.trans_le hk.started, hsaw.mono hk, hrelies.mono hk hsaw.granted⟩
    · exact hnew
  calls i call hi := by
    obtain hold | hnew := hcalls i call hi
    · exact (h.calls i call hold).mono hk
    · exact hnew

theorem ConnectionState.Sound.putCall (h : s.Sound) (hrelies : call.stage.Relies s) : (s.putCall i call).Sound := by
  have hk : s.Keeps (s.putCall i call) := { ConnectionState.Keeps.refl s with }
  refine h.next hk { h.books with } (fun j refresh hj => .inl hj) fun i' call' hi' => ?_
  obtain ⟨-, rfl⟩ | ⟨-, hold⟩ := Slots.get_put_cases hi'
  · exact .inr (hrelies.mono hk)
  · exact .inl hold

theorem ConnectionState.Held.putRefresh (h : s.Held) {refresh' : Refresh} (hj : s.refreshes.get j = some refresh')
    (hnot : refresh'.version = s.row.version → refresh'.holds s.row.refreshToken.grant = false) :
    (s.putRefresh j refresh).Held := by
  obtain ⟨k, other, refreshToken, hk, hstage, hversion, hgrant, hindex⟩ := h
  have hne : k ≠ j := by
    rintro rfl
    cases hj.symm.trans hk
    have hholds := hnot hversion
    simp [Refresh.holds, hstage, hgrant] at hholds
  exact ⟨k, other, refreshToken, (Slots.get_put_of_ne hne).trans hk, hstage, hversion, hgrant, hindex⟩

theorem ConnectionState.Sound.putStage (h : s.Sound) {stage : RefreshStage} (hj : s.refreshes.get j = some refresh)
    (hnot : refresh.version = s.row.version → refresh.holds s.row.refreshToken.grant = false)
    (hrelies : stage.Relies s j refresh.refreshToken) : (s.putRefresh j { refresh with stage }).Sound := by
  obtain ⟨hstarted, hsaw, -⟩ := h.refreshes j refresh hj
  have hk : s.Keeps (s.putRefresh j { refresh with stage }) := by
    refine { ConnectionState.Keeps.refl s with refreshes := fun k _ other hk => ?_ }
    obtain ⟨rfl, rfl⟩ | ⟨-, hold⟩ := Slots.get_put_cases hk
    · exact ⟨refresh, hj, rfl⟩
    · exact ⟨other, hold, rfl⟩
  refine h.next hk { h.books with newest := h.books.newest.imp id fun hheld => hheld.putRefresh hj hnot }
    (fun k other hk' => ?_) fun _ _ hi => .inl hi
  obtain ⟨rfl, rfl⟩ | ⟨-, hold⟩ := Slots.get_put_cases hk'
  · exact .inr ⟨hstarted, hsaw.mono hk, hrelies.mono hk hsaw.granted⟩
  · exact .inl hold

/-! ## The steps of a refresh -/

theorem ConnectionState.Sound.obtain (h : s.Sound)
    (hj : s.refreshes.get j = some refresh) (hcalling : refresh.stage = .calling)
    (hrefresh : s.server.refresh refresh.refreshToken = some (server', refreshToken))
    (hsame : refresh.refreshToken.grant = s.row.refreshToken.grant → s.row.version = refresh.version) :
    ({ s.putRefresh j { refresh with stage := .recording refreshToken } with
        server := server', obtained := (j, refresh.refreshToken) :: s.obtained } : ConnectionState).Sound := by
  obtain ⟨hstarted, hsaw, -⟩ := h.refreshes j refresh hj
  obtain ⟨-, hnewest, hlater, htoken, hself, hother, hgranted⟩ := AuthorizationServer.refresh_cases hrefresh
  -- no refresh has been given a token for this one before
  have hfirst (k : ℕ) : (k, refresh.refreshToken) ∉ s.obtained := fun hmem => by
    have hlt := (h.books.replaced k _ hmem).2
    omega
  have hk : s.Keeps { s.putRefresh j { refresh with stage := .recording refreshToken } with
      server := server', obtained := (j, refresh.refreshToken) :: s.obtained } := by
    refine { ConnectionState.Keeps.refl s with
      server := hlater, obtained := List.subset_cons_self _ _, refreshes := fun k _ other hk => ?_ }
    obtain ⟨rfl, rfl⟩ | ⟨-, hold⟩ := Slots.get_put_cases hk
    · exact ⟨refresh, hj, rfl⟩
    · exact ⟨other, hold, rfl⟩
  have hnot : refresh.holds s.row.refreshToken.grant = false := by simp [Refresh.holds, hcalling]
  refine h.next hk { h.books with granted := ?_, issued := ?_, newest := ?_, once := ?_, replaced := ?_, recorded := ?_ }
    (fun k other hk' => ?_) fun _ _ hi => .inl hi
  · exact h.books.granted.trans_le hlater.granted
  · exact h.books.issued.trans (hlater.newest _ h.books.granted)
  · by_cases hgrant : refresh.refreshToken.grant = s.row.refreshToken.grant
    · -- it is the grant of the row: the new token is to be recorded by this refresh
      refine .inr ⟨j, _, refreshToken, Slots.get_put, rfl, (hsame hgrant).symm, ?_, ?_⟩
      · rw [htoken]
        exact hgrant
      · change refreshToken.index = server'.newestOf s.row.refreshToken.grant
        rw [htoken, ← hgrant, hself]
    · have hsame' : server'.newestOf s.row.refreshToken.grant = s.server.newestOf s.row.refreshToken.grant :=
        hother _ fun heq => hgrant heq.symm
      obtain hstored | hheld := h.books.newest
      · exact .inl (hstored.trans hsame'.symm)
      · have hheld' : (s.putRefresh j { refresh with stage := .recording refreshToken }).Held :=
          hheld.putRefresh hj fun _ => hnot
        obtain ⟨k, other, token, hk', hstage, hversion, hgrant', hindex⟩ := hheld'
        exact .inr ⟨k, other, token, hk', hstage, hversion, hgrant', hindex.trans hsame'.symm⟩
  · intro k k' token hk' hk''
    obtain ⟨rfl, rfl⟩ | hold := (List.mem_cons.1 hk').imp Prod.mk.inj id
    · obtain ⟨rfl, -⟩ | hold' := (List.mem_cons.1 hk'').imp Prod.mk.inj id
      · rfl
      · exact absurd hold' (hfirst k')
    · obtain ⟨-, rfl⟩ | hold' := (List.mem_cons.1 hk'').imp Prod.mk.inj id
      · exact absurd hold (hfirst k)
      · exact h.books.once k k' token hold hold'
  · intro k token hk'
    obtain ⟨-, rfl⟩ | hold := (List.mem_cons.1 hk').imp Prod.mk.inj id
    · exact ⟨hsaw.granted.trans_le hlater.granted, by change _ < server'.newestOf _; omega⟩
    · obtain ⟨hgrant, hlt⟩ := h.books.replaced k token hold
      exact ⟨hgrant.trans_le hlater.granted, hlt.trans_le (hlater.newest _ hgrant)⟩
  · exact List.Subset.trans h.books.recorded (List.subset_cons_self _ _)
  · obtain ⟨rfl, rfl⟩ | ⟨-, hold⟩ := Slots.get_put_cases hk'
    · refine .inr ⟨hstarted, hsaw.mono hk, List.mem_cons_self, ?_, ?_, ?_⟩
      · rw [htoken]
      · rw [htoken]
        exact Nat.lt_succ_self _
      · change refreshToken.index ≤ server'.newestOf _
        rw [htoken, hself]
    · exact .inl hold

theorem ConnectionState.Sound.recording_newest (h : s.Sound) (hj : s.refreshes.get j = some refresh)
    (hstage : refresh.stage = .recording refreshToken) (hversion : s.row.version = refresh.version) :
    refreshToken.grant = s.row.refreshToken.grant ∧
      refreshToken.index = s.server.newestOf s.row.refreshToken.grant ∧ s.row.status = .active := by
  obtain ⟨-, hsaw, hrelies⟩ := h.refreshes j refresh hj
  rw [hstage] at hrelies
  obtain ⟨hobtained, hgrant, hlt, hle⟩ := hrelies
  obtain ⟨hrow, hactive⟩ := hsaw.current hversion
  obtain hstored | ⟨k, other, token, hk, hstage', hversion', hgrant', hindex⟩ := h.books.newest
  · rw [hrow] at hstored
    omega
  · -- both have been given a token for the one that is stored
    obtain ⟨-, hsaw', hrelies'⟩ := h.refreshes k other hk
    rw [hstage'] at hrelies'
    have hsent : other.refreshToken = refresh.refreshToken := (hsaw'.current hversion'.symm).1.symm.trans hrow
    obtain rfl := h.books.once j k refresh.refreshToken hobtained (hsent ▸ hrelies'.1)
    cases hj.symm.trans hk
    obtain rfl := RefreshStage.recording.inj (hstage.symm.trans hstage')
    exact ⟨hgrant', hindex, hactive⟩

theorem ConnectionState.Sound.record (h : s.Sound) {row' : ConnectionRow} (hj : s.refreshes.get j = some refresh)
    (hstage : refresh.stage = .recording refreshToken)
    (hrecord : s.row.recordConnectionTokenRefresh refresh.version refreshToken = some row') :
    ({ s.putRefresh j { refresh with stage := .reloading true } with
        row := row', recorded := (j, refresh.refreshToken) :: s.recorded } : ConnectionState).Sound := by
  obtain ⟨hstarted, hsaw, hrelies⟩ := h.refreshes j refresh hj
  rw [hstage] at hrelies
  obtain ⟨⟨hversion, -⟩, hrow'⟩ := Option.ite_none_right_eq_some.1 hrecord
  cases hrow'
  obtain ⟨hgrant, hindex, hactive⟩ := h.recording_newest hj hstage hversion
  have hk : s.Keeps { s.putRefresh j { refresh with stage := .reloading true } with
      row := { status := .active, version := s.row.version + 1, refreshToken }
      recorded := (j, refresh.refreshToken) :: s.recorded } := by
    refine { ConnectionState.Keeps.refl s with
      version := Nat.le_succ _, row := fun hsame => absurd hsame (Nat.succ_ne_self _), refreshes := fun k _ other hk => ?_ }
    obtain ⟨rfl, rfl⟩ | ⟨-, hold⟩ := Slots.get_put_cases hk
    · exact ⟨refresh, hj, rfl⟩
    · exact ⟨other, hold, rfl⟩
  have hstored : refreshToken.index = s.server.newestOf refreshToken.grant := by rw [hindex, hgrant]
  refine h.next hk { h.books with revoked := ?_, granted := ?_, issued := ?_, newest := ?_, recorded := ?_ }
    (fun k other hk' => ?_) fun _ _ hi => .inl hi
  · intro hrevoked
    have hstatus := h.books.revoked hrevoked
    rw [hactive] at hstatus
    cases hstatus
  · change refreshToken.grant < _
    rw [hgrant]
    exact h.books.granted
  · exact hstored.le
  · exact .inl hstored
  · exact List.cons_subset.2 ⟨hrelies.1, h.books.recorded⟩
  · obtain ⟨rfl, rfl⟩ | ⟨-, hold⟩ := Slots.get_put_cases hk'
    · exact .inr ⟨hstarted, hsaw.mono hk, hrelies.1⟩
    · exact .inl hold

theorem ConnectionState.Sound.advanceRefresh (h : s.Sound) (hj : s.refreshes.get j = some refresh)
    (hok : Exclusive s (.advanceRefresh j succeeds))
    (hstep : s.advanceRefresh j succeeds refresh = some s') : s'.Sound := by
  obtain ⟨-, hsaw, hrelies⟩ := h.refreshes j refresh hj
  obtain ⟨hsends, hrecords⟩ := hok refresh hj
  unfold ConnectionState.advanceRefresh at hstep
  cases hstage : refresh.stage with
  | calling =>
    have hnot : refresh.holds s.row.refreshToken.grant = false := by simp [Refresh.holds, hstage]
    simp only [hstage] at hstep
    split_ifs at hstep with hfails
    · cases hstep
      exact h.putStage hj (fun _ => hnot) trivial
    · obtain ⟨hnewest, hsame⟩ := hsends hstage (by simpa using hfails)
      cases hrefresh : s.server.refresh refresh.refreshToken with
      | none =>
        rw [hrefresh] at hstep
        cases hstep
        -- the newest token is rejected: the grant has ended
        have hended : s.server.accepts refresh.refreshToken.grant = false := by
          by_contra haccepts
          rw [AuthorizationServer.refresh, if_pos ⟨by simpa using haccepts, hnewest⟩] at hrefresh
          cases hrefresh
        exact h.putStage hj (fun _ => hnot) ⟨hsaw.granted, hended, hnewest⟩
      | some pair =>
        rw [hrefresh] at hstep
        cases hstep
        exact h.obtain hj hstage hrefresh (hsame (AuthorizationServer.refresh_cases hrefresh).1)
  | recording refreshToken =>
    simp only [hstage] at hstep hrelies
    split_ifs at hstep with hfails
    · cases hstep
      refine h.putStage hj (fun _ => ?_) trivial
      by_contra hholds
      have hsucceeds := hrecords (by simpa using hholds)
      rw [hfails] at hsucceeds
      cases hsucceeds
    · cases hrecord : s.row.recordConnectionTokenRefresh refresh.version refreshToken with
      | none =>
        rw [hrecord] at hstep
        cases hstep
        refine h.putStage hj (fun hversion => ?_) hrelies.1
        -- at the version of the row it would have recorded its token
        rw [ConnectionRow.recordConnectionTokenRefresh,
          if_pos ⟨hversion.symm, (hsaw.current hversion.symm).2⟩] at hrecord
        cases hrecord
      | some row =>
        rw [hrecord] at hstep
        cases hstep
        exact h.record hj hstage hrecord
  | reloading persisted =>
    have hnot : refresh.holds s.row.refreshToken.grant = false := by simp [Refresh.holds, hstage]
    simp only [hstage] at hstep hrelies
    split_ifs at hstep
    · cases hstep
      exact h.putStage hj (fun _ => hnot) trivial
    · cases hstep
      exact h.putStage hj (fun _ => hnot) trivial
    · cases hstep
      exact h.putStage hj (fun _ => hnot) hrelies
  | settled result =>
    simp only [hstage] at hstep
    cases hstep

/-! ## The steps of a call -/

theorem Refresh.of_isInflight {process : ℕ} (h : refresh.isInflight process version) : refresh.version = version := by
  unfold Refresh.isInflight at h
  split at h
  · cases h
  · exact (of_decide_eq_true h).2

theorem ConnectionState.Sound.start (h : s.Sound) {process : ℕ} (hsaw : s.Saw version refreshToken) :
    ({ s.putRefresh s.started { process, version, refreshToken, stage := .calling } with
        started := s.started + 1 } : ConnectionState).Sound := by
  have hfresh : s.refreshes.get s.started = none := by
    by_contra hsome
    obtain ⟨refresh, hrefresh⟩ := Option.ne_none_iff_exists'.1 hsome
    exact absurd (h.refreshes _ refresh hrefresh).started (Nat.lt_irrefl _)
  have hk : s.Keeps { s.putRefresh s.started { process, version, refreshToken, stage := .calling } with
      started := s.started + 1 } := by
    refine { ConnectionState.Keeps.refl s with started := Nat.le_succ _, refreshes := fun k hlt other hk => ?_ }
    obtain ⟨rfl, -⟩ | ⟨-, hold⟩ := Slots.get_put_cases hk
    · exact absurd hlt (Nat.lt_irrefl _)
    · exact ⟨other, hold, rfl⟩
  refine h.next hk { h.books with newest := h.books.newest.imp id fun hheld => ?_ } (fun k other hk' => ?_)
    fun _ _ hi => .inl hi
  · obtain ⟨k, other, token, hk', hrest⟩ := hheld
    have hne : k ≠ s.started := by
      rintro rfl
      rw [hfresh] at hk'
      cases hk'
    exact ⟨k, other, token, (Slots.get_put_of_ne hne).trans hk', hrest⟩
  · obtain ⟨rfl, rfl⟩ | ⟨-, hold⟩ := Slots.get_put_cases hk'
    · exact .inr ⟨Nat.lt_succ_self _, hsaw.mono hk, trivial⟩
    · exact .inl hold

theorem ConnectionState.Sound.refreshSingleFlight (h : s.Sound) (hsaw : s.Saw version refreshToken) :
    (s.refreshSingleFlight i call version refreshToken).Sound := by
  unfold ConnectionState.refreshSingleFlight
  split
  · rename_i j hfind
    refine h.putCall ⟨List.mem_range.1 (List.mem_of_find?_eq_some hfind), fun refresh hrefresh => ?_⟩
    have hinflight := List.find?_some hfind
    rw [hrefresh] at hinflight
    exact Refresh.of_isInflight hinflight
  · have hstarted : ({ s.putRefresh s.started { process := call.process, version, refreshToken, stage := .calling } with
        started := s.started + 1 } : ConnectionState).Sound := h.start hsaw
    refine hstarted.putCall ⟨Nat.lt_succ_self _, fun refresh hrefresh => ?_⟩
    have hself : (s.refreshes.put s.started { process := call.process, version, refreshToken, stage := .calling }).get
        s.started = some refresh := hrefresh
    rw [Slots.get_put] at hself
    cases hself
    rfl

theorem ConnectionState.Sound.poison (h : s.Sound) {row' : ConnectionRow} (hsaw : s.Saw version refreshToken)
    (hspent : s.Spent refreshToken) (hset : s.row.setConnectionStatus .needsReauth version = some row') :
    ({ s with row := row', reauths := s.server.accepts s.row.refreshToken.grant :: s.reauths } : ConnectionState).Sound := by
  obtain ⟨hversion, hrow'⟩ := Option.ite_none_right_eq_some.1 hset
  cases hrow'
  obtain ⟨hrow, hactive⟩ := hsaw.current hversion
  obtain ⟨-, hended, hnewest⟩ := hspent
  have hk : s.Keeps { s with
      row := { s.row with status := .needsReauth, version := s.row.version + 1 }
      reauths := s.server.accepts s.row.refreshToken.grant :: s.reauths } :=
    { ConnectionState.Keeps.refl s with
      version := Nat.le_succ _, row := fun hsame => absurd hsame (Nat.succ_ne_self _) }
  refine h.next hk { h.books with reauths := ?_, revoked := ?_, newest := .inl ?_ } (fun _ _ hj => .inl hj) fun _ _ hi => .inl hi
  · rintro accepted (_ | ⟨_, haccepted⟩)
    · rw [hrow, hended]
    · exact h.books.reauths accepted haccepted
  · intro hrevoked
    have hstatus := h.books.revoked hrevoked
    rw [hactive] at hstatus
    cases hstatus
  · change s.row.refreshToken.index = s.server.newestOf s.row.refreshToken.grant
    rw [hrow, hnewest]

theorem ConnectionState.Sound.advance {shouldRefresh : Bool} (h : s.Sound)
    (hi : s.calls.get i = some call) (hstep : s.advance i shouldRefresh succeeds call = some s') :
    s'.Sound := by
  have hrelies : call.stage.Relies s := h.calls i call hi
  unfold ConnectionState.advance at hstep
  cases hstage : call.stage with
  | begun =>
    simp only [hstage] at hstep
    split_ifs at hstep with hbroken
    · cases hstep
      exact h.putCall trivial
    · cases hstep
      obtain ⟨-, hactive⟩ := not_or.1 hbroken
      exact h.putCall ⟨le_refl _, fun _ => ⟨rfl, not_not.1 hactive⟩, h.books.granted, h.books.issued⟩
    · cases hstep
      exact h.putCall trivial
  | loaded version refreshToken =>
    simp only [hstage] at hstep hrelies
    cases hstep
    exact h.refreshSingleFlight hrelies
  | awaiting version j =>
    simp only [hstage] at hstep hrelies
    split at hstep
    · cases hstep
      split_ifs
      · exact h.putCall trivial
      · exact h.putCall trivial
    · rename_i process' version' refreshToken hj
      cases hstep
      obtain ⟨-, hsaw, hspent⟩ := h.refreshes j _ hj
      obtain rfl : version' = version := hrelies.2 _ hj
      exact h.putCall ⟨hsaw, hspent⟩
    · rename_i process' version' refreshToken hj
      cases hstep
      exact h.putCall (.inr (h.refreshes j _ hj).relies)
    · cases hstep
      exact h.putCall trivial
    · cases hstep
  | rejected version j refreshToken =>
    simp only [hstage] at hstep hrelies
    split at hstep
    · rename_i row' hset
      cases hstep
      have hpoisoned : ({ s with row := row', reauths := s.server.accepts s.row.refreshToken.grant :: s.reauths } :
          ConnectionState).Sound := h.poison hrelies.1 hrelies.2 hset
      exact hpoisoned.putCall (.inl hrelies.2)
    · cases hstep
      exact h.putCall (.inl hrelies.2)
  | answered answer =>
    simp only [hstage] at hstep
    cases hstep

/-! ## The other steps -/

theorem ConnectionState.Sound.reconnect (h : s.Sound) {status : ConnectionStatus}
    (hstatus : activates = false → status = s.row.status) :
    ({ s with
        row := { status, version := s.row.version + 1, refreshToken := s.server.authorize.2 }
        server := s.server.authorize.1
        isRevoked := s.isRevoked && !activates } : ConnectionState).Sound := by
  have hlater := s.server.later_authorize
  have hself : s.server.authorize.1.newestOf s.server.granted = 0 := by
    simp [AuthorizationServer.authorize, AuthorizationServer.newestOf]
  have hk : s.Keeps { s with
      row := { status, version := s.row.version + 1, refreshToken := s.server.authorize.2 }
      server := s.server.authorize.1
      isRevoked := s.isRevoked && !activates } :=
    { ConnectionState.Keeps.refl s with
      server := hlater, version := Nat.le_succ _, row := fun hsame => absurd hsame (Nat.succ_ne_self _) }
  refine h.next hk { h.books with
    revoked := ?_, granted := Nat.lt_succ_self _, issued := hself.ge, newest := .inl hself.symm, replaced := ?_ }
    (fun _ _ hj => .inl hj) fun _ _ hi => .inl hi
  · intro hrevoked
    obtain ⟨hrevoked, hactivates⟩ := Bool.and_eq_true_iff.1 hrevoked
    exact (hstatus (by simpa using hactivates)).trans (h.books.revoked hrevoked)
  · intro j token hj
    obtain ⟨hgrant, hlt⟩ := h.books.replaced j token hj
    exact ⟨hgrant.trans_le hlater.granted, hlt.trans_le (hlater.newest _ hgrant)⟩

theorem ConnectionState.Sound.revoke (h : s.Sound) (hfree : ∀ e ∈ s.refreshes, e.2.holds s.row.refreshToken.grant = false) :
    ({ s with row := s.row.revokeConnection, isRevoked := true } : ConnectionState).Sound := by
  have hk : s.Keeps { s with row := s.row.revokeConnection, isRevoked := true } :=
    { ConnectionState.Keeps.refl s with
      version := Nat.le_succ _, row := fun hsame => absurd hsame (Nat.succ_ne_self _) }
  refine h.next hk { h.books with revoked := fun _ => rfl, newest := h.books.newest.imp id fun hheld => ?_ }
    (fun _ _ hj => .inl hj) fun _ _ hi => .inl hi
  obtain ⟨j, refresh, token, hj, hstage, -, hgrant, -⟩ := hheld
  have hholds := hfree _ (Slots.mem_of_get hj)
  simp [Refresh.holds, hstage, hgrant] at hholds

theorem ConnectionState.Sound.endGrant (h : s.Sound) (grant : ℕ) :
    ({ s with server := { s.server with ended := grant :: s.server.ended } } : ConnectionState).Sound :=
  h.next { ConnectionState.Keeps.refl s with server := s.server.later_end grant } { h.books with } (fun _ _ hj => .inl hj)
    fun _ _ hi => .inl hi

theorem ConnectionState.Sound.stopRefresh (h : s.Sound) (hok : Exclusive s (.stopRefresh j)) :
    ({ s with refreshes := s.refreshes.drop j } : ConnectionState).Sound := by
  have hk : s.Keeps { s with refreshes := s.refreshes.drop j } :=
    { ConnectionState.Keeps.refl s with refreshes := fun _ _ other hk => ⟨other, Slots.get_of_get_drop hk, rfl⟩ }
  refine h.next hk { h.books with newest := h.books.newest.imp id fun hheld => ?_ }
    (fun _ _ hj => .inl (Slots.get_of_get_drop hj)) fun _ _ hi => .inl hi
  obtain ⟨k, other, token, hk', hstage, hversion, hgrant, hindex⟩ := hheld
  have hne : k ≠ j := by
    rintro rfl
    have hholds := hok other hk'
    simp [Refresh.holds, hstage, hgrant] at hholds
  exact ⟨k, other, token, (Slots.get_drop_of_ne hne).trans hk', hstage, hversion, hgrant, hindex⟩

theorem ConnectionState.Sound.update (h : s.Sound) {expectedVersion : Option ℕ} {credential : Bool}
    (hstep : s.step (.updateConnection expectedVersion credential activates) = some s') :
    s'.Sound := by
  simp only [ConnectionState.step] at hstep
  split_ifs at hstep with hroute hcredential
  · obtain ⟨row', hupdate, rfl⟩ := Option.map_eq_some_iff.1 hstep
    obtain ⟨-, hrow'⟩ := Option.ite_none_right_eq_some.1 hupdate
    cases hrow'
    refine h.reconnect fun hkeeps => ?_
    rw [hkeeps]
    rfl
  · obtain ⟨row', hupdate, rfl⟩ := Option.map_eq_some_iff.1 hstep
    obtain ⟨-, hrow'⟩ := Option.ite_none_right_eq_some.1 hupdate
    cases hrow'
    exact h

/-- **The step lemma.** -/
theorem ConnectionState.Sound.step {e : ConnectionEvent} (hstep : connectionSteps s e s') (h : s.Sound)
    (hok : Exclusive s e) : s'.Sound := by
  cases e with
  | resolve i process =>
    simp only [connectionSteps, ConnectionState.step] at hstep
    split at hstep
    · cases hstep
      exact h.putCall trivial
    · cases hstep
  | advance i shouldRefresh succeeds =>
    obtain ⟨call, hi, hadvance⟩ := Option.bind_eq_some_iff.1 hstep
    exact h.advance hi hadvance
  | advanceRefresh j succeeds =>
    obtain ⟨refresh, hj, hadvance⟩ := Option.bind_eq_some_iff.1 hstep
    exact h.advanceRefresh hj hok hadvance
  | stop i =>
    cases hstep
    exact h.next { ConnectionState.Keeps.refl s with } { h.books with } (fun _ _ hj => .inl hj)
      fun _ _ hi => .inl (Slots.get_of_get_drop hi)
  | stopRefresh j =>
    cases hstep
    exact h.stopRefresh hok
  | updateConnection expectedVersion credential activates => exact h.update hstep
  | revokeConnection =>
    cases hstep
    exact h.revoke hok
  | endGrant grant =>
    cases hstep
    exact h.endGrant grant

theorem ConnectionState.Sound.connected : ConnectionState.connected.Sound where
  books :=
    { reauths := List.forall_mem_nil _, revoked := fun h => absurd h Bool.false_ne_true, granted := Nat.one_pos
      issued := le_refl _, newest := .inl rfl, once := fun _ _ _ h => absurd h List.not_mem_nil
      replaced := fun _ _ h => absurd h List.not_mem_nil, recorded := List.Subset.refl _ }
  refreshes j refresh hj := by cases hj
  calls i call hi := by cases hi

theorem ConnectionState.Sound.healthy (h : s.Sound) : s.Healthy where
  reauths := h.books.reauths
  stored hidle := by
    obtain hstored | ⟨j, refresh, token, hj, hstage, -⟩ := h.books.newest
    · exact hstored
    · have hinFlight := hidle j refresh hj
      simp [Refresh.isInFlight, hstage] at hinFlight
  revoked := h.books.revoked
  answers i call j token hi hstage j' hrecorded := by
    have hobtained := h.books.recorded hrecorded
    have hrelies := h.calls i call hi
    rw [hstage] at hrelies
    obtain ⟨-, -, hnewest⟩ | hown := hrelies
    · -- a token that is still the newest was not given for another
      have hlt := (h.books.replaced j' token hobtained).2
      omega
    · exact h.books.once j' j token hobtained hown

/-- **Refreshes that do not overlap keep the connection healthy**: in any order of calls in any number of
processes, updates and revocations, with the server ending grants and calls failing. -/
theorem exclusive_refreshes_keep_connection {es : List ConnectionEvent}
    (hrun : Run (Restrict connectionSteps Exclusive) .connected es s) : s.Healthy :=
  (hrun.invariant (fun _ _ _ hstep h => h.step hstep.1 hstep.2) ConnectionState.Sound.connected).healthy

/-! ## Two processes -/

/-- A call in a process of its own, up to the request to the server. -/
def callsServer (i : ℕ) : List ConnectionEvent := [.resolve i i, .advance i true true]

def requests (i : ℕ) : List ConnectionEvent := [.advance i true true, .advanceRefresh i true]

/-- The rest of a refresh that was given a token, and of its call. -/
def records (i : ℕ) : List ConnectionEvent := [.advanceRefresh i true, .advanceRefresh i true, .advance i true true]

def poisons (i : ℕ) : List ConnectionEvent := [.advance i true true, .advance i true true]

/-- One call refreshes, then another in the other process; then a revocation. -/
theorem exclusive_refreshes_keep_connection_twice : ∃ s, Run (Restrict connectionSteps Exclusive) .connected
        (callsServer 0 ++ requests 0 ++ records 0 ++ callsServer 1 ++ requests 1 ++ records 1 ++ [.revokeConnection]) s ∧
      s.row.refreshToken.index = 2 ∧ s.Healthy := by
  obtain ⟨s, hplay, hindex⟩ : ∃ s, play (guarded ConnectionState.step Exclusive) .connected
        (callsServer 0 ++ requests 0 ++ records 0 ++ callsServer 1 ++ requests 1 ++ records 1 ++ [.revokeConnection]) =
          some s ∧ s.row.refreshToken.index = 2 := by
    decide +kernel
  have hrun := guarded_run hplay
  exact ⟨s, hrun, hindex, exclusive_refreshes_keep_connection hrun⟩

/-- Two processes have read the same version. The refresh of the second is rejected: it moves the connection to
`needs_reauth`, and the new token of the first is lost; or it comes after the record, and answers `auth_needed` for
a connection that is active. -/
theorem overlapping_refreshes_break_connection : (∃ s, Run connectionSteps .connected
        (callsServer 0 ++ callsServer 1 ++ requests 0 ++ requests 1 ++ poisons 1 ++ records 0) s ∧
        s.row.status = .needsReauth ∧ s.row.refreshToken.index = 0 ∧ s.server.newestOf 0 = 1 ∧ ¬ s.Healthy) ∧
      ∃ s, Run connectionSteps .connected
        (callsServer 0 ++ callsServer 1 ++ requests 0 ++ requests 1 ++ records 0 ++ poisons 1) s ∧
        s.row.status = .active ∧ s.row.refreshToken.index = s.server.newestOf 0 ∧ ¬ s.Healthy := by
  constructor
  · obtain ⟨s, hplay, hstatus, hindex, hnewest, hreauths⟩ : ∃ s, play ConnectionState.step .connected
        (callsServer 0 ++ callsServer 1 ++ requests 0 ++ requests 1 ++ poisons 1 ++ records 0) = some s ∧
        s.row.status = .needsReauth ∧ s.row.refreshToken.index = 0 ∧ s.server.newestOf 0 = 1 ∧ s.reauths = [true] := by
      decide +kernel
    refine ⟨s, run_of_play hplay, hstatus, hindex, hnewest, fun hhealthy => ?_⟩
    exact Bool.noConfusion (hhealthy.reauths true (by rw [hreauths]; exact List.mem_cons_self))
  · obtain ⟨s, hplay, hstatus, hindex, hrecorded, hanswer⟩ : ∃ s, play ConnectionState.step .connected
        (callsServer 0 ++ callsServer 1 ++ requests 0 ++ requests 1 ++ records 0 ++ poisons 1) = some s ∧
        s.row.status = .active ∧ s.row.refreshToken.index = s.server.newestOf 0 ∧ (0, ⟨0, 0⟩) ∈ s.recorded ∧
          (s.calls.get 1).map (·.stage) = some (.answered (.refreshFailed 1 ⟨0, 0⟩)) := by
      decide +kernel
    refine ⟨s, run_of_play hplay, hstatus, hindex, fun hhealthy => ?_⟩
    obtain ⟨call, hcall, hstage⟩ := Option.map_eq_some_iff.1 hanswer
    have hsame : (0 : ℕ) = 1 := hhealthy.answers 1 call 1 ⟨0, 0⟩ hcall hstage 0 hrecorded
    omega

end OpenGeni.Connections
