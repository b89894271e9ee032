/-
The backends of a session (`sandbox/routing/backend-resolver.ts`) and the errors that the
routing proxy takes for a fence (`isFenceError` of `sandbox/routing/routing-session.ts`).

A pointer names the session's own box (no sandbox id) or a first-class sandbox. The
resolver makes a live backend session of it: the turn's established session, the pinned
machine session, or a session built for the machine that the sandbox row names, fenced
under the pointer's epoch. A session is modelled by what it was built from, with the
methods that it has.
-/
import Mathlib

namespace OpenGeni.Runtime

/-! ## Pointers, sessions and rows -/

/-- `ActivePointer`. No `activeSandboxId` is the session's own group sandbox. -/
structure ActivePointer where
  activeSandboxId : Option ℕ
  activeEpoch : ℕ
  workingDir : Option String
  deriving DecidableEq, Repr

def ActivePointer.pair (p : ActivePointer) : ℕ × Option ℕ := (p.activeEpoch, p.activeSandboxId)

/-- The methods of `RoutableBackendSession` that a session may have. -/
inductive Method
  | exec | execCommand | writeStdin | readFile | writeFile | createEditor | listDir | pathExists | viewImage
  | materializeEntry | resolveExposedPort | serializeSessionState | desktopInput | screenshot
  deriving DecidableEq, Repr

inductive BackendBox
  | established
  | unprovisioned
  | machine (agentId : ℕ) (epoch : ℕ) (workingDir : Option String)
  | sibling (sandboxId : ℕ)
  deriving DecidableEq, Repr

structure RoutableBackendSession where
  box : BackendBox
  methods : List Method
  deriving DecidableEq, Repr

structure ResolvedActiveBackend where
  session : RoutableBackendSession
  sandboxId : Option ℕ
  kind : List Char
  deriving DecidableEq, Repr

/-- `RoutableSandbox`: the row of a first-class sandbox. -/
structure RoutableSandbox where
  id : ℕ
  kind : List Char
  enrollmentId : Option ℕ
  deriving DecidableEq, Repr

def getSandbox (sandboxes : List RoutableSandbox) (sandboxId : ℕ) : Option RoutableSandbox :=
  sandboxes.find? fun row => row.id == sandboxId

/-! ## `makeActiveBackendResolver` -/

/-- `BackendUnresolvableCode`, as far as the resolver throws it. -/
inductive BackendUnresolvableCode
  | stalePointer
  | offlineEnrollment
  | unsupportedBackendContext
  | homeUnavailableThisTurn
  deriving DecidableEq, Repr

/-- The methods of a `SelfhostedSession`. -/
def selfhostedMethods : List Method :=
  [.exec, .execCommand, .readFile, .writeFile, .createEditor, .listDir, .pathExists, .viewImage, .materializeEntry,
    .resolveExposedPort, .serializeSessionState, .desktopInput, .screenshot]

/-- `buildSelfhostedBackendSession`: a session for the machine, fenced under the epoch. -/
def buildSelfhostedBackendSession (agentId epoch : ℕ) (workingDir : Option String) : RoutableBackendSession :=
  { box := .machine agentId epoch workingDir, methods := selfhostedMethods }

/-- `pinnedSelfhosted`. -/
structure PinnedSelfhosted where
  sandboxId : ℕ
  epoch : ℕ
  session : RoutableBackendSession

structure ActiveBackendResolverDeps where
  defaultBackend : RoutableBackendSession
  defaultKind : List Char
  establishModalTarget : Option (RoutableSandbox → RoutableBackendSession)
  pinnedSelfhosted : Option PinnedSelfhosted
  defaultIsHome : Bool

def ActiveBackendResolverDeps.pinned (deps : ActiveBackendResolverDeps) (sandboxId epoch : ℕ) :
    Option RoutableBackendSession :=
  (deps.pinnedSelfhosted.filter fun pin => pin.sandboxId == sandboxId && pin.epoch == epoch).map (·.session)

def selfhostedKind : List Char := "selfhosted".toList

def modalKind : List Char := "modal".toList

def resolveRow (deps : ActiveBackendResolverDeps) (pointer : ActivePointer) (row : RoutableSandbox) :
    Except BackendUnresolvableCode ResolvedActiveBackend :=
  if row.kind = selfhostedKind then
    match row.enrollmentId with
    | none => .error .offlineEnrollment
    | some agentId => .ok
      { session := buildSelfhostedBackendSession agentId pointer.activeEpoch pointer.workingDir
        sandboxId := some row.id, kind := selfhostedKind }
  else if row.kind = modalKind then
    match deps.establishModalTarget with
    | none => .error .unsupportedBackendContext
    | some establish => .ok
      { session := establish row, sandboxId := some row.id, kind := modalKind }
  else .error .unsupportedBackendContext

def makeActiveBackendResolver (deps : ActiveBackendResolverDeps) (sandboxes : List RoutableSandbox)
    (pointer : ActivePointer) : Except BackendUnresolvableCode ResolvedActiveBackend :=
  match pointer.activeSandboxId with
  | none =>
    if deps.defaultIsHome then .ok
      { session := deps.defaultBackend, sandboxId := none, kind := deps.defaultKind }
    else .error .homeUnavailableThisTurn
  | some sandboxId =>
    match deps.pinned sandboxId pointer.activeEpoch with
    | some session => .ok
      { session := session, sandboxId := some sandboxId, kind := selfhostedKind }
    | none =>
      match getSandbox sandboxes sandboxId with
      | none => .error .stalePointer
      | some row => resolveRow deps pointer row

/-! ## `isFenceError` -/

/-- A thrown value: its `fenced` property is `true`, its `name` and its message as text. -/
inductive JsError
  | primitive
  | object (fenced : Bool) (name message : List Char)
  deriving DecidableEq, Repr

/-- `haystack.toLowerCase()`. Only ASCII letters have a lower case among the letters that
`isFenceError` looks for. -/
def toLowerCase (text : List Char) : List Char := text.map Char.toLower

def includes (text needle : List Char) : Bool := decide (needle <:+: text)

/-- The text that `isFenceError` falls back to. -/
def saysFenced (haystack : List Char) : Bool :=
  includes haystack "fenced".toList || (includes haystack "epoch".toList && includes haystack "super".toList)

def isFenceError : JsError → Bool
  | .primitive => false
  | .object fenced name message => fenced || saysFenced (toLowerCase (name ++ ' ' :: message))

end OpenGeni.Runtime
