/-
The routing proxy (`sandbox/routing/routing-session.ts`): one stable session object whose
operations re-read the active pointer, resolve the backend, and run on it.

Operations run concurrently. Each is a task of its own that passes through the awaits of
`dispatch` and `resolve`; between two of them any other task takes its steps and any swap
or cascade delete moves the pointer. The cache belongs to the proxy and is shared. Editors
are objects of their own, bound to a backend or routed like the other operations.

The state keeps, for the specification, which pointers an operation has seen since it was
started, which pointers and sandbox rows there have been, and each use of the cache.
-/
import OpenGeni.Lib.Run
import OpenGeni.Runtime.BackendResolver

namespace OpenGeni.Runtime

open OpenGeni.Lib

/-! ## Operations -/

inductive EditorOp
  | createFile | updateFile | deleteFile
  deriving DecidableEq, Repr

inductive SessionOp
  | exec | execCommand | writeStdin | readFile | writeFile | listDir | pathExists | viewImage | materializeEntry
  | resolveExposedPort | serializeSessionState | desktopInput | screenshot
  | editor (name : EditorOp)
  deriving DecidableEq, Repr

def SessionOp.text : SessionOp → List Char
  | .exec => "exec".toList
  | .execCommand => "execCommand".toList
  | .writeStdin => "writeStdin".toList
  | .readFile => "readFile".toList
  | .writeFile => "writeFile".toList
  | .listDir => "listDir".toList
  | .pathExists => "pathExists".toList
  | .viewImage => "viewImage".toList
  | .materializeEntry => "materializeEntry".toList
  | .resolveExposedPort => "resolveExposedPort".toList
  | .serializeSessionState => "serializeSessionState".toList
  | .desktopInput => "desktopInput".toList
  | .screenshot => "screenshot".toList
  | .editor .createFile => "editor.createFile".toList
  | .editor .updateFile => "editor.updateFile".toList
  | .editor .deleteFile => "editor.deleteFile".toList

def SessionOp.method : SessionOp → Method
  | .exec => .exec
  | .execCommand => .execCommand
  | .writeStdin => .writeStdin
  | .readFile => .readFile
  | .writeFile => .writeFile
  | .listDir => .listDir
  | .pathExists => .pathExists
  | .viewImage => .viewImage
  | .materializeEntry => .materializeEntry
  | .resolveExposedPort => .resolveExposedPort
  | .serializeSessionState => .serializeSessionState
  | .desktopInput => .desktopInput
  | .screenshot => .screenshot
  | .editor _ => .createEditor

def SessionOp.fallback : SessionOp → Option Method
  | .exec => some .execCommand
  | .execCommand => some .exec
  | _ => none

/-- What the callback of `dispatch` does on a session. -/
inductive Invocation
  | runs (method : Method)
  | nothing
  | unsupported
  deriving DecidableEq, Repr

def SessionOp.invocation (op : SessionOp) (session : RoutableBackendSession) : Invocation :=
  if session.methods.contains op.method then .runs op.method
  else match op.fallback.filter fun method => session.methods.contains method with
    | some method => .runs method
    | none => if op = .serializeSessionState then .nothing else .unsupported

/-- `RoutingUnsupportedError`. -/
def routingUnsupportedError (op : SessionOp) (kind : List Char) : JsError :=
  .object false "RoutingUnsupportedError".toList
    ("the active sandbox (".toList ++ kind ++ ") does not support \"".toList ++ op.text ++ "\"".toList)

/-! ## State -/

/-- A resolved backend. The pair that it was resolved for is kept for the specification. -/
structure Resolution where
  backend : ResolvedActiveBackend
  pair : ℕ × Option ℕ
  deriving DecidableEq, Repr

/-- How a backend answers. Whether it refused the operation for its epoch is the backend's
own knowledge: the proxy sees the error. -/
inductive Outcome
  | returned
  | staleEpoch (error : JsError)
  | failed (error : JsError)
  deriving DecidableEq, Repr

/-- An operation run on a backend, with the pointers that it had seen by then. -/
structure Execution where
  session : RoutableBackendSession
  seen : List ActivePointer
  outcome : Option Outcome
  deriving DecidableEq, Repr

/-- Where in `dispatch` an operation is. -/
inductive Phase
  | readingPointer
  | pointerRead (pointer : ActivePointer)
  | resolving (pointer : ActivePointer)
  | built (pointer : ActivePointer) (resolved : ResolvedActiveBackend)
  | resolved (resolution : Resolution)
  | running
  | settled
  deriving DecidableEq, Repr

/-- An operation. `dispatched` tells the proxy's own from those of a bound editor.
`executions` has the latest first. -/
structure Op where
  call : SessionOp
  dispatched : Bool
  seen : List ActivePointer
  attempt : ℕ
  executions : List Execution
  phase : Phase
  deriving DecidableEq, Repr

/-- What `createEditor` hands out. -/
inductive Editor
  | bound (session : RoutableBackendSession)
  | routed
  deriving DecidableEq, Repr

structure CacheUse where
  read : ℕ × Option ℕ
  resolution : Resolution
  deriving DecidableEq, Repr

/-- The row of the session and the sandbox rows. `pointers` and `tables` are the values that
these two have had. -/
structure SessionRows where
  pointer : ActivePointer
  pointers : List ActivePointer
  sandboxes : List RoutableSandbox
  tables : List (List RoutableSandbox)

structure Routing where
  rows : SessionRows
  cachedEpoch : Option ℕ
  cachedSandboxId : Option (Option ℕ)
  cached : Option Resolution
  lastResolved : Option Resolution
  editors : List Editor
  ops : List Op
  uses : List CacheUse

structure RoutingSandboxSessionDeps where
  defaultResolved : Option ResolvedActiveBackend
  resolveActiveBackend : List RoutableSandbox → ActivePointer → Except BackendUnresolvableCode ResolvedActiveBackend
  maxFenceRetries : ℕ

def constructed (pointer : ActivePointer) (sandboxes : List RoutableSandbox) : Routing :=
  { rows :=
      { pointer := pointer, pointers := [pointer], sandboxes := sandboxes, tables := [sandboxes] }
    cachedEpoch := none
    cachedSandboxId := none
    cached := none
    lastResolved := none
    editors := []
    ops := []
    uses := [] }

/-! ## Steps -/

inductive OpEvent
  | readPointer
  | readFailed
  | checkCache
  | buildBackend
  | buildFailed
  | keepBackend
  | run
  | answer (outcome : Outcome)
  deriving DecidableEq, Repr

inductive RoutingEvent
  | swap (expectedEpoch : ℕ) (target : Option ℕ) (workingDir : Option (Option String))
  | deleteSandbox (sandboxId : ℕ)
  | putSandbox (row : RoutableSandbox)
  | call (op : SessionOp)
  | createEditor
  | edit (editor : ℕ) (name : EditorOp)
  | op (index : ℕ) (event : OpEvent)
  deriving DecidableEq, Repr

namespace Routing

/-- The pointer moves; every operation under way has then seen it. -/
def setPointer (s : Routing) (pointer : ActivePointer) : Routing := { s with
    rows := { s.rows with pointer := pointer, pointers := pointer :: s.rows.pointers }
    ops := s.ops.map fun o => { o with seen := pointer :: o.seen } }

/-- `setActiveSandbox`. -/
def swap (s : Routing) (expectedEpoch : ℕ) (target : Option ℕ) (workingDir : Option (Option String)) : Routing :=
  if s.rows.pointer.activeEpoch = expectedEpoch then
    s.setPointer
      { activeSandboxId := target, activeEpoch := s.rows.pointer.activeEpoch + 1
        workingDir := workingDir.getD s.rows.pointer.workingDir }
  else s

def setSandboxes (s : Routing) (sandboxes : List RoutableSandbox) : Routing :=
  { s with rows := { s.rows with sandboxes := sandboxes, tables := sandboxes :: s.rows.tables } }

/-- A row is deleted. A pointer at it is nulled at the same epoch. -/
def deleteSandbox (s : Routing) (sandboxId : ℕ) : Routing :=
  let deleted := s.setSandboxes (s.rows.sandboxes.filter fun row => row.id != sandboxId)
  if s.rows.pointer.activeSandboxId = some sandboxId then
    deleted.setPointer { s.rows.pointer with activeSandboxId := none }
  else deleted

def putSandbox (s : Routing) (row : RoutableSandbox) : Routing :=
  s.setSandboxes (row :: s.rows.sandboxes.filter fun other => other.id != row.id)

def setOp (s : Routing) (i : ℕ) (o : Op) : Routing := { s with ops := s.ops.set i o }

def addOp (s : Routing) (o : Op) : Routing := { s with ops := s.ops ++ [o] }

/-- Whether the proxy has the operation: the native desktop ones only over a backend that
had them at construction. -/
def exposes (deps : RoutingSandboxSessionDeps) (op : SessionOp) : Bool :=
  if op = .desktopInput ∨ op = .screenshot then
    deps.defaultResolved.any fun resolved =>
      resolved.session.methods.contains .desktopInput && resolved.session.methods.contains .screenshot
  else true

/-- An operation enters `dispatch`. -/
def dispatch (s : Routing) (op : SessionOp) : Routing :=
  s.addOp
    { call := op, dispatched := true, seen := [s.rows.pointer], attempt := 0, executions := []
      phase := .readingPointer }

/-- The backend whose editor `createEditor` asks for. -/
def lastBackend (deps : RoutingSandboxSessionDeps) (s : Routing) : Option ResolvedActiveBackend :=
  (s.lastResolved.map (·.backend)).or deps.defaultResolved

def createEditor (deps : RoutingSandboxSessionDeps) (s : Routing) : Editor :=
  match (s.lastBackend deps).filter fun backend => backend.session.methods.contains .createEditor with
  | some backend => .bound backend.session
  | none => .routed

def runBound (s : Routing) (session : RoutableBackendSession) (name : EditorOp) : Routing :=
  s.addOp
    { call := .editor name, dispatched := false, seen := [s.rows.pointer], attempt := 0
      executions := [{ session := session, seen := [s.rows.pointer], outcome := none }], phase := .running }

/-- `catch` of `dispatch`. -/
def caught (deps : RoutingSandboxSessionDeps) (s : Routing) (i : ℕ) (o : Op) (error : JsError) : Routing :=
  if isFenceError error then
    { s with
      cachedEpoch := none
      cachedSandboxId := none
      cached := none
      ops := s.ops.set i { o with
          attempt := o.attempt + 1
          phase := if o.attempt + 1 ≤ deps.maxFenceRetries then .readingPointer else .settled } }
  else s.setOp i { o with phase := .settled }

/-- `resolve` after its first await. -/
def checkCache (s : Routing) (i : ℕ) (o : Op) (pointer : ActivePointer) : Routing := match s.cached.filter fun _ =>
      s.cachedEpoch == some pointer.activeEpoch && s.cachedSandboxId == some pointer.activeSandboxId with
  | some resolution =>
    { s.setOp i { o with phase := .resolved resolution } with
      uses := { read := pointer.pair, resolution := resolution } :: s.uses }
  | none => s.setOp i { o with phase := .resolving pointer }

def buildBackend (deps : RoutingSandboxSessionDeps) (s : Routing) (i : ℕ) (o : Op) (pointer : ActivePointer) :
    Routing :=
  match deps.resolveActiveBackend s.rows.sandboxes pointer with
  | .ok resolved => s.setOp i { o with phase := .built pointer resolved }
  | .error _ => s.setOp i { o with phase := .settled }

/-- `resolve` after its second await. -/
def keepBackend (s : Routing) (i : ℕ) (o : Op) (pointer : ActivePointer) (resolved : ResolvedActiveBackend) :
    Routing :=
  let resolution : Resolution := { backend := resolved, pair := pointer.pair }
  { s.setOp i { o with phase := .resolved resolution } with
    cachedEpoch := some pointer.activeEpoch
    cachedSandboxId := some pointer.activeSandboxId
    cached := some resolution
    lastResolved := some resolution }

/-- `fn(backend.session)`. -/
def run (deps : RoutingSandboxSessionDeps) (s : Routing) (i : ℕ) (o : Op) (resolution : Resolution) : Routing :=
  match o.call.invocation resolution.backend.session with
  | .runs _ => s.setOp i
      { o with
        executions := { session := resolution.backend.session, seen := o.seen, outcome := none } :: o.executions
        phase := .running }
  | .nothing => s.setOp i { o with phase := .settled }
  | .unsupported =>
    let kind := (s.cached.map (·.backend.kind)).getD "unknown".toList
    s.caught deps i o (routingUnsupportedError o.call kind)

end Routing

def Op.answered (o : Op) (outcome : Outcome) : Op := { o with
    executions := match o.executions with
      | [] => []
      | latest :: earlier => { latest with outcome := some outcome } :: earlier }

namespace Routing

/-- A backend's answer. A bound editor passes it on; `dispatch` looks at the error. -/
def answer (deps : RoutingSandboxSessionDeps) (s : Routing) (i : ℕ) (o : Op) (outcome : Outcome) : Routing :=
  match outcome, o.dispatched with
  | .staleEpoch error, true => s.caught deps i (o.answered outcome) error
  | .failed error, true => s.caught deps i (o.answered outcome) error
  | _, _ => s.setOp i { o.answered outcome with phase := .settled }

/-- The step of an operation under way; none where the event is not for its phase. -/
def opStep (deps : RoutingSandboxSessionDeps) (s : Routing) (i : ℕ) (o : Op) : OpEvent → Phase → Option Routing
  | .readPointer, .readingPointer => some (s.setOp i { o with phase := .pointerRead s.rows.pointer })
  | .readFailed, .readingPointer => some (s.setOp i { o with phase := .settled })
  | .checkCache, .pointerRead pointer => some (s.checkCache i o pointer)
  | .buildBackend, .resolving pointer => some (s.buildBackend deps i o pointer)
  | .buildFailed, .resolving _ => some (s.setOp i { o with phase := .settled })
  | .keepBackend, .built pointer resolved => some (s.keepBackend i o pointer resolved)
  | .run, .resolved resolution => some (s.run deps i o resolution)
  | .answer outcome, .running => some (s.answer deps i o outcome)
  | _, _ => none

def edit (s : Routing) (name : EditorOp) : Editor → Routing
  | .bound session => s.runBound session name
  | .routed => s.dispatch (.editor name)

def step (deps : RoutingSandboxSessionDeps) (s : Routing) : RoutingEvent → Option Routing
  | .swap expectedEpoch target workingDir => some (s.swap expectedEpoch target workingDir)
  | .deleteSandbox sandboxId => some (s.deleteSandbox sandboxId)
  | .putSandbox row => some (s.putSandbox row)
  | .call op => if exposes deps op then some (s.dispatch op) else none
  | .createEditor => some { s with editors := s.editors ++ [s.createEditor deps] }
  | .edit k name => s.editors[k]?.map (s.edit name)
  | .op i event => s.ops[i]?.bind fun o => s.opStep deps i o event o.phase

end Routing

/-! ## The proxies of a turn and of a channel -/

/-- `wrapTurnBoxWithRouting`: the proxy over the turn's established box. A machine turn pins it
for its pointer. -/
def wrapTurnBoxWithRouting (established : RoutableBackendSession) (backendId : List Char)
    (pinnedSelfhosted : Option (ℕ × ℕ)) (defaultIsHome : Bool) : RoutingSandboxSessionDeps :=
  { defaultResolved := some { session := established, sandboxId := none, kind := backendId }
    resolveActiveBackend := makeActiveBackendResolver
      { defaultBackend := established, defaultKind := backendId, establishModalTarget := none
        pinnedSelfhosted := pinnedSelfhosted.map fun pin =>
          { sandboxId := pin.1, epoch := pin.2, session := established }
        defaultIsHome := defaultIsHome }
    maxFenceRetries := 3 }

/-- `wrapLazyTurnBoxWithRouting`: the home box is provisioned when it is first resolved. -/
def wrapLazyTurnBoxWithRouting (provisioned : RoutableBackendSession) (backendId : List Char)
    (routingEnabled : Bool) : RoutingSandboxSessionDeps :=
  let synthetic : RoutableBackendSession := { box := .unprovisioned, methods := [] }
  { defaultResolved := some { session := synthetic, sandboxId := none, kind := "unprovisioned".toList }
    resolveActiveBackend := fun sandboxes pointer =>
      if pointer.activeSandboxId = none ∨ routingEnabled = false then
        .ok { session := provisioned, sandboxId := none, kind := backendId }
      else makeActiveBackendResolver
        { defaultBackend := synthetic, defaultKind := "unprovisioned".toList, establishModalTarget := none
          pinnedSelfhosted := none, defaultIsHome := true } sandboxes pointer
    maxFenceRetries := 3 }

/-- `wrapChannelABoxWithRouting`: no default is seeded. -/
def wrapChannelABoxWithRouting (established : RoutableBackendSession) (backendId : List Char) :
    RoutingSandboxSessionDeps :=
  { wrapTurnBoxWithRouting established backendId none true with defaultResolved := none }

/-! ## What the proxy should do -/

def SessionRows.Served (deps : RoutingSandboxSessionDeps) (rows : SessionRows) (pair : ℕ × Option ℕ)
    (session : RoutableBackendSession) : Prop :=
  ∃ sandboxes ∈ rows.tables, ∃ pointer ∈ rows.pointers, pointer.pair = pair ∧
    ∃ resolved ∈ (deps.resolveActiveBackend sandboxes pointer).toOption, resolved.session = session

instance (deps : RoutingSandboxSessionDeps) (rows : SessionRows) (pair : ℕ × Option ℕ)
    (session : RoutableBackendSession) : Decidable (rows.Served deps pair session) :=
  inferInstanceAs (Decidable (∃ sandboxes ∈ rows.tables, ∃ pointer ∈ rows.pointers, pointer.pair = pair ∧
    ∃ resolved ∈ (deps.resolveActiveBackend sandboxes pointer).toOption, resolved.session = session))

def Execution.Refused (e : Execution) : Prop := ∃ error, e.outcome = some (.staleEpoch error)

namespace Routing

/-- **Every operation runs where the session points.** An execution's backend serves a pointer
that the operation has seen; each but the latest execution was refused for its epoch; a cached
backend was used for the pair that it was resolved for. -/
structure Routed (deps : RoutingSandboxSessionDeps) (s : Routing) : Prop where
  executions : ∀ o ∈ s.ops, ∀ e ∈ o.executions, ∃ pointer ∈ e.seen, s.rows.Served deps pointer.pair e.session
  repeated : ∀ o ∈ s.ops, ∀ e ∈ o.executions.tail, e.Refused
  uses : ∀ use ∈ s.uses, use.read = use.resolution.pair

/-- A failure that is not a fence sends the operation round again. -/
def Misread (deps : RoutingSandboxSessionDeps) (o : Op) : Outcome → Prop
  | .failed error => o.dispatched = true ∧ isFenceError error = true ∧ o.attempt + 1 ≤ deps.maxFenceRetries
  | _ => False

/-- The editor is routed, or its backend serves the current pointer. -/
def CurrentEditor (deps : RoutingSandboxSessionDeps) (rows : SessionRows) : Editor → Prop
  | .bound session => rows.Served deps rows.pointer.pair session
  | .routed => True

/-- The condition on a step: an editor that is bound to a backend is used only where that
backend serves the current pointer, and no failure of a backend is taken for a fence. -/
def OnPointer (deps : RoutingSandboxSessionDeps) (s : Routing) : RoutingEvent → Prop
  | .edit k _ => ∀ editor ∈ s.editors[k]?, CurrentEditor deps s.rows editor
  | .op i (.answer outcome) => ∀ o ∈ s.ops[i]?, ¬ Misread deps o outcome
  | _ => True

end Routing

namespace Routing

instance (deps : RoutingSandboxSessionDeps) (o : Op) (outcome : Outcome) : Decidable (Misread deps o outcome) :=
  match outcome with
  | .returned => isFalse id
  | .staleEpoch _ => isFalse id
  | .failed error => inferInstanceAs
      (Decidable (o.dispatched = true ∧ isFenceError error = true ∧ o.attempt + 1 ≤ deps.maxFenceRetries))

instance (deps : RoutingSandboxSessionDeps) (rows : SessionRows) (editor : Editor) :
    Decidable (CurrentEditor deps rows editor) :=
  match editor with
  | .bound session => inferInstanceAs (Decidable (rows.Served deps rows.pointer.pair session))
  | .routed => isTrue trivial

instance (deps : RoutingSandboxSessionDeps) (s : Routing) (event : RoutingEvent) :
    Decidable (s.OnPointer deps event) :=
  match event with
  | .edit k _ => inferInstanceAs (Decidable (∀ editor ∈ s.editors[k]?, CurrentEditor deps s.rows editor))
  | .op i (.answer outcome) => inferInstanceAs (Decidable (∀ o ∈ s.ops[i]?, ¬ Misread deps o outcome))
  | .op _ .readPointer | .op _ .readFailed | .op _ .checkCache | .op _ .buildBackend | .op _ .buildFailed
  | .op _ .keepBackend | .op _ .run => isTrue trivial
  | .swap _ _ _ | .deleteSandbox _ | .putSandbox _ | .call _ | .createEditor => isTrue trivial

end Routing

/-! ## The invariant -/

def Phase.Sound (deps : RoutingSandboxSessionDeps) (rows : SessionRows) (seen : List ActivePointer)
    (executions : List Execution) : Phase → Prop
  | .readingPointer => ∀ e ∈ executions, e.Refused
  | .pointerRead pointer => pointer ∈ seen ∧ ∀ e ∈ executions, e.Refused
  | .resolving pointer => pointer ∈ seen ∧ ∀ e ∈ executions, e.Refused
  | .built pointer backend =>
    (pointer ∈ seen ∧ rows.Served deps pointer.pair backend.session) ∧ ∀ e ∈ executions, e.Refused
  | .resolved resolution =>
    ((∃ pointer ∈ seen, pointer.pair = resolution.pair) ∧
      rows.Served deps resolution.pair resolution.backend.session) ∧ ∀ e ∈ executions, e.Refused
  | .running => ∀ e ∈ executions.tail, e.Refused
  | .settled => ∀ e ∈ executions.tail, e.Refused

structure Op.Sound (deps : RoutingSandboxSessionDeps) (rows : SessionRows) (o : Op) : Prop where
  current : rows.pointer ∈ o.seen
  known : o.seen ⊆ rows.pointers
  executions : ∀ e ∈ o.executions, ∃ pointer ∈ e.seen, rows.Served deps pointer.pair e.session
  phase : o.phase.Sound deps rows o.seen o.executions

namespace Routing

structure Sound (deps : RoutingSandboxSessionDeps) (s : Routing) : Prop where
  sandboxes : s.rows.sandboxes ∈ s.rows.tables
  pointer : s.rows.pointer ∈ s.rows.pointers
  cached : ∀ resolution ∈ s.cached, s.cachedEpoch = some resolution.pair.1 ∧
    s.cachedSandboxId = some resolution.pair.2 ∧ s.rows.Served deps resolution.pair resolution.backend.session
  ops : ∀ o ∈ s.ops, o.Sound deps s.rows
  uses : ∀ use ∈ s.uses, use.read = use.resolution.pair

end Routing

section

variable {deps : RoutingSandboxSessionDeps} {rows later : SessionRows} {s t : Routing} {o : Op}

theorem SessionRows.Served.mono {pair : ℕ × Option ℕ} {session : RoutableBackendSession}
    (htables : rows.tables ⊆ later.tables) (hpointers : rows.pointers ⊆ later.pointers)
    (h : rows.Served deps pair session) : later.Served deps pair session := by
  obtain ⟨sandboxes, hsandboxes, pointer, hpointer, hserved⟩ := h
  exact ⟨sandboxes, htables hsandboxes, pointer, hpointers hpointer, hserved⟩

variable {phase : Phase} {seen : List ActivePointer} {executions : List Execution}

theorem Phase.Sound.repeated (h : phase.Sound deps rows seen executions) : ∀ e ∈ executions.tail, e.Refused := by
  have hall : (∀ e ∈ executions, e.Refused) → ∀ e ∈ executions.tail, e.Refused :=
    fun hrefused e he => hrefused e (List.mem_of_mem_tail he)
  cases phase with
  | readingPointer => exact hall h
  | running | settled => exact h
  | _ => exact hall h.2

theorem Phase.Sound.mono {seen' : List ActivePointer} (htables : rows.tables ⊆ later.tables)
    (hpointers : rows.pointers ⊆ later.pointers) (hseen : seen ⊆ seen')
    (h : phase.Sound deps rows seen executions) : phase.Sound deps later seen' executions := by
  cases phase with
  | pointerRead | resolving => exact ⟨hseen h.1, h.2⟩
  | built pointer resolved => exact ⟨⟨hseen h.1.1, h.1.2.mono htables hpointers⟩, h.2⟩
  | resolved resolution =>
    obtain ⟨⟨⟨pointer, hpointer, hpair⟩, hserved⟩, hrefused⟩ := h
    exact ⟨⟨⟨pointer, hseen hpointer, hpair⟩, hserved.mono htables hpointers⟩, hrefused⟩
  | _ => exact h

theorem Op.Sound.advance (h : o.Sound deps rows) (htables : rows.tables ⊆ later.tables)
    (hpointers : rows.pointers ⊆ later.pointers) (hseen : o.seen ⊆ seen)
    (hcurrent : later.pointer ∈ seen) (hknown : seen ⊆ later.pointers) :
    Op.Sound deps later { o with seen := seen } where
  current := hcurrent
  known := hknown
  executions e he := by
    obtain ⟨pointer, hpointer, hserved⟩ := h.executions e he
    exact ⟨pointer, hpointer, hserved.mono htables hpointers⟩
  phase := h.phase.mono htables hpointers hseen

theorem Op.Sound.enter (h : o.Sound deps rows) (hphase : phase.Sound deps rows o.seen o.executions) :
    Op.Sound deps rows { o with phase := phase } where
  current := h.current
  known := h.known
  executions := h.executions
  phase := hphase

theorem Op.Sound.settle (h : o.Sound deps rows) : Op.Sound deps rows { o with phase := .settled } :=
  h.enter h.phase.repeated

namespace Routing

theorem Sound.routed (h : s.Sound deps) : s.Routed deps where
  executions o ho := (h.ops o ho).executions
  repeated o ho := (h.ops o ho).phase.repeated
  uses := h.uses

theorem constructed_sound (pointer : ActivePointer) (sandboxes : List RoutableSandbox) :
    (constructed pointer sandboxes).Sound deps where
  sandboxes := List.mem_singleton_self _
  pointer := List.mem_singleton_self _
  cached _ h := by cases h
  ops o ho := by cases ho
  uses use huse := by cases huse

/-! ## The world moves -/

theorem Sound.setPointer (h : s.Sound deps) (pointer : ActivePointer) : (s.setPointer pointer).Sound deps := by
  have htables : s.rows.tables ⊆ (s.setPointer pointer).rows.tables := List.Subset.refl _
  have hpointers : s.rows.pointers ⊆ (s.setPointer pointer).rows.pointers := List.subset_cons_self pointer _
  refine {
    sandboxes := h.sandboxes
    pointer := List.mem_cons_self
    cached := ?_
    ops := ?_
    uses := h.uses }
  · intro resolution hresolution
    obtain ⟨hepoch, hid, hserved⟩ := h.cached resolution hresolution
    exact ⟨hepoch, hid, hserved.mono htables hpointers⟩
  · intro o ho
    obtain ⟨before, hbefore, rfl⟩ := List.mem_map.1 ho
    have hsound := h.ops before hbefore
    exact hsound.advance htables hpointers (List.subset_cons_self pointer before.seen) List.mem_cons_self
      (List.cons_subset_cons pointer hsound.known)

theorem Sound.setSandboxes (h : s.Sound deps) (sandboxes : List RoutableSandbox) :
    (s.setSandboxes sandboxes).Sound deps := by
  have htables : s.rows.tables ⊆ (s.setSandboxes sandboxes).rows.tables := List.subset_cons_self sandboxes _
  have hpointers : s.rows.pointers ⊆ (s.setSandboxes sandboxes).rows.pointers := List.Subset.refl _
  refine {
    sandboxes := List.mem_cons_self
    pointer := h.pointer
    cached := ?_
    ops := ?_
    uses := h.uses }
  · intro resolution hresolution
    obtain ⟨hepoch, hid, hserved⟩ := h.cached resolution hresolution
    exact ⟨hepoch, hid, hserved.mono htables hpointers⟩
  · intro o ho
    have hsound := h.ops o ho
    exact hsound.advance htables hpointers (List.Subset.refl _) hsound.current hsound.known

theorem Sound.swap (h : s.Sound deps) (expectedEpoch : ℕ) (target : Option ℕ) (workingDir : Option (Option String)) :
    (s.swap expectedEpoch target workingDir).Sound deps := by
  unfold Routing.swap
  split_ifs
  · exact h.setPointer _
  · exact h

theorem Sound.deleteSandbox (h : s.Sound deps) (sandboxId : ℕ) : (s.deleteSandbox sandboxId).Sound deps := by
  unfold Routing.deleteSandbox
  split_ifs
  · exact (h.setSandboxes _).setPointer _
  · exact h.setSandboxes _

/-! ## An operation takes a step -/

theorem Sound.setOp (h : s.Sound deps) (i : ℕ) (ho : o.Sound deps s.rows) : (s.setOp i o).Sound deps where
  sandboxes := h.sandboxes
  pointer := h.pointer
  cached := h.cached
  ops other hother := by
    have hcases : other ∈ s.ops ∨ other = o := List.mem_or_eq_of_mem_set hother
    cases hcases with
    | inl hbefore => exact h.ops other hbefore
    | inr heq =>
      rw [heq]
      exact ho
  uses := h.uses

theorem Sound.addOp (h : s.Sound deps) (ho : o.Sound deps s.rows) : (s.addOp o).Sound deps where
  sandboxes := h.sandboxes
  pointer := h.pointer
  cached := h.cached
  ops other hother := by
    have hcases : other ∈ s.ops ∨ other ∈ [o] := List.mem_append.1 hother
    cases hcases with
    | inl hbefore => exact h.ops other hbefore
    | inr hnew =>
      rw [List.mem_singleton.1 hnew]
      exact ho
  uses := h.uses

theorem Sound.dispatch (h : s.Sound deps) (op : SessionOp) : (s.dispatch op).Sound deps := by
  apply h.addOp
  exact {
    current := List.mem_singleton_self _
    known := List.cons_subset.2 ⟨h.pointer, List.nil_subset _⟩
    executions := fun e he => by cases he
    phase := fun e he => by cases he }

theorem Sound.runBound (h : s.Sound deps) {session : RoutableBackendSession}
    (hserved : s.rows.Served deps s.rows.pointer.pair session) (name : EditorOp) : (s.runBound session name).Sound deps := by
  apply h.addOp
  exact {
    current := List.mem_singleton_self _
    known := List.cons_subset.2 ⟨h.pointer, List.nil_subset _⟩
    executions := fun e he => by
      rw [List.mem_singleton.1 he]
      exact ⟨s.rows.pointer, List.mem_singleton_self _, hserved⟩
    phase := fun e he => by cases he }

theorem Sound.caught (h : s.Sound deps) (i : ℕ) (ho : o.Sound deps s.rows) {error : JsError}
    (hrefused : isFenceError error = true → o.attempt + 1 ≤ deps.maxFenceRetries → ∀ e ∈ o.executions, e.Refused) :
    (s.caught deps i o error).Sound deps := by
  unfold Routing.caught
  split
  case isFalse => exact h.setOp i ho.settle
  case isTrue hfence =>
    have hagain : Op.Sound deps s.rows { o with
          attempt := o.attempt + 1
          phase := if o.attempt + 1 ≤ deps.maxFenceRetries then .readingPointer else .settled } := by
      refine { current := ho.current, known := ho.known, executions := ho.executions, phase := ?_ }
      split
      case isTrue hretries => exact hrefused hfence hretries
      case isFalse => exact ho.phase.repeated
    have hset := h.setOp i hagain
    exact {
      sandboxes := hset.sandboxes
      pointer := hset.pointer
      cached := fun resolution hresolution => by simp at hresolution
      ops := hset.ops
      uses := hset.uses }

variable {pointer : ActivePointer}

theorem Sound.checkCache (h : s.Sound deps) (i : ℕ) (ho : o.Sound deps s.rows)
    (hphase : o.phase = .pointerRead pointer) : (s.checkCache i o pointer).Sound deps := by
  have hread := ho.phase
  rw [hphase] at hread
  unfold Routing.checkCache
  split
  case h_1 resolution hhit =>
    obtain ⟨hcached, hkeys⟩ := Option.filter_eq_some_iff.1 hhit
    obtain ⟨hepoch, hid, hserved⟩ := h.cached resolution hcached
    obtain ⟨hreadEpoch, hreadId⟩ := Bool.and_eq_true_iff.1 hkeys
    -- the keys of the cache are the pair that its backend was resolved for
    have hpair : pointer.pair = resolution.pair := by
      rw [beq_iff_eq, hepoch] at hreadEpoch
      rw [beq_iff_eq, hid] at hreadId
      exact Prod.ext (Option.some.inj hreadEpoch).symm (Option.some.inj hreadId).symm
    have hphase : (Phase.resolved resolution).Sound deps s.rows o.seen o.executions :=
      ⟨⟨⟨pointer, hread.1, hpair⟩, hserved⟩, hread.2⟩
    have hentered := h.setOp i (ho.enter hphase)
    exact {
      sandboxes := hentered.sandboxes
      pointer := hentered.pointer
      cached := hentered.cached
      ops := hentered.ops
      uses := fun use huse => by
        rcases List.mem_cons.1 huse with rfl | hbefore
        · exact hpair
        · exact h.uses use hbefore }
  case h_2 => exact h.setOp i (ho.enter hread)

theorem Sound.buildBackend (h : s.Sound deps) (i : ℕ) (ho : o.Sound deps s.rows)
    (hphase : o.phase = .resolving pointer) : (s.buildBackend deps i o pointer).Sound deps := by
  have hread := ho.phase
  rw [hphase] at hread
  unfold Routing.buildBackend
  split
  case h_1 resolved hresolved =>
    have hserved : s.rows.Served deps pointer.pair resolved.session :=
      ⟨s.rows.sandboxes, h.sandboxes, pointer, ho.known hread.1, rfl, resolved, by rw [hresolved]; rfl, rfl⟩
    have hbuilt : Phase.Sound deps s.rows o.seen o.executions (.built pointer resolved) :=
      ⟨⟨hread.1, hserved⟩, hread.2⟩
    exact h.setOp i (ho.enter hbuilt)
  case h_2 => exact h.setOp i ho.settle

theorem Sound.keepBackend (h : s.Sound deps) (i : ℕ) (ho : o.Sound deps s.rows)
    {resolved : ResolvedActiveBackend} (hphase : o.phase = .built pointer resolved) :
    (s.keepBackend i o pointer resolved).Sound deps := by
  have hbuilt := ho.phase
  rw [hphase] at hbuilt
  obtain ⟨⟨hread, hserved⟩, hrefused⟩ := hbuilt
  have hresolved : (Phase.resolved { backend := resolved, pair := pointer.pair }).Sound deps s.rows o.seen
      o.executions :=
    ⟨⟨⟨pointer, hread, rfl⟩, hserved⟩, hrefused⟩
  have hentered := h.setOp i (ho.enter hresolved)
  exact {
    sandboxes := hentered.sandboxes
    pointer := hentered.pointer
    cached := fun resolution hresolution => by
      cases hresolution
      exact ⟨rfl, rfl, hserved⟩
    ops := hentered.ops
    uses := hentered.uses }

theorem Sound.run (h : s.Sound deps) (i : ℕ) (ho : o.Sound deps s.rows) {resolution : Resolution}
    (hphase : o.phase = .resolved resolution) : (s.run deps i o resolution).Sound deps := by
  have hresolved := ho.phase
  rw [hphase] at hresolved
  obtain ⟨⟨⟨pointer, hseen, hpair⟩, hserved⟩, hrefused⟩ := hresolved
  unfold Routing.run
  split
  · apply h.setOp i
    exact {
      current := ho.current
      known := ho.known
      executions := fun e he => by
        rcases List.mem_cons.1 he with rfl | hbefore
        · exact ⟨pointer, hseen, by rw [hpair]; exact hserved⟩
        · exact ho.executions e hbefore
      phase := hrefused }
  · exact h.setOp i ho.settle
  · exact h.caught i ho fun _ _ => hrefused

end Routing

theorem Op.Sound.answered (h : o.Sound deps rows) (hphase : o.phase = .running) (outcome : Outcome) :
    (o.answered outcome).Sound deps rows := by
  have hrunning : ∀ e ∈ o.executions.tail, e.Refused := h.phase.repeated
  refine { current := h.current, known := h.known, executions := ?_, phase := ?_ }
  · intro e he
    unfold Op.answered at he
    split at he
    · cases he
    case h_2 latest earlier hexecutions =>
      have hbefore := h.executions
      rw [hexecutions] at hbefore
      rcases List.mem_cons.1 he with rfl | hearlier
      · exact hbefore latest List.mem_cons_self
      · exact hbefore e (List.mem_cons_of_mem _ hearlier)
  · unfold Op.answered
    rw [hphase]
    change ∀ e : Execution, e ∈ List.tail _ → e.Refused
    intro e he
    apply hrunning
    split at he
    · cases he
    case h_2 latest earlier hexecutions =>
      rw [hexecutions]
      exact he

theorem Op.Sound.refused (h : o.Sound deps rows) (error : JsError) :
    ∀ e ∈ (o.answered (.staleEpoch error)).executions, e.Refused := by
  have hrunning : ∀ e ∈ o.executions.tail, e.Refused := h.phase.repeated
  intro e he
  unfold Op.answered at he
  split at he
  · cases he
  case h_2 latest earlier hexecutions =>
    rcases List.mem_cons.1 he with rfl | hearlier
    · exact ⟨error, rfl⟩
    · apply hrunning
      rw [hexecutions]
      exact hearlier

namespace Routing

theorem Sound.answer (h : s.Sound deps) (i : ℕ) (ho : o.Sound deps s.rows) (hphase : o.phase = .running)
    {outcome : Outcome} (hread : ¬ Misread deps o outcome) : (s.answer deps i o outcome).Sound deps := by
  have hanswered := ho.answered hphase outcome
  unfold Routing.answer
  split
  case h_1 error _ => exact h.caught i hanswered fun _ _ => ho.refused error
  case h_2 error hdispatched =>
    apply h.caught i hanswered
    intro hfence hretries
    exact absurd ⟨hdispatched, hfence, hretries⟩ hread
  case h_3 => exact h.setOp i hanswered.settle

theorem Sound.opStep (h : s.Sound deps) {i : ℕ} (hi : s.ops[i]? = some o) {event : OpEvent}
    (hok : s.OnPointer deps (.op i event)) (hstep : s.opStep deps i o event o.phase = some t) : t.Sound deps := by
  have ho : o.Sound deps s.rows := h.ops o (List.mem_of_getElem? hi)
  have hphaseSound := ho.phase
  unfold Routing.opStep at hstep
  split at hstep
  case h_1 hphase =>
    cases hstep
    rw [hphase] at hphaseSound
    exact h.setOp i (ho.enter ⟨ho.current, hphaseSound⟩)
  case h_2 =>
    cases hstep
    exact h.setOp i ho.settle
  case h_3 pointer hphase =>
    cases hstep
    exact h.checkCache i ho hphase
  case h_4 pointer hphase =>
    cases hstep
    exact h.buildBackend i ho hphase
  case h_5 =>
    cases hstep
    exact h.setOp i ho.settle
  case h_6 pointer resolved hphase =>
    cases hstep
    exact h.keepBackend i ho hphase
  case h_7 resolution hphase =>
    cases hstep
    exact h.run i ho hphase
  case h_8 outcome hphase =>
    cases hstep
    exact h.answer i ho hphase (hok o hi)
  case h_9 => cases hstep

theorem Sound.step (h : s.Sound deps) {event : RoutingEvent} (hok : s.OnPointer deps event)
    (hstep : s.step deps event = some t) : t.Sound deps := by
  cases event with
  | swap expectedEpoch target workingDir =>
    cases hstep
    exact h.swap expectedEpoch target workingDir
  | deleteSandbox sandboxId =>
    cases hstep
    exact h.deleteSandbox sandboxId
  | putSandbox row =>
    cases hstep
    exact h.setSandboxes _
  | call op =>
    unfold Routing.step at hstep
    dsimp only at hstep
    split_ifs at hstep
    cases hstep
    exact h.dispatch op
  | createEditor =>
    cases hstep
    exact { sandboxes := h.sandboxes, pointer := h.pointer, cached := h.cached, ops := h.ops, uses := h.uses }
  | edit k name =>
    obtain ⟨editor, hk, rfl⟩ := Option.map_eq_some_iff.1 hstep
    cases editor with
    | bound session => exact h.runBound (hok (.bound session) hk) name
    | routed => exact h.dispatch (.editor name)
  | op i event =>
    obtain ⟨o, hi, hopStep⟩ := Option.bind_eq_some_iff.1 hstep
    exact h.opStep hi hok hopStep

end Routing

namespace Routing

theorem edit_needs {k : ℕ} {name : EditorOp} (hstep : s.step deps (.edit k name) = some t) (h : t.Routed deps) :
    s.OnPointer deps (.edit k name) := by
  intro editor hk
  obtain ⟨editor', hk', rfl⟩ := Option.map_eq_some_iff.1 hstep
  obtain rfl : editor' = editor := Option.some.inj (hk'.symm.trans hk)
  cases editor' with
  | routed => trivial
  | bound session =>
    have hlast := h.executions _ (List.mem_append_right s.ops (List.mem_singleton_self _)) _
      (List.mem_singleton_self _)
    obtain ⟨pointer, hpointer, hserved⟩ := hlast
    rw [List.mem_singleton.1 hpointer] at hserved
    exact hserved

end Routing

end

/-- **Every operation runs where the session points**, in every run whose bound editors are used
where their backend serves the pointer and in which no other failure is taken for a fence. The
first part of the condition is needed step by step. -/
theorem operations_are_routed (deps : RoutingSandboxSessionDeps) (pointer : ActivePointer)
    (sandboxes : List RoutableSandbox) (events : List RoutingEvent) :
    (EachStep (fun s e t => Routing.step deps s e = some t) (Routing.OnPointer deps)
        (constructed pointer sandboxes) events →
      EachState (fun s e t => Routing.step deps s e = some t) (Routing.Routed deps) (constructed pointer sandboxes)
        events) ∧
    ∀ (s t : Routing) (k : ℕ) (name : EditorOp), s.step deps (.edit k name) = some t → t.Routed deps →
      s.OnPointer deps (.edit k name) := by
  refine ⟨fun h => ?_, fun s t k name hstep hrouted => Routing.edit_needs hstep hrouted⟩
  exact eachState_of_eachStep (fun _ hsound => hsound.routed) (fun _ _ _ hstep hsound hok => hsound.step hok hstep)
    (Routing.constructed_sound pointer sandboxes) h

/-! ## Runs of a turn -/

def groupBox : RoutableBackendSession :=
  { box := .established, methods := [.exec, .readFile, .writeFile, .createEditor] }

def turnDeps : RoutingSandboxSessionDeps := wrapTurnBoxWithRouting groupBox modalKind none true

def homePointer : ActivePointer :=
  { activeSandboxId := none, activeEpoch := 0, workingDir := none }

def laptop : RoutableSandbox :=
  { id := 7, kind := selfhostedKind, enrollmentId := some 70 }

def staleEpochError : JsError :=
  .object true "SelfhostedControlError".toList "a stale op was fenced by the epoch guard".toList

/-- The steps of an operation up to its execution, where the cache does not serve it. -/
def resolvedAnew (i : ℕ) : List RoutingEvent :=
  [.op i .readPointer, .op i .checkCache, .op i .buildBackend, .op i .keepBackend, .op i .run]

def resolvedFromCache (i : ℕ) : List RoutingEvent := [.op i .readPointer, .op i .checkCache, .op i .run]

/-- An edit at home, a swap under an operation that is then refused, and another operation
that finds the machine in the cache. -/
def swappedUnder : List RoutingEvent :=
  [.createEditor, .edit 0 .updateFile, .op 0 (.answer .returned), .call .exec] ++ resolvedAnew 1 ++
    [.swap 0 (some 7) none, .op 1 (.answer (.staleEpoch staleEpochError))] ++ resolvedAnew 1 ++
    [.op 1 (.answer .returned), .call .readFile] ++ resolvedFromCache 2

theorem swappedUnder_is_routed :
    EachState (fun s e t => Routing.step turnDeps s e = some t) (Routing.Routed turnDeps)
        (constructed homePointer [laptop]) swappedUnder ∧
      ∃ s : Routing, Run (fun s e t => Routing.step turnDeps s e = some t) (constructed homePointer [laptop])
          swappedUnder s ∧
        s.ops.map (fun o => o.executions.map fun e => e.session.box) =
          [[.established], [.machine 70 1 none, .established], [.machine 70 1 none]] := by
  have hplay : ∃ s ∈ play (guarded (Routing.step turnDeps) (Routing.OnPointer turnDeps))
      (constructed homePointer [laptop]) swappedUnder,
      s.ops.map (fun o => o.executions.map fun e => e.session.box) =
        [[.established], [.machine 70 1 none, .established], [.machine 70 1 none]] := by
    decide +kernel
  obtain ⟨s, hs, hboxes⟩ := hplay
  exact ⟨(operations_are_routed turnDeps homePointer [laptop] swappedUnder).1 (eachStep_of_guarded hs), s,
    (guarded_run hs).unrestrict, hboxes⟩

/-! ## An editor from before the swap, and a file named like a fence -/

/-- The editor is asked for when the tools are bound; it is used after a swap. -/
def editAfterSwap : List RoutingEvent := [.createEditor, .swap 0 (some 7) none, .edit 0 .updateFile]

def noSuchFile : JsError :=
  .object false "Error".toList "ENOENT: no such file or directory, open 'notes/fenced-code.md'".toList

def missingFile : List RoutingEvent :=
  [.call .readFile] ++ resolvedAnew 0 ++ [.op 0 (.answer (.failed noSuchFile))] ++ resolvedAnew 0

theorem bound_editor_and_quoted_fence :
    ¬ EachState (fun s e t => Routing.step turnDeps s e = some t) (Routing.Routed turnDeps)
        (constructed homePointer [laptop]) editAfterSwap ∧
      ¬ EachState (fun s e t => Routing.step turnDeps s e = some t) (Routing.Routed turnDeps)
        (constructed homePointer [laptop]) missingFile := by
  constructor
  · intro h
    have hplay : ∃ s ∈ play (Routing.step turnDeps) (constructed homePointer [laptop]) editAfterSwap,
        ∃ o ∈ s.ops, ∃ e ∈ o.executions,
          ¬ ∃ pointer ∈ e.seen, s.rows.Served turnDeps pointer.pair e.session := by
      decide +kernel
    obtain ⟨s, hs, o, ho, e, he, hastray⟩ := hplay
    exact hastray ((h editAfterSwap [] s (List.append_nil _).symm (run_of_play hs)).executions o ho e he)
  · intro h
    have hplay : ∃ s ∈ play (Routing.step turnDeps) (constructed homePointer [laptop]) missingFile,
        ∃ o ∈ s.ops, ∃ e ∈ o.executions.tail, e.outcome = some (.failed noSuchFile) := by
      decide +kernel
    obtain ⟨s, hs, o, ho, e, he, houtcome⟩ := hplay
    obtain ⟨error, hrefused⟩ :=
      (h missingFile [] s (List.append_nil _).symm (run_of_play hs)).repeated o ho e he
    rw [houtcome] at hrefused
    cases hrefused

end OpenGeni.Runtime
