/-
Repointing a session at another sandbox.

`swapActiveSandbox` resolves its target, reads the pointer of the session and writes it with
`setActiveSandbox`, whose update takes effect only at the epoch that was read and raises it. A
call that loses this race reads again, twice at most. Between any two of these steps other calls
run, the worker writes the pointer itself, and sandboxes are deleted, which sets a pointer at
them to null.

The row of the session is there throughout. Next to it stand the versions it has had and the
writes that were committed, with the call each belongs to: a call says what it has done, and
this is what it is compared with. The call that finds its target active already answers without
a write, and so without the working directory it was given.
-/
import OpenGeni.Lib.Run
import OpenGeni.Lib.Slots

namespace OpenGeni.Core

open OpenGeni.Lib

/-! ## The target -/

structure FleetContext where
  sessionGroupId : String
deriving DecidableEq

inductive SandboxKind
  | modal
  | selfhosted
deriving DecidableEq

structure SandboxRecord where
  kind : SandboxKind
  enrollmentId : Option String
deriving DecidableEq

inductive FleetLiveness
  | online
  | reconnecting
  | offline

def FleetLiveness.text : FleetLiveness → String
  | .online => "online"
  | .reconnecting => "reconnecting"
  | .offline => "offline"

/-- `BackendUnresolvableCode | "concurrent_swap"`, as far as a swap answers it. -/
inductive SwapCode
  | stalePointer
  | offlineEnrollment
  | unsupportedBackendContext
  | concurrentSwap
deriving DecidableEq

structure Refusal where
  reason : String
  code : SwapCode
deriving DecidableEq

def swapTargetEstablishability (kind : SandboxKind) (isSessionGroup : Bool) : Except Refusal Unit :=
  if isSessionGroup then
    .ok ()
  else
    match kind with
    | .selfhosted => .ok ()
    | .modal =>
      .error
        { code := .unsupportedBackendContext
          reason := "a Modal sandbox other than this session's own box cannot be established by a turn yet; swap back to the session default or attach a Connected Machine" }

def FleetContext.isHome (ctx : FleetContext) (target : String) : Bool :=
  target == ctx.sessionGroupId || target == "session" || target == "default"

/-- The liveness check of a machine: `probe` is what the enrollment's probe says, if there is one. -/
def resolveMachine (record : SandboxRecord) (probe : Option FleetLiveness) (target : String) :
    Except Refusal Unit :=
  match record.enrollmentId with
  | none => .error { code := .offlineEnrollment, reason := s!"selfhosted sandbox {target} has no enrollment" }
  | some _ =>
    match probe with
    | none => .error { code := .offlineEnrollment, reason := s!"enrollment for sandbox {target} not found" }
    | some .online => .ok ()
    | some liveness =>
      .error
        { code := .offlineEnrollment
          reason := s!"sandbox {target} is {liveness.text}; cannot attach to a non-online machine" }

def resolveTarget (ctx : FleetContext) (sandboxes : Slots String SandboxRecord)
    (probe : Option FleetLiveness) (target : String) : Except Refusal (Option String) :=
  if ctx.isHome target then
    .ok none
  else
    match sandboxes.get target with
    | none => .error { code := .stalePointer, reason := s!"sandbox {target} not found in this workspace" }
    | some record => do
      swapTargetEstablishability record.kind false
      if record.kind = .selfhosted then
        resolveMachine record probe target
      return some target

def FleetContext.pointerOf (ctx : FleetContext) (target : String) : Option String :=
  if ctx.isHome target then none else some target

theorem resolveTarget_ok {ctx : FleetContext} {sandboxes : Slots String SandboxRecord}
    {probe : Option FleetLiveness} {target : String} {t : Option String}
    (h : resolveTarget ctx sandboxes probe target = .ok t) : t = ctx.pointerOf target := by
  unfold resolveTarget at h
  unfold FleetContext.pointerOf
  by_cases hhome : ctx.isHome target
  · rw [if_pos hhome] at h ⊢
    exact (Except.ok.inj h).symm
  · rw [if_neg hhome] at h ⊢
    cases hget : sandboxes.get target with
    | none =>
      rw [hget] at h
      cases h
    | some record =>
      rw [hget] at h
      simp only [bind, Except.bind, pure, Except.pure] at h
      split at h
      · cases h
      · split_ifs at h
        · split at h
          · cases h
          · exact (Except.ok.inj h).symm
        · exact (Except.ok.inj h).symm

/-! ## The pointer -/

structure ActiveSandboxPointer where
  activeSandboxId : Option String
  activeEpoch : ℕ
  workingDir : Option String
deriving DecidableEq

/-- The compare-and-set. An omitted working directory leaves the column as it is. -/
def setActiveSandbox (targetSandboxId : Option String) (expectedEpoch : ℕ)
    (workingDir : Option (Option String)) (row : ActiveSandboxPointer) : Option ActiveSandboxPointer :=
  if row.activeEpoch = expectedEpoch then
    some
      { activeSandboxId := targetSandboxId, activeEpoch := row.activeEpoch + 1
        workingDir := workingDir.getD row.workingDir }
  else
    none

/-! ## The calls -/

structure SwapRequest where
  target : String
  /-- `none` where it is omitted. -/
  workingDir : Option (Option String)
deriving DecidableEq

structure FleetSwapResult where
  swapped : Bool
  activeSandboxId : Option String
  activeEpoch : ℕ
  refusal : Option Refusal
deriving DecidableEq

/-- Where a call of `swapActiveSandbox` stands. -/
inductive SwapCall
  | begun (request : SwapRequest)
  | refused (request : SwapRequest) (refusal : Refusal)
  | resolved (request : SwapRequest) (targetSandboxId : Option String) (attempt : ℕ)
  /-- It has read the pointer and is about to write. -/
  | seen (request : SwapRequest) (targetSandboxId : Option String) (attempt : ℕ) (pointer : ActiveSandboxPointer)
  | answered (request : SwapRequest) (result : FleetSwapResult)
  | stopped
deriving DecidableEq

/-- A committed `setActiveSandbox`. -/
structure CommittedSwap where
  /-- The call it belongs to. The worker's reset of a pointer has none. -/
  caller : Option ℕ
  before : ActiveSandboxPointer
  after : ActiveSandboxPointer
deriving DecidableEq

structure SwapState where
  ctx : FleetContext
  sandboxes : Slots String SandboxRecord
  session : ActiveSandboxPointer
  calls : Slots ℕ SwapCall
  versions : List ActiveSandboxPointer
  swaps : List CommittedSwap
deriving DecidableEq

inductive SwapEvent
  | swapActiveSandbox (i : ℕ) (request : SwapRequest)
  /-- `resolveTarget`, with what the probe of the target's enrollment answers. -/
  | resolve (i : ℕ) (probe : Option FleetLiveness)
  | advance (i : ℕ)
  | stop (i : ℕ)
  /-- A reset by the worker, at an epoch that it has read. -/
  | setActiveSandbox (targetSandboxId : Option String) (expectedEpoch : ℕ) (workingDir : Option (Option String))
  | createSandbox (id : String) (record : SandboxRecord)
  | deleteSandbox (id : String)

namespace SwapState

def put (s : SwapState) (i : ℕ) (call : SwapCall) : SwapState := { s with calls := s.calls.put i call }

def write (s : SwapState) (caller : Option ℕ) (after : ActiveSandboxPointer) : SwapState := { s with
    session := after
    versions := after :: s.versions
    swaps := { caller, before := s.session, after } :: s.swaps }

def references (s : SwapState) (targetSandboxId : Option String) : Bool :=
  targetSandboxId.all fun id => (s.sandboxes.get id).isSome

def result (pointer : ActiveSandboxPointer) (swapped : Bool) (refusal : Option Refusal) : FleetSwapResult :=
  { swapped, activeSandboxId := pointer.activeSandboxId, activeEpoch := pointer.activeEpoch, refusal }

def lostRace : Refusal where
  reason := "a concurrent swap won the epoch fence; re-read and retry"
  code := .concurrentSwap

def advance (s : SwapState) (i : ℕ) : SwapCall → Option SwapState
  | .refused request refusal => some (s.put i (.answered request (result s.session false refusal)))
  | .resolved request t attempt =>
    if attempt < 2 then
      if s.session.activeSandboxId = t then
        some (s.put i (.answered request (result s.session true none)))
      else
        some (s.put i (.seen request t attempt s.session))
    else
      some (s.put i (.answered request (result s.session false lostRace)))
  | .seen request t attempt pointer =>
    match Core.setActiveSandbox t pointer.activeEpoch request.workingDir s.session with
    | none => some (s.put i (.resolved request t (attempt + 1)))
    | some after =>
      if s.references t then
        some ((s.write (some i) after).put i (.answered request (result after true none)))
      else
        -- the update violates the foreign key
        some (s.put i .stopped)
  | .begun _ => none
  | .answered _ _ => none
  | .stopped => none

def step (s : SwapState) : SwapEvent → Option SwapState
  | .swapActiveSandbox i request =>
    match s.calls.get i with
    | none => some (s.put i (.begun request))
    | some _ => none
  | .resolve i probe =>
    match s.calls.get i with
    | some (.begun request) =>
      match resolveTarget s.ctx s.sandboxes probe request.target with
      | .ok t => some (s.put i (.resolved request t 0))
      | .error refusal => some (s.put i (.refused request refusal))
    | _ => none
  | .advance i => (s.calls.get i).bind (s.advance i)
  | .stop i =>
    match s.calls.get i with
    | some (.answered _ _) => none
    | some _ => some (s.put i .stopped)
    | none => none
  | .setActiveSandbox t expectedEpoch workingDir =>
    match Core.setActiveSandbox t expectedEpoch workingDir s.session with
    | some after => if s.references t then some (s.write none after) else none
    | none => some s
  | .createSandbox id record =>
    match s.sandboxes.get id with
    | none => some { s with sandboxes := s.sandboxes.put id record }
    | some _ => none
  | .deleteSandbox id =>
    if s.session.activeSandboxId = some id then
      -- `on delete set null`
      let session := { s.session with activeSandboxId := none }
      some { s with sandboxes := s.sandboxes.drop id, session, versions := session :: s.versions }
    else
      some { s with sandboxes := s.sandboxes.drop id }

end SwapState

def swapSteps (s : SwapState) (e : SwapEvent) (s' : SwapState) : Prop := s.step e = some s'

def SwapState.initial (ctx : FleetContext) (sandboxes : Slots String SandboxRecord)
    (session : ActiveSandboxPointer) : SwapState :=
  { ctx, sandboxes, session, calls := [], versions := [session], swaps := [] }

/-! ## What the calls promise -/

structure Linearized (s : SwapState) : Prop where
  raised : ∀ w ∈ s.swaps, w.after.activeEpoch = w.before.activeEpoch + 1
  distinct : (s.swaps.map fun w => w.after.activeEpoch).Nodup
  /-- A call that has swapped names a version of the row with its target and its directory. -/
  won : ∀ i request answer, s.calls.get i = some (.answered request answer) → answer.swapped →
    answer.activeSandboxId = s.ctx.pointerOf request.target ∧ ∃ p ∈ s.versions, p.activeEpoch = answer.activeEpoch ∧
        p.activeSandboxId = s.ctx.pointerOf request.target ∧
          ∀ dir, request.workingDir = some dir → p.workingDir = dir
  /-- A call that has not swapped has written nothing. -/
  lost : ∀ i request answer, s.calls.get i = some (.answered request answer) → answer.swapped = false →
    ∀ w ∈ s.swaps, w.caller ≠ some i

/-- A call that finds its target active finds the directory that it was given. -/
def FindsDirectory (s : SwapState) : SwapEvent → Prop
  | .advance i => ∀ request t attempt, s.calls.get i = some (.resolved request t attempt) → attempt < 2 →
      s.session.activeSandboxId = t → ∀ dir, request.workingDir = some dir → s.session.workingDir = dir
  | _ => True

/-! ## The invariant -/

def SwapCall.target : SwapCall → Option (SwapRequest × Option String)
  | .resolved request t _ => some (request, t)
  | .seen request t _ _ => some (request, t)
  | _ => none

def SwapCall.hasSwapped : SwapCall → Bool
  | .answered _ answer => answer.swapped
  | _ => false

structure SwapState.Sound (s : SwapState) : Prop where
  linear : Linearized s
  current : s.session ∈ s.versions
  /-- Versions of one epoch differ in the pointer alone. -/
  epochs : ∀ p ∈ s.versions, p.activeEpoch ≤ s.session.activeEpoch ∧
    (p.activeEpoch = s.session.activeEpoch → p.workingDir = s.session.workingDir)
  bounded : ∀ w ∈ s.swaps, w.after.activeEpoch ≤ s.session.activeEpoch
  owned : ∀ w ∈ s.swaps, ∀ i, w.caller = some i → ∃ call, s.calls.get i = some call ∧ call.hasSwapped
  targets : ∀ i call request t, s.calls.get i = some call → call.target = some (request, t) →
    t = s.ctx.pointerOf request.target

variable {s s' : SwapState} {i : ℕ} {call : SwapCall} {request : SwapRequest} {t : Option String}
variable {attempt : ℕ} {after pointer : ActiveSandboxPointer}

theorem setActiveSandbox_spec {expectedEpoch : ℕ} {workingDir : Option (Option String)}
    (h : setActiveSandbox t expectedEpoch workingDir pointer = some after) :
    after.activeSandboxId = t ∧ after.activeEpoch = pointer.activeEpoch + 1 ∧
      ∀ dir, workingDir = some dir → after.workingDir = dir := by
  obtain ⟨-, he⟩ := Option.ite_none_right_eq_some.1 h
  cases he
  refine ⟨rfl, rfl, ?_⟩
  rintro dir rfl
  rfl

def SwapState.Answers (s : SwapState) (request : SwapRequest) (answer : FleetSwapResult) : Prop :=
  answer.swapped → answer.activeSandboxId = s.ctx.pointerOf request.target ∧
    ∃ p ∈ s.versions, p.activeEpoch = answer.activeEpoch ∧ p.activeSandboxId = s.ctx.pointerOf request.target ∧
        ∀ dir, request.workingDir = some dir → p.workingDir = dir

/-- **A call goes on** and writes nothing. Its new state answers truly and keeps the target. -/
theorem SwapState.Sound.put (h : s.Sound) (hfree : ∀ w ∈ s.swaps, w.caller ≠ some i)
    (htarget : ∀ request t, call.target = some (request, t) → t = s.ctx.pointerOf request.target)
    (hanswer : ∀ request answer, call = .answered request answer → s.Answers request answer) :
    (s.put i call).Sound := by
  -- the entry of another call is what it was
  have hget : ∀ j, j ≠ i → (s.put i call).calls.get j = s.calls.get j := fun j hj => Slots.get_put_of_ne hj
  have hself : (s.put i call).calls.get i = some call := Slots.get_put
  refine { linear := { raised := h.linear.raised, distinct := h.linear.distinct, won := ?_, lost := ?_ },
           current := h.current, epochs := h.epochs, bounded := h.bounded, owned := ?_, targets := ?_ }
  · intro j request answer hj hswapped
    by_cases hji : j = i
    · subst hji
      exact hanswer request answer (Option.some.inj (hself.symm.trans hj)) hswapped
    · rw [hget j hji] at hj
      exact h.linear.won j request answer hj hswapped
  · intro j request answer hj hlost
    by_cases hji : j = i
    · subst hji
      exact hfree
    · rw [hget j hji] at hj
      exact h.linear.lost j request answer hj hlost
  · intro w hw j hj
    have hji : j ≠ i := fun heq => hfree w hw (heq ▸ hj)
    rw [hget j hji]
    exact h.owned w hw j hj
  · intro j call' request t hj htgt
    by_cases hji : j = i
    · subst hji
      cases hself.symm.trans hj
      exact htarget request t htgt
    · rw [hget j hji] at hj
      exact h.targets j call' request t hj htgt

theorem SwapState.Sound.free (h : s.Sound) (hcall : ∀ call, s.calls.get i = some call → call.hasSwapped = false) :
    ∀ w ∈ s.swaps, w.caller ≠ some i := by
  intro w hw hcaller
  obtain ⟨call, hget, hswapped⟩ := h.owned w hw i hcaller
  rw [hcall call hget] at hswapped
  cases hswapped

theorem SwapState.Sound.write (h : s.Sound) (hepoch : after.activeEpoch = s.session.activeEpoch + 1) :
    (s.write none after).Sound := by
  have hversions : ∀ p ∈ (s.write none after).versions, p = after ∨ p ∈ s.versions := fun p hp =>
    List.mem_cons.1 hp
  refine { linear := { raised := ?_, distinct := ?_, won := ?_, lost := ?_ }, current := List.mem_cons_self,
           epochs := ?_, bounded := ?_, owned := ?_, targets := h.targets }
  · intro w hw
    obtain rfl | hw := List.mem_cons.1 hw
    · exact hepoch
    · exact h.linear.raised w hw
  · refine List.nodup_cons.2 ⟨fun hmem => ?_, h.linear.distinct⟩
    obtain ⟨w, hw, heq⟩ := List.mem_map.1 hmem
    have hle := h.bounded w hw
    dsimp only at heq
    omega
  · intro j request answer hj hswapped
    obtain ⟨hid, p, hp, hrest⟩ := h.linear.won j request answer hj hswapped
    exact ⟨hid, p, List.mem_cons_of_mem _ hp, hrest⟩
  · intro j request answer hj hlost w hw
    obtain rfl | hw := List.mem_cons.1 hw
    · exact fun hnone => by cases hnone
    · exact h.linear.lost j request answer hj hlost w hw
  · intro p hp
    obtain rfl | hp := hversions p hp
    · exact ⟨le_refl _, fun _ => rfl⟩
    · have hle := (h.epochs p hp).1
      refine ⟨?_, fun heq => ?_⟩
      · change p.activeEpoch ≤ after.activeEpoch
        omega
      · change p.activeEpoch = after.activeEpoch at heq
        omega
  · intro w hw
    change w.after.activeEpoch ≤ after.activeEpoch
    obtain rfl | hw := List.mem_cons.1 hw
    · exact le_refl _
    · have hle := h.bounded w hw
      omega
  · intro w hw j hj
    obtain rfl | hw := List.mem_cons.1 hw
    · cases hj
    · exact h.owned w hw j hj

theorem SwapState.Sound.swap (h : s.Sound) (hfree : ∀ w ∈ s.swaps, w.caller ≠ some i)
    (hepoch : after.activeEpoch = s.session.activeEpoch + 1)
    (htarget : after.activeSandboxId = s.ctx.pointerOf request.target)
    (hdir : ∀ dir, request.workingDir = some dir → after.workingDir = dir) :
    ((s.write (some i) after).put i (.answered request (SwapState.result after true none))).Sound := by
  -- but for the owner of the write this is the worker's write, and then an answer
  have hwritten := h.write hepoch
  have hanswer : (s.write none after).Answers request (SwapState.result after true none) :=
    fun _ => ⟨htarget, after, List.mem_cons_self, rfl, htarget, hdir⟩
  have hfree' : ∀ w ∈ (s.write none after).swaps, w.caller ≠ some i := by
    intro w hw
    obtain rfl | hw := List.mem_cons.1 hw
    · exact fun hnone => by cases hnone
    · exact hfree w hw
  have hput : ((s.write none after).put i (.answered request (SwapState.result after true none))).Sound := by
    refine hwritten.put hfree' (fun _ _ hnone => by cases hnone) fun request' answer heq => ?_
    obtain ⟨rfl, rfl⟩ := SwapCall.answered.inj heq
    exact hanswer
  refine { linear := { raised := ?_, distinct := hput.linear.distinct, won := hput.linear.won, lost := ?_ },
           current := hput.current, epochs := hput.epochs, bounded := ?_, owned := ?_, targets := hput.targets }
  · intro w hw
    obtain rfl | hw := List.mem_cons.1 hw
    · exact hepoch
    · exact h.linear.raised w hw
  · intro j request' answer hj hlost w hw
    obtain rfl | hw := List.mem_cons.1 hw
    · rintro ⟨⟩
      have hself := Slots.get_put.symm.trans hj
      obtain ⟨rfl, rfl⟩ := SwapCall.answered.inj (Option.some.inj hself)
      cases hlost
    · exact hput.linear.lost j request' answer hj hlost w (List.mem_cons_of_mem _ hw)
  · intro w hw
    obtain rfl | hw := List.mem_cons.1 hw
    · exact le_refl _
    · exact hput.bounded w (List.mem_cons_of_mem _ hw)
  · intro w hw j hj
    obtain rfl | hw := List.mem_cons.1 hw
    · cases hj
      exact ⟨_, Slots.get_put, rfl⟩
    · exact hput.owned w (List.mem_cons_of_mem _ hw) j hj

theorem SwapState.Sound.answers_iff (h : s.Sound) (htarget : s.session.activeSandboxId = s.ctx.pointerOf request.target) :
    s.Answers request (SwapState.result s.session true none) ↔
      ∀ dir, request.workingDir = some dir → s.session.workingDir = dir := by
  constructor
  · intro hanswer dir hdir
    obtain ⟨-, p, hp, hepoch, -, hpdir⟩ := hanswer rfl
    rw [← (h.epochs p hp).2 hepoch]
    exact hpdir dir hdir
  · exact fun hdir _ => ⟨htarget, s.session, h.current, rfl, htarget, hdir⟩

/-! ## The steps -/

theorem SwapState.Sound.advance (h : s.Sound) (hcall : s.calls.get i = some call) (hok : FindsDirectory s (.advance i))
    (hstep : s.advance i call = some s') : s'.Sound := by
  have hunanswered : call.hasSwapped = false := by
    cases call with
    | answered request answer => cases hstep
    | _ => rfl
  have hfree : ∀ w ∈ s.swaps, w.caller ≠ some i := h.free fun call' hget => by
    cases hcall.symm.trans hget
    exact hunanswered
  -- an answer that says no has nothing to keep
  have hno : ∀ request refusal, (s.put i (.answered request (SwapState.result s.session false refusal))).Sound :=
    fun request refusal => h.put hfree (fun _ _ hnone => by cases hnone) fun request' answer heq hswapped => by
      obtain ⟨rfl, rfl⟩ := SwapCall.answered.inj heq
      cases hswapped
  cases call with
  | refused request refusal =>
    cases hstep
    exact hno request refusal
  | resolved request t attempt =>
    have htarget : t = s.ctx.pointerOf request.target := h.targets i _ request t hcall rfl
    simp only [SwapState.advance] at hstep
    split_ifs at hstep with hattempt hactive
    · cases hstep
      refine h.put hfree (fun _ _ hnone => by cases hnone) fun request' answer heq => ?_
      obtain ⟨rfl, rfl⟩ := SwapCall.answered.inj heq
      rw [htarget] at hactive
      exact (h.answers_iff hactive).2 (hok request t attempt hcall hattempt (by rw [htarget]; exact hactive))
    · cases hstep
      refine h.put hfree (fun request' t' heq => ?_) fun _ _ hnone => by cases hnone
      cases heq
      exact htarget
    · cases hstep
      exact hno request _
  | seen request t attempt pointer =>
    have htarget : t = s.ctx.pointerOf request.target := h.targets i _ request t hcall rfl
    simp only [SwapState.advance] at hstep
    cases hset : setActiveSandbox t pointer.activeEpoch request.workingDir s.session with
    | none =>
      rw [hset] at hstep
      cases hstep
      refine h.put hfree (fun request' t' heq => ?_) fun _ _ hnone => by cases hnone
      cases heq
      exact htarget
    | some after =>
      simp only [hset] at hstep
      obtain ⟨hid, hepoch, hdir⟩ := setActiveSandbox_spec hset
      split_ifs at hstep
      · cases hstep
        exact h.swap hfree hepoch (hid.trans htarget) hdir
      · cases hstep
        exact h.put hfree (fun _ _ hnone => by cases hnone) fun _ _ hnone => by cases hnone
  | _ => cases hstep

theorem SwapState.Sound.delete (h : s.Sound) {sandboxes : Slots String SandboxRecord} : ({ s with
        sandboxes
        session := { s.session with activeSandboxId := none }
        versions := { s.session with activeSandboxId := none } :: s.versions } : SwapState).Sound := by
  refine { linear := { raised := h.linear.raised, distinct := h.linear.distinct, won := ?_, lost := h.linear.lost },
           current := List.mem_cons_self, epochs := ?_, bounded := h.bounded, owned := h.owned,
           targets := h.targets }
  · intro j request answer hj hswapped
    obtain ⟨hid, p, hp, hrest⟩ := h.linear.won j request answer hj hswapped
    exact ⟨hid, p, List.mem_cons_of_mem _ hp, hrest⟩
  · intro p hp
    obtain rfl | hp := List.mem_cons.1 hp
    · exact ⟨le_refl _, fun _ => rfl⟩
    · exact h.epochs p hp

theorem SwapState.Sound.sandboxes (h : s.Sound) {sandboxes : Slots String SandboxRecord} :
    ({ s with sandboxes } : SwapState).Sound :=
  { linear := ⟨h.linear.raised, h.linear.distinct, h.linear.won, h.linear.lost⟩, current := h.current
    epochs := h.epochs, bounded := h.bounded, owned := h.owned, targets := h.targets }

theorem SwapState.Sound.step {e : SwapEvent} (hstep : swapSteps s e s') (h : s.Sound) (hok : FindsDirectory s e) :
    s'.Sound := by
  cases e with
  | swapActiveSandbox i request =>
    simp only [swapSteps, SwapState.step] at hstep
    cases hget : s.calls.get i with
    | some call => simp [hget] at hstep
    | none =>
      rw [hget] at hstep
      cases hstep
      have hfree := h.free (i := i) fun call hcall => by simp [hget] at hcall
      exact h.put hfree (fun _ _ hnone => by cases hnone) fun _ _ hnone => by cases hnone
  | resolve i probe =>
    simp only [swapSteps, SwapState.step] at hstep
    split at hstep
    · rename_i request hget
      have hfree := h.free (i := i) fun call hcall => by
        cases hget.symm.trans hcall
        rfl
      split at hstep
      · rename_i t hresolve
        cases hstep
        refine h.put hfree (fun request' t' heq => ?_) fun _ _ hnone => by cases hnone
        cases heq
        exact resolveTarget_ok hresolve
      · cases hstep
        exact h.put hfree (fun _ _ hnone => by cases hnone) fun _ _ hnone => by cases hnone
    · cases hstep
  | advance i =>
    obtain ⟨call, hcall, hadvance⟩ := Option.bind_eq_some_iff.1 hstep
    exact h.advance hcall hok hadvance
  | stop i =>
    simp only [swapSteps, SwapState.step] at hstep
    split at hstep
    · cases hstep
    · rename_i call hunanswered hget
      cases hstep
      have hfree := h.free (i := i) fun call' hcall => by
        cases hget.symm.trans hcall
        cases call with
        | answered request answer => exact absurd rfl (hunanswered request answer)
        | _ => rfl
      exact h.put hfree (fun _ _ hnone => by cases hnone) fun _ _ hnone => by cases hnone
    · cases hstep
  | setActiveSandbox t expectedEpoch workingDir =>
    simp only [swapSteps, SwapState.step] at hstep
    cases hset : setActiveSandbox t expectedEpoch workingDir s.session with
    | none =>
      rw [hset] at hstep
      cases hstep
      exact h
    | some after =>
      simp only [hset] at hstep
      obtain ⟨-, he⟩ := Option.ite_none_right_eq_some.1 hstep
      cases he
      exact h.write (setActiveSandbox_spec hset).2.1
  | createSandbox id record =>
    simp only [swapSteps, SwapState.step] at hstep
    split at hstep
    · cases hstep
      exact h.sandboxes
    · cases hstep
  | deleteSandbox id =>
    simp only [swapSteps, SwapState.step] at hstep
    split_ifs at hstep
    · cases hstep
      exact h.delete
    · cases hstep
      exact h.sandboxes

theorem findsDirectory_of_linearized {e : SwapEvent} (hstep : swapSteps s e s') (h : s.Sound)
    (hlinear : Linearized s') : FindsDirectory s e := by
  cases e with
  | advance i =>
    intro request t attempt hcall hattempt hactive
    have htarget : t = s.ctx.pointerOf request.target := h.targets i _ request t hcall rfl
    have hanswered : s' = s.put i (.answered request (SwapState.result s.session true none)) := by
      simp only [swapSteps, SwapState.step, hcall, Option.bind_some, SwapState.advance, if_pos hattempt,
        if_pos hactive] at hstep
      exact (Option.some.inj hstep).symm
    subst hanswered
    rw [htarget] at hactive
    refine (h.answers_iff hactive).1 fun hswapped => ?_
    exact hlinear.won i request _ Slots.get_put hswapped
  | _ => trivial

theorem SwapState.initial_sound {ctx : FleetContext} {sandboxes : Slots String SandboxRecord}
    {session : ActiveSandboxPointer} : (SwapState.initial ctx sandboxes session).Sound where
  linear :=
    { raised := List.forall_mem_nil _, distinct := List.nodup_nil, won := fun i request answer hget => by cases hget
      lost := fun i request answer hget => by cases hget }
  current := List.mem_singleton_self _
  epochs p hp := by
    obtain rfl := List.mem_singleton.1 hp
    exact ⟨le_refl _, fun _ => rfl⟩
  bounded w hw := absurd hw List.not_mem_nil
  owned w hw := absurd hw List.not_mem_nil
  targets i call request t hget := by cases hget

/-- **Swaps linearize** all the way of a run if and only if every call that finds its target active
finds its working directory with it. -/
theorem active_swaps_linearize (ctx : FleetContext) (sandboxes : Slots String SandboxRecord)
    (session : ActiveSandboxPointer) (es : List SwapEvent) :
    EachState swapSteps Linearized (.initial ctx sandboxes session) es ↔
      EachStep swapSteps FindsDirectory (.initial ctx sandboxes session) es :=
  eachState_iff_eachStep (P := SwapState.Sound) (fun _ h => h.linear) (fun _ _ _ hstep h hok => h.step hstep hok)
    (fun _ _ _ hstep h hlinear => findsDirectory_of_linearized hstep h hlinear) SwapState.initial_sound

/-! ## A call that does not -/

/-- A session on its own box, and a call that names this box and a directory. -/
def homeWithDirectory : List SwapEvent :=
  [.swapActiveSandbox 0 { target := "session", workingDir := some (some "/srv/app") }, .resolve 0 none, .advance 0]

theorem swap_drops_working_dir :
    ∃ s, Run swapSteps (.initial { sessionGroupId := "g" } [] ⟨none, 0, none⟩) homeWithDirectory s ∧
      s.session.workingDir = none ∧ ¬ Linearized s := by
  have hplay : (play SwapState.step (.initial { sessionGroupId := "g" } [] ⟨none, 0, none⟩) homeWithDirectory) =
      some { ctx := { sessionGroupId := "g" }, sandboxes := [], session := ⟨none, 0, none⟩,
             calls := [(0, .answered ⟨"session", some (some "/srv/app")⟩ ⟨true, none, 0, none⟩)],
             versions := [⟨none, 0, none⟩], swaps := [] } := by decide +kernel
  refine ⟨_, run_of_play hplay, rfl, fun hlinear => ?_⟩
  obtain ⟨-, p, hp, -, -, hdir⟩ := hlinear.won 0 _ _ rfl rfl
  obtain rfl := List.mem_singleton.1 hp
  exact absurd (hdir (some "/srv/app") rfl) (by decide)

end OpenGeni.Core
