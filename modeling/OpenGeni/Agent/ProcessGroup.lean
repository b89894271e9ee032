/-
The contained child under the job pump
(`opengeni-agent-platform/src/native.rs`, `ExecProcessGroup`, and the life cycle of
`opengeni-agent/src/job.rs`, `Pump`).

The numeric group id belongs to the anchor. Once the anchor is reaped the kernel may
give the id to an unrelated group, so that a `killpg` issued from then on may hit it.
`wait` and `Drop` respect this. `terminate` does not look: it signals whatever group
has the number now, and the pump calls it on a cancel, on the deadline, when its
mailbox is dropped, and whenever an append, a replay or a read fails.

The wait is a future that the select drops and re-creates. `poll_wait` is one poll of
it, with what the kernel answers at each of its awaits; a dropped future leaves the
state of its last poll. The last await, the removal of the memory leaf, comes after
the anchor is gone: a pump that is woken there by anything else still takes the child
for running.

`Lifecycle` is the pump with only what decides when it kills, reads and ends. The
retention log and the credit window answer through the event: whether an append or a
replay failed, whether an ack was applied, and whether the read gate is open. So a
failing disk is an event like any other. `JobLife.lean` shows that the pump of
`Job.lean` is an instance.
-/
import OpenGeni.Agent.Job

namespace OpenGeni.Agent

open OpenGeni.Lib OpenGeni.Engine

/-! ## The process group -/

/-- The direct child, as the kernel has it; an exit by a signal has no code. -/
inductive DirectChild
  | running
  | exited (code : Option ℤ)
  | reaped (code : Option ℤ)
deriving DecidableEq

def DirectChild.has_exited : DirectChild → Bool
  | .running => false
  | _ => true

/-- One `killpg`, with what was the case when it was issued. -/
structure Killpg where
  anchor_reaped : Bool
  child_exited : Bool

structure ExecProcessGroup where
  child : DirectChild
  /-- `anchor.id()` is `None`: a wait reaped the anchor. -/
  anchor_reaped : Bool
  running : Bool
  wait_killed_group : Bool
  /-- Whether the memory leaf is still there to be taken. -/
  op_cgroup : Bool
  /-- All `killpg` calls. -/
  killpgs : List Killpg

/-- What the kernel answers in one poll of the wait: at the child, to the kill, at the
anchor and at the removal of the leaf. -/
structure WaitPoll where
  child : Option (Except String Unit)
  killpg : Except String Unit
  anchor : Option (Except String Unit)
  teardown : Bool

def WaitPoll.all_ready : WaitPoll := ⟨some (.ok ()), .ok (), some (.ok ()), true⟩

namespace ExecProcessGroup

/-- `ExecProcessGroup::spawn`; `op_cgroup` is what `place_op` returned. -/
def spawn (op_cgroup : Bool) : ExecProcessGroup where
  child := .running
  anchor_reaped := false
  running := true
  wait_killed_group := false
  op_cgroup := op_cgroup
  killpgs := []

/-- `ExecProcessGroup::terminate`: an unconditional `killpg` of the number. -/
def terminate (g : ExecProcessGroup) : ExecProcessGroup :=
  { g with killpgs := g.killpgs ++ [⟨g.anchor_reaped, g.child.has_exited⟩] }

/-- `self.child.wait()`: a child that was reaped answers from its cached status. -/
def poll_child (g : ExecProcessGroup) (answer : Option (Except String Unit)) :
    Option (Except String (Option ℤ)) × ExecProcessGroup :=
  match g.child, answer with
  | .reaped code, _ => (some (.ok code), g)
  | .exited code, some (.ok ()) => (some (.ok code), { g with child := .reaped code })
  | _, some (.error error) => (some (.error error), g)
  | _, _ => (none, g)

/-- The group kill of `wait`, issued once. -/
def kill_once (g : ExecProcessGroup) (answer : Except String Unit) : Except String Unit × ExecProcessGroup :=
  if g.wait_killed_group then (.ok (), g)
  else
    match answer with
    | .error error => (.error error, g.terminate)
    | .ok () => (.ok (), { g.terminate with wait_killed_group := true })

/-- `self.anchor.wait()`. -/
def poll_anchor (g : ExecProcessGroup) (answer : Option (Except String Unit)) :
    Option (Except String Unit) × ExecProcessGroup :=
  if g.anchor_reaped then (some (.ok ()), g)
  else
    match answer with
    | none => (none, g)
    | some (.error error) => (some (.error error), g)
    | some (.ok ()) => (some (.ok ()), { g with anchor_reaped := true })

/-- `ExecProcessGroup::wait`, one poll of it from the top. A future that is polled
again where it was left finds the same. -/
def poll_wait (g : ExecProcessGroup) (io : WaitPoll) : Option (Except String (Option ℤ)) × ExecProcessGroup :=
  match g.poll_child io.child with
  | (none, g₁) => (none, g₁)
  | (some (.error error), g₁) => (some (.error error), g₁)
  | (some (.ok code), g₁) =>
    match g₁.kill_once io.killpg with
    | (.error error, g₂) => (some (.error error), g₂)
    | (.ok (), g₂) =>
      match g₂.poll_anchor io.anchor with
      | (none, g₃) => (none, g₃)
      | (some (.error error), g₃) => (some (.error error), g₃)
      | (some (.ok ()), g₃) =>
        -- `op_cgroup.take()`: a future dropped in the teardown does not come back to it
        (if g₃.op_cgroup && !io.teardown then none else some (.ok code),
          { g₃ with running := false, op_cgroup := false })

/-- `Drop for ExecProcessGroup`. -/
def drop (g : ExecProcessGroup) : ExecProcessGroup := if g.running && !g.anchor_reaped then g.terminate else g

/-! ## What holds of a group -/

/-- Every `killpg` was issued while the anchor was there to own the id. -/
def Fenced (g : ExecProcessGroup) : Prop := ∀ k ∈ g.killpgs, k.anchor_reaped = false

instance (g : ExecProcessGroup) : Decidable g.Fenced := inferInstanceAs (Decidable (∀ k ∈ _, _))

/-- A `killpg` was issued after the direct child exited. -/
def KilledAfterExit (g : ExecProcessGroup) : Prop := ∃ k ∈ g.killpgs, k.child_exited = true

structure Sound (g : ExecProcessGroup) : Prop where
  running : g.running = !g.anchor_reaped
  reaped : g.anchor_reaped = true → g.wait_killed_group = true
  killed : g.wait_killed_group = true → (∃ code, g.child = .reaped code) ∧ g.KilledAfterExit

variable {g : ExecProcessGroup}

theorem Sound.spawn (op_cgroup : Bool) : Sound (spawn op_cgroup) := by
  refine ⟨rfl, ?_, ?_⟩ <;> intro h <;> simp [ExecProcessGroup.spawn] at h

theorem KilledAfterExit.terminate (h : g.KilledAfterExit) : g.terminate.KilledAfterExit := by
  obtain ⟨k, hk, hexit⟩ := h
  exact ⟨k, List.mem_append_left _ hk, hexit⟩

theorem Sound.terminate (h : g.Sound) : g.terminate.Sound where
  running := h.running
  reaped := h.reaped
  killed hk := ⟨(h.killed hk).1, (h.killed hk).2.terminate⟩

theorem fenced_terminate : g.terminate.Fenced ↔ g.Fenced ∧ g.anchor_reaped = false := by
  simp only [Fenced, ExecProcessGroup.terminate, List.mem_append, List.mem_singleton]
  constructor
  · intro h
    exact ⟨fun k hk => h k (.inl hk), h _ (.inr rfl)⟩
  · rintro ⟨h, hanchor⟩ k (hk | rfl)
    · exact h k hk
    · exact hanchor

theorem fenced_drop : g.drop.Fenced ↔ g.Fenced := by
  rw [drop]
  split
  · rename_i h
    rw [fenced_terminate]
    simp only [Bool.and_eq_true, Bool.not_eq_true'] at h
    exact and_iff_left h.2
  · exact Iff.rfl

theorem Sound.drop (h : g.Sound) : g.drop.Sound := by
  rw [ExecProcessGroup.drop]
  split
  · exact h.terminate
  · exact h

/-! ## One poll of the wait -/

/-- What a part of the wait may do to a sound group: nothing is lost, and it kills
only under the fence. -/
structure Progress (g g' : ExecProcessGroup) : Prop where
  sound : g'.Sound
  fenced : g'.Fenced ↔ g.Fenced
  killed : g.wait_killed_group = true → g'.wait_killed_group = true

variable {g' : ExecProcessGroup} {answer : Option (Except String Unit)} {r : Option (Except String (Option ℤ))}

theorem Progress.trans {g'' : ExecProcessGroup} (h : g.Progress g') (h' : g'.Progress g'') : g.Progress g'' :=
  ⟨h'.sound, h'.fenced.trans h.fenced, fun h₀ => h'.killed (h.killed h₀)⟩

theorem Progress.refl (h : g.Sound) : g.Progress g := ⟨h, Iff.rfl, id⟩

theorem poll_child_progress (h : g.Sound) (hpoll : g.poll_child answer = (r, g')) :
    g.Progress g' ∧ (∀ code, r = some (.ok code) → g'.child = .reaped code) ∧
      (∀ code, g.child = .reaped code → r = some (.ok code)) ∧
      g'.anchor_reaped = g.anchor_reaped := by
  unfold poll_child at hpoll
  split at hpoll <;> cases hpoll
  · rename_i code hchild
    refine ⟨.refl h, fun c hc => ?_, fun c hc => ?_, rfl⟩
    · simpa [hchild] using hc
    · simpa [hchild] using hc
  · rename_i code hchild
    refine ⟨⟨⟨h.running, h.reaped, fun hk => ⟨⟨code, rfl⟩, (h.killed hk).2⟩⟩, Iff.rfl, id⟩,
      fun c hc => ?_, fun c hc => ?_, rfl⟩
    · simpa using hc
    · simp [hchild] at hc
  · rename_i error hreaped
    exact ⟨.refl h, by simp, fun c hc => absurd hc (hreaped c), rfl⟩
  · rename_i hreaped _
    exact ⟨.refl h, by simp, fun c hc => absurd hc (hreaped c), rfl⟩

theorem kill_once_progress (h : g.Sound) {code : Option ℤ} (hchild : g.child = .reaped code)
    {answer r : Except String Unit} (hkill : g.kill_once answer = (r, g')) :
    g.Progress g' ∧ (r = .ok () → g'.wait_killed_group = true) ∧
      (g.wait_killed_group = true → r = .ok ()) ∧ g'.anchor_reaped = g.anchor_reaped := by
  unfold kill_once at hkill
  split_ifs at hkill with hk
  · cases hkill
    exact ⟨.refl h, fun _ => hk, fun _ => rfl, rfl⟩
  · -- the anchor is only ever reaped behind this flag
    have hanchor : g.anchor_reaped = false := by
      by_contra hreaped
      exact hk (h.reaped (by simpa using hreaped))
    have hexited : g.child.has_exited = true := by rw [hchild]; rfl
    have hafter : g.terminate.KilledAfterExit := ⟨_, List.mem_append_right _ (List.mem_singleton.2 rfl), hexited⟩
    have hfenced : g.terminate.Fenced ↔ g.Fenced := by
      rw [fenced_terminate]
      exact and_iff_left hanchor
    split at hkill <;> cases hkill
    · exact ⟨⟨h.terminate, hfenced, id⟩, by simp, fun hk' => absurd hk' hk, rfl⟩
    · exact ⟨⟨⟨h.running, fun _ => rfl, fun _ => ⟨⟨code, hchild⟩, hafter⟩⟩, hfenced, fun _ => rfl⟩,
        fun _ => rfl, fun _ => rfl, rfl⟩

theorem poll_anchor_cases {r : Option (Except String Unit)} (hpoll : g.poll_anchor answer = (r, g')) :
    (r = some (.ok ()) ∧ g' = { g with anchor_reaped := true }) ∨
      (r ≠ some (.ok ()) ∧ g' = g ∧ g.anchor_reaped = false) := by
  unfold poll_anchor at hpoll
  split_ifs at hpoll with hreaped
  · cases hpoll
    exact .inl ⟨rfl, by rw [← hreaped]⟩
  · split at hpoll <;> cases hpoll
    · exact .inr ⟨by simp, rfl, by simpa using hreaped⟩
    · exact .inr ⟨by simp, rfl, by simpa using hreaped⟩
    · exact .inl ⟨rfl, rfl⟩

/-- **One poll of the wait** keeps the invariant and the fence. A status is returned
behind the group kill, an error only while the anchor is there. -/
theorem poll_wait_progress (h : g.Sound) {io : WaitPoll} (hpoll : g.poll_wait io = (r, g')) :
    g.Progress g' ∧ (∀ code, r = some (.ok code) → g'.wait_killed_group = true) ∧
      (∀ error, r = some (.error error) → g'.anchor_reaped = false) := by
  -- behind a reaped anchor the child answers from its cache and the kill is not repeated
  have hcache (hanchor : g.anchor_reaped = true) : g.wait_killed_group = true ∧ ∃ code, g.child = .reaped code :=
    ⟨h.reaped hanchor, (h.killed (h.reaped hanchor)).1⟩
  have hunreaped {p : Prop} (hp : g.anchor_reaped = true → ¬p) (h' : p) : g.anchor_reaped = false := by
    by_contra hanchor
    exact hp (by simpa using hanchor) h'
  unfold poll_wait at hpoll
  split at hpoll
  · rename_i g₁ hp₁
    cases hpoll
    obtain ⟨hprog, -⟩ := poll_child_progress h hp₁
    exact ⟨hprog, by simp, by simp⟩
  · rename_i error g₁ hp₁
    cases hpoll
    obtain ⟨hprog, -, hcached, hsame⟩ := poll_child_progress h hp₁
    refine ⟨hprog, by simp, fun e he => hsame.trans (hunreaped (fun hanchor he' => ?_) he)⟩
    obtain ⟨-, code, hchild⟩ := hcache hanchor
    exact absurd (hcached code hchild) (by simp)
  rename_i code g₁ hp₁
  obtain ⟨hprog₁, hchild, -, hsame₁⟩ := poll_child_progress h hp₁
  split at hpoll
  · rename_i error g₂ hp₂
    cases hpoll
    obtain ⟨hprog₂, -, honce, hsame₂⟩ := kill_once_progress hprog₁.sound (hchild code rfl) hp₂
    refine ⟨hprog₁.trans hprog₂, by simp,
      fun e he => (hsame₂.trans hsame₁).trans (hunreaped (fun hanchor he' => ?_) he)⟩
    exact absurd (honce (hprog₁.killed (hcache hanchor).1)) (by simp)
  rename_i g₂ hp₂
  obtain ⟨hprog₂, hkilled, -, hsame₂⟩ := kill_once_progress hprog₁.sound (hchild code rfl) hp₂
  have hprog := hprog₁.trans hprog₂
  split at hpoll
  · rename_i g₃ hp₃
    cases hpoll
    obtain ⟨hr, -⟩ | ⟨-, rfl, -⟩ := poll_anchor_cases hp₃
    · simp at hr
    · exact ⟨hprog, by simp, by simp⟩
  · rename_i error g₃ hp₃
    cases hpoll
    obtain ⟨hr, -⟩ | ⟨-, rfl, hanchor⟩ := poll_anchor_cases hp₃
    · simp at hr
    · exact ⟨hprog, by simp, fun _ _ => hanchor⟩
  · rename_i g₃ hp₃
    cases hpoll
    obtain ⟨-, rfl⟩ | ⟨hr, -⟩ := poll_anchor_cases hp₃
    · have hflag : g₂.wait_killed_group = true := hkilled rfl
      refine ⟨⟨⟨rfl, fun _ => hflag, hprog.sound.killed⟩, hprog.fenced, hprog.killed⟩,
        fun _ _ => hflag, fun error herror => ?_⟩
      simp at herror
    · exact absurd rfl hr

theorem poll_wait_ready {code : Option ℤ} (hchild : g.child = .exited code) :
    (g.poll_wait .all_ready).1 = some (.ok code) := by
  obtain ⟨child, anchor_reaped, running, wait_killed_group, op_cgroup, killpgs⟩ := g
  obtain rfl : child = .exited code := hchild
  cases anchor_reaped <;> cases wait_killed_group <;> cases op_cgroup <;> rfl

theorem poll_wait_error (hchild : g.child = .running) (error : String) :
    g.poll_wait ⟨some (.error error), .ok (), none, false⟩ = (some (.error error), g) := by
  obtain ⟨child, anchor_reaped, running, wait_killed_group, op_cgroup, killpgs⟩ := g
  obtain rfl : child = .running := hchild
  rfl

end ExecProcessGroup

/-! ## The life cycle of the pump -/

/-- `JobCommand`, with what the flow, the fence and the replay answer to it. -/
inductive LifeCommand
  | ack (applied final_ack reaches_fence : Bool) (replay : Except RetentionError Unit)
  | attach (accepted : Bool) (replay : Except RetentionError Unit)
  | detach
  | cancel

/-- A completed pipe read: end of file, data with the answer of its append, or an
error. -/
inductive PipeRead
  | eof
  | data (append : Except RetentionError Unit)
  | error (error : String)

/-- What happens to a job: in the kernel and on the clock, or in the pump. -/
inductive LifeEvent
  | child_exits (code : Option ℤ)
  /-- A descendant leaves the process group and keeps the write end of a pipe. -/
  | leaves (channel : Channel)
  | deadline_passes
  /-- `may_read` changes with the retention log and the window. -/
  | gate (may_read : Bool)
  /-- The wait is polled; where it is ready, this is the wakeup `ChildExit`. -/
  | poll (io : WaitPoll)
  | command (cmd : Option LifeCommand)
  | deadline
  | progress_tick (append : Except RetentionError Unit)
  | read (channel : Channel) (result : PipeRead)
  /-- The loop is over: the terminal record is produced. -/
  | finish
  /-- The handle is dropped, with the task or behind it. -/
  | dropped

/-- `Pump`, by what decides its life cycle. -/
structure Lifecycle where
  group : ExecProcessGroup
  child_done : Bool
  child_code : ℤ
  stdout : Bool
  stderr : Bool
  mailbox_closed : Bool
  pending_outcome : Option JobOutcome
  collection_failure : Option JobFailure
  final_acked : Bool
  has_deadline : Bool
  may_read : Bool
  /-- The outcome of the terminal record, once it is produced. -/
  record : Option JobOutcome
  dropped : Bool
  deadline_passed : Bool
  /-- A write end is held from outside the process group. -/
  held : Channel → Bool
  cancel_handled : Bool
  /-- The status `wait` returned. -/
  wait_status : Option (Option ℤ)

namespace Lifecycle

/-- The pump `run_job` builds. -/
def new (op_cgroup has_deadline : Bool) : Lifecycle where
  group := .spawn op_cgroup
  child_done := false
  child_code := -1
  stdout := true
  stderr := true
  mailbox_closed := false
  pending_outcome := none
  collection_failure := none
  final_acked := false
  has_deadline := has_deadline
  may_read := true
  record := none
  dropped := false
  deadline_passed := false
  held := fun _ => false
  cancel_handled := false
  wait_status := none

def pipe (l : Lifecycle) : Channel → Bool
  | .stdout => l.stdout
  | .stderr => l.stderr
  | .content => false

/-- `Pump::terminate_child`; an error of the kill is only logged. -/
def terminate_child (l : Lifecycle) : Lifecycle := { l with group := l.group.terminate }

def fail (l : Lifecycle) (failure : JobFailure) : Lifecycle := { l with
    pending_outcome := if l.pending_outcome.isNone then some (.failed failure)
      else l.pending_outcome
    group := l.group.terminate
    stdout := false
    stderr := false }

def close_pipe (l : Lifecycle) : Channel → Lifecycle
  | .stdout => { l with stdout := false }
  | .stderr => { l with stderr := false }
  | .content => l

def exited (l : Lifecycle) : Bool := l.child_done && !l.stdout && !l.stderr

def stop (l : Lifecycle) : Lifecycle := if !l.child_done && l.pending_outcome.isNone then
    { l with pending_outcome := some .cancelled }.terminate_child
  else l

/-- `if let Err(error) = self.append_and_send(..) { self.fail(..) }`. -/
def after_append (l : Lifecycle) : Except RetentionError Unit → Lifecycle
  | .ok () => l
  | .error error => l.fail (.from_retention error)

def drive_catch_up (l : Lifecycle) : Except RetentionError Unit → Lifecycle
  | .ok () => l
  | .error error =>
    if l.exited then
      { l with collection_failure := l.collection_failure.or (some (.from_retention error)) }
    else l.fail (.from_retention error)

def handle_command (l : Lifecycle) : LifeCommand → Lifecycle
  | .ack applied final_ack reaches_fence replay =>
    let l' := if applied then l.drive_catch_up replay else l
    if final_ack && l'.record.isSome && applied && reaches_fence then
      { l' with final_acked := true }
    else l'
  | .attach accepted replay => if accepted then l.drive_catch_up replay else l
  | .detach => l
  | .cancel => { l with cancel_handled := true }.stop

def handle (l : Lifecycle) : LifeEvent → Lifecycle
  | .child_exits code => { l with group := { l.group with child := .exited code } }
  | .leaves channel => { l with held := Function.update l.held channel true }
  | .deadline_passes => { l with deadline_passed := true }
  | .gate may_read => { l with may_read }
  | .poll io =>
    match l.group.poll_wait io with
    | (none, group) => { l with group }
    | (some (.ok code), group) =>
      { l with group, child_done := true, child_code := code.getD (-1),
               wait_status := some code }
    | (some (.error error), group) =>
      { l with group, child_done := true }.fail (.pipe_io s!"wait: {error}")
  | .command none => { l with mailbox_closed := true }.stop
  | .command (some cmd) => l.handle_command cmd
  | .deadline => { l with pending_outcome := some .timed_out }.terminate_child
  | .progress_tick append => l.after_append append
  | .read channel .eof => l.close_pipe channel
  | .read _ (.data append) => l.after_append append
  | .read channel (.error error) =>
    l.fail (.pipe_io ("read " ++ Pump.channel_text channel ++ s!": {error}"))
  | .finish =>
    { l with record := some (l.pending_outcome.getD (.exited l.child_code)), pending_outcome := none }
  | .dropped => { l with dropped := true, group := l.group.drop }

theorem handle_poll_ok {l : Lifecycle} {io : WaitPoll} {code : Option ℤ} {group : ExecProcessGroup}
    (hpoll : l.group.poll_wait io = (some (.ok code), group)) :
    l.handle (.poll io) = { l with group, child_done := true, child_code := code.getD (-1),
                                   wait_status := some code } := by
  rw [handle, hpoll]

def loops (l : Lifecycle) : Bool := !l.exited && l.record.isNone && !l.dropped

def lingers (l : Lifecycle) : Bool := l.record.isSome && !l.final_acked && !l.mailbox_closed && !l.dropped

/-- When an event can happen: the guards of the select arms, and for the kernel what a
killed group and a held pipe allow. -/
def enabled (l : Lifecycle) : LifeEvent → Bool
  | .child_exits _ => l.group.child == .running
  | .leaves _ => !l.group.wait_killed_group
  | .deadline_passes => l.has_deadline
  | .gate _ => true
  | .poll _ => l.loops && !l.child_done
  | .command _ => (l.loops && !l.mailbox_closed) || l.lingers
  | .deadline => l.loops && l.deadline_passed && !l.child_done && l.pending_outcome.isNone
  | .progress_tick _ => l.loops
  | .read channel result =>
    let delivers := match result with
      | .eof => !l.held channel
      | _ => true
    l.loops && l.may_read && l.pipe channel && delivers
  | .finish => l.exited && l.record.isNone && !l.dropped
  | .dropped => !l.dropped

end Lifecycle

def LifeStep (l : Lifecycle) (e : LifeEvent) (l' : Lifecycle) : Prop := l.enabled e = true ∧ l' = l.handle e

/-! ## Who signals the group, and when -/

namespace Lifecycle

/-- Whether the pump answers an event with a kill: a stop of a job that is still taken
for running, or a failure of an append, of a replay or of a read. -/
def asks_kill (l : Lifecycle) : LifeEvent → Bool
  | .command none => !l.child_done && l.pending_outcome.isNone
  | .command (some .cancel) => !l.child_done && l.pending_outcome.isNone
  | .command (some (.ack applied _ _ replay)) => applied && !replay.isOk && !l.exited
  | .command (some (.attach accepted replay)) => accepted && !replay.isOk && !l.exited
  | .deadline => true
  | .progress_tick append => !append.isOk
  | .read _ (.data append) => !append.isOk
  | .read _ (.error _) => true
  | _ => false

/-- Behind the anchor nothing asks for a kill: no stop comes in the removal of the
memory leaf, and until the loop is over no append, replay or read fails. -/
def Quiet (l : Lifecycle) (e : LifeEvent) : Prop := l.group.anchor_reaped = true → l.asks_kill e = false

instance (l : Lifecycle) (e : LifeEvent) : Decidable (l.Quiet e) :=
  inferInstanceAs (Decidable (_ → _))

structure Contained (l : Lifecycle) : Prop where
  /-- No `killpg` was issued behind the anchor. -/
  fenced : l.group.Fenced
  /-- A returned status means a kill behind the direct child's exit. -/
  killed : l.wait_status.isSome → l.group.KilledAfterExit

structure Sound (l : Lifecycle) : Prop where
  group : l.group.Sound
  waited : l.wait_status.isSome → l.group.wait_killed_group = true

variable {l : Lifecycle} {e : LifeEvent}

theorem Sound.new (op_cgroup has_deadline : Bool) : (new op_cgroup has_deadline).Sound :=
  ⟨.spawn op_cgroup, by simp [Lifecycle.new]⟩

theorem stop_group (l : Lifecycle) : l.stop.group =
      if !l.child_done && l.pending_outcome.isNone then l.group.terminate else l.group := by
  rw [stop]
  split <;> rfl

theorem stop_wait_status (l : Lifecycle) : l.stop.wait_status = l.wait_status := by
  rw [stop]
  split <;> rfl

theorem after_append_group (l : Lifecycle) (r : Except RetentionError Unit) :
    (l.after_append r).group = (if !r.isOk then l.group.terminate else l.group) ∧
      (l.after_append r).wait_status = l.wait_status := by
  cases r <;> exact ⟨rfl, rfl⟩

theorem drive_catch_up_group (l : Lifecycle) (r : Except RetentionError Unit) :
    (l.drive_catch_up r).group = (if !r.isOk && !l.exited then l.group.terminate else l.group) ∧
      (l.drive_catch_up r).wait_status = l.wait_status := by
  cases r with
  | ok _ => exact ⟨rfl, rfl⟩
  | error error =>
    rw [drive_catch_up]
    cases hexited : l.exited <;> exact ⟨rfl, rfl⟩

theorem ack_group (l : Lifecycle) (applied final_ack reaches_fence : Bool) (replay : Except RetentionError Unit) :
    let l' := if applied then l.drive_catch_up replay else l
    let acked := l.handle_command (.ack applied final_ack reaches_fence replay)
    acked.group = l'.group ∧ acked.wait_status = l'.wait_status := by
  dsimp only [handle_command]
  generalize (if applied = true then l.drive_catch_up replay else l) = l'
  split <;> exact ⟨rfl, rfl⟩

/-- **What an event does to the group.** Apart from the wait, the kernel and the drop,
it issues one kill or leaves the group alone. -/
theorem handle_group (l : Lifecycle) (e : LifeEvent) :
    (∃ io, e = .poll io) ∨ (∃ code, e = .child_exits code) ∨ e = .dropped ∨
      ((l.handle e).group = (if l.asks_kill e then l.group.terminate else l.group) ∧
        (l.handle e).wait_status = l.wait_status) := by
  cases e with
  | poll io => exact .inl ⟨io, rfl⟩
  | child_exits code => exact .inr (.inl ⟨code, rfl⟩)
  | dropped => exact .inr (.inr (.inl rfl))
  | leaves _ | deadline_passes | gate _ | deadline | finish => exact .inr (.inr (.inr ⟨rfl, rfl⟩))
  | progress_tick append => exact .inr (.inr (.inr (l.after_append_group append)))
  | read channel result =>
    refine .inr (.inr (.inr ?_))
    cases result with
    | eof => cases channel <;> exact ⟨rfl, rfl⟩
    | data append => exact l.after_append_group append
    | error error => exact ⟨rfl, rfl⟩
  | command cmd =>
    refine .inr (.inr (.inr ?_))
    cases cmd with
    | none => exact ⟨stop_group _, stop_wait_status _⟩
    | some cmd =>
      cases cmd with
      | detach => exact ⟨rfl, rfl⟩
      | cancel => exact ⟨stop_group _, stop_wait_status _⟩
      | attach accepted replay =>
        cases accepted with
        | false => exact ⟨rfl, rfl⟩
        | true => simpa [handle, handle_command, asks_kill] using l.drive_catch_up_group replay
      | ack applied final_ack reaches_fence replay =>
        obtain ⟨hgroup, hstatus⟩ := l.ack_group applied final_ack reaches_fence replay
        refine ⟨hgroup.trans ?_, hstatus.trans ?_⟩
        · cases applied with
          | false => rfl
          | true => simpa [asks_kill] using (l.drive_catch_up_group replay).1
        · cases applied with
          | false => rfl
          | true => exact (l.drive_catch_up_group replay).2

/-- **One event**: the invariant is kept, and the fence is kept exactly by a quiet
event. -/
theorem handle_sound (h : l.Sound) (henabled : l.enabled e = true) :
    (l.handle e).Sound ∧ ((l.handle e).group.Fenced ↔ l.group.Fenced ∧ l.Quiet e) := by
  have hquiet (hasks : l.asks_kill e = false) : l.Quiet e := fun _ => hasks
  obtain ⟨io, rfl⟩ | ⟨code, rfl⟩ | rfl | ⟨hgroup, hstatus⟩ := l.handle_group e
  · -- the wait kills under its own flag, and where it fails the anchor is still there
    obtain ⟨r, g', hpoll⟩ : ∃ r g', l.group.poll_wait io = (r, g') := ⟨_, _, rfl⟩
    obtain ⟨hprog, hkilled, herror⟩ := ExecProcessGroup.poll_wait_progress h.group hpoll
    have hwaited (hw : l.wait_status.isSome) : g'.wait_killed_group = true :=
      hprog.killed (h.waited hw)
    rw [and_iff_left (hquiet rfl), ← hprog.fenced, handle, hpoll]
    cases r with
    | none => exact ⟨⟨hprog.sound, hwaited⟩, Iff.rfl⟩
    | some status =>
      cases status with
      | ok code => exact ⟨⟨hprog.sound, fun _ => hkilled code rfl⟩, Iff.rfl⟩
      | error error =>
        refine ⟨⟨hprog.sound.terminate, hwaited⟩, ?_⟩
        exact ExecProcessGroup.fenced_terminate.trans (and_iff_left (herror error rfl))
  · have hrunning : l.group.child = .running := by simpa [enabled] using henabled
    refine ⟨⟨⟨h.group.running, h.group.reaped, fun hk => ?_⟩, h.waited⟩,
      (and_iff_left (hquiet rfl)).symm⟩
    obtain ⟨⟨c, hreaped⟩, -⟩ := h.group.killed hk
    simp [hrunning] at hreaped
  · refine ⟨⟨h.group.drop, fun hw => ?_⟩, ?_⟩
    · have hk := h.waited hw
      rw [handle]
      show l.group.drop.wait_killed_group = true
      rw [ExecProcessGroup.drop]
      split <;> exact hk
    · rw [and_iff_left (hquiet rfl)]
      exact ExecProcessGroup.fenced_drop
  · rw [Quiet]
    cases hasks : l.asks_kill e with
    | false =>
      rw [hasks] at hgroup
      refine ⟨⟨hgroup ▸ h.group, ?_⟩, ?_⟩
      · rw [hstatus, hgroup]
        exact h.waited
      · rw [hgroup]
        simp
    | true =>
      rw [hasks] at hgroup
      refine ⟨⟨hgroup ▸ h.group.terminate, ?_⟩, ?_⟩
      · rw [hstatus, hgroup]
        exact h.waited
      · rw [hgroup, if_pos rfl, ExecProcessGroup.fenced_terminate]
        simp

theorem Sound.killed_after_exit (h : l.Sound) (hstatus : l.wait_status.isSome) : l.group.KilledAfterExit :=
  (h.group.killed (h.waited hstatus)).2

/-- **The runner never signals a recycled group, exactly when nothing asks for a kill
behind the anchor.** From the spawn on, every `killpg` is issued with the anchor
unreaped, and a returned status means a kill behind the direct child's exit, if and
only if every event is quiet. -/
theorem contained_iff_quiet (op_cgroup has_deadline : Bool) (es : List LifeEvent) :
    EachState LifeStep Contained (new op_cgroup has_deadline) es ↔
      EachStep LifeStep Quiet (new op_cgroup has_deadline) es := by
  have hstart : (new op_cgroup has_deadline).group.Fenced := by
    intro k hk
    simp [Lifecycle.new, ExecProcessGroup.spawn] at hk
  apply eachState_iff_eachStep (P := fun l => l.Sound ∧ l.group.Fenced)
  · rintro l ⟨hsound, hfenced⟩
    exact ⟨hfenced, hsound.killed_after_exit⟩
  · rintro l e _ ⟨henabled, rfl⟩ ⟨hsound, hfenced⟩ hquiet
    obtain ⟨hsound', hfenced'⟩ := handle_sound hsound henabled
    exact ⟨hsound', hfenced'.2 ⟨hfenced, hquiet⟩⟩
  · rintro l e _ ⟨henabled, rfl⟩ ⟨hsound, -⟩ hcontained
    exact ((handle_sound hsound henabled).2.1 hcontained.fenced).2
  · exact ⟨.new op_cgroup has_deadline, hstart⟩

def full_disk_events : List LifeEvent := [.child_exits (some 0), .poll .all_ready,
    .read .stdout (.data (.error (.spool_io "append" "No space left on device")))]

/-- The wait has reaped child and anchor when the line is read, and the disk under the
spool is full: the failure path signals the number of a group that is gone. -/
theorem full_disk_signals_reaped_group : ¬EachState LifeStep Contained (new false false) full_disk_events := by
  intro h
  have hrun : Run LifeStep (new false false) full_disk_events (full_disk_events.foldl handle (new false false)) :=
    .cons ⟨rfl, rfl⟩ (.cons ⟨rfl, rfl⟩ (.cons ⟨rfl, rfl⟩ (.nil _)))
  have hfenced := (h _ [] _ (List.append_nil _).symm hrun).fenced
  exact absurd hfenced (by decide)

end Lifecycle

end OpenGeni.Agent
