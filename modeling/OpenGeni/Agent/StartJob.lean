/-
A start racing with cancels (`Engine::start_job`, `Engine::cancel`).

`start_job` begins the op in the registry, spawns the child and inserts the op's mailbox
into the routes, each under its own lock. `cancel` asks the registry and, when the op is
running, looks the mailbox up and sends the kill, again one lock at a time. The op is
running in the registry before its mailbox can be found, so a cancel that looks in
between answers `KillRunning` and delivers nothing.

The state machine here is one op of a fresh engine: its `start_job`, any number of
`cancel` calls in flight, the pump at the other end of the mailbox, and the rest of the
engine, which may call the registry for other ops, collect garbage and route other
commands to the op at any time.
-/
import OpenGeni.Engine.RegistryCancel
import OpenGeni.Agent.Job

namespace OpenGeni.Agent

open OpenGeni.Lib OpenGeni.Engine

def JOB_MAILBOX_DEPTH : ℕ := 1024

/-- `StartOutcome`, without what each case carries for its caller. -/
inductive StartOutcome
  | started
  | known (answer : QueryAnswer)
  | born_cancelled
  | spawn_failed
deriving DecidableEq

/-- Where `start_job` is: before its `begin`, after a fresh one, after the spawn, after
the routes insert, or back at its caller. -/
inductive StartPc
  | idle
  | begun
  | spawned
  | inserted
  | returned (outcome : StartOutcome)
deriving DecidableEq

structure EngineState (τ : Type*) where
  registry : RegistryState τ
  pc : StartPc
  routed : Bool
  /-- The mailbox: the commands in it, those the pump received, and whether the
  receiver is still there. -/
  mailbox : List JobCommand
  received : List JobCommand
  receiving : Bool
  terminal : Bool
  /-- `cancel` calls that were told `KillRunning` and have not looked the mailbox up. -/
  to_route : ℕ
  /-- `cancel` calls that hold the mailbox's sender and have not sent. -/
  to_send : ℕ
  /-- What `cancel` calls answered before the terminal record. -/
  answered : List CancelOutcome

namespace EngineState

variable {τ : Type*}

def init (config : RegistryConfig) : EngineState τ where
  registry := .init config
  pc := .idle
  routed := false
  mailbox := []
  received := []
  receiving := false
  terminal := false
  to_route := 0
  to_send := 0
  answered := []

/-- A `cancel` call returns. Answers after the terminal record are not kept. -/
def answer (s : EngineState τ) (outcome : CancelOutcome) : EngineState τ :=
  if s.terminal then s else { s with answered := outcome :: s.answered }

/-- `try_send`: refused when the mailbox is full or its receiver gone. -/
def try_send (s : EngineState τ) (cmd : JobCommand) : EngineState τ :=
  if s.receiving ∧ s.mailbox.length < JOB_MAILBOX_DEPTH then
    { s with mailbox := s.mailbox ++ [cmd] }
  else
    s

/-- `cancel` after its registry call: deliver the kill, or return. -/
def cancelled (s : EngineState τ) (outcome : CancelOutcome) : EngineState τ :=
  if outcome = .kill_running then { s with to_route := s.to_route + 1 } else s.answer outcome

/-- `cancel` at the routes map: take the sender, or return without one. -/
def look_up (s : EngineState τ) : EngineState τ :=
  if s.routed then { s with to_route := s.to_route - 1, to_send := s.to_send + 1 }
  else { s with to_route := s.to_route - 1 }.answer .kill_running

/-- `cancel` with the sender: send the kill, and return whether or not it was taken. -/
def send_kill (s : EngineState τ) : EngineState τ :=
  ({ s with to_send := s.to_send - 1 }.try_send .cancel).answer .kill_running

end EngineState

/-- `start_job` after its `begin`. -/
def StartPc.after_begin : BeginOutcome → StartPc
  | .fresh => .begun
  | .known answer => .returned (.known answer)
  | .born_cancelled => .returned .born_cancelled

/-- The critical sections that concern the op, and everything else. -/
inductive EngineEvent (τ : Type*)
  /-- `start_job`, section by section. -/
  | begin (state : τ) (now_ms : ℕ)
  | spawn
  | spawn_fails (now_ms : ℕ)
  | insert_route
  | returns
  /-- `cancel`: the registry, the routes lookup, the send. -/
  | cancel (now_ms : ℕ)
  | look_up
  | send_kill
  /-- Another command for the op, by route or through the started job's own sender. -/
  | command (cmd : JobCommand)
  /-- The pump takes a command; the job exits (`on_exit`); the pump ends. -/
  | receive
  | exits (exit_seq now_ms : ℕ)
  | ends
  /-- The route goes, by the job's cleanup or a collection that evicted the op. -/
  | unroute
  | other (call : RegistryEvent τ)

/-- A registry call that is not one of `op`'s own: of another id, a collection, the final
ack of the op's consumer, or a duplicate start that is not fresh. -/
def Foreign {τ : Type*} (op : OpId) (r : OpRegistry τ) (e : RegistryEvent τ) : Prop := match e.call with
  | .begin id state => id ≠ op ∨ (r.begin id state e.now_ms).1 ≠ .fresh
  | .cancel id => id ≠ op
  | .complete id _ => id ≠ op
  | .final_ack _ => True
  | .gc _ => True

inductive EngineStep {τ : Type*} (op : OpId) :
    EngineState τ → EngineEvent τ → EngineState τ → Prop
  | begin {s : EngineState τ} {registry : RegistryState τ} (state : τ) (now_ms : ℕ)
      (hpc : s.pc = .idle) (hreg : RegistryStep s.registry ⟨now_ms, .begin op state⟩ registry) :
      EngineStep op s (.begin state now_ms) { s with
          registry := registry
          pc := .after_begin (s.registry.registry.begin op state now_ms).1 }
  | spawn {s : EngineState τ} (hpc : s.pc = .begun) :
      EngineStep op s .spawn { s with pc := .spawned }
  | spawn_fails {s : EngineState τ} {registry registry' : RegistryState τ} (now_ms : ℕ)
      (hpc : s.pc = .begun)
      (hcomplete : RegistryStep s.registry ⟨now_ms, .complete op 0⟩ registry)
      (hack : RegistryStep registry ⟨now_ms, .final_ack op⟩ registry') :
      EngineStep op s (.spawn_fails now_ms)
        { s with registry := registry', pc := .returned .spawn_failed, terminal := true }
  | insert_route {s : EngineState τ} (hpc : s.pc = .spawned) :
      EngineStep op s .insert_route { s with pc := .inserted, routed := true, receiving := true }
  | returns {s : EngineState τ} (hpc : s.pc = .inserted) :
      EngineStep op s .returns { s with pc := .returned .started }
  | cancel {s : EngineState τ} {registry : RegistryState τ} (now_ms : ℕ)
      (hreg : RegistryStep s.registry ⟨now_ms, .cancel op⟩ registry) :
      EngineStep op s (.cancel now_ms)
        ({ s with registry := registry }.cancelled (s.registry.registry.cancel op now_ms).1)
  | look_up {s : EngineState τ} (hcall : 0 < s.to_route) : EngineStep op s .look_up s.look_up
  | send_kill {s : EngineState τ} (hcall : 0 < s.to_send) :
      EngineStep op s .send_kill s.send_kill
  | command {s : EngineState τ} (cmd : JobCommand)
      (hpc : s.pc = .inserted ∨ s.pc = .returned .started) :
      EngineStep op s (.command cmd) (s.try_send cmd)
  | receive {s : EngineState τ} {cmd : JobCommand} {rest : List JobCommand}
      (hreceiving : s.receiving = true) (hmailbox : s.mailbox = cmd :: rest) :
      EngineStep op s .receive { s with mailbox := rest, received := s.received ++ [cmd] }
  | exits {s : EngineState τ} {registry : RegistryState τ} (exit_seq now_ms : ℕ)
      (hpc : s.pc = .inserted ∨ s.pc = .returned .started) (hterminal : s.terminal = false)
      (hreg : RegistryStep s.registry ⟨now_ms, .complete op exit_seq⟩ registry) :
      EngineStep op s (.exits exit_seq now_ms) { s with registry := registry, terminal := true }
  | ends {s : EngineState τ} (hterminal : s.terminal = true) :
      EngineStep op s .ends { s with receiving := false }
  | unroute {s : EngineState τ} (hterminal : s.terminal = true) :
      EngineStep op s .unroute { s with routed := false }
  | other {s : EngineState τ} {registry : RegistryState τ} (call : RegistryEvent τ)
      (hforeign : Foreign op s.registry.registry call)
      (hreg : RegistryStep s.registry call registry) :
      EngineStep op s (.other call) { s with registry := registry }

/-- **No cancelled op is left running**: if a cancel answered `TombstoneRecorded` or
`KillRunning` before the op's terminal record, then once `start_job` has returned, either
it returned `BornCancelled` or `SpawnFailed`, or a kill is in the op's mailbox or was
received from it. -/
def NoneLeftRunning {τ : Type*} (s : EngineState τ) : Prop :=
  ∀ o ∈ s.answered, o = .tombstone_recorded ∨ o = .kill_running → ∀ outcome, s.pc = .returned outcome →
      outcome = .born_cancelled ∨ outcome = .spawn_failed ∨ JobCommand.cancel ∈ s.mailbox ++ s.received

/-- What each step must meet: `start_job` begins while the tombstone of an earlier cancel
is still live; no cancel looks the mailbox up between `start_job`'s begin and its routes
insert; and no kill meets a full mailbox, unless there is one already. -/
def KillsReach {τ : Type*} (op : OpId) (s : EngineState τ) : EngineEvent τ → Prop
  | .begin _ now_ms => CancelOutcome.tombstone_recorded ∈ s.answered →
      s.registry.registry.tombstoned op now_ms = true
  | .look_up => s.pc ≠ .begun ∧ s.pc ≠ .spawned
  | .send_kill => s.mailbox.length < JOB_MAILBOX_DEPTH ∨ s.terminal = true ∨
      JobCommand.cancel ∈ s.mailbox ++ s.received
  | _ => True

/-! ## The registry's side -/

section

variable {τ : Type*} {op : OpId} {s t : RegistryState τ} {e : RegistryEvent τ}

/-- The registry has a running entry of `op`. -/
def Running (op : OpId) (s : RegistryState τ) : Prop := ∃ state cancel_requested began_at_ms,
    s.registry.ops.lookup op = some (.running state cancel_requested began_at_ms)

theorem step_keeps_unknown (hwf : s.registry.Wf) (h : RegistryStep s e t)
    (hcall : ∀ state, e.call = .begin op state → (s.registry.begin op state e.now_ms).1 ≠ .fresh)
    (hop : ¬ Knows op s) : ¬ Knows op t := by
  obtain ⟨hops, hlost⟩ := not_or.1 hop
  rintro (hmem | hmem)
  · obtain ⟨state, hbegin, hfresh⟩ := step_new_op hwf h hops hmem
    exact hcall state hbegin hfresh
  · obtain ⟨-, -, hlive, -⟩ := step_records_marker hwf h hlost hmem
    exact hops hlive

theorem Foreign.not_fresh (h : Foreign op s.registry e) (state : τ)
    (hcall : e.call = .begin op state) : (s.registry.begin op state e.now_ms).1 ≠ .fresh := by
  unfold Foreign at h
  rw [hcall] at h
  exact h.resolve_left (fun hne => hne rfl)

theorem Foreign.not_complete (h : Foreign op s.registry e) (exit_seq : ℕ) : e.call ≠ .complete op exit_seq := by
  intro hcall
  unfold Foreign at h
  rw [hcall] at h
  exact h rfl

theorem Running.step (hop : Running op s) (hwf : s.registry.Wf) (h : RegistryStep s e t)
    (hcall : ∀ exit_seq, e.call ≠ .complete op exit_seq) : Running op t := by
  obtain ⟨state, _, began_at_ms, hrun⟩ := hop
  obtain ⟨_, hrun'⟩ := step_keeps_running hwf h hcall hrun
  exact ⟨state, _, began_at_ms, hrun'⟩

theorem Running.cancel (hop : Running op s) (now_ms : ℕ) : (s.registry.cancel op now_ms).1 = .kill_running := by
  obtain ⟨state, cancel_requested, began_at_ms, hrun⟩ := hop
  unfold OpRegistry.cancel
  rw [hrun]

theorem cancel_of_unknown (hop : ¬ Knows op s) (now_ms : ℕ) :
    (s.registry.cancel op now_ms).1 = .tombstone_recorded := by
  obtain ⟨hops, hlost⟩ := not_or.1 hop
  unfold OpRegistry.cancel
  rw [AList.lookup_eq_none.2 hops, AList.lookup_eq_none.2 hlost]
  dsimp only
  split <;> rfl

end

/-! ## The phase the op is in -/

section

variable {τ : Type*} {op : OpId} {s t : EngineState τ} {e : EngineEvent τ}

def Opening (s : EngineState τ) : Prop := s.pc = .begun ∨ s.pc = .spawned

def Launched (s : EngineState τ) : Prop := s.pc = .inserted ∨ s.pc = .returned .started

structure Phase (op : OpId) (s : EngineState τ) : Prop where
  wf : s.registry.registry.Wf
  unknown : s.pc = .idle ∨ s.pc = .returned .born_cancelled → ¬ Knows op s.registry
  not_known : ∀ answer, s.pc ≠ .returned (.known answer)
  running : Opening s ∨ Launched s → s.terminal = false → Running op s.registry

theorem Phase.registry (h : Phase op s) {call : RegistryEvent τ} {registry : RegistryState τ}
    (hreg : RegistryStep s.registry call registry)
    (hbegin : ∀ state, call.call = .begin op state → (s.registry.registry.begin op state call.now_ms).1 ≠ .fresh)
    (hcomplete : ∀ exit_seq, call.call ≠ .complete op exit_seq) :
    Phase op { s with registry := registry } where
  wf := (registry_step_effect h.wf hreg).1
  unknown hpc := step_keeps_unknown h.wf hreg hbegin (h.unknown hpc)
  not_known := h.not_known
  running hpc hterminal := (h.running hpc hterminal).step h.wf hreg hcomplete

theorem answer_eq (s : EngineState τ) (o : CancelOutcome) :
    s.answer o = { s with answered := if s.terminal then s.answered else o :: s.answered } := by
  unfold EngineState.answer
  split <;> rfl

theorem try_send_eq (s : EngineState τ) (cmd : JobCommand) : s.try_send cmd = { s with
      mailbox := if s.receiving ∧ s.mailbox.length < JOB_MAILBOX_DEPTH then s.mailbox ++ [cmd]
        else s.mailbox } := by
  unfold EngineState.try_send
  split <;> rfl

theorem cancelled_phase (s : EngineState τ) (o : CancelOutcome) :
    (s.cancelled o).registry = s.registry ∧ (s.cancelled o).pc = s.pc ∧ (s.cancelled o).terminal = s.terminal := by
  unfold EngineState.cancelled
  split
  · exact ⟨rfl, rfl, rfl⟩
  · rw [answer_eq]
    exact ⟨rfl, rfl, rfl⟩

theorem look_up_phase (s : EngineState τ) :
    s.look_up.registry = s.registry ∧ s.look_up.pc = s.pc ∧ s.look_up.terminal = s.terminal := by
  unfold EngineState.look_up
  split
  · exact ⟨rfl, rfl, rfl⟩
  · rw [answer_eq]
    exact ⟨rfl, rfl, rfl⟩

theorem send_kill_phase (s : EngineState τ) : s.send_kill.registry = s.registry ∧ s.send_kill.pc = s.pc ∧
      s.send_kill.terminal = s.terminal := by
  unfold EngineState.send_kill
  rw [answer_eq, try_send_eq]
  exact ⟨rfl, rfl, rfl⟩

theorem Phase.congr (h : Phase op s) (hreg : t.registry = s.registry) (hpc : t.pc = s.pc)
    (hterminal : t.terminal = s.terminal) : Phase op t := by
  refine ⟨hreg ▸ h.wf, ?_, ?_, ?_⟩
  · rw [hreg, hpc]
    exact h.unknown
  · rw [hpc]
    exact h.not_known
  · unfold Opening Launched
    rw [hreg, hpc, hterminal]
    exact h.running

/-- **One step** stays in its phase or goes to the next. -/
theorem phase_step (h : Phase op s) (hstep : EngineStep op s e t) : Phase op t := by
  cases hstep with
  | @begin _ state now_ms hpc hreg =>
    have hunknown := h.unknown (Or.inl hpc)
    have hwf := (registry_step_effect h.wf hreg).1
    by_cases hfresh : (s.registry.registry.begin op state now_ms).1 = .fresh
    · -- fresh: the op is running from here on
      refine ⟨hwf, ?_, ?_, ?_⟩
      · rw [hfresh]
        rintro (⟨⟨⟩⟩ | ⟨⟨⟩⟩)
      · rw [hfresh]
        rintro _ ⟨⟩
      · intro _ _
        refine ⟨state, false, now_ms, ?_⟩
        rw [hreg.registry_eq]
        unfold OpRegistry.after
        dsimp only
        rw [OpRegistry.begin_fresh state hfresh]
        exact AList.lookup_insert _
    · -- an unknown op is refused under a tombstone, and nothing changes
      have hborn : (s.registry.registry.begin op state now_ms).1 = .born_cancelled := by
        rw [OpRegistry.begin_fresh_iff] at hfresh
        rw [OpRegistry.begin_born_cancelled_iff]
        obtain ⟨hops, hlost⟩ := not_or.1 hunknown
        by_contra hlive
        exact hfresh ⟨Bool.eq_false_iff.2 hlive, hops, hlost⟩
      refine ⟨hwf, fun _ => ?_, ?_, ?_⟩
      · refine step_keeps_unknown h.wf hreg (fun state' hcall => ?_) hunknown
        cases hcall
        exact hfresh
      · rw [hborn]
        rintro _ ⟨⟩
      · rw [hborn]
        rintro ((⟨⟨⟩⟩ | ⟨⟨⟩⟩) | (⟨⟨⟩⟩ | ⟨⟨⟩⟩))
  | spawn hpc =>
    refine ⟨h.wf, ?_, ?_, fun _ hterminal => h.running (Or.inl (Or.inl hpc)) hterminal⟩
    · rintro (⟨⟨⟩⟩ | ⟨⟨⟩⟩)
    · rintro _ ⟨⟩
  | spawn_fails now_ms hpc hcomplete hack =>
    have hwf := (registry_step_effect h.wf hcomplete).1
    refine ⟨(registry_step_effect hwf hack).1, ?_, ?_, ?_⟩
    · rintro (⟨⟨⟩⟩ | ⟨⟨⟩⟩)
    · rintro _ ⟨⟩
    · rintro ((⟨⟨⟩⟩ | ⟨⟨⟩⟩) | (⟨⟨⟩⟩ | ⟨⟨⟩⟩))
  | insert_route hpc =>
    refine ⟨h.wf, ?_, ?_, fun _ hterminal => h.running (Or.inl (Or.inr hpc)) hterminal⟩
    · rintro (⟨⟨⟩⟩ | ⟨⟨⟩⟩)
    · rintro _ ⟨⟩
  | returns hpc =>
    refine ⟨h.wf, ?_, ?_, fun _ hterminal => h.running (Or.inr (Or.inl hpc)) hterminal⟩
    · rintro (⟨⟨⟩⟩ | ⟨⟨⟩⟩)
    · rintro _ ⟨⟩
  | cancel now_ms hreg =>
    obtain ⟨hregistry, hpc, hterminal⟩ := cancelled_phase { s with registry := _ } _
    refine (h.registry hreg ?_ ?_).congr hregistry hpc hterminal
    · rintro _ ⟨⟩
    · rintro _ ⟨⟩
  | look_up =>
    obtain ⟨hregistry, hpc, hterminal⟩ := look_up_phase s
    exact h.congr hregistry hpc hterminal
  | send_kill =>
    obtain ⟨hregistry, hpc, hterminal⟩ := send_kill_phase s
    exact h.congr hregistry hpc hterminal
  | command cmd =>
    rw [try_send_eq]
    exact h.congr rfl rfl rfl
  | @exits registry exit_seq now_ms hpc hterminal hreg =>
    refine ⟨(registry_step_effect h.wf hreg).1, ?_, h.not_known, fun _ hterminal => ?_⟩
    · intro hidle
      rcases hpc with hpc | hpc <;> rw [hpc] at hidle <;> rcases hidle with ⟨⟨⟩⟩ | ⟨⟨⟩⟩
    · contradiction
  | other call hforeign hreg =>
    exact h.registry hreg hforeign.not_fresh hforeign.not_complete
  | _ => exact h.congr rfl rfl rfl

/-! ## Where the kills are -/

/-- Before the mailbox can be found no kill was answered, and after it can, a kill that
was answered is in it. -/
structure Delivery (s : EngineState τ) : Prop where
  early : s.pc = .idle ∨ Opening s → s.terminal = false ∧ s.to_send = 0 ∧ CancelOutcome.kill_running ∉ s.answered
  idle : s.pc = .idle → s.to_route = 0
  opening : Opening s → CancelOutcome.tombstone_recorded ∉ s.answered
  found : Launched s → s.terminal = false → s.routed = true ∧ s.receiving = true
  reached : Launched s → ∀ o ∈ s.answered, o = .tombstone_recorded ∨ o = .kill_running →
    JobCommand.cancel ∈ s.mailbox ++ s.received

theorem Delivery.of_refused {outcome : StartOutcome} (hpc : s.pc = .returned outcome)
    (houtcome : outcome ≠ .started) : Delivery s := by
  have hidle : s.pc ≠ .idle := by rw [hpc]; rintro ⟨⟩
  have hopening : ¬ Opening s := by
    unfold Opening
    rw [hpc]
    rintro (⟨⟨⟩⟩ | ⟨⟨⟩⟩)
  have hlaunched : ¬ Launched s := by
    unfold Launched
    rw [hpc]
    rintro (⟨⟨⟩⟩ | hstarted)
    exact houtcome (StartPc.returned.inj hstarted)
  exact ⟨fun h => (h.elim hidle hopening).elim, fun h => absurd h hidle,
    fun h => absurd h hopening, fun h => absurd h hlaunched, fun h => absurd h hlaunched⟩

theorem Launched.not_early (h : Launched s) : ¬ (s.pc = .idle ∨ Opening s) := by
  unfold Opening
  rcases h with h | h <;> rw [h] <;> rintro (⟨⟨⟩⟩ | ⟨⟨⟩⟩ | ⟨⟨⟩⟩)

theorem Delivery.cancelled (h : Delivery s) (hphase : Phase op s) (registry : RegistryState τ) (now_ms : ℕ) :
    Delivery ({ s with registry := registry }.cancelled (s.registry.registry.cancel op now_ms).1) := by
  -- a running op's cancel is told to kill
  have hrunning : Opening s ∨ Launched s → s.terminal = false →
      (s.registry.registry.cancel op now_ms).1 = .kill_running := fun hpc hterminal =>
    (hphase.running hpc hterminal).cancel now_ms
  unfold EngineState.cancelled
  split
  · -- told to kill: the op is not idle, and nothing is answered yet
    refine ⟨h.early, fun hidle => ?_, h.opening, h.found, h.reached⟩
    rw [cancel_of_unknown (hphase.unknown (Or.inl hidle))] at *
    contradiction
  · rename_i hkill
    rw [answer_eq]
    refine ⟨fun hpc => ⟨(h.early hpc).1, (h.early hpc).2.1, ?_⟩, h.idle, fun hpc => ?_, h.found, fun hpc => ?_⟩
    · rw [if_neg (by rw [(h.early hpc).1]; exact Bool.false_ne_true), List.mem_cons, not_or]
      exact ⟨fun he => hkill he.symm, (h.early hpc).2.2⟩
    · exact absurd (hrunning (Or.inl hpc) (h.early (Or.inr hpc)).1) hkill
    · -- after the terminal record the answer is not kept
      cases hterminal : s.terminal
      · exact absurd (hrunning (Or.inr hpc) hterminal) hkill
      · exact h.reached hpc

theorem Delivery.look_up (h : Delivery s) (hcall : 0 < s.to_route)
    (hopening : ¬ Opening s) : Delivery s.look_up := by
  have hearly : ¬ (s.pc = .idle ∨ Opening s) := by
    rintro (hidle | hpc)
    · have := h.idle hidle
      omega
    · exact hopening hpc
  have hidle : s.pc ≠ .idle := fun hidle => hearly (Or.inl hidle)
  unfold EngineState.look_up
  split
  · exact ⟨fun hpc => absurd hpc hearly, fun hpc => absurd hpc hidle,
      fun hpc => absurd hpc hopening, h.found, h.reached⟩
  · rename_i hrouted
    rw [answer_eq]
    refine ⟨fun hpc => absurd hpc hearly, fun hpc => absurd hpc hidle,
      fun hpc => absurd hpc hopening, h.found, fun hpc => ?_⟩
    cases hterminal : s.terminal
    · exact absurd (h.found hpc hterminal).1 hrouted
    · exact h.reached hpc

theorem Delivery.send_kill (h : Delivery s) (hcall : 0 < s.to_send)
    (hroom : s.mailbox.length < JOB_MAILBOX_DEPTH ∨ s.terminal = true ∨
      JobCommand.cancel ∈ s.mailbox ++ s.received) : Delivery s.send_kill := by
  have hearly : ¬ (s.pc = .idle ∨ Opening s) := fun hpc => by
    have := (h.early hpc).2.1
    omega
  unfold EngineState.send_kill
  rw [answer_eq, try_send_eq]
  refine ⟨fun hpc => absurd hpc hearly, fun hpc => absurd (Or.inl hpc) hearly,
    fun hpc => absurd (Or.inr hpc) hearly, h.found, fun hpc o ho hkind => ?_⟩
  have hkept : JobCommand.cancel ∈ s.mailbox ++ s.received →
      JobCommand.cancel ∈ (if s.receiving = true ∧ s.mailbox.length < JOB_MAILBOX_DEPTH then
        s.mailbox ++ [JobCommand.cancel] else s.mailbox) ++ s.received := fun hmem => by
    split
    · exact List.mem_append_left _ (List.mem_append_right _ (List.mem_singleton_self _))
    · exact hmem
  cases hterminal : s.terminal
  · rcases hroom with hroom | hroom | hroom
    · rw [if_pos ⟨(h.found hpc hterminal).2, hroom⟩]
      exact List.mem_append_left _ (List.mem_append_right _ (List.mem_singleton_self _))
    · rw [hterminal] at hroom
      contradiction
    · exact hkept hroom
  · rw [if_pos hterminal] at ho
    exact hkept (h.reached hpc o ho hkind)

/-- **One step** that meets the condition keeps the kills where they should be. -/
theorem delivery_step (h : Delivery s) (hphase : Phase op s) (hstep : EngineStep op s e t)
    (hok : KillsReach op s e) : Delivery t := by
  cases hstep with
  | @begin _ state now_ms hpc hreg =>
    by_cases hfresh : (s.registry.registry.begin op state now_ms).1 = .fresh
    · rw [hfresh]
      -- a fresh begin is not under a live tombstone
      have hlive := ((OpRegistry.begin_fresh_iff _ _ _ _).1 hfresh).1
      refine ⟨fun _ => h.early (Or.inl hpc), by rintro ⟨⟩, fun _ hmem => ?_, ?_, ?_⟩
      · have htomb := hok hmem
        rw [hlive] at htomb
        contradiction
      · rintro (⟨⟨⟩⟩ | ⟨⟨⟩⟩)
      · rintro (⟨⟨⟩⟩ | ⟨⟨⟩⟩)
    · cases hres : (s.registry.registry.begin op state now_ms).1 with
      | fresh => exact absurd hres hfresh
      | known | born_cancelled => exact .of_refused rfl (by rintro ⟨⟩)
  | spawn hpc =>
    have hopening : Opening s := Or.inl hpc
    refine ⟨fun _ => h.early (Or.inr hopening), by rintro ⟨⟩, fun _ => h.opening hopening, ?_, ?_⟩
    · rintro (⟨⟨⟩⟩ | ⟨⟨⟩⟩)
    · rintro (⟨⟨⟩⟩ | ⟨⟨⟩⟩)
  | spawn_fails => exact .of_refused rfl (by rintro ⟨⟩)
  | insert_route hpc =>
    have hopening : Opening s := Or.inr hpc
    have hkill := (h.early (Or.inr hopening)).2.2
    refine ⟨?_, by rintro ⟨⟩, ?_, fun _ _ => ⟨rfl, rfl⟩, ?_⟩
    · rintro (⟨⟨⟩⟩ | ⟨⟨⟩⟩ | ⟨⟨⟩⟩)
    · rintro (⟨⟨⟩⟩ | ⟨⟨⟩⟩)
    · rintro - o ho (rfl | rfl)
      · exact absurd ho (h.opening hopening)
      · exact absurd ho hkill
  | returns hpc =>
    refine ⟨?_, by rintro ⟨⟩, ?_, fun _ => h.found (Or.inl hpc), fun _ => h.reached (Or.inl hpc)⟩
    · rintro (⟨⟨⟩⟩ | ⟨⟨⟩⟩ | ⟨⟨⟩⟩)
    · rintro (⟨⟨⟩⟩ | ⟨⟨⟩⟩)
  | cancel now_ms hreg => exact h.cancelled hphase _ now_ms
  | look_up hcall => exact h.look_up hcall (not_or.2 hok)
  | send_kill hcall => exact h.send_kill hcall hok
  | command cmd =>
    rw [try_send_eq]
    refine ⟨h.early, h.idle, h.opening, h.found, fun hpc o ho hkind => ?_⟩
    have hmem := h.reached hpc o ho hkind
    split
    · rw [List.append_assoc, List.mem_append]
      exact (List.mem_append.1 hmem).imp_right (List.mem_append_right _)
    · exact hmem
  | @receive cmd rest hreceiving hmailbox =>
    refine ⟨h.early, h.idle, h.opening, h.found, fun hpc o ho hkind => ?_⟩
    have hmem := h.reached hpc o ho hkind
    rw [hmailbox] at hmem
    -- the command moves from the head of the mailbox to the end of what was received
    simp only [List.cons_append, List.mem_cons, List.mem_append, List.not_mem_nil, or_false] at hmem ⊢
    rcases hmem with hmem | hmem | hmem
    · exact Or.inr (Or.inr hmem)
    · exact Or.inl hmem
    · exact Or.inr (Or.inl hmem)
  | exits exit_seq now_ms hpc =>
    have hlaunched : Launched s := hpc
    exact ⟨fun hearly => absurd hearly hlaunched.not_early, h.idle, h.opening,
      fun _ hterminal => by contradiction, h.reached⟩
  | ends hterminal =>
    refine ⟨h.early, h.idle, h.opening, fun _ hfalse => ?_, h.reached⟩
    rw [hterminal] at hfalse
    contradiction
  | unroute hterminal =>
    refine ⟨h.early, h.idle, h.opening, fun _ hfalse => ?_, h.reached⟩
    rw [hterminal] at hfalse
    contradiction
  | other => exact ⟨h.early, h.idle, h.opening, h.found, h.reached⟩

/-! ## Whole runs -/

theorem Phase.init (config : RegistryConfig) : Phase op (EngineState.init config : EngineState τ)
    where
  wf := .new config
  unknown _ hknows := hknows.elim (AList.notMem_empty op) (AList.notMem_empty op)
  not_known _ := by rintro ⟨⟩
  running := by rintro ((⟨⟨⟩⟩ | ⟨⟨⟩⟩) | (⟨⟨⟩⟩ | ⟨⟨⟩⟩))

theorem Delivery.init (config : RegistryConfig) : Delivery (EngineState.init config : EngineState τ) where
  early _ := ⟨rfl, rfl, List.not_mem_nil⟩
  idle _ := rfl
  opening _ := List.not_mem_nil
  found := by rintro (⟨⟨⟩⟩ | ⟨⟨⟩⟩)
  reached _ o ho := absurd ho List.not_mem_nil

theorem Delivery.none_left (h : Delivery s) (hphase : Phase op s) : NoneLeftRunning s := by
  intro o ho hkind outcome hpc
  cases outcome with
  | started => exact Or.inr (Or.inr (h.reached (Or.inr hpc) o ho hkind))
  | known answer => exact absurd hpc (hphase.not_known answer)
  | born_cancelled => exact Or.inl rfl
  | spawn_failed => exact Or.inr (Or.inl rfl)

end

/-- **Cancels that reach.** In every run all of whose steps meet `KillsReach`, no
cancelled op is left running. -/
theorem cancelled_op_is_not_left_running {τ : Type*} {config : RegistryConfig} {op : OpId}
    {es : List (EngineEvent τ)} {s : EngineState τ}
    (h : Run (Restrict (EngineStep op) (KillsReach op)) (.init config) es s) :
    NoneLeftRunning s := by
  obtain ⟨hphase, hdelivery⟩ := h.invariant (P := fun s : EngineState τ => Phase op s ∧ Delivery s)
    (fun s e t hstep hs => ⟨phase_step hs.1 hstep.1, delivery_step hs.2 hs.1 hstep.1 hstep.2⟩)
    ⟨.init config, .init config⟩
  exact hdelivery.none_left hphase

/-- A cancel after the start has returned is delivered, and the law holds. -/
theorem late_cancel_reaches : ∃ s : EngineState Unit,
    s.pc = .returned .started ∧ s.answered = [.kill_running] ∧ NoneLeftRunning s := by
  have hbegin : Run (Restrict (EngineStep ⟨"op"⟩) (KillsReach ⟨"op"⟩))
      (EngineState.init .default) [.begin () 0] _ :=
    .single ⟨.begin () 0 rfl (.of_call _ (Nat.le_refl 0) (by decide) (by rintro _ ⟨⟩)),
      fun h => absurd h List.not_mem_nil⟩
  have hstart := ((hbegin.snoc ⟨.spawn rfl, trivial⟩).snoc ⟨.insert_route rfl, trivial⟩).snoc
    ⟨.returns rfl, trivial⟩
  have hcancel := hstart.snoc ⟨.cancel 1 (.of_call _ (by decide) (by decide) (by rintro _ ⟨⟩)), trivial⟩
  have hfound := hcancel.snoc ⟨.look_up (by decide), by constructor <;> decide⟩
  have hsent := hfound.snoc ⟨.send_kill (by decide), Or.inl (by decide)⟩
  exact ⟨_, rfl, rfl, cancelled_op_is_not_left_running hsent⟩

/-- A cancel between the begin and the routes insert answers `KillRunning` and delivers
nothing: the start returns, and no kill is in the mailbox or was received. -/
theorem early_cancel_is_lost : ¬ ∀ (op : OpId) (es : List (EngineEvent Unit)) (s : EngineState Unit),
    Run (EngineStep op) (.init .default) es s → NoneLeftRunning s := by
  intro h
  have hbegin : Run (EngineStep ⟨"op"⟩) (EngineState.init .default : EngineState Unit) [.begin () 0] _ :=
    .single (.begin () 0 rfl (.of_call _ (Nat.le_refl 0) (by decide) (by rintro _ ⟨⟩)))
  have hcancel := (hbegin.snoc (.spawn rfl)).snoc (.cancel 1 (.of_call _ (by decide) (by decide) (by rintro _ ⟨⟩)))
  have hstart := ((hcancel.snoc (.look_up (by decide))).snoc (.insert_route rfl)).snoc (.returns rfl)
  rcases h _ _ _ hstart .kill_running (by decide) (Or.inr rfl) .started rfl with
    hborn | hfailed | hmem
  · contradiction
  · contradiction
  · exact absurd hmem (by decide)

end OpenGeni.Agent
