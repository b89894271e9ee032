/-
The pump of `Job.lean` has the life cycle of `ProcessGroup.lean`.

`Lifecycle` lets the retention log and the window answer as they like. Here they are the
ones the pump computes with: every step of the pump is a few steps of the life cycle,
with the answers its log gave (`pumpStep_lifecycle`), and so is every run
(`pump_run_lifecycle`). What holds of every run of the life cycle therefore holds of
the pump.
-/
import OpenGeni.Agent.ProcessGroup

namespace OpenGeni.Agent

open OpenGeni.Lib OpenGeni.Engine

namespace Pump

/-- What the life cycle reads of the pump. -/
def life (p : Pump) :=
  (p.child_done, p.child_code, p.stdout, p.stderr, p.mailbox_closed, p.pending_outcome, p.collection_failure,
    p.final_acked, p.deadline, p.exit_fence)

def SameLife (p p' : Pump) : Prop := p'.life = p.life

theorem SameLife.trans {p q r : Pump} (h : p.SameLife q) (h' : q.SameLife r) : p.SameLife r := Eq.trans h' h

/-! ## Sending is no event of the life cycle -/

theorem send_sameLife (p : Pump) (frame : Frame) : p.SameLife (p.send frame) := rfl

theorem send_bite_sameLife (frames : List Frame) (p : Pump) : p.SameLife (p.send_bite frames).2 := by
  induction frames generalizing p with
  | nil => exact rfl
  | cons frame frames ih =>
    rw [send_bite]
    split
    · exact rfl
    · exact (send_sameLife p frame).trans (ih _)

theorem catch_up_loop_sameLife (fuel : ℕ) (p : Pump) {r : Except RetentionError Unit} {p' : Pump}
    (h : catch_up_loop fuel p = some (r, p')) : p.SameLife p' := by
  induction fuel generalizing p with
  | zero => simp [catch_up_loop] at h
  | succ fuel ih =>
    have hstay {r' : Except RetentionError Unit} (hsome : some (r', p) = some (r, p')) : p.SameLife p' := by
      obtain ⟨-, rfl⟩ := Prod.mk.inj (Option.some.inj hsome)
      exact rfl
    rw [catch_up_loop] at h
    dsimp only at h
    split_ifs at h
    · exact hstay h
    · exact hstay h
    · exact hstay h
    · split at h
      · exact hstay h
      · split_ifs at h
        · exact hstay h
        · rename_i frames _ _
          have hbite := send_bite_sameLife frames p
          split at h
          · rename_i q hq
            obtain ⟨-, rfl⟩ := Prod.mk.inj (Option.some.inj h)
            rwa [hq] at hbite
          · rename_i q hq
            rw [hq] at hbite
            exact hbite.trans (ih q h)

theorem append_and_send_sameLife {p p' : Pump} {body : FrameBody} {r : Except RetentionError ℕ}
    (h : p.append_and_send body = some (r, p')) : p.SameLife p' := by
  rw [append_and_send] at h
  split at h
  · cases h
  · obtain ⟨-, rfl⟩ := Prod.mk.inj (Option.some.inj h)
    exact rfl
  · obtain ⟨-, rfl⟩ := Prod.mk.inj (Option.some.inj h)
    split <;> exact rfl

end Pump

/-! ## The simulation -/

structure Shows (p : Pump) (l : Lifecycle) : Prop where
  child_done : l.child_done = p.child_done
  child_code : l.child_code = p.child_code
  stdout : l.stdout = p.stdout
  stderr : l.stderr = p.stderr
  mailbox_closed : l.mailbox_closed = p.mailbox_closed
  pending_outcome : l.pending_outcome = p.pending_outcome
  collection_failure : l.collection_failure = p.collection_failure
  final_acked : l.final_acked = p.final_acked
  has_deadline : l.has_deadline = p.deadline.isSome
  record : l.record.isSome = p.exit_fence.isSome
  dropped : l.dropped = false
  held : l.held = fun _ => false
  ended : l.record.isSome = true → l.child_done = true
  unwaited : l.child_done = false → l.group.child = .running

namespace Shows

variable {p p' : Pump} {l : Lifecycle}

theorem sameLife (h : Shows p l) (hlife : p.SameLife p') : Shows p' l := by
  simp only [Pump.SameLife, Pump.life, Prod.mk.injEq] at hlife
  obtain ⟨hdone, hcode, hout, herr, hclosed, hpending, hfailure, hfinal, hdeadline, hfence⟩ := hlife
  exact { h with
    child_done := h.child_done.trans hdone.symm
    child_code := h.child_code.trans hcode.symm
    stdout := h.stdout.trans hout.symm
    stderr := h.stderr.trans herr.symm
    mailbox_closed := h.mailbox_closed.trans hclosed.symm
    pending_outcome := h.pending_outcome.trans hpending.symm
    collection_failure := h.collection_failure.trans hfailure.symm
    final_acked := h.final_acked.trans hfinal.symm
    has_deadline := hdeadline ▸ h.has_deadline
    record := hfence ▸ h.record }

theorem exited (h : Shows p l) : l.exited = p.exited := by
  rw [Lifecycle.exited, Pump.exited, h.child_done, h.stdout, h.stderr]

theorem fail (h : Shows p l) (failure : JobFailure) : Shows (p.fail failure) (l.fail failure) := by
  refine { h with stdout := rfl, stderr := rfl, pending_outcome := ?_ }
  show (if l.pending_outcome.isNone then _ else _) = if p.pending_outcome.isNone then _ else _
  rw [h.pending_outcome]

theorem append_or_fail (h : Shows p l) {body : FrameBody} (hstep : p.append_or_fail body = some p') :
    ∃ append, Shows p' (l.after_append append) := by
  rw [Pump.append_or_fail] at hstep
  split at hstep
  · cases hstep
  · rename_i seq q hq
    cases hstep
    exact ⟨.ok (), h.sameLife (Pump.append_and_send_sameLife hq)⟩
  · rename_i error q hq
    cases hstep
    exact ⟨.error error, (h.sameLife (Pump.append_and_send_sameLife hq)).fail _⟩

theorem on_data (h : Shows p l) {channel : Channel} {bytes : List UInt8}
    (hstep : p.on_data channel bytes = some p') : ∃ append, Shows p' (l.after_append append) := by
  refine append_or_fail (h.sameLife ?_) hstep
  cases channel <;> exact rfl

theorem drive_catch_up {p₀ : Pump} (hstep : p.drive_catch_up = some p') (h₀ : Shows p₀ l)
    (hsame : p₀.SameLife p) : ∃ replay, Shows p' (l.drive_catch_up replay) := by
  have h : Shows p l := h₀.sameLife hsame
  rw [Pump.drive_catch_up] at hstep
  split at hstep
  · cases hstep
  · rename_i q hq
    cases hstep
    exact ⟨.ok (), h.sameLife (Pump.catch_up_loop_sameLife _ p hq)⟩
  · rename_i error q hq
    have hq' : Shows q l := h.sameLife (Pump.catch_up_loop_sameLife _ p hq)
    refine ⟨.error error, ?_⟩
    rw [Lifecycle.drive_catch_up, hq'.exited]
    split at hstep <;> cases hstep
    · rw [if_pos ‹_›]
      exact { hq' with collection_failure := by rw [← hq'.collection_failure] }
    · rw [if_neg ‹_›]
      exact hq'.fail _

theorem stop (h : Shows p l) (hstep : (if !p.child_done && p.pending_outcome.isNone then
        some { p with pending_outcome := some .cancelled }.terminate_child
      else some p) = some p') : Shows p' l.stop := by
  have hguard : (!l.child_done && l.pending_outcome.isNone) = (!p.child_done && p.pending_outcome.isNone) := by
    rw [h.child_done, h.pending_outcome]
  rw [Lifecycle.stop, hguard]
  split at hstep <;> cases hstep
  · rw [if_pos ‹_›]
    exact { h with pending_outcome := rfl }
  · rw [if_neg ‹_›]
    exact h

theorem attach (h : Shows p l) {generation from_seq window_bytes : ℕ}
    (hstep : p.apply_attach generation from_seq window_bytes = some p') :
    ∃ cmd, Shows p' (l.handle_command cmd) := by
  rw [Pump.apply_attach] at hstep
  split at hstep
  · obtain ⟨replay, hshows⟩ := drive_catch_up hstep h rfl
    exact ⟨.attach true replay, hshows⟩
  · cases hstep
    exact ⟨.attach false (.ok ()), h.sameLife rfl⟩

theorem ack (h : Shows p l) {generation acked_seq credit_bytes : ℕ} {applied : Bool}
    (hstep : p.apply_ack generation acked_seq credit_bytes = some (applied, p')) :
    ∃ replay, Shows p' (if applied then l.drive_catch_up replay else l) := by
  unfold Pump.apply_ack at hstep
  dsimp only at hstep
  split at hstep
  · cases hstep
    exact ⟨.ok (), h.sameLife rfl⟩
  · split at hstep
    · cases hstep
    · obtain ⟨q, hq, hpair⟩ := Option.map_eq_some_iff.1 hstep
      cases hpair
      exact drive_catch_up hq h rfl

theorem command (h : Shows p l) {cmd : JobCommand} (hstep : p.handle_command cmd = some p') :
    ∃ cmd', Shows p' (l.handle_command cmd') := by
  cases cmd with
  | detach =>
    cases hstep
    exact ⟨.detach, h.sameLife rfl⟩
  | cancel =>
    have hcancel : Shows p { l with cancel_handled := true } := { h with }
    exact ⟨.cancel, hcancel.stop hstep⟩
  | attach generation from_seq window_bytes => exact h.attach hstep
  | ack generation acked_seq credit_bytes final_ack =>
    rw [Pump.handle_command] at hstep
    split at hstep
    · cases hstep
    · rename_i applied q hq
      obtain ⟨replay, hshows⟩ := h.ack hq
      refine ⟨.ack applied final_ack ((q.exit_fence.map fun fence => decide (fence ≤ acked_seq)).getD false) replay, ?_⟩
      rw [Lifecycle.handle_command]
      rw [hshows.record]
      cases final_ack with
      | false =>
        cases hstep
        exact hshows
      | true =>
        cases hfence : q.exit_fence with
        | none =>
          rw [if_pos rfl, hfence] at hstep
          cases hstep
          simpa using hshows
        | some fence =>
          rw [if_pos rfl, hfence] at hstep
          dsimp only at hstep
          split at hstep <;> cases hstep
          · rw [if_pos ‹_›]
            exact { hshows with
              final_acked := rfl
              record := hshows.record.trans (congrArg Option.isSome hfence) }
          · rw [if_neg ‹_›]
            exact hshows

theorem loops (h : Shows p l) (hloop : p.exited = false) (hfence : p.exit_fence = none) : l.loops = true := by
  have hrecord : l.record = none := by simpa [hfence] using h.record
  simp [Lifecycle.loops, h.exited, hloop, hrecord, h.dropped]

theorem lingers (h : Shows p l) (hfence : p.exit_fence.isSome) (hend : p.job_end = none) :
    l.lingers = true ∧ p.final_acked = false ∧ p.mailbox_closed = false := by
  have hopen : p.final_acked = false ∧ p.mailbox_closed = false := by
    rw [Pump.job_end, Option.isNone_eq_false_iff.2 hfence] at hend
    cases hfinal : p.final_acked <;> cases hclosed : p.mailbox_closed <;>
      simp [hfinal, hclosed] at hend ⊢
  refine ⟨?_, hopen⟩
  simp [Lifecycle.lingers, h.record, hfence, h.final_acked, h.mailbox_closed, hopen, h.dropped]

theorem child_exit (h : Shows p l) (code : Option ℤ) (hloops : l.loops = true) (hrunning : p.child_done = false) :
    ∃ l', Run LifeStep l [.child_exits code, .poll .all_ready] l' ∧
      Shows { p with child_done := true, child_code := code.getD (-1) } l' := by
  have hdone : l.child_done = false := h.child_done.trans hrunning
  have hexits : LifeStep l (.child_exits code) (l.handle (.child_exits code)) :=
    ⟨by simp [Lifecycle.enabled, h.unwaited hdone], rfl⟩
  obtain ⟨g', hpoll⟩ : ∃ g', (l.handle (.child_exits code)).group.poll_wait .all_ready = (some (.ok code), g') :=
    ⟨_, Prod.ext (ExecProcessGroup.poll_wait_ready rfl) rfl⟩
  have hwait : LifeStep (l.handle (.child_exits code)) (.poll .all_ready)
      ((l.handle (.child_exits code)).handle (.poll .all_ready)) := by
    refine ⟨?_, rfl⟩
    show (l.loops && !l.child_done) = true
    simp [hloops, hdone]
  refine ⟨_, .cons hexits (.single hwait), ?_⟩
  rw [Lifecycle.handle_poll_ok hpoll]
  exact { h with
    child_done := rfl, child_code := rfl, ended := fun _ => rfl, unwaited := fun hd => by cases hd }

theorem child_exit_error (h : Shows p l) (error : String) (hloops : l.loops = true) (hrunning : p.child_done = false) :
    ∃ io l', LifeStep l (.poll io) l' ∧ Shows ({ p with child_done := true }.fail (.pipe_io s!"wait: {error}")) l' := by
  have hdone : l.child_done = false := h.child_done.trans hrunning
  refine ⟨⟨some (.error error), .ok (), none, false⟩, _, ⟨by simp [Lifecycle.enabled, hloops, hdone], rfl⟩, ?_⟩
  rw [Lifecycle.handle, ExecProcessGroup.poll_wait_error (h.unwaited hdone)]
  have hdone' : Shows { p with child_done := true } { l with child_done := true } :=
    { h with child_done := rfl, ended := fun _ => rfl, unwaited := fun hd => by cases hd }
  exact hdone'.fail _

theorem wake {event : Event} (h : Shows p l) (hloop : p.exited = false)
    (hfence : p.exit_fence = none) (henabled : p.enabled event = true)
    (hstep : p.handle event = some p') :
    ∃ es l', Run LifeStep l es l' ∧ Shows p' l' := by
  have hloops : l.loops = true := h.loops hloop hfence
  -- the gate opens, where it was closed, before a read
  have hgate : LifeStep l (.gate true) { l with may_read := true } := ⟨rfl, rfl⟩
  have hopen : Shows p { l with may_read := true } := { h with }
  cases event with
  | child_exit status =>
    have hrunning : p.child_done = false := by simpa [Pump.enabled] using henabled
    cases status with
    | ok code =>
      cases hstep
      obtain ⟨l', hrun, hshows⟩ := h.child_exit code hloops hrunning
      exact ⟨_, l', hrun, hshows⟩
    | error error =>
      cases hstep
      obtain ⟨io, l', hlife, hshows⟩ := h.child_exit_error error hloops hrunning
      exact ⟨_, l', .single hlife, hshows⟩
  | command cmd =>
    have hclosed : l.mailbox_closed = false := by
      rw [h.mailbox_closed]
      simpa [Pump.enabled] using henabled
    cases cmd with
    | none =>
      have hlife : LifeStep l (.command none) (l.handle (.command none)) :=
        ⟨by simp [Lifecycle.enabled, hloops, hclosed], rfl⟩
      have hmailbox : Shows { p with mailbox_closed := true } { l with mailbox_closed := true } :=
        { h with mailbox_closed := rfl }
      exact ⟨_, _, .single hlife, hmailbox.stop hstep⟩
    | some cmd =>
      obtain ⟨cmd', hshows⟩ := h.command hstep
      have hlife : LifeStep l (.command (some cmd')) (l.handle_command cmd') :=
        ⟨by simp [Lifecycle.enabled, hloops, hclosed], rfl⟩
      exact ⟨_, _, .single hlife, hshows⟩
  | deadline =>
    cases hstep
    simp only [Pump.enabled, Bool.and_eq_true, Bool.not_eq_true'] at henabled
    obtain ⟨⟨hdeadline, hrunning⟩, hpending⟩ := henabled
    have hpasses : LifeStep l .deadline_passes { l with deadline_passed := true } :=
      ⟨h.has_deadline.trans hdeadline, rfl⟩
    have hlife : LifeStep { l with deadline_passed := true } .deadline
        (({ l with deadline_passed := true } : Lifecycle).handle .deadline) := by
      refine ⟨?_, rfl⟩
      show (l.loops && true && !l.child_done && l.pending_outcome.isNone) = true
      rw [hloops, h.child_done, hrunning, h.pending_outcome, hpending]
      rfl
    exact ⟨_, _, .cons hpasses (.single hlife), { h with pending_outcome := rfl }⟩
  | progress_tick =>
    obtain ⟨append, hshows⟩ := h.append_or_fail hstep
    have hlife : LifeStep l (.progress_tick append) (l.after_append append) := ⟨hloops, rfl⟩
    exact ⟨_, _, .single hlife, hshows⟩
  | read channel result =>
    have hpipe : l.pipe channel = true := by
      simp only [Pump.enabled, Bool.and_eq_true] at henabled
      cases channel with
      | stdout => exact h.stdout.trans henabled.1.2
      | stderr => exact h.stderr.trans henabled.1.2
      | content => simp at henabled
    have hlife (r : PipeRead) : LifeStep { l with may_read := true } (.read channel r)
        (({ l with may_read := true } : Lifecycle).handle (.read channel r)) := by
      refine ⟨?_, rfl⟩
      have hdelivers : l.held channel = false := by rw [h.held]
      cases r with
      | eof =>
        show (l.loops && true && l.pipe channel && !l.held channel) = true
        rw [hloops, hpipe, hdelivers]
        rfl
      | data | error =>
        show (l.loops && true && l.pipe channel && true) = true
        rw [hloops, hpipe]
        rfl
    rcases result with error | bytes
    · cases hstep
      exact ⟨_, _, .cons hgate (.single (hlife (.error error))), hopen.fail _⟩
    · cases bytes with
      | nil =>
        cases hstep
        refine ⟨_, _, .cons hgate (.single (hlife .eof)), ?_⟩
        cases channel with
        | stdout => exact { hopen with stdout := rfl }
        | stderr => exact { hopen with stderr := rfl }
        | content => exact hopen
      | cons b bytes =>
        obtain ⟨append, hshows⟩ := hopen.on_data hstep
        exact ⟨_, _, .cons hgate (.single (hlife (.data append))), hshows⟩

end Shows

variable {blake3 : List UInt8 → List UInt8}

/-- **One step of the pump is a few events of its life cycle.** -/
theorem pumpStep_lifecycle {p p' : Pump} {e : PumpEvent} {l : Lifecycle}
    (hstep : PumpStep blake3 p e p') (h : Shows p l) :
    ∃ es l', Run LifeStep l es l' ∧ Shows p' l' := by
  cases hstep with
  | wake hloop hfence henabled hhandle => exact h.wake hloop hfence henabled hhandle
  | finish hloop hfence hfinish =>
    have hrecord : l.record = none := by simpa [hfence] using h.record
    have hlife : LifeStep l .finish (l.handle .finish) :=
      ⟨by simp [Lifecycle.enabled, h.exited, hloop, hrecord, h.dropped], rfl⟩
    have hdone : l.child_done = true := by
      rw [h.child_done]
      simp only [Pump.exited, Bool.and_eq_true] at hloop
      exact hloop.1.1
    refine ⟨_, _, .single hlife, ?_⟩
    rw [Pump.finish] at hfinish
    split at hfinish
    · cases hfinish
    · rename_i r q hq
      cases hfinish
      have htaken : Shows { p with pending_outcome := none } { l with pending_outcome := none } :=
        { h with pending_outcome := rfl }
      have hsent := htaken.sameLife (Pump.append_and_send_sameLife hq)
      exact { hsent with record := rfl, ended := fun _ => hdone }
  | linger hfence hend hcommand =>
    obtain ⟨hlingers, -, -⟩ := h.lingers hfence hend
    obtain ⟨cmd, hshows⟩ := h.command hcommand
    have hlife : LifeStep l (.command (some cmd)) (l.handle_command cmd) := ⟨by simp [Lifecycle.enabled, hlingers], rfl⟩
    exact ⟨_, _, .single hlife, hshows⟩
  | orphan hfence hend =>
    obtain ⟨hlingers, -, -⟩ := h.lingers hfence hend
    have hlife : LifeStep l (.command none) ({ l with mailbox_closed := true } : Lifecycle).stop :=
      ⟨by simp [Lifecycle.enabled, hlingers], rfl⟩
    -- behind the record the child is reaped, so the stop does nothing
    have hdone : l.child_done = true := h.ended (h.record.trans hfence)
    have hstop : ({ l with mailbox_closed := true } : Lifecycle).stop = { l with mailbox_closed := true } := by
      rw [Lifecycle.stop]
      exact if_neg (by simp [hdone])
    rw [hstop] at hlife
    exact ⟨_, _, .single hlife, { h with mailbox_closed := rfl }⟩

theorem shows_new (retention : RetentionConfig) (hooks : JobHooks) (deadline : Option ℕ)
    (config : JobConfig) (op_cgroup : Bool) :
    Shows (.new retention hooks deadline config) (.new op_cgroup deadline.isSome) where
  child_done := rfl
  child_code := rfl
  stdout := rfl
  stderr := rfl
  mailbox_closed := rfl
  pending_outcome := rfl
  collection_failure := rfl
  final_acked := rfl
  has_deadline := rfl
  record := rfl
  dropped := rfl
  held := rfl
  ended := fun h => by cases h
  unwaited := fun _ => rfl

/-- **Every run of the pump is a run of its life cycle.** -/
theorem pump_run_lifecycle {p p' : Pump} {es : List PumpEvent} {l : Lifecycle}
    (hrun : Run (PumpStep blake3) p es p') (h : Shows p l) :
    ∃ fs l', Run LifeStep l fs l' ∧ Shows p' l' := by
  induction hrun generalizing l with
  | nil p => exact ⟨[], l, .nil l, h⟩
  | cons hstep _ ih =>
    obtain ⟨fs, l₁, hlife, h₁⟩ := pumpStep_lifecycle hstep h
    obtain ⟨gs, l₂, hrest, h₂⟩ := ih h₁
    exact ⟨fs ++ gs, l₂, hlife.append hrest, h₂⟩

end OpenGeni.Agent
