/-
A stopped job and the pipes that keep it.

A descendant that has left the process group survives every kill, and may keep the write
end of a pipe for good. The loop of the pump ends only when the child is reaped and both
pipes are dropped. A pipe is dropped at its end of file, which such a descendant
withholds, and by the failure path. A cancel, the deadline and a dropped mailbox drop
none: before the child's exit they kill the group and leave the pipes to their end of
file, and after it they do nothing at all.

So a stopped job is held open in two orders: the exit is reported with the stop
pending and a pipe held, or the stop comes behind the exit with a pipe held.
`contained` runs without the two (`ends_iff_unheld`) end by reading ends of file alone.
-/
import OpenGeni.Agent.ProcessGroup

namespace OpenGeni.Agent

open OpenGeni.Lib OpenGeni.Engine

namespace Lifecycle

/-- A cancel was handled, the deadline has passed, or the mailbox was dropped. -/
def stop_requested (l : Lifecycle) : Bool := l.cancel_handled || l.deadline_passed || l.mailbox_closed

/-- The pump holds a pipe whose write end is held from outside the group. -/
def holds_open (l : Lifecycle) : Bool :=
  !l.dropped && ((l.stdout && l.held .stdout) || (l.stderr && l.held .stderr))

/-- The child is reaped and its group killed, a stop was requested, and there is nothing
to wait for but the end of file that a descendant withholds. -/
def HeldOpen (l : Lifecycle) : Prop := l.stop_requested = true ∧ l.child_done = true ∧ l.holds_open = true

def closing : List LifeEvent := [.read .stdout .eof, .read .stderr .eof, .finish]

/-- The claim about a state: it is not held open; and where the child is reaped behind a
stop, ends of file alone lead to the terminal record, as soon as the pump may read. -/
structure Ends (l : Lifecycle) : Prop where
  free : ¬l.HeldOpen
  ends : l.stop_requested = true → l.child_done = true → l.record = none → l.dropped = false →
    l.may_read = true → ∃ es l', es ⊆ closing ∧ Run LifeStep l es l' ∧ l'.record.isSome = true

/-- The condition on an event: an exit that is reported behind a stop, and a stop that is
requested behind the exit, find no pipe held from outside. -/
def Unheld (l : Lifecycle) : LifeEvent → Prop
  | .poll io => l.stop_requested = true → l.holds_open = true →
      ∀ code, (l.group.poll_wait io).1 ≠ some (.ok code)
  | .command none => l.child_done = true → l.holds_open = false
  | .command (some .cancel) => l.child_done = true → l.holds_open = false
  | .deadline_passes => l.child_done = true → l.holds_open = false
  | _ => True

/-! ## What an event leaves as it was -/

/-- Nothing new is requested or reaped, and pipes are only closed. -/
structure Keeps (l l' : Lifecycle) : Prop where
  stop : l'.stop_requested = l.stop_requested
  done : l'.child_done = l.child_done
  status : l'.wait_status = l.wait_status
  held : l'.held = l.held
  stdout : l'.stdout = true → l.stdout = true
  stderr : l'.stderr = true → l.stderr = true
  dropped : l.dropped = true → l'.dropped = true

variable {l l' : Lifecycle} {e : LifeEvent}

theorem Keeps.holds_open (h : l.Keeps l') (hholds : l'.holds_open = true) : l.holds_open = true := by
  rw [Lifecycle.holds_open, h.held] at hholds
  rw [Lifecycle.holds_open]
  have hstdout := h.stdout
  have hstderr := h.stderr
  have hdropped := h.dropped
  grind

theorem Keeps.heldOpen (h : l.Keeps l') (hheld : l'.HeldOpen) : l.HeldOpen :=
  ⟨h.stop ▸ hheld.1, h.done ▸ hheld.2.1, h.holds_open hheld.2.2⟩

theorem keeps_refl (l : Lifecycle) : l.Keeps l := ⟨rfl, rfl, rfl, rfl, id, id, id⟩

theorem fail_keeps (l : Lifecycle) (failure : JobFailure) : l.Keeps (l.fail failure) := by
  refine ⟨rfl, rfl, rfl, rfl, ?_, ?_, id⟩ <;> intro h <;> simp [fail] at h

theorem close_pipe_keeps (l : Lifecycle) (channel : Channel) : l.Keeps (l.close_pipe channel) := by
  cases channel with
  | stdout => exact ⟨rfl, rfl, rfl, rfl, fun h => by simp [close_pipe] at h, id, id⟩
  | stderr => exact ⟨rfl, rfl, rfl, rfl, id, fun h => by simp [close_pipe] at h, id⟩
  | content => exact keeps_refl l

theorem after_append_keeps (l : Lifecycle) (r : Except RetentionError Unit) : l.Keeps (l.after_append r) := by
  cases r with
  | ok _ => exact keeps_refl l
  | error error => exact fail_keeps l _

theorem drive_catch_up_keeps (l : Lifecycle) (r : Except RetentionError Unit) : l.Keeps (l.drive_catch_up r) := by
  cases r with
  | ok _ => exact keeps_refl l
  | error error =>
    rw [drive_catch_up]
    split
    · exact ⟨rfl, rfl, rfl, rfl, id, id, id⟩
    · exact fail_keeps l _

theorem ack_keeps (l : Lifecycle) (applied final_ack reaches_fence : Bool) (replay : Except RetentionError Unit) :
    l.Keeps (l.handle_command (.ack applied final_ack reaches_fence replay)) := by
  have hcatch : l.Keeps (if applied then l.drive_catch_up replay else l) := by
    split
    · exact drive_catch_up_keeps l replay
    · exact keeps_refl l
  dsimp only [handle_command]
  generalize (if applied = true then l.drive_catch_up replay else l) = l' at hcatch
  split
  · exact ⟨hcatch.stop, hcatch.done, hcatch.status, hcatch.held, hcatch.stdout, hcatch.stderr, hcatch.dropped⟩
  · exact hcatch

theorem stop_fields (l : Lifecycle) :
    l.stop = { l with pending_outcome := l.stop.pending_outcome, group := l.stop.group } := by
  rw [stop]
  split <;> rfl

def is_stop : LifeEvent → Bool
  | .command none | .command (some .cancel) | .deadline_passes => true
  | _ => false

theorem handle_keeps (l : Lifecycle) (e : LifeEvent) :
    (∃ io, e = .poll io) ∨ (∃ channel, e = .leaves channel) ∨ is_stop e = true ∨
      (l.Keeps (l.handle e) ∧ l.Unheld e) := by
  cases e with
  | poll io => exact .inl ⟨io, rfl⟩
  | leaves channel => exact .inr (.inl ⟨channel, rfl⟩)
  | deadline_passes => exact .inr (.inr (.inl rfl))
  | child_exits _ | gate _ | deadline | finish =>
    exact .inr (.inr (.inr ⟨⟨rfl, rfl, rfl, rfl, id, id, id⟩, trivial⟩))
  | dropped => exact .inr (.inr (.inr ⟨⟨rfl, rfl, rfl, rfl, id, id, fun _ => rfl⟩, trivial⟩))
  | progress_tick append => exact .inr (.inr (.inr ⟨after_append_keeps l append, trivial⟩))
  | read channel result =>
    refine .inr (.inr (.inr ⟨?_, trivial⟩))
    cases result with
    | eof => exact close_pipe_keeps l channel
    | data append => exact after_append_keeps l append
    | error error => exact fail_keeps l _
  | command cmd =>
    rcases cmd with _ | ⟨applied, final_ack, reaches_fence, replay⟩ | ⟨accepted, replay⟩ | _ | _
    · exact .inr (.inr (.inl rfl))
    · exact .inr (.inr (.inr ⟨ack_keeps l applied final_ack reaches_fence replay, trivial⟩))
    · refine .inr (.inr (.inr ⟨?_, trivial⟩))
      cases accepted with
      | false => exact keeps_refl l
      | true => exact drive_catch_up_keeps l replay
    · exact .inr (.inr (.inr ⟨keeps_refl l, trivial⟩))
    · exact .inr (.inr (.inl rfl))

theorem unheld_stop (hstop : is_stop e = true) : l.Unheld e ↔ (l.child_done = true → l.holds_open = false) := by
  cases e with
  | deadline_passes => exact Iff.rfl
  | command cmd => rcases cmd with _ | _ | _ | _ | _ <;> first | exact Iff.rfl | cases hstop
  | _ => cases hstop

theorem handle_stop (hstop : is_stop e = true) :
    (l.handle e).stop_requested = true ∧ (l.handle e).child_done = l.child_done ∧
      (l.handle e).holds_open = l.holds_open ∧ (l.handle e).wait_status = l.wait_status ∧
      (l.handle e).stdout = l.stdout ∧ (l.handle e).stderr = l.stderr := by
  cases e with
  | deadline_passes => exact ⟨by simp [handle, stop_requested], rfl, rfl, rfl, rfl, rfl⟩
  | command cmd =>
    rcases cmd with _ | _ | _ | _ | _
    · rw [handle, stop_fields]
      exact ⟨by simp [stop_requested], rfl, rfl, rfl, rfl, rfl⟩
    · cases hstop
    · cases hstop
    · cases hstop
    · rw [handle, handle_command, stop_fields]
      exact ⟨by simp [stop_requested], rfl, rfl, rfl, rfl, rfl⟩
  | _ => cases hstop

/-! ## The claim -/

/-- The invariant: behind the child's exit the wait has returned, or the failure path has
dropped the pipes; and the record is produced behind the loop. -/
structure Served (l : Lifecycle) : Prop where
  sound : l.Sound
  done : l.child_done = true → l.wait_status.isSome = true ∨ (l.stdout = false ∧ l.stderr = false)

theorem Keeps.served (h : l.Keeps l') (hsound : l'.Sound) (hserved : l.Served) : l'.Served where
  sound := hsound
  done hdone := by
    rw [h.done] at hdone
    rw [h.status]
    refine (hserved.done hdone).imp_right fun hclosed => ⟨?_, ?_⟩
    · by_contra hopen
      simp [h.stdout (by simpa using hopen)] at hclosed
    · by_contra hopen
      simp [h.stderr (by simpa using hopen)] at hclosed

/-- **One event.** The invariant is kept; and a job that is not held open is not held open
after the event exactly if the event meets the condition. -/
theorem handle_served (h : l.Served) (henabled : l.enabled e = true) (hfree : ¬l.HeldOpen) :
    (l.handle e).Served ∧ (¬(l.handle e).HeldOpen ↔ l.Unheld e) := by
  have hsound := (handle_sound h.sound henabled).1
  obtain ⟨io, rfl⟩ | ⟨channel, rfl⟩ | hstop | hkeeps := l.handle_keeps e
  · -- the wait is polled while the child is taken for running
    have hdone : l.child_done = false := by
      simp only [enabled, Bool.and_eq_true, Bool.not_eq_true'] at henabled
      exact henabled.2
    obtain ⟨r, g', hpoll⟩ : ∃ r g', l.group.poll_wait io = (r, g') := ⟨_, _, rfl⟩
    rw [handle, hpoll] at hsound ⊢
    rw [Unheld, hpoll]
    rcases r with _ | error | code
    · refine ⟨⟨hsound, h.done⟩, iff_of_true ?_ (fun _ _ _ => by simp)⟩
      rintro ⟨-, hdone', -⟩
      simp [hdone] at hdone'
    · refine ⟨⟨hsound, fun _ => .inr ⟨rfl, rfl⟩⟩, iff_of_true ?_ (fun _ _ _ => by simp)⟩
      rintro ⟨-, -, hholds⟩
      simp [holds_open, fail] at hholds
    · refine ⟨⟨hsound, fun _ => .inl rfl⟩, ?_⟩
      constructor
      · intro hnot hrequested hholds
        exact absurd ⟨hrequested, rfl, hholds⟩ hnot
      · rintro hcond ⟨hrequested, -, hholds⟩
        exact hcond hrequested hholds code rfl
  · -- a descendant can leave only a group that the wait has not killed
    have hkilled : l.group.wait_killed_group = false := by simpa [enabled] using henabled
    refine ⟨⟨hsound, h.done⟩, iff_of_true ?_ trivial⟩
    rintro ⟨-, hdone, hholds⟩
    obtain hwaited | ⟨hstdout, hstderr⟩ := h.done hdone
    · simp [h.sound.waited hwaited] at hkilled
    · simp [holds_open, handle, hstdout, hstderr] at hholds
  · obtain ⟨hrequested, hdone, hholds, hstatus, hstdout, hstderr⟩ := handle_stop hstop
    refine ⟨⟨hsound, ?_⟩, ?_⟩
    · rw [hdone, hstatus, hstdout, hstderr]
      exact h.done
    · rw [HeldOpen, hdone, hholds, unheld_stop hstop]
      simp [hrequested]
  · exact ⟨hkeeps.1.served hsound h, iff_of_true (fun hheld => hfree (hkeeps.1.heldOpen hheld)) hkeeps.2⟩

theorem eof_step {channel : Channel} (hloops : l.loops = true) (hread : l.may_read = true)
    (hpipe : l.pipe channel = true) (hheld : l.held channel = false) :
    LifeStep l (.read channel .eof) (l.close_pipe channel) :=
  ⟨by simp [enabled, hloops, hread, hpipe, hheld], rfl⟩

theorem finish_step (hdone : l.child_done = true) (hstdout : l.stdout = false)
    (hstderr : l.stderr = false) (hrecord : l.record = none) (hdropped : l.dropped = false) :
    LifeStep l .finish (l.handle .finish) :=
  ⟨by simp [enabled, exited, hdone, hstdout, hstderr, hrecord, hdropped], rfl⟩

theorem ends_at_stderr (hdone : l.child_done = true) (hstdout : l.stdout = false)
    (hrecord : l.record = none) (hdropped : l.dropped = false) (hread : l.may_read = true)
    (hheld : l.stderr = true → l.held .stderr = false) :
    ∃ es l', es ⊆ [.read .stderr .eof, .finish] ∧ Run LifeStep l es l' ∧ l'.record.isSome = true := by
  cases hstderr : l.stderr with
  | false =>
    exact ⟨[.finish], _, by simp, .single (finish_step hdone hstdout hstderr hrecord hdropped), rfl⟩
  | true =>
    have hloops : l.loops = true := by simp [loops, exited, hstderr, hrecord, hdropped]
    have heof : LifeStep l (.read .stderr .eof) (l.close_pipe .stderr) :=
      eof_step hloops hread hstderr (hheld hstderr)
    have hfinish : LifeStep (l.close_pipe .stderr) .finish ((l.close_pipe .stderr).handle .finish) :=
      finish_step hdone hstdout rfl hrecord hdropped
    exact ⟨[.read .stderr .eof, .finish], _, by simp, .cons heof (.single hfinish), rfl⟩

/-- **The record is in reach.** Behind the child's exit, with no pipe held from outside,
ends of file alone lead to the terminal record. -/
theorem ends_of_free (hfree : ¬l.HeldOpen) : l.Ends := by
  refine ⟨hfree, fun hrequested hdone hrecord hdropped hread => ?_⟩
  have hholds : ¬l.holds_open = true := fun hholds => hfree ⟨hrequested, hdone, hholds⟩
  simp only [holds_open, hdropped, Bool.not_false, Bool.true_and, Bool.or_eq_true,
    Bool.and_eq_true, not_or, not_and, Bool.not_eq_true] at hholds
  obtain ⟨hheld_stdout, hheld_stderr⟩ := hholds
  cases hstdout : l.stdout with
  | false =>
    obtain ⟨es, l', hes, hrun, hrecord'⟩ := ends_at_stderr hdone hstdout hrecord hdropped hread hheld_stderr
    exact ⟨es, l', fun e he => List.mem_cons_of_mem _ (hes he), hrun, hrecord'⟩
  | true =>
    have hloops : l.loops = true := by simp [loops, exited, hstdout, hrecord, hdropped]
    have heof : LifeStep l (.read .stdout .eof) (l.close_pipe .stdout) :=
      eof_step hloops hread hstdout (hheld_stdout hstdout)
    obtain ⟨es, l', hes, hrun, hrecord'⟩ :=
      ends_at_stderr (l := l.close_pipe .stdout) hdone rfl hrecord hdropped hread hheld_stderr
    refine ⟨.read .stdout .eof :: es, l', ?_, .cons heof hrun, hrecord'⟩
    exact List.cons_subset.2 ⟨List.mem_cons_self, fun e he => List.mem_cons_of_mem _ (hes he)⟩

/-- **A stopped job is never held open, exactly if no exit and no stop finds a pipe held
from outside.** -/
theorem ends_iff_unheld (op_cgroup has_deadline : Bool) (es : List LifeEvent) :
    EachState LifeStep Ends (new op_cgroup has_deadline) es ↔
      EachStep LifeStep Unheld (new op_cgroup has_deadline) es := by
  apply eachState_iff_eachStep (P := fun l => l.Served ∧ ¬l.HeldOpen)
  · rintro l ⟨-, hfree⟩
    exact ends_of_free hfree
  · rintro l e _ ⟨henabled, rfl⟩ ⟨hserved, hfree⟩ hcond
    obtain ⟨hserved', hiff⟩ := handle_served hserved henabled hfree
    exact ⟨hserved', hiff.2 hcond⟩
  · rintro l e _ ⟨henabled, rfl⟩ ⟨hserved, hfree⟩ hends
    exact (handle_served hserved henabled hfree).2.1 hends.free
  · refine ⟨⟨.new op_cgroup has_deadline, fun hdone => ?_⟩, fun hheld => ?_⟩
    · simp [Lifecycle.new] at hdone
    · simp [HeldOpen, Lifecycle.new] at hheld

/-- A daemon leaves the group with stdout, the job is cancelled, and its child is
reaped. -/
def daemon_events : List LifeEvent :=
  [.leaves .stdout, .command (some .cancel), .child_exits none, .poll .all_ready, .read .stderr .eof]

theorem daemon_holds_cancelled_job_open : ¬EachState LifeStep Ends (new false true) daemon_events := by
  intro h
  have hrun : Run LifeStep (new false true) daemon_events (daemon_events.foldl handle (new false true)) :=
    .cons ⟨rfl, rfl⟩ (.cons ⟨rfl, rfl⟩ (.cons ⟨rfl, rfl⟩ (.cons ⟨rfl, rfl⟩ (.cons ⟨rfl, rfl⟩ (.nil _)))))
  have hfree := (h _ [] _ (List.append_nil _).symm hrun).free
  exact hfree ⟨rfl, rfl, rfl⟩

end Lifecycle

end OpenGeni.Agent
