/-
What the job has written, and what its frames carry of it.

Every byte the pump reads is digested and counted before it is appended, so the
totals of the terminal record count what was read. The frames carry the same bytes as
long as no append has failed; a failed append fails the job. Hence a record with an
`exited` outcome stands over frames that carry everything (`Told.ended`).

Which of these frames anybody was sent is not this file's business.
-/
import OpenGeni.Agent.JobOrder

namespace OpenGeni.Agent

open OpenGeni.Lib OpenGeni.Engine

/-! ## The bytes of a sequence of bodies -/

def payload_sum (bodies : List FrameBody) : ℕ := (bodies.map FrameBody.payload_len).sum

def bytes_of (channel : Channel) : FrameBody → List UInt8
  | .data channel' bytes => if channel' = channel then bytes else []
  | _ => []

def bytes_on (channel : Channel) (bodies : List FrameBody) : List UInt8 := bodies.flatMap (bytes_of channel)

section Bytes

variable {channel : Channel} {xs ys : List FrameBody} {body : FrameBody}

@[simp] theorem payload_sum_nil : payload_sum [] = 0 := rfl

@[simp] theorem payload_sum_cons : payload_sum (body :: xs) = body.payload_len + payload_sum xs := by
  simp [payload_sum]

@[simp] theorem payload_sum_append : payload_sum (xs ++ ys) = payload_sum xs + payload_sum ys := by
  simp [payload_sum]

@[simp] theorem bytes_on_nil : bytes_on channel [] = [] := rfl

@[simp] theorem bytes_on_cons : bytes_on channel (body :: xs) = bytes_of channel body ++ bytes_on channel xs := rfl

@[simp] theorem bytes_on_append : bytes_on channel (xs ++ ys) = bytes_on channel xs ++ bytes_on channel ys := by
  simp [bytes_on]

theorem payload_sum_le (h : xs.Sublist ys) : payload_sum xs ≤ payload_sum ys :=
  List.Sublist.sum_le_sum (h.map _) (by simp)

theorem bytes_of_nil (h : body.payload_len = 0) : bytes_of channel body = [] := by
  cases body with
  | data channel' bytes =>
    have hbytes : bytes = [] := List.eq_nil_of_length_eq_zero h
    rw [bytes_of, hbytes, ite_self]
  | progress | exit => rfl

theorem bytes_on_sublist (h : xs.Sublist ys) (hsum : payload_sum xs = payload_sum ys) :
    bytes_on channel xs = bytes_on channel ys := by
  induction h with
  | slnil => rfl
  | @cons xs ys body hsub ih =>
    have hle := payload_sum_le hsub
    rw [payload_sum_cons] at hsum
    -- The body left out carries nothing.
    have hzero : body.payload_len = 0 := by omega
    rw [ih (by omega), bytes_on_cons, bytes_of_nil hzero, List.nil_append]
  | @cons_cons xs ys body hsub ih =>
    rw [payload_sum_cons, payload_sum_cons] at hsum
    rw [bytes_on_cons, bytes_on_cons, ih (by omega)]

theorem bytes_on_length_le : (bytes_on .stdout xs).length + (bytes_on .stderr xs).length ≤ payload_sum xs := by
  induction xs with
  | nil => exact Nat.le_refl 0
  | cons body xs ih =>
    have hbody : (bytes_of .stdout body).length + (bytes_of .stderr body).length ≤ body.payload_len := by
      cases body with
      | data channel bytes => cases channel <;> simp [bytes_of, FrameBody.payload_len]
      | progress | exit => simp [bytes_of]
    simp only [bytes_on_cons, List.length_append, payload_sum_cons]
    omega

end Bytes

/-! ## The output of a job -/

structure Output where
  stdout : List UInt8
  stdout_total : ℕ
  stderr : List UInt8
  stderr_total : ℕ

namespace Output

def read (o : Output) : FrameBody → Output
  | .data .stdout bytes =>
    { o with stdout := o.stdout ++ bytes, stdout_total := o.stdout_total + bytes.length }
  | .data .stderr bytes =>
    { o with stderr := o.stderr ++ bytes, stderr_total := o.stderr_total + bytes.length }
  | _ => o

structure Counted (o : Output) : Prop where
  stdout : o.stdout_total = o.stdout.length
  stderr : o.stderr_total = o.stderr.length

structure CarriedBy (o : Output) (bodies : List FrameBody) : Prop where
  stdout : bytes_on .stdout bodies = o.stdout
  stderr : bytes_on .stderr bodies = o.stderr
  total : payload_sum bodies = o.stdout_total + o.stderr_total

variable {o : Output} {bodies : List FrameBody}

theorem Counted.read (h : o.Counted) (body : FrameBody) : (o.read body).Counted := by
  cases body with
  | data channel bytes =>
    cases channel with
    | stdout => exact ⟨by simp [Output.read, h.stdout], h.stderr⟩
    | stderr => exact ⟨h.stdout, by simp [Output.read, h.stderr]⟩
    | content => exact h
  | progress | exit => exact h

def OfPipes : FrameBody → Prop
  | .data .content _ => False
  | .exit payload => payload = []
  | _ => True

theorem CarriedBy.read (h : o.CarriedBy bodies) {body : FrameBody} (hbody : OfPipes body) :
    (o.read body).CarriedBy (bodies ++ [body]) := by
  obtain ⟨hstdout, hstderr, htotal⟩ := h
  cases body with
  | data channel bytes =>
    cases channel with
    | stdout =>
      refine ⟨by simp [Output.read, bytes_of, hstdout], by simp [Output.read, bytes_of, hstderr], ?_⟩
      simp only [payload_sum_append, payload_sum_cons, payload_sum_nil, htotal]
      show _ + (bytes.length + 0) = o.stdout_total + bytes.length + o.stderr_total
      omega
    | stderr =>
      refine ⟨by simp [Output.read, bytes_of, hstdout], by simp [Output.read, bytes_of, hstderr], ?_⟩
      simp only [payload_sum_append, payload_sum_cons, payload_sum_nil, htotal]
      show _ + (bytes.length + 0) = o.stdout_total + (o.stderr_total + bytes.length)
      omega
    | content => exact hbody.elim
  | progress => exact ⟨by simp [Output.read, bytes_of, hstdout], by simp [Output.read, bytes_of, hstderr], by simp [Output.read, htotal]⟩
  | exit payload =>
    obtain rfl : payload = [] := hbody
    exact ⟨by simp [Output.read, bytes_of, hstdout], by simp [Output.read, bytes_of, hstderr],
      by simp [Output.read, htotal, FrameBody.payload_len]⟩

end Output

namespace Pump

def output (p : Pump) : Output := ⟨p.stdout_hash, p.stdout_total, p.stderr_hash, p.stderr_total⟩

/-- An outcome the pump has decided on, other than to let the child's exit stand. -/
def Spoiled (p : Pump) : Prop := ∃ o, p.pending_outcome = some o ∧ ∀ code, o ≠ .exited code

/-! ## What one step does to the output -/

/-- `p'` has read what `p` has read, and is no less spoiled. -/
structure SameOutput (p p' : Pump) : Prop where
  output : p'.output = p.output
  hooks : p'.hooks = p.hooks
  pending : p'.pending_outcome = p.pending_outcome ∨ p'.Spoiled

/-- What a step does to the output and to the frames that carry it. -/
inductive OutputStep (blake3 : List UInt8 → List UInt8) (p : Pump) (e : PumpEvent) (p' : Pump) :
    Prop
  | same (hout : p.SameOutput p') (hexits : p'.exits = p.exits)
      (hfence : p'.exit_fence = p.exit_fence)
      (hseq : p'.retention.next_seq = p.retention.next_seq)
  /-- A body is read; it is numbered, or the job is failed. -/
  | reads (body : FrameBody) (hpipes : Output.OfPipes body)
      (happ : p.appended blake3 e = some body) (hout : p'.output = p.output.read body)
      (hhooks : p'.hooks = p.hooks) (hfence : p.exit_fence = none)
      (hexits : p'.exits = p.exits) (hopen : p'.exit_fence = none)
      (hcase : p'.retention.next_seq = p.retention.next_seq + 1 ∧ p'.pending_outcome = p.pending_outcome ∨ p'.Spoiled)
  | finishes (duration_ms : ℕ)
      (happ : p.appended blake3 e = some (.exit (p.hooks.encode_exit (p.exit_record blake3 duration_ms))))
      (hout : p'.output = p.output) (hhooks : p'.hooks = p.hooks)
      (hexits : ∃ seq, p'.exits = p.exits ++ [(seq, p.exit_record blake3 duration_ms)])
      (hfence : p.exit_fence = none) (hset : p'.exit_fence.isSome = true)
      (hpending : p'.pending_outcome = none)

section Steps

variable {p p' : Pump} {l : Link} {blake3 : List UInt8 → List UInt8} {e : PumpEvent}

theorem LinkOnly.sameOutput (h : p.LinkOnly p') : p.SameOutput p' := by
  have hfields := h.fields
  refine ⟨?_, ?_, Or.inl ?_⟩
  · rw [hfields]
    rfl
  · rw [hfields]
  · rw [hfields]

theorem fail_spoiled (p : Pump) (failure : JobFailure) (h : p.pending_outcome = none ∨ p.Spoiled) :
    (p.fail failure).Spoiled := by
  rcases h with hnone | ⟨o, hsome, hother⟩
  · refine ⟨.failed failure, ?_, fun code => by simp⟩
    simp [fail, hnone]
  · refine ⟨o, ?_, hother⟩
    simp [fail, hsome]

theorem handle_command_output (h : p.Models l) {cmd : JobCommand}
    (hres : p.handle_command cmd = some p') : p.SameOutput p' := by
  cases cmd with
  | ack generation acked_seq credit_bytes final_ack =>
    obtain ⟨applied, q, happ, honly, -, -⟩ := apply_ack_models h generation acked_seq credit_bytes
    have hsame := honly.sameOutput
    rw [handle_command, happ] at hres
    dsimp only at hres
    -- The final flag is all that is left to look at.
    have hflag : p' = q ∨ p' = { q with final_acked := true } := by
      split at hres
      · split at hres
        · split at hres
          · exact Or.inr (Option.some.inj hres).symm
          · exact Or.inl (Option.some.inj hres).symm
        · exact Or.inl (Option.some.inj hres).symm
      · exact Or.inl (Option.some.inj hres).symm
    rcases hflag with rfl | rfl
    · exact hsame
    · exact ⟨hsame.output, hsame.hooks, hsame.pending⟩
  | attach generation from_seq window_bytes =>
    obtain ⟨q, happ, honly, -⟩ := apply_attach_models h generation from_seq window_bytes
    rw [handle_command, happ] at hres
    cases hres
    exact honly.sameOutput
  | detach =>
    cases hres
    exact ⟨rfl, rfl, Or.inl rfl⟩
  | cancel =>
    rw [handle_command] at hres
    split_ifs at hres
    · cases hres
      exact ⟨rfl, rfl, Or.inr ⟨.cancelled, rfl, fun code => by simp⟩⟩
    · cases hres
      exact ⟨rfl, rfl, Or.inl rfl⟩

theorem append_or_fail_output (h : p.Models l) {body : FrameBody} (hfit : (⟨p.retention.next_seq, body⟩ : Frame).Fits)
    (hpending : p.pending_outcome = none ∨ p.Spoiled) (hres : p.append_or_fail body = some p') :
    p'.output = p.output ∧ p'.hooks = p.hooks ∧ p'.exits = p.exits ∧ p'.exit_fence = p.exit_fence ∧
      (p'.retention.next_seq = p.retention.next_seq + 1 ∧ p'.pending_outcome = p.pending_outcome ∨ p'.Spoiled) := by
  obtain ⟨r, q, happ, honly, hcase⟩ := append_and_send_models h hfit
  obtain ⟨hend, hseq⟩ := append_and_send_end happ
  have hfields := honly.fields
  have hsame := honly.sameOutput
  have hpending' : q.pending_outcome = p.pending_outcome := by rw [hfields]
  rw [append_or_fail, happ] at hres
  rcases hcase with ⟨rfl, -⟩ | ⟨⟨a, b, c, rfl⟩, -⟩
  · obtain rfl := Option.some.inj hres
    have hgrown : q.retention.next_seq = p.retention.next_seq + 1 := by
      rcases hseq with ⟨-, hgrown⟩ | ⟨⟨error, herror⟩, -⟩
      · exact hgrown
      · simp at herror
    exact ⟨hsame.output, hsame.hooks, hend.exits, hend.exit_fence, Or.inl ⟨hgrown, hpending'⟩⟩
  · obtain rfl := Option.some.inj hres
    refine ⟨hsame.output, hsame.hooks, hend.exits, hend.exit_fence, Or.inr ?_⟩
    apply fail_spoiled
    rcases hpending with hnone | ⟨o, hsome, hother⟩
    · exact Or.inl (hpending'.trans hnone)
    · exact Or.inr ⟨o, hpending'.trans hsome, hother⟩

theorem on_data_output (h : p.Models l) {channel : Channel} {b : UInt8} {bytes : List UInt8}
    (hfit : p.StepFits blake3 (.wake (.read channel (.ok (b :: bytes)))))
    (hpending : p.pending_outcome = none ∨ p.Spoiled) (hfence : p.exit_fence = none)
    (hpipe : channel ≠ .content) (hres : p.on_data channel (b :: bytes) = some p') :
    p.OutputStep blake3 (.wake (.read channel (.ok (b :: bytes)))) p' := by
  have hfit' := hfit (.data channel (b :: bytes)) rfl
  cases channel with
  | stdout =>
    let q : Pump := { p with
      stdout_hash := p.stdout_hash ++ (b :: bytes)
      stdout_total := p.stdout_total + (b :: bytes).length }
    have hmod : q.Models l := h.congr rfl rfl rfl
    obtain ⟨hout, hhooks, hexits, hopen, hcase⟩ := append_or_fail_output hmod hfit' hpending hres
    exact .reads (.data .stdout (b :: bytes)) trivial rfl hout hhooks hfence hexits (hopen.trans hfence) hcase
  | stderr =>
    let q : Pump := { p with
      stderr_hash := p.stderr_hash ++ (b :: bytes)
      stderr_total := p.stderr_total + (b :: bytes).length }
    have hmod : q.Models l := h.congr rfl rfl rfl
    obtain ⟨hout, hhooks, hexits, hopen, hcase⟩ := append_or_fail_output hmod hfit' hpending hres
    exact .reads (.data .stderr (b :: bytes)) trivial rfl hout hhooks hfence hexits (hopen.trans hfence) hcase
  | content => exact absurd rfl hpipe

theorem handle_output {event : Event} (h : p.Models l) (hfit : p.StepFits blake3 (.wake event))
    (hpending : p.pending_outcome = none ∨ p.Spoiled) (hfence : p.exit_fence = none)
    (henabled : p.enabled event = true) (hres : p.handle event = some p') :
    p.OutputStep blake3 (.wake event) p' := by
  cases event with
  | command cmd =>
    cases cmd with
    | none =>
      unfold handle at hres
      split_ifs at hres
      · cases hres
        exact .same ⟨rfl, rfl, Or.inr ⟨.cancelled, rfl, fun code => by simp⟩⟩ rfl rfl rfl
      · cases hres
        exact .same ⟨rfl, rfl, Or.inl rfl⟩ rfl rfl rfl
    | some cmd =>
      obtain ⟨hexits, hset, hseq, -⟩ := handle_command_end hres
      exact .same (handle_command_output h hres) hexits hset hseq
  | child_exit status =>
    cases status with
    | error error =>
      cases hres
      exact .same ⟨rfl, rfl, Or.inr (fail_spoiled _ _ hpending)⟩ rfl rfl rfl
    | ok code =>
      cases hres
      exact .same ⟨rfl, rfl, Or.inl rfl⟩ rfl rfl rfl
  | deadline =>
    cases hres
    exact .same ⟨rfl, rfl, Or.inr ⟨.timed_out, rfl, fun code => by simp⟩⟩ rfl rfl rfl
  | progress_tick =>
    obtain ⟨hout, hhooks, hexits, hopen, hcase⟩ := append_or_fail_output h (hfit .progress rfl) hpending hres
    exact .reads .progress trivial rfl hout hhooks hfence hexits (hopen.trans hfence) hcase
  | read channel result =>
    cases result with
    | error error =>
      cases hres
      exact .same ⟨rfl, rfl, Or.inr (fail_spoiled _ _ hpending)⟩ rfl rfl rfl
    | ok bytes =>
      cases bytes with
      | nil =>
        cases hres
        cases channel <;> exact .same ⟨rfl, rfl, Or.inl rfl⟩ rfl rfl rfl
      | cons b bytes =>
        apply on_data_output h hfit hpending hfence ?_ hres
        rintro rfl
        simp [enabled] at henabled

/-- **What one step does to the output.** -/
theorem step_output (h : p.Models l) (hstep : PumpStep blake3 p e p')
    (hfit : p.StepFits blake3 e) (hpending : p.pending_outcome = none ∨ p.Spoiled) :
    p.OutputStep blake3 e p' := by
  cases hstep with
  | wake _ hfence henabled hres => exact handle_output h hfit hpending hfence henabled hres
  | @finish _ duration_ms _ hfence hres =>
    have hmod₀ : ({ p with pending_outcome := none } : Pump).Models l := h.congr rfl rfl rfl
    obtain ⟨r, q, happ, honly, -⟩ := append_and_send_models hmod₀ (hfit _ rfl)
    obtain ⟨hend, -⟩ := append_and_send_end happ
    have hsame := honly.sameOutput
    unfold finish at hres
    dsimp only at hres
    rw [happ] at hres
    cases hres
    refine .finishes duration_ms rfl hsame.output hsame.hooks ?_ hfence rfl ?_
    · exact ⟨_, congrArg (· ++ [_]) hend.exits⟩
    · show q.pending_outcome = none
      rw [honly.fields]
  | linger _ _ hres =>
    obtain ⟨hexits, hset, hseq, -⟩ := handle_command_end hres
    exact .same (handle_command_output h hres) hexits hset hseq
  | orphan _ _ => exact .same ⟨rfl, rfl, Or.inl rfl⟩ rfl rfl rfl

end Steps

end Pump

/-! ## The record and the frames -/

namespace Logged

variable {blake3 : List UInt8 → List UInt8} {s s' : Logged} {l : Link} {e : PumpEvent}

/-- What the terminal record tells of the output, for a job that encodes its Exit frame as
nothing. -/
structure Told (s : Logged) : Prop where
  counted : s.pump.output.Counted
  hooks : ∀ exit, s.pump.hooks.encode_exit exit = []
  /-- Only the child's exit makes a record say `exited`. -/
  pending : s.pump.pending_outcome = none ∨ s.pump.Spoiled
  pipes : ∀ body ∈ s.bodies, Output.OfPipes body
  /-- Until the job is failed, the frames carry the output. -/
  running : s.pump.exit_fence = none → s.pump.pending_outcome = none → s.pump.output.CarriedBy s.bodies
  unfinished : s.pump.exit_fence = none → s.pump.exits = []
  record : ∀ r ∈ s.pump.exits, r.2.stdout.total_bytes = s.pump.output.stdout_total ∧
    r.2.stderr.total_bytes = s.pump.output.stderr_total
  /-- and if it says `exited`, the frames carry it. -/
  ended : ∀ r ∈ s.pump.exits, ∀ code, r.2.outcome = .exited code → s.pump.output.CarriedBy s.bodies

theorem new_told (retention : RetentionConfig) {hooks : JobHooks} (deadline : Option ℕ)
    (config : JobConfig) (hhooks : ∀ exit, hooks.encode_exit exit = []) :
    (new retention hooks deadline config).Told where
  counted := ⟨rfl, rfl⟩
  hooks := hhooks
  pending := Or.inl rfl
  pipes := by simp [new]
  running := fun _ _ => ⟨rfl, rfl, rfl⟩
  unfinished := fun _ => rfl
  record := by simp [new, Pump.new]
  ended := by simp [new, Pump.new]

theorem Told.step (h : s.Told) (hmod : s.pump.Models l) (hstep : Step blake3 s e s')
    (hfit : s.pump.StepFits blake3 e) : s'.Told := by
  obtain ⟨hpump, hbodies⟩ := hstep
  cases Pump.step_output hmod hpump hfit h.pending with
  | same hout hexits hfence hseq =>
    rw [Pump.newly_same hseq, List.append_nil] at hbodies
    obtain ⟨hout, hhooks, hpend⟩ := hout
    refine ⟨hout ▸ h.counted, hhooks ▸ h.hooks, ?_, hbodies ▸ h.pipes, ?_, ?_, ?_, ?_⟩
    · rcases hpend with hpend | hspoiled
      · unfold Pump.Spoiled
        rw [hpend]
        exact h.pending
      · exact Or.inr hspoiled
    · intro hopen hnone
      rw [hout, hbodies]
      rcases hpend with hpend | ⟨o, hsome, -⟩
      · exact h.running (hfence ▸ hopen) (hpend ▸ hnone)
      · rw [hnone] at hsome
        simp at hsome
    · rw [hfence, hexits]
      exact h.unfinished
    · rw [hexits, hout]
      exact h.record
    · rw [hexits, hout, hbodies]
      exact h.ended
  | reads body hpipes happ hout hhooks hfence hexits hopen hcase =>
    -- No record yet, so only the frames and the output matter.
    have hnone : s'.pump.exits = [] := hexits.trans (h.unfinished hfence)
    have hmore : s'.bodies = s.bodies ∨ s'.bodies = s.bodies ++ [body] := by
      rw [hbodies, Pump.newly, happ]
      split_ifs
      · exact Or.inr rfl
      · exact Or.inl (List.append_nil _)
    refine ⟨hout ▸ h.counted.read body, hhooks ▸ h.hooks, ?_, ?_, ?_, fun _ => hnone, ?_, ?_⟩
    · rcases hcase with ⟨-, hpend⟩ | hspoiled
      · unfold Pump.Spoiled
        rw [hpend]
        exact h.pending
      · exact Or.inr hspoiled
    · intro b hb
      rcases hmore with hsame | hgrown
      · exact h.pipes b (hsame ▸ hb)
      · rw [hgrown, List.mem_append, List.mem_singleton] at hb
        rcases hb with hb | rfl
        · exact h.pipes b hb
        · exact hpipes
    · intro _ hpending
      rcases hcase with ⟨hseq, hpend⟩ | ⟨o, hsome, -⟩
      · rw [hout, hbodies, Pump.newly_grown hseq happ]
        exact (h.running hfence (hpend ▸ hpending)).read hpipes
      · rw [hpending] at hsome
        simp at hsome
    · simp [hnone]
    · simp [hnone]
  | finishes duration_ms happ hout hhooks hexits hfence hset hpending =>
    obtain ⟨seq, hexits⟩ := hexits
    have hfirst : s'.pump.exits = [(seq, s.pump.exit_record blake3 duration_ms)] := by
      rw [hexits, h.unfinished hfence, List.nil_append]
    -- The Exit frame has no payload, so it does not matter whether it could be retained.
    rw [h.hooks] at happ
    have hmore : s'.bodies = s.bodies ∨ s'.bodies = s.bodies ++ [.exit []] := by
      rw [hbodies, Pump.newly, happ]
      split_ifs
      · exact Or.inr rfl
      · exact Or.inl (List.append_nil _)
    have hcarried (hbefore : s.pump.output.CarriedBy s.bodies) : s'.pump.output.CarriedBy s'.bodies := by
      rw [hout]
      rcases hmore with hsame | hgrown
      · rw [hsame]
        exact hbefore
      · rw [hgrown]
        have hempty : Output.OfPipes (.exit []) := rfl
        exact hbefore.read hempty
    have hclosed : s'.pump.exit_fence ≠ none := by
      intro hnone
      rw [hnone] at hset
      simp at hset
    refine ⟨hout ▸ h.counted, hhooks ▸ h.hooks, Or.inl hpending, ?_,
      fun hnone => absurd hnone hclosed, fun hnone => absurd hnone hclosed, ?_, ?_⟩
    · intro b hb
      rcases hmore with hsame | hgrown
      · exact h.pipes b (hsame ▸ hb)
      · rw [hgrown, List.mem_append, List.mem_singleton] at hb
        rcases hb with hb | rfl
        · exact h.pipes b hb
        · exact rfl
    · rw [hfirst, hout]
      intro r hr
      obtain rfl := List.mem_singleton.1 hr
      exact ⟨rfl, rfl⟩
    · rw [hfirst]
      intro r hr code hcode
      obtain rfl := List.mem_singleton.1 hr
      apply hcarried
      apply h.running hfence
      rcases h.pending with hnone | ⟨o, hsome, hother⟩
      · exact hnone
      · -- An outcome that was pending is the record's.
        simp only [Pump.exit_record, hsome, Option.getD_some] at hcode
        exact absurd hcode (hother code)

end Logged

end OpenGeni.Agent
