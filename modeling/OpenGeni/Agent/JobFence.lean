/-
Generation fencing and the final-ack fence of the pump.

A command that carries the wrong attach generation is refused before anything is
touched, so a run and the same run without its stale commands end in the same
state. What the current consumer is sent goes up in seq order, each frame just
above the later of the frame before it and the retention floor. The Exit frame is
the last one numbered, `on_exit` fires with it, and only a current-generation
final ack that covers the fence ends the job as collected.

The order is the one place where the floor shows. An ack may pass the cursor, and
the next send then resumes at the floor: the seqs of one attachment have a gap
where the consumer acknowledged frames this attachment had not sent it.

The bodies that got a seq are recorded beside the pump (`Logged`). The first half
of the file needs no link: it only says which fields an operation leaves alone.
-/
import OpenGeni.Agent.JobLink

namespace OpenGeni.Agent

open OpenGeni.Lib OpenGeni.Engine

/-! ## Stale and accepted commands -/

namespace PumpEvent

/-- A command of a generation that is not the current one: an attach below it or of
generation 0, an ack of any other. -/
def Stale (p : Pump) (e : PumpEvent) : Prop :=
  (∃ a ∈ e.attach?, a.1 = 0 ∨ a.1 < p.flow.attach_gen) ∨ ∃ a ∈ e.ack?, a.1 ≠ p.flow.attach_gen

def Attaches (p : Pump) (e : PumpEvent) : Prop := ∃ a ∈ e.attach?, ¬ (a.1 = 0 ∨ a.1 < p.flow.attach_gen)

/-- An ack of the current generation that carries the final flag and covers `fence`. -/
def FinalAck (p : Pump) (fence : ℕ) (e : PumpEvent) : Prop := ∃ acked_seq credit_bytes, fence ≤ acked_seq ∧
    e = .wake (.command (some (.ack p.flow.attach_gen acked_seq credit_bytes true)))

end PumpEvent

namespace Pump

variable {p p' : Pump} {blake3 : List UInt8 → List UInt8} {e : PumpEvent}

theorem handle_command_stale {cmd : JobCommand} (hstale : PumpEvent.Stale p (.wake (.command (some cmd))))
    (h : p.handle_command cmd = some p') : p' = p := by
  unfold PumpEvent.Stale PumpEvent.attach? PumpEvent.ack? at hstale
  cases cmd with
  | ack generation acked_seq credit_bytes final_ack =>
    have hgen : generation ≠ p.flow.attach_gen := by simpa using hstale
    rw [handle_command, apply_ack, CreditFlow.on_ack_stale _ _ hgen] at h
    dsimp only at h
    split_ifs at h
    · -- Not applied: the final flag is refused as well, whatever the fence.
      split at h
      · rw [Bool.false_and, if_neg Bool.false_ne_true] at h
        exact (Option.some.inj h).symm
      · exact (Option.some.inj h).symm
    · exact (Option.some.inj h).symm
  | attach generation from_seq window_bytes =>
    have hgen : generation = 0 ∨ generation < p.flow.attach_gen := by simpa using hstale
    rw [handle_command, apply_attach, CreditFlow.attach_stale _ _ hgen] at h
    exact (Option.some.inj h).symm
  | detach | cancel => simp at hstale

theorem step_stale (hstep : PumpStep blake3 p e p') (hstale : e.Stale p) : p' = p := by
  cases hstep with
  | wake hloop hfence henabled h =>
    rename_i event
    cases event with
    | command cmd =>
      cases cmd with
      | none => simp [PumpEvent.Stale, PumpEvent.attach?, PumpEvent.ack?] at hstale
      | some cmd => exact handle_command_stale hstale h
    | _ => simp [PumpEvent.Stale, PumpEvent.attach?, PumpEvent.ack?] at hstale
  | finish | orphan => simp [PumpEvent.Stale, PumpEvent.attach?, PumpEvent.ack?] at hstale
  | linger _ _ h => exact handle_command_stale hstale h

/-! ## What sending leaves alone -/

/-- `p'` has the terminal fields of `p`. -/
structure SameEnd (p p' : Pump) : Prop where
  exits : p'.exits = p.exits
  exit_fence : p'.exit_fence = p.exit_fence
  final_acked : p'.final_acked = p.final_acked

/-- `p'` has the terminal fields of `p` and has numbered no frame. -/
structure SameSeq (p p' : Pump) : Prop extends p.SameEnd p' where
  next_seq : p'.retention.next_seq = p.retention.next_seq

theorem SameEnd.trans {q : Pump} (h : p.SameEnd q) (h' : q.SameEnd p') : p.SameEnd p' where
  exits := h'.exits.trans h.exits
  exit_fence := h'.exit_fence.trans h.exit_fence
  final_acked := h'.final_acked.trans h.final_acked

theorem SameSeq.trans {q : Pump} (h : p.SameSeq q) (h' : q.SameSeq p') : p.SameSeq p' where
  toSameEnd := h.toSameEnd.trans h'.toSameEnd
  next_seq := h'.next_seq.trans h.next_seq

theorem SameSeq.refl (p : Pump) : p.SameSeq p := ⟨⟨rfl, rfl, rfl⟩, rfl⟩

theorem send_sameSeq (p : Pump) (f : Frame) : p.SameSeq (p.send f) := ⟨⟨rfl, rfl, rfl⟩, rfl⟩

theorem fail_sameSeq (p : Pump) (failure : JobFailure) : p.SameSeq (p.fail failure) := ⟨⟨rfl, rfl, rfl⟩, rfl⟩

theorem send_bite_sameSeq (frames : List Frame) : p.SameSeq (p.send_bite frames).2 := by
  induction frames generalizing p with
  | nil => exact .refl p
  | cons f frames ih =>
    unfold send_bite
    split_ifs
    · exact .refl p
    · exact (send_sameSeq p f).trans ih

theorem catch_up_loop_sameSeq {fuel : ℕ} {r : Except RetentionError Unit}
    (h : p.catch_up_loop fuel = some (r, p')) : p.SameSeq p' := by
  induction fuel generalizing p with
  | zero => simp [catch_up_loop] at h
  | succ fuel ih =>
    simp only [catch_up_loop] at h
    -- Every way out but the last returns the pump as it is.
    have hdone : ∀ {r' : Except RetentionError Unit}, some (r', p) = some (r, p') → p.SameSeq p' := by
      intro r' heq
      obtain ⟨-, rfl⟩ := Prod.mk.inj (Option.some.inj heq)
      exact .refl p
    split_ifs at h
    · exact hdone h
    · exact hdone h
    · exact hdone h
    · split at h
      · exact hdone h
      · next frames _ =>
          split_ifs at h
          · exact hdone h
          · have hbite := send_bite_sameSeq (p := p) frames
            split at h
            · next q hq =>
                rw [hq] at hbite
                obtain ⟨-, rfl⟩ := Prod.mk.inj (Option.some.inj h)
                exact hbite
            · next q hq =>
                rw [hq] at hbite
                exact hbite.trans (ih h)

theorem drive_catch_up_sameSeq (h : p.drive_catch_up = some p') : p.SameSeq p' := by
  unfold drive_catch_up at h
  split at h
  · simp at h
  · next q hq =>
      cases h
      exact catch_up_loop_sameSeq hq
  · next error q hq =>
      have hsame := catch_up_loop_sameSeq hq
      split_ifs at h
      · cases h
        exact hsame.trans ⟨⟨rfl, rfl, rfl⟩, rfl⟩
      · cases h
        exact hsame.trans (fail_sameSeq q _)

theorem apply_ack_sameSeq {generation acked_seq credit_bytes : ℕ} {applied : Bool}
    (h : p.apply_ack generation acked_seq credit_bytes = some (applied, p')) :
    p.SameSeq p' ∧ (applied = true → generation = p.flow.attach_gen) := by
  rw [apply_ack] at h
  by_cases hgen : generation = p.flow.attach_gen
  · rw [CreditFlow.on_ack_current _ _ hgen] at h
    dsimp only at h
    split at h
    · simp at h
    · next retention hack =>
        obtain ⟨q, hdrive, heq⟩ := Option.map_eq_some_iff.1 h
        obtain ⟨-, rfl⟩ := Prod.mk.inj heq
        -- The ack moves the floor, the flush behind it the cursor.
        have hfloor := RetentionLog.ack_next_seq hack
        have hflush := drive_catch_up_sameSeq hdrive
        exact ⟨⟨⟨hflush.exits, hflush.exit_fence, hflush.final_acked⟩, hflush.next_seq.trans hfloor⟩, fun _ => hgen⟩
  · rw [CreditFlow.on_ack_stale _ _ hgen] at h
    cases h
    exact ⟨.refl p, fun hap => absurd hap Bool.false_ne_true⟩

theorem apply_attach_sameSeq {generation from_seq window_bytes : ℕ}
    (h : p.apply_attach generation from_seq window_bytes = some p') : p.SameSeq p' := by
  unfold apply_attach at h
  dsimp only at h
  split at h
  · have hflush := drive_catch_up_sameSeq h
    exact ⟨⟨hflush.exits, hflush.exit_fence, hflush.final_acked⟩, hflush.next_seq⟩
  · cases h
    exact ⟨⟨rfl, rfl, rfl⟩, rfl⟩

theorem handle_command_end {cmd : JobCommand} (h : p.handle_command cmd = some p') :
    p'.exits = p.exits ∧ p'.exit_fence = p.exit_fence ∧ p'.retention.next_seq = p.retention.next_seq ∧
      (p'.final_acked = p.final_acked ∨ ∃ fence, p.exit_fence = some fence ∧
        PumpEvent.FinalAck p fence (.wake (.command (some cmd)))) := by
  cases cmd with
  | ack generation acked_seq credit_bytes final_ack =>
    unfold handle_command at h
    dsimp only at h
    split at h
    · simp at h
    · next applied q hack =>
        obtain ⟨hsame, hgen⟩ := apply_ack_sameSeq hack
        have hplain : p'.exits = q.exits ∧ p'.exit_fence = q.exit_fence ∧
            p'.retention.next_seq = q.retention.next_seq ∧ (p'.final_acked = q.final_acked ∨
              ∃ fence, q.exit_fence = some fence ∧ applied = true ∧ fence ≤ acked_seq ∧ final_ack = true) := by
          split_ifs at h with hflag
          · split at h
            · next fence hfence =>
                split_ifs at h with hcovers
                · rw [Bool.and_eq_true, decide_eq_true_eq] at hcovers
                  cases h
                  exact ⟨rfl, rfl, rfl, Or.inr ⟨fence, hfence, hcovers.1, hcovers.2, hflag⟩⟩
                · cases h
                  exact ⟨rfl, rfl, rfl, Or.inl rfl⟩
            · cases h
              exact ⟨rfl, rfl, rfl, Or.inl rfl⟩
          · cases h
            exact ⟨rfl, rfl, rfl, Or.inl rfl⟩
        obtain ⟨hexits, hfence, hseq, hfinal⟩ := hplain
        refine ⟨hexits.trans hsame.exits, hfence.trans hsame.exit_fence, hseq.trans hsame.next_seq, ?_⟩
        rcases hfinal with hkept | ⟨fence, hset, happlied, hcovers, rfl⟩
        · exact Or.inl (hkept.trans hsame.final_acked)
        · rw [hsame.exit_fence] at hset
          exact Or.inr ⟨fence, hset, acked_seq, credit_bytes, hcovers, by rw [hgen happlied]⟩
  | attach generation from_seq window_bytes =>
    have hsame := apply_attach_sameSeq h
    exact ⟨hsame.exits, hsame.exit_fence, hsame.next_seq, Or.inl hsame.final_acked⟩
  | detach =>
    cases h
    exact ⟨rfl, rfl, rfl, Or.inl rfl⟩
  | cancel =>
    unfold handle_command at h
    split_ifs at h <;> (cases h; exact ⟨rfl, rfl, rfl, Or.inl rfl⟩)

/-! ## What one step does to the end of the job -/

variable {body : FrameBody}

theorem append_and_send_end {r : Except RetentionError ℕ} (h : p.append_and_send body = some (r, p')) :
    p.SameEnd p' ∧ ((∃ seq, r = .ok seq) ∧ p'.retention.next_seq = p.retention.next_seq + 1 ∨
      (∃ error, r = .error error) ∧ p'.retention.next_seq = p.retention.next_seq) := by
  unfold append_and_send at h
  split at h
  · simp at h
  · next error retention happ =>
      cases h
      refine ⟨⟨rfl, rfl, rfl⟩, Or.inr ⟨⟨error, rfl⟩, ?_⟩⟩
      rcases RetentionLog.append_next_seq happ with ⟨hok, -⟩ | ⟨-, hseq⟩
      · simp at hok
      · exact hseq
  · next seq retention happ =>
      cases h
      have hgrown : retention.next_seq = p.retention.next_seq + 1 := by
        rcases RetentionLog.append_next_seq happ with ⟨-, hseq⟩ | ⟨⟨error, herror⟩, -⟩
        · exact hseq
        · simp at herror
      split_ifs <;> exact ⟨⟨rfl, rfl, rfl⟩, Or.inl ⟨⟨seq, rfl⟩, hgrown⟩⟩

/-- At most one more frame is numbered, and then it is `body`. -/
def Numbers (p p' : Pump) : Prop :=
  p'.retention.next_seq = p.retention.next_seq ∨ p'.retention.next_seq = p.retention.next_seq + 1

theorem append_or_fail_end (h : p.append_or_fail body = some p') : p.SameEnd p' ∧ p.Numbers p' := by
  unfold append_or_fail at h
  split at h
  · simp at h
  · next seq q happ =>
      cases h
      obtain ⟨hend, hseq⟩ := append_and_send_end happ
      exact ⟨hend, by unfold Numbers; omega⟩
  · next error q happ =>
      cases h
      obtain ⟨hend, hseq⟩ := append_and_send_end happ
      refine ⟨hend.trans (fail_sameSeq q _).toSameEnd, ?_⟩
      show q.retention.next_seq = _ ∨ q.retention.next_seq = _
      omega

/-- What a step may do to the end of the job, by the phase it happens in. -/
inductive EndStep (blake3 : List UInt8 → List UInt8) (p : Pump) (e : PumpEvent) (p' : Pump) : Prop
  /-- Before the terminal record: at most a frame that is no Exit. -/
  | running (hfence : p.exit_fence = none) (hend : p.SameEnd p') (hseq : p.Numbers p')
      (hbody : p'.retention.next_seq ≠ p.retention.next_seq →
        ∃ body, p.appended blake3 e = some body ∧ body.is_exit = false)
  /-- The terminal record: the Exit frame if it can be retained, and `on_exit`. -/
  | finishing (hfence : p.exit_fence = none) (hset : p'.exit_fence.isSome = true)
      (hexits : p'.exits.length = p.exits.length + 1) (hfinal : p'.final_acked = p.final_acked)
      (hseq : p.Numbers p') (hbody : ∃ body, p.appended blake3 e = some body)
  | lingering (hfence : p.exit_fence.isSome = true) (hexits : p'.exits = p.exits)
      (hset : p'.exit_fence = p.exit_fence)
      (hseq : p'.retention.next_seq = p.retention.next_seq)
      (hfinal : p'.final_acked = p.final_acked ∨ ∃ fence, p.exit_fence = some fence ∧ e.FinalAck p fence)

theorem handle_end {event : Event} (hfence : p.exit_fence = none)
    (h : p.handle event = some p') : p.EndStep blake3 (.wake event) p' := by
  -- Most events number nothing.
  have hkept : p.SameSeq p' → p.EndStep blake3 (.wake event) p' := fun hsame =>
    .running hfence hsame.toSameEnd (Or.inl hsame.next_seq) fun hne => absurd hsame.next_seq hne
  cases event with
  | command cmd =>
    cases cmd with
    | none =>
      apply hkept
      unfold handle at h
      split_ifs at h <;> (cases h; exact ⟨⟨rfl, rfl, rfl⟩, rfl⟩)
    | some cmd =>
      obtain ⟨hexits, hset, hseq, hfinal⟩ := handle_command_end h
      apply hkept
      refine ⟨⟨hexits, hset, ?_⟩, hseq⟩
      -- Before completion a final ack is ignored.
      rcases hfinal with hsame | ⟨fence, hsome, -⟩
      · exact hsame
      · rw [hfence] at hsome
        simp at hsome
  | child_exit status =>
    apply hkept
    cases status <;> (cases h; exact ⟨⟨rfl, rfl, rfl⟩, rfl⟩)
  | deadline =>
    apply hkept
    cases h
    exact ⟨⟨rfl, rfl, rfl⟩, rfl⟩
  | progress_tick =>
    obtain ⟨hend, hseq⟩ := append_or_fail_end h
    exact .running hfence hend hseq fun _ => ⟨.progress, rfl, rfl⟩
  | read channel result =>
    cases result with
    | error error =>
      apply hkept
      cases h
      exact ⟨⟨rfl, rfl, rfl⟩, rfl⟩
    | ok bytes =>
      cases bytes with
      | nil =>
        apply hkept
        cases h
        cases channel <;> exact ⟨⟨rfl, rfl, rfl⟩, rfl⟩
      | cons b bytes =>
        have hdata : p.SameEnd p' ∧ p.Numbers p' := by
          cases channel with
          | stdout | stderr =>
            obtain ⟨hend, hseq⟩ := append_or_fail_end h
            exact ⟨⟨hend.exits, hend.exit_fence, hend.final_acked⟩, hseq⟩
          | content => exact append_or_fail_end h
        exact .running hfence hdata.1 hdata.2 fun _ => ⟨.data channel (b :: bytes), rfl, rfl⟩

/-- **What one step does to the end of the job.** -/
theorem step_end (hstep : PumpStep blake3 p e p') : p.EndStep blake3 e p' := by
  cases hstep with
  | wake _ hfence _ h => exact handle_end hfence h
  | finish _ hfence h =>
    unfold finish at h
    dsimp only at h
    split at h
    · simp at h
    · next r q happ =>
        cases h
        obtain ⟨hend, hseq⟩ := append_and_send_end happ
        refine .finishing hfence rfl ?_ hend.final_acked ?_ ⟨_, rfl⟩
        · show (q.exits ++ [_]).length = _
          rw [hend.exits, List.length_append]
          rfl
        · show q.retention.next_seq = _ ∨ q.retention.next_seq = _
          have : ({ p with pending_outcome := none } : Pump).retention.next_seq = p.retention.next_seq := rfl
          omega
  | linger hfence _ h =>
    obtain ⟨hexits, hset, hseq, hfinal⟩ := handle_command_end h
    exact .lingering hfence hexits hset hseq hfinal
  | orphan hfence _ => exact .lingering hfence rfl rfl rfl (Or.inl rfl)

/-- The frame body that got a seq in the step from `p` to `p'`, if one did. -/
def newly (blake3 : List UInt8 → List UInt8) (p : Pump) (e : PumpEvent) (p' : Pump) : List FrameBody :=
  if p.retention.next_seq < p'.retention.next_seq then (p.appended blake3 e).toList else []

theorem newly_same (h : p'.retention.next_seq = p.retention.next_seq) : p.newly blake3 e p' = [] := by
  rw [newly, h, if_neg (Nat.lt_irrefl _)]

theorem newly_grown (h : p'.retention.next_seq = p.retention.next_seq + 1)
    (hbody : p.appended blake3 e = some body) : p.newly blake3 e p' = [body] := by
  rw [newly, h, if_pos (Nat.lt_succ_self _), hbody]
  rfl

end Pump

/-! ## The pump with its appended bodies -/

/-- A pump beside every frame body it has numbered; the body of seq `n` is at
`n - 1`. -/
structure Logged where
  pump : Pump
  bodies : List FrameBody

namespace Logged

variable {blake3 : List UInt8 → List UInt8} {s s' start : Logged} {e : PumpEvent} {es : List PumpEvent}

def Step (blake3 : List UInt8 → List UInt8) (s : Logged) (e : PumpEvent) (s' : Logged) : Prop :=
  PumpStep blake3 s.pump e s'.pump ∧ s'.bodies = s.bodies ++ s.pump.newly blake3 e s'.pump

def new (retention : RetentionConfig) (hooks : JobHooks) (deadline : Option ℕ)
    (config : JobConfig) : Logged := ⟨.new retention hooks deadline config, []⟩

theorem Step.stale (hstep : Step blake3 s e s') (hstale : e.Stale s.pump) : s' = s := by
  obtain ⟨pump', bodies'⟩ := s'
  obtain ⟨hpump, hbodies⟩ := hstep
  obtain rfl : pump' = s.pump := Pump.step_stale hpump hstale
  rw [Pump.newly_same rfl, List.append_nil] at hbodies
  obtain rfl : bodies' = s.bodies := hbodies
  rfl

/-- The terminal record seals the sequence: `on_exit` has fired once since, and an
Exit frame, if there is one, is the last one numbered. -/
structure Sealed (s : Logged) : Prop where
  numbered : s.pump.retention.next_seq = s.bodies.length + 1
  fired : s.pump.exits.length = if s.pump.exit_fence.isSome then 1 else 0
  running : s.pump.exit_fence = none → ∀ body ∈ s.bodies, body.is_exit = false
  ended : ∀ body ∈ s.bodies.dropLast, body.is_exit = false

theorem new_sealed (retention : RetentionConfig) (hooks : JobHooks) (deadline : Option ℕ)
    (config : JobConfig) : (new retention hooks deadline config).Sealed where
  numbered := rfl
  fired := rfl
  running := by
    intro _ body hbody
    simp [new] at hbody
  ended := by
    intro body hbody
    simp [new] at hbody

theorem Sealed.step (h : s.Sealed) (hstep : Step blake3 s e s') : s'.Sealed := by
  obtain ⟨hpump, hbodies⟩ := hstep
  -- Numbering nothing leaves the sequence; numbering a frame adds it at the end.
  have hkept (hseq : s'.pump.retention.next_seq = s.pump.retention.next_seq) :
      s'.bodies = s.bodies ∧ s'.pump.retention.next_seq = s'.bodies.length + 1 := by
    rw [Pump.newly_same hseq, List.append_nil] at hbodies
    exact ⟨hbodies, by rw [hseq, hbodies, h.numbered]⟩
  have hgrown {body : FrameBody} (hseq : s'.pump.retention.next_seq
      = s.pump.retention.next_seq + 1) (hbody : s.pump.appended blake3 e = some body) :
      s'.bodies = s.bodies ++ [body] ∧ s'.pump.retention.next_seq = s'.bodies.length + 1 := by
    rw [Pump.newly_grown hseq hbody] at hbodies
    refine ⟨hbodies, ?_⟩
    rw [hseq, hbodies, List.length_append, h.numbered]
    rfl
  cases Pump.step_end hpump with
  | running hfence hend hseq hbody =>
    have hfired : s'.pump.exits.length = if s'.pump.exit_fence.isSome then 1 else 0 := by
      rw [hend.exits, hend.exit_fence]
      exact h.fired
    have hdata := h.running hfence
    rcases hseq with hsame | hmore
    · obtain ⟨heq, hnum⟩ := hkept hsame
      exact ⟨hnum, hfired, fun _ => heq ▸ hdata, heq ▸ h.ended⟩
    · obtain ⟨body, happ, hplain⟩ := hbody (by omega)
      obtain ⟨heq, hnum⟩ := hgrown hmore happ
      refine ⟨hnum, hfired, ?_, ?_⟩
      · intro _ b hb
        rw [heq, List.mem_append, List.mem_singleton] at hb
        rcases hb with hb | rfl
        · exact hdata b hb
        · exact hplain
      · rw [heq, List.dropLast_concat]
        exact hdata
  | finishing hfence hset hexits hfinal hseq hbody =>
    have hfired : s'.pump.exits.length = if s'.pump.exit_fence.isSome then 1 else 0 := by
      rw [hexits, h.fired, hfence, hset]
      rfl
    have hdata := h.running hfence
    have hnone : s'.pump.exit_fence ≠ none := by
      intro hno
      rw [hno] at hset
      simp at hset
    rcases hseq with hsame | hmore
    · obtain ⟨heq, hnum⟩ := hkept hsame
      exact ⟨hnum, hfired, fun hno => absurd hno hnone, heq ▸ h.ended⟩
    · obtain ⟨body, happ⟩ := hbody
      obtain ⟨heq, hnum⟩ := hgrown hmore happ
      refine ⟨hnum, hfired, fun hno => absurd hno hnone, ?_⟩
      rw [heq, List.dropLast_concat]
      exact hdata
  | lingering hfence hexits hset hseq hfinal =>
    obtain ⟨heq, hnum⟩ := hkept hseq
    refine ⟨hnum, ?_, ?_, heq ▸ h.ended⟩
    · rw [hexits, hset]
      exact h.fired
    · intro hno
      rw [hset] at hno
      rw [hno] at hfence
      simp at hfence

theorem run_sealed {retention : RetentionConfig} {hooks : JobHooks} {deadline : Option ℕ}
    {config : JobConfig} (hrun : Run (Step blake3) (new retention hooks deadline config) es s) :
    s.Sealed :=
  hrun.invariant (fun _ _ _ hstep h => h.step hstep) (new_sealed retention hooks deadline config)

theorem Sealed.high_seq (h : s.Sealed) : s.pump.retention.high_seq = s.bodies.length := by
  rw [RetentionLog.high_seq, h.numbered]
  omega

theorem Sealed.exit_last (h : s.Sealed) {i : ℕ} {body : FrameBody}
    (hbody : s.bodies[i]? = some body) (hexit : body.is_exit = true) :
    i + 1 = s.pump.retention.high_seq := by
  rw [h.high_seq]
  have hi : i < s.bodies.length := (List.getElem?_eq_some_iff.1 hbody).1
  by_contra hne
  -- Everything before the last body is no Exit.
  have hbefore : body ∈ s.bodies.dropLast := by
    apply List.mem_of_getElem? (i := i)
    rw [List.getElem?_dropLast, if_pos (by omega)]
    exact hbody
  rw [h.ended body hbefore] at hexit
  simp at hexit

/-- A pump that has been final-acked was so by an ack of the then current generation,
covering the fence, after the terminal record. -/
theorem final_acked_by (hrun : Run (Step blake3) start es s)
    (hstart : start.pump.final_acked = false) (hend : s.pump.final_acked = true) :
    Sometime (Step blake3) (fun t e _ => ∃ fence, t.pump.exit_fence = some fence ∧
      e.FinalAck t.pump fence) start es s := by
  obtain ⟨es₁, e, es₂, t, t', hes, hrun₁, hstep, ⟨hbefore, hafter⟩, hrun₂⟩ :=
    hrun.lost (P := fun s => s.pump.final_acked = false) hstart (by simp [hend])
  refine ⟨es₁, e, es₂, t, t', hes, hrun₁, hstep, ?_, hrun₂⟩
  cases Pump.step_end hstep.1 with
  | running hfence hsame hseq hbody =>
    rw [hsame.final_acked] at hafter
    contradiction
  | finishing hfence hset hexits hfinal hseq hbody =>
    rw [hfinal] at hafter
    contradiction
  | lingering hfence hexits hset hseq hfinal =>
    rcases hfinal with hkept | hack
    · rw [hkept] at hafter
      contradiction
    · exact hack

end Logged

end OpenGeni.Agent
