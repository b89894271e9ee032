/-
When a legacy reply is complete.

The record and the output reach the serving task on two ways. The record comes through
the oneshot as soon as the job is over; the output comes through the emit hook, as far
as the window and the Attach let it. Nothing makes the one wait for the other, so a
reply to an `exited` record can be short of what the child wrote, with no error.

`Ready` says in which states the reply is complete. Within the breaker, the window is
never what is missing (`Link.Local`): it is enough that the Attach has been serviced and
the emit calls have returned. Beyond it the reply is an error once more than `breaker`
bytes have come through the hook, and short until then.
-/
import OpenGeni.Agent.Legacy

namespace OpenGeni.Agent

open OpenGeni.Lib OpenGeni.Engine

/-! ## Complete replies -/

namespace RespResult

def stdout : RespResult → List UInt8
  | .exec response => response.stdout
  | .git response => response.stdout

def stderr : RespResult → List UInt8
  | .exec response => response.stderr
  | .git response => response.stderr

end RespResult

/-- The reply to a record carries all of the output, as much as the record counts; or it
is an error. -/
def ControlResponse.Complete (response : ControlResponse) (record : JobExit) (o : Output) : Prop :=
  match response.result with
  | some result => response.error = none ∧ result.stdout = o.stdout ∧ result.stderr = o.stderr ∧
      result.stdout.length = record.stdout.total_bytes ∧
      result.stderr.length = record.stderr.total_bytes
  | none => response.error.isSome = true

instance (response : ControlResponse) (record : JobExit) (o : Output) :
    Decidable (response.Complete record o) := by
  unfold ControlResponse.Complete
  split <;> infer_instance

namespace LegacyOp

/-- The state in which the reply is assembled has everything the reply needs. If the
output is within the breaker: there is none, or the pump is attached and no emit call
that carries any of it is outstanding. If it is not: the breaker has tripped. -/
def Ready (s : LegacyOp) (breaker : ℕ) : Prop := if s.pump.stdout_total + s.pump.stderr_total ≤ breaker then
    s.pump.stdout_total + s.pump.stderr_total = 0 ∨
      s.pump.flow.attached = true ∧ ∀ f ∈ s.emitting, Frame.payload_len f = 0
  else breaker < s.buffers.total_bytes

end LegacyOp

/-! ## What the buffers hold -/

namespace ReplyBuffers

variable {b : ReplyBuffers} {breaker : ℕ} {bodies : List FrameBody}

def take (b : ReplyBuffers) (breaker : ℕ) : FrameBody → ReplyBuffers
  | .data channel bytes => b.absorb channel bytes breaker
  | _ => b

/-- The buffers after the bodies: all of their payload is counted, and stored as long as
it is within the breaker. -/
structure Holds (b : ReplyBuffers) (breaker : ℕ) (bodies : List FrameBody) : Prop where
  total : b.total_bytes = payload_sum bodies
  overflowed : b.overflowed = true ↔ breaker < payload_sum bodies
  stored : payload_sum bodies ≤ breaker → b.stdout = bytes_on .stdout bodies ∧ b.stderr = bytes_on .stderr bodies

theorem empty_holds : Holds {} breaker [] where
  total := rfl
  overflowed := by simp
  stored := fun _ => ⟨rfl, rfl⟩

theorem Holds.take (h : b.Holds breaker bodies) {body : FrameBody} (hpipes : Output.OfPipes body) :
    (b.take breaker body).Holds breaker (bodies ++ [body]) := by
  have htotal := h.total
  have hover := h.overflowed
  -- A body without payload is not absorbed and carries nothing.
  have hidle (hzero : body.payload_len = 0) : b.Holds breaker (bodies ++ [body]) := by
    refine ⟨?_, ?_, ?_⟩
    · simp [htotal, hzero]
    · simp [hover, hzero]
    · intro hfits
      simp only [payload_sum_append, payload_sum_cons, hzero, payload_sum_nil] at hfits
      simpa [bytes_of_nil hzero] using h.stored (by omega)
  cases body with
  | progress => exact hidle rfl
  | exit payload =>
    obtain rfl : payload = [] := hpipes
    exact hidle rfl
  | data channel bytes =>
    have hlen : (FrameBody.data channel bytes).payload_len = bytes.length := rfl
    unfold ReplyBuffers.take absorb
    by_cases hfits : b.total_bytes + bytes.length ≤ breaker
    · have hstored := h.stored (by omega)
      cases channel with
      | stdout | stderr =>
        refine ⟨by simp [htotal, hlen], ?_, fun _ => ?_⟩
        · simp only [if_pos hfits, hover, payload_sum_append, payload_sum_cons, payload_sum_nil]
          omega
        · simp [if_pos hfits, bytes_of, hstored.1, hstored.2]
      | content => exact hpipes.elim
    · refine ⟨by simp [htotal, hlen], ?_, fun hle => ?_⟩
      · simp only [if_neg hfits, payload_sum_append, payload_sum_cons, payload_sum_nil]
        simp only [true_iff]
        omega
      · simp only [payload_sum_append, payload_sum_cons, payload_sum_nil] at hle
        omega

end ReplyBuffers

/-! ## The state of a served request -/

/-- The commands the serving task and the emit hook send, and the cancel. -/
def LegacyRequest.Own (req : LegacyRequest) : JobCommand → Prop
  | .ack generation _ credit_bytes _ => generation = LOCAL_GENERATION ∧ credit_bytes = req.breaker
  | .attach generation from_seq window_bytes =>
    generation = LOCAL_GENERATION ∧ from_seq = 0 ∧ window_bytes = req.breaker
  | .detach => False
  | .cancel => True

def JobCommand.is_attach : JobCommand → Bool
  | .attach .. => true
  | _ => false

namespace ServePc

def before_attach : ServePc → Bool
  | .started | .attaching => true
  | _ => false

def assembling : ServePc → Bool
  | .replied _ => false
  | _ => true

def record? : ServePc → Option JobExit
  | .recorded record _ | .acked record => some record
  | _ => none

end ServePc

namespace LegacyOp

def handed (s : LegacyOp) : List FrameBody := (s.pump.history.emitted.take s.hooked).map fun f => f.body

/-- The invariant: the link `l` and the numbered `bodies` behind the pump, and what the
two tasks make of them. -/
structure Serving (req : LegacyRequest) (s : LegacyOp) (l : Link) (bodies : List FrameBody) :
    Prop where
  mirrors : (Logged.mk s.pump bodies).Mirrors l
  window : l.Local req.breaker
  told : (Logged.mk s.pump bodies).Told
  commands : ∀ cmd ∈ s.mailbox, req.Own cmd
  /-- There is one Attach: to be sent, in the mailbox, or serviced. -/
  one_attach : s.mailbox.countP JobCommand.is_attach + s.pump.flow.attached.toNat + s.pc.before_attach.toNat ≤ 1
  hooked : s.hooked ≤ s.pump.history.emitted.length
  held : s.pc.assembling = true → s.buffers.Holds req.breaker s.handed
  record : ∀ r, s.exit_tx = some r ∨ s.pc.record? = some r → r ∈ s.pump.exits.map Prod.snd

section Serving

variable {blake3 : List UInt8 → List UInt8} {req : LegacyRequest} {s s' : LegacyOp} {l : Link}
  {bodies : List FrameBody} {pump : Pump} {cmd : JobCommand} {rest : List JobCommand}
  {e : PumpEvent}

theorem start_serving (req : LegacyRequest) (retention : RetentionConfig) (deadline : Option ℕ)
    (config : JobConfig) : (start retention deadline config).Serving req Link.init [] where
  mirrors := Logged.new_mirrors retention ⟨fun _ => []⟩ deadline config
  window := Link.init_local
  told := Logged.new_told retention deadline config fun _ => rfl
  commands := by simp [start]
  one_attach := Nat.le_refl 1
  hooked := Nat.le_refl 0
  held := fun _ => ReplyBuffers.empty_holds
  record := by simp [start, ServePc.record?]

/-! ### The pump moves -/

theorem Serving.pump_step (h : s.Serving req l bodies) (hbetween : s.between = true)
    (hadvance : s.pump.advance blake3 e = some pump) (hfit : s.pump.StepFits blake3 e)
    (hlocal : l.LocalEvent req.breaker e) (hrest : ∀ cmd ∈ rest, cmd ∈ s.mailbox)
    (hcount : rest.countP JobCommand.is_attach + e.attach?.isSome.toNat ≤ s.mailbox.countP JobCommand.is_attach) :
    ∃ l' bodies', Serving req { s with
      pump
      mailbox := rest } l' bodies' := by
  have hpump := Pump.advance_iff.1 hadvance
  let bodies' := bodies ++ s.pump.newly blake3 e pump
  have hstep : Logged.Step blake3 ⟨s.pump, bodies⟩ e ⟨pump, bodies'⟩ := ⟨hpump, rfl⟩
  obtain ⟨l', hmirrors, hlink⟩ := h.mirrors.step hstep hfit
  have hout := Pump.step_output h.mirrors.models hpump hfit h.told.pending
  -- All that was emitted has been handed over, and what is emitted now comes behind it.
  have hall : s.pump.history.emitted.length ≤ s.hooked := by
    simp only [between, emitting, Bool.and_eq_true, List.isEmpty_iff, List.drop_eq_nil_iff] at hbetween
    exact hbetween.1
  obtain ⟨more, hmore⟩ : s.pump.history.emitted <+: pump.history.emitted := by
    have hprefix := hlink.emitted_prefix
    have hbefore : s.pump.history = l.history := h.mirrors.models.history
    have hafter : pump.history = l'.history := hmirrors.models.history
    rwa [← hbefore, ← hafter] at hprefix
  refine ⟨l', bodies', hmirrors, h.window.step hlink hlocal, ?_, ?_, ?_, ?_, ?_, ?_⟩
  · exact h.told.step h.mirrors.models hstep hfit
  · exact fun cmd hcmd => h.commands cmd (hrest cmd hcmd)
  · have hattached := h.window.step_attached hlink hlocal
    have hbefore : s.pump.flow = l.flow := h.mirrors.models.flow
    have hafter : pump.flow = l'.flow := hmirrors.models.flow
    have hone := h.one_attach
    have hbool : l'.flow.attached.toNat ≤ l.flow.attached.toNat + e.attach?.isSome.toNat := by
      rw [hattached]
      cases l.flow.attached <;> cases e.attach?.isSome <;> decide
    rw [hbefore] at hone
    show rest.countP JobCommand.is_attach + pump.flow.attached.toNat + s.pc.before_attach.toNat ≤ 1
    rw [hafter]
    omega
  · show s.hooked ≤ pump.history.emitted.length
    rw [← hmore, List.length_append]
    exact Nat.le_add_right_of_le h.hooked
  · intro hassembling
    have hheld := h.held hassembling
    have hsame : pump.history.emitted.take s.hooked = s.pump.history.emitted.take s.hooked := by
      rw [← hmore, List.take_append_of_le_length h.hooked]
    show s.buffers.Holds req.breaker ((pump.history.emitted.take s.hooked).map _)
    rw [hsame]
    exact hheld
  · intro r hr
    have hold := h.record r hr
    cases hout with
    | same _ hexits _ _ => exact hexits ▸ hold
    | reads _ _ _ _ _ _ hexits _ _ => exact hexits ▸ hold
    | finishes _ _ _ _ hexits _ _ _ =>
      obtain ⟨seq, hexits⟩ := hexits
      show r ∈ pump.exits.map Prod.snd
      rw [hexits, List.map_append, List.mem_append]
      exact Or.inl hold

/-! ### The mailbox fills -/

theorem Serving.post (h : s.Serving req l bodies) (hown : req.Own cmd) (hplain : cmd.is_attach = false) :
    Serving req { s with mailbox := s.mailbox ++ [cmd] } l bodies where
  mirrors := h.mirrors
  window := h.window
  told := h.told
  commands := by
    intro c hc
    rcases List.mem_append.1 hc with hc | hc
    · exact h.commands c hc
    · exact List.mem_singleton.1 hc ▸ hown
  one_attach := by
    have hone := h.one_attach
    show (s.mailbox ++ [cmd]).countP JobCommand.is_attach + _ + _ ≤ 1
    rw [List.countP_append, List.countP_singleton, hplain]
    exact hone
  hooked := h.hooked
  held := h.held
  record := h.record

theorem try_send_cases (s : LegacyOp) (cmd : JobCommand) :
    s.try_send cmd = { s with mailbox := s.mailbox ++ [cmd] } ∨ s.try_send cmd = s := by
  unfold try_send
  split_ifs
  · exact Or.inl rfl
  · exact Or.inr rfl

theorem send_cases (h : s.send cmd = some s') : s' = { s with mailbox := s.mailbox ++ [cmd] } ∨ s' = s := by
  unfold send at h
  split_ifs at h
  · exact Or.inr (Option.some.inj h).symm
  · exact Or.inl (Option.some.inj h).symm

theorem Serving.try_send (h : s.Serving req l bodies) (hown : req.Own cmd)
    (hplain : cmd.is_attach = false) : (s.try_send cmd).Serving req l bodies := by
  rcases try_send_cases s cmd with heq | heq
  · rw [heq]
    exact h.post hown hplain
  · rw [heq]
    exact h

/-! ### A hook returns -/

theorem Serving.emitted_sublist (h : s.Serving req l bodies) :
    (s.pump.history.emitted.map fun f => f.body).Sublist bodies := by
  have hsent := h.window.sent.trans (List.take_sublist _ _)
  have hbodies : l.log.appended = bodies := h.mirrors.bodies
  have hhistory : s.pump.history = l.history := h.mirrors.models.history
  rw [hhistory, ← hbodies]
  exact hsent

theorem buffering_emit_eq (req : LegacyRequest) (s : LegacyOp) (frame : Frame) :
    { s.buffering_emit req frame with hooked := s.hooked + 1 } = if s.mailbox_cell then
          { s with
            buffers := s.buffers.take req.breaker frame.body
            hooked := s.hooked + 1 }.try_send (req.ack frame.seq false)
        else
          { s with
            buffers := s.buffers.take req.breaker frame.body
            hooked := s.hooked + 1 } := by
  obtain ⟨seq, body⟩ := frame
  unfold buffering_emit LegacyOp.try_send
  cases body <;> dsimp only <;> split_ifs <;> rfl

theorem Serving.emit {frame : Frame} {more : List Frame} (h : s.Serving req l bodies)
    (hframe : s.emitting = frame :: more) :
    Serving req { s.buffering_emit req frame with hooked := s.hooked + 1 } l bodies := by
  have hnext : s.pump.history.emitted[s.hooked]? = some frame := by
    have hhead : s.emitting[0]? = some frame := by
      rw [hframe]
      rfl
    rwa [emitting, List.getElem?_drop, Nat.add_zero] at hhead
  have hpipes : Output.OfPipes frame.body := by
    apply h.told.pipes
    apply h.emitted_sublist.subset
    exact List.mem_map_of_mem (List.mem_of_getElem? hnext)
  have hlt : s.hooked < s.pump.history.emitted.length := (List.getElem?_eq_some_iff.1 hnext).1
  -- Without the ack, the hook counts the frame as handed over and absorbs it.
  let s₁ : LegacyOp := { s with
    buffers := s.buffers.take req.breaker frame.body
    hooked := s.hooked + 1 }
  have habsorbed : s₁.Serving req l bodies := by
    refine ⟨h.mirrors, h.window, h.told, h.commands, h.one_attach, hlt, ?_, h.record⟩
    intro hassembling
    have hheld := (h.held hassembling).take hpipes
    show (s.buffers.take req.breaker frame.body).Holds req.breaker
      ((s.pump.history.emitted.take (s.hooked + 1)).map _)
    rw [List.take_add_one, hnext, List.map_append]
    exact hheld
  rw [buffering_emit_eq]
  split_ifs
  · exact habsorbed.try_send ⟨rfl, rfl⟩ rfl
  · exact habsorbed

/-! ### The serving task moves -/

theorem Serving.moved (h : s.Serving req l bodies) (pc : ServePc) (mailbox_cell : Bool)
    (buffers : ReplyBuffers) (hbefore : pc.before_attach.toNat ≤ s.pc.before_attach.toNat)
    (hheld : pc.assembling = true → s.pc.assembling = true ∧ buffers = s.buffers)
    (hrecord : ∀ r, pc.record? = some r → s.exit_tx = some r ∨ s.pc.record? = some r) :
    Serving req { s with
      mailbox_cell
      buffers
      pc } l bodies where
  mirrors := h.mirrors
  window := h.window
  told := h.told
  commands := h.commands
  one_attach := by
    have hone := h.one_attach
    show s.mailbox.countP JobCommand.is_attach + s.pump.flow.attached.toNat + pc.before_attach.toNat ≤ 1
    omega
  hooked := h.hooked
  held := by
    intro hassembling
    obtain ⟨hstill, rfl⟩ := hheld hassembling
    exact h.held hstill
  record := by
    rintro r (hr | hr)
    · exact h.record r (Or.inl hr)
    · exact h.record r (hrecord r hr)

theorem Serving.attach (h : s.Serving req l bodies) (hpc : s.pc = .attaching)
    (hsend : s.send req.attach = some s') : Serving req { s' with pc := .waiting } l bodies := by
  have hone := h.one_attach
  have hheld := h.held (by rw [hpc]; rfl)
  have hcommands := h.commands
  rw [hpc] at hone
  have hbefore : s.mailbox.countP JobCommand.is_attach + s.pump.flow.attached.toNat + 1 ≤ 1 := hone
  have hrecord : ∀ r, s.exit_tx = some r → r ∈ s.pump.exits.map Prod.snd := fun r hr => h.record r (Or.inl hr)
  rcases send_cases hsend with rfl | rfl
  · refine ⟨h.mirrors, h.window, h.told, ?_, ?_, h.hooked, fun _ => hheld, ?_⟩
    · intro c hc
      rcases List.mem_append.1 hc with hc | hc
      · exact hcommands c hc
      · obtain rfl := List.mem_singleton.1 hc
        exact ⟨rfl, rfl, rfl⟩
    · show (s.mailbox ++ [req.attach]).countP JobCommand.is_attach + s.pump.flow.attached.toNat + 0 ≤ 1
      have hsingle : [req.attach].countP JobCommand.is_attach = 1 := rfl
      rw [List.countP_append, hsingle]
      omega
    · simpa [ServePc.record?] using hrecord
  · refine ⟨h.mirrors, h.window, h.told, hcommands, ?_, h.hooked, fun _ => hheld, ?_⟩
    · show s'.mailbox.countP JobCommand.is_attach + s'.pump.flow.attached.toNat + 0 ≤ 1
      omega
    · simpa [ServePc.record?] using hrecord

/-! ### Either task moves -/

theorem Serving.local_command (h : s.Serving req l bodies) (hmail : s.mailbox = cmd :: rest) :
    l.LocalEvent req.breaker (.wake (.command (some cmd))) ∧ rest.countP JobCommand.is_attach
        + (PumpEvent.wake (.command (some cmd))).attach?.isSome.toNat
        ≤ s.mailbox.countP JobCommand.is_attach := by
  have hown := h.commands cmd (by rw [hmail]; exact List.mem_cons_self)
  have hone := h.one_attach
  have hflow : s.pump.flow = l.flow := h.mirrors.models.flow
  rw [hmail, List.countP_cons] at hone
  rw [hmail, List.countP_cons]
  unfold Link.LocalEvent PumpEvent.attach? PumpEvent.ack?
  cases cmd with
  | ack generation acked_seq credit_bytes final_ack =>
    refine ⟨⟨by simp, ?_, by simp⟩, by simp⟩
    intro a ha
    cases ha
    exact hown
  | attach generation from_seq window_bytes =>
    obtain ⟨rfl, rfl, rfl⟩ := hown
    refine ⟨⟨?_, by simp, by simp⟩, by simp [JobCommand.is_attach]⟩
    intro a ha
    cases ha
    refine ⟨rfl, ?_⟩
    -- The one Attach is this one, so the pump is not attached yet.
    rw [← hflow]
    cases hatt : s.pump.flow.attached with
    | false => rfl
    | true =>
      rw [hatt] at hone
      simp [JobCommand.is_attach] at hone
      omega
  | detach => exact hown.elim
  | cancel => simp

theorem local_event (hplain : e.is_command = false) : l.LocalEvent req.breaker e ∧ e.attach? = none := by
  unfold Link.LocalEvent PumpEvent.attach? PumpEvent.ack?
  cases e with
  | finish duration_ms => simp
  | wake event =>
    cases event with
    | command cmd => simp [PumpEvent.is_command] at hplain
    | _ => simp

theorem Serving.step {event : LegacyEvent} (h : s.Serving req l bodies)
    (hfit : s.StepFits blake3 event) (hstep : Step blake3 req s event s') :
    ∃ l' bodies', s'.Serving req l' bodies' := by
  unfold Step LegacyOp.step at hstep
  cases event with
  | pump e =>
    dsimp only at hstep
    split_ifs at hstep with hguard
    rw [Bool.and_eq_true, Bool.not_eq_true'] at hguard
    obtain ⟨pump, hadvance, rfl⟩ := Option.map_eq_some_iff.1 hstep
    obtain ⟨hlocal, hnone⟩ : l.LocalEvent req.breaker e ∧ e.attach? = none := local_event hguard.2
    have hsame : s.mailbox.countP JobCommand.is_attach + e.attach?.isSome.toNat
        ≤ s.mailbox.countP JobCommand.is_attach := by simp [hnone]
    exact h.pump_step hguard.1 hadvance hfit hlocal (fun _ hcmd => hcmd) hsame
  | command =>
    dsimp only at hstep
    split at hstep
    · simp at hstep
    · next cmd rest hmail =>
        split_ifs at hstep with hbetween
        obtain ⟨pump, hadvance, rfl⟩ := Option.map_eq_some_iff.1 hstep
        obtain ⟨hlocal, hcount⟩ := h.local_command hmail
        refine h.pump_step hbetween hadvance ?_ hlocal ?_ hcount
        · intro body hbody
          simp [Pump.appended] at hbody
        · intro c hc
          rw [hmail]
          exact List.mem_cons_of_mem cmd hc
  | emit =>
    dsimp only at hstep
    split at hstep
    · simp at hstep
    · next frame more hframe =>
        cases hstep
        exact ⟨l, bodies, h.emit hframe⟩
  | on_exit =>
    dsimp only at hstep
    split_ifs at hstep
    obtain ⟨r, hr, rfl⟩ := Option.map_eq_some_iff.1 hstep
    refine ⟨l, bodies, h.mirrors, h.window, h.told, h.commands, h.one_attach, h.hooked, h.held, ?_⟩
    rintro record (hrecord | hrecord)
    · cases hrecord
      exact List.mem_map_of_mem (List.mem_of_mem_head? hr)
    · exact h.record record (Or.inr hrecord)
  | set_cell =>
    dsimp only at hstep
    split at hstep
    · next hpc =>
        cases hstep
        refine ⟨l, bodies, h.moved .attaching true s.buffers ?_ ?_ ?_⟩
        · rw [hpc]
          exact Nat.le_refl 1
        · intro _
          rw [hpc]
          exact ⟨rfl, rfl⟩
        · simp [ServePc.record?]
    · simp at hstep
  | attach =>
    dsimp only at hstep
    split at hstep
    · next hpc =>
        obtain ⟨t, hsend, rfl⟩ := Option.map_eq_some_iff.1 hstep
        exact ⟨l, bodies, h.attach hpc hsend⟩
    · simp at hstep
  | receive =>
    dsimp only at hstep
    split at hstep
    · next record hpc hexit =>
        cases hstep
        refine ⟨l, bodies, h.moved (.recorded record s.pump.watermark) s.mailbox_cell s.buffers
          (Nat.zero_le _) ?_ ?_⟩
        · intro _
          rw [hpc]
          exact ⟨rfl, rfl⟩
        · intro r hr
          exact Or.inl (hexit.trans hr)
    · simp at hstep
  | lost =>
    dsimp only at hstep
    split at hstep
    · cases hstep
      refine ⟨l, bodies, h.moved (.replied req.no_record) s.mailbox_cell s.buffers (Nat.zero_le _) ?_ ?_⟩
      · simp [ServePc.assembling]
      · simp [ServePc.record?]
    · simp at hstep
  | final_ack =>
    dsimp only at hstep
    split at hstep
    · next record acked hpc =>
        obtain ⟨t, hsend, rfl⟩ := Option.map_eq_some_iff.1 hstep
        have hsent : t.Serving req l bodies ∧ t.pc = .recorded record acked := by
          rcases send_cases hsend with rfl | rfl
          · exact ⟨h.post ⟨rfl, rfl⟩ rfl, hpc⟩
          · exact ⟨h, hpc⟩
        refine ⟨l, bodies, hsent.1.moved (.acked record) t.mailbox_cell t.buffers (Nat.zero_le _) ?_ ?_⟩
        · intro _
          rw [hsent.2]
          exact ⟨rfl, rfl⟩
        · intro r hr
          rw [hsent.2]
          exact Or.inr hr
    · simp at hstep
  | reply =>
    dsimp only at hstep
    split at hstep
    · next record hpc =>
        cases hstep
        refine ⟨l, bodies, h.moved (.replied (req.build record s.buffers)) s.mailbox_cell {} (Nat.zero_le _) ?_ ?_⟩
        · simp [ServePc.assembling]
        · simp [ServePc.record?]
    · simp at hstep
  | cancel =>
    cases hstep
    exact ⟨l, bodies, h.try_send trivial rfl⟩

theorem run_serving {retention : RetentionConfig} {deadline : Option ℕ} {config : JobConfig} {es : List LegacyEvent}
    (hrun : Run (Restrict (Step blake3 req) (StepFits blake3)) (start retention deadline config) es s) :
    ∃ l bodies, s.Serving req l bodies := by
  refine hrun.invariant (P := fun s => ∃ l bodies, s.Serving req l bodies) ?_
    ⟨_, _, start_serving req retention deadline config⟩
  rintro s e t ⟨hstep, hfit⟩ ⟨l, bodies, h⟩
  exact h.step hfit hstep

/-! ## When the reply is complete -/

theorem build_complete_iff {record : JobExit} {code : ℤ} {b : ReplyBuffers} {o : Output}
    (hexited : record.outcome = .exited code) :
    (req.build record b).Complete record o ↔ b.overflowed = true ∨
      b.stdout = o.stdout ∧ b.stderr = o.stderr ∧ b.stdout.length = record.stdout.total_bytes ∧
        b.stderr.length = record.stderr.total_bytes := by
  have hbuild : (req.build record b).Complete record o ↔
      (if b.overflowed then overflow_reply req.request_id b.total_bytes req.breaker
        else ⟨req.request_id, none, some (.exec ⟨code, b.stdout, b.stderr, false, record.duration_ms⟩)⟩
        : ControlResponse).Complete record o := by
    unfold LegacyRequest.build build_reply build_git_reply
    cases req.kind with
    | exec => simp only [hexited]
    | git =>
      simp only [hexited]
      split_ifs <;> rfl
  rw [hbuild]
  split_ifs with hover
  · simp [ControlResponse.Complete, overflow_reply, hover]
  · simp [ControlResponse.Complete, RespResult.stdout, RespResult.stderr, hover]

theorem Serving.handed_all (h : s.Serving req l bodies) (ho : s.pump.output.CarriedBy bodies) :
    bytes_on .stdout s.handed = s.pump.stdout_hash ∧ bytes_on .stderr s.handed = s.pump.stderr_hash ↔
      payload_sum s.handed = s.pump.stdout_total + s.pump.stderr_total := by
  have hsub : s.handed.Sublist bodies := ((List.take_sublist _ _).map _).trans h.emitted_sublist
  have hle := payload_sum_le hsub
  have hstdout : bytes_on .stdout bodies = s.pump.stdout_hash := ho.stdout
  have hstderr : bytes_on .stderr bodies = s.pump.stderr_hash := ho.stderr
  have htotal : payload_sum bodies = s.pump.stdout_total + s.pump.stderr_total := ho.total
  constructor
  · rintro ⟨hout, herr⟩
    -- The two pipes alone make up the total.
    have hboth : (bytes_on .stdout s.handed).length + (bytes_on .stderr s.handed).length
        ≤ payload_sum s.handed := bytes_on_length_le
    have hcount : s.pump.stdout_total = s.pump.stdout_hash.length := h.told.counted.stdout
    have hcount' : s.pump.stderr_total = s.pump.stderr_hash.length := h.told.counted.stderr
    rw [hout, herr] at hboth
    omega
  · intro hsum
    have hall : payload_sum s.handed = payload_sum bodies := hsum.trans htotal.symm
    exact ⟨(bytes_on_sublist hsub hall).trans hstdout, (bytes_on_sublist hsub hall).trans hstderr⟩

theorem Serving.handed_sum (h : s.Serving req l bodies) : payload_sum l.emitted_bodies
      = payload_sum s.handed + (s.emitting.map Frame.payload_len).sum := by
  have hhistory : s.pump.history = l.history := h.mirrors.models.history
  have hsplit : l.emitted_bodies = s.handed ++ s.emitting.map fun f => f.body := by
    unfold Link.emitted_bodies handed emitting
    rw [← hhistory, ← List.map_append, List.take_append_drop]
  rw [hsplit, payload_sum_append]
  congr 1
  unfold payload_sum
  rw [List.map_map]
  rfl

theorem Serving.ready_iff (h : s.Serving req l bodies) (ho : s.pump.output.CarriedBy bodies)
    (hfits : s.pump.stdout_total + s.pump.stderr_total ≤ req.breaker) :
    s.Ready req.breaker ↔ payload_sum s.handed = s.pump.stdout_total + s.pump.stderr_total := by
  have hflow : s.pump.flow = l.flow := h.mirrors.models.flow
  have hbodies : l.log.appended = bodies := h.mirrors.bodies
  have htotal : payload_sum l.log.appended = s.pump.stdout_total + s.pump.stderr_total := by
    rw [hbodies]
    exact ho.total
  have hhanded := h.handed_sum
  have hsent := h.window.sent_sum
  unfold Ready
  rw [if_pos hfits, hflow]
  constructor
  · rintro (hzero | ⟨hattached, hdone⟩)
    · omega
    · have hsettled := h.window.settled hattached (by omega)
      have hnone : (s.emitting.map Frame.payload_len).sum = 0 := by
        rw [List.sum_eq_zero_iff]
        intro n hn
        obtain ⟨f, hf, rfl⟩ := List.mem_map.1 hn
        exact hdone f hf
      omega
  · intro hall
    by_cases hzero : s.pump.stdout_total + s.pump.stderr_total = 0
    · exact Or.inl hzero
    · right
      constructor
      · by_contra hdetached
        -- Nothing is emitted to a consumer that has not attached.
        obtain ⟨-, hnone, -⟩ := h.window.idle (Bool.eq_false_of_not_eq_true hdetached)
        have hempty : payload_sum l.emitted_bodies = 0 := by
          unfold Link.emitted_bodies
          rw [hnone]
          rfl
        omega
      · intro f hf
        have hsum : (s.emitting.map Frame.payload_len).sum = 0 := by omega
        exact List.sum_eq_zero_iff.1 hsum _ (List.mem_map_of_mem hf)

theorem reply_cases (h : Step blake3 req s .reply s') : ∃ record, s.pc = .acked record ∧ s' = { s with
      buffers := {}
      pc := .replied (req.build record s.buffers) } := by
  unfold Step LegacyOp.step at h
  dsimp only at h
  split at h
  · next record hpc => exact ⟨record, hpc, (Option.some.inj h).symm⟩
  · simp at h

/-- **When a reply is complete.** In every run of the two tasks, whatever the order of
reads, attach, acks, exit and drain: the reply to an `exited` record carries exactly what
the child wrote, or is an error, if and only if the state it is assembled in is ready. -/
theorem reply_complete_iff {retention : RetentionConfig} {deadline : Option ℕ} {config : JobConfig}
    {es : List LegacyEvent}
    (hrun : Run (Restrict (Step blake3 req) (StepFits blake3)) (start retention deadline config) es s)
    (hreply : Step blake3 req s .reply s') :
    ∃ record response, s.pc = .acked record ∧ s'.pc = .replied response ∧ ∀ code, record.outcome = .exited code →
        (response.Complete record s.pump.output ↔ s.Ready req.breaker) := by
  obtain ⟨l, bodies, h⟩ := run_serving hrun
  obtain ⟨record, hpc, rfl⟩ := reply_cases hreply
  refine ⟨record, req.build record s.buffers, hpc, rfl, ?_⟩
  intro code hexited
  obtain ⟨r, hr, rfl⟩ := List.mem_map.1 (h.record record (Or.inr (by rw [hpc]; rfl)))
  obtain ⟨hrecord, hrecord'⟩ := h.told.record r hr
  have ho : s.pump.output.CarriedBy bodies := h.told.ended r hr code hexited
  have hheld := h.held (by rw [hpc]; rfl)
  have hcount : s.pump.stdout_total = s.pump.stdout_hash.length := h.told.counted.stdout
  have hcount' : s.pump.stderr_total = s.pump.stderr_hash.length := h.told.counted.stderr
  rw [build_complete_iff hexited, hheld.overflowed]
  by_cases hover : req.breaker < payload_sum s.handed
  · -- The breaker has tripped, so there was more output than it admits.
    have hsum := h.handed_sum
    have hsent := h.window.sent_sum
    have hbodies : l.log.appended = bodies := h.mirrors.bodies
    have htotal : payload_sum bodies = s.pump.stdout_total + s.pump.stderr_total := ho.total
    rw [hbodies] at hsent
    refine iff_of_true (Or.inl hover) ?_
    unfold Ready
    rw [if_neg (by omega), hheld.total]
    exact hover
  · obtain ⟨hout, herr⟩ := hheld.stored (Nat.not_lt.1 hover)
    rw [hout, herr]
    have hlengths : bytes_on .stdout s.handed = s.pump.output.stdout ∧
        bytes_on .stderr s.handed = s.pump.output.stderr ∧
        (bytes_on .stdout s.handed).length = r.2.stdout.total_bytes ∧
        (bytes_on .stderr s.handed).length = r.2.stderr.total_bytes ↔
        payload_sum s.handed = s.pump.stdout_total + s.pump.stderr_total := by
      rw [← h.handed_all ho]
      constructor
      · rintro ⟨hstdout, hstderr, -, -⟩
        exact ⟨hstdout, hstderr⟩
      · rintro ⟨hstdout, hstderr⟩
        refine ⟨hstdout, hstderr, ?_, ?_⟩
        · rw [hstdout, hrecord]
          exact hcount.symm
        · rw [hstderr, hrecord']
          exact hcount'.symm
    rw [hlengths, or_iff_right hover]
    by_cases hfits : s.pump.stdout_total + s.pump.stderr_total ≤ req.breaker
    · exact (h.ready_iff ho hfits).symm
    · refine iff_of_false (by omega) ?_
      unfold Ready
      rw [if_neg hfits, hheld.total]
      exact hover

end Serving

/-! ## Two runs -/

instance (blake3 : List UInt8 → List UInt8) (s : LegacyOp) (e : LegacyEvent) :
    Decidable (s.StepFits blake3 e) := by
  unfold StepFits
  split <;> infer_instance

def fittingStep (blake3 : List UInt8 → List UInt8) (req : LegacyRequest) (s : LegacyOp)
    (e : LegacyEvent) : Option LegacyOp :=
  if s.StepFits blake3 e then s.step blake3 req e else none

theorem play_reaches {blake3 : List UInt8 → List UInt8} {req : LegacyRequest} {s : LegacyOp}
    {es : List LegacyEvent} {q : LegacyOp → Bool}
    (h : (play (fittingStep blake3 req) s es).any q = true) :
    ∃ s', Run (Restrict (Step blake3 req) (StepFits blake3)) s es s' ∧ q s' = true := by
  obtain ⟨hsome, hq⟩ := (Option.any_eq_true_iff_get _ _).1 h
  have hplayed : Run (Restrict (fun s e t => fittingStep blake3 req s e = some t) fun _ _ => True)
      s es _ := play_run (fun _ _ _ => trivial) (Option.some_get hsome).symm
  refine ⟨_, ?_, hq⟩
  refine hplayed.mono (P := fun _ => True) (fun _ _ _ _ _ => trivial) ?_ trivial
  rintro t e t' - ⟨hstep, -⟩
  unfold fittingStep at hstep
  split_ifs at hstep with hfits
  exact ⟨hstep, hfits⟩

def floorOp : LegacyOp := start ⟨16777216, 1000000, 268435456, 8388608⟩ none ⟨131072⟩

def floorRequest : LegacyRequest := ⟨.exec, "r-1", 67108864⟩

/-- What is left of a job whose child has written its output: the exit, and the ends of
the pipes. -/
def childEnds : List LegacyEvent :=
  [.pump (.wake (.child_exit (.ok (some 0)))), .pump (.wake (.read .stdout (.ok []))),
    .pump (.wake (.read .stderr (.ok [])))]

def attachedInTime : List LegacyEvent :=
  [.set_cell, .attach, .command, .pump (.wake .oneByte), .emit] ++ childEnds ++
    [.pump (.finish 0), .emit, .on_exit, .receive, .final_ack]

def overBeforeAttach : List LegacyEvent := .pump (.wake .oneByte) :: childEnds ++
    [.pump (.finish 0), .on_exit, .set_cell, .attach, .receive, .final_ack]

theorem reply_complete_iff_attachedInTime : ∃ s s', Run (Restrict (Step (fun _ => []) floorRequest)
      (StepFits fun _ => [])) floorOp attachedInTime s ∧
    Step (fun _ => []) floorRequest s .reply s' ∧
    ∃ record response, s.pc = .acked record ∧ s'.pc = .replied response ∧ ∀ code, record.outcome = .exited code →
        (response.Complete record s.pump.output ↔ s.Ready floorRequest.breaker) := by
  have hreach : (play (fittingStep (fun _ => []) floorRequest) floorOp attachedInTime).any
      (fun s => (s.step (fun _ => []) floorRequest .reply).isSome) = true := by decide +kernel
  obtain ⟨s, hrun, hreply⟩ := play_reaches hreach
  obtain ⟨s', hreply⟩ := Option.isSome_iff_exists.1 hreply
  exact ⟨s, s', hrun, hreply, reply_complete_iff hrun hreply⟩

/-- **The reply that overtakes the output.** The child writes a byte and exits before the
Attach is serviced, and the record makes the reply before the pump has sent anything: exit
code 0, no error, no output, under a record that counts one byte. -/
theorem reply_overtakes_output : ∃ s s' record response,
    Run (Restrict (Step (fun _ => []) floorRequest) (StepFits fun _ => [])) floorOp overBeforeAttach s ∧
    Step (fun _ => []) floorRequest s .reply s' ∧ s.pc = .acked record ∧
    s'.pc = .replied response ∧ record.outcome = .exited 0 ∧ response.error = none ∧
    record.stdout.total_bytes = 1 ∧ ¬ response.Complete record s.pump.output := by
  have hreach : (play (fittingStep (fun _ => []) floorRequest) floorOp overBeforeAttach).any
      (fun s => (s.step (fun _ => []) floorRequest .reply).isSome &&
        decide (∀ record ∈ s.pc.record?, record.outcome = .exited 0 ∧ record.stdout.total_bytes = 1 ∧
          (floorRequest.build record s.buffers).error = none ∧
          ¬ (floorRequest.build record s.buffers).Complete record s.pump.output)) = true := by
    decide +kernel
  obtain ⟨s, hrun, hfacts⟩ := play_reaches hreach
  rw [Bool.and_eq_true, decide_eq_true_eq] at hfacts
  obtain ⟨hreply, hrecord⟩ := hfacts
  obtain ⟨s', hreply⟩ := Option.isSome_iff_exists.1 hreply
  obtain ⟨record, hpc, rfl⟩ := reply_cases hreply
  obtain ⟨hexited, hcount, herror, hshort⟩ := hrecord record (by rw [hpc]; rfl)
  exact ⟨s, _, record, floorRequest.build record s.buffers, hrun, hreply, hpc, rfl, hexited, herror, hcount, hshort⟩

end LegacyOp

end OpenGeni.Agent
