/-
The pump simulates the link.

`Pump.Models` says that a pump represents a link: its retention log represents the
link's sequence, and flow and history are the link's. Each function of the pump
gets one lemma here, saying which link it represents afterwards and that nothing
else of the pump moved; `pump_step_link` puts them together for one step of the
task, and `pump_run_link` for a run.

`catch_up` is where the two differ most. The pump walks its tail in bites read
under the remaining allowance, and asks `may_send` again for each frame of a bite;
`send_bite_models` shows that a bite never reaches past the frame at which a flush
stops, so that the bites of one `catch_up` add up to one flush.
-/
import OpenGeni.Agent.Link

namespace OpenGeni.Agent

open OpenGeni.Lib OpenGeni.Engine

namespace Pump

structure Models (p : Pump) (l : Link) : Prop where
  retention : p.retention.Refines l.log
  flow : p.flow = l.flow
  history : p.history = l.history

/-- `p'` is `p` but for the fields that make up its link, and its retention log has
kept its limits. -/
structure LinkOnly (p p' : Pump) : Prop where
  fields : p' = { p with retention := p'.retention, flow := p'.flow, watermark := p'.watermark,
                         history := p'.history }
  limits : p.retention.KeepsLimits p'.retention

theorem LinkOnly.refl (p : Pump) : p.LinkOnly p := ⟨rfl, .refl _⟩

variable {p q r : Pump}

theorem LinkOnly.trans (h : p.LinkOnly q) (h' : q.LinkOnly r) : p.LinkOnly r where
  fields := by rw [h'.fields, h.fields]
  limits := h.limits.trans h'.limits

theorem send_linkOnly (p : Pump) (f : Frame) : p.LinkOnly (p.send f) := ⟨rfl, .refl _⟩

structure SameSetup (p p' : Pump) : Prop where
  limits : p.retention.KeepsLimits p'.retention
  retention_config : p'.retention_config = p.retention_config
  config : p'.config = p.config
  hooks : p'.hooks = p.hooks

theorem SameSetup.trans (h : p.SameSetup q) (h' : q.SameSetup r) : p.SameSetup r where
  limits := h.limits.trans h'.limits
  retention_config := h'.retention_config.trans h.retention_config
  config := h'.config.trans h.config
  hooks := h'.hooks.trans h.hooks

theorem LinkOnly.sameSetup {p' : Pump} (h : p.LinkOnly p') : p.SameSetup p' := by
  have hfields := h.fields
  exact ⟨h.limits, by rw [hfields], by rw [hfields], by rw [hfields]⟩

section Sends

variable {p : Pump} {l : Link}

theorem new_models (retention : RetentionConfig) (hooks : JobHooks) (deadline : Option ℕ)
    (config : JobConfig) : (new retention hooks deadline config).Models Link.init :=
  ⟨RetentionLog.new_refines retention, rfl, rfl⟩

theorem send_models (h : p.Models l) (f : Frame) : (p.send f).Models (l.send f) where
  retention := h.retention
  flow := by
    show p.flow.on_sent f.seq f.body.payload_len = _
    rw [h.flow]
    rfl
  history := by
    show History.mk p.history.attach_from (p.history.attachment ++ [⟨f, p.flow.window_bytes, p.retention.floor⟩])
      (p.history.emitted ++ [f]) = _
    rw [h.history, h.flow, h.retention.floor]
    rfl

/-! ## `catch_up` -/

/-- **One bite.** Read under the remaining allowance, it is sent up to where the
flush stops: either all of it goes out and the flush goes on behind it, or the
early return is the end of the flush. -/
theorem send_bite_models (queue : List Frame) {spent budget : ℕ} (h : p.Models l)
    (hatt : l.flow.attached = true) (hq : l.pending = queue) (hspent : spent < budget)
    (hbudget : l.flow.window_bytes - l.flow.unacked_sent_bytes = budget - spent) :
    ∃ b p' l', p.send_bite (readWithin (fun f => f.body.payload_len) budget spent queue)
        = (b, p') ∧ p'.Models l' ∧ p.LinkOnly p' ∧ l'.flow.attached = true ∧
      l'.flush = l.flush ∧ (b = false → l' = l.flush) ∧
      (b = true → l'.pending.length ≤ queue.length - 1) := by
  induction queue generalizing p l spent with
  | nil => exact ⟨true, p, l, rfl, h, .refl p, hatt, rfl,
      fun hb => absurd hb (by decide), fun _ => by rw [hq]; exact le_rfl⟩
  | cons f rest ih =>
    have hroom : l.flow.unacked_sent_bytes < l.flow.window_bytes := by omega
    have hread : ∃ tail, readWithin (fun f : Frame => f.body.payload_len) budget spent (f :: rest)
        = f :: tail ∧ (tail = [] ∨ (spent + f.body.payload_len < budget ∧
          tail = readWithin (fun f => f.body.payload_len) budget (spent + f.body.payload_len) rest)) := by
      rw [readWithin]
      split_ifs with hstop
      · exact ⟨[], rfl, Or.inl rfl⟩
      · exact ⟨_, rfl, Or.inr ⟨Nat.not_le.1 hstop, rfl⟩⟩
    obtain ⟨tail, hbite, htail⟩ := hread
    rw [hbite, send_bite, h.flow]
    by_cases hmay : l.flow.may_send f.body.payload_len = true
    · rw [hmay]
      have hflush : l.flush = (l.send f).flush := Link.flush_send hatt hroom hq hmay
      have hpend : (l.send f).pending = rest := Link.send_pending hq
      rcases htail with rfl | ⟨hlt, rfl⟩
      · refine ⟨true, p.send f, l.send f, rfl, send_models h f, send_linkOnly p f, hatt,
          hflush.symm, fun hb => absurd hb (by decide), ?_⟩
        intro _
        rw [hpend]
        exact le_rfl
      · obtain ⟨b, p', l', hsend, hmod, honly, hatt', hflush', hstop, hgo⟩ :=
          ih (send_models h f) (l := l.send f) hatt hpend hlt (by
            rw [Link.send_window, Link.send_unacked]
            show _ - (_ + f.body.payload_len) = _
            omega)
        refine ⟨b, p', l', hsend, hmod, (send_linkOnly p f).trans honly, hatt', ?_, ?_, ?_⟩
        · rw [hflush', hflush]
        · intro hb; rw [hstop hb, hflush]
        · intro hb
          have hshort := hgo hb
          rw [List.length_cons]
          omega
    · have hno : l.flow.may_send f.body.payload_len = false := Bool.not_eq_true _ ▸ hmay
      rw [hno]
      exact ⟨false, p, l, rfl, h, .refl p, hatt, rfl,
        fun _ => (Link.flush_blocked hq hno).symm, fun hb => absurd hb Bool.false_ne_true⟩

theorem catch_up_loop_models (fuel : ℕ) (h : p.Models l) (hfuel : l.pending.length < fuel) :
    ∃ p', p.catch_up_loop fuel = some (.ok (), p') ∧ p'.Models l.flush ∧ p.LinkOnly p' := by
  induction fuel generalizing p l with
  | zero => exact absurd hfuel (Nat.not_lt_zero _)
  | succ fuel ih =>
    rw [catch_up_loop, h.flow]
    by_cases hatt : l.flow.attached = true
    · rw [hatt, h.retention.floor, h.retention.high_seq]
      show ∃ p', (if l.log.high ≤ l.cursor then _ else _) = _ ∧ _
      by_cases hdone : l.log.high ≤ l.cursor
      · rw [if_pos hdone, Link.flush_nil (Link.pending_eq_nil_iff.2 hdone)]
        exact ⟨p, rfl, h, .refl p⟩
      · rw [if_neg hdone]
        by_cases hroom : 0 < l.flow.allowance
        · rw [if_neg hroom.ne']
          -- The tail above the cursor, read under the allowance.
          have hread : p.retention.replay_bounded (max l.flow.sent_hi l.log.floor) l.flow.allowance
              = .ok (readWithin (fun f => f.body.payload_len) l.flow.allowance 0 l.pending) := by
            rw [RetentionLog.replay_bounded_refines h.retention, if_neg (Nat.not_lt.2 (Nat.le_max_right _ _))]
            rfl
          have hne : l.pending ≠ [] := fun hnil => hdone (Link.pending_eq_nil_iff.1 hnil)
          have hprefix : BudgetPrefix (fun f : Frame => f.body.payload_len) (l.flow.allowance - 0) l.pending _ :=
            readWithin_budgetPrefix 0 l.pending (Nat.zero_le _)
          have hbite := hprefix.nonempty hne
          have hbudget : l.flow.window_bytes - l.flow.unacked_sent_bytes = l.flow.allowance - 0 := by
            rw [CreditFlow.allowance_attached hatt]
            rfl
          obtain ⟨b, p', l', hsend, hmod, honly, -, hflush, hstop, hgo⟩ :=
            send_bite_models l.pending h hatt rfl hroom hbudget
          rw [hread]
          dsimp only
          rw [if_neg (by rwa [List.isEmpty_iff]), hsend]
          cases b with
          | false =>
            rw [hstop rfl] at hmod
            exact ⟨p', rfl, hmod, honly⟩
          | true =>
            have hpos := List.length_pos_of_ne_nil hne
            have hshort := hgo rfl
            obtain ⟨p'', hloop, hmod', honly'⟩ := ih hmod (by omega)
            rw [hflush] at hmod'
            exact ⟨p'', hloop, hmod', honly.trans honly'⟩
        · have hzero : l.flow.allowance = 0 := Nat.eq_zero_of_not_pos hroom
          rw [CreditFlow.allowance_pos_iff hatt, Nat.not_lt] at hroom
          rw [if_pos hzero, Link.flush_exhausted hroom]
          exact ⟨p, rfl, h, .refl p⟩
    · have hdet : l.flow.attached = false := Bool.not_eq_true _ ▸ hatt
      rw [hdet, Link.flush_detached hdet]
      exact ⟨p, rfl, h, .refl p⟩

/-- **`catch_up` is a flush.** It always returns, and it never fails. -/
theorem catch_up_models (h : p.Models l) :
    ∃ p', p.catch_up = some (.ok (), p') ∧ p'.Models l.flush ∧ p.LinkOnly p' := by
  refine catch_up_loop_models _ h ?_
  rw [h.retention.high_seq, Link.pending, framesAbove_length]
  omega

theorem drive_catch_up_models (h : p.Models l) :
    ∃ p', p.drive_catch_up = some p' ∧ p'.Models l.flush ∧ p.LinkOnly p' := by
  obtain ⟨p', hcatch, hmod, honly⟩ := catch_up_models h
  exact ⟨p', by rw [drive_catch_up, hcatch], hmod, honly⟩

/-! ## The other operations -/

/-- **`append_and_send`** appends to the link, or fails with `Overflow` and leaves
it alone. -/
theorem append_and_send_models (h : p.Models l) {body : FrameBody}
    (hfit : (⟨p.retention.next_seq, body⟩ : Frame).Fits) :
    ∃ r p', p.append_and_send body = some (r, p') ∧ p.LinkOnly p' ∧
      ((r = .ok (l.log.high + 1) ∧ p'.Models (l.append body)) ∨
        (∃ a b c, r = .error (.overflow a b c)) ∧ p'.Models l) := by
  obtain ⟨log, flow, history⟩ := l
  obtain ⟨href₀, rfl, rfl⟩ := h
  obtain ⟨r, retention, happ, -, hcase⟩ := RetentionLog.append_refines href₀ hfit
  have hlimits := RetentionLog.append_keepsLimits href₀ hfit happ
  rw [append_and_send, happ]
  rcases hcase with ⟨rfl, href, -⟩ | ⟨rfl, href, -⟩
  · refine ⟨_, _, rfl, ?_, Or.inl ⟨rfl, ?_⟩⟩
    · split_ifs
      · exact ⟨rfl, hlimits⟩
      · exact ⟨rfl, hlimits⟩
    · have hmod : ({ p with retention, watermark := log.high + 1 } : Pump).Models
          ⟨log.append body, p.flow, p.history⟩ := ⟨href, rfl, rfl⟩
      rw [href₀.high_seq, Link.append]
      split_ifs with hlive
      · exact send_models hmod _
      · exact hmod
  · exact ⟨_, _, rfl, ⟨rfl, hlimits⟩, Or.inr ⟨⟨_, _, _, rfl⟩, href, rfl, rfl⟩⟩

theorem apply_attach_models (h : p.Models l) (generation from_seq window : ℕ) :
    ∃ p', p.apply_attach generation from_seq window = some p' ∧ p.LinkOnly p' ∧
      p'.Models (l.attach generation from_seq window) := by
  obtain ⟨log, flow, history⟩ := l
  obtain ⟨href, rfl, rfl⟩ := h
  rw [apply_attach, href.high_seq, Link.attach]
  split_ifs with hstale
  · rw [CreditFlow.attach_stale _ _ hstale]
    exact ⟨p, rfl, .refl p, href, rfl, rfl⟩
  · obtain ⟨hzero, hcur⟩ := not_or.1 hstale
    rw [CreditFlow.attach_accepted _ _ hzero (Nat.not_lt.1 hcur)]
    let l₁ := Link.fresh ⟨log, p.flow, p.history⟩ generation from_seq window
    let p₁ : Pump := { p with flow := l₁.flow, history := l₁.history }
    have hmod₁ : p₁.Models l₁ := ⟨href, rfl, rfl⟩
    obtain ⟨p', hdrive, hmod, honly⟩ := drive_catch_up_models hmod₁
    exact ⟨p', hdrive, LinkOnly.trans (q := p₁) ⟨rfl, .refl _⟩ honly, hmod⟩

theorem apply_ack_models (h : p.Models l) (generation acked_seq credit : ℕ) :
    ∃ applied p', p.apply_ack generation acked_seq credit = some (applied, p') ∧ p.LinkOnly p' ∧
      p'.Models (l.ack generation acked_seq credit) ∧
      (applied = true ↔ generation = l.flow.attach_gen) := by
  obtain ⟨log, flow, history⟩ := l
  obtain ⟨href, rfl, rfl⟩ := h
  -- What the ack frees, counted before anything is freed.
  have hfreed : p.retention.payload_bytes_in_range log.floor (min acked_seq p.flow.sent_hi)
      = log.weight FrameBody.payload_len log.floor (min acked_seq p.flow.sent_hi) := by
    rw [RetentionLog.payload_bytes_in_range_refines href, Nat.max_self, ← AckLog.weight_min_high]
    rfl
  rw [apply_ack, href.floor, hfreed, Link.ack]
  split_ifs with hstale
  · rw [CreditFlow.on_ack_stale _ _ hstale]
    exact ⟨false, p, rfl, .refl p, ⟨href, rfl, rfl⟩, iff_of_false Bool.false_ne_true hstale⟩
  · rw [CreditFlow.on_ack_current _ _ (not_not.1 hstale)]
    obtain ⟨retention, hack, href', -⟩ := RetentionLog.ack_refines href acked_seq
    have hlimits := RetentionLog.ack_keepsLimits href hack
    let p₁ : Pump := { p with
      flow := (Link.acked ⟨log, p.flow, p.history⟩ acked_seq credit).flow, retention }
    have hmod₁ : p₁.Models (Link.acked ⟨log, p.flow, p.history⟩ acked_seq credit) := ⟨href', rfl, rfl⟩
    obtain ⟨p', hdrive, hmod, honly⟩ := drive_catch_up_models hmod₁
    refine ⟨true, p', ?_, LinkOnly.trans (q := p₁) ⟨rfl, hlimits⟩ honly, hmod, iff_of_true rfl (not_not.1 hstale)⟩
    simp only [hack]
    show p₁.drive_catch_up.map _ = _
    rw [hdrive]
    rfl

end Sends

def appended (blake3 : List UInt8 → List UInt8) (p : Pump) : PumpEvent → Option FrameBody
  | .wake .progress_tick => some .progress
  | .wake (.read channel (.ok (b :: bytes))) => some (.data channel (b :: bytes))
  | .finish duration_ms => some (.exit (p.hooks.encode_exit (p.exit_record blake3 duration_ms)))
  | _ => none

/-- What the step appends fits a record of the retention log: the payload length
is a `u32`, the seq a `u64`. -/
def StepFits (blake3 : List UInt8 → List UInt8) (p : Pump) (e : PumpEvent) : Prop :=
  ∀ body ∈ p.appended blake3 e, (⟨p.retention.next_seq, body⟩ : Frame).Fits

instance (blake3 : List UInt8 → List UInt8) (p : Pump) (e : PumpEvent) :
    Decidable (p.StepFits blake3 e) :=
  inferInstanceAs (Decidable (∀ body ∈ p.appended blake3 e, _))

end Pump

def PumpEvent.Carries : PumpEvent → FrameBody → Prop
  | .wake .progress_tick, .progress => True
  | .wake (.read channel (.ok bytes)), .data channel' bytes' =>
    channel = channel' ∧ bytes = bytes' ∧ bytes ≠ []
  | .finish _, .exit _ => True
  | _, _ => False

def PumpEvent.ack? : PumpEvent → Option (ℕ × ℕ × ℕ)
  | .wake (.command (some (.ack generation acked_seq credit_bytes _))) =>
    some (generation, acked_seq, credit_bytes)
  | _ => none

def PumpEvent.attach? : PumpEvent → Option (ℕ × ℕ × ℕ)
  | .wake (.command (some (.attach generation from_seq window_bytes))) =>
    some (generation, from_seq, window_bytes)
  | _ => none

/-- The events that do not address the link: neither an attach nor an ack nor a
detach. -/
def PumpEvent.Quiet : PumpEvent → Prop
  | .wake (.command (some .cancel)) => True
  | .wake (.command (some _)) => False
  | _ => True

inductive Link.Step (l : Link) : PumpEvent → Link → Prop
  | attach (generation from_seq window_bytes : ℕ) :
      Step l (.wake (.command (some (.attach generation from_seq window_bytes))))
        (l.attach generation from_seq window_bytes)
  | ack (generation acked_seq credit_bytes : ℕ) (final_ack : Bool) :
      Step l (.wake (.command (some (.ack generation acked_seq credit_bytes final_ack))))
        (l.ack generation acked_seq credit_bytes)
  | detach : Step l (.wake (.command (some .detach))) l.detach
  | append {e : PumpEvent} {body : FrameBody} (h : e.Carries body) : Step l e (l.append body)
  | quiet {e : PumpEvent} (h : e.Quiet) : Step l e l

namespace Pump

section Steps

variable {blake3 : List UInt8 → List UInt8} {p p' : Pump} {l : Link} {e : PumpEvent}

theorem Models.congr (h : p.Models l) (hr : p'.retention = p.retention) (hf : p'.flow = p.flow)
    (hh : p'.history = p.history) : p'.Models l where
  retention := by rw [hr]; exact h.retention
  flow := by rw [hf]; exact h.flow
  history := by rw [hh]; exact h.history

/-- What one event does to the link: the pump keeps its setup and represents the
link after a step with that event. -/
def Follows (p : Pump) (l : Link) (e : PumpEvent) (p' : Pump) : Prop :=
  p.SameSetup p' ∧ ∃ l', p'.Models l' ∧ l.Step e l'

theorem Models.follows_quiet (h : p.Models l) (hquiet : e.Quiet) (hsetup : p.SameSetup p')
    (hr : p'.retention = p.retention) (hf : p'.flow = p.flow) (hh : p'.history = p.history) :
    p.Follows l e p' :=
  ⟨hsetup, l, h.congr hr hf hh, .quiet hquiet⟩

theorem append_or_fail_models (h : p.Models l) (body : FrameBody) (hcarries : e.Carries body)
    (hquiet : e.Quiet) (hfit : (⟨p.retention.next_seq, body⟩ : Frame).Fits) :
    ∃ p', p.append_or_fail body = some p' ∧ p.Follows l e p' := by
  obtain ⟨r, p', happ, honly, hcase⟩ := append_and_send_models h hfit
  rw [append_or_fail, happ]
  rcases hcase with ⟨rfl, hmod⟩ | ⟨⟨a, b, c, rfl⟩, hmod⟩
  · exact ⟨p', rfl, honly.sameSetup, _, hmod, .append hcarries⟩
  · refine ⟨_, rfl, honly.sameSetup.trans ⟨.refl _, rfl, rfl, rfl⟩, l, hmod.congr rfl rfl rfl, ?_⟩
    exact .quiet hquiet

theorem handle_command_models (h : p.Models l) (cmd : JobCommand) :
    ∃ p', p.handle_command cmd = some p' ∧ p.Follows l (.wake (.command (some cmd))) p' := by
  cases cmd with
  | ack generation acked_seq credit_bytes final_ack =>
    obtain ⟨applied, p', happ, honly, hmod, -⟩ := apply_ack_models h generation acked_seq credit_bytes
    rw [handle_command, happ]
    -- The final flag touches `final_acked` at most.
    have hfollows : ∀ q : Pump, p'.SameSetup q → q.retention = p'.retention →
        q.flow = p'.flow → q.history = p'.history →
        p.Follows l (.wake (.command (some (.ack generation acked_seq credit_bytes final_ack)))) q :=
      fun q hsetup hr hf hh => ⟨honly.sameSetup.trans hsetup, _, hmod.congr hr hf hh,
        .ack generation acked_seq credit_bytes final_ack⟩
    have hkept := hfollows p' ⟨.refl _, rfl, rfl, rfl⟩ rfl rfl rfl
    dsimp only
    split_ifs
    · cases p'.exit_fence with
      | none => exact ⟨p', rfl, hkept⟩
      | some fence =>
        dsimp only
        split_ifs
        · exact ⟨_, rfl, hfollows _ ⟨.refl _, rfl, rfl, rfl⟩ rfl rfl rfl⟩
        · exact ⟨p', rfl, hkept⟩
    · exact ⟨p', rfl, hkept⟩
  | attach generation from_seq window_bytes =>
    obtain ⟨p', hatt, honly, hmod⟩ := apply_attach_models h generation from_seq window_bytes
    exact ⟨p', hatt, honly.sameSetup, _, hmod, .attach generation from_seq window_bytes⟩
  | detach =>
    refine ⟨_, rfl, ⟨.refl _, rfl, rfl, rfl⟩, l.detach, ⟨h.retention, ?_, h.history⟩, .detach⟩
    show p.flow.detach = l.flow.detach
    rw [h.flow]
  | cancel =>
    rw [handle_command]
    split_ifs
    · exact ⟨_, rfl, h.follows_quiet trivial ⟨.refl _, rfl, rfl, rfl⟩ rfl rfl rfl⟩
    · exact ⟨p, rfl, h.follows_quiet trivial ⟨.refl _, rfl, rfl, rfl⟩ rfl rfl rfl⟩

theorem handle_models (h : p.Models l) (event : Event) (hfit : p.StepFits blake3 (.wake event)) :
    ∃ p', p.handle event = some p' ∧ p.Follows l (.wake event) p' := by
  cases event with
  | command cmd =>
    cases cmd with
    | none =>
      rw [handle]
      split_ifs
      · exact ⟨_, rfl, h.follows_quiet trivial ⟨.refl _, rfl, rfl, rfl⟩ rfl rfl rfl⟩
      · exact ⟨_, rfl, h.follows_quiet trivial ⟨.refl _, rfl, rfl, rfl⟩ rfl rfl rfl⟩
    | some cmd => exact handle_command_models h cmd
  | child_exit status =>
    cases status with
    | error error =>
      exact ⟨_, rfl, h.follows_quiet trivial ⟨.refl _, rfl, rfl, rfl⟩ rfl rfl rfl⟩
    | ok code => exact ⟨_, rfl, h.follows_quiet trivial ⟨.refl _, rfl, rfl, rfl⟩ rfl rfl rfl⟩
  | deadline => exact ⟨_, rfl, h.follows_quiet trivial ⟨.refl _, rfl, rfl, rfl⟩ rfl rfl rfl⟩
  | progress_tick =>
    exact append_or_fail_models h .progress trivial trivial (hfit _ rfl)
  | read channel result =>
    cases result with
    | error error =>
      exact ⟨_, rfl, h.follows_quiet trivial ⟨.refl _, rfl, rfl, rfl⟩ rfl rfl rfl⟩
    | ok bytes =>
      cases bytes with
      | nil =>
        refine ⟨p.close_pipe channel, rfl, ?_⟩
        cases channel <;> exact h.follows_quiet trivial ⟨.refl _, rfl, rfl, rfl⟩ rfl rfl rfl
      | cons b bytes =>
        -- Digesting the bytes touches no field of the link.
        have hdigested : ∀ q : Pump, p.SameSetup q → q.retention = p.retention →
            q.flow = p.flow → q.history = p.history →
            ∃ p', q.append_or_fail (.data channel (b :: bytes)) = some p' ∧
              p.Follows l (.wake (.read channel (.ok (b :: bytes)))) p' := by
          intro q hsetup hr hf hh
          have hfit' : (⟨q.retention.next_seq, .data channel (b :: bytes)⟩ : Frame).Fits := by
            rw [hr]; exact hfit _ rfl
          obtain ⟨p', happ, hsetup', hlink⟩ := append_or_fail_models
            (e := .wake (.read channel (.ok (b :: bytes)))) (h.congr hr hf hh)
            (.data channel (b :: bytes)) ⟨rfl, rfl, List.cons_ne_nil _ _⟩ trivial hfit'
          exact ⟨p', happ, hsetup.trans hsetup', hlink⟩
        cases channel with
        | _ => exact hdigested _ ⟨.refl _, rfl, rfl, rfl⟩ rfl rfl rfl

theorem finish_models (h : p.Models l) (duration_ms : ℕ) (hfit : p.StepFits blake3 (.finish duration_ms)) :
    ∃ p', p.finish blake3 duration_ms = some p' ∧ p.Follows l (.finish duration_ms) p' := by
  have hmod₀ : ({ p with pending_outcome := none } : Pump).Models l := h.congr rfl rfl rfl
  obtain ⟨r, p', happ, honly, hcase⟩ := append_and_send_models hmod₀ (hfit _ rfl)
  have hsetup : p.SameSetup p' :=
    SameSetup.trans (q := { p with pending_outcome := none }) ⟨.refl _, rfl, rfl, rfl⟩ honly.sameSetup
  rw [finish, happ]
  refine ⟨_, rfl, hsetup.trans ⟨.refl _, rfl, rfl, rfl⟩, ?_⟩
  rcases hcase with ⟨rfl, hmod⟩ | ⟨-, hmod⟩
  · exact ⟨_, hmod.congr rfl rfl rfl, .append trivial⟩
  · exact ⟨l, hmod.congr rfl rfl rfl, .quiet trivial⟩

/-- **One step of the pump is one step of the link.** -/
theorem pump_step_link (hstep : PumpStep blake3 p e p') (hfit : p.StepFits blake3 e)
    (h : p.Models l) : p.Follows l e p' := by
  cases hstep with
  | wake _ _ _ hres =>
    obtain ⟨q, hq, hfollows⟩ := handle_models h _ hfit
    rw [hres] at hq
    exact Option.some.inj hq ▸ hfollows
  | finish _ _ hres =>
    obtain ⟨q, hq, hfollows⟩ := finish_models h _ hfit
    rw [hres] at hq
    exact Option.some.inj hq ▸ hfollows
  | linger _ _ hres =>
    obtain ⟨q, hq, hfollows⟩ := handle_command_models h _
    rw [hres] at hq
    exact Option.some.inj hq ▸ hfollows
  | orphan _ _ => exact h.follows_quiet trivial ⟨.refl _, rfl, rfl, rfl⟩ rfl rfl rfl

/-- **What the link keeps, the pump keeps.** An invariant of the link's steps,
under a condition `Ok` on the pump and its event, holds of the link that a pump
represents after any run whose steps meet the condition. -/
theorem pump_run_link {Inv : Link → Prop} {Ok : Pump → PumpEvent → Prop}
    {retention : RetentionConfig} {hooks : JobHooks} {deadline : Option ℕ} {config : JobConfig}
    {es : List PumpEvent} (hinit : Inv Link.init)
    (hstep : ∀ (p : Pump) (l : Link) (e : PumpEvent) (l' : Link), p.Models l → Ok p e → Inv l → l.Step e l' → Inv l')
    (hrun : Run (Restrict (PumpStep blake3) fun p e => p.StepFits blake3 e ∧ Ok p e)
      (new retention hooks deadline config) es p) :
    ∃ l, p.Models l ∧ Inv l := by
  refine hrun.invariant (P := fun p => ∃ l, p.Models l ∧ Inv l) ?_
    ⟨_, new_models retention hooks deadline config, hinit⟩
  rintro p e p' ⟨hpump, hfit, hok⟩ ⟨l, hmod, hinv⟩
  obtain ⟨-, l', hmod', hlink⟩ := pump_step_link hpump hfit hmod
  exact ⟨l', hmod', hstep p l e l' hmod hok hinv hlink⟩

end Steps

end Pump

end OpenGeni.Agent
