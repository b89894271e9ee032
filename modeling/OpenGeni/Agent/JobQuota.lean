/-
Whether a detached job parks, or is killed by its own quota.

While nobody is attached the pump reads only under `retention_headroom`, which
keeps one max-size frame in reserve. That is meant to keep the Exit frame
appendable, so that a job which fills its quota stops reading and waits. Two things
are missing from the sum: the gate reserves payload, while the ledger charges
payload plus the overhead of a record, and a progress tick appends without asking
the gate. So the job parks as long as everything it appended, overhead included,
still leaves a max-size record free, and it is killed with `Overflow` at the first
append past the quota. `detached_op_parks_iff` is that line, for every reachable
detached pump and every sequence of reads and ticks.
-/
import OpenGeni.Agent.JobLink

namespace OpenGeni.Agent

open OpenGeni.Lib OpenGeni.Engine

/-- What the child's output and the ticker append: a read that delivered bytes, or
a progress tick. -/
def Event.output? : Event → Option FrameBody
  | .progress_tick => some .progress
  | .read channel (.ok (b :: bytes)) => some (.data channel (b :: bytes))
  | _ => none

theorem Event.output_cases {event : Event} {body : FrameBody} (h : event.output? = some body) :
    (event = .progress_tick ∧ body = .progress) ∨ ∃ channel b bytes, event = .read channel (.ok (b :: bytes)) ∧
        body = .data channel (b :: bytes) := by
  unfold Event.output? at h
  split at h
  · exact Or.inl ⟨rfl, (Option.some.inj h).symm⟩
  · exact Or.inr ⟨_, _, _, rfl, (Option.some.inj h).symm⟩
  · contradiction

def outputCost (events : List Event) : ℕ := ((events.filterMap Event.output?).map record_cost).sum

theorem outputCost_cons {event : Event} {body : FrameBody} (events : List Event) (h : event.output? = some body) :
    outputCost (event :: events) = record_cost body + outputCost events := by
  rw [outputCost, List.filterMap_cons_some h]
  rfl

/-- The append of `body` is refused with `Overflow`. -/
def Overflows (log : RetentionLog) (body : FrameBody) : Prop :=
  ∃ a b c log', log.append body = some (.error (.overflow a b c), log')

/-- The claim about a run of output events from `p₀` to `p`: no append of the run
overflows, and an Exit record of at most `max_frame_bytes` with its overhead can
still be appended. -/
structure Parks (blake3 : List UInt8 → List UInt8) (p₀ : Pump) (events : List Event) (p : Pump) :
    Prop where
  no_overflow : ∀ pre event post body q q', events = pre ++ event :: post →
    Run (PumpStep blake3) p₀ (pre.map .wake) q → PumpStep blake3 q (.wake event) q' →
    event.output? = some body → ¬ Overflows q.retention body
  exit_fits : ∀ payload : List UInt8, payload.length + RECORD_OVERHEAD_BYTES ≤ p.config.max_frame_bytes →
    ∃ seq log', p.retention.append (.exit payload) = some (.ok seq, log')

namespace Pump

section Quota

variable {blake3 : List UInt8 → List UInt8} {p q : Pump} {l : Link}

structure Detached (p : Pump) (l : Link) : Prop where
  models : p.Models l
  detached : p.flow.attached = false
  spool : 0 < p.retention.config.spool_max_bytes
  memory : p.retention.config.memory_max_bytes ≤ p.retention.config.spool_max_bytes

/-- **Appending against the quota.** With a spool that covers the memory cap, an
append succeeds exactly when the ledger stays within the spool quota, and otherwise
it overflows. -/
theorem Detached.append (h : p.Detached l) (body : FrameBody) (hfit : (⟨p.retention.next_seq, body⟩ : Frame).Fits) :
    (p.retention.retained_bytes + record_cost body ≤ p.retention.config.spool_max_bytes ∧
        ∃ log', p.retention.append body = some (.ok (l.log.high + 1), log') ∧ log'.Refines (l.log.append body)) ∨
      (p.retention.config.spool_max_bytes < p.retention.retained_bytes + record_cost body ∧
        Overflows p.retention body) := by
  obtain ⟨r, log', happ, -, hcase⟩ := RetentionLog.append_refines h.models.retention hfit
  have hspool := h.spool
  have hmemory := h.memory
  rcases hcase with ⟨rfl, href, hquota⟩ | ⟨rfl, -, hshort⟩
  · exact Or.inl ⟨by omega, log', happ, href⟩
  · exact Or.inr ⟨by omega, _, _, _, _, happ⟩

variable {event : Event} {body : FrameBody} {events : List Event}

theorem output_step (hbody : event.output? = some body) (hstep : PumpStep blake3 p (.wake event) q) :
    p.enabled event = true ∧ ∃ p₁ : Pump, p₁.append_or_fail body = some q ∧
      p₁.retention = p.retention ∧ p₁.flow = p.flow ∧ p₁.history = p.history ∧
      p₁.config = p.config := by
  rcases Event.output_cases hbody with ⟨rfl, rfl⟩ | ⟨channel, b, bytes, rfl, rfl⟩
  · cases hstep with
    | wake _ _ henabled hres => exact ⟨henabled, p, hres, rfl, rfl, rfl, rfl⟩
  · cases hstep with
    | wake _ _ henabled hres =>
      refine ⟨henabled, ?_⟩
      cases channel <;> exact ⟨_, hres, rfl, rfl, rfl, rfl⟩

theorem output_fits (hbody : event.output? = some body) (henabled : p.enabled event = true)
    (hframe : p.config.max_frame_bytes ≤ U32_MAX) (hseq : p.retention.next_seq < 2 ^ 64) :
    (⟨p.retention.next_seq, body⟩ : Frame).Fits := by
  refine ⟨hseq, ?_⟩
  rcases Event.output_cases hbody with ⟨rfl, rfl⟩ | ⟨channel, b, bytes, rfl, rfl⟩
  · exact Nat.zero_le _
  · simp only [enabled, Bool.and_eq_true, decide_eq_true_eq] at henabled
    exact Nat.le_trans henabled.2 hframe

/-- A detached pump after an output event that the quota had room for. -/
structure Grown (p q : Pump) (cost count : ℕ) : Prop where
  bytes : q.retention.retained_bytes = p.retention.retained_bytes + cost
  next_seq : q.retention.next_seq = p.retention.next_seq + count
  limits : q.retention.config = p.retention.config
  config : q.config = p.config

theorem Detached.step (h : p.Detached l) (hbody : event.output? = some body)
    (hframe : p.config.max_frame_bytes ≤ U32_MAX) (hseq : p.retention.next_seq < 2 ^ 64)
    (hstep : PumpStep blake3 p (.wake event) q)
    (hroom : p.retention.retained_bytes + record_cost body ≤ p.retention.config.spool_max_bytes) :
    (∃ l', q.Detached l') ∧ p.Grown q (record_cost body) 1 := by
  obtain ⟨henabled, p₁, happ, hr, hf, hh, hc⟩ := output_step hbody hstep
  have hfit := output_fits hbody henabled hframe hseq
  have h₁ : p₁.Detached l := ⟨h.models.congr hr hf hh, by rw [hf]; exact h.detached, by rw [hr]; exact h.spool,
      by rw [hr]; exact h.memory⟩
  rcases h₁.append body (by rw [hr]; exact hfit) with
    ⟨-, log', hlog, href⟩ | ⟨hover, -⟩
  · -- Detached, nothing is sent: only the log and the watermark move.
    have hq : q = { p₁ with retention := log', watermark := l.log.high + 1 } := by
      rw [append_or_fail, append_and_send, hlog, h₁.detached] at happ
      exact (Option.some.inj happ).symm
    have hconfig : log'.config = p.retention.config := by
      rw [← hr]
      exact (RetentionLog.append_keepsLimits h₁.models.retention (by rw [hr]; exact hfit) hlog).config
    refine ⟨⟨{ l with log := l.log.append body }, ?_⟩, ?_⟩
    · rw [hq]
      exact ⟨⟨href, h₁.models.flow, h₁.models.history⟩, h₁.detached,
        by show 0 < log'.config.spool_max_bytes; rw [hconfig]; exact h.spool,
        by show log'.config.memory_max_bytes ≤ log'.config.spool_max_bytes
           rw [hconfig]; exact h.memory⟩
    · rw [hq]
      refine ⟨?_, ?_, hconfig, hc⟩
      · rw [← hr]
        exact h₁.models.retention.append_bytes href
      · show log'.next_seq = _
        rw [href.next_seq, h.models.retention.next_seq, AckLog.append_high]
  · rw [hr] at hover
    omega

/-- **A run of output events within the quota** appends them all. -/
theorem Detached.run (h : p.Detached l) (hframe : p.config.max_frame_bytes ≤ U32_MAX)
    (hseq : p.retention.next_seq + events.length < 2 ^ 64)
    (hevents : ∀ event ∈ events, event.output?.isSome)
    (hroom : p.retention.retained_bytes + outputCost events ≤ p.retention.config.spool_max_bytes)
    (hrun : Run (PumpStep blake3) p (events.map .wake) q) :
    (∃ l', q.Detached l') ∧ p.Grown q (outputCost events) events.length := by
  induction events generalizing p l with
  | nil =>
    cases hrun with
    | nil => exact ⟨⟨l, h⟩, rfl, rfl, rfl, rfl⟩
  | cons event events ih =>
    obtain ⟨body, hbody⟩ := Option.isSome_iff_exists.1 (hevents event List.mem_cons_self)
    obtain ⟨p₁, hstep, hrest⟩ := hrun.cons_inv
    rw [List.length_cons] at hseq
    rw [outputCost_cons events hbody] at hroom ⊢
    obtain ⟨⟨l₁, h₁⟩, hgrown⟩ := h.step hbody hframe (by omega) hstep (by omega)
    obtain ⟨hdet, hgrown'⟩ := ih h₁ (by rw [hgrown.config]; exact hframe)
      (by rw [hgrown.next_seq]; omega) (fun e he => hevents e (List.mem_cons_of_mem _ he))
      (by rw [hgrown.bytes, hgrown.limits]; omega) hrest
    refine ⟨hdet, ?_, ?_, hgrown'.limits.trans hgrown.limits, hgrown'.config.trans hgrown.config⟩
    · rw [hgrown'.bytes, hgrown.bytes, Nat.add_assoc]
    · rw [hgrown'.next_seq, hgrown.next_seq, List.length_cons]
      omega

theorem Detached.overflows (h : p.Detached l) (hframe : p.config.max_frame_bytes ≤ U32_MAX)
    (hseq : p.retention.next_seq + events.length < 2 ^ 64)
    (hevents : ∀ event ∈ events, event.output?.isSome)
    (hstart : p.retention.retained_bytes ≤ p.retention.config.spool_max_bytes)
    (hover : p.retention.config.spool_max_bytes < p.retention.retained_bytes + outputCost events)
    (hrun : Run (PumpStep blake3) p (events.map .wake) q) :
    ∃ pre event post body q₁ q₂, events = pre ++ event :: post ∧
      Run (PumpStep blake3) p (pre.map .wake) q₁ ∧ PumpStep blake3 q₁ (.wake event) q₂ ∧
      event.output? = some body ∧ Overflows q₁.retention body := by
  induction events generalizing p l with
  | nil =>
    rw [show outputCost [] = 0 from rfl] at hover
    omega
  | cons event events ih =>
    obtain ⟨body, hbody⟩ := Option.isSome_iff_exists.1 (hevents event List.mem_cons_self)
    obtain ⟨p₁, hstep, hrest⟩ := hrun.cons_inv
    rw [List.length_cons] at hseq
    rw [outputCost_cons events hbody] at hover
    have hfit := output_fits hbody (output_step hbody hstep).1 hframe (by omega)
    rcases h.append body hfit with ⟨hroom, -⟩ | ⟨-, hfull⟩
    · -- This one still fits: the overflow comes later.
      obtain ⟨⟨l₁, h₁⟩, hgrown⟩ := h.step hbody hframe (by omega) hstep hroom
      obtain ⟨pre, e, post, body', q₁, q₂, hsplit, hpre, hat, hbody', hfull⟩ :=
        ih h₁ (by rw [hgrown.config]; exact hframe) (by rw [hgrown.next_seq]; omega)
          (fun e he => hevents e (List.mem_cons_of_mem _ he))
          (by rw [hgrown.bytes, hgrown.limits]; exact hroom)
          (by rw [hgrown.bytes, hgrown.limits]; omega) hrest
      exact ⟨event :: pre, e, post, body', q₁, q₂, by rw [hsplit]; rfl, .cons hstep hpre, hat, hbody', hfull⟩
    · exact ⟨[], event, events, body, p, p₁, rfl, .nil p, hstep, hbody, hfull⟩

theorem Detached.no_overflow (h : p.Detached l) (hframe : p.config.max_frame_bytes ≤ U32_MAX)
    (hseq : p.retention.next_seq + events.length < 2 ^ 64)
    (hevents : ∀ event ∈ events, event.output?.isSome)
    (hroom : p.retention.retained_bytes + outputCost events ≤ p.retention.config.spool_max_bytes)
    {pre post : List Event} {q' : Pump} (hsplit : events = pre ++ event :: post)
    (hpre : Run (PumpStep blake3) p (pre.map .wake) q)
    (hstep : PumpStep blake3 q (.wake event) q') (hbody : event.output? = some body) :
    ¬ Overflows q.retention body := by
  have hlen : events.length = pre.length + post.length + 1 := by
    rw [hsplit, List.length_append, List.length_cons]
    omega
  have hcost : outputCost events = outputCost pre + (record_cost body + outputCost post) := by
    rw [hsplit, ← outputCost_cons post hbody, outputCost, List.filterMap_append, List.map_append, List.sum_append]
    rfl
  -- Up to the event everything fitted, and the event itself does.
  obtain ⟨⟨lq, hdet⟩, hgrown⟩ := h.run hframe (by omega)
    (fun e he => hevents e (by rw [hsplit]; exact List.mem_append_left _ he)) (by omega) hpre
  have hfit := output_fits hbody (output_step hbody hstep).1
    (by rw [hgrown.config]; exact hframe) (by rw [hgrown.next_seq]; omega)
  rcases hdet.append body hfit with ⟨-, log', happ, -⟩ | ⟨hover, -⟩
  · rintro ⟨a, b, c, log'', hfull⟩
    rw [happ] at hfull
    have hres := (Prod.mk.inj (Option.some.inj hfull)).1
    contradiction
  · rw [hgrown.bytes, hgrown.limits] at hover
    omega

theorem Detached.exit_fits_iff (h : p.Detached l)
    (hframe : p.config.max_frame_bytes ≤ U32_MAX) (hseq : p.retention.next_seq < 2 ^ 64) :
    (∀ payload : List UInt8, payload.length + RECORD_OVERHEAD_BYTES ≤ p.config.max_frame_bytes →
        ∃ seq log', p.retention.append (.exit payload) = some (.ok seq, log')) ↔
      (RECORD_OVERHEAD_BYTES ≤ p.config.max_frame_bytes → p.retention.retained_bytes + p.config.max_frame_bytes
          ≤ p.retention.config.spool_max_bytes) := by
  have hfit : ∀ payload : List UInt8, payload.length + RECORD_OVERHEAD_BYTES ≤ p.config.max_frame_bytes →
      (⟨p.retention.next_seq, .exit payload⟩ : Frame).Fits := by
    intro payload hlen
    refine ⟨hseq, ?_⟩
    show payload.length ≤ U32_MAX
    omega
  have hcost : ∀ payload : List UInt8,
      record_cost (.exit payload) = payload.length + RECORD_OVERHEAD_BYTES := fun _ => rfl
  constructor
  · intro hexit hsmall
    let payload : List UInt8 := List.replicate (p.config.max_frame_bytes - RECORD_OVERHEAD_BYTES) 0
    have hlen : payload.length = p.config.max_frame_bytes - RECORD_OVERHEAD_BYTES := List.length_replicate
    obtain ⟨seq, log', happ⟩ := hexit payload (by omega)
    rcases h.append (.exit payload) (hfit payload (by omega)) with ⟨hle, -⟩ | ⟨-, a, b, c, log'', hover⟩
    · rw [hcost] at hle
      omega
    · rw [happ] at hover
      have hres := (Prod.mk.inj (Option.some.inj hover)).1
      contradiction
  · intro hroom payload hlen
    rcases h.append (.exit payload) (hfit payload hlen) with ⟨-, log', happ, -⟩ | ⟨hover, -⟩
    · exact ⟨_, log', happ⟩
    · rw [hcost] at hover
      omega

theorem reachable_limits {retention : RetentionConfig} {hooks : JobHooks} {deadline : Option ℕ}
    {config : JobConfig} {es : List PumpEvent}
    (hrun : Run (Restrict (PumpStep blake3) fun p e => p.StepFits blake3 e)
      (new retention hooks deadline config) es p) :
    (∃ l, p.Models l) ∧ (new retention hooks deadline config).SameSetup p := by
  refine hrun.invariant (P := fun p => (∃ l, p.Models l) ∧ (new retention hooks deadline config).SameSetup p) ?_
    ⟨⟨_, new_models retention hooks deadline config⟩, .refl _, rfl, rfl, rfl⟩
  rintro p e p' ⟨hstep, hfit⟩ ⟨⟨l, hmod⟩, hsetup⟩
  obtain ⟨hsetup', l', hmod', -⟩ := pump_step_link hstep hfit hmod
  exact ⟨⟨l', hmod'⟩, hsetup.trans hsetup'⟩

/-- **When a detached op parks.** From any reachable pump that nobody is attached
to, a run of reads and ticks never overflows and leaves the Exit record appendable,
iff all they append with its overhead stays within the spool quota, and leaves room
there for a record of `max_frame_bytes` if one that small exists. -/
theorem detached_op_parks_iff {retention : RetentionConfig} {hooks : JobHooks}
    {deadline : Option ℕ} {config : JobConfig} {es : List PumpEvent} {p₀ : Pump}
    {events : List Event} (hspool : 0 < retention.spool_max_bytes)
    (hmemory : retention.memory_max_bytes ≤ retention.spool_max_bytes)
    (hframe : config.max_frame_bytes ≤ U32_MAX)
    (hreach : Run (Restrict (PumpStep blake3) fun p e => p.StepFits blake3 e)
      (new retention hooks deadline config) es p₀)
    (hdetached : p₀.flow.attached = false)
    (hevents : ∀ event ∈ events, event.output?.isSome)
    (hseq : p₀.retention.next_seq + events.length < 2 ^ 64)
    (hrun : Run (PumpStep blake3) p₀ (events.map .wake) p) :
    Parks blake3 p₀ events p ↔ p₀.retention.retained_bytes + outputCost events ≤ retention.spool_max_bytes ∧
        (RECORD_OVERHEAD_BYTES ≤ config.max_frame_bytes →
          p₀.retention.retained_bytes + outputCost events + config.max_frame_bytes ≤ retention.spool_max_bytes) := by
  obtain ⟨⟨l, hmod⟩, hsetup⟩ := reachable_limits hreach
  have hlimits : p₀.retention.config = retention := hsetup.limits.config
  have hconfig : p₀.config = config := hsetup.config
  have hdet : p₀.Detached l := ⟨hmod, hdetached, by rw [hlimits]; exact hspool, by rw [hlimits]; exact hmemory⟩
  have hframe₀ : p₀.config.max_frame_bytes ≤ U32_MAX := by rw [hconfig]; exact hframe
  have hstart : p₀.retention.retained_bytes ≤ retention.spool_max_bytes := by
    have hquota : p₀.retention.retained_bytes
        ≤ max 0 (max retention.memory_max_bytes retention.spool_max_bytes) := hsetup.limits.quota
    omega
  by_cases hroom : p₀.retention.retained_bytes + outputCost events ≤ retention.spool_max_bytes
  · have hroom₀ : p₀.retention.retained_bytes + outputCost events
        ≤ p₀.retention.config.spool_max_bytes := by rw [hlimits]; exact hroom
    obtain ⟨⟨l', hdet'⟩, hgrown⟩ := hdet.run hframe₀ hseq hevents hroom₀ hrun
    have hexit := hdet'.exit_fits_iff (by rw [hgrown.config]; exact hframe₀) (by rw [hgrown.next_seq]; exact hseq)
    rw [hgrown.bytes, hgrown.limits, hlimits, hgrown.config, hconfig] at hexit
    constructor
    · intro hparks
      have hfits := hparks.exit_fits
      rw [hgrown.config, hconfig] at hfits
      exact ⟨hroom, hexit.1 hfits⟩
    · rintro ⟨-, hsmall⟩
      refine ⟨fun pre event post body q q' hsplit hpre hstep hbody =>
        hdet.no_overflow hframe₀ hseq hevents hroom₀ hsplit hpre hstep hbody, ?_⟩
      rw [hgrown.config, hconfig]
      exact hexit.2 hsmall
  · refine iff_of_false (fun hparks => ?_) (fun hcond => hroom hcond.1)
    obtain ⟨pre, event, post, body, q, q', hsplit, hpre, hstep, hbody, hfull⟩ :=
      hdet.overflows hframe₀ hseq hevents (by rw [hlimits]; exact hstart)
        (by rw [hlimits]; exact Nat.not_le.1 hroom) hrun
    exact hparks.no_overflow pre event post body q q' hsplit hpre hstep hbody hfull

def byteAndTick : List Event := [.oneByte, .progress_tick]

theorem detached_op_parks_byteAndTick : ∃ p, Run (PumpStep fun _ => []) smallJob (byteAndTick.map .wake) p ∧
      (Parks (fun _ => []) smallJob byteAndTick p ↔ 0 + outputCost byteAndTick ≤ 1000 ∧
          (RECORD_OVERHEAD_BYTES ≤ 1 → 0 + outputCost byteAndTick + 1 ≤ 1000)) := by
  have hreach : (smallJob.service (fun _ _ => true) byteAndTick).any (fun _ => true) = true := by
    decide
  obtain ⟨p, hrun, -⟩ := service_reaches hreach
  exact ⟨p, hrun, detached_op_parks_iff (by decide) (by decide) (by decide) (.nil _) rfl (by decide) (by decide) hrun⟩

def quotaJob (max_frame_bytes : ℕ) : Pump := new ⟨100, 10, 100, 100⟩ ⟨fun _ => []⟩ none ⟨max_frame_bytes⟩

/-- **A detached op killed by its quota.** Two ticks of an op that writes nothing
charge 128 bytes. And one read of 40 bytes, for which the gate saw room, charges
104. -/
theorem quota_kills_detached_op : (∃ p, Run (PumpStep fun _ => []) (quotaJob 10)
        ([.progress_tick, .progress_tick].map .wake) p ∧
      p.pending_outcome = some (.failed (.overflow 128)) ∧
      ¬ Parks (fun _ => []) (quotaJob 10) [.progress_tick, .progress_tick] p) ∧
    ∃ p, Run (PumpStep fun _ => []) (quotaJob 40) ([.read .stdout (.ok (List.replicate 40 0))].map .wake) p ∧
      p.pending_outcome = some (.failed (.overflow 104)) ∧
      ¬ Parks (fun _ => []) (quotaJob 40) [.read .stdout (.ok (List.replicate 40 0))] p := by
  have hdetached : ∀ max_frame_bytes, (quotaJob max_frame_bytes).Detached Link.init := fun n =>
    ⟨new_models _ _ _ _, rfl, by show 0 < 100; decide, by show 100 ≤ 100; decide⟩
  constructor
  · have hreach : ((quotaJob 10).service (fun _ _ => true) [.progress_tick, .progress_tick]).any (fun p =>
          p.pending_outcome == some (.failed (.overflow 128))) = true := by decide
    obtain ⟨p, hrun, hkilled⟩ := service_reaches hreach
    refine ⟨p, hrun, beq_iff_eq.1 hkilled, fun hparks => ?_⟩
    obtain ⟨pre, event, post, body, q, q', hsplit, hpre, hstep, hbody, hfull⟩ :=
      (hdetached 10).overflows (by decide) (by decide) (by decide) (by decide) (by decide) hrun
    exact hparks.no_overflow pre event post body q q' hsplit hpre hstep hbody hfull
  · have hreach : ((quotaJob 40).service (fun _ _ => true) [.read .stdout (.ok (List.replicate 40 0))]).any (fun p =>
          p.pending_outcome == some (.failed (.overflow 104))) = true := by decide
    obtain ⟨p, hrun, hkilled⟩ := service_reaches hreach
    refine ⟨p, hrun, beq_iff_eq.1 hkilled, fun hparks => ?_⟩
    obtain ⟨pre, event, post, body, q, q', hsplit, hpre, hstep, hbody, hfull⟩ :=
      (hdetached 40).overflows (by decide) (by decide) (by decide) (by decide) (by decide) hrun
    exact hparks.no_overflow pre event post body q q' hsplit hpre hstep hbody hfull

end Quota

end Pump

end OpenGeni.Agent
