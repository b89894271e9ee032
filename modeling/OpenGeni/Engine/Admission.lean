/-
Job admission (`opengeni-agent-engine/src/admission.rs`).

Two classes, each with its breakers, its running count, one FIFO queue per origin and a
round-robin ring of the origins that have waiters. The source keys its maps by the class
(and the origin); here a class has a `ClassState` of its own, and the maps of one class
are keyed by the origin. An absent ring or total is an empty one, as the source's
`get`s treat it.

`expire` meets the queues in the order of the map, which is arbitrary and a parameter.
`promote` loops until the breaker closes or the ring is empty; every turn takes an entry
off the ring or a waiter off a queue, so the number of those is the fuel, and
`promote_done` says that it suffices.
-/
import OpenGeni.Engine.Frame
import OpenGeni.Lib.Tally

namespace OpenGeni.Engine

open OpenGeni.Lib

inductive JobClass
  | light
  | heavy
deriving DecidableEq

/-- `ClassLimits`: per-class breakers. -/
structure ClassLimits where
  max_running : Option ℕ
  max_queued : Option ℕ
  queue_wait_max_ms : Option ℕ

structure AdmissionConfig where
  light : ClassLimits
  heavy : ClassLimits

inductive RefusalReason
  | queue_full
  | wait_deadline
deriving DecidableEq

inductive AdmissionOutcome
  | admitted
  | queued
  | refused (reason : RefusalReason)
deriving DecidableEq

/-- `Waiter`: a queued job. -/
structure Waiter where
  op : OpId
  enqueued_at_ms : ℕ

structure ClassState where
  running : ℕ
  queues : AList fun _ : String => List Waiter
  ring : List String
  queued_total : ℕ

structure AdmissionState where
  config : AdmissionConfig
  classes : JobClass → ClassState

def AdmissionConfig.limits (config : AdmissionConfig) : JobClass → ClassLimits
  | .light => config.light
  | .heavy => config.heavy

/-- `below_running_breaker`: without a breaker, always. -/
def ClassLimits.below_running_breaker (limits : ClassLimits) (running : ℕ) : Bool :=
  limits.max_running.all fun max => decide (running < max)

namespace ClassState

def empty : ClassState := ⟨0, ∅, [], 0⟩

/-- `request`, queueing: to the back of the origin's queue, and the origin to the back of
the ring if it had no waiters. -/
def enqueue (c : ClassState) (origin : String) (waiter : Waiter) : ClassState :=
  let queue := (c.queues.lookup origin).getD []
  { c with
    queues := c.queues.insert origin (queue ++ [waiter])
    ring := if queue = [] then c.ring ++ [origin] else c.ring
    queued_total := c.queued_total + 1 }

/-- One promotion: the first waiter of the origin `origin`, whose queue is
`waiter :: queue`, starts running. The origin leaves the ring with its last waiter and
goes to the back of it otherwise. -/
def promote_one (c : ClassState) (origin : String) (ring : List String) (queue : List Waiter) : ClassState where
  running := c.running + 1
  queues := if queue = [] then c.queues.erase origin else c.queues.insert origin queue
  ring := if queue = [] then ring else ring ++ [origin]
  queued_total := c.queued_total - 1

/-- The loop of `promote`. -/
def promote_loop (limits : ClassLimits) : ℕ → ClassState → List OpId × ClassState
  | 0, c => ([], c)
  | fuel + 1, c =>
    if limits.below_running_breaker c.running then
      match c.ring with
      | [] => ([], c)
      | origin :: ring =>
        match c.queues.lookup origin with
        | none => promote_loop limits fuel { c with ring := ring }
        | some [] =>
          promote_loop limits fuel { c with ring := ring, queues := c.queues.erase origin }
        | some (waiter :: queue) =>
          let rest := promote_loop limits fuel (c.promote_one origin ring queue)
          (waiter.op :: rest.1, rest.2)
    else
      ([], c)

def waiting (c : ClassState) : ℕ := tallyMap List.length c.queues

/-- `promote`: waiters into free capacity, round-robin across origins. -/
def promote (limits : ClassLimits) (c : ClassState) : List OpId × ClassState :=
  promote_loop limits (c.ring.length + c.waiting) c

/-- `release`, for the class: one slot back (`saturating_sub`), then promote. -/
def release (limits : ClassLimits) (c : ClassState) : List OpId × ClassState :=
  promote limits { c with running := c.running - 1 }

/-- `expire`, for one queue: the waiters at its front that waited `deadline` or longer.
A queue that empties goes, and its origin leaves the ring. -/
def expire_queue (deadline now_ms : ℕ) (c : ClassState) (origin : String) : List OpId × ClassState :=
  match c.queues.lookup origin with
  | none => ([], c)
  | some queue =>
    let late (waiter : Waiter) : Bool := decide (deadline ≤ now_ms - waiter.enqueued_at_ms)
    let expired := queue.takeWhile late
    let rest := queue.dropWhile late
    let c := { c with queued_total := c.queued_total - expired.length }
    (expired.map (·.op), if rest = [] then
        { c with
          queues := c.queues.erase origin
          ring := c.ring.filter fun o => decide (o ≠ origin) }
      else
        { c with queues := c.queues.insert origin rest })

/-- `expire`, for the class, over the origins in the order of the map. A no-op without a
wait breaker. -/
def expire (limits : ClassLimits) (now_ms : ℕ) (c : ClassState) : List String → List OpId × ClassState
  | [] => ([], c)
  | origin :: origins =>
    match limits.queue_wait_max_ms with
    | none => ([], c)
    | some deadline =>
      let first := expire_queue deadline now_ms c origin
      let rest := expire limits now_ms first.2 origins
      (first.1 ++ rest.1, rest.2)

end ClassState

namespace AdmissionState

def new (config : AdmissionConfig) : AdmissionState := ⟨config, fun _ => .empty⟩

def limits (s : AdmissionState) (cls : JobClass) : ClassLimits := s.config.limits cls

def running (s : AdmissionState) (cls : JobClass) : ℕ := (s.classes cls).running

def queued (s : AdmissionState) (cls : JobClass) : ℕ := (s.classes cls).queued_total

def set (s : AdmissionState) (cls : JobClass) (c : ClassState) : AdmissionState :=
  { s with classes := Function.update s.classes cls c }

def request (s : AdmissionState) (op : OpId) (cls : JobClass) (origin : String) (now_ms : ℕ) :
    AdmissionOutcome × AdmissionState :=
  let c := s.classes cls
  if (s.limits cls).below_running_breaker (s.running cls) ∧ ¬ 0 < s.queued cls then
    -- only when nobody is queued, or a fresh arrival would jump ahead
    (.admitted, s.set cls { c with running := c.running + 1 })
  else if (s.limits cls).max_queued.any fun max_queued => decide (max_queued ≤ s.queued cls) then
    (.refused .queue_full, s)
  else
    (.queued, s.set cls (c.enqueue origin ⟨op, now_ms⟩))

/-- `AdmissionState::release`: the ops promoted into the freed capacity. -/
def release (s : AdmissionState) (cls : JobClass) : List OpId × AdmissionState :=
  let released := (s.classes cls).release (s.limits cls)
  (released.1, s.set cls released.2)

/-- `AdmissionState::expire`: light first, then heavy. Every op it returns is rejected
with `wait_deadline`. -/
def expire (s : AdmissionState) (now_ms : ℕ) (order : JobClass → List String) : List OpId × AdmissionState :=
  let light := (s.classes .light).expire (s.limits .light) now_ms (order .light)
  let s := s.set .light light.2
  let heavy := (s.classes .heavy).expire (s.limits .heavy) now_ms (order .heavy)
  (light.1 ++ heavy.1, s.set .heavy heavy.2)

end AdmissionState

/-! ## What a class's operations do to its count and to its waiters -/

namespace ClassState

/-- `op` waits in one of the queues of the class. -/
def Waits (c : ClassState) (op : OpId) : Prop :=
  ∃ origin queue, c.queues.lookup origin = some queue ∧ op ∈ queue.map (·.op)

section

variable {c : ClassState} {limits : ClassLimits} {op : OpId} {origin : String}

theorem Waits.of_queue {c c' : ClassState} {queue : List Waiter} (h : c.Waits op)
    (popped : List OpId) (rest : List Waiter) (hqueue : c.queues.lookup origin = some queue)
    (hrest : queue.map (·.op) = popped ++ rest.map (·.op))
    (hc' : c'.queues = if rest = [] then c.queues.erase origin else c.queues.insert origin rest) :
    op ∈ popped ∨ c'.Waits op := by
  obtain ⟨o, q, hq, hop⟩ := h
  by_cases ho : o = origin
  · subst ho
    rw [hqueue] at hq
    cases hq
    rw [hrest, List.mem_append] at hop
    refine hop.imp_right fun hop => ⟨o, rest, ?_, hop⟩
    have hne : rest ≠ [] := by
      rintro rfl
      exact absurd hop List.not_mem_nil
    rw [hc', if_neg hne, AList.lookup_insert]
  · refine Or.inr ⟨o, q, ?_, hop⟩
    rw [hc']
    split
    · rw [AList.lookup_erase_ne ho, hq]
    · rw [AList.lookup_insert_ne ho, hq]

theorem Waits.of_queue_nil {c c' : ClassState} (h : c.Waits op)
    (hqueue : c.queues.lookup origin = some []) (hc' : c'.queues = c.queues.erase origin) :
    c'.Waits op := by
  have hsplit : op ∈ [] ∨ c'.Waits op := h.of_queue [] [] hqueue rfl (by rw [hc', if_pos rfl])
  exact hsplit.resolve_left List.not_mem_nil

/-- What promotions leave: each one takes a slot, and no waiter is lost on the way. -/
structure Promoted (limits : ClassLimits) (c : ClassState) (out : List OpId × ClassState) :
    Prop where
  running : out.2.running = c.running + out.1.length
  breaker : ∀ max, limits.max_running = some max → c.running ≤ max → out.2.running ≤ max
  waits : ∀ op, c.Waits op → op ∈ out.1 ∨ out.2.Waits op

theorem promote_loop_promoted (limits : ClassLimits) (fuel : ℕ) (c : ClassState) :
    Promoted limits c (promote_loop limits fuel c) := by
  induction fuel generalizing c with
  | zero => exact ⟨rfl, fun _ _ h => h, fun _ h => Or.inr h⟩
  | succ fuel ih =>
    have hstop : Promoted limits c ([], c) := ⟨rfl, fun _ _ h => h, fun _ h => Or.inr h⟩
    unfold promote_loop
    split
    · rename_i hbelow
      split
      · exact hstop
      · rename_i origin ring hring
        split
        · have hrest := ih { c with ring := ring }
          exact ⟨hrest.running, hrest.breaker, hrest.waits⟩
        · rename_i hqueue
          have hrest := ih { c with ring := ring, queues := c.queues.erase origin }
          exact ⟨hrest.running, hrest.breaker, fun op hop => hrest.waits op (hop.of_queue_nil hqueue rfl)⟩
        · rename_i waiter queue hqueue
          have hrest := ih (c.promote_one origin ring queue)
          refine ⟨?_, fun max hmax hle => ?_, fun op hop => ?_⟩
          · have hcount := hrest.running
            unfold promote_one at hcount
            dsimp only at hcount ⊢
            rw [List.length_cons]
            unfold promote_one
            omega
          · -- below the breaker there is room for one more
            unfold ClassLimits.below_running_breaker at hbelow
            rw [hmax] at hbelow
            exact hrest.breaker max hmax (of_decide_eq_true hbelow)
          · have hsplit : op ∈ [waiter.op] ∨ (c.promote_one origin ring queue).Waits op :=
              hop.of_queue [waiter.op] queue hqueue rfl rfl
            rcases hsplit with hop | hop
            · exact Or.inl (List.mem_cons.2 (Or.inl (List.mem_singleton.1 hop)))
            · exact (hrest.waits op hop).imp_left (List.mem_cons_of_mem _)
    · exact hstop

theorem promote_loop_done (limits : ClassLimits) (fuel : ℕ) (c : ClassState)
    (hfuel : c.ring.length + c.waiting ≤ fuel) :
    limits.below_running_breaker (promote_loop limits fuel c).2.running = false ∨
      (promote_loop limits fuel c).2.ring = [] := by
  induction fuel generalizing c with
  | zero =>
    have hring : c.ring.length = 0 := by omega
    exact Or.inr (List.length_eq_zero_iff.1 hring)
  | succ fuel ih =>
    unfold promote_loop
    split
    · split
      · exact Or.inr ‹_›
      · rename_i origin ring hring
        rw [hring, List.length_cons] at hfuel
        split
        · -- a ring entry without a queue is dropped
          refine ih _ ?_
          show ring.length + c.waiting ≤ fuel
          omega
        · -- so is one whose queue is empty
          rename_i hqueue
          have hwaiting := tallyMap_erase List.length hqueue
          refine ih _ ?_
          show ring.length + tallyMap List.length (c.queues.erase origin) ≤ fuel
          unfold waiting at hfuel
          omega
        · -- a promotion takes a waiter, and the origin may go to the back of the ring
          rename_i waiter queue hqueue
          refine ih (c.promote_one origin ring queue) ?_
          unfold promote_one waiting
          unfold waiting at hfuel
          dsimp only
          by_cases hlast : queue = []
          · have hwaiting := tallyMap_erase List.length hqueue
            rw [if_pos hlast, if_pos hlast]
            omega
          · have hwaiting := tallyMap_insert List.length hqueue queue
            rw [if_neg hlast, if_neg hlast, List.length_append, List.length_singleton]
            rw [List.length_cons] at hwaiting
            omega
    · rename_i hbreaker
      exact Or.inl (Bool.eq_false_iff.2 hbreaker)

theorem promote_done (limits : ClassLimits) (c : ClassState) :
    limits.below_running_breaker (c.promote limits).2.running = false ∨ (c.promote limits).2.ring = [] :=
  promote_loop_done limits _ c (Nat.le_refl _)

/-- **A release**: one slot back, and one taken for each op promoted. -/
theorem release_promoted (limits : ClassLimits) (c : ClassState) :
    Promoted limits { c with running := c.running - 1 } (c.release limits) :=
  promote_loop_promoted limits _ _

/-- **Queueing** takes no slot, and the op waits. -/
theorem enqueue_waits (c : ClassState) (origin : String) (waiter : Waiter) :
    (c.enqueue origin waiter).Waits waiter.op ∧ ∀ op, c.Waits op → (c.enqueue origin waiter).Waits op := by
  have hnew : (c.enqueue origin waiter).queues.lookup origin
      = some ((c.queues.lookup origin).getD [] ++ [waiter]) := AList.lookup_insert _
  refine ⟨⟨origin, _, hnew, ?_⟩, fun op ⟨o, q, hq, hop⟩ => ?_⟩
  · rw [List.map_append]
    exact List.mem_append_right _ (List.mem_singleton_self _)
  · by_cases ho : o = origin
    · subst ho
      refine ⟨o, _, hnew, ?_⟩
      rw [hq, Option.getD_some, List.map_append]
      exact List.mem_append_left _ hop
    · exact ⟨o, q, (AList.lookup_insert_ne ho).trans hq, hop⟩

/-- What an expiry leaves: no slot changes hands, and no waiter is lost on the way. -/
structure Expired (c : ClassState) (out : List OpId × ClassState) : Prop where
  running : out.2.running = c.running
  waits : ∀ op, c.Waits op → op ∈ out.1 ∨ out.2.Waits op

theorem expire_queue_expired (deadline now_ms : ℕ) (c : ClassState) (origin : String) :
    Expired c (c.expire_queue deadline now_ms origin) := by
  unfold expire_queue
  split
  · exact ⟨rfl, fun _ h => Or.inr h⟩
  · rename_i queue hqueue
    dsimp only
    refine ⟨by split <;> rfl, fun op hop => ?_⟩
    refine hop.of_queue _ (queue.dropWhile fun waiter =>
      decide (deadline ≤ now_ms - waiter.enqueued_at_ms)) hqueue ?_ ?_
    · rw [← List.map_append, List.takeWhile_append_dropWhile]
    · split <;> rfl

theorem expire_expired (limits : ClassLimits) (now_ms : ℕ) (c : ClassState)
    (origins : List String) : Expired c (c.expire limits now_ms origins) := by
  induction origins generalizing c with
  | nil => exact ⟨rfl, fun _ h => Or.inr h⟩
  | cons origin origins ih =>
    unfold expire
    split
    · exact ⟨rfl, fun _ h => Or.inr h⟩
    · rename_i deadline hdeadline
      have hfirst := expire_queue_expired deadline now_ms c origin
      have hrest := ih (c.expire_queue deadline now_ms origin).2
      refine ⟨hrest.running.trans hfirst.running, fun op hop => ?_⟩
      rcases hfirst.waits op hop with hop | hop
      · exact Or.inl (List.mem_append_left _ hop)
      · exact (hrest.waits op hop).imp_left (List.mem_append_right _)

end

end ClassState

/-! ## The operations of the admission state -/

namespace AdmissionState

/-- `op` waits in a queue of its class. -/
def Waits (s : AdmissionState) (cls : JobClass) (op : OpId) : Prop := (s.classes cls).Waits op

def WithinBreakers (s : AdmissionState) : Prop :=
  ∀ cls max, (s.limits cls).max_running = some max → s.running cls ≤ max

section

variable {s : AdmissionState} {cls cls' : JobClass}

@[simp] theorem set_limits (c : ClassState) : (s.set cls c).limits = s.limits := rfl

@[simp] theorem set_self (c : ClassState) : (s.set cls c).classes cls = c := by
  exact Function.update_self ..

theorem set_of_ne (c : ClassState) (h : cls' ≠ cls) : (s.set cls c).classes cls' = s.classes cls' := by
  exact Function.update_of_ne h ..

theorem WithinBreakers.set (h : s.WithinBreakers) {c : ClassState}
    (hc : ∀ max, (s.limits cls).max_running = some max → c.running ≤ max) :
    (s.set cls c).WithinBreakers := by
  intro cls' max hmax
  rw [set_limits] at hmax
  unfold running
  by_cases heq : cls' = cls
  · subst heq
    rw [set_self]
    exact hc max hmax
  · rw [set_of_ne c heq]
    exact h cls' max hmax

structure Requested (s : AdmissionState) (op : OpId) (cls : JobClass)
    (out : AdmissionOutcome × AdmissionState) : Prop where
  config : out.2.config = s.config
  running : ∀ cls', out.2.running cls' = s.running cls' + (if out.1 = .admitted ∧ cls' = cls then 1 else 0)
  queued : out.1 = .queued → out.2.Waits cls op
  waits : ∀ cls' op', s.Waits cls' op' → out.2.Waits cls' op'
  breakers : s.WithinBreakers → out.2.WithinBreakers
  refused : ∀ reason, out.1 = .refused reason → reason = .queue_full

/-- **A request.** -/
theorem request_requested (s : AdmissionState) (op : OpId) (cls : JobClass) (origin : String)
    (now_ms : ℕ) : Requested s op cls (s.request op cls origin now_ms) := by
  unfold request
  split
  · -- admitted: below the breaker there is room for one more
    rename_i hfast
    refine ⟨rfl, fun cls' => ?_, by rintro ⟨⟩, fun cls' op' hop => ?_, fun h => h.set ?_, by rintro _ ⟨⟩⟩
    · unfold running
      by_cases heq : cls' = cls
      · subst heq
        rw [set_self, if_pos ⟨rfl, rfl⟩]
      · rw [set_of_ne _ heq, if_neg (fun h => heq h.2), Nat.add_zero]
    · unfold Waits at hop ⊢
      by_cases heq : cls' = cls
      · subst heq
        rw [set_self]
        exact hop
      · rw [set_of_ne _ heq]
        exact hop
    · intro max hmax
      have hbelow := hfast.1
      unfold ClassLimits.below_running_breaker at hbelow
      rw [hmax] at hbelow
      exact of_decide_eq_true hbelow
  · split
    · -- refused: nothing changes
      refine ⟨rfl, fun cls' => ?_, by rintro ⟨⟩, fun _ _ hop => hop, id, ?_⟩
      · rw [if_neg (by rintro ⟨⟨⟩, -⟩), Nat.add_zero]
      · intro reason h
        exact (AdmissionOutcome.refused.inj h).symm
    · -- queued: no slot is taken
      obtain ⟨hnew, hold⟩ := ClassState.enqueue_waits (s.classes cls) origin ⟨op, now_ms⟩
      refine ⟨rfl, fun cls' => ?_, fun _ => ?_, fun cls' op' hop => ?_, fun h => h.set (h cls), by rintro _ ⟨⟩⟩
      · rw [if_neg (by rintro ⟨⟨⟩, -⟩), Nat.add_zero]
        unfold running
        by_cases heq : cls' = cls
        · subst heq
          rw [set_self]
          rfl
        · rw [set_of_ne _ heq]
      · unfold Waits
        rw [set_self]
        exact hnew
      · unfold Waits at hop ⊢
        by_cases heq : cls' = cls
        · subst heq
          rw [set_self]
          exact hold op' hop
        · rw [set_of_ne _ heq]
          exact hop

/-- What a release of a slot of `cls` does. -/
structure Released (s : AdmissionState) (cls : JobClass) (out : List OpId × AdmissionState) :
    Prop where
  config : out.2.config = s.config
  running : out.2.running cls = s.running cls - 1 + out.1.length
  running_other : ∀ cls', cls' ≠ cls → out.2.running cls' = s.running cls'
  waits : ∀ cls' op, s.Waits cls' op → cls' = cls ∧ op ∈ out.1 ∨ out.2.Waits cls' op
  breakers : s.WithinBreakers → out.2.WithinBreakers

/-- **A release.** -/
theorem release_released (s : AdmissionState) (cls : JobClass) : Released s cls (s.release cls) := by
  have hpromoted := ClassState.release_promoted (s.limits cls) (s.classes cls)
  unfold release
  refine ⟨rfl, ?_, fun cls' hne => ?_, fun cls' op hop => ?_, fun h => h.set fun max hmax => ?_⟩
  · unfold running
    rw [set_self, hpromoted.running]
  · unfold running
    rw [set_of_ne _ hne]
  · unfold Waits at hop ⊢
    by_cases heq : cls' = cls
    · subst heq
      rw [set_self]
      exact (hpromoted.waits op hop).imp_left fun hop => ⟨rfl, hop⟩
    · rw [set_of_ne _ heq]
      exact Or.inr hop
  · exact hpromoted.breaker max hmax (Nat.le_trans (Nat.sub_le _ 1) (h cls max hmax))

structure ExpiredFrom (s : AdmissionState) (out : List OpId × AdmissionState) : Prop where
  config : out.2.config = s.config
  running : ∀ cls, out.2.running cls = s.running cls
  waits : ∀ cls op, s.Waits cls op → op ∈ out.1 ∨ out.2.Waits cls op

theorem expiredFrom_set (s : AdmissionState) (cls : JobClass) {out : List OpId × ClassState}
    (h : ClassState.Expired (s.classes cls) out) : ExpiredFrom s (out.1, s.set cls out.2) := by
  refine ⟨rfl, fun cls' => ?_, fun cls' op hop => ?_⟩
  · unfold running
    by_cases heq : cls' = cls
    · subst heq
      rw [set_self, h.running]
    · rw [set_of_ne _ heq]
  · unfold Waits at hop ⊢
    by_cases heq : cls' = cls
    · subst heq
      rw [set_self]
      exact h.waits op hop
    · rw [set_of_ne _ heq]
      exact Or.inr hop

/-- **An expiry.** -/
theorem expire_expiredFrom (s : AdmissionState) (now_ms : ℕ) (order : JobClass → List String) :
    ExpiredFrom s (s.expire now_ms order) := by
  unfold expire
  have hlight := expiredFrom_set s .light
    (ClassState.expire_expired (s.limits .light) now_ms (s.classes .light) (order .light))
  generalize (s.classes .light).expire (s.limits .light) now_ms (order .light) = light at *
  have hheavy := expiredFrom_set (s.set .light light.2) .heavy
    (ClassState.expire_expired ((s.set .light light.2).limits .heavy) now_ms
      ((s.set .light light.2).classes .heavy) (order .heavy))
  refine ⟨rfl, fun cls => (hheavy.running cls).trans (hlight.running cls), fun cls op hop => ?_⟩
  rcases hlight.waits cls op hop with hop | hop
  · exact Or.inl (List.mem_append_left _ hop)
  · exact (hheavy.waits cls op hop).imp_left (List.mem_append_right _)

theorem ExpiredFrom.breakers {out : List OpId × AdmissionState} (h : ExpiredFrom s out)
    (hs : s.WithinBreakers) : out.2.WithinBreakers := by
  intro cls max hmax
  rw [h.running]
  unfold limits at hmax
  rw [h.config] at hmax
  exact hs cls max hmax

end

end AdmissionState

end OpenGeni.Engine
