/-
The admission state keeps its books and starves nobody.

A class is a set of queues served in turn: its `rotation` is the library's `RoundRobin`
over the origins. The source keeps the queues, the ring and the total in three maps; the
books say that they agree, and that somebody waits only while the running breaker is
closed. Each operation of a class is a run of moves of its rotation, recorded in the
history, and what the operation returns is read off those moves. First in, first out, and
the bound on how often a waiter is overtaken, are then the library's.

Nothing here depends on the clock or on the order in which `expire` meets the queues: an
expiry takes from the front of a queue, as a promotion does.
-/
import OpenGeni.Engine.Admission
import OpenGeni.Lib.RoundRobin

namespace OpenGeni.Engine

open OpenGeni.Lib RoundRobin

abbrev WaiterMove := Move String Waiter

inductive ClassEvent
  | request (op : OpId) (origin : String) (now_ms : ℕ)
  | release
  | expire (now_ms : ℕ) (order : List String)

namespace ClassState

def rotation (c : ClassState) : RoundRobin String Waiter := ⟨c.ring, fun origin => (c.queues.lookup origin).getD []⟩

/-! ## What a call does to its class -/

/-- `request`, for the class. -/
def request (limits : ClassLimits) (op : OpId) (origin : String) (now_ms : ℕ) (c : ClassState) :
    AdmissionOutcome × ClassState :=
  if limits.below_running_breaker c.running ∧ ¬ 0 < c.queued_total then
    (.admitted, { c with running := c.running + 1 })
  else if limits.max_queued.any fun max_queued => decide (max_queued ≤ c.queued_total) then
    (.refused .queue_full, c)
  else
    (.queued, c.enqueue origin ⟨op, now_ms⟩)

def service (limits : ClassLimits) (c : ClassState) : ClassEvent → ClassState
  | .request op origin now_ms => (c.request limits op origin now_ms).2
  | .release => (c.release limits).2
  | .expire now_ms order => (c.expire limits now_ms order).2

/-- The waiters that `promote_loop` promotes, under their origins. -/
def promote_moves (limits : ClassLimits) : ℕ → ClassState → List WaiterMove
  | 0, _ => []
  | fuel + 1, c =>
    if limits.below_running_breaker c.running then
      match c.ring with
      | [] => []
      | origin :: ring =>
        match c.queues.lookup origin with
        | none => promote_moves limits fuel { c with ring := ring }
        | some [] =>
          promote_moves limits fuel { c with ring := ring, queues := c.queues.erase origin }
        | some (waiter :: queue) =>
          .serve origin waiter :: promote_moves limits fuel (c.promote_one origin ring queue)
    else
      []

/-- The waiters that `expire_queue` drops. -/
def expire_queue_moves (deadline now_ms : ℕ) (c : ClassState) (origin : String) : List WaiterMove :=
  (((c.queues.lookup origin).getD []).takeWhile fun waiter =>
    decide (deadline ≤ now_ms - waiter.enqueued_at_ms)).map (.expire origin)

/-- The waiters that `expire` drops. -/
def expire_moves (limits : ClassLimits) (now_ms : ℕ) (c : ClassState) : List String → List WaiterMove
  | [] => []
  | origin :: origins =>
    match limits.queue_wait_max_ms with
    | none => []
    | some deadline =>
      expire_queue_moves deadline now_ms c origin ++
        expire_moves limits now_ms (expire_queue deadline now_ms c origin).2 origins

def moves (limits : ClassLimits) (c : ClassState) : ClassEvent → List WaiterMove
  | .request op origin now_ms =>
    if (c.request limits op origin now_ms).1 = .queued then [.arrive origin ⟨op, now_ms⟩] else []
  | .release =>
    promote_moves limits (c.ring.length + c.waiting) { c with running := c.running - 1 }
  | .expire now_ms order => expire_moves limits now_ms c order

/-! ## The books of a class -/

structure Booked (c : ClassState) : Prop where
  tidy : c.rotation.Tidy
  stored : ∀ {origin queue}, c.queues.lookup origin = some queue → queue ≠ []
  total : c.queued_total = c.waiting

def Saturated (limits : ClassLimits) (c : ClassState) : Prop :=
  0 < c.queued_total → limits.below_running_breaker c.running = false

section

variable {c : ClassState} {limits : ClassLimits} {origin : String}

theorem empty_booked : Booked empty where
  tidy := ⟨List.nodup_nil, fun origin => by simp [rotation, empty]⟩
  stored h := by simp [empty] at h
  total := rfl

variable {queue : List Waiter} {queues : AList fun _ : String => List Waiter} {m : WaiterMove}

theorem rotation_queue (h : c.queues.lookup origin = some queue) : c.rotation.queue origin = queue := by
  show (c.queues.lookup origin).getD [] = queue
  rw [h, Option.getD_some]

theorem Booked.lookup (h : c.Booked) (hmem : origin ∈ c.ring) :
    ∃ waiter queue, c.queues.lookup origin = some (waiter :: queue) := by
  have hsome := (h.tidy.mem origin).1 hmem
  unfold rotation at hsome
  cases hlookup : c.queues.lookup origin with
  | none => simp [hlookup] at hsome
  | some queue =>
    cases queue with
    | nil => exact absurd rfl (h.stored hlookup)
    | cons waiter queue => exact ⟨waiter, queue, rfl⟩

theorem Booked.ring_nil_iff (h : c.Booked) : c.ring = [] ↔ c.queued_total = 0 := by
  rw [h.total]
  constructor
  · intro hring
    have hempty : c.queues.entries = [] := by
      apply List.eq_nil_iff_forall_not_mem.2
      rintro ⟨origin, queue⟩ hmem
      have hlookup : c.queues.lookup origin = some queue := AList.mem_lookup_iff.2 hmem
      have hsome : c.rotation.queue origin ≠ [] := by
        rw [rotation_queue hlookup]
        exact h.stored hlookup
      have hin : origin ∈ c.ring := (h.tidy.mem origin).2 hsome
      rw [hring] at hin
      exact absurd hin List.not_mem_nil
    unfold waiting tallyMap
    rw [hempty]
    rfl
  · intro hwaiting
    apply List.eq_nil_iff_forall_not_mem.2
    intro origin hmem
    obtain ⟨waiter, queue, hlookup⟩ := h.lookup hmem
    have herase := tallyMap_erase List.length hlookup
    unfold waiting at hwaiting
    rw [List.length_cons] at herase
    omega

theorem rotation_store (hqueues : queues = if queue = [] then c.queues.erase origin
      else c.queues.insert origin queue) :
    (fun o => (queues.lookup o).getD []) = Function.update c.rotation.queue origin queue := by
  funext o
  rw [hqueues]
  by_cases ho : o = origin
  · rw [ho, Function.update_self]
    split
    next hnil => rw [AList.lookup_erase, hnil, Option.getD_none]
    next => rw [AList.lookup_insert, Option.getD_some]
  · rw [Function.update_of_ne ho]
    split
    · rw [AList.lookup_erase_ne ho]
      rfl
    · rw [AList.lookup_insert_ne ho]
      rfl

theorem Booked.store (h : c.Booked)
    (hqueues : queues = if queue = [] then c.queues.erase origin else c.queues.insert origin queue)
    {o : String} {q : List Waiter} (hq : queues.lookup o = some q) : q ≠ [] := by
  rw [hqueues] at hq
  by_cases ho : o = origin
  · subst ho
    split at hq
    · rw [AList.lookup_erase] at hq
      exact absurd hq (by simp)
    next hne =>
      rw [AList.lookup_insert] at hq
      exact Option.some.inj hq ▸ hne
  · split at hq
    · exact h.stored (by rwa [AList.lookup_erase_ne ho] at hq)
    · exact h.stored (by rwa [AList.lookup_insert_ne ho] at hq)

theorem waiting_store (hqueues : queues = if queue = [] then c.queues.erase origin
      else c.queues.insert origin queue) :
    tallyMap List.length queues + (c.rotation.queue origin).length = c.waiting + queue.length := by
  unfold rotation waiting
  dsimp only
  rw [hqueues]
  cases hlookup : c.queues.lookup origin with
  | some old =>
    rw [Option.getD_some]
    split
    next hnil =>
      rw [hnil, tallyMap_erase List.length hlookup]
      rfl
    next => exact tallyMap_insert List.length hlookup queue
  | none =>
    have hnew : origin ∉ c.queues := AList.lookup_eq_none.1 hlookup
    rw [Option.getD_none, List.length_nil, Nat.add_zero]
    split
    next hnil =>
      have herase : c.queues.erase origin = c.queues := AList.ext (List.kerase_of_notMem_keys hnew)
      rw [hnil, herase]
      rfl
    next => exact tallyMap_insert_new List.length hnew queue

/-! ## Every call is a run of moves -/

/-- `c'` is `c` after the moves `ms`, and its books are kept. -/
structure Moved (c : ClassState) (ms : List WaiterMove) (c' : ClassState) : Prop where
  run : Run Turn c.rotation ms c'.rotation
  booked : c.Booked → c'.Booked

theorem Moved.refl (c : ClassState) : Moved c [] c := ⟨.nil _, id⟩

theorem Moved.trans {c c' c'' : ClassState} {ms ms' : List WaiterMove} (h : Moved c ms c')
    (h' : Moved c' ms' c'') : Moved c (ms ++ ms') c'' :=
  ⟨h.run.append h'.run, fun hc => h'.booked (h.booked hc)⟩

theorem Booked.after (h : c.Booked) {c' : ClassState} {ms : List WaiterMove}
    (hrun : Run Turn c.rotation ms c'.rotation) {queue : List Waiter}
    (hqueues : c'.queues = if queue = [] then c.queues.erase origin
      else c.queues.insert origin queue)
    (htotal : c'.queued_total + (c.rotation.queue origin).length = c.queued_total + queue.length) : c'.Booked where
  tidy := hrun.invariant (fun _ _ _ hturn hr => hr.turn hturn) h.tidy
  stored hq := h.store hqueues hq
  total := by
    have hwaiting := waiting_store hqueues
    rw [h.total] at htotal
    unfold waiting at *
    omega

theorem enqueue_moved (c : ClassState) (origin : String) (waiter : Waiter) :
    Moved c [.arrive origin waiter] (c.enqueue origin waiter) := by
  have hne : (c.queues.lookup origin).getD [] ++ [waiter] ≠ [] := by simp
  have hqueues : (c.enqueue origin waiter).queues
      = if (c.queues.lookup origin).getD [] ++ [waiter] = [] then c.queues.erase origin
        else c.queues.insert origin ((c.queues.lookup origin).getD [] ++ [waiter]) := by
    rw [if_neg hne]
    rfl
  have hrun : Run Turn c.rotation [.arrive origin waiter] (c.enqueue origin waiter).rotation := by
    have hturn := Turn.arrive c.rotation origin waiter
    have heq : (c.enqueue origin waiter).rotation = c.rotation.setQueue origin (c.rotation.queue origin ++ [waiter])
        (if (c.rotation.queue origin).isEmpty then c.rotation.ring ++ [origin]
          else c.rotation.ring) := by
      apply RoundRobin.ext
      · unfold enqueue rotation
        rw [setQueue_ring]
        simp only [List.isEmpty_iff]
      · exact rotation_store hqueues
    rw [heq]
    exact .single hturn
  refine ⟨hrun, fun h => h.after hrun hqueues ?_⟩
  show c.queued_total + 1 + _ = _
  rw [List.length_append, List.length_singleton]
  show c.queued_total + 1 + ((c.queues.lookup origin).getD []).length = _
  omega

theorem request_moved (limits : ClassLimits) (op : OpId) (origin : String) (now_ms : ℕ) (c : ClassState) :
    Moved c (c.moves limits (.request op origin now_ms)) (c.request limits op origin now_ms).2 := by
  show Moved c (if (c.request limits op origin now_ms).1 = .queued then _ else _) _
  unfold request
  by_cases hfast : limits.below_running_breaker c.running ∧ ¬ 0 < c.queued_total
  · simp only [if_pos hfast]
    rw [if_neg (by rintro ⟨⟩)]
    exact ⟨.nil _, fun h => ⟨h.tidy, h.stored, h.total⟩⟩
  · simp only [if_neg hfast]
    by_cases hfull : limits.max_queued.any fun max_queued => decide (max_queued ≤ c.queued_total)
    · simp only [if_pos hfull]
      rw [if_neg (by rintro ⟨⟩)]
      exact Moved.refl c
    · simp only [if_neg hfull]
      exact enqueue_moved c origin ⟨op, now_ms⟩

theorem promote_one_moved {ring : List String} {waiter : Waiter} (hring : c.ring = origin :: ring)
    (hlookup : c.queues.lookup origin = some (waiter :: queue)) :
    Moved c [.serve origin waiter] (c.promote_one origin ring queue) := by
  have hqueue := rotation_queue hlookup
  have hrun : Run Turn c.rotation [.serve origin waiter] (c.promote_one origin ring queue).rotation := by
    have hturn := Turn.serve (r := c.rotation) hring hqueue
    have heq : (c.promote_one origin ring queue).rotation = c.rotation.setQueue origin queue
        (if queue.isEmpty then ring else ring ++ [origin]) := by
      apply RoundRobin.ext
      · unfold promote_one rotation
        rw [setQueue_ring]
        simp only [List.isEmpty_iff]
      · exact rotation_store rfl
    rw [heq]
    exact .single hturn
  refine ⟨hrun, fun h => h.after hrun rfl ?_⟩
  -- the total counts the waiter that goes
  have hstored := tallyMap_erase List.length hlookup
  have htotal := h.total
  rw [hqueue, List.length_cons]
  rw [List.length_cons] at hstored
  unfold promote_one
  unfold waiting at htotal
  dsimp only
  omega

theorem promote_loop_moved (limits : ClassLimits) (fuel : ℕ) (h : c.Booked) :
    Moved c (promote_moves limits fuel c) (promote_loop limits fuel c).2 ∧
      (promote_loop limits fuel c).1 = (serves (promote_moves limits fuel c)).map (·.op) := by
  induction fuel generalizing c with
  | zero => exact ⟨Moved.refl c, rfl⟩
  | succ fuel ih =>
    unfold promote_loop promote_moves
    split
    · cases hring : c.ring with
      | nil => exact ⟨Moved.refl c, rfl⟩
      | cons origin ring =>
        -- an origin in the ring has a waiter, so the two other branches are not taken
        obtain ⟨waiter, queue, hlookup⟩ := h.lookup (hring ▸ List.mem_cons_self)
        have hone := promote_one_moved hring hlookup
        obtain ⟨hrest, hops⟩ := ih (hone.booked h)
        simp only [hlookup]
        refine ⟨hone.trans hrest, ?_⟩
        rw [hops]
        rfl
    · exact ⟨Moved.refl c, rfl⟩

theorem Booked.running (h : c.Booked) (running : ℕ) : Booked { c with running } := ⟨h.tidy, h.stored, h.total⟩

theorem release_moved (limits : ClassLimits) (h : c.Booked) :
    Moved c (c.moves limits .release) (c.release limits).2 ∧
      (c.release limits).1 = (serves (c.moves limits .release)).map (·.op) := by
  obtain ⟨hmoved, hops⟩ := promote_loop_moved limits (c.ring.length + c.waiting) (h.running (c.running - 1))
  exact ⟨⟨hmoved.run, fun _ => hmoved.booked (h.running _)⟩, hops⟩

theorem expire_queue_moved (deadline now_ms : ℕ) (c : ClassState) (origin : String) (h : c.Booked) :
    Moved c (expire_queue_moves deadline now_ms c origin) (expire_queue deadline now_ms c origin).2 ∧
      (expire_queue deadline now_ms c origin).1
        = ((expire_queue_moves deadline now_ms c origin).filterMap Move.expired).map (·.op) := by
  unfold expire_queue expire_queue_moves
  split
  next hnone =>
    rw [hnone]
    exact ⟨Moved.refl c, rfl⟩
  next queue hlookup =>
    rw [hlookup, Option.getD_some]
    dsimp only
    have hsplit := List.takeWhile_append_dropWhile
      (p := fun waiter : Waiter => decide (deadline ≤ now_ms - waiter.enqueued_at_ms)) (l := queue)
    have hqueue := rotation_queue hlookup
    generalize queue.takeWhile _ = expired at hsplit ⊢
    generalize queue.dropWhile _ = rest at hsplit ⊢
    have hops : (expired.map (Move.expire origin)).filterMap Move.expired = expired := by
      rw [List.filterMap_map]
      exact List.filterMap_some
    refine ⟨?_, by rw [hops]⟩
    have hqueues : ∀ c' : ClassState, c'.queues = (if rest = [] then c.queues.erase origin
        else c.queues.insert origin rest) → c'.ring = (if rest.isEmpty then
          c.rotation.ring.filter fun o => decide (o ≠ origin) else c.rotation.ring) →
        c'.queued_total = c.queued_total - expired.length →
        Moved c (expired.map (.expire origin)) c' := by
      intro c' hstore hring htotal
      have hrun : Run Turn c.rotation (expired.map (.expire origin)) c'.rotation := by
        have hexpire := expire_run expired rest (hqueue.trans hsplit.symm) (by rw [hqueue]; exact h.stored hlookup)
        have heq : c'.rotation = c.rotation.setQueue origin rest (if rest.isEmpty then
            c.rotation.ring.filter fun o => decide (o ≠ origin) else c.rotation.ring) := by
          apply RoundRobin.ext
          · exact hring
          · exact rotation_store hstore
        rwa [heq]
      refine ⟨hrun, fun _ => h.after hrun hstore ?_⟩
      -- the total counts the waiters that go
      have hwaiting := waiting_store (c := c) hstore
      have htotal' := h.total
      rw [hqueue, ← hsplit, List.length_append] at hwaiting ⊢
      rw [htotal]
      omega
    refine hqueues _ ?_ ?_ ?_
    · split <;> rfl
    · simp only [List.isEmpty_iff]
      split <;> rfl
    · split <;> rfl

theorem expire_moved (limits : ClassLimits) (now_ms : ℕ) (c : ClassState) (order : List String) (h : c.Booked) :
    Moved c (expire_moves limits now_ms c order) (c.expire limits now_ms order).2 ∧ (c.expire limits now_ms order).1
        = ((expire_moves limits now_ms c order).filterMap Move.expired).map (·.op) := by
  induction order generalizing c with
  | nil => exact ⟨Moved.refl c, rfl⟩
  | cons origin origins ih =>
    unfold expire expire_moves
    cases limits.queue_wait_max_ms with
    | none => exact ⟨Moved.refl c, rfl⟩
    | some deadline =>
      obtain ⟨hfirst, hops⟩ := expire_queue_moved deadline now_ms c origin h
      obtain ⟨hrest, hops'⟩ := ih (expire_queue deadline now_ms c origin).2 (hfirst.booked h)
      refine ⟨hfirst.trans hrest, ?_⟩
      dsimp only
      rw [hops, hops', List.filterMap_append, List.map_append]

/-- **Every call** is a run of moves, and keeps the books. -/
theorem service_moved (limits : ClassLimits) (e : ClassEvent) (h : c.Booked) :
    Moved c (c.moves limits e) (c.service limits e) := by
  cases e with
  | request op origin now_ms => exact request_moved limits op origin now_ms c
  | release => exact (release_moved _ h).1
  | expire now_ms order => exact (expire_moved limits now_ms c order h).1

theorem promote_moves_depart (limits : ClassLimits) (fuel : ℕ) (c : ClassState)
    (hm : m ∈ promote_moves limits fuel c) (origin : String) (waiter : Waiter) :
    m ≠ .arrive origin waiter := by
  induction fuel generalizing c with
  | zero => exact absurd hm List.not_mem_nil
  | succ fuel ih =>
    unfold promote_moves at hm
    split at hm
    · split at hm
      · exact absurd hm List.not_mem_nil
      · split at hm
        · exact ih _ hm
        · exact ih _ hm
        · rcases List.mem_cons.1 hm with rfl | hm
          · rintro ⟨⟩
          · exact ih _ hm
    · exact absurd hm List.not_mem_nil

theorem expire_moves_depart (limits : ClassLimits) (now_ms : ℕ) (c : ClassState)
    (order : List String) (hm : m ∈ expire_moves limits now_ms c order) (origin : String)
    (waiter : Waiter) : m ≠ .arrive origin waiter := by
  induction order generalizing c with
  | nil => exact absurd hm List.not_mem_nil
  | cons o os ih =>
    unfold expire_moves at hm
    split at hm
    · exact absurd hm List.not_mem_nil
    · rcases List.mem_append.1 hm with hm | hm
      · obtain ⟨_, _, rfl⟩ := List.mem_map.1 hm
        rintro ⟨⟩
      · exact ih _ hm

theorem moves_depart (limits : ClassLimits) (c : ClassState) {e : ClassEvent}
    (he : ∀ op origin now_ms, e ≠ .request op origin now_ms) (hm : m ∈ c.moves limits e)
    (origin : String) (waiter : Waiter) : m ≠ .arrive origin waiter := by
  cases e with
  | request op origin now_ms => exact absurd rfl (he op origin now_ms)
  | release => exact promote_moves_depart limits _ _ hm origin waiter
  | expire now_ms order => exact expire_moves_depart limits now_ms c order hm origin waiter

/-- **Waiting means saturated**, after every call. -/
theorem Saturated.service (hs : c.Saturated limits) (h : c.Booked) (e : ClassEvent) :
    (c.service limits e).Saturated limits := by
  have hbooked := (service_moved limits e h).booked h
  cases e with
  | request op origin now_ms =>
    unfold ClassState.service request
    split_ifs with hfast hfull
    · -- admitted at once: nobody waits
      intro hqueued
      exact absurd hqueued hfast.2
    · exact hs
    · -- queued: the breaker is closed, or somebody was waiting already
      intro _
      show limits.below_running_breaker c.running = false
      by_cases hqueued : 0 < c.queued_total
      · exact hs hqueued
      · apply Bool.eq_false_iff.2
        intro hbelow
        exact hfast ⟨hbelow, hqueued⟩
  | release =>
    intro hqueued
    rcases promote_done limits { c with running := c.running - 1 } with hclosed | hring
    · exact hclosed
    · have hnone := hbooked.ring_nil_iff.1 hring
      omega
  | expire now_ms order =>
    intro hqueued
    have hrunning : (c.service limits (.expire now_ms order)).running = c.running :=
      (expire_expired limits now_ms c order).running
    rw [hrunning]
    apply hs
    -- an expiry queues nobody
    by_contra hnone
    have hring : c.ring = [] := h.ring_nil_iff.2 (by omega)
    have hle := run_ring_le (service_moved limits (.expire now_ms order) h).run
      fun m hm => moves_depart limits c (by rintro _ _ _ ⟨⟩) hm
    have hring' : (c.service limits (.expire now_ms order)).ring = [] := by
      apply List.length_eq_zero_iff.1
      apply Nat.le_zero.1
      refine Nat.le_trans hle ?_
      show c.ring.length ≤ 0
      rw [hring, List.length_nil]
    have hzero := hbooked.ring_nil_iff.1 hring'
    omega

end

end ClassState

end OpenGeni.Engine
