/-
Admission over whole histories.

Any sequence of `request`, `release` and `expire` calls, on both classes. What happens to
one class is a function of its own calls (`AdmissionBook.after_class`), so the books and
the two orders are proved for one class and hold of both. The history of a class is the
list of its waiters' moves; a waiter is followed by its position in its origin's queue,
which names it even where op ids repeat.
-/
import OpenGeni.Engine.AdmissionBooks

namespace OpenGeni.Engine

open OpenGeni.Lib RoundRobin

/-! ## One class -/

structure ClassBook where
  state : ClassState
  history : List WaiterMove

namespace ClassBook

def service (limits : ClassLimits) (b : ClassBook) (e : ClassEvent) : ClassBook :=
  ⟨b.state.service limits e, b.history ++ b.state.moves limits e⟩

/-- The class after the calls `es`. -/
def after (limits : ClassLimits) (es : List ClassEvent) : ClassBook := es.foldl (service limits) ⟨.empty, []⟩

structure Kept (limits : ClassLimits) (b : ClassBook) : Prop where
  booked : b.state.Booked
  saturated : b.state.Saturated limits
  run : Run Turn ClassState.empty.rotation b.history b.state.rotation

variable {limits : ClassLimits} {b : ClassBook}

theorem Kept.service (h : b.Kept limits) (e : ClassEvent) : (b.service limits e).Kept limits := by
  have hmoved := ClassState.service_moved limits e h.booked
  exact ⟨hmoved.booked h.booked, h.saturated.service h.booked e, h.run.append hmoved.run⟩

theorem Kept.foldl (h : b.Kept limits) (es : List ClassEvent) :
    (es.foldl (ClassBook.service limits) b).Kept limits := by
  induction es generalizing b with
  | nil => exact h
  | cons e es ih => exact ih (h.service e)

theorem after_kept (limits : ClassLimits) (es : List ClassEvent) : (after limits es).Kept limits := by
  apply Kept.foldl
  refine ⟨ClassState.empty_booked, ?_, .nil _⟩
  intro hqueued
  exact absurd hqueued (Nat.lt_irrefl 0)

theorem Kept.bounded_run {bound : ℕ} (h : b.Kept limits) {es : List ClassEvent} (hbound : ∀ es', es' <+: es →
      (es'.foldl (ClassBook.service limits) b).state.ring.length ≤ bound) :
    ∃ ms, (es.foldl (ClassBook.service limits) b).history = b.history ++ ms ∧
      Run (Restrict Turn fun r _ => r.ring.length ≤ bound) b.state.rotation ms
        (es.foldl (ClassBook.service limits) b).state.rotation := by
  induction es generalizing b with
  | nil => exact ⟨[], (List.append_nil _).symm, .nil _⟩
  | cons e es ih =>
    have hnow : b.state.ring.length ≤ bound := hbound [] List.nil_prefix
    obtain ⟨ms, hhistory, hrun⟩ := ih (h.service e) fun es' hes' =>
      hbound (e :: es') (List.cons_prefix_cons.2 ⟨rfl, hes'⟩)
    have hmoved := (ClassState.service_moved limits e h.booked).run
    have hfirst : Run (Restrict Turn fun r _ => r.ring.length ≤ bound) b.state.rotation
        (b.state.moves limits e) (b.state.service limits e).rotation := by
      cases e with
      | request op origin now_ms =>
        -- one arrival at most
        unfold ClassState.moves at hmoved ⊢
        dsimp only at hmoved ⊢
        split at hmoved
        next hqueued =>
          rw [if_pos hqueued]
          obtain ⟨r, hturn, hnil⟩ := hmoved.cons_inv
          exact .cons ⟨hturn, hnow⟩ (by cases hnil; exact .nil _)
        next hqueued =>
          rw [if_neg hqueued]
          generalize (b.state.service limits (.request op origin now_ms)).rotation = r at hmoved
          cases hmoved
          exact .nil _
      | release | expire =>
        exact restrict_run hmoved (fun m hm => ClassState.moves_depart limits _ (by rintro _ _ _ ⟨⟩) hm) hnow
    refine ⟨b.state.moves limits e ++ ms, ?_, hfirst.append hrun⟩
    rw [← List.append_assoc]
    exact hhistory

/-- **Nobody starves in a class.** An op is queued behind `p` earlier ops of its origin.
As long as at most those have left the queue, fewer than `bound * (p + 1)` ops of the class
have been promoted since. -/
theorem Kept.serves_lt (h : b.Kept limits) (bound : ℕ) {op : OpId} {origin : String} {now_ms : ℕ}
    (hqueued : (b.state.request limits op origin now_ms).1 = .queued) (es : List ClassEvent)
    (hbound : ∀ es', es' <+: es → (es'.foldl (ClassBook.service limits)
      (b.service limits (.request op origin now_ms))).state.ring.length ≤ bound)
    {ms : List WaiterMove}
    (hms : (b.service limits (.request op origin now_ms)).history ++ ms <+: (es.foldl (ClassBook.service limits)
        (b.service limits (.request op origin now_ms))).history)
    (hstay : (departures origin ms).length ≤ (b.state.rotation.queue origin).length) :
    (serves ms).length < bound * ((b.state.rotation.queue origin).length + 1) := by
  have hkept := h.service (.request op origin now_ms)
  obtain ⟨all, hhistory, hrun⟩ := hkept.bounded_run hbound
  -- the op is last in its queue
  have hlast : (b.state.service limits (.request op origin now_ms)).rotation.queue origin
      = b.state.rotation.queue origin ++ [⟨op, now_ms⟩] := by
    have harrive := (ClassState.service_moved limits (.request op origin now_ms) h.booked).run
    unfold ClassState.moves at harrive
    dsimp only at harrive
    rw [if_pos hqueued] at harrive
    have hfifo := fifo origin harrive
    have hnew : arrivals origin [(Move.arrive origin ⟨op, now_ms⟩ : WaiterMove)] = [⟨op, now_ms⟩] := by
      simp [arrivals, Move.arrives]
    have hnone : departures origin [(Move.arrive origin ⟨op, now_ms⟩ : WaiterMove)] = [] := rfl
    rw [hnew, hnone, List.nil_append] at hfifo
    exact hfifo.symm
  have hin : (b.state.rotation.queue origin).length
      < ((b.state.service limits (.request op origin now_ms)).rotation.queue origin).length := by
    rw [hlast, List.length_append, List.length_singleton]
    exact Nat.lt_succ_self _
  rw [hhistory, List.prefix_append_right_inj] at hms
  obtain ⟨rest, rfl⟩ := hms
  obtain ⟨r, hpart, -⟩ := hrun.split
  have hdue := due_le hkept.booked.tidy (hbound [] List.nil_prefix) hin
  exact Nat.lt_of_lt_of_le (RoundRobin.serves_lt hkept.booked.tidy hpart hin hstay) hdue

end ClassBook

/-! ## Both classes -/

inductive AdmissionEvent
  | request (op : OpId) (cls : JobClass) (origin : String) (now_ms : ℕ)
  | release (cls : JobClass)
  | expire (now_ms : ℕ) (order : JobClass → List String)

def AdmissionEvent.forClass (cls : JobClass) : AdmissionEvent → Option ClassEvent
  | .request op cls' origin now_ms =>
    if cls' = cls then some (.request op origin now_ms) else none
  | .release cls' => if cls' = cls then some .release else none
  | .expire now_ms order => some (.expire now_ms (order cls))

namespace AdmissionState

def service (s : AdmissionState) : AdmissionEvent → AdmissionState
  | .request op cls origin now_ms => (s.request op cls origin now_ms).2
  | .release cls => (s.release cls).2
  | .expire now_ms order => (s.expire now_ms order).2

theorem request_class (s : AdmissionState) (op : OpId) (cls : JobClass) (origin : String) (now_ms : ℕ) :
    (s.request op cls origin now_ms).1 = ((s.classes cls).request (s.limits cls) op origin now_ms).1 ∧
      (s.request op cls origin now_ms).2.classes = Function.update s.classes cls
            ((s.classes cls).request (s.limits cls) op origin now_ms).2 := by
  unfold request ClassState.request running queued
  split_ifs
  · exact ⟨rfl, rfl⟩
  · exact ⟨rfl, (Function.update_eq_self ..).symm⟩
  · exact ⟨rfl, rfl⟩

theorem service_config (s : AdmissionState) (e : AdmissionEvent) : (s.service e).config = s.config := by
  cases e with
  | request op cls origin now_ms => exact (request_requested s op cls origin now_ms).config
  | release cls => exact (release_released s cls).config
  | expire now_ms order => exact (expire_expiredFrom s now_ms order).config

/-- **The classes are isolated**: a call acts on a class through the part that concerns
it. -/
theorem service_classes (s : AdmissionState) (e : AdmissionEvent) (cls : JobClass) : (s.service e).classes cls
      = (e.forClass cls).elim (s.classes cls) ((s.classes cls).service (s.limits cls)) := by
  cases e with
  | request op cls' origin now_ms =>
    show (s.request op cls' origin now_ms).2.classes cls = _
    rw [(request_class s op cls' origin now_ms).2]
    by_cases hcls : cls' = cls
    · subst hcls
      have hfor : AdmissionEvent.forClass cls' (.request op cls' origin now_ms)
          = some (.request op origin now_ms) := if_pos rfl
      rw [hfor, Function.update_self]
      rfl
    · have hfor : AdmissionEvent.forClass cls (.request op cls' origin now_ms) = none := if_neg hcls
      rw [hfor, Function.update_of_ne (Ne.symm hcls)]
      rfl
  | release cls' =>
    show (s.release cls').2.classes cls = _
    by_cases hcls : cls' = cls
    · subst hcls
      have hfor : AdmissionEvent.forClass cls' (.release cls') = some .release := if_pos rfl
      rw [hfor]
      exact set_self _
    · have hfor : AdmissionEvent.forClass cls (.release cls') = none := if_neg hcls
      rw [hfor]
      exact set_of_ne _ (Ne.symm hcls)
  | expire now_ms order =>
    unfold service expire
    cases cls with
    | light | heavy => rfl

end AdmissionState

/-- The admission state, and per class the moves of its waiters so far. -/
structure AdmissionBook where
  state : AdmissionState
  history : JobClass → List WaiterMove

namespace AdmissionBook

def service (b : AdmissionBook) (e : AdmissionEvent) : AdmissionBook where
  state := b.state.service e
  history cls := b.history cls ++ (e.forClass cls).elim [] ((b.state.classes cls).moves (b.state.limits cls))

/-- The state after the calls `es`. -/
def after (config : AdmissionConfig) (es : List AdmissionEvent) : AdmissionBook :=
  es.foldl service ⟨.new config, fun _ => []⟩

def classBook (b : AdmissionBook) (cls : JobClass) : ClassBook := ⟨b.state.classes cls, b.history cls⟩

theorem foldl_class (b : AdmissionBook) (cls : JobClass) (es : List AdmissionEvent) :
    (es.foldl service b).classBook cls
        = (es.filterMap (AdmissionEvent.forClass cls)).foldl (ClassBook.service (b.state.limits cls))
            (b.classBook cls) ∧
      (es.foldl service b).state.config = b.state.config := by
  induction es generalizing b with
  | nil => exact ⟨rfl, rfl⟩
  | cons e es ih =>
    obtain ⟨hclass, hconfig⟩ := ih (b.service e)
    have hconfig' : (b.service e).state.config = b.state.config := b.state.service_config e
    refine ⟨?_, hconfig.trans hconfig'⟩
    rw [List.foldl_cons, hclass, AdmissionState.limits, hconfig', ← AdmissionState.limits]
    have hfirst : (b.service e).classBook cls = (e.forClass cls).elim (b.classBook cls)
          ((b.classBook cls).service (b.state.limits cls)) := by
      have hhistory : (b.service e).history cls = b.history cls ++
          (e.forClass cls).elim [] ((b.state.classes cls).moves (b.state.limits cls)) := rfl
      unfold classBook
      rw [hhistory, show (b.service e).state = b.state.service e from rfl, b.state.service_classes e cls]
      cases e.forClass cls with
      | none =>
        rw [Option.elim_none, Option.elim_none, Option.elim_none, List.append_nil]
      | some ce => rfl
    rw [hfirst, List.filterMap_cons]
    cases e.forClass cls <;> rfl

/-- **A class is a function of its own calls.** -/
theorem after_class (config : AdmissionConfig) (es : List AdmissionEvent) (cls : JobClass) :
    (after config es).classBook cls
      = ClassBook.after (config.limits cls) (es.filterMap (AdmissionEvent.forClass cls)) :=
  (foldl_class ⟨.new config, fun _ => []⟩ cls es).1

theorem after_limits (config : AdmissionConfig) (es : List AdmissionEvent) (cls : JobClass) :
    (after config es).state.limits cls = config.limits cls := by
  unfold AdmissionState.limits
  rw [show (after config es).state.config = config from (foldl_class ⟨.new config, fun _ => []⟩ cls es).2]

theorem after_kept (config : AdmissionConfig) (es : List AdmissionEvent) (cls : JobClass) :
    ((after config es).classBook cls).Kept (config.limits cls) := by
  rw [after_class]
  exact ClassBook.after_kept _ _

end AdmissionBook

/-! ## The law -/

def ClassState.queue (c : ClassState) (origin : String) : List Waiter := (c.queues.lookup origin).getD []

def ClassState.waitingOrigins (c : ClassState) : ℕ := c.queues.keys.length

theorem ClassState.Booked.ring_length {c : ClassState} (h : c.Booked) : c.ring.length = c.waitingOrigins := by
  apply List.Perm.length_eq
  apply (List.perm_ext_iff_of_nodup h.tidy.nodup c.queues.keys_nodup).2
  intro origin
  show origin ∈ c.rotation.ring ↔ origin ∈ c.queues.keys
  rw [h.tidy.mem, ← AList.mem_keys, ← AList.lookup_isSome]
  show (c.queues.lookup origin).getD [] ≠ [] ↔ _
  cases hlookup : c.queues.lookup origin with
  | none => simp
  | some queue => simp [h.stored hlookup]

/-- The law of admission, after the calls `es`. -/
structure AdmissionLaw (config : AdmissionConfig) (es : List AdmissionEvent) (b : AdmissionBook) :
    Prop where
  /-- The count of a class is the sum of its queue lengths. -/
  queued : ∀ cls, b.state.queued cls = tallyMap List.length (b.state.classes cls).queues
  nonempty : ∀ cls origin queue, (b.state.classes cls).queues.lookup origin = some queue → queue ≠ []
  /-- An origin with waiters is in the ring once, and no other is. -/
  ring_nodup : ∀ cls, (b.state.classes cls).ring.Nodup
  ring_mem : ∀ cls origin, origin ∈ (b.state.classes cls).ring ↔ origin ∈ (b.state.classes cls).queues
  /-- Somebody waits only while a breaker is set and reached. -/
  saturated : ∀ cls, 0 < b.state.queued cls →
    ∃ max, (config.limits cls).max_running = some max ∧ max ≤ b.state.running cls
  /-- A class, its history and the answers of its next calls are a function of its own calls. -/
  isolated : ∀ cls, b.classBook cls
    = ClassBook.after (config.limits cls) (es.filterMap (AdmissionEvent.forClass cls))
  request_answer : ∀ op cls origin now_ms, (b.state.request op cls origin now_ms).1
    = ((b.state.classes cls).request (config.limits cls) op origin now_ms).1
  /-- A release answers the ops it promotes, an expiry those it drops. -/
  release_answer : ∀ cls, (b.state.release cls).1
    = (serves ((b.state.classes cls).moves (config.limits cls) .release)).map (·.op)
  expire_answer : ∀ now_ms order, (b.state.expire now_ms order).1
    = (((b.state.classes .light).moves (config.limits .light)
          (.expire now_ms (order .light))).filterMap Move.expired).map (·.op) ++
      (((b.state.classes .heavy).moves (config.limits .heavy)
          (.expire now_ms (order .heavy))).filterMap Move.expired).map (·.op)
  /-- The ops of an origin leave in the order they were queued in. -/
  fifo : ∀ cls origin, arrivals origin (b.history cls)
    = departures origin (b.history cls) ++ (b.state.classes cls).queue origin
  /-- An op was queued behind `p` others of its origin, and no more than `bound` origins had
  waiters since. While at most `p` ops of its origin have left, so that it still waits, fewer
  than `bound * (p + 1)` ops were promoted. -/
  fair : ∀ es₁ op cls origin now_ms es₂, es = es₁ ++ .request op cls origin now_ms :: es₂ →
    ((AdmissionBook.after config es₁).state.request op cls origin now_ms).1 = .queued →
    ∀ bound, (∀ es', es' <+: es₂ → ((AdmissionBook.after config
        (es₁ ++ .request op cls origin now_ms :: es')).state.classes cls).waitingOrigins ≤ bound) →
    ∀ p, p = (((AdmissionBook.after config es₁).state.classes cls).queue origin).length →
    ∀ ms, (AdmissionBook.after config (es₁ ++ [.request op cls origin now_ms])).history cls ++ ms
        <+: b.history cls →
      (departures origin ms).length ≤ p → (serves ms).length < bound * (p + 1)

theorem forClass_prefix {cls : JobClass} {es : List AdmissionEvent} {ces : List ClassEvent}
    (h : ces <+: es.filterMap (AdmissionEvent.forClass cls)) :
    ∃ es', es' <+: es ∧ es'.filterMap (AdmissionEvent.forClass cls) = ces := by
  obtain ⟨rest, hrest⟩ := h
  obtain ⟨es', es'', rfl, hes', -⟩ := List.filterMap_eq_append_iff.1 hrest.symm
  exact ⟨es', List.prefix_append _ _, hes'⟩

/-- **Nobody starves.** -/
theorem AdmissionBook.fair (config : AdmissionConfig) (es₁ es₂ : List AdmissionEvent) (op : OpId)
    (cls : JobClass) (origin : String) (now_ms : ℕ)
    (hqueued : ((after config es₁).state.request op cls origin now_ms).1 = .queued) (bound : ℕ)
    (hbound : ∀ es', es' <+: es₂ → ((after config
      (es₁ ++ .request op cls origin now_ms :: es')).state.classes cls).waitingOrigins ≤ bound)
    (ms : List WaiterMove)
    (hms : (after config (es₁ ++ [.request op cls origin now_ms])).history cls ++ ms
      <+: (after config (es₁ ++ .request op cls origin now_ms :: es₂)).history cls)
    (hstay : (departures origin ms).length ≤ (((after config es₁).state.classes cls).queue origin).length) :
    (serves ms).length < bound * ((((after config es₁).state.classes cls).queue origin).length + 1) := by
  have hkept := after_kept config es₁ cls
  have hfor : AdmissionEvent.forClass cls (.request op cls origin now_ms)
      = some (.request op origin now_ms) := if_pos rfl
  -- after the request, the class is where its own calls lead
  have hsplit : ∀ es', (after config (es₁ ++ .request op cls origin now_ms :: es')).classBook cls
      = (es'.filterMap (AdmissionEvent.forClass cls)).foldl (ClassBook.service (config.limits cls))
          (((after config es₁).classBook cls).service (config.limits cls) (.request op origin now_ms)) := by
    intro es'
    rw [after_class, after_class, List.filterMap_append, List.filterMap_cons_some hfor]
    unfold ClassBook.after
    rw [List.foldl_append, List.foldl_cons]
  have hanswer := (AdmissionState.request_class (after config es₁).state op cls origin now_ms).1
  rw [hqueued, after_limits] at hanswer
  refine hkept.serves_lt bound hanswer.symm (es₂.filterMap (AdmissionEvent.forClass cls)) ?_ ?_ hstay
  · intro ces hces
    obtain ⟨es', hes', rfl⟩ := forClass_prefix hces
    have hle := hbound es' hes'
    have hbooked := (after_kept config (es₁ ++ .request op cls origin now_ms :: es') cls).booked
    rw [← hsplit es']
    exact Nat.le_trans (Nat.le_of_eq hbooked.ring_length) hle
  · have hnow := hsplit []
    rw [List.filterMap_nil, List.foldl_nil] at hnow
    rw [← hsplit es₂, ← hnow]
    exact hms

/-- **Round-robin admission starves no origin and keeps its books.** -/
theorem admission_law (config : AdmissionConfig) (es : List AdmissionEvent) :
    AdmissionLaw config es (AdmissionBook.after config es) := by
  have hkept := AdmissionBook.after_kept config es
  have hlimits := AdmissionBook.after_limits config es
  refine ⟨fun cls => (hkept cls).booked.total, fun cls origin queue h => (hkept cls).booked.stored h,
    fun cls => (hkept cls).booked.tidy.nodup, fun cls origin => ?_, fun cls hqueued => ?_,
    fun cls => AdmissionBook.after_class config es cls, fun op cls origin now_ms => ?_, fun cls => ?_,
    fun now_ms order => ?_, fun cls origin => ?_, ?_⟩
  · have hmem := (hkept cls).booked.tidy.mem origin
    rw [← AList.lookup_isSome]
    refine hmem.trans ?_
    show (((AdmissionBook.after config es).state.classes cls).queues.lookup origin).getD [] ≠ [] ↔ _
    cases hlookup : ((AdmissionBook.after config es).state.classes cls).queues.lookup origin with
    | none => simp
    | some queue => simp [(hkept cls).booked.stored hlookup]
  · have hclosed := (hkept cls).saturated hqueued
    unfold ClassLimits.below_running_breaker at hclosed
    cases hmax : (config.limits cls).max_running with
    | none => simp [hmax] at hclosed
    | some max =>
      refine ⟨max, rfl, ?_⟩
      rw [hmax] at hclosed
      exact Nat.not_lt.1 (of_decide_eq_false hclosed)
  · rw [(AdmissionState.request_class _ op cls origin now_ms).1, hlimits]
  · have hops := (ClassState.release_moved (config.limits cls) (hkept cls).booked).2
    show (ClassState.release _ _).1 = _
    rw [hlimits]
    exact hops
  · have hops := fun cls => (ClassState.expire_moved (config.limits cls) now_ms _ (order cls) (hkept cls).booked).2
    unfold AdmissionState.expire
    dsimp only
    rw [hlimits, AdmissionState.set_limits, hlimits]
    exact congrArg₂ (· ++ ·) (hops .light) (hops .heavy)
  · have hfifo := fifo origin (hkept cls).run
    exact hfifo
  · rintro es₁ op cls origin now_ms es₂ rfl hqueued bound hbound p rfl ms hms hstay
    exact AdmissionBook.fair config es₁ es₂ op cls origin now_ms hqueued bound hbound ms hms hstay

end OpenGeni.Engine
