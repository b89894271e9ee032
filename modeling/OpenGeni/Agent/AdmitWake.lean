/-
Whether a queued caller can be forgotten.

A queued `admit` is woken by its op: a release or a tick takes the op off its queue, looks
the op up in the waiters map and sends. Two things can go wrong between the locks. The
wake-up can run after the op was queued and before its sender is in the map, and then the
caller registers a sender nobody will ever look up. And a second `admit` of the same op
replaces the sender of the first, which returns `QueueFull` although no breaker tripped.

`admission_wakeups_reach` says that there is nothing else: in a run without these two, a
caller that still waits when everybody else is done is in the queue of its class, and an
error names a breaker that tripped.
-/
import OpenGeni.Agent.AdmitSlots

namespace OpenGeni.Agent

open OpenGeni.Lib OpenGeni.Engine

def CallerPc.at_work : CallerPc → Bool
  | .queued => true
  | .waiting chan => decide (chan ≠ .empty)
  | .holding _ => false
  | .refused _ => false
  | .rejected _ => false
  | .abandoned => false
  | .released => false
  | .cancelled => false

/-- Nobody is at work: no caller has a step of its own, and no release or tick has
anything left to do. -/
structure AdmitState.Quiescent (s : AdmitState) : Prop where
  callers : ∀ c ∈ s.callers, c.pc.at_work = false
  releasers : ∀ r ∈ s.releasers, r.hand = .pop ∧ r.to_wake = []
  expirers : ∀ ops ∈ s.expirers, ops = []

/-- When nobody is at work, a caller that still waits is in the queue of its class. -/
def WaitersQueued (s : AdmitState) : Prop :=
  s.Quiescent → ∀ c ∈ s.callers, c.pc = .waiting .empty → s.admission.Waits c.cls c.op

/-- An `admit` that returned an error was refused by the queue breaker at its request, or
rejected by the wait breaker. -/
def ErrorsFromBreakers (s : AdmitState) : Prop := ∀ c ∈ s.callers, ∀ reason, c.pc.result = some (.error reason) →
    c.pc = .refused .queue_full ∧ reason = .queue_full ∨ c.pc = .rejected .wait_deadline ∧ reason = .wait_deadline

structure WakeupsKept (s : AdmitState) : Prop where
  waiters : WaitersQueued s
  errors : ErrorsFromBreakers s

/-- No caller of `op` is between its request and its registration. -/
def NoneBetween (s : AdmitState) (op : OpId) : Prop := ∀ c ∈ s.callers, c.op = op → c.pc ≠ .queued

/-- What each step must meet: a wake-up of an op does not run while a caller of that op is
between its request and its registration, and a caller does not register while another
one of the same op waits in the map. -/
def WakeupsReach (s : AdmitState) : AdmitEvent → Prop
  | .wake k => ∀ r rest op, s.releasers[k]? = some r → r.to_wake = rest ++ [op] → NoneBetween s op
  | .reject k => ∀ op rest, s.expirers[k]? = some (op :: rest) → NoneBetween s op
  | .register i => ∀ c j d, s.callers[i]? = some c → s.waiters.lookup c.op = some j →
      s.callers[j]? = some d → d.pc ≠ .waiting .empty
  | _ => True

namespace AdmitState

/-- `op` is on its way from its queue to a wake-up. -/
def Awaited (s : AdmitState) (op : OpId) : Prop := (∃ r ∈ s.releasers, op ∈ r.to_wake) ∨ ∃ ops ∈ s.expirers, op ∈ ops

/-- The op of a caller is in the queue of its class, or on its way. -/
def Promised (s : AdmitState) (c : Caller) : Prop := s.admission.Waits c.cls c.op ∨ s.Awaited c.op

/-- A place where no `admit` has gone wrong: no sender was dropped, and an error is the
breaker's own. -/
def Clean (pc : CallerPc) : Prop := pc ≠ .abandoned ∧ pc ≠ .waiting .hung_up ∧
    (∀ reason, pc = .refused reason → reason = .queue_full) ∧
    (∀ reason, pc = .rejected reason → reason = .wait_deadline) ∧
    ∀ reason, pc = .waiting (.sent (.error reason)) → reason = .wait_deadline

structure Tracked (s : AdmitState) : Prop where
  /-- A sender in the waiters map is that of a caller that registered. -/
  known : ∀ op i, s.waiters.lookup op = some i → ∃ c, s.callers[i]? = some c ∧ c.pc ≠ .queued
  /-- A waiting caller's sender is in the waiters map, or in the hand of a release. -/
  sender : ∀ (i : ℕ) (c : Caller), s.callers[i]? = some c → c.pc = .waiting .empty →
    s.waiters.lookup c.op = some i ∨ ∃ r ∈ s.releasers, r.hand = .send i
  /-- A caller about to register is promised a wake-up. -/
  queued : ∀ c ∈ s.callers, c.pc = .queued → s.Promised c
  registered : ∀ (i : ℕ) (c : Caller), s.callers[i]? = some c → c.pc = .waiting .empty →
    s.waiters.lookup c.op = some i → s.Promised c
  clean : ∀ c ∈ s.callers, Clean c.pc

theorem Tracked.init (config : AdmissionConfig) : (init config).Tracked where
  known op i h := by simp [AdmitState.init] at h
  sender i c h := by simp [AdmitState.init] at h
  queued c h := absurd h List.not_mem_nil
  registered i c h := by simp [AdmitState.init] at h
  clean c h := absurd h List.not_mem_nil

section

variable {s t : AdmitState} {e : AdmitEvent} {i k : ℕ} {c : Caller} {r : Releaser} {op : OpId}

theorem mem_callers_set {d d' : Caller} (h : d ∈ s.callers.set i d') : d = d' ∨ d ∈ s.callers := by
  obtain ⟨j, hj⟩ := List.mem_iff_getElem?.1 h
  exact (getElem?_set_cases hj).imp And.right fun hd => List.mem_of_getElem? hd.2

theorem Tracked.go_on (h : s.Tracked) (hc : s.callers[i]? = some c) (pc : CallerPc)
    (hwaiting : pc ≠ .waiting .empty) (hqueued : pc ≠ .queued) (hclean : Clean pc) :
    ({ s with callers := s.callers.set i { c with pc := pc } } : AdmitState).Tracked := by
  refine ⟨fun op j hlookup => ?_, fun j d hd hpc => ?_, fun d hd hpc => ?_,
    fun j d hd hpc hlookup => ?_, fun d hd => ?_⟩
  · obtain ⟨d, hd, hpc⟩ := h.known op j hlookup
    by_cases hij : j = i
    · subst hij
      exact ⟨_, getElem?_set_same hc _, hqueued⟩
    · exact ⟨d, (List.getElem?_set_ne (Ne.symm hij)).trans hd, hpc⟩
  · rcases getElem?_set_cases hd with ⟨-, rfl⟩ | ⟨-, hd⟩
    · exact absurd hpc hwaiting
    · exact h.sender j d hd hpc
  · rcases mem_callers_set hd with rfl | hd
    · exact absurd hpc hqueued
    · exact h.queued d hd hpc
  · rcases getElem?_set_cases hd with ⟨-, rfl⟩ | ⟨-, hd⟩
    · exact absurd hpc hwaiting
    · exact h.registered j d hd hpc hlookup
  · rcases mem_callers_set hd with rfl | hd
    · exact hclean
    · exact h.clean d hd

theorem Tracked.drop_ticket (h : s.Tracked) (cls : JobClass) : (s.drop_ticket cls).Tracked := by
  have hpromised : ∀ c, s.Promised c → (s.drop_ticket cls).Promised c := fun c hc =>
    hc.imp_right (Or.imp_left fun ⟨r, hr, hop⟩ => ⟨r, List.mem_append_left _ hr, hop⟩)
  refine ⟨h.known, fun j d hd hpc => ?_, fun d hd hpc => hpromised d (h.queued d hd hpc),
    fun j d hd hpc hlookup => hpromised d (h.registered j d hd hpc hlookup), h.clean⟩
  exact (h.sender j d hd hpc).imp_right fun ⟨r, hr, hhand⟩ =>
    ⟨r, List.mem_append_left _ hr, hhand⟩

theorem Tracked.request (h : s.Tracked) (op : OpId) (cls : JobClass) (origin : String)
    (now_ms : ℕ) : (s.request op cls origin now_ms).Tracked := by
  have hrequested := AdmissionState.request_requested s.admission op cls origin now_ms
  unfold AdmitState.request
  dsimp only
  generalize s.admission.request op cls origin now_ms = out at hrequested
  obtain ⟨outcome, admission⟩ := out
  generalize hpc : CallerPc.after_request cls outcome = pc
  have hnew : pc ≠ .waiting .empty ∧ (pc = .queued → outcome = .queued) ∧ Clean pc := by
    subst hpc
    cases outcome with
    | admitted =>
      exact ⟨by rintro ⟨⟩, by rintro ⟨⟩, by rintro ⟨⟩, by rintro ⟨⟩, by rintro _ ⟨⟩, by rintro _ ⟨⟩, by rintro _ ⟨⟩⟩
    | queued =>
      exact ⟨by rintro ⟨⟩, fun _ => rfl, by rintro ⟨⟩, by rintro ⟨⟩, by rintro _ ⟨⟩, by rintro _ ⟨⟩, by rintro _ ⟨⟩⟩
    | refused reason =>
      refine ⟨by rintro ⟨⟩, by rintro ⟨⟩, by rintro ⟨⟩, by rintro ⟨⟩, ?_, by rintro _ ⟨⟩, by rintro _ ⟨⟩⟩
      rintro _ ⟨⟩
      exact hrequested.refused reason rfl
  have hpromised : ∀ c, s.Promised c → Promised ⟨admission, s.waiters,
      s.callers ++ [⟨op, cls, pc⟩], s.releasers, s.expirers⟩ c := fun c hc =>
    hc.imp_left (hrequested.waits c.cls c.op)
  refine ⟨fun op' j hlookup => ?_, fun j d hd hpc => ?_, fun d hd hpc => ?_,
    fun j d hd hpc hlookup => ?_, fun d hd => ?_⟩
  · obtain ⟨d, hd, hpc⟩ := h.known op' j hlookup
    refine ⟨d, ?_, hpc⟩
    rw [List.getElem?_append_left (List.getElem?_eq_some_iff.1 hd).1]
    exact hd
  · rcases getElem?_append_cases hd with hd | rfl
    · exact h.sender j d hd hpc
    · exact absurd hpc hnew.1
  · rcases List.mem_append.1 hd with hd | hd
    · exact hpromised d (h.queued d hd hpc)
    · obtain rfl := List.mem_singleton.1 hd
      exact Or.inl (hrequested.queued (hnew.2.1 hpc))
  · rcases getElem?_append_cases hd with hd | rfl
    · exact hpromised d (h.registered j d hd hpc hlookup)
    · exact absurd hpc hnew.1
  · rcases List.mem_append.1 hd with hd | hd
    · exact h.clean d hd
    · obtain rfl := List.mem_singleton.1 hd
      exact hnew.2.2

theorem deliver_to_of_not_waiting (caller : Option ℕ) (chan : Chan)
    (h : ∀ i c, caller = some i → s.callers[i]? = some c → c.pc ≠ .waiting .empty) :
    s.deliver_to caller chan = s := by
  unfold deliver_to
  split
  · rfl
  · rename_i i
    unfold deliver
    split
    · rfl
    · rename_i c hc
      rw [if_neg (h i c rfl hc)]

theorem Tracked.register (h : s.Tracked) (hc : s.callers[i]? = some c) (hpc : c.pc = .queued)
    (hreplaced : ∀ j d, s.waiters.lookup c.op = some j → s.callers[j]? = some d →
      d.pc ≠ .waiting .empty) : (s.register i c).Tracked := by
  unfold AdmitState.register
  -- the sender that is dropped is not this caller's, and nobody waits on it
  rw [deliver_to_of_not_waiting]
  · refine ⟨fun op j hlookup => ?_, fun j d hd hwait => ?_, fun d hd hqueued => ?_,
      fun j d hd hwait hlookup => ?_, fun d hd => ?_⟩
    · by_cases hop : op = c.op
      · subst hop
        rw [AList.lookup_insert] at hlookup
        cases hlookup
        exact ⟨_, getElem?_set_same hc _, by rintro ⟨⟩⟩
      · rw [AList.lookup_insert_ne hop] at hlookup
        obtain ⟨d, hd, hqueued⟩ := h.known op j hlookup
        have hij : i ≠ j := by
          rintro rfl
          rw [hc] at hd
          cases hd
          exact hqueued hpc
        exact ⟨d, (List.getElem?_set_ne hij).trans hd, hqueued⟩
    · rcases getElem?_set_cases hd with ⟨rfl, rfl⟩ | ⟨hij, hd⟩
      · exact Or.inl (AList.lookup_insert _)
      · refine (h.sender j d hd hwait).imp_left fun hlookup => ?_
        have hop : d.op ≠ c.op := fun hop => hreplaced j d (hop ▸ hlookup) hd hwait
        exact (AList.lookup_insert_ne hop).trans hlookup
    · rcases mem_callers_set hd with rfl | hd
      · contradiction
      · exact h.queued d hd hqueued
    · rcases getElem?_set_cases hd with ⟨rfl, rfl⟩ | ⟨hij, hd⟩
      · exact h.queued c (List.mem_of_getElem? hc) hpc
      · by_cases hop : d.op = c.op
        · rw [hop, AList.lookup_insert] at hlookup
          exact absurd (Option.some.inj hlookup).symm hij
        · rw [AList.lookup_insert_ne hop] at hlookup
          exact h.registered j d hd hwait hlookup
    · rcases mem_callers_set hd with rfl | hd
      · exact ⟨by rintro ⟨⟩, by rintro ⟨⟩, by rintro _ ⟨⟩, by rintro _ ⟨⟩, by rintro _ ⟨⟩⟩
      · exact h.clean d hd
  · intro j d hlookup hd
    rcases getElem?_set_cases hd with ⟨rfl, -⟩ | ⟨-, hd⟩
    · obtain ⟨d', hd', hqueued⟩ := h.known c.op j hlookup
      rw [hc] at hd'
      cases hd'
      exact absurd hpc hqueued
    · exact hreplaced j d hlookup hd

theorem Tracked.release (h : s.Tracked) (hr : s.releasers[k]? = some r)
    (hhand : r.hand = .release) : (s.release k r).Tracked := by
  have hreleased := AdmissionState.release_released s.admission r.cls
  unfold AdmitState.release
  generalize s.admission.release r.cls = out at hreleased
  have hnew := mem_set_self hr { r with to_wake := r.to_wake ++ out.1, hand := .pop }
  have hpromised : ∀ c, s.Promised c → Promised ⟨out.2, s.waiters, s.callers,
      s.releasers.set k { r with to_wake := r.to_wake ++ out.1, hand := .pop }, s.expirers⟩ c := by
    rintro c (hwaits | ⟨r', hr', hop⟩ | hop)
    · rcases hreleased.waits c.cls c.op hwaits with ⟨-, hop⟩ | hwaits
      · exact Or.inr (Or.inl ⟨_, hnew, List.mem_append_right _ hop⟩)
      · exact Or.inl hwaits
    · rcases mem_set_of_mem hr hr' { r with to_wake := r.to_wake ++ out.1, hand := .pop } with
        rfl | hr'
      · exact Or.inr (Or.inl ⟨_, hnew, List.mem_append_left _ hop⟩)
      · exact Or.inr (Or.inl ⟨r', hr', hop⟩)
    · exact Or.inr (Or.inr hop)
  refine ⟨h.known, fun j d hd hwait => ?_, fun d hd hqueued => hpromised d (h.queued d hd hqueued),
    fun j d hd hwait hlookup => hpromised d (h.registered j d hd hwait hlookup), h.clean⟩
  refine (h.sender j d hd hwait).imp_right fun ⟨r', hr', hsend⟩ => ?_
  rcases mem_set_of_mem hr hr' { r with to_wake := r.to_wake ++ out.1, hand := .pop } with
    rfl | hr'
  · rw [hhand] at hsend
    contradiction
  · exact ⟨r', hr', hsend⟩

theorem known_erase (h : s.Tracked) (op : OpId) : ∀ op' i, (s.waiters.erase op).lookup op' = some i →
      ∃ c, s.callers[i]? = some c ∧ c.pc ≠ .queued := by
  intro op' i hlookup
  by_cases hop : op' = op
  · subst hop
    rw [AList.lookup_erase] at hlookup
    contradiction
  · rw [AList.lookup_erase_ne hop] at hlookup
    exact h.known op' i hlookup

variable {rest : List OpId}

theorem Tracked.wake (h : s.Tracked) (hr : s.releasers[k]? = some r) (hhand : r.hand = .pop)
    (hwake : r.to_wake = rest ++ [op]) (hnone : NoneBetween s op) :
    (s.wake k r rest op).Tracked := by
  have hnew := mem_set_self hr { r with to_wake := rest, hand := s.wake_hand op }
  have hpromised : ∀ c, c.op ≠ op → s.Promised c → (s.wake k r rest op).Promised c := by
    rintro c hne (hwaits | ⟨r', hr', hop⟩ | hop)
    · exact Or.inl hwaits
    · rcases mem_set_of_mem hr hr' { r with to_wake := rest, hand := s.wake_hand op } with
        rfl | hr'
      · rw [hwake, List.mem_append, List.mem_singleton] at hop
        exact Or.inr (Or.inl ⟨_, hnew, hop.resolve_right hne⟩)
      · exact Or.inr (Or.inl ⟨r', hr', hop⟩)
    · exact Or.inr (Or.inr hop)
  refine ⟨known_erase h op, fun j d hd hwait => ?_, fun d hd hqueued => ?_, fun j d hd hwait hlookup => ?_, h.clean⟩
  · rcases h.sender j d hd hwait with hlookup | ⟨r', hr', hsend⟩
    · by_cases hop : d.op = op
      · -- its sender is the one the wake-up takes
        refine Or.inr ⟨_, hnew, ?_⟩
        unfold wake_hand
        rw [← hop, hlookup]
      · exact Or.inl ((AList.lookup_erase_ne hop).trans hlookup)
    · rcases mem_set_of_mem hr hr' { r with to_wake := rest, hand := s.wake_hand op } with
        rfl | hr'
      · rw [hhand] at hsend
        contradiction
      · exact Or.inr ⟨r', hr', hsend⟩
  · exact hpromised d (fun hop => hnone d hd hop hqueued) (h.queued d hd hqueued)
  · by_cases hop : d.op = op
    · subst hop
      exact absurd ((AList.lookup_erase _ _).symm.trans hlookup) (by rintro ⟨⟩)
    · have hlookup' := (AList.lookup_erase_ne hop).symm.trans hlookup
      exact hpromised d hop (h.registered j d hd hwait hlookup')

theorem Tracked.send (h : s.Tracked) (hr : s.releasers[k]? = some r) (hhand : r.hand = .send i)
    (hc : s.callers[i]? = some c) : (s.send k r i c).Tracked := by
  have hset : ∀ hand, ∀ (u : AdmitState), u.Tracked → u.releasers = s.releasers →
      (∀ c, u.callers[i]? = some c → c.pc ≠ .waiting .empty) →
      ({ u with releasers := s.releasers.set k { r with hand := hand } } : AdmitState).Tracked := by
    intro hand u hu hreleasers hdone
    have hnew := mem_set_self hr { r with hand := hand }
    have hpromised : ∀ c, u.Promised c → Promised
        ⟨u.admission, u.waiters, u.callers, s.releasers.set k { r with hand := hand }, u.expirers⟩ c := by
      rintro c (hwaits | ⟨r', hr', hop⟩ | hop)
      · exact Or.inl hwaits
      · rw [hreleasers] at hr'
        rcases mem_set_of_mem hr hr' { r with hand := hand } with rfl | hr'
        · exact Or.inr (Or.inl ⟨_, hnew, hop⟩)
        · exact Or.inr (Or.inl ⟨r', hr', hop⟩)
      · exact Or.inr (Or.inr hop)
    refine ⟨hu.known, fun j d hd hwait => ?_, fun d hd hqueued => hpromised d (hu.queued d hd hqueued),
      fun j d hd hwait hlookup => hpromised d (hu.registered j d hd hwait hlookup), hu.clean⟩
    refine (hu.sender j d hd hwait).imp_right fun ⟨r', hr', hsend⟩ => ?_
    rw [hreleasers] at hr'
    rcases mem_set_of_mem hr hr' { r with hand := hand } with rfl | hr'
    · -- the caller it sent to does not wait any more
      rw [hhand] at hsend
      obtain rfl := Hand.send.inj hsend
      exact absurd hwait (hdone d hd)
    · exact ⟨r', hr', hsend⟩
  unfold AdmitState.send
  split
  · have hsent := h.go_on hc (.waiting (.sent (.ok r.cls))) (by rintro ⟨⟩) (by rintro ⟨⟩)
      ⟨by rintro ⟨⟩, by rintro ⟨⟩, by rintro _ ⟨⟩, by rintro _ ⟨⟩, by rintro _ ⟨⟩⟩
    refine hset .pop _ hsent rfl fun d hd => ?_
    rw [getElem?_set_same hc, Option.some.injEq] at hd
    rw [← hd]
    rintro ⟨⟩
  · rename_i hpc
    refine hset .release s h rfl fun d hd => ?_
    rw [hc] at hd
    rw [← Option.some.inj hd]
    exact hpc

theorem Tracked.expire (h : s.Tracked) (now_ms : ℕ) (order : JobClass → List String) :
    (s.expire now_ms order).Tracked := by
  have hexpired := AdmissionState.expire_expiredFrom s.admission now_ms order
  have hpromised : ∀ c, s.Promised c → (s.expire now_ms order).Promised c := by
    rintro c (hwaits | hop | ⟨ops, hops, hop⟩)
    · rcases hexpired.waits c.cls c.op hwaits with hop | hwaits
      · exact Or.inr (Or.inr ⟨_, List.mem_append_right _ (List.mem_singleton_self _), hop⟩)
      · exact Or.inl hwaits
    · exact Or.inr (Or.inl hop)
    · exact Or.inr (Or.inr ⟨ops, List.mem_append_left _ hops, hop⟩)
  exact ⟨h.known, h.sender, fun d hd hqueued => hpromised d (h.queued d hd hqueued),
    fun j d hd hwait hlookup => hpromised d (h.registered j d hd hwait hlookup), h.clean⟩

theorem Tracked.forget (h : s.Tracked) (hk : s.expirers[k]? = some (op :: rest)) (hnone : NoneBetween s op)
    (hdone : ∀ i c, s.waiters.lookup op = some i → s.callers[i]? = some c → c.pc ≠ .waiting .empty) :
    ({ s with waiters := s.waiters.erase op, expirers := s.expirers.set k rest } : AdmitState).Tracked := by
  have hpromised : ∀ c, c.op ≠ op → s.Promised c → Promised ⟨s.admission, s.waiters.erase op,
      s.callers, s.releasers, s.expirers.set k rest⟩ c := by
    rintro c hne (hwaits | hop | ⟨ops, hops, hop⟩)
    · exact Or.inl hwaits
    · exact Or.inr (Or.inl hop)
    · rcases mem_set_of_mem hk hops rest with rfl | hops
      · have hrest := (List.mem_cons.1 hop).resolve_left hne
        exact Or.inr (Or.inr ⟨rest, mem_set_self hk rest, hrest⟩)
      · exact Or.inr (Or.inr ⟨ops, hops, hop⟩)
  refine ⟨known_erase h op, fun j d hd hwait => ?_, fun d hd hqueued => ?_, fun j d hd hwait hlookup => ?_, h.clean⟩
  · refine (h.sender j d hd hwait).imp_left fun hlookup => ?_
    have hop : d.op ≠ op := fun hop => hdone j d (hop ▸ hlookup) hd hwait
    exact (AList.lookup_erase_ne hop).trans hlookup
  · exact hpromised d (fun hop => hnone d hd hop hqueued) (h.queued d hd hqueued)
  · by_cases hop : d.op = op
    · subst hop
      exact absurd ((AList.lookup_erase _ _).symm.trans hlookup) (by rintro ⟨⟩)
    · have hlookup' := (AList.lookup_erase_ne hop).symm.trans hlookup
      exact hpromised d hop (h.registered j d hd hwait hlookup')

theorem Tracked.reject (h : s.Tracked) (hk : s.expirers[k]? = some (op :: rest)) (hnone : NoneBetween s op) :
    (s.reject k op rest).Tracked := by
  unfold AdmitState.reject deliver_to
  split
  · rename_i hlookup
    refine h.forget hk hnone fun i c hfound => ?_
    rw [hlookup] at hfound
    contradiction
  · rename_i i hlookup
    unfold deliver
    split
    · rename_i hmissing
      refine h.forget hk hnone fun j d hfound hd => ?_
      rw [hlookup] at hfound
      cases hfound
      rw [hmissing] at hd
      contradiction
    · rename_i c hc
      split
      · -- the caller receives the error first: then nobody waits under the op
        have hsent := h.go_on hc (.waiting (.sent (.error .wait_deadline))) (by rintro ⟨⟩) (by rintro ⟨⟩)
          ⟨by rintro ⟨⟩, by rintro ⟨⟩, by rintro _ ⟨⟩, by rintro _ ⟨⟩, by rintro _ ⟨⟩; rfl⟩
        refine hsent.forget hk (fun d hd hop => ?_) fun j d hfound hd => ?_
        · rcases mem_callers_set hd with rfl | hd
          · rintro ⟨⟩
          · exact hnone d hd hop
        · rw [hlookup] at hfound
          cases hfound
          rw [getElem?_set_same hc, Option.some.injEq] at hd
          rw [← hd]
          rintro ⟨⟩
      · rename_i hpc
        refine h.forget hk hnone fun j d hfound hd => ?_
        rw [hlookup] at hfound
        cases hfound
        rw [hc] at hd
        rw [← Option.some.inj hd]
        exact hpc

theorem Clean.poll {chan : Chan} {pc : CallerPc} (h : Clean (.waiting chan))
    (hpoll : chan.poll = some pc) : pc ≠ .waiting .empty ∧ pc ≠ .queued ∧ Clean pc := by
  obtain ⟨-, hhung, -, -, herror⟩ := h
  unfold Chan.poll at hpoll
  split at hpoll
  · contradiction
  · rw [← Option.some.inj hpoll]
    exact ⟨by rintro ⟨⟩, by rintro ⟨⟩, by rintro ⟨⟩, by rintro ⟨⟩, by rintro _ ⟨⟩, by rintro _ ⟨⟩, by rintro _ ⟨⟩⟩
  · rw [← Option.some.inj hpoll]
    refine ⟨by rintro ⟨⟩, by rintro ⟨⟩, by rintro ⟨⟩, by rintro ⟨⟩, by rintro _ ⟨⟩, ?_, by rintro _ ⟨⟩⟩
    rintro _ ⟨⟩
    exact herror _ rfl
  · exact absurd rfl hhung

theorem Clean.done {pc : CallerPc} (h : pc = .cancelled ∨ pc = .released) :
    pc ≠ .waiting .empty ∧ pc ≠ .queued ∧ Clean pc := by
  rcases h with rfl | rfl <;>
    exact ⟨by rintro ⟨⟩, by rintro ⟨⟩, by rintro ⟨⟩, by rintro ⟨⟩, by rintro _ ⟨⟩, by rintro _ ⟨⟩, by rintro _ ⟨⟩⟩

/-- **One step** that meets the condition forgets nobody. -/
theorem tracked_step (h : s.Tracked) (hstep : AdmitStep s e t) (hok : WakeupsReach s e) : t.Tracked := by
  cases hstep with
  | request op cls origin now_ms => exact h.request op cls origin now_ms
  | register hc hpc =>
    exact h.register hc hpc fun j d hlookup hd => hok _ j d hc hlookup hd
  | poll hc hpc hpoll =>
    have hclean := h.clean _ (List.mem_of_getElem? hc)
    rw [hpc] at hclean
    obtain ⟨hwaiting, hqueued, hclean'⟩ := hclean.poll hpoll
    exact h.go_on hc _ hwaiting hqueued hclean'
  | cancel hc hpc =>
    obtain ⟨hwaiting, hqueued, hclean⟩ := Clean.done (Or.inl rfl)
    exact h.go_on hc _ hwaiting hqueued hclean
  | cancel_delivered hc hpc =>
    obtain ⟨hwaiting, hqueued, hclean⟩ := Clean.done (Or.inl rfl)
    exact (h.go_on hc _ hwaiting hqueued hclean).drop_ticket _
  | drop_ticket hc hpc =>
    obtain ⟨hwaiting, hqueued, hclean⟩ := Clean.done (Or.inr rfl)
    exact (h.go_on hc _ hwaiting hqueued hclean).drop_ticket _
  | release hr hhand => exact h.release hr hhand
  | wake rest op hr hhand hwake => exact h.wake hr hhand hwake (hok _ rest op hr hwake)
  | send hr hhand hc => exact h.send hr hhand hc
  | expire => exact h.expire _ _
  | reject hk => exact h.reject hk (hok _ _ hk)

theorem Tracked.wakeups_kept (h : s.Tracked) : WakeupsKept s := by
  refine ⟨fun hquiet c hc hpc => ?_, fun c hc reason hresult => ?_⟩
  · obtain ⟨i, hi⟩ := List.mem_iff_getElem?.1 hc
    -- no release has anything in its hand or on its list, and no tick either
    have hlookup : s.waiters.lookup c.op = some i := by
      refine (h.sender i c hi hpc).resolve_right ?_
      rintro ⟨r, hr, hsend⟩
      rw [(hquiet.releasers r hr).1] at hsend
      contradiction
    refine (h.registered i c hi hpc hlookup).resolve_right ?_
    rintro (⟨r, hr, hop⟩ | ⟨ops, hops, hop⟩)
    · rw [(hquiet.releasers r hr).2] at hop
      exact List.not_mem_nil hop
    · rw [hquiet.expirers ops hops] at hop
      exact List.not_mem_nil hop
  · obtain ⟨habandoned, -, hrefused, hrejected, -⟩ := h.clean c hc
    obtain ⟨op, cls, pc⟩ := c
    unfold CallerPc.result at hresult
    dsimp only at *
    split at hresult
    · rw [Option.some.injEq] at hresult
      contradiction
    · rw [Option.some.injEq, Except.error.injEq] at hresult
      subst hresult
      have hreason := hrefused _ rfl
      exact Or.inl ⟨by rw [hreason], hreason⟩
    · rw [Option.some.injEq, Except.error.injEq] at hresult
      subst hresult
      have hreason := hrejected _ rfl
      exact Or.inr ⟨by rw [hreason], hreason⟩
    · exact absurd rfl habandoned
    all_goals contradiction

end

end AdmitState

/-! ## Whole runs -/

/-- **Wake-ups that reach.** In every run all of whose steps meet `WakeupsReach`, no
wake-up is lost. -/
theorem admission_wakeups_reach {config : AdmissionConfig} {es : List AdmitEvent}
    {s : AdmitState} (h : Run (Restrict AdmitStep WakeupsReach) (.init config) es s) :
    WakeupsKept s := by
  have htracked : s.Tracked := h.invariant (P := fun s : AdmitState => s.Tracked)
    (fun s e t hstep hs => AdmitState.tracked_step hs hstep.1 hstep.2) (.init config)
  exact htracked.wakeups_kept

/-- A caller that has registered gets the slot of a ticket that is dropped. -/
theorem registered_caller_is_woken : ∃ s : AdmitState, WakeupsKept s ∧
    s.callers.map (·.pc) = [.released, .holding .heavy] := by
  have hqueued : Run (Restrict AdmitStep WakeupsReach) (.init one_at_a_time) _ _ :=
    (Run.single ⟨.request (.init one_at_a_time) ⟨"a"⟩ .heavy "o" 0, trivial⟩).snoc
      ⟨.request _ ⟨"b"⟩ .heavy "o" 1, trivial⟩
  have hwaiting := hqueued.snoc ⟨.register (i := 1) rfl rfl, fun c _ _ _ hlookup =>
    absurd ((AList.lookup_empty c.op).symm.trans hlookup) (by rintro ⟨⟩)⟩
  have hpromoted := (hwaiting.snoc ⟨.drop_ticket (i := 0) rfl rfl, trivial⟩).snoc ⟨.release (k := 0) rfl rfl, trivial⟩
  have hsent := (hpromoted.snoc ⟨.wake (k := 0) [] ⟨"b"⟩ rfl rfl rfl, fun _ _ _ _ _ c hc _ =>
    (show ∀ c ∈ _, Caller.pc c ≠ .queued by decide) c hc⟩).snoc ⟨.send (k := 0) rfl rfl rfl, trivial⟩
  have hdone := hsent.snoc ⟨.poll (i := 1) rfl rfl rfl, trivial⟩
  exact ⟨_, admission_wakeups_reach hdone, by decide⟩

/-- Both halves fail without the condition. A ticket dropped between a request and its registration promotes the op,
finds no sender and gives the slot back: the caller waits for ever. And a second caller of an op replaces the sender
of the first, which returns `QueueFull` with no breaker set. -/
theorem wakeups_can_be_lost : (¬ ∀ es s, Run AdmitStep (.init one_at_a_time) es s → WaitersQueued s) ∧
      ¬ ∀ es s, Run AdmitStep (.init one_at_a_time) es s → ErrorsFromBreakers s := by
  have hqueued : Run AdmitStep (.init one_at_a_time) _ _ :=
    (Run.single (AdmitStep.request (.init one_at_a_time) ⟨"a"⟩ .heavy "o" 0)).snoc (.request _ ⟨"b"⟩ .heavy "o" 1)
  constructor
  · intro h
    have hpromoted := (hqueued.snoc (.drop_ticket (i := 0) rfl rfl)).snoc (.release (k := 0) rfl rfl)
    have hbounced := (hpromoted.snoc (.wake (k := 0) [] ⟨"b"⟩ rfl rfl rfl)).snoc (.release (k := 0) rfl rfl)
    have hlate := hbounced.snoc (.register (i := 1) rfl rfl)
    have hquiet := h _ _ hlate ⟨by decide, by decide, by decide⟩
      ⟨⟨"b"⟩, .heavy, .waiting .empty⟩ (List.mem_of_getElem? (i := 1) rfl) rfl
    obtain ⟨origin, queue, hlookup, -⟩ := hquiet
    contradiction
  · intro h
    have hwaiting := hqueued.snoc (.register (i := 1) rfl rfl)
    have hsecond := (hwaiting.snoc (.request _ ⟨"b"⟩ .heavy "o" 2)).snoc (.register (i := 2) rfl rfl)
    have hgone := hsecond.snoc (.poll (i := 1) rfl rfl rfl)
    rcases h _ _ hgone ⟨⟨"b"⟩, .heavy, .abandoned⟩ (List.mem_of_getElem? (i := 1) rfl)
      .queue_full rfl with ⟨hpc, -⟩ | ⟨hpc, -⟩ <;> contradiction

end OpenGeni.Agent
