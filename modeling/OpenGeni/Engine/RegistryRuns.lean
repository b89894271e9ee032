/-
The op registry over whole histories.

A history is any sequence of `begin`, `cancel`, `complete`, `final_ack` and `gc` calls
with a clock that never goes back. The law is about one id while every other id is free
to fill the shared tables: a second fresh begin needs a garbage collection in between
that gave the first execution up. Either it dropped a final-acked result, or it recorded
the op as lost and the marker was evicted at its cap, which is counted.

The argument follows what the registry knows of the id. A fresh begin makes it live, only
a collection can make a live id lost or forgotten, and only a collection that caps its
marker can make a lost id forgotten (`registry_step_effect` says what one call can do, and
everything else is read off it).
-/
import OpenGeni.Engine.Registry
import OpenGeni.Lib.Run

namespace OpenGeni.Engine

open OpenGeni.Lib

variable {τ : Type*}

/-! ## Histories -/

/-- One call on the registry. A collection carries the order in which it meets the op
map. -/
inductive RegistryCall (τ : Type*)
  | begin (id : OpId) (state : τ)
  | cancel (id : OpId)
  | complete (id : OpId) (exit_seq : ℕ)
  | final_ack (id : OpId)
  | gc (order : List OpId)

structure RegistryEvent (τ : Type*) where
  now_ms : ℕ
  call : RegistryCall τ

structure RegistryState (τ : Type*) where
  registry : OpRegistry τ
  clock : ℕ

def OpRegistry.after (r : OpRegistry τ) (e : RegistryEvent τ) : OpRegistry τ := match e.call with
  | .begin id state => (r.begin id state e.now_ms).2
  | .cancel id => (r.cancel id e.now_ms).2
  | .complete id exit_seq => r.complete id exit_seq e.now_ms
  | .final_ack id => r.final_ack id
  | .gc order => (r.gc e.now_ms order).2

/-- One call: the clock is a `u64` that does not go back, and a collection meets every
key of the map once. -/
structure RegistryStep (s : RegistryState τ) (e : RegistryEvent τ) (t : RegistryState τ) :
    Prop where
  clock_le : s.clock ≤ e.now_ms
  now_lt : e.now_ms < U64_SIZE
  order_perm : ∀ order, e.call = .gc order → order.Perm s.registry.ops.keys
  registry_eq : t.registry = s.registry.after e
  clock_eq : t.clock = e.now_ms

variable {s t : RegistryState τ} {e : RegistryEvent τ}

theorem RegistryStep.of_call (e : RegistryEvent τ) (hclock : s.clock ≤ e.now_ms)
    (hnow : e.now_ms < U64_SIZE) (hcall : ∀ order, e.call ≠ .gc order) :
    RegistryStep s e ⟨s.registry.after e, e.now_ms⟩ :=
  ⟨hclock, hnow, fun order h => absurd h (hcall order), rfl, rfl⟩

def RegistryState.init (config : RegistryConfig) : RegistryState τ := ⟨.new config, 0⟩

/-! ## What one call can do -/

inductive Advances (id : OpId) : RegistryEvent τ → OpEntry τ → OpEntry τ → Prop
  | cancelled {now_ms : ℕ} (state : τ) (cancel_requested : Bool) (began_at_ms : ℕ) :
      Advances id ⟨now_ms, .cancel id⟩ (.running state cancel_requested began_at_ms)
        (.running state true began_at_ms)
  | completed {now_ms exit_seq : ℕ} (state : τ) (cancel_requested : Bool) (began_at_ms : ℕ) :
      Advances id ⟨now_ms, .complete id exit_seq⟩ (.running state cancel_requested began_at_ms)
        (.complete state exit_seq now_ms false)
  | acked {now_ms : ℕ} (state : τ) (exit_seq completed_at_ms : ℕ) (final_acked : Bool) :
      Advances id ⟨now_ms, .final_ack id⟩ (.complete state exit_seq completed_at_ms final_acked)
        (.complete state exit_seq completed_at_ms true)

/-- What one call makes of the registry `r`. -/
inductive Effect (r : OpRegistry τ) (e : RegistryEvent τ) : OpRegistry τ → Prop
  | unchanged : Effect r e r
  | began {id : OpId} {state : τ} (hcall : e.call = .begin id state)
      (hfresh : (r.begin id state e.now_ms).1 = .fresh) :
      Effect r e { r with ops := r.ops.insert id (.running state false e.now_ms) }
  | advanced {id : OpId} {entry entry' : OpEntry τ} (hentry : r.ops.lookup id = some entry)
      (hadvance : Advances id e entry entry') :
      Effect r e { r with ops := r.ops.insert id entry' }
  | tombstoned {id : OpId} (hcall : e.call = .cancel id) (hid : id ∉ r.tombstones.table) :
      Effect r e (r.record_tombstone id e.now_ms)
  | swept {order : List OpId} {cs : List Completed} {k : ℕ} (hcall : e.call = .gc order)
      (hswept : r.Swept e.now_ms cs k (r.gc e.now_ms order)) :
      Effect r e (r.gc e.now_ms order).2

/-- **One call**, said once. -/
theorem registry_step_effect (hwf : s.registry.Wf) (h : RegistryStep s e t) :
    t.registry.Wf ∧ Effect s.registry e t.registry := by
  obtain ⟨-, -, hperm, hreg, -⟩ := h
  obtain ⟨now_ms, call⟩ := e
  unfold OpRegistry.after at hreg
  rcases call with ⟨id, state⟩ | ⟨id⟩ | ⟨id, exit_seq⟩ | ⟨id⟩ | ⟨order⟩ <;>
    dsimp only at hreg <;> rw [hreg]
  · refine ⟨hwf.begin id state now_ms, ?_⟩
    by_cases hfresh : (s.registry.begin id state now_ms).1 = .fresh
    · rw [OpRegistry.begin_fresh state hfresh]
      exact .began rfl hfresh
    · rw [(OpRegistry.begin_not_fresh _ _ _ _ hfresh).1]
      exact .unchanged
  · refine ⟨hwf.cancel id now_ms, ?_⟩
    rcases OpRegistry.cancel_cases s.registry id now_ms with
      ⟨_, _, _, hentry, hres⟩ | ⟨-, -, hid, hres⟩ | ⟨hres, -⟩ <;> rw [hres]
    · exact .advanced hentry (.cancelled _ _ _)
    · exact .tombstoned rfl hid
    · exact .unchanged
  · refine ⟨hwf.complete id exit_seq now_ms, ?_⟩
    unfold OpRegistry.complete
    split
    · exact .advanced ‹_› (.completed _ _ _)
    · exact .unchanged
    · exact .unchanged
  · refine ⟨hwf.final_ack id, ?_⟩
    unfold OpRegistry.final_ack
    split
    · exact .advanced ‹_› (.acked _ _ _ _)
    · exact .unchanged
    · exact .unchanged
  · obtain ⟨cs, k, hswept⟩ := OpRegistry.gc_swept hwf now_ms (hperm order rfl)
    exact ⟨hwf.swept hswept, .swept rfl hswept⟩

/-- What every call but a collection leaves: all live ops, and every marker. -/
structure Keeps (r r' : OpRegistry τ) : Prop where
  ops : ∀ id, id ∈ r.ops → id ∈ r'.ops
  lost : r'.lost = r.lost

theorem Effect.keeps_or_swept {r r' : OpRegistry τ} (h : Effect r e r') :
    r'.config = r.config ∧ (Keeps r r' ∨ ∃ order cs k, e.call = .gc order ∧
      r.Swept e.now_ms cs k (r.gc e.now_ms order) ∧ r' = (r.gc e.now_ms order).2) := by
  have hinsert : ∀ (id : OpId) (entry : OpEntry τ),
      Keeps r { r with ops := r.ops.insert id entry } := fun id entry =>
    ⟨fun _ h => (AList.mem_insert _).2 (Or.inr h), rfl⟩
  cases h with
  | unchanged | tombstoned => exact ⟨rfl, Or.inl ⟨fun _ h => h, rfl⟩⟩
  | began | advanced => exact ⟨rfl, Or.inl (hinsert _ _)⟩
  | swept hcall hswept =>
    exact ⟨hswept.config, Or.inr ⟨_, _, _, hcall, hswept, rfl⟩⟩

theorem registry_step_cases (hwf : s.registry.Wf) (h : RegistryStep s e t) :
    t.registry.Wf ∧ t.registry.config = s.registry.config ∧ (Keeps s.registry t.registry ∨
        ∃ order cs k, e.call = .gc order ∧ s.registry.Swept e.now_ms cs k (s.registry.gc e.now_ms order) ∧
          t.registry = (s.registry.gc e.now_ms order).2) := by
  obtain ⟨hwf', heffect⟩ := registry_step_effect hwf h
  exact ⟨hwf', heffect.keeps_or_swept⟩

section

variable {s t : RegistryState τ} {e : RegistryEvent τ} {id : OpId}

theorem registry_run_wf {config : RegistryConfig} {es : List (RegistryEvent τ)}
    (h : Run RegistryStep (.init config) es s) :
    s.registry.Wf ∧ s.registry.config = config := by
  refine h.invariant (P := fun s : RegistryState τ => s.registry.Wf ∧ s.registry.config = config)
    (fun s e t hstep hs => ?_) ⟨.new config, rfl⟩
  obtain ⟨hwf, hconfig, -⟩ := registry_step_cases hs.1 hstep
  exact ⟨hwf, hconfig.trans hs.2⟩

/-! ## One entry at a time -/

section

variable {s t u : RegistryState τ} {now_ms : ℕ} {order : List OpId} {id : OpId}

theorem gc_step_swept (hwf : s.registry.Wf) (h : RegistryStep s ⟨now_ms, .gc order⟩ t) :
    ∃ cs k, s.registry.Swept now_ms cs k (s.registry.gc now_ms order) ∧
      t.registry = (s.registry.gc now_ms order).2 := by
  obtain ⟨cs, k, hswept⟩ := OpRegistry.gc_swept hwf now_ms (h.order_perm order rfl)
  exact ⟨cs, k, hswept, h.registry_eq⟩

variable {k began_at_ms : ℕ} {out : GcReport × OpRegistry τ} {cancel_requested : Bool}

theorem OpRegistry.Swept.lookup_of_running {r : OpRegistry τ} {cs : List Completed} {state : τ}
    (h : r.Swept now_ms cs k out)
    (hrun : r.ops.lookup id = some (.running state cancel_requested began_at_ms)) :
    out.2.ops.lookup id = some (.running state cancel_requested began_at_ms) := by
  rw [h.ops, if_neg, hrun]
  intro hmem
  obtain ⟨c, hc, rfl⟩ := List.mem_map.1 hmem
  obtain ⟨-, _, _, hcomplete⟩ := completed_entry_some (h.collected.entry c hc)
  rw [hrun] at hcomplete
  exact absurd (Option.some.inj hcomplete) (by rintro ⟨⟩)

theorem OpRegistry.Swept.unacked_nodup {r : OpRegistry τ} {cs : List Completed} (h : r.Swept now_ms cs k out) :
    (OpRegistry.unacked cs).Nodup :=
  (List.filter_sublist.map _).nodup h.collected.nodup

theorem step_keeps_running {e : RegistryEvent τ} {state : τ} (hwf : s.registry.Wf)
    (h : RegistryStep s e t) (hcall : ∀ exit_seq, e.call ≠ .complete id exit_seq)
    (hrun : s.registry.ops.lookup id = some (.running state cancel_requested began_at_ms)) :
    ∃ cancel_requested', t.registry.ops.lookup id = some (.running state cancel_requested' began_at_ms) := by
  have heffect := (registry_step_effect hwf h).2
  generalize t.registry = r' at heffect
  cases heffect with
  | unchanged | tombstoned => exact ⟨_, hrun⟩
  | @began j st hbegin hfresh =>
    -- the fresh op is another one
    have hj := ((OpRegistry.begin_fresh_iff _ _ _ _).1 hfresh).2.1
    have hne : id ≠ j := by
      rintro rfl
      exact hj (OpRegistry.mem_ops_of_lookup hrun)
    exact ⟨_, (AList.lookup_insert_ne hne).trans hrun⟩
  | @advanced j entry entry' hentry hadvance =>
    by_cases hj : id = j
    · subst hj
      rw [hrun] at hentry
      cases hentry
      cases hadvance with
      | cancelled => exact ⟨true, AList.lookup_insert _⟩
      | completed => exact absurd rfl (hcall _)
    · exact ⟨_, (AList.lookup_insert_ne hj).trans hrun⟩
  | swept _ hswept => exact ⟨_, hswept.lookup_of_running hrun⟩

theorem step_new_op {e : RegistryEvent τ} (hwf : s.registry.Wf) (h : RegistryStep s e t)
    (hid : id ∉ s.registry.ops) (hlive : id ∈ t.registry.ops) :
    ∃ state, e.call = .begin id state ∧ (s.registry.begin id state e.now_ms).1 = .fresh := by
  have heffect := (registry_step_effect hwf h).2
  generalize t.registry = r' at heffect hlive
  cases heffect with
  | unchanged | tombstoned => exact absurd hlive hid
  | began hbegin hfresh =>
    rcases (AList.mem_insert _).1 hlive with rfl | hin
    · exact ⟨_, hbegin, hfresh⟩
    · exact absurd hin hid
  | advanced hentry =>
    rcases (AList.mem_insert _).1 hlive with rfl | hin
    · exact absurd (OpRegistry.mem_ops_of_lookup hentry) hid
    · exact absurd hin hid
  | swept _ hswept =>
    have hsome := AList.lookup_isSome.2 hlive
    rw [hswept.ops] at hsome
    split at hsome
    · contradiction
    · exact absurd (AList.lookup_isSome.1 hsome) hid

end

/-! ## At most once -/

/-- The collection from `s` to `t` evicted the marker of `id` at the cap: the order of
the markers, with the newly recorded ones at its end, lost a prefix with `id` in it, and
the counter grew by the length of that prefix. -/
def CapsMarker (id : OpId) (s : RegistryState τ) (e : RegistryEvent τ) (t : RegistryState τ) : Prop :=
  ∃ order k, e.call = .gc order ∧
    id ∈ (s.registry.lost.order ++ (s.registry.gc e.now_ms order).1.evicted_unacked).take k ∧
    id ∉ t.registry.lost.table ∧
    t.registry.counters.lost_markers_capped_total = s.registry.counters.lost_markers_capped_total + k

/-- The collection from `s` to `t` removed the entry of `id` because it was
final-acked. -/
def DropsAcked (id : OpId) (s : RegistryState τ) (e : RegistryEvent τ) (t : RegistryState τ) : Prop :=
  (∃ order, e.call = .gc order) ∧ id ∉ t.registry.ops ∧ ∃ state exit_seq completed_at_ms,
      s.registry.ops.lookup id = some (.complete state exit_seq completed_at_ms true)

/-- The collection from `s` to `t` evicted `id` and listed it as never final-acked. -/
def RecordsLost (id : OpId) (s : RegistryState τ) (e : RegistryEvent τ) (t : RegistryState τ) : Prop :=
  ∃ order, e.call = .gc order ∧ id ∈ s.registry.ops ∧ id ∉ t.registry.ops ∧
    id ∈ (s.registry.gc e.now_ms order).1.evicted_unacked

/-- Some collection of the run recorded `id` as lost, and that collection or a later one
evicted the marker. -/
def LostThenCapped (id : OpId) (s : RegistryState τ) (es : List (RegistryEvent τ)) (u : RegistryState τ) : Prop :=
  Sometime RegistryStep (fun t e t' => RecordsLost id t e t' ∧ CapsMarker id t e t') s es u ∨
    ∃ es₁ es₂ t, es = es₁ ++ es₂ ∧ Sometime RegistryStep (RecordsLost id) s es₁ t ∧
      Sometime RegistryStep (CapsMarker id) t es₂ u

/-- The registry knows of `id`. -/
def Knows (id : OpId) (s : RegistryState τ) : Prop := id ∈ s.registry.ops ∨ id ∈ s.registry.lost.table

theorem step_forgets_op (hwf : s.registry.Wf) (h : RegistryStep s e t) (hid : id ∈ s.registry.ops)
    (hgone : id ∉ t.registry.ops) : DropsAcked id s e t ∨ RecordsLost id s e t := by
  obtain ⟨-, -, hkeep | ⟨order, cs, k, hcall, hswept, hreg⟩⟩ := registry_step_cases hwf h
  · exact absurd (hkeep.ops id hid) hgone
  · rw [hreg] at hgone
    obtain ⟨state, exit_seq, completed_at_ms, final_acked, hlookup, hlist⟩ := hswept.removed hid hgone
    cases final_acked
    · exact Or.inr ⟨order, hcall, hid, hreg ▸ hgone, hlist rfl⟩
    · exact Or.inl ⟨⟨order, hcall⟩, hreg ▸ hgone, state, exit_seq, completed_at_ms, hlookup⟩

theorem step_forgets_marker (hwf : s.registry.Wf) (h : RegistryStep s e t)
    (hid : id ∈ s.registry.lost.table ∨ RecordsLost id s e t)
    (hgone : id ∉ t.registry.lost.table) : CapsMarker id s e t := by
  obtain ⟨-, -, hkeep | ⟨order, cs, k, hcall, hswept, hreg⟩⟩ := registry_step_cases hwf h
  · rcases hid with hid | ⟨order, hcall, hops, hops', -⟩
    · rw [hkeep.lost] at hgone
      exact absurd hid hgone
    · exact absurd (hkeep.ops id hops) hops'
  · have hmem : id ∈ s.registry.lost.order ++ OpRegistry.unacked cs := by
      rcases hid with hid | ⟨order', hcall', -, -, hlist⟩
      · exact List.mem_append_left _ ((hwf.lost.mem id).2 hid)
      · rw [hcall] at hcall'
        rw [← RegistryCall.gc.inj hcall', hswept.evicted_unacked] at hlist
        exact List.mem_append_right _ hlist
    refine ⟨order, k, hcall, ?_, hgone, ?_⟩
    · rw [hswept.evicted_unacked]
      rcases hswept.lost.mem_or_evicted hmem with hkept | hcapped
      · rw [hreg] at hgone
        exact absurd ((hswept.lost.tidy.mem id).1 hkept) hgone
      · exact hcapped
    · rw [hreg, hswept.counters]

theorem step_records_marker (hwf : s.registry.Wf) (h : RegistryStep s e t)
    (hid : id ∉ s.registry.lost.table) (hmark : id ∈ t.registry.lost.table) :
    RecordsLost id s e t := by
  obtain ⟨hwf', -, hkeep | ⟨order, cs, k, hcall, hswept, hreg⟩⟩ := registry_step_cases hwf h
  · rw [hkeep.lost] at hmark
    exact absurd hmark hid
  · have hun : id ∈ OpRegistry.unacked cs := by
      have hmark' := hmark
      rw [hreg, ← hswept.lost.tidy.mem, hswept.lost.order] at hmark'
      rcases List.mem_append.1 (List.mem_of_mem_drop hmark') with hold | hnew
      · exact absurd ((hwf.lost.mem id).1 hold) hid
      · exact hnew
    obtain ⟨c, hc, hcid⟩ := List.mem_map.1 (OpRegistry.unacked_subset hun)
    refine ⟨order, hcall, hcid ▸ hswept.collected.mem_ops hc, fun hops => ?_, ?_⟩
    · exact hwf'.disjoint id hops hmark
    · rw [hswept.evicted_unacked]
      exact hun

end

section

variable {s t u : RegistryState τ} {e : RegistryEvent τ} {es : List (RegistryEvent τ)} {id : OpId}

theorem run_wf (hwf : s.registry.Wf) (h : Run RegistryStep s es u) : u.registry.Wf :=
  h.invariant (P := fun s : RegistryState τ => s.registry.Wf)
    (fun _ _ _ hstep hs => (registry_step_cases hs hstep).1) hwf

/-- **Giving an op up.** A run from a state where `id` is live to a state that knows
nothing of it holds a collection that dropped it final-acked, or one that recorded it as
lost with its marker capped then or later. -/
theorem run_forgets (hwf : s.registry.Wf) (h : Run RegistryStep s es u)
    (hlive : id ∈ s.registry.ops) (hgone : ¬ Knows id u) :
    Sometime RegistryStep (DropsAcked id) s es u ∨ LostThenCapped id s es u := by
  obtain ⟨es₁, e, es₂, v, w, hes, hpre, hstep, ⟨hv, hw⟩, hpost⟩ := h.lost (P := Knows id) (Or.inl hlive) hgone
  have hwfv := run_wf hwf hpre
  obtain ⟨hops, hlost⟩ := not_or.1 hw
  rcases hv with hv | hv
  · -- the collection that removed the live entry is the last one that matters
    rcases step_forgets_op hwfv hstep hv hops with hacked | hrec
    · exact Or.inl ⟨es₁, e, es₂, v, w, hes, hpre, hstep, hacked, hpost⟩
    · exact Or.inr (Or.inl ⟨es₁, e, es₂, v, w, hes, hpre, hstep,
        ⟨hrec, step_forgets_marker hwfv hstep (Or.inr hrec) hlost⟩, hpost⟩)
  · -- the entry was given up earlier, when the marker was recorded
    obtain ⟨fs₁, f, fs₂, x, y, hfs, hpre', hstep', ⟨hx, hy⟩, hpost'⟩ :=
      hpre.lost (P := fun s : RegistryState τ => id ∉ s.registry.lost.table) (hwf.disjoint id hlive) (not_not.2 hv)
    have hrec := step_records_marker (run_wf hwf hpre') hstep' hx (not_not.1 hy)
    have hcap := step_forgets_marker hwfv hstep (Or.inl hv) hlost
    exact Or.inr (Or.inr ⟨es₁, e :: es₂, v, hes, ⟨fs₁, f, fs₂, x, y, hfs, hpre', hstep', hrec, hpost'⟩,
      ⟨[], e, es₂, v, w, rfl, .nil v, hstep, hcap, hpost⟩⟩)

theorem run_keeps_marker (hwf : s.registry.Wf) (h : Run RegistryStep s es u)
    (hmark : s.registry.lost.table.lookup id = some .evicted) :
    u.registry.query id = .lost .evicted ∨ Sometime RegistryStep (CapsMarker id) s es u := by
  induction h with
  | nil s =>
    -- the marker answers, since a lost op is not live
    have hlost : id ∈ s.registry.lost.table := AList.lookup_isSome.1 (hmark ▸ rfl)
    have hops : s.registry.ops.lookup id = none := AList.lookup_eq_none.2 fun hops => hwf.disjoint id hops hlost
    left
    unfold OpRegistry.query
    rw [hops, hmark]
  | @cons s t u e es hstep rest ih =>
    obtain ⟨hwf', -, hcases⟩ := registry_step_cases hwf hstep
    have hlost : id ∈ s.registry.lost.table := AList.lookup_isSome.1 (hmark ▸ rfl)
    by_cases hkept : id ∈ t.registry.lost.table
    · have hmark' : t.registry.lost.table.lookup id = some .evicted := by
        rcases hcases with hkeep | ⟨order, cs, k, -, hswept, hreg⟩
        · rw [hkeep.lost]
          exact hmark
        · rw [hreg] at hkept ⊢
          rw [hswept.lost.lookup, if_pos ((hswept.lost.tidy.mem id).2 hkept)]
          split
          · rfl
          · exact hmark
      refine (ih hwf' hmark').imp_right ?_
      rintro ⟨es₁, f, es₂, v, w, hes, hpre, hst, hcap, hpost⟩
      exact ⟨e :: es₁, f, es₂, v, w, by rw [hes]; rfl, .cons hstep hpre, hst, hcap, hpost⟩
    · exact Or.inr ⟨[], e, es, s, t, rfl, .nil s, hstep, step_forgets_marker hwf hstep (Or.inl hlost) hkept, rest⟩

end

/-- The law of the registry under a configuration, for every history and every id. -/
structure ExecutesOnce (τ : Type*) (config : RegistryConfig) : Prop where
  /-- After a fresh begin the id is given up by a collection, or every later begin
  answers `Known` or `BornCancelled` and changes nothing. -/
  begin_again : ∀ pre s id state now_ms t mid u state' now_ms', Run RegistryStep (RegistryState.init config) pre s →
    RegistryStep s ⟨now_ms, .begin id (state : τ)⟩ t →
    (s.registry.begin id state now_ms).1 = .fresh →
    Run RegistryStep t mid u →
    (Sometime RegistryStep (DropsAcked id) t mid u ∨ LostThenCapped id t mid u) ∨
      (u.registry.begin id state' now_ms').2 = u.registry ∧
        ((u.registry.begin id state' now_ms').1 = .known (u.registry.query id) ∨
          (u.registry.begin id state' now_ms').1 = .born_cancelled)
  /-- In any state at all, a begin is fresh or changes nothing. -/
  begin_not_fresh : ∀ pre (s : RegistryState τ) id state now_ms,
    Run RegistryStep (RegistryState.init config) pre s →
    (s.registry.begin id state now_ms).1 ≠ .fresh →
    (s.registry.begin id state now_ms).2 = s.registry ∧
      ((s.registry.begin id state now_ms).1 = .known (s.registry.query id) ∨
        (s.registry.begin id state now_ms).1 = .born_cancelled)
  disjoint : ∀ pre (s : RegistryState τ) id, Run RegistryStep (RegistryState.init config) pre s →
    ¬ (id ∈ s.registry.ops ∧ id ∈ s.registry.lost.table)
  running_kept : ∀ pre (s : RegistryState τ) now_ms order t id state cancel_requested began_at_ms,
    Run RegistryStep (RegistryState.init config) pre s →
    RegistryStep s ⟨now_ms, .gc order⟩ t →
    s.registry.ops.lookup id = some (.running state cancel_requested began_at_ms) →
    t.registry.ops.lookup id = some (.running state cancel_requested began_at_ms)
  /-- A completed op that was never final-acked and that a collection removes is
  listed, and answers `Lost(Evicted)` in every later state unless its marker was
  capped by that collection or since. -/
  evicted : ∀ pre (s : RegistryState τ) now_ms order t id state exit_seq completed_at_ms mid u,
    Run RegistryStep (RegistryState.init config) pre s →
    RegistryStep s ⟨now_ms, .gc order⟩ t →
    s.registry.ops.lookup id = some (.complete state exit_seq completed_at_ms false) →
    id ∉ t.registry.ops →
    Run RegistryStep t mid u →
    id ∈ (s.registry.gc now_ms order).1.evicted_unacked ∧
      (u.registry.query id = .lost .evicted ∨ CapsMarker id s ⟨now_ms, .gc order⟩ t ∨
        Sometime RegistryStep (CapsMarker id) t mid u)
  /-- What a collection lists it lists once, and counts once. -/
  counted : ∀ pre (s : RegistryState τ) now_ms order t, Run RegistryStep (RegistryState.init config) pre s →
    RegistryStep s ⟨now_ms, .gc order⟩ t →
    (s.registry.gc now_ms order).1.evicted_unacked.Nodup ∧ t.registry.counters.evicted_unacked_total
        = s.registry.counters.evicted_unacked_total + (s.registry.gc now_ms order).1.evicted_unacked.length

/-- **At-most-once execution.** -/
theorem registry_executes_once (τ : Type*) (config : RegistryConfig) : ExecutesOnce τ config where
  begin_again pre s id state now_ms t mid u state' now_ms' hpre hbegin hfresh hmid := by
    have hwf := (registry_run_wf hpre).1
    have hwf' := (registry_step_cases hwf hbegin).1
    have hlive : id ∈ t.registry.ops := by
      rw [hbegin.registry_eq]
      unfold OpRegistry.after
      dsimp only
      rw [OpRegistry.begin_fresh state hfresh]
      exact (AList.mem_insert _).2 (Or.inl rfl)
    by_cases hfresh' : (u.registry.begin id state' now_ms').1 = .fresh
    · obtain ⟨-, hops, hlost⟩ := (OpRegistry.begin_fresh_iff _ _ _ _).1 hfresh'
      exact Or.inl (run_forgets hwf' hmid hlive (not_or.2 ⟨hops, hlost⟩))
    · exact Or.inr (OpRegistry.begin_not_fresh _ _ _ _ hfresh')
  begin_not_fresh pre s id state now_ms hpre h := OpRegistry.begin_not_fresh _ _ _ _ h
  disjoint pre s id hpre h := (registry_run_wf hpre).1.disjoint id h.1 h.2
  running_kept pre s now_ms order t id state cancel_requested began_at_ms hpre hgc hrun := by
    obtain ⟨cs, k, hswept, hreg⟩ := gc_step_swept (registry_run_wf hpre).1 hgc
    rw [hreg]
    exact hswept.lookup_of_running hrun
  evicted pre s now_ms order t id state exit_seq completed_at_ms mid u hpre hgc hentry hgone hmid := by
    have hwf := (registry_run_wf hpre).1
    obtain ⟨cs, k, hswept, hreg⟩ := gc_step_swept hwf hgc
    have hlive := OpRegistry.mem_ops_of_lookup hentry
    have hlist : id ∈ (s.registry.gc now_ms order).1.evicted_unacked := by
      rw [hreg] at hgone
      obtain ⟨_, _, _, final_acked, hlookup, hlist⟩ := hswept.removed hlive hgone
      rw [hentry] at hlookup
      cases hlookup
      exact hlist rfl
    refine ⟨hlist, ?_⟩
    by_cases hmark : id ∈ t.registry.lost.table
    · have hlookup : t.registry.lost.table.lookup id = some .evicted := by
        rw [hreg] at hmark ⊢
        rw [hswept.lost.lookup, if_pos ((hswept.lost.tidy.mem id).2 hmark), if_pos (hswept.evicted_unacked ▸ hlist)]
      exact (run_keeps_marker (registry_step_cases hwf hgc).1 hmid hlookup).imp_right Or.inr
    · exact Or.inr (Or.inl (step_forgets_marker hwf hgc (Or.inr ⟨order, rfl, hlive, hgone, hlist⟩) hmark))
  counted pre s now_ms order t hpre hgc := by
    obtain ⟨cs, k, hswept, hreg⟩ := gc_step_swept (registry_run_wf hpre).1 hgc
    rw [hswept.evicted_unacked, hreg, hswept.counters]
    exact ⟨hswept.unacked_nodup, rfl⟩

end OpenGeni.Engine
