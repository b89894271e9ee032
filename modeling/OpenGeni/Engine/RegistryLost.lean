/-
The lost markers of the registry, with losses recorded from outside.

A marker is recorded by a garbage collection, for an op it drops unacknowledged, and from outside,
for what a runner finds in its journal at boot. `record_lost` does not look whether the marker is
there, as `cancel` does for a tombstone: recorded twice, an id is in the order twice and in the
table once, and from then on the bound and the counter are those of the order. Where each loss from
outside is of an id that the registry knows nothing of, the table stays within its cap, the order
lists it, and the counter is the number of markers that were forgotten (`lost_markers_exact`).
-/
import OpenGeni.Engine.RegistryRuns

namespace OpenGeni.Engine

open OpenGeni.Lib

variable {τ : Type*}

/-! ## The calls -/

inductive LostCall (τ : Type*)
  | call (e : RegistryEvent τ)
  | record_lost (id : OpId) (reason : LostReason)

/-- The registry, and how often an id has turned from lost to unknown. -/
structure LostState (τ : Type*) where
  state : RegistryState τ
  flips : ℕ

def RegistryEvent.recorded (r : OpRegistry τ) (e : RegistryEvent τ) : List OpId := match e.call with
  | .gc order => (r.gc e.now_ms order).1.evicted_unacked
  | _ => []

/-- The ids that were lost before a call, or that it has recorded, and are unknown after it. -/
def OpRegistry.flipped (r : OpRegistry τ) (recorded : List OpId) (r' : OpRegistry τ) : Finset OpId :=
  (r.lost.table.keys.filter (fun id => ∃ reason ∈ [LostReason.evicted, .runner_restarted],
      r.query id = .lost reason) ++ recorded).toFinset.filter fun id => r'.query id = .unknown

inductive LostStep : LostState τ → LostCall τ → LostState τ → Prop
  | call {s : LostState τ} {e : RegistryEvent τ} {state : RegistryState τ} (h : RegistryStep s.state e state) :
      LostStep s (.call e)
        ⟨state, s.flips + (s.state.registry.flipped (e.recorded s.state.registry) state.registry).card⟩
  | record_lost (s : LostState τ) (id : OpId) (reason : LostReason) :
      LostStep s (.record_lost id reason) ⟨{ s.state with registry := s.state.registry.record_lost id reason },
          s.flips + (s.state.registry.flipped [id] (s.state.registry.record_lost id reason)).card⟩

def LostState.init (config : RegistryConfig) : LostState τ := ⟨.init config, 0⟩

structure LostState.Exact (s : LostState τ) : Prop where
  bounded : s.state.registry.lost.size ≤ max 1 s.state.registry.config.max_lost_markers
  tidy : s.state.registry.lost.Tidy
  counted : s.state.registry.counters.lost_markers_capped_total = s.flips

/-- A loss from outside is of an id that the registry does not know. -/
def LostState.Foreign (s : LostState τ) : LostCall τ → Prop
  | .call _ => True
  | .record_lost id _ => s.state.registry.query id = .unknown

/-- The invariant. A tombstone of a live op has expired, so the collection that drops the op forgets
the tombstone with it. -/
structure LostState.Sound (s : LostState τ) : Prop where
  wf : s.state.registry.Wf
  bounded : s.state.registry.lost.size ≤ max 1 s.state.registry.config.max_lost_markers
  no_tombstone : ∀ id ∈ s.state.registry.lost.table, id ∉ s.state.registry.tombstones.table
  expired : ∀ id ∈ s.state.registry.ops, ∀ expiry,
    s.state.registry.tombstones.table.lookup id = some expiry → expiry ≤ s.state.clock
  counted : s.state.registry.counters.lost_markers_capped_total = s.flips

theorem LostState.Sound.exact {s : LostState τ} (h : s.Sound) : s.Exact := ⟨h.bounded, h.wf.lost, h.counted⟩

theorem LostState.Sound.init (config : RegistryConfig) : (LostState.init config : LostState τ).Sound where
  wf := .new config
  bounded := Nat.zero_le _
  no_tombstone _ hid := absurd hid (AList.notMem_empty _)
  expired _ hid := absurd hid (AList.notMem_empty _)
  counted := rfl

section

variable {r r' : OpRegistry τ} {id : OpId} {ks : List OpId} {reason : LostReason} {k : ℕ}

/-! ## What a query tells -/

theorem query_lost_iff (h : r.Wf) : (∃ reason, r.query id = .lost reason) ↔ id ∈ r.lost.table := by
  unfold OpRegistry.query
  constructor
  · rintro ⟨reason, hq⟩
    split at hq
    · cases hq
    · cases hq
    · split at hq
      case h_1 found hfound => exact AList.lookup_isSome.1 (hfound ▸ rfl)
      case h_2 => split at hq <;> cases hq
  · intro hmem
    have hops : r.ops.lookup id = none := AList.lookup_eq_none.2 fun hops => h.disjoint id hops hmem
    obtain ⟨reason, hreason⟩ := Option.isSome_iff_exists.1 (AList.lookup_isSome.2 hmem)
    exact ⟨reason, by rw [hops, hreason]⟩

theorem query_unknown_iff : r.query id = .unknown ↔ id ∉ r.ops ∧ id ∉ r.lost.table ∧ id ∉ r.tombstones.table := by
  unfold OpRegistry.query
  rw [← AList.lookup_eq_none, ← AList.lookup_eq_none]
  cases hops : r.ops.lookup id with
  | some entry => cases entry <;> simp
  | none =>
    cases hlost : r.lost.table.lookup id with
    | some reason => simp
    | none =>
      by_cases htomb : id ∈ r.tombstones.table <;> simp

theorem mem_flipped (h : r.Wf) : id ∈ r.flipped ks r' ↔ (id ∈ r.lost.table ∨ id ∈ ks) ∧ r'.query id = .unknown := by
  unfold OpRegistry.flipped
  rw [Finset.mem_filter, List.mem_toFinset, List.mem_append, List.mem_filter, decide_eq_true_eq]
  have hlost : (∃ reason ∈ [LostReason.evicted, .runner_restarted], r.query id = .lost reason) ↔
      id ∈ r.lost.table := by
    rw [← query_lost_iff h]
    exact ⟨fun ⟨reason, _, hq⟩ => ⟨reason, hq⟩, fun ⟨reason, hq⟩ => ⟨reason, by cases reason <;> simp, hq⟩⟩
  rw [hlost]
  constructor
  · rintro ⟨⟨hmem, -⟩ | hmem, hq⟩
    · exact ⟨.inl hmem, hq⟩
    · exact ⟨.inr hmem, hq⟩
  · rintro ⟨hmem | hmem, hq⟩
    · exact ⟨.inl ⟨hmem, hmem⟩, hq⟩
    · exact ⟨.inr hmem, hq⟩

/-! ## Flips -/

theorem flipped_same (h : r.Wf) (hlost : r'.lost = r.lost) : (r.flipped [] r').card = 0 := by
  rw [Finset.card_eq_zero, Finset.eq_empty_iff_forall_notMem]
  intro id hid
  obtain ⟨hmem | hmem, hq⟩ := (mem_flipped h).1 hid
  · rw [← hlost] at hmem
    exact (query_unknown_iff.1 hq).2.1 hmem
  · cases hmem

theorem flipped_pushed (h : r.Wf) (hpush : r.lost.Pushed ks reason k r'.lost) (hnodup : ks.Nodup)
    (hfresh : ∀ id ∈ ks, id ∉ r.lost.table) (hops : ∀ id, id ∈ r.lost.table ∨ id ∈ ks → id ∉ r'.ops)
    (htomb : ∀ id, id ∈ r.lost.table ∨ id ∈ ks → id ∉ r'.tombstones.table) :
    (r.flipped ks r').card = k := by
  have hall : (r.lost.order ++ ks).Nodup := by
    refine List.nodup_append.2 ⟨h.lost.nodup, hnodup, fun a ha b hb he => hfresh b hb ?_⟩
    rw [← he]
    exact (h.lost.mem a).1 ha
  have hset : r.flipped ks r' = ((r.lost.order ++ ks).take k).toFinset := by
    ext id
    rw [mem_flipped h, List.mem_toFinset, ← h.lost.mem id, ← List.mem_append]
    constructor
    · rintro ⟨hmem, hq⟩
      obtain hheld | hevicted := hpush.mem_or_evicted hmem
      · exact absurd ((hpush.tidy.mem id).1 hheld) (query_unknown_iff.1 hq).2.1
      · exact hevicted
    · intro hevicted
      have hmem := List.mem_of_mem_take hevicted
      have hknown : id ∈ r.lost.table ∨ id ∈ ks := by
        rwa [List.mem_append, h.lost.mem id] at hmem
      refine ⟨hmem, query_unknown_iff.2 ⟨hops id hknown, fun hheld => ?_, htomb id hknown⟩⟩
      rw [← hpush.tidy.mem, hpush.order] at hheld
      exact (List.disjoint_take_drop hall (le_refl k)) hevicted hheld
  rw [hset, List.toFinset_card_of_nodup ((List.take_sublist _ _).nodup hall), List.length_take,
    Nat.min_eq_left hpush.capped_le]

/-! ## The cap -/

theorem record_lost_pushed (h : r.Wf) (hlost : id ∉ r.lost.table) (reason : LostReason) :
    ∃ k, r.lost.Pushed [id] reason k (r.record_lost id reason).lost ∧
      (r.record_lost id reason).counters.lost_markers_capped_total = r.counters.lost_markers_capped_total + k := by
  have hpush := (Fifo.Pushed.nil h.lost reason).push h.lost r.config.max_lost_markers hlost List.not_mem_nil
  rw [List.nil_append, Nat.zero_add] at hpush
  exact ⟨_, hpush, rfl⟩

theorem OpRegistry.Wf.record_lost (h : r.Wf) (hops : id ∉ r.ops) (hlost : id ∉ r.lost.table) (reason : LostReason) :
    (r.record_lost id reason).Wf := by
  obtain ⟨k, hpush, -⟩ := record_lost_pushed h hlost reason
  refine ⟨hpush.tidy, h.tombstones, fun j hj hmem => ?_, h.expiry_lt⟩
  rw [← hpush.tidy.mem, hpush.order] at hmem
  obtain hmem | hmem := List.mem_append.1 (List.mem_of_mem_drop hmem)
  · exact h.disjoint j hj ((h.lost.mem j).1 hmem)
  · rw [List.mem_singleton] at hmem
    rw [hmem] at hj
    exact hops hj

theorem OpRegistry.Wf.erase (h : r.Wf) (id : OpId) : ({ r with ops := r.ops.erase id } : OpRegistry τ).Wf where
  lost := h.lost
  tombstones := h.tombstones
  disjoint j hj := h.disjoint j (AList.mem_erase.1 hj).2
  expiry_lt := h.expiry_lt

def OpRegistry.Capped (r : OpRegistry τ) : Prop := r.lost.size ≤ max 1 r.config.max_lost_markers

theorem Capped.record_lost (h : r.Wf) (hcap : r.Capped) (id : OpId) (reason : LostReason) :
    (r.record_lost id reason).Capped :=
  Fifo.size_pushCapped_le h.lost hcap id reason

variable {acc : OpRegistry τ × GcReport}

theorem Capped.drop {c : Completed} (h : acc.1.Wf) (hcap : acc.1.Capped) (hc : c.id ∈ acc.1.ops) :
    (OpRegistry.drop_completed acc c).1.Wf ∧ (OpRegistry.drop_completed acc c).1.Capped ∧
      (OpRegistry.drop_completed acc c).1.ops = acc.1.ops.erase c.id := by
  have herase := h.erase c.id
  unfold OpRegistry.drop_completed
  cases c.acked
  · refine ⟨herase.record_lost ?_ (h.disjoint _ hc) _, Capped.record_lost herase hcap _ _, rfl⟩
    exact fun hmem => (AList.mem_erase.1 hmem).1 rfl
  · exact ⟨herase, hcap, rfl⟩

theorem Capped.drops {ds : List Completed} (h : acc.1.Wf) (hcap : acc.1.Capped)
    (hds : ∀ d ∈ ds, d.id ∈ acc.1.ops) (hnodup : (ds.map (·.id)).Nodup) :
    (ds.foldl OpRegistry.drop_completed acc).1.Wf ∧ (ds.foldl OpRegistry.drop_completed acc).1.Capped := by
  induction ds generalizing acc with
  | nil => exact ⟨h, hcap⟩
  | cons d ds ih =>
    obtain ⟨hwf, hcapped, hops⟩ := Capped.drop h hcap (hds d List.mem_cons_self)
    rw [List.map_cons, List.nodup_cons] at hnodup
    apply ih hwf hcapped _ hnodup.2
    intro e he
    rw [hops, AList.mem_erase]
    refine ⟨fun heq => hnodup.1 ?_, hds e (List.mem_cons_of_mem d he)⟩
    rw [← heq]
    exact List.mem_map_of_mem he

theorem Capped.gc (h : r.Wf) (hcap : r.Capped) (now_ms : ℕ) {order : List OpId} (horder : order.Perm r.ops.keys) :
    (r.gc now_ms order).2.Capped := by
  have hcs := OpRegistry.Collected.of_perm horder
  generalize hcollected : order.filterMap r.completed_entry = cs at hcs
  have hpass1 : (r.drop_due now_ms cs).1.Wf ∧ (r.drop_due now_ms cs).1.Capped := by
    have hfold : r.drop_due now_ms cs = (cs.filter fun c =>
        c.acked || decide (r.config.completed_ttl_ms ≤ now_ms - c.completed_at_ms)).foldl
          OpRegistry.drop_completed (r, ⟨[], 0, 0⟩) := List.foldl_filter.symm
    rw [hfold]
    apply Capped.drops h hcap
    · exact fun d hd => hcs.mem_ops (List.mem_of_mem_filter hd)
    · exact (List.filter_sublist.map _).nodup hcs.nodup
  unfold OpRegistry.gc
  rw [hcollected]
  dsimp only
  generalize r.drop_due now_ms cs = pass1 at hpass1
  show (OpRegistry.drop_excess pass1 (cs.filter fun c => decide (c.id ∈ pass1.1.ops))).1.Capped
  unfold OpRegistry.drop_excess
  split
  · -- the second pass looks at what the first has left
    have hperm := List.perm_insertionSort (fun a b : Completed => a.completed_at_ms ≤ b.completed_at_ms)
      (cs.filter fun c => decide (c.id ∈ pass1.1.ops))
    refine (Capped.drops hpass1.1 hpass1.2 (fun d hd => ?_) ?_).2
    · have hmem := hperm.mem_iff.1 (List.mem_of_mem_take hd)
      exact of_decide_eq_true (List.mem_filter.1 hmem).2
    · refine ((List.take_sublist _ _).map _).nodup ((hperm.map _).nodup_iff.2 ?_)
      exact (List.filter_sublist.map _).nodup hcs.nodup
  · exact hpass1.2

end

/-! ## One call -/

section

variable {s : LostState τ} {t : RegistryState τ} {e : RegistryEvent τ} {now_ms : ℕ} {id : OpId}

theorem LostState.Sound.quiet (h : s.Sound) (hstep : RegistryStep s.state e t)
    (hrecorded : e.recorded s.state.registry = []) (hlost : t.registry.lost = s.state.registry.lost)
    (hconfig : t.registry.config = s.state.registry.config)
    (hcapped : t.registry.counters.lost_markers_capped_total = s.state.registry.counters.lost_markers_capped_total)
    (htomb : ∀ id ∈ s.state.registry.lost.table, id ∉ t.registry.tombstones.table)
    (hexpired : ∀ id ∈ t.registry.ops, ∀ expiry,
      t.registry.tombstones.table.lookup id = some expiry → expiry ≤ e.now_ms) :
    LostState.Sound ⟨t, s.flips + (s.state.registry.flipped (e.recorded s.state.registry) t.registry).card⟩ where
  wf := (registry_step_effect h.wf hstep).1
  bounded := by
    rw [hlost, hconfig]
    exact h.bounded
  no_tombstone id hid := by
    rw [hlost] at hid
    exact htomb id hid
  expired := by
    rw [hstep.clock_eq]
    exact hexpired
  counted := by
    rw [hrecorded, flipped_same h.wf hlost, hcapped]
    exact h.counted

theorem LostState.Sound.expired_at (h : s.Sound) (hclock : s.state.clock ≤ now_ms) (hid : id ∈ s.state.registry.ops)
    (expiry : ℕ) (hlookup : s.state.registry.tombstones.table.lookup id = some expiry) : expiry ≤ now_ms :=
  (h.expired id hid expiry hlookup).trans hclock

theorem LostState.Sound.advanced (h : s.Sound) (hstep : RegistryStep s.state e t)
    (hrecorded : e.recorded s.state.registry = [])
    (hreg : t.registry = s.state.registry ∨ ∃ id ∈ s.state.registry.ops, ∃ entry,
      t.registry = { s.state.registry with ops := s.state.registry.ops.insert id entry }) :
    LostState.Sound ⟨t, s.flips + (s.state.registry.flipped (e.recorded s.state.registry) t.registry).card⟩ := by
  have hexpired := fun id (hid : id ∈ s.state.registry.ops) => h.expired_at hstep.clock_le hid
  obtain hreg | ⟨id, hid, entry, hreg⟩ := hreg
  · apply h.quiet hstep hrecorded <;> rw [hreg]
    · exact h.no_tombstone
    · exact hexpired
  · apply h.quiet hstep hrecorded <;> rw [hreg]
    · exact h.no_tombstone
    · intro j hj
      obtain rfl | hj := (AList.mem_insert _).1 hj
      · exact hexpired j hid
      · exact hexpired j hj

theorem LostState.Sound.begin (h : s.Sound) {state : τ} (hstep : RegistryStep s.state ⟨now_ms, .begin id state⟩ t) :
    LostState.Sound ⟨t, s.flips + (s.state.registry.flipped [] t.registry).card⟩ := by
  have hreg : t.registry = (s.state.registry.begin id state now_ms).2 := hstep.registry_eq
  by_cases hfresh : (s.state.registry.begin id state now_ms).1 = .fresh
  · have hnone := ((OpRegistry.begin_fresh_iff _ _ _ _).1 hfresh).1
    rw [OpRegistry.begin_fresh state hfresh] at hreg
    apply h.quiet hstep rfl <;> rw [hreg]
    · exact h.no_tombstone
    · intro j hj expiry hlookup
      obtain rfl | hj := (AList.mem_insert _).1 hj
      · unfold OpRegistry.tombstoned at hnone
        rw [hlookup, Option.any_some, decide_eq_false_iff_not] at hnone
        exact Nat.le_of_not_lt hnone
      · exact h.expired_at hstep.clock_le hj expiry hlookup
  · rw [(OpRegistry.begin_not_fresh _ _ _ _ hfresh).1] at hreg
    exact h.advanced hstep rfl (.inl hreg)

theorem LostState.Sound.cancel (h : s.Sound) (hstep : RegistryStep s.state ⟨now_ms, .cancel id⟩ t) :
    LostState.Sound ⟨t, s.flips + (s.state.registry.flipped [] t.registry).card⟩ := by
  have hreg : t.registry = (s.state.registry.cancel id now_ms).2 := hstep.registry_eq
  obtain ⟨state, _, began_at_ms, hentry, hres⟩ | ⟨hops, hlost, htomb, hres⟩ | ⟨hres, -⟩ :=
    OpRegistry.cancel_cases s.state.registry id now_ms
  · rw [hres] at hreg
    exact h.advanced hstep rfl (.inr ⟨id, OpRegistry.mem_ops_of_lookup hentry, _, hreg⟩)
  · rw [hres] at hreg
    obtain ⟨k, hpush, -⟩ := OpRegistry.record_tombstone_pushed h.wf htomb now_ms
    apply h.quiet hstep rfl <;> rw [hreg]
    · rfl
    · rfl
    · rfl
    · intro j hj hmem
      rw [← hpush.tidy.mem, hpush.order] at hmem
      obtain hmem | hmem := List.mem_append.1 (List.mem_of_mem_drop hmem)
      · exact h.no_tombstone j hj ((h.wf.tombstones.mem j).1 hmem)
      · rw [List.mem_singleton.1 hmem] at hj
        exact hlost hj
    · intro j hj expiry hlookup
      have hne : j ∉ [id] := fun hmem => hops (List.mem_singleton.1 hmem ▸ hj)
      rw [hpush.lookup, if_neg hne] at hlookup
      split at hlookup
      · exact h.expired_at hstep.clock_le hj expiry hlookup
      · cases hlookup
  · rw [hres] at hreg
    exact h.advanced hstep rfl (.inl hreg)

theorem LostState.Sound.complete (h : s.Sound) {exit_seq : ℕ}
    (hstep : RegistryStep s.state ⟨now_ms, .complete id exit_seq⟩ t) :
    LostState.Sound ⟨t, s.flips + (s.state.registry.flipped [] t.registry).card⟩ := by
  have hreg : t.registry = s.state.registry.complete id exit_seq now_ms := hstep.registry_eq
  apply h.advanced hstep rfl
  unfold OpRegistry.complete at hreg
  split at hreg
  · exact .inr ⟨id, OpRegistry.mem_ops_of_lookup ‹_›, _, hreg⟩
  · exact .inl hreg
  · exact .inl hreg

theorem LostState.Sound.final_ack (h : s.Sound) (hstep : RegistryStep s.state ⟨now_ms, .final_ack id⟩ t) :
    LostState.Sound ⟨t, s.flips + (s.state.registry.flipped [] t.registry).card⟩ := by
  have hreg : t.registry = s.state.registry.final_ack id := hstep.registry_eq
  apply h.advanced hstep rfl
  unfold OpRegistry.final_ack at hreg
  split at hreg
  · exact .inr ⟨id, OpRegistry.mem_ops_of_lookup ‹_›, _, hreg⟩
  · exact .inl hreg
  · exact .inl hreg

/-- A collection. The ids that it drops unacknowledged are pushed, and what it evicts flips: an id
that had a marker has no tombstone, and the tombstone of a dropped op has expired. -/
theorem LostState.Sound.gc (h : s.Sound) {order : List OpId} (hstep : RegistryStep s.state ⟨now_ms, .gc order⟩ t) :
    LostState.Sound ⟨t, s.flips + (s.state.registry.flipped
      (s.state.registry.gc now_ms order).1.evicted_unacked t.registry).card⟩ := by
  obtain ⟨cs, k, hswept, hreg⟩ := gc_step_swept h.wf hstep
  have hlive : ∀ id ∈ OpRegistry.unacked cs, id ∈ s.state.registry.ops := by
    intro id hid
    obtain ⟨c, hc, rfl⟩ := List.mem_map.1 (OpRegistry.unacked_subset hid)
    exact hswept.collected.mem_ops hc
  have hkept : ∀ id ∈ t.registry.ops, id ∈ s.state.registry.ops ∧ id ∉ cs.map (·.id) := by
    intro id hid
    have hsome := AList.lookup_isSome.2 hid
    rw [hreg, hswept.ops] at hsome
    split at hsome
    · cases hsome
    · exact ⟨AList.lookup_isSome.1 hsome, ‹_›⟩
  have hretained : ∀ id expiry, t.registry.tombstones.table.lookup id = some expiry →
      s.state.registry.tombstones.table.lookup id = some expiry ∧ now_ms < expiry := by
    intro id expiry hlookup
    rw [hreg, hswept.tombstones, Fifo.lookup_retain, Option.filter_eq_some_iff, decide_eq_true_eq] at hlookup
    exact hlookup
  have hops : ∀ id, id ∈ s.state.registry.lost.table ∨ id ∈ OpRegistry.unacked cs → id ∉ t.registry.ops := by
    rintro id (hmem | hmem) hid
    · exact h.wf.disjoint id (hkept id hid).1 hmem
    · exact (hkept id hid).2 (OpRegistry.unacked_subset hmem)
  have htomb : ∀ id, id ∈ s.state.registry.lost.table ∨ id ∈ OpRegistry.unacked cs →
      id ∉ t.registry.tombstones.table := by
    rintro id hmem hid
    obtain ⟨expiry, hlookup⟩ := Option.isSome_iff_exists.1 (AList.lookup_isSome.2 hid)
    obtain ⟨hbefore, hlive_now⟩ := hretained id expiry hlookup
    obtain hmem | hmem := hmem
    · exact h.no_tombstone id hmem (AList.lookup_isSome.1 (hbefore ▸ rfl))
    · have hexpired := h.expired_at hstep.clock_le (hlive id hmem) expiry hbefore
      exact absurd hlive_now (Nat.not_lt.2 hexpired)
  have hpush : s.state.registry.lost.Pushed (OpRegistry.unacked cs) .evicted k t.registry.lost := by
    rw [hreg]
    exact hswept.lost
  have hflipped : (s.state.registry.flipped (OpRegistry.unacked cs) t.registry).card = k :=
    flipped_pushed h.wf hpush hswept.unacked_nodup (fun id hid => h.wf.disjoint id (hlive id hid)) hops htomb
  refine ⟨(registry_step_effect h.wf hstep).1, ?_, fun id hid => ?_, fun id hid expiry hlookup => ?_, ?_⟩
  · have hcap := Capped.gc h.wf h.bounded now_ms (hstep.order_perm order rfl)
    rw [← hreg] at hcap
    exact hcap
  · rw [← hpush.tidy.mem, hpush.order] at hid
    obtain hid | hid := List.mem_append.1 (List.mem_of_mem_drop hid)
    · exact htomb id (.inl ((h.wf.lost.mem id).1 hid))
    · exact htomb id (.inr hid)
  · rw [hstep.clock_eq]
    exact h.expired_at hstep.clock_le (hkept id hid).1 expiry (hretained id expiry hlookup).1
  · rw [hswept.evicted_unacked, hflipped, hreg, hswept.counters]
    exact congrArg (· + k) h.counted

theorem LostState.Sound.record_lost (h : s.Sound) (hid : s.state.registry.query id = .unknown) (reason : LostReason) :
    LostState.Sound ⟨{ s.state with registry := s.state.registry.record_lost id reason },
      s.flips + (s.state.registry.flipped [id] (s.state.registry.record_lost id reason)).card⟩ := by
  obtain ⟨hops, hlost, htomb⟩ := query_unknown_iff.1 hid
  obtain ⟨k, hpush, hcounters⟩ := record_lost_pushed h.wf hlost reason
  have hflipped : (s.state.registry.flipped [id] (s.state.registry.record_lost id reason)).card = k := by
    apply flipped_pushed h.wf hpush (List.nodup_singleton id)
    · rintro j hj
      rw [List.mem_singleton.1 hj]
      exact hlost
    · rintro j (hj | hj) hmem
      · exact h.wf.disjoint j hmem hj
      · exact hops (List.mem_singleton.1 hj ▸ hmem)
    · rintro j (hj | hj) hmem
      · exact h.no_tombstone j hj hmem
      · exact htomb (List.mem_singleton.1 hj ▸ hmem)
  refine ⟨h.wf.record_lost hops hlost reason, Capped.record_lost h.wf h.bounded id reason, fun j hj => ?_,
    h.expired, ?_⟩
  · rw [← hpush.tidy.mem, hpush.order] at hj
    obtain hj | hj := List.mem_append.1 (List.mem_of_mem_drop hj)
    · exact h.no_tombstone j ((h.wf.lost.mem j).1 hj)
    · rw [List.mem_singleton.1 hj]
      exact htomb
  · rw [hflipped, hcounters]
    exact congrArg (· + k) h.counted

theorem LostState.Sound.step {s t : LostState τ} {call : LostCall τ} (h : s.Sound) (hstep : LostStep s call t)
    (hforeign : s.Foreign call) : t.Sound := by
  cases hstep with
  | record_lost id reason => exact h.record_lost hforeign reason
  | @call e state hstep =>
    obtain ⟨now_ms, call⟩ := e
    cases call with
    | «begin» id op => exact h.begin hstep
    | cancel id => exact h.cancel hstep
    | complete id exit_seq => exact h.complete hstep
    | final_ack id => exact h.final_ack hstep
    | gc order => exact h.gc hstep

end

/-! ## Whole runs -/

/-- **The bookkeeping of the markers** is exact in every run in which a loss from outside is of an
id that the registry does not know. -/
theorem lost_markers_exact {config : RegistryConfig} {calls : List (LostCall τ)}
    (hforeign : EachStep LostStep LostState.Foreign (.init config) calls) :
    EachState LostStep LostState.Exact (.init config) calls :=
  eachState_of_eachStep (P := LostState.Sound) (fun _ h => h.exact) (fun _ _ _ hstep h hok => h.step hstep hok)
    (.init config) hforeign

/-- The losses of two ops from outside, at a cap of one marker. -/
theorem lost_markers_exact_two : EachState LostStep LostState.Exact
      (.init { RegistryConfig.default with max_lost_markers := 1 } : LostState Unit)
      [.record_lost ⟨"op"⟩ .runner_restarted, .record_lost ⟨"other"⟩ .runner_restarted] := by
  apply lost_markers_exact
  refine .cons fun t hfirst => ⟨rfl, .cons fun u hsecond => ⟨?_, .nil⟩⟩
  cases hfirst
  rfl

/-- An op whose loss is recorded twice is listed twice. -/
theorem lost_twice_inexact : ¬ ∀ (config : RegistryConfig) (calls : List (LostCall Unit)),
    EachState LostStep LostState.Exact (.init config) calls := by
  intro h
  have hrun : Run LostStep (LostState.init .default : LostState Unit)
      [.record_lost ⟨"op"⟩ .runner_restarted, .record_lost ⟨"op"⟩ .runner_restarted] _ :=
    .cons (.record_lost _ _ _) (.cons (.record_lost _ _ _) (.nil _))
  have hexact := h .default _ _ [] _ (List.append_nil _).symm hrun
  have hnodup : ([⟨"op"⟩, ⟨"op"⟩] : List OpId).Nodup := hexact.tidy.nodup
  exact absurd hnodup (by decide)

end OpenGeni.Engine
