/-
The op registry (`opengeni-agent-engine/src/registry.rs`).

One map of live ops (running, or complete and retained), a bounded table of cancel
tombstones and a bounded table of lost markers. Each bounded table is a `Fifo`: the
source's `tombstones` with `tombstone_order`, and `lost` with `lost_order`. The clock is
the caller's `now_ms`, a `u64`; the only arithmetic on it that can leave the type is the
expiry of a tombstone, which the release profile wraps. The counters are `ℕ`: each
counts ops the registry once held.

A garbage collection iterates the op map in the map's own order, which is arbitrary. It
is a parameter of `gc` here, a permutation of the keys.
-/
import OpenGeni.Engine.Frame
import OpenGeni.Lib.Fifo

namespace OpenGeni.Engine

open OpenGeni.Lib

/-- The number of values of a `u64`. -/
def U64_SIZE : ℕ := 2 ^ 64

/-- `RegistryConfig`: bounds and TTLs. -/
structure RegistryConfig where
  max_completed : ℕ
  completed_ttl_ms : ℕ
  tombstone_ttl_ms : ℕ
  max_tombstones : ℕ
  max_lost_markers : ℕ

/-- `RegistryConfig::default`: the test-floor values. -/
def RegistryConfig.default : RegistryConfig where
  max_completed := 2048
  completed_ttl_ms := 60 * 60 * 1000
  tombstone_ttl_ms := 15 * 60 * 1000
  max_tombstones := 4096
  max_lost_markers := 4096

/-- `LostReason`: why a formerly known op is gone. -/
inductive LostReason
  | evicted
  | runner_restarted
deriving DecidableEq

/-- `OpEntry`: the lifecycle phase of a known op, over its runtime state. -/
inductive OpEntry (τ : Type*)
  | running (state : τ) (cancel_requested : Bool) (began_at_ms : ℕ)
  | complete (state : τ) (exit_seq completed_at_ms : ℕ) (final_acked : Bool)

/-- `QueryAnswer`: the answer to a status query. -/
inductive QueryAnswer
  | running (cancel_requested : Bool)
  | complete (exit_seq : ℕ) (final_acked : Bool)
  | lost (reason : LostReason)
  | tombstoned
  | unknown
deriving DecidableEq

/-- `BeginOutcome`: a fresh admission, an op already known (with its phase), or a
refusal because of a cancel tombstone. -/
inductive BeginOutcome
  | fresh
  | known (answer : QueryAnswer)
  | born_cancelled
deriving DecidableEq

inductive CancelOutcome
  | kill_running
  | already_complete
  | already_lost (reason : LostReason)
  | tombstone_recorded
deriving DecidableEq

/-- `RegistryCounters`: monotonic. -/
structure RegistryCounters where
  evicted_unacked_total : ℕ
  tombstones_capped_total : ℕ
  lost_markers_capped_total : ℕ

/-- `GcReport`: what one GC pass did. -/
structure GcReport where
  evicted_unacked : List OpId
  dropped_completed : ℕ
  expired_tombstones : ℕ

structure OpRegistry (τ : Type*) where
  config : RegistryConfig
  ops : AList fun _ : OpId => OpEntry τ
  tombstones : Fifo OpId ℕ
  lost : Fifo OpId LostReason
  counters : RegistryCounters

/-- A completed op as a GC pass collects it: its id, its completion time and whether
it was final-acked. -/
structure Completed where
  id : OpId
  completed_at_ms : ℕ
  acked : Bool

namespace OpRegistry

variable {τ : Type*}

def new (config : RegistryConfig) : OpRegistry τ where
  config := config
  ops := ∅
  tombstones := Fifo.empty
  lost := Fifo.empty
  counters := ⟨0, 0, 0⟩

def query (r : OpRegistry τ) (id : OpId) : QueryAnswer := match r.ops.lookup id with
  | some (.running _ cancel_requested _) => .running cancel_requested
  | some (.complete _ exit_seq _ final_acked) => .complete exit_seq final_acked
  | none =>
    match r.lost.table.lookup id with
    | some reason => .lost reason
    | none => if id ∈ r.tombstones.table then .tombstoned else .unknown

/-- `begin`'s first check: a tombstone that has not expired yet. -/
def tombstoned (r : OpRegistry τ) (id : OpId) (now_ms : ℕ) : Bool :=
  (r.tombstones.table.lookup id).any fun expiry => decide (now_ms < expiry)

def begin (r : OpRegistry τ) (id : OpId) (state : τ) (now_ms : ℕ) : BeginOutcome × OpRegistry τ :=
  if r.tombstoned id now_ms then
    (.born_cancelled, r)
  else if id ∈ r.ops ∨ id ∈ r.lost.table then
    (.known (r.query id), r)
  else
    (.fresh, { r with ops := r.ops.insert id (.running state false now_ms) })

/-- `OpRegistry::complete`. An entry that is already terminal is taken out and put
back untouched. -/
def complete (r : OpRegistry τ) (id : OpId) (exit_seq now_ms : ℕ) : OpRegistry τ := match r.ops.lookup id with
  | some (.running state _ _) =>
    { r with ops := r.ops.insert id (.complete state exit_seq now_ms false) }
  | some (.complete ..) => r
  | none => r

/-- `cancel`'s last step: record a tombstone, evicting the oldest one at the cap. -/
def record_tombstone (r : OpRegistry τ) (id : OpId) (now_ms : ℕ) : OpRegistry τ :=
  let pushed := r.tombstones.pushCapped r.config.max_tombstones id ((now_ms + r.config.tombstone_ttl_ms) % U64_SIZE)
  { r with
    tombstones := pushed.2
    counters := { r.counters with
        tombstones_capped_total := r.counters.tombstones_capped_total + pushed.1 } }

/-- `OpRegistry::cancel`. A repeated cancel leaves the tombstone with the expiry it
has. -/
def cancel (r : OpRegistry τ) (id : OpId) (now_ms : ℕ) : CancelOutcome × OpRegistry τ := match r.ops.lookup id with
  | some (.running state _ began_at_ms) =>
    (.kill_running, { r with ops := r.ops.insert id (.running state true began_at_ms) })
  | some (.complete ..) => (.already_complete, r)
  | none =>
    match r.lost.table.lookup id with
    | some reason => (.already_lost reason, r)
    | none =>
      if id ∈ r.tombstones.table then (.tombstone_recorded, r)
      else (.tombstone_recorded, r.record_tombstone id now_ms)

def final_ack (r : OpRegistry τ) (id : OpId) : OpRegistry τ := match r.ops.lookup id with
  | some (.complete state exit_seq completed_at_ms _) =>
    { r with ops := r.ops.insert id (.complete state exit_seq completed_at_ms true) }
  | some (.running ..) => r
  | none => r

def record_lost (r : OpRegistry τ) (id : OpId) (reason : LostReason) : OpRegistry τ :=
  let pushed := r.lost.pushCapped r.config.max_lost_markers id reason
  { r with
    lost := pushed.2
    counters := { r.counters with
        evicted_unacked_total := r.counters.evicted_unacked_total + (if reason = .evicted then 1 else 0)
        lost_markers_capped_total := r.counters.lost_markers_capped_total + pushed.1 } }

/-! ## Garbage collection -/

/-- What a GC pass collects of the entry of `id`. -/
def completed_entry (r : OpRegistry τ) (id : OpId) : Option Completed := match r.ops.lookup id with
  | some (.complete _ _ completed_at_ms final_acked) => some ⟨id, completed_at_ms, final_acked⟩
  | some (.running ..) => none
  | none => none

/-- The body both eviction loops share: the entry goes, quietly if it was
final-acked, and as a recorded loss otherwise. -/
def drop_completed (acc : OpRegistry τ × GcReport) (c : Completed) : OpRegistry τ × GcReport :=
  let r := { acc.1 with ops := acc.1.ops.erase c.id }
  if c.acked then
    (r, { acc.2 with dropped_completed := acc.2.dropped_completed + 1 })
  else
    (r.record_lost c.id .evicted, { acc.2 with evicted_unacked := acc.2.evicted_unacked ++ [c.id] })

def drop_due (r : OpRegistry τ) (now_ms : ℕ) (completed : List Completed) : OpRegistry τ × GcReport :=
  completed.foldl (fun acc c =>
      let expired := decide (r.config.completed_ttl_ms ≤ now_ms - c.completed_at_ms)
      if c.acked || expired then drop_completed acc c else acc)
    (r, ⟨[], 0, 0⟩)

/-- Pass 2: LRU past the cap, oldest completion first (`sort_by_key` is stable). -/
def drop_excess (acc : OpRegistry τ × GcReport) (completed : List Completed) : OpRegistry τ × GcReport :=
  if acc.1.config.max_completed < completed.length then
    ((completed.insertionSort fun a b => a.completed_at_ms ≤ b.completed_at_ms).take
      (completed.length - acc.1.config.max_completed)).foldl drop_completed acc
  else
    acc

/-- `OpRegistry::gc`, with the order in which the op map is iterated. -/
def gc (r : OpRegistry τ) (now_ms : ℕ) (order : List OpId) : GcReport × OpRegistry τ :=
  let completed := order.filterMap r.completed_entry
  let pass1 := r.drop_due now_ms completed
  let pass2 := drop_excess pass1 (completed.filter fun c => decide (c.id ∈ pass1.1.ops))
  let tombstones := pass2.1.tombstones.retain fun expiry => decide (now_ms < expiry)
  ({ pass2.2 with expired_tombstones := pass2.1.tombstones.size - tombstones.size },
    { pass2.1 with tombstones := tombstones })

/-! ## Well-formed registries -/

/-- No id is both live and lost, each table agrees with its order, and every expiry is
a `u64`. -/
structure Wf (r : OpRegistry τ) : Prop where
  lost : r.lost.Tidy
  tombstones : r.tombstones.Tidy
  disjoint : ∀ id, id ∈ r.ops → id ∉ r.lost.table
  expiry_lt : ∀ id expiry, r.tombstones.table.lookup id = some expiry → expiry < U64_SIZE

theorem Wf.new (config : RegistryConfig) : (new config : OpRegistry τ).Wf where
  lost := Fifo.Tidy.empty
  tombstones := Fifo.Tidy.empty
  disjoint id h := absurd h (AList.notMem_empty id)
  expiry_lt id expiry h := by simp [OpRegistry.new, Fifo.empty] at h

section

variable {r : OpRegistry τ} {id : OpId} {now_ms : ℕ}

theorem mem_ops_of_lookup {e : OpEntry τ} (h : r.ops.lookup id = some e) : id ∈ r.ops :=
  AList.lookup_isSome.1 (h ▸ rfl)

theorem Wf.update {e e' : OpEntry τ} (h : r.Wf) (hid : r.ops.lookup id = some e) :
    ({ r with ops := r.ops.insert id e' } : OpRegistry τ).Wf where
  lost := h.lost
  tombstones := h.tombstones
  disjoint j hj := by
    rcases (AList.mem_insert _).1 hj with rfl | hj
    · exact h.disjoint _ (mem_ops_of_lookup hid)
    · exact h.disjoint j hj
  expiry_lt := h.expiry_lt

/-! ## One operation at a time -/

theorem begin_fresh_iff (r : OpRegistry τ) (id : OpId) (state : τ) (now_ms : ℕ) :
    (r.begin id state now_ms).1 = .fresh ↔ r.tombstoned id now_ms = false ∧ id ∉ r.ops ∧ id ∉ r.lost.table := by
  unfold begin
  cases htomb : r.tombstoned id now_ms
  · simp only [Bool.false_eq_true, if_false, true_and]
    by_cases hknown : id ∈ r.ops ∨ id ∈ r.lost.table
    · rw [if_pos hknown]
      refine iff_of_false (fun h => by contradiction) ?_
      rintro ⟨hops, hlost⟩
      exact hknown.elim hops hlost
    · rw [if_neg hknown]
      exact iff_of_true rfl (not_or.1 hknown)
  · rw [if_pos rfl]
    exact iff_of_false (fun h => by contradiction) (fun h => by simp at h)

theorem begin_not_fresh (r : OpRegistry τ) (id : OpId) (state : τ) (now_ms : ℕ)
    (h : (r.begin id state now_ms).1 ≠ .fresh) :
    (r.begin id state now_ms).2 = r ∧ ((r.begin id state now_ms).1 = .known (r.query id) ∨
        (r.begin id state now_ms).1 = .born_cancelled) := by
  unfold begin at h ⊢
  split
  · exact ⟨rfl, Or.inr rfl⟩
  · split
    · exact ⟨rfl, Or.inl rfl⟩
    · rw [if_neg ‹_›, if_neg ‹_›] at h
      exact absurd rfl h

theorem begin_fresh (state : τ) (h : (r.begin id state now_ms).1 = .fresh) : (r.begin id state now_ms).2
      = { r with ops := r.ops.insert id (.running state false now_ms) } := by
  obtain ⟨htomb, hops, hlost⟩ := (begin_fresh_iff r id state now_ms).1 h
  unfold begin
  rw [if_neg (by rw [htomb]; exact Bool.false_ne_true), if_neg (not_or.2 ⟨hops, hlost⟩)]

theorem begin_born_cancelled_iff (r : OpRegistry τ) (id : OpId) (state : τ) (now_ms : ℕ) :
    (r.begin id state now_ms).1 = .born_cancelled ↔ r.tombstoned id now_ms = true := by
  unfold begin
  split
  · exact iff_of_true rfl ‹_›
  · refine iff_of_false ?_ ‹_›
    split <;> intro h <;> contradiction

theorem Wf.begin (h : r.Wf) (id : OpId) (state : τ) (now_ms : ℕ) : (r.begin id state now_ms).2.Wf := by
  by_cases hfresh : (r.begin id state now_ms).1 = .fresh
  · have hlost := ((begin_fresh_iff r id state now_ms).1 hfresh).2.2
    rw [begin_fresh state hfresh]
    refine ⟨h.lost, h.tombstones, fun j hj => ?_, h.expiry_lt⟩
    rcases (AList.mem_insert _).1 hj with rfl | hj
    · exact hlost
    · exact h.disjoint j hj
  · rw [(begin_not_fresh r id state now_ms hfresh).1]
    exact h

theorem Wf.complete (h : r.Wf) (id : OpId) (exit_seq now_ms : ℕ) : (r.complete id exit_seq now_ms).Wf := by
  unfold OpRegistry.complete
  split
  · exact h.update ‹_›
  · exact h
  · exact h

theorem Wf.final_ack (h : r.Wf) (id : OpId) : (r.final_ack id).Wf := by
  unfold OpRegistry.final_ack
  split
  · exact h.update ‹_›
  · exact h
  · exact h

theorem cancel_cases (r : OpRegistry τ) (id : OpId) (now_ms : ℕ) : (∃ state cancel_requested began_at_ms,
        r.ops.lookup id = some (.running state cancel_requested began_at_ms) ∧
        r.cancel id now_ms = (.kill_running, { r with ops := r.ops.insert id (.running state true began_at_ms) })) ∨
      (id ∉ r.ops ∧ id ∉ r.lost.table ∧ id ∉ r.tombstones.table ∧
        r.cancel id now_ms = (.tombstone_recorded, r.record_tombstone id now_ms)) ∨
      ((r.cancel id now_ms).2 = r ∧ (r.cancel id now_ms).1 ≠ .kill_running ∧
        ((r.cancel id now_ms).1 = .tombstone_recorded →
          id ∉ r.ops ∧ id ∉ r.lost.table ∧ id ∈ r.tombstones.table)) := by
  unfold cancel
  split
  · exact Or.inl ⟨_, _, _, ‹_›, rfl⟩
  · exact Or.inr (Or.inr ⟨rfl, by rintro ⟨⟩, by rintro ⟨⟩⟩)
  · have hops : id ∉ r.ops := AList.lookup_eq_none.1 ‹_›
    split
    · exact Or.inr (Or.inr ⟨rfl, by rintro ⟨⟩, by rintro ⟨⟩⟩)
    · have hlost : id ∉ r.lost.table := AList.lookup_eq_none.1 ‹_›
      split
      · exact Or.inr (Or.inr ⟨rfl, by rintro ⟨⟩, fun _ => ⟨hops, hlost, ‹_›⟩⟩)
      · exact Or.inr (Or.inl ⟨hops, hlost, ‹_›, rfl⟩)

theorem record_tombstone_pushed (h : r.Wf) (hid : id ∉ r.tombstones.table) (now_ms : ℕ) :
    ∃ k, r.tombstones.Pushed [id] ((now_ms + r.config.tombstone_ttl_ms) % U64_SIZE) k
        (r.record_tombstone id now_ms).tombstones ∧ k ≤ 1 ∧
      id ∈ (r.record_tombstone id now_ms).tombstones.order ∧
      (r.record_tombstone id now_ms).counters.tombstones_capped_total = r.counters.tombstones_capped_total + k := by
  have hpush := (Fifo.Pushed.nil h.tombstones ((now_ms + r.config.tombstone_ttl_ms) % U64_SIZE)).push h.tombstones
    r.config.max_tombstones hid List.not_mem_nil
  rw [List.nil_append, Nat.zero_add] at hpush
  exact ⟨_, hpush, Fifo.pushCapped_fst_le _ _ _ _, List.mem_append_right _ (List.mem_singleton_self id), rfl⟩

theorem Wf.cancel (h : r.Wf) (id : OpId) (now_ms : ℕ) : (r.cancel id now_ms).2.Wf := by
  rcases cancel_cases r id now_ms with ⟨_, _, _, hid, hres⟩ | ⟨hops, hlost, htomb, hres⟩ | hsame
  · rw [hres]
    exact h.update hid
  · obtain ⟨k, hpush, -⟩ := record_tombstone_pushed h htomb now_ms
    rw [hres]
    refine ⟨h.lost, hpush.tidy, h.disjoint, fun j expiry hj => ?_⟩
    rw [hpush.lookup] at hj
    split at hj
    · split at hj
      · rw [← Option.some.inj hj]
        exact Nat.mod_lt _ (by unfold U64_SIZE; decide)
      · exact h.expiry_lt j expiry hj
    · contradiction
  · rw [hsame.1]
    exact h

end

/-! ## One garbage collection -/

def unacked (cs : List Completed) : List OpId := (cs.filter fun c => !c.acked).map (·.id)

theorem unacked_append (cs ds : List Completed) : unacked (cs ++ ds) = unacked cs ++ unacked ds := by
  rw [unacked, List.filter_append, List.map_append, unacked, unacked]

theorem unacked_subset {cs : List Completed} {id : OpId} (h : id ∈ unacked cs) : id ∈ cs.map (·.id) := by
  obtain ⟨c, hc, rfl⟩ := List.mem_map.1 h
  exact List.mem_map_of_mem (List.mem_of_mem_filter hc)

/-- `cs` are distinct completed ops of `r`, collected as they are. -/
structure Collected (r : OpRegistry τ) (cs : List Completed) : Prop where
  nodup : (cs.map (·.id)).Nodup
  entry : ∀ c ∈ cs, r.completed_entry c.id = some c

/-- What evicting the collected ops `cs` leaves of the registry `r` and the report
`report`, with `k` lost markers capped on the way. -/
structure Dropped (r : OpRegistry τ) (cs : List Completed) (k : ℕ)
    (acc : OpRegistry τ × GcReport) : Prop where
  config : acc.1.config = r.config
  ops : ∀ id, acc.1.ops.lookup id = if id ∈ cs.map (·.id) then none else r.ops.lookup id
  tombstones : acc.1.tombstones = r.tombstones
  lost : r.lost.Pushed (unacked cs) .evicted k acc.1.lost
  counters : acc.1.counters = { r.counters with
      evicted_unacked_total := r.counters.evicted_unacked_total + (unacked cs).length
      lost_markers_capped_total := r.counters.lost_markers_capped_total + k }
  evicted_unacked : acc.2.evicted_unacked = unacked cs
  dropped_completed : acc.2.dropped_completed = (cs.filter (·.acked)).length

section

variable {r : OpRegistry τ} {id : OpId} {now_ms : ℕ} {cs ds : List Completed} {k : ℕ}
  {acc : OpRegistry τ × GcReport}

variable {c : Completed}

theorem completed_entry_some (h : r.completed_entry id = some c) : c.id = id ∧ ∃ state exit_seq,
      r.ops.lookup id = some (.complete state exit_seq c.completed_at_ms c.acked) := by
  unfold completed_entry at h
  split at h
  · rw [← Option.some.inj h]
    exact ⟨rfl, _, _, ‹_›⟩
  · contradiction
  · contradiction

theorem Collected.mem_ops (h : r.Collected cs) (hc : c ∈ cs) : c.id ∈ r.ops := by
  obtain ⟨-, state, exit_seq, hlookup⟩ := completed_entry_some (h.entry c hc)
  exact mem_ops_of_lookup hlookup

theorem Dropped.drop (h : r.Dropped cs k acc) (hwf : r.Wf) (hops : c.id ∈ r.ops) (hc : c.id ∉ cs.map (·.id)) :
    ∃ k', r.Dropped (cs ++ [c]) k' (drop_completed acc c) := by
  have hlookup : ∀ id, ((acc.1.ops.erase c.id).lookup id)
      = if id ∈ (cs ++ [c]).map (·.id) then none else r.ops.lookup id := by
    intro id
    rw [List.map_append, List.map_singleton]
    by_cases hid : id = c.id
    · subst hid
      rw [AList.lookup_erase, if_pos (List.mem_append_right _ (List.mem_singleton_self _))]
    · rw [AList.lookup_erase_ne hid, h.ops]
      simp only [List.mem_append, List.mem_singleton, hid, or_false]
  unfold drop_completed
  cases hacked : c.acked
  · -- never final-acked: a recorded loss
    have hfresh : c.id ∉ unacked cs := fun hmem => hc (unacked_subset hmem)
    have hun : unacked (cs ++ [c]) = unacked cs ++ [c.id] := by
      rw [unacked_append]
      simp [unacked, hacked]
    have hpush := h.lost.push hwf.lost acc.1.config.max_lost_markers (hwf.disjoint _ hops) hfresh
    rw [← hun] at hpush
    refine ⟨_, h.config, hlookup, h.tombstones, hpush, ?_, ?_, ?_⟩
    · rw [hun, List.length_append]
      simp [record_lost, h.counters, Nat.add_assoc]
    · simp [h.evicted_unacked, hun]
    · simp [h.dropped_completed, hacked]
  · -- final-acked: nothing is lost
    have hun : unacked (cs ++ [c]) = unacked cs := by
      rw [unacked_append]
      simp [unacked, hacked]
    refine ⟨k, h.config, hlookup, h.tombstones, ?_, ?_, ?_, ?_⟩
    · rw [hun]
      exact h.lost
    · rw [hun]
      exact h.counters
    · rw [hun]
      exact h.evicted_unacked
    · simp [h.dropped_completed, hacked]

theorem Dropped.drops (h : r.Dropped cs k acc) (hwf : r.Wf) (hops : ∀ d ∈ ds, d.id ∈ r.ops)
    (hnodup : ((cs ++ ds).map (·.id)).Nodup) :
    ∃ k', r.Dropped (cs ++ ds) k' (ds.foldl drop_completed acc) := by
  induction ds generalizing cs k acc with
  | nil => exact ⟨k, by rwa [List.append_nil]⟩
  | cons d ds ih =>
    rw [List.append_cons] at hnodup ⊢
    have hd : d.id ∉ cs.map (·.id) := by
      rw [List.map_append, List.map_append, List.map_singleton] at hnodup
      have hinit := (List.nodup_append.1 (List.nodup_append.1 hnodup).1).2.2
      exact fun hmem => hinit _ hmem _ (List.mem_singleton_self _) rfl
    obtain ⟨k', hdrop⟩ := h.drop hwf (hops d List.mem_cons_self) hd
    exact ih hdrop (fun e he => hops e (List.mem_cons_of_mem d he)) hnodup

theorem Dropped.nil (hwf : r.Wf) : r.Dropped [] 0 (r, ⟨[], 0, 0⟩) where
  config := rfl
  ops _ := rfl
  tombstones := rfl
  lost := .nil hwf.lost _
  counters := rfl
  evicted_unacked := rfl
  dropped_completed := rfl

theorem completed_ids_sublist (r : OpRegistry τ) (order : List OpId) :
    ((order.filterMap r.completed_entry).map (·.id)).Sublist order := by
  induction order with
  | nil => exact List.Sublist.refl []
  | cons id order ih =>
    rw [List.filterMap_cons]
    split
    · exact ih.cons id
    · rw [List.map_cons, (completed_entry_some ‹_›).1]
      exact ih.cons_cons id

theorem Collected.of_perm {order : List OpId} (h : order.Perm r.ops.keys) :
    r.Collected (order.filterMap r.completed_entry) where
  nodup := (completed_ids_sublist r order).nodup ((h.nodup_iff).2 r.ops.keys_nodup)
  entry c hc := by
    obtain ⟨id, -, hid⟩ := List.mem_filterMap.1 hc
    rw [(completed_entry_some hid).1]
    exact hid

/-- **What a garbage collection does**: it evicts some completed ops, recording those
that were never final-acked as lost, and forgets the tombstones that expired. -/
structure Swept (r : OpRegistry τ) (now_ms : ℕ) (cs : List Completed) (k : ℕ)
    (out : GcReport × OpRegistry τ) : Prop where
  collected : r.Collected cs
  config : out.2.config = r.config
  ops : ∀ id, out.2.ops.lookup id = if id ∈ cs.map (·.id) then none else r.ops.lookup id
  tombstones : out.2.tombstones = r.tombstones.retain fun expiry => decide (now_ms < expiry)
  lost : r.lost.Pushed (unacked cs) .evicted k out.2.lost
  counters : out.2.counters = { r.counters with
      evicted_unacked_total := r.counters.evicted_unacked_total + (unacked cs).length
      lost_markers_capped_total := r.counters.lost_markers_capped_total + k }
  evicted_unacked : out.1.evicted_unacked = unacked cs

theorem drop_due_dropped (hwf : r.Wf) (hcs : r.Collected cs) (now_ms : ℕ) :
    ∃ first k, r.Collected first ∧ r.Dropped first k (r.drop_due now_ms cs) := by
  let due (c : Completed) : Bool := c.acked || decide (r.config.completed_ttl_ms ≤ now_ms - c.completed_at_ms)
  have hfold : r.drop_due now_ms cs = (cs.filter due).foldl drop_completed (r, ⟨[], 0, 0⟩) := List.foldl_filter.symm
  have hdue : r.Collected (cs.filter due) := ⟨(List.filter_sublist.map _).nodup hcs.nodup,
      fun c hc => hcs.entry c (List.mem_of_mem_filter hc)⟩
  obtain ⟨k, hdrop⟩ := (Dropped.nil hwf).drops hwf (fun c hc => hdue.mem_ops hc) hdue.nodup
  rw [hfold]
  exact ⟨_, k, hdue, hdrop⟩

theorem drop_excess_dropped {first : List Completed} (hwf : r.Wf) (hfirst : r.Collected first)
    (hdrop : r.Dropped first k acc) (hcs : r.Collected cs)
    (hleft : ∀ c ∈ cs, c.id ∈ acc.1.ops) :
    ∃ second k, r.Collected (first ++ second) ∧ r.Dropped (first ++ second) k (drop_excess acc cs) := by
  unfold drop_excess
  split
  · have hperm := List.perm_insertionSort (fun a b : Completed => a.completed_at_ms ≤ b.completed_at_ms) cs
    generalize hsecond : (cs.insertionSort fun a b =>
      a.completed_at_ms ≤ b.completed_at_ms).take (cs.length - acc.1.config.max_completed) = second
    have hsub : ∀ c ∈ second, c ∈ cs := fun c hc =>
      hperm.mem_iff.1 (List.mem_of_mem_take (hsecond ▸ hc))
    have hnodup : (second.map (·.id)).Nodup := by
      rw [← hsecond]
      exact ((List.take_sublist _ _).map _).nodup ((hperm.map _).nodup_iff.2 hcs.nodup)
    have hcol : r.Collected (first ++ second) := by
      refine ⟨?_, fun c hc => ?_⟩
      · rw [List.map_append]
        refine List.nodup_append.2 ⟨hfirst.nodup, hnodup, fun a ha b hb he => ?_⟩
        -- pass 1 removed its ids, and pass 2 only looks at what is left
        obtain ⟨c, hc, rfl⟩ := List.mem_map.1 hb
        have hlive := AList.lookup_isSome.2 (hleft c (hsub c hc))
        rw [hdrop.ops, if_pos (he ▸ ha)] at hlive
        contradiction
      · rcases List.mem_append.1 hc with hc | hc
        · exact hfirst.entry c hc
        · exact hcs.entry c (hsub c hc)
    have hsweep : ∃ k', r.Dropped (first ++ second) k' (second.foldl drop_completed acc) :=
      hdrop.drops hwf (fun c hc => hcs.mem_ops (hsub c hc)) hcol.nodup
    obtain ⟨k', hdrop'⟩ := hsweep
    exact ⟨second, k', hcol, hdrop'⟩
  · exact ⟨[], k, by rwa [List.append_nil], by rwa [List.append_nil]⟩

theorem gc_swept (hwf : r.Wf) (now_ms : ℕ) {order : List OpId} (horder : order.Perm r.ops.keys) :
    ∃ cs k, r.Swept now_ms cs k (r.gc now_ms order) := by
  have hcs := Collected.of_perm horder
  obtain ⟨first, k₁, hfirst, hpass1⟩ := drop_due_dropped hwf hcs now_ms
  have hleft : r.Collected ((order.filterMap r.completed_entry).filter fun c =>
      decide (c.id ∈ (r.drop_due now_ms (order.filterMap r.completed_entry)).1.ops)) :=
    ⟨(List.filter_sublist.map _).nodup hcs.nodup, fun c hc => hcs.entry c (List.mem_of_mem_filter hc)⟩
  obtain ⟨second, k₂, hcol, hpass2⟩ := drop_excess_dropped hwf hfirst hpass1 hleft
    (fun c hc => of_decide_eq_true (List.mem_filter.1 hc).2)
  exact ⟨first ++ second, k₂, hcol, hpass2.config, hpass2.ops, by rw [← hpass2.tombstones]; rfl,
    hpass2.lost, hpass2.counters, hpass2.evicted_unacked⟩

/-! ## Reading a sweep -/

variable {out : GcReport × OpRegistry τ}

theorem Wf.swept (hwf : r.Wf) (h : r.Swept now_ms cs k out) : out.2.Wf := by
  refine ⟨h.lost.tidy, ?_, fun id hid hmem => ?_, fun id expiry hid => ?_⟩
  · rw [h.tombstones]
    exact hwf.tombstones.retain _
  · -- a live op that was not evicted has no marker, old or new
    have hlive := AList.lookup_isSome.2 hid
    rw [h.ops] at hlive
    split at hlive
    · contradiction
    · rw [← h.lost.tidy.mem, h.lost.order] at hmem
      rcases List.mem_append.1 (List.mem_of_mem_drop hmem) with hmem | hmem
      · exact hwf.disjoint id (AList.lookup_isSome.1 hlive) ((hwf.lost.mem id).1 hmem)
      · exact absurd (unacked_subset hmem) ‹_›
  · rw [h.tombstones, Fifo.lookup_retain, Option.filter_eq_some_iff] at hid
    exact hwf.expiry_lt id expiry hid.1

theorem Swept.removed (h : r.Swept now_ms cs k out) (hid : id ∈ r.ops) (hgone : id ∉ out.2.ops) :
    ∃ state exit_seq completed_at_ms final_acked,
      r.ops.lookup id = some (.complete state exit_seq completed_at_ms final_acked) ∧
      (final_acked = false → id ∈ out.1.evicted_unacked) := by
  have hnone := AList.lookup_eq_none.2 hgone
  rw [h.ops] at hnone
  split at hnone
  · obtain ⟨c, hc, rfl⟩ := List.mem_map.1 ‹_›
    obtain ⟨-, state, exit_seq, hlookup⟩ := completed_entry_some (h.collected.entry c hc)
    refine ⟨state, exit_seq, _, _, hlookup, fun hacked => ?_⟩
    rw [h.evicted_unacked]
    exact List.mem_map_of_mem (List.mem_filter.2 ⟨hc, by rw [hacked]; rfl⟩)
  · exact absurd hid (AList.lookup_eq_none.1 hnone)

end

end OpRegistry

end OpenGeni.Engine
