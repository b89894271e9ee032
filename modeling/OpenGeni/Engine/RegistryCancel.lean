/-
How long a cancel holds against a later begin.

A cancel of an unknown op answers `TombstoneRecorded`, and a begin under a live tombstone
is refused. The promise is that the refusal lasts for the tombstone TTL, counted from the
cancel. It does for a first cancel. A cancel that finds a tombstone of the id in the table
answers the same and records nothing, so the begin is refused only until the *earlier*
expiry, even if that has passed already and the entry merely waits for a collection.

`cancel_wins_iff` is the exact line: the promise is kept in every continuation if and only
if the tombstone in force after the cancel outlives the TTL.
-/
import OpenGeni.Engine.RegistryRuns

namespace OpenGeni.Engine

open OpenGeni.Lib

variable {τ : Type*}

/-- The cancel from `s` to `t` evicted the tombstone of `id` at the cap, and counted
it. -/
def CapsTombstone (id : OpId) (s : RegistryState τ) (e : RegistryEvent τ) (t : RegistryState τ) : Prop :=
  (∃ j, e.call = .cancel j) ∧ id ∈ s.registry.tombstones.table ∧ id ∉ t.registry.tombstones.table ∧
    t.registry.counters.tombstones_capped_total = s.registry.counters.tombstones_capped_total + 1

/-- From `s` on, every begin of `id` before the time `deadline` is refused, unless the
tombstone of `id` was evicted by the cap first. -/
def RefusedUntil (id : OpId) (deadline : ℕ) (s : RegistryState τ) : Prop :=
  ∀ es t state now_ms, Run RegistryStep s es t → t.clock ≤ now_ms → now_ms < deadline → now_ms < U64_SIZE →
    (t.registry.begin id state now_ms).1 = .born_cancelled ∨ Sometime RegistryStep (CapsTombstone id) s es t

/-- A tombstone of `id` that expires at `expiry`. -/
def Tombstone (id : OpId) (expiry : ℕ) (s : RegistryState τ) : Prop :=
  s.registry.tombstones.table.lookup id = some expiry

section

variable {s t u : RegistryState τ} {e : RegistryEvent τ} {es : List (RegistryEvent τ)}
  {id : OpId} {expiry now_ms : ℕ}

/-- **One call** keeps a live tombstone, or it is a cancel that capped it. -/
theorem step_keeps_tombstone (hwf : s.registry.Wf) (h : RegistryStep s e t)
    (htomb : Tombstone id expiry s) (hlive : e.now_ms < expiry) :
    Tombstone id expiry t ∨ CapsTombstone id s e t := by
  have hmem : id ∈ s.registry.tombstones.table := AList.lookup_isSome.1 (htomb ▸ rfl)
  have heffect := (registry_step_effect hwf h).2
  unfold Tombstone CapsTombstone
  generalize t.registry = r' at heffect
  cases heffect with
  | @tombstoned j hcall hj =>
    -- a new tombstone of another op, which may evict the oldest
    obtain ⟨k, hpush, hk, -, hcount⟩ := OpRegistry.record_tombstone_pushed hwf hj e.now_ms
    have hne : id ∉ [j] := fun hin => hj (List.mem_singleton.1 hin ▸ hmem)
    rw [hpush.lookup, if_neg hne]
    by_cases hkept : id ∈ (s.registry.record_tombstone j e.now_ms).tombstones.order
    · rw [if_pos hkept]
      exact Or.inl htomb
    · refine Or.inr ⟨⟨j, hcall⟩, hmem, fun hin => hkept ((hpush.tidy.mem id).2 hin), ?_⟩
      have hpos : k ≠ 0 := by
        rintro rfl
        rw [hpush.order, List.drop_zero] at hkept
        exact hkept (List.mem_append_left _ ((hwf.tombstones.mem id).2 hmem))
      have hone : k = 1 := by omega
      exact hone ▸ hcount
  | swept _ hswept =>
    -- a collection retains what has not expired
    left
    rw [hswept.tombstones, Fifo.lookup_retain, htomb]
    exact Option.filter_some_pos (decide_eq_true hlive)
  | _ => exact Or.inl htomb

theorem run_clock_le (h : Run RegistryStep s es u) : s.clock ≤ u.clock := by
  induction h with
  | nil s => exact Nat.le_refl _
  | cons hstep _ ih => exact Nat.le_trans hstep.clock_le (hstep.clock_eq ▸ ih)

/-- **A run** that ends before the expiry keeps the tombstone, or capped it. -/
theorem run_keeps_tombstone (hwf : s.registry.Wf) (h : Run RegistryStep s es u)
    (htomb : Tombstone id expiry s) (hlive : u.clock < expiry) :
    Tombstone id expiry u ∨ Sometime RegistryStep (CapsTombstone id) s es u := by
  by_cases hkept : Tombstone id expiry u
  · exact Or.inl hkept
  · obtain ⟨es₁, e, es₂, v, w, hes, hpre, hstep, ⟨hv, hw⟩, hpost⟩ := h.lost (P := Tombstone id expiry) htomb hkept
    -- the step that lost it was made before the end of the run
    have hnow : e.now_ms < expiry := Nat.lt_of_le_of_lt (hstep.clock_eq ▸ run_clock_le hpost) hlive
    have hcap := (step_keeps_tombstone (run_wf hwf hpre) hstep hv hnow).resolve_left hw
    exact Or.inr ⟨es₁, e, es₂, v, w, hes, hpre, hstep, hcap, hpost⟩

/-- **How long a tombstone refuses**: until its own expiry, and no longer. -/
theorem refusedUntil_iff [Inhabited τ] {deadline : ℕ} (hwf : s.registry.Wf)
    (htomb : Tombstone id expiry s) (hclock : s.clock < U64_SIZE) :
    RefusedUntil id deadline s ↔ deadline ≤ s.clock ∨ deadline ≤ expiry := by
  constructor
  · -- otherwise the begin at the expiry, or at once if that has passed, is admitted
    intro h
    by_contra hlate
    obtain ⟨hclock', hexpiry⟩ := not_or.1 hlate
    have hu64 := hwf.expiry_lt id expiry htomb
    rcases h [] s default (max s.clock expiry) (.nil s) (Nat.le_max_left _ _)
      (max_lt (Nat.lt_of_not_le hclock') (Nat.lt_of_not_le hexpiry)) (max_lt hclock hu64)
      with hborn | ⟨es₁, e, es₂, v, w, hes, -⟩
    · rw [OpRegistry.begin_born_cancelled_iff, OpRegistry.tombstoned, htomb] at hborn
      have hlt := of_decide_eq_true hborn
      exact absurd (Nat.le_max_right s.clock expiry) (Nat.not_le_of_lt hlt)
    · exact absurd hes.symm (by simp)
  · intro h es u state now_ms hrun hle hdeadline hnow
    have hlive : now_ms < expiry := by
      have := run_clock_le hrun
      omega
    rcases run_keeps_tombstone hwf hrun htomb (by omega) with hkept | hcapped
    · left
      rw [OpRegistry.begin_born_cancelled_iff, OpRegistry.tombstoned, hkept]
      exact decide_eq_true hlive
    · exact Or.inr hcapped

/-- The tombstone in force after a cancel that answered `TombstoneRecorded`: the one that
was there, or a new one with a full TTL. -/
theorem cancel_tombstone (hwf : s.registry.Wf) (h : RegistryStep s ⟨now_ms, .cancel id⟩ t)
    (hrec : (s.registry.cancel id now_ms).1 = .tombstone_recorded) :
    (∃ expiry, Tombstone id expiry s ∧ Tombstone id expiry t) ∨ (id ∉ s.registry.tombstones.table ∧
        Tombstone id ((now_ms + s.registry.config.tombstone_ttl_ms) % U64_SIZE) t) := by
  have hreg : t.registry = (s.registry.cancel id now_ms).2 := h.registry_eq
  unfold Tombstone
  rw [hreg]
  rcases OpRegistry.cancel_cases s.registry id now_ms with
    ⟨_, _, _, -, hres⟩ | ⟨-, -, htomb, hres⟩ | ⟨hres, -, hmem⟩
  · rw [hres] at hrec
    contradiction
  · right
    obtain ⟨k, hpush, -, hlast, -⟩ := OpRegistry.record_tombstone_pushed hwf htomb now_ms
    rw [hres]
    refine ⟨htomb, ?_⟩
    rw [hpush.lookup, if_pos hlast, if_pos (List.mem_singleton_self id)]
  · left
    rw [hres]
    obtain ⟨expiry, hexpiry⟩ := Option.isSome_iff_exists.1 (AList.lookup_isSome.2 (hmem hrec).2.2)
    exact ⟨expiry, hexpiry, hexpiry⟩

end

/-- After any history, a cancel that answers `TombstoneRecorded` refuses every begin for the tombstone TTL. -/
def CancelWins (τ : Type*) (config : RegistryConfig) : Prop :=
  ∀ pre (s t : RegistryState τ) id now_ms, Run RegistryStep (RegistryState.init config) pre s →
    RegistryStep s ⟨now_ms, .cancel id⟩ t →
    (s.registry.cancel id now_ms).1 = .tombstone_recorded →
    RefusedUntil id (now_ms + config.tombstone_ttl_ms) t

/-- The tombstone in force after a cancel at `now_ms` outlives the TTL: an earlier one
that is still in the table expires no earlier, and a new one has an expiry that fits the
clock. -/
def OutlivesTtl (r : OpRegistry τ) (id : OpId) (now_ms : ℕ) : Prop := match r.tombstones.table.lookup id with
  | some expiry => now_ms + r.config.tombstone_ttl_ms ≤ expiry
  | none => now_ms + r.config.tombstone_ttl_ms < U64_SIZE

/-- **When a cancel wins.** After any history, a cancel that answers `TombstoneRecorded`
refuses every begin for the TTL, in every continuation, exactly when the TTL is zero or
the tombstone then in force outlives it. -/
theorem cancel_wins_iff [Inhabited τ] {config : RegistryConfig} {pre : List (RegistryEvent τ)}
    {s t : RegistryState τ} {id : OpId} {now_ms : ℕ}
    (hpre : Run RegistryStep (RegistryState.init config) pre s)
    (hcancel : RegistryStep s ⟨now_ms, .cancel id⟩ t)
    (hrec : (s.registry.cancel id now_ms).1 = .tombstone_recorded) :
    RefusedUntil id (now_ms + config.tombstone_ttl_ms) t ↔
      config.tombstone_ttl_ms = 0 ∨ OutlivesTtl s.registry id now_ms := by
  obtain ⟨hwf, rfl⟩ := registry_run_wf hpre
  have hwf' := (registry_step_cases hwf hcancel).1
  have hclock : t.clock = now_ms := hcancel.clock_eq
  have hzero : now_ms + s.registry.config.tombstone_ttl_ms ≤ t.clock ↔
      s.registry.config.tombstone_ttl_ms = 0 := by omega
  unfold OutlivesTtl
  rcases cancel_tombstone hwf hcancel hrec with ⟨expiry, hs, ht⟩ | ⟨hs, ht⟩
  · rw [refusedUntil_iff hwf' ht (hclock ▸ hcancel.now_lt), hzero]
    rw [hs]
  · rw [refusedUntil_iff hwf' ht (hclock ▸ hcancel.now_lt), hzero, AList.lookup_eq_none.2 hs]
    -- the sum reaches its own remainder exactly when it did not wrap
    refine or_congr_right ⟨fun hle => ?_, fun hlt => ?_⟩
    · exact Nat.lt_of_le_of_lt hle (Nat.mod_lt _ (by unfold U64_SIZE; decide))
    · rw [Nat.mod_eq_of_lt hlt]

/-- The first cancel of an op refuses it for the whole TTL. -/
theorem first_cancel_wins : RefusedUntil ⟨"op"⟩ (0 + RegistryConfig.default.tombstone_ttl_ms)
      (⟨((OpRegistry.new RegistryConfig.default : OpRegistry Unit).cancel ⟨"op"⟩ 0).2, 0⟩) :=
  (cancel_wins_iff (.nil (RegistryState.init .default))
    (.of_call ⟨0, .cancel ⟨"op"⟩⟩ (Nat.le_refl 0) (by decide) (by rintro _ ⟨⟩)) rfl).2
    (Or.inr (show 0 + RegistryConfig.default.tombstone_ttl_ms < U64_SIZE by decide))

/-- A cancel repeated one millisecond later does not extend the tombstone: the begin at
the first expiry is inside the second cancel's TTL, and it runs. -/
theorem repeated_cancel_does_not_win : ¬ CancelWins Unit RegistryConfig.default := by
  intro h
  let r₀ : OpRegistry Unit := .new .default
  let r₁ := (r₀.cancel ⟨"op"⟩ 0).2
  have hfirst : Run RegistryStep (RegistryState.init .default) [⟨0, .cancel ⟨"op"⟩⟩] ⟨r₁, 0⟩ :=
    .single (.of_call ⟨0, .cancel ⟨"op"⟩⟩ (Nat.le_refl 0) (by decide) (by rintro _ ⟨⟩))
  have hsecond : RegistryStep ⟨r₁, 0⟩ ⟨1, .cancel ⟨"op"⟩⟩ ⟨(r₁.cancel ⟨"op"⟩ 1).2, 1⟩ :=
    .of_call ⟨1, .cancel ⟨"op"⟩⟩ (by decide) (by decide) (by rintro _ ⟨⟩)
  have hbegin := h _ _ _ ⟨"op"⟩ 1 hfirst hsecond (by decide) [] _ () 900000 (.nil _) (by decide)
    (by decide) (by decide)
  rcases hbegin with hborn | ⟨es₁, e, es₂, v, w, hes, -⟩
  · exact absurd hborn (by decide)
  · exact absurd hes.symm (by simp)

end OpenGeni.Engine
