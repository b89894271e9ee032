/-
What each transaction can do to the lease row.

A row stands for a box by four of its columns: the liveness, the instance, the epoch and the
envelope. Most transactions are quiet: they keep the box and its epoch and at most start or
end the grace of an idle box. The others are the win of a cold row, the three writes of the
spawner, the two ways a dead spawner's row is swept, the way to cold and the folding of an
archive. One lemma for each says everything it can do.
-/
import OpenGeni.Db.SandboxLease

namespace OpenGeni.Db

def LeaseRow.SameBox (row row' : LeaseRow) : Prop :=
  row'.instanceId = row.instanceId ∧ row'.leaseEpoch = row.leaseEpoch ∧ row'.resumeState = row.resumeState

/-- The box stays, and is at most put into its grace or taken out of it. -/
def LeaseRow.Quiet (row row' : LeaseRow) : Prop := row.SameBox row' ∧ (row'.liveness = row.liveness ∨
      (row.liveness = .warm ∧ row'.liveness = .draining) ∨
      (row.liveness = .draining ∧ row'.liveness = .warm))

/-- `cold -> warming`, on a cold row or on one that is recreated for another image or rig. -/
def LeaseRow.Won (input : AcquireLeaseInput) (row row' : LeaseRow) : Prop := row'.liveness = .warming ∧
    ((row.liveness = .cold ∧ row.SameBox row') ∨
      (row.conflicts input = true ∧ row'.instanceId = none ∧ row'.leaseEpoch = row.leaseEpoch ∧
        row'.resumeState = none))

theorem LeaseRow.Quiet.refl (row : LeaseRow) : row.Quiet row := ⟨⟨rfl, rfl, rfl⟩, .inl rfl⟩

section

variable {now ms epoch ttl : ℕ} {row row' : LeaseRow} {t t' : LeaseTables} {holders : List Holder}

/-! ## Guarded updates -/

variable {found : Bool} {drainable : Option ReapDrainable}

theorem updateWhere_cases {p : LeaseRow → Prop} [DecidablePred p] {f : LeaseRow → LeaseRow}
    (h : t.updateWhere p f = (t', found)) :
    (found = true ∧ ∃ row, t.lease = some row ∧ p row ∧ t' = { t with lease := some (f row) }) ∨
      (found = false ∧ t' = t ∧ ∀ row, t.lease = some row → ¬ p row) := by
  unfold LeaseTables.updateWhere at h
  cases hl : t.lease with
  | none =>
    rw [hl] at h
    cases h
    exact .inr ⟨rfl, rfl, by simp⟩
  | some row =>
    rw [hl] at h
    dsimp only at h
    by_cases hp : p row
    · rw [if_pos hp] at h
      cases h
      exact .inl ⟨rfl, row, rfl, hp, rfl⟩
    · rw [if_neg hp] at h
      cases h
      refine .inr ⟨rfl, rfl, fun row' hrow' => ?_⟩
      cases hrow'
      exact hp

/-! ## Quiet transactions -/

theorem settle_quiet : row.Quiet (row.settle now ms holders) := by
  unfold LeaseRow.settle
  by_cases h : row.liveness = .warm ∧ holders.length = 0 ∧ countKind .turn holders = 0
  · rw [if_pos h]
    exact ⟨⟨rfl, rfl, rfl⟩, .inr (.inl ⟨h.1, rfl⟩)⟩
  · rw [if_neg h]
    exact ⟨⟨rfl, rfl, rfl⟩, .inl rfl⟩

theorem releaseLeaseHolder_lease {input : ReleaseInput} (h : t.lease = some row) :
    ∃ row', (releaseLeaseHolder now input t).lease = some row' ∧ row.Quiet row' := by
  unfold releaseLeaseHolder
  rw [h]
  exact ⟨_, rfl, settle_quiet⟩

theorem releaseLeaseHolder_none {input : ReleaseInput} (h : t.lease = none) :
    releaseLeaseHolder now input t = t := by
  unfold releaseLeaseHolder
  rw [h]

@[simp] theorem touchLeaseHolder_lease {kind : LeaseHolderKind} {holderId : String} :
    (touchLeaseHolder now kind holderId t).1.lease = t.lease := rfl

theorem heartbeatLeaseHolder_lease (now ttl epoch : ℕ) (kind : LeaseHolderKind) (holderId : String)
    (t : LeaseTables) :
    (heartbeatLeaseHolder now kind holderId ttl epoch t).1.lease = t.lease ∨ ∃ row row', t.lease = some row ∧
        (heartbeatLeaseHolder now kind holderId ttl epoch t).1.lease = some row' ∧
        row' = { row with expiresAt := afterMs now ttl } := by
  unfold heartbeatLeaseHolder
  cases hfound : touchLeaseHolder now kind holderId t with
  | mk t₁ found =>
    have ht : t₁.lease = t.lease := by rw [← touchLeaseHolder_lease (t := t), hfound]
    cases found with
    | false => exact .inl ht
    | true =>
      dsimp only
      cases hupd : t₁.updateWhere
        (fun row => row.leaseEpoch = epoch ∧ (row.liveness = .warm ∨ row.liveness = .warming))
        (fun row => { row with expiresAt := afterMs now ttl }) with
      | mk t₂ found =>
        obtain ⟨-, row, hrow, -, rfl⟩ | ⟨-, rfl, -⟩ := updateWhere_cases hupd
        · exact .inr ⟨row, _, ht ▸ hrow, rfl, rfl⟩
        · exact .inl ht

/-! ## acquireLease -/

theorem settleConflict_ok {input : AcquireLeaseInput} (h : settleConflict input holders row = .ok row') :
    row' = row ∨ (row.conflicts input = true ∧ row' = row.recreate input) := by
  unfold settleConflict at h
  by_cases hc : row.conflicts input = true
  · rw [if_pos hc] at h
    by_cases ho : holders.any (fun h => !h.is input.kind input.holderId) = true
    · rw [if_pos ho] at h
      split at h
      · cases h
      · cases h
      · exact .inl (Except.ok.inj h).symm
    · rw [if_neg ho] at h
      exact .inr ⟨hc, (Except.ok.inj h).symm⟩
  · rw [if_neg hc] at h
    exact .inl (Except.ok.inj h).symm

/-- **What an acquire can do.** A refusal changes nothing, a fenced turn finds the row as it is, an
attach is quiet, and a spawner has won the row. -/
theorem acquireLease_cases {input : AcquireLeaseInput}
    {result : Except AcquireLeaseError (AcquireLeaseRole × LeaseRow)}
    (h : acquireLease now input t = (result, t')) :
    (∃ e, result = .error e ∧ t' = t) ∨ (∃ role row', result = .ok (role, row') ∧ t'.lease = some row' ∧
        ((role = .spawner ∧ (t.lease.getD (freshLease now input)).Won input row' ∧
            t'.holders = upsertLeaseHolder now input.kind input.holderId t.holders) ∨
          (role ≠ .spawner ∧ (t.lease.getD (freshLease now input)).Quiet row' ∧
            (t.lease.getD (freshLease now input)).liveness ≠ .cold))) := by
  unfold acquireLease at h
  cases hs : settleConflict input t.holders (t.lease.getD (freshLease now input)) with
  | error e =>
    rw [hs] at h
    cases h
    exact .inl ⟨e, rfl, rfl⟩
  | ok row =>
    rw [hs] at h
    generalize t.lease.getD (freshLease now input) = row₀ at *
    right
    have hrow := settleConflict_ok hs
    -- A recreated row is cold, so only a cold row is won and the others are as they were.
    have hkept : row.liveness ≠ .cold → row = row₀ := by
      intro hcold
      obtain rfl | ⟨-, rfl⟩ := hrow
      · rfl
      · exact absurd rfl hcold
    unfold acquireBranch at h
    cases hl : row.liveness with
    | cold =>
      simp only [hl] at h
      cases h
      refine ⟨_, _, rfl, rfl, .inl ⟨rfl, ⟨rfl, ?_⟩, rfl⟩⟩
      obtain rfl | ⟨hc, rfl⟩ := hrow
      · exact .inl ⟨hl, ⟨rfl, rfl, rfl⟩⟩
      · exact .inr ⟨hc, rfl, rfl, rfl⟩
    | warming =>
      have hne : row.liveness ≠ .cold := by rw [hl]; decide
      simp only [hl] at h
      cases h
      obtain rfl := hkept hne
      exact ⟨_, _, rfl, rfl, .inr ⟨by decide, ⟨⟨rfl, rfl, rfl⟩, .inl rfl⟩, hne⟩⟩
    | draining =>
      have hne : row.liveness ≠ .cold := by rw [hl]; decide
      simp only [hl] at h
      cases h
      obtain rfl := hkept hne
      exact ⟨_, _, rfl, rfl, .inr ⟨by decide, ⟨⟨rfl, rfl, rfl⟩, .inr (.inr ⟨hl, rfl⟩)⟩, hne⟩⟩
    | warm =>
      have hne : row.liveness ≠ .cold := by rw [hl]; decide
      simp only [hl] at h
      obtain rfl := hkept hne
      by_cases hf : input.kind = .turn ∧ input.expectedEpoch.any (· ≠ row.leaseEpoch)
      · rw [if_pos hf] at h
        cases h
        exact ⟨_, _, rfl, rfl, .inr ⟨by decide, LeaseRow.Quiet.refl _, hne⟩⟩
      · rw [if_neg hf] at h
        cases h
        exact ⟨_, _, rfl, rfl, .inr ⟨by decide, ⟨⟨rfl, rfl, rfl⟩, .inl rfl⟩, hne⟩⟩

/-! ## The sweep -/

/-- **What a sweep can do to the row.** It is quiet, or the row's spawner is dead: without a box the
row goes cold and loses its envelope, with a box it becomes drainable. -/
theorem reapStaleLeaseHolders_lease {input : ReapInput} (ht : t.lease = some row)
    (h : reapStaleLeaseHolders now input t = (t', drainable)) :
    ∃ row', t'.lease = some row' ∧ (row.Quiet row' ∨
        (row.liveness = .warming ∧ row.expiresAt < now ∧ row.instanceId = none ∧ row'.liveness = .cold ∧
          row'.instanceId = none ∧ row'.leaseEpoch = row.leaseEpoch ∧ row'.resumeState = none) ∨
        (row.liveness = .warming ∧ row.expiresAt < now ∧ row.instanceId ≠ none ∧
          row'.liveness = .draining ∧ row'.refcount = 0 ∧ row.SameBox row')) ∧
      (∀ d, drainable = some d → row'.liveness = .draining ∧ d.leaseEpoch = row'.leaseEpoch) := by
  unfold reapStaleLeaseHolders at h
  rw [ht] at h
  cases h
  generalize t.holders.filter (fun h => !h.stale now input) = live
  have hquiet : row.Quiet (row.settle now input.idleGraceMs live) := settle_quiet
  have hexpires : row.liveness = .warming → row.settle now input.idleGraceMs live = row.recount live := by
    intro hw
    unfold LeaseRow.settle
    rw [if_neg (by rw [hw]; simp)]
  refine ⟨_, rfl, ?_, ?_⟩
  · by_cases hw : row.liveness = .warming
    · rw [hexpires hw]
      by_cases hx : row.expiresAt < now
      · by_cases hi : row.instanceId = none
        · right; left
          have hreset : (row.recount live).liveness = .warming ∧ (row.recount live).expiresAt < now ∧
              (row.recount live).instanceId = none := ⟨hw, hx, hi⟩
          unfold LeaseRow.warmingReset
          rw [if_pos hreset]
          unfold LeaseRow.warmingDrain
          rw [if_neg (by simp)]
          exact ⟨hw, hx, hi, rfl, rfl, rfl, rfl⟩
        · right; right
          have hdrain : (row.recount live).liveness = .warming ∧ (row.recount live).expiresAt < now ∧
              (row.recount live).instanceId ≠ none := ⟨hw, hx, hi⟩
          unfold LeaseRow.warmingReset
          rw [if_neg (fun hc => hi hc.2.2)]
          unfold LeaseRow.warmingDrain
          rw [if_pos hdrain]
          exact ⟨hw, hx, hi, rfl, rfl, rfl, rfl, rfl⟩
      · left
        unfold LeaseRow.warmingReset
        rw [if_neg (fun hc => hx hc.2.1)]
        unfold LeaseRow.warmingDrain
        rw [if_neg (fun hc => hx hc.2.1)]
        exact ⟨⟨rfl, rfl, rfl⟩, .inl rfl⟩
    · -- Only a warming row is swept as a dead spawner's, and settling makes no row warming.
      have hne : (row.settle now input.idleGraceMs live).liveness ≠ .warming := by
        obtain ⟨-, he | ⟨-, he⟩ | ⟨-, he⟩⟩ := hquiet
        · rw [he]; exact hw
        · rw [he]; decide
        · rw [he]; decide
      left
      unfold LeaseRow.warmingReset
      rw [if_neg (fun hc => hne hc.1)]
      unfold LeaseRow.warmingDrain
      rw [if_neg (fun hc => hne hc.1)]
      exact hquiet
  · intro d hd
    split at hd
    · rename_i hdr
      cases hd
      exact ⟨hdr.1, rfl⟩
    · cases hd

theorem reapStaleLeaseHolders_none {input : ReapInput} (ht : t.lease = none)
    (h : reapStaleLeaseHolders now input t = (t', drainable)) :
    t'.lease = none ∧ drainable = none := by
  unfold reapStaleLeaseHolders at h
  rw [ht] at h
  cases h
  exact ⟨rfl, rfl⟩

/-! ## The archives -/

@[simp] theorem goCold_workspaceArchive : row.goCold.workspaceArchive = row.workspaceArchive := by
  unfold LeaseRow.goCold LeaseRow.workspaceArchive
  cases hs : row.resumeState with
  | none => rfl
  | some e =>
    cases ha : e.workspaceArchive with
    | none => simp [ha]
    | some a => simp [ha, Envelope.archiveOnly]

@[simp] theorem foldWorkspaceArchive_workspaceArchive {archive : Archive} {prev : Option Archive} {at' : ℕ} :
    (row.foldWorkspaceArchive archive prev at').workspaceArchive = some archive := rfl

@[simp] theorem foldWorkspaceArchive_sandboxId {archive : Archive} {prev : Option Archive} {at' : ℕ} :
    (row.foldWorkspaceArchive archive prev at').sandboxId = row.sandboxId := by
  unfold LeaseRow.foldWorkspaceArchive LeaseRow.sandboxId
  cases row.resumeState with
  | none | some => rfl

/-- **What the check before a stop can do.** Where it passes, the lease is idle under the epoch, and
the archive is folded in if there is one. -/
theorem persistDrainSnapshot_cases {archive : Option Archive} {result : PersistDrainResult}
    (h : persistDrainSnapshot now epoch archive t = (t', result)) :
    (result.wrote = false ∧ t' = t) ∨ (result.wrote = true ∧ ∃ row, t.lease = some row ∧ row.Idle epoch ∧
        t' = { t with
          lease := some ((archive.map fun a => row.foldWorkspaceArchive a none (now / 1000)).getD row) }) := by
  unfold persistDrainSnapshot at h
  cases hl : t.lease with
  | none =>
    rw [hl] at h
    cases h
    exact .inl ⟨rfl, rfl⟩
  | some row =>
    rw [hl] at h
    dsimp only at h
    by_cases hi : row.Idle epoch
    · rw [if_pos hi] at h
      right
      cases archive with
      | none =>
        cases h
        refine ⟨rfl, row, rfl, hi, ?_⟩
        obtain ⟨lease, holders⟩ := t
        cases hl
        rfl
      | some a =>
        cases h
        exact ⟨rfl, row, rfl, hi, rfl⟩
    · rw [if_neg hi] at h
      cases h
      exact .inl ⟨rfl, rfl⟩

theorem persistWarmSnapshot_cases {input : PersistWarmInput} {result : PersistWarmResult}
    (h : persistWarmSnapshot input t = (t', result)) :
    (result.wrote = false ∧ t' = t) ∨ (result.wrote = true ∧ ∃ row, t.lease = some row ∧ row.liveness = .warm ∧
        row.leaseEpoch = input.expectedEpoch ∧
        t' = { t with
          lease := some
            (row.foldWorkspaceArchive input.workspaceArchive row.workspaceArchive input.capturedAtMs) }) := by
  unfold persistWarmSnapshot at h
  cases hl : t.lease with
  | none =>
    rw [hl] at h
    cases h
    exact .inl ⟨rfl, rfl⟩
  | some row =>
    rw [hl] at h
    dsimp only at h
    by_cases hw : row.liveness = .warm ∧ row.leaseEpoch = input.expectedEpoch
    · rw [if_pos hw] at h
      split at h
      · cases h
        exact .inl ⟨rfl, rfl⟩
      split at h
      · cases h
        exact .inl ⟨rfl, rfl⟩
      · cases h
        exact .inr ⟨rfl, row, rfl, hw.1, hw.2, rfl⟩
    · rw [if_neg hw] at h
      cases h
      exact .inl ⟨rfl, rfl⟩

end

end OpenGeni.Db
