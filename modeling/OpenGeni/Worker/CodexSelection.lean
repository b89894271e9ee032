/-
The account of a turn: continuity, pins, and the ranker.

A turn keeps the account of its own live lease, or the one it was frozen on, as long as that one
is healthy; this holds for an account that is disabled for new work as well. After that the pin
of the session decides. A pin that a user has set, or that nobody has labelled, is never left
for another account. A pin that the sharded policy has set counts while that policy is in force,
and only then.
-/
import OpenGeni.Worker.CodexRotation

namespace OpenGeni.Worker

open OpenGeni.Lib

inductive CodexPinSource
  | manual | policy
deriving DecidableEq

inductive CodexPinDisposition
  | manual | sharded | clearStale | unpinned
deriving DecidableEq

/-- What the transaction that takes the lease hands to the selector. -/
structure SelectionContext (ι : Type) where
  accounts : List (CodexRotationAccount ι)
  activeCredentialId : Option ι
  rotationEnabled : Bool
  leaseRotationEnabled : Bool
  rotationStrategy : CodexRotationStrategy
  existingCredentialId : Option ι

structure SelectArgs (ι : Type) where
  context : SelectionContext ι
  leasingEnabled : Bool
  sessionId : CodeUnits
  sessionPinnedCredentialId : Option ι
  sessionPinSource : Option CodexPinSource
  sessionLastCredentialId : Option ι
  continuationCredentialId : Option ι
  nearExhaustionPct : ℚ
  now : ℤ

structure CodexTurnLeaseSelection (ι : Type) where
  credentialId : Option ι
  decision : RotationDecision ι
  advanceActivePointer : Option Bool

section

variable {ι : Type}

def classifyCodexPin (pinnedCredentialId : Option ι) (pinSource : Option CodexPinSource)
    (strategy : CodexRotationStrategy) (rotationEnabled : Bool) : CodexPinDisposition :=
  if pinnedCredentialId.isSome ∧ pinSource ≠ some .policy then .manual
  else if rotationEnabled ∧ strategy = .sharded then .sharded
  else if pinnedCredentialId.isSome ∧ pinSource = some .policy then .clearStale
  else .unpinned

def SelectArgs.leasing (args : SelectArgs ι) : Bool := args.leasingEnabled && args.context.leaseRotationEnabled

def SelectArgs.healthy (args : SelectArgs ι) (acct : CodexRotationAccount ι) : Bool :=
  isCodexCredentialHealthy acct args.nearExhaustionPct args.now

def SelectArgs.disposition (args : SelectArgs ι) : CodexPinDisposition :=
  classifyCodexPin args.sessionPinnedCredentialId args.sessionPinSource args.context.rotationStrategy
    args.context.rotationEnabled

variable [DecidableEq ι]

def SelectArgs.healthyAccount (args : SelectArgs ι) (id : Option ι) : Option (CodexRotationAccount ι) :=
  (id.bind (findAccount args.context.accounts)).filter args.healthy

def SelectArgs.connected (args : SelectArgs ι) (id : ι) : Bool :=
  (args.context.accounts.filter (·.allocatorEnabled)).any fun acct => acct.id == id

def SelectArgs.continueOn (args : SelectArgs ι) (acct : CodexRotationAccount ι) : CodexTurnLeaseSelection ι :=
  ⟨some acct.id, .active acct.id (some acct.id != args.context.activeCredentialId) [], some false⟩

def SelectArgs.selectPinned (args : SelectArgs ι) (pin : ι) : CodexTurnLeaseSelection ι :=
  match (findAccount args.context.accounts pin).filter (·.allocatorEnabled) with
  | none => ⟨none, .none, some false⟩
  | some pinned =>
    if args.healthy pinned then ⟨some pinned.id, .active pinned.id false [], some false⟩
    else ⟨none, .allCapped (availableAt pinned args.nearExhaustionPct args.now), some false⟩

def SelectArgs.selectSharded (args : SelectArgs ι) : Option (CodexTurnLeaseSelection ι) :=
  if args.context.accounts.length = 0 then some ⟨none, .none, some false⟩
  else
    (chooseShardedHome args.sessionId
        (if args.sessionPinSource = some .policy then args.sessionPinnedCredentialId else none)
        args.context.accounts args.nearExhaustionPct args.now).map fun
      | .allCapped earliestResetAt => ⟨none, .allCapped earliestResetAt, some false⟩
      | .home credentialId _ =>
        ⟨some credentialId, .active credentialId (some credentialId != args.context.activeCredentialId) [],
          some false⟩

def SelectArgs.selectSticky (credentialId : Option ι) : CodexTurnLeaseSelection ι := match credentialId with
  | some id => ⟨some id, .active id false [], none⟩
  | none => ⟨none, .none, none⟩

def SelectArgs.activePointer (args : SelectArgs ι) : Option ι :=
  args.context.activeCredentialId.filter args.connected

def SelectArgs.rankArgs (args : SelectArgs ι) : RankArgs ι :=
  let priorId := args.sessionLastCredentialId.or args.context.activeCredentialId
  { rotationStrategy := args.context.rotationStrategy, activeCredentialId := args.context.activeCredentialId
    priorCredentialId := priorId, accounts := args.context.accounts, nearExhaustionPct := args.nearExhaustionPct
    now := args.now
    usedConnectors := ((priorId.bind (findAccount args.context.accounts)).bind (·.connectorNamespaces)).getD [] }

def RotationDecision.credentialId? : RotationDecision ι → Option ι
  | .active credentialId _ _ => some credentialId
  | .allCapped _ => Option.none
  | .none => Option.none

def SelectArgs.selectRanked (args : SelectArgs ι) : Option (CodexTurnLeaseSelection ι) :=
  let choose := if args.leasing then chooseRotationActive else chooseLegacyRotationActive
  (choose args.rankArgs).map fun decision => ⟨decision.credentialId?, decision, none⟩

/-- Without a pin that counts: the pointer, the pin before the leases, or the ranker. -/
def SelectArgs.selectFollowing (args : SelectArgs ι) : Option (CodexTurnLeaseSelection ι) :=
  if ¬ args.context.rotationEnabled then some (SelectArgs.selectSticky args.activePointer)
  else if ¬ args.leasing ∧ args.disposition ≠ .clearStale ∧ args.sessionPinnedCredentialId.isSome then
    some (SelectArgs.selectSticky ((args.sessionPinnedCredentialId.filter args.connected).or args.activePointer))
  else args.selectRanked

/-- The selector, from the pin on. `none` throws. -/
def SelectArgs.selectNew (args : SelectArgs ι) : Option (CodexTurnLeaseSelection ι) := match args.disposition with
  | .manual =>
    match args.sessionPinnedCredentialId with
    | some pin => some (args.selectPinned pin)
    | none => args.selectFollowing
  | .sharded => args.selectSharded
  | .clearStale => args.selectFollowing
  | .unpinned => args.selectFollowing

def selectCodexCredentialLeaseForTurn (args : SelectArgs ι) : Option (CodexTurnLeaseSelection ι) :=
  match args.healthyAccount args.context.existingCredentialId with
  | some existing => some (args.continueOn existing)
  | none =>
    match args.healthyAccount args.continuationCredentialId with
    | some continuation => some (args.continueOn continuation)
    | none => args.selectNew

inductive SelectArgs.Admits (args : SelectArgs ι) (acct : CodexRotationAccount ι) : Prop
  | pin (manual : args.disposition = .manual)
      (found : args.sessionPinnedCredentialId.bind (findAccount args.context.accounts) = some acct)
  | shard (sharded : args.disposition = .sharded) (mem : acct ∈ args.context.accounts)
  | pointer (manual : args.disposition ≠ .manual) (off : args.context.rotationEnabled = false)
      (mem : acct ∈ args.context.accounts) (active : args.context.activeCredentialId = some acct.id)
  | ranker (manual : args.disposition ≠ .manual) (on : args.context.rotationEnabled = true)
      (mem : acct ∈ args.context.accounts)

/-! ## The selection of a new turn -/

variable {args : SelectArgs ι} {acct : CodexRotationAccount ι}

theorem healthyAccount_some {id : Option ι} (h : args.healthyAccount id = some acct) :
    acct ∈ args.context.accounts ∧ id = some acct.id ∧ args.healthy acct = true := by
  obtain ⟨hfound, hhealthy⟩ := Option.filter_eq_some_iff.mp h
  obtain ⟨key, hid, hkey⟩ := Option.bind_eq_some_iff.mp hfound
  obtain ⟨hmem, rfl⟩ := findAccount_some hkey
  exact ⟨hmem, hid, hhealthy⟩

variable {id pin : ι}

theorem connected_iff : args.connected id = true ↔
    ∃ acct ∈ args.context.accounts, acct.id = id ∧ acct.allocatorEnabled = true := by
  simp only [SelectArgs.connected, List.any_eq_true, List.mem_filter, beq_iff_eq]
  exact ⟨fun ⟨acct, ⟨hmem, henabled⟩, hid⟩ => ⟨acct, hmem, hid, henabled⟩,
    fun ⟨acct, hmem, hid, henabled⟩ => ⟨acct, ⟨hmem, henabled⟩, hid⟩⟩

/-- What holds of a selection that no running turn has a part in. -/
structure SelectArgs.SoundNew (args : SelectArgs ι) (selection : CodexTurnLeaseSelection ι) : Prop where
  enabled : ∀ id, selection.credentialId = some id → ∃ acct ∈ args.context.accounts,
    acct.id = id ∧ acct.allocatorEnabled = true ∧ (args.context.rotationEnabled = true → args.healthy acct = true)
  idle : selection.credentialId = none → ∀ acct, args.Admits acct →
    ¬ isCodexCredentialEligible acct args.nearExhaustionPct args.now = true

omit [DecidableEq ι] in
theorem Serves.enabled (h : Serves args.context.accounts args.nearExhaustionPct args.now id) :
    ∃ acct ∈ args.context.accounts, acct.id = id ∧ acct.allocatorEnabled = true ∧
      (args.context.rotationEnabled = true → args.healthy acct = true) := by
  obtain ⟨acct, hmem, hid, heligible⟩ := h
  obtain ⟨henabled, hhealthy⟩ : acct.allocatorEnabled = true ∧ args.healthy acct = true := by
    simpa [isCodexCredentialEligible, SelectArgs.healthy] using heligible
  exact ⟨acct, hmem, hid, henabled, fun _ => hhealthy⟩

theorem ranker_cases (rank : RankArgs ι) {choose : RankArgs ι → Option (RotationDecision ι)}
    (h : choose = chooseRotationActive ∨ choose = chooseLegacyRotationActive) :
    ∃ decision, choose rank = some decision ∧
      ((∃ id, decision.credentialId? = some id ∧ Serves rank.accounts rank.nearExhaustionPct rank.now id) ∨
        decision.credentialId? = none ∧ ∀ acct ∈ rank.accounts,
            ¬ isCodexCredentialEligible acct rank.nearExhaustionPct rank.now = true) := by
  by_cases henabled : ∃ acct ∈ rank.accounts, acct.allocatorEnabled = true
  case pos =>
    have hcases : ServesOrSleeps rank.accounts rank.allocatable rank.nearExhaustionPct rank.now
        (Unusable rank.nearExhaustionPct) (Active (choose rank)) (AllCapped (choose rank)) := by
      obtain rfl | rfl := h
      · exact chooseRotationActive_serves_or_sleeps henabled
      · exact chooseLegacyRotationActive_serves_or_sleeps henabled
    obtain ⟨id, ⟨moved, dropped, hactive⟩, hserves⟩ | ⟨hnone, wake, hcapped, -⟩ := hcases
    · exact ⟨_, hactive, .inl ⟨id, rfl, hserves⟩⟩
    · exact ⟨_, hcapped, .inr ⟨rfl, hnone⟩⟩
  case neg =>
    have hoff : ∀ acct ∈ rank.accounts, ¬ acct.allocatorEnabled = true :=
      fun acct hmem h => henabled ⟨acct, hmem, h⟩
    refine ⟨.none, ?_, .inr ⟨rfl, fun acct hmem h => hoff acct hmem (enabled_of_eligible h)⟩⟩
    obtain rfl | rfl := h
    · exact chooseRotationActive_none hoff
    · exact chooseLegacyRotationActive_none hoff

theorem selectPinned_sound (hmanual : args.disposition = .manual)
    (hpin : args.sessionPinnedCredentialId = some pin) : args.SoundNew (args.selectPinned pin) := by
  have hadmits : ∀ acct, args.Admits acct → findAccount args.context.accounts pin = some acct := by
    intro acct hadmits
    cases hadmits with
    | pin _ found => simpa [hpin] using found
    | shard sharded _ => rw [hmanual] at sharded; cases sharded
    | pointer manual _ _ _ => exact absurd hmanual manual
    | ranker manual _ _ => exact absurd hmanual manual
  unfold SelectArgs.selectPinned
  split
  case h_1 hnone =>
    refine ⟨fun id hid => (by cases hid), fun _ acct hacct heligible => ?_⟩
    have henabled := enabled_of_eligible heligible
    simp [hadmits acct hacct, henabled] at hnone
  case h_2 pinned hpinned =>
    obtain ⟨hfound, henabled⟩ := Option.filter_eq_some_iff.mp hpinned
    obtain ⟨hmem, -⟩ := findAccount_some hfound
    split
    case isTrue hhealthy =>
      refine ⟨?_, fun hid => (by cases hid)⟩
      rintro id ⟨rfl⟩
      exact ⟨pinned, hmem, rfl, henabled, fun _ => hhealthy⟩
    case isFalse hhealthy =>
      refine ⟨fun id hid => (by cases hid), fun _ acct hacct heligible => hhealthy ?_⟩
      cases (hadmits acct hacct).symm.trans hfound
      simpa [isCodexCredentialEligible, SelectArgs.healthy, henabled] using heligible

theorem SelectArgs.Admits.mem (h : args.Admits acct) : acct ∈ args.context.accounts := by
  cases h with
  | pin _ found =>
    obtain ⟨pin, -, hpin⟩ := Option.bind_eq_some_iff.mp found
    exact (findAccount_some hpin).1
  | shard _ mem => exact mem
  | pointer _ _ mem _ => exact mem
  | ranker _ _ mem => exact mem

theorem selectSharded_sound : ∃ selection, args.selectSharded = some selection ∧ args.SoundNew selection := by
  unfold SelectArgs.selectSharded
  split
  case isTrue hlen =>
    refine ⟨_, rfl, fun id hid => (by cases hid), fun _ acct hacct _ => ?_⟩
    have := hacct.mem
    rw [List.length_eq_zero_iff.mp hlen] at this
    cases this
  case isFalse hlen =>
    have hne : args.context.accounts ≠ [] := fun h => hlen (by rw [h]; rfl)
    obtain ⟨id, ⟨rewritePin, hhome⟩, hserves⟩ | ⟨hnone, wake, hcapped, -⟩ :=
      chooseShardedHome_serves_or_sleeps args.sessionId
        (if args.sessionPinSource = some .policy then args.sessionPinnedCredentialId else none)
        args.nearExhaustionPct args.now hne
    · rw [hhome]
      refine ⟨_, rfl, ?_, fun hid => (by cases hid)⟩
      rintro _ ⟨rfl⟩
      exact hserves.enabled
    · rw [hcapped]
      exact ⟨_, rfl, fun id hid => (by cases hid), fun _ acct hacct => hnone acct hacct.mem⟩

theorem selectRanked_sound :
    ∃ selection, args.selectRanked = some selection ∧ args.SoundNew selection := by
  have hranker : (if args.leasing then chooseRotationActive else chooseLegacyRotationActive)
      = (chooseRotationActive : RankArgs ι → _) ∨
    (if args.leasing then chooseRotationActive else chooseLegacyRotationActive)
      = (chooseLegacyRotationActive : RankArgs ι → _) := by split <;> simp
  obtain ⟨decision, hdecision, hcases⟩ := ranker_cases args.rankArgs hranker
  refine ⟨⟨decision.credentialId?, decision, none⟩, by simp [SelectArgs.selectRanked, hdecision], ?_⟩
  obtain ⟨id, hid, hserves⟩ | ⟨hid, hnone⟩ := hcases
  · refine ⟨fun id' hid' => ?_, fun hid' => ?_⟩
    · cases hid.symm.trans hid'
      exact Serves.enabled hserves
    · cases hid.symm.trans hid'
  · refine ⟨fun id' hid' => ?_, fun _ acct hacct => hnone acct hacct.mem⟩
    cases hid.symm.trans hid'

theorem selectSticky_sound (hoff : args.context.rotationEnabled = false)
    (hmanual : args.disposition ≠ .manual) (hsharded : args.disposition ≠ .sharded) :
    args.SoundNew (SelectArgs.selectSticky args.activePointer) := by
  unfold SelectArgs.selectSticky
  split
  case h_1 id hid =>
    refine ⟨?_, fun hid => (by cases hid)⟩
    rintro _ ⟨rfl⟩
    obtain ⟨-, hconnected⟩ := Option.filter_eq_some_iff.mp hid
    obtain ⟨acct, hmem, hid, henabled⟩ := connected_iff.mp hconnected
    exact ⟨acct, hmem, hid, henabled, fun hon => by rw [hoff] at hon; cases hon⟩
  case h_2 hnone =>
    refine ⟨fun id hid => (by cases hid), fun _ acct hacct heligible => ?_⟩
    have hactive : args.context.activeCredentialId = some acct.id := by
      cases hacct with
      | pin manual _ => exact absurd manual hmanual
      | shard sharded _ => exact absurd sharded hsharded
      | pointer _ _ _ active => exact active
      | ranker _ on _ => rw [hoff] at on; cases on
    have hconnected : args.connected acct.id = true :=
      connected_iff.mpr ⟨acct, hacct.mem, rfl, enabled_of_eligible heligible⟩
    simp [SelectArgs.activePointer, hactive, hconnected] at hnone

omit [DecidableEq ι] in
/-- What the disposition says of the pin. A pin is manual or stale outside the sharded policy, so
none is left for the branch that would keep it before the leases. -/
theorem disposition_cases (args : SelectArgs ι) :
    (args.disposition = .manual ∧ args.sessionPinnedCredentialId.isSome ∧ args.sessionPinSource ≠ some .policy) ∨
      (args.disposition = .sharded ∧ args.context.rotationEnabled = true ∧
        args.context.rotationStrategy = .sharded) ∨
      (args.disposition = .clearStale ∧ args.sessionPinSource = some .policy) ∨
      (args.disposition = .unpinned ∧ args.sessionPinnedCredentialId = none) := by
  unfold SelectArgs.disposition classifyCodexPin
  split
  case isTrue h => exact .inl ⟨rfl, h⟩
  case isFalse hmanual =>
    split
    case isTrue h => exact .inr (.inl ⟨rfl, h⟩)
    case isFalse =>
      split
      case isTrue h => exact .inr (.inr (.inl ⟨rfl, h.2⟩))
      case isFalse hstale =>
        refine .inr (.inr (.inr ⟨rfl, ?_⟩))
        cases hpin : args.sessionPinnedCredentialId with
        | none => rfl
        | some pin =>
          by_cases hsource : args.sessionPinSource = some .policy
          · exact absurd ⟨by simp [hpin], hsource⟩ hstale
          · exact absurd ⟨by simp [hpin], hsource⟩ hmanual

theorem selectFollowing_eq (h : args.disposition = .clearStale ∨ args.sessionPinnedCredentialId = none) :
    args.selectFollowing = if args.context.rotationEnabled then args.selectRanked
      else some (SelectArgs.selectSticky args.activePointer) := by
  unfold SelectArgs.selectFollowing
  obtain h | h := h <;> cases args.context.rotationEnabled <;> simp [h]

theorem selectFollowing_sound (hmanual : args.disposition ≠ .manual) (hsharded : args.disposition ≠ .sharded)
    (h : args.disposition = .clearStale ∨ args.sessionPinnedCredentialId = none) :
    ∃ selection, args.selectFollowing = some selection ∧ args.SoundNew selection := by
  rw [selectFollowing_eq h]
  split
  case isTrue => exact selectRanked_sound
  case isFalse hoff =>
    exact ⟨_, rfl, selectSticky_sound (by simpa using hoff) hmanual hsharded⟩

theorem selectNew_sound (args : SelectArgs ι) :
    ∃ selection, args.selectNew = some selection ∧ args.SoundNew selection := by
  unfold SelectArgs.selectNew
  obtain ⟨hmanual, hpin, -⟩ | ⟨hsharded, -⟩ | ⟨hstale, -⟩ | ⟨hunpinned, hpin⟩ := disposition_cases args
  · obtain ⟨pin, hpin⟩ := Option.isSome_iff_exists.mp hpin
    rw [hmanual, hpin]
    exact ⟨_, rfl, selectPinned_sound hmanual hpin⟩
  · rw [hsharded]
    exact selectSharded_sound
  · rw [hstale]
    exact selectFollowing_sound (by simp [hstale]) (by simp [hstale]) (.inl hstale)
  · rw [hunpinned]
    exact selectFollowing_sound (by simp [hunpinned]) (by simp [hunpinned]) (.inr hpin)

/-! ## The pins -/

theorem selectPinned_credentialId (args : SelectArgs ι) (pin : ι) :
    (args.selectPinned pin).credentialId = none ∨ (args.selectPinned pin).credentialId = some pin := by
  unfold SelectArgs.selectPinned
  split
  case h_1 => exact .inl rfl
  case h_2 pinned hpinned =>
    split
    case isTrue =>
      obtain ⟨hfound, -⟩ := Option.filter_eq_some_iff.mp hpinned
      exact .inr (congrArg some (findAccount_some hfound).2)
    case isFalse => exact .inl rfl

def SelectArgs.unpinned (args : SelectArgs ι) : SelectArgs ι := { args with sessionPinnedCredentialId := none }

theorem selectNew_unpinned (hpolicy : args.sessionPinSource = some .policy)
    (hregime : ¬ (args.context.rotationEnabled = true ∧ args.context.rotationStrategy = .sharded)) :
    args.selectNew = args.unpinned.selectNew := by
  have hfollow : ∀ args : SelectArgs ι, args.sessionPinSource = some .policy →
      ¬ (args.context.rotationEnabled = true ∧ args.context.rotationStrategy = .sharded) →
      args.selectNew = if args.context.rotationEnabled then args.selectRanked
        else some (SelectArgs.selectSticky args.activePointer) := by
    intro args hpolicy hregime
    obtain ⟨-, -, hsource⟩ | ⟨-, hsharded⟩ | ⟨hstale, -⟩ | ⟨hunpinned, hpin⟩ := disposition_cases args
    · exact absurd hpolicy hsource
    · exact absurd hsharded hregime
    · rw [← selectFollowing_eq (.inl hstale), SelectArgs.selectNew, hstale]
    · rw [← selectFollowing_eq (.inr hpin), SelectArgs.selectNew, hunpinned]
  rw [hfollow args hpolicy hregime, hfollow args.unpinned hpolicy hregime]
  rfl

/-! ## The selection -/

theorem select_cases (args : SelectArgs ι) : (∃ acct ∈ args.context.accounts, args.healthy acct = true ∧
        (args.context.existingCredentialId = some acct.id ∨ args.continuationCredentialId = some acct.id) ∧
        selectCodexCredentialLeaseForTurn args = some (args.continueOn acct)) ∨
      selectCodexCredentialLeaseForTurn args = args.selectNew := by
  unfold selectCodexCredentialLeaseForTurn
  split
  case h_1 existing hexisting =>
    obtain ⟨hmem, hid, hhealthy⟩ := healthyAccount_some hexisting
    exact .inl ⟨existing, hmem, hhealthy, .inl hid, rfl⟩
  case h_2 =>
    split
    case h_1 continuation hcontinuation =>
      obtain ⟨hmem, hid, hhealthy⟩ := healthyAccount_some hcontinuation
      exact .inl ⟨continuation, hmem, hhealthy, .inr hid, rfl⟩
    case h_2 => exact .inr rfl

theorem select_unpinned (hpolicy : args.sessionPinSource = some .policy)
    (hregime : ¬ (args.context.rotationEnabled = true ∧ args.context.rotationStrategy = .sharded)) :
    selectCodexCredentialLeaseForTurn args.unpinned = selectCodexCredentialLeaseForTurn args := by
  unfold selectCodexCredentialLeaseForTurn
  rw [selectNew_unpinned hpolicy hregime]
  rfl

/-- What a selection owes to the accounts and the pin of the session. -/
structure SelectArgs.Respects (args : SelectArgs ι) (selection : CodexTurnLeaseSelection ι) : Prop where
  listed : ∀ id, selection.credentialId = some id → ∃ acct ∈ args.context.accounts, acct.id = id
  /-- Leases or not: the legacy ranker is no less strict. -/
  healthy : args.context.rotationEnabled = true → ∀ id, selection.credentialId = some id →
    ∃ acct ∈ args.context.accounts, acct.id = id ∧ args.healthy acct = true ∧
      (acct.allocatorEnabled = true ∨ args.context.existingCredentialId = some id ∨
        args.continuationCredentialId = some id)
  pinned : ∀ pin, args.sessionPinnedCredentialId = some pin → args.sessionPinSource ≠ some .policy →
    selection.credentialId ∈ [none, some pin, args.context.existingCredentialId, args.continuationCredentialId]
  stale : args.sessionPinSource = some .policy →
    ¬ (args.context.rotationEnabled = true ∧ args.context.rotationStrategy = .sharded) →
      selectCodexCredentialLeaseForTurn args.unpinned = some selection
  idle : selection.credentialId = none → ∀ acct, args.Admits acct →
    ¬ isCodexCredentialEligible acct args.nearExhaustionPct args.now = true

theorem manual_selectNew (hpin : args.sessionPinnedCredentialId = some pin)
    (hsource : args.sessionPinSource ≠ some .policy) :
    args.selectNew = some (args.selectPinned pin) := by
  have hmanual : args.disposition = .manual := by
    simp [SelectArgs.disposition, classifyCodexPin, hpin, hsource]
  rw [SelectArgs.selectNew, hmanual, hpin]

/-- The selection never throws, and it respects the pin of the session and the accounts' health. -/
theorem credential_selection_respects (args : SelectArgs ι) :
    ∃ selection, selectCodexCredentialLeaseForTurn args = some selection ∧ args.Respects selection := by
  obtain ⟨acct, hmem, hhealthy, hturn, hselect⟩ | hselect := select_cases args
  · refine ⟨_, hselect, ?_, ?_, ?_, ?_, fun hnone => (by cases hnone)⟩
    · rintro _ ⟨rfl⟩
      exact ⟨acct, hmem, rfl⟩
    · rintro - _ ⟨rfl⟩
      exact ⟨acct, hmem, rfl, hhealthy, .inr hturn⟩
    · intro pin _ _
      obtain hexisting | hcontinuation := hturn
      · simp [SelectArgs.continueOn, hexisting]
      · simp [SelectArgs.continueOn, hcontinuation]
    · exact fun hpolicy hregime => (select_unpinned hpolicy hregime).trans hselect
  · obtain ⟨selection, hnew, hsound⟩ := selectNew_sound args
    have hselection := hselect.trans hnew
    refine ⟨selection, hselection, ?_, ?_, ?_, ?_, hsound.idle⟩
    · intro id hid
      obtain ⟨acct, hmem, hacct, -⟩ := hsound.enabled id hid
      exact ⟨acct, hmem, hacct⟩
    · intro hon id hid
      obtain ⟨acct, hmem, hacct, henabled, hhealthy⟩ := hsound.enabled id hid
      exact ⟨acct, hmem, hacct, hhealthy hon, .inl henabled⟩
    · intro pin hpin hsource
      cases (manual_selectNew hpin hsource).symm.trans hnew
      obtain hnone | hpinned := selectPinned_credentialId args pin
      · simp [hnone]
      · simp [hpinned]
    · exact fun hpolicy hregime => (select_unpinned hpolicy hregime).trans hselection

end

end OpenGeni.Worker
