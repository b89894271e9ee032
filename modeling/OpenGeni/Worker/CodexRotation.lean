/-
The ranker of the Codex accounts of a workspace.

A turn runs on an account that is eligible: connected, enabled for new work, not cooling down,
and below the threshold in both of its usage windows. A window whose reset has passed counts as
unused. Where no account is eligible the turn sleeps until the first instant at which one may be:
`earliestReset`, the least of the accounts' `availableAt`, each the last of what blocks it.

The two are read off the same cached row by different code, so they have to agree. They do up to
`availableAt` and, for an account in use whose windows all have a known reset, at it
(`serves_or_sleeps`). An account that waits for a new login gets the bounded default cooldown,
after which it is no more eligible than before (`relogin_not_awake`).
-/
import OpenGeni.Lib.JsString

namespace OpenGeni.Worker

open OpenGeni.Lib

/-! ## The accounts -/

inductive CodexRotationStrategy
  | mostRemaining | roundRobin | drainThenNext | sharded
deriving DecidableEq

inductive CodexCredentialStatus
  | active | needsRelogin | error
deriving DecidableEq

/-- The cached sample of a usage window, five hours or a week long. -/
structure UsageWindow where
  usedPercent : Option ℚ
  resetAt : Option ℤ

/-- The columns of an account that the ranker reads. Times are in milliseconds. -/
structure CodexRotationAccount (ι : Type) where
  id : ι
  status : CodexCredentialStatus
  allocatorEnabled : Bool
  primary : UsageWindow
  secondary : UsageWindow
  exhaustedUntil : Option ℤ
  connectorNamespaces : Option (List String)
  /-- The lease columns are absent from a row that was read without them. -/
  activeLeaseCount : Option ℕ
  selectionCount : Option ℕ
  lastSelectedAt : Option ℤ

inductive RotationDecision (ι : Type)
  | active (credentialId : ι) (moved : Bool) (droppedConnectors : List String)
  | allCapped (earliestResetAt : ℤ)
  | none
deriving DecidableEq

/-- `DEFAULT_RESET_COOLDOWN_MS`. -/
def defaultResetCooldownMs : ℤ := 60000

section

variable {ι : Type}

/-! ## Who is eligible -/

/-- A window whose reset has passed is unused, whatever the last sample says. -/
def effectiveWindowUsed (window : UsageWindow) (now : ℤ) : ℚ :=
  if window.resetAt.any fun resetAt => resetAt ≤ now then 0 else window.usedPercent.getD 0

def bindingUsedPct (acct : CodexRotationAccount ι) (now : ℤ) : ℚ :=
  max (effectiveWindowUsed acct.primary now) (effectiveWindowUsed acct.secondary now)

def bindingRemaining (acct : CodexRotationAccount ι) (now : ℤ) : ℚ :=
  min (100 - effectiveWindowUsed acct.primary now) (100 - effectiveWindowUsed acct.secondary now)

def cooling (acct : CodexRotationAccount ι) (now : ℤ) : Bool :=
  acct.exhaustedUntil.any fun exhaustedUntil => now < exhaustedUntil

def covers (acct : CodexRotationAccount ι) (usedConnectors : List String) : Bool := usedConnectors.isEmpty ||
    acct.connectorNamespaces.any fun owned => usedConnectors.all fun connector => owned.contains connector

def droppedConnectorsFor (acct : CodexRotationAccount ι) (usedConnectors : List String) : List String :=
  match acct.connectorNamespaces with
  | none => usedConnectors
  | some owned => usedConnectors.filter fun connector => !owned.contains connector

def isCodexCredentialHealthy (acct : CodexRotationAccount ι) (nearExhaustionPct : ℚ) (now : ℤ) : Bool :=
  acct.status == .active && !cooling acct now && decide (bindingUsedPct acct now < nearExhaustionPct)

def isCodexCredentialEligible (acct : CodexRotationAccount ι) (nearExhaustionPct : ℚ) (now : ℤ) : Bool :=
  acct.allocatorEnabled && isCodexCredentialHealthy acct nearExhaustionPct now

/-! ## When an account may be eligible again -/

/-- What a window at the threshold adds: its reset, or the default where none is ahead. -/
def windowClear (window : UsageWindow) (nearExhaustionPct : ℚ) (now : ℤ) : List ℤ :=
  if nearExhaustionPct ≤ effectiveWindowUsed window now then
    [(window.resetAt.filter fun resetAt => now < resetAt).getD (now + defaultResetCooldownMs)]
  else []

/-- A cooldown that is over does not block, as in `cooling`. -/
def cooldownClear (acct : CodexRotationAccount ι) (now : ℤ) : List ℤ :=
  (acct.exhaustedUntil.filter fun exhaustedUntil => now < exhaustedUntil).toList

def blockClears (acct : CodexRotationAccount ι) (nearExhaustionPct : ℚ) (now : ℤ) : List ℤ :=
  cooldownClear acct now ++ windowClear acct.primary nearExhaustionPct now ++
    windowClear acct.secondary nearExhaustionPct now

def availableAt (acct : CodexRotationAccount ι) (nearExhaustionPct : ℚ) (now : ℤ) : ℤ :=
  (blockClears acct nearExhaustionPct now).max?.getD (now + defaultResetCooldownMs)

/-- `none` throws: `reduce` of no element. -/
def earliestReset (accounts : List (CodexRotationAccount ι)) (nearExhaustionPct : ℚ) (now : ℤ) : Option ℤ :=
  (accounts.map fun acct => availableAt acct nearExhaustionPct now).min?

/-! ## The sharded home -/

def fnv1a32 (input : CodeUnits) : UInt32 :=
  input.foldl (fun hash unit => (hash ^^^ UInt32.ofNat unit) * 0x01000193) 0x811c9dc5

def shardCredentialForSession (sessionId : CodeUnits) (accounts : List (CodexRotationAccount ι))
    (nearExhaustionPct : ℚ) (now : ℤ) : Option ι :=
  let eligibles := accounts.filter fun acct => isCodexCredentialEligible acct nearExhaustionPct now
  if eligibles.length = 0 then none
  else (eligibles[(fnv1a32 sessionId).toNat % eligibles.length]?).map (·.id)

inductive ShardedHome (ι : Type)
  | home (credentialId : ι) (rewritePin : Bool)
  | allCapped (earliestResetAt : ℤ)

variable [DecidableEq ι]

def findAccount (accounts : List (CodexRotationAccount ι)) (id : ι) : Option (CodexRotationAccount ι) :=
  accounts.find? fun acct => acct.id == id

/-- The sleep counts the accounts that are not enabled as well, other than the ranker's. -/
def chooseShardedHome (sessionId : CodeUnits) (currentPolicyPin : Option ι)
    (accounts : List (CodexRotationAccount ι)) (nearExhaustionPct : ℚ) (now : ℤ) : Option (ShardedHome ι) :=
  match (currentPolicyPin.bind (findAccount accounts)).filter fun pinRow =>
      isCodexCredentialEligible pinRow nearExhaustionPct now with
  | some pinRow => some (.home pinRow.id false)
  | none =>
    match shardCredentialForSession sessionId accounts nearExhaustionPct now with
    | none => (earliestReset accounts nearExhaustionPct now).map .allCapped
    | some home => some (.home home true)

/-! ## The ranker -/

/-- The tie breaks of `most_remaining`: whether `acct` takes the place of `best`. -/
def ranksBefore (now : ℤ) (acct best : CodexRotationAccount ι) : Bool :=
  let activeLeases (acct : CodexRotationAccount ι) := acct.activeLeaseCount.getD 0
  let selections (acct : CodexRotationAccount ι) := acct.selectionCount.getD 0
  let lastSelected (acct : CodexRotationAccount ι) := acct.lastSelectedAt.getD 0
  if activeLeases acct ≠ activeLeases best then activeLeases acct < activeLeases best
  else if bindingRemaining acct now ≠ bindingRemaining best now then
    bindingRemaining best now < bindingRemaining acct now
  else if selections acct ≠ selections best then selections acct < selections best
  else lastSelected acct < lastSelected best

def pickRanked (now : ℤ) (pool : List (CodexRotationAccount ι)) : Option (CodexRotationAccount ι) :=
  pool.foldl (fun best? acct =>
    match best? with
    | none => some acct
    | some best => if ranksBefore now acct best then some acct else some best) none

structure RankArgs (ι : Type) where
  rotationStrategy : CodexRotationStrategy
  activeCredentialId : Option ι
  priorCredentialId : Option ι
  accounts : List (CodexRotationAccount ι)
  nearExhaustionPct : ℚ
  now : ℤ
  usedConnectors : List String

def RankArgs.allocatable (args : RankArgs ι) : List (CodexRotationAccount ι) :=
  args.accounts.filter (·.allocatorEnabled)

def RankArgs.eligible (args : RankArgs ι) (acct : CodexRotationAccount ι) : Bool :=
  isCodexCredentialEligible acct args.nearExhaustionPct args.now

/-- The accounts from the one after the prior account on, and round to it. -/
def RankArgs.ordered (args : RankArgs ι) : List (CodexRotationAccount ι) :=
  match args.priorCredentialId.bind fun prior => args.allocatable.findIdx? fun acct => acct.id == prior with
  | some priorIdx => args.allocatable.drop (priorIdx + 1) ++ args.allocatable.take (priorIdx + 1)
  | none => args.allocatable

def RankArgs.eligibles (args : RankArgs ι) : List (CodexRotationAccount ι) := args.allocatable.filter args.eligible

/-- The accounts that cover the connectors, or all of them where none does. -/
def RankArgs.pool (args : RankArgs ι) : List (CodexRotationAccount ι) :=
  let covering := args.eligibles.filter fun acct => covers acct args.usedConnectors
  if covering.length > 0 then covering else args.eligibles

def RankArgs.chosen (args : RankArgs ι) : Option (CodexRotationAccount ι) := match args.rotationStrategy with
  | .roundRobin => args.ordered.find? args.eligible
  | .drainThenNext =>
    match (args.priorCredentialId.bind (findAccount args.accounts)).filter args.eligible with
    | some priorRow => some priorRow
    | none => args.eligibles.head?
  | .mostRemaining | .sharded => pickRanked args.now args.pool

def RankArgs.decide (args : RankArgs ι) : Option (CodexRotationAccount ι) → Option (RotationDecision ι)
  | none => (earliestReset args.allocatable args.nearExhaustionPct args.now).map .allCapped
  | some chosen =>
    some (.active chosen.id (some chosen.id != args.activeCredentialId)
      (droppedConnectorsFor chosen args.usedConnectors))

def chooseRotationActive (args : RankArgs ι) : Option (RotationDecision ι) :=
  if args.allocatable.length = 0 then some .none else args.decide args.chosen

def CodexRotationAccount.withoutLeases (acct : CodexRotationAccount ι) : CodexRotationAccount ι :=
  { acct with activeLeaseCount := some 0, selectionCount := some 0, lastSelectedAt := none }

def chooseLegacyRotationActive (args : RankArgs ι) : Option (RotationDecision ι) :=
  match if args.rotationStrategy = .mostRemaining then
      (args.activeCredentialId.bind (findAccount args.accounts)).filter args.eligible
    else none with
  | some active => some (.active active.id false [])
  | none => chooseRotationActive { args with accounts := args.accounts.map (·.withoutLeases) }

end

/-! ## What blocks an account -/

section

variable {ι : Type} {window : UsageWindow} {acct : CodexRotationAccount ι}
variable {accounts : List (CodexRotationAccount ι)} {args : RankArgs ι} {pct : ℚ} {now t : ℤ}

theorem eligible_iff : isCodexCredentialEligible acct pct now = true ↔
    acct.allocatorEnabled = true ∧ acct.status = .active ∧ cooling acct now = false ∧
      effectiveWindowUsed acct.primary now < pct ∧ effectiveWindowUsed acct.secondary now < pct := by
  simp [isCodexCredentialEligible, isCodexCredentialHealthy, bindingUsedPct, and_assoc]

variable {r clear : ℤ} {waited : List (CodexRotationAccount ι)}

theorem effectiveWindowUsed_elapsed (hr : window.resetAt = some r) (h : r ≤ t) :
    effectiveWindowUsed window t = 0 := by
  simp [effectiveWindowUsed, hr, h]

theorem effectiveWindowUsed_ahead (hr : window.resetAt = some r) (h : t < r) :
    effectiveWindowUsed window t = window.usedPercent.getD 0 := by
  simp [effectiveWindowUsed, hr, h]

theorem effectiveWindowUsed_unknown (hr : window.resetAt = none) :
    effectiveWindowUsed window t = window.usedPercent.getD 0 := by
  simp [effectiveWindowUsed, hr]

theorem windowClear_blocks (h : clear ∈ windowClear window pct now) (hnow : now < t)
    (ht : t < clear) : pct ≤ effectiveWindowUsed window t := by
  unfold windowClear at h
  split at h
  case isFalse => simp at h
  case isTrue hover =>
    cases hr : window.resetAt with
    | none => rwa [effectiveWindowUsed_unknown hr] at hover ⊢
    | some r =>
      by_cases hpast : r ≤ now
      · rw [effectiveWindowUsed_elapsed hr hpast] at hover
        rwa [effectiveWindowUsed_elapsed hr (hpast.trans hnow.le)]
      · have hahead : now < r := by omega
        have hclear : clear = r := by simpa [hr, hahead, Option.filter] using h
        rw [effectiveWindowUsed_ahead hr hahead] at hover
        rwa [effectiveWindowUsed_ahead hr (by omega)]

def BlockedUnknown (window : UsageWindow) (pct : ℚ) : Prop :=
  window.resetAt = none ∧ pct ≤ window.usedPercent.getD 0

theorem windowClear_clears (hpct : 0 < pct) (hnow : now < t) (h : ∀ clear ∈ windowClear window pct now, clear ≤ t) :
    effectiveWindowUsed window t < pct ∨ BlockedUnknown window pct := by
  cases hr : window.resetAt with
  | none =>
    rw [effectiveWindowUsed_unknown hr]
    exact (lt_or_ge _ _).imp_right fun hover => ⟨hr, hover⟩
  | some r =>
    left
    by_cases hpast : r ≤ t
    · rwa [effectiveWindowUsed_elapsed hr hpast]
    · have hahead : now < r := by omega
      rw [effectiveWindowUsed_ahead hr (by omega)]
      by_contra hover
      have hclear : r ∈ windowClear window pct now := by
        simp [windowClear, effectiveWindowUsed_ahead hr hahead, not_lt.mp hover, hr, hahead, Option.filter]
      exact hpast (h r hclear)

theorem cooldownClear_blocks (h : clear ∈ cooldownClear acct now) (ht : t < clear) : cooling acct t = true := by
  obtain ⟨hsome, -⟩ : acct.exhaustedUntil = some clear ∧ now < clear := by
    simpa [cooldownClear] using h
  simpa [cooling, hsome] using ht

theorem cooldownClear_clears (hnow : now < t) (h : ∀ clear ∈ cooldownClear acct now, clear ≤ t) :
    cooling acct t = false := by
  cases hs : acct.exhaustedUntil with
  | none => simp [cooling, hs]
  | some until_ =>
    by_cases hpast : until_ ≤ now
    · simp only [cooling, hs, Option.any_some, decide_eq_false_iff_not]
      omega
    · have := h until_ (by simp [cooldownClear, hs]; omega)
      simp only [cooling, hs, Option.any_some, decide_eq_false_iff_not]
      omega

/-! ## The instant an account is available -/

theorem blockClears_ahead (h : clear ∈ blockClears acct pct now) : now < clear := by
  have hwindow : ∀ window : UsageWindow, clear ∈ windowClear window pct now → now < clear := by
    intro window hmem
    unfold windowClear at hmem
    split at hmem
    case isFalse => simp at hmem
    case isTrue =>
      rw [List.mem_singleton.mp hmem]
      cases hf : window.resetAt.filter fun resetAt => now < resetAt with
      | none => simp [defaultResetCooldownMs]
      | some r => simpa using (Option.filter_eq_some_iff.mp hf).2
  simp only [blockClears, List.mem_append] at h
  obtain (hcool | hprimary) | hsecondary := h
  · have : acct.exhaustedUntil = some clear ∧ now < clear := by
      simpa [cooldownClear] using hcool
    exact this.2
  · exact hwindow _ hprimary
  · exact hwindow _ hsecondary

theorem availableAt_ahead : now < availableAt acct pct now := by
  unfold availableAt
  cases hmax : (blockClears acct pct now).max? with
  | none => simp [defaultResetCooldownMs]
  | some clear => exact blockClears_ahead (List.max?_mem hmax)

theorem le_availableAt (h : clear ∈ blockClears acct pct now) : clear ≤ availableAt acct pct now := by
  cases hmax : (blockClears acct pct now).max? with
  | none => simp [List.max?_eq_none_iff.mp hmax] at h
  | some last =>
    have := (List.max?_eq_some_iff.mp hmax).2 clear h
    simpa [availableAt, hmax] using this

theorem not_eligible_before (hnot : ¬ isCodexCredentialEligible acct pct now = true) (hnow : now < t)
    (ht : t < availableAt acct pct now) : ¬ isCodexCredentialEligible acct pct t = true := by
  intro heligible
  obtain ⟨henabled, hactive, hcool, hprimary, hsecondary⟩ := eligible_iff.mp heligible
  cases hmax : (blockClears acct pct now).max? with
  | none =>
    -- nothing blocks it, so it is eligible at once
    have hnil := List.max?_eq_none_iff.mp hmax
    simp only [blockClears, List.append_eq_nil_iff] at hnil
    obtain ⟨⟨hcool', hprimary'⟩, hsecondary'⟩ := hnil
    have hbelow : ∀ window : UsageWindow, windowClear window pct now = [] →
        effectiveWindowUsed window now < pct := by
      intro window hnil
      simpa [windowClear] using hnil
    refine hnot (eligible_iff.mpr ⟨henabled, hactive, ?_, hbelow _ hprimary', hbelow _ hsecondary'⟩)
    cases hs : acct.exhaustedUntil <;> simp_all [cooling, cooldownClear]
  | some last =>
    have hlast : t < last := by simpa [availableAt, hmax] using ht
    have hmem : last ∈ blockClears acct pct now := List.max?_mem hmax
    simp only [blockClears, List.mem_append] at hmem
    obtain (hmem | hmem) | hmem := hmem
    · rw [cooldownClear_blocks hmem hlast] at hcool
      cases hcool
    · exact absurd hprimary (not_lt.mpr (windowClear_blocks hmem hnow hlast))
    · exact absurd hsecondary (not_lt.mpr (windowClear_blocks hmem hnow hlast))

def Unusable (pct : ℚ) (acct : CodexRotationAccount ι) : Prop :=
  acct.status ≠ .active ∨ BlockedUnknown acct.primary pct ∨ BlockedUnknown acct.secondary pct

theorem eligible_at_availableAt (hpct : 0 < pct) (henabled : acct.allocatorEnabled = true) :
    isCodexCredentialEligible acct pct (availableAt acct pct now) = true ∨ Unusable pct acct := by
  have hahead : now < availableAt acct pct now := availableAt_ahead
  have hclears : ∀ clear ∈ blockClears acct pct now, clear ≤ availableAt acct pct now := fun clear => le_availableAt
  simp only [blockClears, List.mem_append] at hclears
  have hcool := cooldownClear_clears hahead fun clear h => hclears clear (.inl (.inl h))
  have hprimary := windowClear_clears hpct hahead fun clear h => hclears clear (.inl (.inr h))
  have hsecondary := windowClear_clears hpct hahead fun clear h => hclears clear (.inr h)
  by_cases hactive : acct.status = .active
  case neg => exact .inr (.inl hactive)
  obtain hprimary | hunknown := hprimary
  case inr => exact .inr (.inr (.inl hunknown))
  obtain hsecondary | hunknown := hsecondary
  case inr => exact .inr (.inr (.inr hunknown))
  exact .inl (eligible_iff.mpr ⟨henabled, hactive, hcool, hprimary, hsecondary⟩)

/-! ## Serving and sleeping -/

def Serves (accounts : List (CodexRotationAccount ι)) (pct : ℚ) (now : ℤ) (id : ι) : Prop :=
  ∃ acct ∈ accounts, acct.id = id ∧ isCodexCredentialEligible acct pct now = true

/-- Nobody is eligible before `wake`. An account of `waited` sets it, and one that does is eligible
then, unless it is excused. -/
structure Sleeps (accounts waited : List (CodexRotationAccount ι)) (pct : ℚ) (now : ℤ)
    (Excused : CodexRotationAccount ι → Prop) (wake : ℤ) : Prop where
  ahead : now < wake
  nobody_before : ∀ t, now < t → t < wake → ∀ acct ∈ accounts, ¬ isCodexCredentialEligible acct pct t = true
  set_by : ∃ acct ∈ waited, availableAt acct pct now = wake
  eligible_then : 0 < pct → ∀ acct ∈ waited, availableAt acct pct now = wake →
    isCodexCredentialEligible acct pct wake = true ∨ Excused acct

theorem mem_allocatable : acct ∈ args.allocatable ↔ acct ∈ args.accounts ∧ acct.allocatorEnabled = true := by
  simp [RankArgs.allocatable]

theorem enabled_of_eligible (h : isCodexCredentialEligible acct pct now = true) :
    acct.allocatorEnabled = true := (eligible_iff.mp h).1

theorem earliestReset_sleeps (Excused : CodexRotationAccount ι → Prop) (hne : waited ≠ [])
    (hwaited : ∀ acct ∈ accounts, acct.allocatorEnabled = true → acct ∈ waited)
    (hnone : ∀ acct ∈ accounts, ¬ isCodexCredentialEligible acct pct now = true)
    (hexcused : ∀ acct ∈ waited, acct.allocatorEnabled = true ∧ Unusable pct acct ∨
      acct.allocatorEnabled = false → Excused acct) :
    ∃ wake, earliestReset waited pct now = some wake ∧ Sleeps accounts waited pct now Excused wake := by
  obtain ⟨wake, hwake⟩ : ∃ wake, earliestReset waited pct now = some wake := by
    rw [← Option.isSome_iff_exists, earliestReset, List.isSome_min?_iff]
    simpa using hne
  obtain ⟨hmem, hleast⟩ := List.min?_eq_some_iff.mp hwake
  obtain ⟨setter, hsetter, hset⟩ := List.mem_map.mp hmem
  refine ⟨wake, hwake, ?_, ?_, ⟨setter, hsetter, hset⟩, ?_⟩
  · rw [← hset]
    exact availableAt_ahead
  · intro t hnow ht acct hacct heligible
    have hle := hleast _ (List.mem_map_of_mem (hwaited acct hacct (enabled_of_eligible heligible)))
    exact not_eligible_before (hnone acct hacct) hnow (lt_of_lt_of_le ht hle) heligible
  · rintro hpct acct hacct rfl
    cases henabled : acct.allocatorEnabled with
    | false => exact .inr (hexcused acct hacct (.inr henabled))
    | true =>
      exact (eligible_at_availableAt hpct henabled).imp_right fun h =>
        hexcused acct hacct (.inl ⟨henabled, h⟩)

/-! ## What the strategies choose -/

theorem pickRanked_cases (now : ℤ) (pool : List (CodexRotationAccount ι)) :
    pool = [] ∧ pickRanked now pool = none ∨ ∃ acct ∈ pool, pickRanked now pool = some acct := by
  have hfold : ∀ (rest : List (CodexRotationAccount ι)) (best : CodexRotationAccount ι),
      ∃ acct ∈ best :: rest, rest.foldl (fun best? acct =>
        match best? with
        | none => some acct
        | some best => if ranksBefore now acct best then some acct else some best) (some best) = some acct := by
    intro rest
    induction rest with
    | nil => exact fun best => ⟨best, by simp, rfl⟩
    | cons next rest ih =>
      intro best
      simp only [List.foldl_cons]
      split
      · obtain ⟨acct, hacct, hpick⟩ := ih next
        exact ⟨acct, List.mem_cons_of_mem _ hacct, hpick⟩
      · obtain ⟨acct, hacct, hpick⟩ := ih best
        refine ⟨acct, ?_, hpick⟩
        simp only [List.mem_cons] at hacct ⊢
        tauto
  cases pool with
  | nil => exact .inl ⟨rfl, rfl⟩
  | cons first rest => exact .inr (hfold rest first)

theorem mem_eligibles : acct ∈ args.eligibles ↔ acct ∈ args.accounts ∧ args.eligible acct = true := by
  rw [RankArgs.eligibles, List.mem_filter, mem_allocatable, and_assoc]
  exact and_congr_right fun _ => and_iff_right_of_imp enabled_of_eligible

theorem mem_eligibles_of_mem_pool (h : acct ∈ args.pool) : acct ∈ args.eligibles := by
  simp only [RankArgs.pool] at h
  split at h
  · exact (List.mem_filter.mp h).1
  · exact h

theorem eligibles_of_pool_nil (h : args.pool = []) : args.eligibles = [] := by
  simp only [RankArgs.pool] at h
  split at h
  case isTrue hlong => simp [h] at hlong
  case isFalse => exact h

theorem not_eligible_of_eligibles_nil (h : args.eligibles = []) :
    ∀ acct ∈ args.accounts, ¬ isCodexCredentialEligible acct args.nearExhaustionPct args.now = true := by
  intro acct hacct heligible
  have := mem_eligibles.mpr ⟨hacct, heligible⟩
  rw [h] at this
  cases this

/-- The result is an eligible account where there is one, and else a sound sleep. -/
def ServesOrSleeps (accounts waited : List (CodexRotationAccount ι)) (pct : ℚ) (now : ℤ)
    (Excused : CodexRotationAccount ι → Prop) (served : ι → Prop) (slept : ℤ → Prop) : Prop :=
  (∃ id, served id ∧ Serves accounts pct now id) ∨
    ((∀ acct ∈ accounts, ¬ isCodexCredentialEligible acct pct now = true) ∧
      ∃ wake, slept wake ∧ Sleeps accounts waited pct now Excused wake)

theorem ServesOrSleeps.of_withoutLeases {served : ι → Prop} {slept : ℤ → Prop}
    (h : ServesOrSleeps (accounts.map (·.withoutLeases)) (waited.map (·.withoutLeases)) pct now (Unusable pct)
      served slept) :
    ServesOrSleeps accounts waited pct now (Unusable pct) served slept := by
  have heligible : ∀ (acct : CodexRotationAccount ι) (t : ℤ),
      isCodexCredentialEligible acct.withoutLeases pct t = isCodexCredentialEligible acct pct t :=
    fun _ _ => rfl
  have hmap : ∀ {acct : CodexRotationAccount ι} {accounts : List (CodexRotationAccount ι)},
      acct ∈ accounts → acct.withoutLeases ∈ accounts.map (·.withoutLeases) :=
    fun h => List.mem_map.mpr ⟨_, h, rfl⟩
  obtain ⟨id, hserved, found, hfound, hid, hfit⟩ | ⟨hnone, wake, hslept, hsleeps⟩ := h
  · obtain ⟨acct, hacct, rfl⟩ := List.mem_map.mp hfound
    exact .inl ⟨id, hserved, acct, hacct, hid, (heligible acct now).symm.trans hfit⟩
  · refine .inr ⟨fun acct hacct => hnone acct.withoutLeases (hmap hacct), wake, hslept, hsleeps.ahead, ?_, ?_, ?_⟩
    · exact fun t hnow ht acct hacct => hsleeps.nobody_before t hnow ht acct.withoutLeases (hmap hacct)
    · obtain ⟨setter, hsetter, hset⟩ := hsleeps.set_by
      obtain ⟨acct, hacct, rfl⟩ := List.mem_map.mp hsetter
      exact ⟨acct, hacct, hset⟩
    · exact fun hpct acct hacct hset => hsleeps.eligible_then hpct acct.withoutLeases (hmap hacct) hset

def Active (decision : Option (RotationDecision ι)) (id : ι) : Prop :=
  ∃ moved dropped, decision = some (.active id moved dropped)

def AllCapped (decision : Option (RotationDecision ι)) (wake : ℤ) : Prop := decision = some (.allCapped wake)

variable [DecidableEq ι]

theorem findAccount_some {id : ι} (h : findAccount accounts id = some acct) : acct ∈ accounts ∧ acct.id = id :=
  ⟨List.mem_of_find?_eq_some h, by simpa using List.find?_some h⟩

theorem mem_ordered : acct ∈ args.ordered ↔ acct ∈ args.allocatable := by
  unfold RankArgs.ordered
  split
  case h_2 => rfl
  case h_1 i _ =>
    rw [List.mem_append, or_comm, ← List.mem_append, List.take_append_drop]

theorem chosen_some (h : args.chosen = some acct) : acct ∈ args.accounts ∧ args.eligible acct = true := by
  unfold RankArgs.chosen at h
  split at h
  · exact ⟨(mem_allocatable.mp (mem_ordered.mp (List.mem_of_find?_eq_some h))).1, List.find?_some h⟩
  · split at h
    case h_1 prior hprior =>
      obtain ⟨hfound, heligible⟩ := Option.filter_eq_some_iff.mp hprior
      obtain ⟨id, -, hid⟩ := Option.bind_eq_some_iff.mp hfound
      cases h
      exact ⟨(findAccount_some hid).1, heligible⟩
    case h_2 => exact mem_eligibles.mp (List.mem_of_head? h)
  all_goals
    obtain ⟨-, hnone⟩ | ⟨picked, hpicked, hsome⟩ := pickRanked_cases args.now args.pool
    · rw [hnone] at h
      cases h
    · cases h.symm.trans hsome
      exact mem_eligibles.mp (mem_eligibles_of_mem_pool hpicked)

theorem chosen_none (h : args.chosen = none) : args.eligibles = [] := by
  unfold RankArgs.chosen at h
  split at h
  · have hnone := List.find?_eq_none.mp h
    exact List.filter_eq_nil_iff.mpr fun acct hacct => hnone acct (mem_ordered.mpr hacct)
  · split at h
    case h_1 => cases h
    case h_2 => exact List.head?_eq_none_iff.mp h
  all_goals
    obtain ⟨hnil, -⟩ | ⟨picked, -, hsome⟩ := pickRanked_cases args.now args.pool
    · exact eligibles_of_pool_nil hnil
    · cases h.symm.trans hsome

/-! ## The three choices -/

theorem chooseRotationActive_serves_or_sleeps (henabled : ∃ acct ∈ args.accounts, acct.allocatorEnabled = true) :
    ServesOrSleeps args.accounts args.allocatable args.nearExhaustionPct args.now
      (Unusable args.nearExhaustionPct) (Active (chooseRotationActive args))
      (AllCapped (chooseRotationActive args)) := by
  obtain ⟨enabled, hmem, henabled⟩ := henabled
  have hne : args.allocatable ≠ [] := List.ne_nil_of_mem (mem_allocatable.mpr ⟨hmem, henabled⟩)
  have hchoose : chooseRotationActive args = args.decide args.chosen := by
    simp [chooseRotationActive, hne]
  cases hchosen : args.chosen with
  | some acct =>
    obtain ⟨hacct, heligible⟩ := chosen_some hchosen
    refine .inl ⟨acct.id, ?_, acct, hacct, rfl, heligible⟩
    rw [hchoose, hchosen]
    exact ⟨_, _, rfl⟩
  | none =>
    have hnone := not_eligible_of_eligibles_nil (chosen_none hchosen)
    obtain ⟨wake, hwake, hsleeps⟩ := earliestReset_sleeps (Unusable args.nearExhaustionPct) hne
      (fun acct hacct h => mem_allocatable.mpr ⟨hacct, h⟩) hnone
      (fun acct hacct h => by
        have := (mem_allocatable.mp hacct).2
        simp_all)
    refine .inr ⟨hnone, wake, ?_, hsleeps⟩
    rw [AllCapped, hchoose, hchosen, RankArgs.decide, hwake]
    rfl

theorem chooseLegacyRotationActive_serves_or_sleeps
    (henabled : ∃ acct ∈ args.accounts, acct.allocatorEnabled = true) :
    ServesOrSleeps args.accounts args.allocatable args.nearExhaustionPct args.now
      (Unusable args.nearExhaustionPct) (Active (chooseLegacyRotationActive args))
      (AllCapped (chooseLegacyRotationActive args)) := by
  unfold chooseLegacyRotationActive
  split
  case h_1 active hactive =>
    split at hactive
    case isFalse => cases hactive
    case isTrue =>
      obtain ⟨hfound, heligible⟩ := Option.filter_eq_some_iff.mp hactive
      obtain ⟨id, -, hid⟩ := Option.bind_eq_some_iff.mp hfound
      have hmem := (findAccount_some hid).1
      exact .inl ⟨active.id, ⟨_, _, rfl⟩, active, hmem, rfl, heligible⟩
  case h_2 =>
    apply ServesOrSleeps.of_withoutLeases
    have hwaited : args.allocatable.map (·.withoutLeases) =
        ({ args with accounts := args.accounts.map (·.withoutLeases) } : RankArgs ι).allocatable := by
      simp only [RankArgs.allocatable, List.filter_map]
      rfl
    rw [hwaited]
    obtain ⟨enabled, hmem, henabled⟩ := henabled
    exact @chooseRotationActive_serves_or_sleeps ι { args with accounts := args.accounts.map (·.withoutLeases) } _
      ⟨_, List.mem_map_of_mem hmem, henabled⟩

omit [DecidableEq ι] in
theorem shardCredentialForSession_cases (sessionId : CodeUnits) (accounts : List (CodexRotationAccount ι))
    (pct : ℚ) (now : ℤ) :
    (shardCredentialForSession sessionId accounts pct now = none ∧
        ∀ acct ∈ accounts, ¬ isCodexCredentialEligible acct pct now = true) ∨
      ∃ id, shardCredentialForSession sessionId accounts pct now = some id ∧ Serves accounts pct now id := by
  unfold shardCredentialForSession
  dsimp only
  split
  case isTrue hlen =>
    exact .inl ⟨rfl, List.filter_eq_nil_iff.mp (List.length_eq_zero_iff.mp hlen)⟩
  case isFalse hlen =>
    have hlt := Nat.mod_lt (fnv1a32 sessionId).toNat (Nat.pos_of_ne_zero hlen)
    obtain ⟨hmem, heligible⟩ := List.mem_filter.mp (List.getElem_mem hlt)
    rw [List.getElem?_eq_getElem hlt]
    exact .inr ⟨_, rfl, _, hmem, rfl, heligible⟩

def Home (home : Option (ShardedHome ι)) (id : ι) : Prop := ∃ rewritePin, home = some (.home id rewritePin)

theorem chooseShardedHome_serves_or_sleeps (sessionId : CodeUnits) (pin : Option ι) (pct : ℚ) (now : ℤ)
    (hne : accounts ≠ []) :
    ServesOrSleeps accounts accounts pct now (fun acct => acct.allocatorEnabled = false ∨ Unusable pct acct)
      (Home (chooseShardedHome sessionId pin accounts pct now))
      (fun wake => chooseShardedHome sessionId pin accounts pct now = some (.allCapped wake)) := by
  unfold chooseShardedHome
  split
  case h_1 pinRow hpin =>
    obtain ⟨hfound, heligible⟩ := Option.filter_eq_some_iff.mp hpin
    obtain ⟨id, -, hid⟩ := Option.bind_eq_some_iff.mp hfound
    have hmem := (findAccount_some hid).1
    exact .inl ⟨pinRow.id, ⟨_, rfl⟩, pinRow, hmem, rfl, heligible⟩
  case h_2 =>
    obtain ⟨hshard, hnone⟩ | ⟨id, hshard, hserves⟩ := shardCredentialForSession_cases sessionId accounts pct now
    · obtain ⟨wake, hwake, hsleeps⟩ := earliestReset_sleeps
        (fun acct => acct.allocatorEnabled = false ∨ Unusable pct acct) hne
        (fun acct hacct _ => hacct) hnone
        (fun acct _ h => h.elim (fun h => .inr h.2) .inl)
      refine .inr ⟨hnone, wake, ?_, hsleeps⟩
      rw [hshard, hwake]
      rfl
    · rw [hshard]
      exact .inl ⟨id, ⟨_, rfl⟩, hserves⟩

theorem chooseRotationActive_none (hoff : ∀ acct ∈ args.accounts, ¬ acct.allocatorEnabled = true) :
    chooseRotationActive args = some .none := by
  have hnil : args.allocatable = [] := List.filter_eq_nil_iff.mpr hoff
  simp [chooseRotationActive, hnil]

theorem chooseLegacyRotationActive_none (hoff : ∀ acct ∈ args.accounts, ¬ acct.allocatorEnabled = true) :
    chooseLegacyRotationActive args = some .none := by
  unfold chooseLegacyRotationActive
  split
  case h_1 active hactive =>
    split at hactive
    case isFalse => cases hactive
    case isTrue =>
      obtain ⟨hfound, heligible⟩ := Option.filter_eq_some_iff.mp hactive
      obtain ⟨id, -, hid⟩ := Option.bind_eq_some_iff.mp hfound
      exact absurd (enabled_of_eligible heligible) (hoff _ (findAccount_some hid).1)
  case h_2 =>
    apply chooseRotationActive_none
    intro found hfound
    obtain ⟨acct, hacct, rfl⟩ := List.mem_map.mp hfound
    exact hoff acct hacct

/-- The three choices serve where they can, and else they sleep as long as they have to. -/
theorem rotation_serves_or_sleeps (args : RankArgs ι) (sessionId : CodeUnits) (currentPolicyPin : Option ι)
    (henabled : ∃ acct ∈ args.accounts, acct.allocatorEnabled = true) :
    ServesOrSleeps args.accounts args.allocatable args.nearExhaustionPct args.now
        (Unusable args.nearExhaustionPct) (Active (chooseRotationActive args))
        (AllCapped (chooseRotationActive args)) ∧
      ServesOrSleeps args.accounts args.allocatable args.nearExhaustionPct args.now
        (Unusable args.nearExhaustionPct) (Active (chooseLegacyRotationActive args))
        (AllCapped (chooseLegacyRotationActive args)) ∧
      ServesOrSleeps args.accounts args.accounts args.nearExhaustionPct args.now
        (fun acct => acct.allocatorEnabled = false ∨ Unusable args.nearExhaustionPct acct)
        (Home (chooseShardedHome sessionId currentPolicyPin args.accounts args.nearExhaustionPct args.now))
        (fun wake => chooseShardedHome sessionId currentPolicyPin args.accounts args.nearExhaustionPct args.now =
          some (.allCapped wake)) := by
  refine ⟨chooseRotationActive_serves_or_sleeps henabled, chooseLegacyRotationActive_serves_or_sleeps henabled,
    chooseShardedHome_serves_or_sleeps sessionId currentPolicyPin _ _ ?_⟩
  obtain ⟨acct, hacct, -⟩ := henabled
  exact List.ne_nil_of_mem hacct

end

def reloginOnly : RankArgs ℕ where
  rotationStrategy := .mostRemaining
  activeCredentialId := none
  priorCredentialId := none
  accounts := [⟨0, .needsRelogin, true, ⟨some 10, none⟩, ⟨some 10, none⟩, none, none, none, none, none⟩]
  nearExhaustionPct := 90
  now := 0
  usedConnectors := []

theorem rotation_serves_or_sleeps_relogin :
    ServesOrSleeps reloginOnly.accounts reloginOnly.allocatable 90 0 (Unusable 90)
      (Active (chooseRotationActive reloginOnly)) (AllCapped (chooseRotationActive reloginOnly)) :=
  (rotation_serves_or_sleeps reloginOnly [] none ⟨_, List.mem_singleton_self _, rfl⟩).1

/-- The account that sets the sleep is not eligible after it, though nothing blocks its windows. -/
theorem relogin_not_awake : chooseRotationActive reloginOnly = some (.allCapped 60000) ∧
      (∀ acct ∈ reloginOnly.accounts, ¬ isCodexCredentialEligible acct 90 60000 = true) ∧
      ∀ acct ∈ reloginOnly.accounts, ¬ BlockedUnknown acct.primary 90 ∧ ¬ BlockedUnknown acct.secondary 90 := by
  refine ⟨by decide +kernel, by decide +kernel, ?_⟩
  unfold BlockedUnknown
  decide +kernel

end OpenGeni.Worker
