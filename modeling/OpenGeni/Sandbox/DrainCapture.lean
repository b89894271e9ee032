/-
From which box a drain captures.

Before a sweep stops an idle box it captures the workspace and folds the capture over the
archive of the row. That loses nothing if the box had the archive in it. A row becomes
drainable in two ways: its committed box idles, and then the row carries no archive but one
that was captured from the box itself; or its spawner dies after `onSandboxCreated` has
recorded the box, and then the row carries the archive that the spawner was going to replay.
In the second way nothing tells whether it has been replayed. Where the sweep of a dead
spawner only meets boxes with the archive in them, and no sweep outlives the epoch of its
row, every capture replaces an archive that was in the box (`capture_replaces_replayed`).
-/
import OpenGeni.Sandbox.Archives

namespace OpenGeni.Sandbox

open OpenGeni.Lib OpenGeni.Db

def SweepStage.source? : SweepStage → Option String
  | .attaching lease => lease.sandboxId
  | .capturing box | .persisting box (some _) => some box
  | _ => none

namespace Fleet

/-! ## The statement -/

/-- The archive has been replayed into the box, or the box was created when the lease carried none. -/
def Restored (s : Fleet) (box : String) (a : Archive) : Prop :=
  ∃ b ∈ s.boxes.get box, a ∈ b.replayed ∨ b.carried = none

instance (s : Fleet) (box : String) (a : Archive) : Decidable (s.Restored box a) :=
  inferInstanceAs (Decidable (∃ b ∈ s.boxes.get box, a ∈ b.replayed ∨ b.carried = none))

/-- The fold that the sweep is about to make replaces an archive that was in the captured box. -/
def ReplacesRestored (s : Fleet) (k : ℕ) : Prop :=
  ∀ y box archive row a, s.sweeps.get k = some y → y.stage = .persisting box (some archive) →
    s.tables.lease = some row → row.Idle y.leaseEpoch → row.workspaceArchive = some a → s.Restored box a

/-- The row is taken out of cold only when no sweep of its epoch is at work, a dead spawner's row
is swept only if its box has the archive in it, and nothing is folded over an archive that
was captured from the same box. Warm snapshots are left out. -/
def Traceable (s : Fleet) : FleetEvent → Prop
  | .acquire _ _ _ input _ =>
    ∀ row ∈ s.tables.lease, row.liveness = .cold ∨ row.conflicts input = true →
      ∀ e ∈ s.sweeps, e.2.leaseEpoch ≠ row.leaseEpoch
  | .reap _ now _ =>
    ∀ row ∈ s.tables.lease, row.liveness = .warming → row.expiresAt < now → row.instanceId ≠ none →
      ∀ box ∈ row.sandboxId, ∀ a ∈ row.workspaceArchive, s.Restored box a
  | .persist k _ =>
    ∀ y ∈ s.sweeps.get k, ∀ row ∈ s.tables.lease, ∀ box ∈ y.stage.source?, ∀ a ∈ row.workspaceArchive,
      (a, box) ∉ s.folds
  | .snapshot .. => False
  | _ => True

instance (s : Fleet) (e : FleetEvent) : Decidable (s.Traceable e) :=
  match e with
  | .acquire _ _ _ input _ =>
    inferInstanceAs (Decidable (∀ row ∈ s.tables.lease, row.liveness = .cold ∨ row.conflicts input = true →
        ∀ e ∈ s.sweeps, e.2.leaseEpoch ≠ row.leaseEpoch))
  | .reap _ now _ =>
    inferInstanceAs (Decidable (∀ row ∈ s.tables.lease, row.liveness = .warming → row.expiresAt < now →
      row.instanceId ≠ none → ∀ box ∈ row.sandboxId, ∀ a ∈ row.workspaceArchive, s.Restored box a))
  | .persist k _ =>
    inferInstanceAs (Decidable (∀ y ∈ s.sweeps.get k, ∀ row ∈ s.tables.lease, ∀ box ∈ y.stage.source?,
      ∀ a ∈ row.workspaceArchive, (a, box) ∉ s.folds))
  | .snapshot .. => .isFalse id
  | .read _ | .resume _ | .create .. | .onSandboxCreated .. | .hydrate .. | .commit .. | .hold _
  | .throws .. | .fail _ | .release .. | .die _ | .touch .. | .heartbeat .. | .reread _ | .attach ..
  | .capture .. | .delete .. | .confirm _ | .stop _ | .lost _ =>
    .isTrue trivial

/-! ## The invariant -/

def From (s : Fleet) (box : String) (a : Archive) : Prop := s.Restored box a ∨ (a, box) ∈ s.folds

/-- A sweep has picked no epoch that is still to come, and the row's own only in the row's episode.
There the row is out of warming, and until it goes cold the sweep's box is the row's. -/
def Sweeping (lease : Option LeaseRow) (episode : ℕ) (y : Sweep) : Prop := y.episode ≤ episode ∧
    ∃ row, lease = some row ∧ y.leaseEpoch ≤ row.leaseEpoch ∧
      (y.leaseEpoch = row.leaseEpoch → y.episode = episode) ∧
      (y.episode = episode → row.liveness ≠ .warming ∧
        (row.liveness ≠ .cold → ∀ box, y.stage.source? = some box → row.sandboxId = some box))

structure Traced (s : Fleet) : Prop where
  /-- The archive of an unlocked row comes from its box. -/
  archive : ∀ row, s.tables.lease = some row → row.liveness ≠ .cold → row.liveness ≠ .warming →
    ∀ box a, row.sandboxId = some box → row.workspaceArchive = some a → s.From box a
  sweeping : ∀ e ∈ s.sweeps, Sweeping s.tables.lease s.episode e.2

theorem traced_start : start.Traced := by
  refine ⟨?_, ?_⟩
  · intro row hrow
    simp [start] at hrow
  · intro e he
    simp [start] at he

variable {s s' : Fleet} {e : FleetEvent} {row row' : LeaseRow} {episode : ℕ} {w k : ℕ} {y : Sweep}
  {lease lease' : Option LeaseRow} {box : String} {a : Archive} {stage : SweepStage}

/-! ## What is in a box stays in it -/

def Grows (b b' : Box) : Prop := b'.carried = b.carried ∧ ∀ a ∈ b.replayed, a ∈ b'.replayed

theorem Grows.refl (b : Box) : Grows b b := ⟨rfl, fun _ h => h⟩

theorem get_put_grows {boxes : Slots String Box} {box' : String} {b c : Box} (hb : boxes.get box = some b)
    (hc : ∀ d, boxes.get box' = some d → Grows d c) :
    ∃ b', (boxes.put box' c).get box = some b' ∧ Grows b b' := by
  by_cases h : box = box'
  · obtain rfl := h
    exact ⟨c, Slots.get_put, hc b hb⟩
  · rw [Slots.get_put_of_ne h]
    exact ⟨b, hb, .refl b⟩

theorem stopBox_grows {box' : String} {b : Box} (hb : s.boxes.get box = some b) :
    ∃ b', (s.stopBox box').boxes.get box = some b' ∧ Grows b b' := by
  unfold stopBox
  cases hget : s.boxes.get box' with
  | none => exact ⟨b, hb, .refl b⟩
  | some c =>
    apply get_put_grows hb
    intro d hd
    cases hget.symm.trans hd
    exact ⟨rfl, fun _ h => h⟩

theorem box_step {b : Box} (h : s.step e = some s') (hb : s.boxes.get box = some b) :
    ∃ b', s'.boxes.get box = some b' ∧ Grows b b' := by
  obtain he | ⟨box', -, he⟩ | ⟨box', c, hfresh, he⟩ | ⟨box', c, a, hc, he⟩ |
    ⟨box', box'', c, -, hfresh, he⟩ := (boxes_folds_cases h).1
  · rw [he]
    exact ⟨b, hb, .refl b⟩
  · rw [he]
    exact stopBox_grows hb
  · rw [he]
    apply get_put_grows hb
    intro d hd
    rw [hfresh] at hd
    cases hd
  · rw [he]
    apply get_put_grows hb
    intro d hd
    cases hc.symm.trans hd
    exact ⟨rfl, fun _ h => List.mem_cons_of_mem _ h⟩
  · rw [he]
    by_cases hbox : box = box''
    · obtain rfl := hbox
      rw [hfresh] at hb
      cases hb
    · rw [Slots.get_put_of_ne hbox]
      exact stopBox_grows hb

theorem Restored.step (hr : s.Restored box a) (h : s.step e = some s') : s'.Restored box a := by
  obtain ⟨b, hb, hcase⟩ := hr
  obtain ⟨b', hb', hcarried, hreplayed⟩ := box_step h hb
  refine ⟨b', hb', ?_⟩
  rw [hcarried]
  exact hcase.imp_left (hreplayed a)

theorem From.step (hf : s.From box a) (h : s.step e = some s') : s'.From box a := by
  obtain hr | hm := hf
  · exact .inl (hr.step h)
  · right
    obtain he | ⟨f, he⟩ := (boxes_folds_cases h).2
    · rw [he]
      exact hm
    · rw [he]
      exact List.mem_cons_of_mem _ hm

/-! ## How the row moves on under a sweep -/

/-- The row moves on within its episode. Once it is out of warming it keeps its box until it is cold. -/
def Follows (row row' : LeaseRow) : Prop := row.leaseEpoch ≤ row'.leaseEpoch ∧
    (row.liveness ≠ .warming → row'.liveness ≠ .warming ∧
      (row'.liveness ≠ .cold → row.liveness ≠ .cold ∧ row'.sandboxId = row.sandboxId))

theorem follows_quiet (hq : row.Quiet row') : Follows row row' := by
  obtain ⟨⟨-, hepoch, hstate⟩, hlive⟩ := hq
  refine ⟨hepoch.ge, ?_⟩
  intro hw
  obtain he | ⟨hl, he⟩ | ⟨hl, he⟩ := hlive
  · exact ⟨he ▸ hw, fun hc => ⟨he ▸ hc, congrArg (·.bind (·.sandboxId)) hstate⟩⟩
  · exact ⟨by rw [he]; decide, fun _ => ⟨by rw [hl]; decide, congrArg (·.bind (·.sandboxId)) hstate⟩⟩
  · exact ⟨by rw [he]; decide, fun _ => ⟨by rw [hl]; decide, congrArg (·.bind (·.sandboxId)) hstate⟩⟩

theorem follows_of_warming (hw : row.liveness = .warming) (hle : row.leaseEpoch ≤ row'.leaseEpoch) :
    Follows row row' :=
  ⟨hle, fun h => absurd hw h⟩

theorem follows_goCold : Follows row row.goCold :=
  ⟨le_rfl, fun _ => ⟨by simp [LeaseRow.goCold], fun hc => absurd rfl hc⟩⟩

theorem follows_fold {prev : Option Archive} {atMs : ℕ} : Follows row (row.foldWorkspaceArchive a prev atMs) :=
  ⟨le_rfl, fun h => ⟨h, fun hc => ⟨hc, foldWorkspaceArchive_sandboxId⟩⟩⟩

theorem Sweeping.follow (h : Sweeping (some row) episode y) (hf : Follows row row') :
    Sweeping (some row') episode y := by
  obtain ⟨hep, r, hr, hle, hcur, hbox⟩ := h
  cases hr
  have hle' := hf.1
  refine ⟨hep, row', rfl, by omega, ?_, ?_⟩
  · intro he
    exact hcur (by omega)
  · intro he
    obtain ⟨hw, hsource⟩ := hbox he
    obtain ⟨hw', hsame⟩ := hf.2 hw
    refine ⟨hw', ?_⟩
    intro hc box hb
    obtain ⟨hc', hid⟩ := hsame hc
    rw [hid]
    exact hsource hc' box hb

theorem Sweeping.move (h : Sweeping lease episode y)
    (hbox : ∀ box, stage.source? = some box → y.stage.source? = some box) :
    Sweeping lease episode { y with stage } := by
  obtain ⟨hep, row, hrow, hle, hcur, hsource⟩ := h
  refine ⟨hep, row, hrow, hle, hcur, ?_⟩
  intro he
  obtain ⟨hw, hbox'⟩ := hsource he
  exact ⟨hw, fun hc box hb => hbox' hc box (hbox box hb)⟩

/-! ## The steps -/

theorem Traced.congr (hi : s.Traced) (h : s.step e = some s') (hlease : s'.tables.lease = s.tables.lease)
    (hepisode : s'.episode = s.episode)
    (hsweeps : ∀ e ∈ s'.sweeps, Sweeping s.tables.lease s.episode e.2) : s'.Traced := by
  refine ⟨?_, ?_⟩
  · intro row hrow hc hw box a hb ha
    rw [hlease] at hrow
    exact (hi.archive row hrow hc hw box a hb ha).step h
  · rw [hlease, hepisode]
    exact hsweeps

theorem Traced.follow (hi : s.Traced) (hl : s.tables.lease = some row) (hl' : s'.tables.lease = some row')
    (hepisode : s'.episode = s.episode) (hf : Follows row row')
    (hsweeps : ∀ e ∈ s'.sweeps, e ∈ s.sweeps ∨ Sweeping s'.tables.lease s'.episode e.2)
    (harchive : row'.liveness ≠ .cold → row'.liveness ≠ .warming →
      ∀ box a, row'.sandboxId = some box → row'.workspaceArchive = some a → s'.From box a) : s'.Traced := by
  refine ⟨?_, ?_⟩
  · intro r hr
    cases hl'.symm.trans hr
    exact harchive
  · intro p hp
    obtain hp | hp := hsweeps p hp
    · rw [hl', hepisode]
      exact (hl ▸ hi.sweeping p hp : Sweeping (some row) s.episode p.2).follow hf
    · exact hp

theorem Traced.quiet_archive (hi : s.Traced) (h : s.step e = some s') (hl : s.tables.lease = some row)
    (hq : row.Quiet row') (hc : row'.liveness ≠ .cold) (hw : row'.liveness ≠ .warming) :
    ∀ box a, row'.sandboxId = some box → row'.workspaceArchive = some a → s'.From box a := by
  intro box a hb ha
  obtain ⟨⟨-, -, hstate⟩, hlive⟩ := hq
  unfold LeaseRow.sandboxId at hb
  unfold LeaseRow.workspaceArchive at ha
  rw [hstate] at hb ha
  have hopen : row.liveness ≠ .cold ∧ row.liveness ≠ .warming := by
    obtain he | ⟨he, -⟩ | ⟨he, -⟩ := hlive
    · exact ⟨he ▸ hc, he ▸ hw⟩
    · rw [he]; decide
    · rw [he]; decide
  exact (hi.archive row hl hopen.1 hopen.2 box a hb ha).step h

theorem Traced.quiet (hi : s.Traced) (h : s.step e = some s') (hepisode : s'.episode = s.episode)
    (hsweeps : s'.sweeps = s.sweeps)
    (hsome : ∀ row, s.tables.lease = some row → ∃ row', s'.tables.lease = some row' ∧ row.Quiet row')
    (hnone : s.tables.lease = none → s'.tables.lease = none) : s'.Traced := by
  cases hl : s.tables.lease with
  | none =>
    apply hi.congr h ((hnone hl).trans hl.symm) hepisode
    rw [hsweeps]
    exact hi.sweeping
  | some row =>
    obtain ⟨row', hl', hq⟩ := hsome row hl
    apply hi.follow hl hl' hepisode (follows_quiet hq)
    · rw [hsweeps]
      exact fun p hp => .inl hp
    · exact hi.quiet_archive h hl hq

variable {now : ℕ}

theorem Traced.acquire {caller : Caller} {input : AcquireLeaseInput}
    {session : Option SessionEnvelope} (hi : s.Traced)
    (hok : s.Traceable (.acquire w caller now input session))
    (h : s.step (.acquire w caller now input session) = some s') : s'.Traced := by
  obtain rfl | ⟨role, row', tables, hl', hcase, rfl⟩ := acquire_cases h
  · exact hi
  by_cases hrole : role = .spawner
  · -- The win: every sweep is one of an earlier episode and of an earlier epoch.
    have hwon : (s.tables.lease.getD (freshLease now input)).Won input row' := by
      obtain ⟨-, hw⟩ | ⟨hne, -⟩ := hcase
      · exact hw
      · exact absurd hrole hne
    refine ⟨?_, ?_⟩
    · intro r hr _ hw
      cases hl'.symm.trans hr
      exact absurd hwon.1 hw
    · intro p hp
      obtain ⟨hep, row, hl, hle, -, -⟩ := hi.sweeping p hp
      rw [hl, Option.getD_some] at hwon
      obtain ⟨-, hhow⟩ := hwon
      have hcold : row.liveness = .cold ∨ row.conflicts input = true := hhow.imp And.left And.left
      have hepoch : row'.leaseEpoch = row.leaseEpoch := by
        obtain ⟨-, hsame⟩ | ⟨-, -, he, -⟩ := hhow
        · exact hsame.2.1
        · exact he
      have hne : p.2.leaseEpoch ≠ row.leaseEpoch := hok row hl hcold p hp
      dsimp only
      rw [if_pos hrole]
      refine ⟨by omega, row', hl', by omega, ?_, ?_⟩
      · intro he
        omega
      · intro he
        omega
  · have hquiet : ∃ row, s.tables.lease = some row ∧ row.Quiet row' := by
      cases hl : s.tables.lease with
      | none =>
        rw [hl] at hcase
        obtain ⟨hr, -⟩ | ⟨-, -, hc⟩ := hcase
        · exact absurd hr hrole
        · exact absurd rfl hc
      | some row =>
        rw [hl] at hcase
        obtain ⟨hr, -⟩ | ⟨-, hq, -⟩ := hcase
        · exact absurd hr hrole
        · exact ⟨row, rfl, hq⟩
    obtain ⟨row, hl, hq⟩ := hquiet
    exact hi.follow hl hl' (if_neg hrole) (follows_quiet hq) (fun p hp => .inl hp) (hi.quiet_archive h hl hq)

theorem Traced.write (hi : s.Traced) (hl : s.tables.lease = some row) (hl' : s'.tables.lease = some row')
    (hepisode : s'.episode = s.episode) (hsweeps : s'.sweeps = s.sweeps) (hw : row.liveness = .warming)
    (hle : row.leaseEpoch ≤ row'.leaseEpoch)
    (hnone : row'.liveness ≠ .cold → row'.liveness ≠ .warming → row'.workspaceArchive = none) :
    s'.Traced := by
  apply hi.follow hl hl' hepisode (follows_of_warming hw hle)
  · rw [hsweeps]
    exact fun p hp => .inl hp
  · intro hc hw' box a _ ha
    rw [hnone hc hw'] at ha
    cases ha

theorem committed_workspaceArchive {ttl : ℕ} {serializes : Bool} {url : Option String} {x : Worker} :
    (committed now serializes url ttl x box row).workspaceArchive = none := by
  unfold committed LeaseRow.workspaceArchive serializeEstablishedSandboxEnvelope
  cases serializes with
  | true => rfl
  | false =>
    cases x.session with
    | none | some => rfl

theorem Traced.reap {input : ReapInput} (hi : s.Traced) (hok : s.Traceable (.reap k now input))
    (h : s.step (.reap k now input) = some s') : s'.Traced := by
  obtain ⟨hl, tables, hnone, rfl⟩ | ⟨row, row', tables, hl, hl', hswept, hcase⟩ := reap_cases h
  · exact hi.congr h (hnone.trans hl.symm) rfl hi.sweeping
  have hf : Follows row row' := by
    obtain hq | ⟨hw, -, -, -, -, he, -⟩ | ⟨hw, -, -, -, -, hsame⟩ := hswept
    · exact follows_quiet hq
    · exact follows_of_warming hw he.ge
    · exact follows_of_warming hw hsame.2.1.ge
  have harchive : row'.liveness ≠ .cold → row'.liveness ≠ .warming →
      ∀ box a, row'.sandboxId = some box → row'.workspaceArchive = some a → s'.From box a := by
    intro hc hw
    obtain hq | ⟨-, -, -, hcold, -⟩ | ⟨hwarming, hexp, hinst, -, -, hsame⟩ := hswept
    · exact hi.quiet_archive h hl hq hc hw
    · exact absurd hcold hc
    · -- The row of a dead spawner: its box has the archive in it.
      intro box a hb ha
      unfold LeaseRow.sandboxId at hb
      unfold LeaseRow.workspaceArchive at ha
      rw [hsame.2.2] at hb ha
      exact .inl ((hok row hl hwarming hexp hinst box hb a ha).step h)
  obtain rfl | ⟨hdraining, rfl⟩ := hcase
  · exact hi.follow hl hl' rfl hf (fun p hp => .inl hp) harchive
  · refine hi.follow hl hl' rfl hf ?_ harchive
    intro p hp
    obtain rfl | hp := Slots.mem_put hp
    · -- The new sweep has no box yet, and the row is draining.
      right
      refine ⟨le_rfl, row', hl', le_rfl, fun _ => rfl, fun _ => ⟨?_, ?_⟩⟩
      · rw [hdraining]
        decide
      · intro _ box hb
        cases hb
    · exact .inl hp

theorem Traced.sweep (hi : s.Traced) (hy : s.sweeps.get k = some y) : Sweeping s.tables.lease s.episode y :=
  hi.sweeping _ (Slots.mem_of_get hy)

theorem Traced.put (hi : s.Traced) (h : s.step e = some s') (y : Sweep) (stage : SweepStage)
    (hlease : s'.tables.lease = s.tables.lease) (hepisode : s'.episode = s.episode)
    (hsweeps : s'.sweeps = s.sweeps.put k { y with stage })
    (hy : Sweeping s.tables.lease s.episode { y with stage }) : s'.Traced := by
  apply hi.congr h hlease hepisode
  rw [hsweeps]
  exact Slots.forall_put hi.sweeping hy

theorem Traced.drop (hi : s.Traced) (h : s.step e = some (s.dropSweep k)) : (s.dropSweep k).Traced :=
  hi.congr h rfl rfl fun p hp => hi.sweeping p (Slots.mem_of_mem_drop hp)

theorem Traced.reread (hi : s.Traced) (h : s.step (.reread k) = some s') : s'.Traced := by
  obtain rfl | ⟨y, row, hy, -, hl, hidle, rfl⟩ := reread_cases h
  · exact hi.drop h
  · refine hi.put (k := k) h y (.attaching row) rfl rfl rfl ?_
    -- The sweep takes the row's own box on.
    obtain ⟨hep, r, hr, hle, hcur, hbox⟩ := hi.sweep hy
    cases hl.symm.trans hr
    exact ⟨hep, row, hl, hle, hcur, fun he => ⟨(hbox he).1, fun _ box hb => hb⟩⟩

theorem teardown_resume {lease : LeaseRow} (h : teardown lease = .resume box) : lease.sandboxId = some box := by
  unfold teardown at h
  dsimp only at h
  by_cases hnone : lease.resumeBackendId.getD lease.backend = "" ∨ lease.resumeBackendId.getD lease.backend = "none"
  · rw [if_pos hnone] at h
    cases h
  rw [if_neg hnone] at h
  by_cases hself : lease.resumeBackendId.getD lease.backend = "selfhosted" ∨ lease.backend = "selfhosted"
  · rw [if_pos hself] at h
    cases h
  rw [if_neg hself] at h
  unfold LeaseRow.sandboxId
  cases hstate : lease.resumeState with
  | none =>
    rw [hstate] at h
    cases hinst : lease.instanceId with
    | none => rw [hinst] at h; cases h
    | some b =>
      rw [hinst] at h
      dsimp only at h
      by_cases hm : lease.resumeBackendId.getD lease.backend = "modal"
      · rw [if_pos hm] at h; cases h
      · rw [if_neg hm] at h; cases h
  | some envelope =>
    rw [hstate] at h
    cases hid : envelope.sandboxId with
    | none => simp only [hid] at h; cases h
    | some b =>
      simp only [hid] at h
      cases h
      exact hid

theorem Traced.attach {outcome : Attempt Unit} (hi : s.Traced) (h : s.step (.attach k outcome) = some s') :
    s'.Traced := by
  obtain rfl | ⟨y, lease, hy, hst, rfl | ⟨box, -, rfl⟩ | ⟨box, hplan, -, rfl⟩⟩ := attach_cases h
  · exact hi.drop h
  · refine hi.put (k := k) h y .confirming rfl rfl rfl ((hi.sweep hy).move ?_)
    intro b hb
    cases hb
  · refine hi.put (k := k) h y (.persisting box none) rfl rfl rfl ((hi.sweep hy).move ?_)
    intro b hb
    cases hb
  · refine hi.put (k := k) h y (.capturing box) rfl rfl rfl ((hi.sweep hy).move ?_)
    intro b hb
    cases hb
    rw [hst]
    exact teardown_resume hplan

theorem Traced.capture {outcome : Attempt (Option Archive)} (hi : s.Traced)
    (h : s.step (.capture k outcome) = some s') : s'.Traced := by
  obtain rfl | ⟨y, box, hy, hst, rfl | ⟨archive, -, rfl⟩⟩ := capture_cases h
  · exact hi.drop h
  · refine hi.put (k := k) h y .confirming rfl rfl rfl ((hi.sweep hy).move ?_)
    intro b hb
    cases hb
  · refine hi.put (k := k) h y (.persisting box archive) rfl rfl rfl ((hi.sweep hy).move ?_)
    intro b hb
    rw [hst]
    cases archive with
    | none => cases hb
    | some a => exact hb

theorem Traced.idle (hi : s.Traced) (hy : s.sweeps.get k = some y) (hl : s.tables.lease = some row)
    (hidle : row.Idle y.leaseEpoch) (hb : y.stage.source? = some box) : row.sandboxId = some box := by
  obtain ⟨-, r, hr, -, hcur, hbox⟩ := hi.sweep hy
  cases hl.symm.trans hr
  refine (hbox (hcur hidle.2.2.symm)).2 ?_ box hb
  rw [hidle.1]
  decide

theorem Traced.persist (hi : s.Traced) (h : s.step (.persist k now) = some s') : s'.Traced := by
  obtain rfl | ⟨y, box, archive, row, hy, hst, hl, hidle, rfl⟩ := persist_cases h
  · exact hi.drop h
  have hmoved : ∀ {lease}, Sweeping lease s.episode y →
      Sweeping lease s.episode { y with stage := .deleting box } := by
    intro lease hs
    apply hs.move
    intro b hb
    cases hb
  cases archive with
  | none => exact hi.put (k := k) h y (.deleting box) hl.symm rfl rfl (hmoved (hi.sweep hy))
  | some a =>
    refine hi.follow hl rfl rfl follows_fold ?_ ?_
    · intro p hp
      obtain rfl | hp := Slots.mem_put hp
      · right
        apply hmoved
        exact (hl ▸ hi.sweep hy : Sweeping (some row) s.episode y).follow follows_fold
      · exact .inl hp
    · -- The fold's archive was captured from the row's own box.
      intro _ _ b a' hb ha
      have hbox : row.sandboxId = some box := hi.idle hy hl hidle (by rw [hst]; rfl)
      rw [Option.map_some, Option.getD_some, foldWorkspaceArchive_sandboxId, hbox] at hb
      cases hb
      rw [Option.map_some, Option.getD_some, foldWorkspaceArchive_workspaceArchive] at ha
      cases ha
      exact .inr List.mem_cons_self

theorem Traced.confirm (hi : s.Traced) (h : s.step (.confirm k) = some s') : s'.Traced := by
  obtain ⟨y, tables, -, -, rfl, ⟨row, hl, -, rfl⟩ | rfl⟩ := confirm_cases h
  · refine hi.follow hl rfl rfl follows_goCold (fun p hp => .inl (Slots.mem_of_mem_drop hp)) ?_
    intro hc
    exact absurd rfl hc
  · exact hi.congr h rfl rfl fun p hp => hi.sweeping p (Slots.mem_of_mem_drop hp)

theorem traced_step (hi : s.Traced) (hok : s.Traceable e) (h : s.step e = some s') : s'.Traced := by
  have hsame : s'.tables.lease = s.tables.lease → s'.episode = s.episode → s'.sweeps = s.sweeps → s'.Traced := by
    intro hlease hepisode hsweeps
    apply hi.congr h hlease hepisode
    rw [hsweeps]
    exact hi.sweeping
  cases e with
  | acquire => exact hi.acquire hok h
  | read =>
    obtain ⟨x, -, -, rfl⟩ := read_cases h
    exact hsame rfl rfl rfl
  | resume =>
    obtain ⟨x, b, -, -, -, rfl⟩ := resume_cases h
    exact hsame (by simp) (by simp) (by simp)
  | create =>
    obtain ⟨x, skip, -, -, -, -, rfl⟩ := create_cases h
    exact hsame (by simp) (by simp) (by simp)
  | onSandboxCreated =>
    obtain ⟨x, win, b, hydrate, -, -, -, ⟨row, hl, hwarming, rfl⟩ | ⟨-, rfl⟩⟩ := onSandboxCreated_cases h
    · exact hi.write hl rfl rfl rfl hwarming.1 le_rfl fun _ hw => absurd hwarming.1 hw
    · exact hsame (by simp) (by simp) (by simp)
  | hydrate =>
    obtain ⟨x, b, -, -, rfl | ⟨-, rfl⟩ | ⟨archive, c, -, -, rfl⟩ | ⟨archive, b', c, -, -, -, -, -, rfl⟩⟩ :=
      hydrate_cases h
    all_goals exact hsame (by simp) (by simp) (by simp)
  | commit =>
    obtain ⟨x, win, b, -, -, -, ⟨row, hl, hwarming, rfl⟩ | ⟨-, rfl⟩⟩ := commit_cases h
    · exact hi.write hl rfl rfl rfl hwarming.1 (Nat.le_succ _) fun _ _ => committed_workspaceArchive
    · exact hsame (by simp) (by simp) (by simp)
  | hold =>
    obtain ⟨x, b, -, -, -, rfl⟩ := hold_cases h
    exact hsame rfl rfl rfl
  | throws =>
    obtain ⟨x, stage, s₁, -, -, rfl | ⟨b, -, -, rfl⟩, rfl⟩ := throws_cases h
    all_goals exact hsame (by simp) (by simp) (by simp)
  | fail =>
    obtain ⟨x, win, tables, -, -, -, rfl, ⟨row, hl, hwarming, rfl⟩ | ⟨-, rfl⟩⟩ := fail_cases h
    · exact hi.write hl rfl rfl rfl hwarming.1 le_rfl fun hc => absurd rfl hc
    · exact hsame rfl rfl rfl
  | release =>
    obtain ⟨tables, rfl, hsome, hnone⟩ := release_cases h
    exact hi.quiet h rfl rfl hsome (fun hl => (congrArg LeaseTables.lease (hnone hl)).trans hl)
  | die | touch =>
    obtain rfl := Option.some.inj h
    exact hsame rfl rfl rfl
  | heartbeat now kind holderId ttl epoch =>
    obtain rfl := Option.some.inj h
    refine hi.quiet h rfl rfl (fun row hl => heartbeat_lease now ttl epoch kind holderId hl) ?_
    intro hl
    obtain he | ⟨row₀, -, hr, -⟩ := heartbeatLeaseHolder_lease now ttl epoch kind holderId s.tables
    · exact he.trans hl
    · rw [hl] at hr
      cases hr
  | snapshot => exact absurd hok id
  | reap => exact hi.reap hok h
  | reread => exact hi.reread h
  | attach => exact hi.attach h
  | capture => exact hi.capture h
  | persist => exact hi.persist h
  | delete k raised =>
    obtain ⟨y, b, hy, -, rfl⟩ := delete_cases h
    refine hi.put (k := k) h y .confirming (by simp) (by simp) (by simp) ((hi.sweep hy).move ?_)
    intro b hb
    cases hb
  | confirm => exact hi.confirm h
  | stop =>
    obtain rfl := Option.some.inj h
    exact hi.drop h
  | lost =>
    obtain rfl := Option.some.inj h
    exact hsame (congrArg _ stopBox_tables) stopBox_episode stopBox_sweeps

/-! ## Runs -/

/-- **A drain replaces only what was in its box.** In every run in which no sweep outlives the epoch of its row and
a dead spawner's row is swept only if its box has the archive in it, a capture that is folded over another box's
archive comes from a box into which the archive had been replayed, or which was created when the lease carried none.
-/
theorem capture_replaces_replayed {events : List FleetEvent} (k now : ℕ)
    (h : Run (Restrict (fun s e t => s.step e = some t) Traceable) start events s)
    (hok : s.Traceable (.persist k now)) : s.ReplacesRestored k := by
  have hi : s.Traced :=
    h.invariant (P := Traced) (fun _ _ _ hstep hi => traced_step hi hstep.2 hstep.1) traced_start
  intro y box archive row a hy hst hl hidle ha
  have hsource : y.stage.source? = some box := by rw [hst]; rfl
  have hdraining : row.liveness ≠ .cold ∧ row.liveness ≠ .warming := by
    rw [hidle.1]
    decide
  have hfrom : s.From box a := hi.archive row hl hdraining.1 hdraining.2 box a (hi.idle hy hl hidle hsource) ha
  obtain hr | hown := hfrom
  · exact hr
  · exact absurd hown (hok y hy row hl box hsource a ha)

/-- The spawner of the second box dies after the replay. Its box is swept and captured. -/
def replayedThenDead : List FleetEvent := drainedOnce ++
    [.create 1 "box-2", .onSandboxCreated 1 301000000 true 90000 (some 600000) true,
      .hydrate 1 (.replayed files "box-2"), .die 1, .reap 1 1000000000 sweepInput, .reread 1,
      .attach 1 (.done ()), .capture 1 (.done (some ⟨"more files", by decide⟩))]

/-- Its capture replaces the archive that is in it. -/
theorem capture_replaces_replayed_once :
    ∃ s, Run (Restrict (fun s e t => step s e = some t) Traceable) start replayedThenDead s ∧
      s.Restored "box-2" files := by
  have hrun : play (guarded step Traceable) start replayedThenDead = some _ := rfl
  exact ⟨_, guarded_run hrun, capture_replaces_replayed 1 1000000000 (guarded_run hrun) (by decide)
    _ _ _ _ _ rfl rfl rfl (by decide) rfl⟩

def deadThenCaptured : List FleetEvent := drainedOnce ++
    [.create 1 "box-2", .onSandboxCreated 1 301000000 true 90000 (some 600000) true, .die 1,
      .reap 1 1000000000 sweepInput, .reread 1, .attach 1 (.done ()),
      .capture 1 (.done (some ⟨"empty tree", by decide⟩))]

/-- The capture of an unhydrated box is folded over the only archive. -/
theorem unhydrated_box_replaces :
    ∃ s, Run (fun s e t => step s e = some t) start deadThenCaptured s ∧ ¬ s.ReplacesRestored 1 := by
  have hrun : play step start deadThenCaptured = some _ := rfl
  refine ⟨_, run_of_play hrun, ?_⟩
  intro h
  exact absurd (h _ _ _ _ files rfl rfl rfl (by decide) rfl) (by decide)

end Fleet

end OpenGeni.Sandbox
