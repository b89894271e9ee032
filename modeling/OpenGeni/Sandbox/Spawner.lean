/-
A spawner that has lost the row.

The three writes of a spawner are fenced by the liveness and by the epoch it observed, and
only the commit bumps the epoch. So a row that goes back to cold and is won again is warming
under the same epoch, and a spawner of the first win is not fenced from the second. Where a
cold row is only won when no spawner of its epoch is still at work, the fence is sound
(`lost_spawner_inert`): the epoch then tells the wins apart.
-/
import OpenGeni.Sandbox.FleetCases

namespace OpenGeni.Sandbox

open OpenGeni.Lib OpenGeni.Db

/-! ## The statement -/

/-- The event is one of the three writes of the worker's spawner. -/
def FleetEvent.WritesAs (w : ℕ) : FleetEvent → Prop
  | .onSandboxCreated w' .. | .commit w' .. | .fail w' => w' = w
  | _ => False

namespace Fleet

def Left (s : Fleet) (win : Win) : Prop := ∀ row ∈ s.tables.lease, row.liveness = .warming → s.episode ≠ win.episode

/-- A spawner whose episode is over changes nothing, and a warm row names the box that the
spawner of the last episode has built. -/
def Inert (s : Fleet) : Prop :=
  (∀ w x win e s', s.workers.get w = some x → x.won = some win → s.Left win → e.WritesAs w →
    s.step e = some s' → s'.tables = s.tables) ∧
  ∀ row ∈ s.tables.lease, row.liveness = .warm → ∃ box ∈ row.instanceId, (s.episode, box) ∈ s.built

/-- A row is taken out of cold only when no spawner that observed its epoch is still at work. -/
def Alone (s : Fleet) : FleetEvent → Prop
  | .acquire _ _ _ input _ =>
    ∀ row ∈ s.tables.lease, row.liveness = .cold ∨ row.conflicts input = true →
      ∀ e ∈ s.workers, ∀ win ∈ e.2.won, win.expectedEpoch ≠ row.leaseEpoch
  | _ => True

instance (s : Fleet) (e : FleetEvent) : Decidable (s.Alone e) :=
  match e with
  | .acquire _ _ _ input _ =>
    inferInstanceAs (Decidable (∀ row ∈ s.tables.lease, row.liveness = .cold ∨ row.conflicts input = true →
        ∀ e ∈ s.workers, ∀ win ∈ e.2.won, win.expectedEpoch ≠ row.leaseEpoch))
  | .read _ | .resume _ | .create .. | .onSandboxCreated .. | .hydrate .. | .commit .. | .hold _
  | .throws .. | .fail _ | .release .. | .die _ | .touch .. | .heartbeat .. | .snapshot .. | .reap ..
  | .reread _ | .attach .. | .capture .. | .persist .. | .delete .. | .confirm _ | .stop _ | .lost _ =>
    .isTrue trivial

/-! ## The invariant -/

/-- A spawner at work has built the box it has a handle of, observed no epoch that is still to
come, and holds the row's own epoch only if the last win is its own. -/
def Sound (lease : Option LeaseRow) (episode : ℕ) (built : List (ℕ × String)) (x : Worker) : Prop :=
  ∀ win, x.won = some win → (∃ row, lease = some row ∧ win.expectedEpoch ≤ row.leaseEpoch ∧
      (win.expectedEpoch = row.leaseEpoch → win.episode = episode)) ∧
    ∀ box, x.stage.box? = some box → (win.episode, box) ∈ built

/-- The box of the row is one of its episode. A cold row has none, an unlocked one has. -/
def Owns (episode : ℕ) (built : List (ℕ × String)) (row : LeaseRow) : Prop :=
  (row.liveness = .cold → row.instanceId = none) ∧
    (row.liveness = .warm ∨ row.liveness = .draining → row.instanceId ≠ none) ∧
    ∀ box, row.instanceId = some box → (episode, box) ∈ built

structure Fenced (s : Fleet) : Prop where
  sound : ∀ e ∈ s.workers, Sound s.tables.lease s.episode s.built e.2
  owns : ∀ row, s.tables.lease = some row → Owns s.episode s.built row

theorem fenced_start : start.Fenced := by
  refine ⟨?_, ?_⟩
  · intro e he
    simp [start] at he
  · intro row hrow
    simp [start] at hrow

variable {s s' : Fleet} {e : FleetEvent} {row row' : LeaseRow} {episode : ℕ} {w : ℕ}
  {built built' : List (ℕ × String)} {x : Worker} {lease lease' : Option LeaseRow} {stage : Stage}

theorem sound_of_not_won (h : x.won = none) : Sound lease episode built x := by
  intro win hwin
  rw [h] at hwin
  cases hwin

def KeepsEpoch (lease lease' : Option LeaseRow) : Prop :=
  ∀ row, lease = some row → ∃ row', lease' = some row' ∧ row'.leaseEpoch = row.leaseEpoch

theorem KeepsEpoch.refl (lease : Option LeaseRow) : KeepsEpoch lease lease := fun row hrow => ⟨row, hrow, rfl⟩

theorem KeepsEpoch.some (h : row'.leaseEpoch = row.leaseEpoch) :
    KeepsEpoch (Option.some row) (Option.some row') := by
  intro r hr
  cases hr
  exact ⟨row', rfl, h⟩

theorem Sound.mono (h : Sound lease episode built x) (hkeep : KeepsEpoch lease lease')
    (hsub : built ⊆ built') : Sound lease' episode built' x := by
  intro win hwin
  obtain ⟨⟨row, hrow, hle, heq⟩, hbox⟩ := h win hwin
  obtain ⟨row', hrow', hepoch⟩ := hkeep row hrow
  refine ⟨⟨row', hrow', ?_, ?_⟩, fun box hb => hsub (hbox box hb)⟩
  · omega
  · intro he
    exact heq (by omega)

theorem Sound.move (h : Sound lease episode built x)
    (hbox : ∀ win box, x.won = some win → stage.box? = some box → (win.episode, box) ∈ built) :
    Sound lease episode built { x with stage } := by
  intro win hwin
  exact ⟨(h win hwin).1, fun box hb => hbox win box hwin hb⟩

theorem Owns.mono (h : Owns episode built row) (hsub : built ⊆ built') : Owns episode built' row :=
  ⟨h.1, h.2.1, fun box hb => hsub (h.2.2 box hb)⟩

theorem Owns.quiet (h : Owns episode built row) (hq : row.Quiet row') : Owns episode built row' := by
  obtain ⟨⟨hinst, -, -⟩, hlive⟩ := hq
  obtain ⟨hcold, hopen, hbox⟩ := h
  refine ⟨?_, ?_, ?_⟩
  · intro hc
    rw [hinst]
    obtain he | ⟨-, he⟩ | ⟨-, he⟩ := hlive
    · exact hcold (he ▸ hc)
    · rw [he] at hc; cases hc
    · rw [he] at hc; cases hc
  · intro ho
    rw [hinst]
    apply hopen
    obtain he | ⟨he, -⟩ | ⟨he, -⟩ := hlive
    · exact he ▸ ho
    · exact .inl he
    · exact .inr he
  · intro box hb
    exact hbox box (hinst ▸ hb)

theorem owns_cold (hl : row.liveness = .cold) (hi : row.instanceId = none) : Owns episode built row := by
  refine ⟨fun _ => hi, ?_, ?_⟩
  · intro ho
    rw [hl] at ho
    obtain h | h := ho <;> cases h
  · intro box hb
    rw [hi] at hb
    cases hb

theorem owns_warming (hl : row.liveness = .warming) (hi : row.instanceId = none) : Owns episode built row := by
  refine ⟨fun _ => hi, ?_, ?_⟩
  · intro ho
    rw [hl] at ho
    obtain h | h := ho <;> cases h
  · intro box hb
    rw [hi] at hb
    cases hb

theorem Fenced.worker (hi : s.Fenced) (hx : s.workers.get w = some x) : Sound s.tables.lease s.episode s.built x :=
  hi.sound _ (Slots.mem_of_get hx)

theorem Fenced.put (hi : s.Fenced) (w : ℕ) (x : Worker) (hlease : s'.tables.lease = s.tables.lease)
    (hepisode : s'.episode = s.episode) (hsub : s.built ⊆ s'.built)
    (hworkers : s'.workers = s.workers.put w x) (hx : Sound s.tables.lease s.episode s'.built x) :
    s'.Fenced := by
  refine ⟨?_, ?_⟩
  · rw [hworkers, hlease, hepisode]
    exact Slots.forall_put (fun e he => (hi.sound e he).mono (.refl _) hsub) hx
  · rw [hlease, hepisode]
    exact fun row hrow => (hi.owns row hrow).mono hsub

theorem Fenced.congr (hi : s.Fenced) (hlease : s'.tables.lease = s.tables.lease)
    (hepisode : s'.episode = s.episode) (hbuilt : s'.built = s.built) (hworkers : s'.workers = s.workers) :
    s'.Fenced := by
  refine ⟨?_, ?_⟩
  · rw [hworkers, hlease, hepisode, hbuilt]
    exact hi.sound
  · rw [hlease, hepisode, hbuilt]
    exact hi.owns

theorem Fenced.keep (hi : s.Fenced) (hepisode : s'.episode = s.episode) (hbuilt : s'.built = s.built)
    (hworkers : ∀ e ∈ s'.workers, e ∈ s.workers)
    (hkeep : KeepsEpoch s.tables.lease s'.tables.lease)
    (howns : ∀ row, s'.tables.lease = some row → Owns s.episode s.built row) : s'.Fenced := by
  refine ⟨?_, ?_⟩
  · rw [hepisode, hbuilt]
    exact fun e he => (hi.sound e (hworkers e he)).mono hkeep (fun _ h => h)
  · rw [hepisode, hbuilt]
    exact howns

/-! ## The steps -/

variable {now ttl k : ℕ} {serializes terminated : Bool}

theorem Fenced.acquire {caller : Caller} {input : AcquireLeaseInput}
    {session : Option SessionEnvelope} (hi : s.Fenced)
    (hok : s.Alone (.acquire w caller now input session))
    (h : s.acquire w caller now input session = some s') : s'.Fenced := by
  obtain rfl | ⟨role, row', tables, hlease, hcase, rfl⟩ := acquire_cases h
  · exact hi
  -- The row before the step is the one that is there, or a fresh one that nobody has seen.
  have hbefore : s.tables.lease = none ∨ s.tables.lease = some (s.tables.lease.getD (freshLease now input)) := by
    cases s.tables.lease <;> simp
  have howns : Owns s.episode s.built (s.tables.lease.getD (freshLease now input)) := by
    obtain hn | hs := hbefore
    · rw [hn]
      exact owns_cold rfl rfl
    · exact hi.owns _ hs
  have hnone : s.tables.lease = none → ∀ e ∈ s.workers, e.2.won = none := by
    intro hn e he
    cases hw : e.2.won with
    | none => rfl
    | some win =>
      obtain ⟨⟨r, hr, -⟩, -⟩ := hi.sound e he win hw
      rw [hn] at hr
      cases hr
  generalize s.tables.lease.getD (freshLease now input) = row at *
  obtain ⟨rfl, hwon⟩ | ⟨hrole, hquiet, -⟩ := hcase
  · -- The win: a new episode, under the epoch of the old one.
    have hepoch : row'.leaseEpoch = row.leaseEpoch := by
      obtain ⟨-, ⟨-, -, he, -⟩ | ⟨-, -, he, -⟩⟩ := hwon
      · exact he
      · exact he
    have hinst : row'.instanceId = none := by
      obtain ⟨-, ⟨hc, he, -, -⟩ | ⟨-, he, -, -⟩⟩ := hwon
      · rw [he]
        exact howns.1 hc
      · exact he
    refine ⟨?_, ?_⟩
    · apply Slots.forall_put
      · intro e he win hwin
        obtain hn | hs := hbefore
        · rw [hnone hn e he] at hwin
          cases hwin
        obtain ⟨⟨r, hr, hle, -⟩, hbox⟩ := hi.sound e he win hwin
        cases hs.symm.trans hr
        have hready : row.liveness = .cold ∨ row.conflicts input = true := by
          obtain ⟨-, ⟨hc, -⟩ | ⟨hc, -⟩⟩ := hwon
          · exact .inl hc
          · exact .inr hc
        have hother : win.expectedEpoch ≠ row.leaseEpoch := hok row hs hready e he win hwin
        refine ⟨⟨row', hlease, ?_, ?_⟩, hbox⟩
        · omega
        · intro heq
          exact absurd (heq.trans hepoch) hother
      · intro win hwin
        cases hwin
        refine ⟨⟨row', hlease, le_rfl, fun _ => rfl⟩, ?_⟩
        intro box hb
        simp [arrive, Stage.box?] at hb
    · intro r hr
      cases hlease.symm.trans hr
      exact owns_warming hwon.1 hinst
  · -- Everyone else finds the row as it is.
    refine ⟨?_, ?_⟩
    · rw [if_neg hrole]
      apply Slots.forall_put
      · intro e he
        apply (hi.sound e he).mono _ (fun _ h => h)
        intro r hr
        obtain hn | hs := hbefore
        · rw [hn] at hr
          cases hr
        cases hs.symm.trans hr
        exact ⟨row', hlease, hquiet.1.2.1⟩
      · apply sound_of_not_won
        simp [arrive, hrole]
    · rw [if_neg hrole]
      intro r hr
      cases hlease.symm.trans hr
      exact howns.quiet hquiet

theorem Fenced.read (hi : s.Fenced) (h : s.read w = some s') : s'.Fenced := by
  obtain ⟨x, hx, -, rfl⟩ := read_cases h
  refine hi.put w _ rfl rfl (fun _ h => h) rfl ?_
  intro win hwin
  refine ⟨(hi.worker hx win hwin).1, ?_⟩
  intro box hb
  cases hb

theorem Fenced.resume (hi : s.Fenced) (h : s.resume w = some s') : s'.Fenced := by
  obtain ⟨x, box, hx, -, -, rfl⟩ := resume_cases h
  refine hi.put w { x with stage := .established box } (by simp) (by simp) ?_ (by simp) ?_
  · rw [setStage_built, build_built]
    exact List.subset_append_right _ _
  · apply ((hi.worker hx).mono (.refl _) _).move
    · intro win box' hwin hb
      cases hb
      rw [setStage_built, build_built, hwin]
      exact List.mem_cons_self
    · rw [setStage_built, build_built]
      exact List.subset_append_right _ _

theorem afterCreate_box {box box' : String} {hydrate : Bool}
    (h : (x.afterCreate box hydrate).box? = some box') : box' = box := by
  unfold Worker.afterCreate Stage.afterCallback at h
  split at h
  · exact (Option.some.inj h).symm
  · split at h
    · exact (Option.some.inj h).symm
    · exact (Option.some.inj h).symm

theorem Fenced.create {box : String} (hi : s.Fenced) (h : s.create w box = some s') : s'.Fenced := by
  obtain ⟨x, skip, hx, -, -, -, rfl⟩ := create_cases h
  refine hi.put w { x with stage := x.afterCreate box (!skip && !x.candidates.isEmpty) } (by simp)
    (by simp) ?_ (by simp) ?_
  · rw [setStage_built, build_built]
    exact List.subset_append_right _ _
  · apply ((hi.worker hx).mono (.refl _) _).move
    · intro win box' hwin hb
      obtain rfl := afterCreate_box hb
      rw [setStage_built, build_built, hwin]
      exact List.mem_cons_self
    · rw [setStage_built, build_built]
      exact List.subset_append_right _ _

theorem Fenced.onSandboxCreated {warmingTtl : Option ℕ} (hi : s.Fenced)
    (h : s.onSandboxCreated w now serializes ttl warmingTtl terminated = some s') :
    s'.Fenced := by
  obtain ⟨x, win, box, hydrate, hx, hst, hwon, ⟨row, hrow, hwarming, rfl⟩ | ⟨-, rfl⟩⟩ := onSandboxCreated_cases h
  · obtain ⟨⟨r, hr, -, hcur⟩, hbox⟩ := hi.worker hx win hwon
    cases hrow.symm.trans hr
    have hmine : (win.episode, box) ∈ s.built := hbox box (by rw [hst]; rfl)
    have hkeep : KeepsEpoch s.tables.lease (some (recorded now serializes ttl warmingTtl x box row)) := by
      rw [hrow]
      exact .some rfl
    refine ⟨?_, ?_⟩
    · rw [setStage_workers]
      apply Slots.forall_put
      · exact fun e he => (hi.sound e he).mono hkeep (fun _ h => h)
      · apply ((hi.worker hx).mono hkeep (fun _ h => h)).move
        intro win' box' hwin' hb
        cases hwon.symm.trans hwin'
        obtain rfl : box' = box := by
          unfold Stage.afterCallback at hb
          split at hb
          · exact (Option.some.inj hb).symm
          · exact (Option.some.inj hb).symm
        exact hmine
    · intro r hr
      cases hr
      -- The fence says that the row is in the spawner's own episode.
      have hepisode : win.episode = s.episode := hcur hwarming.2.symm
      refine ⟨?_, ?_, ?_⟩
      · intro hc
        have : row.liveness = .cold := hc
        rw [hwarming.1] at this
        cases this
      · intro _ hc
        cases hc
      · intro box' hb
        cases hb
        rw [setStage_episode, ← hepisode]
        exact hmine
  · refine hi.put w { x with won := none, stage := .leaving } (by simp) (by simp) (by simp) (by simp) ?_
    exact sound_of_not_won rfl

theorem Fenced.hydrate {outcome : Hydration} (hi : s.Fenced) (h : s.hydrate w outcome = some s') : s'.Fenced := by
  obtain ⟨x, box, hx, hst, rfl | ⟨-, rfl⟩ | ⟨archive, b, -, -, rfl⟩ | ⟨archive, box', b, -, -, -, -, -, rfl⟩⟩ :=
    hydrate_cases h
  all_goals have hmine : ∀ win, x.won = some win → (win.episode, box) ∈ s.built :=
    fun win hwin => (hi.worker hx win hwin).2 box (by rw [hst]; rfl)
  · refine hi.put w { x with stage := .established box } rfl rfl (fun _ h => h) rfl ?_
    apply (hi.worker hx).move
    intro win box' hwin hb
    cases hb
    exact hmine win hwin
  · refine hi.put w { x with stage := .establishing true } (by simp) (by simp) (by simp) (by simp) ?_
    rw [setStage_built, stopBox_built]
    apply (hi.worker hx).move
    intro win box' hwin hb
    cases hb
  · refine hi.put w { x with stage := .established box } rfl rfl (fun _ h => h) rfl ?_
    apply (hi.worker hx).move
    intro win box' hwin hb
    cases hb
    exact hmine win hwin
  · refine hi.put w { x with stage := x.afterCreate box' false } (by simp) (by simp) ?_ (by simp) ?_
    · rw [setStage_built, build_built]
      exact List.subset_append_right _ _
    · apply ((hi.worker hx).mono (.refl _) _).move
      · intro win box'' hwin hb
        obtain rfl := afterCreate_box hb
        rw [setStage_built, build_built, hwin]
        exact List.mem_cons_self
      · rw [setStage_built, build_built]
        exact List.subset_append_right _ _

theorem Fenced.commit {url : Option String} (hi : s.Fenced)
    (h : s.commit w now serializes url ttl terminated = some s') : s'.Fenced := by
  obtain ⟨x, win, box, hx, hst, hwon, ⟨row, hrow, hwarming, rfl⟩ | ⟨-, rfl⟩⟩ := commit_cases h
  · obtain ⟨⟨r, hr, -, hcur⟩, hbox⟩ := hi.worker hx win hwon
    cases hrow.symm.trans hr
    have hmine : (win.episode, box) ∈ s.built := hbox box (by rw [hst]; rfl)
    have hepisode : win.episode = s.episode := hcur hwarming.2.symm
    refine ⟨?_, ?_⟩
    · apply Slots.forall_put
      · -- The bump fences everyone who has observed the epoch before it.
        intro e he win' hwin'
        obtain ⟨⟨r', hr', hle, -⟩, hbox'⟩ := hi.sound e he win' hwin'
        cases hrow.symm.trans hr'
        refine ⟨⟨_, rfl, ?_, ?_⟩, hbox'⟩
        · simp only [committed]
          omega
        · intro heq
          simp only [committed] at heq
          omega
      · exact sound_of_not_won rfl
    · intro r hr
      cases hr
      refine ⟨?_, ?_, ?_⟩
      · intro hc
        cases hc
      · intro _ hc
        cases hc
      · intro box' hb
        cases hb
        rw [← hepisode]
        exact hmine
  · refine hi.put w { x with won := none, stage := .leaving } (by simp) (by simp) (by simp) (by simp) ?_
    exact sound_of_not_won rfl

theorem Fenced.hold (hi : s.Fenced) (h : s.hold w = some s') : s'.Fenced := by
  obtain ⟨x, box, hx, -, hwon, rfl⟩ := hold_cases h
  exact hi.put w { x with stage := .holding (some box) } rfl rfl (fun _ h => h) rfl (sound_of_not_won hwon)

theorem Fenced.throws (hi : s.Fenced) (h : s.throws w terminated = some s') : s'.Fenced := by
  obtain ⟨x, stage, s₁, hx, hstage, hs₁, rfl⟩ := throws_cases h
  have hsame : s₁.tables = s.tables ∧ s₁.workers = s.workers ∧ s₁.episode = s.episode ∧ s₁.built = s.built := by
    obtain rfl | ⟨box, -, -, rfl⟩ := hs₁
    · exact ⟨rfl, rfl, rfl, rfl⟩
    · exact ⟨stopBox_tables, stopBox_workers, stopBox_episode, stopBox_built⟩
  obtain ⟨htables, hworkers, hepisode, hbuilt⟩ := hsame
  have hsub : s.built ⊆ s₁.built := by rw [hbuilt]; exact fun _ h => h
  obtain rfl | rfl := hstage
  · refine hi.put w { x with stage := .failing } (by rw [setStage_tables, htables]) hepisode hsub
      (by rw [setStage_workers, hworkers]; simp) ?_
    rw [setStage_built, hbuilt]
    apply (hi.worker hx).move
    intro win box hwin hb
    cases hb
  · refine hi.put w { x with won := none, stage := .leaving } (by rw [setStage_tables, htables]) hepisode
      hsub (by rw [setStage_workers, hworkers]; simp) ?_
    exact sound_of_not_won rfl

theorem Fenced.fail (hi : s.Fenced) (h : s.fail w = some s') : s'.Fenced := by
  obtain ⟨x, win, tables, hx, -, -, rfl, ⟨row, hrow, -, rfl⟩ | ⟨-, rfl⟩⟩ := fail_cases h
  · refine ⟨?_, ?_⟩
    · apply Slots.forall_put
      · intro e he
        apply (hi.sound e he).mono _ (fun _ h => h)
        rw [hrow]
        exact .some rfl
      · exact sound_of_not_won rfl
    · intro r hr
      cases hr
      exact owns_cold rfl rfl
  · exact hi.put w { x with won := none, stage := .leaving } rfl rfl (fun _ h => h) rfl (sound_of_not_won rfl)

theorem Fenced.release {idle : ℕ} (hi : s.Fenced) (h : s.release w now idle = some s') : s'.Fenced := by
  obtain ⟨tables, rfl, hsome, hnone⟩ := release_cases h
  refine hi.keep rfl rfl (fun e he => Slots.mem_of_mem_drop he) ?_ ?_
  · intro row hrow
    obtain ⟨row', hrow', hq⟩ := hsome row hrow
    exact ⟨row', hrow', hq.1.2.1⟩
  · intro row' hrow'
    cases hl : s.tables.lease with
    | none =>
      rw [hnone hl] at hrow'
      exact hi.owns _ hrow'
    | some row =>
      obtain ⟨r, hr, hq⟩ := hsome row hl
      cases hr.symm.trans hrow'
      exact (hi.owns row hl).quiet hq

theorem Fenced.heartbeat {epoch : ℕ} {kind : LeaseHolderKind} {holderId : String} (hi : s.Fenced) :
    Fenced { s with tables := (heartbeatLeaseHolder now kind holderId ttl epoch s.tables).1 } := by
  cases hl : s.tables.lease with
  | none =>
    refine ⟨?_, ?_⟩
    · intro e he
      apply sound_of_not_won
      cases hw : e.2.won with
      | none => rfl
      | some win =>
        obtain ⟨⟨r, hr, -⟩, -⟩ := hi.sound e he win hw
        rw [hl] at hr
        cases hr
    · intro row hrow
      obtain he | ⟨row₀, -, hr, -⟩ := heartbeatLeaseHolder_lease now ttl epoch kind holderId s.tables
      · rw [he, hl] at hrow
        cases hrow
      · rw [hl] at hr
        cases hr
  | some row =>
    obtain ⟨row', hrow', hq⟩ := heartbeat_lease now ttl epoch kind holderId hl
    refine hi.keep rfl rfl (fun e he => he) ?_ ?_
    · rw [hl]
      intro r hr
      cases hr
      exact ⟨row', hrow', hq.1.2.1⟩
    · intro r hr
      cases hrow'.symm.trans hr
      exact (hi.owns row hl).quiet hq

theorem Fenced.snapshot {archive : Archive} {interval capturedAt : ℕ} (hi : s.Fenced)
    (h : s.snapshot w archive interval capturedAt = some s') : s'.Fenced := by
  obtain rfl | ⟨x, box, row, -, -, hrow, -, -, rfl⟩ := snapshot_cases h
  · exact hi
  · refine hi.keep rfl rfl (fun e he => he) ?_ ?_
    · rw [hrow]
      exact .some rfl
    · intro r hr
      cases hr
      exact hi.owns row hrow

theorem Fenced.reap {input : ReapInput} (hi : s.Fenced) (h : s.reap k now input = some s') : s'.Fenced := by
  obtain ⟨hl, tables, hnone, rfl⟩ | ⟨row, row', tables, hl, hl', hswept, hcase⟩ := reap_cases h
  · exact hi.congr (by rw [hl]; exact hnone) rfl rfl rfl
  have hkeep : KeepsEpoch s.tables.lease tables.lease := by
    rw [hl, hl']
    apply KeepsEpoch.some
    obtain hq | ⟨-, -, -, -, -, he, -⟩ | ⟨-, -, -, -, -, hs⟩ := hswept
    · exact hq.1.2.1
    · exact he
    · exact hs.2.1
  have howns : ∀ r, tables.lease = some r → Owns s.episode s.built r := by
    intro r hr
    cases hl'.symm.trans hr
    have hrow := hi.owns row hl
    obtain hq | ⟨-, -, -, hc, hn, -, -⟩ | ⟨-, -, hsome, hd, -, hsame⟩ := hswept
    · exact hrow.quiet hq
    · exact owns_cold hc hn
    · -- The recorded box becomes drainable as it is.
      refine ⟨?_, ?_, ?_⟩
      · intro hc
        rw [hd] at hc
        cases hc
      · intro _
        rw [hsame.1]
        exact hsome
      · intro box hb
        exact hrow.2.2 box (hsame.1 ▸ hb)
  obtain rfl | ⟨-, rfl⟩ := hcase
  · exact hi.keep rfl rfl (fun e he => he) hkeep howns
  · exact hi.keep rfl rfl (fun e he => he) hkeep howns

theorem Fenced.persist (hi : s.Fenced) (h : s.persist k now = some s') : s'.Fenced := by
  obtain rfl | ⟨y, box, archive, row, -, -, hrow, -, rfl⟩ := persist_cases h
  · exact hi.congr rfl rfl rfl rfl
  · -- A fold changes the envelope only.
    have hsame : ∀ r, r = (archive.map fun a => row.foldWorkspaceArchive a none (now / 1000)).getD row →
        r.liveness = row.liveness ∧ r.instanceId = row.instanceId ∧ r.leaseEpoch = row.leaseEpoch := by
      rintro r rfl
      cases archive <;> exact ⟨rfl, rfl, rfl⟩
    refine hi.keep rfl rfl (fun e he => he) ?_ ?_
    · rw [hrow]
      exact .some (hsame _ rfl).2.2
    · intro r hr
      obtain ⟨hlive, hinst, -⟩ := hsame r (Option.some.inj hr).symm
      have hrow := hi.owns row hrow
      unfold Owns at hrow ⊢
      rw [hlive, hinst]
      exact hrow

theorem Fenced.confirm (hi : s.Fenced) (h : s.confirm k = some s') : s'.Fenced := by
  obtain ⟨y, tables, -, -, rfl, ⟨row, hrow, -, rfl⟩ | rfl⟩ := confirm_cases h
  · refine hi.keep rfl rfl (fun e he => he) ?_ ?_
    · rw [dropSweep_tables, hrow]
      exact .some rfl
    · intro r hr
      cases hr
      exact owns_cold rfl rfl
  · exact hi.congr rfl rfl rfl rfl

theorem fenced_step (hi : s.Fenced) (hok : s.Alone e) (h : s.step e = some s') : s'.Fenced := by
  cases e with
  | acquire => exact hi.acquire hok h
  | read => exact hi.read h
  | resume => exact hi.resume h
  | create => exact hi.create h
  | onSandboxCreated => exact hi.onSandboxCreated h
  | hydrate => exact hi.hydrate h
  | commit => exact hi.commit h
  | hold => exact hi.hold h
  | throws => exact hi.throws h
  | fail => exact hi.fail h
  | release => exact hi.release h
  | die w =>
    cases h
    exact hi.keep rfl rfl (fun e he => Slots.mem_of_mem_drop he) (.refl _) hi.owns
  | touch | stop =>
    cases h
    exact hi.congr rfl rfl rfl rfl
  | heartbeat =>
    cases h
    exact hi.heartbeat
  | snapshot => exact hi.snapshot h
  | reap => exact hi.reap h
  | reread k =>
    obtain rfl | ⟨y, row, -, -, -, -, rfl⟩ := reread_cases h
    · exact hi.congr rfl rfl rfl rfl
    · exact hi.congr rfl rfl rfl rfl
  | attach k outcome =>
    obtain rfl | ⟨y, lease, -, -, rfl | ⟨box, -, rfl⟩ | ⟨box, -, -, rfl⟩⟩ := attach_cases h
    all_goals exact hi.congr rfl rfl rfl rfl
  | capture k outcome =>
    obtain rfl | ⟨y, box, -, -, rfl | ⟨archive, -, rfl⟩⟩ := capture_cases h
    all_goals exact hi.congr rfl rfl rfl rfl
  | persist => exact hi.persist h
  | delete k raised =>
    obtain ⟨y, box, -, -, rfl⟩ := delete_cases h
    exact hi.congr (by simp) (by simp) (by simp) (by simp)
  | confirm => exact hi.confirm h
  | lost box =>
    cases h
    exact hi.congr (congrArg _ stopBox_tables) stopBox_episode stopBox_built stopBox_workers

/-! ## Runs -/

theorem Fenced.current {win : Win} (hi : s.Fenced) (hx : s.workers.get w = some x)
    (hwon : x.won = some win) (hrow : s.tables.lease = some row) (hw : row.Warming win.expectedEpoch) :
    win.episode = s.episode := by
  obtain ⟨⟨r, hr, -, hcur⟩, -⟩ := hi.worker hx win hwon
  cases hrow.symm.trans hr
  exact hcur hw.2.symm

theorem Fenced.inert (hi : s.Fenced) : s.Inert := by
  refine ⟨?_, ?_⟩
  · intro w x win e s' hx hwon hleft hwrites h
    -- A row that lets the write through is warming in the spawner's episode, which is over.
    have hmiss : ∀ row, s.tables.lease = some row → ¬ row.Warming win.expectedEpoch := by
      intro row hrow hw
      exact hleft row hrow hw.1 (hi.current hx hwon hrow hw).symm
    cases e with
    | onSandboxCreated w' now serializes ttl warmingTtl terminated =>
      obtain rfl : w' = w := hwrites
      obtain ⟨x', win', box, hydrate, hx', -, hwon', ⟨row, hrow, hw, -⟩ | ⟨-, rfl⟩⟩ := onSandboxCreated_cases h
      · cases hx.symm.trans hx'
        cases hwon.symm.trans hwon'
        exact absurd hw (hmiss row hrow)
      · simp
    | commit w' now serializes url ttl terminated =>
      obtain rfl : w' = w := hwrites
      obtain ⟨x', win', box, hx', -, hwon', ⟨row, hrow, hw, -⟩ | ⟨-, rfl⟩⟩ := commit_cases h
      · cases hx.symm.trans hx'
        cases hwon.symm.trans hwon'
        exact absurd hw (hmiss row hrow)
      · simp
    | fail w' =>
      obtain rfl : w' = w := hwrites
      obtain ⟨x', win', tables, hx', -, hwon', rfl, ⟨row, hrow, hw, -⟩ | ⟨-, rfl⟩⟩ := fail_cases h
      · cases hx.symm.trans hx'
        cases hwon.symm.trans hwon'
        exact absurd hw (hmiss row hrow)
      · simp
    | _ => exact absurd hwrites id
  · intro row hrow hwarm
    obtain ⟨-, hopen, hbox⟩ := hi.owns row hrow
    obtain ⟨box, hb⟩ := Option.ne_none_iff_exists'.1 (hopen (.inl hwarm))
    exact ⟨box, hb, hbox box hb⟩

/-- **A superseded spawner is inert.** In every run in which a row is taken out of cold only when
no spawner that observed its epoch is still at work, a spawner whose episode is over changes
nothing by its writes, and a warm lease names the box of its episode's own spawner. -/
theorem lost_spawner_inert {events : List FleetEvent}
    (h : Run (Restrict (fun s e t => s.step e = some t) Alone) start events s) : s.Inert :=
  Fenced.inert (h.invariant (P := Fenced) (fun _ _ _ hstep hi => fenced_step hi hstep.2 hstep.1) fenced_start)

/-- The lease of a turn, with the times to live of the default settings. -/
def turnInput (holderId : String) : AcquireLeaseInput :=
  { kind := .turn, holderId, backend := "modal", image := none, rigVersionId := none, leaseTtlMs := 90000
    warmingLeaseTtlMs := some 600000, expectedEpoch := none }

def sweepInput : ReapInput :=
  { viewerHolderTtlMs := 90000, turnHolderTtlMs := 690000, idleGraceMs := 120000 }

def oneSpawner : List FleetEvent := [.acquire 0 .resumeBoxForTurn 0 (turnInput "turn-1") none, .create 0 "box-1",
    .onSandboxCreated 0 1000000 true 90000 (some 600000) true, .commit 0 2000000 true none 90000 true]

/-- In such a run the box of the one spawner is the lease's. -/
theorem lost_spawner_inert_once : ∃ s, Run (Restrict (fun s e t => step s e = some t) Alone) start oneSpawner s ∧
      (s.tables.lease.bind (·.instanceId)) = some "box-1" ∧ s.Inert := by
  have hrun : play (guarded step Alone) start oneSpawner = some _ := rfl
  exact ⟨_, guarded_run hrun, rfl, lost_spawner_inert (guarded_run hrun)⟩

/-- The first spawner is slow: its row is swept and won again before its box is there. -/
def slowSpawner : List FleetEvent :=
  [.acquire 0 .resumeBoxForTurn 0 (turnInput "turn-1") none, .reap 0 600000001 sweepInput,
    .acquire 1 .resumeBoxForTurn 600000002 (turnInput "turn-2") none, .create 0 "box-1",
    .onSandboxCreated 0 600000003 true 90000 (some 600000) true,
    .commit 0 600000004 true none 90000 true]

/-- The second spawner's row is committed with the first one's box. -/
theorem slow_spawner_commits :
    ∃ s, Run (fun s e t => step s e = some t) start slowSpawner s ∧ ¬ s.Inert := by
  have hrun : play step start slowSpawner = some _ := rfl
  refine ⟨_, run_of_play hrun, ?_⟩
  rintro ⟨-, hwarm⟩
  obtain ⟨box, hbox, hbuilt⟩ := hwarm _ rfl rfl
  cases hbox
  exact absurd hbuilt (by decide)

end Fleet

end OpenGeni.Sandbox
