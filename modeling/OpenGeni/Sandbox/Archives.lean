/-
Which workspace archive an establish reads.

An archive that has been folded onto `resume_state` has to outlive every rewrite of it. The
failure of a spawner and the way to cold keep it, and so does the record of a created box.
The commit and the sweep of a spawner that died without a box do not: the first stores the
live box's serialized state, the second nothing. What is lost at the commit is not missed as
long as the box it names is there, and comes back with the next capture of it. Where that
box is not stopped before, the sweep of a dead spawner meets no archive, and no spawner
records into an episode that is not its own, every establish that has to create a box reads
the archive that was folded last (`establish_reads_newest`).
-/
import OpenGeni.Sandbox.Spawner

namespace OpenGeni.Sandbox

open OpenGeni.Lib OpenGeni.Db

/-! ## The statement -/

/-- The worker may yet have to create a box without another look at the archive. -/
def Stage.Replays : Stage → Prop
  | .establishing skip => skip = true
  | .created .. | .hydrating .. => True
  | _ => False

namespace Fleet

/-- Whoever has to create a box has read the archive that was folded last. -/
def ReadsNewest (s : Fleet) : Prop := ∀ w x skip a, s.workers.get w = some x → x.stage = .establishing skip →
    (skip = true ∨ s.resumable x = none) → x.known = some a → x.envelope.bind (·.workspaceArchive) = some a

/-- Neither the row nor an establish names the box without carrying the archive folded last. -/
def Spared (s : Fleet) (box : String) : Prop :=
  (∀ row ∈ s.tables.lease, row.sandboxId = some box → row.workspaceArchive = s.newest) ∧
    ∀ e ∈ s.workers, e.2.stage = .establishing false → e.2.envelope.bind (·.sandboxId) = some box →
      e.2.envelope.bind (·.workspaceArchive) = e.2.known

instance (s : Fleet) (box : String) : Decidable (s.Spared box) :=
  inferInstanceAs (Decidable (_ ∧ _))

/-- What an event may not meet: an image or rig conflict, a commit on a row with an archive whose
box is not there or cannot be named, a dead spawner's row with an archive and no box, and a
row that goes cold without the archive folded last. -/
def Keeps (s : Fleet) : FleetEvent → Prop
  | .acquire _ _ _ input _ => ∀ row ∈ s.tables.lease, row.conflicts input = false
  | .commit w _ serializes .. =>
    ∀ x ∈ s.workers.get w, ∀ win ∈ x.won, ∀ row ∈ s.tables.lease, row.Warming win.expectedEpoch →
      row.workspaceArchive = none ∨ serializes = true ∧ ∀ box ∈ x.stage.box?, s.running box = true
  | .reap _ now _ =>
    ∀ row ∈ s.tables.lease, row.liveness = .warming → row.expiresAt < now → row.instanceId = none →
      row.workspaceArchive = none
  | .confirm k =>
    ∀ y ∈ s.sweeps.get k, ∀ row ∈ s.tables.lease, row.Idle y.leaseEpoch → row.workspaceArchive = s.newest
  | _ => True

instance (s : Fleet) (e : FleetEvent) : Decidable (s.Keeps e) :=
  match e with
  | .acquire _ _ _ input _ => inferInstanceAs (Decidable (∀ row ∈ s.tables.lease, row.conflicts input = false))
  | .commit w _ serializes .. =>
    inferInstanceAs (Decidable (∀ x ∈ s.workers.get w, ∀ win ∈ x.won, ∀ row ∈ s.tables.lease,
      row.Warming win.expectedEpoch →
        row.workspaceArchive = none ∨ serializes = true ∧ ∀ box ∈ x.stage.box?, s.running box = true))
  | .reap _ now _ =>
    inferInstanceAs (Decidable (∀ row ∈ s.tables.lease, row.liveness = .warming →
      row.expiresAt < now → row.instanceId = none → row.workspaceArchive = none))
  | .confirm k =>
    inferInstanceAs (Decidable (∀ y ∈ s.sweeps.get k, ∀ row ∈ s.tables.lease, row.Idle y.leaseEpoch →
      row.workspaceArchive = s.newest))
  | .read _ | .resume _ | .create .. | .onSandboxCreated .. | .hydrate .. | .hold _
  | .throws .. | .fail _ | .release .. | .die _ | .touch .. | .heartbeat .. | .snapshot ..
  | .reread _ | .attach .. | .capture .. | .persist .. | .delete .. | .stop _ | .lost _ =>
    .isTrue trivial

/-- No spawner beside one of an earlier episode, no box stopped that is needed for want of the
archive, and nothing that loses it. -/
def Preserving (s : Fleet) (e : FleetEvent) : Prop := s.Alone e ∧ (∀ box ∈ s.stops e, s.Spared box) ∧ s.Keeps e

instance (s : Fleet) (e : FleetEvent) : Decidable (s.Preserving e) :=
  inferInstanceAs (Decidable (_ ∧ _ ∧ _))

/-! ## Which boxes go on running -/

variable {s s' : Fleet} {e : FleetEvent} {row row' : LeaseRow} {episode : ℕ} {w k : ℕ}
  {newest : Option Archive} {x x' : Worker} {lease lease' : Option LeaseRow} {box box' : String}
  {alive : String → Bool} {known : Option Archive} {envelope : Option Envelope}

theorem running_congr (h : s'.boxes = s.boxes) : s'.running = s.running := by
  unfold running
  rw [h]

theorem running_get {b : Box} (hb : s.boxes.get box = some b) : s.running box = b.running := by
  unfold running
  rw [hb]
  rfl

theorem running_put {b : Box} (hs : s'.boxes = s.boxes.put box' b) (hrun : s.running box = true)
    (hne : box ≠ box') : s'.running box = true := by
  unfold running at hrun ⊢
  rw [hs, Slots.get_put_of_ne hne]
  exact hrun

theorem running_stopBox (hrun : s.running box = true) (hne : box ≠ box') : (s.stopBox box').running box = true := by
  unfold stopBox
  cases hb : s.boxes.get box' with
  | none => exact hrun
  | some b => exact running_put rfl hrun hne

theorem running_ne (hrun : s.running box = true) (hfresh : s.boxes.get box' = none) : box ≠ box' := by
  rintro rfl
  unfold running at hrun
  rw [hfresh] at hrun
  cases hrun

/-- **What is not stopped goes on running.** -/
theorem running_step (h : s.step e = some s') (hrun : s.running box = true) (hne : s.stops e ≠ some box) :
    s'.running box = true := by
  -- The box of the event is another one, if the event may stop it.
  have hother : ∀ b, s.stops e = some b → box ≠ b := by
    rintro b hb rfl
    exact hne hb
  obtain hb | ⟨b, hstop, hb⟩ | ⟨b, c, hfresh, hb⟩ | ⟨b, c, a, hc, hb⟩ | ⟨b, b', c, hstop, hfresh, hb⟩ :=
    (boxes_folds_cases h).1
  · rw [running_congr hb]
    exact hrun
  · rw [running_congr hb]
    exact running_stopBox hrun (hother b hstop)
  · exact running_put hb hrun (running_ne hrun hfresh)
  · -- The replay ends in the box it began in.
    by_cases hbox : box = b
    · obtain rfl := hbox
      rw [running_get hc] at hrun
      unfold running
      rw [hb, Slots.get_put]
      exact hrun
    · exact running_put hb hrun hbox
  · exact running_put hb (running_stopBox hrun (hother b hstop)) (running_ne hrun hfresh)

/-! ## The invariant -/

def Carried (known : Option Archive) (envelope : Option Envelope) : Prop :=
  ∀ a, known = some a → envelope.bind (·.workspaceArchive) = some a

def Names (alive : String → Bool) (envelope : Option Envelope) : Prop :=
  ∃ box, envelope.bind (·.sandboxId) = some box ∧ alive box = true

/-- The row carries the archive that was folded last, or it is unlocked and names a running box. -/
def Guards (alive : String → Bool) (newest : Option Archive) (lease : Option LeaseRow) : Prop :=
  ∀ a, newest = some a → ∃ row, lease = some row ∧ (row.workspaceArchive = some a ∨
      ((row.liveness = .warm ∨ row.liveness = .draining) ∧ Names alive row.resumeState))

/-- A worker's envelope carries the archive it knows of, as long as that can matter, and a spawner
in its own episode knows of the one that was folded last. -/
def Informed (alive : String → Bool) (newest : Option Archive) (lease : Option LeaseRow) (episode : ℕ)
    (x : Worker) : Prop :=
  (x.stage = .establishing false → Carried x.known x.envelope ∨ Names alive x.envelope) ∧
    (x.stage.Replays → Carried x.known x.envelope) ∧
    ∀ win, x.won = some win → x.stage ≠ .waiting ∧ Carried x.known x.envelope ∧ win.episode ≤ episode ∧
      (win.episode = episode → ∀ row, lease = some row → row.liveness = .warming → x.known = newest)

structure Kept (alive : String → Bool) (s : Fleet) : Prop where
  guards : Guards alive s.newest s.tables.lease
  informed : ∀ e ∈ s.workers, Informed alive s.newest s.tables.lease s.episode e.2

theorem kept_start : Kept alive start := by
  refine ⟨?_, ?_⟩
  · intro a ha
    cases ha
  · intro e he
    simp [start] at he

/-! ## Rows -/

theorem Guards.of_full (h : ∀ a, newest = some a → row.workspaceArchive = some a) :
    Guards alive newest (some row) :=
  fun a ha => ⟨row, rfl, .inl (h a ha)⟩

theorem Guards.full (h : Guards alive newest (some row)) (hl : row.liveness = .cold ∨ row.liveness = .warming) :
    ∀ a, newest = some a → row.workspaceArchive = some a := by
  intro a ha
  obtain ⟨r, hr, har | ⟨hw, -⟩⟩ := h a ha
  · cases hr
    exact har
  · cases hr
    obtain hl | hl := hl <;> rw [hl] at hw <;> obtain hw | hw := hw <;> cases hw

theorem Guards.none_of_warming (h : Guards alive newest (some row)) (hl : row.liveness = .warming)
    (ha : row.workspaceArchive = none) : newest = none := by
  cases hn : newest with
  | none => rfl
  | some a =>
    have har := h.full (.inr hl) a hn
    rw [ha] at har
    cases har

theorem guards_none : Guards alive none lease := by
  intro a ha
  cases ha

theorem sameBox_workspaceArchive (h : row.SameBox row') : row'.workspaceArchive = row.workspaceArchive := by
  unfold LeaseRow.workspaceArchive
  rw [h.2.2]

theorem Guards.quiet (h : Guards alive newest (some row)) (hq : row.Quiet row') :
    Guards alive newest (some row') := by
  intro a ha
  refine ⟨row', rfl, ?_⟩
  obtain ⟨r, hr, har | ⟨hw, hn⟩⟩ := h a ha
  · cases hr
    exact .inl ((sameBox_workspaceArchive hq.1).trans har)
  · cases hr
    refine .inr ⟨?_, hq.1.2.2 ▸ hn⟩
    obtain ⟨-, he | ⟨-, he⟩ | ⟨-, he⟩⟩ := hq
    · rw [he]; exact hw
    · exact .inr he
    · exact .inl he

def NoneWarms (lease lease' : Option LeaseRow) : Prop := ∀ row', lease' = some row' → row'.liveness = .warming →
    ∃ row, lease = some row ∧ row.liveness = .warming

theorem NoneWarms.refl (lease : Option LeaseRow) : NoneWarms lease lease := fun row hrow hw => ⟨row, hrow, hw⟩

theorem noneWarms_quiet (hq : row.Quiet row') : NoneWarms (some row) (some row') := by
  intro r hr hw
  cases hr
  obtain ⟨-, he | ⟨-, he⟩ | ⟨-, he⟩⟩ := hq
  · exact ⟨row, rfl, he ▸ hw⟩
  · rw [he] at hw; cases hw
  · rw [he] at hw; cases hw

theorem noneWarms_of_ne (h : row'.liveness ≠ .warming) : NoneWarms lease (some row') := by
  intro r hr hw
  cases hr
  exact absurd hw h

/-! ## Workers -/

theorem Informed.mono (h : Informed alive newest lease episode x) (hw : NoneWarms lease lease') :
    Informed alive newest lease' episode x := by
  refine ⟨h.1, h.2.1, ?_⟩
  intro win hwin
  obtain ⟨hst, hc, hle, hcur⟩ := h.2.2 win hwin
  refine ⟨hst, hc, hle, ?_⟩
  intro hep row' hrow' hl
  obtain ⟨row, hrow, hl⟩ := hw row' hrow' hl
  exact hcur hep row hrow hl

theorem Informed.fold {newest' : Option Archive} (h : Informed alive newest lease episode x)
    (hl : row.liveness ≠ .warming) : Informed alive newest' (some row) episode x := by
  refine ⟨h.1, h.2.1, ?_⟩
  intro win hwin
  obtain ⟨hst, hc, hle, -⟩ := h.2.2 win hwin
  refine ⟨hst, hc, hle, ?_⟩
  intro _ r hr hw
  cases hr
  exact absurd hw hl

theorem Informed.move (h : Informed alive newest lease episode x) (hknown : x'.known = x.known)
    (henvelope : x'.envelope = x.envelope) (hwon : x'.won = x.won ∨ x'.won = none)
    (hstage : x'.stage ≠ .waiting ∧ x'.stage ≠ .establishing false)
    (hreplays : x'.stage.Replays → Carried x.known x.envelope) : Informed alive newest lease episode x' := by
  refine ⟨fun hc => absurd hc hstage.2, ?_, ?_⟩
  · rw [hknown, henvelope]
    exact hreplays
  · intro win hwin
    rw [hknown, henvelope]
    obtain he | he := hwon
    · exact ⟨hstage.1, (h.2.2 win (he ▸ hwin)).2⟩
    · rw [he] at hwin
      cases hwin

theorem Kept.worker (hi : s.Kept alive) (hx : s.workers.get w = some x) :
    Informed alive s.newest s.tables.lease s.episode x :=
  hi.informed _ (Slots.mem_of_get hx)

theorem Kept.put (hi : Kept alive s) (w : ℕ) (x : Worker) (hlease : s'.tables.lease = s.tables.lease)
    (hfolds : s'.folds = s.folds) (hepisode : s'.episode = s.episode)
    (hworkers : s'.workers = s.workers.put w x)
    (hx : Informed alive s.newest s.tables.lease s.episode x) : Kept alive s' := by
  have hnewest : s'.newest = s.newest := by unfold newest; rw [hfolds]
  refine ⟨?_, ?_⟩
  · rw [hnewest, hlease]
    exact hi.guards
  · rw [hnewest, hlease, hepisode, hworkers]
    exact Slots.forall_put hi.informed hx

theorem Kept.keep (hi : Kept alive s) (hfolds : s'.folds = s.folds) (hepisode : s'.episode = s.episode)
    (hworkers : ∀ e ∈ s'.workers, e ∈ s.workers) (hguards : Guards alive s.newest s'.tables.lease)
    (hwarms : NoneWarms s.tables.lease s'.tables.lease) : Kept alive s' := by
  have hnewest : s'.newest = s.newest := by unfold newest; rw [hfolds]
  refine ⟨?_, ?_⟩
  · rw [hnewest]
    exact hguards
  · rw [hnewest, hepisode]
    exact fun e he => (hi.informed e (hworkers e he)).mono hwarms

theorem Kept.congr (hi : Kept alive s) (hlease : s'.tables.lease = s.tables.lease) (hfolds : s'.folds = s.folds)
    (hepisode : s'.episode = s.episode) (hworkers : s'.workers = s.workers) : Kept alive s' := by
  apply hi.keep hfolds hepisode
  · rw [hworkers]
    exact fun e he => he
  · rw [hlease]
    exact hi.guards
  · rw [hlease]
    exact .refl _

theorem Kept.fold (a : Archive) (box : String) (row : LeaseRow) (hi : Kept alive s)
    (hfolds : s'.folds = (a, box) :: s.folds) (hepisode : s'.episode = s.episode)
    (hworkers : s'.workers = s.workers) (hlease : s'.tables.lease = some row)
    (harchive : row.workspaceArchive = some a) (hl : row.liveness ≠ .warming) : Kept alive s' := by
  have hnewest : s'.newest = some a := by unfold newest; rw [hfolds]; rfl
  refine ⟨?_, ?_⟩
  · rw [hnewest, hlease]
    apply Guards.of_full
    intro b hb
    cases hb
    exact harchive
  · rw [hworkers, hlease, hepisode]
    exact fun e he => (hi.informed e he).fold hl

theorem Kept.survive (hi : Kept s.running s) (hok : ∀ box ∈ s.stops e, s.Spared box)
    (h : s.step e = some s') : Kept s'.running s := by
  refine ⟨?_, ?_⟩
  · intro a ha
    obtain ⟨row, hrow, har | ⟨hl, box, hbox, hrun⟩⟩ := hi.guards a ha
    · exact ⟨row, hrow, .inl har⟩
    by_cases hstop : s.stops e = some box
    · have hspared := (hok box hstop).1 row hrow hbox
      exact ⟨row, hrow, .inl (hspared.trans ha)⟩
    · exact ⟨row, hrow, .inr ⟨hl, box, hbox, running_step h hrun hstop⟩⟩
  · intro p hp
    refine ⟨?_, (hi.informed p hp).2⟩
    intro hst
    obtain hc | ⟨box, hbox, hrun⟩ := (hi.informed p hp).1 hst
    · exact .inl hc
    by_cases hstop : s.stops e = some box
    · have hspared := (hok box hstop).2 p hp hst hbox
      exact .inl fun a ha => hspared.trans ha
    · exact .inr ⟨box, hbox, running_step h hrun hstop⟩

theorem Kept.creates {skip : Bool} (hi : Kept s.running s) (hx : s.workers.get w = some x)
    (hst : x.stage = .establishing skip) (hnone : skip = true ∨ s.resumable x = none) :
    Carried x.known x.envelope := by
  cases skip with
  | true => exact (hi.worker hx).2.1 (by rw [hst]; rfl)
  | false =>
    obtain hc | ⟨box, hbox, hrun⟩ := (hi.worker hx).1 hst
    · exact hc
    · -- A box that is named and runs would be resumed.
      obtain hnone | hnone := hnone
      · cases hnone
      · unfold resumable at hnone
        rw [hbox] at hnone
        simp [hrun] at hnone

/-! ## The steps -/

theorem guards_envelope {session : Option SessionEnvelope} (h : Guards alive newest lease) :
    Carried newest ((lease.bind (·.resumeState)).or (session.map (·.toEnvelope))) ∨
      Names alive ((lease.bind (·.resumeState)).or (session.map (·.toEnvelope))) := by
  cases hn : newest with
  | none =>
    left
    intro a ha
    cases ha
  | some a =>
    obtain ⟨row, rfl, har | ⟨-, box, hbox, hrun⟩⟩ := h a hn
    · left
      intro b hb
      cases hb
      unfold LeaseRow.workspaceArchive at har
      cases hr : row.resumeState with
      | none => rw [hr] at har; cases har
      | some envelope => rw [hr] at har; simpa [hr] using har
    · right
      cases hr : row.resumeState with
      | none => rw [hr] at hbox; cases hbox
      | some envelope => exact ⟨box, by rw [hr] at hbox; simpa [hr] using hbox, hrun⟩

theorem afterCallback_ne {hydrate : Bool} : Stage.afterCallback box hydrate ≠ .waiting ∧
    Stage.afterCallback box hydrate ≠ .establishing false := by
  unfold Stage.afterCallback
  cases hydrate <;> simp

theorem afterCreate_ne {hydrate : Bool} : x.afterCreate box hydrate ≠ .waiting ∧
    x.afterCreate box hydrate ≠ .establishing false := by
  unfold Worker.afterCreate
  by_cases hr : x.records = true
  · simp [hr]
  · rw [if_neg hr]
    exact afterCallback_ne

theorem Kept.acquire {caller : Caller} {now : ℕ} {input : AcquireLeaseInput}
    {session : Option SessionEnvelope} (hi : Kept alive s) (hok : s.Keeps (.acquire w caller now input session))
    (h : s.acquire w caller now input session = some s') : Kept alive s' := by
  obtain rfl | ⟨role, row', tables, hlease, hcase, rfl⟩ := acquire_cases h
  · exact hi
  by_cases hrole : role = .spawner
  · -- A new episode: whoever is still at work is a spawner of an earlier one.
    have hfull : ∀ a, s.newest = some a → row'.workspaceArchive = some a := by
      cases hl : s.tables.lease with
      | none =>
        intro a ha
        obtain ⟨r, hr, -⟩ := hi.guards a ha
        rw [hl] at hr
        cases hr
      | some row =>
        have hrow : Guards alive s.newest (some row) := hl ▸ hi.guards
        have hno : row.conflicts input = false := hok row hl
        rw [hl] at hcase
        simp only [Option.getD_some] at hcase
        obtain ⟨-, -, ⟨hcold, hsame⟩ | ⟨hc, -⟩⟩ | ⟨hne, -⟩ := hcase
        · intro a ha
          exact (sameBox_workspaceArchive hsame).trans (hrow.full (.inl hcold) a ha)
        · rw [hno] at hc
          cases hc
        · exact absurd hrole hne
    refine ⟨?_, ?_⟩
    · rw [hlease]
      exact .of_full hfull
    · dsimp only
      rw [if_pos hrole]
      apply Slots.forall_put
      · intro p hp
        refine ⟨(hi.informed p hp).1, (hi.informed p hp).2.1, ?_⟩
        intro win hwin
        obtain ⟨hst, hc, hle, -⟩ := (hi.informed p hp).2.2 win hwin
        refine ⟨hst, hc, by omega, ?_⟩
        intro heq
        omega
      · have hcarried : Carried s.newest (row'.resumeState.or (session.map (·.toEnvelope))) := by
          intro a ha
          have har := hfull a ha
          unfold LeaseRow.workspaceArchive at har
          cases hr : row'.resumeState with
          | none => rw [hr] at har; cases har
          | some envelope => rw [hr] at har; exact har
        refine ⟨fun _ => .inl hcarried, fun _ => hcarried, ?_⟩
        intro win hwin
        simp only [arrive, hrole, if_true] at hwin
        cases hwin
        exact ⟨by simp [arrive, hrole], hcarried, le_rfl, fun _ _ _ _ => rfl⟩
  · obtain ⟨row, hrow, hq⟩ : ∃ row, s.tables.lease = some row ∧ row.Quiet row' := by
      cases hl : s.tables.lease with
      | none =>
        rw [hl] at hcase
        obtain ⟨hr, -⟩ | ⟨-, -, hc⟩ := hcase
        · exact absurd hr hrole
        · exact absurd rfl hc
      | some row =>
        rw [hl] at hcase
        obtain ⟨hr, -⟩ | ⟨-, hq, -⟩ := hcase
        · exact absurd hr hrole
        · exact ⟨row, rfl, hq⟩
    refine ⟨?_, ?_⟩
    · rw [hlease]
      exact (hrow ▸ hi.guards : Guards alive s.newest (some row)).quiet hq
    · rw [if_neg hrole]
      apply Slots.forall_put
      · intro p hp
        apply (hi.informed p hp).mono
        rw [hlease, hrow]
        exact noneWarms_quiet hq
      · -- An attached worker reads the lease before it establishes.
        have hstage : (s.arrive caller input session role row').stage ≠ .establishing false ∧
            ¬ (s.arrive caller input session role row').stage.Replays := by
          unfold arrive
          cases role with
          | spawner => exact absurd rfl hrole
          | fenced => exact ⟨by simp, id⟩
          | attached | rearmed =>
            by_cases hcaller : caller = .attachViewer
            · simp only [hcaller, if_true]
              exact ⟨by simp, id⟩
            · simp only [hcaller, if_false]
              exact ⟨by simp, id⟩
        refine ⟨fun hc => absurd hc hstage.1, fun hc => absurd hc hstage.2, ?_⟩
        intro win hwin
        simp [arrive, hrole] at hwin

theorem Kept.read (hi : Kept alive s) (h : s.read w = some s') : Kept alive s' := by
  obtain ⟨x, hx, hst, rfl⟩ := read_cases h
  refine hi.put w _ rfl rfl rfl rfl ⟨fun _ => guards_envelope hi.guards, ?_, ?_⟩
  · intro hc
    cases hc
  · intro win hwin
    exact absurd hst ((hi.worker hx).2.2 win hwin).1

theorem Kept.resume (hi : Kept alive s) (h : s.resume w = some s') : Kept alive s' := by
  obtain ⟨x, box, hx, -, -, rfl⟩ := resume_cases h
  refine hi.put w { x with stage := .established box } (by simp) (by simp) (by simp) (by simp) ?_
  exact (hi.worker hx).move rfl rfl (.inl rfl) (by simp) False.elim

theorem Kept.create (hi : Kept alive s) (hs : Kept s.running s) (h : s.create w box = some s') : Kept alive s' := by
  obtain ⟨x, skip, hx, hst, hnone, -, rfl⟩ := create_cases h
  have hcarried : Carried x.known x.envelope := by
    apply hs.creates hx hst
    cases skip with
    | true => exact .inl rfl
    | false => exact .inr (hnone rfl)
  refine hi.put w { x with stage := x.afterCreate box (!skip && !x.candidates.isEmpty) } (by simp) (by simp)
    (by simp) (by simp) ?_
  exact (hi.worker hx).move rfl rfl (.inl rfl) afterCreate_ne fun _ => hcarried

theorem preserve_workspaceArchive {resumeState source : Option Envelope} {a : Archive}
    (h : source.bind (·.workspaceArchive) = some a) :
    (preserveWorkspaceArchiveOnInterimResumeState resumeState source).bind (·.workspaceArchive) = some a := by
  unfold preserveWorkspaceArchiveOnInterimResumeState
  rw [h]
  rfl

theorem Informed.leave (h : Informed alive newest lease episode x) :
    Informed alive newest lease episode { x with won := none, stage := .leaving } :=
  h.move rfl rfl (.inr rfl) (by simp) False.elim

theorem Kept.onSandboxCreated {now ttl : ℕ} {serializes terminated : Bool} {warmingTtl : Option ℕ}
    (hi : Kept alive s) (hf : s.Fenced)
    (h : s.onSandboxCreated w now serializes ttl warmingTtl terminated = some s') : Kept alive s' := by
  obtain ⟨x, win, box, hydrate, hx, hst, hwon, ⟨row, hrow, hwarming, rfl⟩ | ⟨-, rfl⟩⟩ := onSandboxCreated_cases h
  · have hinformed := hi.worker hx
    obtain ⟨-, hcarried, -, hcur⟩ := hinformed.2.2 win hwon
    -- The spawner is in its own episode, where nothing has been folded since its win.
    have hknown : x.known = s.newest := hcur (hf.current hx hwon hrow hwarming) row hrow hwarming.1
    have hwarms : NoneWarms s.tables.lease (some (recorded now serializes ttl warmingTtl x box row)) :=
      fun _ _ _ => ⟨row, hrow, hwarming.1⟩
    refine ⟨?_, ?_⟩
    · apply Guards.of_full
      intro a ha
      exact preserve_workspaceArchive (hcarried a (hknown.trans ha))
    · apply Slots.forall_put
      · exact fun e he => (hi.informed e he).mono hwarms
      · exact (hinformed.mono hwarms).move rfl rfl (.inl rfl) afterCallback_ne fun _ => hcarried
  · exact hi.put w { x with won := none, stage := .leaving } (by simp) (by simp) (by simp) (by simp)
      (hi.worker hx).leave

theorem Kept.hydrate {outcome : Hydration} (hi : Kept alive s) (h : s.hydrate w outcome = some s') :
    Kept alive s' := by
  obtain ⟨x, box, hx, hst, hcase⟩ := hydrate_cases h
  have hcarried : Carried x.known x.envelope := (hi.worker hx).2.1 (by rw [hst]; trivial)
  obtain rfl | ⟨-, rfl⟩ | ⟨archive, b, -, -, rfl⟩ | ⟨archive, box', b, -, -, -, -, -, rfl⟩ := hcase
  · refine hi.put w { x with stage := .established box } rfl rfl rfl rfl ?_
    exact (hi.worker hx).move rfl rfl (.inl rfl) (by simp) False.elim
  · refine hi.put w { x with stage := .establishing true } (by simp) (by simp) (by simp) (by simp) ?_
    exact (hi.worker hx).move rfl rfl (.inl rfl) (by simp) fun _ => hcarried
  · refine hi.put w { x with stage := .established box } rfl rfl rfl rfl ?_
    exact (hi.worker hx).move rfl rfl (.inl rfl) (by simp) False.elim
  · refine hi.put w { x with stage := x.afterCreate box' false } (by simp) (by simp) (by simp) (by simp) ?_
    exact (hi.worker hx).move rfl rfl (.inl rfl) afterCreate_ne fun _ => hcarried

theorem Kept.commit {now ttl : ℕ} {serializes terminated : Bool} {url : Option String}
    (hi : Kept s'.running s) (hok : s.Keeps (.commit w now serializes url ttl terminated))
    (h : s.commit w now serializes url ttl terminated = some s') : Kept s'.running s' := by
  obtain ⟨x, win, box, hx, hst, hwon, ⟨row, hrow, hwarming, rfl⟩ | ⟨-, rfl⟩⟩ := commit_cases h
  · have hwarms : NoneWarms s.tables.lease (some (committed now serializes url ttl x box row)) :=
      noneWarms_of_ne (by simp [committed])
    refine ⟨?_, ?_⟩
    · obtain hnone | ⟨rfl, hrun⟩ := hok x hx win hwon row hrow hwarming
      · -- There is no archive to lose.
        have hnewest : s.newest = none := Guards.none_of_warming (hrow ▸ hi.guards) hwarming.1 hnone
        intro a ha
        rw [show s.newest = some a from ha] at hnewest
        cases hnewest
      · -- The box it names is there.
        intro a ha
        refine ⟨_, rfl, .inr ⟨.inl rfl, box, rfl, ?_⟩⟩
        exact hrun box (by rw [hst]; rfl)
    · apply Slots.forall_put
      · exact fun e he => (hi.informed e he).mono hwarms
      · exact ((hi.worker hx).mono hwarms).move rfl rfl (.inr rfl) (by simp) False.elim
  · exact hi.put w { x with won := none, stage := .leaving } (by simp) (by simp) (by simp) (by simp)
      (hi.worker hx).leave

theorem Kept.throws {terminated : Bool} (hi : Kept alive s) (h : s.throws w terminated = some s') :
    Kept alive s' := by
  obtain ⟨x, stage, s₁, hx, hstage, hs₁, rfl⟩ := throws_cases h
  have hsame : s₁.tables = s.tables ∧ s₁.workers = s.workers ∧ s₁.episode = s.episode ∧ s₁.folds = s.folds := by
    obtain rfl | ⟨box, -, -, rfl⟩ := hs₁
    · exact ⟨rfl, rfl, rfl, rfl⟩
    · exact ⟨stopBox_tables, stopBox_workers, stopBox_episode, stopBox_folds⟩
  obtain ⟨htables, hworkers, hepisode, hfolds⟩ := hsame
  refine hi.put w { (if stage = Stage.leaving then { x with won := none } else x) with stage }
    (by rw [setStage_tables, htables]) hfolds hepisode (by rw [setStage_workers, hworkers]) ?_
  obtain rfl | rfl := hstage
  · exact (hi.worker hx).move rfl rfl (.inl rfl) (by simp) False.elim
  · exact (hi.worker hx).leave

theorem Kept.fail (hi : Kept alive s) (h : s.fail w = some s') : Kept alive s' := by
  obtain ⟨x, win, tables, hx, -, -, rfl, ⟨row, hrow, hwarming, rfl⟩ | ⟨-, rfl⟩⟩ := fail_cases h
  · have hwarms : NoneWarms s.tables.lease (some row.goCold) := noneWarms_of_ne (by simp [LeaseRow.goCold])
    have hrow' : Guards alive s.newest (some row) := hrow ▸ hi.guards
    refine ⟨?_, ?_⟩
    · apply Guards.of_full
      intro a ha
      exact goCold_workspaceArchive.trans (hrow'.full (.inr hwarming.1) a ha)
    · apply Slots.forall_put
      · exact fun e he => (hi.informed e he).mono hwarms
      · exact ((hi.worker hx).mono hwarms).leave
  · exact hi.put w { x with won := none, stage := .leaving } rfl rfl rfl rfl (hi.worker hx).leave

theorem Kept.quiet (hi : Kept alive s) (hfolds : s'.folds = s.folds) (hepisode : s'.episode = s.episode)
    (hworkers : ∀ e ∈ s'.workers, e ∈ s.workers)
    (hsome : ∀ row, s.tables.lease = some row → ∃ row', s'.tables.lease = some row' ∧ row.Quiet row')
    (hnone : s.tables.lease = none → s'.tables.lease = none) : Kept alive s' := by
  cases hl : s.tables.lease with
  | none =>
    apply hi.keep hfolds hepisode hworkers
    · rw [hnone hl, ← hl]
      exact hi.guards
    · rw [hnone hl, hl]
      exact .refl _
  | some row =>
    obtain ⟨row', hrow', hq⟩ := hsome row hl
    have hguards : Guards alive s.newest (some row) := hl ▸ hi.guards
    apply hi.keep hfolds hepisode hworkers
    · rw [hrow']
      exact hguards.quiet hq
    · rw [hrow', hl]
      exact noneWarms_quiet hq

theorem Kept.heartbeat {now ttl epoch : ℕ} {kind : LeaseHolderKind} {holderId : String} (hi : Kept alive s) :
    Kept alive { s with tables := (heartbeatLeaseHolder now kind holderId ttl epoch s.tables).1 } := by
  refine hi.quiet rfl rfl (fun e he => he) (fun row hrow => heartbeat_lease now ttl epoch kind holderId hrow) ?_
  intro hl
  obtain he | ⟨row₀, -, hr, -⟩ := heartbeatLeaseHolder_lease now ttl epoch kind holderId s.tables
  · exact he.trans hl
  · rw [hl] at hr
    cases hr

theorem Kept.snapshot {archive : Archive} {interval capturedAt : ℕ} (hi : Kept alive s)
    (h : s.snapshot w archive interval capturedAt = some s') : Kept alive s' := by
  obtain rfl | ⟨x, box, row, -, -, hrow, hwarm, -, rfl⟩ := snapshot_cases h
  · exact hi
  · refine hi.fold archive box
      (row.foldWorkspaceArchive archive row.workspaceArchive capturedAt) rfl rfl rfl rfl rfl ?_
    change row.liveness ≠ .warming
    rw [hwarm]
    decide

theorem Kept.reap {now : ℕ} {input : ReapInput} (hi : Kept alive s) (hok : s.Keeps (.reap k now input))
    (h : s.reap k now input = some s') : Kept alive s' := by
  obtain ⟨hl, tables, hnone, rfl⟩ | ⟨row, row', tables, hl, hl', hswept, hcase⟩ := reap_cases h
  · exact hi.congr (by rw [hl]; exact hnone) rfl rfl rfl
  have hrow : Guards alive s.newest (some row) := hl ▸ hi.guards
  have hguards : Guards alive s.newest tables.lease := by
    rw [hl']
    obtain hq | ⟨hw, hx, hinst, -⟩ | ⟨hw, -, -, -, -, hsame⟩ := hswept
    · exact hrow.quiet hq
    · rw [hrow.none_of_warming hw (hok row hl hw hx hinst)]
      exact guards_none
    · apply Guards.of_full
      intro a ha
      exact (sameBox_workspaceArchive hsame).trans (hrow.full (.inr hw) a ha)
  have hwarms : NoneWarms s.tables.lease tables.lease := by
    rw [hl, hl']
    obtain hq | ⟨-, -, -, hc, -⟩ | ⟨-, -, -, hd, -⟩ := hswept
    · exact noneWarms_quiet hq
    · exact noneWarms_of_ne (by rw [hc]; decide)
    · exact noneWarms_of_ne (by rw [hd]; decide)
  obtain rfl | ⟨-, rfl⟩ := hcase
  · exact hi.keep rfl rfl (fun e he => he) hguards hwarms
  · exact hi.keep rfl rfl (fun e he => he) hguards hwarms

theorem Kept.persist {now : ℕ} (hi : Kept alive s) (h : s.persist k now = some s') : Kept alive s' := by
  obtain rfl | ⟨y, box, archive, row, -, -, hrow, hidle, rfl⟩ := persist_cases h
  · exact hi.congr rfl rfl rfl rfl
  cases archive with
  | none =>
    refine hi.congr ?_ rfl rfl rfl
    rw [hrow]
    rfl
  | some a =>
    refine hi.fold a box (row.foldWorkspaceArchive a none (now / 1000)) rfl rfl rfl rfl rfl ?_
    change row.liveness ≠ .warming
    rw [hidle.1]
    decide

theorem Kept.confirm (hi : Kept alive s) (hok : s.Keeps (.confirm k)) (h : s.confirm k = some s') :
    Kept alive s' := by
  obtain ⟨y, tables, hy, -, rfl, ⟨row, hrow, hidle, rfl⟩ | rfl⟩ := confirm_cases h
  · refine hi.keep rfl rfl (fun e he => he) ?_ ?_
    · apply Guards.of_full
      intro a ha
      exact goCold_workspaceArchive.trans ((hok y hy row hrow hidle).trans ha)
    · exact noneWarms_of_ne (by simp [LeaseRow.goCold])
  · exact hi.congr rfl rfl rfl rfl

theorem kept_step (hi : Kept s.running s) (hf : s.Fenced) (hok : s.Preserving e) (h : s.step e = some s') :
    Kept s'.running s' := by
  obtain ⟨-, hspared, hkeeps⟩ := hok
  have hi' : Kept s'.running s := hi.survive hspared h
  cases e with
  | acquire => exact hi'.acquire hkeeps h
  | read => exact hi'.read h
  | resume => exact hi'.resume h
  | create => exact hi'.create hi h
  | onSandboxCreated => exact hi'.onSandboxCreated hf h
  | hydrate => exact hi'.hydrate h
  | commit => exact hi'.commit hkeeps h
  | hold w =>
    obtain ⟨x, box, hx, -, -, rfl⟩ := hold_cases h
    refine hi'.put w { x with stage := .holding (some box) } rfl rfl rfl rfl ?_
    exact (hi'.worker hx).move rfl rfl (.inl rfl) (by simp) False.elim
  | throws => exact hi'.throws h
  | fail => exact hi'.fail h
  | release =>
    obtain ⟨tables, rfl, hsome, hnone⟩ := release_cases h
    exact hi'.quiet rfl rfl (fun e he => Slots.mem_of_mem_drop he) hsome
      (fun hl => (congrArg LeaseTables.lease (hnone hl)).trans hl)
  | die w =>
    cases h
    exact hi'.keep rfl rfl (fun e he => Slots.mem_of_mem_drop he) hi'.guards (.refl _)
  | touch | stop =>
    cases h
    exact hi'.congr rfl rfl rfl rfl
  | heartbeat =>
    cases h
    exact hi'.heartbeat
  | snapshot => exact hi'.snapshot h
  | reap => exact hi'.reap hkeeps h
  | reread k =>
    obtain rfl | ⟨y, row, -, -, -, -, rfl⟩ := reread_cases h
    · exact hi'.congr rfl rfl rfl rfl
    · exact hi'.congr rfl rfl rfl rfl
  | attach k outcome =>
    obtain rfl | ⟨y, lease, -, -, rfl | ⟨box, -, rfl⟩ | ⟨box, -, -, rfl⟩⟩ := attach_cases h
    all_goals exact hi'.congr rfl rfl rfl rfl
  | capture k outcome =>
    obtain rfl | ⟨y, box, -, -, rfl | ⟨archive, -, rfl⟩⟩ := capture_cases h
    all_goals exact hi'.congr rfl rfl rfl rfl
  | persist => exact hi'.persist h
  | delete k raised =>
    obtain ⟨y, box, -, -, rfl⟩ := delete_cases h
    exact hi'.congr (by simp) (by simp) (by simp) (by simp)
  | confirm => exact hi'.confirm hkeeps h
  | lost box =>
    cases h
    exact hi'.congr (congrArg _ stopBox_tables) stopBox_folds stopBox_episode stopBox_workers

/-! ## Runs -/

theorem Kept.readsNewest (hi : Kept s.running s) : s.ReadsNewest := by
  intro w x skip a hx hst hnone ha
  exact hi.creates hx hst hnone a ha

/-- **The newest archive is read.** In every run without image or rig conflicts in which no spawner wins the row
beside an earlier one, no dead spawner's row has an archive and no box, and a box whose commit has dropped the
archive is captured again before it is stopped, every establish that creates a box has read the archive folded last.
-/
theorem establish_reads_newest {events : List FleetEvent}
    (h : Run (Restrict (fun s e t => s.step e = some t) Preserving) start events s) : s.ReadsNewest := by
  have hboth : s.Fenced ∧ Kept s.running s := h.invariant (P := fun s => s.Fenced ∧ Kept s.running s)
      (fun _ _ _ hstep hi => ⟨fenced_step hi.1 hstep.2.1 hstep.1, kept_step hi.2 hi.1 hstep.2 hstep.1⟩)
      ⟨fenced_start, kept_start⟩
  exact hboth.2.readsNewest

def files : Archive := ⟨"files", by decide⟩

/-- A box is used, idles, is captured and taken down, and the next turn wins the row. -/
def drainedOnce : List FleetEvent := oneSpawner ++
    [.release 0 3000000 120000, .reap 0 200000000 sweepInput, .reread 0, .attach 0 (.done ()),
      .capture 0 (.done (some files)), .persist 0 200000000, .delete 0 false, .confirm 0,
      .acquire 1 .resumeBoxForTurn 300000000 (turnInput "turn-2") none]

/-- The spawner of the second box has to create it, and has read the capture of the first. -/
theorem establish_reads_newest_once :
    ∃ s x, Run (Restrict (fun s e t => step s e = some t) Preserving) start drainedOnce s ∧
      s.workers.get 1 = some x ∧ x.known = some files ∧
      x.envelope.bind (·.workspaceArchive) = some files := by
  have hrun : play (guarded step Preserving) start drainedOnce = some _ := rfl
  exact ⟨_, _, guarded_run hrun, rfl, rfl,
    establish_reads_newest (guarded_run hrun) 1 _ false files rfl rfl (.inr rfl) rfl⟩

/-- The second box replays the capture, is committed and is gone before it is captured itself. -/
def lostBox : List FleetEvent := drainedOnce ++
    [.create 1 "box-2", .onSandboxCreated 1 301000000 true 90000 (some 600000) true,
      .hydrate 1 (.replayed files "box-2"), .commit 1 302000000 true none 90000 true, .lost "box-2",
      .acquire 2 .resumeBoxForTurn 303000000 (turnInput "turn-3") none, .read 2]

/-- The commit has dropped the capture: the third turn has to create a box without it. -/
theorem lost_box_reads_nothing : ∃ s, Run (fun s e t => step s e = some t) start lostBox s ∧ ¬ s.ReadsNewest := by
  have hrun : play step start lostBox = some _ := rfl
  refine ⟨_, run_of_play hrun, ?_⟩
  intro h
  have harchive := h 2 _ false files rfl rfl (.inr rfl) rfl
  cases harchive

end Fleet

end OpenGeni.Sandbox
