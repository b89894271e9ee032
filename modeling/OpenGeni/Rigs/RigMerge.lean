/-
The history of a rig and its changes.

What every run of the system keeps, and what it keeps as long as no attempt begins afresh, or
records a failure, on a change whose promotion is under way. The attempt that is promoting keeps
its change `verifying` to hold others off, but one that was let in before is not held off by it.
-/
import OpenGeni.Rigs.RigPromotion

namespace OpenGeni.Rigs

open OpenGeni.Lib

def AttemptStage.isFailing : AttemptStage → Bool
  | .failing _ => true
  | _ => false

namespace RigSystem

/-! ## What a step may do -/

abbrev Steps : RigSystem → Event → RigSystem → Prop := fun s e t => step s e = some t

def statusOf (s : RigSystem) (changeId : ℕ) : Option RigChangeStatus := s.tables.changes[changeId]?.map (·.status)

/-- The step inserts an active version that carries the change over the version that was active,
an attempt that ran against it having passed, and merges the change. -/
def Promotes (s t : RigSystem) (changeId : ℕ) : Prop :=
  ∃ row versionId base new, s.tables.changes[changeId]? = some row ∧ row.status ≠ .merged ∧
    row.status ≠ .rejected ∧ row.baseVersionId = some versionId ∧
    activeVersionId s.tables.versions = some versionId ∧ s.tables.versions[versionId]? = some base ∧
    s.Passed changeId versionId ∧ t.tables.versions = deactivate s.tables.versions ++ [new] ∧
    new.active = true ∧ new.toRigDefinition = row.request.onto base.toRigDefinition ∧
    t.tables.changes[changeId]? = some { row with status := .merged, resultVersionId := some s.tables.versions.length }

/-- The event commits a request: the version carries its payload over the version it read, which is
the active one unless another has become active since. -/
def Creates (s : RigSystem) (e : Event) (t : RigSystem) : Prop :=
  ∃ index request new base, e = .commitVersion index ∧ s.creations[index]? = some request ∧
    t.tables.versions = deactivate s.tables.versions ++ [new] ∧ new.active = true ∧
    s.tables.versions[request.baseVersionId]? = some base ∧
    new.toRigDefinition = request.payload.onto base.toRigDefinition

structure Conforms (s : RigSystem) (e : Event) (t : RigSystem) : Prop where
  merged : ∀ (changeId : ℕ) (row : RigChange), s.tables.changes[changeId]? = some row → row.status = .merged →
    t.tables.changes[changeId]? = some row
  /-- A rejected change stays as it is, unless it is verified again. -/
  rejected : ∀ (changeId : ℕ) (row : RigChange), s.tables.changes[changeId]? = some row → row.status = .rejected →
    t.tables.changes[changeId]? = some row ∨ s.Begins changeId e ∧ t.tables.changes[changeId]? = some row.reset
  merges : ∀ changeId, s.statusOf changeId ≠ some .merged → t.statusOf changeId = some .merged →
    Promotes s t changeId
  versions : t.tables.versions.map (·.toRigVersionContentInput) = s.tables.versions.map (·.toRigVersionContentInput) ∨
    (∃ changeId, Promotes s t changeId) ∨ Creates s e t

def Governed (s : RigSystem) (e : Event) : Prop := ∀ t, step s e = some t → Conforms s e t

def MergedVerified (s : RigSystem) : Prop :=
  ∀ (changeId : ℕ) (row : RigChange), s.tables.changes[changeId]? = some row → row.status = .merged → row.Verified

def UnderWay (s : RigSystem) (changeId : ℕ) : Prop := ∃ promotion ∈ s.pending, promotion.changeId = changeId

instance (s : RigSystem) (changeId : ℕ) : Decidable (s.UnderWay changeId) := inferInstanceAs (Decidable (∃ _ ∈ _, _))

/-- No attempt begins afresh, or records a failure, on a change whose promotion is under way. -/
def Undisturbed (s : RigSystem) : Event → Prop
  | .requestVerification changeId =>
    s.UnderWay changeId → s.statusOf changeId = some .verifying ∨ s.statusOf changeId = some .merged
  | .begin index => ∀ attempt ∈ s.attempts[index]?, s.UnderWay attempt.changeId →
      s.statusOf attempt.changeId = some .verifying ∨ s.statusOf attempt.changeId = some .merged
  | .write index => ∀ attempt ∈ s.attempts[index]?, attempt.stage.isFailing = true → s.UnderWay attempt.changeId →
      s.statusOf attempt.changeId = some .merged ∨ s.statusOf attempt.changeId = some .rejected
  | _ => True

instance (s : RigSystem) (e : Event) : Decidable (s.Undisturbed e) := by
  unfold Undisturbed
  split <;> infer_instance

/-! ## Every step conforms -/

section

variable {s t : RigSystem} {e : Event} {tables : RigTables}

variable {changeId : ℕ} {row : RigChange}

theorem set_other {id : ℕ} {row' : RigChange} (hne : id ≠ changeId) (hrow : s.tables.changes[id]? = some row) :
    (s.tables.changes.set changeId row')[id]? = some row := by
  rw [List.getElem?_set_ne (Ne.symm hne)]
  exact hrow

theorem Effect.merged (h : Effect s e tables) (hrow : s.tables.changes[changeId]? = some row)
    (hmerged : row.status = .merged) :
    tables.changes[changeId]? = some row := by
  -- a change that is written is another one
  have hother : ∀ (id : ℕ) (old : RigChange), s.tables.changes[id]? = some old → old.status ≠ .merged → changeId ≠ id := by
    rintro id old hold hne rfl
    cases hrow.symm.trans hold
    exact hne hmerged
  cases h with
  | same h => rw [h, hrow]
  | propose _ _ _ h =>
    rw [h]
    exact (List.getElem?_append_left (List.getElem?_eq_some_iff.1 hrow).1).trans hrow
  | reset id old _ hold _ hne h =>
    rw [h]
    exact set_other (hother id old hold hne) hrow
  | record _ attempt old _ _ _ _ _ hold hne _ h =>
    rw [h]
    exact set_other (hother attempt.changeId old hold hne) hrow
  | promote promotion _ h =>
    obtain ⟨old, hold, hne, -, -, -, rfl⟩ := createRigVersionForChangePromotion_ok h
    exact set_other (hother promotion.changeId old hold hne) hrow
  | create _ _ _ _ h =>
    rw [h]
    exact hrow
  | activate _ _ h =>
    rw [h]
    exact hrow

theorem Effect.rejected (h : Effect s e tables) (hrow : s.tables.changes[changeId]? = some row)
    (hrejected : row.status = .rejected) :
    tables.changes[changeId]? = some row ∨ s.Begins changeId e ∧ tables.changes[changeId]? = some row.reset := by
  have hother : ∀ (id : ℕ) (old : RigChange), s.tables.changes[id]? = some old → old.status ≠ .rejected →
      changeId ≠ id := by
    rintro id old hold hne rfl
    cases hrow.symm.trans hold
    exact hne hrejected
  cases h with
  | same h => exact Or.inl (by rw [h, hrow])
  | propose _ _ _ h =>
    rw [h]
    exact Or.inl ((List.getElem?_append_left (List.getElem?_eq_some_iff.1 hrow).1).trans hrow)
  | reset id old hbegins hold _ _ h =>
    rw [h]
    by_cases hid : changeId = id
    · subst hid
      cases hrow.symm.trans hold
      exact Or.inr ⟨hbegins, getElem?_set_same hold _⟩
    · exact Or.inl (set_other hid hrow)
  | record _ attempt old _ _ _ _ _ hold _ hne h =>
    rw [h]
    exact Or.inl (set_other (hother attempt.changeId old hold hne) hrow)
  | promote promotion _ h =>
    obtain ⟨old, hold, -, hne, -, -, rfl⟩ := createRigVersionForChangePromotion_ok h
    exact Or.inl (set_other (hother promotion.changeId old hold hne) hrow)
  | create _ _ _ _ h =>
    rw [h]
    exact Or.inl hrow
  | activate _ _ h =>
    rw [h]
    exact Or.inl hrow

theorem promotes_of_pending (hs : s.Sound) {promotion : Promotion} (hpending : promotion ∈ s.pending)
    (h : createRigVersionForChangePromotion promotion s.tables = .ok t.tables) :
    Promotes s t promotion.changeId := by
  obtain ⟨row, hrow, hmerged, hrejected, hbase, hactive, htables⟩ := createRigVersionForChangePromotion_ok h
  obtain ⟨⟨row', base, hrow', -, hversion, hinput⟩, hpassed⟩ := hs.pending promotion hpending
  obtain rfl : row' = row := Option.some.inj (hrow'.symm.trans hrow)
  let new : RigVersion :=
    { toRigVersionContentInput := promotion.input, version := nextVersion s.tables.versions, active := true }
  refine ⟨row', promotion.expectedActiveVersionId, base, new, hrow, hmerged, hrejected, hbase, hactive, hversion,
    hpassed, ?_, rfl, hinput, ?_⟩
  · rw [htables]
    rfl
  · rw [htables]
    exact getElem?_set_same hrow _

theorem merges_of_step (hs : s.Sound) (h : Effect s e t.tables)
    (hbefore : s.statusOf changeId ≠ some .merged) (hafter : t.statusOf changeId = some .merged) :
    Promotes s t changeId := by
  unfold statusOf at hbefore hafter
  obtain ⟨row, hrow, hmerged⟩ := Option.map_eq_some_iff.1 hafter
  have hnew : s.tables.changes[changeId]? ≠ some row := by
    intro hold
    apply hbefore
    rw [hold, Option.map_some, hmerged]
  cases h with
  | same h => exact absurd (h ▸ hrow) hnew
  | propose _ _ _ h =>
    rw [h] at hrow
    obtain hold | rfl := getElem?_append_cases hrow
    · exact absurd hold hnew
    · contradiction
  | reset _ _ _ _ _ _ h =>
    rw [h] at hrow
    obtain ⟨-, rfl⟩ | ⟨-, hold⟩ := getElem?_set_cases hrow
    · contradiction
    · exact absurd hold hnew
  | record _ attempt _ _ _ _ hattempt hrecords _ _ _ h =>
    rw [h] at hrow
    obtain ⟨-, rfl⟩ | ⟨-, hold⟩ := getElem?_set_cases hrow
    · cases hrecords with
      | result _ promote hstage =>
        have hsound := hs.attempt attempt (List.mem_of_getElem? hattempt)
        exact absurd hmerged (hsound.writing _ promote hstage).1
      | failure _ _ => contradiction
    · exact absurd hold hnew
  | promote promotion hpending h =>
    have hpromotes := promotes_of_pending hs hpending h
    obtain ⟨old, hold, -, -, -, -, htables⟩ := createRigVersionForChangePromotion_ok h
    rw [htables] at hrow
    obtain ⟨rfl, -⟩ | ⟨-, hold⟩ := getElem?_set_cases hrow
    · exact hpromotes
    · exact absurd hold hnew
  | create _ _ _ _ h =>
    rw [h] at hrow
    exact absurd hrow hnew
  | activate _ _ h =>
    rw [h] at hrow
    exact absurd hrow hnew

theorem contents_activate (versionId : ℕ) (versions : List RigVersion) :
    (((deactivate versions).modify versionId fun row => { row with active := true }).map
      (·.toRigVersionContentInput)) = versions.map (·.toRigVersionContentInput) := by
  apply List.ext_getElem?
  intro i
  rw [List.getElem?_map, List.getElem?_map, List.getElem?_modify, getElem?_deactivate]
  cases versions[i]? with
  | none => rfl
  | some row =>
    by_cases hi : versionId = i
    · simp [hi]
    · simp [hi]

theorem versions_of_step (hs : s.Sound) (h : Effect s e t.tables) :
    t.tables.versions.map (·.toRigVersionContentInput) = s.tables.versions.map (·.toRigVersionContentInput) ∨
      (∃ changeId, Promotes s t changeId) ∨ Creates s e t := by
  cases h with
  | same h => exact Or.inl (by rw [h])
  | propose _ _ _ h => exact Or.inl (by rw [h]; rfl)
  | reset _ _ _ _ _ _ h => exact Or.inl (by rw [h])
  | record _ _ _ _ _ _ _ _ _ _ _ h => exact Or.inl (by rw [h])
  | promote promotion hpending h =>
    exact Or.inr (Or.inl ⟨promotion.changeId, promotes_of_pending hs hpending h⟩)
  | create index request he hrequest h =>
    obtain ⟨base, hbase, hcontent⟩ := hs.creation request (List.mem_of_getElem? hrequest)
    let new : RigVersion :=
      { toRigVersionContentInput := request.input, version := nextVersion s.tables.versions, active := true }
    refine Or.inr (Or.inr ⟨index, request, new, base, he, hrequest, ?_, rfl, hbase, ?_⟩)
    · rw [h]
      rfl
    · rw [hcontent]
      rfl
  | activate versionId _ h =>
    left
    rw [h]
    exact contents_activate versionId s.tables.versions

/-- **Every step conforms.** -/
theorem Sound.governed (hs : s.Sound) (e : Event) : s.Governed e := by
  intro t h
  have heffect := (step_spec h).effect
  exact
    { merged := fun _ _ hrow hmerged => heffect.merged hrow hmerged
      rejected := fun _ _ hrow hrejected => heffect.rejected hrow hrejected
      merges := fun _ hbefore hafter => merges_of_step hs heffect hbefore hafter
      versions := versions_of_step hs heffect }

end

/-! ## What the promotions rely on -/

/-- The row of each promotion under way is settled or says that its change passed. -/
structure Clean (s : RigSystem) : Prop where
  pending : ∀ promotion ∈ s.pending, ∀ (row : RigChange), s.tables.changes[promotion.changeId]? = some row →
    row.status = .merged ∨ row.status = .rejected ∨ row.Verified
  merged : s.MergedVerified

section

variable {s t : RigSystem} {e : Event}

theorem pending_of_step (hs : s.Sound) (h : step s e = some t) {promotion : Promotion} (hmem : promotion ∈ t.pending) :
    promotion ∈ s.pending ∨ ∃ row, t.tables.changes[promotion.changeId]? = some row ∧ row.Verified := by
  obtain hattempt | hrequest := List.mem_append.1 hmem
  · obtain ⟨attempt, hattempt, hpromotion⟩ := List.mem_filterMap.1 hattempt
    cases (step_spec h).attempts hs with
    | same h =>
      rw [h] at hattempt
      exact Or.inl (promotion_mem_pending hattempt hpromotion)
    | load loaded _ hnone h =>
      rw [h] at hattempt
      obtain hold | hnew := List.mem_append.1 hattempt
      · exact Or.inl (promotion_mem_pending hold hpromotion)
      · obtain rfl := List.mem_singleton.1 hnew
        rw [hnone] at hpromotion
        contradiction
    | move _ _ new _ _ _ hnew h =>
      rw [h] at hattempt
      obtain hold | rfl := List.mem_or_eq_of_mem_set hattempt
      · exact Or.inl (promotion_mem_pending hold hpromotion)
      · exact Or.inr (hnew promotion hpromotion)
  · obtain hold | ⟨-, hsame, change, hchange, hverified⟩ := (step_spec h).requests.promotion promotion hrequest
    · exact Or.inl (List.mem_append_right _ hold)
    · exact Or.inr ⟨change, hsame ▸ hchange, hverified⟩

theorem Undisturbed.of_begins (h : s.Undisturbed e) {changeId : ℕ} (hbegins : s.Begins changeId e)
    (hunderWay : s.UnderWay changeId) : s.statusOf changeId = some .verifying ∨ s.statusOf changeId = some .merged := by
  cases e with
  | requestVerification id =>
    obtain rfl : id = changeId := hbegins
    exact h hunderWay
  | «begin» index =>
    obtain ⟨attempt, hattempt, rfl⟩ := hbegins
    exact h attempt hattempt hunderWay
  | _ => exact absurd hbegins id

theorem Undisturbed.of_failing {index : ℕ} (h : s.Undisturbed (.write index)) {attempt : Attempt} {message : String}
    (hattempt : s.attempts[index]? = some attempt) (hstage : attempt.stage = .failing message)
    (hunderWay : s.UnderWay attempt.changeId) :
    s.statusOf attempt.changeId = some .merged ∨ s.statusOf attempt.changeId = some .rejected :=
  h attempt hattempt (by rw [hstage]; rfl) hunderWay

theorem statusOf_eq {changeId : ℕ} {row : RigChange} (hrow : s.tables.changes[changeId]? = some row) :
    s.statusOf changeId = some row.status := by
  unfold statusOf
  rw [hrow, Option.map_some]

theorem Clean.pending_kept (hc : s.Clean) (hs : s.Sound) (hok : s.Undisturbed e) (h : Effect s e t.tables)
    {promotion : Promotion} (hpending : promotion ∈ s.pending) {row : RigChange}
    (hrow : t.tables.changes[promotion.changeId]? = some row) :
    row.status = .merged ∨ row.status = .rejected ∨ row.Verified := by
  have hunderWay : s.UnderWay promotion.changeId := ⟨promotion, hpending, rfl⟩
  obtain ⟨⟨before, base, hbefore, -⟩, -⟩ := hs.pending promotion hpending
  -- a row that was there already
  have hkept : ∀ {tables : RigTables}, tables.changes[promotion.changeId]? = some row →
      tables.changes = s.tables.changes → row.status = .merged ∨ row.status = .rejected ∨ row.Verified :=
    fun hrow hsame => hc.pending promotion hpending row (hsame ▸ hrow)
  cases h with
  | same h => exact hkept hrow (by rw [h])
  | propose _ _ _ h =>
    rw [h] at hrow
    have hold := (List.getElem?_append_left (List.getElem?_eq_some_iff.1 hbefore).1).symm.trans hrow
    exact hc.pending promotion hpending row hold
  | reset changeId old hbegins hold hverifying hmerged h =>
    rw [h] at hrow
    obtain ⟨hid, rfl⟩ | ⟨-, hold'⟩ := getElem?_set_cases hrow
    · -- the attempt would begin on a change that is neither verifying nor merged
      rw [hid] at hunderWay
      have hstatus := hok.of_begins hbegins hunderWay
      rw [statusOf_eq hold] at hstatus
      obtain heq | heq := hstatus
      · exact absurd (Option.some.inj heq) hverifying
      · exact absurd (Option.some.inj heq) hmerged
    · exact hc.pending promotion hpending row hold'
  | record index attempt old status verification he hattempt hrecords hold hmerged hrejected h =>
    rw [h] at hrow
    obtain ⟨hid, rfl⟩ | ⟨-, hold'⟩ := getElem?_set_cases hrow
    · cases hrecords with
      | result _ promote hstage =>
        have hsound := hs.attempt attempt (List.mem_of_getElem? hattempt)
        by_cases hstatus : status = .rejected
        · exact Or.inr (Or.inl hstatus)
        · have hpassed := (hsound.writing status promote hstage).2.1 hstatus
          exact Or.inr (Or.inr (old.verified_of_patch status hpassed))
      | failure message hstage =>
        rw [hid] at hunderWay
        rw [he] at hok
        have hstatus := hok.of_failing hattempt hstage hunderWay
        rw [statusOf_eq hold] at hstatus
        obtain heq | heq := hstatus
        · exact absurd (Option.some.inj heq) hmerged
        · exact absurd (Option.some.inj heq) hrejected
    · exact hc.pending promotion hpending row hold'
  | promote other _ h =>
    obtain ⟨old, hold, -, -, -, -, htables⟩ := createRigVersionForChangePromotion_ok h
    rw [htables] at hrow
    obtain ⟨-, rfl⟩ | ⟨-, hold'⟩ := getElem?_set_cases hrow
    · exact Or.inl rfl
    · exact hc.pending promotion hpending row hold'
  | create _ _ _ _ h => exact hkept hrow (by rw [h]; rfl)
  | activate _ _ h => exact hkept hrow (by rw [h])

theorem Clean.merged_of_step (hc : s.Clean) (hs : s.Sound) (h : Effect s e t.tables) : t.MergedVerified := by
  intro changeId row hrow hmerged
  cases h with
  | same h => exact hc.merged changeId row (h ▸ hrow) hmerged
  | propose _ _ _ h =>
    rw [h] at hrow
    obtain hold | rfl := getElem?_append_cases hrow
    · exact hc.merged changeId row hold hmerged
    · contradiction
  | reset _ _ _ _ _ _ h =>
    rw [h] at hrow
    obtain ⟨-, rfl⟩ | ⟨-, hold⟩ := getElem?_set_cases hrow
    · contradiction
    · exact hc.merged changeId row hold hmerged
  | record _ attempt _ status _ _ hattempt hrecords _ _ _ h =>
    rw [h] at hrow
    obtain ⟨-, rfl⟩ | ⟨-, hold⟩ := getElem?_set_cases hrow
    · cases hrecords with
      | result _ promote hstage =>
        have hsound := hs.attempt attempt (List.mem_of_getElem? hattempt)
        exact absurd hmerged (hsound.writing status promote hstage).1
      | failure _ _ => contradiction
    · exact hc.merged changeId row hold hmerged
  | promote promotion hpending h =>
    obtain ⟨old, hold, hne, hne', -, -, htables⟩ := createRigVersionForChangePromotion_ok h
    rw [htables] at hrow
    obtain ⟨-, rfl⟩ | ⟨-, hold'⟩ := getElem?_set_cases hrow
    · -- the promotion leaves the verification
      obtain hbefore | hbefore | hverified := hc.pending promotion hpending old hold
      · exact absurd hbefore hne
      · exact absurd hbefore hne'
      · exact hverified
    · exact hc.merged changeId row hold' hmerged
  | create _ _ _ _ h =>
    rw [h] at hrow
    exact hc.merged changeId row hrow hmerged
  | activate _ _ h =>
    rw [h] at hrow
    exact hc.merged changeId row hrow hmerged

theorem Clean.created (initialVersion : RigVersionContentInput) : (created initialVersion).Clean where
  pending _ h := absurd h List.not_mem_nil
  merged _ _ h := by contradiction

theorem Clean.step (hc : s.Clean) (hs : s.Sound) (hok : s.Undisturbed e) (h : step s e = some t) : t.Clean where
  pending promotion hmem row hrow := by
    obtain hold | ⟨row', hrow', hverified⟩ := pending_of_step hs h hmem
    · exact hc.pending_kept hs hok (step_spec h).effect hold hrow
    · cases hrow'.symm.trans hrow
      exact Or.inr (Or.inr hverified)
  merged := hc.merged_of_step hs (step_spec h).effect

end

/-! ## Runs -/

section

variable {s t u v : RigSystem} {es es₁ es₂ : List Event}

theorem Sound.run (hs : s.Sound) (h : Run Steps s es t) : t.Sound :=
  h.invariant (fun _ _ _ hstep hs => hs.step hstep) hs

theorem not_promotes_again {changeId : ℕ} (hs : t.Sound) (hfirst : Promotes s t changeId)
    (hrun : Run Steps t es u) : ¬ Promotes u v changeId := by
  obtain ⟨row, -, -, -, -, -, -, -, -, -, -, -, -, -, hmerged⟩ := hfirst
  have hkept : u.Sound ∧ u.tables.changes[changeId]? = some _ :=
    hrun.invariant (P := fun w => w.Sound ∧ w.tables.changes[changeId]? = some _)
      (fun _ _ _ hstep hw => ⟨hw.1.step hstep, (hw.1.governed _ _ hstep).merged _ _ hw.2 rfl⟩) ⟨hs, hmerged⟩
  rintro ⟨row', -, -, -, hrow', hne, -⟩
  rw [hkept.2] at hrow'
  cases hrow'
  exact hne rfl

end

def MergedOnce (s : RigSystem) (es : List Event) : Prop :=
  ∀ changeId es₁ e es₂ f es₃ t t' u u', es = es₁ ++ e :: es₂ ++ f :: es₃ → Run Steps s es₁ t → step t e = some t' →
    Run Steps t' es₂ u → step u f = some u' → Promotes t t' changeId → ¬ Promotes u u' changeId

/-- **The history of a rig.** One version is active at all times, and every step conforms: what is merged stays, a
rejected change only begins to be verified again, versions carry a change that passed, or a request's payload over
the version it read. No change is merged twice; and what is merged says that it passed, as long as no promotion is
disturbed. -/
theorem changes_governed (initialVersion : RigVersionContentInput) (es : List Event) :
    EachState Steps (fun s => OneActive s.tables.versions) (created initialVersion) es ∧
    EachStep Steps Governed (created initialVersion) es ∧ MergedOnce (created initialVersion) es ∧
    (EachStep Steps Undisturbed (created initialVersion) es →
      EachState Steps MergedVerified (created initialVersion) es) := by
  have hcreated := Sound.created initialVersion
  refine ⟨?_, ?_, ?_, ?_⟩
  · intro es₁ es₂ t _ hrun
    exact (hcreated.run hrun).one
  · intro es₁ e es₂ t t' _ hrun _
    exact (hcreated.run hrun).governed e
  · intro changeId es₁ e es₂ f es₃ t t' u u' _ hrun hfirst hbetween _ hpromotes
    have hlater : t'.Sound := (hcreated.run hrun).step hfirst
    exact not_promotes_again hlater hpromotes hbetween
  · refine eachState_of_eachStep (P := fun s => s.Sound ∧ s.Clean) (fun s hs => hs.2.merged) ?_
      ⟨hcreated, .created initialVersion⟩
    rintro s e t hstep ⟨hs, hc⟩ hok
    exact ⟨hs.step hstep, hc.step hs hok hstep⟩

/-! ## What is not promised -/

def Settled (s : RigSystem) (e : Event) : Prop := ∀ t, step s e = some t → ∀ changeId,
    s.statusOf changeId = some .merged ∨ s.statusOf changeId = some .rejected →
    t.statusOf changeId = s.statusOf changeId

/-- A version that is created from a payload carries it over the active version. -/
def KeepsEdits (s : RigSystem) (e : Event) : Prop :=
  ∀ t index request versionId active new, step s e = some t → e = .commitVersion index →
    s.creations[index]? = some request → activeVersionId s.tables.versions = some versionId →
    s.tables.versions[versionId]? = some active → t.tables.versions[s.tables.versions.length]? = some new →
    new.toRigDefinition = request.payload.onto active.toRigDefinition

def firstVersion : RigVersionContentInput :=
  { image := none, setupScript := some "apt-get update", checks := [{ name := "node", command := "node --version" }]
    credentialHooks := [], defaultVariableSetIds := [], changelog := some "Initial version", createdBy := none }

def installNode : ProposeRigChangeRequest := .setupAppend { command := "apt-get install -y nodejs", note := none }

def noEdit : RigDefinitionEditPayload :=
  { image := none, setupScript := none, checks := none, credentialHooks := none, defaultVariableSetIds := none
    changelog := none }

/-- The command fails, the change is rejected, and someone asks to verify it again. -/
def reopened : List Event :=
  [.propose installNode 0 "user:a", .requestVerification 0, .load 0, .begin 0, .runCommand 0 100, .write 0]

/-- A second activity of the same change loses its sandbox while the first one promotes. -/
def overlapped : List Event :=
  [.propose installNode 0 "user:a", .requestVerification 0, .load 0, .load 0, .begin 0, .begin 1,
    .runCommand 0 0, .runChecks 0 [0], .write 0, .throw 1 "sandbox lost", .write 1, .promote 0]

def crossed : List Event := [.requestVersion { noEdit with image := some (some "node:22") } "user:a",
    .requestVersion { noEdit with setupScript := some (some "true") } "user:b", .commitVersion 0]

theorem reopened_rejected : (play step (created firstVersion) reopened).any (fun t =>
    t.statusOf 0 == some .rejected &&
      (step t (.requestVerification 0)).any fun t' => t'.statusOf 0 == some .verifying) = true := by
  decide +kernel

theorem overlapped_merged : (play step (created firstVersion) overlapped).any (fun t =>
    t.tables.changes[0]?.any fun row => row.status == .merged && !decide row.Verified) = true := by
  decide +kernel

theorem crossed_lost : (play step (created firstVersion) crossed).any (fun t =>
    (step t (.commitVersion 0)).any fun t' =>
      t.creations[0]?.any fun request => (activeVersionId t.tables.versions).any fun id =>
        t.tables.versions[id]?.any fun active => t'.tables.versions[t.tables.versions.length]?.any fun new =>
          decide (new.toRigDefinition ≠ request.payload.onto active.toRigDefinition)) = true := by
  decide +kernel

/-- A rejected change changes its status, a change is merged whose verification failed, and an edit is lost. -/
theorem rig_history_broken :
    ¬ EachStep Steps Settled (created firstVersion) (reopened ++ [.requestVerification 0]) ∧
    ¬ EachState Steps MergedVerified (created firstVersion) overlapped ∧
    ¬ EachStep Steps KeepsEdits (created firstVersion) (crossed ++ [.commitVersion 0]) := by
  refine ⟨?_, ?_, ?_⟩
  · intro hall
    obtain ⟨t, hplay, hrest⟩ := (Option.any_eq_true _ _).1 reopened_rejected
    rw [Bool.and_eq_true, beq_iff_eq, Option.any_eq_true] at hrest
    obtain ⟨hbefore, t', hstep, hafter⟩ := hrest
    have hkept := hall reopened _ [] t t' rfl (run_of_play hplay) hstep t' hstep 0 (Or.inr hbefore)
    rw [hbefore, eq_of_beq hafter] at hkept
    contradiction
  · intro hall
    obtain ⟨t, hplay, hrest⟩ := (Option.any_eq_true _ _).1 overlapped_merged
    obtain ⟨row, hrow, hrest⟩ := (Option.any_eq_true _ _).1 hrest
    rw [Bool.and_eq_true, beq_iff_eq, Bool.not_eq_true', decide_eq_false_iff_not] at hrest
    exact hrest.2 (hall overlapped [] t (List.append_nil _).symm (run_of_play hplay) 0 row hrow hrest.1)
  · intro hall
    obtain ⟨t, hplay, hrest⟩ := (Option.any_eq_true _ _).1 crossed_lost
    obtain ⟨t', hstep, hrest⟩ := (Option.any_eq_true _ _).1 hrest
    obtain ⟨request, hrequest, hrest⟩ := (Option.any_eq_true _ _).1 hrest
    obtain ⟨versionId, hversion, hrest⟩ := (Option.any_eq_true _ _).1 hrest
    obtain ⟨active, hactive, hrest⟩ := (Option.any_eq_true _ _).1 hrest
    obtain ⟨new, hnew, hrest⟩ := (Option.any_eq_true _ _).1 hrest
    have hkept := hall crossed _ [] t t' rfl (run_of_play hplay) hstep
    exact of_decide_eq_true hrest (hkept t' 0 request versionId active new hstep rfl hrequest hversion hactive hnew)

def verified : List Event :=
  [.propose installNode 0 "user:a", .requestVerification 0, .load 0, .begin 0, .runCommand 0 0, .runChecks 0 [0],
    .write 0, .promote 0]

theorem changes_governed_verified : EachState Steps MergedVerified (created firstVersion) verified := by
  apply (changes_governed firstVersion verified).2.2.2
  have hplay : (play (guarded step Undisturbed) (created firstVersion) verified).isSome = true := by
    decide +kernel
  obtain ⟨t, ht⟩ := Option.isSome_iff_exists.1 hplay
  exact eachStep_of_guarded ht

end RigSystem

end OpenGeni.Rigs
