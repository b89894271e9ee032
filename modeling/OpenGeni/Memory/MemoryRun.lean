/-
A workspace's memory over whole runs.

The commits rest on rows that were read before. Where a commit finds them as they were read, and
no row is made visible behind the gates, the memory stays below its cap, whoever follows the
superseded rows arrives, and a save that replaces a row leaves its text visible once. The near
duplicates are apart: the row that is there already takes over, and the new text is dropped.
-/
import OpenGeni.Memory.VisibleMemory

namespace OpenGeni.Memory

open OpenGeni.Lib

/-! ## What a commit rests on -/

/-- The save finds no more other visible rows than it counted, or the row it found as it found it. -/
def Save.finds (rows : List KnowledgeMemory) (save : Save) : Bool := match save.stage with
  | .inserting visibleCount => countOthers save.replacesId rows ≤ visibleCount
  | .deduping existing reason =>
    save.replacesId.isNone ||
      rows[existing]?.any fun row => row.visible && (reason == .near || row.textHash == save.textHash)
  | _ => true

/-- The update makes no row visible but one that has not been superseded, below the count it took. -/
def Update.finds (rows : List KnowledgeMemory) (update : Update) : Bool := match update.stage with
  | .updating (some visibleCount) =>
    !(update.status.any (·.visible)) || rows[update.memoryId]?.any fun row => row.visible ||
        (row.supersededById.isNone && decide (countOthers (some update.memoryId) rows ≤ visibleCount))
  | _ => true

def successor (rows : List KnowledgeMemory) (id : ℕ) : Option ℕ := rows[id]?.bind (·.supersededById)

structure Orderly (rows : List KnowledgeMemory) : Prop where
  bounded : countVisible rows ≤ MEMORY_VISIBLE_RECORD_CAP
  standing : ∀ row ∈ rows, row.visible = true → row.supersededById = none
  acyclic : Acyclic (successor rows)

namespace WorkspaceMemory

/-- No curated create is visible at once, and every commit finds what it rests on. -/
def Undisturbed (s : WorkspaceMemory) : Event → Prop
  | .create _ status => status.visible = false
  | .commitSave index => s.saves[index]?.all (·.finds s.rows) = true
  | .commitUpdate index => s.updates[index]?.all (·.finds s.rows) = true
  | _ => True

instance (s : WorkspaceMemory) (e : Event) : Decidable (s.Undisturbed e) := match e with
  | .create .. | .commitSave _ | .commitUpdate _ => instDecidableEqBool _ _
  | .archive _ | .save .. | .findExact _ | .findNear .. | .countSave _ | .findWinner _ | .update .. | .countUpdate _
  | .findDuplicate _ => instDecidableTrue

/-- What a step does to the rows it supersedes, and a save to its text. -/
structure Settles (s : WorkspaceMemory) (e : Event) (t : WorkspaceMemory) : Prop where
  superseded : ∀ (id : ℕ) (row row' : KnowledgeMemory), s.rows[id]? = some row → t.rows[id]? = some row' →
    row'.supersededById ≠ row.supersededById →
      ∃ successor new, row'.supersededById = some successor ∧ t.rows[successor]? = some new ∧ new.visible = true
  /-- A save that replaces a row changes nothing, gives way to a near duplicate, or leaves exactly one
  visible row with its text. -/
  saved : ∀ (index : ℕ) (save : Save) (id : ℕ), e = .commitSave index → s.saves[index]? = some save →
    save.replacesId = some id → t.rows = s.rows ∨ (∃ existing, save.stage = .deduping existing .near ∧ existing ≠ id) ∨
      (visibleHashes t.rows).count save.textHash = 1

end WorkspaceMemory

/-! ## Successors -/

section

variable {rows : List KnowledgeMemory} {id : ℕ} {row new : KnowledgeMemory} {f : KnowledgeMemory → KnowledgeMemory}

theorem successor_length (rows : List KnowledgeMemory) : successor rows rows.length = none := by
  unfold successor
  rw [List.getElem?_eq_none le_rfl]
  rfl

theorem successor_append (hnew : new.supersededById = none) : successor (rows ++ [new]) = successor rows := by
  funext i
  unfold successor
  obtain hlt | rfl | hgt := lt_trichotomy i rows.length
  · rw [List.getElem?_append_left hlt]
  · rw [List.getElem?_concat_length, List.getElem?_eq_none le_rfl]
    exact hnew
  · have hout : (rows ++ [new])[i]? = none := by
      rw [List.getElem?_eq_none_iff, List.length_append, List.length_singleton]
      omega
    rw [hout, List.getElem?_eq_none hgt.le]

theorem successor_modify (hf : ∀ row, (f row).supersededById = row.supersededById) :
    successor (rows.modify id f) = successor rows := by
  funext i
  unfold successor
  by_cases hi : id = i
  · subst hi
    rw [List.getElem?_modify_eq]
    cases rows[id]? with
    | none => rfl
    | some row => exact hf row
  · rw [List.getElem?_modify_ne _ _ hi]

theorem successor_supersededBy (hrow : rows[id]? = some row) (w : ℕ) :
    successor (rows.modify id fun row => row.supersededBy w) = Function.update (successor rows) id (some w) := by
  funext i
  by_cases hi : i = id
  · subst hi
    rw [Function.update_self]
    unfold successor
    rw [getElem?_modify_same hrow]
    rfl
  · rw [Function.update_of_ne hi]
    unfold successor
    rw [List.getElem?_modify_ne _ _ (Ne.symm hi)]

theorem modify_of_none (h : rows[id]? = none) : rows.modify id f = rows :=
  List.modify_eq_self (List.getElem?_eq_none_iff.1 h)

/-- **A row may be superseded by one that leads nowhere.** -/
theorem acyclic_supersededBy (h : Acyclic (successor rows)) {w : ℕ} (hend : successor rows w = none) (hne : w ≠ id) :
    Acyclic (successor (rows.modify id fun row => row.supersededBy w)) := by
  cases hrow : rows[id]? with
  | none => exact (modify_of_none hrow).symm ▸ h
  | some row =>
    rw [successor_supersededBy hrow]
    exact h.forward hend hne

/-! ## Counts -/

theorem countVisible_eq_length (rows : List KnowledgeMemory) : countVisible rows = (visibleHashes rows).length := by
  unfold countVisible visibleHashes
  rw [List.length_map, List.countP_eq_length_filter]

theorem countVisible_append (rows : List KnowledgeMemory) (new : KnowledgeMemory) :
    countVisible (rows ++ [new]) = countVisible rows + if new.visible = true then 1 else 0 := by
  unfold countVisible
  rw [List.countP_append, List.countP_singleton]

theorem countVisible_hide_le (rows : List KnowledgeMemory) (id : ℕ) (hf : ∀ row, (f row).visible = false) :
    countVisible (rows.modify id f) ≤ countVisible rows := by
  rw [countVisible_eq_length, countVisible_eq_length]
  exact (visibleHashes_hide rows id hf).length_le

theorem countVisible_hide (rows : List KnowledgeMemory) (id : ℕ) (hf : ∀ row, (f row).visible = false) :
    countVisible (rows.modify id f) = countOthers (some id) rows := by
  change List.countP _ _ = (rows.eraseIdx id).countP _
  cases hrow : rows[id]? with
  | none =>
    rw [modify_of_none hrow, List.eraseIdx_of_length_le (List.getElem?_eq_none_iff.1 hrow)]
  | some row =>
    rw [countP_modify _ hrow, hf, if_neg Bool.false_ne_true, Nat.add_zero]

theorem countVisible_modify (hrow : rows[id]? = some row) (hf : (f row).visible = row.visible) :
    countVisible (rows.modify id f) = countVisible rows := by
  unfold countVisible
  rw [countP_modify _ hrow, countP_eraseIdx _ hrow, hf]

theorem countVisible_le_others (rows : List KnowledgeMemory) (id : ℕ) (f : KnowledgeMemory → KnowledgeMemory) :
    countVisible (rows.modify id f) ≤ countOthers (some id) rows + 1 := by
  change List.countP _ _ ≤ (rows.eraseIdx id).countP _ + 1
  cases hrow : rows[id]? with
  | none =>
    rw [modify_of_none hrow, List.eraseIdx_of_length_le (List.getElem?_eq_none_iff.1 hrow)]
    omega
  | some row =>
    rw [countP_modify _ hrow]
    split_ifs <;> omega

end

namespace WorkspaceMemory

section

variable {platform : Platform} {s t : WorkspaceMemory} {e : Event} {rows : List KnowledgeMemory}

theorem Undisturbed.save {index : ℕ} {save : Save} (h : s.Undisturbed (.commitSave index))
    (hsave : s.saves[index]? = some save) : save.finds s.rows = true := by
  have hall : s.saves[index]?.all (·.finds s.rows) = true := h
  rw [hsave] at hall
  exact hall

theorem Undisturbed.update {index : ℕ} {update : Update} (h : s.Undisturbed (.commitUpdate index))
    (hupdate : s.updates[index]? = some update) : update.finds s.rows = true := by
  have hall : s.updates[index]?.all (·.finds s.rows) = true := h
  rw [hupdate] at hall
  exact hall

theorem finds_existing {save : Save} {existing : ℕ} {reason : DedupeReason} (h : save.finds s.rows = true)
    (hstage : save.stage = .deduping existing reason) (hreplaces : save.replacesId ≠ none) :
    ∃ row, s.rows[existing]? = some row ∧ row.visible = true ∧ (reason = .exact → row.textHash = save.textHash) := by
  unfold Save.finds at h
  rw [hstage] at h
  rw [Bool.or_eq_true] at h
  obtain hnone | hany := h
  · exact absurd (Option.isNone_iff_eq_none.1 hnone) hreplaces
  · obtain ⟨row, hrow, hboth⟩ := (Option.any_eq_true _ _).1 hany
    rw [Bool.and_eq_true, Bool.or_eq_true] at hboth
    refine ⟨row, hrow, hboth.1, ?_⟩
    rintro rfl
    obtain hnear | hsame := hboth.2
    · contradiction
    · exact eq_of_beq hsame

theorem updatedRow_visible (update : Update) (row : KnowledgeMemory) :
    (updatedRow platform update row).visible = (update.status.getD row.status).visible := by
  unfold updatedRow
  cases update.textUpdate <;> rfl

theorem updatedRow_superseded (update : Update) (row : KnowledgeMemory) :
    (updatedRow platform update row).supersededById = row.supersededById := by
  unfold updatedRow
  cases update.textUpdate <;> rfl

theorem update_cases (platform : Platform) {update : Update} {visibleCount : Option ℕ} (hsound : UpdateSound update)
    (hstage : update.stage = .updating visibleCount) (hfinds : update.finds rows = true) {row : KnowledgeMemory}
    (hrow : rows[update.memoryId]? = some row) :
    (updatedRow platform update row).visible = row.visible ∨ (updatedRow platform update row).visible = false ∨
      row.supersededById = none ∧ countOthers (some update.memoryId) rows < MEMORY_VISIBLE_RECORD_CAP := by
  rw [updatedRow_visible]
  cases hgiven : update.status with
  | none => exact Or.inl rfl
  | some status =>
    rw [Option.getD_some]
    by_cases hvisible : status.visible = true
    · cases visibleCount with
      | none =>
        have hhidden := hsound.hidden hstage
        rw [hgiven, Option.getD_some] at hhidden
        exact Or.inr (Or.inl hhidden)
      | some visibleCount =>
        unfold Update.finds at hfinds
        rw [hstage] at hfinds
        dsimp only at hfinds
        rw [hgiven, Option.any_some, hvisible, hrow, Option.any_some, Bool.not_true, Bool.false_or,
          Bool.or_eq_true, Bool.and_eq_true, decide_eq_true_iff] at hfinds
        obtain hwas | ⟨hnone, hcount⟩ := hfinds
        · exact Or.inl (hvisible.trans hwas.symm)
        · exact Or.inr (Or.inr ⟨Option.isNone_iff_eq_none.1 hnone,
            hcount.trans_lt (hsound.updating visibleCount hstage).1⟩)
    · exact Or.inr (Or.inl (Bool.eq_false_iff.2 hvisible))

/-! ## The invariant -/

theorem bounded_insert {save : Save} {visibleCount : ℕ} (hsound : SaveSound platform save)
    (hstage : save.stage = .inserting visibleCount) (hfinds : save.finds rows = true) :
    countVisible (commitInsert save rows) ≤ MEMORY_VISIBLE_RECORD_CAP := by
  have hbelow := hsound.below visibleCount hstage
  have hothers : countOthers save.replacesId rows ≤ visibleCount := by
    unfold Save.finds at hfinds
    rw [hstage] at hfinds
    exact of_decide_eq_true hfinds
  unfold commitInsert
  split
  · next hnone =>
      rw [hnone] at hothers
      have hcount : countVisible rows ≤ visibleCount := hothers
      rw [countVisible_append, if_pos (insertedRow_visible save)]
      omega
  · next id hreplaces =>
      rw [hreplaces] at hothers
      rw [countVisible_append, if_pos (insertedRow_visible save),
        countVisible_hide rows id (f := fun row => row.supersededBy rows.length) fun _ => rfl]
      omega

theorem standing_modify {id : ℕ} {f : KnowledgeMemory → KnowledgeMemory} (h : ∀ row ∈ rows, row.visible = true →
      row.supersededById = none)
    (hf : ∀ row, rows[id]? = some row → (f row).visible = true → (f row).supersededById = none) :
    ∀ row ∈ rows.modify id f, row.visible = true → row.supersededById = none := by
  intro row hrow hvisible
  obtain ⟨i, hi⟩ := List.mem_iff_getElem?.1 hrow
  obtain ⟨-, old, hold, rfl⟩ | ⟨-, hold⟩ := getElem?_modify_cases hi
  · exact hf old hold hvisible
  · exact h row (List.mem_of_getElem? hold) hvisible

theorem standing_append {new : KnowledgeMemory} (h : ∀ row ∈ rows, row.visible = true → row.supersededById = none)
    (hnew : new.supersededById = none) : ∀ row ∈ rows ++ [new], row.visible = true → row.supersededById = none := by
  intro row hrow hvisible
  obtain hold | hlast := List.mem_append.1 hrow
  · exact h row hold hvisible
  · exact List.mem_singleton.1 hlast ▸ hnew

theorem successor_of_visible (h : Orderly rows) {id : ℕ} {row : KnowledgeMemory} (hrow : rows[id]? = some row)
    (hvisible : row.visible = true) : successor rows id = none := by
  unfold successor
  rw [hrow]
  exact h.standing row (List.mem_of_getElem? hrow) hvisible

theorem orderly_insert (h : Orderly rows) {save : Save} {visibleCount : ℕ} (hsound : SaveSound platform save)
    (hstage : save.stage = .inserting visibleCount) (hfinds : save.finds rows = true) :
    Orderly (commitInsert save rows) := by
  refine ⟨bounded_insert hsound hstage hfinds, ?_, ?_⟩
  · unfold commitInsert
    split
    · exact standing_append h.standing rfl
    · refine standing_append (standing_modify h.standing ?_) rfl
      intro row _ hvisible
      contradiction
  · unfold commitInsert
    split
    · rw [successor_append rfl]
      exact h.acyclic
    · next id _ =>
        rw [successor_append rfl]
        by_cases hid : rows.length = id
        · -- no row is at the end of the table
          have hnone : rows[id]? = none := List.getElem?_eq_none hid.le
          rw [modify_of_none hnone]
          exact h.acyclic
        · exact acyclic_supersededBy h.acyclic (successor_length rows) hid

theorem orderly_dedupe (h : Orderly s.rows) {save : Save} {existing : ℕ} {reason : DedupeReason}
    (hstage : save.stage = .deduping existing reason) (hfinds : save.finds s.rows = true)
    (hcommit : commitDedupe save existing s.rows = some rows) : Orderly rows := by
  obtain ⟨-, rfl⟩ | ⟨hreplaces, -, rfl⟩ | ⟨id, hreplaces, hid, rfl⟩ := commitDedupe_cases hcommit
  · exact h
  · obtain ⟨row, hrow, -⟩ := finds_existing hfinds hstage (by rw [hreplaces]; simp)
    refine ⟨?_, standing_modify h.standing ?_, ?_⟩
    · rw [countVisible_modify hrow rfl]
      exact h.bounded
    · exact fun old hold hvisible => h.standing old (List.mem_of_getElem? hold) hvisible
    · rw [successor_modify (f := fun row => { row with text := save.text, textHash := save.textHash }) fun _ => rfl]
      exact h.acyclic
  · obtain ⟨row, hrow, hvisible, -⟩ := finds_existing hfinds hstage (by rw [hreplaces]; simp)
    refine ⟨(countVisible_hide_le s.rows id fun _ => rfl).trans h.bounded, standing_modify h.standing ?_, ?_⟩
    · intro old _ hshown
      contradiction
    · exact acyclic_supersededBy h.acyclic (successor_of_visible h hrow hvisible) (Ne.symm hid)

theorem orderly_update (h : Orderly rows) {update : Update} {visibleCount : Option ℕ} (hsound : UpdateSound update)
    (hstage : update.stage = .updating visibleCount) (hfinds : update.finds rows = true) :
    Orderly (rows.modify update.memoryId (updatedRow platform update)) := by
  cases hrow : rows[update.memoryId]? with
  | none => exact (modify_of_none hrow).symm ▸ h
  | some row =>
    have hcases := update_cases platform hsound hstage hfinds hrow
    refine ⟨?_, standing_modify h.standing ?_, ?_⟩
    · obtain hsame | hhidden | ⟨-, hcount⟩ := hcases
      · rw [countVisible_modify hrow hsame]
        exact h.bounded
      · have hle : countVisible (rows.modify update.memoryId (updatedRow platform update)) ≤ countVisible rows := by
          unfold countVisible
          rw [countP_modify _ hrow, countP_eraseIdx _ hrow, hhidden, if_neg Bool.false_ne_true]
          omega
        exact hle.trans h.bounded
      · exact (countVisible_le_others rows _ _).trans hcount
    · intro old hold hvisible
      cases hrow.symm.trans hold
      rw [updatedRow_superseded]
      obtain hsame | hhidden | ⟨hnone, -⟩ := hcases
      · exact h.standing row (List.mem_of_getElem? hrow) (hsame ▸ hvisible)
      · rw [hhidden] at hvisible
        contradiction
      · exact hnone
    · rw [successor_modify (updatedRow_superseded update)]
      exact h.acyclic

theorem Orderly.step (h : Orderly s.rows) (hsaves : ∀ save ∈ s.saves, SaveSound platform save)
    (hupdates : ∀ update ∈ s.updates, UpdateSound update) (hok : s.Undisturbed e)
    (heffect : RowEffect platform s e rows) : Orderly rows := by
  cases heffect with
  | same heq => exact heq ▸ h
  | create text status he _ heq =>
    rw [he] at hok
    have hhidden : status.visible = false := hok
    rw [heq]
    refine ⟨?_, standing_append h.standing rfl, ?_⟩
    · rw [countVisible_append]
      have hnot : ¬ (KnowledgeMemory.visible
          { status, text := trimUnits text, textHash := hashMemoryText platform (trimUnits text)
            supersedesId := none, supersededById := none } = true) := by
        unfold KnowledgeMemory.visible
        rw [hhidden]
        exact Bool.false_ne_true
      rw [if_neg hnot]
      exact h.bounded
    · rw [successor_append rfl]
      exact h.acyclic
  | archive id _ heq =>
    rw [heq]
    refine ⟨(countVisible_hide_le s.rows id fun _ => rfl).trans h.bounded, standing_modify h.standing ?_, ?_⟩
    · intro row _ hvisible
      contradiction
    · rw [successor_modify (f := fun row => { row with status := .archived }) fun _ => rfl]
      exact h.acyclic
  | insert index save visibleCount he hsave hstage _ heq =>
    rw [he] at hok
    rw [heq]
    exact orderly_insert h (hsaves save (List.mem_of_getElem? hsave)) hstage (hok.save hsave)
  | dedupe index save existing reason he hsave hstage heq =>
    rw [he] at hok
    exact orderly_dedupe h hstage (hok.save hsave) heq
  | update index update visibleCount he hupdate hstage _ heq =>
    rw [he] at hok
    rw [heq]
    exact orderly_update h (hupdates update (List.mem_of_getElem? hupdate)) hstage (hok.update hupdate)

/-! ## What a commit leaves -/

theorem getElem?_modify_other {id i : ℕ} {f : KnowledgeMemory → KnowledgeMemory} {row : KnowledgeMemory} (hne : i ≠ id)
    (hrow : rows[i]? = some row) : (rows.modify id f)[i]? = some row := by
  rw [List.getElem?_modify_ne _ _ (Ne.symm hne)]
  exact hrow

theorem getElem?_inserted (save : Save) (rows : List KnowledgeMemory) :
    (commitInsert save rows)[rows.length]? = some (insertedRow save) := by
  unfold commitInsert
  split
  · exact List.getElem?_concat_length
  · next id _ =>
      have hlength : (rows.modify id fun row => row.supersededBy rows.length).length = rows.length :=
        List.length_modify _ _ _
      rw [List.getElem?_append_right hlength.le, hlength, Nat.sub_self]
      rfl

theorem superseded_modify {id i : ℕ} {f : KnowledgeMemory → KnowledgeMemory} {row row' : KnowledgeMemory}
    (hrow : rows[i]? = some row) (hrow' : (rows.modify id f)[i]? = some row')
    (hchanged : row'.supersededById ≠ row.supersededById) : i = id ∧ row' = f row := by
  obtain ⟨hi, old, hold, rfl⟩ | ⟨-, hold⟩ := getElem?_modify_cases hrow'
  · subst hi
    cases hold.symm.trans hrow
    exact ⟨rfl, rfl⟩
  · cases hold.symm.trans hrow
    exact absurd rfl hchanged

theorem superseded_step (hok : s.Undisturbed e) (heffect : RowEffect platform s e rows) {id : ℕ}
    {row row' : KnowledgeMemory} (hrow : s.rows[id]? = some row) (hrow' : rows[id]? = some row')
    (hchanged : row'.supersededById ≠ row.supersededById) :
    ∃ successor new, row'.supersededById = some successor ∧ rows[successor]? = some new ∧ new.visible = true := by
  have hlt : id < s.rows.length := (List.getElem?_eq_some_iff.1 hrow).1
  cases heffect with
  | same heq =>
    rw [heq, hrow] at hrow'
    exact absurd (congrArg _ (Option.some.inj hrow').symm) hchanged
  | create text status _ _ heq =>
    rw [heq, List.getElem?_append_left hlt, hrow] at hrow'
    exact absurd (congrArg _ (Option.some.inj hrow').symm) hchanged
  | archive _ _ heq =>
    rw [heq] at hrow'
    obtain ⟨-, rfl⟩ := superseded_modify hrow hrow' hchanged
    exact absurd rfl hchanged
  | insert index save visibleCount _ _ _ _ heq =>
    subst heq
    refine ⟨s.rows.length, insertedRow save, ?_, getElem?_inserted save s.rows, insertedRow_visible save⟩
    unfold commitInsert at hrow'
    split at hrow'
    · rw [List.getElem?_append_left hlt, hrow] at hrow'
      exact absurd (congrArg _ (Option.some.inj hrow').symm) hchanged
    · rw [List.getElem?_append_left ((List.length_modify _ _ _).symm ▸ hlt)] at hrow'
      obtain ⟨-, rfl⟩ := superseded_modify hrow hrow' hchanged
      rfl
  | dedupe index save existing reason he hsave hstage heq =>
    rw [he] at hok
    obtain ⟨-, rfl⟩ | ⟨-, -, rfl⟩ | ⟨replaced, hreplaces, hne, rfl⟩ := commitDedupe_cases heq
    · rw [hrow] at hrow'
      exact absurd (congrArg _ (Option.some.inj hrow').symm) hchanged
    · obtain ⟨-, rfl⟩ := superseded_modify hrow hrow' hchanged
      exact absurd rfl hchanged
    · obtain ⟨hid, rfl⟩ := superseded_modify hrow hrow' hchanged
      obtain ⟨winner, hwinner, hvisible, -⟩ := finds_existing (hok.save hsave) hstage (by rw [hreplaces]; simp)
      exact ⟨existing, winner, rfl, getElem?_modify_other (Ne.symm hne) hwinner, hvisible⟩
  | update index update _ _ _ _ _ heq =>
    rw [heq] at hrow'
    obtain ⟨-, rfl⟩ := superseded_modify hrow hrow' hchanged
    exact absurd (updatedRow_superseded update row) hchanged

theorem saved_step (hok : s.Undisturbed e) (hhashed : Hashed platform rows) (heffect : RowEffect platform s e rows)
    {index id : ℕ} {save : Save} (he : e = .commitSave index) (hsave : s.saves[index]? = some save)
    (hreplaces : save.replacesId = some id) :
    rows = s.rows ∨ (∃ existing, save.stage = .deduping existing .near ∧ existing ≠ id) ∨
      (visibleHashes rows).count save.textHash = 1 := by
  subst he
  cases heffect with
  | same heq => exact Or.inl heq
  | insert index' save' visibleCount he hsave' _ _ heq =>
    obtain rfl := Event.commitSave.inj he
    cases hsave.symm.trans hsave'
    subst heq
    exact Or.inr (Or.inr (count_visibleHashes hhashed.unique (getElem?_inserted save s.rows) (insertedRow_visible save)))
  | dedupe index' save' existing reason he hsave' hstage heq =>
    obtain rfl := Event.commitSave.inj he
    cases hsave.symm.trans hsave'
    obtain ⟨winner, hwinner, hvisible, hexact⟩ := finds_existing (hok.save hsave) hstage (by rw [hreplaces]; simp)
    obtain ⟨hnone, -⟩ | ⟨-, -, rfl⟩ | ⟨replaced, hreplaced, hne, rfl⟩ := commitDedupe_cases heq
    · rw [hreplaces] at hnone
      contradiction
    · -- the row that is updated in place has the text
      exact Or.inr (Or.inr (count_visibleHashes hhashed.unique (getElem?_modify_same hwinner) hvisible))
    · cases hreplaces.symm.trans hreplaced
      cases reason with
      | near => exact Or.inr (Or.inl ⟨existing, hstage, Ne.symm hne⟩)
      | exact =>
        rw [← hexact rfl]
        exact Or.inr (Or.inr (count_visibleHashes hhashed.unique
          (getElem?_modify_other (Ne.symm hne) hwinner) hvisible))
  | _ => contradiction

/-! ## Runs -/

variable (platform)

abbrev Steps : WorkspaceMemory → Event → WorkspaceMemory → Prop := fun s e t => step platform s e = some t

structure Sound (s : WorkspaceMemory) : Prop where
  hashed : Hashed platform s.rows
  saves : ∀ save ∈ s.saves, SaveSound platform save
  updates : ∀ update ∈ s.updates, UpdateSound update

variable {platform}

theorem Sound.empty : Sound platform .empty := ⟨⟨List.forall_mem_nil _, List.nodup_nil⟩, List.forall_mem_nil _,
    List.forall_mem_nil _⟩

theorem UpdateEffect.sound (hs : ∀ update ∈ s.updates, UpdateSound update) (h : UpdateEffect s t) :
    ∀ update ∈ t.updates, UpdateSound update := by
  intro update hmem
  cases h with
  | same heq => exact hs update (heq ▸ hmem)
  | read new hnew _ heq =>
    rw [heq] at hmem
    obtain hold | hlast := List.mem_append.1 hmem
    · exact hs update hold
    · exact List.mem_singleton.1 hlast ▸ hnew
  | move index old new _ hnew _ _ _ heq =>
    rw [heq] at hmem
    obtain hold | rfl := List.mem_or_eq_of_mem_set hmem
    · exact hs update hold
    · exact hnew

theorem Sound.step (hs : Sound platform s) (h : WorkspaceMemory.step platform s e = some t) : Sound platform t where
  hashed := hs.hashed.step hs.saves (step_rows h)
  saves := step_saves hs.saves h
  updates := (step_updates hs.updates h).sound hs.updates

structure Shown (s : WorkspaceMemory) : Prop where
  clean : VisibleClean s.rows
  kept : ∀ update ∈ s.updates, UpdateKept s.rows update

theorem Shown.step (h : Shown s) (hs : Sound platform s) (hgated : Gated e)
    (hstep : WorkspaceMemory.step platform s e = some t) : Shown t where
  clean := h.clean.step hs.saves hs.updates h.kept hgated (step_rows hstep)
  kept := kept_step h.clean h.kept (fun _ hclean => hclean.step hs.saves hs.updates (step_rows hstep))
    (step_updates hs.updates hstep)

theorem Shown.empty : Shown .empty := ⟨List.forall_mem_nil _, List.forall_mem_nil _⟩

structure Kept (platform : Platform) (s : WorkspaceMemory) : Prop where
  sound : Sound platform s
  orderly : Orderly s.rows

theorem Kept.empty : Kept platform .empty where
  sound := .empty
  orderly := ⟨Nat.zero_le _, List.forall_mem_nil _, acyclic_of_none fun _ => rfl⟩

theorem Kept.step (h : Kept platform s) (hok : s.Undisturbed e) (hstep : WorkspaceMemory.step platform s e = some t) :
    Kept platform t where
  sound := h.sound.step hstep
  orderly := Orderly.step h.orderly h.sound.saves h.sound.updates hok (step_rows hstep)

theorem Sound.settles (h : Sound platform s) (hok : s.Undisturbed e)
    (hstep : WorkspaceMemory.step platform s e = some t) : Settles s e t where
  superseded _ _ _ hrow hrow' hchanged := superseded_step hok (step_rows hstep) hrow hrow' hchanged
  saved _ _ _ he hsave hreplaces := saved_step hok (h.step hstep).hashed (step_rows hstep) he hsave hreplaces

/-- **The visible memory stays clean, unique and bounded.** The visible rows have hashes of their own texts, all
different, whatever the writers do; where no curated create is visible at once, what is visible may be shown. Where
every commit finds what it rests on, the memory stays below its cap, no row is superseded in a circle or by a hidden
row, and a save that replaces a row leaves its text visible once. -/
theorem memory_kept (platform : Platform) (es : List Event) :
    EachState (Steps platform) (fun s => Hashed platform s.rows) .empty es ∧
    (EachStep (Steps platform) (fun _ e => Gated e) .empty es →
      EachState (Steps platform) (fun s => VisibleClean s.rows) .empty es) ∧
    (EachStep (Steps platform) Undisturbed .empty es →
      EachState (Steps platform) (fun s => Orderly s.rows) .empty es ∧
      EachStep (Steps platform) (fun s e => ∀ t, step platform s e = some t → Settles s e t) .empty es) := by
  refine ⟨?_, ?_, ?_⟩
  · intro es₁ es₂ t _ hrun
    exact (hrun.invariant (P := Sound platform) (fun s e t hstep hs => hs.step hstep) .empty).hashed
  · intro hgated
    have hshown : EachState (Steps platform) (fun s => Sound platform s ∧ Shown s) .empty es :=
      eachState_of_eachStep (fun s hs => hs)
        (fun s e t hstep hs hok => ⟨hs.1.step hstep, hs.2.step hs.1 hok hstep⟩) ⟨.empty, .empty⟩ hgated
    exact fun es₁ es₂ t hes hrun => (hshown es₁ es₂ t hes hrun).2.clean
  · intro hok
    have hkept : EachState (Steps platform) (Kept platform) .empty es :=
      eachState_of_eachStep (fun s hs => hs) (fun s e t hstep hs hok => hs.step hok hstep) Kept.empty hok
    refine ⟨fun es₁ es₂ t hes hrun => (hkept es₁ es₂ t hes hrun).orderly, ?_⟩
    intro es₁ e es₂ s t hes hrun hstep t' hstep'
    exact (hkept es₁ (e :: es₂) s hes hrun).sound.settles (hok es₁ e es₂ s t hes hrun hstep) hstep'

end

/-! ## A workspace -/

/-- ASCII texts in lower case, and the SHA-256 of the texts below. -/
def asciiPlatform : Platform where
  toLowerCase := List.map fun unit => if isUpperUnit unit then unit + 0x20 else unit
  sha256Hex text :=
    if text = codeUnits "a b" then "c8687a08aa5d6ed2044328fa6a697ab8e96dc34291e8c2034ae8c38e6fcc6d65"
    else if text = codeUnits "deploy from main" then
      "ff28b6e432b06ffe4e1fab1421bdddf47bc41cd7001ae1fa6bf614ba02ad0be4"
    else if text = codeUnits "deploy from staging" then
      "7994b19deecc70cb0eeaafc007b22f1575af04d7a616fd314eb0990550b818d2"
    else if text = codeUnits "deploy from main only" then
      "ab00ac0a7e8c8735f9f67720d74b9a3ec168d7d385ea526063118686fd54f98f"
    else ""

def saving (index : ℕ) (text : String) (replacesId nearest : Option ℕ) : List Event :=
  [.save (codeUnits text) replacesId, .findExact index, .findNear index nearest]

/-- Two rows, and a replacement of the second that comes close to the first. -/
def closeReplacement : List Event := saving 0 "Deploy from main" none none ++ [.countSave 0, .commitSave 0] ++
    saving 1 "Deploy from staging" none none ++ [.countSave 1, .commitSave 1] ++
      saving 2 "Deploy from main only" (some 1) (some 0)

theorem curated_unsanitized : (play (step asciiPlatform) .empty [.create (codeUnits "a  b") .approved]).any (fun t =>
    t.rows.any fun row => row.visible && (sanitizeMemoryText row.text).1 != row.text) = true := by
  decide +kernel

theorem close_replacement_dropped : (play (step asciiPlatform) .empty closeReplacement).any (fun s =>
    (step asciiPlatform s (.commitSave 2)).any fun t =>
      s.saves[2]?.any fun save =>
        save.replacesId == some 1 && t.rows != s.rows && (visibleHashes t.rows).count save.textHash == 0) = true := by
  decide +kernel

/-- A curated row is shown as it came, and a save that replaces a row leaves no row with its text. -/
theorem memory_not_kept : ¬ EachState (Steps asciiPlatform)
      (fun s => ∀ row ∈ s.rows, row.visible = true → (sanitizeMemoryText row.text).1 = row.text) .empty
      [.create (codeUnits "a  b") .approved] ∧
    ¬ EachStep (Steps asciiPlatform)
      (fun s e => ∀ (t : WorkspaceMemory) (index : ℕ) (save : Save) (id : ℕ), step asciiPlatform s e = some t →
        e = .commitSave index → s.saves[index]? = some save → save.replacesId = some id →
          t.rows = s.rows ∨ (visibleHashes t.rows).count save.textHash = 1) .empty
      (closeReplacement ++ [.commitSave 2]) := by
  refine ⟨?_, ?_⟩
  · intro hall
    obtain ⟨t, hplay, hrest⟩ := (Option.any_eq_true _ _).1 curated_unsanitized
    obtain ⟨row, hrow, hrest⟩ := List.any_eq_true.1 hrest
    rw [Bool.and_eq_true, bne_iff_ne] at hrest
    exact hrest.2 (hall _ [] t (List.append_nil _).symm (run_of_play hplay) row hrow hrest.1)
  · intro hall
    obtain ⟨s, hplay, hrest⟩ := (Option.any_eq_true _ _).1 close_replacement_dropped
    obtain ⟨t, hstep, hrest⟩ := (Option.any_eq_true _ _).1 hrest
    obtain ⟨save, hsave, hrest⟩ := (Option.any_eq_true _ _).1 hrest
    rw [Bool.and_eq_true, Bool.and_eq_true, beq_iff_eq, bne_iff_ne, beq_iff_eq] at hrest
    obtain ⟨⟨hreplaces, hchanged⟩, hnone⟩ := hrest
    have hkept := hall closeReplacement _ [] s t rfl (run_of_play hplay) hstep
    obtain hsame | hone := hkept t 2 save 1 hstep rfl hsave hreplaces
    · exact hchanged hsame
    · rw [hnone] at hone
      contradiction

/-- A save, and another that replaces its row, one after the other. -/
def replacement : List Event := saving 0 "Deploy from main" none none ++ [.countSave 0, .commitSave 0] ++
    saving 1 "Deploy from staging" (some 0) none ++ [.countSave 1, .commitSave 1]

theorem memory_kept_replacement : EachState (Steps asciiPlatform) (fun s => Orderly s.rows) .empty replacement ∧
    EachState (Steps asciiPlatform) (fun s => VisibleClean s.rows) .empty replacement := by
  have hplay : (play (guarded (step asciiPlatform) Undisturbed) .empty replacement).isSome = true := by
    decide +kernel
  have hgated : (play (guarded (step asciiPlatform) fun _ e => Gated e) .empty replacement).isSome = true := by
    decide +kernel
  obtain ⟨t, ht⟩ := Option.isSome_iff_exists.1 hplay
  obtain ⟨u, hu⟩ := Option.isSome_iff_exists.1 hgated
  exact ⟨((memory_kept asciiPlatform replacement).2.2 (eachStep_of_guarded ht)).1,
    (memory_kept asciiPlatform replacement).2.1 (eachStep_of_guarded hu)⟩

end WorkspaceMemory

end OpenGeni.Memory
