/-
What an agent sees of a workspace's memory.

The hash goes with the text in every write, and the index keeps the hashes of the visible rows
apart: this holds whatever the writers do. What may be shown is the gates' affair: all writers but
the curated create bring a text that was sanitized. The rest of what a commit does rests on rows
that were read before: the count, the row that takes over, the row that is updated in place.
-/
import OpenGeni.Lib.Forwarding
import OpenGeni.Lib.Tally
import OpenGeni.Memory.KnowledgeMemories

namespace OpenGeni.Memory

open OpenGeni.Lib

/-! ## Rows that are written -/

section

variable {α : Type*} {l : List α} {i : ℕ} {a : α} {f : α → α}

theorem countP_modify (p : α → Bool) (h : l[i]? = some a) :
    (l.modify i f).countP p = (l.eraseIdx i).countP p + if p (f a) = true then 1 else 0 := by
  induction l generalizing i with
  | nil => contradiction
  | cons b l ih =>
    cases i with
    | zero =>
      cases h
      rw [List.modify_zero_cons, List.eraseIdx_zero, List.countP_cons]
      rfl
    | succ i =>
      rw [List.modify_succ_cons, List.eraseIdx_cons_succ, List.countP_cons, List.countP_cons, ih h]
      omega

theorem countP_eraseIdx (p : α → Bool) (h : l[i]? = some a) :
    l.countP p = (l.eraseIdx i).countP p + if p a = true then 1 else 0 := by
  calc l.countP p = (l.modify i id).countP p := by rw [List.modify_id]
    _ = (l.eraseIdx i).countP p + if p a = true then 1 else 0 := countP_modify p h

end

section

variable {rows : List KnowledgeMemory} {id : ℕ} {row new : KnowledgeMemory} {f : KnowledgeMemory → KnowledgeMemory}

theorem visibleHashes_append (rows : List KnowledgeMemory) (new : KnowledgeMemory) :
    visibleHashes (rows ++ [new]) = visibleHashes rows ++ if new.visible = true then [new.textHash] else [] := by
  unfold visibleHashes
  rw [List.filter_append, List.map_append]
  by_cases hnew : new.visible = true
  · simp [hnew]
  · simp [hnew]

theorem visibleHashes_hide (rows : List KnowledgeMemory) (id : ℕ) (hf : ∀ row, (f row).visible = false) :
    (visibleHashes (rows.modify id f)).Sublist (visibleHashes rows) := by
  unfold visibleHashes
  induction rows generalizing id with
  | nil => rw [List.modify_nil]
  | cons first rows ih =>
    cases id with
    | zero =>
      rw [List.modify_zero_cons, List.filter_cons_of_neg (by rw [hf]; exact Bool.false_ne_true)]
      exact ((List.sublist_cons_self first rows).filter _).map _
    | succ id =>
      rw [List.modify_succ_cons]
      by_cases hfirst : first.visible = true
      · rw [List.filter_cons_of_pos hfirst, List.filter_cons_of_pos hfirst, List.map_cons, List.map_cons]
        exact (ih id).cons_cons _
      · rw [List.filter_cons_of_neg hfirst, List.filter_cons_of_neg hfirst]
        exact ih id

theorem mem_visibleHashes (hrow : rows[id]? = some row) (hvisible : row.visible = true) :
    row.textHash ∈ visibleHashes rows :=
  List.mem_map.2 ⟨row, List.mem_filter.2 ⟨List.mem_of_getElem? hrow, hvisible⟩, rfl⟩

theorem count_visibleHashes (hunique : UniqueHashes rows) (hrow : rows[id]? = some row)
    (hvisible : row.visible = true) : (visibleHashes rows).count row.textHash = 1 :=
  List.count_eq_one_of_mem hunique (mem_visibleHashes hrow hvisible)

theorem getElem?_modify_cases {other : KnowledgeMemory} {i : ℕ} (h : (rows.modify id f)[i]? = some other) :
    (i = id ∧ ∃ row, rows[id]? = some row ∧ other = f row) ∨ i ≠ id ∧ rows[i]? = some other := by
  by_cases hi : i = id
  · rw [hi, List.getElem?_modify_eq] at h
    obtain ⟨row, hrow, rfl⟩ := Option.map_eq_some_iff.1 h
    exact Or.inl ⟨hi, row, hrow, rfl⟩
  · rw [List.getElem?_modify_ne _ _ (Ne.symm hi)] at h
    exact Or.inr ⟨hi, h⟩

theorem getElem?_modify_same (hrow : rows[id]? = some row) : (rows.modify id f)[id]? = some (f row) := by
  rw [List.getElem?_modify_eq, hrow]
  rfl

theorem insertedRow_visible (save : Save) : (WorkspaceMemory.insertedRow save).visible = true := rfl

end

namespace WorkspaceMemory

/-! ## What a step does to the rows -/

inductive RowEffect (platform : Platform) (s : WorkspaceMemory) (e : Event) (rows : List KnowledgeMemory) : Prop
  | same (h : rows = s.rows)
  | create (text : CodeUnits) (status : KnowledgeMemoryStatus) (he : e = .create text status)
      (hunique : UniqueHashes rows)
      (h : rows = s.rows ++
        [{ status, text := trimUnits text, textHash := hashMemoryText platform (trimUnits text)
           supersedesId := none, supersededById := none }])
  | archive (id : ℕ) (he : e = .archive id) (h : rows = s.rows.modify id fun row => { row with status := .archived })
  | insert (index : ℕ) (save : Save) (visibleCount : ℕ) (he : e = .commitSave index)
      (hsave : s.saves[index]? = some save) (hstage : save.stage = .inserting visibleCount)
      (hunique : UniqueHashes (s.rows ++ [insertedRow save])) (h : rows = commitInsert save s.rows)
  | dedupe (index : ℕ) (save : Save) (existing : ℕ) (reason : DedupeReason) (he : e = .commitSave index)
      (hsave : s.saves[index]? = some save) (hstage : save.stage = .deduping existing reason)
      (h : commitDedupe save existing s.rows = some rows)
  | update (index : ℕ) (update : Update) (visibleCount : Option ℕ) (he : e = .commitUpdate index)
      (hupdate : s.updates[index]? = some update) (hstage : update.stage = .updating visibleCount)
      (hunique : UniqueHashes rows) (h : rows = s.rows.modify update.memoryId (updatedRow platform update))

/-! ## What the transactions carry -/

def CleanAt (rows : List KnowledgeMemory) (id : ℕ) : Prop := ∃ row, rows[id]? = some row ∧ Clean row.text

structure SaveSound (platform : Platform) (save : Save) : Prop where
  clean : Clean save.text
  hash : save.textHash = hashMemoryText platform save.text
  below : ∀ visibleCount, save.stage = .inserting visibleCount → visibleCount < MEMORY_VISIBLE_RECORD_CAP

structure UpdateSound (update : Update) : Prop where
  clean : ∀ text, update.textUpdate = some text → Clean text
  counting : update.stage = .counting → (update.status.getD update.existing.status).visible = true
  checking : ∀ visibleCount, update.stage = .checking visibleCount →
    visibleCount < MEMORY_VISIBLE_RECORD_CAP ∧ update.textUpdate ≠ none
  updating : ∀ visibleCount, update.stage = .updating (some visibleCount) →
    visibleCount < MEMORY_VISIBLE_RECORD_CAP ∧ (update.textUpdate ≠ none ∨ update.existing.visible = true)
  hidden : update.stage = .updating none → (update.status.getD update.existing.status).visible = false

section

variable {platform : Platform} {s t : WorkspaceMemory} {e : Event}

theorem writableText_clean {raw text : CodeUnits} (h : writableText raw = some text) : Clean text := by
  unfold writableText at h
  dsimp only at h
  split_ifs at h with hrefused
  obtain rfl := Option.some.inj h
  rw [not_or, Bool.not_eq_true] at hrefused
  exact clean_sanitize hrefused.1 hrefused.2

theorem saves_set {saves : List Save} {index : ℕ} {new : Save} (h : ∀ save ∈ saves, SaveSound platform save)
    (hnew : SaveSound platform new) : ∀ save ∈ saves.set index new, SaveSound platform save := by
  intro save hmem
  obtain hold | rfl := List.mem_or_eq_of_mem_set hmem
  · exact h save hold
  · exact hnew

theorem saves_append {saves : List Save} {new : Save} (h : ∀ save ∈ saves, SaveSound platform save)
    (hnew : SaveSound platform new) : ∀ save ∈ saves ++ [new], SaveSound platform save := by
  intro save hmem
  obtain hold | hlast := List.mem_append.1 hmem
  · exact h save hold
  · exact List.mem_singleton.1 hlast ▸ hnew

inductive UpdateEffect (s t : WorkspaceMemory) : Prop
  | same (h : t.updates = s.updates)
  | read (update : Update) (hsound : UpdateSound update) (hread : s.rows[update.memoryId]? = some update.existing)
      (h : t.updates = s.updates ++ [update])
  | move (index : ℕ) (update update' : Update) (hupdate : s.updates[index]? = some update)
      (hsound : UpdateSound update') (hid : update'.memoryId = update.memoryId)
      (hexisting : update'.existing = update.existing)
      (htext : update'.textUpdate = none → update.textUpdate = none) (h : t.updates = s.updates.set index update')

theorem UpdateSound.done {update : Update} (h : UpdateSound update) : UpdateSound { update with stage := .done } where
  clean := h.clean
  counting := by simp
  checking := by simp
  updating := by simp
  hidden := by simp

inductive StepEffect (platform : Platform) (s : WorkspaceMemory) (e : Event) : WorkspaceMemory → Prop
  | idle : StepEffect platform s e s
  | rows (rows : List KnowledgeMemory) (h : RowEffect platform s e rows) : StepEffect platform s e { s with rows }
  | startSave (save : Save) (hsound : SaveSound platform save) :
      StepEffect platform s e { s with saves := s.saves ++ [save] }
  | moveSave (index : ℕ) (save : Save) (stage : SaveStage) (rows : List KnowledgeMemory)
      (hsave : s.saves[index]? = some save) (h : RowEffect platform s e rows)
      (hbelow : ∀ visibleCount, stage = .inserting visibleCount → visibleCount < MEMORY_VISIBLE_RECORD_CAP) :
      StepEffect platform s e ({ s with rows }.setSave index { save with stage })
  | startUpdate (update : Update) (hsound : UpdateSound update)
      (hread : s.rows[update.memoryId]? = some update.existing) :
      StepEffect platform s e { s with updates := s.updates ++ [update] }
  | moveUpdate (index : ℕ) (update update' : Update) (rows : List KnowledgeMemory)
      (hupdate : s.updates[index]? = some update) (h : RowEffect platform s e rows)
      (hsound : UpdateSound update → UpdateSound update') (hid : update'.memoryId = update.memoryId)
      (hexisting : update'.existing = update.existing)
      (htext : update'.textUpdate = none → update.textUpdate = none) :
      StepEffect platform s e ({ s with rows }.setUpdate index update')

theorem StepEffect.ofDone {index : ℕ} {update : Update} {rows : List KnowledgeMemory}
    (hupdate : s.updates[index]? = some update) (h : RowEffect platform s e rows) :
    StepEffect platform s e ({ s with rows }.setUpdate index { update with stage := .done }) :=
  .moveUpdate index update { update with stage := .done } rows hupdate h (·.done) rfl rfl id

/-- **What a step does**, said once. -/
theorem step_effect (h : step platform s e = some t) : StepEffect platform s e t := by
  cases e with
  | create text status =>
    simp only [step] at h
    split_ifs at h with hblank hunique
    · obtain rfl := Option.some.inj h
      exact .idle
    · obtain rfl := Option.some.inj h
      exact .rows _ (.create text status rfl hunique rfl)
    · obtain rfl := Option.some.inj h
      exact .idle
  | archive id =>
    obtain rfl := Option.some.inj h
    exact .rows _ (.archive id rfl rfl)
  | save raw replacesId =>
    simp only [step] at h
    split at h
    · obtain rfl := Option.some.inj h
      exact .idle
    · next text htext =>
        have hclean := writableText_clean htext
        split at h
        · obtain rfl := Option.some.inj h
          exact .startSave _ ⟨hclean, rfl, by simp⟩
        · split at h
          · obtain rfl := Option.some.inj h
            exact .idle
          · obtain rfl := Option.some.inj h
            exact .startSave _ ⟨hclean, rfl, by simp⟩
  | findExact index =>
    simp only [step] at h
    obtain ⟨save, hsave, h⟩ := Option.bind_eq_some_iff.1 h
    split_ifs at h
    split at h <;> (obtain rfl := Option.some.inj h; exact .moveSave index save _ _ hsave (.same rfl) (by simp))
  | findNear index nearest =>
    obtain ⟨save, hsave, h⟩ := Option.bind_eq_some_iff.1 h
    split_ifs at h
    split at h
    · obtain rfl := Option.some.inj h
      exact .moveSave index save _ _ hsave (.same rfl) (by simp)
    · split_ifs at h
      obtain rfl := Option.some.inj h
      exact .moveSave index save _ _ hsave (.same rfl) (by simp)
  | countSave index =>
    simp only [step] at h
    obtain ⟨save, hsave, h⟩ := Option.bind_eq_some_iff.1 h
    have hcounted : ∀ {n : ℕ}, ¬ MEMORY_VISIBLE_RECORD_CAP ≤ n → ∀ visibleCount,
        SaveStage.inserting n = .inserting visibleCount → visibleCount < MEMORY_VISIBLE_RECORD_CAP := by
      rintro n hfull visibleCount ⟨⟩
      exact Nat.lt_of_not_le hfull
    split_ifs at h with _ hvisible hfull hfull
    · obtain rfl := Option.some.inj h
      exact .moveSave index save _ _ hsave (.same rfl) (by simp)
    · obtain rfl := Option.some.inj h
      exact .moveSave index save _ _ hsave (.same rfl) (hcounted hfull)
    · obtain rfl := Option.some.inj h
      exact .moveSave index save _ _ hsave (.same rfl) (by simp)
    · obtain rfl := Option.some.inj h
      exact .moveSave index save _ _ hsave (.same rfl) (hcounted hfull)
  | commitSave index =>
    obtain ⟨save, hsave, h⟩ := Option.bind_eq_some_iff.1 h
    split at h
    · next visibleCount hstage =>
        split_ifs at h with hunique
        · obtain rfl := Option.some.inj h
          exact .moveSave index save _ _ hsave (.insert index save visibleCount rfl hsave hstage hunique rfl) (by simp)
        · obtain rfl := Option.some.inj h
          exact .moveSave index save _ _ hsave (.same rfl) (by simp)
    · next existing reason hstage =>
        split at h
        · next rows hrows =>
            obtain rfl := Option.some.inj h
            exact .moveSave index save _ _ hsave (.dedupe index save existing reason rfl hsave hstage hrows) (by simp)
        · obtain rfl := Option.some.inj h
          exact .moveSave index save _ _ hsave (.same rfl) (by simp)
    · contradiction
  | findWinner index =>
    simp only [step] at h
    obtain ⟨save, hsave, h⟩ := Option.bind_eq_some_iff.1 h
    split_ifs at h
    split at h <;> (obtain rfl := Option.some.inj h; exact .moveSave index save _ _ hsave (.same rfl) (by simp))
  | update memoryId status raw =>
    simp only [step] at h
    split_ifs at h
    · obtain rfl := Option.some.inj h
      exact .idle
    · split at h
      · obtain rfl := Option.some.inj h
        exact .idle
      · next existing hexisting =>
          obtain rfl := Option.some.inj h
          refine .startUpdate _ ?_ hexisting
          have hclean : ∀ text, raw.bind writableText = some text → Clean text := by
            intro text htext
            obtain ⟨source, -, hsource⟩ := Option.bind_eq_some_iff.1 htext
            exact writableText_clean hsource
          by_cases hvisible : (status.getD existing.status).visible = true
          · rw [if_pos hvisible]
            exact ⟨hclean, fun _ => hvisible, by simp, by simp, by simp⟩
          · rw [if_neg hvisible]
            exact ⟨hclean, by simp, by simp, by simp, fun _ => Bool.eq_false_iff.2 hvisible⟩
  | countUpdate index =>
    simp only [step] at h
    obtain ⟨update, hupdate, h⟩ := Option.bind_eq_some_iff.1 h
    split_ifs at h with _ hfull hvisible
    · obtain rfl := Option.some.inj h
      exact .ofDone hupdate (.same rfl)
    · obtain rfl := Option.some.inj h
      refine .moveUpdate index update _ _ hupdate (.same rfl) (fun hsound => ?_) rfl rfl id
      exact ⟨hsound.clean, by simp, by simp,
        fun visibleCount hstage => by
          obtain rfl := Option.some.inj (UpdateStage.updating.inj hstage)
          exact ⟨Nat.lt_of_not_le hfull, Or.inr hvisible⟩, by simp⟩
    · split at h
      · obtain rfl := Option.some.inj h
        exact .ofDone hupdate (.same rfl)
      · next text htext =>
          obtain rfl := Option.some.inj h
          refine .moveUpdate index update _ _ hupdate (.same rfl) (fun hsound => ?_) rfl rfl (by simp)
          refine ⟨?_, by simp, ?_, by simp, by simp⟩
          · intro text' heq
            obtain rfl := Option.some.inj heq
            obtain hown | ⟨-, hexisting⟩ := Option.or_eq_some_iff.1 htext
            · exact hsound.clean _ hown
            · exact writableText_clean hexisting
          · intro visibleCount hstage
            obtain rfl := UpdateStage.checking.inj hstage
            exact ⟨Nat.lt_of_not_le hfull, by simp⟩
  | findDuplicate index =>
    simp only [step] at h
    obtain ⟨update, hupdate, h⟩ := Option.bind_eq_some_iff.1 h
    split at h
    · next visibleCount hstage =>
        split at h
        · obtain rfl := Option.some.inj h
          exact .ofDone hupdate (.same rfl)
        · obtain rfl := Option.some.inj h
          refine .moveUpdate index update _ _ hupdate (.same rfl) (fun hsound => ?_) rfl rfl id
          obtain ⟨hbelow, htext⟩ := hsound.checking visibleCount hstage
          exact ⟨hsound.clean, by simp, by simp,
            fun visibleCount' hstage' => by
              obtain rfl := Option.some.inj (UpdateStage.updating.inj hstage')
              exact ⟨hbelow, Or.inl htext⟩, by simp⟩
    · contradiction
  | commitUpdate index =>
    simp only [step] at h
    obtain ⟨update, hupdate, h⟩ := Option.bind_eq_some_iff.1 h
    split at h
    · next visibleCount hstage =>
        split_ifs at h with hunique
        · obtain rfl := Option.some.inj h
          exact .ofDone hupdate (.update index update visibleCount rfl hupdate hstage hunique rfl)
        · obtain rfl := Option.some.inj h
          exact .ofDone hupdate (.same rfl)
    · contradiction

/-- **What a step does to the rows.** -/
theorem step_rows (h : step platform s e = some t) : RowEffect platform s e t.rows := by
  cases step_effect h with
  | rows rows hrows => exact hrows
  | moveSave index save stage rows hsave hrows hbelow => exact hrows
  | moveUpdate index update update' rows hupdate hrows hsound hid hexisting htext => exact hrows
  | _ => exact .same rfl

theorem step_saves (hs : ∀ save ∈ s.saves, SaveSound platform save) (h : step platform s e = some t) :
    ∀ save ∈ t.saves, SaveSound platform save := by
  cases step_effect h with
  | startSave save hsound => exact saves_append hs hsound
  | moveSave index save stage rows hsave hrows hbelow =>
    have hsound := hs save (List.mem_of_getElem? hsave)
    exact saves_set hs ⟨hsound.clean, hsound.hash, hbelow⟩
  | _ => exact hs

theorem step_updates (hs : ∀ update ∈ s.updates, UpdateSound update) (h : step platform s e = some t) :
    UpdateEffect s t := by
  cases step_effect h with
  | startUpdate update hsound hread => exact .read update hsound hread rfl
  | moveUpdate index update update' rows hupdate hrows hsound hid hexisting htext =>
    exact .move index update update' hupdate (hsound (hs update (List.mem_of_getElem? hupdate))) hid hexisting htext rfl
  | _ => exact .same rfl

end

/-! ## The hashes -/

/-- The hash of a row is its text's, and the visible rows have different ones. -/
structure Hashed (platform : Platform) (rows : List KnowledgeMemory) : Prop where
  hash : ∀ row ∈ rows, row.textHash = hashMemoryText platform row.text
  unique : UniqueHashes rows

section

variable {platform : Platform} {s t : WorkspaceMemory} {e : Event} {rows : List KnowledgeMemory}

theorem hash_modify {id : ℕ} {f : KnowledgeMemory → KnowledgeMemory}
    (h : ∀ row ∈ rows, row.textHash = hashMemoryText platform row.text)
    (hf : ∀ row ∈ rows, (f row).textHash = hashMemoryText platform (f row).text) :
    ∀ row ∈ rows.modify id f, row.textHash = hashMemoryText platform row.text := by
  intro row hrow
  obtain ⟨i, hi⟩ := List.mem_iff_getElem?.1 hrow
  obtain ⟨-, old, hold, rfl⟩ | ⟨-, hold⟩ := getElem?_modify_cases hi
  · exact hf old (List.mem_of_getElem? hold)
  · exact h row (List.mem_of_getElem? hold)

theorem hash_append {new : KnowledgeMemory} (h : ∀ row ∈ rows, row.textHash = hashMemoryText platform row.text)
    (hnew : new.textHash = hashMemoryText platform new.text) :
    ∀ row ∈ rows ++ [new], row.textHash = hashMemoryText platform row.text := by
  intro row hrow
  obtain hold | hlast := List.mem_append.1 hrow
  · exact h row hold
  · exact List.mem_singleton.1 hlast ▸ hnew

theorem unique_commitInsert {save : Save} (h : UniqueHashes (rows ++ [insertedRow save])) :
    UniqueHashes (commitInsert save rows) := by
  unfold commitInsert
  split
  · exact h
  · next id _ =>
      unfold UniqueHashes at h ⊢
      rw [visibleHashes_append] at h ⊢
      exact h.sublist ((visibleHashes_hide rows id fun _ => rfl).append_right _)

theorem commitDedupe_cases {save : Save} {existing : ℕ} {rows' : List KnowledgeMemory}
    (h : commitDedupe save existing rows = some rows') :
    save.replacesId = none ∧ rows' = rows ∨ save.replacesId = some existing ∧ UniqueHashes rows' ∧
        rows' = rows.modify existing (fun row => { row with text := save.text, textHash := save.textHash }) ∨
      ∃ id, save.replacesId = some id ∧ id ≠ existing ∧ rows' = rows.modify id fun row => row.supersededBy existing := by
  unfold commitDedupe at h
  split at h
  · next hnone => exact Or.inl ⟨hnone, (Option.some.inj h).symm⟩
  · next id hreplaces =>
      dsimp only at h
      split_ifs at h with hid hunique
      · subst hid
        cases h
        exact Or.inr (Or.inl ⟨hreplaces, hunique, rfl⟩)
      · exact Or.inr (Or.inr ⟨id, hreplaces, hid, (Option.some.inj h).symm⟩)

theorem Hashed.step (hs : Hashed platform s.rows) (hsaves : ∀ save ∈ s.saves, SaveSound platform save)
    (h : RowEffect platform s e rows) : Hashed platform rows := by
  cases h with
  | same h => exact h ▸ hs
  | create text status _ hunique h =>
    refine ⟨?_, hunique⟩
    rw [h]
    exact hash_append hs.hash rfl
  | archive id _ h =>
    rw [h]
    exact ⟨hash_modify hs.hash fun row hrow => hs.hash row hrow,
      hs.unique.sublist (visibleHashes_hide s.rows id fun _ => rfl)⟩
  | insert index save visibleCount _ hsave _ hunique h =>
    have hsound := hsaves save (List.mem_of_getElem? hsave)
    rw [h]
    refine ⟨?_, unique_commitInsert hunique⟩
    unfold commitInsert
    split
    · exact hash_append hs.hash hsound.hash
    · exact hash_append (hash_modify hs.hash fun row hrow => hs.hash row hrow) hsound.hash
  | dedupe index save existing reason _ hsave _ h =>
    have hsound := hsaves save (List.mem_of_getElem? hsave)
    obtain ⟨-, rfl⟩ | ⟨-, hunique, rfl⟩ | ⟨id, -, -, rfl⟩ := commitDedupe_cases h
    · exact hs
    · exact ⟨hash_modify hs.hash fun _ _ => hsound.hash, hunique⟩
    · exact ⟨hash_modify hs.hash fun row hrow => hs.hash row hrow,
        hs.unique.sublist (visibleHashes_hide s.rows id fun _ => rfl)⟩
  | update index update visibleCount _ _ _ hunique h =>
    refine ⟨?_, hunique⟩
    rw [h]
    refine hash_modify hs.hash ?_
    intro row hrow
    unfold updatedRow
    cases update.textUpdate with
    | none => exact hs.hash row hrow
    | some text => rfl

end

/-! ## The texts -/

def Gated : Event → Prop
  | .create _ status => status.visible = false
  | _ => True

instance (e : Event) : Decidable (Gated e) := by
  unfold Gated
  split <;> infer_instance

def VisibleClean (rows : List KnowledgeMemory) : Prop := ∀ row ∈ rows, row.visible = true → Clean row.text

def UpdateKept (rows : List KnowledgeMemory) (update : Update) : Prop :=
  update.textUpdate = none → update.existing.visible = true → CleanAt rows update.memoryId

section

variable {platform : Platform} {s t : WorkspaceMemory} {e : Event} {rows : List KnowledgeMemory}

variable {id i : ℕ} {f : KnowledgeMemory → KnowledgeMemory}

theorem cleanAt_modify (hf : ∀ row, Clean row.text → Clean (f row).text) (h : CleanAt rows i) :
    CleanAt (rows.modify id f) i := by
  obtain ⟨row, hrow, hclean⟩ := h
  by_cases hi : i = id
  · subst hi
    exact ⟨f row, getElem?_modify_same hrow, hf row hclean⟩
  · refine ⟨row, ?_, hclean⟩
    rw [List.getElem?_modify_ne _ _ (Ne.symm hi)]
    exact hrow

theorem cleanAt_append (new : KnowledgeMemory) (h : CleanAt rows i) : CleanAt (rows ++ [new]) i := by
  obtain ⟨row, hrow, hclean⟩ := h
  refine ⟨row, ?_, hclean⟩
  rw [List.getElem?_append_left (List.getElem?_eq_some_iff.1 hrow).1]
  exact hrow

theorem clean_updatedRow {update : Update} (hupdate : UpdateSound update) {row : KnowledgeMemory}
    (h : Clean row.text) : Clean (updatedRow platform update row).text := by
  unfold updatedRow
  cases htext : update.textUpdate with
  | none => exact h
  | some text => exact hupdate.clean text htext

theorem CleanAt.step (h : CleanAt s.rows i) (hsaves : ∀ save ∈ s.saves, SaveSound platform save)
    (hupdates : ∀ update ∈ s.updates, UpdateSound update) (heffect : RowEffect platform s e rows) :
    CleanAt rows i := by
  cases heffect with
  | same heq => exact heq ▸ h
  | create text status _ _ heq => exact heq ▸ cleanAt_append _ h
  | archive id _ heq =>
    rw [heq]
    exact cleanAt_modify (fun _ hclean => hclean) h
  | insert index save _ _ _ _ _ heq =>
    rw [heq]
    unfold commitInsert
    split
    · exact cleanAt_append _ h
    · exact cleanAt_append _ (cleanAt_modify (fun _ hclean => hclean) h)
  | dedupe index save existing reason _ hsave _ heq =>
    have hsound := hsaves save (List.mem_of_getElem? hsave)
    obtain ⟨-, rfl⟩ | ⟨-, -, rfl⟩ | ⟨id, -, -, rfl⟩ := commitDedupe_cases heq
    · exact h
    · exact cleanAt_modify (fun _ _ => hsound.clean) h
    · exact cleanAt_modify (fun _ hclean => hclean) h
  | update index update _ _ hupdate _ _ heq =>
    rw [heq]
    exact cleanAt_modify (fun _ hclean => clean_updatedRow (hupdates update (List.mem_of_getElem? hupdate)) hclean) h

theorem clean_modify (h : VisibleClean rows)
    (hf : ∀ row, rows[id]? = some row → (f row).visible = true → Clean (f row).text) :
    VisibleClean (rows.modify id f) := by
  intro row hrow hvisible
  obtain ⟨i, hi⟩ := List.mem_iff_getElem?.1 hrow
  obtain ⟨-, old, hold, rfl⟩ | ⟨-, hold⟩ := getElem?_modify_cases hi
  · exact hf old hold hvisible
  · exact h row (List.mem_of_getElem? hold) hvisible

theorem clean_append {new : KnowledgeMemory} (h : VisibleClean rows) (hnew : new.visible = true → Clean new.text) :
    VisibleClean (rows ++ [new]) := by
  intro row hrow hvisible
  obtain hold | hlast := List.mem_append.1 hrow
  · exact h row hold hvisible
  · obtain rfl := List.mem_singleton.1 hlast
    exact hnew hvisible

theorem clean_update {update : Update} {visibleCount : Option ℕ} (h : VisibleClean rows)
    (hsound : UpdateSound update) (hkept : UpdateKept rows update) (hstage : update.stage = .updating visibleCount)
    {row : KnowledgeMemory} (hrow : rows[update.memoryId]? = some row)
    (hvisible : (updatedRow platform update row).visible = true) : Clean (updatedRow platform update row).text := by
  unfold updatedRow at hvisible ⊢
  cases htext : update.textUpdate with
  | some text => exact hsound.clean text htext
  | none =>
    rw [htext] at hvisible
    have hstatus : (update.status.getD row.status).visible = true := hvisible
    cases visibleCount with
    | some visibleCount =>
      obtain ⟨-, hown | hexisting⟩ := hsound.updating visibleCount hstage
      · exact absurd htext hown
      · obtain ⟨row', hrow', hclean⟩ := hkept htext hexisting
        cases hrow'.symm.trans hrow
        exact hclean
    | none =>
      have hhidden := hsound.hidden hstage
      cases hgiven : update.status with
      | none =>
        -- the update leaves the status, so the row was visible before
        rw [hgiven] at hstatus
        exact h row (List.mem_of_getElem? hrow) hstatus
      | some status =>
        rw [hgiven] at hstatus hhidden
        rw [Option.getD_some] at hstatus hhidden
        rw [hhidden] at hstatus
        contradiction

theorem VisibleClean.step (h : VisibleClean s.rows) (hsaves : ∀ save ∈ s.saves, SaveSound platform save)
    (hupdates : ∀ update ∈ s.updates, UpdateSound update) (hkept : ∀ update ∈ s.updates, UpdateKept s.rows update)
    (hgated : Gated e) (heffect : RowEffect platform s e rows) : VisibleClean rows := by
  cases heffect with
  | same heq => exact heq ▸ h
  | create text status he _ heq =>
    rw [heq]
    refine clean_append h fun hvisible => ?_
    rw [he] at hgated
    exact absurd (hvisible.symm.trans hgated) (by simp)
  | archive id _ heq =>
    rw [heq]
    refine clean_modify h ?_
    intro row _ hvisible
    contradiction
  | insert index save _ _ hsave _ _ heq =>
    have hsound := hsaves save (List.mem_of_getElem? hsave)
    rw [heq]
    unfold commitInsert
    split
    · exact clean_append h fun _ => hsound.clean
    · refine clean_append (clean_modify h ?_) fun _ => hsound.clean
      intro row _ hvisible
      contradiction
  | dedupe index save existing reason _ hsave _ heq =>
    have hsound := hsaves save (List.mem_of_getElem? hsave)
    obtain ⟨-, rfl⟩ | ⟨-, -, rfl⟩ | ⟨id, -, -, rfl⟩ := commitDedupe_cases heq
    · exact h
    · exact clean_modify h fun _ _ _ => hsound.clean
    · refine clean_modify h ?_
      intro row _ hvisible
      contradiction
  | update index update visibleCount _ hupdate hstage _ heq =>
    have hmem := List.mem_of_getElem? hupdate
    rw [heq]
    exact clean_modify h fun row hrow hvisible =>
      clean_update h (hupdates update hmem) (hkept update hmem) hstage hrow hvisible

theorem kept_step (h : VisibleClean s.rows) (hkept : ∀ update ∈ s.updates, UpdateKept s.rows update)
    (hstay : ∀ i, CleanAt s.rows i → CleanAt t.rows i) (heffect : UpdateEffect s t) :
    ∀ update ∈ t.updates, UpdateKept t.rows update := by
  have hold : ∀ update ∈ s.updates, UpdateKept t.rows update := by
    intro update hmem htext hexisting
    exact hstay _ (hkept update hmem htext hexisting)
  intro update hmem
  cases heffect with
  | same heq => exact hold update (heq ▸ hmem)
  | read new _ hread heq =>
    rw [heq] at hmem
    obtain hmem | hlast := List.mem_append.1 hmem
    · exact hold update hmem
    · obtain rfl := List.mem_singleton.1 hlast
      intro _ hexisting
      exact hstay _ ⟨update.existing, hread, h _ (List.mem_of_getElem? hread) hexisting⟩
  | move index before after hupdate _ hid hexisting htext heq =>
    rw [heq] at hmem
    obtain hmem | rfl := List.mem_or_eq_of_mem_set hmem
    · exact hold update hmem
    · intro hnone hvisible
      rw [hid]
      rw [hexisting] at hvisible
      exact hold before (List.mem_of_getElem? hupdate) (htext hnone) hvisible

end

end WorkspaceMemory

end OpenGeni.Memory
