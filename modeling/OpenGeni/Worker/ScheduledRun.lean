/-
A scheduled fire is one run in the right session.

The invariant says that the rows are sound, that no two fires work on one run, and that a task in
reusable mode has one session or one fire that may create it. The steps that a disturbance makes
possible are at the end: each is followed by steps that break what is to hold.
-/
import OpenGeni.Worker.ScheduledTraces

namespace OpenGeni.Worker.Schedule

open OpenGeni.Lib
open OpenGeni.Db (SessionStatus SessionTurnStatus)

variable {sessions sessions' : List SessionRow} {row row' : SessionRow} {turn turn' : SessionTurn}
  {own : Option ℕ} {runId sessionId : ℕ} {rows rows' : Rows} {fire : Fire} {stage : Stage}
  {f : SessionRow → SessionRow}

/-! ## How many sessions there are -/

theorem Fire.transact_runMode (h : fire.transact rows = some (rows', stage)) : rows'.task.runMode = rows.task.runMode := by
  obtain ⟨task, stage₀⟩ := fire
  cases stage₀ with
  | choosing runId =>
    simp only [Fire.transact] at h
    split at h
    · split at h
      · contradiction
      split at h
      · rw [(Prod.mk.inj (Option.some.inj h)).1]
      · contradiction
    · rw [← (Prod.mk.inj (Option.some.inj h)).1]
  | appending runId sessionId | enqueuing runId sessionId event =>
    simp only [Fire.transact] at h
    split at h
    · contradiction
    · rw [← (Prod.mk.inj (Option.some.inj h)).1]
      rfl
  | appendingLocked runId sessionId =>
    simp only [Fire.transact] at h
    split at h
    · contradiction
    split at h
    · contradiction
    · rw [← (Prod.mk.inj (Option.some.inj h)).1]
      rfl
  | ended => contradiction
  | _ =>
    cases h
    rfl

/-- The number of sessions stays, or a fire that may create one has done so. -/
def Counted (rows : Rows) (fire : Fire) (rows' : Rows) (stage : Stage) : Prop :=
  rows'.sessions.length = rows.sessions.length ∧ (Fire.mayCreate { fire with stage } → fire.mayCreate) ∨
    rows'.sessions.length = rows.sessions.length + 1 ∧ (fire.task.runMode = .reusableSession → fire.mayCreate) ∧
      ¬ Fire.mayCreate { fire with stage }

theorem Fire.transact_counted (h : fire.transact rows = some (rows', stage)) : Counted rows fire rows' stage := by
  obtain ⟨task, stage₀⟩ := fire
  cases stage₀ with
  | creatingRun | recordingFired runId =>
    rw [← (Prod.mk.inj (Option.some.inj h)).1, ← (Prod.mk.inj (Option.some.inj h)).2]
    exact .inl ⟨rfl, fun hmay => ⟨hmay.1, trivial⟩⟩
  | choosing runId =>
    simp only [Fire.transact] at h
    split at h
    · split at h
      · contradiction
      split at h
      · rw [(Prod.mk.inj (Option.some.inj h)).1]
        exact .inl ⟨rfl, fun hmay => ⟨hmay.1, trivial⟩⟩
      · contradiction
    · rename_i hnot
      cases h
      refine .inr ⟨List.length_append, ?_, ?_⟩
      · intro hmode
        refine ⟨?_, trivial⟩
        cases hreusable : task.reusableSessionId with
        | none => rfl
        | some sessionId => exact absurd hreusable (hnot sessionId hmode)
      · split <;> exact fun hmay => hmay.2
  | appending runId sessionId | enqueuing runId sessionId event =>
    simp only [Fire.transact] at h
    split at h
    · contradiction
    · cases h
      exact .inl ⟨List.length_modify _ _ _, fun hmay => absurd hmay.2 id⟩
  | appendingLocked runId sessionId =>
    simp only [Fire.transact] at h
    split at h
    · contradiction
    split at h
    · contradiction
    · cases h
      exact .inl ⟨List.length_modify _ _ _, fun hmay => absurd hmay.2 id⟩
  | settingWorkflowId runId sessionId =>
    cases h
    refine .inl ⟨List.length_modify _ _ _, ?_⟩
    split <;> exact fun hmay => absurd hmay.2 id
  | creatingGoal runId sessionId | upsertingGoal runId sessionId | announcing runId sessionId event turn =>
    cases h
    exact .inl ⟨List.length_modify _ _ _, fun hmay => absurd hmay.2 id⟩
  | ended => contradiction
  | _ =>
    cases h
    exact .inl ⟨rfl, fun hmay => absurd hmay.2 id⟩

theorem Stage.catch_silent (stage : Stage) : stage.catch.trace = none ∧ stage.catch.session = none ∧
    (∀ runId ∈ stage.catch.run, stage.run = some runId) ∧ ∀ task, ¬ Fire.mayCreate ⟨task, stage.catch⟩ := by
  cases stage with
  | creatingRun | recordingFired runId | recordingCreated runId | markingFailed runId | ended =>
    exact ⟨rfl, rfl, fun _ h => absurd h (Option.not_mem_none _), fun _ hmay => hmay.2⟩
  | _ => exact ⟨rfl, rfl, fun _ h => h, fun _ hmay => hmay.2⟩

theorem Counted.catch (h : Counted rows fire rows' stage) : Counted rows fire rows' fire.stage.catch := by
  have hnot := (Stage.catch_silent fire.stage).2.2.2 fire.task
  rcases h with ⟨hsame, -⟩ | ⟨hmore, hmay, -⟩
  · exact .inl ⟨hsame, fun h => absurd h hnot⟩
  · exact .inr ⟨hmore, hmay, hnot⟩

/-! ## The invariant -/

structure ScheduleState.Sound (s : ScheduleState) : Prop where
  unique : s.fires.Unique
  rows : s.toRows.Sound
  fires : ∀ e ∈ s.fires, e.2.Sound s.toRows
  known : ∀ e ∈ s.fires, ∀ runId ∈ e.2.stage.run, runId < s.runs.length
  apart : ∀ e ∈ s.fires, ∀ e' ∈ s.fires, e.1 ≠ e'.1 → ∀ runId ∈ e.2.stage.run, e'.2.stage.run ≠ some runId
  mode : s.stays = true → s.task.runMode = .reusableSession ∧ ∀ e ∈ s.fires, e.2.task.runMode = .reusableSession
  /-- There is at most one session, or one fire that may create it. -/
  oneSession : s.stays = true → s.sessions.length ≤ 1 ∧ (∀ e ∈ s.fires, e.2.mayCreate → s.sessions.length = 0) ∧
    ∀ e ∈ s.fires, ∀ e' ∈ s.fires, e.2.mayCreate → e'.2.mayCreate → e.1 = e'.1

variable {s t : ScheduleState} {i : ℕ}

theorem ScheduleState.Sound.advance (hs : s.Sound) (hget : s.fires.get i = some fire) (hrows : rows.Sound)
    (hkeeps : s.toRows.Keeps fire.stage.run rows) (hfire : Fire.Sound rows { fire with stage })
    (hrun : ∀ runId ∈ stage.run, runId < rows.runs.length ∧ (fire.stage.run = some runId ∨ s.runs.length ≤ runId))
    (hmode : rows.task.runMode = s.task.runMode) (hcounted : Counted s.toRows fire rows stage) :
    ((s.withRows rows).setStage i fire stage).Sound := by
  have hmem : (i, fire) ∈ s.fires := Slots.mem_of_get hget
  refine ⟨hs.unique.put, hrows, ?_, ?_, ?_, ?_, ?_⟩
  · intro e he
    rcases Slots.mem_put_cases he with rfl | ⟨hne, hold⟩
    · exact hfire
    · exact (hs.fires e hold).keeps hkeeps (fun runId h => hs.apart e hold (i, fire) hmem hne runId h)
  · intro e he runId h
    rcases Slots.mem_put_cases he with rfl | ⟨-, hold⟩
    · exact (hrun runId h).1
    · exact Nat.lt_of_lt_of_le (hs.known e hold runId h) hkeeps.length
  · intro e he e' he' hne runId h h'
    rcases Slots.mem_put_cases he with rfl | ⟨hne₁, hold⟩
    · rcases Slots.mem_put_cases he' with rfl | ⟨hne₂, hold'⟩
      · exact hne rfl
      rcases (hrun runId h).2 with hsame | hnew
      · exact hs.apart (i, fire) hmem e' hold' hne runId hsame h'
      · exact absurd (hs.known e' hold' runId h') (Nat.not_lt_of_le hnew)
    · rcases Slots.mem_put_cases he' with rfl | ⟨-, hold'⟩
      · rcases (hrun runId h').2 with hsame | hnew
        · exact hs.apart e hold (i, fire) hmem hne₁ runId h hsame
        · exact absurd (hs.known e hold runId h) (Nat.not_lt_of_le hnew)
      · exact hs.apart e hold e' hold' hne runId h h'
  · intro hstays
    obtain ⟨htask, hfires⟩ := hs.mode hstays
    refine ⟨hmode.trans htask, ?_⟩
    exact Slots.forall_put (P := fun fire : Fire => fire.task.runMode = .reusableSession) hfires (hfires (i, fire) hmem)
  · intro hstays
    obtain ⟨hle, hnone, hone⟩ := hs.oneSession hstays
    rcases hcounted with ⟨hsame, hmay⟩ | ⟨hmore, hmay, hnot⟩
    · -- the fire may create a session only if it could before
      have hbefore : ∀ e ∈ s.fires.put i { fire with stage }, e.2.mayCreate → ∃ e₀ ∈ s.fires, e₀.1 = e.1 ∧ e₀.2.mayCreate := by
        intro e he h
        rcases Slots.mem_put_cases he with rfl | ⟨-, hold⟩
        · exact ⟨(i, fire), hmem, rfl, hmay h⟩
        · exact ⟨e, hold, rfl, h⟩
      refine ⟨hsame.trans_le hle, ?_, ?_⟩
      · intro e he h
        obtain ⟨e₀, he₀, -, h₀⟩ := hbefore e he h
        exact hsame.trans (hnone e₀ he₀ h₀)
      · intro e he e' he' h h'
        obtain ⟨e₀, he₀, hkey, h₀⟩ := hbefore e he h
        obtain ⟨e₁, he₁, hkey', h₁⟩ := hbefore e' he' h'
        rw [← hkey, ← hkey']
        exact hone e₀ he₀ e₁ he₁ h₀ h₁
    · -- it was the one that might, so none may any more
      have hcreates : fire.mayCreate := hmay ((hs.mode hstays).2 (i, fire) hmem)
      have hno : ∀ e ∈ s.fires.put i { fire with stage }, ¬ e.2.mayCreate := by
        intro e he h
        rcases Slots.mem_put_cases he with rfl | ⟨hne, hold⟩
        · exact hnot h
        · exact hne (hone e hold (i, fire) hmem h hcreates)
      refine ⟨?_, fun e he h => absurd h (hno e he), fun e he _ _ h => absurd h (hno e he)⟩
      change rows.sessions.length ≤ 1
      rw [hmore, hnone (i, fire) hmem hcreates]

theorem ScheduleState.Sound.elsewhere (hs : s.Sound)
    (hgrows : ∀ row, s.sessions[sessionId]? = some row → row.Grows none (f row))
    (hsound : ∀ row, s.sessions[sessionId]? = some row → row.Sound → (f row).Sound)
    (halive : ∀ row, s.sessions[sessionId]? = some row → row.status ≠ .cancelled → (f row).status ≠ .cancelled ∨
      ∀ e ∈ s.fires, e.2.stage.aims ≠ some sessionId) : (s.withRows (s.updateSession sessionId f)).Sound := by
  have hall : Grows none s.sessions (s.sessions.modify sessionId f) := grows_modify hgrows
  refine ⟨hs.unique, ?_, ?_, hs.known, hs.apart, hs.mode, ?_⟩
  · refine hs.rows.grows hall rfl ?_ (fun _ h => absurd h (Option.not_mem_none _))
    exact forall_mem_modify hs.rows.sessions fun row hrow => hsound row hrow (hs.rows.sessions row (List.mem_of_getElem? hrow))
  · intro e he
    refine (hs.fires e he).grows hall (fun _ _ _ h => h) (fun _ _ h => absurd h.symm (Option.some_ne_none _)) ?_
    intro j hj row row' hrow hrow' hstatus
    change (s.sessions.modify sessionId f)[j]? = some row' at hrow'
    by_cases heq : sessionId = j
    · subst heq
      rw [List.getElem?_modify_eq, hrow] at hrow'
      rw [← Option.some.inj hrow']
      rcases halive row hrow hstatus with hkept | hnone
      · exact hkept
      · exact absurd hj (hnone e he)
    · rw [List.getElem?_modify_ne _ _ heq, hrow] at hrow'
      rw [← Option.some.inj hrow']
      exact hstatus
  · intro hstays
    obtain ⟨hle, hnone, hone⟩ := hs.oneSession hstays
    have hlength : (s.sessions.modify sessionId f).length = s.sessions.length := List.length_modify _ _ _
    exact ⟨hlength.trans_le hle, fun e he h => hlength.trans (hnone e he h), hone⟩

theorem SessionRow.cancel_grows : row.Grows own row.cancel := by
  unfold cancel
  split
  · exact .refl
  · exact .of_eq rfl rfl rfl

theorem SessionRow.Sound.cancel (h : row.Sound) : row.cancel.Sound := by
  unfold SessionRow.cancel
  split
  · exact h
  refine ⟨h.triggered, ⟨fun _ => rfl, fun _ => rfl⟩, ?_⟩
  intro n hn k hk turn hturn
  -- there is no turn from the mark on
  cases hn
  rw [List.getElem?_eq_none hk] at hturn
  contradiction

theorem SessionTurn.moves_status {status : SessionTurnStatus} :
    turn.Moves (if SessionTurnStatus.mayBecome turn.status status then { turn with status } else turn) := by
  split
  · rename_i hmay
    refine ⟨rfl, rfl, ?_⟩
    rintro (hcompleted | hfailed)
    · rw [hcompleted] at hmay
      exact .inl (of_decide_eq_true hmay)
    · rw [hfailed] at hmay
      exact .inr (of_decide_eq_true hmay)
  · exact .refl

variable {g : SessionTurn → SessionTurn} {n : ℕ} {e : ScheduleEvent}

theorem SessionRow.turns_modify {k : ℕ} (hg : ∀ turn : SessionTurn, turn.Moves (g turn))
    (h : (row.turns.modify n g)[k]? = some turn') :
    ∃ turn, row.turns[k]? = some turn ∧ turn.Moves turn' := by
  by_cases heq : n = k
  · subst heq
    rw [List.getElem?_modify_eq] at h
    obtain ⟨turn, hturn, rfl⟩ := Option.map_eq_some_iff.1 h
    exact ⟨turn, hturn, hg turn⟩
  · rw [List.getElem?_modify_ne _ _ heq] at h
    exact ⟨turn', h, .refl⟩

theorem SessionRow.grows_moveTurn (hg : ∀ turn : SessionTurn, turn.Moves (g turn)) :
    row.Grows own { row with turns := row.turns.modify n g } := by
  refine ⟨rfl, List.prefix_rfl, ?_, ?_, ?_⟩
  · intro event hle runId hevent
    change row.events[event]? = _ at hevent
    rw [List.getElem?_eq_none hle] at hevent
    contradiction
  · intro k turn hturn
    change ∃ turn', (row.turns.modify n g)[k]? = some turn' ∧ _
    by_cases heq : n = k
    · subst heq
      rw [List.getElem?_modify_eq, hturn]
      exact ⟨g turn, rfl, hg turn⟩
    · rw [List.getElem?_modify_ne _ _ heq]
      exact ⟨turn, hturn, .refl⟩
  · intro k hle turn' hturn'
    obtain ⟨turn, hturn, -⟩ := turns_modify hg hturn'
    rw [List.getElem?_eq_none hle] at hturn
    contradiction

theorem SessionRow.Sound.moveTurn (h : row.Sound) (hg : ∀ turn : SessionTurn, turn.Moves (g turn)) :
    SessionRow.Sound { row with turns := row.turns.modify n g } := by
  refine ⟨?_, h.cancelled, ?_⟩
  · intro turn' hturn'
    obtain ⟨k, hk⟩ := List.mem_iff_getElem?.1 hturn'
    obtain ⟨turn, hturn, hmoves⟩ := turns_modify hg hk
    rw [hmoves.trigger, hmoves.run]
    exact h.triggered turn (List.mem_of_getElem? hturn)
  · intro m hm k hk turn' hturn'
    obtain ⟨turn, hturn, hmoves⟩ := turns_modify hg hturn'
    rw [hmoves.run]
    exact h.revived m hm k hk turn hturn

theorem ScheduleState.Sound.writeTask (hs : s.Sound) (input : UpdateScheduledTaskInput) : (s.writeTask input).Sound := by
  refine ⟨hs.unique, ⟨hs.rows.sessions, hs.rows.fresh, hs.rows.dispatched, hs.rows.failed, hs.rows.variableSet⟩, ?_, hs.known,
    hs.apart, ?_, ?_⟩
  · exact fun e he => ⟨(hs.fires e he).traces, (hs.fires e he).session, (hs.fires e he).aims⟩
  · intro hstays
    obtain ⟨hbefore, hmode⟩ := Bool.and_eq_true_iff.1 hstays
    exact ⟨beq_iff_eq.1 hmode, (hs.mode hbefore).2⟩
  · intro hstays
    exact hs.oneSession (Bool.and_eq_true_iff.1 hstays).1

theorem ScheduleState.Sound.fails (hs : s.Sound) (hget : s.fires.get i = some fire) (htrace : stage.trace = none)
    (hsession : stage.session = none) (hrun : ∀ runId ∈ stage.run, fire.stage.run = some runId)
    (hmay : ¬ Fire.mayCreate { fire with stage }) : (s.setStage i fire stage).Sound := by
  have hmem : (i, fire) ∈ s.fires := Slots.mem_of_get hget
  refine hs.advance hget hs.rows (.of_eq rfl rfl) (Fire.sound_of_silent htrace hsession) ?_ rfl ?_
  · intro runId h
    exact ⟨hs.known (i, fire) hmem runId (hrun runId h), .inl (hrun runId h)⟩
  · exact .inl ⟨rfl, fun h => absurd h hmay⟩

theorem ScheduleState.Sound.catches (hs : s.Sound) (hget : s.fires.get i = some fire) :
    (s.setStage i fire fire.stage.catch).Sound := by
  obtain ⟨htrace, hsession, hrun, hmay⟩ := Stage.catch_silent fire.stage
  exact hs.fails hget htrace hsession hrun (hmay fire.task)

theorem ScheduleState.Sound.begins (hs : s.Sound) (hok : s.Undisturbed (.fire i)) :
    ScheduleState.Sound { s with fires := s.fires.put i { task := s.task, stage := .creatingRun } } := by
  refine ⟨hs.unique.put, hs.rows, ?_, ?_, ?_, ?_, ?_⟩
  · exact Slots.forall_put (P := fun fire : Fire => fire.Sound s.toRows) hs.fires (Fire.sound_of_silent rfl rfl)
  · intro e he runId h
    rcases Slots.mem_put_cases he with rfl | ⟨-, hold⟩
    · exact absurd h (Option.not_mem_none _)
    · exact hs.known e hold runId h
  · intro e he e' he' hne runId h h'
    rcases Slots.mem_put_cases he with rfl | ⟨-, hold⟩
    · exact absurd h (Option.not_mem_none _)
    rcases Slots.mem_put_cases he' with rfl | ⟨-, hold'⟩
    · contradiction
    · exact hs.apart e hold e' hold' hne runId h h'
  · intro hstays
    obtain ⟨htask, hfires⟩ := hs.mode hstays
    exact ⟨htask, Slots.forall_put (P := fun fire : Fire => fire.task.runMode = .reusableSession) hfires htask⟩
  · intro hstays
    obtain ⟨hle, hzero, hone⟩ := hs.oneSession hstays
    by_cases hreusable : s.task.reusableSessionId = none
    · -- it may create a session, and it is the only one
      obtain ⟨hempty, hno⟩ := hok hstays hreusable
      refine ⟨hle, fun _ _ _ => List.length_eq_zero_iff.2 hempty, ?_⟩
      intro e he e' he' h h'
      rcases Slots.mem_put_cases he with rfl | ⟨-, hold⟩
      · rcases Slots.mem_put_cases he' with rfl | ⟨-, hold'⟩
        · rfl
        · exact absurd h' (hno e' hold')
      · exact absurd h (hno e hold)
    · have hbefore : ∀ e ∈ s.fires.put i { task := s.task, stage := .creatingRun }, e.2.mayCreate → e ∈ s.fires := by
        intro e he h
        rcases Slots.mem_put_cases he with rfl | ⟨-, hold⟩
        · exact absurd h.1 hreusable
        · exact hold
      refine ⟨hle, fun e he h => hzero e (hbefore e he h) h, ?_⟩
      exact fun e he e' he' h h' => hone e (hbefore e he h) e' (hbefore e' he' h') h h'

/-- **What a step keeps.** -/
theorem ScheduleState.Sound.next (hs : s.Sound) (h : Step s e t) (hok : s.Undisturbed e) : t.Sound := by
  unfold Step at h
  cases e with
  | fire i =>
    simp only [ScheduleState.step] at h
    split at h
    · contradiction
    · rw [← Option.some.inj h]
      exact hs.begins hok
  | transact i =>
    obtain ⟨fire, hget, h⟩ := Option.bind_eq_some_iff.1 h
    have hmem : (i, fire) ∈ s.fires := Slots.mem_of_get hget
    split at h
    · rename_i rows stage htransact
      rw [← Option.some.inj h]
      have hdone := Fire.transacted hs.rows (hs.fires _ hmem) (hs.known _ hmem) (hok fire hget) htransact
      exact hs.advance hget hdone.sound hdone.keeps hdone.fireSound hdone.run (Fire.transact_runMode htransact)
        (Fire.transact_counted htransact)
    · split at h
      · contradiction
      · rw [← Option.some.inj h]
        exact hs.catches hget
  | throw i =>
    obtain ⟨fire, hget, h⟩ := Option.bind_eq_some_iff.1 h
    split at h
    · contradiction
    · rw [← Option.some.inj h]
      exact hs.catches hget
  | lose i =>
    obtain ⟨fire, hget, h⟩ := Option.bind_eq_some_iff.1 h
    obtain ⟨⟨rows, stage⟩, htransact, h⟩ := Option.bind_eq_some_iff.1 h
    have hmem : (i, fire) ∈ s.fires := Slots.mem_of_get hget
    rw [← Option.some.inj h]
    have hdone := Fire.transacted hs.rows (hs.fires _ hmem) (hs.known _ hmem) (hok fire hget) htransact
    obtain ⟨htrace, hsession, hrun, -⟩ := Stage.catch_silent fire.stage
    refine hs.advance hget hdone.sound hdone.keeps (Fire.sound_of_silent htrace hsession) ?_
      (Fire.transact_runMode htransact) (Fire.transact_counted htransact).catch
    intro runId hcatch
    have hbefore := hrun runId hcatch
    exact ⟨Nat.lt_of_lt_of_le (hs.known _ hmem runId hbefore) hdone.keeps.length, .inl hbefore⟩
  | stop i =>
    obtain ⟨fire, hget, h⟩ := Option.bind_eq_some_iff.1 h
    rw [← Option.some.inj h]
    exact hs.fails hget rfl rfl (fun _ h => absurd h (Option.not_mem_none _)) (fun hmay => hmay.2)
  | validateUpdate payload =>
    simp only [ScheduleState.step] at h
    split at h
    · rw [← Option.some.inj h]
      exact hs
    · rw [← Option.some.inj h]
      exact ⟨hs.unique, hs.rows, hs.fires, hs.known, hs.apart, hs.mode, hs.oneSession⟩
  | update index =>
    obtain ⟨update, -, rfl⟩ := Option.map_eq_some_iff.1 h
    exact hs.writeTask update.input
  | restore index =>
    obtain ⟨update, -, rfl⟩ := Option.map_eq_some_iff.1 h
    exact hs.writeTask update.existing.restoring
  | cancelSession sessionId =>
    rw [← Option.some.inj h]
    refine hs.elsewhere (fun _ _ => SessionRow.cancel_grows) (fun _ _ hrow => hrow.cancel) ?_
    exact fun row hrow hstatus => .inr (hok row hrow hstatus)
  | setSessionStatus sessionId status =>
    rw [← Option.some.inj h]
    refine hs.elsewhere ?_ ?_ ?_
    · intro row _
      split
      · exact .refl
      · exact .of_eq rfl rfl rfl
    · intro row _ hrow
      split
      · exact hrow
      · rename_i hneither
        rw [not_or] at hneither
        refine ⟨hrow.triggered, ?_, hrow.revived⟩
        have hnone := hrow.cancelled.not.1 hneither.1
        exact ⟨fun heq => absurd heq hneither.2, fun hsome => absurd hsome hnone⟩
    · intro row _ hstatus
      left
      split
      · exact hstatus
      · rename_i hneither
        exact fun heq => hneither (.inr heq)
  | moveTurn sessionId turn status =>
    rw [← Option.some.inj h]
    refine hs.elsewhere ?_ ?_ (fun _ _ hstatus => .inl hstatus)
    · exact fun row _ => SessionRow.grows_moveTurn fun _ => SessionTurn.moves_status
    · exact fun row _ hrow => hrow.moveTurn fun _ => SessionTurn.moves_status
  | otherMessage sessionId =>
    rw [← Option.some.inj h]
    refine hs.elsewhere ?_ ?_ (fun _ _ hstatus => .inl hstatus)
    · intro row _
      have hmessage : row.Grows none (row.append [.userMessage none]) := by
        apply SessionRow.grows_append
        intro runId hmem
        rw [List.mem_singleton] at hmem
        exact absurd (SessionEvent.userMessage.inj hmem) (Option.some_ne_none _)
      exact hmessage.trans (SessionRow.grows_enqueue fun _ h => absurd h (Option.not_mem_none _))
    · intro row _ hrow
      refine (hrow.append _).enqueue ?_ (.inr rfl)
      change (row.events ++ [_])[row.events.length]? = _
      rw [List.getElem?_append_right le_rfl, Nat.sub_self, List.getElem?_cons_zero]

/-! ## Runs -/

theorem ScheduleState.Sound.oneRun (hs : s.Sound) : OneRun s := by
  refine ⟨fun hstays => (hs.oneSession hstays).1, hs.rows.dispatched, ?_, ?_, hs.rows.variableSet⟩
  · intro runId run hrun hstatus row hrow turn hturn hof
    rcases hs.rows.failed runId run hrun hstatus row hrow turn hturn hof with hcompleted | hfailed
    · rw [hcompleted]
      decide
    · rw [hfailed]
      decide
  · intro row hrow n hn turn hturn
    obtain ⟨k, hk⟩ := List.mem_iff_getElem?.1 hturn
    rw [List.getElem?_drop] at hk
    exact (hs.rows.sessions row hrow).revived n hn (n + k) (Nat.le_add_right n k) turn hk

theorem ScheduleState.new_sound (runMode : ScheduledTaskRunMode) (variableSetId : Option ℕ) (goal : Option String) :
    (ScheduleState.new runMode variableSetId goal).Sound := by
  have hnone : ∀ (i : ℕ) (row : SessionRow), ([] : List SessionRow)[i]? ≠ some row := by
    intro i row h
    rw [List.getElem?_nil] at h
    contradiction
  refine ⟨.nil, ⟨?_, ?_, ?_, ?_, ?_⟩, ?_, ?_, ?_, ?_, ?_⟩
  · exact List.forall_mem_nil _
  · intro runId _
    refine ⟨fun i event => ⟨?_, fun h => absurd h.symm (Option.some_ne_none _)⟩, fun i n => ⟨?_, fun h => absurd h.symm (Option.some_ne_none _)⟩⟩
    · rintro ⟨row, hrow, -⟩
      exact absurd hrow (hnone i row)
    · rintro ⟨row, turn, hrow, -⟩
      exact absurd hrow (hnone i row)
  · intro runId run hrun
    contradiction
  · intro runId run hrun
    contradiction
  · intro runId run hrun
    contradiction
  · exact List.forall_mem_nil _
  · exact List.forall_mem_nil _
  · exact List.forall_mem_nil _
  · exact fun hstays => ⟨beq_iff_eq.1 hstays, List.forall_mem_nil _⟩
  · exact fun _ => ⟨Nat.zero_le 1, List.forall_mem_nil _, List.forall_mem_nil _⟩

/-! ## What the condition leaves out -/

theorem step_transact (hget : s.fires.get i = some fire) (h : fire.transact s.toRows = some (rows, stage)) :
    Step s (.transact i) ((s.withRows rows).setStage i fire stage) := by
  unfold Step
  simp only [ScheduleState.step, hget, Option.bind_eq_bind, Option.bind_some, h]

/-- A state further on, with one session more; the other fires are where they were. -/
def CreatesOne (s : ScheduleState) (i : ℕ) : Prop :=
  ∃ es u, Run Step s es u ∧ u.sessions.length = s.sessions.length + 1 ∧ u.stays = s.stays ∧
    ∀ j, j ≠ i → u.fires.get j = s.fires.get j

theorem CreatesOne.before (hstep : Step s e t) (hsessions : t.sessions.length = s.sessions.length)
    (hstays : t.stays = s.stays) (hothers : ∀ j, j ≠ i → t.fires.get j = s.fires.get j)
    (h : CreatesOne t i) :
    CreatesOne s i := by
  obtain ⟨es, u, hrun, hcount, hstays', hothers'⟩ := h
  refine ⟨e :: es, u, .cons hstep hrun, ?_, hstays'.trans hstays, ?_⟩
  · rw [hcount, hsessions]
  · exact fun j hne => (hothers' j hne).trans (hothers j hne)

/-- **A fire that may create a session can.** -/
theorem createsOne_of_mayCreate (hget : s.fires.get i = some fire) (hmay : fire.mayCreate) : CreatesOne s i := by
  obtain ⟨task, stage⟩ := fire
  have hchoosing : ∀ (s : ScheduleState) (runId : ℕ), s.fires.get i = some ⟨task, .choosing runId⟩ → CreatesOne s i := by
    intro s runId hget
    have hnone : task.reusableSessionId = none := hmay.1
    have htransact : ∃ stage, Fire.transact s.toRows ⟨task, .choosing runId⟩ =
        some ({ s.toRows with sessions := s.sessions ++ [task.session] }, stage) := by
      simp only [Fire.transact]
      rw [hnone]
      split
      · contradiction
      · exact ⟨_, rfl⟩
    obtain ⟨stage, htransact⟩ := htransact
    refine ⟨[.transact i], _, .single (step_transact hget htransact), List.length_append, rfl, ?_⟩
    exact fun j hne => Slots.get_put_of_ne hne
  have hrecording : ∀ (s : ScheduleState) (runId : ℕ), s.fires.get i = some ⟨task, .recordingFired runId⟩ →
      CreatesOne s i := by
    intro s runId hget
    refine CreatesOne.before (step_transact hget rfl) rfl rfl (fun j hne => Slots.get_put_of_ne hne) ?_
    exact hchoosing _ runId Slots.get_put
  cases stage with
  | choosing runId => exact hchoosing s runId hget
  | recordingFired runId => exact hrecording s runId hget
  | creatingRun =>
    refine CreatesOne.before (step_transact hget rfl) rfl rfl (fun j hne => Slots.get_put_of_ne hne) ?_
    exact hrecording _ _ Slots.get_put
  | _ => exact hmay.2.elim

def Breaks (s : ScheduleState) : Prop := ∃ es u, Run Step s es u ∧ ¬ OneRun u

theorem Breaks.before (hstep : Step s e t) (h : Breaks t) : Breaks s := by
  obtain ⟨es, u, hrun, hbroken⟩ := h
  exact ⟨e :: es, u, .cons hstep hrun, hbroken⟩

theorem fire_breaks (hs : s.Sound) (hstep : Step s (.fire i) t) (hnot : ¬ s.Undisturbed (.fire i)) : Breaks t := by
  unfold Step at hstep
  simp only [ScheduleState.step] at hstep
  split at hstep
  · contradiction
  rename_i hfree
  rw [← Option.some.inj hstep]
  unfold ScheduleState.Undisturbed at hnot
  push Not at hnot
  obtain ⟨hstays, hreusable, hthere⟩ := hnot
  set t' : ScheduleState := { s with fires := s.fires.put i { task := s.task, stage := .creatingRun } } with ht'
  obtain ⟨es, u, hrun, hcount, hstays', hothers⟩ := createsOne_of_mayCreate (s := t') Slots.get_put ⟨hreusable, trivial⟩
  by_cases hempty : s.sessions = []
  · obtain ⟨e, he, hmay⟩ := hthere hempty
    -- the other fire creates one as well
    have hkey : e.1 ≠ i := by
      rintro rfl
      rw [hs.unique.get_of_mem he] at hfree
      contradiction
    have hgetOther : u.fires.get e.1 = some e.2 := by
      rw [hothers e.1 hkey]
      exact (Slots.get_put_of_ne hkey).trans (hs.unique.get_of_mem he)
    obtain ⟨es', u', hrun', hcount', hstays'', -⟩ := createsOne_of_mayCreate hgetOther hmay
    refine ⟨es ++ es', u', hrun.append hrun', ?_⟩
    intro hone
    have hle := hone.oneSession (hstays''.trans (hstays'.trans hstays))
    rw [hcount', hcount] at hle
    omega
  · refine ⟨es, u, hrun, ?_⟩
    intro hone
    have hle := hone.oneSession (hstays'.trans hstays)
    have hpos : 0 < t'.sessions.length := List.length_pos_of_ne_nil hempty
    rw [hcount] at hle
    omega

theorem failed_breaks {run : ScheduledTaskRun} (hrun : s.runs[runId]? = some run)
    (hstatus : run.status = .failed) (hrow : s.sessions[sessionId]? = some row)
    (hturn : row.turns[n]? = some turn) (hof : turn.scheduledTaskRunId = some runId)
    (hsettled : ¬ turn.settled) : Breaks s := by
  have hmay : SessionTurnStatus.mayBecome turn.status .running = true := by
    cases hcase : turn.status with
    | completed => exact absurd (.inl hcase) hsettled
    | failed => exact absurd (.inr hcase) hsettled
    | _ => rfl
  refine ⟨[.moveTurn sessionId n .running], _, .single rfl, ?_⟩
  intro hone
  let moved : SessionRow := { row with
      turns := row.turns.modify n fun turn =>
        if SessionTurnStatus.mayBecome turn.status .running then { turn with status := .running } else turn }
  have hmoved : moved ∈ (s.sessions.modify sessionId fun row =>
      { row with
        turns := row.turns.modify n fun turn =>
          if SessionTurnStatus.mayBecome turn.status .running then { turn with status := .running } else turn }) := by
    apply List.mem_of_getElem? (i := sessionId)
    rw [List.getElem?_modify_eq, hrow]
    rfl
  have hrunning : { turn with status := .running } ∈ moved.turns := by
    apply List.mem_of_getElem? (i := n)
    change (row.turns.modify n _)[n]? = _
    rw [List.getElem?_modify_eq, hturn, Option.map_eq_map, Option.map_some, if_pos hmay]
  exact (hone.failed runId run hrun hstatus moved hmoved _ hrunning hof).2 rfl

theorem aimed_breaks (hget : s.fires.get i = some fire) (haims : fire.stage.aims = some sessionId)
    (hrow : s.sessions[sessionId]? = some row) (hcancel : row.turnsAtCancel = some n)
    (hle : n ≤ row.turns.length) :
    Breaks s := by
  obtain ⟨task, stage⟩ := fire
  -- the last step is the enqueue; the others leave the turns and the mark of the cancellation
  have henqueuing : ∀ (s : ScheduleState) (row : SessionRow) (runId event : ℕ),
      s.fires.get i = some ⟨task, .enqueuing runId sessionId event⟩ → s.sessions[sessionId]? = some row →
      row.turnsAtCancel = some n → n ≤ row.turns.length → Breaks s := by
    intro s row runId event hget hrow hcancel hle
    let turn : SessionTurn :=
      { triggerEventId := event, scheduledTaskRunId := some runId, status := .queued }
    have htransact : Fire.transact s.toRows ⟨task, .enqueuing runId sessionId event⟩ =
        some (s.updateSession sessionId (·.enqueue turn), .announcing runId sessionId event row.turns.length) := by
      simp only [Fire.transact, hrow, turn]
    refine ⟨[.transact i], _, .single (step_transact hget htransact), ?_⟩
    intro hone
    have hmem : row.enqueue turn ∈ s.sessions.modify sessionId (·.enqueue turn) := by
      apply List.mem_of_getElem? (i := sessionId)
      rw [List.getElem?_modify_eq, hrow]
      rfl
    have hturn : turn ∈ (row.enqueue turn).turns.drop n := by
      change turn ∈ (row.turns ++ [turn]).drop n
      rw [List.drop_append_of_le_length hle]
      exact List.mem_append_right _ (List.mem_singleton_self turn)
    have hnone := hone.revived (row.enqueue turn) hmem n hcancel turn hturn
    exact absurd hnone (Option.some_ne_none _)
  have happending : ∀ (s : ScheduleState) (row : SessionRow) (runId : ℕ),
      s.fires.get i = some ⟨task, .appending runId sessionId⟩ → s.sessions[sessionId]? = some row →
      row.turnsAtCancel = some n → n ≤ row.turns.length → Breaks s := by
    intro s row runId hget hrow hcancel hle
    let added := task.openingEvents runId ++ [.userMessage (some runId), .statusChanged .queued]
    have htransact : Fire.transact s.toRows ⟨task, .appending runId sessionId⟩ =
        some (s.updateSession sessionId (·.append added),
          .enqueuing runId sessionId (row.events.length + (task.openingEvents runId).length)) := by
      simp only [Fire.transact, hrow, added]
    refine Breaks.before (step_transact hget htransact) (henqueuing _ (row.append added) runId _ Slots.get_put ?_ hcancel hle)
    change (s.sessions.modify sessionId (·.append added))[sessionId]? = _
    rw [List.getElem?_modify_eq, hrow]
    rfl
  have hsetting : ∀ (s : ScheduleState) (row : SessionRow) (runId : ℕ),
      s.fires.get i = some ⟨task, .settingReusableSession runId sessionId⟩ → s.sessions[sessionId]? = some row →
      row.turnsAtCancel = some n → n ≤ row.turns.length → Breaks s := by
    intro s row runId hget hrow hcancel hle
    exact Breaks.before (step_transact hget rfl) (happending _ row runId Slots.get_put hrow hcancel hle)
  have hworkflow : ∀ (s : ScheduleState) (row : SessionRow) (runId : ℕ),
      s.fires.get i = some ⟨task, .settingWorkflowId runId sessionId⟩ → s.sessions[sessionId]? = some row →
      row.turnsAtCancel = some n → n ≤ row.turns.length → Breaks s := by
    intro s row runId hget hrow hcancel hle
    let row' : SessionRow := { row with temporalWorkflowId := some (workflowIdForSession sessionId) }
    have hrow' : (s.sessions.modify sessionId fun row =>
        { row with temporalWorkflowId := some (workflowIdForSession sessionId) })[sessionId]? = some row' := by
      rw [List.getElem?_modify_eq, hrow]
      rfl
    by_cases hmode : task.runMode = .reusableSession
    · refine Breaks.before (step_transact hget rfl) (hsetting _ row' runId ?_ hrow' hcancel hle)
      change Slots.get i (Slots.put i _ s.fires) = _
      rw [Slots.get_put, if_pos hmode]
    · refine Breaks.before (step_transact hget rfl) (happending _ row' runId ?_ hrow' hcancel hle)
      change Slots.get i (Slots.put i _ s.fires) = _
      rw [Slots.get_put, if_neg hmode]
  cases stage with
  | enqueuing runId j event =>
    obtain rfl : j = sessionId := Option.some.inj haims
    exact henqueuing s row runId event hget hrow hcancel hle
  | appending runId j =>
    obtain rfl : j = sessionId := Option.some.inj haims
    exact happending s row runId hget hrow hcancel hle
  | settingReusableSession runId j =>
    obtain rfl : j = sessionId := Option.some.inj haims
    exact hsetting s row runId hget hrow hcancel hle
  | settingWorkflowId runId j =>
    obtain rfl : j = sessionId := Option.some.inj haims
    exact hworkflow s row runId hget hrow hcancel hle
  | creatingGoal runId j =>
    obtain rfl : j = sessionId := Option.some.inj haims
    refine Breaks.before (step_transact hget rfl)
      (hworkflow _ { row with goal := task.goal } runId Slots.get_put ?_ hcancel hle)
    change (s.sessions.modify j fun row => { row with goal := task.goal })[j]? = _
    rw [List.getElem?_modify_eq, hrow]
    rfl
  | _ => exact absurd haims.symm (Option.some_ne_none _)

theorem cancel_breaks (hs : s.Sound) (hstep : Step s (.cancelSession sessionId) t)
    (hnot : ¬ s.Undisturbed (.cancelSession sessionId)) : Breaks t := by
  unfold ScheduleState.Undisturbed at hnot
  push Not at hnot
  obtain ⟨row, hrow, hstatus, e, he, haims⟩ := hnot
  rw [← Option.some.inj hstep]
  have hcancel : row.cancel = { row with status := .cancelled, turnsAtCancel := some row.turns.length } := by
    unfold SessionRow.cancel
    rw [if_neg hstatus]
  have hrow' : (s.sessions.modify sessionId SessionRow.cancel)[sessionId]? =
      some { row with status := .cancelled, turnsAtCancel := some row.turns.length } := by
    rw [List.getElem?_modify_eq, hrow, ← hcancel]
    rfl
  exact aimed_breaks (hs.unique.get_of_mem he) haims hrow' rfl le_rfl

theorem mark_breaks (hs : s.Sound) (hget : s.fires.get i = some fire) (hfails : fire.stage.fails = some runId)
    (hrow : row ∈ s.sessions) (hturn : turn ∈ row.turns) (hof : turn.scheduledTaskRunId = some runId)
    (hsettled : ¬ turn.settled) :
    ∃ rows, fire.transact s.toRows = some (rows, .ended) ∧ ∀ stage, Breaks ((s.withRows rows).setStage i fire stage) := by
  obtain ⟨task, stage⟩ := fire
  cases stage with
  | markingFailed r =>
    obtain rfl : r = runId := Option.some.inj hfails
    have hlt : r < s.runs.length := hs.known (i, _) (Slots.mem_of_get hget) r rfl
    refine ⟨_, rfl, ?_⟩
    intro stage
    obtain ⟨j, hj⟩ := List.mem_iff_getElem?.1 hrow
    obtain ⟨n, hn⟩ := List.mem_iff_getElem?.1 hturn
    have hrun : (s.runs.modify r fun run => { run with status := .failed })[r]? =
        some { s.runs[r] with status := .failed } := by
      rw [List.getElem?_modify_eq, List.getElem?_eq_getElem hlt]
      rfl
    exact failed_breaks hrun rfl hj hn hof hsettled
  | _ => exact absurd hfails.symm (Option.some_ne_none _)

/-- **Every step that the condition excludes** can be followed by steps that break what is to hold. -/
theorem breaks_of_disturbed (hs : s.Sound) (hstep : Step s e t) (hnot : ¬ s.Undisturbed e) : Breaks t := by
  cases e with
  | fire i => exact fire_breaks hs hstep hnot
  | transact i =>
    unfold ScheduleState.Undisturbed at hnot
    push Not at hnot
    obtain ⟨fire, hget, runId, hfails, row, hrow, turn, hturn, hof, hsettled⟩ := hnot
    obtain ⟨rows, htransact, hbreaks⟩ := mark_breaks hs hget hfails hrow hturn hof hsettled
    rw [Option.some.inj (hstep.symm.trans (step_transact hget htransact))]
    exact hbreaks _
  | lose i =>
    unfold ScheduleState.Undisturbed at hnot
    push Not at hnot
    obtain ⟨fire, hget, runId, hfails, row, hrow, turn, hturn, hof, hsettled⟩ := hnot
    obtain ⟨rows, htransact, hbreaks⟩ := mark_breaks hs hget hfails hrow hturn hof hsettled
    unfold Step at hstep
    rw [Option.mem_def] at hget
    simp only [ScheduleState.step, hget, Option.bind_eq_bind, Option.bind_some, htransact] at hstep
    rw [← Option.some.inj hstep]
    exact hbreaks _
  | cancelSession sessionId => exact cancel_breaks hs hstep hnot
  | _ => exact absurd trivial hnot

/-- **A fire is one run in the right session where nothing disturbs it.** The first step that fails the
condition can be followed by steps that break what is to hold. -/
theorem oneRun_of_undisturbed (runMode : ScheduledTaskRunMode) (variableSetId : Option ℕ) (goal : Option String)
    (es : List ScheduleEvent) :
    (EachStep Step ScheduleState.Undisturbed (.new runMode variableSetId goal) es →
      EachState Step OneRun (.new runMode variableSetId goal) es) ∧
    ∀ es₁ e t t', Run Step (.new runMode variableSetId goal) es₁ t →
      EachStep Step ScheduleState.Undisturbed (.new runMode variableSetId goal) es₁ → Step t e t' →
      ¬ t.Undisturbed e → Breaks t' := by
  have hnew := ScheduleState.new_sound runMode variableSetId goal
  have hkeep : ∀ s e t, Step s e t → s.Sound → s.Undisturbed e → t.Sound := fun _ _ _ hstep hs hok => hs.next hstep hok
  refine ⟨eachState_of_eachStep (fun _ hs => hs.oneRun) hkeep hnew, ?_⟩
  intro es₁ e t t' hrun hok hstep hnot
  have hsound : t.Sound := eachState_of_eachStep (fun _ hs => hs) hkeep hnew hok es₁ [] t (List.append_nil es₁).symm hrun
  exact breaks_of_disturbed hsound hstep hnot

/-! ## Disturbed fires -/

def maintained : ScheduleState := .new .reusableSession none none

def transacts (i n : ℕ) : List ScheduleEvent := List.replicate n (.transact i)

def overlapping : List ScheduleEvent := .fire 0 :: .fire 1 :: (transacts 0 3 ++ transacts 1 3)

def failingLate : List ScheduleEvent := .fire 0 :: (transacts 0 7 ++ [.throw 0, .transact 0])

/-- The user cancels the session between the message and its turn. -/
def cancelledBetween : List ScheduleEvent := .fire 0 :: (transacts 0 6 ++ [.cancelSession 0, .transact 0])

theorem not_eachState_of_view {α : Type*} {es : List ScheduleEvent} {view : ScheduleState → α} {a : α}
    (h : (play ScheduleState.step s es).map view = some a) (hbroken : ∀ t : ScheduleState, view t = a → ¬ OneRun t) :
    ¬ EachState Step OneRun s es := by
  obtain ⟨t, hplay, hview⟩ := Option.map_eq_some_iff.1 h
  intro hall
  exact hbroken t hview (hall es [] t (List.append_nil es).symm (run_of_play hplay))

/-- Each of them breaks what is to hold: a second session, a failed run whose turn is queued, a turn in a
cancelled session. -/
theorem disturbed_fires_break : ¬ EachState Step OneRun maintained overlapping ∧
    ¬ EachState Step OneRun maintained failingLate ∧ ¬ EachState Step OneRun maintained cancelledBetween := by
  refine ⟨?_, ?_, ?_⟩
  · have hview : (play ScheduleState.step maintained overlapping).map (fun t => (t.stays, t.sessions.length)) =
        some (true, 2) := by decide +kernel
    refine not_eachState_of_view hview ?_
    intro t ht hone
    obtain ⟨hstays, hlength⟩ := Prod.mk.inj ht
    have hle := hone.oneSession hstays
    rw [hlength] at hle
    contradiction
  · have hview : (play ScheduleState.step maintained failingLate).map
        (fun t => (t.runs.map (·.status), t.sessions.map (·.turns))) =
        some ([.failed], [[{ triggerEventId := 1, scheduledTaskRunId := some 0, status := .queued }]]) := by
      decide +kernel
    refine not_eachState_of_view hview ?_
    intro t ht hone
    obtain ⟨hruns, hsessions⟩ := Prod.mk.inj ht
    obtain ⟨run, hrun, hstatus⟩ := List.map_eq_singleton_iff.1 hruns
    obtain ⟨row, hrow, hturns⟩ := List.map_eq_singleton_iff.1 hsessions
    have hfirst : t.runs[0]? = some run := by rw [hrun]; rfl
    have hmem : row ∈ t.sessions := by rw [hrow]; exact List.mem_singleton_self row
    have hturn : { triggerEventId := 1, scheduledTaskRunId := some 0, status := .queued } ∈ row.turns := by
      rw [hturns]
      exact List.mem_singleton_self _
    exact (hone.failed 0 run hfirst hstatus row hmem _ hturn rfl).1 rfl
  · have hview : (play ScheduleState.step maintained cancelledBetween).map
        (fun t => t.sessions.map fun row => (row.turnsAtCancel, row.turns)) =
        some [(some 0, [{ triggerEventId := 1, scheduledTaskRunId := some 0, status := .queued }])] := by
      decide +kernel
    refine not_eachState_of_view hview ?_
    intro t ht hone
    obtain ⟨row, hrow, hboth⟩ := List.map_eq_singleton_iff.1 ht
    obtain ⟨hcancel, hturns⟩ := Prod.mk.inj hboth
    have hmem : row ∈ t.sessions := by rw [hrow]; exact List.mem_singleton_self row
    have hnone := hone.revived row hmem 0 hcancel _ (by rw [hturns]; exact List.mem_singleton_self _)
    contradiction

/-- Two fires one after the other. -/
theorem oneRun_of_undisturbed_twice :
    EachState Step OneRun maintained (.fire 0 :: (transacts 0 10 ++ .fire 1 :: transacts 1 8)) := by
  apply (oneRun_of_undisturbed .reusableSession none none _).1
  have hplay : (play (guarded ScheduleState.step ScheduleState.Undisturbed) maintained
      (.fire 0 :: (transacts 0 10 ++ .fire 1 :: transacts 1 8))).isSome = true := by
    decide +kernel
  obtain ⟨t, ht⟩ := Option.isSome_iff_exists.1 hplay
  exact eachStep_of_guarded ht

end OpenGeni.Worker.Schedule
