/-
Transactions that interleave statement by statement.

At READ COMMITTED a transaction is a sequence of statements. Each statement sees the data
that is committed when it starts, together with what its own transaction has written, and it
waits for the rows that another open transaction has locked. The writes of a transaction
reach the data all at once, when it commits, or never.

An invariant of the committed data follows from three things: what every open transaction
knows about the data (`Inv`), what two open transactions cannot both have, such as the lock
of one row (`Apart`), and that a commit keeps the first for all the others. `Sound` lists the
obligations and `Sound.run` is the rule.
-/
import OpenGeni.Lib.Run
import OpenGeni.Lib.Slots

namespace OpenGeni.Lib

/-- A class of transactions: `O` is what they are called with, `D` the committed data, and
`X` what an open transaction has still to do, has read and has written. -/
structure Transactions (O D X : Type*) where
  start : O → X
  /-- The next statement, with the other open transactions. It has no result while it waits
  and when there is no statement left. -/
  exec : D → List X → X → Option X
  finished : X → Prop
  [finishedDecidable : DecidablePred finished]
  commit : D → X → D
  /-- What the commit of the first changes in what the second has read. -/
  observe : X → X → X

namespace Transactions

attribute [instance] finishedDecidable

structure State (D X : Type*) where
  data : D
  opened : Slots ℕ X
deriving DecidableEq

inductive Event (O : Type*)
  | start (i : ℕ) (op : O)
  | exec (i : ℕ)
  | commit (i : ℕ)
  | rollback (i : ℕ)

variable {O D X : Type*}

def State.others (s : State D X) (i : ℕ) : List X := (s.opened.drop i).map Prod.snd

def State.idle (d : D) : State D X := { data := d, opened := [] }

def step (T : Transactions O D X) (s : State D X) : Event O → Option (State D X)
  | .start i op =>
    match s.opened.get i with
    | some _ => none
    | none => some { s with opened := s.opened.put i (T.start op) }
  | .exec i =>
    match s.opened.get i with
    | none => none
    | some x => (T.exec s.data (s.others i) x).map fun x' => { s with opened := s.opened.put i x' }
  | .commit i =>
    match s.opened.get i with
    | none => none
    | some x =>
      if T.finished x then
        some
          { data := T.commit s.data x, opened := (s.opened.drop i).map fun e => (e.1, T.observe x e.2) }
      else
        none
  | .rollback i => some { s with opened := s.opened.drop i }

def Steps (T : Transactions O D X) (s : State D X) (e : Event O) (s' : State D X) : Prop := T.step s e = some s'

/-! ## What a step does -/

variable {T : Transactions O D X} {s s' : State D X} {i : ℕ} {op : O} {x y : X}

theorem mem_others (h : y ∈ s.others i) : ∃ j, j ≠ i ∧ (j, y) ∈ s.opened := by
  obtain ⟨e, he, rfl⟩ := List.mem_map.1 h
  obtain ⟨hmem, hne⟩ := List.mem_filter.1 he
  exact ⟨e.1, of_decide_eq_true hne, hmem⟩

theorem mem_others_of_mem {e : ℕ × X} (h : e ∈ s.opened) (hne : e.1 ≠ i) : e.2 ∈ s.others i :=
  List.mem_map_of_mem (List.mem_filter.2 ⟨h, decide_eq_true hne⟩)

theorem step_start (h : T.Steps s (.start i op) s') : s' = { s with opened := s.opened.put i (T.start op) } := by
  simp only [Steps, step] at h
  cases hget : s.opened.get i with
  | some x => simp [hget] at h
  | none =>
    rw [hget] at h
    exact (Option.some.inj h).symm

theorem step_exec (h : T.Steps s (.exec i) s') :
    ∃ x x', s.opened.get i = some x ∧ T.exec s.data (s.others i) x = some x' ∧
      s' = { s with opened := s.opened.put i x' } := by
  simp only [Steps, step] at h
  cases hget : s.opened.get i with
  | none => simp [hget] at h
  | some x =>
    rw [hget] at h
    obtain ⟨x', hx', rfl⟩ := Option.map_eq_some_iff.1 h
    exact ⟨x, x', rfl, hx', rfl⟩

theorem step_commit (h : T.Steps s (.commit i) s') :
    ∃ x, s.opened.get i = some x ∧ T.finished x ∧
      s' = { data := T.commit s.data x, opened := (s.opened.drop i).map fun e => (e.1, T.observe x e.2) } := by
  simp only [Steps, step] at h
  cases hget : s.opened.get i with
  | none => simp [hget] at h
  | some x =>
    rw [hget] at h
    obtain ⟨hfin, he⟩ := Option.ite_none_right_eq_some.1 h
    exact ⟨x, rfl, hfin, (Option.some.inj he).symm⟩

/-! ## The rule -/

/-- What is to be shown of a class of transactions whose steps meet the condition `Ok`. -/
structure Sound (T : Transactions O D X) (Good : D → Prop) (Inv : D → X → Prop) (Apart : X → X → Prop)
    (Ok : State D X → Event O → Prop) : Prop where
  symm : ∀ x y, Apart x y → Apart y x
  start : ∀ d op, Good d → Inv d (T.start op)
  start_apart : ∀ op y, Apart (T.start op) y
  /-- A statement keeps what its own transaction knows and has. -/
  exec : ∀ (s : State D X) (i : ℕ) (x x' : X), s.opened.get i = some x → Ok s (.exec i) → Good s.data →
    Inv s.data x → (∀ y ∈ s.others i, Apart x y) → T.exec s.data (s.others i) x = some x' →
    Inv s.data x' ∧ ∀ y ∈ s.others i, Apart x' y
  commit : ∀ (s : State D X) (i : ℕ) (x : X), s.opened.get i = some x → Ok s (.commit i) → Good s.data →
    Inv s.data x → T.finished x → Good (T.commit s.data x)
  commit_other : ∀ (s : State D X) (i : ℕ) (x y : X), s.opened.get i = some x → Ok s (.commit i) →
    Good s.data → Inv s.data x → T.finished x → y ∈ s.others i → Apart x y → Inv s.data y →
    Inv (T.commit s.data x) (T.observe x y)
  observe_apart : ∀ x y z, Apart y z → Apart (T.observe x y) (T.observe x z)

/-- The data is good, every open transaction knows what it should, and no two of them have
what only one can have. -/
structure Safe (Good : D → Prop) (Inv : D → X → Prop) (Apart : X → X → Prop) (s : State D X) : Prop where
  good : Good s.data
  inv : ∀ e ∈ s.opened, Inv s.data e.2
  apart : ∀ e ∈ s.opened, ∀ e' ∈ s.opened, e.1 ≠ e'.1 → Apart e.2 e'.2

variable {Good : D → Prop} {Inv : D → X → Prop} {Apart : X → X → Prop} {Ok : State D X → Event O → Prop}

theorem Safe.idle {d : D} (h : Good d) : Safe Good Inv Apart (State.idle d) :=
  ⟨h, List.forall_mem_nil _, List.forall_mem_nil _⟩

theorem Safe.apart_others (h : Safe Good Inv Apart s) (hx : s.opened.get i = some x) :
    ∀ y ∈ s.others i, Apart x y := by
  intro y hy
  obtain ⟨j, hne, hmem⟩ := mem_others hy
  exact h.apart _ (Slots.mem_of_get hx) _ hmem (Ne.symm hne)

theorem Safe.put (h : Safe Good Inv Apart s) (hsymm : ∀ x y, Apart x y → Apart y x)
    (hinv : Inv s.data x) (hapart : ∀ y ∈ s.others i, Apart x y) :
    Safe Good Inv Apart { s with opened := s.opened.put i x } := by
  refine ⟨h.good, Slots.forall_put h.inv hinv, ?_⟩
  intro e he e' he' hne
  obtain rfl | he := List.mem_cons.1 he
  · obtain rfl | he' := List.mem_cons.1 he'
    · exact absurd rfl hne
    · exact hapart _ (mem_others_of_mem (Slots.mem_of_mem_drop he') (Ne.symm hne))
  · obtain rfl | he' := List.mem_cons.1 he'
    · exact hsymm _ _ (hapart _ (mem_others_of_mem (Slots.mem_of_mem_drop he) hne))
    · exact h.apart e (Slots.mem_of_mem_drop he) e' (Slots.mem_of_mem_drop he') hne

theorem Safe.drop (h : Safe Good Inv Apart s) : Safe Good Inv Apart { s with opened := s.opened.drop i } := by
  refine ⟨h.good, Slots.forall_drop h.inv, ?_⟩
  intro e he e' he' hne
  exact h.apart e (Slots.mem_of_mem_drop he) e' (Slots.mem_of_mem_drop he') hne

/-- **The step.** -/
theorem Sound.step {e : Event O} (hT : Sound T Good Inv Apart Ok) (hstep : T.Steps s e s') (hok : Ok s e)
    (h : Safe Good Inv Apart s) : Safe Good Inv Apart s' := by
  cases e with
  | start i op =>
    rw [step_start hstep]
    exact h.put hT.symm (hT.start s.data op h.good) fun y _ => hT.start_apart op y
  | exec i =>
    obtain ⟨x, x', hx, hexec, rfl⟩ := step_exec hstep
    have hinv : Inv s.data x := h.inv _ (Slots.mem_of_get hx)
    obtain ⟨hinv', hapart'⟩ := hT.exec s i x x' hx hok h.good hinv (h.apart_others hx) hexec
    exact h.put hT.symm hinv' hapart'
  | commit i =>
    obtain ⟨x, hx, hfin, rfl⟩ := step_commit hstep
    have hinv : Inv s.data x := h.inv _ (Slots.mem_of_get hx)
    refine ⟨hT.commit s i x hx hok h.good hinv hfin, ?_, ?_⟩
    · intro e he
      obtain ⟨e₀, he₀, rfl⟩ := List.mem_map.1 he
      have hmem : e₀ ∈ s.opened := Slots.mem_of_mem_drop he₀
      have hother : e₀.2 ∈ s.others i := List.mem_map_of_mem he₀
      exact hT.commit_other s i x e₀.2 hx hok h.good hinv hfin hother (h.apart_others hx _ hother) (h.inv _ hmem)
    · intro e he e' he' hne
      obtain ⟨e₀, he₀, rfl⟩ := List.mem_map.1 he
      obtain ⟨e₁, he₁, rfl⟩ := List.mem_map.1 he'
      apply hT.observe_apart
      exact h.apart e₀ (Slots.mem_of_mem_drop he₀) e₁ (Slots.mem_of_mem_drop he₁) hne
  | rollback i =>
    cases hstep
    exact h.drop

/-- **The rule.** What the obligations keep holds of every state that is reached, however the
transactions interleave. -/
theorem Sound.run {es : List (Event O)} (hT : Sound T Good Inv Apart Ok)
    (hrun : Run (Restrict T.Steps Ok) s es s') (h : Safe Good Inv Apart s) : Safe Good Inv Apart s' :=
  hrun.invariant (fun _ _ _ hstep => hT.step hstep.1 hstep.2) h

end Transactions

end OpenGeni.Lib
