/-
Finite runs of a labelled step relation.

Every state machine of the development (the op registry, the job pump, the
admission queue with its waiters, the server's frame consumer) is a relation
`step : σ → ε → σ → Prop` between states, labelled by the event that was
serviced. A run is a finite sequence of such steps. This file is the whole
reasoning interface to runs: composition, the invariant rule, and the two
lemmas that locate the step at which a property of the state changed.
-/
import Mathlib

namespace OpenGeni.Lib

variable {σ ε : Type*}

/-- `Run step s es t`: from `s` the events `es`, in order, lead to `t`. -/
inductive Run (step : σ → ε → σ → Prop) : σ → List ε → σ → Prop
  | nil (s : σ) : Run step s [] s
  | cons {s t u : σ} {e : ε} {es : List ε} (h : step s e t) (rest : Run step t es u) :
      Run step s (e :: es) u

/-- The steps of `step` whose event meets the condition `Ok` in the state it is
serviced in. A run of `Restrict step Ok` is a run of `step` all of whose steps
meet the condition. -/
def Restrict (step : σ → ε → σ → Prop) (Ok : σ → ε → Prop) : σ → ε → σ → Prop := fun s e t => step s e t ∧ Ok s e

namespace Run

variable {step : σ → ε → σ → Prop} {s t u : σ} {es fs : List ε} {e : ε}

/-! ## Composition -/

theorem single (h : step s e t) : Run step s [e] t := .cons h (.nil t)

theorem append (h₁ : Run step s es t) (h₂ : Run step t fs u) : Run step s (es ++ fs) u := by
  induction h₁ with
  | nil s => exact h₂
  | cons h _ ih => exact .cons h (ih h₂)

theorem split (h : Run step s (es ++ fs) u) : ∃ t, Run step s es t ∧ Run step t fs u := by
  induction es generalizing s with
  | nil => exact ⟨s, .nil s, h⟩
  | cons e es ih =>
    cases h with
    | cons hstep rest =>
      obtain ⟨t, h₁, h₂⟩ := ih rest
      exact ⟨t, .cons hstep h₁, h₂⟩

theorem cons_inv (h : Run step s (e :: es) u) : ∃ t, step s e t ∧ Run step t es u := by
  cases h with
  | cons hstep rest => exact ⟨_, hstep, rest⟩

theorem snoc (h : Run step s es t) (hstep : step t e u) : Run step s (es ++ [e]) u := h.append (.single hstep)

/-! ## Invariants -/

/-- **The invariant rule.** What every step preserves, every run preserves. -/
theorem invariant {P : σ → Prop} (hP : ∀ s e t, step s e t → P s → P t) (h : Run step s es t) : P s → P t := by
  induction h with
  | nil s => exact id
  | cons hstep _ ih => exact fun hs => ih (hP _ _ _ hstep hs)

theorem mono {step' : σ → ε → σ → Prop} {P : σ → Prop} (hP : ∀ s e t, step s e t → P s → P t)
    (hle : ∀ s e t, P s → step s e t → step' s e t)
    (h : Run step s es t) : P s → Run step' s es t := by
  induction h with
  | nil s => exact fun _ => .nil s
  | cons hstep _ ih => exact fun hs => .cons (hle _ _ _ hs hstep) (ih (hP _ _ _ hstep hs))

theorem unrestrict {Ok : σ → ε → Prop} (h : Run (Restrict step Ok) s es t) : Run step s es t :=
  h.mono (P := fun _ => True) (fun _ _ _ _ _ => trivial) (fun _ _ _ _ hst => hst.1) trivial

end Run

/-! ## Where something happened -/

/-- Some step of the run from `s` to `u` satisfies `Q`. -/
def Sometime (step : σ → ε → σ → Prop) (Q : σ → ε → σ → Prop) (s : σ) (es : List ε) (u : σ) : Prop :=
  ∃ es₁ e es₂ t t', es = es₁ ++ e :: es₂ ∧ Run step s es₁ t ∧ step t e t' ∧ Q t e t' ∧ Run step t' es₂ u

/-- Every step of every run of the events from `s` to `u` satisfies `Q`. -/
def Always (step : σ → ε → σ → Prop) (Q : σ → ε → σ → Prop) (s : σ) (es : List ε) (u : σ) : Prop :=
  ∀ es₁ e es₂ t t', es = es₁ ++ e :: es₂ → Run step s es₁ t → step t e t' → Run step t' es₂ u → Q t e t'

section

variable {step : σ → ε → σ → Prop} {s t u : σ} {es fs : List ε} {e : ε}

theorem Always.restrict {Ok : σ → ε → Prop} (h : Always step (fun s e _ => Ok s e) s (es ++ fs) u)
    (hrun : Run step s es t) (hrest : Run step t fs u) : Run (Restrict step Ok) s es t := by
  induction hrun with
  | nil s => exact .nil s
  | @cons s t' t e es hstep hrun ih =>
    have hok : Ok s e := h [] e (es ++ fs) s t' rfl (.nil s) hstep (hrun.append hrest)
    refine .cons ⟨hstep, hok⟩ (ih ?_ hrest)
    intro es₁ e' es₂ v v' hes hrun₁ hstep' hrun₂
    exact h (e :: es₁) e' es₂ v v' (congrArg (e :: ·) hes) (.cons hstep hrun₁) hstep' hrun₂

theorem Run.lost {P : σ → Prop} (h : Run step s es u) (hs : P s) (hu : ¬ P u) :
    Sometime step (fun t _ t' => P t ∧ ¬ P t') s es u := by
  induction h with
  | nil s => exact absurd hs hu
  | @cons s t u e es hstep rest ih =>
    by_cases ht : P t
    · obtain ⟨es₁, e', es₂, w, w', hes, hr₁, hst, hw, hr₂⟩ := ih ht hu
      exact ⟨e :: es₁, e', es₂, w, w', by rw [hes]; rfl, .cons hstep hr₁, hst, hw, hr₂⟩
    · exact ⟨[], e, es, s, t, rfl, .nil s, hstep, ⟨hs, ht⟩, rest⟩

end

/-! ## Conditions on the way -/

/-- Every state that a part of the events leads to satisfies `P`. -/
def EachState (step : σ → ε → σ → Prop) (P : σ → Prop) (s : σ) (es : List ε) : Prop :=
  ∀ es₁ es₂ t, es = es₁ ++ es₂ → Run step s es₁ t → P t

def EachStep (step : σ → ε → σ → Prop) (Ok : σ → ε → Prop) (s : σ) (es : List ε) : Prop :=
  ∀ es₁ e es₂ t t', es = es₁ ++ e :: es₂ → Run step s es₁ t → step t e t' → Ok t e

section

variable {step : σ → ε → σ → Prop} {P E : σ → Prop} {Ok : σ → ε → Prop} {s : σ} {es : List ε}

theorem EachStep.nil : EachStep step Ok s [] := fun es₁ e es₂ _ _ hes => by
  have hlen := congrArg List.length hes
  rw [List.length_append, List.length_cons, List.length_nil] at hlen
  omega

theorem EachStep.cons {e : ε} (h : ∀ t, step s e t → Ok s e ∧ EachStep step Ok t es) :
    EachStep step Ok s (e :: es) := by
  intro es₁ e' es₂ v v' hes hrun hstep
  cases hrun with
  | nil s =>
    obtain ⟨rfl, -⟩ := List.cons.inj hes
    exact (h v' hstep).1
  | cons hfirst hrest =>
    obtain ⟨rfl, hrest_eq⟩ := List.cons.inj hes
    exact (h _ hfirst).2 _ _ _ _ _ hrest_eq hrest hstep

/-- **A condition that suffices.** If the steps that meet the condition keep the invariant, what
the invariant implies holds all the way. -/
theorem eachState_of_eachStep (hP : ∀ s, P s → E s) (hkeep : ∀ s e t, step s e t → P s → Ok s e → P t) (hs : P s)
    (hOk : EachStep step Ok s es) : EachState step E s es := by
  intro es₁ es₂ t hes hrun
  apply hP
  induction hrun generalizing es with
  | nil s => exact hs
  | @cons s t u e es₁ hstep hrest ih =>
    have hfirst : Ok s e := hOk [] e (es₁ ++ es₂) s t (by rw [hes, List.cons_append, List.nil_append]) (.nil s) hstep
    have hlater : EachStep step Ok t (es₁ ++ es₂) := by
      intro fs₁ f fs₂ v v' hfs hv hstep'
      exact hOk (e :: fs₁) f fs₂ v v' (by rw [hes, List.cons_append, hfs, List.cons_append]) (.cons hstep hv) hstep'
    exact ih (hkeep s e t hstep hs hfirst) hlater rfl

/-- **A condition that a step needs and that suffices** is met on the way exactly if the
property holds there. -/
theorem eachState_iff_eachStep (hP : ∀ s, P s → E s) (hkeep : ∀ s e t, step s e t → P s → Ok s e → P t)
    (hneed : ∀ s e t, step s e t → P s → E t → Ok s e) (hs : P s) :
    EachState step E s es ↔ EachStep step Ok s es := by
  -- along the way the invariant `P` holds as well
  have hreach : ∀ es₁ t, Run step s es₁ t → EachState step E s es₁ → P t := by
    intro es₁ t hrun
    induction hrun with
    | nil s => exact fun _ => hs
    | @cons s t u e es₁ hstep hrest ih =>
      intro hE
      have hfirst : E t := hE [e] es₁ t rfl (.single hstep)
      refine ih (hkeep s e t hstep hs (hneed s e t hstep hs hfirst)) ?_
      intro fs₁ fs₂ v hes hv
      exact hE (e :: fs₁) fs₂ v (by rw [hes, List.cons_append]) (.cons hstep hv)
  constructor
  · intro hE es₁ e es₂ t t' hes hrun hstep
    have hbefore : EachState step E s es₁ := by
      intro fs₁ fs₂ v hfs hv
      exact hE fs₁ (fs₂ ++ e :: es₂) v (by rw [hes, hfs, List.append_assoc]) hv
    have hafter : E t' := hE (es₁ ++ [e]) es₂ t' (by rw [hes, List.append_assoc, List.singleton_append]) (hrun.snoc hstep)
    exact hneed t e t' hstep (hreach es₁ t hrun hbefore) hafter
  · exact eachState_of_eachStep hP hkeep hs

end

/-! ## Playing events -/

def play (step : σ → ε → Option σ) (s : σ) : List ε → Option σ
  | [] => some s
  | e :: es => (step s e).bind fun t => play step t es

variable {step : σ → ε → Option σ} {Ok : σ → ε → Prop} {s t : σ} {es : List ε}

theorem play_run (hok : ∀ e ∈ es, ∀ s, Ok s e) (h : play step s es = some t) :
    Run (Restrict (fun s e t => step s e = some t) Ok) s es t := by
  induction es generalizing s with
  | nil =>
    obtain rfl : s = t := Option.some.inj h
    exact .nil s
  | cons e es ih =>
    obtain ⟨u, hstep, hrest⟩ := Option.bind_eq_some_iff.1 h
    exact .cons ⟨hstep, hok e List.mem_cons_self s⟩ (ih (fun e' he' => hok e' (List.mem_cons_of_mem e he')) hrest)

/-- A step function that refuses the steps that do not meet the condition. -/
def guarded (step : σ → ε → Option σ) (Ok : σ → ε → Prop) [∀ s e, Decidable (Ok s e)] (s : σ) (e : ε) : Option σ :=
  if Ok s e then step s e else none

theorem guarded_run [∀ s e, Decidable (Ok s e)] (h : play (guarded step Ok) s es = some t) :
    Run (Restrict (fun s e t => step s e = some t) Ok) s es t := by
  induction es generalizing s with
  | nil =>
    obtain rfl : s = t := Option.some.inj h
    exact .nil s
  | cons e es ih =>
    obtain ⟨u, hstep, hrest⟩ := Option.bind_eq_some_iff.1 h
    unfold guarded at hstep
    split_ifs at hstep with hok
    exact .cons ⟨hstep, hok⟩ (ih hrest)

theorem run_of_play (h : play step s es = some t) : Run (fun s e t => step s e = some t) s es t :=
  (play_run (fun _ _ _ => trivial) h).unrestrict

theorem exists_run_of_play {P : σ → Prop} (h : ∃ t ∈ play step s es, P t) :
    ∃ t, Run (fun s e t => step s e = some t) s es t ∧ P t := by
  obtain ⟨t, hplay, ht⟩ := h
  exact ⟨t, run_of_play hplay, ht⟩

theorem not_eachState_of_play {P : σ → Prop} (h : ∃ t ∈ play step s es, ¬ P t) :
    ¬ EachState (fun s e t => step s e = some t) P s es := by
  obtain ⟨t, hplay, ht⟩ := h
  exact fun hall => ht (hall es [] t (List.append_nil es).symm (run_of_play hplay))

theorem eachStep_of_guarded [∀ s e, Decidable (Ok s e)] (h : play (guarded step Ok) s es = some t) :
    EachStep (fun s e t => step s e = some t) Ok s es := by
  intro es₁ e es₂ v v' hes hrun hstep
  induction hrun generalizing es with
  | nil s =>
    rw [hes] at h
    obtain ⟨u, hguarded, -⟩ := Option.bind_eq_some_iff.1 h
    unfold guarded at hguarded
    split_ifs at hguarded with hok
    exact hok
  | @cons s u w f es₁ hfirst hrest ih =>
    rw [hes] at h
    obtain ⟨u', hguarded, hplay⟩ := Option.bind_eq_some_iff.1 h
    unfold guarded at hguarded
    split_ifs at hguarded
    cases hguarded.symm.trans hfirst
    exact ih hplay rfl hstep

/-! ## Leaving out what does nothing -/

/-- `Pruned step Idle s es es' u`: a run of `es` from `s` to `u`, where `es'` is `es`
without the events that are idle in the state they are serviced in. -/
inductive Pruned (step : σ → ε → σ → Prop) (Idle : σ → ε → Prop) :
    σ → List ε → List ε → σ → Prop
  | nil (s : σ) : Pruned step Idle s [] [] s
  | drop {s t u : σ} {e : ε} {es es' : List ε} (h : step s e t) (hidle : Idle s e)
      (rest : Pruned step Idle t es es' u) : Pruned step Idle s (e :: es) es' u
  | keep {s t u : σ} {e : ε} {es es' : List ε} (h : step s e t) (hidle : ¬ Idle s e)
      (rest : Pruned step Idle t es es' u) : Pruned step Idle s (e :: es) (e :: es') u

section

variable {step : σ → ε → σ → Prop} {Idle : σ → ε → Prop} {s u : σ} {es : List ε}

theorem Run.pruned (hidle : ∀ s e t, step s e t → Idle s e → t = s) (h : Run step s es u) :
    ∃ es', Pruned step Idle s es es' u ∧ Run step s es' u := by
  induction h with
  | nil s => exact ⟨[], .nil s, .nil s⟩
  | @cons s t u e es hstep rest ih =>
    obtain ⟨es', hpruned, hrun⟩ := ih
    by_cases hd : Idle s e
    · -- The idle step stays in `s`, where the rest of the run starts as well.
      have hsame : t = s := hidle s e t hstep hd
      subst hsame
      exact ⟨es', .drop hstep hd hpruned, hrun⟩
    · exact ⟨e :: es', .keep hstep hd hpruned, .cons hstep hrun⟩

end

end OpenGeni.Lib
