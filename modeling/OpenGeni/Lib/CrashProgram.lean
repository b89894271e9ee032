/-
Programs whose steps may fail and that may die at any step.

A program is a tree: an operation on the world with a continuation for its success and
one for its failure, a test of the world, a mark (a change of what the specification
alone remembers), or a result. A device says what an operation does when it succeeds,
what it may leave when it fails or is cut short, and where the power may go.

`Meets` is the triple of this language. Its postcondition has two parts: one for a
returned result, one for every state a crash may leave. The rules take a program apart
from the front, so a proof about a program has the shape of the program.
-/
import Mathlib

namespace OpenGeni.Lib

universe u v w

/-- A program over operations `ω` and a world `σ`, with results in `ρ`. -/
inductive CrashProgram (ω : Type u) (σ : Type v) (ρ : Type w)
  | ret (result : ρ)
  | op (o : ω) (next : Bool → CrashProgram ω σ ρ)
  | test (b : σ → Bool) (next : Bool → CrashProgram ω σ ρ)
  | mark (f : σ → σ) (next : CrashProgram ω σ ρ)

structure Device (ω : Type u) (σ : Type v) where
  can : ω → σ → Prop
  apply : ω → σ → σ
  /-- What an operation may leave that fails, or is cut short. -/
  leaves : ω → σ → σ → Prop
  crashes : σ → Prop

namespace CrashProgram

variable {ω : Type u} {σ : Type v} {ρ ρ' : Type w}

def andThen : CrashProgram ω σ ρ → (ρ → CrashProgram ω σ ρ') → CrashProgram ω σ ρ'
  | .ret result, f => f result
  | .op o next, f => .op o fun ok => (next ok).andThen f
  | .test b next, f => .test b fun found => (next found).andThen f
  | .mark g next, f => .mark g (next.andThen f)

/-- `Exec d p s r t`: the program `p`, started in `s`, ends in `t`, with its result or,
where it died, with none. -/
inductive Exec (d : Device ω σ) : CrashProgram ω σ ρ → σ → Option ρ → σ → Prop
  | ret (result : ρ) (s : σ) : Exec d (.ret result) s (some result) s
  | die_ret {result : ρ} {s : σ} (h : d.crashes s) : Exec d (.ret result) s none s
  | ok {o : ω} {next : Bool → CrashProgram ω σ ρ} {s t : σ} {r : Option ρ} (hcan : d.can o s)
      (h : Exec d (next true) (d.apply o s) r t) : Exec d (.op o next) s r t
  | fail {o : ω} {next : Bool → CrashProgram ω σ ρ} {s u t : σ} {r : Option ρ}
      (hleft : d.leaves o s u) (h : Exec d (next false) u r t) : Exec d (.op o next) s r t
  | die_op {o : ω} {next : Bool → CrashProgram ω σ ρ} {s : σ} (h : d.crashes s) :
      Exec d (.op o next) s none s
  | die_in {o : ω} {next : Bool → CrashProgram ω σ ρ} {s u : σ} (h : d.crashes s)
      (hleft : d.leaves o s u) : Exec d (.op o next) s none u
  | test {b : σ → Bool} {next : Bool → CrashProgram ω σ ρ} {s t : σ} {r : Option ρ}
      (h : Exec d (next (b s)) s r t) : Exec d (.test b next) s r t
  | mark {f : σ → σ} {next : CrashProgram ω σ ρ} {s t : σ} {r : Option ρ}
      (h : Exec d next (f s) r t) : Exec d (.mark f next) s r t

variable {p : CrashProgram ω σ ρ} {next : Bool → CrashProgram ω σ ρ}

theorem Exec.mono {d e : Device ω σ} (hcan : ∀ o s, d.can o s → e.can o s)
    (happly : e.apply = d.apply) (hleaves : ∀ o s u, d.leaves o s u → e.leaves o s u)
    (hcrashes : ∀ s, d.crashes s → e.crashes s) {s t : σ} {r : Option ρ} (h : Exec d p s r t) :
    Exec e p s r t := by
  induction h with
  | ret result s => exact .ret result s
  | die_ret h => exact .die_ret (hcrashes _ h)
  | ok h _ ih => exact .ok (hcan _ _ h) (by rw [happly]; exact ih)
  | fail hleft _ ih => exact .fail (hleaves _ _ _ hleft) ih
  | die_op h => exact .die_op (hcrashes _ h)
  | die_in h hleft => exact .die_in (hcrashes _ h) (hleaves _ _ _ hleft)
  | test _ ih => exact .test ih
  | mark _ ih => exact .mark ih

/-! ## Triples -/

/-- Started in `s`, the program returns only with `Q`, and dies only where `C` holds. -/
structure Meets (d : Device ω σ) (p : CrashProgram ω σ ρ) (s : σ) (Q : ρ → σ → Prop)
    (C : σ → Prop) : Prop where
  returns : ∀ result t, Exec d p s (some result) t → Q result t
  dies : ∀ t, Exec d p s none t → C t

variable {d : Device ω σ} {s : σ} {Q : ρ → σ → Prop} {C : σ → Prop}

theorem meets_ret {result : ρ} (hQ : Q result s) (hC : d.crashes s → C s) : Meets d (.ret result) s Q C := by
  constructor
  · rintro result' t (_ | _)
    exact hQ
  · rintro t (_ | h)
    exact hC h

theorem meets_op {o : ω} (hC : d.crashes s → C s)
    (hleft : ∀ u, d.leaves o s u → (d.crashes s → C u) ∧ Meets d (next false) u Q C)
    (hok : d.can o s → Meets d (next true) (d.apply o s) Q C) : Meets d (.op o next) s Q C := by
  constructor
  · rintro result t (_ | _ | ⟨hcan, h⟩ | ⟨hu, h⟩)
    · exact (hok hcan).returns result t h
    · exact (hleft _ hu).2.returns result t h
  · rintro t (_ | _ | ⟨hcan, h⟩ | ⟨hu, h⟩ | h | ⟨h, hu⟩)
    · exact (hok hcan).dies t h
    · exact (hleft _ hu).2.dies t h
    · exact hC h
    · exact (hleft _ hu).1 h

theorem meets_test {b : σ → Bool} (h : Meets d (next (b s)) s Q C) : Meets d (.test b next) s Q C := by
  constructor
  · rintro result t (_ | _ | _ | _ | _ | _ | h')
    exact h.returns result t h'
  · rintro t (_ | _ | _ | _ | _ | _ | h')
    exact h.dies t h'

theorem meets_mark {f : σ → σ} {next : CrashProgram ω σ ρ} (h : Meets d next (f s) Q C) :
    Meets d (.mark f next) s Q C := by
  constructor
  · rintro result t (_ | _ | _ | _ | _ | _ | _ | h')
    exact h.returns result t h'
  · rintro t (_ | _ | _ | _ | _ | _ | _ | h')
    exact h.dies t h'

theorem meets_andThen {f : ρ → CrashProgram ω σ ρ'} {Q' : ρ' → σ → Prop}
    (h : Meets d p s (fun result t => Meets d (f result) t Q' C) C) :
    Meets d (p.andThen f) s Q' C := by
  induction p generalizing s with
  | ret result => exact h.returns result s (.ret result s)
  | op o next ih =>
    refine meets_op (fun hcrash => h.dies s (.die_op hcrash)) (fun u hu => ⟨fun hcrash => ?_, ?_⟩) ?_
    · exact h.dies u (.die_in hcrash hu)
    · exact ih false ⟨fun result t ht => h.returns result t (.fail hu ht), fun t ht => h.dies t (.fail hu ht)⟩
    · intro hcan
      exact ih true ⟨fun result t ht => h.returns result t (.ok hcan ht), fun t ht => h.dies t (.ok hcan ht)⟩
  | test b next ih =>
    exact meets_test (ih (b s) ⟨fun result t ht => h.returns result t (.test ht), fun t ht => h.dies t (.test ht)⟩)
  | mark g next ih =>
    exact meets_mark (ih ⟨fun result t ht => h.returns result t (.mark ht), fun t ht => h.dies t (.mark ht)⟩)

theorem Meets.mono {Q' : ρ → σ → Prop} {C' : σ → Prop} (h : Meets d p s Q C)
    (hQ : ∀ result t, Q result t → Q' result t) (hC : ∀ t, C t → C' t) :
    Meets d p s Q' C' :=
  ⟨fun result t ht => hQ result t (h.returns result t ht), fun t ht => hC t (h.dies t ht)⟩

end CrashProgram

end OpenGeni.Lib
