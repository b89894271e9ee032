/-
Machines that read symbols and write symbols.

A transducer keeps a state and, at each symbol it reads, writes a finite list of symbols. What it
writes on an input does not depend on how the input was cut into chunks; what it writes on a
prefix is a prefix of what it writes; and two of them, one behind the other, are one again.
-/
import Mathlib

namespace OpenGeni.Lib

variable {α β γ σ τ : Type*}

/-- A machine over the states `σ`, by what it does at one symbol. -/
abbrev Transducer (σ α β : Type*) := σ → α → σ × List β

namespace Transducer

/-! ## Words -/

def feed (step : Transducer σ α β) : σ → List α → σ × List β
  | s, [] => (s, [])
  | s, a :: as =>
    let (t, out) := step s a
    let (u, rest) := feed step t as
    (u, out ++ rest)

variable {step : Transducer σ α β} {s t u : σ} {a : α} {as bs : List α} {out rest : List β}

@[simp] theorem feed_nil : feed step s [] = (s, []) := rfl

theorem feed_cons : feed step s (a :: as) =
    ((feed step (step s a).1 as).1, (step s a).2 ++ (feed step (step s a).1 as).2) := rfl

theorem feed_append : feed step s (as ++ bs) = ((feed step (feed step s as).1 bs).1,
      (feed step s as).2 ++ (feed step (feed step s as).1 bs).2) := by
  induction as generalizing s with
  | nil => simp
  | cons a as ih => simp only [List.cons_append, feed_cons, ih, List.append_assoc]

theorem feed_trans (h₁ : feed step s as = (t, out)) (h₂ : feed step t bs = (u, rest)) :
    feed step s (as ++ bs) = (u, out ++ rest) := by
  rw [feed_append, h₁, h₂]

theorem feed_cons_silent (h₁ : step s a = (t, [])) (h₂ : feed step t as = (u, out)) :
    feed step s (a :: as) = (u, out) := by
  rw [feed_cons, h₁, h₂, List.nil_append]

theorem feed_isPrefix (h : as <+: bs) : (feed step s as).2 <+: (feed step s bs).2 := by
  obtain ⟨cs, rfl⟩ := h
  rw [feed_append]
  exact List.prefix_append _ _

theorem feed_between {cs : List α} (h₁ : as <+: bs) (h₂ : bs <+: cs)
    (heq : (feed step s cs).2 = (feed step s as).2) : (feed step s bs).2 = (feed step s as).2 := by
  have hle : (feed step s bs).2 <+: (feed step s cs).2 := feed_isPrefix h₂
  rw [heq] at hle
  exact (hle.eq_of_length_le (feed_isPrefix h₁).length_le)

theorem feed_invariant {P : σ → Prop} (hP : ∀ s a, P s → P (step s a).1) (h : P s) : P (feed step s as).1 := by
  induction as generalizing s with
  | nil => exact h
  | cons a as ih => exact ih (hP s a h)

/-! ## Chunks -/

/-- A reader that takes a word at a time agrees with the machine where `Inv` holds, and keeps it. -/
def Reads (step : Transducer σ α β) (Inv : σ → Prop) (read : Transducer σ (List α) β) : Prop :=
  ∀ s, Inv s → ∀ as, read s as = feed step s as ∧ Inv (read s as).1

/-- **Chunks do not matter.** Fed the chunks of a word, the reader does what the machine does on the
word. -/
theorem feed_chunks {Inv : σ → Prop} {read : Transducer σ (List α) β} (hread : Reads step Inv read)
    (hs : Inv s) (chunks : List (List α)) : feed read s chunks = feed step s chunks.flatten := by
  induction chunks generalizing s with
  | nil => rfl
  | cons chunk chunks ih =>
    obtain ⟨hchunk, hinv⟩ := hread s hs chunk
    rw [feed_cons, ih hinv, List.flatten_cons, feed_append, hchunk]

/-! ## One behind the other -/

def comp (first : Transducer σ α β) (second : Transducer τ β γ) : Transducer (σ × τ) α γ := fun s a =>
    let (s₁, word) := first s.1 a
    let (s₂, out) := feed second s.2 word
    ((s₁, s₂), out)

theorem feed_comp (first : Transducer σ α β) (second : Transducer τ β γ) (s : σ × τ) (as : List α) :
    feed (comp first second) s as = (((feed first s.1 as).1, (feed second s.2 (feed first s.1 as).2).1),
        (feed second s.2 (feed first s.1 as).2).2) := by
  induction as generalizing s with
  | nil => rfl
  | cons a as ih =>
    rw [feed_cons, ih]
    simp only [comp, feed_cons, feed_append]

end Transducer

end OpenGeni.Lib
