/-
Replacing the occurrences of one text in another.

Occurrences are taken from the left and do not overlap. What replaces them can meet the text around
it, and so the result can have occurrences of its own; of a text that does not meet the replacement
it has only those that were there.
-/
import Mathlib

namespace OpenGeni.Lib

variable {α : Type*}

/-! ## Texts that do not meet -/

/-- No part of the value can be a part of the marker where the value occurs. -/
structure Detached (value marker : List α) : Prop where
  outside : ¬ value <:+: marker
  inside : ¬ marker <:+: value
  before : ∀ part ∈ value.tails, part ≠ [] → ¬ part <+: marker
  behind : ∀ part ∈ value.inits, part ≠ [] → ¬ part <:+ marker

variable {value marker text : List α}

theorem Detached.occurs_beside {other front rest : List α} (h : Detached other marker)
    (hother : other <:+: front ++ (marker ++ rest)) : other <:+: front ∨ other <:+: rest := by
  have hbefore : ∀ {part : List α}, part ≠ [] → part <:+ other → ¬ part <+: marker :=
    fun hpart hend => h.before _ ((List.mem_tails _ _).2 hend) hpart
  rw [List.infix_append_iff_ne_nil] at hother
  obtain hfront | hrest | ⟨left, right, -, hright, rfl, hleft, hstart⟩ := hother
  · exact .inl hfront
  · rw [List.infix_append_iff_ne_nil] at hrest
    obtain hmarker | hrest | ⟨left, right, hleft, -, rfl, hend, -⟩ := hrest
    · exact absurd hmarker h.outside
    · exact .inr hrest
    · exact absurd hend (h.behind left ((List.mem_inits _ _).2 (List.prefix_append _ _)) hleft)
  · -- the part behind the front starts with the marker or starts the marker
    obtain hshort | hlong := List.prefix_or_prefix_of_prefix hstart (List.prefix_append marker rest)
    · exact absurd hshort (hbefore hright (List.suffix_append _ _))
    · exact absurd (hlong.isInfix.trans (List.suffix_append _ _).isInfix) h.inside

/-! ## Replacing -/

variable [DecidableEq α]

instance (value marker : List α) : Decidable (Detached value marker) :=
  decidable_of_iff (¬ value <:+: marker ∧ ¬ marker <:+: value ∧
    (∀ part ∈ value.tails, part ≠ [] → ¬ part <+: marker) ∧ ∀ part ∈ value.inits, part ≠ [] → ¬ part <:+ marker)
    ⟨fun ⟨h₁, h₂, h₃, h₄⟩ => ⟨h₁, h₂, h₃, h₄⟩, fun h => ⟨h.outside, h.inside, h.before, h.behind⟩⟩

/-- The text after `skip` units, with each occurrence of `value` replaced. -/
def replaceFrom (value marker : List α) : ℕ → List α → List α
  | _, [] => []
  | skip + 1, _ :: rest => replaceFrom value marker skip rest
  | 0, unit :: rest =>
    if value <+: unit :: rest then marker ++ replaceFrom value marker (value.length - 1) rest
    else unit :: replaceFrom value marker 0 rest

/-- `text.split(value).join(marker)`, for a value that is not empty. -/
def replaceAll (value marker text : List α) : List α := replaceFrom value marker 0 text

theorem replaceFrom_eq (skip : ℕ) (text : List α) :
    replaceFrom value marker skip text = replaceAll value marker (text.drop skip) := by
  induction text generalizing skip with
  | nil => rw [List.drop_nil]; cases skip <;> rfl
  | cons unit text ih =>
    cases skip with
    | zero => rfl
    | succ skip => exact ih skip

theorem replaceAll_cases (hvalue : value ≠ []) (marker text : List α) :
    (replaceAll value marker text = text ∧ ¬ value <:+: text) ∨
      ∃ front rest, text = front ++ (value ++ rest) ∧ ¬ value <:+: front ∧
        replaceAll value marker text = front ++ (marker ++ replaceAll value marker rest) := by
  induction text with
  | nil => exact .inl ⟨rfl, fun h => hvalue (List.infix_nil.1 h)⟩
  | cons unit text ih =>
    by_cases hhere : value <+: unit :: text
    · right
      obtain ⟨rest, hrest⟩ := hhere
      refine ⟨[], rest, hrest.symm, fun h => hvalue (List.infix_nil.1 h), ?_⟩
      have hdrop : text.drop (value.length - 1) = rest := by
        obtain ⟨head, tail, rfl⟩ := List.exists_cons_of_ne_nil hvalue
        obtain ⟨-, rfl⟩ := List.cons.inj hrest
        rw [List.length_cons, Nat.add_sub_cancel]
        exact List.drop_left
      rw [replaceAll, replaceFrom, if_pos ⟨rest, hrest⟩, replaceFrom_eq, hdrop]
      rfl
    · have hkeep : replaceAll value marker (unit :: text) = unit :: replaceAll value marker text := by
        rw [replaceAll, replaceFrom, if_neg hhere]
        rfl
      obtain ⟨hsame, hnone⟩ | ⟨front, rest, rfl, hfront, hreplaced⟩ := ih
      · refine .inl ⟨by rw [hkeep, hsame], ?_⟩
        rw [List.infix_cons_iff]
        exact not_or.2 ⟨hhere, hnone⟩
      · refine .inr ⟨unit :: front, rest, rfl, ?_, by rw [hkeep, hreplaced]; rfl⟩
        rw [List.infix_cons_iff]
        rintro (hstart | hlater)
        · exact hhere (hstart.trans ⟨value ++ rest, rfl⟩)
        · exact hfront hlater

/-- **What replacing leaves.** A text that does not meet the marker, and occurs in the result, is
not the replaced one and occurs in the text. -/
theorem Detached.occurs_replaceAll {other : List α} (hvalue : value ≠ []) (h : Detached other marker)
    (hother : other <:+: replaceAll value marker text) : other <:+: text ∧ other ≠ value := by
  induction hlength : text.length using Nat.strong_induction_on generalizing text with
  | _ n ih =>
    obtain ⟨hsame, hnone⟩ | ⟨front, rest, rfl, hfront, hreplaced⟩ := replaceAll_cases hvalue marker text
    · rw [hsame] at hother
      exact ⟨hother, fun heq => hnone (heq ▸ hother)⟩
    · rw [hreplaced] at hother
      obtain hother | hother := h.occurs_beside hother
      · exact ⟨hother.trans (List.prefix_append _ _).isInfix, fun heq => hfront (heq ▸ hother)⟩
      · have hshorter : rest.length < n := by
          have hpos := List.length_pos_of_ne_nil hvalue
          simp only [← hlength, List.length_append]
          omega
        obtain ⟨hrest, hne⟩ := ih rest.length hshorter hother rfl
        exact ⟨hrest.trans ⟨front ++ value, [], by simp⟩, hne⟩

end OpenGeni.Lib
