/-
The white space of JavaScript strings.

A string is a sequence of code units. `trim` and its siblings cut what ECMAScript calls white
space and line terminators, the set that `\s` of a regular expression stands for. Where a text is
only cut at white space its characters do as well as its units: no white space is outside the
basic plane.
-/
import Mathlib

namespace OpenGeni.Lib

/-! ## Code units -/

abbrev CodeUnits := List ℕ

def codeUnits (text : String) : CodeUnits := text.toList.map (·.toNat)

/-- A code unit that `trim` cuts and `\s` matches. -/
def isWhiteSpaceUnit (unit : ℕ) : Bool :=
  (9 ≤ unit && unit ≤ 13) || unit == 0x20 || unit == 0xa0 || unit == 0x1680 ||
    (0x2000 ≤ unit && unit ≤ 0x200a) || unit == 0x2028 || unit == 0x2029 || unit == 0x202f ||
    unit == 0x205f || unit == 0x3000 || unit == 0xfeff

/-- `text.trim()`. -/
def trimUnits (text : CodeUnits) : CodeUnits := (text.dropWhile isWhiteSpaceUnit).rdropWhile isWhiteSpaceUnit

/-- `text.replace(/\s+/g, " ")`: the last unit of each run becomes the space. -/
def collapseWhiteSpace : CodeUnits → CodeUnits
  | [] => []
  | unit :: rest =>
    if isWhiteSpaceUnit unit then
      if rest.head?.any isWhiteSpaceUnit then collapseWhiteSpace rest else 0x20 :: collapseWhiteSpace rest
    else unit :: collapseWhiteSpace rest

/-! ## Characters -/

def isWhiteSpace (c : Char) : Bool := isWhiteSpaceUnit c.toNat

def trimEnd (text : String) : String := String.ofList (text.toList.reverse.dropWhile isWhiteSpace).reverse

def trim (text : String) : String := String.ofList ((text.toList.dropWhile isWhiteSpace).rdropWhile isWhiteSpace)

def isBlank (text : String) : Bool := text.toList.all isWhiteSpace

/-! ## Single spaces -/

def SingleSpaced (text : CodeUnits) : Prop := (∀ unit ∈ text, isWhiteSpaceUnit unit = true → unit = 0x20) ∧
    text.IsChain fun a b => ¬ (isWhiteSpaceUnit a = true ∧ isWhiteSpaceUnit b = true)

section

variable {text part : CodeUnits}

theorem SingleSpaced.of_part (h : SingleSpaced text) (hpart : part <:+: text) : SingleSpaced part :=
  ⟨fun unit hunit => h.1 unit (hpart.subset hunit), List.IsChain.infix h.2 hpart⟩

theorem head_collapseWhiteSpace (text : CodeUnits) {unit : ℕ} (h : (collapseWhiteSpace text).head? = some unit) :
    text.head?.any isWhiteSpaceUnit = isWhiteSpaceUnit unit := by
  induction text with
  | nil => contradiction
  | cons first rest ih =>
    rw [collapseWhiteSpace] at h
    rw [List.head?_cons, Option.any_some]
    by_cases hfirst : isWhiteSpaceUnit first = true
    · rw [if_pos hfirst] at h
      by_cases hrest : rest.head?.any isWhiteSpaceUnit = true
      · rw [if_pos hrest] at h
        rw [hfirst, ← ih h, hrest]
      · rw [if_neg hrest] at h
        cases h
        rw [hfirst]
        rfl
    · rw [if_neg hfirst] at h
      cases h
      rfl

theorem singleSpaced_collapseWhiteSpace (text : CodeUnits) : SingleSpaced (collapseWhiteSpace text) := by
  induction text with
  | nil => exact ⟨List.forall_mem_nil _, .nil⟩
  | cons first rest ih =>
    rw [collapseWhiteSpace]
    split_ifs with hfirst hrest
    · exact ih
    · refine ⟨?_, List.isChain_cons.2 ⟨?_, ih.2⟩⟩
      · intro unit hunit hspace
        obtain rfl | hlater := List.mem_cons.1 hunit
        · rfl
        · exact ih.1 unit hlater hspace
      · -- what follows the run is not white space
        rintro next hnext ⟨-, hspace⟩
        rw [head_collapseWhiteSpace rest hnext] at hrest
        exact hrest hspace
    · refine ⟨?_, List.isChain_cons.2 ⟨fun _ _ h => hfirst h.1, ih.2⟩⟩
      intro unit hunit hspace
      obtain rfl | hlater := List.mem_cons.1 hunit
      · exact absurd hspace hfirst
      · exact ih.1 unit hlater hspace

theorem SingleSpaced.collapse_eq (h : SingleSpaced text) : collapseWhiteSpace text = text := by
  induction text with
  | nil => rfl
  | cons first rest ih =>
    obtain ⟨hspaces, hchain⟩ := h
    obtain ⟨hhead, htail⟩ := List.isChain_cons.1 hchain
    have hrest := ih ⟨fun unit hunit => hspaces unit (List.mem_cons_of_mem _ hunit), htail⟩
    rw [collapseWhiteSpace, hrest]
    split_ifs with hfirst hnext
    · obtain ⟨next, hmem, hspace⟩ := (Option.any_eq_true _ _).1 hnext
      exact absurd ⟨hfirst, hspace⟩ (hhead next hmem)
    · rw [hspaces first List.mem_cons_self hfirst]
    · rfl

theorem mem_collapseWhiteSpace {unit : ℕ} (h : unit ∈ collapseWhiteSpace text) : unit = 0x20 ∨ unit ∈ text := by
  induction text with
  | nil => exact absurd h List.not_mem_nil
  | cons first rest ih =>
    rw [collapseWhiteSpace] at h
    split_ifs at h
    · exact (ih h).imp id (List.mem_cons_of_mem _)
    · obtain rfl | hlater := List.mem_cons.1 h
      · exact Or.inl rfl
      · exact (ih hlater).imp id (List.mem_cons_of_mem _)
    · obtain rfl | hlater := List.mem_cons.1 h
      · exact Or.inr List.mem_cons_self
      · exact (ih hlater).imp id (List.mem_cons_of_mem _)

theorem trimUnits_part (text : CodeUnits) : trimUnits text <:+: text :=
  (List.rdropWhile_prefix _ _).isInfix.trans (List.dropWhile_suffix _).isInfix

theorem trimUnits_eq_self_iff : trimUnits text = text ↔
    (∀ unit ∈ text.head?, isWhiteSpaceUnit unit = false) ∧ ∀ unit ∈ text.getLast?, isWhiteSpaceUnit unit = false := by
  have hfront : text.dropWhile isWhiteSpaceUnit = text ↔ ∀ unit ∈ text.head?, isWhiteSpaceUnit unit = false := by
    cases text with
    | nil => simp
    | cons first rest => simp
  have hback : text.rdropWhile isWhiteSpaceUnit = text ↔ ∀ unit ∈ text.getLast?, isWhiteSpaceUnit unit = false := by
    obtain rfl | ⟨start, last, rfl⟩ := List.eq_nil_or_concat text
    · simp
    · simp
  rw [← hfront, ← hback]
  constructor
  · intro htrim
    have hlength := (List.rdropWhile_prefix isWhiteSpaceUnit (text.dropWhile isWhiteSpaceUnit)).length_le
    unfold trimUnits at htrim
    rw [htrim] at hlength
    have hsame := (List.dropWhile_suffix isWhiteSpaceUnit).eq_of_length_le hlength
    exact ⟨hsame, by rwa [hsame] at htrim⟩
  · rintro ⟨hfront, hback⟩
    rw [trimUnits, hfront, hback]

theorem trimUnits_trimUnits (text : CodeUnits) : trimUnits (trimUnits text) = trimUnits text := by
  have hstart : (trimUnits text).dropWhile isWhiteSpaceUnit = trimUnits text := by
    rw [List.dropWhile_eq_self_iff]
    intro hlength
    -- the text that is left begins where its beginning was cut
    have hfront : trimUnits text <+: text.dropWhile isWhiteSpaceUnit := List.rdropWhile_prefix _ _
    have hlonger : 0 < (text.dropWhile isWhiteSpaceUnit).length := hlength.trans_le hfront.length_le
    rw [hfront.getElem hlength]
    exact List.dropWhile_eq_self_iff.1 (List.dropWhile_idempotent _ _) hlonger
  calc trimUnits (trimUnits text) = (trimUnits text).rdropWhile isWhiteSpaceUnit := by
        rw [trimUnits, hstart]
    _ = trimUnits text := List.rdropWhile_idempotent _ _

end

end OpenGeni.Lib
