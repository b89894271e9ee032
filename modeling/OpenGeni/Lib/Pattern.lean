/-
Regular expressions whose quantifiers stand at classes of code units.

A pattern is matched by backtracking: at a position it has a list of ends, in the order in which
a matcher tries them, so its match is the first. Greedy and lazy repetition differ in that order
only. `replaceAll` goes over a text from left to right, as the `replace` of a global expression
does that matches no empty text.
-/
import OpenGeni.Lib.JsString

namespace OpenGeni.Lib

structure Position where
  before : Option ℕ
  after : CodeUnits

def Position.advance (position : Position) (count : ℕ) : Position :=
  { before := if count = 0 then position.before else position.after[count - 1]?
    after := position.after.drop count }

inductive Pattern
  | empty
  | wordBoundary
  /-- At least so many units of the class, and at most so many, if there is a limit. -/
  | repeats (units : ℕ → Bool) (atLeast : ℕ) (atMost : Option ℕ) (lazy : Bool)
  | seq (first second : Pattern)
  | either (first second : Pattern)

/-- `\w`. -/
def isWordUnit (unit : ℕ) : Bool := (0x30 ≤ unit && unit ≤ 0x39) || (0x41 ≤ unit && unit ≤ 0x5a) || unit == 0x5f ||
    (0x61 ≤ unit && unit ≤ 0x7a)

namespace Pattern

/-- The ends of the pattern at a position, the preferred ones first. -/
def ends : Pattern → Position → List Position
  | .empty, position => [position]
  | .wordBoundary, position =>
    if position.before.any isWordUnit = position.after.head?.any isWordUnit then [] else [position]
  | .repeats units atLeast atMost lazy, position =>
    let run := (position.after.takeWhile units).length
    let longest := atMost.elim run (min run)
    let counts := (List.range (longest + 1)).filter (atLeast ≤ ·)
    (if lazy then counts else counts.reverse).map position.advance
  | .seq first second, position => (first.ends position).flatMap second.ends
  | .either first second, position => first.ends position ++ second.ends position

def one (units : ℕ → Bool) : Pattern := .repeats units 1 (some 1) false

def literal (text : String) : Pattern :=
  (codeUnits text).foldr (fun unit rest => .seq (one (· == unit)) rest) .empty

def upperUnit (unit : ℕ) : ℕ := if 0x61 ≤ unit ∧ unit ≤ 0x7a then unit - 0x20 else unit

def literalIgnoringCase (text : String) : Pattern :=
  (codeUnits text).foldr (fun unit rest => .seq (one fun other => upperUnit other == upperUnit unit) rest) .empty

def sequence (patterns : List Pattern) : Pattern := patterns.foldr .seq .empty

/-- The members one after the other, from `fuel` units or fewer on; and how many were replaced. -/
def replaceFrom (pattern : Pattern) (replacement : CodeUnits) : ℕ → Position → CodeUnits × ℕ
  | 0, position => (position.after, 0)
  | fuel + 1, position =>
    match position.after with
    | [] => ([], 0)
    | unit :: rest =>
      match (pattern.ends position).head? with
      | some next =>
        let (text, count) := replaceFrom pattern replacement fuel next
        (replacement ++ text, count + 1)
      | none =>
        let (text, count) := replaceFrom pattern replacement fuel { before := some unit, after := rest }
        (unit :: text, count)

def replaceAll (pattern : Pattern) (replacement text : CodeUnits) : CodeUnits × ℕ :=
  replaceFrom pattern replacement text.length { before := none, after := text }

theorem ends_suffix (pattern : Pattern) (position : Position) :
    ∀ next ∈ pattern.ends position, next.after <:+ position.after := by
  induction pattern generalizing position with
  | empty =>
    intro next hnext
    obtain rfl := List.mem_singleton.1 hnext
    exact List.suffix_refl _
  | wordBoundary =>
    intro next hnext
    rw [ends] at hnext
    split_ifs at hnext
    · exact absurd hnext List.not_mem_nil
    · obtain rfl := List.mem_singleton.1 hnext
      exact List.suffix_refl _
  | repeats units atLeast atMost lazy =>
    intro next hnext
    obtain ⟨count, -, rfl⟩ := List.mem_map.1 hnext
    exact List.drop_suffix _ _
  | seq first second ihFirst ihSecond =>
    intro next hnext
    obtain ⟨middle, hmiddle, hnext⟩ := List.mem_flatMap.1 hnext
    exact (ihSecond middle next hnext).trans (ihFirst position middle hmiddle)
  | either first second ihFirst ihSecond =>
    intro next hnext
    obtain hfirst | hsecond := List.mem_append.1 hnext
    · exact ihFirst position next hfirst
    · exact ihSecond position next hsecond

theorem mem_replaceFrom {pattern : Pattern} {replacement : CodeUnits} {unit : ℕ} (fuel : ℕ) (position : Position)
    (h : unit ∈ (replaceFrom pattern replacement fuel position).1) : unit ∈ replacement ∨ unit ∈ position.after := by
  induction fuel generalizing position with
  | zero => exact Or.inr h
  | succ fuel ih =>
    unfold replaceFrom at h
    split at h
    · exact absurd h List.not_mem_nil
    · next first rest hafter =>
        split at h
        · next next hnext =>
            obtain hreplaced | hlater := List.mem_append.1 h
            · exact Or.inl hreplaced
            · have hsuffix := ends_suffix pattern position next (List.mem_of_mem_head? hnext)
              exact (ih next hlater).imp id fun hmem => hsuffix.subset hmem
        · rw [hafter]
          obtain rfl | hlater := List.mem_cons.1 h
          · exact Or.inr List.mem_cons_self
          · exact (ih _ hlater).imp id (List.mem_cons_of_mem _)

theorem mem_replaceAll {pattern : Pattern} {replacement text : CodeUnits} {unit : ℕ}
    (h : unit ∈ (pattern.replaceAll replacement text).1) : unit ∈ replacement ∨ unit ∈ text :=
  mem_replaceFrom text.length { before := none, after := text } h

end Pattern

end OpenGeni.Lib
