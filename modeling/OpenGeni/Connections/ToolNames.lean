/-
The names of connector tools (`packages/codex/src/mcp-sanitize.ts`).

A listed name is made legal, capped and, where another tool already has the outcome, numbered. Which
tool a name stands for is never given up, so every name leads back to its tool. A tool that was
numbered gets its next number each time it is listed again.
-/
import OpenGeni.Lib.Run
import OpenGeni.Runtime.OpIds

namespace OpenGeni.Connections

open OpenGeni.Lib OpenGeni.Runtime

/-! ## Legal names -/

/-- A digit as `toString` writes it, up to the radix 36. -/
def digitUnit (digit : ℕ) : UInt16 := UInt16.ofNat (if digit < 10 then 48 + digit else 87 + digit)

/-- `n.toString(radix)`. -/
def numeral (radix n : ℕ) : JsString := if n = 0 then [48] else ((Nat.digits radix n).map digitUnit).reverse

/-- `text.slice(0, stop)`: a negative `stop` counts from the end. -/
def sliceTo (text : JsString) (stop : ℤ) : JsString :=
  text.take (if stop < 0 then stop + text.length else stop).toNat

def EFFECTIVE_MAX_TOOL_NAME_LEN : ℕ := 64 - ("codex_apps".length + "__".length)

/-- `VALID_TOOL_NAME.test(name)`. -/
def validToolName (name : JsString) : Bool := !name.isEmpty && name.all isTokenUnit

def shortHash (input : JsString) : JsString :=
  numeral 36 (input.foldl (fun h unit => (h * 33 + unit.toNat) % 2 ^ 32) 5381)

def capLength (candidate original : JsString) : JsString :=
  if candidate.length ≤ EFFECTIVE_MAX_TOOL_NAME_LEN then candidate
  else
    let suffix := 95 :: shortHash original
    candidate.take (EFFECTIVE_MAX_TOOL_NAME_LEN - suffix.length) ++ suffix

/-- The name a tool gets where no other tool has it. -/
def candidateOf (original : JsString) : JsString :=
  let replaced := original.map fun unit => if isTokenUnit unit then unit else 95
  capLength (if validToolName original then original
    else if replaced.isEmpty then asciiUnits "tool".toList else replaced) original

/-- The name with the suffix `_n`, capped. -/
def numbered (base : JsString) (n : ℕ) : JsString := let suffix := 95 :: numeral 10 n
  (if base.length + suffix.length > EFFECTIVE_MAX_TOOL_NAME_LEN then
    sliceTo base ((EFFECTIVE_MAX_TOOL_NAME_LEN : ℤ) - suffix.length) else base) ++ suffix

section

variable {n : ℕ} {unit : UInt16}

theorem mem_numeral {radix : ℕ} (hradix : 1 < radix ∧ radix ≤ 36) (h : unit ∈ numeral radix n) :
    isTokenUnit unit = true ∧ unit ≠ 95 := by
  have hdigits : ∀ d < 36, isTokenUnit (digitUnit d) = true ∧ digitUnit d ≠ 95 := by decide
  rw [numeral] at h
  split at h
  · rw [List.mem_singleton.1 h]
    decide
  · obtain ⟨d, hd, rfl⟩ := List.mem_map.1 (List.mem_reverse.1 h)
    exact hdigits d ((Nat.digits_lt_base hradix.1 hd).trans_le hradix.2)

theorem length_numeral_le {radix k : ℕ} (hradix : 1 < radix) (hk : 0 < k) (h : n < radix ^ k) :
    (numeral radix n).length ≤ k := by
  rw [numeral]
  split
  · exact hk
  · rw [List.length_reverse, List.length_map]
    exact (Nat.digits_length_le_iff hradix n).2 h

theorem numeral_injective {m : ℕ} (hn : n ≠ 0) (hm : m ≠ 0) (h : numeral 10 n = numeral 10 m) : n = m := by
  have hback : ∀ d < 10, (digitUnit d).toNat - 48 = d := by decide
  have hdigits (k : ℕ) : ((Nat.digits 10 k).map digitUnit).map (·.toNat - 48) = Nat.digits 10 k := by
    rw [List.map_map]
    refine (List.map_congr_left fun d hd => ?_).trans (List.map_id _)
    exact hback d (Nat.digits_lt_base (by decide) hd)
  rw [numeral, numeral, if_neg hn, if_neg hm, List.reverse_inj] at h
  rw [← Nat.digits_inj_iff, ← hdigits n, ← hdigits m, h]

end

/-! ## The mapper -/

theorem numbered_injective (base : JsString) : Function.Injective fun k => numbered base (2 + k) := by
  intro k l h
  -- the digits of the number are what stands behind the last underscore
  have hdigits (stem : JsString) (n : ℕ) : (stem ++ 95 :: numeral 10 n).rtakeWhile (· != 95) = numeral 10 n := by
    have hnone : ∀ unit ∈ (numeral 10 n).reverse, (unit != 95) = true := fun unit hunit =>
      bne_iff_ne.2 (mem_numeral (by decide) (List.mem_reverse.1 hunit)).2
    rw [List.rtakeWhile, List.reverse_append, List.reverse_cons, List.append_assoc, List.singleton_append,
      List.takeWhile_append_of_pos hnone, List.takeWhile_cons_of_neg (by decide), List.append_nil,
      List.reverse_reverse]
  have hn := congrArg (List.rtakeWhile (· != 95)) h
  dsimp only [numbered] at hn
  rw [hdigits, hdigits] at hn
  have := numeral_injective (by omega) (by omega) hn
  omega

theorem exists_free (used : List JsString) (base : JsString) : ∃ k ≤ used.length, numbered base (2 + k) ∉ used := by
  by_contra! hno
  have hcard := Finset.card_le_card_of_injOn (s := Finset.range (used.length + 1)) (t := used.toFinset)
    (fun k => numbered base (2 + k))
    (fun k hk => List.mem_toFinset.2 (hno k (Nat.lt_succ_iff.1 (Finset.mem_range.1 hk))))
    (numbered_injective base).injOn
  have hdistinct := used.toFinset_card_le
  rw [Finset.card_range] at hcard
  omega

structure ToolNameMapper where
  /-- The last entry set comes first. -/
  sanitizedToOriginal : List (JsString × JsString) := []
  used : List JsString := []

namespace ToolNameMapper

def toOriginal (m : ToolNameMapper) (sanitized : JsString) : Option JsString :=
  m.sanitizedToOriginal.lookup sanitized

/-- The loop's number, from `n` on. It need not run longer than there are names in use. -/
def freeNumber (m : ToolNameMapper) (base : JsString) : ℕ → ℕ → ℕ
  | 0, n => n
  | fuel + 1, n => if m.used.contains (numbered base n) then m.freeNumber base fuel (n + 1) else n

def nameFor (m : ToolNameMapper) (original : JsString) : JsString := let candidate := candidateOf original
  if m.used.contains candidate && m.toOriginal candidate != some original then
    numbered candidate (m.freeNumber candidate m.used.length 2)
  else candidate

def sanitize (m : ToolNameMapper) (original : JsString) : JsString × ToolNameMapper :=
  let name := m.nameFor original
  (name, { sanitizedToOriginal := (name, original) :: m.sanitizedToOriginal, used := name :: m.used })

/-- The tool that a call of the name reaches (`remapToolCallRequestBody`). -/
def remapToolCall (m : ToolNameMapper) (name : JsString) : JsString := (m.toOriginal name).getD name

theorem freeNumber_free {m : ToolNameMapper} {base : JsString} {fuel n k : ℕ} (hk : k ≤ fuel)
    (hfree : numbered base (n + k) ∉ m.used) :
    numbered base (m.freeNumber base fuel n) ∉ m.used ∧ m.freeNumber base fuel n ≤ n + fuel := by
  induction fuel generalizing n k with
  | zero =>
    obtain rfl : k = 0 := Nat.le_zero.1 hk
    exact ⟨hfree, le_rfl⟩
  | succ fuel ih =>
    rw [freeNumber]
    split_ifs with hused
    · obtain _ | k := k
      · exact absurd (List.contains_iff_mem.1 hused) hfree
      · have hnext := ih (n := n + 1) (Nat.le_of_succ_le_succ hk) (by rwa [Nat.add_right_comm])
        exact ⟨hnext.1, by omega⟩
    · exact ⟨fun hmem => hused (List.contains_iff_mem.2 hmem), Nat.le_add_right _ _⟩

end ToolNameMapper

/-- The mapper and, in the order of the listings, each tool listed so far with the name it got. -/
structure Listings where
  mapper : ToolNameMapper := {}
  tools : List (JsString × JsString) := []

/-- `sanitizeToolsInRpcMessage` comes to a tool. Memory ends long before the bound does. -/
def Listings.step (s : Listings) (original : JsString) : Option Listings := if s.mapper.used.length < 10 ^ 50 then
    let (name, mapper) := s.mapper.sanitize original
    some { mapper, tools := s.tools ++ [(original, name)] }
  else none

/-! ## What the mapper keeps -/

/-- A name the Responses API takes, with room for the runtime's prefix. -/
def LegalToolName (name : JsString) : Prop := validToolName name = true ∧ name.length ≤ EFFECTIVE_MAX_TOOL_NAME_LEN

section

variable {original stem : JsString} {n : ℕ}

theorem validToolName_suffixed {radix : ℕ} (hradix : 1 < radix ∧ radix ≤ 36)
    (hstem : ∀ unit ∈ stem, isTokenUnit unit = true) :
    validToolName (stem ++ 95 :: numeral radix n) = true := by
  simp only [validToolName, Bool.and_eq_true, List.all_eq_true]
  refine ⟨by simp, fun unit hunit => ?_⟩
  obtain h | h | h := (List.mem_append.1 hunit).imp_right List.mem_cons.1
  · exact hstem unit h
  · rw [h]
    decide
  · exact (mem_numeral hradix h).1

theorem mem_of_valid (h : validToolName stem = true) : ∀ unit ∈ stem, isTokenUnit unit = true := by
  simp only [validToolName, Bool.and_eq_true, List.all_eq_true] at h
  exact h.2

theorem shortHash_length (original : JsString) : (shortHash original).length ≤ 7 := by
  refine length_numeral_le (by decide) (by decide) (lt_of_lt_of_le ?_ (by decide : 2 ^ 32 ≤ 36 ^ 7))
  induction original using List.reverseRecOn with
  | nil => decide
  | append_singleton rest unit _ =>
    rw [List.foldl_append]
    exact Nat.mod_lt _ (by decide)

theorem legal_candidateOf (original : JsString) : LegalToolName (candidateOf original) := by
  have hvalid : ∀ legal : JsString, validToolName legal = true → LegalToolName (capLength legal original) := by
    intro legal h
    rw [capLength]
    split_ifs with hlen
    · exact ⟨h, hlen⟩
    · refine ⟨validToolName_suffixed (by decide) fun unit hunit =>
        mem_of_valid h unit (List.mem_of_mem_take hunit), ?_⟩
      have hhash := shortHash_length original
      have hmax : EFFECTIVE_MAX_TOOL_NAME_LEN = 52 := by decide
      simp only [List.length_append, List.length_take, List.length_cons]
      omega
  refine hvalid _ ?_
  split_ifs with horiginal hempty
  · exact horiginal
  · decide
  · rw [validToolName, Bool.and_eq_true, List.all_eq_true]
    refine ⟨by simpa using hempty, fun unit hunit => ?_⟩
    obtain ⟨u, -, rfl⟩ := List.mem_map.1 hunit
    split_ifs with hu
    · exact hu
    · decide

theorem legal_numbered (h : LegalToolName stem) (hn : n < 10 ^ 51) : LegalToolName (numbered stem n) := by
  have hdigits := length_numeral_le (by decide : 1 < 10) (by decide : 0 < 51) hn
  have hmax : EFFECTIVE_MAX_TOOL_NAME_LEN = 52 := by decide
  refine ⟨validToolName_suffixed (by decide) fun unit hunit => mem_of_valid h.1 unit ?_, ?_⟩
  · split_ifs at hunit
    · exact List.mem_of_mem_take hunit
    · exact hunit
  · rw [numbered, List.length_append, List.length_cons]
    split_ifs with hlong
    · rw [sliceTo, if_neg (by omega), List.length_take]
      omega
    · omega

end

structure Listings.Kept (s : Listings) : Prop where
  used : ∀ name, name ∈ s.mapper.used ↔ (s.mapper.toOriginal name).isSome
  leads : ∀ tool ∈ s.tools, s.mapper.toOriginal tool.2 = some tool.1
  legal : ∀ tool ∈ s.tools, LegalToolName tool.2
  /-- A tool without its own candidate found it taken. -/
  taken : ∀ tool ∈ s.tools, tool.2 = candidateOf tool.1 ∨
    ∃ other, other ≠ tool.1 ∧ s.mapper.toOriginal (candidateOf tool.1) = some other

/-- What is promised of the names of a sequence of listings. -/
structure Listings.Faithful (s : Listings) : Prop where
  legal : ∀ tool ∈ s.tools, LegalToolName tool.2
  unique : ∀ a ∈ s.tools, ∀ b ∈ s.tools, a.2 = b.2 → a.1 = b.1
  leadsBack : ∀ tool ∈ s.tools, s.mapper.remapToolCall tool.2 = tool.1
  stable : ∀ a ∈ s.tools, ∀ b ∈ s.tools, a.1 = b.1 → a.2 = b.2

/-- A tool that was listed before finds its candidate recorded for itself. -/
def Listings.OwnCandidate (s : Listings) (original : JsString) : Prop :=
  original ∈ s.tools.map Prod.fst → s.mapper.toOriginal (candidateOf original) = some original

namespace Listings

variable {s t : Listings} {original : JsString}

/-- The name is the tool's own already, or no tool has it. -/
theorem Kept.nameFor (h : s.Kept) (original : JsString) : (s.mapper.nameFor original = candidateOf original ∧
        (s.mapper.toOriginal (candidateOf original) = some original ∨ candidateOf original ∉ s.mapper.used)) ∨
      (s.mapper.nameFor original ∉ s.mapper.used ∧
        ∃ n < 2 + s.mapper.used.length + 1, s.mapper.nameFor original = numbered (candidateOf original) n ∧
        ∃ other, other ≠ original ∧ s.mapper.toOriginal (candidateOf original) = some other) := by
  rw [ToolNameMapper.nameFor]
  split_ifs with htaken
  · rw [Bool.and_eq_true, List.contains_iff_mem, bne_iff_ne] at htaken
    obtain ⟨k, hk, hfree⟩ := exists_free s.mapper.used (candidateOf original)
    obtain ⟨hfree', hle⟩ := ToolNameMapper.freeNumber_free hk hfree
    obtain ⟨other, hother⟩ := Option.isSome_iff_exists.1 ((h.used _).1 htaken.1)
    exact .inr ⟨hfree', _, Nat.lt_succ_of_le hle, rfl, other, fun heq => htaken.2 (heq ▸ hother), hother⟩
  · refine .inl ⟨rfl, ?_⟩
    by_cases hused : candidateOf original ∈ s.mapper.used
    · exact .inl (by simpa [hused] using htaken)
    · exact .inr hused

theorem step_eq (h : s.step original = some t) : s.mapper.used.length < 10 ^ 50 ∧
    t = { mapper := (s.mapper.sanitize original).2, tools := s.tools ++ [(original, s.mapper.nameFor original)] } := by
  rw [step] at h
  split_ifs at h with hroom
  exact ⟨hroom, (Option.some.inj h).symm⟩

theorem toOriginal_sanitize (m : ToolNameMapper) (original name : JsString) :
    (m.sanitize original).2.toOriginal name = if name = m.nameFor original then some original else m.toOriginal name := by
  rw [ToolNameMapper.toOriginal, ToolNameMapper.sanitize, List.lookup_cons]
  split_ifs with hname
  · rw [hname, beq_self_eq_true]
  · rw [beq_false_of_ne hname]
    rfl

theorem Kept.step (h : s.Kept) (hstep : s.step original = some t) : t.Kept := by
  obtain ⟨hroom, rfl⟩ := step_eq hstep
  -- a recorded tool keeps its name
  have hstays {name tool : JsString} (hname : s.mapper.toOriginal name = some tool) :
      (s.mapper.sanitize original).2.toOriginal name = some tool := by
    rw [toOriginal_sanitize]
    split_ifs with heq
    · have hused : name ∈ s.mapper.used := (h.used name).2 (hname ▸ rfl)
      obtain ⟨hcandidate, hown | hfree⟩ | ⟨hfree, -⟩ := h.nameFor original
      · rw [← hown, ← hcandidate, ← heq, hname]
      · exact absurd (heq.trans hcandidate ▸ hused) hfree
      · exact absurd (heq ▸ hused) hfree
    · exact hname
  have hself : (s.mapper.sanitize original).2.toOriginal (s.mapper.nameFor original) = some original := by
    rw [toOriginal_sanitize, if_pos rfl]
  refine ⟨fun name => ?_, ?_, ?_, ?_⟩
  · rw [toOriginal_sanitize]
    show name ∈ s.mapper.nameFor original :: s.mapper.used ↔ _
    rw [List.mem_cons, h.used name]
    split_ifs with heq <;> simp [heq]
  · refine List.forall_mem_append.2 ⟨fun tool htool => hstays (h.leads tool htool), ?_⟩
    exact List.forall_mem_singleton.2 hself
  · refine List.forall_mem_append.2 ⟨h.legal, List.forall_mem_singleton.2 ?_⟩
    obtain ⟨hcandidate, -⟩ | ⟨-, n, hn, hname, -⟩ := h.nameFor original
    · exact hcandidate ▸ legal_candidateOf original
    · exact hname ▸ legal_numbered (legal_candidateOf original) (by omega)
  · refine List.forall_mem_append.2 ⟨fun tool htool => ?_, List.forall_mem_singleton.2 ?_⟩
    · exact (h.taken tool htool).imp_right fun ⟨other, hne, hother⟩ => ⟨other, hne, hstays hother⟩
    · obtain ⟨hcandidate, -⟩ | ⟨-, n, -, -, other, hne, hother⟩ := h.nameFor original
      · exact .inl hcandidate
      · exact .inr ⟨other, hne, hstays hother⟩

end Listings

/-- **Connector tool names are legal, unique and reversible, and stable exactly as long as no tool that
another one has displaced from its candidate is listed again.** -/
theorem tool_names_faithful_iff (originals : List JsString) :
    EachState (fun s e t => Listings.step s e = some t) Listings.Faithful {} originals ↔
      EachStep (fun s e t => Listings.step s e = some t) Listings.OwnCandidate {} originals := by
  refine eachState_iff_eachStep (P := fun s => s.Kept ∧ s.Faithful) (fun _ h => h.2) ?_ ?_ ?_
  · rintro s original t hstep ⟨hkept, hfaithful⟩ hown
    have hkept' := hkept.step hstep
    obtain ⟨-, rfl⟩ := Listings.step_eq hstep
    have hagain : ∀ tool ∈ s.tools, tool.1 = original → tool.2 = s.mapper.nameFor original := by
      rintro tool htool rfl
      have howned := hown (List.mem_map_of_mem htool)
      have hfirst : tool.2 = candidateOf tool.1 := (hkept.taken tool htool).resolve_right
        fun ⟨other, hne, hother⟩ => hne (Option.some.inj (hother.symm.trans howned))
      obtain ⟨hcandidate, -⟩ | ⟨-, n, -, -, other, hne, hother⟩ := hkept.nameFor tool.1
      · rw [hfirst, hcandidate]
      · exact absurd (Option.some.inj (hother.symm.trans howned)) hne
    refine ⟨hkept', hkept'.legal, fun a ha b hb heq => ?_, fun tool htool => ?_, ?_⟩
    · exact Option.some.inj ((hkept'.leads a ha).symm.trans ((congrArg _ heq).trans (hkept'.leads b hb)))
    · rw [ToolNameMapper.remapToolCall, hkept'.leads tool htool, Option.getD_some]
    · simp only [List.mem_append, List.mem_singleton]
      rintro a (ha | rfl) b (hb | rfl) heq
      · exact hfaithful.stable a ha b hb heq
      · exact hagain a ha heq
      · exact (hagain b hb heq.symm).symm
      · rfl
  · rintro s original t hstep ⟨hkept, -⟩ hfaithful hlisted
    obtain ⟨-, rfl⟩ := Listings.step_eq hstep
    obtain ⟨tool, htool, rfl⟩ := List.mem_map.1 hlisted
    have hsame : tool.2 = s.mapper.nameFor tool.1 := hfaithful.stable tool (List.mem_append_left _ htool) _
        (List.mem_append_right _ (List.mem_singleton_self _)) rfl
    have hused : s.mapper.nameFor tool.1 ∈ s.mapper.used :=
      hsame ▸ (hkept.used tool.2).2 (by rw [hkept.leads tool htool]; rfl)
    obtain ⟨hcandidate, hown | hfree⟩ | ⟨hfree, -⟩ := hkept.nameFor tool.1
    · exact hown
    · exact absurd (hcandidate ▸ hused) hfree
    · exact absurd hused hfree
  · exact ⟨⟨fun _ => by simp [ToolNameMapper.toOriginal], by simp, by simp, by simp⟩, by simp, by simp, by simp, by simp⟩

/-- A tool displaced by another one's sanitized name is renamed when it is listed again. -/
theorem displaced_tool_renamed : ¬ EachState (fun s e t => Listings.step s e = some t) Listings.Faithful {}
    (["a.b", "a_b", "a_b"].map fun name => asciiUnits name.toList) := by
  have hplay : ∃ t ∈ play Listings.step {} (["a.b", "a_b", "a_b"].map fun name => asciiUnits name.toList),
      ∃ a ∈ t.tools, ∃ b ∈ t.tools, a.1 = b.1 ∧ a.2 ≠ b.2 := by decide +kernel
  obtain ⟨t, ht, a, ha, b, hb, heq, hne⟩ := hplay
  exact not_eachState_of_play ⟨t, ht, fun h => hne (h.stable a ha b hb heq)⟩

end OpenGeni.Connections
