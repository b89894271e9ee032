/-
Dropping what has no partner from a sequence of openings and closings.

Each element opens a key, closes one, leads to the element behind it, or does nothing. A
key may be opened again before it is closed, and closed again after. `tidy` drops

* a closing whose key has not been opened since it was last closed,
* an opening with nothing of its key behind it,
* a leader that leads to a dropped element.

What is left is always asked before it is answered (`tidy_asked`). It is answered after
it is asked, and tidying again changes nothing, exactly if no opening that is never closed
is followed by another of its key (`tidy_answered_iff`, `tidy_idem_iff`).
-/
import OpenGeni.Lib.Sift

namespace OpenGeni.Lib

inductive Label (κ : Type*)
  | opens (k : κ)
  | closes (k : κ)
  | leads
  | plain
deriving DecidableEq

variable {α κ : Type*} [DecidableEq κ]

def Label.serve (waiting : Finset κ) : Label κ → Finset κ
  | .opens k => insert k waiting
  | .closes k => waiting.erase k
  | _ => waiting

variable (label : α → Label κ)

def waiting (l : List α) : Finset κ := l.foldl (fun w a => (label a).serve w) ∅

/-- Whether the element, standing between `pre` and `post`, has no partner. -/
def unpaired (pre : List α) (a : α) (post : List α) : Bool := match label a with
  | .closes k => decide (k ∉ waiting label pre)
  | .opens k => post.all fun b => decide (label b ≠ .opens k) && decide (label b ≠ .closes k)
  | _ => false

/-- Whether the first element of the second list that does not lead on has no partner. -/
def strands : List α → List α → Bool
  | _, [] => false
  | pre, b :: post =>
    if label b = .leads then strands (pre ++ [b]) post else unpaired label pre b post

/-- Whether the element, standing between `pre` and `post`, is dropped. -/
def isDropped (pre : List α) (a : α) (post : List α) : Bool := match label a with
  | .leads => strands label (pre ++ [a]) post
  | _ => unpaired label pre a post

def tidy (l : List α) : List α := sift (fun pre a post => !isDropped label pre a post) l

/-! ## Conditions on a sequence -/

def Answered (k : κ) (l : List α) : Prop :=
  ∀ pre c post, l = pre ++ c :: post → label c = .opens k → ∃ b ∈ post, label b = .closes k

def Asked (k : κ) (l : List α) : Prop :=
  ∀ pre r post, l = pre ++ r :: post → label r = .closes k → ∃ b ∈ pre, label b = .opens k

/-- Every closing of the key is preceded by an opening it is the first to answer. -/
def Fresh (k : κ) (l : List α) : Prop := ∀ pre r post, l = pre ++ r :: post → label r = .closes k →
    ∃ m c m', pre = m ++ c :: m' ∧ label c = .opens k ∧ ∀ b ∈ m', label b ≠ .closes k

/-- No opening of the key that is never closed is followed by another. -/
def Unrepeated (k : κ) (l : List α) : Prop :=
  ∀ pre c post, l = pre ++ c :: post → label c = .opens k → (∀ b ∈ post, label b ≠ .closes k) →
    ∀ b ∈ post, label b ≠ .opens k

variable {label} {k : κ} {l pre post : List α} {a b c : α}

omit [DecidableEq κ] in
theorem Fresh.asked (h : Fresh label k l) : Asked label k l := by
  intro pre r post hl hr
  obtain ⟨m, c, m', rfl, hc, -⟩ := h pre r post hl hr
  exact ⟨c, by simp, hc⟩

/-! ## The keys that wait -/

theorem waiting_concat : waiting label (l ++ [a]) = (label a).serve (waiting label l) := by
  unfold waiting
  rw [List.foldl_append]
  rfl

/-- **A key waits** exactly if it was opened and has not been closed since. -/
theorem mem_waiting_iff : k ∈ waiting label l ↔
    ∃ m c m', l = m ++ c :: m' ∧ label c = .opens k ∧ ∀ b ∈ m', label b ≠ .closes k := by
  -- Induction from the right, as the keys are collected.
  induction l using List.reverseRecOn with
  | nil => simp [waiting]
  | append_singleton l a ih =>
    rw [waiting_concat]
    constructor
    · intro hk
      by_cases hopens : label a = .opens k
      · exact ⟨l, a, [], rfl, hopens, by simp⟩
      · -- It was waiting before, and `a` does not close it.
        have hbefore : k ∈ waiting label l ∧ label a ≠ .closes k := by
          cases hlabel : label a with
          | opens k' =>
            rw [hlabel] at hk hopens
            have hne : k ≠ k' := fun heq => hopens (heq ▸ rfl)
            exact ⟨(Finset.mem_insert.1 hk).resolve_left hne, by simp⟩
          | closes k' =>
            rw [hlabel] at hk
            obtain ⟨hne, hmem⟩ := Finset.mem_erase.1 hk
            exact ⟨hmem, by simpa using hne.symm⟩
          | leads | plain => exact ⟨by rwa [hlabel] at hk, by simp⟩
        obtain ⟨m, c, m', rfl, hc, hopen⟩ := ih.1 hbefore.1
        refine ⟨m, c, m' ++ [a], by simp, hc, ?_⟩
        intro b hb
        rcases List.mem_append.1 hb with hb | hb
        · exact hopen b hb
        · exact List.mem_singleton.1 hb ▸ hbefore.2
    · rintro ⟨m, c, m', hl, hc, hopen⟩
      rcases List.eq_nil_or_concat m' with rfl | ⟨m', d, rfl⟩
      · obtain ⟨rfl, hlast⟩ := List.append_inj' hl rfl
        obtain rfl : a = c := List.singleton_inj.1 hlast
        rw [hc]
        exact Finset.mem_insert_self k _
      · rw [List.concat_eq_append, ← List.cons_append, ← List.append_assoc] at hl
        obtain ⟨rfl, hlast⟩ := List.append_inj' hl rfl
        obtain rfl : a = d := List.singleton_inj.1 hlast
        rw [List.concat_eq_append] at hopen
        have hbefore : k ∈ waiting label (m ++ c :: m') :=
          ih.2 ⟨m, c, m', rfl, hc, fun b hb => hopen b (List.mem_append_left _ hb)⟩
        have hstill : label a ≠ .closes k := hopen a (by simp)
        cases hlabel : label a with
        | opens k' => exact Finset.mem_insert_of_mem hbefore
        | closes k' =>
          have hne : k ≠ k' := by
            rintro rfl
            exact hstill hlabel
          exact Finset.mem_erase.2 ⟨hne, hbefore⟩
        | leads | plain => exact hbefore

theorem mem_waiting_split (hc : label c = .opens k) (hlast : ∀ b ∈ post, label b ≠ .opens k) :
    k ∈ waiting label (pre ++ c :: post) ↔ ∀ b ∈ post, label b ≠ .closes k := by
  induction post using List.reverseRecOn with
  | nil =>
    rw [waiting_concat, hc]
    simp [Label.serve]
  | append_singleton post d ih =>
    have hbefore := ih fun b hb => hlast b (List.mem_append_left _ hb)
    have hd : label d ≠ .opens k := hlast d (by simp)
    have hassoc : pre ++ c :: (post ++ [d]) = (pre ++ c :: post) ++ [d] := by simp
    rw [hassoc, waiting_concat, List.forall_mem_append, List.forall_mem_singleton, ← hbefore]
    cases hlabel : label d with
    | opens k' =>
      have hne : k ≠ k' := fun heq => hd (heq ▸ hlabel)
      simp [Label.serve, hne]
    | closes k' => simp [Label.serve, and_comm, eq_comm]
    | leads | plain => simp [Label.serve]

theorem fresh_iff : Fresh label k l ↔
    ∀ pre r post, l = pre ++ r :: post → label r = .closes k → k ∈ waiting label pre := by
  unfold Fresh
  simp only [mem_waiting_iff]

/-! ## What is dropped -/

theorem unpaired_closes (h : label a = .closes k) : unpaired label pre a post = true ↔ k ∉ waiting label pre := by
  simp [unpaired, h]

theorem unpaired_opens (h : label a = .opens k) : unpaired label pre a post = true ↔
    ∀ b ∈ post, label b ≠ .opens k ∧ label b ≠ .closes k := by
  simp [unpaired, h]

theorem isDropped_of_ne_leads (h : label a ≠ .leads) : isDropped label pre a post = unpaired label pre a post := by
  unfold isDropped
  cases hlabel : label a with
  | leads => exact absurd hlabel h
  | _ => rfl

theorem strands_iff : strands label pre post = true ↔
    ∃ m b post', post = m ++ b :: post' ∧ (∀ d ∈ m, label d = .leads) ∧ label b ≠ .leads ∧
      unpaired label (pre ++ m) b post' = true := by
  induction post generalizing pre with
  | nil => simp [strands]
  | cons d post ih =>
    unfold strands
    split_ifs with hlead
    · rw [ih]
      constructor
      · rintro ⟨m, b, post', rfl, hm, hb, hun⟩
        refine ⟨d :: m, b, post', rfl, ?_, hb, by simpa using hun⟩
        intro d' hd'
        rcases List.mem_cons.1 hd' with rfl | hd'
        · exact hlead
        · exact hm d' hd'
      · rintro ⟨m, b, post', hpost, hm, hb, hun⟩
        cases m with
        | nil =>
          obtain ⟨rfl, rfl⟩ := List.cons_eq_cons.1 hpost
          exact absurd hlead hb
        | cons d' m =>
          obtain ⟨rfl, rfl⟩ := List.cons_eq_cons.1 hpost
          exact ⟨m, b, post', rfl, fun x hx => hm x (List.mem_cons_of_mem _ hx), hb, by simpa using hun⟩
    · constructor
      · intro hun
        exact ⟨[], d, post, rfl, by simp, hlead, by simpa using hun⟩
      · rintro ⟨m, b, post', hpost, hm, hb, hun⟩
        cases m with
        | nil =>
          obtain ⟨rfl, rfl⟩ := List.cons_eq_cons.1 hpost
          simpa using hun
        | cons d' m =>
          obtain ⟨rfl, -⟩ := List.cons_eq_cons.1 hpost
          exact absurd (hm d List.mem_cons_self) hlead

theorem keeps_opens (hc : label c = .opens k) (hpost : ∃ b ∈ post, label b = .opens k ∨ label b = .closes k) :
    (!isDropped label pre c post) = true := by
  rw [isDropped_of_ne_leads (by simp [hc]), Bool.not_eq_true', ← Bool.not_eq_true, unpaired_opens hc]
  intro hnone
  obtain ⟨b, hb, hlabel⟩ := hpost
  rcases hlabel with hlabel | hlabel
  · exact (hnone b hb).1 hlabel
  · exact (hnone b hb).2 hlabel

theorem opens_of_keeps (hc : label c = .opens k) (hkeep : (!isDropped label pre c post) = true) :
    ∃ b ∈ post, label b = .opens k ∨ label b = .closes k := by
  rw [isDropped_of_ne_leads (by simp [hc]), Bool.not_eq_true', ← Bool.not_eq_true, unpaired_opens hc] at hkeep
  by_contra hnone
  apply hkeep
  intro b hb
  exact ⟨fun h => hnone ⟨b, hb, Or.inl h⟩, fun h => hnone ⟨b, hb, Or.inr h⟩⟩

theorem keeps_closes (hr : label a = .closes k) : (!isDropped label pre a post) = true ↔ k ∈ waiting label pre := by
  rw [isDropped_of_ne_leads (by simp [hr]), Bool.not_eq_true', ← Bool.not_eq_true, unpaired_closes hr, not_not]

/-! ## What is left -/

/-- **Every closing left is the first to answer an opening that is left.** -/
theorem tidy_fresh (k : κ) (l : List α) : Fresh label k (tidy label l) := by
  intro p r q hout hr
  obtain ⟨pre, post, -, hkeep, rfl, -⟩ := sift_split hout
  obtain ⟨m, c, m', rfl, hc, hopen⟩ := mem_waiting_iff.1 ((keeps_closes hr).1 hkeep)
  -- The opening is kept, because the closing stands behind it.
  have hkeepc : (!isDropped label m c (m' ++ r :: post)) = true := keeps_opens hc ⟨r, by simp, Or.inr hr⟩
  exact ⟨_, c, _, siftIn_append_cons hkeepc, hc, fun b hb => hopen b (siftIn_sublist.subset hb)⟩

/-- **Every opening left is answered** exactly if none that is never closed is repeated. -/
theorem tidy_answered_iff : Answered label k (tidy label l) ↔ Unrepeated label k l := by
  constructor
  · rintro h pre c post rfl hc hnever b hb hopens
    -- The first of the two is kept, and nothing behind it closes the key.
    have hkeep : (!isDropped label pre c post) = true := keeps_opens hc ⟨b, hb, Or.inl hopens⟩
    obtain ⟨r, hr, hcloses⟩ := h _ c _ (sift_append_cons hkeep) hc
    exact hnever r (siftIn_sublist.subset hr) hcloses
  · intro h p c q hout hc
    obtain ⟨pre, post, rfl, hkeep, rfl, rfl⟩ := sift_split hout
    have hclosed : ∃ r ∈ post, label r = .closes k := by
      by_contra hnone
      have hnever : ∀ b ∈ post, label b ≠ .closes k := fun b hb hcl => hnone ⟨b, hb, hcl⟩
      obtain ⟨b, hb, hlabel⟩ := opens_of_keeps hc hkeep
      rcases hlabel with hlabel | hlabel
      · exact h pre c post rfl hc hnever b hb hlabel
      · exact hnever b hb hlabel
    -- The first closing behind the opening finds its key waiting.
    obtain ⟨r, m, m', rfl, hr, hfirst⟩ : ∃ r m m', post = m ++ r :: m' ∧ label r = .closes k ∧
        ∀ b ∈ m, label b ≠ .closes k := by
      have hsome : (post.find? fun b => decide (label b = .closes k)).isSome = true := by
        rw [List.find?_isSome]
        obtain ⟨r, hr, hcl⟩ := hclosed
        exact ⟨r, hr, by simpa using hcl⟩
      obtain ⟨r, hfind⟩ := Option.isSome_iff_exists.1 hsome
      obtain ⟨hr, m, m', rfl, hm⟩ := List.find?_eq_some_iff_append.1 hfind
      exact ⟨r, m, m', rfl, by simpa using hr, fun b hb => by simpa using hm b hb⟩
    refine ⟨r, ?_, hr⟩
    rw [mem_siftIn]
    refine ⟨m, m', rfl, ?_⟩
    rw [keeps_closes hr, mem_waiting_iff]
    exact ⟨pre, c, m, by simp, hc, hfirst⟩

omit [DecidableEq κ] in
theorem answered_of_followed (h : ∀ pre c post, l = pre ++ c :: post → label c = .opens k →
    ∃ b ∈ post, label b = .opens k ∨ label b = .closes k) : Answered label k l := by
  intro pre c post hl hc
  -- Induction on how much stands behind: behind the next opening it is less.
  induction hn : post.length using Nat.strong_induction_on generalizing pre c post with
  | _ n ih =>
    obtain ⟨b, hb, hopens | hcloses⟩ := h pre c post hl hc
    · obtain ⟨m, m', rfl⟩ := List.append_of_mem hb
      have hshort : m'.length < n := by
        rw [← hn, List.length_append, List.length_cons]
        omega
      obtain ⟨r, hr, hcloses⟩ := ih _ hshort (pre ++ c :: m) b m' (by simp [hl]) hopens rfl
      exact ⟨r, by simp [hr], hcloses⟩
    · exact ⟨b, hb, hcloses⟩

/-- **Nothing is dropped** exactly if every opening is answered and every closing fresh. -/
theorem tidy_eq_self_iff : tidy label l = l ↔ ∀ k, Answered label k l ∧ Fresh label k l := by
  unfold tidy
  rw [sift_eq_self_iff]
  constructor
  · intro h k
    constructor
    · apply answered_of_followed
      intro pre c post hl hc
      exact opens_of_keeps hc (h pre c post hl)
    · rw [fresh_iff]
      intro pre r post hl hr
      exact (keeps_closes hr).1 (h pre r post hl)
  · intro h pre a post hl
    -- Everything has its partner, so no leader is stranded either.
    have hpaired : ∀ pre a post, l = pre ++ a :: post → unpaired label pre a post = false := by
      intro pre a post hl
      cases hlabel : label a with
      | opens k =>
        rw [← Bool.not_eq_true, unpaired_opens hlabel]
        intro hnone
        obtain ⟨b, hb, hcl⟩ := (h k).1 pre a post hl hlabel
        exact (hnone b hb).2 hcl
      | closes k =>
        rw [← Bool.not_eq_true, unpaired_closes hlabel, not_not]
        exact fresh_iff.1 (h k).2 pre a post hl hlabel
      | leads | plain => simp [unpaired, hlabel]
    rw [Bool.not_eq_true']
    by_cases hlead : label a = .leads
    · unfold isDropped
      rw [hlead]
      rw [← Bool.not_eq_true, strands_iff]
      rintro ⟨m, b, post', rfl, -, -, hun⟩
      rw [hpaired (pre ++ [a] ++ m) b post' (by simp [hl])] at hun
      simp at hun
    · rw [isDropped_of_ne_leads hlead]
      exact hpaired pre a post hl

/-- **Tidying twice** is tidying once exactly if no opening that is never closed is
repeated. -/
theorem tidy_idem_iff : tidy label (tidy label l) = tidy label l ↔ ∀ k, Unrepeated label k l := by
  rw [tidy_eq_self_iff]
  constructor
  · intro h k
    exact tidy_answered_iff.1 (h k).1
  · intro h k
    exact ⟨tidy_answered_iff.2 (h k), tidy_fresh k l⟩

theorem tidy_sublist : (tidy label l).Sublist l := siftIn_sublist

/-! ## Parts of a sequence -/

omit [DecidableEq κ] in
theorem split_of_notMem {tail : List α} (h : l ++ tail = pre ++ a :: post) (ha : a ∉ tail) :
    ∃ rest, l = pre ++ a :: rest ∧ post = rest ++ tail := by
  obtain ⟨rest, -, htail⟩ | ⟨rest, hl, hpost⟩ := List.append_eq_append_iff.1 h
  · exact absurd (by rw [htail]; simp) ha
  · cases rest with
    | nil => exact absurd (by rw [← List.nil_append tail, ← hpost]; exact List.mem_cons_self) ha
    | cons b rest =>
      obtain ⟨rfl, rfl⟩ := List.cons.inj hpost
      exact ⟨rest, hl, rfl⟩

section Tail

variable {tail : List α} (htail : ∀ b ∈ tail, label b = .plain)

include htail

omit [DecidableEq κ] in
theorem Answered.append_plain (h : Answered label k l) : Answered label k (l ++ tail) := by
  intro pre c post hsplit hc
  obtain ⟨rest, hl, rfl⟩ := split_of_notMem hsplit fun hmem => by simp [htail c hmem] at hc
  obtain ⟨b, hb, hcloses⟩ := h pre c rest hl hc
  exact ⟨b, List.mem_append_left _ hb, hcloses⟩

omit [DecidableEq κ] in
theorem Fresh.append_plain (h : Fresh label k l) : Fresh label k (l ++ tail) := by
  intro pre r post hsplit hr
  obtain ⟨rest, hl, -⟩ := split_of_notMem hsplit fun hmem => by simp [htail r hmem] at hr
  exact h pre r rest hl hr

end Tail

omit [DecidableEq κ] in
theorem Answered.of_append {front : List α} (h : Answered label k (front ++ l)) : Answered label k l := by
  intro pre c post hl hc
  exact h (front ++ pre) c post (by rw [hl, List.append_assoc]) hc

omit [DecidableEq κ] in
theorem Fresh.of_append {front : List α} (h : Fresh label k (front ++ l)) (hasked : Asked label k l) :
    Fresh label k l := by
  intro pre r post hl hr
  obtain ⟨m, c, m', hsplit, hc, hnone⟩ := h (front ++ pre) r post (by rw [hl, List.append_assoc]) hr
  obtain ⟨rest, -, hpre⟩ | ⟨rest, -, hbehind⟩ := List.append_eq_append_iff.1 hsplit
  · exact ⟨rest, c, m', hpre, hc, hnone⟩
  · -- the opening that the closing answers lies before the cut, and so there is no closing up to here
    obtain ⟨b, hb, hopens⟩ := hasked pre r post hl hr
    obtain ⟨n, n', rfl⟩ := List.append_of_mem hb
    refine ⟨n, b, n', rfl, hopens, fun d hd => ?_⟩
    have hmem : d ∈ c :: m' := by
      rw [hbehind]
      simp [hd]
    obtain rfl | hmem := List.mem_cons.1 hmem
    · simp [hc]
    · exact hnone d hmem

end OpenGeni.Lib
