/-
Cutting a document into chunks (`packages/documents/src/index.ts`, `chunkText`).

A paragraph that is too long is cut behind the last space that is not too early, or at the limit if
there is none. The parts are put together with spaces as long as they fit; where one does not, the
next chunk starts with the end of the one before and a space, if there is room.

So a chunk repeats an end of the chunk before and the space behind it, and nothing else is added or
lost, also where a word was cut.
-/
import OpenGeni.Lib.JsString

namespace OpenGeni.Documents

open OpenGeni.Lib

/-! ## The model -/

structure ChunkSizes where
  maxChars : ℕ
  overlapChars : ℕ
  fits : overlapChars < maxChars

/-- `text.replace(/\r\n/g, "\n")`. -/
def joinLineEnds : CodeUnits → CodeUnits
  | 0x0d :: 0x0a :: rest => 0x0a :: joinLineEnds rest
  | unit :: rest => unit :: joinLineEnds rest
  | [] => []

/-- `text.replace(/[ \t]+/g, " ")`. -/
def collapseBlanks : CodeUnits → CodeUnits
  | [] => []
  | unit :: rest =>
    if unit = 0x20 ∨ unit = 9 then
      if rest.head?.any fun next => next == 0x20 || next == 9 then collapseBlanks rest else 0x20 :: collapseBlanks rest
    else unit :: collapseBlanks rest

/-- `text.split(/\n{2,}/)`; `inBreak` tells if the last unit was a line end of a break. -/
def splitBlankLines (part : CodeUnits) : Bool → CodeUnits → List CodeUnits
  | _, [] => [part]
  | true, 0x0a :: rest => splitBlankLines part true rest
  | _, 0x0a :: 0x0a :: rest => part :: splitBlankLines [] true rest
  | _, unit :: rest => splitBlankLines (part ++ [unit]) false rest

/-- `text.lastIndexOf(pattern)`. -/
def lastIndexOf (pattern text : CodeUnits) : ℤ :=
  (((List.range text.length).filter fun i => pattern.isPrefixOf (text.drop i)).getLast?.map Int.ofNat).getD (-1)

def breakAt (window : CodeUnits) : ℤ :=
  (["? ", "! ", "; ", ", ", " "].map fun pattern => lastIndexOf (codeUnits pattern) window).foldl max
    (lastIndexOf (codeUnits ". ") window)

variable (sizes : ChunkSizes)

def partEnd (remaining : CodeUnits) : ℕ := let at_ := breakAt (remaining.take (sizes.maxChars + 1))
  if (sizes.maxChars / 2 : ℕ) < at_ then at_.toNat + 1 else sizes.maxChars

theorem partEnd_pos (remaining : CodeUnits) : 0 < partEnd sizes remaining := by
  have hpos := sizes.fits
  unfold partEnd
  dsimp only
  split_ifs
  · exact Nat.succ_pos _
  · omega

theorem length_trimUnits_le (text : CodeUnits) : (trimUnits text).length ≤ text.length := (trimUnits_part text).length_le

/-- The loop of `splitOversizedText`. -/
def splitLoop (remaining : CodeUnits) : List CodeUnits :=
  if sizes.maxChars < remaining.length then
    trimUnits (remaining.take (partEnd sizes remaining)) ::
      splitLoop (trimUnits (remaining.drop (partEnd sizes remaining)))
  else if remaining = [] then []
  else [remaining]
termination_by remaining.length
decreasing_by
  have hend := partEnd_pos sizes remaining
  have hle := length_trimUnits_le (remaining.drop (partEnd sizes remaining))
  rw [List.length_drop] at hle
  omega

def splitOversizedText (text : CodeUnits) : List CodeUnits :=
  if text.length ≤ sizes.maxChars then [text] else splitLoop sizes text

/-- `text.replace(/^\S+\s+/, "")`. -/
def dropFirstWord (text : CodeUnits) : CodeUnits := let rest := text.dropWhile fun unit => !isWhiteSpaceUnit unit
  if rest.length = text.length ∨ rest = [] then text else rest.dropWhile isWhiteSpaceUnit

def withOverlap (previous next : CodeUnits) : CodeUnits := if sizes.overlapChars = 0 then next
  else
    let overlap := trimUnits (dropFirstWord (previous.drop (previous.length - sizes.overlapChars)))
    let candidate := if overlap = [] then next else overlap ++ 0x20 :: next
    if candidate.length ≤ sizes.maxChars then candidate else next

/-- The body of the loop over the parts, with the chunks and the current one. -/
def addPart (s : List CodeUnits × CodeUnits) (part : CodeUnits) : List CodeUnits × CodeUnits :=
  if s.2 = [] then (s.1, part)
  else if s.2.length + 1 + part.length ≤ sizes.maxChars then (s.1, s.2 ++ 0x20 :: part)
  else (s.1 ++ [s.2], withOverlap sizes s.2 part)

def normalize (text : CodeUnits) : CodeUnits := trimUnits (collapseBlanks (joinLineEnds text))

/-- The paragraphs of the text, single-spaced; the text itself where it has none. -/
def paragraphsOf (text : CodeUnits) : List CodeUnits := let paragraphs :=
    ((splitBlankLines [] false (normalize text)).map fun part => trimUnits (collapseWhiteSpace part)).filter (· ≠ [])
  if paragraphs = [] then [collapseWhiteSpace (normalize text)] else paragraphs

def chunksOf (text : CodeUnits) : List CodeUnits := if normalize text = [] then []
  else
    let s := ((paragraphsOf text).flatMap (splitOversizedText sizes)).foldl (addPart sizes) ([], [])
    ((if s.2 = [] then s.1 else s.1 ++ [s.2]).map trimUnits).filter (· ≠ [])

def chunkText (text : CodeUnits) (maxChars overlapChars : ℕ) : Except String (List CodeUnits) :=
  if h : overlapChars < maxChars then .ok (chunksOf ⟨maxChars, overlapChars, h⟩ text)
  else .error "chunk overlap must be smaller than chunk size"

/-! ## What chunks tell -/

/-- What a chunk repeats of the one before: nothing, or an end of it and a space. -/
def Repeats (overlapChars : ℕ) (previous repeated : CodeUnits) : Prop :=
  repeated = [] ∨ ∃ overlap, overlap ≠ [] ∧ repeated = overlap ++ [0x20] ∧ overlap.length ≤ overlapChars ∧ overlap <:+ previous

/-- The chunks that follow a chunk tell the text, once what they repeat is dropped. -/
inductive Tells (overlapChars : ℕ) : CodeUnits → List CodeUnits → CodeUnits → Prop
  | nil {previous : CodeUnits} : Tells overlapChars previous [] []
  | cons {previous repeated rest joint text : CodeUnits} {chunks : List CodeUnits}
      (hrepeats : Repeats overlapChars previous repeated) (hjoint : joint = [] ∨ joint = [0x20])
      (htells : Tells overlapChars (repeated ++ rest) chunks text) :
      Tells overlapChars previous ((repeated ++ rest) :: chunks) (joint ++ rest ++ text)

/-! ## Trimmed texts -/

def Neat (text : CodeUnits) : Prop := text ≠ [] ∧ trimUnits text = text

section

variable {text left right : CodeUnits} {unit : ℕ}

theorem neat_trimUnits (h : trimUnits text ≠ []) : Neat (trimUnits text) := ⟨h, trimUnits_trimUnits text⟩

theorem Neat.ends (h : Neat text) :
    (∀ unit ∈ text.head?, isWhiteSpaceUnit unit = false) ∧ ∀ unit ∈ text.getLast?, isWhiteSpaceUnit unit = false :=
  trimUnits_eq_self_iff.1 h.2

theorem Neat.join (hleft : Neat left) (hright : Neat right) (joint : CodeUnits) : Neat (left ++ (joint ++ right)) := by
  refine ⟨by simp [hleft.1], trimUnits_eq_self_iff.2 ⟨?_, ?_⟩⟩
  · rw [List.head?_append_of_ne_nil _ hleft.1]
    exact hleft.ends.1
  · rw [List.getLast?_append_of_ne_nil _ (by simp [hright.1]), List.getLast?_append_of_ne_nil _ hright.1]
    exact hright.ends.2

theorem Neat.trim_cons (h : Neat text) (hspace : isWhiteSpaceUnit unit = true) : trimUnits (unit :: text) = text := by
  have hsame := h.2
  unfold trimUnits at hsame ⊢
  rwa [List.dropWhile_cons_of_pos hspace]

theorem Neat.trim_concat (h : Neat text) (hspace : isWhiteSpaceUnit unit = true) : trimUnits (text ++ [unit]) = text := by
  have hfront : (text ++ [unit]).dropWhile isWhiteSpaceUnit = text ++ [unit] := by
    obtain ⟨first, rest, rfl⟩ := List.exists_cons_of_ne_nil h.1
    exact List.dropWhile_cons_of_neg (by rw [h.ends.1 first rfl]; decide)
  rw [trimUnits, hfront, List.rdropWhile_concat_pos _ _ _ hspace]
  have hsame := h.2
  have hback : text.rdropWhile isWhiteSpaceUnit = text := by
    obtain ⟨first, rest, rfl⟩ := List.exists_cons_of_ne_nil h.1
    unfold trimUnits at hsame
    rwa [List.dropWhile_cons_of_neg (by rw [h.ends.1 first rfl]; decide)] at hsame
  exact hback

theorem Neat.front {part rest : CodeUnits} (h : Neat (part ++ rest)) (hne : part ≠ [])
    (hlast : ∀ unit ∈ part.getLast?, isWhiteSpaceUnit unit = false) : Neat part := by
  refine ⟨hne, trimUnits_eq_self_iff.2 ⟨?_, hlast⟩⟩
  have hhead := h.ends.1
  rwa [List.head?_append_of_ne_nil _ hne] at hhead

theorem Neat.behind {rest part : CodeUnits} (h : Neat (rest ++ part)) (hne : part ≠ [])
    (hhead : ∀ unit ∈ part.head?, isWhiteSpaceUnit unit = false) : Neat part := by
  refine ⟨hne, trimUnits_eq_self_iff.2 ⟨hhead, ?_⟩⟩
  have hlast := h.ends.2
  rwa [List.getLast?_append_of_ne_nil _ hne] at hlast

/-- **A cut of a single-spaced text** is at a space or within a word. -/
theorem Neat.cut {front behind : CodeUnits} {a b : ℕ} (h : Neat (front ++ [a] ++ b :: behind))
    (hsingle : SingleSpaced (front ++ [a] ++ b :: behind)) :
    Neat (trimUnits (front ++ [a])) ∧ Neat (trimUnits (b :: behind)) ∧
      (isWhiteSpaceUnit a = true → trimUnits (front ++ [a]) = front) ∧
      (front ++ [a] ++ b :: behind = trimUnits (front ++ [a]) ++ 0x20 :: trimUnits (b :: behind) ∨
        trimUnits (front ++ [a]) = front ++ [a] ∧ trimUnits (b :: behind) = b :: behind ∧
          isWhiteSpaceUnit a = false ∧ isWhiteSpaceUnit b = false) := by
  have hpair : ∀ {c d : ℕ}, [c, d] <:+: front ++ [a] ++ b :: behind → isWhiteSpaceUnit c = true →
      isWhiteSpaceUnit d = false := by
    intro c d hpart hc
    have hchain := (hsingle.of_part hpart).2
    rw [List.isChain_pair, not_and, Bool.not_eq_true] at hchain
    exact hchain hc
  have hspace : ∀ c ∈ front ++ [a] ++ b :: behind, isWhiteSpaceUnit c = true → c = 0x20 := hsingle.1
  by_cases ha : isWhiteSpaceUnit a = true
  · have hb : isWhiteSpaceUnit b = false := hpair ⟨front, behind, by simp⟩ ha
    have hright : Neat (b :: behind) := h.behind (List.cons_ne_nil _ _) (by simpa using hb)
    have hfront : Neat front := by
      rw [List.append_assoc] at h
      obtain rfl | ⟨start, c, rfl⟩ := List.eq_nil_or_concat front
      · have hfirst := h.ends.1 a rfl
        rw [ha] at hfirst
        contradiction
      · apply h.front (by simp)
        intro unit hunit
        obtain rfl : c = unit := by simpa using hunit
        rw [Bool.eq_false_iff]
        intro hc
        have hnot : isWhiteSpaceUnit a = false := hpair ⟨start, b :: behind, by simp⟩ hc
        rw [ha] at hnot
        contradiction
    rw [hfront.trim_concat ha, hright.2]
    refine ⟨hfront, hright, fun _ => rfl, .inl ?_⟩
    rw [hspace a (by simp) ha, List.append_assoc]
    rfl
  · rw [Bool.not_eq_true] at ha
    have hleft : Neat (front ++ [a]) := h.front (by simp) (by simpa using ha)
    rw [hleft.2]
    by_cases hb : isWhiteSpaceUnit b = true
    · have hbehind : Neat behind := by
        rw [List.append_cons] at h
        cases behind with
        | nil =>
          have hlast := h.ends.2 b (by simp)
          rw [hb] at hlast
          contradiction
        | cons d behind => exact h.behind (List.cons_ne_nil _ _) (by simpa using hpair ⟨front ++ [a], behind, by simp⟩ hb)
      rw [hbehind.trim_cons hb]
      refine ⟨hleft, hbehind, fun hspace => absurd (hspace.symm.trans ha) (by decide), .inl ?_⟩
      rw [hspace b (by simp) hb]
    · rw [Bool.not_eq_true] at hb
      have hright : Neat (b :: behind) := h.behind (List.cons_ne_nil _ _) (by simpa using hb)
      rw [hright.2]
      exact ⟨hleft, hright, fun hspace => absurd (hspace.symm.trans ha) (by decide), .inr ⟨rfl, rfl, ha, hb⟩⟩

end

/-! ## The parts of a paragraph -/

/-- The parts make up the text, each with a space behind it or cut off at the limit. -/
inductive Joined (maxChars : ℕ) : List CodeUnits → CodeUnits → Prop
  | one {part : CodeUnits} : Joined maxChars [part] part
  | gap {part text : CodeUnits} {parts : List CodeUnits} (h : Joined maxChars parts text) :
      Joined maxChars (part :: parts) (part ++ 0x20 :: text)
  | cut {part text : CodeUnits} {parts : List CodeUnits} (hfull : part.length = maxChars)
      (h : Joined maxChars parts text) : Joined maxChars (part :: parts) (part ++ text)

def Parts (maxChars : ℕ) (parts : List CodeUnits) : Prop := ∀ part ∈ parts, Neat part ∧ part.length ≤ maxChars

def Paragraph (text : CodeUnits) : Prop := Neat text ∧ SingleSpaced text

theorem lastIndexOf_cases (pattern text : CodeUnits) :
    lastIndexOf pattern text = -1 ∨ ∃ i : ℕ, lastIndexOf pattern text = i ∧ pattern <+: text.drop i := by
  unfold lastIndexOf
  cases hlast : ((List.range text.length).filter fun i => pattern.isPrefixOf (text.drop i)).getLast? with
  | none => exact .inl rfl
  | some i =>
    refine .inr ⟨i, rfl, ?_⟩
    exact List.isPrefixOf_iff_prefix.1 (List.mem_filter.1 (List.mem_of_getLast? hlast)).2

theorem breakAt_cases (window : CodeUnits) :
    breakAt window = -1 ∨ ∃ i : ℕ, breakAt window = i ∧ (window[i]? = some 0x20 ∨ window[i + 1]? = some 0x20) := by
  let Spaced (n : ℤ) : Prop := n = -1 ∨ ∃ i : ℕ, n = i ∧ (window[i]? = some 0x20 ∨ window[i + 1]? = some 0x20)
  have hpattern : ∀ pattern : CodeUnits, pattern[0]? = some 0x20 ∨ pattern[1]? = some 0x20 →
      Spaced (lastIndexOf pattern window) := by
    intro pattern hspace
    obtain hnone | ⟨i, hi, rest, hrest⟩ := lastIndexOf_cases pattern window
    · exact .inl hnone
    · refine .inr ⟨i, hi, ?_⟩
      have hat : ∀ k : ℕ, pattern[k]? = some 0x20 → window[i + k]? = some 0x20 := by
        intro k hk
        rw [← List.getElem?_drop, ← hrest, List.getElem?_append_left (List.getElem?_eq_some_iff.1 hk).1, hk]
      exact hspace.imp (hat 0) (hat 1)
  have hmax : ∀ (values : List ℤ) (first : ℤ), Spaced first → (∀ n ∈ values, Spaced n) → Spaced (values.foldl max first) := by
    intro values
    induction values with
    | nil => exact fun _ hfirst _ => hfirst
    | cons n values ih =>
      intro first hfirst hall
      refine ih _ ?_ fun m hm => hall m (List.mem_cons_of_mem n hm)
      obtain heq | heq := max_choice first n
      · rwa [heq]
      · rw [heq]
        exact hall n List.mem_cons_self
  refine hmax _ _ (hpattern _ (by decide)) (List.forall_mem_map.2 ?_)
  have hall : ∀ text ∈ ["? ", "! ", "; ", ", ", " "], (codeUnits text)[0]? = some 0x20 ∨ (codeUnits text)[1]? = some 0x20 := by
    decide
  exact fun text htext => hpattern _ (hall text htext)

variable {sizes : ChunkSizes} {text : CodeUnits}

theorem partEnd_cases (sizes : ChunkSizes) (text : CodeUnits) : partEnd sizes text = sizes.maxChars ∨
      ∃ i, partEnd sizes text = i + 1 ∧ (i ≤ sizes.maxChars ∧ text[i]? = some 0x20 ∨
        i + 1 ≤ sizes.maxChars ∧ text[i + 1]? = some 0x20) := by
  unfold partEnd
  dsimp only
  split_ifs with hlate
  · right
    obtain hnone | ⟨i, hi, hspace⟩ := breakAt_cases (text.take (sizes.maxChars + 1))
    · rw [hnone] at hlate
      omega
    · refine ⟨i, by rw [hi]; rfl, ?_⟩
      rw [List.getElem?_take, List.getElem?_take] at hspace
      split_ifs at hspace with hin hbehind
      · exact hspace.imp (⟨by omega, ·⟩) (⟨by omega, ·⟩)
      · exact hspace.imp (⟨by omega, ·⟩) (fun h => absurd h (by simp))
      · omega
      · simp at hspace
  · exact .inl rfl

theorem splitLoop_spec (sizes : ChunkSizes) (text : CodeUnits) (h : Paragraph text) :
    Joined sizes.maxChars (splitLoop sizes text) text ∧ Parts sizes.maxChars (splitLoop sizes text) := by
  fun_induction splitLoop sizes text with
  | case1 text hlong ih =>
    have hends := partEnd_cases sizes text
    have hpos := partEnd_pos sizes text
    have hlt : partEnd sizes text < text.length := by
      obtain hend | ⟨i, hend, ⟨-, hspace⟩ | ⟨-, hspace⟩⟩ := hends
      · rwa [hend]
      · -- the text does not end with a space
        have hi := (List.getElem?_eq_some_iff.1 hspace).1
        have hlast : i + 1 ≠ text.length := by
          intro heq
          have hnot := h.1.ends.2 0x20 (by rw [List.getLast?_eq_getElem?, ← heq, Nat.add_sub_cancel, hspace]; rfl)
          exact absurd hnot (by decide)
        omega
      · rw [hend]
        exact (List.getElem?_eq_some_iff.1 hspace).1
    obtain ⟨n, hn⟩ : ∃ n, partEnd sizes text = n + 1 := ⟨_, (Nat.succ_pred_eq_of_pos hpos).symm⟩
    rw [hn] at hends hlt ih ⊢
    obtain ⟨a, ha⟩ : ∃ a, text[n]? = some a := ⟨_, List.getElem?_eq_getElem (by omega)⟩
    obtain ⟨b, hb⟩ : ∃ b, text[n + 1]? = some b := ⟨_, List.getElem?_eq_getElem hlt⟩
    have htake : text.take (n + 1) = text.take n ++ [a] := by rw [List.take_add_one, ha]; rfl
    have hdrop : text.drop (n + 1) = b :: text.drop (n + 2) := by
      rw [List.drop_eq_getElem_cons hlt, Option.some.inj ((List.getElem?_eq_getElem hlt).symm.trans hb)]
    have hwhole : text.take n ++ [a] ++ b :: text.drop (n + 2) = text := by rw [← htake, ← hdrop, List.take_append_drop]
    obtain ⟨hpart, hrest, hshorter, hsplit⟩ := Neat.cut (hwhole.symm ▸ h.1) (hwhole.symm ▸ h.2)
    rw [hwhole, ← htake, ← hdrop] at hsplit
    rw [← htake] at hpart hshorter
    rw [← hdrop] at hrest
    have hsingle : SingleSpaced (trimUnits (text.drop (n + 1))) :=
      h.2.of_part ((trimUnits_part _).trans (List.drop_suffix _ _).isInfix)
    obtain ⟨hjoined, hparts⟩ := ih ⟨hrest, hsingle⟩
    have hlength : (trimUnits (text.take (n + 1))).length ≤ sizes.maxChars := by
      have htrim := length_trimUnits_le (text.take (n + 1))
      rw [List.length_take] at htrim
      obtain hend | ⟨i, hend, ⟨hle, hspace⟩ | ⟨hle, -⟩⟩ := hends
      · omega
      · obtain rfl : n = i := Nat.succ.inj hend
        cases ha.symm.trans hspace
        rw [hshorter (by decide), List.length_take]
        omega
      · omega
    refine ⟨?_, List.forall_mem_cons.2 ⟨⟨hpart, hlength⟩, hparts⟩⟩
    obtain hgap | ⟨hleft, hright, hnotA, hnotB⟩ := hsplit
    · have hboth : Joined sizes.maxChars (trimUnits (text.take (n + 1)) :: _) _ := hjoined.gap
      rwa [← hgap] at hboth
    · -- within a word the part is full
      have hfull : (trimUnits (text.take (n + 1))).length = sizes.maxChars := by
        rw [hleft, List.length_take, Nat.min_eq_left (Nat.le_of_lt hlt)]
        obtain hend | ⟨i, hend, ⟨-, hspace⟩ | ⟨-, hspace⟩⟩ := hends
        · exact hend
        · obtain rfl : n = i := Nat.succ.inj hend
          cases ha.symm.trans hspace
          exact absurd hnotA (by decide)
        · obtain rfl : n = i := Nat.succ.inj hend
          cases hb.symm.trans hspace
          exact absurd hnotB (by decide)
      have hboth := Joined.cut hfull hjoined
      have hsame : trimUnits (text.take (n + 1)) ++ trimUnits (text.drop (n + 1)) = text := by
        rw [hleft, hright, List.take_append_drop]
      rwa [hsame] at hboth
  | case2 => exact absurd rfl h.1.1
  | case3 text hshort hne =>
    exact ⟨.one, List.forall_mem_singleton.2 ⟨h.1, Nat.not_lt.1 hshort⟩⟩

theorem splitOversizedText_spec (sizes : ChunkSizes) (h : Paragraph text) :
    Joined sizes.maxChars (splitOversizedText sizes text) text ∧ Parts sizes.maxChars (splitOversizedText sizes text) := by
  unfold splitOversizedText
  split_ifs with hshort
  · exact ⟨.one, List.forall_mem_singleton.2 ⟨h.1, hshort⟩⟩
  · exact splitLoop_spec sizes text h

theorem Joined.append {maxChars : ℕ} {parts parts' : List CodeUnits} {text' : CodeUnits} (h : Joined maxChars parts text)
    (h' : Joined maxChars parts' text') : Joined maxChars (parts ++ parts') (text ++ 0x20 :: text') := by
  induction h with
  | one => exact .gap h'
  | gap _ ih =>
    rw [List.append_assoc]
    exact .gap ih
  | cut hfull _ ih =>
    rw [List.append_assoc]
    exact .cut hfull ih

theorem flatMap_splitOversizedText (sizes : ChunkSizes) {paragraphs : List CodeUnits} (hne : paragraphs ≠ [])
    (h : ∀ text ∈ paragraphs, Paragraph text) :
    Joined sizes.maxChars (paragraphs.flatMap (splitOversizedText sizes)) ([0x20].intercalate paragraphs) ∧
      Parts sizes.maxChars (paragraphs.flatMap (splitOversizedText sizes)) := by
  induction paragraphs with
  | nil => exact absurd rfl hne
  | cons text rest ih =>
    obtain ⟨hjoined, hparts⟩ := splitOversizedText_spec sizes (h text List.mem_cons_self)
    by_cases hlast : rest = []
    · subst hlast
      rw [List.flatMap_cons, List.flatMap_nil, List.append_nil, List.intercalate_singleton]
      exact ⟨hjoined, hparts⟩
    · obtain ⟨hjoined', hparts'⟩ := ih hlast fun text htext => h text (List.mem_cons_of_mem _ htext)
      rw [List.flatMap_cons, List.intercalate_cons_of_ne_nil hlast, List.append_assoc]
      exact ⟨hjoined.append hjoined', List.forall_mem_append.2 ⟨hparts, hparts'⟩⟩

/-! ## Putting parts together -/

/-- The chunks that come of the current one and the parts that follow. -/
def pack (sizes : ChunkSizes) (current : CodeUnits) : List CodeUnits → List CodeUnits
  | [] => [current]
  | part :: parts =>
    if current.length + 1 + part.length ≤ sizes.maxChars then pack sizes (current ++ 0x20 :: part) parts
    else current :: pack sizes (withOverlap sizes current part) parts

theorem trimUnits_suffix {part previous : CodeUnits} (h : Neat previous) (hpart : part <:+ previous) :
    trimUnits part <:+ part := by
  have hsuffix := List.dropWhile_suffix (l := part) isWhiteSpaceUnit
  have hback : (part.dropWhile isWhiteSpaceUnit).rdropWhile isWhiteSpaceUnit = part.dropWhile isWhiteSpaceUnit := by
    rw [List.rdropWhile_eq_self_iff]
    intro hne
    obtain ⟨front, hfront⟩ := hsuffix.trans hpart
    have hlast := h.ends.2
    rw [← hfront, List.getLast?_append_of_ne_nil _ hne, List.getLast?_eq_some_getLast hne] at hlast
    rw [hlast _ rfl]
    decide
  rw [trimUnits, hback]
  exact hsuffix

theorem dropFirstWord_suffix (text : CodeUnits) : dropFirstWord text <:+ text := by
  unfold dropFirstWord
  dsimp only
  split_ifs
  · exact List.suffix_rfl
  · exact (List.dropWhile_suffix _).trans (List.dropWhile_suffix _)

theorem withOverlap_spec (sizes : ChunkSizes) {previous next : CodeUnits} (hprevious : Neat previous)
    (hnext : Neat next ∧ next.length ≤ sizes.maxChars) :
    (Neat (withOverlap sizes previous next) ∧ (withOverlap sizes previous next).length ≤ sizes.maxChars) ∧
      ∃ repeated, Repeats sizes.overlapChars previous repeated ∧ withOverlap sizes previous next = repeated ++ next := by
  unfold withOverlap
  dsimp only
  split_ifs with hzero hnone hfits hfits
  · exact ⟨hnext, [], .inl rfl, rfl⟩
  · exact ⟨hnext, [], .inl rfl, rfl⟩
  · exact ⟨hnext, [], .inl rfl, rfl⟩
  · refine ⟨⟨(neat_trimUnits hnone).join hnext.1 [0x20], hfits⟩, _, .inr ⟨_, hnone, rfl, ?_, ?_⟩,
      (List.append_assoc _ [0x20] next).symm⟩
    · have hslice := (dropFirstWord_suffix (previous.drop (previous.length - sizes.overlapChars))).length_le
      have htrim := length_trimUnits_le (dropFirstWord (previous.drop (previous.length - sizes.overlapChars)))
      rw [List.length_drop] at hslice
      omega
    · have hpart := (dropFirstWord_suffix _).trans (List.drop_suffix (previous.length - sizes.overlapChars) previous)
      exact (trimUnits_suffix hprevious hpart).trans hpart
  · exact ⟨hnext, [], .inl rfl, rfl⟩

theorem foldl_addPart (sizes : ChunkSizes) {parts : List CodeUnits} (hparts : Parts sizes.maxChars parts)
    {current : CodeUnits} (hcurrent : Neat current) (chunks : List CodeUnits) :
    (parts.foldl (addPart sizes) (chunks, current)).2 ≠ [] ∧
      (parts.foldl (addPart sizes) (chunks, current)).1 ++ [(parts.foldl (addPart sizes) (chunks, current)).2]
        = chunks ++ pack sizes current parts := by
  induction parts generalizing current chunks with
  | nil => exact ⟨hcurrent.1, rfl⟩
  | cons part parts ih =>
    obtain ⟨hpart, hparts⟩ := List.forall_mem_cons.1 hparts
    rw [List.foldl_cons, addPart, if_neg hcurrent.1, pack]
    split_ifs with hfits
    · exact ih hparts (hcurrent.join hpart.1 [0x20]) chunks
    · obtain ⟨⟨hnext, -⟩, -⟩ := withOverlap_spec sizes hcurrent hpart
      obtain ⟨hne, heq⟩ := ih hparts hnext (chunks ++ [current])
      exact ⟨hne, heq.trans (List.append_assoc _ _ _)⟩

theorem Joined.starts {maxChars : ℕ} {part : CodeUnits} {parts : List CodeUnits} (h : Joined maxChars (part :: parts) text) :
    ∃ rest, text = part ++ rest := by
  cases h with
  | one => exact ⟨[], (List.append_nil _).symm⟩
  | gap | cut => exact ⟨_, rfl⟩

theorem Joined.next {maxChars : ℕ} {part next : CodeUnits} {parts : List CodeUnits}
    (h : Joined maxChars (part :: next :: parts) text) :
    ∃ joint rest, text = part ++ (joint ++ (next ++ rest)) ∧ (joint = [0x20] ∨ joint = [] ∧ part.length = maxChars) ∧
      Joined maxChars (next :: parts) (next ++ rest) := by
  cases h with
  | gap h =>
    obtain ⟨rest, rfl⟩ := h.starts
    exact ⟨[0x20], rest, rfl, .inl rfl, h⟩
  | cut hfull h =>
    obtain ⟨rest, rfl⟩ := h.starts
    exact ⟨[], rest, rfl, .inr ⟨rfl, hfull⟩, h⟩

/-- **The chunks tell what the parts tell.** -/
theorem pack_spec (sizes : ChunkSizes) {part rest : CodeUnits} {parts : List CodeUnits}
    (hjoined : Joined sizes.maxChars (part :: parts) (part ++ rest)) (hparts : Parts sizes.maxChars parts)
    {current : CodeUnits} (hcurrent : Neat current ∧ current.length ≤ sizes.maxChars)
    (hpart : part.length ≤ current.length) :
    Parts sizes.maxChars (pack sizes current parts) ∧ ∃ more chunks told, pack sizes current parts = (current ++ more) :: chunks ∧
      rest = more ++ told ∧ Tells sizes.overlapChars (current ++ more) chunks told := by
  induction parts generalizing part rest current with
  | nil =>
    refine ⟨List.forall_mem_singleton.2 hcurrent, [], [], [], by rw [List.append_nil]; rfl, ?_, .nil⟩
    generalize hwhole : part ++ rest = whole at hjoined
    cases hjoined with
    | one => exact List.append_right_eq_self.1 hwhole
    | gap h => cases h
    | cut _ h => cases h
  | cons next parts ih =>
    obtain ⟨hnext, hparts⟩ := List.forall_mem_cons.1 hparts
    obtain ⟨joint, rest', hwhole, hjoint, hjoined'⟩ := hjoined.next
    obtain rfl := List.append_cancel_left hwhole
    rw [pack]
    split_ifs with hfits
    · obtain rfl | ⟨-, hfull⟩ := hjoint
      · have hlonger : next.length ≤ (current ++ 0x20 :: next).length := by
          rw [List.length_append, List.length_cons]
          omega
        have hneat : Neat (current ++ 0x20 :: next) := hcurrent.1.join hnext.1 [0x20]
        have hlength : (current ++ 0x20 :: next).length ≤ sizes.maxChars := by
          rw [List.length_append, List.length_cons]
          omega
        obtain ⟨hall, more, chunks, told, hpack, rfl, htells⟩ := ih hjoined' hparts ⟨hneat, hlength⟩ hlonger
        rw [List.append_assoc, List.cons_append] at hpack htells
        exact ⟨hall, 0x20 :: (next ++ more), chunks, told, hpack, by simp, htells⟩
      · omega
    · obtain ⟨hneat, repeated, hrepeats, hoverlap⟩ := withOverlap_spec sizes hcurrent.1 hnext
      have hlonger : next.length ≤ (withOverlap sizes current next).length := by
        rw [hoverlap, List.length_append]
        omega
      obtain ⟨hall, more, chunks, told, hpack, rfl, htells⟩ := ih hjoined' hparts hneat hlonger
      refine ⟨List.forall_mem_cons.2 ⟨hcurrent, hall⟩, [], _, _, by rw [List.append_nil], rfl, ?_⟩
      rw [hoverlap, List.append_assoc] at hpack htells
      rw [hoverlap, hpack, List.append_nil]
      have hall := Tells.cons hrepeats (hjoint.symm.imp And.left id) htells
      rwa [List.append_assoc, List.append_assoc] at hall

/-! ## The claim -/

theorem collapseWhiteSpace_ne_nil (h : text ≠ []) : collapseWhiteSpace text ≠ [] := by
  induction text with
  | nil => exact absurd rfl h
  | cons first rest ih =>
    rw [collapseWhiteSpace]
    split_ifs with hfirst hnext
    · apply ih
      rintro rfl
      contradiction
    · exact List.cons_ne_nil _ _
    · exact List.cons_ne_nil _ _

theorem getLast_collapseWhiteSpace (h : ∀ unit ∈ text.getLast?, isWhiteSpaceUnit unit = false) :
    ∀ unit ∈ (collapseWhiteSpace text).getLast?, isWhiteSpaceUnit unit = false := by
  induction text with
  | nil => exact h
  | cons first rest ih =>
    by_cases hrest : rest = []
    · subst hrest
      rw [collapseWhiteSpace, if_neg (by rw [h first rfl]; decide)]
      exact h
    · have hlast : ∀ (front : ℕ) {part : CodeUnits}, part ≠ [] → (front :: part).getLast? = part.getLast? :=
        fun front part hne => List.getLast?_append_of_ne_nil [front] hne
      rw [hlast first hrest] at h
      rw [collapseWhiteSpace]
      split_ifs
      · exact ih h
      · rw [hlast _ (collapseWhiteSpace_ne_nil hrest)]
        exact ih h
      · rw [hlast _ (collapseWhiteSpace_ne_nil hrest)]
        exact ih h

theorem paragraph_of_mem (hnone : normalize text ≠ []) : ∀ part ∈ paragraphsOf text, Paragraph part := by
  unfold paragraphsOf
  dsimp only
  split_ifs with hempty
  · have hends := trimUnits_eq_self_iff.1 (trimUnits_trimUnits (collapseBlanks (joinLineEnds text)))
    refine List.forall_mem_singleton.2 ⟨⟨collapseWhiteSpace_ne_nil hnone, trimUnits_eq_self_iff.2 ⟨?_, ?_⟩⟩,
      singleSpaced_collapseWhiteSpace _⟩
    · intro unit hunit
      obtain ⟨first, rest, hfirst⟩ := List.exists_cons_of_ne_nil hnone
      rw [← head_collapseWhiteSpace _ hunit, hfirst]
      exact hends.1 first (by rw [show trimUnits _ = first :: rest from hfirst]; rfl)
    · exact getLast_collapseWhiteSpace hends.2
  · intro part hpart
    obtain ⟨hmem, hne⟩ := List.mem_filter.1 hpart
    obtain ⟨raw, -, rfl⟩ := List.mem_map.1 hmem
    exact ⟨neat_trimUnits (of_decide_eq_true hne), (singleSpaced_collapseWhiteSpace raw).of_part (trimUnits_part _)⟩

/-- The chunks tell the text: the first as it is, and the others but for what they repeat. -/
def TellText (overlapChars : ℕ) (chunks : List CodeUnits) (text : CodeUnits) : Prop := match chunks with
  | [] => text = []
  | first :: chunks => ∃ told, text = first ++ told ∧ Tells overlapChars first chunks told

/-- **Chunking loses nothing.** The chunks are not empty and not too long, and they tell the
paragraphs in order. -/
theorem chunks_tell_paragraphs (text : CodeUnits) (maxChars overlapChars : ℕ) (h : overlapChars < maxChars) :
    ∃ chunks, chunkText text maxChars overlapChars = .ok chunks ∧
      (∀ chunk ∈ chunks, chunk ≠ [] ∧ chunk.length ≤ maxChars) ∧
        TellText overlapChars chunks ([0x20].intercalate (paragraphsOf text)) := by
  refine ⟨_, dif_pos h, ?_⟩
  unfold chunksOf
  split_ifs with hnone
  · have hparagraphs : paragraphsOf text = [[]] := by
      unfold paragraphsOf
      rw [hnone]
      rfl
    rw [hparagraphs]
    exact ⟨List.forall_mem_nil _, rfl⟩
  · have hne : paragraphsOf text ≠ [] := by
      unfold paragraphsOf
      dsimp only
      split_ifs with hempty
      · exact List.cons_ne_nil _ _
      · exact hempty
    obtain ⟨hjoined, hparts⟩ := flatMap_splitOversizedText ⟨maxChars, overlapChars, h⟩ hne (paragraph_of_mem hnone)
    generalize (paragraphsOf text).flatMap (splitOversizedText ⟨maxChars, overlapChars, h⟩) = parts at hjoined hparts ⊢
    cases parts with
    | nil => cases hjoined
    | cons part parts =>
      obtain ⟨hpart, hparts⟩ := List.forall_mem_cons.1 hparts
      obtain ⟨rest, htext⟩ := hjoined.starts
      rw [htext] at hjoined ⊢
      obtain ⟨hlast, hfold⟩ := foldl_addPart ⟨maxChars, overlapChars, h⟩ hparts hpart.1 []
      obtain ⟨hall, more, chunks, told, hpack, rfl, htells⟩ := pack_spec _ hjoined hparts hpart le_rfl
      have hkeep : ((pack ⟨maxChars, overlapChars, h⟩ part parts).map trimUnits).filter (· ≠ [])
          = pack ⟨maxChars, overlapChars, h⟩ part parts := by
        rw [List.map_congr_left fun chunk hchunk => (hall chunk hchunk).1.2, List.map_id', List.filter_eq_self]
        exact fun chunk hchunk => decide_eq_true (hall chunk hchunk).1.1
      rw [List.foldl_cons, addPart, if_pos rfl]
      dsimp only
      rw [if_neg hlast, hfold, List.nil_append, hkeep]
      refine ⟨fun chunk hchunk => ⟨(hall chunk hchunk).1.1, (hall chunk hchunk).2⟩, ?_⟩
      rw [hpack]
      exact ⟨told, (List.append_assoc _ _ _).symm, htells⟩

theorem chunks_of_long_word : chunkText (codeUnits "abcdefghi") 7 3 = .ok [codeUnits "abcdefg", codeUnits "efg hi"] := by
  have hparagraphs : paragraphsOf (codeUnits "abcdefghi") = [codeUnits "abcdefghi"] := by decide +kernel
  have hsplit : splitLoop ⟨7, 3, by decide⟩ (codeUnits "abcdefghi") = [codeUnits "abcdefg", codeUnits "hi"] := by
    have hfirst : trimUnits ((codeUnits "abcdefghi").take (partEnd ⟨7, 3, by decide⟩ (codeUnits "abcdefghi")))
        = codeUnits "abcdefg" := by decide +kernel
    have hrest : trimUnits ((codeUnits "abcdefghi").drop (partEnd ⟨7, 3, by decide⟩ (codeUnits "abcdefghi")))
        = codeUnits "hi" := by decide +kernel
    rw [splitLoop, if_pos (by decide), hfirst, hrest, splitLoop, if_neg (by decide), if_neg (by decide)]
  rw [chunkText, dif_pos (by decide), chunksOf, if_neg (by decide +kernel), hparagraphs, List.flatMap_singleton,
    splitOversizedText, if_neg (by decide), hsplit]
  exact congrArg Except.ok (by decide +kernel)

/-- The space behind what is repeated is not in the text: it has to be dropped as well. -/
theorem repeated_end_needs_space :
    ¬ ∀ (text : CodeUnits) (maxChars overlapChars : ℕ), overlapChars < maxChars → ∀ first second,
      chunkText text maxChars overlapChars = .ok [first, second] →
        ∃ dropped rest joint, second = dropped ++ rest ∧ dropped.length ≤ overlapChars ∧ dropped <:+ first ∧
          (joint = [] ∨ joint = [0x20]) ∧ [0x20].intercalate (paragraphsOf text) = first ++ joint ++ rest := by
  intro h
  obtain ⟨dropped, rest, joint, hsecond, hle, -, -, htext⟩ := h _ 7 3 (by decide) _ _ chunks_of_long_word
  have hparagraphs : [0x20].intercalate (paragraphsOf (codeUnits "abcdefghi")) = codeUnits "abcdefghi" := by decide +kernel
  have hlengths := congrArg List.length hsecond
  have htextLengths := congrArg List.length (hparagraphs.symm.trans htext)
  simp only [List.length_append, codeUnits, List.length_map] at hlengths htextLengths
  simp at hlengths htextLengths
  omega

theorem chunks_tell_word :
    ∃ chunks, chunkText (codeUnits "word") 8 2 = .ok chunks ∧ (∀ chunk ∈ chunks, chunk ≠ [] ∧ chunk.length ≤ 8) ∧
      TellText 2 chunks ([0x20].intercalate (paragraphsOf (codeUnits "word"))) :=
  chunks_tell_paragraphs _ _ _ (by decide)

end OpenGeni.Documents
