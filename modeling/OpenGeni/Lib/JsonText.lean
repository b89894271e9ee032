/-
Reading the text of a JSON value.

The reader of `JSON.parse`: white space between the tokens, the escapes of strings, numbers by the
grammar of the format. A number is kept as its text; a string becomes UTF-16 code units. What
`JSON.stringify` writes is read back as the value it was written from.
-/
import OpenGeni.Lib.Json

namespace OpenGeni.Lib.Json

/-! ## Numbers -/

def isNumberChar (c : Char) : Bool := "0123456789+-.e".toList.contains c

def isExponent : List Char → Bool
  | [] => true
  | 'e' :: '+' :: digits => digits ≠ [] && digits.all Char.isDigit
  | 'e' :: '-' :: digits => digits ≠ [] && digits.all Char.isDigit
  | 'e' :: digits => digits ≠ [] && digits.all Char.isDigit
  | _ => false

def isFraction : List Char → Bool
  | '.' :: rest => rest.takeWhile Char.isDigit ≠ [] && isExponent (rest.dropWhile Char.isDigit)
  | rest => isExponent rest

def isUnsigned (text : List Char) : Bool := let digits := text.takeWhile Char.isDigit
  digits ≠ [] && (digits.head? ≠ some '0' || digits.length = 1) && isFraction (text.dropWhile Char.isDigit)

def isNumber : List Char → Bool
  | '-' :: text => isUnsigned text
  | text => isUnsigned text

/-- The number at the start of a text, with what follows. An exponent may begin with either letter. -/
def readNumber (text : List Char) : Option (NumberText × List Char) :=
  let token := (text.map fun c => if c = 'E' then 'e' else c).takeWhile isNumberChar
  if h : isNumber token ∧ token.all fun c => "0123456789+-.e".toList.contains c then
    some (⟨token, h.2⟩, text.drop token.length)
  else
    none

/-! ## Strings -/

def units (c : Char) : JsString := if c.toNat < 0x10000 then
    [UInt16.ofNat c.toNat]
  else
    [UInt16.ofNat (0xD800 + (c.toNat - 0x10000) / 0x400), UInt16.ofNat (0xDC00 + (c.toNat - 0x10000) % 0x400)]

def hexValue (c : Char) : Option ℕ := if c.isDigit then some (c.toNat - '0'.toNat)
  else if 'a' ≤ c ∧ c ≤ 'f' then some (c.toNat - 'a'.toNat + 10)
  else if 'A' ≤ c ∧ c ≤ 'F' then some (c.toNat - 'A'.toNat + 10)
  else none

def escaped (c : Char) : Option UInt16 := if c = 'b' then some 0x08
  else if c = 't' then some 0x09
  else if c = 'n' then some 0x0A
  else if c = 'f' then some 0x0C
  else if c = 'r' then some 0x0D
  else if c = '\"' then some 0x22
  else if c = '\\' then some 0x5C
  else if c = '/' then some 0x2F
  else none

/-- A string behind its opening quote, with what follows the closing one. -/
def readUnits : List Char → Option (JsString × List Char)
  | [] => none
  | '\"' :: rest => some ([], rest)
  | '\\' :: 'u' :: a :: b :: c :: d :: rest => do
    let n := (← hexValue a) * 4096 + (← hexValue b) * 256 + (← hexValue c) * 16 + (← hexValue d)
    let (s, rest) ← readUnits rest
    some (UInt16.ofNat n :: s, rest)
  | '\\' :: c :: rest => do
    let unit ← escaped c
    let (s, rest) ← readUnits rest
    some (unit :: s, rest)
  | c :: rest =>
    if c.toNat < 0x20 ∨ c = '\\' then
      none
    else do
      let (s, rest) ← readUnits rest
      some (units c ++ s, rest)

/-! ## Values -/

def isSpace (c : Char) : Bool := c = ' ' || c = '\t' || c = '\n' || c = '\r'

def skipSpace (text : List Char) : List Char := text.dropWhile isSpace

def expect : List Char → List Char → Option (List Char)
  | [], text => some text
  | c :: word, d :: text => if c = d then expect word text else none
  | _ :: _, [] => none

mutual

def readValue : ℕ → List Char → Option (Json NumberText JsString × List Char)
  | 0, _ => none
  | fuel + 1, text =>
    match skipSpace text with
    | [] => none
    | c :: rest =>
      if c = 'n' then (expect "ull".toList rest).map fun rest => (.null, rest)
      else if c = 't' then (expect "rue".toList rest).map fun rest => (.boolean true, rest)
      else if c = 'f' then (expect "alse".toList rest).map fun rest => (.boolean false, rest)
      else if c = '\"' then (readUnits rest).map fun (s, rest) => (.string s, rest)
      else if c = '[' then
        if (skipSpace rest).head? = some ']' then some (.array [], (skipSpace rest).tail)
        else (readItems fuel rest).map fun (items, rest) => (.array items, rest)
      else if c = '\x7b' then
        if (skipSpace rest).head? = some '\x7d' then some (.object [], (skipSpace rest).tail)
        else (readMembers fuel rest).map fun (members, rest) => (.object members, rest)
      else (readNumber (c :: rest)).map fun (n, rest) => (.number n, rest)

def readItems : ℕ → List Char → Option (List (Json NumberText JsString) × List Char)
  | 0, _ => none
  | fuel + 1, text => do
    let (item, rest) ← readValue fuel text
    match skipSpace rest with
    | ',' :: rest => do
      let (items, rest) ← readItems fuel rest
      some (item :: items, rest)
    | ']' :: rest => some ([item], rest)
    | _ => none

def readMembers : ℕ → List Char → Option (List (JsString × Json NumberText JsString) × List Char)
  | 0, _ => none
  | fuel + 1, text => do
    let rest ← expect ['\"'] (skipSpace text)
    let (name, rest) ← readUnits rest
    let rest ← expect [':'] (skipSpace rest)
    let (value, rest) ← readValue fuel rest
    match skipSpace rest with
    | ',' :: rest => do
      let (members, rest) ← readMembers fuel rest
      some ((name, value) :: members, rest)
    | '\x7d' :: rest => some ([(name, value)], rest)
    | _ => none

end

/-- `JSON.parse(text)`. -/
def parse (text : List Char) : Option (Json NumberText JsString) := do
  let (value, rest) ← readValue (text.length + 1) text
  if skipSpace rest = [] then some value else none

/-! ## Strings read back -/

variable {unit leading trailing : UInt16} {text rest : List Char} {c : Char}

variable {n : ℕ} {v : Json NumberText JsString}

theorem hexValue_digitChar (h : n < 16) : hexValue n.digitChar = some n := by
  revert n
  decide

theorem ofNat_toNat (unit : UInt16) : UInt16.ofNat unit.toNat = unit := by simp

theorem readUnits_unicodeEscape (unit : UInt16) (text : List Char) :
    readUnits (unicodeEscape unit ++ text) = (readUnits text).map fun p => (unit :: p.1, p.2) := by
  have hlt := unit.toNat_lt
  have hsum : unit.toNat / 4096 % 16 * 4096 + unit.toNat / 256 % 16 * 256 + unit.toNat / 16 % 16 * 16 + unit.toNat % 16 =
      unit.toNat := by
    omega
  have hdigit : ∀ n : ℕ, hexValue (n % 16).digitChar = some (n % 16) := fun n => hexValue_digitChar (Nat.mod_lt n (by decide))
  simp only [unicodeEscape, List.cons_append, List.nil_append, readUnits, hdigit, Option.bind_eq_bind, Option.bind_some]
  rw [hsum, ofNat_toNat]
  cases readUnits text <;> rfl

theorem readUnits_cons (hspace : 0x20 ≤ c.toNat) (hquote : c ≠ '\"') (hslash : c ≠ '\\') :
    readUnits (c :: text) = (readUnits text).map fun p => (units c ++ p.1, p.2) := by
  have hplain : ¬ (c.toNat < 0x20 ∨ c = '\\') := by
    rintro (h | h)
    · omega
    · exact hslash h
  rw [readUnits.eq_def]
  split
  · rename_i heq
    cases heq
  · rename_i heq
    cases heq
    exact absurd rfl hquote
  · rename_i heq
    cases heq
    exact absurd rfl hslash
  · rename_i heq
    cases heq
    exact absurd rfl hslash
  · rename_i heq
    cases heq
    rw [if_neg hplain]
    cases readUnits text <;> rfl

theorem toNat_ofNat_of_valid (h : n.isValidChar) : (Char.ofNat n).toNat = n := by
  unfold Char.ofNat
  rw [dif_pos h]
  rfl

theorem readUnits_quoteUnit (unit : UInt16) (text : List Char) :
    readUnits (quoteUnit unit ++ text) = (readUnits text).map fun p => (unit :: p.1, p.2) := by
  have hescape : ∀ (letter : Char) (u : UInt16), letter ≠ 'u' → escaped letter = some u →
      readUnits ('\\' :: letter :: text) = (readUnits text).map fun p => (u :: p.1, p.2) := by
    intro letter u hletter hu
    rw [readUnits.eq_def]
    split
    · rename_i heq
      cases heq
    · rename_i heq
      cases heq
    · rename_i heq
      cases heq
      exact absurd rfl hletter
    · rename_i heq
      cases heq
      rw [hu]
      cases readUnits text <;> rfl
    · rename_i heq
      cases heq
      rename_i hnone
      exact (hnone _ _ rfl rfl).elim
  unfold quoteUnit
  split_ifs with hb ht hn hf hr hq hs hcontrol
  · exact hescape 'b' unit (by decide) (by rw [hb]; rfl)
  · exact hescape 't' unit (by decide) (by rw [ht]; rfl)
  · exact hescape 'n' unit (by decide) (by rw [hn]; rfl)
  · exact hescape 'f' unit (by decide) (by rw [hf]; rfl)
  · exact hescape 'r' unit (by decide) (by rw [hr]; rfl)
  · exact hescape '\"' unit (by decide) (by rw [hq]; rfl)
  · exact hescape '\\' unit (by decide) (by rw [hs]; rfl)
  · exact readUnits_unicodeEscape unit text
  · simp only [Bool.or_eq_true, decide_eq_true_eq, not_or, UInt16.not_lt, isLeading, isTrailing, Bool.and_eq_true, not_and,
      UInt16.not_le] at hcontrol
    obtain ⟨⟨hspace, hleading⟩, htrailing⟩ := hcontrol
    have hvalid : unit.toNat.isValidChar := by
      have hlt := unit.toNat_lt
      by_cases hlow : unit < 0xD800
      · exact .inl (UInt16.lt_iff_toNat_lt.1 hlow)
      · have hfirst := hleading (UInt16.not_lt.1 hlow)
        have hsecond : 0xDFFF < unit := by
          apply htrailing
          rw [UInt16.le_iff_toNat_le]
          exact UInt16.lt_iff_toNat_lt.1 hfirst
        exact .inr ⟨UInt16.lt_iff_toNat_lt.1 hsecond, by omega⟩
    have hchar := toNat_ofNat_of_valid hvalid
    have hunits : units (Char.ofNat unit.toNat) = [unit] := by
      unfold units
      rw [hchar, if_pos (by have hlt := unit.toNat_lt; omega), ofNat_toNat]
    have hne : ∀ d : Char, unit ≠ UInt16.ofNat d.toNat → Char.ofNat unit.toNat ≠ d := by
      intro d hd heq
      apply hd
      rw [← heq, hchar, ofNat_toNat]
    rw [List.cons_append, List.nil_append, readUnits_cons ?_ (hne '\"' hq) (hne '\\' hs), hunits]
    · rfl
    · rw [hchar]
      exact UInt16.le_iff_toNat_le.1 hspace

theorem units_pairChar (hleading : isLeading leading) (htrailing : isTrailing trailing) :
    units (pairChar leading trailing) = [leading, trailing] ∧ 0x10000 ≤ (pairChar leading trailing).toNat := by
  simp only [isLeading, isTrailing, Bool.and_eq_true, decide_eq_true_eq, UInt16.le_iff_toNat_le, UInt16.reduceToNat]
    at hleading htrailing
  have hchar : (pairChar leading trailing).toNat =
      0x10000 + (leading.toNat - 0xD800) * 0x400 + (trailing.toNat - 0xDC00) := by
    apply toNat_ofNat_of_valid
    exact .inr (by omega)
  refine ⟨?_, by omega⟩
  have hhigh : UInt16.ofNat (0xD800 + ((pairChar leading trailing).toNat - 0x10000) / 0x400) = leading := by
    rw [hchar, show 0xD800 + (0x10000 + (leading.toNat - 0xD800) * 0x400 + (trailing.toNat - 0xDC00) - 0x10000) / 0x400 =
      leading.toNat by omega, ofNat_toNat]
  have hlow : UInt16.ofNat (0xDC00 + ((pairChar leading trailing).toNat - 0x10000) % 0x400) = trailing := by
    rw [hchar, show 0xDC00 + (0x10000 + (leading.toNat - 0xD800) * 0x400 + (trailing.toNat - 0xDC00) - 0x10000) % 0x400 =
      trailing.toNat by omega, ofNat_toNat]
  unfold units
  rw [if_neg (by omega), hhigh, hlow]

theorem readUnits_quoteUnits (s : JsString) (rest : List Char) :
    readUnits (quoteUnits s ++ '\"' :: rest) = some (s, rest) := by
  fun_induction quoteUnits s with
  | case1 => rfl
  | case2 unit =>
    rw [readUnits_quoteUnit]
    rfl
  | case3 unit next tail hpair ih =>
    rw [Bool.and_eq_true] at hpair
    obtain ⟨hunits, hlarge⟩ := units_pairChar hpair.1 hpair.2
    rw [List.cons_append, readUnits_cons (by omega), ih, hunits]
    · rfl
    · rintro heq
      rw [heq] at hlarge
      revert hlarge
      decide
    · rintro heq
      rw [heq] at hlarge
      revert hlarge
      decide
  | case4 unit next tail hpair ih =>
    rw [List.append_assoc, readUnits_quoteUnit, ih]
    rfl

/-! ## Numbers read back -/

def Stops (rest : List Char) : Prop := ∀ c ∈ rest.head?, isNumberChar c = false ∧ c ≠ 'E'

theorem stops_cons (h : isNumberChar c = false ∧ c ≠ 'E') : Stops (c :: rest) := by
  rintro d ⟨⟩
  exact h

theorem readNumber_append (n : NumberText) (hn : isNumber n.val) (hrest : Stops rest) :
    readNumber (n.val ++ rest) = some (n, rest) := by
  have hall : ∀ c ∈ n.val, isNumberChar c = true := List.all_eq_true.1 n.property
  have hsame : n.val.map (fun c => if c = 'E' then 'e' else c) = n.val := by
    have hid : n.val.map (fun c => if c = 'E' then 'e' else c) = n.val.map id := by
      refine List.map_congr_left fun c hc => if_neg ?_
      rintro rfl
      exact absurd (hall _ hc) (by decide)
    rw [hid, List.map_id]
  have hstop : (rest.map fun c => if c = 'E' then 'e' else c).takeWhile isNumberChar = [] := by
    cases rest with
    | nil => rfl
    | cons c tail =>
      obtain ⟨hnot, hne⟩ := hrest c rfl
      rw [List.map_cons, if_neg hne, List.takeWhile_cons_of_neg (by rw [hnot]; exact Bool.false_ne_true)]
  have htoken : ((n.val ++ rest).map fun c => if c = 'E' then 'e' else c).takeWhile isNumberChar = n.val := by
    rw [List.map_append, hsame, List.takeWhile_append_of_pos hall, hstop, List.append_nil]
  unfold readNumber
  simp only [htoken]
  rw [dif_pos ⟨hn, n.property⟩, List.drop_left]
  rfl

/-! ## Values read back -/

mutual

def Grammatical : Json NumberText JsString → Prop
  | .number n => isNumber n.val
  | .array items => GrammaticalItems items
  | .object members => GrammaticalMembers members
  | _ => True

def GrammaticalItems : List (Json NumberText JsString) → Prop
  | [] => True
  | item :: items => Grammatical item ∧ GrammaticalItems items

def GrammaticalMembers : List (JsString × Json NumberText JsString) → Prop
  | [] => True
  | member :: members => Grammatical member.2 ∧ GrammaticalMembers members

end

theorem skipSpace_cons (h : isSpace c = false) : skipSpace (c :: text) = c :: text := by
  unfold skipSpace
  rw [List.dropWhile_cons_of_neg (by rw [h]; exact Bool.false_ne_true)]

theorem isNumber_head {n : List Char} (h : isNumber n) : ∃ c rest, n = c :: rest ∧ (c = '-' ∨ c.isDigit) := by
  cases n with
  | nil => exact absurd h (by decide)
  | cons c rest =>
    refine ⟨c, rest, rfl, ?_⟩
    by_cases hc : c = '-'
    · exact .inl hc
    · right
      by_contra hdigit
      have hunsigned : isNumber (c :: rest) = isUnsigned (c :: rest) := by
        unfold isNumber
        split
        · rename_i heq
          cases heq
          exact absurd rfl hc
        · rfl
      rw [hunsigned, isUnsigned, List.takeWhile_cons_of_neg hdigit] at h
      simp at h

theorem stringify_head (hv : Grammatical v) : ∃ c rest, stringify v = c :: rest ∧ isSpace c = false ∧ c ≠ ']' := by
  cases v with
  | boolean b => cases b <;> exact ⟨_, _, rfl, by decide, by decide⟩
  | number n =>
    obtain ⟨c, rest, heq, hc⟩ := isNumber_head hv
    refine ⟨c, rest, heq, ?_⟩
    obtain rfl | hdigit := hc
    · exact ⟨by decide, by decide⟩
    · constructor
      · unfold isSpace
        simp only [Bool.or_eq_false_iff, decide_eq_false_iff_not]
        refine ⟨⟨⟨?_, ?_⟩, ?_⟩, ?_⟩ <;> (rintro rfl; exact absurd hdigit (by decide))
      · rintro rfl
        exact absurd hdigit (by decide)
  | _ => exact ⟨_, _, rfl, by decide, by decide⟩

theorem stringifyItems_head {item : Json NumberText JsString} (items : List (Json NumberText JsString)) (hitem : Grammatical item) :
    ∃ c rest, stringifyItems (item :: items) = c :: rest ∧ isSpace c = false ∧ c ≠ ']' := by
  obtain ⟨c, rest, heq, hspace, hclose⟩ := stringify_head hitem
  cases items with
  | nil => exact ⟨c, rest, heq, hspace, hclose⟩
  | cons next items =>
    refine ⟨c, rest ++ ',' :: stringifyItems (next :: items), ?_, hspace, hclose⟩
    rw [stringifyItems, heq, List.cons_append]

theorem stringifyMembers_head (member : JsString × Json NumberText JsString)
    (members : List (JsString × Json NumberText JsString)) :
    ∃ rest, stringifyMembers (member :: members) = '\"' :: rest := by
  cases members with
  | nil | cons => exact ⟨_, rfl⟩

theorem length_pos_of_stringify (hv : Grammatical v) : 0 < (stringify v).length := by
  obtain ⟨c, rest, heq, -, -⟩ := stringify_head hv
  rw [heq]
  exact Nat.succ_pos _

theorem readValue_number {fuel : ℕ} (n : NumberText) (hn : isNumber n.val) (hrest : Stops rest) :
    readValue (fuel + 1) (n.val ++ rest) = some (.number n, rest) := by
  obtain ⟨c, tail, heq, hc⟩ := isNumber_head hn
  have hne : ∀ d : Char, d ≠ '-' → d.isDigit = false → c ≠ d := by
    rintro d hminus hdigit rfl
    obtain h | h := hc
    · exact hminus h
    · rw [hdigit] at h
      cases h
  have hspace : isSpace c = false := by
    unfold isSpace
    simp only [Bool.or_eq_false_iff, decide_eq_false_iff_not]
    exact ⟨⟨⟨hne ' ' (by decide) (by decide), hne '\t' (by decide) (by decide)⟩, hne '\n' (by decide) (by decide)⟩,
      hne '\r' (by decide) (by decide)⟩
  have hread := readNumber_append n hn hrest
  rw [heq, List.cons_append] at hread ⊢
  rw [readValue, skipSpace_cons hspace]
  simp only
  rw [if_neg (hne 'n' (by decide) (by decide)), if_neg (hne 't' (by decide) (by decide)),
    if_neg (hne 'f' (by decide) (by decide)), if_neg (hne '\"' (by decide) (by decide)),
    if_neg (hne '[' (by decide) (by decide)), if_neg (hne '\x7b' (by decide) (by decide)), hread]
  rfl

mutual

theorem readValue_stringify (v : Json NumberText JsString) (hv : Grammatical v) (fuel : ℕ)
    (hfuel : (stringify v).length ≤ fuel) (rest : List Char) (hrest : Stops rest) :
    readValue fuel (stringify v ++ rest) = some (v, rest) := by
  have hpos := length_pos_of_stringify hv
  obtain ⟨fuel, rfl⟩ : ∃ n, fuel = n + 1 := ⟨fuel - 1, by omega⟩
  cases v with
  | null => rfl
  | boolean b => cases b <;> rfl
  | number n => exact readValue_number n hv hrest
  | string t =>
    have hread := readUnits_quoteUnits t rest
    simp only [stringify, quote, List.cons_append, List.append_assoc, List.nil_append]
    rw [readValue, skipSpace_cons (by decide)]
    simp only [Char.reduceEq, if_false, if_true, hread, Option.map_some]
  | array items =>
    cases items with
    | nil => rfl
    | cons item items =>
      have hlength : (stringifyItems (item :: items)).length < fuel := by
        simp only [stringify, List.length_cons, List.length_append, List.length_nil] at hfuel
        omega
      have hread := readItems_stringify (item :: items) (List.cons_ne_nil _ _) hv fuel hlength rest
      obtain ⟨c, tail, heq, hspace, hclose⟩ := stringifyItems_head items hv.1
      simp only [stringify, List.cons_append, List.append_assoc, List.nil_append]
      rw [heq, List.cons_append] at hread ⊢
      rw [readValue, skipSpace_cons (by decide)]
      simp only [Char.reduceEq, if_false, if_true]
      rw [skipSpace_cons hspace, List.head?_cons, if_neg (fun h => hclose (Option.some.inj h)), hread]
      rfl
  | object members =>
    cases members with
    | nil => rfl
    | cons member members =>
      have hlength : (stringifyMembers (member :: members)).length < fuel := by
        simp only [stringify, List.length_cons, List.length_append, List.length_nil] at hfuel
        omega
      have hread := readMembers_stringify (member :: members) (List.cons_ne_nil _ _) hv fuel hlength rest
      obtain ⟨tail, heq⟩ := stringifyMembers_head member members
      simp only [stringify, List.cons_append, List.append_assoc, List.nil_append]
      rw [heq, List.cons_append] at hread ⊢
      rw [readValue, skipSpace_cons (by decide)]
      simp only [Char.reduceEq, if_false, if_true]
      rw [skipSpace_cons (by decide), List.head?_cons, if_neg (by decide), hread]
      rfl

theorem readItems_stringify (items : List (Json NumberText JsString)) (hne : items ≠ []) (hitems : GrammaticalItems items)
    (fuel : ℕ) (hfuel : (stringifyItems items).length < fuel) (rest : List Char) :
    readItems fuel (stringifyItems items ++ ']' :: rest) = some (items, rest) := by
  obtain ⟨fuel, rfl⟩ : ∃ n, fuel = n + 1 := ⟨fuel - 1, by omega⟩
  match items with
  | [] => exact absurd rfl hne
  | [item] =>
    have hread := readValue_stringify item hitems.1 fuel (by simp only [stringifyItems] at hfuel; omega) (']' :: rest)
      (stops_cons (by decide))
    rw [readItems]
    simp only [stringifyItems, hread, Option.bind_eq_bind, Option.bind_some]
    rw [skipSpace_cons (by decide)]
    rfl
  | item :: next :: items =>
    simp only [stringifyItems, List.length_append, List.length_cons] at hfuel
    have hread := readValue_stringify item hitems.1 fuel (by omega) (',' :: (stringifyItems (next :: items) ++ ']' :: rest))
      (stops_cons (by decide))
    have hrest := readItems_stringify (next :: items) (List.cons_ne_nil _ _) hitems.2 fuel (by omega) rest
    rw [readItems]
    simp only [stringifyItems, List.append_assoc, List.cons_append, hread, Option.bind_eq_bind, Option.bind_some]
    rw [skipSpace_cons (by decide)]
    simp only [hrest, Option.bind_some]

theorem readMembers_stringify (members : List (JsString × Json NumberText JsString)) (hne : members ≠ [])
    (hmembers : GrammaticalMembers members) (fuel : ℕ) (hfuel : (stringifyMembers members).length < fuel) (rest : List Char) :
    readMembers fuel (stringifyMembers members ++ '\x7d' :: rest) = some (members, rest) := by
  obtain ⟨fuel, rfl⟩ : ∃ n, fuel = n + 1 := ⟨fuel - 1, by omega⟩
  match members with
  | [] => exact absurd rfl hne
  | [(name, value)] =>
    simp only [stringifyMembers, quote, List.length_append, List.length_cons] at hfuel
    have hread := readValue_stringify value hmembers.1 fuel (by omega) ('\x7d' :: rest) (stops_cons (by decide))
    simp only [stringifyMembers, quote, List.append_assoc, List.cons_append, List.nil_append]
    rw [readMembers, skipSpace_cons (by decide)]
    simp only [expect, if_true, Option.bind_eq_bind, Option.bind_some, readUnits_quoteUnits]
    rw [skipSpace_cons (by decide)]
    simp only [expect, if_true, Option.bind_some, hread]
    rw [skipSpace_cons (by decide)]
    rfl
  | (name, value) :: next :: members =>
    simp only [stringifyMembers, quote, List.length_append, List.length_cons] at hfuel
    have hread := readValue_stringify value hmembers.1 fuel (by omega)
      (',' :: (stringifyMembers (next :: members) ++ '\x7d' :: rest)) (stops_cons (by decide))
    have hrest := readMembers_stringify (next :: members) (List.cons_ne_nil _ _) hmembers.2 fuel (by omega) rest
    simp only [stringifyMembers, quote, List.append_assoc, List.cons_append, List.nil_append]
    rw [readMembers, skipSpace_cons (by decide)]
    simp only [expect, if_true, Option.bind_eq_bind, Option.bind_some, readUnits_quoteUnits]
    rw [skipSpace_cons (by decide)]
    simp only [expect, if_true, Option.bind_some, hread]
    rw [skipSpace_cons (by decide)]
    simp only [hrest, Option.bind_some]

end

/-- **Round trip.** -/
theorem parse_stringify (hv : Grammatical v) : parse (stringify v) = some v := by
  have hread := readValue_stringify v hv ((stringify v).length + 1) (Nat.le_succ _) [] fun _ h => by cases h
  rw [List.append_nil] at hread
  unfold parse
  rw [hread]
  rfl

/-! ## Integers -/

def numberOfNat (n : ℕ) : NumberText := ⟨Nat.toDigits 10 n, all_toDigits n⟩

def integer (n : NumberText) : Option ℤ := let text := if n.val.head? = some '-' then n.val.tail else n.val
  let whole := text.takeWhile Char.isDigit
  let rest := text.dropWhile Char.isDigit
  let fraction := if rest.head? = some '.' then rest.tail.takeWhile Char.isDigit else []
  let exponent := (n.val.dropWhile (· ≠ 'e')).tail
  let shift : ℤ := if exponent.head? = some '-' then -(Nat.ofDigitChars 10 exponent.tail 0 : ℤ)
    else Nat.ofDigitChars 10 (exponent.dropWhile (· = '+')) 0
  let scale : ℤ := shift - fraction.length
  let mantissa : ℤ := Nat.ofDigitChars 10 (whole ++ fraction) 0
  let sign : ℤ := if n.val.head? = some '-' then -1 else 1
  if 0 ≤ scale then
    some (sign * mantissa * 10 ^ scale.toNat)
  else if (10 ^ (-scale).toNat : ℤ) ∣ mantissa then
    some (sign * (mantissa / 10 ^ (-scale).toNat))
  else
    none

/-- The integer that is written without fraction and exponent. A negative zero is not one. -/
def plainInteger (n : NumberText) : Option ℤ := if n.val.head? = some '-' then
    if n.val.tail.all Char.isDigit ∧ Nat.ofDigitChars 10 n.val.tail 0 ≠ 0 then
      some (-(Nat.ofDigitChars 10 n.val.tail 0 : ℤ))
    else
      none
  else if n.val.all Char.isDigit then
    some (Nat.ofDigitChars 10 n.val 0)
  else
    none

theorem isDigit_of_mem_numberOfNat : ∀ c ∈ (numberOfNat n).val, c.isDigit = true :=
  fun _ hc => Nat.isDigit_of_mem_toDigits (by decide) (by decide) hc

theorem head?_numberOfNat_ne (h : c.isDigit = false) : (numberOfNat n).val.head? ≠ some c := by
  intro heq
  have hdigit := isDigit_of_mem_numberOfNat c (List.mem_of_mem_head? heq)
  rw [h] at hdigit
  cases hdigit

theorem head?_toDigits (h : 10 ≤ n) : (Nat.toDigits 10 n).head? ≠ some '0' := by
  induction n using Nat.strongRecOn with
  | ind n ih =>
    rw [Nat.toDigits_of_base_le (by decide) h, List.head?_append_of_ne_nil _ Nat.toDigits_ne_nil]
    by_cases hsmall : n / 10 < 10
    · rw [Nat.toDigits_of_lt_base hsmall]
      have hpos : 0 < n / 10 := Nat.div_pos h (by decide)
      generalize n / 10 = k at hpos hsmall
      interval_cases k <;> decide
    · exact ih (n / 10) (Nat.div_lt_self (by omega) (by decide)) (Nat.not_lt.1 hsmall)

theorem isNumber_numberOfNat (n : ℕ) : isNumber (numberOfNat n).val := by
  have htake : (numberOfNat n).val.takeWhile Char.isDigit = (numberOfNat n).val :=
    List.takeWhile_eq_self_iff.2 isDigit_of_mem_numberOfNat
  have hdrop : (numberOfNat n).val.dropWhile Char.isDigit = [] :=
    List.dropWhile_eq_nil_iff.2 isDigit_of_mem_numberOfNat
  have hunsigned : isUnsigned (numberOfNat n).val = true := by
    unfold isUnsigned
    simp only [htake, hdrop]
    have hne : (numberOfNat n).val ≠ [] := Nat.toDigits_ne_nil
    have hzero : (numberOfNat n).val.head? ≠ some '0' ∨ (numberOfNat n).val.length = 1 := by
      by_cases hsmall : n < 10
      · right
        simp only [numberOfNat]
        rw [Nat.toDigits_of_lt_base hsmall, List.length_singleton]
      · exact .inl (head?_toDigits (Nat.not_lt.1 hsmall))
    simp [hne, hzero, isFraction, isExponent]
  unfold isNumber
  split
  · rename_i heq
    exact absurd (congrArg List.head? heq) (head?_numberOfNat_ne rfl)
  · exact hunsigned

@[simp] theorem integer_numberOfNat (n : ℕ) : integer (numberOfNat n) = some (n : ℤ) := by
  have htake : (numberOfNat n).val.takeWhile Char.isDigit = (numberOfNat n).val :=
    List.takeWhile_eq_self_iff.2 isDigit_of_mem_numberOfNat
  have hdrop : (numberOfNat n).val.dropWhile Char.isDigit = [] :=
    List.dropWhile_eq_nil_iff.2 isDigit_of_mem_numberOfNat
  have hexponent : (numberOfNat n).val.dropWhile (· ≠ 'e') = [] := by
    refine List.dropWhile_eq_nil_iff.2 fun c hc => ?_
    have hdigit := isDigit_of_mem_numberOfNat c hc
    rw [decide_eq_true_eq]
    rintro rfl
    cases hdigit
  have hvalue : Nat.ofDigitChars 10 (numberOfNat n).val 0 = n := Nat.ofDigitChars_ten_toDigits
  unfold integer
  simp only [if_neg (head?_numberOfNat_ne (n := n) (c := '-') rfl), htake, hdrop, hexponent]
  simp [hvalue]

@[simp] theorem plainInteger_numberOfNat (n : ℕ) : plainInteger (numberOfNat n) = some (n : ℤ) := by
  have hvalue : Nat.ofDigitChars 10 (numberOfNat n).val 0 = n := Nat.ofDigitChars_ten_toDigits
  unfold plainInteger
  rw [if_neg (head?_numberOfNat_ne rfl), if_pos (List.all_eq_true.2 isDigit_of_mem_numberOfNat), hvalue]

/-! ## Members and strings -/

/-- The member of an object that `JSON.parse` keeps: the last one of its name. -/
def lastMember (value : Json NumberText JsString) (name : JsString) : Option (Json NumberText JsString) :=
  match value with
  | .object members => members.reverse.lookup name
  | _ => none

def toText : JsString → Option (List Char)
  | [] => some []
  | unit :: rest =>
    if isLeading unit then
      match rest with
      | [] => none
      | next :: rest => if isTrailing next then (toText rest).map (pairChar unit next :: ·) else none
    else if isTrailing unit then
      none
    else
      (toText rest).map (Char.ofNat unit.toNat :: ·)

theorem toText_of_ascii {s : JsString} (h : ∀ unit ∈ s, unit < 0x80) : toText s = some (s.map fun unit => Char.ofNat unit.toNat) := by
  induction s with
  | nil => rfl
  | cons unit rest ih =>
    have hunit : unit.toNat < 0x80 := UInt16.lt_iff_toNat_lt.1 (h unit List.mem_cons_self)
    have hplain : isLeading unit = false ∧ isTrailing unit = false := by
      simp only [isLeading, isTrailing, Bool.and_eq_false_iff, decide_eq_false_iff_not, UInt16.le_iff_toNat_le, UInt16.reduceToNat]
      omega
    unfold toText
    rw [hplain.1, hplain.2, ih fun u hu => h u (List.mem_cons_of_mem _ hu)]
    rfl

end OpenGeni.Lib.Json
