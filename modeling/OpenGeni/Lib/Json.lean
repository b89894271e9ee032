/-
JSON values, and their text.

The text is that of `JSON.stringify` without indentation. A string is a list of UTF-16 code units,
as the language has it; control characters, quotes, backslashes and lone surrogates are escaped, so
the text is Unicode and stands on one line.
-/
import Mathlib

namespace OpenGeni.Lib

/-! ## Values -/

/-- A JSON value with numbers in `N` and strings in `S`; the members of an object stand in their
order. -/
inductive Json (N S : Type)
  | null
  | boolean (b : Bool)
  | number (n : N)
  | string (s : S)
  | array (items : List (Json N S))
  | object (members : List (S × Json N S))

abbrev JsString := List UInt16

def JsString.ascii (s : String) : JsString := s.toList.map fun c => UInt16.ofNat c.toNat

def NumberText := { text : List Char // text.all fun c => "0123456789+-.e".toList.contains c }

namespace Json

/-! ## Members -/

section Members

variable {N S : Type} [BEq S]

/-- `asRecord(value)[name]`, where `none` is `undefined`. -/
def member (value : Json N S) (name : S) : Option (Json N S) := match value with
  | .object members => members.lookup name
  | _ => none

def asString : Option (Json N S) → Option S
  | some (.string s) => some s
  | _ => none

end Members

/-! ## Strings -/

def isLeading (unit : UInt16) : Bool := 0xD800 ≤ unit && unit ≤ 0xDBFF

def isTrailing (unit : UInt16) : Bool := 0xDC00 ≤ unit && unit ≤ 0xDFFF

/-- `UnicodeEscape`: four digits in lower case. -/
def unicodeEscape (unit : UInt16) : List Char := let n := unit.toNat
  ['\\', 'u', (n / 4096 % 16).digitChar, (n / 256 % 16).digitChar, (n / 16 % 16).digitChar, (n % 16).digitChar]

def quoteUnit (unit : UInt16) : List Char := if unit = 0x08 then ['\\', 'b']
  else if unit = 0x09 then ['\\', 't']
  else if unit = 0x0A then ['\\', 'n']
  else if unit = 0x0C then ['\\', 'f']
  else if unit = 0x0D then ['\\', 'r']
  else if unit = 0x22 then ['\\', '\"']
  else if unit = 0x5C then ['\\', '\\']
  else if unit < 0x20 || isLeading unit || isTrailing unit then unicodeEscape unit
  else [Char.ofNat unit.toNat]

def pairChar (leading trailing : UInt16) : Char :=
  Char.ofNat (0x10000 + (leading.toNat - 0xD800) * 0x400 + (trailing.toNat - 0xDC00))

def quoteUnits : JsString → List Char
  | [] => []
  | [unit] => quoteUnit unit
  | unit :: next :: rest =>
    if isLeading unit && isTrailing next then pairChar unit next :: quoteUnits rest
    else quoteUnit unit ++ quoteUnits (next :: rest)

/-- `QuoteJSONString`. -/
def quote (s : JsString) : List Char := '\"' :: (quoteUnits s ++ ['\"'])

/-! ## Texts -/

mutual

/-- `JSON.stringify(value)`. -/
def stringify : Json NumberText JsString → List Char
  | .null => "null".toList
  | .boolean true => "true".toList
  | .boolean false => "false".toList
  | .number n => n.val
  | .string s => quote s
  | .array items => '[' :: (stringifyItems items ++ [']'])
  | .object members => '\x7b' :: (stringifyMembers members ++ ['\x7d'])

def stringifyItems : List (Json NumberText JsString) → List Char
  | [] => []
  | [item] => stringify item
  | item :: next :: rest => stringify item ++ ',' :: stringifyItems (next :: rest)

def stringifyMembers : List (JsString × Json NumberText JsString) → List Char
  | [] => []
  | [member] => quote member.1 ++ ':' :: stringify member.2
  | member :: next :: rest =>
    quote member.1 ++ ':' :: stringify member.2 ++ ',' :: stringifyMembers (next :: rest)

end

/-! ## One line -/

def OneLine (text : List Char) : Prop := '\n' ∉ text ∧ '\r' ∉ text

instance (text : List Char) : Decidable (OneLine text) :=
  inferInstanceAs (Decidable ('\n' ∉ text ∧ '\r' ∉ text))

theorem oneLine_nil : OneLine [] := by decide

theorem OneLine.cons {c : Char} {text : List Char} (hc : c ≠ '\n' ∧ c ≠ '\r') (h : OneLine text) :
    OneLine (c :: text) :=
  ⟨List.not_mem_cons_of_ne_of_not_mem hc.1.symm h.1, List.not_mem_cons_of_ne_of_not_mem hc.2.symm h.2⟩

theorem OneLine.append {text rest : List Char} (h : OneLine text) (h' : OneLine rest) : OneLine (text ++ rest) :=
  ⟨List.not_mem_append h.1 h'.1, List.not_mem_append h.2 h'.2⟩

theorem ofNat_toNat_le (n : ℕ) : (Char.ofNat n).toNat = n ∨ (Char.ofNat n).toNat = 0 := by
  unfold Char.ofNat
  split
  · exact .inl rfl
  · exact .inr rfl

theorem ofNat_ne {n : ℕ} (h : 0x20 ≤ n) : Char.ofNat n ≠ '\n' ∧ Char.ofNat n ≠ '\r' := by
  constructor
  all_goals
    intro heq
    have hn := ofNat_toNat_le n
    rw [heq] at hn
    simp only [Char.reduceToNat] at hn
    omega

theorem digitChar_ne {n : ℕ} (h : n < 16) : n.digitChar ≠ '\n' ∧ n.digitChar ≠ '\r' := by
  revert n
  decide

theorem oneLine_unicodeEscape (unit : UInt16) : OneLine (unicodeEscape unit) := by
  have hdigit (n : ℕ) : (n % 16).digitChar ≠ '\n' ∧ (n % 16).digitChar ≠ '\r' :=
    digitChar_ne (Nat.mod_lt _ (by decide))
  have hdigits := (((oneLine_nil.cons (hdigit unit.toNat)).cons (hdigit (unit.toNat / 16))).cons
    (hdigit (unit.toNat / 256))).cons (hdigit (unit.toNat / 4096))
  exact (hdigits.cons (c := 'u') (by decide)).cons (by decide)

theorem oneLine_quoteUnit (unit : UInt16) : OneLine (quoteUnit unit) := by
  unfold quoteUnit
  split_ifs with hb ht hn hf hr hq hs hcontrol
  -- the escapes with a letter of their own
  iterate 7
    · decide
  · exact oneLine_unicodeEscape unit
  · apply oneLine_nil.cons
    apply ofNat_ne
    simp only [Bool.or_eq_true, decide_eq_true_eq, not_or, UInt16.not_lt] at hcontrol
    exact hcontrol.1.1

theorem oneLine_quoteUnits (s : JsString) : OneLine (quoteUnits s) := by
  fun_induction quoteUnits s with
  | case1 => exact oneLine_nil
  | case2 unit => exact oneLine_quoteUnit unit
  | case3 unit next rest hpair ih =>
    apply ih.cons
    apply ofNat_ne
    omega
  | case4 unit next rest hpair ih => exact (oneLine_quoteUnit unit).append ih

theorem oneLine_quote (s : JsString) : OneLine (quote s) :=
  ((oneLine_quoteUnits s).append (by decide)).cons (by decide)

theorem all_toDigits (n : ℕ) : (Nat.toDigits 10 n).all (fun c => "0123456789+-.e".toList.contains c) = true := by
  rw [List.all_eq_true]
  intro c hc
  have hdigit := Nat.isDigit_of_mem_toDigits (by decide) (by decide) hc
  rw [Char.isDigit_iff_toNat] at hdigit
  rw [← Char.ofNat_toNat c]
  generalize c.toNat = k at hdigit
  have hlow : 48 ≤ k := hdigit.1
  have hhigh : k ≤ 57 := hdigit.2
  interval_cases k <;> decide

theorem oneLine_number (n : NumberText) : OneLine n.val := by
  have hall := List.all_eq_true.1 n.property
  constructor
  all_goals
    intro hmem
    have hc := hall _ hmem
    revert hc
    decide

mutual

/-- **The text of a JSON value is one line.** -/
theorem oneLine_stringify (v : Json NumberText JsString) : OneLine (stringify v) := by
  cases v with
  | null => decide
  | boolean b =>
    cases b with
    | false | true => decide
  | number n => exact oneLine_number n
  | string s => exact oneLine_quote s
  | array items => exact ((oneLine_stringifyItems items).append (by decide)).cons (by decide)
  | object members => exact ((oneLine_stringifyMembers members).append (by decide)).cons (by decide)

theorem oneLine_stringifyItems (items : List (Json NumberText JsString)) : OneLine (stringifyItems items) := by
  match items with
  | [] => exact oneLine_nil
  | [item] => exact oneLine_stringify item
  | item :: next :: rest =>
    exact (oneLine_stringify item).append ((oneLine_stringifyItems (next :: rest)).cons (by decide))

theorem oneLine_stringifyMembers (members : List (JsString × Json NumberText JsString)) :
    OneLine (stringifyMembers members) := by
  match members with
  | [] => exact oneLine_nil
  | [(name, value)] =>
    exact (oneLine_quote name).append ((oneLine_stringify value).cons (by decide))
  | (name, value) :: next :: rest =>
    exact ((oneLine_quote name).append ((oneLine_stringify value).cons (by decide))).append
      ((oneLine_stringifyMembers (next :: rest)).cons (by decide))

end

end Json

end OpenGeni.Lib
