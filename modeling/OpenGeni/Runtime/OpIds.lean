/-
The durable id of an operation
(`packages/runtime/src/sandbox/op-correlation.ts`, `crates/opengeni-agent/src/ops.rs`).

The id of a tool call is escaped into a subject token and joined with the ordinal of the operation
within the call. An escape is an underscore, the hexadecimal code of the unit and an underscore,
and the underscore itself is not escaped. So an id that has such a group as it stands is the escape
of another one, and only an id that needs no escape and looks like none is told from all others.
-/
import OpenGeni.Lib.Json

namespace OpenGeni.Runtime

open OpenGeni.Lib

/-! ## Escaping -/

def asciiUnits (text : List Char) : JsString := text.map fun c => UInt16.ofNat c.toNat

/-- The class `[A-Za-z0-9_-]`. -/
def isTokenUnit (unit : UInt16) : Bool :=
  (65 ≤ unit && unit ≤ 90) || (97 ≤ unit && unit ≤ 122) || (48 ≤ unit && unit ≤ 57) || unit == 95 || unit == 45

/-- What stands for a unit outside the class: `_<hex>_`. -/
def escapeUnit (unit : UInt16) : JsString := 95 :: (asciiUnits (Nat.toDigits 16 unit.toNat) ++ [95])

def sanitizeOpIdToken (raw : JsString) : JsString :=
  raw.flatMap fun unit => if isTokenUnit unit then [unit] else escapeUnit unit

/-! ## Minting -/

structure ToolCallCorrelation where
  callId : JsString
  ordinal : ℕ

/-- The context that `runWithToolCallCorrelation` binds. -/
def runWithToolCallCorrelation (callId : JsString) : ToolCallCorrelation :=
  { callId := sanitizeOpIdToken callId, ordinal := 0 }

/-- The next id, `null` where no context is bound, and the context left. -/
def nextDurableOpId : Option ToolCallCorrelation → Option JsString × Option ToolCallCorrelation
  | none => (none, none)
  | some context =>
    (some (context.callId ++ 58 :: asciiUnits (Nat.toDigits 10 context.ordinal)),
      some { context with ordinal := context.ordinal + 1 })

def afterIds : ℕ → Option ToolCallCorrelation → Option ToolCallCorrelation
  | 0, store => store
  | n + 1, store => afterIds n (nextDurableOpId store).2

def durableOpId (callId : JsString) (ordinal : ℕ) : Option JsString :=
  (nextDurableOpId (afterIds ordinal (some (runWithToolCallCorrelation callId)))).1

/-! ## The runner's check -/

def is_whitespace (c : Char) : Bool := let n := c.toNat
  (9 ≤ n && n ≤ 13) || n == 0x20 || n == 0x85 || n == 0xa0 || n == 0x1680 || (0x2000 ≤ n && n ≤ 0x200a) ||
    n == 0x2028 || n == 0x2029 || n == 0x202f || n == 0x205f || n == 0x3000

def is_control (c : Char) : Bool := c.toNat < 0x20 || (0x7f ≤ c.toNat && c.toNat < 0xa0)

def validate_token_chars : List Char → Except String Unit
  | [] => .ok ()
  | c :: rest =>
    if is_whitespace c || is_control c then .error "contains whitespace/control characters"
    else if c = '.' ∨ c = '*' ∨ c = '>' then .error "contains subject-structure characters ('.', '*', '>')"
    else validate_token_chars rest

def validate_subject_token (token : List Char) : Except String Unit :=
  if token.isEmpty then .error "empty" else validate_token_chars token

/-- The characters the runner reads: an id is ASCII, one unit a character. -/
def received (text : JsString) : List Char := text.map fun unit => Char.ofNat unit.toNat

/-! ## What is escaped -/

section

variable {raw text : JsString} {unit : UInt16}

theorem sanitizeOpIdToken_append (raw text : JsString) :
    sanitizeOpIdToken (raw ++ text) = sanitizeOpIdToken raw ++ sanitizeOpIdToken text :=
  List.flatMap_append

theorem sanitizeOpIdToken_cons (h : isTokenUnit unit = false) :
    sanitizeOpIdToken (unit :: text) = escapeUnit unit ++ sanitizeOpIdToken text := by
  rw [sanitizeOpIdToken, List.flatMap_cons, if_neg (by rw [h]; decide)]
  rfl

theorem sanitizeOpIdToken_of_token (h : ∀ u ∈ raw, isTokenUnit u = true) : sanitizeOpIdToken raw = raw := by
  induction raw with
  | nil => rfl
  | cons u raw ih =>
    rw [sanitizeOpIdToken, List.flatMap_cons, if_pos (h u List.mem_cons_self)]
    exact congrArg (u :: ·) (ih fun v hv => h v (List.mem_cons_of_mem u hv))

theorem mem_toDigits {c : Char} (n : ℕ) (h : c ∈ Nat.toDigits 16 n) : ∃ d < 16, c = d.digitChar := by
  induction n using Nat.strong_induction_on with
  | _ n ih =>
    rw [Nat.toDigits_eq_if (by decide)] at h
    split_ifs at h with hsmall
    · exact ⟨n, hsmall, List.mem_singleton.1 h⟩
    · obtain h | h := List.mem_append.1 h
      · exact ih (n / 16) (by omega) h
      · exact ⟨n % 16, by omega, List.mem_singleton.1 h⟩

theorem isTokenUnit_digit {d : ℕ} (h : d < 16) : isTokenUnit (UInt16.ofNat d.digitChar.toNat) = true := by
  revert d
  decide

theorem isTokenUnit_escapeUnit (unit : UInt16) : ∀ u ∈ escapeUnit unit, isTokenUnit u = true := by
  intro u hu
  obtain rfl | hu := List.mem_cons.1 hu
  · decide
  · obtain hu | hu := List.mem_append.1 hu
    · obtain ⟨c, hc, rfl⟩ := List.mem_map.1 hu
      obtain ⟨d, hd, rfl⟩ := mem_toDigits _ hc
      exact isTokenUnit_digit hd
    · rw [List.mem_singleton.1 hu]
      decide

theorem isTokenUnit_sanitize (raw : JsString) : ∀ u ∈ sanitizeOpIdToken raw, isTokenUnit u = true := by
  intro u hu
  obtain ⟨unit, -, hu⟩ := List.mem_flatMap.1 hu
  split_ifs at hu with h
  · rwa [List.mem_singleton.1 hu]
  · exact isTokenUnit_escapeUnit unit u hu

/-! ## Which ids are told apart -/

structure PlainId (raw : JsString) : Prop where
  legal : ∀ u ∈ raw, isTokenUnit u = true
  plain : ∀ unit, isTokenUnit unit = false → ¬ escapeUnit unit <:+: raw

theorem PlainId.injective (h : PlainId raw) {other : JsString}
    (hsame : sanitizeOpIdToken other = sanitizeOpIdToken raw) : other = raw := by
  rw [sanitizeOpIdToken_of_token h.legal] at hsame
  by_cases htoken : ∀ u ∈ other, isTokenUnit u = true
  · rw [← hsame, sanitizeOpIdToken_of_token htoken]
  · push Not at htoken
    obtain ⟨u, hu, hillegal⟩ := htoken
    rw [ne_eq, Bool.not_eq_true] at hillegal
    obtain ⟨front, rest, rfl⟩ := List.append_of_mem hu
    -- the escape of the illegal unit would stand in the id
    rw [sanitizeOpIdToken_append, sanitizeOpIdToken_cons hillegal] at hsame
    exact absurd ⟨_, _, (List.append_assoc _ _ _).trans hsame⟩ (h.plain u hillegal)

theorem plainId_of_injective (h : ∀ other, sanitizeOpIdToken other = sanitizeOpIdToken raw → other = raw) :
    PlainId raw := by
  have hclean : sanitizeOpIdToken raw = raw := h _ (sanitizeOpIdToken_of_token (isTokenUnit_sanitize raw))
  have hlegal : ∀ u ∈ raw, isTokenUnit u = true := by
    intro u hu
    rw [← hclean] at hu
    exact isTokenUnit_sanitize raw u hu
  refine ⟨hlegal, ?_⟩
  rintro unit hunit ⟨front, rest, hsplit⟩
  have hfront : ∀ u ∈ front, isTokenUnit u = true := fun u hu =>
    hlegal u (by rw [← hsplit]; exact List.mem_append_left _ (List.mem_append_left _ hu))
  have hrest : ∀ u ∈ rest, isTokenUnit u = true := fun u hu =>
    hlegal u (by rw [← hsplit]; exact List.mem_append_right _ hu)
  -- with the unit in the place of its escape, the id is escaped to the same token
  have hother : front ++ unit :: rest = raw := by
    apply h
    rw [hclean, sanitizeOpIdToken_append, sanitizeOpIdToken_cons hunit, sanitizeOpIdToken_of_token hfront,
      sanitizeOpIdToken_of_token hrest, ← List.append_assoc, hsplit]
  have hmem : unit ∈ raw := by
    rw [← hother]
    exact List.mem_append_right _ List.mem_cons_self
  rw [hlegal unit hmem] at hunit
  exact absurd hunit (by decide)

/-! ## The ids of a call -/

theorem afterIds_some (n : ℕ) (context : ToolCallCorrelation) :
    afterIds n (some context) = some { context with ordinal := context.ordinal + n } := by
  induction n generalizing context with
  | zero => rfl
  | succ n ih =>
    rw [afterIds, nextDurableOpId, ih]
    rw [Nat.add_assoc, Nat.add_comm 1 n]

theorem durableOpId_eq (callId : JsString) (ordinal : ℕ) :
    durableOpId callId ordinal = some (sanitizeOpIdToken callId ++ 58 :: asciiUnits (Nat.toDigits 10 ordinal)) := by
  rw [durableOpId, afterIds_some, nextDurableOpId, runWithToolCallCorrelation, Nat.zero_add]

theorem isTokenUnit_decimal (n : ℕ) : ∀ u ∈ asciiUnits (Nat.toDigits 10 n), isTokenUnit u = true := by
  intro u hu
  obtain ⟨c, hc, rfl⟩ := List.mem_map.1 hu
  have hdigit := Nat.isDigit_of_mem_toDigits (by decide) (by decide) hc
  rw [Char.isDigit_iff_toNat] at hdigit
  have hrange : ∀ n, 48 ≤ n ∧ n ≤ 57 → isTokenUnit (UInt16.ofNat n) = true := by
    intro n hn
    obtain ⟨hlow, hhigh⟩ := hn
    interval_cases n <;> decide
  exact hrange _ hdigit

theorem asciiUnits_decimal_inj {n m : ℕ}
    (h : asciiUnits (Nat.toDigits 10 n) = asciiUnits (Nat.toDigits 10 m)) : n = m := by
  have hread : ∀ n, (asciiUnits (Nat.toDigits 10 n)).map (fun u => Char.ofNat u.toNat) = Nat.toDigits 10 n := by
    intro n
    rw [asciiUnits, List.map_map]
    refine (List.map_congr_left ?_).trans (List.map_id _)
    intro c hc
    have hdigit := Nat.isDigit_of_mem_toDigits (by decide) (by decide) hc
    rw [Char.isDigit_iff_toNat] at hdigit
    have hsmall : (UInt16.ofNat c.toNat).toNat = c.toNat := by
      rw [UInt16.toNat_ofNat']
      exact Nat.mod_eq_of_lt (by have := hdigit.2; simp at this; omega)
    simp only [Function.comp_apply, hsmall, Char.ofNat_toNat, id_eq]
  have hdigits : Nat.toDigits 10 n = Nat.toDigits 10 m := by rw [← hread n, h, hread m]
  rw [← Nat.ofDigitChars_ten_toDigits (n := n), hdigits, Nat.ofDigitChars_ten_toDigits]

theorem durableOpId_eq_iff (callId other : JsString) (n m : ℕ) : durableOpId other m = durableOpId callId n ↔
      sanitizeOpIdToken other = sanitizeOpIdToken callId ∧ m = n := by
  have hcolon : ∀ text : JsString, (∀ u ∈ text, isTokenUnit u = true) → (58 : UInt16) ∉ text :=
    fun text htext hmem => absurd (htext 58 hmem) (by decide)
  rw [durableOpId_eq, durableOpId_eq, Option.some.injEq,
    List.append_cons_inj_of_notMem (hcolon _ (isTokenUnit_sanitize other)) (hcolon _ (isTokenUnit_decimal m))]
  constructor
  · rintro ⟨htoken, -, hordinal⟩
    exact ⟨htoken, asciiUnits_decimal_inj hordinal⟩
  · rintro ⟨htoken, rfl⟩
    exact ⟨htoken, rfl, rfl⟩

theorem validate_token_chars_ok (h : ∀ u ∈ text, isTokenUnit u = true ∨ u = 58) :
    validate_token_chars (received text) = .ok () := by
  induction text with
  | nil => rfl
  | cons u text ih =>
    have hlegal : ∀ n < 128, (isTokenUnit (UInt16.ofNat n) = true ∨ UInt16.ofNat n = 58) →
        (is_whitespace (Char.ofNat n) || is_control (Char.ofNat n)) = false ∧
          ¬ (Char.ofNat n = '.' ∨ Char.ofNat n = '*' ∨ Char.ofNat n = '>') := by decide
    have hu := h u List.mem_cons_self
    have hsmall : u.toNat < 128 := by
      obtain hu | rfl := hu
      · simp only [isTokenUnit, Bool.or_eq_true, Bool.and_eq_true, decide_eq_true_eq, beq_iff_eq,
          UInt16.le_iff_toNat_le, ← UInt16.toNat_inj] at hu
        simp only [UInt16.reduceToNat] at hu
        omega
      · decide
    obtain ⟨hplain, hstructure⟩ := hlegal u.toNat hsmall (by rwa [UInt16.ofNat_toNat])
    rw [received, List.map_cons, validate_token_chars, if_neg (by rw [hplain]; decide), if_neg hstructure]
    exact ih fun v hv => h v (List.mem_cons_of_mem u hv)

theorem durableOpId_valid (callId : JsString) (ordinal : ℕ) :
    ∃ id, durableOpId callId ordinal = some id ∧ validate_subject_token (received id) = .ok () := by
  refine ⟨_, durableOpId_eq callId ordinal, ?_⟩
  rw [validate_subject_token, if_neg (by simp [received])]
  apply validate_token_chars_ok
  intro u hu
  obtain hu | hu := List.mem_append.1 hu
  · exact .inl (isTokenUnit_sanitize callId u hu)
  · obtain rfl | hu := List.mem_cons.1 hu
    · exact .inr rfl
    · exact .inl (isTokenUnit_decimal ordinal u hu)

end

/-- **Which calls have ids of their own.** No other call id has the token of this one, and no other
operation has the id of one of its operations, exactly if the call id needs no escape and looks
like none. The runner takes the ids of all calls. -/
theorem durable_op_ids_unique_iff (callId : JsString) :
    ((∀ other, sanitizeOpIdToken other = sanitizeOpIdToken callId → other = callId) ∧
      (∀ other n m, durableOpId other m = durableOpId callId n → other = callId ∧ m = n) ∧
      ∀ n, ∃ id, durableOpId callId n = some id ∧ validate_subject_token (received id) = .ok ()) ↔
      PlainId callId := by
  constructor
  · rintro ⟨hinjective, -, -⟩
    exact plainId_of_injective hinjective
  · intro h
    refine ⟨fun other => h.injective, ?_, durableOpId_valid callId⟩
    intro other n m hid
    obtain ⟨htoken, hordinal⟩ := (durableOpId_eq_iff callId other n m).1 hid
    exact ⟨h.injective htoken, hordinal⟩

/-- The call id `.` and the call id `_2e_` have one token and one id. -/
theorem dot_aliases_escape : ¬ ((∀ raw other, sanitizeOpIdToken other = sanitizeOpIdToken raw → other = raw) ∧
      ∀ raw other n m, durableOpId other m = durableOpId raw n → other = raw ∧ m = n) := by
  rintro ⟨hinjective, -⟩
  exact absurd (hinjective (JsString.ascii "_2e_") (JsString.ascii ".") (by decide)) (by decide)

end OpenGeni.Runtime
