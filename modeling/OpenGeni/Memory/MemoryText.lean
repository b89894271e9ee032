/-
The stored form of a memory text.

A text that is saved is stripped of control characters, put on one line with single spaces, and
known shapes of secrets in it are redacted. The key of the exact duplicates is the hash of its
normal form, which ignores case as well. Lower case and SHA-256 are the platform's.
-/
import OpenGeni.Lib.Pattern

namespace OpenGeni.Memory

open OpenGeni.Lib

/-- Reject writes whose sanitized text exceeds this many characters. -/
def MEMORY_TEXT_MAX_CHARS : ℕ := 4000

def MEMORY_VISIBLE_RECORD_CAP : ℕ := 2000

/-! ## The hash -/

structure Platform where
  toLowerCase : CodeUnits → CodeUnits
  sha256Hex : CodeUnits → String

def normalizeMemoryText (platform : Platform) (text : CodeUnits) : CodeUnits :=
  platform.toLowerCase (trimUnits (collapseWhiteSpace text))

def hashMemoryText (platform : Platform) (text : CodeUnits) : String :=
  platform.sha256Hex (normalizeMemoryText platform text)

/-! ## Secrets -/

def isDigitUnit (unit : ℕ) : Bool := 0x30 ≤ unit && unit ≤ 0x39

def isUpperUnit (unit : ℕ) : Bool := 0x41 ≤ unit && unit ≤ 0x5a

def isLetterUnit (unit : ℕ) : Bool := isUpperUnit unit || (0x61 ≤ unit && unit ≤ 0x7a)

def isOneOf (text : String) (unit : ℕ) : Bool := (codeUnits text).contains unit

/-- `[A-Za-z0-9_-]`. -/
def isTokenUnit (unit : ℕ) : Bool := isLetterUnit unit || isDigitUnit unit || isOneOf "_-" unit

/-- `[A-Z0-9 ]*PRIVATE KEY-----`. -/
def privateKeyLine : Pattern :=
  .seq (.repeats (fun unit => isUpperUnit unit || isDigitUnit unit || unit == 0x20) 0 none false)
    (.literal "PRIVATE KEY-----")

open Pattern in
def SECRET_PATTERNS : List Pattern :=
  [ -- PEM private keys
    sequence
      [literal "-----BEGIN ", privateKeyLine, repeats (fun _ => true) 0 none true, literal "-----END ",
        privateKeyLine],
    -- AWS access key id
    sequence [literal "AKIA", repeats (fun unit => isDigitUnit unit || isUpperUnit unit) 16 (some 16) false],
    -- AWS temporary access key id
    sequence
      [wordBoundary, literal "ASIA", repeats (fun unit => isDigitUnit unit || isUpperUnit unit) 16 (some 16) false],
    -- OpenAI-style secret keys
    sequence [wordBoundary, literal "sk-", repeats isTokenUnit 20 none false],
    -- GitHub tokens
    sequence [wordBoundary, literal "gh", one (isOneOf "pousr"), literal "_",
        repeats (fun unit => isLetterUnit unit || isDigitUnit unit) 20 none false],
    -- Slack tokens
    sequence [wordBoundary, literal "xox", one (isOneOf "baprs"), literal "-",
        repeats (fun unit => isLetterUnit unit || isDigitUnit unit || unit == 0x2d) 10 none false],
    -- JWT
    sequence
      [wordBoundary, literal "eyJ", repeats isTokenUnit 8 none false, literal ".", repeats isTokenUnit 8 none false,
        literal ".", repeats isTokenUnit 8 none false],
    -- bearer credentials
    sequence [wordBoundary, literalIgnoringCase "Bearer", repeats isWhiteSpaceUnit 1 none false,
        repeats (fun unit => isLetterUnit unit || isDigitUnit unit || isOneOf "._~+/-" unit) 16 none false,
        repeats (· == 0x3d) 0 none false],
    -- key=value secrets
    sequence
      [wordBoundary,
        either (literalIgnoringCase "password")
          (either (literalIgnoringCase "passwd")
            (either (literalIgnoringCase "secret")
              (either
                (sequence [literalIgnoringCase "api", repeats (isOneOf "_-") 0 (some 1) false, literalIgnoringCase "key"])
                (literalIgnoringCase "token")))),
        repeats isWhiteSpaceUnit 0 none false, one (isOneOf "=:"), repeats isWhiteSpaceUnit 0 none false,
        repeats (fun unit => !isWhiteSpaceUnit unit) 6 none false] ]

/-! ## Sanitization -/

def isControlUnit (unit : ℕ) : Bool := unit ≤ 0x1f || (0x7f ≤ unit && unit ≤ 0x9f)

/-- Strip control characters, collapse whitespace to single spaces, trim. -/
def stripControlAndCollapse (raw : CodeUnits) : CodeUnits :=
  let withoutControls := raw.map fun unit => if isControlUnit unit then 0x20 else unit
  trimUnits (collapseWhiteSpace withoutControls)

def redact (patterns : List Pattern) (text : CodeUnits) : CodeUnits × ℕ := patterns.foldl (fun redacted pattern =>
      let replaced := pattern.replaceAll (codeUnits "[REDACTED]") redacted.1
      (replaced.1, redacted.2 + replaced.2))
    (text, 0)

def sanitizeMemoryText (raw : CodeUnits) : CodeUnits × ℕ :=
  let redacted := redact SECRET_PATTERNS (stripControlAndCollapse raw)
  (trimUnits (collapseWhiteSpace redacted.1), redacted.2)

def isMemoryTextTooLong (text : CodeUnits) : Bool := MEMORY_TEXT_MAX_CHARS < text.length

/-- **A text that may be shown**: `sanitizeMemoryText` returned it, and there is something of it, and
not too much. It is on one line, trimmed, single-spaced and without control characters. -/
structure Clean (text : CodeUnits) : Prop where
  sanitized : ∃ raw, (sanitizeMemoryText raw).1 = text
  nonempty : text ≠ []
  short : isMemoryTextTooLong text = false
  tidy : stripControlAndCollapse text = text

/-! ## A sanitized text is tidy -/

section

variable {raw text : CodeUnits}

theorem stripControlAndCollapse_of_no_control (h : ∀ unit ∈ text, isControlUnit unit = false) :
    stripControlAndCollapse text = trimUnits (collapseWhiteSpace text) := by
  have hsame : (text.map fun unit => if isControlUnit unit then 0x20 else unit) = text := by
    conv_rhs => rw [← List.map_id text]
    apply List.map_congr_left
    intro unit hunit
    rw [h unit hunit]
    rfl
  unfold stripControlAndCollapse
  rw [hsame]

theorem trim_collapse_fixed (text : CodeUnits) :
    trimUnits (collapseWhiteSpace (trimUnits (collapseWhiteSpace text))) = trimUnits (collapseWhiteSpace text) := by
  have hsingle : SingleSpaced (trimUnits (collapseWhiteSpace text)) :=
    (singleSpaced_collapseWhiteSpace text).of_part (trimUnits_part _)
  rw [hsingle.collapse_eq, trimUnits_trimUnits]

theorem mem_trim_collapse {unit : ℕ} (h : unit ∈ trimUnits (collapseWhiteSpace text)) : unit = 0x20 ∨ unit ∈ text :=
  mem_collapseWhiteSpace ((trimUnits_part _).subset h)

theorem no_control_strip (raw : CodeUnits) : ∀ unit ∈ stripControlAndCollapse raw, isControlUnit unit = false := by
  intro unit hunit
  obtain rfl | hmem := mem_trim_collapse hunit
  · rfl
  · obtain ⟨source, -, rfl⟩ := List.mem_map.1 hmem
    split_ifs with hcontrol
    · rfl
    · exact Bool.eq_false_iff.2 hcontrol

theorem no_control_redact (patterns : List Pattern) (h : ∀ unit ∈ text, isControlUnit unit = false) :
    ∀ unit ∈ (redact patterns text).1, isControlUnit unit = false := by
  have hreplacement : ∀ unit ∈ codeUnits "[REDACTED]", isControlUnit unit = false := by decide
  unfold redact
  generalize 0 = count
  induction patterns generalizing text count with
  | nil => exact h
  | cons pattern patterns ih =>
    rw [List.foldl_cons]
    apply ih
    intro unit hunit
    obtain hnew | hold := Pattern.mem_replaceAll hunit
    · exact hreplacement unit hnew
    · exact h unit hold

theorem tidy_sanitize (raw : CodeUnits) :
    stripControlAndCollapse (sanitizeMemoryText raw).1 = (sanitizeMemoryText raw).1 := by
  unfold sanitizeMemoryText
  dsimp only
  have hredacted := no_control_redact SECRET_PATTERNS (no_control_strip raw)
  generalize (redact SECRET_PATTERNS (stripControlAndCollapse raw)).1 = text at hredacted ⊢
  have hcontrol : ∀ unit ∈ trimUnits (collapseWhiteSpace text), isControlUnit unit = false := by
    intro unit hunit
    obtain rfl | hmem := mem_trim_collapse hunit
    · rfl
    · exact hredacted unit hmem
  rw [stripControlAndCollapse_of_no_control hcontrol]
  exact trim_collapse_fixed text

theorem clean_sanitize (hnonempty : (sanitizeMemoryText raw).1 ≠ [])
    (hshort : isMemoryTextTooLong (sanitizeMemoryText raw).1 = false) : Clean (sanitizeMemoryText raw).1 where
  sanitized := ⟨raw, rfl⟩
  nonempty := hnonempty
  short := hshort
  tidy := tidy_sanitize raw

end

/-- Redacting one secret can make a boundary for the next. -/
example : (sanitizeMemoryText (codeUnits "ASIA0123456789ABCDEFASIA0123456789ABCDEF")).1 =
    codeUnits "[REDACTED]ASIA0123456789ABCDEF" := by
  decide +kernel

end OpenGeni.Memory
