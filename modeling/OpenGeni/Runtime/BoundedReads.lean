/-
Reading the start of a file
(`packages/runtime/src/sandbox/channel-a.ts`, `fsRead`).

A session that can read files is asked for the first bytes. Otherwise the file is printed as Base64
in lines of 76 characters, the text is cut after 1.4 characters a byte, and what is left is decoded.
The cut leaves room for the line ends and more: nothing bounds the decoded bytes.

The validation and the join of the path come before both ways and are left out. The content of a
response is given by the bytes that its text stands for.
-/
import OpenGeni.Lib.Base64Url

namespace OpenGeni.Runtime

open OpenGeni.Lib

/-! ## The model -/

structure FsReadRequest where
  path : String
  maxBytes : ℕ
  asBase64 : Bool

structure FsReadResponse where
  path : String
  asBase64 : Bool
  content : List UInt8
  sizeBytes : ℕ
  truncated : Bool
  isBinary : Bool
  revision : ℕ
deriving DecidableEq

/-- Why a provider refuses to read: its guard of the workspace, or anything else. -/
inductive ReadError
  | workspaceEscape
  | other (message : String)

structure ExecResult where
  stdout : List Char
  exitCode : Option ℤ

/-- What a read uses of a session. The command line is `base64 <path> | head -c <count>`. -/
structure ReadSession where
  readFile : Option (String → ℕ → Except ReadError (List UInt8))
  base64Head : String → ℕ → ExecResult
  revision : ℕ

def sniffBinary (bytes : List UInt8) : Bool := (bytes.take 8192).contains 0

def shapeRead (session : ReadSession) (req : FsReadRequest) (bytes : List UInt8) : FsReadResponse where
  path := req.path
  asBase64 := req.asBase64 || sniffBinary bytes
  content := bytes
  sizeBytes := bytes.length
  truncated := decide (req.maxBytes ≤ bytes.length)
  isBinary := sniffBinary bytes
  revision := session.revision

/-- `Math.ceil(maxBytes * 1.4)`. -/
def execCount (maxBytes : ℕ) : ℕ := (7 * maxBytes + 4) / 5

def fsReadViaExec (session : ReadSession) (req : FsReadRequest) : Except String FsReadResponse :=
  let result := session.base64Head req.path (execCount req.maxBytes)
  if result.exitCode.any (· ≠ 0) ∧ result.stdout = [] then .error ("file not found: " ++ req.path)
  else .ok (shapeRead session req (Base64Url.decode (result.stdout.filter (· ≠ '\n'))))

def fsRead (session : ReadSession) (req : FsReadRequest) : Except String FsReadResponse :=
  match session.readFile with
  | none => fsReadViaExec session req
  | some readFile =>
    match readFile req.path req.maxBytes with
    | .ok bytes => .ok (shapeRead session req bytes)
    | .error .workspaceEscape => fsReadViaExec session req
    | .error (.other message) => .error ("file not found: " ++ req.path ++ " (" ++ message ++ ")")

/-! ## The pipeline -/

def plainDigit (c : Char) : Char := if c = '-' then '+' else if c = '_' then '/' else c

def encodeBase64 (bytes : List UInt8) : List Char :=
  (Base64Url.encode bytes).map plainDigit ++ List.replicate ((3 - bytes.length % 3) % 3) '='

def wrapLines (text : List Char) : List Char := if text = [] then []
  else if text.length ≤ 76 then text ++ ['\n']
  else text.take 76 ++ '\n' :: wrapLines (text.drop 76)
termination_by text.length
decreasing_by rw [List.length_drop]; omega

def nativeSession (file : List UInt8) (revision : ℕ) : ReadSession where
  readFile := some fun _ maxBytes => .ok (file.take maxBytes)
  base64Head := fun _ count => ⟨(wrapLines (encodeBase64 file)).take count, some 0⟩
  revision := revision

/-- A session over one file that has no reader, or one that refuses the path. -/
def execSession (file : List UInt8) (revision : ℕ) (refuses : Bool) : ReadSession where
  readFile := if refuses then some fun _ _ => .error .workspaceEscape else none
  base64Head := fun _ count => ⟨(wrapLines (encodeBase64 file)).take count, some 0⟩
  revision := revision

/-! ## What the pipeline gives -/

theorem value_plainDigit (c : Char) : Base64Url.value (plainDigit c) = Base64Url.value c := by
  unfold plainDigit
  split_ifs with hminus hunder
  · rw [hminus]
    decide
  · rw [hunder]
    decide
  · rfl

theorem newline_not_mem_encodeBase64 (bytes : List UInt8) : '\n' ∉ encodeBase64 bytes := by
  have hdigits : ∀ c ∈ Base64Url.encode bytes, plainDigit c ≠ '\n' := by
    apply Base64Url.forall_mem_encode
    intro n
    obtain ⟨m, hm, heq⟩ := Base64Url.digit_eq n
    rw [heq]
    clear heq
    revert m
    decide +kernel
  intro hmem
  obtain hmem | hmem := List.mem_append.1 hmem
  · obtain ⟨c, hc, heq⟩ := List.mem_map.1 hmem
    exact hdigits c hc heq
  · exact absurd (List.eq_of_mem_replicate hmem) (by decide)

theorem filter_take_wrapLines {text : List Char} (h : '\n' ∉ text) (count : ℕ) :
    ((wrapLines text).take count).filter (· ≠ '\n') = text.take (count - count / 77) := by
  have hkeep : ∀ {text part : List Char}, '\n' ∉ text → part.Sublist text → part.filter (· ≠ '\n') = part := by
    intro text part h hpart
    rw [List.filter_eq_self]
    intro c hc
    exact decide_eq_true fun heq => h (heq ▸ hpart.subset hc)
  fun_induction wrapLines text generalizing count with
  | case1 => simp
  | case2 text hne hshort =>
    rw [List.take_append, List.filter_append, hkeep h (List.take_sublist _ _)]
    have hend : (List.take (count - text.length) ['\n']).filter (· ≠ '\n') = [] := by
      rw [List.filter_eq_nil_iff]
      intro c hc
      rw [List.mem_singleton.1 (List.mem_of_mem_take hc)]
      decide
    rw [hend, List.append_nil]
    by_cases hcut : count < 77
    · rw [Nat.div_eq_of_lt hcut, Nat.sub_zero]
    · rw [List.take_of_length_le (by omega), List.take_of_length_le (by omega)]
  | case3 text hne hlong ih =>
    have hline : (text.take 76).length = 76 := by
      rw [List.length_take]
      omega
    by_cases hcut : count < 77
    · rw [Nat.div_eq_of_lt hcut, Nat.sub_zero, List.take_append_of_le_length (by omega), List.take_take,
        Nat.min_eq_left (by omega), hkeep h (List.take_sublist _ _)]
    · obtain ⟨rest, rfl⟩ := Nat.exists_eq_add_of_le (Nat.not_lt.1 hcut)
      have hrest : (77 + rest) - 76 = rest + 1 := by omega
      have hcount : 77 + rest - (77 + rest) / 77 = 76 + (rest - rest / 77) := by omega
      rw [List.take_append, List.take_of_length_le (by omega), hline, hrest, List.take_succ_cons, List.filter_append,
        hkeep h (List.take_sublist _ _), List.filter_cons_of_neg (by decide),
        ih (fun hmem => h (List.mem_of_mem_drop hmem)), hcount, List.take_add]

/-- The bytes that the cut text decodes to, where the file has as many. -/
def execCapacity (maxBytes : ℕ) : ℕ := (execCount maxBytes - execCount maxBytes / 77) * 3 / 4

theorem decode_pipeline (file : List UInt8) (count : ℕ) :
    Base64Url.decode (((wrapLines (encodeBase64 file)).take count).filter (· ≠ '\n'))
      = file.take ((count - count / 77) * 3 / 4) := by
  have hplain : ∀ text : List Char, Base64Url.decode (text.map plainDigit) = Base64Url.decode text := by
    intro text
    rw [Base64Url.decode, List.filterMap_map]
    exact congrArg Base64Url.ofDigits (List.filterMap_congr fun c _ => value_plainDigit c)
  have hpad : ∀ text : List Char, ∀ n, Base64Url.decode (text ++ List.replicate n '=') = Base64Url.decode text := by
    intro text n
    have hnone : (List.replicate n '=').filterMap Base64Url.value = [] := by
      rw [List.filterMap_eq_nil_iff]
      intro c hc
      rw [List.eq_of_mem_replicate hc]
      decide
    rw [Base64Url.decode, List.filterMap_append, hnone, List.append_nil]
    rfl
  rw [filter_take_wrapLines (newline_not_mem_encodeBase64 file), encodeBase64, List.take_append, List.take_replicate,
    hpad, ← List.map_take, hplain, Base64Url.decode_take]

theorem fsRead_exec (file : List UInt8) (revision : ℕ) (refuses : Bool) (req : FsReadRequest) :
    fsRead (execSession file revision refuses) req
      = .ok (shapeRead (nativeSession file revision) req (file.take (execCapacity req.maxBytes))) := by
  have hexec : fsReadViaExec (execSession file revision refuses) req
      = .ok (shapeRead (nativeSession file revision) req (file.take (execCapacity req.maxBytes))) := by
    rw [fsReadViaExec, if_neg (by simp [execSession])]
    exact congrArg (fun bytes => Except.ok (shapeRead (nativeSession file revision) req bytes)) (decode_pipeline file _)
  cases refuses with
  | false | true => exact hexec

theorem fsRead_native (file : List UInt8) (revision : ℕ) (req : FsReadRequest) :
    fsRead (nativeSession file revision) req
      = .ok (shapeRead (nativeSession file revision) req (file.take req.maxBytes)) := rfl

theorem le_execCapacity (maxBytes : ℕ) : maxBytes ≤ execCapacity maxBytes := by
  unfold execCapacity execCount
  omega

theorem execCapacity_eq_iff (maxBytes : ℕ) :
    execCapacity maxBytes = maxBytes ↔ maxBytes ≤ 7 ∨ maxBytes ∈ [9, 10, 12, 15] := by
  by_cases hsmall : maxBytes < 28
  · revert maxBytes
    decide
  · have hmore : maxBytes < execCapacity maxBytes := by
      unfold execCapacity execCount
      omega
    have hlarge : ¬ (maxBytes ≤ 7 ∨ maxBytes ∈ [9, 10, 12, 15]) := by
      simp only [List.mem_cons, List.not_mem_nil, or_false]
      omega
    exact iff_of_false (by omega) hlarge

/-! ## The claim -/

/-- The response has the first bytes of the file, as many as are asked for at most, and says if
there can be more. -/
structure ReadsStart (file : List UInt8) (maxBytes : ℕ) (response : FsReadResponse) : Prop where
  start : response.content <+: file
  bounded : response.content.length ≤ maxBytes
  whole : response.truncated = false → response.content = file

theorem readsStart_shapeRead (session : ReadSession) (file : List UInt8) (req : FsReadRequest) :
    ReadsStart file req.maxBytes (shapeRead session req (file.take req.maxBytes)) where
  start := List.take_prefix _ _
  bounded := List.length_take_le _ _
  whole := by
    intro hwhole
    have hshort : (file.take req.maxBytes).length < req.maxBytes := Nat.not_le.1 (of_decide_eq_false hwhole)
    rw [List.length_take] at hshort
    exact List.take_of_length_le (by omega)

end OpenGeni.Runtime
