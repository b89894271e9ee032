/-
The signed tokens, as they are minted and verified in TypeScript.

A token is a tag, the payload as base64url of its JSON, a dot, and the base64url of an HMAC of the
encoded payload. The tag is not part of what is signed. The five kinds differ in their tags and in
the schemas of their payloads: a schema asks for its members and ignores all others.

The HMAC is a parameter, as a function of the secret and the signed text.
-/
import OpenGeni.Lib.Base64Url
import OpenGeni.Lib.JsonText
import OpenGeni.Lib.Utf8

namespace OpenGeni.Contracts

open OpenGeni.Lib

abbrev Text := List Char

abbrev JsonValue := Json NumberText JsString

/-! ## The values of the schemas -/

def isHexUnit (unit : UInt16) : Bool :=
  (0x30 ≤ unit && unit ≤ 0x39) || (0x41 ≤ unit && unit ≤ 0x46) || (0x61 ≤ unit && unit ≤ 0x66)

def isDash (unit : UInt16) : Bool := unit = 0x2D

def isVersion (unit : UInt16) : Bool := 0x31 ≤ unit && unit ≤ 0x38

def isVariant (unit : UInt16) : Bool := unit = 0x38 || unit = 0x39 || unit = 0x61 || unit = 0x62 || unit = 0x41 || unit = 0x42

def uuidPattern : List (UInt16 → Bool) :=
  List.replicate 8 isHexUnit ++ isDash :: (List.replicate 4 isHexUnit ++ isDash :: isVersion :: (List.replicate 3 isHexUnit ++
    isDash :: isVariant :: (List.replicate 3 isHexUnit ++ isDash :: List.replicate 12 isHexUnit)))

def fits : List (UInt16 → Bool) → JsString → Bool
  | [], [] => true
  | test :: tests, unit :: units => test unit && fits tests units
  | _, _ => false

def isUuid (s : JsString) : Bool :=
  fits uuidPattern s || s = .ascii "00000000-0000-0000-0000-000000000000" || s = .ascii "ffffffff-ffff-ffff-ffff-ffffffffffff"

/-- `z.string().uuid()`. -/
abbrev Uuid := { s : JsString // isUuid s }

/-- `z.string().min(1)`. -/
abbrev NonEmptyString := { s : JsString // s ≠ [] }

def maxSafeInteger : ℕ := 2 ^ 53 - 1

/-- `z.number().int().positive()`. -/
abbrev PositiveInt := { n : ℕ // 0 < n ∧ n ≤ maxSafeInteger }

/-- `z.number().int().nonnegative()`. -/
abbrev NonNegativeInt := { n : ℕ // n ≤ maxSafeInteger }

def permissionNames : List String :=
  ["account:read", "account:admin", "members:manage", "workspace:create", "billing:read", "billing:manage", "workspace:read",
   "workspace:admin", "sessions:create", "sessions:read", "sessions:control", "stream:view", "stream:control",
   "stream:acknowledge", "files:upload", "files:read", "files:write", "terminal:attach", "documents:manage",
   "documents:search", "scheduled_tasks:manage", "scheduled_tasks:run", "github:manage", "github:use", "api_keys:manage",
   "connections:read", "connections:write", "environments:manage", "environments:use", "variable-sets:manage",
   "variable-sets:use", "mcp_servers:attach", "toolspace:call", "goals:manage", "enrollments:read", "enrollments:manage",
   "rigs:use", "rigs:manage"]

abbrev Permission := { s : JsString // s ∈ permissionNames.map JsString.ascii }

inductive StreamMode
  | view
  | control

def StreamMode.text : StreamMode → JsString
  | .view => .ascii "view"
  | .control => .ascii "control"

/-! ## Reading them -/

def Uuid.read : JsonValue → Option Uuid
  | .string s => if h : isUuid s then some ⟨s, h⟩ else none
  | _ => none

def NonEmptyString.read : JsonValue → Option NonEmptyString
  | .string s => if h : s ≠ [] then some ⟨s, h⟩ else none
  | _ => none

def readString : JsonValue → Option JsString
  | .string s => some s
  | _ => none

def readBoolean : JsonValue → Option Bool
  | .boolean b => some b
  | _ => none

def NonNegativeInt.read : JsonValue → Option NonNegativeInt
  | .number n =>
    match Json.integer n with
    | some (.ofNat k) => if h : k ≤ maxSafeInteger then some ⟨k, h⟩ else none
    | _ => none
  | _ => none

def PositiveInt.read (value : JsonValue) : Option PositiveInt :=
  (NonNegativeInt.read value).bind fun n => if h : 0 < n.val then some ⟨n.val, h, n.property⟩ else none

def Permission.read : JsonValue → Option Permission
  | .string s => if h : s ∈ permissionNames.map JsString.ascii then some ⟨s, h⟩ else none
  | _ => none

/-- `z.array(Permission).min(1)`. -/
def readPermissions : JsonValue → Option { permissions : List Permission // permissions ≠ [] }
  | .array items => (items.mapM Permission.read).bind fun permissions => if h : permissions ≠ [] then some ⟨permissions, h⟩ else none
  | _ => none

/-- `z.literal("enroll")`. -/
def readEnroll : JsonValue → Option Unit
  | .string s => if s = .ascii "enroll" then some () else none
  | _ => none

def StreamMode.read : JsonValue → Option StreamMode
  | .string s => if s = StreamMode.view.text then some .view else if s = StreamMode.control.text then some .control else none
  | _ => none

def required {α : Type} (value : JsonValue) (name : String) (read : JsonValue → Option α) : Option α :=
  (Json.lastMember value (.ascii name)).bind read

def optional {α : Type} (value : JsonValue) (name : String) (read : JsonValue → Option α) : Option (Option α) :=
  match Json.lastMember value (.ascii name) with
  | none => some none
  | some member => (read member).map some

/-! ## The payloads -/

structure DelegatedAccessTokenPayload where
  accountId : Uuid
  workspaceId : Uuid
  subjectId : NonEmptyString
  subjectLabel : Option JsString
  permissions : { permissions : List Permission // permissions ≠ [] }
  sessionId : Option Uuid
  turnId : Option Uuid
  exp : PositiveInt

structure EnrollmentBearerPayload where
  workspaceId : Uuid
  agentId : Uuid
  enrollmentId : Uuid
  subjectPrefix : NonEmptyString
  exp : PositiveInt

/-- Its `typ` is `enroll`. -/
structure EnrollTokenPayload where
  workspaceId : Uuid
  accountId : Uuid
  allowScreenControl : Bool
  iat : NonNegativeInt
  exp : PositiveInt

structure StreamTokenPayload where
  workspaceId : Uuid
  sessionId : Uuid
  viewerId : Uuid
  leaseEpoch : NonNegativeInt
  mode : StreamMode
  port : PositiveInt
  exp : PositiveInt

structure RelayTokenPayload where
  workspaceId : Uuid
  agentId : Uuid
  exp : PositiveInt

def member (name : String) (value : JsonValue) : JsString × JsonValue := (.ascii name, value)

def optionalString (name : String) (s : Option JsString) : List (JsString × JsonValue) :=
  (s.map fun s => member name (.string s)).toList

def DelegatedAccessTokenPayload.toJson (payload : DelegatedAccessTokenPayload) : JsonValue := .object <|
    [member "accountId" (.string payload.accountId.val), member "workspaceId" (.string payload.workspaceId.val),
     member "subjectId" (.string payload.subjectId.val)] ++ optionalString "subjectLabel" payload.subjectLabel ++
    [member "permissions" (.array (payload.permissions.val.map fun permission => .string permission.val))] ++
    optionalString "sessionId" (payload.sessionId.map Subtype.val) ++ optionalString "turnId" (payload.turnId.map Subtype.val) ++
    [member "exp" (.number (Json.numberOfNat payload.exp.val))]

def EnrollmentBearerPayload.toJson (payload : EnrollmentBearerPayload) : JsonValue := .object
    [member "workspaceId" (.string payload.workspaceId.val), member "agentId" (.string payload.agentId.val),
     member "enrollmentId" (.string payload.enrollmentId.val), member "subjectPrefix" (.string payload.subjectPrefix.val),
     member "exp" (.number (Json.numberOfNat payload.exp.val))]

def EnrollTokenPayload.toJson (payload : EnrollTokenPayload) : JsonValue := .object
    [member "typ" (.string (.ascii "enroll")), member "workspaceId" (.string payload.workspaceId.val),
     member "accountId" (.string payload.accountId.val), member "allowScreenControl" (.boolean payload.allowScreenControl),
     member "iat" (.number (Json.numberOfNat payload.iat.val)), member "exp" (.number (Json.numberOfNat payload.exp.val))]

def StreamTokenPayload.toJson (payload : StreamTokenPayload) : JsonValue := .object
    [member "workspaceId" (.string payload.workspaceId.val), member "sessionId" (.string payload.sessionId.val),
     member "viewerId" (.string payload.viewerId.val), member "leaseEpoch" (.number (Json.numberOfNat payload.leaseEpoch.val)),
     member "mode" (.string payload.mode.text), member "port" (.number (Json.numberOfNat payload.port.val)),
     member "exp" (.number (Json.numberOfNat payload.exp.val))]

def RelayTokenPayload.toJson (payload : RelayTokenPayload) : JsonValue := .object
    [member "workspaceId" (.string payload.workspaceId.val), member "agentId" (.string payload.agentId.val),
     member "exp" (.number (Json.numberOfNat payload.exp.val))]

def DelegatedAccessTokenPayload.safeParse (value : JsonValue) : Option DelegatedAccessTokenPayload := do
  let accountId ← required value "accountId" Uuid.read
  let workspaceId ← required value "workspaceId" Uuid.read
  let subjectId ← required value "subjectId" NonEmptyString.read
  let subjectLabel ← optional value "subjectLabel" readString
  let permissions ← required value "permissions" readPermissions
  let sessionId ← optional value "sessionId" Uuid.read
  let turnId ← optional value "turnId" Uuid.read
  let exp ← required value "exp" PositiveInt.read
  some { accountId, workspaceId, subjectId, subjectLabel, permissions, sessionId, turnId, exp }

def EnrollmentBearerPayload.safeParse (value : JsonValue) : Option EnrollmentBearerPayload := do
  let workspaceId ← required value "workspaceId" Uuid.read
  let agentId ← required value "agentId" Uuid.read
  let enrollmentId ← required value "enrollmentId" Uuid.read
  let subjectPrefix ← required value "subjectPrefix" NonEmptyString.read
  let exp ← required value "exp" PositiveInt.read
  some { workspaceId, agentId, enrollmentId, subjectPrefix, exp }

def EnrollTokenPayload.safeParse (value : JsonValue) : Option EnrollTokenPayload := do
  let _ ← required value "typ" readEnroll
  let workspaceId ← required value "workspaceId" Uuid.read
  let accountId ← required value "accountId" Uuid.read
  let allowScreenControl ← required value "allowScreenControl" readBoolean
  let iat ← required value "iat" NonNegativeInt.read
  let exp ← required value "exp" PositiveInt.read
  some { workspaceId, accountId, allowScreenControl, iat, exp }

def StreamTokenPayload.safeParse (value : JsonValue) : Option StreamTokenPayload := do
  let workspaceId ← required value "workspaceId" Uuid.read
  let sessionId ← required value "sessionId" Uuid.read
  let viewerId ← required value "viewerId" Uuid.read
  let leaseEpoch ← required value "leaseEpoch" NonNegativeInt.read
  let mode ← required value "mode" StreamMode.read
  let port ← required value "port" PositiveInt.read
  let exp ← required value "exp" PositiveInt.read
  some { workspaceId, sessionId, viewerId, leaseEpoch, mode, port, exp }

def RelayTokenPayload.safeParse (value : JsonValue) : Option RelayTokenPayload := do
  let workspaceId ← required value "workspaceId" Uuid.read
  let agentId ← required value "agentId" Uuid.read
  let exp ← required value "exp" PositiveInt.read
  some { workspaceId, agentId, exp }

/-! ## Signing and verifying -/

def base64UrlEncode (value : Text) : Text := Base64Url.encode (Utf8.encode value)

def base64UrlDecode (value : Text) : Text :=
  let (pending, text) := Transducer.feed Utf8.step {} (Base64Url.decode value)
  if pending.needed = 0 then text else text ++ [Utf8.replacement]

def splitLastDot : Text → Option (Text × Text)
  | [] => none
  | c :: text =>
    match splitLastDot text with
    | some (before, behind) => some (c :: before, behind)
    | none => if c = '.' then some ([], text) else none

inductive SyntaxError
  | mk

def tagOf (name : String) : Text := name.toList

section

variable (hmacSha256 : Text → Text → List UInt8) (secret : Text)

def hmacSha256Base64Url (value : Text) : Text := Base64Url.encode (hmacSha256 secret value)

def signToken (tag : Text) (payload : JsonValue) : Text :=
  let encodedPayload := base64UrlEncode (Json.stringify payload)
  tag ++ encodedPayload ++ '.' :: hmacSha256Base64Url hmacSha256 secret encodedPayload

/-- The encoded payload of a token with the tag, if its signature is right. -/
def verifyEnvelope (tag token : Text) : Option Text := if tag <+: token then
    match splitLastDot (token.drop tag.length) with
    | none => none
    | some (encodedPayload, signature) =>
      if encodedPayload ≠ [] ∧ signature = hmacSha256Base64Url hmacSha256 secret encodedPayload then
        some encodedPayload
      else
        none
  else
    none

/-- `null` is `none`. Where the JSON is not caught, a payload that is none throws. -/
def verifyToken {α : Type} (tag : Text) (catches : Bool) (safeParse : JsonValue → Option α) (exp : α → PositiveInt)
    (token : Text) (nowSeconds : ℤ) : Except SyntaxError (Option α) :=
  match verifyEnvelope hmacSha256 secret tag token with
  | none => .ok none
  | some encodedPayload =>
    match Json.parse (base64UrlDecode encodedPayload) with
    | none => if catches then .ok none else .error .mk
    | some decoded =>
      match safeParse decoded with
      | none => .ok none
      | some payload => if ((exp payload).val : ℤ) < nowSeconds then .ok none else .ok (some payload)

def signDelegatedAccessToken (payload : DelegatedAccessTokenPayload) : Text :=
  signToken hmacSha256 secret (tagOf "ogd_") payload.toJson

def verifyDelegatedAccessToken (token : Text) (nowSeconds : ℤ) : Except SyntaxError (Option DelegatedAccessTokenPayload) :=
  verifyToken hmacSha256 secret (tagOf "ogd_") false DelegatedAccessTokenPayload.safeParse (·.exp) token nowSeconds

def signEnrollmentBearer (payload : EnrollmentBearerPayload) : Text := signToken hmacSha256 secret (tagOf "oge_") payload.toJson

def verifyEnrollmentBearer (token : Text) (nowSeconds : ℤ) : Except SyntaxError (Option EnrollmentBearerPayload) :=
  verifyToken hmacSha256 secret (tagOf "oge_") false EnrollmentBearerPayload.safeParse (·.exp) token nowSeconds

def signEnrollToken (payload : EnrollTokenPayload) : Text := signToken hmacSha256 secret (tagOf "oget_") payload.toJson

def verifyEnrollToken (token : Text) (nowSeconds : ℤ) : Except SyntaxError (Option EnrollTokenPayload) :=
  verifyToken hmacSha256 secret (tagOf "oget_") true EnrollTokenPayload.safeParse (·.exp) token nowSeconds

def signStreamToken (payload : StreamTokenPayload) : Text := signToken hmacSha256 secret (tagOf "ogs_") payload.toJson

def verifyStreamToken (token : Text) (nowSeconds : ℤ) : Except SyntaxError (Option StreamTokenPayload) :=
  verifyToken hmacSha256 secret (tagOf "ogs_") true StreamTokenPayload.safeParse (·.exp) token nowSeconds

def signRelayToken (payload : RelayTokenPayload) : Text := signToken hmacSha256 secret (tagOf "ogr_") payload.toJson

def verifyRelayToken (token : Text) (nowSeconds : ℤ) : Except SyntaxError (Option RelayTokenPayload) :=
  verifyToken hmacSha256 secret (tagOf "ogr_") true RelayTokenPayload.safeParse (·.exp) token nowSeconds

end

/-! ## Payloads read back -/

@[simp] theorem Uuid.read_string (id : Uuid) : Uuid.read (.string id.val) = some id := dif_pos id.property

@[simp] theorem NonNegativeInt.read_number (n : NonNegativeInt) :
    NonNegativeInt.read (.number (Json.numberOfNat n.val)) = some n := by
  unfold NonNegativeInt.read
  simp only [Json.integer_numberOfNat]
  exact dif_pos n.property

@[simp] theorem PositiveInt.read_number (n : PositiveInt) : PositiveInt.read (.number (Json.numberOfNat n.val)) = some n := by
  unfold PositiveInt.read
  rw [NonNegativeInt.read_number ⟨n.val, n.property.2⟩, Option.bind_some]
  exact dif_pos n.property.1

@[simp] theorem StreamMode.read_text (mode : StreamMode) : StreamMode.read (.string mode.text) = some mode := by
  cases mode <;> rfl

theorem required_of {α : Type} {value member : JsonValue} {name : String} {read : JsonValue → Option α}
    (h : Json.lastMember value (.ascii name) = some member) : required value name read = read member := by
  rw [required, h, Option.bind_some]

theorem required_of_none {α : Type} {value : JsonValue} {name : String} {read : JsonValue → Option α}
    (h : Json.lastMember value (.ascii name) = none) : required value name read = none := by
  rw [required, h, Option.bind_none]

theorem DelegatedAccessTokenPayload.lastMember_none (payload : DelegatedAccessTokenPayload) :
    Json.lastMember payload.toJson (.ascii "enrollmentId") = none ∧ Json.lastMember payload.toJson (.ascii "typ") = none ∧
    Json.lastMember payload.toJson (.ascii "viewerId") = none ∧ Json.lastMember payload.toJson (.ascii "agentId") = none := by
  obtain ⟨accountId, workspaceId, subjectId, subjectLabel, permissions, sessionId, turnId, exp⟩ := payload
  cases subjectLabel <;> cases sessionId <;> cases turnId <;> exact ⟨rfl, rfl, rfl, rfl⟩

theorem StreamTokenPayload.safeParse_toJson (payload : StreamTokenPayload) :
    StreamTokenPayload.safeParse payload.toJson = some payload := by
  have hworkspace : required payload.toJson "workspaceId" Uuid.read = some payload.workspaceId := by
    rw [required_of rfl, Uuid.read_string]
  have hsession : required payload.toJson "sessionId" Uuid.read = some payload.sessionId := by
    rw [required_of rfl, Uuid.read_string]
  have hviewer : required payload.toJson "viewerId" Uuid.read = some payload.viewerId := by
    rw [required_of rfl, Uuid.read_string]
  have hepoch : required payload.toJson "leaseEpoch" NonNegativeInt.read = some payload.leaseEpoch := by
    rw [required_of rfl, NonNegativeInt.read_number]
  have hmode : required payload.toJson "mode" StreamMode.read = some payload.mode := by
    rw [required_of rfl, StreamMode.read_text]
  have hport : required payload.toJson "port" PositiveInt.read = some payload.port := by
    rw [required_of rfl, PositiveInt.read_number]
  have hexp : required payload.toJson "exp" PositiveInt.read = some payload.exp := by
    rw [required_of rfl, PositiveInt.read_number]
  simp [safeParse, hworkspace, hsession, hviewer, hepoch, hmode, hport, hexp]

theorem RelayTokenPayload.safeParse_of {value : JsonValue} {workspaceId agentId : Uuid} {exp : PositiveInt}
    (hworkspace : Json.lastMember value (.ascii "workspaceId") = some (.string workspaceId.val))
    (hagent : Json.lastMember value (.ascii "agentId") = some (.string agentId.val))
    (hexp : Json.lastMember value (.ascii "exp") = some (.number (Json.numberOfNat exp.val))) :
    RelayTokenPayload.safeParse value = some { workspaceId, agentId, exp } := by
  simp [safeParse, required_of hworkspace, required_of hagent, required_of hexp]

/-! ## Envelopes opened again -/

theorem DelegatedAccessTokenPayload.grammatical_toJson (payload : DelegatedAccessTokenPayload) :
    Json.Grammatical payload.toJson := by
  obtain ⟨accountId, workspaceId, subjectId, subjectLabel, permissions, sessionId, turnId, exp⟩ := payload
  have hpermissions : ∀ names : List JsString, Json.GrammaticalItems (names.map .string) := by
    intro names
    induction names with
    | nil => trivial
    | cons name names ih => exact ⟨trivial, ih⟩
  have hexp := Json.isNumber_numberOfNat exp.val
  cases subjectLabel <;> cases sessionId <;> cases turnId <;>
    simp [toJson, member, optionalString, Json.Grammatical, Json.GrammaticalMembers, hpermissions, hexp]

theorem EnrollmentBearerPayload.grammatical_toJson (payload : EnrollmentBearerPayload) : Json.Grammatical payload.toJson :=
  ⟨trivial, trivial, trivial, trivial, Json.isNumber_numberOfNat _, trivial⟩

theorem EnrollTokenPayload.grammatical_toJson (payload : EnrollTokenPayload) : Json.Grammatical payload.toJson :=
  ⟨trivial, trivial, trivial, trivial, Json.isNumber_numberOfNat _, Json.isNumber_numberOfNat _, trivial⟩

theorem StreamTokenPayload.grammatical_toJson (payload : StreamTokenPayload) : Json.Grammatical payload.toJson :=
  ⟨trivial, trivial, trivial, Json.isNumber_numberOfNat _, trivial, Json.isNumber_numberOfNat _, Json.isNumber_numberOfNat _,
    trivial⟩

theorem RelayTokenPayload.grammatical_toJson (payload : RelayTokenPayload) : Json.Grammatical payload.toJson :=
  ⟨trivial, trivial, Json.isNumber_numberOfNat _, trivial⟩

theorem splitLastDot_eq_none {text : Text} (h : '.' ∉ text) : splitLastDot text = none := by
  induction text with
  | nil => rfl
  | cons c text ih =>
    rw [List.mem_cons, not_or] at h
    rw [splitLastDot, ih h.2]
    exact if_neg (Ne.symm h.1)

theorem splitLastDot_append {before behind : Text} (h : '.' ∉ behind) :
    splitLastDot (before ++ '.' :: behind) = some (before, behind) := by
  induction before with
  | nil =>
    rw [List.nil_append, splitLastDot, splitLastDot_eq_none h]
    rfl
  | cons c before ih => rw [List.cons_append, splitLastDot, ih]

theorem base64UrlDecode_encode (text : Text) : base64UrlDecode (base64UrlEncode text) = text := by
  unfold base64UrlDecode base64UrlEncode
  rw [Base64Url.decode_encode, Utf8.feed_encode]
  rfl

theorem base64UrlEncode_ne_nil {text : Text} (h : text ≠ []) : base64UrlEncode text ≠ [] := by
  apply Base64Url.encode_ne_nil
  intro hnil
  have hfeed := Utf8.feed_encode text
  rw [hnil] at hfeed
  exact h (congrArg Prod.snd hfeed).symm

section

variable {hmacSha256 : Text → Text → List UInt8} {secret : Text}

theorem verifyEnvelope_signToken {payload : JsonValue} (hpayload : Json.Grammatical payload) (tag : Text) :
    verifyEnvelope hmacSha256 secret tag (signToken hmacSha256 secret tag payload) =
      some (base64UrlEncode (Json.stringify payload)) := by
  have hne : base64UrlEncode (Json.stringify payload) ≠ [] :=
    base64UrlEncode_ne_nil (List.ne_nil_of_length_pos (Json.length_pos_of_stringify hpayload))
  have hsplit : ∀ encodedPayload, splitLastDot (encodedPayload ++ '.' :: hmacSha256Base64Url hmacSha256 secret encodedPayload) =
      some (encodedPayload, hmacSha256Base64Url hmacSha256 secret encodedPayload) :=
    fun _ => splitLastDot_append (Base64Url.dot_not_mem_encode _)
  unfold verifyEnvelope signToken
  simp only [List.append_assoc]
  rw [if_pos (List.prefix_append _ _), List.drop_left, hsplit]
  exact if_pos ⟨hne, rfl⟩

theorem verifyToken_ok_iff {α : Type} {tag token : Text} {catches : Bool} {safeParse : JsonValue → Option α}
    {exp : α → PositiveInt} {nowSeconds : ℤ} {payload : JsonValue} {parsed : α} (hpayload : Json.Grammatical payload)
    (henvelope : verifyEnvelope hmacSha256 secret tag token = some (base64UrlEncode (Json.stringify payload))) :
    verifyToken hmacSha256 secret tag catches safeParse exp token nowSeconds = .ok (some parsed) ↔
      safeParse payload = some parsed ∧ nowSeconds ≤ (exp parsed).val := by
  unfold verifyToken
  simp only [henvelope, base64UrlDecode_encode, Json.parse_stringify hpayload]
  cases safeParse payload with
  | none => simp
  | some found =>
    by_cases hexpired : ((exp found).val : ℤ) < nowSeconds
    · simp only [hexpired, if_true, Except.ok.injEq, reduceCtorEq, Option.some.injEq, false_iff, not_and]
      rintro rfl
      exact Int.not_le.2 hexpired
    · simp only [hexpired, if_false, Except.ok.injEq, Option.some.injEq]
      constructor
      · rintro rfl
        exact ⟨rfl, Int.not_lt.1 hexpired⟩
      · exact And.left

theorem envelope_of_verifyToken {α : Type} {tag token : Text} {catches : Bool} {safeParse : JsonValue → Option α}
    {exp : α → PositiveInt} {nowSeconds : ℤ} {parsed : α}
    (h : verifyToken hmacSha256 secret tag catches safeParse exp token nowSeconds = .ok (some parsed)) :
    ∃ encodedPayload, verifyEnvelope hmacSha256 secret tag token = some encodedPayload := by
  cases henvelope : verifyEnvelope hmacSha256 secret tag token with
  | none =>
    simp only [verifyToken, henvelope] at h
    cases h
  | some encodedPayload => exact ⟨encodedPayload, rfl⟩

end

end OpenGeni.Contracts
