/-
The relay verifies the tokens of its two ends.

The envelope is the one of TypeScript. The payload is read more strictly: base64url without stray
bits, UTF-8 without errors, each member of the claims once, strings without lone surrogates and
integers that are written as integers and fit their types. Members that are no claims are ignored.
-/
import OpenGeni.Contracts.Tokens

namespace OpenGeni.Relay

open OpenGeni.Lib
open OpenGeni.Contracts (Text JsonValue hmacSha256Base64Url splitLastDot tagOf)

structure StreamTokenClaims where
  workspace_id : Text
  session_id : Text
  viewer_id : Text
  lease_epoch : ℕ
  mode : Text
  port : ℕ
  exp : ℤ

structure RelayTokenClaims where
  workspace_id : Text
  agent_id : Text
  exp : ℤ

inductive TokenError
  | badPrefix
  | malformed
  | badSignature
  | badClaims
  | expired

/-! ## Claims -/

/-- The member of a claim. A claim that is missing or stands twice is refused. -/
def claim {α : Type} (value : JsonValue) (name : String) (read : JsonValue → Option α) : Option α :=
  match value with
  | .object members =>
    match members.filter (·.1 = .ascii name) with
    | [member] => read member.2
    | _ => none
  | _ => none

def readString : JsonValue → Option Text
  | .string s => Json.toText s
  | _ => none

/-- An integer from `lower` to below `upper`. -/
def readInteger (lower upper : ℤ) : JsonValue → Option ℤ
  | .number n => (Json.plainInteger n).filter fun z => lower ≤ z ∧ z < upper
  | _ => none

def readU32 (value : JsonValue) : Option ℕ := (readInteger 0 (2 ^ 32) value).map Int.toNat

def readU64 (value : JsonValue) : Option ℕ := (readInteger 0 (2 ^ 64) value).map Int.toNat

def readI64 (value : JsonValue) : Option ℤ := readInteger (-2 ^ 63) (2 ^ 63) value

def StreamTokenClaims.deserialize (value : JsonValue) : Option StreamTokenClaims := do
  let workspace_id ← claim value "workspaceId" readString
  let session_id ← claim value "sessionId" readString
  let viewer_id ← claim value "viewerId" readString
  let lease_epoch ← claim value "leaseEpoch" readU64
  let mode ← claim value "mode" readString
  let port ← claim value "port" readU32
  let exp ← claim value "exp" readI64
  some { workspace_id, session_id, viewer_id, lease_epoch, mode, port, exp }

def RelayTokenClaims.deserialize (value : JsonValue) : Option RelayTokenClaims := do
  let workspace_id ← claim value "workspaceId" readString
  let agent_id ← claim value "agentId" readString
  let exp ← claim value "exp" readI64
  some { workspace_id, agent_id, exp }

def base64_url_decode (s : Text) : Option (List UInt8) := Base64Url.decodeStrict (s.rdropWhile (· = '='))

/-- `serde_json::from_slice`, up to the value. -/
def from_slice (bytes : List UInt8) : Option JsonValue := let text := (Transducer.feed Utf8.step {} bytes).2
  if Utf8.encode text = bytes then Json.parse text else none

def decode_claims {α : Type} (deserialize : JsonValue → Option α) (encoded_payload : Text) : Except TokenError α :=
  match ((base64_url_decode encoded_payload).bind from_slice).bind deserialize with
  | none => .error .badClaims
  | some claims => .ok claims

/-! ## Verifying -/

section

variable (hmacSha256 : Text → Text → List UInt8) (secret : Text)

def verify_envelope (tag token : Text) : Except TokenError Text := if tag <+: token then
    match splitLastDot (token.drop tag.length) with
    | none => .error .malformed
    | some (encoded_payload, signature) =>
      if encoded_payload = [] then
        .error .malformed
      else if signature = hmacSha256Base64Url hmacSha256 secret encoded_payload then
        .ok encoded_payload
      else
        .error .badSignature
  else
    .error .badPrefix

def verify_token {α : Type} (tag : Text) (deserialize : JsonValue → Option α) (exp : α → ℤ) (token : Text) (now_seconds : ℤ) :
    Except TokenError α := do
  let encoded_payload ← verify_envelope hmacSha256 secret tag token
  let claims ← decode_claims deserialize encoded_payload
  if exp claims < now_seconds then .error .expired else .ok claims

def verify_stream_token (token : Text) (now_seconds : ℤ) : Except TokenError StreamTokenClaims :=
  verify_token hmacSha256 secret (tagOf "ogs_") StreamTokenClaims.deserialize (·.exp) token now_seconds

def verify_relay_token (token : Text) (now_seconds : ℤ) : Except TokenError RelayTokenClaims :=
  verify_token hmacSha256 secret (tagOf "ogr_") RelayTokenClaims.deserialize (·.exp) token now_seconds

end

/-! ## Minted tokens -/

theorem claim_eq_none {α : Type} {value : JsonValue} {name : String} {read : JsonValue → Option α}
    (h : Json.lastMember value (.ascii name) = none) : claim value name read = none := by
  cases value with
  | object members =>
    have hnone : members.filter (·.1 = .ascii name) = [] := by
      rw [List.filter_eq_nil_iff]
      intro member hmember heq
      rw [decide_eq_true_eq] at heq
      have hlookup : members.reverse.lookup (.ascii name) = none := h
      rw [List.lookup_eq_none_iff] at hlookup
      exact (bne_iff_ne.1 (hlookup member (List.mem_reverse.2 hmember))) heq.symm
    simp only [claim, hnone]
  | _ => rfl

def textOf (s : JsString) : Text := s.map fun unit => Char.ofNat unit.toNat

theorem ascii_of_all {s : JsString} (h : s.all (· < 0x80) = true) : ∀ unit ∈ s, unit < 0x80 :=
  fun unit hunit => of_decide_eq_true (List.all_eq_true.1 h unit hunit)

theorem fits_ascii {tests : List (UInt16 → Bool)} {s : JsString} (htests : ∀ test ∈ tests, ∀ unit, test unit → unit < 0x80)
    (h : Contracts.fits tests s) : ∀ unit ∈ s, unit < 0x80 := by
  induction tests generalizing s with
  | nil =>
    cases s with
    | nil => simp
    | cons unit s => cases h
  | cons test tests ih =>
    cases s with
    | nil => simp
    | cons unit s =>
      rw [Contracts.fits, Bool.and_eq_true] at h
      intro u hu
      rw [List.mem_cons] at hu
      obtain rfl | hu := hu
      · exact htests test List.mem_cons_self u h.1
      · exact ih (fun t ht => htests t (List.mem_cons_of_mem _ ht)) h.2 u hu

theorem uuid_ascii (id : Contracts.Uuid) : ∀ unit ∈ id.val, unit < 0x80 := by
  have hunits := id.property
  simp only [Contracts.isUuid, Bool.or_eq_true, decide_eq_true_eq] at hunits
  obtain (hfits | heq) | heq := hunits
  · refine fits_ascii ?_ hfits
    intro test htest unit hunit
    have hone : test = Contracts.isHexUnit ∨ test = Contracts.isDash ∨ test = Contracts.isVersion ∨ test = Contracts.isVariant := by
      simp only [Contracts.uuidPattern, List.mem_append, List.mem_cons, List.mem_replicate] at htest
      tauto
    obtain rfl | rfl | rfl | rfl := hone
    · simp only [Contracts.isHexUnit, Bool.or_eq_true, Bool.and_eq_true, decide_eq_true_eq, UInt16.le_iff_toNat_le,
        UInt16.reduceToNat] at hunit
      rw [UInt16.lt_iff_toNat_lt]
      exact Nat.lt_of_le_of_lt (by omega : unit.toNat ≤ 0x66) (by decide)
    · rw [of_decide_eq_true hunit]
      decide
    · simp only [Contracts.isVersion, Bool.and_eq_true, decide_eq_true_eq, UInt16.le_iff_toNat_le, UInt16.reduceToNat] at hunit
      rw [UInt16.lt_iff_toNat_lt]
      exact Nat.lt_of_le_of_lt hunit.2 (by decide)
    · simp only [Contracts.isVariant, Bool.or_eq_true, decide_eq_true_eq] at hunit
      obtain ((((rfl | rfl) | rfl) | rfl) | rfl) | rfl := hunit <;> decide
  · rw [heq]
    exact ascii_of_all rfl
  · rw [heq]
    exact ascii_of_all rfl

theorem toText_uuid (id : Contracts.Uuid) : Json.toText id.val = some (textOf id.val) :=
  Json.toText_of_ascii (uuid_ascii id)

theorem readInteger_number {lower upper : ℤ} {n : ℕ} :
    readInteger lower upper (.number (Json.numberOfNat n)) = if lower ≤ n ∧ (n : ℤ) < upper then some (n : ℤ) else none := by
  unfold readInteger
  simp only [Json.plainInteger_numberOfNat, Option.filter_some, decide_eq_true_eq]

theorem readU32_number {n : ℕ} : readU32 (.number (Json.numberOfNat n)) = if n < 2 ^ 32 then some n else none := by
  unfold readU32
  rw [readInteger_number]
  by_cases h : n < 2 ^ 32
  · rw [if_pos h, if_pos ⟨Int.natCast_nonneg n, by exact_mod_cast h⟩]
    rfl
  · rw [if_neg h, if_neg fun hrange => h (by exact_mod_cast hrange.2)]
    rfl

theorem readU64_number {n : ℕ} (h : n < 2 ^ 64) : readU64 (.number (Json.numberOfNat n)) = some n := by
  unfold readU64
  rw [readInteger_number, if_pos ⟨Int.natCast_nonneg n, by exact_mod_cast h⟩]
  rfl

theorem readI64_number {n : ℕ} (h : n < 2 ^ 63) : readI64 (.number (Json.numberOfNat n)) = some (n : ℤ) := by
  have hupper : (n : ℤ) < 2 ^ 63 := by exact_mod_cast h
  unfold readI64
  rw [readInteger_number, if_pos ⟨by omega, hupper⟩]

theorem toText_mode (mode : Contracts.StreamMode) : Json.toText mode.text = some (textOf mode.text) := by
  apply Json.toText_of_ascii
  cases mode <;> exact ascii_of_all rfl

theorem readString_uuid (id : Contracts.Uuid) : readString (.string id.val) = some (textOf id.val) := toText_uuid id

theorem StreamTokenClaims.deserialize_toJson (payload : Contracts.StreamTokenPayload) :
    StreamTokenClaims.deserialize payload.toJson =
      if payload.port.val < 2 ^ 32 then
        some
          { workspace_id := textOf payload.workspaceId.val, session_id := textOf payload.sessionId.val
            viewer_id := textOf payload.viewerId.val, lease_epoch := payload.leaseEpoch.val
            mode := textOf payload.mode.text, port := payload.port.val, exp := payload.exp.val }
      else
        none := by
  have hmax : Contracts.maxSafeInteger < 2 ^ 53 := by decide
  have hworkspace : claim payload.toJson "workspaceId" readString = some (textOf payload.workspaceId.val) := by
    rw [← readString_uuid]
    rfl
  have hsession : claim payload.toJson "sessionId" readString = some (textOf payload.sessionId.val) := by
    rw [← readString_uuid]
    rfl
  have hviewer : claim payload.toJson "viewerId" readString = some (textOf payload.viewerId.val) := by
    rw [← readString_uuid]
    rfl
  have hepoch : claim payload.toJson "leaseEpoch" readU64 = some payload.leaseEpoch.val := by
    rw [← readU64_number (show payload.leaseEpoch.val < 2 ^ 64 by have hle := payload.leaseEpoch.property; omega)]
    rfl
  have hmode : claim payload.toJson "mode" readString = some (textOf payload.mode.text) := by
    rw [← toText_mode]
    rfl
  have hport : claim payload.toJson "port" readU32 = if payload.port.val < 2 ^ 32 then some payload.port.val else none := by
    rw [← readU32_number]
    rfl
  have hexp : claim payload.toJson "exp" readI64 = some (payload.exp.val : ℤ) := by
    rw [← readI64_number (show payload.exp.val < 2 ^ 63 by have hle := payload.exp.property.2; omega)]
    rfl
  simp only [deserialize, hworkspace, hsession, hviewer, hepoch, hmode, hport, hexp, Option.bind_eq_bind, Option.bind_some]
  by_cases hfits : payload.port.val < 2 ^ 32
  · rw [if_pos hfits, if_pos hfits, Option.bind_some]
  · rw [if_neg hfits, if_neg hfits, Option.bind_none]

theorem RelayTokenClaims.deserialize_of {value : JsonValue} {workspaceId agentId : Contracts.Uuid}
    {exp : Contracts.PositiveInt}
    (hworkspace : claim value "workspaceId" readString = readString (.string workspaceId.val))
    (hagent : claim value "agentId" readString = readString (.string agentId.val))
    (hexp : claim value "exp" readI64 = readI64 (.number (Json.numberOfNat exp.val))) :
    RelayTokenClaims.deserialize value =
      some { workspace_id := textOf workspaceId.val, agent_id := textOf agentId.val, exp := exp.val } := by
  have hmax : Contracts.maxSafeInteger < 2 ^ 53 := by decide
  have hfits : exp.val < 2 ^ 63 := by have hle := exp.property.2; omega
  rw [readString_uuid] at hworkspace hagent
  rw [readI64_number hfits] at hexp
  simp only [deserialize, hworkspace, hagent, hexp, Option.bind_eq_bind, Option.bind_some]

theorem base64_url_decode_encode (text : Text) :
    base64_url_decode (Contracts.base64UrlEncode text) = some (Utf8.encode text) := by
  have hpad : (Contracts.base64UrlEncode text).rdropWhile (· = '=') = Contracts.base64UrlEncode text := by
    rw [List.rdropWhile_eq_self_iff]
    intro hne heq
    rw [decide_eq_true_eq] at heq
    exact Base64Url.pad_not_mem_encode _ (heq ▸ List.getLast_mem hne)
  unfold base64_url_decode
  rw [hpad]
  exact Base64Url.decodeStrict_encode _

theorem from_slice_encode (text : Text) : from_slice (Utf8.encode text) = Json.parse text := by
  unfold from_slice
  simp only [Utf8.feed_encode, if_true]

theorem decode_claims_encode {α : Type} {deserialize : JsonValue → Option α} {payload : JsonValue}
    (hpayload : Json.Grammatical payload) :
    ((base64_url_decode (Contracts.base64UrlEncode (Json.stringify payload))).bind from_slice).bind deserialize =
      deserialize payload := by
  rw [base64_url_decode_encode, Option.bind_some, from_slice_encode, Json.parse_stringify hpayload, Option.bind_some]

section

variable {hmacSha256 : Text → Text → List UInt8} {secret : Text}

variable {tag token : Text} {now_seconds : ℤ}

theorem verify_envelope_ok_iff {encoded_payload : Text} :
    verify_envelope hmacSha256 secret tag token = .ok encoded_payload ↔
      Contracts.verifyEnvelope hmacSha256 secret tag token = some encoded_payload := by
  unfold verify_envelope Contracts.verifyEnvelope
  by_cases htag : tag <+: token
  · rw [if_pos htag, if_pos htag]
    cases splitLastDot (token.drop tag.length) with
    | none => simp
    | some parts =>
      obtain ⟨encoded, signature⟩ := parts
      by_cases hempty : encoded = []
      · simp [hempty]
      · by_cases hsignature : signature = hmacSha256Base64Url hmacSha256 secret encoded
        · simp [hempty, hsignature]
        · simp [hempty, hsignature]
  · simp [htag]

theorem verify_token_ok_iff {α : Type} {deserialize : JsonValue → Option α} {exp : α → ℤ}
    {payload : JsonValue} {claims : α} (hpayload : Json.Grammatical payload)
    (henvelope : Contracts.verifyEnvelope hmacSha256 secret tag token =
      some (Contracts.base64UrlEncode (Json.stringify payload))) :
    verify_token hmacSha256 secret tag deserialize exp token now_seconds = .ok claims ↔
      deserialize payload = some claims ∧ now_seconds ≤ exp claims := by
  have hdecode : decode_claims deserialize (Contracts.base64UrlEncode (Json.stringify payload)) =
      (match deserialize payload with
       | none => .error .badClaims
       | some claims => .ok claims) := by
    unfold decode_claims
    rw [decode_claims_encode hpayload]
  unfold verify_token
  rw [verify_envelope_ok_iff.2 henvelope]
  simp only [hdecode, bind, Except.bind]
  cases deserialize payload with
  | none => simp
  | some found =>
    by_cases hexpired : exp found < now_seconds
    · simp only [hexpired, if_true]
      constructor
      · intro h
        cases h
      · rintro ⟨⟨⟩, hle⟩
        omega
    · simp only [hexpired, if_false, Except.ok.injEq, Option.some.injEq]
      constructor
      · rintro rfl
        exact ⟨rfl, Int.not_lt.1 hexpired⟩
      · exact And.left

theorem verify_token_badClaims {α : Type} {tag token : Text} {deserialize : JsonValue → Option α} {exp : α → ℤ}
    {now_seconds : ℤ} {payload : JsonValue} (hpayload : Json.Grammatical payload)
    (henvelope : Contracts.verifyEnvelope hmacSha256 secret tag token =
      some (Contracts.base64UrlEncode (Json.stringify payload))) (hnone : deserialize payload = none) :
    verify_token hmacSha256 secret tag deserialize exp token now_seconds = .error .badClaims := by
  unfold verify_token
  rw [verify_envelope_ok_iff.2 henvelope]
  simp only [decode_claims, decode_claims_encode hpayload, hnone, bind, Except.bind]

theorem envelope_of_verify_token {α : Type} {deserialize : JsonValue → Option α} {exp : α → ℤ} {claims : α}
    (h : verify_token hmacSha256 secret tag deserialize exp token now_seconds = .ok claims) :
    ∃ encoded_payload, Contracts.verifyEnvelope hmacSha256 secret tag token = some encoded_payload := by
  cases henvelope : verify_envelope hmacSha256 secret tag token with
  | error e =>
    rw [verify_token, henvelope] at h
    cases h
  | ok encoded_payload => exact ⟨encoded_payload, verify_envelope_ok_iff.1 henvelope⟩

end

end OpenGeni.Relay
