/-
One secret signs all kinds of token: which verifier accepts which token?

The signature covers the encoded payload and not the tag, so a string that an attacker builds from a
token may carry any tag, and nothing but the schemas keeps the kinds apart. Each schema but one asks
for a member that no other payload has. The relay token asks for a workspace, an agent and an
expiry, which an enrollment bearer has too.

Unforgeability is said of one string: wherever its signature is right, it is that of the token.
-/
import OpenGeni.Relay.Token

namespace OpenGeni.Contracts

open OpenGeni.Lib

inductive TokenKind
  | access
  | bearer
  | enroll
  | stream
  | relay

def TokenKind.tag : TokenKind → Text
  | .access => tagOf "ogd_"
  | .bearer => tagOf "oge_"
  | .enroll => tagOf "oget_"
  | .stream => tagOf "ogs_"
  | .relay => tagOf "ogr_"

inductive TokenClaims
  | access (payload : DelegatedAccessTokenPayload)
  | bearer (payload : EnrollmentBearerPayload)
  | enroll (payload : EnrollTokenPayload)
  | stream (payload : StreamTokenPayload)
  | relay (payload : RelayTokenPayload)

namespace TokenClaims

def kind : TokenClaims → TokenKind
  | access _ => .access
  | bearer _ => .bearer
  | enroll _ => .enroll
  | stream _ => .stream
  | relay _ => .relay

def toJson : TokenClaims → JsonValue
  | access payload => payload.toJson
  | bearer payload => payload.toJson
  | enroll payload => payload.toJson
  | stream payload => payload.toJson
  | relay payload => payload.toJson

def exp : TokenClaims → PositiveInt
  | access payload => payload.exp
  | bearer payload => payload.exp
  | enroll payload => payload.exp
  | stream payload => payload.exp
  | relay payload => payload.exp

def encodedPayload (claims : TokenClaims) : Text := base64UrlEncode (Json.stringify claims.toJson)

end TokenClaims

def StreamTokenPayload.SameAs (payload : StreamTokenPayload) (claims : Relay.StreamTokenClaims) : Prop :=
  Json.toText payload.workspaceId.val = some claims.workspace_id ∧ Json.toText payload.sessionId.val = some claims.session_id ∧
    Json.toText payload.viewerId.val = some claims.viewer_id ∧ payload.leaseEpoch.val = claims.lease_epoch ∧
    Json.toText payload.mode.text = some claims.mode ∧ payload.port.val = claims.port ∧ (payload.exp.val : ℤ) = claims.exp

def RelayTokenPayload.SameAs (payload : RelayTokenPayload) (claims : Relay.RelayTokenClaims) : Prop :=
  Json.toText payload.workspaceId.val = some claims.workspace_id ∧ Json.toText payload.agentId.val = some claims.agent_id ∧
    (payload.exp.val : ℤ) = claims.exp

/-- The relay returns claims when the verifier in TypeScript returns a payload, and they are the same. -/
def AgreeOn {α β : Type} (same : α → β → Prop) (inTypeScript : Except SyntaxError (Option α)) (inRelay : Except Relay.TokenError β) :
    Prop :=
  ((∃ claims, inRelay = .ok claims) ↔ ∃ payload, inTypeScript = .ok (some payload)) ∧
    ∀ payload claims, inTypeScript = .ok (some payload) → inRelay = .ok claims → same payload claims

section

variable (hmacSha256 : Text → Text → List UInt8) (secret : Text)

def TokenClaims.sign : TokenClaims → Text
  | .access payload => signDelegatedAccessToken hmacSha256 secret payload
  | .bearer payload => signEnrollmentBearer hmacSha256 secret payload
  | .enroll payload => signEnrollToken hmacSha256 secret payload
  | .stream payload => signStreamToken hmacSha256 secret payload
  | .relay payload => signRelayToken hmacSha256 secret payload

def Accepts (kind : TokenKind) (token : Text) (nowSeconds : ℤ) : Prop := match kind with
  | .access => ∃ payload, verifyDelegatedAccessToken hmacSha256 secret token nowSeconds = .ok (some payload)
  | .bearer => ∃ payload, verifyEnrollmentBearer hmacSha256 secret token nowSeconds = .ok (some payload)
  | .enroll => ∃ payload, verifyEnrollToken hmacSha256 secret token nowSeconds = .ok (some payload)
  | .stream => ∃ payload, verifyStreamToken hmacSha256 secret token nowSeconds = .ok (some payload)
  | .relay => ∃ payload, verifyRelayToken hmacSha256 secret token nowSeconds = .ok (some payload)

/-- The relay returns claims of the kind. It verifies two of them. -/
def RelayAccepts (kind : TokenKind) (token : Text) (nowSeconds : ℤ) : Prop := match kind with
  | .stream => ∃ claims, Relay.verify_stream_token hmacSha256 secret token nowSeconds = .ok claims
  | .relay => ∃ claims, Relay.verify_relay_token hmacSha256 secret token nowSeconds = .ok claims
  | _ => False

/-- A string that is built from one token without the secret: if a verifier finds its signature right,
it is over the payload of that token. -/
def Unforged (claims : TokenClaims) (token : Text) : Prop := ∀ (kind : TokenKind) (encodedPayload : Text),
    verifyEnvelope hmacSha256 secret kind.tag token = some encodedPayload → encodedPayload = claims.encodedPayload

/-- No string built from the token is accepted as a token of another kind. -/
def Separated (claims : TokenClaims) : Prop :=
  ∀ (token : Text) (kind : TokenKind) (nowSeconds : ℤ), Unforged hmacSha256 secret claims token → kind ≠ claims.kind →
    ¬ Accepts hmacSha256 secret kind token nowSeconds ∧ ¬ RelayAccepts hmacSha256 secret kind token nowSeconds

/-- Whatever the time is, the two verifiers agree on a token that both verify. -/
def Agrees : TokenClaims → Prop
  | .stream payload => ∀ nowSeconds,
      AgreeOn StreamTokenPayload.SameAs (verifyStreamToken hmacSha256 secret (signStreamToken hmacSha256 secret payload) nowSeconds)
        (Relay.verify_stream_token hmacSha256 secret (signStreamToken hmacSha256 secret payload) nowSeconds)
  | .relay payload => ∀ nowSeconds,
      AgreeOn RelayTokenPayload.SameAs (verifyRelayToken hmacSha256 secret (signRelayToken hmacSha256 secret payload) nowSeconds)
        (Relay.verify_relay_token hmacSha256 secret (signRelayToken hmacSha256 secret payload) nowSeconds)
  | _ => True

end

/-! ## What a verifier asks for -/

def TokenKind.ownMember : TokenKind → String
  | .access => "subjectId"
  | .bearer => "enrollmentId"
  | .enroll => "typ"
  | .stream => "viewerId"
  | .relay => "agentId"

/-- When a payload expires for the verifier of the kind, if it is one. -/
def TokenKind.expiry (kind : TokenKind) (payload : JsonValue) : Option PositiveInt := match kind with
  | .access => (DelegatedAccessTokenPayload.safeParse payload).map (·.exp)
  | .bearer => (EnrollmentBearerPayload.safeParse payload).map (·.exp)
  | .enroll => (EnrollTokenPayload.safeParse payload).map (·.exp)
  | .stream => (StreamTokenPayload.safeParse payload).map (·.exp)
  | .relay => (RelayTokenPayload.safeParse payload).map (·.exp)

def TokenKind.claimedExpiry (kind : TokenKind) (payload : JsonValue) : Option ℤ := match kind with
  | .stream => (Relay.StreamTokenClaims.deserialize payload).map (·.exp)
  | .relay => (Relay.RelayTokenClaims.deserialize payload).map (·.exp)
  | _ => none

variable {kind : TokenKind}

theorem TokenKind.expiry_eq_none {payload : JsonValue}
    (h : Json.lastMember payload (.ascii kind.ownMember) = none) : kind.expiry payload = none := by
  cases kind with
  | access =>
    have hmissing : required payload "subjectId" NonEmptyString.read = none := required_of_none h
    simp only [expiry, DelegatedAccessTokenPayload.safeParse, hmissing, Option.bind_eq_bind, Option.bind_none, Option.bind_fun_none, Option.map_none]
  | bearer =>
    have hmissing : required payload "enrollmentId" Uuid.read = none := required_of_none h
    simp only [expiry, EnrollmentBearerPayload.safeParse, hmissing, Option.bind_eq_bind, Option.bind_none, Option.bind_fun_none, Option.map_none]
  | enroll =>
    have hmissing : required payload "typ" readEnroll = none := required_of_none h
    simp only [expiry, EnrollTokenPayload.safeParse, hmissing, Option.bind_eq_bind, Option.bind_none, Option.map_none]
  | stream =>
    have hmissing : required payload "viewerId" Uuid.read = none := required_of_none h
    simp only [expiry, StreamTokenPayload.safeParse, hmissing, Option.bind_eq_bind, Option.bind_none, Option.bind_fun_none, Option.map_none]
  | relay =>
    have hmissing : required payload "agentId" Uuid.read = none := required_of_none h
    simp only [expiry, RelayTokenPayload.safeParse, hmissing, Option.bind_eq_bind, Option.bind_none, Option.bind_fun_none, Option.map_none]

theorem TokenKind.claimedExpiry_eq_none {payload : JsonValue}
    (h : Json.lastMember payload (.ascii kind.ownMember) = none) :
    kind.claimedExpiry payload = none := by
  cases kind with
  | stream =>
    have hmissing : Relay.claim payload "viewerId" Relay.readString = none := Relay.claim_eq_none h
    simp only [claimedExpiry, Relay.StreamTokenClaims.deserialize, hmissing, Option.bind_eq_bind, Option.bind_none, Option.bind_fun_none, Option.map_none]
  | relay =>
    have hmissing : Relay.claim payload "agentId" Relay.readString = none := Relay.claim_eq_none h
    simp only [claimedExpiry, Relay.RelayTokenClaims.deserialize, hmissing, Option.bind_eq_bind, Option.bind_none, Option.bind_fun_none, Option.map_none]
  | _ => rfl

theorem TokenClaims.lastMember_ownMember {claims : TokenClaims} (hkind : kind ≠ claims.kind)
    (hbearer : claims.kind ≠ .bearer) :
    Json.lastMember claims.toJson (.ascii kind.ownMember) = none := by
  cases claims with
  | access payload =>
    obtain ⟨henrollment, htyp, hviewer, hagent⟩ := payload.lastMember_none
    cases kind with
    | access => exact absurd rfl hkind
    | bearer => exact henrollment
    | enroll => exact htyp
    | stream => exact hviewer
    | relay => exact hagent
  | bearer payload => exact absurd rfl hbearer
  | enroll payload =>
    cases kind with
    | enroll => exact absurd rfl hkind
    | _ => rfl
  | stream payload =>
    cases kind with
    | stream => exact absurd rfl hkind
    | _ => rfl
  | relay payload =>
    cases kind with
    | relay => exact absurd rfl hkind
    | _ => rfl

theorem TokenClaims.grammatical_toJson (claims : TokenClaims) : Json.Grammatical claims.toJson := by
  cases claims with
  | access payload => exact payload.grammatical_toJson
  | bearer payload => exact payload.grammatical_toJson
  | enroll payload => exact payload.grammatical_toJson
  | stream payload => exact payload.grammatical_toJson
  | relay payload => exact payload.grammatical_toJson

section

variable {hmacSha256 : Text → Text → List UInt8} {secret : Text} {claims : TokenClaims} {kind : TokenKind} {token : Text}
  {nowSeconds : ℤ}

theorem exists_verifyToken_iff {α : Type} {tag : Text} {catches : Bool} {safeParse : JsonValue → Option α}
    {exp : α → PositiveInt} {payload : JsonValue} (hpayload : Json.Grammatical payload)
    (henvelope : verifyEnvelope hmacSha256 secret tag token = some (base64UrlEncode (Json.stringify payload))) :
    (∃ parsed, verifyToken hmacSha256 secret tag catches safeParse exp token nowSeconds = .ok (some parsed)) ↔
      ∃ expiry ∈ (safeParse payload).map exp, nowSeconds ≤ expiry.val := by
  simp only [verifyToken_ok_iff hpayload henvelope]
  cases safeParse payload with
  | none | some => simp

theorem accepts_iff (henvelope : verifyEnvelope hmacSha256 secret kind.tag token = some claims.encodedPayload) :
    Accepts hmacSha256 secret kind token nowSeconds ↔ ∃ expiry ∈ kind.expiry claims.toJson, nowSeconds ≤ expiry.val := by
  cases kind with
  | _ => exact exists_verifyToken_iff claims.grammatical_toJson henvelope

theorem envelope_of_accepts (h : Accepts hmacSha256 secret kind token nowSeconds) :
    ∃ encodedPayload, verifyEnvelope hmacSha256 secret kind.tag token = some encodedPayload := by
  cases kind with
  | _ => exact envelope_of_verifyToken h.choose_spec

theorem exists_verify_token_iff {α : Type} {tag : Text} {deserialize : JsonValue → Option α} {exp : α → ℤ} {payload : JsonValue}
    (hpayload : Json.Grammatical payload)
    (henvelope : verifyEnvelope hmacSha256 secret tag token = some (base64UrlEncode (Json.stringify payload))) :
    (∃ read, Relay.verify_token hmacSha256 secret tag deserialize exp token nowSeconds = .ok read) ↔
      ∃ expiry ∈ (deserialize payload).map exp, nowSeconds ≤ expiry := by
  simp only [Relay.verify_token_ok_iff hpayload henvelope]
  cases deserialize payload with
  | none | some => simp

theorem relayAccepts_iff (henvelope : verifyEnvelope hmacSha256 secret kind.tag token = some claims.encodedPayload) :
    RelayAccepts hmacSha256 secret kind token nowSeconds ↔
      ∃ expiry ∈ kind.claimedExpiry claims.toJson, nowSeconds ≤ expiry := by
  cases kind with
  | stream | relay => exact exists_verify_token_iff claims.grammatical_toJson henvelope
  | _ => simp [RelayAccepts, TokenKind.claimedExpiry]

theorem envelope_of_relayAccepts (h : RelayAccepts hmacSha256 secret kind token nowSeconds) :
    ∃ encodedPayload, verifyEnvelope hmacSha256 secret kind.tag token = some encodedPayload := by
  cases kind with
  | stream | relay => exact Relay.envelope_of_verify_token h.choose_spec
  | _ => exact h.elim

theorem separated_of_ne_bearer (h : claims.kind ≠ .bearer) : Separated hmacSha256 secret claims := by
  intro token kind nowSeconds hunforged hkind
  have hmissing := TokenClaims.lastMember_ownMember hkind h
  constructor
  · intro haccepts
    obtain ⟨encodedPayload, henvelope⟩ := envelope_of_accepts haccepts
    rw [hunforged kind encodedPayload henvelope] at henvelope
    obtain ⟨expiry, hexpiry, -⟩ := (accepts_iff henvelope).1 haccepts
    rw [TokenKind.expiry_eq_none hmissing] at hexpiry
    cases hexpiry
  · intro haccepts
    obtain ⟨encodedPayload, henvelope⟩ := envelope_of_relayAccepts haccepts
    rw [hunforged kind encodedPayload henvelope] at henvelope
    obtain ⟨expiry, hexpiry, -⟩ := (relayAccepts_iff henvelope).1 haccepts
    rw [TokenKind.claimedExpiry_eq_none hmissing] at hexpiry
    cases hexpiry

/-! ## A bearer with another tag -/

/-- The payload and the signature of a token under the tag of a kind. -/
def TokenClaims.signedAs (hmacSha256 : Text → Text → List UInt8) (secret : Text) (claims : TokenClaims) (kind : TokenKind) : Text :=
  kind.tag ++ (claims.sign hmacSha256 secret).drop claims.kind.tag.length

theorem TokenClaims.signedAs_eq (claims : TokenClaims) (kind : TokenKind) :
    claims.signedAs hmacSha256 secret kind = signToken hmacSha256 secret kind.tag claims.toJson := by
  have hsign : claims.sign hmacSha256 secret = signToken hmacSha256 secret claims.kind.tag claims.toJson := by
    cases claims with
    | _ => rfl
  rw [signedAs, hsign]
  simp only [signToken, List.append_assoc, List.drop_left]

theorem TokenKind.eq_of_tag {other : TokenKind} {rest : Text} (h : kind.tag <+: other.tag ++ rest) : kind = other := by
  cases kind <;> cases other <;> first | rfl | simp [TokenKind.tag, tagOf] at h

theorem unforged_signedAs (claims : TokenClaims) (kind : TokenKind) :
    Unforged hmacSha256 secret claims (claims.signedAs hmacSha256 secret kind) := by
  intro other encodedPayload henvelope
  rw [TokenClaims.signedAs_eq] at henvelope
  have htag : other.tag <+: kind.tag ++ (base64UrlEncode (Json.stringify claims.toJson) ++
      '.' :: hmacSha256Base64Url hmacSha256 secret (base64UrlEncode (Json.stringify claims.toJson))) := by
    by_contra hnot
    rw [verifyEnvelope, if_neg (by rwa [signToken, List.append_assoc])] at henvelope
    cases henvelope
  rw [TokenKind.eq_of_tag htag, verifyEnvelope_signToken claims.grammatical_toJson] at henvelope
  exact (Option.some.inj henvelope).symm

theorem not_separated_bearer (payload : EnrollmentBearerPayload) : ¬ Separated hmacSha256 secret (.bearer payload) := by
  intro hseparated
  have hunforged : Unforged hmacSha256 secret (.bearer payload)
      (TokenClaims.signedAs hmacSha256 secret (.bearer payload) .relay) := unforged_signedAs _ _
  have hkind : TokenKind.relay ≠ (TokenClaims.bearer payload).kind := TokenKind.noConfusion
  apply (hseparated _ .relay payload.exp.val hunforged hkind).1
  have henvelope : verifyEnvelope hmacSha256 secret TokenKind.relay.tag
      (TokenClaims.signedAs hmacSha256 secret (.bearer payload) .relay) = some (TokenClaims.bearer payload).encodedPayload := by
    rw [TokenClaims.signedAs_eq]
    exact verifyEnvelope_signToken (TokenClaims.grammatical_toJson _) _
  have hexpiry : TokenKind.relay.expiry (TokenClaims.bearer payload).toJson = some payload.exp :=
    congrArg (Option.map RelayTokenPayload.exp) (RelayTokenPayload.safeParse_of rfl rfl rfl)
  rw [accepts_iff henvelope]
  exact ⟨payload.exp, hexpiry, le_rfl⟩

/-! ## Agreement -/

theorem agrees_relay (payload : RelayTokenPayload) : Agrees hmacSha256 secret (.relay payload) := by
  intro nowSeconds
  have hgrammatical := payload.grammatical_toJson
  have henvelope : verifyEnvelope hmacSha256 secret (tagOf "ogr_") (signToken hmacSha256 secret (tagOf "ogr_") payload.toJson) =
      some (base64UrlEncode (Json.stringify payload.toJson)) := verifyEnvelope_signToken hgrammatical _
  have hsafe : RelayTokenPayload.safeParse payload.toJson = some payload := RelayTokenPayload.safeParse_of rfl rfl rfl
  have hread : Relay.RelayTokenClaims.deserialize payload.toJson = some _ :=
    Relay.RelayTokenClaims.deserialize_of rfl rfl rfl
  constructor
  · rw [verifyRelayToken, Relay.verify_relay_token, signRelayToken, exists_verify_token_iff hgrammatical henvelope,
      exists_verifyToken_iff hgrammatical henvelope, hread, hsafe]
    simp
  · intro parsed claims hparsed hclaims
    obtain ⟨hparse, -⟩ := (verifyToken_ok_iff hgrammatical henvelope).1 hparsed
    obtain ⟨hfound, -⟩ := (Relay.verify_token_ok_iff hgrammatical henvelope).1 hclaims
    rw [hsafe, Option.some.injEq] at hparse
    rw [hread, Option.some.injEq] at hfound
    rw [← hparse, ← hfound]
    exact ⟨Relay.toText_uuid _, Relay.toText_uuid _, rfl⟩

theorem agrees_stream_iff (payload : StreamTokenPayload) :
    Agrees hmacSha256 secret (.stream payload) ↔ payload.port.val < 2 ^ 32 := by
  have hgrammatical := payload.grammatical_toJson
  have henvelope : verifyEnvelope hmacSha256 secret (tagOf "ogs_") (signToken hmacSha256 secret (tagOf "ogs_") payload.toJson) =
      some (base64UrlEncode (Json.stringify payload.toJson)) := verifyEnvelope_signToken hgrammatical _
  have hread := Relay.StreamTokenClaims.deserialize_toJson payload
  constructor
  · intro hagrees
    by_contra hwide
    rw [if_neg hwide] at hread
    have hiff := (hagrees payload.exp.val).1
    rw [verifyStreamToken, Relay.verify_stream_token, signStreamToken, exists_verify_token_iff hgrammatical henvelope,
      exists_verifyToken_iff hgrammatical henvelope, hread, payload.safeParse_toJson] at hiff
    obtain ⟨expiry, hexpiry, -⟩ := hiff.2 ⟨payload.exp, rfl, le_rfl⟩
    cases hexpiry
  · intro hfits nowSeconds
    rw [if_pos hfits] at hread
    constructor
    · rw [verifyStreamToken, Relay.verify_stream_token, signStreamToken, exists_verify_token_iff hgrammatical henvelope,
        exists_verifyToken_iff hgrammatical henvelope, hread, payload.safeParse_toJson]
      simp
    · intro parsed claims hparsed hclaims
      obtain ⟨hparse, -⟩ := (verifyToken_ok_iff hgrammatical henvelope).1 hparsed
      obtain ⟨hclaim, -⟩ := (Relay.verify_token_ok_iff hgrammatical henvelope).1 hclaims
      rw [payload.safeParse_toJson, Option.some.injEq] at hparse
      rw [hread, Option.some.injEq] at hclaim
      rw [← hparse, ← hclaim]
      exact ⟨Relay.toText_uuid _, Relay.toText_uuid _, Relay.toText_uuid _, rfl, Relay.toText_mode _, rfl, rfl⟩

end

/-- **Kinds of token.** For every claims value, the token that is signed from it is separated from all other
kinds and read alike at both ends exactly when it is no enrollment bearer and no stream token with a
port of more than 32 bits. -/
theorem signed_tokens_separate_and_agree_iff (hmacSha256 : Text → Text → List UInt8) (secret : Text) (claims : TokenClaims) :
    Separated hmacSha256 secret claims ∧ Agrees hmacSha256 secret claims ↔
      claims.kind ≠ .bearer ∧ ∀ payload, claims = .stream payload → payload.port.val < 2 ^ 32 := by
  constructor
  · rintro ⟨hseparated, hagrees⟩
    constructor
    · intro hkind
      cases claims with
      | bearer payload => exact not_separated_bearer payload hseparated
      | _ => cases hkind
    · rintro payload rfl
      exact (agrees_stream_iff payload).1 hagrees
  · rintro ⟨hkind, hport⟩
    refine ⟨separated_of_ne_bearer hkind, ?_⟩
    cases claims with
    | stream payload => exact (agrees_stream_iff payload).2 (hport payload rfl)
    | relay payload => exact agrees_relay payload
    | _ => trivial

/-! ## The two tokens that fail -/

def machineBearer : EnrollmentBearerPayload where
  workspaceId := ⟨.ascii "11111111-1111-4111-8111-111111111111", rfl⟩
  agentId := ⟨.ascii "22222222-2222-4222-8222-222222222222", rfl⟩
  enrollmentId := ⟨.ascii "33333333-3333-4333-8333-333333333333", rfl⟩
  subjectPrefix := ⟨.ascii "agent", by decide⟩
  exp := ⟨2000000000, by decide⟩

def widePortToken : StreamTokenPayload where
  workspaceId := ⟨.ascii "11111111-1111-4111-8111-111111111111", rfl⟩
  sessionId := ⟨.ascii "44444444-4444-4444-8444-444444444444", rfl⟩
  viewerId := ⟨.ascii "55555555-5555-4555-8555-555555555555", rfl⟩
  leaseEpoch := ⟨3, by decide⟩
  mode := .view
  port := ⟨4294967296, by decide⟩
  exp := ⟨2000000000, by decide⟩

/-- Whatever the HMAC and the secret are, the machine's bearer under the tag of a relay token passes both
verifiers of relay tokens, and the viewer's token passes in TypeScript and not in the relay. -/
theorem bearer_is_relay_token_and_wide_port_is_refused :
    (∀ (hmacSha256 : Text → Text → List UInt8) (secret : Text),
      Unforged hmacSha256 secret (.bearer machineBearer)
        (TokenClaims.signedAs hmacSha256 secret (.bearer machineBearer) .relay) ∧
      verifyRelayToken hmacSha256 secret (TokenClaims.signedAs hmacSha256 secret (.bearer machineBearer) .relay) 1900000000 =
        .ok (some { workspaceId := machineBearer.workspaceId, agentId := machineBearer.agentId, exp := machineBearer.exp }) ∧
      Relay.verify_relay_token hmacSha256 secret (TokenClaims.signedAs hmacSha256 secret (.bearer machineBearer) .relay)
          1900000000 =
        .ok
          { workspace_id := Relay.textOf machineBearer.workspaceId.val
            agent_id := Relay.textOf machineBearer.agentId.val, exp := machineBearer.exp.val } ∧
      ¬ Separated hmacSha256 secret (.bearer machineBearer)) ∧
    ∀ (hmacSha256 : Text → Text → List UInt8) (secret : Text),
      verifyStreamToken hmacSha256 secret (signStreamToken hmacSha256 secret widePortToken) 1900000000 = .ok (some widePortToken) ∧
      Relay.verify_stream_token hmacSha256 secret (signStreamToken hmacSha256 secret widePortToken) 1900000000 =
        .error .badClaims ∧
      ¬ Agrees hmacSha256 secret (.stream widePortToken) := by
  constructor
  · intro hmacSha256 secret
    have hgrammatical := machineBearer.grammatical_toJson
    have henvelope : verifyEnvelope hmacSha256 secret (tagOf "ogr_")
        (TokenClaims.signedAs hmacSha256 secret (.bearer machineBearer) .relay) =
        some (base64UrlEncode (Json.stringify machineBearer.toJson)) := by
      rw [TokenClaims.signedAs_eq]
      exact verifyEnvelope_signToken hgrammatical _
    refine ⟨unforged_signedAs _ _, ?_, ?_, not_separated_bearer _⟩
    · rw [verifyRelayToken, verifyToken_ok_iff hgrammatical henvelope]
      exact ⟨RelayTokenPayload.safeParse_of rfl rfl rfl, by decide⟩
    · rw [Relay.verify_relay_token, Relay.verify_token_ok_iff hgrammatical henvelope]
      exact ⟨Relay.RelayTokenClaims.deserialize_of rfl rfl rfl, by decide⟩
  · intro hmacSha256 secret
    have hgrammatical := widePortToken.grammatical_toJson
    have henvelope : verifyEnvelope hmacSha256 secret (tagOf "ogs_") (signToken hmacSha256 secret (tagOf "ogs_") widePortToken.toJson) =
        some (base64UrlEncode (Json.stringify widePortToken.toJson)) := verifyEnvelope_signToken hgrammatical _
    refine ⟨?_, ?_, ?_⟩
    · rw [verifyStreamToken, signStreamToken, verifyToken_ok_iff hgrammatical henvelope]
      exact ⟨widePortToken.safeParse_toJson, by decide⟩
    · rw [Relay.verify_stream_token, signStreamToken]
      refine Relay.verify_token_badClaims hgrammatical henvelope ?_
      rw [Relay.StreamTokenClaims.deserialize_toJson]
      exact if_neg (by decide)
    · rw [agrees_stream_iff]
      decide

end OpenGeni.Contracts
