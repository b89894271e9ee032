/-
Where the OAuth client's requests go.

Discovery, client registration, the exchange of the authorization code and the verification by
tools/list all make their requests through one function, which follows redirects by hand. It looks
at the address of every hop, and sends every hop the method, the headers and the body its caller
gave it.
-/
import OpenGeni.Lib.Json

namespace OpenGeni.Connections

open OpenGeni.Lib

/-! ## The platform and the settings -/

structure OAuthUrl where
  protocol : String
  hostname : String
  origin : String
  href : String

/-- What the client takes from the platform, and the test of an address: nothing below depends on
which addresses it finds private. -/
structure OAuthWeb where
  /-- `new URL(input, base)`, `none` where it throws -/
  parse : String → Option String → Option OAuthUrl
  lookup : String → Option (List String)
  isIP : String → Bool
  isPrivateAddress : String → Bool
  base64 : String → String

namespace OAuthWeb

variable (web : OAuthWeb)

def addresses (hostname : String) : Option (List String) :=
  if web.isIP hostname then some [hostname] else web.lookup hostname

def origin (url : String) : Option String := (web.parse url none).map OAuthUrl.origin

end OAuthWeb

structure OAuthSettings where
  environment : String
  integrationsAllowPrivateNetworkTargets : Bool

/-- Local and test environments, and deployments that opted in, may fetch from anywhere. -/
def OAuthSettings.anyTarget (settings : OAuthSettings) : Bool :=
  settings.integrationsAllowPrivateNetworkTargets || ["local", "test"].contains settings.environment

inductive OAuthFetchError
  | http (status : ℕ) (message : String)
  | invalidUrl
  | lookupFailed
  | network

def assertOAuthFetchAllowed (web : OAuthWeb) (settings : OAuthSettings) (rawUrl : String) :
    Except OAuthFetchError Unit :=
  match web.parse rawUrl none with
  | none => .error .invalidUrl
  | some url =>
      if url.protocol ≠ "https:" ∧ url.protocol ≠ "http:" then
        .error (.http 422 "OAuth discovery only supports http and https URLs")
      else if settings.anyTarget then
        .ok ()
      else if url.protocol ≠ "https:" then
        .error (.http 422 "OAuth discovery targets must use https outside local/test")
      else if url.hostname.toLower = "localhost" ∨ url.hostname.toLower.endsWith ".localhost" then
        .error (.http 422 "OAuth discovery may not target localhost")
      else
        match web.addresses url.hostname.toLower with
        | none => .error .lookupFailed
        | some addresses =>
            if addresses.any web.isPrivateAddress then
              .error (.http 422 "OAuth discovery may not target private network addresses")
            else
              .ok ()

/-! ## Requests -/

inductive OAuthBody
  | form (params : List (String × String))
  | json (value : Json ℕ String)
  | text (text : String)

structure OAuthInit where
  method : String
  headers : List (String × String)
  body : Option OAuthBody

structure OAuthRequest where
  url : String
  init : OAuthInit

/-- What a server answers, as far as the redirects go; its body is read by the callers. -/
structure OAuthResponse where
  status : ℕ
  location : Option String

def OAuthResponse.isRedirect (response : OAuthResponse) : Bool := !(response.status < 300 || 400 ≤ response.status)

def redirectTarget (web : OAuthWeb) (rawUrl : String) (response : OAuthResponse) : Except OAuthFetchError String :=
  match response.location with
  | none | some "" => .error (.http 422 "OAuth fetch redirect was missing Location")
  | some location =>
      match web.parse location (some rawUrl) with
      | none => .error (.http 422 "OAuth fetch redirect Location was invalid")
      | some url => .ok url.href

/-- The requests of one fetch, and how it ends. `left` redirects are still followed; `answers` has
the answer to each request, `none` where the network fails. -/
def fetchHops (web : OAuthWeb) (settings : OAuthSettings) (init : OAuthInit) :
    ℕ → String → (ℕ → Option OAuthResponse) → List OAuthRequest × Except OAuthFetchError OAuthResponse
  | left, rawUrl, answers =>
      match assertOAuthFetchAllowed web settings rawUrl with
      | .error error => ([], .error error)
      | .ok () =>
          match answers 0 with
          | none => ([⟨rawUrl, init⟩], .error .network)
          | some response =>
              if !response.isRedirect then
                ([⟨rawUrl, init⟩], .ok response)
              else
                match left with
                | 0 => ([⟨rawUrl, init⟩],
                    .error (.http 422 "OAuth fetch exceeded maximum redirect hops"))
                | left + 1 =>
                    match redirectTarget web rawUrl response with
                    | .error error => ([⟨rawUrl, init⟩], .error error)
                    | .ok nextUrl =>
                        let rest := fetchHops web settings init left nextUrl fun i => answers (i + 1)
                        (⟨rawUrl, init⟩ :: rest.1, rest.2)

def fetchOAuth (web : OAuthWeb) (settings : OAuthSettings) (rawUrl : String) (init : OAuthInit)
    (answers : ℕ → Option OAuthResponse) : List OAuthRequest × Except OAuthFetchError OAuthResponse :=
  fetchHops web settings init 3 rawUrl answers

/-! ## Who calls it -/

structure OAuthClientRegistration where
  clientId : String
  clientSecret : Option String
  tokenEndpointAuthMethod : String

/-- The secret that goes to the token endpoint; an empty one counts as none. -/
def OAuthClientRegistration.sentSecret (client : OAuthClientRegistration) : Option String :=
  client.clientSecret.filter fun secret => secret ≠ "" ∧
    ["client_secret_post", "client_secret_basic"].contains client.tokenEndpointAuthMethod

structure ExchangeInput where
  code : String
  verifier : String
  redirectUri : String
  resource : String
  client : OAuthClientRegistration

inductive OAuthCall
  | probeMcpChallenge
  | fetchJsonObject
  | dynamicClientRegistration (redirectUri : String) (scopes : List String)
  | exchangeAuthorizationCode (input : ExchangeInput)
  /-- the MCP client's transport makes requests of its own and merges the header into each -/
  | verifyMcpToolsList (transport : OAuthInit) (scheme accessToken : String)

namespace OAuthCall

def registration (redirectUri : String) (scopes : List String) : Json ℕ String :=
  .object <| [("client_name", .string "OpenGeni"), ("redirect_uris", .array [.string redirectUri]),
    ("token_endpoint_auth_method", .string "none"),
    ("grant_types", .array [.string "authorization_code", .string "refresh_token"]),
    ("response_types", .array [.string "code"])] ++
    if scopes = [] then [] else [("scope", .string (" ".intercalate scopes))]

def exchange (web : OAuthWeb) (input : ExchangeInput) : OAuthInit :=
  let body := [("grant_type", "authorization_code"), ("code", input.code),
    ("redirect_uri", input.redirectUri), ("code_verifier", input.verifier),
    ("resource", input.resource)]
  let headers := [("content-type", "application/x-www-form-urlencoded"), ("accept", "application/json")]
  let client := input.client
  match client.sentSecret with
  | none => ⟨"POST", headers, some (.form (body ++ [("client_id", client.clientId)]))⟩
  | some secret =>
      if client.tokenEndpointAuthMethod = "client_secret_post" then
        ⟨"POST", headers, some (.form (body ++ [("client_id", client.clientId), ("client_secret", secret)]))⟩
      else
        ⟨"POST", headers ++ [("authorization", "Basic " ++ web.base64 (client.clientId ++ ":" ++ secret))],
          some (.form body)⟩

def init (web : OAuthWeb) : OAuthCall → OAuthInit
  | probeMcpChallenge => ⟨"GET", [("accept", "application/json")], none⟩
  | fetchJsonObject => ⟨"GET", [("accept", "application/json")], none⟩
  | dynamicClientRegistration redirectUri scopes =>
      ⟨"POST", [("content-type", "application/json"), ("accept", "application/json")],
        some (.json (registration redirectUri scopes))⟩
  | exchangeAuthorizationCode input => exchange web input
  | verifyMcpToolsList transport scheme accessToken =>
      { transport with headers := transport.headers ++ [("authorization", scheme ++ " " ++ accessToken)] }

/-- The authorization code, the verifier, the client's secret, the bearer token. -/
def secrets : OAuthCall → List String
  | exchangeAuthorizationCode input =>
      [input.code, input.verifier] ++ input.client.sentSecret.toList
  | verifyMcpToolsList _ _ accessToken => [accessToken]
  | _ => []

/-- The requests a caller makes for `rawUrl`. Registration and exchange look at the address once
more beforehand, and so does the verification. -/
def requests (web : OAuthWeb) (settings : OAuthSettings) (call : OAuthCall) (rawUrl : String)
    (answers : ℕ → Option OAuthResponse) : List OAuthRequest :=
  match call with
  | probeMcpChallenge | fetchJsonObject => (fetchOAuth web settings rawUrl (call.init web) answers).1
  | _ =>
      match assertOAuthFetchAllowed web settings rawUrl with
      | .error _ => []
      | .ok () => (fetchOAuth web settings rawUrl (call.init web) answers).1

end OAuthCall

/-! ## What is asked of a fetch -/

/-- An https address none of whose host's addresses is private. -/
def OAuthWeb.Guarded (web : OAuthWeb) (rawUrl : String) : Prop :=
  ∃ url addresses, web.parse rawUrl none = some url ∧ url.protocol = "https:" ∧
    web.addresses url.hostname.toLower = some addresses ∧
      ∀ address ∈ addresses, web.isPrivateAddress address = false

/-- The secret stands in a form field, after the scheme of the authorization header, or in the
header's basic credentials. -/
def OAuthInit.Carries (web : OAuthWeb) (init : OAuthInit) (secret : String) : Prop :=
  (∃ params, init.body = some (.form params) ∧ ∃ name, (name, secret) ∈ params) ∨
    (∃ scheme, ("authorization", scheme ++ " " ++ secret) ∈ init.headers) ∨
      ∃ clientId, ("authorization", "Basic " ++ web.base64 (clientId ++ ":" ++ secret)) ∈ init.headers

structure KeepsSecrets (web : OAuthWeb) (call : OAuthCall) (rawUrl : String)
    (requests : List OAuthRequest) : Prop where
  few : requests.length ≤ 4
  guarded : ∀ request ∈ requests, web.Guarded request.url
  home : ∀ request ∈ requests, ∀ secret ∈ call.secrets, request.init.Carries web secret →
    web.origin request.url = web.origin rawUrl

/-! ## The hops -/

/-- Where an answer sends the client. -/
def nextHop (web : OAuthWeb) (rawUrl : String) : Option OAuthResponse → Option String
  | none => none
  | some response =>
      if response.isRedirect then (redirectTarget web rawUrl response).toOption else none

/-- The caller's address and those the redirects lead to. -/
def hops (web : OAuthWeb) : ℕ → String → (ℕ → Option OAuthResponse) → List String
  | 0, rawUrl, _ => [rawUrl]
  | left + 1, rawUrl, answers =>
      rawUrl :: match nextHop web rawUrl (answers 0) with
        | some nextUrl => hops web left nextUrl fun i => answers (i + 1)
        | none => []

/-- The guard lets the address through. -/
def OAuthWeb.allows (web : OAuthWeb) (settings : OAuthSettings) (rawUrl : String) : Bool :=
  (assertOAuthFetchAllowed web settings rawUrl).toBool

section Hops

variable {web : OAuthWeb} {settings : OAuthSettings} {init : OAuthInit}

theorem length_hops (left : ℕ) (rawUrl : String) (answers : ℕ → Option OAuthResponse) :
    (hops web left rawUrl answers).length ≤ left + 1 := by
  induction left generalizing rawUrl answers with
  | zero => exact le_rfl
  | succ left ih =>
      rw [hops, List.length_cons]
      split
      · exact Nat.succ_le_succ (ih _ _)
      · exact Nat.succ_le_succ (Nat.zero_le _)

theorem fetchHops_requests (left : ℕ) (rawUrl : String) (answers : ℕ → Option OAuthResponse) :
    (fetchHops web settings init left rawUrl answers).1 =
      ((hops web left rawUrl answers).takeWhile (web.allows settings)).map fun url => ⟨url, init⟩ := by
  induction left generalizing rawUrl answers with
  | zero =>
      rw [fetchHops, hops, List.takeWhile_cons, OAuthWeb.allows]
      cases assertOAuthFetchAllowed web settings rawUrl with
      | error error => rfl
      | ok _ =>
          cases answers 0 with
          | none => rfl
          | some response =>
              dsimp only
              split <;> rfl
  | succ left ih =>
      rw [fetchHops, hops, List.takeWhile_cons, OAuthWeb.allows]
      cases assertOAuthFetchAllowed web settings rawUrl with
      | error error => rfl
      | ok _ =>
          cases answers 0 with
          | none => rfl
          | some response =>
              cases hredirect : response.isRedirect with
              | false => simp [nextHop, hredirect, Except.toBool]
              | true =>
                  cases htarget : redirectTarget web rawUrl response with
                  | error error => simp [nextHop, hredirect, htarget, Except.toBool, Except.toOption]
                  | ok nextUrl => simp [nextHop, hredirect, htarget, Except.toBool, Except.toOption, ih]

theorem allows_guarded {rawUrl : String} (hstrict : settings.anyTarget = false)
    (h : web.allows settings rawUrl = true) : web.Guarded rawUrl := by
  unfold OAuthWeb.allows assertOAuthFetchAllowed at h
  cases hurl : web.parse rawUrl none with
  | none =>
      rw [hurl] at h
      cases h
  | some url =>
      simp only [hurl, hstrict, Bool.false_eq_true, if_false] at h
      split at h
      · cases h
      split at h
      · cases h
      rename_i hscheme
      split at h
      · cases h
      split at h
      · cases h
      rename_i addresses haddresses
      split at h
      · cases h
      rename_i hprivate
      refine ⟨url, addresses, hurl, not_not.1 hscheme, haddresses, fun address haddress => ?_⟩
      exact Bool.eq_false_iff.2 fun hbad => hprivate (List.any_eq_true.2 ⟨address, haddress, hbad⟩)

end Hops

/-! ## What a caller sends -/

namespace OAuthCall

variable {web : OAuthWeb}

theorem requests_eq (settings : OAuthSettings) (call : OAuthCall) (rawUrl : String)
    (answers : ℕ → Option OAuthResponse) :
    call.requests web settings rawUrl answers = ((hops web 3 rawUrl answers).takeWhile (web.allows settings)).map
        fun url => ⟨url, call.init web⟩ := by
  have hfetch := @fetchHops_requests web settings (call.init web) 3 rawUrl answers
  -- the guard of the first hop repeats the one before it
  have hfirst : ∀ error, assertOAuthFetchAllowed web settings rawUrl = .error error →
      (hops web 3 rawUrl answers).takeWhile (web.allows settings) = [] := by
    intro error herror
    rw [hops, List.takeWhile_cons, OAuthWeb.allows, herror]
    rfl
  cases call with
  | probeMcpChallenge | fetchJsonObject => exact hfetch
  | dynamicClientRegistration | exchangeAuthorizationCode | verifyMcpToolsList =>
      unfold requests
      cases hassert : assertOAuthFetchAllowed web settings rawUrl with
      | error error =>
          rw [hfirst error hassert]
          rfl
      | ok _ => exact hfetch

theorem exchange_form (input : ExchangeInput) :
    ∃ params, (exchange web input).body = some (.form params) ∧ ("code", input.code) ∈ params ∧
      ("code_verifier", input.verifier) ∈ params := by
  rw [exchange]
  split
  · exact ⟨_, rfl, by simp, by simp⟩
  · split <;> exact ⟨_, rfl, by simp, by simp⟩

theorem exchange_secret {input : ExchangeInput} {secret : String}
    (h : input.client.sentSecret = some secret) : (exchange web input).Carries web secret := by
  rw [exchange, h]
  dsimp only
  split
  · exact .inl ⟨_, rfl, "client_secret", by simp⟩
  · exact .inr (.inr ⟨input.client.clientId, by simp⟩)

theorem init_carries {call : OAuthCall} {secret : String} (h : secret ∈ call.secrets) :
    (call.init web).Carries web secret := by
  cases call with
  | probeMcpChallenge | fetchJsonObject | dynamicClientRegistration => cases h
  | verifyMcpToolsList transport scheme accessToken =>
      rw [List.mem_singleton.1 h]
      exact .inr (.inl ⟨scheme, List.mem_append_right _ (List.mem_singleton.2 rfl)⟩)
  | exchangeAuthorizationCode input =>
      obtain ⟨params, hbody, hcode, hverifier⟩ := @exchange_form web input
      rcases List.mem_append.1 h with hform | hsecret
      · rcases List.mem_pair.1 hform with rfl | rfl
        · exact .inl ⟨params, hbody, _, hcode⟩
        · exact .inl ⟨params, hbody, _, hverifier⟩
      · exact exchange_secret (Option.mem_toList.1 hsecret)

end OAuthCall

/-! ## Where the secrets go -/

/-- **Secrets go home.** Outside local and test environments a call makes at most four requests, all
to https addresses that are not private; and its secrets stay with the origin it was given exactly
when it has none, or no redirect on the way leads elsewhere. -/
theorem keepsSecrets_iff {web : OAuthWeb} {settings : OAuthSettings}
    (hstrict : settings.anyTarget = false) (call : OAuthCall) (rawUrl : String)
    (answers : ℕ → Option OAuthResponse) :
    KeepsSecrets web call rawUrl (call.requests web settings rawUrl answers) ↔ call.secrets = [] ∨
        ∀ url ∈ (hops web 3 rawUrl answers).takeWhile (web.allows settings),
          web.origin url = web.origin rawUrl := by
  rw [OAuthCall.requests_eq]
  constructor
  · intro h
    cases hsecrets : call.secrets with
    | nil => exact .inl rfl
    | cons secret rest =>
        refine .inr fun url hurl => ?_
        have hmem : secret ∈ call.secrets := by
          rw [hsecrets]
          exact List.mem_cons_self
        exact h.home _ (List.mem_map_of_mem hurl) secret hmem (OAuthCall.init_carries hmem)
  · intro h
    refine ⟨?_, ?_, ?_⟩
    · rw [List.length_map]
      exact ((List.takeWhile_prefix _).length_le).trans (length_hops 3 rawUrl answers)
    · intro request hrequest
      obtain ⟨url, hurl, rfl⟩ := List.mem_map.1 hrequest
      exact allows_guarded hstrict (List.mem_takeWhile_imp hurl)
    · intro request hrequest secret hsecret _
      obtain ⟨url, hurl, rfl⟩ := List.mem_map.1 hrequest
      rcases h with hnone | hhome
      · rw [hnone] at hsecret
        cases hsecret
      · exact hhome url hurl

/-! ## A token endpoint that redirects -/

/-- Two hosts on the network, and the addresses that are written out. -/
def twoHosts : OAuthWeb where
  parse input _ :=
    if input = "https://auth.example/token" then some ⟨"https:", "auth.example", "https://auth.example", input⟩
    else if input = "https://auth.example/v2/token" then
      some ⟨"https:", "auth.example", "https://auth.example", input⟩
    else if input = "https://evil.example/token" then
      some ⟨"https:", "evil.example", "https://evil.example", input⟩
    else none
  lookup hostname := if hostname = "auth.example" then some ["192.0.2.7"]
    else if hostname = "evil.example" then some ["198.51.100.9"]
    else none
  isIP _ := false
  isPrivateAddress address := address.startsWith "10." || address.startsWith "127."
  base64 text := text

def production : OAuthSettings := ⟨"production", false⟩

def exchanged : OAuthCall :=
  .exchangeAuthorizationCode ⟨"code", "verifier", "https://app.example/callback", "https://mcp.example/",
    ⟨"client", none, "none"⟩⟩

/-- The endpoint answers `307` once. -/
def redirectsTo (location : String) : ℕ → Option OAuthResponse
  | 0 => some ⟨307, some location⟩
  | _ => some ⟨200, none⟩

theorem keepsSecrets_same_origin : KeepsSecrets twoHosts exchanged "https://auth.example/token"
      (exchanged.requests twoHosts production "https://auth.example/token"
        (redirectsTo "https://auth.example/v2/token")) :=
  (keepsSecrets_iff (by decide +kernel) exchanged _ _).2 (.inr (by decide +kernel))

/-- The code and the verifier follow the redirect to another origin. -/
theorem redirect_takes_the_code : ¬ KeepsSecrets twoHosts exchanged "https://auth.example/token"
      (exchanged.requests twoHosts production "https://auth.example/token"
        (redirectsTo "https://evil.example/token")) := by
  intro h
  have hmem : (⟨"https://evil.example/token", exchanged.init twoHosts⟩ : OAuthRequest) ∈
      exchanged.requests twoHosts production "https://auth.example/token"
        (redirectsTo "https://evil.example/token") := by
    rw [OAuthCall.requests_eq]
    exact List.mem_map_of_mem (by decide +kernel)
  exact absurd (h.home _ hmem "code" List.mem_cons_self (OAuthCall.init_carries List.mem_cons_self))
    (by decide +kernel)

end OpenGeni.Connections
