/-
The path an OAuth flow returns to.

`safeReturnPath` looks at the text it is given and returns the text the URL parser makes of it. That
text is signed into the state, read back through `safeReturnPath` when the provider calls, and
parsed a third time when the result is appended.
-/
import Mathlib.Data.List.Basic

namespace OpenGeni.Connections

/-! ## The parser -/

/-- What the flow reads off a URL. -/
structure ReturnUrl where
  origin : List Char
  pathname : List Char
  search : List Char
  hash : List Char

def ReturnUrl.path (url : ReturnUrl) : List Char := url.pathname ++ url.search ++ url.hash

def appOrigin : List Char := "https://opengeni.local".toList

/-- The platform's parser of URLs and of their queries. -/
structure UrlParser where
  /-- `new URL(input, "https://opengeni.local")`, `none` where it throws -/
  parse : List Char → Option ReturnUrl
  /-- the parameters of a query -/
  params : List Char → List (List Char × List Char)
  /-- the query of parameters -/
  format : List (List Char × List Char) → List Char

/-- What the URL standard says of the app's own addresses. -/
structure UrlParser.Standard (web : UrlParser) : Prop where
  /-- a URL is read back from its text -/
  parse_href : ∀ input url, web.parse input = some url → url.origin = appOrigin →
    web.parse (appOrigin ++ url.path) = some url
  /-- a path is read on the origin of the base -/
  parse_relative : ∀ rest : List Char, rest.head? ≠ some '/' → rest.head? ≠ some '\\' →
    (∀ c ∈ rest, c ≠ '\t' ∧ c ≠ '\n' ∧ c ≠ '\r') → web.parse ('/' :: rest) = web.parse (appOrigin ++ '/' :: rest)
  pathname : ∀ input url, web.parse input = some url → url.origin = appOrigin →
    ∃ rest, url.pathname = '/' :: rest ∧ '\\' ∉ rest
  search : ∀ input url, web.parse input = some url → url.search.head? = none ∨ url.search.head? = some '?'
  hash : ∀ input url, web.parse input = some url → url.hash.head? = none ∨ url.hash.head? = some '#'
  clean : ∀ input url, web.parse input = some url → ∀ c ∈ url.path, c ≠ '\t' ∧ c ≠ '\n' ∧ c ≠ '\r'

/-! ## The flow -/

inductive ReturnPathError
  | http (status : ℕ) (message : String)
  | invalidUrl

def safeReturnPath (web : UrlParser) (value : List Char) : Except ReturnPathError (List Char) :=
  if !"/".toList.isPrefixOf value || "//".toList.isPrefixOf value then
    .error (.http 400 "OAuth returnPath must be a relative path")
  else
    match web.parse value with
    | none => .error .invalidUrl
    | some parsed =>
        if parsed.origin ≠ appOrigin then
          .error (.http 400 "OAuth returnPath must be a relative path")
        else
          .ok parsed.path

/-- `URLSearchParams.set`: the first of the name gets the value, its others go. -/
def setParam (name value : List Char) : List (List Char × List Char) → List (List Char × List Char)
  | [] => [(name, value)]
  | param :: rest =>
      if param.1 = name then
        (name, value) :: rest.filter fun other => other.1 ≠ name
      else
        param :: setParam name value rest

def setParams (params added : List (List Char × List Char)) : List (List Char × List Char) :=
  added.foldl (fun params param => setParam param.1 param.2 params) params

def callbackReturnPath (web : UrlParser) (returnPath : List Char) (status : List Char)
    (params : List (List Char × List Char)) : Option (List Char) :=
  (web.parse returnPath).map fun url =>
    url.pathname ++
      web.format (setParams (web.params url.search) (("integration_oauth".toList, status) :: params)) ++ url.hash

/-- How the rest of a callback goes, once its state is read. -/
inductive CallbackOutcome
  | missingCode
  | stateUsed
  | failed (reason : List Char)
  | connected (connectionId providerDomain : List Char) (verificationFailed : Bool)

namespace CallbackOutcome

def status : CallbackOutcome → List Char
  | connected .. => "success".toList
  | _ => "error".toList

def params : CallbackOutcome → List (List Char × List Char)
  | missingCode => [("reason".toList, "missing_code".toList)]
  | stateUsed => [("reason".toList, "state_invalid".toList)]
  | failed reason => [("reason".toList, reason)]
  | connected connectionId providerDomain verificationFailed =>
      [("connectionId".toList, connectionId), ("providerDomain".toList, providerDomain)] ++
        if verificationFailed then [("verification".toList, "failed".toList)] else []

/-- The parameters a callback adds. -/
def added (outcome : CallbackOutcome) : List (List Char × List Char) :=
  ("integration_oauth".toList, outcome.status) :: outcome.params

end CallbackOutcome

/-- A signed state, as far as it decides where the flow returns: the path, and whether the rest of it
can be read and is not too old. -/
structure SignedOAuthState where
  returnPath : Option (List Char)
  readable : Bool

def startMcpOAuth (web : UrlParser) (returnPath : Option (List Char)) : Except ReturnPathError SignedOAuthState :=
  (safeReturnPath web (returnPath.getD "/integrations".toList)).map fun path => ⟨some path, true⟩

def readOAuthState (web : UrlParser) (state : SignedOAuthState) : Except ReturnPathError (List Char) :=
  if !state.readable then
    .error (.http 400 "invalid or expired OAuth state")
  else
    safeReturnPath web ((state.returnPath.filter (· ≠ [])).getD "/integrations".toList)

def completeMcpOAuthCallback (web : UrlParser) (state : SignedOAuthState) (outcome : CallbackOutcome) :
    Option (List Char) :=
  match readOAuthState web state with
  | .error _ =>
      callbackReturnPath web "/integrations".toList "error".toList [("reason".toList, "state_invalid".toList)]
  | .ok returnPath => callbackReturnPath web returnPath outcome.status outcome.params

/-! ## What is asked of it -/

/-- `redirectTo` is the path of `url` with the result in its query. -/
structure AddsResult (web : UrlParser) (url : ReturnUrl) (outcome : CallbackOutcome)
    (params : List (List Char × List Char)) : Prop where
  result : ∀ param ∈ outcome.added, params.filter (·.1 = param.1) = [param]
  others : ∀ name, name ∉ outcome.added.map Prod.fst →
    params.filter (·.1 = name) = (web.params url.search).filter (·.1 = name)

/-- The path stays on the app's origin and is its own safe path, and the callback with the state
redirects to it. -/
structure ReturnsHome (web : UrlParser) (state : SignedOAuthState) (url : ReturnUrl) : Prop where
  signed : state.returnPath = some url.path
  own : "/".toList <+: url.path ∧ ¬ "//".toList <+: url.path ∧ ¬ "/\\".toList <+: url.path
  stable : safeReturnPath web url.path = .ok url.path
  redirects : ∀ outcome, ∃ params, AddsResult web url outcome params ∧ completeMcpOAuthCallback web state outcome =
      some (url.pathname ++ web.format params ++ url.hash)

/-! ## Parameters -/

theorem setParam_others (name value other : List Char) (params : List (List Char × List Char))
    (hne : other ≠ name) :
    (setParam name value params).filter (·.1 = other) = params.filter (·.1 = other) := by
  induction params with
  | nil => simp [setParam, hne.symm]
  | cons param rest ih =>
      rw [setParam]
      split
      · rename_i heq
        have hrest : (rest.filter fun param => param.1 ≠ name).filter (·.1 = other) =
            rest.filter (·.1 = other) := by
          rw [List.filter_filter]
          refine List.filter_congr fun param _ => ?_
          by_cases hparam : param.1 = other <;> simp [hparam, hne]
        rw [List.filter_cons_of_neg (by simpa using hne.symm),
          List.filter_cons_of_neg (by simpa [heq] using hne.symm), hrest]
      · rw [List.filter_cons, List.filter_cons, ih]

theorem filter_setParam (name value : List Char) (params : List (List Char × List Char)) :
    (setParam name value params).filter (·.1 = name) = [(name, value)] := by
  induction params with
  | nil => simp [setParam]
  | cons param rest ih =>
      rw [setParam]
      split
      · simp
      · rename_i hne
        rw [List.filter_cons_of_neg (by simpa using hne), ih]

theorem setParams_others (name : List Char) (added params : List (List Char × List Char))
    (h : name ∉ added.map Prod.fst) :
    (setParams params added).filter (·.1 = name) = params.filter (·.1 = name) := by
  induction added generalizing params with
  | nil => rfl
  | cons param rest ih =>
      rw [List.map_cons, List.mem_cons, not_or] at h
      exact (ih _ h.2).trans (setParam_others _ _ _ _ h.1)

theorem filter_setParams {param : List Char × List Char} (added params : List (List Char × List Char))
    (hnodup : (added.map Prod.fst).Nodup) (h : param ∈ added) :
    (setParams params added).filter (·.1 = param.1) = [param] := by
  induction added generalizing params with
  | nil => cases h
  | cons first rest ih =>
      rw [List.map_cons, List.nodup_cons] at hnodup
      rcases List.mem_cons.1 h with rfl | h
      · exact (setParams_others _ rest _ hnodup.1).trans (filter_setParam _ _ params)
      · exact ih _ hnodup.2 h

theorem CallbackOutcome.nodup_added (outcome : CallbackOutcome) : (outcome.added.map Prod.fst).Nodup := by
  cases outcome with
  | missingCode | stateUsed | failed => simp [added, params]
  | connected connectionId providerDomain verificationFailed =>
      cases verificationFailed <;> simp [added, params]

theorem addsResult_setParams (web : UrlParser) (url : ReturnUrl) (outcome : CallbackOutcome) :
    AddsResult web url outcome (setParams (web.params url.search) outcome.added) where
  result _ hparam := filter_setParams _ _ outcome.nodup_added hparam
  others name hname := setParams_others name _ _ hname

/-! ## Paths -/

theorem safeReturnPath_eq_ok {web : UrlParser} {value path : List Char} :
    safeReturnPath web value = .ok path ↔ "/".toList <+: value ∧ ¬ "//".toList <+: value ∧
      ∃ url, web.parse value = some url ∧ url.origin = appOrigin ∧ url.path = path := by
  unfold safeReturnPath
  rw [← List.isPrefixOf_iff_prefix, ← List.isPrefixOf_iff_prefix]
  cases "/".toList.isPrefixOf value <;> cases "//".toList.isPrefixOf value <;>
    cases web.parse value with
    | none => simp
    | some url => by_cases horigin : url.origin = appOrigin <;> simp [horigin]

namespace UrlParser.Standard

variable {web : UrlParser} {input : List Char} {url : ReturnUrl}

theorem path_eq (hweb : web.Standard) (hurl : web.parse input = some url) (horigin : url.origin = appOrigin) :
    ∃ rest, url.path = '/' :: rest ∧ rest.head? ≠ some '\\' ∧
      (rest.head? = some '/' ↔ "//".toList <+: url.pathname) := by
  obtain ⟨rest, hrest, hback⟩ := hweb.pathname input url hurl horigin
  refine ⟨rest ++ url.search ++ url.hash, by simp [ReturnUrl.path, hrest], ?_⟩
  rw [hrest]
  cases rest with
  | cons c rest =>
      have hc : c ≠ '\\' := fun h => hback (h ▸ List.mem_cons_self)
      simp [hc, eq_comm]
  | nil =>
      rcases hweb.search input url hurl with hsearch | hsearch
      · rcases hweb.hash input url hurl with hhash | hhash <;>
          simp [hsearch, hhash]
      · simp [hsearch]

theorem parse_path (hweb : web.Standard) (hurl : web.parse input = some url)
    (horigin : url.origin = appOrigin) (hslashes : ¬ "//".toList <+: url.pathname) :
    web.parse url.path = some url := by
  obtain ⟨rest, hpath, hback, hslash⟩ := hweb.path_eq hurl horigin
  have hclean : ∀ c ∈ rest, c ≠ '\t' ∧ c ≠ '\n' ∧ c ≠ '\r' := fun c hc =>
    hweb.clean input url hurl c (hpath ▸ List.mem_cons_of_mem _ hc)
  rw [hpath, hweb.parse_relative rest (fun h => hslashes (hslash.1 h)) hback hclean, ← hpath]
  exact hweb.parse_href input url hurl horigin

theorem returnsHome (hweb : web.Standard) (hurl : web.parse input = some url)
    (horigin : url.origin = appOrigin) (hslashes : ¬ "//".toList <+: url.pathname) :
    ReturnsHome web ⟨some url.path, true⟩ url := by
  obtain ⟨rest, hpath, hback, hslash⟩ := hweb.path_eq hurl horigin
  have hparse := hweb.parse_path hurl horigin hslashes
  have hown : "/".toList <+: url.path ∧ ¬ "//".toList <+: url.path ∧ ¬ "/\\".toList <+: url.path := by
    rw [hpath]
    cases rest with
    | nil => simp
    | cons c rest =>
        simp only [List.head?_cons, ne_eq, Option.some.injEq] at hback hslash
        have hc : c ≠ '/' := fun h => hslashes (hslash.1 h)
        simp [Ne.symm hc, Ne.symm hback]
  have hstable : safeReturnPath web url.path = .ok url.path :=
    safeReturnPath_eq_ok.2 ⟨hown.1, hown.2.1, url, hparse, horigin, rfl⟩
  refine ⟨rfl, hown, hstable, fun outcome => ⟨_, addsResult_setParams web url outcome, ?_⟩⟩
  have hread : readOAuthState web ⟨some url.path, true⟩ = .ok url.path := by
    simpa [readOAuthState, hpath, Option.filter] using hstable
  rw [completeMcpOAuthCallback, hread]
  exact congrArg (Option.map _) hparse

end UrlParser.Standard

/-! ## The law and its exception -/

/-- **Return paths.** Whatever is given, it is refused or comes back as a path of the app that stays
what it is, exactly when the parser does not make a pathname with two leading slashes of it. -/
theorem startMcpOAuth_returnsHome_iff {web : UrlParser} (hweb : web.Standard) (value : List Char) :
    (∀ state, startMcpOAuth web (some value) = .ok state →
        ∃ url, web.parse value = some url ∧ ReturnsHome web state url) ↔
      ("/".toList <+: value → ¬ "//".toList <+: value → ∀ url, web.parse value = some url →
        url.origin = appOrigin → ¬ "//".toList <+: url.pathname) := by
  constructor
  · intro h hslash hslashes url hurl horigin hpathname
    have hsafe : safeReturnPath web value = .ok url.path :=
      safeReturnPath_eq_ok.2 ⟨hslash, hslashes, url, hurl, horigin, rfl⟩
    obtain ⟨url', hurl', hhome⟩ := h ⟨some url.path, true⟩ (congrArg (Except.map _) hsafe)
    rw [hurl] at hurl'
    cases hurl'
    refine hhome.own.2.1 (hpathname.trans ?_)
    rw [ReturnUrl.path, List.append_assoc]
    exact List.prefix_append _ _
  · intro h state hstate
    unfold startMcpOAuth at hstate
    cases hpath : safeReturnPath web value with
    | error error =>
        rw [Option.getD_some, hpath] at hstate
        cases hstate
    | ok path =>
        rw [Option.getD_some, hpath] at hstate
        cases hstate
        obtain ⟨hslash, hslashes, url, hurl, horigin, rfl⟩ := safeReturnPath_eq_ok.1 hpath
        exact ⟨url, hurl, hweb.returnsHome hurl horigin (h hslash hslashes url hurl horigin)⟩

/-! ## A dot segment -/

/-- The parser on four texts and on the absolute forms of those that are the app's. -/
def fewUrls : UrlParser where
  parse input := if input = "/integrations".toList ∨ input = appOrigin ++ "/integrations".toList then
      some ⟨appOrigin, "/integrations".toList, [], []⟩
    else if input = "/.//evil.example".toList ∨ input = appOrigin ++ "/.//evil.example".toList ∨
        input = appOrigin ++ "//evil.example".toList then
      some ⟨appOrigin, "//evil.example".toList, [], []⟩
    else if input = "//evil.example".toList then
      some ⟨"https://evil.example".toList, "/".toList, [], []⟩
    else
      none
  params _ := []
  format params := '?' :: "&".toList.intercalate (params.map fun param => param.1 ++ '=' :: param.2)

theorem fewUrls_cases {input : List Char} {url : ReturnUrl} (h : fewUrls.parse input = some url) :
    url = ⟨appOrigin, "/integrations".toList, [], []⟩ ∨ url = ⟨appOrigin, "//evil.example".toList, [], []⟩ ∨
      url = ⟨"https://evil.example".toList, "/".toList, [], []⟩ := by
  unfold fewUrls at h
  dsimp only at h
  split at h
  · exact .inl (Option.some.inj h).symm
  · split at h
    · exact .inr (.inl (Option.some.inj h).symm)
    · split at h
      · exact .inr (.inr (Option.some.inj h).symm)
      · cases h

theorem fewUrls_standard : fewUrls.Standard where
  parse_href input url hurl horigin := by
    rcases fewUrls_cases hurl with rfl | rfl | rfl
    · rfl
    · rfl
    · exact absurd horigin (by decide)
  parse_relative rest hslash _ _ := by
    have happ : ∀ text : List Char, '/' :: rest ≠ appOrigin ++ text :=
      fun text h => absurd (List.cons.inj h).1 (by decide)
    have habs : ∀ text : List Char, text.head? = some '/' → appOrigin ++ '/' :: rest ≠ text :=
      fun text htext h => by
        rw [← h] at htext
        cases htext
    have hne : '/' :: rest ≠ "//evil.example".toList := by
      intro h
      cases h
      exact hslash rfl
    simp only [fewUrls, happ, habs "/integrations".toList rfl, habs "/.//evil.example".toList rfl,
      habs "//evil.example".toList rfl, hne, List.append_cancel_left_eq, false_or, or_false, if_false]
  pathname input url hurl horigin := by
    rcases fewUrls_cases hurl with rfl | rfl | rfl
    · exact ⟨"integrations".toList, rfl, by decide⟩
    · exact ⟨"/evil.example".toList, rfl, by decide⟩
    · exact ⟨[], rfl, by decide⟩
  search input url hurl := by
    rcases fewUrls_cases hurl with rfl | rfl | rfl <;> exact .inl rfl
  hash input url hurl := by
    rcases fewUrls_cases hurl with rfl | rfl | rfl <;> exact .inl rfl
  clean input url hurl := by
    -- decided by the list, not by all characters
    rcases fewUrls_cases hurl with rfl | rfl | rfl <;> exact @of_decide_eq_true _ (List.decidableBAll _ _) rfl

theorem integrations_returnsHome : ∃ state, startMcpOAuth fewUrls (some "/integrations".toList) = .ok state ∧
      ∃ url, fewUrls.parse "/integrations".toList = some url ∧ ReturnsHome fewUrls state url := by
  refine ⟨⟨some "/integrations".toList, true⟩, rfl, (startMcpOAuth_returnsHome_iff fewUrls_standard _).2 ?_ _ rfl⟩
  intro _ _ url hurl _
  rw [← Option.some.inj hurl]
  decide

/-- The dot segment goes, and what is left names another host. -/
theorem dot_segment_leaves_the_app :
    fewUrls.Standard ∧ ¬ ∀ state, startMcpOAuth fewUrls (some "/.//evil.example".toList) = .ok state →
      ∃ url, fewUrls.parse "/.//evil.example".toList = some url ∧ ReturnsHome fewUrls state url := by
  refine ⟨fewUrls_standard, fun h => ?_⟩
  obtain ⟨url, hurl, hhome⟩ := h ⟨some "//evil.example".toList, true⟩ rfl
  rw [← Option.some.inj hurl] at hhome
  exact hhome.own.2.1 (by decide)

end OpenGeni.Connections
