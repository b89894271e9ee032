/-
The environment of a sandbox, for a turn
(`apps/worker/src/activities/environment.ts`) and for an attach (`apps/api/src/sandbox/viewer.ts`,
`channel-a.ts`), over the layers of `packages/config/src/index.ts`.

Either side may create the box, and a turn whose environment is not the box's is refused. The layers
are shared. Which repositories belong to the GitHub App is decided twice: the turn takes each id from
the GitHub field or else from the generic one, the attach only takes two of a kind.
-/
import OpenGeni.Lib.JsString
import OpenGeni.Lib.Slots

namespace OpenGeni.Worker

open OpenGeni.Lib

/-! ## Resources -/

inductive GitCredentialProvider
  | github
  | gitlab
  | azure_devops
deriving DecidableEq

inductive GitProviderRepositoryId
  | number (n : ℕ+)
  | text (s : String) (nonempty : s ≠ "")

/-- The ids of `RepositoryResourceRef`. -/
structure RepositoryResourceRef where
  provider : Option GitCredentialProvider := none
  repositoryId : Option GitProviderRepositoryId := none
  installationId : Option GitProviderRepositoryId := none
  githubInstallationId : Option ℕ+ := none
  githubRepositoryId : Option ℕ+ := none

inductive ResourceRef
  | repository (resource : RepositoryResourceRef)
  | file (fileId : String)

def closestDouble (n : ℕ) : ℕ :=
  let unit := 2 ^ (n.log2 - 52)
  let below := n / unit
  let up := unit < 2 * (n % unit) ∨ unit = 2 * (n % unit) ∧ below % 2 = 1
  (if up then below + 1 else below) * unit

/-- `Number(value)` of a text of digits; the top is `Infinity`. -/
def numberOfDigits (digits : List Char) : WithTop ℕ :=
  let n := closestDouble (digits.foldl (fun n c => 10 * n + (c.toNat - '0'.toNat)) 0)
  if n < 2 ^ 1024 then n else ⊤

def positiveInteger : GitProviderRepositoryId → Option (WithTop ℕ)
  | .number n => some ((n : ℕ) : WithTop ℕ)
  | .text s _ =>
    if s.toList.all Char.isDigit = true ∧ 0 < numberOfDigits s.toList then some (numberOfDigits s.toList) else none

/-- `positive`, in the attach. -/
def positive : GitProviderRepositoryId → Bool
  | .number _ => true
  | .text s _ => s.toList.all Char.isDigit && decide (0 < numberOfDigits s.toList)

namespace RepositoryResourceRef

variable (resource : RepositoryResourceRef)

/-- `githubInstallationId ?? installationId` and `githubRepositoryId ?? repositoryId`, where both are positive. -/
def githubIds : Option (WithTop ℕ × WithTop ℕ) := do
  let installation ← (resource.githubInstallationId.map .number).or resource.installationId
  let repository ← (resource.githubRepositoryId.map .number).or resource.repositoryId
  return (← positiveInteger installation, ← positiveInteger repository)

def repositoryCredentialProvider : Option GitCredentialProvider := resource.provider.or
    (if resource.githubInstallationId.isSome && resource.githubRepositoryId.isSome then some .github else none)

end RepositoryResourceRef

/-- A turn finds an installation of the GitHub App and a repository of it. -/
def namesGitHubApp (resources : List ResourceRef) : Bool := resources.any fun
    | .repository resource =>
      decide (resource.repositoryCredentialProvider = some .github) && resource.githubIds.isSome
    | .file _ => false

def hasGitHubRepositorySelection (resources : List ResourceRef) : Bool := resources.any fun
    | .repository resource =>
      resource.githubInstallationId.isSome && resource.githubRepositoryId.isSome ||
        decide (resource.provider = some .github) && resource.installationId.any positive &&
          resource.repositoryId.any positive
    | .file _ => false

def hasGitCredentialRepositorySelection (resources : List ResourceRef) : Bool := resources.any fun
    | .repository resource => resource.provider.isSome || hasGitHubRepositorySelection [.repository resource]
    | .file _ => false

/-! ## The layers -/

inductive SandboxBackend
  | docker
  | modal
  | «local»
  | none
  | daytona
  | runloop
  | e2b
  | blaxel
  | cloudflare
  | vercel
  | selfhosted
deriving DecidableEq

def SandboxBackend.workspaceRoot : SandboxBackend → String
  | .e2b => "/home/user"
  | .vercel => "/vercel/sandbox"
  | .selfhosted => "/"
  | _ => "/workspace"

/-- What the layers read of `Settings`, with the allowlist as its names. -/
structure EnvironmentSettings where
  sandboxBackend : SandboxBackend
  sandboxEnvironmentVariableNames : List String := []
  gitAuthorName : Option String := none
  gitAuthorEmail : Option String := none
  gitCommitterName : Option String := none
  gitCommitterEmail : Option String := none
  toolspaceEnabled : Bool := false
  delegationSecret : Option String := none
  opengeniMcpUrl : Option String := none
  apiPort : ℕ := 8000
  githubAppId : Option String := none
  githubAppSlug : Option String := none

def EnvironmentSettings.forBackend (settings : EnvironmentSettings) (backend : SandboxBackend) : EnvironmentSettings :=
  { settings with sandboxBackend := backend }

/-- `Record<string, string>`. -/
abbrev Environment : Type := String → Option String

namespace Environment

variable (env : Environment) (name value : String)

def set : Environment := Function.update env name (some value)

/-- `environment[name] ??= value`. -/
def setDefault : Environment := if (env name).isSome then env else env.set name value

/-- `environment[name] = environment[name] || value`. -/
def fallback : Environment := env.set name (((env name).filter (· ≠ "")).getD value)

def Declares : Prop := ∃ v, env name = some v ∧ v ≠ ""

end Environment

structure WorkspaceId where
  value : String
  nonempty : value ≠ ""

/-- What is not of this repository: `new URL`, the signature of a token, and the GitHub API. -/
structure EnvironmentPorts where
  urlWithPath : String → String → String
  signDelegatedAccessToken : String → WorkspaceId → String → String → Except String String
  createGitHubAppInstallationToken : WithTop ℕ → List (WithTop ℕ) → Except String String

section

variable (ports : EnvironmentPorts) (source : Environment) (settings : EnvironmentSettings)

/-- `collectSandboxEnvironment`, from the variables of the process. -/
def collectSandboxEnvironment : Environment :=
  fun name => if name ∈ settings.sandboxEnvironmentVariableNames then (source name).filter (· ≠ "") else none

def collectGitIdentityEnvironment : Environment := fun name =>
  let entry := match name with
    | "GIT_AUTHOR_NAME" => settings.gitAuthorName
    | "GIT_AUTHOR_EMAIL" => settings.gitAuthorEmail
    | "GIT_COMMITTER_NAME" => settings.gitCommitterName.or settings.gitAuthorName
    | "GIT_COMMITTER_EMAIL" => settings.gitCommitterEmail.or settings.gitAuthorEmail
    | _ => none
  entry.filter fun value => ! isBlank value

def DEFAULT_SANDBOX_PATH : String := "/usr/local/sbin:/usr/local/bin:/usr/sbin:/usr/bin:/sbin:/bin"

def prependPathEntry (pathValue : Option String) (entry : String) : String :=
  let parts := ((pathValue.getD DEFAULT_SANDBOX_PATH).splitOn ":").filter (· ≠ "")
  ":".intercalate (entry :: parts.filter (· ≠ entry))

def firstPartyMcpBaseUrl : String :=
  settings.opengeniMcpUrl.getD s!"http://127.0.0.1:{settings.apiPort}/v1/workspaces/\x7bworkspaceId\x7d/mcp"

def firstPartyMcpWorkspaceUrl (workspaceId : WorkspaceId) : String := let raw := firstPartyMcpBaseUrl settings
  let parts := raw.splitOn "\x7bworkspaceId\x7d"
  if parts.length ≠ 1 then workspaceId.value.intercalate parts
  else ports.urlWithPath raw s!"/v1/workspaces/{workspaceId.value}/mcp"

/-- The deployment's variables, its git identity, and over them the workspace's own values. -/
def layers (workspaceEnvironment : Environment) : Environment := fun name =>
  (workspaceEnvironment name).or
    ((collectGitIdentityEnvironment settings name).or (collectSandboxEnvironment source settings name))

def withHome (env : Environment) : Environment :=
  if settings.sandboxBackend = .none ∨ settings.sandboxBackend = .local then env
  else env.setDefault "HOME" settings.sandboxBackend.workspaceRoot

def withGitHelpers (env : Environment) : Environment :=
  if settings.sandboxBackend = .none ∨ settings.sandboxBackend = .local ∨ settings.sandboxBackend = .selfhosted then env
  else
    let home := (env "HOME").getD settings.sandboxBackend.workspaceRoot
    let env := env.setDefault "OPENGENI_GIT_CREDENTIALS_DIR" (home ++ "/.opengeni/git-credentials")
    let env := env.setDefault "OPENGENI_GIT_TOKEN_FILE" (home ++ "/.opengeni/git-token")
    let env := env.setDefault "OPENGENI_GIT_CLI_WRAPPER_DIR" (home ++ "/.opengeni/bin")
    env.set "PATH" (prependPathEntry (env "PATH") ((env "OPENGENI_GIT_CLI_WRAPPER_DIR").getD ""))

def withToolspace (workspaceId : Option WorkspaceId) (env : Environment) : Environment :=
  if settings.toolspaceEnabled then
    let home := (env "HOME").getD settings.sandboxBackend.workspaceRoot
    let env := env.setDefault "OPENGENI_TOOLSPACE_TOKEN_FILE" (home ++ "/.opengeni/toolspace-token")
    match workspaceId with
    | none => env
    | some workspaceId => env.setDefault "OPENGENI_TOOLSPACE_URL" (firstPartyMcpWorkspaceUrl ports settings workspaceId)
  else env

def stableSandboxEnvironmentForRun (workspaceEnvironment : Environment) (workspaceId : Option WorkspaceId) :
    Environment :=
  withToolspace ports settings workspaceId
    (withGitHelpers settings (withHome settings (layers source settings workspaceEnvironment)))

structure GitIdentity where
  name : String
  email : String

def applyGitAuthPointerEnvironment (env : Environment) (identity : Option GitIdentity) : Environment :=
  let env := env.set "GIT_ASKPASS" ((env "HOME").getD "/workspace" ++ "/.opengeni/askpass")
  let env := env.set "GIT_TERMINAL_PROMPT" "0"
  match identity with
  | none => env
  | some identity =>
    let env := env.fallback "GIT_AUTHOR_NAME" identity.name
    let env := env.fallback "GIT_AUTHOR_EMAIL" identity.email
    let env := env.fallback "GIT_COMMITTER_NAME" identity.name
    env.fallback "GIT_COMMITTER_EMAIL" identity.email

def githubAppBotIdentity : Option GitIdentity := do
  let appId ← (settings.githubAppId.map trim).filter (· ≠ "")
  let slug ← (settings.githubAppSlug.map trim).filter (· ≠ "")
  let login := slug ++ "[bot]"
  return { name := login, email := appId ++ "+" ++ login ++ "@users.noreply.github.com" }

/-! ## The environment of an attach -/

/-- What the environment takes of a `Session`. -/
structure AttachedSession where
  sandboxBackend : SandboxBackend
  resources : List ResourceRef

/-- `sessionAttachEnvironment`, with the decrypted values of the workspace environment. -/
def sessionAttachEnvironment (workspaceId : WorkspaceId) (session : AttachedSession)
    (workspaceEnvironment : Environment) : Environment :=
  let settingsForSession :=
    if session.sandboxBackend ≠ settings.sandboxBackend then settings.forBackend session.sandboxBackend else settings
  let environment := stableSandboxEnvironmentForRun ports source settingsForSession workspaceEnvironment workspaceId
  if hasGitCredentialRepositorySelection session.resources then
    applyGitAuthPointerEnvironment environment
      (if hasGitHubRepositorySelection session.resources then githubAppBotIdentity settings else none)
  else environment

/-- The copy of it in `withChannelA`, word for word. -/
def channelAEnvironment : WorkspaceId → AttachedSession → Environment → Environment :=
  sessionAttachEnvironment ports source settings

/-! ## The environment of a turn -/

structure GitCredentialSelection where
  installationId : WithTop ℕ := 0
  repositoryIds : List (WithTop ℕ) := []

def GitCredentialSelection.add (entry : GitCredentialSelection) (provider : GitCredentialProvider)
    (resource : RepositoryResourceRef) : Except String GitCredentialSelection :=
  match provider, resource.githubIds with
  | .github, some (installationId, repositoryId) =>
    if 0 < entry.installationId ∧ entry.installationId ≠ installationId then
      .error "GitHub App repository resources must belong to one installation"
    else .ok { installationId, repositoryIds := entry.repositoryIds ++ [repositoryId] }
  | _, _ => .ok entry

/-- The selections by provider. Which one comes first changes nothing, as only GitHub's does anything. -/
abbrev GitCredentialSelections : Type := Slots GitCredentialProvider GitCredentialSelection

def addResource (byProvider : GitCredentialSelections) : ResourceRef → Except String GitCredentialSelections
  | .file _ => .ok byProvider
  | .repository resource =>
    match resource.repositoryCredentialProvider with
    | none => .ok byProvider
    | some provider => do
      let entry ← ((byProvider.get provider).getD {}).add provider resource
      return byProvider.put provider entry

def gitCredentialSelections (resources : List ResourceRef) : Except String GitCredentialSelections :=
  resources.foldlM addResource []

/-- `resolveRunGitIdentityWithSelections`, without a port of the host. -/
def resolveRunGitIdentity (selections : GitCredentialSelections) : Option GitIdentity :=
  selections.foldl (fun identity selection =>
    if selection.1 = .github ∧ 0 < selection.2.installationId then githubAppBotIdentity settings else identity) none

/-- `mintRunGitTokensWithIdentity`, without a port of the host. -/
def mintRunGitTokensWithIdentity (selections : GitCredentialSelections) :
    Except String (List (GitCredentialProvider × String) × Option GitIdentity) :=
  selections.foldlM (fun minted selection =>
    if selection.1 = .github ∧ 0 < selection.2.installationId then do
      let token ← ports.createGitHubAppInstallationToken selection.2.installationId selection.2.repositoryIds
      return (if token = "" then minted.1 else minted.1 ++ [(selection.1, token)], githubAppBotIdentity settings)
    else .ok minted) ([], none)

structure RunOptions where
  skipGitHubToken : Bool := false
  deferGitHubToken : Bool := false
  scope : Option WorkspaceId := none
  sessionId : Option String := none
  runId : Option String := none

structure RunEnvironment where
  environment : Environment
  gitTokens : List (GitCredentialProvider × String) := []
  toolspaceToken : Option String := none

def toolspaceTokenFor (options : RunOptions) : Except String (Option String) :=
  match settings.delegationSecret, options.scope, options.sessionId, options.runId with
  | some secret, some scope, some sessionId, some runId =>
    if settings.toolspaceEnabled ∧ secret ≠ "" ∧ sessionId ≠ "" ∧ runId ≠ "" then
      (ports.signDelegatedAccessToken secret scope sessionId runId).map some
    else .ok none
  | _, _, _, _ => .ok none

def withToolspaceUrl (scope : Option WorkspaceId) (toolspaceToken : Option String) (environment : Environment) :
    Environment :=
  match scope, toolspaceToken with
  | some scope, some _ =>
    environment.setDefault "OPENGENI_TOOLSPACE_URL" (firstPartyMcpWorkspaceUrl ports settings scope)
  | _, _ => environment

/-- The run-scoped git layer: none, with the identity only, or with the tokens minted. -/
def withGitAuth (options : RunOptions) (selections : GitCredentialSelections) (environment : Environment) :
    Except String (Environment × List (GitCredentialProvider × String)) :=
  if selections.isEmpty || options.skipGitHubToken then .ok (environment, [])
  else if options.deferGitHubToken then
    .ok (applyGitAuthPointerEnvironment environment (resolveRunGitIdentity settings selections), [])
  else
    (mintRunGitTokensWithIdentity ports settings selections).map fun minted =>
      (applyGitAuthPointerEnvironment environment minted.2, minted.1)

def sandboxEnvironmentForRun (resources : List ResourceRef) (workspaceEnvironment : Environment)
    (options : RunOptions) : Except String RunEnvironment := do
  let environment := stableSandboxEnvironmentForRun ports source settings workspaceEnvironment options.scope
  let toolspaceToken ← toolspaceTokenFor ports settings options
  let selections ← gitCredentialSelections resources
  let result ← withGitAuth ports settings options selections
    (withToolspaceUrl ports settings options.scope toolspaceToken environment)
  return { environment := result.1, gitTokens := result.2, toolspaceToken }

end

/-! ## The names of the author -/

def gitIdentityNames : List String :=
  ["GIT_AUTHOR_NAME", "GIT_AUTHOR_EMAIL", "GIT_COMMITTER_NAME", "GIT_COMMITTER_EMAIL"]

namespace Environment

variable {env : Environment} {name other value : String}

theorem set_of_ne (h : name ≠ other) : env.set other value name = env name := Function.update_of_ne h _ _

theorem setDefault_of_ne (h : name ≠ other) : env.setDefault other value name = env name := by
  unfold setDefault
  split_ifs
  · rfl
  · exact set_of_ne h

theorem setDefault_setDefault {value' : String} :
    (env.setDefault name value).setDefault name value' = env.setDefault name value := by
  have hsome : (env.setDefault name value name).isSome := by
    unfold setDefault
    split_ifs with h
    · exact h
    · simp [set]
  rw [setDefault, if_pos hsome]

theorem declares_of_eq {env' : Environment} (h : env name = env' name) : env.Declares name ↔ env'.Declares name := by
  rw [Declares, h, Declares]

theorem declares_fallback (hvalue : value ≠ "") : (env.fallback name value).Declares name := by
  refine ⟨_, Function.update_self _ _ _, ?_⟩
  cases hold : (env name).filter (· ≠ "") with
  | none => exact hvalue
  | some v => simpa using (Option.filter_eq_some_iff.1 hold).2

theorem Declares.fallback (h : env.Declares name) (hvalue : value ≠ "") : (env.fallback other value).Declares name := by
  by_cases hname : name = other
  · rw [hname]
    exact declares_fallback hvalue
  · exact (declares_of_eq (set_of_ne hname)).2 h

theorem fallback_of_declares (h : env.Declares name) : env.fallback name value = env := by
  obtain ⟨v, hv, hne⟩ := h
  have hkeep : ((env name).filter (· ≠ "")).getD value = v := by
    rw [hv, Option.filter_some_pos (by simpa using hne)]
    rfl
  rw [fallback, hkeep, set, ← hv, Function.update_eq_self]

end Environment

open Environment

theorem apply_identity_eq_iff {env : Environment} {identity : GitIdentity} (hname : identity.name ≠ "")
    (hemail : identity.email ≠ "") :
    applyGitAuthPointerEnvironment env (some identity) = applyGitAuthPointerEnvironment env none ↔
      ∀ name ∈ gitIdentityNames, env.Declares name := by
  have hbase : ∀ name ∈ gitIdentityNames, (applyGitAuthPointerEnvironment env none).Declares name ↔ env.Declares name := by
    intro name hmem
    refine declares_of_eq ?_
    have hne : name ≠ "GIT_TERMINAL_PROMPT" ∧ name ≠ "GIT_ASKPASS" := by
      revert name
      decide
    exact (set_of_ne hne.1).trans (set_of_ne hne.2)
  constructor
  · intro heq name hmem
    rw [← hbase name hmem, ← heq]
    simp only [gitIdentityNames, List.mem_cons, List.not_mem_nil, or_false] at hmem
    obtain rfl | rfl | rfl | rfl := hmem
    · exact (((declares_fallback hname).fallback hemail).fallback hname).fallback hemail
    · exact ((declares_fallback hemail).fallback hname).fallback hemail
    · exact (declares_fallback hname).fallback hemail
    · exact declares_fallback hemail
  · intro hall
    have hdeclares := fun name hmem => (hbase name hmem).2 (hall name hmem)
    change Environment.fallback (.fallback (.fallback (.fallback (applyGitAuthPointerEnvironment env none) _ _) _ _) _ _) _ _ = _
    rw [fallback_of_declares (hdeclares _ (by decide)), fallback_of_declares (hdeclares _ (by decide)),
      fallback_of_declares (hdeclares _ (by decide)), fallback_of_declares (hdeclares _ (by decide))]

section

variable {ports : EnvironmentPorts} {source : Environment} {settings : EnvironmentSettings}

variable {workspaceEnvironment env : Environment} {resource : RepositoryResourceRef}
  {selections : GitCredentialSelections} {resources : List ResourceRef} {options : RunOptions}

theorem stable_declares_iff {workspaceId : Option WorkspaceId} {name : String} (hmem : name ∈ gitIdentityNames) :
    (stableSandboxEnvironmentForRun ports source settings workspaceEnvironment workspaceId).Declares name ↔
      (layers source settings workspaceEnvironment).Declares name := by
  refine declares_of_eq ?_
  have hne : ∀ other ∈ ["HOME", "PATH", "OPENGENI_GIT_CREDENTIALS_DIR", "OPENGENI_GIT_TOKEN_FILE",
      "OPENGENI_GIT_CLI_WRAPPER_DIR", "OPENGENI_TOOLSPACE_TOKEN_FILE", "OPENGENI_TOOLSPACE_URL"], name ≠ other := by
    revert name
    decide
  have hhome : ∀ env, withHome settings env name = env name := by
    intro env
    unfold withHome
    split_ifs
    · rfl
    · exact setDefault_of_ne (hne _ (by decide))
  have hgit : ∀ env, withGitHelpers settings env name = env name := by
    intro env
    unfold withGitHelpers
    split_ifs
    · rfl
    · rw [set_of_ne (hne _ (by decide)), setDefault_of_ne (hne _ (by decide)), setDefault_of_ne (hne _ (by decide)),
        setDefault_of_ne (hne _ (by decide))]
  have htoolspace : ∀ env, withToolspace ports settings workspaceId env name = env name := by
    intro env
    unfold withToolspace
    split_ifs
    · cases workspaceId with
      | none => exact setDefault_of_ne (hne _ (by decide))
      | some workspaceId => exact (setDefault_of_ne (hne _ (by decide))).trans (setDefault_of_ne (hne _ (by decide)))
    · rfl
  exact (htoolspace _).trans ((hgit _).trans (hhome _))

theorem githubAppBotIdentity_nonempty {identity : GitIdentity} (h : githubAppBotIdentity settings = some identity) :
    identity.name ≠ "" ∧ identity.email ≠ "" := by
  obtain ⟨appId, -, h⟩ := Option.bind_eq_some_iff.1 h
  obtain ⟨slug, -, h⟩ := Option.bind_eq_some_iff.1 h
  cases h
  have hends : ∀ text ending : String, ending.length ≠ 0 → text ++ ending ≠ "" := by
    intro text ending hending heq
    have hlength := congrArg String.length heq
    rw [String.length_append] at hlength
    exact hending (Nat.eq_zero_of_add_eq_zero_left hlength)
  exact ⟨hends _ _ (by decide), hends _ _ (by decide)⟩

/-! ## The selections -/

theorem positiveInteger_pos {id : GitProviderRepositoryId} {n : WithTop ℕ} (h : positiveInteger id = some n) : 0 < n := by
  cases id with
  | number m =>
    cases h
    exact WithTop.coe_pos.2 m.pos
  | text s =>
    simp only [positiveInteger] at h
    split_ifs at h with hdigits
    exact Option.some.inj h ▸ hdigits.2

theorem githubIds_pos {ids : WithTop ℕ × WithTop ℕ} (h : resource.githubIds = some ids) : 0 < ids.1 := by
  obtain ⟨installation, -, h⟩ := Option.bind_eq_some_iff.1 h
  obtain ⟨repository, -, h⟩ := Option.bind_eq_some_iff.1 h
  obtain ⟨n, hn, h⟩ := Option.bind_eq_some_iff.1 h
  obtain ⟨m, -, h⟩ := Option.bind_eq_some_iff.1 h
  cases h
  exact positiveInteger_pos hn

def WithInstallation (selection : GitCredentialProvider × GitCredentialSelection) : Prop :=
  selection.1 = .github ∧ 0 < selection.2.installationId

instance (selection : GitCredentialProvider × GitCredentialSelection) : Decidable (WithInstallation selection) :=
  inferInstanceAs (Decidable (_ ∧ _))

theorem add_withInstallation_iff {entry entry' : GitCredentialSelection}
    {provider : GitCredentialProvider} (h : entry.add provider resource = .ok entry') :
    WithInstallation (provider, entry') ↔
      WithInstallation (provider, entry) ∨ provider = .github ∧ resource.githubIds.isSome = true := by
  unfold GitCredentialSelection.add at h
  split at h
  · next installationId repositoryId hids =>
      split_ifs at h
      cases h
      exact ⟨fun _ => .inr ⟨rfl, by rw [hids]; rfl⟩, fun _ => ⟨rfl, githubIds_pos hids⟩⟩
  · next hnone =>
      cases h
      refine ⟨.inl, ?_⟩
      rintro (hinstallation | ⟨rfl, hids⟩)
      · exact hinstallation
      · obtain ⟨ids, hids⟩ := Option.isSome_iff_exists.1 hids
        exact absurd hids (hnone ids.1 ids.2 rfl)

theorem credentials_singleton (resource : RepositoryResourceRef) :
    hasGitCredentialRepositorySelection [.repository resource] = resource.repositoryCredentialProvider.isSome := by
  obtain ⟨provider, -, -, installation, repository⟩ := resource
  cases provider <;> cases installation <;> cases repository <;> rfl

theorem namesGitHubApp_singleton (resource : RepositoryResourceRef) : namesGitHubApp [.repository resource] = true ↔
    resource.repositoryCredentialProvider = some .github ∧ resource.githubIds.isSome = true := by
  simp [namesGitHubApp]

/-- What the selections are, after the resources `seen`. -/
structure Selected (selections : GitCredentialSelections) (seen : List ResourceRef) : Prop where
  unique : Slots.Unique selections
  credentials : selections ≠ [] ↔ hasGitCredentialRepositorySelection seen = true
  installation : (∃ selection ∈ selections, WithInstallation selection) ↔ namesGitHubApp seen = true

theorem Selected.add {selections' : GitCredentialSelections} {seen : List ResourceRef}
    {resource : ResourceRef} (h : Selected selections seen)
    (hadd : addResource selections resource = .ok selections') :
    Selected selections' (seen ++ [resource]) := by
  have hcredentials : hasGitCredentialRepositorySelection (seen ++ [resource]) =
      (hasGitCredentialRepositorySelection seen || hasGitCredentialRepositorySelection [resource]) := List.any_append
  have happ : namesGitHubApp (seen ++ [resource]) = (namesGitHubApp seen || namesGitHubApp [resource]) :=
    List.any_append
  have hsame : hasGitCredentialRepositorySelection [resource] = false → namesGitHubApp [resource] = false →
      Selected selections (seen ++ [resource]) := by
    intro hno hnone
    rw [hno, Bool.or_false] at hcredentials
    rw [hnone, Bool.or_false] at happ
    exact ⟨h.unique, hcredentials ▸ h.credentials, happ ▸ h.installation⟩
  cases resource with
  | file fileId =>
    cases hadd
    exact hsame rfl rfl
  | repository resource =>
    have hone := credentials_singleton resource
    have hnames := namesGitHubApp_singleton resource
    cases hprovider : resource.repositoryCredentialProvider with
    | none =>
      simp only [addResource, hprovider] at hadd
      cases hadd
      rw [hprovider] at hone hnames
      exact hsame hone (Bool.eq_false_iff.2 fun htrue => by cases (hnames.1 htrue).1)
    | some provider =>
      simp only [addResource, hprovider] at hadd
      cases hentry : ((selections.get provider).getD {}).add provider resource with
      | error message =>
        rw [hentry] at hadd
        cases hadd
      | ok entry =>
        rw [hentry] at hadd
        cases hadd
        rw [hprovider] at hone hnames
        refine ⟨h.unique.put, iff_of_true (List.cons_ne_nil _ _) (by rw [hcredentials, hone]; simp), ?_⟩
        rw [happ, Bool.or_eq_true, ← h.installation, hnames, Option.some.injEq]
        have hjoins := add_withInstallation_iff hentry
        constructor
        · rintro ⟨selection, hmem, hready⟩
          obtain rfl | ⟨-, hold⟩ := Slots.mem_put_cases hmem
          · obtain hbefore | hnew := hjoins.1 hready
            · cases hget : selections.get provider with
              | none =>
                rw [hget] at hbefore
                exact absurd hbefore.2 (lt_irrefl _)
              | some before =>
                rw [hget] at hbefore
                exact .inl ⟨_, Slots.mem_of_get hget, hbefore⟩
            · exact .inr hnew
          · exact .inl ⟨selection, hold, hready⟩
        · rintro (⟨selection, hold, hready⟩ | hnew)
          · by_cases hsame : selection.1 = provider
            · subst hsame
              rw [h.unique.get_of_mem hold] at hjoins
              exact ⟨_, Slots.mem_put_self, hjoins.2 (.inl hready)⟩
            · exact ⟨selection, Slots.mem_put_of_ne hold hsame, hready⟩
          · exact ⟨_, Slots.mem_put_self, hjoins.2 (.inr hnew)⟩

theorem gitCredentialSelections_selected (h : gitCredentialSelections resources = .ok selections) :
    Selected selections resources := by
  have hrun : ∀ (rest seen : List ResourceRef) (start : GitCredentialSelections), Selected start seen →
      rest.foldlM addResource start = .ok selections → Selected selections (seen ++ rest) := by
    intro rest
    induction rest with
    | nil =>
      intro seen start hstart h
      cases h
      rwa [List.append_nil]
    | cons resource rest ih =>
      intro seen start hstart h
      rw [List.foldlM_cons] at h
      cases hadd : addResource start resource with
      | error message =>
        rw [hadd] at h
        cases h
      | ok next =>
        rw [hadd] at h
        rw [List.append_cons]
        exact ih _ _ (hstart.add hadd) h
  exact hrun resources [] [] ⟨.nil, by simp [hasGitCredentialRepositorySelection], by simp [namesGitHubApp]⟩ h

/-! ## The two sides -/

theorem resolveRunGitIdentity_eq (selections : GitCredentialSelections) : resolveRunGitIdentity settings selections =
    if ∃ selection ∈ selections, WithInstallation selection then githubAppBotIdentity settings else none := by
  have hfold : ∀ start, selections.foldl (fun identity selection =>
      if WithInstallation selection then githubAppBotIdentity settings else identity) start =
      if ∃ selection ∈ selections, WithInstallation selection then githubAppBotIdentity settings else start := by
    induction selections with
    | nil => simp
    | cons selection selections ih =>
      intro start
      rw [List.foldl_cons, ih]
      simp only [List.exists_mem_cons_iff]
      by_cases hfirst : WithInstallation selection
      · simp [hfirst]
      · rw [if_neg hfirst]
        exact if_congr (or_iff_right hfirst).symm rfl rfl
  exact hfold none

theorem mint_identity {minted : List (GitCredentialProvider × String) × Option GitIdentity}
    (h : mintRunGitTokensWithIdentity ports settings selections = .ok minted) :
    minted.2 = resolveRunGitIdentity settings selections := by
  unfold mintRunGitTokensWithIdentity at h
  unfold resolveRunGitIdentity
  generalize hstart : (([], none) : List (GitCredentialProvider × String) × Option GitIdentity) = start at h
  replace hstart : none = start.2 := congrArg Prod.snd hstart
  rw [hstart]
  clear hstart
  induction selections generalizing start with
  | nil =>
    cases h
    rfl
  | cons selection selections ih =>
    rw [List.foldlM_cons] at h
    rw [List.foldl_cons]
    split_ifs at h ⊢ with hready
    · cases htoken : ports.createGitHubAppInstallationToken selection.2.installationId selection.2.repositoryIds with
      | error message =>
        rw [htoken] at h
        cases h
      | ok token =>
        rw [htoken] at h
        exact ih _ h
    · exact ih _ h

theorem toolspaceEnabled_of_token {token : String}
    (h : toolspaceTokenFor ports settings options = .ok (some token)) :
    settings.toolspaceEnabled = true := by
  unfold toolspaceTokenFor at h
  split at h
  · split_ifs at h with henabled
    · exact henabled.1
    · cases h
  · cases h

theorem stable_has_url (henabled : settings.toolspaceEnabled = true) (workspaceEnvironment : Environment)
    (workspaceId : WorkspaceId) :
    (stableSandboxEnvironmentForRun ports source settings workspaceEnvironment (some workspaceId)).setDefault
        "OPENGENI_TOOLSPACE_URL" (firstPartyMcpWorkspaceUrl ports settings workspaceId) =
      stableSandboxEnvironmentForRun ports source settings workspaceEnvironment (some workspaceId) := by
  simp only [stableSandboxEnvironmentForRun, withToolspace, henabled, if_true]
  exact setDefault_setDefault

/-- The git layer of either side, which finds a repository of the GitHub App or does not. -/
def gitLayer (settings : EnvironmentSettings) (resources : List ResourceRef) (found : Bool) (env : Environment) :
    Environment :=
  if hasGitCredentialRepositorySelection resources then
    applyGitAuthPointerEnvironment env (if found then githubAppBotIdentity settings else none)
  else env

theorem withGitAuth_eq {result : Environment × List (GitCredentialProvider × String)}
    (hselected : Selected selections resources) (hskip : options.skipGitHubToken = false)
    (h : withGitAuth ports settings options selections env = .ok result) :
    result.1 = gitLayer settings resources (namesGitHubApp resources) env := by
  have hidentity : resolveRunGitIdentity settings selections =
      if namesGitHubApp resources then githubAppBotIdentity settings else none :=
    (resolveRunGitIdentity_eq selections).trans (if_congr hselected.installation rfl rfl)
  unfold withGitAuth at h
  unfold gitLayer
  rw [hskip, Bool.or_false] at h
  by_cases hempty : selections = []
  · subst hempty
    cases h
    exact (if_neg fun hcredentials => hselected.credentials.2 hcredentials rfl).symm
  · rw [if_pos (hselected.credentials.1 hempty), ← hidentity]
    rw [if_neg (by rwa [List.isEmpty_iff])] at h
    split_ifs at h
    · cases h
      rfl
    · cases hminted : mintRunGitTokensWithIdentity ports settings selections with
      | error message =>
        rw [hminted] at h
        cases h
      | ok minted =>
        rw [hminted] at h
        cases h
        rw [← mint_identity hminted]

theorem run_environment
    {workspaceId : WorkspaceId} {run : RunEnvironment} (hscope : options.scope = some workspaceId)
    (hskip : options.skipGitHubToken = false)
    (h : sandboxEnvironmentForRun ports source settings resources workspaceEnvironment options = .ok run) :
    run.environment = gitLayer settings resources (namesGitHubApp resources)
      (stableSandboxEnvironmentForRun ports source settings workspaceEnvironment (some workspaceId)) := by
  unfold sandboxEnvironmentForRun at h
  rw [hscope] at h
  cases htoken : toolspaceTokenFor ports settings options with
  | error message =>
    rw [htoken] at h
    cases h
  | ok token =>
    cases hselections : gitCredentialSelections resources with
    | error message =>
      rw [htoken, hselections] at h
      cases h
    | ok selections =>
      have hstable : withToolspaceUrl ports settings (some workspaceId) token
          (stableSandboxEnvironmentForRun ports source settings workspaceEnvironment (some workspaceId)) =
          stableSandboxEnvironmentForRun ports source settings workspaceEnvironment (some workspaceId) := by
        cases token with
        | none => rfl
        | some token => exact stable_has_url (toolspaceEnabled_of_token htoken) _ _
      cases hresult : withGitAuth ports settings options selections
          (stableSandboxEnvironmentForRun ports source settings workspaceEnvironment (some workspaceId)) with
      | error message =>
        simp only [htoken, hselections, bind, Except.bind, hstable, hresult] at h
        cases h
      | ok result =>
        simp only [htoken, hselections, bind, Except.bind, hstable, hresult] at h
        cases h
        exact withGitAuth_eq (gitCredentialSelections_selected hselections) hskip hresult

theorem sessionAttachEnvironment_eq (workspaceId : WorkspaceId) (session : AttachedSession)
    (workspaceEnvironment : Environment) :
    sessionAttachEnvironment ports source settings workspaceId session workspaceEnvironment =
      gitLayer settings session.resources (hasGitHubRepositorySelection session.resources)
        (stableSandboxEnvironmentForRun ports source (settings.forBackend session.sandboxBackend)
          workspaceEnvironment (some workspaceId)) := by
  have hsettings : (if session.sandboxBackend ≠ settings.sandboxBackend then
      settings.forBackend session.sandboxBackend else settings) = settings.forBackend session.sandboxBackend := by
    split_ifs with hbackend
    · rfl
    · rw [not_not.1 hbackend]
      rfl
  simp only [sessionAttachEnvironment, hsettings, gitLayer]

theorem credentials_of_names (h : namesGitHubApp resources = true ∨ hasGitHubRepositorySelection resources = true) :
    hasGitCredentialRepositorySelection resources = true := by
  have hone : ∀ resource ∈ resources, hasGitCredentialRepositorySelection [resource] = true →
      hasGitCredentialRepositorySelection resources = true := fun resource hmem hresource =>
    List.any_eq_true.2 ⟨resource, hmem, by simpa [hasGitCredentialRepositorySelection] using hresource⟩
  obtain h | h := h
  · obtain ⟨resource, hmem, hresource⟩ := List.any_eq_true.1 h
    refine hone resource hmem ?_
    cases resource with
    | file => cases hresource
    | repository resource =>
      rw [Bool.and_eq_true, decide_eq_true_eq] at hresource
      rw [credentials_singleton, hresource.1]
      rfl
  · obtain ⟨resource, hmem, hresource⟩ := List.any_eq_true.1 h
    refine hone resource hmem ?_
    have hselection : hasGitHubRepositorySelection [resource] = true :=
      List.any_eq_true.2 ⟨resource, List.mem_singleton_self _, hresource⟩
    cases resource with
    | file => cases hresource
    | repository resource => simp [hasGitCredentialRepositorySelection, hselection]

/-- The classifications agree, or it does not matter: there is no bot, or its names are all given. -/
def Alike (source : Environment) (settings : EnvironmentSettings) (workspaceEnvironment : Environment)
    (resources : List ResourceRef) : Prop :=
  githubAppBotIdentity settings = none ∨
    (∀ name ∈ gitIdentityNames, (layers source settings workspaceEnvironment).Declares name) ∨
    namesGitHubApp resources = hasGitHubRepositorySelection resources

theorem gitLayer_eq_iff : gitLayer settings resources (hasGitHubRepositorySelection resources) env =
        gitLayer settings resources (namesGitHubApp resources) env ↔
      githubAppBotIdentity settings = none ∨ (∀ name ∈ gitIdentityNames, env.Declares name) ∨
        namesGitHubApp resources = hasGitHubRepositorySelection resources := by
  cases hnames : namesGitHubApp resources <;> cases hhas : hasGitHubRepositorySelection resources
  case false.false | true.true => simp
  all_goals
    -- the sides differ by the bot, where there is one
    have hcredentials : hasGitCredentialRepositorySelection resources = true :=
      credentials_of_names (by simp [hnames, hhas])
    simp only [gitLayer, hcredentials, if_true]
    cases hbot : githubAppBotIdentity settings with
    | none => simp
    | some identity =>
      obtain ⟨hname, hemail⟩ := githubAppBotIdentity_nonempty hbot
      simp [← apply_identity_eq_iff hname hemail, eq_comm]

/-- **Attach and turn agree exactly where `Alike` holds**, whether tokens are minted at once or later. -/
theorem attach_matches_turn_iff (session : AttachedSession) (options : RunOptions) {workspaceEnvironment : Environment}
    {workspaceId : WorkspaceId} {run : RunEnvironment}
    (h : sandboxEnvironmentForRun ports source (settings.forBackend session.sandboxBackend) session.resources
      workspaceEnvironment { options with scope := some workspaceId, skipGitHubToken := false } = .ok run) :
    (sessionAttachEnvironment ports source settings workspaceId session workspaceEnvironment = run.environment ↔
      Alike source settings workspaceEnvironment session.resources) ∧
    (channelAEnvironment ports source settings workspaceId session workspaceEnvironment = run.environment ↔
      Alike source settings workspaceEnvironment session.resources) := by
  have hiff : sessionAttachEnvironment ports source settings workspaceId session workspaceEnvironment =
      run.environment ↔ Alike source settings workspaceEnvironment session.resources := by
    rw [sessionAttachEnvironment_eq, run_environment rfl rfl h]
    refine gitLayer_eq_iff.trans (or_congr_right (or_congr_left ?_))
    exact forall₂_congr fun _ hmem => stable_declares_iff hmem
  exact ⟨hiff, hiff⟩

end

/-! ## A repository told apart -/

def noPorts : EnvironmentPorts where
  urlWithPath raw path := raw ++ path
  signDelegatedAccessToken _ _ _ _ := .error "no secret"
  createGitHubAppInstallationToken _ _ := .error "not reachable"

def botSettings : EnvironmentSettings where
  sandboxBackend := .docker
  githubAppId := some "12345"
  githubAppSlug := some "opengeni-test"

/-- Provider `github`, with the installation under its GitHub name and the repository under the generic one. -/
def mixedSession : AttachedSession where
  sandboxBackend := .docker
  resources := [.repository
    { provider := some .github, githubInstallationId := some 123, repositoryId := some (.number 456) }]

def someWorkspace : WorkspaceId := ⟨"ws-1", by decide⟩

theorem attach_matches_turn_without_repository :
    ∃ run, sandboxEnvironmentForRun noPorts (fun _ => none) botSettings [] (fun _ => none)
        { scope := some someWorkspace } = .ok run ∧
      (sessionAttachEnvironment noPorts (fun _ => none) botSettings someWorkspace ⟨.docker, []⟩ (fun _ => none) =
          run.environment ↔ Alike (fun _ => none) botSettings (fun _ => none) []) ∧
      (channelAEnvironment noPorts (fun _ => none) botSettings someWorkspace ⟨.docker, []⟩ (fun _ => none) =
          run.environment ↔ Alike (fun _ => none) botSettings (fun _ => none) []) :=
  ⟨_, rfl, attach_matches_turn_iff ⟨.docker, []⟩ {} rfl⟩

/-- The deferred turn declares the bot as the author, and the box of the attach has no author. -/
theorem mixed_ids_break_the_match :
    ∃ run, sandboxEnvironmentForRun noPorts (fun _ => none) botSettings mixedSession.resources (fun _ => none)
        { scope := some someWorkspace, deferGitHubToken := true } = .ok run ∧
      run.environment "GIT_AUTHOR_NAME" = some "opengeni-test[bot]" ∧
      sessionAttachEnvironment noPorts (fun _ => none) botSettings someWorkspace mixedSession (fun _ => none)
        "GIT_AUTHOR_NAME" = none :=
  ⟨_, rfl, by decide +kernel, by decide +kernel⟩

end OpenGeni.Worker
