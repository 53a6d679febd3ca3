import EdgionCenter.Admin.Routed

/-! Every handler runs behind authentication and its own permission. -/
namespace EdgionCenter

open Interaction

section Exempt

variable {path : String}

/-- A path that some configuration may exempt from authentication. -/
def Exempt (path : String) : Prop :=
  path ∈ publicProbePaths ∨ path ∈ publicDiscoveryEndpoints ∨
    startsWith path "/api/v1/auth/" = true

theorem not_exempt_of_segments {s : String} {rest : List String}
    (hs : segments path = "" :: "api" :: "v1" :: s :: rest) (ha : s ≠ "auth")
    (hi : s ≠ "server-info") : ¬ Exempt path := by
  have hhealth : segments "/health" = ["", "health"] := segments_ofList _ rfl
  have hready : segments "/ready" = ["", "ready"] := segments_ofList _ rfl
  have hmetrics : segments "/metrics" = ["", "metrics"] := segments_ofList _ rfl
  rintro (h | h | h)
  · simp only [publicProbePaths, List.mem_cons, List.not_mem_nil, or_false,
      Catalog.eq_iff_segments hhealth, Catalog.eq_iff_segments hready,
      Catalog.eq_iff_segments hmetrics, hs] at h
    simp at h
  · simp [publicDiscoveryEndpoints, hs, hi] at h
  · rw [Catalog.startsWith_auth_iff, hs] at h
    simp [Ne.symm ha] at h

theorem exempt_of_mem_publicAuthEndpoints (h : path ∈ publicAuthEndpoints) : Exempt path := by
  refine .inr (.inr ?_)
  simp only [publicAuthEndpoints, List.mem_cons, List.not_mem_nil, or_false] at h
  rcases h with rfl | rfl | rfl <;> decide

theorem exempt_of_mem_skipPaths {config : Option ProviderConfig} {name : String}
    {paths : List String} (h : providerSkipPaths name config = .ok paths) (hp : path ∈ paths) :
    Exempt path := by
  cases config with
  | none =>
    cases h
    cases hp
  | some config =>
    cases he : config.enabled with
    | false =>
      obtain rfl : [] = paths := by simpa [providerSkipPaths, he] using h
      cases hp
    | true =>
      have hall : config.skipPaths.all isSkipAllowlisted = true ∧ config.skipPaths = paths := by
        cases hf : config.fault with
        | some error => simp [providerSkipPaths, ProviderConfig.validate, he, hf] at h
        | none =>
          cases hs : config.skipPaths.all isSkipAllowlisted with
          | true => simpa [providerSkipPaths, ProviderConfig.validate, he, hf, hs] using h
          | false => simp [providerSkipPaths, ProviderConfig.validate, he, hf, hs] at h
      rw [← hall.2] at hp
      have hallowed := List.all_eq_true.mp hall.1 path hp
      rw [isSkipAllowlisted, Bool.or_eq_true, decide_eq_true_eq] at hallowed
      exact hallowed.imp id .inr

/-- Only paths that the configuration check lets through are skipped. -/
theorem exempt_of_fromConfigs {passwordAuth : Bool} {oidc localAuth : Option ProviderConfig}
    {auth : UnifiedAuthState}
    (h : UnifiedAuthState.fromConfigs passwordAuth oidc localAuth = .ok auth)
    (hp : path ∈ auth.skipPaths) : Exempt path := by
  simp only [UnifiedAuthState.fromConfigs, Fallible.bind_eq_ok, Fallible.pure_eq_ok] at h
  obtain ⟨oidcPaths, ho, localPaths, hl, rfl⟩ := h
  simp only [List.mem_append] at hp
  rcases hp with ((hp | hp) | hp) | hp
  · exact .inl hp
  · exact .inr (.inl hp)
  · exact exempt_of_mem_skipPaths ho hp
  · cases passwordAuth with
    | true => exact exempt_of_mem_skipPaths hl hp
    | false =>
      by_cases he : localAuth.any (·.enabled) = true
      · simp [localSkipPaths, he] at hl
      · obtain rfl : [] = localPaths := by simpa [localSkipPaths, he] using hl
        cases hp

end Exempt

theorem isAuth_of_mem {passwordAuth intent : Bool} {mount : Mount}
    (h : mount ∈ authRoutes passwordAuth intent) : mount.handler.isAuth = true := by
  cases passwordAuth <;> cases intent <;>
    simp only [authRoutes, mountIf, Bool.and_true, Bool.and_false, Bool.false_eq_true, if_true,
      if_false, List.nil_append, List.cons_append, List.mem_cons, List.not_mem_nil, or_false] at h <;>
    rcases h with rfl | rfl | rfl | rfl <;> rfl

section Mediation

abbrev GateLog := List (Sigma GateCall.Reply)

/-- The claims come from a provider that accepted the token. -/
inductive Validated (auth : UnifiedAuthState) (log : GateLog) (token : String) :
    UnifiedAuthClaims → Prop
  | oidc {groupsClaim : String} {accepted : Oidc.OidcClaims} {claims : UnifiedAuthClaims}
      (ho : auth.oidc = some groupsClaim) (h : ⟨.validateOidc token, .ok accepted⟩ ∈ log)
      (hc : oidcClaims groupsClaim accepted = .ok claims) : Validated auth log token claims
  | localAuth {secret : String} {decoded : LocalAuthClaims}
      (hs : ⟨.loadLocal, some secret⟩ ∈ log)
      (h : ⟨.decodeLocal secret token, .ok decoded⟩ ∈ log) :
      Validated auth log token (localClaims decoded)

def Allowed (log : GateLog) (principal : Principal) (action : AuthzAction) : Prop :=
  ∃ reason, ⟨.authorize principal action, .ok ⟨true, reason⟩⟩ ∈ log

/-- The request was authenticated and the authorizer allowed the action of its handler. -/
structure Mediated (auth : UnifiedAuthState) (request : AdminRequest) (handler : Handler)
    (params : List String) (log : GateLog) (principal : Principal) (action : AuthzAction) :
    Prop where
  authenticated : ∃ token claims, request.token = some token ∧ Validated auth log token claims ∧
    claims.principal = some principal
  allowed : Allowed log principal action
  permission : action.permission = handler.permission request.method
  write : request.method.isRead = false → endsWith action.permission ":read" = false
  target : handler.namesController = true →
    ∃ id, action.controllerId = some id ∧ handler.actsOn params = some id
  credentials : handler.writesAccount = true →
    ∃ use, use.permission = Catalog.providerCredentialsUse ∧ Allowed log principal use
  unmapped : Catalog.routePermission request.method request.path = none →
    action.permission = unmappedBusinessRoute

/-- A business handler runs only behind both layers. -/
def MediatedCall (auth : UnifiedAuthState) (request : AdminRequest) (log : GateLog) :
    GateCall → Prop
  | .handle handler params _ => handler ≠ .serverInfo → handler.isAuth = false →
      ∃ principal action, Mediated auth request handler params log principal action
  | _ => True

variable {auth : UnifiedAuthState} {request : AdminRequest} {log : GateLog}

/-- Along every run from here. -/
def Mediates (auth : UnifiedAuthState) (request : AdminRequest) (p : GateRun HttpResponse)
    (log : GateLog) : Prop :=
  Holds (Monitor.history (MediatedCall auth request)) p (fun _ _ => True) log

theorem mediates_pure {response : HttpResponse} : Mediates auth request (pure response) log :=
  trivial

theorem mediates_ask {c : GateCall} {f : c.Reply → GateRun HttpResponse}
    (hc : MediatedCall auth request log c) (h : ∀ r, Mediates auth request (f r) (log ++ [⟨c, r⟩])) :
    Mediates auth request (ask c >>= f) log :=
  ⟨hc, fun r _ => h r⟩

/-- Every route is a business route or an endpoint of the authentication. -/
def Composed (mounts : List Mount) : Prop :=
  ∀ mount ∈ mounts, mount.handler.isAuth = true ∨ mount ∈ allRoutes

theorem composed_router {state : ApiState} {passwordAuth intent : Bool} :
    Composed (router state ++ authRoutes passwordAuth intent) := by
  intro mount h
  rcases List.mem_append.mp h with hb | ha
  · exact .inr (router_subset hb)
  · exact .inl (isAuth_of_mem ha)

theorem mediates_serve {mounts : List Mount} {permissions : Option (List String)}
    (hmounts : Composed mounts)
    (h : ∀ handler raw params, Routed handler request.method request.path raw →
      handler ≠ .serverInfo → raw.mapM percentDecodeStr = some params →
      ∃ principal action, Mediated auth request handler params log principal action) :
    Mediates auth request (serve mounts request permissions) log := by
  unfold serve
  split
  · rename_i mount hfind
    split
    · rename_i params hparams
      obtain ⟨raw, hraw, hdecode⟩ := Option.bind_eq_some_iff.mp hparams
      refine ⟨?_, fun _ _ => trivial⟩
      intro hinfo hauth
      have haccepts := List.find?_some hfind
      have hmem := List.mem_filter.mp (List.mem_of_find?_eq_some hfind)
      rcases hmounts mount hmem.1 with ha | hb
      · rw [ha] at hauth
        cases hauth
      · exact h _ raw params (routed_of_mem hb haccepts hraw) hinfo hdecode
    · exact mediates_pure
  · exact mediates_pure

variable {action : AuthzAction} {principal : Principal} {log' : GateLog}

theorem mediates_authorized {required : String} {next : GateRun HttpResponse}
    (h : ∀ log', log ⊆ log' → Allowed log' principal action → Mediates auth request next log') :
    Mediates auth request (authorized principal action required next) log := by
  refine mediates_ask trivial fun reply => ?_
  cases reply with
  | error e => exact mediates_pure
  | ok decision =>
    obtain ⟨allowed, reason⟩ := decision
    cases allowed with
    | false => exact mediates_pure
    | true =>
      exact h _ (List.subset_append_left _ _) ⟨reason, List.mem_append_right _ (by simp)⟩

theorem Allowed.mono (h : Allowed log principal action) (hsub : log ⊆ log') :
    Allowed log' principal action := by
  obtain ⟨reason, hr⟩ := h
  exact ⟨reason, hsub hr⟩

/-- The principal of a request whose token a provider accepted. -/
def Authenticated (auth : UnifiedAuthState) (request : AdminRequest) (log : GateLog)
    (principal : Principal) : Prop :=
  ∃ token claims, request.token = some token ∧ Validated auth log token claims ∧
    claims.principal = some principal

theorem Authenticated.mono (h : Authenticated auth request log principal) (hsub : log ⊆ log') :
    Authenticated auth request log' principal := by
  obtain ⟨token, claims, ht, hv, hp⟩ := h
  refine ⟨token, claims, ht, ?_, hp⟩
  cases hv with
  | oidc ho h hc => exact .oidc ho (hsub h) hc
  | localAuth hs h => exact .localAuth (hsub hs) (hsub h)

section Actions

variable {handler : Handler} {raw params : List String} {principal : Principal}
  {action : AuthzAction} {key : String}

theorem actionForRequest_permission (h : actionForRequest key request.method request.path =
    some action) : action.permission = key := by
  unfold actionForRequest at h
  split at h
  · cases h
    rfl
  · obtain ⟨id, -, rfl⟩ := Option.map_eq_some_iff.mp h
    rfl

variable {id : String}

theorem actionForRequest_controllerId
    (h : actionForRequest key request.method request.path = some action)
    (hid : encodedControllerId request.path = some id) :
    action.controllerId.isSome = true ∧ decodedControllerId id = action.controllerId := by
  unfold actionForRequest at h
  simp only [hid] at h
  obtain ⟨decoded, hd, rfl⟩ := Option.map_eq_some_iff.mp h
  exact ⟨rfl, hd⟩

/-- Both sides decode the id of the path alike. -/
theorem actsOn_of_decodedControllerId {decoded : String} (hn : handler.namesController = true)
    (hp : [id].mapM percentDecodeStr = some params) (hd : decodedControllerId id = some decoded) :
    handler.actsOn params = some decoded := by
  obtain ⟨text, ht, hnew⟩ := Option.bind_eq_some_iff.mp hd
  obtain rfl : [text] = params := by simpa [ht] using hp
  obtain ⟨identifier, hi, rfl⟩ := Option.map_eq_some_iff.mp hnew
  rw [Fallible.toOption_eq_some] at hi
  cases handler with
  | reloadController => exact congrArg some (value_of_new hi).symm
  | deleteAdminController => simp [Handler.actsOn, hi, Except.toOption]
  | _ => cases hn

theorem mediated_of_mapped (hr : Routed handler request.method request.path raw)
    (hparams : raw.mapM percentDecodeStr = some params)
    (hkey : Catalog.routePermission request.method request.path = some key)
    (haction : actionForRequest key request.method request.path = some action)
    (ha : Authenticated auth request log principal) (hallowed : Allowed log principal action)
    (hcred : needsCredentials request = true → Allowed log principal credentialAction) :
    Mediated auth request handler params log principal action := by
  have hperm : action.permission = handler.permission request.method := by
    rw [actionForRequest_permission haction, ← hr.permission, hkey, Option.getD_some]
  refine ⟨ha, hallowed, hperm, fun hm => ?_, fun hn => ?_, fun hw => ?_, fun hnone => ?_⟩
  · rw [hperm]
    exact hr.write hm
  · obtain ⟨id, rfl, hid⟩ := hr.target hn
    obtain ⟨hsome, hdecoded⟩ := actionForRequest_controllerId haction hid
    obtain ⟨decoded, hd⟩ := Option.isSome_iff_exists.mp hsome
    exact ⟨decoded, hd, actsOn_of_decodedControllerId hn hparams (hdecoded.trans hd)⟩
  · refine ⟨credentialAction, rfl, hcred ?_⟩
    obtain ⟨hm, hunder⟩ := hr.account hw
    rcases hm with hm | hm <;> simp only [needsCredentials, hm, hunder] <;> rfl
  · rw [hkey] at hnone
    cases hnone

theorem mediated_of_unmapped (hr : Routed handler request.method request.path raw)
    (hkey : Catalog.routePermission request.method request.path = none)
    (ha : Authenticated auth request log principal)
    (hallowed : Allowed log principal (unmappedAction request)) :
    Mediated auth request handler params log principal (unmappedAction request) := by
  have hperm : unmappedBusinessRoute = handler.permission request.method := by
    rw [← hr.permission, hkey, Option.getD_none]
  -- The handlers with more to show have rules for all their methods.
  refine ⟨ha, hallowed, hperm, fun hm => ?_, fun hn => ?_, fun hw => ?_, fun _ => rfl⟩
  · rw [show (unmappedAction request).permission = _ from hperm]
    exact hr.write hm
  · cases handler with
    | reloadController | deleteAdminController =>
      have hne : unmappedBusinessRoute ≠ Catalog.controllersWrite := by decide
      exact absurd hperm hne
    | _ => cases hn
  · cases handler with
    | providerAccountsCreate | providerAccountsReplace =>
      have hne : unmappedBusinessRoute ≠ Catalog.providerAccountsWrite := by decide
      exact absurd hperm hne
    | _ => cases hw

end Actions

section Layers

variable {mounts : List Mount} {principal : Principal}

theorem mediates_reportPermissions {next : Option (List String) → GateRun HttpResponse}
    (h : ∀ log' permissions, log ⊆ log' → Mediates auth request (next permissions) log') :
    Mediates auth request (reportPermissions next request principal) log := by
  unfold reportPermissions
  split
  · refine mediates_ask trivial fun reply => ?_
    have hsub := List.subset_append_left log
    rcases reply with error | allowed | allowed
    · exact mediates_pure
    · exact h _ _ (hsub _)
    · exact h _ _ (hsub _)
  · exact h _ _ (List.Subset.refl _)

theorem mediates_enforce (hmounts : Composed mounts) (ha : Authenticated auth request log principal) :
    Mediates auth request (enforce (serve mounts request) request principal) log := by
  unfold enforce
  split
  · rename_i key hkey
    split
    · exact mediates_pure
    · rename_i action haction
      refine mediates_authorized fun log₁ h₁ hallowed => ?_
      split
      · refine mediates_authorized fun log₂ h₂ hcred => ?_
        refine mediates_serve hmounts fun handler raw params hr _ hparams => ⟨principal, action, ?_⟩
        exact mediated_of_mapped hr hparams hkey haction (ha.mono fun _ h => h₂ (h₁ h))
          (hallowed.mono h₂) fun _ => hcred
      · rename_i hneeds
        refine mediates_serve hmounts fun handler raw params hr _ hparams => ⟨principal, action, ?_⟩
        exact mediated_of_mapped hr hparams hkey haction (ha.mono h₁) hallowed
          fun hn => absurd hn hneeds
  · rename_i hkey
    split
    · refine mediates_authorized fun log₁ h₁ hallowed => ?_
      refine mediates_reportPermissions fun log₂ permissions h₂ => ?_
      refine mediates_serve hmounts fun handler raw params hr _ _ =>
        ⟨principal, unmappedAction request, ?_⟩
      exact mediated_of_unmapped hr hkey (ha.mono fun _ h => h₂ (h₁ h)) (hallowed.mono h₂)
    · rename_i hbusiness
      refine mediates_reportPermissions fun log₂ permissions h₂ => ?_
      refine mediates_serve hmounts fun handler raw params hr hinfo _ => ?_
      exact absurd (hr.isBusinessPath hinfo) hbusiness

/-- A request without claims reaches no business handler but the server's description. -/
theorem mediates_exempt (hmounts : Composed mounts) (h : Exempt request.path) :
    Mediates auth request (authzMiddleware (serve mounts request) request none) log := by
  refine mediates_serve hmounts fun handler raw params hr hinfo _ => ?_
  obtain ⟨s, rest, hs, ha, hi⟩ := hr.business hinfo
  exact absurd h (not_exempt_of_segments hs ha hi)

theorem mediates_authz {claims : UnifiedAuthClaims} {token : String} (hmounts : Composed mounts)
    (ht : request.token = some token) (hv : Validated auth log token claims) :
    Mediates auth request (authzMiddleware (serve mounts request) request (some claims)) log := by
  unfold authzMiddleware
  split
  · rename_i hnone
    cases hnone
  · rename_i claims' hsome
    cases hsome
    split
    · exact mediates_pure
    · rename_i principal hp
      exact mediates_enforce hmounts ⟨token, claims, ht, hv, hp⟩

section Providers

variable {next : Option UnifiedAuthClaims → GateRun HttpResponse} {snapshot : Option String}
  {token : String}
  (hs : ∀ secret, snapshot = some secret → (⟨.loadLocal, some secret⟩ : Sigma GateCall.Reply) ∈ log)
  (h : ∀ log' claims, Validated auth log' token claims →
    Mediates auth request (next (some claims)) log')
include hs h

theorem mediates_tryLocal : Mediates auth request (tryLocal next snapshot token) log := by
  unfold tryLocal
  split
  · exact mediates_pure
  · rename_i secret
    refine mediates_ask trivial fun reply => ?_
    cases reply with
    | error e => exact mediates_pure
    | ok decoded =>
      refine h _ _ (.localAuth (List.mem_append_left _ (hs secret rfl)) ?_)
      exact List.mem_append_right _ (by simp)

theorem mediates_tryProviders :
    Mediates auth request (tryProviders next auth.oidc snapshot token) log := by
  unfold tryProviders
  split
  · exact mediates_tryLocal hs h
  · rename_i groupsClaim hoidc
    refine mediates_ask trivial fun reply => ?_
    have hlocal : Mediates auth request (tryLocal next snapshot token)
        (log ++ [⟨.validateOidc token, reply⟩]) :=
      mediates_tryLocal (fun secret hsecret => List.mem_append_left _ (hs secret hsecret)) h
    cases hclaims : reply >>= oidcClaims groupsClaim with
    | error e => simpa [hclaims] using hlocal
    | ok claims =>
      obtain ⟨accepted, rfl, hc⟩ := Fallible.bind_eq_ok.mp hclaims
      have hnext := h (log ++ [⟨.validateOidc token, .ok accepted⟩]) claims
        (.oidc hoidc (List.mem_append_right _ (by simp)) hc)
      simpa [hc] using hnext

end Providers

theorem mediates_unifiedAuth {passwordAuth : Bool} {oidc localAuth : Option ProviderConfig}
    (hmounts : Composed mounts)
    (hauth : UnifiedAuthState.fromConfigs passwordAuth oidc localAuth = .ok auth)
    (hbypass : request.authBypass = false) : Mediates auth request
      (unifiedAuthMiddleware (authzMiddleware (serve mounts request) request) auth request) [] := by
  unfold unifiedAuthMiddleware
  split
  · rename_i hskip
    exact mediates_exempt hmounts (exempt_of_fromConfigs hauth hskip)
  split
  · rename_i hpublic
    exact mediates_exempt hmounts (exempt_of_mem_publicAuthEndpoints hpublic)
  rw [if_neg (by simp [hbypass])]
  refine mediates_ask trivial fun snapshot => ?_
  by_cases hinit : auth.oidc.isNone ∧ snapshot.isNone
  · rw [if_pos hinit]
    exact mediates_pure
  rw [if_neg hinit]
  cases ht : request.token with
  | none => exact mediates_pure
  | some token =>
    refine mediates_tryProviders (fun secret hs => ?_) fun log claims hv => ?_
    · exact List.mem_append_right _ (by simp [hs])
    · exact mediates_authz hmounts ht hv

end Layers

/-- Complete mediation: a business handler other than the server's description runs only for a
request that was authenticated and whose action the authorizer allowed. -/
theorem admin_api_mediated {state : ApiState} {intent : Bool}
    {oidc localAuth : Option ProviderConfig} {auth : UnifiedAuthState} {request : AdminRequest}
    (hauth : UnifiedAuthState.fromConfigs state.passwordAuth oidc localAuth = .ok auth)
    (hbypass : request.authBypass = false) {handler : Handler} {params : List String}
    {permissions : Option (List String)} {next : HttpResponse → GateRun HttpResponse}
    {log : GateLog} (hrun : Reaches (Monitor.history fun _ _ => True)
      (composeAdminRoutes (router state) state.passwordAuth intent auth request) []
      (call (.handle handler params permissions) next) log) (hinfo : handler ≠ .serverInfo)
    (hbusiness : handler.isAuth = false) :
    ∃ principal action, Mediated auth request handler params log principal action := by
  have hall : Mediates auth request
      (composeAdminRoutes (router state) state.passwordAuth intent auth request) [] :=
    mediates_unifiedAuth composed_router hauth hbypass
  exact Holds.of_call hall (reaches_history hrun) hinfo hbusiness

section Example

def bareState : ApiState where
  capabilities := ⟨false, false, false, false, false, false, false, false, false, false, false,
    false, false⟩
  cloudflareDnsAdmin := false
  cloudflareDnsWriteAdmin := false
  route53DnsAdmin := false
  route53DnsWriteAdmin := false
  route53ZoneLifecycleAdmin := false
  providerAccountStore := false
  capabilitySnapshotStore := false
  credentialInspectionService := false
  passwordAuth := true

def reloadEdge : AdminRequest where
  method := .post
  path := "/api/v1/controllers/edge~1/reload"
  header name := if name = "authorization" then some "Bearer token" else none
  authBypass := false

/-- The local provider is installed after the start. -/
def localState : UnifiedAuthState :=
  ⟨none, publicProbePaths ++ publicDiscoveryEndpoints ++ [] ++ []⟩

def reloadLog : GateLog :=
  [⟨.loadLocal, some "secret"⟩, ⟨.decodeLocal "secret" "token", .ok ⟨"alice", 0, 1⟩⟩,
   ⟨.authorize ⟨"alice", "local", none, []⟩
     (requestAction Catalog.controllersWrite .post reloadEdge.path (some "edge/1")),
     .ok ⟨true, none⟩⟩]

theorem reload_reaches : Reaches (Monitor.history fun _ _ => True)
    (composeAdminRoutes (router bareState) true false localState reloadEdge) []
    (call (.handle .reloadController ["edge~1"] (some [Catalog.controllersWrite])) ret)
    reloadLog := by
  refine .step (r := some "secret") trivial ?_
  refine .step (r := .ok ⟨"alice", 0, 1⟩) trivial ?_
  refine .step (r := .ok ⟨true, none⟩) trivial ?_
  exact .refl

/-- A reload of the controller `edge/1`. -/
theorem reload_mediated : ∃ principal action,
    Mediated localState reloadEdge .reloadController ["edge~1"] reloadLog principal action := by
  have hauth : UnifiedAuthState.fromConfigs bareState.passwordAuth none none = .ok localState := rfl
  exact admin_api_mediated hauth rfl reload_reaches (by decide) rfl

end Example

end Mediation

end EdgionCenter
