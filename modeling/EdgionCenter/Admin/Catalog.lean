import EdgionCenter.Admin.Path

/-! The permission keys, and which one a request needs. -/
namespace EdgionCenter

/-- `http::Method`. -/
inductive Method
  | options
  | get
  | post
  | put
  | delete
  | head
  | trace
  | connect
  | patch
  | extension (name : String)
  deriving DecidableEq

def Method.asStr : Method → String
  | options => "OPTIONS"
  | get => "GET"
  | post => "POST"
  | put => "PUT"
  | delete => "DELETE"
  | head => "HEAD"
  | trace => "TRACE"
  | connect => "CONNECT"
  | patch => "PATCH"
  | extension name => name

def Method.isRead (m : Method) : Bool := m = .get || m = .head

namespace Catalog

def controllersRead : String := "controllers:read"
def controllersWrite : String := "controllers:write"
def regionRoutesRead : String := "region-routes:read"
def regionRoutesWrite : String := "region-routes:write"
def globalResourcesRead : String := "global-resources:read"
def auditRead : String := "audit:read"
def serverRead : String := "server:read"
def proxyRead : String := "proxy:read"
def proxyWrite : String := "proxy:write"
def usersManage : String := "users:manage"
def rolesManage : String := "roles:manage"
def cloudflareDnsRead : String := "cloudflare-dns:read"
def cloudflareDnsWrite : String := "cloudflare-dns:write"
def cloudflareDnsRemoteWrite : String := "cloudflare-dns:remote-write"
def route53DnsRead : String := "route53-dns:read"
def route53DnsWrite : String := "route53-dns:write"
def route53ZonesWrite : String := "route53-zones:write"
def providerAccountsRead : String := "provider-accounts:read"
def providerAccountsWrite : String := "provider-accounts:write"
def providerCredentialsUse : String := "provider-credentials:use"
def providerCapabilitiesRead : String := "provider-capabilities:read"
def providerCredentialsInspect : String := "provider-credentials:inspect"

def allKeys : List String :=
  [controllersRead, controllersWrite, regionRoutesRead, regionRoutesWrite, globalResourcesRead,
    auditRead, serverRead, proxyRead, proxyWrite, usersManage, rolesManage, cloudflareDnsRead,
    cloudflareDnsWrite, cloudflareDnsRemoteWrite, route53DnsRead, route53DnsWrite,
    route53ZonesWrite, providerAccountsRead, providerAccountsWrite, providerCredentialsUse,
    providerCapabilitiesRead, providerCredentialsInspect]

def isBusinessPath (path : String) : Bool :=
  startsWith path "/api/v1/" && !startsWith path "/api/v1/auth/"

/-- At `base` or below it. -/
def underSegment (path base : String) : Bool := path = base || startsWith path (base ++ "/")

/-- Below an account. -/
def isRemoteControl : List String → Bool
  | [account, zones, zone, recordSets, recordType, remoteControl] =>
    [account, zones, zone, recordSets, recordType, remoteControl].all (· ≠ "") &&
      zones = "zones" && recordSets = "record-sets" && remoteControl = "remote-control"
  | _ => false

def isCloudflareRemoteControlPath (path : String) : Bool :=
  (stripStart path "/api/v1/center/cloudflare/dns/accounts/").elim false fun suffix =>
    isRemoteControl (segments suffix)

inductive Route53DnsRoute
  | zoneCollection
  | read
  | recordDetail
  | changeBatch
  | zoneLifecycle

/-- Below an account. -/
def route53Kind (suffix : List String) : Option Route53DnsRoute :=
  if suffix.any (· = "") then none
  else match suffix with
    | [_, "hosted-zones"] => some .zoneCollection
    | [_, "hosted-zones", _] => some .read
    | [_, "hosted-zones", _, "record-sets"] => some .read
    | [_, "hosted-zones", _, "changes", _] => some .read
    | [_, "hosted-zones", _, "record-sets", _] => some .recordDetail
    | [_, "hosted-zones", _, "change-batches"] => some .changeBatch
    | [_, "hosted-zones", _, "lifecycle"] => some .zoneLifecycle
    | _ => none

def route53DnsRoute (path : String) : Option Route53DnsRoute :=
  (stripStart path "/api/v1/center/aws/route53/accounts/").bind fun suffix =>
    route53Kind (segments suffix)

def route53Permission : Route53DnsRoute → Method → Option String
  | .zoneCollection, .get => some route53DnsRead
  | .read, .get => some route53DnsRead
  | .zoneCollection, .post => some route53ZonesWrite
  | .recordDetail, .get => some route53DnsRead
  | .recordDetail, .put | .recordDetail, .delete => some route53DnsWrite
  | .changeBatch, .post => some route53DnsWrite
  | .zoneLifecycle, .get | .zoneLifecycle, .post | .zoneLifecycle, .delete =>
    some route53ZonesWrite
  | _, _ => none

/-- One segment below the accounts. -/
def isAccount : List String → Bool
  | [account] => account ≠ ""
  | _ => false

def isCapabilitiesPath (path : String) : Bool :=
  (stripStart path "/api/v1/center/cloud/provider-capabilities/accounts/").elim false fun suffix =>
    isAccount (segments suffix)

def isInspectionPath (path : String) : Bool :=
  (stripStart path "/api/v1/center/cloud/provider-credential-inspections/accounts/").elim false
    fun suffix => (stripEnd suffix "/refresh").elim false fun account =>
      account ≠ "" && '/' ∉ account.toList

def cloudflareDnsPermission : Method → Option String
  | .get | .head => some cloudflareDnsRead
  | .post | .put | .patch | .delete => some cloudflareDnsWrite
  | _ => none

def providerAccountsPermission : Method → Option String
  | .get | .head => some providerAccountsRead
  | .post | .put => some providerAccountsWrite
  | _ => none

/-- The permission key that a request needs, by the first rule that its path meets. -/
def routePermission (m : Method) (path : String) : Option String :=
  if path = "/api/v1/center/global-resources/catalog" ∨
      underSegment path "/api/v1/center/global-resources/resources" then
    if m.isRead then some globalResourcesRead else none
  else if startsWith path "/api/v1/proxy/" then
    some (if m.isRead then proxyRead else proxyWrite)
  else if isCloudflareRemoteControlPath path then
    if m = .put then some cloudflareDnsRemoteWrite else none
  else if underSegment path "/api/v1/center/cloudflare/dns" then cloudflareDnsPermission m
  else match route53DnsRoute path with
  | some route => route53Permission route m
  | none =>
    if isCapabilitiesPath path then
      if m.isRead then some providerCapabilitiesRead else none
    else if isInspectionPath path then
      if m = .post then some providerCredentialsInspect else none
    else if underSegment path "/api/v1/center/cloud/provider-accounts" then
      providerAccountsPermission m
    else if path = "/api/v1/center/admin/audit-logs" then some auditRead
    else if path = "/api/v1/center/admin/controllers" ∨
        startsWith path "/api/v1/center/admin/controllers/" then
      some (if m.isRead then controllersRead else controllersWrite)
    else if underSegment path "/api/v1/center/admin/users" then some usersManage
    else if underSegment path "/api/v1/center/admin/roles" ∨
        path = "/api/v1/center/admin/permission-catalog" then
      some rolesManage
    else if underSegment path "/api/v1/center/region-route-overrides" then
      some (if m.isRead then regionRoutesRead else regionRoutesWrite)
    else if path = "/api/v1/server-info" then some serverRead
    else if path = "/api/v1/controllers" ∨ path = "/api/v1/clusters" then some controllersRead
    else if startsWith path "/api/v1/controllers/" then some controllersWrite
    else none

section Segments

variable {path literal : String} {ss : List String}

theorem eq_iff_segments (h : segments literal = ss) : path = literal ↔ segments path = ss := by
  rw [← h, segments_inj]

theorem underSegment_iff (h : segments literal = ss) :
    underSegment path literal = true ↔ ss <+: segments path := by
  rw [underSegment, Bool.or_eq_true, decide_eq_true_eq, startsWith_slash, eq_iff_segments h, h]
  constructor
  · rintro (he | hb)
    · exact he ▸ List.prefix_refl _
    · exact hb.1
  · intro hp
    rcases Nat.lt_or_ge ss.length (segments path).length with hl | hl
    · exact .inr ⟨hp, hl⟩
    · exact .inl (hp.eq_of_length_le hl).symm

theorem startsWith_iff {cs : List Char} (hslash : cs.getLast? = some '/')
    (h : (cs.dropLast.splitOn '/').map String.ofList = ss) :
    startsWith path (String.ofList cs) = true ↔
      ss <+: segments path ∧ ss.length < (segments path).length := by
  obtain ⟨base, hbase, rfl⟩ := exists_slash hslash h
  rw [hbase, startsWith_slash]

theorem elim_stripStart {cs : List Char} {f : List String → Bool}
    (hslash : cs.getLast? = some '/') (h : (cs.dropLast.splitOn '/').map String.ofList = ss) :
    ((stripStart path (String.ofList cs)).elim false fun suffix => f (segments suffix)) =
      (stripSegments ss (segments path)).elim false f := by
  rw [← map_segments_stripStart hslash h]
  cases stripStart path (String.ofList cs) <;> rfl

@[simp] theorem eq_catalog_iff : path = "/api/v1/center/global-resources/catalog" ↔
    segments path = ["", "api", "v1", "center", "global-resources", "catalog"] :=
  eq_iff_segments (segments_ofList _ rfl)

@[simp] theorem eq_audit_logs_iff : path = "/api/v1/center/admin/audit-logs" ↔
    segments path = ["", "api", "v1", "center", "admin", "audit-logs"] :=
  eq_iff_segments (segments_ofList _ rfl)

@[simp] theorem eq_admin_controllers_iff : path = "/api/v1/center/admin/controllers" ↔
    segments path = ["", "api", "v1", "center", "admin", "controllers"] :=
  eq_iff_segments (segments_ofList _ rfl)

@[simp] theorem eq_permission_catalog_iff : path = "/api/v1/center/admin/permission-catalog" ↔
    segments path = ["", "api", "v1", "center", "admin", "permission-catalog"] :=
  eq_iff_segments (segments_ofList _ rfl)

@[simp] theorem eq_server_info_iff : path = "/api/v1/server-info" ↔
    segments path = ["", "api", "v1", "server-info"] :=
  eq_iff_segments (segments_ofList _ rfl)

@[simp] theorem eq_controllers_iff : path = "/api/v1/controllers" ↔
    segments path = ["", "api", "v1", "controllers"] :=
  eq_iff_segments (segments_ofList _ rfl)

@[simp] theorem eq_clusters_iff : path = "/api/v1/clusters" ↔
    segments path = ["", "api", "v1", "clusters"] :=
  eq_iff_segments (segments_ofList _ rfl)

@[simp] theorem under_resources_iff :
    underSegment path "/api/v1/center/global-resources/resources" = true ↔
      ["", "api", "v1", "center", "global-resources", "resources"] <+: segments path :=
  underSegment_iff (segments_ofList _ rfl)

@[simp] theorem under_cloudflare_dns_iff :
    underSegment path "/api/v1/center/cloudflare/dns" = true ↔
      ["", "api", "v1", "center", "cloudflare", "dns"] <+: segments path :=
  underSegment_iff (segments_ofList _ rfl)

@[simp] theorem under_provider_accounts_iff :
    underSegment path "/api/v1/center/cloud/provider-accounts" = true ↔
      ["", "api", "v1", "center", "cloud", "provider-accounts"] <+: segments path :=
  underSegment_iff (segments_ofList _ rfl)

@[simp] theorem under_users_iff : underSegment path "/api/v1/center/admin/users" = true ↔
      ["", "api", "v1", "center", "admin", "users"] <+: segments path :=
  underSegment_iff (segments_ofList _ rfl)

@[simp] theorem under_roles_iff : underSegment path "/api/v1/center/admin/roles" = true ↔
      ["", "api", "v1", "center", "admin", "roles"] <+: segments path :=
  underSegment_iff (segments_ofList _ rfl)

@[simp] theorem under_region_route_overrides_iff :
    underSegment path "/api/v1/center/region-route-overrides" = true ↔
      ["", "api", "v1", "center", "region-route-overrides"] <+: segments path :=
  underSegment_iff (segments_ofList _ rfl)

@[simp] theorem startsWith_api_iff : startsWith path "/api/v1/" = true ↔
    ["", "api", "v1"] <+: segments path ∧ 3 < (segments path).length :=
  startsWith_iff rfl rfl

@[simp] theorem startsWith_auth_iff : startsWith path "/api/v1/auth/" = true ↔
    ["", "api", "v1", "auth"] <+: segments path ∧ 4 < (segments path).length :=
  startsWith_iff rfl rfl

@[simp] theorem startsWith_proxy_iff : startsWith path "/api/v1/proxy/" = true ↔
    ["", "api", "v1", "proxy"] <+: segments path ∧ 4 < (segments path).length :=
  startsWith_iff rfl rfl

@[simp] theorem startsWith_admin_controllers_iff :
    startsWith path "/api/v1/center/admin/controllers/" = true ↔
    ["", "api", "v1", "center", "admin", "controllers"] <+: segments path ∧
      6 < (segments path).length :=
  startsWith_iff rfl rfl

@[simp] theorem startsWith_controllers_iff : startsWith path "/api/v1/controllers/" = true ↔
    ["", "api", "v1", "controllers"] <+: segments path ∧ 4 < (segments path).length :=
  startsWith_iff rfl rfl

@[simp] theorem isCloudflareRemoteControlPath_eq : isCloudflareRemoteControlPath path =
    (stripSegments ["", "api", "v1", "center", "cloudflare", "dns", "accounts"]
      (segments path)).elim false isRemoteControl :=
  elim_stripStart rfl rfl

@[simp] theorem isCapabilitiesPath_eq : isCapabilitiesPath path =
    (stripSegments ["", "api", "v1", "center", "cloud", "provider-capabilities", "accounts"]
      (segments path)).elim false isAccount :=
  elim_stripStart rfl rfl

@[simp] theorem route53DnsRoute_eq : route53DnsRoute path =
    (stripSegments ["", "api", "v1", "center", "aws", "route53", "accounts"] (segments path)).bind
      route53Kind := by
  have hs : (stripStart path "/api/v1/center/aws/route53/accounts/").map segments =
      stripSegments ["", "api", "v1", "center", "aws", "route53", "accounts"] (segments path) :=
    map_segments_stripStart rfl rfl
  rw [← hs, Option.bind_map]
  rfl

/-- What is left of a path to refresh an inspection. -/
def isRefresh : List String → Bool
  | [account, "refresh"] => account ≠ ""
  | _ => false

theorem isRefresh_iff :
    isRefresh ss = true ↔ ∃ account, ss = [account, "refresh"] ∧ account ≠ "" := by
  constructor
  · intro h
    unfold isRefresh at h
    split at h
    · exact ⟨_, rfl, of_decide_eq_true h⟩
    · cases h
  · rintro ⟨account, rfl, h⟩
    exact decide_eq_true h

theorem elim_stripEnd {suffix : String} : ((stripEnd suffix "/refresh").elim false fun account =>
    account ≠ "" && '/' ∉ account.toList) = isRefresh (segments suffix) := by
  have hr : segments "refresh" = ["refresh"] := segments_ofList _ rfl
  have hsplit : ∀ account, stripEnd suffix "/refresh" = some account ↔
      segments suffix = segments account ++ ["refresh"] := by
    intro account
    rw [stripEnd_eq_some, ← hr, ← segments_append_slash, segments_inj, String.append_assoc]
    exact Iff.rfl
  rw [Bool.eq_iff_iff, isRefresh_iff]
  constructor
  · intro h
    cases hs : stripEnd suffix "/refresh" with
    | none => simp [hs] at h
    | some account =>
      simp only [hs, Option.elim_some, Bool.and_eq_true, decide_eq_true_eq] at h
      refine ⟨account, ?_, h.1⟩
      rw [(hsplit account).mp hs, segments_eq_singleton h.2]
      rfl
  · rintro ⟨account, hsegs, hne⟩
    have hslash : '/' ∉ account.toList := not_mem_of_mem_segments (by rw [hsegs]; simp)
    have hs : stripEnd suffix "/refresh" = some account := by
      rw [hsplit, hsegs, segments_eq_singleton hslash]
      rfl
    simp [hs, hne, hslash]

@[simp] theorem isInspectionPath_eq : isInspectionPath path =
    (stripSegments ["", "api", "v1", "center", "cloud", "provider-credential-inspections",
      "accounts"] (segments path)).elim false isRefresh := by
  simp only [isInspectionPath, elim_stripEnd]
  exact elim_stripStart rfl rfl

end Segments

end Catalog

end EdgionCenter
