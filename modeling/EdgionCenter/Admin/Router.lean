import EdgionCenter.Admin.Catalog
import EdgionCenter.Directory.Controller

/-! The routes of the admin API. -/
namespace EdgionCenter

open Catalog

inductive Handler
  | serverInfo
  | listControllers
  | listClusters
  | reloadController
  | listRegionRouteOverrides
  | regionRouteFailover
  | regionRouteOverrideSync
  | proxyHandler
  | listAdminControllers
  | deleteAdminController
  | globalResourcesCatalog
  | globalResourcesList
  | globalResourcesDetail
  | listUsers
  | createUser
  | updateUser
  | deleteUser
  | listRoles
  | createRole
  | deleteRole
  | setRolePermissions
  | permissionCatalog
  | auditList
  | cloudflareListZones
  | cloudflareGetZone
  | cloudflareListRecordSets
  | cloudflareGetRecordSet
  | cloudflareCreateZone
  | cloudflareDeleteZone
  | cloudflarePutRecordSet
  | cloudflareDeleteRecordSet
  | cloudflarePutRemoteRecordSet
  | route53ListZones
  | route53GetZone
  | route53ListRecordSets
  | route53GetRecordSet
  | route53PutRecordSet
  | route53DeleteRecordSet
  | route53ApplyChangeBatch
  | route53GetChange
  | route53CreateZone
  | route53ObserveZoneLifecycle
  | route53DeleteZone
  | providerAccountsList
  | providerAccountsCreate
  | providerAccountsGet
  | providerAccountsReplace
  | providerCapabilitiesGet
  | providerCredentialInspectionsRefresh
  | login
  | logout
  | me
  | status
  deriving DecidableEq

/-- The endpoints that `compose_admin_routes` adds. -/
def Handler.isAuth : Handler → Bool
  | login | logout | me | status => true
  | _ => false

/-- Which methods a route serves; `axum::routing::get` serves HEAD as well. -/
inductive MethodFilter
  | get
  | post
  | put
  | patch
  | delete
  | any
  deriving DecidableEq

def MethodFilter.accepts : MethodFilter → Method → Bool
  | get, m => m.isRead
  | post, m => m = .post
  | put, m => m = .put
  | patch, m => m = .patch
  | delete, m => m = .delete
  | any, _ => true

structure Mount where
  path : List PathPart
  methods : MethodFilter
  handler : Handler
  deriving DecidableEq

/-- `CenterCapabilities`, the flags that routes depend on. -/
structure CenterCapabilities where
  globalResourcesInventory : Bool
  userAdmin : Bool
  roleAdmin : Bool
  auditQuery : Bool
  controllerHistory : Bool
  cloudflareDnsRead : Bool
  cloudflareDnsWrite : Bool
  route53DnsRead : Bool
  route53DnsWrite : Bool
  route53ZoneLifecycle : Bool
  providerAccountAdmin : Bool
  providerCapabilityRead : Bool
  providerCredentialInspection : Bool

/-- The capabilities, which services are composed, and whether the build has password logins. -/
structure ApiState where
  capabilities : CenterCapabilities
  cloudflareDnsAdmin : Bool
  cloudflareDnsWriteAdmin : Bool
  route53DnsAdmin : Bool
  route53DnsWriteAdmin : Bool
  route53ZoneLifecycleAdmin : Bool
  providerAccountStore : Bool
  capabilitySnapshotStore : Bool
  credentialInspectionService : Bool
  passwordAuth : Bool

section Routes

open PathPart MethodFilter Handler

def apiPath (parts : List PathPart) : List PathPart := .literal "api" :: .literal "v1" :: parts

def centerPath (parts : List PathPart) : List PathPart := apiPath (.literal "center" :: parts)

def baseRoutes : List Mount :=
  [⟨apiPath [.literal "server-info"], .get, serverInfo⟩,
   ⟨apiPath [.literal "controllers"], .get, listControllers⟩,
   ⟨apiPath [.literal "clusters"], .get, listClusters⟩,
   ⟨apiPath [.literal "controllers", .param "id", .literal "reload"], .post, reloadController⟩,
   ⟨centerPath [.literal "region-route-overrides"], .get, listRegionRouteOverrides⟩,
   ⟨centerPath [.literal "region-route-overrides", .literal "failover"], .post,
     regionRouteFailover⟩,
   ⟨centerPath [.literal "region-route-overrides", .literal "sync"], .post,
     regionRouteOverrideSync⟩,
   ⟨apiPath [.literal "proxy", .param "controller_id", .rest "rest"], .any, proxyHandler⟩]

def historyRoutes : List Mount :=
  [⟨centerPath [.literal "admin", .literal "controllers"], .get, listAdminControllers⟩,
   ⟨centerPath [.literal "admin", .literal "controllers", .param "id"], .delete,
     deleteAdminController⟩]

def globalResourceRoutes : List Mount :=
  [⟨centerPath [.literal "global-resources", .literal "catalog"], .get,
     globalResourcesCatalog⟩,
   ⟨centerPath [.literal "global-resources", .literal "resources", .param "kind"], .get,
     globalResourcesList⟩,
   ⟨centerPath [.literal "global-resources", .literal "resources", .param "kind",
     .param "namespace", .param "name"], .get, globalResourcesDetail⟩]

def userRoutes : List Mount :=
  [⟨centerPath [.literal "admin", .literal "users"], .get, listUsers⟩,
   ⟨centerPath [.literal "admin", .literal "users"], .post, createUser⟩,
   ⟨centerPath [.literal "admin", .literal "users", .param "id"], .patch, updateUser⟩,
   ⟨centerPath [.literal "admin", .literal "users", .param "id"], .delete, deleteUser⟩]

def roleRoutes : List Mount :=
  [⟨centerPath [.literal "admin", .literal "roles"], .get, listRoles⟩,
   ⟨centerPath [.literal "admin", .literal "roles"], .post, createRole⟩,
   ⟨centerPath [.literal "admin", .literal "roles", .param "id"], .delete, deleteRole⟩,
   ⟨centerPath [.literal "admin", .literal "roles", .param "id", .literal "permissions"], .put,
     setRolePermissions⟩,
   ⟨centerPath [.literal "admin", .literal "permission-catalog"], .get, permissionCatalog⟩]

def auditRoutes : List Mount :=
  [⟨centerPath [.literal "admin", .literal "audit-logs"], .get, auditList⟩]

def cloudflareZones (parts : List PathPart) : List PathPart :=
  centerPath (.literal "cloudflare" :: .literal "dns" :: .literal "accounts" ::
    .param "account_id" :: .literal "zones" :: parts)

def cloudflareReadRoutes : List Mount :=
  [⟨cloudflareZones [], .get, cloudflareListZones⟩,
   ⟨cloudflareZones [.param "zone_id"], .get, cloudflareGetZone⟩,
   ⟨cloudflareZones [.param "zone_id", .literal "record-sets"], .get, cloudflareListRecordSets⟩,
   ⟨cloudflareZones [.param "zone_id", .literal "record-sets", .param "record_type"], .get,
     cloudflareGetRecordSet⟩]

def cloudflareWriteRoutes : List Mount :=
  [⟨cloudflareZones [], .post, cloudflareCreateZone⟩,
   ⟨cloudflareZones [.param "zone_id"], .delete, cloudflareDeleteZone⟩,
   ⟨cloudflareZones [.param "zone_id", .literal "record-sets", .param "record_type"], .put,
     cloudflarePutRecordSet⟩,
   ⟨cloudflareZones [.param "zone_id", .literal "record-sets", .param "record_type"], .delete,
     cloudflareDeleteRecordSet⟩,
   ⟨cloudflareZones [.param "zone_id", .literal "record-sets", .param "record_type",
     .literal "remote-control"], .put, cloudflarePutRemoteRecordSet⟩]

def hostedZones (parts : List PathPart) : List PathPart :=
  centerPath (.literal "aws" :: .literal "route53" :: .literal "accounts" :: .param "account_id" ::
    .literal "hosted-zones" :: parts)

def route53ReadRoutes : List Mount :=
  [⟨hostedZones [], .get, route53ListZones⟩,
   ⟨hostedZones [.param "zone_id"], .get, route53GetZone⟩,
   ⟨hostedZones [.param "zone_id", .literal "record-sets"], .get, route53ListRecordSets⟩,
   ⟨hostedZones [.param "zone_id", .literal "record-sets", .param "record_type"], .get,
     route53GetRecordSet⟩]

def route53WriteRoutes : List Mount :=
  [⟨hostedZones [.param "zone_id", .literal "record-sets", .param "record_type"], .put,
     route53PutRecordSet⟩,
   ⟨hostedZones [.param "zone_id", .literal "record-sets", .param "record_type"], .delete,
     route53DeleteRecordSet⟩,
   ⟨hostedZones [.param "zone_id", .literal "change-batches"], .post, route53ApplyChangeBatch⟩,
   ⟨hostedZones [.param "zone_id", .literal "changes", .param "receipt"], .get,
     route53GetChange⟩]

def route53LifecycleRoutes : List Mount :=
  [⟨hostedZones [], .post, route53CreateZone⟩,
   ⟨hostedZones [.param "zone_id", .literal "lifecycle"], .get, route53ObserveZoneLifecycle⟩,
   ⟨hostedZones [.param "zone_id", .literal "lifecycle"], .delete, route53DeleteZone⟩]

def providerAccountRoutes : List Mount :=
  [⟨centerPath [.literal "cloud", .literal "provider-accounts"], .get, providerAccountsList⟩,
   ⟨centerPath [.literal "cloud", .literal "provider-accounts"], .post, providerAccountsCreate⟩,
   ⟨centerPath [.literal "cloud", .literal "provider-accounts", .param "account_id"], .get,
     providerAccountsGet⟩,
   ⟨centerPath [.literal "cloud", .literal "provider-accounts", .param "account_id"], .put,
     providerAccountsReplace⟩]

def capabilityRoutes : List Mount :=
  [⟨centerPath [.literal "cloud", .literal "provider-capabilities", .literal "accounts",
     .param "account_id"], .get, providerCapabilitiesGet⟩]

def inspectionRoutes : List Mount :=
  [⟨centerPath [.literal "cloud", .literal "provider-credential-inspections", .literal "accounts",
     .param "account_id", .literal "refresh"], .post, providerCredentialInspectionsRefresh⟩]

/-- Routes that are mounted only with a capability. -/
def mountIf (mounted : Bool) (routes : List Mount) : List Mount := if mounted then routes else []

/-- The business routes. Every capability of a service needs the service to be composed. -/
def router (state : ApiState) : List Mount :=
  let capabilities := state.capabilities
  baseRoutes ++ mountIf capabilities.controllerHistory historyRoutes ++
    mountIf capabilities.globalResourcesInventory globalResourceRoutes ++
    mountIf (state.passwordAuth && capabilities.userAdmin) userRoutes ++
    mountIf capabilities.roleAdmin roleRoutes ++ mountIf capabilities.auditQuery auditRoutes ++
    mountIf (capabilities.cloudflareDnsRead && state.cloudflareDnsAdmin) cloudflareReadRoutes ++
    mountIf (capabilities.cloudflareDnsWrite && state.cloudflareDnsWriteAdmin)
      cloudflareWriteRoutes ++
    mountIf (capabilities.route53DnsRead && state.route53DnsAdmin) route53ReadRoutes ++
    mountIf (capabilities.route53DnsWrite && state.route53DnsWriteAdmin) route53WriteRoutes ++
    mountIf (capabilities.route53ZoneLifecycle && state.route53ZoneLifecycleAdmin)
      route53LifecycleRoutes ++
    mountIf (capabilities.providerAccountAdmin && state.providerAccountStore)
      providerAccountRoutes ++
    mountIf (capabilities.providerCapabilityRead && state.providerAccountStore &&
      state.capabilitySnapshotStore) capabilityRoutes ++
    mountIf (capabilities.providerCredentialInspection && state.credentialInspectionService)
      inspectionRoutes

/-- What `compose_admin_routes` mounts besides; the logins only where they are intended. -/
def authRoutes (passwordAuth localAuthIntent : Bool) : List Mount :=
  mountIf (passwordAuth && localAuthIntent)
    [⟨apiPath [.literal "auth", .literal "login"], .post, login⟩,
     ⟨apiPath [.literal "auth", .literal "logout"], .post, logout⟩] ++
  [⟨apiPath [.literal "auth", .literal "me"], .get, me⟩,
   ⟨apiPath [.literal "auth", .literal "status"], .get, status⟩]

end Routes

/-- The synthetic permission of business routes that no rule maps. -/
def unmappedBusinessRoute : String := "<unmapped-business-route>"

/-- The permission a handler needs, whatever the path that leads to it. The Route 53 rules list no
HEAD. -/
def Handler.permission : Handler → Method → String
  | serverInfo, _ => serverRead
  | listControllers, _ | listClusters, _ | listAdminControllers, _ => controllersRead
  | reloadController, _ | deleteAdminController, _ => controllersWrite
  | listRegionRouteOverrides, _ => regionRoutesRead
  | regionRouteFailover, _ | regionRouteOverrideSync, _ => regionRoutesWrite
  | proxyHandler, m => if m.isRead then proxyRead else proxyWrite
  | globalResourcesCatalog, _ | globalResourcesList, _ | globalResourcesDetail, _ =>
    globalResourcesRead
  | listUsers, _ | createUser, _ | updateUser, _ | deleteUser, _ => usersManage
  | listRoles, _ | createRole, _ | deleteRole, _ | setRolePermissions, _
  | permissionCatalog, _ => rolesManage
  | auditList, _ => auditRead
  | cloudflareListZones, _ | cloudflareGetZone, _ | cloudflareListRecordSets, _
  | cloudflareGetRecordSet, _ => cloudflareDnsRead
  | cloudflareCreateZone, _ | cloudflareDeleteZone, _ | cloudflarePutRecordSet, _
  | cloudflareDeleteRecordSet, _ => cloudflareDnsWrite
  | cloudflarePutRemoteRecordSet, _ => cloudflareDnsRemoteWrite
  | route53ListZones, m | route53GetZone, m | route53ListRecordSets, m | route53GetRecordSet, m
  | route53GetChange, m => if m = .head then unmappedBusinessRoute else route53DnsRead
  | route53PutRecordSet, _ | route53DeleteRecordSet, _ | route53ApplyChangeBatch, _ =>
    route53DnsWrite
  | route53CreateZone, _ | route53DeleteZone, _ => route53ZonesWrite
  | route53ObserveZoneLifecycle, m =>
    if m = .head then unmappedBusinessRoute else route53ZonesWrite
  | providerAccountsList, _ | providerAccountsGet, _ => providerAccountsRead
  | providerAccountsCreate, _ | providerAccountsReplace, _ => providerAccountsWrite
  | providerCapabilitiesGet, _ => providerCapabilitiesRead
  | providerCredentialInspectionsRefresh, _ => providerCredentialsInspect
  | login, _ | logout, _ | me, _ | status, _ => unmappedBusinessRoute

section Permission

/-- What holds of every method that a filter accepts. -/
def MethodFilter.Every : MethodFilter → (Method → Prop) → Prop
  | get, Q => Q .get ∧ Q .head
  | post, Q => Q .post
  | put, Q => Q .put
  | patch, Q => Q .patch
  | delete, Q => Q .delete
  | any, Q => ∀ m, Q m

theorem MethodFilter.every_of_accepts {methods : MethodFilter} {m : Method} {Q : Method → Prop}
    (h : methods.accepts m = true) (hQ : methods.Every Q) : Q m := by
  cases methods with
  | get =>
    have hm : m = .get ∨ m = .head := by simpa [accepts, Method.isRead] using h
    rcases hm with rfl | rfl
    · exact hQ.1
    · exact hQ.2
  | any => exact hQ m
  | post | put | patch | delete =>
    obtain rfl := of_decide_eq_true h
    exact hQ

/-- What holds of every request that a route serves: of its method, the raw values of the parameters
and the segments of its path. -/
def Mount.Every (mount : Mount) (Q : Method → List String → List String → Prop) : Prop :=
  mount.methods.Every fun m => EveryMatch mount.path fun raw ss => Q m raw ("" :: ss)

theorem Mount.every_of_match {mount : Mount} {m : Method} {path : String} {raw : List String}
    {Q : Method → List String → List String → Prop} (hm : mount.methods.accepts m = true)
    (hp : matchPath mount.path path = some raw) (h : mount.Every Q) : Q m raw (segments path) :=
  every_of_matchPath hp (MethodFilter.every_of_accepts hm h)

/-- All routes that can be mounted. -/
def allRoutes : List Mount :=
  baseRoutes ++ historyRoutes ++ globalResourceRoutes ++ userRoutes ++ roleRoutes ++ auditRoutes ++
    cloudflareReadRoutes ++ cloudflareWriteRoutes ++ route53ReadRoutes ++ route53WriteRoutes ++
    route53LifecycleRoutes ++ providerAccountRoutes ++ capabilityRoutes ++ inspectionRoutes

theorem router_subset {state : ApiState} : router state ⊆ allRoutes := by
  have hsub : ∀ mounted routes, mountIf mounted routes ⊆ routes := by
    intro mounted routes
    cases mounted with
    | false => exact List.nil_subset _
    | true => exact List.Subset.refl _
  have happend : ∀ {as as' bs bs' : List Mount}, as ⊆ as' → bs ⊆ bs' → as ++ bs ⊆ as' ++ bs' := by
    intro as as' bs bs' ha hb
    exact List.append_subset.mpr ⟨List.subset_append_of_subset_left _ ha,
      List.subset_append_of_subset_right _ hb⟩
  unfold router allRoutes
  repeat' apply happend
  · exact List.Subset.refl _
  all_goals apply hsub

end Permission

end EdgionCenter
