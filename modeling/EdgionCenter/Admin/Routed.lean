import EdgionCenter.Admin.Gate

/-! What the authorization rules make of the paths that lead to each handler. -/
namespace EdgionCenter

section Routed

variable {path : String}

theorem encodedControllerId_eq : encodedControllerId path =
    ((stripSegments ["", "api", "v1", "center", "admin", "controllers"] (segments path) <|>
      stripSegments ["", "api", "v1", "controllers"] (segments path)).bind List.head?).filter
        (· ≠ "") := by
  have hadmin : (stripStart path "/api/v1/center/admin/controllers/").map segments =
      stripSegments ["", "api", "v1", "center", "admin", "controllers"] (segments path) :=
    map_segments_stripStart rfl rfl
  have hlist : (stripStart path "/api/v1/controllers/").map segments =
      stripSegments ["", "api", "v1", "controllers"] (segments path) :=
    map_segments_stripStart rfl rfl
  rw [← hadmin, ← hlist, encodedControllerId]
  cases stripStart path "/api/v1/center/admin/controllers/" <;>
    cases stripStart path "/api/v1/controllers/" <;> rfl

def Handler.namesController : Handler → Bool
  | reloadController | deleteAdminController => true
  | _ => false

def Handler.writesAccount : Handler → Bool
  | providerAccountsCreate | providerAccountsReplace => true
  | _ => false

/-- What the authorization rules make of a request that a route serves. -/
structure Routed (handler : Handler) (m : Method) (path : String) (raw : List String) : Prop where
  permission :
    (Catalog.routePermission m path).getD unmappedBusinessRoute = handler.permission m
  business : handler ≠ .serverInfo → ∃ s rest, segments path = "" :: "api" :: "v1" :: s :: rest ∧
    s ≠ "auth" ∧ s ≠ "server-info"
  write : m.isRead = false → endsWith (handler.permission m) ":read" = false
  account : handler.writesAccount = true → (m = .post ∨ m = .put) ∧
    Catalog.underSegment path "/api/v1/center/cloud/provider-accounts" = true
  target : handler.namesController = true → ∃ id, raw = [id] ∧ encodedControllerId path = some id

open Catalog in
theorem every_routed : ∀ mount ∈ allRoutes, mount.Every fun m raw ss =>
    ∀ path, segments path = ss → Routed mount.handler m path raw := by
  simp only [allRoutes, baseRoutes, historyRoutes, globalResourceRoutes, userRoutes, roleRoutes,
    auditRoutes, cloudflareReadRoutes, cloudflareWriteRoutes, route53ReadRoutes,
    route53WriteRoutes, route53LifecycleRoutes, providerAccountRoutes, capabilityRoutes,
    inspectionRoutes, List.cons_append, List.nil_append, List.forall_mem_cons, List.not_mem_nil,
    IsEmpty.forall_iff, implies_true, and_true, Mount.Every, MethodFilter.Every, EveryMatch,
    centerPath, apiPath, cloudflareZones, hostedZones]
  constructorm* _ ∧ _
  all_goals
    intros
    rename_i hs
    constructor
    · simp [routePermission, Handler.permission, stripSegments, isRemoteControl, route53Kind,
        isAccount, isRefresh, route53Permission, cloudflareDnsPermission,
        providerAccountsPermission, Method.isRead, *]
    · simp [hs]
    · first
        | decide
        | intro hm
          rw [Handler.permission, if_neg (by simp [hm])]
          decide
    · simp [Handler.writesAccount, hs]
    · simp [Handler.namesController, encodedControllerId_eq, stripSegments, *]

variable {m : Method} {raw : List String}

theorem routed_of_mem {mount : Mount} (h : mount ∈ allRoutes) (hm : mount.methods.accepts m = true)
    (hp : matchPath mount.path path = some raw) : Routed mount.handler m path raw :=
  Mount.every_of_match hm hp (every_routed mount h) path rfl

theorem Routed.isBusinessPath {handler : Handler} (h : Routed handler m path raw)
    (hh : handler ≠ .serverInfo) : Catalog.isBusinessPath path = true := by
  obtain ⟨s, rest, hs, ha, -⟩ := h.business hh
  have hauth : startsWith path "/api/v1/auth/" = false := by
    rw [Bool.eq_false_iff, ne_eq, Catalog.startsWith_auth_iff, hs]
    simp [Ne.symm ha]
  have hapi : startsWith path "/api/v1/" = true := by simp [hs]
  simp [Catalog.isBusinessPath, hapi, hauth]

end Routed

end EdgionCenter
