import EdgionCenter.Cloud.Token
import EdgionCenter.Proxy.Forward
import EdgionCenter.Watch.ReadModel

/-! The listing of a resource kind over all controllers, served from the watch caches page by page,
and the detail of one resource. -/
namespace EdgionCenter

open Fallible JsonText Sorting

/-! ### The catalog -/

inductive GlobalResourceInventoryKind
  | httpRoute
  | grpcRoute
  | edgionPlugins
  | edgionConfigData
  | referenceGrant
  deriving DecidableEq

def GlobalResourceInventoryKind.asStr : GlobalResourceInventoryKind → String
  | .httpRoute => "HTTPRoute"
  | .grpcRoute => "GRPCRoute"
  | .edgionPlugins => "EdgionPlugins"
  | .edgionConfigData => "EdgionConfigData"
  | .referenceGrant => "ReferenceGrant"

inductive EdgionConfigDataType
  | keyList
  | ipList
  | requestAccessUrlAllowList
  | proxyProtocolTrust
  | wafRuleBundle
  | wafPolicy
  | selector
  | regionRouteOverride
  | misc
  deriving DecidableEq

structure GlobalResourceCatalogEntry where
  kind : GlobalResourceInventoryKind
  pathKind : String
  configDataTypes : List EdgionConfigDataType
  deriving DecidableEq

def globalResourceKinds : List GlobalResourceCatalogEntry :=
  [⟨.httpRoute, "httproute", []⟩,
    ⟨.grpcRoute, "grpcroute", []⟩,
    ⟨.edgionPlugins, "edgionplugins", []⟩,
    ⟨.edgionConfigData, "edgionconfigdata",
      [.keyList, .ipList, .requestAccessUrlAllowList, .proxyProtocolTrust, .wafRuleBundle,
        .wafPolicy, .selector, .regionRouteOverride, .misc]⟩,
    ⟨.referenceGrant, "referencegrant", []⟩]

structure ApiKind where
  kind : GlobalResourceInventoryKind
  slug : String
  deriving DecidableEq

def apiKinds : List ApiKind := [⟨.edgionConfigData, "edgion-config-data"⟩]

/-- What the catalog revision is taken of. -/
structure Catalog where
  kinds : List GlobalResourceCatalogEntry
  apiKinds : List ApiKind
  deriving DecidableEq

def catalogRevision [Sha256 Catalog] : String :=
  sha256Revision (⟨globalResourceKinds, apiKinds⟩ : Catalog)

def configDataKindSlug : String := "edgion-config-data"

/-- The watch has no configuration object of its own, and so no revision of one. -/
def watchConfigRevision : String := "watch-read-model"

/-! ### Requests -/

structure GlobalError where
  status : StatusCode
  code : String
  message : String
  deriving DecidableEq

def invalidRequest (code : String) : GlobalError := ⟨badRequest, code, "The request is invalid."⟩

def clusterNotFound : GlobalError :=
  ⟨statusNotFound, "cluster_not_found", "The requested cluster was not found."⟩

def globalResourceNotFound : GlobalError :=
  ⟨statusNotFound, "global_resource_not_found", "The requested global resource was not found."⟩

inductive ConfigDataFilter
  | keyList
  | ipList
  | requestAccessUrlAllowList
  | proxyProtocolTrust
  | wafRuleBundle
  | wafPolicy
  | selector
  | regionRouteOverride
  | misc
  | unknown
  deriving DecidableEq

def watchTypeFilter : ConfigDataFilter → String
  | .keyList => "KeyList"
  | .ipList => "IpList"
  | .requestAccessUrlAllowList => "RequestAccessUrlAllowList"
  | .proxyProtocolTrust => "ProxyProtocolTrust"
  | .wafRuleBundle => "WafRuleBundle"
  | .wafPolicy => "WafPolicy"
  | .selector => "Selector"
  | .regionRouteOverride => "RegionRouteOverride"
  | .misc => "Misc"
  | .unknown => "Unknown"

/-! ### Tokens -/

@[ext]
structure GroupKey where
  kind : String
  ns : String
  name : String

/-- The order that is derived from the fields. -/
def GroupKey.fields (key : GroupKey) : String ×ₗ String ×ₗ String :=
  toLex (key.kind, toLex (key.ns, key.name))

theorem GroupKey.fields_injective : Function.Injective GroupKey.fields := by
  rintro ⟨kind, ns, name⟩ ⟨kind', ns', name'⟩ h
  cases h
  rfl

instance GroupKey.linearOrder : LinearOrder GroupKey :=
  LinearOrder.lift' GroupKey.fields GroupKey.fields_injective

structure ContinueToken where
  catalogRevision : String
  configRevision : String
  kind : String
  queryRevision : String
  membershipRevision : String
  limit : Nat
  configDataType : Option ConfigDataFilter
  inventoryRevision : String
  after : GroupKey
  deriving DecidableEq

def ConfigDataFilter.json : Option ConfigDataFilter → List Char
  | none => "null".toList
  | some filter => string (watchTypeFilter filter).toList

def GroupKey.json (key : GroupKey) : List Char :=
  "\x7b\"kind\":".toList ++ string key.kind.toList ++
    ",\"namespace\":".toList ++ string key.ns.toList ++
    ",\"name\":".toList ++ string key.name.toList ++ ['\x7d']

def ContinueToken.json (token : ContinueToken) : List Char :=
  "\x7b\"catalogRevision\":".toList ++ string token.catalogRevision.toList ++
    ",\"configRevision\":".toList ++ string token.configRevision.toList ++
    ",\"kind\":".toList ++ string token.kind.toList ++
    ",\"queryRevision\":".toList ++ string token.queryRevision.toList ++
    ",\"membershipRevision\":".toList ++ string token.membershipRevision.toList ++
    ",\"limit\":".toList ++ number ',' token.limit ++
    "\"configDataType\":".toList ++ ConfigDataFilter.json token.configDataType ++
    ",\"inventoryRevision\":".toList ++ string token.inventoryRevision.toList ++
    ",\"after\":".toList ++ token.after.json ++ ['\x7d']

instance serializeContinueToken : Serialize ContinueToken := ⟨fun token => utf8 token.json⟩

def tokenStart : String := "gr1."

def maxTokenBytes : Nat := 4096

def encodeToken (token : ContinueToken) : String := tokenStart ++ base64 (Serialize.toVec token)

variable [Deserialize ContinueToken]

/-- `strip_prefix` of a token that is not too long. -/
def tokenBody (value : String) : Option String :=
  if utf8Len value.toList ≤ maxTokenBytes ∧ startsWith value tokenStart = true then
    some (String.ofList (value.toList.drop tokenStart.toList.length))
  else none

/-- A token must be exactly what it would be encoded to again. -/
def canonicalToken (value : String) (token : ContinueToken) : Option ContinueToken :=
  if encodeToken token = value then some token else none

def decodeToken (value : String) : Option ContinueToken := do
  let body ← tokenBody value
  let bytes ← decodeBase64 body
  let token ← (Deserialize.fromSlice bytes : Option ContinueToken)
  canonicalToken value token

def readToken (value : String) : Except GlobalError ContinueToken :=
  match decodeToken value with
  | some token => .ok token
  | none => .error (invalidRequest "invalid_continue_token")

def decodeContinue : Option String → Except GlobalError (Option ContinueToken)
  | none => .ok none
  | some value => some <$> readToken value

/-! ### Rows and groups -/

inductive WatchSyncState
  | ok
  | stale
  | overflowed
  deriving DecidableEq

/-- An overflow counts more than being stale. -/
def watchSyncState (status : CacheStatus) : WatchSyncState :=
  if status.overflowed then .overflowed else if status.stale then .stale else .ok

inductive ClusterResolutionState
  | available
  | offline
  | ambiguous
  | indeterminate
  deriving DecidableEq

def ClusterResolutionState.of (stale : Bool) : ClusterResolutionState :=
  if stale then .offline else .available

/-- The part of an id before its first slash. -/
def watchClusterOf (controllerId : String) : String :=
  ((splitOnce '/' controllerId).map Prod.fst).getD controllerId

/-- A row for one controller. The lists of candidates and errors are always empty. -/
structure ClusterResult where
  cluster : String
  state : ClusterResolutionState
  controllerId : String
  complete : Bool
  syncState : WatchSyncState
  freshnessUnixMs : Option Nat
  revision : Nat
  deriving DecidableEq

def ClusterResult.of (controllerId : String) (status : CacheStatus) : ClusterResult where
  cluster := watchClusterOf controllerId
  state := .of status.stale
  controllerId := controllerId
  complete := !status.stale && !status.overflowed
  syncState := watchSyncState status
  freshnessUnixMs := status.lastAppliedUnixMs
  revision := status.revision

structure ComparisonMember where
  cluster : String
  controllerId : String
  object : Value
  syncState : Option WatchSyncState
  freshnessUnixMs : Option Nat
  revision : Option Nat

structure ComparisonGroup where
  key : GroupKey
  members : List ComparisonMember

/-- What one request reads of the registry: the statuses, and then the contents of the caches, both
in any order. -/
structure WatchView where
  statuses : List (String × CacheStatus)
  caches : List (String × List (String × Value))

/-- No selection takes every cluster. -/
def InScope (clusters : List String) (controllerId : String) : Prop :=
  clusters = [] ∨ watchClusterOf controllerId ∈ clusters

instance decidableInScope (clusters : List String) : DecidablePred (InScope clusters) :=
  fun controllerId =>
    inferInstanceAs (Decidable (clusters = [] ∨ watchClusterOf controllerId ∈ clusters))

def scopedStatuses (clusters : List String) (statuses : List (String × CacheStatus)) :
    List (String × CacheStatus) :=
  sortOn Prod.fst (statuses.filter fun s => InScope clusters s.1)

def clusterRows (statuses : List (String × CacheStatus)) : List ClusterResult :=
  sortOn (fun row : ClusterResult => toLex (row.cluster, row.controllerId))
    (statuses.map fun s => .of s.1 s.2)

/-- A controller that came between the two reads has no status. -/
def comparisonMember (statuses : List (String × CacheStatus)) (entry : ConfigDataEntry) :
    ComparisonMember where
  cluster := watchClusterOf entry.controllerId
  controllerId := entry.controllerId
  object := entry.doc
  syncState := (statuses.lookup entry.controllerId).map watchSyncState
  freshnessUnixMs := (statuses.lookup entry.controllerId).bind (·.lastAppliedUnixMs)
  revision := (statuses.lookup entry.controllerId).map (·.revision)

def groupKey (entry : ConfigDataEntry) : GroupKey :=
  ⟨GlobalResourceInventoryKind.edgionConfigData.asStr, entry.ns, entry.name⟩

def comparisonGroup (statuses : List (String × CacheStatus))
    (group : GroupKey × List ConfigDataEntry) : ComparisonGroup where
  key := group.1
  members := sortOn (fun member : ComparisonMember => toLex (member.cluster, member.controllerId))
    (group.2.map (comparisonMember statuses))

def allGroups (clusters : List String) (statuses : List (String × CacheStatus))
    (entries : List ConfigDataEntry) : List ComparisonGroup :=
  (groupOn groupKey (entries.filter fun entry => InScope clusters entry.controllerId)).map
    (comparisonGroup statuses)

structure InventorySnapshot where
  clusters : List ClusterResult
  groups : List ComparisonGroup

/-- The inventory that a listing shows a page of. -/
def WatchView.inventory (view : WatchView) (filter : Option ConfigDataFilter)
    (clusters : List String) : InventorySnapshot where
  clusters := clusterRows (scopedStatuses clusters view.statuses)
  groups := allGroups clusters (scopedStatuses clusters view.statuses)
    (listAll (filter.map watchTypeFilter) view.caches)

structure MembershipRow where
  controllerId : String
  revision : Nat
  stale : Bool
  overflowed : Bool
  deriving DecidableEq

def membershipRows (statuses : List (String × CacheStatus)) : List MembershipRow :=
  sortOn (fun row : MembershipRow =>
      toLex (row.controllerId, toLex (row.revision, toLex (row.stale, row.overflowed))))
    (statuses.map fun s => ⟨s.1, s.2.revision, s.2.stale, s.2.overflowed⟩)

/-! ### The listing -/

structure ListResponse where
  catalogRevision : String
  configRevision : String
  membershipRevision : String
  inventoryRevision : String
  kind : GlobalResourceInventoryKind
  configDataType : Option ConfigDataFilter
  clusters : List ClusterResult
  groups : List ComparisonGroup
  continueToken : Option String

section Listing

variable [Sha256 Catalog] [Sha256 (List String)] [Sha256 (List MembershipRow)]
  [Sha256 InventorySnapshot] (view : WatchView) (filter : Option ConfigDataFilter)
  (clusters : List String) (limit : Nat)

/-- The token was made for the same request. -/
def ContinueToken.Asks (token : ContinueToken) : Prop :=
  token.catalogRevision = EdgionCenter.catalogRevision ∧
    token.configRevision = watchConfigRevision ∧ token.kind = configDataKindSlug ∧
    token.queryRevision = sha256Revision clusters ∧ token.limit = limit ∧
    token.configDataType = filter

instance ContinueToken.decidableAsks (token : ContinueToken) :
    Decidable (token.Asks filter clusters limit) := by
  unfold ContinueToken.Asks
  infer_instance

def WatchView.membershipRevision : String :=
  sha256Revision (membershipRows (scopedStatuses clusters view.statuses))

def WatchView.inventoryRevision : String := sha256Revision (view.inventory filter clusters)

/-- The token was made of the same inventory. -/
def ContinueToken.Shows (token : ContinueToken) : Prop :=
  token.membershipRevision = view.membershipRevision clusters ∧
    token.inventoryRevision = view.inventoryRevision filter clusters

instance ContinueToken.decidableShows (token : ContinueToken) :
    Decidable (token.Shows view filter clusters) := by
  unfold ContinueToken.Shows
  infer_instance

/-- Where a page starts. -/
def pageStart (groups : List ComparisonGroup) : Option ContinueToken → Nat
  | none => 0
  | some token => partitionPoint (fun group : ComparisonGroup => group.key ≤ token.after) groups

/-- The token for what is after a group. -/
def issueToken (after : GroupKey) : ContinueToken where
  catalogRevision := catalogRevision
  configRevision := watchConfigRevision
  kind := configDataKindSlug
  queryRevision := sha256Revision clusters
  membershipRevision := view.membershipRevision clusters
  limit := limit
  configDataType := filter
  inventoryRevision := view.inventoryRevision filter clusters
  after := after

/-- The token of a page that does not reach the end. -/
def nextPage (start : Nat) : Option String :=
  if start + limit < (view.inventory filter clusters).groups.length then
    ((view.inventory filter clusters).groups[start + limit - 1]?).map fun group =>
      encodeToken (issueToken view filter clusters limit group.key)
  else none

def listPage (start : Nat) : ListResponse where
  catalogRevision := catalogRevision
  configRevision := watchConfigRevision
  membershipRevision := view.membershipRevision clusters
  inventoryRevision := view.inventoryRevision filter clusters
  kind := .edgionConfigData
  configDataType := filter
  clusters := (view.inventory filter clusters).clusters
  groups := ((view.inventory filter clusters).groups.drop start).take limit
  continueToken := nextPage view filter clusters limit start

/-- Every cluster that was asked for has a controller. -/
def KnownClusters (statuses : List (String × CacheStatus)) : Prop :=
  ∀ requested ∈ clusters, requested ∈ statuses.map fun s => watchClusterOf s.1

instance decidableKnownClusters (statuses : List (String × CacheStatus)) :
    Decidable (KnownClusters clusters statuses) := by
  unfold KnownClusters
  infer_instance

def listConfigDataFromWatch (continueToken : Option String) : Except GlobalError ListResponse := do
  let token ← decodeContinue continueToken
  require (∀ t ∈ token, t.Asks filter clusters limit) (invalidRequest "stale_continue_token")
  require (KnownClusters clusters view.statuses) clusterNotFound
  require (∀ t ∈ token, t.Shows view filter clusters) (invalidRequest "stale_continue_token")
  return listPage view filter clusters limit
    (pageStart (view.inventory filter clusters).groups token)

end Listing

/-! ### The detail of one resource -/

structure DetailResponse where
  kind : GlobalResourceInventoryKind
  ns : String
  name : String
  cluster : String
  state : ClusterResolutionState
  controllerId : String
  complete : Bool
  object : Value

/-- The first row of the resource in a cluster. -/
def detailEntry (view : WatchView) (ns name cluster : String) :
    Except GlobalError ConfigDataEntry :=
  match (listAll none view.caches).find? fun entry =>
      entry.ns = ns ∧ entry.name = name ∧ watchClusterOf entry.controllerId = cluster with
  | some entry => .ok entry
  | none => .error globalResourceNotFound

def isStale (statuses : List (String × CacheStatus)) (controllerId : String) : Bool :=
  ((statuses.lookup controllerId).map (·.stale)).getD false

def detailConfigDataFromWatch (view : WatchView) (ns name cluster : String) :
    Except GlobalError DetailResponse := do
  require (cluster ∈ view.statuses.map fun s => watchClusterOf s.1) clusterNotFound
  let entry ← detailEntry view ns name cluster
  return {
    kind := .edgionConfigData
    ns, name, cluster
    state := .of (isStale view.statuses entry.controllerId)
    controllerId := entry.controllerId
    complete := !isStale view.statuses entry.controllerId
    object := entry.doc }

end EdgionCenter
