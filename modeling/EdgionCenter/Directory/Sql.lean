import EdgionCenter.Directory.Controller

/-! The SQL controller directory: the statements on the row of one controller, and the table that
holds the rows. `env` and `tag` are kept decoded, and `now` is the clock sample an operation starts
with. -/
namespace EdgionCenter

structure ControllerRow where
  cluster : String
  env : List String
  tag : List String
  online : Bool
  sessionId : Option String
  connectedReplica : Option String
  observedAtMs : Int
  lastSeenAt : Int
  createdAt : Int
  evicted : Bool
  deriving DecidableEq

/-- MySQL compares texts by the collation of the column, which the schema leaves to the server. -/
inductive Backend
  | sqlite
  | mysql (collate : String → String)

namespace Backend

/-- What a comparison of two texts looks at. -/
def key : Backend → String → String
  | .sqlite => id
  | .mysql collate => collate

/-- `session_id = ?`, which is unknown for a NULL. -/
def sessionIs (backend : Backend) (row : ControllerRow) (session : String) : Option Bool :=
  row.sessionId.map fun stored => backend.key stored == backend.key session

end Backend

/-- `OR` with an operand that is not NULL. -/
def sqlOr : Option Bool → Bool → Option Bool
  | _, true => some true
  | some b, false => some b
  | none, false => none

def registrationRow (registration : ControllerRegistration) (now : Int) : ControllerRow where
  cluster := registration.cluster
  env := registration.environments
  tag := registration.tags
  online := true
  sessionId := some registration.sessionId.value
  connectedReplica := registration.connectedReplica
  observedAtMs := registration.observedAtUnixMs
  lastSeenAt := now
  createdAt := now
  evicted := false

/-- The assignments of a registration to a row that exists. -/
def registeredRow (registration : ControllerRegistration) (now : Int) (row : ControllerRow) :
    ControllerRow :=
  { row with
    cluster := registration.cluster
    env := registration.environments
    tag := registration.tags
    online := true
    sessionId := some registration.sessionId.value
    connectedReplica := registration.connectedReplica
    evicted := false
    observedAtMs := registration.observedAtUnixMs
    lastSeenAt := now }

def staleRevision (id : ControllerId) : CoreError :=
  .adapter ("stale controller registration revision for " ++ id.value)

/-- The guarded upsert of SQLite, with the number of rows it affects. -/
def sqliteRegister (registration : ControllerRegistration) (now : Int) :
    Option ControllerRow → ControllerRow × Nat
  | none => (registrationRow registration now, 1)
  | some row =>
    if row.observedAtMs < registration.observedAtUnixMs then
      (registeredRow registration now row, 1)
    else (row, 0)

/-- The upsert of MySQL, which has no guard. -/
def mysqlRegister (registration : ControllerRegistration) (now : Int) :
    Option ControllerRow → ControllerRow × Nat
  | none => (registrationRow registration now, 1)
  | some row => (registeredRow registration now row, 2)

def projectControllerRegistration (backend : Backend) (registration : ControllerRegistration)
    (now : Int) (stored : Option ControllerRow) : CoreResult Unit × Option ControllerRow :=
  match backend with
  | .sqlite =>
    let (row, affected) := sqliteRegister registration now stored
    if affected = 0 then (.error (staleRevision registration.controllerId), some row)
    else (.ok (), some row)
  | .mysql _ =>
    -- The row is locked and its revision compared first; the transaction is dropped when stale.
    if stored.any fun row => registration.observedAtUnixMs ≤ row.observedAtMs then
      (.error (staleRevision registration.controllerId), stored)
    else
      let (row, affected) := mysqlRegister registration now stored
      if affected = 0 then (.error (staleRevision registration.controllerId), some row)
      else (.ok (), some row)

def tombstoneRow (session : String) (observedAtMs now : Int) : ControllerRow where
  cluster := ""
  env := []
  tag := []
  online := false
  sessionId := some session
  connectedReplica := none
  observedAtMs := observedAtMs
  lastSeenAt := now
  createdAt := now
  evicted := false

/-- `session_id = ? OR observed_at_ms < ?`. -/
def tombstoneGuard (backend : Backend) (session : String) (observedAtMs : Int)
    (row : ControllerRow) : Option Bool :=
  sqlOr (backend.sessionIs row session) (decide (row.observedAtMs < observedAtMs))

def sqliteTombstone (session : String) (observedAtMs now : Int) :
    Option ControllerRow → ControllerRow
  | none => tombstoneRow session observedAtMs now
  | some row =>
    if tombstoneGuard .sqlite session observedAtMs row = some true then
      { row with
        online := false
        sessionId := some session
        connectedReplica := none
        observedAtMs := max row.observedAtMs observedAtMs
        lastSeenAt := now }
    else row

/-- MySQL evaluates the assignments from left to right, each on the row the last one left. -/
def mysqlTombstone (collate : String → String) (session : String) (observedAtMs now : Int) :
    Option ControllerRow → ControllerRow
  | none => tombstoneRow session observedAtMs now
  | some row =>
    let hit := fun row : ControllerRow =>
      tombstoneGuard (.mysql collate) session observedAtMs row = some true
    let row := { row with online := if hit row then false else row.online }
    let row := { row with connectedReplica := if hit row then none else row.connectedReplica }
    let row := { row with lastSeenAt := if hit row then now else row.lastSeenAt }
    let row := { row with sessionId := if hit row then some session else row.sessionId }
    { row with observedAtMs := max row.observedAtMs observedAtMs }

def Backend.tombstone (backend : Backend) (session : String) (observedAtMs now : Int)
    (stored : Option ControllerRow) : ControllerRow :=
  match backend with
  | .sqlite => sqliteTombstone session observedAtMs now stored
  | .mysql collate => mysqlTombstone collate session observedAtMs now stored

/-- The offline mark reads back what its statement has left. -/
def tombstoneOutcome (id : ControllerId) (session : String) (observedAtMs : Int)
    (row : ControllerRow) : CoreResult Bool :=
  if row.evicted || observedAtMs < row.observedAtMs then .ok false
  else if row.observedAtMs = observedAtMs && row.sessionId == some session && !row.online then
    .ok true
  else .error (.adapter ("offline tombstone invariant failed for controller " ++ id.value))

def markSessionOffline (backend : Backend) (id : ControllerId) (session : String)
    (observedAtMs now : Int) (stored : Option ControllerRow) :
    CoreResult Bool × Option ControllerRow :=
  let row := backend.tombstone session observedAtMs now stored
  (tombstoneOutcome id session observedAtMs row, some row)

/-- Only the liveness of the current session is refreshed, never its revision. -/
def projectControllerRuntime (backend : Backend) (observation : ControllerRuntimeObservation) :
    Option ControllerRow → Bool × Option ControllerRow
  | none => (false, none)
  | some row =>
    if backend.sessionIs row observation.sessionId.value = some true ∧ row.online ∧
        row.evicted = false then
      (true, some { row with lastSeenAt := observation.observedAtUnixMs.tdiv 1000 })
    else (false, some row)

def evictController : Option ControllerRow → Bool × Option ControllerRow
  | none => (false, none)
  | some row =>
    if row.evicted = false then
      (true, some
        { row with evicted := true, online := false, sessionId := none, connectedReplica := none })
    else (false, some row)

/-- `i64::saturating_mul`. -/
def saturatingMul (a b : Int) : Int := max (-2 ^ 63) (min (2 ^ 63 - 1) (a * b))

/-- What `list` shows of the row of a controller, if anything. -/
def rowRecord (controllerId : String) (row : ControllerRow) :
    CoreResult (Option ControllerRecord) :=
  if row.evicted then .ok none
  else do
    let controllerId ← Identifier.new "controller" controllerId
    let currentSessionId ← shownSession row.online row.sessionId
    return some
      { controllerId := controllerId
        currentSessionId := currentSessionId
        cluster := row.cluster
        environments := row.env
        tags := row.tag
        connectedReplica := row.connectedReplica
        ownershipFence := none
        syncVersion := none
        watchServerId := none
        resourceCount := none
        resourceCountsByKind := none
        statsUpdatedUnixMs := none
        watchUpdatedUnixMs := none
        phase := if row.online then .online else .offline
        lastSeenUnixMs := saturatingMul row.lastSeenAt 1000 }

theorem online_of_rowRecord {controllerId : String} {row : ControllerRow}
    {record : ControllerRecord} {session : SessionId}
    (h : rowRecord controllerId row = .ok (some record)) (hs : record.ShowsOnline session) :
    row.online = true ∧ row.sessionId = some session.value := by
  unfold rowRecord at h
  by_cases hevicted : row.evicted = true
  · rw [if_pos hevicted] at h
    cases h
  · rw [if_neg hevicted] at h
    obtain ⟨id, -, h⟩ := bind_eq_ok_iff.mp h
    obtain ⟨current, hcurrent, h⟩ := bind_eq_ok_iff.mp h
    cases h
    obtain ⟨hphase, rfl⟩ := hs
    cases honline : row.online with
    | false => simp [honline] at hphase
    | true =>
      rw [honline] at hcurrent
      exact ⟨rfl, value_of_storedSession hcurrent⟩

/-- The operations of `SqlControllerDirectory` on the row of their controller. -/
def Backend.run (backend : Backend) (now : Int) :
    DirectoryOp → Option ControllerRow → CoreResult DirectoryReply × Option ControllerRow
  | .upsertRegistration registration, stored =>
    let (result, stored) := projectControllerRegistration backend registration now stored
    (result.map fun _ => .registered, stored)
  | .markOffline id session _ observedAt, stored =>
    let (result, stored) := markSessionOffline backend id session.value observedAt now stored
    (result.map fun marked => .offline (if marked then .marked else .notCurrent), stored)
  | .projectRuntime observation, stored =>
    let (changed, stored) := projectControllerRuntime backend observation stored
    (.ok (.projected changed), stored)
  | .evict _, stored =>
    let (removed, stored) := evictController stored
    (.ok (.evicted ⟨if removed then .evicted else .alreadyAbsent, none⟩), stored)

end EdgionCenter
