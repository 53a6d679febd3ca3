import EdgionCenter.Core
import EdgionCenter.Lib.Sorting
import EdgionCenter.Lib.Tasks
import Mathlib.Data.String.Basic

/-! Authorization by the roles of the SQL store, through a cache of permission sets, over all
interleavings of calls and changes of the database. -/
namespace EdgionCenter.Authz

open Function Interaction Tasks Transition

/-! ### One call -/

structure UserRow where
  id : Int
  username : String
  status : String
  deriving DecidableEq

/-- The tables `users`, `user_roles` and `role_permissions`. -/
structure Database where
  users : List UserRow
  userRoles : List (Int × Int)
  rolePermissions : List (Int × String)
  deriving DecidableEq

/-- The key of a permission that the user of a name has through some role. -/
def Database.Grants (db : Database) (username key : String) : Prop :=
  ∃ user ∈ db.users, user.username = username ∧ user.status = "active" ∧
    ∃ role, (user.id, role) ∈ db.userRoles ∧ (role, key) ∈ db.rolePermissions

def Database.permissionKeysForUser (db : Database) (username : String) : List String :=
  Sorting.sortDedup id <|
    (db.users.filter fun user => user.username = username ∧ user.status = "active").flatMap
      fun user => (db.userRoles.filter fun link => link.1 = user.id).flatMap
        fun link => (db.rolePermissions.filter fun grant => grant.1 = link.2).map Prod.snd

variable {key : String}

theorem mem_permissionKeysForUser {db : Database} {username : String} :
    key ∈ db.permissionKeysForUser username ↔ db.Grants username key := by
  simp only [Database.permissionKeysForUser, Sorting.mem_sortDedup, List.mem_flatMap, List.mem_filter,
    List.mem_map, decide_eq_true_eq, Prod.exists, Database.Grants]
  constructor
  · rintro ⟨user, ⟨huser, hname, hactive⟩, _, _, ⟨hlink, rfl⟩, role, _, ⟨hgrant, rfl⟩, rfl⟩
    exact ⟨user, huser, hname, hactive, role, hlink, hgrant⟩
  · rintro ⟨user, huser, hname, hactive, role, hlink, hgrant⟩
    exact ⟨user, ⟨huser, hname, hactive⟩, user.id, role, ⟨hlink, rfl⟩, role, key, ⟨hgrant, rfl⟩, rfl⟩

/-- What a call asks for: the clock, the entry of a subject in the cache, the database, and the lock
of the cache to put an entry into it. -/
inductive AuthzCall
  | now
  | cached (subject : String)
  | permissionKeys (subject : String)
  | insert (subject : String) (recordedAt : Nat) (permissions : List String)

@[reducible] def AuthzCall.Reply : AuthzCall → Type
  | now => Nat
  | cached _ => Option (Nat × List String)
  | permissionKeys _ => Except String (List String)
  | insert .. => Unit

abbrev AuthzRun := Interaction AuthzCall AuthzCall.Reply

namespace AuthzRun

def now : AuthzRun Nat := ask AuthzCall.now
def cached (subject : String) : AuthzRun (Option (Nat × List String)) :=
  ask (AuthzCall.cached subject)
def permissionKeys (subject : String) : AuthzRun (Except String (List String)) :=
  ask (AuthzCall.permissionKeys subject)
def insert (subject : String) (recordedAt : Nat) (permissions : List String) : AuthzRun Unit :=
  ask (AuthzCall.insert subject recordedAt permissions)

end AuthzRun

/-- The time that an entry of the cache may be used for, in nanoseconds. -/
structure SqlAuthorizer where
  cacheTtl : Nat

namespace SqlAuthorizer

variable (authorizer : SqlAuthorizer)

/-- The permissions of an entry; `duration_since` is zero for one that was recorded later. -/
def reusable (now : Nat) : Option (Nat × List String) → Option (List String)
  | some (recordedAt, permissions) =>
    if now - recordedAt < authorizer.cacheTtl then some permissions else none
  | none => none

/-- The entry keeps the time before the query. -/
def record (subject : String) (now : Nat) :
    Except String (List String) → AuthzRun (CoreResult (List String))
  | .error e => return .error (.adapter e)
  | .ok permissions => do
    AuthzRun.insert subject now permissions
    return .ok permissions

def permissionsOr (subject : String) (now : Nat) :
    Option (List String) → AuthzRun (CoreResult (List String))
  | some permissions => return .ok permissions
  | none => do
    let keys ← AuthzRun.permissionKeys subject
    record subject now keys

def permissions (subject : String) : AuthzRun (CoreResult (List String)) := do
  let now ← AuthzRun.now
  let entry ← AuthzRun.cached subject
  permissionsOr subject now (authorizer.reusable now entry)

def decide (action : Action) (permissions : List String) : Decision :=
  if action.permission ∈ permissions then .allow
  else .deny ("missing permission " ++ action.permission)

def authorize (principal : Principal) (action : Action) : AuthzRun (CoreResult Decision) := do
  let permissions ← authorizer.permissions principal.subject
  return permissions.map (decide action)

def grantedPermissions (principal : Principal) (candidates : List String) :
    AuthzRun (CoreResult (Option (List String))) := do
  let permissions ← authorizer.permissions principal.subject
  return permissions.map fun keys => some (candidates.filter (· ∈ keys))

end SqlAuthorizer

/-- The two methods that use the cache. -/
inductive Request
  | authorize (principal : Principal) (action : Action)
  | grantedPermissions (principal : Principal) (candidates : List String)

inductive Answer
  | decision (decision : Decision)
  | permissions (granted : Option (List String))

def Request.subject : Request → String
  | authorize principal _ | grantedPermissions principal _ => principal.subject

/-- The answer that a permission set gives. -/
def Request.answer : Request → List String → Answer
  | authorize _ action, keys => .decision (SqlAuthorizer.decide action keys)
  | grantedPermissions _ candidates, keys => .permissions (some (candidates.filter (· ∈ keys)))

/-- A permission is granted by an answer. -/
def Request.Grants : Request → Answer → String → Prop
  | authorize _ action, .decision decision, key => decision.allowed = true ∧ action.permission = key
  | grantedPermissions .., .permissions granted, key => ∃ keys, granted = some keys ∧ key ∈ keys
  | _, _, _ => False

def SqlAuthorizer.handle (authorizer : SqlAuthorizer) : Request → AuthzRun (CoreResult Answer)
  | .authorize principal action => do
    let decision ← authorizer.authorize principal action
    return decision.map .decision
  | .grantedPermissions principal candidates => do
    let granted ← authorizer.grantedPermissions principal candidates
    return granted.map .permissions

/-! ### Calls side by side -/

/-- `now` is the monotonic clock. Recorded beside the state: the databases there have been, each
with the time, and when each call read the clock. -/
structure AuthzWorld where
  now : Nat
  db : Database
  cache : String → Option (Nat × List String)
  poisoned : Bool
  past : List (Nat × Database)
  started : Nat → Option Nat

def AuthzWorld.initial (now : Nat) (db : Database) : AuthzWorld :=
  ⟨now, db, fun _ => none, false, [(now, db)], fun _ => none⟩

/-- A query sees the database of one instant, or fails. With a poisoned lock the cache is neither
read nor written. -/
inductive Serves (i : Nat) (w : AuthzWorld) : (c : AuthzCall) → c.Reply → AuthzWorld → Prop
  | now : Serves i w .now w.now { w with started := update w.started i (some w.now) }
  | cached (subject : String) :
      Serves i w (.cached subject) (if w.poisoned then none else w.cache subject) w
  | permissionKeys (subject : String) :
      Serves i w (.permissionKeys subject) (.ok (w.db.permissionKeysForUser subject)) w
  | failed (subject error : String) : Serves i w (.permissionKeys subject) (.error error) w
  | insert (subject : String) (recordedAt : Nat) (permissions : List String) :
      Serves i w (.insert subject recordedAt permissions) ()
        { w with cache := if w.poisoned then w.cache else
            update w.cache subject (some (recordedAt, permissions)) }

/-- A call waits for its query only. -/
def AuthzCall.awaits : AuthzCall → Bool
  | .permissionKeys _ => true
  | _ => false

/-- Time passes and the database changes. -/
def AuthzWorld.Moves (w w' : AuthzWorld) : Prop :=
  ∃ later db poisoned, w.now ≤ later ∧
    w' = { w with now := later, db := db, poisoned := poisoned, past := (later, db) :: w.past }

def authzHost : Host AuthzCall AuthzCall.Reply (CoreResult Answer) AuthzWorld where
  serve := Serves
  finish _ w _ w' := w' = w
  cancel _ w c w' := c.awaits = true ∧ w' = w
  env := AuthzWorld.Moves

abbrev AuthzLabel := Label AuthzCall AuthzCall.Reply Request (CoreResult Answer)

abbrev AuthzState := State AuthzCall AuthzCall.Reply Request (CoreResult Answer) AuthzWorld

/-- Any number of calls of the two methods. -/
def AuthzRuns (authorizer : SqlAuthorizer) (now : Nat) (db : Database) (labels : List AuthzLabel)
    (s : AuthzState) : Prop :=
  Run (Step authzHost authorizer.handle) (.start (.initial now db)) labels s

/-! ### What a call knows -/

/-- How far a call is: which clock it read, and which permissions it has. -/
inductive Phase
  | fresh (subject : String)
  | started (subject : String) (start : Nat)
  | missed (subject : String) (start : Nat)
  | loaded (subject : String) (start : Nat) (keys : List String)
  | known (subject : String) (start : Nat) (keys : List String)
  | failed

inductive Phase.Allows : Phase → AuthzCall → Prop
  | now (subject : String) : Allows (.fresh subject) .now
  | cached (subject : String) (start : Nat) : Allows (.started subject start) (.cached subject)
  | permissionKeys (subject : String) (start : Nat) :
      Allows (.missed subject start) (.permissionKeys subject)
  | insert (subject : String) (start : Nat) (keys : List String) :
      Allows (.loaded subject start keys) (.insert subject start keys)

def Phase.afterCache (subject : String) (start : Nat) : Option (List String) → Phase
  | some keys => .known subject start keys
  | none => .missed subject start

def Phase.afterQuery (subject : String) (start : Nat) : Except String (List String) → Phase
  | .ok keys => .loaded subject start keys
  | .error _ => .failed

def Phase.step (authorizer : SqlAuthorizer) : Phase → (c : AuthzCall) → c.Reply → Phase
  | .fresh subject, .now, start => .started subject start
  | .started subject start, .cached _, entry =>
    .afterCache subject start (authorizer.reusable start entry)
  | .missed subject start, .permissionKeys _, result => .afterQuery subject start result
  | .loaded subject start keys, .insert .., _ => .known subject start keys
  | phase, _, _ => phase

def authzMonitor (authorizer : SqlAuthorizer) : Monitor AuthzCall AuthzCall.Reply Phase where
  step := Phase.step authorizer
  guard := Phase.Allows
  rely _ _ _ := True

/-- The result is the answer from the permissions that the call has, or an error. -/
def Answers (request : Request) (phase : Phase) (result : CoreResult Answer) : Prop :=
  ∀ answer, result = .ok answer → ∃ start keys,
    phase = .known request.subject start keys ∧ answer = request.answer keys

section One

variable {authorizer : SqlAuthorizer} {subject : String}

/-- A call that ends with permissions has them from the cache or from its own query. -/
theorem holds_permissions : Holds (authzMonitor authorizer) (authorizer.permissions subject)
    (fun phase result => ∀ keys, result = .ok keys → ∃ start, phase = .known subject start keys)
    (.fresh subject) := by
  refine ⟨.now subject, ?_⟩
  intro start _
  refine ⟨.cached subject start, ?_⟩
  intro entry _
  change Holds _ (SqlAuthorizer.permissionsOr subject start (authorizer.reusable start entry)) _
    (Phase.afterCache subject start (authorizer.reusable start entry))
  cases authorizer.reusable start entry with
  | some keys =>
    rintro _ ⟨⟩
    exact ⟨start, rfl⟩
  | none =>
    refine ⟨.permissionKeys subject start, ?_⟩
    intro result _
    cases result with
    | error e => rintro _ ⟨⟩
    | ok keys =>
      refine ⟨.insert subject start keys, ?_⟩
      rintro _ _ _ ⟨⟩
      exact ⟨start, rfl⟩

theorem holds_handle (request : Request) : Holds (authzMonitor authorizer)
    (authorizer.handle request) (Answers request) (.fresh request.subject) := by
  have hanswer : ∀ (phase : Phase) (result : CoreResult (List String)),
      (∀ keys, result = .ok keys → ∃ start, phase = .known request.subject start keys) →
      Answers request phase (result.map request.answer) := by
    rintro phase (e | keys) h _ ⟨⟩
    obtain ⟨start, rfl⟩ := h keys rfl
    exact ⟨start, keys, rfl, rfl⟩
  cases request with
  | authorize principal action =>
    simp only [SqlAuthorizer.handle, SqlAuthorizer.authorize, holds_bind]
    refine holds_permissions.imp ?_
    intro phase result h
    have hphase := hanswer phase result h
    cases result <;> exact hphase
  | grantedPermissions principal candidates =>
    simp only [SqlAuthorizer.handle, SqlAuthorizer.grantedPermissions, holds_bind]
    refine holds_permissions.imp ?_
    intro phase result h
    have hphase := hanswer phase result h
    cases result <;> exact hphase

end One

/-! ### All calls -/

/-- The database held that permission set for the subject at that time. -/
def Held (w : AuthzWorld) (subject : String) (time : Nat) (keys : List String) : Prop :=
  ∃ db, (time, db) ∈ w.past ∧ db.permissionKeysForUser subject = keys

def Phase.Sound (ttl : Nat) (w : AuthzWorld) (i : Nat) : Phase → Prop
  | .fresh _ | .failed => True
  | .started _ start | .missed _ start => w.started i = some start ∧ start ≤ w.now
  | .loaded subject start keys =>
    w.started i = some start ∧ ∃ time, start ≤ time ∧ Held w subject time keys
  | .known subject start keys =>
    w.started i = some start ∧ ∃ time, start ≤ time + ttl ∧ Held w subject time keys

/-- An entry of the cache was held at some time since it was recorded. -/
structure CacheInvariant (ttl : Nat) (w : AuthzWorld) (phases : Nat → Option Phase) : Prop where
  past : ∀ entry ∈ w.past, entry.1 ≤ w.now
  current : (w.now, w.db) ∈ w.past
  cache : ∀ subject start keys, w.cache subject = some (start, keys) →
    ∃ time, start ≤ time ∧ Held w subject time keys
  phases : ∀ i phase, phases i = some phase → phase.Sound ttl w i

section All

variable {authorizer : SqlAuthorizer} {ttl : Nat} {w w' : AuthzWorld} {phases : Nat → Option Phase}
  {i : Nat} {phase : Phase} {subject : String} {state : Option Phase}

theorem Held.mono {time : Nat} {keys : List String} (hpast : ∀ entry ∈ w.past, entry ∈ w'.past)
    (h : Held w subject time keys) : Held w' subject time keys := by
  obtain ⟨db, hdb, hkeys⟩ := h
  exact ⟨db, hpast _ hdb, hkeys⟩

theorem Phase.Sound.mono (h : phase.Sound ttl w i) (hstarted : w'.started i = w.started i)
    (hnow : w.now ≤ w'.now) (hpast : ∀ entry ∈ w.past, entry ∈ w'.past) : phase.Sound ttl w' i := by
  cases phase with
  | fresh | failed => trivial
  | started | missed => exact ⟨hstarted.trans h.1, Nat.le_trans h.2 hnow⟩
  | loaded | known =>
    obtain ⟨hstart, time, hle, hheld⟩ := h
    exact ⟨hstarted.trans hstart, time, hle, hheld.mono hpast⟩

/-- A step of one call: what the others know stays true. -/
theorem sound_update (h : ∀ j phase, phases j = some phase → phase.Sound ttl w j)
    (hself : ∀ phase, state = some phase → phase.Sound ttl w' i)
    (hstarted : ∀ j, j ≠ i → w'.started j = w.started j) (hnow : w.now ≤ w'.now)
    (hpast : ∀ entry ∈ w.past, entry ∈ w'.past) (j : Nat) (phase : Phase)
    (hj : update phases i state j = some phase) : phase.Sound ttl w' j := by
  by_cases hji : j = i
  · subst hji
    rw [update_self] at hj
    exact hself phase hj
  · rw [update_of_ne hji] at hj
    exact (h j phase hj).mono (hstarted j hji) hnow hpast

/-- A step that leaves the world as it is. -/
theorem CacheInvariant.setPhase (h : CacheInvariant ttl w phases)
    (hself : ∀ phase, state = some phase → phase.Sound ttl w i) :
    CacheInvariant ttl w (update phases i state) :=
  ⟨h.past, h.current, h.cache,
    sound_update h.phases hself (fun _ _ => rfl) (Nat.le_refl _) fun _ he => he⟩

theorem sound_afterCache {start : Nat} {entry : Option (Nat × List String)}
    (hstarted : w.started i = some start ∧ start ≤ w.now)
    (hentry : ∀ recorded keys, entry = some (recorded, keys) →
      ∃ time, recorded ≤ time ∧ Held w subject time keys) :
    (Phase.afterCache subject start (authorizer.reusable start entry)).Sound
      authorizer.cacheTtl w i := by
  cases entry with
  | none => exact hstarted
  | some entry =>
    obtain ⟨recorded, keys⟩ := entry
    obtain ⟨time, hle, hheld⟩ := hentry recorded keys rfl
    simp only [SqlAuthorizer.reusable]
    split
    · exact ⟨hstarted.1, time, by omega, hheld⟩
    · exact hstarted

theorem CacheInvariant.serve {c : AuthzCall} {r : c.Reply}
    (h : CacheInvariant authorizer.cacheTtl w phases) (hi : phases i = some phase)
    (hguard : phase.Allows c) (hserve : Serves i w c r w') : CacheInvariant authorizer.cacheTtl w'
      (update phases i (some (phase.step authorizer c r))) := by
  have hsound := h.phases i phase hi
  cases hguard with
  | now subject =>
    cases hserve with
    | now =>
      refine ⟨h.past, h.current, h.cache, sound_update h.phases ?_ ?_ (Nat.le_refl _) fun _ he => he⟩
      · rintro _ ⟨⟩
        exact ⟨update_self .., Nat.le_refl _⟩
      · exact fun j hj => update_of_ne hj ..
  | cached subject start =>
    cases hserve with
    | cached =>
      refine h.setPhase ?_
      rintro _ ⟨⟩
      refine sound_afterCache hsound ?_
      intro recorded keys hentry
      split at hentry
      · cases hentry
      · exact h.cache subject recorded keys hentry
  | permissionKeys subject start =>
    cases hserve with
    | permissionKeys =>
      refine h.setPhase ?_
      rintro _ ⟨⟩
      exact ⟨hsound.1, w.now, hsound.2, w.db, h.current, rfl⟩
    | failed =>
      refine h.setPhase ?_
      rintro _ ⟨⟩
      trivial
  | insert subject start keys =>
    obtain ⟨hstart, time, hle, hheld⟩ := hsound
    cases hserve with
    | insert =>
      refine ⟨h.past, h.current, ?_, sound_update h.phases ?_ (fun _ _ => rfl) (Nat.le_refl _)
        fun _ he => he⟩
      · intro other recorded stored hentry
        dsimp only at hentry
        split at hentry
        · exact h.cache other recorded stored hentry
        · by_cases hother : other = subject
          · subst hother
            rw [update_self] at hentry
            cases hentry
            exact ⟨time, hle, hheld⟩
          · rw [update_of_ne hother] at hentry
            exact h.cache other recorded stored hentry
      · rintro _ ⟨⟩
        exact ⟨hstart, time, Nat.le_add_right_of_le hle, hheld⟩

theorem CacheInvariant.moves (h : CacheInvariant ttl w phases) (hmoves : w.Moves w') :
    CacheInvariant ttl w' phases := by
  obtain ⟨later, db, poisoned, hle, rfl⟩ := hmoves
  refine ⟨?_, List.mem_cons_self, ?_, ?_⟩
  · exact List.forall_mem_cons.mpr ⟨Nat.le_refl _, fun entry he => (h.past entry he).trans hle⟩
  · intro subject start keys hentry
    obtain ⟨time, htime, hheld⟩ := h.cache subject start keys hentry
    exact ⟨time, htime, hheld.mono fun _ he => List.mem_cons_of_mem _ he⟩
  · exact fun j phase hj =>
      (h.phases j phase hj).mono rfl hle fun _ he => List.mem_cons_of_mem _ he

theorem authzProtocol (authorizer : SqlAuthorizer) : Protocol authzHost (authzMonitor authorizer)
    (fun request : Request => Phase.fresh request.subject) Answers
    (CacheInvariant authorizer.cacheTtl) where
  spawn request h _ := by
    refine h.setPhase ?_
    rintro _ ⟨⟩
    trivial
  serve h hi hguard hserve := ⟨trivial, h.serve hi hguard hserve⟩
  finish h _ _ hfinish := by
    obtain rfl := hfinish
    exact h.setPhase fun _ he => by cases he
  cancel h _ _ hcancel := by
    rw [hcancel.2]
    exact h.setPhase fun _ he => by cases he
  env h henv := h.moves henv

theorem cacheInvariant_initial (now : Nat) (db : Database) :
    CacheInvariant ttl (AuthzWorld.initial now db) fun _ => none where
  past entry he := by
    rw [List.mem_singleton.mp he]
    exact Nat.le_refl _
  current := List.mem_singleton.mpr rfl
  cache _ _ _ he := by cases he
  phases _ _ he := by cases he

end All

theorem not_grants_answer {request : Request} {keys : List String} (h : key ∉ keys) :
    ¬ request.Grants (request.answer keys) key := by
  cases request with
  | authorize principal action =>
    rintro ⟨hallowed, rfl⟩
    simp [SqlAuthorizer.decide, h, Decision.deny] at hallowed
  | grantedPermissions principal candidates =>
    rintro ⟨_, ⟨⟩, hmem⟩
    simp [h] at hmem

/-- Every answer is computed from a permission set that the database held for the subject between
the lifetime of the cache before the call's start and its return. So what was withdrawn before a
time is not granted by a call that starts a lifetime after it. -/
theorem answers_fresh {authorizer : SqlAuthorizer} {now : Nat} {db : Database}
    {labels : List AuthzLabel} {s : AuthzState} {i : Nat} {request : Request} {answer : Answer}
    (h : AuthzRuns authorizer now db labels s) (hi : s.tasks i = some ⟨request, ret (.ok answer)⟩) :
    ∃ start, s.world.started i = some start ∧
      (∃ time keys, Held s.world request.subject time keys ∧ start ≤ time + authorizer.cacheTtl ∧
        time ≤ s.world.now ∧ answer = request.answer keys) ∧
      ∀ removed key, removed + authorizer.cacheTtl ≤ start →
        (∀ entry ∈ s.world.past, removed ≤ entry.1 → ¬ entry.2.Grants request.subject key) →
        ¬ request.Grants answer key := by
  have htracked := (authzProtocol authorizer).run holds_handle (cacheInvariant_initial now db) h
  obtain ⟨phases, phase, hinv, hphase, hpost⟩ := htracked.ret hi
  obtain ⟨start, keys, rfl, rfl⟩ := hpost answer rfl
  obtain ⟨hstart, time, hle, hheld⟩ := hinv.phases i _ hphase
  obtain ⟨held, hmem, hkeys⟩ := hheld
  refine ⟨start, hstart, ⟨time, keys, ⟨held, hmem, hkeys⟩, hle, hinv.past _ hmem, rfl⟩, ?_⟩
  intro removed key hremoved hpast
  have hnot := hpast _ hmem (by change removed ≤ time; omega)
  rw [← mem_permissionKeysForUser, hkeys] at hnot
  exact not_grants_answer hnot

/-! A user who may list users, until the role is taken away. -/

def grantingDb : Database := ⟨[⟨1, "alice", "active"⟩], [(1, 7)], [(7, "users:read")]⟩

def listUsers : Request :=
  .authorize ⟨"alice", "local", none, []⟩ ⟨"users:read", none, some .list, none, none⟩

def halfMinute : SqlAuthorizer := ⟨30000000000⟩

theorem keys_grantingDb : grantingDb.permissionKeysForUser "alice" = ["users:read"] := by
  change Sorting.sortDedup id ["users:read"] = ["users:read"]
  rw [Sorting.sortDedup, Sorting.sortOn_of_pairwise (List.pairwise_singleton _ _)]
  rfl

/-- The role is taken away. -/
def revokedDb : Database := { grantingDb with userRoles := [] }

theorem keys_revokedDb : revokedDb.permissionKeysForUser "alice" = [] := by
  change Sorting.sortDedup id [] = []
  rw [Sorting.sortDedup, Sorting.sortOn_of_pairwise .nil]
  rfl

section Calls

variable {i : Nat} {w : AuthzWorld} {keys : List String}

/-- A call up to what it makes of its entry in the cache. -/
theorem proceeds_listUsers {w' : AuthzWorld} (h : w.poisoned = false)
    (hrest : ∃ log, Proceeds authzHost i
      (SqlAuthorizer.permissionsOr "alice" w.now (halfMinute.reusable w.now (w.cache "alice")))
      { w with started := update w.started i (some w.now) } log (ret (.ok keys)) w') :
    ∃ log, Proceeds authzHost i (halfMinute.handle listUsers) w log
      (ret (.ok (listUsers.answer keys))) w' := by
  obtain ⟨_, hrest⟩ := hrest
  have hcached : ∀ w : AuthzWorld, w.poisoned = false →
      Serves i w (.cached "alice") (w.cache "alice") w := by
    intro w hw
    have hserve := @Serves.cached i w "alice"
    rwa [hw] at hserve
  have hpermissions : Proceeds authzHost i (halfMinute.permissions "alice") w _ (ret (.ok keys))
      w' := .serve .now (.serve (hcached _ h) hrest)
  exact ⟨_, .bind (.bind hpermissions .refl) .refl⟩

theorem proceeds_reused (h : w.poisoned = false)
    (hentry : halfMinute.reusable w.now (w.cache "alice") = some keys) :
    ∃ log, Proceeds authzHost i (halfMinute.handle listUsers) w log
      (ret (.ok (listUsers.answer keys))) { w with started := update w.started i (some w.now) } := by
  refine proceeds_listUsers h ?_
  rw [hentry]
  exact ⟨_, .refl⟩

theorem proceeds_queried (h : w.poisoned = false)
    (hentry : halfMinute.reusable w.now (w.cache "alice") = none)
    (hkeys : w.db.permissionKeysForUser "alice" = keys) :
    ∃ log, Proceeds authzHost i (halfMinute.handle listUsers) w log
      (ret (.ok (listUsers.answer keys)))
      { w with
        started := update w.started i (some w.now)
        cache := update w.cache "alice" (some (w.now, keys)) } := by
  subst hkeys
  refine proceeds_listUsers h ?_
  rw [hentry]
  obtain ⟨now, db, cache, _, past, started⟩ := w
  cases h
  exact ⟨_, .serve (.permissionKeys "alice") (.serve (.insert ..) .refl)⟩

end Calls

/-- The permissions of the first call are used again by the second one, ten seconds later, though
the role was taken away; the third call, after half a minute, is refused. -/
theorem answers_fresh_revoked : ∃ labels, ∃ s : AuthzState,
    AuthzRuns halfMinute 5 grantingDb labels s ∧
    s.tasks 1 = some ⟨listUsers, ret (.ok (.decision .allow))⟩ ∧
    s.tasks 2 = some ⟨listUsers, ret (.ok (.decision (.deny "missing permission users:read")))⟩ ∧
    (∃ start time keys, s.world.started 1 = some start ∧ Held s.world "alice" time keys ∧
      start ≤ time + 30000000000 ∧ Answer.decision .allow = listUsers.answer keys) ∧
    ∃ start, s.world.started 2 = some start ∧ 10000000000 + 30000000000 ≤ start ∧
      ¬ listUsers.Grants (.decision (.deny "missing permission users:read")) "users:read" := by
  let loaded : AuthzWorld := { AuthzWorld.initial 5 grantingDb with
    started := update (fun _ => none) 0 (some 5)
    cache := update (fun _ => none) "alice" (some (5, ["users:read"])) }
  let revoked : AuthzWorld := { loaded with
    now := 10000000000, db := revokedDb, past := (10000000000, revokedDb) :: loaded.past }
  let reused : AuthzWorld := { revoked with started := update revoked.started 1 (some 10000000000) }
  let later : AuthzWorld := { reused with
    now := 50000000000, past := (50000000000, revokedDb) :: reused.past }
  obtain ⟨_, hfirst⟩ : ∃ log, Proceeds authzHost 0 (halfMinute.handle listUsers)
      (.initial 5 grantingDb) log (ret (.ok (.decision .allow))) loaded :=
    @proceeds_queried 0 (.initial 5 grantingDb) _ rfl rfl keys_grantingDb
  obtain ⟨_, hsecond⟩ : ∃ log, Proceeds authzHost 1 (halfMinute.handle listUsers) revoked log
      (ret (.ok (.decision .allow))) reused := @proceeds_reused 1 revoked ["users:read"] rfl rfl
  obtain ⟨_, hthird⟩ : ∃ log, Proceeds authzHost 2 (halfMinute.handle listUsers) later log
      (ret (.ok (.decision (.deny "missing permission users:read")))) _ :=
    @proceeds_queried 2 later _ rfl rfl keys_revokedDb
  have hrevoke : authzHost.env loaded revoked := ⟨_, _, _, by decide, rfl⟩
  have hpass : authzHost.env reused later := ⟨_, _, _, by decide, rfl⟩
  have hrun : AuthzRuns halfMinute 5 grantingDb _ _ :=
    .step (.spawn listUsers rfl) <| hfirst.steps.append <| .step (.env hrevoke) <|
    .step (.spawn listUsers rfl) <| hsecond.steps.append <| .step (.env hpass) <|
    .step (.spawn listUsers rfl) hthird.steps
  obtain ⟨start, hstart, ⟨time, keys, hheld, hle, -, hanswer⟩, -⟩ := answers_fresh hrun (i := 1) rfl
  obtain ⟨start', hstart', -, hremoved⟩ := answers_fresh hrun (i := 2) rfl
  obtain rfl : 50000000000 = start' := Option.some.inj hstart'
  have hnone : ¬ revokedDb.Grants "alice" "users:read" := by
    simp [← mem_permissionKeysForUser, keys_revokedDb]
  refine ⟨_, _, hrun, rfl, rfl, ⟨start, time, keys, hstart, hheld, hle, hanswer⟩, _, hstart',
    by decide, hremoved 10000000000 "users:read" (by decide) ?_⟩
  change ∀ entry ∈ [(50000000000, revokedDb), (10000000000, revokedDb), (5, grantingDb)],
    10000000000 ≤ entry.1 → ¬ entry.2.Grants "alice" "users:read"
  simp [hnone]

end EdgionCenter.Authz
