import EdgionCenter.Auth.Oidc
import EdgionCenter.Lib.Tasks

/-! How often the keys of the OpenID provider are fetched, over all interleavings of validations. -/
namespace EdgionCenter.Oidc

open Function Interaction Tasks Transition

/-! ### Validations side by side -/

/-- The state that the validations of a process share. `now` is the monotonic clock. Recorded beside
it: when fetches were started, the latest first; for which tasks a fetch is on its way; what the
fetches returned; and which time each task was told last. -/
structure OidcWorld (Key : Type) where
  now : Nat
  cache : Option (CachedKeys Key)
  lock : Option Nat
  starts : List Nat
  inFlight : List Nat
  fetched : List (List Key × String)
  told : Nat → Option UnixTime

variable {Key : Type}

def OidcWorld.initial (now : Nat) : OidcWorld Key := ⟨now, none, none, [], [], [], fun _ => none⟩

/-- What a discovery returned, if it succeeded. -/
def discoveredKeys : Except String (List Key × String) → List (List Key × String)
  | .ok keys => [keys]
  | .error _ => []

/-- The mutex goes to one task at a time. Discovery refuses a document with another issuer. -/
inductive Serves (p : OidcProvider) (i : Nat) (w : OidcWorld Key) :
    (c : OidcCall Key) → c.Reply → OidcWorld Key → Prop
  | cached : Serves p i w .cached (w.cache, w.now) w
  | lockFetch (h : w.lock = none) : Serves p i w .lockFetch () { w with lock := some i }
  | unlockFetch : Serves p i w .unlockFetch () { w with lock := none }
  | discover : Serves p i w .discover ()
      { w with starts := w.now :: w.starts, inFlight := i :: w.inFlight }
  | discovered (result : Except String (List Key × String))
      (h : ∀ keys ∈ discoveredKeys result, keys.2 = p.issuerUrl) :
      Serves p i w .discovered result
        { w with inFlight := w.inFlight.erase i, fetched := discoveredKeys result ++ w.fetched }
  | store (jwks : List Key) (issuer : String) :
      Serves p i w (.store jwks issuer) () { w with cache := some ⟨jwks, issuer, w.now⟩ }
  | systemTime (time : Option UnixTime) :
      Serves p i w .systemTime time { w with told := update w.told i time }

/-- A task that is dropped gives the lock back and abandons its fetch. -/
def OidcWorld.abandon (w : OidcWorld Key) (i : Nat) : OidcWorld Key :=
  { w with lock := if w.lock = some i then none else w.lock, inFlight := w.inFlight.erase i }

/-- The calls at which a validation waits: only there can it be dropped. -/
def OidcCall.awaits : OidcCall Key → Bool
  | .lockFetch | .discovered => true
  | _ => false

variable {α : Type}

def oidcHost (p : OidcProvider) (α : Type) : Host (OidcCall Key) OidcCall.Reply α (OidcWorld Key) where
  serve := Serves p
  finish _ w _ w' := w' = w
  cancel i w c w' := c.awaits = true ∧ w' = w.abandon i
  env w w' := ∃ later, w.now ≤ later ∧ w' = { w with now := later }

/-! ### One validation -/

/-- How far a task is with a fetch. -/
inductive Phase
  | out
  | holding
  | due
  | fetching
  | fetched
  deriving DecidableEq

def Phase.afterCheck (p : OidcProvider) (cached : Option (CachedKeys Key) × Nat) : Phase → Phase
  | .holding => if recentlyFetched p cached.1 cached.2 then .holding else .due
  | phase => phase

def Phase.afterFetch : Except String (List Key × String) → Phase
  | .ok (_ :: _, _) => .fetched
  | _ => .holding

def Phase.step (p : OidcProvider) (phase : Phase) : (c : OidcCall Key) → c.Reply → Phase
  | .cached, r => phase.afterCheck p r
  | .lockFetch, _ => .holding
  | .unlockFetch, _ => .out
  | .discover, _ => .fetching
  | .discovered, r => .afterFetch r
  | .store .., _ => .holding
  | .systemTime, _ => phase

def Phase.allows (phase : Phase) : OidcCall Key → Prop
  | .cached => phase = .out ∨ phase = .holding
  | .lockFetch | .systemTime => phase = .out
  | .unlockFetch => phase = .holding
  | .discover => phase = .due
  | .discovered => phase = .fetching
  | .store .. => phase = .fetched

def fetchMonitor (p : OidcProvider) : Monitor (OidcCall Key) OidcCall.Reply Phase where
  step := Phase.step p
  guard := Phase.allows
  rely _ _ _ := True

section One

variable {p : OidcProvider}

theorem holds_cacheKeys (result : Except String (List Key × String)) :
    Holds (fetchMonitor p) (cacheKeys result) (fun phase _ => phase = .holding)
      (Phase.afterFetch result) := by
  rcases result with e | ⟨_ | ⟨key, jwks⟩, issuer⟩
  · exact rfl
  · exact rfl
  · exact ⟨rfl, fun _ _ => rfl⟩

theorem holds_fetchUnlessRecent :
    Holds (fetchMonitor p) (fetchUnlessRecent p : OidcRun Key (Except String Unit))
      (fun phase _ => phase = .holding) .holding := by
  refine ⟨.inr rfl, ?_⟩
  intro cached _
  change Holds (fetchMonitor p) (if recentlyFetched p cached.1 cached.2 = true then ret (.ok ())
    else fetchKeys) _ (if recentlyFetched p cached.1 cached.2 = true then .holding else .due)
  split
  · exact rfl
  · exact ⟨rfl, fun _ _ => ⟨rfl, fun result _ => holds_cacheKeys result⟩⟩

/-- The lock is taken, and given back. -/
theorem holds_fetchAndCache :
    Holds (fetchMonitor p) (fetchAndCache p : OidcRun Key (Except String Unit))
      (fun phase _ => phase = .out) .out := by
  refine ⟨rfl, ?_⟩
  intro _ _
  change Holds (fetchMonitor p) (fetchUnlessRecent p >>= fun result =>
    OidcRun.unlockFetch >>= fun _ => ret result) _ .holding
  rw [holds_bind]
  refine holds_fetchUnlessRecent.imp ?_
  rintro _ result rfl
  exact ⟨rfl, fun _ _ => rfl⟩

theorem holds_currentKeys :
    Holds (fetchMonitor p) (currentKeys : OidcRun Key (Except String (List Key × String)))
      (fun phase _ => phase = .out) .out :=
  ⟨.inl rfl, fun _ _ => rfl⟩

theorem holds_keysAfter (result : Except String Unit) :
    Holds (fetchMonitor p) (keysAfter result : OidcRun Key (Except String (List Key × String)))
      (fun phase _ => phase = .out) .out := by
  cases result with
  | ok _ => exact holds_currentKeys
  | error e =>
    refine ⟨.inl rfl, ?_⟩
    intro cached _
    change Holds (fetchMonitor p) (if cached.1.isNone = true then ret (.error e)
      else currentKeys) _ .out
    split
    · exact rfl
    · exact holds_currentKeys

theorem holds_refreshedKeys :
    Holds (fetchMonitor p) (refreshedKeys p : OidcRun Key (Except String (List Key × String)))
      (fun phase _ => phase = .out) .out := by
  rw [refreshedKeys, holds_bind]
  refine holds_fetchAndCache.imp ?_
  rintro _ result rfl
  exact holds_keysAfter result

theorem holds_keys (force : Bool) :
    Holds (fetchMonitor p) (keys p force : OidcRun Key (Except String (List Key × String)))
      (fun phase _ => phase = .out) .out := by
  unfold keys
  split
  · exact holds_refreshedKeys
  · refine ⟨.inl rfl, ?_⟩
    intro cached _
    change Holds (fetchMonitor p) (if expired p cached.1 cached.2 = true then refreshedKeys p
      else currentKeys) _ .out
    split
    · exact holds_refreshedKeys
    · exact holds_currentKeys

variable [Jose Key]

theorem holds_verifyOrRefresh {header : JoseHeader} {message signature : List UInt8}
    {discovery : List Key × String} :
    Holds (fetchMonitor p) (verifyOrRefresh p header message signature discovery).run
      (fun phase _ => phase = .out) .out := by
  unfold verifyOrRefresh
  split
  · exact rfl
  · refine holds_run_keeps (holds_keys true) ?_
    rintro refreshed _ rfl
    exact holds_run_keeps rfl fun _ _ h => h
  · exact rfl

/-- Outside of a fetch a validation holds no lock. -/
theorem holds_validate (token : String) :
    Holds (fetchMonitor p) (validate p token : ExceptT String (OidcRun Key) OidcClaims).run
      (fun phase _ => phase = .out) .out := by
  refine holds_run_keeps rfl ?_
  rintro parts _ rfl
  refine holds_run_keeps rfl ?_
  rintro header _ rfl
  refine holds_run_keeps rfl ?_
  rintro _ _ rfl
  refine holds_run_keeps (holds_keys false) ?_
  rintro discovery _ rfl
  refine holds_run_keeps rfl ?_
  rintro signature _ rfl
  refine holds_run_keeps holds_verifyOrRefresh ?_
  rintro issuer _ rfl
  refine holds_run_keeps rfl ?_
  rintro claims _ rfl
  refine holds_run_keeps ⟨rfl, fun _ _ => rfl⟩ ?_
  rintro now _ rfl
  exact holds_run_keeps rfl fun _ _ h => h

end One

/-! ### All validations -/

/-- Who is not out has the lock, and the fetch on its way is that of the task that waits for it. -/
structure LockInvariant (w : OidcWorld Key) (phases : Nat → Option Phase) : Prop where
  exclusive : Exclusive (· ≠ Phase.out) w.lock phases
  fetches : ∀ i, i ∈ w.inFlight ↔ phases i = some .fetching
  nodup : w.inFlight.Nodup

section Lock

variable {w : OidcWorld Key} {phases : Nat → Option Phase} {i : Nat} {phase phase' : Phase}

theorem LockInvariant.length_inFlight (h : LockInvariant w phases) : w.inFlight.length ≤ 1 := by
  have hsame : ∀ i ∈ w.inFlight, ∀ j ∈ w.inFlight, i = j := by
    intro i hi j hj
    exact h.exclusive.eq ((h.fetches i).mp hi) (by simp) ((h.fetches j).mp hj) (by simp)
  rcases hl : w.inFlight with _ | ⟨i, _ | ⟨j, rest⟩⟩
  · simp
  · simp
  · have hnodup := h.nodup
    rw [hl] at hsame hnodup
    have hij : i = j := hsame i (by simp) j (by simp)
    simp [hij] at hnodup

variable {state : Option Phase}

theorem mem_update {l l' : List Nat} (h : ∀ j, j ∈ l ↔ phases j = some .fetching)
    (hself : i ∈ l' ↔ state = some .fetching) (hothers : ∀ j, j ≠ i → (j ∈ l' ↔ j ∈ l)) (j : Nat) :
    j ∈ l' ↔ update phases i state j = some .fetching := by
  by_cases hj : j = i
  · subst hj
    rw [update_self, hself]
  · rw [update_of_ne hj, hothers j hj, h j]

/-- A step that neither takes nor gives the lock, and neither starts nor ends a fetch. -/
theorem LockInvariant.setPhase (h : LockInvariant w phases) (hi : phases i = some phase)
    (hout : phase' = .out ↔ phase = .out) (hfetching : phase' = .fetching ↔ phase = .fetching) :
    LockInvariant w (update phases i (some phase')) where
  exclusive := by
    refine h.exclusive.update ?_ fun _ _ => Iff.rfl
    rw [h.exclusive.holds_iff hi]
    simp [hout]
  fetches := by
    refine mem_update h.fetches ?_ fun _ _ => Iff.rfl
    rw [h.fetches i, hi, Option.some.injEq, Option.some.injEq, hfetching]
  nodup := h.nodup

theorem afterCheck_iff (p : OidcProvider) (cached : Option (CachedKeys Key) × Nat) (phase : Phase) :
    (phase.afterCheck p cached = .out ↔ phase = .out) ∧
      (phase.afterCheck p cached = .fetching ↔ phase = .fetching) := by
  cases phase <;> simp only [Phase.afterCheck, and_self]
  split <;> simp

theorem afterFetch_ne (result : Except String (List Key × String)) :
    Phase.afterFetch result ≠ .out ∧ Phase.afterFetch result ≠ .fetching := by
  rcases result with e | ⟨_ | ⟨key, jwks⟩, issuer⟩ <;> simp [Phase.afterFetch]

theorem LockInvariant.acquire (h : LockInvariant w phases) (hi : phases i = some .out)
    (hfree : w.lock = none) :
    LockInvariant { w with lock := some i } (update phases i (some .holding)) where
  exclusive := by
    refine h.exclusive.update (by simp) ?_
    intro j hj
    simp [hfree, Ne.symm hj]
  fetches := by
    refine mem_update h.fetches ?_ fun _ _ => Iff.rfl
    simp [h.fetches i, hi]
  nodup := h.nodup

theorem LockInvariant.release (h : LockInvariant w phases) (hi : phases i = some .holding) :
    LockInvariant { w with lock := none } (update phases i (some .out)) where
  exclusive := by
    have hlock := (h.exclusive.holds_iff hi).mpr (by simp)
    refine h.exclusive.update (by simp) ?_
    intro j hj
    simp [hlock, Ne.symm hj]
  fetches := by
    refine mem_update h.fetches ?_ fun _ _ => Iff.rfl
    simp [h.fetches i, hi]
  nodup := h.nodup

theorem LockInvariant.start (h : LockInvariant w phases) (hi : phases i = some .due) :
    LockInvariant { w with starts := w.now :: w.starts, inFlight := i :: w.inFlight }
      (update phases i (some .fetching)) where
  exclusive := by
    have hlock := (h.exclusive.holds_iff hi).mpr (by simp)
    exact h.exclusive.update (by simp [hlock]) fun _ _ => Iff.rfl
  fetches := mem_update h.fetches (by simp) fun j hj => by simp [hj]
  nodup := List.nodup_cons.mpr ⟨by simp [h.fetches i, hi], h.nodup⟩

theorem LockInvariant.arrive (h : LockInvariant w phases) (hi : phases i = some .fetching)
    (hout : phase' ≠ .out) (hfetching : phase' ≠ .fetching) {fetched : List (List Key × String)} :
    LockInvariant { w with inFlight := w.inFlight.erase i, fetched := fetched }
      (update phases i (some phase')) where
  exclusive := by
    have hlock := (h.exclusive.holds_iff hi).mpr (by simp)
    exact h.exclusive.update (by simp [hlock, hout]) fun _ _ => Iff.rfl
  fetches := by
    refine mem_update h.fetches ?_ fun j hj => List.mem_erase_of_ne hj
    simp [h.nodup.mem_erase_iff, hfetching]
  nodup := h.nodup.erase i

theorem LockInvariant.serve {p : OidcProvider} {c : OidcCall Key} {r : c.Reply} {w' : OidcWorld Key}
    (h : LockInvariant w phases) (hi : phases i = some phase) (hguard : phase.allows c)
    (hserve : Serves p i w c r w') :
    LockInvariant w' (update phases i (some (phase.step p c r))) := by
  cases hserve with
  | cached => exact h.setPhase hi (afterCheck_iff p _ phase).1 (afterCheck_iff p _ phase).2
  | lockFetch hfree =>
    obtain rfl : phase = .out := hguard
    exact h.acquire hi hfree
  | unlockFetch =>
    obtain rfl : phase = .holding := hguard
    exact h.release hi
  | discover =>
    obtain rfl : phase = .due := hguard
    exact h.start hi
  | discovered result _ =>
    obtain rfl : phase = .fetching := hguard
    exact h.arrive hi (afterFetch_ne result).1 (afterFetch_ne result).2
  | store jwks issuer =>
    obtain rfl : phase = .fetched := hguard
    have hkept : LockInvariant w (update phases i (some .holding)) :=
      h.setPhase hi (by simp) (by simp)
    exact ⟨hkept.exclusive, hkept.fetches, hkept.nodup⟩
  | systemTime time =>
    have hkept : LockInvariant w (update phases i (some phase)) :=
      h.setPhase hi Iff.rfl Iff.rfl
    exact ⟨hkept.exclusive, hkept.fetches, hkept.nodup⟩

/-- A task that is not in a fetch comes or goes. -/
theorem LockInvariant.setOut (h : LockInvariant w phases) (hi : ∀ q, phases i = some q → q = .out)
    (hstate : ∀ q, state = some q → q = .out) : LockInvariant w (update phases i state) where
  exclusive := by
    refine h.exclusive.update ?_ fun _ _ => Iff.rfl
    rw [h.exclusive i]
    constructor
    · rintro ⟨q, hq, hne⟩
      exact absurd (hi q hq) hne
    · rintro ⟨q, hq, hne⟩
      exact absurd (hstate q hq) hne
  fetches := by
    refine mem_update h.fetches ?_ fun _ _ => Iff.rfl
    rw [h.fetches i]
    constructor
    · exact fun hq => absurd (hi _ hq) (by simp)
    · exact fun hq => absurd (hstate _ hq) (by simp)
  nodup := h.nodup

theorem LockInvariant.abandon (h : LockInvariant w phases) :
    LockInvariant (w.abandon i) (update phases i none) where
  exclusive := by
    refine h.exclusive.update ?_ ?_
    · simp only [OidcWorld.abandon, reduceCtorEq, false_and, exists_false, iff_false]
      split
      · simp
      · assumption
    · intro j hj
      simp only [OidcWorld.abandon]
      split
      · rename_i hlock
        simp [hlock, Ne.symm hj]
      · exact Iff.rfl
  fetches := by
    refine mem_update h.fetches ?_ fun j hj => List.mem_erase_of_ne hj
    simp [OidcWorld.abandon, h.nodup.mem_erase_iff]
  nodup := h.nodup.erase i

theorem lockInvariant_initial (now : Nat) :
    LockInvariant (OidcWorld.initial now : OidcWorld Key) fun _ => none where
  exclusive i := by simp [OidcWorld.initial]
  fetches i := by simp [OidcWorld.initial]
  nodup := List.nodup_nil

end Lock

theorem lockProtocol (p : OidcProvider) (α : Type) :
    Protocol (oidcHost p α) (fetchMonitor p) (fun _ : String => Phase.out)
      (fun _ phase _ => phase = .out)
      (LockInvariant : OidcWorld Key → (Nat → Option Phase) → Prop) where
  spawn _ h hfree := h.setOut (by simp [hfree]) (by simp)
  serve h hi hguard hserve := ⟨trivial, h.serve hi hguard hserve⟩
  finish h hi hpost hfinish := by
    rw [hfinish]
    subst hpost
    exact h.setOut (by simp [hi]) (by simp)
  cancel h _ _ hcancel := by
    rw [hcancel.2]
    exact h.abandon
  env h henv := by
    obtain ⟨later, _, rfl⟩ := henv
    exact ⟨h.exclusive, h.fetches, h.nodup⟩

/-! ### Fetches that succeed -/

/-- The fetch returned keys. -/
def Succeeds : (c : OidcCall Key) → c.Reply → Prop
  | .discovered, r => ∃ key jwks issuer, r = .ok (key :: jwks, issuer)
  | _, _ => True

abbrev OidcLabel (Key : Type) :=
  Label (OidcCall Key) OidcCall.Reply String (Except String OidcClaims)

abbrev OidcState (Key : Type) :=
  State (OidcCall Key) OidcCall.Reply String (Except String OidcClaims) (OidcWorld Key)

/-- No fetch fails, and none is abandoned. -/
def AllSucceed (labels : List (OidcLabel Key)) : Prop :=
  ∀ label ∈ labels, label.Admits Succeeds (· ≠ .discovered)

/-- Times that are at least an interval apart, the latest first. -/
def Spaced (interval : Nat) (times : List Nat) : Prop :=
  times.Pairwise fun later earlier => earlier + interval ≤ later

/-- No fetch is on its way, and no fetched keys are about to be cached. -/
def Quiet (phases : Nat → Option Phase) : Prop :=
  ∀ i phase, phases i = some phase → phase ≠ .fetching ∧ phase ≠ .fetched

/-- Between fetches the cache is as recent as the last fetch, and a fetch is due only when the
interval has passed. -/
structure SpacedInvariant (p : OidcProvider) (w : OidcWorld Key) (phases : Nat → Option Phase) :
    Prop where
  lock : LockInvariant w phases
  spaced : Spaced p.minRefreshInterval w.starts
  past : ∀ t ∈ w.starts, t ≤ w.now
  cached : Quiet phases → ∀ t ∈ w.starts, ∃ keys, w.cache = some keys ∧ t ≤ keys.fetchedAt
  due : ∀ i, phases i = some .due → ∀ t ∈ w.starts, t + p.minRefreshInterval ≤ w.now

section Spacing

variable {p : OidcProvider} {w w' : OidcWorld Key} {phases : Nat → Option Phase} {i : Nat}
  {phase phase' : Phase} {state : Option Phase}

theorem Quiet.of_update (h : Quiet (update phases i state))
    (hi : ∀ q, phases i = some q → q ≠ .fetching ∧ q ≠ .fetched) : Quiet phases := by
  intro j q hj
  by_cases hji : j = i
  · subst hji
    exact hi q hj
  · refine h j q ?_
    rw [update_of_ne hji, hj]

theorem not_quiet (h : phase' = .fetching ∨ phase' = .fetched) :
    ¬ Quiet (update phases i (some phase')) := by
  intro hquiet
  have hi := hquiet i phase' (update_self ..)
  rcases h with rfl | rfl
  · exact hi.1 rfl
  · exact hi.2 rfl

/-- While a task that has the lock is not in a fetch, nobody is. -/
theorem LockInvariant.quiet (h : LockInvariant w phases) (hi : phases i = some phase)
    (hne : phase ≠ .out) (hphase : phase ≠ .fetching ∧ phase ≠ .fetched) : Quiet phases := by
  intro j q hj
  by_cases hq : q = .out
  · subst hq
    simp
  · obtain rfl := h.exclusive.eq hi hne hj hq
    rw [hi, Option.some.injEq] at hj
    rwa [← hj]

/-- Only the task with the lock can be about to fetch. -/
theorem LockInvariant.not_due (h : LockInvariant w (update phases i (some phase')))
    (hout : phase' ≠ .out) (hdue : phase' ≠ .due) (j : Nat) :
    update phases i (some phase') j ≠ some .due := by
  intro hj
  have hself : update phases i (some phase') i = some phase' := update_self ..
  obtain rfl := h.exclusive.eq hself hout hj (by simp)
  rw [hself, Option.some.injEq] at hj
  exact hdue hj

/-- A step of a task other than a check, a fetch or a write of the cache. -/
theorem SpacedInvariant.keep (h : SpacedInvariant p w phases)
    (hlock : LockInvariant w' (update phases i state))
    (hi : ∀ q, phases i = some q → q ≠ .fetching ∧ q ≠ .fetched) (hstate : state ≠ some .due)
    (hnow : w.now ≤ w'.now) (hstarts : w'.starts = w.starts) (hcache : w'.cache = w.cache) :
    SpacedInvariant p w' (update phases i state) where
  lock := hlock
  spaced := hstarts ▸ h.spaced
  past t ht := Nat.le_trans (h.past t (hstarts ▸ ht)) hnow
  cached hquiet t ht := by
    rw [hcache]
    exact h.cached (hquiet.of_update hi) t (hstarts ▸ ht)
  due j hj t ht := by
    have hji : j ≠ i := by
      rintro rfl
      rw [update_self] at hj
      exact hstate hj
    rw [update_of_ne hji] at hj
    exact Nat.le_trans (h.due j hj t (hstarts ▸ ht)) hnow

/-- The check under the lock: a fetch is due only when the interval has passed since the last. -/
theorem SpacedInvariant.check (h : SpacedInvariant p w phases) (hi : phases i = some .holding)
    (hrecent : recentlyFetched p w.cache w.now = false) :
    SpacedInvariant p w (update phases i (some .due)) where
  lock := h.lock.setPhase hi (by simp) (by simp)
  spaced := h.spaced
  past := h.past
  cached hquiet := h.cached (hquiet.of_update (by simp [hi]))
  due j _ t ht := by
    have hquiet := h.lock.quiet hi (by simp) (by simp)
    obtain ⟨keys, hkeys, hle⟩ := h.cached hquiet t ht
    have hpast := h.past t ht
    simp only [recentlyFetched, hkeys, decide_eq_false_iff_not] at hrecent
    omega

theorem SpacedInvariant.start (h : SpacedInvariant p w phases) (hi : phases i = some .due) :
    SpacedInvariant p { w with starts := w.now :: w.starts, inFlight := i :: w.inFlight }
      (update phases i (some .fetching)) where
  lock := h.lock.start hi
  spaced := List.pairwise_cons.mpr ⟨h.due i hi, h.spaced⟩
  past := List.forall_mem_cons.mpr ⟨Nat.le_refl _, h.past⟩
  cached hquiet := absurd hquiet (not_quiet (.inl rfl))
  due j hj := absurd hj ((h.lock.start hi).not_due (by simp) (by simp) j)

/-- Keys that have arrived are about to be cached. -/
theorem SpacedInvariant.arrive (h : SpacedInvariant p w phases) {fetched : List (List Key × String)}
    (hlock : LockInvariant { w with inFlight := w.inFlight.erase i, fetched := fetched }
      (update phases i (some .fetched))) :
    SpacedInvariant p { w with inFlight := w.inFlight.erase i, fetched := fetched }
      (update phases i (some .fetched)) where
  lock := hlock
  spaced := h.spaced
  past := h.past
  cached hquiet := absurd hquiet (not_quiet (.inr rfl))
  due j hj := absurd hj (hlock.not_due (by simp) (by simp) j)

theorem SpacedInvariant.stored (h : SpacedInvariant p w phases) {jwks : List Key} {issuer : String}
    (hlock : LockInvariant { w with cache := some ⟨jwks, issuer, w.now⟩ }
      (update phases i (some .holding))) :
    SpacedInvariant p { w with cache := some ⟨jwks, issuer, w.now⟩ }
      (update phases i (some .holding)) where
  lock := hlock
  spaced := h.spaced
  past := h.past
  cached _ t ht := ⟨_, rfl, h.past t ht⟩
  due j hj := absurd hj (hlock.not_due (by simp) (by simp) j)

theorem SpacedInvariant.serve {c : OidcCall Key} {r : c.Reply} (h : SpacedInvariant p w phases)
    (hi : phases i = some phase) (hguard : phase.allows c) (hserve : Serves p i w c r w')
    (hsucceeds : Succeeds c r) :
    SpacedInvariant p w' (update phases i (some (phase.step p c r))) := by
  have hlock := h.lock.serve hi hguard hserve
  cases hserve with
  | cached =>
    rcases hguard with rfl | rfl
    · exact h.keep hlock (by simp [hi]) (by simp [Phase.step, Phase.afterCheck]) (Nat.le_refl _)
        rfl rfl
    · simp only [Phase.step, Phase.afterCheck] at hlock ⊢
      cases hrecent : recentlyFetched p w.cache w.now with
      | true =>
        rw [hrecent] at hlock
        exact h.keep hlock (by simp [hi]) (by simp) (Nat.le_refl _) rfl rfl
      | false => exact h.check hi hrecent
  | lockFetch hfree =>
    obtain rfl : phase = .out := hguard
    exact h.keep hlock (by simp [hi]) (by simp [Phase.step]) (Nat.le_refl _) rfl rfl
  | unlockFetch =>
    obtain rfl : phase = .holding := hguard
    exact h.keep hlock (by simp [hi]) (by simp [Phase.step]) (Nat.le_refl _) rfl rfl
  | discover =>
    obtain rfl : phase = .due := hguard
    exact h.start hi
  | discovered result _ =>
    obtain rfl : phase = .fetching := hguard
    obtain ⟨key, jwks, issuer, rfl⟩ := hsucceeds
    exact h.arrive hlock
  | store jwks issuer => exact h.stored hlock
  | systemTime time =>
    obtain rfl : phase = .out := hguard
    exact h.keep hlock (by simp [hi]) (by simp [Phase.step]) (Nat.le_refl _) rfl rfl

theorem spacedInvariant_initial (now : Nat) :
    SpacedInvariant p (OidcWorld.initial now : OidcWorld Key) fun _ => none where
  lock := lockInvariant_initial now
  spaced := List.Pairwise.nil
  past t ht := by cases ht
  cached _ t ht := by cases ht
  due i hi := by cases hi

end Spacing

theorem spacedProtocol (p : OidcProvider) (α : Type) :
    Protocol ((oidcHost p α).restrict Succeeds (· ≠ .discovered)) (fetchMonitor p)
      (fun _ : String => Phase.out) (fun _ phase _ => phase = .out)
      (SpacedInvariant p : OidcWorld Key → (Nat → Option Phase) → Prop) where
  spawn token h hfree := by
    have hlock := (lockProtocol p α).spawn token h.lock hfree
    exact h.keep hlock (by simp [hfree]) (by simp) (Nat.le_refl _) rfl rfl
  serve h hi hguard hserve := ⟨trivial, h.serve hi hguard hserve.1 hserve.2⟩
  finish {_ phases i _ _ _ w} h hi hpost hfinish := by
    subst hpost
    obtain rfl := hfinish
    have hlock : LockInvariant w (update phases i none) :=
      h.lock.setOut (by simp [hi]) (by simp)
    exact h.keep hlock (by simp [hi]) (by simp) (Nat.le_refl _) rfl rfl
  cancel {_ _ _ phase c _} h hi hguard hcancel := by
    have hlock := (lockProtocol p α).cancel h.lock hi hguard hcancel.1
    obtain ⟨⟨hawaits, rfl⟩, hne⟩ := hcancel
    -- The only other call that waits is the one for the lock.
    have hout : phase = .out := by
      cases c with
      | lockFetch => exact hguard
      | discovered => exact absurd rfl hne
      | _ => cases hawaits
    subst hout
    exact h.keep hlock (by simp [hi]) (by simp) (Nat.le_refl _) rfl rfl
  env h henv := by
    have hlock := (lockProtocol p α).env h.lock henv
    obtain ⟨later, hle, rfl⟩ := henv
    exact ⟨hlock, h.spaced, fun t ht => Nat.le_trans (h.past t ht) hle, h.cached,
      fun i hi t ht => Nat.le_trans (h.due i hi t ht) hle⟩

/-! ### Any run -/

section Runs

variable [Jose Key] {p : OidcProvider} {now : Nat} {labels : List (OidcLabel Key)}
  {s : OidcState Key}

/-- Any number of calls of `validate`, with any tokens. -/
def ValidateStep (p : OidcProvider) : OidcState Key → OidcLabel Key → OidcState Key → Prop :=
  Step (oidcHost p _) fun token => (validate p token).run

def ValidateRun (p : OidcProvider) (now : Nat) (labels : List (OidcLabel Key))
    (s : OidcState Key) : Prop :=
  Run (ValidateStep p) (.start (.initial now)) labels s

/-- At most one fetch is on its way; and as long as every fetch succeeds, fetches start at least the
configured interval apart. -/
theorem fetches_spaced (h : ValidateRun p now labels s) : s.world.inFlight.length ≤ 1 ∧
      (AllSucceed labels → Spaced p.minRefreshInterval s.world.starts) := by
  constructor
  · obtain ⟨_, hinv, _⟩ :=
      (lockProtocol p _).run holds_validate (lockInvariant_initial now) h
    exact hinv.length_inFlight
  · intro hsucceed
    obtain ⟨_, hinv, _⟩ := (spacedProtocol p _).run holds_validate
      (spacedInvariant_initial now) (run_restrict h hsucceed)
    exact hinv.spaced

end Runs

/-! Tokens that are validated one after the other. -/

/-- A segment of a token. -/
def segment (text : String) : String := String.ofList (Base64.encode (utf8Bytes text))

def plainHeader : String := "\x7b\"alg\":\"RS256\",\"kid\":\"k1\"\x7d"

/-- The JSON text of the claims. -/
def plainPayload (nbf : String) : String :=
  "\x7b\"exp\":2000,\"iss\":\"https://idp.test\",\"nbf\":" ++ nbf ++ ",\"sub\":\"alice\"\x7d"

def plainClaims (nbf : String) : Value :=
  .object [("exp", .number ⟨"2000"⟩), ("iss", .string "https://idp.test"),
    ("nbf", .number ⟨nbf⟩), ("sub", .string "alice")]

def plainParts (nbf : String) : Segments :=
  ⟨segment plainHeader, segment (plainPayload nbf), segment "signature"⟩

def plainToken (nbf : String) : String :=
  (plainParts nbf).header ++ "." ++ (plainParts nbf).payload ++ "." ++ (plainParts nbf).signature

/-- The tokens that the key has signed. -/
def plainNbfs : List String := ["500", "1000000000000.5"]

/-- Other texts than those of the two tokens are refused. -/
instance plainJose : Jose Unit where
  keyId _ := some "k1"
  verifySignature _ alg message signature :=
    if alg = "RS256" ∧ signature = utf8Bytes "signature" ∧
        ∃ nbf ∈ plainNbfs, message = (plainParts nbf).signingInput then .ok ()
    else .error "invalid signature"
  header bytes :=
    if bytes = utf8Bytes plainHeader then .ok ⟨"RS256", some "k1"⟩ else .error "invalid JSON"
  payload bytes :=
    match plainNbfs.find? fun nbf => bytes = utf8Bytes (plainPayload nbf) with
    | some nbf => .ok (plainClaims nbf)
    | none => .error "invalid JSON"
  base64Error text := text

/-- The defaults: keys are kept for five minutes and fetched at most every ten seconds. -/
def plainProvider : OidcProvider where
  issuerUrl := "https://idp.test"
  ttl := 300000000000
  minRefreshInterval := 10000000000
  audiences := []
  issuers := []
  allowedAlgorithms := []
  clockSkewSeconds := 120
  issuerUrl_ne := by simp

def second1000 : UnixTime := ⟨1000, by decide⟩

/-- No validation is under way. -/
def restingWorld (now : Nat) (cache : Option (CachedKeys Unit)) (starts : List Nat)
    (fetched : List (List Unit × String)) (told : Nat → Option UnixTime) : OidcWorld Unit :=
  ⟨now, cache, none, starts, [], fetched, told⟩

abbrev OidcLog := List (Sigma fun c : OidcCall Unit => c.Reply)

/-- The calls of a refresh, up to the result of the fetch. -/
def fetchCalls (cache : Option (CachedKeys Unit)) (now : Nat)
    (result : Except String (List Unit × String)) : OidcLog :=
  [⟨.cached, (cache, now)⟩, ⟨.lockFetch, ()⟩, ⟨.cached, (cache, now)⟩, ⟨.discover, ()⟩,
    ⟨.discovered, result⟩]

def failingCalls (now : Nat) : OidcLog :=
  fetchCalls none now (.error "timeout") ++ [⟨.unlockFetch, ()⟩, ⟨.cached, (none, now)⟩]

def plainKeys : List Unit × String := ([()], "https://idp.test")

def plainCache (now : Nat) : CachedKeys Unit := ⟨plainKeys.1, plainKeys.2, now⟩

def fetchingCalls (cache : Option (CachedKeys Unit)) (now : Nat) : OidcLog :=
  fetchCalls cache now (.ok plainKeys) ++ [⟨.store plainKeys.1 plainKeys.2, ()⟩,
    ⟨.unlockFetch, ()⟩, ⟨.cached, (some (plainCache now), now)⟩]

abbrev plainHost (α : Type) : Host (OidcCall Unit) OidcCall.Reply α (OidcWorld Unit) :=
  oidcHost plainProvider α

section Sample

variable {i now : Nat} {cache : Option (CachedKeys Unit)} {starts : List Nat}
  {fetched : List (List Unit × String)} {told : Nat → Option UnixTime}

/-- The result of a fetch arrives. -/
theorem serves_discovered {result : Except String (List Unit × String)}
    (h : ∀ keys ∈ discoveredKeys result, keys.2 = plainProvider.issuerUrl) :
    Serves plainProvider i ⟨now, cache, some i, starts, [i], fetched, told⟩ .discovered result
      ⟨now, cache, some i, starts, [], discoveredKeys result ++ fetched, told⟩ := by
  have hserve : Serves plainProvider i ⟨now, cache, some i, starts, [i], fetched, told⟩
      .discovered result _ := .discovered result h
  rwa [List.erase_cons_head] at hserve

/-- A fetch that fails leaves only its start behind. -/
theorem proceeds_failing :
    Proceeds (plainHost α) i (keys plainProvider false) (restingWorld now none starts fetched told)
      (failingCalls now) (ret (.error "OIDC discovery/JWKS fetch failed: timeout"))
      (restingWorld now none (now :: starts) fetched told) := by
  have hnone : ∀ keys ∈ discoveredKeys (.error "timeout" : Except String (List Unit × String)),
      keys.2 = plainProvider.issuerUrl := by
    simp [discoveredKeys]
  exact .serve .cached (.serve (.lockFetch rfl) (.serve .cached (.serve .discover
    (.serve (serves_discovered hnone) (.serve .unlockFetch (.serve .cached .refl))))))

theorem proceeds_fetching (hexpired : expired plainProvider cache now = true)
    (hrecent : recentlyFetched plainProvider cache now = false) :
    Proceeds (plainHost α) i (keys plainProvider false) (restingWorld now cache starts fetched told)
      (fetchingCalls cache now) (ret (.ok plainKeys))
      (restingWorld now (some (plainCache now)) (now :: starts) (plainKeys :: fetched) told) := by
  have hissuer : ∀ keys ∈ discoveredKeys (.ok plainKeys), keys.2 = plainProvider.issuerUrl := by
    simp [discoveredKeys, plainKeys, plainProvider]
  refine .serve .cached ?_
  change Proceeds _ i (if expired plainProvider cache now = true then refreshedKeys plainProvider
    else currentKeys) _ _ _ _
  rw [if_pos hexpired]
  refine .serve (.lockFetch rfl) (.serve .cached ?_)
  change Proceeds _ i ((((if recentlyFetched plainProvider cache now = true then ret (.ok ())
    else fetchKeys) >>= fun result => OidcRun.unlockFetch >>= fun _ => ret result) >>=
      keysAfter)) _ _ _ _
  rw [if_neg (by simp [hrecent])]
  exact .serve .discover (.serve (serves_discovered hissuer) (.serve (.store _ _)
    (.serve .unlockFetch (.serve .cached .refl))))

theorem decodeSegment_segment (error text : String) :
    decodeSegment Unit error (segment text) = .ok (utf8Bytes text) := by
  rw [decodeSegment, segment, String.toList_ofList, Base64.decode_encode]

theorem split_plain (nbf : String) : splitToken (plainToken nbf) = .ok (plainParts nbf) := by
  have hdot : ∀ text, '.' ∉ (segment text).toList := by
    intro text hmem
    rw [segment, String.toList_ofList] at hmem
    exact absurd (Base64.mem_alphabet_of_mem_encode hmem) (by decide)
  have htoken : (plainToken nbf).toList = ['.'].intercalate [(plainParts nbf).header.toList,
      (plainParts nbf).payload.toList, (plainParts nbf).signature.toList] := by
    simp [plainToken, List.intercalate]
  rw [splitToken, htoken, List.splitOn_intercalate '.' (by simp [plainParts, hdot]) (by simp)]
  simp

theorem header_plain (nbf : String) :
    readHeader Unit (plainParts nbf).header = .ok ⟨"RS256", some "k1"⟩ := by
  have hread : Jose.header Unit (utf8Bytes plainHeader) = .ok ⟨"RS256", some "k1"⟩ := if_pos rfl
  rw [readHeader, plainParts, decodeSegment_segment, Fallible.ok_bind, hread]
  rfl

theorem algorithm_plain : checkAlgorithm plainProvider "RS256" = .ok () := by decide +kernel

variable {nbf : String}

/-- Both tokens are signed by the key. -/
theorem verify_plain (hnbf : nbf ∈ plainNbfs) : verifyWithJwks plainKeys.1 "RS256" (some "k1")
    (plainParts nbf).signingInput (utf8Bytes "signature") = .ok () := by
  have hsigned : Jose.verifySignature () "RS256" (plainParts nbf).signingInput
      (utf8Bytes "signature") = .ok () := if_pos ⟨rfl, rfl, nbf, hnbf, rfl⟩
  have hmatches : plainKeys.1.filter (keyMatches (some "k1")) = [()] := by decide
  rw [verifyWithJwks, hmatches, if_neg (by simp), verifyWithAny, hsigned]

/-- A validation that cannot get any keys. -/
theorem proceeds_validate_failing :
    Proceeds (plainHost (Except String OidcClaims)) i (validate plainProvider (plainToken "500")).run
      (restingWorld now none starts fetched told)
      (failingCalls now ++ []) (ret (.error "OIDC discovery/JWKS fetch failed: timeout"))
      (restingWorld now none (now :: starts) fetched told) := by
  rw [validate, run_lift_bind (split_plain _), run_lift_bind (header_plain _),
    run_lift_bind algorithm_plain]
  exact proceeds_failing.bind .refl

theorem signature_plain (nbf : String) :
    decodeSegment Unit "Invalid signature encoding: " (plainParts nbf).signature =
      .ok (utf8Bytes "signature") :=
  decodeSegment_segment _ _

theorem payload_plain (hnbf : nbf ∈ plainNbfs) :
    readPayload Unit (plainParts nbf).payload = .ok (plainClaims nbf) := by
  have hfind : ∀ nbf ∈ plainNbfs, plainNbfs.find? (fun other =>
      utf8Bytes (plainPayload nbf) = utf8Bytes (plainPayload other)) = some nbf := by
    decide +kernel
  have hread : Jose.payload Unit (utf8Bytes (plainPayload nbf)) = .ok (plainClaims nbf) := by
    dsimp only [Jose.payload]
    rw [hfind nbf hnbf]
  rw [readPayload, plainParts, decodeSegment_segment, Fallible.ok_bind, hread]
  rfl

theorem run_verifyOrRefresh (hnbf : nbf ∈ plainNbfs)
    {rest : String → ExceptT String (OidcRun Unit) α} :
    (verifyOrRefresh plainProvider ⟨"RS256", some "k1"⟩ (plainParts nbf).signingInput
      (utf8Bytes "signature") plainKeys >>= rest).run = (rest plainKeys.2).run := by
  rw [verifyOrRefresh, verify_plain hnbf]
  rfl

/-- A validation that gets keys. -/
theorem proceeds_validate_fetching (hnbf : nbf ∈ plainNbfs)
    (hexpired : expired plainProvider cache now = true)
    (hrecent : recentlyFetched plainProvider cache now = false)
    (hvalid : validateClaims plainProvider (plainClaims nbf) plainKeys.2 (some second1000) =
      .ok ()) : Proceeds (plainHost α) i (validate plainProvider (plainToken nbf)).run
      (restingWorld now cache starts fetched told)
      (fetchingCalls cache now ++ [⟨.systemTime, some second1000⟩])
      (ret (.ok (OidcClaims.of (plainClaims nbf))))
      (restingWorld now (some (plainCache now)) (now :: starts) (plainKeys :: fetched)
        (update told i (some second1000))) := by
  rw [validate, run_lift_bind (split_plain nbf), run_lift_bind (header_plain nbf),
    run_lift_bind algorithm_plain]
  refine (proceeds_fetching hexpired hrecent).bind ?_
  change Proceeds _ i (ExceptT.run (do
    let signature ← liftM (decodeSegment Unit "Invalid signature encoding: "
      (plainParts nbf).signature)
    _)) _ _ _ _
  rw [run_lift_bind (signature_plain nbf), run_verifyOrRefresh hnbf,
    run_lift_bind (payload_plain hnbf)]
  refine .serve (.systemTime (some second1000)) ?_
  change Proceeds _ i (ExceptT.run (do
    liftM (validateClaims plainProvider (plainClaims nbf) plainKeys.2 (some second1000))
    _)) _ _ _ _
  rw [run_lift_bind hvalid]
  exact .refl

end Sample

/-- A failed fetch is not counted: the next validation of the token fetches again at once. -/
theorem failed_fetch_repeated : ∃ labels, ∃ s : OidcState Unit,
    ValidateRun plainProvider 0 labels s ∧
      (∀ i token, .spawn i token ∈ labels → token = plainToken "500") ∧
      s.world.starts = [0, 0] ∧ ¬ Spaced plainProvider.minRefreshInterval s.world.starts := by
  have hrun (starts : List Nat) : ∃ labels,
      (∀ i token, .spawn i token ∈ labels → token = plainToken "500") ∧
      Run (ValidateStep plainProvider) (.start (restingWorld 0 none starts [] fun _ => none)) labels
        (.start (restingWorld 0 none (0 :: starts) [] fun _ => none) : OidcState Unit) := by
    refine ⟨_, ?_, (proceeds_validate_failing (i := 0)).run rfl rfl⟩
    simp [failingCalls, fetchCalls]
  obtain ⟨first, htoken, hfirst⟩ := hrun []
  obtain ⟨second, htoken', hsecond⟩ := hrun [0]
  refine ⟨first ++ second, _, hfirst.append hsecond, ?_, rfl, ?_⟩
  · intro i token hspawn
    exact (List.mem_append.mp hspawn).elim (htoken i token) (htoken' i token)
  · intro hspaced
    exact absurd (List.rel_of_pairwise_cons hspaced (List.mem_singleton.mpr rfl)) (by decide)

theorem run_fetching (now : Nat) (cache : Option (CachedKeys Unit)) (starts : List Nat)
    (fetched : List (List Unit × String)) (told : Nat → Option UnixTime)
    (hexpired : expired plainProvider cache now = true)
    (hrecent : recentlyFetched plainProvider cache now = false) :
    ∃ labels, AllSucceed labels ∧ Run (ValidateStep plainProvider)
      (.start (restingWorld now cache starts fetched told)) labels
      (.start (restingWorld now (some (plainCache now)) (now :: starts) (plainKeys :: fetched)
        (update told 0 (some second1000))) : OidcState Unit) := by
  have hvalid : validateClaims plainProvider (plainClaims "500") plainKeys.2 (some second1000) =
      .ok () := by decide +kernel
  refine ⟨_, ?_,
    (proceeds_validate_fetching (i := 0) (by decide) hexpired hrecent hvalid).run rfl rfl⟩
  simp [AllSucceed, Label.Admits, fetchingCalls, fetchCalls, Succeeds, plainKeys]

/-- Two validations that fetch, the second one when the keys have expired. -/
theorem fetches_spaced_twice : ∃ labels, ∃ s : OidcState Unit,
    ValidateRun plainProvider 0 labels s ∧ s.world.starts = [300000000000, 0] ∧
      s.world.inFlight.length ≤ 1 ∧ Spaced plainProvider.minRefreshInterval s.world.starts := by
  obtain ⟨first, hfirstOk, hfirst⟩ := run_fetching 0 none [] [] (fun _ => none) rfl rfl
  obtain ⟨second, hsecondOk, hsecond⟩ := run_fetching 300000000000 (some (plainCache 0)) [0]
    [plainKeys] (update (fun _ => none) 0 (some second1000)) rfl rfl
  have hok : AllSucceed (first ++ .env :: second) :=
    List.forall_mem_append.mpr ⟨hfirstOk, List.forall_mem_cons.mpr ⟨trivial, hsecondOk⟩⟩
  -- between them the clock goes on
  have hrun := hfirst.append (.step (.env ⟨300000000000, by simp [State.start, restingWorld], rfl⟩)
    hsecond)
  exact ⟨_, _, hrun, rfl, (fetches_spaced hrun).1, (fetches_spaced hrun).2 hok⟩

end EdgionCenter.Oidc
