import EdgionCenter.Auth.Refresh
import EdgionCenter.Lib.MachineInt
import Mathlib.Data.List.TakeWhile
import Mathlib.Tactic.Linarith

/-! What is known of a token that a validation accepted. -/
namespace EdgionCenter.Oidc

open Fallible Function Interaction MachineInt Tasks Transition

/-! ### The policy -/

/-- The value of a number without its sign. -/
def magnitude (cs : List Char) : ℚ :=
  let rest := cs.dropWhile Char.isDigit
  let fraction := match rest with
    | '.' :: digits => digits.takeWhile Char.isDigit
    | _ => []
  let exponent : ℤ := match rest.dropWhile fun c => c == '.' || c.isDigit with
    | _ :: '-' :: digits => -Decimal.value digits
    | _ :: '+' :: digits | _ :: digits => Decimal.value digits
    | [] => 0
  Decimal.value (cs.takeWhile Char.isDigit ++ fraction) * (10 : ℚ) ^ (exponent - fraction.length)

/-- The value of a number from its text. -/
def signedValue : List Char → ℚ
  | '-' :: cs => -magnitude cs
  | '+' :: cs | cs => magnitude cs

def numberValue (n : Number) : ℚ := signedValue n.text.toList

/-- A claim that is a number. -/
def NumericClaim (claims : Value) (name : String) (n : Number) : Prop :=
  claims.get name = some (.number n)

/-- One of the audiences of a token, which has a text or an array of texts. -/
def HasAudience (claims : Value) (audience : String) : Prop :=
  claims.get "aud" = some (.string audience) ∨
    ∃ items, claims.get "aud" = some (.array items) ∧ .string audience ∈ items

/-- Not empty, bounded, and without control characters. -/
structure WellFormed (maxBytes : Nat) (text : String) : Prop where
  nonempty : text ≠ ""
  bounded : utf8Len text.toList ≤ maxBytes
  printable : ∀ c ∈ text.toList, isControl c = false

/-- What a token says. -/
structure Contents (Key : Type) [Jose Key] (token : String) where
  parts : Segments
  header : JoseHeader
  signature : List UInt8
  claims : Value
  split : splitToken token = .ok parts
  readsHeader : readHeader Key parts.header = .ok header
  readsSignature : decodeSegment Key "Invalid signature encoding: " parts.signature = .ok signature
  readsPayload : readPayload Key parts.payload = .ok claims

/-- The policy for a token that is used at a time, apart from `nbf`; the keys were fetched together
with the issuer. -/
structure MeetsPolicy {Key : Type} [Jose Key] (state : AuthMiddlewareState) {token : String}
    (t : Contents Key token) (keys : List Key × String) (now : UnixTime)
    (accepted : UnifiedAuthClaims) : Prop where
  notNone : eqIgnoreAsciiCase t.header.alg "none" = false
  algorithm : ∃ alg ∈ state.provider.allowed, eqIgnoreAsciiCase alg t.header.alg = true
  signature : ∃ key ∈ keys.1, (∀ kid, t.header.kid = some kid → Jose.keyId key = some kid) ∧
    Jose.verifySignature key t.header.alg t.parts.signingInput t.signature = .ok ()
  exp : ∃ n, NumericClaim t.claims "exp" n ∧
    (now.secs.toNat : ℚ) - state.provider.clockSkewSeconds.toNat ≤ numberValue n
  audience : state.provider.audiences = [] ∨
    ∃ audience ∈ state.provider.audiences, HasAudience t.claims audience
  issuer : accepted.iss ∈ state.provider.issuers ∨
    state.provider.issuers = [] ∧ accepted.iss = keys.2
  claims : accepted.claims = t.claims ∧ claimStr t.claims "sub" = some accepted.sub ∧
    claimStr t.claims "iss" = some accepted.iss
  sub : WellFormed 255 accepted.sub
  iss : WellFormed 2048 accepted.iss
  groups : accepted.groups.length ≤ 256 ∧ ∀ group ∈ accepted.groups, WellFormed 256 group

/-- The token may be used: its `nbf`, if it has one, has come. -/
def NotBefore (state : AuthMiddlewareState) (claims : Value) (now : UnixTime) : Prop :=
  ∀ n, NumericClaim claims "nbf" n →
    numberValue n ≤ now.secs.toNat + state.provider.clockSkewSeconds.toNat

/-! ### The checks -/

section Checks

variable {p : OidcProvider} {claims : Value} {now : UnixTime} {cs : List Char} {x : Int64}

theorem magnitude_of_parseDigits {bound n : Nat} (h : Decimal.parseDigits bound cs = some n) :
    n < bound ∧ magnitude cs = n := by
  simp only [Decimal.parseDigits, Option.ite_none_right_eq_some, Option.some.injEq] at h
  obtain ⟨⟨-, hall, hlt⟩, rfl⟩ := h
  rw [List.all_eq_true] at hall
  have htake : cs.takeWhile Char.isDigit = cs := List.takeWhile_eq_self_iff.mpr hall
  have hdrop : cs.dropWhile Char.isDigit = [] := List.dropWhile_eq_nil_iff.mpr hall
  exact ⟨hlt, by simp [magnitude, htake, hdrop]⟩

theorem signedValue_of_parseI64 (h : parseI64 cs = some x) : signedValue cs = x.toInt := by
  unfold parseI64 at h
  split at h <;> obtain ⟨n, hn, rfl⟩ := Option.map_eq_some_iff.mp h <;>
    obtain ⟨hlt, hn⟩ := magnitude_of_parseDigits hn <;>
    rw [Int64.toInt_ofInt_of_le (by omega) (by omega), signedValue]
  · rw [hn, Int.cast_neg, Int.cast_natCast]
  · rw [hn, Int.cast_natCast]
  · rw [hn, Int.cast_natCast]
  all_goals assumption

theorem numericClaim_of_i64 {name : String} (h : claimI64 claims name = some x) :
    ∃ n, NumericClaim claims name n ∧ numberValue n = x.toInt := by
  obtain ⟨value, hvalue, hx⟩ := Option.bind_eq_some_iff.mp h
  cases value with
  | number number => exact ⟨number, hvalue, signedValue_of_parseI64 hx⟩
  | _ => cases hx

/-- The sum with the leeway wraps around downwards if at all. -/
theorem exp_of_check {exp : Int64} (h : ¬ exp + p.leeway < now.secs.toInt64) :
    (now.secs.toNat : ℤ) ≤ exp.toInt + p.clockSkewSeconds.toNat := by
  have hlow := exp.le_toInt
  rw [Int64.lt_iff_toInt_lt, toInt_toInt64_of_lt now.bound, Int64.toInt_add, OidcProvider.leeway,
    toInt_toInt64, Int.add_bmod_bmod, Int.bmod_def] at h
  split at h <;> omega

/-- The difference wraps around upwards if at all. -/
theorem nbf_of_check {nbf : Int64} (h : ¬ now.secs.toInt64 < nbf - p.leeway) :
    nbf.toInt ≤ now.secs.toNat + p.clockSkewSeconds.toNat := by
  have hhigh := nbf.toInt_lt
  rw [Int64.lt_iff_toInt_lt, toInt_toInt64_of_lt now.bound, Int64.toInt_sub, OidcProvider.leeway,
    toInt_toInt64, Int.sub_bmod_bmod, Int.bmod_def] at h
  split at h <;> omega

theorem exp_of_checkExp (h : checkExp p claims now.secs.toInt64 = .ok ()) :
    ∃ n, NumericClaim claims "exp" n ∧
      (now.secs.toNat : ℚ) - p.clockSkewSeconds.toNat ≤ numberValue n := by
  unfold checkExp at h
  split at h
  · rename_i exp hexp
    obtain ⟨n, hn, hvalue⟩ := numericClaim_of_i64 hexp
    refine ⟨n, hn, ?_⟩
    have hle := exp_of_check (require_eq_ok.mp h)
    have hcast : (now.secs.toNat : ℚ) ≤ exp.toInt + p.clockSkewSeconds.toNat := by exact_mod_cast hle
    rw [hvalue]
    linarith
  · cases h

/-- An `nbf` that is read as an integer is checked. -/
theorem nbf_of_checkNbf (h : checkNbf p claims now.secs.toInt64 = .ok ()) {n : Number}
    (hn : NumericClaim claims "nbf" n) (hread : asI64 (.number n) ≠ none) :
    numberValue n ≤ now.secs.toNat + p.clockSkewSeconds.toNat := by
  obtain ⟨nbf, hnbf⟩ := Option.ne_none_iff_exists'.mp hread
  have hclaim : claimI64 claims "nbf" = some nbf := by rw [claimI64, hn, Option.bind_some, hnbf]
  rw [checkNbf, hclaim] at h
  obtain ⟨n', hn', hvalue⟩ := numericClaim_of_i64 hclaim
  have hsame : n' = n := by
    have heq := hn'.symm.trans hn
    cases heq
    rfl
  rw [← hsame, hvalue]
  exact_mod_cast nbf_of_check (require_eq_ok.mp h)

theorem audience_of_checkAud (h : checkAud p claims = .ok ()) :
    p.audiences = [] ∨ ∃ audience ∈ p.audiences, HasAudience claims audience := by
  unfold checkAud at h
  split_ifs at h with hnone
  · exact .inl hnone
  · obtain ⟨audience, haud, hmem⟩ := require_eq_ok.mp h
    refine .inr ⟨audience, hmem, ?_⟩
    unfold extractAudiences at haud
    split at haud
    · rename_i text htext
      rw [List.mem_singleton.mp haud]
      exact .inl htext
    · rename_i items hitems
      obtain ⟨item, hitem, htext⟩ := List.mem_filterMap.mp haud
      refine .inr ⟨items, hitems, ?_⟩
      cases item with
      | string text =>
        cases htext
        exact hitem
      | _ => cases htext
    · cases haud

theorem issuer_of_checkIss {discoveryIssuer : String} (hne : discoveryIssuer ≠ "")
    (h : checkIss p claims discoveryIssuer = .ok ()) : ∃ iss, claimStr claims "iss" = some iss ∧
      (iss ∈ p.issuers ∨ p.issuers = [] ∧ iss = discoveryIssuer) := by
  unfold checkIss issuerIs at h
  split_ifs at h with hissuers
  · rw [require_eq_ok] at h
    split at h
    · rename_i iss hiss
      exact ⟨iss, hiss, .inl (by simpa using h)⟩
    · cases h
  · rw [require_eq_ok] at h
    split at h
    · rename_i iss hiss
      exact ⟨iss, hiss, .inr ⟨not_not.mp hissuers, by simpa using h⟩⟩
    · cases h

end Checks

section Signature

variable {Key : Type} [Jose Key] {alg : String} {message signature : List UInt8}

theorem exists_of_verifyWithAny {keys : List Key} {error : String}
    (h : verifyWithAny alg message signature keys error = .ok ()) :
    ∃ key ∈ keys, Jose.verifySignature key alg message signature = .ok () := by
  induction keys generalizing error with
  | nil => cases h
  | cons key rest ih =>
    unfold verifyWithAny at h
    split at h
    · rename_i hkey
      exact ⟨key, List.mem_cons_self, hkey⟩
    · obtain ⟨other, hother, hverified⟩ := ih h
      exact ⟨other, List.mem_cons_of_mem _ hother, hverified⟩

theorem exists_of_verifyWithJwks {jwks : List Key} {kid : Option String}
    (h : verifyWithJwks jwks alg kid message signature = .ok ()) :
    ∃ key ∈ jwks, (∀ k, kid = some k → Jose.keyId key = some k) ∧
      Jose.verifySignature key alg message signature = .ok () := by
  unfold verifyWithJwks at h
  split_ifs at h
  obtain ⟨key, hkey, hverified⟩ := exists_of_verifyWithAny h
  obtain ⟨hmem, hmatches⟩ := List.mem_filter.mp hkey
  refine ⟨key, hmem, ?_, hverified⟩
  rintro k rfl
  unfold keyMatches at hmatches
  split at hmatches
  · rename_i keyKid jwtKid hkid heq
    cases heq
    rw [hkid, beq_iff_eq.mp hmatches]
  · rename_i heq
    cases heq
  · cases hmatches

end Signature

section Identity

theorem wellFormed_of_claim {name value : String} {claim : Option String} {maxBytes : Nat}
    (h : validatedIdentityClaim name claim maxBytes = .ok value) :
    claim = some value ∧ WellFormed maxBytes value := by
  unfold validatedIdentityClaim at h
  split at h
  · cases h
  · simp only [bind_eq_ok, exists_unit, require_eq_ok, pure_eq_ok] at h
    obtain ⟨⟨hne, hlength, hcontrol⟩, rfl⟩ := h
    exact ⟨rfl, hne, hlength, fun c hc => by simpa using List.any_eq_false.mp hcontrol c hc⟩

variable {claimName : String}

theorem wellFormed_of_group {group : String} {value : Value}
    (h : readGroup claimName value = .ok group) : WellFormed 256 group := by
  unfold readGroup at h
  split at h
  · cases h
  · simp only [bind_eq_ok, exists_unit, require_eq_ok, pure_eq_ok] at h
    obtain ⟨⟨hne, hlength, hcontrol⟩, rfl⟩ := h
    exact ⟨hne, hlength, fun c hc => by simpa using List.any_eq_false.mp hcontrol c hc⟩

theorem length_eraseDups_le (groups : List String) : groups.eraseDups.length ≤ groups.length := by
  induction hn : groups.length using Nat.strong_induction_on generalizing groups with
  | _ n ih =>
    cases groups with
    | nil => simp
    | cons group rest =>
      have hfilter := List.length_filter_le (fun other => !other == group) rest
      rw [List.length_cons] at hn
      have hrest := ih (rest.filter fun other => !other == group).length (by omega) _ rfl
      rw [List.eraseDups_cons, List.length_cons]
      omega

theorem groups_wellFormed {claims : Value} {groups : List String}
    (h : extractValidatedGroups claims claimName = .ok groups) :
    groups.length ≤ 256 ∧ ∀ group ∈ groups, WellFormed 256 group := by
  unfold extractValidatedGroups at h
  split at h
  · cases h
    simp
  · split at h
    · cases h
    · simp only [bind_eq_ok, exists_unit, require_eq_ok, pure_eq_ok] at h
      obtain ⟨hlength, read, hread, rfl⟩ := h
      have hforall := mapM_eq_ok.mp hread
      constructor
      · have hle := length_eraseDups_le read
        rw [← hforall.length_eq] at hle
        exact hle.trans hlength
      · intro group hgroup
        obtain ⟨value, -, hvalue⟩ := exists_of_forall₂ hforall (List.mem_eraseDups.mp hgroup)
        exact wellFormed_of_group hvalue

end Identity

/-! ### One validation -/

/-- What a task has learnt: the keys that it read from the cache, what its fetch returned, and the
time. -/
structure Learnt (Key : Type) where
  seen : List (List Key × String)
  got : Option (List Key × String)
  time : Option UnixTime

namespace Learnt

variable {Key : Type}

def nothing : Learnt Key := ⟨[], none, none⟩

def cachedKeys (cached : Option (CachedKeys Key)) : List (List Key × String) :=
  (cached.map fun keys => (keys.jwks, keys.issuer)).toList

def step (s : Learnt Key) : (c : OidcCall Key) → c.Reply → Learnt Key
  | .cached, r => { s with seen := cachedKeys r.1 ++ s.seen }
  | .discovered, r => { s with got := r.toOption }
  | .systemTime, r => { s with time := r }
  | .lockFetch, _ | .unlockFetch, _ | .discover, _ | .store .., _ => s

/-- Only what a fetch returned is put into the cache. -/
def allows (s : Learnt Key) : OidcCall Key → Prop
  | .store jwks issuer => s.got = some (jwks, issuer)
  | _ => True

end Learnt

def learnMonitor (Key : Type) : Monitor (OidcCall Key) OidcCall.Reply (Learnt Key) where
  step := Learnt.step
  guard := Learnt.allows
  rely _ _ _ := True

section One

variable {Key : Type} {p : OidcProvider} {s : Learnt Key}

theorem learns_cacheKeys {result : Except String (List Key × String)} (h : s.got = result.toOption) :
    Holds (learnMonitor Key) (cacheKeys result) (fun _ _ => True) s := by
  rcases result with e | ⟨_ | ⟨key, jwks⟩, issuer⟩
  · trivial
  · trivial
  · exact ⟨h, fun _ _ => trivial⟩

theorem learns_fetchUnlessRecent :
    Holds (learnMonitor Key) (fetchUnlessRecent p) (fun _ _ => True) s := by
  refine ⟨trivial, ?_⟩
  intro cached _
  change Holds (learnMonitor Key) (if recentlyFetched p cached.1 cached.2 = true then ret (.ok ())
    else fetchKeys) _ _
  split
  · trivial
  · exact ⟨trivial, fun _ _ => ⟨trivial, fun result _ => learns_cacheKeys rfl⟩⟩

theorem learns_fetchAndCache : Holds (learnMonitor Key) (fetchAndCache p) (fun _ _ => True) s := by
  refine ⟨trivial, ?_⟩
  intro _ _
  change Holds (learnMonitor Key) (fetchUnlessRecent p >>= fun result =>
    OidcRun.unlockFetch >>= fun _ => ret result) _ s
  rw [holds_bind]
  exact learns_fetchUnlessRecent.imp fun _ _ _ => ⟨trivial, fun _ _ => trivial⟩

/-- The keys that are used were read from the cache. -/
def FromCache (s : Learnt Key) (r : Except String (List Key × String)) : Prop :=
  ∀ keys, r = .ok keys → keys ∈ s.seen

theorem learns_currentKeys : Holds (learnMonitor Key) currentKeys FromCache s := by
  refine ⟨trivial, ?_⟩
  rintro ⟨cached, now⟩ _ keys hkeys
  cases cached with
  | none => cases hkeys
  | some cached =>
    cases hkeys
    exact List.mem_append_left _ (List.mem_singleton.mpr rfl)

theorem learns_refreshedKeys : Holds (learnMonitor Key) (refreshedKeys p) FromCache s := by
  rw [refreshedKeys, holds_bind]
  refine learns_fetchAndCache.imp ?_
  rintro s (e | _) -
  · refine ⟨trivial, ?_⟩
    intro cached _
    change Holds (learnMonitor Key) (if cached.1.isNone = true then ret (.error e)
      else currentKeys) _ _
    split
    · intro keys hkeys
      cases hkeys
    · exact learns_currentKeys
  · exact learns_currentKeys

theorem learns_keys (force : Bool) :
    HoldsOk (learnMonitor Key) (ExceptT.mk (keys p force)) (fun s keys => keys ∈ s.seen) s := by
  change Holds (learnMonitor Key) (keys p force) FromCache s
  unfold keys
  split
  · exact learns_refreshedKeys
  · refine ⟨trivial, ?_⟩
    intro cached _
    change Holds (learnMonitor Key) (if expired p cached.1 cached.2 = true then refreshedKeys p
      else currentKeys) _ _
    split
    · exact learns_refreshedKeys
    · exact learns_currentKeys

variable [Jose Key] {state : AuthMiddlewareState} {token : String}

/-- The keys of a set that was read from the cache verify the signature. -/
def Verified (s : Learnt Key) (header : JoseHeader) (message signature : List UInt8)
    (issuer : String) : Prop :=
  ∃ jwks, (jwks, issuer) ∈ s.seen ∧
    verifyWithJwks jwks header.alg header.kid message signature = .ok ()

theorem learns_verifyOrRefresh {header : JoseHeader} {message signature : List UInt8}
    {discovery : List Key × String} (h : discovery ∈ s.seen) :
    HoldsOk (learnMonitor Key) (verifyOrRefresh p header message signature discovery)
      (fun s issuer => Verified s header message signature issuer) s := by
  unfold verifyOrRefresh
  split
  · rename_i hverified
    exact holdsOk_pure ⟨discovery.1, h, hverified⟩
  · refine (learns_keys true).bind ?_
    intro s refreshed hseen
    refine holdsOk_lift_bind ?_
    intro _ hverified
    exact holdsOk_pure ⟨refreshed.1, hseen, mapError_eq_ok.mp hverified⟩
  · exact holdsOk_throw

/-- What a validation has checked when it succeeds. -/
structure Checked (p : OidcProvider) {token : String} (t : Contents Key token)
    (keys : List Key × String) (now : UnixTime) : Prop where
  algorithm : checkAlgorithm p t.header.alg = .ok ()
  verified : verifyWithJwks keys.1 t.header.alg t.header.kid t.parts.signingInput t.signature = .ok ()
  claims : validateClaims p t.claims keys.2 (some now) = .ok ()

theorem learns_validate :
    HoldsOk (learnMonitor Key) (validate p token) (fun s claims => ∃ t : Contents Key token,
      ∃ keys ∈ s.seen, ∃ now, s.time = some now ∧ Checked p t keys now ∧
        claims = OidcClaims.of t.claims) s := by
  refine holdsOk_lift_bind ?_
  intro parts hsplit
  refine holdsOk_lift_bind ?_
  intro header hheader
  refine holdsOk_lift_bind ?_
  intro _ halgorithm
  refine (learns_keys false).bind ?_
  intro s discovery hseen
  refine holdsOk_lift_bind ?_
  intro signature hsignature
  refine (learns_verifyOrRefresh hseen).bind ?_
  rintro s issuer ⟨jwks, hjwks, hverified⟩
  refine holdsOk_lift_bind ?_
  intro claims hclaims
  refine holdsOk_ask_bind trivial ?_
  intro time _
  refine holdsOk_lift_bind ?_
  intro _ hvalid
  cases time with
  | none => cases hvalid
  | some now =>
    exact holdsOk_pure ⟨⟨parts, header, signature, claims, hsplit, hheader, hsignature, hclaims⟩,
      (jwks, issuer), hjwks, now, rfl, ⟨halgorithm, hverified, hvalid⟩, rfl⟩

/-- What is known of a token when it is accepted, given that the issuer of its keys is not empty. -/
theorem meetsPolicy_of_checked {t : Contents Key token} {keys : List Key × String} {now : UnixTime}
    {accepted : UnifiedAuthClaims} (h : Checked state.provider t keys now) (hissuer : keys.2 ≠ "")
    (haccepted : unifiedClaims state.groupsClaim (OidcClaims.of t.claims) = .ok accepted) :
    MeetsPolicy state t keys now accepted := by
  obtain ⟨halgorithm, hverified, hclaims⟩ := h
  simp only [checkAlgorithm, bind_eq_ok, exists_unit, require_eq_ok] at halgorithm
  obtain ⟨hnone, hallowed, -⟩ := halgorithm
  simp only [validateClaims, bind_eq_ok, exists_unit] at hclaims
  obtain ⟨hexp, -, haud, hiss⟩ := hclaims
  simp only [unifiedClaims, bind_eq_ok, pure_eq_ok] at haccepted
  obtain ⟨sub, hsub, iss, hissClaim, groups, hgroups, rfl⟩ := haccepted
  obtain ⟨hsubClaim, hsubFormed⟩ := wellFormed_of_claim hsub
  obtain ⟨hissClaim, hissFormed⟩ := wellFormed_of_claim hissClaim
  obtain ⟨iss', hiss', hissuerOk⟩ := issuer_of_checkIss hissuer hiss
  have hsame : iss' = iss := Option.some.inj (hiss'.symm.trans hissClaim)
  subst hsame
  exact {
    notNone := hnone
    algorithm := by simpa using hallowed
    signature := exists_of_verifyWithJwks hverified
    exp := exp_of_checkExp hexp
    audience := audience_of_checkAud haud
    issuer := hissuerOk
    claims := ⟨rfl, hsubClaim, hissClaim⟩
    sub := hsubFormed
    iss := hissFormed
    groups := groups_wellFormed hgroups }

/-- The task accepts the token with keys that it has read and at the time it was told. -/
def Accepts (state : AuthMiddlewareState) (token : String) (s : Learnt Key)
    (accepted : UnifiedAuthClaims) : Prop :=
  ∃ t : Contents Key token, ∃ keys ∈ s.seen, ∃ now, s.time = some now ∧
    Checked state.provider t keys now ∧
    unifiedClaims state.groupsClaim (OidcClaims.of t.claims) = .ok accepted

def AcceptsIf (state : AuthMiddlewareState) (token : String) (s : Learnt Key)
    (r : Except String UnifiedAuthClaims) : Prop :=
  ∀ accepted, r = .ok accepted → Accepts state token s accepted

theorem learns_tryOidcValidation :
    Holds (learnMonitor Key) (tryOidcValidation state token).run (AcceptsIf state token) s := by
  refine learns_validate.bind ?_
  rintro s claims ⟨t, keys, hkeys, now, hnow, hchecked, rfl⟩
  exact holdsOk_lift fun accepted haccepted => ⟨t, keys, hkeys, now, hnow, hchecked, haccepted⟩

end One

/-! ### All validations -/

/-- What a task has learnt is true. -/
structure Knows {Key : Type} (w : OidcWorld Key) (i : Nat) (s : Learnt Key) : Prop where
  seen : ∀ keys ∈ s.seen, keys ∈ w.fetched
  got : ∀ keys, s.got = some keys → keys ∈ w.fetched
  time : ∀ now, s.time = some now → w.told i = some now

/-- The cache holds what some fetch returned, keys and issuer together. -/
structure CacheInvariant {Key : Type} (p : OidcProvider) (w : OidcWorld Key)
    (states : Nat → Option (Learnt Key)) : Prop where
  issuers : ∀ keys ∈ w.fetched, keys.2 = p.issuerUrl
  cache : ∀ keys ∈ Learnt.cachedKeys w.cache, keys ∈ w.fetched
  knows : ∀ i s, states i = some s → Knows w i s

section All

variable {Key : Type} {p : OidcProvider} {w w' : OidcWorld Key}
  {states : Nat → Option (Learnt Key)} {i j : Nat} {s s' : Learnt Key}

/-- What others fetch or are told does not make it wrong. -/
theorem Knows.mono (h : Knows w j s) (hfetched : ∀ keys ∈ w.fetched, keys ∈ w'.fetched)
    (htold : w'.told j = w.told j) : Knows w' j s :=
  ⟨fun keys hkeys => hfetched keys (h.seen keys hkeys),
    fun keys hkeys => hfetched keys (h.got keys hkeys),
    fun now hnow => htold.trans (h.time now hnow)⟩

theorem knows_update {state : Option (Learnt Key)} (h : ∀ i s, states i = some s → Knows w i s)
    (hself : ∀ s, state = some s → Knows w' i s)
    (hfetched : ∀ keys ∈ w.fetched, keys ∈ w'.fetched) (htold : ∀ j, j ≠ i → w'.told j = w.told j)
    (j : Nat) (s : Learnt Key) (hj : update states i state j = some s) : Knows w' j s := by
  by_cases hji : j = i
  · subst hji
    rw [update_self] at hj
    exact hself s hj
  · rw [update_of_ne hji] at hj
    exact (h j s hj).mono hfetched (htold j hji)

theorem CacheInvariant.serve {c : OidcCall Key} {r : c.Reply} (h : CacheInvariant p w states)
    (hi : states i = some s) (hguard : s.allows c) (hserve : Serves p i w c r w') :
    CacheInvariant p w' (update states i (some (s.step c r))) := by
  have hs := h.knows i s hi
  cases hserve with
  | cached =>
    refine ⟨h.issuers, h.cache, knows_update h.knows ?_ (fun _ hk => hk) fun _ _ => rfl⟩
    rintro _ ⟨⟩
    refine ⟨?_, hs.got, hs.time⟩
    intro keys hkeys
    exact (List.mem_append.mp hkeys).elim (h.cache keys) (hs.seen keys)
  | discovered result hissuer =>
    have hgrow : ∀ keys ∈ w.fetched, keys ∈ discoveredKeys result ++ w.fetched :=
      fun _ hk => List.mem_append_right _ hk
    refine ⟨?_, fun keys hk => hgrow keys (h.cache keys hk), knows_update h.knows ?_ hgrow
      fun _ _ => rfl⟩
    · intro keys hkeys
      exact (List.mem_append.mp hkeys).elim (hissuer keys) (h.issuers keys)
    · rintro _ ⟨⟩
      refine ⟨fun keys hk => hgrow keys (hs.seen keys hk), ?_, hs.time⟩
      intro keys hkeys
      rw [toOption_eq_some.mp hkeys]
      exact List.mem_append_left _ (List.mem_singleton.mpr rfl)
  | store jwks issuer =>
    refine ⟨h.issuers, ?_, knows_update h.knows ?_ (fun _ hk => hk) fun _ _ => rfl⟩
    · intro keys hkeys
      rw [List.mem_singleton.mp hkeys]
      exact hs.got (jwks, issuer) hguard
    · rintro _ ⟨⟩
      exact ⟨hs.seen, hs.got, hs.time⟩
  | systemTime time =>
    refine ⟨h.issuers, h.cache, knows_update h.knows ?_ (fun _ hk => hk) ?_⟩
    · rintro _ ⟨⟩
      exact ⟨hs.seen, hs.got, fun now hnow => (update_self ..).trans hnow⟩
    · exact fun j hj => update_of_ne hj ..
  | lockFetch | unlockFetch | discover =>
    refine ⟨h.issuers, h.cache, knows_update h.knows ?_ (fun _ hk => hk) fun _ _ => rfl⟩
    rintro _ ⟨⟩
    exact ⟨hs.seen, hs.got, hs.time⟩

theorem knows_nothing : Knows w i Learnt.nothing where
  seen _ hk := by cases hk
  got _ hk := by cases hk
  time _ hk := by cases hk

theorem CacheInvariant.remove (h : CacheInvariant p w states) :
    CacheInvariant p w (update states i none) :=
  ⟨h.issuers, h.cache, knows_update h.knows (fun _ hs => by cases hs) (fun _ hk => hk)
    fun _ _ => rfl⟩

theorem cacheProtocol {α : Type} (post : String → Learnt Key → α → Prop) :
    Protocol (oidcHost p α) (learnMonitor Key) (fun _ : String => Learnt.nothing) post
      (CacheInvariant p) where
  spawn _ h _ := by
    refine ⟨h.issuers, h.cache, knows_update h.knows ?_ (fun _ hk => hk) fun _ _ => rfl⟩
    rintro _ ⟨⟩
    exact knows_nothing
  serve h hi hguard hserve := ⟨trivial, h.serve hi hguard hserve⟩
  finish h _ _ hfinish := by
    obtain rfl := hfinish
    exact h.remove
  cancel h _ _ hcancel := by
    rw [hcancel.2]
    exact ⟨h.issuers, h.cache, fun j s hj => ((h.remove.knows j s hj).mono (fun _ hk => hk) rfl)⟩
  env h henv := by
    obtain ⟨later, _, rfl⟩ := henv
    exact ⟨h.issuers, h.cache, fun j s hj => ((h.knows j s hj).mono (fun _ hk => hk) rfl)⟩

theorem cacheInvariant_initial (now : Nat) :
    CacheInvariant p (OidcWorld.initial now : OidcWorld Key) fun _ => none where
  issuers _ hk := by cases hk
  cache _ hk := by cases hk
  knows _ _ hi := by cases hi

end All

/-! ### Accepted tokens -/

/-- The `nbf` of a token that is not read as an integer is not too late. -/
def UnreadNbfPast (state : AuthMiddlewareState) (claims : Value) (now : UnixTime) : Prop :=
  ∀ n, NumericClaim claims "nbf" n → asI64 (.number n) = none →
    numberValue n ≤ now.secs.toNat + state.provider.clockSkewSeconds.toNat

theorem notBefore_iff {state : AuthMiddlewareState} {claims : Value} {now : UnixTime}
    (h : checkNbf state.provider claims now.secs.toInt64 = .ok ()) :
    NotBefore state claims now ↔ UnreadNbfPast state claims now := by
  constructor
  · exact fun hnbf n hn _ => hnbf n hn
  · intro hunread n hn
    by_cases hread : asI64 (.number n) = none
    · exact hunread n hn hread
    · exact nbf_of_checkNbf h hn hread

section Runs

variable {Key : Type} [Jose Key]

/-- Any number of calls of `try_oidc_validation`, with any tokens. -/
def ValidationRun (state : AuthMiddlewareState) (now : Nat)
    (labels : List (Label (OidcCall Key) OidcCall.Reply String (Except String UnifiedAuthClaims)))
    (s : State (OidcCall Key) OidcCall.Reply String (Except String UnifiedAuthClaims)
      (OidcWorld Key)) : Prop :=
  Run (Step (oidcHost state.provider _) fun token => (tryOidcValidation state token).run)
    (.start (.initial now)) labels s

/-- A token that is accepted meets the policy at the time the call was told, with keys and an issuer
that one fetch returned; and its `nbf` has come exactly if it has unless it is read as an integer. -/
theorem accepted_meets_policy {state : AuthMiddlewareState} {now : Nat} {token : String} {i : Nat}
    {labels : List (Label (OidcCall Key) OidcCall.Reply String (Except String UnifiedAuthClaims))}
    {s : State (OidcCall Key) OidcCall.Reply String (Except String UnifiedAuthClaims)
      (OidcWorld Key)} {accepted : UnifiedAuthClaims} (h : ValidationRun state now labels s)
    (hi : s.tasks i = some ⟨token, ret (.ok accepted)⟩) :
    ∃ t : Contents Key token, ∃ keys ∈ s.world.fetched, ∃ time, s.world.told i = some time ∧
      MeetsPolicy state t keys time accepted ∧
      (NotBefore state t.claims time ↔ UnreadNbfPast state t.claims time) := by
  have htracked := (cacheProtocol (AcceptsIf state)).run (fun _ => learns_tryOidcValidation)
    (cacheInvariant_initial now) h
  obtain ⟨states, learnt, hinv, hlearnt, hpost⟩ := htracked.ret hi
  obtain ⟨t, keys, hkeys, time, htime, hchecked, haccepted⟩ := hpost accepted rfl
  have hknows := hinv.knows i learnt hlearnt
  have hfetched := hknows.seen keys hkeys
  have hissuer : keys.2 ≠ "" := by
    rw [hinv.issuers keys hfetched]
    exact state.provider.issuerUrl_ne
  have hclaims := hchecked.claims
  simp only [validateClaims, bind_eq_ok, exists_unit] at hclaims
  exact ⟨t, keys, hfetched, time, hknows.time time htime,
    meetsPolicy_of_checked hchecked hissuer haccepted, notBefore_iff hclaims.2.1⟩

end Runs

/-! Tokens that are accepted in second 1000. -/

def plainState : AuthMiddlewareState := ⟨plainProvider, "groups"⟩

def plainAccepted (nbf : String) : UnifiedAuthClaims :=
  ⟨"alice", "https://idp.test", [], plainClaims nbf⟩

section Sample

variable {nbf : String}

theorem proceeds_tryOidcValidation {token : String} {log : OidcLog} {w w' : OidcWorld Unit}
    (h : Proceeds (plainHost (Except String UnifiedAuthClaims)) 0 (validate plainProvider token).run
      w log (ret (.ok (OidcClaims.of (plainClaims nbf)))) w') :
    Proceeds (plainHost (Except String UnifiedAuthClaims)) 0 (tryOidcValidation plainState token).run
      w (log ++ []) (ret (.ok (plainAccepted nbf))) w' := by
  have hunified : unifiedClaims "groups" (OidcClaims.of (plainClaims nbf)) =
      .ok (plainAccepted nbf) := rfl
  refine h.bind ?_
  change Proceeds _ 0 (ret (unifiedClaims "groups" _)) _ _ _ _
  rw [hunified]
  exact .refl

theorem run_accepting (hnbf : nbf ∈ plainNbfs)
    (hvalid : validateClaims plainProvider (plainClaims nbf) plainKeys.2 (some second1000) =
      .ok ()) : ∃ labels, ∃ s : State (OidcCall Unit) _ _ _ _, ValidationRun plainState 0 labels s ∧
      s.world.told 0 = some second1000 ∧
      s.tasks 0 = some ⟨plainToken nbf, ret (.ok (plainAccepted nbf))⟩ := by
  have hproceeds := proceeds_tryOidcValidation (w := restingWorld 0 none [] [] fun _ => none)
    (proceeds_validate_fetching hnbf rfl rfl hvalid)
  exact ⟨_, _, .step (.spawn (plainToken nbf) rfl) hproceeds.steps, rfl, rfl⟩

theorem Contents.claims_eq {t : Contents Unit (plainToken nbf)} (hnbf : nbf ∈ plainNbfs) :
    t.claims = plainClaims nbf := by
  have hparts := t.split.symm.trans (split_plain nbf)
  injection hparts with hparts
  have hclaims := t.readsPayload
  rw [hparts] at hclaims
  exact Except.ok.inj (hclaims.symm.trans (payload_plain hnbf))

end Sample

theorem numberValue_half : numberValue ⟨"1000000000000.5"⟩ = 1000000000000.5 := by
  have hvalue : numberValue ⟨"1000000000000.5"⟩ =
      (10000000000005 : ℕ) * (10 : ℚ) ^ ((0 : ℤ) - (1 : ℕ)) := rfl
  norm_num [hvalue]

/-- An `nbf` that is not an integer is not looked at: the token is accepted in second 1000 although
it may only be used more than thirty thousand years later. -/
theorem fractional_nbf_accepted : ∃ labels, ∃ s : State (OidcCall Unit) _ _ _ _,
    ValidationRun plainState 0 labels s ∧
    s.tasks 0 = some ⟨plainToken "1000000000000.5", ret (.ok (plainAccepted "1000000000000.5"))⟩ ∧
    s.world.told 0 = some second1000 ∧
    ∀ t : Contents Unit (plainToken "1000000000000.5"),
      ¬ NotBefore plainState t.claims second1000 := by
  have hnbf : "1000000000000.5" ∈ plainNbfs := by decide
  obtain ⟨labels, s, hrun, htold, htask⟩ := run_accepting hnbf (by decide +kernel)
  refine ⟨labels, s, hrun, htask, htold, ?_⟩
  intro t hbefore
  rw [Contents.claims_eq hnbf] at hbefore
  have hle := hbefore ⟨"1000000000000.5"⟩ rfl
  have hnow : second1000.secs.toNat = 1000 := rfl
  have hskew : plainState.provider.clockSkewSeconds.toNat = 120 := rfl
  norm_num [numberValue_half, hnow, hskew] at hle

/-- A token that may be used from second 500 on. -/
theorem accepted_meets_policy_plain : ∃ labels, ∃ s, ValidationRun plainState 0 labels s ∧
    s.tasks 0 = some ⟨plainToken "500", ret (.ok (plainAccepted "500"))⟩ ∧
    ∃ t : Contents Unit (plainToken "500"), ∃ keys ∈ s.world.fetched, ∃ time,
      s.world.told 0 = some time ∧ MeetsPolicy plainState t keys time (plainAccepted "500") ∧
      (NotBefore plainState t.claims time ↔ UnreadNbfPast plainState t.claims time) := by
  obtain ⟨labels, s, hrun, _, htask⟩ := run_accepting (by decide : "500" ∈ plainNbfs)
    (by decide +kernel)
  exact ⟨labels, s, hrun, htask, accepted_meets_policy hrun htask⟩

end EdgionCenter.Oidc
