import EdgionCenter.Directory.Kubernetes
import EdgionCenter.Lib.Decimal
import EdgionCenter.Lib.Delimited
import EdgionCenter.Lib.Fallible

/-! The reviews that Kubernetes is asked for: who the subject is, and what the action is. -/
namespace EdgionCenter.Sar

open Authz Delimited Fallible

structure ResourceAttributes where
  group : Option String
  version : Option String
  resource : Option String
  namespaceName : Option String
  name : Option String
  verb : Option String
  deriving DecidableEq

structure NonResourceAttributes where
  path : Option String
  verb : Option String
  deriving DecidableEq

/-- The fields of a `SubjectAccessReviewSpec` that are set. -/
structure SubjectAccessReview where
  user : String
  groups : List String
  resourceAttributes : Option ResourceAttributes
  nonResourceAttributes : Option NonResourceAttributes
  deriving DecidableEq

def centerAuthzPathPrefix : String := "/edgion-center-authz"

def oidcRealm (issuer : String) : String :=
  "oidc:" ++ decimal (utf8Len issuer.toList) ++ ":" ++ issuer

/-- What the names of a principal begin with. -/
def realm (principal : Principal) : CoreResult String :=
  if principal.provider = "oidc" then
    match principal.issuer with
    | some issuer =>
      if issuer ≠ "" then .ok (oidcRealm issuer)
      else .error (.adapter "OIDC authorization requires a validated issuer")
    | none => .error (.adapter "OIDC authorization requires a validated issuer")
  else if principal.provider = "local" ∧ principal.issuer = none then .ok "local"
  else .error (.adapter
    ("unsupported Kubernetes principal provider " ++ debugStr principal.provider))

def userName (realm subject : String) : String := realm ++ ":user:" ++ subject

def groupName (realm group : String) : String := realm ++ ":group:" ++ group

def operationVerb : ActionOperation → String
  | .list => "list"
  | .get => "get"
  | .create => "create"
  | .update | .execute => "update"
  | .delete => "delete"

/-- The authorizer asks in one namespace; the directory names the resources of controllers. -/
structure KubernetesSarAuthorizer where
  namespaceName : String
  directory : KubernetesControllerDirectory

namespace KubernetesSarAuthorizer

variable (authorizer : KubernetesSarAuthorizer)

def resourceAttributes (action : Action) : CoreResult ResourceAttributes :=
  match action.operation with
  | none => .error (.adapter "controller authorization requires an operation")
  | some operation => .ok
    { group := some "center.edgion.io"
      version := some "v1alpha1"
      resource := some "edgioncontrollers"
      namespaceName := some authorizer.namespaceName
      name := action.controllerId.map authorizer.directory.controllerResourceName
      verb := some (operationVerb operation) }

def nonResourceAttributes (action : Action) : CoreResult NonResourceAttributes :=
  match action.requestPath with
  | none => .error (.adapter "non-resource authorization requires a request path")
  | some path =>
    if startsWith path "/" = false then
      .error (.adapter "non-resource authorization requires an absolute request path")
    else
      match action.requestVerb with
      | none => .error (.adapter "non-resource authorization requires a request verb")
      | some verb => .ok ⟨some (centerAuthzPathPrefix ++ path), some verb⟩

def attributes (action : Action) :
    CoreResult (Option ResourceAttributes × Option NonResourceAttributes) :=
  if startsWith action.permission "controllers:" = true then do
    let resource ← authorizer.resourceAttributes action
    return (some resource, none)
  else do
    let other ← nonResourceAttributes action
    return (none, some other)

def review (principal : Principal) (action : Action) : CoreResult SubjectAccessReview := do
  let realm ← realm principal
  let attributes ← authorizer.attributes action
  return ⟨userName realm principal.subject, principal.groups.map (groupName realm), attributes.1,
    attributes.2⟩

end KubernetesSarAuthorizer

/-! ### Names -/

/-- A length as it stands in a name. -/
def lengthCode (n : Nat) : List UInt8 := utf8Bytes (decimal n) ++ [58]

theorem prefixFree_lengthCode : PrefixFree (fun _ => True) lengthCode := by
  apply prefixFree_of_mark
  · intro m n h
    have htext : Decimal.text m = Decimal.text n := String.ofList_injective (utf8Bytes_injective h)
    rw [← Decimal.value_text m, htext, Decimal.value_text]
  · intro n hcolon
    simp only [utf8Bytes, utf8, decimal, String.toList_ofList, List.mem_flatMap] at hcolon
    obtain ⟨c, hc, hcolon⟩ := hcolon
    have hdigit : 48 ≤ c.toNat ∧ c.toNat ≤ 57 := by
      simpa [Char.isDigit, UInt32.le_iff_toNat_le, ← Char.toNat_val] using
        Decimal.isDigit_of_mem_text hc
    rw [utf8EncodeChar_of_ascii (by omega), List.mem_singleton] at hcolon
    have hcode := congrArg UInt8.toNat hcolon
    rw [UInt8.toNat_ofNat_of_lt' (by change c.toNat < 256; omega)] at hcode
    change 58 = c.toNat at hcode
    omega

theorem utf8Bytes_oidcRealm (issuer rest : String) : utf8Bytes (oidcRealm issuer ++ rest) =
    utf8Bytes "oidc:" ++ (frame lengthCode (utf8Bytes issuer) ++ utf8Bytes rest) := by
  have hlength : (utf8Bytes issuer).length = utf8Len issuer.toList := length_utf8 _
  have hcolon : utf8Bytes ":" = [58] := by decide +kernel
  simp only [oidcRealm, utf8Bytes_append, frame, lengthCode, hlength, hcolon, List.append_assoc]

variable {rest rest' : String}

theorem oidcRealm_append_inj {issuer issuer' : String}
    (h : oidcRealm issuer ++ rest = oidcRealm issuer' ++ rest') :
    issuer = issuer' ∧ rest = rest' := by
  have hbytes := congrArg utf8Bytes h
  rw [utf8Bytes_oidcRealm, utf8Bytes_oidcRealm] at hbytes
  obtain ⟨hissuer, hrest⟩ :=
    frame_inj prefixFree_lengthCode trivial trivial (List.append_cancel_left hbytes)
  exact ⟨utf8Bytes_injective hissuer, utf8Bytes_injective hrest⟩

variable {principal : Principal} {name : String}

/-- The names of the principals that are accepted. -/
inductive Realm : Principal → String → Prop
  | ofOidc {principal : Principal} {issuer : String} (hprovider : principal.provider = "oidc")
      (hissuer : principal.issuer = some issuer) : Realm principal (oidcRealm issuer)
  | ofLocal {principal : Principal} (hprovider : principal.provider = "local")
      (hissuer : principal.issuer = none) : Realm principal "local"

theorem realm_cases (h : realm principal = .ok name) : Realm principal name := by
  unfold realm at h
  split at h
  · rename_i hprovider
    split at h
    · rename_i issuer hissuer
      split at h
      · cases h
        exact .ofOidc hprovider hissuer
      · cases h
    · cases h
  · split at h
    · rename_i hlocal
      cases h
      exact .ofLocal hlocal.1 hlocal.2
    · cases h

theorem oidcRealm_ne_local {issuer : String} : oidcRealm issuer ++ rest ≠ "local" ++ rest' := by
  intro h
  have hhead := congrArg (fun s => s.toList.head?) h
  simp [oidcRealm] at hhead

/-- What follows a realm tells it from every other one. -/
theorem Realm.append_inj {p q : Principal} {a b : String} (hp : Realm p a) (hq : Realm q b)
    (h : a ++ rest = b ++ rest') :
    p.provider = q.provider ∧ p.issuer = q.issuer ∧ rest = rest' := by
  cases hp with
  | ofOidc hprovider hissuer =>
    cases hq with
    | ofOidc hprovider' hissuer' =>
      obtain ⟨rfl, hrest⟩ := oidcRealm_append_inj h
      exact ⟨hprovider.trans hprovider'.symm, hissuer.trans hissuer'.symm, hrest⟩
    | ofLocal _ _ => exact absurd h oidcRealm_ne_local
  | ofLocal hprovider hissuer =>
    cases hq with
    | ofOidc _ _ => exact absurd h.symm oidcRealm_ne_local
    | ofLocal hprovider' hissuer' =>
      exact ⟨hprovider.trans hprovider'.symm, hissuer.trans hissuer'.symm,
        String.append_right_inj _ |>.mp h⟩

theorem Realm.head (h : Realm principal name) (rest : String) :
    (name ++ rest).toList.head? = some 'o' ∨ (name ++ rest).toList.head? = some 'l' := by
  cases h with
  | ofOidc _ _ => simp [oidcRealm]
  | ofLocal _ _ => simp

/-- No name of a principal is one of the names that Kubernetes keeps for itself. -/
theorem Realm.not_system (h : Realm principal name) (rest : String) :
    startsWith (name ++ rest) "system:" = false := by
  rw [Bool.eq_false_iff]
  intro hstarts
  have hprefix : "system:".toList <+: (name ++ rest).toList := List.isPrefixOf_iff_prefix.mp hstarts
  have hs : (name ++ rest).toList.head? = some 's' := by
    obtain ⟨tail, htail⟩ := hprefix
    rw [← htail]
    rfl
  rcases h.head rest with ho | ho <;> rw [hs] at ho <;> cases ho

namespace KubernetesSarAuthorizer

variable {authorizer : KubernetesSarAuthorizer} {p q : Principal} {a b : Action}
  {r s : SubjectAccessReview}

/-- What a review is made of. -/
structure Reviewed (authorizer : KubernetesSarAuthorizer) (principal : Principal) (action : Action)
    (review : SubjectAccessReview) (name : String) : Prop where
  realm : Realm principal name
  user : review.user = name ++ (":user:" ++ principal.subject)
  groups : review.groups = principal.groups.map fun group => name ++ (":group:" ++ group)
  other : ∀ attributes, review.nonResourceAttributes = some attributes →
    nonResourceAttributes action = .ok attributes

theorem reviewed (h : authorizer.review p a = .ok r) : ∃ name, Reviewed authorizer p a r name := by
  simp only [review, bind_eq_ok, pure_eq_ok] at h
  obtain ⟨name, hname, attributes, hattributes, rfl⟩ := h
  refine ⟨name, realm_cases hname, ?_, ?_, ?_⟩
  · simp only [userName, String.append_assoc]
  · refine List.map_congr_left fun group _ => ?_
    rw [groupName, String.append_assoc]
  · intro other hother
    unfold KubernetesSarAuthorizer.attributes at hattributes
    split at hattributes
    · simp only [bind_eq_ok, pure_eq_ok] at hattributes
      obtain ⟨_, _, rfl⟩ := hattributes
      cases hother
    · simp only [bind_eq_ok, pure_eq_ok] at hattributes
      obtain ⟨_, hok, rfl⟩ := hattributes
      cases hother
      exact hok

variable {attributes : NonResourceAttributes} {realm : String}

theorem nonResourceAttributes_eq_ok (h : nonResourceAttributes a = .ok attributes) :
    ∃ path verb, a.requestPath = some path ∧ a.requestVerb = some verb ∧
      attributes = ⟨some (centerAuthzPathPrefix ++ path), some verb⟩ := by
  unfold nonResourceAttributes at h
  split at h
  · cases h
  · rename_i path hpath
    split at h
    · cases h
    · split at h
      · cases h
      · rename_i verb hverb
        cases h
        exact ⟨path, verb, hpath, hverb, rfl⟩

/-- The path and the verb of an action are told from its attributes. -/
theorem nonResourceAttributes_inj (ha : nonResourceAttributes a = .ok attributes)
    (hb : nonResourceAttributes b = .ok attributes) :
    a.requestPath = b.requestPath ∧ a.requestVerb = b.requestVerb := by
  obtain ⟨path, verb, hpath, hverb, rfl⟩ := nonResourceAttributes_eq_ok ha
  obtain ⟨path', verb', hpath', hverb', heq⟩ := nonResourceAttributes_eq_ok hb
  simp only [NonResourceAttributes.mk.injEq, Option.some.injEq, String.append_right_inj] at heq
  obtain ⟨rfl, rfl⟩ := heq
  exact ⟨hpath.trans hpath'.symm, hverb.trans hverb'.symm⟩

theorem user_ne_group {subject group : String} : ":user:" ++ subject ≠ ":group:" ++ group := by
  intro h
  have hsecond := congrArg (fun s => s.toList.tail.head?) h
  simp at hsecond

theorem Reviewed.user_not_mem {realm' : String} (hr : Reviewed authorizer p a r realm)
    (hs : Reviewed authorizer q b s realm') : r.user ∉ s.groups := by
  intro hmem
  rw [hr.user, hs.groups] at hmem
  obtain ⟨group, _, heq⟩ := List.mem_map.mp hmem
  exact user_ne_group (hr.realm.append_inj hs.realm heq.symm).2.2

theorem Reviewed.not_system (hr : Reviewed authorizer p a r realm)
    (h : name = r.user ∨ name ∈ r.groups) : startsWith name "system:" = false := by
  rcases h with rfl | hmem
  · rw [hr.user]
    exact hr.realm.not_system _
  · rw [hr.groups] at hmem
    obtain ⟨group, _, rfl⟩ := List.mem_map.mp hmem
    exact hr.realm.not_system _

/-- Two reviews share a user name, a group name or attributes only where the principals or the
actions agree, and no name is taken for another kind of name. -/
theorem subjects_distinct (hp : authorizer.review p a = .ok r) (hq : authorizer.review q b = .ok s) :
    (r.user = s.user → p.provider = q.provider ∧ p.issuer = q.issuer ∧ p.subject = q.subject) ∧
    (∀ (i j : Nat) (name : String), r.groups[i]? = some name → s.groups[j]? = some name →
      p.provider = q.provider ∧ p.issuer = q.issuer ∧
        ∃ group, p.groups[i]? = some group ∧ q.groups[j]? = some group) ∧
    r.user ∉ s.groups ∧ s.user ∉ r.groups ∧
    (∀ name, name = r.user ∨ name ∈ r.groups → startsWith name "system:" = false) ∧
    (∀ attributes, r.nonResourceAttributes = some attributes →
      s.nonResourceAttributes = some attributes →
      a.requestPath = b.requestPath ∧ a.requestVerb = b.requestVerb) := by
  obtain ⟨realm, hr⟩ := reviewed hp
  obtain ⟨realm', hs⟩ := reviewed hq
  refine ⟨?_, ?_, ?_, ?_, ?_, ?_⟩
  · intro heq
    rw [hr.user, hs.user] at heq
    obtain ⟨hprovider, hissuer, hrest⟩ := hr.realm.append_inj hs.realm heq
    exact ⟨hprovider, hissuer, (String.append_right_inj _).mp hrest⟩
  · intro i j name hi hj
    rw [hr.groups, List.getElem?_map, Option.map_eq_some_iff] at hi
    rw [hs.groups, List.getElem?_map, Option.map_eq_some_iff] at hj
    obtain ⟨group, hgroup, rfl⟩ := hi
    obtain ⟨group', hgroup', heq⟩ := hj
    obtain ⟨hprovider, hissuer, hrest⟩ := hr.realm.append_inj hs.realm heq.symm
    obtain rfl := (String.append_right_inj _).mp hrest
    exact ⟨hprovider, hissuer, group, hgroup, hgroup'⟩
  · exact hr.user_not_mem hs
  · exact hs.user_not_mem hr
  · exact fun name hname => hr.not_system hname
  · exact fun attributes hra hsa => nonResourceAttributes_inj (hr.other _ hra) (hs.other _ hsa)

/-- An issuer and a subject that hold the marks between the parts of a name. -/
def markedPrincipal : Principal := ⟨"x:user:y", "oidc", some "idp:user:", ["ops"]⟩

/-- Without the length of the issuer, this would be the same name. -/
def shiftedPrincipal : Principal := ⟨":user:x:user:y", "oidc", some "idp", ["ops"]⟩

def listAction : Action := ⟨"users:read", none, some .list, some "/api/v1/users", some "get"⟩

def plainAuthorizer : KubernetesSarAuthorizer := ⟨"edgion", ⟨id, fun _ => true⟩⟩

def listReview (user group : String) : SubjectAccessReview :=
  ⟨user, [group], none, some ⟨some "/edgion-center-authz/api/v1/users", some "get"⟩⟩

theorem subjects_distinct_marked : plainAuthorizer.review markedPrincipal listAction =
      .ok (listReview "oidc:9:idp:user::user:x:user:y" "oidc:9:idp:user::group:ops") ∧
    plainAuthorizer.review shiftedPrincipal listAction =
      .ok (listReview "oidc:3:idp:user::user:x:user:y" "oidc:3:idp:group:ops") ∧
    "oidc:9:idp:user::user:x:user:y" ≠ "oidc:3:idp:user::user:x:user:y" ∧
    "oidc:9:idp:user::user:x:user:y" ∉ ["oidc:3:idp:group:ops"] := by
  have hmarked : plainAuthorizer.review markedPrincipal listAction =
      .ok (listReview "oidc:9:idp:user::user:x:user:y" "oidc:9:idp:user::group:ops") := by
    decide +kernel
  have hshifted : plainAuthorizer.review shiftedPrincipal listAction =
      .ok (listReview "oidc:3:idp:user::user:x:user:y" "oidc:3:idp:group:ops") := by
    decide +kernel
  obtain ⟨huser, -, hgroup, -⟩ := subjects_distinct hmarked hshifted
  refine ⟨hmarked, hshifted, ?_, hgroup⟩
  intro heq
  exact absurd (huser heq).2.1 (by decide)

end KubernetesSarAuthorizer

end EdgionCenter.Sar
