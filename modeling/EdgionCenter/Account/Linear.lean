import EdgionCenter.Account.KubernetesStore
import EdgionCenter.Lib.JsonText

/-! Every history of an account store is that of one register, except where a missed UPDATE of the SQL
store is overtaken before the SELECT that follows it. -/
namespace EdgionCenter.Account

open Fallible Linearizable Transition

section Histories

variable {id : CloudResourceId} {I : Type} {h : List (Action I AccountOp AccountResult CoreError)}
  {account : Option ProviderAccount}

/-- What the callers saw is what a register shows that now holds the account. -/
structure AccountExplained (id : CloudResourceId)
    (h : List (Action I AccountOp AccountResult CoreError))
    (account : Option ProviderAccount) : Prop where
  order : ∃ order, Explains (accountRegister id) CoreError.IsConflict h order ∧
    (accountRegister id).after order = account
  mismatch : ∀ i expected desired actual, .call i (.replace expected desired) ∈ h →
    .ret i (.ok (.generationMismatch actual)) ∈ h → actual ≠ expected

theorem apply_replace_mismatch {expected actual : Nat} {desired : ProviderAccountDesired}
    (happly : .generationMismatch actual =
      ((accountRegister id).apply account (.replace expected desired)).2) : actual ≠ expected := by
  cases account with
  | none => cases happly
  | some account =>
    simp only [accountRegister] at happly
    split at happly
    · cases happly
    · next hne =>
      cases happly
      exact hne

theorem accountExplained_of_explains {order : List (Entry I AccountOp AccountResult)}
    (horder : Explains (accountRegister id) CoreError.IsConflict h order) :
    AccountExplained id h ((accountRegister id).after order) where
  order := ⟨order, horder, rfl⟩
  mismatch := by
    intro i expected desired actual hcall hret
    obtain ⟨op, hmem⟩ := horder.returned i _ hret
    obtain rfl : op = .replace expected desired :=
      horder.once i _ _ (horder.called _ hmem) hcall
    obtain ⟨front, back, rfl⟩ := List.append_of_mem hmem
    exact apply_replace_mismatch (horder.legal front _ back rfl)

end Histories

section Stores

variable [DesiredJson] [AccountNames]

/-- Both stores are registers: the SQL store in every run in which no missed UPDATE is overtaken, the
Kubernetes store in every run. -/
theorem accountStores_linearizable (id : CloudResourceId) {I : Type} [DecidableEq I]
    (labels : List (AccountLabel I)) :
    (∀ c, Run (Guarded (SqlAccountStep id) (SqlAccounts.NotOvertaken id)) SqlAccounts.empty labels c →
      ∃ account, RowFor id c.row account ∧
        AccountExplained id (labels.filterMap AccountLabel.see) account) ∧
    ∀ c, Run (KubeAccountStep id) KubeAccounts.empty labels c →
      ∃ account, ServerFor id c.server account ∧
        AccountExplained id (labels.filterMap AccountLabel.see) account := by
  constructor
  · intro c hrun
    obtain ⟨s, ⟨hfor, -⟩, hexplains⟩ :=
      exists_explains sql_refines ⟨sqlFor_empty, by simp [SqlAccounts.Missing, SqlAccounts.empty]⟩ hrun
    exact ⟨_, hfor.row, accountExplained_of_explains hexplains⟩
  · intro c hrun
    obtain ⟨s, hfor, hexplains⟩ := exists_explains kube_refines kubeFor_empty hrun
    exact ⟨_, hfor.server, accountExplained_of_explains hexplains⟩

end Stores

section Overtaken

variable [DesiredJson] {id : CloudResourceId} {desired : ProviderAccountDesired}

theorem prepareCreate_eq_ok (h : Storable id 1 desired) :
    prepareCreate id desired = .ok (DesiredJson.toString desired, accountOf id 1 desired) := by
  have hmade := providerAccountFromDesired_eq_ok.mpr ⟨h, rfl⟩
  simp [prepareCreate, desiredJson, h.id, h.desired, hmade]

theorem prepareReplace_eq_ok {expected : Nat} (hpositive : 0 < expected)
    (h : Storable id (expected + 1) desired) :
    prepareReplace id expected desired = .ok ((expected + 1 : Nat), DesiredJson.toString desired,
      accountOf id (expected + 1) desired) := by
  have hmade := providerAccountFromDesired_eq_ok.mpr ⟨h, rfl⟩
  have hbounded := h.bounded
  have hexpected : expected ≤ maxProviderAccountGeneration := by omega
  simp [prepareReplace, generationI64, desiredJson, h.id, h.desired, hmade, hpositive, hexpected,
    hbounded]

/-- A replace finds no row, the account is created, and the SELECT finds the generation expected. -/
def overtakenLabels (desired : ProviderAccountDesired) : List (AccountLabel Bool) :=
  [.call false (.replace 1 desired), .run false, .call true (.create desired), .run true, .run false,
    .ret false (.ok (.generationMismatch 1))]

variable {I : Type} {i : I} {s : SqlAccounts I}

theorem sqlAccountStep_first [DecidableEq I] {op : AccountOp} {row : Option AccountRow}
    {phase : SqlPhase} (hbegun : s.phase i = .begun op)
    (hfirst : firstStatement id s.row op = (row, phase)) :
    SqlAccountStep id s (.run i) ⟨row, Function.update s.phase i phase⟩ := by
  have hstep : SqlAccountStep id s (.run i) _ := .first hbegun
  rwa [hfirst] at hstep

theorem sqlAccountStep_second [DecidableEq I] {out : CoreResult AccountResult} (expected : Nat)
    (hmissed : s.phase i = .missed expected) (hselect : selectGeneration s.row = out) :
    SqlAccountStep id s (.run i) (s.setPhase i (.done out)) := by
  subst hselect
  exact .second hmissed

theorem firstStatement_miss (h : Storable id 1 desired) :
    firstStatement id none (.replace 1 desired) = (none, .missed 1) := by
  have hnext : Storable id (1 + 1) desired := ⟨h.id, h.desired, by decide, by decide⟩
  simp [firstStatement, prepareReplace_eq_ok Nat.one_pos hnext, updateRow]

theorem firstStatement_create (h : Storable id 1 desired) :
    firstStatement id none (.create desired) =
      (some ⟨1, DesiredJson.toString desired⟩, .done (.ok (.created (accountOf id 1 desired)))) := by
  simp [firstStatement, prepareCreate_eq_ok h, insertRow]

theorem overtaken_run (h : Storable id 1 desired) :
    ∃ c, Run (SqlAccountStep id) SqlAccounts.empty (overtakenLabels desired) c := by
  have hread : selectGeneration (some ⟨1, DesiredJson.toString desired⟩) =
      .ok (.generationMismatch 1) := rfl
  exact ⟨_, .step (.call _ rfl) (.step (sqlAccountStep_first rfl (firstStatement_miss h))
    (.step (.call _ rfl) (.step (sqlAccountStep_first rfl (firstStatement_create h))
    (.step (sqlAccountStep_second 1 rfl hread) (.step (.ret rfl) (.refl _))))))⟩

omit [DesiredJson] in
theorem overtaken_not_explained (account : Option ProviderAccount) :
    ¬ AccountExplained id ((overtakenLabels desired).filterMap AccountLabel.see) account := by
  intro h
  exact h.mismatch false 1 desired 1 (by simp [overtakenLabels, AccountLabel.see])
    (by simp [overtakenLabels, AccountLabel.see]) rfl

/-- A replace and a create at the same time: the UPDATE of the replace finds no row, and neither does
its SELECT. -/
def racingLabels (id : CloudResourceId) (desired : ProviderAccountDesired) :
    List (AccountLabel Bool) :=
  [.call true (.create desired), .call false (.replace 1 desired), .run false, .run false,
    .run true, .ret false (.ok .notFound), .ret true (.ok (.created (accountOf id 1 desired)))]

theorem sql_racing_run (h : Storable id 1 desired) :
    ∃ c, Run (Guarded (SqlAccountStep id) (SqlAccounts.NotOvertaken id)) SqlAccounts.empty
      (racingLabels id desired) c := by
  refine ⟨_, .step ⟨.call _ rfl, ?_⟩ (.step ⟨.call _ rfl, ?_⟩
    (.step ⟨sqlAccountStep_first rfl (firstStatement_miss h), ?_⟩
    (.step ⟨sqlAccountStep_second 1 rfl rfl, ?_⟩
    (.step ⟨sqlAccountStep_first rfl (firstStatement_create h), ?_⟩
    (.step ⟨.ret rfl, ?_⟩ (.step ⟨.ret rfl, ?_⟩ (.refl _)))))))⟩ <;>
  · intro i expected hi j op hj hop
    cases i <;> cases j <;> simp [SqlAccounts.setPhase, SqlAccounts.empty] at hi hj hop

/-- The same calls in the other store, whose replace is over with its first request. -/
def kubeLabels (id : CloudResourceId) (desired : ProviderAccountDesired) :
    List (AccountLabel Bool) :=
  [.call true (.create desired), .call false (.replace 1 desired), .run false, .run true,
    .ret false (.ok .notFound), .ret true (.ok (.created (accountOf id 1 desired)))]

theorem kube_racing_run [AccountNames] (h : Storable id 1 desired) :
    ∃ c, Run (KubeAccountStep id) KubeAccounts.empty (kubeLabels id desired) c := by
  have hrequest : kubeRequest id ⟨none, 1⟩ (.begun (.create desired)) =
      some (⟨some (objectOf id 1 desired 1), 2⟩,
        .done (.ok (.created (accountOf id 1 desired)))) := by
    have hresource : newResource id desired = .ok ⟨AccountNames.resourceName id, none,
        0, ⟨1, id.value, 1, DesiredJson.toString desired⟩⟩ := by
      simp [newResource, providerAccountResourceName, newSpec_eq h.bounded, h.id, h.desired]
    simp only [kubeRequest, createAccount, hresource, AccountServer.create]
    change some (_, KubePhase.done (AccountResult.created <$>
      readAccount id (objectOf id 1 desired 1))) = _
    rw [readAccount_objectOf h]
    rfl
  have hload : kubeRequest id ⟨none, 1⟩ (.begun (.replace 1 desired)) =
      some (⟨none, 1⟩, .done (.ok .notFound)) := by
    have hcheck : checkReplace id 1 desired = .ok () := by
      simp [checkReplace, h.id, h.desired, maxProviderAccountGeneration]
    simp [kubeRequest, hcheck, loadAccount]
  exact ⟨_, .step (.call _ rfl) (.step (.call _ rfl) (.step (.run hload) (.step (.run hrequest)
    (.step (.ret rfl) (.step (.ret rfl) (.refl _))))))⟩

end Overtaken

section Instances

open JsonText

def ManagementPolicy.name : ManagementPolicy → String
  | .managed => "managed"
  | .observeOnly => "observe_only"

def DeletionPolicy.name : DeletionPolicy → String
  | .retain => "retain"
  | .deleteExternal => "delete_external"

def CloudProvider.name : CloudProvider → String
  | .cloudflare => "cloudflare"
  | .aws => "aws"

/-- The members of an object whose values are texts. -/
def textMembers (members : List (String × Option String)) : List Char :=
  object (members.map fun m => (m.1.toList, m.2.map String.toList))

def ProviderAccountScope.members : ProviderAccountScope → List (String × Option String)
  | .cloudflare accountId => [("provider", some "cloudflare"), ("account_id", some accountId)]
  | .aws accountId => [("provider", some "aws"), ("account_id", some accountId)]

def CredentialSource.members : CredentialSource → List (String × Option String)
  | .staticSecret credentialRef =>
    [("type", some "static_secret"), ("credentialRef", some credentialRef.value)]
  | .ambient => [("type", some "ambient")]
  | .federated subjectTokenRef targetPrincipal audience =>
    [("type", some "federated"), ("subjectTokenRef", subjectTokenRef.map CredentialRef.value),
      ("targetPrincipal", some targetPrincipal), ("audience", audience)]
  | .assumeIdentity baseCredentialRef targetPrincipal externalIdRef =>
    [("type", some "assume_identity"),
      ("baseCredentialRef", baseCredentialRef.map CredentialRef.value),
      ("targetPrincipal", some targetPrincipal),
      ("externalIdRef", externalIdRef.map CredentialRef.value)]

/-- What `serde_json::to_string` writes. -/
def desiredText (desired : ProviderAccountDesired) : List Char :=
  "\x7b\"displayName\":".toList ++ string desired.displayName.toList ++
    ",\"owner\":".toList ++ nullOr string (desired.owner.map String.toList) ++
    ",\"labels\":".toList ++ textMembers (desired.labels.map fun label => (label.1, some label.2)) ++
    ",\"managementPolicy\":".toList ++ string (ManagementPolicy.name desired.managementPolicy).toList ++
    ",\"deletionPolicy\":".toList ++ string (DeletionPolicy.name desired.deletionPolicy).toList ++
    ",\"spec\":\x7b\"provider\":".toList ++ string (CloudProvider.name desired.spec.provider).toList ++
    ",\"scope\":".toList ++ nullOr textMembers (desired.spec.scope.map ProviderAccountScope.members) ++
    ",\"credentialSource\":".toList ++
      textMembers (CredentialSource.members desired.spec.credentialSource) ++ "\x7d\x7d".toList

theorem textMembers_delimits : Delimits textMembers := by
  intro a b r s h
  obtain ⟨hmembers, hrest⟩ := object_delimits h
  refine ⟨List.map_injective_iff.mpr ?_ hmembers, hrest⟩
  rintro ⟨k, v⟩ ⟨k', v'⟩ hm
  obtain ⟨hk, hv⟩ := Prod.mk.inj hm
  exact Prod.ext (String.toList_inj.mp hk)
    (Option.map_injective (fun _ _ => String.toList_inj.mp) hv)

theorem members_injective : Function.Injective CredentialSource.members := by
  have href : Function.Injective (Option.map CredentialRef.value) := by
    refine Option.map_injective ?_
    rintro ⟨a⟩ ⟨b⟩ rfl
    rfl
  intro a b h
  cases a <;> cases b <;>
    simp only [CredentialSource.members, List.cons.injEq, Prod.mk.injEq, Option.some.injEq,
      reduceCtorEq, String.reduceEq, true_and, and_true, and_false, false_and] at h
  · next ref ref' => rw [show ref = ref' from Option.some.inj (href (congrArg some h))]
  · rfl
  · rw [href h.1, h.2.1, h.2.2]
  · rw [href h.1, h.2.1, href h.2.2]

theorem scopeMembers_injective : Function.Injective ProviderAccountScope.members := by
  intro a b h
  cases a <;> cases b <;> simp_all [ProviderAccountScope.members]

theorem policyNames_injective :
    Function.Injective ManagementPolicy.name ∧ Function.Injective DeletionPolicy.name ∧
      Function.Injective CloudProvider.name := by
  refine ⟨?_, ?_, ?_⟩ <;> rintro (_ | _) (_ | _) <;> decide

theorem desiredText_injective : Function.Injective desiredText := by
  intro a b h
  unfold desiredText at h
  simp only [List.append_assoc] at h
  obtain ⟨hname, h⟩ := string_delimits.after h
  obtain ⟨howner, h⟩ := (nullOr_delimits string_delimits string_ne_null).after h
  obtain ⟨hlabels, h⟩ := textMembers_delimits.after h
  obtain ⟨hmanagement, h⟩ := string_delimits.after h
  obtain ⟨hdeletion, h⟩ := string_delimits.after h
  obtain ⟨hprovider, h⟩ := string_delimits.after h
  obtain ⟨hscope, h⟩ := (nullOr_delimits textMembers_delimits fun _ _ _ => by
    simp [textMembers, object]).after h
  obtain ⟨hsource, -⟩ := textMembers_delimits.after h
  obtain ⟨name, owner, labels, management, deletion, provider, scope, source⟩ := a
  obtain ⟨name', owner', labels', management', deletion', provider', scope', source'⟩ := b
  have hpair : Function.Injective fun label : String × String => (label.1, some label.2) := by
    rintro ⟨k, v⟩ ⟨k', v'⟩ heq
    simpa using heq
  obtain rfl : name = name' := String.toList_inj.mp hname
  obtain rfl : owner = owner' := Option.map_injective (fun _ _ => String.toList_inj.mp) howner
  obtain rfl : labels = labels' := List.map_injective_iff.mpr hpair hlabels
  obtain rfl : scope = scope' := Option.map_injective scopeMembers_injective hscope
  obtain rfl : source = source' := members_injective hsource
  obtain rfl : management = management' := policyNames_injective.1 (String.toList_inj.mp hmanagement)
  obtain rfl : deletion = deletion' := policyNames_injective.2.1 (String.toList_inj.mp hdeletion)
  obtain rfl : provider = provider' := policyNames_injective.2.2 (String.toList_inj.mp hprovider)
  rfl

/-- The text that is stored, and a reader of it. -/
noncomputable abbrev serdeJson : DesiredJson where
  toString desired := String.ofList (desiredText desired)
  fromStr text := ((Function.partialInv desiredText text.toList).map Except.ok).getD
    (.error "invalid JSON")
  fromStr_toString desired := by
    rw [String.toList_ofList, Function.partialInv_left desiredText_injective]
    rfl

/-- An account of the plainest kind. -/
def plainDesired : ProviderAccountDesired :=
  ⟨"account", none, [], .managed, .retain, ⟨.cloudflare, none, .ambient⟩⟩

def plainId : CloudResourceId := ⟨"account"⟩

theorem plain_storable : @Storable serdeJson plainId 1 plainDesired := by
  let _ := serdeJson
  exact ⟨by decide, by decide +kernel, by decide, by decide⟩

/-- The SQL store reports a mismatch with the generation that was expected. -/
theorem overtaken_mismatch : (∃ c, Run (@SqlAccountStep serdeJson plainId Bool _) SqlAccounts.empty
      (overtakenLabels plainDesired) c) ∧
    ∀ account, ¬ AccountExplained plainId
      ((overtakenLabels plainDesired).filterMap AccountLabel.see) account :=
  ⟨@overtaken_run serdeJson _ _ plain_storable, overtaken_not_explained⟩

/-- The names of objects in the runs below. -/
abbrev plainNames : AccountNames := ⟨CloudResourceId.value⟩

theorem racing_linearizable : (∃ account c, Run (Guarded (@SqlAccountStep serdeJson plainId Bool _)
        (@SqlAccounts.NotOvertaken serdeJson Bool plainId)) SqlAccounts.empty
        (racingLabels plainId plainDesired) c ∧
      @RowFor serdeJson plainId c.row account ∧
      AccountExplained plainId ((racingLabels plainId plainDesired).filterMap AccountLabel.see)
        account) ∧
    ∃ account c, Run (@KubeAccountStep serdeJson plainNames plainId Bool _) KubeAccounts.empty
        (kubeLabels plainId plainDesired) c ∧
      @ServerFor serdeJson plainNames plainId c.server account ∧
      AccountExplained plainId ((kubeLabels plainId plainDesired).filterMap AccountLabel.see)
        account := by
  let _ := serdeJson
  let _ := plainNames
  obtain ⟨c, hsql⟩ := sql_racing_run plain_storable
  obtain ⟨d, hkube⟩ := kube_racing_run plain_storable
  obtain ⟨account, hrow, hexplained⟩ := (accountStores_linearizable plainId _).1 c hsql
  obtain ⟨account', hserver, hexplained'⟩ := (accountStores_linearizable plainId _).2 d hkube
  exact ⟨⟨account, c, hsql, hrow, hexplained⟩, account', d, hkube, hserver, hexplained'⟩

end Instances

end EdgionCenter.Account
