import EdgionCenter.Cloud.Changes

/-! Which batches of changes are accepted, without the order in which they are read. -/
namespace EdgionCenter

open Fallible ProviderDnsRecordSet

section Policies

/-- The policies whose members must select different queries. -/
def Route53RoutingPolicy.selects : Route53RoutingPolicy → Bool
  | .failover _ | .latency _ | .geolocation _ => true
  | .weighted _ | .multivalue => false

theorem Route53FailoverRole.name_injective : Function.Injective Route53FailoverRole.name := by
  intro role role' h
  cases role <;> cases role' <;> first | rfl | exact absurd h (by decide)

theorem Route53GeoLocation.identity_injective : Function.Injective Route53GeoLocation.identity := by
  intro location location' h
  have hl : location.identity.toList = location'.identity.toList := by rw [h]
  cases location <;> cases location' <;>
    simp only [identity, String.toList_append, List.append_cancel_left_eq] at hl
  case default.default => rfl
  case continent.continent | country.country | usSubdivision.usSubdivision =>
    rw [String.toList_inj.mp hl]
  -- the texts before the codes differ from their first letters on
  all_goals simp at hl

variable {policy : Route53RoutingPolicy}

/-- Within a family the text of a selector stands for the policy. -/
theorem Route53RoutingPolicy.eq_of_family {policy' : Route53RoutingPolicy} {selector : String}
    (h : policy.family.2 = some selector) (h' : policy'.family.2 = some selector)
    (hfamily : policy.family.1 = policy'.family.1) : policy = policy' := by
  cases policy <;> cases policy' <;> simp_all [family]
  · exact Route53FailoverRole.name_injective (h.trans h'.symm)
  · exact Route53GeoLocation.identity_injective (h.trans h'.symm)

theorem Route53RoutingPolicy.selects_iff :
    policy.selects = true ↔ ∃ selector, policy.family.2 = some selector := by
  cases policy <;> simp [selects, family]

end Policies

variable [Platform]

section Groups

variable {rs rs' : ProviderDnsRecordSet} {members others : List ProviderDnsRecordSet}

def ProviderDnsRecordSet.routingPolicy (rs : ProviderDnsRecordSet) : Option Route53RoutingPolicy :=
  match rs.extension with
  | some (.route53 _ policy _) => policy
  | _ => none

theorem ProviderDnsRecordSet.routingFamily_eq :
    rs.routingFamily = (rs.routingPolicy.map Route53RoutingPolicy.family).getD (.simple, none) := by
  rw [routingFamily, routingPolicy]
  rcases rs.extension with _ | _ | ⟨_, _ | _, _⟩ <;> rfl

/-- The members of a group can stand together, whatever their order. -/
structure Compatible (members : List ProviderDnsRecordSet) : Prop where
  family : ∀ rs ∈ members, ∀ rs' ∈ members, rs.routingFamily.1 = rs'.routingFamily.1
  ttl : ∀ rs ∈ members, ∀ rs' ∈ members, ∀ n ∈ rs.ttl.explicit, ∀ n' ∈ rs'.ttl.explicit, n = n'
  weighted : ∀ rs ∈ members, rs.routingFamily.1 = .weighted → members.length ≤ 100
  selectors : (members.filterMap fun rs => rs.routingFamily.2).Nodup

theorem Compatible.nil : Compatible ([] : List ProviderDnsRecordSet) := by
  constructor <;> simp

theorem Compatible.singleton : Compatible [rs] := by
  constructor
  · simp
  · intro _ h _ h' n hn n' hn'
    obtain rfl := List.mem_singleton.mp h
    obtain rfl := List.mem_singleton.mp h'
    exact Option.mem_unique hn hn'
  · simp
  · cases hs : rs.routingFamily.2 <;> simp [hs]

theorem Compatible.subperm (h : Compatible members) (hsub : others.Subperm members) :
    Compatible others where
  family rs hrs rs' hrs' := h.family rs (hsub.subset hrs) rs' (hsub.subset hrs')
  ttl rs hrs rs' hrs' := h.ttl rs (hsub.subset hrs) rs' (hsub.subset hrs')
  weighted rs hrs hw := hsub.length_le.trans (h.weighted rs (hsub.subset hrs) hw)
  selectors := by
    obtain ⟨l, hperm, hl⟩ := hsub
    exact (hperm.filterMap _).nodup_iff.mp (h.selectors.sublist (hl.filterMap _))

/-- What the scan remembers of a group. -/
def summarize : List ProviderDnsRecordSet → Option Route53GroupState
  | [] => none
  | rs :: members => some {
      family := rs.routingFamily.1
      explicitTtl := (rs :: members).findSome? fun rs => rs.ttl.explicit
      uniqueMembers := ((rs :: members).filterMap fun rs => rs.routingFamily.2).toFinset
      memberCount := (rs :: members).length }

/-- The state one more member of a group is checked against. -/
def groupBefore (members : List ProviderDnsRecordSet) (rs : ProviderDnsRecordSet) :
    Route53GroupState :=
  (summarize members).getD ⟨rs.routingFamily.1, rs.ttl.explicit, ∅, 0⟩

variable {state : Route53GroupState}

omit [Platform] in
theorem join_eq_ok {state' : Route53GroupState} {family : Route53RoutingFamily}
    {explicitTtl : Option Nat} {uniqueMember : Option String} :
    state.join family explicitTtl uniqueMember = .ok state' ↔
      (state.family = family ∧
        (∀ ttl ∈ explicitTtl, ∀ existing ∈ state.explicitTtl, existing = ttl) ∧
        (state.family = .weighted → state.memberCount + 1 ≤ 100) ∧
        ∀ member ∈ uniqueMember, member ∉ state.uniqueMembers) ∧
      state' = ⟨state.family, state.explicitTtl.or explicitTtl,
        uniqueMember.toList.toFinset ∪ state.uniqueMembers, state.memberCount + 1⟩ := by
  simp only [Route53GroupState.join, bind_eq_ok, exists_unit, require_eq_ok, pure_eq_ok, and_assoc]
  cases uniqueMember <;> simp [eq_comm (b := state')]

/-- One more compatible member, with those before it not empty. -/
theorem compatible_append (h : Compatible members) (hne : rs' ∈ members) :
    Compatible (members ++ [rs]) ↔
      rs'.routingFamily.1 = rs.routingFamily.1 ∧
        (∀ n ∈ rs.ttl.explicit, ∀ n' ∈ members.findSome? (fun rs => rs.ttl.explicit), n' = n) ∧
        (rs'.routingFamily.1 = .weighted → members.length + 1 ≤ 100) ∧
        ∀ s ∈ rs.routingFamily.2, s ∉ members.filterMap fun rs => rs.routingFamily.2 := by
  have hlast : rs ∈ members ++ [rs] := by simp
  have hfront : ∀ m ∈ members, m ∈ members ++ [rs] := fun m hm => by simp [hm]
  constructor
  · intro hall
    refine ⟨hall.family rs' (hfront rs' hne) rs hlast, ?_, ?_, ?_⟩
    · intro n hn n' hn'
      obtain ⟨m, hm, hmn⟩ := List.exists_of_findSome?_eq_some hn'
      exact hall.ttl m (hfront m hm) rs hlast n' hmn n hn
    · intro hw
      simpa using hall.weighted rs' (hfront rs' hne) hw
    · intro s hs
      have hnodup := hall.selectors
      rw [List.filterMap_append, List.nodup_append] at hnodup
      intro hmem
      exact hnodup.2.2 s hmem s (by simpa using hs) rfl
  · rintro ⟨hfamily, httl, hweighted, hselector⟩
    have hsame : ∀ m ∈ members, m.routingFamily.1 = rs.routingFamily.1 :=
      fun m hm => (h.family m hm rs' hne).trans hfamily
    have hagree : ∀ m ∈ members, ∀ n ∈ m.ttl.explicit, ∀ n' ∈ rs.ttl.explicit, n = n' := by
      intro m hm n hn n' hn'
      obtain ⟨e, he⟩ := Option.isSome_iff_exists.mp (List.findSome?_isSome_iff.mpr
        ⟨m, hm, Option.isSome_of_mem hn⟩ :
          (members.findSome? fun rs => rs.ttl.explicit).isSome = true)
      obtain ⟨m', hm', hme⟩ := List.exists_of_findSome?_eq_some he
      exact (h.ttl m hm m' hm' n hn e hme).trans (httl n' hn' e he)
    constructor
    · intro m hm m' hm'
      rw [List.mem_append, List.mem_singleton] at hm hm'
      rcases hm with hm | rfl <;> rcases hm' with hm' | rfl
      · exact h.family m hm m' hm'
      · exact hsame m hm
      · exact (hsame m' hm').symm
      · rfl
    · intro m hm m' hm' n hn n' hn'
      rw [List.mem_append, List.mem_singleton] at hm hm'
      rcases hm with hm | rfl <;> rcases hm' with hm' | rfl
      · exact h.ttl m hm m' hm' n hn n' hn'
      · exact hagree m hm n hn n' hn'
      · exact (hagree m' hm' n' hn' n hn).symm
      · exact Option.mem_unique hn hn'
    · intro m hm hw
      rw [List.length_append, List.length_singleton]
      apply hweighted
      rw [List.mem_append, List.mem_singleton] at hm
      rcases hm with hm | rfl
      · exact (h.family rs' hne m hm).trans hw
      · exact hfamily.trans hw
    · rw [List.filterMap_append, List.nodup_append]
      refine ⟨h.selectors, ?_, ?_⟩
      · cases hs : rs.routingFamily.2 <;> simp [hs]
      · intro s hs s' hs' he
        subst he
        have hmem : s ∈ rs.routingFamily.2 := by simpa using hs'
        exact hselector s hmem hs

/-- A member is taken into a group exactly if it is compatible with those before it. -/
theorem join_groupBefore (h : Compatible members) :
    (groupBefore members rs).join rs.routingFamily.1 rs.ttl.explicit rs.routingFamily.2 =
        .ok state ↔
      Compatible (members ++ [rs]) ∧ some state = summarize (members ++ [rs]) := by
  rw [join_eq_ok]
  cases members with
  | nil =>
    have hone : Compatible ([] ++ [rs]) := Compatible.singleton
    have hcheck : ∀ n ∈ rs.ttl.explicit, ∀ n' ∈ rs.ttl.explicit, n' = n :=
      fun _ hn _ hn' => Option.mem_unique hn' hn
    simp only [hone, true_and]
    cases hs : rs.routingFamily.2 <;> cases ht : rs.ttl.explicit <;>
      simp [groupBefore, summarize, hs, ht]
  | cons m members =>
    rw [compatible_append h List.mem_cons_self]
    have hunion : rs.routingFamily.2.toList.toFinset ∪
        ((m :: members).filterMap fun rs => rs.routingFamily.2).toFinset =
          ((m :: members ++ [rs]).filterMap fun rs => rs.routingFamily.2).toFinset := by
      rw [List.filterMap_append, List.toFinset_append, Finset.union_comm]
      cases hs : rs.routingFamily.2 <;> simp [hs]
    have httl : (m :: members ++ [rs]).findSome? (fun rs => rs.ttl.explicit) =
        ((m :: members).findSome? fun rs => rs.ttl.explicit).or rs.ttl.explicit := by
      rw [List.findSome?_append, List.findSome?_singleton]
    have hafter : summarize (m :: members ++ [rs]) = some ⟨m.routingFamily.1,
        ((m :: members).findSome? fun rs => rs.ttl.explicit).or rs.ttl.explicit,
        rs.routingFamily.2.toList.toFinset ∪
          ((m :: members).filterMap fun rs => rs.routingFamily.2).toFinset,
        (m :: members).length + 1⟩ := by
      rw [← httl, hunion, List.cons_append, summarize, ← List.cons_append, List.length_append,
        List.length_singleton]
    rw [hafter, Option.some.injEq]
    simp only [groupBefore, summarize, Option.getD_some, List.mem_toFinset]

end Groups

section Scan

variable {zone : DnsZoneRef} {changes others : List DnsRecordChange} {change : DnsRecordChange}
  {rs : ProviderDnsRecordSet}

def ProviderDnsRecordSet.group (rs : ProviderDnsRecordSet) : DnsOwnerName × ProviderDnsRecordType :=
  (rs.key.owner, rs.key.recordType)

def groupMembers (changes : List DnsRecordChange)
    (group : DnsOwnerName × ProviderDnsRecordType) : List ProviderDnsRecordSet :=
  (desiredRecordSets changes).filter fun rs => rs.group = group

/-- The NS and SOA sets of the zone itself. -/
def DnsRecordSetKey.AtApex (zone : DnsZoneRef) (key : DnsRecordSetKey) : Prop :=
  key.owner.value = zone.apex.value ∧ (key.recordType = .ns ∨ key.recordType = .soa)

/-- What the loop over the changes checks. -/
structure Readable (zone : DnsZoneRef) (changes : List DnsRecordChange) : Prop where
  valid : ∀ change ∈ changes, change.validate zone = .ok ()
  apex : ∀ change ∈ changes, ¬ change.key.AtApex zone
  distinct : (changes.map DnsRecordChange.key).Nodup
  groups : zone.provider = .aws → ∀ group, Compatible (groupMembers changes group)

/-- The groups the loop has met. -/
def scannedGroups (zone : DnsZoneRef) (changes : List DnsRecordChange) : Route53Groups :=
  fun group => if zone.provider = .aws then summarize (groupMembers changes group) else none

/-- An owner, and whether the record set is a CNAME. -/
def ProviderDnsRecordSet.ownerAndType (rs : ProviderDnsRecordSet) : DnsOwnerName × Bool :=
  (rs.key.owner, decide (rs.key.recordType = .cname))

/-- What the loop remembers of the changes it has read. -/
def scanned (zone : DnsZoneRef) (changes : List DnsRecordChange) : ChangeScan where
  keys := (changes.map DnsRecordChange.key).reverse
  ownersAndTypes := ((desiredRecordSets changes).map ownerAndType).reverse
  groups := scannedGroups zone changes

theorem desiredRecordSets_append : desiredRecordSets (changes ++ [change]) =
    desiredRecordSets changes ++ change.desiredRecordSet.toList := by
  rw [desiredRecordSets, desiredRecordSets, List.filterMap_append]
  cases h : change.desiredRecordSet <;> simp [h]

theorem groupMembers_append_none (h : change.desiredRecordSet = none) :
    groupMembers (changes ++ [change]) = groupMembers changes := by
  funext group
  simp [groupMembers, desiredRecordSets_append, h]

theorem groupMembers_append_some (h : change.desiredRecordSet = some rs)
    {group : DnsOwnerName × ProviderDnsRecordType} : groupMembers (changes ++ [change]) group =
      if rs.group = group then groupMembers changes group ++ [rs]
      else groupMembers changes group := by
  by_cases hg : rs.group = group <;> simp [groupMembers, desiredRecordSets_append, h, hg]

variable {groups : Route53Groups} {scan : ChangeScan}

theorem validateRoute53GroupMember_eq_ok {groups' : Route53Groups} :
    validateRoute53GroupMember groups rs = .ok groups' ↔
      ∃ state, ((groups rs.group).getD ⟨rs.routingFamily.1, rs.ttl.explicit, ∅, 0⟩).join
          rs.routingFamily.1 rs.ttl.explicit rs.routingFamily.2 = .ok state ∧
        groups' = Function.update groups rs.group (some state) := by
  simp only [validateRoute53GroupMember, bind_eq_ok, pure_eq_ok, ProviderDnsRecordSet.group,
    eq_comm (b := groups')]

/-- The groups after one more change of an AWS zone. -/
theorem validate_member (hzone : zone.provider = .aws) (h : Readable zone changes)
    (hrs : change.desiredRecordSet = some rs) :
    validateRoute53GroupMember (scannedGroups zone changes) rs = .ok groups ↔
      (∀ group, Compatible (groupMembers (changes ++ [change]) group)) ∧
        groups = scannedGroups zone (changes ++ [change]) := by
  have hgroup : ∀ group, scannedGroups zone changes group =
      summarize (groupMembers changes group) := fun _ => if_pos hzone
  have hall : (∀ group, Compatible (groupMembers (changes ++ [change]) group)) ↔
      Compatible (groupMembers changes rs.group ++ [rs]) := by
    constructor
    · intro hc
      have := hc rs.group
      rwa [groupMembers_append_some hrs, if_pos rfl] at this
    · intro hc group
      rw [groupMembers_append_some hrs]
      split
      · rename_i he
        exact he ▸ hc
      · exact h.groups hzone group
  have hafter : ∀ state, some state = summarize (groupMembers changes rs.group ++ [rs]) →
      Function.update (scannedGroups zone changes) rs.group (some state) =
        scannedGroups zone (changes ++ [change]) := by
    intro state hstate
    funext group
    rw [scannedGroups, if_pos hzone, groupMembers_append_some hrs]
    by_cases he : rs.group = group
    · subst he
      rw [Function.update_self, if_pos rfl, hstate]
    · rw [Function.update_of_ne (Ne.symm he), if_neg he, hgroup]
  rw [validateRoute53GroupMember_eq_ok, hall, hgroup]
  change (∃ state, (groupBefore _ rs).join _ _ _ = _ ∧ _) ↔ _
  simp only [join_groupBefore (h.groups hzone rs.group)]
  constructor
  · rintro ⟨state, ⟨hc, hstate⟩, rfl⟩
    exact ⟨hc, hafter state hstate⟩
  · rintro ⟨hc, rfl⟩
    obtain ⟨state, hstate⟩ : ∃ state, some state =
        summarize (groupMembers changes rs.group ++ [rs]) := by
      cases groupMembers changes rs.group <;> exact ⟨_, rfl⟩
    exact ⟨state, ⟨hc, hstate⟩, (hafter state hstate).symm⟩

theorem Readable.subperm (h : Readable zone changes) (hsub : others.Subperm changes) :
    Readable zone others := by
  have hmem := hsub.subset
  obtain ⟨l, hperm, hl⟩ := hsub
  exact {
    valid change hc := h.valid change (hmem hc)
    apex change hc := h.apex change (hmem hc)
    distinct := (hperm.map _).nodup_iff.mp (h.distinct.sublist (hl.map _))
    groups hzone group := (h.groups hzone group).subperm
      ⟨_, (hperm.filterMap _).filter _, (hl.filterMap _).filter _⟩ }

theorem readable_append (h : Readable zone changes) : Readable zone (changes ++ [change]) ↔
      change.validate zone = .ok () ∧ ¬ change.key.AtApex zone ∧
        change.key ∉ changes.map DnsRecordChange.key ∧
        (zone.provider = .aws →
          ∀ group, Compatible (groupMembers (changes ++ [change]) group)) := by
  have hlast : change ∈ changes ++ [change] := by simp
  constructor
  · intro hall
    refine ⟨hall.valid change hlast, hall.apex change hlast, ?_, hall.groups⟩
    have hnodup := hall.distinct
    rw [List.map_append, List.map_singleton] at hnodup
    exact fun hmem => (List.nodup_append.mp hnodup).2.2 _ hmem _ (by simp) rfl
  · rintro ⟨hvalid, hapex, hkey, hgroups⟩
    refine ⟨?_, ?_, ?_, hgroups⟩
    · exact List.forall_mem_append.mpr ⟨h.valid, List.forall_mem_singleton.mpr hvalid⟩
    · exact List.forall_mem_append.mpr ⟨h.apex, List.forall_mem_singleton.mpr hapex⟩
    · rw [List.map_append, List.map_singleton, List.nodup_append]
      refine ⟨h.distinct, List.nodup_singleton _, ?_⟩
      intro k hk k' hk' he
      exact hkey (List.mem_singleton.mp hk' ▸ he ▸ hk)

/-- The part of a step that concerns the groups. -/
def stepGroups (zone : DnsZoneRef) (groups : Route53Groups) (change : DnsRecordChange) :
    CoreResult Route53Groups :=
  match zone.provider, change.desiredRecordSet with
  | .aws, some rs => validateRoute53GroupMember groups rs
  | _, _ => .ok groups

theorem step_eq_ok {scan' : ChangeScan} : scan.step zone change = .ok scan' ↔
    change.validate zone = .ok () ∧ ¬ change.key.AtApex zone ∧ change.key ∉ scan.keys ∧
      ∃ groups, stepGroups zone scan.groups change = .ok groups ∧
        scan' = ⟨change.key :: scan.keys,
          change.desiredRecordSet.toList.map ownerAndType ++
            scan.ownersAndTypes, groups⟩ := by
  simp only [ChangeScan.step, bind_eq_ok, exists_unit, require_eq_ok, DnsRecordSetKey.AtApex]
  cases hp : zone.provider <;> cases hd : change.desiredRecordSet <;>
    simp [stepGroups, hp, hd, ownerAndType, eq_comm (b := scan')]

theorem stepGroups_scanned (h : Readable zone changes) :
    stepGroups zone (scannedGroups zone changes) change = .ok groups ↔
      (zone.provider = .aws → ∀ group, Compatible (groupMembers (changes ++ [change]) group)) ∧
        groups = scannedGroups zone (changes ++ [change]) := by
  cases hp : zone.provider with
  | cloudflare =>
    have hnone : scannedGroups zone changes = scannedGroups zone (changes ++ [change]) := by
      funext group
      simp [scannedGroups, hp]
    simp [stepGroups, hp, hnone, eq_comm]
  | aws =>
    cases hd : change.desiredRecordSet with
    | none =>
      have hsame : scannedGroups zone changes = scannedGroups zone (changes ++ [change]) := by
        funext group
        rw [scannedGroups, scannedGroups, groupMembers_append_none hd]
      simp only [stepGroups, hp, hd, hsame, Except.ok.injEq, groupMembers_append_none hd,
        eq_comm (b := groups)]
      exact ⟨fun hg => ⟨fun _ => h.groups hp, hg⟩, fun hg => hg.2⟩
    | some rs => simp only [stepGroups, hp, hd, validate_member hp h hd, true_implies]

theorem step_scanned (h : Readable zone changes) :
    (scanned zone changes).step zone change = .ok scan ↔
      Readable zone (changes ++ [change]) ∧ scan = scanned zone (changes ++ [change]) := by
  have hkeys : change.key ∉ (scanned zone changes).keys ↔
      change.key ∉ changes.map DnsRecordChange.key := by
    simp [scanned]
  have hnext : ∀ groups, groups = scannedGroups zone (changes ++ [change]) →
      (⟨change.key :: (scanned zone changes).keys,
        change.desiredRecordSet.toList.map ownerAndType ++
          (scanned zone changes).ownersAndTypes, groups⟩ : ChangeScan) =
        scanned zone (changes ++ [change]) := by
    rintro _ rfl
    cases hd : change.desiredRecordSet <;> simp [scanned, desiredRecordSets_append, hd]
  rw [readable_append h, step_eq_ok, hkeys]
  change _ ∧ _ ∧ _ ∧ (∃ groups, stepGroups zone (scannedGroups zone changes) change = _ ∧ _) ↔ _
  simp only [stepGroups_scanned h]
  constructor
  · rintro ⟨hvalid, hapex, hkey, groups, ⟨hgroups, heq⟩, rfl⟩
    exact ⟨⟨hvalid, hapex, hkey, hgroups⟩, hnext groups heq⟩
  · rintro ⟨⟨hvalid, hapex, hkey, hgroups⟩, rfl⟩
    exact ⟨hvalid, hapex, hkey, _, ⟨hgroups, rfl⟩, (hnext _ rfl).symm⟩

theorem foldlM_step : changes.foldlM (ChangeScan.step zone) {} = .ok scan ↔
      Readable zone changes ∧ scan = scanned zone changes := by
  have hempty : ({} : ChangeScan) = scanned zone [] := by
    have : (fun _ => none) = scannedGroups zone [] := by
      funext group
      simp [scannedGroups, groupMembers, desiredRecordSets, summarize]
    simp [scanned, desiredRecordSets, this]
  rw [hempty]
  apply foldlM_eq_ok
  · constructor <;> simp [groupMembers, desiredRecordSets, Compatible.nil]
  · intro xs x hx
    exact hx.subperm (List.sublist_append_left xs [x]).subperm
  · intro xs x t hx
    exact step_scanned hx

end Scan

section Acceptance

variable {zone : DnsZoneRef} {changes others : List DnsRecordChange} {change : DnsRecordChange}
  {rs : ProviderDnsRecordSet} {members : List ProviderDnsRecordSet}

/-- Record sets of one owner and type among which queries are routed. -/
structure RoutedGroup (members : List ProviderDnsRecordSet) : Prop where
  routed : ∀ rs ∈ members, rs.routingPolicy ≠ none
  family : ∀ rs ∈ members, ∀ rs' ∈ members, rs.routingFamily.1 = rs'.routingFamily.1
  selectors : members.Pairwise fun rs rs' => ∀ policy,
    rs.routingPolicy = some policy → rs'.routingPolicy = some policy → policy.selects = false
  ttl : ∀ rs ∈ members, ∀ rs' ∈ members, ∀ n ∈ rs.ttl.explicit, ∀ n' ∈ rs'.ttl.explicit, n = n'
  weighted : ∀ rs ∈ members, rs.routingFamily.1 = .weighted → members.length ≤ 100

/-- One simple record set, or several routed ones. -/
def Route53Group (members : List ProviderDnsRecordSet) : Prop :=
  (∃ rs, members = [rs] ∧ rs.routingPolicy = none) ∨ RoutedGroup members

/-- No owner is left with a CNAME and something else. -/
def CnamesAlone (changes : List DnsRecordChange) : Prop :=
  ∀ rs ∈ desiredRecordSets changes, ∀ rs' ∈ desiredRecordSets changes,
    rs.key.owner = rs'.key.owner → rs.key.recordType = .cname → rs'.key.recordType = .cname

/-- What is asked of a batch of changes, with no order among them. -/
structure Acceptable (zone : DnsZoneRef) (changes : List DnsRecordChange) : Prop where
  size : changes ≠ [] ∧ changes.length ≤ 1000
  valid : ∀ change ∈ changes, change.validate zone = .ok ()
  distinct : (changes.map DnsRecordChange.key).Nodup
  apex : ∀ change ∈ changes, ¬ change.key.AtApex zone
  cname : CnamesAlone changes
  groups : zone.provider = .aws → ∀ group, groupMembers changes group ≠ [] →
    Route53Group (groupMembers changes group)

theorem zone_validate_of_change (h : change.validate zone = .ok ()) : zone.validate = .ok () := by
  have hset : ∀ {rs : ProviderDnsRecordSet} {zone : DnsZoneRef}, rs.validate zone = .ok () →
      zone.validate = .ok () := by
    intro rs zone h
    simp only [ProviderDnsRecordSet.validate, bind_eq_ok, exists_unit] at h
    exact h.1
  cases change with
  | create recordSet guard =>
    simp only [DnsRecordChange.validate, bind_eq_ok, exists_unit] at h
    exact hset h.1
  | replace previous desired guard =>
    simp only [DnsRecordChange.validate, bind_eq_ok, exists_unit] at h
    exact hset h.2.1
  | delete previous guard =>
    simp only [DnsRecordChange.validate, bind_eq_ok, exists_unit, require_eq_ok,
      ObservedDnsRecordSet.validate_eq_ok] at h
    obtain ⟨hprevious, -, rfl, -⟩ := h
    exact hset hprevious

theorem validate_of_desired (h : change.validate zone = .ok ())
    (hrs : change.desiredRecordSet = some rs) : rs.validate zone = .ok () := by
  cases change with
  | create recordSet guard =>
    cases hrs
    simp only [DnsRecordChange.validate, bind_eq_ok, exists_unit] at h
    exact h.1
  | replace previous desired guard =>
    cases hrs
    simp only [DnsRecordChange.validate, bind_eq_ok, exists_unit] at h
    exact h.2.1
  | delete previous guard => cases hrs

/-- In an AWS zone only a routed record set has a set identifier. -/
theorem routing_of_validate (hzone : zone.provider = .aws) (h : rs.validate zone = .ok ())
    (hpolicy : rs.routingPolicy = none) : rs.key.routing = .simple := by
  simp only [ProviderDnsRecordSet.validate, bind_eq_ok, exists_unit] at h
  have hext := h.2.2.2.2.2.2
  rw [validateExtension] at hext
  rw [ProviderDnsRecordSet.routingPolicy] at hpolicy
  cases he : rs.extension with
  | none =>
    simp only [he, validatePortable, bind_eq_ok, exists_unit,
      require_eq_ok] at hext
    exact hext.2.2.2
  | some extension =>
    cases extension with
    | cloudflare proxy cnameFlattening comment tags =>
      simp only [he, validateCloudflare, bind_eq_ok, exists_unit,
        require_eq_ok, hzone] at hext
      cases hext.1.1
    | route53 aliasTarget routingPolicy healthCheckId =>
      rw [he] at hpolicy
      obtain rfl : routingPolicy = none := hpolicy
      cases hr : rs.key.routing with
      | simple => rfl
      | route53 setIdentifier =>
        cases aliasTarget <;>
          simp [he, validateRoute53, hr, DnsRoutingIdentity.agrees] at hext

theorem exists_change_of_desired (h : rs ∈ desiredRecordSets changes) :
    ∃ change ∈ changes, change.desiredRecordSet = some rs :=
  List.mem_filterMap.mp h

theorem nodup_desired_keys (h : (changes.map DnsRecordChange.key).Nodup) :
    ((desiredRecordSets changes).map fun rs => rs.key).Nodup := by
  rw [List.nodup_iff_pairwise_ne, List.pairwise_map] at h
  rw [List.nodup_iff_pairwise_ne, List.pairwise_map, desiredRecordSets, List.pairwise_filterMap]
  apply h.imp
  intro change change' hne rs hrs rs' hrs'
  rwa [← key_of_desiredRecordSet hrs, ← key_of_desiredRecordSet hrs']

theorem routingPolicy_of_family (h : rs.routingFamily.1 = .simple) : rs.routingPolicy = none := by
  rw [routingFamily_eq] at h
  cases hp : rs.routingPolicy with
  | none => rfl
  | some policy =>
    rw [hp] at h
    cases policy <;> cases h

theorem family_of_routingPolicy (h : rs.routingPolicy = none) : rs.routingFamily.1 = .simple := by
  rw [routingFamily_eq, h]
  rfl

/-- Within a family the selectors differ exactly if the policies that select do. -/
theorem selectors_iff
    (hfamily : ∀ rs ∈ members, ∀ rs' ∈ members, rs.routingFamily.1 = rs'.routingFamily.1) :
    (members.filterMap fun rs => rs.routingFamily.2).Nodup ↔
      members.Pairwise fun rs rs' => ∀ policy, rs.routingPolicy = some policy →
        rs'.routingPolicy = some policy → policy.selects = false := by
  have hselector : ∀ {rs : ProviderDnsRecordSet} {s : String}, rs.routingFamily.2 = some s ↔
      ∃ policy, rs.routingPolicy = some policy ∧ policy.family.2 = some s := by
    intro rs s
    rw [routingFamily_eq]
    cases rs.routingPolicy <;> simp
  have hfirst : ∀ {rs : ProviderDnsRecordSet} {policy : Route53RoutingPolicy},
      rs.routingPolicy = some policy → rs.routingFamily.1 = policy.family.1 := by
    intro rs policy h
    rw [routingFamily_eq, h]
    rfl
  rw [List.nodup_iff_pairwise_ne, List.pairwise_filterMap]
  apply List.Pairwise.iff_of_mem
  intro rs rs' hrs hrs'
  constructor
  · intro hne policy hp hp'
    by_contra hs
    obtain ⟨s, hs⟩ := Route53RoutingPolicy.selects_iff.mp (Bool.eq_true_of_not_eq_false hs)
    exact hne s (hselector.mpr ⟨policy, hp, hs⟩) s (hselector.mpr ⟨policy, hp', hs⟩) rfl
  · rintro hsel s hs s' hs' rfl
    obtain ⟨policy, hp, hps⟩ := hselector.mp hs
    obtain ⟨policy', hp', hps'⟩ := hselector.mp hs'
    obtain rfl := Route53RoutingPolicy.eq_of_family hps hps' (by
      rw [← hfirst hp, ← hfirst hp', hfamily rs hrs rs' hrs'])
    have hno := hsel policy hp hp'
    rw [Route53RoutingPolicy.selects_iff.mpr ⟨s, hps⟩] at hno
    cases hno

variable {group : DnsOwnerName × ProviderDnsRecordType}

/-- Two simple record sets of one group would be the same record set. -/
theorem eq_singleton_of_simple (hzone : zone.provider = .aws)
    (hvalid : ∀ change ∈ changes, change.validate zone = .ok ())
    (hdistinct : (changes.map DnsRecordChange.key).Nodup) (hne : groupMembers changes group ≠ [])
    (hsimple : ∀ rs ∈ groupMembers changes group, rs.routingPolicy = none) :
    ∃ rs, groupMembers changes group = [rs] ∧ rs.routingPolicy = none := by
  have hkeys : ((groupMembers changes group).map fun rs => rs.key).Nodup :=
    (nodup_desired_keys hdistinct).sublist (List.filter_sublist.map _)
  have hsame : ∀ rs ∈ groupMembers changes group, ∀ rs' ∈ groupMembers changes group,
      rs.key = rs'.key := by
    intro rs hrs rs' hrs'
    have hrouting : ∀ m ∈ groupMembers changes group, m.group = group ∧
        m.key.routing = .simple := by
      intro m hm
      obtain ⟨hdesired, hg⟩ := List.mem_filter.mp hm
      obtain ⟨change, hc, hd⟩ := exists_change_of_desired hdesired
      exact ⟨of_decide_eq_true hg,
        routing_of_validate hzone (validate_of_desired (hvalid change hc) hd) (hsimple m hm)⟩
    obtain ⟨hg, hr⟩ := hrouting rs hrs
    obtain ⟨hg', hr'⟩ := hrouting rs' hrs'
    have hgroup := hg.trans hg'.symm
    exact DnsRecordSetKey.ext_of_simple hr hr'
      (congrArg (fun g => g.1.value) hgroup) (congrArg (fun g => g.2) hgroup)
  cases hm : groupMembers changes group with
  | nil => exact absurd hm hne
  | cons rs rest =>
    rw [hm] at hkeys hsame hsimple
    cases rest with
    | nil => exact ⟨rs, rfl, hsimple rs (by simp)⟩
    | cons rs' rest =>
      have := hsame rs (by simp) rs' (by simp)
      simp [this] at hkeys

theorem compatible_iff_group (hzone : zone.provider = .aws)
    (hvalid : ∀ change ∈ changes, change.validate zone = .ok ())
    (hdistinct : (changes.map DnsRecordChange.key).Nodup) :
    Compatible (groupMembers changes group) ↔
      (groupMembers changes group ≠ [] → Route53Group (groupMembers changes group)) := by
  constructor
  · intro h hne
    by_cases hsimple : ∃ rs ∈ groupMembers changes group, rs.routingPolicy = none
    · left
      apply eq_singleton_of_simple hzone hvalid hdistinct hne
      obtain ⟨rs, hrs, hpolicy⟩ := hsimple
      intro rs' hrs'
      exact routingPolicy_of_family
        ((h.family rs' hrs' rs hrs).trans (family_of_routingPolicy hpolicy))
    · right
      exact ⟨fun rs hrs hpolicy => hsimple ⟨rs, hrs, hpolicy⟩, h.family,
        (selectors_iff h.family).mp h.selectors, h.ttl, h.weighted⟩
  · intro h
    by_cases hne : groupMembers changes group = []
    · rw [hne]
      exact .nil
    · rcases h hne with ⟨rs, hone, -⟩ | hrouted
      · rw [hone]
        exact .singleton
      · exact ⟨hrouted.family, hrouted.ttl, hrouted.weighted,
          (selectors_iff hrouted.family).mpr hrouted.selectors⟩

theorem readable_iff : Readable zone changes ↔
    (∀ change ∈ changes, change.validate zone = .ok ()) ∧
      (changes.map DnsRecordChange.key).Nodup ∧ (∀ change ∈ changes, ¬ change.key.AtApex zone) ∧
      (zone.provider = .aws → ∀ group, groupMembers changes group ≠ [] →
        Route53Group (groupMembers changes group)) := by
  constructor
  · intro h
    exact ⟨h.valid, h.distinct, h.apex,
      fun hzone _ => (compatible_iff_group hzone h.valid h.distinct).mp (h.groups hzone _)⟩
  · rintro ⟨hvalid, hdistinct, hapex, hgroups⟩
    exact ⟨hvalid, hapex, hdistinct,
      fun hzone group => (compatible_iff_group hzone hvalid hdistinct).mpr (hgroups hzone group)⟩

theorem owners_iff : (∀ entry ∈ (scanned zone changes).ownersAndTypes, entry.2 = true →
    (entry.1, false) ∉ (scanned zone changes).ownersAndTypes) ↔ CnamesAlone changes := by
  simp only [CnamesAlone, scanned, List.mem_reverse, List.mem_map, forall_exists_index, and_imp,
    forall_apply_eq_imp_iff₂, ownerAndType, decide_eq_true_eq, Prod.mk.injEq,
    decide_eq_false_iff_not, not_exists, not_and, not_not]
  constructor
  · intro h rs hrs rs' hrs' howner hcname
    exact h rs hrs hcname rs' hrs' howner.symm
  · intro h rs hrs hcname rs' hrs' howner
    exact h rs hrs rs' hrs' howner.symm hcname

theorem CnamesAlone.subset (h : CnamesAlone changes) (hsub : others ⊆ changes) :
    CnamesAlone others := by
  have hdesired : desiredRecordSets others ⊆ desiredRecordSets changes :=
    List.filterMap_subset _ hsub
  intro rs hrs rs' hrs'
  exact h rs (hdesired hrs) rs' (hdesired hrs')

/-- The checks of a batch: its size, the loop over the changes, and the one after the loop. -/
theorem validateDnsChanges_eq_ok : validateDnsChanges zone changes = .ok () ↔
    (changes ≠ [] ∧ changes.length ≤ 1000) ∧ Readable zone changes ∧ CnamesAlone changes := by
  simp only [validateDnsChanges, bind_eq_ok, exists_unit, require_eq_ok, foldlM_step]
  constructor
  · rintro ⟨-, hsize, scan, ⟨hread, rfl⟩, hcname⟩
    exact ⟨hsize, hread, owners_iff.mp hcname⟩
  · rintro ⟨hsize, hread, hcname⟩
    obtain ⟨change, hc⟩ := List.exists_mem_of_ne_nil changes hsize.1
    exact ⟨zone_validate_of_change (hread.valid change hc), hsize, _, ⟨hread, rfl⟩,
      owners_iff.mpr hcname⟩

theorem acceptable_iff : Acceptable zone changes ↔
    (changes ≠ [] ∧ changes.length ≤ 1000) ∧ Readable zone changes ∧ CnamesAlone changes := by
  rw [readable_iff]
  constructor
  · intro h
    exact ⟨h.size, ⟨h.valid, h.distinct, h.apex, h.groups⟩, h.cname⟩
  · rintro ⟨hsize, ⟨hvalid, hdistinct, hapex, hgroups⟩, hcname⟩
    exact ⟨hsize, hvalid, hdistinct, hapex, hcname, hgroups⟩

theorem validateDnsChanges_subperm (h : validateDnsChanges zone changes = .ok ())
    (hsub : others.Subperm changes) (hne : others ≠ []) :
    validateDnsChanges zone others = .ok () := by
  obtain ⟨⟨-, hlen⟩, hread, hcname⟩ := validateDnsChanges_eq_ok.mp h
  rw [validateDnsChanges_eq_ok]
  exact ⟨⟨hne, hsub.length_le.trans hlen⟩, hread.subperm hsub, hcname.subset hsub.subset⟩

theorem validateDnsChanges_perm (h : validateDnsChanges zone changes = .ok ())
    (hperm : changes.Perm others) : validateDnsChanges zone others = .ok () := by
  refine validateDnsChanges_subperm h hperm.symm.subperm ?_
  rintro rfl
  exact (validateDnsChanges_eq_ok.mp h).1.1 hperm.eq_nil

/-- A batch is accepted exactly if it is acceptable, so neither the order of its changes nor
leaving some of them out turns an accepted batch into a refused one. -/
theorem change_validation_declarative (zone : DnsZoneRef) (changes : List DnsRecordChange) :
    (validateDnsChanges zone changes = .ok () ↔ Acceptable zone changes) ∧
      (∀ others, changes.Perm others →
        (validateDnsChanges zone changes = .ok () ↔ validateDnsChanges zone others = .ok ())) ∧
      ∀ others, others.Sublist changes → others ≠ [] →
        validateDnsChanges zone changes = .ok () → validateDnsChanges zone others = .ok () := by
  refine ⟨?_, ?_, ?_⟩
  · rw [validateDnsChanges_eq_ok, acceptable_iff]
  · intro others hperm
    exact ⟨fun h => validateDnsChanges_perm h hperm, fun h => validateDnsChanges_perm h hperm.symm⟩
  · intro others hsub hne h
    exact validateDnsChanges_subperm h hsub.subperm hne

end Acceptance

end EdgionCenter
