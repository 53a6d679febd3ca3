import EdgionCenter.Core
import EdgionCenter.Lib.Entries
import EdgionCenter.Lib.Run

/-! The in-memory table of controllers and the gauges it keeps up to date. -/
namespace EdgionCenter.Aggregator

open Transition

structure ControllerInfo where
  controllerId : String
  cluster : String
  environments : List String
  tags : List String

structure StatsEntry where
  total : Nat
  perKind : Option (List (String × Nat))
  updatedAt : Nat

structure ControllerSnapshot where
  info : ControllerInfo
  offlineSince : Option Nat
  stats : Option StatsEntry

/-- The label a controller is counted under. -/
def ControllerSnapshot.label (snap : ControllerSnapshot) : String :=
  if snap.info.cluster = "" then "unknown" else snap.info.cluster

def ControllerSnapshot.online (snap : ControllerSnapshot) : Bool := snap.offlineSince.isNone

/-- The first loop of `compute_gauge_snapshot`. -/
def seedGauges (values : List ControllerSnapshot) : Map Nat :=
  values.foldl (fun gauges snap => gauges.insertIfNew snap.label 0) ∅

/-- Both loops, over the values in the order of an iteration. -/
def computeGaugeSnapshot (values : List ControllerSnapshot) : Map Nat :=
  (values.filter ControllerSnapshot.online).foldl
    (fun gauges snap => gauges.insert snap.label (gauges[snap.label]?.getD 0 + 1))
    (seedGauges values)

/-- The table, and what the metrics backend was told: counts by label, the latest first. -/
structure ResourceAggregator where
  inner : Map ControllerSnapshot
  counts : List (String × Nat)
  evictions : Nat

def ResourceAggregator.new : ResourceAggregator := ⟨∅, [], 0⟩

inductive Call
  | setControllerInfo (controllerId : String) (info : ControllerInfo)
  | markOffline (controllerId : String) (now : Nat)
  | updateStats (controllerId : String) (perKind : Option (List (String × Nat))) (total now : Nat)
  | remove (controllerId : String) (found : Bool)

section Tables

variable (inner : Map ControllerSnapshot) (controllerId : String)

def registered (info : ControllerInfo) : Map ControllerSnapshot :=
  inner.insert controllerId ⟨info, none, none⟩

/-- `if let Some(snap) = map.get_mut(controller_id)`. -/
def modified (change : ControllerSnapshot → ControllerSnapshot) : Map ControllerSnapshot :=
  match inner[controllerId]? with
  | some snap => inner.insert controllerId (change snap)
  | none => inner

def markedOffline (now : Nat) : Map ControllerSnapshot :=
  modified inner controllerId fun snap =>
    { snap with offlineSince := some (snap.offlineSince.getD now) }

def withStats (entry : StatsEntry) : Map ControllerSnapshot :=
  modified inner controllerId fun snap => { snap with stats := some entry }

/-- The label of a removed controller when no other one is left under it. -/
def zeroCluster (removed : ControllerSnapshot) (left : List ControllerSnapshot) : Option String :=
  if left.any (fun snap => snap.label == removed.label) then none else some removed.label

end Tables

/-- What the backend hears of a table: the gauges of one iteration over it, in some order. -/
inductive Emits (inner : Map ControllerSnapshot) : List (String × Nat) → Prop
  | mk {values : List ControllerSnapshot} (hvalues : values.Perm (inner.toList.map Prod.snd))
      (hgauges : gauges.Perm (computeGaugeSnapshot values).toList) : Emits inner gauges

inductive Step : ResourceAggregator → Call → ResourceAggregator → Prop
  | setControllerInfo {s : ResourceAggregator} (h : Emits (registered s.inner controllerId info) gauges) :
      Step s (.setControllerInfo controllerId info)
        ⟨registered s.inner controllerId info, gauges ++ s.counts, s.evictions⟩
  | markOffline {s : ResourceAggregator} (h : Emits (markedOffline s.inner controllerId now) gauges) :
      Step s (.markOffline controllerId now)
        ⟨markedOffline s.inner controllerId now, gauges ++ s.counts, s.evictions⟩
  | updateStats {s : ResourceAggregator} :
      Step s (.updateStats controllerId perKind total now)
        { s with inner := withStats s.inner controllerId ⟨total, perKind, now⟩ }
  | remove {s : ResourceAggregator} (hfound : s.inner[controllerId]? = some snap) (h : Emits (s.inner.erase controllerId) gauges)
      (hleft : left.Perm ((s.inner.erase controllerId).toList.map Prod.snd)) :
      Step s (.remove controllerId true)
        ⟨s.inner.erase controllerId,
          ((zeroCluster snap left).map fun cluster => (cluster, 0)).toList ++ gauges ++ s.counts,
          s.evictions + 1⟩
  | removeNone {s : ResourceAggregator} (h : s.inner[controllerId]? = none) :
      Step s (.remove controllerId false) s

/-- The controllers of a label that are present and online. -/
def onlineCount (inner : Map ControllerSnapshot) (label : String) : Nat :=
  (inner.toList.map Prod.snd).countP fun snap => snap.label == label && snap.online

section Gauges

variable {values : List ControllerSnapshot} {label : String} {gauges : Map Nat}

theorem mem_foldl {step : Map Nat → ControllerSnapshot → Map Nat}
    (hstep : ∀ gauges snap, label ∈ step gauges snap ↔ snap.label = label ∨ label ∈ gauges) :
    label ∈ values.foldl step gauges ↔ label ∈ gauges ∨ ∃ snap ∈ values, snap.label = label := by
  induction values generalizing gauges with
  | nil => simp
  | cons snap values ih =>
    rw [List.foldl_cons, ih, hstep]
    simp only [List.mem_cons, exists_eq_or_imp]
    tauto

theorem seed_zero (h : gauges[label]?.getD 0 = 0) :
    (values.foldl (fun gauges snap => gauges.insertIfNew snap.label 0) gauges)[label]?.getD 0 =
      0 := by
  induction values generalizing gauges with
  | nil => exact h
  | cons snap values ih =>
    rw [List.foldl_cons]
    apply ih
    rw [Std.ExtTreeMap.getElem?_insertIfNew]
    split
    · rfl
    · exact h

theorem count_adds : (values.foldl
        (fun gauges snap => gauges.insert snap.label (gauges[snap.label]?.getD 0 + 1))
        gauges)[label]?.getD 0 =
      gauges[label]?.getD 0 + values.countP fun snap => snap.label == label := by
  induction values generalizing gauges with
  | nil => simp
  | cons snap values ih =>
    rw [List.foldl_cons, ih, List.countP_cons]
    by_cases h : snap.label = label
    · subst h
      simp
      omega
    · simp [h, Std.ExtTreeMap.getElem?_insert]

theorem mem_computeGaugeSnapshot :
    label ∈ computeGaugeSnapshot values ↔ ∃ snap ∈ values, snap.label = label := by
  rw [computeGaugeSnapshot, mem_foldl (by simp), seedGauges, mem_foldl (by simp)]
  simp only [Std.ExtTreeMap.not_mem_empty, false_or, List.mem_filter]
  constructor
  · rintro (h | ⟨snap, ⟨hmem, -⟩, hlabel⟩)
    · exact h
    · exact ⟨snap, hmem, hlabel⟩
  · exact .inl

/-- A gauge counts the controllers of its label that are online. -/
theorem getElem?_computeGaugeSnapshot {n : Nat} (h : (computeGaugeSnapshot values)[label]? = some n) :
    n = values.countP fun snap => snap.label == label && snap.online := by
  have hcount : (computeGaugeSnapshot values)[label]?.getD 0 =
      (values.filter ControllerSnapshot.online).countP fun snap => snap.label == label := by
    rw [computeGaugeSnapshot, count_adds, seedGauges, seed_zero (by simp), Nat.zero_add]
  rw [h, Option.getD_some, List.countP_filter] at hcount
  exact hcount

end Gauges

section Emission

variable {inner : Map ControllerSnapshot} {gauges : List (String × Nat)} {label : String}

/-- A controller is known under the label. -/
def Known (inner : Map ControllerSnapshot) (label : String) : Prop :=
  ∃ (controllerId : String) (snap : ControllerSnapshot),
    inner[controllerId]? = some snap ∧ snap.label = label

variable {values : List ControllerSnapshot}

theorem mem_values {snap : ControllerSnapshot} (h : values.Perm (inner.toList.map Prod.snd)) :
    snap ∈ values ↔ ∃ controllerId : String, inner[controllerId]? = some snap := by
  rw [h.mem_iff, List.mem_map]
  constructor
  · rintro ⟨⟨controllerId, _⟩, hmem, rfl⟩
    exact ⟨controllerId, Std.ExtTreeMap.mem_toList_iff_getElem?_eq_some.mp hmem⟩
  · rintro ⟨controllerId, hget⟩
    exact ⟨(controllerId, snap), Std.ExtTreeMap.mem_toList_iff_getElem?_eq_some.mpr hget, rfl⟩

theorem exists_label_iff_known (h : values.Perm (inner.toList.map Prod.snd)) :
    (∃ snap ∈ values, snap.label = label) ↔ Known inner label := by
  simp only [mem_values h, Known]
  constructor
  · rintro ⟨snap, ⟨controllerId, hget⟩, hlabel⟩
    exact ⟨controllerId, snap, hget, hlabel⟩
  · rintro ⟨controllerId, snap, hget, hlabel⟩
    exact ⟨snap, ⟨controllerId, hget⟩, hlabel⟩

/-- What is emitted of a table: nothing for a label nobody is known under, else its count. -/
theorem Emits.lookup_eq (h : Emits inner gauges) :
    (¬ Known inner label → gauges.lookup label = none) ∧
      (Known inner label → gauges.lookup label = some (onlineCount inner label)) := by
  obtain ⟨hvalues, hgauges⟩ := h
  rw [Entries.lookup_of_perm hgauges, ← exists_label_iff_known hvalues, ← mem_computeGaugeSnapshot]
  constructor
  · intro hno
    exact Std.ExtTreeMap.getElem?_eq_none hno
  · intro hmem
    obtain ⟨n, hn⟩ := Std.ExtTreeMap.isSome_getElem?_iff_mem.mpr hmem |> Option.isSome_iff_exists.mp
    rw [hn, getElem?_computeGaugeSnapshot hn, onlineCount, hvalues.countP_eq]

theorem onlineCount_eq_zero (h : ¬ Known inner label) : onlineCount inner label = 0 := by
  rw [onlineCount, List.countP_eq_zero]
  intro snap hmem hcount
  obtain ⟨controllerId, hget⟩ := (mem_values (List.Perm.refl _)).mp hmem
  rw [Bool.and_eq_true, beq_iff_eq] at hcount
  exact h ⟨controllerId, snap, hget, hcount.1⟩

end Emission

section Runs

variable {before after inner : Map ControllerSnapshot} {told counts : List (String × Nat)}
  {label : String} {clusterOf : String → String}

/-- The latest count of every label that was ever emitted is the count of the table. -/
def Fresh (inner : Map ControllerSnapshot) (counts : List (String × Nat)) : Prop :=
  ∀ label n, counts.lookup label = some n → n = onlineCount inner label

/-- What a call emits on its way from one table to the next. -/
structure Tells (before after : Map ControllerSnapshot) (told : List (String × Nat)) : Prop where
  right : ∀ label n, told.lookup label = some n → n = onlineCount after label
  silent : ∀ label, told.lookup label = none → ¬ Known before label ∧ ¬ Known after label

/-- A label that is not mentioned had no controller before and has none now. -/
theorem Fresh.tells (h : Fresh before counts) (ht : Tells before after told) :
    Fresh after (told ++ counts) := by
  intro label n hn
  rw [List.lookup_append] at hn
  cases hl : told.lookup label with
  | some m =>
    rw [hl, Option.some_or] at hn
    obtain rfl := Option.some.inj hn
    exact ht.right label m hl
  | none =>
    rw [hl, Option.none_or] at hn
    obtain ⟨hbefore, hafter⟩ := ht.silent label hl
    rw [h label n hn, onlineCount_eq_zero hbefore, onlineCount_eq_zero hafter]

variable {gauges : List (String × Nat)} {controllerId : String}
  {change : ControllerSnapshot → ControllerSnapshot}

theorem Emits.right (h : Emits inner gauges) (label : String) (n : Nat)
    (hn : gauges.lookup label = some n) : n = onlineCount inner label := by
  by_cases hk : Known inner label
  · rw [h.lookup_eq.2 hk] at hn
    exact (Option.some.inj hn).symm
  · rw [h.lookup_eq.1 hk] at hn
    cases hn

theorem Emits.not_known (h : Emits inner gauges) (hn : gauges.lookup label = none) :
    ¬ Known inner label := by
  intro hk
  rw [h.lookup_eq.2 hk] at hn
  cases hn

theorem Emits.tells (h : Emits after gauges)
    (hkeep : ∀ label, Known before label → Known after label) : Tells before after gauges where
  right := h.right
  silent label hn := ⟨fun hk => h.not_known hn (hkeep label hk), h.not_known hn⟩

/-- Every controller is in the cluster it always registers with. -/
def Bound (clusterOf : String → String) (inner : Map ControllerSnapshot) : Prop :=
  ∀ (controllerId : String) (snap : ControllerSnapshot),
    inner[controllerId]? = some snap → snap.info.cluster = clusterOf controllerId

/-- A registration names the cluster its controller always registers with. -/
def Call.Bound (clusterOf : String → String) : Call → Prop
  | .setControllerInfo controllerId info => info.cluster = clusterOf controllerId
  | _ => True

/-- The part of an entry the gauges are computed from. -/
def ControllerSnapshot.view (snap : ControllerSnapshot) : String × Bool := (snap.label, snap.online)

theorem onlineCount_congr
    (h : ∀ controllerId : String, before[controllerId]?.map ControllerSnapshot.view =
      after[controllerId]?.map ControllerSnapshot.view) :
    onlineCount before label = onlineCount after label := by
  have hview : ∀ inner : Map ControllerSnapshot, onlineCount inner label =
      (inner.map fun _ snap => snap.view).toList.countP fun e => e.2.1 == label && e.2.2 := by
    intro inner
    rw [Std.ExtTreeMap.toList_map, List.countP_map, onlineCount, List.countP_map]
    rfl
  have hmap : (before.map fun _ snap => snap.view) = after.map fun _ snap => snap.view := by
    apply Std.ExtTreeMap.ext_getElem?
    intro controllerId
    rw [Std.ExtTreeMap.getElem?_map, Std.ExtTreeMap.getElem?_map]
    exact h controllerId
  rw [hview, hview, hmap]

theorem getElem?_modified {other : String} : (modified inner controllerId change)[other]? =
      if other = controllerId then inner[other]?.map change else inner[other]? := by
  rw [modified]
  by_cases h : other = controllerId
  · subst h
    cases hget : inner[other]? <;> simp [hget]
  · cases hget : inner[controllerId]? with
    | none => simp [h]
    | some snap => simp [h, Std.ExtTreeMap.getElem?_insert, Ne.symm h]

/-- A change that keeps the registration keeps every controller under its label. -/
theorem Known.modified (hinfo : ∀ snap, (change snap).info = snap.info) (h : Known inner label) :
    Known (modified inner controllerId change) label := by
  obtain ⟨other, snap, hget, hlabel⟩ := h
  by_cases ho : other = controllerId
  · refine ⟨other, change snap, ?_, ?_⟩
    · rw [getElem?_modified, if_pos ho, hget, Option.map_some]
    · rw [← hlabel, ControllerSnapshot.label, ControllerSnapshot.label, hinfo]
  · refine ⟨other, snap, ?_, hlabel⟩
    rw [getElem?_modified, if_neg ho, hget]

theorem Bound.modified (hinfo : ∀ snap, (change snap).info = snap.info) (h : Bound clusterOf inner) :
    Bound clusterOf (modified inner controllerId change) := by
  intro other snap hget
  rw [getElem?_modified] at hget
  split at hget
  · obtain ⟨old, hold, rfl⟩ := Option.map_eq_some_iff.mp hget
    rw [hinfo]
    exact h other old hold
  · exact h other snap hget

variable {info : ControllerInfo}

theorem Bound.registered (hinfo : info.cluster = clusterOf controllerId) (h : Bound clusterOf inner) :
    Bound clusterOf (registered inner controllerId info) := by
  intro other snap hget
  rw [Aggregator.registered, Std.ExtTreeMap.getElem?_insert] at hget
  split at hget
  · rename_i he
    obtain rfl : controllerId = other := Std.LawfulEqCmp.compare_eq_iff_eq.mp he
    obtain rfl := Option.some.inj hget
    exact hinfo
  · exact h other snap hget

/-- A controller that registers again stays under its label. -/
theorem Known.registered (hinfo : info.cluster = clusterOf controllerId)
    (hb : Bound clusterOf inner) (h : Known inner label) :
    Known (registered inner controllerId info) label := by
  obtain ⟨other, snap, hget, hlabel⟩ := h
  by_cases ho : other = controllerId
  · subst ho
    refine ⟨other, ⟨info, none, none⟩, by simp [Aggregator.registered], ?_⟩
    rw [← hlabel, ControllerSnapshot.label, ControllerSnapshot.label, hb other snap hget, hinfo]
  · refine ⟨other, snap, ?_, hlabel⟩
    rw [Aggregator.registered, Std.ExtTreeMap.getElem?_insert,
      if_neg (by simpa using Ne.symm ho), hget]

/-- Only the label of the removed controller may have lost its last one, and it is zeroed then. -/
theorem tells_remove {snap : ControllerSnapshot} {left : List ControllerSnapshot}
    (hfound : inner[controllerId]? = some snap) (h : Emits (inner.erase controllerId) gauges)
    (hleft : left.Perm ((inner.erase controllerId).toList.map Prod.snd)) :
    Tells inner (inner.erase controllerId)
      (((zeroCluster snap left).map fun cluster => (cluster, 0)).toList ++ gauges) := by
  have hzero : left.any (fun other => other.label == snap.label) = true ↔
      Known (inner.erase controllerId) snap.label := by
    rw [← exists_label_iff_known hleft]
    simp
  have hkeep : ∀ label, label ≠ snap.label → Known inner label →
      Known (inner.erase controllerId) label := by
    rintro label hne ⟨other, s, hget, hlabel⟩
    refine ⟨other, s, ?_, hlabel⟩
    have ho : controllerId ≠ other := by
      rintro rfl
      rw [hfound] at hget
      obtain rfl := Option.some.inj hget
      exact hne hlabel.symm
    rw [Std.ExtTreeMap.getElem?_erase, if_neg (by simpa using ho), hget]
  by_cases hk : Known (inner.erase controllerId) snap.label
  · rw [zeroCluster, if_pos (hzero.mpr hk)]
    apply h.tells
    intro label hl
    by_cases hne : label = snap.label
    · exact hne ▸ hk
    · exact hkeep label hne hl
  · rw [zeroCluster, if_neg (fun hany => hk (hzero.mp hany))]
    constructor
    · intro label n hn
      by_cases hne : label = snap.label
      · subst hne
        rw [onlineCount_eq_zero hk]
        simpa using hn.symm
      · have hne' : (label == snap.label) = false := by simpa using hne
        exact h.right label n (by simpa [List.lookup_cons, hne'] using hn)
    · intro label hn
      by_cases hne : label = snap.label
      · subst hne
        simp at hn
      · have hne' : (label == snap.label) = false := by simpa using hne
        have hgauges : gauges.lookup label = none := by
          simpa [List.lookup_cons, hne'] using hn
        have hno := h.not_known hgauges
        exact ⟨fun hl => hno (hkeep label hne hl), hno⟩

/-- The invariant of the calls. -/
structure Current (clusterOf : String → String) (s : ResourceAggregator) : Prop where
  bound : Bound clusterOf s.inner
  fresh : Fresh s.inner s.counts

theorem Current.step {s t : ResourceAggregator} {call : Call} (h : Current clusterOf s)
    (hstep : Step s call t) (hcall : call.Bound clusterOf) : Current clusterOf t := by
  cases hstep with
  | setControllerInfo hemit =>
    exact ⟨h.bound.registered hcall,
      h.fresh.tells (hemit.tells fun _ hk => hk.registered hcall h.bound)⟩
  | markOffline hemit =>
    exact ⟨h.bound.modified fun _ => rfl,
      h.fresh.tells (hemit.tells fun _ hk => hk.modified fun _ => rfl)⟩
  | @updateStats controllerId perKind total now =>
    refine ⟨h.bound.modified fun _ => rfl, ?_⟩
    intro label n hn
    rw [h.fresh label n hn]
    apply onlineCount_congr
    intro other
    rw [withStats, getElem?_modified]
    split
    · rw [Option.map_map]
      rfl
    · rfl
  | remove hfound hemit hleft =>
    refine ⟨?_, h.fresh.tells (tells_remove hfound hemit hleft)⟩
    intro other s hget
    rw [Std.ExtTreeMap.getElem?_erase] at hget
    split at hget
    · cases hget
    · exact h.bound other s hget
  | removeNone _ => exact h

theorem current_new : Current clusterOf .new where
  bound := by
    intro other snap hget
    simp [ResourceAggregator.new] at hget
  fresh := by
    intro label n hn
    cases hn

/-- As long as every controller registers with one cluster, after every call the latest count of
each label ever emitted is the number of controllers present and online under it. -/
theorem gauges_current {calls : List Call} {t : ResourceAggregator}
    (h : Run (Guarded Step fun _ call => call.Bound clusterOf) .new calls t) (label : String)
    (n : Nat) (hn : t.counts.lookup label = some n) : n = onlineCount t.inner label := by
  have hcurrent : Current clusterOf t :=
    h.invariant (fun _ _ _ hs hstep => hs.step hstep.1 hstep.2) current_new
  exact hcurrent.fresh label n hn

/-- The only controller of a cluster registers, disconnects and is removed. -/
def lastRemoved : List Call :=
  [.setControllerInfo "prod/a" ⟨"prod/a", "prod", [], []⟩, .markOffline "prod/a" 5,
    .remove "prod/a" true]

theorem gauges_current_removed : ∃ t : ResourceAggregator,
    Run (Guarded Step fun _ call => call.Bound fun _ => "prod") .new lastRemoved t ∧
      t.counts.lookup "prod" = some 0 ∧ onlineCount t.inner "prod" = 0 ∧ t.evictions = 1 := by
  have hemits : ∀ inner : Map ControllerSnapshot,
      Emits inner (computeGaugeSnapshot (inner.toList.map Prod.snd)).toList :=
    fun inner => .mk (.refl _) (.refl _)
  have hrun : ∃ t : ResourceAggregator, t.counts.lookup "prod" = some 0 ∧ t.evictions = 1 ∧
      Run (Guarded Step fun _ call => call.Bound fun _ => "prod") .new lastRemoved t := by
    refine ⟨_, ?_, ?_, .step ⟨.setControllerInfo (hemits _), rfl⟩ (.step
      ⟨.markOffline (hemits _), trivial⟩ (.step ⟨.remove rfl (hemits _) (.refl _), trivial⟩
        (.refl _)))⟩
    · rfl
    · rfl
  obtain ⟨t, hlookup, hevictions, hrun⟩ := hrun
  exact ⟨t, hrun, hlookup, (gauges_current hrun "prod" 0 hlookup).symm, hevictions⟩

end Runs

end EdgionCenter.Aggregator
