import EdgionCenter.Admin.Convergence
import EdgionCenter.Admin.Edit
import EdgionCenter.Admin.Target

/-! Which resources of a controller the region route endpoints can write. -/
namespace EdgionCenter

open Interaction

/-! ### The calls of the write core -/

section WriteCalls

variable [Wire]

/-- The write core has read this document, from its cache or from the controller. -/
def ReadIn (controllerId ns name : String) (log : List (Sigma AdminCall.Reply))
    (document : Value) : Prop :=
  ⟨.rawDocument controllerId (ns ++ "/" ++ name), some document⟩ ∈ log ∨
    ∃ reply, ⟨.fetch controllerId (readRequest ns name), reply⟩ ∈ log ∧
      fallbackDocument reply = .ok document

/-- The write is made of a document that was read, under its version. -/
structure Replaces (controllerId ns name : String) (mutate : Value → Except String Value)
    (log : List (Sigma AdminCall.Reply)) (op : ForwardHttpOperation) (document mutated : Value) :
    Prop where
  read : ∀ other, ReadIn controllerId ns name log other ↔ other = document
  accepted : mutate document = .ok mutated
  request : ∃ version body, resourceVersion document = some version ∧
    Wire.toVec (stripStatus mutated) = .ok body ∧ op = writeRequest ns name version body

/-- Only two kinds of requests are forwarded. -/
def WriteCalls (ns name : String) (mutate : Value → Except String Value)
    (log : List (Sigma AdminCall.Reply)) : AdminCall → Prop
  | .fetch _ op => op = readRequest ns name
  | .dispatch controllerId op =>
    ∃ document mutated, Replaces controllerId ns name mutate log op document mutated
  | _ => True

variable {controllerId ns name : String} {mutate : Value → Except String Value}
  {predicate : Value → Bool} {log : List (Sigma AdminCall.Reply)} {document : Value}

omit [Wire] in
/-- Watching the cache forwards nothing. -/
theorem poll_calls {guard : List (Sigma AdminCall.Reply) → AdminCall → Prop}
    (hsleep : ∀ log, guard log .sleep)
    (hread : ∀ log, guard log (.rawDocument controllerId (ns ++ "/" ++ name)))
    (precondition : String) (elapsed : Nat) (log : List (Sigma AdminCall.Reply)) :
    Holds (Monitor.history guard) (poll controllerId ns name predicate precondition elapsed)
      (fun _ _ => True) log := by
  fun_induction poll controllerId ns name predicate precondition elapsed generalizing log with
  | case1 elapsed ih =>
    refine holds_history_ask (hsleep _) fun late => holds_history_ask (hread _) fun seen => ?_
    cases judge controllerId predicate precondition (elapsed + convergencePollInterval + late)
        seen with
    | some outcome => exact trivial
    | none =>
      by_cases hbudget : convergenceBudget ≤ elapsed + convergencePollInterval + late
      · simp only [hbudget, ↓reduceDIte]
        exact trivial
      · simp only [hbudget, ↓reduceDIte]
        exact ih late hbudget _

theorem sendWrite_calls {version : String} {body : List UInt8} {mutated : Value}
    (h : Replaces controllerId ns name mutate log (writeRequest ns name version body) document
      mutated) : Holds (Monitor.history (WriteCalls ns name mutate))
      (sendWrite controllerId ns name predicate version body) (fun _ _ => True) log := by
  refine holds_history_ask ⟨document, mutated, h⟩ fun reply => ?_
  cases refusal controllerId version reply with
  | some outcome => exact trivial
  | none =>
    refine holds_history_ask trivial fun held => ?_
    cases held with
    | true => exact poll_calls (fun _ => trivial) (fun _ => trivial) version 0 _
    | false => exact trivial

theorem writeBack_calls {viaFallbackRead : Bool}
    (h : ∀ other, ReadIn controllerId ns name log other ↔ other = document) :
    Holds (Monitor.history (WriteCalls ns name mutate))
      (writeBack controllerId ns name mutate predicate document viaFallbackRead)
      (fun _ _ => True) log := by
  unfold writeBack
  cases hversion : resourceVersion document with
  | none => exact trivial
  | some version =>
    dsimp only
    split_ifs with hpredicate
    · exact trivial
    · cases hmutate : mutate document with
      | error error => exact trivial
      | ok mutated =>
        dsimp only
        cases hbody : Wire.toVec (stripStatus mutated) with
        | error error => exact trivial
        | ok body => exact sendWrite_calls ⟨h, hmutate, version, body, hversion, hbody, rfl⟩

theorem writeConfigData_calls : Holds (Monitor.history (WriteCalls ns name mutate))
      (writeConfigData controllerId ns name mutate predicate) (fun _ _ => True) [] := by
  refine holds_history_ask trivial fun cached => ?_
  cases cached with
  | some document =>
    refine writeBack_calls fun other => ?_
    simp [ReadIn, eq_comm]
  | none =>
    refine holds_history_ask trivial fun held => ?_
    cases held with
    | true => exact trivial
    | false =>
      refine holds_history_ask rfl fun reply => ?_
      cases hdocument : fallbackDocument reply with
      | error reason => exact trivial
      | ok document =>
        refine writeBack_calls fun other => ?_
        simp [ReadIn, hdocument, eq_comm]

end WriteCalls

/-! ### What a handler has prepared -/

section Prepare

/-- The handler's monitor: it records, and asks nothing. -/
abbrev regionHistory : Monitor RegionCall RegionCall.Reply (List (Sigma RegionCall.Reply)) :=
  Monitor.history fun _ _ => True

/-- The source document that a sync has read. -/
def SourceIn (req : OverrideSyncRequest) (log : List (Sigma RegionCall.Reply)) (source : Value) :
    Prop :=
  ⟨.rawDocument req.sourceControllerId (req.ns ++ "/" ++ req.name), some source⟩ ∈ log

/-- How the handler writes. -/
def Mutates (log : List (Sigma RegionCall.Reply)) (mutate : Value → Except String Value) :
    RegionRequest → Prop
  | .failover req => mutate = failoverMutate req regionOverrideType
  | .sync req => ∃ source data, (∀ other, SourceIn req log other ↔ other = source) ∧
      source.pointer ["spec", "data"] = some data ∧ mutate = replaceSpecData data

structure PreparedJob (request : RegionRequest) (log : List (Sigma RegionCall.Reply))
    (job : WriteJob) : Prop where
  ns : job.ns = request.ns
  name : job.name = request.name
  mutates : Mutates log job.mutate request

variable {data : Value} {ids : List String}

theorem sourceData_eq_ok {document : Option Value} : sourceData document = .ok data ↔
      ∃ source, document = some source ∧ source.pointer ["spec", "data"] = some data := by
  have hor : ∀ {α : Type} {value : Option α} {status : StatusCode} {error : String} {a : α},
      orAnswer value status error = .ok a ↔ value = some a := by
    intro α value status error a
    cases value <;> simp [orAnswer]
  simp only [sourceData, Fallible.bind_eq_ok, hor]

theorem holds_prepare (request : RegionRequest) : Holds regionHistory request.prepare.run
      (fun log result => ∀ job, result = .ok job → PreparedJob request log job) [] := by
  cases request with
  | failover req =>
    simp only [RegionRequest.prepare, directOverrideFailover, onlineControllers,
      RegionRun.onlineControllerIds, holds_run_bind, holds_run_ask, holds_run_lift,
      holds_run_pure]
    refine ⟨trivial, fun online _ => ?_⟩
    cases requireOnline online with
    | error response => exact fun job h => by cases h
    | ok online =>
      rintro job ⟨⟩
      exact ⟨rfl, rfl, rfl⟩
  | sync req =>
    simp only [RegionRequest.prepare, syncWatchedOverride, onlineControllers,
      RegionRun.onlineControllerIds, RegionRun.listRegionRouteOverrides, RegionRun.rawDocument,
      holds_run_bind, holds_run_ask, holds_run_lift, holds_run_pure]
    refine ⟨trivial, fun online _ => ?_⟩
    cases requireOnline online with
    | error response => exact fun job h => by cases h
    | ok online =>
      refine ⟨trivial, fun rows _ => ?_⟩
      cases chooseTargets req online rows with
      | error response => exact fun job h => by cases h
      | ok targets =>
        refine ⟨trivial, fun document _ => ?_⟩
        cases hdata : sourceData document with
        | error response => exact fun job h => by cases h
        | ok data =>
          rintro job ⟨⟩
          obtain ⟨source, rfl, hpointer⟩ := sourceData_eq_ok.mp hdata
          refine ⟨rfl, rfl, source, data, ?_, hpointer, rfl⟩
          intro other
          simp [SourceIn, Monitor.history, eq_comm]

theorem reaches_failover {req : FailoverRequest} (online : Except String (List String))
    (honline : requireOnline online = .ok ids) :
    Reaches regionHistory (directOverrideFailover req regionOverrideType).run []
      (ret (.ok ⟨ids, req.ns, req.name, failoverMutate req regionOverrideType,
        failoverPredicate req regionOverrideType⟩))
      [⟨.onlineControllerIds, online⟩] := by
  refine .step (r := online) trivial ?_
  exact Reaches.run_ok honline .refl

theorem reaches_sync {req : OverrideSyncRequest} {targets : List String}
    {rows : List CenterRegionRouteOverrideView} (online : Except String (List String))
    (document : Option Value) (honline : requireOnline online = .ok ids)
    (htargets : chooseTargets req ids rows = .ok targets) (hdata : sourceData document = .ok data) :
    Reaches regionHistory (syncWatchedOverride req).run []
      (ret (.ok ⟨targets, req.ns, req.name, replaceSpecData data, syncPredicate data⟩))
      [⟨.onlineControllerIds, online⟩, ⟨.listRegionRouteOverrides, rows⟩,
        ⟨.rawDocument req.sourceControllerId (req.ns ++ "/" ++ req.name), document⟩] := by
  refine .step (r := online) trivial ?_
  refine Reaches.run_ok honline ?_
  refine .step (r := rows) trivial ?_
  refine Reaches.run_ok htargets ?_
  refine .step (r := document) trivial ?_
  exact Reaches.run_ok hdata .refl

end Prepare

/-! ### The resource of a request -/

/-- A name that stands for itself in a path. -/
def PlainName (name : String) : Prop := (utf8Bytes name).all isSegmentByte = true

/-- The resource that a handler was asked to write. -/
def configDataTarget (ns name : String) : RequestTarget where
  path := ["api", "v1", "namespaced", "edgionconfigdata", ns, name].map utf8Bytes
  query := none

theorem utf8Bytes_configDataPath (ns name : String) : utf8Bytes (configDataPath ns name) =
      47 :: [47].intercalate (configDataTarget ns name).path := by
  have hroot : utf8Bytes "/api/v1/namespaced/edgionconfigdata/" = 47 :: (utf8Bytes "api" ++ 47 ::
      (utf8Bytes "v1" ++ 47 :: (utf8Bytes "namespaced" ++ 47 ::
      (utf8Bytes "edgionconfigdata" ++ [47])))) := by
    decide +kernel
  have hslash : utf8Bytes "/" = [47] := by decide
  have happend : utf8Bytes (configDataPath ns name) =
      utf8Bytes "/api/v1/namespaced/edgionconfigdata/" ++ utf8Bytes ns ++ utf8Bytes "/" ++
        utf8Bytes name :=
    (utf8Bytes_append _ _).trans <| congrArg (· ++ utf8Bytes name) <|
      (utf8Bytes_append _ _).trans <| congrArg (· ++ utf8Bytes "/") (utf8Bytes_append _ _)
  rw [happend, hroot, hslash]
  simp only [configDataTarget, List.map_cons, List.map_nil, List.intercalate_cons_cons,
    List.intercalate_singleton, List.append_assoc, List.cons_append, List.nil_append]

theorem parseTarget_configDataPath (ns name : String) :
    parseTarget (utf8Bytes (configDataPath ns name)) = some (configDataTarget ns name) ↔
      PlainName ns ∧ PlainName name := by
  have hnone : parseTarget (utf8Bytes (configDataPath ns name)) = some (configDataTarget ns name) ↔
      parsePath (utf8Bytes (configDataPath ns name)) = some (configDataTarget ns name).path := by
    have h : parseTarget (utf8Bytes (configDataPath ns name) ++ querySuffix none) =
        some ⟨(configDataTarget ns name).path, none⟩ ↔ _ :=
      parseTarget_append fun _ h => by cases h
    rwa [querySuffix, List.append_nil] at h
  have hroot : ∀ s ∈ ["api", "v1", "namespaced", "edgionconfigdata"], PlainName s := by
    unfold PlainName
    decide
  have hall : (∀ s ∈ (configDataTarget ns name).path, s.all isSegmentByte = true) ↔
      ∀ s ∈ ["api", "v1", "namespaced", "edgionconfigdata"] ++ [ns, name], PlainName s :=
    List.forall_mem_map
  have hne : (configDataTarget ns name).path ≠ [] := List.cons_ne_nil _ _
  rw [hnone, utf8Bytes_configDataPath, parsePath_join hne, hall,
    List.forall_mem_append, and_iff_right hroot, List.forall_mem_cons, List.forall_mem_singleton]

/-- The document is of the type that both endpoints are for. -/
def IsOverride (document : Value) : Prop :=
  ConfigTyped.configType document = some regionOverrideType

/-- What keeps a write to overrides: the failover looks at the document itself, the sync copies
the type of its source over any document. -/
def KeepsType (log : List (Sigma RegionCall.Reply)) (document : Value) : RegionRequest → Prop
  | .failover _ => True
  | .sync req => IsOverride document ∧ ∃ source, SourceIn req log source ∧ IsOverride source

variable {document mutated : Value}

theorem types_of_failover {req : FailoverRequest}
    (h : failoverMutate req regionOverrideType document = .ok mutated) :
    IsOverride document ∧ IsOverride (stripStatus mutated) := by
  have hbody := (failoverBody_of_mutate h).matched
  unfold failoverPredicate at hbody
  exact ⟨beq_iff_eq.mp (failoverMutate_eq_ok.mp h).1,
    beq_iff_eq.mp (Bool.and_eq_true_iff.mp hbody).1⟩

theorem type_of_sync {source data : Value} (hdata : source.pointer ["spec", "data"] = some data)
    (h : replaceSpecData data document = .ok mutated) :
    IsOverride (stripStatus mutated) ↔ IsOverride source := by
  have hbody : (stripStatus mutated).pointer ["spec", "data", "type"] = data.pointer ["type"] := by
    rw [pointer_stripStatus (by decide), pointer_replaceSpecData h]
  have hsource : source.pointer ["spec", "data", "type"] = data.pointer ["type"] := by
    rw [show ["spec", "data", "type"] = ["spec", "data"] ++ ["type"] from rfl,
      Value.pointer_append, hdata, Option.bind_some]
  unfold IsOverride
  change (Value.pointer _ _).bind _ = _ ↔ (Value.pointer _ _).bind _ = _
  rw [hbody, hsource]

theorem keepsType_iff {request : RegionRequest} {prelog : List (Sigma RegionCall.Reply)}
    {mutate : Value → Except String Value} (hmutates : Mutates prelog mutate request)
    (h : mutate document = .ok mutated) :
    IsOverride document ∧ IsOverride (stripStatus mutated) ↔ KeepsType prelog document request := by
  cases request with
  | failover req =>
    obtain rfl : mutate = failoverMutate req regionOverrideType := hmutates
    exact iff_of_true (types_of_failover h) trivial
  | sync req =>
    obtain ⟨source, data, honly, hdata, rfl⟩ := hmutates
    refine and_congr_right fun _ => (type_of_sync hdata h).trans ?_
    simp [honly]

/-- Every request that a write forwards is for the named resource exactly if both names are plain,
and every document it replaces is an override, by an override, exactly if `KeepsType` holds. -/
theorem region_writes_confined [Wire] {request : RegionRequest} {job : WriteJob}
    {prelog : List (Sigma RegionCall.Reply)} {log : List (Nat × Sigma AdminCall.Reply)}
    {left : List (AdminRun WriteOutcome)} {i : Nat} {c : AdminCall}
    {next : c.Reply → AdminRun WriteOutcome} {controllerId : String} {op : ForwardHttpOperation}
    (hprepare : Reaches regionHistory request.prepare.run [] (ret (.ok job)) prelog)
    (hrun : Interleaves job.programs log left) (hcall : left[i]? = some (call c next))
    (hforward : c = .fetch controllerId op ∨ c = .dispatch controllerId op) :
    (parseTarget (utf8Bytes op.path) = some (configDataTarget request.ns request.name) ↔
      PlainName request.ns ∧ PlainName request.name) ∧
    (op.method = "PUT" → ∃ document version body,
      (∀ other, ReadIn controllerId request.ns request.name (callsOf i log) other ↔
        other = document) ∧
      resourceVersion document = some version ∧
      ("if-match", "\"" ++ version ++ "\"") ∈ op.headers ∧ Wire.toVec body = .ok op.body ∧
      (IsOverride document ∧ IsOverride body ↔ KeepsType prelog document request)) := by
  obtain ⟨hns, hname, hmutates⟩ := (holds_prepare request).of_ret hprepare job rfl
  have hcalls : WriteCalls request.ns request.name job.mutate (callsOf i log) c := by
    rw [← hns, ← hname]
    have hall : ∀ p ∈ job.programs,
        Holds (Monitor.history (WriteCalls job.ns job.name job.mutate)) p (fun _ _ => True) [] := by
      intro p hp
      obtain ⟨target, -, rfl⟩ := List.mem_map.mp hp
      exact writeConfigData_calls
    exact hrun.guarded hall hcall
  rcases hforward with rfl | rfl
  · obtain rfl : op = readRequest request.ns request.name := hcalls
    have hget : (readRequest request.ns request.name).method = "GET" := rfl
    rw [hget]
    exact ⟨parseTarget_configDataPath _ _, fun h => absurd h (by decide)⟩
  · obtain ⟨document, mutated, hread, haccepted, version, body, hversion, hbody, rfl⟩ := hcalls
    refine ⟨parseTarget_configDataPath _ _, fun _ => ⟨document, version, stripStatus mutated, hread,
      hversion, ?_, hbody, keepsType_iff hmutates haccepted⟩⟩
    simp [writeRequest]

section Runs

def eastData : Value :=
  .object [("config", .object [("regions", .array [.object [("name", .string "east")]])]),
    ("type", .string "RegionRouteOverride")]

/-- A document at version 5. -/
def typedDocument (data : Value) : Value :=
  .object [("metadata", .object [("resourceVersion", .string "5")]),
    ("spec", .object [("data", data)])]

def miscData : Value := .object [("type", .string "Misc")]

def copyEast : OverrideSyncRequest := ⟨"shop", "routes", "edge-1", ["edge-2"]⟩

def eastRow : CenterRegionRouteOverrideView :=
  ⟨"shop", "routes", (∅ : Map Value).insert "edge-1" (typedDocument eastData)⟩

theorem chooseTargets_copyEast :
    chooseTargets copyEast ["edge-1", "edge-2"] [eastRow] = .ok ["edge-2"] := by
  have hrow : findRow [eastRow] copyEast.ns copyEast.name = some eastRow := rfl
  have hsource : copyEast.sourceControllerId ∈ eastRow.controllers := by
    simp [eastRow, copyEast]
  have htargets : syncTargets copyEast ["edge-1", "edge-2"] = ["edge-2"] := by decide
  simp [chooseTargets, hrow, hsource, htargets, orAnswer]

/-- What the sync writes to its target. -/
def copyJob : WriteJob :=
  ⟨["edge-2"], "shop", "routes", replaceSpecData eastData, syncPredicate eastData⟩

theorem reaches_copyJob : ∃ prelog, SourceIn copyEast prelog (typedDocument eastData) ∧
    Reaches regionHistory (RegionRequest.sync copyEast).prepare.run [] (ret (.ok copyJob)) prelog :=
  ⟨_, List.mem_cons_of_mem _ (List.mem_cons_of_mem _ List.mem_cons_self),
    reaches_sync (.ok ["edge-1", "edge-2"]) (some (typedDocument eastData)) rfl
      chooseTargets_copyEast rfl⟩

/-- A document of another type is overwritten by a sync, and a question mark in the name makes a
failover read another resource. -/
theorem region_writes_stray : let _ := plainWire
    (∃ (prelog : List (Sigma RegionCall.Reply)) (job : WriteJob)
      (log : List (Nat × Sigma AdminCall.Reply)) (left : List (AdminRun WriteOutcome))
      (op : ForwardHttpOperation) (next : (AdminCall.dispatch "edge-2" op).Reply →
        AdminRun WriteOutcome),
      Reaches regionHistory (RegionRequest.sync copyEast).prepare.run [] (ret (.ok job)) prelog ∧
      Interleaves job.programs log left ∧
      left[0]? = some (call (.dispatch "edge-2" op) next) ∧ op.method = "PUT" ∧
      ReadIn "edge-2" "shop" "routes" (callsOf 0 log) (typedDocument miscData) ∧
      ¬ IsOverride (typedDocument miscData)) ∧
    ∃ (prelog : List (Sigma RegionCall.Reply)) (job : WriteJob)
      (log : List (Nat × Sigma AdminCall.Reply)) (left : List (AdminRun WriteOutcome))
      (op : ForwardHttpOperation) (next : (AdminCall.fetch "edge-1" op).Reply →
        AdminRun WriteOutcome),
      Reaches regionHistory
        (RegionRequest.failover ⟨"shop", "routes?x", "east", "west"⟩).prepare.run [] (ret (.ok job))
        prelog ∧
      Interleaves job.programs log left ∧ left[0]? = some (call (.fetch "edge-1" op) next) ∧
      parseTarget (utf8Bytes op.path) =
        some ⟨(configDataTarget "shop" "routes").path, some (utf8Bytes "x")⟩ := by
  intro _
  constructor
  · obtain ⟨prelog, -, hprepare⟩ := reaches_copyJob
    refine ⟨prelog, copyJob, _, _, _, _, hprepare,
      .serve (i := 0) (r := some (typedDocument miscData)) rfl .refl, rfl, rfl,
      .inl List.mem_cons_self, ?_⟩
    unfold IsOverride
    decide
  · refine ⟨_, _, _, _, _, _, reaches_failover (.ok ["edge-1"]) rfl,
      .serve (i := 0) (r := none) rfl (.serve (i := 0) (r := false) rfl .refl), rfl, ?_⟩
    decide +kernel

/-- An override of no regions gets those of the source. -/
theorem region_writes_confined_copy : let _ := plainWire
    ∃ (prelog : List (Sigma RegionCall.Reply)) (log : List (Nat × Sigma AdminCall.Reply))
      (left : List (AdminRun WriteOutcome)) (op : ForwardHttpOperation)
      (next : (AdminCall.dispatch "edge-2" op).Reply → AdminRun WriteOutcome),
      Reaches regionHistory (RegionRequest.sync copyEast).prepare.run [] (ret (.ok copyJob))
        prelog ∧
      Interleaves copyJob.programs log left ∧
      left[0]? = some (call (.dispatch "edge-2" op) next) ∧ op.method = "PUT" ∧
      parseTarget (utf8Bytes op.path) = some (configDataTarget "shop" "routes") ∧
      ∃ document body, ReadIn "edge-2" "shop" "routes" (callsOf 0 log) document ∧
        Wire.toVec body = .ok op.body ∧ IsOverride document ∧ IsOverride body := by
  intro _
  obtain ⟨prelog, hsource, hprepare⟩ := reaches_copyJob
  let target := typedDocument (.object [("type", .string "RegionRouteOverride")])
  have hrun : Interleaves copyJob.programs _ _ := .serve (i := 0) (r := some target) rfl .refl
  have hconfined := region_writes_confined (i := 0) hprepare hrun rfl (.inr rfl)
  obtain ⟨document, version, body, hread, -, -, hbody, htypes⟩ := hconfined.2 rfl
  obtain rfl : target = document := (hread target).mp (.inl List.mem_cons_self)
  have hkeeps : KeepsType prelog target (.sync copyEast) := ⟨rfl, _, hsource, rfl⟩
  refine ⟨prelog, _, _, _, _, hprepare, hrun, rfl, rfl, hconfined.1.mpr ?_, target, body,
    (hread target).mpr rfl, hbody, htypes.mpr hkeeps⟩
  unfold PlainName
  decide

end Runs

end EdgionCenter
