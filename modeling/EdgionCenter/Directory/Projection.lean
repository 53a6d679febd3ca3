import EdgionCenter.Directory.KubernetesFencing
import EdgionCenter.Directory.SqlFencing

/-! Late, repeated and reordered session writes: what either directory ends up with depends only on
which writes were made. -/
namespace EdgionCenter

open Function KubernetesControllerDirectory Register

variable {ι : Type} {S : ι → Session} {c : ControllerId}

section Sql

variable {backend : Backend} {ops : List (DirectoryOp × Int)}

/-- The row after the operations, each with its clock sample. -/
def Backend.replay (backend : Backend) (stored : Option ControllerRow)
    (ops : List (DirectoryOp × Int)) : Option ControllerRow :=
  ops.foldl (fun stored o => (backend.run o.2 o.1 stored).2) stored

theorem replay_row (hrevs : Injective fun i => (S i).observedAt)
    (hids : Injective fun i => backend.key (S i).id.value)
    (hops : ∀ o ∈ ops, ∃ i, (S i).SqlOp c o.1) :
    (RowInv S (backend.replay none ops) ∧ RowNamed (backend.replay none ops)) ∧
      rowView (backend.replay none ops) = (ops.map fun o => o.1.sqlWrite).foldl write ⊥ := by
  refine view_foldl (f := rowView) (P := fun o => ∃ i, (S i).SqlOp c o.1)
    (I := fun stored => RowInv S stored ∧ RowNamed stored) ?_ ops none hops ⟨nofun, nofun⟩
  rintro stored o ⟨i, hop⟩ ⟨hinv, hnamed⟩
  obtain ⟨hinv', hview⟩ := sqlOp_row hrevs hids hop hinv
  exact ⟨⟨hinv', sqlOp_named hop hnamed⟩, hview⟩

/-- The row is that of the newest session written about, online unless it was marked offline. -/
theorem replay_newest (hrevs : Injective fun i => (S i).observedAt)
    (hids : Injective fun i => backend.key (S i).id.value) (hne : ops ≠ [])
    (hops : ∀ o ∈ ops, ∃ i, (S i).SqlOp c o.1) :
    ∃ i row, Highest (fun i o => (S i).SqlOp c o.1) (fun i => (S i).observedAt) ops i ∧
      backend.replay none ops = some row ∧ row.sessionId = some (S i).id.value ∧
        row.observedAtMs = (S i).observedAt ∧
          (row.online = true ↔ ¬ ∃ o ∈ ops, (S i).SqlOp c o.1 ∧ o.1.isOffline = true) := by
  obtain ⟨⟨hinv, hnamed⟩, hview⟩ := replay_row hrevs hids hops
  cases hrow : backend.replay none ops with
  | none =>
    rw [hrow] at hview
    exact absurd hview.symm (foldl_write_ne_bot (by simpa using hne))
  | some row =>
    obtain ⟨i, hrev, hname⟩ := hinv row hrow
    rw [hrow, rowView, hrev] at hview
    obtain ⟨hhighest, hoff⟩ := source_of_foldl hrevs hops
      (fun i o h => h.observedAt) hview.symm
    refine ⟨i, row, hhighest, rfl, ?_, hrev, ?_⟩
    · exact hname.resolve_right fun h => hnamed row hrow h.1
    · rw [← hoff]
      simp

end Sql

section Kubernetes

variable {d : KubernetesControllerDirectory} {s : Resources} {ops : List DirectoryOp}

/-- The resources after the operations. -/
def KubernetesControllerDirectory.replay (d : KubernetesControllerDirectory) (s : Resources)
    (ops : List DirectoryOp) : Resources :=
  ops.foldl (fun s op => (d.run op s).2) s

theorem replay_status (hepochs : Injective fun i => (S i).fence.epoch)
    (hs : s.answers = []) (habsent : s.stored (d.controllerResourceName c.value) = none)
    (hops : ∀ op ∈ ops, (∃ i, (S i).FencedOp c op) ∧ d.inRange op.observedAt = true) :
    d.Settled c S (d.replay s ops) ∧ statusView (d.statusOf c (d.replay s ops).stored) =
      (ops.map DirectoryOp.fencedWrite).foldl write ⊥ := by
  have hnone : d.statusOf c s.stored = none := by simp [statusOf, habsent]
  have hsettled : d.Settled c S s :=
    ⟨hs, by simp [Own, habsent], by simp [StatusInv, hnone], by simp [hnone]⟩
  rw [show (⊥ : State Nat) = statusView (d.statusOf c s.stored) by rw [hnone]; rfl]
  refine view_foldl (f := fun s : Resources => statusView (d.statusOf c s.stored))
    (I := d.Settled c S) ?_ ops s hops hsettled
  rintro s op ⟨⟨i, hop⟩, hrange⟩ hs
  exact fencedOp_status hepochs hop hrange hs

/-- The status is that of the newest session written about, online unless it was marked offline. -/
theorem replay_highest (hepochs : Injective fun i => (S i).fence.epoch) (hs : s.answers = [])
    (habsent : s.stored (d.controllerResourceName c.value) = none) (hne : ops ≠ [])
    (hops : ∀ op ∈ ops, (∃ i, (S i).FencedOp c op) ∧ d.inRange op.observedAt = true) :
    ∃ i status, Highest (fun i => (S i).FencedOp c) (fun i => (S i).fence.epoch) ops i ∧
      d.statusOf c (d.replay s ops).stored = some status ∧
        status.sessionId = some (S i).id.value ∧ status.ownershipEpoch = (S i).fence.epoch ∧
          status.ownershipToken = some (S i).fence.token ∧
            (status.phase = .online ↔ ¬ ∃ op ∈ ops, (S i).FencedOp c op ∧ op.isOffline = true) := by
  obtain ⟨hsettled, hview⟩ := replay_status hepochs hs habsent hops
  cases hstatus : d.statusOf c (d.replay s ops).stored with
  | none =>
    rw [hstatus] at hview
    exact absurd hview.symm (foldl_write_ne_bot (by simpa using hne))
  | some status =>
    obtain ⟨i, hepoch, htoken, hkind⟩ := hsettled.inv status hstatus
    rw [hstatus, statusView, hepoch] at hview
    obtain ⟨hhighest, hoff⟩ := source_of_foldl hepochs (fun op hop => (hops op hop).1)
      (fun i o h => h.epoch) hview.symm
    refine ⟨i, status, hhighest, rfl, ?_, hepoch, htoken, ?_⟩
    · have hkept := hsettled.kept status hstatus
      rcases hkind with h | h
      · exact h.2
      · simp [hkept] at h
    · rw [← hoff]
      simp

end Kubernetes

/-- Session writes from an absent record, in any order and with repetitions, leave both adapters
with the highest session that occurs, online exactly if its offline mark does not occur. -/
theorem projection_order_independent (c : ControllerId) (S : ι → Session) :
    (∀ (backend : Backend) (ops : List (DirectoryOp × Int)),
      (Function.Injective fun i => (S i).observedAt) →
      (Function.Injective fun i => backend.key (S i).id.value) → ops ≠ [] →
      (∀ o ∈ ops, ∃ i, (S i).SqlOp c o.1) →
      ∃ i row, Highest (fun i o => (S i).SqlOp c o.1) (fun i => (S i).observedAt) ops i ∧
        backend.replay none ops = some row ∧ row.sessionId = some (S i).id.value ∧
          row.observedAtMs = (S i).observedAt ∧
            (row.online = true ↔ ¬ ∃ o ∈ ops, (S i).SqlOp c o.1 ∧ o.1.isOffline = true)) ∧
    ∀ (d : KubernetesControllerDirectory) (s : Resources) (ops : List DirectoryOp),
      (Function.Injective fun i => (S i).fence.epoch) → s.answers = [] →
      s.stored (d.controllerResourceName c.value) = none → ops ≠ [] →
      (∀ op ∈ ops, (∃ i, (S i).FencedOp c op) ∧ d.inRange op.observedAt = true) →
      ∃ i status, Highest (fun i => (S i).FencedOp c) (fun i => (S i).fence.epoch) ops i ∧
        d.statusOf c (d.replay s ops).stored = some status ∧
          status.sessionId = some (S i).id.value ∧ status.ownershipEpoch = (S i).fence.epoch ∧
            status.ownershipToken = some (S i).fence.token ∧
              (status.phase = .online ↔
                ¬ ∃ op ∈ ops, (S i).FencedOp c op ∧ op.isOffline = true) :=
  ⟨fun _ _ hrevs hids hne hops => replay_newest hrevs hids hne hops,
    fun _ _ _ hepochs hs habsent hne hops => replay_highest hepochs hs habsent hne hops⟩

/-- An old and a new session of one controller. -/
def twoSessions : Bool → Session
  | false => ⟨⟨"old", by decide⟩, 100, ⟨"t3", 3⟩⟩
  | true => ⟨newSession, 200, ⟨"t5", 5⟩⟩

def registrationOf (x : Session) : DirectoryOp :=
  .upsertRegistration ⟨edge1, x.id, "prod", ["eu"], [], some "center-0", some x.fence, x.observedAt⟩

def offlineOf (x : Session) : DirectoryOp := .markOffline edge1 x.id (some x.fence) x.observedAt

/-- The offline mark of the new session overtakes both registrations. -/
def reordered : List DirectoryOp :=
  [offlineOf (twoSessions true), registrationOf (twoSessions false),
    registrationOf (twoSessions true), offlineOf (twoSessions false)]

theorem projection_order_independent_reordered :
    (∃ i row, Backend.sqlite.replay none (reordered.map (·, 0)) = some row ∧
      row.sessionId = some (twoSessions i).id.value ∧
        row.observedAtMs = (twoSessions i).observedAt) ∧
    ∃ i status, exampleDirectory.statusOf edge1
        (exampleDirectory.replay ⟨fun _ => none, []⟩ reordered).stored = some status ∧
      status.sessionId = some (twoSessions i).id.value ∧
        status.ownershipEpoch = (twoSessions i).fence.epoch := by
  have hsql : ∀ o ∈ reordered.map (·, (0 : Int)), ∃ i, (twoSessions i).SqlOp edge1 o.1 := by
    simp [reordered, registrationOf, offlineOf, Session.SqlOp]
  have hfenced : ∀ op ∈ reordered, (∃ i, (twoSessions i).FencedOp edge1 op) ∧
      exampleDirectory.inRange op.observedAt = true := by
    simp [reordered, registrationOf, offlineOf, Session.FencedOp, exampleDirectory]
  obtain ⟨i, row, -, hrow, hid, hrev, -⟩ :=
    (projection_order_independent edge1 twoSessions).1 .sqlite _ (by decide) (by decide)
      (by simp [reordered]) hsql
  obtain ⟨j, status, -, hstatus, hid', hepoch, -⟩ :=
    (projection_order_independent edge1 twoSessions).2 exampleDirectory ⟨fun _ => none, []⟩
      reordered (by decide) rfl rfl (by simp [reordered]) hfenced
  exact ⟨⟨i, row, hrow, hid, hrev⟩, j, status, hstatus, hid', hepoch⟩

end EdgionCenter
