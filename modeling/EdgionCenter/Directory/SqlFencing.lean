import EdgionCenter.Directory.Sessions
import EdgionCenter.Directory.Sql

/-! The row of a controller as a register fenced by `observed_at_ms`. -/
namespace EdgionCenter

open Function Register

section Statements

variable {backend : Backend} {registration : ControllerRegistration} {row : ControllerRow}
  {session : String} {observedAt now : Int}

/-- Both backends register over a row exactly when it is older. -/
theorem projectControllerRegistration_some :
    projectControllerRegistration backend registration now (some row) =
      if row.observedAtMs < registration.observedAtUnixMs then
        (.ok (), some (registeredRow registration now row))
      else (.error (staleRevision registration.controllerId), some row) := by
  cases backend with
  | sqlite =>
    simp only [projectControllerRegistration, sqliteRegister]
    split_ifs <;> simp_all
  | mysql collate =>
    by_cases h : row.observedAtMs < registration.observedAtUnixMs
    · simp [projectControllerRegistration, mysqlRegister, h]
    · simp [projectControllerRegistration, h, not_lt.mp h]

theorem projectControllerRegistration_none :
    projectControllerRegistration backend registration now none =
      (.ok (), some (registrationRow registration now)) := by
  cases backend <;> rfl

theorem tombstoneGuard_eq_true_iff : tombstoneGuard backend session observedAt row = some true ↔
      (∃ stored, row.sessionId = some stored ∧ backend.key stored = backend.key session) ∨
        row.observedAtMs < observedAt := by
  by_cases h : row.observedAtMs < observedAt
  · simp [tombstoneGuard, h, sqlOr]
  · cases hs : row.sessionId <;> simp [tombstoneGuard, h, sqlOr, Backend.sessionIs, hs]

/-- The row an offline mark leaves where its guard holds. -/
def retiredRow (session : String) (observedAtMs now : Int) (row : ControllerRow) : ControllerRow :=
  { row with
    online := false
    sessionId := some session
    connectedReplica := none
    observedAtMs := max row.observedAtMs observedAtMs
    lastSeenAt := now }

theorem tombstone_none :
    backend.tombstone session observedAt now none = tombstoneRow session observedAt now := by
  cases backend <;> rfl

/-- The assignments of MySQL come to the guarded update of SQLite. -/
theorem tombstone_some : backend.tombstone session observedAt now (some row) =
      if tombstoneGuard backend session observedAt row = some true then
        retiredRow session observedAt now row
      else row := by
  cases backend with
  | sqlite => rfl
  | mysql collate =>
    -- No assignment before the last two touches what the guard reads.
    have hguard : ∀ row' : ControllerRow, row'.sessionId = row.sessionId →
        row'.observedAtMs = row.observedAtMs →
        tombstoneGuard (.mysql collate) session observedAt row' =
          tombstoneGuard (.mysql collate) session observedAt row := by
      intro row' hs ho
      simp [tombstoneGuard, Backend.sessionIs, hs, ho]
    by_cases h : tombstoneGuard (.mysql collate) session observedAt row = some true
    · simp [Backend.tombstone, mysqlTombstone, hguard, h, retiredRow]
    · have hmax : max row.observedAtMs observedAt = row.observedAtMs := by
        have := (not_or.mp (tombstoneGuard_eq_true_iff.not.mp h)).2
        omega
      simp [Backend.tombstone, mysqlTombstone, hguard, h, hmax]

end Statements

/-- The revision in force and whether it is offline. -/
def rowView : Option ControllerRow → State Int
  | none => ⊥
  | some row => held row.observedAtMs !row.online

section Sessions

variable {ι : Type} {S : ι → Session} {i j : ι} {backend : Backend}
  {registration : ControllerRegistration} {row : ControllerRow} {stored : Option ControllerRow}
  {now : Int}

/-- The row is at the revision of session `i`; after an eviction it no longer names it. -/
def RowOf (S : ι → Session) (i : ι) (row : ControllerRow) : Prop :=
  row.observedAtMs = (S i).observedAt ∧
    (row.sessionId = some (S i).id.value ∨ row.sessionId = none ∧ row.online = false)

def RowInv (S : ι → Session) (stored : Option ControllerRow) : Prop :=
  ∀ row, stored = some row → ∃ i, RowOf S i row

theorem rowInv_some (h : RowOf S i row) : RowInv S (some row) := by
  rintro _ ⟨⟩
  exact ⟨i, h⟩

/-- A registration publishes its revision. -/
theorem register_row (hid : registration.sessionId = (S i).id)
    (hrev : registration.observedAtUnixMs = (S i).observedAt) (hs : RowInv S stored) :
    RowInv S (projectControllerRegistration backend registration now stored).2 ∧
      rowView (projectControllerRegistration backend registration now stored).2 =
        write (rowView stored) (.publish (S i).observedAt) := by
  cases stored with
  | none =>
    rw [projectControllerRegistration_none]
    refine ⟨rowInv_some (i := i) ⟨hrev, .inl (by rw [← hid]; rfl)⟩, ?_⟩
    rw [← hrev]
    exact write_bot_publish.symm
  | some row =>
    rw [projectControllerRegistration_some, rowView, write_publish, ← hrev]
    split_ifs with h
    · exact ⟨rowInv_some (i := i) ⟨hrev, .inl (by rw [← hid]; rfl)⟩, rfl⟩
    · exact ⟨hs, rfl⟩

/-- An offline mark retires its revision. -/
theorem retire_row (hrevs : Injective fun i => (S i).observedAt)
    (hids : Injective fun i => backend.key (S i).id.value) (hs : RowInv S stored) :
    RowInv S (some (backend.tombstone (S i).id.value (S i).observedAt now stored)) ∧
      rowView (some (backend.tombstone (S i).id.value (S i).observedAt now stored)) =
        write (rowView stored) (.retire (S i).observedAt) := by
  cases stored with
  | none =>
    rw [tombstone_none]
    exact ⟨rowInv_some (i := i) ⟨rfl, .inl rfl⟩, write_bot_retire.symm⟩
  | some row =>
    obtain ⟨j, hrev, hname⟩ := hs row rfl
    rw [tombstone_some, rowView, rowView, write_retire]
    split_ifs with hguard hle hle
    · have hmax : max row.observedAtMs (S i).observedAt = (S i).observedAt := max_eq_right hle
      exact ⟨rowInv_some (i := i) ⟨hmax, .inl rfl⟩, by simp [retiredRow, hmax]⟩
    · obtain ⟨stored, hstored, hkey⟩ :=
        (tombstoneGuard_eq_true_iff.mp hguard).resolve_right (by omega)
      rcases hname with hname | ⟨hname, -⟩
      · rw [hname] at hstored
        cases hstored
        rw [hids hkey] at hrev
        exact absurd hrev.le hle
      · simp [hname] at hstored
    · obtain ⟨hother, hlt⟩ := not_or.mp (tombstoneGuard_eq_true_iff.not.mp hguard)
      have heq : row.observedAtMs = (S i).observedAt := by omega
      obtain rfl : j = i := hrevs (hrev.symm.trans heq)
      rcases hname with hname | ⟨-, honline⟩
      · exact absurd ⟨_, hname, rfl⟩ hother
      · exact ⟨hs, by rw [honline, heq]; rfl⟩
    · exact ⟨hs, rfl⟩

/-- Where no row was evicted, every row names its session. -/
def RowNamed (stored : Option ControllerRow) : Prop :=
  ∀ row, stored = some row → row.sessionId ≠ none

theorem register_named (hs : RowNamed stored) :
    RowNamed (projectControllerRegistration backend registration now stored).2 := by
  cases stored with
  | none =>
    rw [projectControllerRegistration_none]
    rintro _ ⟨⟩
    simp [registrationRow]
  | some row =>
    rw [projectControllerRegistration_some]
    split_ifs
    · rintro _ ⟨⟩
      simp [registeredRow]
    · exact hs

theorem retire_named {session : String} {observedAt : Int} (hs : RowNamed stored) :
    RowNamed (some (backend.tombstone session observedAt now stored)) := by
  rintro _ ⟨⟩
  cases stored with
  | none => simp [tombstone_none, tombstoneRow]
  | some row =>
    rw [tombstone_some]
    split_ifs
    · simp [retiredRow]
    · exact hs row rfl

variable {c : ControllerId} {op : DirectoryOp}

/-- The operations of sessions act on the row as on a register of times. -/
theorem sqlOp_row (hrevs : Injective fun i => (S i).observedAt)
    (hids : Injective fun i => backend.key (S i).id.value) (hop : (S i).SqlOp c op)
    (hs : RowInv S stored) : RowInv S (backend.run now op stored).2 ∧
      rowView (backend.run now op stored).2 = write (rowView stored) op.sqlWrite := by
  cases op with
  | upsertRegistration r =>
    obtain ⟨-, hid, hrev⟩ := hop
    refine ⟨(register_row hid hrev hs).1, (register_row hid hrev hs).2.trans ?_⟩
    rw [← hrev]
    rfl
  | markOffline id session fence observedAt =>
    obtain ⟨-, rfl, rfl⟩ := hop
    exact retire_row hrevs hids hs
  | _ => exact hop.elim

theorem sqlOp_named (hop : (S i).SqlOp c op) (hs : RowNamed stored) :
    RowNamed (backend.run now op stored).2 := by
  cases op with
  | upsertRegistration r => exact register_named hs
  | markOffline id session fence observedAt => exact retire_named hs
  | _ => exact hop.elim

/-- No operation takes a row back to an older revision, or online again at the same one. -/
theorem run_row_mono (hrevs : Injective fun i => (S i).observedAt)
    (hids : Injective fun i => backend.key (S i).id.value)
    (hop : op.isSessionWrite = true → ∃ i, (S i).SqlOp c op) (hs : RowInv S stored) :
    RowInv S (backend.run now op stored).2 ∧
      rowView stored ≤ rowView (backend.run now op stored).2 := by
  cases op with
  | upsertRegistration r =>
    obtain ⟨i, hop⟩ := hop rfl
    obtain ⟨hinv, hview⟩ := sqlOp_row hrevs hids hop hs
    exact ⟨hinv, hview ▸ le_write _ _⟩
  | markOffline id session fence observedAt =>
    obtain ⟨i, hop⟩ := hop rfl
    obtain ⟨hinv, hview⟩ := sqlOp_row hrevs hids hop hs
    exact ⟨hinv, hview ▸ le_write _ _⟩
  | projectRuntime observation =>
    cases stored with
    | none => exact ⟨hs, le_rfl⟩
    | some row =>
      obtain ⟨i, hof⟩ := hs row rfl
      simp only [Backend.run, projectControllerRuntime]
      split_ifs
      · exact ⟨rowInv_some (i := i) hof, le_rfl⟩
      · exact ⟨hs, le_rfl⟩
  | evict id =>
    cases stored with
    | none => exact ⟨hs, le_rfl⟩
    | some row =>
      obtain ⟨i, hof⟩ := hs row rfl
      simp only [Backend.run, evictController]
      split_ifs
      · exact ⟨rowInv_some (i := i) ⟨hof.1, .inr ⟨rfl, rfl⟩⟩,
          held_le_held.mpr (.inr ⟨rfl, Bool.le_true _⟩)⟩
      · exact ⟨hs, le_rfl⟩

/-- A registration below the row is refused. -/
theorem register_refused {r : ControllerRegistration}
    (h : held r.observedAtUnixMs true ≤ rowView stored) :
    backend.run now (.upsertRegistration r) stored =
      (.error (staleRevision r.controllerId), stored) := by
  cases stored with
  | none => exact absurd h (WithBot.not_coe_le_bot _)
  | some row =>
    have hle : ¬ row.observedAtMs < r.observedAtUnixMs := by
      rcases held_le_held.mp h with hlt | ⟨heq, -⟩ <;> omega
    rw [Backend.run, projectControllerRegistration_some, if_neg hle]
    rfl

/-- A row above the retired revision of a session does not show it online. -/
theorem not_shown_row {record : ControllerRecord} {controllerId : String}
    (hids : Injective fun i => backend.key (S i).id.value) (hs : RowInv S (some row))
    (h : held (S i).observedAt true ≤ rowView (some row))
    (hrecord : rowRecord controllerId row = .ok (some record)) : ¬ record.ShowsOnline (S i).id := by
  intro hshown
  obtain ⟨honline, hsession⟩ := online_of_rowRecord hrecord hshown
  obtain ⟨j, hrev, hname | ⟨hname, -⟩⟩ := hs row rfl
  · rw [hname, Option.some.injEq] at hsession
    obtain rfl : j = i := hids (congrArg backend.key hsession)
    rw [rowView, hrev, honline] at h
    rcases held_le_held.mp h with hlt | ⟨-, hle⟩
    · exact absurd hlt (lt_irrefl _)
    · exact absurd hle (by decide)
  · simp [hname] at hsession

end Sessions

end EdgionCenter
