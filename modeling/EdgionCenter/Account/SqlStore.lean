import EdgionCenter.Account.Desired

/-! Provider accounts in a SQL table. -/
namespace EdgionCenter

open Fallible Function Linearizable Transition

/-- The row of the account. The columns are 64-bit integers and text. -/
structure AccountRow where
  generation : Int
  desiredJson : String
  deriving DecidableEq

inductive SqlPhase
  | idle
  | begun (op : AccountOp)
  /-- The guarded UPDATE changed no row. -/
  | missed (expected : Nat)
  | done (out : CoreResult AccountResult)
  | returned

structure SqlAccounts (I : Type) where
  row : Option AccountRow
  phase : I → SqlPhase

section Statements

variable [DesiredJson] (id : CloudResourceId)

/-- `desired_json`. -/
def desiredJson (desired : ProviderAccountDesired) : CoreResult String := do
  desired.validate
  return DesiredJson.toString desired

def generationI64 (generation : Nat) : CoreResult Int :=
  if generation ≤ maxProviderAccountGeneration then .ok generation
  else .error (.conflict "provider account generation exceeds SQL range")

def decodeStoredGeneration (generation : Int) : CoreResult Nat :=
  if generation ≤ 0 then
    .error (.adapter "stored provider account generation is outside the persistence range")
  else .ok generation.toNat

def invalidStored (error : String) : CoreError :=
  .adapter ("invalid stored provider account: " ++ error)

def decodeAccount (row : AccountRow) : CoreResult ProviderAccount := do
  id.validate.mapError fun e => .adapter e.display
  let generation ← decodeStoredGeneration row.generation
  let desired ← (DesiredJson.fromStr row.desiredJson).mapError invalidStored
  let account ← (providerAccountFromDesired id generation desired).mapError (invalidStored ·.display)
  (validateStoredProviderAccount account).mapError (invalidStored ·.display)
  return account

/-- What `create` checks before its statement. -/
def prepareCreate (desired : ProviderAccountDesired) : CoreResult (String × ProviderAccount) := do
  id.validate
  let json ← desiredJson desired
  let account ← providerAccountFromDesired id 1 desired
  return (json, account)

/-- What `replace_if_generation` checks before its statements. -/
def prepareReplace (expected : Nat) (desired : ProviderAccountDesired) :
    CoreResult (Int × String × ProviderAccount) := do
  id.validate
  let expectedI64 ← generationI64 expected
  let nextI64 ← generationI64 (expected + 1)
  require (0 < expectedI64) (.conflict "expected provider account generation must be positive")
  let json ← desiredJson desired
  let account ← providerAccountFromDesired id (expected + 1) desired
  return (nextI64, json, account)

/-- The INSERT of `create`. -/
def insertRow (row : Option AccountRow) (json : String) (account : ProviderAccount) :
    Option AccountRow × SqlPhase :=
  match row with
  | none => (some ⟨1, json⟩, .done (.ok (.created account)))
  | some _ => (row, .done (.ok .alreadyExists))

/-- The SELECT of `get`. -/
def selectRow (row : Option AccountRow) : CoreResult AccountResult :=
  match row with
  | none => .ok (.got none)
  | some row => do
    let account ← decodeAccount id row
    return .got (some account)

/-- The guarded UPDATE of `replace_if_generation`. -/
def updateRow (row : Option AccountRow) (expected : Nat) (next : Int) (json : String)
    (account : ProviderAccount) : Option AccountRow × SqlPhase :=
  match row with
  | none => (row, .missed expected)
  | some stored =>
    if stored.generation = expected then (some ⟨next, json⟩, .done (.ok (.stored account)))
    else (row, .missed expected)

/-- The SELECT after an UPDATE that changed no row. -/
def selectGeneration (row : Option AccountRow) : CoreResult AccountResult :=
  match row with
  | none => .ok .notFound
  | some row => do
    let actual ← decodeStoredGeneration row.generation
    return .generationMismatch actual

/-- A call up to the end of its first statement. -/
def firstStatement (row : Option AccountRow) : AccountOp → Option AccountRow × SqlPhase
  | .create desired =>
    match prepareCreate id desired with
    | .error e => (row, .done (.error e))
    | .ok (json, account) => insertRow row json account
  | .get =>
    match id.validate with
    | .error e => (row, .done (.error e))
    | .ok () => (row, .done (selectRow id row))
  | .replace expected desired =>
    match prepareReplace id expected desired with
    | .error e => (row, .done (.error e))
    | .ok (next, json, account) => updateRow row expected next json account

end Statements

section Steps

variable [DesiredJson] (id : CloudResourceId) {I : Type} [DecidableEq I]

def SqlAccounts.setPhase (s : SqlAccounts I) (i : I) (phase : SqlPhase) : SqlAccounts I :=
  { s with phase := update s.phase i phase }

inductive SqlAccountStep : SqlAccounts I → AccountLabel I → SqlAccounts I → Prop
  | call {s : SqlAccounts I} {i : I} (op : AccountOp) : s.phase i = .idle →
    SqlAccountStep s (.call i op) (s.setPhase i (.begun op))
  | first {s : SqlAccounts I} {i : I} {op : AccountOp} : s.phase i = .begun op →
    SqlAccountStep s (.run i)
      ⟨(firstStatement id s.row op).1, update s.phase i (firstStatement id s.row op).2⟩
  | second {s : SqlAccounts I} {i : I} {expected : Nat} : s.phase i = .missed expected →
    SqlAccountStep s (.run i) (s.setPhase i (.done (selectGeneration s.row)))
  | brokenFirst {s : SqlAccounts I} {i : I} {op : AccountOp} (carriedOut : Bool) (message : String) :
    s.phase i = .begun op →
    SqlAccountStep s (.broken i carriedOut)
      ⟨if carriedOut then (firstStatement id s.row op).1 else s.row,
        update s.phase i (.done (.error (.adapter message)))⟩
  | brokenSecond {s : SqlAccounts I} {i : I} {expected : Nat} (carriedOut : Bool)
    (message : String) : s.phase i = .missed expected →
    SqlAccountStep s (.broken i carriedOut) (s.setPhase i (.done (.error (.adapter message))))
  | ret {s : SqlAccounts I} {i : I} {out : CoreResult AccountResult} :
    s.phase i = .done out → SqlAccountStep s (.ret i out) (s.setPhase i .returned)

/-- No row, and no call yet. -/
def SqlAccounts.empty : SqlAccounts I := ⟨none, fun _ => .idle⟩

end Steps

section Refinement

variable [DesiredJson] {id : CloudResourceId} {I : Type} [DecidableEq I]

/-- The row holds the account. -/
inductive RowFor (id : CloudResourceId) : Option AccountRow → Option ProviderAccount → Prop
  | absent : RowFor id none none
  | present {generation : Nat} {desired : ProviderAccountDesired} :
    Storable id generation desired →
    RowFor id (some ⟨generation, DesiredJson.toString desired⟩)
      (some (accountOf id generation desired))

variable {row : Option AccountRow} {account : Option ProviderAccount} {generation : Nat}
  {x : SqlPhase} {a : AccountLabel I} {c' : SqlAccounts I}

omit [DesiredJson] in
theorem decodeStoredGeneration_eq (h : generation ≠ 0) :
    decodeStoredGeneration generation = .ok generation := by
  simp [decodeStoredGeneration, h]

theorem decodeAccount_eq {desired : ProviderAccountDesired} (h : Storable id generation desired) :
    decodeAccount id ⟨generation, DesiredJson.toString desired⟩ =
      .ok (accountOf id generation desired) := by
  have hmade := providerAccountFromDesired_eq_ok.mpr ⟨h, rfl⟩
  simp [decodeAccount, decodeStoredGeneration_eq h.positive, h.id, DesiredJson.fromStr_toString,
    hmade, h.validateStored]

theorem selectRow_eq (h : RowFor id row account) : selectRow id row = .ok (.got account) := by
  cases h with
  | absent => rfl
  | present hstorable => simp [selectRow, decodeAccount_eq hstorable]

theorem create_cases (h : RowFor id row account) (desired : ProviderAccountDesired) :
    (∃ e, firstStatement id row (.create desired) = (row, .done (.error e))) ∨
      ∃ row', firstStatement id row (.create desired) =
          (row', .done (.ok ((accountRegister id).apply account (.create desired)).2)) ∧
        RowFor id row' ((accountRegister id).apply account (.create desired)).1 := by
  simp only [firstStatement]
  cases hprepare : prepareCreate id desired with
  | error e => exact .inl ⟨e, rfl⟩
  | ok prepared =>
    simp only [prepareCreate, desiredJson, bind_eq_ok, exists_unit, pure_eq_ok] at hprepare
    obtain ⟨_, _, ⟨_, rfl⟩, made, hmade, rfl⟩ := hprepare
    obtain ⟨hnew, rfl⟩ := providerAccountFromDesired_eq_ok.mp hmade
    right
    cases h with
    | absent => exact ⟨_, rfl, .present hnew⟩
    | present hstored => exact ⟨_, rfl, .present hstored⟩

theorem get_cases (h : RowFor id row account) :
    (∃ e, firstStatement id row .get = (row, .done (.error e))) ∨
      ∃ row', firstStatement id row .get =
          (row', .done (.ok ((accountRegister id).apply account .get).2)) ∧
        RowFor id row' ((accountRegister id).apply account .get).1 := by
  simp only [firstStatement, selectRow_eq h]
  cases id.validate with
  | error e => exact .inl ⟨e, rfl⟩
  | ok _ =>
    have hget : (accountRegister id).apply account .get = (account, .got account) := by
      cases account <;> rfl
    rw [hget]
    exact .inr ⟨row, rfl, h⟩

theorem replace_cases (h : RowFor id row account) (expected : Nat)
    (desired : ProviderAccountDesired) :
    (∃ e, firstStatement id row (.replace expected desired) = (row, .done (.error e))) ∨
      (∃ row', firstStatement id row (.replace expected desired) =
          (row', .done (.ok ((accountRegister id).apply account (.replace expected desired)).2)) ∧
        RowFor id row' ((accountRegister id).apply account (.replace expected desired)).1) ∨
      firstStatement id row (.replace expected desired) = (row, .missed expected) := by
  simp only [firstStatement]
  cases hprepare : prepareReplace id expected desired with
  | error e => exact .inl ⟨e, rfl⟩
  | ok prepared =>
    simp only [prepareReplace, generationI64, desiredJson, bind_eq_ok, exists_unit, require_eq_ok,
      pure_eq_ok] at hprepare
    obtain ⟨_, _, hexpected, next, hnext, hpositive, _, ⟨_, rfl⟩, made, hmade, rfl⟩ := hprepare
    obtain ⟨hnew, rfl⟩ := providerAccountFromDesired_eq_ok.mp hmade
    obtain rfl : (expected + 1 : Nat) = next := by simpa [hnew.bounded] using hnext
    right
    cases h with
    | absent => exact .inr rfl
    | @present generation stored hstored =>
      by_cases heq : generation = expected
      · subst heq
        left
        have happly : (accountRegister id).apply (some (accountOf id generation stored))
            (.replace generation desired) = (some (accountOf id (generation + 1) desired),
              .stored (accountOf id (generation + 1) desired)) := by
          simp [accountRegister, accountOf]
        rw [happly]
        exact ⟨_, by simp [updateRow], .present hnew⟩
      · right
        have hcast : (generation : Int) ≠ expected := by omega
        simp [updateRow, hcast]

/-- The first statement decides what the register does, or leaves it to the second. -/
theorem firstStatement_cases (h : RowFor id row account) (op : AccountOp) :
    (∃ e, firstStatement id row op = (row, .done (.error e))) ∨
      (∃ row', firstStatement id row op =
          (row', .done (.ok ((accountRegister id).apply account op).2)) ∧
        RowFor id row' ((accountRegister id).apply account op).1) ∨
      ∃ expected desired, op = .replace expected desired ∧
        firstStatement id row op = (row, .missed expected) := by
  cases op with
  | create desired => exact (create_cases h desired).imp_right .inl
  | get => exact (get_cases h).imp_right .inl
  | replace expected desired =>
    exact (replace_cases h expected desired).imp_right (.imp_right fun h => ⟨_, _, rfl, h⟩)

/-- The second statement tells what the register does, unless it finds the generation that was
expected. -/
theorem selectGeneration_eq {expected : Nat} (h : RowFor id row account)
    (hne : ∀ stored ∈ row, stored.generation ≠ expected) (desired : ProviderAccountDesired) :
    selectGeneration row = .ok ((accountRegister id).apply account (.replace expected desired)).2 ∧
      ((accountRegister id).apply account (.replace expected desired)).1 = account := by
  cases h with
  | absent => exact ⟨rfl, rfl⟩
  | @present generation stored hstored =>
    have hne : generation ≠ expected := by
      rintro rfl
      exact hne _ rfl rfl
    simp [selectGeneration, decodeStoredGeneration_eq hstored.positive, accountRegister, accountOf, hne]

/-- How far a call is, in the store and at the register. -/
inductive SqlPhaseFor : SqlPhase → Status AccountOp AccountResult → Prop
  | idle : SqlPhaseFor .idle .idle
  | begun {op : AccountOp} : SqlPhaseFor (.begun op) (.pending op)
  | missed {expected : Nat} {desired : ProviderAccountDesired} :
    SqlPhaseFor (.missed expected) (.pending (.replace expected desired))
  | decided {op : AccountOp} {res : AccountResult} : SqlPhaseFor (.done (.ok res)) (.decided op res)
  | failed {op : AccountOp} {e : CoreError} : SqlPhaseFor (.done (.error e)) (.pending op)
  | lost {op : AccountOp} {res : AccountResult} {e : CoreError} : ¬ e.IsConflict →
    SqlPhaseFor (.done (.error e)) (.decided op res)
  | returned : SqlPhaseFor .returned .returned

structure SqlFor (id : CloudResourceId) (c : SqlAccounts I)
    (s : State I AccountOp AccountResult) : Prop where
  row : RowFor id c.row ((accountRegister id).after s.order)
  phase : ∀ i, SqlPhaseFor (c.phase i) (s.status i)

/-- While an UPDATE that changed no row waits for its SELECT, no statement changes the row. -/
def SqlAccounts.NotOvertaken (id : CloudResourceId) (c : SqlAccounts I) (a : AccountLabel I) : Prop :=
  ∀ i expected, c.phase i = .missed expected → ∀ j op, a = .run j ∨ a = .broken j true →
    c.phase j = .begun op → (firstStatement id c.row op).1 = c.row

/-- No such UPDATE would change the row now. -/
def SqlAccounts.Missing (c : SqlAccounts I) : Prop :=
  ∀ i expected, c.phase i = .missed expected → ∀ stored ∈ c.row, stored.generation ≠ expected

omit [DecidableEq I] in
theorem sqlFor_empty : SqlFor id (SqlAccounts.empty : SqlAccounts I) State.init :=
  ⟨.absent, fun _ => .idle⟩

variable {y : Status AccountOp AccountResult} {s : State I AccountOp AccountResult} {i : I}
  {c : SqlAccounts I} {op : AccountOp}

omit [DesiredJson] in
theorem SqlPhaseFor.update {phase : I → SqlPhase} {status : I → Status AccountOp AccountResult}
    (h : ∀ i, SqlPhaseFor (phase i) (status i)) (hi : SqlPhaseFor x y) (j : I) :
    SqlPhaseFor (update phase i x j) (update status i y j) := by
  by_cases hj : j = i
  · subst hj
    simpa using hi
  · simpa [hj] using h j

/-- The phase of one call changes, and its status at the register does not. -/
theorem SqlFor.phase_update (h : SqlFor id c s) (hy : s.status i = y) (hi : SqlPhaseFor x y) (j : I) :
    SqlPhaseFor (update c.phase i x j) (s.status j) := by
  have hsame := update_eq_self i s.status
  rw [hy] at hsame
  rw [← hsame]
  exact SqlPhaseFor.update h.phase hi j

theorem SqlFor.setPhase (h : SqlFor id c s) (hi : SqlPhaseFor x y) :
    SqlFor id (c.setPhase i x) (s.setStatus i y) :=
  ⟨h.row, SqlPhaseFor.update h.phase hi⟩

/-- A statement that decides the call. -/
theorem SqlFor.commit (h : SqlFor id c s)
    (hrow : RowFor id row ((accountRegister id).apply ((accountRegister id).after s.order) op).1)
    (hi : SqlPhaseFor x
      (.decided op ((accountRegister id).apply ((accountRegister id).after s.order) op).2)) :
    SqlFor id ⟨row, update c.phase i x⟩
      ⟨s.order ++ [⟨i, op, ((accountRegister id).apply ((accountRegister id).after s.order) op).2⟩],
        update s.status i
          (.decided op ((accountRegister id).apply ((accountRegister id).after s.order) op).2)⟩ :=
  ⟨by rw [Object.after_concat]; exact hrow, SqlPhaseFor.update h.phase hi⟩

omit [DesiredJson] [DecidableEq I] in
theorem not_isConflict_adapter (message : String) : ¬ (CoreError.adapter message).IsConflict := by
  rintro ⟨_, h⟩
  cases h

/-- One step of the store, and what it is at the register. -/
theorem sql_step (hfor : SqlFor id c s) (hmissing : c.Missing) (hstep : SqlAccountStep id c a c') :
    ∃ labels s', Run (Step (accountRegister id) CoreError.IsConflict) s labels s' ∧
      SqlFor id c' s' ∧ labels.reduceOption = (AccountLabel.see a).toList := by
  cases hstep with
  | @call i op hidle =>
    have hi := hfor.phase i
    rw [hidle] at hi
    generalize hy : s.status i = y at hi
    cases hi
    exact ⟨_, _, .step (.call op hy) (.refl _), hfor.setPhase .begun, rfl⟩
  | @first i op hbegun =>
    have hi := hfor.phase i
    rw [hbegun] at hi
    generalize hy : s.status i = y at hi
    cases hi
    rcases firstStatement_cases hfor.row op with ⟨e, he⟩ | ⟨row', he, hrow⟩ | ⟨_, _, rfl, he⟩
    · rw [he]
      exact ⟨[], s, .refl s, ⟨hfor.row, hfor.phase_update hy .failed⟩, rfl⟩
    · rw [he]
      exact ⟨_, _, .step (.commit hy) (.refl _), hfor.commit hrow .decided, rfl⟩
    · rw [he]
      exact ⟨[], s, .refl s, ⟨hfor.row, hfor.phase_update hy .missed⟩, rfl⟩
  | @second i expected hmissed =>
    have hi := hfor.phase i
    rw [hmissed] at hi
    generalize hy : s.status i = y at hi
    cases hi with
    | @missed _ desired =>
      obtain ⟨hselect, hsame⟩ :=
        selectGeneration_eq hfor.row (hmissing i expected hmissed) desired
      refine ⟨_, _, .step (.commit hy) (.refl _), ?_, rfl⟩
      rw [hselect]
      exact hfor.commit (by rw [hsame]; exact hfor.row) .decided
  | @brokenFirst i op carriedOut message hbegun =>
    have hi := hfor.phase i
    rw [hbegun] at hi
    generalize hy : s.status i = y at hi
    cases hi
    have hunchanged : SqlFor id ⟨c.row, update c.phase i
        (.done (.error (.adapter message)))⟩ s :=
      ⟨hfor.row, hfor.phase_update hy .failed⟩
    cases carriedOut with
    | false => exact ⟨[], s, .refl s, hunchanged, rfl⟩
    | true =>
      rcases firstStatement_cases hfor.row op with ⟨e, he⟩ | ⟨row', he, hrow⟩ | ⟨_, _, rfl, he⟩
      · rw [he]
        exact ⟨[], s, .refl s, hunchanged, rfl⟩
      · rw [he]
        exact ⟨_, _, .step (.commit hy) (.refl _),
          hfor.commit hrow (.lost (not_isConflict_adapter message)), rfl⟩
      · rw [he]
        exact ⟨[], s, .refl s, hunchanged, rfl⟩
  | @brokenSecond i expected carriedOut message hmissed =>
    have hi := hfor.phase i
    rw [hmissed] at hi
    generalize hy : s.status i = y at hi
    cases hi
    exact ⟨[], s, .refl s, ⟨hfor.row, hfor.phase_update hy .failed⟩, rfl⟩
  | @ret i out hdone =>
    have hi := hfor.phase i
    rw [hdone] at hi
    generalize hy : s.status i = y at hi
    cases hi with
    | decided => exact ⟨_, _, .step (.ret hy) (.refl _), hfor.setPhase .returned, rfl⟩
    | failed => exact ⟨_, _, .step (.fail _ hy) (.refl _), hfor.setPhase .returned, rfl⟩
    | lost hlost => exact ⟨_, _, .step (.lose _ hlost hy) (.refl _), hfor.setPhase .returned, rfl⟩

theorem missed_of_firstStatement {expected : Nat}
    (h : (firstStatement id row op).2 = .missed expected) :
    (firstStatement id row op).1 = row ∧ ∀ stored ∈ row, stored.generation ≠ expected := by
  cases op with
  | create desired =>
    simp only [firstStatement, insertRow] at h
    split at h
    · cases h
    · split at h <;> cases h
  | get =>
    simp only [firstStatement] at h
    split at h <;> cases h
  | replace expected' desired =>
    simp only [firstStatement, updateRow] at h ⊢
    split at h
    · cases h
    · split at h
      · simp
      · split at h
        · cases h
        · next hne =>
          cases h
          simp [hne]

omit [DesiredJson] in
/-- The row is written only when no such UPDATE waits. -/
theorem SqlAccounts.Missing.write (h : c.Missing)
    (hrow : ∀ j expected, c.phase j = .missed expected → row = c.row)
    (hx : ∀ expected, x = .missed expected → ∀ stored ∈ row, stored.generation ≠ expected) :
    (⟨row, update c.phase i x⟩ : SqlAccounts I).Missing := by
  intro j expected hj
  by_cases hji : j = i
  · subst hji
    exact hx expected (by simpa using hj)
  · have hj' : c.phase j = .missed expected := by simpa [hji] using hj
    have hmissing := h j expected hj'
    rwa [← hrow j expected hj'] at hmissing

theorem SqlAccounts.Missing.step (h : c.Missing) (hstep : SqlAccountStep id c a c')
    (hnot : c.NotOvertaken id a) : c'.Missing := by
  cases hstep with
  | @first i op hbegun =>
    refine h.write (fun j expected hj => hnot j expected hj i op (.inl rfl) hbegun) ?_
    intro expected hmissed
    obtain ⟨hrow, hne⟩ := missed_of_firstStatement hmissed
    rwa [hrow]
  | @brokenFirst i op carriedOut message hbegun =>
    refine h.write (fun j expected hj => ?_) (by simp)
    cases carriedOut with
    | false => rfl
    | true => exact hnot j expected hj i op (.inr rfl) hbegun
  | call op hidle => exact h.write (fun _ _ _ => rfl) (by simp)
  | second hmissed => exact h.write (fun _ _ _ => rfl) (by simp)
  | brokenSecond carriedOut message hmissed => exact h.write (fun _ _ _ => rfl) (by simp)
  | ret hdone => exact h.write (fun _ _ _ => rfl) (by simp)

/-- The store refines the register as long as no missed UPDATE is overtaken. -/
theorem sql_refines : Refines (accountRegister id) CoreError.IsConflict
    (Guarded (SqlAccountStep id) (SqlAccounts.NotOvertaken id)) AccountLabel.see
    (fun (c : SqlAccounts I) s => SqlFor id c s ∧ c.Missing) := by
  rintro c a c' s ⟨hfor, hmissing⟩ ⟨hstep, hnot⟩
  obtain ⟨labels, s', hrun, hfor', hsee⟩ := sql_step hfor hmissing hstep
  exact ⟨labels, s', hrun, ⟨hfor', hmissing.step hstep hnot⟩, hsee⟩

end Refinement

end EdgionCenter
