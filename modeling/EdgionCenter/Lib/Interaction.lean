import EdgionCenter.Lib.Fallible

/-! Programs that call an environment, and rules for what holds along their runs. A call has one
reply, of a type that depends on the call. -/

inductive Interaction (C : Type) (R : C → Type) (α : Type) : Type
  | ret (a : α)
  | call (c : C) (next : R c → Interaction C R α)

namespace Interaction

variable {C : Type} {R : C → Type} {α β σ ε ε' : Type}

protected def bind : Interaction C R α → (α → Interaction C R β) → Interaction C R β
  | ret a, f => f a
  | call c next, f => call c fun r => (next r).bind f

instance : Monad (Interaction C R) where
  pure := ret
  bind := Interaction.bind

/-- Makes one call. -/
def ask (c : C) : Interaction C R (R c) := call c ret

/-- What is watched along a run: a state that each call and its reply change, which calls may be
made in it, and which replies are taken into account. -/
structure Monitor (C : Type) (R : C → Type) (σ : Type) where
  step : σ → (c : C) → R c → σ
  guard : σ → C → Prop
  rely : σ → (c : C) → R c → Prop

/-- Every call of the program meets the guard, and its result the postcondition, as long as the
replies are as relied on. -/
def Holds (M : Monitor C R σ) : Interaction C R α → (σ → α → Prop) → σ → Prop
  | ret a, post, s => post s a
  | call c next, post, s =>
    M.guard s c ∧ ∀ r, M.rely s c r → Holds M (next r) post (M.step s c r)

/-- The program `q` in state `s'` is what is left of `p` in state `s` after some calls. -/
inductive Reaches (M : Monitor C R σ) : Interaction C R α → σ → Interaction C R α → σ → Prop
  | refl {p : Interaction C R α} {s : σ} : Reaches M p s p s
  | step {c : C} {next : R c → Interaction C R α} {s : σ} {r : R c} {q : Interaction C R α} {s' : σ}
      (hr : M.rely s c r) (h : Reaches M (next r) (M.step s c r) q s') :
      Reaches M (call c next) s q s'

/-- The run with an environment that replies by the state. -/
def exec (M : Monitor C R σ) (reply : σ → (c : C) → R c) : Interaction C R α → σ → α × σ
  | ret a, s => (a, s)
  | call c next, s => (next (reply s c)).exec M reply (M.step s c (reply s c))

/-- Records every call with its reply. -/
def Monitor.history (guard : List (Sigma R) → C → Prop) : Monitor C R (List (Sigma R)) where
  step log c r := log ++ [⟨c, r⟩]
  guard := guard
  rely _ _ _ := True

section Rules

variable {M : Monitor C R σ} {p : Interaction C R α} {post : σ → α → Prop} {s s' : σ}

theorem holds_bind {f : α → Interaction C R β} {post : σ → β → Prop} :
    Holds M (p >>= f) post s ↔ Holds M p (fun s a => Holds M (f a) post s) s := by
  induction p generalizing s with
  | ret a => exact Iff.rfl
  | call c next ih =>
    change (_ ∧ ∀ r, _ → Holds M (next r >>= f) post _) ↔ _
    simp only [ih]
    exact Iff.rfl

theorem Holds.imp {post' : σ → α → Prop} (h : Holds M p post s)
    (himp : ∀ s a, post s a → post' s a) : Holds M p post' s := by
  induction p generalizing s with
  | ret a => exact himp s a h
  | call c next ih => exact ⟨h.1, fun r hr => ih r (h.2 r hr)⟩

variable {q : Interaction C R α} {c : C} {guard : List (Sigma R) → C → Prop} {log : List (Sigma R)}

/-- What holds of a program holds of what is left of it. -/
theorem Holds.of_reaches (h : Holds M p post s) (hr : Reaches M p s q s') : Holds M q post s' := by
  induction hr with
  | refl => exact h
  | step hr _ ih => exact ih (h.2 _ hr)

theorem Holds.of_call {next : R c → Interaction C R α} (h : Holds M p post s)
    (hr : Reaches M p s (call c next) s') : M.guard s' c :=
  (h.of_reaches hr).1

theorem Holds.of_ret {a : α} (h : Holds M p post s) (hr : Reaches M p s (ret a) s') : post s' a :=
  h.of_reaches hr

/-- What is recorded does not depend on what may be called. -/
theorem reaches_history {guard' : List (Sigma R) → C → Prop} {log' : List (Sigma R)}
    (h : Reaches (Monitor.history guard) p log q log') :
    Reaches (Monitor.history guard') p log q log' := by
  induction h with
  | refl => exact .refl
  | step hr _ ih => exact .step hr ih

theorem holds_history_ask {f : R c → Interaction C R α} {post : List (Sigma R) → α → Prop}
    (hc : guard log c) (h : ∀ r, Holds (Monitor.history guard) (f r) post (log ++ [⟨c, r⟩])) :
    Holds (Monitor.history guard) (ask c >>= f) post log :=
  ⟨hc, fun r _ => h r⟩

end Rules

section Exec

variable {M : Monitor C R σ} {reply : σ → (c : C) → R c} {s s' : σ} {f : α → Interaction C R β}
  {Q : α → Prop}

theorem exec_bind {p : Interaction C R α} :
    (p >>= f).exec M reply s = (f (p.exec M reply s).1).exec M reply (p.exec M reply s).2 := by
  induction p generalizing s with
  | ret a => rfl
  | call c next ih => exact ih _

/-- Every call of the program is of a kind. -/
def Only (P : C → Prop) : Interaction C R α → Prop
  | ret _ => True
  | call c next => P c ∧ ∀ r, Only P (next r)

/-- Whatever the replies, the result is of a kind. -/
def Returns (Q : α → Prop) : Interaction C R α → Prop
  | ret a => Q a
  | call _ next => ∀ r, Returns Q (next r)

theorem returns_ask {c : C} {f : R c → Interaction C R α} (h : ∀ r, Returns Q (f r)) :
    Returns Q (ask c >>= f) := h

theorem returns_bind {p : Interaction C R α} {Q' : β → Prop} (h : Returns Q p)
    (hf : ∀ a, Q a → Returns Q' (f a)) : Returns Q' (p >>= f) := by
  induction p with
  | ret a => exact hf a h
  | call c next ih => exact fun r => ih r (h r)

variable {P : C → Prop} {p : Interaction C R α}

theorem only_bind (h : Only P p) (hf : ∀ a, Only P (f a)) : Only P (p >>= f) := by
  induction p with
  | ret a => exact hf a
  | call c next ih => exact ⟨h.1, fun r => ih r (h.2 r)⟩

theorem Only.exec_snd (h : Only P p) (hstep : ∀ c r, P c → M.step s c r = s) :
    (p.exec M reply s).2 = s := by
  induction p with
  | ret a => rfl
  | call c next ih =>
    change ((next (reply s c)).exec M reply (M.step s c (reply s c))).2 = s
    rw [hstep c _ h.1]
    exact ih _ (h.2 _)

theorem Only.mono {Q : C → Prop} (h : Only P p) (hPQ : ∀ c, P c → Q c) : Only Q p := by
  induction p with
  | ret a => trivial
  | call c next ih => exact ⟨hPQ c h.1, fun r => ih r (h.2 r)⟩

/-- Calls that the environment answers alike in every state, and that do not change it. -/
theorem Only.exec_fst (h : Only P p) (hstep : ∀ s c r, P c → M.step s c r = s)
    (hreply : ∀ c, P c → reply s c = reply s' c) :
    (p.exec M reply s).1 = (p.exec M reply s').1 := by
  induction p with
  | ret a => rfl
  | call c next ih =>
    change ((next (reply s c)).exec M reply (M.step s c (reply s c))).1 =
      ((next (reply s' c)).exec M reply (M.step s' c (reply s' c))).1
    rw [hstep s c _ h.1, hstep s' c _ h.1, hreply c h.1]
    exact ih _ (h.2 _)

/-- At most one call of the program is not of the kind. -/
def Once (P : C → Prop) : Interaction C R α → Prop
  | ret _ => True
  | call c next => ∀ r, Once P (next r) ∧ (P c ∨ Only P (next r))

theorem Only.once (h : Only P p) : Once P p := by
  induction p with
  | ret a => trivial
  | call c next ih => exact fun r => ⟨ih r (h.2 r), .inl h.1⟩

theorem once_bind (h : Once P p) (hf : ∀ a, Once P (f a)) (hone : Only P p ∨ ∀ a, Only P (f a)) :
    Once P (p >>= f) := by
  induction p with
  | ret a => exact hf a
  | call c next ih =>
    refine fun r => ⟨ih r (h r).1 (hone.imp_left fun hp => hp.2 r), ?_⟩
    rcases hone with hp | hf
    · exact .inl hp.1
    · exact (h r).2.imp_right fun hp => only_bind hp hf

end Exec

section Lift

variable {C' : Type} {R' : C' → Type}

/-- The same program with its calls taken as calls of another environment. -/
def lift (f : C → C') : Interaction C (fun c => R' (f c)) α → Interaction C' R' α
  | ret a => ret a
  | call c next => call (f c) fun r => (next r).lift f

def Monitor.comap (f : C → C') (M : Monitor C' R' σ) : Monitor C (fun c => R' (f c)) σ where
  step s c r := M.step s (f c) r
  guard s c := M.guard s (f c)
  rely s c r := M.rely s (f c) r

theorem Only.lift {f : C → C'} {P : C' → Prop} {p : Interaction C (fun c => R' (f c)) α}
    (h : Only (fun c => P (f c)) p) : Only P (p.lift f) := by
  induction p with
  | ret a => trivial
  | call c next ih => exact ⟨h.1, fun r => ih r (h.2 r)⟩

end Lift

section Fallible

variable {M : Monitor C R σ} {s : σ} {a : α} {post : σ → Except ε α → Prop}
  {x : ExceptT ε (Interaction C R) α}

@[simp] theorem holds_run_pure :
    Holds M (pure a : ExceptT ε (Interaction C R) α).run post s ↔ post s (.ok a) :=
  Iff.rfl

@[simp] theorem holds_run_lift {x : Except ε α} :
    Holds M (liftM x : ExceptT ε (Interaction C R) α).run post s ↔ post s x :=
  Iff.rfl

@[simp] theorem holds_run_ask {c : C} {post : σ → Except ε (R c) → Prop} :
    Holds M (liftM (ask c : Interaction C R (R c)) : ExceptT ε (Interaction C R) (R c)).run post s ↔
      M.guard s c ∧ ∀ r, M.rely s c r → post (M.step s c r) (.ok r) :=
  Iff.rfl

variable {f : α → ExceptT ε (Interaction C R) β}

@[simp] theorem holds_run_bind {post : σ → Except ε β → Prop} : Holds M (x >>= f).run post s ↔
      Holds M x.run (fun s r => match r with
        | .ok a => Holds M (f a).run post s
        | .error e => post s (.error e)) s := by
  change Holds M (x.run >>= ExceptT.bindCont f) post s ↔ _
  rw [holds_bind]
  constructor <;> intro h <;> refine h.imp ?_ <;> rintro s (e | a) hr <;> exact hr

/-- What each part keeps of the state, with errors or without, the whole keeps. -/
theorem holds_run_keeps {P : σ → Prop} (h : Holds M x.run (fun s _ => P s) s)
    (hf : ∀ a s, P s → Holds M (f a).run (fun s _ => P s) s) :
    Holds M (x >>= f).run (fun s _ => P s) s := by
  rw [holds_run_bind]
  refine h.imp ?_
  rintro s (e | a) hs
  · exact hs
  · exact hf a s hs

/-- The calls are as the monitor allows, and if the program succeeds its result meets the
postcondition. -/
def HoldsOk (M : Monitor C R σ) (x : ExceptT ε (Interaction C R) α) (post : σ → α → Prop) (s : σ) :
    Prop :=
  Holds M x.run (fun s r => ∀ a, r = .ok a → post s a) s

section HoldsOk

variable {x : ExceptT ε (Interaction C R) α} {post : σ → α → Prop} {post' : σ → β → Prop}
  {y : Except ε α}

theorem HoldsOk.bind (h : HoldsOk M x post s) (hf : ∀ s a, post s a → HoldsOk M (f a) post' s) :
    HoldsOk M (x >>= f) post' s := by
  unfold HoldsOk
  rw [holds_run_bind]
  refine h.imp ?_
  rintro s (e | a) hs
  · intro b hb
    cases hb
  · exact hf s a (hs a rfl)

theorem holdsOk_lift (h : ∀ a, y = .ok a → post s a) :
    HoldsOk M (liftM y : ExceptT ε (Interaction C R) α) post s := h

/-- A computation that makes no call, in front of a program. -/
theorem holdsOk_lift_bind (h : ∀ a, y = .ok a → HoldsOk M (f a) post' s) :
    HoldsOk M ((liftM y : ExceptT ε (Interaction C R) α) >>= f) post' s := by
  have hlift : HoldsOk M (liftM y : ExceptT ε (Interaction C R) α) (fun t a => t = s ∧ y = .ok a) s :=
    holdsOk_lift fun a ha => ⟨rfl, ha⟩
  refine hlift.bind ?_
  rintro _ a ⟨rfl, ha⟩
  exact h a ha

theorem holdsOk_ask_bind {c : C} {f : R c → ExceptT ε (Interaction C R) β} (hguard : M.guard s c)
    (h : ∀ r, M.rely s c r → HoldsOk M (f r) post' (M.step s c r)) :
    HoldsOk M ((liftM (ask c : Interaction C R (R c)) : ExceptT ε (Interaction C R) (R c)) >>= f)
      post' s :=
  ⟨hguard, h⟩

theorem holdsOk_pure {a : α} (h : post s a) :
    HoldsOk M (pure a : ExceptT ε (Interaction C R) α) post s := by
  intro b hb
  cases hb
  exact h

theorem holdsOk_throw {e : ε} : HoldsOk M (throw e : ExceptT ε (Interaction C R) α) post s := by
  intro b hb
  cases hb

end HoldsOk

/-- A computation that succeeds, in front of a program. -/
theorem run_lift_bind {x : Except ε α} (hx : x = .ok a) :
    ((liftM x : ExceptT ε (Interaction C R) α) >>= f).run = (f a).run := by
  subst hx
  rfl

theorem Reaches.run_ok {x : Except ε α} {q : Interaction C R (Except ε β)} {t : σ} (hx : x = .ok a)
    (h : Reaches M (f a).run s q t) :
    Reaches M ((liftM x : ExceptT ε (Interaction C R) α) >>= f).run s q t := by
  subst hx
  exact h

/-- A call whose reply may be an error. -/
def attempt {Reply : C → Type} (c : C) :
    ExceptT ε (Interaction C fun c => Except ε (Reply c)) (Reply c) :=
  ExceptT.mk (ask c)

section Exec

variable {reply : σ → (c : C) → R c} {P : C → Prop} {x : ExceptT ε (Interaction C R) α}
  {f : α → ExceptT ε (Interaction C R) β}

theorem exec_run_bind : (x >>= f).run.exec M reply s = match x.run.exec M reply s with
      | (.ok a, t) => (f a).run.exec M reply t
      | (.error e, t) => (.error e, t) := by
  change (x.run >>= ExceptT.bindCont f).exec M reply s = _
  rw [exec_bind]
  rcases x.run.exec M reply s with ⟨e | a, t⟩ <;> rfl

variable {a : α} {p : Interaction C R α} {t : σ}

@[simp] theorem exec_run_pure :
    (pure a : ExceptT ε (Interaction C R) α).run.exec M reply s = (.ok a, s) := rfl

@[simp] theorem exec_run_lift {x : Except ε α} :
    (liftM x : ExceptT ε (Interaction C R) α).run.exec M reply s = (x, s) := rfl

theorem exec_run_adapt {f : ε → ε'} : (x.adapt f).run.exec M reply s =
      ((x.run.exec M reply s).1.mapError f, (x.run.exec M reply s).2) := by
  change (x.run >>= fun r => ret (r.mapError f)).exec M reply s = _
  rw [exec_bind]
  rfl

/-- The run of a program that cannot fail. -/
theorem exec_run_liftM : (liftM p : ExceptT ε (Interaction C R) α).run.exec M reply s =
      (.ok (p.exec M reply s).1, (p.exec M reply s).2) := by
  change (p >>= fun a => ret (Except.ok a : Except ε α)).exec M reply s = _
  rw [exec_bind]
  rfl

/-- A run that succeeds, taken apart. -/
theorem exec_run_bind_ok {b : β} : (x >>= f).run.exec M reply s = (.ok b, t) ↔
      ∃ a u, x.run.exec M reply s = (.ok a, u) ∧ (f a).run.exec M reply u = (.ok b, t) := by
  rw [exec_run_bind]
  rcases x.run.exec M reply s with ⟨e | a, u⟩
  · simp
  · exact ⟨fun h => ⟨a, u, rfl, h⟩, by rintro ⟨_, _, ⟨⟩, h⟩; exact h⟩

theorem exec_run_lift_ok {x : Except ε α} :
    (liftM x : ExceptT ε (Interaction C R) α).run.exec M reply s = (.ok a, t) ↔
      x = .ok a ∧ s = t := by
  rw [exec_run_lift, Prod.mk.injEq]

theorem exec_run_pure_ok {b : α} :
    (pure a : ExceptT ε (Interaction C R) α).run.exec M reply s = (.ok b, t) ↔ a = b ∧ s = t := by
  rw [exec_run_pure, Prod.mk.injEq, Except.ok.injEq]

theorem exec_run_adapt_ok {f : ε → ε'} :
    (x.adapt f).run.exec M reply s = (.ok a, t) ↔ x.run.exec M reply s = (.ok a, t) := by
  rw [exec_run_adapt]
  rcases x.run.exec M reply s with ⟨r, u⟩
  rw [Prod.mk.injEq, Prod.mk.injEq, Fallible.mapError_eq_ok]

/-- A run that changes the state has not failed in a part that changes nothing. -/
theorem exec_run_bind_of_ne {r : Except ε β} (h : (x >>= f).run.exec M reply s = (r, t))
    (hx : (x.run.exec M reply s).2 = s) (hne : t ≠ s) :
    ∃ a, x.run.exec M reply s = (.ok a, s) ∧ (f a).run.exec M reply s = (r, t) := by
  rw [exec_run_bind] at h
  rcases hrun : x.run.exec M reply s with ⟨e | a, u⟩
  · rw [hrun] at h hx
    cases h
    exact absurd hx hne
  · rw [hrun] at h hx
    cases hx
    exact ⟨a, rfl, h⟩

theorem only_run_bind (h : Only P x.run) (hf : ∀ a, Only P (f a).run) : Only P (x >>= f).run := by
  change Only P (x.run >>= ExceptT.bindCont f)
  apply only_bind h
  rintro (e | a)
  · trivial
  · exact hf a

theorem once_run_bind (h : Only P x.run) (hf : ∀ a, Once P (f a).run) : Once P (x >>= f).run := by
  change Once P (x.run >>= ExceptT.bindCont f)
  refine once_bind h.once ?_ (.inl h)
  rintro (e | a)
  · trivial
  · exact hf a

theorem Once.run_bind (h : Once P x.run) (hf : ∀ a, Only P (f a).run) : Once P (x >>= f).run := by
  have hcont : ∀ r, Only P (ExceptT.bindCont f r) := by
    rintro (e | a)
    · trivial
    · exact hf a
  exact once_bind h (fun r => (hcont r).once) (.inr hcont)

theorem only_run_lift {x : Except ε α} : Only P (liftM x : ExceptT ε (Interaction C R) α).run :=
  trivial

theorem only_run_liftM (h : Only P p) : Only P (liftM p : ExceptT ε (Interaction C R) α).run := by
  change Only P (p >>= fun a => ret (Except.ok a : Except ε α))
  exact only_bind h fun _ => trivial

theorem only_run_adapt {f : ε → ε'} (h : Only P x.run) : Only P (x.adapt f).run := by
  change Only P (x.run >>= fun r => ret (r.mapError f))
  exact only_bind h fun _ => trivial

end Exec

end Fallible

end Interaction
