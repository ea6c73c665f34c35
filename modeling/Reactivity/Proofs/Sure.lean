import Reactivity.Proofs.Triple

/-!
# Runs that end

`Sure P x Q`: run from a state satisfying `P`, the computation `x` ends, with a value or a fault
and without halting, in a state satisfying `Q` of its outcome. Beside `Triple` it promises an
outcome as well as a property of it, so a lemma stated with it says that a function returns.
Its rules follow the monad's combinators as those of `Triple` do, with rules for runs from a
known state. `Stays I x` is the invariant form: from a state satisfying `I`, `x` ends with a
value in a state satisfying `I`.
-/

namespace Reactivity

variable {η α β : Type}

/-- Run from a state satisfying `P`, `x` ends, with a value or a fault and without halting, in
a state satisfying `Q` of its outcome. -/
def Sure (P : Machine η → Prop) (x : Eff η α) (Q : Except Fault α → Machine η → Prop) : Prop :=
  ∀ m, P m → ∃ r m', ExceptT.run x m = .ok (r, m') ∧ Q r m'

namespace Sure

variable {P P' : Machine η → Prop} {Q Q' : Except Fault α → Machine η → Prop} {x : Eff η α}

theorem triple (h : Sure P x Q) : Triple P x Q := by
  intro m hm r m' hr
  obtain ⟨r₀, m₀, hrun, hq⟩ := h m hm
  rw [hrun] at hr
  cases hr
  exact hq

theorem pure (a : α) (h : ∀ m, P m → Q (.ok a) m) : Sure P (Pure.pure a : Eff η α) Q :=
  fun m hm => ⟨_, _, rfl, h m hm⟩

theorem conseq (h : Sure P x Q) (hp : ∀ m, P' m → P m) (hq : ∀ r m, Q r m → Q' r m) :
    Sure P' x Q' := by
  intro m hm
  obtain ⟨r, m', hrun, hr⟩ := h m (hp m hm)
  exact ⟨r, m', hrun, hq r m' hr⟩

theorem bind {R : Except Fault α → Machine η → Prop} {Q : Except Fault β → Machine η → Prop}
    {f : α → Eff η β} (hx : Sure P x R) (hf : ∀ a, Sure (R (.ok a)) (f a) Q)
    (he : ∀ e m, R (.error e) m → Q (.error e) m) : Sure P (x >>= f) Q := by
  intro m hm
  obtain ⟨r, m₁, hrun, hr⟩ := hx m hm
  rw [Eff.exec_bind, hrun]
  cases r with
  | error e => exact ⟨_, _, rfl, he e m₁ hr⟩
  | ok a => exact hf a m₁ hr

theorem bind_ok {R : α → Machine η → Prop} {Q : Except Fault β → Machine η → Prop}
    {f : α → Eff η β} (hx : Sure P x fun r m => ∃ a, r = .ok a ∧ R a m)
    (hf : ∀ a, Sure (R a) (f a) Q) : Sure P (x >>= f) Q := by
  intro m hm
  obtain ⟨r, m₁, hrun, a, rfl, hr⟩ := hx m hm
  rw [Eff.exec_bind, hrun]
  exact hf a m₁ hr

theorem bind_get {Q : Except Fault β → Machine η → Prop} {f : Machine η → Eff η β}
    (h : ∀ m, P m → Sure (· = m) (f m) Q) : Sure P (MonadState.get >>= f) Q := by
  intro m hm
  rw [Eff.exec_get_bind]
  exact h m hm m rfl

theorem ite (c : Prop) [Decidable c] {y : Eff η α} (hx : c → Sure P x Q) (hy : ¬c → Sure P y Q) :
    Sure P (if c then x else y) Q := by
  by_cases hc : c
  · simpa only [if_pos hc] using hx hc
  · simpa only [if_neg hc] using hy hc

theorem forIn_list {xs : List α} {b : β} {f : α → β → Eff η (ForInStep β)}
    (J : List α → β → Machine η → Prop)
    (h : ∀ pre a post b, xs = pre ++ a :: post →
      Sure (J pre b) (f a b) fun r m => ∃ b', r = .ok (.yield b') ∧ J (pre ++ [a]) b' m) :
    Sure (J [] b) (forIn xs b f) fun r m => ∃ b', r = .ok b' ∧ J xs b' m := by
  suffices hrest : ∀ pre rest b, xs = pre ++ rest →
      Sure (J pre b) (forIn rest b f) fun r m => ∃ b', r = .ok b' ∧ J xs b' m from
    hrest [] xs b rfl
  intro pre rest
  induction rest generalizing pre with
  | nil =>
    intro b hxs
    rw [List.append_nil] at hxs
    subst hxs
    exact pure b fun m hm => ⟨b, rfl, hm⟩
  | cons a rest ih =>
    intro b hxs
    rw [List.forIn_cons]
    refine bind (h pre a rest b hxs) (fun s => ?_) fun e m hr => by
      obtain ⟨_, hr, _⟩ := hr
      cases hr
    cases s with
    | done b' =>
      intro m hr
      obtain ⟨_, hr, _⟩ := hr
      cases hr
    | yield b' =>
      refine conseq (ih (pre ++ [a]) b' (by rw [hxs, List.append_assoc]; rfl)) ?_ fun _ _ h => h
      rintro m ⟨_, hr, hm⟩
      cases hr
      exact hm

/-! ## Runs from a known state -/

variable {m : Machine η} {γ : Type}

theorem modify_bind {Q : Except Fault β → Machine η → Prop} {g : Machine η → Machine η}
    {k : PUnit → Eff η β} (h : Sure (· = g m) (k ⟨⟩) Q) : Sure (· = m) (modify g >>= k) Q := by
  rintro _ rfl
  rw [Eff.exec_modify_bind]
  exact h _ rfl

theorem newDep_bind {Q : Except Fault β → Machine η → Prop} {k : DepId → Eff η β}
    (h : Sure (· = { m with deps := m.deps.push {} }) (k ⟨m.deps.size⟩) Q) :
    Sure (· = m) (Eff.newDep >>= k) Q := by
  rintro _ rfl
  simp only [Eff.newDep, bind_assoc, Eff.exec_get_bind, pure_bind]
  exact h _ rfl

theorem newProp_bind {Q : Except Fault β → Machine η → Prop} {p : Property}
    {k : PropId → Eff η β} (h : Sure (· = { m with props := m.props.push p }) (k ⟨m.props.size⟩) Q) :
    Sure (· = m) (Eff.newProp p >>= k) Q := by
  rintro _ rfl
  simp only [Eff.newProp, bind_assoc, Eff.exec_get_bind, pure_bind]
  exact h _ rfl

theorem run_bind {Q : Except Fault β → Machine η → Prop} {x : Eff η γ} {k : γ → Eff η β} {a : γ}
    {m' : Machine η} (hx : ExceptT.run x m = .ok (.ok a, m')) (h : Sure (· = m') (k a) Q) :
    Sure (· = m) (x >>= k) Q := by
  rintro _ rfl
  rw [Eff.exec_bind, hx]
  exact h _ rfl

theorem read_bind {Q : Except Fault β → Machine η → Prop} {f : Machine η → γ} {k : γ → Eff η β}
    (h : Sure (· = m) (k (f m)) Q) : Sure (· = m) ((do return f (← get)) >>= k) Q := by
  rintro _ rfl
  simp only [bind_assoc, Eff.exec_get_bind, pure_bind]
  exact h _ rfl

theorem intro (h : ∀ m, P m → Sure (· = m) x Q) : Sure P x Q := fun m hm => h m hm m rfl

theorem forIn_nil {xs : List α} {b : β} {f : α → β → Eff η (ForInStep β)} (hxs : xs = []) :
    Sure (· = m) (forIn xs b f) fun r m' => ∃ b', r = .ok b' ∧ m' = m := by
  subst hxs
  exact pure b fun _ hm => ⟨b, rfl, hm⟩

theorem pure_at {m : Machine η} (a : α) (h : Q (.ok a) m) : Sure (· = m) (Pure.pure a : Eff η α) Q := by
  rintro _ rfl
  exact ⟨_, _, rfl, h⟩

theorem modify {Q : Except Fault Unit → Machine η → Prop} (f : Machine η → Machine η)
    (h : ∀ m, P m → Q (.ok ()) (f m)) : Sure P (modify f : Eff η Unit) Q :=
  fun m hm => ⟨_, _, rfl, h m hm⟩

end Sure

/-- From a state satisfying `I`, `x` ends with a value, in a state satisfying `I`. -/
def Stays (I : Machine η → Prop) (x : Eff η α) : Prop :=
  Sure I x fun r m => ∃ a, r = .ok a ∧ I m

namespace Stays

variable {I : Machine η → Prop}

theorem pure (a : α) : Stays I (Pure.pure a : Eff η α) := Sure.pure a fun _ h => ⟨a, rfl, h⟩

theorem get : Stays I (MonadState.get : Eff η (Machine η)) := fun m hm => ⟨_, _, rfl, m, rfl, hm⟩

theorem modify {f : Machine η → Machine η} (h : ∀ m, I m → I (f m)) :
    Stays I (modify f : Eff η Unit) :=
  Sure.modify f fun m hm => ⟨(), rfl, h m hm⟩

theorem bind {x : Eff η α} {f : α → Eff η β} (hx : Stays I x) (hf : ∀ a, Stays I (f a)) :
    Stays I (x >>= f) :=
  Sure.bind_ok hx hf

theorem bind_get {f : Machine η → Eff η β}
    (h : ∀ m, I m → Sure (· = m) (f m) fun r m' => ∃ a, r = .ok a ∧ I m') :
    Stays I (MonadState.get >>= f) :=
  Sure.bind_get h

theorem get_set_bind {g : Machine η → Machine η} {k : Machine η → PUnit → Eff η β}
    (h : ∀ m, I m → I (g m)) (hk : ∀ m u, Stays I (k m u)) :
    Stays I (MonadState.get >>= fun m => MonadState.set (g m) >>= k m) := by
  refine bind_get fun m hm m' e => ?_
  rw [e, Eff.exec_set_bind]
  exact hk m ⟨⟩ (g m) (h m hm)

theorem ite (c : Prop) [Decidable c] {x y : Eff η α} (hx : Stays I x) (hy : Stays I y) :
    Stays I (if c then x else y) :=
  Sure.ite c (fun _ => hx) fun _ => hy

theorem forIn_list {xs : List α} {b : β} {f : α → β → Eff η (ForInStep β)}
    (h : ∀ a b, Stays I (f a b)) : Stays I (forIn xs b f) := by
  induction xs generalizing b with
  | nil => exact pure b
  | cons a xs ih =>
    rw [List.forIn_cons]
    refine bind (h a b) fun s => ?_
    cases s with
    | done b => exact pure b
    | yield b => exact ih

theorem of_keeps {x : Eff η α} (hk : Keeps I x) (hs : Sure I x fun r _ => ∃ a, r = .ok a) :
    Stays I x := fun m hm => by
  obtain ⟨r, m', hrun, a, rfl⟩ := hs m hm
  exact ⟨_, m', hrun, a, rfl, hk m hm _ m' hrun⟩

theorem keeps {x : Eff η α} (h : Stays I x) : Keeps I x := fun m hm r m' hrun => by
  obtain ⟨r₁, m₁, hrun₁, _, _, hm₁⟩ := h m hm
  rw [hrun₁] at hrun
  cases hrun
  exact hm₁

end Stays

end Reactivity
