import Reactivity.Machine

/-!
# Triples over the engine's computations

`Triple P x Q`: run from a state satisfying `P`, the computation `x` ends, with a value or a
fault, in a state satisfying `Q` of its outcome. A halt stops the whole run and promises
nothing. `Keeps I x` is the triple whose pre- and postcondition are both `I`, the shape of
every invariant of the engine; `NoFault x` says that `x` never ends with a fault.

The rules follow the monad's combinators, so a triple of a function is proved along its code:
one rule for each bind, branch and loop.
-/

namespace Reactivity

variable {η α β : Type}

/-- Run from a state satisfying `P`, `x` ends in a state satisfying `Q` of its outcome. -/
def Triple (P : Machine η → Prop) (x : Eff η α) (Q : Except Fault α → Machine η → Prop) :
    Prop :=
  ∀ m, P m → ∀ r m', ExceptT.run x m = .ok (r, m') → Q r m'

/-- Run from a state satisfying `I`, `x` ends in one, with a value or a fault. -/
def Keeps (I : Machine η → Prop) (x : Eff η α) : Prop := Triple I x fun _ => I

/-- `x` never ends with a fault. -/
def NoFault (x : Eff η α) : Prop := Triple (fun _ => True) x fun r _ => ∃ a, r = .ok a

namespace Eff

theorem exec_bind (x : Eff η α) (f : α → Eff η β) (m : Machine η) :
    ExceptT.run (x >>= f) m = match ExceptT.run x m with
      | .error h => .error h
      | .ok (.error e, m') => .ok (.error e, m')
      | .ok (.ok a, m') => ExceptT.run (f a) m' := by
  show (ExceptT.bind x f).run m = _
  simp only [ExceptT.bind, ExceptT.run, ExceptT.mk, ExceptT.bindCont, bind, StateT.bind]
  rcases x m with _ | ⟨_ | a, m'⟩ <;> rfl

theorem exec_attempt (x : Eff η α) (m : Machine η) :
    ExceptT.run (attempt x) m = match ExceptT.run x m with
      | .error h => .error h
      | .ok (r, m') => .ok (.ok r, m') := by
  show (ExceptT.lift x.run).run m = _
  simp only [ExceptT.lift, ExceptT.run, ExceptT.mk, Functor.map, StateT.map]
  rcases x m with _ | ⟨r, m'⟩ <;> rfl

@[simp] theorem exec_pure (a : α) (m : Machine η) :
    ExceptT.run (Pure.pure a : Eff η α) m = .ok (.ok a, m) := rfl

@[simp] theorem exec_halt (e : Halt) (m : Machine η) :
    ExceptT.run (halt e : Eff η α) m = .error e := rfl

@[simp] theorem exec_get_bind (f : Machine η → Eff η β) (m : Machine η) :
    ExceptT.run (MonadState.get >>= f) m = ExceptT.run (f m) m := by
  rw [exec_bind]; rfl

@[simp] theorem exec_set_bind (s : Machine η) (f : PUnit → Eff η β) (m : Machine η) :
    ExceptT.run (MonadState.set s >>= f) m = ExceptT.run (f ⟨⟩) s := by
  rw [exec_bind]; rfl

@[simp] theorem exec_setOf_bind (s : Machine η) (f : PUnit → Eff η β) (m : Machine η) :
    ExceptT.run (MonadStateOf.set s >>= f) m = ExceptT.run (f ⟨⟩) s := by
  rw [exec_bind]; rfl

@[simp] theorem exec_modify_bind (g : Machine η → Machine η) (f : PUnit → Eff η β)
    (m : Machine η) : ExceptT.run (modify g >>= f) m = ExceptT.run (f ⟨⟩) (g m) := by
  rw [exec_bind]; rfl

/-- A run on a concrete state, checked by evaluating it: it returns, and its end state has
`P`. Elaboration cannot unfold a long run, the kernel can. -/
theorem ok_of_check {x : Eff η α} {m : Machine η} (P : α → Machine η → Prop)
    [∀ a m', Decidable (P a m')]
    (h : (match ExceptT.run x m with
      | .ok (.ok a, m') => decide (P a m')
      | _ => false) = true) :
    ∃ a m', ExceptT.run x m = .ok (.ok a, m') ∧ P a m' := by
  split at h
  · exact ⟨_, _, ‹_›, of_decide_eq_true h⟩
  · cases h

end Eff

namespace Triple

variable {P P' : Machine η → Prop} {Q Q' : Except Fault α → Machine η → Prop}

theorem pure (a : α) (h : ∀ m, P m → Q (.ok a) m) : Triple P (Pure.pure a : Eff η α) Q := by
  intro m hm r m' hr; cases hr; exact h m hm

theorem get {Q : Except Fault (Machine η) → Machine η → Prop} (h : ∀ m, P m → Q (.ok m) m) :
    Triple P (MonadState.get : Eff η (Machine η)) Q := by
  intro m hm r m' hr; cases hr; exact h m hm

theorem set {Q : Except Fault Unit → Machine η → Prop} (m₀ : Machine η)
    (h : ∀ m, P m → Q (.ok ()) m₀) : Triple P (MonadState.set m₀ : Eff η Unit) Q := by
  intro m hm r m' hr; cases hr; exact h m hm

theorem modify {Q : Except Fault Unit → Machine η → Prop} (f : Machine η → Machine η)
    (h : ∀ m, P m → Q (.ok ()) (f m)) : Triple P (modify f : Eff η Unit) Q := by
  intro m hm r m' hr; cases hr; exact h m hm

theorem fault (e : Fault) (h : ∀ m, P m → Q (.error e) m) : Triple P (Eff.fault e) Q := by
  intro m hm r m' hr; cases hr; exact h m hm

theorem halt (e : Halt) : Triple P (Eff.halt e : Eff η α) Q := by
  intro m _ r m' hr; cases hr

theorem bind {R : Except Fault α → Machine η → Prop} {Q : Except Fault β → Machine η → Prop}
    {x : Eff η α} {f : α → Eff η β} (hx : Triple P x R) (hf : ∀ a, Triple (R (.ok a)) (f a) Q)
    (he : ∀ e m, R (.error e) m → Q (.error e) m) : Triple P (x >>= f) Q := by
  intro m hm r m' hr
  rw [Eff.exec_bind] at hr
  rcases hrun : ExceptT.run x m with _ | ⟨_ | a, m₁⟩ <;> rw [hrun] at hr
  · cases hr
  · cases hr; exact he _ _ (hx m hm _ _ hrun)
  · exact hf a m₁ (hx m hm _ _ hrun) r m' hr

theorem bind_get {Q : Except Fault β → Machine η → Prop} {f : Machine η → Eff η β}
    (h : ∀ m, P m → Triple (· = m) (f m) Q) : Triple P (MonadState.get >>= f) Q := by
  intro m hm r m' hr
  rw [Eff.exec_bind] at hr
  exact h m hm m rfl r m' hr

theorem attempt {x : Eff η α} {Q : Except Fault (Except Fault α) → Machine η → Prop}
    (hx : Triple P x fun r => Q (.ok r)) : Triple P (Eff.attempt x) Q := by
  intro m hm r m' hr
  rw [Eff.exec_attempt] at hr
  rcases hrun : ExceptT.run x m with _ | ⟨r₁, m₁⟩ <;> rw [hrun] at hr
  · cases hr
  · cases hr; exact hx m hm _ _ hrun

theorem of_run {x : Eff η α} (h : Triple P x Q) {m m' : Machine η} {r : Except Fault α}
    (hr : ExceptT.run x m = .ok (r, m')) (hm : P m) : Q r m' :=
  h m hm r m' hr

theorem conseq {x : Eff η α} (h : Triple P x Q) (hp : ∀ m, P' m → P m)
    (hq : ∀ r m, Q r m → Q' r m) : Triple P' x Q' :=
  fun m hm r m' hr => hq r m' (h m (hp m hm) r m' hr)

theorem and {x : Eff η α} (h : Triple P x Q) (h' : Triple P x Q') :
    Triple P x fun r m => Q r m ∧ Q' r m :=
  fun m hm r m' hr => ⟨h m hm r m' hr, h' m hm r m' hr⟩

theorem ite (c : Prop) [Decidable c] {x y : Eff η α} (hx : c → Triple P x Q)
    (hy : ¬c → Triple P y Q) : Triple P (if c then x else y) Q := by
  by_cases hc : c
  · simpa only [if_pos hc] using hx hc
  · simpa only [if_neg hc] using hy hc

end Triple

/-! ## Invariants -/

namespace Keeps

variable {I : Machine η → Prop}

theorem pure (a : α) : Keeps I (Pure.pure a : Eff η α) := Triple.pure a fun _ h => h

theorem get : Keeps I (MonadState.get : Eff η (Machine η)) := Triple.get fun _ h => h

theorem modify {f : Machine η → Machine η} (h : ∀ m, I m → I (f m)) :
    Keeps I (modify f : Eff η Unit) :=
  Triple.modify f h

theorem fault (e : Fault) : Keeps I (Eff.fault e : Eff η α) := Triple.fault e fun _ h => h

theorem halt (e : Halt) : Keeps I (Eff.halt e : Eff η α) := Triple.halt e

theorem bind {x : Eff η α} {f : α → Eff η β} (hx : Keeps I x) (hf : ∀ a, Keeps I (f a)) :
    Keeps I (x >>= f) :=
  Triple.bind hx hf fun _ _ h => h

theorem bind_get {f : Machine η → Eff η β} (h : ∀ m, I m → Triple (· = m) (f m) fun _ => I) :
    Keeps I (MonadState.get >>= f) :=
  Triple.bind_get h

theorem triple {x : Eff η α} (hx : Keeps I x) {m : Machine η} (hm : I m) :
    Triple (· = m) x fun _ => I :=
  Triple.conseq hx (fun _ h => h ▸ hm) fun _ _ h => h

theorem attempt {x : Eff η α} (hx : Keeps I x) : Keeps I (Eff.attempt x) := Triple.attempt hx

theorem ite (c : Prop) [Decidable c] {x y : Eff η α} (hx : Keeps I x) (hy : Keeps I y) :
    Keeps I (if c then x else y) :=
  Triple.ite c (fun _ => hx) fun _ => hy

theorem forIn_list {xs : List α} {b : β} {f : α → β → Eff η (ForInStep β)}
    (h : ∀ a b, Keeps I (f a b)) : Keeps I (forIn xs b f) := by
  induction xs generalizing b with
  | nil => exact pure b
  | cons a xs ih =>
    rw [List.forIn_cons]
    refine bind (h a b) fun s => ?_
    cases s with
    | done b => exact pure b
    | yield b => exact ih

theorem forIn_array {xs : Array α} {b : β} {f : α → β → Eff η (ForInStep β)}
    (h : ∀ a b, Keeps I (f a b)) : Keeps I (forIn xs b f) := by
  rw [← Array.forIn_toList]; exact forIn_list h

theorem forIn_range {r : Std.Legacy.Range} {b : β} {f : Nat → β → Eff η (ForInStep β)}
    (h : ∀ a b, Keeps I (f a b)) : Keeps I (forIn r b f) := by
  rw [Std.Legacy.Range.forIn_eq_forIn_range']; exact forIn_list h

theorem forM_list {xs : List α} {f : α → Eff η PUnit} (h : ∀ a, Keeps I (f a)) :
    Keeps I (xs.forM f) := by
  induction xs with
  | nil => exact pure _
  | cons a xs ih => exact bind (h a) fun _ => ih

theorem foldlM_list {xs : List α} {b : β} {f : β → α → Eff η β} (h : ∀ b a, Keeps I (f b a)) :
    Keeps I (xs.foldlM f b) := by
  induction xs generalizing b with
  | nil => exact pure b
  | cons a xs ih => rw [List.foldlM_cons]; exact bind (h b a) fun _ => ih

theorem mapM_list {xs : List α} {f : α → Eff η β} (h : ∀ a, Keeps I (f a)) :
    Keeps I (xs.mapM f) := by
  induction xs with
  | nil => exact pure _
  | cons a xs ih =>
    rw [List.mapM_cons]
    exact bind (h a) fun _ => bind ih fun _ => pure _

end Keeps

/-! ## Faults -/

namespace NoFault

theorem pure (a : α) : NoFault (Pure.pure a : Eff η α) := Triple.pure a fun _ _ => ⟨a, rfl⟩

theorem get : NoFault (MonadState.get : Eff η (Machine η)) := Triple.get fun m _ => ⟨m, rfl⟩

theorem modify (f : Machine η → Machine η) : NoFault (modify f : Eff η Unit) :=
  Triple.modify f fun _ _ => ⟨(), rfl⟩

theorem halt (e : Halt) : NoFault (Eff.halt e : Eff η α) := Triple.halt e

theorem attempt (x : Eff η α) : NoFault (Eff.attempt x) :=
  Triple.attempt fun _ _ r _ _ => ⟨r, rfl⟩

theorem bind {x : Eff η α} {f : α → Eff η β} (hx : NoFault x) (hf : ∀ a, NoFault (f a)) :
    NoFault (x >>= f) :=
  Triple.bind (hx : Triple _ x fun r _ => ∃ a, r = .ok a) (fun a => Triple.conseq (hf a)
    (fun _ _ => ⟨⟩) fun _ _ h => h) fun _ _ ⟨_, h⟩ => nomatch h

theorem ite (c : Prop) [Decidable c] {x y : Eff η α} (hx : NoFault x) (hy : NoFault y) :
    NoFault (if c then x else y) :=
  Triple.ite c (fun _ => hx) fun _ => hy

theorem forIn_list {xs : List α} {b : β} {f : α → β → Eff η (ForInStep β)}
    (h : ∀ a b, NoFault (f a b)) : NoFault (forIn xs b f) := by
  induction xs generalizing b with
  | nil => exact pure b
  | cons a xs ih =>
    rw [List.forIn_cons]
    refine bind (h a b) fun s => ?_
    cases s with
    | done b => exact pure b
    | yield b => exact ih

theorem forIn_array {xs : Array α} {b : β} {f : α → β → Eff η (ForInStep β)}
    (h : ∀ a b, NoFault (f a b)) : NoFault (forIn xs b f) := by
  rw [← Array.forIn_toList]; exact forIn_list h

theorem forIn_range {r : Std.Legacy.Range} {b : β} {f : Nat → β → Eff η (ForInStep β)}
    (h : ∀ a b, NoFault (f a b)) : NoFault (forIn r b f) := by
  rw [Std.Legacy.Range.forIn_eq_forIn_range']; exact forIn_list h

theorem forM_list {xs : List α} {f : α → Eff η PUnit} (h : ∀ a, NoFault (f a)) :
    NoFault (xs.forM f) := by
  induction xs with
  | nil => exact pure _
  | cons a xs ih => exact bind (h a) fun _ => ih

end NoFault

/-! ## Computations that end with a value -/

namespace Triple

variable {P : Machine η → Prop} {Q : Except Fault β → Machine η → Prop}

theorem bind_ok {R : α → Machine η → Prop} {x : Eff η α} {f : α → Eff η β}
    (hx : Triple P x fun r m => ∃ a, r = .ok a ∧ R a m) (hf : ∀ a, Triple (R a) (f a) Q) :
    Triple P (x >>= f) Q := by
  refine Triple.bind hx (fun a m ⟨a', ha, hm⟩ => ?_) fun _ _ ⟨_, h, _⟩ => nomatch h
  cases ha
  exact hf a m hm

theorem of_keeps {I : Machine η → Prop} {x : Eff η α} (hk : Keeps I x) (hn : NoFault x) :
    Triple I x fun r m => ∃ a, r = .ok a ∧ I m := fun m hm r m' hr => by
  obtain ⟨a, rfl⟩ := hn m trivial r m' hr
  exact ⟨a, rfl, hk m hm _ m' hr⟩

theorem bind_of_keeps {I : Machine η → Prop} {x : Eff η α} {f : α → Eff η β} (hk : Keeps I x)
    (hn : NoFault x) (hf : ∀ a, Triple I (f a) Q) : Triple I (x >>= f) Q :=
  bind_ok (of_keeps hk hn) hf

theorem forIn_list {xs : List α} {b : β} {f : α → β → Eff η (ForInStep β)}
    (J : β → Machine η → Prop)
    (h : ∀ a b, Triple (J b) (f a b) fun r m => ∃ s, r = .ok s ∧ J s.value m) :
    Triple (J b) (forIn xs b f) fun r m => ∃ b', r = .ok b' ∧ J b' m := by
  induction xs generalizing b with
  | nil => exact Triple.pure b fun _ hm => ⟨b, rfl, hm⟩
  | cons a xs ih =>
    rw [List.forIn_cons]
    refine bind_ok (h a b) fun s => ?_
    cases s with
    | done b' => exact Triple.pure b' fun _ hm => ⟨b', rfl, hm⟩
    | yield b' => exact ih

theorem forIn_range {r : Std.Legacy.Range} {b : β} {f : Nat → β → Eff η (ForInStep β)}
    (J : β → Machine η → Prop)
    (h : ∀ a b, Triple (J b) (f a b) fun r m => ∃ s, r = .ok s ∧ J s.value m) :
    Triple (J b) (forIn r b f) fun r m => ∃ b', r = .ok b' ∧ J b' m := by
  rw [Std.Legacy.Range.forIn_eq_forIn_range']; exact forIn_list J h

end Triple

end Reactivity
