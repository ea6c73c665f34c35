import Reactivity.Proofs.Dismantling
import Reactivity.Proofs.RenderLifecycle

/-!
# The destroy cascade

A destroy of a scope, from a state where the lists of children name scopes, subscriptions agree
with reads and no watcher of a scope it ends is being evaluated, returns, and leaves every scope
it reaches through scopes not being destroyed ended and each of their active watchers stopped
(`Eff.destroyWith_cascade`, by induction on the fuel). A scope leaves its parent's list only
when the parent is not being destroyed: one made under a destroyed parent stays listed once
destroyed itself (`destroyed_parent_keeps_child`).
-/

namespace Reactivity

variable {η : Type}

namespace Eff

theorem released_quiet (m : Machine η) :
    Stays (fun s => m.Quiet s ∧ s.Subscribed) (released : Eff η Unit) := by
  refine Stays.bind (Stays.modify fun s h => ⟨h.1.trans (.of_tables rfl rfl rfl),
    h.2.of_tables rfl rfl⟩) fun _ => Stays.modify fun s h => ?_
  split
  · exact ⟨(h.1.trans (.collect s)).trans (.of_tables rfl rfl rfl),
      h.2.collect.of_tables rfl rfl⟩
  · exact h

theorem teardown_quiet (w : WatcherId) (m : Machine η) (hm : m.Subscribed)
    (hidle : (m.watcher w).newDeps = []) :
    Sure (· = m) (teardown w) fun r m' => r = .ok () ∧ m.Quiet m' ∧
      ((m.watcher w).active = true → m'.Stopped w) ∧ m'.Subscribed := by
  -- past its scope, a teardown ends in `tornDown`
  have hrest : ∀ s : Machine η, s.Subscribed → (s.watcher w).newDeps = [] →
      Sure (· = s) (do
        for d in ((← MonadState.get).watcher w).deps do removeSub d w
        modifyWatcher w fun c => { c with deps := [], active := false } : Eff η Unit)
        fun r m' => r = .ok () ∧ s.Quiet m' ∧ m'.Stopped w ∧ m'.Subscribed := by
    intro s hs hidle _ e
    rw [e]
    obtain ⟨hq, hstop⟩ := Machine.Quiet.tornDown hs hidle
    exact ⟨_, _, teardown_rest_run w s, rfl, hq, hstop,
      teardown_rest_subscribed w s hs _ _ (teardown_rest_run w s)⟩
  unfold Eff.teardown
  refine Sure.bind_get fun _ e => ?_
  rw [e]
  refine Sure.ite _ (fun h => Sure.pure_at () ⟨rfl, .refl m,
    fun ha => absurd ha (by simpa using h), hm⟩) fun _ => ?_
  extract_lets jp
  have hdone : Sure (· = m) (jp ()) fun r m' => r = .ok () ∧ m.Quiet m' ∧
      ((m.watcher w).active = true → m'.Stopped w) ∧ m'.Subscribed :=
    Sure.conseq (hrest m hm hidle) (fun _ e => e) fun _ _ h =>
      ⟨h.1, h.2.1, fun _ => h.2.2.1, h.2.2.2⟩
  split
  · rename_i s _
    refine Sure.ite _ (fun hs => ?_) fun _ => hdone
    have hs : (m.scope s).beingDestroyed = false := by simpa using hs
    unfold Eff.unregister Eff.modifyScope
    rw [bind_assoc]
    refine Sure.modify_bind (Sure.intro fun m₁ e => ?_)
    refine Sure.bind_ok (R := fun _ m₂ => m₁.Quiet m₂ ∧ m₂.Subscribed)
      (Sure.conseq (released_quiet m₁) (fun _ e' => ?_) fun _ _ h => h) fun _ => ?_
    · rw [e', e]
      exact ⟨.refl _, hm.of_tables rfl rfl⟩
    · refine Sure.intro fun m₂ h₂ => Sure.conseq (hrest m₂ h₂.2 ?_) (fun _ e => e) fun _ _ h => ?_
      · rw [h₂.1.newDeps, e]
        exact hidle
      · rw [e] at h₂
        exact ⟨h.1, Machine.Quiet.unlisting hs (h₂.1.trans h.2.1) h.2.2.1, fun _ => h.2.2.1,
          h.2.2.2⟩
  · exact hdone

theorem destroy_finish (t : ScopeId) (ws : List WatcherId) (s : Machine η)
    (ht : t.idx < s.scopes.size) (hbt : (s.scope t).beingDestroyed = true)
    (hw : (s.scope t).watchers = []) (hsub : s.Subscribed)
    (hidle : ∀ w ∈ ws, (s.watcher w).newDeps = []) :
    Sure (· = s) (do
      for w in ws do teardown w
      modifyScope t fun c => { c with render := none, computed := [] }
      let data := ((← MonadState.get).scope t).data
      modifyObject data fun c => { c with observer := c.observer.map fun ob =>
        { ob with rootCount := ob.rootCount - 1 } }
      modifyScope t fun c => { c with destroyed := true } : Eff η Unit)
      fun r m' => r = .ok () ∧ s.Quiet m' ∧ (m'.scope t).Ended ∧
        (∀ w ∈ ws, (s.watcher w).active = true → m'.Stopped w) ∧ m'.Subscribed := by
  -- the loop keeps the steps quiet and stops each watcher torn down that was active
  refine Sure.bind_ok (Sure.conseq (Sure.forIn_list (fun pre _ x => s.Quiet x ∧
      (∀ w ∈ pre, (s.watcher w).active = true → x.Stopped w) ∧ x.Subscribed)
      fun pre w post _ hxs => ?_)
    (fun _ e => by rw [e]; exact ⟨.refl s, fun _ h => absurd h List.not_mem_nil, hsub⟩)
    fun _ _ h => h) fun _ => ?_
  · refine Sure.intro fun x hx => Sure.bind_ok (R := fun _ x' => x.Quiet x' ∧
        ((x.watcher w).active = true → x'.Stopped w) ∧ x'.Subscribed)
      (Sure.conseq (teardown_quiet w x hx.2.2 ?_) (fun _ e => e) fun _ _ h => ⟨(), h.1, h.2⟩)
      fun _ => ?_
    · rw [hx.1.newDeps]
      exact hidle w (by rw [hxs]; simp)
    refine Sure.intro fun x' hx' => Sure.pure_at _ ⟨_, rfl, hx.1.trans hx'.1,
      fun w' hw' ha => ?_, hx'.2.2⟩
    rcases List.mem_append.1 hw' with hw' | hw'
    · exact hx'.1.stopped w' (hx.2.1 w' hw' ha)
    · rw [List.mem_singleton.1 hw']
      rcases hx.1.active w (List.mem_singleton.1 hw' ▸ ha) with ha | ha
      · exact hx'.2.1 ha
      · exact hx'.1.stopped w ha
  · refine Sure.intro fun x hx => ?_
    have hbx : (x.scope t).beingDestroyed = true := hx.1.marked t hbt
    have hwx : (x.scope t).watchers = [] := by rw [hx.1.held t hbt, hw]
    have hsx : t.idx < x.scopes.size := by rw [hx.1.size]; exact ht
    refine Sure.modify_bind (Sure.bind_get fun x₂ e₂ => ?_)
    refine Sure.modify_bind (Sure.modify _ fun x₃ e₃ => ?_)
    have hq₂ : x.Quiet x₂ := by
      rw [e₂]
      exact .modifyScope hbx (fun _ => rfl) (fun _ hc => ⟨hc.1, hc.2.1, hc.2.2.1, rfl, rfl⟩)
        (fun _ => List.Subset.refl _) fun _ => rfl
    have hq₃ : x₂.Quiet x₃ := by
      rw [e₃]
      exact .of_tables rfl rfl rfl
    have hq₄ := Machine.Quiet.modifyScope ((hq₂.trans hq₃).marked t hbx)
      (f := fun c => { c with destroyed := true })
      (fun _ => rfl) (fun _ hc => ⟨hc.1, rfl, hc.2.2⟩) (fun _ => List.Subset.refl _) fun _ => rfl
    have hsub₃ : x₃.Subscribed := by
      rw [e₃, e₂]
      exact hx.2.2.of_tables rfl rfl
    refine ⟨rfl, ((hx.1.trans hq₂).trans hq₃).trans hq₄, ?_,
      fun w hw' ha => hq₄.stopped w (hq₃.stopped w (hq₂.stopped w (hx.2.1 w hw' ha))),
      hsub₃.of_tables rfl rfl⟩
    rw [Machine.scope_modify, if_pos ⟨rfl, by rw [hq₃.size, hq₂.size]; exact hsx⟩, e₃]
    show ScopeCell.Ended { x₂.scope t with destroyed := true }
    rw [e₂, Machine.scope_modify, if_pos ⟨rfl, hsx⟩]
    exact ⟨hbx, rfl, hwx, rfl, rfl⟩

/-- A destroy of `t` from a state where its scopes list children in range, subscriptions agree
with reads and no evaluation is under way for a watcher of a scope it ends, marks `t` and leaves
a cascade behind; if `t` was not being destroyed, it is off the list of its parent, unless that
parent was being destroyed. Enough fuel is one more than the scopes not being destroyed. The
induction is on the fuel: each child is destroyed with one less, after `t` is marked. -/
theorem destroyWith_cascade : ∀ fuel t (m : Machine η), t.idx < m.scopes.size →
    m.ChildrenInRange → m.Subscribed → m.unmarked < fuel →
    (∀ u, m.Ends t u → ∀ w ∈ (m.scope u).watchers, (m.watcher w).newDeps = []) →
    Sure (· = m) (destroyWith fuel t) fun r m' =>
      r = .ok () ∧ m.Cascade m' ∧ (m'.scope t).beingDestroyed = true ∧ m'.Subscribed ∧
        ((m.scope t).beingDestroyed = false → ∀ p, m.parentOf t = some p →
          (m.scope p).beingDestroyed = false → t ∉ (m'.scope p).children) := by
  intro fuel
  induction fuel with
  | zero => intro t m _ _ _ h; exact absurd h (Nat.not_lt_zero _)
  | succ fuel ih =>
    intro t m₁ ht hch hsub hfuel hidle
    unfold Eff.destroyWith
    refine Sure.bind_get fun m e => ?_
    rw [e]
    refine Sure.ite _ (fun hb => Sure.pure_at () ⟨rfl, .refl m₁, hb, hsub,
      fun h => absurd hb (by rw [h]; decide)⟩) fun hb => ?_
    have hb : (m₁.scope t).beingDestroyed = false := by simpa using hb
    -- from the mark on, `t` keeps the children it had until it is orphaned, and is off the
    -- list of a parent not being destroyed from the unlisting on
    let Body := fun s : Machine η =>
      m₁.Marking t s ∧ (s.scope t).children = (m₁.scope t).children ∧
        ∀ p, m₁.parentOf t = some p → (m₁.scope p).beingDestroyed = false → p ≠ t →
          t ∉ (s.scope p).children
    refine Sure.modify_bind (Sure.bind_get fun m₂ e₂ => ?_)
    have hm₂ : m₁.Marking t m₂ := e₂ ▸ .mark ht hb
    have hown : (m₂.scope t).children = (m₁.scope t).children := by
      rw [e₂, Machine.scope_modify, if_pos ⟨rfl, ht⟩]
    have hpar : m₂.parentOf t = m₁.parentOf t := by
      rw [e₂]
      exact Machine.parentOf_mark m₁ t t
    extract_lets rest
    have hrest : ∀ u, Sure Body (rest u) fun r m' =>
        r = .ok () ∧ m₁.Cascade m' ∧ (m'.scope t).beingDestroyed = true ∧ m'.Subscribed ∧
          ((m₁.scope t).beingDestroyed = false → ∀ p, m₁.parentOf t = some p →
            (m₁.scope p).beingDestroyed = false → t ∉ (m'.scope p).children) := by
      intro u
      dsimp -zeta only [rest]
      refine Sure.bind_get fun m₃ hm₃ => Sure.modify_bind (Sure.intro fun s e => ?_)
      have hs : m₁.Marking t s := e ▸ hm₃.1.orphan
      have hsz₀ : t.idx < m₃.scopes.size := by rw [hm₃.1.dismantles.size]; exact ht
      have horph : (s.scope t).children = [] := by
        rw [e, Machine.scope_modify, if_pos ⟨rfl, hsz₀⟩]
      have hoff : ∀ p, m₁.parentOf t = some p → (m₁.scope p).beingDestroyed = false →
          t ∉ (s.scope p).children := fun p hp hpb => by
        by_cases hpt : p = t
        · rw [hpt, horph]
          exact List.not_mem_nil
        · rw [e, Machine.scope_modify, if_neg fun e' => hpt e'.1]
          exact hm₃.2.2 p hp hpb hpt
      have hfew : s.unmarked < m₁.unmarked := hs.dismantles.unmarked_lt ht hb hs.marked
      have hsubs : s.Subscribed := hsub.of_tables hs.tables.1 hs.tables.2
      -- the destroys of the children: each leaves a cascade from `s` and marks its child
      refine Sure.bind_ok (Sure.conseq (Sure.forIn_list (fun pre _ x => s.Cascade x ∧
          (∀ b ∈ pre, (x.scope b).beingDestroyed = true) ∧ x.Subscribed)
          fun pre c post _ hxs => ?_)
        (fun _ e => by rw [e]; exact ⟨.refl s, fun _ h => absurd h List.not_mem_nil, hsubs⟩)
        fun _ _ h => h) fun _ => ?_
      · have hc : c ∈ (m₁.scope t).children := by rw [← hm₃.2.1, hxs]; simp
        refine Sure.intro fun x hx => ?_
        have hd : m₁.Dismantles x := hs.dismantles.trans hx.1.toDismantles
        refine Sure.bind_ok (R := fun _ x' => x.Cascade x' ∧
            (x'.scope c).beingDestroyed = true ∧ x'.Subscribed)
          (Sure.conseq (ih c x (hd.size ▸ hch t c hc) (hd.childrenInRange hch) hx.2.2
            (by have := hd.unmarked_le; have := hx.1.unmarked_le; omega)
            fun u hu w hw => ?_) (fun _ e => e)
            fun _ _ h => ⟨(), h.1, h.2.1, h.2.2.1, h.2.2.2.1⟩) fun _ => ?_
        · rw [hd.newDeps]
          exact hidle u (hd.ends hb hc hu) w (hd.watchers u hu.2 hw)
        · refine Sure.intro fun x' hx' => Sure.pure_at _ ⟨_, rfl, hx.1.trans hx'.1,
            fun b hb' => ?_, hx'.2.2⟩
          rcases List.mem_append.1 hb' with hb' | hb'
          · exact hx'.1.marked b (hx.2.1 b hb')
          · rw [List.mem_singleton.1 hb']
            exact hx'.2.1
      · -- the watchers of `t` are taken off it and torn down, and `t` ends
        refine Sure.intro fun s₁ hs₁ => Sure.bind_get fun _ e₁ => ?_
        rw [e₁]
        have hbt : (s₁.scope t).beingDestroyed = true := hs₁.1.marked t hs.marked
        have hws : (s₁.scope t).watchers = (m₁.scope t).watchers := by
          rw [hs₁.1.held t hs.marked, hs.watchers t]
        have hsz : t.idx < s₁.scopes.size := by rw [hs₁.1.size, hs.dismantles.size]; exact ht
        refine Sure.modify_bind (Sure.conseq (destroy_finish t (s₁.scope t).watchers
            { s₁ with scopes := s₁.scopes.modify t.idx fun c => { c with watchers := [] } }
            (by rw [Array.size_modify]; exact hsz)
            (by rw [Machine.scope_modify, if_pos ⟨rfl, hsz⟩]; exact hbt)
            (by rw [Machine.scope_modify, if_pos ⟨rfl, hsz⟩]) (hs₁.2.2.of_tables rfl rfl)
            fun w hw => ?_) (fun _ e => e) fun _ m' h => ⟨h.1, ?_, h.2.2.1.1, h.2.2.2.2,
              fun _ p hp hpb ht' => ?_⟩)
        · have hd : m₁.Dismantles s₁ := hs.dismantles.trans hs₁.1.toDismantles
          rw [hws] at hw
          show (s₁.watcher w).newDeps = []
          rw [hd.newDeps]
          exact hidle t ⟨.refl, hb⟩ w hw
        · exact Machine.Cascade.of_steps hb hs hs₁.1 (fun b hb' => hs₁.2.1 b (hm₃.2.1 ▸ hb'))
            h.2.1 h.2.2.1 h.2.2.2.1
        · -- the lists of children only shrink from `s` on
          have h₅ := h.2.1.children p ht'
          rw [Machine.scope_modify] at h₅
          refine hoff p hp hpb (hs₁.1.children p ?_)
          split at h₅
          · exact h₅
          · exact h₅
    split
    · rename_i p hp
      refine Sure.bind_get fun _ e => ?_
      rw [e]
      refine Sure.ite _ (fun hpb => Sure.modify_bind (Sure.conseq (hrest ()) (fun _ e => e ▸ ?_)
        fun _ _ h => h)) fun hpb => Sure.conseq (hrest ()) (fun _ e => e ▸ ?_) fun _ _ h => h
      · have hpb : (m₂.scope p).beingDestroyed = false := by simpa using hpb
        have hpt : p ≠ t := fun e => absurd hm₂.marked (by rw [← e, hpb]; decide)
        refine ⟨hm₂.unlist hpb, ?_, fun p' hp' _ _ => ?_⟩
        · rw [Machine.scope_modify, if_neg fun e => hpt e.1.symm]
          exact hown
        · rw [← hpar, hp] at hp'
          cases hp'
          rw [Machine.scope_modify]
          split
          · exact fun h => by simp at h
          · rename_i hne
            have hlt : ¬ p.idx < m₂.scopes.size := fun h => hne ⟨rfl, h⟩
            unfold Machine.scope
            rw [Array.getElem?_eq_none (Nat.le_of_not_lt hlt)]
            exact List.not_mem_nil
      · refine ⟨hm₂, hown, fun p' hp' hpb' hpt => ?_⟩
        rw [← hpar, hp] at hp'
        cases hp'
        rw [hm₂.others p hpt, hpb'] at hpb
        exact absurd hpb (by decide)
    · rename_i hnone
      refine Sure.conseq (hrest ()) (fun _ e => e ▸ ⟨hm₂, hown, fun p hp => ?_⟩) fun _ _ h => h
      rw [← hpar] at hp
      exact absurd hp (hnone p)

theorem destroy_cascade (t : ScopeId) (m : Machine η) (ht : t.idx < m.scopes.size)
    (hch : m.ChildrenInRange) (hsub : m.Subscribed)
    (hidle : ∀ u, m.Ends t u → ∀ w ∈ (m.scope u).watchers, (m.watcher w).newDeps = []) :
    Sure (· = m) (destroy t) fun r m' =>
      r = .ok () ∧ m.Cascade m' ∧ (m'.scope t).beingDestroyed = true ∧ m'.Subscribed ∧
        ((m.scope t).beingDestroyed = false → ∀ p, m.parentOf t = some p →
          (m.scope p).beingDestroyed = false → t ∉ (m'.scope p).children) := by
  unfold Eff.destroy
  refine Sure.bind_get fun _ e => ?_
  rw [e]
  have hle : m.unmarked ≤ m.scopes.size :=
    (List.countP_le_length).trans (List.length_range ..).le
  refine Sure.bind_ok (R := fun _ m₁ => m.Cascade m₁ ∧ (m₁.scope t).beingDestroyed = true ∧
      m₁.Subscribed ∧ ((m.scope t).beingDestroyed = false → ∀ p, m.parentOf t = some p →
        (m.scope p).beingDestroyed = false → t ∉ (m₁.scope p).children))
    (Sure.conseq (destroyWith_cascade _ t m ht hch hsub (by omega) hidle) (fun _ e => e)
      fun _ _ h => ⟨(), h.1, h.2⟩) fun _ => ?_
  refine Sure.intro fun m₁ h₁ => Sure.conseq (released_quiet m₁)
    (fun _ e => by rw [e]; exact ⟨.refl _, h₁.2.2.1⟩) fun _ m' h => ?_
  obtain ⟨_, rfl, hq, hs⟩ := h
  exact ⟨rfl, h₁.1.trans (.of_quiet hq), hq.marked t h₁.2.1, hs,
    fun hb p hp hpb hin => h₁.2.2.2 hb p hp hpb (hq.children p hin)⟩

theorem destroyWith_marked (fuel : Nat) {t : ScopeId} {m : Machine η}
    (hb : (m.scope t).beingDestroyed = true) :
    ExceptT.run (destroyWith (fuel + 1) t) m = .ok (.ok (), m) := by
  simp only [Eff.destroyWith, exec_get_bind, hb, if_true]
  rfl

theorem destroy_marked {t : ScopeId} {m : Machine η} (hb : (m.scope t).beingDestroyed = true) :
    ExceptT.run (destroy t) m = ExceptT.run released m := by
  unfold Eff.destroy
  rw [exec_get_bind, exec_bind, destroyWith_marked _ hb]

end Eff

/-- What a destroy of `t` that took `m` to `m'` guarantees: it left `Destroyed` behind, and a
second destroy of `t` only releases; from then on no step of a script makes a watcher active
again, and running an inactive watcher does nothing; and a destroyed scope runs no before-update
or updated hooks. -/
structure DestroyCascade (m : Machine Registry) (t : ScopeId) (m' : Machine Registry) : Prop where
  destroyed : m.Destroyed t m'
  again : ExceptT.run (Eff.destroy t) m' = ExceptT.run Eff.released m'
  later : ∀ w fuel e, Keeps (Inactive w) (Script.eval fuel e)
  silent : ∀ (r : Runner Registry) w (m'' : Machine Registry), Inactive w m'' →
    ExceptT.run (Eff.run r w) m'' = .ok (.ok (), m'')
  beforeUpdate : ∀ (r : Runner Registry) w s (m'' : Machine Registry),
    (m''.watcher w).before = some (.renderOf s) → (m''.scope s).destroyed = true →
    ExceptT.run (Eff.before r w) m'' = .ok (.ok (), m'')
  updated : ∀ (r : Runner Registry) w s (m'' : Machine Registry), m''.scopeOf w = some s →
    (m''.scope s).destroyed = true → ExceptT.run (Eff.afterRender r w) m'' = .ok (.ok (), m'')

/-- The destroy cascade: from a state where the lists of children name scopes, subscriptions
agree with reads, and no watcher of a scope the destroy ends is being evaluated, a destroy
returns, with all that `DestroyCascade` says. -/
theorem destroy_cascade_laws (m : Machine Registry) (t : ScopeId) (ht : t.idx < m.scopes.size)
    (hch : m.ChildrenInRange) (hsub : m.Subscribed)
    (hidle : ∀ u, m.Ends t u → ∀ w ∈ (m.scope u).watchers, (m.watcher w).newDeps = []) :
    ∃ m', ExceptT.run (Eff.destroy t) m = .ok (.ok (), m') ∧ DestroyCascade m t m' := by
  obtain ⟨r, m', hrun, rfl, hc, hb, -, hun⟩ := Eff.destroy_cascade t m ht hch hsub hidle m rfl
  refine ⟨m', hrun, hc.destroyed hb hun, Eff.destroy_marked hb,
    fun w => Script.eval_keeps (Inactive.onTables w) (Inactive.stable w),
    fun r _ _ h => Eff.run_inactive r h.1, fun r _ _ _ hw hd => ?_, fun r _ _ _ hs hd => ?_⟩
  · rw [Eff.before_renderOf_run r hw, if_neg fun h => absurd h.2.2 (by rw [hd]; decide)]
  · rw [Eff.afterRender_run r hs, if_neg fun h => absurd h.2.2 (by rw [hd]; decide)]

/-- A scope `0` with one child `1`, which has one active watcher `0` that has read nothing. -/
def parentOfWatchedChild : Machine Registry :=
  { host := {}
    scopes := #[{ name := "p", parent := none, children := [⟨1⟩], props := ⟨0⟩, data := ⟨0⟩ },
      { name := "c", parent := some ⟨0⟩, props := ⟨0⟩, data := ⟨0⟩, watchers := [⟨0⟩] }]
    watchers := #[{ (default : WatcherCell) with scope := some ⟨1⟩, active := true }] }

theorem destroy_cascade_parent_and_child :
    ∃ m', ExceptT.run (Eff.destroy ⟨0⟩) parentOfWatchedChild = .ok (.ok (), m') ∧
      DestroyCascade parentOfWatchedChild ⟨0⟩ m' := by
  have hch : parentOfWatchedChild.ChildrenInRange := by
    intro t c hc
    rcases t with ⟨_ | _ | n⟩
    · simp [Machine.scope, parentOfWatchedChild] at hc
      subst hc
      decide
    · simp [Machine.scope, parentOfWatchedChild] at hc
    · simp [Machine.scope, parentOfWatchedChild] at hc
      exact absurd hc List.not_mem_nil
  have hsub : parentOfWatchedChild.Subscribed :=
    (Machine.subscribed_of_empty (m := { parentOfWatchedChild with watchers := #[] }) rfl rfl).push_watcher
      _ rfl rfl
  have hidle : ∀ u, parentOfWatchedChild.Ends ⟨0⟩ u →
      ∀ w ∈ (parentOfWatchedChild.scope u).watchers, (parentOfWatchedChild.watcher w).newDeps = [] := by
    intro _ _ w _
    rcases w with ⟨_ | n⟩ <;> rfl
  exact destroy_cascade_laws _ _ (by decide) hch hsub hidle

/-- A scope made under a parent already destroyed: scope `1`, listed by scope `0`, which is being
destroyed and destroyed. -/
def childOfDestroyed : Machine Unit :=
  { host := ()
    scopes := #[
      { name := "p", parent := none, children := [⟨1⟩], props := ⟨0⟩, data := ⟨0⟩,
        beingDestroyed := true, destroyed := true },
      { name := "c", parent := some ⟨0⟩, props := ⟨0⟩, data := ⟨0⟩ }] }

/-- Destroyed itself, the child stays on its parent's list of children: a parent being destroyed
is not asked to unlist it, and a parent stays marked for good. -/
theorem destroyed_parent_keeps_child :
    ∃ m', ExceptT.run (Eff.destroy ⟨1⟩) childOfDestroyed = .ok (.ok (), m') ∧
      (m'.scope ⟨1⟩).destroyed = true ∧ (m'.scope ⟨0⟩).children = [⟨1⟩] := by
  obtain ⟨m₁, hrun, hd, hc⟩ : ∃ m₁,
      ExceptT.run (Eff.destroyWith (childOfDestroyed.scopes.size + 1) ⟨1⟩) childOfDestroyed =
        .ok (.ok (), m₁) ∧
      (m₁.scope ⟨1⟩).destroyed = true ∧ (m₁.scope ⟨0⟩).children = [⟨1⟩] :=
    ⟨_, rfl, rfl, rfl⟩
  -- the release that ends the destroy collects, which only marks scopes dropped
  obtain ⟨b₀, h₀⟩ := ({ m₁ with unheld := true } : Machine Unit).collect_scope ⟨0⟩
  obtain ⟨b₁, h₁⟩ := ({ m₁ with unheld := true } : Machine Unit).collect_scope ⟨1⟩
  let m₂ := ({ m₁ with unheld := true } : Machine Unit).collect
  refine ⟨{ m₂ with unheld := !(m₂.context.isEmpty && m₂.pins.isEmpty) }, ?_, ?_, ?_⟩
  · unfold Eff.destroy
    rw [Eff.exec_get_bind, Eff.exec_bind, hrun]
    rfl
  · show (m₂.scope ⟨1⟩).destroyed = true
    rw [h₁]
    exact hd
  · show (m₂.scope ⟨0⟩).children = [⟨1⟩]
    rw [h₀]
    exact hc

end Reactivity
