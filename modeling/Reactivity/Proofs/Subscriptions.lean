import Reactivity.Proofs.Subscribed
import Reactivity.Proofs.Operations
import Reactivity.Proofs.Host
import Reactivity.Proofs.Sessions

/-!
# Subscriptions after evaluations and teardowns

Every operation of the engine keeps subscriptions consistent (`Machine.Subscribed`), as long as
host code does, so they are consistent in every state of every script session. What a set's
subscribers are at the end of an evaluation or a teardown follows:

* after an evaluation returns, a live watcher is listed by exactly the sets it read
  (`Eff.evaluate_listed_iff`);
* a watcher torn down while no evaluation of it is under way is listed by no set
  (`Eff.teardown_unlists`); one torn down during its own evaluation stays listed by every set
  that evaluation read for the first time (`Eff.teardown_listed_iff`), since a teardown leaves
  the reads under way alone, and the evaluation then makes them the watcher's reads.
-/

namespace Reactivity

variable {η : Type}

theorem Machine.Subscribed.onTables : OnTables (Machine.Subscribed : Machine η → Prop) :=
  fun _ _ hw hd hm => hm.of_tables hw hd

namespace Machine

variable {m : Machine η} {w : WatcherId}

theorem subscribed_of_empty (hw : m.watchers = #[]) (hd : m.deps = #[]) : m.Subscribed where
  listed h := by
    rw [dep_of_size_le (by simp [hd])] at h
    exact absurd h List.not_mem_nil
  complete h _ := by
    rw [watcher_of_size_le (by simp [hw])] at h
    exact absurd h WatcherCell.not_live_default
  allocated h := by
    rw [watcher_of_size_le (by simp [hw])] at h
    exact absurd h (WatcherCell.not_reads_default _)
  deps_nodup _ := by
    rw [watcher_of_size_le (by simp [hw])]
    exact List.nodup_nil
  newDeps_nodup _ := by
    rw [watcher_of_size_le (by simp [hw])]
    exact List.nodup_nil
  subs_nodup _ := by
    rw [dep_of_size_le (by simp [hd])]
    exact List.nodup_nil

/-! ## Collection leaves reads alone -/

theorem watcher_dropWatcher (m : Machine η) (w w' : WatcherId) :
    (m.dropWatcher w).watcher w' =
      if w' = w ∧ w.idx < m.watchers.size then { m.watcher w' with dropped := true }
      else m.watcher w' := by
  have hws := foldl_unsubscribe_watchers (w := w) ((m.watcher w).deps ++ (m.watcher w).newDeps) m
  unfold Machine.dropWatcher
  dsimp only
  by_cases hlt : w.idx < m.watchers.size
  · rw [watcher_modify _ _ _ _ (.inl (hws ▸ hlt)), watcher_eq_of_watchers_eq hws]
    by_cases he : w' = w
    · simp [he, hlt]
    · simp [he]
  · rw [watcher_modify_of_size_le _ _ _ _ (hws ▸ Nat.le_of_not_lt hlt),
      watcher_eq_of_watchers_eq hws]
    simp [hlt]

theorem newDeps_collect (m : Machine η) :
    ∀ w, (m.collect.watcher w).newDeps = (m.watcher w).newDeps := by
  unfold Machine.collect
  simp only [Std.Legacy.Range.forIn_eq_forIn_range', Id.run_bind, Id.run_pure]
  refine forIn_id_inv (fun s : Machine η => ∀ w, (s.watcher w).newDeps = (m.watcher w).newDeps)
    (forIn_id_inv (fun s : Machine η => ∀ w, (s.watcher w).newDeps = (m.watcher w).newDeps)
      (fun _ => rfl) fun _ s hs => ?_) fun i s hs => ?_
  · split
    · exact ⟨_, .inl rfl, hs⟩
    · exact ⟨_, .inl rfl, hs⟩
  · split
    · refine ⟨_, .inl rfl, fun w => ?_⟩
      rw [watcher_dropWatcher]
      split
      · exact hs w
      · exact hs w
    · exact ⟨_, .inl rfl, hs⟩

/-! ## Tearing down -/

/-- Past its guard and its scope, a teardown leaves the sets of the watcher's last evaluation,
and marks it inactive with no reads of that evaluation. -/
def tornDown (m : Machine η) (w : WatcherId) : Machine η :=
  let m₁ := (m.watcher w).deps.foldl (fun m d => m.unsubscribe d w) m
  { m₁ with watchers := m₁.watchers.modify w.idx fun c => { c with deps := [], active := false } }

theorem watcher_tornDown (m : Machine η) (w w' : WatcherId) :
    (m.tornDown w).watcher w' =
      if w' = w then { m.watcher w' with deps := [], active := false } else m.watcher w' := by
  have hws := foldl_unsubscribe_watchers (w := w) (m.watcher w).deps m
  unfold tornDown
  dsimp only
  rw [watcher_modify _ _ _ _ (.inr rfl), watcher_eq_of_watchers_eq hws]

theorem mem_subs_tornDown (m : Machine η) (hnd : ∀ d, (m.dep d).subs.Nodup) (w w' : WatcherId)
    (d : DepId) :
    w' ∈ ((m.tornDown w).dep d).subs ↔ w' ∈ (m.dep d).subs ∧ ¬ (d ∈ (m.watcher w).deps ∧ w' = w) :=
  (foldl_unsubscribe (m.watcher w).deps m hnd).2 w' d

theorem Subscribed.not_mem_tornDown (hm : m.Subscribed) (hidle : (m.watcher w).newDeps = [])
    (d : DepId) : w ∉ ((m.tornDown w).dep d).subs := fun h => by
  obtain ⟨hin, hnot⟩ := (mem_subs_tornDown m hm.subs_nodup w w d).1 h
  rcases hm.listed hin with hd | hd
  · exact hnot ⟨hd, rfl⟩
  · rw [hidle] at hd
    exact List.not_mem_nil hd

end Machine

theorem Triple.bind_returns {Q : β → Machine η → Prop} {x : Eff η α} {f : α → Eff η β}
    (hf : ∀ a, Triple (fun _ => True) (f a) fun r m => ∀ b, r = .ok b → Q b m) :
    Triple (fun _ => True) (x >>= f) fun r m => ∀ b, r = .ok b → Q b m :=
  Triple.bind (fun _ _ _ _ _ => trivial : Triple (fun _ => True) x fun _ _ => True) hf
    fun _ _ _ _ h => nomatch h

namespace Eff

variable {w : WatcherId}

/-- No evaluation of `w` is under way. -/
def Idle (w : WatcherId) (m : Machine η) : Prop := (m.watcher w).newDeps = []

theorem settle_idle : Keeps (Idle w) (settle : Eff η Unit) := by
  refine Keeps.modify fun m hm => ?_
  split
  · exact (Machine.newDeps_collect m w).trans hm
  · exact hm

theorem unhold_idle : Keeps (Idle w) (unhold : Eff η Unit) :=
  Keeps.bind (Keeps.modify fun _ h => h) fun _ => settle_idle

theorem unregister_idle (s : ScopeId) : Keeps (Idle w) (unregister s w : Eff η Unit) :=
  Keeps.bind (Keeps.modify fun _ h => h) fun _ => Keeps.bind (Keeps.modify fun _ h => h) fun _ =>
    settle_idle

theorem unregister_noFault (s : ScopeId) (w : WatcherId) : NoFault (unregister s w : Eff η Unit) :=
  NoFault.bind (NoFault.modify _) fun _ => released_noFault

theorem reconcile_idle (w : WatcherId) :
    Triple (fun _ => True) (reconcile w : Eff η Unit) fun _ => Idle w := by
  intro m _ r m' hrun
  unfold reconcile at hrun
  rw [exec_get_bind, exec_bind,
    forIn_removeSub_run w (fun d => !(m.watcher w).newDeps.contains d) (fun _ => rfl)] at hrun
  cases hrun
  unfold Idle
  rw [Machine.watcher_modify _ _ _ _ (.inr rfl), if_pos rfl]

/-- An evaluation that returns has no reads under way any more: reconciling made them the
watcher's reads, and nothing after it records a read. -/
theorem evaluateWith_idle (r : Runner η) (fuel : Nat) (w : WatcherId) :
    Triple (fun _ => True) (evaluateWith r fuel w) fun res m => ∀ v, res = .ok v → Idle w m := by
  cases fuel with
  | zero => exact Triple.halt _
  | succ fuel =>
    unfold Eff.evaluateWith
    refine Triple.bind_returns fun m => ?_
    extract_lets cell scope tail body
    have htail : ∀ res, Triple (fun _ => True) (tail res)
        fun res m => ∀ v, res = .ok v → Idle w m := by
      intro res
      dsimp -zeta only [tail]
      extract_lets finish close
      have hfinish : ∀ u, Keeps (Idle w) (finish u) := by
        intro u
        dsimp -zeta only [finish]
        split
        · exact Keeps.pure _
        · exact Keeps.fault _
      have hclose : ∀ u, Triple (fun _ => True) (close u)
          fun res m => ∀ v, res = .ok v → Idle w m := fun _ =>
        Triple.bind_returns fun _ => Triple.bind (reconcile_idle w)
          (fun _ => Triple.conseq (Keeps.ite _ (Keeps.bind unhold_idle hfinish) (hfinish ()))
            (fun _ h => h) fun _ _ h _ _ => h)
          fun _ _ _ _ h => nomatch h
      refine Triple.ite _ (fun _ => ?_) fun _ => hclose ()
      split
      · exact Triple.bind_returns hclose
      · exact hclose ()
    have hbody : ∀ u, Triple (fun _ => True) (body u)
        fun res m => ∀ v, res = .ok v → Idle w m := by
      intro u
      dsimp -zeta only [body]
      refine Triple.bind_returns fun _ => Triple.bind_returns fun res => ?_
      split
      · exact Triple.ite _ (fun _ => Triple.bind_returns fun _ => Triple.bind_returns htail)
          fun _ => Triple.bind_returns htail
      · exact Triple.bind_returns htail
    dsimp -zeta only [scope]
    split
    · exact Triple.bind_returns hbody
    · exact hbody ()

/-- After an evaluation returns, a live watcher is listed by exactly the sets it read. -/
theorem evaluate_listed_iff {r : Runner η} (hr : ∀ c a, Keeps Machine.Subscribed (r.invoke c a))
    {m m' : Machine η} {v : Value} (hm : m.Subscribed)
    (hrun : ExceptT.run (evaluate r w) m = .ok (.ok v, m')) (hlive : (m'.watcher w).Live)
    (d : DepId) : w ∈ (m'.dep d).subs ↔ d ∈ (m'.watcher w).deps := by
  have hm' : m'.Subscribed := Triple.of_run (subscribed_stable.evaluate hr w) hrun hm
  have hidle : Idle w m' := evaluateWith_idle r r.fuel w m trivial _ _ hrun v rfl
  refine ⟨fun h => ?_, fun h => hm'.complete hlive (.inl h)⟩
  rcases hm'.listed h with hd | hd
  · exact hd
  · rw [Idle] at hidle
    rw [hidle] at hd
    exact absurd hd List.not_mem_nil

theorem teardown_rest_run (w : WatcherId) (m : Machine η) :
    ExceptT.run (do
      for d in ((← MonadState.get).watcher w).deps do removeSub d w
      modifyWatcher w fun c => { c with deps := [], active := false } : Eff η Unit) m =
      .ok (.ok (), m.tornDown w) := by
  rw [exec_get_bind, exec_bind, forIn_removeSub_run w (fun _ => true) (fun _ => rfl),
    List.filter_true]
  rfl

theorem teardown_run_unscoped {m : Machine η} (hact : (m.watcher w).active = true)
    (hs : m.scopeOf w = none) : ExceptT.run (teardown w) m = .ok (.ok (), m.tornDown w) := by
  unfold teardown
  rw [exec_get_bind, if_neg (by simp [hact])]
  dsimp only
  rw [hs]
  exact teardown_rest_run w m

/-- A live watcher of no live scope, torn down, is listed by exactly the sets that the
evaluation under way read for the first time. -/
theorem teardown_listed_iff {m m' : Machine η} {res : Except Fault Unit} (hm : m.Subscribed)
    (hlive : (m.watcher w).Live) (hs : m.scopeOf w = none)
    (hrun : ExceptT.run (teardown w) m = .ok (res, m')) (d : DepId) :
    w ∈ (m'.dep d).subs ↔ d ∈ (m.watcher w).newDeps ∧ d ∉ (m.watcher w).deps := by
  rw [teardown_run_unscoped hlive.1 hs] at hrun
  cases hrun
  rw [Machine.mem_subs_tornDown m hm.subs_nodup]
  constructor
  · rintro ⟨hin, hnot⟩
    have hd : d ∉ (m.watcher w).deps := fun hd => hnot ⟨hd, rfl⟩
    exact ⟨(hm.listed hin).resolve_left hd, hd⟩
  · rintro ⟨hnew, hd⟩
    exact ⟨hm.complete hlive (.inr hnew), fun h => hd h.1⟩

theorem teardown_rest_unlists (w : WatcherId) :
    Triple (fun m : Machine η => m.Subscribed ∧ Idle w m) (do
      for d in ((← MonadState.get).watcher w).deps do removeSub d w
      modifyWatcher w fun c => { c with deps := [], active := false } : Eff η Unit)
      fun _ m' => (m'.watcher w).deps = [] ∧ (m'.watcher w).active = false ∧
        ∀ d, w ∉ (m'.dep d).subs := by
  intro m ⟨hm, hidle⟩ r m' hrun
  rw [teardown_rest_run] at hrun
  cases hrun
  have hcell := Machine.watcher_tornDown m w w
  rw [if_pos rfl] at hcell
  exact ⟨by rw [hcell], by rw [hcell], hm.not_mem_tornDown hidle⟩

/-- A watcher torn down while no evaluation of it is under way is listed by no set, has no
reads and is inactive. -/
theorem teardown_unlists (w : WatcherId) :
    Triple (fun m : Machine η => m.Subscribed ∧ (m.watcher w).active = true ∧ Idle w m)
      (teardown w)
      fun _ m' => (m'.watcher w).deps = [] ∧ (m'.watcher w).active = false ∧
        ∀ d, w ∉ (m'.dep d).subs := by
  -- leaving the scope keeps the invariant, and no evaluation of `w` starts
  have hscope : ∀ s, Keeps (fun m : Machine η => m.Subscribed ∧ Idle w m) (unregister s w) :=
    fun s => Triple.and
      (Triple.conseq (Keeps.bind (modify_subscribed (fun _ => rfl) fun _ => rfl) fun _ =>
        released_subscribed : Keeps Machine.Subscribed (unregister s w : Eff η Unit))
        (fun _ h => h.1) fun _ _ h => h)
      (Triple.conseq (unregister_idle s) (fun _ h => h.2) fun _ _ h => h)
  refine Triple.bind_get fun m ⟨hm, hact, hidle⟩ => ?_
  refine Triple.ite _ (fun h => absurd hact (by simpa using h)) fun _ => ?_
  have hrest := Triple.conseq (teardown_rest_unlists w)
    (fun (m' : Machine η) (e : m' = m) => e ▸ ⟨hm, hidle⟩) fun _ _ h => h
  dsimp only
  split
  · split
    · exact Triple.conseq (Triple.bind_of_keeps (hscope _) (unregister_noFault _ w) fun _ =>
        teardown_rest_unlists w) (fun _ (e : _ = m) => e ▸ ⟨hm, hidle⟩) fun _ _ h => h
    · exact hrest
  · exact hrest

end Eff

/-- Subscriptions agree with reads in every state a script session passes through; at the end of
an evaluation a live watcher is listed by exactly the sets it read; a watcher torn down while no
evaluation of it is under way is listed by no set; but one torn down during its own evaluation
is inactive with no reads of its last evaluation, and stays listed by every set that the
evaluation under way read for the first time. -/
theorem subscriptions_consistent :
    (∀ m, Script.Session m → m.Subscribed) ∧
    (∀ r : Runner η, (∀ c a, Keeps Machine.Subscribed (r.invoke c a)) →
      ∀ w (m m' : Machine η) v, m.Subscribed →
        ExceptT.run (Eff.evaluate r w) m = .ok (.ok v, m') → (m'.watcher w).Live →
        ∀ d, w ∈ (m'.dep d).subs ↔ d ∈ (m'.watcher w).deps) ∧
    (∀ w, Triple (fun m : Machine η => m.Subscribed ∧ (m.watcher w).active = true ∧ Eff.Idle w m)
      (Eff.teardown w) fun _ m' => (m'.watcher w).deps = [] ∧ (m'.watcher w).active = false ∧
        ∀ d, w ∉ (m'.dep d).subs) ∧
    (∀ w (m m' : Machine η) res, m.Subscribed → (m.watcher w).Live → m.scopeOf w = none →
      ExceptT.run (Eff.teardown w) m = .ok (res, m') →
      m'.watcher w = { m.watcher w with deps := [], active := false } ∧
      ∀ d, w ∈ (m'.dep d).subs ↔ d ∈ (m.watcher w).newDeps ∧ d ∉ (m.watcher w).deps) := by
  refine ⟨fun m hm => hm.holds Machine.Subscribed.onTables subscribed_stable
    (Machine.subscribed_of_empty rfl rfl), fun r hr w m m' v hm hrun hlive d =>
      Eff.evaluate_listed_iff hr hm hrun hlive d, Eff.teardown_unlists,
    fun w m m' res hm hlive hs hrun => ⟨?_, Eff.teardown_listed_iff hm hlive hs hrun⟩⟩
  rw [Eff.teardown_run_unscoped hlive.1 hs] at hrun
  cases hrun
  rw [Machine.watcher_tornDown, if_pos rfl]

/-- A watcher that reads a set for the first time in its evaluation, and is torn down there, is
left inactive, with no reads of its last evaluation, and listed by the set. -/
theorem teardown_in_pass_stays_listed :
    ∃ m', ExceptT.run (Eff.teardown ⟨0⟩)
        ({ host := (), deps := #[{ subs := [⟨0⟩] }],
           watchers := #[{ (default : WatcherCell) with active := true, newDeps := [⟨0⟩] }] } :
          Machine Unit) = .ok (.ok (), m') ∧
      (m'.watcher ⟨0⟩).active = false ∧ (m'.watcher ⟨0⟩).deps = [] ∧
      (⟨0⟩ : WatcherId) ∈ (m'.dep ⟨0⟩).subs :=
  ⟨_, rfl, rfl, rfl, List.mem_singleton_self _⟩

end Reactivity
