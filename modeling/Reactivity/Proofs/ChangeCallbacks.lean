import Reactivity.Proofs.Subscriptions

/-!
# Change callbacks: the new and the old value

A run of a watcher evaluates it and only then reads the value it holds, so a run nested in
the evaluation has already stored its own value and passed it to the callback; the run then
stores the new value before the callback starts, so a run nested in the callback reads that one.
Every call made by a run thus gets, as its old value, what the last run stored.

`callback_chain` proves that the calls a host keeps of the callback stay chained, each call's
old value the new value of the call before, over every run of the watcher, with the host's own
code assumed to keep the chain. Making a watcher breaks it: the first evaluation's value is
stored after the evaluation, over whatever a run nested in it stored and passed on
(`init_overwrites_nested_run`).
-/

namespace Reactivity

variable {η : Type}

theorem Machine.watcher_setValue (m : Machine η) {w : WatcherId} (v : Value)
    (hlt : w.idx < m.watchers.size) :
    ({ m with watchers := m.watchers.modify w.idx fun c => { c with value := v } } : Machine η).watcher w =
      { m.watcher w with value := v } := by
  rw [Machine.watcher_modify _ _ _ _ (.inl hlt), if_pos rfl]

namespace Eff

variable {r : Runner η} {w : WatcherId} {m m₁ : Machine η} {v : Value}

/-! ## Making a watcher -/

/-- A watcher that is not lazy is evaluated once made and held, and the value is stored with no
callback, whatever the watcher held when the evaluation returned. -/
theorem create_stores {scope : Option ScopeId} {getter : Getter} {callback : Option Closure}
    {o : WatcherOptions} {render : Bool} {mb : Machine η} (hlazy : o.lazy = false)
    (hbuild : ExceptT.run (build scope getter callback o render) m = .ok (.ok w, mb))
    (heval : ExceptT.run (evaluate r w) { mb with pins := .watcher w :: mb.pins } = .ok (.ok v, m₁)) :
    ExceptT.run (create r scope getter callback o render) m =
      .ok (.ok w, { m₁ with watchers := m₁.watchers.modify w.idx fun c => { c with value := v } }) := by
  unfold create pin
  rw [exec_bind, hbuild]
  dsimp only
  rw [exec_modify_bind, if_pos (by simp [hlazy]), exec_bind, exec_attempt, heval]
  rfl

end Eff

/-! ## The chain of calls -/

/-- The value the newest of `calls` passed as new, or `start` before any call. -/
def lastNew (start : Value) : List (Value × Value) → Value
  | [] => start
  | (n, _) :: _ => n

/-- Calls of a callback, newest first, each with its new and old value: each was given as the old
value the new value of the call before it, and the first was given `start`. -/
def Chained (start : Value) : List (Value × Value) → Prop
  | [] => True
  | (_, o) :: older => o = lastNew start older ∧ Chained start older

/-- What a watcher holds that a change callback's chain reads: its value, its callback and its
dirty mark. -/
def WatcherCell.cache (c : WatcherCell) : Value × Option Closure × Bool :=
  (c.value, c.callback, c.dirty)

namespace Machine

/-- The calls of `w`'s callback `cb` that the host keeps, read by `calls`, are chained from
`start`, and `w` holds the new value of the newest; `w` is clean, so reading it as a computed value
evaluates nothing. -/
structure Passes (calls : η → List (Value × Value)) (start : Value) (w : WatcherId) (cb : Closure)
    (m : Machine η) : Prop where
  chained : Chained start (calls m.host)
  holds : (m.watcher w).value = lastNew start (calls m.host)
  callback : (m.watcher w).callback = some cb
  clean : (m.watcher w).dirty = false

/-- What a call of `cb` with the new value `n` and the old value `o` finds: the call continues
the chain, `w` holds `n`, and is clean. -/
structure Calling (calls : η → List (Value × Value)) (start : Value) (w : WatcherId) (cb : Closure)
    (n o : Value) (m : Machine η) : Prop where
  chained : Chained start ((n, o) :: calls m.host)
  holds : (m.watcher w).value = n
  callback : (m.watcher w).callback = some cb
  clean : (m.watcher w).dirty = false

variable {calls : η → List (Value × Value)} {start : Value} {w : WatcherId} {cb : Closure}
  {m m' : Machine η}

theorem Passes.of_cache (hm : m.Passes calls start w cb) (hh : m'.host = m.host)
    (hc : (m'.watcher w).cache = (m.watcher w).cache) : m'.Passes calls start w cb := by
  simp only [WatcherCell.cache, Prod.mk.injEq] at hc
  obtain ⟨hv, hcb, hd⟩ := hc
  exact ⟨hh ▸ hm.chained, hv.trans (hh ▸ hm.holds), hcb.trans hm.callback, hd.trans hm.clean⟩

theorem Passes.of_watchers (hm : m.Passes calls start w cb) (hh : m'.host = m.host)
    (hw : m'.watchers = m.watchers) : m'.Passes calls start w cb :=
  hm.of_cache hh (by rw [watcher_eq_of_watchers_eq hw])

theorem lt_of_callback (h : (m.watcher w).callback = some cb) : w.idx < m.watchers.size := by
  by_contra hlt
  rw [watcher_of_size_le (Nat.le_of_not_lt hlt)] at h
  cases h

theorem Passes.lt (hm : m.Passes calls start w cb) : w.idx < m.watchers.size :=
  lt_of_callback hm.callback

theorem Passes.modify (hm : m.Passes calls start w cb) (w' : WatcherId)
    {f : WatcherCell → WatcherCell} (hf : ∀ c, (f c).cache = c.cache) :
    ({ m with watchers := m.watchers.modify w'.idx f } : Machine η).Passes calls start w cb := by
  refine hm.of_cache rfl ?_
  by_cases hlt : w'.idx < m.watchers.size
  · rw [watcher_modify _ _ _ _ (.inl hlt)]
    split
    · exact hf _
    · rfl
  · rw [watcher_modify_of_size_le _ _ _ _ (Nat.le_of_not_lt hlt)]

theorem Passes.modify_ne (hm : m.Passes calls start w cb) {w' : WatcherId} (hne : w' ≠ w)
    (f : WatcherCell → WatcherCell) :
    ({ m with watchers := m.watchers.modify w'.idx f } : Machine η).Passes calls start w cb := by
  refine hm.of_cache rfl ?_
  by_cases hlt : w'.idx < m.watchers.size
  · rw [watcher_modify _ _ _ _ (.inl hlt), if_neg (Ne.symm hne)]
  · rw [watcher_modify_of_size_le _ _ _ _ (Nat.le_of_not_lt hlt)]

theorem Passes.store (hm : m.Passes calls start w cb) (v : Value) :
    ({ m with watchers := m.watchers.modify w.idx fun c => { c with value := v } } :
      Machine η).Calling calls start w cb v (m.watcher w).value := by
  have hcell := watcher_setValue m v hm.lt
  exact ⟨⟨hm.holds, hm.chained⟩, by rw [hcell], by rw [hcell]; exact hm.callback,
    by rw [hcell]; exact hm.clean⟩

theorem host_foldl_unsubscribe (ds : List DepId) (m : Machine η) :
    (ds.foldl (fun m d => m.unsubscribe d w) m).host = m.host := by
  induction ds generalizing m with
  | nil => rfl
  | cons d ds ih => exact ih (m.unsubscribe d w)

theorem cache_collect (m : Machine η) :
    ∀ w, (m.collect.watcher w).cache = (m.watcher w).cache ∧ m.collect.host = m.host := by
  unfold Machine.collect
  simp only [Std.Legacy.Range.forIn_eq_forIn_range', Id.run_bind, Id.run_pure]
  -- the scopes' pass touches no watcher; the watchers' pass only drops
  let J := fun s : Machine η => ∀ w, (s.watcher w).cache = (m.watcher w).cache ∧ s.host = m.host
  refine forIn_id_inv J (forIn_id_inv J (fun _ => ⟨rfl, rfl⟩) fun _ s hs => ?_) fun i s hs => ?_
  · split
    · exact ⟨_, .inl rfl, hs⟩
    · exact ⟨_, .inl rfl, hs⟩
  · split
    · refine ⟨_, .inl rfl, fun w => ⟨?_, (host_foldl_unsubscribe _ s).trans (hs w).2⟩⟩
      rw [watcher_dropWatcher]
      split
      · exact (hs w).1
      · exact (hs w).1
    · exact ⟨_, .inl rfl, hs⟩

end Machine

namespace Eff

open Machine

variable {calls : η → List (Value × Value)} {start : Value} {w : WatcherId} {cb : Closure}

/-! ## The primitive updates keep the chain -/

theorem modify_passes {g : Machine η → Machine η} (hh : ∀ m, (g m).host = m.host)
    (hw : ∀ m, (g m).watchers = m.watchers) :
    Keeps (Passes calls start w cb) (modify g : Eff η Unit) :=
  Keeps.modify fun m hm => hm.of_watchers (hh m) (hw m)

theorem modifyWatcher_passes (w' : WatcherId) {f : WatcherCell → WatcherCell}
    (hf : ∀ c, (f c).cache = c.cache) :
    Keeps (Passes calls start w cb) (modifyWatcher w' f : Eff η Unit) :=
  Keeps.modify fun _ hm => hm.modify w' hf

theorem settle_passes : Keeps (Passes calls start w cb) (settle : Eff η Unit) := by
  refine Keeps.modify fun m hm => ?_
  split
  · exact hm.of_cache (cache_collect m w).2 (cache_collect m w).1
  · exact hm

theorem released_passes : Keeps (Passes calls start w cb) (released : Eff η Unit) :=
  Keeps.bind (modify_passes (fun _ => rfl) fun _ => rfl) fun _ => settle_passes

theorem depend_passes (d : DepId) : Keeps (Passes calls start w cb) (depend d : Eff η Unit) := by
  refine Keeps.bind Keeps.get fun m => ?_
  split
  · exact Keeps.pure _
  · exact Keeps.ite _ (Keeps.bind (modifyWatcher_passes _ fun _ => rfl) fun _ =>
      Keeps.ite _ (modify_passes (fun _ => rfl) fun _ => rfl) (Keeps.pure _)) (Keeps.pure _)

theorem reconcile_passes (w' : WatcherId) :
    Keeps (Passes calls start w cb) (reconcile w' : Eff η Unit) := by
  refine Keeps.bind Keeps.get fun m => Keeps.bind (Keeps.forIn_list fun d _ => ?_) fun _ =>
    modifyWatcher_passes _ fun _ => rfl
  exact Keeps.ite _ (Keeps.bind (modify_passes (fun _ => rfl) fun _ => rfl) fun _ => Keeps.pure _)
    (Keeps.pure _)

theorem teardown_passes (w' : WatcherId) :
    Keeps (Passes calls start w cb) (teardown w' : Eff η Unit) := by
  have hrest : Keeps (Passes calls start w cb) (do
      for d in ((← MonadState.get).watcher w').deps do removeSub d w'
      modifyWatcher w' fun c => { c with deps := [], active := false } : Eff η Unit) :=
    Keeps.bind Keeps.get fun _ => Keeps.bind (Keeps.forIn_list fun _ _ =>
      Keeps.bind (modify_passes (fun _ => rfl) fun _ => rfl) fun _ => Keeps.pure _) fun _ =>
      modifyWatcher_passes _ fun _ => rfl
  refine Keeps.bind Keeps.get fun m => Keeps.ite _ (Keeps.pure _) ?_
  dsimp only
  split
  · split
    · exact Keeps.bind (Keeps.bind (modify_passes (fun _ => rfl) fun _ => rfl) fun _ =>
        released_passes) fun _ => hrest
    · exact hrest
  · exact hrest

theorem build_passes (scope : Option ScopeId) (getter : Getter) (callback : Option Closure)
    (o : WatcherOptions) (render : Bool) :
    Keeps (Passes calls start w cb) (build scope getter callback o render : Eff η WatcherId) := by
  have hscope : ∀ s (f : ScopeCell → ScopeCell),
      Keeps (Passes calls start w cb) (modifyScope s f : Eff η Unit) :=
    fun _ _ => modify_passes (fun _ => rfl) fun _ => rfl
  -- the new watcher goes past the table, so `w`, which exists, keeps its cell
  refine Keeps.get_set_bind (fun m hm => hm.of_cache rfl ?_) fun m _ => ?_
  · rw [watcher_push, if_neg (Nat.ne_of_lt hm.lt)]
  dsimp only
  split
  · split
    · exact Keeps.bind (hscope _ _) fun _ => Keeps.bind (modify_passes (fun _ => rfl) fun _ => rfl)
        fun _ => Keeps.bind (hscope _ _) fun _ => Keeps.pure _
    · exact Keeps.bind (hscope _ _) fun _ => Keeps.pure _
  · exact Keeps.pure _

theorem passes_core : Stable.Core (Passes calls start w cb : Machine η → Prop) where
  depend := depend_passes
  reconcile := reconcile_passes
  teardown := teardown_passes
  build := build_passes
  object _ _ := modify_passes (fun _ => rfl) fun _ => rfl
  list _ _ := modify_passes (fun _ => rfl) fun _ => rfl
  newDep := Keeps.get_set_bind (fun _ hm => hm.of_watchers rfl rfl) fun _ _ => Keeps.pure _
  newProp _ := Keeps.get_set_bind (fun _ hm => hm.of_watchers rfl rfl) fun _ _ => Keeps.pure _
  pin _ := modify_passes (fun _ => rfl) fun _ => rfl
  release := modify_passes (fun _ => rfl) fun _ => rfl
  settle := settle_passes
  unhold := Keeps.bind (modify_passes (fun _ => rfl) fun _ => rfl) fun _ => settle_passes
  enter _ := modify_passes (fun _ => rfl) fun _ => rfl
  leave := Keeps.bind (modify_passes (fun _ => rfl) fun _ => rfl) fun _ => settle_passes
  report _ := modify_passes (fun _ => rfl) fun _ => rfl

/-! ## Evaluation keeps the chain -/

section Host

variable {r : Runner η}
  (hnone : ∀ c, Keeps (Passes calls start w cb) (r.invoke c .none))
  (hfault : ∀ c msg kind info, Keeps (Passes calls start w cb) (r.invoke c (.fault msg kind info)))
include hnone hfault

/-- Evaluating any watcher, and each getter, name and computed value it reads on the way, keeps
the chain: the engine's own steps leave `w`'s cache alone, and a computed value is stored only
when dirty, which `w` is not. -/
theorem evaluateWith_passes (fuel : Nat) :
    (∀ w', Keeps (Passes calls start w cb) (evaluateWith r fuel w')) ∧
    (∀ g s, Keeps (Passes calls start w cb) (getterValue r fuel g s)) ∧
    (∀ s name, Keeps (Passes calls start w cb) (lookupWith r fuel s name)) ∧
    ∀ w', Keeps (Passes calls start w cb) (computedWith r fuel w') := by
  have hc : Stable.Core (Passes calls start w cb : Machine η → Prop) := passes_core
  induction fuel with
  | zero =>
    exact ⟨fun _ => Keeps.halt _, fun _ _ => Keeps.halt _, fun _ _ => Keeps.halt _,
      fun _ => Keeps.halt _⟩
  | succ fuel ih =>
    obtain ⟨heval, hget, hlook, hcomp⟩ := ih
    refine ⟨fun w' => ?_, fun g s => ?_, fun s name => ?_, fun w' => ?_⟩
    · unfold Eff.evaluateWith
      refine Keeps.bind Keeps.get fun m => ?_
      extract_lets cell scope tail body
      have htail : ∀ res, Keeps (Passes calls start w cb) (tail res) := by
        intro res
        dsimp -zeta only [tail]
        extract_lets finish close
        have hfinish : ∀ u, Keeps (Passes calls start w cb) (finish u) := by
          intro u
          dsimp -zeta only [finish]
          split
          · exact Keeps.pure _
          · exact Keeps.fault _
        have hclose : ∀ u, Keeps (Passes calls start w cb) (close u) := fun _ =>
          Keeps.bind hc.leave fun _ => Keeps.bind (hc.reconcile w') fun _ =>
            Keeps.ite _ (Keeps.bind hc.unhold hfinish) (hfinish ())
        refine Keeps.ite _ ?_ (hclose ())
        split
        · exact Keeps.bind (hc.traverse _) hclose
        · exact hclose ()
      have hbody : ∀ u, Keeps (Passes calls start w cb) (body u) := by
        intro u
        dsimp -zeta only [body]
        refine Keeps.bind (hc.enter _) fun _ => Keeps.bind (Keeps.attempt (hget _ _)) fun res => ?_
        split
        · exact Keeps.ite _ (Keeps.bind (hc.handleError hfault _ _ _) fun _ =>
            Keeps.bind (Keeps.pure _) htail) (Keeps.bind (Keeps.pure _) htail)
        · exact Keeps.bind (Keeps.pure _) htail
      dsimp -zeta only [scope]
      split
      · exact Keeps.bind (hc.pin _) hbody
      · exact hbody ()
    · unfold Eff.getterValue
      split
      · exact hnone _
      · exact Keeps.bind (hnone _) fun _ => Keeps.pure _
      · exact Keeps.pure _
      · split
        · exact Keeps.pure _
        · exact Keeps.pure _
        · exact Keeps.bind (hlook _ _) fun _ => Keeps.bind (Keeps.forIn_list fun _ _ =>
            Keeps.bind (hc.member _ _) fun _ => Keeps.pure _) fun _ => Keeps.pure _
    · unfold Eff.lookupWith
      refine Keeps.bind Keeps.get fun _ => Keeps.bind (Stable.hasOwn _ _) fun _ => ?_
      refine Keeps.ite _ (hc.objGet _ _) ?_
      refine Keeps.bind (Stable.hasOwn _ _) fun _ => Keeps.ite _ (hc.objGet _ _) ?_
      split
      · exact hcomp _
      · exact Keeps.pure _
    · unfold Eff.computedWith
      refine Keeps.bind_get fun m hm => ?_
      extract_lets value read
      have hvalue : ∀ u, Keeps (Passes calls start w cb) (value u) := fun _ =>
        Keeps.bind Keeps.get fun _ => Keeps.pure _
      have hread : ∀ u, Keeps (Passes calls start w cb) (read u) := fun _ =>
        Keeps.bind Stable.target fun _ =>
          Keeps.ite _ (Keeps.bind (hc.dependOn w') hvalue) (hvalue ())
      refine Triple.ite _ (fun hdirty => ?_) fun _ => (hread ()).triple hm
      -- only a dirty value is evaluated and stored, and `w` is clean
      have hne : w' ≠ w := by
        rintro rfl
        rw [hm.clean] at hdirty
        cases hdirty
      exact (Keeps.bind (heval w') fun _ =>
        Keeps.bind (Keeps.modify fun _ hs => hs.modify_ne hne _) hread).triple hm

theorem evaluate_passes (w' : WatcherId) :
    Keeps (Passes calls start w cb) (evaluate r w') :=
  (evaluateWith_passes hnone hfault _).1 w'

/-- A run of `w` keeps the chain, when its callback does with the calls it gets: the old value
it passes is the one `w` holds after the evaluation, which is the new value of the newest call,
however many runs of `w` the evaluation made. -/
theorem run_passes
    (hcall : ∀ n o, Triple (Calling calls start w cb n o) (r.invoke cb (.change n o))
      fun _ => Passes calls start w cb) :
    Keeps (Passes calls start w cb) (run r w) := by
  have hc : Stable.Core (Passes calls start w cb : Machine η → Prop) := passes_core
  unfold run
  refine Keeps.bind_get fun m hm => ?_
  refine Triple.ite _ (fun _ => Triple.pure _ fun _ h => h ▸ hm) fun _ => ?_
  refine Keeps.triple ?_ hm
  refine Keeps.bind (evaluate_passes hnone hfault w) fun v => Keeps.bind_get fun m₁ hm₁ => ?_
  refine Triple.ite _ (fun _ => Triple.pure _ fun _ h => h ▸ hm₁) fun _ => ?_
  -- the new value is stored, and the callback is called where it continues the chain
  refine Triple.bind_ok (Triple.modify _ fun s hs => ⟨(), rfl, hs ▸ hm₁.store v⟩ :
    Triple (· = m₁) (modifyWatcher w fun c => { c with value := v })
      fun r s => ∃ a, r = .ok a ∧ Calling calls start w cb v (m₁.watcher w).value s) fun _ => ?_
  -- the callback the run read at its start is `cb`
  split
  · rename_i hnone'
    rw [hm.callback] at hnone'
    cases hnone'
  · rename_i cb' hcb
    cases hcb.symm.trans hm.callback
    have hframe := hc.untracked_triple (fun _ hs => ⟨hs.1, hs.2, hs.3, hs.4⟩)
      (hcall v (m₁.watcher w).value)
    refine Triple.bind (Triple.attempt hframe :
      Triple _ (attempt _) fun _ => Passes calls start w cb) (fun res => ?_) fun _ _ h => h
    split
    · exact Keeps.pure _
    · exact Keeps.ite _ (Keeps.bind Keeps.get fun _ => hc.handleError hfault _ _ _) (Keeps.fault _)

end Host

theorem create_passes {r : Runner η} {scope : Option ScopeId} {getter : Getter}
    {callback : Option Closure} {o : WatcherOptions} {render : Bool} {m mb m₁ : Machine η}
    {v : Value} (hlazy : o.lazy = false)
    (hbuild : ExceptT.run (build scope getter callback o render) m = .ok (.ok w, mb))
    (heval : ExceptT.run (evaluate r w) { mb with pins := .watcher w :: mb.pins } = .ok (.ok v, m₁))
    (hcalls : calls m₁.host = []) (hcb : (m₁.watcher w).callback = some cb)
    (hclean : (m₁.watcher w).dirty = false) :
    ∃ m', ExceptT.run (create r scope getter callback o render) m = .ok (.ok w, m') ∧
      m'.Passes calls v w cb := by
  refine ⟨_, create_stores hlazy hbuild heval, ?_⟩
  have hcell := watcher_setValue m₁ v (lt_of_callback hcb)
  refine ⟨?_, ?_, ?_, ?_⟩
  · show Chained v (calls m₁.host)
    rw [hcalls]
    trivial
  · show _ = lastNew v (calls m₁.host)
    rw [hcell, hcalls]
    rfl
  · rw [hcell]
    exact hcb
  · rw [hcell]
    exact hclean

end Eff

/-- The new and the old value a change call passes; none for any other call. -/
def Args.change? : Args → Option (Value × Value)
  | .change n o => some (n, o)
  | _ => Option.none

/-- The chain of a change callback. Say the host keeps the calls of `w`'s callback `cb`, which
`calls` reads, newest first. If the host's getters and fault handlers keep the chain, and the
callback keeps it when it is called where it continues the chain, then every run of `w` keeps it:
each call gets as its old value the new value of the call before, however runs of `w` nest in the
evaluation or in the callback. A watcher made while the host keeps no call starts the chain at the
value of its first evaluation. -/
theorem callback_chain (r : Runner η) (calls : η → List (Value × Value)) (w : WatcherId)
    (cb : Closure) :
    (∀ start, (∀ c, Keeps (Machine.Passes calls start w cb) (r.invoke c .none)) →
      (∀ c msg kind info,
        Keeps (Machine.Passes calls start w cb) (r.invoke c (.fault msg kind info))) →
      (∀ n o, Triple (Machine.Calling calls start w cb n o) (r.invoke cb (.change n o))
        fun _ => Machine.Passes calls start w cb) →
      Keeps (Machine.Passes calls start w cb) (Eff.run r w)) ∧
    (∀ scope getter callback (o : Eff.WatcherOptions) render (m mb m₁ : Machine η) v,
      o.lazy = false →
      ExceptT.run (Eff.build scope getter callback o render) m = .ok (.ok w, mb) →
      ExceptT.run (Eff.evaluate r w) { mb with pins := .watcher w :: mb.pins } = .ok (.ok v, m₁) →
      calls m₁.host = [] → (m₁.watcher w).callback = some cb → (m₁.watcher w).dirty = false →
      ∃ m', ExceptT.run (Eff.create r scope getter callback o render) m = .ok (.ok w, m') ∧
        m'.Passes calls v w cb) :=
  ⟨fun _ hnone hfault hcall => Eff.run_passes hnone hfault hcall,
    fun _ _ _ _ _ _ _ _ _ hlazy hbuild heval hcalls hcb hclean =>
      Eff.create_passes hlazy hbuild heval hcalls hcb hclean⟩

/-- A host that keeps every call of closure `1`, newest first, and whose other closures do
nothing: a run of watcher `0` keeps the chain of its calls. -/
theorem callback_chain_recorded :
    let recorder : Runner (List Args) :=
      ⟨fun c a => if c = 1 then do
          modify fun m => { m with host := a :: m.host }
          pure .undefined
        else pure .undefined, 3⟩
    Keeps (Machine.Passes (List.filterMap Args.change?) .undefined ⟨0⟩ 1) (Eff.run recorder ⟨0⟩) := by
  intro recorder
  -- a call of closure `1` with no change keeps nothing new, and a change call records its pair
  have hkeep : ∀ c a, Args.change? a = none →
      Keeps (Machine.Passes (List.filterMap Args.change?) .undefined ⟨0⟩ 1) (recorder.invoke c a) := by
    intro c a ha
    show Keeps _ (if c = 1 then _ else _)
    refine Keeps.ite _ (Keeps.bind (Keeps.modify fun m hm => ?_) fun _ => Keeps.pure _) (Keeps.pure _)
    have hcalls : List.filterMap Args.change? (a :: m.host) = List.filterMap Args.change? m.host := by
      rw [List.filterMap_cons, ha]
    exact ⟨hcalls ▸ hm.chained, hcalls ▸ hm.holds, hm.callback, hm.clean⟩
  refine (callback_chain recorder (List.filterMap Args.change?) ⟨0⟩ 1).1 .undefined
    (fun c => hkeep c _ rfl) (fun c _ _ _ => hkeep c _ rfl) fun n o => ?_
  dsimp only [recorder]
  rw [if_pos rfl]
  have hrecord : Triple (Machine.Calling (List.filterMap Args.change?) .undefined ⟨0⟩ 1 n o)
      (modify fun m => { m with host := Args.change n o :: m.host } : Eff (List Args) Unit)
      fun _ => Machine.Passes (List.filterMap Args.change?) .undefined ⟨0⟩ 1 :=
    Triple.modify _ fun _ hs => ⟨hs.chained, hs.holds, hs.callback, hs.clean⟩
  exact Triple.bind hrecord (fun _ => Triple.pure _ fun _ h => h) fun _ _ h => h

/-- Host code for watcher `0`, with getter `0` and callback `1`. The callback records its
arguments. The getter looks at the state: evaluated outside any other evaluation, for a watcher
that has stored no value yet, it runs the watcher inside itself and then gives `null`;
otherwise it gives `true`. The nested run is the same host code with one level less to go. -/
def nestingHost : Nat → Runner (List Args)
  | 0 => ⟨fun _ _ => pure .undefined, 0⟩
  | n + 1 => ⟨fun c a =>
      if c = 1 then modify (fun m => { m with host := m.host ++ [a] }) *> pure .undefined
      else do
        let m ← get
        match (m.watcher ⟨0⟩).value, m.context with
        | .undefined, [_] => Eff.run (nestingHost n) ⟨0⟩ *> pure .null
        | _, _ => pure (.bool true), 3⟩

/-- Making watcher `0` with `nestingHost`: the first evaluation runs the watcher inside itself,
which gives `true` and passes it with the old value undefined; the evaluation then gives `null`,
which making the watcher stores over the `true`. So the next run passes `true` again, with
`null` as the old value, not the `true` passed last. -/
theorem init_overwrites_nested_run :
    ∃ m₁ m₂, ExceptT.run (Eff.create (nestingHost 2) none (.function 0) (some 1) {} false)
        ({ host := [] } : Machine (List Args)) = .ok (.ok ⟨0⟩, m₁) ∧
      ExceptT.run (Eff.run (nestingHost 2) ⟨0⟩) m₁ = .ok (.ok (), m₂) ∧
      m₂.host = [.change (.bool true) .undefined, .change (.bool true) .null] :=
  ⟨_, _, rfl, rfl, rfl⟩

end Reactivity
