import Reactivity.Proofs.TickBridge
import Reactivity.Proofs.ObjectEdits

/-!
# Where the faults of host code go

An evaluation runs its watcher's getter in the watcher's frame (`Eff.openEval`), settles the
getter's answer (`Eff.routeGetter`) and closes the frame (`Eff.closeEval`), which reports
nothing and runs no host code. A user watcher's getter fault is routed there, once; any other
watcher's is raised by the evaluation, as it came. A run routes a user watcher's callback fault
and raises any other; the step of a flush that runs a watcher, a sync watcher told of a change,
a job of the tick batch and the immediate call of a watch's callback route the fault they meet,
once, with the description of its source and the owning scope, and go on. Making a watcher
raises the fault of its first evaluation instead.

So no fault of host code leaves a notification, a write, a tick, a drain or a flush, and a flush
step or a tick job always hands on to the next (`fault_delivery`).
-/

namespace Reactivity

namespace Eff

variable {η : Type}

/-- The frame an evaluation's getter runs in: the watcher's scope held, and the watcher on top
of the tracking context. -/
def openEval (w : WatcherId) (scope : Option ScopeId) : Eff η Unit := do
  if let some s := scope then pin (.scope s)
  enter (some w)

/-- What an evaluation does once its getter's answer is settled: the reads of a deep value,
leaving the watcher's frame, reconciling its reads and letting its scope go. -/
def closeEval (w : WatcherId) (deep : Bool) (scope : Option ScopeId) (res : Except Fault Value) :
    Eff η Value := do
  if deep then
    if let .ok v := res then traverse v
  leave
  reconcile w
  if scope.isSome then unhold
  match res with
  | .ok v => pure v
  | .error e => fault e

/-- The getter of `w`, run in the watcher's frame from `m`, answers `res` and leaves `m'`. -/
def GetterAnswers (r : Runner η) (fuel : Nat) (w : WatcherId) (m : Machine η)
    (res : Except Fault Value) (m' : Machine η) : Prop :=
  ExceptT.run (do
    openEval w (m.scopeOf w)
    getterValue r fuel (m.watcher w).getter (m.scopeOf w)) m = .ok (res, m')

variable {r : Runner η}

theorem Triple.bind_noFault {P : Machine η → Prop} {Q : Except Fault β → Machine η → Prop}
    {x : Eff η α} {f : α → Eff η β} (hx : NoFault x) (hf : ∀ a, Triple (fun _ => True) (f a) Q) :
    Triple P (x >>= f) Q :=
  Triple.bind_ok (R := fun _ _ => True)
    (Triple.conseq hx (fun _ _ => trivial) fun _ _ ⟨a, ha⟩ => ⟨a, ha, trivial⟩) hf

theorem openEval_noFault (w : WatcherId) (scope : Option ScopeId) :
    NoFault (openEval w scope : Eff η Unit) := by
  unfold openEval
  split
  · exact NoFault.bind (pin_noFault _) fun _ => NoFault.modify _
  · exact NoFault.modify _


/-- How an evaluation settles its getter's answer: the fault of a user watcher's getter is
routed, and the evaluation goes on as if the getter had answered undefined; any other answer
stands. -/
def routeGetter (r : Runner η) (cell : WatcherCell) (scope : Option ScopeId) :
    Except Fault Value → Eff η (Except Fault Value)
  | .error e =>
    if cell.user then do
      handleError r (.getter cell.expression e.message) scope
        ("getter for watcher \"" ++ cell.expression ++ "\"")
      pure (.ok .undefined)
    else pure (.error e)
  | .ok v => pure (.ok v)

theorem evaluateWith_succ (fuel : Nat) (w : WatcherId) : evaluateWith r (fuel + 1) w = (do
    let m ← get
    openEval w (m.scopeOf w)
    let res ← attempt (getterValue r fuel (m.watcher w).getter (m.scopeOf w))
    let res ← routeGetter r (m.watcher w) (m.scopeOf w) res
    closeEval w (m.watcher w).deep (m.scopeOf w) res) := by
  rw [evaluateWith]
  congr 1; funext m
  -- past the getter, its answer goes through the routing and then the closing of the frame
  cases hs : m.scopeOf w with
  | none =>
    simp only [openEval, pure_bind]
    congr 1; funext u; congr 1; funext res
    cases res with
    | error e => by_cases hu : (m.watcher w).user <;> simp [routeGetter, closeEval, hu]
    | ok v => simp [routeGetter, closeEval]
  | some s =>
    simp only [openEval, bind_assoc, pure_bind]
    congr 1; funext u; congr 1; funext u'; congr 1; funext res
    cases res with
    | error e => by_cases hu : (m.watcher w).user <;> simp [routeGetter, closeEval, hu]
    | ok v => simp [routeGetter, closeEval]


/-! ## Closing an evaluation reports nothing -/

/-- The log and the host state are `L` and `H`. -/
def Silent (L : Array Json) (H : η) (m : Machine η) : Prop := m.log = L ∧ m.host = H

theorem settle_silent (L : Array Json) (H : η) : Stays (Silent L H) (settle : Eff η Unit) := by
  refine Stays.modify fun m hm => ?_
  split
  · obtain ⟨ws, ds, ss, -, hc⟩ := m.collect_eq
    simp only [hc]
    exact hm
  · exact hm

theorem leave_silent (L : Array Json) (H : η) : Stays (Silent L H) (leave : Eff η Unit) :=
  Stays.bind (Stays.modify fun _ hm => hm) fun _ => settle_silent L H

theorem unhold_silent (L : Array Json) (H : η) : Stays (Silent L H) (unhold : Eff η Unit) :=
  Stays.bind (Stays.modify fun _ hm => hm) fun _ => settle_silent L H

theorem reconcile_silent (L : Array Json) (H : η) (w : WatcherId) :
    Stays (Silent L H) (reconcile w : Eff η Unit) :=
  Stays.bind Stays.get fun _ => Stays.bind (Stays.forIn_list fun _ _ =>
    Stays.ite _ (Stays.bind (Stays.modify fun _ hm => hm) fun _ => Stays.pure _) (Stays.pure _))
    fun _ => Stays.modify fun _ hm => hm

theorem closeEval_raises (w : WatcherId) (deep : Bool) (scope : Option ScopeId) (e : Fault)
    (m : Machine η) : ∃ m', ExceptT.run (closeEval w deep scope (.error e)) m = .ok (.error e, m') ∧
      m'.log = m.log ∧ m'.host = m.host := by
  have hframe : Stays (Silent m.log m.host) (do
      leave
      reconcile w
      if scope.isSome then unhold : Eff η Unit) :=
    Stays.bind (leave_silent _ _) fun _ => Stays.bind (reconcile_silent _ _ w) fun _ =>
      Stays.ite _ (unhold_silent _ _) (Stays.pure _)
  obtain ⟨_, m', hrun, _, rfl, hs⟩ := hframe m ⟨rfl, rfl⟩
  refine ⟨m', ?_, hs⟩
  have hc : (closeEval w deep scope (.error e) : Eff η Value) = ((do
      leave
      reconcile w
      if scope.isSome then unhold : Eff η Unit) >>= fun _ => fault e) := by
    cases deep <;> cases scope <;> simp [closeEval]
  rw [hc, exec_bind, hrun]
  rfl

/-! ## The getter's answer -/

theorem openEval_run (w : WatcherId) (scope : Option ScopeId) (m : Machine η) :
    ∃ m₀, ExceptT.run (openEval w scope : Eff η Unit) m = .ok (.ok (), m₀) := by
  cases scope <;> exact ⟨_, rfl⟩

theorem GetterAnswers.attempt {fuel : Nat} {w : WatcherId} {m m' : Machine η}
    {res : Except Fault Value} (h : GetterAnswers r fuel w m res m') :
    ExceptT.run (do
      openEval w (m.scopeOf w)
      attempt (getterValue r fuel (m.watcher w).getter (m.scopeOf w))) m = .ok (.ok res, m') := by
  obtain ⟨m₀, h₀⟩ := openEval_run (η := η) w (m.scopeOf w) m
  unfold GetterAnswers at h
  rw [exec_bind, h₀] at h ⊢
  dsimp only at h ⊢
  rw [exec_attempt, h]

theorem evaluateWith_answer {fuel : Nat} {w : WatcherId} {m m' : Machine η}
    {res : Except Fault Value} (h : GetterAnswers r fuel w m res m') :
    ExceptT.run (evaluateWith r (fuel + 1) w) m = ExceptT.run (do
      let res ← routeGetter r (m.watcher w) (m.scopeOf w) res
      closeEval w (m.watcher w).deep (m.scopeOf w) res) m' := by
  rw [evaluateWith_succ, exec_get_bind, ← bind_assoc, exec_bind, h.attempt]

theorem evaluateWith_user_fault {fuel : Nat} {w : WatcherId} {m m' : Machine η} {e : Fault}
    (hu : (m.watcher w).user = true) (h : GetterAnswers r fuel w m (.error e) m') :
    ExceptT.run (evaluateWith r (fuel + 1) w) m = ExceptT.run (do
      handleError r (.getter (m.watcher w).expression e.message) (m.scopeOf w)
        ("getter for watcher \"" ++ (m.watcher w).expression ++ "\"")
      closeEval w (m.watcher w).deep (m.scopeOf w) (.ok .undefined)) m' := by
  rw [evaluateWith_answer h]
  simp only [routeGetter, hu, if_true, bind_assoc, pure_bind]

theorem evaluateWith_other_fault {fuel : Nat} {w : WatcherId} {m m' : Machine η} {e : Fault}
    (hu : (m.watcher w).user = false) (h : GetterAnswers r fuel w m (.error e) m') :
    ExceptT.run (evaluateWith r (fuel + 1) w) m =
      ExceptT.run (closeEval w (m.watcher w).deep (m.scopeOf w) (.error e)) m' := by
  rw [evaluateWith_answer h]
  simp only [routeGetter, hu, Bool.false_eq_true, if_false, pure_bind]

theorem evaluateWith_raises {fuel : Nat} {w : WatcherId} {m m' : Machine η} {e : Fault}
    (hu : (m.watcher w).user = false) (h : GetterAnswers r fuel w m (.error e) m') :
    ∃ m'', ExceptT.run (evaluateWith r (fuel + 1) w) m = .ok (.error e, m'') ∧
      m''.log = m'.log ∧ m''.host = m'.host := by
  rw [evaluateWith_other_fault hu h]
  exact closeEval_raises w _ _ e m'


theorem routeGetter_user {cell : WatcherCell} (hu : cell.user = true) (scope : Option ScopeId)
    (res : Except Fault Value) :
    Triple (fun _ => True) (routeGetter r cell scope res) fun out _ => ∃ v, out = .ok (.ok v) := by
  cases res with
  | error e =>
    simp only [routeGetter, hu, if_true]
    exact Triple.bind_noFault (handleError_noFault _ _ _ _) fun _ => Triple.pure _ fun _ _ => ⟨_, rfl⟩
  | ok v => exact Triple.pure _ fun _ _ => ⟨_, rfl⟩

theorem closeEval_ok_noFault (w : WatcherId) (deep : Bool) (scope : Option ScopeId) (v : Value) :
    NoFault (closeEval w deep scope (.ok v) : Eff η Value) := by
  have hc : (closeEval w deep scope (.ok v) : Eff η Value) = ((do
      if deep then traverse v
      leave
      reconcile w
      if scope.isSome then unhold : Eff η Unit) >>= fun _ => pure v) := by
    cases deep <;> cases scope <;> simp [closeEval]
  have hrest : NoFault (do
      leave
      reconcile w
      if scope.isSome then unhold : Eff η Unit) :=
    NoFault.bind leave_noFault fun _ => NoFault.bind (reconcile_noFault w) fun _ =>
      NoFault.ite _ unhold_noFault (NoFault.pure _)
  rw [hc]
  refine NoFault.bind ?_ fun _ => NoFault.pure _
  dsimp only
  exact NoFault.ite _ (NoFault.bind (traverse_noFault v) fun _ => hrest) hrest

theorem evaluateWith_user (fuel : Nat) (w : WatcherId) :
    Triple (fun m => (m.watcher w).user = true) (evaluateWith r fuel w)
      fun res _ => ∃ v, res = .ok v := by
  cases fuel with
  | zero => exact Triple.halt _
  | succ fuel =>
    rw [evaluateWith_succ]
    refine Triple.bind_get fun m hu => ?_
    refine Triple.bind_noFault (openEval_noFault w (m.scopeOf w)) fun _ => ?_
    refine Triple.bind_noFault (NoFault.attempt _) fun res => ?_
    refine Triple.bind_ok (R := fun out _ => ∃ v, out = .ok v)
      (Triple.conseq (routeGetter_user hu (m.scopeOf w) res) (fun _ _ => trivial)
        fun _ _ ⟨v, hv⟩ => ⟨_, hv, v, rfl⟩) fun out m' ⟨v, hv⟩ => ?_
    subst hv
    exact closeEval_ok_noFault w (m.watcher w).deep (m.scopeOf w) v m' trivial

/-! ## A run of a watcher -/

/-- A run whose evaluation changed the watcher's value, with a callback that faults: a user
watcher's fault is routed once, as a callback fault of the watcher for its scope; any other
watcher's run raises it. -/
theorem run_callback_fault {w : WatcherId} {m m₁ m₂ : Machine η} {v : Value} {cb : Closure}
    {e : Fault} (hact : (m.watcher w).active = true)
    (heval : ExceptT.run (evaluate r w) m = .ok (.ok v, m₁))
    (hchange : (v.same (m₁.watcher w).value && !v.isContainer && !(m.watcher w).deep) = false)
    (hcb : (m.watcher w).callback = some cb)
    (hcall : ExceptT.run (untracked (r.invoke cb (.change v (m₁.watcher w).value)))
      { m₁ with watchers := m₁.watchers.modify w.idx fun c => { c with value := v } } =
        .ok (.error e, m₂)) :
    ExceptT.run (run r w) m = if (m.watcher w).user then
      ExceptT.run (handleError r (.callback (m.watcher w).expression e.message) (m₂.scopeOf w)
        ("callback for watcher \"" ++ (m.watcher w).expression ++ "\"")) m₂
    else .ok (.error e, m₂) := by
  unfold run
  rw [exec_get_bind, if_neg (by simp [hact]), exec_bind, heval]
  dsimp only
  rw [exec_get_bind, if_neg (by simp [hchange])]
  simp only [modifyWatcher, exec_modify_bind, hcb]
  rw [exec_bind, exec_attempt, hcall]
  dsimp only
  split <;> rfl


/-! ## Where the faults of runs go -/

theorem takeStep_run_fault {limit : Nat} {w : WatcherId} {m m₀ m₁ : Machine η} {e : Fault}
    (hb : ExceptT.run (before r w) m = .ok (.ok (), m₀))
    (hrun : ExceptT.run (run r w) m₀ = .ok (.error e, m₁)) :
    ExceptT.run (takeStep r limit w .run) m = ExceptT.run (handleError r e (m₁.scopeOf w)
      ("watcher \"" ++ (m₁.watcher w).expression ++ "\"")) m₁ := by
  simp only [takeStep]
  rw [exec_bind, hb]
  dsimp only
  rw [exec_bind, exec_attempt, hrun]
  dsimp only
  rw [exec_get_bind, exec_get_bind]

theorem takeStep_runaway (limit : Nat) (w : WatcherId) (runs : Nat) (m : Machine η) :
    ExceptT.run (takeStep r limit w (.runaway runs)) m = ExceptT.run
      (handleError r (.runaway w (m.watcher w).expression limit) (m.scopeOf w) "scheduler flush")
      { m with log := m.log.push (.arr [.str "warn", .str "runaway watcher dropped from flush",
        .str ("runs=" ++ toString runs)]) } := by
  simp only [takeStep, report, exec_modify_bind, exec_get_bind]
  rfl

theorem update_sync_fault {w : WatcherId} {m m₁ : Machine η} {e : Fault}
    (hact : (m.watcher w).active = true) (hlazy : (m.watcher w).lazy = false)
    (hsync : (m.watcher w).sync = true) (hrun : ExceptT.run (run r w) m = .ok (.error e, m₁)) :
    ExceptT.run (update r w) m = ExceptT.run (handleError r e (m₁.scopeOf w)
      ("sync watcher \"" ++ (m.watcher w).expression ++ "\"")) m₁ := by
  unfold update
  rw [exec_get_bind, if_neg (by simp [hact])]
  simp only [hlazy, hsync, Bool.false_eq_true, if_false, if_true]
  rw [exec_bind, exec_attempt, hrun]
  rfl


theorem watch_immediate_fault {s : ScopeId} {getter : Getter} {cb : Closure} {o : WatchOptions}
    {m mb m₁ m₂ : Machine η} {w : WatcherId} {v : Value} {e : Fault} (himm : o.immediate = true)
    (hbuild : ExceptT.run (build (some s) getter (some cb)
      { deep := o.deep, user := true, sync := o.sync } false) m = .ok (.ok w, mb))
    (heval : ExceptT.run (evaluate r w) { mb with pins := .watcher w :: mb.pins } =
      .ok (.ok v, m₁))
    (hcall : ExceptT.run (untracked (r.invoke cb (.change v .undefined)))
      { m₁ with watchers := m₁.watchers.modify w.idx fun c => { c with value := v } } =
        .ok (.error e, m₂))
    (hw : w.idx < m₁.watchers.size) :
    ExceptT.run (watch r s getter (some cb) o) m = ExceptT.run (do
      handleError r (.callback (m₁.watcher w).expression e.message) (some s)
        ("callback for immediate watcher \"" ++ (m₁.watcher w).expression ++ "\"")
      pure w) m₂ := by
  unfold watch
  rw [exec_bind, hbuild]
  simp only [pin, exec_modify_bind]
  rw [exec_bind, exec_attempt, heval]
  simp only [modifyWatcher, exec_modify_bind, himm, if_true]
  rw [exec_get_bind, Machine.watcher_modify _ _ _ _ (.inl hw), if_pos rfl, exec_bind,
    exec_attempt, hcall]

theorem run_user (r : Runner η) (w : WatcherId) :
    Triple (fun m => (m.watcher w).user = true) (run r w) fun res _ => ∃ v, res = .ok v := by
  unfold Eff.run
  refine Triple.bind_get fun m hu => ?_
  extract_lets cell
  refine Triple.ite _ (fun _ => Triple.pure _ fun _ _ => ⟨_, rfl⟩) fun _ => ?_
  refine Triple.bind_ok (R := fun _ _ => True)
    (Triple.conseq (evaluateWith_user (r := r) r.fuel w) (fun _ h => h ▸ hu) fun _ _ ⟨v, hv⟩ => ⟨v, hv, trivial⟩)
    fun v => Triple.conseq (?_ : NoFault _) (fun _ _ => trivial) fun _ _ h => h
  refine NoFault.bind NoFault.get fun _ => NoFault.ite _ (NoFault.pure _) ?_
  refine NoFault.bind (NoFault.modify _) fun _ => ?_
  split
  · exact NoFault.pure _
  · refine NoFault.bind (NoFault.attempt _) fun res => ?_
    split
    · exact NoFault.pure _
    · rw [if_pos (show cell.user = true from hu)]
      exact NoFault.bind NoFault.get fun _ => handleError_noFault _ _ _ _

/-! ## Writes raise only their refusals -/

theorem newDep_noFault : NoFault (newDep : Eff η DepId) :=
  NoFault.bind NoFault.get fun _ => NoFault.bind (Triple.set _ fun _ _ => ⟨(), rfl⟩) fun _ =>
    NoFault.pure _

theorem newProp_noFault (p : Property) : NoFault (newProp p : Eff η PropId) :=
  NoFault.bind NoFault.get fun _ => NoFault.bind (Triple.set _ fun _ _ => ⟨(), rfl⟩) fun _ =>
    NoFault.pure _

theorem slot?_noFault (o : ObjRef) (key : String) : NoFault (slot? o key : Eff η (Option Slot)) :=
  NoFault.bind NoFault.get fun _ => NoFault.pure _

theorem objPeek_noFault (o : ObjRef) (key : String) : NoFault (objPeek o key : Eff η Value) := by
  refine NoFault.bind (slot?_noFault o key) fun s => ?_
  split
  · exact NoFault.pure _
  · exact NoFault.bind NoFault.get fun _ => NoFault.pure _
  · exact NoFault.pure _

theorem bumpRoot_noFault (v : Value) : NoFault (bumpRoot v : Eff η Unit) := by
  cases v with
  | obj _ => exact NoFault.modify _
  | list _ => exact NoFault.modify _
  | _ => exact NoFault.pure _

theorem observeWith_defineWith_noFault (fuel : Nat) :
    (∀ v asRoot, NoFault (observeWith fuel v asRoot : Eff η (Option DepId))) ∧
      ∀ o key v hook shallow, NoFault (defineWith fuel o key v hook shallow : Eff η Unit) := by
  induction fuel with
  | zero => exact ⟨fun _ _ => NoFault.halt _, fun _ _ _ _ _ => NoFault.halt _⟩
  | succ fuel ih =>
    refine ⟨fun v asRoot => ?_, fun o key v hook shallow => ?_⟩
    · unfold observeWith
      extract_lets finish
      have hfinish : ∀ d, NoFault (finish d) := fun _ =>
        NoFault.ite _ (NoFault.bind (bumpRoot_noFault v) fun _ => NoFault.pure _) (NoFault.pure _)
      split
      · refine NoFault.bind NoFault.get fun m => ?_
        split
        · exact NoFault.bind (NoFault.pure _) hfinish
        · refine NoFault.ite _ ?_ (NoFault.bind (NoFault.pure _) hfinish)
          -- an object met for the first time gets an observer and its keys become tracked
          exact NoFault.bind newDep_noFault fun _ => NoFault.bind (NoFault.modify _) fun _ =>
            NoFault.bind (NoFault.bind NoFault.get fun _ => NoFault.pure _) fun _ =>
              NoFault.bind (NoFault.forIn_list fun _ _ => NoFault.bind (objPeek_noFault _ _) fun _ =>
                NoFault.bind (ih.2 _ _ _ _ _) fun _ => NoFault.pure _) fun _ =>
              NoFault.bind (NoFault.pure _) hfinish
      · refine NoFault.bind NoFault.get fun m => ?_
        split
        · exact NoFault.bind (NoFault.pure _) hfinish
        · refine NoFault.ite _ ?_ (NoFault.bind (NoFault.pure _) hfinish)
          -- so does a list, whose items are observed
          exact NoFault.bind newDep_noFault fun _ => NoFault.bind (NoFault.modify _) fun _ =>
            NoFault.bind (NoFault.bind NoFault.get fun _ => NoFault.pure _) fun _ =>
              NoFault.bind (NoFault.forIn_list fun _ _ =>
                NoFault.bind (ih.1 _ _) fun _ => NoFault.pure _) fun _ =>
              NoFault.bind (NoFault.pure _) hfinish
      · exact NoFault.bind (NoFault.pure _) hfinish
    · unfold defineWith
      refine NoFault.bind (slot?_noFault o key) fun s => ?_
      extract_lets finish
      have hfinish : ∀ d, NoFault (finish d) := by
        intro d
        dsimp -zeta only [finish]
        extract_lets store
        have hstore : ∀ c, NoFault (store c) := fun _ =>
          NoFault.bind (newProp_noFault _) fun _ => NoFault.modify _
        exact NoFault.ite _ (NoFault.bind (NoFault.pure _) hstore)
          (NoFault.bind (ih.1 _ _) hstore)
      split
      · exact NoFault.bind NoFault.get fun _ => NoFault.bind (NoFault.pure _) hfinish
      · exact NoFault.bind newDep_noFault hfinish

theorem observe_noFault (v : Value) (asRoot : Bool) :
    NoFault (observe v asRoot : Eff η (Option DepId)) :=
  NoFault.bind (NoFault.bind NoFault.get fun _ => NoFault.pure _) fun _ =>
    (observeWith_defineWith_noFault _).1 v asRoot

theorem defineReactive_noFault (o : ObjRef) (key : String) (v : Value)
    (hook : Option AssignHook) (shallow : Bool) :
    NoFault (defineReactive o key v hook shallow : Eff η Unit) :=
  NoFault.bind (NoFault.bind NoFault.get fun _ => NoFault.pure _) fun _ =>
    (observeWith_defineWith_noFault _).2 o key v hook shallow


theorem propSet_noFault (r : Runner η) (p : PropId) (v : Value) : NoFault (propSet r p v) := by
  refine NoFault.bind NoFault.get fun _ => NoFault.ite _ (NoFault.pure _) ?_
  refine NoFault.bind (assign_noFault r _) fun _ => ?_
  extract_lets store
  have hstore : ∀ c, NoFault (store c) := fun _ =>
    NoFault.bind (NoFault.modify _) fun _ => notify_noFault r _
  exact NoFault.ite _ (NoFault.bind (NoFault.pure _) hstore)
    (NoFault.bind (observe_noFault _ _) hstore)

theorem objPut_noFault (r : Runner η) (o : ObjRef) (key : String) (v : Value) :
    NoFault (objPut r o key v) := by
  refine NoFault.bind (slot?_noFault o key) fun _ => ?_
  split
  · exact propSet_noFault r _ v
  · exact NoFault.modify _

theorem mutated_noFault (r : Runner η) (l : ListRef) (added : List Value) :
    NoFault (mutated r l added) := by
  refine NoFault.bind NoFault.get fun _ => ?_
  split
  · exact NoFault.bind (NoFault.forIn_list fun _ _ =>
      NoFault.bind (observe_noFault _ _) fun _ => NoFault.pure _) fun _ => notify_noFault r _
  · exact NoFault.pure _

theorem splice_noFault (r : Runner η) (l : ListRef) (start count : Nat) (added : List Value) :
    NoFault (splice r l start count added) :=
  NoFault.bind (NoFault.bind NoFault.get fun _ => NoFault.pure _) fun _ =>
    NoFault.bind (NoFault.modify _) fun _ => NoFault.bind (mutated_noFault r l added) fun _ =>
      NoFault.pure _

theorem padTo_noFault (l : ListRef) (n : Nat) : NoFault (padTo l n : Eff η Unit) :=
  NoFault.bind (NoFault.bind NoFault.get fun _ => NoFault.pure _) fun _ =>
    NoFault.ite _ (NoFault.modify _) (NoFault.pure _)


theorem hasOwn_noFault (o : ObjRef) (key : String) : NoFault (hasOwn o key : Eff η Bool) :=
  NoFault.bind NoFault.get fun _ => NoFault.pure _

theorem rootCount_noFault (o : ObjRef) : NoFault (rootCount o : Eff η Nat) :=
  NoFault.bind NoFault.get fun _ => NoFault.pure _

theorem NoFault.faults {x : Eff η α} (h : NoFault x) (F : Fault → Prop) :
    Triple (fun _ => True) x fun res _ => ∀ e, res = .error e → F e :=
  Triple.conseq h (fun _ h => h) fun _ _ ⟨_, ha⟩ _ he => by cases ha.symm.trans he

theorem set_obj_noFault (r : Runner η) (o : ObjRef) (key : Key) (v : Value) :
    NoFault (set r (.obj o) key v) := by
  unfold set
  refine NoFault.bind (hasOwn_noFault _ _) fun _ => ?_
  extract_lets fresh
  have hfresh : ∀ u, NoFault (fresh u) := fun _ => NoFault.pure _
  refine NoFault.ite _ (NoFault.bind (objPut_noFault r _ _ _) fun _ => NoFault.pure _) ?_
  refine NoFault.bind (rootCount_noFault _) fun _ =>
    NoFault.ite _ (NoFault.bind (warn_noFault _) fun _ => NoFault.pure _) ?_
  refine NoFault.bind NoFault.get fun _ => ?_
  split
  · exact NoFault.bind (objPut_noFault r _ _ _) hfresh
  · exact NoFault.bind (defineReactive_noFault _ _ _ _ _) fun _ =>
      NoFault.bind (notify_noFault r _) hfresh

theorem set_refuses (r : Runner η) (target : Value) (key : Key) (v : Value) :
    Triple (fun _ => True) (set r target key v) fun res _ => ∀ e, res = .error e →
      e = .notContainer "set" target.kind ∨ e = .invalidKey key.toName "array" := by
  cases target with
  | obj o => exact NoFault.faults (set_obj_noFault r o key v) _
  | list l =>
    dsimp only [set]
    split
    · exact Triple.fault _ fun _ _ _ he => Or.inr (Except.error.inj he).symm
    · exact NoFault.faults (NoFault.bind (padTo_noFault _ _) fun _ =>
        NoFault.bind (splice_noFault r _ _ _ _) fun _ => NoFault.pure _) _
  | _ => exact Triple.fault _ fun _ _ _ he => Or.inl (Except.error.inj he).symm

theorem remove_refuses (r : Runner η) (target : Value) (key : Key) :
    Triple (fun _ => True) (remove r target key) fun res _ => ∀ e, res = .error e →
      e = .notContainer "delete" target.kind ∨ e = .invalidKey key.toName "array" := by
  cases target with
  | obj o =>
    refine NoFault.faults ?_ _
    dsimp only [remove]
    refine NoFault.bind NoFault.get fun m => NoFault.bind (rootCount_noFault _) fun _ =>
      NoFault.ite _ (NoFault.bind (warn_noFault _) fun _ => NoFault.pure _) ?_
    refine NoFault.bind (hasOwn_noFault _ _) fun _ => NoFault.ite _ (NoFault.pure _) ?_
    refine NoFault.bind (NoFault.modify _) fun _ => ?_
    split
    · exact notify_noFault r _
    · exact NoFault.pure _
  | list l =>
    dsimp only [remove]
    split
    · exact Triple.fault _ fun _ _ _ he => Or.inr (Except.error.inj he).symm
    · exact NoFault.faults (NoFault.bind (NoFault.bind NoFault.get fun _ => NoFault.pure _)
        fun _ => NoFault.ite _ (NoFault.bind (splice_noFault r _ _ _ _) fun _ => NoFault.pure _)
          (NoFault.pure _)) _
  | _ => exact Triple.fault _ fun _ _ _ he => Or.inl (Except.error.inj he).symm


theorem updateProps_noFault (r : Runner η) (s : ScopeId) (props : List (String × Value)) :
    NoFault (updateProps r s props) :=
  NoFault.bind (NoFault.modify _) fun _ => NoFault.bind (NoFault.forIn_list fun _ _ =>
    NoFault.bind NoFault.get fun _ => NoFault.bind (hasOwn_noFault _ _) fun _ =>
      NoFault.ite _ (NoFault.bind (objPut_noFault r _ _ _) fun _ => NoFault.pure _)
        (NoFault.pure _)) fun _ => NoFault.modify _

theorem forceUpdate_noFault (r : Runner η) (s : ScopeId) : NoFault (forceUpdate r s) := by
  refine NoFault.bind NoFault.get fun _ => ?_
  split
  · exact update_noFault r _
  · exact NoFault.pure _

/-! ## Batches go on -/

theorem FlushQueue.pick_ne_none {q : FlushQueue} (L : Nat) (h : q.index < q.queue.size) :
    q.pick L ≠ none := by
  unfold FlushQueue.pick
  simp only [Array.getElem?_eq_getElem h, Option.bind_eq_bind, Option.bind_some]
  split_ifs <;> simp


theorem flushStep_goesOn (r : Runner η) (L : Nat) :
    Triple (fun m => m.queue.index < m.queue.queue.size) (flushStep r L)
      fun res _ => res = .ok true := by
  refine Triple.bind_get fun m hi => ?_
  split
  · rename_i hnone
    exact absurd hnone (FlushQueue.pick_ne_none L hi)
  · exact Triple.bind_noFault (NoFault.modify _) fun _ =>
      Triple.bind_noFault (takeStep_noFault r _ _) fun _ =>
      Triple.bind_noFault (NoFault.modify _) fun _ => Triple.pure _ fun _ _ => rfl

theorem pending_noFault : NoFault (pending : Eff η Bool) :=
  NoFault.bind NoFault.get fun _ => NoFault.pure _

theorem drainFrom_noFault (bound total : Nat) : NoFault (drainFrom r bound total) := by
  induction bound generalizing total with
  | zero =>
    refine NoFault.bind pending_noFault fun _ => ?_
    dsimp only
    exact NoFault.ite _ (NoFault.bind (NoFault.halt _) fun _ => NoFault.pure _) (NoFault.pure _)
  | succ bound ih =>
    exact NoFault.bind pending_noFault fun _ =>
      NoFault.ite _ (NoFault.pure _) (NoFault.bind (tick_noFault r) fun _ => ih _)

theorem drain_noFault (r : Runner η) : NoFault (drain r) := by
  rw [drain_eq]
  exact drainFrom_noFault _ _

theorem build_noFault (scope : Option ScopeId) (getter : Getter) (callback : Option Closure)
    (o : WatcherOptions) (render : Bool) :
    NoFault (build scope getter callback o render : Eff η WatcherId) := by
  refine NoFault.bind NoFault.get fun _ => NoFault.bind (Triple.set _ fun _ _ => ⟨(), rfl⟩) fun _ => ?_
  extract_lets done_
  have hdone : ∀ u, NoFault (done_ u) := fun _ => NoFault.pure _
  split
  · -- a watcher of a scope joins its list, and a render watcher becomes the scope's one
    extract_lets listed
    have hlisted : ∀ u, NoFault (listed u) := fun _ => NoFault.bind (NoFault.modify _) hdone
    exact NoFault.ite _ (NoFault.bind (NoFault.modify _) fun _ =>
      NoFault.bind (NoFault.modify _) hlisted) (hlisted ())
  · exact hdone ()

theorem watch_noFault (r : Runner η) (s : ScopeId) (getter : Getter) (callback : Option Closure)
    (o : WatchOptions) : NoFault (watch r s getter callback o) := by
  unfold watch
  refine NoFault.bind (build_noFault _ _ _ _ _) fun w => NoFault.bind (pin_noFault _) fun _ => ?_
  refine NoFault.bind (NoFault.attempt _) fun res => ?_
  extract_lets done_ immediate
  have hdone : ∀ u, NoFault (done_ u) := fun _ => NoFault.pure _
  have himmediate : ∀ u, NoFault (immediate u) := by
    intro u
    dsimp -zeta only [immediate]
    refine NoFault.ite _ ?_ (hdone ())
    split
    · refine NoFault.bind NoFault.get fun _ => NoFault.bind (NoFault.attempt _) fun res => ?_
      split
      · exact NoFault.bind (handleError_noFault _ _ _ _) hdone
      · exact hdone ()
    · exact hdone ()
  split
  · exact NoFault.bind (NoFault.modify _) himmediate
  · exact NoFault.bind NoFault.get fun _ => NoFault.bind (handleError_noFault _ _ _ _) himmediate


/-! ## Faults handed back to the caller -/

theorem teardown_silent (L : Array Json) (H : η) (w : WatcherId) :
    Stays (Silent L H) (teardown w : Eff η Unit) := by
  unfold teardown
  refine Stays.bind Stays.get fun m => Stays.ite _ (Stays.pure _) ?_
  extract_lets rest
  have hrest : ∀ u, Stays (Silent L H) (rest u) := fun _ =>
    Stays.bind Stays.get fun _ => Stays.bind (Stays.forIn_list fun _ _ =>
      Stays.bind (Stays.modify fun _ hm => hm) fun _ => Stays.pure _) fun _ =>
        Stays.modify fun _ hm => hm
  split
  · refine Stays.ite _ (Stays.bind ?_ hrest) (hrest ())
    exact Stays.bind (Stays.modify fun _ hm => hm) fun _ =>
      Stays.bind (Stays.modify fun _ hm => hm) fun _ => settle_silent L H
  · exact hrest ()

theorem create_returns {scope : Option ScopeId} {getter : Getter} {callback : Option Closure}
    {o : WatcherOptions} {render : Bool} {m mb m₁ : Machine η} {w : WatcherId} {e : Fault}
    (hlazy : o.lazy = false)
    (hbuild : ExceptT.run (build scope getter callback o render) m = .ok (.ok w, mb))
    (heval : ExceptT.run (evaluate r w) { mb with pins := .watcher w :: mb.pins } =
      .ok (.error e, m₁)) :
    ∃ m₂, ExceptT.run (create r scope getter callback o render) m = .ok (.error e, m₂) ∧
      m₂.log = m₁.log ∧ m₂.host = m₁.host := by
  have hclose : Stays (Silent m₁.log m₁.host)
      ((teardown w >>= fun _ => release) >>= fun _ => unhold : Eff η Unit) :=
    Stays.bind (Stays.bind (teardown_silent _ _ w) fun _ => Stays.modify fun _ hm => hm) fun _ =>
      unhold_silent _ _
  obtain ⟨_, m₂, hrun, _, rfl, hs⟩ := hclose m₁ ⟨rfl, rfl⟩
  refine ⟨m₂, ?_, hs⟩
  unfold create pin
  rw [exec_bind, hbuild]
  dsimp only
  rw [exec_modify_bind, if_pos (by simp [hlazy]), exec_bind, exec_attempt, heval]
  dsimp only
  rw [← bind_assoc, ← bind_assoc, exec_bind, hrun]
  rfl

end Eff

/-- Where the faults of host code go. The fault of a user watcher's getter or callback, of a
watcher run by a flush or by a change of a sync watcher, a runaway in a flush, the fault of a
next-tick callback and of an immediate callback are each routed once, for the owning scope,
with the description of their source, and the work goes on; the fault of any other watcher's
getter or callback, and of a watcher's first evaluation, is raised to the caller instead,
unreported. Notifications, writes, updates of props, forced updates, ticks, drains, flushes
and watches raise no fault, writes of keys only their own refusals, and neither a step of a
flush nor a job of a tick batch ends with a fault. -/
structure FaultDelivery (r : Runner η) : Prop where
  getterRouted : ∀ fuel w (m m' : Machine η) e, (m.watcher w).user = true →
    Eff.GetterAnswers r fuel w m (.error e) m' →
    ExceptT.run (Eff.evaluateWith r (fuel + 1) w) m = ExceptT.run (do
      Eff.handleError r (.getter (m.watcher w).expression e.message) (m.scopeOf w)
        ("getter for watcher \"" ++ (m.watcher w).expression ++ "\"")
      Eff.closeEval w (m.watcher w).deep (m.scopeOf w) (.ok .undefined)) m'
  getterRaised : ∀ fuel w (m m' : Machine η) e, (m.watcher w).user = false →
    Eff.GetterAnswers r fuel w m (.error e) m' →
    ∃ m'', ExceptT.run (Eff.evaluateWith r (fuel + 1) w) m = .ok (.error e, m'') ∧
      m''.log = m'.log ∧ m''.host = m'.host
  userEvaluates : ∀ fuel w, Triple (fun m : Machine η => (m.watcher w).user = true)
    (Eff.evaluateWith r fuel w) fun res _ => ∃ v, res = .ok v
  callbackRouted : ∀ w (m m₁ m₂ : Machine η) v cb e, (m.watcher w).active = true →
    ExceptT.run (Eff.evaluate r w) m = .ok (.ok v, m₁) →
    (v.same (m₁.watcher w).value && !v.isContainer && !(m.watcher w).deep) = false →
    (m.watcher w).callback = some cb →
    ExceptT.run (Eff.untracked (r.invoke cb (.change v (m₁.watcher w).value)))
      { m₁ with watchers := m₁.watchers.modify w.idx fun c => { c with value := v } } =
        .ok (.error e, m₂) →
    ExceptT.run (Eff.run r w) m = if (m.watcher w).user then
      ExceptT.run (Eff.handleError r (.callback (m.watcher w).expression e.message) (m₂.scopeOf w)
        ("callback for watcher \"" ++ (m.watcher w).expression ++ "\"")) m₂
    else .ok (.error e, m₂)
  userRuns : ∀ w, Triple (fun m : Machine η => (m.watcher w).user = true) (Eff.run r w)
    fun res _ => ∃ v, res = .ok v
  flushRouted : ∀ limit w (m m₀ m₁ : Machine η) e,
    ExceptT.run (Eff.before r w) m = .ok (.ok (), m₀) →
    ExceptT.run (Eff.run r w) m₀ = .ok (.error e, m₁) →
    ExceptT.run (Eff.takeStep r limit w .run) m = ExceptT.run (Eff.handleError r e (m₁.scopeOf w)
      ("watcher \"" ++ (m₁.watcher w).expression ++ "\"")) m₁
  runawayRouted : ∀ limit w runs (m : Machine η),
    ExceptT.run (Eff.takeStep r limit w (.runaway runs)) m = ExceptT.run
      (Eff.handleError r (.runaway w (m.watcher w).expression limit) (m.scopeOf w)
        "scheduler flush")
      { m with log := m.log.push (.arr [.str "warn", .str "runaway watcher dropped from flush",
        .str ("runs=" ++ toString runs)]) }
  syncRouted : ∀ w (m m₁ : Machine η) e, (m.watcher w).active = true →
    (m.watcher w).lazy = false → (m.watcher w).sync = true →
    ExceptT.run (Eff.run r w) m = .ok (.error e, m₁) →
    ExceptT.run (Eff.update r w) m = ExceptT.run (Eff.handleError r e (m₁.scopeOf w)
      ("sync watcher \"" ++ (m.watcher w).expression ++ "\"")) m₁
  tickRouted : ∀ c scope (m m' : Machine η) e,
    ExceptT.run (r.invoke c .none) m = .ok (.error e, m') →
    ExceptT.run (Eff.runJob r (.call c scope)) m =
      ExceptT.run (Eff.handleError r e (scope.bind m'.alive) "nextTick") m'
  immediateRouted : ∀ s getter cb (o : Eff.WatchOptions) (m mb m₁ m₂ : Machine η) w v e,
    o.immediate = true →
    ExceptT.run (Eff.build (some s) getter (some cb)
      { deep := o.deep, user := true, sync := o.sync } false) m = .ok (.ok w, mb) →
    ExceptT.run (Eff.evaluate r w) { mb with pins := .watcher w :: mb.pins } =
      .ok (.ok v, m₁) →
    ExceptT.run (Eff.untracked (r.invoke cb (.change v .undefined)))
      { m₁ with watchers := m₁.watchers.modify w.idx fun c => { c with value := v } } =
        .ok (.error e, m₂) →
    w.idx < m₁.watchers.size →
    ExceptT.run (Eff.watch r s getter (some cb) o) m = ExceptT.run (do
      Eff.handleError r (.callback (m₁.watcher w).expression e.message) (some s)
        ("callback for immediate watcher \"" ++ (m₁.watcher w).expression ++ "\"")
      pure w) m₂
  createRaises : ∀ scope getter callback (o : Eff.WatcherOptions) render (m mb m₁ : Machine η) w e,
    o.lazy = false →
    ExceptT.run (Eff.build scope getter callback o render) m = .ok (.ok w, mb) →
    ExceptT.run (Eff.evaluate r w) { mb with pins := .watcher w :: mb.pins } =
      .ok (.error e, m₁) →
    ∃ m₂, ExceptT.run (Eff.create r scope getter callback o render) m = .ok (.error e, m₂) ∧
      m₂.log = m₁.log ∧ m₂.host = m₁.host
  contained : ∀ d p v o key s props getter callback (wo : Eff.WatchOptions),
    NoFault (Eff.notify r d) ∧ NoFault (Eff.propSet r p v) ∧ NoFault (Eff.objPut r o key v) ∧
    NoFault (Eff.updateProps r s props) ∧ NoFault (Eff.forceUpdate r s) ∧
    NoFault (Eff.tick r) ∧ NoFault (Eff.drain r) ∧ NoFault (Eff.flush r) ∧
    NoFault (Eff.watch r s getter callback wo)
  refusals : ∀ target key v,
    Triple (fun _ => True) (Eff.set r target key v) (fun res _ => ∀ e, res = .error e →
      e = .notContainer "set" target.kind ∨ e = .invalidKey key.toName "array") ∧
    Triple (fun _ => True) (Eff.remove r target key) (fun res _ => ∀ e, res = .error e →
      e = .notContainer "delete" target.kind ∨ e = .invalidKey key.toName "array")
  goesOn : (∀ limit, Triple (fun m : Machine η => m.queue.index < m.queue.queue.size)
      (Eff.flushStep r limit) fun res _ => res = .ok true) ∧
    ∀ job, NoFault (Eff.runJob r job)

theorem fault_delivery (r : Runner η) : FaultDelivery r where
  getterRouted _ _ _ _ _ hu h := Eff.evaluateWith_user_fault hu h
  getterRaised _ _ _ _ _ hu h := Eff.evaluateWith_raises hu h
  userEvaluates := Eff.evaluateWith_user
  callbackRouted _ _ _ _ _ _ _ hact heval hchange hcb hcall :=
    Eff.run_callback_fault hact heval hchange hcb hcall
  userRuns := Eff.run_user r
  flushRouted _ _ _ _ _ _ hb hrun := Eff.takeStep_run_fault hb hrun
  runawayRouted := Eff.takeStep_runaway
  syncRouted _ _ _ _ hact hlazy hsync hrun := Eff.update_sync_fault hact hlazy hsync hrun
  tickRouted c scope _ _ _ h := Eff.runJob_call_fault c scope h
  immediateRouted _ _ _ _ _ _ _ _ _ _ _ himm hbuild heval hcall hw :=
    Eff.watch_immediate_fault himm hbuild heval hcall hw
  createRaises _ _ _ _ _ _ _ _ _ _ hlazy hbuild heval := Eff.create_returns hlazy hbuild heval
  contained d p v o key s props getter callback wo :=
    ⟨Eff.notify_noFault r d, Eff.propSet_noFault r p v, Eff.objPut_noFault r o key v,
      Eff.updateProps_noFault r s props, Eff.forceUpdate_noFault r s, Eff.tick_noFault r,
      Eff.drain_noFault r, Eff.flush_noFault r, Eff.watch_noFault r s getter callback wo⟩
  refusals target key v := ⟨Eff.set_refuses r target key v, Eff.remove_refuses r target key⟩
  goesOn := ⟨Eff.flushStep_goesOn r, Eff.runJob_noFault r⟩

end Reactivity
