import Reactivity.Proofs.FaultDelivery

/-!
# What an evaluation reads

A read is recorded for the innermost watcher of the tracking context and for no other: once,
at the end of its reads under way, while it is active and the set exists
(`Eff.depend_newDeps`). A masked frame or another watcher on top of the context keeps a read
from the watchers below it.

An evaluation opens a frame for its watcher (`Eff.openEval`), runs the getter in it and
settles the getter's answer (`Eff.inFrame`), and closes it (`Eff.closeFrame`): the reads under
way become the watcher's reads, and the watcher leaves every set it no longer reads. What the
engine runs inside the frame only adds reads at the end of those under way
(`Machine.Recording`), so none is lost on the way as long as the getter neither evaluates the
watcher again nor tears it down.
-/

namespace Reactivity

variable {η : Type}

namespace Machine

/-- `w` is active, its reads under way extend `P`, its last reads are `D`, and the tracking
context is `K`. -/
structure Recording (w : WatcherId) (P D : List DepId) (K : List (Option WatcherId))
    (m : Machine η) : Prop where
  reads : P <+: (m.watcher w).newDeps
  deps : (m.watcher w).deps = D
  active : (m.watcher w).active = true
  context : m.context = K

theorem Recording.of_cell {w : WatcherId} {P D : List DepId} {K : List (Option WatcherId)}
    {m m' : Machine η} (h : m.Recording w P D K)
    (hn : (m'.watcher w).newDeps = (m.watcher w).newDeps)
    (hd : (m'.watcher w).deps = (m.watcher w).deps)
    (ha : (m'.watcher w).active = (m.watcher w).active) (hc : m'.context = m.context) :
    m'.Recording w P D K :=
  ⟨hn ▸ h.reads, hd ▸ h.deps, ha ▸ h.active, hc ▸ h.context⟩

/-- The last reads of `w` are `D`, and its reads under way are `N`. -/
def HasReads (w : WatcherId) (D N : List DepId) (m : Machine η) : Prop :=
  (m.watcher w).deps = D ∧ (m.watcher w).newDeps = N

end Machine

namespace Eff

/-- A read is recorded for the watcher on top of the tracking context, at the end of its reads
under way, if it is active, has not read the set in this evaluation, and the set exists; no
other watcher's reads change. -/
theorem depend_newDeps (d : DepId) (m : Machine η) :
    ∃ m', ExceptT.run (depend d) m = .ok (.ok (), m') ∧ m.Records m' ∧
      ∀ w, (m'.watcher w).newDeps =
        if m.target = some w ∧ (m.watcher w).active = true ∧ d ∉ (m.watcher w).newDeps ∧
          d.idx < m.deps.size
        then (m.watcher w).newDeps ++ [d] else (m.watcher w).newDeps := by
  unfold depend
  rw [exec_get_bind]
  rcases ht : m.target with _ | t
  · refine ⟨m, rfl, Machine.Records.refl m, fun w => ?_⟩
    rw [if_neg (fun h => nomatch h.1)]
  dsimp only
  by_cases hg : ((m.watcher t).active && !(m.watcher t).newDeps.contains d &&
      decide (d.idx < m.deps.size)) = true
  · rw [if_pos hg]
    simp only [Bool.and_eq_true, Bool.not_eq_true', decide_eq_true_eq] at hg
    obtain ⟨⟨hact, hnew⟩, hlt⟩ := hg
    have hnew' : d ∉ (m.watcher t).newDeps := by simpa using hnew
    set m₁ : Machine η := { m with watchers := m.watchers.modify t.idx fun c =>
        { c with newDeps := c.newDeps ++ [d] } } with hm₁
    have hcell : ∀ w, m₁.watcher w =
        if w = t then { m.watcher w with newDeps := (m.watcher w).newDeps ++ [d] }
        else m.watcher w := fun w => Machine.watcher_modify _ _ _ _ (.inl (Machine.lt_of_active hact))
    have hrec : m.Records m₁ := by
      refine ⟨rfl, rfl, ?_, ?_, ?_, ?_, ?_⟩ <;> intro w <;> rw [hcell] <;> split <;> simp
    have hnd : ∀ w, (m₁.watcher w).newDeps =
        if some t = some w ∧ (m.watcher w).active = true ∧ d ∉ (m.watcher w).newDeps ∧
          d.idx < m.deps.size
        then (m.watcher w).newDeps ++ [d] else (m.watcher w).newDeps := by
      intro w
      rw [hcell]
      by_cases hw : w = t
      · subst hw
        simp [hact, hnew', hlt]
      · simp [hw, Ne.symm hw]
    unfold modifyWatcher
    rw [exec_modify_bind]
    split
    · refine ⟨_, rfl, hrec.trans (.of_watchers rfl Array.size_modify rfl), fun w => ?_⟩
      rw [Machine.watcher_eq_of_watchers_eq rfl]
      exact hnd w
    · exact ⟨m₁, rfl, hrec, hnd⟩
  · rw [if_neg hg]
    refine ⟨m, rfl, Machine.Records.refl m, fun w => ?_⟩
    rw [if_neg]
    rintro ⟨⟨⟩, hact, hnew, hlt⟩
    exact hg (by simp [hact, hnew, hlt])

end Eff

namespace Stable

variable {w : WatcherId} {P D : List DepId} {K : List (Option WatcherId)}

theorem recording_base (w : WatcherId) (P D : List DepId) (K : List (Option WatcherId)) :
    Base (Machine.Recording (η := η) w P D K) := by
  have hframe : ∀ m m' : Machine η, m.Recording w P D K → m'.watchers = m.watchers →
      m'.context = m.context → m'.Recording w P D K := fun m m' hm hw hc => by
    have h := Machine.watcher_eq_of_watchers_eq hw w
    exact hm.of_cell (by rw [h]) (by rw [h]) (by rw [h]) hc
  have hsettle : Keeps (Machine.Recording w P D K) (Eff.settle : Eff η Unit) := by
    refine Keeps.modify fun m hm => ?_
    split
    · obtain ⟨b, hb⟩ := m.collect_watcher w
      obtain ⟨_, _, _, -, hc⟩ := m.collect_eq
      -- collection only marks the watcher dropped, and keeps the tracking context
      refine hm.of_cell ?_ ?_ ?_ ?_
      · show (m.collect.watcher w).newDeps = _
        rw [hb]
      · show (m.collect.watcher w).deps = _
        rw [hb]
      · show (m.collect.watcher w).active = _
        rw [hb]
      · show m.collect.context = m.context
        rw [hc]
    · exact hm
  refine ⟨fun d => ?_, fun _ => Keeps.modify fun m hm => hframe m _ hm rfl rfl,
    Keeps.modify fun m hm => hframe m _ hm rfl rfl, hsettle,
    Keeps.bind (Keeps.modify fun m hm => hframe m _ hm rfl rfl) fun _ => hsettle,
    fun _ => Keeps.modify fun m hm => hframe m _ hm rfl rfl⟩
  intro m hm r m' hrun
  obtain ⟨m₁, hrun₁, hrec, hnd⟩ := Eff.depend_newDeps d m
  rw [hrun₁] at hrun
  cases hrun
  refine ⟨?_, (hrec.deps w).trans hm.deps, (hrec.active w).trans hm.active,
    hrec.context.trans hm.context⟩
  rw [hnd w]
  split
  · exact hm.reads.trans (List.prefix_append _ _)
  · exact hm.reads

end Stable

namespace Eff

variable {r : Runner η}

/-- What an evaluation runs with its watcher's frame open: the getter, the settling of its
answer, and the reads of a deep value. -/
def inFrame (r : Runner η) (fuel : Nat) (cell : WatcherCell) (scope : Option ScopeId) :
    Eff η (Except Fault Value) := do
  let res ← attempt (getterValue r fuel cell.getter scope)
  let res ← routeGetter r cell scope res
  if cell.deep then
    if let .ok v := res then traverse v
  pure res

/-- Closing an evaluation's frame: leaving it, reconciling the watcher's reads, letting its
scope go, and handing back the answer. -/
def closeFrame (w : WatcherId) (scope : Option ScopeId) (res : Except Fault Value) :
    Eff η Value := do
  leave
  reconcile w
  if scope.isSome then unhold
  match res with
  | .ok v => pure v
  | .error e => fault e

theorem evaluateWith_frame (fuel : Nat) (w : WatcherId) : evaluateWith r (fuel + 1) w = (do
    let m ← get
    openEval w (m.scopeOf w)
    let res ← inFrame r fuel (m.watcher w) (m.scopeOf w)
    closeFrame w (m.scopeOf w) res) := by
  rw [evaluateWith_succ]
  congr 1; funext m
  congr 1; funext u
  -- the deep reads move from the start of `closeEval` to the end of the frame
  simp only [inFrame, bind_assoc]
  congr 1; funext res
  congr 1; funext res'
  cases (m.watcher w).deep <;> cases res' <;> simp [closeEval, closeFrame]

theorem run_bind_of_noFault {α β : Type} {x : Eff η α} {f : α → Eff η β} (hx : NoFault x) {m m' : Machine η}
    {out : Except Fault β} (h : ExceptT.run (x >>= f) m = .ok (out, m')) :
    ∃ a m₁, ExceptT.run x m = .ok (.ok a, m₁) ∧ ExceptT.run (f a) m₁ = .ok (out, m') := by
  rw [exec_bind] at h
  rcases hrun : ExceptT.run x m with _ | ⟨_ | a, m₁⟩
  · rw [hrun] at h
    cases h
  · obtain ⟨_, ha⟩ := hx m trivial _ _ hrun
    cases ha
  · rw [hrun] at h
    exact ⟨a, m₁, rfl, h⟩

theorem inFrame_noFault (r : Runner η) (fuel : Nat) (cell : WatcherCell) (scope : Option ScopeId) :
    NoFault (inFrame r fuel cell scope) := by
  refine NoFault.bind (NoFault.attempt _) fun res => NoFault.bind ?_ fun res => ?_
  · cases res with
    | error e =>
      exact NoFault.ite _ (NoFault.bind (handleError_noFault r _ _ _) fun _ => NoFault.pure _)
        (NoFault.pure _)
    | ok v => exact NoFault.pure _
  · dsimp only
    refine NoFault.ite _ ?_ (NoFault.pure _)
    split
    · exact NoFault.bind (traverse_noFault _) fun _ => NoFault.pure _
    · exact NoFault.pure _

section Recording

variable {w : WatcherId} {P D : List DepId} {K : List (Option WatcherId)}

theorem routeGetter_recording
    (hhooks : ∀ c msg kind info, Keeps (Machine.Recording w P D K) (r.invoke c (.fault msg kind info)))
    (cell : WatcherCell) (scope : Option ScopeId) (res : Except Fault Value) :
    Keeps (Machine.Recording w P D K) (routeGetter r cell scope res) := by
  cases res with
  | error e =>
    exact Keeps.ite _ (Keeps.bind ((Stable.recording_base w P D K).handleError hhooks _ _ _)
      fun _ => Keeps.pure _) (Keeps.pure _)
  | ok v => exact Keeps.pure _

theorem inFrame_recording
    (hhooks : ∀ c msg kind info, Keeps (Machine.Recording w P D K) (r.invoke c (.fault msg kind info)))
    {fuel : Nat} {cell : WatcherCell} {scope : Option ScopeId}
    (hget : Keeps (Machine.Recording w P D K) (getterValue r fuel cell.getter scope)) :
    Keeps (Machine.Recording w P D K) (inFrame r fuel cell scope) := by
  refine Keeps.bind (Keeps.attempt hget) fun res =>
    Keeps.bind (routeGetter_recording hhooks cell scope res) fun res => ?_
  dsimp only
  refine Keeps.ite _ ?_ (Keeps.pure _)
  split
  · exact Keeps.bind ((Stable.recording_base w P D K).traverse _) fun _ => Keeps.pure _
  · exact Keeps.pure _

end Recording

/-! ## Closing the frame -/

theorem openEval_frame (w : WatcherId) (scope : Option ScopeId) (m : Machine η) :
    ∃ m₁, ExceptT.run (openEval w scope : Eff η Unit) m = .ok (.ok (), m₁) ∧
      m₁.watchers = m.watchers ∧ m₁.deps = m.deps ∧ m₁.context = some w :: m.context := by
  cases scope <;> exact ⟨_, rfl, rfl, rfl, rfl⟩

theorem reconcile_watcher (w : WatcherId) (m : Machine η) :
    ∃ m', ExceptT.run (reconcile w) m = .ok (.ok (), m') ∧
      m'.watcher w = { m.watcher w with deps := (m.watcher w).newDeps, newDeps := [] } := by
  unfold reconcile
  rw [exec_get_bind, exec_bind,
    forIn_removeSub_run w (fun d => !(m.watcher w).newDeps.contains d) (fun _ => rfl)]
  refine ⟨_, rfl, ?_⟩
  rw [Machine.watcher_modify _ _ _ _ (.inr rfl), if_pos rfl,
    Machine.watcher_eq_of_watchers_eq (Machine.foldl_unsubscribe_watchers _ _)]

section Reads

variable {w : WatcherId} {D N : List DepId}

theorem settle_hasReads : Keeps (Machine.HasReads w D N) (settle : Eff η Unit) := by
  refine Keeps.modify fun m hm => ?_
  split
  · obtain ⟨b, hb⟩ := m.collect_watcher w
    show (m.collect.watcher w).deps = D ∧ (m.collect.watcher w).newDeps = N
    rw [hb]
    exact hm
  · exact hm

theorem leave_hasReads : Keeps (Machine.HasReads w D N) (leave : Eff η Unit) :=
  Keeps.bind (Keeps.modify fun _ h => h) fun _ => settle_hasReads

theorem unhold_hasReads : Keeps (Machine.HasReads w D N) (unhold : Eff η Unit) :=
  Keeps.bind (Keeps.modify fun _ h => h) fun _ => settle_hasReads

theorem reconcile_hasReads :
    Triple (Machine.HasReads w D N) (reconcile w : Eff η Unit)
      fun r m => ∃ u, r = .ok u ∧ m.HasReads w N [] := by
  intro m hm r m' hrun
  obtain ⟨m₁, h₁, hw⟩ := reconcile_watcher w m
  rw [h₁] at hrun
  cases hrun
  refine ⟨(), rfl, ?_, ?_⟩
  · rw [hw]
    exact hm.2
  · rw [hw]

theorem closeFrame_reads (w : WatcherId) (scope : Option ScopeId) (res : Except Fault Value) :
    Triple (Machine.HasReads w D N) (closeFrame w scope res : Eff η Value)
      fun out m => out = res ∧ m.HasReads w N [] := by
  have hanswer : Triple (Machine.HasReads w N [])
      (match res with
        | .ok v => pure v
        | .error e => fault e : Eff η Value) fun out m => out = res ∧ m.HasReads w N [] := by
    cases res with
    | ok v => exact Triple.pure v fun _ h => ⟨rfl, h⟩
    | error e => exact Triple.fault e fun _ h => ⟨rfl, h⟩
  unfold closeFrame
  refine Triple.bind_of_keeps leave_hasReads leave_noFault fun _ => ?_
  refine Triple.bind_ok reconcile_hasReads fun _ => ?_
  dsimp only
  exact Triple.ite _ (fun _ => Triple.bind_of_keeps unhold_hasReads unhold_noFault fun _ => hanswer)
    fun _ => hanswer

end Reads

/-! ## A whole evaluation -/

variable {w : WatcherId} {fuel : Nat} {m m' : Machine η} {out : Except Fault Value}

/-- An evaluation of an active watcher with no evaluation of it under way, whose getter and
error hooks lose none of its reads, opens a frame with the watcher on top and no read recorded,
runs the getter and settles its answer there, and closes it: the answer is handed back, and the
reads recorded in the frame become the watcher's reads, with none under way, each once. With
consistent subscriptions, the watcher is then listed by no set it did not read, and, while it
is live, by every set it read. -/
theorem evaluateWith_reconciles (hhost : ∀ c a, Keeps Machine.Subscribed (r.invoke c a))
    (hhooks : ∀ P D K c msg kind info,
      Keeps (Machine.Recording w P D K) (r.invoke c (.fault msg kind info)))
    (hget : ∀ P D K,
      Keeps (Machine.Recording w P D K) (getterValue r fuel (m.watcher w).getter (m.scopeOf w)))
    (hm : m.Subscribed) (hact : (m.watcher w).active = true) (hidle : Idle w m)
    (hrun : ExceptT.run (evaluateWith r (fuel + 1) w) m = .ok (out, m')) :
    ∃ m₁ m₂ res, ExceptT.run (openEval w (m.scopeOf w)) m = .ok (.ok (), m₁) ∧
      m₁.target = some w ∧ (m₁.watcher w).newDeps = [] ∧
      ExceptT.run (inFrame r fuel (m.watcher w) (m.scopeOf w)) m₁ = .ok (.ok res, m₂) ∧
      m₂.Recording w [] (m.watcher w).deps m₁.context ∧ out = res ∧
      (m'.watcher w).deps = (m₂.watcher w).newDeps ∧ (m'.watcher w).newDeps = [] ∧
      (m'.watcher w).deps.Nodup ∧ (∀ d, w ∈ (m'.dep d).subs → d ∈ (m'.watcher w).deps) ∧
      ((m'.watcher w).Live → ∀ d ∈ (m'.watcher w).deps, w ∈ (m'.dep d).subs) := by
  have hm' : m'.Subscribed :=
    Triple.of_run ((subscribed_stable.toEval.evaluateWith hhost (fuel + 1)).1 w) hrun hm
  rw [evaluateWith_frame, exec_get_bind] at hrun
  obtain ⟨_, m₁, h₁, hrun⟩ := run_bind_of_noFault (openEval_noFault w (m.scopeOf w)) hrun
  obtain ⟨res, m₂, h₂, hrun⟩ := run_bind_of_noFault (inFrame_noFault r fuel (m.watcher w) (m.scopeOf w)) hrun
  obtain ⟨m₁', h₁', hw₁, -, hc₁⟩ := openEval_frame (η := η) w (m.scopeOf w) m
  rw [h₁'] at h₁
  cases h₁
  -- the frame opens on the watcher's own cell: active, last reads untouched, nothing recorded
  have hcell₁ : m₁.watcher w = m.watcher w := Machine.watcher_eq_of_watchers_eq hw₁ w
  have hrec₁ : m₁.Recording w [] (m.watcher w).deps m₁.context :=
    ⟨List.nil_prefix, by rw [hcell₁], by rw [hcell₁]; exact hact, rfl⟩
  have hrec₂ := Triple.of_run (inFrame_recording (hhooks _ _ _) (hget _ _ _)) h₂ hrec₁
  obtain ⟨hout, hdeps, hnew⟩ :=
    Triple.of_run (closeFrame_reads w (m.scopeOf w) res) hrun ⟨rfl, rfl⟩
  refine ⟨m₁, m₂, res, h₁', ?_, by rw [hcell₁]; exact hidle, h₂, hrec₂, hout, hdeps, hnew,
    hm'.deps_nodup w, fun d h => ?_, fun hl d hd => hm'.complete hl (.inl hd)⟩
  · unfold Machine.target
    rw [hc₁]
  · rcases hm'.listed h with hd | hd
    · exact hd
    · rw [hnew] at hd
      exact absurd hd List.not_mem_nil

end Eff

/-- How the reads of an evaluation become its watcher's reads: a read is recorded for the
innermost watcher only, once, at the end of its reads under way; the engine's part of an
evaluation's frame loses none of them; and closing the frame makes exactly the reads recorded
in it the watcher's reads and prunes its subscriptions to match, whether the getter answered a
value or a fault. -/
structure ReadsReconciled (r : Runner η) : Prop where
  recorded : ∀ (d : DepId) (m : Machine η), ∃ m', ExceptT.run (Eff.depend d) m = .ok (.ok (), m') ∧
    ∀ w, (m'.watcher w).newDeps =
      if m.target = some w ∧ (m.watcher w).active = true ∧ d ∉ (m.watcher w).newDeps ∧
        d.idx < m.deps.size
      then (m.watcher w).newDeps ++ [d] else (m.watcher w).newDeps
  kept : ∀ w P D K fuel (cell : WatcherCell) scope,
    (∀ c msg kind info, Keeps (Machine.Recording w P D K) (r.invoke c (.fault msg kind info))) →
    Keeps (Machine.Recording w P D K) (Eff.getterValue r fuel cell.getter scope) →
    Keeps (Machine.Recording w P D K) (Eff.inFrame r fuel cell scope)
  reconciled : ∀ w fuel (m m' : Machine η) out,
    (∀ c a, Keeps Machine.Subscribed (r.invoke c a)) →
    (∀ P D K c msg kind info,
      Keeps (Machine.Recording w P D K) (r.invoke c (.fault msg kind info))) →
    (∀ P D K, Keeps (Machine.Recording w P D K)
      (Eff.getterValue r fuel (m.watcher w).getter (m.scopeOf w))) →
    m.Subscribed → (m.watcher w).active = true → Eff.Idle w m →
    ExceptT.run (Eff.evaluateWith r (fuel + 1) w) m = .ok (out, m') →
    ∃ m₁ m₂ res, ExceptT.run (Eff.openEval w (m.scopeOf w)) m = .ok (.ok (), m₁) ∧
      m₁.target = some w ∧ (m₁.watcher w).newDeps = [] ∧
      ExceptT.run (Eff.inFrame r fuel (m.watcher w) (m.scopeOf w)) m₁ = .ok (.ok res, m₂) ∧
      m₂.Recording w [] (m.watcher w).deps m₁.context ∧ out = res ∧
      (m'.watcher w).deps = (m₂.watcher w).newDeps ∧ (m'.watcher w).newDeps = [] ∧
      (m'.watcher w).deps.Nodup ∧ (∀ d, w ∈ (m'.dep d).subs → d ∈ (m'.watcher w).deps) ∧
      ((m'.watcher w).Live → ∀ d ∈ (m'.watcher w).deps, w ∈ (m'.dep d).subs)

theorem reads_reconciled (r : Runner η) : ReadsReconciled r where
  recorded d m := by
    obtain ⟨m', hrun, -, hnd⟩ := Eff.depend_newDeps d m
    exact ⟨m', hrun, hnd⟩
  kept _ _ _ _ _ _ _ hhooks hget := Eff.inFrame_recording hhooks hget
  reconciled _ _ _ _ _ hhost hhooks hget hm hact hidle hrun :=
    Eff.evaluateWith_reconciles hhost hhooks hget hm hact hidle hrun

/-- Host code that reads the second set. -/
def readsSecond : Runner Unit where
  invoke _ _ := do
    Eff.depend ⟨1⟩
    pure .undefined
  fuel := 1

/-- An active watcher whose getter is host code, and whose last evaluation read the first set. -/
def readsFirst : WatcherCell :=
  { (default : WatcherCell) with active := true, getter := .function 0, deps := [⟨0⟩] }

/-- A watcher whose last evaluation read the first set. -/
def readFirst : Machine Unit :=
  { host := (), deps := #[{ subs := [⟨0⟩] }, {}],
    watchers := #[readsFirst] }

theorem readFirst_subscribed : readFirst.Subscribed := by
  have hw : ∀ w : WatcherId, readFirst.watcher w = if w.idx = 0 then readsFirst else default := by
    rintro ⟨_ | n⟩ <;> rfl
  have hd : ∀ d : DepId, (readFirst.dep d).subs = if d.idx = 0 then [⟨0⟩] else [] := by
    rintro ⟨_ | _ | n⟩ <;> rfl
  have hreads : ∀ d, readsFirst.Reads d ↔ d = ⟨0⟩ := fun d => by
    constructor
    · rintro (h | h)
      · exact List.mem_singleton.1 h
      · exact absurd h List.not_mem_nil
    · rintro rfl
      exact .inl (List.mem_singleton_self _)
  constructor
  · intro w d h
    rw [hd] at h
    split at h
    · rename_i hd0
      obtain rfl : w = ⟨0⟩ := List.mem_singleton.1 h
      rw [hw, if_pos rfl, hreads]
      exact DepId.idx_inj.1 hd0
    · exact absurd h List.not_mem_nil
  · intro w d hl hr
    rw [hw] at hl hr
    split at hl
    · rename_i hw0
      rw [if_pos hw0, hreads] at hr
      subst hr
      rw [hd, if_pos rfl]
      exact List.mem_singleton.2 (WatcherId.idx_inj.1 hw0)
    · exact absurd hl WatcherCell.not_live_default
  · intro w d hr
    rw [hw] at hr
    split at hr
    · rw [(hreads d).1 hr]
      decide
    · exact absurd hr (WatcherCell.not_reads_default _)
  · intro w
    rw [hw]
    split
    · exact List.nodup_singleton _
    · exact List.nodup_nil
  · intro w
    rw [hw]
    split <;> exact List.nodup_nil
  · intro d
    rw [hd]
    split <;> simp

/-- An evaluation that reads the second set, where the last one read the first, leaves the
first set and joins the second. -/
theorem reading_elsewhere_prunes :
    ∃ m', ExceptT.run (Eff.evaluateWith readsSecond 2 ⟨0⟩) readFirst = .ok (.ok .undefined, m') ∧
      (m'.watcher ⟨0⟩).deps = [⟨1⟩] ∧ (⟨0⟩ : WatcherId) ∉ (m'.dep ⟨0⟩).subs ∧
      (⟨0⟩ : WatcherId) ∈ (m'.dep ⟨1⟩).subs := by
  have hhost : ∀ c a, Keeps Machine.Subscribed (readsSecond.invoke c a) := fun _ _ =>
    Keeps.bind (Eff.depend_subscribed _) fun _ => Keeps.pure _
  have hrec : ∀ P D K c a, Keeps (Machine.Recording ⟨0⟩ P D K) (readsSecond.invoke c a) :=
    fun P D K _ _ => Keeps.bind ((Stable.recording_base _ P D K).depend _) fun _ => Keeps.pure _
  refine ⟨_, rfl, ?_⟩
  obtain ⟨-, -, -, -, -, -, -, -, -, -, -, -, hlisted, hlive⟩ :=
    (reads_reconciled readsSecond).reconciled ⟨0⟩ 1 readFirst _ _ hhost
      (fun P D K c _ _ _ => hrec P D K c _) (fun P D K => hrec P D K 0 .none)
      readFirst_subscribed rfl rfl rfl
  refine ⟨rfl, fun h => ?_, hlive ⟨rfl, rfl⟩ _ (List.mem_singleton_self _)⟩
  exact absurd (hlisted _ h) (by decide)

end Reactivity
