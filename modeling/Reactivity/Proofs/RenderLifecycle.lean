import Reactivity.Proofs.Pending
import Reactivity.Proofs.Context

/-!
# The render lifecycle in a flush

A flush runs the hooks of a scope's render in two places. At a run step of a render watcher,
the scope's before-update hooks run while the scope is alive, mounted and not destroyed, and
then the watcher runs, which renders again only while it is active: a render watcher torn down
by a re-mount, still queued, gets the hooks and renders nothing
(`before_update_without_render`). After the walk the queue is emptied, and then the updated
hooks run for each entry of the final queue, last entry first, while the entry's watcher is
still its scope's render watcher and the scope is mounted and not destroyed.

The entries are the picks of the walk, not its renders: a watcher takes a run step at its first
`max_update_count` picks and at no other (`Labelled.count_run`), and the pick at which it is
reported as a runaway is an entry too. `render_lifecycle` collects these facts.
-/

namespace Reactivity

variable {η : Type} {L : Nat}

namespace Eff

/-! ## Run steps are the first picks -/

/-- The run steps of `w` along a labelled walk bring its runs, counted with the picks made
before, up to its picks in all, cut at `L`. -/
theorem Labelled.count_run {picked : List WatcherId} {t : List (WatcherId × Step)}
    (hl : Labelled L picked t) (w : WatcherId) :
    t.count (w, .run) + min (picked.count w) L = min ((picked ++ t.map Prod.fst).count w) L := by
  induction t generalizing picked with
  | nil => simp
  | cons p t ih =>
    obtain ⟨w', s⟩ := p
    obtain ⟨rfl, hl'⟩ := hl
    have h := ih hl'
    simp only [List.map_cons, List.count_append, List.count_cons, List.count_nil, beq_iff_eq] at h ⊢
    by_cases hw : w' = w
    · -- the step at this pick runs `w` exactly when the pick is one of its first `L`
      subst hw
      by_cases hle : picked.count w' + 1 ≤ L
      · simp only [pickStep, hle, if_true] at h ⊢
        omega
      · simp only [pickStep, hle, if_false, Prod.mk.injEq, reduceCtorEq, and_false] at h ⊢
        omega
    · have hne : (w', pickStep L (picked.count w' + 1)) ≠ (w, .run) := fun e => hw (Prod.mk.inj e).1
      simp only [hne, hw, if_false] at h ⊢
      omega

theorem runs_of_labelled {t : List (WatcherId × Step)} (hl : Labelled L [] t) (w : WatcherId) :
    t.count (w, .run) = min ((t.map Prod.fst).count w) L := by
  simpa using hl.count_run w

/-! ## What each step runs -/

theorem takeStep_run (r : Runner η) (w : WatcherId) :
    ∃ k : Except Fault Unit → Eff η Unit,
      takeStep r L w .run = (do before r w; let res ← attempt (run r w); k res) :=
  ⟨_, rfl⟩

theorem before_renderOf_run (r : Runner η) {m : Machine η} {w : WatcherId} {s : ScopeId}
    (hb : (m.watcher w).before = some (.renderOf s)) :
    ExceptT.run (before r w) m =
      if (m.scope s).dropped = false ∧ (m.scope s).mounted = true ∧
          (m.scope s).destroyed = false then
        ExceptT.run (do pin (.scope s); callHooks r (m.scope s).beforeUpdate; unhold) m
      else .ok (.ok (), m) := by
  simp only [before, exec_get_bind, hb, Machine.alive]
  cases hd : (m.scope s).dropped <;> cases hmo : (m.scope s).mounted <;>
    cases hde : (m.scope s).destroyed <;> simp [hmo, hde]

theorem run_inactive (r : Runner η) {m : Machine η} {w : WatcherId}
    (ha : (m.watcher w).active = false) : ExceptT.run (run r w) m = .ok (.ok (), m) := by
  simp [run, ha]

theorem run_active (r : Runner η) {m : Machine η} {w : WatcherId}
    (ha : (m.watcher w).active = true) :
    ∃ k : Value → Eff η Unit, ExceptT.run (run r w) m = ExceptT.run (evaluate r w >>= k) m := by
  exact ⟨_, by simp only [run, exec_get_bind, ha, Bool.not_true, Bool.false_eq_true, ↓reduceIte]; rfl⟩

/-- After a flush, an entry runs the updated hooks of its watcher's scope, holding the scope,
while the watcher is still the scope's render watcher and the scope is mounted and not
destroyed, and does nothing otherwise. -/
theorem afterRender_run (r : Runner η) {m : Machine η} {w : WatcherId} {s : ScopeId}
    (hs : m.scopeOf w = some s) :
    ExceptT.run (afterRender r w) m =
      if (m.scope s).render = some w ∧ (m.scope s).mounted = true ∧
          (m.scope s).destroyed = false then
        ExceptT.run (do pin (.scope s); callHooks r (m.scope s).updated; unhold) m
      else .ok (.ok (), m) := by
  simp only [afterRender, exec_get_bind, hs]
  by_cases hc : (m.scope s).render = some w ∧ (m.scope s).mounted = true ∧
      (m.scope s).destroyed = false
  · obtain ⟨hre, hmo, hde⟩ := hc
    simp [hre, hmo, hde]
  · rw [if_neg hc]
    simp only [Bool.and_eq_true, Bool.not_eq_true', decide_eq_true_eq]
    rw [if_neg fun h => hc ⟨h.1.1, h.1.2, h.2⟩]
    rfl

/-! ## A whole flush -/

section Host

variable {r : Runner η} (hr : HostKeeps r)
include hr

/-- A flush that starts walks its queue to the end, taking a run step at the first
`max_update_count` picks of each watcher and at no other; it then empties the queue and runs
the hooks after the flush over every entry the walk picked. -/
theorem flush_lifecycle {ongoing : Option (List WatcherId × List WatcherId)} {m m' : Machine η}
    {res : Except Fault Unit} (hm : m.queue.Steady L ongoing)
    (hs : (m.queue.flushing || m.queue.queue.isEmpty) = false)
    (h : ExceptT.run (flush r) m = .ok (res, m')) :
    ∃ t m₁, Walk r m.config.maxUpdateCount { m with queue := m.queue.start } t m₁ ∧
      t.map Prod.fst = m₁.queue.queue.toList ∧
      (∀ w, t.count (w, .run) = min ((t.map Prod.fst).count w) m.config.maxUpdateCount) ∧
      ExceptT.run (afterFlush r m₁.queue.queue) { m₁ with queue := {} } = .ok (res, m') := by
  rcases flush_run hr hm h with ⟨hc, -⟩ | ⟨rfl, t, m₁, ht, hend, hafter⟩
  · rw [hs] at hc
    cases hc
  · have hstart := (Walking.start m.config.maxUpdateCount hm hm.1).2
    obtain ⟨hq, -⟩ := ht.floor_picked hr hstart hend
    rw [List.nil_append] at hq
    exact ⟨t, m₁, ht, hq.symm, runs_of_labelled (ht.walking hr hstart).2, hafter⟩

end Host

end Eff

/-! ## The lifecycle -/

/-- What a flush runs around the renders of scopes: the before hook then the watcher at a run
step; the updated hooks per entry of the final queue after the queue is emptied; the run steps
of a watcher at its first `max_update_count` picks only. -/
structure RenderLifecycle (r : Runner η) : Prop where
  flush : ∀ L ongoing (m m' : Machine η) (res : Except Fault Unit), m.queue.Steady L ongoing →
    (m.queue.flushing || m.queue.queue.isEmpty) = false →
    ExceptT.run (Eff.flush r) m = .ok (res, m') →
    ∃ t m₁, Eff.Walk r m.config.maxUpdateCount { m with queue := m.queue.start } t m₁ ∧
      t.map Prod.fst = m₁.queue.queue.toList ∧
      (∀ w, t.count (w, .run) = min ((t.map Prod.fst).count w) m.config.maxUpdateCount) ∧
      ExceptT.run (Eff.afterFlush r m₁.queue.queue) { m₁ with queue := {} } = .ok (res, m')
  runStep : ∀ L w, ∃ k : Except Fault Unit → Eff η Unit, Eff.takeStep r L w .run =
    (do Eff.before r w; let res ← Eff.attempt (Eff.run r w); k res)
  before : ∀ (m : Machine η) w s, (m.watcher w).before = some (.renderOf s) →
    ExceptT.run (Eff.before r w) m =
      if (m.scope s).dropped = false ∧ (m.scope s).mounted = true ∧
          (m.scope s).destroyed = false then
        ExceptT.run (do Eff.pin (.scope s); Eff.callHooks r (m.scope s).beforeUpdate; Eff.unhold) m
      else .ok (.ok (), m)
  inactive : ∀ (m : Machine η) w, (m.watcher w).active = false →
    ExceptT.run (Eff.run r w) m = .ok (.ok (), m)
  active : ∀ (m : Machine η) w, (m.watcher w).active = true →
    ∃ k : Value → Eff η Unit, ExceptT.run (Eff.run r w) m = ExceptT.run (Eff.evaluate r w >>= k) m
  updated : ∀ (m : Machine η) w s, m.scopeOf w = some s →
    ExceptT.run (Eff.afterRender r w) m =
      if (m.scope s).render = some w ∧ (m.scope s).mounted = true ∧
          (m.scope s).destroyed = false then
        ExceptT.run (do Eff.pin (.scope s); Eff.callHooks r (m.scope s).updated; Eff.unhold) m
      else .ok (.ok (), m)

theorem render_lifecycle (r : Runner η) (hr : HostKeeps r) : RenderLifecycle r where
  flush _ _ _ _ _ hm hs h := Eff.flush_lifecycle hr hm hs h
  runStep _ w := Eff.takeStep_run r w
  before _ _ _ hb := Eff.before_renderOf_run r hb
  inactive _ _ ha := Eff.run_inactive r ha
  active _ _ ha := Eff.run_active r ha
  updated _ _ _ hs := Eff.afterRender_run r hs

theorem render_lifecycle_quiet :
    HostKeeps (⟨fun _ _ => pure .undefined, 100⟩ : Runner Unit) ∧
      RenderLifecycle (⟨fun _ _ => pure .undefined, 100⟩ : Runner Unit) :=
  ⟨HostKeeps.quiet 100, render_lifecycle _ (HostKeeps.quiet 100)⟩

/-! ## Before-update hooks with no render -/

theorem Machine.host_collect (m : Machine η) : m.collect.host = m.host := by
  obtain ⟨ws, ds, ss, -, h⟩ := m.collect_eq
  rw [h]

theorem FlushQueue.start_single (w : WatcherId) :
    ({ queue := #[w], has := [w], waiting := true } : FlushQueue).start =
      { queue := #[w], has := [w], waiting := true, flushing := true, index := 0 } := by
  simp [FlushQueue.start, FlushQueue.sorted]

/-- A scope re-mounted while its old render watcher `0` was queued: the old watcher is torn
down but still queued, and the scope's render watcher is now `1`. The host records each closure
it runs. The flush runs the before-update hook `7` and nothing else: neither the old render `3`,
nor the new one `4`, nor the updated hook `8`. -/
theorem before_update_without_render :
    let r : Runner (List Nat) := ⟨fun c _ => do
      modify fun m => { m with host := c :: m.host }
      pure .undefined, 4⟩
    ∃ m', ExceptT.run (Eff.flush r)
      ({ host := [],
         scopes := #[{ (default : ScopeCell) with
           name := "s", render := some ⟨1⟩, mounted := true, beforeUpdate := [7], updated := [8] }],
         watchers := #[{ (default : WatcherCell) with
             scope := some ⟨0⟩, getter := .function 3, before := some (.renderOf ⟨0⟩),
             render := true, active := false },
           { (default : WatcherCell) with
             scope := some ⟨0⟩, getter := .function 4, before := some (.renderOf ⟨0⟩),
             render := true }],
         queue := { queue := #[⟨0⟩], has := [⟨0⟩], waiting := true } } : Machine (List Nat)) =
        .ok (.ok (), m') ∧ m'.host = [7] := by
  intro r
  unfold Eff.flush
  simp only [Eff.exec_get_bind, FlushQueue.start_single]
  refine ⟨_, rfl, ?_⟩
  simp [Machine.host_collect]

end Reactivity
