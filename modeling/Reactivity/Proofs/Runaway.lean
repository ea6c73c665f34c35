import Mathlib.Algebra.BigOperators.Group.List.Lemmas
import Mathlib.Algebra.Order.BigOperators.Group.List
import Mathlib.Algebra.Order.Group.Nat
import Mathlib.Data.List.Induction
import Reactivity.Proofs.Scheduler

/-!
# The runaway guard

A flush with limit `L` runs a watcher at its first `L` picks and reports it as a runaway at the
`(L+1)`-th, after which the watcher stays dropped for the rest of the flush: queueing it again
does nothing, so it is never picked again. A walk thus takes at most `L + 1` steps per watcher
it picks, and runs out of fuel only after picking at least `fuel / (L + 1)` distinct watchers.
The queue is emptied when the walk ends, before any hook after the flush runs, so the next
flush counts from zero.
-/

namespace Reactivity

variable {η : Type} {L : Nat}

/-- What the runaway guard promises of the steps of a walk with limit `L`. -/
structure Guarded (L : Nat) (t : List (WatcherId × Step)) : Prop where
  /-- each step runs its watcher at one of its first `L` picks, or reports it at its
  `(L+1)`-th with `L + 1` runs; none passes over it -/
  step : ∀ t₁ w s t₂, t = t₁ ++ (w, s) :: t₂ →
    s = .run ∧ (t₁.map Prod.fst).count w < L ∨
      s = .runaway (L + 1) ∧ (t₁.map Prod.fst).count w = L
  runs_le : ∀ w, t.count (w, .run) ≤ L
  not_picked_after : ∀ t₁ w k t₂, t = t₁ ++ (w, .runaway k) :: t₂ → w ∉ t₂.map Prod.fst
  length_le : t.length ≤ (L + 1) * (t.map Prod.fst).dedup.length

/-! ## Counting picks -/

theorem pickStep_succ {c : Nat} (h : c ≤ L) :
    pickStep L (c + 1) = .run ∧ c < L ∨ pickStep L (c + 1) = .runaway (L + 1) ∧ c = L := by
  unfold pickStep
  by_cases hc : c < L
  · exact .inl ⟨if_pos (by omega), hc⟩
  · obtain rfl : c = L := by omega
    exact .inr ⟨if_neg (by omega), rfl⟩

theorem count_le_count_fst (t : List (WatcherId × Step)) (w : WatcherId) (s : Step) :
    t.count (w, s) ≤ (t.map Prod.fst).count w := by
  rw [List.count_eq_countP, List.count_eq_countP, List.countP_map]
  exact List.countP_mono_left fun p _ h => by simp_all

theorem length_le_mul_dedup {l : List WatcherId} {k : Nat} (h : ∀ a, l.count a ≤ k) :
    l.length ≤ k * l.dedup.length :=
  calc l.length = (l.dedup.map fun a => l.count a).sum :=
        (List.sum_map_count_dedup_eq_length l).symm
    _ ≤ (l.dedup.map fun a => l.count a).length • k :=
        List.sum_le_card_nsmul _ _ fun x hx => by
          obtain ⟨a, -, rfl⟩ := List.mem_map.1 hx
          exact h a
    _ = k * l.dedup.length := by simp [mul_comm]

namespace Eff

theorem Labelled.eq_pickStep {picked : List WatcherId} {t : List (WatcherId × Step)}
    (hl : Labelled L picked t) {t₁ t₂ : List (WatcherId × Step)} {w : WatcherId} {s : Step}
    (ht : t = t₁ ++ (w, s) :: t₂) : s = pickStep L ((picked ++ t₁.map Prod.fst).count w + 1) := by
  induction t₁ generalizing picked t with
  | nil =>
    subst ht
    simpa using hl.1
  | cons p t₁ ih =>
    subst ht
    obtain ⟨pw, ps⟩ := p
    -- the walk goes on with `pw` picked
    simpa using ih hl.2 rfl

theorem Labelled.step {picked : List WatcherId} {t : List (WatcherId × Step)}
    (hl : Labelled L picked t) (hc : ∀ w, (picked ++ t.map Prod.fst).count w ≤ L + 1)
    {t₁ t₂ : List (WatcherId × Step)} {w : WatcherId} {s : Step} (ht : t = t₁ ++ (w, s) :: t₂) :
    s = .run ∧ (picked ++ t₁.map Prod.fst).count w < L ∨
      s = .runaway (L + 1) ∧ (picked ++ t₁.map Prod.fst).count w = L := by
  rw [hl.eq_pickStep ht]
  have hw := hc w
  subst ht
  simp only [List.map_append, List.map_cons, List.count_append, List.count_cons_self] at hw
  exact pickStep_succ (by simp only [List.count_append]; omega)

end Eff

/-! ## The guard -/

theorem Guarded.of_step {t : List (WatcherId × Step)}
    (hs : ∀ t₁ w s t₂, t = t₁ ++ (w, s) :: t₂ →
      s = .run ∧ (t₁.map Prod.fst).count w < L ∨
        s = .runaway (L + 1) ∧ (t₁.map Prod.fst).count w = L)
    (hc : ∀ w, (t.map Prod.fst).count w ≤ L + 1) : Guarded L t where
  step := hs
  runs_le w := by
    -- by induction from the end: a last step that runs `w` comes before its `L`-th run
    induction t using List.reverseRecOn with
    | nil => simp
    | append_singleton t p ih =>
      have ih' := ih (fun t₁ w s t₂ h => hs t₁ w s (t₂ ++ [p]) (by simp [h]))
        fun w => le_trans (by simp) (hc w)
      by_cases hp : p = (w, .run)
      · subst hp
        have hlast := hs t w .run [] rfl
        simp only [reduceCtorEq, false_and, or_false] at hlast
        have := count_le_count_fst t w .run
        simp only [List.count_append, List.count_singleton_self]
        omega
      · simpa [List.count_append, List.count_singleton, hp] using ih'
  not_picked_after t₁ w k t₂ ht hmem := by
    obtain ⟨⟨w', s'⟩, hp, rfl⟩ := List.mem_map.1 hmem
    obtain ⟨t₃, t₄, rfl⟩ := List.append_of_mem hp
    -- the runaway comes at the `(L+1)`-th pick, so a later pick would be past it
    have h₁ := hs t₁ w' (.runaway k) _ ht
    have h₂ := hs (t₁ ++ (w', .runaway k) :: t₃) w' s' t₄ (by simp [ht])
    simp only [reduceCtorEq, false_and, Step.runaway.injEq, false_or] at h₁
    simp only [List.map_append, List.map_cons, List.count_append, List.count_cons_self] at h₂
    omega
  length_le := by
    rw [← List.length_map Prod.fst]
    exact length_le_mul_dedup hc

namespace Eff

section Host

variable {r : Runner η} (hr : HostKeeps r)
include hr

theorem Walk.guarded {m m' : Machine η} {t : List (WatcherId × Step)} (h : Walk r L m t m')
    {floor : List WatcherId} (hm : Walking L [] floor m) : Guarded L t := by
  obtain ⟨⟨-, -, ⟨rest, hw⟩, -⟩, hl⟩ := h.walking hr hm
  have hc : ∀ w, (t.map Prod.fst).count w ≤ L + 1 := fun w => by
    simpa using hw.count_le w
  exact Guarded.of_step (fun t₁ w s t₂ ht => by simpa using hl.step (by simpa using hc) ht) hc

/-- A flush from a steady state, with `L` the limit it reads as it starts, has nothing to do,
or walks its queue with the guard kept to the end, and runs the hooks after it on an emptied
queue. It halts only after as many steps as the runner has fuel, or where a step or one of
those hooks halts. A watcher reported in a walk with that limit is not queued again while the
walk goes on. -/
theorem flush_runaway_guard {ongoing : Option (List WatcherId × List WatcherId)}
    {m : Machine η} (hm : m.queue.Steady L ongoing) :
    (∀ res m', ExceptT.run (flush r) m = .ok (res, m') →
      (m.queue.flushing || m.queue.queue.isEmpty) = true ∧ m' = m ∨
      ∃ t m₁, Walk r m.config.maxUpdateCount { m with queue := m.queue.start } t m₁ ∧
        Guarded m.config.maxUpdateCount t ∧
        ExceptT.run (afterFlush r m₁.queue.queue) { m₁ with queue := {} } = .ok (res, m')) ∧
    (∀ e, ExceptT.run (flush r) m = .error e →
      ∃ t m₁, Walk r m.config.maxUpdateCount { m with queue := m.queue.start } t m₁ ∧
        Guarded m.config.maxUpdateCount t ∧
        (t.length = r.fuel ∨ ExceptT.run (flushStep r m.config.maxUpdateCount) m₁ = .error e ∨
          ExceptT.run (afterFlush r m₁.queue.queue) { m₁ with queue := {} } = .error e)) ∧
    ∀ picked rest w (m' : Machine η), m'.queue.Walked m.config.maxUpdateCount picked rest →
      picked.count w = m.config.maxUpdateCount + 1 →
      ExceptT.run (enqueue r w) m' = .ok (.ok (), m') := by
  refine ⟨fun res m' h => ?_, fun e h => ?_, fun picked rest w m' hw hc =>
    enqueue_dropped r ((hw.mem_dropped w).2 hc)⟩
  · rcases flush_run hr hm h with ⟨hc, -, rfl⟩ | ⟨rfl, t, m₁, ht, -, ha⟩
    · exact .inl ⟨hc, rfl⟩
    · exact .inr ⟨t, m₁, ht, ht.guarded hr (Walking.start _ hm hm.1).2, ha⟩
  · obtain ⟨rfl, t, m₁, ht, hend⟩ := flush_halt hr hm h
    exact ⟨t, m₁, ht, ht.guarded hr (Walking.start _ hm hm.1).2, hend.imp_left And.left⟩

end Host

/-- Host code that queues watcher `0` again each time it runs. -/
def requeueHost : Runner Unit where
  invoke _ _ := do Eff.enqueue ⟨fun _ _ => pure .undefined, 1⟩ ⟨0⟩; pure .undefined
  fuel := 4

theorem requeueHost_keeps : HostKeeps requeueHost := fun _ _ _ _ _ =>
  Keeps.bind (enqueue_keeps (HostKeeps.quiet 1) ⟨0⟩) fun _ => Keeps.pure _

/-- Watcher `0`, whose getter is `requeueHost`'s code, queued alone under a limit of one run. -/
def requeueMachine : Machine Unit :=
  { host := (), config := { maxUpdateCount := 1 },
    watchers := #[{ (default : WatcherCell) with active := true, getter := .function 0 }],
    queue := { queue := #[⟨0⟩], has := [⟨0⟩], waiting := true } }

/-- A watcher that queues itself again on every run, under a limit of one run: the walk runs it
at its first pick and drops it as a runaway at its second, with two runs counted, and the flush
ends with the queue reset and the report and its fault logged. -/
theorem flush_runaway_guard_requeue :
    HostKeeps requeueHost ∧ requeueMachine.queue.Steady 1 none ∧
      ((∀ res m', ExceptT.run (flush requeueHost) requeueMachine = .ok (res, m') →
        (requeueMachine.queue.flushing || requeueMachine.queue.queue.isEmpty) = true ∧
          m' = requeueMachine ∨
        ∃ t m₁, Walk requeueHost 1 { requeueMachine with queue := requeueMachine.queue.start }
            t m₁ ∧
          Guarded 1 t ∧
          ExceptT.run (afterFlush requeueHost m₁.queue.queue) { m₁ with queue := {} } =
            .ok (res, m')) ∧
      (∀ e, ExceptT.run (flush requeueHost) requeueMachine = .error e →
        ∃ t m₁, Walk requeueHost 1 { requeueMachine with queue := requeueMachine.queue.start }
            t m₁ ∧
          Guarded 1 t ∧
          (t.length = 4 ∨ ExceptT.run (flushStep requeueHost 1) m₁ = .error e ∨
            ExceptT.run (afterFlush requeueHost m₁.queue.queue) { m₁ with queue := {} } =
              .error e)) ∧
      (∀ picked rest w (m' : Machine Unit), m'.queue.Walked 1 picked rest →
        picked.count w = 1 + 1 →
        ExceptT.run (enqueue requeueHost w) m' = .ok (.ok (), m'))) ∧
      (∃ (u : Unit) (m₁ : Machine Unit),
        ExceptT.run (walk requeueHost 1 4)
          { requeueMachine with queue := requeueMachine.queue.start } = .ok (.ok u, m₁) ∧
        m₁.queue.dropped = [⟨0⟩] ∧ m₁.queue.runs = [(⟨0⟩, 2)]) ∧
      ∃ (u : Unit) (m' : Machine Unit),
        ExceptT.run (flush requeueHost) requeueMachine = .ok (.ok u, m') ∧
        m'.queue.queue = #[] ∧ m'.queue.waiting = false ∧ m'.log.size = 2 := by
  have hm : requeueMachine.queue.Steady 1 none :=
    ⟨rfl, by simp [requeueMachine], by simp [requeueMachine], by simp [requeueMachine], rfl, rfl,
      rfl, by simp [requeueMachine]⟩
  exact ⟨requeueHost_keeps, hm, flush_runaway_guard requeueHost_keeps hm,
    ok_of_check _ (by decide +kernel), ok_of_check _ (by decide +kernel)⟩

end Eff

end Reactivity
