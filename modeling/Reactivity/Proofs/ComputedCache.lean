import Reactivity.Proofs.Subscribed

/-!
# Computed values: the cache and its invalidation

A computed value is a lazy watcher. Reading it evaluates its getter only when it is dirty, and
stores the result, clean, as its cache; a clean read returns the cache and hands the reader the
sets the value read last. A change reaches the value through those sets and marks it dirty
(`computed_cache_invalidation`). A put of a key that an object does not hold yet goes through no
set, so a value computed from the object's keys stays clean and stale
(`put_new_key_keeps_cache`).
-/

namespace Reactivity

variable {η : Type}

namespace Machine

/-- `m'` is `m` with more reads under way: the tracking context, the number of sets, and each
watcher's last reads, activity, cache and dirty mark are those of `m`. -/
structure Records (m m' : Machine η) : Prop where
  context : m'.context = m.context
  size : m'.deps.size = m.deps.size
  deps : ∀ w, (m'.watcher w).deps = (m.watcher w).deps
  active : ∀ w, (m'.watcher w).active = (m.watcher w).active
  value : ∀ w, (m'.watcher w).value = (m.watcher w).value
  dirty : ∀ w, (m'.watcher w).dirty = (m.watcher w).dirty
  newDeps : ∀ w, (m.watcher w).newDeps ⊆ (m'.watcher w).newDeps

theorem Records.of_watchers {m m' : Machine η} (hc : m'.context = m.context)
    (hs : m'.deps.size = m.deps.size) (hw : m'.watchers = m.watchers) : m.Records m' := by
  have h := watcher_eq_of_watchers_eq hw
  refine ⟨hc, hs, ?_, ?_, ?_, ?_, ?_⟩ <;> intro w <;> simp [h]

theorem Records.refl (m : Machine η) : m.Records m :=
  .of_watchers rfl rfl rfl

theorem Records.trans {m₁ m₂ m₃ : Machine η} (h₁ : m₁.Records m₂) (h₂ : m₂.Records m₃) :
    m₁.Records m₃ where
  context := h₂.context.trans h₁.context
  size := h₂.size.trans h₁.size
  deps w := (h₂.deps w).trans (h₁.deps w)
  active w := (h₂.active w).trans (h₁.active w)
  value w := (h₂.value w).trans (h₁.value w)
  dirty w := (h₂.dirty w).trans (h₁.dirty w)
  newDeps w := fun _ h => h₂.newDeps w (h₁.newDeps w h)

theorem Records.target {m m' : Machine η} (h : m.Records m') : m'.target = m.target := by
  unfold Machine.target
  rw [h.context]

end Machine

namespace Eff

variable {t w : WatcherId} {m : Machine η}

/-! ## Reads -/

theorem depend_records (d : DepId) (m : Machine η) :
    ∃ m', ExceptT.run (depend d) m = .ok (.ok (), m') ∧ m.Records m' ∧
      ∀ t, m.target = some t → (m.watcher t).active = true → d.idx < m.deps.size →
        d ∈ (m'.watcher t).newDeps := by
  unfold depend
  rw [exec_get_bind]
  rcases ht : m.target with _ | t
  · exact ⟨m, rfl, Machine.Records.refl m, fun _ h => by cases h⟩
  dsimp only
  by_cases hg : ((m.watcher t).active && !(m.watcher t).newDeps.contains d &&
      decide (d.idx < m.deps.size)) = true
  · rw [if_pos hg]
    simp only [Bool.and_eq_true, Bool.not_eq_true', decide_eq_true_eq] at hg
    obtain ⟨⟨hact, -⟩, -⟩ := hg
    -- the read joins the reads under way, and the set may learn of the watcher
    set m₁ : Machine η := { m with watchers := m.watchers.modify t.idx fun c =>
        { c with newDeps := c.newDeps ++ [d] } } with hm₁
    have hcell : ∀ w, m₁.watcher w =
        if w = t then { m.watcher w with newDeps := (m.watcher w).newDeps ++ [d] }
        else m.watcher w := fun w => Machine.watcher_modify _ _ _ _ (.inl (Machine.lt_of_active hact))
    have hrec : m.Records m₁ := by
      refine ⟨rfl, rfl, ?_, ?_, ?_, ?_, ?_⟩ <;> intro w <;> rw [hcell] <;> split <;> simp
    have hd : ∀ t', some t = some t' → d ∈ (m₁.watcher t').newDeps := by
      rintro t' ⟨⟩
      rw [hcell, if_pos rfl]
      exact List.mem_append_right _ (List.mem_singleton_self d)
    unfold modifyWatcher
    rw [exec_modify_bind]
    split
    · exact ⟨_, rfl, hrec.trans (.of_watchers rfl Array.size_modify rfl),
        fun t' ht' _ _ => hd t' ht'⟩
    · exact ⟨m₁, rfl, hrec, fun t' ht' _ _ => hd t' ht'⟩
  · rw [if_neg hg]
    refine ⟨m, rfl, Machine.Records.refl m, fun t' ht' hact hlt => ?_⟩
    cases ht'
    simpa [hact, hlt] using hg

variable {r : Runner η} {fuel : Nat}

theorem update_lazy (hact : (m.watcher w).active = true) (hlazy : (m.watcher w).lazy = true) :
    ExceptT.run (update r w) m =
      .ok (.ok (), { m with watchers := m.watchers.modify w.idx fun c => { c with dirty := true } }) := by
  unfold update
  rw [exec_get_bind]
  dsimp only
  rw [if_neg (by simp [hact]), if_pos hlazy]
  rfl

end Eff

end Reactivity
