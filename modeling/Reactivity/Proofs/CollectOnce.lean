import Reactivity.Proofs.ListReads
import Reactivity.Proofs.ObservedWrites

/-!
# Reading a list once per evaluation

A plain tracked read of a list records the set of the list's observer and walks its items,
recording the sets of the observers of the containers in it, through nested lists
(`Eff.trackListPlain`). `Eff.trackList` takes a shortcut: when the list's set is already among
the reads under way, it records nothing and does not walk.

A walk records sets of the observers it meets and nothing else (`Machine.ReadsIn`,
`Eff.dependItems_readsIn`). So where the reads under way already hold every set a walk of the
list could record, the shortcut and the plain read leave the same reads (`collect_once_agrees`).
They need not hold them: the list's set also arrives with the reads of a clean computed value,
recorded when an item of the list was not yet observed, and the read of the list that follows
then misses the item's set (`collect_once_misses_item`).
-/

namespace Reactivity

variable {η : Type}

namespace Machine

variable {m m' m'' : Machine η} {A B : DepId → Prop}

/-- `d` is the set of the observer of the container `x`. -/
def ObservedBy (m : Machine η) : Value → DepId → Prop
  | .obj o, d => ∃ ob, (m.object o).observer = some ob ∧ ob.dep = d
  | .list l, d => ∃ ob, (m.listCell l).observer = some ob ∧ ob.dep = d
  | _, _ => False

/-- The sets a walk of the items of `l` reads: those of the observers of the containers in `l`
or in a list nested in it. -/
def ItemSets (m : Machine η) (l : ListRef) (d : DepId) : Prop :=
  ∃ l', Relation.ReflTransGen m.Nests l l' ∧ ∃ x ∈ (m.listCell l').items, m.ObservedBy x d

/-- The sets a plain read of `l` reads: its own observer's and those of its walk. -/
def ListSets (m : Machine η) (l : ListRef) (d : DepId) : Prop :=
  m.ObservedBy (.list l) d ∨ m.ItemSets l d

/-- `m'` is `m` after reads of sets in `A` alone: over the same heap, only the watcher that
collects reads gains sets, while it is active, and only sets in `A` that exist. -/
structure ReadsIn (A : DepId → Prop) (m m' : Machine η) : Prop where
  scanned : m.Scanned m'
  within : ∀ w d, d ∈ (m'.watcher w).newDeps → d ∈ (m.watcher w).newDeps ∨
    m.target = some w ∧ (m.watcher w).active = true ∧ d.idx < m.deps.size ∧ A d

theorem ReadsIn.refl (A : DepId → Prop) (m : Machine η) : m.ReadsIn A m :=
  ⟨.refl m, fun _ _ h => .inl h⟩

theorem ReadsIn.trans (h : m.ReadsIn A m') (h' : m'.ReadsIn A m'') : m.ReadsIn A m'' := by
  refine ⟨h.scanned.trans h'.scanned, fun w d hd => ?_⟩
  rcases h'.within w d hd with hd | ⟨ht, ha, hlt, hA⟩
  · exact h.within w d hd
  · -- the reader, its state and the sets are those of `m`
    have hr := h.scanned.records
    exact .inr ⟨hr.target.symm.trans ht, (hr.active w).symm.trans ha, hr.size ▸ hlt, hA⟩

theorem ReadsIn.mono (h : m.ReadsIn A m') (hA : ∀ d, A d → B d) : m.ReadsIn B m' :=
  ⟨h.scanned, fun w d hd => (h.within w d hd).imp_right fun ⟨ht, ha, hlt, hd⟩ =>
    ⟨ht, ha, hlt, hA d hd⟩⟩

theorem ReadsIn.newDeps_iff (h : m.ReadsIn A m')
    (hA : ∀ t d, m.target = some t → (m.watcher t).active = true → d.idx < m.deps.size → A d →
      d ∈ (m.watcher t).newDeps) (w : WatcherId) (d : DepId) :
    d ∈ (m'.watcher w).newDeps ↔ d ∈ (m.watcher w).newDeps := by
  refine ⟨fun hd => ?_, fun hd => h.scanned.records.newDeps w hd⟩
  rcases h.within w d hd with hd | ⟨ht, ha, hlt, hd⟩
  · exact hd
  · exact hA w d ht ha hlt hd

theorem lists_of_heap (h : m'.heap = m.heap) : m'.lists = m.lists :=
  (Prod.mk.inj (Prod.mk.inj h).2).1

theorem ItemSets.of_nests {l inner : ListRef} (hn : m.Nests l inner) {d : DepId}
    (hd : m.ItemSets inner d) : m.ItemSets l d := by
  obtain ⟨l', hl', x, hx, hob⟩ := hd
  exact ⟨l', .head hn hl', x, hx, hob⟩

end Machine

namespace Eff

variable {A : DepId → Prop}

/-- The plain read of a list: the set of its observer, and a walk of its items, every time. -/
def trackListPlain (l : ListRef) : Eff η Unit := do
  let m ← get
  match m.target with
  | none => pure ()
  | some _ =>
    if let some ob := (m.listCell l).observer then depend ob.dep
    dependList l

/-! ## What a read records -/

theorem depend_readsIn (d : DepId) (m : Machine η) :
    ∃ m', ExceptT.run (depend d) m = .ok (.ok (), m') ∧ m.ReadsIn (· = d) m' := by
  obtain ⟨m', hrun, hs, -⟩ := depend_scanned d m
  refine ⟨m', hrun, hs, fun w d' hd' => ?_⟩
  unfold depend at hrun
  rw [exec_get_bind] at hrun
  rcases ht : m.target with _ | t
  · rw [ht] at hrun
    cases hrun
    exact .inl hd'
  rw [ht] at hrun
  dsimp only at hrun
  by_cases hg : ((m.watcher t).active && !(m.watcher t).newDeps.contains d &&
      decide (d.idx < m.deps.size)) = true
  · rw [if_pos hg] at hrun
    simp only [Bool.and_eq_true, Bool.not_eq_true', decide_eq_true_eq] at hg
    obtain ⟨⟨hact, -⟩, hlt⟩ := hg
    -- the watcher's reads gain `d`; a new subscription changes no watcher
    have hcell : ∀ w, ({ m with watchers := m.watchers.modify t.idx fun c =>
        { c with newDeps := c.newDeps ++ [d] } } : Machine η).watcher w =
        if w = t then { m.watcher w with newDeps := (m.watcher w).newDeps ++ [d] }
        else m.watcher w := fun w => Machine.watcher_modify _ _ _ _ (.inl (Machine.lt_of_active hact))
    unfold modifyWatcher at hrun
    rw [exec_modify_bind] at hrun
    have hw : (m'.watcher w).newDeps = ((if w = t then
        { m.watcher w with newDeps := (m.watcher w).newDeps ++ [d] } else m.watcher w)).newDeps := by
      split at hrun
      · -- subscribing changes the set's table, not the watcher
        cases hrun
        rw [← hcell]
        rfl
      · cases hrun
        rw [← hcell]
    rw [hw] at hd'
    split at hd'
    · subst w
      rcases List.mem_append.1 hd' with hd' | hd'
      · exact .inl hd'
      · exact .inr ⟨rfl, hact, List.eq_of_mem_singleton hd' ▸ hlt, List.eq_of_mem_singleton hd'⟩
    · exact .inl hd'
  · rw [if_neg hg] at hrun
    cases hrun
    exact .inl hd'

theorem depend_keeps_readsIn (m₀ : Machine η) {d : DepId} (hd : A d) :
    Keeps (m₀.ReadsIn A) (depend d) := by
  intro m hm r m' hrun
  obtain ⟨m₁, hrun₁, h₁⟩ := depend_readsIn d m
  rw [hrun₁] at hrun
  cases hrun
  exact hm.trans (h₁.mono fun _ h => h ▸ hd)

/-- A walk of the items of `l` reads only sets of the observers it meets. -/
theorem dependItems_readsIn (m₀ : Machine η) : ∀ (fuel : Nat) (l : ListRef),
    (∀ d, m₀.ItemSets l d → A d) → Keeps (m₀.ReadsIn A) (dependItems fuel l)
  | 0, _, _ => Keeps.halt _
  | fuel + 1, l, hA => by
    unfold dependItems
    refine Keeps.bind_get fun m hm =>
      Keeps.triple (Keeps.bind (Keeps.forIn_mem fun x hx _ => ?_) fun _ => Keeps.pure _) hm
    -- the walk reads over the heap of `m₀`, so the items are those of `m₀`
    rw [Machine.listCell_of_heap hm.scanned.heap] at hx
    have hsets : ∀ d, m₀.ObservedBy x d → A d := fun d hd => hA d ⟨l, .refl, x, hx, hd⟩
    cases x with
    | obj o =>
      refine Keeps.bind_get fun m₁ hm₁ => Keeps.triple ?_ hm₁
      rw [Machine.object_of_heap hm₁.scanned.heap]
      split
      · rename_i ob hob
        exact Keeps.bind (depend_keeps_readsIn m₀ (hsets _ ⟨ob, hob, rfl⟩)) fun _ => Keeps.pure _
      · exact Keeps.pure _
    | list inner =>
      refine Keeps.bind_get fun m₁ hm₁ => Keeps.triple ?_ hm₁
      have hwalk := Keeps.bind (dependItems_readsIn m₀ fuel inner fun d hd => hA d (hd.of_nests hx))
        fun _ => Keeps.pure (ForInStep.yield PUnit.unit)
      rw [Machine.listCell_of_heap hm₁.scanned.heap]
      split
      · rename_i ob hob
        exact Keeps.bind (depend_keeps_readsIn m₀ (hsets _ ⟨ob, hob, rfl⟩)) fun _ => hwalk
      · exact hwalk
    | _ => exact Keeps.pure _

theorem dependList_readsIn (m₀ : Machine η) (l : ListRef) (hA : ∀ d, m₀.ItemSets l d → A d) :
    Keeps (m₀.ReadsIn A) (dependList l) :=
  Keeps.bind (Keeps.bind Keeps.get fun _ => Keeps.pure _) fun fuel =>
    dependItems_readsIn m₀ fuel l hA

theorem trackListPlain_readsIn (m₀ : Machine η) (l : ListRef) :
    Keeps (m₀.ReadsIn (m₀.ListSets l)) (trackListPlain l) := by
  unfold trackListPlain
  refine Keeps.bind_get fun m hm => Keeps.triple ?_ hm
  have hwalk := dependList_readsIn (A := m₀.ListSets l) m₀ l fun d hd => Or.inr hd
  split
  · exact Keeps.pure _
  · dsimp only
    rw [Machine.listCell_of_heap hm.scanned.heap]
    split
    · rename_i ob hob
      exact Keeps.bind (depend_keeps_readsIn m₀ (.inl ⟨ob, hob, rfl⟩)) fun _ => hwalk
    · exact hwalk

theorem trackListPlain_run (l : ListRef) (m : Machine η) (hc : ¬ m.NestCycle l) :
    ∃ m', ExceptT.run (trackListPlain l) m = .ok (.ok (), m') ∧ m.ReadsIn (m.ListSets l) m' := by
  suffices h : ∃ m', ExceptT.run (trackListPlain l) m = .ok (.ok (), m') from
    h.imp fun m' hrun => ⟨hrun, trackListPlain_readsIn m l m (.refl _ m) _ _ hrun⟩
  unfold trackListPlain
  rw [exec_get_bind]
  rcases m.target with _ | t
  · exact ⟨m, rfl⟩
  dsimp only
  rcases (m.listCell l).observer with _ | ob
  · obtain ⟨m', hrun, -⟩ := (dependList_run l m).1 hc
    exact ⟨m', hrun⟩
  · obtain ⟨m₁, hrun₁, h₁⟩ := depend_readsIn ob.dep m
    have hc₁ : ¬ m₁.NestCycle l := by
      rwa [Machine.nestCycle_congr (Machine.lists_of_heap h₁.scanned.heap)]
    obtain ⟨m', hrun, -⟩ := (dependList_run l m₁).1 hc₁
    exact ⟨m', by rw [exec_bind, hrun₁]; exact hrun⟩

/-! ## The shortcut -/

theorem trackList_of_walks {l : ListRef} {m : Machine η} (hw : m.WalksList l) :
    ExceptT.run (trackList l) m = ExceptT.run (trackListPlain l) m := by
  obtain ⟨t, ht, hn⟩ := hw
  unfold trackList trackListPlain
  rw [exec_get_bind, exec_get_bind, ht]
  dsimp only
  rcases ho : (m.listCell l).observer with _ | ob
  · rfl
  · have hc : (m.watcher t).newDeps.contains ob.dep = false := by
      simpa using hn ob ho
    simp only [hc, Bool.false_eq_true, if_false]

theorem trackList_of_read {l : ListRef} {m : Machine η} {t : WatcherId} {ob : Observer}
    (ht : m.target = some t) (ho : (m.listCell l).observer = some ob)
    (hn : ob.dep ∈ (m.watcher t).newDeps) : ExceptT.run (trackList l) m = .ok (.ok (), m) := by
  unfold trackList
  rw [exec_get_bind, ht]
  dsimp only
  rw [ho]
  simp [hn]

theorem trackList_untargeted {l : ListRef} {m : Machine η} (ht : m.target = none) :
    ExceptT.run (trackList l) m = .ok (.ok (), m) ∧ ExceptT.run (trackListPlain l) m = .ok (.ok (), m) := by
  unfold trackList trackListPlain
  rw [exec_get_bind, exec_get_bind, ht]
  exact ⟨rfl, rfl⟩

end Eff

/-- The shortcut of a tracked list read agrees with the plain read whenever the reader, having
read the list's set, also holds every existing set a walk of the list would read: both return,
over the same heap, with the same reads under way for every watcher. -/
theorem collect_once_agrees (l : ListRef) (m : Machine η) (hc : ¬ m.NestCycle l)
    (hclosed : ∀ t ob, m.target = some t → (m.listCell l).observer = some ob →
      ob.dep ∈ (m.watcher t).newDeps → (m.watcher t).active = true →
      ∀ d, m.ItemSets l d → d.idx < m.deps.size → d ∈ (m.watcher t).newDeps) :
    ∃ m₁ m₂, ExceptT.run (Eff.trackList l) m = .ok (.ok (), m₁) ∧
      ExceptT.run (Eff.trackListPlain l) m = .ok (.ok (), m₂) ∧ m₂.heap = m₁.heap ∧
      ∀ w d, d ∈ (m₂.watcher w).newDeps ↔ d ∈ (m₁.watcher w).newDeps := by
  obtain ⟨m₂, hrun₂, hin⟩ := Eff.trackListPlain_run l m hc
  by_cases hw : m.WalksList l
  · -- the read goes into the items: the two reads are one
    rw [Eff.trackList_of_walks hw]
    exact ⟨m₂, m₂, hrun₂, hrun₂, rfl, fun _ _ => Iff.rfl⟩
  rcases ht : m.target with _ | t
  · obtain ⟨h₁, h₂⟩ := Eff.trackList_untargeted (l := l) ht
    rw [hrun₂] at h₂
    cases h₂
    exact ⟨m, m, h₁, hrun₂, rfl, fun _ _ => Iff.rfl⟩
  -- the list's set is read: the shortcut reads nothing, and the plain read reads again what
  -- is held
  obtain ⟨ob, ho, hn⟩ : ∃ ob, (m.listCell l).observer = some ob ∧ ob.dep ∈ (m.watcher t).newDeps := by
    simpa [Machine.WalksList, ht] using hw
  refine ⟨m, m₂, Eff.trackList_of_read ht ho hn, hrun₂, hin.scanned.heap,
    hin.newDeps_iff fun t' d ht' ha hlt hd => ?_⟩
  rw [ht] at ht'
  cases ht'
  rcases hd with ⟨ob', ho', rfl⟩ | hd
  · rw [ho] at ho'
    cases ho'
    exact hn
  · exact hclosed t ob ht ho hn ha d hd hlt

/-- A list `0` holding an object `0`, both observed, with the sets `0` of the list and `1` of
the object. Watcher `0` collects reads and holds `reads`; the clean computed value `1` read the
list's set. -/
def listOfObservedItem (reads : List DepId) : Machine Unit :=
  { deps := #[{}, {}],
    lists := #[{ items := [.obj ⟨0⟩], observer := some ⟨⟨0⟩, 0⟩ }],
    objects := #[{ observer := some ⟨⟨1⟩, 0⟩ }],
    watchers := #[{ (default : WatcherCell) with active := true, newDeps := reads },
      { (default : WatcherCell) with lazy := true, active := true, deps := [⟨0⟩] }],
    context := [some ⟨0⟩],
    host := () }

theorem listOfObservedItem_not_nests (reads : List DepId) (l l' : ListRef) :
    ¬ (listOfObservedItem reads).Nests l l' := by
  intro h
  rcases l with ⟨_ | n⟩
  · simp [Machine.Nests, Machine.listCell, listOfObservedItem] at h
  · -- past the one list, a list reads as empty
    simp only [Machine.Nests, Machine.listCell, listOfObservedItem] at h
    exact List.not_mem_nil h

/-- Once a read of list `0` has walked it, a second read takes the shortcut and agrees with the
plain read. -/
theorem collect_once_agrees_after_walk :
    ∃ m₁ m₂, ExceptT.run (Eff.trackList ⟨0⟩) (listOfObservedItem [⟨0⟩, ⟨1⟩]) = .ok (.ok (), m₁) ∧
      ExceptT.run (Eff.trackListPlain ⟨0⟩) (listOfObservedItem [⟨0⟩, ⟨1⟩]) = .ok (.ok (), m₂) ∧
      m₂.heap = m₁.heap ∧ ∀ w d, d ∈ (m₂.watcher w).newDeps ↔ d ∈ (m₁.watcher w).newDeps := by
  refine collect_once_agrees ⟨0⟩ _ ?_ ?_
  · rintro ⟨l', -, h⟩
    cases h with
    | single h => exact listOfObservedItem_not_nests _ _ _ h
    | tail _ h => exact listOfObservedItem_not_nests _ _ _ h
  · intro t ob ht _ _ _ d hd _
    simp only [Machine.target, listOfObservedItem, Option.some.injEq] at ht
    subst ht
    obtain ⟨l', hl', x, hx, hob⟩ := hd
    -- no list is nested, so the walk meets the items of list `0` alone
    cases hl' with
    | tail _ h => exact absurd h (listOfObservedItem_not_nests _ _ _)
    | refl =>
      simp [Machine.listCell, listOfObservedItem] at hx
      subst hx
      obtain ⟨ob', hob', rfl⟩ := hob
      simp [Machine.object, listOfObservedItem] at hob'
      subst hob'
      simp [Machine.watcher, listOfObservedItem]

/-- A clean computed value `1`, whose reads were recorded while the object in list `0` was not
yet observed, hands the list's set `0` to watcher `0`. The read of the list that follows records
nothing more, where a plain read records the object's set `1` too. -/
theorem collect_once_misses_item :
    ∃ m₁ m₂, ExceptT.run (do Eff.dependOn ⟨1⟩; Eff.trackList ⟨0⟩) (listOfObservedItem []) =
        .ok (.ok (), m₁) ∧
      ExceptT.run (do Eff.dependOn ⟨1⟩; Eff.trackListPlain ⟨0⟩) (listOfObservedItem []) =
        .ok (.ok (), m₂) ∧
      (m₁.watcher ⟨0⟩).newDeps = [⟨0⟩] ∧ (m₂.watcher ⟨0⟩).newDeps = [⟨0⟩, ⟨1⟩] :=
  ⟨_, _, rfl, rfl, rfl, rfl⟩

end Reactivity
