import Reactivity.Proofs.Context
import Reactivity.Proofs.ComputedCache
import Reactivity.Proofs.Observation
import Reactivity.Proofs.Subscriptions

/-!
# Deep reads

A deep watcher reads its value deeply: `Eff.traverse` enters each container reached from the
value through containers not marked raw (`Machine.Reaches`), once, and reads each key of an
object, plain or tracked, and each item of a list through the tracked accessors. A change of a
container is announced through the set of its observer and through the sets of the tracked
properties under its keys (`Machine.Announces`).

A deep read changes nothing but the reads under way, over the same heap (`Machine.Scanned`). A
visit keeps, beside the containers it has entered, the invariant of a depth-first walk: every
container it has finished has had each of its announcing sets read, and the open containers it
holds have been entered too (`Machine.Traced`); the containers it has started but not finished
are those on its stack. At the top every entered container is finished, so every container
reached from the value has had its sets read (`Eff.traverse_reads`).

Main statement: after an evaluation of a deep watcher returns a value, a watcher still live is
subscribed to every set that announces a change of a container reached from the value, and is
among the watchers a notification of that set updates (`deep_watch_subscribes`). A watcher
torn down before the evaluation reads nothing, so it is subscribed to nothing
(`dormant_watcher_reads_nothing`; `torn_down_deep_watcher_reads_nothing` runs one).
-/

namespace Reactivity

variable {η α β : Type}

theorem Value.any_same_iff {seen : List Value} {v : Value} (hv : v.isContainer = true) :
    seen.any (·.same v) = true ↔ v ∈ seen := by
  rw [List.any_eq_true]
  constructor
  · rintro ⟨x, hx, hs⟩
    cases v <;> cases x <;> simp_all [Value.same, Value.isContainer]
  · intro h
    exact ⟨v, h, by cases v <;> simp_all [Value.same, Value.isContainer]⟩

namespace Machine

variable {m m' m'' : Machine η}

/-! ## The heap and what is reached through it -/

/-- The heap: the tables of objects, lists and tracked properties. -/
def heap (m : Machine η) : Array ObjectCell × Array ListCell × Array Property :=
  (m.objects, m.lists, m.props)

theorem object_of_heap (h : m'.heap = m.heap) (o : ObjRef) : m'.object o = m.object o := by
  unfold Machine.object
  rw [(Prod.mk.inj h).1]

theorem listCell_of_heap (h : m'.heap = m.heap) (l : ListRef) : m'.listCell l = m.listCell l := by
  unfold Machine.listCell
  rw [(Prod.mk.inj (Prod.mk.inj h).2).1]

theorem prop_of_heap (h : m'.heap = m.heap) (p : PropId) : m'.prop p = m.prop p := by
  unfold Machine.prop
  rw [(Prod.mk.inj (Prod.mk.inj h).2).2]

/-- A container that deep reads enter: an object or a list not marked raw. -/
def Open (m : Machine η) : Value → Prop
  | .obj o => (m.object o).raw = false
  | .list l => (m.listCell l).raw = false
  | _ => False

/-- `b` is held by the container `a`: the value under a key of an object, or an item of a
list. -/
def Contains (m : Machine η) : Value → Value → Prop
  | .obj o, b => ∃ k ∈ m.keysOf o, m.valueAt o k = b
  | .list l, b => b ∈ (m.listCell l).items
  | _, _ => False

/-- `c` is an open container reached from `v` through open containers. -/
def Reaches (m : Machine η) (v c : Value) : Prop :=
  Relation.ReflTransGen (fun a b => m.Open a ∧ m.Contains a b) v c ∧ m.Open c

/-- The set `d` announces changes of the container `c`: it is the set of the container's
observer, or of the tracked property under one of the keys of an object. -/
def Announces (m : Machine η) : Value → DepId → Prop
  | .obj o, d => (∃ ob, (m.object o).observer = some ob ∧ ob.dep = d) ∨
      ∃ k p, (m.object o).slots.lookup k = some (.tracked p) ∧ (m.prop p).dep = d
  | .list l, d => ∃ ob, (m.listCell l).observer = some ob ∧ ob.dep = d
  | _, _ => False

/-- Every set that announces changes of a container exists. -/
def SetsExist (m : Machine η) : Prop :=
  ∀ c d, m.Announces c d → d.idx < m.deps.size

theorem open_of_heap (h : m'.heap = m.heap) : m'.Open = m.Open := by
  funext v
  cases v <;> simp only [Machine.Open, object_of_heap h, listCell_of_heap h]

theorem contains_of_heap (h : m'.heap = m.heap) : m'.Contains = m.Contains := by
  funext a b
  have hk : ∀ o, m'.keysOf o = m.keysOf o := fun o => by
    unfold keysOf; rw [object_of_heap h]
  have hv : ∀ o k, m'.valueAt o k = m.valueAt o k := fun o k =>
    valueAt_eq (by rw [object_of_heap h]) (Prod.mk.inj (Prod.mk.inj h).2).2
  cases a <;> simp only [Machine.Contains, hk, hv, listCell_of_heap h]

theorem reaches_of_heap (h : m'.heap = m.heap) : m'.Reaches = m.Reaches := by
  unfold Reaches
  rw [open_of_heap h, contains_of_heap h]

theorem announces_of_heap (h : m'.heap = m.heap) : m'.Announces = m.Announces := by
  funext c d
  cases c <;> simp only [Machine.Announces, object_of_heap h, listCell_of_heap h, prop_of_heap h]

theorem SetsExist.of_heap (hx : m.SetsExist) (h : m'.heap = m.heap)
    (hs : m.deps.size ≤ m'.deps.size) : m'.SetsExist := fun c d hd =>
  Nat.lt_of_lt_of_le (hx c d (announces_of_heap h ▸ hd)) hs

/-! ## Reads over the same heap -/

theorem collect_watcher (m : Machine η) (w : WatcherId) :
    ∃ b, m.collect.watcher w = { m.watcher w with dropped := b } := by
  refine collect_inv (fun s => ∃ b, s.watcher w = { m.watcher w with dropped := b })
    ⟨(m.watcher w).dropped, rfl⟩ (fun s i hs => ?_) fun s i hs => ?_
  · rw [watcher_eq_of_watchers_eq rfl]
    exact hs
  · obtain ⟨b, hb⟩ := hs
    rw [watcher_dropWatcher]
    split
    · exact ⟨true, by rw [hb]⟩
    · exact ⟨b, hb⟩

theorem Records.collect (m : Machine η) : m.Records m.collect := by
  obtain ⟨ws, ds, ss, hsize, hc⟩ := m.collect_eq
  have hw : ∀ w, ∃ b, m.collect.watcher w = { m.watcher w with dropped := b } :=
    m.collect_watcher
  refine ⟨by rw [hc], by rw [hc]; exact hsize, ?_, ?_, ?_, ?_, ?_⟩ <;> intro w <;>
    obtain ⟨b, hb⟩ := hw w <;> simp [hb]

/-- `m'` is `m` after reads alone: more reads under way, over the same heap. -/
structure Scanned (m m' : Machine η) : Prop where
  records : m.Records m'
  heap : m'.heap = m.heap

theorem Scanned.refl (m : Machine η) : m.Scanned m := ⟨.refl m, rfl⟩

theorem Scanned.trans (h : m.Scanned m') (h' : m'.Scanned m'') : m.Scanned m'' :=
  ⟨h.records.trans h'.records, h'.heap.trans h.heap⟩

theorem Scanned.target (h : m.Scanned m') : m'.target = m.target := h.records.target

theorem Scanned.active (h : m.Scanned m') (w : WatcherId) :
    (m'.watcher w).active = (m.watcher w).active := h.records.active w

theorem Scanned.newDeps (h : m.Scanned m') {w : WatcherId} {d : DepId}
    (hd : d ∈ (m.watcher w).newDeps) : d ∈ (m'.watcher w).newDeps := h.records.newDeps w hd

theorem Scanned.setsExist (h : m.Scanned m') (hx : m.SetsExist) : m'.SetsExist :=
  hx.of_heap h.heap (Nat.le_of_eq h.records.size.symm)

/-! ## The invariant of a visit -/

variable {w : WatcherId} {S S' base : List Value} {v x : Value}

/-- A container a visit has finished: `w` has read every set announcing its changes, and each
open container it holds is among `S`. -/
def Traced (m : Machine η) (w : WatcherId) (S : List Value) (x : Value) : Prop :=
  (∀ d, m.Announces x d → d ∈ (m.watcher w).newDeps) ∧ ∀ y, m.Contains x y → m.Open y → y ∈ S

theorem Traced.mono (h : m.Traced w S x) (hs : m.Scanned m') (hS : S ⊆ S') :
    m'.Traced w S' x := by
  refine ⟨fun d hd => hs.newDeps (h.1 d ?_), fun y hy ho => hS (h.2 y ?_ ?_)⟩
  · rwa [announces_of_heap hs.heap] at hd
  · rwa [contains_of_heap hs.heap] at hy
  · rwa [open_of_heap hs.heap] at ho

/-- Midway through a visit from `m₀` that started with `base` seen: reads recorded over the
same heap, and every container added to `base` so far finished. -/
structure Visited (w : WatcherId) (base : List Value) (m₀ : Machine η) (S : List Value)
    (m : Machine η) : Prop where
  scanned : m₀.Scanned m
  added : ∃ new, S = new ++ base ∧ ∀ x ∈ new, m.Traced w S x

theorem Visited.refl (w : WatcherId) (base : List Value) (m : Machine η) :
    Visited w base m base m :=
  ⟨.refl m, [], rfl, fun _ h => absurd h List.not_mem_nil⟩

theorem Visited.sub (h : Visited w base m₀ S m) : base ⊆ S := by
  obtain ⟨new, rfl, -⟩ := h.added
  exact List.subset_append_right _ _

theorem Visited.scan (h : Visited w base m₀ S m) (hs : m.Scanned m') : Visited w base m₀ S m' := by
  obtain ⟨new, hS, hnew⟩ := h.added
  exact ⟨h.scanned.trans hs, new, hS, fun x hx => (hnew x hx).mono hs (List.Subset.refl _)⟩

theorem Visited.trans (h : Visited w base m₀ S m) (h' : Visited w S m S' m') :
    Visited w base m₀ S' m' := by
  obtain ⟨new, hS, hnew⟩ := h.added
  obtain ⟨new', hS', hnew'⟩ := h'.added
  refine ⟨h.scanned.trans h'.scanned, new' ++ new, by rw [hS', hS, List.append_assoc], ?_⟩
  intro x hx
  rcases List.mem_append.1 hx with hx | hx
  · exact hnew' x hx
  · exact (hnew x hx).mono h'.scanned h'.sub

theorem Visited.from (hs : m.Scanned m') (h : Visited w base m' S m'') : Visited w base m S m'' :=
  ⟨hs.trans h.scanned, h.added⟩

theorem Visited.traced_of_mem (h : Visited w [] m₀ S m) (hx : x ∈ S) : m.Traced w S x := by
  obtain ⟨new, rfl, hnew⟩ := h.added
  exact hnew x (by simpa using hx)

/-- A visit from an empty start that entered `v` holds every container reachable from `v`:
the path to it runs through traced containers. -/
theorem Visited.reaches (h : Visited w [] m₀ S m) (hv : m.Open v → v ∈ S) {c : Value}
    (hc : m.Reaches v c) : c ∈ S := by
  obtain ⟨hpath, hopen⟩ := hc
  revert hopen
  induction hpath with
  | refl => exact hv
  | tail _ hbc ih => exact fun hopen => (h.traced_of_mem (ih hbc.1)).2 _ hbc.2 hopen

theorem Visited.finish (h : Visited w (v :: base) m₀ S m) (hv : m.Traced w S v) :
    Visited w base m₀ S m := by
  obtain ⟨new, hS, hnew⟩ := h.added
  refine ⟨h.scanned, new ++ [v], by rw [hS, List.append_assoc]; rfl, fun x hx => ?_⟩
  rcases List.mem_append.1 hx with hx | hx
  · exact hnew x hx
  · rw [List.mem_singleton.1 hx]
    exact hv


/-! ## What an evaluation covers -/

/-- The watchers a notification of `d` updates, in order: the subscribers not dropped, sorted
by creation when flushes are not asynchronous. -/
def notified (m : Machine η) (d : DepId) : List WatcherId :=
  let subs := (m.dep d).subs.filter fun w => !(m.watcher w).dropped
  if m.config.asyncFlush then subs else subs.mergeSort fun a b => a.idx ≤ b.idx

theorem mem_notified {d : DepId} (h : w ∈ (m.dep d).subs) (hd : (m.watcher w).dropped = false) :
    w ∈ m.notified d := by
  have hf : w ∈ (m.dep d).subs.filter fun w => !(m.watcher w).dropped :=
    List.mem_filter.2 ⟨h, by rw [hd]; rfl⟩
  unfold notified
  split
  · exact hf
  · exact List.mem_mergeSort.2 hf

theorem target_of_context {K : List (Option WatcherId)} (h : m.context = some w :: K) :
    m.target = some w := by
  unfold target
  rw [h]

theorem heap_foldl_unsubscribe (ds : List DepId) (m : Machine η) :
    (ds.foldl (fun m d => m.unsubscribe d w) m).heap = m.heap := by
  induction ds generalizing m with
  | nil => rfl
  | cons d ds ih => exact ih (m.unsubscribe d w)

theorem heap_collect (m : Machine η) : m.collect.heap = m.heap := by
  obtain ⟨_, _, _, -, hc⟩ := m.collect_eq
  rw [hc]
  rfl

/-- If `w` is active, every set announcing a change of a container reached from `v` is among
the reads of `w` that `sel` picks: those under way, or those of its last evaluation. -/
def Covers (sel : WatcherCell → List DepId) (w : WatcherId) (v : Value) (m : Machine η) : Prop :=
  (m.watcher w).active = true → ∀ c d, m.Reaches v c → m.Announces c d → d ∈ sel (m.watcher w)

theorem Covers.frame {sel sel' : WatcherCell → List DepId} (h : m.Covers sel w v)
    (hheap : m'.heap = m.heap) (ha : (m'.watcher w).active = (m.watcher w).active)
    (hs : sel' (m'.watcher w) = sel (m.watcher w)) : m'.Covers sel' w v := by
  intro ha' c d hc hd
  rw [hs]
  rw [reaches_of_heap hheap] at hc
  rw [announces_of_heap hheap] at hd
  exact h (ha ▸ ha') c d hc hd

end Machine

namespace Stable

theorem scanned_base (m₀ : Machine η) : Base (m₀.Scanned ·) := by
  have hframe : ∀ m m' : Machine η, m₀.Scanned m → m'.watchers = m.watchers →
      m'.context = m.context → m'.deps = m.deps → m'.heap = m.heap → m₀.Scanned m' :=
    fun _ _ hm hw hc hd hh => hm.trans ⟨.of_watchers hc (by rw [hd]) hw, hh⟩
  have hsettle : Keeps (m₀.Scanned ·) (Eff.settle : Eff η Unit) := by
    refine Keeps.modify fun m hm => ?_
    split
    · obtain ⟨_, _, _, -, hc⟩ := m.collect_eq
      refine hm.trans ⟨(Machine.Records.collect m).trans (.of_watchers rfl rfl rfl), ?_⟩
      show m.collect.heap = m.heap
      rw [hc]
      rfl
    · exact hm
  refine ⟨fun d => ?_, fun _ => Keeps.modify fun m hm => hframe m _ hm rfl rfl rfl rfl,
    Keeps.modify fun m hm => hframe m _ hm rfl rfl rfl rfl, hsettle,
    Keeps.bind (Keeps.modify fun m hm => hframe m _ hm rfl rfl rfl rfl) fun _ => hsettle,
    fun _ => Keeps.modify fun m hm => hframe m _ hm rfl rfl rfl rfl⟩
  intro m hm r m' hrun
  obtain ⟨m₁, hrun₁, hrec, -⟩ := Eff.depend_records d m
  rw [hrun₁] at hrun
  cases hrun
  refine hm.trans ⟨hrec, ?_⟩
  exact (OffTables.base (I := fun s : Machine η => s.heap = m.heap) fun _ _ _ _ _ _ _ _ h => h).depend
    d m rfl _ _ hrun₁

theorem setsExist_eval : Eval (Machine.SetsExist : Machine η → Prop) :=
  OffTables.eval (fun _ _ _ _ _ _ _ hs hx => hx.of_heap rfl hs) fun _ _ hx => hx.of_heap rfl le_rfl

end Stable

theorem Triple.forIn_prefix {xs : List α} {b : β} {f : α → β → Eff η (ForInStep β)}
    (J : List α → β → Machine η → Prop)
    (h : ∀ pre a post b, xs = pre ++ a :: post →
      Triple (J pre b) (f a b) fun r m => ∀ s, r = .ok s → ∃ b', s = .yield b' ∧ J (pre ++ [a]) b' m) :
    Triple (J [] b) (forIn xs b f) fun r m => ∀ b', r = .ok b' → J xs b' m := by
  suffices hrest : ∀ pre rest b, xs = pre ++ rest →
      Triple (J pre b) (forIn rest b f) fun r m => ∀ b', r = .ok b' → J xs b' m from
    hrest [] xs b rfl
  intro pre rest
  induction rest generalizing pre with
  | nil =>
    intro b hxs
    rw [List.append_nil] at hxs
    subst hxs
    exact Triple.pure b fun _ hm _ hb => by cases hb; exact hm
  | cons a rest ih =>
    intro b hxs
    rw [List.forIn_cons]
    refine Triple.bind (h pre a rest b hxs) (fun s m hs => ?_) fun _ _ _ _ hb => by cases hb
    obtain ⟨b', rfl, hm⟩ := hs s rfl
    exact ih (pre ++ [a]) b' (by rw [hxs, List.append_assoc]; rfl) m hm

theorem Keeps.and {I J : Machine η → Prop} {x : Eff η α} (hI : Keeps I x) (hJ : Keeps J x) :
    Keeps (fun m => I m ∧ J m) x :=
  Triple.and (Triple.conseq hI (fun _ h => h.1) fun _ _ h => h)
    (Triple.conseq hJ (fun _ h => h.2) fun _ _ h => h)

theorem Triple.run_bind {Q : Except Fault β → Machine η → Prop} {x : Eff η α} {k : α → Eff η β}
    {m m' : Machine η} {a : α} (hx : ExceptT.run x m = .ok (.ok a, m'))
    (h : Triple (· = m') (k a) Q) : Triple (· = m) (x >>= k) Q := by
  rintro _ rfl r m'' hr
  rw [Eff.exec_bind, hx] at hr
  exact h m' rfl r m'' hr

namespace Eff

open Machine

/-! ## The reads of a deep read -/

theorem depend_scanned (d : DepId) (m : Machine η) :
    ∃ m', ExceptT.run (depend d) m = .ok (.ok (), m') ∧ m.Scanned m' ∧
      ∀ w, m.target = some w → (m.watcher w).active = true → d.idx < m.deps.size →
        d ∈ (m'.watcher w).newDeps := by
  obtain ⟨m', hrun, hrec, hd⟩ := depend_records d m
  refine ⟨m', hrun, ⟨hrec, ?_⟩, hd⟩
  exact (OffTables.base (I := fun s : Machine η => s.heap = m.heap)
    fun _ _ _ _ _ _ _ _ h => h).depend d m rfl _ _ hrun

theorem objKeys_reads (o : ObjRef) (m : Machine η) :
    ∃ m', ExceptT.run (objKeys o) m = .ok (.ok (m.keysOf o), m') ∧ m.Scanned m' ∧
      ∀ w, m.target = some w → (m.watcher w).active = true → m.SetsExist →
        ∀ ob, (m.object o).observer = some ob → ob.dep ∈ (m'.watcher w).newDeps := by
  -- the keys are read after the set, from the same heap
  have hkeys : ∀ m' : Machine η, m.Scanned m' →
      ExceptT.run (objKeysUntracked o) m' = .ok (.ok (m.keysOf o), m') := fun m' hs => by
    unfold objKeysUntracked
    rw [exec_get_bind, exec_pure, object_of_heap hs.heap]
    rfl
  unfold objKeys trackObject
  rw [exec_bind, exec_get_bind]
  by_cases ht : m.target.isSome = true
  · rw [if_pos ht]
    cases hob : (m.object o).observer with
    | none =>
      refine ⟨m, hkeys m (.refl m), .refl m, fun _ _ _ _ ob h => ?_⟩
      cases h
    | some ob =>
      obtain ⟨m₁, hrun₁, hs₁, hd₁⟩ := depend_scanned ob.dep m
      dsimp only
      rw [hrun₁]
      refine ⟨m₁, hkeys m₁ hs₁, hs₁, fun w hw hact hx ob' h => ?_⟩
      cases h
      exact hd₁ w hw hact (hx (.obj o) ob.dep (.inl ⟨ob, hob, rfl⟩))
  · rw [if_neg ht]
    refine ⟨m, hkeys m (.refl m), .refl m, fun w hw => ?_⟩
    simp [hw] at ht

theorem Triple.scanned_returns {x : Eff η α} {m : Machine η} {a : α}
    (hk : Keeps (m.Scanned ·) x) (hv : Triple (fun _ => True) x fun res _ => ∀ u, res = .ok u → u = a) :
    Triple (· = m) x fun res m' => ∀ u, res = .ok u → u = a ∧ m.Scanned m' := by
  intro s hs res m' hrun u hu
  subst hs hu
  exact ⟨hv s trivial _ m' hrun u rfl, hk s (.refl s) _ m' hrun⟩

theorem propGet_reads (p : PropId) (m : Machine η) :
    Triple (· = m) (propGet p) fun res m' => ∀ u, res = .ok u → u = (m.prop p).value ∧
      m.Scanned m' ∧ ∀ w, m.target = some w → (m.watcher w).active = true →
        (m.prop p).dep.idx < m.deps.size → (m.prop p).dep ∈ (m'.watcher w).newDeps := by
  unfold propGet
  refine Triple.bind_get fun m₁ (h₁ : m₁ = m) => ?_
  subst h₁
  dsimp only
  -- after the read of the property's own set, the rest reads more over the same heap
  have hrest : ∀ m₂ : Machine η, m₁.Scanned m₂ → ∀ (x : Eff η Value),
      Triple (· = m₂) x (fun res m' => ∀ u, res = .ok u → u = (m₁.prop p).value ∧ m₂.Scanned m') →
      Triple (· = m₂) x fun res m' => ∀ u, res = .ok u → u = (m₁.prop p).value ∧ m₁.Scanned m' ∧
        ∀ w, m₁.target = some w → (m₁.watcher w).active = true →
          (m₁.prop p).dep.idx < m₁.deps.size → (m₂.watcher w).newDeps ⊆ (m'.watcher w).newDeps :=
    fun m₂ hs₂ x hx => Triple.conseq hx (fun _ h => h) fun res m' h u hu => by
      obtain ⟨hu', hs'⟩ := h u hu
      exact ⟨hu', hs₂.trans hs', fun w _ _ _ => fun _ hd => hs'.newDeps hd⟩
  refine Triple.ite _ (fun ht => ?_) fun ht => ?_
  · obtain ⟨m₂, hrun₂, hs₂, hd₂⟩ := depend_scanned (m₁.prop p).dep m₁
    refine Triple.run_bind hrun₂ (Triple.conseq (hrest m₂ hs₂ _ ?_) (fun _ h => h) fun res m' h u hu => ?_)
    · have hb := Stable.scanned_base (η := η) m₂
      refine Triple.scanned_returns ?_ ?_
      · split
        · refine Keeps.bind (hb.depend _) fun _ => ?_
          split
          · exact Keeps.bind (hb.dependList _) fun _ => Keeps.pure _
          · exact Keeps.pure _
        · exact Keeps.pure _
      · -- whatever is read on the way, the value handed back is the property's
        have hleaf : Triple (fun _ => True) (Pure.pure (m₁.prop p).value : Eff η Value)
            fun res _ => ∀ u, res = .ok u → u = (m₁.prop p).value :=
          Triple.pure _ fun _ _ _ hu => by cases hu; rfl
        split
        · refine Triple.bind_returns fun _ => ?_
          split
          · exact Triple.bind_returns fun _ => hleaf
          · exact hleaf
        · exact hleaf
    · obtain ⟨hu', hs', hsub⟩ := h u hu
      exact ⟨hu', hs', fun w hw hact hlt => hsub w hw hact hlt (hd₂ w hw hact hlt)⟩
  · refine Triple.pure _ fun _ h u hu => ?_
    subst h
    cases hu
    refine ⟨rfl, .refl _, fun w hw => ?_⟩
    simp [hw] at ht

theorem objGet_reads (o : ObjRef) (key : String) (m : Machine η) :
    Triple (· = m) (objGet o key) fun res m' => ∀ u, res = .ok u → u = m.valueAt o key ∧
      m.Scanned m' ∧ ∀ w, m.target = some w → (m.watcher w).active = true → m.SetsExist →
        ∀ p, (m.object o).slots.lookup key = some (.tracked p) →
          (m.prop p).dep ∈ (m'.watcher w).newDeps := by
  unfold objGet slot?
  refine Triple.run_bind (a := (m.object o).slots.lookup key) (by rw [exec_get_bind]; rfl) ?_
  -- the value is the slot's: plain, tracked, or absent
  have hvalue : ∀ s, (m.object o).slots.lookup key = some s → m.valueAt o key = m.slotValue s :=
    fun s hs => by unfold valueAt; rw [hs]
  cases hs : (m.object o).slots.lookup key with
  | none =>
    refine Triple.pure _ fun _ h u hu => ?_
    subst h
    cases hu
    refine ⟨by unfold valueAt; rw [hs], .refl _, fun _ _ _ _ p hp => ?_⟩
    cases hp
  | some s =>
    cases s with
    | plain v =>
      refine Triple.pure _ fun _ h u hu => ?_
      subst h
      cases hu
      refine ⟨(hvalue _ hs).symm, .refl _, fun _ _ _ _ p hp => ?_⟩
      cases hp
    | tracked p =>
      refine Triple.conseq (propGet_reads p m) (fun _ h => h) fun res m' h u hu => ?_
      obtain ⟨hu', hs', hd⟩ := h u hu
      refine ⟨hu'.trans (hvalue _ hs).symm, hs', fun w hw hact hx p' hp' => ?_⟩
      cases hp'
      exact hd w hw hact (hx (.obj o) _ (.inr ⟨key, p, hs, rfl⟩))

theorem listItems_reads (l : ListRef) (m : Machine η) :
    Triple (· = m) (listItems l) fun res m' => ∀ u, res = .ok u → u = (m.listCell l).items ∧
      m.Scanned m' ∧ ∀ w, m.target = some w → (m.watcher w).active = true → m.SetsExist →
        ∀ ob, (m.listCell l).observer = some ob → ob.dep ∈ (m'.watcher w).newDeps := by
  unfold listItems
  -- the list's own set is read first, unless this evaluation read it already
  have htrack : Triple (· = m) (trackList l) fun _ m' => m.Scanned m' ∧
      ∀ w, m.target = some w → (m.watcher w).active = true → m.SetsExist →
        ∀ ob, (m.listCell l).observer = some ob → ob.dep ∈ (m'.watcher w).newDeps := by
    have hlist : Triple (· = m) (dependList l) fun _ m' => m.Scanned m' :=
      Triple.conseq ((Stable.scanned_base m).dependList l) (fun _ h => h ▸ .refl m) fun _ _ h => h
    unfold trackList
    refine Triple.bind_get fun m₁ (h₁ : m₁ = m) => ?_
    subst h₁
    split
    · rename_i ht
      refine Triple.pure _ fun _ h => ?_
      subst h
      refine ⟨.refl _, fun w hw => ?_⟩
      rw [ht] at hw
      cases hw
    · rename_i t ht
      dsimp only
      split
      · rename_i ob hob
        refine Triple.ite _ (fun hin => Triple.pure _ fun _ h => ?_) fun hin => ?_
        · subst h
          refine ⟨.refl _, fun w hw _ _ ob' hob' => ?_⟩
          rw [ht] at hw
          cases hw
          rw [hob] at hob'
          cases hob'
          simpa using hin
        · obtain ⟨m₂, hrun₂, hs₂, hd₂⟩ := depend_scanned ob.dep m₁
          refine Triple.run_bind hrun₂ (Triple.conseq ((Stable.scanned_base m₂).dependList l)
            (fun _ h => h ▸ .refl m₂) fun _ m' h => ⟨hs₂.trans h, fun w hw hact hx ob' hob' => ?_⟩)
          rw [hob] at hob'
          cases hob'
          exact h.newDeps (hd₂ w hw hact (hx (.list l) _ ⟨ob, hob, rfl⟩))
      · rename_i hob
        refine Triple.conseq hlist (fun _ h => h) fun _ _ h => ⟨h, fun _ _ _ _ ob hob' => ?_⟩
        rw [hob] at hob'
        cases hob'
  refine Triple.bind htrack (fun _ => ?_) fun _ _ _ _ hu => by cases hu
  refine Triple.bind_get fun m' hm' => Triple.pure _ fun _ h u hu => ?_
  subst h
  cases hu
  exact ⟨by rw [listCell_of_heap hm'.1.heap], hm'.1, hm'.2⟩

/-! ## A visit -/

/-- What a visit of `v` from `m` promises if it hands back `S`: the containers it added to
`seen` are finished, and `v`, if open, is among `S`. -/
def VisitPost (w : WatcherId) (seen : List Value) (v : Value) (m : Machine η) :
    Except Fault (List Value) → Machine η → Prop :=
  fun res m' => ∀ S, res = .ok S → Visited w seen m S m' ∧ (m.Open v → v ∈ S)

/-- The visits of one fuel keep their promise from every state where an active watcher collects
reads and every announcing set exists. -/
def VisitsAt (w : WatcherId) (fuel : Nat) : Prop :=
  ∀ seen v (m : Machine η), m.target = some w → (m.watcher w).active = true → m.SetsExist →
    Triple (· = m) (visit fuel seen v) (VisitPost w seen v m)

theorem visit_obj {w : WatcherId} {fuel : Nat} (ih : VisitsAt (η := η) w fuel)
    (seen : List Value) (o : ObjRef) (m : Machine η) (ht : m.target = some w)
    (ha : (m.watcher w).active = true) (hx : m.SetsExist) :
    Triple (· = m) (visit (fuel + 1) seen (.obj o)) (VisitPost w seen (.obj o) m) := by
  unfold visit
  refine Triple.bind_get fun m₀ h₀ => ?_
  subst m₀
  refine Triple.ite _ (fun hstop => Triple.pure _ fun m' h S hS => ?_) fun _ => ?_
  · -- raw, or entered before: nothing is added
    subst m'
    cases hS
    refine ⟨.refl w seen _, fun hopen => ?_⟩
    have hraw : (m.object o).raw = false := hopen
    rw [hraw, Bool.false_or] at hstop
    exact (Value.any_same_iff rfl).1 hstop
  obtain ⟨m₂, hrun₂, hs₂, hd₂⟩ := objKeys_reads o m
  refine Triple.run_bind hrun₂ ?_
  -- the keys walked so far: their values entered, their tracked properties' sets read
  refine Triple.bind (Triple.conseq (Triple.forIn_prefix (fun pre S s =>
      Visited w (.obj o :: seen) m₂ S s ∧
      (∀ k ∈ pre, m.Open (m.valueAt o k) → m.valueAt o k ∈ S) ∧
      ∀ k ∈ pre, ∀ p, (m.object o).slots.lookup k = some (.tracked p) →
        (m.prop p).dep ∈ (s.watcher w).newDeps) fun pre key post S _ => ?_)
    (fun _ h => h ▸ ⟨.refl w _ _, fun _ h => absurd h List.not_mem_nil,
      fun _ h => absurd h List.not_mem_nil⟩) fun _ _ h => h) (fun S => ?_)
    fun _ _ _ _ hu => by cases hu
  · intro s hJ
    obtain ⟨hv, hvals, hdeps⟩ := hJ
    have hs : m.Scanned s := hs₂.trans hv.scanned
    refine Triple.bind (objGet_reads o key s) (fun u => ?_) (fun _ _ _ _ hu => by cases hu) s rfl
    intro s₁ hR
    obtain ⟨hu, hs₁, hd₁⟩ := hR u rfl
    have hs₁' : m.Scanned s₁ := hs.trans hs₁
    refine Triple.bind (ih S u s₁ (hs₁'.target.trans ht) ((hs₁'.active w).trans ha)
      (hs₁'.setsExist hx)) (fun S' => Triple.pure _ fun s₂ hpost st hst => ?_)
      (fun _ _ _ _ hu => by cases hu) s₁ rfl
    cases hst
    obtain ⟨hv', hin⟩ := hpost S' rfl
    have hvalue : u = m.valueAt o key := by
      rw [hu]
      exact valueAt_eq (by rw [object_of_heap hs.heap]) (Prod.mk.inj (Prod.mk.inj hs.heap).2).2
    refine ⟨S', rfl, (hv.scan hs₁).trans hv', fun k hk hopen => ?_, fun k hk p hp => ?_⟩
    · rcases List.mem_append.1 hk with hk | hk
      · exact hv'.sub (hvals k hk hopen)
      · rw [List.mem_singleton.1 hk, ← hvalue]
        rw [List.mem_singleton.1 hk, ← hvalue, ← open_of_heap hs₁'.heap] at hopen
        exact hin hopen
    · rcases List.mem_append.1 hk with hk | hk
      · exact hv'.scanned.newDeps (hs₁.newDeps (hdeps k hk p hp))
      · rw [List.mem_singleton.1 hk] at hp
        have hd := hd₁ w (hs.target.trans ht) ((hs.active w).trans ha) (hs.setsExist hx) p
          (by rw [object_of_heap hs.heap]; exact hp)
        rw [prop_of_heap hs.heap] at hd
        exact hv'.scanned.newDeps hd
  · -- every key walked: the object is finished
    refine Triple.pure _ fun s hJ S' hS' => ?_
    cases hS'
    obtain ⟨hv, hvals, hdeps⟩ := hJ S rfl
    have hs : m.Scanned s := hs₂.trans hv.scanned
    refine ⟨(hv.finish ⟨fun d hd => ?_, fun y hy hopen => ?_⟩).from hs₂,
      fun _ => hv.sub List.mem_cons_self⟩
    · rw [announces_of_heap hs.heap] at hd
      rcases hd with ⟨ob, hob, rfl⟩ | ⟨k, p, hk, rfl⟩
      · exact hv.scanned.newDeps (hd₂ w ht ha hx ob hob)
      · refine hdeps k ?_ p hk
        unfold keysOf
        exact List.mem_map.2 ⟨_, mem_of_lookup hk, rfl⟩
    · rw [contains_of_heap hs.heap] at hy
      rw [open_of_heap hs.heap] at hopen
      obtain ⟨k, hk, rfl⟩ := hy
      exact hvals k hk hopen

theorem visit_list {w : WatcherId} {fuel : Nat} (ih : VisitsAt (η := η) w fuel)
    (seen : List Value) (l : ListRef) (m : Machine η) (ht : m.target = some w)
    (ha : (m.watcher w).active = true) (hx : m.SetsExist) :
    Triple (· = m) (visit (fuel + 1) seen (.list l)) (VisitPost w seen (.list l) m) := by
  unfold visit
  refine Triple.bind_get fun m₀ h₀ => ?_
  subst m₀
  refine Triple.ite _ (fun hstop => Triple.pure _ fun m' h S hS => ?_) fun _ => ?_
  · subst m'
    cases hS
    refine ⟨.refl w seen _, fun hopen => ?_⟩
    have hraw : (m.listCell l).raw = false := hopen
    rw [hraw, Bool.false_or] at hstop
    exact (Value.any_same_iff rfl).1 hstop
  refine Triple.bind (listItems_reads l m) (fun items => ?_) fun _ _ _ _ hu => by cases hu
  intro m₂ hR
  obtain ⟨rfl, hs₂, hd₂⟩ := hR items rfl
  -- the items walked so far are entered
  refine Triple.bind (Triple.conseq (Triple.forIn_prefix (fun pre S s =>
      Visited w (.list l :: seen) m₂ S s ∧ ∀ y ∈ pre, m.Open y → y ∈ S) fun pre y post S _ => ?_)
    (fun _ h => h ▸ ⟨.refl w _ _, fun _ h => absurd h List.not_mem_nil⟩) fun _ _ h => h)
    (fun S => ?_) (fun _ _ _ _ hu => by cases hu) m₂ rfl
  · intro s hJ
    obtain ⟨hv, hvals⟩ := hJ
    have hs : m.Scanned s := hs₂.trans hv.scanned
    refine Triple.bind (ih S y s (hs.target.trans ht) ((hs.active w).trans ha) (hs.setsExist hx))
      (fun S' => Triple.pure _ fun s₁ hpost st hst => ?_) (fun _ _ _ _ hu => by cases hu) s rfl
    cases hst
    obtain ⟨hv', hin⟩ := hpost S' rfl
    refine ⟨S', rfl, hv.trans hv', fun z hz hopen => ?_⟩
    rcases List.mem_append.1 hz with hz | hz
    · exact hv'.sub (hvals z hz hopen)
    · rw [List.mem_singleton.1 hz] at hopen ⊢
      exact hin (by rw [open_of_heap hs.heap]; exact hopen)
  · -- every item walked: the list is finished
    refine Triple.pure _ fun s hJ S' hS' => ?_
    cases hS'
    obtain ⟨hv, hvals⟩ := hJ S rfl
    have hs : m.Scanned s := hs₂.trans hv.scanned
    refine ⟨(hv.finish ⟨fun d hd => ?_, fun y hy hopen => ?_⟩).from hs₂,
      fun _ => hv.sub List.mem_cons_self⟩
    · rw [announces_of_heap hs.heap] at hd
      obtain ⟨ob, hob, rfl⟩ := hd
      exact hv.scanned.newDeps (hd₂ w ht ha hx ob hob)
    · rw [contains_of_heap hs.heap] at hy
      rw [open_of_heap hs.heap] at hopen
      exact hvals y hy hopen

theorem visit_visits (w : WatcherId) : ∀ fuel, VisitsAt (η := η) w fuel
  | 0 => fun _ _ _ _ _ _ => by
    unfold visit
    exact Triple.halt _
  | fuel + 1 => fun seen v m ht ha hx => by
    cases v with
    | obj o => exact visit_obj (visit_visits w fuel) seen o m ht ha hx
    | list l => exact visit_list (visit_visits w fuel) seen l m ht ha hx
    | _ =>
      refine Triple.pure _ fun m' h S hS => ?_
      subst m'
      cases hS
      exact ⟨.refl w seen _, fun h => False.elim h⟩

/-- A deep read of `v` by an active watcher that collects reads, from a state where every
announcing set exists, leaves every set announced by a container reachable from `v` among the
watcher's new reads, and changes nothing else that an evaluation's records fix. -/
theorem traverse_reads {w : WatcherId} (v : Value) (m : Machine η) (ht : m.target = some w)
    (ha : (m.watcher w).active = true) (hx : m.SetsExist) :
    Triple (· = m) (traverse v) fun res m' => ∀ u, res = .ok u → m.Scanned m' ∧
      ∀ c d, m.Reaches v c → m.Announces c d → d ∈ (m'.watcher w).newDeps := by
  simp only [traverse, containerCount, bind_assoc, pure_bind]
  refine Triple.bind_get fun m₀ h₀ => ?_
  subst m₀
  refine Triple.bind (visit_visits w _ [] v m ht ha hx) (fun S => Triple.pure _ ?_)
    fun _ _ _ _ hu => by cases hu
  intro m' hpost _ _
  obtain ⟨hv, hin⟩ := hpost S rfl
  refine ⟨hv.scanned, fun c d hc hd => ?_⟩
  rw [← open_of_heap hv.scanned.heap] at hin
  rw [← reaches_of_heap hv.scanned.heap] at hc
  rw [← announces_of_heap hv.scanned.heap] at hd
  exact (hv.traced_of_mem (hv.reaches hin hc)).1 d hd

/-! ## An evaluation of a deep watcher -/

section Covers

variable {sel : WatcherCell → List DepId} {v : Value}

theorem settle_covers (hsel : ∀ c b, sel { c with dropped := b } = sel c) :
    Keeps (Covers sel w v) (settle : Eff η Unit) := by
  refine Keeps.modify fun m hm => ?_
  split
  · obtain ⟨b, hb⟩ := m.collect_watcher w
    refine hm.frame (heap_collect m) ?_ ?_
    · show (m.collect.watcher w).active = _
      rw [hb]
    · show sel (m.collect.watcher w) = _
      rw [hb, hsel]
  · exact hm

theorem leave_covers (hsel : ∀ c b, sel { c with dropped := b } = sel c) :
    Keeps (Covers sel w v) (leave : Eff η Unit) :=
  Keeps.bind (Keeps.modify fun _ hm => hm.frame rfl rfl rfl) fun _ => settle_covers hsel

theorem unhold_covers (hsel : ∀ c b, sel { c with dropped := b } = sel c) :
    Keeps (Covers sel w v) (unhold : Eff η Unit) :=
  Keeps.bind (Keeps.modify fun _ hm => hm.frame rfl rfl rfl) fun _ => settle_covers hsel

theorem reconcile_covers (w : WatcherId) (v : Value) :
    Triple (Covers WatcherCell.newDeps w v) (reconcile w : Eff η Unit)
      fun _ => Covers WatcherCell.deps w v := by
  intro m hm r m' hrun
  unfold reconcile at hrun
  rw [exec_get_bind, exec_bind,
    forIn_removeSub_run w (fun d => !(m.watcher w).newDeps.contains d) (fun _ => rfl)] at hrun
  cases hrun
  have hw := watcher_eq_of_watchers_eq (foldl_unsubscribe_watchers (w := w)
    ((m.watcher w).deps.filter fun d => !(m.watcher w).newDeps.contains d) m) w
  refine hm.frame (heap_foldl_unsubscribe _ m) ?_ ?_
  · rw [watcher_modify _ _ _ _ (.inr rfl), if_pos rfl, hw]
  · rw [watcher_modify _ _ _ _ (.inr rfl), if_pos rfl, hw]

theorem traverse_covers (v : Value) :
    Triple (fun m : Machine η => m.target = some w ∧ m.SetsExist) (traverse v)
      fun res m' => ∀ u, res = .ok u → m'.Covers WatcherCell.newDeps w v := by
  intro m hm r m' hrun u hu ha c d hc hd
  have hs : m.Scanned m' := (Stable.scanned_base m).traverse v m (.refl m) r m' hrun
  have ha₀ : (m.watcher w).active = true := hs.active w ▸ ha
  obtain ⟨-, hcov⟩ := traverse_reads v m hm.1 ha₀ hm.2 m rfl r m' hrun u hu
  rw [reaches_of_heap hs.heap] at hc
  rw [announces_of_heap hs.heap] at hd
  exact hcov c d hc hd

end Covers

section Host

variable {r : Runner η} (hr : r.Balanced) (hre : ∀ c a, Keeps Machine.SetsExist (r.invoke c a))
include hr hre

theorem evaluateWith_covers (fuel : Nat) (w : WatcherId) :
    Triple (fun m : Machine η => m.SetsExist ∧ (m.watcher w).deep = true) (evaluateWith r fuel w)
      fun res m' => ∀ v, res = .ok v → m'.Covers WatcherCell.deps w v := by
  cases fuel with
  | zero => exact Triple.halt _
  | succ fuel =>
    unfold Eff.evaluateWith
    refine Triple.bind_get fun m₀ hm₀ => ?_
    extract_lets cell scope tail body
    -- within the frame the context is `some w :: K`; every announcing set stays allocated
    have htail : ∀ res, Triple (fun m : Machine η => m.context = some w :: m₀.context ∧ m.SetsExist)
        (tail res) fun res m' => ∀ v, res = .ok v → m'.Covers WatcherCell.deps w v := by
      intro res
      cases res with
      | ok v =>
        dsimp -zeta only [tail]
        extract_lets finish close
        have hfinish : ∀ u, Triple (Covers WatcherCell.deps w v) (finish u)
            fun res m' => ∀ v, res = .ok v → m'.Covers WatcherCell.deps w v :=
          fun _ => Triple.pure _ fun _ hm _ hv => by cases hv; exact hm
        -- closing the frame makes the reads under way the watcher's reads
        have hclose : Triple (Covers WatcherCell.newDeps w v) (close ())
            fun res m' => ∀ v, res = .ok v → m'.Covers WatcherCell.deps w v := by
          refine Triple.bind_of_keeps (leave_covers fun _ _ => rfl) leave_noFault fun _ => ?_
          refine Triple.bind (reconcile_covers w v) (fun _ => ?_) fun _ _ _ _ hu => by cases hu
          exact Triple.ite _ (fun _ => Triple.bind_of_keeps (unhold_covers fun _ _ => rfl)
            unhold_noFault hfinish) fun _ => hfinish ()
        refine Triple.ite _ (fun _ => ?_) fun hnd => absurd hm₀.2 hnd
        refine Triple.bind (Triple.conseq (traverse_covers v)
          (fun _ hm => ⟨target_of_context hm.1, hm.2⟩) fun _ _ h => h)
          (fun _ => Triple.conseq hclose (fun _ h => h _ rfl) fun _ _ h => h)
          fun _ _ _ _ hu => by cases hu
      | error e =>
        dsimp -zeta only [tail]
        extract_lets finish close
        -- a frame closed after a fault ends with the fault
        have hfinish : ∀ u, Triple (fun _ => True) (finish u)
            fun res m' => ∀ v, res = .ok v → m'.Covers WatcherCell.deps w v :=
          fun _ => Triple.fault _ fun _ _ _ hv => by cases hv
        have hclose : Triple (fun _ => True) (close ())
            fun res m' => ∀ v, res = .ok v → m'.Covers WatcherCell.deps w v :=
          Triple.bind_returns fun _ => Triple.bind_returns fun _ =>
            Triple.ite _ (fun _ => Triple.bind_returns hfinish) fun _ => hfinish ()
        exact Triple.conseq (Triple.ite _ (fun _ => hclose) fun _ => hclose)
          (fun _ _ => trivial) fun _ _ h => h
    have hbody : ∀ u, Triple (fun m : Machine η => m.context = m₀.context ∧ m.SetsExist) (body u)
        fun res m' => ∀ v, res = .ok v → m'.Covers WatcherCell.deps w v := by
      intro u
      dsimp -zeta only [body]
      refine Triple.bind_ok (R := fun _ m => m.context = some w :: m₀.context ∧ m.SetsExist)
        (Triple.modify _ fun m hm => ⟨(), rfl, congrArg (some w :: ·) hm.1, hm.2.of_heap rfl le_rfl⟩)
        fun _ => ?_
      refine Triple.bind_ok (Triple.attempt (Triple.conseq
        (Keeps.and ((Stable.evaluateWith_context hr fuel).2.1 _ _ _)
          ((Stable.setsExist_eval.evaluateWith hre fuel).2.1 _ _))
        (fun _ h => h) fun r _ h => ⟨r, rfl, h⟩)) fun res => ?_
      have hpure := fun x => Triple.bind_ok (Triple.pure (P := fun m : Machine η =>
        m.context = some w :: m₀.context ∧ m.SetsExist) x fun _ h => ⟨x, rfl, h⟩) htail
      split
      · exact Triple.ite _ (fun _ => Triple.bind_of_keeps
          (Keeps.and ((Stable.context_base _).handleError (fun c _ _ _ => hr c _ _) _ _ _)
            (Stable.setsExist_eval.handleError hre _ _ _))
          (handleError_noFault _ _ _ _) fun _ => hpure _) fun _ => hpure _
      · exact hpure _
    refine Triple.conseq (P := fun m : Machine η => m.context = m₀.context ∧ m.SetsExist) ?_
      (fun _ h => ⟨congrArg Machine.context h, h ▸ hm₀.1⟩) fun _ _ h => h
    dsimp -zeta only [scope]
    split
    · exact Triple.bind_of_keeps (Keeps.and ((Stable.context_base _).pin _)
        (Stable.setsExist_eval.pin _)) (pin_noFault _) hbody
    · exact hbody ()

end Host

theorem notify_eq (r : Runner η) (d : DepId) :
    notify r d = (do
      let ws := (← get).notified d
      for w in ws do pin (.watcher w)
      for w in ws do update r w
      for _ in ws do unhold) := rfl

end Eff

/-! ## A torn-down watcher -/

/-- A watcher torn down with no evaluation under way: inactive, with no reads. -/
def WatcherCell.Dormant (c : WatcherCell) : Prop := c.active = false ∧ c.deps = [] ∧ c.newDeps = []

/-- Watcher `w` is torn down, and no evaluation of it is under way. -/
def Dormant (w : WatcherId) (m : Machine η) : Prop := (m.watcher w).Dormant

namespace Dormant

variable {w : WatcherId} {m : Machine η}

theorem modify (h : Dormant w m) (t : WatcherId) {f : WatcherCell → WatcherCell}
    (hf : t = w → ∀ c : WatcherCell, c.Dormant → (f c).Dormant) :
    Dormant w { m with watchers := m.watchers.modify t.idx f } := by
  unfold Dormant
  by_cases hlt : t.idx < m.watchers.size
  · rw [Machine.watcher_modify _ _ _ _ (.inl hlt)]
    split
    · exact hf (Eq.symm ‹_›) _ h
    · exact h
  · rw [Machine.watcher_modify_of_size_le _ _ _ _ (Nat.le_of_not_lt hlt)]
    exact h

theorem collect (h : Dormant w m) : Dormant w m.collect := by
  obtain ⟨b, hb⟩ := m.collect_watcher w
  unfold Dormant
  rw [hb]
  exact h

end Dormant

namespace Eff

variable {w : WatcherId}

theorem depend_dormant (d : DepId) : Keeps (Dormant w) (depend d : Eff η Unit) := by
  refine Keeps.bind_get fun m hm => ?_
  split
  · exact Triple.pure _ fun _ e => e ▸ hm
  · rename_i t _
    dsimp only
    -- `w` is inactive, so a read is recorded only for another watcher
    by_cases htw : t = w
    · subst htw
      rw [if_neg (by simp [hm.1])]
      exact Triple.pure _ fun _ e => e ▸ hm
    · refine Keeps.triple ?_ hm
      exact Keeps.ite _ (Keeps.bind (Keeps.modify fun _ h => h.modify t fun e => absurd e htw)
        fun _ => Keeps.ite _ (Keeps.modify fun _ h => h) (Keeps.pure _)) (Keeps.pure _)

theorem settle_dormant : Keeps (Dormant w) (settle : Eff η Unit) := by
  refine Keeps.modify fun m hm => ?_
  split
  · exact hm.collect
  · exact hm

theorem reconcile_dormant (t : WatcherId) : Keeps (Dormant w) (reconcile t : Eff η Unit) := by
  refine Keeps.bind Keeps.get fun _ => Keeps.bind (Keeps.forIn_list fun _ _ => ?_) fun _ =>
    Keeps.modify fun _ h => h.modify t fun _ _ hc => ⟨hc.1, hc.2.2, rfl⟩
  exact Keeps.ite _ (Keeps.bind (Keeps.modify fun _ h => h) fun _ => Keeps.pure _) (Keeps.pure _)

theorem dormant_evaluates : Stable.Evaluates (Dormant w : Machine η → Prop) where
  depend := depend_dormant
  pin _ := Keeps.modify fun _ h => h
  release := Keeps.modify fun _ h => h
  settle := settle_dormant
  unhold := Keeps.bind (Keeps.modify fun _ h => h) fun _ => settle_dormant
  report _ := Keeps.modify fun _ h => h
  enter _ := Keeps.modify fun _ h => h
  leave := Keeps.bind (Keeps.modify fun _ h => h) fun _ => settle_dormant
  reconcile := reconcile_dormant
  cache t _ := Keeps.modify fun _ h => h.modify t fun _ _ hc => hc

end Eff

/-- A watcher torn down with no evaluation of it under way reads nothing: evaluated again, by
host code that leaves it torn down and keeps subscriptions consistent, it records no read and is
listed by no set, whether the evaluation returns a value or a fault. -/
theorem dormant_watcher_reads_nothing {r : Runner η} {w : WatcherId}
    (hrd : ∀ c a, Keeps (Dormant w) (r.invoke c a))
    (hrs : ∀ c a, Keeps Machine.Subscribed (r.invoke c a)) {m m' : Machine η}
    {res : Except Fault Value} (hm : m.Subscribed) (hd : Dormant w m)
    (hrun : ExceptT.run (Eff.evaluate r w) m = .ok (res, m')) :
    Dormant w m' ∧ ∀ d, w ∉ (m'.dep d).subs := by
  have hm' : m'.Subscribed := Triple.of_run (subscribed_stable.evaluate hrs w) hrun hm
  have hd' : Dormant w m' := Triple.of_run (Eff.dormant_evaluates.evaluate hrd w) hrun hd
  refine ⟨hd', fun d hin => ?_⟩
  rcases hm'.listed hin with h | h
  · rw [hd'.2.1] at h
    exact List.not_mem_nil h
  · rw [hd'.2.2] at h
    exact List.not_mem_nil h

/-- After an evaluation of a deep watcher returns `v`, a watcher still live is subscribed to
every set announcing a change of a container reached from `v`, and a notification of that set
updates it. The host code may run anything that keeps subscriptions consistent, every
announcing set allocated and the tracking context balanced. -/
theorem deep_watch_subscribes {r : Runner η} (hr : r.Balanced)
    (hrs : ∀ c a, Keeps Machine.Subscribed (r.invoke c a))
    (hre : ∀ c a, Keeps Machine.SetsExist (r.invoke c a)) {w : WatcherId} {m m' : Machine η}
    {v c : Value} {d : DepId} (hm : m.Subscribed) (hx : m.SetsExist)
    (hdeep : (m.watcher w).deep = true)
    (hrun : ExceptT.run (Eff.evaluate r w) m = .ok (.ok v, m')) (hlive : (m'.watcher w).Live)
    (hc : m'.Reaches v c) (hd : m'.Announces c d) :
    w ∈ (m'.dep d).subs ∧ w ∈ m'.notified d := by
  have hm' : m'.Subscribed := Triple.of_run (subscribed_stable.evaluate hrs w) hrun hm
  have hcov : m'.Covers WatcherCell.deps w v :=
    Triple.of_run (Eff.evaluateWith_covers hr hre r.fuel w) hrun ⟨hx, hdeep⟩ v rfl
  have hsub : w ∈ (m'.dep d).subs := hm'.complete hlive (.inl (hcov hlive.1 c d hc hd))
  exact ⟨hsub, Machine.mem_notified hsub hlive.2⟩

/-- A host whose every closure returns the object `0`. -/
def objectHost : Runner Unit := ⟨fun _ _ => pure (.obj ⟨0⟩), 2⟩

/-- One observed object, whose observer's set is `0`, and one deep watcher of host code, not
yet evaluated. -/
def deepWatcherOfObject : Machine Unit where
  host := ()
  deps := #[{}]
  objects := #[{ observer := some ⟨⟨0⟩, 0⟩ }]
  watchers := #[{
    scope := none
    expression := "<function>"
    getter := .function 0
    callback := none
    deep := true
    user := false
    lazy := false
    sync := false
    before := none
    render := false
    dirty := false }]

theorem deep_watcher_subscribes_to_its_object :
    ∃ m', ExceptT.run (Eff.evaluate objectHost ⟨0⟩) deepWatcherOfObject =
      .ok (.ok (.obj ⟨0⟩), m') ∧ ⟨0⟩ ∈ (m'.dep ⟨0⟩).subs ∧ ⟨0⟩ ∈ m'.notified ⟨0⟩ := by
  have hm : deepWatcherOfObject.Subscribed :=
    (Machine.subscribed_of_empty (m := { deepWatcherOfObject with deps := #[], watchers := #[] })
      rfl rfl).push_dep.push_watcher _ rfl rfl
  have hx : deepWatcherOfObject.SetsExist := by
    intro c d hd
    cases c with
    | obj o =>
      -- the one object announces through its observer's set; past it, objects have none
      rcases o with ⟨_ | n⟩
      · rcases hd with ⟨ob, hob, rfl⟩ | ⟨k, p, hk, -⟩
        · cases hob
          decide
        · cases hk
      · have hpast : deepWatcherOfObject.object ⟨n + 1⟩ = default := by
          simp [Machine.object, deepWatcherOfObject]
        rcases hd with ⟨ob, hob, -⟩ | ⟨k, p, hk, -⟩
        · rw [hpast] at hob
          cases hob
        · rw [hpast] at hk
          cases hk
    | list l =>
      obtain ⟨ob, hob, -⟩ := hd
      cases hob
    | _ => cases hd
  exact ⟨_, rfl, deep_watch_subscribes (r := objectHost) (c := .obj ⟨0⟩) (d := ⟨0⟩) (fun _ _ _ => Keeps.pure _)
    (fun _ _ => Keeps.pure _) (fun _ _ => Keeps.pure _) hm hx rfl rfl ⟨rfl, rfl⟩ ⟨.refl, rfl⟩
    (.inl ⟨_, rfl, rfl⟩)⟩

/-- A deep watcher over an observed object, evaluated, torn down, and evaluated again: the
evaluation returns the object, whose set does not list the watcher. -/
theorem torn_down_deep_watcher_reads_nothing :
    ∃ m', ExceptT.run (do
        let _ ← Eff.evaluate objectHost ⟨0⟩
        Eff.teardown ⟨0⟩
        Eff.evaluate objectHost ⟨0⟩) deepWatcherOfObject = .ok (.ok (.obj ⟨0⟩), m') ∧
      (m'.watcher ⟨0⟩).deep = true ∧ m'.Reaches (.obj ⟨0⟩) (.obj ⟨0⟩) ∧
      m'.Announces (.obj ⟨0⟩) ⟨0⟩ ∧ ⟨0⟩ ∉ (m'.dep ⟨0⟩).subs :=
  ⟨_, rfl, rfl, ⟨.refl, rfl⟩, .inl ⟨_, rfl, rfl⟩, fun h => by cases h⟩

end Reactivity
