import Reactivity.Proofs.Observation
import Reactivity.Proofs.Operations

/-!
# Root data and its protection count

The data of a scope is observed as root data: making the scope adds one to the root count of
the data's observer, and destroying it takes one away. While the count is positive, `set` and
`remove` refuse to add or remove keys of the object and warn instead.

The count is a ledger of claims (`RootLedger`). Each scope whose creation left its data
observed holds one claim on it until it is destroyed, whether or not anything still holds the
scope, and each direct observation as root data holds one for good. `RootLedger.Holds` says
that the count of every object is the number of claims on it that still stand;
`root_count_ledger` shows that it holds along every run of the data operations (making and
destroying scopes, observing, switching observation, writing and removing keys) in which
every scope that a destroy ends while its data is observed holds a claim, and that the count
then decides what `set` and `remove` do. A scope made while observation was off holds none:
destroying it once its data has become observed takes away a claim of another scope.

No watcher takes part in these runs (`Machine.Unwatched`), so no host code runs in them.
-/

namespace Reactivity

variable {η : Type}

namespace Machine

/-! ## Views of the tables after an update -/

theorem object_push (m : Machine η) (c : ObjectCell) (o : ObjRef) :
    ({ m with objects := m.objects.push c } : Machine η).object o =
      if o.idx = m.objects.size then c else m.object o := by
  unfold Machine.object
  simp only [Array.getElem?_push]
  split <;> rfl

theorem scope_modify (m : Machine η) (s s' : ScopeId) (f : ScopeCell → ScopeCell) :
    ({ m with scopes := m.scopes.modify s.idx f } : Machine η).scope s' =
      if s' = s ∧ s.idx < m.scopes.size then f (m.scope s') else m.scope s' := by
  unfold Machine.scope
  rw [getD_modify]
  have : s'.idx = s.idx ↔ s' = s := ⟨fun h => by cases s; cases s'; simp_all, fun h => h ▸ rfl⟩
  simp only [this]

theorem scope_push (m : Machine η) (c : ScopeCell) (s : ScopeId) :
    ({ m with scopes := m.scopes.push c } : Machine η).scope s =
      if s.idx = m.scopes.size then c else m.scope s := by
  unfold Machine.scope
  simp only [Array.getElem?_push]
  split <;> rfl

theorem scope_of_size_le {m : Machine η} {s : ScopeId} (h : m.scopes.size ≤ s.idx) :
    m.scope s = default := by
  unfold Machine.scope
  simp [Array.getElem?_eq_none h]

/-! ## Root counts -/

/-- The root count of an object's observer, zero while it has none. -/
def rootCountOf (m : Machine η) (o : ObjRef) : Nat :=
  ((m.object o).observer.map (·.rootCount)).getD 0

/-- No watcher takes part: no dependency set has a subscriber, no scope lists a watcher, and no
assign hook is host code. A write then notifies nobody, and no operation runs host code. -/
structure Unwatched (m : Machine η) : Prop where
  subs : ∀ d, (m.dep d).subs = []
  watchers : ∀ s, (m.scope s).watchers = []
  hooks : ∀ p c, (m.prop p).hook ≠ some (.action c)

/-- `m'` has the scopes and the root counts of `m`, observes every object `m` observes, is
unwatched and names only properties it has: what observing, switching observation and writing
leave of a state. -/
structure RootsKept (m m' : Machine η) : Prop where
  scopes : m'.scopes = m.scopes
  observed : ∀ o, (m.object o).observer.isSome → (m'.object o).observer.isSome
  rootCount : ∀ o, m'.rootCountOf o = m.rootCountOf o
  unwatched : m'.Unwatched
  slots : m'.SlotsInRange

variable {m m' m'' : Machine η}

theorem RootsKept.refl (hu : m.Unwatched) (hwf : m.SlotsInRange) : m.RootsKept m :=
  ⟨rfl, fun _ h => h, fun _ => rfl, hu, hwf⟩

theorem RootsKept.trans (h : m.RootsKept m') (h' : m'.RootsKept m'') : m.RootsKept m'' :=
  ⟨h'.scopes.trans h.scopes, fun o ho => h'.observed o (h.observed o ho),
    fun o => (h'.rootCount o).trans (h.rootCount o), h'.unwatched, h'.slots⟩

theorem Grown.rootCountOf (h : m.Grown m') (o : ObjRef) : m'.rootCountOf o = m.rootCountOf o := by
  unfold Machine.rootCountOf
  cases hob : (m.object o).observer with
  | some ob => rw [h.observer o ob hob]
  | none =>
    cases hob' : (m'.object o).observer with
    | none => rfl
    | some ob' => simp [h.observer_new o ob' hob hob']

theorem Grown.unwatched (h : m.Grown m') (hu : m.Unwatched) : m'.Unwatched := by
  have hrest := h.rest
  refine ⟨fun d => by rw [h.subs]; exact hu.subs d, fun s => ?_, fun p c => ?_⟩
  · rw [hrest]
    exact hu.watchers s
  · by_cases hp : p.idx < m.props.size
    · rw [h.props p hp]
      exact hu.hooks p c
    · rw [h.newProps p (Nat.le_of_not_lt hp)]
      simp

theorem Grown.scopes (h : m.Grown m') : m'.scopes = m.scopes := by
  have := congrArg Machine.scopes h.rest
  exact this

theorem Grown.rootsKept (h : m.Grown m') (hu : m.Unwatched) (hwf : m'.SlotsInRange) :
    m.RootsKept m' :=
  ⟨h.scopes, fun _ ho => h.observed ho, h.rootCountOf, h.unwatched hu, hwf⟩

theorem RootsKept.of_frame (hu : m.Unwatched) (hwf : m.SlotsInRange) (hs : m'.scopes = m.scopes)
    (hd : m'.deps = m.deps) (hp : m'.props.size = m.props.size)
    (hh : ∀ p, (m'.prop p).hook = (m.prop p).hook)
    (ho : ∀ o, (m'.object o).observer = (m.object o).observer)
    (hsl : ∀ o key p, (key, Slot.tracked p) ∈ (m'.object o).slots →
      (key, Slot.tracked p) ∈ (m.object o).slots) : m.RootsKept m' := by
  have hscope : ∀ s, m'.scope s = m.scope s := fun s => by unfold Machine.scope; rw [hs]
  have hdep : ∀ d, m'.dep d = m.dep d := fun d => by unfold Machine.dep; rw [hd]
  refine ⟨hs, fun o h => by rwa [ho], fun o => by unfold rootCountOf; rw [ho], ⟨?_, ?_, ?_⟩,
    fun o key p h => hp ▸ hwf o key p (hsl o key p h)⟩
  · exact fun d => by rw [hdep]; exact hu.subs d
  · exact fun s => by rw [hscope]; exact hu.watchers s
  · exact fun p c => by rw [hh]; exact hu.hooks p c

theorem RootsKept.of_same (hu : m.Unwatched) (hwf : m.SlotsInRange) (ho : m'.objects = m.objects)
    (hs : m'.scopes = m.scopes) (hd : m'.deps = m.deps) (hp : m'.props = m.props) :
    m.RootsKept m' :=
  .of_frame hu hwf hs hd (by rw [hp]) (fun q => by unfold Machine.prop; rw [hp])
    (fun o => by unfold Machine.object; rw [ho]) fun o key p h => by
      unfold Machine.object at h; rwa [ho] at h

theorem RootsKept.push_object (hu : m.Unwatched) (hwf : m.SlotsInRange) {c : ObjectCell}
    (hc : c.observer = none) (hs : ∀ key p, (key, Slot.tracked p) ∉ c.slots) :
    m.RootsKept { m with objects := m.objects.push c } := by
  have hobj : ∀ o, (({ m with objects := m.objects.push c } : Machine η).object o).observer =
      (m.object o).observer := by
    intro o
    rw [object_push]
    split
    · rename_i e
      rw [hc, object_of_size_le (Nat.le_of_eq e.symm)]
      rfl
    · rfl
  refine .of_frame hu hwf rfl rfl rfl (fun _ => rfl) hobj fun o key p h => ?_
  rw [object_push] at h
  split at h
  · exact absurd h (hs key p)
  · exact h

theorem RootsKept.define (hu : m.Unwatched) (hwf : m.SlotsInRange) {o : ObjRef} {key : String}
    {p : Property} (hp : ∀ c, p.hook ≠ some (.action c)) :
    m.RootsKept { m with
      props := m.props.push p
      objects := m.objects.modify o.idx fun c =>
        { c with slots := putSlot key (.tracked ⟨m.props.size⟩) c.slots } } := by
  have hobj := fun o' => object_putSlot (m := { m with props := m.props.push p }) o o' key
    (.tracked ⟨m.props.size⟩)
  have hwf' : SlotsInRange { m with props := m.props.push p } := hwf.of_objects_eq rfl (by simp)
  refine ⟨rfl, fun o' h => ?_, fun o' => ?_, ⟨hu.subs, hu.watchers, fun q c => ?_⟩,
    hwf'.install (by simp)⟩
  · rw [hobj]
    split <;> exact h
  · unfold rootCountOf
    rw [hobj]
    split <;> rfl
  · show (({ m with props := m.props.push p } : Machine η).prop q).hook ≠ _
    rw [prop_push]
    split
    · exact hp c
    · exact hu.hooks q c

/-! ## A claim on the root data -/

theorem bumped_scopes (m : Machine η) (v : Value) : (m.bumped v).scopes = m.scopes := by
  cases v <;> rfl

theorem object_bumped (m : Machine η) (v : Value) (o : ObjRef) :
    ((m.bumped v).object o).observer =
      if v.same (.obj o) then
        (m.object o).observer.map fun ob => { ob with rootCount := ob.rootCount + 1 }
      else (m.object o).observer := by
  cases v with
  | obj o' =>
    show (({ m with objects := m.objects.modify o'.idx _ } : Machine η).object o).observer = _
    rw [object_modify]
    by_cases e : o = o'
    · subst e
      by_cases hlt : o.idx < m.objects.size
      · simp [hlt, Value.same]
      · simp [hlt, Value.same, object_of_size_le (Nat.le_of_not_lt hlt)]
        rfl
    · have : (o' == o) = false := by simpa using Ne.symm e
      simp [e, Value.same, this]
  | _ => rfl

theorem rootCountOf_bumped (m : Machine η) (v : Value) (o : ObjRef) :
    (m.bumped v).rootCountOf o =
      m.rootCountOf o + if v.same (.obj o) && (m.object o).observer.isSome then 1 else 0 := by
  unfold rootCountOf
  rw [object_bumped]
  cases hv : v.same (.obj o) <;> cases hob : (m.object o).observer <;> simp

theorem observed_bumped (m : Machine η) (v : Value) (o : ObjRef) :
    ((m.bumped v).object o).observer.isSome = (m.object o).observer.isSome := by
  rw [object_bumped]
  split <;> simp

theorem bumped_frame (hu : m.Unwatched) (hwf : m.SlotsInRange) (v : Value) :
    (m.bumped v).Unwatched ∧ (m.bumped v).SlotsInRange := by
  have hslots : ∀ o, ((m.bumped v).object o).slots = (m.object o).slots := by
    intro o
    cases v with
    | obj o' =>
      show (({ m with objects := m.objects.modify o'.idx _ } : Machine η).object o).slots = _
      rw [object_modify]
      split <;> rfl
    | _ => rfl
  have hrest : (m.bumped v).props = m.props ∧ (m.bumped v).deps = m.deps := by
    cases v <;> exact ⟨rfl, rfl⟩
  have hscope : ∀ s, (m.bumped v).scope s = m.scope s := fun s => by
    unfold Machine.scope; rw [bumped_scopes]
  refine ⟨⟨fun d => ?_, fun s => by rw [hscope]; exact hu.watchers s, fun p c => ?_⟩,
    fun o key p h => ?_⟩
  · unfold Machine.dep; rw [hrest.2]; exact hu.subs d
  · unfold Machine.prop; rw [hrest.1]; exact hu.hooks p c
  · rw [hslots] at h
    unfold Machine.props at *
    rw [hrest.1]
    exact hwf o key p h

theorem scope_children (m : Machine η) (p t : ScopeId) (f : List ScopeId → List ScopeId) :
    let m' : Machine η := { m with scopes := m.scopes.modify p.idx fun c =>
      { c with children := f c.children } }
    (m'.scope t).data = (m.scope t).data ∧ (m'.scope t).destroyed = (m.scope t).destroyed ∧
      (m'.scope t).beingDestroyed = (m.scope t).beingDestroyed ∧
      (m'.scope t).watchers = (m.scope t).watchers := by
  intro m'
  show (({ m with scopes := m.scopes.modify p.idx _ } : Machine η).scope t).data = _ ∧ _
  rw [scope_modify]
  split <;> exact ⟨rfl, rfl, rfl, rfl⟩

/-- `m'` is `m` with one more scope, whose data is `D`: the other scopes keep their data and
whether they are destroyed, the observed objects stay observed, and `D` gains a claim if it
is observed. -/
structure ScopeMade (m m' : Machine η) (D : ObjRef) : Prop where
  size : m'.scopes.size = m.scopes.size + 1
  data : (m'.scope ⟨m.scopes.size⟩).data = D
  live : (m'.scope ⟨m.scopes.size⟩).destroyed = false ∧
    (m'.scope ⟨m.scopes.size⟩).beingDestroyed = false
  others : ∀ t : ScopeId, t.idx < m.scopes.size → (m'.scope t).data = (m.scope t).data ∧
    (m'.scope t).destroyed = (m.scope t).destroyed ∧
    (m'.scope t).beingDestroyed = (m.scope t).beingDestroyed
  observed : ∀ o, (m.object o).observer.isSome → (m'.object o).observer.isSome
  rootCount : ∀ o, m'.rootCountOf o =
    m.rootCountOf o + if D = o ∧ (m'.object o).observer.isSome then 1 else 0
  unwatched : m'.Unwatched
  slots : m'.SlotsInRange
  children : ∀ t c, c ∈ (m'.scope t).children → c ∈ (m.scope t).children ∨ c = ⟨m.scopes.size⟩

theorem ScopeMade.push {m₃ m₄ : Machine η} {D : ObjRef} (hk : m.RootsKept m₃)
    (hs : m₄.scopes = m₃.scopes)
    (ho : ∀ o, (m₃.object o).observer.isSome → (m₄.object o).observer.isSome)
    (hu : m₄.Unwatched) (hwf : m₄.SlotsInRange)
    (hc : ∀ o, m₄.rootCountOf o = m₃.rootCountOf o +
      if true && (Value.obj D).same (.obj o) && (m₄.object o).observer.isSome then 1 else 0)
    {cell : ScopeCell} (hd : cell.data = D) (hl : cell.destroyed = false ∧ cell.beingDestroyed = false)
    (hw : cell.watchers = []) (hch : cell.children = []) :
    m.ScopeMade { m₄ with scopes := m₄.scopes.push cell } D := by
  have hsize : m₄.scopes.size = m.scopes.size := by rw [hs, hk.scopes]
  have hscope := fun t => scope_push m₄ cell t
  refine ⟨by simp [hsize], ?_, ?_, fun t ht => ?_, fun o h => ho o (hk.observed o h), fun o => ?_,
    ⟨hu.subs, fun t => ?_, hu.hooks⟩, hwf, fun t c hc => ?_⟩
  · rw [hscope, if_pos hsize.symm]
    exact hd
  · rw [hscope, if_pos hsize.symm]
    exact hl
  · rw [hscope, if_neg (by omega)]
    unfold Machine.scope
    rw [hs, hk.scopes]
    exact ⟨rfl, rfl, rfl⟩
  · show m₄.rootCountOf o = m.rootCountOf o + if D = o ∧ (m₄.object o).observer.isSome then 1 else 0
    rw [hc, hk.rootCount]
    by_cases e : D = o <;> simp [e, Value.same]
  · rw [hscope]
    split
    · exact hw
    · exact hu.watchers t
  · rw [hscope] at hc
    split at hc
    · rw [hch] at hc
      cases hc
    · left
      unfold Machine.scope at hc ⊢
      rwa [hs, hk.scopes] at hc

theorem ScopeMade.listed {D : ObjRef} (h : m.ScopeMade m' D) (p : ScopeId) :
    m.ScopeMade { m' with scopes := m'.scopes.modify p.idx fun c =>
      { c with children := c.children ++ [⟨m.scopes.size⟩] } } D := by
  have hc := fun t => scope_children m' p t (· ++ [⟨m.scopes.size⟩])
  refine ⟨by simp [h.size], (hc _).1.trans h.data, ?_, fun t ht => ?_, h.observed, h.rootCount,
    ⟨h.unwatched.subs, fun t => (hc t).2.2.2.trans (h.unwatched.watchers t), h.unwatched.hooks⟩,
    h.slots, fun t c hmem => ?_⟩
  · rw [(hc _).2.1, (hc _).2.2.1]
    exact h.live
  · rw [(hc t).1, (hc t).2.1, (hc t).2.2.1]
    exact h.others t ht
  · rw [scope_modify] at hmem
    split at hmem
    · rcases List.mem_append.1 hmem with hmem | hmem
      · exact h.children t c hmem
      · exact .inr (List.mem_singleton.1 hmem)
    · exact h.children t c hmem

end Machine

namespace Eff

/-! ## Writes keep the root counts -/

section Writes

variable (m₀ : Machine η) (r : Runner η)

theorem rootsKept_modify {f : Machine η → Machine η}
    (h : ∀ m : Machine η, m.Unwatched → m.SlotsInRange → m.RootsKept (f m)) :
    Keeps (m₀.RootsKept ·) (modify f : Eff η Unit) :=
  Keeps.modify fun m hm => hm.trans (h m hm.unwatched hm.slots)

theorem warn_rootsKept (text : String) : Keeps (m₀.RootsKept ·) (warn text : Eff η Unit) :=
  Keeps.bind Keeps.get fun _ => Keeps.ite _ (rootsKept_modify m₀ fun _ hu hwf =>
    .of_frame hu hwf rfl rfl rfl (fun _ => rfl) (fun _ => rfl) fun _ _ _ h => h) (Keeps.pure _)

theorem setItems_rootsKept (l : ListRef) (items : List Value) :
    Keeps (m₀.RootsKept ·) (setItems l items : Eff η Unit) :=
  rootsKept_modify m₀ fun _ hu hwf =>
    .of_frame hu hwf rfl rfl rfl (fun _ => rfl) (fun _ => rfl) fun _ _ _ h => h

theorem notify_unwatched {m : Machine η} (d : DepId) (hu : m.Unwatched) :
    ExceptT.run (notify r d) m = .ok (.ok (), m) := by
  simp [notify, hu.subs d]

theorem notify_rootsKept (d : DepId) : Keeps (m₀.RootsKept ·) (notify r d) := fun m hm res m' hrun => by
  rw [notify_unwatched r d hm.unwatched] at hrun
  cases hrun
  exact hm

theorem observe_stays (v : Value) : Stays (m₀.RootsKept ·) (observe v false) :=
  Sure.intro fun m hm => Sure.conseq (observe_run m v false hm.slots) (fun _ h => h)
    fun _ m' h => by
      obtain ⟨d, e, m₁, hw, rfl⟩ := h
      exact ⟨d, e, hm.trans (hw.grown.rootsKept hm.unwatched hw.slots)⟩

theorem observe_rootsKept (v : Value) : Keeps (m₀.RootsKept ·) (observe v false) :=
  (observe_stays m₀ v).keeps

theorem defineReactive_stays (o : ObjRef) (key : String) (v : Value) (hook : Option AssignHook)
    (hh : ∀ c, hook ≠ some (.action c)) :
    Stays (m₀.RootsKept ·) (defineReactive o key v hook false) :=
  Sure.intro fun m hm => Sure.conseq (defineReactive_run m o key v hook false hm.slots)
    (fun _ h => h) fun _ m' h => by
      obtain ⟨e, m₂, dep, child, hg, -, hwf₂, -, -, rfl⟩ := h
      have hk₂ := hg.rootsKept hm.unwatched hwf₂
      exact ⟨(), e, (hm.trans hk₂).trans (.define hk₂.unwatched hwf₂ hh)⟩

theorem defineReactive_rootsKept (o : ObjRef) (key : String) (v : Value) :
    Keeps (m₀.RootsKept ·) (defineReactive o key v none false) :=
  (defineReactive_stays m₀ o key v none fun _ h => by cases h).keeps

theorem modifyProp_rootsKept (p : PropId) (v : Value) (child : Option DepId) :
    Keeps (m₀.RootsKept ·)
      (modifyProp p fun c => { c with value := v, childDep := child } : Eff η Unit) :=
  rootsKept_modify m₀ fun m hu hwf => .of_frame hu hwf rfl rfl Array.size_modify
    (fun q => by rw [Machine.prop_modify]; split <;> rfl) (fun _ => rfl) fun _ _ _ h => h

theorem install_plain_rootsKept (o : ObjRef) (key : String) (v : Value) :
    Keeps (m₀.RootsKept ·) (install o key (.plain v) : Eff η Unit) :=
  rootsKept_modify m₀ fun m hu hwf => .of_frame hu hwf rfl rfl rfl (fun _ => rfl)
    (fun o' => by rw [Machine.object_modify]; split <;> rfl) fun o' k p h => by
      rw [Machine.object_modify] at h
      split at h
      · rcases Machine.mem_putSlot h with h | h
        · exact h
        · cases h
      · exact h

theorem removeKey_rootsKept (o : ObjRef) (name : String) :
    Keeps (m₀.RootsKept ·)
      (modifyObject o fun c => { c with slots := c.slots.filter (·.1 ≠ name) } : Eff η Unit) :=
  rootsKept_modify m₀ fun m hu hwf => .of_frame hu hwf rfl rfl rfl (fun _ => rfl)
    (fun o' => by rw [Machine.object_modify]; split <;> rfl) fun o' k p h => by
      rw [Machine.object_modify] at h
      split at h
      · exact List.mem_of_mem_filter h
      · exact h

theorem assign_rootsKept {m : Machine η} (hm : m₀.RootsKept m) (p : PropId) :
    Triple (· = m) (assign r (m.prop p).hook) fun _ => (m₀.RootsKept ·) := by
  unfold Eff.assign
  split
  · exact (Keeps.pure _).triple hm
  · rename_i c hc
    exact absurd hc (hm.unwatched.hooks p c)
  · exact (Keeps.bind Keeps.get fun _ => Keeps.ite _ (warn_rootsKept m₀ _) (Keeps.pure _)).triple hm

theorem propSet_rootsKept (p : PropId) (v : Value) : Keeps (m₀.RootsKept ·) (propSet r p v) := by
  unfold Eff.propSet
  refine Keeps.bind_get fun m hm => Triple.ite _ (fun _ => (Keeps.pure _).triple hm) fun _ => ?_
  refine Triple.bind (R := fun _ => (m₀.RootsKept ·)) (assign_rootsKept m₀ r hm p) (fun _ => ?_)
    fun _ _ h => h
  extract_lets store
  have hstore : ∀ child, Keeps (m₀.RootsKept ·) (store child) := fun _ =>
    Keeps.bind (modifyProp_rootsKept m₀ _ _ _) fun _ => notify_rootsKept m₀ r _
  exact Keeps.ite _ (Keeps.bind (Keeps.pure _) hstore)
    (Keeps.bind (observe_rootsKept m₀ _) hstore)

theorem objPut_rootsKept (o : ObjRef) (key : String) (v : Value) :
    Keeps (m₀.RootsKept ·) (objPut r o key v) := by
  refine Keeps.bind (Stable.slot? o key) fun s => ?_
  split
  · exact propSet_rootsKept m₀ r _ _
  · exact install_plain_rootsKept m₀ _ _ _

theorem mutated_rootsKept (l : ListRef) (added : List Value) :
    Keeps (m₀.RootsKept ·) (mutated r l added) := by
  refine Keeps.bind Keeps.get fun m => ?_
  split
  · exact Keeps.bind (Keeps.forIn_list fun _ _ =>
      Keeps.bind (observe_rootsKept m₀ _) fun _ => Keeps.pure _) fun _ => notify_rootsKept m₀ r _
  · exact Keeps.pure _

theorem splice_rootsKept (l : ListRef) (start count : Nat) (added : List Value) :
    Keeps (m₀.RootsKept ·) (splice r l start count added) :=
  Keeps.bind (Stable.itemsUntracked l) fun _ => Keeps.bind (setItems_rootsKept m₀ _ _) fun _ =>
    Keeps.bind (mutated_rootsKept m₀ r _ _) fun _ => Keeps.pure _

theorem padTo_rootsKept (l : ListRef) (n : Nat) : Keeps (m₀.RootsKept ·) (padTo l n : Eff η Unit) :=
  Keeps.bind (Stable.itemsUntracked l) fun _ =>
    Keeps.ite _ (setItems_rootsKept m₀ _ _) (Keeps.pure _)

theorem set_rootsKept (target : Value) (key : Key) (v : Value) :
    Keeps (m₀.RootsKept ·) (set r target key v) := by
  unfold Eff.set
  split
  · split
    · exact Keeps.fault _
    · exact Keeps.bind (padTo_rootsKept m₀ _ _) fun _ =>
        Keeps.bind (splice_rootsKept m₀ r _ _ _ _) fun _ => Keeps.pure _
  · refine Keeps.bind (Stable.hasOwn _ _) fun _ =>
      Keeps.ite _ (Keeps.bind (objPut_rootsKept m₀ r _ _ _) fun _ => Keeps.pure _) ?_
    refine Keeps.bind (Stable.rootCount _) fun _ =>
      Keeps.ite _ (Keeps.bind (warn_rootsKept m₀ _) fun _ => Keeps.pure _) ?_
    refine Keeps.bind Keeps.get fun _ => ?_
    extract_lets done
    have hdone : ∀ u, Keeps (m₀.RootsKept ·) (done u) := fun _ => Keeps.pure _
    split
    · exact Keeps.bind (objPut_rootsKept m₀ r _ _ _) hdone
    · exact Keeps.bind (defineReactive_rootsKept m₀ _ _ _) fun _ =>
        Keeps.bind (notify_rootsKept m₀ r _) hdone
  · exact Keeps.fault _

theorem remove_rootsKept (target : Value) (key : Key) :
    Keeps (m₀.RootsKept ·) (remove r target key) := by
  unfold Eff.remove
  split
  · split
    · exact Keeps.fault _
    · refine Keeps.bind (Stable.itemsUntracked _) fun _ => Keeps.ite _ ?_ (Keeps.pure _)
      exact Keeps.bind (splice_rootsKept m₀ r _ _ _ _) fun _ => Keeps.pure _
  · refine Keeps.bind Keeps.get fun _ => Keeps.bind (Stable.rootCount _) fun _ =>
      Keeps.ite _ (Keeps.bind (warn_rootsKept m₀ _) fun _ => Keeps.pure _) ?_
    refine Keeps.bind (Stable.hasOwn _ _) fun _ => Keeps.ite _ (Keeps.pure _) ?_
    refine Keeps.bind (removeKey_rootsKept m₀ _ _) fun _ => ?_
    split
    · exact notify_rootsKept m₀ r _
    · exact Keeps.pure _
  · exact Keeps.fault _

theorem warn_stays (text : String) : Stays (m₀.RootsKept ·) (warn text : Eff η Unit) :=
  Stays.bind Stays.get fun _ => Stays.ite _ (Stays.modify fun _ hm =>
    hm.trans (.of_same hm.unwatched hm.slots rfl rfl rfl rfl)) (Stays.pure _)

theorem newObject_stays (fields : List (String × Value)) :
    Stays (m₀.RootsKept ·) (newObject fields : Eff η ObjRef) :=
  Stays.get_set_bind (fun m hm => hm.trans (.push_object hm.unwatched hm.slots rfl
    fun key p h => by simp at h)) fun _ _ => Stays.pure _

end Writes

/-! ## Claims -/


theorem same_obj {v : Value} {o : ObjRef} (h : v.same (.obj o) = true) : v = .obj o := by
  cases v <;> simp_all [Value.same]

theorem observe_claims {m : Machine η} (v : Value) (asRoot : Bool) (hu : m.Unwatched)
    (hwf : m.SlotsInRange) :
    Sure (· = m) (observe v asRoot) fun r m' => ∃ d, r = .ok d ∧ m'.scopes = m.scopes ∧
      (∀ o, (m.object o).observer.isSome → (m'.object o).observer.isSome) ∧ m'.Unwatched ∧
      m'.SlotsInRange ∧ ∀ o, m'.rootCountOf o =
        m.rootCountOf o + if asRoot && v.same (.obj o) && (m'.object o).observer.isSome then 1 else 0 := by
  refine Sure.conseq (observe_run m v asRoot hwf) (fun _ h => h) fun _ m' h => ?_
  obtain ⟨d, e, m₁, hw, rfl⟩ := h
  refine ⟨d, e, ?_⟩
  have hk : m.RootsKept m₁ := hw.grown.rootsKept hu hw.slots
  by_cases hb : (asRoot && d.isSome) = true
  · rw [if_pos hb]
    have ⟨hu₁, hwf₁⟩ := Machine.bumped_frame hk.unwatched hk.slots v
    simp only [Bool.and_eq_true] at hb
    refine ⟨(Machine.bumped_scopes m₁ v).trans hk.scopes,
      fun o ho => by rw [Machine.observed_bumped]; exact hk.observed o ho, hu₁, hwf₁, fun o => ?_⟩
    rw [Machine.rootCountOf_bumped, hk.rootCount, Machine.observed_bumped, hb.1, Bool.true_and]
  · rw [if_neg hb]
    refine ⟨hk.scopes, hk.observed, hk.unwatched, hk.slots, fun o => ?_⟩
    rw [hk.rootCount, if_neg, Nat.add_zero]
    intro hc
    simp only [Bool.and_eq_true] at hc hb
    have hd : d = none := by
      cases d with
      | none => rfl
      | some _ => exact absurd ⟨hc.1.1, rfl⟩ hb
    rw [hw.unattached o (same_obj hc.1.2) hd] at hc
    cases hc.2

theorem newScope_made (name : String) (parent : Option ScopeId) (props : List (String × Value))
    (data : Value) {m : Machine η} (hu : m.Unwatched) (hwf : m.SlotsInRange) :
    Sure (· = m) (newScope name parent props data) fun res m' =>
      res = .ok ⟨m.scopes.size⟩ ∧ ∃ D, m.ScopeMade m' D := by
  unfold Eff.newScope
  refine Sure.bind_get fun _ e => ?_
  cases e
  extract_lets s done
  -- until the scope is pushed, every state keeps the root data of `m`
  refine Sure.conseq (P := (m.RootsKept ·)) ?_ (fun _ e => by rw [e]; exact .refl hu hwf)
    fun _ _ h => h
  refine Sure.bind_ok (newObject_stays m []) fun propObj => Sure.bind_get fun m₁ hm₁ => ?_
  extract_lets wasObserving finish
  refine Sure.modify_bind (Sure.bind_ok (Sure.conseq (P := (m.RootsKept ·))
    (Stays.forIn_list fun kv _ => Stays.bind (defineReactive_stays m _ _ _ _ fun _ h => by cases h)
      fun _ => Stays.pure _) (fun _ e => by rw [e]; exact hm₁.trans (.of_same hm₁.unwatched
        hm₁.slots rfl rfl rfl rfl)) fun _ _ h => h) fun _ => Sure.intro fun m₂ hm₂ => ?_)
  -- whichever object holds the data, the rest (`finish`) observes it and pushes the scope
  have hfinish : ∀ D, Sure (m.RootsKept ·) (finish D) fun res m' =>
      res = .ok ⟨m.scopes.size⟩ ∧ ∃ D, m.ScopeMade m' D := by
    intro D
    dsimp -zeta only [finish]
    refine Sure.bind_ok (Stays.bind Stays.get fun _ => Stays.pure _) fun keys => ?_
    refine Sure.bind_ok (Stays.forIn_list fun k _ => Stays.bind (Stays.bind Stays.get fun _ =>
      Stays.pure _) fun _ => Stays.ite _ (Stays.bind (warn_stays m _) fun _ => Stays.pure _)
        (Stays.pure _)) fun _ => Sure.intro fun m₃ hm₃ => ?_
    refine Sure.bind_ok (observe_claims (.obj D) true hm₃.unwatched hm₃.slots)
      fun _ => Sure.intro fun m₄ h₄ => ?_
    obtain ⟨hs₄, ho₄, hu₄, hwf₄, hc₄⟩ := h₄
    have hmade : m.ScopeMade { m₄ with
        scopes := m₄.scopes.push ({ name := name, parent := parent, props := propObj, data := D }) } D :=
      Machine.ScopeMade.push hm₃ hs₄ ho₄ hu₄ hwf₄ hc₄ rfl ⟨rfl, rfl⟩ rfl rfl
    refine Sure.modify_bind ?_
    cases parent with
    | none => exact Sure.pure_at _ ⟨rfl, D, hmade⟩
    | some p => exact Sure.modify_bind (Sure.pure_at _ ⟨rfl, D, hmade.listed p⟩)
  refine Sure.modify_bind (Sure.conseq (P := (m.RootsKept ·)) ?_ (fun _ e => by
    rw [e]; exact hm₂.trans (.of_same hm₂.unwatched hm₂.slots rfl rfl rfl rfl)) fun _ _ h => h)
  split
  · exact Sure.bind_ok (Stays.pure _) hfinish
  · exact Sure.bind_ok (newObject_stays m []) hfinish
  · exact Sure.bind_ok (warn_stays m _) fun _ => Sure.bind_ok (newObject_stays m []) hfinish

end Eff

end Reactivity
