import Reactivity.Proofs.RootData
import Reactivity.Proofs.DeepReads

/-!
# Deep observation

Observation is deep: an observed object keeps the values of its non-shallow tracked properties
observed, and an observed list keeps its items observed, unless they are marked raw
(`Machine.DeepObserved`). Containers enter such positions through `observe` and its walk,
`defineReactive`, writes of tracked properties, `set` on objects and lists, and the list
mutators; each of them observes what it stores before anything can see it.

`observe` attaches the observer before it walks, so it ends on shared and cyclic structures,
and an observed container is returned as it is: a container has at most one observer for its
whole life. What a walk observes is every open container reached from the value through open
containers that had no observer (`Machine.Walk.reaches`); a raw container stops it.

The invariant is `Machine.DeepHeap`: observation deep, over slots that name properties of the
table and a heap that holds only its own containers; with observation on it is
`Machine.Observing`. This module gives what each update of the heap does to it; the operations
built from them are in `Reactivity.Proofs.ObservedWrites`.
-/

namespace Reactivity

variable {η : Type}

namespace Machine

variable {m m' m'' m₀ : Machine η}

/-! ## The invariant -/

/-- Every container held where an observed container announces its changes is observed too,
or marked raw: the value of each non-shallow tracked property of an observed object, and each
item of an observed list. -/
def DeepObserved (m : Machine η) : Prop :=
  (∀ o, (m.object o).observer.isSome → ∀ key, m.TrackedAt o key →
    m.covered (m.valueAt o key) = true) ∧
  ∀ l, (m.listCell l).observer.isSome → ∀ v ∈ (m.listCell l).items, m.covered v = true

/-- Deep observation but for the items `added` of the list `l`: what a list mutator leaves
between storing new items and observing them. -/
def DeepObservedBut (l : ListRef) (added : List Value) (m : Machine η) : Prop :=
  (∀ o, (m.object o).observer.isSome → ∀ key, m.TrackedAt o key →
    m.covered (m.valueAt o key) = true) ∧
  ∀ l', (m.listCell l').observer.isSome → ∀ v ∈ (m.listCell l').items,
    m.covered v = true ∨ l' = l ∧ v ∈ added

/-- `v` is a scalar or a container of the heap. -/
def InHeap (m : Machine η) : Value → Prop
  | .obj o => o.idx < m.objects.size
  | .list l => l.idx < m.lists.size
  | _ => True

/-- Every value the heap holds is in it: the value under each key of each object, and each item
of each list. -/
def Closed (m : Machine η) : Prop :=
  (∀ o, ∀ key ∈ m.keysOf o, m.InHeap (m.valueAt o key)) ∧
  ∀ l, ∀ v ∈ (m.listCell l).items, m.InHeap v

/-- Observation deep, over slots that name properties of the table and a heap that holds only
its own containers. -/
structure DeepHeap (m : Machine η) : Prop where
  deep : m.DeepObserved
  slots : m.SlotsInRange
  closed : m.Closed

/-- A deep heap but for items of `l` among `added`, still to be observed. -/
structure DeepHeapBut (l : ListRef) (added : List Value) (m : Machine η) : Prop where
  deep : m.DeepObservedBut l added
  slots : m.SlotsInRange
  closed : m.Closed

/-- A deep heap, with observation on. -/
structure Observing (m : Machine η) : Prop extends DeepHeap m where
  on : m.observing = true

/-- What `m` keeps of `m₀`: no container is lost, an observed container keeps the set of its
observer, and a shallow property stays shallow. -/
structure Outgrows (m₀ m : Machine η) : Prop where
  objects : m₀.objects.size ≤ m.objects.size
  lists : m₀.lists.size ≤ m.lists.size
  observer : ∀ o d, (m₀.object o).observer.map (·.dep) = some d →
    (m.object o).observer.map (·.dep) = some d
  listObserver : ∀ l d, (m₀.listCell l).observer.map (·.dep) = some d →
    (m.listCell l).observer.map (·.dep) = some d
  shallow : ∀ p, (m₀.prop p).shallow = true → (m.prop p).shallow = true

/-- Observation is on and deep in `m`, reached from `m₀` without losing containers or shallow
properties. -/
def DeepFrom (m₀ m : Machine η) : Prop := m.Observing ∧ m₀.Outgrows m

theorem mem_keysOf_of_trackedAt {o : ObjRef} {key : String} (h : m.TrackedAt o key) :
    key ∈ m.keysOf o := by
  obtain ⟨p, hp, -⟩ := h
  exact List.mem_map.2 ⟨_, mem_of_lookup hp, rfl⟩

theorem DeepObserved.but (h : m.DeepObserved) (l : ListRef) (added : List Value) :
    m.DeepObservedBut l added :=
  ⟨h.1, fun l' hl v hv => .inl (h.2 l' hl v hv)⟩

theorem DeepHeap.but (h : m.DeepHeap) (l : ListRef) (added : List Value) :
    m.DeepHeapBut l added :=
  ⟨h.deep.but l added, h.slots, h.closed⟩

theorem DeepHeapBut.of_unobserved {l : ListRef} {added : List Value}
    (h : m.DeepHeapBut l added) (hl : (m.listCell l).observer = none) : m.DeepHeap := by
  refine ⟨⟨h.deep.1, fun l' hl' v hv => (h.deep.2 l' hl' v hv).resolve_right ?_⟩, h.slots,
    h.closed⟩
  rintro ⟨rfl, -⟩
  rw [hl] at hl'
  cases hl'

theorem DeepObservedBut.grown {l : ListRef} {added : List Value} (h : m.DeepObservedBut l added)
    (hg : m.Grown m') (hw : m.WalkedSince m') (hadded : ∀ v ∈ added, m'.covered v = true) :
    m'.DeepObserved := by
  refine ⟨fun o ho key hk => ?_, fun l' hl v hv => ?_⟩
  · cases hold : (m.object o).observer with
    | none => exact (hw.1 o hold ho key (mem_keysOf_of_trackedAt hk)).2
    | some ob =>
      have hs : (m.object o).observer.isSome = true := by rw [hold]; rfl
      rcases hg.untracked o key hs hk with hk₀ | hc
      · rw [hg.values]
        exact hg.covered (h.1 o hs key hk₀)
      · exact hc
  · cases hold : (m.listCell l').observer with
    | none => exact hw.2 l' hold hl v hv
    | some ob =>
      have hs : (m.listCell l').observer.isSome = true := by rw [hold]; rfl
      rw [hg.items] at hv
      rcases h.2 l' hs v hv with hc | ⟨-, hv'⟩
      · exact hg.covered hc
      · exact hadded v hv'

/-! ## Containers of the heap -/

theorem InHeap.mono {v : Value} (h : m.InHeap v) (ho : m.objects.size ≤ m'.objects.size)
    (hl : m.lists.size ≤ m'.lists.size) : m'.InHeap v := by
  cases v with
  | obj o => exact Nat.lt_of_lt_of_le h ho
  | list l => exact Nat.lt_of_lt_of_le h hl
  | _ => trivial

theorem Closed.grown (h : m.Closed) (hg : m.Grown m') : m'.Closed := by
  have hin : ∀ v, m.InHeap v → m'.InHeap v := fun v hv =>
    hv.mono hg.objects_size.ge hg.lists_size.ge
  refine ⟨fun o key hk => ?_, fun l v hv => ?_⟩
  · rw [hg.keys] at hk
    rw [hg.values]
    exact hin _ (h.1 o key hk)
  · rw [hg.items] at hv
    exact hin v (h.2 l v hv)

theorem DeepHeapBut.walked {l : ListRef} {added : List Value} (h : m.DeepHeapBut l added)
    (hg : m.Grown m') (hw : m.WalkedSince m') (hs : m'.SlotsInRange)
    (hadded : ∀ v ∈ added, m'.covered v = true) : m'.DeepHeap :=
  ⟨h.deep.grown hg hw hadded, hs, h.closed.grown hg⟩

theorem DeepHeap.grown (h : m.DeepHeap) (hg : m.Grown m') (hw : m.WalkedSince m')
    (hs : m'.SlotsInRange) : m'.DeepHeap :=
  (h.but ⟨0⟩ []).walked hg hw hs fun _ hv => absurd hv List.not_mem_nil

theorem DeepHeap.walk {v : Value} {d : Option DepId} (h : m.DeepHeap) (hw : m.Walk m' v d) :
    m'.DeepHeap :=
  h.grown hw.grown hw.walked hw.slots

theorem observed_of_covered {v : Value} (hc : m.covered v = true) (hv : m.InHeap v)
    (hopen : m.Open v) : (m.observerOf v).isSome = true := by
  cases v with
  | obj o =>
    have hlt : o.idx < m.objects.size := hv
    have hraw : (m.object o).raw = false := hopen
    simpa [covered, observerOf, hlt, hraw] using hc
  | list l =>
    have hlt : l.idx < m.lists.size := hv
    have hraw : (m.listCell l).raw = false := hopen
    simpa [covered, observerOf, hlt, hraw] using hc
  | _ => exact absurd hopen id

/-! ## Growth -/

namespace Outgrows

theorem refl (m : Machine η) : m.Outgrows m :=
  ⟨le_rfl, le_rfl, fun _ _ h => h, fun _ _ h => h, fun _ h => h⟩

theorem trans (h : m₀.Outgrows m) (h' : m.Outgrows m') : m₀.Outgrows m' :=
  ⟨h.objects.trans h'.objects, h.lists.trans h'.lists,
    fun o d hd => h'.observer o d (h.observer o d hd),
    fun l d hd => h'.listObserver l d (h.listObserver l d hd),
    fun p hp => h'.shallow p (h.shallow p hp)⟩

theorem inHeap (h : m₀.Outgrows m) {v : Value} (hv : m₀.InHeap v) : m.InHeap v :=
  hv.mono h.objects h.lists

theorem of_props (ho : m.objects.size ≤ m'.objects.size) (hl : m.lists.size ≤ m'.lists.size)
    (hobs : ∀ o, (m'.object o).observer.map (·.dep) = (m.object o).observer.map (·.dep))
    (hlobs : ∀ l, (m'.listCell l).observer.map (·.dep) = (m.listCell l).observer.map (·.dep))
    (hp : m'.props = m.props) : m.Outgrows m' :=
  ⟨ho, hl, fun o d hd => (hobs o).trans hd, fun l d hd => (hlobs l).trans hd,
    fun p hs => by unfold Machine.prop; rw [hp]; exact hs⟩

theorem modifyObject (m : Machine η) (o : ObjRef) {f : ObjectCell → ObjectCell}
    (hf : ∀ c, (f c).observer = c.observer) :
    m.Outgrows { m with objects := m.objects.modify o.idx f } := by
  refine .of_props (Nat.le_of_eq Array.size_modify.symm) le_rfl (fun o' => ?_) (fun _ => rfl) rfl
  rw [object_modify]
  split
  · rw [hf]
  · rfl

theorem modifyList (m : Machine η) (l : ListRef) {f : ListCell → ListCell}
    (hf : ∀ c, (f c).observer = c.observer) :
    m.Outgrows { m with lists := m.lists.modify l.idx f } := by
  refine .of_props le_rfl (Nat.le_of_eq Array.size_modify.symm) (fun _ => rfl) (fun l' => ?_) rfl
  rw [listCell_modify]
  split
  · rw [hf]
  · rfl

end Outgrows

theorem Grown.outgrows (h : m.Grown m') : m.Outgrows m' := by
  refine ⟨h.objects_size.ge, h.lists_size.ge, fun o d hd => ?_, fun l d hd => ?_, fun p hs => ?_⟩
  · obtain ⟨ob, hob, rfl⟩ := Option.map_eq_some_iff.1 hd
    rw [h.observer o ob hob]
    rfl
  · obtain ⟨ob, hob, rfl⟩ := Option.map_eq_some_iff.1 hd
    rw [h.listObserver l ob hob]
    rfl
  by_cases hlt : p.idx < m.props.size
  · rw [h.props p hlt]
    exact hs
  · rw [prop_of_size_le (Nat.le_of_not_lt hlt)] at hs
    cases hs

theorem DeepFrom.refl (h : m.Observing) : m.DeepFrom m := ⟨h, .refl m⟩

theorem DeepFrom.inHeap (h : m₀.DeepFrom m) {v : Value} (hv : m₀.InHeap v) : m.InHeap v :=
  h.2.inHeap hv

/-! ## Updates that mark containers raw or change root counts -/

/-- `m'` has the containers, slots, items, properties and observers' sets of `m`, and covers at
least what `m` covers: it may have more containers marked raw, or other root counts. -/
structure Rawer (m m' : Machine η) : Prop where
  objects : m'.objects.size = m.objects.size
  lists : m'.lists.size = m.lists.size
  props : m'.props = m.props
  object : ∀ o, (m'.object o).observer.map (·.dep) = (m.object o).observer.map (·.dep) ∧
    (m'.object o).slots = (m.object o).slots
  list : ∀ l, (m'.listCell l).observer.map (·.dep) = (m.listCell l).observer.map (·.dep) ∧
    (m'.listCell l).items = (m.listCell l).items
  covered : ∀ v, m.covered v = true → m'.covered v = true

theorem isSome_of_dep {c c' : Option Observer} (h : c'.map (·.dep) = c.map (·.dep)) :
    c'.isSome = c.isSome := by
  rw [← Option.isSome_map (f := Observer.dep), h, Option.isSome_map]

namespace Rawer

theorem valueAt (h : m.Rawer m') (o : ObjRef) (key : String) :
    m'.valueAt o key = m.valueAt o key :=
  valueAt_eq (by rw [(h.object o).2]) h.props

theorem keysOf (h : m.Rawer m') (o : ObjRef) : m'.keysOf o = m.keysOf o := by
  unfold Machine.keysOf
  rw [(h.object o).2]

theorem trackedAt (h : m.Rawer m') {o : ObjRef} {key : String} (hk : m'.TrackedAt o key) :
    m.TrackedAt o key := by
  unfold TrackedAt Machine.prop at hk
  rw [(h.object o).2, h.props] at hk
  exact hk

theorem inHeap (h : m.Rawer m') {v : Value} (hv : m.InHeap v) : m'.InHeap v :=
  hv.mono h.objects.ge h.lists.ge

theorem deepHeap (h : m.Rawer m') (hd : m.DeepHeap) : m'.DeepHeap := by
  refine ⟨⟨fun o ho key hk => ?_, fun l hl v hv => ?_⟩, fun o key p hp => ?_,
    ⟨fun o key hk => ?_, fun l v hv => ?_⟩⟩
  · rw [h.valueAt]
    rw [isSome_of_dep (h.object o).1] at ho
    exact h.covered _ (hd.deep.1 o ho key (h.trackedAt hk))
  · rw [(h.list l).2] at hv
    rw [isSome_of_dep (h.list l).1] at hl
    exact h.covered v (hd.deep.2 l hl v hv)
  · rw [(h.object o).2] at hp
    rw [h.props]
    exact hd.slots o key p hp
  · rw [h.keysOf] at hk
    rw [h.valueAt]
    exact h.inHeap (hd.closed.1 o key hk)
  · rw [(h.list l).2] at hv
    exact h.inHeap (hd.closed.2 l v hv)

theorem outgrows (h : m.Rawer m') : m.Outgrows m' :=
  .of_props h.objects.ge h.lists.ge (fun o => (h.object o).1) (fun l => (h.list l).1) h.props

theorem deepFrom (h : m.Rawer m') (ho : m'.observing = m.observing) (hd : m₀.DeepFrom m) :
    m₀.DeepFrom m' :=
  ⟨⟨h.deepHeap hd.1.toDeepHeap, ho.trans hd.1.on⟩, hd.2.trans h.outgrows⟩

end Rawer

theorem rawer_mapObserver (m : Machine η) (o : ObjRef) {f : Observer → Observer}
    (hf : ∀ ob, (f ob).dep = ob.dep) :
    m.Rawer { m with objects := m.objects.modify o.idx fun c =>
      { c with observer := c.observer.map f } } := by
  have hobj : ∀ o', (({ m with objects := m.objects.modify o.idx fun c =>
      { c with observer := c.observer.map f } } : Machine η).object o').observer.map (·.dep) =
        (m.object o').observer.map (·.dep) ∧
      (({ m with objects := m.objects.modify o.idx fun c =>
        { c with observer := c.observer.map f } } : Machine η).object o').raw = (m.object o').raw ∧
      (({ m with objects := m.objects.modify o.idx fun c =>
        { c with observer := c.observer.map f } } : Machine η).object o').slots =
          (m.object o').slots := by
    intro o'
    rw [object_modify]
    split
    · refine ⟨?_, rfl, rfl⟩
      cases (m.object o').observer with
      | none => rfl
      | some ob => exact congrArg some (hf ob)
    · exact ⟨rfl, rfl, rfl⟩
  refine ⟨Array.size_modify, rfl, rfl, fun o' => ⟨(hobj o').1, (hobj o').2.2⟩,
    fun _ => ⟨rfl, rfl⟩, fun v hv => ?_⟩
  rw [covered_modify (f := fun c => { c with observer := c.observer.map f })
    fun c => ⟨by cases c.observer <;> rfl, rfl⟩]
  exact hv

theorem rawer_mapListObserver (m : Machine η) (l : ListRef) {f : Observer → Observer}
    (hf : ∀ ob, (f ob).dep = ob.dep) :
    m.Rawer { m with lists := m.lists.modify l.idx fun c =>
      { c with observer := c.observer.map f } } := by
  have hlist : ∀ l', (({ m with lists := m.lists.modify l.idx fun c =>
      { c with observer := c.observer.map f } } : Machine η).listCell l').observer.map (·.dep) =
        (m.listCell l').observer.map (·.dep) ∧
      (({ m with lists := m.lists.modify l.idx fun c =>
        { c with observer := c.observer.map f } } : Machine η).listCell l').raw =
          (m.listCell l').raw ∧
      (({ m with lists := m.lists.modify l.idx fun c =>
        { c with observer := c.observer.map f } } : Machine η).listCell l').items =
          (m.listCell l').items := by
    intro l'
    rw [listCell_modify]
    split
    · refine ⟨?_, rfl, rfl⟩
      cases (m.listCell l').observer with
      | none => rfl
      | some ob => exact congrArg some (hf ob)
    · exact ⟨rfl, rfl, rfl⟩
  refine ⟨rfl, Array.size_modify, rfl, fun _ => ⟨rfl, rfl⟩,
    fun l' => ⟨(hlist l').1, (hlist l').2.2⟩, fun v hv => ?_⟩
  cases v with
  | list l' =>
    simp only [Machine.covered, Array.size_modify, isSome_of_dep (hlist l').1, (hlist l').2.1]
      at hv ⊢
    exact hv
  | _ => exact hv

theorem rawer_bumped (m : Machine η) (v : Value) : m.Rawer (m.bumped v) := by
  cases v with
  | obj o => exact rawer_mapObserver m o fun _ => rfl
  | list l => exact rawer_mapListObserver m l fun _ => rfl
  | _ => exact ⟨rfl, rfl, rfl, fun _ => ⟨rfl, rfl⟩, fun _ => ⟨rfl, rfl⟩, fun _ h => h⟩

/-! ## What a walk reaches -/

/-- `b` is held by `a`, an open container with no observer: a step a walk takes. -/
def WalkStep (m : Machine η) (a b : Value) : Prop :=
  m.Open a ∧ m.observerOf a = none ∧ m.Contains a b

/-- Every container reached from `v` through open containers with no observer, where a walk of
`v` went, is covered after it. -/
theorem Walk.reaches {v : Value} {d : Option DepId} (hw : m.Walk m' v d)
    (hon : m.observing = true) {c : Value} (hc : Relation.ReflTransGen m.WalkStep v c) :
    m'.covered c = true := by
  induction hc with
  | refl => exact hw.covered hon
  | tail _ hs ih =>
    rename_i a b _
    obtain ⟨hopen, hnone, hcont⟩ := hs
    cases a with
    | obj o =>
      obtain ⟨k, hk, rfl⟩ := hcont
      -- `o` holds a key, so it is a container of the heap, and it is open: covered means observed
      have hlt : o.idx < m.objects.size := by
        by_contra hge
        rw [Eff.keysOf_of_size_le (Nat.le_of_not_lt hge)] at hk
        cases hk
      have hraw : (m'.object o).raw = false := (hw.grown.raw o).trans hopen
      have hobs : (m'.object o).observer.isSome = true :=
        observed_of_covered (v := .obj o) ih (show o.idx < m'.objects.size by
          rw [hw.grown.objects_size]; exact hlt) hraw
      have hkey := hw.walked.1 o hnone hobs k (by rw [hw.grown.keys]; exact hk)
      rw [← hw.grown.values]
      exact hkey.2
    | list l =>
      have hlt : l.idx < m.lists.size := by
        by_contra hge
        have hitems := Eff.items_of_size_le (Nat.le_of_not_lt hge)
        have hb : b ∈ (m.listCell l).items := hcont
        rw [hitems] at hb
        cases hb
      have hraw : (m'.listCell l).raw = false := (hw.grown.listRaw l).trans hopen
      have hobs : (m'.listCell l).observer.isSome = true :=
        observed_of_covered (v := .list l) ih (show l.idx < m'.lists.size by
          rw [hw.grown.lists_size]; exact hlt) hraw
      exact hw.walked.2 l hnone hobs b (by rw [hw.grown.items]; exact hcont)
    | _ => exact absurd hopen id

/-! ## Writing a slot -/

/-- `m` with the slot `s` put under `key` of `o`. -/
def withSlot (m : Machine η) (o : ObjRef) (key : String) (s : Slot) : Machine η :=
  { m with objects := m.objects.modify o.idx fun c => { c with slots := putSlot key s c.slots } }

theorem mem_keys_putSlot {key k : String} {s : Slot} {slots : List (String × Slot)}
    (h : k ∈ (putSlot key s slots).map (·.1)) : k ∈ slots.map (·.1) ∨ k = key := by
  induction slots with
  | nil =>
    simp only [putSlot, List.map_cons, List.map_nil, List.mem_singleton] at h
    exact .inr h
  | cons ks rest ih =>
    obtain ⟨k', s'⟩ := ks
    simp only [putSlot] at h
    split at h
    · simp only [List.map_cons, List.mem_cons] at h ⊢
      rcases h with h | h
      · exact .inl (.inl h)
      · exact .inl (.inr h)
    · simp only [List.map_cons, List.mem_cons] at h ⊢
      rcases h with h | h
      · exact .inl (.inl h)
      · exact (ih h).imp_left .inr

theorem lookup_withSlot (o o' : ObjRef) (key k : String) (s : Slot) :
    ((m.withSlot o key s).object o').slots.lookup k =
      if o' = o ∧ o.idx < m.objects.size ∧ k = key then some s
      else (m.object o').slots.lookup k := by
  rw [withSlot, object_modify]
  by_cases ho : o' = o ∧ o.idx < m.objects.size
  · rw [if_pos ho, lookup_putSlot]
    by_cases hk : k = key
    · rw [if_pos hk, if_pos ⟨ho.1, ho.2, hk⟩]
    · rw [if_neg hk, if_neg fun h => hk h.2.2]
  · rw [if_neg ho, if_neg fun h => ho ⟨h.1, h.2.1⟩]

theorem observer_withSlot (o o' : ObjRef) (key : String) (s : Slot) :
    ((m.withSlot o key s).object o').observer = (m.object o').observer := by
  rw [withSlot, object_modify]
  split <;> rfl

theorem covered_withSlot (o : ObjRef) (key : String) (s : Slot) :
    (m.withSlot o key s).covered = m.covered :=
  funext (covered_modify fun _ => ⟨rfl, rfl⟩)

theorem valueAt_withSlot (o o' : ObjRef) (key k : String) (s : Slot) :
    (m.withSlot o key s).valueAt o' k =
      if o' = o ∧ o.idx < m.objects.size ∧ k = key then m.slotValue s else m.valueAt o' k := by
  unfold valueAt
  rw [lookup_withSlot]
  by_cases e : o' = o ∧ o.idx < m.objects.size ∧ k = key
  · rw [if_pos e, if_pos e]
    rfl
  · rw [if_neg e, if_neg e]
    rfl

theorem keysOf_withSlot {o o' : ObjRef} {key k : String} {s : Slot}
    (h : k ∈ (m.withSlot o key s).keysOf o') :
    k ∈ m.keysOf o' ∨ o' = o ∧ o.idx < m.objects.size ∧ k = key := by
  unfold keysOf at h ⊢
  rw [withSlot, object_modify] at h
  split at h
  · rename_i ho
    exact (mem_keys_putSlot h).imp_right fun hk => ⟨ho.1, ho.2, hk⟩
  · exact .inl h

theorem DeepHeap.withSlot (h : m.DeepHeap) {o : ObjRef} {key : String} {s : Slot}
    (hc : (m.object o).observer.isSome = true → ∀ q, s = .tracked q →
      (m.prop q).shallow = false → m.covered (m.prop q).value = true)
    (hv : m.InHeap (m.slotValue s)) (hq : ∀ q, s = .tracked q → q.idx < m.props.size) :
    (m.withSlot o key s).DeepHeap := by
  have hin : ∀ v, (m.withSlot o key s).InHeap v ↔ m.InHeap v := fun v => by
    cases v with
    | obj o' => exact iff_of_eq (congrArg (o'.idx < ·) Array.size_modify)
    | _ => exact Iff.rfl
  refine ⟨⟨fun o' ho key' hk => ?_, fun l hl v hv' => ?_⟩, fun o' k q hmem => ?_,
    ⟨fun o' k hk => ?_, fun l v hv' => (hin v).2 (h.closed.2 l v hv')⟩⟩
  · rw [observer_withSlot] at ho
    rw [covered_withSlot, valueAt_withSlot]
    obtain ⟨q, hlk, hsh⟩ := hk
    rw [lookup_withSlot] at hlk
    by_cases e : o' = o ∧ o.idx < m.objects.size ∧ key' = key
    · -- the key written: its slot is the new one
      rw [if_pos e] at hlk ⊢
      cases hlk
      exact hc (e.1 ▸ ho) q rfl hsh
    · rw [if_neg e] at hlk ⊢
      exact h.deep.1 o' ho key' ⟨q, hlk, hsh⟩
  · rw [covered_withSlot]
    exact h.deep.2 l hl v hv'
  · unfold Machine.withSlot at hmem
    rw [object_modify] at hmem
    split at hmem
    · rcases mem_putSlot hmem with hmem | e
      · exact h.slots o' k q hmem
      · exact hq q e.symm
    · exact h.slots o' k q hmem
  · rw [hin, valueAt_withSlot]
    split
    · exact hv
    · rename_i hne
      exact h.closed.1 o' k ((keysOf_withSlot hk).resolve_right hne)

theorem Outgrows.withSlot (m : Machine η) (o : ObjRef) (key : String) (s : Slot) :
    m.Outgrows (m.withSlot o key s) :=
  .of_props (Nat.le_of_eq Array.size_modify.symm) le_rfl
    (fun o' => by rw [observer_withSlot]) (fun _ => rfl) rfl

/-! ## Removing a key -/

theorem lookup_filter_key (slots : List (String × Slot)) (name k : String) :
    (slots.filter (·.1 ≠ name)).lookup k = if k = name then none else slots.lookup k := by
  induction slots with
  | nil => split <;> rfl
  | cons ks rest ih =>
    obtain ⟨k', s'⟩ := ks
    by_cases hk' : k' = name
    · subst hk'
      rw [List.filter_cons_of_neg (by simp), ih]
      by_cases hk : k = k'
      · rw [if_pos hk, if_pos hk]
      · rw [if_neg hk, if_neg hk, List.lookup_cons, beq_false_of_ne hk]
    · rw [List.filter_cons_of_pos (by simpa using hk'), List.lookup_cons, List.lookup_cons, ih]
      by_cases hk : k = name
      · subst hk
        rw [if_pos rfl, if_pos rfl, beq_false_of_ne fun e => hk' e.symm]
      · rw [if_neg hk, if_neg hk]

theorem lookup_of_mem_keys {k : String} {slots : List (String × Slot)}
    (h : k ∈ slots.map (·.1)) : ∃ s, slots.lookup k = some s := by
  induction slots with
  | nil => cases h
  | cons ks rest ih =>
    obtain ⟨k', s'⟩ := ks
    rw [List.lookup_cons]
    by_cases hk : k = k'
    · rw [hk, beq_self_eq_true]
      exact ⟨s', rfl⟩
    · rw [beq_false_of_ne hk]
      simp only [List.map_cons, List.mem_cons] at h
      exact ih (h.resolve_left hk)

theorem DeepHeap.removeKey (h : m.DeepHeap) (o : ObjRef) (name : String) :
    ({ m with objects := m.objects.modify o.idx fun c =>
      { c with slots := c.slots.filter (·.1 ≠ name) } } : Machine η).DeepHeap := by
  have hobj := fun o' => object_modify m o o'
    (fun c => { c with slots := c.slots.filter (·.1 ≠ name) })
  -- a lookup after the removal finds nothing, or what it found before
  have hlook : ∀ o' k s, (({ m with objects := m.objects.modify o.idx fun c =>
      { c with slots := c.slots.filter (·.1 ≠ name) } } : Machine η).object o').slots.lookup k =
        some s → (m.object o').slots.lookup k = some s := by
    intro o' k s hs
    rw [hobj] at hs
    split at hs
    · rw [lookup_filter_key] at hs
      split at hs
      · cases hs
      · exact hs
    · exact hs
  have hval : ∀ o' k s, (({ m with objects := m.objects.modify o.idx fun c =>
      { c with slots := c.slots.filter (·.1 ≠ name) } } : Machine η).object o').slots.lookup k =
        some s → ({ m with objects := m.objects.modify o.idx fun c =>
          { c with slots := c.slots.filter (·.1 ≠ name) } } : Machine η).valueAt o' k =
            m.valueAt o' k := by
    intro o' k s hs
    unfold valueAt
    rw [hs, hlook o' k s hs]
    rfl
  have hcov := covered_modify (m := m) (o := o)
    (f := fun c => { c with slots := c.slots.filter (·.1 ≠ name) }) fun _ => ⟨rfl, rfl⟩
  have hsize : ({ m with objects := m.objects.modify o.idx fun c =>
      { c with slots := c.slots.filter (·.1 ≠ name) } } : Machine η).objects.size =
        m.objects.size := Array.size_modify
  refine ⟨⟨fun o' ho key hk => ?_, fun l hl v hv => ?_⟩, fun o' k q hq => ?_,
    ⟨fun o' k hk => ?_, fun l v hv => ?_⟩⟩
  · obtain ⟨q, hlk, hs⟩ := hk
    have ho' : (m.object o').observer.isSome = true := by
      rw [hobj] at ho
      split at ho <;> exact ho
    rw [hcov, hval o' key _ hlk]
    exact h.deep.1 o' ho' key ⟨q, hlook o' key _ hlk, hs⟩
  · rw [hcov]
    exact h.deep.2 l hl v hv
  · rw [hobj] at hq
    split at hq
    · exact h.slots o' k q (List.mem_of_mem_filter hq)
    · exact h.slots o' k q hq
  · obtain ⟨s, hs⟩ := lookup_of_mem_keys hk
    rw [hval o' k s hs]
    exact (h.closed.1 o' k (List.mem_map.2 ⟨_, mem_of_lookup (hlook o' k s hs), rfl⟩)).mono
      hsize.ge le_rfl
  · exact (h.closed.2 l v hv).mono hsize.ge le_rfl

/-! ## New properties and stores into properties -/

theorem DeepHeap.pushProp (h : m.DeepHeap) (p : Property) :
    ({ m with props := m.props.push p } : Machine η).DeepHeap := by
  refine ⟨⟨fun o ho key hk => ?_, h.deep.2⟩, h.slots.of_objects_eq rfl (by simp),
    ⟨fun o key hk => ?_, h.closed.2⟩⟩
  · rw [valueAt_push h.slots]
    exact h.deep.1 o ho key ((trackedAt_push h.slots p).1 hk)
  · rw [valueAt_push h.slots]
    exact h.closed.1 o key hk

theorem Outgrows.pushProp (m : Machine η) (p : Property) :
    m.Outgrows { m with props := m.props.push p } := by
  refine ⟨le_rfl, le_rfl, fun _ _ h => h, fun _ _ h => h, fun q hs => ?_⟩
  by_cases hlt : q.idx < m.props.size
  · rw [prop_push_of_lt m p hlt]
    exact hs
  · rw [prop_of_size_le (Nat.le_of_not_lt hlt)] at hs
    cases hs

theorem DeepHeap.define (h : m.DeepHeap) {o : ObjRef} {key : String} {v : Value} {dep : DepId}
    {child : Option DepId} {shallow : Bool} {hook : Option AssignHook} (hv : m.InHeap v)
    (hc : (m.object o).observer.isSome = true → shallow = false → m.covered v = true) :
    ({ m with
      props := m.props.push ⟨v, dep, child, shallow, hook⟩
      objects := m.objects.modify o.idx fun c =>
        { c with slots := putSlot key (.tracked ⟨m.props.size⟩) c.slots } } : Machine η).DeepHeap := by
  have hnew : ({ m with props := m.props.push ⟨v, dep, child, shallow, hook⟩ } : Machine η).prop
      ⟨m.props.size⟩ = ⟨v, dep, child, shallow, hook⟩ := by
    rw [prop_push, if_pos rfl]
  refine (h.pushProp _).withSlot (fun ho q e hs => ?_) ?_ fun q e => ?_
  · cases e
    rw [hnew] at hs ⊢
    exact hc ho hs
  · show Machine.InHeap _ (({ m with props := m.props.push ⟨v, dep, child, shallow, hook⟩ } :
      Machine η).prop ⟨m.props.size⟩).value
    rw [hnew]
    exact hv
  · cases e
    simp

theorem Outgrows.define (m : Machine η) (o : ObjRef) (key : String) (p : Property) :
    m.Outgrows { m with
      props := m.props.push p
      objects := m.objects.modify o.idx fun c =>
        { c with slots := putSlot key (.tracked ⟨m.props.size⟩) c.slots } } :=
  (Outgrows.pushProp m p).trans (Outgrows.withSlot _ o key _)

theorem valueAt_store (p : PropId) (v : Value) (child : Option DepId) (o : ObjRef) (k : String) :
    ({ m with props := m.props.modify p.idx fun c => { c with value := v, childDep := child } } :
      Machine η).valueAt o k = m.valueAt o k ∨
    (m.object o).slots.lookup k = some (.tracked p) ∧
      ({ m with props := m.props.modify p.idx fun c => { c with value := v, childDep := child } } :
        Machine η).valueAt o k = v := by
  have hlk' : (({ m with props := m.props.modify p.idx fun c =>
      { c with value := v, childDep := child } } : Machine η).object o).slots.lookup k =
        (m.object o).slots.lookup k := rfl
  unfold valueAt
  rw [hlk']
  cases hlk : (m.object o).slots.lookup k with
  | none => exact .inl rfl
  | some s =>
    cases s with
    | plain w => exact .inl rfl
    | tracked q =>
      show (_ : Property).value = (m.prop q).value ∨ _ ∧ (_ : Property).value = v
      rw [prop_modify]
      by_cases e : q = p ∧ p.idx < m.props.size
      · rw [if_pos e, e.1]
        exact .inr ⟨rfl, rfl⟩
      · rw [if_neg e]
        exact .inl rfl

theorem DeepHeap.store (h : m.DeepHeap) {p : PropId} {v : Value} {child : Option DepId}
    (hv : m.InHeap v) (hc : (m.prop p).shallow = false → m.covered v = true) :
    ({ m with props := m.props.modify p.idx fun c => { c with value := v, childDep := child } } :
      Machine η).DeepHeap := by
  have hsh : ∀ q, (({ m with props := m.props.modify p.idx fun c =>
      { c with value := v, childDep := child } } : Machine η).prop q).shallow = (m.prop q).shallow :=
    fun q => by rw [prop_modify]; split <;> rfl
  refine ⟨⟨fun o ho key hk => ?_, h.deep.2⟩, fun o k q hq => ?_, ⟨fun o k hk => ?_, h.closed.2⟩⟩
  · obtain ⟨q, hlk, hs⟩ := hk
    have hlk₀ : (m.object o).slots.lookup key = some (.tracked q) := hlk
    rw [hsh] at hs
    rcases valueAt_store p v child o key with e | ⟨hlk', e⟩
    · rw [e]
      exact h.deep.1 o ho key ⟨q, hlk₀, hs⟩
    · rw [hlk₀] at hlk'
      cases hlk'
      rw [e]
      exact hc hs
  · rw [Array.size_modify]
    exact h.slots o k q hq
  · rcases valueAt_store p v child o k with e | ⟨_, e⟩
    · rw [e]
      exact h.closed.1 o k hk
    · rw [e]
      exact hv

theorem Outgrows.store (m : Machine η) (p : PropId) (f : Property → Property)
    (hf : ∀ c, (f c).shallow = c.shallow) :
    m.Outgrows { m with props := m.props.modify p.idx f } := by
  refine ⟨le_rfl, le_rfl, fun _ _ h => h, fun _ _ h => h, fun q hs => ?_⟩
  rw [prop_modify]
  split
  · rw [hf]
    exact hs
  · exact hs

/-! ## New containers -/

theorem listCell_push (m : Machine η) (c : ListCell) (l : ListRef) :
    ({ m with lists := m.lists.push c } : Machine η).listCell l =
      if l.idx = m.lists.size then c else m.listCell l := by
  unfold Machine.listCell
  simp only [Array.getElem?_push]
  split <;> rfl

theorem Outgrows.pushObject (m : Machine η) (c : ObjectCell) :
    m.Outgrows { m with objects := m.objects.push c } := by
  refine ⟨by simp, le_rfl, fun o d hd => ?_, fun _ _ h => h, fun _ h => h⟩
  -- an observed object is an old one, which the new one leaves alone
  have hlt : o.idx < m.objects.size := by
    by_contra hge
    rw [object_of_size_le (Nat.le_of_not_lt hge)] at hd
    cases hd
  rw [object_push, if_neg (Nat.ne_of_lt hlt)]
  exact hd

theorem Outgrows.pushList (m : Machine η) (c : ListCell) :
    m.Outgrows { m with lists := m.lists.push c } := by
  refine ⟨le_rfl, by simp, fun _ _ h => h, fun l d hd => ?_, fun _ h => h⟩
  have hlt : l.idx < m.lists.size := by
    by_contra hge
    rw [listCell_of_size_le (Nat.le_of_not_lt hge)] at hd
    cases hd
  rw [listCell_push, if_neg (Nat.ne_of_lt hlt)]
  exact hd

theorem DeepHeap.pushObject (h : m.DeepHeap) {c : ObjectCell} (hc : c.observer = none)
    (htracked : ∀ k p, (k, Slot.tracked p) ∉ c.slots)
    (hin : ∀ k v, (k, Slot.plain v) ∈ c.slots → m.InHeap v) :
    ({ m with objects := m.objects.push c } : Machine η).DeepHeap := by
  have hobj := object_push m c
  have hgrow : m.objects.size ≤ ({ m with objects := m.objects.push c } : Machine η).objects.size := by
    simp
  -- a value of the heap is covered after as before: the new object is no value of the heap
  have hcov : ∀ v, m.InHeap v →
      ({ m with objects := m.objects.push c } : Machine η).covered v = m.covered v := by
    intro v hv
    cases v with
    | obj o =>
      have hlt : o.idx < m.objects.size := hv
      simp [Machine.covered, hobj, hlt, Nat.ne_of_lt hlt, Nat.lt_succ_of_lt hlt]
    | _ => rfl
  -- an observed object is an old one
  have hold : ∀ o, (({ m with objects := m.objects.push c } : Machine η).object o).observer.isSome =
      true → ({ m with objects := m.objects.push c } : Machine η).object o = m.object o := by
    intro o ho
    rw [hobj] at ho ⊢
    split at ho
    · rw [hc] at ho
      cases ho
    · rw [if_neg ‹_›]
  refine ⟨⟨fun o ho key hk => ?_, fun l hl v hv => ?_⟩, fun o k q hq => ?_,
    ⟨fun o k hk => ?_, fun l v hv => (h.closed.2 l v hv).mono hgrow le_rfl⟩⟩
  · have hsame := hold o ho
    have hk₀ : m.TrackedAt o key := by
      obtain ⟨q, hlk, hs⟩ := hk
      exact ⟨q, hsame ▸ hlk, hs⟩
    have hval : ({ m with objects := m.objects.push c } : Machine η).valueAt o key =
        m.valueAt o key := valueAt_eq (by rw [hsame]) rfl
    rw [hsame] at ho
    rw [hval, hcov _ (h.closed.1 o key (mem_keysOf_of_trackedAt hk₀))]
    exact h.deep.1 o ho key hk₀
  · rw [hcov v (h.closed.2 l v hv)]
    exact h.deep.2 l hl v hv
  · rw [hobj] at hq
    split at hq
    · exact absurd hq (htracked k q)
    · exact h.slots o k q hq
  · unfold valueAt
    unfold keysOf at hk
    rw [hobj] at hk ⊢
    by_cases e : o.idx = m.objects.size
    · -- a key of the new object holds a plain value of the heap
      rw [if_pos e]
      cases hlk : c.slots.lookup k with
      | none => trivial
      | some s =>
        cases s with
        | plain w => exact (hin k w (mem_of_lookup hlk)).mono hgrow le_rfl
        | tracked q => exact absurd (mem_of_lookup hlk) (htracked k q)
    · rw [if_neg e] at hk ⊢
      have hv := h.closed.1 o k hk
      unfold valueAt at hv
      exact hv.mono hgrow le_rfl

theorem DeepHeap.pushList (h : m.DeepHeap) {items : List Value} (hin : ∀ v ∈ items, m.InHeap v) :
    ({ m with lists := m.lists.push { items := items } } : Machine η).DeepHeap := by
  have hlist := listCell_push m { items := items }
  have hgrow : m.lists.size ≤ ({ m with lists := m.lists.push { items := items } } :
      Machine η).lists.size := by simp
  have hcov : ∀ v, m.InHeap v →
      ({ m with lists := m.lists.push { items := items } } : Machine η).covered v = m.covered v := by
    intro v hv
    cases v with
    | list l =>
      have hlt : l.idx < m.lists.size := hv
      simp [Machine.covered, hlist, hlt, Nat.ne_of_lt hlt, Nat.lt_succ_of_lt hlt]
    | _ => rfl
  refine ⟨⟨fun o ho key hk => ?_, fun l hl v hv => ?_⟩, h.slots,
    ⟨fun o k hk => (h.closed.1 o k hk).mono le_rfl hgrow, fun l v hv => ?_⟩⟩
  · -- objects and their values are untouched
    exact (hcov _ (h.closed.1 o key (mem_keysOf_of_trackedAt hk))).trans (h.deep.1 o ho key hk)
  · rw [hlist] at hl hv
    by_cases e : l.idx = m.lists.size
    · rw [if_pos e] at hl
      cases hl
    · rw [if_neg e] at hl hv
      rw [hcov v (h.closed.2 l v hv)]
      exact h.deep.2 l hl v hv
  · rw [hlist] at hv
    split at hv
    · exact (hin v hv).mono le_rfl hgrow
    · exact (h.closed.2 l v hv).mono le_rfl hgrow

/-! ## New items of a list -/

theorem covered_modifyList {l : ListRef} {f : ListCell → ListCell}
    (hf : ∀ c, (f c).observer.isSome = c.observer.isSome ∧ (f c).raw = c.raw) (v : Value) :
    ({ m with lists := m.lists.modify l.idx f } : Machine η).covered v = m.covered v := by
  cases v with
  | list l' =>
    simp only [Machine.covered, Array.size_modify, listCell_modify]
    split
    · rw [(hf _).1, (hf _).2]
    · rfl
  | _ => rfl

theorem DeepHeap.setItems (h : m.DeepHeap) {l : ListRef} {items added : List Value}
    (hnew : ∀ v ∈ items, v ∈ (m.listCell l).items ∨ m.covered v = true ∨ v ∈ added)
    (hin : ∀ v ∈ items, m.InHeap v) :
    ({ m with lists := m.lists.modify l.idx fun c => { c with items := items } } :
      Machine η).DeepHeapBut l added := by
  have hcov := covered_modifyList (m := m) (l := l) (f := fun c => { c with items := items })
    fun _ => ⟨rfl, rfl⟩
  have hin' : ∀ v, m.InHeap v → ({ m with lists := m.lists.modify l.idx fun c =>
      { c with items := items } } : Machine η).InHeap v := fun v hv =>
    hv.mono le_rfl (Nat.le_of_eq Array.size_modify.symm)
  refine ⟨⟨fun o ho key hk => ?_, fun l' hl v hv => ?_⟩, h.slots,
    ⟨fun o k hk => hin' _ (h.closed.1 o k hk), fun l' v hv => ?_⟩⟩
  · rw [hcov]
    exact h.deep.1 o ho key hk
  · rw [hcov]
    rw [listCell_modify] at hl hv
    by_cases e : l' = l ∧ l.idx < m.lists.size
    · rw [if_pos e] at hl hv
      rcases hnew v hv with hold | hc | hadd
      · exact .inl (h.deep.2 l' hl v (e.1 ▸ hold))
      · exact .inl hc
      · exact .inr ⟨e.1, hadd⟩
    · rw [if_neg e] at hl hv
      exact .inl (h.deep.2 l' hl v hv)
  · rw [listCell_modify] at hv
    split at hv
    · exact hin' v (hin v hv)
    · exact hin' v (h.closed.2 l' v hv)

end Machine

end Reactivity
