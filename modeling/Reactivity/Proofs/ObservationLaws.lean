import Reactivity.Proofs.ObservedWrites

/-!
# The laws of deep observation

Observation is deep (`Machine.DeepFrom`): an observed container keeps the value of each
non-shallow tracked property, or each item, observed or marked raw, and every observer keeps
its set for the container's whole life. Every operation keeps it, as long as observation is
left on and host code keeps it too, with values of the heap as arguments. A script's closures
need not: one may switch observation off (`script_host_not_deep`).

`observe` returns on every value graph, shared and cyclic ones included. It returns an
observed container as it is (`Eff.observe_observed`), and otherwise walks: afterwards every
container reached from the value through containers neither observed nor marked raw is
observed, unless marked raw itself, and every key of an object it observed is a tracked
property (`Machine.ObservedFrom`). A raw container stops the walk: what only it holds stays
unobserved.

`deep_observation_laws` collects these facts.
-/

namespace Reactivity

variable {η : Type}

namespace Machine

variable {m m' m₁ : Machine η}

theorem Rawer.refl (m : Machine η) : m.Rawer m :=
  ⟨rfl, rfl, rfl, fun _ => ⟨rfl, rfl⟩, fun _ => ⟨rfl, rfl⟩, fun _ h => h⟩

theorem Rawer.observerOf (h : m.Rawer m') (v : Value) :
    (m'.observerOf v).map (·.dep) = (m.observerOf v).map (·.dep) := by
  cases v with
  | obj o => exact (h.object o).1
  | list l => exact (h.list l).1
  | _ => rfl

theorem Rawer.trackedAt_of (h : m.Rawer m') {o : ObjRef} {key : String} (hk : m.TrackedAt o key) :
    m'.TrackedAt o key := by
  unfold TrackedAt Machine.prop
  rw [(h.object o).2, h.props]
  exact hk

/-- What observing `v` from `m` left in `m'`: each open container reached from `v` through open
containers with no observer is observed; each object observed on the way has every key
tracked; and each observer kept its set. -/
structure ObservedFrom (m m' : Machine η) (v : Value) : Prop where
  reached : ∀ c, Relation.ReflTransGen m.WalkStep v c → m.Open c → m.InHeap c →
    (m'.observerOf c).isSome = true
  tracked : ∀ o, (m.object o).observer = none → (m'.object o).observer.isSome = true →
    ∀ key ∈ m'.keysOf o, m'.TrackedAt o key
  kept : ∀ c ob, m.observerOf c = some ob → (m'.observerOf c).map (·.dep) = some ob.dep

theorem Walk.observedFrom {v : Value} {d : Option DepId} (hw : m.Walk m₁ v d) (hr : m₁.Rawer m')
    (hon : m.observing = true) : m.ObservedFrom m' v where
  reached c hc hopen hin := by
    have hcov := hw.reaches hon hc
    -- in `m₁` the container is open and of the heap, so covered means observed
    have hopen₁ : m₁.Open c := by
      cases c with
      | obj o => exact (hw.grown.raw o).trans hopen
      | list l => exact (hw.grown.listRaw l).trans hopen
      | _ => exact hopen
    have hin₁ : m₁.InHeap c := by
      cases c with
      | obj o =>
        show o.idx < m₁.objects.size
        rw [hw.grown.objects_size]
        exact hin
      | list l =>
        show l.idx < m₁.lists.size
        rw [hw.grown.lists_size]
        exact hin
      | _ => trivial
    have hobs := observed_of_covered hcov hin₁ hopen₁
    rw [← Option.isSome_map (f := Observer.dep), hr.observerOf c, Option.isSome_map]
    exact hobs
  tracked o hnone hobs key hk := by
    have hobs₁ : (m₁.object o).observer.isSome = true := by
      rw [← isSome_of_dep (hr.object o).1]
      exact hobs
    rw [hr.keysOf] at hk
    exact hr.trackedAt_of (hw.walked.1 o hnone hobs₁ key hk).1
  kept c ob hob := by
    rw [hr.observerOf c]
    cases c with
    | obj o => rw [Machine.observerOf, hw.grown.observer o ob hob]; rfl
    | list l => rw [Machine.observerOf, hw.grown.listObserver l ob hob]; rfl
    | _ => cases hob

end Machine

namespace Eff

open Machine

variable {m m' : Machine η}

/-- An observed container is returned as it is: the set of its observer, with nothing walked
and nothing changed. -/
theorem observe_observed {v : Value} {ob : Observer} (hob : m.observerOf v = some ob) :
    ExceptT.run (observe v false) m = .ok (.ok (some ob.dep), m) := by
  simp only [observe, containerCount, bind_assoc, pure_bind, exec_get_bind]
  rw [observeWith_succ]
  cases v with
  | obj o =>
    have hob : (m.object o).observer = some ob := hob
    simp [observeWith, hob]
  | list l =>
    have hob : (m.listCell l).observer = some ob := hob
    simp [observeWith, hob]
  | _ => cases hob

theorem observe_observedFrom (hwf : m.SlotsInRange) (v : Value) (asRoot : Bool) :
    Sure (· = m) (observe v asRoot) fun r m' => ∃ d, r = .ok d ∧
      (m.observing = true → m.ObservedFrom m' v) := by
  refine Sure.conseq (observe_run m v asRoot hwf) (fun _ h => h) fun r m' h => ?_
  obtain ⟨d, hr, m₁, hw, rfl⟩ := h
  -- root data only has its root count raised
  have hraw : m₁.Rawer (if asRoot && d.isSome then m₁.bumped v else m₁) := by
    split
    · exact rawer_bumped m₁ v
    · exact .refl m₁
  exact ⟨d, hr, hw.observedFrom hraw⟩

end Eff

/-- The laws of deep observation, with host code `r`. -/
structure DeepObservationLaws (r : Runner η) : Prop where
  /-- `observe` returns on every value graph, and with observation on it leaves observed what
  its walk reached. -/
  observe_run : ∀ (m : Machine η) v asRoot, m.SlotsInRange → ∃ d m',
    ExceptT.run (Eff.observe v asRoot) m = .ok (.ok d, m') ∧
      (m.observing = true → m.ObservedFrom m' v)
  /-- An observed container is returned as it is. -/
  observed : ∀ (m : Machine η) v ob, m.observerOf v = some ob →
    ExceptT.run (Eff.observe v false) m = .ok (.ok (some ob.dep), m)
  observe : ∀ (m₀ : Machine η) v asRoot, Keeps (m₀.DeepFrom ·) (Eff.observe v asRoot)
  defineReactive : ∀ (m₀ : Machine η) o key v hook shallow, m₀.InHeap v →
    Keeps (m₀.DeepFrom ·) (Eff.defineReactive o key v hook shallow)
  newObject : ∀ (m₀ : Machine η) fields, (∀ kv ∈ fields, m₀.InHeap kv.2) →
    Keeps (m₀.DeepFrom ·) (Eff.newObject fields)
  newList : ∀ (m₀ : Machine η) items, (∀ v ∈ items, m₀.InHeap v) →
    Keeps (m₀.DeepFrom ·) (Eff.newList items)
  set : ∀ (m₀ : Machine η) target key v, m₀.InHeap v →
    Keeps (m₀.DeepFrom ·) (Eff.set r target key v)
  remove : ∀ (m₀ : Machine η) target key, Keeps (m₀.DeepFrom ·) (Eff.remove r target key)
  propSet : ∀ (m₀ : Machine η) p v, m₀.InHeap v → Keeps (m₀.DeepFrom ·) (Eff.propSet r p v)
  objPut : ∀ (m₀ : Machine η) o key v, m₀.InHeap v →
    Keeps (m₀.DeepFrom ·) (Eff.objPut r o key v)
  push : ∀ (m₀ : Machine η) l v, m₀.InHeap v → Keeps (m₀.DeepFrom ·) (Eff.push r l v)
  unshift : ∀ (m₀ : Machine η) l v, m₀.InHeap v → Keeps (m₀.DeepFrom ·) (Eff.unshift r l v)
  pop : ∀ (m₀ : Machine η) l, Keeps (m₀.DeepFrom ·) (Eff.pop r l)
  shift : ∀ (m₀ : Machine η) l, Keeps (m₀.DeepFrom ·) (Eff.shift r l)
  splice : ∀ (m₀ : Machine η) l start count added, (∀ v ∈ added, m₀.InHeap v) →
    Keeps (m₀.DeepFrom ·) (Eff.splice r l start count added)
  reverse : ∀ (m₀ : Machine η) l, Keeps (m₀.DeepFrom ·) (Eff.reverse r l)
  sortBy : ∀ (m₀ : Machine η) l before, Keeps (m₀.DeepFrom ·) (Eff.sortBy r l before)
  newScope : ∀ (m₀ : Machine η) name parent props data, (∀ kv ∈ props, m₀.InHeap kv.2) →
    Keeps (m₀.DeepFrom ·) (Eff.newScope name parent props data)
  destroy : ∀ (m₀ : Machine η) s, Keeps (m₀.DeepFrom ·) (Eff.destroy s)
  updateProps : ∀ (m₀ : Machine η) s props, (∀ kv ∈ props, m₀.InHeap kv.2) →
    Keeps (m₀.DeepFrom ·) (Eff.updateProps r s props)
  mount : ∀ (m₀ : Machine η) s render, Keeps (m₀.DeepFrom ·) (Eff.mount r s render)
  newComputed : ∀ (m₀ : Machine η) scope name c,
    Keeps (m₀.DeepFrom ·) (Eff.newComputed scope name c)
  watch : ∀ (m₀ : Machine η) s getter callback o,
    Keeps (m₀.DeepFrom ·) (Eff.watch r s getter callback o)
  notify : ∀ (m₀ : Machine η) d, Keeps (m₀.DeepFrom ·) (Eff.notify r d)
  forceUpdate : ∀ (m₀ : Machine η) s, Keeps (m₀.DeepFrom ·) (Eff.forceUpdate r s)
  tick : ∀ (m₀ : Machine η), Keeps (m₀.DeepFrom ·) (Eff.tick r)
  drain : ∀ (m₀ : Machine η), Keeps (m₀.DeepFrom ·) (Eff.drain r)

theorem deep_observation_laws (r : Runner η) (hr : DeepHost r) : DeepObservationLaws r where
  observe_run m v asRoot hwf := by
    obtain ⟨_, m', hrun, d, rfl, h⟩ := Eff.observe_observedFrom hwf v asRoot m rfl
    exact ⟨d, m', hrun, h⟩
  observed _ _ _ hob := Eff.observe_observed hob
  observe _ v asRoot := Eff.observe_keeps v asRoot
  defineReactive _ o key v hook shallow hv := Eff.defineReactive_keeps o key v hook shallow hv
  newObject _ fields hin := Eff.newObject_keeps fields hin
  newList _ items hin := Eff.newList_keeps items hin
  set _ target key v hv := Eff.set_keeps hr target key v hv
  remove _ target key := Eff.remove_keeps hr target key
  propSet _ p v hv := Eff.propSet_keeps hr p v hv
  objPut _ o key v hv := Eff.objPut_keeps hr o key v hv
  push _ l v hv := Eff.push_keeps hr l v hv
  unshift _ l v hv := Eff.unshift_keeps hr l v hv
  pop _ l := Eff.pop_keeps hr l
  shift _ l := Eff.shift_keeps hr l
  splice _ l start count added hin := Eff.splice_keeps hr l start count added hin
  reverse _ l := Eff.reverse_keeps hr l
  sortBy _ l before := Eff.sortBy_keeps hr l before
  newScope _ name parent props data hin := Eff.newScope_keeps name parent props data hin
  destroy _ s := Eff.destroy_keeps s
  updateProps _ s props hin := Eff.updateProps_keeps hr s props hin
  mount _ s render := Eff.mount_keeps hr s render
  newComputed _ scope name c := Eff.newComputed_keeps scope name c
  watch m₀ s getter callback o := (Machine.deepFrom_eval m₀).watch (hr m₀) s getter callback o
  notify _ d := Eff.notify_deep hr d
  forceUpdate m₀ s :=
    ((Machine.deepFrom_eval m₀).schedules (Machine.deepFrom_offSchedule m₀) (hr m₀)).forceUpdate s
  tick m₀ := (Machine.deepFrom_eval m₀).tick (Machine.deepFrom_offSchedule m₀) (hr m₀)
  drain m₀ := (Machine.deepFrom_eval m₀).drain (Machine.deepFrom_offSchedule m₀) (hr m₀)

/-- Host code that does nothing keeps observation deep, and the laws hold with it. -/
theorem deep_observation_laws_quiet :
    DeepHost (⟨fun _ _ => pure .undefined, 100⟩ : Runner Unit) ∧
      DeepObservationLaws (⟨fun _ _ => pure .undefined, 100⟩ : Runner Unit) :=
  ⟨fun _ _ _ => Keeps.pure _, deep_observation_laws _ fun _ _ _ => Keeps.pure _⟩

/-- Object `0` holds the raw object `1` under `r`, which holds object `2` under `x`: observing
`0` observes it and stops at `1`, so `2`, reachable from `0`, stays unobserved. -/
theorem raw_container_stops_observation :
    let m : Machine Unit :=
      { objects := #[{ slots := [("r", .plain (.obj ⟨1⟩))] },
          { slots := [("x", .plain (.obj ⟨2⟩))], raw := true },
          { slots := [("y", .plain (.bool true))] }],
        host := () }
    ∃ d m', ExceptT.run (Eff.observe (.obj ⟨0⟩) false) m = .ok (.ok d, m') ∧
      (m'.object ⟨0⟩).observer.isSome = true ∧ (m'.object ⟨2⟩).observer = none :=
  ⟨_, _, rfl, rfl, rfl⟩

end Reactivity
