import Reactivity.Proofs.ObservedWrites
import Reactivity.Proofs.ListReads
import Reactivity.Proofs.Scheduler
import Reactivity.Proofs.SortOrder

/-!
# The list API refines a sequence

Each mutator of a list, and each checked write and removal of a list by index, does two things
(`Edits`): it replaces the list's items by what a function of sequences makes of them, and
then, only if the list is observed, it observes the values it put in and notifies the list's
own dependency set, once. Nothing else happens: on an unobserved list nothing is observed and
no one is notified, and no call ends with a fault.

The functions are those of sequences: appending and prepending, dropping the last or the first
item, replacing a slice whose ends are cut to the length, reversing, and sorting, taken as the
stable sort wherever the runtime's sort gives it, which it does for every comparator that is a
strict weak order (`sortBy_edits_of_weak`). A write by index pads the list with undefined
up to the index and then replaces one item, so it grows the list to just past the index and
changes that item alone (`SetsIndex`); a removal by index past the end changes nothing and
notifies no one. `list_api_refines` collects these facts, with the item written by index read
back before the notification, and after it when host code leaves that item alone.
-/

namespace Reactivity

variable {η α β : Type}

/-! ## Writing one index of a sequence -/

/-- `ys` is `xs` with `v` written at index `i`: long enough to hold the index and no longer,
`v` at `i`, every other old item kept, and `d` between the old end and `i`. -/
structure SetsIndex (xs : List α) (i : Nat) (v d : α) (ys : List α) : Prop where
  length : ys.length = max xs.length (i + 1)
  at_index : ys[i]? = some v
  others : ∀ j < xs.length, j ≠ i → ys[j]? = xs[j]?
  padding : ∀ j, xs.length ≤ j → j < i → ys[j]? = some d

theorem setsIndex_of_lt {xs : List α} {i : Nat} (v d : α) (h : i < xs.length) :
    SetsIndex xs i v d (xs.take i ++ [v] ++ xs.drop (i + 1)) := by
  have e : xs.take i ++ [v] ++ xs.drop (i + 1) = xs.set i v := by
    rw [List.set_eq_take_append_cons_drop, if_pos h]
    simp
  rw [e]
  exact ⟨by simp; omega, by simp [h], fun j _ hj => by simp [Ne.symm hj],
    fun j hj hji => absurd h (by omega)⟩

theorem setsIndex_of_le {xs : List α} {i : Nat} (v d : α) (h : xs.length ≤ i) :
    SetsIndex xs i v d (xs ++ List.replicate (i - xs.length) d ++ [v]) := by
  have hlen : (xs ++ List.replicate (i - xs.length) d).length = i := by simp; omega
  refine ⟨by simp; omega, ?_, fun j hj _ => ?_, fun j hj hji => ?_⟩
  · rw [List.getElem?_append_right (by omega), hlen]
    simp
  · rw [List.append_assoc, List.getElem?_append_left hj]
  · rw [List.append_assoc, List.getElem?_append_right hj,
      List.getElem?_append_left (by simp; omega), List.getElem?_replicate, if_pos (by omega)]

/-- The stable sort of `xs` by the strict order `before`: items in order, and items neither of
which is before the other in the order they came in. -/
def stableSort (before : Value → Value → Bool) (xs : List Value) : List Value :=
  xs.mergeSort fun a b => !before b a

namespace Machine

variable {m : Machine η} {l l' : ListRef} {ys : List Value}

/-- `m` with the items of `l` replaced by `ys`. -/
def withItems (m : Machine η) (l : ListRef) (ys : List Value) : Machine η :=
  { m with lists := m.lists.modify l.idx fun c => { c with items := ys } }

/-- The set a change of `l` notifies: the list's own, if the list is observed. -/
def listDep (m : Machine η) (l : ListRef) : Option DepId := (m.listCell l).observer.map (·.dep)

theorem listCell_withItems (m : Machine η) (l l' : ListRef) (ys : List Value) :
    (m.withItems l ys).listCell l' =
      if l' = l ∧ l.idx < m.lists.size then { m.listCell l' with items := ys } else m.listCell l' :=
  listCell_modify m l l' _

@[simp] theorem items_withItems (h : l.idx < m.lists.size) :
    ((m.withItems l ys).listCell l).items = ys := by
  rw [listCell_withItems, if_pos ⟨rfl, h⟩]

@[simp] theorem observer_withItems :
    ((m.withItems l ys).listCell l').observer = (m.listCell l').observer := by
  rw [listCell_withItems]
  split <;> rfl

@[simp] theorem listDep_withItems : (m.withItems l ys).listDep l' = m.listDep l' := by
  simp only [listDep, observer_withItems]

theorem withItems_withItems (zs : List Value) :
    (m.withItems l ys).withItems l zs = m.withItems l zs := by
  have h : (m.lists.modify l.idx fun c => { c with items := ys }).modify l.idx
      (fun c => { c with items := zs }) = m.lists.modify l.idx fun c => { c with items := zs } := by
    apply Array.ext
    · simp
    · intro j _ _
      simp only [Array.getElem_modify]
      split <;> rfl
  simp only [withItems, h]

theorem SlotsInRange.withItems (hwf : m.SlotsInRange) : (m.withItems l ys).SlotsInRange :=
  hwf.of_objects_eq rfl le_rfl

end Machine

namespace Eff

open Machine

variable {m : Machine η}

/-- Notifies the set `d`, if there is one. -/
def announce (r : Runner η) : Option DepId → Eff η Unit
  | none => pure ()
  | some d => notify r d

theorem announce_noFault (r : Runner η) (d : Option DepId) : NoFault (announce r d) := by
  cases d with
  | none => exact NoFault.pure _
  | some d => exact notify_noFault r d

theorem run_bind_congr {x y : Eff η α} {m' : Machine η}
    (h : ExceptT.run x m = ExceptT.run y m') (k : α → Eff η β) :
    ExceptT.run (x >>= k) m = ExceptT.run (y >>= k) m' := by
  rw [exec_bind, h, ← exec_bind]

theorem mutated_run (r : Runner η) (l : ListRef) (added : List Value) (hwf : m.SlotsInRange) :
    ∃ m₁, ((m.listCell l).observer = none → m₁ = m) ∧
      ((m.listCell l).observer.isSome → m.ObservedAll m₁ added) ∧
      ExceptT.run (mutated r l added) m = ExceptT.run (announce r (m.listDep l)) m₁ := by
  unfold mutated listDep
  rw [exec_get_bind]
  rcases ho : (m.listCell l).observer with _ | ob
  · exact ⟨m, fun _ => rfl, (fun h => by cases h), rfl⟩
  · obtain ⟨_, m₁, hrun, b, rfl, hall⟩ := observeEach_run hwf added m rfl
    refine ⟨m₁, (fun h => by cases h), fun _ => hall, ?_⟩
    simp only [Option.map_some, announce]
    rw [exec_bind, hrun]

theorem setItems_bind_run (l : ListRef) (ys : List Value) (k : PUnit → Eff η β) :
    ExceptT.run (setItems l ys >>= k) m = ExceptT.run (k ⟨⟩) (m.withItems l ys) :=
  exec_modify_bind _ _ _

end Eff

open Machine Eff

/-! ## Edits of a list -/

/-- `x` edits the list `l` as `spec` says, from states whose items `xs` of `l` satisfy `pre`:
it puts in items `ys` and gives a result `a` with `spec xs ys a`; then, if `l` is observed, it
observes the values `added xs` and notifies the list's own set, once. Nothing else happens: if
`l` is unobserved, the items are all that changes. -/
def Edits (r : Runner η) (l : ListRef) (pre : List Value → Prop)
    (spec : List Value → List Value → α → Prop) (added : List Value → List Value)
    (x : Eff η α) : Prop :=
  ∀ m : Machine η, l.idx < m.lists.size → m.SlotsInRange → pre (m.listCell l).items →
    ∃ ys a m₁, spec (m.listCell l).items ys a ∧
      ((m.listCell l).observer = none → m₁ = m.withItems l ys) ∧
      ((m.listCell l).observer.isSome →
        (m.withItems l ys).ObservedAll m₁ (added (m.listCell l).items)) ∧
      ExceptT.run x m = ExceptT.run (do announce r (m.listDep l); pure a) m₁

variable {r : Runner η} {l : ListRef} {pre : List Value → Prop}
  {spec : List Value → List Value → α → Prop} {added : List Value → List Value} {x : Eff η α}

theorem Edits.of_run
    (h : ∀ m : Machine η, l.idx < m.lists.size → pre (m.listCell l).items → ∃ ys a,
      spec (m.listCell l).items ys a ∧
      ExceptT.run x m = ExceptT.run (do mutated r l (added (m.listCell l).items); pure a)
        (m.withItems l ys)) :
    Edits r l pre spec added x := by
  intro m hl hwf hpre
  obtain ⟨ys, a, hspec, hrun⟩ := h m hl hpre
  have hwf' : (m.withItems l ys).SlotsInRange := hwf.withItems
  obtain ⟨m₁, hnone, hsome, hmut⟩ := mutated_run r l (added (m.listCell l).items) hwf'
  rw [observer_withItems] at hnone hsome
  refine ⟨ys, a, m₁, hspec, hnone, hsome, ?_⟩
  rw [hrun, run_bind_congr hmut, listDep_withItems]

theorem Edits.result (h : Edits r l pre spec added x) {m m' : Machine η} {res : Except Fault α}
    (hl : l.idx < m.lists.size) (hwf : m.SlotsInRange) (hpre : pre (m.listCell l).items)
    (hrun : ExceptT.run x m = .ok (res, m')) :
    ∃ ys a, spec (m.listCell l).items ys a ∧ res = .ok a := by
  obtain ⟨ys, a, m₁, hspec, -, -, hx⟩ := h m hl hwf hpre
  refine ⟨ys, a, hspec, ?_⟩
  rw [hx, exec_bind] at hrun
  rcases ha : ExceptT.run (announce r (m.listDep l)) m₁ with _ | ⟨_ | u, m₂⟩
  · rw [ha] at hrun
    cases hrun
  · obtain ⟨_, h⟩ := announce_noFault r (m.listDep l) m₁ trivial _ _ ha
    cases h
  · rw [ha] at hrun
    cases hrun
    rfl

theorem Edits.run_items (h : Edits r l pre spec added x) {m : Machine η}
    (hl : l.idx < m.lists.size) (hwf : m.SlotsInRange) (hpre : pre (m.listCell l).items) :
    ∃ ys a m₁, spec (m.listCell l).items ys a ∧ (m₁.listCell l).items = ys ∧
      ExceptT.run x m = ExceptT.run (do announce r (m.listDep l); pure a) m₁ := by
  obtain ⟨ys, a, m₁, hspec, hnone, hsome, hrun⟩ := h m hl hwf hpre
  refine ⟨ys, a, m₁, hspec, ?_, hrun⟩
  rcases ho : (m.listCell l).observer with _ | ob
  · rw [hnone ho, items_withItems hl]
  · rw [(hsome (by rw [ho]; rfl)).grown.items l, items_withItems hl]

/-- An edit of a list that no observer watches changes its items and nothing else. -/
theorem Edits.unobserved (h : Edits r l pre spec added x) {m : Machine η}
    (hl : l.idx < m.lists.size) (hwf : m.SlotsInRange) (hpre : pre (m.listCell l).items)
    (hob : (m.listCell l).observer = none) :
    ∃ ys a, spec (m.listCell l).items ys a ∧ ExceptT.run x m = .ok (.ok a, m.withItems l ys) := by
  obtain ⟨ys, a, m₁, hspec, hnone, -, hrun⟩ := h m hl hwf hpre
  refine ⟨ys, a, hspec, ?_⟩
  rw [hrun, hnone hob]
  simp only [listDep, hob, Option.map_none, announce, pure_bind, exec_pure]

/-! ## Each mutator -/

theorem push_edits (v : Value) :
    Edits r l (fun _ => True) (fun xs ys n => ys = xs ++ [v] ∧ n = ys.length) (fun _ => [v])
      (push r l v) :=
  Edits.of_run fun m _ _ => ⟨_, _, ⟨rfl, rfl⟩, by
    simp only [push, itemsUntracked, bind_assoc, pure_bind, exec_get_bind]
    rw [setItems_bind_run]⟩

theorem unshift_edits (v : Value) :
    Edits r l (fun _ => True) (fun xs ys n => ys = v :: xs ∧ n = ys.length) (fun _ => [v])
      (unshift r l v) :=
  Edits.of_run fun m _ _ => ⟨_, _, ⟨rfl, rfl⟩, by
    simp only [unshift, itemsUntracked, bind_assoc, pure_bind, exec_get_bind]
    rw [setItems_bind_run]⟩

theorem pop_edits :
    Edits r l (fun _ => True) (fun xs ys a => ys = xs.dropLast ∧ a = xs.getLast?) (fun _ => [])
      (pop r l) :=
  Edits.of_run fun m _ _ => ⟨_, _, ⟨rfl, rfl⟩, by
    simp only [pop, itemsUntracked, bind_assoc, pure_bind, exec_get_bind]
    rw [setItems_bind_run]⟩

theorem shift_edits :
    Edits r l (fun _ => True) (fun xs ys a => ys = xs.tail ∧ a = xs.head?) (fun _ => [])
      (shift r l) :=
  Edits.of_run fun m _ _ => ⟨_, _, ⟨rfl, rfl⟩, by
    simp only [shift, itemsUntracked, bind_assoc, pure_bind, exec_get_bind]
    rw [setItems_bind_run]⟩

theorem splice_edits (start count : Nat) (vs : List Value) :
    Edits r l (fun _ => True)
      (fun xs ys removed =>
        ys = xs.take (min start xs.length) ++ vs ++ xs.drop (min (start + count) xs.length) ∧
        removed = (xs.take (min (start + count) xs.length)).drop (min start xs.length))
      (fun _ => vs) (splice r l start count vs) := by
  refine Edits.of_run fun m _ _ => ?_
  set xs := (m.listCell l).items
  -- the end the code computes from the cut start is the cut end
  have he : min (min start xs.length + count) xs.length = min (start + count) xs.length := by
    omega
  refine ⟨_, _, ⟨rfl, rfl⟩, ?_⟩
  simp only [splice, itemsUntracked, bind_assoc, pure_bind, exec_get_bind]
  rw [setItems_bind_run, he, List.drop_take]

theorem reverse_edits :
    Edits r l (fun _ => True) (fun xs ys _ => ys = xs.reverse) (fun _ => []) (reverse r l) :=
  Edits.of_run fun m _ _ => ⟨_, (), rfl, by
    simp only [Eff.reverse, itemsUntracked, bind_assoc, pure_bind, exec_get_bind]
    rw [setItems_bind_run, bind_pure_unit]⟩

theorem sortBy_edits (before : Value → Value → Bool) :
    Edits r l (fun xs => Sorting.sort before xs = some (stableSort before xs))
      (fun xs ys _ => ys = stableSort before xs) (fun _ => []) (sortBy r l before) := by
  refine Edits.of_run fun m _ hsort => ⟨_, (), rfl, ?_⟩
  simp only [sortBy, itemsUntracked, bind_assoc, pure_bind, exec_get_bind, hsort]
  rw [setItems_bind_run, bind_pure_unit]

/-- For a strict weak order the runtime's sort is the stable sort on every list. -/
theorem sort_eq_stableSort {before : Value → Value → Bool}
    (hw : IsStrictWeakOrder Value fun a b => before a b = true) (xs : List Value) :
    Sorting.sort before xs = some (stableSort before xs) :=
  Sorting.sort_eq_mergeSort hw xs

/-- Sorting by a strict weak order edits every list to its stable sort. -/
theorem sortBy_edits_of_weak {before : Value → Value → Bool}
    (hw : IsStrictWeakOrder Value fun a b => before a b = true) :
    Edits r l (fun _ => True) (fun xs ys _ => ys = stableSort before xs) (fun _ => [])
      (sortBy r l before) :=
  fun m hl hwf _ => sortBy_edits before m hl hwf (sort_eq_stableSort hw _)

/-! ## Writes and removals by index -/

theorem setIndex_edits {k : Key} {i : Nat} (hk : k.asIndex? = some i) (v : Value) :
    Edits r l (fun _ => True) (fun xs ys a => SetsIndex xs i v .undefined ys ∧ a = v)
      (fun _ => [v]) (set r (.list l) k v) := by
  refine Edits.of_run fun m hl _ => ?_
  simp only [Eff.set, hk, padTo, splice, itemsUntracked, bind_assoc, pure_bind, exec_get_bind]
  by_cases hi : i < (m.listCell l).items.length
  · -- inside the list: one item is replaced
    refine ⟨_, _, ⟨setsIndex_of_lt v .undefined hi, rfl⟩, ?_⟩
    rw [if_neg (by omega), pure_bind, exec_get_bind, setItems_bind_run,
      show min i (m.listCell l).items.length = i by omega,
      show min (i + 1) (m.listCell l).items.length = i + 1 by omega]
  · -- at or past the end: the padding, then the item
    refine ⟨_, _, ⟨setsIndex_of_le v .undefined (Nat.le_of_not_lt hi), rfl⟩, ?_⟩
    have hlen : ((m.listCell l).items ++
        List.replicate (i - (m.listCell l).items.length) Value.undefined).length = i := by
      simp; omega
    by_cases hlt : (m.listCell l).items.length < i
    · rw [if_pos hlt, setItems_bind_run, exec_get_bind, items_withItems hl, hlen, Nat.min_self,
        show min (i + 1) i = i by omega, List.take_of_length_le hlen.le,
        List.drop_of_length_le hlen.le, setItems_bind_run, withItems_withItems, List.append_nil]
    · have hle : (m.listCell l).items.length = i := by omega
      rw [if_neg hlt, pure_bind, exec_get_bind, setItems_bind_run, hle, Nat.min_self,
        show min (i + 1) i = i by omega, List.take_of_length_le hle.le,
        List.drop_of_length_le hle.le, Nat.sub_self, List.replicate_zero, List.append_nil,
        List.append_nil]

theorem removeIndex_edits {k : Key} {i : Nat} (hk : k.asIndex? = some i) :
    Edits r l (i < ·.length) (fun xs ys _ => ys = xs.eraseIdx i) (fun _ => [])
      (remove r (.list l) k) := by
  refine Edits.of_run fun m _ hi => ⟨_, (), rfl, ?_⟩
  simp only [remove, hk, splice, itemsUntracked, bind_assoc, pure_bind, exec_get_bind, if_pos hi]
  rw [setItems_bind_run, show min i (m.listCell l).items.length = i by omega,
    show min (i + 1) (m.listCell l).items.length = i + 1 by omega,
    List.eraseIdx_eq_take_drop_succ, List.append_nil, bind_pure_unit]

theorem removeIndex_past {k : Key} {i : Nat} (hk : k.asIndex? = some i) (m : Machine η)
    (hi : (m.listCell l).items.length ≤ i) :
    ExceptT.run (remove r (.list l) k) m = .ok (.ok (), m) := by
  simp only [remove, hk, itemsUntracked, bind_assoc, pure_bind, exec_get_bind,
    if_neg (Nat.not_lt.2 hi)]
  rfl

/-! ## Reading back an item written by index -/

theorem listGet_run (l : ListRef) (i : Nat) (m : Machine η)
    (h : ¬ (m.WalksList l ∧ m.NestCycle l)) :
    ∃ m', ExceptT.run (listGet l i) m = .ok (.ok ((m.listCell l).items[i]?.getD .undefined), m') := by
  obtain ⟨m', hrun, hlists⟩ := (trackList_run l m).1 h
  refine ⟨m', ?_⟩
  unfold listGet
  rw [exec_bind, hrun]
  show ExceptT.run (pure ((m'.listCell l).items[i]?.getD .undefined) : Eff η Value) m' = _
  simp only [Machine.listCell, hlists, exec_pure]

theorem announce_keeps_lists {I : Machine η → Prop}
    (hI : ∀ m m' : Machine η, m'.lists = m.lists → I m → I m')
    (hr : ∀ c a, Keeps I (r.invoke c a)) (d : Option DepId) : Keeps I (announce r d) := by
  have hoff : OffTables I := fun m _ _ _ _ _ _ _ h => hI m _ rfl h
  have hq : OffSchedule I := fun m _ _ _ _ _ h => hI m _ rfl h
  cases d with
  | none => exact Keeps.pure _
  | some d => exact (hoff.eval fun m _ h => hI m _ rfl h).notify hq hr d

theorem setIndex_reads_back {k : Key} {i : Nat} (hk : k.asIndex? = some i) (v : Value)
    {m : Machine η} (hl : l.idx < m.lists.size) (hwf : m.SlotsInRange) :
    ∃ m₁, ExceptT.run (set r (.list l) k v) m =
        ExceptT.run (do announce r (m.listDep l); pure v) m₁ ∧
      (¬ (m₁.WalksList l ∧ m₁.NestCycle l) →
        ∃ m₂, ExceptT.run (listGet l i) m₁ = .ok (.ok v, m₂)) := by
  obtain ⟨ys, a, m₁, ⟨hys, rfl⟩, hitems, hrun⟩ := (setIndex_edits hk v).run_items hl hwf trivial
  refine ⟨m₁, hrun, fun hc => ?_⟩
  obtain ⟨m₂, hget⟩ := listGet_run l i m₁ hc
  rw [hitems, hys.at_index] at hget
  exact ⟨m₂, hget⟩

/-- After a write of `v` by index `i` returns, the list holds `v` at `i`, as long as host code
run by the notification leaves that item alone; the write's result is `v`. -/
theorem setIndex_holds {k : Key} {i : Nat} (hk : k.asIndex? = some i) (v : Value)
    {m m' : Machine η} {res : Except Fault Value} (hl : l.idx < m.lists.size)
    (hwf : m.SlotsInRange)
    (hr : ∀ c a, Keeps (fun m : Machine η => (m.listCell l).items[i]? = some v) (r.invoke c a))
    (hrun : ExceptT.run (set r (.list l) k v) m = .ok (res, m')) :
    res = .ok v ∧ (m'.listCell l).items[i]? = some v := by
  obtain ⟨ys, a, m₁, ⟨hys, rfl⟩, hitems, hx⟩ := (setIndex_edits hk v).run_items hl hwf trivial
  have hkeeps := announce_keeps_lists (fun m m' (e : m'.lists = m.lists) h => by
    simpa only [Machine.listCell, e] using h) hr (m.listDep l)
  rw [hx, exec_bind] at hrun
  rcases ha : ExceptT.run (announce r (m.listDep l)) m₁ with _ | ⟨_ | u, m₂⟩
  · rw [ha] at hrun
    cases hrun
  · obtain ⟨_, h⟩ := announce_noFault r (m.listDep l) m₁ trivial _ _ ha
    cases h
  · rw [ha] at hrun
    cases hrun
    have hm₁ : (m₁.listCell l).items[i]? = some a := by rw [hitems]; exact hys.at_index
    exact ⟨rfl, hkeeps m₁ hm₁ _ _ ha⟩

/-! ## The list API -/

/-- The list API of `l` refines a sequence: each mutator and each checked write and removal by
index puts in the items a function of sequences gives and then notifies the list's own set
once if the list is observed, with what it put in observed; the stable sort is the runtime's
sort wherever that gives it; an item written by index reads back. -/
structure ListApi (r : Runner η) (l : ListRef) : Prop where
  push : ∀ v, Edits r l (fun _ => True) (fun xs ys n => ys = xs ++ [v] ∧ n = ys.length)
    (fun _ => [v]) (Eff.push r l v)
  unshift : ∀ v, Edits r l (fun _ => True) (fun xs ys n => ys = v :: xs ∧ n = ys.length)
    (fun _ => [v]) (Eff.unshift r l v)
  pop : Edits r l (fun _ => True) (fun xs ys a => ys = xs.dropLast ∧ a = xs.getLast?)
    (fun _ => []) (Eff.pop r l)
  shift : Edits r l (fun _ => True) (fun xs ys a => ys = xs.tail ∧ a = xs.head?)
    (fun _ => []) (Eff.shift r l)
  splice : ∀ start count vs, Edits r l (fun _ => True)
    (fun xs ys removed =>
      ys = xs.take (min start xs.length) ++ vs ++ xs.drop (min (start + count) xs.length) ∧
      removed = (xs.take (min (start + count) xs.length)).drop (min start xs.length))
    (fun _ => vs) (Eff.splice r l start count vs)
  reverse : Edits r l (fun _ => True) (fun xs ys _ => ys = xs.reverse) (fun _ => [])
    (Eff.reverse r l)
  sortBy : ∀ before, Edits r l (fun xs => Sorting.sort before xs = some (stableSort before xs))
    (fun xs ys _ => ys = stableSort before xs) (fun _ => []) (Eff.sortBy r l before)
  setIndex : ∀ k i v, k.asIndex? = some i → Edits r l (fun _ => True)
    (fun xs ys a => SetsIndex xs i v .undefined ys ∧ a = v) (fun _ => [v]) (Eff.set r (.list l) k v)
  readsBack : ∀ k i v, k.asIndex? = some i → ∀ m : Machine η, l.idx < m.lists.size →
    m.SlotsInRange → ∃ m₁, ExceptT.run (Eff.set r (.list l) k v) m =
        ExceptT.run (do announce r (m.listDep l); pure v) m₁ ∧
      (¬ (m₁.WalksList l ∧ m₁.NestCycle l) → ∃ m₂, ExceptT.run (listGet l i) m₁ = .ok (.ok v, m₂))
  holds : ∀ k i v, k.asIndex? = some i → ∀ (m m' : Machine η) res, l.idx < m.lists.size →
    m.SlotsInRange →
    (∀ c a, Keeps (fun m : Machine η => (m.listCell l).items[i]? = some v) (r.invoke c a)) →
    ExceptT.run (Eff.set r (.list l) k v) m = .ok (res, m') →
    res = .ok v ∧ (m'.listCell l).items[i]? = some v
  removeIndex : ∀ k i, k.asIndex? = some i → Edits r l (i < ·.length)
    (fun xs ys _ => ys = xs.eraseIdx i) (fun _ => []) (Eff.remove r (.list l) k)
  removePast : ∀ k i, k.asIndex? = some i → ∀ m : Machine η, (m.listCell l).items.length ≤ i →
    ExceptT.run (Eff.remove r (.list l) k) m = .ok (.ok (), m)

theorem list_api_refines (r : Runner η) (l : ListRef) : ListApi r l where
  push := push_edits
  unshift := unshift_edits
  pop := pop_edits
  shift := shift_edits
  splice := splice_edits
  reverse := reverse_edits
  sortBy := sortBy_edits
  setIndex _ _ v hk := setIndex_edits hk v
  readsBack _ _ v hk _ hl hwf := setIndex_reads_back hk v hl hwf
  holds _ _ v hk _ _ _ hl hwf hr hrun := setIndex_holds hk v hl hwf hr hrun
  removeIndex _ _ hk := removeIndex_edits hk
  removePast _ _ hk m hi := removeIndex_past hk m hi

end Reactivity
