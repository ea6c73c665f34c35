import Mathlib
import Reactivity.Proofs.Triple
import Reactivity.Observe

/-!
# Reading nested lists

A tracked read of a list inside a watcher's pass records the observers of the containers in
the list, and goes down into every list nested in it (`Eff.dependItems`) with no record of the
lists it has already entered. Whether such a read returns is therefore a property of the
graph of nested lists alone: it returns exactly when no list reachable from the one read
holds itself, directly or through other lists (`Machine.NestCycle`). On such a cycle the read
runs out of its budget, however the containers are observed.

The main statements are `Eff.dependList_run` and `Eff.trackList_run`, and their consequences
for the length of a list read in a pass, `Eff.listSize_run`, and for a property read in a
pass, `Eff.propGet_run`.
-/

namespace Reactivity

variable {η α β : Type}

/-! ## Computations that return, and computations that run out -/

/-- From every state satisfying `I`, `x` returns a value satisfying `P` and ends in a state
satisfying `I`. -/
def Returns (I : Machine η → Prop) (x : Eff η α) (P : α → Prop) : Prop :=
  ∀ m, I m → ∃ a m', ExceptT.run x m = .ok (.ok a, m') ∧ P a ∧ I m'

/-- From every state satisfying `I`, `x` stops the run with its budget exhausted. -/
def Exhausts (I : Machine η → Prop) (x : Eff η α) : Prop :=
  ∀ m, I m → ExceptT.run x m = .error .exhausted

variable {I : Machine η → Prop} {P : α → Prop} {Q : β → Prop}

namespace Returns

theorem pure {a : α} (h : P a) : Returns I (Pure.pure a : Eff η α) P := fun m hm => ⟨a, m, rfl, h, hm⟩

theorem bind {x : Eff η α} {f : α → Eff η β} (hx : Returns I x P)
    (hf : ∀ a, P a → Returns I (f a) Q) : Returns I (x >>= f) Q := by
  intro m hm
  obtain ⟨a, m₁, hrun, ha, hm₁⟩ := hx m hm
  rw [Eff.exec_bind, hrun]
  exact hf a ha m₁ hm₁

theorem bind_get {f : Machine η → Eff η β} (h : ∀ m, I m → Returns I (f m) Q) :
    Returns I (MonadState.get >>= f) Q := by
  intro m hm
  rw [Eff.exec_get_bind]
  exact h m hm m hm

theorem modify {f : Machine η → Machine η} (h : ∀ m, I m → I (f m)) :
    Returns I (modify f : Eff η Unit) fun _ => True := fun m hm => ⟨(), f m, rfl, trivial, h m hm⟩

end Returns

namespace Exhausts

theorem bind_left {x : Eff η α} {f : α → Eff η β} (hx : Exhausts I x) :
    Exhausts I (x >>= f) := by
  intro m hm
  rw [Eff.exec_bind, hx m hm]

theorem bind_right {x : Eff η α} {f : α → Eff η β} (hx : Returns I x P)
    (hf : ∀ a, P a → Exhausts I (f a)) : Exhausts I (x >>= f) := by
  intro m hm
  obtain ⟨a, m₁, hrun, ha, hm₁⟩ := hx m hm
  rw [Eff.exec_bind, hrun]
  exact hf a ha m₁ hm₁

theorem bind_get {f : Machine η → Eff η β} (h : ∀ m, I m → Exhausts I (f m)) :
    Exhausts I (MonadState.get >>= f) := by
  intro m hm
  rw [Eff.exec_get_bind]
  exact h m hm m hm

end Exhausts

/-- From every state satisfying `I`, `x` returns a value satisfying `P` in a state satisfying
`I` when `c` holds, and runs out of its budget when `c` fails. -/
def ReturnsWhen (I : Machine η → Prop) (c : Prop) (x : Eff η α) (P : α → Prop) : Prop :=
  (c → Returns I x P) ∧ (¬ c → Exhausts I x)

namespace ReturnsWhen

variable {c d : Prop}

theorem of_returns {x : Eff η α} (h : Returns I x P) : ReturnsWhen I True x P :=
  ⟨fun _ => h, fun hc => (hc trivial).elim⟩

theorem congr {c' : Prop} {x : Eff η α} (h : c ↔ c') (hx : ReturnsWhen I c x P) :
    ReturnsWhen I c' x P :=
  ⟨fun hc => hx.1 (h.2 hc), fun hc => hx.2 (mt h.1 hc)⟩

theorem bind {x : Eff η α} {f : α → Eff η β} (hx : ReturnsWhen I c x P)
    (hf : ∀ a, P a → ReturnsWhen I d (f a) Q) : ReturnsWhen I (c ∧ d) (x >>= f) Q := by
  refine ⟨fun ⟨hc, hd⟩ => Returns.bind (hx.1 hc) fun a ha => (hf a ha).1 hd, fun hcd => ?_⟩
  by_cases hc : c
  · exact Exhausts.bind_right (hx.1 hc) fun a ha => (hf a ha).2 fun hd => hcd ⟨hc, hd⟩
  · exact Exhausts.bind_left (hx.2 hc)

theorem bind_get {f : Machine η → Eff η β} (h : ∀ m, I m → ReturnsWhen I c (f m) Q) :
    ReturnsWhen I c (MonadState.get >>= f) Q :=
  ⟨fun hc => Returns.bind_get fun m hm => (h m hm).1 hc,
    fun hc => Exhausts.bind_get fun m hm => (h m hm).2 hc⟩

theorem forIn_list {xs : List α} {f : α → PUnit → Eff η (ForInStep PUnit)} {c : α → Prop}
    (h : ∀ a ∈ xs, ReturnsWhen I (c a) (f a ⟨⟩) (· = .yield ⟨⟩)) :
    ReturnsWhen I (∀ a ∈ xs, c a) (forIn xs ⟨⟩ f) fun _ => True := by
  induction xs with
  | nil => exact congr (by simp) (of_returns (Returns.pure trivial))
  | cons a xs ih =>
    rw [List.forIn_cons]
    refine congr ?cond (bind (h a List.mem_cons_self) fun s hs =>
      (?rest : ReturnsWhen I (∀ b ∈ xs, c b) _ fun _ => True))
    case rest =>
      rw [hs]
      exact ih fun b hb => h b (List.mem_cons_of_mem _ hb)
    case cond => simp

end ReturnsWhen

/-! ## The graph of nested lists -/

namespace Machine

variable (m : Machine η)

/-- The list `l` holds the list `l'` as an item. -/
def Nests (l l' : ListRef) : Prop := Value.list l' ∈ (m.listCell l).items

/-- Every chain of lists nested one in the next from `l` holds fewer than `n` lists. -/
def NestBound : Nat → ListRef → Prop
  | 0, _ => False
  | n + 1, l => ∀ l', m.Nests l l' → NestBound n l'

/-- Some list reachable from `l` through nested lists holds itself, directly or through other
lists. -/
def NestCycle (l : ListRef) : Prop :=
  ∃ l', Relation.ReflTransGen m.Nests l l' ∧ Relation.TransGen m.Nests l' l'

/-- A tracked read of `l` goes into its items: some watcher collects reads, and has not read
the list's own set in this pass yet. -/
def WalksList (l : ListRef) : Prop :=
  ∃ t, m.target = some t ∧ ∀ ob, (m.listCell l).observer = some ob → ob.dep ∉ (m.watcher t).newDeps

/-- The lists reachable from `l` through nested lists that hold a list themselves. -/
def nestingFrom (l : ListRef) : Set ListRef :=
  {l' | Relation.ReflTransGen m.Nests l l' ∧ ∃ l'', m.Nests l' l''}

variable {m} {m' : Machine η} {l l' : ListRef}

theorem nests_congr (h : m'.lists = m.lists) : m'.Nests = m.Nests := by
  unfold Nests listCell
  rw [h]

theorem nestCycle_congr (h : m'.lists = m.lists) : m'.NestCycle = m.NestCycle := by
  unfold NestCycle
  rw [nests_congr h]

theorem NestBound.mono : ∀ {n n' : Nat} {l : ListRef}, m.NestBound n l → n ≤ n' → m.NestBound n' l
  | 0, _, _, h, _ => h.elim
  | _ + 1, 0, _, _, hn => by omega
  | _ + 1, _ + 1, _, h, hn => fun l' hl => NestBound.mono (h l' hl) (by omega)

theorem Nests.lt_size (h : m.Nests l l') : l.idx < m.lists.size := by
  by_contra hl
  have hd : (default : ListCell).items = [] := rfl
  simp [Nests, listCell, Array.getElem?_eq_none (Nat.le_of_not_lt hl), hd] at h

theorem NestCycle.step (h : m.NestCycle l) : ∃ l', m.Nests l l' ∧ m.NestCycle l' := by
  obtain ⟨c, hreach, hcyc⟩ := h
  rcases Relation.ReflTransGen.cases_head hreach with rfl | ⟨l', hl, hrest⟩
  · obtain ⟨l', hl, hrest⟩ := Relation.TransGen.head'_iff.1 hcyc
    exact ⟨l', hl, l, hrest, hcyc⟩
  · exact ⟨l', hl, c, hrest, hcyc⟩

theorem not_nestCycle_of_nests (h : ¬ m.NestCycle l) (hl : m.Nests l l') : ¬ m.NestCycle l' :=
  fun ⟨c, hreach, hcyc⟩ => h ⟨c, .head hl hreach, hcyc⟩

theorem not_nestBound_of_nestCycle : ∀ {n : Nat} {l : ListRef}, m.NestCycle l → ¬ m.NestBound n l
  | 0, _, _, hb => hb
  | _ + 1, _, h, hb =>
    have ⟨l', hl, h'⟩ := h.step
    not_nestBound_of_nestCycle h' (hb l' hl)

/-- The handles of the lists in the table. -/
def tableLists (m : Machine η) : Finset ListRef := (Finset.range m.lists.size).image ListRef.mk

theorem nestingFrom_subset (l : ListRef) : m.nestingFrom l ⊆ ↑m.tableLists :=
  fun l' ⟨_, _, hl⟩ => Finset.mem_image.2 ⟨l'.idx, Finset.mem_range.2 hl.lt_size, rfl⟩

theorem nestingFrom_finite (l : ListRef) : (m.nestingFrom l).Finite :=
  m.tableLists.finite_toSet.subset (nestingFrom_subset l)

theorem ncard_nestingFrom_le (l : ListRef) : (m.nestingFrom l).ncard ≤ m.lists.size :=
  calc (m.nestingFrom l).ncard
      ≤ (↑m.tableLists : Set ListRef).ncard :=
        Set.ncard_le_ncard (nestingFrom_subset l) m.tableLists.finite_toSet
    _ = m.tableLists.card := Set.ncard_coe_finset _
    _ ≤ (Finset.range m.lists.size).card := Finset.card_image_le
    _ = m.lists.size := Finset.card_range _

theorem nestingFrom_ssubset (h : ¬ m.NestCycle l) (hl : m.Nests l l') :
    m.nestingFrom l' ⊂ m.nestingFrom l := by
  have hsub : m.nestingFrom l' ⊆ m.nestingFrom l := fun c ⟨hc, hn⟩ => ⟨.head hl hc, hn⟩
  refine (Set.ssubset_iff_of_subset hsub).2 ⟨l, ⟨.refl, l', hl⟩, ?_⟩
  rintro ⟨hback, -⟩
  exact h ⟨l, .refl, Relation.TransGen.head' hl hback⟩

theorem nestBound_of_ncard_le {k : Nat} {l : ListRef} (h : ¬ m.NestCycle l)
    (hk : (m.nestingFrom l).ncard ≤ k) : m.NestBound (k + 1) l := by
  -- each step into a nested list leaves fewer lists that hold lists
  induction k generalizing l with
  | zero =>
    intro l' hl
    have hne : (m.nestingFrom l).Nonempty := ⟨l, .refl, l', hl⟩
    have := (Set.ncard_pos (nestingFrom_finite l)).2 hne
    omega
  | succ k ih =>
    intro l' hl
    have hlt := Set.ncard_lt_ncard (nestingFrom_ssubset h hl) (nestingFrom_finite l)
    exact ih (not_nestCycle_of_nests h hl) (by omega)

theorem nestBound_of_not_nestCycle (h : ¬ m.NestCycle l) : m.NestBound (m.lists.size + 1) l :=
  nestBound_of_ncard_le h (ncard_nestingFrom_le l)

end Machine

/-! ## Tracked reads of lists -/

namespace Eff

theorem depend_returns (d : DepId) (ls : Array ListCell) :
    Returns (fun m : Machine η => m.lists = ls) (depend d) fun _ => True := by
  refine Returns.bind_get fun m _ => ?_
  split
  · exact Returns.pure trivial
  · dsimp only
    split
    · refine Returns.bind (Returns.modify fun _ h => h) fun _ _ => ?_
      split
      · exact Returns.modify fun _ h => h
      · exact Returns.pure trivial
    · exact Returns.pure trivial

theorem dependItems_returnsWhen (fuel : Nat) (l : ListRef) (m₀ : Machine η) :
    ReturnsWhen (fun m : Machine η => m.lists = m₀.lists) (m₀.NestBound fuel l) (dependItems fuel l)
      fun _ => True := by
  induction fuel generalizing l with
  | zero => exact ⟨fun h => h.elim, fun _ _ _ => rfl⟩
  | succ fuel ih =>
    unfold dependItems
    refine ReturnsWhen.bind_get fun m hm => ReturnsWhen.congr ?cond
      (ReturnsWhen.bind (ReturnsWhen.forIn_list fun a _ =>
        (?item : ReturnsWhen _ (∀ inner, a = .list inner → m₀.NestBound fuel inner) _ _))
        fun _ _ => ReturnsWhen.of_returns (Returns.pure trivial))
    case cond =>
      have hl : m.listCell l = m₀.listCell l := by simp only [Machine.listCell, hm]
      simp only [Machine.NestBound, Machine.Nests, hl, and_true]
      constructor
      · exact fun h l' hl' => h _ hl' l' rfl
      · rintro h _ ha inner rfl
        exact h inner ha
    case item =>
      -- a nested list returns when its own walk does; every other item returns at once
      have hwalk : ∀ inner, ReturnsWhen (fun m : Machine η => m.lists = m₀.lists)
          (m₀.NestBound fuel inner ∧ True)
          (dependItems fuel inner >>= fun _ => (Pure.pure (.yield PUnit.unit) : Eff η (ForInStep PUnit)))
          (· = .yield PUnit.unit) :=
        fun inner => ReturnsWhen.bind (ih inner) fun _ _ => ReturnsWhen.of_returns (Returns.pure rfl)
      have hobserve : ∀ d, Returns (fun m : Machine η => m.lists = m₀.lists)
          (depend d >>= fun _ => (Pure.pure (.yield PUnit.unit) : Eff η (ForInStep PUnit)))
          (· = .yield PUnit.unit) :=
        fun d => Returns.bind (depend_returns d _) fun _ _ => Returns.pure rfl
      cases a with
      | list inner =>
        refine ReturnsWhen.bind_get fun m₁ _ => ?_
        dsimp only
        split
        · exact ReturnsWhen.congr (by simp)
            (ReturnsWhen.bind (ReturnsWhen.of_returns (depend_returns _ _)) fun _ _ => hwalk inner)
        · exact ReturnsWhen.congr (by simp) (hwalk inner)
      | obj o =>
        refine ReturnsWhen.congr (by simp) (ReturnsWhen.of_returns (Returns.bind_get fun m₁ _ => ?_))
        split
        · exact hobserve _
        · exact Returns.pure rfl
      | _ => exact ReturnsWhen.congr (by simp) (ReturnsWhen.of_returns (Returns.pure rfl))

theorem dependList_returnsWhen (l : ListRef) (m₀ : Machine η) :
    ReturnsWhen (fun m : Machine η => m.lists = m₀.lists) (¬ m₀.NestCycle l) (dependList l)
      fun _ => True := by
  -- the fuel is read from the state, so the walk is taken state by state
  have hrun : ∀ m : Machine η, ExceptT.run (dependList l) m =
      ExceptT.run (dependItems (m.objects.size + m.lists.size + 1) l) m := fun _ => rfl
  have hbound : ∀ m : Machine η, m.lists = m₀.lists →
      (m₀.NestBound (m.objects.size + m.lists.size + 1) l ↔ ¬ m₀.NestCycle l) := by
    intro m hm
    refine ⟨fun hb hc => Machine.not_nestBound_of_nestCycle hc hb, fun hc => ?_⟩
    exact (Machine.nestBound_of_not_nestCycle hc).mono (by rw [hm]; omega)
  refine ⟨fun hc m hm => ?_, fun hc m hm => ?_⟩
  · rw [hrun]
    exact (dependItems_returnsWhen _ l m₀).1 ((hbound m hm).2 hc) m hm
  · rw [hrun]
    exact (dependItems_returnsWhen _ l m₀).2 (mt (hbound m hm).1 hc) m hm

theorem dependList_run (l : ListRef) (m : Machine η) :
    (¬ m.NestCycle l → ∃ m', ExceptT.run (dependList l) m = .ok (.ok (), m') ∧ m'.lists = m.lists) ∧
      (m.NestCycle l → ExceptT.run (dependList l) m = .error .exhausted) := by
  refine ⟨fun hc => ?_, fun hc => (dependList_returnsWhen l m).2 (not_not.2 hc) m rfl⟩
  obtain ⟨⟨⟩, m', hrun, -, hm'⟩ := (dependList_returnsWhen l m).1 hc m rfl
  exact ⟨m', hrun, hm'⟩

/-- The read of a list in a pass returns unless it goes into the list's items and a cycle of
nested lists is reachable from it; then it runs out of its budget. -/
theorem trackList_run (l : ListRef) (m : Machine η) :
    (¬ (m.WalksList l ∧ m.NestCycle l) →
      ∃ m', ExceptT.run (trackList l) m = .ok (.ok (), m') ∧ m'.lists = m.lists) ∧
      (m.WalksList l ∧ m.NestCycle l → ExceptT.run (trackList l) m = .error .exhausted) := by
  unfold trackList
  rw [exec_get_bind]
  rcases ht : m.target with _ | t
  · refine ⟨fun _ => ⟨m, rfl, rfl⟩, fun ⟨⟨t, ht', _⟩, _⟩ => ?_⟩
    rw [ht] at ht'
    cases ht'
  dsimp only
  -- where the read goes into the items, it is a walk of the nested lists
  have hwalk : m.WalksList l ↔ ∀ ob, (m.listCell l).observer = some ob →
      ob.dep ∉ (m.watcher t).newDeps := by
    simp [Machine.WalksList, ht]
  rcases ho : (m.listCell l).observer with _ | ob
  · simp only [hwalk, ho, reduceCtorEq, false_implies, implies_true, true_and]
    exact dependList_run l m
  · by_cases hc : (m.watcher t).newDeps.contains ob.dep = true
    · have hn : ¬ m.WalksList l := by
        simpa [hwalk, ho] using hc
      simp only [hc, if_true, hn, false_and, not_false_eq_true, true_implies, false_implies,
        and_true]
      exact ⟨m, rfl, rfl⟩
    · have hy : m.WalksList l := by
        simpa [hwalk, ho] using hc
      simp only [hc, Bool.false_eq_true, if_false, hy, true_and]
      obtain ⟨⟨⟩, m₁, hdep, -, hm₁⟩ := depend_returns ob.dep m.lists m rfl
      rw [exec_bind, hdep, ← Machine.nestCycle_congr hm₁]
      obtain ⟨hret, hex⟩ := dependList_run l m₁
      exact ⟨fun hcyc => (hret hcyc).imp fun _ ⟨h, h'⟩ => ⟨h, h'.trans hm₁⟩, hex⟩

/-- The length of a list read in a watcher's pass is returned unless the read goes into the
list's items and a cycle of nested lists is reachable from it; then the read runs out of its
budget, whatever the containers' observers. -/
theorem listSize_run (l : ListRef) (m : Machine η) :
    (¬ (m.WalksList l ∧ m.NestCycle l) → ∃ m',
      ExceptT.run (listSize l) m = .ok (.ok (m.listCell l).items.length, m') ∧ m'.lists = m.lists) ∧
      (m.WalksList l ∧ m.NestCycle l → ExceptT.run (listSize l) m = .error .exhausted) := by
  obtain ⟨hret, hex⟩ := trackList_run l m
  unfold listSize
  refine ⟨fun hc => ?_, fun hc => by rw [exec_bind, hex hc]⟩
  obtain ⟨m', hrun, hm'⟩ := hret hc
  refine ⟨m', ?_, hm'⟩
  rw [exec_bind, hrun]
  dsimp only
  rw [exec_get_bind, exec_pure]
  simp only [Machine.listCell, hm']

/-- A read of a tracked property in a pass returns its value, unless the value is a list,
stored observed, from which a cycle of nested lists is reachable: then it runs out. -/
theorem propGet_run (p : PropId) (m : Machine η) :
    (¬ (m.target.isSome ∧ (m.prop p).childDep.isSome ∧ ∃ l, (m.prop p).value = .list l ∧
        m.NestCycle l) →
      ∃ m', ExceptT.run (propGet p) m = .ok (.ok (m.prop p).value, m') ∧ m'.lists = m.lists) ∧
      (m.target.isSome ∧ (m.prop p).childDep.isSome ∧ (∃ l, (m.prop p).value = .list l ∧
        m.NestCycle l) → ExceptT.run (propGet p) m = .error .exhausted) := by
  unfold propGet
  rw [exec_get_bind]
  dsimp only
  by_cases ht : m.target.isSome = true
  swap
  · simp only [ht, Bool.false_eq_true, if_false, false_and, not_false_eq_true, true_implies,
      false_implies, and_true]
    exact ⟨m, rfl, rfl⟩
  simp only [ht, if_true, true_and]
  obtain ⟨⟨⟩, m₁, hd, -, hm₁⟩ := depend_returns (m.prop p).dep m.lists m rfl
  rw [exec_bind, hd]
  dsimp only
  rcases hc : (m.prop p).childDep with _ | child
  · simp only [Option.isSome_none, Bool.false_eq_true, false_and, not_false_eq_true,
      true_implies, false_implies, and_true]
    exact ⟨m₁, rfl, hm₁⟩
  obtain ⟨⟨⟩, m₂, hd₂, -, hm₂⟩ := depend_returns child m.lists m₁ hm₁
  simp only [Option.isSome_some, true_and]
  rw [exec_bind, hd₂]
  dsimp only
  split
  · rename_i l hl
    -- a stored list: the read walks it from a state with the same lists
    have hcyc : (∃ l', (m.prop p).value = .list l' ∧ m.NestCycle l') ↔ m₂.NestCycle l := by
      rw [Machine.nestCycle_congr hm₂, hl]
      simp
    rw [hcyc]
    obtain ⟨hret, hex⟩ := dependList_run l m₂
    refine ⟨fun h => ?_, fun h => by rw [exec_bind, hex h]⟩
    obtain ⟨m₃, hrun, hm₃⟩ := hret h
    exact ⟨m₃, by rw [exec_bind, hrun]; rfl, hm₃.trans hm₂⟩
  · rename_i hl
    have hno : ¬ ∃ l', (m.prop p).value = .list l' ∧ m.NestCycle l' :=
      fun ⟨l', hv, _⟩ => hl l' hv
    simp only [hno, not_false_eq_true, true_implies, false_implies, and_true]
    exact ⟨m₂, rfl, hm₂⟩

/-- The length of a list that holds itself, read in a pass, is never returned. -/
theorem listSize_self_exhausted :
    ExceptT.run (listSize ⟨0⟩)
      ({ host := (), lists := #[{ items := [.list ⟨0⟩] }], context := [some ⟨0⟩],
         watchers := #[{ (default : WatcherCell) with active := true }] } : Machine Unit) =
      .error .exhausted := rfl

end Eff

end Reactivity
