import Reactivity.Sorting
import Mathlib.Data.List.Basic

/-!
# Sorting keeps its items

`Sorting.sort` puts out only items it was given, or the default value, which reading past the
end of the working array gives and only a comparison that is not a strict weak order can make
it read. Stated for any property `P` of the items that the default has: if every item given
has it, so does every item put out (`Sorting.sort_items`). Each step of the sort is a lemma of
that form, and the steps that call each other (quicksort, sorting by runs, the next run and
the merges of the run stack) are proved together, by induction on the fuel they share.
-/

namespace Reactivity.Sorting

variable {α : Type} [Inhabited α] {P : α → Prop} (lt : α → α → Bool)

/-! ## Lists and arrays of items with the property -/

theorem getD_has {v : Array α} (hv : ∀ x ∈ v.toList, P x) (hd : P default) (i : Nat) :
    P (v.getD i default) := by
  rw [Array.getD_eq_getD_getElem?]
  cases h : v[i]? with
  | none => exact hd
  | some x => exact hv x (Array.mem_toList_iff.2 (Array.mem_of_getElem? h))

omit [Inhabited α] in
theorem place_has {v : Array α} {xs : List α} (hv : ∀ x ∈ v.toList, P x) (hxs : ∀ x ∈ xs, P x)
    (start : Nat) : ∀ y ∈ (place v start xs).toList, P y := by
  intro y hy
  simp only [place, List.mem_append] at hy
  rcases hy with (hy | hy) | hy
  · exact hv y (List.mem_of_mem_take hy)
  · exact hxs y hy
  · exact hv y (List.mem_of_mem_drop hy)

/-! ## Insertion and the small sort -/

omit [Inhabited α] in
theorem insertBack_has {x : α} {ys : List α} (hx : P x) (hys : ∀ y ∈ ys, P y) :
    ∀ y ∈ insertBack lt x ys, P y := by
  induction ys with
  | nil =>
    intro y hy
    rw [insertBack, List.mem_singleton] at hy
    exact hy ▸ hx
  | cons z zs ih =>
    intro y hy
    unfold insertBack at hy
    split at hy
    · rcases List.mem_cons.1 hy with rfl | hy
      · exact hys _ List.mem_cons_self
      · exact ih (fun y hy => hys y (List.mem_cons_of_mem _ hy)) y hy
    · rcases List.mem_cons.1 hy with rfl | hy
      · exact hx
      · exact hys y hy

omit [Inhabited α] in
theorem insertAll_has {sorted xs : List α} (hs : ∀ y ∈ sorted, P y) (hxs : ∀ x ∈ xs, P x) :
    ∀ y ∈ insertAll lt sorted xs, P y := by
  -- the accumulator of the fold, given last first, keeps the property
  have hfold : ∀ (acc : List α), (∀ y ∈ acc, P y) → ∀ (zs : List α), (∀ x ∈ zs, P x) →
      ∀ y ∈ zs.foldl (fun acc x => insertBack lt x acc) acc, P y := by
    intro acc hacc zs
    induction zs generalizing acc with
    | nil => exact fun _ => hacc
    | cons z zs ih =>
      intro hzs
      exact ih _ (insertBack_has lt (hzs z List.mem_cons_self) hacc)
        fun x hx => hzs x (List.mem_cons_of_mem _ hx)
  intro y hy
  rw [insertAll, List.mem_reverse] at hy
  exact hfold _ (fun y hy => hs y (List.mem_reverse.1 hy)) xs hxs y hy

omit [Inhabited α] in
theorem pick_has (p : Bool) {x z : α} (hx : P x) (hz : P z) : P (if p = true then x else z) := by
  split
  · exact hx
  · exact hz

omit [Inhabited α] in
theorem sortFour_has {a b c d : α} (ha : P a) (hb : P b) (hc : P c) (hd : P d) :
    ∀ y ∈ sortFour lt a b c d, P y := by
  unfold sortFour
  -- each pair, put in order, is the pair in some order
  generalize hab : (if lt b a = true then (b, a) else (a, b)) = ab
  generalize hcd : (if lt d c = true then (d, c) else (c, d)) = cd
  have hab' : P ab.1 ∧ P ab.2 := by
    rw [← hab]
    split
    · exact ⟨hb, ha⟩
    · exact ⟨ha, hb⟩
  have hcd' : P cd.1 ∧ P cd.2 := by
    rw [← hcd]
    split
    · exact ⟨hd, hc⟩
    · exact ⟨hc, hd⟩
  obtain ⟨a', b'⟩ := ab
  obtain ⟨c', d'⟩ := cd
  obtain ⟨ha', hb'⟩ := hab'
  obtain ⟨hc', hd'⟩ := hcd'
  intro y hy
  dsimp only at hy
  -- and so is each of the four elements picked from them
  generalize hl : (if lt c' a' = true then c' else a') = least at hy
  generalize hr : (if lt d' b' = true then d' else if lt c' a' = true then b' else c') = right at hy
  generalize hm : (if lt c' a' = true then a' else if lt d' b' = true then c' else b') = left at hy
  generalize hx : (if lt d' b' = true then b' else d') = most at hy
  have hpicks : P least ∧ P right ∧ P left ∧ P most := by
    subst hl hr hm hx
    exact ⟨pick_has _ hc' ha', pick_has _ hd' (pick_has _ hb' hc'),
      pick_has _ ha' (pick_has _ hc' hb'), pick_has _ hb' hd'⟩
  obtain ⟨h₁, h₂, h₃, h₄⟩ := hpicks
  split at hy
  · simp only [List.mem_cons, List.not_mem_nil, or_false] at hy
    rcases hy with rfl | rfl | rfl | rfl <;> assumption
  · simp only [List.mem_cons, List.not_mem_nil, or_false] at hy
    rcases hy with rfl | rfl | rfl | rfl <;> assumption

theorem mergeEnds_has {src : Array α} (hsrc : ∀ x ∈ src.toList, P x) (hd : P default) :
    ∀ (k : Nat) (e : Ends α), (∀ y ∈ e.front, P y) → (∀ y ∈ e.back, P y) →
      (∀ y ∈ (mergeEnds lt src k e).front, P y) ∧ ∀ y ∈ (mergeEnds lt src k e).back, P y := by
  intro k
  induction k with
  | zero => exact fun e hf hb => ⟨hf, hb⟩
  | succ k ih =>
    intro e hf hb
    unfold mergeEnds
    refine ih _ (fun y hy => ?_) fun y hy => ?_
    · rcases List.mem_cons.1 hy with rfl | hy
      · split
        · exact getD_has hsrc hd _
        · exact getD_has hsrc hd _
      · exact hf y hy
    · rcases List.mem_cons.1 hy with rfl | hy
      · split
        · exact getD_has hsrc hd _
        · exact getD_has hsrc hd _
      · exact hb y hy

theorem mergeBothEnds_has {src : Array α} {ys : List α} (hsrc : ∀ x ∈ src.toList, P x)
    (hd : P default) (h : mergeBothEnds lt src = some ys) : ∀ y ∈ ys, P y := by
  unfold mergeBothEnds at h
  extract_lets n half e at h
  obtain ⟨hf, hb⟩ := mergeEnds_has lt hsrc hd half ⟨0, half, half, n, [], []⟩
    (fun _ h => by cases h) fun _ h => by cases h
  split at h
  next middle left right hmid =>
    -- at most one element, read from the array, stands between the two ends
    have hm : ∀ y ∈ middle, P y := by
      split at hmid
      · cases hmid
        exact fun _ h => by cases h
      · split at hmid <;>
        · cases hmid
          exact List.forall_mem_singleton.2 (getD_has hsrc hd _)
    obtain ⟨-, hys⟩ := Option.ite_none_right_eq_some.1 h
    cases hys
    intro y hy
    simp only [List.mem_append, List.mem_reverse] at hy
    rcases hy with (hy | hy) | hy
    · exact hf y hy
    · exact hm y hy
    · exact hb y hy

omit [Inhabited α] in
theorem smallHalf_has (big : Bool) {xs : List α} (hxs : ∀ x ∈ xs, P x) :
    ∀ y ∈ smallHalf lt big xs, P y := by
  unfold smallHalf
  split
  next a b c d rest =>
    simp only [List.forall_mem_cons] at hxs
    obtain ⟨ha, hb, hc, hd, hrest⟩ := hxs
    exact insertAll_has lt (sortFour_has lt ha hb hc hd) hrest
  next x rest _ =>
    simp only [List.forall_mem_cons] at hxs
    exact insertAll_has lt (List.forall_mem_singleton.2 hxs.1) hxs.2
  next => exact fun _ h => by cases h

theorem smallSort_has (hd : P default) {xs ys : List α} (hxs : ∀ x ∈ xs, P x)
    (h : smallSort lt xs = some ys) : ∀ y ∈ ys, P y := by
  unfold smallSort at h
  extract_lets n at h
  split at h
  · cases h
    exact hxs
  · refine mergeBothEnds_has lt (fun y hy => ?_) hd h
    rw [List.toList_toArray, List.mem_append] at hy
    rcases hy with hy | hy
    · exact smallHalf_has lt _ (fun x hx => hxs x (List.mem_of_mem_take hx)) y hy
    · exact smallHalf_has lt _ (fun x hx => hxs x (List.mem_of_mem_drop hx)) y hy

/-! ## Merging runs and partitioning -/

omit [Inhabited α] in
theorem mergeFront_has {xs ys : List α} (hxs : ∀ x ∈ xs, P x) (hys : ∀ y ∈ ys, P y) :
    ∀ z ∈ mergeFront lt xs ys, P z := by
  fun_induction mergeFront lt xs ys with
  | case1 ys => exact hys
  | case2 xs _ => exact hxs
  | case3 x xs y ys _ ih =>
    have hy := List.forall_mem_cons.1 hys
    exact List.forall_mem_cons.2 ⟨hy.1, ih hxs hy.2⟩
  | case4 x xs y ys _ ih =>
    have hx := List.forall_mem_cons.1 hxs
    exact List.forall_mem_cons.2 ⟨hx.1, ih hx.2 hys⟩

omit [Inhabited α] in
theorem mergeBack_has {xs ys acc : List α} (hxs : ∀ x ∈ xs, P x) (hys : ∀ y ∈ ys, P y)
    (hacc : ∀ z ∈ acc, P z) : ∀ z ∈ mergeBack lt xs ys acc, P z := by
  fun_induction mergeBack lt xs ys acc with
  | case1 x xs y ys acc _ ih =>
    have hx := List.forall_mem_cons.1 hxs
    exact ih hx.2 hys (List.forall_mem_cons.2 ⟨hx.1, hacc⟩)
  | case2 x xs y ys acc _ ih =>
    have hy := List.forall_mem_cons.1 hys
    exact ih hxs hy.2 (List.forall_mem_cons.2 ⟨hy.1, hacc⟩)
  | case3 xs ys acc _ =>
    simp only [List.forall_mem_append, List.mem_reverse]
    exact ⟨⟨hxs, hys⟩, hacc⟩

omit [Inhabited α] in
theorem mergeRuns_has {xs ys : List α} (hxs : ∀ x ∈ xs, P x) (hys : ∀ y ∈ ys, P y) :
    ∀ z ∈ mergeRuns lt xs ys, P z := by
  unfold mergeRuns
  split
  · exact mergeFront_has lt hxs hys
  · refine mergeBack_has lt ?_ ?_ fun _ h => by cases h
    · exact fun x hx => hxs x (List.mem_reverse.1 hx)
    · exact fun y hy => hys y (List.mem_reverse.1 hy)

omit [Inhabited α] in
theorem partition_has {goesLeft : α → Bool} {pivot : Nat} {pivotLeft : Bool}
    {xs parted : List α} {k : Nat} (hxs : ∀ x ∈ xs, P x)
    (h : partition goesLeft pivot pivotLeft xs = (parted, k)) : ∀ y ∈ parted, P y := by
  simp only [partition, Prod.mk.injEq] at h
  obtain ⟨rfl, -⟩ := h
  intro y hy
  -- both parts are items of `xs`, each marked with the side it goes to
  simp only [List.mem_append, List.mem_map, List.mem_filter] at hy
  rcases hy with ⟨_, ⟨⟨q, hq, rfl⟩, -⟩, rfl⟩ | ⟨_, ⟨⟨q, hq, rfl⟩, -⟩, rfl⟩
  · exact hxs q.1 (List.fst_mem_of_mem_zipIdx hq)
  · exact hxs q.1 (List.fst_mem_of_mem_zipIdx hq)

/-! ## The steps that share the fuel -/

/-- The steps of the sort that spend `fuel` put out only items with `P` when given only such:
quicksort and sorting by runs with its loop (the list put out), the next run and the merges
of the run stack (the working array they leave). -/
def StepsHave (P : α → Prop) (fuel : Nat) : Prop :=
  (∀ space xs limit anc ys, (∀ x ∈ xs, P x) → quicksort lt space fuel xs limit anc = some ys →
    ∀ y ∈ ys, P y) ∧
  (∀ space eager xs ys, (∀ x ∈ xs, P x) → byRuns lt space fuel eager xs = some ys →
    ∀ y ∈ ys, P y) ∧
  (∀ plan v scan prev stack ys, (∀ x ∈ v.toList, P x) →
    runsFrom lt plan fuel v scan prev stack = some ys → ∀ y ∈ ys, P y) ∧
  (∀ plan v scan w, (∀ x ∈ v.toList, P x) → nextRun lt plan fuel v scan = some w →
    ∀ y ∈ w.1.toList, P y) ∧
  (∀ plan v scan prev stack depth w, (∀ x ∈ v.toList, P x) →
    collapse lt plan fuel v scan prev stack depth = some w → ∀ y ∈ w.1.toList, P y)

section Steps

variable {lt} {fuel : Nat} (ih : StepsHave lt P fuel)
include ih

theorem quicksort_has_succ (hd : P default) : ∀ space xs limit anc ys, (∀ x ∈ xs, P x) →
    quicksort lt space (fuel + 1) xs limit anc = some ys → ∀ y ∈ ys, P y := by
  intro space xs limit anc ys hxs h
  unfold quicksort at h
  split at h
  · exact smallSort_has lt hd hxs h
  split at h
  · exact ih.2.1 _ _ _ _ hxs h
  extract_lets v pos pivot repeated at h
  generalize hpl : (if repeated = true then (xs, 0)
    else partition (fun x => lt x pivot) pos false xs) = pl at h
  obtain ⟨parted, leftLen⟩ := pl
  -- the partition only reorders `xs`
  have hparted : ∀ y ∈ parted, P y := by
    split at hpl
    · cases hpl
      exact hxs
    · exact partition_has hxs hpl
  dsimp only at h
  split at h
  · -- the elements equal to a repeated pivot stay in front; the rest are sorted
    generalize hpe : partition (fun x => !lt pivot x) pos true parted = pe at h
    obtain ⟨parted', equal⟩ := pe
    have hparted' := partition_has hparted hpe
    simp only [Option.map_eq_map, Option.map_eq_some_iff] at h
    obtain ⟨zs, hzs, rfl⟩ := h
    refine List.forall_mem_append.2 ⟨fun y hy => hparted' y (List.mem_of_mem_take hy), ?_⟩
    exact ih.1 _ _ _ _ _ (fun y hy => hparted' y (List.mem_of_mem_drop hy)) hzs
  · simp only [Option.bind_eq_bind, Option.bind_eq_some_iff, Option.pure_def,
      Option.some.injEq] at h
    obtain ⟨right, hright, left, hleft, rfl⟩ := h
    refine List.forall_mem_append.2 ⟨?_, ?_⟩
    · exact ih.1 _ _ _ _ _ (fun y hy => hparted y (List.mem_of_mem_take hy)) hleft
    · exact ih.1 _ _ _ _ _ (fun y hy => hparted y (List.mem_of_mem_drop hy)) hright

theorem byRuns_has_succ : ∀ space eager xs ys, (∀ x ∈ xs, P x) →
    byRuns lt space (fuel + 1) eager xs = some ys → ∀ y ∈ ys, P y := by
  intro space eager xs ys hxs h
  unfold byRuns at h
  extract_lets n at h
  split at h
  · cases h
    exact hxs
  · exact ih.2.2.1 _ _ _ _ _ _ (by simpa only [List.toList_toArray] using hxs) h

theorem nextRun_has_succ : ∀ plan v scan w, (∀ x ∈ v.toList, P x) →
    nextRun lt plan (fuel + 1) v scan = some w → ∀ y ∈ w.1.toList, P y := by
  intro plan v scan w hv h
  unfold nextRun at h
  extract_lets rest found turned k at h
  have hrest : ∀ y ∈ rest, P y := fun y hy => hv y (List.mem_of_mem_drop hy)
  split at h
  · -- a run found in order, turned round if it descends
    cases h
    simp only [turned]
    split
    · exact place_has hv (fun y hy => hrest y (List.mem_of_mem_take (List.mem_reverse.1 hy))) scan
    · exact hv
  · split at h
    · -- the next elements, sorted at once
      simp only [Option.bind_eq_bind, Option.bind_eq_some_iff, Option.pure_def,
        Option.some.injEq] at h
      obtain ⟨sorted, hs, rfl⟩ := h
      exact place_has hv (ih.1 _ _ _ _ _ (fun y hy => hrest y (List.mem_of_mem_take hy)) hs) scan
    · cases h
      exact hv

theorem runSorted_has {β : Type} {space limit : Nat} {c : Bool} {x : List α}
    {k : List α → Option β} {r : β} (hx : ∀ y ∈ x, P y)
    (h : (if c = true then pure x >>= k else quicksort lt space fuel x limit none >>= k) = some r) :
    ∃ ys, (∀ y ∈ ys, P y) ∧ k ys = some r := by
  simp only [Option.bind_eq_bind, Option.pure_def, Option.bind_some] at h
  split at h
  · exact ⟨x, hx, h⟩
  · obtain ⟨ys, hys, h⟩ := Option.bind_eq_some_iff.1 h
    exact ⟨ys, ih.1 _ _ _ _ _ hx hys, h⟩

theorem collapse_has_succ : ∀ plan v scan prev stack depth w, (∀ x ∈ v.toList, P x) →
    collapse lt plan (fuel + 1) v scan prev stack depth = some w → ∀ y ∈ w.1.toList, P y := by
  intro plan v scan prev stack depth w hv h
  unfold collapse at h
  split at h
  · split at h
    · extract_lets len start part first second finish at h
      split at h
      · exact ih.2.2.2.2 _ _ _ _ _ _ _ hv h
      · -- the two runs on top, each sorted if it is not yet, merged in place
        have hpart : ∀ y ∈ part, P y :=
          fun y hy => hv y (List.mem_of_mem_drop (List.mem_of_mem_take hy))
        obtain ⟨first', hfirst, h⟩ :=
          runSorted_has ih (fun y hy => hpart y (List.mem_of_mem_take hy)) h
        dsimp only [finish] at h
        obtain ⟨second', hsecond, h⟩ :=
          runSorted_has ih (fun y hy => hpart y (List.mem_of_mem_drop hy)) h
        exact ih.2.2.2.2 _ _ _ _ _ _ _ (place_has hv (mergeRuns_has lt hfirst hsecond) _) h
    · cases h
      exact hv
  · cases h
    exact hv

theorem runsFrom_has_succ : ∀ plan v scan prev stack ys, (∀ x ∈ v.toList, P x) →
    runsFrom lt plan (fuel + 1) v scan prev stack = some ys → ∀ y ∈ ys, P y := by
  intro plan v scan prev stack ys hv h
  unfold runsFrom at h
  extract_lets n finish at h
  -- after the next run: merge what the depth asks for, then go on or finish
  have hfinish : ∀ a, (∀ y ∈ a.1.toList, P y) → finish a = some ys → ∀ y ∈ ys, P y := by
    rintro ⟨w, next, depth⟩ hw hfin
    dsimp only [finish] at hfin
    obtain ⟨⟨w', prev', stack'⟩, hc, hfin⟩ := Option.bind_eq_some_iff.1 hfin
    have hw' := ih.2.2.2.2 _ _ _ _ _ _ _ hw hc
    dsimp only at hfin
    split at hfin
    · exact ih.2.2.1 _ _ _ _ _ _ hw' hfin
    · split at hfin
      · cases hfin
        exact hw'
      · exact ih.1 _ _ _ _ _ hw' hfin
  clear_value finish
  simp only [Option.bind_eq_bind, Option.pure_def, Option.bind_some] at h
  split at h
  · obtain ⟨⟨w, next⟩, hr, h⟩ := Option.bind_eq_some_iff.1 h
    exact hfinish _ (ih.2.2.2.1 _ _ _ _ hv hr) h
  · exact hfinish _ hv h

end Steps

theorem stepsHave (hd : P default) : ∀ fuel, StepsHave lt P fuel
  | 0 => by
    refine ⟨?_, ?_, ?_, ?_, ?_⟩
    · intro _ xs _ _ ys hxs h
      unfold quicksort at h
      cases h
      exact hxs
    · intro _ _ xs ys hxs h
      unfold byRuns at h
      cases h
      exact hxs
    · intro _ v _ _ _ ys hv h
      unfold runsFrom at h
      cases h
      exact hv
    · intro _ v _ w hv h
      unfold nextRun at h
      cases h
      exact hv
    · intro _ v _ _ _ _ w hv h
      unfold collapse at h
      cases h
      exact hv
  | fuel + 1 =>
    have ih := stepsHave hd fuel
    ⟨quicksort_has_succ ih hd, byRuns_has_succ ih, runsFrom_has_succ ih, nextRun_has_succ ih,
      collapse_has_succ ih⟩

/-- Sorting puts out only items it was given, or the default value: every property of the
items that the default has too holds of every item put out. -/
theorem sort_items (hd : P default) {xs ys : List α} (hxs : ∀ x ∈ xs, P x)
    (h : sort lt xs = some ys) : ∀ y ∈ ys, P y := by
  unfold sort at h
  extract_lets n at h
  split at h
  · cases h
    exact insertAll_has lt (fun _ h => by cases h) hxs
  · exact (stepsHave lt hd _).2.1 _ _ _ _ hxs h

end Reactivity.Sorting
