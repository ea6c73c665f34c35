import Reactivity.Proofs.SmallSort

/-!
# Sorting gives the stable order

For a strict weak order, `Sorting.sort` gives the merge sort's answer on every list
(`sort_eq_mergeSort`): it never refuses, and its fuel always suffices.

Each step is the stable order of what it is given. A run found in order is one, turned round if
it strictly descends (`frontRun_sortsTo`); two sorted runs merge to one from either end
(`mergeRuns_eq_merge`); quicksort splits along its pivot, which is an item of the list
(`pivotAt_lt`), and the stable order of the parts side by side is that of the whole
(`partition_eq`, `SortsTo.split`). Sorting by runs keeps the runs on its stack laid side by side
over the working array (`Laid`, `RunState`), each sorted stably from what stood there at first
or still as it stood; pushing the next run keeps this (`RunState.push`), and the last merges
leave one run over the whole (`RunState.finish`).

The steps share one fuel, spent one unit a nesting. Each step is shown to suffice with fuel above
an explicit need (`quickNeed`, `runsNeed`): quicksort works on fewer items at each level and
falls back to sorting by runs in eager mode, where every run is sorted and no merge calls
quicksort again; sorting by runs makes at least one item of progress a round. All steps are
proved together, by induction on the fuel (`stepsSort`).
-/

namespace Reactivity.Sorting

variable {α : Type} {lt : α → α → Bool} (hw : IsStrictWeakOrder α fun a b => lt a b = true)

/-! ## Runs found in order -/

section Runs

theorem runOn_le (down : Bool) (prev : α) (rest : List α) :
    runOn lt down prev rest ≤ rest.length := by
  induction rest generalizing prev with
  | nil => simp [runOn]
  | cons x rest ih =>
    rw [runOn]
    by_cases hx : (if down then lt x prev else !lt x prev) = true
    · rw [if_pos hx]
      simpa using ih x
    · rw [if_neg hx]
      simp

include hw

/-- The direction of a run is transitive. -/
theorem direction_trans (down : Bool) {a b c : α}
    (hab : (if down then lt b a else !lt b a) = true)
    (hbc : (if down then lt c b else !lt c b) = true) :
    (if down then lt c a else !lt c a) = true := by
  cases down
  · simp only [Bool.false_eq_true, if_false] at *
    exact Weak.le_trans hw a b c hab hbc
  · simp only [if_true] at *
    exact Weak.trans hw hbc hab

/-- A run is a chain in its direction, so each pair of it keeps to the direction. -/
theorem runOn_pairwise (down : Bool) (prev : α) (rest : List α) :
    (prev :: rest.take (runOn lt down prev rest)).Pairwise
      fun a b => (if down then lt b a else !lt b a) = true := by
  induction rest generalizing prev with
  | nil => simp
  | cons x rest ih =>
    rw [runOn]
    by_cases hx : (if down then lt x prev else !lt x prev) = true
    · have hrun := ih x
      rw [if_pos hx, List.take_succ_cons]
      refine List.Pairwise.cons (fun y hy => ?_) hrun
      rcases List.mem_cons.1 hy with rfl | hy
      · exact hx
      · exact direction_trans hw down hx (List.rel_of_pairwise_cons hrun hy)
    · rw [if_neg hx]
      simp

omit hw in
theorem frontRun_le (xs : List α) : (frontRun lt xs).1 ≤ xs.length := by
  rcases xs with _ | ⟨a, _ | ⟨b, rest⟩⟩
  · simp [frontRun]
  · simp [frontRun]
  · simpa [frontRun] using runOn_le (lt b a) b rest

omit hw in
theorem frontRun_pos {xs : List α} (hxs : xs ≠ []) : 0 < (frontRun lt xs).1 := by
  rcases xs with _ | ⟨a, _ | ⟨b, rest⟩⟩
  · exact absurd rfl hxs
  · simp [frontRun]
  · simp [frontRun]

/-- The run at the front is the stable order of its items, turned round if it descends. -/
theorem frontRun_sortsTo (xs : List α) :
    SortsTo lt (xs.take (frontRun lt xs).1) (if (frontRun lt xs).2 then
      (xs.take (frontRun lt xs).1).reverse else xs.take (frontRun lt xs).1) := by
  rcases xs with _ | ⟨a, _ | ⟨b, rest⟩⟩
  · simpa [frontRun] using (SortsTo.of_sorted List.Pairwise.nil : SortsTo lt [] [])
  · simpa [frontRun] using (SortsTo.single a : SortsTo lt [a] [a])
  · have hfront : frontRun lt (a :: b :: rest) = (runOn lt (lt b a) b rest + 2, lt b a) := rfl
    rw [hfront]
    dsimp only
    -- the first pair sets the direction, the rest of the run keeps to it
    have hrun : (a :: b :: rest.take (runOn lt (lt b a) b rest)).Pairwise
        fun x y => (if lt b a then lt y x else !lt y x) = true := by
      refine List.Pairwise.cons (fun y hy => ?_) (runOn_pairwise hw _ b rest)
      have hab : (if lt b a then lt b a else !lt b a) = true := by cases lt b a <;> rfl
      rcases List.mem_cons.1 hy with rfl | hy
      · exact hab
      · exact direction_trans hw _ hab
          (List.rel_of_pairwise_cons (runOn_pairwise hw _ b rest) hy)
    rw [List.take_succ_cons, List.take_succ_cons]
    by_cases hd : lt b a = true
    · rw [if_pos hd]
      simp only [if_pos hd] at hrun
      exact SortsTo.reverse hw hrun
    · rw [if_neg hd]
      simp only [if_neg hd] at hrun
      exact SortsTo.of_sorted (by simpa using hrun)

end Runs

/-! ## Merging two runs -/

section Merges

theorem mergeFront_eq_merge (xs ys : List α) :
    mergeFront lt xs ys = xs.merge ys fun a b => !lt b a := by
  fun_induction mergeFront lt xs ys with
  | case1 ys => simp
  | case2 xs _ => simp
  | case3 x xs y ys hyx ih => rw [ih, List.cons_merge_cons_neg _ _ _ (by simp [hyx])]
  | case4 x xs y ys hyx ih => rw [ih, List.cons_merge_cons_pos _ _ _ (by simpa using hyx)]

include hw

/-- Merging from the back, given the lists last first, onto `acc`. -/
theorem mergeBack_eq_merge {xs ys acc : List α}
    (hx : xs.reverse.Pairwise fun a b => lt b a = false)
    (hy : ys.reverse.Pairwise fun a b => lt b a = false) :
    mergeBack lt xs ys acc = (xs.reverse.merge ys.reverse fun a b => !lt b a) ++ acc := by
  fun_induction mergeBack lt xs ys acc with
  | case1 x xs y ys acc hyx ih =>
    -- `x` goes last: it is after every item left on the right
    rw [List.reverse_cons] at hx hy
    have hys := List.pairwise_append.1 hy
    rw [ih (List.pairwise_append.1 hx).1 (by rw [List.reverse_cons]; exact hy), List.reverse_cons,
      List.reverse_cons, merge_concat_left fun z hz => ?_]
    · simp
    · rcases List.mem_append.1 hz with hz | hz
      · exact Weak.lt_of_not_of_lt hw (hys.2.2 z hz y List.mem_cons_self) hyx
      · rw [List.mem_singleton.1 hz]
        exact hyx
  | case2 x xs y ys acc hyx ih =>
    -- `y` goes last: it is before none of the items left on the left
    rw [List.reverse_cons] at hx hy
    have hxs := List.pairwise_append.1 hx
    rw [ih (by rw [List.reverse_cons]; exact hx) (List.pairwise_append.1 hy).1, List.reverse_cons,
      List.reverse_cons, merge_concat_right fun a ha => ?_]
    · simp
    · rw [Bool.not_eq_true] at hyx
      rcases List.mem_append.1 ha with ha | ha
      · exact Weak.not_trans hw (hxs.2.2 a ha x List.mem_cons_self) hyx
      · rw [List.mem_singleton.1 ha]
        exact hyx
  | case3 xs ys acc hnot =>
    rcases xs with _ | ⟨x, xs⟩
    · simp
    · rcases ys with _ | ⟨y, ys⟩
      · simp
      · exact (hnot x xs y ys rfl rfl).elim

/-- Two sorted runs merged, from either end: the stable merge. -/
theorem mergeRuns_eq_merge {xs ys : List α} (hx : xs.Pairwise fun a b => lt b a = false)
    (hy : ys.Pairwise fun a b => lt b a = false) :
    mergeRuns lt xs ys = xs.merge ys fun a b => !lt b a := by
  unfold mergeRuns
  split
  · exact mergeFront_eq_merge xs ys
  · rw [mergeBack_eq_merge hw (by rwa [List.reverse_reverse]) (by rwa [List.reverse_reverse]),
      List.reverse_reverse, List.reverse_reverse, List.append_nil]

end Merges

/-! ## Partitions and pivots -/

section Partition

/-- The partition is the stable split along `goesLeft`, as long as the item at `pivot`, if
there is one, goes the side `pivotLeft` says. -/
theorem partition_eq {goesLeft : α → Bool} {pivot : Nat} {pivotLeft : Bool} {xs : List α}
    (h : ∀ x, xs[pivot]? = some x → goesLeft x = pivotLeft) :
    partition goesLeft pivot pivotLeft xs =
      (xs.filter goesLeft ++ xs.filter (fun x => !goesLeft x), (xs.filter goesLeft).length) := by
  -- every item is marked with the side it goes to
  have hmark : (xs.zipIdx.map fun (p : α × Nat) =>
      (p.1, if p.2 = pivot then pivotLeft else goesLeft p.1)) =
      xs.map fun x => (x, goesLeft x) := by
    conv_rhs => rw [← List.zipIdx_map_fst 0 xs, List.map_map]
    refine List.map_congr_left fun p hp => ?_
    rw [Function.comp_apply]
    split
    · next hi =>
      rw [h p.1 (by rw [← hi]; exact List.mem_zipIdx_iff_getElem?.1 hp)]
    · rfl
  simp only [partition, hmark, List.filter_map, List.map_map]
  simp [Function.comp_def]

variable [Inhabited α]

theorem median_mem (v : Array α) (a b c : Nat) :
    median lt v a b c = a ∨ median lt v a b c = b ∨ median lt v a b c = c := by
  unfold median
  dsimp only
  split
  · split
    · exact .inr (.inr rfl)
    · exact .inr (.inl rfl)
  · exact .inl rfl

/-- The median of samples of `n ≥ 1` items each lies in one of the samples. -/
theorem medianOf_lt (v : Array α) {a b c n bound : Nat} (hn : 0 < n) (ha : a + n ≤ bound)
    (hb : b + n ≤ bound) (hc : c + n ≤ bound) : medianOf lt v a b c n < bound := by
  fun_induction medianOf lt v a b c n with
  | case1 a b c n h8 m ih₁ ih₂ ih₃ =>
    -- each inner sample is an eighth as long and lies in its outer one
    have hm : 0 < m := by omega
    rcases median_mem v (medianOf lt v a (a + m * 4) (a + m * 7) m)
      (medianOf lt v b (b + m * 4) (b + m * 7) m)
      (medianOf lt v c (c + m * 4) (c + m * 7) m) with h | h | h <;> rw [h]
    · exact ih₁ hm (by omega) (by omega) (by omega)
    · exact ih₂ hm (by omega) (by omega) (by omega)
    · exact ih₃ hm (by omega) (by omega) (by omega)
  | case2 a b c n h8 =>
    rcases median_mem v a b c with h | h | h <;> rw [h] <;> omega

/-- The pivot of a list of at least eight is one of its items. -/
theorem pivotAt_lt {v : Array α} (h8 : 8 ≤ v.size) : pivotAt lt v < v.size := by
  unfold pivotAt
  split
  · rcases median_mem v 0 (v.size / 8 * 4) (v.size / 8 * 7) with h | h | h <;> rw [h] <;> omega
  · exact medianOf_lt v (by omega) (by omega) (by omega) (by omega)

end Partition

section Pivot
include hw
variable {pivot : α} {xs : List α}

/-- When no item is before the pivot, its ties go first, in their order, and the items after it
are sorted behind them. -/
theorem sortsTo_tied_first (hmin : ∀ x ∈ xs, lt x pivot = false) :
    SortsTo lt xs (xs.filter (fun x => !lt pivot x) ++
      (xs.filter fun x => lt pivot x).mergeSort fun a b => !lt b a) := by
  have htie : ∀ a ∈ xs.filter (fun x => !lt pivot x), ties lt a pivot = true := fun a ha =>
    ties_iff.2 ⟨hmin a (List.mem_filter.1 ha).1, by simpa using (List.mem_filter.1 ha).2⟩
  have hside : ∀ a b, ties lt a b = true → (!lt pivot a) = !lt pivot b := fun a b hab => by
    rw [Weak.lt_right_of_ties hw hab]
  refine SortsTo.split hside ?_
  simp only [Bool.not_not]
  refine SortsTo.append hw (SortsTo.of_sorted ?_) (sortsTo_mergeSort hw _) fun a ha b hb => ?_
  · refine List.pairwise_iff_forall_sublist.2 fun {a b} hab => ?_
    have hba := Weak.ties_trans hw (htie b (hab.subset (List.mem_cons_of_mem _ List.mem_cons_self)))
      (Weak.ties_comm (htie a (hab.subset List.mem_cons_self)))
    exact (ties_iff.1 hba).1
  · rw [Weak.lt_left_of_ties hw (htie a ha)]
    exact (List.mem_filter.1 hb).2

/-- The items before the pivot, sorted, then the others, sorted. -/
theorem sortsTo_around (pivot : α) (xs : List α) :
    SortsTo lt xs ((xs.filter fun x => lt x pivot).mergeSort (fun a b => !lt b a) ++
      (xs.filter fun x => !lt x pivot).mergeSort fun a b => !lt b a) := by
  have hside : ∀ a b, ties lt a b = true → lt a pivot = lt b pivot :=
    fun a b hab => Weak.lt_left_of_ties hw hab pivot
  refine SortsTo.split hside ?_
  refine SortsTo.append hw (sortsTo_mergeSort hw _) (sortsTo_mergeSort hw _) fun a ha b hb => ?_
  exact Weak.lt_of_lt_of_not hw (List.mem_filter.1 ha).2 (by simpa using (List.mem_filter.1 hb).2)

omit hw in
/-- A repeated pivot, one not after the pivot of the level above, has no item before it. -/
theorem repeated_least {anc : Option α} (hw : IsStrictWeakOrder α fun a b => lt a b = true)
    (h : (match anc with | some p => !lt p pivot | none => false) = true)
    (hanc : ∀ p, anc = some p → ∀ x ∈ xs, lt x p = false) :
    ∀ x ∈ xs, lt x pivot = false := by
  cases anc with
  | none => cases h
  | some p =>
    intro x hx
    exact Weak.not_trans hw (by simpa using h) (hanc p rfl x hx)

end Pivot

/-! ## Writing into the working array -/

theorem place_toList {v : Array α} {now mid rest c : List α} (hv : v.toList = now ++ mid ++ rest)
    (hc : c.length = mid.length) : (place v now.length c).toList = now ++ c ++ rest := by
  rw [place, hv, List.toList_toArray, List.drop_left' (by simp [hc]),
    List.append_assoc now mid rest, List.take_left' rfl]

/-! ## The run stack -/

/-- A run laid in the working list: `now` is what it holds and `orig` what stood there at first;
sorted stably from it if the run is marked sorted, and as it stood otherwise. -/
structure Run.Lays (lt : α → α → Bool) (r : Run) (now orig : List α) : Prop where
  len : now.length = r.len
  sorted : r.sorted = true → SortsTo lt orig now
  unsorted : r.sorted = false → now = orig

/-- Runs, top first, laid side by side from the start of the working list: `now` is what they
hold and `orig` what stood there at first. -/
inductive Laid (lt : α → α → Bool) : List Run → List α → List α → Prop
  | nil : Laid lt [] [] []
  | cons {rs : List Run} {now orig : List α} {r : Run} {c o : List α} :
      Laid lt rs now orig → r.Lays lt c o → Laid lt (r :: rs) (now ++ c) (orig ++ o)

/-- The state of the loop of sorting by runs over `v₀`: the runs `prev` and those on `stack`, top
first, lie from the start of the working array up to `scan`, past which it is `v₀` still; the
run at the bottom of the stack is empty, and every run is sorted in eager mode. -/
structure RunState (lt : α → α → Bool) (plan : RunPlan) (v₀ : List α) (v : Array α)
    (scan : Nat) (prev : Run) (stack : List (Run × Nat)) : Prop where
  scan_le : scan ≤ v₀.length
  laid : ∃ now, Laid lt (prev :: stack.map Prod.fst) now (v₀.take scan) ∧
    v.toList = now ++ v₀.drop scan
  bottom : ∀ p ∈ stack.getLast?, p.1.len = 0
  start : stack = [] → scan = 0
  eager : plan.eager = true → ∀ r ∈ prev :: stack.map Prod.fst, r.sorted = true

/-- Fuel enough for quicksort on `m` items: a level for each item at most, and sorting by runs
under the last. -/
def quickNeed (m : Nat) : Nat := 3 * m + 6

/-- Fuel enough for the merges of a run stack of `s` runs over `m` items: a unit a merge, and
quicksort's need under each unless every run is sorted. -/
def collapseNeed (eager : Bool) (m s : Nat) : Nat := s + if eager then 0 else quickNeed m

/-- Fuel enough for the loop of sorting by runs over `n` items, scanned up to `scan`, with `s`
runs on the stack: each round scans at least one item and pushes at most one run. -/
def runsNeed (eager : Bool) (n scan s : Nat) : Nat :=
  2 * (n - scan) + s + 3 + if eager then 0 else quickNeed n

theorem collapseNeed_le {eager : Bool} {m n scan s fuel : Nat} (hm : m ≤ n)
    (h : runsNeed eager n scan s ≤ fuel + 1) : collapseNeed eager m s ≤ fuel := by
  unfold collapseNeed runsNeed quickNeed at *
  cases eager <;> simp only [Bool.false_eq_true, if_true, if_false] at h ⊢ <;> omega

theorem runsNeed_next {eager : Bool} {n scan s s' L fuel : Nat} (hL : 0 < L) (hs : s' ≤ s)
    (hscan : scan + L ≤ n) (h : runsNeed eager n scan s ≤ fuel + 1) :
    runsNeed eager n (scan + L) (s' + 1) ≤ fuel := by
  unfold runsNeed at *
  omega

theorem quickNeed_mono {m n : Nat} (h : m ≤ n) : quickNeed m ≤ quickNeed n := by
  unfold quickNeed
  omega

section Laid

variable {r : Run} {rs : List Run} {now orig c o : List α}

theorem Laid.cons_inv (h : Laid lt (r :: rs) now orig) :
    ∃ now₁ orig₁ c o, now = now₁ ++ c ∧ orig = orig₁ ++ o ∧
      Laid lt rs now₁ orig₁ ∧ r.Lays lt c o := by
  cases h with
  | cons h hr => exact ⟨_, _, _, _, rfl, rfl, h, hr⟩

include hw

theorem Run.Lays.length_eq (h : r.Lays lt c o) : c.length = o.length := by
  cases hs : r.sorted
  · rw [h.unsorted hs]
  · exact (h.sorted hs).length_eq hw

/-- What a sorted run holds is the merge sort of what stood there. -/
theorem Run.Lays.eq_mergeSort (h : r.Lays lt c o) (hs : r.sorted = true) :
    c = o.mergeSort fun a b => !lt b a :=
  (h.sorted hs).eq_mergeSort hw

omit hw in
/-- Two unsorted runs side by side are one unsorted run. -/
theorem Run.Lays.join {l : Run} {cl ol : List α} (hl : l.Lays lt cl ol) (h : r.Lays lt c o)
    (hls : l.sorted = false) (hs : r.sorted = false) :
    Run.Lays lt ⟨l.len + r.len, false⟩ (cl ++ c) (ol ++ o) :=
  ⟨by simp [hl.len, h.len], (fun h => by cases h), fun _ => by
    rw [hl.unsorted hls, h.unsorted hs]⟩

/-- Two runs, each sorted stably and then merged, are one sorted run over both. -/
theorem Run.Lays.merged {l : Run} {cl ol : List α} (hl : l.Lays lt cl ol) (h : r.Lays lt c o) :
    Run.Lays lt ⟨l.len + r.len, true⟩
      (mergeRuns lt (ol.mergeSort fun a b => !lt b a) (o.mergeSort fun a b => !lt b a))
      (ol ++ o) := by
  have hsorts := (sortsTo_mergeSort hw ol).merge hw (sortsTo_mergeSort hw o)
  rw [← mergeRuns_eq_merge hw (sortsTo_mergeSort hw ol).sorted (sortsTo_mergeSort hw o).sorted]
    at hsorts
  refine ⟨?_, fun _ => hsorts, fun h => by cases h⟩
  rw [hsorts.length_eq hw, List.length_append, ← hl.length_eq hw, ← h.length_eq hw, hl.len,
    h.len]

theorem Laid.length_eq (h : Laid lt rs now orig) : now.length = orig.length := by
  induction h with
  | nil => rfl
  | cons _ hr ih => simp [ih, hr.length_eq hw]

/-- Runs of no length hold nothing. -/
theorem Laid.nil_of_len_zero (h : Laid lt rs now orig) (hz : ∀ r ∈ rs, r.len = 0) :
    now = [] ∧ orig = [] := by
  induction h with
  | nil => exact ⟨rfl, rfl⟩
  | cons _ hr ih =>
    obtain ⟨rfl, rfl⟩ := ih fun r h => hz r (List.mem_cons_of_mem _ h)
    have hc := List.length_eq_zero_iff.1 (hr.len.trans (hz _ List.mem_cons_self))
    subst hc
    have ho := List.length_eq_zero_iff.1 (hr.length_eq hw).symm
    simp [ho]

/-- Over runs of no length, the top run holds everything. -/
theorem Laid.top (h : Laid lt (r :: rs) now orig) (hz : ∀ r ∈ rs, r.len = 0) :
    r.Lays lt now orig := by
  obtain ⟨now₁, orig₁, c, o, rfl, rfl, hrs, hr⟩ := h.cons_inv
  obtain ⟨rfl, rfl⟩ := hrs.nil_of_len_zero hw hz
  simpa using hr

end Laid

/-! ## Quicksort -/

section Quick

variable [Inhabited α]

/-- Quicksort on a short list is the small sort. -/
theorem quicksort_small {space fuel limit : Nat} {anc : Option α} {xs : List α}
    (h : xs.length ≤ smallLimit) :
    quicksort lt space (fuel + 1) xs limit anc = smallSort lt xs := by
  rw [quicksort, if_pos h]

end Quick

/-! ## The next run -/

section Next
variable [Inhabited α]
include hw

/-- The next run, at least one item long and sorted in eager mode, laid over the items it starts
at; with fuel for a small sort. -/
theorem nextRun_lays (plan : RunPlan) (fuel : Nat) {v : Array α} {now rest : List α}
    (hv : v.toList = now ++ rest) (hrest : rest ≠ []) :
    ∃ v' next c, nextRun lt plan (fuel + 2) v now.length = some (v', next) ∧ 0 < next.len ∧
      next.len ≤ rest.length ∧ next.Lays lt c (rest.take next.len) ∧
      v'.toList = now ++ c ++ rest.drop next.len ∧
      (plan.eager = true → next.sorted = true) := by
  have hdrop : v.toList.drop now.length = rest := by rw [hv, List.drop_left' rfl]
  have hsplit : ∀ L, v.toList = now ++ rest.take L ++ rest.drop L := fun L => by
    rw [hv, List.append_assoc, List.take_append_drop]
  have hlen : 0 < rest.length := List.length_pos_iff.2 hrest
  rw [nextRun]
  simp only [hdrop]
  generalize hf : (if rest.length ≥ plan.goodRun then frontRun lt rest else (0, false)) = found
  by_cases hgood : found.1 ≥ plan.goodRun
  · -- a run found in order, long enough: turned round if it descends
    have hfound : found = frontRun lt rest := by
      rw [← hf]
      split
      · rfl
      · next hshort =>
        rw [← hf, if_neg hshort] at hgood
        exact absurd (Nat.le_zero.1 hgood) (by omega)
    rw [if_pos hgood]
    have hL : (frontRun lt rest).1 ≤ rest.length := frontRun_le rest
    refine ⟨_, ⟨found.1, true⟩,
      if found.2 then (rest.take found.1).reverse else rest.take found.1, rfl,
      hfound ▸ frontRun_pos hrest, hfound ▸ hL,
      ⟨?_, fun _ => hfound ▸ frontRun_sortsTo hw rest, fun h => by cases h⟩, ?_,
      fun _ => rfl⟩
    · split <;> simp [hfound, hL]
    · split
      · exact place_toList (hsplit found.1) (by simp)
      · exact hsplit found.1
  · rw [if_neg hgood]
    by_cases heager : plan.eager = true
    · -- the next items, sorted at once
      have hsmall : (rest.take (min smallLimit rest.length)).length ≤ smallLimit := by
        simp only [List.length_take]
        omega
      rw [if_pos heager, quicksort_small hsmall, smallSort_eq_mergeSort hw]
      refine ⟨_, ⟨min smallLimit rest.length, true⟩,
        (rest.take (min smallLimit rest.length)).mergeSort fun a b => !lt b a, rfl, ?_,
        Nat.min_le_right _ _,
        ⟨by simp, fun _ => sortsTo_mergeSort hw _, fun h => by cases h⟩, ?_, fun _ => rfl⟩
      · show 0 < min smallLimit rest.length
        unfold smallLimit
        omega
      · exact place_toList (hsplit _) (by simp)
    · -- the next items, left unsorted
      rw [if_neg heager]
      have hgood' : 0 < plan.goodRun := by omega
      refine ⟨v, ⟨min plan.goodRun rest.length, false⟩,
        rest.take (min plan.goodRun rest.length), rfl, ?_, Nat.min_le_right _ _,
        ⟨by simp, (fun h => by cases h), fun _ => rfl⟩,
        hsplit _, fun h => absurd h heager⟩
      show 0 < min plan.goodRun rest.length
      omega

end Next

/-! ## The steps, by induction on the fuel -/

/-- What the merges of the run stack leave over `orig`, before `tail`: the runs still laid over
the same items and all sorted in eager mode, no more of them, the same one at the bottom, and
at most one when every merge was asked for. -/
structure Collapsed (lt : α → α → Bool) (plan : RunPlan) (orig tail : List α)
    (stack : List (Run × Nat)) (depth : Nat) (v : Array α) (prev : Run)
    (stack' : List (Run × Nat)) : Prop where
  laid : ∃ now, Laid lt (prev :: stack'.map Prod.fst) now orig ∧ v.toList = now ++ tail
  eager : plan.eager = true → ∀ r ∈ prev :: stack'.map Prod.fst, r.sorted = true
  shorter : stack'.length ≤ stack.length
  bottom : stack'.getLast? = stack.getLast?
  full : depth = 0 → stack'.length ≤ 1

/-- Popping a run off the top of a longer stack changes nothing of what the merges leave. -/
theorem Collapsed.pop {plan : RunPlan} {orig tail : List α} {x b : Run × Nat}
    {below : List (Run × Nat)}
    {depth : Nat} {v : Array α} {prev : Run} {stack' : List (Run × Nat)}
    (h : Collapsed lt plan orig tail (b :: below) depth v prev stack') :
    Collapsed lt plan orig tail (x :: b :: below) depth v prev stack' :=
  ⟨h.laid, h.eager, by have := h.shorter; simp only [List.length_cons] at this ⊢; omega,
    by rw [h.bottom, List.getLast?_cons_cons], h.full⟩

section Loop

variable {plan : RunPlan} {v₀ : List α} {v v' : Array α} {scan : Nat} {prev prev' : Run}
  {stack stack' : List (Run × Nat)}
include hw

/-- The next run, pushed after the merges it asked for, keeps the state of the loop. -/
theorem RunState.push {next : Run} {c : List α} {depth : Nat}
    (hs : RunState lt plan v₀ v scan prev stack)
    (hcol : Collapsed lt plan (v₀.take scan) (c ++ (v₀.drop scan).drop next.len) stack depth v'
      prev' stack')
    (hle : scan + next.len ≤ v₀.length) (hnext : next.Lays lt c ((v₀.drop scan).take next.len))
    (heager : plan.eager = true → next.sorted = true) :
    RunState lt plan v₀ v' (scan + next.len) next ((prev', depth) :: stack') := by
  obtain ⟨now', hlaid', hv'⟩ := hcol.laid
  refine ⟨hle, ⟨now' ++ c, ?_, ?_⟩, ?_, (fun h => by cases h), ?_⟩
  · rw [List.take_add]
    exact .cons hlaid' hnext
  · rw [hv', List.drop_drop, List.append_assoc]
  · intro p hp
    rcases stack' with _ | ⟨x, rest⟩
    · -- nothing is left below, so the stack was empty and the run before starts the list
      have hstack : stack = [] := by simpa using hcol.bottom.symm
      have htop := hlaid'.top hw (fun r hr => by cases hr)
      simp only [List.getLast?_singleton, Option.mem_def, Option.some.injEq] at hp
      rw [← hp, ← htop.len, hlaid'.length_eq hw, hs.start hstack]
      simp
    · rw [List.getLast?_cons_cons, hcol.bottom] at hp
      exact hs.bottom p hp
  · intro he r hr
    rcases List.mem_cons.1 hr with rfl | hr
    · exact heager he
    · exact hcol.eager he r hr

/-- Once the whole list is scanned and every merge is made, the top run holds it all. -/
theorem RunState.finish (hs : RunState lt plan v₀ v scan prev stack) (hscan : scan = v₀.length)
    (hcol : Collapsed lt plan (v₀.take scan) [] stack 0 v' prev' stack') :
    prev'.Lays lt v'.toList v₀ := by
  obtain ⟨now', hlaid', hv'⟩ := hcol.laid
  -- below the top run at most one is left, the empty one at the bottom
  have hbelow : ∀ r ∈ stack'.map Prod.fst, r.len = 0 := by
    intro r hr
    obtain ⟨p, hp, rfl⟩ := List.mem_map.1 hr
    have hlen := hcol.full rfl
    rcases stack' with _ | ⟨x, _ | ⟨y, rest⟩⟩
    · cases hp
    · apply hs.bottom
      rw [← hcol.bottom, List.mem_singleton.1 hp]
      rfl
    · simp at hlen
  have htop := hlaid'.top hw hbelow
  rw [hscan, List.take_length] at htop
  rwa [hv', List.append_nil]

end Loop

variable [Inhabited α]

/-- The steps that share `fuel` sort when it is enough: quicksort and sorting by runs give the
merge sort's answer, and the merges of the run stack keep it laid, down to one run when asked
for every merge. -/
structure StepsSort (lt : α → α → Bool) (fuel : Nat) : Prop where
  quicksort : ∀ space xs limit anc, quickNeed xs.length ≤ fuel →
    (∀ p, anc = some p → ∀ x ∈ xs, lt x p = false) →
    quicksort lt space fuel xs limit anc = some (xs.mergeSort fun a b => !lt b a)
  byRuns : ∀ space eager xs, runsNeed eager xs.length 0 0 + 1 ≤ fuel →
    byRuns lt space fuel eager xs = some (xs.mergeSort fun a b => !lt b a)
  runsFrom : ∀ plan v₀ v scan prev stack, RunState lt plan v₀ v scan prev stack →
    runsNeed plan.eager v₀.length scan stack.length ≤ fuel →
    runsFrom lt plan fuel v scan prev stack = some (v₀.mergeSort fun a b => !lt b a)
  collapse : ∀ plan v scan prev stack depth now orig tail,
    Laid lt (prev :: stack.map Prod.fst) now orig → now.length = scan →
    v.toList = now ++ tail → collapseNeed plan.eager orig.length stack.length ≤ fuel →
    (plan.eager = true → ∀ r ∈ prev :: stack.map Prod.fst, r.sorted = true) →
    ∃ v' prev' stack',
      collapse lt plan fuel v scan prev stack depth = some (v', prev', stack') ∧
      Collapsed lt plan orig tail stack depth v' prev' stack'

section Succ
variable {fuel : Nat} (ih : StepsSort lt fuel)
include hw ih

theorem quicksort_succ (space : Nat) (xs : List α) (limit : Nat) (anc : Option α)
    (hneed : quickNeed xs.length ≤ fuel + 1)
    (hanc : ∀ p, anc = some p → ∀ x ∈ xs, lt x p = false) :
    quicksort lt space (fuel + 1) xs limit anc = some (xs.mergeSort fun a b => !lt b a) := by
  rw [quicksort]
  by_cases hsmall : xs.length ≤ smallLimit
  · rw [if_pos hsmall]
    exact smallSort_eq_mergeSort hw xs
  rw [if_neg hsmall]
  by_cases hlim : limit = 0
  · rw [if_pos hlim]
    exact ih.byRuns space true xs (by simp [runsNeed, quickNeed] at hneed ⊢; omega)
  rw [if_neg hlim]
  extract_lets v pos pivot repeated
  -- the pivot is an item of the list
  have hpos : pos < xs.length := pivotAt_lt (by
    simp only [v, List.size_toArray]
    unfold smallLimit at hsmall
    omega)
  have hpiv : xs[pos]? = some pivot := by simp [pivot, v, hpos]
  have hmem : pivot ∈ xs := List.mem_of_getElem? hpiv
  have hat : ∀ x, xs[pos]? = some x → pivot = x := fun x hx =>
    Option.some.inj (hpiv.symm.trans hx)
  have hfuel : ∀ ys : List α, ys.length < xs.length → quickNeed ys.length ≤ fuel := by
    intro ys hys
    simp only [quickNeed] at hneed ⊢
    omega
  -- the second partition puts the ties of the pivot first
  have hties : partition (fun x => !lt pivot x) pos true xs =
      (xs.filter (fun x => !lt pivot x) ++ xs.filter (fun x => !!lt pivot x),
        (xs.filter fun x => !lt pivot x).length) :=
    partition_eq fun x hx => by simp [← hat x hx, Weak.irrefl hw]
  -- with no item before the pivot, its ties go first and the rest is sorted
  have least : (∀ x ∈ xs, lt x pivot = false) →
      (fun x => xs.filter (fun x => !lt pivot x) ++ x) <$>
          quicksort lt space fuel (xs.filter fun x => !!lt pivot x) (limit - 1) none =
        some (xs.mergeSort fun a b => !lt b a) := by
    intro hmin
    have hshort : (xs.filter fun x => !!lt pivot x).length < xs.length :=
      List.length_filter_lt_length_iff_exists.2 ⟨pivot, hmem, by simp [Weak.irrefl hw]⟩
    rw [ih.quicksort _ _ _ _ (hfuel _ hshort) (fun p hp => by cases hp),
      ← (sortsTo_tied_first hw hmin).eq_mergeSort hw]
    simp
  by_cases hrep : repeated = true
  · -- a repeated pivot: it has no item before it
    rw [if_pos hrep]
    dsimp only
    rw [if_pos (Or.inl hrep), hties]
    dsimp only
    rw [List.take_left' rfl, List.drop_left' rfl]
    exact least (repeated_least hw hrep hanc)
  rw [if_neg hrep, partition_eq fun x hx => by rw [← hat x hx]; exact Weak.irrefl hw pivot]
  dsimp only
  by_cases hleft : (xs.filter fun x => lt x pivot).length = 0
  · -- no item before the pivot
    have hnone := List.filter_eq_nil_iff.1 (List.length_eq_zero_iff.1 hleft)
    have hmin : ∀ x ∈ xs, lt x pivot = false := fun x hx => by simpa using hnone x hx
    rw [if_pos (Or.inr hleft), List.length_eq_zero_iff.1 hleft, List.nil_append,
      List.filter_eq_self.2 fun x hx => by simp [hmin x hx], hties]
    dsimp only
    rw [List.take_left' rfl, List.drop_left' rfl]
    exact least hmin
  · -- the items before the pivot and the others, each sorted, side by side
    rw [if_neg (by simp [hrep, hleft])]
    have hright : (xs.filter fun x => !lt x pivot).length < xs.length := by
      obtain ⟨x, hx⟩ := List.exists_mem_of_length_pos (Nat.pos_of_ne_zero hleft)
      exact List.length_filter_lt_length_iff_exists.2
        ⟨x, (List.mem_filter.1 hx).1, by simpa using (List.mem_filter.1 hx).2⟩
    have hleft' : (xs.filter fun x => lt x pivot).length < xs.length :=
      List.length_filter_lt_length_iff_exists.2 ⟨pivot, hmem, by simp [Weak.irrefl hw]⟩
    rw [List.drop_left' rfl, List.take_left' rfl,
      ih.quicksort _ _ _ _ (hfuel _ hright) (fun p hp x hx => by
        cases hp
        simpa using (List.mem_filter.1 hx).2),
      ih.quicksort _ _ _ _ (hfuel _ hleft') (fun p hp x hx => hanc p hp x (List.mem_filter.1 hx).1),
      ← (sortsTo_around hw pivot xs).eq_mergeSort hw]
    rfl

/-- A run that is not marked sorted is sorted by quicksort, given the fuel: either way its items
in the stable order. -/
theorem sortRun_eq (space : Nat) {r : Run} {c o : List α} (hr : r.Lays lt c o)
    (hneed : r.sorted = false → quickNeed c.length ≤ fuel) :
    (if r.sorted then pure c else quicksort lt space fuel c (levels c.length) none :
      Option (List α)) = some (o.mergeSort fun a b => !lt b a) := by
  cases hs : r.sorted
  · rw [if_neg (by simp), ← hr.unsorted hs]
    exact ih.quicksort _ _ _ _ (hneed hs) (fun p hp => by cases hp)
  · rw [if_pos rfl, hr.eq_mergeSort hw hs]
    rfl

theorem collapse_succ (plan : RunPlan) (v : Array α) (scan : Nat) (prev : Run)
    (stack : List (Run × Nat)) (depth : Nat) (now orig tail : List α)
    (hlaid : Laid lt (prev :: stack.map Prod.fst) now orig) (hscan : now.length = scan)
    (hv : v.toList = now ++ tail)
    (hneed : collapseNeed plan.eager orig.length stack.length ≤ fuel + 1)
    (heager : plan.eager = true → ∀ r ∈ prev :: stack.map Prod.fst, r.sorted = true) :
    ∃ v' prev' stack',
      collapse lt plan (fuel + 1) v scan prev stack depth = some (v', prev', stack') ∧
      Collapsed lt plan orig tail stack depth v' prev' stack' := by
  -- where no merge is made, the state is left as it is
  have stay : stack.length ≤ 1 ∨ ¬ depth = 0 →
      Collapsed lt plan orig tail stack depth v prev stack := fun h =>
    ⟨⟨now, hlaid, hv⟩, heager, Nat.le_refl _, rfl, fun h0 => h.resolve_right (not_not.2 h0)⟩
  rcases stack with _ | ⟨⟨left, d⟩, _ | ⟨b, below⟩⟩
  · exact ⟨v, prev, [], by rw [collapse]; simp, stay (.inl (by simp))⟩
  · exact ⟨v, prev, _, by rw [collapse]; simp, stay (.inl (by simp))⟩
  rw [collapse]
  dsimp only
  by_cases hd : d ≥ depth
  swap
  · exact ⟨v, prev, _, by rw [if_neg hd], stay (.inr fun h => hd (by omega))⟩
  rw [if_pos hd]
  -- the two runs on top and what lies below them
  obtain ⟨now₁, orig₁, cp, op, rfl, rfl, hlaid₁, hprev⟩ := hlaid.cons_inv
  obtain ⟨nowB, origB, cl, ol, rfl, rfl, hbelow, hleft⟩ := hlaid₁.cons_inv
  have hcl : cl.length = left.len := hleft.len
  have hcp : cp.length = prev.len := hprev.len
  have hstart : scan - (left.len + prev.len) = nowB.length := by
    simp only [List.length_append] at hscan
    omega
  have hv' : v.toList = nowB ++ (cl ++ cp) ++ tail := by rw [hv, List.append_assoc nowB]
  have hlen : (nowB ++ cl ++ cp).length = (origB ++ ol ++ op).length := (hlaid.length_eq hw)
  have hneed' :
      collapseNeed plan.eager (origB ++ ol ++ op).length ((b :: below).length) ≤ fuel := by
    simp only [collapseNeed, List.length_cons] at hneed ⊢
    omega
  by_cases hshort :
      left.len + prev.len ≤ plan.space ∧ (!left.sorted) = true ∧ (!prev.sorted) = true
  · -- two unsorted runs that fit: joined without work
    rw [if_pos hshort]
    simp only [Bool.not_eq_true'] at hshort
    obtain ⟨v', prev', stack', hrun, hcol⟩ := ih.collapse plan v scan _ (b :: below) depth
      (nowB ++ (cl ++ cp)) (origB ++ (ol ++ op)) tail
      (.cons hbelow (hleft.join hprev hshort.2.1 hshort.2.2))
      (by simpa [List.append_assoc] using hscan) hv' (by simpa [List.append_assoc] using hneed')
      (fun he => absurd (heager he left (by simp)) (by simp [hshort.2.1]))
    rw [← List.append_assoc origB] at hcol
    exact ⟨v', prev', stack', hrun, hcol.pop⟩
  · -- otherwise each run is sorted if it is not yet, and the two merged in place
    rw [if_neg hshort]
    have hpart :
        (v.toList.drop (scan - (left.len + prev.len))).take (left.len + prev.len) = cl ++ cp := by
      rw [hstart, hv', List.append_assoc, List.drop_left' rfl, List.take_left' (by simp [hcl, hcp])]
    -- quicksort is called only in lazy mode, with the fuel the need leaves it
    have hlazy : ∀ {r : Run}, r ∈ prev :: List.map Prod.fst ((left, d) :: b :: below) →
        r.sorted = false → quickNeed (origB ++ ol ++ op).length ≤ fuel := by
      intro r hr hs
      cases he : plan.eager
      · simp only [collapseNeed, he, Bool.false_eq_true, if_false, List.length_cons] at hneed
        omega
      · exact absurd (heager he r hr) (by simp [hs])
    have hshorter : cl.length ≤ (origB ++ ol ++ op).length ∧
        cp.length ≤ (origB ++ ol ++ op).length := by
      rw [← hlen, List.length_append, List.length_append]
      omega
    have hl := sortRun_eq hw ih plan.space hleft fun hs =>
      Nat.le_trans (quickNeed_mono hshorter.1) (hlazy (by simp) hs)
    have hp := sortRun_eq hw ih plan.space hprev fun hs =>
      Nat.le_trans (quickNeed_mono hshorter.2) (hlazy (by simp) hs)
    have hmerged := hleft.merged hw hprev
    obtain ⟨v', prev', stack', hrun, hcol⟩ := ih.collapse plan _ scan _ (b :: below) depth
      (nowB ++ _) (origB ++ (ol ++ op)) tail (.cons hbelow hmerged)
      (by rw [List.length_append, hmerged.len, ← hscan]; simp [hcl, hcp])
      (place_toList hv' (by rw [hmerged.len]; simp [hcl, hcp]))
      (by simpa [List.append_assoc] using hneed')
      (fun he r hr => by
        rcases List.mem_cons.1 hr with rfl | hr
        · rfl
        · exact heager he r (by simp at hr ⊢; tauto))
    rw [← List.append_assoc origB] at hcol
    refine ⟨v', prev', stack', ?_, hcol.pop⟩
    rw [← hrun, hpart, List.take_left' hcl, List.drop_left' hcl, hstart]
    dsimp only at hl
    cases hls : left.sorted <;> cases hps : prev.sorted <;>
      simp only [hls, hps, if_true, Bool.false_eq_true, if_false, Option.pure_def,
        Option.some.injEq] at hl hp ⊢ <;>
      rw [hl, hp] <;> rfl

theorem runsFrom_succ (plan : RunPlan) (v₀ : List α) (v : Array α) (scan : Nat) (prev : Run)
    (stack : List (Run × Nat)) (hs : RunState lt plan v₀ v scan prev stack)
    (hneed : runsNeed plan.eager v₀.length scan stack.length ≤ fuel + 1) :
    runsFrom lt plan (fuel + 1) v scan prev stack = some (v₀.mergeSort fun a b => !lt b a) := by
  obtain ⟨now, hlaid, hv⟩ := hs.laid
  have hnow : now.length = scan := by
    rw [hlaid.length_eq hw, List.length_take]
    exact Nat.min_eq_left hs.scan_le
  have hsize : v.size = v₀.length := by
    rw [← Array.length_toList, hv, List.length_append, hnow, List.length_drop]
    have := hs.scan_le
    omega
  rw [runsFrom]
  by_cases hmore : scan < v.size
  · -- one more run, pushed after the merges it asks for
    simp only [if_pos hmore]
    obtain ⟨f, rfl⟩ : ∃ f, fuel = f + 2 := ⟨fuel - 2, by
      simp only [runsNeed] at hneed
      omega⟩
    have hrest : v₀.drop scan ≠ [] := by
      rw [← List.length_pos_iff, List.length_drop]
      omega
    obtain ⟨v', next, c, hnext, hpos, hle, hnextLays, hv', heager'⟩ :=
      nextRun_lays hw plan f hv hrest
    rw [hnow] at hnext
    obtain ⟨v'', prev', stack', hrun, hcol⟩ := ih.collapse plan v' scan prev stack
      (boundaryDepth plan.scale (scan - prev.len) scan (scan + next.len)) now (v₀.take scan)
      (c ++ (v₀.drop scan).drop next.len) hlaid hnow (by rw [hv', List.append_assoc])
      (collapseNeed_le (List.length_take_le' _ _) hneed)
      hs.eager
    simp only [hnext, hrun, Option.pure_def, Option.bind_eq_bind, Option.bind_some]
    simp only [List.length_drop] at hle
    exact ih.runsFrom plan v₀ _ _ next _ (hs.push hw hcol (by omega) hnextLays heager')
      (runsNeed_next hpos hcol.shorter (by omega) hneed)
  · -- the last merges leave one run over everything
    simp only [if_neg hmore]
    have hscan : scan = v₀.length := by
      have := hs.scan_le
      omega
    obtain ⟨v', prev', stack', hrun, hcol⟩ :=
      ih.collapse plan v scan prev stack 0 now (v₀.take scan) [] hlaid hnow (by simp [hv, hscan])
      (collapseNeed_le (List.length_take_le' _ _) hneed)
      hs.eager
    simp only [hrun, Option.pure_def, Option.bind_eq_bind, Option.bind_some]
    have htop := hs.finish hw hscan hcol
    cases hsorted : prev'.sorted
    · -- in lazy mode the run may be unsorted: quicksort has the fuel for it
      have he : plan.eager = false := by
        cases he : plan.eager
        · rfl
        · exact absurd (hcol.eager he prev' List.mem_cons_self) (by simp [hsorted])
      rw [if_neg (by simp), htop.unsorted hsorted]
      refine ih.quicksort _ _ _ _ ?_ (fun p hp => by cases hp)
      simp only [runsNeed, he, Bool.false_eq_true, if_false] at hneed
      omega
    · rw [if_pos rfl, htop.eq_mergeSort hw hsorted]

omit hw in
theorem byRuns_succ (space : Nat) (eager : Bool) (xs : List α)
    (hneed : runsNeed eager xs.length 0 0 + 1 ≤ fuel + 1) :
    byRuns lt space (fuel + 1) eager xs = some (xs.mergeSort fun a b => !lt b a) := by
  rw [byRuns]
  dsimp only
  split
  · -- fewer than two items are in order already
    next hshort =>
    have hpair : xs.Pairwise fun a b => (!lt b a) = true := by
      rcases xs with _ | ⟨a, _ | ⟨b, rest⟩⟩
      · exact .nil
      · exact List.pairwise_singleton _ a
      · simp only [List.length_cons] at hshort
        omega
    rw [List.mergeSort_of_pairwise hpair]
  · -- the loop starts on an empty run at the bottom of an empty stack
    have hstart : Run.Lays lt ⟨0, true⟩ [] [] :=
      ⟨rfl, fun _ => SortsTo.of_sorted .nil, fun h => by cases h⟩
    refine ih.runsFrom _ xs _ 0 ⟨0, true⟩ []
      ⟨Nat.zero_le _, ⟨[], .cons .nil hstart, by simp⟩, (fun p hp => by cases hp),
        (fun _ => rfl), fun _ r hr => by rw [List.mem_singleton.1 hr]⟩
      (by simpa using hneed)

theorem StepsSort.succ : StepsSort lt (fuel + 1) :=
  ⟨quicksort_succ hw ih, byRuns_succ ih, runsFrom_succ hw ih, collapse_succ hw ih⟩

end Succ

omit hw in
/-- With no fuel no step is asked for, but the merges, which leave the stack as it is. -/
theorem stepsSort_zero : StepsSort lt 0 where
  quicksort _ _ _ _ h := absurd h (by simp [quickNeed])
  byRuns _ _ _ h := absurd h (by simp)
  runsFrom _ _ _ _ _ _ _ h := absurd h (by simp [runsNeed])
  collapse plan v scan prev stack depth now orig tail hlaid hscan hv hneed heager := by
    have hnil : stack = [] := List.length_eq_zero_iff.1 (by
      simp only [collapseNeed] at hneed
      omega)
    refine ⟨v, prev, stack, by rw [collapse],
      ⟨⟨now, hlaid, hv⟩, heager, Nat.le_refl _, rfl, fun _ => ?_⟩⟩
    simp [hnil]

include hw

theorem stepsSort (fuel : Nat) : StepsSort lt fuel := by
  induction fuel with
  | zero => exact stepsSort_zero
  | succ fuel ih => exact ih.succ hw

/-- For a strict weak order, the sort never refuses and gives the stable order, the merge
sort's answer. -/
theorem sort_eq_mergeSort (xs : List α) : sort lt xs = some (xs.mergeSort fun a b => !lt b a) := by
  rw [sort]
  dsimp only
  split
  · rw [(sortsTo_insertionSort hw xs).eq_mergeSort hw]
  · -- the fuel, `4 (n + 8)²`, is far above what sorting by runs needs
    apply (stepsSort hw _).byRuns
    have h8 : 4 * (xs.length + 8) * 8 ≤ 4 * (xs.length + 8) * (xs.length + 8) :=
      Nat.mul_le_mul_left _ (by omega)
    unfold runsNeed quickNeed
    split <;> omega


end Reactivity.Sorting
