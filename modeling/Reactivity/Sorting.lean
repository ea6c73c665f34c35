/-!
# Stable sorting under any comparison

`Sorting.sort lt xs` sorts a list by a strict comparison `lt`, keeping equal elements in the
order they came. When `lt` is a strict weak order the result is the one stable sorted order.
A comparison that is not one (numbers with a NaN among them) still gives a definite result,
fixed by the exact steps below, or `none`: the merge at the end of every small sort checks
that it has used each half up exactly, and a comparison that tricks it into taking too much
of one half is refused.

The steps:

* a list of at most twenty elements is sorted by insertion;
* a longer one is cut from the left into runs. A run is a stretch that is already in order
  (or strictly against it, and then turned round) if it is long enough; otherwise, for lists
  of at most 64 elements, the next 32 elements (or fewer at the end) sorted by a small sort,
  and for longer lists an unsorted stretch;
* neighbouring runs are merged along a merge tree of nearly balanced depth: the depth of
  the boundary between two runs is the number of leading equal bits of their midpoints
  scaled to 62 bits. Two unsorted runs that fit in the working space merge without work;
  otherwise each unsorted run is sorted by quicksort first;
* quicksort picks its pivot as a median of three samples (recursively for 64 elements or
  more), partitions stably, puts the elements equal to a repeated pivot aside, and gives up
  after about twice the logarithm of the length of levels, sorting by runs instead;
* a small sort of up to 32 elements sorts each half by insertion, after a network of five
  comparisons on its first four if the list has at least eight, and then merges the halves
  from both ends at once.

The working space is that of elements of 24 bytes: a buffer of 4096 bytes, or more if the
list needs it.
-/

namespace Reactivity.Sorting

variable {α : Type} [Inhabited α]

/-! ### Insertion -/

/-- Inserts `x` into sorted elements given last first, passing every element it precedes. -/
def insertBack (lt : α → α → Bool) (x : α) : List α → List α
  | [] => [x]
  | y :: ys => if lt x y then y :: insertBack lt x ys else x :: y :: ys

/-- Inserts each of `xs` in turn into `sorted`, from the back. -/
def insertAll (lt : α → α → Bool) (sorted xs : List α) : List α :=
  (xs.foldl (fun acc x => insertBack lt x acc) sorted.reverse).reverse

/-- Sorts by inserting each element in turn into the elements sorted so far. -/
def insertionSort (lt : α → α → Bool) (xs : List α) : List α :=
  insertAll lt [] xs

/-! ### The small sort -/

/-- Sorts four elements stably with five comparisons: two pairs, their minimum and maximum,
then the two left in the middle. -/
def sortFour (lt : α → α → Bool) (a b c d : α) : List α :=
  let (a, b) := if lt b a then (b, a) else (a, b)
  let (c, d) := if lt d c then (d, c) else (c, d)
  let c3 := lt c a
  let c4 := lt d b
  let least := if c3 then c else a
  let most := if c4 then b else d
  let midLeft := if c3 then a else if c4 then c else b
  let midRight := if c4 then d else if c3 then b else c
  if lt midRight midLeft then [least, midRight, midLeft, most]
  else [least, midLeft, midRight, most]

/-- Where a merge from both ends stands: the next element of each half from the front, the
end of what is left of each half from the back, and what has been written at each end. -/
structure Ends (α : Type) where
  left : Nat
  right : Nat
  leftEnd : Nat
  rightEnd : Nat
  front : List α
  back : List α

/-- Takes `k` steps of a merge from both ends of `src`: one element at the front, the
smaller head, and one at the back, the larger tail. -/
def mergeEnds (lt : α → α → Bool) (src : Array α) : Nat → Ends α → Ends α
  | 0, e => e
  | k + 1, e =>
    let l := src.getD e.left default
    let r := src.getD e.right default
    let takeLeft := !lt r l
    let front := (if takeLeft then l else r) :: e.front
    let l' := src.getD (e.leftEnd - 1) default
    let r' := src.getD (e.rightEnd - 1) default
    let takeLeftBack := lt r' l'
    let back := (if takeLeftBack then l' else r') :: e.back
    mergeEnds lt src k
      { left := if takeLeft then e.left + 1 else e.left
        right := if takeLeft then e.right else e.right + 1
        leftEnd := if takeLeftBack then e.leftEnd - 1 else e.leftEnd
        rightEnd := if takeLeftBack then e.rightEnd else e.rightEnd - 1
        front := front
        back := back }

/-- Merges the sorted halves of `src` (the first `size / 2` elements and the rest) from both
ends at once; `none` when the two merges have not met exactly, which only a comparison that
is not a strict weak order brings about. -/
def mergeBothEnds (lt : α → α → Bool) (src : Array α) : Option (List α) :=
  let n := src.size
  let h := n / 2
  let e := mergeEnds lt src h ⟨0, h, h, n, [], []⟩
  let (middle, left, right) :=
    if n % 2 = 0 then ([], e.left, e.right)
    else if e.left < e.leftEnd then ([src.getD e.left default], e.left + 1, e.right)
    else ([src.getD e.right default], e.left, e.right + 1)
  if left = e.leftEnd ∧ right = e.rightEnd then some (e.front.reverse ++ middle ++ e.back)
  else none

/-- One half for the small sort: its first four elements by `sortFour` when the whole has
at least eight, else its first element, then the rest inserted one by one. -/
def smallHalf (lt : α → α → Bool) (big : Bool) (xs : List α) : List α :=
  match big, xs with
  | true, a :: b :: c :: d :: rest => insertAll lt (sortFour lt a b c d) rest
  | _, x :: rest => insertAll lt [x] rest
  | _, [] => []

/-- Sorts a short list: each half on its own, then the two merged from both ends. -/
def smallSort (lt : α → α → Bool) (xs : List α) : Option (List α) :=
  let n := xs.length
  if n < 2 then some xs
  else
    let big := n ≥ 8
    let halves := smallHalf lt big (xs.take (n / 2)) ++ smallHalf lt big (xs.drop (n / 2))
    mergeBothEnds lt halves.toArray

/-- The longest list the small sort takes. -/
def smallLimit : Nat := 32

/-! ### Runs and merges -/

/-- The length of the run that continues after `prev`: strictly descending if `down`,
otherwise never descending. -/
def runOn (lt : α → α → Bool) (down : Bool) (prev : α) : List α → Nat
  | [] => 0
  | x :: rest => if (if down then lt x prev else !lt x prev) then runOn lt down x rest + 1 else 0

/-- The run at the front of a list: its length, and whether it strictly descends. -/
def frontRun (lt : α → α → Bool) : List α → Nat × Bool
  | a :: b :: rest =>
    let down := lt b a
    (runOn lt down b rest + 2, down)
  | xs => (xs.length, false)

/-- Merges two sorted lists from the front: the left element goes first unless the right
one precedes it. -/
def mergeFront (lt : α → α → Bool) : List α → List α → List α
  | [], ys => ys
  | xs, [] => xs
  | x :: xs, y :: ys =>
    if lt y x then y :: mergeFront lt (x :: xs) ys else x :: mergeFront lt xs (y :: ys)
termination_by xs ys => xs.length + ys.length

/-- Merges two sorted lists from the back, given last first, onto `acc`: the right element
goes last unless it precedes the left one. -/
def mergeBack (lt : α → α → Bool) : List α → List α → List α → List α
  | x :: xs, y :: ys, acc =>
    if lt y x then mergeBack lt xs (y :: ys) (x :: acc) else mergeBack lt (x :: xs) ys (y :: acc)
  | xs, ys, acc => xs.reverse ++ ys.reverse ++ acc
termination_by xs ys => xs.length + ys.length

/-- Merges two sorted lists, from the front when the left one is not longer, else from the
back. -/
def mergeRuns (lt : α → α → Bool) (xs ys : List α) : List α :=
  if xs.length ≤ ys.length then mergeFront lt xs ys else mergeBack lt xs.reverse ys.reverse []

/-- The leading zero bits of a number of 64 bits. -/
def leadingZeros (z : Nat) : Nat := if z = 0 then 64 else 63 - z.log2

/-- The depth wanted in the merge tree for the boundary between the runs `[a, b)` and
`[b, c)` of a list scaled by `scale`: the leading zero bits of the difference of their
scaled midpoints (doubled). -/
def boundaryDepth (scale a b c : Nat) : Nat :=
  leadingZeros ((scale * (a + b)) ^^^ (scale * (b + c)))

/-- About the square root of `n`: a power of two near it, improved by one Newton step. -/
def sqrtApprox (n : Nat) : Nat :=
  let shift := (1 + (n ||| 1).log2) / 2
  (Nat.pow 2 shift + n / Nat.pow 2 shift) / 2

/-! ### Quicksort -/

/-- The median of the elements at `a`, `b` and `c` of `v`, by at most three comparisons. -/
def median (lt : α → α → Bool) (v : Array α) (a b c : Nat) : Nat :=
  let x := lt (v.getD a default) (v.getD b default)
  let y := lt (v.getD a default) (v.getD c default)
  if x = y then
    if lt (v.getD b default) (v.getD c default) != x then c else b
  else a

/-- The median of three samples of `n` elements each, starting at `a`, `b` and `c`: of
their first elements, or, for samples of eight or more, of their own medians of three
samples an eighth as long. -/
def medianOf (lt : α → α → Bool) (v : Array α) (a b c n : Nat) : Nat :=
  if 8 ≤ n then
    let m := n / 8
    median lt v (medianOf lt v a (a + m * 4) (a + m * 7) m)
      (medianOf lt v b (b + m * 4) (b + m * 7) m) (medianOf lt v c (c + m * 4) (c + m * 7) m)
  else median lt v a b c
termination_by n
decreasing_by all_goals omega

/-- The position of the pivot of a list of at least eight: the median of its elements at an
eighth, a half and seven eighths of the way, or of samples there for 64 or more. -/
def pivotAt (lt : α → α → Bool) (v : Array α) : Nat :=
  let e := v.size / 8
  if v.size < 64 then median lt v 0 (e * 4) (e * 7) else medianOf lt v 0 (e * 4) (e * 7) e

/-- Splits a list stably into the elements that go left and those that do not, the element
at `pivot` going left if `pivotLeft`; the result is the two parts joined and the length of
the first. -/
def partition (goesLeft : α → Bool) (pivot : Nat) (pivotLeft : Bool) (xs : List α) :
    List α × Nat :=
  let marked := xs.zipIdx.map fun (x, i) => (x, if i = pivot then pivotLeft else goesLeft x)
  let left := (marked.filter (·.2)).map (·.1)
  let right := (marked.filter (!·.2)).map (·.1)
  (left ++ right, left.length)

/-- A run of the list being sorted: its length, and whether it is in order yet. -/
structure Run where
  len : Nat
  sorted : Bool

/-- What sorting by runs keeps: the working space, whether short runs are sorted at once,
the scale of the merge tree and the least length of a run found in order. -/
structure RunPlan where
  space : Nat
  eager : Bool
  scale : Nat
  goodRun : Nat

/-- The unbalanced levels quicksort allows itself on `n` elements: twice the logarithm. -/
def levels (n : Nat) : Nat := 2 * (n ||| 1).log2

/-- The elements of `v` from `start` replaced by `xs`. -/
def place (v : Array α) (start : Nat) (xs : List α) : Array α :=
  (v.toList.take start ++ xs ++ v.toList.drop (start + xs.length)).toArray

mutual

/-- Quicksort of `xs` with `limit` unbalanced levels left; `ancestor` is the pivot of the
level above when `xs` lies right of it. `fuel` bounds the nesting. -/
def quicksort (lt : α → α → Bool) (space : Nat) :
    Nat → List α → Nat → Option α → Option (List α)
  | 0, xs, _, _ => some xs
  | fuel + 1, xs, limit, ancestor =>
    if xs.length ≤ smallLimit then smallSort lt xs
    else if limit = 0 then byRuns lt space fuel true xs
    else
      let v := xs.toArray
      let pos := pivotAt lt v
      let pivot := v.getD pos default
      let repeated := match ancestor with
        | some p => !lt p pivot
        | none => false
      let (parted, leftLen) := if repeated then (xs, 0) else partition (lt · pivot) pos false xs
      if repeated ∨ leftLen = 0 then
        -- the pivot is the least element here: the elements equal to it are in place
        let (parted, equal) := partition (fun x => !lt pivot x) pos true parted
        (parted.take equal ++ ·) <$> quicksort lt space fuel (parted.drop equal) (limit - 1) none
      else do
        let right ← quicksort lt space fuel (parted.drop leftLen) (limit - 1) (some pivot)
        let left ← quicksort lt space fuel (parted.take leftLen) (limit - 1) ancestor
        return left ++ right

/-- Sorts by runs, short runs at once if `eager`. -/
def byRuns (lt : α → α → Bool) (space : Nat) : Nat → Bool → List α → Option (List α)
  | 0, _, xs => some xs
  | fuel + 1, eager, xs =>
    let n := xs.length
    if n < 2 then some xs
    else
      let plan : RunPlan :=
        { space := space, eager := eager, scale := (Nat.pow 2 62 + n - 1) / n,
          goodRun := if n ≤ 4096 then min (n - n / 2) 64 else sqrtApprox n }
      runsFrom lt plan fuel xs.toArray 0 ⟨0, true⟩ []

/-- The loop of sorting by runs: the run before `scan` is `prev`, and the runs before it
wait on `stack`, top first, each with the depth of the boundary after it. -/
def runsFrom (lt : α → α → Bool) (plan : RunPlan) :
    Nat → Array α → Nat → Run → List (Run × Nat) → Option (List α)
  | 0, v, _, _, _ => some v.toList
  | fuel + 1, v, scan, prev, stack => do
    let n := v.size
    let (v, next, depth) ← if scan < n then do
        let (v, next) ← nextRun lt plan fuel v scan
        pure (v, next, boundaryDepth plan.scale (scan - prev.len) scan (scan + next.len))
      else pure (v, ⟨0, true⟩, 0)
    let (v, prev, stack) ← collapse lt plan fuel v scan prev stack depth
    if scan < n then runsFrom lt plan fuel v (scan + next.len) next ((prev, depth) :: stack)
    else if prev.sorted then some v.toList
    else quicksort lt plan.space fuel v.toList (levels v.size) none

/-- The run that starts at `scan`: one in order (turned round if it descends) if it is long
enough, else the next elements sorted at once, or left unsorted. -/
def nextRun (lt : α → α → Bool) (plan : RunPlan) :
    Nat → Array α → Nat → Option (Array α × Run)
  | 0, v, scan => some (v, ⟨v.size - scan, false⟩)
  | fuel + 1, v, scan =>
    let rest := v.toList.drop scan
    let found := if rest.length ≥ plan.goodRun then frontRun lt rest else (0, false)
    if found.1 ≥ plan.goodRun then
      let v := if found.2 then place v scan (rest.take found.1).reverse else v
      some (v, ⟨found.1, true⟩)
    else if plan.eager then do
      let k := min smallLimit rest.length
      let sorted ← quicksort lt plan.space fuel (rest.take k) 0 none
      return (place v scan sorted, ⟨k, true⟩)
    else some (v, ⟨min plan.goodRun rest.length, false⟩)

/-- Merges `prev`, which ends at `scan`, with the runs on top of `stack` whose boundary wants
to be at least `depth` deep. -/
def collapse (lt : α → α → Bool) (plan : RunPlan) :
    Nat → Array α → Nat → Run → List (Run × Nat) → Nat →
      Option (Array α × Run × List (Run × Nat))
  | 0, v, _, prev, stack, _ => some (v, prev, stack)
  | fuel + 1, v, scan, prev, stack, depth =>
    match stack with
    | (left, d) :: below@(_ :: _) =>
      if d ≥ depth then do
        let len := left.len + prev.len
        let start := scan - len
        if len ≤ plan.space ∧ !left.sorted ∧ !prev.sorted then
          collapse lt plan fuel v scan ⟨len, false⟩ below depth
        else
          let part := (v.toList.drop start).take len
          let first := part.take left.len
          let second := part.drop left.len
          let first ← if left.sorted then pure first
            else quicksort lt plan.space fuel first (levels first.length) none
          let second ← if prev.sorted then pure second
            else quicksort lt plan.space fuel second (levels second.length) none
          collapse lt plan fuel (place v start (mergeRuns lt first second)) scan ⟨len, true⟩
            below depth
      else some (v, prev, stack)
    | _ => some (v, prev, stack)

end

/-- Sorts `xs` stably by `lt`; `none` when `lt` shows that it is not a strict weak order in
a way the sort notices. Each round of a loop and each nested call spends one unit of fuel;
a list of `n` is cut into at most `n` runs and every nesting works on fewer elements or
falls straight to a small sort, so `4 (n + 8)²` units are more than enough. -/
def sort (lt : α → α → Bool) (xs : List α) : Option (List α) :=
  let n := xs.length
  if n ≤ 20 then some (insertionSort lt xs)
  else
    let wanted := max (max (n - n / 2) (min n 333333)) 48
    let space := if wanted ≤ 170 then 170 else wanted
    byRuns lt space (4 * (n + 8) * (n + 8)) (n ≤ 2 * smallLimit) xs

end Reactivity.Sorting
