/-!
# SqlMapper.Heap

Binary heaps in arrays: the children of position `i` are at `2 * i + 1` and `2 * i + 2`, and no
item comes before its parent. `before` says which of two items comes first.

* `Heap.push`, `Heap.pop?`: adding an item, and taking the first one out.
* `Heap.ofArray`: a heap of given items. Items that stand in heap order already keep their
  positions.

The order of the items in the array is a matter of the history of a heap, and visible to whoever
lists them.
-/

namespace SqlMapper.Heap

variable {α : Type} (before : α → α → Bool)

def parent (i : Nat) : Nat := (i - 1) / 2

/-- Whether the item at `i` comes before the item at `j`. -/
def isBefore (a : Array α) (i j : Nat) : Bool :=
  match a[i]?, a[j]? with
  | some x, some y => before x y
  | _, _ => false

/-- Moves the item at `i` up past the parents that it comes before, by at most `steps` levels. -/
def siftUp : Nat → Array α → Nat → Array α
  | 0, a, _ => a
  | steps + 1, a, i =>
    if 0 < i && isBefore before a i (parent i) then
      siftUp steps (a.swapIfInBounds i (parent i)) (parent i)
    else a

/-- The child of `i` that comes first; of two that are level, the right one. -/
def firstChild (a : Array α) (i : Nat) : Nat :=
  if 2 * i + 2 < a.size && !isBefore before a (2 * i + 1) (2 * i + 2) then 2 * i + 2
  else 2 * i + 1

/-- Moves the item at `i` down past the children that come before it. -/
def siftDown : Nat → Array α → Nat → Array α
  | 0, a, _ => a
  | steps + 1, a, i =>
    let c := firstChild before a i
    if c < a.size && isBefore before a c i then siftDown steps (a.swapIfInBounds i c) c else a

/-- Moves the item at `i` down to a leaf, past all its first children, and tells where it ends. -/
def sink : Nat → Array α → Nat → Array α × Nat
  | 0, a, i => (a, i)
  | steps + 1, a, i =>
    let c := firstChild before a i
    if c < a.size then sink steps (a.swapIfInBounds i c) c else (a, i)

def push (a : Array α) (x : α) : Array α :=
  siftUp before a.size (a.push x) a.size

/-- The last item takes the place of the first. It is likely to belong far down, so it sinks to a
leaf and rises from there. -/
def pop? (a : Array α) : Option (α × Array α) :=
  match a[0]? with
  | none => none
  | some first =>
    let rest := (a.swapIfInBounds 0 (a.size - 1)).pop
    let (sunk, leaf) := sink before rest.size rest 0
    some (first, siftUp before leaf sunk leaf)

/-- Puts the subtrees in order, from the last parent to the root. -/
def heapify : Nat → Array α → Array α
  | 0, a => a
  | i + 1, a => heapify i (siftDown before a.size a i)

def ofArray (a : Array α) : Array α := heapify before (a.size / 2) a

end SqlMapper.Heap
