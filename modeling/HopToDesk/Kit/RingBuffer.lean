import Mathlib.Tactic

/-!
# Ring buffers that overwrite

A buffer of a fixed capacity, with its items oldest first. Items are taken out at the front; what is
pushed goes behind the others, and where there is no room the oldest make way, so that the buffer
holds the last that were pushed.

The buffer itself is a parameter (`RingBuffer`) and what is known of it a hypothesis (`Standard`).
`RingBuffer.list` is a list with its capacity.
-/

set_option autoImplicit false

namespace Kit

/-- The operations of a ring buffer of items of type `α`. -/
structure RingBuffer (α : Type) where
  Buf : Type
  new : Nat → Buf
  capacity : Buf → Nat
  occupiedLen : Buf → Nat
  items : Buf → List α
  skip : Buf → Nat → Buf
  pushSliceOverwrite : Buf → List α → Buf

namespace RingBuffer

variable {α : Type}

/-- The last `n` items. -/
def lastItems (n : Nat) (xs : List α) : List α := xs.drop (xs.length - n)

theorem length_lastItems (n : Nat) (xs : List α) : (lastItems n xs).length = min n xs.length := by
  rw [lastItems, List.length_drop]
  omega

theorem lastItems_of_le {n : Nat} {xs : List α} (h : xs.length ≤ n) : lastItems n xs = xs := by
  rw [lastItems, Nat.sub_eq_zero_of_le h, List.drop_zero]

theorem lastItems_suffix (n : Nat) (xs : List α) : lastItems n xs <:+ xs := List.drop_suffix _ _

/-- What the operations do. -/
structure Standard (ring : RingBuffer α) : Prop where
  capacity_new : ∀ n, ring.capacity (ring.new n) = n
  items_new : ∀ n, ring.items (ring.new n) = []
  occupiedLen_eq : ∀ rb, ring.occupiedLen rb = (ring.items rb).length
  capacity_skip : ∀ rb n, ring.capacity (ring.skip rb n) = ring.capacity rb
  items_skip : ∀ rb n, ring.items (ring.skip rb n) = (ring.items rb).drop n
  capacity_push : ∀ rb xs, ring.capacity (ring.pushSliceOverwrite rb xs) = ring.capacity rb
  items_push : ∀ rb xs, ring.items (ring.pushSliceOverwrite rb xs) =
    lastItems (ring.capacity rb) (ring.items rb ++ xs)

/-- A list and its capacity. -/
def list : RingBuffer α where
  Buf := Nat × List α
  new n := (n, [])
  capacity rb := rb.1
  occupiedLen rb := rb.2.length
  items rb := rb.2
  skip rb n := (rb.1, rb.2.drop n)
  pushSliceOverwrite rb xs := (rb.1, lastItems rb.1 (rb.2 ++ xs))

theorem list_standard : (list : RingBuffer α).Standard where
  capacity_new _ := rfl
  items_new _ := rfl
  occupiedLen_eq _ := rfl
  capacity_skip _ _ := rfl
  items_skip _ _ := rfl
  capacity_push _ _ := rfl
  items_push _ _ := rfl

end RingBuffer

end Kit
