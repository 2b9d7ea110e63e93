/-!
# Grid — items in rows and columns

A `Grid` says in how many rows and columns some items are shown: in as many columns as are asked
for, but not more than there are items and not less than one, and in as many rows as that takes.
Items are placed in reading order. `le_size` says that all items have a place, and `size_lt` that
fewer places than a row holds are left over.
-/

namespace Stencil

/-- **Rows and columns for some items.** -/
structure Grid where
  rows : Nat
  columns : Nat
  deriving Repr, DecidableEq

namespace Grid

/-- The grid for `count` items in as many columns as are asked for. -/
def make (count : Nat) (columns : Int) : Grid :=
  let columns := (max 1 (min columns count)).toNat
  ⟨(count + columns - 1) / columns, columns⟩

/-- The number of cells. -/
def size (g : Grid) : Nat :=
  g.rows * g.columns

/-- **The cell of item `i`**: its row and its column. -/
def place (g : Grid) (i : Nat) : Nat × Nat :=
  (i / g.columns, i % g.columns)

/-- The cells in reading order. -/
def cells (g : Grid) : List (Nat × Nat) :=
  (List.range g.rows).flatMap fun row => (List.range g.columns).map fun column => (row, column)

/-- What the cells show, in reading order: every item in its place, and `unused` in the cells that
are left. -/
def fill {α : Type} (g : Grid) (unused : α) (items : List α) : List α :=
  items ++ List.replicate (g.size - items.length) unused

theorem columns_pos (count : Nat) (columns : Int) : 0 < (make count columns).columns := by
  simp only [make]
  omega

theorem le_size (count : Nat) (columns : Int) : count ≤ (make count columns).size := by
  have h := columns_pos count columns
  have hs : (make count columns).size =
      (count + (make count columns).columns - 1) / (make count columns).columns *
        (make count columns).columns := rfl
  have hd := Nat.div_add_mod (count + (make count columns).columns - 1) (make count columns).columns
  have hm := Nat.mod_lt (count + (make count columns).columns - 1) h
  rw [Nat.mul_comm] at hd
  omega

theorem size_lt (count : Nat) (columns : Int) :
    (make count columns).size < count + (make count columns).columns := by
  have h := columns_pos count columns
  have hs : (make count columns).size =
      (count + (make count columns).columns - 1) / (make count columns).columns *
        (make count columns).columns := rfl
  have hd := Nat.div_add_mod (count + (make count columns).columns - 1) (make count columns).columns
  rw [Nat.mul_comm] at hd
  omega

end Grid

end Stencil
