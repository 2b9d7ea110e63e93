import Stencil.Proofs.CommandLine.Quiet
import Stencil.Sheet

/-!
# Proofs/Sheet — how a contact sheet is laid out

    a  b  c         place i = (i / 3, i % 3)
    d  e  f
    g  ╳  ╳         switched off, as there is no item for them

A sheet starts as a table of fresh cells.  The cells behind the last item are switched off, and then
each item is put into its cell (`layOut`).  A cell is looked for by its row and its column and may
be missed, but none ever is (`layOut_eq`): as long as an item has a place in the grid, the table has
a cell there (`setCell_tabulate`).  What comes out is `IsLaidOut`, and the pages of drawings and of
libraries show it row by row (`sheets_laid_out`).
-/

namespace Stencil

/-! ## Tables -/

/-- **A cell of a sheet.** -/
inductive Cell (α : Type) where
  /-- With its axes, as it came. -/
  | fresh
  | off
  | item (a : α)

/-- Rows of cells. -/
abbrev Table (α : Type) := List (List (Cell α))

namespace Table

variable {α : Type} {g : Grid} {table : Table α} {f : ℕ → Cell α} {cell : Cell α} {i n : ℕ}

/-- The cell in a row and a column, if there is one. -/
def cellAt? (table : Table α) (place : ℕ × ℕ) : Option (Cell α) :=
  table[place.1]?.bind fun row => row[place.2]?

/-- **A cell is changed**, if it is there. -/
def setCell (table : Table α) (place : ℕ × ℕ) (cell : Cell α) : Except IndexError (Table α) :=
  match table[place.1]? with
  | none => .error .outOfRange
  | some row =>
    if place.2 < row.length then .ok (table.set place.1 (row.set place.2 cell))
    else .error .outOfRange

/-- The table for so many items: of fresh cells, those behind the last item are switched off. -/
def blank (g : Grid) (count : ℕ) : Except IndexError (Table α) :=
  (List.range' count (g.size - count)).foldlM (fun table i => setCell table (g.place i) .off)
    (List.replicate g.rows (List.replicate g.columns .fresh))

/-- **The table of a sheet**: each item is put into its cell. -/
def layOut (columns : Int) (items : List α) : Except IndexError (Table α) := do
  let g := Grid.make items.length columns
  let table ← blank g items.length
  items.zipIdx.foldlM (fun table x => setCell table (g.place x.2) (.item x.1)) table

/-- The table with these cells, numbered in reading order. -/
def tabulate (g : Grid) (f : ℕ → Cell α) : Table α :=
  (List.range g.rows).map fun row =>
    (List.range g.columns).map fun column => f (row * g.columns + column)

theorem getElem?_tabulate {row : ℕ} (h : row < g.rows) :
    (tabulate g f)[row]? =
      some ((List.range g.columns).map fun column => f (row * g.columns + column)) := by
  rw [tabulate, List.getElem?_map, List.getElem?_range h, Option.map_some]

theorem cellAt?_tabulate (place : ℕ × ℕ) :
    cellAt? (tabulate g f) place =
      if place.1 < g.rows ∧ place.2 < g.columns then some (f (place.1 * g.columns + place.2))
      else none := by
  rw [cellAt?]
  by_cases hrow : place.1 < g.rows
  · rw [getElem?_tabulate hrow, Option.bind_some, List.getElem?_map]
    by_cases hcolumn : place.2 < g.columns
    · rw [List.getElem?_range hcolumn, if_pos ⟨hrow, hcolumn⟩, Option.map_some]
    · rw [List.getElem?_eq_none (by simpa using hcolumn), if_neg fun h => hcolumn h.2,
        Option.map_none]
  · rw [List.getElem?_eq_none (by simpa [tabulate] using hrow), if_neg fun h => hrow h.1,
      Option.bind_none]

/-- A place in a grid has a number in reading order, and the number has the place. -/
theorem place_mul_add {row column : ℕ} (h : column < g.columns) :
    g.place (row * g.columns + column) = (row, column) := by
  rw [Grid.place, Nat.add_comm, Nat.add_mul_div_right _ _ (by omega), Nat.div_eq_of_lt h,
    Nat.zero_add, Nat.add_mul_mod_self_right, Nat.mod_eq_of_lt h]

theorem mul_add_place (g : Grid) (i : ℕ) : (g.place i).1 * g.columns + (g.place i).2 = i :=
  Nat.div_add_mod' i g.columns

theorem place_lt (h : i < g.size) : (g.place i).1 < g.rows ∧ (g.place i).2 < g.columns := by
  have hcolumns : 0 < g.columns := Nat.pos_of_ne_zero fun hzero => by
    rw [Grid.size, hzero, Nat.mul_zero] at h
    exact Nat.not_lt_zero i h
  exact ⟨(Nat.div_lt_iff_lt_mul hcolumns).mpr h, Nat.mod_lt i hcolumns⟩

/-- A change of one value of a tabulated list. -/
theorem set_map_range {β : Type} (f : ℕ → β) (n i : ℕ) (b : β) :
    ((List.range n).map f).set i b = (List.range n).map (Function.update f i b) := by
  refine List.ext_getElem (by simp) fun j _ _ => ?_
  simp only [List.getElem_set, List.getElem_map, List.getElem_range, Function.update_apply,
    eq_comm]

/-- **Whatever has a place in the grid has a cell**, and no other cell is changed. -/
theorem setCell_tabulate (h : i < g.size) :
    setCell (tabulate g f) (g.place i) cell = .ok (tabulate g (Function.update f i cell)) := by
  obtain ⟨hrow, hcolumn⟩ := place_lt h
  have hnumber : (g.place i).1 * g.columns + (g.place i).2 = i := mul_add_place g i
  rw [setCell, getElem?_tabulate hrow]
  simp only [List.length_map, List.length_range, if_pos hcolumn, set_map_range, tabulate]
  refine congrArg Except.ok (List.map_congr_left fun row _ => ?_)
  by_cases hsame : row = (g.place i).1
  · subst hsame
    rw [Function.update_self]
    refine List.map_congr_left fun column _ => ?_
    by_cases hcell : column = (g.place i).2
    · rw [hcell, Function.update_self, hnumber, Function.update_self]
    · rw [Function.update_of_ne hcell, Function.update_of_ne (by omega)]
  · rw [Function.update_of_ne hsame]
    refine List.map_congr_left fun column hlt => ?_
    rw [Function.update_of_ne fun hnumber => hsame ?_]
    rw [← hnumber, place_mul_add (List.mem_range.mp hlt)]

theorem mul_add_lt {row column : ℕ} (hrow : row < g.rows) (hcolumn : column < g.columns) :
    row * g.columns + column < g.size :=
  calc row * g.columns + column < row * g.columns + g.columns := by omega
    _ = (row + 1) * g.columns := (Nat.succ_mul row g.columns).symm
    _ ≤ g.size := Nat.mul_le_mul_right g.columns hrow

/-- Only the cells of the grid matter. -/
theorem tabulate_congr {f' : ℕ → Cell α} (h : ∀ i < g.size, f i = f' i) :
    tabulate g f = tabulate g f' := by
  refine List.map_congr_left fun row hrow => List.map_congr_left fun column hcolumn => h _ ?_
  exact mul_add_lt (List.mem_range.mp hrow) (List.mem_range.mp hcolumn)

theorem tabulate_const (cell : Cell α) :
    tabulate g (fun _ => cell) = List.replicate g.rows (List.replicate g.columns cell) := by
  simp only [tabulate, List.map_const', List.length_range]

/-- **A run of changes**, one cell after the other. -/
theorem foldlM_setCell {β : Type} (number : β → ℕ) (content : β → Cell α) {xs : List β}
    (h : ∀ x ∈ xs, number x < g.size) (f : ℕ → Cell α) :
    xs.foldlM (fun table x => setCell table (g.place (number x)) (content x)) (tabulate g f) =
      .ok (tabulate g (xs.foldl (fun f x => Function.update f (number x) (content x)) f)) := by
  induction xs generalizing f with
  | nil => rfl
  | cons x rest ih =>
    obtain ⟨hx, hrest⟩ := List.forall_mem_cons.mp h
    rw [List.foldlM_cons, setCell_tabulate hx]
    exact ih hrest _

/-- Numbers from `n` on are switched off. -/
theorem foldl_range'_off (n k : ℕ) (f : ℕ → Cell α) (i : ℕ) :
    (List.range' n k).foldl (fun f j => Function.update f j .off) f i =
      if n ≤ i ∧ i < n + k then .off else f i := by
  induction k generalizing n f with
  | zero => rw [if_neg (by omega)]; rfl
  | succ k ih =>
    rw [List.range'_succ, List.foldl_cons, ih]
    by_cases hi : i = n
    · rw [if_neg (by omega), if_pos (by omega), hi, Function.update_self]
    · rw [Function.update_of_ne hi]
      exact if_congr (by omega) rfl rfl

theorem blank_eq (g : Grid) (count : ℕ) :
    blank g count = .ok (tabulate g fun i => if count ≤ i then .off else .fresh : Table α) := by
  have hnumbers : ∀ i ∈ List.range' count (g.size - count), i < g.size := by
    intro i hi
    obtain ⟨hle, hlt⟩ := List.mem_range'_1.mp hi
    omega
  rw [blank, ← tabulate_const]
  refine (foldlM_setCell id (fun _ => .off) hnumbers _).trans (congrArg Except.ok ?_)
  refine tabulate_congr fun i hi => (foldl_range'_off _ _ _ i).trans ?_
  exact if_congr (by omega) rfl rfl

/-- Items numbered from `n` on are put in. -/
theorem foldl_zipIdx_item (items : List α) (n : ℕ) (f : ℕ → Cell α) (i : ℕ) :
    (items.zipIdx n).foldl (fun f x => Function.update f x.2 (.item x.1)) f i =
      if n ≤ i then (items[i - n]?).elim (f i) .item else f i := by
  induction items generalizing n f with
  | nil => simp
  | cons a rest ih =>
    rw [List.zipIdx_cons, List.foldl_cons, ih]
    rcases Nat.lt_trichotomy i n with hi | rfl | hi
    · rw [if_neg (by omega), if_neg (by omega), Function.update_of_ne (by omega)]
    · rw [if_neg (by omega), if_pos le_rfl, Function.update_self, Nat.sub_self]
      rfl
    · obtain ⟨k, rfl⟩ := Nat.exists_eq_add_of_lt hi
      rw [if_pos (by omega), if_pos (by omega), Function.update_of_ne (by omega),
        show n + k + 1 - n = k + 1 by omega, show n + k + 1 - (n + 1) = k by omega,
        List.getElem?_cons_succ]

/-- What the cell with a number holds, when all is laid out. -/
def contentOf (items : List α) (i : ℕ) : Cell α :=
  (items[i]?).elim .off .item

/-- **No cell is missed** in laying out a sheet, whatever is asked for. -/
theorem layOut_eq (columns : Int) (items : List α) :
    layOut columns items =
      .ok (tabulate (Grid.make items.length columns) (contentOf items)) := by
  generalize hg : Grid.make items.length columns = g
  have hsize : items.length ≤ g.size := hg ▸ Grid.le_size items.length columns
  have hnumbers : ∀ x ∈ items.zipIdx, x.2 < g.size := fun x hx =>
    (List.snd_lt_of_mem_zipIdx hx).trans_le hsize
  simp only [layOut, hg, blank_eq]
  refine (foldlM_setCell Prod.snd (fun x => .item x.1) hnumbers _).trans (congrArg Except.ok ?_)
  refine tabulate_congr fun i _ => (foldl_zipIdx_item items 0 _ i).trans ?_
  rw [if_pos (Nat.zero_le i), Nat.sub_zero, contentOf]
  cases hitem : items[i]? with
  | some a => rfl
  | none => exact if_pos (List.getElem?_eq_none_iff.mp hitem)

/-! ## What a sheet looks like -/

/-- Row by row the cells are those with the numbers in order. -/
theorem flatten_tabulate (g : Grid) (f : ℕ → Cell α) :
    (tabulate g f).flatten = (List.range g.size).map f := by
  obtain ⟨rows, columns⟩ := g
  induction rows with
  | zero => simp [tabulate, Grid.size]
  | succ rows ih =>
    simp only [tabulate, Grid.size] at ih ⊢
    rw [List.range_succ, List.map_append, List.flatten_append, ih, Nat.succ_mul, List.range_add,
      List.map_append, List.map_map]
    simp only [List.map_cons, List.map_nil, List.flatten_cons, List.flatten_nil, List.append_nil,
      Function.comp_def]

theorem map_contentOf (items : List α) (k : ℕ) :
    (List.range (items.length + k)).map (contentOf items) =
      items.map .item ++ List.replicate k .off := by
  refine List.ext_getElem (by simp) fun i hi _ => ?_
  rw [List.length_map, List.length_range] at hi
  rw [List.getElem_map, List.getElem_range, contentOf]
  by_cases hitem : i < items.length
  · rw [List.getElem?_eq_getElem hitem, List.getElem_append_left (by simpa using hitem),
      List.getElem_map]
    rfl
  · rw [List.getElem?_eq_none (by omega), List.getElem_append_right (by simpa using hitem),
      List.getElem_replicate]
    rfl

theorem contentOf_eq_off_iff {items : List α} : contentOf items i = .off ↔ items.length ≤ i := by
  rw [← List.getElem?_eq_none_iff, contentOf]
  cases items[i]? with
  | none => exact iff_of_true rfl rfl
  | some a => exact iff_of_false (fun h => by cases h) (Option.some_ne_none a)

/-- **The look of a sheet** that some items were laid out on. -/
structure IsLaidOut (columns : Int) (items : List α) (g : Grid) (table : Table α) : Prop where
  one_le_columns : 1 ≤ g.columns
  columns_le : (g.columns : Int) ≤ max 1 columns
  length_eq : table.length = g.rows
  length_row : ∀ row ∈ table, row.length = g.columns
  /-- Every item is in its place. -/
  cellAt?_place : ∀ i a, items[i]? = some a → cellAt? table (g.place i) = some (.item a)
  /-- The places are in reading order, and so no two items share one. -/
  place_lt_place : ∀ i j, i < j → toLex (g.place i) < toLex (g.place j)
  /-- The cells without an item are switched off, and no others. -/
  off_iff : ∀ place cell, cellAt? table place = some cell →
    (cell = .off ↔ ∀ i < items.length, g.place i ≠ place)
  /-- Row by row the items come in order, and the cells that are switched off come last. -/
  flatten_eq : table.flatten =
    items.map .item ++ List.replicate (g.size - items.length) .off
  unused_lt : g.size - items.length < g.columns
  /-- No row is empty. -/
  exists_item : ∀ row ∈ table, ∃ a ∈ items, .item a ∈ row

theorem place_lt_place {j : ℕ} (hij : i < j) :
    toLex (g.place i) < toLex (g.place j) := by
  rw [Prod.Lex.toLex_lt_toLex]
  rcases (Nat.div_le_div_right hij.le : i / g.columns ≤ j / g.columns).lt_or_eq with hrow | hrow
  · exact .inl hrow
  · refine .inr ⟨hrow, ?_⟩
    have hi := Nat.div_add_mod i g.columns
    have hj := Nat.div_add_mod j g.columns
    rw [hrow] at hi
    simp only [Grid.place]
    omega

/-- **A sheet looks as it should** if all items have a place and less than a row is left over. -/
theorem isLaidOut_tabulate {columns : Int} {items : List α} (hpos : 0 < g.columns)
    (hcolumns : (g.columns : Int) ≤ max 1 columns) (hle : items.length ≤ g.size)
    (hlt : g.size < items.length + g.columns) :
    IsLaidOut columns items g (tabulate g (contentOf items)) where
  one_le_columns := hpos
  columns_le := hcolumns
  length_eq := by rw [tabulate, List.length_map, List.length_range]
  length_row := by simp [tabulate]
  cellAt?_place := fun i a hitem => by
    obtain ⟨hi, -⟩ := List.getElem?_eq_some_iff.mp hitem
    rw [cellAt?_tabulate, if_pos (place_lt (hi.trans_le hle)), mul_add_place, contentOf, hitem]
    rfl
  place_lt_place := fun _ _ => place_lt_place
  off_iff := fun place cell hcell => by
    rw [cellAt?_tabulate] at hcell
    split at hcell
    next hplace =>
      obtain rfl := Option.some.inj hcell
      have hnumber : g.place (place.1 * g.columns + place.2) = place := place_mul_add hplace.2
      rw [contentOf_eq_off_iff]
      constructor
      · intro hlength i hi hsame
        rw [← hsame, mul_add_place] at hlength
        omega
      · intro h
        by_contra! hitem
        exact h _ hitem hnumber
    next => cases hcell
  flatten_eq := by
    obtain ⟨k, hk⟩ := Nat.exists_eq_add_of_le hle
    rw [flatten_tabulate, hk, map_contentOf, Nat.add_sub_cancel_left]
  unused_lt := by omega
  exists_item := fun row hrow => by
    obtain ⟨r, hr, rfl⟩ := List.mem_map.mp hrow
    have hfirst : r * g.columns < items.length := by
      have hlast := mul_add_lt (List.mem_range.mp hr) (Nat.sub_lt hpos Nat.one_pos)
      omega
    refine ⟨_, List.getElem_mem hfirst, List.mem_map.mpr ⟨0, List.mem_range.mpr hpos, ?_⟩⟩
    rw [Nat.add_zero, contentOf, List.getElem?_eq_getElem hfirst]
    rfl

/-- **Every sheet can be laid out**, and looks as it should. -/
theorem exists_layOut (columns : Int) (items : List α) :
    ∃ table, layOut columns items = .ok table ∧
      IsLaidOut columns items (Grid.make items.length columns) table := by
  refine ⟨_, layOut_eq columns items, isLaidOut_tabulate (Grid.columns_pos _ _) ?_
    (Grid.le_size _ _) (Grid.size_lt _ _)⟩
  simp only [Grid.make]
  omega

end Table

/-! ## Pages -/

/-- What is seen in a cell: nothing, where it is switched off. -/
inductive Cell.Shows : Cell Panel → Panel → Prop
  | off : Shows .off Panel.unused
  | item (panel : Panel) : Shows (.item panel) panel

/-- **A page that shows some panels** in the cells of a sheet. -/
def Page.IsSheet (columns : Int) (panels : List Panel) (page : Page) : Prop :=
  ∃ table g, Table.layOut columns panels = .ok table ∧ Table.IsLaidOut columns panels g table ∧
    page.columns = g.columns ∧ List.Forall₂ Cell.Shows table.flatten page.panels

/-- **A grid filled with panels** shows what a sheet does. -/
theorem Page.isSheet_ofGrid (columns : Int) (panels : List Panel) (cell : Float)
    (format : String) :
    (Page.ofGrid (Grid.make panels.length columns) cell format panels).IsSheet columns panels := by
  obtain ⟨table, htable, hlaid⟩ := Table.exists_layOut columns panels
  refine ⟨table, _, htable, hlaid, rfl, ?_⟩
  rw [hlaid.flatten_eq]
  have hitems : List.Forall₂ Cell.Shows (panels.map .item) panels :=
    List.forall₂_map_left_iff.mpr (List.forall₂_same.mpr fun panel _ => .item panel)
  have hunused (k : ℕ) :
      List.Forall₂ Cell.Shows (List.replicate k .off) (List.replicate k Panel.unused) := by
    induction k with
    | zero => exact .nil
    | succ k ih => exact .cons .off ih
  exact List.rel_append hitems (hunused _)

namespace Session

variable {g : Generator} {titles : Option (List String)} {images : Option (List Image)}
  {d : Drawing} {path : String} {columns : Int} {s t : Session}

/-- The panels are on a sheet in a file. -/
def HasSheet (path : String) (columns : Int) (panels : List Panel) (t : Session) : Prop :=
  ∃ page, t.store.read path = .ok (.page page) ∧ page.IsSheet columns panels

/-- **How the writing of a sheet ends.** -/
inductive WritesSheet (path : String) (columns : Int) (panels : List Panel) :
    Except Failure Unit × Session → Prop
  | written {t : Session} (h : t.HasSheet path columns panels) :
    WritesSheet path columns panels (.ok (), t)
  /-- The file is wrong. -/
  | unwritten (e : Store.Error) (t : Session) :
    WritesSheet path columns panels (.error (.file e), t)

theorem writesSheet_run_endPage (path : String) (columns : Int) (panels : List Panel)
    (cell : Float) (s : Session) :
    WritesSheet path columns panels (s.run (endPage path
      (Page.ofGrid (Grid.make panels.length columns) cell (Format.ofPath path).name panels))) := by
  obtain ⟨made, store, -, hwrite, hrun⟩ | ⟨e, store, hrun⟩ := run_endPage path
    (Page.ofGrid (Grid.make panels.length columns) cell (Format.ofPath path).name panels) s
  · rw [hrun]
    obtain ⟨place, hlocate, hget, hslash, -⟩ := Store.wrote_of_write hwrite
    exact .written ⟨_, Store.read_eq_ok hlocate hget hslash, Page.isSheet_ofGrid ..⟩
  · rw [hrun]
    exact .unwritten e _

/-- **The panel of drawing `i`**: under its title it shows the picture that is given, or else one
that was painted. -/
def IsPanelOf (g : Generator) (titles : Option (List String)) (i : ℕ) (d : Drawing)
    (image : Option Image) (panel : Panel) : Prop :=
  panel.title = (titles.bind (·[i]?)).getD (d.title i) ∧
    ∃ shown, panel.exhibit = .picture shown ∧
      (image = some shown ∨
        image = none ∧ ∃ s t : Session, s.run (picture g d) = (.ok shown, t))

/-- A drawing that was not painted, and why. -/
def IsUnpainted (g : Generator) (d : Drawing) (e : Failure) : Prop :=
  ∃ s t : Session, s.run (picture g d) = (.error e, t)

/-- There is a title, if there are titles for so many drawings. -/
theorem run_titleOf {i : ℕ} (h : ∀ texts ∈ titles, i < texts.length) (d : Drawing) (s : Session) :
    s.run (titleOf titles d i) = (.ok ((titles.bind (·[i]?)).getD (d.title i)), s) := by
  cases titles with
  | none => rfl
  | some texts =>
    have hi : i < texts.length := h texts rfl
    simp only [titleOf, Option.bind_some, List.getElem?_eq_getElem hi]
    rfl

/-- **What making panels comes to**: there is one for each drawing, in order, or one of the drawings
was not painted. -/
def MakesPanels (g : Generator) (titles : Option (List String)) (i : ℕ)
    (pairs : List (Drawing × Option Image)) : Except Failure (List Panel) → Prop
  | .error e => ∃ x ∈ pairs, x.2 = none ∧ IsUnpainted g x.1 e
  | .ok panels => List.Forall₂ (fun x panel => IsPanelOf g titles x.2 x.1.1 x.1.2 panel)
      (pairs.zipIdx i) panels

/-- A panel more, before the others. -/
theorem MakesPanels.cons {i : ℕ} {x : Drawing × Option Image}
    {rest : List (Drawing × Option Image)} {panel : Panel} {outcome : Except Failure (List Panel)}
    (hpanel : IsPanelOf g titles i x.1 x.2 panel) (h : MakesPanels g titles (i + 1) rest outcome) :
    MakesPanels g titles i (x :: rest) (outcome.map (panel :: ·)) := by
  cases outcome with
  | error e =>
    obtain ⟨y, hy, hunpainted⟩ := h
    exact ⟨y, List.mem_cons_of_mem x hy, hunpainted⟩
  | ok panels => exact List.Forall₂.cons hpanel h

/-- **No title is missed** in making panels. -/
theorem makesPanels_run {i : ℕ} {pairs : List (Drawing × Option Image)}
    (h : ∀ texts ∈ titles, i + pairs.length ≤ texts.length) (g : Generator) (s : Session) :
    MakesPanels g titles i pairs (s.run (drawingPanels g titles i pairs)).1 := by
  induction pairs generalizing i s with
  | nil => exact List.Forall₂.nil
  | cons x rest ih =>
    obtain ⟨d, image⟩ := x
    have hbound : ∀ texts ∈ titles, i + 1 + rest.length ≤ texts.length := by
      intro texts htexts
      have hlength := h texts htexts
      rw [List.length_cons] at hlength
      omega
    have htitle (u : Session) := run_titleOf (i := i)
      (fun texts htexts => by have := hbound texts htexts; omega) d u
    cases image with
    | some shown =>
      rw [drawingPanels, run_bind_of_ok (run_pure shown s), run_bind_of_ok (htitle s),
        ← map_eq_pure_bind, run_map]
      exact .cons ⟨rfl, shown, rfl, .inl rfl⟩ (ih hbound s)
    | none =>
      rw [drawingPanels]
      rcases hpicture : s.run (picture g d) with ⟨e | shown, u⟩
      · rw [run_bind_of_error hpicture]
        exact ⟨_, List.mem_cons_self, rfl, s, u, hpicture⟩
      · rw [run_bind_of_ok hpicture, run_bind_of_ok (htitle u), ← map_eq_pure_bind, run_map]
        exact .cons ⟨rfl, shown, rfl, .inr ⟨rfl, s, u, hpicture⟩⟩ (ih hbound u)

/-- As many drawings as pictures, where there are pictures. -/
def HasPictures (drawings : List Drawing) (images : Option (List Image)) : Prop :=
  ∀ pictures ∈ images, pictures.length = drawings.length

theorem length_pairUp {drawings : List Drawing} (h : HasPictures drawings images) :
    (pairUp drawings images).length = drawings.length := by
  cases images with
  | none => exact List.length_map _
  | some pictures =>
    have hlength : pictures.length = drawings.length := h pictures rfl
    rw [pairUp, List.length_zipWith, hlength, Nat.min_self]

theorem run_writeSheet_eq {drawings : List Drawing} (hne : drawings ≠ [])
    (h : HasPictures drawings images) (g : Generator) (titles : Option (List String))
    (path : String) (columns : Int) (s : Session) :
    s.run (writeSheet g drawings path columns titles images) =
      s.run (writePage path (Grid.make drawings.length columns) drawingCell
        (drawingPanels g titles 0 (pairUp drawings images))) := by
  unfold writeSheet
  cases images with
  | none =>
    dsimp only
    rw [if_neg hne]
  | some pictures =>
    dsimp only
    rw [if_neg hne, if_neg (not_not_intro (h pictures rfl))]

theorem run_writeSheet_of_miscounted {drawings : List Drawing} {pictures : List Image}
    (hne : drawings ≠ []) (h : pictures.length ≠ drawings.length) (g : Generator)
    (titles : Option (List String)) (path : String) (columns : Int) (s : Session) :
    s.run (writeSheet g drawings path columns titles (some pictures)) =
      (.error (.pictureCount pictures.length drawings.length), s) := by
  unfold writeSheet
  dsimp only
  rw [if_neg hne, if_pos h]
  rfl

/-- **How a contact sheet of drawings ends.** -/
inductive EndsSheet (g : Generator) (drawings : List Drawing) (path : String) (columns : Int)
    (titles : Option (List String)) (images : Option (List Image)) :
    Except Failure Unit × Session → Prop
  /-- Each drawing is in its place on a sheet. -/
  | written {panels : List Panel} {t : Session} (hpictures : HasPictures drawings images)
    (hlength : panels.length = drawings.length)
    (hpanels : MakesPanels g titles 0 (pairUp drawings images) (.ok panels))
    (hsheet : t.HasSheet path columns panels) :
    EndsSheet g drawings path columns titles images (.ok (), t)
  /-- A drawing is not painted. -/
  | unpainted {e : Failure} (t : Session)
    (he : MakesPanels g titles 0 (pairUp drawings images) (.error e)) :
    EndsSheet g drawings path columns titles images (.error e, t)
  /-- The file is wrong. -/
  | unwritten (e : Store.Error) (t : Session) :
    EndsSheet g drawings path columns titles images (.error (.file e), t)
  /-- There are not as many pictures as drawings. -/
  | miscounted {pictures : List Image} (himages : images = some pictures)
    (hlength : pictures.length ≠ drawings.length) (t : Session) :
    EndsSheet g drawings path columns titles images
      (.error (.pictureCount pictures.length drawings.length), t)

theorem endsSheet_run {drawings : List Drawing} (hne : drawings ≠ [])
    (htitles : ∀ texts ∈ titles, drawings.length ≤ texts.length) (g : Generator) (path : String)
    (columns : Int) (images : Option (List Image)) (s : Session) :
    EndsSheet g drawings path columns titles images
      (s.run (writeSheet g drawings path columns titles images)) := by
  by_cases himages : HasPictures drawings images
  · have hlength := length_pairUp himages
    have hmakes (s : Session) : MakesPanels g titles 0 (pairUp drawings images)
        (s.run (drawingPanels g titles 0 (pairUp drawings images))).1 := by
      refine makesPanels_run (fun texts htexts => ?_) g s
      rw [hlength, Nat.zero_add]
      exact htitles texts htexts
    rw [run_writeSheet_eq hne himages, run_writePage]
    generalize s.begun _ = begun
    have hmakes := hmakes begun
    rcases hpanels : begun.run (drawingPanels g titles 0 (pairUp drawings images))
      with ⟨e | panels, t⟩
    · rw [run_bind_of_error hpanels]
      rw [hpanels] at hmakes
      exact .unpainted t hmakes
    · rw [run_bind_of_ok hpanels]
      rw [hpanels] at hmakes
      have hcount : panels.length = drawings.length := by
        rw [← hlength, ← List.Forall₂.length_eq hmakes, List.length_zipIdx]
      have hwrites := writesSheet_run_endPage path columns panels drawingCell t
      rw [hcount] at hwrites
      generalize t.run (endPage path _) = outcome at hwrites ⊢
      cases hwrites with
      | written hsheet => exact .written himages hcount hmakes hsheet
      | unwritten e u => exact .unwritten e u
  · obtain ⟨pictures, rfl, hlength⟩ : ∃ pictures, images = some pictures ∧
        pictures.length ≠ drawings.length := by
      simpa [HasPictures] using himages
    rw [run_writeSheet_of_miscounted hne hlength]
    exact .miscounted rfl hlength s

/-- **However many columns are asked for**, every sheet can be laid out, and the pages of drawings
and of libraries are such sheets. -/
theorem sheets_laid_out (columns : Int) :
    (∀ panels : List Panel, ∃ table, Table.layOut columns panels = .ok table ∧
      Table.IsLaidOut columns panels (Grid.make panels.length columns) table) ∧
    (∀ (g : Generator) (drawings : List Drawing) (path : String) (titles : Option (List String))
      (images : Option (List Image)) (s : Session), drawings ≠ [] →
      (∀ texts ∈ titles, drawings.length ≤ texts.length) →
      EndsSheet g drawings path columns titles images
        (s.run (writeSheet g drawings path columns titles images))) ∧
    (∀ (library : Library) (path : String) (s : Session), 0 < library.count →
      WritesSheet path columns (library.shapes.map Shape.panel)
        (s.run (writeLibrarySheet library path columns))) := by
  refine ⟨Table.exists_layOut columns, fun g drawings path titles images s hne htitles =>
    endsSheet_run hne htitles g path columns images s, fun library path s hcount => ?_⟩
  unfold writeLibrarySheet
  dsimp only
  rw [if_neg hcount.ne', run_writePage, run_bind_of_ok (run_pure _ _)]
  have hpage := writesSheet_run_endPage path columns (library.shapes.map Shape.panel) shapeCell
    (s.begun (Page.inchesOfGrid (Grid.make library.count columns) shapeCell))
  rw [List.length_map] at hpage
  exact hpage

/-- Files of which there are none yet. -/
def emptyFolder : Store :=
  ⟨["w"], [(["w"], .folder)]⟩

/-- A drawing of nothing. -/
def emptyDrawing : Drawing :=
  ⟨Library.builtin, ⟨⟨20, 12, .solid Color.white, .down, by decide, by decide⟩, []⟩, none⟩

/-- Five drawings in two columns, and the built-in shapes in one. -/
theorem sheets_laid_out_emptyFolder :
    (∃ t panels, (Session.start emptyFolder).run (writeSheet Generator.zero
        (List.replicate 5 emptyDrawing) "five.png" 2 (some ["a", "b", "c", "d", "e"]) none) =
        (.ok (), t) ∧ panels.length = 5 ∧ t.HasSheet "five.png" 2 panels) ∧
    ∃ t, (Session.start emptyFolder).run (writeLibrarySheet Library.builtin "s.svg" (-1)) =
      (.ok (), t) ∧ t.HasSheet "s.svg" (-1) (Library.builtin.shapes.map Shape.panel) := by
  have hfive := (sheets_laid_out 2).2.1 Generator.zero (List.replicate 5 emptyDrawing) "five.png"
    (some ["a", "b", "c", "d", "e"]) none (Session.start emptyFolder) (by decide) (by decide)
  have hshapes := (sheets_laid_out (-1)).2.2 Library.builtin "s.svg" (Session.start emptyFolder)
    (by decide)
  have hfive' : ((Session.start emptyFolder).run (writeSheet Generator.zero
      (List.replicate 5 emptyDrawing) "five.png" 2 (some ["a", "b", "c", "d", "e"])
      none)).1.toOption = some () := by
    decide +kernel
  have hshapes' : ((Session.start emptyFolder).run
      (writeLibrarySheet Library.builtin "s.svg" (-1))).1.toOption = some () := by
    decide +kernel
  generalize (Session.start emptyFolder).run (writeSheet _ _ _ _ _ _) = five at hfive hfive' ⊢
  generalize (Session.start emptyFolder).run (writeLibrarySheet _ _ _) = shapes
    at hshapes hshapes' ⊢
  constructor
  · cases hfive with
    | written _ hlength _ hsheet => exact ⟨_, _, rfl, hlength, hsheet⟩
    | unpainted => cases hfive'
    | unwritten => cases hfive'
    | miscounted => cases hfive'
  · cases hshapes with
    | written hsheet => exact ⟨_, rfl, hsheet⟩
    | unwritten => cases hshapes'

end Session

end Stencil
