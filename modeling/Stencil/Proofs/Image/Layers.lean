import Stencil.Proofs.Drawing.Painting
import Stencil.Surface.Raster

/-!
# Proofs/Image/Layers — the colour of a pixel under many layers

    white ◂─ mark 0 ◂─ mark 1 ◂─ … ◂─ mark n        a pixel is coloured by the last that covers it

The picture that marks leave on pixels is the one they cover one after the other
(`Surface.Raster.image_replay`), so a pixel has the colour of the last mark that covers it
(`Image.pixel_covered_range`).  An upright rectangle, filled, covers the pixels from its left to its
right side and from its upper to its lower one, all four included (`Outline.covers_box_iff`).
-/

namespace Stencil

/-! ## Rectangles -/

namespace Vertex

variable {a b c : Int} {p : Vertex}

/-- No half line along the first axis meets a level edge. -/
theorem meets_level : meets ⟨a, c⟩ ⟨b, c⟩ p = false := by
  rw [meets, if_neg (by simp), if_neg (by simp)]

/-- The half line goes to the left: it meets an upright edge on that side. -/
theorem meets_down (h : b ≤ c) :
    meets ⟨a, b⟩ ⟨a, c⟩ p = true ↔ (b ≤ p.y ∧ p.y < c) ∧ a < p.x := by
  rw [meets]
  by_cases hy : b ≤ p.y ∧ p.y < c
  · have hpos : 0 < (c - b) * (p.x - a) ↔ 0 < p.x - a := mul_pos_iff_of_pos_left (by omega)
    rw [if_pos (by simpa using hy), decide_eq_true_eq, cross, Int.sub_self, Int.zero_mul,
      Int.zero_sub, Int.neg_neg, hpos]
    omega
  · rw [if_neg (by simpa using hy), if_neg (by simp; omega)]
    simp [hy]

theorem meets_up (h : b ≤ c) :
    meets ⟨a, c⟩ ⟨a, b⟩ p = true ↔ (b ≤ p.y ∧ p.y < c) ∧ a < p.x := by
  rw [meets, if_neg (by simp; omega)]
  by_cases hy : b ≤ p.y ∧ p.y < c
  · have hpos : 0 < (c - b) * (p.x - a) ↔ 0 < p.x - a := mul_pos_iff_of_pos_left (by omega)
    have hcross : cross ⟨a, c⟩ ⟨a, b⟩ p = (c - b) * (p.x - a) := by
      rw [cross, Int.sub_self, Int.zero_mul, Int.zero_sub, ← Int.neg_mul, Int.neg_sub]
    rw [if_pos (by simpa using hy), decide_eq_true_eq, hcross, hpos]
    omega
  · rw [if_neg (by simpa using hy)]
    simp [hy]

theorem onEdge_level :
    onEdge ⟨a, c⟩ ⟨b, c⟩ p = true ↔ (min a b ≤ p.x ∧ p.x ≤ max a b) ∧ p.y = c := by
  simp only [onEdge, cross, Bool.and_eq_true, decide_eq_true_eq]
  constructor
  · omega
  · rintro ⟨hx, rfl⟩
    simp [hx]

theorem onEdge_upright :
    onEdge ⟨c, a⟩ ⟨c, b⟩ p = true ↔ p.x = c ∧ min a b ≤ p.y ∧ p.y ≤ max a b := by
  simp only [onEdge, cross, Bool.and_eq_true, decide_eq_true_eq]
  constructor
  · omega
  · rintro ⟨rfl, hy⟩
    simp [hy]

end Vertex

namespace Outline

variable {left top right bottom : Int} {p : Vertex}

/-- **The upright rectangle** with these sides. -/
def box (left top right bottom : Int) : Outline :=
  [⟨left, top⟩, ⟨right, top⟩, ⟨right, bottom⟩, ⟨left, bottom⟩]

theorem shifted_box (dx dy : Int) : (box left top right bottom).shifted dx dy =
    box (left + dx) (top + dy) (right + dx) (bottom + dy) := rfl

theorem edges_box : (box left top right bottom).edges =
    [(⟨left, top⟩, ⟨right, top⟩), (⟨right, top⟩, ⟨right, bottom⟩),
      (⟨right, bottom⟩, ⟨left, bottom⟩), (⟨left, bottom⟩, ⟨left, top⟩)] := rfl

theorem onEdges_box_iff (hx : left ≤ right) (hy : top ≤ bottom) :
    (box left top right bottom).onEdges p = true ↔
      (left ≤ p.x ∧ p.x ≤ right ∧ top ≤ p.y ∧ p.y ≤ bottom) ∧
        (p.x = left ∨ p.x = right ∨ p.y = top ∨ p.y = bottom) := by
  rw [onEdges, edges_box]
  simp only [List.any_cons, List.any_nil, Bool.or_false, Bool.or_eq_true, Vertex.onEdge_level,
    Vertex.onEdge_upright]
  omega

theorem inside_box_iff (hx : left ≤ right) (hy : top ≤ bottom) :
    (box left top right bottom).inside p = true ↔
      (left < p.x ∧ p.x ≤ right) ∧ top ≤ p.y ∧ p.y < bottom := by
  rw [inside, edges_box]
  have hright := Vertex.meets_down (a := right) (p := p) hy
  have hleft := Vertex.meets_up (a := left) (p := p) hy
  simp only [List.filter_cons, List.filter_nil, Vertex.meets_level, Bool.false_eq_true, if_false,
    hright, hleft]
  split <;> split <;> simp only [List.length_cons, List.length_nil, beq_iff_eq, true_iff] <;>
    omega

/-- **A filled rectangle covers its sides and what is between them.** -/
theorem covers_box_iff (hx : left ≤ right) (hy : top ≤ bottom) :
    (box left top right bottom).covers .filled p = true ↔
      left ≤ p.x ∧ p.x ≤ right ∧ top ≤ p.y ∧ p.y ≤ bottom := by
  rw [covers, Bool.or_eq_true, onEdges_box_iff hx hy, inside_box_iff hx hy]
  omega

end Outline

/-! ## Marks on pixels -/

namespace Image

variable {image : Image} {p : Vertex}

/-- **The picture with several marks more**, one after the other. -/
def covered (image : Image) (marks : List Mark) : Image :=
  marks.foldl cover image

@[simp] theorem covered_nil : image.covered [] = image := rfl

@[simp] theorem covered_cons (mark : Mark) (marks : List Mark) :
    image.covered (mark :: marks) = (image.cover mark).covered marks := rfl

@[simp] theorem covered_append (marks marks' : List Mark) :
    image.covered (marks ++ marks') = (image.covered marks).covered marks' :=
  List.foldl_append

@[simp] theorem size_blank (size : Size) : (blank size).size = size := rfl

@[simp] theorem size_cover (mark : Mark) : (image.cover mark).size = image.size := by
  cases mark <;> rfl

@[simp] theorem size_covered (marks : List Mark) : (image.covered marks).size = image.size := by
  induction marks generalizing image with
  | nil => rfl
  | cons mark marks ih => rw [covered_cons, ih, size_cover]

/-- **A pixel has the colour of the last mark that covers it**, or else the one it had before. -/
theorem pixel_covered_range (mark : Nat → Mark) (n : Nat) :
    (∃ k < n, (mark k).covers p = true ∧ (∀ k' < n, (mark k').covers p = true → k' ≤ k) ∧
        (image.covered ((List.range n).map mark)).pixel p = (mark k).color) ∨
      (∀ k < n, (mark k).covers p = false) ∧
        (image.covered ((List.range n).map mark)).pixel p = image.pixel p := by
  induction n with
  | zero => exact .inr ⟨fun k hk => absurd hk (Nat.not_lt_zero k), rfl⟩
  | succ n ih =>
    rw [List.range_succ, List.map_append, covered_append, List.map_singleton, covered_cons,
      covered_nil, pixel_cover]
    by_cases hlast : (mark n).covers p = true
    · rw [if_pos hlast]
      exact .inl ⟨n, Nat.lt_succ_self n, hlast, fun k' hk' _ => Nat.le_of_lt_succ hk', rfl⟩
    · rw [if_neg hlast]
      rcases ih with ⟨k, hk, hcovers, hlatest, hpixel⟩ | ⟨hnone, hpixel⟩
      · refine .inl ⟨k, Nat.lt_succ_of_lt hk, hcovers, fun k' hk' hcovers' => ?_, hpixel⟩
        rcases Nat.lt_succ_iff_lt_or_eq.mp hk' with hlt | rfl
        · exact hlatest k' hlt hcovers'
        · exact absurd hcovers' hlast
      · refine .inr ⟨fun k hk => ?_, hpixel⟩
        rcases Nat.lt_succ_iff_lt_or_eq.mp hk with hlt | rfl
        · exact hnone k hlt
        · exact Bool.eq_false_iff.mpr hlast

/-- The colour of a pixel, found where its row and its column are. -/
theorem getElem?_rows {x y : Nat} (hx : x < image.size.width) (hy : y < image.size.height) :
    image.rows[y]?.bind (fun row => row[x]?) = some (image.pixel ⟨x, y⟩) := by
  rw [rows, List.getElem?_map, List.getElem?_range hy, Option.map_some, Option.bind_some, row,
    List.getElem?_map, List.getElem?_range hx, Option.map_some]

end Image

namespace Surface.Raster

/-- A mark made on pixels covers what was there. -/
theorem image_paint {r s : Raster} {mark : Mark} (h : mark.paint r = .ok s) :
    s.image = r.image.cover mark := by
  cases mark with
  | ground color =>
    cases h
    rfl
  | polygon style color o =>
    rw [Mark.paint, polygon_eq] at h
    obtain ⟨p, hp, rfl⟩ := map_eq_ok_iff.mp h
    obtain ⟨-, -, rfl⟩ := nearVertices_eq_ok_iff.mp hp
    rfl

/-- **Marks made on pixels** cover one another in their order. -/
theorem image_replay {r s : Raster} {marks : List Mark} (h : Mark.replay r marks = .ok s) :
    s.image = r.image.covered marks := by
  induction marks generalizing r with
  | nil =>
    cases h
    rfl
  | cons mark rest ih =>
    obtain ⟨t, ht, hrest⟩ := bind_eq_ok_iff.mp h
    rw [ih hrest, image_paint ht, Image.covered_cons]

end Surface.Raster

end Stencil
