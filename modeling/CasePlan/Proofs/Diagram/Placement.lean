import CasePlan.Diagram.Layout
import Mathlib.Algebra.BigOperators.Group.List.Basic
import Mathlib.Data.List.Basic
import Mathlib.Tactic.Linarith
import Mathlib.Tactic.Ring

/-!
# Boxes side by side

What the two ways of placing boxes guarantee, for boxes of any sizes.

* `intersects_eq_false_iff`, `apart_of_intersects_eq_false`: boxes of which one ends before the
  other begins share no inner point.
* `Box.Clear`, `Box.Staggered`: there is a gap between two boxes, or even two, one between their
  columns and one between their rows.
* `alternate_staggers`, `alternate_bounds`: boxes placed alternately have a margin between their
  columns and between their rows, and stay within the sum of their sizes and margins.
* `grid_clears`, `grid_bounds`: boxes in the cells of a grid have a margin between them, and lie to
  the right of and below its corner.
-/

namespace CasePlan

/-! ## Boxes -/

namespace Box

/-- One box lies inside another, borders included. -/
structure Within (a b : Box Rat) : Prop where
  /-- It does not begin further to the left. -/
  left : b.x ≤ a.x
  /-- It does not begin further up. -/
  top : b.y ≤ a.y
  /-- It does not end further to the right. -/
  right : a.x + a.width ≤ b.x + b.width
  /-- It does not end further down. -/
  bottom : a.y + a.height ≤ b.y + b.height

/-- A point lies inside a box, and not on its border. -/
structure Encloses (b : Box Rat) (p : Point Rat) : Prop where
  /-- It lies to the right of the left edge. -/
  left : b.x < p.x
  /-- It lies to the left of the right edge. -/
  right : p.x < b.x + b.width
  /-- It lies below the top edge. -/
  top : b.y < p.y
  /-- It lies above the bottom edge. -/
  bottom : p.y < b.y + b.height

/-- No point lies inside both boxes. -/
def Apart (a b : Box Rat) : Prop := ∀ p, ¬(a.Encloses p ∧ b.Encloses p)

theorem intersects_eq_false_iff {a b : Box Rat} :
    a.intersects b = false ↔
      a.x + a.width ≤ b.x ∨ b.x + b.width ≤ a.x ∨
        a.y + a.height ≤ b.y ∨ b.y + b.height ≤ a.y := by
  rw [intersects, Bool.not_eq_false']
  simp only [Coordinate.atMost, Bool.or_eq_true, decide_eq_true_eq, or_assoc]
  rfl

theorem apart_of_intersects_eq_false {a b : Box Rat} (h : a.intersects b = false) : a.Apart b := by
  rintro p ⟨ha, hb⟩
  have h1 := ha.left
  have h2 := ha.right
  have h3 := ha.top
  have h4 := ha.bottom
  have h5 := hb.left
  have h6 := hb.right
  have h7 := hb.top
  have h8 := hb.bottom
  rcases intersects_eq_false_iff.1 h with h | h | h | h <;> linarith

theorem Within.encloses {a b : Box Rat} (h : a.Within b) {p : Point Rat} (hp : a.Encloses p) :
    b.Encloses p where
  left := lt_of_le_of_lt h.left hp.left
  right := lt_of_lt_of_le hp.right h.right
  top := lt_of_le_of_lt h.top hp.top
  bottom := lt_of_lt_of_le hp.bottom h.bottom

/-- What lies inside boxes that are apart is apart. -/
theorem Apart.of_within {a b c d : Box Rat} (h : b.Apart d) (hab : a.Within b)
    (hcd : c.Within d) : a.Apart c :=
  fun p ⟨ha, hc⟩ => h p ⟨hab.encloses ha, hcd.encloses hc⟩

/-! ## Gaps -/

/-- One of two boxes ends a gap before the other begins, seen from the left. -/
def Beside (a b : Box Rat) (gap : Rat) : Prop :=
  a.x + a.width + gap ≤ b.x ∨ b.x + b.width + gap ≤ a.x

/-- One of two boxes ends a gap before the other begins, seen from the top. -/
def Stacked (a b : Box Rat) (gap : Rat) : Prop :=
  a.y + a.height + gap ≤ b.y ∨ b.y + b.height + gap ≤ a.y

/-- There is a gap between the columns of two boxes or between their rows. -/
def Clear (a b : Box Rat) (gap : Rat) : Prop := a.Beside b gap ∨ a.Stacked b gap

/-- There is a gap between the columns of two boxes and between their rows. -/
def Staggered (a b : Box Rat) (gap : Rat) : Prop := a.Beside b gap ∧ a.Stacked b gap

variable {a b : Box Rat} {gap : Rat}

theorem Beside.symm (h : a.Beside b gap) : b.Beside a gap := Or.symm h

theorem Stacked.symm (h : a.Stacked b gap) : b.Stacked a gap := Or.symm h

theorem Clear.symm (h : a.Clear b gap) : b.Clear a gap := h.imp Beside.symm Stacked.symm

theorem Staggered.symm (h : a.Staggered b gap) : b.Staggered a gap := ⟨h.1.symm, h.2.symm⟩

theorem Staggered.clear (h : a.Staggered b gap) : a.Clear b gap := .inl h.1

theorem Clear.intersects_eq_false (h : a.Clear b gap) (hgap : 0 ≤ gap) : a.intersects b = false := by
  rw [intersects_eq_false_iff]
  rcases h with (h | h) | (h | h)
  · exact .inl (by linarith)
  · exact .inr (.inl (by linarith))
  · exact .inr (.inr (.inl (by linarith)))
  · exact .inr (.inr (.inr (by linarith)))

theorem Clear.apart (h : a.Clear b gap) (hgap : 0 ≤ gap) : a.Apart b :=
  apart_of_intersects_eq_false (h.intersects_eq_false hgap)

/-- A box with a border around it. -/
def grow (b : Box Rat) (border : Rat) : Box Rat :=
  ⟨b.x - border, b.y - border, b.width + 2 * border, b.height + 2 * border⟩

/-- A box lies inside what it lies inside with a border. -/
theorem Within.of_grow {border : Rat} (h : (a.grow border).Within b) (hborder : 0 ≤ border) :
    a.Within b := by
  obtain ⟨hl, ht, hr, hb⟩ := h
  simp only [grow] at hl ht hr hb
  constructor <;> linarith

end Box

namespace Layout

/-! ## Sums of sizes -/

@[simp] theorem span_nil : span [] = 0 := rfl

theorem span_cons (s : Rat) (sizes : List Rat) : span (s :: sizes) = s + margin + span sizes := rfl

theorem span_append (xs ys : List Rat) : span (xs ++ ys) = span xs + span ys := by
  induction xs with
  | nil => simp
  | cons x xs ih =>
    rw [List.cons_append, span_cons, span_cons, ih]
    ring

theorem span_nonneg {sizes : List Rat} (h : ∀ s ∈ sizes, 0 ≤ s) : 0 ≤ span sizes := by
  induction sizes with
  | nil => exact le_refl 0
  | cons s sizes ih =>
    have hs := h s (by simp)
    have hrest := ih fun s hs => h s (by simp [hs])
    rw [span_cons, margin]
    push_cast
    linarith

/-- The sizes before a place, and the size there, with their margins. -/
theorem span_take_succ {sizes : List Rat} {i : Nat} (h : i < sizes.length) :
    span (sizes.take (i + 1)) = span (sizes.take i) + sizes[i] + margin := by
  rw [List.take_succ_eq_append_getElem h, span_append, span_cons, span_nil]
  ring

theorem span_take_le_span {sizes : List Rat} (h : ∀ s ∈ sizes, 0 ≤ s) (i : Nat) :
    span (sizes.take i) ≤ span sizes := by
  have hdrop : 0 ≤ span (sizes.drop i) := span_nonneg fun s hs => h s (List.mem_of_mem_drop hs)
  calc span (sizes.take i) ≤ span (sizes.take i) + span (sizes.drop i) := by linarith
    _ = span sizes := by rw [← span_append, List.take_append_drop]

theorem span_take_mono {sizes : List Rat} (h : ∀ s ∈ sizes, 0 ≤ s) {i j : Nat} (hij : i ≤ j) :
    span (sizes.take i) ≤ span (sizes.take j) := by
  have hle : span ((sizes.take j).take i) ≤ span (sizes.take j) :=
    span_take_le_span (fun s hs => h s (List.mem_of_mem_take hs)) i
  rwa [List.take_take, Nat.min_eq_left hij] at hle

/-- The sizes at some places, without one of them, leave room for that one. -/
theorem span_filter_add_le {sizes : List (Rat × Nat)} (h : ∀ s ∈ sizes, 0 ≤ s.1)
    {p : Rat × Nat → Bool} {s : Rat × Nat} (hs : s ∈ sizes) (hp : p s = false) :
    span ((sizes.filter p).map Prod.fst) + s.1 + margin ≤ span (sizes.map Prod.fst) := by
  induction sizes with
  | nil => simp at hs
  | cons t sizes ih =>
    have ht := h t (by simp)
    have hrest : ∀ s ∈ sizes, 0 ≤ s.1 := fun s hs => h s (by simp [hs])
    have hle : span ((sizes.filter p).map Prod.fst) ≤ span (sizes.map Prod.fst) := by
      clear ih hs h
      induction sizes with
      | nil => exact le_refl _
      | cons u sizes ih =>
        have hu := hrest u (by simp)
        have ih := ih fun s hs => hrest s (by simp [hs])
        cases hpu : p u
        · rw [List.filter_cons_of_neg (by simp [hpu]), List.map_cons, span_cons, margin]
          push_cast
          linarith
        · rw [List.filter_cons_of_pos hpu, List.map_cons, List.map_cons, span_cons, span_cons]
          linarith
    rcases List.mem_cons.1 hs with rfl | hs
    · rw [List.filter_cons_of_neg (by simp [hp]), List.map_cons, span_cons]
      linarith
    · have ih := ih hrest hs
      cases hpt : p t
      · rw [List.filter_cons_of_neg (by simp [hpt]), List.map_cons, span_cons, margin]
        rw [margin] at ih
        push_cast at ih ⊢
        linarith
      · rw [List.filter_cons_of_pos hpt, List.map_cons, List.map_cons, span_cons, span_cons]
        linarith

/-- The sizes at some places leave room for one more size among those at more places. -/
theorem span_filter_add_le_filter {sizes : List (Rat × Nat)} (h : ∀ s ∈ sizes, 0 ≤ s.1)
    {p q : Rat × Nat → Bool} (hpq : ∀ s, p s = true → q s = true) {s : Rat × Nat} (hs : s ∈ sizes)
    (hp : p s = false) (hq : q s = true) :
    span ((sizes.filter p).map Prod.fst) + s.1 + margin ≤ span ((sizes.filter q).map Prod.fst) := by
  have hle := span_filter_add_le (fun s hs => h s (List.mem_of_mem_filter hs))
    (List.mem_filter.2 ⟨hs, hq⟩) hp
  rw [List.filter_filter] at hle
  rwa [List.filter_congr fun t _ => show (p t && q t) = p t by
    cases ht : p t <;> simp [hpq t, ht]] at hle

/-! ## Boxes from corners -/

/-- The boxes of given corners and sizes. -/
def boxes (corners : List (Point Rat)) (sizes : List (Rat × Rat)) : List (Box Rat) :=
  List.zipWith (fun c s => ⟨c.x, c.y, s.1, s.2⟩) corners sizes

/-- No size is negative. -/
def Sized (sizes : List (Rat × Rat)) : Prop := ∀ s ∈ sizes, 0 ≤ s.1 ∧ 0 ≤ s.2

/-! ## Placing alternately -/

theorem above_self (i : Nat) : above i i = false := by
  unfold above
  split <;> simp [*]

theorem length_boxes_alternate (origin : Point Rat) (sizes : List (Rat × Rat)) :
    (boxes (alternate origin sizes) sizes).length = sizes.length := by
  simp [boxes, alternate]

/-- Where box number `i` is placed. -/
theorem getElem_boxes_alternate {origin : Point Rat} {sizes : List (Rat × Rat)} {i : Nat}
    (h : i < (boxes (alternate origin sizes) sizes).length) (hi : i < sizes.length) :
    (boxes (alternate origin sizes) sizes)[i] =
      ⟨origin.x + span ((sizes.map Prod.fst).take i) + margin,
        origin.y + span ((sizes.zipIdx.filter fun s => above s.2 i).map (·.1.2)) + margin,
        sizes[i].1, sizes[i].2⟩ := by
  simp [boxes, alternate, List.map_take]

/-- Of two places one is stacked above the other. -/
theorem above_or_above {i j : Nat} (h : i ≠ j) : above i j = true ∨ above j i = true := by
  unfold above
  grind

theorem above_trans {i j k : Nat} (hij : above i j = true) (hjk : above j k = true) :
    above i k = true := by
  unfold above at *
  grind

/-- Of boxes that are placed alternately each begins a margin to the right of those before it. -/
theorem alternate_beside {origin : Point Rat} {sizes : List (Rat × Rat)} (hs : Sized sizes)
    {i j : Nat} (hi : i < (boxes (alternate origin sizes) sizes).length)
    (hj : j < (boxes (alternate origin sizes) sizes).length) (hij : i < j) :
    (boxes (alternate origin sizes) sizes)[i].Beside (boxes (alternate origin sizes) sizes)[j]
      margin := by
  have hi' : i < sizes.length := length_boxes_alternate origin sizes ▸ hi
  have hj' : j < sizes.length := length_boxes_alternate origin sizes ▸ hj
  have hw : ∀ w ∈ sizes.map Prod.fst, 0 ≤ w := by
    intro w hw
    obtain ⟨s, hmem, rfl⟩ := List.mem_map.1 hw
    exact (hs s hmem).1
  have hstep := span_take_succ (show i < (sizes.map Prod.fst).length by simpa using hi')
  have hmono := span_take_mono hw (show i + 1 ≤ j from hij)
  rw [List.getElem_map] at hstep
  rw [getElem_boxes_alternate hi hi', getElem_boxes_alternate hj hj']
  refine .inl ?_
  rw [margin] at *
  push_cast at *
  linarith

/-- The heights of boxes with their places. -/
theorem heights_nonneg {sizes : List (Rat × Rat)} (hs : Sized sizes) :
    ∀ s ∈ sizes.zipIdx.map fun s => (s.1.2, s.2), 0 ≤ s.1 := by
  intro s hmem
  obtain ⟨t, ht, rfl⟩ := List.mem_map.1 hmem
  exact (hs t.1 (List.fst_mem_of_mem_zipIdx ht)).2

theorem mem_heights {sizes : List (Rat × Rat)} {i : Nat} (hi : i < sizes.length) :
    (sizes[i].2, i) ∈ sizes.zipIdx.map fun s => (s.1.2, s.2) :=
  List.mem_map.2 ⟨(sizes[i], i), List.mem_zipIdx_iff_getElem?.2 (by simp [hi]), rfl⟩

/-- Of boxes that are placed alternately each begins a margin below those stacked above it: what is
stacked above the upper one is so above the lower one, which has that one above it besides. -/
theorem alternate_stacked {origin : Point Rat} {sizes : List (Rat × Rat)} (hs : Sized sizes)
    {i j : Nat} (hi : i < (boxes (alternate origin sizes) sizes).length)
    (hj : j < (boxes (alternate origin sizes) sizes).length) (hij : above i j = true) :
    (boxes (alternate origin sizes) sizes)[i].Stacked (boxes (alternate origin sizes) sizes)[j]
      margin := by
  have hi' : i < sizes.length := length_boxes_alternate origin sizes ▸ hi
  have hj' : j < sizes.length := length_boxes_alternate origin sizes ▸ hj
  have hroom := span_filter_add_le_filter (heights_nonneg hs) (p := fun s => above s.2 i)
    (q := fun s => above s.2 j) (fun _ h => above_trans h hij) (mem_heights hi') (above_self i) hij
  simp only [List.filter_map, List.map_map, Function.comp_def] at hroom
  rw [getElem_boxes_alternate hi hi', getElem_boxes_alternate hj hj']
  refine .inl ?_
  rw [margin] at *
  push_cast at *
  linarith

/-- Boxes that are placed alternately have a margin between their columns and their rows. -/
theorem alternate_staggers (origin : Point Rat) {sizes : List (Rat × Rat)} (hs : Sized sizes) :
    (boxes (alternate origin sizes) sizes).Pairwise fun a b => a.Staggered b margin := by
  rw [List.pairwise_iff_getElem]
  intro i j hi hj hij
  refine ⟨alternate_beside hs hi hj hij, ?_⟩
  rcases above_or_above hij.ne with h | h
  · exact alternate_stacked hs hi hj h
  · exact (alternate_stacked hs hj hi h).symm

/-- Boxes that are placed alternately keep a margin to the origin and end within the sum of all
sizes and margins. -/
theorem alternate_bounds {origin : Point Rat} {sizes : List (Rat × Rat)} (hs : Sized sizes)
    {b : Box Rat} (hb : b ∈ boxes (alternate origin sizes) sizes) :
    b.Within ⟨origin.x, origin.y, span (sizes.map Prod.fst), span (sizes.map Prod.snd)⟩ ∧
      origin.x + margin ≤ b.x ∧ origin.y + margin ≤ b.y := by
  obtain ⟨i, hi, rfl⟩ := List.getElem_of_mem hb
  have hi' : i < sizes.length := length_boxes_alternate origin sizes ▸ hi
  have hw : ∀ w ∈ sizes.map Prod.fst, 0 ≤ w := by
    intro w hw
    obtain ⟨s, hmem, rfl⟩ := List.mem_map.1 hw
    exact (hs s hmem).1
  -- the boxes above box `i` leave room for box `i` itself
  have hroom := span_filter_add_le (heights_nonneg hs) (p := fun s => above s.2 i) (mem_heights hi')
    (above_self i)
  simp only [List.filter_map, List.map_map, Function.comp_def] at hroom
  have htotal : sizes.zipIdx.map (fun s => s.1.2) = sizes.map Prod.snd := by
    rw [show (fun s : (Rat × Rat) × Nat => s.1.2) = Prod.snd ∘ Prod.fst from rfl, ← List.map_map,
      List.zipIdx_map_fst]
  rw [htotal] at hroom
  have hstep := span_take_succ (show i < (sizes.map Prod.fst).length by simpa using hi')
  have hle := span_take_le_span hw (i + 1)
  have hx : 0 ≤ span ((sizes.map Prod.fst).take i) :=
    span_nonneg fun s hs => hw s (List.mem_of_mem_take hs)
  have hy : 0 ≤ span ((sizes.zipIdx.filter fun s => above s.2 i).map (·.1.2)) := by
    refine span_nonneg fun s hmem => ?_
    obtain ⟨t, ht, rfl⟩ := List.mem_map.1 hmem
    exact (hs t.1 (List.fst_mem_of_mem_zipIdx (List.mem_of_mem_filter ht))).2
  rw [List.getElem_map] at hstep
  rw [getElem_boxes_alternate hi hi']
  refine ⟨⟨?_, ?_, ?_, ?_⟩, ?_, ?_⟩ <;> simp only [margin] at * <;> push_cast at * <;> linarith

/-! ## Placing in a grid -/

theorem le_foldl_greater (numbers : List Rat) (p : Rat) :
    p ≤ numbers.foldl (fun p q => if p ≤ q then q else p) p ∧
      ∀ q ∈ numbers, q ≤ numbers.foldl (fun p q => if p ≤ q then q else p) p := by
  induction numbers generalizing p with
  | nil => simp
  | cons q numbers ih =>
    obtain ⟨hfirst, hrest⟩ := ih (if p ≤ q then q else p)
    have hp : p ≤ if p ≤ q then q else p := by split <;> simp [*]
    have hq : q ≤ if p ≤ q then q else p := by
      split
      · exact le_refl q
      · next h => exact le_of_not_ge h
    refine ⟨hp.trans hfirst, fun r hr => ?_⟩
    rcases List.mem_cons.1 hr with rfl | hr
    · exact hq.trans hfirst
    · exact hrest r hr

theorem le_greatest {numbers : List Rat} {q : Rat} (h : q ∈ numbers) : q ≤ greatest numbers :=
  (le_foldl_greater numbers 0).2 q h

theorem greatest_nonneg (numbers : List Rat) : 0 ≤ greatest numbers :=
  (le_foldl_greater numbers 0).1

theorem length_boxes_gridCorners (sizes : List (Rat × Rat)) :
    (boxes (gridCorners sizes) sizes).length = sizes.length := by
  simp [boxes, gridCorners]

/-- Where box number `i` of a grid is placed. -/
theorem getElem_boxes_gridCorners {sizes : List (Rat × Rat)} {i : Nat}
    (h : i < (boxes (gridCorners sizes) sizes).length) (hi : i < sizes.length) :
    (boxes (gridCorners sizes) sizes)[i] =
      ⟨120 + ((i % columns sizes.length : Nat) : Rat) * (greatest (sizes.map Prod.fst) + 60),
        150 + ((i / columns sizes.length : Nat) : Rat) * (greatest (sizes.map Prod.snd) + 70),
        sizes[i].1, sizes[i].2⟩ := by
  simp [boxes, gridCorners]

/-- A box in an earlier column or row ends a margin before a box in a later one begins. -/
theorem cell_clears {m n : Nat} (h : m < n) {size pitch gap : Rat} (hgap : margin ≤ gap)
    (hsize : size ≤ pitch) (hpitch : 0 ≤ pitch) (start : Rat) :
    start + (m : Rat) * (pitch + gap) + size + margin ≤ start + (n : Rat) * (pitch + gap) := by
  have hcast : (m : Rat) + 1 ≤ n := by exact_mod_cast h
  have hpos : 0 ≤ pitch + gap := add_nonneg hpitch ((Nat.cast_nonneg margin).trans hgap)
  have hmul : ((m : Rat) + 1) * (pitch + gap) ≤ n * (pitch + gap) :=
    mul_le_mul_of_nonneg_right hcast hpos
  linarith

/-- Boxes in the cells of a grid have a margin between them: two cells differ in their columns or
rows. -/
theorem grid_clears (sizes : List (Rat × Rat)) :
    (boxes (gridCorners sizes) sizes).Pairwise fun a b => a.Clear b margin := by
  rw [List.pairwise_iff_getElem]
  intro i j hi hj hij
  have hi' : i < sizes.length := length_boxes_gridCorners sizes ▸ hi
  have hj' : j < sizes.length := length_boxes_gridCorners sizes ▸ hj
  have hwidth : ∀ k (hk : k < sizes.length), sizes[k].1 ≤ greatest (sizes.map Prod.fst) :=
    fun k hk => le_greatest (List.mem_map.2 ⟨_, List.getElem_mem hk, rfl⟩)
  have hheight : sizes[i].2 ≤ greatest (sizes.map Prod.snd) :=
    le_greatest (List.mem_map.2 ⟨_, List.getElem_mem hi', rfl⟩)
  have hx := greatest_nonneg (sizes.map Prod.fst)
  have hy := greatest_nonneg (sizes.map Prod.snd)
  rw [getElem_boxes_gridCorners hi hi', getElem_boxes_gridCorners hj hj']
  have hdiv : i / columns sizes.length ≤ j / columns sizes.length :=
    Nat.div_le_div_right hij.le
  rcases hdiv.lt_or_eq with hrow | hrow
  · exact .inr (.inl (cell_clears hrow (by norm_num [margin]) hheight hy 150))
  · rcases Nat.lt_trichotomy (i % columns sizes.length) (j % columns sizes.length) with
      hcol | hcol | hcol
    · exact .inl (.inl (cell_clears hcol (by norm_num [margin]) (hwidth i hi') hx 120))
    · have hi'' := Nat.div_add_mod i (columns sizes.length)
      have hj'' := Nat.div_add_mod j (columns sizes.length)
      rw [hrow, hcol] at hi''
      omega
    · exact .inl (.inr (cell_clears hcol (by norm_num [margin]) (hwidth j hj') hx 120))

/-- Boxes in the cells of a grid begin at its corner or beyond. -/
theorem grid_bounds {sizes : List (Rat × Rat)} {b : Box Rat}
    (hb : b ∈ boxes (gridCorners sizes) sizes) : 120 ≤ b.x ∧ 150 ≤ b.y := by
  obtain ⟨i, hi, rfl⟩ := List.getElem_of_mem hb
  have hi' : i < sizes.length := length_boxes_gridCorners sizes ▸ hi
  have hx := greatest_nonneg (sizes.map Prod.fst)
  have hy := greatest_nonneg (sizes.map Prod.snd)
  rw [getElem_boxes_gridCorners hi hi']
  constructor
  · have h : 0 ≤ ((i % columns sizes.length : Nat) : Rat) * (greatest (sizes.map Prod.fst) + 60) :=
      mul_nonneg (Nat.cast_nonneg _) (by linarith)
    show (120 : Rat) ≤ 120 + _
    linarith
  · have h : 0 ≤ ((i / columns sizes.length : Nat) : Rat) * (greatest (sizes.map Prod.snd) + 70) :=
      mul_nonneg (Nat.cast_nonneg _) (by linarith)
    show (150 : Rat) ≤ 150 + _
    linarith

end Layout

end CasePlan
