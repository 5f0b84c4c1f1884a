import CasePlan.Proofs.Diagram.Placement

/-!
# Placing boxes one after another

The alternating layout says of each box where it lies.  The same boxes are placed by a cursor that
walks over them, once to the right in their order, and once downwards in the order in which they are
stacked.

* `stacked`, `pairwise_above_stacked`: items from top to bottom.
* `walk`, `walk_eq_of_forall_split`: where a cursor puts boxes.
* `map_x_alternate`, `map_y_stacked_alternate`: the two walks of the alternating layout.
* `map_x_members`, `map_y_stacked_members`: the tasks of a stage stand at equal distances.
-/

namespace CasePlan.Layout

/-! ## The order from top to bottom -/

/-- What is made of items does not change how they are split. -/
theorem splitAlternating_map {α β : Type} (f : α → β) (items : List α) :
    splitAlternating (items.map f) =
      ((splitAlternating items).1.map f, (splitAlternating items).2.map f) := by
  simp [splitAlternating, List.zipIdx_map, List.filter_map, Function.comp_def]

/-- The two parts have every item once. -/
theorem splitAlternating_perm {α : Type} (items : List α) :
    ((splitAlternating items).1 ++ (splitAlternating items).2).Perm items := by
  have hodd : ∀ i : Nat, (!decide (i % 2 = 0)) = decide (i % 2 = 1) := by
    intro i
    rw [Bool.eq_iff_iff, Bool.not_eq_true', decide_eq_false_iff_not, decide_eq_true_eq]
    omega
  have hsplit := (List.filter_append_perm (fun s : α × Nat => s.2 % 2 = 0) items.zipIdx).map Prod.fst
  simp only [hodd, List.map_append, List.zipIdx_map_fst] at hsplit
  exact ((List.reverse_perm _).append_right _).trans hsplit

/-- Places are split into those with even numbers, in reverse, and those with odd ones. -/
theorem splitAlternating_range (n : Nat) :
    splitAlternating (List.range n) =
      (((List.range n).filter (· % 2 = 0)).reverse, (List.range n).filter (· % 2 = 1)) := by
  have hplaces : (List.range n).zipIdx = (List.range n).map fun i => (i, i) := by
    rw [List.zipIdx_eq_zip_range', List.length_range, ← List.range_eq_range', List.zip_eq_zipWith,
      List.zipWith_self]
  unfold splitAlternating
  rw [hplaces]
  simp [List.filter_map, Function.comp_def]

/-- The parts list the places from top to bottom: each is stacked above those after it. -/
theorem pairwise_above_splitAlternating (n : Nat) :
    ((splitAlternating (List.range n)).1 ++ (splitAlternating (List.range n)).2).Pairwise
      fun j i => above j i = true := by
  have hrange : (List.range n).Pairwise (· < ·) := List.pairwise_lt_range
  rw [splitAlternating_range, List.pairwise_append, List.pairwise_reverse]
  refine ⟨?even, ?odd, ?across⟩
  case even =>
    refine (hrange.filter _).imp_of_mem fun {j i} hj hi hji => ?_
    have hj := of_decide_eq_true (List.mem_filter.1 hj).2
    have hi := of_decide_eq_true (List.mem_filter.1 hi).2
    simp [above, hj, hi, hji]
  case odd =>
    refine (hrange.filter _).imp_of_mem fun {j i} _ hi hji => ?_
    have hi := of_decide_eq_true (List.mem_filter.1 hi).2
    simp [above, hi, hji]
  case across =>
    intro j hj i hi
    have hj := of_decide_eq_true (List.mem_filter.1 (List.mem_reverse.1 hj)).2
    have hi := of_decide_eq_true (List.mem_filter.1 hi).2
    simp [above, hj, hi]

/-- Items from top to bottom. -/
def stacked {α : Type} (items : List α) : List α :=
  (splitAlternating items).1 ++ (splitAlternating items).2

theorem stacked_map {α β : Type} (f : α → β) (items : List α) :
    stacked (items.map f) = (stacked items).map f := by
  rw [stacked, splitAlternating_map, stacked, List.map_append]

/-- Each item is stacked above those after it. -/
theorem pairwise_above_stacked {α : Type} (items : List α) :
    (stacked items.zipIdx).Pairwise fun s t => above s.2 t.2 = true := by
  have h : (stacked (List.range items.length)).Pairwise fun j i => above j i = true :=
    pairwise_above_splitAlternating items.length
  rw [List.range_eq_range', ← List.zipIdx_map_snd 0 items, stacked_map, List.pairwise_map] at h
  exact h

/-- Stacked above an item are those before it. -/
theorem filter_above_perm {α : Type} {items : List α} {before after : List (α × Nat)} {s : α × Nat}
    (h : stacked items.zipIdx = before ++ s :: after) :
    (items.zipIdx.filter fun t => above t.2 s.2).Perm before := by
  have hpairwise := pairwise_above_stacked items
  rw [h, List.pairwise_append, List.pairwise_cons] at hpairwise
  obtain ⟨-, ⟨hafter, -⟩, hbefore⟩ := hpairwise
  have hperm : (items.zipIdx.filter fun t => above t.2 s.2).Perm
      ((stacked items.zipIdx).filter fun t => above t.2 s.2) :=
    (splitAlternating_perm items.zipIdx).symm.filter _
  have hbelow : ∀ t ∈ s :: after, ¬above t.2 s.2 = true := by
    refine List.forall_mem_cons.2 ⟨by simp [above_self], fun t ht habove => ?_⟩
    have hself := above_trans habove (hafter t ht)
    rw [above_self] at hself
    cases hself
  rw [h, List.filter_append, List.filter_eq_nil_iff.2 hbelow, List.append_nil,
    List.filter_eq_self.2 fun t ht => hbefore t ht s List.mem_cons_self] at hperm
  exact hperm

/-! ## Walks -/

/-- Where a cursor puts boxes of some sizes: it leaves a margin before each, and goes on at its end. -/
def walk (cursor : Rat) : List Rat → List Rat
  | [] => []
  | size :: rest => (cursor + margin) :: walk (cursor + (size + margin)) rest

theorem span_perm {xs ys : List Rat} (h : xs.Perm ys) : span xs = span ys := by
  induction h with
  | nil => rfl
  | cons x _ ih => rw [span_cons, span_cons, ih]
  | swap x y xs =>
    simp only [span_cons]
    ring
  | trans _ _ ih ih' => exact ih.trans ih'

/-- A cursor puts each box a margin after all that come before it. -/
theorem walk_eq_of_forall_split {α : Type} {size place : α → Rat} {cursor : Rat} {items : List α}
    (h : ∀ before s after, items = before ++ s :: after →
      place s = cursor + span (before.map size) + margin) :
    walk cursor (items.map size) = items.map place := by
  induction items generalizing cursor with
  | nil => rfl
  | cons s rest ih =>
    have hs := h [] s rest rfl
    rw [List.map_nil, span_nil, add_zero] at hs
    rw [List.map_cons, List.map_cons, walk, hs]
    refine congrArg _ (ih fun before t after hsplit => ?_)
    rw [h (s :: before) t after (by rw [hsplit, List.cons_append]), List.map_cons, span_cons]
    ring

/-- Before an item with its place stand those at the places before. -/
theorem map_fst_eq_take {α : Type} {items : List α} {before after : List (α × Nat)} {s : α × Nat}
    (h : items.zipIdx = before ++ s :: after) : before.map Prod.fst = items.take s.2 := by
  obtain ⟨xs, ys, rfl, rfl, hrest⟩ := List.zipIdx_eq_append_iff.1 h
  obtain ⟨y, zs, rfl, rfl, -⟩ := List.zipIdx_eq_cons_iff.1 hrest.symm
  rw [List.zipIdx_map_fst, Nat.zero_add, List.take_left]

/-- The alternating layout steps to the right over its boxes. -/
theorem map_x_alternate (origin : Point Rat) (sizes : List (Rat × Rat)) :
    (alternate origin sizes).map (·.x) = walk origin.x (sizes.map Prod.fst) := by
  have hwidths : sizes.map Prod.fst = sizes.zipIdx.map (·.1.1) := by
    conv_lhs => rw [← List.zipIdx_map_fst 0 sizes, List.map_map]
    rfl
  rw [hwidths, alternate, List.map_map]
  refine (walk_eq_of_forall_split fun before s after hsplit => ?_).symm
  show origin.x + span ((sizes.take s.2).map Prod.fst) + margin = _
  rw [← map_fst_eq_take hsplit, List.map_map]
  rfl

/-- It steps downwards over its boxes from top to bottom. -/
theorem map_y_stacked_alternate (origin : Point Rat) (sizes : List (Rat × Rat)) :
    (stacked (alternate origin sizes)).map (·.y) = walk origin.y ((stacked sizes).map Prod.snd) := by
  have hheights : (stacked sizes).map Prod.snd = (stacked sizes.zipIdx).map (·.1.2) := by
    conv_lhs => rw [← List.zipIdx_map_fst 0 sizes, stacked_map, List.map_map]
    rfl
  rw [hheights, alternate, stacked_map, List.map_map]
  refine (walk_eq_of_forall_split fun before s after hsplit => ?_).symm
  show origin.y + span ((sizes.zipIdx.filter fun t => above t.2 s.2).map (·.1.2)) + margin = _
  rw [span_perm ((filter_above_perm hsplit).map (·.1.2))]

/-! ## Boxes of one size -/

/-- A cursor puts boxes of one size at equal distances. -/
theorem walk_replicate (cursor size : Rat) (n : Nat) :
    walk cursor (List.replicate n size) =
      (List.range n).map fun k : Nat => cursor + ((k : Rat) * size + ((k : Rat) + 1) * margin) := by
  induction n generalizing cursor with
  | zero => rfl
  | succ n ih =>
    rw [List.replicate_succ, walk, ih, List.range_succ_eq_map, List.map_cons, List.map_map]
    refine congrArg₂ _ ?_ (List.map_congr_left fun k _ => ?_)
    · rw [Nat.cast_zero]
      ring
    · show _ = cursor + (((k + 1 : Nat) : Rat) * size + (((k + 1 : Nat) : Rat) + 1) * margin)
      rw [Nat.cast_add, Nat.cast_one]
      ring

theorem stacked_replicate {α : Type} (n : Nat) (a : α) :
    stacked (List.replicate n a) = List.replicate n a :=
  List.perm_replicate.1 (splitAlternating_perm (List.replicate n a))

/-- The tasks of a stage have the corners that are computed for boxes of their size. -/
theorem map_corner_members (logic : Logic) (s : Stage) (origin : Point Rat) :
    (members logic s origin).map (fun n => (⟨n.box.x, n.box.y⟩ : Point Rat)) =
      alternate origin (List.replicate s.members.length ((taskWidth : Rat), (taskHeight : Rat))) := by
  unfold members
  rw [List.map_const', List.map_map]
  refine (List.map_snd_zip ?_ : _ = alternate origin _)
  rw [alternate, List.length_map, List.length_zipIdx, List.length_replicate]

/-- The tasks of a stage stand side by side, in the order in which the stage has them. -/
theorem map_x_members (logic : Logic) (s : Stage) (origin : Point Rat) :
    (members logic s origin).map (·.box.x) =
      (List.range s.members.length).map fun k : Nat =>
        origin.x + ((k : Rat) * taskWidth + ((k : Rat) + 1) * margin) := by
  have h := congrArg (List.map (·.x)) (map_corner_members logic s origin)
  rw [map_x_alternate, List.map_replicate, walk_replicate, List.map_map] at h
  exact h

/-- They stand one below the other, from top to bottom. -/
theorem map_y_stacked_members (logic : Logic) (s : Stage) (origin : Point Rat) :
    (stacked (members logic s origin)).map (·.box.y) =
      (List.range s.members.length).map fun k : Nat =>
        origin.y + ((k : Rat) * taskHeight + ((k : Rat) + 1) * margin) := by
  have h := congrArg (fun corners => (stacked corners).map (·.y)) (map_corner_members logic s origin)
  rw [map_y_stacked_alternate, stacked_replicate, List.map_replicate, walk_replicate, stacked_map,
    List.map_map] at h
  exact h

end CasePlan.Layout
