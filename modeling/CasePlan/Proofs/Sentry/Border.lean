import CasePlan.Proofs.Diagram.Spacing
import CasePlan.Proofs.Sentry.Representation

/-!
# Sentries on the border of an item

Where the sentries of one item are drawn.  Every side of the item's box has a band around it that
all sentries on that side lie in; the bands of two sides do not meet, and of two sentries on the top
edge the second stands to the left of the first.

* `Sentry.slot`, `Sentry.band`: the places on a side, and the band that they lie in.
* `band_clear_band`, `band_within_grow`, `band_clear_inside`: bands keep apart, stay near the
  border, and leave free what is deep inside the box.
* `Routing.Made.sitsOn`, `clear_nodeSentries`: each sentry of an item sits in a place of its side, and
  no two of them overlap.
-/

namespace CasePlan

namespace Sentry

/-! ## Places on a side -/

/-- The place of sentry number `k` on a side of a box. -/
def slot (b : Box Rat) (k : Nat) : Side → Box Rat
  | .top => Routing.boxOnRow b.topRight k
  | .bottom => Routing.boxOnRow b.bottomRight k
  | .left => Routing.boxOnColumn b.topLeft k
  | .right => Routing.boxOnColumn b.topRight k
  | .corner => boxAt (b.x - 7) (b.y - 11)

/-- The band around a side of a box that its first two places lie in. -/
def band (b : Box Rat) : Side → Box Rat
  | .top => ⟨b.x + b.width - 56, b.y - 11, 28, 22⟩
  | .bottom => ⟨b.x + b.width - 56, b.y + b.height - 11, 28, 22⟩
  | .left => ⟨b.x - 7, b.y + 22, 14, 44⟩
  | .right => ⟨b.x + b.width - 7, b.y + 22, 14, 44⟩
  | .corner => ⟨b.x - 7, b.y - 11, 14, 22⟩

variable {b c : Box Rat} {k : Nat} {side : Side}

theorem slot_eq (b : Box Rat) (k : Nat) (side : Side) :
    slot b k side = match side with
      | .top => ⟨b.x + b.width - ((k + 3) * 14 : Nat), b.y - 11, 14, 22⟩
      | .bottom => ⟨b.x + b.width - ((k + 3) * 14 : Nat), b.y + b.height - 11, 14, 22⟩
      | .left => ⟨b.x - 7, b.y + ((k + 1) * 22 : Nat), 14, 22⟩
      | .right => ⟨b.x + b.width - 7, b.y + ((k + 1) * 22 : Nat), 14, 22⟩
      | .corner => ⟨b.x - 7, b.y - 11, 14, 22⟩ := by
  cases side <;> rfl

@[simp] theorem width_slot (b : Box Rat) (k : Nat) (side : Side) : (slot b k side).width = 14 := by
  cases side <;> rfl

@[simp] theorem height_slot (b : Box Rat) (k : Nat) (side : Side) :
    (slot b k side).height = 22 := by
  cases side <;> rfl

theorem slot_within_band (hk : k ≤ 1) (side : Side) : (slot b k side).Within (band b side) := by
  have hk0 : (0 : Rat) ≤ k := Nat.cast_nonneg k
  have hk1 : (k : Rat) ≤ 1 := by exact_mod_cast hk
  rw [slot_eq]
  cases side <;> constructor <;> simp only [band] <;> push_cast <;> linarith

/-- The bands of two sides of a box do not meet. -/
theorem band_clear_band (hw : 120 ≤ b.width) (hh : 80 ≤ b.height) {side' : Side}
    (h : side ≠ side') : (band b side).Clear (band b side') 0 := by
  simp only [Box.Clear, Box.Beside, Box.Stacked]
  cases side <;> cases side' <;> simp only [band] <;> grind

/-- The second sentry on the top edge stands to the left of the first. -/
theorem slot_clear_next (b : Box Rat) (k : Nat) :
    (slot b k .top).Clear (slot b (k + 1) .top) 0 := by
  refine .inl (.inr ?_)
  simp only [slot_eq]
  push_cast
  linarith

/-- A band stays near the border of its box. -/
theorem band_within_grow (hw : 120 ≤ b.width) (hh : 80 ≤ b.height) (side : Side) :
    (band b side).Within (b.grow 11) := by
  cases side <;> constructor <;> simp only [band, Box.grow] <;> linarith

/-- A band leaves free what is deep inside its box. -/
theorem band_clear_inside (h : (c.grow 50).Within b) (side : Side) : (band b side).Clear c 39 := by
  obtain ⟨hl, ht, hr, hb⟩ := h
  simp only [Box.grow] at hl ht hr hb
  cases side with
  | top => exact .inr (.inl (by simp only [band]; linarith))
  | bottom => exact .inr (.inr (by simp only [band]; linarith))
  | left => exact .inl (.inl (by simp only [band]; linarith))
  | right => exact .inl (.inr (by simp only [band]; linarith))
  | corner => exact .inr (.inl (by simp only [band]; linarith))

/-! ## Anchors -/

theorem anchorOf_eq (b : Box Rat) : anchorOf b = ⟨b.x + b.width / 2, b.y + b.height / 2⟩ := rfl

/-- The middle of a box is inside it. -/
theorem encloses_anchorOf (hw : 0 < b.width) (hh : 0 < b.height) : b.Encloses (anchorOf b) := by
  rw [anchorOf_eq]
  constructor <;> simp only <;> linarith

/-- The middle of every place lies on the border of the box. -/
theorem onBorder_slot (hw : 120 ≤ b.width) (hh : 80 ≤ b.height) (hk : k ≤ 1) (side : Side) :
    b.OnBorder (anchorOf (slot b k side)) := by
  have hk0 : (0 : Rat) ≤ k := Nat.cast_nonneg k
  have hk1 : (k : Rat) ≤ 1 := by exact_mod_cast hk
  rw [anchorOf_eq, slot_eq]
  refine ⟨?_, fun ⟨hl, hr, ht, hb⟩ => ?_⟩
  · cases side <;> constructor <;> simp only <;> push_cast <;> linarith
  · cases side <;> simp only at hl hr ht hb <;> linarith

/-! ## Sentries in their places -/

/-- A sentry sits in the first or the second place of its side of a box. -/
def SitsOn (b : Box Rat) (s : Sentry Rat) : Prop := ∃ k ≤ 1, s.box = slot b k s.side

namespace SitsOn

variable {s : Sentry Rat}

theorem size (h : s.SitsOn b) : s.box.width = 14 ∧ s.box.height = 22 := by
  obtain ⟨k, -, hbox⟩ := h
  rw [hbox]
  exact ⟨width_slot .., height_slot ..⟩

theorem within_band (h : s.SitsOn b) : s.box.Within (band b s.side) := by
  obtain ⟨k, hk, hbox⟩ := h
  rw [hbox]
  exact slot_within_band hk _

theorem within_grow (h : s.SitsOn b) (hw : 120 ≤ b.width) (hh : 80 ≤ b.height) :
    s.box.Within (b.grow 11) :=
  h.within_band.trans (band_within_grow hw hh _)

theorem clear_inside (h : s.SitsOn b) (hc : (c.grow 50).Within b) : s.box.Clear c 39 :=
  (band_clear_inside hc _).of_within h.within_band (.refl c)

theorem onBorder (h : s.SitsOn b) (hw : 120 ≤ b.width) (hh : 80 ≤ b.height) :
    b.OnBorder s.anchor := by
  obtain ⟨k, hk, hbox⟩ := h
  rw [anchor, hbox]
  exact onBorder_slot hw hh hk _

/-- Sentries on different sides keep clear of each other. -/
theorem clear_of_side_ne {s' : Sentry Rat} (h : s.SitsOn b) (h' : s'.SitsOn b) (hw : 120 ≤ b.width)
    (hh : 80 ≤ b.height) (hne : s.side ≠ s'.side) : s.box.Clear s'.box 0 :=
  (band_clear_band hw hh hne).of_within h.within_band h'.within_band

end SitsOn

end Sentry

namespace Routing

open Sentry

/-! ## Where they sit -/

variable {node : Node Rat} {sources : List (Node Rat)}

/-- A sentry sits in the first place of a side that is not the corner, and is counted there. -/
structure Takes (node : Node Rat) (s : Sentry Rat) (counts : SideCounts) : Prop where
  /-- Its place. -/
  box : s.box = slot node.box 0 s.side
  /-- It is not on the corner. -/
  side : s.side ≠ .corner
  /-- It is counted if it is on the top edge. -/
  counts : counts.top = if s.side = .top then 1 else 0

theorem singleSentry_takes (node source : Node Rat) (index : Nat) (condition : Text) :
    Takes node (singleSentry node source {} index condition).1
      (singleSentry node source {} index condition).2 := by
  simp only [singleSentry]
  cases (Quadrant.of source.box node.box).isTop
  · exact ⟨rfl, Side.noConfusion, rfl⟩
  · exact ⟨rfl, Side.noConfusion, rfl⟩

theorem sharedSentry_takes (node : Node Rat) (sources : List (Node Rat)) (index : Nat)
    (condition : Text) :
    Takes node (sharedSentry node sources {} index condition).1
      (sharedSentry node sources {} index condition).2 := by
  simp only [sharedSentry]
  cases (Quadrant.vote (sources.map fun s => Quadrant.of s.box node.box)).isLeft
  · exact ⟨rfl, Side.noConfusion, rfl⟩
  · exact ⟨rfl, Side.noConfusion, rfl⟩

theorem Takes.sitsOn {s : Sentry Rat} {counts : SideCounts} (h : Takes node s counts) :
    s.SitsOn node.box :=
  ⟨0, Nat.zero_le 1, h.box⟩

theorem Joint.takes {index : Nat} {condition : Text} {shared : Option (Sentry Rat)}
    {counts : SideCounts} (h : Joint node sources index condition shared counts) :
    ∀ s ∈ shared, Takes node s counts := by
  intro s hs
  cases h with
  | none => exact absurd hs (by simp)
  | single =>
    obtain rfl := Option.some.inj hs
    exact singleSentry_takes ..
  | several =>
    obtain rfl := Option.some.inj hs
    exact sharedSentry_takes ..

/-- Every sentry of a node sits in a place of its side. -/
theorem Made.sitsOn {container : Container Rat} {loops : List Transition} {s : Sentry Rat}
    (h : Made node container loops sources s) : s.SitsOn node.box := by
  cases h with
  | start => exact ⟨0, Nat.zero_le 1, rfl⟩
  | single index condition _ => exact (singleSentry_takes ..).sitsOn
  | several index condition _ => exact (sharedSentry_takes ..).sitsOn
  | loop counts index condition _ htop => exact ⟨counts.top, htop, rfl⟩

/-- The sentry of a node for itself keeps clear of the shared one, which may be on the same edge. -/
theorem Takes.clear_loopSentry {s : Sentry Rat} {counts : SideCounts} (h : Takes node s counts)
    (hw : 120 ≤ node.box.width) (hh : 80 ≤ node.box.height) (index : Nat) (condition : Text) :
    s.box.Clear (loopSentry node counts index condition).box 0 := by
  have hloop : (loopSentry node counts index condition).box = slot node.box counts.top .top := rfl
  by_cases hside : s.side = .top
  · have htop : counts.top = 1 := h.counts.trans (if_pos hside)
    rw [hloop, h.box, hside, htop]
    exact slot_clear_next _ 0
  · have htop : counts.top ≤ 1 := by
      rw [h.counts, if_neg hside]
      exact Nat.zero_le 1
    exact h.sitsOn.clear_of_side_ne ⟨counts.top, htop, rfl⟩ hw hh hside

/-- Of three parts that are there or not, what holds between any two holds throughout. -/
theorem pairwise_parts {β : Type} {R : β → β → Prop} {first shared last : Option β}
    (h12 : ∀ x ∈ first, ∀ y ∈ shared, R x y) (h13 : ∀ x ∈ first, ∀ y ∈ last, R x y)
    (h23 : ∀ x ∈ shared, ∀ y ∈ last, R x y) :
    (first.toList ++ shared.toList ++ last.toList).Pairwise R := by
  cases first <;> cases shared <;> cases last <;> simp_all

/-- No two sentries of a node overlap. -/
theorem clear_nodeSentries (hw : 120 ≤ node.box.width) (hh : 80 ≤ node.box.height) (waits : Bool)
    (container : Container Rat) (external loops : List Transition) (sources : List (Node Rat)) :
    (nodeSentries node waits container external loops sources).Pairwise
      fun s s' => s.box.Clear s'.box 0 := by
  obtain ⟨first, shared, last, counts, heq, hfirst, hjoint, hlast⟩ :=
    nodeSentries_eq node waits container external loops sources
  have hcorner : ∀ s ∈ first, s.SitsOn node.box ∧ s.side = .corner := by
    intro s hs
    rw [hfirst, Option.mem_ite_none_right] at hs
    obtain rfl := Option.some.inj hs.2
    exact ⟨⟨0, Nat.zero_le 1, rfl⟩, rfl⟩
  have hloop : ∀ s ∈ last, ∃ index condition, s = loopSentry node counts index condition := by
    intro s hs
    rw [hlast, Option.mem_ite_none_right] at hs
    exact ⟨_, _, (Option.some.inj hs.2).symm⟩
  rw [heq]
  refine pairwise_parts ?_ ?_ ?_
  · intro s hs s' hs'
    obtain ⟨hsits, hside⟩ := hcorner s hs
    have htakes := hjoint.takes s' hs'
    exact hsits.clear_of_side_ne htakes.sitsOn hw hh (hside.trans_ne htakes.side.symm)
  · intro s hs s' hs'
    obtain ⟨hsits, hside⟩ := hcorner s hs
    obtain ⟨index, condition, rfl⟩ := hloop s' hs'
    exact hsits.clear_of_side_ne ⟨counts.top, hjoint.top_le_one, rfl⟩ hw hh
      (hside.trans_ne Side.noConfusion)
  · intro s hs s' hs'
    obtain ⟨index, condition, rfl⟩ := hloop s' hs'
    exact (hjoint.takes s hs).clear_loopSentry hw hh index condition

end Routing

end CasePlan
