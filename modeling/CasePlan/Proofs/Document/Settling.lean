import CasePlan.Document.Emission
import CasePlan.Proofs.Xml.Replacement

/-!
# Settled documents

Settling a document leaves its tree and gives every text that is known.

* `settle_eq_ok_iff`: which texts are settled.
* `tree_eq`: a document is settled by settling its case and its diagram.
* `eq_map_of_tree`: the tree of a document is the document in the making with the texts known.
-/

namespace CasePlan.Document

open Xml Xml.Node

variable {α : Type}

theorem settle_eq_ok_iff {t : Draft} {s : Text} :
    settle t = .ok s ↔ t = .ok s ∧ s.isXmlText = true := by
  unfold settle
  split
  · simp
  · next u =>
    rw [Except.ok.injEq]
    split
    · next h =>
      rw [Except.ok.injEq]
      constructor
      · rintro rfl
        exact ⟨rfl, h⟩
      · exact And.left
    · next h =>
      simp only [reduceCtorEq, false_iff]
      rintro ⟨rfl, hs⟩
      exact h hs

theorem isXmlText_textOr {declared : Option Text} {otherwise : Text}
    (h : ∀ s ∈ declared, s.isXmlText = true) (hother : otherwise.isXmlText = true) :
    (textOr declared otherwise).isXmlText = true := by
  unfold textOr
  split
  · exact h _ rfl
  · exact hother

/-- The text that a draft is settled as. -/
def known : Draft → Text
  | .ok t => t
  | .error _ => []

theorem eq_known_of_settle (d : Draft) (t : Text) (h : settle d = .ok t) : t = known d := by
  obtain ⟨rfl, -⟩ := settle_eq_ok_iff.1 h
  rfl

/-- The attributes of the root. -/
def rootAttributes : List (Text × Text) :=
  namespaces ++
    ([("targetNamespace", "http://www.flowable.org/casedef"),
      ("exporter", "Flowable Open Source Modeler")] : List (Text × Text))

theorem traverseAttributes_root :
    traverseAttributes settle
        (rootAttributes.map fun (name, value) => (name, (.ok value : Draft))) =
      .ok rootAttributes := by rfl

variable [Coordinate α] {c : Context α} {t : Xml.Node Text}

/-- A document is settled by settling its case and its diagram. -/
theorem tree_eq (c : Context α) :
    tree c =
      ((caseElement c).traverse settle).bind fun k =>
        ((diagramElement c).traverse settle).map fun d =>
          .element "definitions" rootAttributes [k, d] := by
  have hroot : root c =
      element "definitions" rootAttributes [caseElement c, diagramElement c] := rfl
  rw [tree, hroot, element, Node.traverse, traverseAttributes_root, ok_bind, traverseAll,
    traverseAll, traverseAll]
  cases (caseElement c).traverse settle with
  | error e => rfl
  | ok k => cases (diagramElement c).traverse settle <;> rfl

theorem exists_of_tree (ht : tree c = .ok t) :
    ∃ k d, traverse settle (caseElement c) = .ok k ∧ traverse settle (diagramElement c) = .ok d ∧
      t = .element "definitions" rootAttributes [k, d] := by
  rw [tree_eq] at ht
  obtain ⟨k, hk, ht⟩ := bind_eq_ok_iff.1 ht
  obtain ⟨d, hd, rfl⟩ := map_eq_ok_iff.1 ht
  exact ⟨k, d, hk, hd, rfl⟩

/-- The tree of a document is the document in the making with its texts known. -/
theorem eq_map_of_tree (ht : tree c = .ok t) : t = (root c).map known :=
  eq_map_of_traverse eq_known_of_settle ht

end CasePlan.Document
