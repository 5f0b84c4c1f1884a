import CasePlan.Proofs.Xml.RoundTrip
import CasePlan.Proofs.Xml.Values

/-!
# Trees in lines

A tree written in lines is a tree with runs of white space between its elements, written on one
line.

* `Node.spaced`: the tree with those runs; `write_spaced`: what is written for it.
* `values_spaced`: its attributes.
* `Within.spaced`, `IsLegible.spaced`: what holds of the elements of a tree with the runs.
-/

namespace CasePlan.Xml.Node

/-- The end of a line and the beginning of the next one at a depth. -/
def newLine (depth : Nat) : Text := CodePoint.ofChar '\n' :: indent depth

mutual

/-- The tree with the white space that is put into it when it is written in lines, at a depth. -/
def spaced (depth : Nat) : Node Text → Node Text
  | element name attributes (n :: rest) =>
    if isInline n || rest.any isInline then element name attributes (n :: rest)
    else element name attributes (spacedAll depth (n :: rest))
  | n => n

/-- The content of an element at a depth, with a run of white space before each piece and at the
end. -/
def spacedAll (depth : Nat) : List (Node Text) → List (Node Text)
  | [] => [text (newLine depth)]
  | n :: rest => text (newLine (depth + 1)) :: spaced (depth + 1) n :: spacedAll depth rest

end

theorem write_newLine (depth : Nat) : write (text (newLine depth)) = newLine depth := by
  have hblank : ∀ n, (List.replicate n (CodePoint.ofChar ' ')).flatMap contentCode =
      List.replicate n (CodePoint.ofChar ' ') := by
    intro n
    induction n with
    | zero => rfl
    | succ n ih => 
      rw [List.replicate_succ, List.flatMap_cons, ih]
      rfl
  rw [write, newLine, indent, List.flatMap_cons, hblank]
  rfl

mutual

theorem write_spaced : ∀ (depth : Nat) (n : Node Text), write (n.spaced depth) = n.writeIndented depth
  | depth, element name attributes [] => by rw [spaced, writeIndented]; all_goals simp
  | depth, element name attributes (n :: rest) => by
    rw [spaced, writeIndented]
    by_cases h : (isInline n || rest.any isInline) = true
    · rw [if_pos h, if_pos h]
    · have hall := writeAll_spacedAll depth (n :: rest)
      rw [if_neg h, if_neg h]
      rw [spacedAll] at hall ⊢
      rw [write, hall]
      simp only [List.append_assoc]
  | _, text _ => by rw [spaced, writeIndented]; all_goals simp
  | _, cdata _ => by rw [spaced, writeIndented]; all_goals simp
  | _, comment _ => by rw [spaced, writeIndented]; all_goals simp
  | _, instruction _ _ => by rw [spaced, writeIndented]; all_goals simp
  | _, reference _ => by rw [spaced, writeIndented]; all_goals simp

theorem writeAll_spacedAll : ∀ (depth : Nat) (ns : List (Node Text)),
    writeAll (spacedAll depth ns) = "\n" ++ writeLines (depth + 1) ns ++ indent depth
  | depth, [] => by
    rw [spacedAll, writeAll, write_newLine, writeAll, writeLines]
    simp [newLine]
    rfl
  | depth, n :: rest => by
    rw [spacedAll, writeAll, write_newLine, writeAll, write_spaced (depth + 1) n,
      writeAll_spacedAll depth rest, writeLines]
    simp only [newLine, List.append_assoc]
    rfl

end

/-! ## Attributes -/

mutual

/-- White space between elements has no attributes. -/
theorem values_spaced (name : Text) (depth : Nat) :
    ∀ n : Node Text, (n.spaced depth).values name = n.values name
  | .element other attributes [] => rfl
  | .element other attributes (n :: rest) => by
    rw [spaced]
    split
    · rfl
    · rw [values, values, valuesAll_spacedAll name depth (n :: rest)]
  | .text _ => rfl
  | .cdata _ => rfl
  | .comment _ => rfl
  | .instruction .. => rfl
  | .reference _ => rfl

theorem valuesAll_spacedAll (name : Text) (depth : Nat) :
    ∀ ns : List (Node Text), valuesAll name (spacedAll depth ns) = valuesAll name ns
  | [] => rfl
  | n :: rest => by
    rw [spacedAll, valuesAll, valuesAll, valuesAll, values_spaced name (depth + 1) n,
      valuesAll_spacedAll name depth rest]
    rfl

end

/-! ## What holds of the elements -/

theorem isXmlText_newLine (depth : Nat) : (newLine depth).isXmlText = true := by
  rw [Text.isXmlText, List.all_eq_true]
  intro c hc
  rcases List.mem_cons.1 hc with rfl | hc
  · rfl
  · rw [List.eq_of_mem_replicate hc]
    rfl

theorem isText_spaced (depth : Nat) (n : Node Text) : (n.spaced depth).isText = n.isText := by
  cases n with
  | element name attributes children =>
    cases children with
    | nil => rfl
    | cons n rest =>
      rw [spaced]
      split <;> rfl
  | _ => rfl

theorem isInline_spaced (depth : Nat) (n : Node Text) : isInline (n.spaced depth) = isInline n := by
  cases n with
  | element name attributes children =>
    cases children with
    | nil => rfl
    | cons n rest =>
      rw [spaced]
      split <;> rfl
  | _ => rfl

theorem IsPlain.spaced {n : Node Text} (h : n.IsPlain) (depth : Nat) : (n.spaced depth).IsPlain := by
  cases n with
  | element name attributes children =>
    cases children with
    | nil => trivial
    | cons n rest =>
      rw [Node.spaced]
      split <;> trivial
  | _ => exact h

/-- What stands between the runs is what stood there before, written in lines itself. -/
theorem mem_spacedAll {depth : Nat} {ns : List (Node Text)} {m : Node Text}
    (h : m ∈ spacedAll depth ns) :
    (∃ k, m = text (newLine k)) ∨ ∃ n ∈ ns, m = n.spaced (depth + 1) := by
  induction ns with
  | nil => exact .inl ⟨depth, List.mem_singleton.1 h⟩
  | cons n ns ih =>
    rw [spacedAll, List.mem_cons, List.mem_cons] at h
    rcases h with h | h | h
    · exact .inl ⟨depth + 1, h⟩
    · exact .inr ⟨n, by simp, h⟩
    · rcases ih h with h | ⟨n, hn, h⟩
      · exact .inl h
      · exact .inr ⟨n, by simp [hn], h⟩

theorem areApart_spacedAll {ns : List (Node Text)} (h : ∀ n ∈ ns, n.isText = false) (depth : Nat) :
    AreApart (spacedAll depth ns) := by
  induction ns with
  | nil => exact ⟨fun _ m hm => absurd hm (by simp), trivial⟩
  | cons n ns ih =>
    have hn : (n.spaced (depth + 1)).isText = false := by
      rw [isText_spaced]
      exact h n (by simp)
    refine ⟨fun _ m hm => ?_, fun htext => ?_, ih fun m hm => h m (by simp [hm])⟩
    · obtain rfl := Option.some.inj hm
      exact hn
    · rw [hn] at htext
      exact absurd htext (by decide)

theorem IsLegible.spacedAll {name : Text} {attributes : List (Text × Text)}
    {children : List (Node Text)} (h : IsLegible name attributes children)
    (hinline : children.any isInline = false) (depth : Nat) :
    IsLegible name attributes (spacedAll depth children) := by
  refine ⟨h.name, h.keys, h.nodup, h.values, fun m hm => ?_, areApart_spacedAll (fun n hn => ?_) depth⟩
  · rcases mem_spacedAll hm with ⟨k, rfl⟩ | ⟨n, hn, rfl⟩
    · exact ⟨List.cons_ne_nil _ _, isXmlText_newLine k⟩
    · exact (h.pieces n hn).spaced (depth + 1)
  · have hnot := List.any_eq_false.1 hinline n hn
    cases n with
    | text t => exact absurd rfl hnot
    | _ => rfl

/-- What holds of the elements of a tree holds of those of the tree in lines. -/
theorem Within.spaced {p : Text → List (Text × Text) → List (Node Text) → Prop}
    (hp : ∀ {name attributes children}, p name attributes children →
      children.any isInline = false → ∀ k, p name attributes (Node.spacedAll k children))
    {bound : Nat} {n : Node Text} (h : n.Within p bound) (depth : Nat) :
    (n.spaced depth).Within p bound := by
  induction bound generalizing n depth with
  | zero =>
    cases n with
    | element name attributes children => exact h.elim
    | _ => trivial
  | succ bound ih =>
    cases n with
    | element name attributes children =>
      cases children with
      | nil => exact h
      | cons n rest =>
        rw [Node.spaced]
        split
        · exact h
        · next hinline =>
          have hnone : (n :: rest).any isInline = false := by
            rwa [List.any_cons, ← Bool.not_eq_true]
          refine ⟨hp h.1 hnone depth, fun m hm => ?_⟩
          rcases mem_spacedAll hm with ⟨k, rfl⟩ | ⟨n', hn', rfl⟩
          · cases bound <;> trivial
          · exact ih (h.2 n' hn') (depth + 1)
    | _ => exact h

end CasePlan.Xml.Node
