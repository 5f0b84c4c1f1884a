import CasePlan.Proofs.Result
import CasePlan.Xml.Tree

/-!
# The values of attributes

`Node.values` collects the values that the attributes of a name have in a tree, in document order.

* `valuesAll_eq_flatMap`: those of several trees are those of each, one after another.
* `traverse_element_eq_ok`, `traverseAll_cons_eq_ok`, `traverseAttributes_cons_eq_ok`: what turning
  the texts of a tree gives.
* `values_traverse`: turning the texts of a tree turns the values.
-/

namespace CasePlan.Xml.Node

variable {τ σ ε : Type}

/-- The values of the attributes with a name. -/
def valuesIn (name : Text) (attributes : List (Text × τ)) : List τ :=
  (attributes.filter (·.1 = name)).map Prod.snd

theorem valuesIn_cons (name : Text) (a : Text × τ) (as : List (Text × τ)) :
    valuesIn name (a :: as) =
      if a.1 = name then a.2 :: valuesIn name as else valuesIn name as := by
  unfold valuesIn
  by_cases h : a.1 = name <;> simp [h]

theorem valuesIn_append (name : Text) (as bs : List (Text × τ)) :
    valuesIn name (as ++ bs) = valuesIn name as ++ valuesIn name bs := by
  unfold valuesIn
  rw [List.filter_append, List.map_append]

mutual

/-- The values of the attributes with a name in a tree. -/
def values (name : Text) : Node τ → List τ
  | element _ attributes children => valuesIn name attributes ++ valuesAll name children
  | _ => []

/-- The values of the attributes with a name in some trees. -/
def valuesAll (name : Text) : List (Node τ) → List τ
  | [] => []
  | n :: rest => values name n ++ valuesAll name rest

end

theorem valuesAll_eq_flatMap (name : Text) (ns : List (Node τ)) :
    valuesAll name ns = ns.flatMap (values name) := by
  induction ns with
  | nil => rfl
  | cons n ns ih => rw [valuesAll, ih, List.flatMap_cons]

theorem values_element (name other : Text) (attributes : List (Text × τ))
    (children : List (Node τ)) :
    values name (element other attributes children) =
      valuesIn name attributes ++ children.flatMap (values name) := by
  rw [values, valuesAll_eq_flatMap]

/-! ## Turning texts -/

section

variable {turn : τ → Except ε σ}

/-- Attributes are turned from the first to the last. -/
theorem traverseAttributes_cons_eq_ok {a : Text × τ} {as : List (Text × τ)} {bs : List (Text × σ)}
    (h : traverseAttributes turn (a :: as) = .ok bs) :
    ∃ value rest, turn a.2 = .ok value ∧ traverseAttributes turn as = .ok rest ∧
      bs = (a.1, value) :: rest := by
  obtain ⟨value, hvalue, h⟩ := bind_eq_ok_iff.1 h
  obtain ⟨rest, hrest, h⟩ := bind_eq_ok_iff.1 h
  exact ⟨value, rest, hvalue, hrest, (pure_eq_ok_iff.1 h).symm⟩

/-- An element is turned into one of the same name. -/
theorem traverse_element_eq_ok {name : Text} {as : List (Text × τ)} {ns : List (Node τ)}
    {m : Node σ} (h : traverse turn (element name as ns) = .ok m) :
    ∃ bs ms, traverseAttributes turn as = .ok bs ∧ traverseAll turn ns = .ok ms ∧
      m = element name bs ms := by
  obtain ⟨bs, hbs, h⟩ := bind_eq_ok_iff.1 h
  obtain ⟨ms, hms, h⟩ := bind_eq_ok_iff.1 h
  exact ⟨bs, ms, hbs, hms, (pure_eq_ok_iff.1 h).symm⟩

/-- Trees are turned from the first to the last. -/
theorem traverseAll_cons_eq_ok {n : Node τ} {ns : List (Node τ)} {ms : List (Node σ)}
    (h : traverseAll turn (n :: ns) = .ok ms) :
    ∃ m rest, traverse turn n = .ok m ∧ traverseAll turn ns = .ok rest ∧ ms = m :: rest := by
  obtain ⟨m, hm, h⟩ := bind_eq_ok_iff.1 h
  obtain ⟨rest, hrest, h⟩ := bind_eq_ok_iff.1 h
  exact ⟨m, rest, hm, hrest, (pure_eq_ok_iff.1 h).symm⟩

end

theorem valuesIn_traverse {turn : τ → Except ε σ} {name : Text} {as : List (Text × τ)}
    {bs : List (Text × σ)} (h : traverseAttributes turn as = .ok bs) :
    List.Forall₂ (fun t s => turn t = .ok s) (valuesIn name as) (valuesIn name bs) := by
  induction as generalizing bs with
  | nil =>
    obtain rfl := Except.ok.inj h
    exact .nil
  | cons a as ih =>
    obtain ⟨value, rest, hvalue, hrest, rfl⟩ := traverseAttributes_cons_eq_ok h
    rw [valuesIn_cons, valuesIn_cons]
    by_cases ha : a.1 = name
    · rw [if_pos ha, if_pos ha]
      exact .cons hvalue (ih hrest)
    · rw [if_neg ha, if_neg ha]
      exact ih hrest

mutual

/-- The values of a tree whose texts are turned are the values turned. -/
theorem values_traverse {turn : τ → Except ε σ} {name : Text} :
    ∀ {n : Node τ} {m : Node σ}, traverse turn n = .ok m →
      List.Forall₂ (fun t s => turn t = .ok s) (values name n) (values name m)
  | .element .., _, h => by
    obtain ⟨as, ms, has, hms, rfl⟩ := traverse_element_eq_ok h
    exact List.rel_append (valuesIn_traverse has) (valuesAll_traverse hms)
  | .text _, _, h => by
    obtain ⟨s, -, rfl⟩ := map_eq_ok_iff.1 h
    exact .nil
  | .cdata _, _, h => by
    obtain ⟨s, -, rfl⟩ := map_eq_ok_iff.1 h
    exact .nil
  | .comment _, _, h => by
    obtain rfl := Except.ok.inj h
    exact .nil
  | .instruction .., _, h => by
    obtain rfl := Except.ok.inj h
    exact .nil
  | .reference _, _, h => by
    obtain rfl := Except.ok.inj h
    exact .nil

theorem valuesAll_traverse {turn : τ → Except ε σ} {name : Text} :
    ∀ {ns : List (Node τ)} {ms : List (Node σ)}, traverseAll turn ns = .ok ms →
      List.Forall₂ (fun t s => turn t = .ok s) (valuesAll name ns) (valuesAll name ms)
  | [], _, h => by
    obtain rfl := Except.ok.inj h
    exact .nil
  | _ :: _, _, h => by
    obtain ⟨m, ms, hm, hms, rfl⟩ := traverseAll_cons_eq_ok h
    exact List.rel_append (values_traverse hm) (valuesAll_traverse hms)

end

end CasePlan.Xml.Node
