import CasePlan.Proofs.Xml.Values

/-!
# Replacing the texts of a tree

`Node.mapWith` replaces the texts of a tree and leaves its elements and their names.  What stands
for the value of an attribute may depend on the names of the attribute and of its element.

* `map_id`: nothing is replaced if every text is replaced by itself.
* `traverse_mapWith`: replacing texts after they are turned is turning what stands for them, if it
  is so for every single text.
* `eq_map_of_traverse`: turning texts without a failure replaces them.
-/

namespace CasePlan.Xml.Node

variable {τ τ' σ σ' ε : Type}

/-- Attributes with their values replaced. -/
def mapAttributes (f : Text → τ → σ) (attributes : List (Text × τ)) : List (Text × σ) :=
  attributes.map fun a => (a.1, f a.1 a.2)

mutual

/-- A tree with its texts replaced: the values of attributes by `f`, which is told the names of the
element and of the attribute, and all other texts by `g`. -/
def mapWith (f : Text → Text → τ → σ) (g : τ → σ) : Node τ → Node σ
  | element name attributes children =>
    element name (mapAttributes (f name) attributes) (mapAllWith f g children)
  | text t => text (g t)
  | cdata t => cdata (g t)
  | comment t => comment t
  | instruction target t => instruction target t
  | reference name => reference name

/-- Some trees with their texts replaced. -/
def mapAllWith (f : Text → Text → τ → σ) (g : τ → σ) : List (Node τ) → List (Node σ)
  | [] => []
  | n :: rest => mapWith f g n :: mapAllWith f g rest

end

/-- A tree with all its texts replaced in one way. -/
def map (f : τ → σ) (n : Node τ) : Node σ := n.mapWith (fun _ _ => f) f

variable {f : Text → Text → τ → σ} {g : τ → σ}

theorem mapAllWith_eq_map (f : Text → Text → τ → σ) (g : τ → σ) (ns : List (Node τ)) :
    mapAllWith f g ns = ns.map (mapWith f g) := by
  induction ns with
  | nil => rfl
  | cons n ns ih => rw [mapAllWith, ih, List.map_cons]

@[simp] theorem mapWith_element (f : Text → Text → τ → σ) (g : τ → σ) (name : Text)
    (attributes : List (Text × τ)) (children : List (Node τ)) :
    mapWith f g (element name attributes children) =
      element name (mapAttributes (f name) attributes) (children.map (mapWith f g)) := by
  rw [mapWith, mapAllWith_eq_map]

@[simp] theorem map_element (f : τ → σ) (name : Text) (attributes : List (Text × τ))
    (children : List (Node τ)) :
    map f (element name attributes children) =
      element name (attributes.map fun a => (a.1, f a.2)) (children.map (map f)) :=
  mapWith_element ..

mutual

theorem map_id : ∀ n : Node τ, n.map id = n
  | element name attributes children => by
    have hattributes : attributes.map (fun a => (a.1, id a.2)) = attributes := List.map_id _
    rw [map_element, map_map_id children, hattributes]
  | text _ | cdata _ | comment _ | instruction _ _ | reference _ => rfl

theorem map_map_id : ∀ ns : List (Node τ), ns.map (map id) = ns
  | [] => rfl
  | n :: ns => by rw [List.map_cons, map_id n, map_map_id ns]

end

/-! ## Turned texts -/

theorem traverseAttributes_map {turn : τ → Except ε σ} {turn' : τ' → Except ε σ'}
    {f : Text → τ → τ'} {f' : Text → σ → σ'}
    (hf : ∀ key t, (turn t).map (f' key) = turn' (f key t)) (as : List (Text × τ)) :
    (traverseAttributes turn as).map (mapAttributes f') =
      traverseAttributes turn' (mapAttributes f as) := by
  induction as with
  | nil => rfl
  | cons a as ih =>
    rw [mapAttributes, List.map_cons, traverseAttributes, traverseAttributes, ← mapAttributes,
      ← hf, ← ih]
    cases turn a.2 with
    | error e => rfl
    | ok s => cases traverseAttributes turn as <;> rfl

section

variable {turn : τ → Except ε σ} {turn' : τ' → Except ε σ'} {f : Text → Text → τ → τ'}
  {f' : Text → Text → σ → σ'} {g : τ → τ'} {g' : σ → σ'}

mutual

/-- Texts that are replaced after they are turned can be replaced before. -/
theorem traverse_mapWith (hf : ∀ name key t, (turn t).map (f' name key) = turn' (f name key t))
    (hg : ∀ t, (turn t).map g' = turn' (g t)) : ∀ n : Node τ,
    (traverse turn n).map (mapWith f' g') = traverse turn' (mapWith f g n)
  | .element name attributes children => by
    rw [mapWith, traverse, traverse, ← traverseAttributes_map (hf name),
      ← traverseAll_mapWith hf hg children]
    cases traverseAttributes turn attributes with
    | error e => rfl
    | ok as => cases traverseAll turn children <;> rfl
  | .text t => by
    rw [mapWith, traverse, traverse, ← hg]
    cases turn t <;> rfl
  | .cdata t => by
    rw [mapWith, traverse, traverse, ← hg]
    cases turn t <;> rfl
  | .comment _ => rfl
  | .instruction .. => rfl
  | .reference _ => rfl

theorem traverseAll_mapWith (hf : ∀ name key t, (turn t).map (f' name key) = turn' (f name key t))
    (hg : ∀ t, (turn t).map g' = turn' (g t)) : ∀ ns : List (Node τ),
    (traverseAll turn ns).map (mapAllWith f' g') = traverseAll turn' (mapAllWith f g ns)
  | [] => rfl
  | n :: ns => by
    rw [mapAllWith, traverseAll, traverseAll, ← traverse_mapWith hf hg n,
      ← traverseAll_mapWith hf hg ns]
    cases traverse turn n with
    | error e => rfl
    | ok m => cases traverseAll turn ns <;> rfl

end

end

section

variable {turn : τ → Except ε σ} {f : τ → σ}

theorem eq_map_of_traverseAttributes (hf : ∀ t s, turn t = .ok s → s = f t) {as : List (Text × τ)}
    {bs : List (Text × σ)} (h : traverseAttributes turn as = .ok bs) :
    bs = mapAttributes (fun _ => f) as := by
  induction as generalizing bs with
  | nil => exact (Except.ok.inj h).symm
  | cons a as ih =>
    obtain ⟨value, rest, hvalue, hrest, rfl⟩ := traverseAttributes_cons_eq_ok h
    rw [ih hrest, hf _ _ hvalue]
    rfl

mutual

/-- Turning the texts of a tree replaces them. -/
theorem eq_map_of_traverse (hf : ∀ t s, turn t = .ok s → s = f t) :
    ∀ {n : Node τ} {m : Node σ}, traverse turn n = .ok m → m = n.map f
  | .element .., _, h => by
    obtain ⟨as, ms, has, hms, rfl⟩ := traverse_element_eq_ok h
    rw [eq_map_of_traverseAttributes hf has, eq_map_of_traverseAll hf hms]
    rfl
  | .text _, _, h => by
    obtain ⟨s, hs, rfl⟩ := map_eq_ok_iff.1 h
    rw [hf _ _ hs]
    rfl
  | .cdata _, _, h => by
    obtain ⟨s, hs, rfl⟩ := map_eq_ok_iff.1 h
    rw [hf _ _ hs]
    rfl
  | .comment _, _, h => (Except.ok.inj h).symm
  | .instruction .., _, h => (Except.ok.inj h).symm
  | .reference _, _, h => (Except.ok.inj h).symm

theorem eq_map_of_traverseAll (hf : ∀ t s, turn t = .ok s → s = f t) :
    ∀ {ns : List (Node τ)} {ms : List (Node σ)}, traverseAll turn ns = .ok ms →
      ms = mapAllWith (fun _ _ => f) f ns
  | [], _, h => (Except.ok.inj h).symm
  | _ :: _, _, h => by
    obtain ⟨m, ms, hm, hms, rfl⟩ := traverseAll_cons_eq_ok h
    rw [eq_map_of_traverse hf hm, eq_map_of_traverseAll hf hms]
    rfl

end

end

end CasePlan.Xml.Node
