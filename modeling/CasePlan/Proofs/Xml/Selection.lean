import CasePlan.Proofs.Xml.Replacement

/-!
# Selecting pieces of a tree

`Node.subtrees` lists a tree with everything in it in document order; `Node.select` picks the
elements of a name from it.

* `subtrees_element`, `select_element`: an element and what it holds.
* `mem_subtrees_of_mem_children`: what stands in a subtree is a subtree.
* `forall_mem_subtrees_element`: what holds everywhere in a tree.
* `Node.Uses`: the names of the elements in a tree; `Uses.select_eq_nil`, `select_eq_singleton`:
  what is selected by a name that is not used, or not used inside.
* `select_map`, `attribute?_map`, `childrenNamed_map`: selecting after the texts are replaced.
* `Node.texts`, `exists_traverse`, `exists_of_traverse`: all texts of a tree, and that turning them
  is turning the tree.
-/

namespace CasePlan.Xml.Node

variable {τ σ : Type}

/-- What an element holds. -/
def children : Node τ → List (Node τ)
  | element _ _ children => children
  | _ => []

/-- Whether a piece is an element with a name. -/
def hasName (name : Text) : Node τ → Bool
  | element other _ _ => other = name
  | _ => false

/-- The value of the first attribute with a name. -/
def attribute? (key : Text) : Node τ → Option τ
  | element _ attributes _ => (attributes.find? (·.1 = key)).map Prod.snd
  | _ => none

/-- The elements with a name that an element holds. -/
def childrenNamed (name : Text) (n : Node τ) : List (Node τ) := n.children.filter (hasName name)

mutual

/-- A tree and everything in it, in document order. -/
def subtrees : Node τ → List (Node τ)
  | element name attributes children => element name attributes children :: subtreesAll children
  | n => [n]

/-- Some trees and everything in them, in document order. -/
def subtreesAll : List (Node τ) → List (Node τ)
  | [] => []
  | n :: rest => subtrees n ++ subtreesAll rest

end

/-- The texts of a piece itself: the values of an element's attributes, or the content. -/
def ownTexts : Node τ → List τ
  | element _ attributes _ => attributes.map Prod.snd
  | text t => [t]
  | cdata t => [t]
  | _ => []

/-- All texts in a tree, in document order. -/
def texts (n : Node τ) : List τ := n.subtrees.flatMap ownTexts

/-- The elements with a name in a tree, in document order. -/
def select (name : Text) (n : Node τ) : List (Node τ) := n.subtrees.filter (hasName name)

/-! ## Elements and what they hold -/

theorem subtreesAll_eq_flatMap (ns : List (Node τ)) : subtreesAll ns = ns.flatMap subtrees := by
  induction ns with
  | nil => rfl
  | cons n ns ih => rw [subtreesAll, ih, List.flatMap_cons]

theorem subtrees_element (name : Text) (attributes : List (Text × τ)) (children : List (Node τ)) :
    subtrees (element name attributes children) =
      element name attributes children :: children.flatMap subtrees := by
  rw [subtrees, subtreesAll_eq_flatMap]

theorem subtrees_eq (n : Node τ) : n.subtrees = n :: n.children.flatMap subtrees := by
  cases n with
  | element name attributes children => exact subtrees_element ..
  | _ => rfl

theorem mem_subtrees_self (n : Node τ) : n ∈ n.subtrees := by
  rw [subtrees_eq]
  exact List.mem_cons_self

theorem select_element (name other : Text) (attributes : List (Text × τ))
    (children : List (Node τ)) :
    select name (element other attributes children) =
      (if other = name then [element other attributes children] else []) ++
        children.flatMap (select name) := by
  have hchildren : (children.flatMap subtrees).filter (hasName name) =
      children.flatMap (select name) := List.filter_flatMap
  rw [select, subtrees_element, List.filter_cons, hchildren]
  by_cases h : other = name <;> simp [hasName, h]

mutual

/-- What an element in a tree holds stands in the tree. -/
theorem mem_subtrees_of_mem_children {e k : Node τ} (hk : k ∈ e.children) :
    ∀ {n : Node τ}, e ∈ n.subtrees → k ∈ n.subtrees
  | .element name attributes children, he => by
    rw [subtrees, List.mem_cons] at he ⊢
    rcases he with rfl | he
    · rw [subtreesAll_eq_flatMap, List.mem_flatMap]
      exact .inr ⟨k, hk, mem_subtrees_self k⟩
    · exact .inr (mem_subtreesAll_of_mem_children hk he)
  | .text _, he => by
    rw [List.mem_singleton.1 he] at hk
    exact absurd hk List.not_mem_nil
  | .cdata _, he => by
    rw [List.mem_singleton.1 he] at hk
    exact absurd hk List.not_mem_nil
  | .comment _, he => by
    rw [List.mem_singleton.1 he] at hk
    exact absurd hk List.not_mem_nil
  | .instruction .., he => by
    rw [List.mem_singleton.1 he] at hk
    exact absurd hk List.not_mem_nil
  | .reference _, he => by
    rw [List.mem_singleton.1 he] at hk
    exact absurd hk List.not_mem_nil

theorem mem_subtreesAll_of_mem_children {e k : Node τ} (hk : k ∈ e.children) :
    ∀ {ns : List (Node τ)}, e ∈ subtreesAll ns → k ∈ subtreesAll ns
  | _ :: _, he => by
    rw [subtreesAll, List.mem_append] at he ⊢
    exact he.imp (mem_subtrees_of_mem_children hk) (mem_subtreesAll_of_mem_children hk)

end

/-- What holds everywhere in an element holds of it and everywhere in what it holds. -/
theorem forall_mem_subtrees_element {P : Node τ → Prop} {name : Text}
    {attributes : List (Text × τ)} {children : List (Node τ)} :
    (∀ e ∈ (element name attributes children).subtrees, P e) ↔
      P (element name attributes children) ∧ ∀ k ∈ children, ∀ e ∈ k.subtrees, P e := by
  rw [subtrees_element, List.forall_mem_cons, List.forall_mem_flatMap]

/-! ## Names -/

theorem hasName_eq_false {name other : Text} (hne : other ≠ name) {n : Node τ}
    (h : n.hasName other = true) : n.hasName name = false := by
  cases n with
  | element key _ _ =>
    have hkey : key = other := of_decide_eq_true h
    exact decide_eq_false (hkey ▸ hne)
  | _ => rfl

/-- Elements of one name have no other name. -/
theorem filter_hasName_eq_nil {name other : Text} (hne : other ≠ name) {ns : List (Node τ)}
    (h : ∀ n ∈ ns, n.hasName other = true) : ns.filter (hasName name) = [] :=
  List.filter_eq_nil_iff.2 fun n hn => by simp [hasName_eq_false hne (h n hn)]

/-- The elements in a tree have names from a list. -/
def Uses (names : List Text) (n : Node τ) : Prop :=
  ∀ e ∈ n.subtrees, ∀ name, e.hasName name = true → name ∈ names

theorem uses_element {names : List Text} {name : Text} {attributes : List (Text × τ)}
    {children : List (Node τ)} (hname : name ∈ names) (h : ∀ c ∈ children, c.Uses names) :
    (element name attributes children).Uses names := by
  intro e he other hother
  rw [subtrees_element, List.mem_cons, List.mem_flatMap] at he
  rcases he with rfl | ⟨c, hc, he⟩
  · rwa [← of_decide_eq_true hother]
  · exact h c hc e he other hother

theorem uses_text (names : List Text) (t : τ) : (text t).Uses names := by
  intro e he other hother
  rw [List.mem_singleton.1 he] at hother
  exact absurd hother Bool.false_ne_true

theorem uses_cdata (names : List Text) (t : τ) : (cdata t).Uses names := by
  intro e he other hother
  rw [List.mem_singleton.1 he] at hother
  exact absurd hother Bool.false_ne_true

theorem Uses.mono {names names' : List Text} {n : Node τ} (h : n.Uses names)
    (hsub : names ⊆ names') : n.Uses names' :=
  fun e he name hname => hsub (h e he name hname)

variable {names : List Text} {name : Text} {n : Node τ}

/-- No element has a name that is not used. -/
theorem Uses.select_eq_nil (h : n.Uses names) (hname : name ∉ names) : n.select name = [] :=
  List.filter_eq_nil_iff.2 fun e he hother => hname (h e he name hother)

/-- What is not selected from a tree is not selected from what it holds. -/
theorem flatMap_select_children (h : n.select name = []) :
    n.children.flatMap (select name) = [] := by
  rw [select, subtrees_eq, List.filter_eq_nil_iff, List.forall_mem_cons] at h
  refine List.flatMap_eq_nil_iff.2 fun k hk => List.filter_eq_nil_iff.2 fun m hm => ?_
  exact h.2 m (List.mem_flatMap.2 ⟨k, hk, hm⟩)

/-- No element has a child with a name that is not selected from what stands in the tree. -/
theorem childrenNamed_eq_nil (h : n.children.flatMap (select name) = []) {e : Node τ}
    (he : e ∈ n.subtrees) : e.childrenNamed name = [] := by
  have hnot : ∀ k ∈ n.children, ∀ m ∈ k.subtrees, m.hasName name ≠ true := fun k hk =>
    List.filter_eq_nil_iff.1 (List.flatMap_eq_nil_iff.1 h k hk)
  rw [subtrees_eq, List.mem_cons, List.mem_flatMap] at he
  refine List.filter_eq_nil_iff.2 fun m hm => ?_
  rcases he with rfl | ⟨k, hk, he⟩
  · exact hnot m hm m (mem_subtrees_self m)
  · exact hnot k hk m (mem_subtrees_of_mem_children hm he)

/-- An element is the only one of its name in it if the name is not used inside. -/
theorem select_eq_singleton {attributes : List (Text × τ)} {children : List (Node τ)}
    (hname : name ∉ names) (h : ∀ k ∈ children, k.Uses names) :
    (element name attributes children).select name = [element name attributes children] := by
  rw [select_element, if_pos rfl,
    List.flatMap_eq_nil_iff.2 fun k hk => (h k hk).select_eq_nil hname, List.append_nil]

/-! ## Replaced texts -/

variable (f : τ → σ)

theorem hasName_map (name : Text) (n : Node τ) : (n.map f).hasName name = n.hasName name := by
  cases n <;> rfl

theorem children_map (n : Node τ) : (n.map f).children = n.children.map (map f) := by
  cases n with
  | element name attributes children =>
    rw [map_element]
    rfl
  | _ => rfl

theorem attribute?_map (key : Text) (n : Node τ) :
    (n.map f).attribute? key = (n.attribute? key).map f := by
  cases n with
  | element name attributes children =>
    rw [map_element, attribute?, attribute?, List.find?_map, Option.map_map, Option.map_map]
    rfl
  | _ => rfl

theorem filter_hasName_map (name : Text) (ns : List (Node τ)) :
    (ns.map (map f)).filter (hasName name) = (ns.filter (hasName name)).map (map f) := by
  rw [List.filter_map]
  exact congrArg _ (List.filter_congr fun n _ => hasName_map f name n)

theorem childrenNamed_map (name : Text) (n : Node τ) :
    (n.map f).childrenNamed name = (n.childrenNamed name).map (map f) := by
  rw [childrenNamed, children_map, filter_hasName_map]
  rfl

mutual

theorem subtrees_map : ∀ n : Node τ, (n.map f).subtrees = n.subtrees.map (map f)
  | .element name attributes children => by
    rw [map_element, subtrees, subtrees, subtreesAll_map children, List.map_cons, map_element]
  | .text _ => rfl
  | .cdata _ => rfl
  | .comment _ => rfl
  | .instruction .. => rfl
  | .reference _ => rfl

theorem subtreesAll_map : ∀ ns : List (Node τ),
    subtreesAll (ns.map (map f)) = (subtreesAll ns).map (map f)
  | [] => rfl
  | n :: ns => by
    rw [List.map_cons, subtreesAll, subtreesAll, subtrees_map n, subtreesAll_map ns,
      List.map_append]

end

theorem select_map (name : Text) (n : Node τ) :
    (n.map f).select name = (n.select name).map (map f) := by
  rw [select, subtrees_map, filter_hasName_map]
  rfl

/-! ## Turned texts -/

theorem texts_element (name : Text) (attributes : List (Text × τ)) (children : List (Node τ)) :
    texts (element name attributes children) =
      attributes.map Prod.snd ++ children.flatMap texts := by
  rw [texts, subtrees_element, List.flatMap_cons, List.flatMap_assoc]
  rfl

variable {ε : Type} {turn : τ → Except ε σ}

theorem exists_traverseAttributes {as : List (Text × τ)}
    (h : ∀ t ∈ as.map Prod.snd, ∃ s, turn t = .ok s) :
    ∃ bs, traverseAttributes turn as = .ok bs := by
  induction as with
  | nil => exact ⟨[], rfl⟩
  | cons a as ih =>
    rw [List.map_cons, List.forall_mem_cons] at h
    obtain ⟨s, hs⟩ := h.1
    obtain ⟨bs, hbs⟩ := ih h.2
    exact ⟨(a.1, s) :: bs, by rw [traverseAttributes, hs, ok_bind, hbs]; rfl⟩

mutual

/-- Turning a tree does not fail if it fails for none of its texts. -/
theorem exists_traverse : ∀ {n : Node τ}, (∀ t ∈ n.texts, ∃ s, turn t = .ok s) →
    ∃ m, traverse turn n = .ok m
  | .element name attributes children, h => by
    rw [texts_element, List.forall_mem_append, List.forall_mem_flatMap] at h
    obtain ⟨bs, hbs⟩ := exists_traverseAttributes h.1
    obtain ⟨ms, hms⟩ := exists_traverseAll h.2
    exact ⟨element name bs ms, by rw [traverse, hbs, ok_bind, hms]; rfl⟩
  | .text t, h => by
    obtain ⟨s, hs⟩ := h t List.mem_cons_self
    exact ⟨text s, by rw [traverse, hs]; rfl⟩
  | .cdata t, h => by
    obtain ⟨s, hs⟩ := h t List.mem_cons_self
    exact ⟨cdata s, by rw [traverse, hs]; rfl⟩
  | .comment t, _ => ⟨comment t, rfl⟩
  | .instruction target t, _ => ⟨instruction target t, rfl⟩
  | .reference name, _ => ⟨reference name, rfl⟩

theorem exists_traverseAll : ∀ {ns : List (Node τ)},
    (∀ n ∈ ns, ∀ t ∈ n.texts, ∃ s, turn t = .ok s) → ∃ ms, traverseAll turn ns = .ok ms
  | [], _ => ⟨[], rfl⟩
  | n :: ns, h => by
    rw [List.forall_mem_cons] at h
    obtain ⟨m, hm⟩ := exists_traverse h.1
    obtain ⟨ms, hms⟩ := exists_traverseAll h.2
    exact ⟨m :: ms, by rw [traverseAll, hm, ok_bind, hms]; rfl⟩

end

theorem exists_of_traverseAttributes {as : List (Text × τ)} {bs : List (Text × σ)}
    (h : traverseAttributes turn as = .ok bs) : ∀ t ∈ as.map Prod.snd, ∃ s, turn t = .ok s := by
  induction as generalizing bs with
  | nil => exact List.forall_mem_nil _
  | cons a as ih =>
    obtain ⟨value, rest, hvalue, hrest, -⟩ := traverseAttributes_cons_eq_ok h
    exact List.forall_mem_cons.2 ⟨⟨value, hvalue⟩, ih hrest⟩

mutual

/-- Where turning a tree does not fail, it fails for none of its texts. -/
theorem exists_of_traverse : ∀ {n : Node τ} {m : Node σ}, traverse turn n = .ok m →
    ∀ t ∈ n.texts, ∃ s, turn t = .ok s
  | .element .., _, h => by
    obtain ⟨as, ms, has, hms, -⟩ := traverse_element_eq_ok h
    rw [texts_element, List.forall_mem_append, List.forall_mem_flatMap]
    exact ⟨exists_of_traverseAttributes has, exists_of_traverseAll hms⟩
  | .text _, _, h => by
    obtain ⟨s, hs, -⟩ := map_eq_ok_iff.1 h
    exact List.forall_mem_singleton.2 ⟨s, hs⟩
  | .cdata _, _, h => by
    obtain ⟨s, hs, -⟩ := map_eq_ok_iff.1 h
    exact List.forall_mem_singleton.2 ⟨s, hs⟩
  | .comment _, _, _ => List.forall_mem_nil _
  | .instruction .., _, _ => List.forall_mem_nil _
  | .reference _, _, _ => List.forall_mem_nil _

theorem exists_of_traverseAll : ∀ {ns : List (Node τ)} {ms : List (Node σ)},
    traverseAll turn ns = .ok ms → ∀ n ∈ ns, ∀ t ∈ n.texts, ∃ s, turn t = .ok s
  | [], _, _ => List.forall_mem_nil _
  | _ :: _, _, h => by
    obtain ⟨m, ms, hm, hms, -⟩ := traverseAll_cons_eq_ok h
    exact List.forall_mem_cons.2 ⟨exists_of_traverse hm, exists_of_traverseAll hms⟩

end

end CasePlan.Xml.Node
