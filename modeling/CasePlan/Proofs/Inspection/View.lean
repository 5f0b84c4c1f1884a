import CasePlan.Proofs.Document.Reading
import CasePlan.Proofs.Document.Vocabulary
import CasePlan.Proofs.Inspection.Tidy

/-!
# What an inspection sees

Whether a document is written in lines or not, what is read from it is its tree with the names
replaced.

* `Document.seen`: a piece of a document as it is read; `Document.seenRoot` the whole document.
* `within_tree`, `ofBytes?_render`: a settled tree can be written and read; what is read from its
  document.
* `inspect_render`: an inspection of it is an inspection of `seenRoot`.
* `mem_descendantsUnder_content`, `descendants_content`: what is read comes from the tree, piece by
  piece.
* `isElement_seen`, `filter_descendants_seen`: the elements of a name that are read are those of
  the name.
-/

namespace CasePlan

/-! ## Everything in a tree -/

namespace Xml

open Xml.Node (content contentAll contentAll_eq_map subtrees subtreesAll Within)

namespace Content

theorem mem_descendants_self (name : Name) (declared : List (Text × Text))
    (attributes : List (Name × Text)) (children : List Content) :
    .element name declared attributes children ∈
      (Content.element name declared attributes children).descendants := by
  rw [descendants, descendantsUnder]
  exact List.mem_cons_self

theorem mem_descendants_of_mem {name : Name} {declared : List (Text × Text)}
    {attributes : List (Name × Text)} {children : List Content} {c d : Content} (hc : c ∈ children)
    (hd : d ∈ c.descendants) :
    d ∈ (Content.element name declared attributes children).descendants := by
  rw [descendants, descendantsUnder, descendantsAll_eq_flatMap, List.map_cons]
  refine List.mem_cons_of_mem _ ?_
  rw [List.map_flatMap]
  exact List.mem_flatMap.2 ⟨c, hc, hd⟩

end Content

/-- Every element that is read comes from an element of the tree. -/
theorem mem_descendantsUnder_content {τ β : Type} {scope : Scope} {turn inside : τ → Text}
    {p : Text → List (Text × τ) → List (Node τ) → Prop} {bound : Nat} {n : Node τ}
    (h : n.Within p bound) {hand : Content → β → β} {above : β} {x : Content × β}
    (hx : x ∈ Content.descendantsUnder hand above (content scope turn inside n)) :
    (∀ space base, x.1.isElement space base = false) ∨
      ∃ name attributes children, p name attributes children ∧
        x.1 = content scope turn inside (.element name attributes children) := by
  induction bound generalizing n above with
  | zero =>
    cases n with
    | element name attributes children => exact h.elim
    | _ =>
      obtain rfl := List.mem_singleton.1 hx
      exact .inl fun _ _ => rfl
  | succ bound ih =>
    cases n with
    | element name attributes children =>
      rw [content, Content.descendantsUnder, Content.descendantsAll_eq_flatMap, List.mem_cons] at hx
      rcases hx with rfl | hx
      · exact .inr ⟨name, attributes, children, h.1, by rw [content]⟩
      · obtain ⟨c, hc, hx⟩ := List.mem_flatMap.1 hx
        rw [contentAll_eq_map] at hc
        obtain ⟨m, hm, rfl⟩ := List.mem_map.1 hc
        exact ih (h.2 m hm) hx
    | _ =>
      obtain rfl := List.mem_singleton.1 hx
      exact .inl fun _ _ => rfl

variable {τ : Type} {scope : Scope} {turn inside : τ → Text}

mutual

/-- What stands in a tree with its names replaced. -/
theorem descendants_content : ∀ n : Node τ,
    (content scope turn inside n).descendants = n.subtrees.map (content scope turn inside)
  | .element name attributes children => by
    have hchildren := descendantsAll_content children
    rw [subtrees, content, Content.descendants, Content.descendantsUnder, List.map_cons,
      List.map_cons, content]
    exact congrArg _ hchildren
  | .text _ => rfl
  | .cdata _ => rfl
  | .comment _ => rfl
  | .instruction .. => rfl
  | .reference _ => rfl

theorem descendantsAll_content : ∀ ns : List (Node τ),
    (Content.descendantsAll (fun _ _ => ()) () (contentAll scope turn inside ns)).map Prod.fst =
      (subtreesAll ns).map (content scope turn inside)
  | [] => rfl
  | n :: ns => by
    have hn := descendants_content n
    have hns := descendantsAll_content ns
    rw [contentAll, Content.descendantsAll, subtreesAll, List.map_append, List.map_append, hns]
    exact congrArg (· ++ _) hn

end

end Xml

namespace Document

open Xml Xml.Node

variable {α : Type}

/-! ## Pieces as they are read -/

/-- The text that a section with a draft is read as. -/
def knownSection (t : Draft) : Text := normalizeLines (known t)

/-- A piece of a document as it is read. -/
def seen (n : Piece) : Content := content documentScope known knownSection n

theorem seen_element (name : Text) (attributes : List (Text × Draft)) (children : List Piece) :
    seen (.element name attributes children) =
      .element (nameIn documentScope name) []
        (attributes.map fun a => (keyIn documentScope a.1, known a.2)) (children.map seen) := by
  rw [seen, content, contentAll_eq_map]
  rfl

theorem mem_descendants_seen {name : Text} {attributes : List (Text × Draft)} {children : List Piece}
    {n : Piece} (hn : n ∈ children) {x : Content} (hx : x ∈ (seen n).descendants) :
    x ∈ (seen (.element name attributes children)).descendants := by
  rw [seen_element]
  exact Content.mem_descendants_of_mem (List.mem_map_of_mem hn) hx

/-- In a document only names without an abbreviation are in the namespace of the case model. -/
theorem eq_of_nameIn_model {t base : Text}
    (h : nameIn documentScope t = ⟨some modelNamespace, base⟩) : t = base := by
  have hscope : ∀ entry ∈ documentScope, entry.2 = modelNamespace → entry.1 = [] := by decide
  have hname : elementName? documentScope t = some ⟨some modelNamespace, base⟩ := by
    unfold nameIn at h
    cases hname : elementName? documentScope t with
    | none =>
      rw [hname] at h
      exact absurd (Name.mk.inj h).1.symm (Option.some_ne_none _)
    | some name => rw [hname] at h; exact congrArg some h
  rcases elementName?_eq_some hname with h | ⟨abbreviation, hne, hfind⟩
  · exact h
  · unfold Scope.find? at hfind
    split at hfind
    · exact absurd (Option.some.inj hfind) (by decide)
    · exact absurd (hscope _ (Table.mem_of_get?_eq_some hfind) rfl) hne

section

variable {base : Text} (hbase : nameIn documentScope base = ⟨some modelNamespace, base⟩)
include hbase

/-- A piece is read as an element of the case model if it has the name itself. -/
theorem isElement_seen (n : Piece) :
    (seen n).isElement modelNamespace base = n.hasName base := by
  cases n with
  | element name attributes children =>
    rw [seen_element, Content.isElement, Node.hasName, Bool.eq_iff_iff, Bool.and_eq_true,
      decide_eq_true_eq, decide_eq_true_eq, decide_eq_true_eq]
    constructor
    · rintro ⟨hspace, hsame⟩
      refine eq_of_nameIn_model ?_
      rw [← hspace, ← hsame]
    · rintro rfl
      rw [hbase]
      exact ⟨rfl, rfl⟩
  | _ => rfl

theorem filter_map_seen (ns : List Piece) :
    (ns.map seen).filter (Content.isElement modelNamespace base) =
      (ns.filter (hasName base)).map seen := by
  rw [List.filter_map]
  exact congrArg _ (List.filter_congr fun n _ => isElement_seen hbase n)

/-- The elements of a name that are read from a piece are those of the name in it. -/
theorem filter_descendants_seen (n : Piece) :
    (seen n).descendants.filter (Content.isElement modelNamespace base) =
      (n.select base).map seen := by
  rw [seen, descendants_content]
  exact filter_map_seen hbase _

end

/-- The root as it is read, with its content. -/
def rootContent (children : List Content) : Content :=
  .element (nameIn documentScope "definitions") (declarations namespaces)
    ((rootAttributes.filter fun a => (declaredBy? a.1).isNone).map fun a =>
      (keyIn documentScope a.1, a.2)) children

/-- The root of a document as it is read. -/
def seenRoot [Coordinate α] (c : Context α) : Content :=
  rootContent [seen (caseElement c), seen (diagramElement c)]

theorem descendants_rootContent (children : List Content) :
    (rootContent children).descendants =
      rootContent children :: children.flatMap Content.descendants := by
  rw [rootContent, Content.descendants, Content.descendantsUnder,
    Content.descendantsAll_eq_flatMap, List.map_cons, List.map_flatMap]
  rfl

/-! ## The root -/

theorem all_isAllowed_namespaces :
    ((declarations namespaces).all fun (abbreviation, space) => isAllowed abbreviation space) =
      true := by rfl

theorem resolve?_root {ns : List (Xml.Node Text)} {cs : List Content}
    (h : resolveAll? documentScope ns = some cs) :
    resolve? [] (.element "definitions" rootAttributes ns) = some (rootContent cs) := by
  have hdeclared : declarations rootAttributes = declarations namespaces := rfl
  have hscope : (declarations namespaces).reverse ++ [] = documentScope := List.append_nil _
  have hname : elementName? documentScope "definitions" =
      some (nameIn documentScope "definitions") := rfl
  have hattributes : resolveAttributes? documentScope rootAttributes =
      some ((rootAttributes.filter fun a => (declaredBy? a.1).isNone).map fun a =>
        (keyIn documentScope a.1, a.2)) := rfl
  rw [resolve?]
  simp only [hdeclared, all_isAllowed_namespaces, hscope, hname, hattributes, h, Bool.not_true,
    Bool.false_eq_true, if_false, Option.bind_eq_bind, Option.bind_some]
  rfl

theorem hasGoodIdentifiers_rootContent {cs : List Content} (h : ∀ c ∈ cs, c.identifiers = []) :
    (rootContent cs).hasGoodIdentifiers = true := by
  have hnone : (rootContent cs).identifiers = [] := by
    rw [rootContent, Content.identifiers, identifiersAll_eq_flatMap, List.flatMap_eq_nil_iff.2 h]
    rfl
  rw [Content.hasGoodIdentifiers, hnone]
  rfl

variable [Coordinate α] {c : Context α} {t : Xml.Node Text}

/-- The root can be written and read, whatever elements it holds. -/
theorem isLegible_root {ks : List (Xml.Node Text)}
    (h : ∀ k ∈ ks, ∃ name attributes children, k = .element name attributes children) :
    IsLegible "definitions" rootAttributes ks := by
  have hkeys : rootAttributes.all (fun a => isName a.1) = true := rfl
  have hvalues : rootAttributes.all (fun a => a.2.isXmlText) = true := rfl
  refine ⟨rfl, List.all_eq_true.1 hkeys, by decide, List.all_eq_true.1 hvalues, fun k hk => ?_,
    areApart_of_isText fun k hk => ?_⟩
  · obtain ⟨name, attributes, children, rfl⟩ := h k hk
    trivial
  · obtain ⟨name, attributes, children, rfl⟩ := h k hk
    rfl

/-- A settled piece is an element if it was one before. -/
theorem exists_element_of_traverse {depth : Nat} {n : Piece} {m : Xml.Node Text} (hn : IsGood depth n)
    (h : traverse settle n = .ok m) :
    ∃ name attributes children, m = .element name attributes children := by
  obtain ⟨⟨name, attributes, children, rfl⟩, -⟩ := hn
  obtain ⟨as, ms, -, -, rfl⟩ := traverse_element_eq_ok h
  exact ⟨name, as, ms, rfl⟩

/-- A settled piece is seen as it would have been seen before. -/
theorem content_settle {n : Piece} {m : Xml.Node Text} (h : traverse settle n = .ok m) :
    content documentScope id normalizeLines m = seen n := by
  refine content_traverse (fun x y hxy => ?_) (fun x y hxy => ?_) h
  · obtain ⟨rfl, -⟩ := settle_eq_ok_iff.1 hxy
    rfl
  · obtain ⟨rfl, -⟩ := settle_eq_ok_iff.1 hxy
    rfl

/-! ## The whole document -/

/-- What is between the tags of the root, in lines or not. -/
def between (prettyPrint : Bool) (ks : List (Xml.Node Text)) : List (Xml.Node Text) :=
  endLinesAll (if prettyPrint then spacedAll 0 ks else ks)

theorem shown_root (prettyPrint : Bool) {k d : Xml.Node Text} (hk : isInline k = false)
    (hd : isInline d = false) :
    (Xml.Node.element "definitions" rootAttributes [k, d]).shown prettyPrint =
      .element "definitions" rootAttributes (between prettyPrint [k, d]) := by
  cases prettyPrint with
  | false => rfl
  | true =>
    have hnone : (isInline k || [d].any isInline) = false := by
      rw [hk, List.any_cons, hd]
      rfl
    rw [shown, if_pos rfl, spaced, if_neg (by rw [hnone]; decide), endLines]
    rfl

theorem within_between {ks : List (Xml.Node Text)} {depth : Nat}
    (h : ∀ k ∈ ks, k.Within (IsNamed documentScope) depth) (prettyPrint : Bool) :
    ∀ k ∈ between prettyPrint ks, k.Within (IsNamed documentScope) depth := by
  have hspaced : ∀ k ∈ (if prettyPrint then spacedAll 0 ks else ks),
      k.Within (IsNamed documentScope) depth := by
    cases prettyPrint with
    | false => exact h
    | true =>
      intro m hm
      rcases mem_spacedAll hm with ⟨i, rfl⟩ | ⟨k, hk, rfl⟩
      · cases depth <;> trivial
      · exact (h k hk).spaced (fun hp _ _ => hp) 1
  rw [between, endLinesAll_eq_map, List.forall_mem_map]
  exact fun k hk => (hspaced k hk).endLines fun hp => hp

/-- What is read from between the tags, but for the white space. -/
theorem tidy_between (prettyPrint : Bool) {n : Xml.Node Text} {ns : List (Xml.Node Text)}
    (h : ∀ k ∈ n :: ns, isInline k = false) :
    (rootContent (contentAll documentScope id id (between prettyPrint (n :: ns)))).tidy =
      (rootContent (contentAll documentScope id normalizeLines (n :: ns))).tidy := by
  rw [between, contentAll_endLines]
  cases prettyPrint with
  | false => rfl
  | true =>
    rw [if_pos rfl, rootContent, rootContent, Content.tidy, Content.tidy,
      Content.areBlank_contentAll h, Content.areBlank_contentAll_spacedAll h,
      Content.tidyAll_contentAll_spacedAll]

/-- The case and the diagram of a document are settled elements. -/
theorem forall_mem_settled (hs : c.Sound) {k d : Xml.Node Text}
    (hk : traverse settle (caseElement c) = .ok k)
    (hd : traverse settle (diagramElement c) = .ok d) :
    ∀ m ∈ [k, d], m.Within IsSettled 9 ∧
      ∃ name attributes children, m = .element name attributes children := by
  have hcase := within_traverse (isGood_caseElement hs).2 hk
  have hdiagram := within_traverse (isGood_diagramElement hs).2 hd
  exact List.forall_mem_cons.2 ⟨⟨hcase, exists_element_of_traverse (isGood_caseElement hs) hk⟩,
    List.forall_mem_singleton.2 ⟨hdiagram.imp id (by decide),
      exists_element_of_traverse (isGood_diagramElement hs) hd⟩⟩

/-- The tree of a document can be written and read. -/
theorem within_tree (hs : c.Sound) (ht : tree c = .ok t) : t.Within IsLegible maxDepth := by
  obtain ⟨k, d, hk, hd, rfl⟩ := exists_of_tree ht
  have hsettled := forall_mem_settled hs hk hd
  refine Within.imp (j := 10) id (by decide)
    ⟨isLegible_root fun m hm => (hsettled m hm).2, fun m hm => ?_⟩
  exact (hsettled m hm).1.imp And.left (Nat.le_refl 9)

/-- The document of a settled tree can be sent, and what is read from it is the tree, but for white
space between elements. -/
theorem ofBytes?_render (hs : c.Sound) (ht : tree c = .ok t) (prettyPrint : Bool) :
    ∃ bytes read, Utf8.encode? (render prettyPrint t) = .ok bytes ∧
      Content.ofBytes? bytes = some read ∧ read.tidy = (seenRoot c).tidy := by
  have hlegible := within_tree hs ht
  obtain ⟨k, d, hk, hd, rfl⟩ := exists_of_tree ht
  have hsettled := forall_mem_settled hs hk hd
  have hnamed := within_between
    (fun m hm => (hsettled m hm).1.imp And.right (Nat.le_refl 9)) prettyPrint
  have hinline : ∀ m ∈ [k, d], isInline m = false := by
    intro m hm
    obtain ⟨name, attributes, children, rfl⟩ := (hsettled m hm).2
    rfl
  have hresolved := resolve?_root (resolveAll?_eq hnamed)
  obtain ⟨bytes, hbytes, hread⟩ := Xml.ofBytes?_render hlegible prettyPrint
  rw [shown_root prettyPrint (hinline k (by simp)) (hinline d (by simp))] at hread
  refine ⟨bytes, _, hbytes, ?_, (tidy_between prettyPrint hinline).trans ?_⟩
  · rw [Content.ofBytes?, hread, Option.bind_some, hresolved, Option.bind_eq_bind, Option.bind_some,
      if_pos]
    refine hasGoodIdentifiers_rootContent fun m hm => ?_
    rw [contentAll_eq_map] at hm
    obtain ⟨k, hk, rfl⟩ := List.mem_map.1 hm
    exact identifiers_content (hnamed k hk)
  · rw [contentAll_eq_map, List.map_cons, List.map_singleton, content_settle hk, content_settle hd]
    rfl

/-- An inspection of a document sees the tree that was written. -/
theorem inspect_render (hs : c.Sound) (ht : tree c = .ok t) (prettyPrint : Bool) :
    inspect (render prettyPrint t) = Inspection.inspectRoot (seenRoot c) := by
  obtain ⟨bytes, read, hbytes, hread, htidy⟩ := ofBytes?_render hs ht prettyPrint
  rw [inspect, hbytes]
  show inspectBytes bytes = _
  rw [inspectBytes, hread]
  show Inspection.inspectRoot read = _
  rw [← Inspection.inspectRoot_tidy, htidy, Inspection.inspectRoot_tidy]

end Document

/-- The document of a case that is compiled can be sent. -/
theorem exists_encode_document {config : Config} {case? : Except CompileError Case} {raw : Json}
    {compiled : Compiled} (h : compile config case? (Logic.parse raw) = .ok compiled) :
    ∃ bytes, Utf8.encode? compiled.document = .ok bytes := by
  obtain ⟨case, logic, c, tree, -, hlogic, hc, -, htree, rfl⟩ := compile_eq_ok_iff.1 h
  have hs := (sound_of_prepare (consistent_of_parse hlogic) hc).1
  obtain ⟨bytes, read, hbytes, -⟩ := Document.ofBytes?_render hs htree c.config.prettyPrint
  exact ⟨bytes, hbytes⟩

end CasePlan
