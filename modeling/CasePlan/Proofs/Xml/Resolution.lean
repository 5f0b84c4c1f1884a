import CasePlan.Proofs.Result
import CasePlan.Proofs.Xml.LineEnd
import CasePlan.Xml.Namespace

/-!
# Trees whose names have namespaces

If the names of a tree have namespaces in a scope, and nothing in it declares others, resolving
the tree only replaces the names.

* `Node.content`: the tree with its names replaced, its texts turned on the way.
* `IsNamed`: the names of an element and of its attributes have namespaces in a scope.
* `elementName?_eq_some`: where the namespace of an element comes from.
* `resolveAll?_eq`, `identifiers_content`: what resolving gives, and that it has no identifiers.
* `content_traverse`, `content_endLines`: texts that are turned first can be turned on the way.
-/

namespace CasePlan.Xml

/-- The name of an element in a scope. -/
def nameIn (scope : Scope) (t : Text) : Name := (elementName? scope t).getD ⟨none, t⟩

/-- The name of an attribute in a scope. -/
def keyIn (scope : Scope) (t : Text) : Name := (attributeName? scope t).getD ⟨none, t⟩

theorem eq_of_cutName? {t base : Text} (h : cutName? t = some (none, base)) : t = base := by
  unfold cutName? at h
  split at h
  · next b hspan =>
    obtain ⟨-, rfl⟩ := Prod.mk.inj (Option.some.inj h)
    have hcut : t.takeWhile (!isColon ·) ++ t.dropWhile (!isColon ·) = t :=
      List.takeWhile_append_dropWhile
    rw [List.span_eq_takeWhile_dropWhile] at hspan
    obtain ⟨h1, h2⟩ := Prod.mk.inj hspan
    rw [h1, h2, List.append_nil] at hcut
    exact hcut.symm
  · split at h
    · split at h
      · exact absurd (Prod.mk.inj (Option.some.inj h)).1 (by simp)
      · exact absurd h (by simp)
    · exact absurd h (by simp)

theorem ne_nil_of_cutName? {t abbreviation base : Text}
    (h : cutName? t = some (some abbreviation, base)) : abbreviation ≠ [] := by
  unfold cutName? at h
  split at h
  · exact absurd (Prod.mk.inj (Option.some.inj h)).1 (by simp)
  · split at h
    · split at h
      · rw [← Option.some.inj (Prod.mk.inj (Option.some.inj h)).1]
        exact List.cons_ne_nil _ _
      · exact absurd h (by simp)
    · exact absurd h (by simp)

/-- A name of an element is without an abbreviation, or in the namespace of the one it has. -/
theorem elementName?_eq_some {scope : Scope} {t base : Text} {space : Option Text}
    (h : elementName? scope t = some ⟨space, base⟩) :
    t = base ∨ ∃ abbreviation, abbreviation ≠ [] ∧ scope.find? abbreviation = space := by
  obtain ⟨⟨abbreviation?, base'⟩, hcut, h⟩ := Option.bind_eq_some_iff.1 h
  cases abbreviation? with
  | none =>
    refine .inl ((eq_of_cutName? hcut).trans ?_)
    simp only at h
    split at h
    · exact (Name.mk.inj (Option.some.inj h)).2
    · exact (Name.mk.inj (Option.some.inj h)).2
  | some abbreviation =>
    obtain ⟨space', hspace, h⟩ := Option.bind_eq_some_iff.1 h
    obtain ⟨rfl, -⟩ := Name.mk.inj (Option.some.inj h)
    exact .inr ⟨abbreviation, ne_nil_of_cutName? hcut, hspace⟩

/-- Whether the names of an element and of its attributes have namespaces in a scope, no two
attributes the same name, and none declares a namespace or is an identifier. -/
def isNamed (scope : Scope) (name : Text) (keys : List Text) : Bool :=
  (elementName? scope name).isSome &&
    (keys.all fun k => (declaredBy? k).isNone && (attributeName? scope k).isSome &&
      keyIn scope k ≠ ⟨some xmlNamespace, "id"⟩) &&
    (keys.map (keyIn scope)).eraseDups.length == keys.length

namespace Node

variable {τ σ ε : Type}

mutual

/-- A tree with its names replaced; its texts are turned in one way, those in sections in
another. -/
def content (scope : Scope) (turn inside : τ → Text) : Node τ → Content
  | element name attributes children =>
    .element (nameIn scope name) [] (attributes.map fun a => (keyIn scope a.1, turn a.2))
      (contentAll scope turn inside children)
  | text t => .text (turn t)
  | cdata t => .text (inside t)
  | instruction target t => .instruction target t
  | _ => .other

/-- Some trees with their names replaced. -/
def contentAll (scope : Scope) (turn inside : τ → Text) : List (Node τ) → List Content
  | [] => []
  | n :: rest => content scope turn inside n :: contentAll scope turn inside rest

end

theorem contentAll_eq_map (scope : Scope) (turn inside : τ → Text) (ns : List (Node τ)) :
    contentAll scope turn inside ns = ns.map (content scope turn inside) := by
  induction ns with
  | nil => rfl
  | cons n ns ih => rw [contentAll, ih, List.map_cons]

/-- The names of an element have namespaces. -/
def IsNamed (scope : Scope) (name : Text) (attributes : List (Text × τ)) (_ : List (Node τ)) :
    Prop :=
  isNamed scope name (attributes.map Prod.fst) = true

variable {scope : Scope}

theorem mapM_eq_some_map {α β : Type} {f : α → Option β} {g : α → β} {xs : List α}
    (h : ∀ x ∈ xs, f x = some (g x)) : xs.mapM f = some (xs.map g) := by
  induction xs with
  | nil => rfl
  | cons x xs ih =>
    rw [List.mapM_cons, h x (by simp), ih fun y hy => h y (by simp [hy])]
    rfl

theorem resolveAttributes?_eq {name : Text} {attributes : List (Text × Text)}
    (h : isNamed scope name (attributes.map Prod.fst) = true) :
    resolveAttributes? scope attributes =
      some (attributes.map fun a => (keyIn scope a.1, a.2)) := by
  simp only [isNamed, Bool.and_eq_true, List.all_eq_true, beq_iff_eq] at h
  obtain ⟨⟨-, hkeys⟩, hlen⟩ := h
  have hkey : ∀ a ∈ attributes, declaredBy? a.1 = none ∧
      attributeName? scope a.1 = some (keyIn scope a.1) := by
    intro a ha
    obtain ⟨⟨hdeclared, hname⟩, -⟩ := hkeys a.1 (List.mem_map_of_mem ha)
    obtain ⟨n, hn⟩ := Option.isSome_iff_exists.1 hname
    refine ⟨Option.isNone_iff_eq_none.1 hdeclared, ?_⟩
    rw [keyIn, hn]
    rfl
  have hplain : attributes.filter (fun a => (declaredBy? a.1).isNone) = attributes :=
    List.filter_eq_self.2 fun a ha => by rw [(hkey a ha).1]; rfl
  have hresolved : attributes.mapM (fun a => (attributeName? scope a.1).map (·, a.2)) =
      some (attributes.map fun a => (keyIn scope a.1, a.2)) :=
    mapM_eq_some_map fun a ha => by rw [(hkey a ha).2]; rfl
  have hnames : (attributes.map fun a => (keyIn scope a.1, a.2)).map Prod.fst =
      (attributes.map Prod.fst).map (keyIn scope) := by
    simp [Function.comp_def]
  unfold resolveAttributes?
  simp only [hplain, Option.bind_eq_bind]
  rw [show attributes.mapM _ = _ from hresolved, Option.bind_some, hnames, if_pos]
  rw [hlen]
  simp

theorem resolveAll?_eq_of_forall {ns : List (Node Text)}
    (h : ∀ n ∈ ns, resolve? scope n = some (content scope id id n)) :
    resolveAll? scope ns = some (contentAll scope id id ns) := by
  induction ns with
  | nil => rfl
  | cons n ns ih =>
    rw [resolveAll?, h n (by simp), Option.bind_eq_bind, Option.bind_some,
      ih fun m hm => h m (by simp [hm])]
    rfl

/-- Resolving a tree replaces its names. -/
theorem resolve?_eq {bound : Nat} {n : Node Text} (h : n.Within (IsNamed scope) bound) :
    resolve? scope n = some (content scope id id n) := by
  induction bound generalizing n with
  | zero =>
    cases n with
    | element name attributes children => exact h.elim
    | _ => rfl
  | succ bound ih =>
    cases n with
    | element name attributes children =>
      have hnamed : isNamed scope name (attributes.map Prod.fst) = true := h.1
      have hattributes := resolveAttributes?_eq hnamed
      have hchildren := resolveAll?_eq_of_forall fun c hc => ih (h.2 c hc)
      simp only [isNamed, Bool.and_eq_true, List.all_eq_true, beq_iff_eq] at hnamed
      obtain ⟨⟨hname, hkeys⟩, -⟩ := hnamed
      have hdeclared : declarations attributes = [] := by
        rw [declarations, List.filterMap_eq_nil_iff]
        intro a ha
        obtain ⟨⟨hdeclared, -⟩, -⟩ := hkeys a.1 (List.mem_map_of_mem ha)
        show (declaredBy? a.1).map (·, a.2) = none
        rw [Option.isNone_iff_eq_none.1 hdeclared]
        rfl
      obtain ⟨resolved, hresolved⟩ := Option.isSome_iff_exists.1 hname
      have hname' : elementName? scope name = some (nameIn scope name) := by
        rw [nameIn, hresolved]
        rfl
      rw [resolve?]
      simp only [hdeclared, List.all_nil, Bool.not_true, Bool.false_eq_true, if_false,
        List.reverse_nil, List.nil_append, hname', hattributes, hchildren, Option.bind_eq_bind,
        Option.bind_some]
      rfl
    | _ => rfl

/-- Resolving some trees replaces their names. -/
theorem resolveAll?_eq {bound : Nat} {ns : List (Node Text)}
    (h : ∀ n ∈ ns, n.Within (IsNamed scope) bound) :
    resolveAll? scope ns = some (contentAll scope id id ns) :=
  resolveAll?_eq_of_forall fun n hn => resolve?_eq (h n hn)

/-! ## Identifiers -/

theorem identifiersAll_eq_flatMap (cs : List Content) :
    Content.identifiersAll cs = cs.flatMap Content.identifiers := by
  induction cs with
  | nil => rfl
  | cons c cs ih => rw [Content.identifiersAll, ih, List.flatMap_cons]

/-- A tree whose names have namespaces has no identifiers of its own kind. -/
theorem identifiers_content {turn inside : τ → Text} {bound : Nat} {n : Node τ}
    (h : n.Within (IsNamed scope) bound) : (content scope turn inside n).identifiers = [] := by
  induction bound generalizing n with
  | zero =>
    cases n with
    | element name attributes children => exact h.elim
    | _ => rfl
  | succ bound ih =>
    cases n with
    | element name attributes children =>
      have hnamed : isNamed scope name (attributes.map Prod.fst) = true := h.1
      simp only [isNamed, Bool.and_eq_true, List.all_eq_true] at hnamed
      rw [content, Content.identifiers, identifiersAll_eq_flatMap, contentAll_eq_map,
        List.flatMap_map, List.append_eq_nil_iff]
      refine ⟨List.map_eq_nil_iff.2 (List.filter_eq_nil_iff.2 fun a ha => ?_),
        List.flatMap_eq_nil_iff.2 fun c hc => ih (h.2 c hc)⟩
      obtain ⟨b, hb, rfl⟩ := List.mem_map.1 ha
      simpa using (hnamed.1.2 b.1 (List.mem_map_of_mem hb)).2
    | _ => rfl

/-! ## Turned texts -/

theorem map_traverseAttributes {turn : τ → Except ε σ} {f : τ → Text} {g : σ → Text}
    (hf : ∀ x y, turn x = .ok y → f x = g y) {as : List (Text × τ)} {bs : List (Text × σ)}
    (h : traverseAttributes turn as = .ok bs) :
    bs.map (fun b => (keyIn scope b.1, g b.2)) = as.map fun a => (keyIn scope a.1, f a.2) := by
  induction as generalizing bs with
  | nil =>
    obtain rfl := Except.ok.inj h
    rfl
  | cons a as ih =>
    obtain ⟨value, rest, hvalue, hrest, rfl⟩ := traverseAttributes_cons_eq_ok h
    rw [List.map_cons, List.map_cons, ih hrest, hf _ _ hvalue]

mutual

/-- Texts that are turned before the names are replaced can be turned on the way. -/
theorem content_traverse {turn : τ → Except ε σ} {f : τ → Text} {g : σ → Text} {g' : σ → Text}
    {f' : τ → Text} (hf : ∀ x y, turn x = .ok y → f x = g y)
    (hf' : ∀ x y, turn x = .ok y → f' x = g' y) :
    ∀ {n : Node τ} {m : Node σ}, traverse turn n = .ok m →
      content scope g g' m = content scope f f' n
  | .element .., _, h => by
    obtain ⟨as, ms, has, hms, rfl⟩ := traverse_element_eq_ok h
    rw [content, content, contentAll_traverse hf hf' hms, map_traverseAttributes hf has]
  | .text _, _, h => by
    obtain ⟨s, hs, rfl⟩ := map_eq_ok_iff.1 h
    rw [content, content, hf _ _ hs]
  | .cdata _, _, h => by
    obtain ⟨s, hs, rfl⟩ := map_eq_ok_iff.1 h
    rw [content, content, hf' _ _ hs]
  | .comment _, _, h => by
    obtain rfl := Except.ok.inj h
    rfl
  | .instruction .., _, h => by
    obtain rfl := Except.ok.inj h
    rfl
  | .reference _, _, h => by
    obtain rfl := Except.ok.inj h
    rfl

theorem contentAll_traverse {turn : τ → Except ε σ} {f : τ → Text} {g : σ → Text} {g' : σ → Text}
    {f' : τ → Text} (hf : ∀ x y, turn x = .ok y → f x = g y)
    (hf' : ∀ x y, turn x = .ok y → f' x = g' y) :
    ∀ {ns : List (Node τ)} {ms : List (Node σ)}, traverseAll turn ns = .ok ms →
      contentAll scope g g' ms = contentAll scope f f' ns
  | [], _, h => by
    obtain rfl := Except.ok.inj h
    rfl
  | _ :: _, _, h => by
    obtain ⟨m, ms, hm, hms, rfl⟩ := traverseAll_cons_eq_ok h
    rw [contentAll, contentAll, content_traverse hf hf' hm, contentAll_traverse hf hf' hms]

end

mutual

/-- Lines that are ended before the names are replaced can be ended on the way. -/
theorem content_endLines : ∀ n : Node Text,
    content scope id id n.endLines = content scope id normalizeLines n
  | .element name attributes children => by
    rw [endLines, content, content, contentAll_endLines children]
  | .text _ => rfl
  | .cdata _ => rfl
  | .comment _ => rfl
  | .instruction .. => rfl
  | .reference _ => rfl

theorem contentAll_endLines : ∀ ns : List (Node Text),
    contentAll scope id id (endLinesAll ns) = contentAll scope id normalizeLines ns
  | [] => rfl
  | n :: ns => by
    rw [endLinesAll, contentAll, contentAll, content_endLines n, contentAll_endLines ns]

end

end Node

end CasePlan.Xml
