import CasePlan.Proofs.Inspection.Reach

/-!
# What an inspection finds by elements alone

An inspection looks for elements, by their names and attributes, and reads texts nowhere but in the
rules of listeners.  If the texts of a tree are changed, added or dropped, it comes to the same
elements.

* `Content.KeepsElements`: a change to trees that texts alone are concerned by.
* `KeepsElements.filter_children`, `KeepsElements.filter_descendantsUnder`: what is looked for is
  found as before.
* `KeepsElements.reachedTasks`: the same human tasks are reached.
* `KeepsElements.listenerPayload`, `KeepsElements.taskRules`: what makes a difference is what rules
  are read from.
* `KeepsElements.reportOn`: a report differs in warnings and tasks only.
-/

namespace CasePlan

namespace Xml.Content

/-- Whether the piece is a run of text. -/
def isText : Content → Bool
  | text _ => true
  | _ => false

mutual

/-- What holds of every piece if it holds of its children holds everywhere. -/
theorem children_induction {motive : Content → Prop}
    (step : ∀ c, (∀ d ∈ c.children, motive d) → motive c) : ∀ c, motive c
  | .element _ _ _ children => step _ (forall_mem_of_step step children)
  | .text _ => step _ fun _ hd => absurd hd List.not_mem_nil
  | .instruction .. => step _ fun _ hd => absurd hd List.not_mem_nil
  | .other => step _ fun _ hd => absurd hd List.not_mem_nil

theorem forall_mem_of_step {motive : Content → Prop}
    (step : ∀ c, (∀ d ∈ c.children, motive d) → motive c) : ∀ cs : List Content, ∀ c ∈ cs, motive c
  | [] => fun _ hc => absurd hc List.not_mem_nil
  | c :: cs => List.forall_mem_cons.2 ⟨children_induction step c, forall_mem_of_step step cs⟩

end

theorem descendantsAll_eq_flatMap {β : Type} (hand : Content → β → β) (above : β)
    (cs : List Content) :
    descendantsAll hand above cs = cs.flatMap (descendantsUnder hand above) := by
  induction cs with
  | nil => rfl
  | cons c cs ih => rw [descendantsAll, ih, List.flatMap_cons]

theorem descendantsUnder_eq {β : Type} (hand : Content → β → β) (above : β) (c : Content) :
    descendantsUnder hand above c =
      (c, above) :: c.children.flatMap (descendantsUnder hand (hand c above)) := by
  cases c with
  | element name declared attributes children =>
    rw [descendantsUnder, descendantsAll_eq_flatMap]
    rfl
  | _ => rfl

/-- Texts do not count where nothing comes of them. -/
theorem flatMap_filter_not_isText {β : Type} {g : Content → List β} (hg : ∀ t, g (text t) = [])
    (cs : List Content) : (cs.filter (!·.isText)).flatMap g = cs.flatMap g := by
  induction cs with
  | nil => rfl
  | cons c cs ih =>
    cases c with
    | text t => exact ih.trans (by rw [List.flatMap_cons, hg, List.nil_append])
    | _ => exact congrArg (g _ ++ ·) ih

/-! ## Changes to texts -/

/-- A change to trees that texts alone are concerned by: they may become other texts, be dropped or
be added. -/
structure KeepsElements (f : Content → Content) : Prop where
  /-- Elements have the same names, attributes and, besides texts, content. -/
  element : ∀ name declared attributes children, ∃ inside,
    f (element name declared attributes children) = element name declared attributes inside ∧
      inside.filter (!·.isText) = (children.filter (!·.isText)).map f
  /-- Texts stay texts. -/
  text : ∀ t, ∃ t', f (text t) = text t'
  /-- Instructions are the same. -/
  instruction : ∀ target data, f (instruction target data) = instruction target data
  /-- So is everything else. -/
  other : f other = other

section

variable {f : Content → Content} (hf : KeepsElements f)
include hf

/-- What is read off the name and the attributes of elements, and off instructions, is the same. -/
theorem KeepsElements.read {α : Type} {read : Content → α}
    (helement : ∀ name declared attributes cs ds,
      read (.element name declared attributes cs) = read (.element name declared attributes ds))
    (htext : ∀ t t', read (.text t) = read (.text t')) (c : Content) : read (f c) = read c := by
  cases c with
  | element name declared attributes children =>
    obtain ⟨inside, h, -⟩ := hf.element name declared attributes children
    rw [h]
    exact helement ..
  | text t =>
    obtain ⟨t', h⟩ := hf.text t
    rw [h]
    exact htext ..
  | instruction target data => rw [hf.instruction]
  | other => rw [hf.other]

theorem KeepsElements.attribute? (space : Option Text) (base : Text) (c : Content) :
    (f c).attribute? space base = c.attribute? space base :=
  hf.read (fun _ _ _ _ _ => rfl) (fun _ _ => rfl) c

theorem KeepsElements.isElement (space base : Text) (c : Content) :
    (f c).isElement space base = c.isElement space base :=
  hf.read (fun _ _ _ _ _ => rfl) (fun _ _ => rfl) c

theorem KeepsElements.class? (c : Content) : (f c).class? = c.class? :=
  hf.read (fun _ _ _ _ _ => rfl) (fun _ _ => rfl) c

theorem KeepsElements.filter_not_isText (c : Content) :
    (f c).children.filter (!·.isText) = (c.children.filter (!·.isText)).map f := by
  cases c with
  | element name declared attributes children =>
    obtain ⟨inside, h, hinside⟩ := hf.element name declared attributes children
    rw [h]
    exact hinside
  | text t =>
    obtain ⟨t', h⟩ := hf.text t
    rw [h]
    rfl
  | instruction target data =>
    rw [hf.instruction]
    rfl
  | other =>
    rw [hf.other]
    rfl

/-- The children are gone through as before, but for texts. -/
theorem KeepsElements.flatMap_children {β : Type} {g : Content → List β}
    (hg : ∀ t, g (.text t) = []) (c : Content) :
    (f c).children.flatMap g = c.children.flatMap fun d => g (f d) := by
  have hgf : ∀ t, g (f (.text t)) = [] := by
    intro t
    obtain ⟨t', h⟩ := hf.text t
    rw [h, hg]
  rw [← flatMap_filter_not_isText hg, hf.filter_not_isText, List.flatMap_map]
  exact flatMap_filter_not_isText hgf c.children

/-! ## Looking for elements -/

/-- The children of a kind that texts are not of. -/
theorem KeepsElements.filter_children {p : Content → Bool} (hp : ∀ c, p (f c) = p c)
    (htext : ∀ t, p (.text t) = false) (c : Content) :
    (f c).children.filter p = (c.children.filter p).map f := by
  have hfilter : ∀ cs : List Content, cs.filter p = (cs.filter (!·.isText)).filter p := by
    intro cs
    rw [List.filter_filter]
    refine List.filter_congr fun d _ => ?_
    cases d with
    | text t => rw [htext, Bool.false_and]
    | _ => exact (Bool.and_true _).symm
  rw [hfilter, hf.filter_not_isText, List.filter_map, hfilter c.children]
  exact congrArg _ (List.filter_congr fun d _ => hp d)

theorem KeepsElements.child? (space base : Text) (c : Content) :
    (f c).child? space base = (c.child? space base).map f := by
  rw [Content.child?, Content.child?, ← List.head?_filter, ← List.head?_filter,
    hf.filter_children (fun c => hf.isElement space base c) (fun _ => rfl), List.head?_map]

/-- The pieces of a kind that texts are not of, anywhere in a tree. -/
theorem KeepsElements.filter_descendantsUnder {α : Type} {hand : Content → α → α}
    {p : Content × α → Bool} (hhand : ∀ c a, hand (f c) a = hand c a)
    (hp : ∀ c a, p (f c, a) = p (c, a)) (htext : ∀ t a, p (.text t, a) = false) (c : Content)
    (above : α) :
    (descendantsUnder hand above (f c)).filter p =
      ((descendantsUnder hand above c).filter p).map (Prod.map f id) := by
  induction c using children_induction generalizing above with
  | step c ih =>
    have hnone : ∀ t, (descendantsUnder hand (hand c above) (.text t)).filter p = [] := fun t =>
      List.filter_cons_of_neg (by rw [htext]; decide)
    have hinside : ((f c).children.flatMap (descendantsUnder hand (hand c above))).filter p =
        ((c.children.flatMap (descendantsUnder hand (hand c above))).filter p).map
          (Prod.map f id) := by
      rw [List.filter_flatMap, hf.flatMap_children hnone, List.filter_flatMap, List.map_flatMap]
      exact List.flatMap_congr fun d hd => ih d hd _
    rw [descendantsUnder_eq, descendantsUnder_eq hand above c, hhand, List.filter_cons,
      List.filter_cons, hp, hinside]
    split <;> rfl

theorem KeepsElements.filter_descendants {p : Content → Bool} (hp : ∀ c, p (f c) = p c)
    (htext : ∀ t, p (.text t) = false) (c : Content) :
    (f c).descendants.filter p = (c.descendants.filter p).map f := by
  have hunder : (descendantsUnder (fun _ _ => ()) () (f c)).filter (fun x => p x.1) =
      ((descendantsUnder (fun _ _ => ()) () c).filter fun x => p x.1).map (Prod.map f id) :=
    hf.filter_descendantsUnder (fun _ _ => rfl) (fun c _ => hp c) (fun t _ => htext t) c ()
  have hmap := congrArg (List.map Prod.fst) hunder
  rw [List.map_map] at hmap
  unfold descendants
  rw [List.filter_map, List.filter_map, List.map_map]
  exact hmap

/-- The classes that are named in a tree. -/
theorem KeepsElements.filterMap_class? (c : Content) :
    (f c).descendants.filterMap Content.class? = c.descendants.filterMap Content.class? := by
  have hnamed : ∀ cs : List Content, cs.filterMap Content.class? =
      (cs.filter fun c => c.class?.isSome).filterMap Content.class? := by
    intro cs
    rw [List.filterMap_filter]
    refine List.filterMap_congr fun c _ => ?_
    cases c.class? <;> rfl
  rw [hnamed, hf.filter_descendants (fun c => by rw [hf.class?]) (fun _ => rfl),
    List.filterMap_map, hnamed c.descendants]
  exact List.filterMap_congr fun c _ => hf.class? c

end

end Xml.Content

namespace Inspection

open Document Xml

theorem allStandFor_eq_flatMap (place : Place) (cs : List Content) :
    allStandFor place cs = cs.flatMap fun c => (standsFor? place c).toList := by
  induction cs with
  | nil => rfl
  | cons c cs ih => rw [allStandFor, ih, List.flatMap_cons]

theorem standsFor?_eq (place : Place) (c : Content) :
    standsFor? place c =
      if c.isElement modelNamespace "stage" then
        some (plainAttribute? "id" c, reached (insideStage c) c)
      else if c.isElement modelNamespace "humanTask" then
        some (plainAttribute? "id" c, [(place, c)])
      else none := by
  cases c <;> rfl

/-- The elements that the rules of a listener can stand in, of which the first counts. -/
def ruleTexts (listener : Content) : List Content :=
  listener.children.flatMap fun c =>
    if c.isElement engineNamespace "field" then
      c.children.filter (Content.isElement engineNamespace "string")
    else []

theorem listenerPayload_eq (listener : Content) :
    listenerPayload listener =
      ((ruleTexts listener).head?.map fun s => s.leadingText.strip).getD [] := by
  unfold listenerPayload ruleTexts
  dsimp only
  generalize listener.children.flatMap _ = strings
  cases strings <;> rfl

end Inspection

namespace Xml.Content

open Document Inspection

section

variable {f : Content → Content} (hf : KeepsElements f)
include hf

/-! ## The structure of a document -/

theorem KeepsElements.engineAttribute? (name : Text) (c : Content) :
    Inspection.engineAttribute? name (f c) = Inspection.engineAttribute? name c :=
  hf.attribute? _ _ c

theorem KeepsElements.plainAttribute? (name : Text) (c : Content) :
    Inspection.plainAttribute? name (f c) = Inspection.plainAttribute? name c :=
  hf.attribute? _ _ c

theorem KeepsElements.modelChild? (name : Text) (c : Content) :
    Inspection.modelChild? name (f c) = (Inspection.modelChild? name c).map f :=
  hf.child? _ _ c

theorem KeepsElements.planModel? (root : Content) :
    Inspection.planModel? (f root) = (Inspection.planModel? root).map f := by
  unfold Inspection.planModel?
  rw [hf.modelChild?]
  cases Inspection.modelChild? "case" root with
  | none => rfl
  | some c => exact hf.modelChild? _ c

theorem KeepsElements.caseId (root : Content) :
    Inspection.caseId (f root) = Inspection.caseId root := by
  unfold Inspection.caseId
  rw [hf.modelChild?]
  cases Inspection.modelChild? "case" root with
  | none => rfl
  | some c => exact congrArg (Option.getD · []) (hf.plainAttribute? _ c)

theorem KeepsElements.nameOf (root : Content) :
    Inspection.nameOf (f root) = Inspection.nameOf root := by
  unfold Inspection.nameOf
  rw [hf.caseId, hf.planModel?, hf.modelChild?, Option.isSome_map]
  cases Inspection.planModel? root with
  | none => rfl
  | some model => simp only [Option.map_some, Option.bind_some, hf.plainAttribute?]

theorem KeepsElements.structureErrors (root : Content) :
    Inspection.structureErrors (f root) = Inspection.structureErrors root := by
  have hname : rootName (f root) = rootName root :=
    hf.read (fun _ _ _ _ _ => rfl) (fun _ _ => rfl) root
  have hcase := congrArg Option.isSome (hf.modelChild? "case" root)
  have hmodel := congrArg Option.isSome (hf.planModel? root)
  rw [Option.isSome_map] at hcase hmodel
  rw [Inspection.planModel?, Inspection.planModel?] at hmodel
  unfold Inspection.structureErrors
  simp only [hname, hcase, hmodel, hf.filterMap_class?, hf.child?, Option.isSome_map]

theorem KeepsElements.suggestions (root : Content) :
    Inspection.suggestions (f root) = Inspection.suggestions root := by
  unfold Inspection.suggestions
  rw [hf.filter_descendants (fun c => hf.isElement _ _ c) (fun _ => rfl)]
  simp only [List.any_map, Function.comp_def, hf.engineAttribute?]

/-! ## Human tasks -/

/-- Plan items lead to the same. -/
theorem KeepsElements.leadTo (stands : List (Option Text × List (Place × Content))) (c : Content) :
    Inspection.leadTo (stands.map (Prod.map id (List.map (Prod.map id f)))) (f c).children =
      (Inspection.leadTo stands c.children).map (Prod.map id f) := by
  unfold Inspection.leadTo
  rw [hf.flatMap_children (fun _ => rfl), List.map_flatMap]
  refine List.flatMap_congr fun d _ => ?_
  have hlast : Table.last? (Inspection.plainAttribute? "definitionRef" d)
      (stands.map (Prod.map id (List.map (Prod.map id f)))) =
      (Table.last? (Inspection.plainAttribute? "definitionRef" d) stands).map
        (List.map (Prod.map id f)) :=
    Table.last?_map _ _ stands
  rw [hf.isElement, hf.plainAttribute?, hlast]
  split
  · cases Table.last? (Inspection.plainAttribute? "definitionRef" d) stands <;> rfl
  · rfl

/-- A stage leads to the same if its children stand for the same. -/
theorem KeepsElements.reached_of {place : Place} {c : Content}
    (h : ∀ d ∈ c.children, Inspection.standsFor? place (f d) =
      (Inspection.standsFor? place d).map (Prod.map id (List.map (Prod.map id f)))) :
    Inspection.reached place (f c) = (Inspection.reached place c).map (Prod.map id f) := by
  have hstands : allStandFor place (f c).children =
      (allStandFor place c.children).map (Prod.map id (List.map (Prod.map id f))) := by
    rw [allStandFor_eq_flatMap, allStandFor_eq_flatMap, hf.flatMap_children (fun _ => rfl),
      List.map_flatMap]
    refine List.flatMap_congr fun d hd => ?_
    rw [h d hd]
    cases Inspection.standsFor? place d <;> rfl
  rw [Inspection.reached, Inspection.reached, hstands, hf.leadTo]

theorem KeepsElements.standsFor? (place : Place) (c : Content) :
    Inspection.standsFor? place (f c) =
      (Inspection.standsFor? place c).map (Prod.map id (List.map (Prod.map id f))) := by
  induction c using children_induction generalizing place with
  | step c ih =>
    have hinside : insideStage (f c) = insideStage c := by
      unfold insideStage
      rw [hf.plainAttribute?, hf.plainAttribute?]
    rw [standsFor?_eq, standsFor?_eq place c, hf.isElement, hf.isElement, hf.plainAttribute?,
      hinside, hf.reached_of fun d hd => ih d hd _]
    split
    · rfl
    · split <;> rfl

/-- The same human tasks are reached. -/
theorem KeepsElements.reachedTasks (root : Content) :
    Inspection.reachedTasks (f root) = (Inspection.reachedTasks root).map (Prod.map id f) := by
  unfold Inspection.reachedTasks
  rw [hf.planModel?, hf.nameOf]
  cases Inspection.planModel? root with
  | none => rfl
  | some model =>
    simp only [Option.map_some, Option.bind_some, hf.modelChild?]
    cases Inspection.modelChild? "stage" model with
    | none => rfl
    | some stage => exact hf.reached_of fun d _ => hf.standsFor? _ d

theorem KeepsElements.taskWith (place : Place) (task : Content) (outcomes : List Json) :
    Inspection.taskWith place (f task) outcomes = Inspection.taskWith place task outcomes := by
  unfold Inspection.taskWith
  simp only [hf.plainAttribute?, hf.engineAttribute?]

/-! ## Listeners -/

theorem KeepsElements.listeners (root : Content) (class? : Text) :
    Inspection.listeners (f root) class? =
      (Inspection.listeners root class?).map (Prod.map f id) := by
  refine hf.filter_descendantsUnder (fun c a => ?_) (fun c a => ?_) (fun _ _ => rfl) root none
  · rw [owningTask, owningTask, hf.isElement, hf.plainAttribute?]
  · simp only [hf.isElement, hf.plainAttribute?]

theorem KeepsElements.ruleTexts (listener : Content) :
    Inspection.ruleTexts (f listener) = (Inspection.ruleTexts listener).map f := by
  unfold Inspection.ruleTexts
  rw [hf.flatMap_children (fun _ => rfl), List.map_flatMap]
  refine List.flatMap_congr fun c _ => ?_
  rw [hf.isElement]
  split
  · exact hf.filter_children (fun c => hf.isElement _ _ c) (fun _ => rfl) c
  · rfl

/-- The rules of a listener are those that its first text begins with. -/
theorem KeepsElements.listenerPayload (listener : Content) :
    Inspection.listenerPayload (f listener) =
      ((Inspection.ruleTexts listener).head?.map fun s => (f s).leadingText.strip).getD [] := by
  rw [listenerPayload_eq, hf.ruleTexts, List.head?_map, Option.map_map]
  rfl

/-- The rules of a human task are those of its listeners, as they are now. -/
theorem KeepsElements.taskRules (task : Content) :
    Inspection.taskRules (f task) =
      (Inspection.listeners task statusListener).flatMap fun l =>
        (Outcome.readRules? (Inspection.listenerPayload (f l.1))).getD [] := by
  rw [Inspection.taskRules, hf.listeners, List.flatMap_map]
  rfl

/-- Besides tasks, a report differs in warnings only. -/
theorem KeepsElements.reportOn (root : Content) (tasks : List FoundTask) :
    Inspection.reportOn (f root) tasks =
      { Inspection.reportOn root tasks with warnings := Inspection.warnings (f root) } := by
  unfold Inspection.reportOn
  rw [hf.structureErrors, hf.suggestions, hf.nameOf, hf.caseId]

end

end Xml.Content

end CasePlan
