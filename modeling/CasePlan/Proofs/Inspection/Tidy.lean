import CasePlan.Proofs.Inspection.Elements
import CasePlan.Proofs.Text.Cutting
import CasePlan.Proofs.Xml.Resolution
import Mathlib.Data.List.TakeWhile

/-!
# White space between elements

An inspection finds the same in a document with runs of white space between its elements and in
the one without.

* `Content.tidy`: the tree without them; a run stays if text that is not blank stands beside it, or
  if nothing else does.
* `keeps_tidy`, `strip_leadingText_tidy`: both have the same elements, and these begin with the same
  text, apart from blanks.
* `tidy_content_spaced`: a tree in lines has the runs besides what the tree has.
* `Content.reach`, `reach_eq_of_tidy`: what is found along a path, if that holds texts only.
* `inspectRoot_tidy`: an inspection finds the same in both.
-/

namespace CasePlan

namespace Xml.Content

/-- Whether some pieces are no texts, and all texts among them are blank. -/
def areBlank (cs : List Content) : Bool :=
  cs.any (!·.isText) && cs.all fun
    | text t => t.all Text.isBlank
    | _ => true

mutual

/-- The tree without the texts of elements that hold something else besides, if all of these texts
are blank. -/
def tidy : Content → Content
  | element name declared attributes children =>
    element name declared attributes (tidyAll (areBlank children) children)
  | c => c

/-- Some trees, without the texts among them if these are dropped. -/
def tidyAll (drop : Bool) : List Content → List Content
  | [] => []
  | c :: rest =>
    if drop && c.isText then tidyAll drop rest else tidy c :: tidyAll drop rest

end

@[simp] theorem isText_tidy (c : Content) : c.tidy.isText = c.isText := by
  cases c <;> rfl

theorem children_tidy (c : Content) : c.tidy.children = tidyAll (areBlank c.children) c.children := by
  cases c <;> rfl

theorem filter_tidyAll (drop : Bool) (cs : List Content) :
    (tidyAll drop cs).filter (!·.isText) = (cs.filter (!·.isText)).map tidy := by
  induction cs with
  | nil => rfl
  | cons c cs ih =>
    rw [tidyAll]
    by_cases hc : c.isText = true
    · rw [List.filter_cons_of_neg (by rw [hc]; decide)]
      split
      · exact ih
      · rw [List.filter_cons_of_neg (by rw [isText_tidy, hc]; decide), ih]
    · rw [Bool.not_eq_true] at hc
      rw [hc, Bool.and_false, if_neg Bool.false_ne_true,
        List.filter_cons_of_pos (by rw [isText_tidy, hc]; rfl),
        List.filter_cons_of_pos (by rw [hc]; rfl), ih, List.map_cons]

/-- Texts alone are dropped. -/
theorem keeps_tidy : KeepsElements tidy where
  element _ _ _ children := ⟨_, rfl, filter_tidyAll _ children⟩
  text t := ⟨t, rfl⟩
  instruction _ _ := rfl
  other := rfl

/-! ## Looking for text -/

theorem strip_eq_nil {t : Text} (h : ∀ c ∈ t, Text.isBlank c = true) : t.strip = [] := by
  rw [Text.strip, List.dropWhile_eq_nil_iff.2 h]
  rfl

theorem isBlank_of_areBlank {cs : List Content} (h : areBlank cs = true) {t : Text}
    (ht : text t ∈ cs) : ∀ c ∈ t, Text.isBlank c = true := by
  rw [areBlank, Bool.and_eq_true] at h
  exact List.all_eq_true.1 (List.all_eq_true.1 h.2 _ ht)

theorem isText_of_mem_tidyAll {cs : List Content} {c : Content} (hc : c ∈ tidyAll true cs) :
    c.isText = false := by
  induction cs with
  | nil => exact absurd hc List.not_mem_nil
  | cons d cs ih =>
    rw [tidyAll] at hc
    split at hc
    · exact ih hc
    · next hkept =>
      rw [Bool.true_and, Bool.not_eq_true] at hkept
      rcases List.mem_cons.1 hc with rfl | hc
      · rwa [isText_tidy]
      · exact ih hc

/-- An element whose texts are all blank begins with blanks. -/
theorem strip_leadingText_eq_nil {c : Content}
    (h : ∀ t, text t ∈ c.children → ∀ d ∈ t, Text.isBlank d = true) :
    c.leadingText.strip = [] := by
  refine strip_eq_nil fun d hd => ?_
  obtain ⟨piece, hpiece, hdp⟩ := List.mem_flatMap.1 hd
  cases piece with
  | text t => exact h t (List.takeWhile_subset _ hpiece) d hdp
  | _ => exact absurd hdp List.not_mem_nil

/-- The text that an element begins with, apart from blanks around it. -/
theorem strip_leadingText_tidy (c : Content) : c.tidy.leadingText.strip = c.leadingText.strip := by
  cases h : areBlank c.children with
  | true =>
    rw [strip_leadingText_eq_nil fun _ ht => isBlank_of_areBlank h ht, strip_leadingText_eq_nil]
    intro t ht
    rw [children_tidy, h] at ht
    exact absurd (isText_of_mem_tidyAll ht).symm Bool.false_ne_true
  | false =>
    unfold leadingText
    rw [children_tidy, h]
    generalize c.children = cs
    congr 1
    induction cs with
    | nil => rfl
    | cons c cs ih =>
      cases c with
      | text t =>
        rw [tidyAll, Bool.false_and, if_neg (by decide), tidy]
        · simp only [List.takeWhile_cons, if_true, List.flatMap_cons]
          rw [ih]
        all_goals simp
      | _ => rfl

/-! ## Looking along a path -/

/-- The pieces at the end of a path that leads, step by step, to the children of a kind. -/
def reach : List (Content → Bool) → Content → List Content
  | [], c => [c]
  | p :: path, c => (c.children.filter p).flatMap (reach path)

/-- A kind of pieces that white space makes no difference to, and that texts are not of. -/
structure IsSteady (p : Content → Bool) : Prop where
  /-- Pieces are of the kind as before. -/
  tidy : ∀ c, p c.tidy = p c
  /-- No text is. -/
  text : ∀ t, p (text t) = false

/-- The piece holds texts only. -/
def IsLeaf (c : Content) : Prop := ∀ d ∈ c.children, d.isText = true

theorem isSteady_isElement (space base : Text) : IsSteady (isElement space base) :=
  ⟨keeps_tidy.isElement space base, fun _ => rfl⟩

theorem reach_tidy {path : List (Content → Bool)} (h : ∀ p ∈ path, IsSteady p) (c : Content) :
    c.tidy.reach path = (c.reach path).map tidy := by
  induction path generalizing c with
  | nil => rfl
  | cons p path ih =>
    rw [List.forall_mem_cons] at h
    rw [reach, reach, keeps_tidy.filter_children h.1.tidy h.1.text, List.flatMap_map,
      List.map_flatMap]
    exact List.flatMap_congr fun d _ => ih h.2 d

theorem tidy_eq_self {c : Content} (h : c.IsLeaf) : c.tidy = c := by
  cases c with
  | element name declared attributes children =>
    have hkept : areBlank children = false := by
      rw [areBlank, List.any_eq_false.2 fun d hd => by rw [h d hd]; decide, Bool.false_and]
    have hall : ∀ cs : List Content, (∀ d ∈ cs, d.isText = true) → tidyAll false cs = cs := by
      intro cs hcs
      induction cs with
      | nil => rfl
      | cons d cs ih =>
        rw [List.forall_mem_cons] at hcs
        rw [tidyAll, Bool.false_and, if_neg Bool.false_ne_true, ih hcs.2]
        cases d with
        | text t => rfl
        | _ => exact absurd hcs.1 Bool.false_ne_true
    rw [tidy, hkept, hall children h]
  | _ => rfl

/-- A piece that holds texts only without the white space holds texts only. -/
theorem isLeaf_of_tidy {c : Content} (h : c.tidy.IsLeaf) : c.IsLeaf := by
  have hnone : c.tidy.children.filter (!·.isText) = [] :=
    List.filter_eq_nil_iff.2 fun d hd => by rw [h d hd]; decide
  rw [keeps_tidy.filter_not_isText, List.map_eq_nil_iff, List.filter_eq_nil_iff] at hnone
  intro d hd
  simpa using hnone d hd

/-- White space between elements makes no difference to a piece that holds texts only. -/
theorem eq_of_tidy_eq {c d : Content} (hd : d.IsLeaf) (h : c.tidy = d.tidy) : c = d := by
  rw [tidy_eq_self hd] at h
  rw [← h, tidy_eq_self (isLeaf_of_tidy (h ▸ hd))]

theorem map_eq_map_of_tidy {β : Type} {f : Content → β} {cs ds : List Content}
    (hf : ∀ d ∈ ds, ∀ c : Content, c.tidy = d.tidy → f c = f d) (h : cs.map tidy = ds.map tidy) :
    cs.map f = ds.map f := by
  induction ds generalizing cs with
  | nil =>
    rw [List.map_eq_nil_iff.1 h]
  | cons d ds ih =>
    obtain ⟨c, cs, rfl, hc, hcs⟩ := List.map_eq_cons_iff.1 h
    rw [List.forall_mem_cons] at hf
    rw [List.map_cons, List.map_cons, hf.1 c hc, ih hf.2 hcs]

/-- Along a path to pieces that hold texts only the same is found. -/
theorem reach_eq_of_tidy {path : List (Content → Bool)} (hpath : ∀ p ∈ path, IsSteady p)
    {c d : Content} (hleaf : ∀ e ∈ d.reach path, e.IsLeaf) (h : c.tidy = d.tidy) :
    c.reach path = d.reach path := by
  have hreach : (c.reach path).map tidy = (d.reach path).map tidy := by
    rw [← reach_tidy hpath, ← reach_tidy hpath, h]
  have hsame := map_eq_map_of_tidy (fun e he e' => eq_of_tidy_eq (hleaf e he)) hreach
  simpa using hsame

/-! ## Trees in lines -/

section

open Xml.Node (content contentAll spaced spacedAll newLine)

variable {scope : Scope} {inside : Text → Text}

theorem all_isBlank_newLine (depth : Nat) : (newLine depth).all Text.isBlank = true := by
  rw [List.all_eq_true]
  intro c hc
  rcases List.mem_cons.1 hc with rfl | hc
  · rfl
  · rw [List.eq_of_mem_replicate hc]
    rfl

theorem areBlank_of_forall {cs : List Content} {c : Content} (hc : c ∈ cs) (hnot : c.isText = false)
    (h : ∀ t, text t ∈ cs → t.all Text.isBlank = true) : areBlank cs = true := by
  rw [areBlank, Bool.and_eq_true, List.any_eq_true, List.all_eq_true]
  refine ⟨⟨c, hc, by rw [hnot]; rfl⟩, fun d hd => ?_⟩
  cases d with
  | text t => exact h t hd
  | _ => rfl

/-- What is not inline is no text. -/
theorem isText_content {n : Node Text} (h : Node.isInline n = false) :
    (content scope id inside n).isText = false := by
  cases n with
  | text t => exact absurd h.symm Bool.false_ne_true
  | cdata t => exact absurd h.symm Bool.false_ne_true
  | _ => rfl

/-- Elements between which white space is put hold no text. -/
theorem areBlank_contentAll {n : Node Text} {ns : List (Node Text)}
    (h : ∀ m ∈ n :: ns, Node.isInline m = false) :
    areBlank (contentAll scope id inside (n :: ns)) = true := by
  refine areBlank_of_forall List.mem_cons_self (isText_content (h n List.mem_cons_self)) fun t ht => ?_
  rw [Node.contentAll_eq_map] at ht
  obtain ⟨m, hm, heq⟩ := List.mem_map.1 ht
  have hnot : (content scope id inside m).isText = false := isText_content (h m hm)
  rw [heq] at hnot
  exact absurd hnot.symm Bool.false_ne_true

theorem areBlank_contentAll_spacedAll {n : Node Text} {ns : List (Node Text)}
    (h : ∀ m ∈ n :: ns, Node.isInline m = false) (depth : Nat) :
    areBlank (contentAll scope id inside (spacedAll depth (n :: ns))) = true := by
  have hspaced : ∀ m ∈ n :: ns,
      (content scope id inside (m.spaced (depth + 1))).isText = false := fun m hm =>
    isText_content ((Node.isInline_spaced _ m).trans (h m hm))
  refine areBlank_of_forall (List.mem_cons_of_mem _ List.mem_cons_self)
    (hspaced n List.mem_cons_self) fun t ht => ?_
  rw [Node.contentAll_eq_map] at ht
  obtain ⟨m, hm, heq⟩ := List.mem_map.1 ht
  rcases Node.mem_spacedAll hm with ⟨k, rfl⟩ | ⟨k, hk, rfl⟩
  · obtain rfl := Content.text.inj heq
    exact all_isBlank_newLine k
  · have hnot := hspaced k hk
    rw [heq] at hnot
    exact absurd hnot.symm Bool.false_ne_true

mutual

/-- A tree in lines has runs of white space besides what the tree has. -/
theorem tidy_content_spaced : ∀ (depth : Nat) (n : Node Text),
    (content scope id inside (n.spaced depth)).tidy = (content scope id inside n).tidy
  | _, .element _ _ [] => rfl
  | depth, .element name attributes (n :: rest) => by
    rw [spaced]
    by_cases h : (Node.isInline n || rest.any Node.isInline) = true
    · rw [if_pos h]
    · have hplain : ∀ m ∈ n :: rest, Node.isInline m = false := by
        rw [← List.any_cons, Bool.not_eq_true] at h
        exact fun m hm => Bool.not_eq_true _ ▸ List.any_eq_false.1 h m hm
      rw [if_neg h, content, content, tidy, tidy, areBlank_contentAll_spacedAll hplain,
        areBlank_contentAll hplain, tidyAll_contentAll_spacedAll depth (n :: rest)]
  | _, .text _ => rfl
  | _, .cdata _ => rfl
  | _, .comment _ => rfl
  | _, .instruction .. => rfl
  | _, .reference _ => rfl

theorem tidyAll_contentAll_spacedAll : ∀ (depth : Nat) (ns : List (Node Text)),
    tidyAll true (contentAll scope id inside (spacedAll depth ns)) =
      tidyAll true (contentAll scope id inside ns)
  | _, [] => rfl
  | depth, n :: rest => by
    have hn := tidy_content_spaced (depth + 1) n
    have hrest := tidyAll_contentAll_spacedAll depth rest
    have htext := congrArg isText hn
    have hline : (content scope id inside (.text (newLine (depth + 1)))).isText = true := rfl
    rw [isText_tidy, isText_tidy] at htext
    rw [spacedAll, contentAll, contentAll, contentAll, tidyAll, hline, Bool.and_self, if_pos rfl,
      tidyAll, tidyAll, htext, hn, hrest]

end

end

end Xml.Content

/-! ## The inspection -/

namespace Inspection

open Document Xml Xml.Content

/-- A listener has the same rules. -/
theorem listenerPayload_tidy (c : Content) : listenerPayload c.tidy = listenerPayload c := by
  rw [keeps_tidy.listenerPayload, listenerPayload_eq]
  simp only [strip_leadingText_tidy]

theorem warnings_tidy (root : Content) : warnings root.tidy = warnings root := by
  unfold warnings
  rw [keeps_tidy.listeners, keeps_tidy.listeners, keeps_tidy.modelChild?, List.map_map,
    List.zipIdx_map, List.filterMap_map]
  dsimp only
  congr 1
  · congr 1
    refine List.filterMap_congr fun x _ => ?_
    obtain ⟨⟨c, owner⟩, i⟩ := x
    simp only [Function.comp_apply, Prod.map, id, listenerPayload_tidy]
  · cases modelChild? "case" root with
    | none => rfl
    | some c => simp only [Option.map_some, keeps_tidy.engineAttribute?, keeps_tidy.plainAttribute?]

theorem taskRules_tidy (task : Content) : taskRules task.tidy = taskRules task := by
  rw [keeps_tidy.taskRules, taskRules]
  simp only [listenerPayload_tidy]

/-- The same is found in a human task. -/
theorem taskAt_tidy (x : Place × Content) : taskAt (x.1, x.2.tidy) = taskAt x := by
  rw [taskAt, taskAt, keeps_tidy.taskWith, askedOutcomes, askedOutcomes, taskRules_tidy]

/-- White space between elements makes no difference to an inspection. -/
theorem inspectRoot_tidy (root : Content) : inspectRoot root.tidy = inspectRoot root := by
  have hrules : reachedRules root.tidy = reachedRules root := by
    rw [reachedRules, keeps_tidy.reachedTasks, List.flatMap_map]
    exact List.flatMap_congr fun x _ => taskRules_tidy x.2
  have htasks : (reachedTasks root.tidy).map taskAt = (reachedTasks root).map taskAt := by
    rw [keeps_tidy.reachedTasks, List.map_map]
    exact List.map_congr_left fun x _ => taskAt_tidy x
  rw [inspectRoot_eq, inspectRoot_eq root, hrules, htasks, keeps_tidy.reportOn, warnings_tidy]
  rfl

end Inspection

end CasePlan
