import CasePlan.Template.Basic

/-!
# What a library holds

* `Text.precedesOrEq_iff`: texts are in the order of their code points, which is a linear one.
* `find?_ofTemplates`: of the templates with one identifier the last is found;
  `nodup_ids_ofTemplates`, `mem_ids_iff`: every identifier is listed once, and those that are listed are
  those that are found.
* `ofFiles_eq_of_perm`: the order in which a directory lists its files makes no difference.
* `Shelf.libraries_eq_replicate`: a shelf gives the library that it loaded first, however often it is
  asked.
-/

namespace CasePlan

/-! ## The order of names -/

namespace Text

theorem precedes_iff {s t : Text} : precedes s t = true ↔ List.lt s t := by
  induction s generalizing t with
  | nil =>
    cases t with
    | nil => exact ⟨nofun, nofun⟩
    | cons b t => exact ⟨fun _ => .nil, fun _ => rfl⟩
  | cons a s ih =>
    cases t with
    | nil => exact ⟨nofun, nofun⟩
    | cons b t =>
      rw [precedes, Bool.or_eq_true, Bool.and_eq_true, decide_eq_true_iff, beq_iff_eq, ih]
      constructor
      · rintro (h | ⟨rfl, h⟩)
        · exact .rel h
        · exact .cons h
      · intro h
        cases h with
        | rel h => exact .inl h
        | cons h => exact .inr ⟨rfl, h⟩

theorem precedesOrEq_iff {s t : Text} : precedesOrEq s t = true ↔ List.le s t := by
  rw [precedesOrEq, Bool.not_eq_true', Bool.eq_false_iff, Ne, precedes_iff]
  rfl

theorem precedesOrEq_trans {s t u : Text} (hst : precedesOrEq s t = true)
    (htu : precedesOrEq t u = true) : precedesOrEq s u = true :=
  precedesOrEq_iff.2 (List.le_trans (α := CodePoint) (precedesOrEq_iff.1 hst) (precedesOrEq_iff.1 htu))

theorem precedesOrEq_total (s t : Text) : (precedesOrEq s t || precedesOrEq t s) = true := by
  rw [Bool.or_eq_true, precedesOrEq_iff, precedesOrEq_iff]
  exact List.le_total (α := CodePoint) s t

theorem eq_of_precedesOrEq {s t : Text} (hst : precedesOrEq s t = true)
    (hts : precedesOrEq t s = true) : s = t :=
  List.le_antisymm (α := CodePoint) (precedesOrEq_iff.1 hst) (precedesOrEq_iff.1 hts)

end Text

/-! ## Libraries -/

namespace Library

/-- Of the templates with one identifier the last is found. -/
theorem find?_ofTemplates (templates : List Template) (id : Text) :
    (ofTemplates templates).find? id = templates.reverse.find? fun t => t.id = id := by
  rw [find?, ofTemplates, Table.get?_ofList, Table.last?, ← List.map_reverse]
  induction templates.reverse with
  | nil => rfl
  | cons t rest ih =>
    rw [List.map_cons, Table.get?, ih]
    by_cases h : t.id = id <;> simp [h]

/-- Every identifier is listed once. -/
theorem nodup_ids_ofTemplates (templates : List Template) : (ofTemplates templates).ids.Nodup :=
  (List.mergeSort_perm _ _).nodup_iff.2 (Table.nodup_keys_ofList _)

/-- The identifiers that are listed are those under which a template is found. -/
theorem mem_ids_iff {library : Library} {id : Text} :
    id ∈ library.ids ↔ (library.find? id).isSome = true := by
  rw [ids, (List.mergeSort_perm _ _).mem_iff, find?, Option.isSome_iff_ne_none, Ne,
    Table.get?_eq_none_iff, Decidable.not_not]

/-- The identifiers are listed in their order. -/
theorem pairwise_ids (library : Library) :
    library.ids.Pairwise fun s t => Text.precedesOrEq s t = true := by
  refine List.pairwise_mergeSort ?_ ?_ _
  · exact fun _ _ _ => Text.precedesOrEq_trans
  · exact Text.precedesOrEq_total

/-- The order in which a directory lists its files makes no difference. -/
theorem ofFiles_eq_of_perm {files files' : List (Text × Option (List UInt8))}
    (hnd : (files.map Prod.fst).Nodup) (h : files.Perm files') : ofFiles files = ofFiles files' := by
  have hsorted : ∀ l : List (Text × Option (List UInt8)),
      (l.mergeSort fun a b => Text.precedesOrEq a.1 b.1).Pairwise
        fun a b => Text.precedesOrEq a.1 b.1 = true :=
    List.pairwise_mergeSort (fun _ _ _ => Text.precedesOrEq_trans) fun a b =>
      Text.precedesOrEq_total a.1 b.1
  have hnamed : (files.filter (isTemplateFile ·.1)).Perm (files'.filter (isTemplateFile ·.1)) :=
    h.filter _
  rw [ofFiles, ofFiles]
  congr 2
  refine List.Perm.eq_of_pairwise (fun a b ha hb hab hba => ?_) (hsorted _) (hsorted _)
    (((List.mergeSort_perm _ _).trans hnamed).trans (List.mergeSort_perm _ _).symm)
  -- names that precede each other are one name, and there is one file under a name
  have hname : a.1 = b.1 := Text.eq_of_precedesOrEq hab hba
  have hafile : a ∈ files := (List.mem_filter.1 ((List.mergeSort_perm _ _).mem_iff.1 ha)).1
  have hbfile : b ∈ files :=
    h.mem_iff.2 (List.mem_filter.1 ((List.mergeSort_perm _ _).mem_iff.1 hb)).1
  have hvalue := Table.get?_eq_some_of_mem hnd hafile
  rw [hname, Table.get?_eq_some_of_mem hnd hbfile] at hvalue
  exact Prod.ext hname (Option.some.inj hvalue).symm

end Library

/-! ## Shelves -/

namespace Shelf

/-- A loaded shelf stays as it is. -/
theorem library_of_loaded (s : Shelf) (load load' : Unit → Library) :
    (s.library load).2.library load' = s.library load := by
  obtain ⟨_ | library⟩ := s <;> rfl

/-- The libraries that a shelf gives when it is asked again and again; each time something else may lie
in the directory. -/
def libraries (s : Shelf) : List (Unit → Library) → List Library
  | [] => []
  | load :: rest =>
    let (library, after) := s.library load
    library :: after.libraries rest

/-- They are all the one that it loaded first. -/
theorem libraries_eq_replicate (s : Shelf) (load : Unit → Library) (rest : List (Unit → Library)) :
    s.libraries (load :: rest) = List.replicate (rest.length + 1) (s.library load).1 := by
  induction rest generalizing s load with
  | nil => rfl
  | cons load' rest ih =>
    have hrest := ih (s.library load).2 load'
    rw [library_of_loaded] at hrest
    exact congrArg ((s.library load).1 :: ·) hrest

end Shelf

end CasePlan
