import CasePlan.Compilation
import CasePlan.Inspection.Extraction
import CasePlan.Logic.Payload
import CasePlan.Proofs.Json.RoundTrip
import CasePlan.Proofs.Logic.Soundness
import CasePlan.Proofs.Text.Utf8

/-!
# Descriptions that are handed over again

`Logic.toJson` writes an accepted description in the form in which descriptions are accepted: with
the joins and names that were settled, without what was left out.  Accepting that changes nothing
any more.

* `heldBy_toJson`: the data of a task, a stage, a pattern and a description hold it.
* `isExact_toJson`: the data of an accepted description have a text of their own.
* `parse_toJson_of_accepted`: so the description is read back, from the data and from their text;
  `parseText_writeIndented_of_extract`: from what is handed over for a document too.
-/

namespace CasePlan

open Validation

/-! ## The data hold the description -/

theorem Json.get?_optionalMember (name key : Text) (value : Option Json) :
    Table.get? key (optionalMember name value) = if name = key then value else none := by
  cases value with
  | none => exact (ite_self none).symm
  | some v => rfl

/-- What is found in the data of a task. -/
theorem Task.getD_toJson (t : Task) (name : Text) :
    t.toJson.getD name =
      ((((((Table.get? name [("slug", Json.str t.slug), ("displayName", .str t.displayName),
        ("outcomes", .arr (t.outcomes.map .str))]).or
        (if "assignee" = name then t.assignee.map .str else none)).or
        (if "candidateGroups" = name then t.candidateGroups.map .str else none)).or
        (if "dueDate" = name then t.dueDate.map .str else none)).or
        (if "formKey" = name then t.formKey.map .str else none)).or
        (if "repetitionLimit" = name then t.repetitionLimit.map .int else none)).getD .null := by
  simp only [Task.toJson, Json.getD, Json.get?, Table.get?_append, Json.get?_optionalMember]

theorem Task.heldBy_toJson (t : Task) : t.HeldBy t.toJson where
  isObject := ⟨_, rfl⟩
  slug := rfl
  displayName := rfl
  outcomes := rfl
  assignee := by rw [getD_toJson]; cases t.assignee <;> rfl
  candidateGroups := by rw [getD_toJson]; cases t.candidateGroups <;> rfl
  dueDate := by rw [getD_toJson]; cases t.dueDate <;> rfl
  formKey := by rw [getD_toJson]; cases t.formKey <;> rfl
  repetitionLimit := by rw [getD_toJson]; cases t.repetitionLimit <;> rfl

theorem Stage.heldBy_toJson {slugs : List Text} {s : Stage} (h : s.Sound slugs) :
    s.HeldBy s.toJson :=
  ⟨⟨_, rfl⟩, rfl, rfl, acceptStageName_str h.displayName_ne_nil h.displayName⟩

/-- A condition between tasks, on a fitting outcome, is read from its data. -/
theorem Condition.accept_toJson {slugs : List Text} {c : Condition}
    (hslugs : ∀ s ∈ slugs, IsLabel s) (hsource : c.source ∈ slugs) (htarget : c.target ∈ slugs)
    (houtcome : IsOutcome c.outcome) : acceptCondition slugs c.toJson = .ok c := by
  have hread : ∀ {t : Text}, IsLabel t → label? (.str t) = some t :=
    fun h => label?_eq_some_iff.2 ⟨rfl, h.hasContent⟩
  have hs : label? (c.toJson.getD "sourceTask") = some c.source := hread (hslugs _ hsource)
  have ht : label? (c.toJson.getD "targetTask") = some c.target := hread (hslugs _ htarget)
  have ho : label? (c.toJson.getD "outcome") = some c.outcome := hread houtcome.toIsLabel
  obtain ⟨source, target, outcome, comparison, join⟩ := c
  unfold acceptCondition Condition.toJson at *
  simp only [hs, ht, ho, houtcome.isXmlText, houtcome.noSectionEnd, hsource, htarget]
  -- the words of comparisons are no joins, and the words of joins are in upper case
  cases comparison <;> cases join <;> rfl

theorem Pattern.heldBy_toJson {slugs : List Text} {p : Pattern} (hslugs : ∀ s ∈ slugs, IsLabel s)
    (h : p.Sound slugs) : p.HeldBy slugs p.toJson where
  isObject := ⟨_, rfl⟩
  kind := PatternKind.ofWord?_word p.kind
  members := rfl
  conditions := by
    refine .inr ⟨_, rfl, List.forall₂_map_left_iff.2 (List.forall₂_same.2 fun c hc => ?_)⟩
    exact Condition.accept_toJson hslugs (h.sources c hc) (h.targets c hc) (h.outcomes c hc)

namespace Logic

variable {logic : Logic}

theorem Consistent.isLabel_of_mem_slugs (hc : logic.Consistent) : ∀ s ∈ logic.slugs, IsLabel s :=
  List.forall_mem_map.2 fun t ht => (hc.task t ht).slug

/-- The data of a consistent description hold it. -/
theorem heldBy_toJson (hc : logic.Consistent) : logic.HeldBy logic.toJson where
  isObject := ⟨_, rfl⟩
  tasks := ⟨_, rfl, List.forall₂_map_left_iff.2 (List.forall₂_same.2 fun t _ => t.heldBy_toJson)⟩
  stages := .inr ⟨_, rfl, List.forall₂_map_left_iff.2 (List.forall₂_same.2 fun s hs =>
    Stage.heldBy_toJson (hc.stage s hs))⟩
  patterns := .inr ⟨_, rfl, List.forall₂_map_left_iff.2 (List.forall₂_same.2 fun p hp =>
    Pattern.heldBy_toJson hc.isLabel_of_mem_slugs (hc.pattern p hp))⟩

end Logic

/-! ## The data have a text -/

namespace Json

/-- A text that XML can carry holds no surrogates. -/
theorem isExact_str {t : Text} (h : t.isXmlText = true) : (Json.str t).IsExact :=
  fun c hc => Utf8.isSurrogate_of_isXmlChar (List.all_eq_true.1 h c hc)

theorem isExact_arr_map {α : Type} {f : α → Json} {xs : List α} (h : ∀ x ∈ xs, (f x).IsExact) :
    (Json.arr (xs.map f)).IsExact :=
  areExact_iff.2 (List.forall_mem_map.2 h)

/-- An object has a text of its own if its names are among different ones that XML can carry and its
values have texts of their own. -/
theorem isExact_obj {members : List (Text × Json)} (names : List Text)
    (hsub : (members.map Prod.fst).Sublist names) (hnodup : names.Nodup)
    (hnames : names.all Text.isXmlText = true) (hvalues : ∀ v ∈ members.map Prod.snd, v.IsExact) :
    (Json.obj members).IsExact := by
  refine ⟨hsub.nodup hnodup, membersAreExact_iff.2 fun m hm => ⟨?_, ?_⟩⟩
  · exact isExact_str (List.all_eq_true.1 hnames _ (hsub.subset (List.mem_map_of_mem hm)))
  · exact hvalues _ (List.mem_map_of_mem hm)

theorem map_fst_optionalMember (name : Text) (value : Option Json) :
    ((optionalMember name value).map Prod.fst).Sublist [name] := by
  cases value with
  | none => exact List.nil_sublist _
  | some v => exact List.Sublist.refl _

theorem isExact_optionalMember {name : Text} {o : Option Text}
    (h : ∀ t ∈ o, t.isXmlText = true) :
    ∀ v ∈ (optionalMember name (o.map str)).map Prod.snd, v.IsExact := by
  cases o with
  | none => exact fun v hv => absurd hv List.not_mem_nil
  | some t => exact List.forall_mem_singleton.2 (isExact_str (h t rfl))

end Json

open Json

theorem Task.isExact_toJson {t : Task} (h : t.Sound) : t.toJson.IsExact := by
  refine isExact_obj ["slug", "displayName", "outcomes", "assignee", "candidateGroups", "dueDate",
    "formKey", "repetitionLimit"] ?_ (by decide) (by decide) ?_
  · simp only [List.map_append]
    exact (((((List.Sublist.refl _).append (map_fst_optionalMember _ _)).append
      (map_fst_optionalMember _ _)).append (map_fst_optionalMember _ _)).append
      (map_fst_optionalMember _ _)).append (map_fst_optionalMember _ _)
  · simp only [List.map_append, List.forall_mem_append]
    refine ⟨⟨⟨⟨⟨?_, ?_⟩, ?_⟩, ?_⟩, ?_⟩, ?_⟩
    · simp only [List.map_cons, List.map_nil, List.forall_mem_cons]
      exact ⟨isExact_str h.slug.isXmlText, isExact_str h.displayName.isXmlText,
        isExact_arr_map fun o ho => isExact_str (h.outcomes o ho).isXmlText, by simp⟩
    · exact isExact_optionalMember h.assignee
    · exact isExact_optionalMember h.candidateGroups
    · exact isExact_optionalMember h.dueDate
    · exact isExact_optionalMember h.formKey
    · cases t.repetitionLimit with
      | none => exact fun v hv => absurd hv List.not_mem_nil
      | some n => exact List.forall_mem_singleton.2 trivial

theorem Condition.isExact_toJson {slugs : List Text} {c : Condition}
    (hslugs : ∀ s ∈ slugs, IsLabel s) (hsource : c.source ∈ slugs) (htarget : c.target ∈ slugs)
    (houtcome : IsOutcome c.outcome) : c.toJson.IsExact := by
  refine isExact_obj ["sourceTask", "targetTask", "outcome", "operator", "logicalOperator"]
    (List.Sublist.refl _) (by decide) (by decide) ?_
  have hcomparison : c.comparison.word.isXmlText = true := by cases c.comparison <;> rfl
  have hjoin : c.join.word.isXmlText = true := by cases c.join <;> rfl
  simp only [List.map_cons, List.map_nil, List.forall_mem_cons]
  exact ⟨isExact_str (hslugs _ hsource).isXmlText, isExact_str (hslugs _ htarget).isXmlText,
    isExact_str houtcome.isXmlText, isExact_str hcomparison, isExact_str hjoin, by simp⟩

theorem Pattern.isExact_toJson {slugs : List Text} {p : Pattern} (hslugs : ∀ s ∈ slugs, IsLabel s)
    (h : p.Sound slugs) : p.toJson.IsExact := by
  refine isExact_obj ["tasks", "conditions", "type"] (List.Sublist.refl _) (by decide)
    (by decide) ?_
  have hkind : p.kind.word.isXmlText = true := by cases p.kind <;> rfl
  simp only [List.map_cons, List.map_nil, List.forall_mem_cons]
  exact ⟨isExact_arr_map fun m hm => isExact_str (hslugs _ (h.members_subset m hm)).isXmlText,
    isExact_arr_map fun c hc => Condition.isExact_toJson hslugs (h.sources c hc) (h.targets c hc)
      (h.outcomes c hc),
    isExact_str hkind, by simp⟩

theorem Stage.isExact_toJson {slugs : List Text} {s : Stage} (hslugs : ∀ s ∈ slugs, IsLabel s)
    (h : s.Sound slugs) : s.toJson.IsExact := by
  refine isExact_obj ["slug", "displayName", "tasks"] (List.Sublist.refl _) (by decide)
    (by decide) ?_
  simp only [List.map_cons, List.map_nil, List.forall_mem_cons]
  exact ⟨isExact_str h.slug.isXmlText, isExact_str h.displayName,
    isExact_arr_map fun m hm => isExact_str (hslugs _ (h.members_subset m hm)).isXmlText, by simp⟩

namespace Logic

variable {logic : Logic}

/-- The data of a consistent description have a text of their own. -/
theorem isExact_toJson (hc : logic.Consistent) : logic.toJson.IsExact := by
  refine isExact_obj ["tasks", "patterns", "stages"] (List.Sublist.refl _) (by decide)
    (by decide) ?_
  have hslugs := hc.isLabel_of_mem_slugs
  simp only [List.map_cons, List.map_nil, List.forall_mem_cons]
  exact ⟨isExact_arr_map fun t ht => Task.isExact_toJson (hc.task t ht),
    isExact_arr_map fun p hp => Pattern.isExact_toJson hslugs (hc.pattern p hp),
    isExact_arr_map fun s hs => Stage.isExact_toJson hslugs (hc.stage s hs), by simp⟩

/-! ## Handing it over again -/

/-- A consistent description is accepted from its data. -/
theorem accept_toJson (hc : logic.Consistent) : accept logic.toJson = .ok logic :=
  accept_eq_ok_iff.2 ⟨heldBy_toJson hc, hc⟩

/-- So it is from the text of its data, however that is spaced. -/
theorem parse_writeAt (hc : logic.Consistent) {style : Json.Style} (hstyle : style.IsSpaced)
    (depth : Nat) : parse (.str (Json.writeAt style depth logic.toJson)) = .ok logic := by
  show parseText _ = _
  rw [parseText, Json.read_writeAt hstyle (isExact_toJson hc)]
  exact accept_toJson hc

end Logic

/-- What comes out of a document is consistent. -/
theorem consistent_of_toLogic {report : Report} {logic : Logic} (h : report.toLogic = .ok logic) :
    logic.Consistent := by
  unfold Report.toLogic at h
  split at h
  · cases h
  split at h
  · cases h
  · exact consistent_of_parse (mapError_eq_ok_iff.1 h)

theorem consistent_of_extract {document : Text} {logic : Logic} (h : extract document = .ok logic) :
    logic.Consistent := by
  unfold extract at h
  split at h
  · cases h
  · exact consistent_of_toLogic h

theorem consistent_of_extractBytes {bytes : List UInt8} {logic : Logic}
    (h : extractBytes bytes = .ok logic) : logic.Consistent := by
  unfold extractBytes at h
  split at h
  · cases h
  · exact consistent_of_toLogic h

namespace Logic

/-- A description that was accepted, as data, as text or as bytes, or taken out of a document, is
the same when its data are handed over again, as they are or as their text.  So it is compiled to
the same document. -/
theorem parse_toJson_of_accepted {logic : Logic}
    (h : (∃ raw, parse raw = .ok logic) ∨ (∃ bytes, parseBytes bytes = .ok logic) ∨
      (∃ document, extract document = .ok logic) ∨ ∃ bytes, extractBytes bytes = .ok logic) :
    parse logic.toJson = .ok logic ∧
      (∀ style : Json.Style, style.IsSpaced →
        parse (.str (Json.writeAt style 0 logic.toJson)) = .ok logic) ∧
      ∀ config case?, compile config case? (parse logic.toJson) = compile config case? (.ok logic) ∧
        ∀ style : Json.Style, style.IsSpaced →
          compile config case? (parse (.str (Json.writeAt style 0 logic.toJson))) =
            compile config case? (.ok logic) := by
  have hc : logic.Consistent := by
    rcases h with ⟨raw, h⟩ | ⟨bytes, h⟩ | ⟨document, h⟩ | ⟨bytes, h⟩
    · exact consistent_of_parse h
    · obtain ⟨t, -, h⟩ := exists_parse_of_parseBytes h
      exact consistent_of_parse h
    · exact consistent_of_extract h
    · exact consistent_of_extractBytes h
  have hdata : parse logic.toJson = .ok logic := accept_toJson hc
  have htext := fun (style : Json.Style) (hstyle : style.IsSpaced) => parse_writeAt hc hstyle 0
  refine ⟨hdata, htext, fun config case? => ⟨by rw [hdata], fun style hstyle => ?_⟩⟩
  rw [htext style hstyle]

/-- What is taken out of a document is read back from its text in lines, which is how it is handed
over on the command line. -/
theorem parseText_writeIndented_of_extract {document : Text} {logic : Logic}
    (h : extract document = .ok logic) : parseText logic.toJson.writeIndented = .ok logic :=
  parse_writeAt (consistent_of_extract h) Json.Style.isSpaced_indented 0

/-- A description with a join for an operator, a stage without a name, and members that are not
kept. -/
def looseValue : Json :=
  .obj [("version", .int 2),
    ("tasks", .arr
      [.obj [("slug", .str "draft"), ("displayName", .str "Draft"),
          ("outcomes", .arr [.str "done"]), ("assignee", .null), ("repetitionLimit", .int 2)],
        .obj [("slug", .str "review"), ("displayName", .str "Review"),
          ("outcomes", .arr [.str "say \"no\""]), ("formKey", .str "form")]]),
    ("patterns", .arr
      [.obj [("type", .str "parallel"), ("tasks", .arr [.str "draft", .str "review"]),
        ("conditions", .arr [.obj [("sourceTask", .str "review"), ("targetTask", .str "draft"),
          ("outcome", .str "say \"no\""), ("operator", .str "or")]])]]),
    ("stages", .arr [.obj [("slug", .str "check"), ("displayName", .null),
      ("tasks", .arr [.str "review"])]])]

/-- The description that `looseValue` holds. -/
def loose : Logic where
  tasks :=
    [{ slug := "draft", displayName := "Draft", outcomes := ["done"], repetitionLimit := some 2 },
      { slug := "review", displayName := "Review", outcomes := ["say \"no\""],
        formKey := some "form" }]
  patterns :=
    [⟨.parallel, ["draft", "review"],
      [{ source := "review", target := "draft", outcome := "say \"no\"", join := .either }]⟩]
  stages := [{ slug := "check", displayName := "check", members := ["review"] }]

/-- The loose description is the same after a second time. -/
theorem parse_toJson_loose : parse looseValue = .ok loose ∧ parse loose.toJson = .ok loose ∧
    parse (.str (Json.writeAt .spaced 0 loose.toJson)) = .ok loose := by
  have hparse : parse looseValue = .ok loose := by rfl
  obtain ⟨hdata, htext, -⟩ := parse_toJson_of_accepted (.inl ⟨looseValue, hparse⟩)
  exact ⟨hparse, hdata, htext .spaced Json.Style.isSpaced_spaced⟩

end Logic

end CasePlan
