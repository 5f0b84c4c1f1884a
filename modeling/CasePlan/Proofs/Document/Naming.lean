import CasePlan.Proofs.Document.Collision
import CasePlan.Proofs.Document.Texts
import CasePlan.Proofs.Inspection.View

/-!
# What identifiers are spelled with

Every identifier in a document is put together from the name of the case, the application, slugs,
numbers and some fixed words, and begins with a word or with one of the names.  If these are safe in
identifiers, all identifiers are; a line feed at the end of the name of the case gets into them.

* `readPlainName_of_isIdSafe`: safe names are XML names.
* `exists_read_tree`: the identifiers that are read from a document.
* `isNameOf_scaffoldIds`, `isNameOf_nodeIds`, `isNameOf_generatedIds`: what is there for the case,
  for nodes and for sentries; `isNameOf_elementIds`: all identifiers.
* `compile_ids_isIdSafe_iff`: when the identifiers of a compiled document are safe.
-/

namespace CasePlan

/-! ## Safe names are XML names -/

namespace Xml

theorem isNameStart_of_isNameStart {c : CodePoint} (h : CasePlan.isNameStart c = true) :
    isNameStart c = true := by
  simp only [CasePlan.isNameStart, Bool.or_eq_true, Bool.and_eq_true, decide_eq_true_eq] at h
  rcases h with (h | h) | rfl
  · simp [isNameStart, h]
  · simp [isNameStart, h]
  · decide

theorem isNamePart_of_isNamePart {c : CodePoint} (h : CasePlan.isNamePart c = true) :
    isNamePart c = true ∧ isColon c = false := by
  simp only [CasePlan.isNamePart, CasePlan.isNameStart, Bool.or_eq_true, Bool.and_eq_true,
    decide_eq_true_eq] at h
  rcases h with (((h | h) | rfl) | h) | rfl
  · simp only [isNamePart, isNameStart, isColon, h, beq_eq_false_iff_ne]
    exact ⟨by simp, by omega⟩
  · simp only [isNamePart, isNameStart, isColon, h, beq_eq_false_iff_ne]
    exact ⟨by simp, by omega⟩
  · decide
  · simp only [isNamePart, isColon, h, beq_eq_false_iff_ne]
    exact ⟨by simp, by omega⟩
  · decide

/-- A text that is safe in identifiers is a name without a colon. -/
theorem readPlainName_of_isIdSafe {t : Text} (h : t.isIdSafe = true) :
    readPlainName t = some (t, []) := by
  cases t with
  | nil => exact absurd h Bool.false_ne_true
  | cons c rest =>
    obtain ⟨hstart, hrest⟩ := Text.isNameOf_cons.1 h
    have hparts : ∀ d ∈ c :: rest, isNamePart d = true ∧ isColon d = false := by
      intro d hd
      exact isNamePart_of_isNamePart
        (List.all_eq_true.1 (Text.all_of_isNameOf (fun _ hc => hc) h) d hd)
    have hname : isName (c :: rest) = true := by
      rw [isName, isNameStart_of_isNameStart hstart, Bool.true_or, Bool.true_and]
      refine List.all_eq_true.2 fun d hd => ?_
      rw [(hparts d (List.mem_cons_of_mem c hd)).1, Bool.true_or]
    have hread := readName_append (t := []) hname (by simp)
    rw [List.append_nil] at hread
    have hcolon : (c :: rest).any isColon = false :=
      List.any_eq_false.2 fun d hd => by rw [(hparts d hd).2]; exact Bool.false_ne_true
    rw [readPlainName, hread, Option.bind_eq_bind, Option.bind_some]
    simp only [hcolon, Bool.false_eq_true, if_false]
    rfl

end Xml

namespace Document

variable {α : Type} [Coordinate α] {c : Context α}

/-! ## The identifiers of elements -/

omit [Coordinate α] in
/-- The case, the application and all nodes have names with some letters. -/
structure Context.NamedOf (c : Context α) (p : CodePoint → Bool) : Prop where
  /-- The name of the case is one. -/
  caseName : c.case.name.isNameOf p = true
  /-- The identifier of the application is one. -/
  identifier : c.case.application.identifier.isNameOf p = true
  /-- Its short name is one. -/
  slug : c.case.application.slug.isNameOf p = true
  /-- The slugs are some. -/
  node : ∀ n ∈ c.diagram.inOrder, n.slug.isNameOf p = true

section

open Text (isNameOf_append isNameOf_word isNameOf_more all_of_isNameOf all_ofNat)

variable {p : CodePoint → Bool} (hp : ∀ c, isNamePart c = true → p c = true) (hc : c.NamedOf p)
include hp hc

omit [Coordinate α] in
theorem isNameOf_caseId : c.case.id.isNameOf p = true := by
  have hname := isNameOf_more hp hc.caseName (t := "_") (by decide)
  exact (isNameOf_append (Text.ne_nil_of_isNameOf hname)).2
    ⟨hname, all_of_isNameOf hp hc.identifier⟩

omit [Coordinate α] in
theorem isNameOf_mainItem : c.case.mainItem.isNameOf p = true :=
  (isNameOf_append (Text.ne_nil_of_isNameOf hc.slug)).2 ⟨hc.slug, all_of_isNameOf hp hc.caseName⟩

omit hp in
theorem isNameOf_scope (hs : c.Sound) {n : Node α} (hn : n ∈ c.diagram.inOrder) :
    (c.scope n).isNameOf p = true := by
  rcases scope_eq_caseName_or_slug hs hn with h | ⟨m, hm, h⟩
  · exact h ▸ hc.caseName
  · exact h ▸ hc.node m hm

theorem isNameOf_scopedName (hs : c.Sound) {n : Node α} (hn : n ∈ c.diagram.inOrder) :
    (scopedName c n).isNameOf p = true := by
  have hscope := isNameOf_scope hc hs hn
  exact (isNameOf_append (Text.ne_nil_of_isNameOf hscope)).2
    ⟨hscope, all_of_isNameOf hp (hc.node n hn)⟩

omit [Coordinate α] in
/-- The identifiers of the elements that are there for the case. -/
theorem isNameOf_scaffoldIds {id : Text} (h : id ∈ scaffoldIds c) : id.isNameOf p = true := by
  have hmain := all_of_isNameOf hp (isNameOf_mainItem hp hc)
  simp only [scaffoldIds, List.mem_cons, List.not_mem_nil, or_false] at h
  rcases h with rfl | rfl | rfl | rfl | rfl
  · exact isNameOf_more hp hc.caseName (by decide)
  · exact isNameOf_word hp (by decide) (all_of_isNameOf hp hc.caseName)
  · exact isNameOf_more hp (isNameOf_caseId hp hc) (by decide)
  · exact isNameOf_word hp (by decide) hmain
  · exact isNameOf_word hp (by decide) hmain

/-- The identifiers of the elements that are there for a node. -/
theorem isNameOf_nodeIds (hs : c.Sound) {n : Node α} (hn : n ∈ c.diagram.inOrder) {id : Text}
    (h : id ∈ nodeIds c n) : id.isNameOf p = true := by
  have hscoped := isNameOf_scopedName hp hc hs hn
  simp only [nodeIds, List.mem_cons, List.not_mem_nil, or_false] at h
  rcases h with rfl | rfl | rfl
  · refine isNameOf_word hp (by decide) ?_
    split
    · exact all_of_isNameOf hp (isNameOf_mainItem hp hc)
    · exact all_of_isNameOf hp hscoped
  · exact isNameOf_word hp (by decide) (all_of_isNameOf hp hscoped)
  · unfold Context.definitionId
    split
    · exact isNameOf_more hp (hc.node n hn) (by decide)
    · exact hscoped

/-- The ends of an edge are named by nodes or by the main item. -/
theorem all_edgeEnds (hs : c.Sound) {n : Node α} (hn : n ∈ c.diagram.inOrder) {s : Sentry α}
    (h : s ∈ c.sentriesOf n) {e : Edge α} (he : e ∈ s.edges) : (edgeEnds c e).all p = true := by
  have hsource : ∀ t : Text, t = (if e.source = rootContainer then c.case.mainItem else e.source) →
      t.all p = true := by
    rintro t rfl
    split
    · exact all_of_isNameOf hp (isNameOf_mainItem hp hc)
    · next hne =>
      obtain ⟨n?, hleaves⟩ := exists_leaves hs hn h he
      cases n? with
      | none => exact absurd hleaves.2.1 hne
      | some m =>
        rw [hleaves.1]
        exact all_of_isNameOf hp (hc.node m hleaves.mem_inOrder)
  have hword : List.all ("_to_" : Text) p = true :=
    all_of_isNameOf hp (Text.isNameOf_mono (p := isNamePart) hp (by decide))
  have htarget := all_of_isNameOf hp (hc.node n hn)
  rw [← (hs.guardedBy hn).target s h e he] at htarget
  rw [edgeEnds, List.all_append, List.all_append, hsource _ rfl, hword, htarget]
  rfl

/-- The identifiers of the elements that are there for a sentry. -/
theorem isNameOf_generatedIds (hs : c.Sound) {n : Node α} (hn : n ∈ c.diagram.inOrder)
    {s : Sentry α} (hmem : s ∈ c.sentriesOf n) {id : Text} (h : id ∈ generatedIds c s) :
    id.isNameOf p = true := by
  have hname : (sentryName s).all p = true := by
    rw [sentryName, List.all_append, (hs.guardedBy hn).owner s hmem, all_ofNat hp, Bool.and_true]
    exact all_of_isNameOf hp (hc.node n hn)
  rcases mem_generatedIds.1 h with rfl | rfl | rfl | ⟨place, -, rfl⟩ | ⟨e, he, rfl⟩
  · exact isNameOf_word hp (by decide) hname
  · exact isNameOf_word hp (by decide) hname
  · exact isNameOf_word hp (by decide) hname
  · have hsentry : Text.isNameOf p ("sentryOnPart" ++ sentryName s) = true :=
      isNameOf_word hp (by decide) hname
    exact isNameOf_more hp (isNameOf_more hp hsentry (t := "_") (by decide))
      (all_ofNat (fun _ hc => hc) place)
  · have hends : Text.isNameOf p ("CMMNEdge_sid-" ++ edgeEnds c e) = true :=
      isNameOf_word hp (by decide) (all_edgeEnds hp hc hs hn hmem he)
    exact isNameOf_more hp hends (all_ofNat (fun _ hc => hc) s.index)

/-- All identifiers are names, if those that they are made of are. -/
theorem isNameOf_elementIds (hs : c.Sound) {id : Text} (h : id ∈ elementIds c) :
    id.isNameOf p = true := by
  rw [elementIds_eq, List.mem_cons, List.mem_cons, List.mem_append, List.mem_append] at h
  rcases h with rfl | rfl | (h | h) | h
  · exact isNameOf_caseId hp hc
  · exact isNameOf_word hp (by decide) (all_of_isNameOf hp (isNameOf_caseId hp hc))
  · exact isNameOf_scaffoldIds hp hc h
  · obtain ⟨n, hn, h⟩ := List.mem_flatMap.1 h
    exact isNameOf_nodeIds hp hc hs hn h
  · obtain ⟨s, hmem, h⟩ := List.mem_flatMap.1 h
    obtain ⟨n, hn, hmem⟩ := List.mem_flatMap.1 hmem
    exact isNameOf_generatedIds hp hc hs hn hmem h

end

/-- The names in a document are those of the case and the application, and the slugs of the
description. -/
theorem namedOf_of_isIdSafe {p : CodePoint → Bool} (hp : ∀ c, isNamePart c = true → p c = true)
    (hs : c.Sound) (hname : c.case.name.isNameOf p = true)
    (hidentifier : c.case.application.identifier.isIdSafe = true)
    (hslug : c.case.application.slug.isIdSafe = true)
    (htasks : ∀ t ∈ c.logic.tasks, t.slug.isIdSafe = true)
    (hstages : ∀ s ∈ c.logic.stages, s.slug.isIdSafe = true) : c.NamedOf p := by
  refine ⟨hname, Text.isNameOf_mono hp hidentifier, Text.isNameOf_mono hp hslug, fun n hn => ?_⟩
  rcases hs.diagram.shows_of_mem hs.logic hn with ⟨s, hmem, h⟩ | ⟨t, hmem, h⟩
  · exact h.slug ▸ Text.isNameOf_mono hp (hstages s hmem)
  · exact h.slug ▸ Text.isNameOf_mono hp (htasks t hmem)

/-- What is read from a document has its identifiers. -/
theorem exists_read_tree (hs : c.Sound) {t : Xml.Node Text} (ht : tree c = .ok t)
    (prettyPrint : Bool) :
    ∃ bytes read, Utf8.encode? (render prettyPrint t) = .ok bytes ∧
      Xml.Node.ofBytes? bytes = some read ∧ read.values "id" = documentIds c := by
  have hlegible := within_tree hs ht
  have hvalues := values_tree hs ht
  obtain ⟨k, d, -, -, rfl⟩ := exists_of_tree ht
  obtain ⟨bytes, hbytes, hread⟩ := Xml.ofBytes?_render hlegible prettyPrint
  exact ⟨bytes, _, hbytes, hread, (Xml.Node.values_shown ..).trans hvalues⟩

end Document

open Document

/-- If the application and all slugs are safe in identifiers, the identifiers in a compiled document
are so, and are XML names, exactly if the name of the case is.  The only other name that is accepted
is a safe one with a line feed at its end, and identifiers hold nothing else then either. -/
theorem compile_ids_isIdSafe_iff {config : Config} {name raw : Json} {application : Application}
    {compiled : Compiled}
    (h : compile config (Case.make name (.ok application)) (Logic.parse raw) = .ok compiled)
    (hidentifier : application.identifier.isIdSafe = true)
    (hslug : application.slug.isIdSafe = true)
    (htasks : ∀ t ∈ compiled.logic.tasks, t.slug.isIdSafe = true)
    (hstages : ∀ s ∈ compiled.logic.stages, s.slug.isIdSafe = true) :
    ∃ caseName bytes read, name = .str caseName ∧
      Utf8.encode? compiled.document = .ok bytes ∧ Xml.Node.ofBytes? bytes = some read ∧
      ((∀ id ∈ read.values "id", id.isIdSafe = true ∧ Xml.readPlainName id = some (id, [])) ↔
        caseName.isIdSafe = true) ∧
      (caseName.isIdSafe = false ↔ ∃ s : Text, s.isIdSafe = true ∧ caseName = s ++ [.lineFeed]) ∧
      ∀ id ∈ read.values "id", id.isNameOf isCaseLetter = true := by
  obtain ⟨case, logic, c, t, hcase, hlogic, hc, -, ht, rfl⟩ := compile_eq_ok_iff.1 h
  obtain ⟨hs, rfl, rfl, -⟩ := sound_of_prepare (consistent_of_parse hlogic) hc
  obtain ⟨hname, happlication, hcaseName⟩ := Case.make_eq_ok_iff.1 hcase
  obtain rfl := Except.ok.inj happlication
  obtain ⟨bytes, read, hbytes, hread, hvalues⟩ := exists_read_tree hs ht c.config.prettyPrint
  have hids : ∀ {p : CodePoint → Bool}, (∀ c, isNamePart c = true → p c = true) →
      c.case.name.isNameOf p = true → ∀ id ∈ read.values "id", id.isNameOf p = true := by
    intro p hp hnamed id hid
    rw [hvalues] at hid
    have hc := namedOf_of_isIdSafe hp hs hnamed hidentifier hslug htasks hstages
    exact isNameOf_elementIds hp hc hs ((perm_elementIds hs.toRouted).mem_iff.1 hid)
  refine ⟨c.case.name, bytes, read, hname, hbytes, hread, ⟨fun hall => ?_, fun hsafe id hid => ?_⟩,
    isIdSafe_eq_false_iff hcaseName,
    hids isCaseLetter_of_isNamePart (isNameOf_of_isCaseName hcaseName)⟩
  · -- the identifier of the case begins with its name
    have hmem : c.case.id ∈ read.values "id" := by
      rw [hvalues]
      exact List.mem_cons_self
    have hid := (hall _ hmem).1
    rw [Case.id, List.append_assoc] at hid
    exact ((Text.isNameOf_append (Text.ne_nil_of_isNameOf (isNameOf_of_isCaseName hcaseName))).1 hid).1
  · have hid := hids (fun _ hc => hc) hsafe id hid
    exact ⟨hid, Xml.readPlainName_of_isIdSafe hid⟩

/-- A case can be named with a line feed at the end, and has identifiers with the line feed. -/
theorem compile_ids_lineFeed : ∃ compiled,
    compile {} (Case.make (.str "review\n") (.ok { identifier := "app", slug := "app" }))
        (Logic.parse Logic.sampleValue) = .ok compiled ∧
      (∀ t ∈ compiled.logic.tasks, t.slug.isIdSafe = true) ∧
      (∀ s ∈ compiled.logic.stages, s.slug.isIdSafe = true) ∧
      ∃ bytes read, Utf8.encode? compiled.document = .ok bytes ∧
        Xml.Node.ofBytes? bytes = some read ∧ ∃ id ∈ read.values "id", id.isIdSafe = false := by
  have hmake : Case.make (.str "review\n") (.ok { identifier := "app", slug := "app" }) =
      .ok ⟨"review\n", { identifier := "app", slug := "app" }⟩ := by rfl
  obtain ⟨compiled, hcompile⟩ := exists_compile_of_carried {} hmake Logic.parse_sampleValue
    (by decide +kernel) (by decide) ⟨by decide, by decide⟩ (by decide)
  obtain ⟨case, logic, c, t, hcase, hlogic, hc, -, -, hcompiled⟩ := compile_eq_ok_iff.1 hcompile
  obtain rfl := Except.ok.inj (Logic.parse_sampleValue.symm.trans hlogic)
  have hsample : compiled.logic = Logic.sample := by
    rw [hcompiled]
    exact (sound_of_prepare (consistent_of_parse hlogic) hc).2.1
  have htasks : ∀ t ∈ compiled.logic.tasks, t.slug.isIdSafe = true := by
    rw [hsample]
    decide
  have hstages : ∀ s ∈ compiled.logic.stages, s.slug.isIdSafe = true := by
    rw [hsample]
    decide
  obtain ⟨caseName, bytes, read, hname, hbytes, hread, hiff, -, -⟩ :=
    compile_ids_isIdSafe_iff hcompile (by decide) (by decide) htasks hstages
  obtain rfl := Json.str.inj hname
  refine ⟨compiled, hcompile, htasks, hstages, bytes, read, hbytes, hread, ?_⟩
  by_contra hnone
  have hsafe : ∀ id ∈ read.values "id", id.isIdSafe = true := fun id hid =>
    eq_true_of_ne_false fun h => hnone ⟨id, hid, h⟩
  have hall := hiff.1 fun id hid => ⟨hsafe id hid, Xml.readPlainName_of_isIdSafe (hsafe id hid)⟩
  exact absurd hall (by decide)

end CasePlan
