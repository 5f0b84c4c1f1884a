import CasePlan.Document.Emission
import CasePlan.Proofs.Text.Carried
import CasePlan.Proofs.Text.Utf8
import CasePlan.Proofs.Xml.LineEnd

/-!
# Reading written documents

A document is read as the tree that it was written for: its bytes are UTF-8, its first line says
so, and its element is read as it was written.

* `decode?_declaration`: the text of a document from its bytes.
* `skipDeclaration_declaration`, `skipDoctype_of_isNameStart`, `readElement_write`: the first line,
  what may stand before the element, and the element; `ofText?_write` is all of them in turn.
* `isXmlText_write`: XML can carry what is written for a legible tree.
* `Node.shown`, `ofBytes?_render`: what is read from a document, written in lines or not;
  `values_shown`: its attributes.
-/

namespace CasePlan.Xml

open Document (declaration)

/-! ## The first line -/

theorem skipMark_declaration (t : Text) :
    afterDeclarationMark? (declaration ++ t) =
      some ("version=\"1.0\" encoding=\"UTF-8\"?>\n" ++ t) := by
  rfl

theorem readDeclaration_declaration (t : Text) :
    readDeclaration ("version=\"1.0\" encoding=\"UTF-8\"?>\n" ++ t) =
      some (⟨"1.0", some "UTF-8", none⟩, CodePoint.ofChar '\n' :: t) := by
  rfl

theorem latin_declaration :
    (declaration.flatMap Utf8.encodeCode).map (fun b => CodePoint.ofNat b.toNat) = declaration := by
  rfl

theorem declaredEncoding?_declaration (rest : List UInt8) :
    declaredEncoding? (declaration.flatMap Utf8.encodeCode ++ rest) = some .utf8 := by
  have hlen : (declaration.flatMap Utf8.encodeCode).length ≤ 200 := by decide
  unfold declaredEncoding?
  rw [List.take_append, List.take_of_length_le hlen, List.map_append, latin_declaration]
  simp only [skipMark_declaration, Option.bind_some, readDeclaration_declaration]
  rfl

theorem detect?_declaration (rest : List UInt8) :
    detect? (declaration.flatMap Utf8.encodeCode ++ rest) =
      some (.utf8, declaration.flatMap Utf8.encodeCode ++ rest) := by
  have h := declaredEncoding?_declaration rest
  have hdetect : detect? (declaration.flatMap Utf8.encodeCode ++ rest) =
      (declaredEncoding? (declaration.flatMap Utf8.encodeCode ++ rest)).map
        (·, declaration.flatMap Utf8.encodeCode ++ rest) := by
    rfl
  rw [hdetect, h]
  rfl

/-- A document in UTF-8 is read as its text. -/
theorem decode?_declaration {t : Text} (ht : t.isXmlText = true) :
    decode? ((declaration ++ t).flatMap Utf8.encodeCode) = some (declaration ++ t) := by
  have hscalar : ∀ c ∈ declaration ++ t, Utf8.isSurrogate c = false := by
    have hfirst : declaration.isXmlText = true := by rfl
    intro c hc
    refine Utf8.isSurrogate_of_isXmlChar ?_
    rcases List.mem_append.1 hc with hc | hc
    · exact List.all_eq_true.1 hfirst c hc
    · exact List.all_eq_true.1 ht c hc
  have hdecode := Utf8.decode?_encode hscalar
  rw [List.flatMap_append] at hdecode ⊢
  rw [decode?, detect?_declaration]
  simp only [Option.bind_eq_bind, Option.bind_some, decodeAs?, hdecode]
  rfl

/-! ## The root -/

open Xml.Node

theorem entityNames_of_within {bound : Nat} {n : Node Text} (h : n.Within IsLegible bound)
    (hplain : n.IsPlain) : n.entityNames = [] := by
  induction bound generalizing n with
  | zero =>
    cases n with
    | element name attributes children => exact h.elim
    | reference name => exact hplain.elim
    | _ => rfl
  | succ bound ih =>
    cases n with
    | element name attributes children =>
      have hall : ∀ ns : List (Node Text), (∀ n ∈ ns, n.entityNames = []) →
          entityNamesAll ns = [] := by
        intro ns hns
        induction ns with
        | nil => rfl
        | cons n ns ihn =>
          rw [entityNamesAll, hns n (by simp), ihn fun m hm => hns m (by simp [hm])]
          rfl
      exact hall children fun c hc => ih (h.2 c hc) (h.1.pieces c hc)
    | reference name => exact hplain.elim
    | _ => rfl

/-- The end of a written document: a line feed or nothing. -/
def IsTail (t : Text) : Prop := t = [] ∨ t = [CodePoint.lineFeed]

theorem skipMisc_tail {t : Text} (ht : IsTail t) : skipMisc (t.length + 1) t = some [] := by
  rcases ht with rfl | rfl <;> rfl

theorem hasGoodReferences_of_within {bound : Nat} {n : Node Text}
    (h : n.Within IsLegible bound) (hplain : n.IsPlain) : hasGoodReferences {} n = true := by
  rw [hasGoodReferences, entityNames_of_within h hplain]

theorem skipDeclaration_declaration (t : Text) :
    skipDeclaration (declaration ++ t) = some (false, CodePoint.ofChar '\n' :: t) := by
  rw [skipDeclaration, skipMark_declaration]
  simp only [readDeclaration_declaration]
  rfl

/-- Where a name follows an angle bracket stands the beginning of an element, and no other mark. -/
theorem after?_of_isNameStart {c d : CodePoint} (hc : (isNameStart c || isColon c) = true)
    (hd : (isNameStart d || isColon d) = false) (beginning t : Text) :
    Text.after? (CodePoint.ofChar '<' :: d :: beginning) (CodePoint.ofChar '<' :: c :: t) =
      none := by
  have hne : d ≠ c := Ne.symm (ne_of_isNameStart hc hd)
  rw [Text.after?, if_neg]
  simp [hne]

theorem skipMisc_of_isNameStart {c : CodePoint} (hc : (isNameStart c || isColon c) = true)
    (fuel : Nat) (t : Text) :
    skipMisc (fuel + 1) (CodePoint.ofChar '\n' :: CodePoint.ofChar '<' :: c :: t) =
      some (CodePoint.ofChar '<' :: c :: t) := by
  have hspace : skipSpace (CodePoint.ofChar '\n' :: CodePoint.ofChar '<' :: c :: t) =
      CodePoint.ofChar '<' :: c :: t := rfl
  have hcomment : Text.after? "<!--" (CodePoint.ofChar '<' :: c :: t) = none :=
    after?_of_isNameStart hc (by decide) _ t
  have hinstruction : Text.after? "<?" (CodePoint.ofChar '<' :: c :: t) = none :=
    after?_of_isNameStart hc (by decide) _ t
  rw [skipMisc, hspace, hcomment, hinstruction]

theorem skipDoctype_of_isNameStart {c : CodePoint} (hc : (isNameStart c || isColon c) = true)
    (t : Text) :
    skipDoctype false (CodePoint.ofChar '\n' :: CodePoint.ofChar '<' :: c :: t) =
      some ({}, CodePoint.ofChar '<' :: c :: t) := by
  have hdoctype : Text.after? "<!DOCTYPE" (CodePoint.ofChar '<' :: c :: t) = none :=
    after?_of_isNameStart hc (by decide) _ t
  rw [skipDoctype, skipMisc_of_isNameStart hc]
  simp only [Option.bind_eq_bind, Option.bind_some, hdoctype]
  rfl

theorem readElement_write {name : Text} {attributes : List (Text × Text)}
    {children : List (Node Text)}
    (h : (element name attributes children).Within IsLegible maxDepth) {t tail : Text}
    (ht : write (element name attributes children) ++ tail = CodePoint.ofChar '<' :: t) :
    readElement {} t = some (element name attributes children, tail) := by
  refine isRead_element h ht ?_
  have hlen := congrArg List.length ht
  simp only [List.length_append, List.length_cons] at hlen
  omega

/-- The element of a written document is read. -/
theorem ofText?_write {name : Text} {attributes : List (Text × Text)} {children : List (Node Text)}
    (h : (element name attributes children).Within IsLegible maxDepth) {tail : Text}
    (htail : IsTail tail)
    (hxml : (declaration ++ (write (element name attributes children) ++ tail)).isXmlText = true) :
    Node.ofText? (declaration ++ (write (element name attributes children) ++ tail)) =
      some (element name attributes children) := by
  obtain ⟨t, ht⟩ := write_element_begins name attributes children tail
  have hread := readElement_write h ht
  obtain ⟨c, rest, rfl, hstart⟩ := exists_cons_of_isName h.1.name
  have hless : ∀ t, Text.after? "<" (CodePoint.ofChar '<' :: t) = some t := fun _ => rfl
  have hgood : hasGoodReferences {} (element (c :: rest) attributes children) = true :=
    hasGoodReferences_of_within h trivial
  rw [Node.ofText?, hxml, ht, List.cons_append]
  rw [List.cons_append] at hread
  simp only [skipDeclaration_declaration, skipDoctype_of_isNameStart hstart, hless, hread,
    skipMisc_tail htail, hgood, Option.bind_eq_bind, Option.bind_some]
  rfl

/-! ## What XML can carry -/

theorem isXmlChar_of_isNamePart {c : CodePoint} (h : (isNamePart c || isColon c) = true) :
    Text.isXmlChar c = true := by
  simp only [isNamePart, isNameStart, isColon, Bool.or_eq_true, Bool.and_eq_true, decide_eq_true_eq,
    beq_iff_eq] at h
  simp only [Text.isXmlChar, Bool.or_eq_true, Bool.and_eq_true, decide_eq_true_eq, beq_iff_eq]
  omega

theorem isXmlText_name {name : Text} (h : isName name = true) : name.isXmlText = true := by
  cases name with
  | nil => rfl
  | cons c rest =>
    rw [isName, Bool.and_eq_true, List.all_eq_true] at h
    rw [Text.isXmlText, List.all_eq_true]
    intro d hd
    rcases List.mem_cons.1 hd with rfl | hd
    · refine isXmlChar_of_isNamePart ?_
      rw [isNamePart]
      have hstart := h.1
      rw [Bool.or_eq_true] at hstart
      rcases hstart with hstart | hstart <;> simp [hstart]
    · exact isXmlChar_of_isNamePart (h.2 d hd)

theorem isXmlText_reference : ∀ r ∈ references, r.2.isXmlText = true := by decide

theorem isXmlText_singleton {c : CodePoint} (h : Text.isXmlChar c = true) :
    Text.isXmlText [c] = true := by
  rw [Text.isXmlText, List.all_cons, h]
  rfl

theorem isXmlText_attributeCode {c : CodePoint} (h : Text.isXmlChar c = true) :
    (attributeCode c).isXmlText = true := by
  rcases attributeCode_cases c with ⟨heq, -⟩ | href
  · exact heq ▸ isXmlText_singleton h
  · exact isXmlText_reference _ href

theorem isXmlText_contentCode {c : CodePoint} (h : Text.isXmlChar c = true) :
    (contentCode c).isXmlText = true := by
  rcases contentCode_cases c with ⟨heq, -⟩ | href
  · exact heq ▸ isXmlText_singleton h
  · exact isXmlText_reference _ href

theorem isXmlText_writeTag {name : Text} {attributes : List (Text × Text)}
    (hname : isName name = true) (hkeys : ∀ a ∈ attributes, isName a.1 = true)
    (hvalues : ∀ a ∈ attributes, a.2.isXmlText = true) :
    (writeTag name attributes).isXmlText = true := by
  have hattribute : ∀ a ∈ attributes, (writeAttribute a).isXmlText = true := by
    intro a ha
    have hkey := isXmlText_name (hkeys a ha)
    have hvalue := Text.isXmlText_flatMap (fun _ => isXmlText_attributeCode) (hvalues a ha)
    simp only [writeAttribute, Text.isXmlText_append]
    exact ⟨⟨⟨⟨rfl, hkey⟩, rfl⟩, hvalue⟩, rfl⟩
  rw [writeTag, Text.isXmlText_append]
  refine ⟨isXmlText_name hname, ?_⟩
  rw [Text.isXmlText, List.all_flatMap, List.all_eq_true]
  exact hattribute

theorem isXmlText_writeAll {ns : List (Node Text)}
    (h : ∀ n ∈ ns, (write n).isXmlText = true) : (writeAll ns).isXmlText = true := by
  induction ns with
  | nil => rfl
  | cons n ns ih =>
    rw [writeAll, Text.isXmlText_append]
    exact ⟨h n (by simp), ih fun m hm => h m (by simp [hm])⟩

/-- What is written for a legible tree is what XML can carry. -/
theorem isXmlText_write {bound : Nat} {n : Node Text} (h : n.Within IsLegible bound)
    (hplain : n.IsPlain) : (write n).isXmlText = true := by
  have hother : ∀ {n : Node Text}, n.IsPlain → (∀ name attributes children,
      n = element name attributes children → (write n).isXmlText = true) →
      (write n).isXmlText = true := by
    intro n hplain hn
    cases n with
    | element name attributes children => exact hn _ _ _ rfl
    | text s => exact Text.isXmlText_flatMap (fun _ => isXmlText_contentCode) hplain.2
    | cdata s =>
      rw [write, sectionContent_eq_self hplain.1, Text.isXmlText_append, Text.isXmlText_append]
      exact ⟨⟨rfl, hplain.2⟩, rfl⟩
    | comment _ => exact hplain.elim
    | instruction _ _ => exact hplain.elim
    | reference _ => exact hplain.elim
  induction bound generalizing n with
  | zero =>
    refine hother hplain ?_
    rintro name attributes children rfl
    exact h.elim
  | succ bound ih =>
    refine hother hplain ?_
    rintro name attributes children rfl
    have htag := isXmlText_writeTag h.1.name h.1.keys h.1.values
    have hname := isXmlText_name h.1.name
    have hall := isXmlText_writeAll fun c hc => ih (h.2 c hc) (h.1.pieces c hc)
    cases children with
    | nil =>
      rw [write, Text.isXmlText_append, Text.isXmlText_append]
      exact ⟨⟨rfl, htag⟩, rfl⟩
    | cons n rest =>
      rw [write]
      simp only [Text.isXmlText_append]
      exact ⟨⟨⟨⟨⟨⟨rfl, htag⟩, rfl⟩, hall⟩, rfl⟩, hname⟩, rfl⟩

/-! ## Whole documents -/

/-- The tree that a document shows: with the white space between its elements, if it is written in
lines. -/
def Node.shown (prettyPrint : Bool) (n : Node Text) : Node Text :=
  (if prettyPrint then n.spaced 0 else n).endLines

/-- A document shows the attributes of its tree. -/
theorem Node.values_shown (name : Text) (prettyPrint : Bool) (n : Node Text) :
    (n.shown prettyPrint).values name = n.values name := by
  rw [Node.shown, values_endLines]
  cases prettyPrint with
  | false => rfl
  | true => exact values_spaced name 0 n

/-- A document is the first line, an element and a tail. -/
theorem exists_render {name : Text} {attributes : List (Text × Text)} {children : List (Node Text)}
    (h : (element name attributes children).Within IsLegible maxDepth) (prettyPrint : Bool) :
    ∃ more tail, (element name attributes more).Within IsLegible maxDepth ∧ IsTail tail ∧
      (element name attributes more).endLines =
        (element name attributes children).shown prettyPrint ∧
      Document.render prettyPrint (element name attributes children) =
        declaration ++ (write (element name attributes more) ++ tail) := by
  cases prettyPrint with
  | false => exact ⟨children, [], h, .inl rfl, rfl, by simp [Document.render]⟩
  | true =>
    obtain ⟨more, hmore⟩ : ∃ more, (element name attributes children).spaced 0 =
        element name attributes more := by
      cases children with
      | nil => exact ⟨[], rfl⟩
      | cons n rest =>
        rw [spaced]
        split <;> exact ⟨_, rfl⟩
    have hspaced := h.spaced (fun hp hinline k => hp.spacedAll hinline k) 0
    have hwrite := write_spaced 0 (element name attributes children)
    rw [hmore] at hspaced hwrite
    refine ⟨more, [.lineFeed], hspaced, .inr rfl, ?_, ?_⟩
    · rw [← hmore]
      rfl
    · rw [hwrite]
      rfl

/-- What is written for a document can be sent, and is read as its tree with the lines in its
sections ended. -/
theorem ofBytes?_render {name : Text} {attributes : List (Text × Text)}
    {children : List (Node Text)}
    (h : (element name attributes children).Within IsLegible maxDepth) (prettyPrint : Bool) :
    ∃ bytes, Utf8.encode? (Document.render prettyPrint (element name attributes children)) =
        .ok bytes ∧
      Node.ofBytes? bytes = some ((element name attributes children).shown prettyPrint) := by
  obtain ⟨more, tail, hn, htail, hshown, hrender⟩ := exists_render h prettyPrint
  have hxml : (write (element name attributes more) ++ tail).isXmlText = true := by
    rw [Text.isXmlText_append]
    refine ⟨isXmlText_write hn trivial, ?_⟩
    rcases htail with rfl | rfl <;> rfl
  have hwhole : (declaration ++ (write (element name attributes more) ++ tail)).isXmlText = true :=
    Text.isXmlText_append.2 ⟨rfl, hxml⟩
  have hlines : normalizeLines (declaration ++ (write (element name attributes more) ++ tail)) =
      declaration ++ (write (element name attributes more).endLines ++ tail) := by
    have hfirst : .carriageReturn ∉ declaration := by decide
    have htail' : normalizeLines tail = tail := by
      rcases htail with rfl | rfl <;> rfl
    rw [normalizeLines_append_of_notMem hfirst, endsLines_element hn, htail']
  have hended := isXmlText_normalizeLines hwhole
  rw [hlines] at hended
  refine ⟨_, Utf8.encode?_eq_ok fun c hc => ?_, ?_⟩
  · rw [hrender] at hc
    exact Utf8.isSurrogate_of_isXmlChar (List.all_eq_true.1 hwhole c hc)
  · rw [hrender, Node.ofBytes?, decode?_declaration hxml, Option.bind_some, hlines, ← hshown]
    exact ofText?_write (hn.endLines fun hp => hp.endLines) htail hended

end CasePlan.Xml
