import CasePlan.Proofs.Text.Cutting
import CasePlan.Xml.Reader
import CasePlan.Xml.Writer

/-!
# Tags

What `writeTag` writes is read back as name and attributes, if the names are names and no attribute
occurs twice; there are no conditions on the values of attributes.

* `readName_append`: a name ends where no part of a name follows.
* `references`: what code points are written as that cannot stand as they are; `attributeCode_cases`
  and `contentCode_cases` say which these are in attributes and in runs of text.
* `attributeValue?_escaped`: an escaped value is read as the value.
* `readAttributeList_write`, `readTag_write`: the attributes of a tag, and a tag to its end.
-/

namespace CasePlan.Xml

/-! ## Names -/

/-- Whether a text is a name, colons included. -/
def isName (t : Text) : Bool :=
  match t with
  | [] => false
  | c :: rest => (isNameStart c || isColon c) && rest.all fun c => isNamePart c || isColon c

theorem exists_cons_of_isName {t : Text} (h : isName t = true) :
    ∃ c rest, t = c :: rest ∧ (isNameStart c || isColon c) = true := by
  cases t with
  | nil => exact absurd h (by decide)
  | cons c rest =>
    rw [isName, Bool.and_eq_true] at h
    exact ⟨c, rest, rfl, h.1⟩

/-- Marks begin no name. -/
theorem ne_of_isNameStart {c d : CodePoint} (hc : (isNameStart c || isColon c) = true)
    (hd : (isNameStart d || isColon d) = false) : c ≠ d := by
  rintro rfl
  rw [hc] at hd
  exact absurd hd (by decide)

theorem eq_of_isSpace {c : CodePoint} (h : isSpace c = true) :
    c = CodePoint.ofChar ' ' ∨ c = CodePoint.ofChar '\t' ∨ c = CodePoint.ofChar '\n' ∨
      c = CodePoint.ofChar '\r' := by
  simp only [isSpace, Bool.or_eq_true, beq_iff_eq] at h
  rcases h with ((h | h) | h) | h
  · exact .inl (Fin.ext h)
  · exact .inr (.inl (Fin.ext h))
  · exact .inr (.inr (.inl (Fin.ext h)))
  · exact .inr (.inr (.inr (Fin.ext h)))

theorem isSpace_of_isNameStart {c : CodePoint} (h : (isNameStart c || isColon c) = true) :
    isSpace c = false := by
  by_contra hspace
  rcases eq_of_isSpace (by simpa using hspace) with rfl | rfl | rfl | rfl <;>
    exact absurd h (by decide)

theorem skipSpace_of_isNameStart {c : CodePoint} (h : (isNameStart c || isColon c) = true)
    (t : Text) : skipSpace (c :: t) = c :: t :=
  Text.dropWhile_eq_self fun _ hd => Option.some.inj hd ▸ isSpace_of_isNameStart h

theorem readName_append {name t : Text} (h : isName name = true)
    (ht : ∀ c ∈ t.head?, (isNamePart c || isColon c) = false) :
    readName (name ++ t) = some (name, t) := by
  cases name with
  | nil => exact absurd h (by decide)
  | cons c rest =>
    rw [isName, Bool.and_eq_true] at h
    rw [List.cons_append, readName, if_pos h.1, span_append (List.all_eq_true.1 h.2) ht]

/-! ## Code points -/

/-- The references that code points are written as. -/
def references : List (CodePoint × Text) :=
  [(.ofChar '&', "&amp;"), (.ofChar '<', "&lt;"), (.ofChar '>', "&gt;"), (.ofChar '"', "&quot;"),
    (.ofChar '\t', "&#9;"), (.ofChar '\n', "&#10;"), (.ofChar '\r', "&#13;")]

/-- A reference is read as the code point that it is written for. -/
theorem readReference_of_mem {r : CodePoint × Text} (hr : r ∈ references) :
    ∃ t, r.2 = CodePoint.ofChar '&' :: t ∧
      ∀ s, readReference (t ++ s) = some (.character r.1, s) := by
  simp only [references, List.mem_cons, List.not_mem_nil, or_false] at hr
  rcases hr with rfl | rfl | rfl | rfl | rfl | rfl | rfl
  all_goals exact ⟨_, rfl, fun _ => rfl⟩

theorem attributeCode_of_mem : ∀ r ∈ references, attributeCode r.1 = r.2 := by
  simp only [references, List.forall_mem_cons]
  exact ⟨rfl, rfl, rfl, rfl, rfl, rfl, rfl, List.forall_mem_nil _⟩

/-- In an attribute a code point stands as it is, or as a reference to it. -/
theorem attributeCode_cases (c : CodePoint) :
    (attributeCode c = [c] ∧ c ∉ references.map Prod.fst) ∨ (c, attributeCode c) ∈ references := by
  by_cases h : c ∈ references.map Prod.fst
  · obtain ⟨r, hr, rfl⟩ := List.mem_map.1 h
    rw [attributeCode_of_mem r hr]
    exact .inr hr
  · refine .inl ⟨?_, h⟩
    simp only [references, List.map_cons, List.map_nil, List.mem_cons, List.not_mem_nil, or_false,
      not_or] at h
    simp only [attributeCode, h, if_false]

/-- The code points that do not stand as they are in a run of text. -/
def contentMarks : List CodePoint := [.ofChar '&', .ofChar '<', .ofChar '>', .ofChar '\r']

theorem contentCode_of_mem : ∀ c ∈ contentMarks,
    c ∈ references.map Prod.fst ∧ contentCode c = attributeCode c := by
  simp only [contentMarks, List.forall_mem_cons]
  refine ⟨⟨?_, rfl⟩, ⟨?_, rfl⟩, ⟨?_, rfl⟩, ⟨?_, rfl⟩, List.forall_mem_nil _⟩
  all_goals decide

/-- In a run of text a code point stands as it is, or as a reference to it. -/
theorem contentCode_cases (c : CodePoint) :
    (contentCode c = [c] ∧ c ∉ contentMarks) ∨ (c, contentCode c) ∈ references := by
  by_cases h : c ∈ contentMarks
  · obtain ⟨hmem, heq⟩ := contentCode_of_mem c h
    rcases attributeCode_cases c with ⟨-, hc⟩ | href
    · exact absurd hmem hc
    · exact .inr (heq ▸ href)
  · refine .inl ⟨?_, h⟩
    simp only [contentMarks, List.mem_cons, List.not_mem_nil, or_false, not_or] at h
    simp only [contentCode, h, if_false]

/-! ## Values -/

theorem readLiteral_append {value : Text} (h : CodePoint.ofChar '"' ∉ value) (t : Text) :
    readLiteral (CodePoint.ofChar '"' :: (value ++ CodePoint.ofChar '"' :: t)) = some (value, t) := by
  have hspan : (value ++ CodePoint.ofChar '"' :: t).span (· ≠ CodePoint.ofChar '"') =
      (value, CodePoint.ofChar '"' :: t) := by
    refine span_append (fun c hc => ?_) fun c hc => ?_
    · rw [decide_eq_true_eq]
      rintro rfl
      exact h hc
    · obtain rfl := Option.some.inj hc
      decide
  rw [readLiteral, if_pos (by decide)]
  simp only [hspan]

/-- An escaped code point has no quotation mark. -/
theorem quote_notMem_attributeCode (c : CodePoint) : CodePoint.ofChar '"' ∉ attributeCode c := by
  rcases attributeCode_cases c with ⟨heq, hc⟩ | href
  · rw [heq, List.mem_singleton]
    rintro rfl
    exact hc (by decide)
  · exact (show ∀ r ∈ references, CodePoint.ofChar '"' ∉ r.2 by decide) _ href

theorem quote_notMem_escaped (value : Text) :
    CodePoint.ofChar '"' ∉ value.flatMap attributeCode := by
  intro h
  obtain ⟨c, -, hc⟩ := List.mem_flatMap.1 h
  exact quote_notMem_attributeCode c hc

section

variable {d : Doctype} {replace : Text → Option Text} {fuel : Nat}

theorem expandLoop_reference {t t' done : Text} {c : CodePoint}
    (h : readReference t = some (.character c, t')) :
    expandLoop d replace (fuel + 1) (CodePoint.ofChar '&' :: t) done =
      expandLoop d replace fuel t' (c :: done) := by
  rw [expandLoop, if_neg (by decide), if_pos rfl, h]

/-- An escaped code point is read as that code point. -/
theorem expandLoop_attributeCode (c : CodePoint) (t done : Text) :
    expandLoop d replace (fuel + 1) (attributeCode c ++ t) done =
      expandLoop d replace fuel t (c :: done) := by
  rcases attributeCode_cases c with ⟨heq, hc⟩ | href
  · have hspace : (if isSpace c then 32 else c) = c := by
      by_cases h : isSpace c = true
      · rw [if_pos h]
        rcases eq_of_isSpace h with rfl | rfl | rfl | rfl
        · rfl
        all_goals exact absurd (by decide) hc
      · rw [if_neg h]
    have hless : c ≠ CodePoint.ofChar '<' := by
      rintro rfl
      exact hc (by decide)
    have hamp : c ≠ CodePoint.ofChar '&' := by
      rintro rfl
      exact hc (by decide)
    rw [heq, List.singleton_append, expandLoop, if_neg hless, if_neg hamp, hspace]
  · obtain ⟨s, heq, hread⟩ := readReference_of_mem href
    rw [show attributeCode c = CodePoint.ofChar '&' :: s from heq]
    exact expandLoop_reference (hread t)

theorem expandLoop_escaped {value : Text} (hfuel : value.length ≤ fuel) (done : Text) :
    expandLoop d replace fuel (value.flatMap attributeCode) done = some (done.reverse ++ value) := by
  induction value generalizing fuel done with
  | nil => cases fuel <;> simp [expandLoop]
  | cons c value ih =>
    rw [List.length_cons] at hfuel
    obtain ⟨k, rfl⟩ : ∃ k, fuel = k + 1 := ⟨fuel - 1, by omega⟩
    rw [List.flatMap_cons, expandLoop_attributeCode, ih (by omega), List.reverse_cons,
      List.append_assoc]
    rfl

end

theorem attributeCode_ne_nil (c : CodePoint) : attributeCode c ≠ [] := by
  rcases attributeCode_cases c with ⟨heq, -⟩ | href
  · exact heq ▸ List.cons_ne_nil _ _
  · exact (show ∀ r ∈ references, r.2 ≠ [] by decide) _ href

/-- An escaped value is read as the value. -/
theorem attributeValue?_escaped (d : Doctype) (value : Text) :
    d.attributeValue? (value.flatMap attributeCode) = some value :=
  expandLoop_escaped (Text.length_le_flatMap attributeCode_ne_nil value) []

/-! ## Attributes -/

/-- What a tag ends with. -/
def TagEnd.mark : TagEnd → Text
  | .opening => ">"
  | .empty => "/>"

theorem readAttributeList_end (fuel : Nat) (d : Doctype) (element : Text)
    (done : List (Text × Text)) (e : TagEnd) (t : Text) :
    readAttributeList (fuel + 1) d element done (e.mark ++ t) = some ((done.reverse, e), t) := by
  cases e <;> rfl

theorem readAttributeList_cons {fuel : Nat} {element key value t : Text}
    {done : List (Text × Text)} (hkey : isName key = true) (hnew : key ∉ done.map Prod.fst) :
    readAttributeList (fuel + 1) {} element done (writeAttribute (key, value) ++ t) =
      readAttributeList fuel {} element ((key, value) :: done) t := by
  obtain ⟨c, rest, hc, hstart⟩ := exists_cons_of_isName hkey
  have htext : writeAttribute (key, value) ++ t = CodePoint.ofChar ' ' :: (key ++
      CodePoint.ofChar '=' :: CodePoint.ofChar '"' :: (value.flatMap attributeCode ++
        CodePoint.ofChar '"' :: t)) := by
    simp only [writeAttribute, List.append_assoc]
    rfl
  have hskip : ∀ u : Text, skipSpace (CodePoint.ofChar ' ' :: (key ++ u)) = key ++ u := by
    intro u
    rw [hc]
    exact skipSpace_of_isNameStart hstart (rest ++ u)
  have hspace : ∀ u : Text, needSpace? (CodePoint.ofChar ' ' :: (key ++ u)) = some (key ++ u) := by
    intro u
    exact congrArg some (hskip u)
  have hgreater : ∀ u : Text, Text.after? ">" (key ++ u) = none := by
    intro u
    rw [hc]
    exact Text.after?_cons_of_ne (Ne.symm (ne_of_isNameStart hstart (by decide))) _ _
  have hempty : ∀ u : Text, Text.after? "/>" (key ++ u) = none := by
    intro u
    rw [hc]
    exact Text.after?_cons_of_ne (Ne.symm (ne_of_isNameStart hstart (by decide))) _ _
  have hname := readName_append (t := CodePoint.ofChar '=' :: CodePoint.ofChar '"' ::
    (value.flatMap attributeCode ++ CodePoint.ofChar '"' :: t)) hkey
    (by intro c hc; obtain rfl := Option.some.inj hc; decide)
  have hany : done.any (·.1 = key) = false := by
    rw [List.any_eq_false]
    intro a ha
    simp only [decide_eq_true_eq]
    rintro rfl
    exact hnew (List.mem_map_of_mem ha)
  have hequals : ∀ u : Text, Text.after? "=" (skipSpace (CodePoint.ofChar '=' :: u)) = some u :=
    fun _ => rfl
  have hliteral := readLiteral_append (quote_notMem_escaped value) t
  rw [htext, readAttributeList, hskip, hgreater, hempty]
  simp only [hspace, hname, hany, hequals, Option.bind_eq_bind, Option.bind_some, Bool.false_eq_true,
    if_false]
  have hquote : ∀ u : Text, skipSpace (CodePoint.ofChar '"' :: u) = CodePoint.ofChar '"' :: u :=
    fun _ => rfl
  rw [hquote, hliteral, Option.bind_some, attributeValue?_escaped, Option.bind_some]
  rfl

/-- Written attributes are read up to the end of the tag. -/
theorem readAttributeList_write {fuel : Nat} {element t : Text}
    {attributes done : List (Text × Text)} {e : TagEnd}
    (hnames : ∀ a ∈ attributes, isName a.1 = true)
    (hnd : ((done.reverse ++ attributes).map Prod.fst).Nodup) (hfuel : attributes.length < fuel) :
    readAttributeList fuel {} element done (attributes.flatMap writeAttribute ++ (e.mark ++ t)) =
      some ((done.reverse ++ attributes, e), t) := by
  induction attributes generalizing fuel done with
  | nil =>
    obtain ⟨k, rfl⟩ : ∃ k, fuel = k + 1 := ⟨fuel - 1, by simp at hfuel; omega⟩
    rw [List.append_nil]
    exact readAttributeList_end k {} element done e t
  | cons a attributes ih =>
    obtain ⟨key, value⟩ := a
    rw [List.length_cons] at hfuel
    obtain ⟨k, rfl⟩ : ∃ k, fuel = k + 1 := ⟨fuel - 1, by omega⟩
    have hnew : key ∉ done.map Prod.fst := by
      rw [List.map_append, List.nodup_append] at hnd
      exact fun h => hnd.2.2 key (by simpa using h) key (by simp) rfl
    have hkey : isName key = true := hnames (key, value) (by simp)
    have happend : done.reverse ++ (key, value) :: attributes =
        ((key, value) :: done).reverse ++ attributes := by simp
    rw [happend] at hnd ⊢
    rw [List.flatMap_cons, List.append_assoc, readAttributeList_cons hkey hnew,
      ih (fun b hb => hnames b (by simp [hb])) hnd (by omega)]

/-- A written tag is read up to its end. -/
theorem readTag_write {fuel : Nat} {name t : Text} {attributes : List (Text × Text)} {e : TagEnd}
    (hname : isName name = true) (hnames : ∀ a ∈ attributes, isName a.1 = true)
    (hnd : (attributes.map Prod.fst).Nodup) (hfuel : attributes.length < fuel) :
    readTag fuel {} (writeTag name attributes ++ (e.mark ++ t)) =
      some ((name, attributes, e), t) := by
  have hend : ∀ c ∈ (attributes.flatMap writeAttribute ++ (e.mark ++ t)).head?,
      (isNamePart c || isColon c) = false := by
    intro c hc
    cases attributes with
    | nil =>
      cases e <;> (obtain rfl := Option.some.inj hc; decide)
    | cons a attributes =>
      obtain rfl := Option.some.inj hc
      decide
  have hread := readName_append hname hend
  have hlist : readAttributeList fuel {} name [] (attributes.flatMap writeAttribute ++ (e.mark ++ t)) =
      some (([].reverse ++ attributes, e), t) :=
    readAttributeList_write hnames (by simpa using hnd) hfuel
  rw [writeTag, List.append_assoc, readTag, hread]
  simp only [Option.bind_eq_bind, Option.bind_some, hlist]
  simp [Doctype.defaults]

end CasePlan.Xml
