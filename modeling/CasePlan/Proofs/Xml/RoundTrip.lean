import CasePlan.Logic.Validation
import CasePlan.Proofs.Xml.Tag

/-!
# Trees and their texts

What `Node.write` writes for an element is read as that element, in front of anything, if its names
are names, no run of text is empty or follows another one, and no section holds an end mark
(`Node.IsLegible`).

* `readContent_text`, `readContent_element`, `readContent_cdata`: one lemma for each kind of piece.
* `Node.Within`: every element of a tree is of a kind, and elements do not stand too deep.
* `readContent_writeAll`: the content of an element, if the elements in it can be read.
* `isRead_element`: an element, by induction on the depth of the tree.
-/

namespace CasePlan.Xml

open Validation (sectionEnd)

/-! ## Runs of text -/

theorem greater_notMem_contentCode (c : CodePoint) : CodePoint.ofChar '>' ∉ contentCode c := by
  rcases contentCode_cases c with ⟨heq, hc⟩ | href
  · rw [heq, List.mem_singleton]
    rintro rfl
    exact hc (by decide)
  · exact (show ∀ r ∈ references, CodePoint.ofChar '>' ∉ r.2 by decide) _ href

theorem greater_notMem_content (t : Text) : CodePoint.ofChar '>' ∉ t.flatMap contentCode := by
  intro h
  obtain ⟨c, -, hc⟩ := List.mem_flatMap.1 h
  exact greater_notMem_contentCode c hc

section

variable {fuel depth : Nat} {d : Doctype} {done : List (Node Text)} {run t t' : Text}

theorem readContent_reference {c : CodePoint} (h : readReference t = some (.character c, t')) :
    readContent (fuel + 1) depth d done run (CodePoint.ofChar '&' :: t) =
      readContent fuel depth d done (c :: run) t' := by
  rw [readContent, if_neg (by decide), if_pos rfl, h]

/-- A written run of text has no end mark of a section, and neither has what follows it. -/
theorem isPrefixOf_content (s : Text) (ht : t.head? = some (CodePoint.ofChar '<')) :
    (Text.ofString "]]>").isPrefixOf (s.flatMap contentCode ++ t) = false := by
  rw [← Bool.not_eq_true, List.isPrefixOf_iff_prefix]
  intro hstarts
  obtain ⟨t, rfl⟩ : ∃ t', t = CodePoint.ofChar '<' :: t' := by
    cases t with
    | nil => simp at ht
    | cons c t => exact ⟨t, by rw [Option.some.inj ht]⟩
  have hs := Text.isPrefix_of_notMem (by decide) hstarts
  exact greater_notMem_content s (hs.subset (by decide))

/-- A code point of a run of text. -/
theorem readContent_contentCode (c : CodePoint) (s : Text)
    (ht : t.head? = some (CodePoint.ofChar '<')) :
    readContent (fuel + 1) depth d done run (contentCode c ++ (s.flatMap contentCode ++ t)) =
      readContent fuel depth d done (c :: run) (s.flatMap contentCode ++ t) := by
  rcases contentCode_cases c with ⟨heq, hc⟩ | href
  · simp only [contentMarks, List.mem_cons, not_or] at hc
    obtain ⟨hamp, hless, -⟩ := hc
    have hplain := isPrefixOf_content (c :: s) ht
    rw [List.flatMap_cons, List.append_assoc, heq, List.singleton_append] at hplain
    rw [heq, List.singleton_append, readContent, if_neg hless, if_neg hamp, hplain]
    rfl
  · obtain ⟨u, heq, hread⟩ := readReference_of_mem href
    rw [show contentCode c = CodePoint.ofChar '&' :: u from heq]
    exact readContent_reference (hread _)

/-- A run of text up to the next mark. -/
theorem readContent_text {s : Text} (ht : t.head? = some (CodePoint.ofChar '<')) :
    readContent (fuel + s.length) depth d done run (s.flatMap contentCode ++ t) =
      readContent fuel depth d done (s.reverse ++ run) t := by
  induction s generalizing run with
  | nil => rfl
  | cons c s ih =>
    rw [List.flatMap_cons, List.append_assoc, List.length_cons, ← Nat.add_assoc,
      readContent_contentCode c s ht, ih, List.reverse_cons, List.append_assoc]
    rfl

end

/-! ## Sections -/

theorem sectionContent_eq_self {t : Text} (h : ¬sectionEnd <:+: t) : sectionContent t = t := by
  have hloop : ∀ t part : Text, ¬sectionEnd <:+: t →
      Text.splitLoop sectionEnd t part [] = [part.reverse ++ t] := by
    intro t part h
    induction t generalizing part with
    | nil => simp [Text.splitLoop]
    | cons c t ih =>
      have hstarts : ¬sectionEnd.isPrefixOf (c :: t) = true := fun hp =>
        h (List.isPrefixOf_iff_prefix.1 hp).isInfix
      rw [Text.splitLoop, if_neg hstarts,
        ih _ fun hfound => h (hfound.trans (List.suffix_cons ..).isInfix)]
      simp
  have hsplit : Text.splitOn sectionEnd t = [t] := hloop t [] h
  exact congrArg (Text.join _) hsplit

/-- An end mark that follows a text without one does not begin inside it. -/
theorem not_isPrefix_section {c : CodePoint} {s : Text} (h : ¬sectionEnd <:+: c :: s) (r : Text) :
    ¬sectionEnd <+: c :: (s ++ (sectionEnd ++ r)) := by
  have hmark : sectionEnd =
      [CodePoint.ofChar ']', CodePoint.ofChar ']', CodePoint.ofChar '>'] := rfl
  intro hstarts
  match s, h, hstarts with
  | [], _, hstarts =>
    simp only [hmark, List.nil_append, List.cons_append, List.cons_prefix_cons] at hstarts
    exact absurd hstarts.2.2.1 (by decide)
  | [d], _, hstarts =>
    simp only [hmark, List.nil_append, List.cons_append, List.cons_prefix_cons] at hstarts
    exact absurd hstarts.2.2.1 (by decide)
  | d :: e :: s, h, hstarts =>
    simp only [hmark, List.cons_append, List.cons_prefix_cons, List.nil_prefix, and_true] at hstarts
    obtain ⟨rfl, rfl, rfl⟩ := hstarts
    exact h (List.prefix_append _ s).isInfix

/-- The content of a section is read up to the end mark. -/
theorem readUpTo_section {s : Text} (h : ¬sectionEnd <:+: s) (r : Text) :
    readUpTo sectionEnd (s ++ (sectionEnd ++ r)) = some (s, r) := by
  have hloop : ∀ s done : Text, ¬sectionEnd <:+: s →
      readUpTo.loop sectionEnd (s ++ (sectionEnd ++ r)) done = some (done.reverse ++ s, r) := by
    intro s done h
    induction s generalizing done with
    | nil =>
      have hstarts : sectionEnd.isPrefixOf (sectionEnd ++ r) = true :=
        List.isPrefixOf_iff_prefix.2 (List.prefix_append ..)
      rw [List.nil_append, List.append_nil, readUpTo.loop.eq_def, if_pos hstarts, List.drop_left]
    | cons c s ih =>
      have hstarts : ¬sectionEnd.isPrefixOf (c :: (s ++ (sectionEnd ++ r))) = true := fun hp =>
        not_isPrefix_section h r (List.isPrefixOf_iff_prefix.1 hp)
      rw [List.cons_append, readUpTo.loop, if_neg hstarts,
        ih _ fun hfound => h (hfound.trans (List.suffix_cons ..).isInfix)]
      simp
  exact hloop s [] h

/-! ## Trees -/

namespace Node

/-- Whether every element of a tree is of a kind, and elements stand in one another to a depth at
most. -/
def Within {τ : Type} (p : Text → List (Text × τ) → List (Node τ) → Prop) : Nat → Node τ → Prop
  | 0, element .. => False
  | depth + 1, element name attributes children =>
    p name attributes children ∧ ∀ c ∈ children, Within p depth c
  | _, _ => True

/-- Elements of a kind are of another one, too, and may stand deeper. -/
theorem Within.imp {τ : Type} {p q : Text → List (Text × τ) → List (Node τ) → Prop} {j k : Nat}
    {n : Node τ} (hpq : ∀ {name attributes children}, p name attributes children →
      q name attributes children) (hjk : j ≤ k) (h : n.Within p j) : n.Within q k := by
  induction k generalizing j n with
  | zero =>
    obtain rfl := Nat.le_zero.1 hjk
    cases n with
    | element name attributes children => exact h.elim
    | _ => trivial
  | succ k ih =>
    cases n with
    | element name attributes children =>
      cases j with
      | zero => exact h.elim
      | succ j => exact ⟨hpq h.1, fun c hc => ih (Nat.le_of_succ_le_succ hjk) (h.2 c hc)⟩
    | _ => trivial

/-- Whether the piece is a run of text. -/
def isText {τ : Type} : Node τ → Bool
  | text _ => true
  | _ => false

/-- Whether no two runs of text follow one another. -/
def AreApart {τ : Type} : List (Node τ) → Prop
  | [] => True
  | n :: rest => (n.isText = true → ∀ m ∈ rest.head?, m.isText = false) ∧ AreApart rest

theorem areApart_of_isText {τ : Type} {ns : List (Node τ)} (h : ∀ n ∈ ns, n.isText = false) :
    AreApart ns := by
  induction ns with
  | nil => trivial
  | cons n ns ih =>
    refine ⟨fun htext => ?_, ih fun m hm => h m (by simp [hm])⟩
    rw [h n (by simp)] at htext
    exact absurd htext Bool.false_ne_true

/-- A piece of content that is written as it is read: no run of text is empty, and no section holds
an end mark. -/
def IsPlain : Node Text → Prop
  | element .. => True
  | text t => t ≠ [] ∧ t.isXmlText = true
  | cdata t => (¬sectionEnd <:+: t) ∧ t.isXmlText = true
  | _ => False

/-- An element that is written as it is read. -/
structure IsLegible (name : Text) (attributes : List (Text × Text)) (children : List (Node Text)) :
    Prop where
  /-- It has a name. -/
  name : isName name = true
  /-- Its attributes have names. -/
  keys : ∀ a ∈ attributes, isName a.1 = true
  /-- It has no two attributes with one name. -/
  nodup : (attributes.map Prod.fst).Nodup
  /-- XML can carry the values of its attributes. -/
  values : ∀ a ∈ attributes, a.2.isXmlText = true
  /-- What it holds is written as it is read. -/
  pieces : ∀ c ∈ children, c.IsPlain
  /-- No two runs of text follow one another. -/
  apart : AreApart children

end Node

open Xml.Node

theorem write_empty (name : Text) (attributes : List (Text × Text)) (r : Text) :
    write (element name attributes []) ++ r =
      CodePoint.ofChar '<' :: (writeTag name attributes ++ (TagEnd.empty.mark ++ r)) := by
  rw [write]
  simp only [List.append_assoc]
  rfl

theorem write_cons (name : Text) (attributes : List (Text × Text)) (n : Node Text)
    (rest : List (Node Text)) (r : Text) :
    write (element name attributes (n :: rest)) ++ r =
      CodePoint.ofChar '<' :: (writeTag name attributes ++ (TagEnd.opening.mark ++
        (writeAll (n :: rest) ++ ("</" ++ (name ++ (">" ++ r)))))) := by
  rw [write]
  simp only [List.append_assoc]
  rfl

theorem write_element_begins (name : Text) (attributes : List (Text × Text))
    (children : List (Node Text)) (r : Text) :
    ∃ t, write (element name attributes children) ++ r = CodePoint.ofChar '<' :: (name ++ t) := by
  cases children with
  | nil => exact ⟨_, (write_empty name attributes r).trans
      (congrArg _ (by rw [writeTag, List.append_assoc]))⟩
  | cons n rest => exact ⟨_, (write_cons name attributes n rest r).trans
      (congrArg _ (by rw [writeTag, List.append_assoc]))⟩

theorem length_write_element_pos (name : Text) (attributes : List (Text × Text))
    (children : List (Node Text)) : 0 < (write (element name attributes children)).length := by
  obtain ⟨t, ht⟩ := write_element_begins name attributes children []
  rw [List.append_nil] at ht
  rw [ht]
  exact Nat.succ_pos _

theorem length_le_writeTag (name : Text) (attributes : List (Text × Text)) :
    attributes.length ≤ (writeTag name attributes).length := by
  have hall := Text.length_le_flatMap (f := writeAttribute) (fun _ => List.cons_ne_nil _ _) attributes
  rw [writeTag, List.length_append]
  omega

/-- An element that can be read in front of anything. -/
def IsRead (depth : Nat) (n : Node Text) : Prop :=
  ∀ {fuel : Nat} {t r : Text}, write n ++ r = CodePoint.ofChar '<' :: t →
    2 * (write n).length ≤ fuel → readContent.readElement fuel depth {} t = some (n, r)

theorem contentCode_ne_nil (c : CodePoint) : contentCode c ≠ [] := by
  rcases contentCode_cases c with ⟨heq, -⟩ | href
  · exact heq ▸ List.cons_ne_nil _ _
  · exact (show ∀ r ∈ references, r.2 ≠ [] by decide) _ href

/-- Markup begins where no text does. -/
theorem head_writeAll {ns : List (Node Text)} {r : Text} (hplain : ∀ n ∈ ns, n.IsPlain)
    (hhead : ∀ n ∈ ns.head?, n.isText = false) :
    (writeAll ns ++ ("</" ++ r)).head? = some (CodePoint.ofChar '<') := by
  cases ns with
  | nil => rfl
  | cons n ns =>
    have hn := hhead n rfl
    have hp := hplain n (by simp)
    rw [writeAll, List.append_assoc]
    cases n with
    | element name attributes children =>
      obtain ⟨t, ht⟩ := write_element_begins name attributes children (writeAll ns ++ ("</" ++ r))
      rw [ht]
      rfl
    | text s => exact absurd hn (by simp [isText])
    | cdata s => rfl
    | comment _ => exact hp.elim
    | instruction _ _ => exact hp.elim
    | reference _ => exact hp.elim

section

variable {fuel depth : Nat} {done : List (Node Text)} {run r : Text}

/-- The content of an element ends where its end tag begins. -/
theorem readContent_end :
    readContent (fuel + 1) depth {} done run ("</" ++ r) =
      some ((flush run done).reverse, "</" ++ r) := by
  show readContent (fuel + 1) depth {} done run (CodePoint.ofChar '<' :: CodePoint.ofChar '/' :: r) = _
  rw [readContent, if_pos rfl, if_pos List.head?_cons]
  rfl

/-- An element is read where a name follows the angle bracket: no other mark begins so. -/
theorem readContent_element {name : Text} {attributes : List (Text × Text)}
    {children : List (Node Text)} (hname : isName name = true)
    (hread : IsRead depth (element name attributes children))
    (hfuel : 2 * (write (element name attributes children)).length ≤ fuel) :
    readContent (fuel + 1) depth {} done run (write (element name attributes children) ++ r) =
      readContent fuel depth {} (element name attributes children :: flush run done) [] r := by
  obtain ⟨t, ht⟩ := write_element_begins name attributes children r
  have helement := hread ht hfuel
  obtain ⟨c, rest, rfl, hstart⟩ := exists_cons_of_isName hname
  have hslash : ((c :: rest) ++ t).head? ≠ some (CodePoint.ofChar '/') := fun h =>
    ne_of_isNameStart hstart (by decide) (Option.some.inj h)
  have hcomment : Text.after? "!--" ((c :: rest) ++ t) = none :=
    Text.after?_cons_of_ne (Ne.symm (ne_of_isNameStart hstart (by decide))) _ _
  have hsection : Text.after? "![CDATA[" ((c :: rest) ++ t) = none :=
    Text.after?_cons_of_ne (Ne.symm (ne_of_isNameStart hstart (by decide))) _ _
  have hinstruction : Text.after? "?" ((c :: rest) ++ t) = none :=
    Text.after?_cons_of_ne (Ne.symm (ne_of_isNameStart hstart (by decide))) _ _
  rw [ht, readContent, if_pos rfl, if_neg hslash, hcomment, hsection, hinstruction]
  simp only [helement]

/-- A section is read up to its end mark. -/
theorem readContent_cdata {s : Text} (hs : ¬sectionEnd <:+: s) :
    readContent (fuel + 1) depth {} done run (write (cdata s) ++ r) =
      readContent fuel depth {} (cdata s :: flush run done) [] r := by
  have hform : write (cdata s) ++ r =
      CodePoint.ofChar '<' :: ("![CDATA[" ++ (s ++ (sectionEnd ++ r))) := by
    rw [write, sectionContent_eq_self hs]
    simp only [List.append_assoc]
    rfl
  have hslash : ∀ t : Text, (("![CDATA[" : Text) ++ t).head? ≠ some (CodePoint.ofChar '/') := by
    intro t h
    exact absurd (Option.some.inj h) (by decide)
  have hcomment : ∀ t : Text, Text.after? "!--" (("![CDATA[" : Text) ++ t) = none := fun _ => rfl
  have hread := readUpTo_section hs r
  rw [hform, readContent, if_pos rfl, if_neg (hslash _), hcomment, Text.after?_append]
  simp only
  rw [show readUpTo (Text.ofString "]]>") _ = _ from hread]

end

/-- Pieces of content are read up to the end tag of the element around them. -/
theorem readContent_writeAll {depth : Nat} {ns : List (Node Text)} {r : Text}
    (hplain : ∀ n ∈ ns, n.IsPlain)
    (hread : ∀ name attributes children, element name attributes children ∈ ns →
      isName name = true ∧ IsRead depth (element name attributes children))
    (hapart : AreApart ns) {fuel : Nat}
    {done : List (Node Text)} {run : Text}
    (hrun : run ≠ [] → ∀ n ∈ ns.head?, n.isText = false)
    (hfuel : 2 * (writeAll ns).length < fuel) :
    readContent fuel depth {} done run (writeAll ns ++ ("</" ++ r)) =
      some ((flush run done).reverse ++ ns, "</" ++ r) := by
  induction ns generalizing fuel done run with
  | nil =>
    obtain ⟨k, rfl⟩ : ∃ k, fuel = k + 1 := ⟨fuel - 1, by omega⟩
    rw [writeAll, List.nil_append, List.append_nil, readContent_end]
  | cons n ns ih =>
    have hns : ∀ {done : List (Node Text)} {run : Text} {fuel : Nat},
        (run ≠ [] → ∀ n ∈ ns.head?, n.isText = false) → 2 * (writeAll ns).length < fuel →
        readContent fuel depth {} done run (writeAll ns ++ ("</" ++ r)) =
          some ((flush run done).reverse ++ ns, "</" ++ r) :=
      ih (fun m hm => hplain m (by simp [hm]))
        (fun name attributes children hm => hread name attributes children (by simp [hm]))
        hapart.2
    have hp := hplain n (by simp)
    rw [writeAll, List.length_append] at hfuel
    rw [writeAll, List.append_assoc]
    cases n with
    | element name attributes children =>
      obtain ⟨hname, hn⟩ := hread name attributes children (by simp)
      have hlen := length_write_element_pos name attributes children
      obtain ⟨k, rfl⟩ : ∃ k, fuel = k + 1 := ⟨fuel - 1, by omega⟩
      rw [readContent_element hname hn (by omega), hns (by simp) (by omega)]
      simp [flush]
    | text s =>
      have hempty : run = [] := by
        by_contra h
        exact absurd (hrun h (text s) rfl) (by simp [isText])
      subst hempty
      have hnext : ∀ m ∈ ns.head?, m.isText = false := fun m hm => hapart.1 rfl m hm
      have hhead := head_writeAll (r := r) (fun m hm => hplain m (by simp [hm])) hnext
      have hlen : s.length ≤ (write (text s)).length := Text.length_le_flatMap contentCode_ne_nil s
      obtain ⟨k, rfl⟩ : ∃ k, fuel = k + s.length := ⟨fuel - s.length, by omega⟩
      rw [write, readContent_text hhead, hns (fun _ => hnext) (by omega)]
      simp [flush, hp.1]
    | cdata s =>
      have hlen : 0 < (write (cdata s)).length := Nat.succ_pos _
      obtain ⟨k, rfl⟩ : ∃ k, fuel = k + 1 := ⟨fuel - 1, by omega⟩
      rw [readContent_cdata hp.1, hns (by simp) (by omega)]
      simp [flush]
    | comment _ => exact hp.elim
    | instruction _ _ => exact hp.elim
    | reference _ => exact hp.elim

/-- What is written for an element is read as that element. -/
theorem isRead_element {depth : Nat} {name : Text} {attributes : List (Text × Text)}
    {children : List (Node Text)}
    (h : (element name attributes children).Within IsLegible depth) :
    IsRead depth (element name attributes children) := by
  induction depth generalizing name attributes children with
  | zero => exact h.elim
  | succ depth ih =>
    obtain ⟨hlegible, hchildren⟩ := h
    have hread : ∀ name attributes children', element name attributes children' ∈ children →
        isName name = true ∧ IsRead depth (element name attributes children') := by
      intro name attributes children' hmem
      have hwithin := hchildren _ hmem
      refine ⟨?_, ih hwithin⟩
      cases depth with
      | zero => exact hwithin.elim
      | succ depth => exact hwithin.1.name
    have hlen := length_le_writeTag name attributes
    intro fuel t r ht hfuel
    cases children with
    | nil =>
      have hform := write_empty name attributes r
      have hsize := congrArg List.length (write_empty name attributes [])
      simp only [List.length_append, List.length_cons, List.length_nil] at hsize
      obtain ⟨k, rfl⟩ : ∃ k, fuel = k + 1 := ⟨fuel - 1, by omega⟩
      rw [ht] at hform
      obtain rfl := (List.cons.inj hform).2
      rw [readContent.readElement,
        readTag_write hlegible.name hlegible.keys hlegible.nodup (by omega)]
    | cons n rest =>
      have hform := write_cons name attributes n rest r
      have hsize := congrArg List.length (write_cons name attributes n rest [])
      simp only [List.length_append, List.length_cons, List.length_nil] at hsize
      obtain ⟨k, rfl⟩ : ∃ k, fuel = k + 1 := ⟨fuel - 1, by omega⟩
      rw [ht] at hform
      obtain rfl := (List.cons.inj hform).2
      have hcontent : readContent k depth {} [] []
          (writeAll (n :: rest) ++ ("</" ++ (name ++ (">" ++ r)))) =
            some ((flush [] []).reverse ++ n :: rest, "</" ++ (name ++ (">" ++ r))) :=
        readContent_writeAll hlegible.pieces hread hlegible.apart (fun h => absurd rfl h) (by omega)
      rw [readContent.readElement,
        readTag_write hlegible.name hlegible.keys hlegible.nodup (by omega)]
      simp only [hcontent, Text.after?_append, Option.bind_some]
      rfl

end CasePlan.Xml
