import CasePlan.Proofs.Xml.Spacing

/-!
# Line ends in documents

Before a document is read its lines are ended by line feeds.  In a written tree only sections hold
carriage returns as they are, so this changes a tree in its sections only (`Node.endLines`).

* `normalizeLines_append_of_notMem`, `normalizeLines_append`: where a text may be cut for it.
* `isInfix_of_normalizeLines`: what is found in a text with its lines ended.
* `endsLines_element`: what becomes of a written tree.
-/

namespace CasePlan.Xml

/-! ## Texts -/

theorem normalizeLoop_eq (done t : Text) :
    normalizeLoop done t = done.reverse ++ normalizeLines t := by
  unfold normalizeLines
  induction t generalizing done with
  | nil => simp [normalizeLoop]
  | cons c t ih =>
    rw [normalizeLoop.eq_def, normalizeLoop.eq_def [] (c :: t)]
    simp only
    by_cases hc : c = .carriageReturn
    · rw [if_pos hc, if_pos hc]
      cases t with
      | nil => simp [normalizeLoop]
      | cons d t =>
        by_cases hd : d = .lineFeed
        · simp only [if_pos hd]
          exact ih done
        · simp only [if_neg hd]
          rw [ih, ih [_], List.reverse_cons, List.append_assoc]
          rfl
    · rw [if_neg hc, if_neg hc, ih, ih [_], List.reverse_cons, List.append_assoc]
      rfl

theorem normalizeLines_cons {c : CodePoint} (hc : c ≠ .carriageReturn) (t : Text) :
    normalizeLines (c :: t) = c :: normalizeLines t := by
  have h := normalizeLoop_eq [c] t
  rw [normalizeLines, normalizeLoop.eq_def]
  simp only [if_neg hc]
  exact h

theorem normalizeLines_return (t : Text) :
    normalizeLines (.carriageReturn :: t) =
      if t.head? = some .lineFeed then normalizeLines t else .lineFeed :: normalizeLines t := by
  rw [normalizeLines, normalizeLoop.eq_def]
  simp only [if_pos]
  cases t with
  | nil => rfl
  | cons d t =>
    have h := normalizeLoop_eq [.lineFeed] (d :: t)
    by_cases hd : d = .lineFeed
    · simp only [if_pos hd, List.head?_cons, Option.some.injEq]
      rfl
    · simp only [if_neg hd, List.head?_cons, Option.some.injEq]
      exact h

/-- Nothing changes in a text without carriage returns. -/
theorem normalizeLines_append_of_notMem {s : Text} (hs : .carriageReturn ∉ s) (t : Text) :
    normalizeLines (s ++ t) = s ++ normalizeLines t := by
  induction s with
  | nil => rfl
  | cons c s ih =>
    rw [List.mem_cons, not_or] at hs
    rw [List.cons_append, normalizeLines_cons (Ne.symm hs.1), ih hs.2]
    rfl

theorem normalizeLines_eq_self {s : Text} (hs : .carriageReturn ∉ s) : normalizeLines s = s := by
  have h := normalizeLines_append_of_notMem hs []
  rw [List.append_nil] at h
  exact h.trans (List.append_nil s)

/-- A text may be cut where no line feed follows. -/
theorem normalizeLines_append (s : Text) {t : Text} (ht : t.head? ≠ some .lineFeed) :
    normalizeLines (s ++ t) = normalizeLines s ++ normalizeLines t := by
  induction s with
  | nil => rfl
  | cons c s ih =>
    by_cases hc : c = .carriageReturn
    · subst hc
      have hhead : (s ++ t).head? = some .lineFeed ↔ s.head? = some .lineFeed := by
        cases s with
        | nil => simp [ht]
        | cons d s => rfl
      rw [List.cons_append, normalizeLines_return, normalizeLines_return, ih]
      by_cases hs : s.head? = some .lineFeed
      · rw [if_pos (hhead.2 hs), if_pos hs]
      · rw [if_neg (fun h => hs (hhead.1 h)), if_neg hs]
        rfl
    · rw [List.cons_append, normalizeLines_cons hc, normalizeLines_cons hc, ih]
      rfl

theorem mem_normalizeLines {t : Text} {c : CodePoint} (h : c ∈ normalizeLines t) :
    c ∈ t ∨ c = .lineFeed := by
  induction t with
  | nil => exact absurd h (by simp [normalizeLines, normalizeLoop])
  | cons d t ih =>
    by_cases hd : d = .carriageReturn
    · subst hd
      rw [normalizeLines_return] at h
      split at h
      · rcases ih h with h | h
        · exact .inl (List.mem_cons_of_mem _ h)
        · exact .inr h
      · rcases List.mem_cons.1 h with h | h
        · exact .inr h
        · rcases ih h with h | h
          · exact .inl (List.mem_cons_of_mem _ h)
          · exact .inr h
    · rw [normalizeLines_cons hd] at h
      rcases List.mem_cons.1 h with rfl | h
      · exact .inl List.mem_cons_self
      · rcases ih h with h | h
        · exact .inl (List.mem_cons_of_mem _ h)
        · exact .inr h

theorem return_notMem_normalizeLines (t : Text) : .carriageReturn ∉ normalizeLines t := by
  induction t with
  | nil => exact List.not_mem_nil
  | cons c t ih =>
    by_cases hc : c = .carriageReturn
    · rw [hc, normalizeLines_return]
      split
      · exact ih
      · exact List.not_mem_cons_of_ne_of_not_mem (by decide) ih
    · rw [normalizeLines_cons hc]
      exact List.not_mem_cons_of_ne_of_not_mem (Ne.symm hc) ih

/-- Nothing changes exactly in texts without carriage returns. -/
theorem normalizeLines_eq_self_iff {t : Text} : normalizeLines t = t ↔ .carriageReturn ∉ t :=
  ⟨fun h => h ▸ return_notMem_normalizeLines t, normalizeLines_eq_self⟩

theorem isXmlText_normalizeLines {t : Text} (h : t.isXmlText = true) :
    (normalizeLines t).isXmlText = true := by
  rw [Text.isXmlText, List.all_eq_true] at h ⊢
  intro c hc
  rcases mem_normalizeLines hc with hc | rfl
  · exact h c hc
  · decide

theorem exists_normalizeLines_return (t : Text) :
    ∃ u, normalizeLines (.carriageReturn :: t) = .lineFeed :: u := by
  rw [normalizeLines_return]
  by_cases h : t.head? = some .lineFeed
  · obtain ⟨u, rfl⟩ := List.head?_eq_some_iff.1 h
    exact ⟨normalizeLines u, by rw [if_pos h, normalizeLines_cons (by decide)]⟩
  · exact ⟨normalizeLines t, if_neg h⟩

theorem isPrefix_of_normalizeLines {s t : Text} (hs : .lineFeed ∉ s)
    (h : s <+: normalizeLines t) : s <+: t := by
  induction t generalizing s with
  | nil => exact h
  | cons c t ih =>
    cases s with
    | nil => exact List.nil_prefix
    | cons d s =>
      rw [List.mem_cons, not_or] at hs
      by_cases hc : c = .carriageReturn
      · obtain ⟨u, hu⟩ := exists_normalizeLines_return t
        rw [hc, hu, List.cons_prefix_cons] at h
        exact absurd h.1.symm hs.1
      · rw [normalizeLines_cons hc, List.cons_prefix_cons] at h
        exact List.cons_prefix_cons.2 ⟨h.1, ih hs.2 h.2⟩

/-- A text without line feeds is held where it was held before lines were ended. -/
theorem isInfix_of_normalizeLines {s t : Text} (hs : .lineFeed ∉ s)
    (h : s <:+: normalizeLines t) : s <:+: t := by
  induction t with
  | nil => exact h
  | cons c t ih =>
    by_cases hc : c = .carriageReturn
    · subst hc
      have hrest : s <:+: normalizeLines t → s <:+: .carriageReturn :: t :=
        fun h => (ih h).trans (List.suffix_cons ..).isInfix
      rw [normalizeLines_return] at h
      split at h
      · exact hrest h
      · rcases List.infix_cons_iff.1 h with hstarts | hfound
        · cases s with
          | nil => exact List.nil_infix
          | cons d s =>
            rw [List.cons_prefix_cons] at hstarts
            exact absurd (by simp [hstarts.1]) hs
        · exact hrest hfound
    · have hcons := normalizeLines_cons hc t
      rw [hcons] at h
      rcases List.infix_cons_iff.1 h with hstarts | hfound
      · rw [← hcons] at hstarts
        exact (isPrefix_of_normalizeLines hs hstarts).isInfix
      · exact (ih hfound).trans (List.suffix_cons ..).isInfix

/-! ## Trees -/

namespace Node

mutual

/-- The tree with the lines in its sections ended by line feeds. -/
def endLines : Node Text → Node Text
  | element name attributes children => element name attributes (endLinesAll children)
  | cdata content => cdata (normalizeLines content)
  | n => n

/-- Some trees with the lines in their sections ended by line feeds. -/
def endLinesAll : List (Node Text) → List (Node Text)
  | [] => []
  | n :: rest => endLines n :: endLinesAll rest

end

theorem endLinesAll_eq_map (ns : List (Node Text)) : endLinesAll ns = ns.map endLines := by
  induction ns with
  | nil => rfl
  | cons n ns ih => rw [endLinesAll, ih, List.map_cons]

mutual

/-- Sections have no attributes. -/
theorem values_endLines (name : Text) : ∀ n : Node Text, n.endLines.values name = n.values name
  | .element other attributes children => by
    rw [endLines, values, values, valuesAll_endLinesAll name children]
  | .text _ => rfl
  | .cdata _ => rfl
  | .comment _ => rfl
  | .instruction .. => rfl
  | .reference _ => rfl

theorem valuesAll_endLinesAll (name : Text) :
    ∀ ns : List (Node Text), valuesAll name (endLinesAll ns) = valuesAll name ns
  | [] => rfl
  | n :: rest => by
    rw [endLinesAll, valuesAll, valuesAll, values_endLines name n, valuesAll_endLinesAll name rest]

end

theorem isText_endLines (n : Node Text) : n.endLines.isText = n.isText := by
  cases n <;> rfl

theorem lineFeed_notMem_sectionEnd : .lineFeed ∉ Validation.sectionEnd := by
  decide

theorem IsPlain.endLines {n : Node Text} (h : n.IsPlain) : n.endLines.IsPlain := by
  cases n with
  | element name attributes children => trivial
  | cdata s =>
    refine ⟨fun hfound => h.1 ?_, isXmlText_normalizeLines h.2⟩
    exact isInfix_of_normalizeLines lineFeed_notMem_sectionEnd hfound
  | _ => exact h

theorem AreApart.endLinesAll {ns : List (Node Text)} (h : AreApart ns) :
    AreApart (endLinesAll ns) := by
  induction ns with
  | nil => trivial
  | cons n ns ih =>
    refine ⟨fun htext m hm => ?_, ih h.2⟩
    rw [isText_endLines] at htext
    cases ns with
    | nil => exact absurd hm (by simp [Node.endLinesAll])
    | cons k ns =>
      obtain rfl := Option.some.inj hm
      rw [isText_endLines]
      exact h.1 htext k rfl

theorem IsLegible.endLines {name : Text} {attributes : List (Text × Text)}
    {children : List (Node Text)} (h : IsLegible name attributes children) :
    IsLegible name attributes (endLinesAll children) := by
  refine ⟨h.name, h.keys, h.nodup, h.values, fun m hm => ?_, h.apart.endLinesAll⟩
  rw [endLinesAll_eq_map] at hm
  obtain ⟨n, hn, rfl⟩ := List.mem_map.1 hm
  exact (h.pieces n hn).endLines

/-- What holds of the elements of a tree holds of them when lines have been ended. -/
theorem Within.endLines {p : Text → List (Text × Text) → List (Node Text) → Prop}
    (hp : ∀ {name attributes children}, p name attributes children →
      p name attributes (endLinesAll children))
    {bound : Nat} {n : Node Text} (h : n.Within p bound) : n.endLines.Within p bound := by
  induction bound generalizing n with
  | zero =>
    cases n with
    | element name attributes children => exact h.elim
    | _ => trivial
  | succ bound ih =>
    cases n with
    | element name attributes children =>
      refine ⟨hp h.1, fun m hm => ?_⟩
      rw [endLinesAll_eq_map] at hm
      obtain ⟨k, hk, rfl⟩ := List.mem_map.1 hm
      exact ih (h.2 k hk)
    | _ => trivial

end Node

/-! ## Written trees -/

open Xml.Node

theorem return_notMem_name {name : Text} (h : isName name = true) : .carriageReturn ∉ name := by
  cases name with
  | nil => exact absurd h (by decide)
  | cons c rest =>
    rw [isName, Bool.and_eq_true, List.all_eq_true] at h
    intro hmem
    rcases List.mem_cons.1 hmem with rfl | hmem
    · exact absurd h.1 (by decide)
    · exact absurd (h.2 _ hmem) (by decide)

theorem return_notMem_reference : ∀ r ∈ references, .carriageReturn ∉ r.2 := by decide

theorem return_notMem_attributeCode (c : CodePoint) : .carriageReturn ∉ attributeCode c := by
  rcases attributeCode_cases c with ⟨heq, hc⟩ | href
  · rw [heq, List.mem_singleton]
    rintro rfl
    exact hc (by decide)
  · exact return_notMem_reference _ href

theorem return_notMem_contentCode (c : CodePoint) : .carriageReturn ∉ contentCode c := by
  rcases contentCode_cases c with ⟨heq, hc⟩ | href
  · rw [heq, List.mem_singleton]
    rintro rfl
    exact hc (by decide)
  · exact return_notMem_reference _ href

theorem return_notMem_writeTag {name : Text} {attributes : List (Text × Text)}
    (hname : isName name = true) (hkeys : ∀ a ∈ attributes, isName a.1 = true) :
    .carriageReturn ∉ writeTag name attributes := by
  unfold writeTag
  rw [List.mem_append, List.mem_flatMap, not_or]
  refine ⟨return_notMem_name hname, ?_⟩
  rintro ⟨a, ha, hmem⟩
  simp only [writeAttribute, List.mem_append, List.mem_flatMap] at hmem
  rcases hmem with (((h | h) | h) | ⟨c, -, h⟩) | h
  · exact absurd h (by decide)
  · exact return_notMem_name (hkeys a ha) h
  · exact absurd h (by decide)
  · exact return_notMem_attributeCode c h
  · exact absurd h (by decide)

/-- A tree in whose text lines can be ended section by section. -/
def EndsLines (n : Node Text) : Prop :=
  ∀ r : Text, normalizeLines (write n ++ r) = write n.endLines ++ normalizeLines r

theorem normalizeLines_writeAll {ns : List (Node Text)} (h : ∀ n ∈ ns, EndsLines n) (r : Text) :
    normalizeLines (writeAll ns ++ r) = writeAll (endLinesAll ns) ++ normalizeLines r := by
  induction ns with
  | nil => rfl
  | cons n ns ih =>
    rw [writeAll, endLinesAll, writeAll, List.append_assoc, List.append_assoc, h n (by simp),
      ih fun m hm => h m (by simp [hm])]

theorem endsLines_of_isPlain {n : Node Text} (h : n.IsPlain) (hn : ∀ name attributes children,
    n = element name attributes children → EndsLines n) : EndsLines n := by
  cases n with
  | element name attributes children => exact hn _ _ _ rfl
  | text s =>
    intro r
    have hs : .carriageReturn ∉ s.flatMap contentCode := by
      intro hmem
      obtain ⟨c, -, hc⟩ := List.mem_flatMap.1 hmem
      exact return_notMem_contentCode c hc
    exact normalizeLines_append_of_notMem hs r
  | cdata s =>
    intro r
    have hopen : .carriageReturn ∉ Text.ofString "<![CDATA[" := by decide
    have hclose : .carriageReturn ∉ Text.ofString "]]>" := by decide
    have hinside : ¬Validation.sectionEnd <:+: normalizeLines s := fun hfound =>
      h.1 (isInfix_of_normalizeLines lineFeed_notMem_sectionEnd hfound)
    rw [endLines, write, write, sectionContent_eq_self h.1, sectionContent_eq_self hinside,
      List.append_assoc, List.append_assoc, normalizeLines_append_of_notMem hopen,
      normalizeLines_append s (by exact fun h => absurd (Option.some.inj h) (by decide)),
      normalizeLines_append_of_notMem hclose]
    simp only [List.append_assoc]
  | comment _ => exact h.elim
  | instruction _ _ => exact h.elim
  | reference _ => exact h.elim

/-- What becomes of a written element. -/
theorem endsLines_element {bound : Nat} {name : Text} {attributes : List (Text × Text)}
    {children : List (Node Text)}
    (h : (element name attributes children).Within IsLegible bound) :
    EndsLines (element name attributes children) := by
  induction bound generalizing name attributes children with
  | zero => exact h.elim
  | succ bound ih =>
    obtain ⟨hlegible, hchildren⟩ := h
    have hall : ∀ n ∈ children, EndsLines n := by
      intro n hn
      refine endsLines_of_isPlain (hlegible.pieces n hn) ?_
      rintro name attributes children rfl
      exact ih (hchildren _ hn)
    have htag := return_notMem_writeTag hlegible.name hlegible.keys
    have hless : CodePoint.carriageReturn ≠ CodePoint.ofChar '<' := by decide
    have hmark : ∀ e : TagEnd, .carriageReturn ∉ e.mark := by
      intro e
      cases e <;> decide
    have hslash : .carriageReturn ∉ Text.ofString "</" := by decide
    have hgreater : .carriageReturn ∉ Text.ofString ">" := by decide
    intro r
    cases children with
    | nil =>
      rw [endLines, endLinesAll, write_empty, write_empty, normalizeLines_cons (Ne.symm hless),
        normalizeLines_append_of_notMem htag, normalizeLines_append_of_notMem (hmark _)]
    | cons n rest =>
      have hrest := normalizeLines_writeAll hall
      rw [endLines, endLinesAll, write_cons, write_cons, normalizeLines_cons (Ne.symm hless),
        normalizeLines_append_of_notMem htag, normalizeLines_append_of_notMem (hmark _), hrest,
        normalizeLines_append_of_notMem hslash,
        normalizeLines_append_of_notMem (return_notMem_name hlegible.name),
        normalizeLines_append_of_notMem hgreater, endLinesAll]

end CasePlan.Xml
