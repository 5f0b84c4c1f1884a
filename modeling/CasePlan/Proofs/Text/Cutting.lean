import CasePlan.Text.Class
import Mathlib.Data.List.Infix
import Mathlib.Data.List.TakeDrop

/-!
# Cutting texts

Where a text that was put together is cut again.

* `span_append`: a run ends where the next code point is of another kind.
* `after?_append`, `before?_append`: a beginning or an ending is taken away.
* `contains_eq_true_iff`: a text contains another one exactly if that is an infix of it.
* `isInfix_append_cons_iff`: what does not hold a code point stands on one side of it.
* `isInfix_of_flatMap`, `isInfix_quoted_append`: escapes bring no text about that they have nothing
  of.
* `replaceAll_singleton`: replacing a code point, occurrence by occurrence.
* `strip_eq_self`: a text without blanks at its ends.
-/

namespace CasePlan

/-- A run of items of one kind ends where the rest begins with another one. -/
theorem span_append {α : Type} {p : α → Bool} {run rest : List α} (h : ∀ x ∈ run, p x = true)
    (hrest : ∀ x ∈ rest.head?, p x = false) : (run ++ rest).span p = (run, rest) := by
  rw [List.span_eq_takeWhile_dropWhile, List.takeWhile_append_of_pos h,
    List.dropWhile_append_of_pos h]
  cases rest with
  | nil => simp
  | cons x rest => simp [hrest x (by simp)]

namespace Text

@[simp] theorem after?_append (beginning t : Text) : after? beginning (beginning ++ t) = some t := by
  rw [after?, if_pos (List.isPrefixOf_iff_prefix.2 (List.prefix_append ..)), List.drop_left]

@[simp] theorem before?_append (t ending : Text) : before? ending (t ++ ending) = some t := by
  rw [before?, if_pos (List.isSuffixOf_iff_suffix.2 (List.suffix_append ..)), List.length_append,
    Nat.add_sub_cancel, List.take_left]

/-- A beginning is not taken away from a text with another first code point. -/
theorem after?_cons_of_ne {b c : CodePoint} (h : b ≠ c) (beginning t : Text) :
    after? (b :: beginning) (c :: t) = none := by
  rw [after?, if_neg]
  simp [h]

theorem contains_eq_true_iff {needle t : Text} : contains needle t = true ↔ needle <:+: t := by
  induction t with
  | nil => simp [contains]
  | cons c t ih =>
    rw [contains, Bool.or_eq_true, ih, List.isPrefixOf_iff_prefix, List.infix_cons_iff]

theorem isPrefix_of_notMem {needle s t : Text} {c : CodePoint} (hc : c ∉ needle)
    (h : needle <+: s ++ c :: t) : needle <+: s := by
  have hs : s ++ [c] <+: s ++ c :: t := ⟨t, by simp⟩
  rcases List.prefix_or_prefix_of_prefix h hs with h | h
  · rcases List.prefix_concat_iff.1 h with rfl | h
    · exact absurd (by simp) hc
    · exact h
  · exact absurd (h.subset (by simp)) hc

/-- What does not hold a code point stands on one side of it. -/
theorem isInfix_append_cons_iff {needle s t : Text} {c : CodePoint} (hc : c ∉ needle) :
    needle <:+: s ++ c :: t ↔ needle <:+: s ∨ needle <:+: t := by
  constructor
  · intro h
    induction s with
    | nil =>
      rcases List.infix_cons_iff.1 h with hstarts | hfound
      · exact .inl (isPrefix_of_notMem hc hstarts).isInfix
      · exact .inr hfound
    | cons d s ih =>
      rcases List.infix_cons_iff.1 h with hstarts | hfound
      · exact .inl (isPrefix_of_notMem hc hstarts).isInfix
      · rcases ih hfound with h | h
        · exact .inl (h.trans (List.suffix_cons ..).isInfix)
        · exact .inr h
  · rintro (h | h)
    · exact h.trans (List.prefix_append ..).isInfix
    · exact h.trans ((List.suffix_cons ..).trans (List.suffix_append ..)).isInfix

/-- What holds no code point of a text holds the text nowhere. -/
theorem not_isInfix_of_notMem {needle t : Text} {c : CodePoint} (hc : c ∈ needle) (ht : c ∉ t) :
    ¬needle <:+: t :=
  fun h => ht (h.subset hc)

/-- What does not hold a text, and ends with a code point that the text does not hold, cannot be a
part of it. -/
theorem isInfix_of_append {needle front t : Text} {c d : CodePoint} (hc : c ∈ needle)
    (hfront : c ∉ front) (hlast : front.getLast? = some d) (hd : d ∉ needle)
    (h : needle <:+: front ++ t) : needle <:+: t := by
  obtain ⟨u, rfl⟩ := List.getLast?_eq_some_iff.1 hlast
  rw [List.append_assoc, List.singleton_append] at h
  rcases (isInfix_append_cons_iff hd).1 h with h | h
  · exact absurd h (not_isInfix_of_notMem hc fun hu => hfront (by simp [hu]))
  · exact h

section

variable {needle : Text} {f : CodePoint → Text}

/-- Each code point stands for itself, or for code points that a text does not hold. -/
def Spares (needle : Text) (f : CodePoint → Text) : Prop :=
  ∀ c, f c = [c] ∨ f c ≠ [] ∧ ∀ d ∈ f c, d ∉ needle

theorem isPrefix_of_flatMap (hf : Spares needle f) {s t : Text} (hs : ∀ d ∈ s, d ∈ needle)
    (h : s <+: t.flatMap f) : s <+: t := by
  induction t generalizing s with
  | nil => exact h
  | cons c t ih =>
    cases s with
    | nil => exact List.nil_prefix
    | cons d s =>
      rw [List.flatMap_cons] at h
      rcases hf c with hc | ⟨hne, hc⟩
      · rw [hc, List.singleton_append, List.cons_prefix_cons] at h
        exact List.cons_prefix_cons.2 ⟨h.1, ih (fun e he => hs e (by simp [he])) h.2⟩
      · obtain ⟨e, rest, he⟩ := List.exists_cons_of_ne_nil hne
        rw [he, List.cons_append, List.cons_prefix_cons] at h
        exact absurd (hs d (by simp)) (hc d (by simp [he, h.1]))

/-- Such a text is held only where it was held before. -/
theorem isInfix_of_flatMap (hne : needle ≠ []) (hf : Spares needle f) {t : Text}
    (h : needle <:+: t.flatMap f) : needle <:+: t := by
  induction t with
  | nil => exact h
  | cons c t ih =>
    have hskip : ∀ u : Text, (∀ d ∈ u, d ∉ needle) → needle <:+: u ++ t.flatMap f →
        needle <:+: t.flatMap f := by
      intro u hu h
      induction u with
      | nil => exact h
      | cons d u ihu =>
        rcases List.infix_cons_iff.1 h with hstarts | hfound
        · obtain ⟨e, rest, rfl⟩ := List.exists_cons_of_ne_nil hne
          rw [List.cons_prefix_cons] at hstarts
          exact absurd (by simp [hstarts.1]) (hu d (by simp))
        · exact ihu (fun d hd => hu d (by simp [hd])) hfound
    rcases hf c with hc | ⟨-, hc⟩
    · have hcons : (c :: t).flatMap f = c :: t.flatMap f := by rw [List.flatMap_cons, hc]; rfl
      rw [hcons] at h
      rcases List.infix_cons_iff.1 h with hstarts | hfound
      · rw [← hcons] at hstarts
        exact (isPrefix_of_flatMap hf (fun d hd => hd) hstarts).isInfix
      · exact (ih hfound).trans (List.suffix_cons ..).isInfix
    · rw [List.flatMap_cons] at h
      exact (ih (hskip _ hc h)).trans (List.suffix_cons ..).isInfix

/-- A text between two marks, in front of anything: what does not hold the mark stands inside or
behind. -/
theorem isInfix_quoted_append {mark : CodePoint} (hne : needle ≠ []) (hmark : mark ∉ needle)
    (hf : Spares needle f) {t r : Text}
    (h : needle <:+: mark :: (t.flatMap f ++ mark :: r)) : needle <:+: t ∨ needle <:+: r := by
  rcases (isInfix_append_cons_iff (s := []) hmark).1 h with h | h
  · exact absurd (List.infix_nil.1 h) hne
  rcases (isInfix_append_cons_iff hmark).1 h with h | h
  · exact .inl (isInfix_of_flatMap hne hf h)
  · exact .inr h

end

/-- More at the end of the last text is more at the end of all. -/
theorem join_append_last (separator : Text) (ts : List Text) (t u : Text) :
    join separator (ts ++ [t ++ u]) = join separator (ts ++ [t]) ++ u := by
  induction ts with
  | nil => rfl
  | cons s ts ih =>
    cases ts with
    | nil => simp only [List.cons_append, List.nil_append, join, List.append_assoc]
    | cons r ts =>
      simp only [List.cons_append, join, List.append_assoc] at ih ⊢
      rw [ih]

/-- One more text comes after a separator. -/
theorem join_append_singleton (separator : Text) (ts : List Text) (s t : Text) :
    join separator (ts ++ [s] ++ [t]) = join separator (ts ++ [s]) ++ (separator ++ t) := by
  rw [← join_append_last]
  induction ts with
  | nil => simp only [List.nil_append, List.singleton_append, join, List.append_assoc]
  | cons r ts ih =>
    cases ts <;> simp only [List.cons_append, List.nil_append, join, List.append_assoc] at ih ⊢
    rw [ih]

theorem join_splitLoop (c : CodePoint) (new t part : Text) (done : List Text) :
    join new (splitLoop [c] t part done) = join new (done.reverse ++ [part.reverse]) ++
      t.flatMap fun d => if d = c then new else [d] := by
  induction t generalizing part done with
  | nil => rw [splitLoop, List.reverse_cons, List.flatMap_nil, List.append_nil]
  | cons d t ih =>
    rw [splitLoop, List.flatMap_cons]
    by_cases hd : d = c
    · rw [if_pos (by simp [hd]), if_pos hd, List.length_singleton, Nat.sub_self, List.drop_zero, ih,
        List.reverse_cons, List.reverse_nil, join_append_singleton, List.append_nil,
        List.append_assoc]
    · rw [if_neg (by simpa using Ne.symm hd), if_neg hd, ih, List.reverse_cons, join_append_last,
        List.append_assoc]

/-- Replacing a code point replaces every one of its occurrences. -/
theorem replaceAll_singleton (c : CodePoint) (new t : Text) :
    replaceAll [c] new t = t.flatMap fun d => if d = c then new else [d] := by
  rw [replaceAll, splitOn, List.isEmpty_cons, if_neg Bool.false_ne_true, join_splitLoop]
  rfl

theorem length_le_flatMap {α β : Type} {f : α → List β} (h : ∀ x, f x ≠ []) (xs : List α) :
    xs.length ≤ (xs.flatMap f).length := by
  induction xs with
  | nil => exact Nat.le_refl _
  | cons x xs ih =>
    have hpos := List.length_pos_iff.2 (h x)
    rw [List.flatMap_cons, List.length_append, List.length_cons]
    omega

theorem dropWhile_eq_self {p : CodePoint → Bool} {t : Text} (h : ∀ c ∈ t.head?, p c = false) :
    t.dropWhile p = t := by
  cases t with
  | nil => rfl
  | cons c t => rw [List.dropWhile_cons, h c rfl]; rfl

/-- A text without blanks at its ends is left as it is. -/
theorem strip_eq_self {t : Text} (hhead : ∀ c ∈ t.head?, isBlank c = false)
    (hlast : ∀ c ∈ t.getLast?, isBlank c = false) : t.strip = t := by
  have hreverse : ∀ c ∈ t.reverse.head?, isBlank c = false := by
    rwa [List.head?_reverse]
  rw [strip, dropWhile_eq_self hhead, dropWhile_eq_self hreverse, List.reverse_reverse]

end Text

end CasePlan
