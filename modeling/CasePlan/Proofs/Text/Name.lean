import CasePlan.Compilation
import CasePlan.Proofs.Text.Numeral
import Mathlib.Data.List.TakeWhile

/-!
# Names of cases

A name begins with a letter or a low line.  It is safe in identifiers if it goes on with letters,
digits, low lines and hyphens; what is accepted as the name of a case is safe, or it is a safe name
with a line feed after it.

* `Text.isNameOf`: names, by what they are spelled with; `isNameOf_word`, `isNameOf_more`: names that
  are put together.
* `Text.isIdSafe`: safe names.
* `isCaseName_iff`, `isIdSafe_eq_false_iff`, `isNameOf_of_isCaseName`: names of cases.
-/

namespace CasePlan

/-! ## Letters -/

/-- Whether a code point may stand in the name of a case, anywhere. -/
def isCaseLetter (c : CodePoint) : Bool := isNamePart c || c = .lineFeed

theorem isNamePart_of_isNameStart {c : CodePoint} (h : isNameStart c = true) :
    isNamePart c = true := by
  simp [isNamePart, h]

theorem isCaseLetter_of_isNamePart (c : CodePoint) (h : isNamePart c = true) :
    isCaseLetter c = true := by
  rw [isCaseLetter, h, Bool.true_or]

/-! ## Names -/

namespace Text

/-- Whether a text begins like a name and is spelled with some code points after that. -/
def isNameOf (letters : CodePoint → Bool) (t : Text) : Bool :=
  match t with
  | [] => false
  | c :: rest => isNameStart c && rest.all letters

/-- Whether a text is safe in identifiers: a letter or low line, then letters, digits, low lines and
hyphens. -/
def isIdSafe (t : Text) : Bool := t.isNameOf isNamePart

theorem isNameOf_cons {letters : CodePoint → Bool} {c : CodePoint} {rest : Text} :
    isNameOf letters (c :: rest) = true ↔ isNameStart c = true ∧ rest.all letters = true :=
  Bool.and_eq_true_iff

theorem isNameOf_mono {p q : CodePoint → Bool} {t : Text} (hpq : ∀ c, p c = true → q c = true)
    (h : t.isNameOf p = true) : t.isNameOf q = true := by
  cases t with
  | nil => exact h
  | cons c rest =>
    obtain ⟨hstart, hrest⟩ := isNameOf_cons.1 h
    refine isNameOf_cons.2 ⟨hstart, List.all_eq_true.2 fun d hd => ?_⟩
    exact hpq d (List.all_eq_true.1 hrest d hd)

theorem ne_nil_of_isNameOf {p : CodePoint → Bool} {t : Text} (h : t.isNameOf p = true) : t ≠ [] := by
  rintro rfl
  exact absurd h Bool.false_ne_true

/-- A name goes on with what it is spelled with. -/
theorem isNameOf_append {p : CodePoint → Bool} {s t : Text} (hs : s ≠ []) :
    isNameOf p (s ++ t) = true ↔ s.isNameOf p = true ∧ t.all p = true := by
  cases s with
  | nil => exact absurd rfl hs
  | cons c rest =>
    rw [List.cons_append, isNameOf_cons, isNameOf_cons, List.all_append, Bool.and_eq_true, and_assoc]

section

variable {p : CodePoint → Bool} (hp : ∀ c, isNamePart c = true → p c = true)
include hp

theorem all_of_isNameOf {t : Text} (h : t.isNameOf p = true) : t.all p = true := by
  cases t with
  | nil => rfl
  | cons c rest =>
    obtain ⟨hstart, hrest⟩ := isNameOf_cons.1 h
    exact List.all_cons ▸ Bool.and_eq_true_iff.2 ⟨hp c (isNamePart_of_isNameStart hstart), hrest⟩

theorem all_ofNat (n : Nat) : (ofNat n).all p = true := by
  refine List.all_eq_true.2 fun c hc => hp c ?_
  have hdigit := isDigit_of_mem_ofNat hc
  simp [isNamePart, hdigit]

/-- A safe word with a name after it is a name. -/
theorem isNameOf_word {word t : Text} (hword : word.isIdSafe = true) (h : t.all p = true) :
    isNameOf p (word ++ t) = true :=
  (isNameOf_append (ne_nil_of_isNameOf hword)).2 ⟨isNameOf_mono hp hword, h⟩

/-- A name with more letters after it is a name. -/
theorem isNameOf_more {s t : Text} (hs : s.isNameOf p = true) (h : t.all isNamePart = true) :
    isNameOf p (s ++ t) = true :=
  (isNameOf_append (ne_nil_of_isNameOf hs)).2
    ⟨hs, List.all_eq_true.2 fun c hc => hp c (List.all_eq_true.1 h c hc)⟩

end

end Text

/-! ## Names that are accepted -/

/-- Nothing or one code point stands after the letters. -/
theorem dropWhile_isPrefixOf_iff {p : CodePoint → Bool} {last : CodePoint} (hlast : p last = false)
    {t : Text} :
    (t.dropWhile p).isPrefixOf [last] = true ↔
      t.all p = true ∨ ∃ s : Text, s.all p = true ∧ t = s ++ [last] := by
  have htaken : (t.takeWhile p).all p = true :=
    List.all_eq_true.2 fun c hc => List.mem_takeWhile_imp hc
  have hcut := List.takeWhile_append_dropWhile (p := p) (l := t)
  rw [List.isPrefixOf_iff_prefix, List.prefix_cons_iff]
  constructor
  · rintro (hnil | ⟨more, hmore, hprefix⟩)
    · rw [hnil, List.append_nil] at hcut
      exact .inl (hcut ▸ htaken)
    · rw [hmore, List.prefix_nil.1 hprefix] at hcut
      exact .inr ⟨_, htaken, hcut.symm⟩
  · rintro (hall | ⟨s, hall, rfl⟩)
    · exact .inl (List.dropWhile_eq_nil_iff.2 (List.all_eq_true.1 hall))
    · refine .inr ⟨[], ?_, List.prefix_rfl⟩
      rw [List.dropWhile_append_of_pos (List.all_eq_true.1 hall),
        List.dropWhile_cons_of_neg (by rw [hlast]; exact Bool.false_ne_true)]

/-- The name of a case is safe in identifiers, but for a line feed at its end. -/
theorem isCaseName_iff {t : Text} :
    isCaseName t = true ↔
      t.isIdSafe = true ∨ ∃ s : Text, s.isIdSafe = true ∧ t = s ++ [.lineFeed] := by
  cases t with
  | nil =>
    refine ⟨fun h => absurd h Bool.false_ne_true, ?_⟩
    rintro (h | ⟨s, -, hs⟩)
    · exact absurd h Bool.false_ne_true
    · exact absurd hs.symm (List.append_ne_nil_of_right_ne_nil _ (List.cons_ne_nil _ _))
  | cons c rest =>
    rw [isCaseName, Bool.and_eq_true, dropWhile_isPrefixOf_iff (by decide)]
    constructor
    · rintro ⟨hstart, hrest | ⟨s, hs, rfl⟩⟩
      · exact .inl (Text.isNameOf_cons.2 ⟨hstart, hrest⟩)
      · exact .inr ⟨c :: s, Text.isNameOf_cons.2 ⟨hstart, hs⟩, rfl⟩
    · rintro (h | ⟨s, hs, heq⟩)
      · obtain ⟨hstart, hrest⟩ := Text.isNameOf_cons.1 h
        exact ⟨hstart, .inl hrest⟩
      · cases s with
        | nil => exact absurd hs Bool.false_ne_true
        | cons d s =>
          rw [List.cons_append] at heq
          obtain ⟨rfl, rfl⟩ := List.cons.inj heq
          obtain ⟨hstart, hs⟩ := Text.isNameOf_cons.1 hs
          exact ⟨hstart, .inr ⟨s, hs, rfl⟩⟩

/-- What is not safe in the name of a case is a line feed at its end. -/
theorem isIdSafe_eq_false_iff {t : Text} (h : isCaseName t = true) :
    t.isIdSafe = false ↔ ∃ s : Text, s.isIdSafe = true ∧ t = s ++ [.lineFeed] := by
  constructor
  · intro hfalse
    rcases isCaseName_iff.1 h with hsafe | hfeed
    · exact absurd (hfalse.symm.trans hsafe) Bool.false_ne_true
    · exact hfeed
  · rintro ⟨s, -, rfl⟩
    rw [Bool.eq_false_iff]
    intro hsafe
    have hall := Text.all_of_isNameOf (fun _ hc => hc) hsafe
    have hfeed := List.all_eq_true.1 hall _ (List.mem_append_right s List.mem_cons_self)
    exact absurd hfeed (by decide)

/-- Nothing else than a line feed is let in. -/
theorem isNameOf_of_isCaseName {t : Text} (h : isCaseName t = true) :
    t.isNameOf isCaseLetter = true := by
  rcases isCaseName_iff.1 h with hsafe | ⟨s, hsafe, rfl⟩
  · exact Text.isNameOf_mono isCaseLetter_of_isNamePart hsafe
  · exact (Text.isNameOf_append (Text.ne_nil_of_isNameOf hsafe)).2
      ⟨Text.isNameOf_mono isCaseLetter_of_isNamePart hsafe, by decide⟩

end CasePlan
