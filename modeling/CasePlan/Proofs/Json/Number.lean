import CasePlan.Proofs.Json.Text
import CasePlan.Proofs.Text.Cutting
import CasePlan.Proofs.Text.Numeral

/-!
# Whole numbers in JSON

* `readNumber?_ofNat`: a number in decimal is read as that number where it ends.
* `readScalar_ofInt`: so is one with a sign; no word begins as a number does.
-/

namespace CasePlan.Json

/-! ## Numbers -/

/-- A text that no number goes on with. -/
def EndsNumber (r : Text) : Prop :=
  ∀ c ∈ r.head?, isDigit c = false ∧ c ≠ CodePoint.ofChar '.' ∧ c ≠ CodePoint.ofChar 'e' ∧
    c ≠ CodePoint.ofChar 'E'

theorem endsNumber_of_isSpace {c : CodePoint} (h : isSpace c = true) (r : Text) :
    EndsNumber (c :: r) := by
  intro d hd
  obtain rfl : c = d := by simpa using hd
  simp only [isSpace, decide_eq_true_eq] at h
  rcases h with rfl | rfl | rfl | rfl <;> decide

theorem isDigit_of_mem_ofNat {n : Nat} {c : CodePoint} (h : c ∈ Text.ofNat n) :
    isDigit c = true := by
  obtain ⟨hlow, hhigh⟩ := Text.isDigit_of_mem_ofNat h
  simp [isDigit, hlow, hhigh]

theorem digits_ofNat_append (n : Nat) {r : Text} (hr : EndsNumber r) :
    digits (Text.ofNat n ++ r) = (Text.ofNat n, r) :=
  span_append (fun _ hc => isDigit_of_mem_ofNat hc) fun c hc => (hr c hc).1

theorem digitsValue_ofNat (n : Nat) : digitsValue (Text.ofNat n) = n := by
  have h := Nat.ofDigitChars_ten_toDigits (n := n)
  rw [Nat.ofDigitChars_eq_foldl] at h
  unfold digitsValue Text.ofNat
  rw [List.foldl_map]
  refine Eq.trans ?_ h
  refine List.foldl_ext _ _ 0 fun m d _ => ?_
  show m * 10 + (d.toNat - 0x30) = 10 * m + (d.toNat - 0x30)
  rw [Nat.mul_comm]

/-- Only zero begins with a zero. -/
theorem head_ofNat_ne_zero {n : Nat} (h : 0 < n) :
    ∃ c rest, Text.ofNat n = c :: rest ∧ c ≠ CodePoint.ofChar '0' ∧ isDigit c = true := by
  induction n using Nat.strong_induction_on with
  | _ n ih =>
    by_cases hlt : n < 10
    · refine ⟨CodePoint.ofChar n.digitChar, [], Text.ofNat_of_lt_ten hlt, ?_, ?_⟩
      · have hall : ∀ d : Fin 10, 0 < d.val →
            CodePoint.ofChar d.val.digitChar ≠ CodePoint.ofChar '0' := by decide
        exact hall ⟨n, hlt⟩ h
      · exact isDigit_of_mem_ofNat (n := n) (by rw [Text.ofNat_of_lt_ten hlt]; simp)
    · obtain ⟨c, rest, hc, hne, hdigit⟩ := ih (n / 10) (by omega) (by omega)
      refine ⟨c, rest ++ [CodePoint.ofChar (n % 10).digitChar], ?_, hne, hdigit⟩
      unfold Text.ofNat at hc ⊢
      rw [Nat.toDigits_of_base_le (by decide) (by omega), List.map_append, hc]
      rfl

theorem readNumber?_ofNat (negative : Bool) (n : Nat) {r : Text} (hr : EndsNumber r) :
    readNumber? negative (Text.ofNat n ++ r) =
      some (.int (if negative then -(n : Int) else n), r) := by
  have hwhole : wholePart? (Text.ofNat n ++ r) = some (Text.ofNat n, r) := by
    rcases Nat.eq_zero_or_pos n with rfl | hpos
    · rfl
    · obtain ⟨c, rest, hc, hne, hdigit⟩ := head_ofNat_ne_zero hpos
      have hdigits := digits_ofNat_append n hr
      rw [hc] at hdigits ⊢
      rw [List.cons_append, wholePart?, if_neg hne, if_pos hdigit, ← List.cons_append, hdigits]
  have hfraction : fraction? r = none := by
    match r, hr with
    | [], _ => rfl
    | [_], _ => rfl
    | p :: c :: rest, hr =>
      rw [fraction?, if_neg]
      exact fun h => (hr p (by simp)).2.1 h.1
  have hexponent : exponent? r = none := by
    cases r with
    | nil => rfl
    | cons c r =>
      simp only [exponent?]
      rw [if_neg]
      rintro (h | h)
      · exact (hr c (by simp)).2.2.1 h
      · exact (hr c (by simp)).2.2.2 h
  rw [readNumber?, hwhole]
  simp [hfraction, hexponent, digitsValue_ofNat]

/-! ## Scalars -/

/-- The words by which values are written. -/
def wordTexts : List Text := ["null", "true", "false", "NaN", "Infinity", "-Infinity"]

theorem findSome?_words_eq_none {t : Text} (h : ∀ w ∈ wordTexts, w.isPrefixOf t = false) :
    (words.findSome? fun (word, value) => (Text.after? word t).map (value, ·)) = none := by
  rw [List.findSome?_eq_none_iff]
  intro w hw
  have hword : w.1 ∈ wordTexts := List.mem_map_of_mem (f := Prod.fst) hw
  show (Text.after? w.1 t).map (w.2, ·) = none
  rw [Text.after?, if_neg (by simp [h w.1 hword]), Option.map_none]

/-- Words and digits begin differently. -/
theorem isPrefixOf_digit {w : Text} (hw : w ∈ wordTexts) {c : CodePoint} {t : Text}
    (h : isDigit c = true) : w.isPrefixOf (c :: t) = false := by
  have hhead : ∀ w ∈ wordTexts, ∃ b rest, w = b :: rest ∧ isDigit b = false := by
    intro w hw
    simp only [wordTexts, List.mem_cons, List.not_mem_nil, or_false] at hw
    rcases hw with rfl | rfl | rfl | rfl | rfl | rfl <;> exact ⟨_, _, rfl, by decide⟩
  obtain ⟨b, rest, rfl, hb⟩ := hhead w hw
  have hne : b ≠ c := by
    rintro rfl
    rw [h] at hb
    exact absurd hb (by decide)
  simp [List.isPrefixOf, hne]

theorem isPrefixOf_minus {w : Text} (hw : w ∈ wordTexts) {c : CodePoint} {t : Text}
    (h : isDigit c = true) : w.isPrefixOf (CodePoint.ofChar '-' :: c :: t) = false := by
  have hI : CodePoint.ofChar 'I' ≠ c := by
    rintro rfl
    exact absurd h (by decide)
  simp only [wordTexts, List.mem_cons, List.not_mem_nil, or_false] at hw
  rcases hw with rfl | rfl | rfl | rfl | rfl | rfl
  · rfl
  · rfl
  · rfl
  · rfl
  · rfl
  · show List.isPrefixOf (CodePoint.ofChar '-' :: CodePoint.ofChar 'I' :: _) _ = false
    simp [List.isPrefixOf, hI]

theorem readScalar_of_digit {c : CodePoint} {t : Text} {step : Json × Text}
    (h : isDigit c = true) (hread : readNumber? false (c :: t) = some step) :
    readScalar (c :: t) = .ok step := by
  have hsign : c ≠ CodePoint.ofChar '-' := by
    rintro rfl
    exact absurd h (by decide)
  rw [readScalar, findSome?_words_eq_none fun w hw => isPrefixOf_digit hw h]
  simp only [if_neg hsign, hread]

theorem readScalar_of_minus {c : CodePoint} {t : Text} {step : Json × Text}
    (h : isDigit c = true) (hread : readNumber? true (c :: t) = some step) :
    readScalar (CodePoint.ofChar '-' :: c :: t) = .ok step := by
  rw [readScalar, findSome?_words_eq_none fun w hw => isPrefixOf_minus hw h]
  simp only [if_pos, hread]

theorem readScalar_ofInt (n : Int) {r : Text} (hr : EndsNumber r) :
    readScalar (Text.ofInt n ++ r) = .ok (.int n, r) := by
  have hhead : ∀ n : Nat, ∃ c rest, Text.ofNat n = c :: rest ∧ isDigit c = true := by
    intro n
    obtain ⟨c, rest, hc⟩ := List.exists_cons_of_ne_nil (Text.ofNat_ne_nil n)
    exact ⟨c, rest, hc, isDigit_of_mem_ofNat (n := n) (by simp [hc])⟩
  cases n with
  | ofNat n =>
    obtain ⟨c, rest, hc, hdigit⟩ := hhead n
    have hread := readNumber?_ofNat false n hr
    rw [Text.ofInt]
    rw [hc] at hread ⊢
    rw [List.cons_append] at hread ⊢
    exact readScalar_of_digit hdigit hread
  | negSucc n =>
    obtain ⟨c, rest, hc, hdigit⟩ := hhead (n + 1)
    have hread := readNumber?_ofNat true (n + 1) hr
    rw [Text.ofInt]
    rw [hc] at hread ⊢
    exact readScalar_of_minus hdigit hread

end CasePlan.Json
