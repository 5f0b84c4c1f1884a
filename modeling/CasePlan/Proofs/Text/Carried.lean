import CasePlan.Proofs.Text.Numeral
import CasePlan.Text.Class

/-!
# Texts that XML can carry

XML can carry what is put together from texts that it can carry, and it can carry every number.

* `isXmlText_append`, `isXmlText_flatMap`, `isXmlText_of_subset`: texts put together and parts of
  texts.
* `isXmlText_ofNat`, `isXmlText_ofInt`: numbers.
-/

namespace CasePlan.Text

@[simp] theorem isXmlText_append {s t : Text} :
    isXmlText (s ++ t) = true ↔ s.isXmlText = true ∧ t.isXmlText = true := by
  rw [isXmlText, List.all_append, Bool.and_eq_true]
  rfl

@[simp] theorem isXmlText_cons {c : CodePoint} {t : Text} :
    isXmlText (c :: t) = true ↔ isXmlChar c = true ∧ t.isXmlText = true := by
  rw [isXmlText, List.all_cons, Bool.and_eq_true]
  rfl

theorem isXmlText_flatMap {f : CodePoint → Text}
    (hf : ∀ c, isXmlChar c = true → (f c).isXmlText = true) {t : Text}
    (ht : t.isXmlText = true) : isXmlText (t.flatMap f) = true := by
  rw [isXmlText, List.all_eq_true] at ht
  rw [isXmlText, List.all_flatMap, List.all_eq_true]
  exact fun c hc => hf c (ht c hc)

/-- What stands in a text that XML can carry. -/
theorem isXmlText_of_subset {s t : Text} (h : s ⊆ t) (ht : t.isXmlText = true) :
    s.isXmlText = true := by
  rw [isXmlText, List.all_eq_true] at ht ⊢
  exact fun c hc => ht c (h hc)

theorem isXmlText_ite {p : Prop} [Decidable p] {s t : Text} (hs : s.isXmlText = true)
    (ht : t.isXmlText = true) : (if p then s else t).isXmlText = true := by
  split
  · exact hs
  · exact ht

/-! ## Numbers -/

theorem isXmlChar_of_isDigit {c : CodePoint} (h : 0x30 ≤ c.val ∧ c.val ≤ 0x39) :
    isXmlChar c = true := by
  simp only [isXmlChar, Bool.or_eq_true, Bool.and_eq_true, decide_eq_true_eq, beq_iff_eq]
  omega

theorem isXmlText_ofNat (n : Nat) : (ofNat n).isXmlText = true := by
  rw [isXmlText, List.all_eq_true]
  exact fun c hc => isXmlChar_of_isDigit (isDigit_of_mem_ofNat hc)

theorem isXmlText_ofInt (n : Int) : (ofInt n).isXmlText = true := by
  cases n with
  | ofNat n => exact isXmlText_ofNat n
  | negSucc n => exact isXmlText_cons.2 ⟨by decide, isXmlText_ofNat (n + 1)⟩

theorem isXmlText_replicate (n : Nat) {c : CodePoint} (h : isXmlChar c = true) :
    isXmlText (List.replicate n c) = true := by
  rw [isXmlText, List.all_eq_true]
  intro d hd
  rwa [List.eq_of_mem_replicate hd]

end CasePlan.Text
