import CasePlan.Text.Basic
import Mathlib.Data.List.Basic

/-!
# Texts that end in a number

Names with a number at the end can be taken apart again if the number has one digit, or if a low
line stands before it.

* `ofString_inj`: texts of strings.
* `append_ofNat_inj`: a name and a digit.
* `append_lowLine_ofNat_inj`: a name, a low line and a number.
* `append_ne_append`: texts with different beginnings.
* `append_ne_append_of_getLast?`: texts with different ends.
-/

namespace CasePlan

theorem CodePoint.ofChar_injective : Function.Injective CodePoint.ofChar := by
  intro c d h
  have hval : (CodePoint.ofChar c).val = (CodePoint.ofChar d).val := by rw [h]
  exact Char.toNat_inj.1 hval

namespace Text

@[simp] theorem ofString_inj {s t : String} : ofString s = ofString t ↔ s = t := by
  refine ⟨fun h => ?_, congrArg ofString⟩
  exact String.toList_inj.1 (List.map_injective_iff.2 CodePoint.ofChar_injective h)

theorem ofNat_injective : Function.Injective ofNat := by
  intro m n h
  have hdigits := List.map_injective_iff.2 CodePoint.ofChar_injective h
  have hvalue := congrArg (fun cs => Nat.ofDigitChars 10 cs 0) hdigits
  simpa only [Nat.ofDigitChars_ten_toDigits] using hvalue

theorem ofNat_of_lt_ten {n : Nat} (h : n < 10) : ofNat n = [CodePoint.ofChar n.digitChar] := by
  rw [ofNat, Nat.toDigits_of_lt_base h, List.map_singleton]

theorem ofNat_ne_nil (n : Nat) : ofNat n ≠ [] := by
  rw [ofNat, Ne, List.map_eq_nil_iff]
  exact Nat.toDigits_ne_nil

/-- What stands in a number is a digit. -/
theorem isDigit_of_mem_ofNat {n : Nat} {c : CodePoint} (h : c ∈ ofNat n) :
    0x30 ≤ c.val ∧ c.val ≤ 0x39 := by
  obtain ⟨d, hd, rfl⟩ := List.mem_map.1 h
  have hdigit := Nat.isDigit_of_mem_toDigits (by decide) (by decide) hd
  rw [Char.isDigit_iff_toNat] at hdigit
  exact hdigit

theorem append_ofNat_inj {s t : Text} {m n : Nat} (hm : m < 10) (hn : n < 10) :
    s ++ ofNat m = t ++ ofNat n ↔ s = t ∧ m = n := by
  constructor
  · intro h
    rw [ofNat_of_lt_ten hm, ofNat_of_lt_ten hn] at h
    obtain ⟨hst, hmn⟩ := List.append_inj' h rfl
    refine ⟨hst, ofNat_injective ?_⟩
    rw [ofNat_of_lt_ten hm, ofNat_of_lt_ten hn, hmn]
  · rintro ⟨rfl, rfl⟩
    rfl

/-- A text that is cut at a code point which the rest does not hold is cut at one place. -/
theorem append_cons_inj {s t u v : Text} {c : CodePoint} (hu : c ∉ u) (hv : c ∉ v) :
    s ++ c :: u = t ++ c :: v ↔ s = t ∧ u = v := by
  constructor
  · intro h
    rcases List.append_eq_append_iff.1 h with ⟨w, rfl, hw⟩ | ⟨w, rfl, hw⟩
    · cases w with
      | nil => exact ⟨(List.append_nil s).symm, (List.cons.inj hw).2⟩
      | cons d w =>
        rw [List.cons_append] at hw
        exact absurd ((List.cons.inj hw).2 ▸ List.mem_append_right w List.mem_cons_self) hu
    · cases w with
      | nil => exact ⟨List.append_nil t, (List.cons.inj hw).2.symm⟩
      | cons d w =>
        rw [List.cons_append] at hw
        exact absurd ((List.cons.inj hw).2 ▸ List.mem_append_right w List.mem_cons_self) hv
  · rintro ⟨rfl, rfl⟩
    rfl

theorem append_lowLine_ofNat_inj {s t : Text} {m n : Nat} :
    s ++ "_" ++ ofNat m = t ++ "_" ++ ofNat n ↔ s = t ∧ m = n := by
  have hdigits : ∀ k : Nat, CodePoint.ofChar '_' ∉ ofNat k := by
    intro k h
    exact absurd (isDigit_of_mem_ofNat h).2 (by decide)
  have hcons : ∀ (r : Text) (k : Nat), r ++ "_" ++ ofNat k = r ++ CodePoint.ofChar '_' :: ofNat k :=
    fun r k => List.append_assoc r _ _
  rw [hcons, hcons, append_cons_inj (hdigits m) (hdigits n), ofNat_injective.eq_iff]

/-- Texts with different beginnings are different. -/
theorem append_ne_append {p q : Text} (hpq : ¬p <+: q) (hqp : ¬q <+: p) (s t : Text) :
    p ++ s ≠ q ++ t := by
  intro h
  rcases List.append_eq_append_iff.1 h with ⟨u, rfl, -⟩ | ⟨u, rfl, -⟩
  · exact hpq (List.prefix_append p u)
  · exact hqp (List.prefix_append q u)

/-- Texts with different ends are different. -/
theorem append_ne_append_of_getLast? {u v : Text} (hu : u ≠ []) (hv : v ≠ [])
    (h : u.getLast? ≠ v.getLast?) (s t : Text) : s ++ u ≠ t ++ v := by
  intro he
  have hlast := congrArg List.getLast? he
  rw [List.getLast?_append_of_ne_nil _ hu, List.getLast?_append_of_ne_nil _ hv] at hlast
  exact h hlast

end Text

end CasePlan
