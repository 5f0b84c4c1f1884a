import CasePlan.Json.Reader
import CasePlan.Json.Writer
import CasePlan.Proofs.Text.Utf8

/-!
# Texts in JSON

What `writeCode` writes for the code points of a text is read as the text, if the text has no
surrogates: two of them would be read as one code point.

* `ofDigits_eq`, `hex4?_hexDigit`: four hexadecimal digits and the number that they write.
* `readTextLoop_writeCode`: one code point.
* `readText_write`: a whole text.
-/

namespace CasePlan.Json

/-! ## Escapes -/

/-- A hexadecimal digit. -/
def hexDigit (d : Nat) : CodePoint := CodePoint.ofChar d.digitChar

theorem hexDigit?_hexDigit {d : Nat} (h : d < 16) : hexDigit? (hexDigit d) = some d := by
  have hall : ∀ d : Fin 16, hexDigit? (hexDigit d) = some d.val := by decide
  exact hall ⟨d, h⟩

theorem toDigits_of_base_le {n : Nat} (h : 16 ≤ n) :
    Nat.toDigits 16 n = Nat.toDigits 16 (n / 16) ++ [(n % 16).digitChar] :=
  Nat.toDigits_of_base_le (by decide) h

/-- A number below 65536 is written by four digits. -/
theorem ofDigits_eq {n : Nat} (h : n < 0x10000) :
    Text.ofDigits 16 n 4 =
      [hexDigit (n / 4096), hexDigit (n / 256 % 16), hexDigit (n / 16 % 16),
        hexDigit (n % 16)] := by
  unfold Text.ofDigits
  by_cases h1 : n < 16
  · rw [Nat.toDigits_of_lt_base h1, show n / 4096 = 0 by omega, show n / 256 % 16 = 0 by omega,
      show n / 16 % 16 = 0 by omega, show n % 16 = n by omega]
    rfl
  rw [toDigits_of_base_le (by omega)]
  by_cases h2 : n < 256
  · rw [Nat.toDigits_of_lt_base (by omega : n / 16 < 16), show n / 4096 = 0 by omega,
      show n / 256 % 16 = 0 by omega, show n / 16 % 16 = n / 16 by omega]
    rfl
  rw [toDigits_of_base_le (by omega), show n / 16 / 16 = n / 256 by omega]
  by_cases h3 : n < 4096
  · rw [Nat.toDigits_of_lt_base (by omega : n / 256 < 16), show n / 4096 = 0 by omega,
      show n / 256 % 16 = n / 256 by omega]
    rfl
  · rw [toDigits_of_base_le (by omega), Nat.toDigits_of_lt_base (by omega : n / 256 / 16 < 16),
      show n / 256 / 16 = n / 4096 by omega]
    rfl

theorem hex4?_hexDigit {n : Nat} (h : n < 0x10000) :
    hex4? (hexDigit (n / 4096)) (hexDigit (n / 256 % 16)) (hexDigit (n / 16 % 16))
      (hexDigit (n % 16)) = some n := by
  unfold hex4?
  rw [hexDigit?_hexDigit (by omega), hexDigit?_hexDigit (by omega), hexDigit?_hexDigit (by omega),
    hexDigit?_hexDigit (by omega)]
  exact congrArg some (by omega)

/-- An escape as its six code points. -/
theorem unitEscape_append {n : Nat} (h : n < 0x10000) (t : Text) :
    unitEscape n ++ t =
      CodePoint.ofChar '\\' :: CodePoint.ofChar 'u' :: hexDigit (n / 4096) ::
        hexDigit (n / 256 % 16) :: hexDigit (n / 16 % 16) :: hexDigit (n % 16) :: t := by
  rw [unitEscape, ofDigits_eq h]
  rfl

variable {opening : Nat} {done t : Text}

theorem readTextLoop_unitEscape {n : Nat} (h : n < 0x10000) (hn : n < 0xD800 ∨ 0xDBFF < n)
    (ht : t ≠ []) :
    readTextLoop opening done (unitEscape n ++ t) =
      readTextLoop opening (CodePoint.ofNat n :: done) t := by
  obtain ⟨x, more, rfl⟩ := List.exists_cons_of_ne_nil ht
  rw [unitEscape_append h, readTextLoop, if_neg (by decide), if_pos rfl]
  simp only [if_pos, List.isEmpty_cons, Bool.false_eq_true, if_false, hex4?_hexDigit h]
  rw [if_neg (by omega)]

theorem readTextLoop_pair {high low : Nat} (hh : 0xD800 ≤ high) (hh' : high ≤ 0xDBFF)
    (hl : 0xDC00 ≤ low) (hl' : low ≤ 0xDFFF) (ht : t ≠ []) :
    readTextLoop opening done (unitEscape high ++ (unitEscape low ++ t)) =
      readTextLoop opening (joinSurrogates high low :: done) t := by
  obtain ⟨x, more, rfl⟩ := List.exists_cons_of_ne_nil ht
  rw [unitEscape_append (by omega), unitEscape_append (by omega), readTextLoop,
    if_neg (by decide), if_pos rfl]
  simp only [if_pos, List.isEmpty_cons, Bool.false_eq_true, if_false,
    hex4?_hexDigit (show high < 0x10000 by omega)]
  rw [if_pos ⟨hh, hh'⟩, partner, if_pos ⟨rfl, rfl⟩]
  simp only [hex4?_hexDigit (show low < 0x10000 by omega)]
  rw [if_pos ⟨hl, hl'⟩]
  rfl

theorem readTextLoop_simple {e c : CodePoint} (he : e ≠ CodePoint.ofChar 'u')
    (h : simpleEscape? e = some c) :
    readTextLoop opening done (CodePoint.ofChar '\\' :: e :: t) =
      readTextLoop opening (c :: done) t := by
  rw [readTextLoop.eq_def]
  simp only [if_neg (show CodePoint.ofChar '\\' ≠ CodePoint.ofChar '"' by decide), if_pos, if_neg he, h]

theorem readTextLoop_plain {c : CodePoint} (hq : c ≠ CodePoint.ofChar '"')
    (hb : c ≠ CodePoint.ofChar '\\') (hc : 0x20 ≤ c.val) :
    readTextLoop opening done (c :: t) = readTextLoop opening (c :: done) t := by
  rw [readTextLoop.eq_def]
  simp only [if_neg hq, if_neg hb]
  rw [if_neg (by omega)]

/-- What is written for a code point is read as that code point. -/
theorem readTextLoop_writeCode {c : CodePoint} (hc : Utf8.isSurrogate c = false) (ht : t ≠ []) :
    readTextLoop opening done (writeCode c ++ t) = readTextLoop opening (c :: done) t := by
  have hscalar : c.val < 0xD800 ∨ 0xDFFF < c.val := by
    simp [Utf8.isSurrogate] at hc
    omega
  unfold writeCode
  by_cases hq : c = CodePoint.ofChar '"'
  · rw [if_pos hq, hq]
    exact readTextLoop_simple (by decide) rfl
  by_cases hb : c = CodePoint.ofChar '\\'
  · rw [if_neg hq, if_pos hb, hb]
    exact readTextLoop_simple (by decide) rfl
  by_cases hn : c = CodePoint.ofChar '\n'
  · rw [if_neg hq, if_neg hb, if_pos hn, hn]
    exact readTextLoop_simple (by decide) rfl
  by_cases hr : c = CodePoint.ofChar '\r'
  · rw [if_neg hq, if_neg hb, if_neg hn, if_pos hr, hr]
    exact readTextLoop_simple (by decide) rfl
  by_cases htab : c = CodePoint.ofChar '\t'
  · rw [if_neg hq, if_neg hb, if_neg hn, if_neg hr, if_pos htab, htab]
    exact readTextLoop_simple (by decide) rfl
  rw [if_neg hq, if_neg hb, if_neg hn, if_neg hr, if_neg htab]
  by_cases hf : c.val = 12
  · obtain rfl : c = 12 := Fin.ext hf
    exact readTextLoop_simple (by decide) rfl
  by_cases hbs : c.val = 8
  · obtain rfl : c = 8 := Fin.ext hbs
    exact readTextLoop_simple (by decide) rfl
  rw [if_neg hf, if_neg hbs]
  by_cases hp : 0x20 ≤ c.val ∧ c.val ≤ 0x7E
  · rw [if_pos hp]
    exact readTextLoop_plain hq hb hp.1
  rw [if_neg hp]
  by_cases hsmall : c.val < 0x10000
  · rw [if_pos hsmall, readTextLoop_unitEscape hsmall (by omega) ht, CodePoint.ofNat_val]
  · have hlt := c.isLt
    have hval : 0x10000 + (0xD800 + (c.val - 0x10000) / 0x400 - 0xD800) * 0x400 +
        (0xDC00 + (c.val - 0x10000) % 0x400 - 0xDC00) = c.val := by omega
    rw [if_neg hsmall, List.append_assoc,
      readTextLoop_pair (by omega) (by omega) (by omega) (by omega) ht, joinSurrogates, hval,
      CodePoint.ofNat_val]

/-! ## Texts -/

theorem readTextLoop_write {s : Text} (hs : ∀ c ∈ s, Utf8.isSurrogate c = false) (r : Text) :
    readTextLoop opening done (s.flatMap writeCode ++ CodePoint.ofChar '"' :: r) =
      .ok (done.reverse ++ s, r) := by
  induction s generalizing done with
  | nil =>
    rw [List.flatMap_nil, List.nil_append, readTextLoop.eq_def]
    simp
  | cons c s ih =>
    rw [List.flatMap_cons, List.append_assoc, readTextLoop_writeCode (hs c (by simp)) (by simp),
      ih (fun d hd => hs d (by simp [hd])), List.reverse_cons, List.append_assoc]
    rfl

/-- A written text without its opening mark is read as the text. -/
theorem readText_write {s : Text} (hs : ∀ c ∈ s, Utf8.isSurrogate c = false) (r : Text) :
    readText (s.flatMap writeCode ++ CodePoint.ofChar '"' :: r) = .ok (s, r) :=
  readTextLoop_write hs r

end CasePlan.Json
