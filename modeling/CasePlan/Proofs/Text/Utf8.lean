import CasePlan.Text.Class
import CasePlan.Text.Utf8
import Mathlib.Data.List.TakeWhile

/-!
# Texts written in UTF-8

* `decode?_encode`: what is written for a text without surrogates is read as that text.
* `encode?_eq_ok`: such a text can be written.
* `isSurrogate_of_isXmlChar`: every text that XML can carry is of that kind.
-/

namespace CasePlan

theorem CodePoint.ofNat_val (c : CodePoint) : CodePoint.ofNat c.val = c := by
  unfold CodePoint.ofNat
  rw [dif_pos c.isLt]

namespace Utf8

theorem toNat_toUInt8 {n : Nat} (h : n < 256) : n.toUInt8.toNat = n := by
  simp [Nat.toUInt8]; omega

/-- A byte that continues a sequence. -/
theorem continuation_cons {low high payload count n x : Nat} {rest : List UInt8}
    (hn : n < 64) (hlow : low ≤ 0x80 + n) (hhigh : 0x80 + n ≤ high)
    (h : continuation 0x80 0xBF (payload * 64 + n) count rest = .ok x) :
    continuation low high payload (count + 1) ((0x80 + n).toUInt8 :: rest) = .ok x := by
  have hbyte := toNat_toUInt8 (n := 0x80 + n) (by omega)
  have hpayload : (0x80 + n) % 64 = n := by omega
  rw [continuation, hbyte, if_pos ⟨hlow, hhigh⟩, hpayload, h]

/-- A sequence from its first byte on. -/
theorem decodeLoop_cons {position n payload count low high : Nat} {c : CodePoint} {done : Text}
    {rest : List UInt8} (hn : n < 256) (hlead : lead? n = some ⟨payload, count, low, high⟩)
    (h : continuation low high payload count rest = .ok c.val) :
    decodeLoop position done (n.toUInt8 :: rest) =
      decodeLoop (position + count + 1) (c :: done) (rest.drop count) := by
  rw [decodeLoop, toNat_toUInt8 hn, hlead]
  simp only [h, CodePoint.ofNat_val]

/-! ## First bytes -/

theorem lead?_two {n : Nat} (h : 0x80 ≤ n) (h' : n < 0x800) :
    lead? (0xC0 + n / 64) = some ⟨n / 64, 1, 0x80, 0xBF⟩ := by
  unfold lead?
  rw [if_neg (by omega), if_neg (by omega), if_pos (by omega), Nat.add_sub_cancel_left]

theorem lead?_three {n : Nat} (h : 0x800 ≤ n) (h' : n < 0x10000) :
    ∃ low high, lead? (0xE0 + n / 4096) = some ⟨n / 4096, 2, low, high⟩ ∧
      ((n < 0xD800 ∨ 0xDFFF < n) →
        low ≤ 0x80 + n / 64 % 64 ∧ 0x80 + n / 64 % 64 ≤ high) := by
  unfold lead?
  rw [if_neg (by omega), if_neg (by omega), if_neg (by omega)]
  by_cases h0 : n / 4096 = 0
  · rw [h0]
    exact ⟨_, _, rfl, by omega⟩
  by_cases hD : n / 4096 = 0xD
  · rw [hD]
    exact ⟨_, _, rfl, by omega⟩
  · rw [if_neg (by omega), if_neg (by omega), if_pos (by omega), Nat.add_sub_cancel_left]
    exact ⟨_, _, rfl, by omega⟩

theorem lead?_four {n : Nat} (h : 0x10000 ≤ n) (h' : n < 0x110000) :
    ∃ low high, lead? (0xF0 + n / 262144) = some ⟨n / 262144, 3, low, high⟩ ∧
      low ≤ 0x80 + n / 4096 % 64 ∧ 0x80 + n / 4096 % 64 ≤ high := by
  unfold lead?
  rw [if_neg (by omega), if_neg (by omega), if_neg (by omega), if_neg (by omega),
    if_neg (by omega), if_neg (by omega)]
  by_cases h0 : n / 262144 = 0
  · rw [h0]
    exact ⟨_, _, rfl, by omega⟩
  by_cases h4 : n / 262144 = 4
  · rw [h4]
    exact ⟨_, _, rfl, by omega⟩
  · rw [if_neg (by omega), if_neg (by omega), if_pos (by omega), Nat.add_sub_cancel_left]
    exact ⟨_, _, rfl, by omega⟩

/-! ## Whole texts -/

/-- What is written for a code point is read as that code point. -/
theorem decodeLoop_encodeCode {c : CodePoint} (hc : isSurrogate c = false) (position : Nat)
    (done : Text) (rest : List UInt8) :
    ∃ position', decodeLoop position done (encodeCode c ++ rest) =
      decodeLoop position' (c :: done) rest := by
  have hlt := c.isLt
  have hscalar : c.val < 0xD800 ∨ 0xDFFF < c.val := by
    simp [isSurrogate] at hc
    omega
  unfold encodeCode
  by_cases h1 : c.val < 0x80
  · simp only [if_pos h1]
    have hlead : lead? c.val = some ⟨c.val, 0, 0x80, 0xBF⟩ := if_pos h1
    exact ⟨_, decodeLoop_cons (by omega) hlead rfl⟩
  by_cases h2 : c.val < 0x800
  · simp only [if_neg h1, if_pos h2]
    refine ⟨_, decodeLoop_cons (by omega) (lead?_two (by omega) h2) ?_⟩
    refine continuation_cons (by omega) (by omega) (by omega) ?_
    rw [continuation]
    exact congrArg Except.ok (by omega)
  by_cases h3 : c.val < 0x10000
  · simp only [if_neg h1, if_neg h2, if_pos h3]
    obtain ⟨low, high, hlead, hnext⟩ := lead?_three (by omega) h3
    obtain ⟨hlow, hhigh⟩ := hnext hscalar
    refine ⟨_, decodeLoop_cons (by omega) hlead ?_⟩
    refine continuation_cons (by omega) hlow hhigh ?_
    refine continuation_cons (by omega) (by omega) (by omega) ?_
    rw [continuation]
    exact congrArg Except.ok (by omega)
  · simp only [if_neg h1, if_neg h2, if_neg h3]
    obtain ⟨low, high, hlead, hlow, hhigh⟩ := lead?_four (by omega) hlt
    refine ⟨_, decodeLoop_cons (by omega) hlead ?_⟩
    refine continuation_cons (by omega) hlow hhigh ?_
    refine continuation_cons (by omega) (by omega) (by omega) ?_
    refine continuation_cons (by omega) (by omega) (by omega) ?_
    rw [continuation]
    exact congrArg Except.ok (by omega)

theorem decodeLoop_encode {t : Text} (ht : ∀ c ∈ t, isSurrogate c = false) (position : Nat)
    (done : Text) : decodeLoop position done (t.flatMap encodeCode) = .ok (done.reverse ++ t) := by
  induction t generalizing position done with
  | nil => simp [decodeLoop]
  | cons c t ih =>
    obtain ⟨position', h⟩ :=
      decodeLoop_encodeCode (ht c (by simp)) position done (t.flatMap encodeCode)
    rw [List.flatMap_cons, h, ih (fun d hd => ht d (by simp [hd]))]
    simp

/-- What is written for a text without surrogates is read as that text. -/
theorem decode?_encode {t : Text} (ht : ∀ c ∈ t, isSurrogate c = false) :
    decode? (t.flatMap encodeCode) = .ok t :=
  decodeLoop_encode ht 0 []

theorem encode?_eq_ok {t : Text} (ht : ∀ c ∈ t, isSurrogate c = false) :
    encode? t = .ok (t.flatMap encodeCode) := by
  have hall : t.takeWhile (fun c => !isSurrogate c) = t :=
    List.takeWhile_eq_self_iff.mpr fun c hc => by simp [ht c hc]
  rw [encode?, surrogateRun?, hall, List.drop_length]
  rfl

/-- A text can be written exactly if it has no surrogates. -/
theorem exists_encode?_iff {t : Text} :
    (∃ bytes, encode? t = .ok bytes) ↔ ∀ c ∈ t, isSurrogate c = false := by
  refine ⟨?_, fun ht => ⟨_, encode?_eq_ok ht⟩⟩
  rintro ⟨bytes, h⟩
  have hdrop : t.drop (t.takeWhile fun c => !isSurrogate c).length =
      t.dropWhile fun c => !isSurrogate c := by
    have hleft := @List.drop_left _ (t.takeWhile fun c => !isSurrogate c)
      (t.dropWhile fun c => !isSurrogate c)
    rwa [List.takeWhile_append_dropWhile] at hleft
  rw [encode?, surrogateRun?, hdrop] at h
  -- the rest after the last good code point begins with a surrogate, if there is a rest
  cases hrest : t.dropWhile fun c => !isSurrogate c with
  | nil =>
    intro c hc
    simpa using List.dropWhile_eq_nil_iff.1 hrest c hc
  | cons c rest =>
    have hc : isSurrogate c = true := by
      have hhead := List.head?_dropWhile_not (fun c => !isSurrogate c) t
      rw [hrest] at hhead
      simpa using hhead
    rw [hrest, List.takeWhile_cons_of_pos hc] at h
    cases h

theorem isSurrogate_of_isXmlChar {c : CodePoint} (h : Text.isXmlChar c = true) :
    isSurrogate c = false := by
  unfold Text.isXmlChar at h
  unfold isSurrogate
  simp at h ⊢
  omega

end CasePlan.Utf8
