import CasePlan.Proofs.Json.RoundTrip

/-!
# The characters of JSON texts

A value without doubles is written in printable ASCII if no white space is put into its text.

* `isWritten_writeCode`: code points are written as themselves or as escapes.
* `all_write`: everything that is written can be printed.
-/

namespace CasePlan.Json

/-- Whether a code point is one of printable ASCII. -/
def isPrintable (c : CodePoint) : Bool := 0x20 ≤ c.val && c.val ≤ 0x7E

/-- The code points of escapes. -/
def escapeCodes : Text := "\\\"nrtfbu0123456789abcdef"

/-- A code point is written as itself, if it can be printed, or as an escape. -/
def IsWritten (c : CodePoint) (t : Text) : Prop :=
  isPrintable c = true ∧ t = [c] ∨ t ≠ [] ∧ ∀ d ∈ t, d ∈ escapeCodes

theorem unitEscape_subset {n : Nat} (h : n < 0x10000) : unitEscape n ⊆ escapeCodes := by
  have hdigit : ∀ d : Fin 16, hexDigit d ∈ escapeCodes := by decide
  have hescape := unitEscape_append h []
  rw [List.append_nil] at hescape
  simp only [hescape, List.cons_subset, List.nil_subset, and_true]
  exact ⟨by decide, by decide, hdigit ⟨n / 4096, by omega⟩, hdigit ⟨n / 256 % 16, by omega⟩,
    hdigit ⟨n / 16 % 16, by omega⟩, hdigit ⟨n % 16, by omega⟩⟩

theorem isWritten_writeCode (c : CodePoint) : IsWritten c (writeCode c) := by
  have hlt := c.isLt
  have hletter : ∀ d ∈ escapeCodes, IsWritten c [.ofChar '\\', d] := fun d hd =>
    .inr ⟨List.cons_ne_nil _ _, by simpa using ⟨by decide, hd⟩⟩
  refine iteInduction (fun _ => hletter (.ofChar '"') (by decide)) fun _ => ?_
  refine iteInduction (fun _ => hletter (.ofChar '\\') (by decide)) fun _ => ?_
  refine iteInduction (fun _ => hletter (.ofChar 'n') (by decide)) fun _ => ?_
  refine iteInduction (fun _ => hletter (.ofChar 'r') (by decide)) fun _ => ?_
  refine iteInduction (fun _ => hletter (.ofChar 't') (by decide)) fun _ => ?_
  refine iteInduction (fun _ => hletter (.ofChar 'f') (by decide)) fun _ => ?_
  refine iteInduction (fun _ => hletter (.ofChar 'b') (by decide)) fun _ => ?_
  refine iteInduction (fun h => .inl ⟨by simpa [isPrintable] using h, rfl⟩) fun _ => ?_
  refine iteInduction (fun h => .inr ⟨List.cons_ne_nil _ _, unitEscape_subset h⟩) fun _ => ?_
  exact .inr ⟨List.cons_ne_nil _ _, List.append_subset.2
    ⟨unitEscape_subset (by omega), unitEscape_subset (by omega)⟩⟩

theorem all_writeCode (c : CodePoint) : (writeCode c).all isPrintable = true := by
  have hcodes : escapeCodes.all isPrintable = true := by decide
  rcases isWritten_writeCode c with ⟨hc, hself⟩ | ⟨-, hescape⟩
  · rw [hself, List.all_cons, hc]
    rfl
  · exact List.all_eq_true.2 fun d hd => List.all_eq_true.1 hcodes d (hescape d hd)

theorem all_writeText (t : Text) : (writeText t).all isPrintable = true := by
  have hcodes : (t.flatMap writeCode).all isPrintable = true := by
    rw [List.all_flatMap]
    exact List.all_eq_true.2 fun c _ => all_writeCode c
  rw [writeText, List.cons_append, List.all_cons, List.all_append, hcodes]
  rfl

theorem all_ofInt (n : Int) : (Text.ofInt n).all isPrintable = true := by
  have hdigit : ∀ n, (Text.ofNat n).all isPrintable = true := by
    intro n
    rw [List.all_eq_true]
    intro d hd
    obtain ⟨hlow, hhigh⟩ := Text.isDigit_of_mem_ofNat hd
    simp only [isPrintable, Bool.and_eq_true, decide_eq_true_eq]
    omega
  cases n with
  | ofNat n => exact hdigit n
  | negSucc n =>
    rw [Text.ofInt, List.all_cons, hdigit]
    rfl

mutual

theorem all_writeAt : ∀ {v : Json}, v.IsExact →
    ∀ (depth : Nat), (writeAt .compact depth v).all isPrintable = true
  | .null, _, _ => rfl
  | .bool true, _, _ => rfl
  | .bool false, _, _ => rfl
  | .int n, _, _ => all_ofInt n
  | .float _, hv, _ => hv.elim
  | .str t, _, _ => all_writeText t
  | .arr [], _, _ => rfl
  | .arr (x :: xs), hv, depth => by
    have hitems : (writeItems .compact (depth + 1) (x :: xs)).all isPrintable = true :=
      all_writeItems hv (depth + 1)
    rw [writeAt, List.all_append, List.all_append, List.all_append, List.all_append, hitems]
    · rfl
    · simp
  | .obj [], _, _ => rfl
  | .obj (m :: ms), hv, depth => by
    have hmembers : (writeMembers .compact (depth + 1) (m :: ms)).all isPrintable = true :=
      all_writeMembers hv.2 (depth + 1)
    rw [writeAt, List.all_append, List.all_append, List.all_append, List.all_append, hmembers]
    · rfl
    · simp

theorem all_writeItems : ∀ {items : List Json}, AreExact items →
    ∀ (depth : Nat), (writeItems .compact depth items).all isPrintable = true
  | [], _, _ => rfl
  | [_], hv, depth => all_writeAt hv.1 depth
  | x :: y :: rest, hv, depth => by
    have hrest : (writeItems .compact depth (y :: rest)).all isPrintable = true :=
      all_writeItems hv.2 depth
    rw [writeItems, List.all_append, List.all_append, all_writeAt hv.1 depth, hrest]
    · rfl
    · simp

theorem all_writeMembers : ∀ {ms : List (Text × Json)}, MembersAreExact ms →
    ∀ (depth : Nat), (writeMembers .compact depth ms).all isPrintable = true
  | [], _, _ => rfl
  | [(name, x)], hv, depth => by
    rw [writeMembers, List.all_append, List.all_append, all_writeText,
      all_writeAt hv.2.1 depth]
    rfl
  | (name, x) :: m :: rest, hv, depth => by
    have hrest : (writeMembers .compact depth (m :: rest)).all isPrintable = true :=
      all_writeMembers hv.2.2 depth
    rw [writeMembers, List.all_append, List.all_append, List.all_append, List.all_append,
      all_writeText, all_writeAt hv.2.1 depth, hrest]
    · rfl
    · simp

end

/-- A value without doubles is written in printable ASCII. -/
theorem all_write {v : Json} (hv : v.IsExact) : v.write.all isPrintable = true :=
  all_writeAt hv 0

end CasePlan.Json
