import CasePlan.Proofs.Json.Number
import CasePlan.Table

/-!
# JSON values and their texts

A value without doubles is read back from its text: `read_writeAt` for every style with nothing but
white space around the marks (`Style.IsSpaced`), `read_write` for a text without white space.

* `IsExact`: the values that this holds of.
* `readValue_write`, `readItems_write`, `readMembers_write`: a value, the items of an array and the
  members of an object, in front of anything.
-/

namespace CasePlan.Json

/-! ## White space -/

/-- A text of white space only. -/
def IsBlank (t : Text) : Prop := ∀ c ∈ t, isSpace c = true

theorem skip_append {blanks : Text} (h : IsBlank blanks) (t : Text) : skip (blanks ++ t) = skip t := by
  unfold skip
  rw [List.dropWhile_append, List.dropWhile_eq_nil_iff.2 h]
  rfl

theorem skip_cons {c : CodePoint} (h : isSpace c = false) (t : Text) : skip (c :: t) = c :: t := by
  unfold skip
  rw [List.dropWhile_cons, h]
  rfl

/-- A style with nothing but white space around the marks. -/
structure Style.IsSpaced (style : Style) : Prop where
  /-- A comma and white space stand between items. -/
  between : ∀ depth, ∃ blanks, IsBlank blanks ∧
    style.between depth = CodePoint.ofChar ',' :: blanks
  /-- White space stands at the edges. -/
  edge : ∀ depth, IsBlank (style.edge depth)
  /-- A colon and white space stand after a name. -/
  colon : ∃ blanks, IsBlank blanks ∧ style.colon = CodePoint.ofChar ':' :: blanks

theorem Style.isSpaced_compact : Style.compact.IsSpaced where
  between _ := ⟨[], by simp [IsBlank], rfl⟩
  edge _ := by simp [IsBlank, Style.compact]
  colon := ⟨[], by simp [IsBlank], rfl⟩

theorem isBlank_lineBreak (depth : Nat) : IsBlank (lineBreak depth) := by
  intro c hc
  rcases List.mem_cons.1 hc with rfl | hc
  · decide
  · rw [List.eq_of_mem_replicate hc]
    decide

theorem Style.isSpaced_indented : Style.indented.IsSpaced where
  between depth := ⟨lineBreak depth, isBlank_lineBreak depth, rfl⟩
  edge := isBlank_lineBreak
  colon := ⟨[CodePoint.ofChar ' '], by simp [IsBlank]; decide, rfl⟩

/-- A blank after each comma and each colon. -/
def Style.spaced : Style := ⟨fun _ => ", ", fun _ => [], ": "⟩

theorem Style.isSpaced_spaced : Style.spaced.IsSpaced where
  between _ := ⟨[CodePoint.ofChar ' '], by simp [IsBlank]; decide, rfl⟩
  edge _ := by simp [IsBlank, Style.spaced]
  colon := ⟨[CodePoint.ofChar ' '], by simp [IsBlank]; decide, rfl⟩

theorem endsNumber_append {blanks : Text} (h : IsBlank blanks) {c : CodePoint} {r : Text}
    (hr : EndsNumber (c :: r)) : EndsNumber (blanks ++ c :: r) := by
  cases blanks with
  | nil => exact hr
  | cons d blanks => exact endsNumber_of_isSpace (h d (by simp)) _

/-! ## Values -/

mutual

/-- Whether a value has a text of its own: it has no doubles, no surrogates in its texts, and no
two members with one name. -/
def IsExact : Json → Prop
  | null | bool _ | int _ => True
  | float _ => False
  | str t => ∀ c ∈ t, Utf8.isSurrogate c = false
  | arr items => AreExact items
  | obj members => (members.map Prod.fst).Nodup ∧ MembersAreExact members

/-- Whether some values have texts of their own. -/
def AreExact : List Json → Prop
  | [] => True
  | x :: rest => IsExact x ∧ AreExact rest

/-- Whether the names and the values of some members have texts of their own. -/
def MembersAreExact : List (Text × Json) → Prop
  | [] => True
  | (name, x) :: rest =>
    (∀ c ∈ name, Utf8.isSurrogate c = false) ∧ IsExact x ∧ MembersAreExact rest

end

theorem areExact_iff {items : List Json} : AreExact items ↔ ∀ x ∈ items, x.IsExact := by
  induction items with
  | nil => simp [AreExact]
  | cons x rest ih => rw [AreExact, ih, List.forall_mem_cons]

theorem membersAreExact_iff {members : List (Text × Json)} : MembersAreExact members ↔
    ∀ m ∈ members, (∀ c ∈ m.1, Utf8.isSurrogate c = false) ∧ m.2.IsExact := by
  induction members with
  | nil => simp [MembersAreExact]
  | cons m rest ih => rw [MembersAreExact, ih, List.forall_mem_cons, and_assoc]

/-- A text that begins neither with white space or a byte order mark nor with a bracket that
closes. -/
def BeginsValue (t : Text) : Prop :=
  ∃ c rest, t = c :: rest ∧ isSpace c = false ∧ c ≠ CodePoint.ofChar ']' ∧ c ≠ 0xFEFF

theorem beginsValue_writeAt (style : Style) {v : Json} (hv : v.IsExact) (depth : Nat) :
    BeginsValue (writeAt style depth v) := by
  have hdigit : ∀ c : CodePoint, isDigit c = true →
      isSpace c = false ∧ c ≠ CodePoint.ofChar ']' ∧ c ≠ 0xFEFF := by
    intro c hc
    refine ⟨?_, ?_, ?_⟩
    · by_contra hspace
      have hends := endsNumber_of_isSpace (by simpa using hspace) [] c (by simp)
      rw [hends.1] at hc
      exact absurd hc (by decide)
    · rintro rfl
      exact absurd hc (by decide)
    · rintro rfl
      exact absurd hc (by decide)
  cases v with
  | null => exact ⟨_, _, rfl, by decide, by decide, by decide⟩
  | bool b => cases b <;> exact ⟨_, _, rfl, by decide, by decide, by decide⟩
  | int n =>
    cases n with
    | ofNat n =>
      obtain ⟨c, rest, hc⟩ := List.exists_cons_of_ne_nil (Text.ofNat_ne_nil n)
      exact ⟨c, rest, hc, hdigit c (isDigit_of_mem_ofNat (n := n) (by simp [hc]))⟩
    | negSucc n => exact ⟨_, _, rfl, by decide, by decide, by decide⟩
  | float x => exact hv.elim
  | str t => exact ⟨_, _, rfl, by decide, by decide, by decide⟩
  | arr items => cases items <;> exact ⟨_, _, rfl, by decide, by decide, by decide⟩
  | obj members => cases members <;> exact ⟨_, _, rfl, by decide, by decide, by decide⟩

theorem skip_of_beginsValue {t : Text} (h : BeginsValue t) (r : Text) :
    skip (t ++ r) = t ++ r := by
  obtain ⟨c, rest, rfl, hspace, -⟩ := h
  exact skip_cons hspace _

theorem length_pos_writeAt (style : Style) {v : Json} (hv : v.IsExact) (depth : Nat) :
    0 < (writeAt style depth v).length := by
  obtain ⟨c, rest, h, -⟩ := beginsValue_writeAt style hv depth
  rw [h]
  exact Nat.succ_pos _

/-! ## Items and members, one at a time -/

section

variable {fuel : Nat} {x : Json} {t r more : Text}

theorem readItems_last {done : List Json} (hread : readValue fuel t = .ok (x, r))
    (hr : skip r = CodePoint.ofChar ']' :: more) :
    readItems (fuel + 1) done t = .ok ((x :: done).reverse, more) := by
  rw [readItems, hread]
  simp only [hr, if_pos]

theorem readItems_next {done : List Json} (hread : readValue fuel t = .ok (x, r))
    (hr : skip r = CodePoint.ofChar ',' :: more) :
    readItems (fuel + 1) done t = readItems fuel (x :: done) (skip more) := by
  rw [readItems, hread]
  simp only [hr]
  rw [if_neg (by decide), if_pos trivial]

variable {style : Style} {name : Text} {done : List (Text × Json)}

theorem readMembers_last (hstyle : style.IsSpaced)
    (hname : ∀ c ∈ name, Utf8.isSurrogate c = false) (ht : skip t = t)
    (hread : readValue fuel t = .ok (x, r)) (hr : skip r = CodePoint.ofChar '\x7d' :: more) :
    readMembers (fuel + 1) done (writeText name ++ (style.colon ++ t)) =
      .ok (Table.insert name x done, more) := by
  obtain ⟨blanks, hblanks, hcolon⟩ := hstyle.colon
  have hskip : skip (blanks ++ t) = t := by rw [skip_append hblanks, ht]
  rw [hcolon, writeText, List.append_assoc, List.cons_append, readMembers]
  simp only [CodePoint.quotationMark, if_pos, List.cons_append, List.nil_append]
  rw [readText_write hname]
  simp only [skip_cons (show isSpace (CodePoint.ofChar ':') = false by decide), if_pos, hskip,
    hread, hr]

theorem readMembers_next (hstyle : style.IsSpaced)
    (hname : ∀ c ∈ name, Utf8.isSurrogate c = false) (ht : skip t = t)
    (hread : readValue fuel t = .ok (x, r)) (hr : skip r = CodePoint.ofChar ',' :: more) :
    readMembers (fuel + 1) done (writeText name ++ (style.colon ++ t)) =
      readMembers fuel (Table.insert name x done) (skip more) := by
  obtain ⟨blanks, hblanks, hcolon⟩ := hstyle.colon
  have hskip : skip (blanks ++ t) = t := by rw [skip_append hblanks, ht]
  rw [hcolon, writeText, List.append_assoc, List.cons_append, readMembers]
  simp only [CodePoint.quotationMark, if_pos, List.cons_append, List.nil_append]
  rw [readText_write hname]
  simp only [skip_cons (show isSpace (CodePoint.ofChar ':') = false by decide), if_pos, hskip,
    hread, hr]
  rw [if_neg (by decide)]

end

/-! ## Whole values -/

variable {style : Style}

theorem endsNumber_between (hstyle : style.IsSpaced) (depth : Nat) (t : Text) :
    EndsNumber (style.between depth ++ t) := by
  obtain ⟨blanks, -, h⟩ := hstyle.between depth
  rw [h]
  intro c hc
  obtain rfl : CodePoint.ofChar ',' = c := by simpa using hc
  decide

theorem skip_between (hstyle : style.IsSpaced) (depth : Nat) {t : Text} (ht : skip t = t) :
    ∃ more, skip (style.between depth ++ t) = CodePoint.ofChar ',' :: more ∧ skip more = t := by
  obtain ⟨blanks, hblanks, h⟩ := hstyle.between depth
  refine ⟨blanks ++ t, ?_, by rw [skip_append hblanks, ht]⟩
  rw [h]
  exact skip_cons (by decide) _

theorem beginsValue_writeItems (style : Style) {x : Json} (hx : x.IsExact) (xs : List Json)
    (depth : Nat) :
    BeginsValue (writeItems style depth (x :: xs)) := by
  obtain ⟨c, rest, h, hspace, hne⟩ := beginsValue_writeAt style hx depth
  cases xs with
  | nil => exact ⟨c, rest, h, hspace, hne⟩
  | cons y ys =>
    rw [writeItems, h]
    · exact ⟨c, _, rfl, hspace, hne⟩
    · simp

theorem writeAt_arr_append (style : Style) (depth : Nat) (x : Json) (xs : List Json) (r : Text) :
    writeAt style depth (.arr (x :: xs)) ++ r =
      CodePoint.ofChar '[' :: (style.edge (depth + 1) ++ (writeItems style (depth + 1) (x :: xs) ++
        (style.edge depth ++ CodePoint.ofChar ']' :: r))) := by
  rw [writeAt]
  · simp only [List.append_assoc]
    rfl
  · simp

theorem writeAt_obj_append (style : Style) (depth : Nat) (m : Text × Json)
    (ms : List (Text × Json)) (r : Text) :
    writeAt style depth (.obj (m :: ms)) ++ r =
      CodePoint.ofChar '\x7b' :: (style.edge (depth + 1) ++
        (writeMembers style (depth + 1) (m :: ms) ++
          (style.edge depth ++ CodePoint.ofChar '\x7d' :: r))) := by
  rw [writeAt]
  · simp only [List.append_assoc]
    rfl
  · simp

theorem length_writeItems_lt (style : Style) (depth : Nat) (x : Json) (xs : List Json) :
    (writeItems style (depth + 1) (x :: xs)).length + 1 <
      (writeAt style depth (.arr (x :: xs))).length := by
  have h := congrArg List.length (writeAt_arr_append style depth x xs [])
  simp only [List.length_append, List.length_cons, List.length_nil] at h
  omega

theorem length_writeMembers_lt (style : Style) (depth : Nat) (m : Text × Json)
    (ms : List (Text × Json)) :
    (writeMembers style (depth + 1) (m :: ms)).length + 1 <
      (writeAt style depth (.obj (m :: ms))).length := by
  have h := congrArg List.length (writeAt_obj_append style depth m ms [])
  simp only [List.length_append, List.length_cons, List.length_nil] at h
  omega

/-- Behind a bracket stand the items of an array. -/
theorem readValue_of_bracket {fuel : Nat} {c : CodePoint} {t rest r : Text} {items : List Json}
    (ht : skip t = c :: rest) (hc : c ≠ CodePoint.ofChar ']')
    (hread : readItems fuel [] (skip t) = .ok (items, r)) :
    readValue (fuel + 1) (CodePoint.ofChar '[' :: t) = .ok (.arr items, r) := by
  rw [ht] at hread
  rw [readValue, if_neg (by decide), if_neg (by decide), if_pos rfl]
  simp only [ht, if_neg hc, hread]
  rfl

/-- Behind a brace stand the members of an object. -/
theorem readValue_of_brace {fuel : Nat} {c : CodePoint} {t rest r : Text}
    {members : List (Text × Json)} (ht : skip t = c :: rest) (hc : c ≠ CodePoint.ofChar '\x7d')
    (hread : readMembers fuel [] (skip t) = .ok (members, r)) :
    readValue (fuel + 1) (CodePoint.ofChar '\x7b' :: t) = .ok (.obj members, r) := by
  rw [ht] at hread
  rw [readValue, if_neg (by decide), if_pos rfl]
  simp only [ht, if_neg hc, hread]
  rfl

theorem readValue_of_scalar {fuel : Nat} {c : CodePoint} {t : Text}
    (hquote : c ≠ CodePoint.ofChar '"') (hbrace : c ≠ CodePoint.ofChar '\x7b')
    (hbracket : c ≠ CodePoint.ofChar '[') :
    readValue (fuel + 1) (c :: t) = readScalar (c :: t) := by
  rw [readValue]
  simp only [if_neg hquote, if_neg hbrace, if_neg hbracket]

theorem readValue_ofInt (fuel : Nat) (n : Int) {r : Text} (hr : EndsNumber r) :
    readValue (fuel + 1) (Text.ofInt n ++ r) = .ok (.int n, r) := by
  have hread := readScalar_ofInt n hr
  have hhead : ∃ c t, Text.ofInt n ++ r = c :: t ∧
      (isDigit c = true ∨ c = CodePoint.ofChar '-') := by
    cases n with
    | ofNat n =>
      obtain ⟨c, t, hc⟩ := List.exists_cons_of_ne_nil (Text.ofNat_ne_nil n)
      exact ⟨c, t ++ r, by rw [Text.ofInt, hc]; rfl,
        .inl (isDigit_of_mem_ofNat (n := n) (by simp [hc]))⟩
    | negSucc n => exact ⟨_, _, rfl, .inr rfl⟩
  obtain ⟨c, t, h, hc⟩ := hhead
  rw [h] at hread ⊢
  rw [readValue_of_scalar, hread]
  all_goals
    rintro rfl
    rcases hc with hc | hc <;> exact absurd hc (by decide)

theorem insert_of_nodup {done rest : List (Text × Json)} {name : Text} {x : Json}
    (h : ((done ++ (name, x) :: rest).map Prod.fst).Nodup) :
    Table.insert name x done = done ++ [(name, x)] := by
  rw [List.map_append, List.nodup_append] at h
  exact Table.insert_of_notMem x fun hmem => h.2.2 name hmem name (by simp) rfl

theorem writeMembers_cons (style : Style) (depth : Nat) (m : Text × Json)
    (ms : List (Text × Json)) :
    ∃ rest, writeMembers style depth (m :: ms) = CodePoint.ofChar '"' :: rest := by
  cases ms with
  | nil => exact ⟨_, rfl⟩
  | cons n ms => exact ⟨_, rfl⟩

mutual

/-- What is written for a value is read as that value. -/
theorem readValue_write (hstyle : style.IsSpaced) : ∀ {v : Json}, v.IsExact →
    ∀ {depth fuel : Nat} {r : Text}, EndsNumber r → 2 * (writeAt style depth v).length ≤ fuel + 1 →
      readValue (fuel + 1) (writeAt style depth v ++ r) = .ok (v, r)
  | .null, _, _, _, _, _, _ => rfl
  | .bool true, _, _, _, _, _, _ => rfl
  | .bool false, _, _, _, _, _, _ => rfl
  | .int n, _, _, fuel, _, hr, _ => readValue_ofInt fuel n hr
  | .float _, hv, _, _, _, _, _ => hv.elim
  | .str t, hv, _, _, r, _, _ => by
    rw [writeAt, writeText, List.append_assoc, List.cons_append, readValue]
    simp only [CodePoint.quotationMark, if_pos, List.cons_append, List.nil_append]
    rw [readText_write hv]
    rfl
  | .arr [], _, _, _, _, _, _ => rfl
  | .arr (x :: xs), hv, depth, fuel, r, _, hfuel => by
    have hlen := length_writeItems_lt style depth x xs
    obtain ⟨k, rfl⟩ : ∃ k, fuel = k + 1 := ⟨fuel - 1, by omega⟩
    have hitems := beginsValue_writeItems style hv.1 xs (depth + 1)
    have hskip : skip (style.edge (depth + 1) ++ (writeItems style (depth + 1) (x :: xs) ++
        (style.edge depth ++ CodePoint.ofChar ']' :: r))) =
        writeItems style (depth + 1) (x :: xs) ++ (style.edge depth ++ CodePoint.ofChar ']' :: r) := by
      rw [skip_append (hstyle.edge _), skip_of_beginsValue hitems]
    obtain ⟨c, rest, hc, -, hne, -⟩ := hitems
    rw [writeAt_arr_append]
    refine readValue_of_bracket (hskip.trans (by rw [hc, List.cons_append])) hne ?_
    rw [hskip]
    exact readItems_write hstyle (by simp) hv (hstyle.edge depth) (by omega)
  | .obj [], _, _, _, _, _, _ => rfl
  | .obj (m :: ms), hv, depth, fuel, r, _, hfuel => by
    have hlen := length_writeMembers_lt style depth m ms
    obtain ⟨k, rfl⟩ : ∃ k, fuel = k + 1 := ⟨fuel - 1, by omega⟩
    obtain ⟨rest, hrest⟩ := writeMembers_cons style (depth + 1) m ms
    have hskip : skip (style.edge (depth + 1) ++ (writeMembers style (depth + 1) (m :: ms) ++
        (style.edge depth ++ CodePoint.ofChar '\x7d' :: r))) =
        writeMembers style (depth + 1) (m :: ms) ++
          (style.edge depth ++ CodePoint.ofChar '\x7d' :: r) := by
      rw [skip_append (hstyle.edge _), hrest]
      exact skip_cons (by decide) _
    rw [writeAt_obj_append]
    refine readValue_of_brace (hskip.trans (by rw [hrest, List.cons_append])) (by decide) ?_
    rw [hskip]
    exact readMembers_write hstyle (by simp) hv.2 (by simpa using hv.1) (hstyle.edge depth) (by omega)

/-- What is written for some items is read as those items, up to the bracket. -/
theorem readItems_write (hstyle : style.IsSpaced) : ∀ {items : List Json}, items ≠ [] →
    AreExact items → ∀ {done : List Json} {depth fuel : Nat} {blanks r : Text}, IsBlank blanks →
      2 * (writeItems style depth items).length ≤ fuel →
      readItems (fuel + 1) done
          (writeItems style depth items ++ (blanks ++ CodePoint.ofChar ']' :: r)) =
        .ok (done.reverse ++ items, r)
  | [x], _, hv, done, depth, fuel, blanks, r, hblanks, hfuel => by
    have hpos := length_pos_writeAt style hv.1 depth
    rw [writeItems] at hfuel ⊢
    obtain ⟨k, rfl⟩ : ∃ k, fuel = k + 1 := ⟨fuel - 1, by omega⟩
    have hends : EndsNumber (blanks ++ CodePoint.ofChar ']' :: r) :=
      endsNumber_append hblanks (by intro c hc; obtain rfl := Option.some.inj hc; decide)
    have hskip : skip (blanks ++ CodePoint.ofChar ']' :: r) = CodePoint.ofChar ']' :: r := by
      rw [skip_append hblanks, skip_cons (by decide)]
    rw [readItems_last (readValue_write hstyle hv.1 hends hfuel) hskip, List.reverse_cons]
  | x :: y :: rest, _, hv, done, depth, fuel, blanks, r, hblanks, hfuel => by
    have hpos := length_pos_writeAt style hv.1 depth
    have hitems := beginsValue_writeItems style hv.2.1 rest depth
    have hwrite : writeItems style depth (x :: y :: rest) =
        writeAt style depth x ++ (style.between depth ++ writeItems style depth (y :: rest)) := by
      rw [writeItems, List.append_assoc]
      simp
    obtain ⟨more, hmore, hskip⟩ := skip_between hstyle depth
      (skip_of_beginsValue hitems (blanks ++ CodePoint.ofChar ']' :: r))
    rw [hwrite] at hfuel ⊢
    simp only [List.length_append] at hfuel
    obtain ⟨k, rfl⟩ : ∃ k, fuel = k + 1 := ⟨fuel - 1, by omega⟩
    rw [List.append_assoc, List.append_assoc]
    rw [readItems_next
      (readValue_write hstyle hv.1 (endsNumber_between hstyle depth _) (by omega)) hmore, hskip,
      readItems_write hstyle (by simp) hv.2 hblanks (by omega), List.reverse_cons,
      List.append_assoc]
    rfl

/-- What is written for some members is read as those members, up to the brace. -/
theorem readMembers_write (hstyle : style.IsSpaced) : ∀ {ms : List (Text × Json)}, ms ≠ [] →
    MembersAreExact ms → ∀ {done : List (Text × Json)} {depth fuel : Nat} {blanks r : Text},
      ((done ++ ms).map Prod.fst).Nodup → IsBlank blanks →
      2 * (writeMembers style depth ms).length ≤ fuel →
      readMembers (fuel + 1) done
          (writeMembers style depth ms ++ (blanks ++ CodePoint.ofChar '\x7d' :: r)) =
        .ok (done ++ ms, r)
  | [(name, x)], _, hv, done, depth, fuel, blanks, r, hnd, hblanks, hfuel => by
    have hpos := length_pos_writeAt style hv.2.1 depth
    have hinsert : Table.insert name x done = done ++ [(name, x)] :=
      insert_of_nodup hnd
    rw [writeMembers] at hfuel ⊢
    simp only [List.length_append] at hfuel
    obtain ⟨k, rfl⟩ : ∃ k, fuel = k + 1 := ⟨fuel - 1, by omega⟩
    have hends : EndsNumber (blanks ++ CodePoint.ofChar '\x7d' :: r) :=
      endsNumber_append hblanks (by intro c hc; obtain rfl := Option.some.inj hc; decide)
    have hskip : skip (blanks ++ CodePoint.ofChar '\x7d' :: r) = CodePoint.ofChar '\x7d' :: r := by
      rw [skip_append hblanks, skip_cons (by decide)]
    have hread : readValue (k + 1) (writeAt style depth x ++ (blanks ++ CodePoint.ofChar '\x7d' :: r)) =
        .ok (x, blanks ++ CodePoint.ofChar '\x7d' :: r) :=
      readValue_write hstyle hv.2.1 hends (by omega)
    rw [List.append_assoc, List.append_assoc, readMembers_last hstyle hv.1
      (skip_of_beginsValue (beginsValue_writeAt style hv.2.1 depth) _) hread hskip,
      hinsert]
  | (name, x) :: m :: rest, _, hv, done, depth, fuel, blanks, r, hnd, hblanks, hfuel => by
    have hpos := length_pos_writeAt style hv.2.1 depth
    have hinsert : Table.insert name x done = done ++ [(name, x)] :=
      insert_of_nodup hnd
    have hwrite : writeMembers style depth ((name, x) :: m :: rest) =
        writeText name ++ (style.colon ++ (writeAt style depth x ++
          (style.between depth ++ writeMembers style depth (m :: rest)))) := by
      rw [writeMembers]
      · simp only [List.append_assoc]
      · simp
    obtain ⟨tail, htail⟩ := writeMembers_cons style depth m rest
    have hbegin : skip (writeMembers style depth (m :: rest) ++
        (blanks ++ CodePoint.ofChar '\x7d' :: r)) = writeMembers style depth (m :: rest) ++
        (blanks ++ CodePoint.ofChar '\x7d' :: r) := by
      rw [htail]
      exact skip_cons (by decide) _
    obtain ⟨more, hmore, hskip⟩ := skip_between hstyle depth hbegin
    rw [hwrite] at hfuel ⊢
    simp only [List.length_append] at hfuel
    obtain ⟨k, rfl⟩ : ∃ k, fuel = k + 1 := ⟨fuel - 1, by omega⟩
    have hends := endsNumber_between hstyle depth (writeMembers style depth (m :: rest) ++
      (blanks ++ CodePoint.ofChar '\x7d' :: r))
    have hread : readValue (k + 1) (writeAt style depth x ++ (style.between depth ++
        (writeMembers style depth (m :: rest) ++ (blanks ++ CodePoint.ofChar '\x7d' :: r)))) =
        .ok (x, style.between depth ++
          (writeMembers style depth (m :: rest) ++ (blanks ++ CodePoint.ofChar '\x7d' :: r))) :=
      readValue_write hstyle hv.2.1 hends (by omega)
    simp only [List.append_assoc]
    rw [readMembers_next hstyle hv.1 (skip_of_beginsValue (beginsValue_writeAt style hv.2.1 depth) _)
      hread hmore, hskip, hinsert,
      readMembers_write hstyle (by simp) hv.2.2 (by simpa using hnd) hblanks (by omega),
      List.append_assoc]
    rfl

end

theorem read_writeAt (hstyle : style.IsSpaced) {v : Json} (hv : v.IsExact) (depth : Nat) :
    read (writeAt style depth v) = .ok v := by
  have hbegin := beginsValue_writeAt style hv depth
  have hread : readValue (2 * (writeAt style depth v).length + 1 + 1) (writeAt style depth v ++ []) =
      .ok (v, []) :=
    readValue_write hstyle hv (by simp [EndsNumber]) (by omega)
  have hskip := skip_of_beginsValue hbegin []
  rw [List.append_nil] at hread hskip
  have hmark : (writeAt style depth v).head? ≠ some 0xFEFF := by
    obtain ⟨c, rest, h, -, -, hne⟩ := hbegin
    rw [h]
    exact fun hc => hne (Option.some.inj hc)
  unfold read
  rw [if_neg hmark, hskip, hread]
  rfl

/-- A value that has a text of its own is read from it. -/
theorem read_write {v : Json} (hv : v.IsExact) : read v.write = .ok v :=
  read_writeAt Style.isSpaced_compact hv 0

end CasePlan.Json
