import CasePlan.Expression
import CasePlan.Proofs.Text.Cutting
import CasePlan.Proofs.Xml.LineEnd

/-!
# Reading conditions

What an engine makes of a condition: the comparisons in it, each with the literal that the outcome
is compared with.  Whatever stands in a literal, it is read up to its own end.

* `Expression.Test`, `Expression.read?`: comparisons, and reading them from a condition.
* `read?_condition`: what was put together is read again.
* `condition_inj`: so conditions are written alike only if they make the same comparisons.
* `Expression.Admits`: the outcomes that a condition lets through; `admits_condition_iff`: those that
  conditions joined by `both` let through.
* `normalizeLines_condition`: ending the lines of a condition ends those of its literals;
  `normalizeLines_condition_eq_self_iff`: when it changes nothing.
-/

namespace CasePlan

/-- The condition with the lines of its outcome ended by line feeds. -/
def Condition.endLines (c : Condition) : Condition :=
  { c with outcome := Xml.normalizeLines c.outcome }

namespace Expression

/-! ## Reading -/

/-- A comparison in an expression. -/
structure Test where
  /-- How it is joined to those before it; the first counts as joined by `both`. -/
  join : Join
  /-- The comparison. -/
  comparison : Comparison
  /-- The literal that the outcome is compared with. -/
  literal : Text
  deriving DecidableEq, Repr

/-- A literal after its first quotation mark, and the rest after its last one; `escaped` tells
whether a backslash stands before the text. -/
def readLiteral (escaped : Bool) : Text → Option (Text × Text)
  | [] => none
  | c :: rest =>
    if escaped then (readLiteral false rest).map fun (t, rest) => (c :: t, rest)
    else if c = '"' then some ([], rest)
    else if c = '\\' then readLiteral true rest
    else (readLiteral false rest).map fun (t, rest) => (c :: t, rest)

/-- A word for a comparison at the beginning of a text, and the rest. -/
def readComparison? (t : Text) : Option (Comparison × Text) :=
  match Text.after? Comparison.equals.word t with
  | some rest => some (.equals, rest)
  | none => (Text.after? Comparison.notEquals.word t).map (.notEquals, ·)

/-- What stands between the word for a comparison and its literal. -/
def argument : Text := "(_outcome,\""

/-- A comparison at the beginning of a text, given how it is joined, and the rest. -/
def readTest? (join : Join) (t : Text) : Option (Test × Text) := do
  let (comparison, rest) ← readComparison? (← Text.after? "vars:" t)
  let (literal, rest) ← readLiteral false (← Text.after? argument rest)
  let rest ← Text.after? ")" rest
  pure (⟨join, comparison, literal⟩, rest)

/-- The sign of a join at the beginning of a text, and the rest. -/
def readJoin? (t : Text) : Option (Join × Text) :=
  match Text.after? (joinSign .both) t with
  | some rest => some (.both, rest)
  | none => (Text.after? (joinSign .either) t).map (.either, ·)

/-- The comparisons up to the closing brace, each after the sign of its join; `fuel` bounds their
number. -/
def readTests? (fuel : Nat) (t : Text) : Option (List Test) :=
  match fuel with
  | 0 => none
  | fuel + 1 =>
    if t = "\x7d" then some []
    else do
      let (join, rest) ← readJoin? t
      let (test, rest) ← readTest? join rest
      let tests ← readTests? fuel rest
      pure (test :: tests)

/-- The comparisons in a condition; the empty text has none. -/
def read? (t : Text) : Option (List Test) :=
  if t.isEmpty then some []
  else do
    let (test, rest) ← readTest? .both (← Text.after? "$\x7b" t)
    let tests ← readTests? t.length rest
    pure (test :: tests)

/-! ## What is read -/

/-- The comparison that a condition makes, given how it is joined. -/
def testOf (join : Join) (c : Condition) : Test := ⟨join, c.comparison, c.outcome⟩

/-- The comparisons that conditions make. -/
def tests : List Condition → List Test
  | [] => []
  | c :: rest => testOf .both c :: rest.map fun d => testOf d.join d

theorem exists_mem_tests {cs : List Condition} {c : Condition} (h : c ∈ cs) :
    ∃ test ∈ tests cs, test.comparison = c.comparison ∧ test.literal = c.outcome := by
  cases cs with
  | nil => exact absurd h List.not_mem_nil
  | cons d rest =>
    rcases List.mem_cons.1 h with rfl | h
    · exact ⟨_, List.mem_cons_self, rfl, rfl⟩
    · exact ⟨_, List.mem_cons_of_mem _ (List.mem_map_of_mem h), rfl, rfl⟩

theorem map_literal_tests (cs : List Condition) :
    (tests cs).map Test.literal = cs.map Condition.outcome := by
  cases cs with
  | nil => rfl
  | cons c rest =>
    rw [tests, List.map_cons, List.map_cons, List.map_map]
    rfl

/-- A literal is written by doubling the backslashes of a text first, and then putting a backslash
before its quotation marks. -/
theorem literal_eq_replaceAll (t : Text) :
    literal t = "\"" ++ Text.replaceAll "\"" "\\\"" (Text.replaceAll "\\" "\\\\" t) ++ "\"" := by
  have hcodes : Text.replaceAll "\"" "\\\"" (Text.replaceAll "\\" "\\\\" t) =
      t.flatMap literalCode := by
    have hquote : Text.ofString "\"" = [CodePoint.ofChar '"'] := rfl
    have hback : Text.ofString "\\" = [CodePoint.ofChar '\\'] := rfl
    rw [hquote, hback, Text.replaceAll_singleton, Text.replaceAll_singleton, List.flatMap_assoc]
    refine List.flatMap_congr fun c _ => ?_
    unfold literalCode
    by_cases hc : c = '\\'
    · rw [if_pos hc, if_pos hc]
      decide
    · rw [if_neg hc, if_neg hc, List.flatMap_singleton]
  rw [hcodes]
  rfl

theorem readLiteral_append (t r : Text) :
    readLiteral false (t.flatMap literalCode ++ .quotationMark :: r) = some (t, r) := by
  induction t with
  | nil => rfl
  | cons c t ih =>
    rw [List.flatMap_cons, List.append_assoc, literalCode]
    by_cases hback : c = '\\'
    · rw [if_pos hback, hback]
      show (readLiteral false (t.flatMap literalCode ++ .quotationMark :: r)).map _ = _
      rw [ih]
      rfl
    by_cases hquote : c = '"'
    · rw [if_neg hback, if_pos hquote, hquote]
      show (readLiteral false (t.flatMap literalCode ++ .quotationMark :: r)).map _ = _
      rw [ih]
      rfl
    · rw [if_neg hback, if_neg hquote, List.singleton_append, readLiteral, if_neg (by decide),
        if_neg hquote, if_neg hback, ih]
      rfl

theorem readComparison?_word (c : Comparison) (r : Text) :
    readComparison? (c.word ++ r) = some (c, r) := by
  unfold readComparison?
  cases c with
  | equals => rw [Text.after?_append]
  | notEquals =>
    have hnot : Text.after? Comparison.equals.word (Comparison.notEquals.word ++ r) = none :=
      Text.after?_cons_of_ne (by decide) _ _
    rw [hnot, Text.after?_append]
    rfl

theorem readJoin?_sign (j : Join) (r : Text) : readJoin? (joinSign j ++ r) = some (j, r) := by
  unfold readJoin?
  cases j with
  | both => rw [Text.after?_append]
  | either =>
    have hnot : Text.after? (joinSign .both) (joinSign .either ++ r) = none :=
      Text.after?_cons_of_ne (by decide) _ _
    rw [hnot, Text.after?_append]
    rfl

theorem predicate_append (c : Condition) (r : Text) :
    predicate c ++ r = "vars:" ++ (c.comparison.word ++ (argument ++
      (c.outcome.flatMap literalCode ++ .quotationMark :: (Text.ofString ")" ++ r)))) := by
  have hargument : argument = "(" ++ outcomeVariable ++ "," ++ [CodePoint.quotationMark] := rfl
  simp only [predicate, hargument, literal, List.append_assoc, List.cons_append, List.nil_append]

/-- A comparison is read up to its end. -/
theorem readTest?_predicate (j : Join) (c : Condition) (r : Text) :
    readTest? j (predicate c ++ r) = some (testOf j c, r) := by
  rw [readTest?, predicate_append]
  simp only [Text.after?_append, readComparison?_word, readLiteral_append, Option.bind_eq_bind,
    Option.bind_some]
  rfl

theorem readTests?_append {cs : List Condition} {fuel : Nat} (hfuel : cs.length < fuel) :
    readTests? fuel ((cs.flatMap fun d => joinSign d.join ++ predicate d) ++ "\x7d") =
      some (cs.map fun d => testOf d.join d) := by
  induction cs generalizing fuel with
  | nil =>
    obtain ⟨fuel, rfl⟩ := Nat.exists_eq_add_of_lt hfuel
    rfl
  | cons c cs ih =>
    cases fuel with
    | zero => exact absurd hfuel (Nat.not_lt_zero _)
    | succ fuel =>
      have hbrace : (c :: cs).flatMap (fun d => joinSign d.join ++ predicate d) ++
          Text.ofString "\x7d" ≠ Text.ofString "\x7d" := by
        rw [List.flatMap_cons]
        cases c.join <;> exact fun h => absurd (List.cons.inj h).1 (by decide)
      rw [readTests?, if_neg hbrace, List.flatMap_cons, List.append_assoc, List.append_assoc]
      simp only [readJoin?_sign, readTest?_predicate, ih (Nat.lt_of_succ_lt_succ hfuel),
        Option.bind_eq_bind, Option.bind_some]
      rfl

/-- The comparisons that were put together are read from a condition. -/
theorem read?_condition (cs : List Condition) : read? (condition cs) = some (tests cs) := by
  cases cs with
  | nil => rfl
  | cons c rest =>
    have hsome : (condition (c :: rest)).isEmpty = false := rfl
    have henclosed : condition (c :: rest) = "$\x7b" ++ (predicate c ++
        ((rest.flatMap fun d => joinSign d.join ++ predicate d) ++ "\x7d")) := by
      simp only [condition, enclosed, List.append_assoc]
    have hlength : rest.length < (condition (c :: rest)).length := by
      have hle : rest.length ≤ (rest.flatMap fun d => joinSign d.join ++ predicate d).length :=
        Text.length_le_flatMap (fun d => by cases d.join <;> exact List.cons_ne_nil _ _) rest
      have hbrace : (Text.ofString "\x7d").length = 1 := rfl
      rw [henclosed]
      simp only [List.length_append]
      omega
    have hafter : Text.after? "$\x7b" (condition (c :: rest)) = some (predicate c ++
        ((rest.flatMap fun d => joinSign d.join ++ predicate d) ++ "\x7d")) := by
      rw [henclosed, Text.after?_append]
    rw [read?, hsome, hafter]
    simp only [readTest?_predicate, readTests?_append hlength, Option.bind_eq_bind,
      Option.bind_some, Bool.false_eq_true, if_false]
    rfl

/-! ## When conditions are written alike -/

theorem getElem?_tests (cs : List Condition) (i : Nat) :
    (tests cs)[i]? = cs[i]?.map fun c => testOf (if i = 0 then .both else c.join) c := by
  cases cs with
  | nil => rfl
  | cons c rest =>
    cases i with
    | zero => rfl
    | succ i => rw [tests, List.getElem?_cons_succ, List.getElem?_cons_succ, List.getElem?_map]; rfl

/-- Conditions make the same comparisons when they are as many, compare alike with the same
outcomes, and are joined alike after the first. -/
theorem tests_inj {cs ds : List Condition} : tests cs = tests ds ↔ cs.length = ds.length ∧
    ∀ (i : Nat) (c d : Condition), cs[i]? = some c → ds[i]? = some d →
      c.comparison = d.comparison ∧ c.outcome = d.outcome ∧ (0 < i → c.join = d.join) := by
  have hsame : ∀ (i : Nat) (c d : Condition),
      testOf (if i = 0 then .both else c.join) c = testOf (if i = 0 then .both else d.join) d ↔
        c.comparison = d.comparison ∧ c.outcome = d.outcome ∧ (0 < i → c.join = d.join) := by
    intro i c d
    cases i with
    | zero => simp [testOf]
    | succ i => simp [testOf, and_comm, and_left_comm]
  constructor
  · intro h
    have hlength : cs.length = ds.length := by
      simpa [map_literal_tests] using congrArg (fun ts => (ts.map Test.literal).length) h
    refine ⟨hlength, fun i c d hc hd => (hsame i c d).1 ?_⟩
    have hi := congrArg (fun ts : List Test => ts[i]?) h
    simpa only [getElem?_tests, hc, hd, Option.map_some, Option.some.injEq] using hi
  · rintro ⟨hlength, h⟩
    refine List.ext_getElem? fun i => ?_
    rw [getElem?_tests, getElem?_tests]
    by_cases hi : i < cs.length
    · rw [List.getElem?_eq_getElem hi, List.getElem?_eq_getElem (hlength ▸ hi), Option.map_some,
        Option.map_some, (hsame i _ _).2 (h i _ _ (List.getElem?_eq_getElem hi)
          (List.getElem?_eq_getElem (hlength ▸ hi)))]
    · rw [List.getElem?_eq_none (by omega), List.getElem?_eq_none (by omega)]

/-- A condition is written from what is read of it. -/
theorem condition_congr {cs ds : List Condition} (h : tests cs = tests ds) :
    condition cs = condition ds := by
  have hrest : ∀ rest : List Condition, (rest.flatMap fun d => joinSign d.join ++ predicate d) =
      (rest.map fun d => testOf d.join d).flatMap fun test =>
        joinSign test.join ++ predicate ⟨[], [], test.literal, test.comparison, test.join⟩ :=
    fun rest => by
      rw [List.flatMap_map]
      rfl
  cases cs with
  | nil =>
    cases ds with
    | nil => rfl
    | cons d ds => exact absurd h.symm (List.cons_ne_nil _ _)
  | cons c cs =>
    cases ds with
    | nil => exact absurd h (List.cons_ne_nil _ _)
    | cons d ds =>
      obtain ⟨hfirst, htests⟩ := List.cons.inj h
      obtain ⟨-, hcomparison, houtcome⟩ := Test.mk.inj hfirst
      rw [condition, condition, predicate, predicate, hcomparison, houtcome, hrest, hrest, htests]

/-- Conditions are written alike only if they are as many, compare alike with the same outcomes and
are joined alike after the first.  No outcome ends its literal early: what stands after a
comparison is told from it. -/
theorem condition_inj (cs ds : List Condition) :
    (condition cs = condition ds ↔ cs.length = ds.length ∧
      ∀ (i : Nat) (c d : Condition), cs[i]? = some c → ds[i]? = some d →
        c.comparison = d.comparison ∧ c.outcome = d.outcome ∧ (0 < i → c.join = d.join)) ∧
    ∀ (c d : Condition) (r s : Text), predicate c ++ r = predicate d ++ s ↔
      c.comparison = d.comparison ∧ c.outcome = d.outcome ∧ r = s := by
  refine ⟨?_, fun c d r s => ⟨fun h => ?_, fun h => ?_⟩⟩
  · rw [← tests_inj]
    refine ⟨fun h => ?_, condition_congr⟩
    have hread := congrArg read? h
    rwa [read?_condition, read?_condition, Option.some.injEq] at hread
  · have hread := congrArg (readTest? .both) h
    rw [readTest?_predicate, readTest?_predicate, Option.some.injEq, Prod.mk.injEq] at hread
    obtain ⟨-, hcomparison, houtcome⟩ := Test.mk.inj hread.1
    exact ⟨hcomparison, houtcome, hread.2⟩
  · obtain ⟨hcomparison, houtcome, rfl⟩ := h
    rw [predicate, predicate, hcomparison, houtcome]

/-! ## Which outcomes pass -/

/-- An outcome passes a comparison with a literal. -/
def Passes (outcome literal : Text) : Comparison → Prop
  | .equals => outcome = literal
  | .notEquals => outcome ≠ literal

/-- An outcome passes comparisons.  Those joined by `both` bind tighter; `before` tells whether it
passes the ones since the last `either`. -/
def PassesTests (outcome : Text) (before : Prop) : List Test → Prop
  | [] => before
  | test :: tests =>
    match test.join with
    | .both => PassesTests outcome (before ∧ Passes outcome test.literal test.comparison) tests
    | .either =>
      before ∨ PassesTests outcome (Passes outcome test.literal test.comparison) tests

/-- A condition lets an outcome through. -/
def Admits (t outcome : Text) : Prop :=
  ∃ tests, read? t = some tests ∧ PassesTests outcome True tests

theorem passesTests_iff_of_both {outcome : Text} {tests : List Test} {before : Prop}
    (h : ∀ test ∈ tests, test.join = .both) : PassesTests outcome before tests ↔
      before ∧ ∀ test ∈ tests, Passes outcome test.literal test.comparison := by
  induction tests generalizing before with
  | nil => simp [PassesTests]
  | cons test tests ih =>
    rw [List.forall_mem_cons] at h
    rw [PassesTests, h.1, List.forall_mem_cons, ← and_assoc]
    exact ih h.2

/-- Conditions that are joined by `both` let through what passes all of them. -/
theorem admits_condition_iff {cs : List Condition} (h : ∀ c ∈ cs, c.join = .both) (outcome : Text) :
    Admits (condition cs) outcome ↔ ∀ c ∈ cs, Passes outcome c.outcome c.comparison := by
  have htests : tests cs = cs.map (testOf .both) := by
    cases cs with
    | nil => rfl
    | cons c rest =>
      rw [tests, List.map_cons]
      refine congrArg _ (List.map_congr_left fun d hd => ?_)
      rw [h d (List.mem_cons_of_mem _ hd)]
  have hjoin : ∀ test ∈ tests cs, test.join = .both := by
    rw [htests, List.forall_mem_map]
    exact fun _ _ => rfl
  simp only [Admits, read?_condition, Option.some.injEq, exists_eq_left',
    passesTests_iff_of_both hjoin, true_and]
  rw [htests, List.forall_mem_map]
  rfl

/-! ## Lines -/

/-- Ending the lines of a quoted text ends those of the text. -/
theorem normalizeLines_quoted (t r : Text) :
    Xml.normalizeLines (t.flatMap literalCode ++ .quotationMark :: r) =
      (Xml.normalizeLines t).flatMap literalCode ++ .quotationMark :: Xml.normalizeLines r := by
  have hfeed : ∀ t : Text, (t.flatMap literalCode ++ .quotationMark :: r).head? = some .lineFeed ↔
      t.head? = some .lineFeed := by
    intro t
    cases t with
    | nil =>
      exact ⟨fun h => absurd (Option.some.inj h) (by decide), fun h => absurd h (by simp)⟩
    | cons c t =>
      rw [List.flatMap_cons, literalCode]
      by_cases hback : c = '\\'
      · rw [if_pos hback, hback]
        exact iff_of_false (fun h => absurd (Option.some.inj h) (by decide))
          fun h => absurd (Option.some.inj h) (by decide)
      by_cases hquote : c = '"'
      · rw [if_neg hback, if_pos hquote, hquote]
        exact iff_of_false (fun h => absurd (Option.some.inj h) (by decide))
          fun h => absurd (Option.some.inj h) (by decide)
      · rw [if_neg hback, if_neg hquote]
        rfl
  induction t with
  | nil => exact Xml.normalizeLines_cons (by decide) r
  | cons c t ih =>
    rw [List.flatMap_cons, List.append_assoc]
    by_cases hc : c = .carriageReturn
    · have hcode : literalCode c = [c] := by rw [hc]; rfl
      rw [hcode, hc, List.singleton_append, Xml.normalizeLines_return, Xml.normalizeLines_return, ih]
      by_cases ht : t.head? = some .lineFeed
      · rw [if_pos ((hfeed t).2 ht), if_pos ht]
      · rw [if_neg (fun h => ht ((hfeed t).1 h)), if_neg ht]
        rfl
    · have hcode : .carriageReturn ∉ literalCode c := by
        unfold literalCode
        split
        · decide
        split
        · decide
        · rw [List.mem_singleton]
          exact Ne.symm hc
      rw [Xml.normalizeLines_append_of_notMem hcode, Xml.normalizeLines_cons hc, ih,
        List.flatMap_cons, List.append_assoc]

theorem normalizeLines_predicate (c : Condition) (r : Text) :
    Xml.normalizeLines (predicate c ++ r) = predicate c.endLines ++ Xml.normalizeLines r := by
  have hfirst : .carriageReturn ∉ Text.ofString "vars:" := by decide
  have hword : .carriageReturn ∉ c.comparison.word := by cases c.comparison <;> decide
  have hargument : .carriageReturn ∉ argument := by decide
  have hlast : .carriageReturn ∉ Text.ofString ")" := by decide
  rw [predicate_append, predicate_append, Xml.normalizeLines_append_of_notMem hfirst,
    Xml.normalizeLines_append_of_notMem hword, Xml.normalizeLines_append_of_notMem hargument,
    normalizeLines_quoted, Xml.normalizeLines_append_of_notMem hlast]
  rfl

/-- Ending the lines of a condition ends those of its literals. -/
theorem normalizeLines_condition (cs : List Condition) :
    Xml.normalizeLines (condition cs) = condition (cs.map Condition.endLines) := by
  have hopen : .carriageReturn ∉ Text.ofString "$\x7b" := by decide
  have hclose : .carriageReturn ∉ Text.ofString "\x7d" := by decide
  have hsign : ∀ j, .carriageReturn ∉ joinSign j := by
    intro j
    cases j <;> decide
  have hrest : ∀ (ds : List Condition) (r : Text),
      Xml.normalizeLines ((ds.flatMap fun d => joinSign d.join ++ predicate d) ++ r) =
        ((ds.map Condition.endLines).flatMap fun d => joinSign d.join ++ predicate d) ++
          Xml.normalizeLines r := by
    intro ds r
    induction ds with
    | nil => rfl
    | cons d ds ih =>
      rw [List.flatMap_cons, List.append_assoc, List.append_assoc,
        Xml.normalizeLines_append_of_notMem (hsign _), normalizeLines_predicate, ih, List.map_cons,
        List.flatMap_cons, List.append_assoc, List.append_assoc]
      rfl
  cases cs with
  | nil => rfl
  | cons c rest =>
    rw [condition, enclosed, List.append_assoc, List.append_assoc,
      Xml.normalizeLines_append_of_notMem hopen, normalizeLines_predicate, hrest,
      Xml.normalizeLines_eq_self hclose, List.map_cons, condition, enclosed, List.append_assoc,
      List.append_assoc]

/-- Ending the lines of a condition changes it unless it changes none of its literals. -/
theorem normalizeLines_condition_eq_self_iff {cs : List Condition} :
    Xml.normalizeLines (condition cs) = condition cs ↔
      ∀ c ∈ cs, .carriageReturn ∉ c.outcome := by
  rw [normalizeLines_condition]
  constructor
  · -- what is read from the two conditions has the literals of one and of the other
    intro h c hc
    have hread := congrArg read? h
    rw [read?_condition, read?_condition] at hread
    have hliterals := congrArg (List.map Test.literal) (Option.some.inj hread)
    rw [map_literal_tests, map_literal_tests, List.map_map, List.map_inj_left] at hliterals
    exact Xml.normalizeLines_eq_self_iff.1 (hliterals c hc)
  · intro h
    have hsame : cs.map Condition.endLines = cs.map id := List.map_congr_left fun c hc => by
      rw [Condition.endLines, Xml.normalizeLines_eq_self (h c hc)]
      rfl
    rw [hsame, List.map_id]

end Expression

end CasePlan
