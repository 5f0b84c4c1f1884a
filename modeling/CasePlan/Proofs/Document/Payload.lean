import CasePlan.Outcome
import CasePlan.Proofs.Logic.Entries
import CasePlan.Proofs.Json.Printable
import CasePlan.Proofs.Text.Carried

/-!
# What the sections of a document carry

The rules for the outcomes of a task are handed over as JSON in a CDATA section, conditions as
expressions.

* `readRules?_write`: the rules are read back as they were.
* `all_write`: they are printable ASCII.
* `not_isInfix_write`, `not_isInfix_condition`, `not_isInfix_repetition`: no end mark of a section
  stands in any of them, unless one stands in an outcome.
* `isXmlText_write`, `isXmlText_condition`, `isXmlText_repetition`: XML can carry them.
-/

namespace CasePlan.Outcome

/-! ## Reading back -/

theorem all_status (o : Text) : ∀ c ∈ status o, Utf8.isSurrogate c = false := by
  have hall : ∀ entry ∈ statusTable, entry.2.all (fun c => !Utf8.isSurrogate c) = true := by
    intro entry h
    simp only [statusTable, List.mem_cons, List.not_mem_nil, or_false] at h
    rcases h with rfl | rfl | rfl | rfl | rfl <;> rfl
  have hstatus : (status o).all (fun c => !Utf8.isSurrogate c) = true := by
    unfold status
    cases h : Table.get? o.lower statusTable with
    | none => rfl
    | some t => exact hall _ (Table.mem_of_get?_eq_some h)
  intro c hc
  simpa using List.all_eq_true.1 hstatus c hc

/-- Texts without surrogates. -/
def AreScalar (outcomes : List Text) : Prop :=
  ∀ o ∈ outcomes, ∀ c ∈ o, Utf8.isSurrogate c = false

theorem isExact_rule {o : Text} (h : ∀ c ∈ o, Utf8.isSurrogate c = false) : (rule o).IsExact := by
  have hkey : ∀ t ∈ [("key" : Text), "value", "op", "eq", "conditions", "output",
      Expression.outcomeVariable, Expression.statusVariable],
      ∀ c ∈ t, Utf8.isSurrogate c = false := by
    intro t ht
    have hall : t.all (fun c => !Utf8.isSurrogate c) = true := by
      simp only [List.mem_cons, List.not_mem_nil, or_false] at ht
      rcases ht with rfl | rfl | rfl | rfl | rfl | rfl | rfl | rfl <;> rfl
    intro c hc
    simpa using List.all_eq_true.1 hall c hc
  simp only [List.forall_mem_cons] at hkey
  obtain ⟨key, value, op, eq, conditions, output, outcome, status, -⟩ := hkey
  unfold rule
  simp only [Json.IsExact, Json.AreExact, Json.MembersAreExact]
  have houter : (["conditions", "output"] : List Text).Nodup := by decide
  have hcondition : (["key", "value", "op"] : List Text).Nodup := by decide
  have houtput : (["key", "value"] : List Text).Nodup := by decide
  exact ⟨houter, conditions, ⟨⟨hcondition, key, outcome, value, h, op, eq, trivial⟩, trivial⟩,
    output, ⟨⟨houtput, key, status, value, all_status o, trivial⟩, trivial⟩, trivial⟩

theorem isExact_rules {outcomes : List Text} (h : AreScalar outcomes) :
    (rules outcomes).IsExact := by
  unfold rules
  rw [Json.IsExact]
  induction outcomes with
  | nil => trivial
  | cons o outcomes ih =>
    exact ⟨isExact_rule (h o (by simp)), ih fun p hp => h p (by simp [hp])⟩

theorem all_write {outcomes : List Text} (h : AreScalar outcomes) :
    (write outcomes).all Json.isPrintable = true :=
  Json.all_write (isExact_rules h)

theorem isXmlText_write {outcomes : List Text} (h : AreScalar outcomes) :
    (write outcomes).isXmlText = true := by
  rw [Text.isXmlText, List.all_eq_true]
  intro c hc
  have hprintable := List.all_eq_true.1 (all_write h) c hc
  simp only [Json.isPrintable, Bool.and_eq_true, decide_eq_true_eq] at hprintable
  simp only [Text.isXmlChar, Bool.or_eq_true, Bool.and_eq_true, decide_eq_true_eq, beq_iff_eq]
  omega

/-- The rules begin and end with a bracket. -/
theorem strip_write (outcomes : List Text) : (write outcomes).strip = write outcomes := by
  have hform : ∃ t : Text, write outcomes = CodePoint.ofChar '[' :: t ++ [CodePoint.ofChar ']'] := by
    unfold write rules Json.write
    cases outcomes with
    | nil => exact ⟨[], rfl⟩
    | cons o outcomes =>
      have h := Json.writeAt_arr_append .compact 0 (rule o) (outcomes.map rule) []
      rw [List.append_nil] at h
      exact ⟨Json.writeItems .compact 1 (rule o :: outcomes.map rule), h⟩
  obtain ⟨t, ht⟩ := hform
  rw [ht]
  refine Text.strip_eq_self ?_ ?_
  · intro c hc
    obtain rfl := Option.some.inj hc
    decide
  · intro c hc
    rw [List.getLast?_append] at hc
    obtain rfl := Option.some.inj hc
    decide

/-- What is written for some outcomes is read as their rules. -/
theorem readRules?_write {outcomes : List Text} (h : AreScalar outcomes) :
    readRules? (write outcomes).strip = some (outcomes.map rule) := by
  rw [strip_write, readRules?, write, Json.read_write (isExact_rules h)]
  rfl

/-! ## End marks -/

/-- A code point that end marks do not hold, after a backslash. -/
theorem notMem_escaped (d : CodePoint) (hd : d ∉ Validation.sectionEnd) :
    ∀ e ∈ [CodePoint.ofChar '\\', d], e ∉ Validation.sectionEnd := by
  simp only [List.forall_mem_cons, List.not_mem_nil, false_implies, implies_true, and_true]
  exact ⟨by decide, hd⟩

theorem spares_writeCode : Text.Spares Validation.sectionEnd Json.writeCode := by
  have hbracket : CodePoint.ofChar ']' ∉ Json.escapeCodes := by decide
  have hgreater : CodePoint.ofChar '>' ∉ Json.escapeCodes := by decide
  have hmarks : ∀ d ∈ Validation.sectionEnd, d ∉ Json.escapeCodes :=
    List.forall_mem_cons.2 ⟨hbracket, List.forall_mem_cons.2
      ⟨hbracket, List.forall_mem_singleton.2 hgreater⟩⟩
  intro c
  rcases Json.isWritten_writeCode c with ⟨-, hself⟩ | ⟨hne, hescape⟩
  · exact .inl hself
  · exact .inr ⟨hne, fun d hd hmark => hmarks d hmark (hescape d hd)⟩

/-- A written text, in front of anything: end marks stand inside it or behind it. -/
theorem isInfix_writeText_append {t r : Text}
    (h : Validation.sectionEnd <:+: Json.writeText t ++ r) :
    Validation.sectionEnd <:+: t ∨ Validation.sectionEnd <:+: r := by
  rw [Json.writeText, List.append_assoc, List.cons_append] at h
  exact Text.isInfix_quoted_append (by decide) (by decide) spares_writeCode h

/-- What a rule is written as: its outcome and its status between fixed texts. -/
theorem writeAt_rule (depth : Nat) (o r : Text) :
    Json.writeAt .compact depth (rule o) ++ r =
      "\x7b\"conditions\":[\x7b\"key\":\"_outcome\",\"value\":" ++ (Json.writeText o ++
        (",\"op\":\"eq\"\x7d],\"output\":[\x7b\"key\":\"_status\",\"value\":" ++
          (Json.writeText (status o) ++ ("\x7d]\x7d" ++ r)))) := by
  unfold rule
  simp only [Json.writeAt, Json.writeMembers, Json.writeItems, Json.Style.compact,
    List.append_assoc, List.nil_append]
  rfl

theorem isInfix_rule_append {depth : Nat} {o r : Text}
    (ho : ¬Validation.sectionEnd <:+: o)
    (h : Validation.sectionEnd <:+: Json.writeAt .compact depth (rule o) ++ r) :
    Validation.sectionEnd <:+: r := by
  have hgreater : CodePoint.ofChar '>' ∈ Validation.sectionEnd := by decide
  have hstatus : CodePoint.ofChar '>' ∉ status o := by
    unfold status
    cases h : Table.get? o.lower statusTable with
    | none => decide
    | some t =>
      have hall : ∀ entry ∈ statusTable, CodePoint.ofChar '>' ∉ entry.2 := by decide
      exact hall _ (Table.mem_of_get?_eq_some h)
  rw [writeAt_rule] at h
  have h := Text.isInfix_of_append hgreater (by decide) rfl (by decide) h
  rcases isInfix_writeText_append h with h | h
  · exact absurd h ho
  have h := Text.isInfix_of_append hgreater (by decide) rfl (by decide) h
  rcases isInfix_writeText_append h with h | h
  · exact absurd h (Text.not_isInfix_of_notMem hgreater hstatus)
  · exact Text.isInfix_of_append hgreater (by decide) rfl (by decide) h

/-- The rules for outcomes without end marks have none. -/
theorem not_isInfix_write {outcomes : List Text}
    (h : ∀ o ∈ outcomes, ¬Validation.sectionEnd <:+: o) :
    ¬Validation.sectionEnd <:+: write outcomes := by
  have hgreater : CodePoint.ofChar '>' ∈ Validation.sectionEnd := by decide
  have hbracket : ¬Validation.sectionEnd <:+: [CodePoint.ofChar ']'] :=
    Text.not_isInfix_of_notMem hgreater (by decide)
  have hitems : ∀ {outcomes : List Text}, (∀ o ∈ outcomes, ¬Validation.sectionEnd <:+: o) →
      ¬Validation.sectionEnd <:+:
        Json.writeItems .compact 1 (outcomes.map rule) ++ [CodePoint.ofChar ']'] := by
    intro outcomes h
    induction outcomes with
    | nil => exact hbracket
    | cons o outcomes ih =>
      have ho := h o (by simp)
      have hrest := ih fun p hp => h p (by simp [hp])
      cases outcomes with
      | nil => exact fun hfound => hbracket (isInfix_rule_append ho hfound)
      | cons p outcomes =>
        intro hfound
        have hform : Json.writeItems .compact 1 ((o :: p :: outcomes).map rule) =
            Json.writeAt .compact 1 (rule o) ++ (CodePoint.ofChar ',' ::
              Json.writeItems .compact 1 ((p :: outcomes).map rule)) := by
          rw [List.map_cons, List.map_cons, Json.writeItems, List.append_assoc]
          · rfl
          · simp
        rw [hform, List.append_assoc] at hfound
        have hfound := isInfix_rule_append ho hfound
        rcases (Text.isInfix_append_cons_iff (s := []) (by decide)).1 hfound with hfound | hfound
        · exact absurd hfound (Text.not_isInfix_of_notMem hgreater (by simp))
        · exact hrest hfound
  unfold write rules Json.write
  cases outcomes with
  | nil => exact Text.not_isInfix_of_notMem hgreater (by decide)
  | cons o outcomes =>
    have hform := Json.writeAt_arr_append .compact 0 (rule o) (outcomes.map rule) []
    rw [List.append_nil] at hform
    rw [List.map_cons, hform]
    intro hfound
    rcases (Text.isInfix_append_cons_iff (s := []) (by decide)).1 hfound with hfound | hfound
    · exact absurd hfound (Text.not_isInfix_of_notMem hgreater (by simp))
    · exact hitems h hfound

end CasePlan.Outcome

namespace CasePlan.Expression

open Validation (sectionEnd)

theorem spares_literalCode : Text.Spares sectionEnd literalCode := by
  intro c
  unfold literalCode
  split
  · exact .inr ⟨by decide, Outcome.notMem_escaped (.ofChar '\\') (by decide)⟩
  split
  · exact .inr ⟨by decide, Outcome.notMem_escaped (.ofChar '"') (by decide)⟩
  · exact .inl rfl

theorem isInfix_predicate_append {c : Condition} {r : Text} (hc : ¬sectionEnd <:+: c.outcome)
    (h : sectionEnd <:+: predicate c ++ r) : sectionEnd <:+: r := by
  have hgreater : CodePoint.ofChar '>' ∈ sectionEnd := by decide
  have hform : predicate c ++ r =
      ("vars:" ++ c.comparison.word ++ "(" ++ outcomeVariable ++ "," : Text) ++
        (.quotationMark :: (c.outcome.flatMap literalCode ++
          .quotationMark :: ((")" : Text) ++ r))) := by
    simp only [predicate, literal, List.append_assoc, List.cons_append, List.nil_append]
  have hfront : CodePoint.ofChar '>' ∉
      ("vars:" ++ c.comparison.word ++ "(" ++ outcomeVariable ++ "," : Text) := by
    have hword : CodePoint.ofChar '>' ∉ c.comparison.word := by
      cases c.comparison <;> decide
    simp only [List.mem_append, not_or]
    exact ⟨⟨⟨⟨by decide, hword⟩, by decide⟩, by decide⟩, by decide⟩
  have hlast : ("vars:" ++ c.comparison.word ++ "(" ++ outcomeVariable ++ "," : Text).getLast? =
      some (CodePoint.ofChar ',') := by
    rw [List.getLast?_append]
    rfl
  rw [hform] at h
  have hquoted := Text.isInfix_of_append hgreater hfront hlast (by decide) h
  rcases Text.isInfix_quoted_append (by decide) (by decide) spares_literalCode hquoted with h | h
  · exact absurd h hc
  · exact Text.isInfix_of_append hgreater (by decide) rfl (by decide) h

/-- Conditions on outcomes without end marks have none. -/
theorem not_isInfix_condition {cs : List Condition} (h : ∀ c ∈ cs, ¬sectionEnd <:+: c.outcome) :
    ¬sectionEnd <:+: condition cs := by
  have hgreater : CodePoint.ofChar '>' ∈ sectionEnd := by decide
  have hjoined : ∀ {ds : List Condition}, (∀ d ∈ ds, ¬sectionEnd <:+: d.outcome) →
      ¬sectionEnd <:+:
        ((ds.flatMap fun d => joinSign d.join ++ predicate d) ++ ("\x7d" : Text) : Text) := by
    intro ds hds
    induction ds with
    | nil => exact Text.not_isInfix_of_notMem hgreater (by decide)
    | cons d ds ih =>
      rw [List.flatMap_cons, List.append_assoc, List.append_assoc]
      intro hfound
      have hsign : sectionEnd <:+: predicate d ++
          ((ds.flatMap fun d => joinSign d.join ++ predicate d) ++ ("\x7d" : Text) : Text) := by
        cases hd : d.join with
        | both =>
          rw [hd] at hfound
          exact Text.isInfix_of_append hgreater (by decide) rfl (by decide) hfound
        | either =>
          rw [hd] at hfound
          exact Text.isInfix_of_append hgreater (by decide) rfl (by decide) hfound
      exact ih (fun e he => hds e (by simp [he])) (isInfix_predicate_append (hds d (by simp)) hsign)
  cases cs with
  | nil => exact Text.not_isInfix_of_notMem hgreater (by decide)
  | cons c cs =>
    intro hfound
    rw [condition, enclosed, List.append_assoc, List.append_assoc] at hfound
    have hfound := Text.isInfix_of_append hgreater (by decide) rfl (by decide) hfound
    exact hjoined (fun d hd => h d (by simp [hd])) (isInfix_predicate_append (h c (by simp)) hfound)

theorem not_isInfix_repetition (limit : Int) : ¬sectionEnd <:+: repetition limit := by
  have hgreater : CodePoint.ofChar '>' ∈ sectionEnd := by decide
  have hnat : ∀ n : Nat, CodePoint.ofChar '>' ∉ Text.ofNat n := fun n hmem =>
    absurd (Text.isDigit_of_mem_ofNat hmem).2 (by decide)
  have hint : CodePoint.ofChar '>' ∉ Text.ofInt limit := by
    cases limit with
    | ofNat n => exact hnat n
    | negSucc n =>
      rw [Text.ofInt, List.mem_cons, not_or]
      exact ⟨by decide, hnat (n + 1)⟩
  refine Text.not_isInfix_of_notMem hgreater ?_
  rw [repetition, enclosed]
  simp only [List.mem_append, not_or]
  exact ⟨⟨by decide, ⟨by decide, by decide⟩, hint⟩, by decide⟩

/-! ## What XML can carry -/

theorem isXmlText_literal {t : Text} (h : t.isXmlText = true) : (literal t).isXmlText = true := by
  have hcode : ∀ c, Text.isXmlChar c = true → (literalCode c).isXmlText = true := fun c hc =>
    Text.isXmlText_ite (by decide)
      (Text.isXmlText_ite (by decide) (Text.isXmlText_cons.2 ⟨hc, rfl⟩))
  rw [literal, List.cons_append, Text.isXmlText_cons, Text.isXmlText_append]
  exact ⟨by decide, Text.isXmlText_flatMap hcode h, by decide⟩

theorem isXmlText_predicate {c : Condition} (h : c.outcome.isXmlText = true) :
    (predicate c).isXmlText = true := by
  have hword : c.comparison.word.isXmlText = true := by cases c.comparison <;> decide
  simp only [predicate, Text.isXmlText_append]
  exact ⟨⟨⟨⟨⟨⟨by decide, hword⟩, by decide⟩, by decide⟩, by decide⟩, isXmlText_literal h⟩,
    by decide⟩

theorem isXmlText_enclosed {t : Text} (h : t.isXmlText = true) : (enclosed t).isXmlText = true := by
  simp only [enclosed, Text.isXmlText_append]
  exact ⟨⟨by decide, h⟩, by decide⟩

theorem isXmlText_condition {cs : List Condition} (h : ∀ c ∈ cs, c.outcome.isXmlText = true) :
    (condition cs).isXmlText = true := by
  cases cs with
  | nil => rfl
  | cons c cs =>
    rw [List.forall_mem_cons] at h
    refine isXmlText_enclosed (Text.isXmlText_append.2 ⟨isXmlText_predicate h.1, ?_⟩)
    rw [Text.isXmlText, List.all_flatMap, List.all_eq_true]
    intro d hd
    have hsign : (joinSign d.join).isXmlText = true := by cases d.join <;> decide
    exact Text.isXmlText_append.2 ⟨hsign, isXmlText_predicate (h.2 d hd)⟩

theorem isXmlText_repetition (limit : Int) : (repetition limit).isXmlText = true :=
  isXmlText_enclosed (Text.isXmlText_append.2 ⟨by decide, Text.isXmlText_ofInt limit⟩)

end CasePlan.Expression
