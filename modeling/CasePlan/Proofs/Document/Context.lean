import CasePlan.Compilation
import CasePlan.Proofs.Sentry.Representation

/-!
# What documents are made from

Before a document is written its case is laid out and routed and its identifiers are compared.
What the pieces of a document rely on is `Context.Routed`, and with different identifiers
`Context.Sound`.

* `firstShared_eq_none_iff`: the comparison finds nothing exactly if the listed identifiers differ.
* `routed_of_route`: a layout that is routed can be relied on.
* `sound_of_prepare`: whatever is prepared from a consistent description is sound;
  `exists_prepare`: nothing but the comparison of identifiers keeps it from being prepared.
* `Routed.guardedBy`: the sentries that are found for a node are the node's.
* `Case.make_eq_ok_iff`: the cases that are made.
* `compile_eq_ok_iff`: a case is compiled exactly if it is prepared and its texts are settled;
  `exists_compile` says so of single cases.
-/

namespace CasePlan

/-! ## The comparison of identifiers -/

namespace Identifier

theorem firstShared_eq_none_iff {before entries : List (Text × Text)} :
    firstShared before entries = none ↔
      (entries.map Prod.fst).Nodup ∧ ∀ id ∈ entries.map Prod.fst, id ∉ before.map Prod.fst := by
  induction entries generalizing before with
  | nil => simp [firstShared]
  | cons entry rest ih =>
    obtain ⟨id, owner⟩ := entry
    rw [firstShared]
    cases h : Table.get? id before with
    | some earlier =>
      have hmem : id ∈ before.map Prod.fst := by
        by_contra hn
        rw [Table.get?_eq_none_iff.2 hn] at h
        exact absurd h (by simp)
      simp only [reduceCtorEq, List.map_cons, List.mem_cons, forall_eq_or_imp, false_iff]
      exact fun hall => hall.2.1 hmem
    | none =>
      have hmem := Table.get?_eq_none_iff.1 h
      simp only [ih, List.map_cons, List.nodup_cons, List.mem_cons, forall_eq_or_imp, not_or]
      constructor
      · rintro ⟨hnd, hall⟩
        exact ⟨⟨fun hid => (hall id hid).1 rfl, hnd⟩, hmem, fun x hx => (hall x hx).2⟩
      · rintro ⟨⟨hid, hnd⟩, -, hall⟩
        exact ⟨hnd, fun x hx => ⟨fun e => hid (e ▸ hx), hall x hx⟩⟩

theorem check_eq_ok_iff {logic : Logic} {c : Case} :
    check logic c = .ok () ↔ ((listed logic c).map Prod.fst).Nodup := by
  unfold check
  cases h : firstShared [] (listed logic c) with
  | none => simpa using (firstShared_eq_none_iff.1 h).1
  | some r =>
    simp only [reduceCtorEq, false_iff]
    intro hnd
    rw [firstShared_eq_none_iff.2 ⟨hnd, by simp⟩] at h
    exact absurd h (by simp)

end Identifier

/-! ## Prepared cases -/

namespace Document

variable {α : Type} [Coordinate α]

/-- A consistent description that is laid out and routed, which is all that the pieces of a document
are found by. -/
structure Context.Routed (c : Context α) : Prop where
  /-- The description is consistent. -/
  logic : c.logic.Consistent
  /-- The diagram shows it. -/
  diagram : c.diagram.Depicts c.logic
  /-- Every node has its sentries. -/
  sentries : List.Forall₂
    (fun n entry => entry.1 = n.slug ∧ n.GuardedBy c.logic c.diagram entry.2)
    c.diagram.inOrder c.sentries

/-- What a document relies on as a whole. -/
structure Context.Sound (c : Context α) : Prop extends c.Routed where
  /-- The identifiers made of names are different. -/
  ids : ((Identifier.listed c.logic c.case).map Prod.fst).Nodup

namespace Context.Routed

variable {c : Context α}

theorem nodup_keys (hs : c.Routed) : (c.sentries.map Prod.fst).Nodup := by
  have hkeys : c.sentries.map Prod.fst = c.diagram.inOrder.map (·.slug) := by
    have h := hs.sentries
    generalize c.diagram.inOrder = ns, c.sentries = entries at h
    induction h with
    | nil => rfl
    | cons h _ ih => rw [List.map_cons, List.map_cons, ih, h.1]
  rw [hkeys]
  exact hs.diagram.nodup_inOrder hs.logic

theorem forall₂_sentriesOf (hs : c.Routed) :
    List.Forall₂ (fun n entry => c.sentriesOf n = entry.2 ∧
      n.GuardedBy c.logic c.diagram (c.sentriesOf n)) c.diagram.inOrder c.sentries := by
  refine forall₂_imp_of_mem hs.sentries fun n entry hentry h => ?_
  have hget : c.sentriesOf n = entry.2 := by
    rw [sentriesOf, ← h.1, Table.get?_eq_some_of_mem hs.nodup_keys hentry]
    rfl
  rw [hget]
  exact ⟨rfl, h.2⟩

/-- The sentries found for the nodes, in order, are all sentries. -/
theorem map_sentriesOf (hs : c.Routed) :
    c.diagram.inOrder.map c.sentriesOf = c.sentries.map Prod.snd := by
  have h := hs.forall₂_sentriesOf
  generalize c.diagram.inOrder = ns, c.sentries = entries at h
  induction h with
  | nil => rfl
  | cons h _ ih => rw [List.map_cons, List.map_cons, ih, h.1]

/-- The sentries found for a node are the node's. -/
theorem guardedBy (hs : c.Routed) {n : Node α} (hn : n ∈ c.diagram.inOrder) :
    n.GuardedBy c.logic c.diagram (c.sentriesOf n) := by
  obtain ⟨entry, -, -, h⟩ := exists_mem_left_of_forall₂ hs.forall₂_sentriesOf.flip hn
  exact h

end Context.Routed

end Document

/-- A consistent description that is laid out and routed, for any case. -/
theorem routed_of_route {config : Config} (case : Case) {logic : Logic} {d : Diagram Rat}
    {sentries : List (Text × List (Sentry Rat))} (hc : logic.Consistent)
    (hlaid : layOut config.layoutMode logic = .ok d) (hrouted : route logic d = .ok sentries) :
    Document.Context.Routed { logic, diagram := d, sentries, case := case, config } := by
  rw [Layout.layOut_eq_ok hc] at hlaid
  obtain rfl := Except.ok.inj hlaid
  have hdepicts := Layout.depicts_diagram config.layoutMode logic
  obtain ⟨routed, hrouted', hall⟩ := route_represents hdepicts hc
  rw [hrouted] at hrouted'
  obtain rfl := Except.ok.inj hrouted'
  exact ⟨hc, hdepicts, hall⟩

/-- What is prepared from a consistent description is sound. -/
theorem sound_of_prepare {config : Config} {case : Case} {logic : Logic}
    {c : Document.Context Rat} (hc : logic.Consistent) (h : prepare config case logic = .ok c) :
    c.Sound ∧ c.logic = logic ∧ c.case = case ∧ c.config = config := by
  obtain ⟨⟨⟩, hids, h⟩ := bind_eq_ok_iff.1 h
  obtain ⟨d, hd, h⟩ := bind_eq_ok_iff.1 h
  obtain ⟨sentries, hsentries, h⟩ := bind_eq_ok_iff.1 h
  obtain rfl := pure_eq_ok_iff.1 h
  have hs := routed_of_route case hc (mapError_eq_ok_iff.1 hd)
    (mapError_eq_ok_iff.1 hsentries)
  exact ⟨⟨hs, Identifier.check_eq_ok_iff.1 (mapError_eq_ok_iff.1 hids)⟩, rfl, rfl, rfl⟩

/-- A case whose listed identifiers differ is laid out and routed. -/
theorem exists_prepare (config : Config) {case : Case} {logic : Logic} (hc : logic.Consistent)
    (hids : Identifier.check logic case = .ok ()) :
    ∃ c, prepare config case logic = .ok c ∧ layOut config.layoutMode logic = .ok c.diagram ∧
      route logic c.diagram = .ok c.sentries := by
  have hlaid := Layout.layOut_eq_ok hc config.layoutMode
  obtain ⟨routed, hrouted, -⟩ :=
    route_represents (Layout.depicts_diagram config.layoutMode logic) hc
  refine ⟨{ logic, diagram := _, sentries := routed, case := case, config }, ?_, hlaid, hrouted⟩
  exact bind_eq_ok_iff.2 ⟨(), mapError_eq_ok_iff.2 hids,
    bind_eq_ok_iff.2 ⟨_, mapError_eq_ok_iff.2 hlaid,
      bind_eq_ok_iff.2 ⟨routed, mapError_eq_ok_iff.2 hrouted, rfl⟩⟩⟩

/-- A case is made of a name that is accepted and of the application. -/
theorem Case.make_eq_ok_iff {name : Json} {application : Except CompileError Application}
    {case : Case} :
    Case.make name application = .ok case ↔
      name = .str case.name ∧ application = .ok case.application ∧ isCaseName case.name = true := by
  unfold Case.make
  constructor
  · intro h
    split at h
    · split at h
      · next text hname =>
        obtain ⟨a, ha, rfl⟩ := map_eq_ok_iff.1 h
        exact ⟨rfl, ha, hname⟩
      · simp at h
    · simp at h
  · rintro ⟨rfl, rfl, hname⟩
    simp only [if_pos hname]
    rfl

/-- A case is compiled exactly if it is prepared and the texts of its document are settled. -/
theorem compile_eq_ok_iff {config : Config} {case? : Except CompileError Case}
    {description : Except ParseError Logic} {compiled : Compiled} :
    compile config case? description = .ok compiled ↔
      ∃ case logic c t, case? = .ok case ∧ description = .ok logic ∧
        prepare config case logic = .ok c ∧ c.logic.unknownApprover? = none ∧
        Document.tree c = .ok t ∧
        compiled = ⟨c.logic, c.diagram, c.sentries, Document.render c.config.prettyPrint t⟩ := by
  have hemit : ∀ c : Document.Context Rat, Compiled.ofContext c = .ok compiled ↔
      ∃ t, c.logic.unknownApprover? = none ∧ Document.tree c = .ok t ∧
        compiled = ⟨c.logic, c.diagram, c.sentries, Document.render c.config.prettyPrint t⟩ := by
    intro c
    unfold Compiled.ofContext Document.emit
    cases c.logic.unknownApprover? with
    | some slug => simp
    | none =>
      cases Document.tree c with
      | error e => simp [Except.map]
      | ok t =>
        simp only [Except.map, Except.ok.injEq, true_and, exists_eq_left']
        exact eq_comm
  unfold compile compileLogic
  simp only [bind_eq_ok_iff, mapError_eq_ok_iff, hemit]
  constructor
  · rintro ⟨case, hcase, logic, hlogic, c, hc, t, h⟩
    exact ⟨case, logic, c, t, hcase, hlogic, hc, h⟩
  · rintro ⟨case, logic, c, t, hcase, hlogic, hc, h⟩
    exact ⟨case, hcase, logic, hlogic, c, hc, t, h⟩

/-- A case is compiled if its document can be seen to be written. -/
theorem exists_compile (config : Config) {case? : Except CompileError Case} {case : Case}
    {raw : Json} {logic : Logic} (hcase : case? = .ok case) (hlogic : Logic.parse raw = .ok logic)
    (h : ((prepare config case logic).toOption.bind fun c => (Document.tree c).toOption).isSome) :
    ∃ compiled, compile config case? (Logic.parse raw) = .ok compiled := by
  have hconsistent := consistent_of_parse hlogic
  obtain ⟨t, ht⟩ := Option.isSome_iff_exists.1 h
  obtain ⟨c, hc, ht⟩ := Option.bind_eq_some_iff.1 ht
  rw [toOption_eq_some_iff] at hc ht
  have happrover : c.logic.unknownApprover? = none := by
    rw [(sound_of_prepare hconsistent hc).2.1]
    exact hconsistent.unknownApprover?_eq_none
  exact ⟨_, compile_eq_ok_iff.2 ⟨case, logic, c, t, hcase, hlogic, hc, happrover, ht, rfl⟩⟩

/-- The sample is compiled. -/
theorem compile_sample : ∃ compiled,
    compile {} (Case.make (.str "review") (.ok { identifier := "app" }))
      (Logic.parse Logic.sampleValue) = .ok compiled := by
  have hmake : Case.make (.str "review") (.ok { identifier := "app" }) =
      .ok ⟨"review", { identifier := "app" }⟩ := by rfl
  exact exists_compile {} hmake Logic.parse_sampleValue (by decide +kernel)

end CasePlan
