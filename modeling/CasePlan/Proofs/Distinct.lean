import Mathlib.Data.List.Induction
import Mathlib.Data.List.Nodup

/-!
# Lists without repetition

`eraseDups` keeps the first of equal items, `eraseDupsBy` the first of those with equal keys.

* `nodup_eraseDups`, `eraseDups_eq_self`: what is kept is distinct, and distinct items are kept.
* `idxOf_le_of_getElem?`, `idxOf?_eq_some_iff_getElem?`: where an item comes first.
* `pairwise_idxOf_eraseDups`: what is kept stands in the order in which it comes first.
* `eraseDups_append_of_subset`: what was there before is not kept again.
* `eraseDupsBy_map`: items that are made from their keys.
* `filter_flatMap_eq`: groups under different keys, and the one under a key;
  `filter_eq_singleton`: items with different keys, and the one with a key.
-/

namespace CasePlan

variable {α κ : Type}

section

variable [BEq α] [LawfulBEq α]

theorem nodup_eraseDups : ∀ l : List α, l.eraseDups.Nodup
  | [] => List.nodup_nil
  | a :: l => by
    rw [List.eraseDups_cons, List.nodup_cons]
    refine ⟨fun h => ?_, nodup_eraseDups _⟩
    simpa using List.of_mem_filter (List.mem_eraseDups.1 h)
termination_by l => l.length
decreasing_by
  rw [List.length_cons]
  exact Nat.lt_succ_of_le (List.length_filter_le _ l)

theorem eraseDups_eq_self {l : List α} (h : l.Nodup) : l.eraseDups = l := by
  induction l with
  | nil => rfl
  | cons a l ih =>
    rw [List.nodup_cons] at h
    have hfilter : l.filter (fun b => !b == a) = l := by
      rw [List.filter_eq_self]
      intro b hb
      have hne : b ≠ a := fun e => h.1 (e ▸ hb)
      simpa using hne
    rw [List.eraseDups_cons, hfilter, ih h.2]

/-- An item comes first at the latest where it stands. -/
theorem idxOf_le_of_getElem? {l : List α} {i : Nat} {a : α} (h : l[i]? = some a) :
    l.idxOf a ≤ i := by
  by_contra hlt
  obtain ⟨hi, rfl⟩ := List.getElem?_eq_some_iff.1 h
  have hne := List.not_of_lt_findIdx (Nat.lt_of_not_le hlt)
  rw [beq_self_eq_true] at hne
  exact Bool.noConfusion hne

/-- An item is found where it stands and does not stand before. -/
theorem idxOf?_eq_some_iff_getElem? {l : List α} {i : Nat} {a : α} :
    l.idxOf? a = some i ↔ l[i]? = some a ∧ ∀ j < i, l[j]? ≠ some a := by
  rw [List.idxOf?_eq_some_iff]
  constructor
  · rintro ⟨hi, hget, hfirst⟩
    exact ⟨List.getElem?_eq_some_iff.2 ⟨hi, hget⟩,
      fun j hj h => hfirst j hj (List.getElem?_eq_some_iff.1 h).2⟩
  · rintro ⟨hget, hfirst⟩
    obtain ⟨hi, h⟩ := List.getElem?_eq_some_iff.1 hget
    exact ⟨hi, h, fun j hj h => hfirst j hj (List.getElem?_eq_some_iff.2 ⟨_, h⟩)⟩

/-- What was there before is not kept again. -/
theorem eraseDups_append_of_subset {l more : List α} (h : ∀ a ∈ more, a ∈ l) :
    (l ++ more).eraseDups = l.eraseDups := by
  have hnone : more.removeAll l = [] := by
    rw [List.removeAll, List.filter_eq_nil_iff]
    intro a ha
    simpa using h a ha
  rw [List.eraseDups_append, hnone, List.eraseDups_nil, List.append_nil]

/-- What is kept stands in the order in which it comes first. -/
theorem pairwise_idxOf_eraseDups (l : List α) :
    l.eraseDups.Pairwise fun a b => l.idxOf a < l.idxOf b := by
  -- an item at the end is kept only if it is new, and then it comes after all others
  induction l using List.reverseRecOn with
  | nil => exact .nil
  | append_singleton l a ih =>
    by_cases ha : a ∈ l
    · rw [eraseDups_append_of_subset (by simpa using ha)]
      refine ih.imp_of_mem fun hb hc h => ?_
      rwa [List.idxOf_append_of_mem (List.mem_eraseDups.1 hb),
        List.idxOf_append_of_mem (List.mem_eraseDups.1 hc)]
    · have hlast : [a].removeAll l = [a] := by
        simpa [List.removeAll] using ha
      rw [List.eraseDups_append, hlast, eraseDups_eq_self (List.nodup_singleton a),
        List.pairwise_append]
      refine ⟨ih.imp_of_mem fun hb hc h => ?_, List.pairwise_singleton _ _, fun b hb c hc => ?_⟩
      · rwa [List.idxOf_append_of_mem (List.mem_eraseDups.1 hb),
          List.idxOf_append_of_mem (List.mem_eraseDups.1 hc)]
      · obtain rfl := List.mem_singleton.1 hc
        have hb := List.mem_eraseDups.1 hb
        rw [List.idxOf_append_of_mem hb, List.idxOf_append_of_notMem ha]
        exact Nat.lt_of_lt_of_le (List.idxOf_lt_length_of_mem hb) (Nat.le_add_right ..)

end

/-- Items that are made from their keys are kept for the keys that are kept. -/
theorem eraseDupsBy_map [BEq κ] [LawfulBEq κ] {key : α → κ} {make : κ → α}
    (h : ∀ k, key (make k) = k) : ∀ ks : List κ,
      (ks.map make).eraseDupsBy (fun a b => key a == key b) = ks.eraseDups.map make
  | [] => rfl
  | k :: ks => by
    have hfilter : (ks.map make).filter (fun a => (key a == key (make k)) = false) =
        (ks.filter fun j => !j == k).map make := by
      rw [List.filter_map]
      refine congrArg _ (List.filter_congr fun j _ => ?_)
      rw [Function.comp_apply, h, h]
      cases j == k <;> rfl
    rw [List.map_cons, List.eraseDupsBy_cons, hfilter, eraseDupsBy_map h, List.eraseDups_cons,
      List.map_cons]
termination_by ks => ks.length
decreasing_by
  rw [List.length_cons]
  exact Nat.lt_succ_of_le (List.length_filter_le _ ks)

/-- Of groups under different keys, the items with a key are the group under it. -/
theorem filter_flatMap_eq [DecidableEq κ] {key : α → κ} {group : κ → List α}
    (h : ∀ k, ∀ a ∈ group k, key a = k) {ks : List κ} (hnd : ks.Nodup) (k : κ) :
    (ks.flatMap group).filter (fun a => key a = k) = if k ∈ ks then group k else [] := by
  have hown : ∀ j, (group j).filter (fun a => key a = k) = if j = k then group k else [] := by
    intro j
    split
    · next hj =>
      subst hj
      exact List.filter_eq_self.2 fun a ha => decide_eq_true (h j a ha)
    · next hj =>
      refine List.filter_eq_nil_iff.2 fun a ha => ?_
      rw [h j a ha]
      simpa using hj
  induction ks with
  | nil => rfl
  | cons j ks ih =>
    rw [List.nodup_cons] at hnd
    rw [List.flatMap_cons, List.filter_append, hown, ih hnd.2]
    by_cases hj : j = k
    · subst hj
      rw [if_pos rfl, if_neg hnd.1, if_pos List.mem_cons_self, List.append_nil]
    · simp only [if_neg hj, List.nil_append, List.mem_cons, Ne.symm hj, false_or]

/-- Of items with different keys, one alone has its key. -/
theorem filter_eq_singleton [DecidableEq κ] {key : α → κ} {l : List α} (hnd : (l.map key).Nodup)
    {a : α} (ha : a ∈ l) : l.filter (fun b => key b = key a) = [a] := by
  induction l with
  | nil => exact absurd ha List.not_mem_nil
  | cons b l ih =>
    rw [List.map_cons, List.nodup_cons] at hnd
    rcases List.mem_cons.1 ha with rfl | ha
    · rw [List.filter_cons_of_pos (by simp), List.filter_eq_nil_iff.2]
      intro c hc h
      exact hnd.1 (of_decide_eq_true h ▸ List.mem_map_of_mem hc)
    · have hne : key b ≠ key a := fun h => hnd.1 (h ▸ List.mem_map_of_mem ha)
      rw [List.filter_cons_of_neg (by simpa using hne), ih hnd.2 ha]

end CasePlan
