/-!
# Tables in insertion order

A table is a list of keys with their values.  Entering a value under a key that is already there
replaces the value and leaves the key at its place; a new key goes to the end.

* `Table.insert` and `Table.ofList` build tables, `Table.get?` looks a key up.
* `get?_insert_self`, `get?_insert_of_ne`, `get?_map`, `get?_append`: what is found after an
  insertion, after all values are replaced, and in two lists of entries.
* `keys_insert`, `nodup_keys_ofList`: where keys stand, and that each stands once.
* `get?_ofList`: under each key stands what was entered last.
* `ofList_eq_self`, `get?_eq_some_of_mem`, `last?_eq_some_of_mem`: entries with different keys are
  their own table, and each is found by its key.
-/

namespace CasePlan.Table

variable {κ : Type u} {α : Type v} {β : Type w} [DecidableEq κ]

/-- The value under a key. -/
def get? (key : κ) : List (κ × α) → Option α
  | [] => none
  | (k, a) :: rest => if k = key then some a else get? key rest

/-- Enters a value under a key. -/
def insert (key : κ) (value : α) : List (κ × α) → List (κ × α)
  | [] => [(key, value)]
  | (k, a) :: rest => if k = key then (k, value) :: rest else (k, a) :: insert key value rest

/-- The table of the entries, entered from first to last. -/
def ofList (entries : List (κ × α)) : List (κ × α) :=
  entries.foldl (fun table entry => insert entry.1 entry.2 table) []

/-- The value entered last under a key. -/
def last? (key : κ) (entries : List (κ × α)) : Option α := get? key entries.reverse

@[simp] theorem get?_insert_self (key : κ) (value : α) (table : List (κ × α)) :
    get? key (insert key value table) = some value := by
  induction table with
  | nil => simp [insert, get?]
  | cons entry rest ih =>
    obtain ⟨k, a⟩ := entry
    by_cases h : k = key <;> simp [insert, get?, h, ih]

theorem get?_insert_of_ne {key other : κ} (value : α) (table : List (κ × α)) (h : key ≠ other) :
    get? other (insert key value table) = get? other table := by
  induction table with
  | nil => simp [insert, get?, h]
  | cons entry rest ih =>
    obtain ⟨k, a⟩ := entry
    by_cases hk : k = key
    · subst hk
      simp [insert, get?, h]
    · simp [insert, get?, hk, ih]

theorem get?_eq_none_iff {key : κ} {table : List (κ × α)} :
    get? key table = none ↔ key ∉ table.map Prod.fst := by
  induction table with
  | nil => simp [get?]
  | cons entry rest ih =>
    obtain ⟨k, a⟩ := entry
    by_cases h : k = key
    · simp [get?, h]
    · simp [get?, h, Ne.symm h, ih]

/-- What is found in two tables one after the other. -/
theorem get?_append (key : κ) (table table' : List (κ × α)) :
    get? key (table ++ table') = (get? key table).or (get? key table') := by
  induction table with
  | nil => rfl
  | cons entry rest ih =>
    rw [List.cons_append, get?, get?, ih]
    split <;> rfl

/-- What is found after all values are replaced. -/
theorem get?_map (key : κ) (f : α → β) (table : List (κ × α)) :
    get? key (table.map fun entry => (entry.1, f entry.2)) = (get? key table).map f := by
  induction table with
  | nil => rfl
  | cons entry rest ih =>
    rw [List.map_cons, get?, get?, ih]
    split <;> rfl

/-- A new key goes to the end; the keys stay as they are otherwise. -/
theorem keys_insert (key : κ) (value : α) (table : List (κ × α)) :
    (insert key value table).map Prod.fst =
      if key ∈ table.map Prod.fst then table.map Prod.fst else table.map Prod.fst ++ [key] := by
  induction table with
  | nil => simp [insert]
  | cons entry rest ih =>
    obtain ⟨k, a⟩ := entry
    by_cases h : k = key
    · simp [insert, h]
    · simp only [insert, if_neg h, List.map_cons, ih, List.mem_cons, Ne.symm h, false_or]
      split <;> simp

theorem nodup_keys_insert {key : κ} {value : α} {table : List (κ × α)}
    (h : (table.map Prod.fst).Nodup) : ((insert key value table).map Prod.fst).Nodup := by
  rw [keys_insert]
  split
  · exact h
  · next hk => exact List.nodup_append.mpr ⟨h, by simp, fun a ha b hb => by
      rw [List.mem_singleton.mp hb]
      exact fun e => hk (e ▸ ha)⟩

/-- In the table of some entries every key stands once. -/
theorem nodup_keys_ofList (entries : List (κ × α)) : ((ofList entries).map Prod.fst).Nodup := by
  suffices h : ∀ table : List (κ × α), (table.map Prod.fst).Nodup →
      ((entries.foldl (fun t e => insert e.1 e.2 t) table).map Prod.fst).Nodup from
    h [] List.nodup_nil
  induction entries with
  | nil => exact fun _ h => h
  | cons entry rest ih => exact fun table h => ih _ (nodup_keys_insert h)

theorem last?_cons (key : κ) (entry : κ × α) (entries : List (κ × α)) :
    last? key (entry :: entries) = (last? key entries).or (get? key [entry]) := by
  rw [last?, List.reverse_cons, get?_append]
  rfl

theorem get?_insert (key other : κ) (value : α) (table : List (κ × α)) :
    get? other (insert key value table) = (get? other [(key, value)]).or (get? other table) := by
  by_cases h : key = other
  · rw [← h, get?_insert_self, get?, if_pos rfl]
    rfl
  · rw [get?_insert_of_ne value table h, get?, if_neg h]
    rfl

/-- In the table of some entries stands under each key what was entered last. -/
theorem get?_ofList (key : κ) (entries : List (κ × α)) :
    get? key (ofList entries) = last? key entries := by
  suffices h : ∀ table : List (κ × α), get? key (entries.foldl (fun t e => insert e.1 e.2 t) table) =
      (last? key entries).or (get? key table) from (h []).trans (Option.or_none)
  induction entries with
  | nil => exact fun _ => rfl
  | cons entry rest ih =>
    intro table
    rw [List.foldl_cons, ih, get?_insert, last?_cons, Option.or_assoc]

theorem mem_of_get?_eq_some {key : κ} {a : α} {table : List (κ × α)}
    (h : get? key table = some a) : (key, a) ∈ table := by
  induction table with
  | nil => simp [get?] at h
  | cons entry rest ih =>
    obtain ⟨k, b⟩ := entry
    rw [get?] at h
    by_cases hk : k = key
    · rw [if_pos hk] at h
      obtain rfl := Option.some.inj h
      rw [hk]
      exact List.mem_cons_self
    · rw [if_neg hk] at h
      exact List.mem_cons_of_mem _ (ih h)

theorem get?_eq_some_of_mem {table : List (κ × α)} (hnd : (table.map Prod.fst).Nodup)
    {entry : κ × α} (h : entry ∈ table) : get? entry.1 table = some entry.2 := by
  induction table with
  | nil => simp at h
  | cons first rest ih =>
    rw [List.map_cons, List.nodup_cons] at hnd
    rcases List.mem_cons.1 h with rfl | h
    · simp [get?]
    · have hne : first.1 ≠ entry.1 := fun e => hnd.1 (e ▸ List.mem_map.2 ⟨entry, h, rfl⟩)
      rw [get?, if_neg hne, ih hnd.2 h]

/-- Of entries with different keys each is the last under its key. -/
theorem last?_eq_some_of_mem {entries : List (κ × α)} (hnd : (entries.map Prod.fst).Nodup)
    {entry : κ × α} (h : entry ∈ entries) : last? entry.1 entries = some entry.2 := by
  refine get?_eq_some_of_mem ?_ (List.mem_reverse.2 h)
  rw [List.map_reverse]
  exact List.pairwise_reverse.2 (List.Pairwise.imp Ne.symm hnd)

theorem insert_of_notMem {key : κ} (value : α) {table : List (κ × α)}
    (h : key ∉ table.map Prod.fst) : insert key value table = table ++ [(key, value)] := by
  induction table with
  | nil => rfl
  | cons entry rest ih =>
    rw [List.map_cons, List.mem_cons, not_or] at h
    rw [insert, if_neg (Ne.symm h.1), ih h.2, List.cons_append]

/-- Entries with different keys are their own table. -/
theorem ofList_eq_self {entries : List (κ × α)} (h : (entries.map Prod.fst).Nodup) :
    ofList entries = entries := by
  suffices key : ∀ table : List (κ × α), ((table ++ entries).map Prod.fst).Nodup →
      entries.foldl (fun t e => insert e.1 e.2 t) table = table ++ entries from key [] h
  induction entries with
  | nil => simp
  | cons entry rest ih =>
    intro table hnd
    rw [List.map_cons, List.nodup_cons] at h
    have hnew : entry.1 ∉ table.map Prod.fst := by
      intro hmem
      rw [List.map_append, List.nodup_append] at hnd
      exact hnd.2.2 _ hmem entry.1 (by simp) rfl
    rw [List.foldl_cons, insert_of_notMem _ hnew,
      ih h.2 _ (by rwa [List.append_assoc, List.singleton_append]), List.append_assoc,
      List.singleton_append]

end CasePlan.Table
