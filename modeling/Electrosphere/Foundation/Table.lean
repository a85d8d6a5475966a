import Mathlib.Data.List.AList

/-!
# Keyed tables

A table is an association list without repeated keys: the shape of an SQL
table under its primary key and of a JavaScript `Map`.  Mathlib's `AList`
supplies the structure; this module adds in-place modification, selection of
rows, and the conditional lookup equations that proofs about several keys use.
-/

/-- A table from keys to rows, each key at most once. -/
abbrev Foundation.Table (κ ν : Type) := AList (fun _ : κ => ν)

namespace AList

variable {κ ν : Type} [DecidableEq κ]

/-- Change the row stored under a key, if there is one. -/
def modify (key : κ) (change : ν → ν) (table : Foundation.Table κ ν) :
    Foundation.Table κ ν :=
  match table.lookup key with
  | none => table
  | some value => table.insert key (change value)

/-- The rows that satisfy a condition, as a query lists them. -/
def select (condition : κ → ν → Bool) (table : Foundation.Table κ ν) :
    List (κ × ν) :=
  (table.entries.filter fun entry => condition entry.1 entry.2).map
    fun entry => (entry.1, entry.2)

theorem lookup_insert_if (key other : κ) (value : ν)
    (table : Foundation.Table κ ν) :
    (table.insert key value).lookup other =
      if other = key then some value else table.lookup other := by
  by_cases same : other = key
  · subst other
    simp
  · rw [if_neg same]
    exact lookup_insert_ne same

theorem lookup_erase_if (key other : κ) (table : Foundation.Table κ ν) :
    (table.erase key).lookup other =
      if other = key then none else table.lookup other := by
  by_cases same : other = key
  · subst other
    simp
  · rw [if_neg same]
    exact lookup_erase_ne same

theorem lookup_modify_if (key other : κ) (change : ν → ν)
    (table : Foundation.Table κ ν) :
    (modify key change table).lookup other =
      if other = key then (table.lookup other).map change
      else table.lookup other := by
  unfold modify
  cases found : table.lookup key with
  | none =>
      by_cases same : other = key
      · subst other
        simp [found]
      · simp [same]
  | some value =>
      by_cases same : other = key
      · subst other
        simp [found]
      · simp [same]

@[simp] theorem lookup_modify_self (key : κ) (change : ν → ν)
    (table : Foundation.Table κ ν) :
    (modify key change table).lookup key = (table.lookup key).map change := by
  simp [lookup_modify_if]

theorem lookup_modify_ne {key other : κ} (different : other ≠ key)
    (change : ν → ν) (table : Foundation.Table κ ν) :
    (modify key change table).lookup other = table.lookup other := by
  simp [lookup_modify_if, different]

@[simp] theorem lookup_modify_isSome (key other : κ) (change : ν → ν)
    (table : Foundation.Table κ ν) :
    ((modify key change table).lookup other).isSome =
      (table.lookup other).isSome := by
  rw [lookup_modify_if]
  split <;> simp

@[simp] theorem mem_select {condition : κ → ν → Bool}
    {table : Foundation.Table κ ν} {key : κ} {value : ν} :
    (key, value) ∈ select condition table ↔
      table.lookup key = some value ∧ condition key value = true := by
  rw [← Option.mem_def, mem_lookup_iff]
  simp [select]

omit [DecidableEq κ] in
theorem keys_select_nodup (condition : κ → ν → Bool)
    (table : Foundation.Table κ ν) :
    ((select condition table).map Prod.fst).Nodup := by
  have unique : (table.entries.map Sigma.fst).Nodup := table.nodupKeys
  have filtered : ((table.entries.filter fun entry =>
      condition entry.1 entry.2).map Sigma.fst).Nodup :=
    unique.sublist (List.filter_sublist.map Sigma.fst)
  simpa [select, List.map_map, Function.comp_def] using filtered

/-! ## Counting rows -/

/-- How many rows satisfy a condition. -/
def count (condition : κ → ν → Bool) (table : Foundation.Table κ ν) : Nat :=
  (select condition table).length

theorem count_insert_of_absent {condition : κ → ν → Bool}
    {table : Foundation.Table κ ν} {key : κ} {value : ν}
    (absent : table.lookup key = none) :
    count condition (table.insert key value) =
      count condition table + if condition key value then 1 else 0 := by
  have fresh : key ∉ table := lookup_eq_none.mp absent
  unfold count select
  rw [insert_of_notMem fresh]
  simp only [List.filter_cons, List.length_map]
  split <;> simp

theorem count_erase (condition : κ → ν → Bool)
    {table : Foundation.Table κ ν} {key : κ} {value : ν}
    (found : table.lookup key = some value) :
    count condition (table.erase key) +
      (if condition key value then 1 else 0) = count condition table := by
  have member : key ∈ table.entries.keys :=
    lookup_isSome.mp (by rw [found]; rfl)
  obtain ⟨stored, before, after, _, entries, erased⟩ :=
    List.exists_of_kerase member
  have same : stored = value := by
    have inTable : ⟨key, stored⟩ ∈ table.entries := by
      rw [entries]
      simp
    rw [mem_lookup_iff.mpr inTable] at found
    exact Option.some.inj found
  subst same
  unfold count select
  rw [show (table.erase key).entries = before ++ after from erased, entries]
  simp only [List.filter_append, List.filter_cons, List.length_map,
    List.length_append]
  split
  · simp only [List.length_cons]
    omega
  · simp

theorem count_insert_of_found (condition : κ → ν → Bool)
    {table : Foundation.Table κ ν} {key : κ} {value : ν}
    (found : table.lookup key = some value) (changed : ν) :
    count condition (table.insert key changed) +
        (if condition key value then 1 else 0) =
      count condition table + if condition key changed then 1 else 0 := by
  have erased := count_erase condition found
  have added : count condition (table.insert key changed) =
      count condition (table.erase key) +
        if condition key changed then 1 else 0 := by
    unfold count select
    rw [entries_insert]
    simp only [List.filter_cons, List.length_map]
    split
    · rfl
    · rfl
  omega

theorem length_erase_le (key : κ) (table : Foundation.Table κ ν) :
    (table.erase key).entries.length ≤ table.entries.length :=
  (List.kerase_sublist key table.entries).length_le

theorem length_insert_of_found {table : Foundation.Table κ ν} {key : κ}
    {value : ν} (found : table.lookup key = some value) (changed : ν) :
    (table.insert key changed).entries.length = table.entries.length := by
  have erased := count_erase (fun _ _ => true) found
  simp only [count, select, List.filter_true, List.length_map, if_true]
    at erased
  rw [entries_insert, List.length_cons]
  exact erased

theorem count_pos_iff {condition : κ → ν → Bool}
    {table : Foundation.Table κ ν} :
    0 < count condition table ↔ ∃ key value,
      table.lookup key = some value ∧ condition key value = true := by
  unfold count
  rw [List.length_pos_iff_exists_mem]
  constructor
  · rintro ⟨⟨key, value⟩, member⟩
    exact ⟨key, value, mem_select.mp member⟩
  · rintro ⟨key, value, found⟩
    exact ⟨(key, value), mem_select.mpr found⟩

/-- A statement about all rows of a table is one about its entries, which
can be checked. -/
theorem forall_lookup_iff {table : Foundation.Table κ ν}
    {holds : κ → ν → Prop} :
    (∀ key value, table.lookup key = some value → holds key value) ↔
      ∀ entry ∈ table.entries, holds entry.1 entry.2 := by
  constructor
  · rintro every ⟨key, value⟩ member
    exact every key value (mem_lookup_iff.mpr member)
  · intro every key value found
    exact every ⟨key, value⟩ (mem_lookup_iff.mp found)

instance decidableForallLookup {table : Foundation.Table κ ν}
    {holds : κ → ν → Prop} [∀ key value, Decidable (holds key value)] :
    Decidable (∀ key value, table.lookup key = some value →
      holds key value) :=
  decidable_of_iff _ forall_lookup_iff.symm

end AList
