import Mathlib

/-!
# Keyed collections

Values that carry their own key, no two of them the same one, in an iteration order that nothing
but `reorder` changes.  A hash map is one of these with its order unknown, and so is a table of
rows.
-/

/-- Values under pairwise distinct keys. -/
structure Keyed {κ ν : Type*} (key : ν → κ) where
  /-- The values, in iteration order. -/
  values : List ν
  distinct : (values.map key).Nodup
  deriving DecidableEq

namespace Keyed

variable {κ ν : Type*} {key : ν → κ}

/-- No value at all. -/
def empty : Keyed key :=
  ⟨[], List.nodup_nil⟩

/-- The keys in iteration order. -/
def keys (table : Keyed key) : List κ :=
  table.values.map key

@[ext]
theorem ext {first second : Keyed key} (values : first.values = second.values) :
    first = second := by
  cases first
  cases second
  cases values
  rfl

theorem eq_of_mem {table : Keyed key} {first second : ν} (inFirst : first ∈ table.values)
    (inSecond : second ∈ table.values) (same : key first = key second) : first = second :=
  List.inj_on_of_nodup_map table.distinct inFirst inSecond same

/-- The values a predicate keeps. -/
def filter (table : Keyed key) (keep : ν → Bool) : Keyed key where
  values := table.values.filter keep
  distinct := table.distinct.sublist (List.filter_sublist.map key)

/-- Every value changed under its key. -/
def update (table : Keyed key) (change : ν → ν) (keeps : ∀ value, key (change value) = key value) :
    Keyed key where
  values := table.values.map change
  distinct := by
    have same : (table.values.map change).map key = table.values.map key := by
      simp [keeps]
    exact same ▸ table.distinct

variable [DecidableEq κ]

/-- The value under a key. -/
def get? (table : Keyed key) (k : κ) : Option ν :=
  table.values.find? (key · = k)

/-- One value less. -/
def erase (table : Keyed key) (k : κ) : Keyed key :=
  table.filter (key · ≠ k)

/-- A value under its key, in place of the one that was there. -/
def insert (table : Keyed key) (value : ν) : Keyed key where
  values := (table.erase (key value)).values ++ [value]
  distinct := by
    rw [List.map_append, List.nodup_append]
    refine ⟨(table.erase (key value)).distinct, by simp, ?_⟩
    simp only [erase, filter, ne_eq, decide_not, List.mem_map, List.mem_filter, Bool.not_eq_true',
      decide_eq_false_iff_not, List.map_cons, List.map_nil, List.mem_singleton, forall_eq]
    rintro _ ⟨other, ⟨_, differs⟩, rfl⟩
    exact differs

/-- The value under one key changed, the others left. -/
def adjust (table : Keyed key) (k : κ) (change : ν → ν)
    (keeps : ∀ value, key (change value) = key value) : Keyed key :=
  table.update (fun value => if key value = k then change value else value) (by
    intro value
    split
    · exact keeps value
    · rfl)

/-- Looked up one by one, values come under the keys that are there. -/
theorem map_filterMap_get? (table : Keyed key) (order : List κ) :
    (order.filterMap table.get?).map key = order.filter fun k => (table.get? k).isSome := by
  induction order with
  | nil => rfl
  | cons k order ih =>
      cases found : table.get? k with
      | none => simp [found, ih]
      | some value =>
          have here : key value = k := by simpa using List.find?_some found
          simp [found, ih, here]

/-- The same values in another order: those under the given keys first. -/
def reorder (table : Keyed key) (order : List κ) : Keyed key where
  values := order.dedup.filterMap table.get? ++ table.values.filter (key · ∉ order)
  distinct := by
    rw [List.map_append, List.nodup_append]
    have known := table.map_filterMap_get? order.dedup
    refine ⟨?_, (table.filter (key · ∉ order)).distinct, ?_⟩
    · rw [known]
      exact (List.nodup_dedup order).filter _
    · rw [known]
      intro first inFirst second inSecond same
      obtain ⟨value, inValue, rfl⟩ := List.mem_map.mp inSecond
      have absent : key value ∉ order := by simpa using (List.mem_filter.mp inValue).2
      exact absent (same ▸ List.mem_dedup.mp (List.mem_filter.mp inFirst).1)

theorem get?_eq_some {table : Keyed key} {k : κ} {value : ν} :
    table.get? k = some value ↔ value ∈ table.values ∧ key value = k := by
  constructor
  · intro found
    exact ⟨List.mem_of_find?_eq_some found, by simpa using List.find?_some found⟩
  · rintro ⟨member, rfl⟩
    cases found : table.get? (key value) with
    | none => simpa using List.find?_eq_none.mp found value member
    | some other =>
        have here : key other = key value := by simpa using List.find?_some found
        rw [eq_of_mem (List.mem_of_find?_eq_some found) member here]

theorem get?_eq_none {table : Keyed key} {k : κ} :
    table.get? k = none ↔ ∀ value ∈ table.values, key value ≠ k := by
  simp [get?, List.find?_eq_none]

theorem get?_key {table : Keyed key} {value : ν} (member : value ∈ table.values) :
    table.get? (key value) = some value :=
  get?_eq_some.mpr ⟨member, rfl⟩

theorem mem_keys {table : Keyed key} {k : κ} : k ∈ table.keys ↔ (table.get? k).isSome := by
  rw [Option.isSome_iff_exists]
  simp [keys, get?_eq_some]

@[simp]
theorem get?_empty (k : κ) : (empty : Keyed key).get? k = none :=
  rfl

/-- Tables with the same membership answer every lookup alike. -/
theorem get?_congr {first second : Keyed key}
    (same : ∀ value, value ∈ first.values ↔ value ∈ second.values) (k : κ) :
    first.get? k = second.get? k := by
  ext value
  simp [get?_eq_some, same]

theorem mem_reorder {table : Keyed key} {order : List κ} {value : ν} :
    value ∈ (table.reorder order).values ↔ value ∈ table.values := by
  simp only [reorder, List.mem_append, List.mem_filterMap, List.mem_dedup, get?_eq_some,
    List.mem_filter, decide_eq_true_eq]
  constructor
  · rintro (⟨_, _, member, _⟩ | ⟨member, _⟩) <;> exact member
  · intro member
    by_cases listed : key value ∈ order
    · exact .inl ⟨key value, listed, member, rfl⟩
    · exact .inr ⟨member, listed⟩

@[simp]
theorem get?_reorder (table : Keyed key) (order : List κ) (k : κ) :
    (table.reorder order).get? k = table.get? k :=
  get?_congr (fun _ => mem_reorder) k

/-- A reordering is a permutation. -/
theorem reorder_perm (table : Keyed key) (order : List κ) :
    (table.reorder order).values.Perm table.values :=
  (List.perm_ext_iff_of_nodup (table.reorder order).distinct.of_map
    table.distinct.of_map).mpr fun _ => mem_reorder

theorem mem_erase {table : Keyed key} {k : κ} {value : ν} :
    value ∈ (table.erase k).values ↔ value ∈ table.values ∧ key value ≠ k := by
  simp [erase, filter]

theorem get?_erase (table : Keyed key) (k other : κ) :
    (table.erase k).get? other = if other = k then none else table.get? other := by
  ext value
  by_cases same : other = k
  · simp only [get?_eq_some, mem_erase, same, if_true, reduceCtorEq, iff_false]
    rintro ⟨⟨_, differs⟩, here⟩
    exact differs here
  · simp only [get?_eq_some, mem_erase, same, if_false]
    constructor
    · rintro ⟨⟨member, _⟩, here⟩
      exact ⟨member, here⟩
    · rintro ⟨member, rfl⟩
      exact ⟨⟨member, same⟩, rfl⟩

theorem get?_filter (table : Keyed key) (keep : ν → Bool) (k : κ) :
    (table.filter keep).get? k = (table.get? k).filter keep := by
  ext value
  simp only [get?_eq_some, filter, List.mem_filter, Option.filter_eq_some_iff]
  tauto

theorem mem_insert {table : Keyed key} {value other : ν} :
    other ∈ (table.insert value).values ↔
      (other ∈ table.values ∧ key other ≠ key value) ∨ other = value := by
  simp [insert, mem_erase]

theorem get?_insert (table : Keyed key) (value : ν) (k : κ) :
    (table.insert value).get? k = if k = key value then some value else table.get? k := by
  ext other
  by_cases same : k = key value
  · simp only [get?_eq_some, mem_insert, same, if_true, Option.some.injEq]
    constructor
    · rintro ⟨⟨_, differs⟩ | rfl, here⟩
      · exact absurd here differs
      · rfl
    · rintro rfl
      exact ⟨.inr rfl, rfl⟩
  · simp only [get?_eq_some, mem_insert, same, if_false]
    constructor
    · rintro ⟨⟨member, _⟩ | rfl, here⟩
      · exact ⟨member, here⟩
      · exact absurd here.symm same
    · rintro ⟨member, rfl⟩
      exact ⟨.inl ⟨member, same⟩, rfl⟩

/-- A value under a key that was free comes last, and nothing else moves. -/
theorem insert_values {table : Keyed key} {value : ν} (free : table.get? (key value) = none) :
    (table.insert value).values = table.values ++ [value] := by
  have kept : (table.erase (key value)).values = table.values := by
    simpa [erase, filter] using get?_eq_none.mp free
  simp [insert, kept]

theorem get?_update (table : Keyed key) (change : ν → ν)
    (keeps : ∀ value, key (change value) = key value) (k : κ) :
    (table.update change keeps).get? k = (table.get? k).map change := by
  ext value
  simp only [get?_eq_some, update, List.mem_map, Option.map_eq_some_iff]
  constructor
  · rintro ⟨⟨old, member, rfl⟩, here⟩
    exact ⟨old, ⟨member, (keeps old).symm.trans here⟩, rfl⟩
  · rintro ⟨old, ⟨member, here⟩, rfl⟩
    exact ⟨⟨old, member, rfl⟩, (keeps old).trans here⟩

theorem get?_adjust (table : Keyed key) (k : κ) (change : ν → ν)
    (keeps : ∀ value, key (change value) = key value) (other : κ) :
    (table.adjust k change keeps).get? other =
      if other = k then (table.get? other).map change else table.get? other := by
  rw [adjust, get?_update]
  cases found : table.get? other with
  | none => simp
  | some value =>
      have here : key value = other := (get?_eq_some.mp found).2
      by_cases same : other = k
      · simp [here, same]
      · simp [here, same]

end Keyed
