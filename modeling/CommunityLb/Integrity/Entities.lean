import CommunityLb.Integrity.Judge
import CommunityLb.Lib.Sorting

/-!
# What the entity comparison forgives

Two answers are compared row by row, with the attributes of each row by name: their order is
forgiven, and nothing else.
-/

namespace CommunityLb

variable {ν : Type}

/-- No two attributes of an entity have one name. -/
def ArkivEntity.Named (row : ArkivEntity ν) : Prop :=
  (row.attributes.map ArkivAttribute.name).Nodup

instance (row : ArkivEntity ν) : Decidable row.Named :=
  inferInstanceAs (Decidable (List.Nodup _))

/-- The same entity: every field, and the attributes as a set. -/
structure ArkivEntity.Same (row reference : ArkivEntity ν) : Prop where
  key : row.key = reference.key
  creator : row.creator = reference.creator
  createdAt : row.createdAt = reference.createdAt
  updatedAt : row.updatedAt = reference.updatedAt
  expiresAt : row.expiresAt = reference.expiresAt
  attributes : ∀ held, held ∈ row.attributes ↔ held ∈ reference.attributes

/-- The same entity with its attributes in another order. -/
def ArkivEntity.Rearranged (row other : ArkivEntity ν) : Prop :=
  ∃ attributes, row.attributes.Perm attributes ∧ other = { row with attributes := attributes }

/-- A row with its attributes by name. -/
def sortedRow (row : ArkivEntity ν) : ArkivEntity ν :=
  { row with attributes := sortBy ArkivAttribute.name row.attributes }

theorem sortedRows_eq (rows : List (ArkivEntity ν)) : sortedRows rows = rows.map sortedRow := by
  rw [sortedRows]
  refine List.map_congr_left fun row _ => ?_
  rw [sortedRow, sortBy]

/-- With names that tell attributes apart, the sorted row is the entity. -/
theorem sortedRow_eq_iff {row reference : ArkivEntity ν} (named : row.Named)
    (named' : reference.Named) : sortedRow row = sortedRow reference ↔ row.Same reference := by
  have attributes := sortBy_eq_iff named named'
  constructor
  · intro same
    simp only [sortedRow, ArkivEntity.mk.injEq] at same
    obtain ⟨key, creator, createdAt, updatedAt, expiresAt, sorted⟩ := same
    exact ⟨key, creator, createdAt, updatedAt, expiresAt, attributes.mp sorted⟩
  · rintro ⟨key, creator, createdAt, updatedAt, expiresAt, same⟩
    simp only [sortedRow, ArkivEntity.mk.injEq]
    exact ⟨key, creator, createdAt, updatedAt, expiresAt, attributes.mpr same⟩

theorem sortedRow_rearranged {row other : ArkivEntity ν} (named : row.Named)
    (rearranged : row.Rearranged other) : sortedRow other = sortedRow row := by
  obtain ⟨attributes, perm, rfl⟩ := rearranged
  simp only [sortedRow]
  rw [← sortBy_eq_of_perm named perm]

theorem sortedRows_rearranged {rows others : List (ArkivEntity ν)}
    (named : ∀ row ∈ rows, row.Named)
    (rearranged : List.Forall₂ ArkivEntity.Rearranged rows others) :
    sortedRows others = sortedRows rows := by
  rw [sortedRows_eq, sortedRows_eq]
  induction rearranged with
  | nil => rfl
  | @cons row other rows others here _ ih =>
      rw [List.map_cons, List.map_cons, sortedRow_rearranged (named row List.mem_cons_self) here,
        ih fun row member => named row (List.mem_cons_of_mem _ member)]

variable [DecidableEq ν]

theorem sameEntities_iff_sorted {rows reference : List (ArkivEntity ν)} :
    sameEntities rows reference = true ↔ sortedRows rows = sortedRows reference :=
  decide_eq_true_iff

/-- Row by row, the same entities. -/
theorem sameEntities_iff_forall₂ {rows reference : List (ArkivEntity ν)}
    (named : ∀ row ∈ rows, row.Named) (named' : ∀ row ∈ reference, row.Named) :
    sameEntities rows reference = true ↔ List.Forall₂ ArkivEntity.Same rows reference := by
  rw [sameEntities_iff_sorted, sortedRows_eq, sortedRows_eq]
  induction rows generalizing reference with
  | nil => simp [eq_comm]
  | cons row rows ih =>
      cases reference with
      | nil => simp
      | cons first reference =>
          have here := sortedRow_eq_iff (named row List.mem_cons_self)
            (named' first List.mem_cons_self)
          have rest := ih (fun row member => named row (List.mem_cons_of_mem _ member))
            fun row member => named' row (List.mem_cons_of_mem _ member)
          rw [List.map_cons, List.map_cons, List.cons.injEq, here, rest, List.forall₂_cons]

/-- The comparison is an equivalence that holds exactly between the same entities position by
position, and the order of attributes on either side does not change it. -/
theorem sameEntities_forgives_order {rows reference third others : List (ArkivEntity ν)}
    (named : ∀ row ∈ rows, row.Named) (named' : ∀ row ∈ reference, row.Named)
    (rearranged : List.Forall₂ ArkivEntity.Rearranged rows others) :
    (sameEntities rows reference = true ↔ rows.length = reference.length ∧
      ∀ (index : Nat) (row first : ArkivEntity ν), rows[index]? = some row →
        reference[index]? = some first → row.Same first) ∧
      sameEntities rows rows = true ∧
        sameEntities rows reference = sameEntities reference rows ∧
          (sameEntities rows reference = true → sameEntities reference third = true →
            sameEntities rows third = true) ∧
            sameEntities others reference = sameEntities rows reference ∧
              sameEntities reference others = sameEntities reference rows := by
  have sorted := sortedRows_rearranged named rearranged
  refine ⟨?_, decide_eq_true rfl, ?_, ?_, ?_, ?_⟩
  · rw [sameEntities_iff_forall₂ named named', List.forall₂_iff_get]
    constructor
    · rintro ⟨length, same⟩
      refine ⟨length, fun index row first isRow isFirst => ?_⟩
      obtain ⟨inside, rfl⟩ := List.getElem?_eq_some_iff.mp isRow
      obtain ⟨inside', rfl⟩ := List.getElem?_eq_some_iff.mp isFirst
      exact same index inside inside'
    · rintro ⟨length, same⟩
      refine ⟨length, fun index inside inside' => ?_⟩
      exact same index _ _ (List.getElem?_eq_getElem inside) (List.getElem?_eq_getElem inside')
  · exact decide_eq_decide.mpr eq_comm
  · intro first second
    exact sameEntities_iff_sorted.mpr
      ((sameEntities_iff_sorted.mp first).trans (sameEntities_iff_sorted.mp second))
  · rw [sameEntities, sameEntities, sorted]
  · rw [sameEntities, sameEntities, sorted]

/-- An entity with two attributes. -/
def twoAttributes : ArkivEntity Nat where
  key := 7
  creator := 1
  createdAt := 10
  updatedAt := 12
  expiresAt := 100
  attributes :=
    [{ name := "kind"
       typeTag := "string"
       value := 1 },
     { name := "count"
       typeTag := "uint"
       value := 5 }]

/-- The attributes the other way round, and another count. -/
theorem sameEntities_forgives_order_two :
    (sameEntities [twoAttributes] [twoAttributes] = true ↔
      [twoAttributes].length = [twoAttributes].length ∧
        ∀ (index : Nat) (row first : ArkivEntity Nat), [twoAttributes][index]? = some row →
          [twoAttributes][index]? = some first → row.Same first) ∧
      sameEntities [twoAttributes] [twoAttributes] = true ∧
        sameEntities [twoAttributes] [twoAttributes] =
          sameEntities [twoAttributes] [twoAttributes] ∧
          (sameEntities [twoAttributes] [twoAttributes] = true →
            sameEntities [twoAttributes] [] = true → sameEntities [twoAttributes] [] = true) ∧
            sameEntities [{ twoAttributes with attributes := twoAttributes.attributes.reverse }]
              [twoAttributes] = sameEntities [twoAttributes] [twoAttributes] ∧
              sameEntities [twoAttributes]
                [{ twoAttributes with attributes := twoAttributes.attributes.reverse }] =
                sameEntities [twoAttributes] [twoAttributes] :=
  sameEntities_forgives_order (by simp [ArkivEntity.Named, twoAttributes])
    (by simp [ArkivEntity.Named, twoAttributes])
    (.cons ⟨_, (List.reverse_perm _).symm, rfl⟩ .nil)

end CommunityLb
