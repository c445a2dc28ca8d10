import CommunityLb.Marketplace.Task

/-!
# What a read shows

A page's rows, and how the counter reconcile splits them.
-/

namespace CommunityLb

namespace Chain

variable {chain : Chain} {query : Query} {shown : List EntityKey} {rows : List (Stored Record)}

/-- A page shows rows of the chain that the query admits. -/
theorem page_mem (page : chain.page query shown = some rows) {row : Stored Record}
    (member : row ∈ rows) :
    row ∈ chain.entities.values ∧ chain.alive row = true ∧ query.admits row = true := by
  simp only [Chain.page, Option.ite_none_right_eq_some, Option.some.injEq] at page
  obtain ⟨_, rfl⟩ := page
  obtain ⟨key, _, found⟩ := List.mem_filterMap.mp member
  obtain ⟨matching, _⟩ := Keyed.get?_eq_some.mp found
  simpa [Chain.matching, Keyed.filter] using matching

/-- A page shows a row once. -/
theorem page_distinct (page : chain.page query shown = some rows) : (rows.map Stored.key).Nodup := by
  simp only [Chain.page, Option.ite_none_right_eq_some, Option.some.injEq] at page
  obtain ⟨⟨distinct, _⟩, rfl⟩ := page
  exact Keyed.map_filterMap_get? _ shown ▸ distinct.filter _

/-- A page shows every row the query matches, when they fit. -/
theorem page_whole (page : chain.page query shown = some rows)
    (fits : (chain.matching query).values.length ≤ PAGE_LIMIT) {row : Stored Record}
    (member : row ∈ chain.entities.values) (alive : chain.alive row = true)
    (admits : query.admits row = true) : row ∈ rows := by
  simp only [Chain.page, Option.ite_none_right_eq_some, Option.some.injEq] at page
  obtain ⟨⟨distinct, known, length⟩, rfl⟩ := page
  have inMatching : row ∈ (chain.matching query).values := by
    simp [Chain.matching, Keyed.filter, member, alive, admits]
  have part : shown ⊆ (chain.matching query).values.map Stored.key := by
    intro key inShown
    have isThere := List.all_eq_true.mp known key inShown
    obtain ⟨found, isFound⟩ := Option.isSome_iff_exists.mp isThere
    obtain ⟨inTable, rfl⟩ := Keyed.get?_eq_some.mp isFound
    exact List.mem_map_of_mem inTable
  have all : (chain.matching query).values.map Stored.key ⊆ shown := by
    refine (List.subperm_of_subset distinct part).perm_of_length_le ?_ |>.symm.subset
    rw [List.length_map, length]
    omega
  exact List.mem_filterMap.mpr ⟨row.key, all (List.mem_map_of_mem inMatching),
    Keyed.get?_key inMatching⟩

end Chain

/-! ## The oldest of an agreement -/

section Oldest

variable {records : List (Stored CounterRecord)} {agreement : EntityKey}

theorem placeRecord_get? (placed : CountersByAgreement × List EntityKey)
    (stored : Stored CounterRecord) :
    (placeRecord placed stored).1.get? agreement =
      (placed.1.get? agreement).or
        (if stored.record.agreement = agreement then some stored else none) := by
  rw [placeRecord]
  split
  · next free =>
      rw [Keyed.get?_insert]
      by_cases same : agreement = counterAgreement stored
      · subst same
        have free : placed.1.get? stored.record.agreement = none := free
        simp [counterAgreement, free]
      · have other : stored.record.agreement ≠ agreement := fun here => same here.symm
        simp [same, other]
  · next first taken =>
      by_cases here : stored.record.agreement = agreement
      · rw [here] at taken
        simp [taken]
      · simp [here]

theorem placeRecords_get? (rows : List (Stored CounterRecord)) :
    (rows.foldl placeRecord (.empty, [])).1.get? agreement =
      rows.find? (·.record.agreement = agreement) := by
  induction rows using List.reverseRecOn with
  | nil => rfl
  | append_singleton rest stored ih =>
      rw [List.foldl_append, List.foldl_cons, List.foldl_nil, placeRecord_get?, ih,
        List.find?_append]
      by_cases same : stored.record.agreement = agreement <;> simp [same]

theorem placeRecords_younger {rows : List (Stored CounterRecord)}
    (distinct : (rows.map Stored.key).Nodup) {key : EntityKey}
    (member : key ∈ (rows.foldl placeRecord (.empty, [])).2) :
    ∃ stored ∈ rows, stored.key = key ∧
      ∃ first, rows.find? (·.record.agreement = stored.record.agreement) = some first ∧
        first.key ≠ key := by
  induction rows using List.reverseRecOn with
  | nil => cases member
  | append_singleton rest last ih =>
      rw [List.map_append, List.nodup_append] at distinct
      have earlier : key ∈ (rest.foldl placeRecord (.empty, [])).2 →
          ∃ stored ∈ rest ++ [last], stored.key = key ∧ ∃ first,
            (rest ++ [last]).find? (·.record.agreement = stored.record.agreement) = some first ∧
              first.key ≠ key := by
        intro inRest
        obtain ⟨stored, inStored, same, first, found, differs⟩ := ih distinct.1 inRest
        exact ⟨stored, List.mem_append_left _ inStored, same, first, by simp [found], differs⟩
      rw [List.foldl_append, List.foldl_cons, List.foldl_nil, placeRecord] at member
      split at member
      · exact earlier member
      · next first taken =>
          rcases List.mem_append.mp member with inRest | isNew
          · exact earlier inRest
          · obtain rfl : key = last.key := by simpa using isNew
            rw [placeRecords_get?] at taken
            have inFirst := List.mem_of_find?_eq_some taken
            refine ⟨last, by simp, rfl, first, by simp [taken], ?_⟩
            exact distinct.2.2 _ (List.mem_map_of_mem inFirst) _ (by simp)

/-- The record an agreement counts into is its oldest. -/
theorem oldestPerAgreement_get? :
    (oldestPerAgreement records).1.get? agreement =
      (oldestFirst records).find? (·.record.agreement = agreement) :=
  placeRecords_get? _

theorem mem_oldestPerAgreement {stored : Stored CounterRecord}
    (member : stored ∈ (oldestPerAgreement records).1.values) : stored ∈ records := by
  have found := oldestPerAgreement_get?.symm.trans (Keyed.get?_key member)
  exact mem_oldestFirst.mp (List.mem_of_find?_eq_some found)

theorem oldestPerAgreement_none :
    (oldestPerAgreement records).1.get? agreement = none ↔
      ∀ stored ∈ records, stored.record.agreement ≠ agreement := by
  rw [oldestPerAgreement_get?, List.find?_eq_none]
  simp

/-- No record of the agreement is older. -/
theorem oldestPerAgreement_some {first : Stored CounterRecord}
    (found : (oldestPerAgreement records).1.get? agreement = some first) :
    first ∈ records ∧ first.record.agreement = agreement ∧
      ∀ stored ∈ records, stored.record.agreement = agreement → first.Older stored := by
  rw [oldestPerAgreement_get?] at found
  have sorted := oldestFirst_sorted records
  obtain ⟨same, before, after, split, others⟩ := List.find?_eq_some_iff_append.mp found
  refine ⟨mem_oldestFirst.mp (List.mem_of_find?_eq_some found), by simpa using same, ?_⟩
  intro stored member here
  have inSorted : stored ∈ before ++ first :: after := split ▸ mem_oldestFirst.mpr member
  rcases List.mem_append.mp inSorted with isBefore | isAfter
  · simpa [here] using others stored isBefore
  · rw [split] at sorted
    have tail := (List.pairwise_append.mp sorted).2.1
    rcases List.mem_cons.mp isAfter with rfl | later
    · exact .inr ⟨rfl, BitVec.le_refl _⟩
    · exact (List.pairwise_cons.mp tail).1 stored later

/-- Any other record of an agreement is a younger one. -/
theorem oldestPerAgreement_younger (distinct : (records.map Stored.key).Nodup) {key : EntityKey}
    (member : key ∈ (oldestPerAgreement records).2) :
    ∃ stored ∈ records, stored.key = key ∧
      (oldestPerAgreement records).1.get? stored.record.agreement ≠ some stored := by
  have sorted : ((oldestFirst records).map Stored.key).Nodup :=
    ((oldestFirst_perm records).map _).nodup_iff.mpr distinct
  obtain ⟨stored, inSorted, same, first, found, differs⟩ := placeRecords_younger sorted member
  refine ⟨stored, mem_oldestFirst.mp inSorted, same, fun taken => differs ?_⟩
  rw [oldestPerAgreement_get?, found] at taken
  rw [Option.some.inj taken, same]

end Oldest

end CommunityLb
