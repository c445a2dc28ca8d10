import CommunityLb.Marketplace.Account

/-!
# One agreement's counter records on the chain

What an account holds of the chain, and what an operation that lands does to it.
-/

namespace CommunityLb

namespace Chain

variable (me : Address)

/-- A row that is a counter record of an agreement, written under the LB's key. -/
def entryOf (chain : Chain) (agreement : EntityKey) (row : Stored Record) : Option Entry :=
  if chain.alive row ∧ row.creator = me then
    (row.record.asCounter.filter (·.agreement = agreement)).map fun record =>
      { key := row.key
        createdAt := row.createdAt
        record := record }
  else none

/-- The counter records of an agreement. -/
def counters (chain : Chain) (agreement : EntityKey) : List Entry :=
  chain.entities.values.filterMap (chain.entryOf me agreement)

/-- The agreement that a counter record of the LB counts for. -/
def owner (chain : Chain) (key : EntityKey) : Option EntityKey :=
  (chain.entities.get? key).bind fun row =>
    if row.creator = me then row.record.asCounter.map (·.agreement) else none

/-- An agreement's record was there and is gone. -/
def lost (chain : Chain) (agreement : EntityKey) : Bool :=
  (chain.entities.get? agreement).any fun row => !chain.alive row

variable {me} {chain : Chain} {agreement key : EntityKey}

theorem entryOf_eq_some {row : Stored Record} {entry : Entry} :
    chain.entryOf me agreement row = some entry ↔
      chain.alive row = true ∧ row.creator = me ∧ row.key = entry.key ∧
        row.createdAt = entry.createdAt ∧ row.record = .counter entry.record ∧
          entry.record.agreement = agreement := by
  simp only [entryOf, Option.ite_none_right_eq_some, Option.map_eq_some_iff,
    Option.filter_eq_some_iff, decide_eq_true_eq]
  constructor
  · rintro ⟨⟨alive, creator⟩, record, ⟨asCounter, same⟩, rfl⟩
    refine ⟨alive, creator, rfl, rfl, ?_, same⟩
    cases kind : row.record <;> simp_all [Record.asCounter]
  · rintro ⟨alive, creator, sameKey, sameAge, record, same⟩
    refine ⟨⟨alive, creator⟩, entry.record, ⟨by simp [record, Record.asCounter], same⟩, ?_⟩
    rw [sameKey, sameAge]

theorem mem_counters {entry : Entry} :
    entry ∈ chain.counters me agreement ↔
      ∃ row ∈ chain.entities.values, chain.alive row = true ∧ row.creator = me ∧
        row.key = entry.key ∧ row.createdAt = entry.createdAt ∧
          row.record = .counter entry.record ∧ entry.record.agreement = agreement := by
  simp only [counters, List.mem_filterMap, entryOf_eq_some]

/-- A counter record of the LB that is on the chain is its agreement's. -/
theorem mem_counters_keys :
    key ∈ (chain.counters me agreement).map Entry.key ↔
      (chain.live? key).isSome ∧ chain.owner me key = some agreement := by
  simp only [List.mem_map, mem_counters, live?, owner]
  constructor
  · rintro ⟨entry, ⟨row, member, alive, creator, sameKey, _, record, same⟩, rfl⟩
    have found : chain.entities.get? entry.key = some row := Keyed.get?_eq_some.mpr ⟨member, sameKey⟩
    simp [found, alive, creator, record, Record.asCounter, same]
  · rintro ⟨live, owned⟩
    obtain ⟨row, found, counts⟩ := Option.bind_eq_some_iff.mp owned
    obtain ⟨creator, known⟩ := Option.ite_none_right_eq_some.mp counts
    obtain ⟨record, asCounter, rfl⟩ := Option.map_eq_some_iff.mp known
    obtain ⟨member, sameKey⟩ := Keyed.get?_eq_some.mp found
    refine ⟨⟨row.key, row.createdAt, record⟩, ⟨row, member, ?_, creator, rfl, rfl, ?_, rfl⟩, sameKey⟩
    · simpa [found] using live
    · cases kind : row.record <;> simp_all [Record.asCounter]

end Chain

/-! ## Operations -/

namespace Operation

/-- What an operation writes to an agreement's counter records. -/
def writeFor (me : Address) (chain : Chain) (agreement : EntityKey) :
    Operation → Option CounterWrite
  | .create (.counter record) _ =>
      if record.agreement = agreement then some (.opening record) else none
  | .patch key (.counter payload state) =>
      if chain.owner me key = some agreement then some (.patch key payload (state = some .closed))
      else none
  | .delete key => if chain.owner me key = some agreement then some (.delete key) else none
  | _ => none

/-- An operation as the LB makes them: a counter record starts empty and open and outlives its
block, for an agreement that is known, and a patch or a delete is of a counter record known. -/
def Sane (me : Address) (chain : Chain) : Operation → Prop
  | .create (.counter record) seconds =>
      record.count = 0 ∧ record.state = .opened ∧ 0 < blocksOf seconds ∧
        (chain.entities.get? record.agreement).isSome
  | .patch key (.counter _ state) => (chain.owner me key).isSome ∧ state ≠ some .opened
  | .delete key => (chain.owner me key).isSome
  | _ => True

end Operation

namespace Chain

/-- A later chain: what was there was not taken for something else. -/
structure Grows (me : Address) (chain later : Chain) : Prop where
  known : ∀ key, (chain.entities.get? key).isSome → (later.entities.get? key).isSome
  owner : ∀ key, (chain.entities.get? key).isSome → later.owner me key = chain.owner me key
  lost : ∀ agreement, chain.lost agreement = true → later.lost agreement = true

variable {me : Address} {chain next : Chain} {agreement fresh : EntityKey}

theorem Grows.refl (chain : Chain) : chain.Grows me chain :=
  ⟨fun _ known => known, fun _ _ => rfl, fun _ gone => gone⟩

theorem Grows.trans {later : Chain} (first : chain.Grows me next) (second : next.Grows me later) :
    chain.Grows me later where
  known key known := second.known key (first.known key known)
  owner key known := (second.owner key (first.known key known)).trans (first.owner key known)
  lost agreement gone := second.lost agreement (first.lost agreement gone)

theorem known_of_owner {key : EntityKey} (owned : (chain.owner me key).isSome) :
    (chain.entities.get? key).isSome := by
  rw [owner] at owned
  cases found : chain.entities.get? key with
  | none => simp [found] at owned
  | some row => rfl

/-- What an operation writes does not change as the chain goes on. -/
theorem Grows.writeFor {operation : Operation} (grows : chain.Grows me next)
    (sane : operation.Sane me chain) :
    operation.writeFor me next agreement = operation.writeFor me chain agreement := by
  cases operation with
  | create record seconds => cases record <;> rfl
  | extend key seconds => rfl
  | delete key =>
      simp only [Operation.writeFor, grows.owner key (known_of_owner sane)]
  | patch key set =>
      cases set with
      | listing record => rfl
      | counter payload state =>
          simp only [Operation.writeFor, grows.owner key (known_of_owner sane.1)]

theorem Grows.sane {operation : Operation} (grows : chain.Grows me next)
    (sane : operation.Sane me chain) : operation.Sane me next := by
  cases operation with
  | create record seconds =>
      cases record with
      | counter record => exact ⟨sane.1, sane.2.1, sane.2.2.1, grows.known _ sane.2.2.2⟩
      | listing record => trivial
      | offer record => trivial
      | agreement record => trivial
      | unreadable kind state => trivial
  | extend key seconds => trivial
  | delete key =>
      simpa only [Operation.Sane, grows.owner key (known_of_owner sane)] using sane
  | patch key set =>
      cases set with
      | listing record => trivial
      | counter payload state =>
          simpa only [Operation.Sane, grows.owner key (known_of_owner sane.1)] using sane

/-- A chain whose rows kept their keys, their creators, and what agreement they count for. -/
theorem Grows.of_rows (head : chain.head ≤ next.head) (gone : ∀ key ∈ chain.gone, key ∈ next.gone)
    (rows : ∀ key row, chain.entities.get? key = some row →
      ∃ later, next.entities.get? key = some later ∧ later.creator = row.creator ∧
        (later.expiresAt = row.expiresAt ∨ chain.alive row = true) ∧
        (row.creator = me →
          later.record.asCounter.map (·.agreement) = row.record.asCounter.map (·.agreement))) :
    chain.Grows me next where
  known key known := by
    obtain ⟨row, found⟩ := Option.isSome_iff_exists.mp known
    obtain ⟨later, isThere, _⟩ := rows key row found
    simp [isThere]
  owner key known := by
    obtain ⟨row, found⟩ := Option.isSome_iff_exists.mp known
    obtain ⟨later, isThere, creator, _, counts⟩ := rows key row found
    simp only [Chain.owner, found, isThere, Option.bind_some, creator]
    split
    · next mine => exact counts mine
    · rfl
  lost agreement was := by
    simp only [Chain.lost, Option.any_eq_true, Bool.not_eq_true'] at was ⊢
    obtain ⟨row, found, dead⟩ := was
    obtain ⟨later, isThere, _, expiry, _⟩ := rows agreement row found
    refine ⟨later, isThere, ?_⟩
    have same : later.expiresAt = row.expiresAt :=
      expiry.resolve_right (by simp [dead])
    have keys : row.key = agreement ∧ later.key = agreement :=
      ⟨(Keyed.get?_eq_some.mp found).2, (Keyed.get?_eq_some.mp isThere).2⟩
    simp only [alive, decide_eq_false_iff_not, not_and, not_not, same, keys.1, keys.2] at dead ⊢
    exact fun later => gone _ (dead (lt_of_le_of_lt head later))

/-- The records after an operation, which may be a write to them. -/
def landFor (block : Nat) (fresh : EntityKey) (rows : List Entry) :
    Option CounterWrite → Option (List Entry)
  | none => some rows
  | some write => write.land block fresh rows

/-! ### One operation -/

theorem operate_head {operation : Operation}
    (operated : chain.operate me fresh operation = some next) : next.head = chain.head := by
  cases operation <;> simp only [operate] at operated <;> split at operated <;> cases operated <;> rfl

/-- A create takes a key that no entity had. -/
theorem operate_fresh {record : Record} {seconds : Nat}
    (operated : chain.operate me fresh (.create record seconds) = some next) :
    chain.entities.get? fresh = none := by
  simp only [operate] at operated
  split at operated
  · next free => simpa using free
  · cases operated

/-- The record that a create leaves. -/
theorem operate_created {record : Record} {seconds : Nat}
    (operated : chain.operate me fresh (.create record seconds) = some next) :
    next.entities.get? fresh = some
      { key := fresh
        creator := me
        createdAt := chain.head
        expiresAt := chain.head + blocksOf seconds
        record := record } := by
  simp only [operate] at operated
  split at operated
  · cases operated
    simp [Keyed.get?_insert]
  · cases operated

theorem operate_grows {operation : Operation}
    (operated : chain.operate me fresh operation = some next) : chain.Grows me next := by
  cases operation with
  | create record seconds =>
      have free := operate_fresh operated
      simp only [operate] at operated
      split at operated
      · cases operated
        refine .of_rows le_rfl (fun _ member => member) fun key row found => ?_
        have differs : key ≠ fresh := by
          rintro rfl
          simp [free] at found
        exact ⟨row, by simp [Keyed.get?_insert, differs, found], rfl, .inl rfl, fun _ => rfl⟩
      · cases operated
  | patch target set =>
      simp only [operate] at operated
      split at operated
      · cases operated
        refine .of_rows le_rfl (fun _ member => member) fun key row found => ?_
        by_cases same : key = target
        · subst same
          refine ⟨{ row with record := row.record.set set }, by simp [Keyed.get?_adjust, found], rfl,
            .inl rfl, fun _ => ?_⟩
          cases row.record <;> cases set <;> rfl
        · exact ⟨row, by simp [Keyed.get?_adjust, same, found], rfl, .inl rfl, fun _ => rfl⟩
      · cases operated
  | delete target =>
      simp only [operate] at operated
      split at operated
      · cases operated
        exact .of_rows le_rfl (fun _ member => List.mem_cons_of_mem _ member)
          fun key row found => ⟨row, found, rfl, .inl rfl, fun _ => rfl⟩
      · cases operated
  | extend target seconds =>
      simp only [operate] at operated
      split at operated
      · next live =>
          cases operated
          refine .of_rows le_rfl (fun _ member => member) fun key row found => ?_
          by_cases same : key = target
          · subst same
            refine ⟨{ row with expiresAt := chain.head + blocksOf seconds },
              by simp [Keyed.get?_adjust, found], rfl, .inr ?_, fun _ => rfl⟩
            obtain ⟨other, isLive, _⟩ := (Option.any_eq_true _ _).mp live
            obtain ⟨isThere, alive⟩ := Option.filter_eq_some_iff.mp isLive
            rw [found] at isThere
            cases isThere
            exact alive
          · exact ⟨row, by simp [Keyed.get?_adjust, same, found], rfl, .inl rfl, fun _ => rfl⟩
      · cases operated

/-- A row changed where it stands is the same entry changed, or no entry as before. -/
theorem counters_adjust {target : EntityKey} {change : Stored Record → Stored Record}
    {keeps : ∀ row, (change row).key = row.key} {into : Entry → Entry}
    (here : ∀ row ∈ chain.entities.values, row.key = target →
      Chain.entryOf me { chain with entities := chain.entities.adjust target change keeps }
          agreement (change row) =
        (chain.entryOf me agreement row).map into)
    (elsewhere : ∀ entry ∈ chain.counters me agreement, entry.key ≠ target → into entry = entry) :
    Chain.counters me { chain with entities := chain.entities.adjust target change keeps } agreement =
      (chain.counters me agreement).map into := by
  simp only [counters, Keyed.adjust, Keyed.update, List.filterMap_map, List.map_filterMap]
  refine List.filterMap_congr fun row member => ?_
  simp only [Function.comp_apply]
  split
  · next same => exact here row member same
  · next differs =>
      cases found : chain.entryOf me agreement row with
      | none => exact found
      | some entry =>
          refine Eq.trans (b := some entry) found (congrArg some (elsewhere entry ?_ ?_).symm)
          · exact List.mem_filterMap.mpr ⟨row, member, found⟩
          · exact (entryOf_eq_some.mp found).2.2.1 ▸ differs

/-- A row that changes without what is counted leaves the counter records. -/
theorem counters_kept {target : EntityKey} {change : Stored Record → Stored Record}
    {keeps : ∀ row, (change row).key = row.key}
    (same : ∀ row ∈ chain.entities.values, row.key = target →
      Chain.entryOf me { chain with entities := chain.entities.adjust target change keeps }
          agreement (change row) =
        chain.entryOf me agreement row) :
    Chain.counters me { chain with entities := chain.entities.adjust target change keeps } agreement =
      chain.counters me agreement := by
  refine Eq.trans (counters_adjust (fun row member here => ?_) fun _ _ _ => rfl) (List.map_id _)
  rw [Option.map_id']
  exact same row member here

/-- A new row comes last, as an entry when it is one. -/
theorem counters_insert {row : Stored Record} (free : chain.entities.get? row.key = none) :
    Chain.counters me { chain with entities := chain.entities.insert row } agreement =
      chain.counters me agreement ++ (chain.entryOf me agreement row).toList := by
  have same : Chain.entryOf me { chain with entities := chain.entities.insert row } agreement =
      chain.entryOf me agreement := rfl
  rw [counters, counters, same, Keyed.insert_values free, List.filterMap_append]
  cases found : chain.entryOf me agreement row <;> simp [found]

/-- A patch of attributes that are no counter's leaves what is counted. -/
theorem set_asCounter {record : Record} {set : SetAttributes}
    (other : (∃ listing, set = .listing listing) ∨ record.asCounter = none) :
    (record.set set).asCounter = record.asCounter := by
  rcases other with ⟨listing, rfl⟩ | other
  · cases record <;> rfl
  · cases record <;> cases set <;> first | rfl | cases other

theorem entryOf_congr {row changed : Stored Record}
    (alive : next.alive changed = chain.alive row) (creator : changed.creator = row.creator)
    (key : changed.key = row.key) (age : changed.createdAt = row.createdAt)
    (record : changed.record.asCounter.filter (·.agreement = agreement) =
      row.record.asCounter.filter (·.agreement = agreement)) :
    next.entryOf me agreement changed = chain.entryOf me agreement row := by
  rw [entryOf, entryOf, alive, creator, key, age, record]

/-- A patch that lands changes its own record, when it is one of the agreement's. -/
theorem counters_patch {target : EntityKey} {payload : CounterPayload}
    {state : Option CounterState} (owned : chain.owner me target = some agreement)
    (proper : state ≠ some .opened) :
    Chain.counters me
        { chain with
          entities := chain.entities.adjust target
            (fun row => { row with record := row.record.set (.counter payload state) })
            (fun _ => rfl) } agreement =
      (chain.counters me agreement).map fun entry =>
        if entry.key = target then entry.patch payload (state = some .closed) else entry := by
  refine counters_adjust ?_ fun entry _ differs => if_neg differs
  rintro row member rfl
  obtain ⟨found, isThere, counts⟩ := Option.bind_eq_some_iff.mp owned
  rw [Keyed.get?_key member] at isThere
  cases isThere
  obtain ⟨creator, known⟩ := Option.ite_none_right_eq_some.mp counts
  obtain ⟨record, isCounter, sameAgreement⟩ := Option.map_eq_some_iff.mp known
  have kind : row.record = .counter record := by
    cases kind : row.record <;> simp_all [Record.asCounter]
  by_cases isAlive : chain.alive row = true
  · have entry : chain.entryOf me agreement row = some ⟨row.key, row.createdAt, record⟩ :=
      entryOf_eq_some.mpr ⟨isAlive, creator, rfl, rfl, kind, sameAgreement⟩
    rw [entry, Option.map_some, if_pos rfl]
    refine entryOf_eq_some.mpr ⟨isAlive, creator, rfl, rfl, ?_, sameAgreement⟩
    rcases state with _ | _ | _
    · simp [kind, Record.set, Entry.patch]
    · exact absurd rfl proper
    · simp [kind, Record.set, Entry.patch]
  · have dead : Chain.alive
        { chain with
          entities := chain.entities.adjust row.key
            (fun row => { row with record := row.record.set (.counter payload state) })
            (fun _ => rfl) }
        { row with record := row.record.set (.counter payload state) } = chain.alive row := rfl
    simp [entryOf, isAlive, dead]

theorem operate_counters {operation : Operation} (sane : operation.Sane me chain)
    (known : ∀ key ∈ chain.gone, (chain.entities.get? key).isSome)
    (operated : chain.operate me fresh operation = some next) :
    landFor chain.head fresh (chain.counters me agreement)
      (operation.writeFor me chain agreement) = some (next.counters me agreement) := by
  cases operation with
  | create record seconds =>
      have free := operate_fresh operated
      have unspent : fresh ∉ chain.gone := fun member => by simpa [free] using known fresh member
      simp only [operate] at operated
      split at operated
      · cases operated
        rw [counters_insert free]
        cases record with
        | counter record =>
            have later : chain.head < chain.head + blocksOf seconds := by
              have positive := sane.2.2.1
              omega
            by_cases same : record.agreement = agreement
            · simp [Operation.writeFor, landFor, CounterWrite.land, same, entryOf, alive, later,
                unspent, Record.asCounter, Option.filter]
            · simp [Operation.writeFor, landFor, same, entryOf, Record.asCounter, Option.filter]
        | listing record => simp [Operation.writeFor, landFor, entryOf, Record.asCounter]
        | offer record => simp [Operation.writeFor, landFor, entryOf, Record.asCounter]
        | agreement record => simp [Operation.writeFor, landFor, entryOf, Record.asCounter]
        | unreadable kind state => simp [Operation.writeFor, landFor, entryOf, Record.asCounter]
      · cases operated
  | patch target set =>
      simp only [operate] at operated
      split at operated
      · next live =>
          cases operated
          cases set with
          | listing record =>
              rw [counters_kept fun row member here => ?_]
              · rfl
              · exact entryOf_congr rfl rfl rfl rfl (by rw [set_asCounter (.inl ⟨record, rfl⟩)])
          | counter payload state =>
              by_cases owned : chain.owner me target = some agreement
              · rw [counters_patch owned sane.2]
                have inRows := mem_counters_keys.mpr ⟨live, owned⟩
                simp [Operation.writeFor, landFor, CounterWrite.land, owned, inRows]
              · rw [counters_kept fun row member here => ?_]
                · simp [Operation.writeFor, landFor, owned]
                · subst here
                  by_cases mine : row.creator = me
                  · refine entryOf_congr rfl rfl rfl rfl ?_
                    have found := Keyed.get?_key member
                    cases kind : row.record with
                    | counter record =>
                        have differs : record.agreement ≠ agreement := by
                          simpa [owner, found, mine, kind, Record.asCounter] using owned
                        simp [Record.set, Record.asCounter, Option.filter, differs]
                    | _ => rfl
                  · simp [entryOf, mine]
      · cases operated
  | delete target =>
      simp only [operate] at operated
      split at operated
      · next live =>
          cases operated
          have entries : Chain.counters me { chain with gone := target :: chain.gone } agreement =
              (chain.counters me agreement).filter (·.key ≠ target) := by
            simp only [counters, List.filter_filterMap]
            refine List.filterMap_congr fun row member => ?_
            ext entry
            simp only [entryOf_eq_some, Option.filter_eq_some_iff, alive, decide_eq_true_eq,
              List.mem_cons, not_or]
            constructor
            · rintro ⟨⟨later, differs, kept⟩, creator, sameKey, rest⟩
              exact ⟨⟨⟨later, kept⟩, creator, sameKey, rest⟩, sameKey ▸ differs⟩
            · rintro ⟨⟨⟨later, kept⟩, creator, sameKey, rest⟩, differs⟩
              exact ⟨⟨later, sameKey ▸ differs, kept⟩, creator, sameKey, rest⟩
          rw [entries]
          by_cases owned : chain.owner me target = some agreement
          · have inRows := mem_counters_keys.mpr ⟨live, owned⟩
            simp [Operation.writeFor, landFor, CounterWrite.land, owned, inRows]
          · have absent : target ∉ (chain.counters me agreement).map Entry.key :=
              fun inRows => owned (mem_counters_keys.mp inRows).2
            simp only [Operation.writeFor, owned, if_false, landFor, Option.some.injEq]
            refine (List.filter_eq_self.mpr fun entry member => ?_).symm
            exact decide_eq_true fun same => absent (same ▸ List.mem_map_of_mem member)
      · cases operated
  | extend target seconds =>
      simp only [operate] at operated
      split at operated
      · next live =>
          cases operated
          rw [counters_kept fun row member here => ?_]
          · rfl
          · refine entryOf_congr ?_ rfl rfl rfl rfl
            obtain ⟨other, isLive, later⟩ := (Option.any_eq_true _ _).mp live
            obtain ⟨isThere, isAlive⟩ := Option.filter_eq_some_iff.mp isLive
            rw [← here, Keyed.get?_key member] at isThere
            cases isThere
            rw [isAlive]
            simp only [alive, decide_eq_true_eq] at isAlive later ⊢
            exact ⟨isAlive.1.trans later, isAlive.2⟩
      · cases operated

/-- After an operation an entity is one that was there, or the one created. -/
theorem operate_known {operation : Operation} {key : EntityKey}
    (operated : chain.operate me fresh operation = some next)
    (known : (next.entities.get? key).isSome) :
    (chain.entities.get? key).isSome ∨
      key = fresh ∧ ∃ record seconds, operation = .create record seconds := by
  cases operation with
  | create record seconds =>
      simp only [operate] at operated
      split at operated
      · cases operated
        by_cases same : key = fresh
        · exact .inr ⟨same, record, seconds, rfl⟩
        · exact .inl (by simpa [Keyed.get?_insert, same] using known)
      · cases operated
  | patch target set =>
      simp only [operate] at operated
      split at operated
      · cases operated
        refine .inl ?_
        by_cases same : key = target <;> simpa [Keyed.get?_adjust, same] using known
      · cases operated
  | delete target =>
      simp only [operate] at operated
      split at operated
      · cases operated
        exact .inl known
      · cases operated
  | extend target seconds =>
      simp only [operate] at operated
      split at operated
      · cases operated
        refine .inl ?_
        by_cases same : key = target <;> simpa [Keyed.get?_adjust, same] using known
      · cases operated

/-- What is deleted was there, and what is counted for was. -/
structure Rooted (me : Address) (chain : Chain) : Prop where
  gone : ∀ key ∈ chain.gone, (chain.entities.get? key).isSome
  agreements : ∀ key agreement, chain.owner me key = some agreement →
    (chain.entities.get? agreement).isSome

theorem Rooted.operate {operation : Operation} (rooted : chain.Rooted me)
    (sane : operation.Sane me chain)
    (operated : chain.operate me fresh operation = some next) : next.Rooted me where
  gone := by
    have grows := operate_grows operated
    intro key member
    cases operation with
    | delete target =>
        simp only [Chain.operate] at operated
        split at operated
        · next live =>
            cases operated
            rcases List.mem_cons.mp member with rfl | old
            · obtain ⟨row, isLive⟩ := Option.isSome_iff_exists.mp live
              simp [(Option.filter_eq_some_iff.mp isLive).1]
            · exact rooted.gone key old
        · cases operated
    | create record seconds =>
        refine grows.known key (rooted.gone key ?_)
        simp only [Chain.operate] at operated
        split at operated <;> cases operated
        exact member
    | patch target set =>
        refine grows.known key (rooted.gone key ?_)
        simp only [Chain.operate] at operated
        split at operated <;> cases operated
        exact member
    | extend target seconds =>
        refine grows.known key (rooted.gone key ?_)
        simp only [Chain.operate] at operated
        split at operated <;> cases operated
        exact member
  agreements := by
    have grows := operate_grows operated
    intro key agreement owned
    have known : (next.entities.get? key).isSome :=
      known_of_owner (Option.isSome_of_mem (Option.mem_def.mpr owned))
    rcases operate_known operated known with
      old | ⟨rfl, record, seconds, rfl⟩
    · exact grows.known _ (rooted.agreements key agreement ((grows.owner key old).symm.trans owned))
    · rw [owner, operate_created operated] at owned
      cases record with
      | counter record =>
          obtain rfl : record.agreement = agreement := by simpa [Record.asCounter] using owned
          exact grows.known _ sane.2.2.2
      | listing record => simp [Record.asCounter] at owned
      | offer record => simp [Record.asCounter] at owned
      | agreement record => simp [Record.asCounter] at owned
      | unreadable kind state => simp [Record.asCounter] at owned

/-! ### Blocks and batches -/

theorem advance_grows (chain : Chain) (count : Nat) : chain.Grows me (chain.advance count) :=
  .of_rows (Nat.le_add_right _ _) (fun _ member => member)
    fun _ row found => ⟨row, found, rfl, .inl rfl, fun _ => rfl⟩

theorem Rooted.advance (rooted : chain.Rooted me) (count : Nat) :
    (chain.advance count).Rooted me :=
  ⟨rooted.gone, rooted.agreements⟩

/-- A later chain that is sound in itself. -/
structure Follows (me : Address) (chain later : Chain) : Prop where
  grows : chain.Grows me later
  rooted : later.Rooted me

theorem Follows.operate {later : Chain} {operation : Operation} (follows : chain.Follows me later)
    (sane : operation.Sane me chain)
    (operated : later.operate me fresh operation = some next) : chain.Follows me next where
  grows := follows.grows.trans (operate_grows operated)
  rooted := follows.rooted.operate (follows.grows.sane sane) operated

theorem Follows.execute {later : Chain} {batch : List (Operation × EntityKey)}
    (follows : chain.Follows me later) (sane : ∀ pair ∈ batch, pair.1.Sane me chain)
    (executed : later.execute me batch = some next) : chain.Follows me next := by
  induction batch generalizing later with
  | nil =>
      cases executed
      exact follows
  | cons pair batch ih =>
      obtain ⟨middle, operated, rest⟩ := Option.bind_eq_some_iff.mp executed
      exact ih (follows.operate (sane pair List.mem_cons_self) operated)
        (fun other member => sane other (List.mem_cons_of_mem _ member)) rest

theorem execute_head {batch : List (Operation × EntityKey)}
    (executed : chain.execute me batch = some next) : next.head = chain.head := by
  induction batch generalizing chain with
  | nil =>
      cases executed
      rfl
  | cons pair batch ih =>
      obtain ⟨middle, operated, rest⟩ := Option.bind_eq_some_iff.mp executed
      exact (ih rest).trans (operate_head operated)

/-- What landing a batch is: its operations, each with a key. -/
theorem land_eq_some {batch : Batch} {keys : List EntityKey} :
    chain.land me batch keys = some next ↔
      keys.length = batch.length ∧ chain.execute me (batch.zip keys) = some next := by
  simp only [land, Option.ite_none_right_eq_some]

theorem Follows.land {later : Chain} {batch : Batch} {keys : List EntityKey}
    (follows : chain.Follows me later) (sane : ∀ operation ∈ batch, operation.Sane me chain)
    (landed : later.land me batch keys = some next) : chain.Follows me next :=
  follows.execute (fun pair member => sane pair.1 (List.of_mem_zip member).1)
    (land_eq_some.mp landed).2

theorem land_head {batch : Batch} {keys : List EntityKey}
    (landed : chain.land me batch keys = some next) : next.head = chain.head :=
  execute_head (land_eq_some.mp landed).2

/-- What a create leaves when its batch lands: its entity, counted for when it is a counter record. -/
def Created (me : Address) (chain : Chain) (pair : Operation × EntityKey) : Prop :=
  ∀ record seconds, pair.1 = .create record seconds →
    (chain.entities.get? pair.2).isSome ∧
      ∀ counter, record = .counter counter → chain.owner me pair.2 = some counter.agreement

theorem execute_created {batch : List (Operation × EntityKey)}
    (executed : chain.execute me batch = some next) : ∀ pair ∈ batch, next.Created me pair := by
  suffices chain.Grows me next ∧ ∀ pair ∈ batch, next.Created me pair from this.2
  induction batch generalizing chain with
  | nil =>
      cases executed
      exact ⟨.refl _, by simp⟩
  | cons pair batch ih =>
      obtain ⟨middle, operated, rest⟩ := Option.bind_eq_some_iff.mp executed
      obtain ⟨grows, later⟩ := ih rest
      refine ⟨(operate_grows operated).trans grows, fun other member => ?_⟩
      rcases List.mem_cons.mp member with rfl | isLater
      · intro record seconds isCreate
        have created := isCreate ▸ operated
        have isThere := operate_created created
        have known : (middle.entities.get? other.2).isSome := by rw [isThere]; rfl
        refine ⟨grows.known _ known, ?_⟩
        rintro counter rfl
        rw [grows.owner _ known, owner, isThere]
        simp [Record.asCounter]
      · exact later other isLater

theorem settle_nil {pending rest : List Batch} :
    chain.settle me pending [] = some (next, rest) ↔ chain = next ∧ pending = rest := by
  cases pending <;> simp [settle]

theorem settle_cons {pending : List Batch} {fate : Option (List EntityKey)}
    {fates : List (Option (List EntityKey))} {result : Chain × List Batch} :
    chain.settle me pending (fate :: fates) = some result ↔
      ∃ batch later, pending = batch :: later ∧
        match fate with
        | none => chain.settle me later fates = some result
        | some keys => ∃ middle, chain.land me batch keys = some middle ∧
            middle.settle me later fates = some result := by
  cases pending with
  | nil => simp [settle]
  | cons batch later =>
      cases fate with
      | none => simp [settle]
      | some keys => simp [settle, Option.bind_eq_some_iff]

theorem Follows.settle {later : Chain} {pending rest : List Batch}
    {fates : List (Option (List EntityKey))} (follows : chain.Follows me later)
    (sane : ∀ batch ∈ pending, ∀ operation ∈ batch, operation.Sane me chain)
    (settled : later.settle me pending fates = some (next, rest)) : chain.Follows me next := by
  induction fates generalizing later pending with
  | nil =>
      obtain ⟨rfl, _⟩ := settle_nil.mp settled
      exact follows
  | cons fate fates ih =>
      obtain ⟨batch, others, rfl, remaining⟩ := settle_cons.mp settled
      have sane' := fun other member => sane other (List.mem_cons_of_mem _ member)
      cases fate with
      | none => exact ih follows sane' remaining
      | some keys =>
          obtain ⟨middle, landed, remaining⟩ := remaining
          exact ih (follows.land (sane batch List.mem_cons_self) landed) sane' remaining

theorem settle_head {pending rest : List Batch} {fates : List (Option (List EntityKey))}
    (settled : chain.settle me pending fates = some (next, rest)) : next.head = chain.head := by
  induction fates generalizing chain pending with
  | nil =>
      obtain ⟨rfl, _⟩ := settle_nil.mp settled
      rfl
  | cons fate fates ih =>
      obtain ⟨batch, others, rfl, remaining⟩ := settle_cons.mp settled
      cases fate with
      | none => exact ih remaining
      | some keys =>
          obtain ⟨middle, landed, remaining⟩ := remaining
          exact (ih remaining).trans (land_head landed)

/-- What is left of the writes in flight is their end. -/
theorem settle_suffix {pending rest : List Batch} {fates : List (Option (List EntityKey))}
    (settled : chain.settle me pending fates = some (next, rest)) : rest <:+ pending := by
  induction fates generalizing chain pending with
  | nil =>
      obtain ⟨_, rfl⟩ := settle_nil.mp settled
      exact List.suffix_refl _
  | cons fate fates ih =>
      obtain ⟨batch, others, rfl, remaining⟩ := settle_cons.mp settled
      cases fate with
      | none => exact (ih remaining).trans (List.suffix_cons _ _)
      | some keys =>
          obtain ⟨middle, landed, remaining⟩ := remaining
          exact (ih remaining).trans (List.suffix_cons _ _)

end Chain

end CommunityLb
