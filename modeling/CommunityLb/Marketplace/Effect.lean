import CommunityLb.Marketplace.Landing
import CommunityLb.Marketplace.Reconcile

/-!
# What a batch leaves of a row

A batch names a row by its operations.  A row that it names once, or not at all, is told by that
operation alone.
-/

namespace CommunityLb

namespace Chain

variable {me : Address} {chain next : Chain} {key fresh : EntityKey}

theorem set_set (record : Record) (set : SetAttributes) :
    (record.set set).set set = record.set set := by
  cases record with
  | counter record =>
      cases set with
      | listing other => rfl
      | counter payload state => cases state <;> rfl
  | listing record => cases set <;> rfl
  | offer record => cases set <;> rfl
  | agreement record => cases set <;> rfl
  | unreadable kind state => cases set <;> rfl

theorem operate_other {operation : Operation}
    (operated : chain.operate me fresh operation = some next) {row : Stored Record}
    (found : chain.entities.get? key = some row) (other : operation.target ≠ some key) :
    next.entities.get? key = some row ∧ (key ∈ next.gone ↔ key ∈ chain.gone) := by
  cases operation with
  | create record seconds =>
      have free := operate_fresh operated
      simp only [operate] at operated
      split at operated
      · cases operated
        have differs : key ≠ fresh := by
          rintro rfl
          simp [free] at found
        exact ⟨by simp [Keyed.get?_insert, differs, found], Iff.rfl⟩
      · cases operated
  | patch target set =>
      have differs : key ≠ target := fun same => other (congrArg some same.symm)
      simp only [operate] at operated
      split at operated
      · cases operated
        exact ⟨by simp [Keyed.get?_adjust, differs, found], Iff.rfl⟩
      · cases operated
  | delete target =>
      have differs : key ≠ target := fun same => other (congrArg some same.symm)
      simp only [operate] at operated
      split at operated
      · cases operated
        exact ⟨found, by simp [differs]⟩
      · cases operated
  | extend target seconds =>
      have differs : key ≠ target := fun same => other (congrArg some same.symm)
      simp only [operate] at operated
      split at operated
      · cases operated
        exact ⟨by simp [Keyed.get?_adjust, differs, found], Iff.rfl⟩
      · cases operated

theorem operate_patch {set : SetAttributes} {row : Stored Record}
    (operated : chain.operate me fresh (.patch key set) = some next)
    (found : chain.entities.get? key = some row) :
    next.entities.get? key = some { row with record := row.record.set set } ∧
      next.gone = chain.gone := by
  simp only [operate] at operated
  split at operated
  · cases operated
    exact ⟨by simp [Keyed.get?_adjust, found], rfl⟩
  · cases operated

theorem operate_delete
    (operated : chain.operate me fresh (.delete key) = some next) :
    next.entities = chain.entities ∧ next.gone = key :: chain.gone := by
  simp only [operate] at operated
  split at operated
  · cases operated
    exact ⟨rfl, rfl⟩
  · cases operated

/-- A row that no operation names is as it was. -/
theorem execute_other {batch : List (Operation × EntityKey)}
    (executed : chain.execute me batch = some next) {row : Stored Record}
    (found : chain.entities.get? key = some row)
    (others : ∀ pair ∈ batch, pair.1.target ≠ some key) :
    next.entities.get? key = some row ∧ (key ∈ next.gone ↔ key ∈ chain.gone) := by
  induction batch generalizing chain with
  | nil =>
      cases executed
      exact ⟨found, Iff.rfl⟩
  | cons pair batch ih =>
      obtain ⟨middle, operated, rest⟩ := Option.bind_eq_some_iff.mp executed
      obtain ⟨stays, gone⟩ := operate_other operated found (others pair List.mem_cons_self)
      obtain ⟨now, goneNow⟩ := ih rest stays fun other member =>
        others other (List.mem_cons_of_mem _ member)
      exact ⟨now, goneNow.trans gone⟩

/-- A row that one patch names, and nothing else, is patched. -/
theorem execute_patched {batch : List (Operation × EntityKey)} {set : SetAttributes}
    (executed : chain.execute me batch = some next) {row : Stored Record}
    (found : chain.entities.get? key = some row)
    (only : ∀ pair ∈ batch, pair.1.target = some key → pair.1 = .patch key set)
    (named : ∃ pair ∈ batch, pair.1 = .patch key set) :
    next.entities.get? key = some { row with record := row.record.set set } ∧
      (key ∈ next.gone ↔ key ∈ chain.gone) := by
  induction batch generalizing chain row with
  | nil =>
      obtain ⟨_, member, _⟩ := named
      cases member
  | cons pair batch ih =>
      obtain ⟨middle, operated, rest⟩ := Option.bind_eq_some_iff.mp executed
      have later : ∀ other ∈ batch, other.1.target = some key → other.1 = .patch key set :=
        fun other member => only other (List.mem_cons_of_mem _ member)
      by_cases here : pair.1.target = some key
      · rw [only pair List.mem_cons_self here] at operated
        obtain ⟨patched, gone⟩ := operate_patch operated found
        by_cases again : ∃ other ∈ batch, other.1 = .patch key set
        · obtain ⟨now, goneNow⟩ := ih rest patched later again
          exact ⟨by rw [now, set_set], goneNow.trans (by rw [gone])⟩
        · have others : ∀ other ∈ batch, other.1.target ≠ some key :=
            fun other member names => again ⟨other, member, later other member names⟩
          obtain ⟨now, goneNow⟩ := execute_other rest patched others
          exact ⟨now, goneNow.trans (by rw [gone])⟩
      · obtain ⟨stays, gone⟩ := operate_other operated found here
        have named : ∃ other ∈ batch, other.1 = .patch key set := by
          obtain ⟨other, member, isPatch⟩ := named
          rcases List.mem_cons.mp member with rfl | isLater
          · exact absurd (by rw [isPatch]; rfl) here
          · exact ⟨other, isLater, isPatch⟩
        obtain ⟨now, goneNow⟩ := ih rest stays later named
        exact ⟨now, goneNow.trans gone⟩

/-- What is gone after a batch was gone before it, or the batch deletes it. -/
theorem execute_gone {batch : List (Operation × EntityKey)}
    (executed : chain.execute me batch = some next) :
    key ∈ next.gone ↔ key ∈ chain.gone ∨ ∃ pair ∈ batch, pair.1 = .delete key := by
  induction batch generalizing chain with
  | nil =>
      cases executed
      simp
  | cons pair batch ih =>
      obtain ⟨middle, operated, rest⟩ := Option.bind_eq_some_iff.mp executed
      have here : key ∈ middle.gone ↔ key ∈ chain.gone ∨ pair.1 = .delete key := by
        cases isOperation : pair.1 with
        | delete target =>
            rw [isOperation] at operated
            rw [(operate_delete operated).2]
            simp [or_comm, eq_comm]
        | create record seconds =>
            rw [isOperation] at operated
            simp only [operate] at operated
            split at operated <;> cases operated
            simp
        | patch target set =>
            rw [isOperation] at operated
            simp only [operate] at operated
            split at operated <;> cases operated
            simp
        | extend target seconds =>
            rw [isOperation] at operated
            simp only [operate] at operated
            split at operated <;> cases operated
            simp
      rw [ih rest, here]
      simp only [List.exists_mem_cons_iff, or_assoc]

/-- A row that a batch creates stands as created, when nothing else of the batch names it. -/
theorem execute_creates {batch : List (Operation × EntityKey)} {record : Record} {seconds : Nat}
    (executed : chain.execute me batch = some next)
    (member : (Operation.create record seconds, key) ∈ batch)
    (others : ∀ pair ∈ batch, pair.1.target ≠ some key) :
    chain.entities.get? key = none ∧ next.entities.get? key = some
      { key := key
        creator := me
        createdAt := chain.head
        expiresAt := chain.head + blocksOf seconds
        record := record } := by
  induction batch generalizing chain with
  | nil => cases member
  | cons pair batch ih =>
      obtain ⟨middle, operated, rest⟩ := Option.bind_eq_some_iff.mp executed
      have later : ∀ other ∈ batch, other.1.target ≠ some key :=
        fun other member => others other (List.mem_cons_of_mem _ member)
      rcases List.mem_cons.mp member with rfl | isLater
      · exact ⟨operate_fresh operated, (execute_other rest (operate_created operated) later).1⟩
      · obtain ⟨free, now⟩ := ih rest isLater later
        rw [operate_head operated] at now
        refine ⟨?_, now⟩
        by_contra known
        obtain ⟨row, found⟩ := Option.ne_none_iff_exists'.mp known
        rw [(operate_other operated found (others pair List.mem_cons_self)).1] at free
        cases free

/-- A row after a batch was there before it, or the batch creates it. -/
theorem execute_origin {batch : List (Operation × EntityKey)}
    (executed : chain.execute me batch = some next) (known : (next.entities.get? key).isSome) :
    (chain.entities.get? key).isSome ∨
      ∃ record seconds, (Operation.create record seconds, key) ∈ batch := by
  induction batch generalizing chain with
  | nil =>
      cases executed
      exact .inl known
  | cons pair batch ih =>
      obtain ⟨middle, operated, rest⟩ := Option.bind_eq_some_iff.mp executed
      rcases ih rest with was | ⟨record, seconds, later⟩
      · rcases operate_known operated was with old | ⟨rfl, record, seconds, isCreate⟩
        · exact .inl old
        · refine .inr ⟨record, seconds, List.mem_cons.mpr (.inl ?_)⟩
          rw [← isCreate]
      · exact .inr ⟨record, seconds, List.mem_cons_of_mem _ later⟩

/-- What is gone had been written. -/
def Kept (chain : Chain) : Prop :=
  ∀ key ∈ chain.gone, (chain.entities.get? key).isSome

theorem execute_known {batch : List (Operation × EntityKey)}
    (executed : chain.execute me batch = some next) (known : (chain.entities.get? key).isSome) :
    (next.entities.get? key).isSome := by
  obtain ⟨row, found⟩ := Option.isSome_iff_exists.mp known
  obtain ⟨now, isNow, _⟩ := (execute_stays executed).row key row found
  rw [isNow]
  rfl

/-- A row that a batch creates was not there. -/
theorem execute_free {batch : List (Operation × EntityKey)} {record : Record} {seconds : Nat}
    (executed : chain.execute me batch = some next)
    (member : (Operation.create record seconds, key) ∈ batch) :
    chain.entities.get? key = none := by
  induction batch generalizing chain with
  | nil => cases member
  | cons pair batch ih =>
      obtain ⟨middle, operated, rest⟩ := Option.bind_eq_some_iff.mp executed
      rcases List.mem_cons.mp member with rfl | isLater
      · exact operate_fresh operated
      · have free := ih rest isLater
        by_contra known
        have alone : chain.execute me [pair] = some middle :=
          Option.bind_eq_some_iff.mpr ⟨middle, operated, rfl⟩
        have still := execute_known alone (Option.isSome_iff_ne_none.mpr known)
        rw [free] at still
        cases still

theorem kept_law (me : Address) : Law me (fun _ => True) Kept Kept where
  opens _ _ kept := kept
  closes _ kept := kept
  operates chain next fresh operation kept _ operated := by
    have alone : chain.execute me [(operation, fresh)] = some next :=
      Option.bind_eq_some_iff.mpr ⟨next, operated, rfl⟩
    intro key gone
    rcases (execute_gone alone).mp gone with before | ⟨pair, member, isDelete⟩
    · exact execute_known alone (kept key before)
    · obtain rfl := List.mem_singleton.mp member
      obtain rfl : operation = .delete key := isDelete
      apply execute_known alone
      simp only [operate] at operated
      split at operated
      · next lives =>
          obtain ⟨row, isLive⟩ := Option.isSome_iff_exists.mp lives
          rw [(Option.filter_eq_some_iff.mp isLive).1]
          rfl
      · cases operated
  posts chain row kept _ _ _ key gone := by
    rw [Keyed.get?_insert]
    split
    · rfl
    · exact kept key gone
  withdraws chain key row kept found _ other gone := by
    rcases List.mem_cons.mp gone with rfl | before
    · rw [found]
      rfl
    · exact kept other before

end Chain

/-! ## Counter rows -/

/-- The row a counter record is read from. -/
def Stored.row (stored : Stored CounterRecord) : Stored Record where
  key := stored.key
  creator := stored.creator
  createdAt := stored.createdAt
  expiresAt := stored.expiresAt
  record := .counter stored.record

theorem Stored.decode_counter {row : Stored Record} {stored : Stored CounterRecord} :
    Stored.decode Record.asCounter row = some stored ↔ row = stored.row := by
  rw [Stored.decode, Option.map_eq_some_iff]
  constructor
  · rintro ⟨record, isCounter, rfl⟩
    have isRecord : row.record = .counter record := by
      cases kind : row.record <;> rw [kind] at isCounter <;> cases isCounter
      rfl
    cases row
    simp_all [Stored.row]
  · rintro rfl
    exact ⟨stored.record, rfl, rfl⟩

/-! ## A batch that is answered -/

/-- A batch lands some blocks later, and its receipt names what it patched.  An empty one, which is
not sent, leaves the chain as it is. -/
def Lands (me : Address) (chain : Chain) (batch : Batch) (next : Chain)
    (patched : List EntityKey) : Prop :=
  ∃ count keys, (chain.advance count).land me batch keys = some next ∧
    patched = (BatchResult.of next.head (batch.zip keys)).patchedEntities

/-- The agreement a create opens a counter record for. -/
def Operation.counts : Operation → Option EntityKey
  | .create (.counter record) _ => some record.agreement
  | _ => none

theorem patched_of {block : Nat} {batch : List (Operation × EntityKey)} {key : EntityKey} :
    key ∈ (BatchResult.of block batch).patchedEntities ↔
      ∃ pair ∈ batch, ∃ set, pair.1 = .patch key set := by
  induction batch with
  | nil => simp [BatchResult.of]
  | cons pair batch ih =>
      obtain ⟨operation, fresh⟩ := pair
      cases operation <;> simp [BatchResult.of, ih, eq_comm]

section Lands

variable {me : Address} {chain next : Chain} {batch : Batch} {patched : List EntityKey}
  {key : EntityKey}

theorem Lands.executed (lands : Lands me chain batch next patched) :
    ∃ count pairs, pairs.map Prod.fst = batch ∧
      (chain.advance count).execute me pairs = some next ∧
        patched = (BatchResult.of next.head pairs).patchedEntities := by
  obtain ⟨count, keys, landed, named⟩ := lands
  obtain ⟨length, executed⟩ := Chain.land_eq_some.mp landed
  exact ⟨count, batch.zip keys, List.map_fst_zip length.ge, executed, named⟩

theorem mem_of_pairs {pairs : List (Operation × EntityKey)} (all : pairs.map Prod.fst = batch)
    {operation : Operation} : operation ∈ batch ↔ ∃ pair ∈ pairs, pair.1 = operation := by
  rw [← all, List.mem_map]

theorem Lands.head (lands : Lands me chain batch next patched) : chain.head ≤ next.head := by
  obtain ⟨count, pairs, _, executed, _⟩ := lands.executed
  rw [Chain.execute_head executed]
  exact Nat.le_add_right _ _

theorem Lands.mem_patched (lands : Lands me chain batch next patched) :
    key ∈ patched ↔ ∃ set, .patch key set ∈ batch := by
  obtain ⟨_, pairs, all, _, rfl⟩ := lands.executed
  rw [patched_of]
  constructor
  · rintro ⟨pair, member, set, isPatch⟩
    exact ⟨set, (mem_of_pairs all).mpr ⟨pair, member, isPatch⟩⟩
  · rintro ⟨set, member⟩
    obtain ⟨pair, inPairs, isPatch⟩ := (mem_of_pairs all).mp member
    exact ⟨pair, inPairs, set, isPatch⟩

theorem Lands.gone (lands : Lands me chain batch next patched) :
    key ∈ next.gone ↔ key ∈ chain.gone ∨ .delete key ∈ batch := by
  obtain ⟨_, pairs, all, executed, _⟩ := lands.executed
  rw [Chain.execute_gone executed, mem_of_pairs all]
  rfl

theorem Lands.other (lands : Lands me chain batch next patched) {row : Stored Record}
    (found : chain.entities.get? key = some row)
    (others : ∀ operation ∈ batch, operation.target ≠ some key) :
    next.entities.get? key = some row := by
  obtain ⟨_, pairs, all, executed, _⟩ := lands.executed
  exact (Chain.execute_other executed found fun pair member =>
    others pair.1 ((mem_of_pairs all).mpr ⟨pair, member, rfl⟩)).1

theorem Lands.patches (lands : Lands me chain batch next patched) {row : Stored Record}
    {set : SetAttributes} (found : chain.entities.get? key = some row)
    (only : ∀ operation ∈ batch, operation.target = some key → operation = .patch key set)
    (named : .patch key set ∈ batch) :
    next.entities.get? key = some { row with record := row.record.set set } := by
  obtain ⟨_, pairs, all, executed, _⟩ := lands.executed
  exact (Chain.execute_patched executed found
    (fun pair member => only pair.1 ((mem_of_pairs all).mpr ⟨pair, member, rfl⟩))
    ((mem_of_pairs all).mp named)).1

theorem Lands.kept (lands : Lands me chain batch next patched) (kept : chain.Kept) :
    next.Kept := by
  obtain ⟨count, keys, landed, _⟩ := lands
  have advanced : (chain.advance count).Kept := kept
  exact (Chain.kept_law me).land advanced (fun _ _ => trivial) landed

/-- A row as a create leaves it. -/
structure CreatedRow (me : Address) (chain next : Chain) (record : Record) (seconds : Nat)
    (row : Stored Record) : Prop where
  free : chain.entities.get? row.key = none
  found : next.entities.get? row.key = some row
  creator : row.creator = me
  record : row.record = record
  expiresAt : chain.head + blocksOf seconds ≤ row.expiresAt

theorem Lands.creates (lands : Lands me chain batch next patched) {record : Record} {seconds : Nat}
    (targets : ∀ operation ∈ batch, ∀ key, operation.target = some key →
      (chain.entities.get? key).isSome)
    (member : .create record seconds ∈ batch) :
    ∃ row, CreatedRow me chain next record seconds row := by
  obtain ⟨count, pairs, all, executed, _⟩ := lands.executed
  obtain ⟨⟨operation, fresh⟩, inPairs, isCreate⟩ := (mem_of_pairs all).mp member
  obtain rfl : operation = .create record seconds := isCreate
  have free : (chain.advance count).entities.get? fresh = none :=
    Chain.execute_free executed inPairs
  have others : ∀ pair ∈ pairs, pair.1.target ≠ some fresh := by
    intro pair inOther names
    have known : ((chain.advance count).entities.get? fresh).isSome :=
      targets pair.1 ((mem_of_pairs all).mpr ⟨pair, inOther, rfl⟩) fresh names
    rw [free] at known
    cases known
  have now := (Chain.execute_creates executed inPairs others).2
  have later : chain.head + blocksOf seconds ≤ chain.head + count + blocksOf seconds := by omega
  exact
    ⟨{ key := fresh
       creator := me
       createdAt := chain.head + count
       expiresAt := chain.head + count + blocksOf seconds
       record := record }, free, now, rfl, rfl, later⟩

/-- A row after a batch was there before it, or the batch creates it, one row for each create. -/
theorem Lands.origin (lands : Lands me chain batch next patched)
    (targets : ∀ operation ∈ batch, ∀ key, operation.target = some key →
      (chain.entities.get? key).isSome)
    {row : Stored Record} (found : next.entities.get? key = some row) :
    (chain.entities.get? key).isSome ∨
      ∃ record seconds, .create record seconds ∈ batch ∧ row.record = record := by
  obtain ⟨count, pairs, all, executed, _⟩ := lands.executed
  rcases Chain.execute_origin executed (by rw [found]; rfl) with old | ⟨record, seconds, inPairs⟩
  · exact .inl old
  · have free : (chain.advance count).entities.get? key = none :=
      Chain.execute_free executed inPairs
    have others : ∀ pair ∈ pairs, pair.1.target ≠ some key := by
      intro pair inOther names
      have known : ((chain.advance count).entities.get? key).isSome :=
        targets pair.1 ((mem_of_pairs all).mpr ⟨pair, inOther, rfl⟩) key names
      rw [free] at known
      cases known
    have now := (Chain.execute_creates executed inPairs others).2
    rw [found] at now
    refine .inr ⟨record, seconds, (mem_of_pairs all).mpr ⟨_, inPairs, rfl⟩, ?_⟩
    rw [Option.some.inj now]

/-- A batch that opens no two records for one agreement leaves one of them. -/
theorem Lands.created_unique (lands : Lands me chain batch next patched)
    (targets : ∀ operation ∈ batch, ∀ key, operation.target = some key →
      (chain.entities.get? key).isSome)
    (once : (batch.filterMap Operation.counts).Nodup) {first second : Stored CounterRecord}
    (inFirst : next.entities.get? first.key = some first.row)
    (inSecond : next.entities.get? second.key = some second.row)
    (freeFirst : chain.entities.get? first.key = none)
    (freeSecond : chain.entities.get? second.key = none)
    (same : first.record.agreement = second.record.agreement) : first.key = second.key := by
  obtain ⟨count, pairs, all, executed, _⟩ := lands.executed
  have created : ∀ stored : Stored CounterRecord,
      next.entities.get? stored.key = some stored.row → chain.entities.get? stored.key = none →
        ∃ operation, (operation, stored.key) ∈ pairs ∧
          operation.counts = some stored.record.agreement := by
    intro stored found free
    rcases Chain.execute_origin executed (by rw [found]; rfl) with old | ⟨record, seconds, inPairs⟩
    · have old : (chain.entities.get? stored.key).isSome := old
      rw [free] at old
      cases old
    · have others : ∀ pair ∈ pairs, pair.1.target ≠ some stored.key := by
        intro pair inOther names
        have known := targets pair.1 ((mem_of_pairs all).mpr ⟨pair, inOther, rfl⟩) stored.key names
        rw [free] at known
        cases known
      have now := (Chain.execute_creates executed inPairs others).2
      rw [found] at now
      have isRecord : .counter stored.record = record :=
        congrArg Stored.record (Option.some.inj now)
      refine ⟨_, inPairs, ?_⟩
      rw [← isRecord]
      rfl
  obtain ⟨one, inOne, countsOne⟩ := created first inFirst freeFirst
  obtain ⟨two, inTwo, countsTwo⟩ := created second inSecond freeSecond
  rw [← all, List.filterMap_map, List.Nodup, List.pairwise_filterMap] at once
  by_contra differs
  have : Std.Symm fun one two : Operation × EntityKey =>
      ∀ a, (Operation.counts ∘ Prod.fst) one = some a →
        ∀ b, (Operation.counts ∘ Prod.fst) two = some b → a ≠ b :=
    ⟨fun _ _ apart a isA b isB eq => apart b isB a isA eq.symm⟩
  have apart := once.forall inOne inTwo (fun eq => differs (congrArg Prod.snd eq))
  exact apart _ countsOne _ countsTwo same

end Lands

/-- Along every run what is gone had been written. -/
theorem State.kept_run {urls : Urls} {sidecar : Identity} {start finish : State}
    {events : List Event} (kept : start.chain.Kept)
    (ran : (world urls sidecar).run start events = some finish) : finish.chain.Kept := by
  have step : ∀ state event next, state.chain.Kept →
      (world urls sidecar).step state event = some next → next.chain.Kept := by
    intro state event next before stepped
    have sends : state.Sends fun _ => True :=
      ⟨fun _ _ _ _ => trivial, fun _ _ _ _ _ _ => trivial, fun _ _ => trivial⟩
    exact (State.step_law (Chain.kept_law sidecar.address) sends before stepped).1
  exact Machine.run_preserves step kept ran

end CommunityLb
