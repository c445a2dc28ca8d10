import CommunityLb.Marketplace.OnChain
import CommunityLb.Marketplace.Reading

/-!
# What memory and the task refer to is there

Every key that the LB holds, in memory or in a write on its way, is of an entity that the chain has
or had.  A new record's key is therefore none of them.
-/

namespace CommunityLb

/-- What memory refers to. -/
structure Agent.Grounded (me : Address) (chain : Chain) (agent : Agent) : Prop where
  self : agent.identity.address = me
  life : 0 < blocks agent.config.counterRecordLife
  offerLife : 0 < blocks agent.config.offerMaxLifetime
  known : ∀ live ∈ agent.agreements.values, (chain.entities.get? live.key).isSome
  owned : ∀ live ∈ agent.agreements.values, ∀ counter ∈ live.counter,
    chain.owner me counter.key = some live.key
  entry : ∀ live ∈ agent.agreements.values, ∃ provider address port,
    agent.pool.entryAt live.provider = some provider ∧
      provider.source = .marketplace address live.key port

/-- Every operation of some batches is as the LB makes them. -/
def SaneQueue (me : Address) (chain : Chain) (queue : List Batch) : Prop :=
  ∀ batch ∈ queue, ∀ operation ∈ batch, operation.Sane me chain

/-- Nothing of some batches is a patch of a listing. -/
def Unlisted (queue : List Batch) : Prop :=
  ∀ batch ∈ queue, ∀ operation ∈ batch, ∀ key listing, operation ≠ .patch key (.listing listing)

/-- What the counter reconcile read refers to. -/
structure Counters.Grounded (me : Address) (chain : Chain) (agreements : KnownAgreements)
    (counters : Counters) : Prop where
  opened : ∀ stored ∈ counters.opened.values,
    chain.owner me stored.key = some stored.record.agreement ∧
      (agreements.get? stored.record.agreement).isSome
  duplicates : ∀ key ∈ counters.duplicates, (chain.owner me key).isSome
  strays : ∀ stored ∈ counters.strays,
    chain.owner me stored.key = some stored.record.agreement ∧
      agreements.get? stored.record.agreement = none
  distinct : (counters.strays.map counterAgreement).Nodup

/-- What a lookup of the records memory misses refers to. -/
structure LookupGrounded (me : Address) (chain : Chain) (agreements : KnownAgreements)
    (opened : CountersByAgreement) (duplicates : List EntityKey)
    (missing : List (EntityKey × EntityKey)) (closed : List (EntityKey × Nat)) : Prop where
  records : ∀ stored ∈ opened.values, chain.owner me stored.key = some stored.record.agreement
  younger : ∀ key ∈ duplicates, (chain.owner me key).isSome
  looked : ∀ pair ∈ missing, chain.owner me pair.2 = some pair.1
  distinct : (missing.map Prod.fst ++ closed.map Prod.fst).Nodup
  unread : ∀ agreement ∈ missing.map Prod.fst ++ closed.map Prod.fst,
    opened.get? agreement = none ∧ (agreements.get? agreement).isSome

/-- What a task refers to. -/
def Task.Grounded (me : Address) (chain : Chain) (agreements : KnownAgreements) : Task → Prop
  | .closeEnded _ _ queue | .flushSuccessors _ queue | .refreshWrites queue =>
      SaneQueue me chain queue
  | .closedCount _ _ opened duplicates missing closed =>
      LookupGrounded me chain agreements opened duplicates missing closed
  | .countsBatch _ _ counters => counters.Grounded me chain agreements
  | .flushCounts _ _ closing queue _ =>
      SaneQueue me chain queue ∧ Unlisted queue ∧
        (∀ close ∈ closing, chain.owner me close.counter = some close.agreement) ∧
        (closing.map Closing.agreement).Nodup
  | .acceptCounter _ _ _ agreement =>
      (chain.entities.get? agreement).isSome ∧ (agreements.get? agreement).isSome
  | _ => True

/-- What a process refers to. -/
structure Process.Grounded (me : Address) (chain : Chain) (process : Process) : Prop where
  agent : process.agent.Grounded me chain
  task : process.task.Grounded me chain process.agent.agreements

/-- What the LB refers to, and the earlier states a query may show, are of the chain. -/
structure State.Grounded (me : Address) (state : State) : Prop where
  rooted : state.chain.Rooted me
  behind : ∀ earlier ∈ state.behind, earlier.Grows me state.chain
  pending : SaneQueue me state.chain state.pending
  process : ∀ process ∈ state.process, process.Grounded me state.chain

/-! ## The chain goes on -/

section Grows

variable {me : Address} {chain next : Chain}

theorem SaneQueue.grows {queue : List Batch} (sane : SaneQueue me chain queue)
    (grows : chain.Grows me next) : SaneQueue me next queue :=
  fun batch member operation inBatch => grows.sane (sane batch member operation inBatch)

theorem Chain.Grows.owned {key agreement : EntityKey} (grows : chain.Grows me next)
    (owned : chain.owner me key = some agreement) : next.owner me key = some agreement := by
  rw [grows.owner key (Chain.known_of_owner (by rw [owned]; rfl)), owned]

theorem Chain.Grows.counted {key : EntityKey} (grows : chain.Grows me next)
    (owned : (chain.owner me key).isSome) : (next.owner me key).isSome := by
  rwa [grows.owner key (Chain.known_of_owner owned)]

theorem Agent.Grounded.grows {agent : Agent} (grounded : agent.Grounded me chain)
    (grows : chain.Grows me next) : agent.Grounded me next where
  self := grounded.self
  life := grounded.life
  offerLife := grounded.offerLife
  known live member := grows.known _ (grounded.known live member)
  owned live member counter counts := grows.owned (grounded.owned live member counter counts)
  entry := grounded.entry

theorem Task.Grounded.grows {task : Task} {agreements : KnownAgreements}
    (grounded : task.Grounded me chain agreements) (grows : chain.Grows me next) :
    task.Grounded me next agreements := by
  cases task with
  | closeEnded work head queue => exact SaneQueue.grows grounded grows
  | flushSuccessors kind queue => exact SaneQueue.grows grounded grows
  | refreshWrites queue => exact SaneQueue.grows grounded grows
  | closedCount work head opened duplicates missing closed =>
      have lookup : LookupGrounded me chain agreements opened duplicates missing closed := grounded
      exact LookupGrounded.mk (fun stored member => grows.owned (lookup.records stored member))
        (fun key member => grows.counted (lookup.younger key member))
        (fun pair member => grows.owned (lookup.looked pair member)) lookup.distinct lookup.unread
  | countsBatch kind head counters =>
      have read : counters.Grounded me chain agreements := grounded
      exact Counters.Grounded.mk
        (fun stored member => (read.opened stored member).imp_left grows.owned)
        (fun key member => grows.counted (read.duplicates key member))
        (fun stored member => (read.strays stored member).imp_left grows.owned) read.distinct
  | flushCounts kind head closing queue patched =>
      obtain ⟨sane, unlisted, owned, distinct⟩ := grounded
      exact ⟨sane.grows grows, unlisted, fun close member => grows.owned (owned close member),
        distinct⟩
  | acceptCounter discovery offer port agreement =>
      exact And.imp_left (grows.known _) grounded
  | _ => trivial

/-- A task refers to agreements by their keys alone. -/
theorem Task.Grounded.congr {task : Task} {agreements others : KnownAgreements}
    (grounded : task.Grounded me chain agreements)
    (same : ∀ agreement, (agreements.get? agreement).isSome = (others.get? agreement).isSome) :
    task.Grounded me chain others := by
  have none_iff : ∀ agreement, agreements.get? agreement = none → others.get? agreement = none := by
    intro agreement absent
    have known := same agreement
    rw [absent] at known
    exact Option.isNone_iff_eq_none.mp (by simpa using known.symm)
  cases task with
  | closedCount work head opened duplicates missing closed =>
      have lookup : LookupGrounded me chain agreements opened duplicates missing closed := grounded
      exact LookupGrounded.mk lookup.records lookup.younger lookup.looked lookup.distinct
        fun agreement member => (lookup.unread agreement member).imp_right (same agreement ▸ ·)
  | countsBatch kind head counters =>
      have read : counters.Grounded me chain agreements := grounded
      exact Counters.Grounded.mk
        (fun stored member => (read.opened stored member).imp_right (same _ ▸ ·)) read.duplicates
        (fun stored member => (read.strays stored member).imp_right (none_iff _)) read.distinct
  | acceptCounter discovery offer port agreement =>
      exact And.imp_right (same agreement ▸ ·) grounded
  | _ => exact grounded

theorem Process.Grounded.grows {process : Process} (grounded : process.Grounded me chain)
    (grows : chain.Grows me next) : process.Grounded me next :=
  ⟨grounded.agent.grows grows, grounded.task.grows grows⟩

end Grows

/-! ## Memory changes -/

namespace Agent

variable {me : Address} {chain : Chain} {agent after : Agent}

/-- Memory changed under the agreements it had: their entries stay, and a counter is one of theirs. -/
theorem Grounded.change (grounded : agent.Grounded me chain) (config : after.config = agent.config)
    (identity : after.identity = agent.identity)
    (sources : ∀ handle provider, agent.pool.entryAt handle = some provider →
      ∃ later, after.pool.entryAt handle = some later ∧ later.source = provider.source)
    (lives : ∀ live ∈ after.agreements.values, ∃ old ∈ agent.agreements.values,
      old.key = live.key ∧ old.provider = live.provider ∧
        ∀ counter ∈ live.counter, chain.owner me counter.key = some live.key) :
    after.Grounded me chain where
  self := identity ▸ grounded.self
  life := config ▸ grounded.life
  offerLife := config ▸ grounded.offerLife
  known live member := by
    obtain ⟨old, inOld, sameKey, _⟩ := lives live member
    exact sameKey ▸ grounded.known old inOld
  owned live member := by
    obtain ⟨_, _, _, _, owned⟩ := lives live member
    exact owned
  entry live member := by
    obtain ⟨old, inOld, sameKey, sameHandle, _⟩ := lives live member
    obtain ⟨provider, address, port, found, source⟩ := grounded.entry old inOld
    obtain ⟨later, isThere, same⟩ := sources old.provider provider found
    exact ⟨later, address, port, sameHandle ▸ isThere, by rw [same, source, sameKey]⟩

/-- What memory does not refer with changes. -/
theorem Grounded.config (grounded : agent.Grounded me chain) (config : after.config = agent.config)
    (identity : after.identity = agent.identity) (pool : after.pool = agent.pool)
    (agreements : after.agreements = agent.agreements) : after.Grounded me chain := by
  refine grounded.change config identity (fun _ provider found => ⟨provider, pool ▸ found, rfl⟩) ?_
  rw [agreements]
  exact fun live member => ⟨live, member, rfl, rfl, grounded.owned live member⟩

/-- Only entries change, and they keep their source. -/
theorem Grounded.modify (grounded : agent.Grounded me chain) (handle : Handle)
    (entry : Provider → Provider) (keeps : ∀ provider, (entry provider).source = provider.source) :
    ({ agent with pool := agent.pool.modify handle entry } : Agent).Grounded me chain := by
  refine grounded.change rfl rfl (fun other provider found => ?_) fun live member =>
    ⟨live, member, rfl, rfl, grounded.owned live member⟩
  rw [Pool.entryAt_modify]
  split
  · exact ⟨entry provider, by rw [found]; rfl, keeps provider⟩
  · exact ⟨provider, found, rfl⟩

/-- Only the order of the agreements changes. -/
theorem Grounded.reorder (grounded : agent.Grounded me chain) (order : List EntityKey) :
    ({ agent with agreements := agent.agreements.reorder order } : Agent).Grounded me chain :=
  grounded.change rfl rfl (fun _ provider found => ⟨provider, found, rfl⟩) fun live member =>
    ⟨live, Keyed.mem_reorder.mp member, rfl, rfl,
      grounded.owned live (Keyed.mem_reorder.mp member)⟩

/-- One agreement changes, under its key and with its entry. -/
theorem Grounded.adjust (grounded : agent.Grounded me chain) (agreement : EntityKey)
    (change : Live → Live) (keeps : ∀ live, (change live).key = live.key)
    (entry : ∀ live, (change live).provider = live.provider)
    (owned : ∀ live ∈ agent.agreements.values, live.key = agreement →
      ∀ counter ∈ (change live).counter, chain.owner me counter.key = some live.key) :
    ({ agent with agreements := agent.agreements.adjust agreement change keeps } : Agent).Grounded
      me chain := by
  refine grounded.change rfl rfl (fun _ provider found => ⟨provider, found, rfl⟩) fun live member => ?_
  obtain ⟨old, inOld, rfl⟩ := List.mem_map.mp member
  split
  · next same => exact ⟨old, inOld, (keeps old).symm, (entry old).symm,
      (keeps old).symm ▸ owned old inOld same⟩
  · exact ⟨old, inOld, rfl, rfl, grounded.owned old inOld⟩

theorem Grounded.forgetCounter (grounded : agent.Grounded me chain) (agreement : EntityKey)
    (count : Nat) : (agent.forgetCounter agreement count).Grounded me chain := by
  rw [Agent.forgetCounter]
  split
  · exact grounded
  · next live found =>
      have entries := grounded.modify live.provider (·.subtractServed count) fun _ => rfl
      exact entries.adjust agreement (fun live => { live with counter := none }) (fun _ => rfl)
        (fun _ => rfl) (by simp)

theorem Grounded.forgetClosedCounters (grounded : agent.Grounded me chain)
    (closed : List (EntityKey × Nat)) : (agent.forgetClosedCounters closed).Grounded me chain := by
  rw [Agent.forgetClosedCounters]
  induction closed generalizing agent with
  | nil => exact grounded
  | cons found closed ih => exact ih (grounded.forgetCounter found.1 found.2)

theorem seedEntry_source {records : CountersByAgreement} {pool : Pool} {live : Live}
    {handle : Handle} {provider : Provider} (found : pool.entryAt handle = some provider) :
    ∃ later, (Agent.seedEntry records pool live).entryAt handle = some later ∧
      later.source = provider.source := by
  rw [Agent.seedEntry]
  split
  · next stored _ _ =>
      rw [Pool.entryAt_modify]
      split
      · exact ⟨provider.seedServed stored.record.count, by rw [found]; rfl, rfl⟩
      · exact ⟨provider, found, rfl⟩
  · exact ⟨provider, found, rfl⟩

theorem seedEntries_source {records : CountersByAgreement} {lives : List Live} {pool : Pool}
    {handle : Handle} {provider : Provider} (found : pool.entryAt handle = some provider) :
    ∃ later, (lives.foldl (Agent.seedEntry records) pool).entryAt handle = some later ∧
      later.source = provider.source := by
  induction lives generalizing pool provider with
  | nil => exact ⟨provider, found, rfl⟩
  | cons live lives ih =>
      obtain ⟨middle, isThere, same⟩ := seedEntry_source found
      obtain ⟨later, isLater, source⟩ := ih isThere
      exact ⟨later, isLater, source.trans same⟩

theorem Grounded.matchToAgreements (grounded : agent.Grounded me chain)
    {records : CountersByAgreement}
    (owned : ∀ stored ∈ records.values, chain.owner me stored.key = some stored.record.agreement) :
    (agent.matchToAgreements records).Grounded me chain := by
  refine grounded.change rfl rfl (fun _ _ found => seedEntries_source found) fun live member => ?_
  obtain ⟨old, inOld, rfl⟩ := List.mem_map.mp member
  refine ⟨old, inOld, rfl, rfl, fun counter counts => ?_⟩
  obtain ⟨stored, found, rfl⟩ := Option.map_eq_some_iff.mp counts
  obtain ⟨inRecords, same⟩ := Keyed.get?_eq_some.mp found
  exact (owned stored inRecords).trans (congrArg some same)

theorem Grounded.setCounter (grounded : agent.Grounded me chain) {agreement : EntityKey}
    {counter : Option OpenCounter}
    (owned : ∀ set ∈ counter, chain.owner me set.key = some agreement) :
    (agent.setCounter agreement counter).Grounded me chain :=
  grounded.adjust agreement (fun live => { live with counter := counter }) (fun _ => rfl)
    (fun _ => rfl) fun _ _ same set isSet => same ▸ owned set isSet

theorem Grounded.learnExpiry (grounded : agent.Grounded me chain) (agreement : EntityKey)
    (expiresAt : Nat) : (agent.learnExpiry agreement expiresAt).Grounded me chain :=
  grounded.adjust agreement _ (fun _ => by rfl) (fun _ => by rfl)
    fun live member _ => grounded.owned live member

theorem learnExpiry_isSome (agent : Agent) (agreement other : EntityKey) (expiresAt : Nat) :
    ((agent.learnExpiry agreement expiresAt).agreements.get? other).isSome =
      (agent.agreements.get? other).isSome := by
  have adjusted := Keyed.get?_adjust agent.agreements agreement
    (fun live => { live with agreement := { live.agreement with expiresAt := expiresAt } })
    (fun _ => rfl) other
  refine (congrArg Option.isSome adjusted).trans ?_
  split <;> simp

theorem Grounded.insertAgreement (grounded : agent.Grounded me chain) {stored : Stored Agreement}
    (known : (chain.entities.get? stored.key).isSome) :
    (agent.insertAgreement stored).Grounded me chain where
  self := grounded.self
  life := grounded.life
  offerLife := grounded.offerLife
  known live member := by
    rcases Keyed.mem_insert.mp member with ⟨old, _⟩ | rfl
    · exact grounded.known live old
    · exact known
  owned live member := by
    rcases Keyed.mem_insert.mp member with ⟨old, _⟩ | rfl
    · exact grounded.owned live old
    · exact fun counter counts => nomatch counts
  entry live member := by
    rcases Keyed.mem_insert.mp member with ⟨old, _⟩ | rfl
    · obtain ⟨provider, address, port, found, source⟩ := grounded.entry live old
      exact ⟨provider, address, port, Pool.entryAt_add_of_some _ found, source⟩
    · exact ⟨_, stored.record.provider, stored.record.remotePort, Pool.entryAt_add_new _ _, rfl⟩

theorem Grounded.adoptAgreement (grounded : agent.Grounded me chain) {stored : Stored Agreement}
    (known : (chain.entities.get? stored.key).isSome) :
    (agent.adoptAgreement stored).Grounded me chain := by
  rw [Agent.adoptAgreement]
  split
  · exact grounded.adjust stored.key _ (fun _ => by rfl) (fun _ => by rfl)
      fun live member _ => grounded.owned live member
  · split
    · exact grounded
    · exact grounded.insertAgreement known

theorem Grounded.adoptAgreements (grounded : agent.Grounded me chain)
    {live : List (Stored Agreement)}
    (known : ∀ stored ∈ live, (chain.entities.get? stored.key).isSome) :
    (agent.adoptAgreements live).Grounded me chain := by
  rw [Agent.adoptAgreements]
  induction live generalizing agent with
  | nil => exact grounded
  | cons stored live ih =>
      exact ih (grounded.adoptAgreement (known stored List.mem_cons_self))
        fun other member => known other (List.mem_cons_of_mem _ member)

theorem Grounded.endAgreement (grounded : agent.Grounded me chain) (ending : Live) :
    (agent.endAgreement ending).Grounded me chain :=
  grounded.change rfl rfl (fun _ provider found => ⟨provider, found, rfl⟩) fun live member =>
    ⟨live, (Keyed.mem_erase.mp member).1, rfl, rfl,
      grounded.owned live (Keyed.mem_erase.mp member).1⟩

theorem Grounded.endAgreements (grounded : agent.Grounded me chain) (live : List EntityKey) :
    (agent.endAgreements live).1.Grounded me chain := by
  simp only [Agent.endAgreements]
  generalize agent.agreements.values.filter (·.key ∉ live) = gone
  induction gone generalizing agent with
  | nil => exact grounded
  | cons ending gone ih => exact ih (grounded.endAgreement ending)

/-- A last write is of a record that memory counted into. -/
theorem Grounded.ended (grounded : agent.Grounded me chain) {live : List EntityKey} {ended : Ended}
    (member : ended ∈ (agent.endAgreements live).2) :
    chain.owner me ended.counter.key = some ended.agreement.key := by
  obtain ⟨ending, isGone, isEnded⟩ := List.mem_filterMap.mp member
  obtain ⟨counter, counts, rfl⟩ := Option.map_eq_some_iff.mp isEnded
  exact grounded.owned ending (List.mem_of_mem_filter isGone) counter counts

/-! ## What is written -/

theorem finalWrite_sane {ended : Ended} {agreement : EntityKey} (head : Nat)
    (owned : chain.owner me ended.counter.key = some agreement) :
    (finalWrite head ended).Sane me chain := by
  rw [finalWrite]
  split
  · simp [Operation.Sane, owned]
  · simp [Operation.Sane, patchRecord, owned]

theorem patchRecord_sane {key : EntityKey} {record : CounterRecord}
    (owned : (chain.owner me key).isSome) : (patchRecord key record).Sane me chain := by
  refine ⟨owned, ?_⟩
  split <;> simp

theorem strayWrite_sane {stray : Stored CounterRecord} (head : Nat)
    (owned : (chain.owner me stray.key).isSome) : (strayWrite head stray).Sane me chain := by
  rw [strayWrite]
  split
  · exact owned
  · exact patchRecord_sane owned

theorem freshCounter_sane {agreement : EntityKey} {record : Agreement} {wei : Wei} {head : Nat}
    (grounded : agent.Grounded me chain) (known : (chain.entities.get? agreement).isSome) :
    (Operation.create (.counter (freshCounter agreement record wei head))
      agent.config.counterRecordLife.asSecs).Sane me chain :=
  ⟨rfl, rfl, grounded.life, known⟩

/-- What a flush owes one agreement is sane, and a close it asks for is of its record. -/
theorem Grounded.countsOf (grounded : agent.Grounded me chain) {counters : Counters} {head : Nat}
    {flush : Flush} {live : Live} (member : live ∈ agent.agreements.values)
    (read : counters.Grounded me chain agent.agreements) :
    (∀ operation ∈ (agent.countsOf counters head flush live).1, operation.Sane me chain) ∧
      ∀ close ∈ (agent.countsOf counters head flush live).2, close.agreement = live.key ∧
        chain.owner me close.counter = some close.agreement := by
  simp only [Agent.countsOf]
  split
  · next stored found =>
      obtain ⟨inOpened, same⟩ := Keyed.get?_eq_some.mp found
      have owned : chain.owner me stored.key = some live.key :=
        (read.opened stored inOpened).1.trans (congrArg some same)
      have sane : ∀ record, (patchRecord stored.key record).Sane me chain :=
        fun record => patchRecord_sane (by simp [owned])
      split
      · refine ⟨?_, ?_⟩
        · rintro _ ⟨⟩
          exact sane _
        · rintro _ ⟨⟩
          exact ⟨rfl, owned⟩
      · split
        · simp
        · refine ⟨?_, by simp⟩
          rintro _ ⟨⟩
          exact sane _
  · split
    · simp
    · refine ⟨?_, by simp⟩
      rintro _ ⟨⟩
      exact freshCounter_sane grounded (grounded.known live member)

theorem countsOf_agreement {counters : Counters} {head : Nat} {flush : Flush} {live : Live}
    {close : Closing} (asks : (agent.countsOf counters head flush live).2 = some close) :
    close.agreement = live.key := by
  simp only [Agent.countsOf] at asks
  split at asks
  · split at asks
    · cases asks
      rfl
    · split at asks <;> cases asks
  · split at asks <;> cases asks

/-- A flush asks for one close an agreement at most. -/
theorem countsBatch_distinct (agent : Agent) (counters : Counters) (head : Nat) (flush : Flush) :
    ((agent.countsBatch counters head flush).2.map Closing.agreement).Nodup := by
  have part : ((agent.countsBatch counters head flush).2.map Closing.agreement).Sublist
      (agent.agreements.values.map Live.key) := by
    simp only [Agent.countsBatch]
    induction agent.agreements.values with
    | nil => exact .slnil
    | cons live lives ih =>
        rw [List.map_cons, List.map_cons, List.filterMap_cons]
        split
        · exact ih.cons _
        · next close asks =>
            rw [List.map_cons, countsOf_agreement asks]
            exact ih.cons_cons _
  exact agent.agreements.distinct.sublist part

theorem countsBatch_unlisted (agent : Agent) (counters : Counters) (head : Nat) (flush : Flush) :
    ∀ operation ∈ (agent.countsBatch counters head flush).1, ∀ key listing,
      operation ≠ .patch key (.listing listing) := by
  simp only [Agent.countsBatch, List.mem_append, List.mem_filterMap, List.mem_map]
  rintro operation (leftover | ⟨_, ⟨live, member, rfl⟩, owes⟩) key listing rfl
  · split at leftover
    · rcases List.mem_append.mp leftover with younger | stray
      · simp at younger
      · obtain ⟨record, _, same⟩ := List.mem_map.mp stray
        rw [strayWrite] at same
        split at same <;> cases same
    · cases leftover
  · simp only [Agent.countsOf] at owes
    split at owes
    · split at owes
      · cases owes
      · split at owes <;> cases owes
    · split at owes <;> cases owes

theorem Grounded.countsBatch (grounded : agent.Grounded me chain) {counters : Counters} {head : Nat}
    {flush : Flush} (read : counters.Grounded me chain agent.agreements) :
    (∀ operation ∈ (agent.countsBatch counters head flush).1, operation.Sane me chain) ∧
      ∀ close ∈ (agent.countsBatch counters head flush).2,
        chain.owner me close.counter = some close.agreement := by
  simp only [Agent.countsBatch, List.mem_append, List.mem_filterMap, List.mem_map]
  refine ⟨?_, ?_⟩
  · rintro operation (leftover | ⟨_, ⟨live, member, rfl⟩, owes⟩)
    · split at leftover
      · rcases List.mem_append.mp leftover with younger | stray
        · obtain ⟨key, isYounger, rfl⟩ := List.mem_map.mp younger
          exact read.duplicates key isYounger
        · obtain ⟨record, isStray, rfl⟩ := List.mem_map.mp stray
          exact strayWrite_sane head (by rw [(read.strays record isStray).1]; rfl)
      · cases leftover
    · exact (grounded.countsOf member read).1 operation owes
  · rintro close ⟨_, ⟨live, member, rfl⟩, asks⟩
    exact ((grounded.countsOf member read).2 close asks).2

/-- The ends of periods leave memory grounded, and their successors are sane. -/
theorem Grounded.endPeriods (grounded : agent.Grounded me chain) {closing : List Closing}
    {patched : List EntityKey} {head : Nat} :
    (agent.endPeriods closing patched head).1.Grounded me chain ∧
      ∀ operation ∈ (agent.endPeriods closing patched head).2, operation.Sane me chain := by
  rw [Agent.endPeriods]
  generalize closing.filter (·.counter ∈ patched) = ended
  suffices ∀ (start : Agent × Batch), start.1.Grounded me chain →
      (∀ operation ∈ start.2, operation.Sane me chain) →
      (ended.foldl (Agent.endPeriod head) start).1.Grounded me chain ∧
        ∀ operation ∈ (ended.foldl (Agent.endPeriod head) start).2, operation.Sane me chain from
    this (agent, []) grounded (by simp)
  induction ended with
  | nil => exact fun _ memory sane => ⟨memory, sane⟩
  | cons close ended ih =>
      intro start memory sane
      rw [List.foldl_cons, Agent.endPeriod]
      split
      · exact ih start memory sane
      · next live found =>
          refine ih _ (memory.forgetCounter _ _) fun operation member => ?_
          rcases List.mem_append.mp member with earlier | isNew
          · exact sane operation earlier
          · obtain rfl := List.mem_singleton.mp isNew
            obtain ⟨isLive, same⟩ := Keyed.get?_eq_some.mp found
            exact freshCounter_sane memory (same ▸ memory.known live isLive)

theorem missingCounters_distinct (agent : Agent) (opened : CountersByAgreement) :
    ((agent.missingCounters opened).map Prod.fst).Nodup := by
  have part : ((agent.missingCounters opened).map Prod.fst).Sublist
      (agent.agreements.values.map Live.key) := by
    have kept : ((agent.agreements.values.filter fun live =>
        (opened.get? live.key).isNone).map Live.key).Sublist (agent.agreements.values.map Live.key) :=
      List.filter_sublist.map _
    refine List.Sublist.trans ?_ kept
    rw [Agent.missingCounters]
    induction agent.agreements.values.filter fun live => (opened.get? live.key).isNone with
    | nil => exact .slnil
    | cons live lives ih =>
        rw [List.filterMap_cons]
        split
        · exact ih.cons _
        · next pair pairs =>
            obtain ⟨counter, _, rfl⟩ := Option.map_eq_some_iff.mp pairs
            exact ih.cons_cons _
  exact agent.agreements.distinct.sublist part

theorem refreshBatch_sane (agent : Agent) (head : Option Nat) :
    ∀ operation ∈ agent.refreshBatch head, operation.Sane me chain := by
  intro operation member
  rcases List.mem_append.mp member with listing | extends_
  · split at listing
    · cases listing
    · obtain rfl := List.mem_singleton.mp listing
      trivial
  · obtain ⟨live, _, extended⟩ := List.mem_filterMap.mp extends_
    simp only [Agent.refreshOf] at extended
    split at extended
    · cases extended
    · split at extended
      · cases extended
      · split at extended
        · cases extended
        · cases extended
          trivial

end Agent

/-! ## What a process does -/

/-- The rows a read answers with are of the chain, and a counter record among them is the LB's. -/
def Reply.Grounded (me : Address) (chain : Chain) : Reply → Prop
  | .rows shown => (shown.map Stored.key).Nodup ∧ ∀ row ∈ shown,
      (chain.entities.get? row.key).isSome ∧
        ∀ record, row.record = .counter record → chain.owner me row.key = some record.agreement
  | _ => True

namespace Process

variable {me : Address} {chain : Chain} {process : Process}

/-- The same memory and a task that refers to nothing. -/
theorem Grounded.idle (grounded : process.Grounded me chain) {task : Task}
    (nothing : ∀ agreements, task.Grounded me chain agreements) :
    ({ process with task := task } : Process).Grounded me chain :=
  ⟨grounded.agent, nothing _⟩

theorem afterOffer_grounded (memory : process.agent.Grounded me chain) (discovery : Discovery) :
    (process.afterOffer discovery).Grounded me chain := by
  rw [Process.afterOffer]
  split
  · exact ⟨memory, trivial⟩
  · exact ⟨memory, trivial⟩

theorem afterError_grounded {agreements : KnownAgreements} (work : Work) (error : ReconcileError) :
    (Task.afterAgreementsError work error).Grounded me chain agreements := by
  rcases work with _ | _ | _ | _ <;> cases error <;> trivial

theorem afterCountersError_grounded {agreements : KnownAgreements} (work : Work) (head : Nat)
    (error : ReconcileError) :
    (Task.afterCountersError work head error).Grounded me chain agreements := by
  rcases work with _ | _ | _ | _ <;> cases error <;> trivial

/-- The counter reconcile's end refers to what its lookup did. -/
theorem Grounded.reconciled (grounded : process.Grounded me chain) {work : Work} {head : Nat}
    {opened : CountersByAgreement} {duplicates : List EntityKey} {closed : List (EntityKey × Nat)}
    (owned : ∀ stored ∈ opened.values, chain.owner me stored.key = some stored.record.agreement)
    (younger : ∀ key ∈ duplicates, (chain.owner me key).isSome) :
    (process.reconciled work head opened duplicates closed).Grounded me chain := by
  have memory := (grounded.agent.forgetClosedCounters closed).matchToAgreements owned
  refine ⟨memory, ?_⟩
  cases work with
  | start => trivial
  | poll => trivial
  | flush kind =>
      refine Counters.Grounded.mk (fun stored member => ?_) younger (fun stored member => ?_) ?_
      · obtain ⟨inOpened, isThere⟩ := List.mem_filter.mp member
        exact ⟨owned stored inOpened, isThere⟩
      · obtain ⟨inOpened, absent⟩ := List.mem_filter.mp member
        exact ⟨owned stored inOpened, Option.isNone_iff_eq_none.mp absent⟩
      · exact opened.distinct.sublist (List.filter_sublist.map _)

theorem afterEnded_grounded {agreements : KnownAgreements} {work : Work} {head : Nat}
    {queue : List Batch} (sane : SaneQueue me chain queue) :
    (Task.afterEnded work head queue).Grounded me chain agreements := by
  rw [Task.afterEnded]
  split
  · trivial
  · exact sane

theorem afterSuccessors_grounded {agreements : KnownAgreements} {kind : Flush}
    {queue : List Batch} (sane : SaneQueue me chain queue) :
    (Task.afterSuccessors kind queue).Grounded me chain agreements := by
  rw [Task.afterSuccessors]
  split
  · cases kind <;> trivial
  · exact sane

theorem afterRefresh_grounded {agreements : KnownAgreements} {queue : List Batch}
    (sane : SaneQueue me chain queue) : (Task.afterRefresh queue).Grounded me chain agreements := by
  rw [Task.afterRefresh]
  split
  · trivial
  · exact sane

theorem asQueue_all {property : Operation → Prop} {batch : Batch}
    (all : ∀ operation ∈ batch, property operation) :
    ∀ other ∈ asQueue batch, ∀ operation ∈ other, property operation := by
  rw [asQueue]
  split
  · simp
  · simpa using all

theorem requeue_all {property : Operation → Prop} {batch : Batch} {rest : List Batch}
    (result : Except WriteError BatchResult)
    (all : ∀ other ∈ batch :: rest, ∀ operation ∈ other, property operation) :
    ∀ other ∈ requeue batch rest result, ∀ operation ∈ other, property operation := by
  have later : ∀ other ∈ rest, ∀ operation ∈ other, property operation :=
    fun other member => all other (List.mem_cons_of_mem _ member)
  unfold requeue
  split
  · split
    · next first second halves =>
        have whole := Batch.halves_append halves
        have own := all batch List.mem_cons_self
        rintro other member operation inOther
        rcases List.mem_cons.mp member with rfl | member
        · exact own operation (whole ▸ List.mem_append_left _ inOther)
        · rcases List.mem_cons.mp member with rfl | member
          · exact own operation (whole ▸ List.mem_append_right _ inOther)
          · exact later other member operation inOther
    · exact later
  · exact later

theorem Grounded.afterCounts (grounded : process.Grounded me chain) {kind : Flush} {head : Nat}
    {closing : List Closing} {queue : List Batch} {patched : List EntityKey}
    (sane : SaneQueue me chain queue) (unlisted : Unlisted queue)
    (owned : ∀ close ∈ closing, chain.owner me close.counter = some close.agreement)
    (distinct : (closing.map Closing.agreement).Nodup) :
    (process.afterCounts kind head closing queue patched).Grounded me chain := by
  rw [Process.afterCounts]
  split
  · obtain ⟨memory, successors⟩ := grounded.agent.endPeriods
    exact ⟨memory, afterSuccessors_grounded (asQueue_all successors)⟩
  · exact ⟨grounded.agent, sane, unlisted, owned, distinct⟩

theorem Grounded.reconcileAgreements (grounded : process.Grounded me chain) {work : Work}
    {head : Nat} {rows : List (Stored Record)} (read : (Reply.rows rows).Grounded me chain) :
    (process.reconcileAgreements work head rows).Grounded me chain := by
  refine ⟨(grounded.agent.endAgreements _).adoptAgreements fun stored member => ?_,
    afterEnded_grounded (asQueue_all fun operation member => ?_)⟩
  · obtain ⟨row, inRows, decoded⟩ := List.mem_filterMap.mp (mem_oldestFirst.mp member)
    obtain ⟨record, _, rfl⟩ := Option.map_eq_some_iff.mp decoded
    exact (read.2 row inRows).1
  · obtain ⟨ended, isEnded, rfl⟩ := List.mem_map.mp member
    exact Agent.finalWrite_sane head (grounded.agent.ended isEnded)

/-- A counter record that a page shows is its agreement's. -/
theorem counters_owned {rows : List (Stored Record)} (read : (Reply.rows rows).Grounded me chain)
    {stored : Stored CounterRecord}
    (member : stored ∈ rows.filterMap (Stored.decode Record.asCounter)) :
    chain.owner me stored.key = some stored.record.agreement := by
  obtain ⟨row, inRows, decoded⟩ := List.mem_filterMap.mp member
  obtain ⟨record, isCounter, rfl⟩ := Option.map_eq_some_iff.mp decoded
  refine (read.2 row inRows).2 record ?_
  cases kind : row.record <;> simp_all [Record.asCounter]

theorem counters_keys {rows : List (Stored Record)} (distinct : (rows.map Stored.key).Nodup) :
    ((rows.filterMap (Stored.decode Record.asCounter)).map Stored.key).Nodup := by
  have part : ((rows.filterMap (Stored.decode Record.asCounter)).map Stored.key).Sublist
      (rows.map Stored.key) := by
    clear distinct
    induction rows with
    | nil => exact .slnil
    | cons row rows ih =>
        rw [List.filterMap_cons]
        split
        · exact ih.cons _
        · next stored decoded =>
            obtain ⟨record, _, rfl⟩ := Option.map_eq_some_iff.mp decoded
            exact ih.cons_cons _
  exact distinct.sublist part

theorem Grounded.openCountersRead (grounded : process.Grounded me chain) {work : Work} {head : Nat}
    {order : List EntityKey} {rows : List (Stored Record)}
    (read : (Reply.rows rows).Grounded me chain) :
    (process.openCountersRead work head order rows).Grounded me chain := by
  have records := oldestPerAgreement (rows.filterMap (Stored.decode Record.asCounter))
  have owned : ∀ stored ∈ ((oldestPerAgreement
      (rows.filterMap (Stored.decode Record.asCounter))).1.reorder order).values,
      chain.owner me stored.key = some stored.record.agreement := fun stored member =>
    counters_owned read (mem_oldestPerAgreement (Keyed.mem_reorder.mp member))
  have younger : ∀ key ∈ (oldestPerAgreement
      (rows.filterMap (Stored.decode Record.asCounter))).2, (chain.owner me key).isSome := by
    intro key member
    obtain ⟨stored, inRows, rfl, _⟩ :=
      oldestPerAgreement_younger (counters_keys read.1) member
    rw [counters_owned read inRows]
    rfl
  simp only [Process.openCountersRead]
  split
  · exact grounded.reconciled owned younger
  · refine ⟨grounded.agent, LookupGrounded.mk owned younger ?_ ?_ ?_⟩
    · intro pair member
      obtain ⟨live, isMissing, pairs⟩ := List.mem_filterMap.mp member
      obtain ⟨counter, counts, rfl⟩ := Option.map_eq_some_iff.mp pairs
      exact grounded.agent.owned live (List.mem_of_mem_filter isMissing) counter counts
    · rw [List.map_nil, List.append_nil]
      exact Agent.missingCounters_distinct _ _
    · intro agreement member
      rw [List.map_nil, List.append_nil] at member
      obtain ⟨pair, inMissing, rfl⟩ := List.mem_map.mp member
      obtain ⟨live, isMissing, pairs⟩ := List.mem_filterMap.mp inMissing
      obtain ⟨counter, counts, rfl⟩ := Option.map_eq_some_iff.mp pairs
      obtain ⟨inMemory, isFree⟩ := List.mem_filter.mp isMissing
      exact ⟨Option.isNone_iff_eq_none.mp isFree, by rw [Keyed.get?_key inMemory]; rfl⟩

theorem Grounded.ensureListing (grounded : process.Grounded me chain)
    (rows : List (Stored Record)) : (process.ensureListing rows).Grounded me chain := by
  rw [Process.ensureListing]
  split
  · exact grounded.idle fun _ => trivial
  · split
    · exact ⟨grounded.agent.change rfl rfl (fun _ provider found => ⟨provider, found, rfl⟩)
        fun live member => ⟨live, member, rfl, rfl, grounded.agent.owned live member⟩, trivial⟩
    · exact grounded.idle fun _ => trivial

/-- One record that memory misses was looked up. -/
theorem Grounded.looked (grounded : process.Grounded me chain) {work : Work} {head : Nat}
    {opened : CountersByAgreement} {duplicates : List EntityKey} {agreement counter : EntityKey}
    {missing : List (EntityKey × EntityKey)} {closed : List (EntityKey × Nat)}
    (found : Option Nat)
    (lookup : LookupGrounded me chain process.agent.agreements opened duplicates
      ((agreement, counter) :: missing) closed) :
    (match missing with
      | [] => process.reconciled work head opened duplicates
          (closed ++ (found.map (agreement, ·)).toList)
      | _ =>
          { process with
            task := .closedCount work head opened duplicates missing
              (closed ++ (found.map (agreement, ·)).toList) }).Grounded me chain := by
  split
  · exact grounded.reconciled lookup.records lookup.younger
  · have part : (missing.map Prod.fst ++
        (closed ++ (found.map (agreement, ·)).toList).map Prod.fst).Subperm
        (((agreement, counter) :: missing).map Prod.fst ++ closed.map Prod.fst) := by
      cases found with
      | none => simpa using (List.sublist_cons_self agreement _).subperm
      | some count =>
          refine List.Perm.subperm ?_
          rw [Option.map_some, Option.toList_some, List.map_append, List.map_cons, List.map_nil,
            ← List.append_assoc, List.map_cons, List.cons_append]
          exact List.perm_append_singleton _ _
    refine ⟨grounded.agent, LookupGrounded.mk lookup.records lookup.younger
      (fun pair member => lookup.looked pair (List.mem_cons_of_mem _ member)) ?_ ?_⟩
    · obtain ⟨same, perm, within⟩ := part
      exact perm.nodup_iff.mp (lookup.distinct.sublist within)
    · exact fun other member => lookup.unread other (part.subset member)

/-- A read is answered. -/
theorem Grounded.read (grounded : process.Grounded me chain) {order : List EntityKey}
    {reply : Reply} (read : reply.Grounded me chain) :
    (process.read order reply).Grounded me chain := by
  unfold Process.read
  split
  · exact grounded.idle fun _ => trivial
  · exact grounded.idle fun _ => trivial
  · split
    · exact grounded.idle fun _ => afterError_grounded _ _
    · exact grounded.idle fun _ => trivial
  · exact grounded.reconcileAgreements read
  · exact grounded.idle fun _ => trivial
  · exact grounded.idle fun _ => trivial
  · split
    · exact grounded.idle fun _ => afterCountersError_grounded _ _ _
    · exact grounded.idle fun _ => trivial
  · exact grounded.openCountersRead read
  · next task =>
      have lookup := grounded.task
      rw [task] at lookup
      exact grounded.looked _ lookup
  · exact afterOffer_grounded grounded.agent _
  · exact grounded.idle fun _ => trivial
  · exact grounded.idle fun _ => afterRefresh_grounded (asQueue_all (Agent.refreshBatch_sane _ _))
  · exact grounded.idle fun _ => trivial
  · exact grounded.ensureListing _
  · exact grounded

/-- A read fails. -/
theorem Grounded.unread (grounded : process.Grounded me chain) :
    process.unread.Grounded me chain := by
  unfold Process.unread
  split
  · exact grounded.idle fun _ => trivial
  · exact grounded.idle fun _ => afterError_grounded _ _
  · exact grounded.idle fun _ => afterError_grounded _ _
  · exact grounded.idle fun _ => afterError_grounded _ _
  · exact grounded.idle fun _ => trivial
  · exact grounded.idle fun _ => by cases ‹Flush› <;> trivial
  · exact grounded.idle fun _ => afterCountersError_grounded _ _ _
  · exact grounded.idle fun _ => afterCountersError_grounded _ _ _
  · exact grounded.idle fun _ => afterCountersError_grounded _ _ _
  · exact grounded.idle fun _ => trivial
  · exact grounded.idle fun _ => trivial
  · exact grounded.idle fun _ => afterRefresh_grounded (asQueue_all (Agent.refreshBatch_sane _ _))
  · exact grounded.idle fun _ => trivial
  · exact grounded.idle fun _ => trivial
  · exact grounded

/-- A receipt tells what the batch created. -/
def Receipt (me : Address) (chain : Chain) (batch : Batch) : Except WriteError BatchResult → Prop
  | .ok receipt => ∃ block pairs, receipt = BatchResult.of block pairs ∧
      pairs.map Prod.fst = batch ∧ ∀ pair ∈ pairs, chain.Created me pair
  | .error _ => True

theorem Receipt.single {record : Record} {seconds : Nat} {receipt : BatchResult}
    (landed : Receipt me chain [.create record seconds] (.ok receipt)) :
    ∃ key expiresAt, receipt.createdEntities = [(key, expiresAt)] ∧
      (chain.entities.get? key).isSome ∧
      ∀ counter, record = .counter counter → chain.owner me key = some counter.agreement := by
  obtain ⟨block, pairs, rfl, batch, created⟩ := landed
  obtain ⟨pair, rfl, operation⟩ := List.map_eq_singleton_iff.mp batch
  obtain ⟨known, owned⟩ := created pair List.mem_cons_self record seconds operation
  obtain ⟨create, key⟩ := pair
  cases operation
  exact ⟨key, _, rfl, known, owned⟩

theorem Grounded.agreementWritten (grounded : process.Grounded me chain) {discovery : Discovery}
    {offer : Stored Offer} {port : Nat} {result : Except WriteError BatchResult}
    {record : Record} {seconds : Nat}
    (landed : Receipt me chain [.create record seconds] result) :
    (process.agreementWritten discovery offer port result).Grounded me chain := by
  cases result with
  | error error =>
      cases error <;> exact afterOffer_grounded grounded.agent _
  | ok receipt =>
      obtain ⟨key, expiresAt, created, known, _⟩ := landed.single
      simp only [Process.agreementWritten, created]
      refine ⟨grounded.agent.insertAgreement known, known, ?_⟩
      simp [Agent.insertAgreement, Keyed.get?_insert, Live.key, Agent.acceptedRow]

theorem Grounded.counterWritten (grounded : process.Grounded me chain) {discovery : Discovery}
    {offer : Stored Offer} {port : Nat} {agreement : EntityKey}
    {result : Except WriteError BatchResult} {record : CounterRecord} {seconds : Nat}
    (counts : record.agreement = agreement)
    (landed : Receipt me chain [.create (.counter record) seconds] result) :
    (process.counterWritten discovery offer port agreement result).Grounded me chain := by
  refine afterOffer_grounded (grounded.agent.setCounter fun counter isSet => ?_) _
  cases result with
  | error error => cases isSet
  | ok receipt =>
      obtain ⟨key, expiresAt, created, _, owned⟩ := landed.single
      obtain rfl : counter = ⟨key, discovery.head⟩ := by simpa [created, eq_comm] using isSet
      exact (owned record rfl).trans (congrArg some counts)

/-- A write is answered. -/
theorem Grounded.written (grounded : process.Grounded me chain)
    {result : Except WriteError BatchResult} {batch : Batch} (sent : process.sending = some batch)
    (landed : Receipt me chain batch result) : (process.written result).Grounded me chain := by
  unfold Process.written
  split
  · next task =>
      have sane := grounded.task
      rw [task] at sane
      exact grounded.idle fun _ => afterEnded_grounded (requeue_all result sane)
  · next task =>
      have counting := grounded.task
      rw [task] at counting
      exact grounded.afterCounts (requeue_all result counting.1)
        (requeue_all result counting.2.1) counting.2.2.1 counting.2.2.2
  · next task =>
      have sane := grounded.task
      rw [task] at sane
      exact grounded.idle fun _ => afterSuccessors_grounded (requeue_all result sane)
  · next task =>
      have sane := grounded.task
      rw [task] at sane
      exact grounded.idle fun _ => afterRefresh_grounded (requeue_all result sane)
  · next task =>
      simp only [Process.sending, task, Option.some.injEq] at sent
      exact grounded.agreementWritten (sent ▸ landed)
  · next task =>
      simp only [Process.sending, task, Option.some.injEq] at sent
      exact grounded.counterWritten rfl (sent ▸ landed)
  · split
    · split
      · exact ⟨grounded.agent.change rfl rfl (fun _ provider found => ⟨provider, found, rfl⟩)
          fun live member => ⟨live, member, rfl, rfl, grounded.agent.owned live member⟩, trivial⟩
      · exact grounded.idle fun _ => trivial
    · exact grounded.idle fun _ => trivial
  · split
    · exact ⟨grounded.agent.change rfl rfl (fun _ provider found => ⟨provider, found, rfl⟩)
        fun live member => ⟨live, member, rfl, rfl, grounded.agent.owned live member⟩, trivial⟩
    · exact grounded.idle fun _ => trivial
  · exact grounded

theorem Grounded.countServed (grounded : process.Grounded me chain) {next : Process}
    (counted : process.countServed = some next) : next.Grounded me chain := by
  rw [Process.countServed] at counted
  split at counted
  · next task =>
      cases counted
      have read := grounded.task
      rw [task] at read
      obtain ⟨sane, owned⟩ := grounded.agent.countsBatch read
      exact grounded.afterCounts (asQueue_all sane) (asQueue_all (Agent.countsBatch_unlisted _ _ _ _))
        owned (Agent.countsBatch_distinct _ _ _ _)
  · cases counted

theorem Grounded.portLooked (grounded : process.Grounded me chain) {isBound : Bool}
    {next : Process} (looked : process.portLooked isBound = some next) :
    next.Grounded me chain := by
  rw [Process.portLooked] at looked
  split at looked
  · cases looked
    split
    · simp only
      split
      · exact grounded.idle fun _ => trivial
      · exact grounded.idle fun _ => trivial
    · exact grounded.idle fun _ => trivial
  · cases looked

/-- Memory changes under the same agreements. -/
theorem Grounded.remember (grounded : process.Grounded me chain) {agent : Agent}
    (memory : agent.Grounded me chain)
    (same : ∀ agreement, (process.agent.agreements.get? agreement).isSome =
      (agent.agreements.get? agreement).isSome) :
    ({ process with agent := agent } : Process).Grounded me chain :=
  ⟨memory, grounded.task.congr same⟩

/-- What a task sends is sane. -/
theorem Grounded.sending (grounded : process.Grounded me chain) {batch : Batch}
    (sent : process.sending = some batch) : ∀ operation ∈ batch, operation.Sane me chain := by
  have task := grounded.task
  unfold Process.sending at sent
  split at sent
  all_goals cases sent
  · next isTask =>
      rw [isTask] at task
      exact task _ List.mem_cons_self
  · next isTask =>
      rw [isTask] at task
      exact task.1 _ List.mem_cons_self
  · next isTask =>
      rw [isTask] at task
      exact task _ List.mem_cons_self
  · next isTask =>
      rw [isTask] at task
      exact task _ List.mem_cons_self
  · simp [Operation.Sane]
  · next isTask =>
      rw [isTask] at task
      intro operation member
      obtain rfl := List.mem_singleton.mp member
      exact Agent.freshCounter_sane grounded.agent task.1
  · simp [Operation.Sane]
  · simp [Operation.Sane]

/-- Counter records are only read as the LB's own. -/
theorem reading_counters {agent : Agent} {task : Task} {query : Query}
    (reads : task.reading agent = some (.page query) ∨ task.reading agent = some (.lookup query))
    (counters : query.kind = .counter) : query.creator = some agent.identity.address := by
  unfold Task.reading at reads
  split at reads
  all_goals rcases reads with reads | reads <;> cases reads <;> first | rfl | cases counters

end Process

/-! ## The world -/

namespace State

variable {urls : Urls} {sidecar : Identity} {state next : State}

/-- The chain moved on, and its earlier state may still be shown. -/
theorem Grounded.moved {me : Address} (grounded : state.Grounded me) {chain : Chain}
    (follows : state.chain.Follows me chain) {pending : List Batch}
    (sane : SaneQueue me state.chain pending) :
    ({ state.moved chain with pending := pending } : State).Grounded me where
  rooted := follows.rooted
  behind earlier member := by
    rcases List.mem_append.mp member with old | isLast
    · exact (grounded.behind earlier old).trans follows.grows
    · obtain rfl := List.mem_singleton.mp isLast
      exact follows.grows
  pending := sane.grows follows.grows
  process process isThere := (grounded.process process isThere).grows follows.grows

theorem Grounded.follows {me : Address} (grounded : state.Grounded me) (count : Nat) :
    state.chain.Follows me (state.chain.advance count) :=
  ⟨Chain.advance_grows _ _, grounded.rooted.advance count⟩

/-- The running process does something that leaves the chain. -/
theorem Grounded.ran {me : Address} (grounded : state.Grounded me) {process : Process}
    (ran : process.Grounded me state.chain) :
    ({ state with process := some process } : State).Grounded me where
  rooted := grounded.rooted
  behind := grounded.behind
  pending := grounded.pending
  process := by
    rintro _ ⟨⟩
    exact ran

theorem Grounded.sealBlocks (grounded : state.Grounded sidecar.address) {count : Nat}
    {fates : List (Option (List EntityKey))}
    (stepped : state.sealBlocks sidecar count fates = some next) :
    next.Grounded sidecar.address := by
  obtain ⟨⟨chain, pending⟩, settled, rfl⟩ := Option.map_eq_some_iff.mp stepped
  refine grounded.moved ((grounded.follows _).settle grounded.pending settled) ?_
  exact fun batch member => grounded.pending batch ((Chain.settle_suffix settled).subset member)

/-- A batch is sent and answered. -/
theorem Grounded.send (grounded : state.Grounded sidecar.address) {batch : Batch}
    {answer : WriteAnswer} {result : Except WriteError BatchResult}
    (sane : ∀ operation ∈ batch, operation.Sane sidecar.address state.chain)
    (sent : state.send sidecar batch answer = some (next, result)) :
    next.Grounded sidecar.address ∧ next.process = state.process ∧
      state.chain.Grows sidecar.address next.chain ∧
        Process.Receipt sidecar.address next.chain batch result := by
  cases answer with
  | landed fates keys =>
      simp only [State.send, Option.bind_eq_bind, Option.bind_eq_some_iff] at sent
      obtain ⟨⟨chain, pending⟩, settled, sent⟩ := sent
      split at sent
      · cases sent
      · obtain ⟨landed, lands, sent⟩ := Option.bind_eq_some_iff.mp sent
        cases sent
        have follows := ((grounded.follows 1).settle grounded.pending settled).land sane lands
        obtain ⟨length, executed⟩ := Chain.land_eq_some.mp lands
        refine ⟨grounded.moved follows (by simp [SaneQueue]), rfl, follows.grows, _, _, rfl, ?_,
          Chain.execute_created executed⟩
        exact List.map_fst_zip length.ge
  | failed error lost =>
      simp only [State.send] at sent
      split at sent
      · split at sent
        · cases sent
          refine ⟨⟨grounded.rooted, grounded.behind, ?_, grounded.process⟩, rfl, .refl _, trivial⟩
          intro other member
          rcases List.mem_append.mp member with old | isNew
          · exact grounded.pending other old
          · obtain rfl := List.mem_singleton.mp isNew
            exact sane
        · cases sent
      · cases sent
        exact ⟨grounded, rfl, .refl _, trivial⟩

theorem Grounded.view {me : Address} (grounded : state.Grounded me) :
    state.view.Grows me state.chain := by
  rw [State.view]
  cases behind : state.behind with
  | nil => exact .refl _
  | cons earlier later => exact grounded.behind earlier (by simp [behind])

/-- What a read is answered is of the chain. -/
theorem Grounded.reply {me : Address} (grounded : state.Grounded me) {agent : Agent} {task : Task}
    (self : agent.identity.address = me) {reading : Reading} {shown : List EntityKey}
    {reply : Reply} (reads : task.reading agent = some reading)
    (replied : state.reply shown reading = some reply) : reply.Grounded me state.chain := by
  have answers : ∀ (chain : Chain) (query : Query) (rows : List (Stored Record)),
      chain.Grows me state.chain → chain.page query shown = some rows →
      (query.kind = .counter → query.creator = some agent.identity.address) →
      (Reply.rows rows).Grounded me state.chain := by
    intro chain query rows grows page own
    refine ⟨Chain.page_distinct page, fun row member => ?_⟩
    obtain ⟨inChain, _, admits⟩ := Chain.page_mem page member
    have known : (chain.entities.get? row.key).isSome := by
      rw [Keyed.get?_key inChain]
      rfl
    refine ⟨grows.known _ known, fun record counts => ?_⟩
    simp only [Query.admits, Bool.and_eq_true, decide_eq_true_eq, counts, Record.kind] at admits
    have creator : row.creator = me := by
      have mine := admits.1.1.1.1.1.2
      rw [own admits.1.1.1.1.1.1.symm, self] at mine
      simpa using mine
    rw [grows.owner _ known, Chain.owner, Keyed.get?_key inChain]
    simp [creator, counts, Record.asCounter]
  cases reading with
  | identity => cases replied; trivial
  | balance => cases replied; trivial
  | head => cases replied; trivial
  | count query => cases replied; trivial
  | page query =>
      obtain ⟨rows, page, rfl⟩ := Option.map_eq_some_iff.mp replied
      exact answers _ query rows grounded.view page (Process.reading_counters (.inl reads))
  | lookup query =>
      obtain ⟨rows, page, rfl⟩ := Option.map_eq_some_iff.mp replied
      exact answers _ query rows (.refl _) page (Process.reading_counters (.inr reads))

theorem Grounded.readAnswered {me : Address} (grounded : state.Grounded me)
    {shown order : List EntityKey} (stepped : state.readAnswered shown order = some next) :
    next.Grounded me := by
  simp only [State.readAnswered, Option.bind_eq_bind, Option.bind_eq_some_iff] at stepped
  obtain ⟨process, isThere, reading, reads, reply, replied, stepped⟩ := stepped
  cases stepped
  have now := grounded.process process isThere
  refine grounded.ran (Process.Grounded.read ⟨now.agent.reorder order, ?_⟩
    (grounded.reply now.agent.self reads replied))
  exact now.task.congr fun agreement => by simp

theorem Grounded.writeAnswered (grounded : state.Grounded sidecar.address) {answer : WriteAnswer}
    (stepped : state.writeAnswered sidecar answer = some next) :
    next.Grounded sidecar.address := by
  simp only [State.writeAnswered, Option.bind_eq_bind, Option.bind_eq_some_iff] at stepped
  obtain ⟨process, isThere, batch, sends, ⟨middle, result⟩, sent, stepped⟩ := stepped
  cases stepped
  have now := grounded.process process isThere
  obtain ⟨grounded', _, grows, receipt⟩ := grounded.send (now.sending sends) sent
  exact grounded'.ran ((now.grows grows).written sends receipt)

theorem Grounded.admissionSent (grounded : state.Grounded sidecar.address) {index : Nat}
    {answer : WriteAnswer} (stepped : state.admissionSent sidecar index answer = some next) :
    next.Grounded sidecar.address := by
  simp only [State.admissionSent, Option.bind_eq_bind, Option.bind_eq_some_iff] at stepped
  obtain ⟨process, isThere, task, _, stepped⟩ := stepped
  split at stepped
  · cases stepped
  · obtain ⟨⟨middle, result⟩, sent, stepped⟩ := Option.bind_eq_some_iff.mp stepped
    cases stepped
    have now := grounded.process process isThere
    obtain ⟨grounded', _, grows, _⟩ := grounded.send (by simp [Operation.Sane]) sent
    have memory := (now.grows grows).agent
    refine grounded'.ran ((now.grows grows).remember ?_ fun other => ?_)
    · split
      · split
        · exact memory.config rfl rfl rfl rfl
        · exact memory.config rfl rfl rfl rfl
      · exact memory.config rfl rfl rfl rfl
    · split
      · split <;> rfl
      · rfl

/-- A process starts with nothing in memory. -/
theorem launched_grounded {chain : Chain} {config : Config} {section_ : Marketplace}
    (valid : config.validate urls = .ok ()) (given : config.marketplace = some section_) :
    (launched sidecar config section_).Grounded sidecar.address chain where
  agent :=
    { self := rfl
      life := (Marketplace.validate_lives (Config.validate_marketplace valid given)).1
      offerLife := (Marketplace.validate_lives (Config.validate_marketplace valid given)).2
      known := fun _ member => nomatch member
      owned := fun _ member => nomatch member
      entry := fun _ member => nomatch member }
  task := trivial

/-- Another's offer is posted. -/
theorem Grounded.post {me : Address} (grounded : state.Grounded me) {row : Stored Record}
    (free : state.chain.entities.get? row.key = none) (other : row.creator ≠ me) :
    state.chain.Follows me
      { state.chain with entities := state.chain.entities.insert row } where
  grows := by
    refine .of_rows le_rfl (fun _ member => member) fun key old found => ?_
    have differs : key ≠ row.key := by
      rintro rfl
      simp [free] at found
    exact ⟨old, by simp [Keyed.get?_insert, differs, found], rfl, .inl rfl, fun _ => rfl⟩
  rooted := by
    refine ⟨fun key member => ?_, fun key agreement owned => ?_⟩
    · simp only [Keyed.get?_insert]
      split
      · rfl
      · exact grounded.rooted.gone key member
    · have known : (state.chain.entities.get? agreement).isSome := by
        refine grounded.rooted.agreements key agreement ?_
        simp only [Chain.owner, Keyed.get?_insert] at owned
        split at owned
        · simp [other] at owned
        · exact owned
      simp only [Keyed.get?_insert]
      split
      · rfl
      · exact known

/-- Another's offer is withdrawn. -/
theorem Grounded.withdraw {me : Address} (grounded : state.Grounded me) {key : EntityKey}
    (known : (state.chain.entities.get? key).isSome) :
    state.chain.Follows me { state.chain with gone := key :: state.chain.gone } where
  grows := .of_rows le_rfl (fun _ member => List.mem_cons_of_mem _ member)
    fun _ row found => ⟨row, found, rfl, .inl rfl, fun _ => rfl⟩
  rooted := by
    refine ⟨fun other member => ?_, grounded.rooted.agreements⟩
    rcases List.mem_cons.mp member with rfl | old
    · exact known
    · exact grounded.rooted.gone other old

/-- What the LB refers to stays on the chain. -/
theorem Grounded.step (grounded : state.Grounded sidecar.address) {event : Event}
    (stepped : state.step urls sidecar event = some next) : next.Grounded sidecar.address := by
  have ofProcess : ∀ {change : Process → Option Process},
      (∀ process ∈ state.process, ∀ after, change process = some after →
        after.Grounded sidecar.address state.chain) →
      state.ofProcess change = some next → next.Grounded sidecar.address := by
    intro change keeps ran
    obtain ⟨after, changed, rfl⟩ := Option.map_eq_some_iff.mp ran
    obtain ⟨process, isThere, changes⟩ := Option.bind_eq_some_iff.mp changed
    exact grounded.ran (keeps process isThere after changes)
  cases event with
  | sealBlocks count fates => exact grounded.sealBlocks stepped
  | catchUp count =>
      cases stepped
      exact ⟨grounded.rooted, fun earlier member =>
        grounded.behind earlier (List.mem_of_mem_drop member), grounded.pending, grounded.process⟩
  | post offer =>
      simp only [State.step] at stepped
      split at stepped
      · next fits =>
          cases stepped
          exact grounded.moved (grounded.post (by simpa using fits.1) fits.2) grounded.pending
      · cases stepped
  | withdraw offer =>
      simp only [State.step] at stepped
      split at stepped
      · next fits =>
          cases stepped
          refine grounded.moved (grounded.withdraw ?_) grounded.pending
          obtain ⟨row, found, _⟩ := (Option.any_eq_true _ _).mp fits
          rw [found]
          rfl
      · cases stepped
  | launch config =>
      simp only [State.step] at stepped
      split at stepped
      · next valid given =>
          cases stepped
          exact grounded.ran (launched_grounded valid given)
      · cases stepped
  | crash =>
      obtain ⟨process, _, rfl⟩ := Option.map_eq_some_iff.mp stepped
      exact ⟨grounded.rooted, grounded.behind, grounded.pending, by simp⟩
  | serve handle =>
      simp only [State.step, State.serve, Option.bind_eq_bind, Option.bind_eq_some_iff] at stepped
      obtain ⟨process, isThere, provider, found, stepped⟩ := stepped
      cases stepped
      have now := grounded.process process isThere
      refine ⟨grounded.rooted, grounded.behind, grounded.pending, ?_⟩
      rintro _ ⟨⟩
      exact now.remember (now.agent.modify handle _ fun _ => by rfl) fun _ => rfl
  | gate handle gate value =>
      refine ofProcess (fun process isThere after changes => ?_) stepped
      cases changes
      have now := grounded.process process isThere
      exact now.remember (now.agent.modify handle _ fun _ => by rfl) fun _ => rfl
  | admitted agreement =>
      refine ofProcess (fun process isThere after changes => ?_) stepped
      cases changes
      have now := grounded.process process isThere
      rw [Agent.admitted]
      split
      · exact now
      · split
        · exact now
        · exact now.remember (now.agent.config rfl rfl rfl rfl) fun _ => rfl
  | admission index answer => exact grounded.admissionSent stepped
  | learn index =>
      refine ofProcess (fun process isThere after changes => ?_) stepped
      simp only [admissionAnswered, Option.bind_eq_bind, Option.bind_eq_some_iff] at changes
      obtain ⟨task, _, expiresAt, _, changes⟩ := changes
      cases changes
      have now := grounded.process process isThere
      exact now.remember ((now.agent.learnExpiry task.agreement expiresAt).config rfl rfl rfl rfl)
        fun other => (Agent.learnExpiry_isSome _ _ other _).symm
  | endAdmission index =>
      refine ofProcess (fun process isThere after changes => ?_) stepped
      simp only [Option.bind_eq_bind, Option.bind_eq_some_iff] at changes
      obtain ⟨task, _, changes⟩ := changes
      split at changes
      · cases changes
      · cases changes
        have now := grounded.process process isThere
        exact now.remember (now.agent.config rfl rfl rfl rfl) fun _ => rfl
  | tick tick =>
      refine ofProcess (fun process isThere after changes => ?_) stepped
      split at changes
      · cases changes
        exact (grounded.process process isThere).idle fun _ => by cases tick <;> trivial
      · cases changes
  | read shown order => exact grounded.readAnswered stepped
  | unread =>
      refine ofProcess (fun process isThere after changes => ?_) stepped
      obtain ⟨_, _, rfl⟩ := Option.map_eq_some_iff.mp changes
      exact (grounded.process process isThere).unread
  | countServed order =>
      refine ofProcess (fun process isThere after changes => ?_) stepped
      have now := grounded.process process isThere
      exact (now.remember (now.agent.reorder order) fun _ => by simp).countServed changes
  | portLooked isBound =>
      refine ofProcess (fun process isThere after changes => ?_) stepped
      exact (grounded.process process isThere).portLooked changes
  | write answer => exact grounded.writeAnswered stepped

/-- A chain without records of the LB, and no process. -/
structure Genesis (me : Address) (state : State) : Prop where
  process : state.process = none
  pending : state.pending = []
  behind : state.behind = []
  served : state.served = []
  gone : ∀ key ∈ state.chain.gone, (state.chain.entities.get? key).isSome
  others : ∀ row ∈ state.chain.entities.values, row.creator ≠ me

theorem Genesis.grounded {me : Address} (genesis : Genesis me state) : state.Grounded me where
  rooted := by
    refine ⟨genesis.gone, fun key agreement owned => ?_⟩
    obtain ⟨row, found, counts⟩ := Option.bind_eq_some_iff.mp owned
    have other := genesis.others row (Keyed.get?_eq_some.mp found).1
    simp [other] at counts
  behind := by simp [genesis.behind]
  pending := by simp [SaneQueue, genesis.pending]
  process := by simp [genesis.process]

end State

end CommunityLb
