import CommunityLb.Marketplace.Holding
import CommunityLb.Marketplace.Sealing
import CommunityLb.Marketplace.Landing

/-!
# The reconciles and the flush as one agreement's account sees them

A page of agreement records, a page of open counter records with the lookups after it, and the
counts a flush then reads from memory: each is a sequence of the account's own steps.
-/

namespace CommunityLb

/-! ## Queues at hand -/

section Queues

variable {me : Address} {chain : Chain} {agreement : EntityKey} {agent : Agent}

theorem writesOf_asQueue (batch : Batch) :
    writesOf me chain agreement (asQueue batch) =
      batch.filterMap (Operation.writeFor me chain agreement) := by
  rw [asQueue]
  split
  · next nothing => rw [nothing]; rfl
  · simp [writesOf]

/-- A batch that was refused as too large is still at hand. -/
theorem writesOf_requeue {batch : Batch} {rest : List Batch} {error : WriteError} :
    writesOf me chain agreement (requeue batch rest (.error error)) =
      if error = .tooLarge ∧ batch.halves.isSome then writesOf me chain agreement (batch :: rest)
      else writesOf me chain agreement rest := by
  unfold requeue
  split
  · next same =>
      obtain rfl : error = .tooLarge := by simpa using same
      split
      · next first second halves =>
          rw [if_pos ⟨rfl, by rw [halves]; rfl⟩, Batch.halves_append halves]
          simp [writesOf]
      · next whole => simp [whole]
  · next other =>
      rw [if_neg]
      rintro ⟨rfl, _⟩
      exact other rfl

theorem Task.desk_afterFlush (kind : Flush) :
    (Task.afterFlush kind).desk me chain agreement agent = .clear := by
  cases kind <;> rfl

theorem Task.desk_afterEnded (work : Work) (head : Nat) (queue : List Batch) :
    (Task.afterEnded work head queue).desk me chain agreement agent =
      .writing (writesOf me chain agreement queue) none := by
  rw [Task.afterEnded]
  split
  · next nothing => rw [nothing]; rfl
  · rfl

theorem Task.desk_afterSuccessors (kind : Flush) (queue : List Batch) :
    (Task.afterSuccessors kind queue).desk me chain agreement agent =
      .writing (writesOf me chain agreement queue) none := by
  rw [Task.afterSuccessors]
  split
  · next nothing => rw [nothing, Task.desk_afterFlush]; rfl
  · rfl

theorem Task.desk_afterRefresh (queue : List Batch) :
    (Task.afterRefresh queue).desk me chain agreement agent =
      .writing (writesOf me chain agreement queue) none := by
  rw [Task.afterRefresh]
  split
  · next nothing => rw [nothing]; rfl
  · rfl

theorem Task.desk_afterAgreementsError (work : Work) (error : ReconcileError) :
    (Task.afterAgreementsError work error).desk me chain agreement agent = .clear := by
  rcases work with _ | _ | _ | _ <;> cases error <;> rfl

theorem Task.desk_afterCountersError (work : Work) (head : Nat) (error : ReconcileError) :
    (Task.afterCountersError work head error).desk me chain agreement agent = .clear := by
  rcases work with _ | _ | _ | _ <;> cases error <;> rfl

theorem refreshBatch_writes (head : Option Nat) :
    (agent.refreshBatch head).filterMap (Operation.writeFor me chain agreement) = [] := by
  refine List.filterMap_eq_nil_iff.mpr fun operation member => ?_
  rcases Agent.mem_refreshBatch member with rfl | ⟨live, _, rfl⟩ <;> rfl

end Queues

/-! ## A page of agreement records -/

namespace Agent

variable {me : Address} {chain : Chain} {agent : Agent} {agreement : EntityKey}

theorem finalWrite_writes (agent : Agent) (agreement : EntityKey) {live : Live}
    {counter : OpenCounter} (head : Nat) (counts : live.counter = some counter)
    (owned : chain.owner me counter.key = some live.key) :
    ((agent.ended? live).bind fun ended =>
      (finalWrite head ended).writeFor me chain agreement).toList =
      if live.key = agreement then
        Account.final head counter.openedBlock live.agreement.record.weiPerCall
          { counter := live.counter.map (·.key)
            served := agent.pool.served live.provider
            total := agent.pool.servedTotal live.provider }
      else [] := by
  simp only [Agent.ended?, counts, Option.map_some, Option.bind_some, finalWrite, Account.final]
  by_cases same : live.key = agreement
  · rw [if_pos same]
    rw [same] at owned
    by_cases zero : agent.pool.served live.provider = 0
    · simp [zero, Operation.writeFor, owned]
    · rw [if_neg zero, if_neg zero, writeFor_patchRecord owned]
      rfl
  · rw [if_neg same]
    split <;> simp [Operation.writeFor, patchRecord, owned, same]

/-- The last writes a page brings about, as one agreement's account sees them. -/
theorem Grounded.ended_writes (grounded : agent.Grounded me chain) (agreement : EntityKey)
    (live : List EntityKey) (head : Nat) :
    ((agent.endAgreements live).2.map (finalWrite head)).filterMap
        (Operation.writeFor me chain agreement) = [] ∧ agreement ∈ live ∨
      agreement ∉ live ∧ ∃ openedBlock wei,
        ((agent.endAgreements live).2.map (finalWrite head)).filterMap
          (Operation.writeFor me chain agreement) =
          ((agent.held agreement).map (Account.final head openedBlock wei)).getD [] := by
  have writes : ((agent.endAgreements live).2.map (finalWrite head)).filterMap
      (Operation.writeFor me chain agreement) =
      (((agent.agreements.values.filter (·.key ∉ live)).find?
        fun ending : Live => ending.key = agreement).bind fun ending =>
        (agent.ended? ending).bind fun ended =>
          (finalWrite head ended).writeFor me chain agreement).toList := by
    simp only [Agent.endAgreements]
    rw [List.filterMap_map, List.filterMap_filterMap]
    refine filterMap_of_unique (fun ending : Live => ending.key = agreement) ?_ ?_
    · intro ending member other
      have isThere := List.mem_of_mem_filter member
      cases counts : ending.counter with
      | none => simp [Agent.ended?, counts]
      | some counter =>
          have apart : ending.key ≠ agreement := of_decide_eq_false other
          have nothing := finalWrite_writes agent agreement head counts
            (grounded.owned ending isThere counter counts)
          rw [if_neg apart, Option.toList_eq_nil_iff] at nothing
          exact nothing
    · exact (unique_of_nodup agent.agreements.distinct agreement).sublist List.filter_sublist
  by_cases isLive : agreement ∈ live
  · refine .inl ⟨?_, isLive⟩
    have absent : (agent.agreements.values.filter (·.key ∉ live)).find?
        (fun ending : Live => ending.key = agreement) = none := by
      refine List.find?_eq_none.mpr fun ending member same => ?_
      have gone := (List.mem_filter.mp member).2
      rw [of_decide_eq_true same] at gone
      exact of_decide_eq_true gone isLive
    rw [writes, absent]
    rfl
  · refine .inr ⟨isLive, ?_⟩
    have same : (agent.agreements.values.filter (·.key ∉ live)).find?
        (fun ending : Live => ending.key = agreement) = agent.agreements.get? agreement := by
      rw [Keyed.get?, List.find?_filter]
      refine List.find?_congr fun ending _ => ?_
      by_cases here : ending.key = agreement <;> simp [here, isLive]
    cases found : agent.agreements.get? agreement with
    | none => exact ⟨0, 0, by rw [writes, same, found, held_eq_none.mpr found]; rfl⟩
    | some ending =>
        obtain ⟨member, isKey⟩ := Keyed.get?_eq_some.mp found
        rw [held_of_get? found]
        cases counts : ending.counter with
        | none =>
            refine ⟨0, 0, ?_⟩
            rw [writes, same, found]
            simp [Agent.ended?, counts, Account.final]
        | some counter =>
            refine ⟨counter.openedBlock, ending.agreement.record.weiPerCall, ?_⟩
            have one := finalWrite_writes agent agreement head counts
              (grounded.owned ending member counter counts)
            rw [if_pos isKey, counts] at one
            rw [writes, same, found]
            exact one

end Agent

namespace State

variable {me : Address} {agreement : EntityKey} {state next : State} {process : Process}
  {ok : Label → Account → Prop}

/-- A page of agreement records is taken over. -/
theorem reconciles_agreements (memory : process.agent.Grounded me state.chain) (work : Work)
    (head : Nat) {rows : List (Stored Record)} (read : (Reply.rows rows).Grounded me state.chain)
    (alive : ∀ row ∈ rows, row.key = agreement → state.behind = [] →
      state.chain.lost agreement = false)
    (adopts : ∀ row ∈ rows, row.key = agreement → process.agent.held agreement = none →
      ok .adopt (state.accountWith me agreement .clear none))
    (ends : (∀ row ∈ rows, row.key = agreement → row.record.asAgreement = none) →
      ∀ held, process.agent.held agreement = some held →
        ok .pastLife (state.accountWith me agreement .clear (some held))) :
    Relation.ReflTransGen (Account.Step ok)
      (state.accountWith me agreement .clear (process.agent.held agreement))
      (state.accountOf me agreement (process.reconcileAgreements work head rows)) := by
  have keys : ∀ key, key ∈ (oldestFirst (rows.filterMap (Stored.decode Record.asAgreement))).map
      Stored.key ↔ ∃ row ∈ rows, row.key = key ∧ row.record.asAgreement ≠ none := by
    intro key
    simp only [List.mem_map, mem_oldestFirst, List.mem_filterMap, Stored.decode,
      Option.map_eq_some_iff]
    constructor
    · rintro ⟨_, ⟨row, inRows, record, decoded, rfl⟩, rfl⟩
      exact ⟨row, inRows, rfl, by simp [decoded]⟩
    · rintro ⟨row, inRows, rfl, decoded⟩
      obtain ⟨record, isRecord⟩ := Option.ne_none_iff_exists'.mp decoded
      exact ⟨_, ⟨row, inRows, record, isRecord, rfl⟩, rfl⟩
  have known : ∀ stored ∈ oldestFirst (rows.filterMap (Stored.decode Record.asAgreement)),
      (state.chain.entities.get? stored.key).isSome := by
    intro stored member
    obtain ⟨row, inRows, same, _⟩ := (keys stored.key).mp (List.mem_map_of_mem member)
    exact same ▸ (read.2 row inRows).1
  have adopted := (memory.endAgreements ((oldestFirst (rows.filterMap
    (Stored.decode Record.asAgreement))).map Stored.key)).held_adoptAgreements agreement known
  have now : state.accountOf me agreement (process.reconcileAgreements work head rows) =
      state.accountWith me agreement
        (.writing (((process.agent.endAgreements ((oldestFirst (rows.filterMap
          (Stored.decode Record.asAgreement))).map Stored.key)).2.map (finalWrite head)).filterMap
            (Operation.writeFor me state.chain agreement)) none)
        (((process.agent.endAgreements ((oldestFirst (rows.filterMap
          (Stored.decode Record.asAgreement))).map Stored.key)).1.adoptAgreements
            (oldestFirst (rows.filterMap (Stored.decode Record.asAgreement)))).held agreement) := by
    simp only [accountOf, Process.reconcileAgreements, Task.desk_afterEnded, writesOf_asQueue]
  rw [now]
  rw [Agent.held_endAgreements] at adopted
  rcases memory.ended_writes agreement ((oldestFirst (rows.filterMap
    (Stored.decode Record.asAgreement))).map Stored.key) head with
    ⟨nothing, isLive⟩ | ⟨notLive, openedBlock, wei, writes⟩
  · rw [nothing]
    rw [if_pos isLive] at adopted
    rcases adopted with same | ⟨_, absent, taken⟩
    · rw [same]
    · obtain ⟨row, inRows, isKey, _⟩ := (keys agreement).mp isLive
      rw [taken, absent]
      refine .single (.adopt rfl rfl (fun unseen => ?_) (adopts row inRows isKey absent))
      exact alive row inRows isKey (List.map_eq_nil_iff.mp unseen)
  · rw [writes]
    rw [if_neg notLive] at adopted
    have gone := adopted.resolve_right fun taken => notLive taken.1
    rw [gone]
    cases isHeld : process.agent.held agreement with
    | none => rfl
    | some held =>
        refine .single (.pastLife head openedBlock wei rfl rfl (ends ?_ held isHeld))
        intro row inRows isKey
        by_contra decoded
        exact notLive ((keys agreement).mpr ⟨row, inRows, isKey, decoded⟩)

end State

/-! ## A page of open counter records -/

/-- The open records of an agreement that a page shows. -/
def shownOf (agreement : EntityKey) (rows : List (Stored Record)) : List Entry :=
  ((rows.filterMap (Stored.decode Record.asCounter)).filter
    (·.record.agreement = agreement)).map Entry.ofStored

theorem mem_shownOf {agreement : EntityKey} {rows : List (Stored Record)} {entry : Entry} :
    entry ∈ shownOf agreement rows ↔
      ∃ row ∈ rows, row.key = entry.key ∧ row.createdAt = entry.createdAt ∧
        row.record = .counter entry.record ∧ entry.record.agreement = agreement := by
  simp only [shownOf, List.mem_map, List.mem_filter, List.mem_filterMap, Stored.decode,
    Option.map_eq_some_iff, decide_eq_true_eq]
  constructor
  · rintro ⟨_, ⟨⟨row, inRows, record, decoded, rfl⟩, same⟩, rfl⟩
    refine ⟨row, inRows, rfl, rfl, ?_, same⟩
    cases kind : row.record <;> simp_all [Record.asCounter, Entry.ofStored]
  · rintro ⟨row, inRows, sameKey, sameAge, record, same⟩
    refine ⟨_, ⟨⟨row, inRows, entry.record, by rw [record]; rfl, rfl⟩, same⟩, ?_⟩
    simp [Entry.ofStored, sameKey, sameAge]

theorem lookup_eq_some {α : Type} {pairs : List (EntityKey × α)} {key : EntityKey} {value : α}
    (distinct : (pairs.map Prod.fst).Nodup) :
    pairs.lookup key = some value ↔ (key, value) ∈ pairs := by
  refine ⟨mem_of_lookup, fun member => ?_⟩
  induction pairs with
  | nil => cases member
  | cons pair pairs ih =>
      obtain ⟨apart, rest⟩ := List.nodup_cons.mp distinct
      rw [List.lookup_cons]
      rcases List.mem_cons.mp member with rfl | later
      · simp
      · have differs : (key == pair.1) = false := by
          refine beq_eq_false_iff_ne.mpr fun same => apart ?_
          rw [← same]
          exact List.mem_map_of_mem later
        rw [differs]
        exact ih rest later

/-- The record that memory misses of an agreement. -/
theorem missingCounters_lookup (agent : Agent) (opened : CountersByAgreement)
    (agreement : EntityKey) :
    (agent.missingCounters opened).lookup agreement =
      if (opened.get? agreement).map Entry.ofStored = none then
        (agent.held agreement).bind (·.counter) else none := by
  ext key
  rw [lookup_eq_some (agent.missingCounters_distinct opened)]
  simp only [Agent.missingCounters, List.mem_filterMap, List.mem_filter, Option.map_eq_some_iff,
    Prod.mk.injEq, Option.map_eq_none_iff, Option.isNone_iff_eq_none]
  constructor
  · rintro ⟨live, ⟨member, free⟩, counter, counts, rfl, rfl⟩
    rw [if_pos free, Agent.held_of_get? (Keyed.get?_key member)]
    simp [counts]
  · intro missed
    obtain ⟨free, missed⟩ := Option.ite_none_right_eq_some.mp missed
    obtain ⟨held, isHeld, counter⟩ := Option.bind_eq_some_iff.mp missed
    obtain ⟨live, found, rfl⟩ := Option.map_eq_some_iff.mp isHeld
    obtain ⟨opened', counts, rfl⟩ := Option.map_eq_some_iff.mp counter
    obtain ⟨member, isKey⟩ := Keyed.get?_eq_some.mp found
    exact ⟨live, ⟨member, isKey ▸ free⟩, opened', counts, isKey, rfl⟩

/-- What the matching leaves of an agreement's record. -/
theorem countersRead_row (agent : Agent) (opened : CountersByAgreement)
    (duplicates : List EntityKey) (agreement : EntityKey) :
    (agent.countersRead opened duplicates).row agreement =
      (opened.get? agreement).map Entry.ofStored := by
  have taken := Keyed.get?_filter opened
    (fun stored => (agent.agreements.get? stored.record.agreement).isSome) agreement
  have stray := Keyed.get?_filter opened
    (fun stored => (agent.agreements.get? stored.record.agreement).isNone) agreement
  have strays : (agent.countersRead opened duplicates).strays.find?
      (·.record.agreement = agreement) =
      (opened.filter fun stored =>
        (agent.agreements.get? stored.record.agreement).isNone).get? agreement := rfl
  rw [Counters.row, strays, stray]
  refine congrArg (Option.map Entry.ofStored) ?_
  refine (congrArg (Option.or · _) taken).trans ?_
  cases opened.get? agreement with
  | none => rfl
  | some stored =>
      cases known : (agent.agreements.get? stored.record.agreement).isSome with
      | true => simp [Option.filter, known]
      | false =>
          have absent : (agent.agreements.get? stored.record.agreement).isNone = true := by
            simpa using known
          simp [Option.filter, known, absent]

namespace State

variable {me : Address} {agreement : EntityKey} {state next : State} {process : Process}
  {ok : Label → Account → Prop}

/-- The counter reconcile's end: memory is matched to the records read. -/
theorem reconciles (memory : process.agent.Grounded me state.chain) (work : Work) (head : Nat)
    (opened : CountersByAgreement) (duplicates : List EntityKey) {closed : List (EntityKey × Nat)}
    (distinct : (closed.map Prod.fst).Nodup) :
    Relation.ReflTransGen (Account.Step ok)
      (state.accountWith me agreement
        (.shown work.flushing ((opened.get? agreement).map Entry.ofStored)
          (duplicates.filter (state.chain.owner me · = some agreement)) none
          (closed.lookup agreement))
        (process.agent.held agreement))
      (state.accountOf me agreement
        (process.reconciled work head opened duplicates closed)) := by
  have held : ((process.agent.forgetClosedCounters closed).matchToAgreements opened).held agreement =
      (process.agent.held agreement).map
        (Account.take ((opened.get? agreement).map Entry.ofStored) (closed.lookup agreement)) := by
    rw [(memory.forgetClosedCounters closed).held_matchToAgreements,
      memory.held_forgetClosedCounters distinct, Option.map_map]
    refine congrArg (Option.map · _) (funext fun held => ?_)
    cases closed.lookup agreement <;> rfl
  have matching := @Account.Step.match_ ok
    (state.accountWith me agreement
      (.shown work.flushing ((opened.get? agreement).map Entry.ofStored)
        (duplicates.filter (state.chain.owner me · = some agreement)) none
        (closed.lookup agreement))
      (process.agent.held agreement)) _ _ _ _ rfl
  have row := countersRead_row
    ((process.agent.forgetClosedCounters closed).matchToAgreements opened) opened duplicates agreement
  refine .head matching ?_
  simp only [accountOf, Process.reconciled, held]
  cases work with
  | start => exact .single (.leave rfl)
  | poll => exact .single (.leave rfl)
  | flush kind =>
      simp only [Task.afterCounters, Task.desk]
      rw [Counters.row] at row
      rw [row]
      exact .refl

theorem accountWith_view (state : State) (desk : Desk) (held : Option Held) :
    (state.accountWith me agreement desk held).view = state.view.counters me agreement := by
  simp only [Account.view, accountWith, State.view]
  cases state.behind <;> rfl

/-- What a page of open records shows is of the state it reads, and open. -/
theorem shown_inView {agent : Agent} (self : agent.identity.address = me) {head : Nat}
    {shown : List EntityKey} {rows : List (Stored Record)}
    (page : state.view.page (agent.countersQuery head) shown = some rows) {entry : Entry}
    (member : entry ∈ shownOf agreement rows) :
    entry ∈ state.view.counters me agreement ∧ entry.isOpen = true := by
  obtain ⟨row, inRows, sameKey, sameAge, record, same⟩ := mem_shownOf.mp member
  obtain ⟨inChain, alive, admits⟩ := Chain.page_mem page inRows
  simp only [Query.admits, Agent.countersQuery, Bool.and_eq_true, Option.all_some,
    decide_eq_true_eq] at admits
  have creator : row.creator = me := self ▸ admits.1.1.1.1.1.2
  have opened : row.record.isOpen = true := by simpa using admits.1.1.1.2
  refine ⟨Chain.mem_counters.mpr ⟨row, inChain, alive, creator, sameKey, sameAge, record, same⟩, ?_⟩
  rw [record] at opened
  exact opened

/-- The record a page splits off for an agreement is the oldest one it shows. -/
theorem shown_oldest {rows : List (Stored Record)} (order : List EntityKey) :
    Account.IsOldest (shownOf agreement rows)
      ((((oldestPerAgreement (rows.filterMap (Stored.decode Record.asCounter))).1.reorder
        order).get? agreement).map Entry.ofStored) := by
  rw [Keyed.get?_reorder]
  cases found : (oldestPerAgreement (rows.filterMap (Stored.decode Record.asCounter))).1.get?
      agreement with
  | none =>
      refine List.map_eq_nil_iff.mpr (List.filter_eq_nil_iff.mpr fun stored member same => ?_)
      exact oldestPerAgreement_none.mp found stored member (of_decide_eq_true same)
  | some first =>
      obtain ⟨inRows, same, older⟩ := oldestPerAgreement_some found
      refine ⟨List.mem_map_of_mem (List.mem_filter.mpr ⟨inRows, decide_eq_true same⟩), ?_⟩
      intro entry member
      obtain ⟨stored, isStored, rfl⟩ := List.mem_map.mp member
      obtain ⟨isShown, isMine⟩ := List.mem_filter.mp isStored
      exact older stored isShown (of_decide_eq_true isMine)

/-- The duplicates a page splits off for an agreement are others it shows. -/
theorem shown_younger {rows : List (Stored Record)} (order : List EntityKey)
    (read : (Reply.rows rows).Grounded me state.chain) {key : EntityKey}
    (member : key ∈ (oldestPerAgreement (rows.filterMap (Stored.decode Record.asCounter))).2.filter
      (state.chain.owner me · = some agreement)) :
    ∃ entry ∈ shownOf agreement rows, entry.key = key ∧
      (((oldestPerAgreement (rows.filterMap (Stored.decode Record.asCounter))).1.reorder
        order).get? agreement).map Entry.ofStored ≠ some entry := by
  obtain ⟨isYounger, owned⟩ := List.mem_filter.mp member
  have distinct := Process.counters_keys read.1
  obtain ⟨stored, inRows, rfl, differs⟩ := oldestPerAgreement_younger distinct isYounger
  have same : stored.record.agreement = agreement := by
    have isOwner := Process.counters_owned read inRows
    exact Option.some.inj (isOwner.symm.trans (of_decide_eq_true owned))
  refine ⟨Entry.ofStored stored,
    List.mem_map_of_mem (List.mem_filter.mpr ⟨inRows, decide_eq_true same⟩), rfl, fun taken => ?_⟩
  rw [Keyed.get?_reorder] at taken
  obtain ⟨first, found, isSame⟩ := Option.map_eq_some_iff.mp taken
  have sameKey : first.key = stored.key := congrArg Entry.key isSame
  have inFirst := (oldestPerAgreement_some found).1
  obtain rfl := List.inj_on_of_nodup_map distinct inFirst inRows sameKey
  exact differs (same.symm ▸ found)

/-- A page of open counter records is read. -/
theorem reads_counters (memory : process.agent.Grounded me state.chain) (work : Work) {head : Nat}
    {shown : List EntityKey} (order : List EntityKey) {rows : List (Stored Record)}
    (page : state.view.page (process.agent.countersQuery head) shown = some rows)
    (read : (Reply.rows rows).Grounded me state.chain)
    (allowed : ok (.page work.flushing (shownOf agreement rows))
      (state.accountWith me agreement .clear (process.agent.held agreement))) :
    Relation.ReflTransGen (Account.Step ok)
      (state.accountWith me agreement .clear (process.agent.held agreement))
      (state.accountOf me agreement (process.openCountersRead work head order rows)) := by
  have missed := missingCounters_lookup process.agent
    ((oldestPerAgreement (rows.filterMap (Stored.decode Record.asCounter))).1.reorder order) agreement
  have paged := @Account.Step.page ok
    (state.accountWith me agreement .clear (process.agent.held agreement)) work.flushing
    (shownOf agreement rows) _ ((oldestPerAgreement (rows.filterMap
      (Stored.decode Record.asCounter))).2.filter (state.chain.owner me · = some agreement))
    rfl rfl
    (fun entry member => by
      rw [accountWith_view]
      exact shown_inView memory.self page member)
    (shown_oldest order) (fun key member => shown_younger order read member) allowed
  have named : (state.accountWith me agreement .clear (process.agent.held agreement)).held =
      process.agent.held agreement := rfl
  rw [named, ← missed] at paged
  simp only [Process.openCountersRead]
  split
  · next nothing =>
      rw [nothing] at paged
      have apart : (([] : List (EntityKey × Nat)).map Prod.fst).Nodup := List.nodup_nil
      exact .head paged (reconciles memory _ _ _ _ apart)
  · exact .single paged

/-- A record that memory misses is looked up by its key. -/
theorem looked_closed {agent : Agent} (self : agent.identity.address = me) {counter : EntityKey}
    {shown : List EntityKey} {rows : List (Stored Record)}
    (owned : state.chain.owner me counter = some agreement)
    (page : state.chain.page (agent.counterQuery counter) shown = some rows) :
    closedCount rows = Account.closedCount (state.chain.counters me agreement) counter := by
  obtain ⟨row, found, counts⟩ := Option.bind_eq_some_iff.mp owned
  obtain ⟨creator, isMine⟩ := Option.ite_none_right_eq_some.mp counts
  obtain ⟨record, asCounter, rfl⟩ := Option.map_eq_some_iff.mp isMine
  obtain ⟨inChain, rfl⟩ := Keyed.get?_eq_some.mp found
  have isCounter : row.record = .counter record := by
    cases kind : row.record <;> simp_all [Record.asCounter]
  have only : ∀ other ∈ rows, other = row := by
    intro other member
    obtain ⟨isThere, _, admits⟩ := Chain.page_mem page member
    simp only [Query.admits, Agent.counterQuery, Bool.and_eq_true, Option.all_some,
      decide_eq_true_eq] at admits
    exact Keyed.eq_of_mem isThere inChain admits.1.1.1.1.2
  have onChain : ∀ entry ∈ state.chain.counters me record.agreement, entry.key = row.key →
      state.chain.alive row = true ∧ entry = ⟨row.key, row.createdAt, record⟩ := by
    intro entry member same
    obtain ⟨other, isThere, alive, _, sameKey, sameAge, isRecord, _⟩ := Chain.mem_counters.mp member
    obtain rfl := Keyed.eq_of_mem isThere inChain (sameKey.trans same)
    rw [isCounter, Record.counter.injEq] at isRecord
    refine ⟨alive, ?_⟩
    rw [isRecord, sameAge, sameKey]
  by_cases alive : state.chain.alive row = true
  · have admits : (agent.counterQuery row.key).admits row = true := by
      simp [Query.admits, Agent.counterQuery, isCounter, Record.kind, creator, self]
    have fits : (state.chain.matching (agent.counterQuery row.key)).values.length ≤ PAGE_LIMIT := by
      have part : (state.chain.matching (agent.counterQuery row.key)).values.map Stored.key ⊆
          [row.key] := by
        intro key member
        obtain ⟨other, isMatching, rfl⟩ := List.mem_map.mp member
        have fits := (List.mem_filter.mp isMatching).2
        simp only [Query.admits, Agent.counterQuery, Bool.and_eq_true, Option.all_some,
          decide_eq_true_eq] at fits
        exact List.mem_singleton.mpr fits.2.1.1.1.1.2
      have bound := (List.subperm_of_subset
        (state.chain.matching (agent.counterQuery row.key)).distinct part).length_le
      rw [List.length_map, List.length_singleton] at bound
      exact bound.trans (by decide)
    have inRows := Chain.page_whole page fits inChain alive admits
    have isHead : rows.head? = some row := by
      cases rows with
      | nil => cases inRows
      | cons first rest => exact congrArg some (only first List.mem_cons_self)
    have isEntry : (state.chain.counters me record.agreement).find? (·.key = row.key) =
        some ⟨row.key, row.createdAt, record⟩ := by
      have member : (⟨row.key, row.createdAt, record⟩ : Entry) ∈
          state.chain.counters me record.agreement :=
        Chain.mem_counters.mpr ⟨row, inChain, alive, creator, rfl, rfl, isCounter, rfl⟩
      cases sought : (state.chain.counters me record.agreement).find? (·.key = row.key) with
      | none => simpa using List.find?_eq_none.mp sought _ member
      | some entry =>
          have same : entry.key = row.key := by simpa using List.find?_some sought
          rw [(onChain entry (List.mem_of_find?_eq_some sought) same).2]
    simp only [closedCount, isHead, Account.closedCount, isEntry, Option.bind_some, Stored.decode,
      isCounter, Record.asCounter, Option.map_some, Entry.isOpen]
    by_cases how : record.state = .opened
    · simp [how]
    · have shut : record.state = .closed := by
        cases kind : record.state with
        | opened => exact absurd kind how
        | closed => rfl
      simp [shut]
  · have nothing : rows = [] := by
      refine List.eq_nil_iff_forall_not_mem.mpr fun other member => alive ?_
      have isAlive := (Chain.page_mem page member).2.1
      rwa [only other member] at isAlive
    have absent : (state.chain.counters me record.agreement).find? (·.key = row.key) = none := by
      refine List.find?_eq_none.mpr fun entry member same => alive ?_
      exact (onChain entry member (of_decide_eq_true same)).1
    simp [closedCount, nothing, Account.closedCount, absent]

/-- The flush reads the entries. -/
theorem ends_counts (memory : process.agent.Grounded me state.chain) (kind : Flush) (head : Nat)
    {closing : List Closing} (queue : List Batch) (patched : List EntityKey)
    (distinct : (closing.map Closing.agreement).Nodup) :
    Relation.ReflTransGen (Account.Step ok)
      (state.accountWith me agreement
        (.writing (writesOf me state.chain agreement queue)
          ((closing.find? (·.agreement = agreement)).map fun close =>
            { counter := close.counter
              count := close.count
              landed := close.counter ∈ patched }))
        (process.agent.held agreement))
      (state.accountOf me agreement (process.afterCounts kind head closing queue patched)) := by
  rw [Process.afterCounts]
  split
  · next nothing =>
      subst nothing
      have ends := memory.held_endPeriods agreement distinct patched head
      have now : state.accountOf me agreement
          { process with
            agent := (process.agent.endPeriods closing patched head).1
            task := .afterSuccessors kind
              (asQueue (process.agent.endPeriods closing patched head).2) } =
          state.accountWith me agreement
            (.writing (Agent.succeeds agreement head
              ((closing.find? (·.agreement = agreement)).filter (·.counter ∈ patched))
              (process.agent.agreements.get? agreement)) none)
            ((process.agent.held agreement).map (Agent.closedBy
              ((closing.find? (·.agreement = agreement)).filter (·.counter ∈ patched)))) := by
        simp only [accountOf, Task.desk_afterSuccessors, writesOf_asQueue, ends.writes, ends.held]
      refine now ▸ ?_
      have empty : writesOf me state.chain agreement ([] : List Batch) = [] := rfl
      rw [empty]
      cases found : closing.find? (·.agreement = agreement) with
      | none =>
          simp only [Option.filter_none, Agent.closedBy_none, Option.map_id_fun, id_eq]
          exact .refl
      | some close =>
          by_cases landed : close.counter ∈ patched
          · have isEnd : (some close).filter (·.counter ∈ patched) = some close := by
              simp [Option.filter, landed]
            rw [isEnd]
            cases isLive : process.agent.agreements.get? agreement with
            | none =>
                rw [Agent.held_eq_none.mpr isLive]
                exact .single (.finish rfl (.inl rfl))
            | some live =>
                rw [Agent.held_of_get? isLive]
                have succeeds := @Account.Step.successor ok
                  (state.accountWith me agreement
                    (.writing []
                      ((some close).map fun close =>
                        { counter := close.counter
                          count := close.count
                          landed := close.counter ∈ patched }))
                    (some
                      { counter := live.counter.map (·.key)
                        served := process.agent.pool.served live.provider
                        total := process.agent.pool.servedTotal live.provider })) _ _
                  (freshCounter agreement live.agreement.record live.agreement.record.weiPerCall head)
                  rfl (decide_eq_true landed) rfl rfl rfl
                exact .single succeeds
          · have isNone : (some close).filter (·.counter ∈ patched) = none := by
              simp [Option.filter, landed]
            rw [isNone, Agent.closedBy_none, Option.map_id_fun, id_eq]
            refine .single (.finish rfl (.inr ?_))
            rintro _ ⟨⟩
            exact decide_eq_false landed
  · exact .refl

/-- The flush reads the entries and builds its first batch: what it owes, and then what follows from
an empty one. -/
theorem counts_taken (memory : process.agent.Grounded me state.chain) {kind : Flush} {head : Nat}
    {counters : Counters} (task : process.task = .countsBatch kind head counters)
    (read : counters.Grounded me state.chain process.agent.agreements)
    (isOpen : ∀ stored ∈ counters.opened.values, stored.record.state = .opened) {after : Process}
    (counted : process.countServed = some after) :
    ∃ row duplicates, ∃ opening : CounterRecord, ∃ period,
      opening.count = 0 ∧ opening.state = .opened ∧
      state.accountOf me agreement process =
        state.accountWith me agreement (.matched true row duplicates)
          (process.agent.held agreement) ∧
      Relation.ReflTransGen (Account.Step ok)
        (state.accountWith me agreement
          (.writing ((if kind = .scheduled then duplicates.map .delete else []) ++
            (Account.owed kind head period opening row (process.agent.held agreement)).1)
            (Account.owed kind head period opening row (process.agent.held agreement)).2)
          (process.agent.held agreement))
        (state.accountOf me agreement after) := by
  simp only [Process.countServed, task, Option.some.injEq] at counted
  subst counted
  obtain ⟨opening, zero, opened, writes, closes⟩ :=
    Agent.countsBatch_owed agreement read isOpen head kind
  refine ⟨counters.row agreement,
    counters.duplicates.filter (state.chain.owner me · = some agreement), opening,
    blocks process.agent.config.settlementPeriod, zero, opened, ?_, ?_⟩
  · simp only [accountOf, task]
    rfl
  · have made := @ends_counts _ agreement _ _ ok memory kind head
      (process.agent.countsBatch counters head kind).2
      (asQueue (process.agent.countsBatch counters head kind).1) []
      (Agent.countsBatch_distinct _ _ _ _)
    simp only [List.not_mem_nil, decide_false, writesOf_asQueue] at made
    rw [writes, closes] at made
    exact made

/-- The flush reads the entries and builds its first batch. -/
theorem counts_served (memory : process.agent.Grounded me state.chain) {kind : Flush} {head : Nat}
    {counters : Counters} (task : process.task = .countsBatch kind head counters)
    (read : counters.Grounded me state.chain process.agent.agreements)
    (isOpen : ∀ stored ∈ counters.opened.values, stored.record.state = .opened) {after : Process}
    (counted : process.countServed = some after) :
    Relation.ReflTransGen (Account.Step ok) (state.accountOf me agreement process)
      (state.accountOf me agreement after) := by
  obtain ⟨row, duplicates, opening, period, zero, opened, reads, made⟩ :=
    @counts_taken _ agreement _ _ ok memory _ _ _ task read isOpen _ counted
  have counting := @Account.Step.counts ok
    (state.accountWith me agreement (.matched true row duplicates) (process.agent.held agreement))
    _ _ opening kind head period rfl zero opened
  rw [reads]
  exact .head counting made

end State

end CommunityLb
