import CommunityLb.Marketplace.Reconciling

/-!
# The answers of writes as one agreement's account sees them
-/

namespace CommunityLb

section Tasks

variable {me : Address} {chain : Chain} {agreement : EntityKey} {agent after : Agent}

/-- What a task has at hand depends on memory by its configuration alone. -/
theorem Task.desk_congr (me : Address) (chain : Chain) (agreement : EntityKey) (task : Task)
    (config : after.config = agent.config) :
    task.desk me chain agreement after = task.desk me chain agreement agent := by
  cases task with
  | acceptCounter discovery offer port accepted =>
      simp only [desk, Agent.acceptedRecord, config]
  | _ => rfl

theorem desk_afterOffer (process : Process) (discovery : Discovery) :
    (process.afterOffer discovery).task.desk me chain agreement
      (process.afterOffer discovery).agent = .clear := by
  rw [Process.afterOffer]
  split <;> rfl

theorem held_afterOffer (process : Process) (discovery : Discovery) :
    (process.afterOffer discovery).agent.held agreement = process.agent.held agreement := by
  rw [process.afterOffer_agent]

/-- The patches that a receipt names are those of the batch. -/
theorem answers_iff {batch : Batch} {keys : List EntityKey} (block : Nat) (close : Close)
    (length : keys.length = batch.length) (owned : chain.owner me close.counter = some agreement)
    (unlisted : Unlisted [batch]) :
    (writesOf me chain agreement [batch]).any (Account.answers (some close)) =
      decide (close.counter ∈ (BatchResult.of block (batch.zip keys)).patchedEntities) := by
  rw [Bool.eq_iff_iff, List.any_eq_true, decide_eq_true_eq, patched_of]
  have operations : (batch.zip keys).map Prod.fst = batch := List.map_fst_zip length.ge
  constructor
  · rintro ⟨write, member, isAnswer⟩
    obtain ⟨_, inQueue, operation, inBatch, writes⟩ := mem_writesOf.mp member
    obtain rfl := List.mem_singleton.mp inQueue
    have patched : write.patched = some close.counter := by
      simpa [Account.answers] using isAnswer
    obtain ⟨pair, inPairs, rfl⟩ := (mem_of_pairs operations).mp inBatch
    refine ⟨pair, inPairs, ?_⟩
    cases operation : pair.1 with
    | create record seconds =>
        rw [operation] at writes
        cases record <;> simp [Operation.writeFor] at writes
        rw [← writes.2] at patched
        cases patched
    | patch key set =>
        rw [operation] at writes
        cases set with
        | listing record => cases writes
        | counter payload state =>
            obtain ⟨_, same⟩ := Option.ite_none_right_eq_some.mp writes
            rw [← Option.some.inj same] at patched
            exact ⟨_, by rw [Option.some.inj patched]⟩
    | delete key =>
        rw [operation] at writes
        obtain ⟨_, same⟩ := Option.ite_none_right_eq_some.mp writes
        rw [← Option.some.inj same] at patched
        cases patched
    | extend key seconds =>
        rw [operation] at writes
        cases writes
  · rintro ⟨pair, inPairs, set, isPatch⟩
    have inBatch : pair.1 ∈ batch := (mem_of_pairs operations).mpr ⟨pair, inPairs, rfl⟩
    cases set with
    | listing record =>
        exact absurd isPatch (unlisted batch List.mem_cons_self _ inBatch _ _)
    | counter payload state =>
        refine ⟨.patch close.counter payload (state = some .closed),
          mem_writesOf.mpr ⟨batch, List.mem_cons_self, pair.1, inBatch, ?_⟩, ?_⟩
        · rw [isPatch]
          simp [Operation.writeFor, owned]
        · simp [Account.answers, CounterWrite.patched]

/-- No counter record counts for an agreement that is not known yet. -/
theorem noCounters {earlier later : Chain} (rooted : later.Rooted me)
    (grows : earlier.Grows me later) (absent : later.entities.get? agreement = none) :
    earlier.counters me agreement = [] := by
  refine List.eq_nil_iff_forall_not_mem.mpr fun entry member => ?_
  obtain ⟨_, owned⟩ := Chain.mem_counters_keys.mp (List.mem_map_of_mem (f := Entry.key) member)
  have known := rooted.agreements entry.key agreement (grows.owned owned)
  rw [absent] at known
  cases known

end Tasks

namespace State

variable {sidecar : Identity} {agreement : EntityKey} {state middle : State} {process : Process}
  {ok : Label → Account → Prop} {batch : Batch} {answer : WriteAnswer}
  {result : Except WriteError BatchResult} {held : Option Held}

/-- What a sent batch may be the label of: a record that expires in the block, or a failure. -/
structure Permits (me : Address) (agreement : EntityKey) (ok : Label → Account → Prop)
    (state : State) (batch : Batch) (answer : WriteAnswer) : Prop where
  expire : ∀ fates keys, answer = .landed fates keys →
    (state.chain.advance 1).counters me agreement = state.chain.counters me agreement ∨
      ∀ account, ok .expire account
  fail : ∀ error lost, answer = .failed error lost →
    ¬ (error = .tooLarge ∧ batch.halves.isSome = true) → ∀ account, ok (.fail lost) account

/-- A close asked for is answered as landed by a batch that patches its record. -/
def markedBy (result : Except WriteError BatchResult) (writes : List CounterWrite)
    (close : Close) : Close :=
  match result with
  | .ok _ =>
      { close with
        landed := close.landed || writes.any (Account.answers (some close)) }
  | .error _ => close

/-- The records an answer names as patched. -/
def patchedBy : Except WriteError BatchResult → List EntityKey
  | .ok result => result.patchedEntities
  | .error _ => []

/-- The first of the batches at hand is sent and answered. -/
theorem Grounded.sent_queue (grounded : state.Grounded sidecar.address)
    (sent : state.send sidecar batch answer = some (middle, result))
    (permits : state.Permits sidecar.address agreement ok batch answer)
    {rest : List Batch} {close : Option Close}
    (sane : SaneQueue sidecar.address state.chain (batch :: rest))
    (known : (state.accountWith sidecar.address agreement
      (.writing (writesOf sidecar.address state.chain agreement (batch :: rest)) close)
        held).Known state.chain) :
    Relation.ReflTransGen (Account.Step ok)
      (state.accountWith sidecar.address agreement
        (.writing (writesOf sidecar.address state.chain agreement (batch :: rest)) close) held)
      (middle.accountWith sidecar.address agreement
        (.writing (writesOf sidecar.address middle.chain agreement (requeue batch rest result))
          (close.map (markedBy result (writesOf sidecar.address state.chain agreement [batch]))))
        held) := by
  cases answer with
  | landed fates keys =>
      obtain ⟨chain, landed, _, _, _, rfl⟩ := send_landed_chain sent
      have lands := grounded.sent_landed sent sane known (permits.expire fates keys rfl)
      have marked : close.map (markedBy (.ok (BatchResult.of landed.head (batch.zip keys)))
          (writesOf sidecar.address state.chain agreement [batch])) =
          close.map fun asked =>
            { asked with
              landed := asked.landed ||
                (writesOf sidecar.address state.chain agreement [batch]).any
                  (Account.answers close) } := by
        cases close <;> rfl
      rw [marked]
      exact lands
  | failed error lost =>
      obtain rfl := send_failed sent
      have marked : close.map (markedBy (.error error)
          (writesOf sidecar.address state.chain agreement [batch])) = close := by
        cases close <;> rfl
      rw [marked, writesOf_requeue]
      split
      · next split =>
          obtain ⟨rfl, _⟩ := split
          have same : middle = state := by
            simp only [State.send] at sent
            split at sent
            · simp [WriteError.maySend] at sent
            · cases sent
              rfl
          rw [same]
      · next whole => exact sent_failed sent (permits.fail error lost rfl whole)

/-- A task whose batches are at hand sends the first of them. -/
theorem Grounded.queue_written (grounded : state.Grounded sidecar.address)
    (runs : state.process = some process)
    (sent : state.send sidecar batch answer = some (middle, result))
    (permits : state.Permits sidecar.address agreement ok batch answer) {rest : List Batch}
    (sane : SaneQueue sidecar.address state.chain (batch :: rest))
    (desk : ∀ chain, process.task.desk sidecar.address chain agreement process.agent =
      .writing (writesOf sidecar.address chain agreement (batch :: rest)) none)
    {task : Task}
    (after : ∀ chain, task.desk sidecar.address chain agreement process.agent =
      .writing (writesOf sidecar.address chain agreement (requeue batch rest result)) none) :
    Relation.ReflTransGen (Account.Step ok) (state.accountOf sidecar.address agreement process)
      (middle.accountOf sidecar.address agreement { process with task := task }) := by
  have known := grounded.known agreement runs
  simp only [accountOf, desk, after] at known ⊢
  exact grounded.sent_queue sent permits sane known

/-- The first writes of a flush. -/
theorem Grounded.counts_written (grounded : state.Grounded sidecar.address)
    (runs : state.process = some process)
    (sent : state.send sidecar batch answer = some (middle, result))
    (permits : state.Permits sidecar.address agreement ok batch answer) {kind : Flush} {head : Nat}
    {closing : List Closing} {rest : List Batch} {patched : List EntityKey}
    (task : process.task = .flushCounts kind head closing (batch :: rest) patched) :
    Relation.ReflTransGen (Account.Step ok) (state.accountOf sidecar.address agreement process)
      (middle.accountOf sidecar.address agreement (process.written result)) := by
  have now := grounded.process process runs
  have counting := now.task
  rw [task] at counting
  obtain ⟨sane, unlisted, owned, distinct⟩ := counting
  have grown := grounded.send (fun operation member => sane batch List.mem_cons_self operation member)
    sent
  have known := grounded.known agreement runs
  simp only [accountOf, task, Task.desk] at known
  have sending := grounded.sent_queue sent permits sane known
  simp only [accountOf, task, Task.desk]
  refine sending.trans ?_
  have ends := @ends_counts _ agreement middle process ok (now.agent.grows grown.2.2.1) kind head
    closing (requeue batch rest result) (patched ++ patchedBy result) distinct
  have marked : ((closing.find? (·.agreement = agreement)).map fun close =>
      ({ counter := close.counter
         count := close.count
         landed := close.counter ∈ patched } : Close)).map
        (markedBy result (writesOf sidecar.address state.chain agreement [batch])) =
      (closing.find? (·.agreement = agreement)).map fun close =>
        { counter := close.counter
          count := close.count
          landed := close.counter ∈ patched ++ patchedBy result } := by
    cases found : closing.find? (·.agreement = agreement) with
    | none => rfl
    | some close =>
        have isMine : close.agreement = agreement := by simpa using List.find?_some found
        have isOwned := owned close (List.mem_of_find?_eq_some found)
        rw [isMine] at isOwned
        cases answer with
        | failed error lost =>
            obtain rfl := send_failed sent
            simp [markedBy, patchedBy]
        | landed fates keys =>
            obtain ⟨chain, landed, _, lands, _, rfl⟩ := send_landed_chain sent
            obtain ⟨length, _⟩ := Chain.land_eq_some.mp lands
            have one : Unlisted [batch] := by
              intro other member
              obtain rfl := List.mem_singleton.mp member
              exact unlisted other List.mem_cons_self
            have named := answers_iff landed.head
              { counter := close.counter
                count := close.count
                landed := close.counter ∈ patched } length isOwned one
            simp [markedBy, patchedBy, named, List.mem_append]
  rw [marked]
  have same : process.written result =
      process.afterCounts kind head closing (requeue batch rest result)
        (patched ++ patchedBy result) := by
    simp only [Process.written, task]
    rfl
  simp only [accountOf] at ends
  rw [same]
  exact ends

/-- A write that nothing of the agreement is in is answered. -/
theorem Grounded.aside_written (grounded : state.Grounded sidecar.address)
    (runs : state.process = some process) (sends : process.sending = some batch)
    (sent : state.send sidecar batch answer = some (middle, result))
    (permits : state.Permits sidecar.address agreement ok batch answer)
    (desk : process.task.desk sidecar.address state.chain agreement process.agent = .clear)
    (whole : batch.halves = none)
    (nothing : batch.filterMap (Operation.writeFor sidecar.address state.chain agreement) = []) :
    Relation.ReflTransGen (Account.Step ok) (state.accountOf sidecar.address agreement process)
      (middle.accountWith sidecar.address agreement .clear (process.agent.held agreement)) := by
  have sane : SaneQueue sidecar.address state.chain [batch] := by
    intro other member
    obtain rfl := List.mem_singleton.mp member
    exact (grounded.process process runs).sending sends
  have empty : writesOf sidecar.address state.chain agreement [batch] = [] := by
    simpa [writesOf] using nothing
  have clear : Desk.writing (writesOf sidecar.address state.chain agreement [batch]) none = .clear := by
    rw [empty]
  have known := grounded.known agreement runs
  simp only [accountOf, desk] at known ⊢
  have gone : requeue batch [] result = [] := by
    unfold requeue
    split
    · simp [whole]
    · rfl
  have atHand : (state.accountWith sidecar.address agreement
      (.writing (writesOf sidecar.address state.chain agreement [batch]) none)
        (process.agent.held agreement)).Known state.chain := by
    rw [clear]
    exact known
  have sending := grounded.sent_queue sent permits sane atHand
  rw [clear, gone] at sending
  exact sending

/-- An acceptance's agreement is written. -/
theorem Grounded.agreement_written (grounded : state.Grounded sidecar.address)
    (runs : state.process = some process) {discovery : Discovery} {offer : Stored Offer}
    {port : Nat} (task : process.task = .acceptAgreement discovery offer port)
    (sends : process.sending = some batch)
    (sent : state.send sidecar batch answer = some (middle, result))
    (permits : state.Permits sidecar.address agreement ok batch answer)
    (accepts : ∀ fates, answer = .landed fates [agreement] → ∀ account, ok .accept account) :
    Relation.ReflTransGen (Account.Step ok) (state.accountOf sidecar.address agreement process)
      (middle.accountOf sidecar.address agreement
        (process.agreementWritten discovery offer port result)) := by
  have isBatch := sends
  simp only [Process.sending, task, Option.some.injEq] at isBatch
  have aside := grounded.aside_written runs sends sent permits
    (by rw [task]; rfl) (by rw [← isBatch]; rfl) (by rw [← isBatch]; rfl)
  refine aside.trans ?_
  have now := grounded.process process runs
  cases answer with
  | failed error lost =>
      obtain rfl := send_failed sent
      have after : ∀ discovery : Discovery,
          middle.accountOf sidecar.address agreement (process.afterOffer discovery) =
            middle.accountWith sidecar.address agreement .clear (process.agent.held agreement) := by
        intro discovery
        rw [accountOf, desk_afterOffer, held_afterOffer]
      cases error <;> exact after _ ▸ .refl
  | landed fates keys =>
      obtain ⟨chain, landed, settled, lands, rfl, rfl⟩ := send_landed_chain sent
      obtain ⟨length, executed⟩ := Chain.land_eq_some.mp lands
      rw [← isBatch] at length executed
      obtain ⟨key, rfl⟩ := List.length_eq_one_iff.mp (length : keys.length = 1)
      obtain ⟨last, operated, done⟩ := Option.bind_eq_some_iff.mp executed
      obtain rfl := Option.some.inj done
      have follows := (grounded.follows 1).settle grounded.pending settled
      have fresh := Chain.operate_fresh operated
      have written : process.agreementWritten discovery offer port
          (.ok (BatchResult.of last.head (batch.zip [key]))) =
          { process with
            agent := process.agent.insertAgreement (process.agent.acceptedRow offer port
              discovery.head (key, last.head + blocksOf process.agent.config.offerMaxLifetime.asSecs))
            task := .acceptCounter discovery offer port key } := by
        rw [← isBatch]
        rfl
      rw [written]
      by_cases same : key = agreement
      · subst same
        have absent : process.agent.held key = none := by
          refine Agent.held_eq_none.mpr (Option.eq_none_iff_forall_ne_some.mpr fun live found => ?_)
          obtain ⟨member, rfl⟩ := Keyed.get?_eq_some.mp found
          have known := follows.grows.known _ (now.agent.known live member)
          rw [fresh] at known
          cases known
        have isHeld : (process.agent.insertAgreement (process.agent.acceptedRow offer port
            discovery.head (key, last.head + blocksOf
              process.agent.config.offerMaxLifetime.asSecs))).held key = some Agent.fresh := by
          rw [now.agent.held_insertAgreement]
          exact if_pos rfl
        have rows : ∀ earlier : Chain, earlier.Grows sidecar.address chain →
            earlier.counters sidecar.address key = [] :=
          fun earlier grows => noCounters follows.rooted grows fresh
        have kept : chain.counters sidecar.address key = last.counters sidecar.address key := by
          have records : Chain.landFor chain.head key (chain.counters sidecar.address key) none =
              some (last.counters sidecar.address key) :=
            Chain.operate_counters (by simp [Operation.Sane]) follows.rooted.gone operated
          exact Option.some.inj records
        have alive : last.lost key = false := by
          have isThere := Chain.operate_created operated
          have kept : last.gone = chain.gone := by
            simp only [Chain.operate] at operated
            split at operated
            · cases operated
              rfl
            · cases operated
          have notGone : key ∉ chain.gone := fun gone => by
            have known := follows.rooted.gone key gone
            rw [fresh] at known
            cases known
          have lives := now.agent.offerLife
          have head := Chain.operate_head operated
          rw [blocks] at lives
          simp [Chain.lost, isThere, Chain.alive, kept, notGone, head, lives]
        rw [absent]
        simp only [accountOf, isHeld, Task.desk, if_pos]
        refine .single (.accept rfl rfl ?_ ?_ rfl alive rfl rfl (accepts fates rfl _))
        · exact kept.symm.trans (rows chain (.refl _))
        · intro seen member
          obtain ⟨earlier, isEarlier, rfl⟩ := List.mem_map.mp member
          rcases List.mem_append.mp isEarlier with old | isLast
          · exact rows earlier ((grounded.behind earlier old).trans follows.grows)
          · obtain rfl := List.mem_singleton.mp isLast
            exact rows state.chain follows.grows
      · have isHeld : (process.agent.insertAgreement (process.agent.acceptedRow offer port
            discovery.head (key, last.head + blocksOf
              process.agent.config.offerMaxLifetime.asSecs))).held agreement =
            process.agent.held agreement := by
          rw [now.agent.held_insertAgreement]
          exact if_neg fun here => same here.symm
        simp only [accountOf, isHeld, Task.desk, if_neg same]
        exact .refl

/-- An acceptance's counter record is written for another agreement. -/
theorem Grounded.counter_aside (grounded : state.Grounded sidecar.address)
    (runs : state.process = some process) {discovery : Discovery} {offer : Stored Offer}
    {port : Nat} {other : EntityKey}
    (task : process.task = .acceptCounter discovery offer port other) (apart : other ≠ agreement)
    (sends : process.sending = some batch)
    (sent : state.send sidecar batch answer = some (middle, result))
    (permits : state.Permits sidecar.address agreement ok batch answer) :
    Relation.ReflTransGen (Account.Step ok) (state.accountOf sidecar.address agreement process)
      (middle.accountOf sidecar.address agreement
        (process.counterWritten discovery offer port other result)) := by
  have isBatch := sends
  simp only [Process.sending, task, Option.some.injEq] at isBatch
  have aside := grounded.aside_written runs sends sent permits
    (by rw [task]; exact if_neg apart) (by rw [← isBatch]; rfl)
    (by rw [← isBatch]; simp [Operation.writeFor, freshCounter, apart])
  refine aside.trans ?_
  simp only [accountOf, Process.counterWritten, desk_afterOffer, held_afterOffer,
    Agent.held_setCounter, if_neg (Ne.symm apart)]
  exact .refl

/-- The record an answer names as created. -/
def createdBy : Except WriteError BatchResult → Option EntityKey
  | .ok result => result.createdEntities.head?.map Prod.fst
  | .error _ => none

/-- An acceptance's counter record is written. -/
theorem Grounded.counter_written (grounded : state.Grounded sidecar.address)
    (runs : state.process = some process) {discovery : Discovery} {offer : Stored Offer}
    {port : Nat} (task : process.task = .acceptCounter discovery offer port agreement)
    (sends : process.sending = some batch)
    (sent : state.send sidecar batch answer = some (middle, result))
    (permits : state.Permits sidecar.address agreement ok batch answer) :
    Relation.ReflTransGen (Account.Step ok) (state.accountOf sidecar.address agreement process)
      (middle.accountOf sidecar.address agreement
        (process.counterWritten discovery offer port agreement result)) := by
  have isBatch := sends
  simp only [Process.sending, task, Option.some.injEq] at isBatch
  have now := grounded.process process runs
  have accepting := now.task
  rw [task] at accepting
  obtain ⟨live, found⟩ := Option.isSome_iff_exists.mp accepting.2
  have isHeld := Agent.held_of_get? found
  have known := grounded.known agreement runs
  have desk : process.task.desk sidecar.address state.chain agreement process.agent =
      .accepting (freshCounter agreement (process.agent.acceptedRecord offer port)
        process.agent.config.weiPerCall discovery.head) := by
    rw [task]
    exact if_pos rfl
  have after : middle.accountOf sidecar.address agreement
      (process.counterWritten discovery offer port agreement result) =
      middle.accountWith sidecar.address agreement .clear
        ((process.agent.held agreement).map fun held =>
          { held with counter := createdBy result }) := by
    simp only [accountOf, Process.counterWritten, desk_afterOffer, held_afterOffer,
      Agent.held_setCounter, if_true]
    cases result with
    | error error => rfl
    | ok receipt =>
        simp only [createdBy, Option.map_map]
        rfl
  rw [after]
  simp only [accountOf, desk] at known ⊢
  rw [isHeld] at known ⊢
  cases answer with
  | failed error lost =>
      obtain rfl := send_failed sent
      have whole : ¬ (error = .tooLarge ∧ batch.halves.isSome = true) := by
        rw [← isBatch]
        rintro ⟨_, halves⟩
        cases halves
      have failing := @Account.Step.acceptFailed ok
        (state.accountWith sidecar.address agreement
          (.accepting (freshCounter agreement (process.agent.acceptedRecord offer port)
            process.agent.config.weiPerCall discovery.head))
          (some
            { counter := live.counter.map (·.key)
              served := process.agent.pool.served live.provider
              total := process.agent.pool.servedTotal live.provider })) _ _ lost rfl rfl
        (permits.fail error lost rfl whole _)
      have one : writesOf sidecar.address state.chain agreement [batch] =
          [.opening (freshCounter agreement (process.agent.acceptedRecord offer port)
            process.agent.config.weiPerCall discovery.head)] := by
        rw [← isBatch]
        simp [writesOf, Operation.writeFor, freshCounter]
      refine .trans (.single failing) ?_
      simp only [State.send] at sent
      cases lost with
      | false =>
          cases sent
          exact .refl
      | true =>
          obtain ⟨_, same⟩ := Option.ite_none_right_eq_some.mp sent
          cases same
          have grown : ∀ desk held,
              ({ state with pending := state.pending ++ [batch] } : State).accountWith
                sidecar.address agreement desk held =
              { state.accountWith sidecar.address agreement desk held with
                sent := writesOf sidecar.address state.chain agreement state.pending ++
                  writesOf sidecar.address state.chain agreement [batch] } := by
            intro desk held
            simp only [accountWith, Account.writesOf_append]
          rw [grown, one]
          exact .refl
  | landed fates keys =>
      obtain ⟨chain, landed, settled, lands, rfl, rfl⟩ := send_landed_chain sent
      obtain ⟨length, executed⟩ := Chain.land_eq_some.mp lands
      rw [← isBatch] at length executed
      obtain ⟨key, rfl⟩ := List.length_eq_one_iff.mp (length : keys.length = 1)
      obtain ⟨last, operated, done⟩ := Option.bind_eq_some_iff.mp executed
      obtain rfl := Option.some.inj done
      have follows := (grounded.follows 1).settle grounded.pending settled
      have before := grounded.settled settled
      have sealing := grounded.seals (by omega : 0 < 1) settled known (permits.expire fates [key] rfl)
      have sane : (Operation.create (.counter (freshCounter agreement
          (process.agent.acceptedRecord offer port) process.agent.config.weiPerCall discovery.head))
          process.agent.config.counterRecordLife.asSecs).Sane sidecar.address chain :=
        Agent.freshCounter_sane (now.agent.grows follows.grows)
          (follows.grows.known _ accepting.1)
      have rows : Chain.landFor chain.head key (chain.counters sidecar.address agreement)
          (some (.opening (freshCounter agreement (process.agent.acceptedRecord offer port)
            process.agent.config.weiPerCall discovery.head))) =
          some (last.counters sidecar.address agreement) := by
        have landing : Chain.landFor chain.head key (chain.counters sidecar.address agreement) _ =
            some (last.counters sidecar.address agreement) :=
          Chain.operate_counters sane follows.rooted.gone operated
        simpa [Operation.writeFor, freshCounter] using landing
      have head := Chain.operate_head operated
      have filled := filling_known (state.chain.lost agreement)
        (before.knownWith agreement
          (fun key mentioned => follows.grows.known key (known.desk key mentioned))
          (fun key counts => follows.grows.known key (known.held key counts)))
      have unused : key ∉ Account.mentions _ := fun mentioned => by
        have isKnown := filled.mentions mentioned
        have fresh := Chain.operate_fresh operated
        rw [show ({ state.moved chain with pending := [] } : State).chain = chain from rfl,
          fresh] at isKnown
        cases isKnown
      have accepted := @Account.Step.accepted ok _ _ _ key rfl rfl rfl rfl unused rfl rfl
      have lost : state.chain.lost agreement = true → last.lost agreement = true := fun gone =>
        (Chain.operate_grows operated).lost agreement (follows.grows.lost agreement gone)
      have done := @Account.blockDone ok
        { ({ state.moved chain with pending := [] } : State).filling sidecar.address agreement
            (state.chain.lost agreement) .clear
            (some
              { counter := some key
                served := process.agent.pool.served live.provider
                total := process.agent.pool.servedTotal live.provider }) with
          rows := chain.counters sidecar.address agreement ++
            [{ key := key
               createdAt := chain.head
               record := freshCounter agreement (process.agent.acceptedRecord offer port)
                 process.agent.config.weiPerCall discovery.head }]
          mining := false } (last.lost agreement) lost
      have counter : createdBy (.ok (BatchResult.of last.head (batch.zip [key]))) = some key := by
        rw [← isBatch]
        rfl
      refine sealing.trans (.head accepted (done.trans ?_))
      have rows' : chain.counters sidecar.address agreement ++
            [{ key := key
               createdAt := chain.head
               record := freshCounter agreement (process.agent.acceptedRecord offer port)
                 process.agent.config.weiPerCall discovery.head }] =
          last.counters sidecar.address agreement := Option.some.inj rows
      rw [rows', counter]
      simp only [filling, accountWith, State.moved, head]
      exact .refl

end State

end CommunityLb
