import CommunityLb.Marketplace.Answers

/-!
# The world refines every agreement's account

Whatever the LB, its clients and the chain do, the account of an agreement takes steps of its own,
or none.  What a step may be asked to keep a condition at is told by the event.
-/

namespace CommunityLb

/-- The blocks that an event seals. -/
def Event.sealed : Event → Nat
  | .sealBlocks count _ => count + 1
  | .admission _ (.landed _ _) | .write (.landed _ _) => 1
  | _ => 0

/-- The labels of the steps that an event is for an agreement's account, and the accounts they are
taken in. -/
inductive State.Emits (me : Address) (agreement : EntityKey) (state : State) :
    Event → Label → Account → Prop
  | expire {event : Event} {account : Account}
      (goes : (state.chain.advance event.sealed).counters me agreement ≠
        state.chain.counters me agreement) : Emits me agreement state event .expire account
  | page {process : Process} {work : Work} {head : Nat} {shown order : List EntityKey}
      {rows : List (Stored Record)} (runs : state.process = some process)
      (task : process.task = .countersPage work head)
      (page : state.view.page (process.agent.countersQuery head) shown = some rows) :
      Emits me agreement state (.read shown order) (.page work.flushing (shownOf agreement rows))
        (state.account me agreement)
  | lookup {process : Process} {work : Work} {head : Nat} {opened : CountersByAgreement}
      {duplicates : List EntityKey} {key : EntityKey} {missing : List (EntityKey × EntityKey)}
      {closed : List (EntityKey × Nat)} {shown order : List EntityKey}
      (runs : state.process = some process)
      (task : process.task =
        .closedCount work head opened duplicates ((agreement, key) :: missing) closed) :
      Emits me agreement state (.read shown order) (.lookup key) (state.account me agreement)
  | adopt {process : Process} {work : Work} {head : Nat} {shown order : List EntityKey}
      {rows : List (Stored Record)} {row : Stored Record} (runs : state.process = some process)
      (task : process.task = .agreementsPage work head)
      (page : state.view.page (process.agent.agreementsQuery head) shown = some rows)
      (inRows : row ∈ rows) (isKey : row.key = agreement)
      (absent : state.held agreement = none) :
      Emits me agreement state (.read shown order) .adopt (state.account me agreement)
  | accept {process : Process} {discovery : Discovery} {offer : Stored Offer} {port : Nat}
      {fates : List (Option (List EntityKey))} {account : Account}
      (runs : state.process = some process)
      (task : process.task = .acceptAgreement discovery offer port) :
      Emits me agreement state (.write (.landed fates [agreement])) .accept account
  | pastLife {process : Process} {work : Work} {head : Nat} {shown order : List EntityKey}
      {rows : List (Stored Record)} (runs : state.process = some process)
      (task : process.task = .agreementsPage work head)
      (page : state.view.page (process.agent.agreementsQuery head) shown = some rows)
      (gone : ∀ row ∈ rows, row.key = agreement → row.record.asAgreement = none) :
      Emits me agreement state (.read shown order) .pastLife (state.account me agreement)
  | serve {process : Process} {handle : Handle} {provider : Provider} {address : Address}
      {port : Nat} (runs : state.process = some process)
      (entry : process.agent.pool.entryAt handle = some provider)
      (source : provider.source = .marketplace address agreement port) :
      Emits me agreement state (.serve handle) .serve (state.account me agreement)
  | giveUp (atHand : (state.desk me agreement).reading = true) :
      Emits me agreement state .unread .giveUp (state.account me agreement)
  | fail {process : Process} {batch : Batch} {error : WriteError} {lost : Bool}
      {account : Account} (runs : state.process = some process)
      (sends : process.sending = some batch)
      (whole : ¬ (error = .tooLarge ∧ batch.halves.isSome = true)) :
      Emits me agreement state (.write (.failed error lost)) (.fail lost) account
  | quit : Emits me agreement state .crash .quit (state.account me agreement)

namespace State

variable {urls : Urls} {sidecar : Identity} {agreement : EntityKey} {state next middle : State}
  {process : Process} {ok : Label → Account → Prop}

/-! ## Writes -/

/-- A write is answered. -/
theorem Grounded.writes (grounded : state.Grounded sidecar.address)
    (runs : state.process = some process) {batch : Batch} (sends : process.sending = some batch)
    {answer : WriteAnswer} {result : Except WriteError BatchResult}
    (sent : state.send sidecar batch answer = some (middle, result))
    (permits : state.Permits sidecar.address agreement ok batch answer)
    (accepts : ∀ discovery offer port, process.task = .acceptAgreement discovery offer port →
      ∀ fates, answer = .landed fates [agreement] → ∀ account, ok .accept account) :
    Relation.ReflTransGen (Account.Step ok) (state.accountOf sidecar.address agreement process)
      (middle.accountOf sidecar.address agreement (process.written result)) := by
  have now := grounded.process process runs
  have isBatch := sends
  -- A task whose desk is a queue and nothing else.
  have queued : ∀ {rest : List Batch} {task : Task}, SaneQueue sidecar.address state.chain
      (batch :: rest) → (∀ chain, process.task.desk sidecar.address chain agreement process.agent =
        .writing (writesOf sidecar.address chain agreement (batch :: rest)) none) →
      (∀ chain, task.desk sidecar.address chain agreement process.agent =
        .writing (writesOf sidecar.address chain agreement (requeue batch rest result)) none) →
      process.written result = { process with task := task } →
      Relation.ReflTransGen (Account.Step ok) (state.accountOf sidecar.address agreement process)
        (middle.accountOf sidecar.address agreement (process.written result)) := by
    intro rest task sane desk after written
    rw [written]
    exact grounded.queue_written runs sent permits sane desk after
  -- A task of the listing's.
  have aside : ∀ after : Process, process.written result = after →
      process.task.desk sidecar.address state.chain agreement process.agent = .clear →
      batch.halves = none →
      batch.filterMap (Operation.writeFor sidecar.address state.chain agreement) = [] →
      after.task.desk sidecar.address middle.chain agreement after.agent = .clear →
      after.agent.held agreement = process.agent.held agreement →
      Relation.ReflTransGen (Account.Step ok) (state.accountOf sidecar.address agreement process)
        (middle.accountOf sidecar.address agreement (process.written result)) := by
    rintro after rfl desk whole nothing clear same
    have done := grounded.aside_written runs sends sent permits
      desk whole nothing
    simp only [accountOf, clear, same]
    exact done
  cases task : process.task with
  | closeEnded work head queue =>
      cases queue with
      | nil => simp [Process.sending, task] at isBatch
      | cons first rest =>
          obtain rfl : first = batch := by simpa [Process.sending, task] using isBatch
          have sane := now.task
          rw [task] at sane
          exact queued sane (fun chain => by rw [task]; rfl)
            (fun chain => Task.desk_afterEnded work head _) (by simp only [Process.written, task])
  | flushSuccessors kind queue =>
      cases queue with
      | nil => simp [Process.sending, task] at isBatch
      | cons first rest =>
          obtain rfl : first = batch := by simpa [Process.sending, task] using isBatch
          have sane := now.task
          rw [task] at sane
          exact queued sane (fun chain => by rw [task]; rfl)
            (fun chain => Task.desk_afterSuccessors kind _) (by simp only [Process.written, task])
  | refreshWrites queue =>
      cases queue with
      | nil => simp [Process.sending, task] at isBatch
      | cons first rest =>
          obtain rfl : first = batch := by simpa [Process.sending, task] using isBatch
          have sane := now.task
          rw [task] at sane
          exact queued sane (fun chain => by rw [task]; rfl)
            (fun chain => Task.desk_afterRefresh _) (by simp only [Process.written, task])
  | flushCounts kind head closing queue patched =>
      cases queue with
      | nil => simp [Process.sending, task] at isBatch
      | cons first rest =>
          obtain rfl : first = batch := by simpa [Process.sending, task] using isBatch
          exact grounded.counts_written runs sent permits task
  | acceptAgreement discovery offer port =>
      have written : process.written result =
          process.agreementWritten discovery offer port result := by
        simp only [Process.written, task]
      rw [written]
      exact grounded.agreement_written runs task sends sent permits
        (accepts discovery offer port task)
  | acceptCounter discovery offer port accepted =>
      have written : process.written result =
          process.counterWritten discovery offer port accepted result := by
        simp only [Process.written, task]
      rw [written]
      by_cases same : accepted = agreement
      · subst same
        exact grounded.counter_written runs task sends sent permits
      · exact grounded.counter_aside runs task same sends sent permits
  | createListing =>
      simp only [Process.sending, task, Option.some.injEq] at isBatch
      refine aside _ rfl (by rw [task]; rfl) (by rw [← isBatch]; rfl) (by rw [← isBatch]; rfl) ?_ ?_
      · simp only [Process.written, task]
        split
        · split <;> rfl
        · rfl
      · simp only [Process.written, task]
        split
        · split <;> rfl
        · rfl
  | patchListing key expiresAt =>
      simp only [Process.sending, task, Option.some.injEq] at isBatch
      refine aside _ rfl (by rw [task]; rfl) (by rw [← isBatch]; rfl) (by rw [← isBatch]; rfl) ?_ ?_
      · simp only [Process.written, task]
        split <;> rfl
      · simp only [Process.written, task]
        split <;> rfl
  | _ => simp [Process.sending, task] at isBatch

/-! ## Reads -/

theorem desk_of (me : Address) (agreement : EntityKey) (runs : state.process = some process) :
    state.desk me agreement = process.task.desk me state.chain agreement process.agent := by
  simp only [desk, runs]

theorem held_of (agreement : EntityKey) (runs : state.process = some process) :
    state.held agreement = process.agent.held agreement := by
  simp only [held, runs, Option.bind_some]

/-- The task goes on with nothing at hand of the agreement, and memory holds what it held. -/
theorem accountOf_still {before after : Process}
    (desk : before.task.desk sidecar.address state.chain agreement before.agent = .clear)
    (clear : after.task.desk sidecar.address state.chain agreement after.agent = .clear)
    (held : after.agent.held agreement = before.agent.held agreement) :
    Relation.ReflTransGen (Account.Step ok) (state.accountOf sidecar.address agreement before)
      (state.accountOf sidecar.address agreement after) := by
  rw [accountOf, accountOf, desk, clear, held]

/-- One of the records that memory misses is looked up. -/
theorem looks_up {me : Address} {flushing : Bool} {row : Option Entry}
    {duplicates : List EntityKey} {other counter : EntityKey}
    {missing : List (EntityKey × EntityKey)} {closed : List (EntityKey × Nat)}
    (distinct : (((other, counter) :: missing).map Prod.fst ++ closed.map Prod.fst).Nodup)
    {held : Option Held} {found : Option Nat}
    (isFound : found = Account.closedCount (state.chain.counters me other) counter)
    (allowed : other = agreement → ok (.lookup counter)
      (state.accountWith me agreement
        (.shown flushing row duplicates (((other, counter) :: missing).lookup agreement)
          (closed.lookup agreement)) held)) :
    Relation.ReflTransGen (Account.Step ok)
      (state.accountWith me agreement
        (.shown flushing row duplicates (((other, counter) :: missing).lookup agreement)
          (closed.lookup agreement)) held)
      (state.accountWith me agreement
        (.shown flushing row duplicates (missing.lookup agreement)
          ((closed ++ (found.map (other, ·)).toList).lookup agreement)) held) := by
  by_cases same : other = agreement
  · subst same
    rw [List.map_cons, List.cons_append, List.nodup_cons] at distinct
    obtain ⟨apart, _⟩ := distinct
    have first : ((other, counter) :: missing).lookup other = some counter := by
      simp
    have noMore : missing.lookup other = none := by
      refine Option.eq_none_iff_forall_ne_some.mpr fun key isThere => apart ?_
      exact List.mem_append_left _ (List.mem_map.mpr ⟨(other, key), mem_of_lookup isThere, rfl⟩)
    have notYet : closed.lookup other = none := by
      refine Option.eq_none_iff_forall_ne_some.mpr fun count isThere => apart ?_
      exact List.mem_append_right _
        (List.mem_map.mpr ⟨(other, count), mem_of_lookup isThere, rfl⟩)
    have now : (closed ++ (found.map (other, ·)).toList).lookup other = found := by
      rw [List.lookup_append, notYet, Option.none_or]
      cases found <;> simp
    have permitted := allowed rfl
    rw [first, notYet] at permitted ⊢
    rw [noMore, now, isFound]
    exact .single (.lookup rfl permitted)
  · have differs : (agreement == other) = false := by simpa using fun here => same here.symm
    have unread : ((found.map (other, ·)).toList).lookup agreement = none := by
      cases found <;> simp [List.lookup_cons, differs]
    rw [List.lookup_cons, differs, List.lookup_append, unread, Option.or_none]

/-- A read is answered. -/
theorem Grounded.reads (grounded : state.Grounded sidecar.address)
    (runs : state.process = some process) {shown order : List EntityKey} {reading : Reading}
    {reply : Reply} (reads : process.task.reading process.agent = some reading)
    (replied : state.reply shown reading = some reply) :
    Relation.ReflTransGen
      (Account.Step (state.Emits sidecar.address agreement (.read shown order)))
      (state.accountOf sidecar.address agreement process)
      (state.accountOf sidecar.address agreement (Process.read
        { process with
          agent := { process.agent with agreements := process.agent.agreements.reorder order } }
        order reply)) := by
  have now := grounded.process process runs
  have answered := grounded.reply now.agent.self reads replied
  have memory : ({ process with
      agent := { process.agent with agreements := process.agent.agreements.reorder order } } :
        Process).agent.Grounded sidecar.address state.chain := now.agent.reorder order
  have heldIs := held_of agreement runs
  have start : state.accountOf sidecar.address agreement process =
      state.accountOf sidecar.address agreement
        { process with
          agent := { process.agent with agreements := process.agent.agreements.reorder order } } := by
    simp only [accountOf, Agent.held_reorder]
    exact congrArg (state.accountWith sidecar.address agreement · _)
      (Task.desk_congr sidecar.address state.chain agreement process.task rfl).symm
  have here := account_of sidecar.address agreement runs
  rw [start]
  unfold Process.read
  split
  case h_1 task => exact accountOf_still (by rw [task]; rfl) rfl rfl
  case h_2 task => exact accountOf_still (by rw [task]; rfl) rfl rfl
  case h_3 task =>
    split
    · exact accountOf_still (by rw [task]; rfl) (Task.desk_afterAgreementsError _ _) rfl
    · exact accountOf_still (by rw [task]; rfl) rfl rfl
  case h_4 work head rows task =>
    have isTask : process.task = .agreementsPage work head := task
    rw [isTask] at reads
    cases reads
    obtain ⟨found, page, same⟩ := Option.map_eq_some_iff.mp replied
    cases same
    have clear : ∀ held, process.agent.held agreement = held →
        state.account sidecar.address agreement =
          state.accountWith sidecar.address agreement .clear held := by
      rintro held rfl
      rw [here, accountOf, isTask]
      rfl
    have taken : Relation.ReflTransGen
        (Account.Step (state.Emits sidecar.address agreement (.read shown order)))
        (state.accountWith sidecar.address agreement .clear _) _ :=
      reconciles_agreements memory work head answered ?_ ?_ ?_
    · refine .trans ?_ taken
      rw [accountOf, task]
      exact .refl
    · intro row member isKey unseen
      obtain ⟨inView, alive, _⟩ := Chain.page_mem page member
      have view : state.view = state.chain := by rw [State.view, unseen]; rfl
      rw [view] at inView alive
      rw [Chain.lost, ← isKey, Keyed.get?_key inView]
      simp [alive]
    · intro row member isKey absent
      rw [Agent.held_reorder] at absent
      rw [← clear none absent]
      exact .adopt runs isTask page member isKey (heldIs.trans absent)
    · intro gone held isHeld
      rw [Agent.held_reorder] at isHeld
      rw [← clear _ isHeld]
      exact .pastLife runs isTask page gone
  case h_5 task => exact accountOf_still (by rw [task]; rfl) rfl rfl
  case h_6 task => exact accountOf_still (by rw [task]; rfl) rfl rfl
  case h_7 task =>
    split
    · exact accountOf_still (by rw [task]; rfl) (Task.desk_afterCountersError _ _ _) rfl
    · exact accountOf_still (by rw [task]; rfl) rfl rfl
  case h_8 work head rows task =>
    have isTask : process.task = .countersPage work head := task
    rw [isTask] at reads
    cases reads
    obtain ⟨found, page, same⟩ := Option.map_eq_some_iff.mp replied
    cases same
    have clear : state.account sidecar.address agreement =
        state.accountWith sidecar.address agreement .clear (process.agent.held agreement) := by
      rw [here, accountOf, isTask]
      rfl
    have allowed : state.Emits sidecar.address agreement (.read shown order)
        (.page work.flushing (shownOf agreement rows)) (state.account sidecar.address agreement) :=
      .page runs isTask page
    rw [clear] at allowed
    rw [← Agent.held_reorder process.agent order] at allowed
    have taken := reads_counters memory work order page answered allowed
    refine .trans ?_ taken
    rw [accountOf, task]
    exact .refl
  case h_9 work head opened duplicates other counter missing closed rows task =>
    have isTask : process.task =
        .closedCount work head opened duplicates ((other, counter) :: missing) closed := task
    rw [isTask] at reads
    cases reads
    obtain ⟨found, page, same⟩ := Option.map_eq_some_iff.mp replied
    cases same
    have grounding := now.task
    rw [isTask] at grounding
    have lookup : LookupGrounded sidecar.address state.chain process.agent.agreements opened
        duplicates ((other, counter) :: missing) closed := grounding
    have isClosed := looked_closed now.agent.self
      (lookup.looked (other, counter) List.mem_cons_self) page
    have allowed : other = agreement → state.Emits sidecar.address agreement (.read shown order)
        (.lookup counter) (state.accountWith sidecar.address agreement
          (.shown work.flushing ((opened.get? agreement).map Entry.ofStored)
            (duplicates.filter (state.chain.owner sidecar.address · = some agreement))
            (((other, counter) :: missing).lookup agreement) (closed.lookup agreement))
          (process.agent.held agreement)) := by
      rintro rfl
      have looks : state.Emits sidecar.address other (.read shown order) (.lookup counter)
          (state.account sidecar.address other) := .lookup runs isTask
      rw [here, accountOf, isTask] at looks
      exact looks
    have looked := looks_up lookup.distinct isClosed allowed
    have apart : ((closed ++ ((closedCount rows).map (other, ·)).toList).map Prod.fst).Nodup := by
      have distinct := lookup.distinct
      rw [List.map_cons, List.cons_append, List.nodup_cons] at distinct
      obtain ⟨notThere, rest⟩ := distinct
      have unlike : other ∉ closed.map Prod.fst :=
        fun there => notThere (List.mem_append_right _ there)
      have nodup : (closed.map Prod.fst).Nodup := rest.of_append_right
      cases closedCount rows with
      | none => simpa using nodup
      | some count =>
          rw [Option.map_some, Option.toList_some, List.map_append, List.map_singleton]
          exact List.nodup_append.mpr ⟨nodup, List.nodup_singleton _, by
            rintro _ inClosed _ isOther rfl
            obtain rfl := List.mem_singleton.mp isOther
            exact unlike inClosed⟩
    rw [← start, accountOf, isTask]
    refine .trans looked ?_
    cases missing with
    | nil =>
        have done : Relation.ReflTransGen
            (Account.Step (state.Emits sidecar.address agreement (.read shown order)))
            (state.accountWith sidecar.address agreement _ _) _ :=
          reconciles memory work head opened duplicates apart
        rw [Agent.held_reorder] at done
        exact done
    | cons first rest =>
        rw [accountOf, Agent.held_reorder]
        exact .refl
  case h_10 task =>
    refine accountOf_still (by rw [task]; rfl) (desk_afterOffer _ _) ?_
    rw [held_afterOffer]
  case h_11 task => exact accountOf_still (by rw [task]; rfl) rfl rfl
  case h_12 task =>
    refine accountOf_still (by rw [task]; rfl) ?_ rfl
    rw [Task.desk_afterRefresh, writesOf_asQueue, refreshBatch_writes]
  case h_13 task => exact accountOf_still (by rw [task]; rfl) rfl rfl
  case h_14 task =>
    refine accountOf_still (by rw [task]; rfl) ?_ ?_
    · rw [Process.ensureListing]
      split
      · rfl
      · split <;> rfl
    · rw [Process.ensureListing]
      split
      · rfl
      · split <;> rfl
  case h_15 => exact .refl

end State

end CommunityLb
