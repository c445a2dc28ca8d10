import CommunityLb.Marketplace.Ground
import CommunityLb.Marketplace.Memory

/-!
# What holds of the chain whatever lands

A law of the chain holds between blocks, and in a weaker form while the operations of one block land.
It holds along every run in which the writes in flight, and those the LB makes, are of a kind that
keeps it.
-/

namespace CommunityLb

namespace Chain

/-- A property of the chain that operations of a kind keep: what holds between blocks opens the next
one, and is there again when its operations have landed. -/
structure Law (me : Address) (fits : Operation → Prop) (holds landing : Chain → Prop) : Prop where
  opens : ∀ chain count, holds chain → landing (chain.advance (count + 1))
  operates : ∀ chain next fresh operation, landing chain → fits operation →
    chain.operate me fresh operation = some next → landing next
  closes : ∀ chain, landing chain → holds chain
  posts : ∀ chain row, holds chain → chain.entities.get? row.key = none → row.creator ≠ me →
    row.createdAt = chain.head → holds { chain with entities := chain.entities.insert row }
  withdraws : ∀ chain key row, holds chain → chain.entities.get? key = some row →
    row.creator ≠ me → holds { chain with gone := key :: chain.gone }

variable {me : Address} {fits : Operation → Prop} {holds landing : Chain → Prop}
variable {chain next : Chain}

theorem Law.execute (law : Law me fits holds landing) {batch : List (Operation × EntityKey)}
    (before : landing chain) (fit : ∀ pair ∈ batch, fits pair.1)
    (executed : chain.execute me batch = some next) : landing next := by
  induction batch generalizing chain with
  | nil =>
      cases executed
      exact before
  | cons pair batch ih =>
      obtain ⟨middle, operated, rest⟩ := Option.bind_eq_some_iff.mp executed
      have after := law.operates chain middle pair.2 pair.1 before (fit pair List.mem_cons_self)
        operated
      exact ih after (fun other member => fit other (List.mem_cons_of_mem _ member)) rest

theorem Law.land (law : Law me fits holds landing) {batch : Batch} {keys : List EntityKey}
    (before : landing chain) (fit : ∀ operation ∈ batch, fits operation)
    (landed : chain.land me batch keys = some next) : landing next :=
  law.execute before (fun pair member => fit pair.1 (List.of_mem_zip member).1)
    (land_eq_some.mp landed).2

theorem Law.settle (law : Law me fits holds landing) {pending rest : List Batch}
    {fates : List (Option (List EntityKey))} (before : landing chain)
    (fit : ∀ batch ∈ pending, ∀ operation ∈ batch, fits operation)
    (settled : chain.settle me pending fates = some (next, rest)) : landing next := by
  induction fates generalizing chain pending with
  | nil =>
      obtain ⟨rfl, _⟩ := settle_nil.mp settled
      exact before
  | cons fate fates ih =>
      obtain ⟨batch, others, rfl, remaining⟩ := settle_cons.mp settled
      have later : ∀ batch ∈ others, ∀ operation ∈ batch, fits operation :=
        fun other member => fit other (List.mem_cons_of_mem _ member)
      cases fate with
      | none => exact ih before later remaining
      | some keys =>
          obtain ⟨middle, landed, remaining⟩ := remaining
          exact ih (law.land before (fit batch List.mem_cons_self) landed) later remaining

end Chain

/-- Whatever is in flight, and whatever the process sends, is of a kind. -/
structure State.Sends (fits : Operation → Prop) (state : State) : Prop where
  pending : ∀ batch ∈ state.pending, ∀ operation ∈ batch, fits operation
  process : ∀ process ∈ state.process, ∀ batch ∈ process.sending, ∀ operation ∈ batch,
    fits operation
  extend : ∀ key seconds, fits (.extend key seconds)

/-- Whatever is in flight, and whatever the task and the admissions of the process send, is of a
kind. -/
structure State.SendsOnly (fits : Operation → Prop) (state : State) : Prop where
  pending : ∀ batch ∈ state.pending, ∀ operation ∈ batch, fits operation
  process : ∀ process ∈ state.process, ∀ batch ∈ process.sending, ∀ operation ∈ batch,
    fits operation
  admissions : ∀ process ∈ state.process, ∀ task ∈ process.agent.admissions,
    fits (.extend task.agreement process.agent.config.agreementLife.asSecs)

theorem State.Sends.only {fits : Operation → Prop} {state : State} (sends : state.Sends fits) :
    state.SendsOnly fits :=
  ⟨sends.pending, sends.process, fun _ _ _ _ => sends.extend _ _⟩

namespace State

variable {urls : Urls} {sidecar : Identity} {state next : State}
variable {fits : Operation → Prop} {holds landing : Chain → Prop}

/-- A batch of a kind that is sent keeps a law of that kind. -/
theorem send_law (law : Chain.Law sidecar.address fits holds landing) {batch : Batch}
    {answer : WriteAnswer} {result : Except WriteError BatchResult} (before : holds state.chain)
    (pending : ∀ batch ∈ state.pending, ∀ operation ∈ batch, fits operation)
    (fit : ∀ operation ∈ batch, fits operation)
    (sent : state.send sidecar batch answer = some (next, result)) :
    holds next.chain ∧ ∀ batch ∈ next.pending, ∀ operation ∈ batch, fits operation := by
  cases answer with
  | landed fates keys =>
      simp only [State.send, Option.bind_eq_bind, Option.bind_eq_some_iff] at sent
      obtain ⟨⟨chain, rest⟩, settled, sent⟩ := sent
      split at sent
      · cases sent
      · obtain ⟨landed, lands, sent⟩ := Option.bind_eq_some_iff.mp sent
        cases sent
        have opened := law.settle (law.opens state.chain 0 before) pending settled
        refine ⟨law.closes _ (law.land opened fit lands), ?_⟩
        intro batch member
        cases member
  | failed error lost =>
      simp only [State.send] at sent
      split at sent
      · split at sent
        · cases sent
          refine ⟨before, fun other member => ?_⟩
          rcases List.mem_append.mp member with old | new
          · exact pending other old
          · obtain rfl := List.mem_singleton.mp new
            exact fit
        · cases sent
      · cases sent
        exact ⟨before, pending⟩

/-- A law of the chain holds after every step of a world that sends its kind alone. -/
theorem step_law_only (law : Chain.Law sidecar.address fits holds landing) {event : Event}
    (sends : state.SendsOnly fits) (before : holds state.chain)
    (stepped : state.step urls sidecar event = some next) :
    holds next.chain ∧ ∀ batch ∈ next.pending, ∀ operation ∈ batch, fits operation := by
  have same : next.chain = state.chain → next.pending = state.pending →
      holds next.chain ∧ ∀ batch ∈ next.pending, ∀ operation ∈ batch, fits operation := by
    intro chain pending
    rw [chain, pending]
    exact ⟨before, sends.pending⟩
  have ofProcess : ∀ {change : Process → Option Process},
      state.ofProcess change = some next →
      holds next.chain ∧ ∀ batch ∈ next.pending, ∀ operation ∈ batch, fits operation := by
    intro change ran
    obtain ⟨_, _, rfl⟩ := Option.map_eq_some_iff.mp ran
    exact same rfl rfl
  cases event with
  | sealBlocks count fates =>
      obtain ⟨⟨chain, rest⟩, settled, rfl⟩ := Option.map_eq_some_iff.mp stepped
      refine ⟨law.closes _ (law.settle (law.opens _ count before) sends.pending settled), ?_⟩
      intro batch member
      exact sends.pending batch ((Chain.settle_suffix settled).subset member)
  | catchUp count =>
      cases stepped
      exact same rfl rfl
  | post offer =>
      simp only [State.step] at stepped
      split at stepped
      · next fresh =>
          cases stepped
          exact ⟨law.posts _ _ before (by simpa using fresh.1) fresh.2 rfl, sends.pending⟩
      · cases stepped
  | withdraw offer =>
      simp only [State.step] at stepped
      split at stepped
      · next theirs =>
          cases stepped
          obtain ⟨row, found, differs⟩ := (Option.any_eq_true _ _).mp theirs
          exact ⟨law.withdraws _ _ row before found (of_decide_eq_true differs), sends.pending⟩
      · cases stepped
  | launch config =>
      simp only [State.step] at stepped
      split at stepped
      · cases stepped
        exact same rfl rfl
      · cases stepped
  | crash =>
      obtain ⟨_, _, rfl⟩ := Option.map_eq_some_iff.mp stepped
      exact same rfl rfl
  | serve handle =>
      simp only [State.step, State.serve, Option.bind_eq_bind, Option.bind_eq_some_iff] at stepped
      obtain ⟨_, _, _, _, stepped⟩ := stepped
      cases stepped
      exact same rfl rfl
  | admission index answer =>
      simp only [State.step, State.admissionSent, Option.bind_eq_bind,
        Option.bind_eq_some_iff] at stepped
      obtain ⟨process, isThere, task, runs, stepped⟩ := stepped
      split at stepped
      · cases stepped
      · obtain ⟨⟨middle, result⟩, sent, stepped⟩ := Option.bind_eq_some_iff.mp stepped
        cases stepped
        have extends_ : ∀ operation ∈ [Operation.extend task.agreement
            process.agent.config.agreementLife.asSecs], fits operation := by
          intro operation member
          obtain rfl := List.mem_singleton.mp member
          exact sends.admissions process isThere task (List.mem_of_getElem? runs)
        have sound := send_law law before sends.pending extends_ sent
        exact sound
  | read shown order =>
      simp only [State.step, State.readAnswered, Option.bind_eq_bind,
        Option.bind_eq_some_iff] at stepped
      obtain ⟨_, _, _, _, _, _, stepped⟩ := stepped
      cases stepped
      exact same rfl rfl
  | write answer =>
      simp only [State.step, State.writeAnswered, Option.bind_eq_bind,
        Option.bind_eq_some_iff] at stepped
      obtain ⟨process, isThere, batch, sending, ⟨middle, result⟩, sent, stepped⟩ := stepped
      cases stepped
      have sound := send_law law before sends.pending
        (sends.process process isThere batch sending) sent
      exact sound
  | gate handle gate value => exact ofProcess stepped
  | admitted agreement => exact ofProcess stepped
  | learn index => exact ofProcess stepped
  | endAdmission index => exact ofProcess stepped
  | tick tick => exact ofProcess stepped
  | unread => exact ofProcess stepped
  | countServed order => exact ofProcess stepped
  | portLooked isBound => exact ofProcess stepped

/-- A law of the chain holds after every step of a world that sends its kind. -/
theorem step_law (law : Chain.Law sidecar.address fits holds landing) {event : Event}
    (sends : state.Sends fits) (before : holds state.chain)
    (stepped : state.step urls sidecar event = some next) :
    holds next.chain ∧ ∀ batch ∈ next.pending, ∀ operation ∈ batch, fits operation :=
  step_law_only law sends.only before stepped

end State

/-! ## What is queued -/

/-- An operation on a record that is already there, or one that opens a counter record. -/
def Operation.Routine : Operation → Prop
  | .create (.counter _) _ | .patch _ (.counter _ _) | .delete _ | .extend _ _ => True
  | _ => False

/-- An operation on a counter record. -/
def Operation.Quiet : Operation → Prop
  | .create (.counter _) _ | .patch _ (.counter _ _) | .delete _ => True
  | _ => False

theorem Operation.Quiet.routine {operation : Operation} (quiet : operation.Quiet) :
    operation.Routine := by
  unfold Operation.Quiet at quiet
  split at quiet
  · trivial
  · trivial
  · trivial
  · cases quiet

/-- The batches a task has still to send one after the other. -/
def Task.queue : Task → List Batch
  | .closeEnded _ _ queue | .flushCounts _ _ _ queue _ | .flushSuccessors _ queue
  | .refreshWrites queue => queue
  | _ => []

/-- What a task queues is routine. -/
def Task.Routine (task : Task) : Prop :=
  ∀ batch ∈ task.queue, ∀ operation ∈ batch, operation.Routine

/-- Every operation a task queues is of a kind. -/
def Task.Queues (fits : Operation → Prop) (task : Task) : Prop :=
  ∀ batch ∈ task.queue, ∀ operation ∈ batch, fits operation

section Queues

variable {fits : Operation → Prop}

theorem Task.queues_of_nil {task : Task} (nothing : task.queue = []) : task.Queues fits := by
  intro batch member
  rw [nothing] at member
  cases member

theorem Task.routine_of_nil {task : Task} (nothing : task.queue = []) : task.Routine :=
  queues_of_nil nothing

@[simp]
theorem Task.queues_afterFlush (kind : Flush) : (Task.afterFlush kind).Queues fits :=
  queues_of_nil (by cases kind <;> rfl)

@[simp]
theorem Task.queues_afterAgreementsError (work : Work) (error : ReconcileError) :
    (Task.afterAgreementsError work error).Queues fits :=
  queues_of_nil (by rcases work with _ | _ | _ | _ <;> cases error <;> rfl)

@[simp]
theorem Task.queues_afterCountersError (work : Work) (head : Nat) (error : ReconcileError) :
    (Task.afterCountersError work head error).Queues fits :=
  queues_of_nil (by rcases work with _ | _ | _ | _ <;> cases error <;> rfl)

@[simp]
theorem Task.queues_afterCounters (work : Work) (head : Nat) (counters : Counters) :
    (Task.afterCounters work head counters).Queues fits :=
  queues_of_nil (by cases work <;> rfl)

theorem Task.queues_afterEnded {work : Work} {head : Nat} {queue : List Batch}
    (queues : ∀ batch ∈ queue, ∀ operation ∈ batch, fits operation) :
    (Task.afterEnded work head queue).Queues fits := by
  rw [Task.afterEnded]
  split
  · exact queues_of_nil rfl
  · exact queues

theorem Task.queues_afterSuccessors {kind : Flush} {queue : List Batch}
    (queues : ∀ batch ∈ queue, ∀ operation ∈ batch, fits operation) :
    (Task.afterSuccessors kind queue).Queues fits := by
  rw [Task.afterSuccessors]
  split
  · exact queues_afterFlush kind
  · exact queues

theorem Task.queues_afterRefresh {queue : List Batch}
    (queues : ∀ batch ∈ queue, ∀ operation ∈ batch, fits operation) :
    (Task.afterRefresh queue).Queues fits := by
  rw [Task.afterRefresh]
  split
  · exact queues_of_nil rfl
  · exact queues

end Queues

namespace Agent

theorem finalWrite_quiet (head : Nat) (ended : Ended) : (finalWrite head ended).Quiet := by
  rw [finalWrite]
  split <;> trivial

theorem strayWrite_quiet (head : Nat) (stray : Stored CounterRecord) :
    (strayWrite head stray).Quiet := by
  rw [strayWrite]
  split <;> trivial

theorem countsOf_quiet {agent : Agent} {counters : Counters} {head : Nat} {flush : Flush}
    {live : Live} {operation : Operation}
    (owes : (agent.countsOf counters head flush live).1 = some operation) : operation.Quiet := by
  simp only [countsOf] at owes
  split at owes
  · split at owes
    · cases owes
      trivial
    · split at owes
      · cases owes
      · cases owes
        trivial
  · split at owes
    · cases owes
    · cases owes
      trivial

theorem countsBatch_quiet (agent : Agent) (counters : Counters) (head : Nat) (flush : Flush) :
    ∀ operation ∈ (agent.countsBatch counters head flush).1, operation.Quiet := by
  simp only [countsBatch, List.mem_append, List.mem_filterMap, List.mem_map]
  rintro operation (leftover | ⟨_, ⟨live, _, rfl⟩, owes⟩)
  · split at leftover
    · rcases List.mem_append.mp leftover with younger | stray
      · obtain ⟨key, _, rfl⟩ := List.mem_map.mp younger
        trivial
      · obtain ⟨record, _, rfl⟩ := List.mem_map.mp stray
        exact strayWrite_quiet head record
    · cases leftover
  · exact countsOf_quiet owes

theorem endPeriods_quiet (agent : Agent) (closing : List Closing) (patched : List EntityKey)
    (head : Nat) : ∀ operation ∈ (agent.endPeriods closing patched head).2, operation.Quiet := by
  rw [endPeriods]
  generalize closing.filter (·.counter ∈ patched) = ended
  suffices ∀ (start : Agent × Batch), (∀ operation ∈ start.2, operation.Quiet) →
      ∀ operation ∈ (ended.foldl (endPeriod head) start).2, operation.Quiet from
    this (agent, []) (by simp)
  induction ended with
  | nil => exact fun _ quiet => quiet
  | cons close ended ih =>
      intro start quiet
      rw [List.foldl_cons, endPeriod]
      split
      · exact ih start quiet
      · refine ih _ fun operation member => ?_
        rcases List.mem_append.mp member with earlier | isNew
        · exact quiet operation earlier
        · obtain rfl := List.mem_singleton.mp isNew
          trivial

/-- A refresh extends the listing and agreements that memory has. -/
theorem mem_refreshBatch {agent : Agent} {head : Option Nat} {operation : Operation}
    (member : operation ∈ agent.refreshBatch head) :
    operation = .extend agent.listingKey agent.config.listingLife.asSecs ∨
      ∃ live ∈ agent.agreements.values,
        operation = .extend live.key agent.config.agreementLife.asSecs := by
  rcases List.mem_append.mp member with listing | extends_
  · split at listing
    · cases listing
    · exact .inl (List.mem_singleton.mp listing)
  · obtain ⟨live, isLive, extended⟩ := List.mem_filterMap.mp extends_
    refine .inr ⟨live, isLive, ?_⟩
    simp only [refreshOf] at extended
    split at extended
    · cases extended
    · split at extended
      · cases extended
      · split at extended <;> cases extended
        rfl

end Agent

namespace Process

variable {before after : Process} {sidecar : Identity} {state : State} {event : Event}
variable {fits : Operation → Prop}

/-- What a refresh extends is of a kind. -/
def Refreshes (fits : Operation → Prop) (process : Process) : Prop :=
  process.task = .refreshHead →
    fits (.extend process.agent.listingKey process.agent.config.listingLife.asSecs) ∧
      ∀ live ∈ process.agent.agreements.values,
        fits (.extend live.key process.agent.config.agreementLife.asSecs)

theorem Refreshes.batch {process : Process} (refreshes : process.Refreshes fits)
    (task : process.task = .refreshHead) (head : Option Nat) :
    ∀ operation ∈ process.agent.refreshBatch head, fits operation := by
  intro operation member
  obtain ⟨listing, agreements⟩ := refreshes task
  rcases Agent.mem_refreshBatch member with rfl | ⟨live, isLive, rfl⟩
  · exact listing
  · exact agreements live isLive

theorem Refreshes.reorder {process : Process} (refreshes : process.Refreshes fits)
    (order : List EntityKey) :
    Refreshes fits { process with
      agent := { process.agent with agreements := process.agent.agreements.reorder order } } := by
  intro task
  obtain ⟨listing, agreements⟩ := refreshes task
  exact ⟨listing, fun live isLive => agreements live (Keyed.mem_reorder.mp isLive)⟩

theorem afterOffer_queues (process : Process) (discovery : Discovery) :
    (process.afterOffer discovery).task.Queues fits := by
  rw [afterOffer]
  split <;> exact Task.queues_of_nil rfl

section Queues

variable (quiet : ∀ operation : Operation, operation.Quiet → fits operation)

include quiet

theorem afterCounts_queues (process : Process) {kind : Flush} {head : Nat}
    {closing : List Closing} {queue : List Batch} {patched : List EntityKey}
    (queues : ∀ batch ∈ queue, ∀ operation ∈ batch, fits operation) :
    (process.afterCounts kind head closing queue patched).task.Queues fits := by
  simp only [afterCounts]
  split
  · refine Task.queues_afterSuccessors (asQueue_all fun operation member => ?_)
    exact quiet _ (process.agent.endPeriods_quiet closing patched head operation member)
  · exact queues

theorem read_queues {process : Process} {order : List EntityKey} {reply : Reply}
    (refreshes : process.Refreshes fits) (queues : process.task.Queues fits) : (process.read order reply).task.Queues fits := by
  unfold read
  split
  case h_3 =>
    split
    · exact Task.queues_afterAgreementsError _ _
    · exact Task.queues_of_nil rfl
  case h_4 =>
    refine Task.queues_afterEnded (asQueue_all fun operation member => ?_)
    obtain ⟨ended, _, rfl⟩ := List.mem_map.mp member
    exact quiet _ (Agent.finalWrite_quiet _ ended)
  case h_7 =>
    split
    · exact Task.queues_afterCountersError _ _ _
    · exact Task.queues_of_nil rfl
  case h_8 =>
    simp only [openCountersRead]
    split
    · exact Task.queues_afterCounters _ _ _
    · exact Task.queues_of_nil rfl
  case h_9 =>
    split
    · exact Task.queues_afterCounters _ _ _
    · exact Task.queues_of_nil rfl
  case h_10 => exact process.afterOffer_queues _
  case h_12 task => exact Task.queues_afterRefresh (asQueue_all (refreshes.batch task _))
  case h_14 =>
    rw [ensureListing]
    split
    · exact Task.queues_of_nil rfl
    · split <;> exact Task.queues_of_nil rfl
  case h_15 => exact queues
  all_goals exact Task.queues_of_nil rfl

omit quiet in
theorem unread_queues {process : Process} (refreshes : process.Refreshes fits)
    (queues : process.task.Queues fits) : process.unread.task.Queues fits := by
  unfold unread
  split
  case h_12 task => exact Task.queues_afterRefresh (asQueue_all (refreshes.batch task none))
  all_goals first | exact queues | exact Task.queues_of_nil rfl | simp

theorem written_queues {process : Process} {result : Except WriteError BatchResult}
    (queues : process.task.Queues fits) : (process.written result).task.Queues fits := by
  unfold written
  split
  case h_1 task =>
    rw [task] at queues
    exact Task.queues_afterEnded (requeue_all result queues)
  case h_2 task =>
    rw [task] at queues
    split <;> exact afterCounts_queues quiet process (requeue_all _ queues)
  case h_3 task =>
    rw [task] at queues
    exact Task.queues_afterSuccessors (requeue_all result queues)
  case h_4 task =>
    rw [task] at queues
    exact Task.queues_afterRefresh (requeue_all result queues)
  case h_5 =>
    unfold agreementWritten
    split
    · split
      · exact Task.queues_of_nil rfl
      · exact process.afterOffer_queues _
    · exact process.afterOffer_queues _
    · exact process.afterOffer_queues _
  case h_6 =>
    simp only [counterWritten]
    exact afterOffer_queues _ _
  case h_7 =>
    split
    · split <;> exact Task.queues_of_nil rfl
    · exact Task.queues_of_nil rfl
  case h_8 => split <;> exact Task.queues_of_nil rfl
  case h_9 => exact queues

/-- A process queues nothing but operations of a kind as it goes on, where that kind has all on
counter records and what it refreshes. -/
theorem Next.queues (goes : before.Next sidecar state after event)
    (refreshes : before.Refreshes fits) (queues : before.task.Queues fits) : after.task.Queues fits := by
  cases goes with
  | stays task => exact task ▸ queues
  | @tick tick task =>
      rw [task]
      cases tick <;> exact Task.queues_of_nil rfl
  | read reads replied now => exact now ▸ read_queues quiet (refreshes.reorder _) queues
  | unread now => exact now ▸ unread_queues refreshes queues
  | counted now =>
      simp only [countServed] at now
      split at now
      · cases now
        refine afterCounts_queues quiet _ (asQueue_all fun operation member => ?_)
        exact quiet _ (Agent.countsBatch_quiet _ _ _ _ operation member)
      · cases now
  | looked now =>
      rw [portLooked] at now
      split at now
      · cases now
        split
        · simp only
          split <;> exact Task.queues_of_nil rfl
        · exact Task.queues_of_nil rfl
      · cases now
  | written sends answered now => exact now ▸ written_queues quiet queues

end Queues

/-- A process queues nothing but routine operations as it goes on. -/
theorem Next.routine (goes : before.Next sidecar state after event)
    (routine : before.task.Routine) : after.task.Routine :=
  goes.queues (fun _ => Operation.Quiet.routine)
    (fun _ => ⟨trivial, fun _ _ => trivial⟩) routine

end Process

end CommunityLb
