import CommunityLb.Marketplace.Remaining
import CommunityLb.Marketplace.Sealing

/-!
# A flush in the world

From the timer's tick until the task waits again, a scheduled flush that is not disturbed is one
flush from its page to its last batch.  Requests are served and blocks are sealed meanwhile.
-/

namespace CommunityLb

/-! ## Meanwhile -/

/-- Memory after requests were served and its maps came in another order. -/
structure Agent.Serves (before after : Agent) : Prop where
  retains : before.Retains after
  missing : ∀ (opened : CountersByAgreement) (key : EntityKey),
    key ∈ (after.missingCounters opened).map Prod.fst ↔
      key ∈ (before.missingCounters opened).map Prod.fst

namespace Agent

variable {before middle after : Agent}

theorem Serves.refl (agent : Agent) : agent.Serves agent :=
  ⟨.refl agent, fun _ _ => Iff.rfl⟩

theorem Serves.modify (agent : Agent) (handle : Handle) (change : Provider → Provider)
    (keeps : ∀ provider, (change provider).id = provider.id) :
    agent.Serves { agent with pool := agent.pool.modify handle change } :=
  ⟨.modify agent handle change keeps, fun _ _ => Iff.rfl⟩

theorem Serves.reorder (agent : Agent) (order : List EntityKey) :
    agent.Serves { agent with agreements := agent.agreements.reorder order } :=
  ⟨.reorder agent order, fun opened key => by simp [missingCounters, Keyed.mem_reorder]⟩

theorem Retains.countersQuery (retains : before.Retains after) (head : Nat) :
    after.countersQuery head = before.countersQuery head := by
  rw [Agent.countersQuery, Agent.countersQuery, retains.identity]

end Agent

namespace Chain

theorem advance_advance (chain : Chain) (count later : Nat) :
    (chain.advance count).advance later = chain.advance (count + later) :=
  congrArg (fun head => { chain with head := head }) (Nat.add_assoc _ _ _)

/-- The open records become no more while blocks pass. -/
theorem count_advance (chain : Chain) (agent : Agent) {head : Nat} (count : Nat)
    (later : chain.head ≤ head) :
    (chain.advance count).count (agent.countersQuery head) ≤
      chain.count (agent.countersQuery chain.head) := by
  refine List.Sublist.length_le (List.monotone_filter_right _ fun row shown => ?_)
  rw [Bool.and_eq_true] at shown ⊢
  obtain ⟨isAlive, admitted⟩ := shown
  obtain ⟨lives, present⟩ := of_decide_eq_true isAlive
  refine ⟨decide_eq_true ⟨(Nat.le_add_right _ _).trans_lt lives, present⟩, ?_⟩
  simp only [Query.admits, Agent.countersQuery, Option.all_some, Option.all_none, Bool.and_true,
    Bool.and_eq_true, decide_eq_true_eq] at admitted ⊢
  exact ⟨admitted.1, later.trans_lt admitted.2⟩

end Chain

/-! ## Where a flush stands -/

/-- Where the task of an agent stands in its flush, on which chain and with what memory. -/
inductive Flushing (chain : Chain) (agent : Agent) : Chain → Agent → Task → Prop
  | starts (count : Nat) {now : Agent} (retains : agent.Retains now) :
      Flushing chain agent (chain.advance count) now (.flushHead .scheduled)
  | asks (count head : Nat) {now : Agent} (retains : agent.Retains now)
      (since : chain.head ≤ head) (earlier : head ≤ (chain.advance count).head) :
      Flushing chain agent (chain.advance count) now (.countersCount (.flush .scheduled) head)
  | shows (count head : Nat) {now : Agent} (retains : agent.Retains now)
      (since : chain.head ≤ head) (earlier : head ≤ (chain.advance count).head) :
      Flushing chain agent (chain.advance count) now (.countersPage (.flush .scheduled) head)
  | looks (count later : Nat) (read : CounterRead (chain.advance count) agent)
      (missing : List (EntityKey × EntityKey))
      (left : ∀ pair ∈ missing, pair.1 ∈ (read.base.missingCounters read.opened).map Prod.fst) :
      Flushing chain agent ((chain.advance count).advance later) read.base
        (.closedCount (.flush .scheduled) read.head read.opened read.duplicates missing read.closed)
  | counts (count later : Nat) (read : CounterRead (chain.advance count) agent) {now : Agent}
      (retains : read.matched.Retains now) :
      Flushing chain agent ((chain.advance count).advance later) now
        (.countsBatch .scheduled read.head read.counters)
  | writes (count later : Nat) (read : CounterRead (chain.advance count) agent)
      {counting now : Agent} (counted : read.matched.Retains counting)
      (retains : counting.Retains now) :
      Flushing chain agent ((chain.advance count).advance later) now
        (.flushCounts .scheduled read.head
          (counting.countsBatch read.counters read.head .scheduled).2
          [(counting.countsBatch read.counters read.head .scheduled).1] [])
  | opens (count later : Nat) (read : CounterRead (chain.advance count) agent)
      {counting answered now : Agent} {middle : Chain} {patched : List EntityKey}
      (counted : read.matched.Retains counting)
      (counts : Lands agent.identity.address (chain.advance count)
        (counting.countsBatch read.counters read.head .scheduled).1 middle patched)
      (answers : counting.Retains answered)
      (retains : (answered.endPeriods
        (counting.countsBatch read.counters read.head .scheduled).2 patched read.head).1.Retains
          now) :
      Flushing chain agent (middle.advance later) now
        (.flushSuccessors .scheduled
          [(answered.endPeriods (counting.countsBatch read.counters read.head .scheduled).2 patched
            read.head).2])
  | ends (count later : Nat) (run : FlushRun (chain.advance count) agent) {now : Agent}
      (retains : run.after.Retains now) :
      Flushing chain agent (run.next.advance later) now .idle

namespace Flushing

variable {chain here : Chain} {agent now next : Agent} {task : Task}

/-- Requests are served and blocks pass, wherever the flush stands. -/
theorem meanwhile (flushing : Flushing chain agent here now task) (serves : now.Serves next)
    (passed : Nat) : Flushing chain agent (here.advance passed) next task := by
  cases flushing with
  | starts count retains =>
      rw [Chain.advance_advance]
      exact .starts _ (retains.trans serves.retains)
  | asks count head retains since earlier =>
      rw [Chain.advance_advance]
      refine .asks _ head (retains.trans serves.retains) since (earlier.trans ?_)
      exact Nat.add_le_add_left (Nat.le_add_right _ _) _
  | shows count head retains since earlier =>
      rw [Chain.advance_advance]
      refine .shows _ head (retains.trans serves.retains) since (earlier.trans ?_)
      exact Nat.add_le_add_left (Nat.le_add_right _ _) _
  | looks count later read missing left =>
      rw [Chain.advance_advance]
      let again : CounterRead (chain.advance count) agent :=
        { read with
          base := next
          retained := read.retained.trans serves.retains
          looked := fun found member => (serves.missing _ _).mpr (read.looked found member) }
      exact .looks count _ again missing fun pair member =>
        (serves.missing _ _).mpr (left pair member)
  | counts count later read retains =>
      rw [Chain.advance_advance]
      exact .counts count _ read (retains.trans serves.retains)
  | writes count later read counted retains =>
      rw [Chain.advance_advance]
      exact .writes count _ read counted (retains.trans serves.retains)
  | opens count later read counted counts answers retains =>
      rw [Chain.advance_advance]
      exact .opens count _ read counted counts answers (retains.trans serves.retains)
  | ends count later run retains =>
      rw [Chain.advance_advance]
      exact .ends count _ run (retains.trans serves.retains)

/-- The counters are reconciled as the flush reads them. -/
theorem reconciled (count later : Nat) (read : CounterRead (chain.advance count) agent)
    {process : Process} (isBase : process.agent = read.base) :
    let next := process.reconciled (.flush .scheduled) read.head read.opened read.duplicates
      read.closed
    Flushing chain agent ((chain.advance count).advance later) next.agent next.task := by
  have isNext : process.reconciled (.flush .scheduled) read.head read.opened read.duplicates
      read.closed =
        { process with
          agent := read.matched
          task := .countsBatch .scheduled read.head read.counters } := by
    rw [Process.reconciled, isBase]
    rfl
  rw [isNext]
  exact .counts count later read (.refl _)

/-- The page is split, and what memory misses is to be looked up. -/
theorem openCountersRead (count : Nat) (read : CounterRead (chain.advance count) agent)
    (unlooked : read.closed = []) {process : Process} (isBase : process.agent = read.base) :
    let next := process.openCountersRead (.flush .scheduled) read.head read.order read.rows
    Flushing chain agent (chain.advance count) next.agent next.task := by
  simp only [Process.openCountersRead]
  split
  · have reconciled := Flushing.reconciled count 0 read isBase
    rwa [unlooked] at reconciled
  · have looks := Flushing.looks count 0 read (read.base.missingCounters read.opened)
      fun pair member => List.mem_map_of_mem member
    rw [← isBase, unlooked] at looks
    exact looks

/-- A record that memory misses was looked up. -/
theorem looked (count later : Nat) (read : CounterRead (chain.advance count) agent)
    {pair : EntityKey × EntityKey} {rest : List (EntityKey × EntityKey)}
    (left : ∀ other ∈ pair :: rest,
      other.1 ∈ (read.base.missingCounters read.opened).map Prod.fst)
    (rows : List (Stored Record)) (order : List EntityKey) (config : Config) :
    let process : Process :=
      { config := config
        agent := { read.base with agreements := read.base.agreements.reorder order }
        task := .closedCount (.flush .scheduled) read.head read.opened read.duplicates
          (pair :: rest) read.closed }
    let next := process.read order (.rows rows)
    Flushing chain agent ((chain.advance count).advance later) next.agent next.task := by
  have serves := Agent.Serves.reorder read.base order
  let again : CounterRead (chain.advance count) agent :=
    { read with
      base := { read.base with agreements := read.base.agreements.reorder order }
      retained := read.retained.trans serves.retains
      closed := read.closed ++ ((closedCount rows).map (pair.1, ·)).toList
      looked := by
        intro found member
        refine (serves.missing _ _).mpr ?_
        rcases List.mem_append.mp member with before | isNew
        · exact read.looked found before
        · obtain ⟨_, _, rfl⟩ := Option.map_eq_some_iff.mp (Option.mem_toList.mp isNew)
          exact left pair List.mem_cons_self }
  cases rest with
  | nil => exact Flushing.reconciled count later again rfl
  | cons second rest =>
      exact .looks count later again _ fun other member =>
        (serves.missing _ _).mpr (left other (List.mem_cons_of_mem _ member))

/-- The counts are written, and the periods that are over end. -/
theorem counted (count : Nat) (read : CounterRead (chain.advance count) agent) {counting : Agent}
    {middle : Chain} {patched : List EntityKey} (counted : read.matched.Retains counting)
    (counts : Lands agent.identity.address (chain.advance count)
      (counting.countsBatch read.counters read.head .scheduled).1 middle patched)
    {process : Process} (answers : counting.Retains process.agent) :
    let next := process.afterCounts .scheduled read.head
      (counting.countsBatch read.counters read.head .scheduled).2 [] patched
    Flushing chain agent middle next.agent next.task := by
  rw [Process.afterCounts, if_pos rfl]
  by_cases nothing : (process.agent.endPeriods
      (counting.countsBatch read.counters read.head .scheduled).2 patched read.head).2 = []
  · have nowhere : Lands agent.identity.address middle
        (process.agent.endPeriods (counting.countsBatch read.counters read.head .scheduled).2
          patched read.head).2 middle [] := by
      rw [nothing]
      exact ⟨0, [], rfl, rfl⟩
    let run : FlushRun (chain.advance count) agent :=
      { read with
        counting := counting
        counted := counted
        middle := middle
        patched := patched
        counts := counts
        answered := process.agent
        answers := answers
        next := middle
        named := []
        successors := nowhere }
    have isTask : Task.afterSuccessors .scheduled (asQueue (process.agent.endPeriods
        (counting.countsBatch read.counters read.head .scheduled).2 patched read.head).2) =
          .idle := by
      rw [nothing]
      rfl
    simp only [isTask]
    exact .ends count 0 run (.refl _)
  · have isTask : Task.afterSuccessors .scheduled (asQueue (process.agent.endPeriods
        (counting.countsBatch read.counters read.head .scheduled).2 patched read.head).2) =
          .flushSuccessors .scheduled [(process.agent.endPeriods
            (counting.countsBatch read.counters read.head .scheduled).2 patched read.head).2] := by
      rw [asQueue, if_neg nothing]
      rfl
    simp only [isTask]
    exact .opens count 0 read counted counts answers (.refl _)

/-- The first batch is built; with nothing in it, the flush goes on at once. -/
theorem counts_read (count later : Nat) (read : CounterRead (chain.advance count) agent)
    {process : Process} (retains : read.matched.Retains process.agent) :
    let next := process.afterCounts .scheduled read.head
      (process.agent.countsBatch read.counters read.head .scheduled).2
      (asQueue (process.agent.countsBatch read.counters read.head .scheduled).1) []
    Flushing chain agent ((chain.advance count).advance later) next.agent next.task := by
  by_cases nothing : (process.agent.countsBatch read.counters read.head .scheduled).1 = []
  · have nowhere : Lands agent.identity.address (chain.advance count)
        (process.agent.countsBatch read.counters read.head .scheduled).1
        ((chain.advance count).advance later) [] := by
      rw [nothing]
      exact ⟨later, [], rfl, rfl⟩
    rw [asQueue, if_pos nothing]
    exact counted count read retains nowhere (.refl _)
  · rw [asQueue, if_neg nothing, Process.afterCounts, if_neg (List.cons_ne_nil _ _)]
    exact .writes count later read retains (.refl _)

end Flushing

/-- Few enough open records are all on the page that is read next. -/
theorem Process.read_countersCount (process : Process) (order : List EntityKey) {work : Work}
    {head count : Nat} (isTask : process.task = .countersCount work head)
    (few : count ≤ PAGE_LIMIT) :
    process.read order (.number count) = { process with task := .countersPage work head } := by
  obtain ⟨config, agent, task⟩ := process
  cases isTask
  exact if_neg (Nat.not_lt.mpr few)

/-! ## One event -/

namespace State

/-- Nothing disturbs the flush: it reads the chain as it is, its writes land, and nobody else
writes. -/
def Calm (state : State) : Event → Prop
  | .sealBlocks _ _ | .catchUp _ | .serve _ | .gate _ _ _ | .countServed _ => True
  | .write (.landed _ _) => True
  | .read _ _ => state.behind = []
  | _ => False

instance (state : State) (event : Event) : Decidable (state.Calm event) := by
  unfold Calm
  split <;> infer_instance

/-- The process is in its flush, and no write is in flight. -/
structure Flushes (chain : Chain) (agent : Agent) (state : State) : Prop where
  pending : state.pending = []
  process : ∃ process, state.process = some process ∧
    Flushing chain agent state.chain process.agent process.task

variable {urls : Urls} {sidecar : Identity} {chain : Chain} {agent : Agent} {state next : State}

namespace Flushes

/-- The task's read is answered. -/
theorem read (flushes : state.Flushes chain agent) (current : state.behind = [])
    (fits : chain.count (agent.countersQuery chain.head) ≤ PAGE_LIMIT)
    {shown order : List EntityKey} (stepped : state.readAnswered shown order = some next) :
    next.Flushes chain agent := by
  obtain ⟨pending, process, isThere, flushing⟩ := flushes
  simp only [State.readAnswered, Option.bind_eq_bind, Option.bind_eq_some_iff] at stepped
  obtain ⟨other, isOther, reading, reads, reply, replied, stepped⟩ := stepped
  obtain rfl := Option.some.inj (isThere.symm.trans isOther)
  cases stepped
  refine ⟨pending, _, rfl, ?_⟩
  obtain ⟨here, behind, pending, running, served⟩ := state
  obtain ⟨config, now, task⟩ := process
  simp only at current flushing reads
  subst current
  have reorders := Agent.Retains.reorder now order
  cases flushing with
  | starts count retains =>
      cases reads
      cases replied
      exact .asks count _ (retains.trans reorders) (Nat.le_add_right _ _) le_rfl
  | asks count head retains since earlier =>
      cases reads
      cases replied
      have few : (chain.advance count).count (now.countersQuery head) ≤ PAGE_LIMIT := by
        rw [retains.countersQuery]
        exact (Chain.count_advance chain agent count since).trans fits
      let asking : Process :=
        { config := config
          agent := { now with agreements := now.agreements.reorder order }
          task := .countersCount (.flush .scheduled) head }
      have shows : Flushing chain agent (chain.advance count)
          (asking.read order (.number ((chain.advance count).count (now.countersQuery head)))).agent
          (asking.read order
            (.number ((chain.advance count).count (now.countersQuery head)))).task := by
        rw [asking.read_countersCount order rfl few]
        exact .shows count head (retains.trans reorders) since earlier
      exact shows
  | shows count head retains since earlier =>
      cases reads
      obtain ⟨rows, page, rfl⟩ := Option.map_eq_some_iff.mp replied
      have page : (chain.advance count).page (agent.countersQuery head) shown = some rows := by
        rw [← retains.countersQuery]
        exact page
      let read : CounterRead (chain.advance count) agent :=
        { head := head
          earlier := earlier
          shown := shown
          rows := rows
          page := page
          fits := (Chain.count_advance chain agent count since).trans fits
          order := order
          base := { now with agreements := now.agreements.reorder order }
          retained := retains.trans reorders
          closed := []
          looked := fun _ member => absurd member List.not_mem_nil }
      exact Flushing.openCountersRead count read rfl rfl
  | looks count later read missing left =>
      cases missing with
      | nil => cases reads
      | cons pair rest =>
          cases reads
          obtain ⟨rows, _, rfl⟩ := Option.map_eq_some_iff.mp replied
          exact Flushing.looked count later read left rows order config
  | counts => cases reads
  | writes => cases reads
  | opens => cases reads
  | ends => cases reads

/-- The entries are read, and the first batch is built. -/
theorem countServed (flushes : state.Flushes chain agent) {order : List EntityKey}
    (stepped : state.step urls sidecar (.countServed order) = some next) :
    next.Flushes chain agent := by
  obtain ⟨pending, process, isThere, flushing⟩ := flushes
  obtain ⟨after, ran, rfl⟩ := Option.map_eq_some_iff.mp stepped
  obtain ⟨other, isOther, changes⟩ := Option.bind_eq_some_iff.mp ran
  obtain rfl := Option.some.inj (isThere.symm.trans isOther)
  refine ⟨pending, after, rfl, ?_⟩
  obtain ⟨here, behind, pending, running, served⟩ := state
  obtain ⟨config, now, task⟩ := process
  simp only at flushing changes
  have reorders := Agent.Retains.reorder now order
  cases flushing with
  | counts count later read retains =>
      cases changes
      exact Flushing.counts_read count later read (retains.trans reorders)
  | starts => cases changes
  | asks => cases changes
  | shows => cases changes
  | looks => cases changes
  | writes => cases changes
  | opens => cases changes
  | ends => cases changes

/-- The task's batch lands. -/
theorem landed (flushes : state.Flushes chain agent) (isMe : agent.identity = sidecar)
    {fates : List (Option (List EntityKey))} {keys : List EntityKey}
    (stepped : state.writeAnswered sidecar (.landed fates keys) = some next) :
    next.Flushes chain agent := by
  obtain ⟨pending, process, isThere, flushing⟩ := flushes
  simp only [State.writeAnswered, Option.bind_eq_bind, Option.bind_eq_some_iff] at stepped
  obtain ⟨other, isOther, batch, sends, ⟨middle, result⟩, sent, stepped⟩ := stepped
  obtain rfl := Option.some.inj (isThere.symm.trans isOther)
  cases stepped
  obtain ⟨settled, after, settles, lands, rfl, rfl⟩ := send_landed_chain sent
  rw [pending] at settles
  have isSettled : settled = state.chain.advance 1 := by
    cases fates with
    | nil => exact (congrArg Prod.fst (Option.some.inj settles)).symm
    | cons fate fates => simp [Chain.settle] at settles
  subst isSettled isMe
  refine ⟨rfl, _, rfl, ?_⟩
  obtain ⟨here, behind, pending, running, served⟩ := state
  obtain ⟨config, now, task⟩ := process
  simp only at flushing sends lands
  cases flushing with
  | writes count later read counted retains =>
      cases sends
      rw [Chain.advance_advance] at lands
      exact Flushing.counted count read counted ⟨_, keys, lands, rfl⟩ retains
  | opens count later read counted counts answers retains =>
      cases sends
      rw [Chain.advance_advance] at lands
      let run : FlushRun (chain.advance count) agent :=
        { read with
          counting := _
          counted := counted
          middle := _
          patched := _
          counts := counts
          answered := _
          answers := answers
          next := after
          named := _
          successors := ⟨_, keys, lands, rfl⟩ }
      exact Flushing.ends count 0 run retains
  | starts => cases sends
  | asks => cases sends
  | shows => cases sends
  | looks => cases sends
  | counts => cases sends
  | ends => cases sends

/-- What one event leaves of a flush that it does not disturb. -/
theorem step (flushes : state.Flushes chain agent) (isMe : agent.identity = sidecar)
    (fits : chain.count (agent.countersQuery chain.head) ≤ PAGE_LIMIT) {event : Event}
    (calm : state.Calm event) (stepped : state.step urls sidecar event = some next) :
    next.Flushes chain agent := by
  obtain ⟨pending, process, isThere, flushing⟩ := flushes
  cases event with
  | sealBlocks count fates =>
      obtain ⟨⟨later, rest⟩, settles, rfl⟩ := Option.map_eq_some_iff.mp stepped
      rw [pending] at settles
      cases fates with
      | nil =>
          cases settles
          exact ⟨rfl, process, isThere, flushing.meanwhile (.refl _) _⟩
      | cons fate fates => simp [Chain.settle] at settles
  | catchUp count =>
      cases stepped
      exact ⟨pending, process, isThere, flushing⟩
  | serve handle =>
      simp only [State.step, State.serve, Option.bind_eq_bind, Option.bind_eq_some_iff] at stepped
      obtain ⟨other, isOther, provider, found, stepped⟩ := stepped
      obtain rfl := Option.some.inj (isThere.symm.trans isOther)
      cases stepped
      have serves := Agent.Serves.modify process.agent handle Provider.recordServed fun _ => rfl
      exact ⟨pending, _, rfl, flushing.meanwhile serves 0⟩
  | gate handle gate value =>
      obtain ⟨after, ran, rfl⟩ := Option.map_eq_some_iff.mp stepped
      obtain ⟨other, isOther, changes⟩ := Option.bind_eq_some_iff.mp ran
      obtain rfl := Option.some.inj (isThere.symm.trans isOther)
      cases changes
      refine ⟨pending, _, rfl, flushing.meanwhile (.modify _ _ _ fun _ => ?_) 0⟩
      cases gate <;> rfl
  | read shown order =>
      exact read ⟨pending, process, isThere, flushing⟩ calm fits stepped
  | countServed order => exact countServed ⟨pending, process, isThere, flushing⟩ stepped
  | write answer =>
      cases answer with
      | landed fates keys => exact landed ⟨pending, process, isThere, flushing⟩ isMe stepped
      | failed => exact calm.elim
  | post | withdraw | launch | crash | admitted | admission | learn | endAdmission | tick | unread
  | portLooked => exact calm.elim

end Flushes

/-! ## A whole flush -/

/-- A flush that is not disturbed is one flush of the chain as its page shows it: the world ends
where that flush does, some blocks later, with the memory it leaves. -/
theorem flush_runs {finish : State} {process after : Process} {events : List Event}
    (isProcess : state.process = some process) (isMe : process.agent.identity = sidecar)
    (starts : process.task = Tick.flush.task) (settled : state.pending = [])
    (fits : state.chain.count (process.agent.countersQuery state.chain.head) ≤ PAGE_LIMIT)
    (calm : (world urls sidecar).Meets Calm state events)
    (reached : (world urls sidecar).run state events = some finish)
    (isAfter : finish.process = some after) (waits : after.task = .idle) :
    ∃ count later, ∃ run : FlushRun (state.chain.advance count) process.agent,
      finish.chain = run.next.advance later ∧ run.after.Retains after.agent := by
  have preserved : ∀ (before : State) (event : Event) (next : State),
      before.Flushes state.chain process.agent → before.Calm event →
        (world urls sidecar).step before event = some next →
          next.Flushes state.chain process.agent :=
    fun _ _ _ flushes calm stepped => flushes.step isMe fits calm stepped
  have begins : state.Flushes state.chain process.agent := by
    refine ⟨settled, process, isProcess, ?_⟩
    rw [starts]
    exact .starts 0 (.refl _)
  obtain ⟨-, other, isOther, flushing⟩ := Machine.run_invariant preserved begins calm reached
  obtain rfl := Option.some.inj (isAfter.symm.trans isOther)
  rw [waits] at flushing
  generalize finish.chain = here, after.agent = now at flushing ⊢
  cases flushing with
  | ends count later run retains => exact ⟨count, later, run, rfl, retains⟩

/-- After it an open counter record is one of an agreement in memory, and an agreement has no
other. -/
theorem flush_leaves {finish : State} {process after : Process} {events : List Event}
    (isProcess : state.process = some process) (isMe : process.agent.identity = sidecar)
    (starts : process.task = Tick.flush.task) (settled : state.pending = [])
    (fits : state.chain.count (process.agent.countersQuery state.chain.head) ≤ PAGE_LIMIT)
    (calm : (world urls sidecar).Meets Calm state events)
    (reached : (world urls sidecar).run state events = some finish)
    (isAfter : finish.process = some after) (waits : after.task = .idle) :
    (∀ stored, finish.chain.Opens sidecar.address stored →
      after.agent.has stored.record.agreement = true) ∧
      ∀ first second, finish.chain.Opens sidecar.address first →
        finish.chain.Opens sidecar.address second →
          first.record.agreement = second.record.agreement → first = second := by
  obtain ⟨count, later, run, isChain, retains⟩ :=
    flush_runs isProcess isMe starts settled fits calm reached isAfter waits
  rw [isChain]
  subst isMe
  refine ⟨fun stored opens => ?_, fun first second opensFirst opensSecond same => ?_⟩
  · rw [retains.has, run.after_retains.has]
    exact run.next_known (Chain.opens_advance opens)
  · exact run.next_unique (Chain.opens_advance opensFirst) (Chain.opens_advance opensSecond) same

/-- On time, it is the next flush of the days that led here. -/
theorem flush_days {finish : State} {process after : Process} {events : List Event}
    {late last : Nat} {ok : ∀ (chain : Chain) (agent : Agent), FlushRun chain agent → Prop}
    (isProcess : state.process = some process) (isMe : process.agent.identity = sidecar)
    (starts : process.task = Tick.flush.task) (settled : state.pending = [])
    (fits : state.chain.count (process.agent.countersQuery state.chain.head) ≤ PAGE_LIMIT)
    (calm : (world urls sidecar).Meets Calm state events)
    (reached : (world urls sidecar).run state events = some finish)
    (isAfter : finish.process = some after) (waits : after.task = .idle)
    (days : Days sidecar.address process.agent.config late ok state.chain last)
    (onTime : finish.chain.head ≤ last + blocks process.agent.config.flushInterval + late) :
    ∃ count, ∃ run : FlushRun (state.chain.advance count) process.agent,
      ok _ _ run →
        Days sidecar.address process.agent.config late ok finish.chain run.head := by
  obtain ⟨count, later, run, isChain, _⟩ :=
    flush_runs isProcess isMe starts settled fits calm reached isAfter waits
  rw [isChain] at onTime ⊢
  have onTime : run.next.head + later ≤
      last + blocks process.agent.config.flushInterval + late := onTime
  have heads := run.head_le
  have earlier := run.earlier
  refine ⟨count, run, fun meets => ?_⟩
  exact .seals (.flush (days.seals count) run (isMe ▸ rfl) rfl (by omega) meets) later

/-- No write of the LB lands or is lost. -/
def LandsNothing : Event → Prop
  | .write (.landed _ _) | .write (.failed _ true) => False
  | .admission _ (.landed _ _) | .admission _ (.failed _ true) => False
  | _ => True

/-- Between its writes the world goes through the days. -/
theorem days_step {config : Marketplace} {late last : Nat}
    {ok : ∀ (chain : Chain) (agent : Agent), FlushRun chain agent → Prop}
    (days : Days sidecar.address config late ok state.chain last) (settled : state.pending = [])
    {event : Event} (nothing : LandsNothing event)
    (stepped : state.step urls sidecar event = some next) :
    next.pending = [] ∧ Days sidecar.address config late ok next.chain last := by
  have ofProcess : ∀ {change : Process → Option Process}, state.ofProcess change = some next →
      next.pending = [] ∧ Days sidecar.address config late ok next.chain last := by
    intro change ran
    obtain ⟨_, _, rfl⟩ := Option.map_eq_some_iff.mp ran
    exact ⟨settled, days⟩
  cases event with
  | sealBlocks count fates =>
      obtain ⟨⟨later, rest⟩, settles, rfl⟩ := Option.map_eq_some_iff.mp stepped
      rw [settled] at settles
      cases fates with
      | nil =>
          cases settles
          exact ⟨rfl, days.seals _⟩
      | cons fate fates => simp [Chain.settle] at settles
  | catchUp count =>
      cases stepped
      exact ⟨settled, days⟩
  | post offer =>
      simp only [State.step] at stepped
      split at stepped
      · next free =>
          cases stepped
          exact ⟨settled, days.posts _ free.2⟩
      · cases stepped
  | withdraw offer =>
      simp only [State.step] at stepped
      split at stepped
      · cases stepped
        exact ⟨settled, days.withdraws offer⟩
      · cases stepped
  | launch config =>
      simp only [State.step] at stepped
      split at stepped
      · cases stepped
        exact ⟨settled, days⟩
      · cases stepped
  | crash =>
      obtain ⟨_, _, rfl⟩ := Option.map_eq_some_iff.mp stepped
      exact ⟨settled, days⟩
  | serve handle =>
      simp only [State.step, State.serve, Option.bind_eq_bind, Option.bind_eq_some_iff] at stepped
      obtain ⟨process, _, provider, _, stepped⟩ := stepped
      cases stepped
      exact ⟨settled, days⟩
  | read shown order =>
      simp only [State.step, State.readAnswered, Option.bind_eq_bind, Option.bind_eq_some_iff]
        at stepped
      obtain ⟨process, _, reading, _, reply, _, stepped⟩ := stepped
      cases stepped
      exact ⟨settled, days⟩
  | write answer =>
      simp only [State.step, State.writeAnswered, Option.bind_eq_bind, Option.bind_eq_some_iff]
        at stepped
      obtain ⟨process, _, batch, _, ⟨middle, result⟩, sent, stepped⟩ := stepped
      cases stepped
      cases answer with
      | landed fates keys => exact nothing.elim
      | failed error lost =>
          cases lost with
          | true => exact nothing.elim
          | false =>
              cases sent
              exact ⟨settled, days⟩
  | admission index answer =>
      simp only [State.step, State.admissionSent, Option.bind_eq_bind, Option.bind_eq_some_iff]
        at stepped
      obtain ⟨process, _, task, _, stepped⟩ := stepped
      split at stepped
      · cases stepped
      · obtain ⟨⟨middle, result⟩, sent, stepped⟩ := Option.bind_eq_some_iff.mp stepped
        cases stepped
        cases answer with
        | landed fates keys => exact nothing.elim
        | failed error lost =>
            cases lost with
            | true => exact nothing.elim
            | false =>
                cases sent
                exact ⟨settled, days⟩
  | gate | admitted | learn | endAdmission | tick | unread | countServed | portLooked =>
      exact ofProcess stepped

/-- A flush with a request served while its first batch is under way. -/
def busyFlush : List Event :=
  [answered, answered, .read [300] [], .countServed [], .serve 0, .sealBlocks 0 [],
    .write (.landed [] [0]), .write (.landed [] [400])]

example :
    let lb := world plainUrls smallSidecar
    (lb.run emptyWorld (startUp smallSection ++ acceptance ++ [.serve 0, .tick .flush])).any
      (fun state => decide (lb.Meets Calm state busyFlush) && state.pending.isEmpty &&
        (lb.run state busyFlush).any fun finish =>
          finish.process.any fun after => after.task matches .idle) = true := by
  decide +kernel

end State

end CommunityLb
