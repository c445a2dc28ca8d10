import CommunityLb.Marketplace.Task

/-!
# What becomes of a row

A row that was written stays: its creator and its creation block never change, what it is an
agreement or an offer of never does, and its expiry only moves later.
-/

namespace CommunityLb

/-- A row as it was, and as it is later. -/
structure Stored.Became (row now : Stored Record) : Prop where
  creator : now.creator = row.creator
  createdAt : now.createdAt = row.createdAt
  expiresAt : row.expiresAt ≤ now.expiresAt
  agreement : now.record.asAgreement = row.record.asAgreement

theorem Stored.Became.refl (row : Stored Record) : row.Became row :=
  ⟨rfl, rfl, le_rfl, rfl⟩

theorem Stored.Became.trans {row now later : Stored Record} (first : row.Became now)
    (second : now.Became later) : row.Became later where
  creator := second.creator.trans first.creator
  createdAt := second.createdAt.trans first.createdAt
  expiresAt := first.expiresAt.trans second.expiresAt
  agreement := second.agreement.trans first.agreement

namespace Chain

/-- Every row of a chain is still there on a later one. -/
structure Stays (chain later : Chain) : Prop where
  head : chain.head ≤ later.head
  row : ∀ key row, chain.entities.get? key = some row →
    ∃ now, later.entities.get? key = some now ∧ row.Became now

variable {chain next later : Chain} {me : Address} {fresh : EntityKey}

theorem Stays.refl (chain : Chain) : chain.Stays chain :=
  ⟨le_rfl, fun _ row found => ⟨row, found, .refl row⟩⟩

theorem Stays.trans (first : chain.Stays next) (second : next.Stays later) :
    chain.Stays later where
  head := first.head.trans second.head
  row key row found := by
    obtain ⟨now, isNow, became⟩ := first.row key row found
    obtain ⟨last, isLast, later⟩ := second.row key now isNow
    exact ⟨last, isLast, became.trans later⟩

/-- A row written under a key that was free. -/
theorem Stays.insert {row : Stored Record} (free : chain.entities.get? row.key = none) :
    chain.Stays { chain with entities := chain.entities.insert row } := by
  refine ⟨le_rfl, fun key old found => ⟨old, ?_, .refl old⟩⟩
  have differs : key ≠ row.key := by
    rintro rfl
    simp [free] at found
  simpa [Keyed.get?_insert, differs] using found

/-- One row changed where it stands. -/
theorem Stays.adjust {key : EntityKey} {change : Stored Record → Stored Record}
    {keeps : ∀ row, (change row).key = row.key}
    (became : ∀ row, chain.entities.get? key = some row → row.Became (change row)) :
    chain.Stays { chain with entities := chain.entities.adjust key change keeps } := by
  refine ⟨le_rfl, fun other row found => ?_⟩
  by_cases same : other = key
  · subst same
    exact ⟨change row, by simp [Keyed.get?_adjust, found], became row found⟩
  · exact ⟨row, by simp [Keyed.get?_adjust, same, found], .refl row⟩

theorem asAgreement_set (record : Record) (set : SetAttributes) :
    (record.set set).asAgreement = record.asAgreement := by
  cases record <;> cases set <;> rfl

theorem operate_stays {operation : Operation}
    (operated : chain.operate me fresh operation = some next) : chain.Stays next := by
  cases operation with
  | create record seconds =>
      simp only [operate] at operated
      split at operated
      · next free =>
          cases operated
          exact .insert (by simpa using free)
      · cases operated
  | patch key set =>
      simp only [operate] at operated
      split at operated
      · cases operated
        exact .adjust fun row _ => ⟨rfl, rfl, le_rfl, asAgreement_set row.record set⟩
      · cases operated
  | delete key =>
      simp only [operate] at operated
      split at operated
      · cases operated
        exact ⟨le_rfl, fun _ row found => ⟨row, found, .refl row⟩⟩
      · cases operated
  | extend key seconds =>
      simp only [operate] at operated
      split at operated
      · next moves =>
          cases operated
          refine .adjust fun row found => ⟨rfl, rfl, ?_, rfl⟩
          obtain ⟨live, isLive, later⟩ := (Option.any_eq_true _ _).mp moves
          obtain ⟨isThere, _⟩ := Option.filter_eq_some_iff.mp isLive
          obtain rfl := Option.some.inj (found.symm.trans isThere)
          exact (of_decide_eq_true later).le
      · cases operated

/-- An extend that lands sets its row's expiry. -/
theorem operate_extended {key : EntityKey} {seconds : Nat}
    (operated : chain.operate me fresh (.extend key seconds) = some next) :
    ∃ row, chain.entities.get? key = some row ∧ next.entities.get? key = some
      { row with expiresAt := chain.head + blocksOf seconds } := by
  simp only [operate] at operated
  split at operated
  · next moves =>
      cases operated
      obtain ⟨row, isLive, _⟩ := (Option.any_eq_true _ _).mp moves
      obtain ⟨found, _⟩ := Option.filter_eq_some_iff.mp isLive
      exact ⟨row, found, by simp [Keyed.get?_adjust, found]⟩
  · cases operated

theorem execute_stays {batch : List (Operation × EntityKey)}
    (executed : chain.execute me batch = some next) : chain.Stays next := by
  induction batch generalizing chain with
  | nil =>
      cases executed
      exact .refl _
  | cons pair batch ih =>
      obtain ⟨middle, operated, rest⟩ := Option.bind_eq_some_iff.mp executed
      exact (operate_stays operated).trans (ih rest)

theorem land_stays {batch : Batch} {keys : List EntityKey}
    (landed : chain.land me batch keys = some next) : chain.Stays next := by
  simp only [land, Option.ite_none_right_eq_some] at landed
  exact execute_stays landed.2

theorem settle_stays {pending rest : List Batch} {fates : List (Option (List EntityKey))}
    (settled : chain.settle me pending fates = some (next, rest)) : chain.Stays next := by
  induction fates generalizing chain pending with
  | nil =>
      cases pending <;> simp only [settle, Option.some.injEq, Prod.mk.injEq] at settled
      all_goals
        obtain ⟨rfl, _⟩ := settled
        exact .refl _
  | cons fate fates ih =>
      cases pending with
      | nil => simp [settle] at settled
      | cons batch pending =>
          cases fate with
          | none => exact ih settled
          | some keys =>
              simp only [settle, Option.bind_eq_some_iff] at settled
              obtain ⟨middle, landed, remaining⟩ := settled
              exact (land_stays landed).trans (ih remaining)

theorem advance_stays (chain : Chain) (count : Nat) : chain.Stays (chain.advance count) :=
  ⟨Nat.le_add_right _ _, fun _ row found => ⟨row, found, .refl row⟩⟩

/-! ## Creation blocks -/

/-- No row was written after the head. -/
def Dated (chain : Chain) : Prop :=
  ∀ key row, chain.entities.get? key = some row → row.createdAt ≤ chain.head

theorem Dated.insert {row : Stored Record} (dated : chain.Dated) (now : row.createdAt ≤ chain.head) :
    Chain.Dated { chain with entities := chain.entities.insert row } := by
  intro key found isFound
  simp only [Keyed.get?_insert] at isFound
  split at isFound
  · cases isFound
    exact now
  · exact dated key found isFound

theorem Dated.adjust {key : EntityKey} {change : Stored Record → Stored Record}
    {keeps : ∀ row, (change row).key = row.key} (dated : chain.Dated)
    (same : ∀ row, (change row).createdAt = row.createdAt) :
    Chain.Dated { chain with entities := chain.entities.adjust key change keeps } := by
  intro other found isFound
  simp only [Keyed.get?_adjust] at isFound
  split at isFound
  · obtain ⟨row, isRow, rfl⟩ := Option.map_eq_some_iff.mp isFound
    exact (same row).le.trans (dated other row isRow)
  · exact dated other found isFound

theorem Dated.operate {operation : Operation} (dated : chain.Dated)
    (operated : chain.operate me fresh operation = some next) : next.Dated := by
  cases operation with
  | create record seconds =>
      simp only [Chain.operate] at operated
      split at operated <;> cases operated
      exact dated.insert le_rfl
  | patch key set =>
      simp only [Chain.operate] at operated
      split at operated <;> cases operated
      exact dated.adjust fun _ => rfl
  | delete key =>
      simp only [Chain.operate] at operated
      split at operated <;> cases operated
      exact dated
  | extend key seconds =>
      simp only [Chain.operate] at operated
      split at operated <;> cases operated
      exact dated.adjust fun _ => rfl

theorem Dated.execute {batch : List (Operation × EntityKey)} (dated : chain.Dated)
    (executed : chain.execute me batch = some next) : next.Dated := by
  induction batch generalizing chain with
  | nil =>
      cases executed
      exact dated
  | cons pair batch ih =>
      obtain ⟨middle, operated, rest⟩ := Option.bind_eq_some_iff.mp executed
      exact ih (dated.operate operated) rest

theorem Dated.land {batch : Batch} {keys : List EntityKey} (dated : chain.Dated)
    (landed : chain.land me batch keys = some next) : next.Dated := by
  simp only [Chain.land, Option.ite_none_right_eq_some] at landed
  exact dated.execute landed.2

theorem Dated.settle {pending rest : List Batch} {fates : List (Option (List EntityKey))}
    (dated : chain.Dated) (settled : chain.settle me pending fates = some (next, rest)) :
    next.Dated := by
  induction fates generalizing chain pending with
  | nil =>
      cases pending <;> simp only [Chain.settle, Option.some.injEq, Prod.mk.injEq] at settled
      all_goals
        obtain ⟨rfl, _⟩ := settled
        exact dated
  | cons fate fates ih =>
      cases pending with
      | nil => simp [Chain.settle] at settled
      | cons batch pending =>
          cases fate with
          | none => exact ih dated settled
          | some keys =>
              simp only [Chain.settle, Option.bind_eq_some_iff] at settled
              obtain ⟨middle, landed, remaining⟩ := settled
              exact ih (dated.land landed) remaining

theorem Dated.advance (dated : chain.Dated) (count : Nat) : (chain.advance count).Dated :=
  fun key row found => (dated key row found).trans (Nat.le_add_right _ _)

end Chain

/-! ## The world -/

namespace State

variable {urls : Urls} {sidecar : Identity} {state next : State}

/-- The chain goes on, and only its states so far may still be shown. -/
structure Advances (state next : State) : Prop where
  stays : state.chain.Stays next.chain
  dated : state.chain.Dated → next.chain.Dated
  behind : ∀ earlier ∈ next.behind, earlier ∈ state.behind ∨ earlier = state.chain

theorem Advances.still (chain : next.chain = state.chain)
    (behind : ∀ earlier ∈ next.behind, earlier ∈ state.behind) : state.Advances next where
  stays := chain ▸ .refl _
  dated dated := chain ▸ dated
  behind earlier member := .inl (behind earlier member)

theorem Advances.moved {chain : Chain} (stays : state.chain.Stays chain)
    (dated : state.chain.Dated → chain.Dated) (now : next.chain = chain)
    (behind : next.behind = state.behind ++ [state.chain]) : state.Advances next where
  stays := now ▸ stays
  dated before := now ▸ dated before
  behind earlier member := by
    rw [behind, List.mem_append, List.mem_singleton] at member
    exact member

theorem send_advances {batch : Batch} {answer : WriteAnswer}
    {result : Except WriteError BatchResult}
    (sent : state.send sidecar batch answer = some (next, result)) : state.Advances next := by
  cases answer with
  | landed fates keys =>
      simp only [State.send, Option.bind_eq_bind, Option.bind_eq_some_iff] at sent
      obtain ⟨⟨chain, pending⟩, settled, sent⟩ := sent
      split at sent
      · cases sent
      · obtain ⟨landed, lands, sent⟩ := Option.bind_eq_some_iff.mp sent
        cases sent
        exact .moved (((Chain.advance_stays _ 1).trans (Chain.settle_stays settled)).trans
          (Chain.land_stays lands)) (fun dated => ((dated.advance 1).settle settled).land lands)
          rfl rfl
  | failed error lost =>
      simp only [State.send] at sent
      split at sent
      · split at sent
        · cases sent
          exact .still rfl fun _ member => member
        · cases sent
      · cases sent
        exact .still rfl fun _ member => member

theorem step_advances {event : Event} (stepped : state.step urls sidecar event = some next) :
    state.Advances next := by
  have ofProcess : ∀ {change : Process → Option Process},
      state.ofProcess change = some next → state.Advances next := by
    intro change ran
    obtain ⟨_, _, rfl⟩ := Option.map_eq_some_iff.mp ran
    exact .still rfl fun _ member => member
  cases event with
  | sealBlocks count fates =>
      obtain ⟨⟨chain, pending⟩, settled, rfl⟩ := Option.map_eq_some_iff.mp stepped
      exact .moved ((Chain.advance_stays _ _).trans (Chain.settle_stays settled))
        (fun dated => (dated.advance _).settle settled) rfl rfl
  | catchUp count =>
      cases stepped
      exact .still rfl fun _ member => List.mem_of_mem_drop member
  | post offer =>
      simp only [State.step] at stepped
      split at stepped
      · next fits =>
          cases stepped
          exact .moved (.insert (by simpa using fits.1)) (fun dated => dated.insert le_rfl) rfl rfl
      · cases stepped
  | withdraw offer =>
      simp only [State.step] at stepped
      split at stepped
      · cases stepped
        have stays : state.chain.Stays { state.chain with gone := offer :: state.chain.gone } :=
          ⟨le_rfl, fun _ row found => ⟨row, found, .refl row⟩⟩
        exact .moved stays id rfl rfl
      · cases stepped
  | launch config =>
      simp only [State.step] at stepped
      split at stepped
      · cases stepped
        exact .still rfl fun _ member => member
      · cases stepped
  | crash =>
      obtain ⟨_, _, rfl⟩ := Option.map_eq_some_iff.mp stepped
      exact .still rfl fun _ member => member
  | serve handle =>
      simp only [State.step, State.serve, Option.bind_eq_bind, Option.bind_eq_some_iff] at stepped
      obtain ⟨_, _, _, _, stepped⟩ := stepped
      cases stepped
      exact .still rfl fun _ member => member
  | admission index answer =>
      simp only [State.step, State.admissionSent, Option.bind_eq_bind,
        Option.bind_eq_some_iff] at stepped
      obtain ⟨_, _, _, _, stepped⟩ := stepped
      split at stepped
      · cases stepped
      · obtain ⟨⟨middle, result⟩, sent, stepped⟩ := Option.bind_eq_some_iff.mp stepped
        cases stepped
        exact ⟨(send_advances sent).stays, (send_advances sent).dated, (send_advances sent).behind⟩
  | read shown order =>
      simp only [State.step, State.readAnswered, Option.bind_eq_bind,
        Option.bind_eq_some_iff] at stepped
      obtain ⟨_, _, _, _, _, _, stepped⟩ := stepped
      cases stepped
      exact .still rfl fun _ member => member
  | write answer =>
      simp only [State.step, State.writeAnswered, Option.bind_eq_bind,
        Option.bind_eq_some_iff] at stepped
      obtain ⟨_, _, _, _, ⟨middle, result⟩, sent, stepped⟩ := stepped
      cases stepped
      exact ⟨(send_advances sent).stays, (send_advances sent).dated, (send_advances sent).behind⟩
  | gate handle gate value => exact ofProcess stepped
  | admitted agreement => exact ofProcess stepped
  | learn index => exact ofProcess stepped
  | endAdmission index => exact ofProcess stepped
  | tick tick => exact ofProcess stepped
  | unread => exact ofProcess stepped
  | countServed order => exact ofProcess stepped
  | portLooked isBound => exact ofProcess stepped

/-- What queries may still show trails the chain, and no row is from after its head. -/
structure Trails (state : State) : Prop where
  dated : state.chain.Dated
  behind : ∀ earlier ∈ state.behind, earlier.Stays state.chain

theorem Trails.step {event : Event} (trails : state.Trails)
    (stepped : state.step urls sidecar event = some next) : next.Trails := by
  have advances := step_advances stepped
  refine ⟨advances.dated trails.dated, fun earlier member => ?_⟩
  rcases advances.behind earlier member with old | rfl
  · exact (trails.behind earlier old).trans advances.stays
  · exact advances.stays

/-- The state a query shows, the chain's or an earlier one. -/
theorem Trails.view (trails : state.Trails) : state.view.Stays state.chain := by
  rw [State.view]
  cases shown : state.behind with
  | nil => exact .refl _
  | cons earlier later => exact trails.behind earlier (by simp [shown])

end State

/-! ## How a process goes on -/

/-- One step of a process: it stays at its task, or its task goes on. -/
inductive Process.Next (sidecar : Identity) (state : State) (before after : Process) :
    Event → Prop
  | stays {event : Event} (task : after.task = before.task) : Next sidecar state before after event
  | tick {tick : Tick} (task : after.task = tick.task) : Next sidecar state before after (.tick tick)
  | read {shown order : List EntityKey} {reading : Reading} {reply : Reply}
      (reads : before.task.reading before.agent = some reading)
      (replied : state.reply shown reading = some reply)
      (now : after = Process.read
        { before with
          agent := { before.agent with agreements := before.agent.agreements.reorder order } }
        order reply) : Next sidecar state before after (.read shown order)
  | unread (now : after = before.unread) : Next sidecar state before after .unread
  | counted {order : List EntityKey}
      (now : Process.countServed
        { before with
          agent := { before.agent with agreements := before.agent.agreements.reorder order } } =
          some after) : Next sidecar state before after (.countServed order)
  | looked {isBound : Bool} (now : before.portLooked isBound = some after) :
      Next sidecar state before after (.portLooked isBound)
  | written {batch : Batch} {answer : WriteAnswer} {sent : State}
      {result : Except WriteError BatchResult} (sends : before.sending = some batch)
      (answered : state.send sidecar batch answer = some (sent, result))
      (now : after = before.written result) : Next sidecar state before after (.write answer)

namespace State

variable {urls : Urls} {sidecar : Identity} {state next : State}

/-- A process was launched, or it was there before the step and goes on. -/
theorem step_next {event : Event} (stepped : state.step urls sidecar event = some next)
    {after : Process} (isThere : next.process = some after) :
    (state.process = none ∧ ∃ config section_, event = .launch config ∧
      config.validate urls = .ok () ∧ config.marketplace = some section_ ∧
        after = launched sidecar config section_) ∨
      ∃ before, state.process = some before ∧ before.Next sidecar state after event := by
  -- A process that changes without the chain.
  have ofProcess : ∀ {change : Process → Option Process},
      (∀ process after, change process = some after → process.Next sidecar state after event) →
      state.ofProcess change = some next →
      ∃ before, state.process = some before ∧ before.Next sidecar state after event := by
    intro change goes ran
    obtain ⟨now, changed, rfl⟩ := Option.map_eq_some_iff.mp ran
    obtain ⟨before, was, changes⟩ := Option.bind_eq_some_iff.mp changed
    cases isThere
    exact ⟨before, was, goes before after changes⟩
  have same : next.process = state.process →
      ∃ before, state.process = some before ∧ before.Next sidecar state after event :=
    fun same => ⟨after, same.symm.trans isThere, .stays rfl⟩
  cases event with
  | sealBlocks count fates =>
      obtain ⟨⟨chain, pending⟩, settled, rfl⟩ := Option.map_eq_some_iff.mp stepped
      exact .inr (same rfl)
  | catchUp count =>
      cases stepped
      exact .inr (same rfl)
  | post offer =>
      simp only [State.step] at stepped
      split at stepped <;> cases stepped
      exact .inr (same rfl)
  | withdraw offer =>
      simp only [State.step] at stepped
      split at stepped <;> cases stepped
      exact .inr (same rfl)
  | launch config =>
      simp only [State.step] at stepped
      split at stepped
      · next section_ off valid given =>
          cases stepped
          cases isThere
          exact .inl ⟨off, config, section_, rfl, valid, given, rfl⟩
      · cases stepped
  | crash =>
      obtain ⟨_, _, rfl⟩ := Option.map_eq_some_iff.mp stepped
      cases isThere
  | serve handle =>
      simp only [State.step, State.serve, Option.bind_eq_bind, Option.bind_eq_some_iff] at stepped
      obtain ⟨before, was, _, _, stepped⟩ := stepped
      cases stepped
      cases isThere
      exact .inr ⟨before, was, .stays rfl⟩
  | admission index answer =>
      simp only [State.step, State.admissionSent, Option.bind_eq_bind,
        Option.bind_eq_some_iff] at stepped
      obtain ⟨before, was, _, _, stepped⟩ := stepped
      split at stepped
      · cases stepped
      · obtain ⟨⟨middle, result⟩, sent, stepped⟩ := Option.bind_eq_some_iff.mp stepped
        cases stepped
        cases isThere
        exact .inr ⟨before, was, .stays rfl⟩
  | read shown order =>
      simp only [State.step, State.readAnswered, Option.bind_eq_bind,
        Option.bind_eq_some_iff] at stepped
      obtain ⟨before, was, reading, reads, reply, replied, stepped⟩ := stepped
      cases stepped
      cases isThere
      exact .inr ⟨before, was, .read reads replied rfl⟩
  | write answer =>
      simp only [State.step, State.writeAnswered, Option.bind_eq_bind,
        Option.bind_eq_some_iff] at stepped
      obtain ⟨before, was, batch, sends, ⟨middle, result⟩, sent, stepped⟩ := stepped
      cases stepped
      cases isThere
      exact .inr ⟨before, was, .written sends sent rfl⟩
  | gate handle gate value =>
      refine .inr (ofProcess (fun before after changes => ?_) stepped)
      cases changes
      exact .stays rfl
  | admitted agreement =>
      refine .inr (ofProcess (fun before after changes => ?_) stepped)
      cases changes
      exact .stays rfl
  | learn index =>
      refine .inr (ofProcess (fun before after changes => ?_) stepped)
      simp only [admissionAnswered, Option.bind_eq_bind, Option.bind_eq_some_iff] at changes
      obtain ⟨_, _, _, _, changes⟩ := changes
      cases changes
      exact .stays rfl
  | endAdmission index =>
      refine .inr (ofProcess (fun before after changes => ?_) stepped)
      simp only [Option.bind_eq_bind, Option.bind_eq_some_iff] at changes
      obtain ⟨_, _, changes⟩ := changes
      split at changes <;> cases changes
      exact .stays rfl
  | tick tick =>
      refine .inr (ofProcess (fun before after changes => ?_) stepped)
      split at changes <;> cases changes
      exact .tick rfl
  | unread =>
      refine .inr (ofProcess (fun before after changes => ?_) stepped)
      obtain ⟨_, _, rfl⟩ := Option.map_eq_some_iff.mp changes
      exact .unread rfl
  | countServed order =>
      exact .inr (ofProcess (fun before after changes => .counted changes) stepped)
  | portLooked isBound =>
      exact .inr (ofProcess (fun before after changes => .looked changes) stepped)

end State

/-! ## Heads -/

/-- The head a task read. -/
def Task.head? : Task → Option Nat
  | agreementsCount _ head | agreementsPage _ head | closeEnded _ head _ | countersCount _ head
  | countersPage _ head | closedCount _ head _ _ _ _ | countsBatch _ head _
  | flushCounts _ head _ _ _ | offers head | listings head => some head
  | portProbe discovery _ _ | acceptAgreement discovery _ _ | acceptCounter discovery _ _ _ =>
      some discovery.head
  | _ => none

/-- What a task reads does not depend on the agreements. -/
theorem Task.reading_reorder (agent : Agent) (order : List EntityKey) (task : Task) :
    task.reading { agent with agreements := agent.agreements.reorder order } =
      task.reading agent := by
  unfold Task.reading
  split <;> rfl

theorem Discovery.seek_head {ports : List Nat} {discovery found : Discovery}
    {offers : List (Stored Offer)} {offer : Stored Offer} {port : Nat}
    (sought : discovery.seek ports offers = some (found, offer, port)) :
    found.head = discovery.head := by
  induction offers with
  | nil => cases sought
  | cons first rest ih =>
      rw [seek] at sought
      split at sought
      · exact ih sought
      · obtain ⟨_, _, same⟩ := Option.map_eq_some_iff.mp sought
        cases same
        rfl

namespace Process

variable {process next : Process} {head : Nat}

theorem afterOffer_head {discovery : Discovery}
    (isHead : (process.afterOffer discovery).task.head? = some head) : discovery.head = head := by
  rw [afterOffer] at isHead
  split at isHead
  · next found =>
      cases isHead
      exact (Discovery.seek_head found).symm
  · cases isHead

theorem afterError_head (work : Work) (error : ReconcileError) :
    (Task.afterAgreementsError work error).head? = none := by
  rcases work with _ | _ | _ | _ <;> cases error <;> rfl

theorem afterCountersError_head {work : Work} {read : Nat} {error : ReconcileError}
    (isHead : (Task.afterCountersError work read error).head? = some head) : read = head := by
  rcases work with _ | _ | _ | _ <;> cases error <;> simp_all [Task.afterCountersError, Task.head?,
    Task.afterFlush]

theorem afterCounters_head {work : Work} {read : Nat} {counters : Counters}
    (isHead : (Task.afterCounters work read counters).head? = some head) : read = head := by
  rcases work with _ | _ | kind <;> simp_all [Task.afterCounters, Task.head?]

theorem afterFlush_head (kind : Flush) : (Task.afterFlush kind).head? = none := by
  cases kind <;> rfl

theorem afterSuccessors_head (kind : Flush) (queue : List Batch) :
    (Task.afterSuccessors kind queue).head? = none := by
  rw [Task.afterSuccessors]
  split
  · exact afterFlush_head kind
  · rfl

theorem afterRefresh_head (queue : List Batch) : (Task.afterRefresh queue).head? = none := by
  rw [Task.afterRefresh]
  split <;> rfl

theorem afterEnded_head {work : Work} {read : Nat} {queue : List Batch}
    (isHead : (Task.afterEnded work read queue).head? = some head) : read = head := by
  rw [Task.afterEnded] at isHead
  split at isHead <;> exact Option.some.inj isHead

theorem afterCounts_head {kind : Flush} {read : Nat} {closing : List Closing}
    {queue : List Batch} {patched : List EntityKey}
    (isHead : (process.afterCounts kind read closing queue patched).task.head? = some head) :
    read = head := by
  simp only [afterCounts] at isHead
  split at isHead
  · rw [afterSuccessors_head] at isHead
    cases isHead
  · exact Option.some.inj isHead

/-- The head a task has after a read is the one it had, or the one it read. -/
theorem read_head {order : List EntityKey} {reply : Reply}
    (isHead : (process.read order reply).task.head? = some head) :
    process.task.head? = some head ∨
      process.task.reading process.agent = some .head ∧ reply = .number head := by
  unfold read at isHead
  split at isHead
  case h_2 task => exact .inr ⟨by rw [task]; rfl, congrArg _ (Option.some.inj isHead)⟩
  case h_3 task =>
    rw [task]
    split at isHead
    · rw [afterError_head] at isHead
      cases isHead
    · exact .inl isHead
  case h_4 task =>
    rw [task]
    exact .inl (congrArg some (afterEnded_head isHead))
  case h_5 task => exact .inr ⟨by rw [task]; rfl, congrArg _ (Option.some.inj isHead)⟩
  case h_6 task => exact .inr ⟨by rw [task]; rfl, congrArg _ (Option.some.inj isHead)⟩
  case h_7 task =>
    rw [task]
    split at isHead
    · exact .inl (congrArg some (afterCountersError_head isHead))
    · exact .inl isHead
  case h_8 task =>
    rw [task]
    simp only [openCountersRead] at isHead
    split at isHead
    · exact .inl (congrArg some (afterCounters_head isHead))
    · exact .inl isHead
  case h_9 task =>
    rw [task]
    split at isHead
    · exact .inl (congrArg some (afterCounters_head isHead))
    · exact .inl isHead
  case h_10 task =>
    rw [task]
    exact .inl (congrArg some (afterOffer_head isHead))
  case h_12 =>
    rw [afterRefresh_head] at isHead
    cases isHead
  case h_13 task => exact .inr ⟨by rw [task]; rfl, congrArg _ (Option.some.inj isHead)⟩
  case h_14 task =>
    rw [ensureListing] at isHead
    split at isHead
    · cases isHead
    · split at isHead <;> cases isHead
  case h_15 => exact .inl isHead
  all_goals cases isHead

theorem unread_head (isHead : process.unread.task.head? = some head) :
    process.task.head? = some head := by
  unfold unread at isHead
  split at isHead
  case h_2 => exact absurd ((afterError_head _ _).symm.trans isHead) nofun
  case h_3 => exact absurd ((afterError_head _ _).symm.trans isHead) nofun
  case h_4 => exact absurd ((afterError_head _ _).symm.trans isHead) nofun
  case h_6 => exact absurd ((afterFlush_head _).symm.trans isHead) nofun
  case h_7 task =>
    rw [task]
    exact congrArg some (afterCountersError_head isHead)
  case h_8 task =>
    rw [task]
    exact congrArg some (afterCountersError_head isHead)
  case h_9 task =>
    rw [task]
    exact congrArg some (afterCountersError_head isHead)
  case h_12 =>
    rw [afterRefresh_head] at isHead
    cases isHead
  case h_15 => exact isHead
  all_goals cases isHead

theorem written_head {result : Except WriteError BatchResult}
    (isHead : (process.written result).task.head? = some head) :
    process.task.head? = some head := by
  unfold written at isHead
  split at isHead
  case h_1 task =>
    rw [task]
    exact congrArg some (afterEnded_head isHead)
  case h_2 task =>
    rw [task]
    split at isHead <;> exact congrArg some (afterCounts_head isHead)
  case h_3 => exact absurd ((afterSuccessors_head _ _).symm.trans isHead) nofun
  case h_4 => exact absurd ((afterRefresh_head _).symm.trans isHead) nofun
  case h_5 discovery offer port task =>
    rw [task]
    unfold agreementWritten at isHead
    split at isHead
    · split at isHead
      · exact isHead
      · exact congrArg some (afterOffer_head isHead)
    · have same := afterOffer_head isHead
      exact congrArg some same
    · exact congrArg some (afterOffer_head isHead)
  case h_6 task =>
    rw [task]
    simp only [counterWritten] at isHead
    have same := afterOffer_head isHead
    exact congrArg some same
  case h_7 =>
    split at isHead
    · split at isHead <;> cases isHead
    · cases isHead
  case h_8 => split at isHead <;> cases isHead
  case h_9 => exact isHead

theorem countServed_head (counted : process.countServed = some next)
    (isHead : next.task.head? = some head) : process.task.head? = some head := by
  rw [countServed] at counted
  split at counted
  · next task =>
      cases counted
      rw [task]
      exact congrArg some (afterCounts_head isHead)
  · cases counted

theorem portLooked_head {isBound : Bool} (looked : process.portLooked isBound = some next)
    (isHead : next.task.head? = some head) : process.task.head? = some head := by
  rw [portLooked] at looked
  split at looked
  · next task =>
      cases looked
      rw [task]
      split at isHead
      · simp only at isHead
        split at isHead
        · exact isHead
        · cases isHead
      · exact isHead
  · cases looked

end Process

namespace State

variable {urls : Urls} {sidecar : Identity} {state next : State}

/-- A head that a task read is not past the chain's. -/
def Headed (state : State) : Prop :=
  ∀ process ∈ state.process, ∀ head ∈ process.task.head?, head ≤ state.chain.head

theorem Headed.step {event : Event} (headed : state.Headed)
    (stepped : state.step urls sidecar event = some next) : next.Headed := by
  have later := (step_advances stepped).stays.head
  intro after isThere head isHead
  rcases step_next stepped isThere with ⟨_, config, section_, _, _, _, rfl⟩ | ⟨before, was, goes⟩
  · cases isHead
  -- A head that the task had before is still not past the chain's.
  have old : before.task.head? = some head → head ≤ next.chain.head :=
    fun had => (headed before was head had).trans later
  cases goes with
  | stays task => exact old (task ▸ isHead)
  | @tick tick task =>
      rw [task] at isHead
      cases tick <;> cases isHead
  | @read shown order reading reply reads replied now =>
      subst now
      rcases Process.read_head isHead with had | ⟨isRead, rfl⟩
      · exact old had
      · rw [Task.reading_reorder, reads, Option.some.injEq] at isRead
        subst isRead
        cases replied
        exact later
  | unread now => exact old (Process.unread_head (now ▸ isHead))
  | counted now =>
      have had := Process.countServed_head now isHead
      exact old had
  | looked now => exact old (Process.portLooked_head now isHead)
  | written sends answered now => exact old (Process.written_head (now ▸ isHead))

end State

end CommunityLb
