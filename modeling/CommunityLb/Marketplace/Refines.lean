import CommunityLb.Marketplace.Opened
import CommunityLb.Marketplace.Simulation

/-!
# Every run of the world is a run of each account

One event of the world is some steps of an agreement's account, so a whole run is.
-/

namespace CommunityLb

namespace Agent

variable {agent : Agent} {agreement : EntityKey}

theorem held_admitted (agent : Agent) (other : EntityKey) (agreement : EntityKey) :
    (agent.admitted other).held agreement = agent.held agreement := by
  rw [admitted]
  split
  · rfl
  · split <;> rfl

theorem admitted_config (agent : Agent) (other : EntityKey) :
    (agent.admitted other).config = agent.config := by
  rw [admitted]
  split
  · rfl
  · split <;> rfl

/-- An expiry that memory learns counts nothing. -/
theorem held_learnExpiry (agent : Agent) (other : EntityKey) (expiresAt : Nat)
    (agreement : EntityKey) :
    (agent.learnExpiry other expiresAt).held agreement = agent.held agreement := by
  have adjusted := Keyed.get?_adjust agent.agreements other
    (fun live => { live with agreement := { live.agreement with expiresAt := expiresAt } })
    (fun _ => rfl) agreement
  refine held_congr ?_ fun _ _ => ⟨rfl, rfl⟩
  rw [learnExpiry, adjusted]
  split
  · cases agent.agreements.get? agreement <;> rfl
  · rfl

end Agent

namespace State

variable {urls : Urls} {sidecar : Identity} {me : Address} {agreement : EntityKey}
  {state next : State} {process : Process} {ok : Label → Account → Prop}

/-! ## What others do -/

/-- The chain goes on without the agreement's records. -/
theorem moves_aside (grounded : state.Grounded me) {later : Chain}
    (grows : state.chain.Grows me later) (head : later.head = state.chain.head)
    (rows : later.counters me agreement = state.chain.counters me agreement) {desk : Desk}
    {held : Option Held} :
    Relation.ReflTransGen (Account.Step ok) (state.accountWith me agreement desk held)
      ((state.moved later).accountWith me agreement desk held) := by
  have trailing := @Account.Step.trail ok (state.accountWith me agreement desk held) rfl
  have trailed : (state.moved later).accountWith me agreement desk held =
      { state.accountWith me agreement desk held with
        seen := (state.accountWith me agreement desk held).seen ++
          [(state.accountWith me agreement desk held).rows]
        dead := later.lost agreement } := by
    simp only [accountWith, State.moved, head, rows, writesOf_grows grounded.pending grows,
      List.map_append, List.map_cons, List.map_nil]
  rw [trailed]
  refine .head trailing ?_
  by_cases same : later.lost agreement = state.chain.lost agreement
  · rw [same]
    exact .refl
  · have gone : later.lost agreement = true := by
      cases before : state.chain.lost agreement with
      | false => rw [before] at same; simpa using same
      | true => exact grows.lost agreement before
    rw [gone]
    exact .single .die

/-- The chain goes on while the LB does nothing. -/
theorem Grounded.stands_by (grounded : state.Grounded me) {later : Chain}
    (grows : state.chain.Grows me later) (head : later.head = state.chain.head)
    (rows : later.counters me agreement = state.chain.counters me agreement) :
    Relation.ReflTransGen (Account.Step ok) (state.account me agreement)
      ((state.moved later).account me agreement) := by
  have moved := @moves_aside me agreement state ok grounded later grows head rows
    (state.desk me agreement) (state.held agreement)
  have desk : (state.moved later).desk me agreement = state.desk me agreement := by
    simp only [State.desk, State.moved]
    cases runs : state.process with
    | none => rfl
    | some process => exact Task.desk_grows (grounded.process process runs).task grows
  have held : (state.moved later).held agreement = state.held agreement := rfl
  rw [account, account, desk, held]
  exact moved

/-! ## The process alone -/

/-- The process goes on with the chain as it is. -/
theorem account_ran (after : Process) :
    ({ state with process := some after } : State).account me agreement =
      state.accountOf me agreement after := by
  rw [account_of me agreement rfl]
  rfl

/-- An event of the process alone. -/
theorem ran_simulates {change : Process → Option Process}
    (goes : ∀ process after, state.process = some process → change process = some after →
      Relation.ReflTransGen (Account.Step ok) (state.accountOf me agreement process)
        (state.accountOf me agreement after))
    (ran : state.ofProcess change = some next) :
    Relation.ReflTransGen (Account.Step ok) (state.account me agreement)
      (next.account me agreement) := by
  obtain ⟨after, changed, rfl⟩ := Option.map_eq_some_iff.mp ran
  obtain ⟨process, runs, changes⟩ := Option.bind_eq_some_iff.mp changed
  rw [account_of me agreement runs, account_ran]
  exact goes process after runs changes

/-- Memory changes, and holds the same of the agreement. -/
theorem accountOf_remembers {agent : Agent} (config : agent.config = process.agent.config)
    (held : agent.held agreement = process.agent.held agreement) :
    Relation.ReflTransGen (Account.Step ok) (state.accountOf me agreement process)
      (state.accountOf me agreement { process with agent := agent }) := by
  simp only [accountOf, held]
  rw [Task.desk_congr me state.chain agreement process.task config]

/-- A read that failed leaves what is at hand, or gives it up. -/
theorem unread_simulates {reading : Reading} (runs : state.process = some process)
    (reads : process.task.reading process.agent = some reading) :
    Relation.ReflTransGen (Account.Step (state.Emits sidecar.address agreement .unread))
      (state.accountOf sidecar.address agreement process)
      (state.accountOf sidecar.address agreement process.unread) := by
  have isReading := reads
  rw [Process.unread]
  split
  case h_2 task => exact accountOf_still (by rw [task]; rfl) (Task.desk_afterAgreementsError _ _) rfl
  case h_3 task => exact accountOf_still (by rw [task]; rfl) (Task.desk_afterAgreementsError _ _) rfl
  case h_4 task => exact accountOf_still (by rw [task]; rfl) (Task.desk_afterAgreementsError _ _) rfl
  case h_6 task => exact accountOf_still (by rw [task]; rfl) (Task.desk_afterFlush _) rfl
  case h_7 task => exact accountOf_still (by rw [task]; rfl) (Task.desk_afterCountersError _ _ _) rfl
  case h_8 task => exact accountOf_still (by rw [task]; rfl) (Task.desk_afterCountersError _ _ _) rfl
  case h_9 work head opened duplicates missing closed task =>
    have here := account_of sidecar.address agreement runs
    have atHand : (state.desk sidecar.address agreement).reading = true := by
      rw [desk_of sidecar.address agreement runs, task]
      rfl
    have allowed : state.Emits sidecar.address agreement .unread .giveUp
        (state.account sidecar.address agreement) := .giveUp atHand
    rw [here] at allowed
    have given := Account.Step.giveUp allowed
    refine .single ?_
    simp only [accountOf, Task.desk_afterCountersError]
    exact given
  case h_12 task =>
    refine accountOf_still (by rw [task]; rfl) ?_ rfl
    rw [Task.desk_afterRefresh, writesOf_asQueue, refreshBatch_writes]
  case h_15 => exact .refl
  all_goals
    next task => exact accountOf_still (by rw [task]; rfl) rfl rfl

/-- Memory and the requests served change, and nothing else. -/
theorem account_serves (me : Address) (agreement : EntityKey) (state : State) (process : Process)
    (agent : Agent) {served : List EntityKey}
    (config : agent.config = process.agent.config) :
    State.account me agreement
      { state with
        process := some { process with agent := agent }
        served := served } =
      { state.accountOf me agreement process with
        held := agent.held agreement
        log := served.count agreement } := by
  have desk := Task.desk_congr me state.chain agreement process.task config
  simp only [account, accountOf, accountWith, State.desk, State.held, Option.bind_some, desk]

/-- A request is served, by an entry of the agreement or by another. -/
theorem Grounded.serve_simulates (grounded : state.Grounded sidecar.address) {handle : Handle}
    (served : state.serve handle = some next) :
    Relation.ReflTransGen
      (Account.Step (state.Emits sidecar.address agreement (.serve handle)))
      (state.account sidecar.address agreement) (next.account sidecar.address agreement) := by
  simp only [State.serve, Option.bind_eq_bind, Option.bind_eq_some_iff] at served
  obtain ⟨process, runs, provider, entry, served⟩ := served
  cases served
  have here := account_of sidecar.address agreement runs
  have counted := (grounded.process process runs).agent.held_served agreement entry
  refine (account_serves sidecar.address agreement state process
    { process.agent with
      pool := process.agent.pool.modify handle Provider.recordServed } rfl).symm ▸ ?_
  rw [here]
  cases source : provider.source with
  | static =>
      have unchanged := counted.resolve_right (by simp [source])
      rw [unchanged]
      exact .refl
  | marketplace address other port =>
      by_cases own : other = agreement
      · subst own
        have allowed : state.Emits sidecar.address other (.serve handle) .serve
            (state.account sidecar.address other) := .serve runs entry source
        rw [here] at allowed
        rw [List.count_cons_self]
        rcases counted with unchanged | ⟨_, held, isHeld, grown⟩
        · rw [unchanged]
          exact .single .serveLate
        · rw [grown]
          exact .single (.serve isHeld allowed)
      · have unchanged := counted.resolve_right (by simp [source, own])
        rw [unchanged, List.count_cons_of_ne own]
        exact .refl

/-- The agreement's records stay through the blocks sealed, or the event is for one that expires. -/
theorem stays_or_expires (event : Event) {count : Nat} (sealed : event.sealed = count) :
    (state.chain.advance count).counters me agreement = state.chain.counters me agreement ∨
      ∀ account, state.Emits me agreement event .expire account := by
  subst sealed
  by_cases stays : (state.chain.advance event.sealed).counters me agreement =
      state.chain.counters me agreement
  · exact .inl stays
  · exact .inr fun _ => .expire stays

/-- An admission's extend is answered. -/
theorem Grounded.admission_simulates (grounded : state.Grounded sidecar.address) {index : Nat}
    {answer : WriteAnswer} (sent : state.admissionSent sidecar index answer = some next) :
    Relation.ReflTransGen
      (Account.Step (state.Emits sidecar.address agreement (.admission index answer)))
      (state.account sidecar.address agreement) (next.account sidecar.address agreement) := by
  simp only [State.admissionSent, Option.bind_eq_bind, Option.bind_eq_some_iff] at sent
  obtain ⟨process, runs, task, _, sent⟩ := sent
  split at sent
  · cases sent
  · obtain ⟨⟨middle, result⟩, answered, sent⟩ := Option.bind_eq_some_iff.mp sent
    cases sent
    have now := grounded.process process runs
    obtain ⟨_, _, grows, _⟩ := grounded.send (by simp [Operation.Sane]) answered
    have known := grounded.known agreement runs
    have moved : Relation.ReflTransGen
        (Account.Step (state.Emits sidecar.address agreement (.admission index answer)))
        (state.accountOf sidecar.address agreement process)
        (middle.accountOf sidecar.address agreement process) := by
      simp only [accountOf, Task.desk_grows now.task grows]
      cases answer with
      | landed fates keys =>
          exact grounded.sent_aside answered known (stays_or_expires (.admission index _) rfl)
      | failed error lost =>
          rw [failed_aside answered rfl]
    rw [account_of sidecar.address agreement runs, account_ran]
    refine moved.trans (accountOf_remembers ?_ ?_)
    · split
      · split <;> rfl
      · rfl
    · split
      · split <;> rfl
      · rfl

/-- A write of the task's is answered. -/
theorem Grounded.write_simulates (grounded : state.Grounded sidecar.address) {answer : WriteAnswer}
    (answered : state.writeAnswered sidecar answer = some next) :
    Relation.ReflTransGen
      (Account.Step (state.Emits sidecar.address agreement (.write answer)))
      (state.account sidecar.address agreement) (next.account sidecar.address agreement) := by
  simp only [State.writeAnswered, Option.bind_eq_bind, Option.bind_eq_some_iff] at answered
  obtain ⟨process, runs, batch, sends, ⟨middle, result⟩, sent, answered⟩ := answered
  cases answered
  rw [account_of sidecar.address agreement runs, account_ran]
  refine grounded.writes runs sends sent ⟨?_, ?_⟩ ?_
  · rintro fates keys rfl
    exact stays_or_expires (.write _) rfl
  · rintro error lost rfl whole account
    exact .fail runs sends whole
  · rintro discovery offer port task fates rfl account
    exact .accept runs task

/-- Blocks are sealed. -/
theorem Grounded.seal_simulates (grounded : state.Grounded sidecar.address) {count : Nat}
    {fates : List (Option (List EntityKey))}
    (sealed : state.sealBlocks sidecar count fates = some next) :
    Relation.ReflTransGen
      (Account.Step (state.Emits sidecar.address agreement (.sealBlocks count fates)))
      (state.account sidecar.address agreement) (next.account sidecar.address agreement) := by
  obtain ⟨⟨chain, pending⟩, settled, rfl⟩ := Option.map_eq_some_iff.mp sealed
  have follows := (grounded.follows (count + 1)).settle grounded.pending settled
  have known : (state.account sidecar.address agreement).Known state.chain := by
    cases runs : state.process with
    | none =>
        rw [account_off runs]
        exact grounded.knownWith agreement (by simp [Desk.mentions]) (by simp)
    | some process =>
        rw [account_of sidecar.address agreement runs]
        exact grounded.known agreement runs
  have desk : ({ state.moved chain with pending := pending } : State).desk sidecar.address agreement =
      state.desk sidecar.address agreement := by
    simp only [State.desk, State.moved]
    cases runs : state.process with
    | none => rfl
    | some process => exact Task.desk_grows (grounded.process process runs).task follows.grows
  have sealing := grounded.seals (Nat.succ_pos count) settled known
    (stays_or_expires (.sealBlocks count fates) rfl)
  have filled : Relation.ReflTransGen
      (Account.Step (state.Emits sidecar.address agreement (.sealBlocks count fates))) _ _ :=
    fills sidecar.address agreement { state.moved chain with pending := pending }
      (state.chain.lost agreement) (state.desk sidecar.address agreement) (state.held agreement)
      (follows.grows.lost agreement)
  rw [account, account, desk]
  exact sealing.trans filled

/-- Every event is some steps of an agreement's account, each that the event is for. -/
theorem Grounded.step_simulates (grounded : state.Grounded sidecar.address)
    (opened : state.ReadsOpen) {event : Event}
    (stepped : state.step urls sidecar event = some next) :
    Relation.ReflTransGen (Account.Step (state.Emits sidecar.address agreement event))
      (state.account sidecar.address agreement) (next.account sidecar.address agreement) := by
  cases event with
  | sealBlocks count fates => exact grounded.seal_simulates stepped
  | catchUp count =>
      cases stepped
      have caught := @Account.Step.catchUp (state.Emits sidecar.address agreement (.catchUp count))
        (state.account sidecar.address agreement) count
      refine .single ?_
      simpa [account, accountWith, State.desk, State.held, List.map_drop] using caught
  | post offer =>
      simp only [State.step] at stepped
      split at stepped
      · next fits =>
          cases stepped
          have free : state.chain.entities.get? ({ offer with
              createdAt := state.chain.head
              record := .offer offer.record } : Stored Record).key = none := by
            simpa using fits.1
          refine grounded.stands_by (grounded.post free fits.2).grows rfl ?_
          rw [Chain.counters_insert free]
          simp [Chain.entryOf, Record.asCounter]
      · cases stepped
  | withdraw offer =>
      simp only [State.step] at stepped
      split at stepped
      · next fits =>
          cases stepped
          obtain ⟨row, found, other⟩ := (Option.any_eq_true _ _).mp fits
          have known : (state.chain.entities.get? offer).isSome := by
            rw [found]
            rfl
          refine grounded.stands_by (grounded.withdraw known).grows rfl ?_
          refine List.filterMap_congr fun each member => ?_
          by_cases same : each.key = offer
          · obtain rfl : each = row :=
              Keyed.eq_of_mem member (Keyed.get?_eq_some.mp found).1
                (same.trans (Keyed.get?_eq_some.mp found).2.symm)
            have others : each.creator ≠ sidecar.address := by simpa using other
            simp [Chain.entryOf, others]
          · have alive : ({ state.chain with gone := offer :: state.chain.gone } : Chain).alive each =
                state.chain.alive each := by
              simp [Chain.alive, same]
            exact Chain.entryOf_congr alive rfl rfl rfl rfl
      · cases stepped
  | launch config =>
      simp only [State.step] at stepped
      split at stepped
      · next off _ _ =>
          cases stepped
          rw [account_off off, account_ran]
          exact .refl
      · cases stepped
  | crash =>
      obtain ⟨_, _, rfl⟩ := Option.map_eq_some_iff.mp stepped
      exact .single (.quit .quit)
  | serve handle => exact grounded.serve_simulates stepped
  | gate handle gate value =>
      refine ran_simulates (fun process after _ changed => ?_) stepped
      cases changed
      exact accountOf_remembers rfl (Agent.held_modify_keeps handle fun _ => ⟨rfl, rfl⟩)
  | admitted other =>
      refine ran_simulates (fun process after _ changed => ?_) stepped
      cases changed
      exact accountOf_remembers (Agent.admitted_config _ _) (Agent.held_admitted _ _ _)
  | admission index answer => exact grounded.admission_simulates stepped
  | learn index =>
      refine ran_simulates (fun process after _ changed => ?_) stepped
      simp only [admissionAnswered, Option.bind_eq_bind, Option.bind_eq_some_iff] at changed
      obtain ⟨task, _, expiresAt, _, changed⟩ := changed
      cases changed
      exact accountOf_remembers rfl (Agent.held_learnExpiry process.agent task.agreement expiresAt _)
  | endAdmission index =>
      refine ran_simulates (fun process after _ changed => ?_) stepped
      simp only [Option.bind_eq_bind, Option.bind_eq_some_iff] at changed
      obtain ⟨_, _, changed⟩ := changed
      split at changed <;> cases changed
      exact .refl
  | tick tick =>
      refine ran_simulates (fun process after _ changed => ?_) stepped
      split at changed
      · next task =>
          cases changed
          exact accountOf_still (by rw [task]; rfl) (by cases tick <;> rfl) rfl
      · cases changed
  | read shown order =>
      simp only [State.step, State.readAnswered, Option.bind_eq_bind,
        Option.bind_eq_some_iff] at stepped
      obtain ⟨process, runs, reading, reads, reply, replied, stepped⟩ := stepped
      cases stepped
      rw [account_of sidecar.address agreement runs, account_ran]
      exact grounded.reads runs reads replied
  | unread =>
      refine ran_simulates (fun process after runs changed => ?_) stepped
      obtain ⟨reading, reads, rfl⟩ := Option.map_eq_some_iff.mp changed
      exact unread_simulates runs reads
  | countServed order =>
      refine ran_simulates (fun process after runs changed => ?_) stepped
      have now := grounded.process process runs
      have remembers := @accountOf_remembers sidecar.address agreement state process
        (state.Emits sidecar.address agreement (.countServed order))
        { process.agent with agreements := process.agent.agreements.reorder order } rfl
        (Agent.held_reorder process.agent order _)
      refine remembers.trans ?_
      have isCounting := changed
      simp only [Process.countServed] at isCounting
      split at isCounting
      · next kind head counters task =>
          have same := now.remember (now.agent.reorder order) fun _ => by simp
          have read := same.task
          have isOpen := opened process runs
          simp only [task] at read isOpen
          exact counts_served same.agent task read
            (fun stored member => isOpen stored (List.mem_append_left _ member)) changed
      · cases isCounting
  | portLooked isBound =>
      refine ran_simulates (fun process after _ changed => ?_) stepped
      simp only [Process.portLooked] at changed
      split at changed
      · next task =>
          cases changed
          split
          · split
            · exact accountOf_still (by rw [task]; rfl) rfl rfl
            · exact accountOf_still (by rw [task]; rfl) rfl rfl
          · exact accountOf_still (by rw [task]; rfl) rfl rfl
      · cases changed
  | write answer => exact grounded.write_simulates stepped

end State

end CommunityLb
