import CommunityLb.Marketplace.Expiry

/-!
# One agreement a provider

A poll's discovery does not accept an offer of a provider that has an agreement, and a page does not
adopt a second agreement of one.  So memory has one agreement a provider, and an entry's id tells
whose it is.
-/

namespace CommunityLb

namespace Discovery

/-- The discovery with an offer it has looked at still to be looked at. -/
def putBack (discovery : Discovery) (offer : Stored Offer) : Discovery :=
  { discovery with offers := offer :: discovery.offers }

/-- What a discovery keeps as it goes on. -/
structure Lasting (fits : Discovery → Prop) : Prop where
  left : ∀ discovery rest, rest <:+ discovery.offers → fits discovery →
    fits { discovery with offers := rest }
  skipPort : ∀ discovery port, fits discovery → fits (discovery.skipPort port)
  hold : ∀ discovery offer port, fits discovery → fits (discovery.hold offer port)

/-- The next offer is one of those left, of no provider that has an agreement. -/
theorem seek_eq {ports : List Nat} {discovery found : Discovery} {offers : List (Stored Offer)}
    {offer : Stored Offer} {port : Nat}
    (sought : discovery.seek ports offers = some (found, offer, port)) :
    ∃ rest, (offer :: rest) <:+ offers ∧ found = { discovery with offers := rest } ∧
      offer.creator ∉ discovery.acceptedProviders := by
  induction offers with
  | nil => cases sought
  | cons first later ih =>
      rw [seek] at sought
      split at sought
      · obtain ⟨rest, suffix, same⟩ := ih sought
        exact ⟨rest, suffix.trans (List.suffix_cons first later), same⟩
      · next looks =>
          obtain ⟨_, _, same⟩ := Option.map_eq_some_iff.mp sought
          cases same
          push Not at looks
          exact ⟨later, List.suffix_refl _, rfl, looks.2.2⟩

end Discovery

/-- A discovery under way fits, the offer under acceptance included. -/
def Task.Fits (fits : Discovery → Prop) : Task → Prop
  | portProbe discovery offer _ | acceptAgreement discovery offer _ =>
      fits (discovery.putBack offer) ∧ offer.creator ∉ discovery.acceptedProviders
  | acceptCounter discovery offer port _ => fits ((discovery.putBack offer).hold offer port)
  | _ => True

section Fits

variable {fits : Discovery → Prop}

@[simp]
theorem Task.fits_afterFlush (kind : Flush) : (Task.afterFlush kind).Fits fits := by
  cases kind <;> trivial

@[simp]
theorem Task.fits_afterAgreementsError (work : Work) (error : ReconcileError) :
    (Task.afterAgreementsError work error).Fits fits := by
  rcases work with _ | _ | _ | _ <;> cases error <;> trivial

@[simp]
theorem Task.fits_afterCountersError (work : Work) (head : Nat) (error : ReconcileError) :
    (Task.afterCountersError work head error).Fits fits := by
  rcases work with _ | _ | _ | _ <;> cases error <;> trivial

@[simp]
theorem Task.fits_afterCounters (work : Work) (head : Nat) (counters : Counters) :
    (Task.afterCounters work head counters).Fits fits := by
  cases work <;> trivial

@[simp]
theorem Task.fits_afterEnded (work : Work) (head : Nat) (queue : List Batch) :
    (Task.afterEnded work head queue).Fits fits := by
  rw [Task.afterEnded]
  split <;> trivial

@[simp]
theorem Task.fits_afterSuccessors (kind : Flush) (queue : List Batch) :
    (Task.afterSuccessors kind queue).Fits fits := by
  rw [Task.afterSuccessors]
  split
  · simp
  · trivial

@[simp]
theorem Task.fits_afterRefresh (queue : List Batch) : (Task.afterRefresh queue).Fits fits := by
  rw [Task.afterRefresh]
  split <;> trivial

namespace Process

variable {before after : Process} {sidecar : Identity} {state : State} {event : Event}

@[simp]
theorem fits_afterCounts (process : Process) (kind : Flush) (head : Nat) (closing : List Closing)
    (queue : List Batch) (patched : List EntityKey) :
    (process.afterCounts kind head closing queue patched).task.Fits fits := by
  simp only [afterCounts]
  split
  · simp
  · trivial

theorem fits_afterOffer (lasting : Discovery.Lasting fits) (process : Process)
    {discovery : Discovery} (fitting : fits discovery) :
    (process.afterOffer discovery).task.Fits fits := by
  rw [afterOffer]
  split
  · next found =>
      obtain ⟨rest, suffix, rfl, free⟩ := Discovery.seek_eq found
      exact ⟨lasting.left discovery _ suffix fitting, free⟩
  · trivial

/-- The offers still to be looked at fit without the one looked at. -/
theorem fits_rest (lasting : Discovery.Lasting fits) {discovery : Discovery}
    {offer : Stored Offer} (fitting : fits (discovery.putBack offer)) : fits discovery :=
  lasting.left (discovery.putBack offer) discovery.offers (List.suffix_cons _ _) fitting

theorem fits_read (lasting : Discovery.Lasting fits) {process : Process} {order : List EntityKey}
    {reply : Reply} (fitting : process.task.Fits fits)
    (fresh : ∀ head rows, process.task = .offers head → reply = .rows rows →
      fits (process.agent.discover head rows)) :
    (process.read order reply).task.Fits fits := by
  unfold read
  split
  case h_3 => split <;> first | exact Task.fits_afterAgreementsError _ _ | trivial
  case h_4 => exact Task.fits_afterEnded _ _ _
  case h_7 => split <;> first | exact Task.fits_afterCountersError _ _ _ | trivial
  case h_8 =>
    simp only [openCountersRead]
    split
    · exact Task.fits_afterCounters _ _ _
    · trivial
  case h_9 =>
    split
    · exact Task.fits_afterCounters _ _ _
    · trivial
  case h_10 head rows task => exact fits_afterOffer lasting process (fresh head rows task rfl)
  case h_12 => exact Task.fits_afterRefresh _
  case h_14 =>
    rw [ensureListing]
    split
    · trivial
    · split <;> trivial
  case h_15 => exact fitting
  all_goals trivial

theorem fits_unread {process : Process} (fitting : process.task.Fits fits) :
    process.unread.task.Fits fits := by
  unfold unread
  split <;> first | exact fitting | trivial | simp

theorem fits_written (lasting : Discovery.Lasting fits) {process : Process}
    {result : Except WriteError BatchResult} (fitting : process.task.Fits fits) :
    (process.written result).task.Fits fits := by
  unfold written
  split
  case h_5 discovery offer port task =>
    rw [task] at fitting
    unfold agreementWritten
    split
    · split
      · exact lasting.hold _ offer port fitting.1
      · exact fits_afterOffer lasting process (fits_rest lasting fitting.1)
    · exact fits_afterOffer lasting process
        (lasting.hold _ offer port (fits_rest lasting fitting.1))
    · exact fits_afterOffer lasting process (fits_rest lasting fitting.1)
  case h_6 discovery offer port agreement task =>
    rw [task] at fitting
    exact fits_afterOffer lasting _
      (lasting.left _ discovery.offers (List.suffix_cons offer discovery.offers) fitting)
  case h_7 =>
    split
    · split <;> trivial
    · trivial
  case h_8 => split <;> trivial
  case h_9 => exact fitting
  all_goals simp

theorem fits_portLooked (lasting : Discovery.Lasting fits) {process : Process} {isBound : Bool}
    (looked : process.portLooked isBound = some after) (fitting : process.task.Fits fits) :
    after.task.Fits fits := by
  rw [portLooked] at looked
  split at looked
  · next task =>
      cases looked
      rw [task] at fitting
      split
      · simp only
        split
        · exact ⟨lasting.skipPort _ _ fitting.1, fitting.2⟩
        · trivial
      · exact fitting
  · cases looked

/-- A discovery fits as long as it goes on, when it does as its offers are read. -/
theorem Next.task_fits (lasting : Discovery.Lasting fits) (goes : before.Next sidecar state after event)
    (fitting : before.task.Fits fits)
    (fresh : ∀ order head rows shown, before.task = .offers head →
      state.view.page (before.agent.offersQuery head) shown = some rows →
        fits (Agent.discover
          { before.agent with agreements := before.agent.agreements.reorder order } head rows)) :
    after.task.Fits fits := by
  cases goes with
  | stays task => exact task ▸ fitting
  | @tick tick task =>
      rw [task]
      cases tick <;> trivial
  | @read shown order reading reply reads replied now =>
      subst now
      refine fits_read lasting fitting fun head rows task isRows => ?_
      have task : before.task = .offers head := task
      simp only [Task.reading, task, Option.some.injEq] at reads
      subst reads isRows
      obtain ⟨rows, page, same⟩ := Option.map_eq_some_iff.mp replied
      cases same
      exact fresh order head rows shown task page
  | unread now => exact now ▸ fits_unread fitting
  | counted now =>
      simp only [countServed] at now
      split at now
      · cases now
        exact fits_afterCounts _ _ _ _ _ _
      · cases now
  | looked now => exact fits_portLooked lasting now fitting
  | written sends answered now => exact now ▸ fits_written lasting fitting

end Process

/-- A discovery that fits one way fits another. -/
theorem Task.Fits.mono {other : Discovery → Prop} {task : Task} (fitting : task.Fits fits)
    (le : ∀ discovery, fits discovery → other discovery) : task.Fits other := by
  cases task with
  | portProbe discovery offer port => exact ⟨le _ fitting.1, fitting.2⟩
  | acceptAgreement discovery offer port => exact ⟨le _ fitting.1, fitting.2⟩
  | acceptCounter discovery offer port agreement => exact le _ fitting
  | _ => trivial

end Fits

/-! ## Memory -/

namespace Agent

/-- The providers memory has agreements of are all ones the discovery accepts none of. -/
def Covers (agent : Agent) (discovery : Discovery) : Prop :=
  ∀ key stored handle, agent.stands key = some (stored, handle) →
    stored.record.provider ∈ discovery.acceptedProviders

theorem covers_lasting (agent : Agent) : Discovery.Lasting agent.Covers where
  left _ _ _ covers := covers
  skipPort _ _ covers := covers
  hold _ _ _ covers key stored handle stands :=
    List.mem_cons_of_mem _ (covers key stored handle stands)

theorem covers_discover (agent : Agent) (head : Nat) (rows : List (Stored Record)) :
    agent.Covers (agent.discover head rows) := by
  intro key stored handle stands
  obtain ⟨live, member, _, rfl, _⟩ := stands_eq_some.mp stands
  exact List.mem_map_of_mem member

/-- Each agreement in memory is one on the chain, its provider's only one, and its entry has its
provider's id. -/
structure Housed (me : Address) (chain : Chain) (agent : Agent) : Prop where
  self : agent.identity.address = me
  row : ∀ key stored handle, agent.stands key = some (stored, handle) →
    ∃ row, chain.entities.get? key = some row ∧ row.creator = me ∧
      row.record.asAgreement = some stored.record
  entry : ∀ key stored handle, agent.stands key = some (stored, handle) →
    agent.entryId handle = some (marketplaceId stored.record.provider)
  alone : ∀ key stored handle other stored' handle', agent.stands key = some (stored, handle) →
    agent.stands other = some (stored', handle') →
      stored.record.provider = stored'.record.provider → key = other

variable {me : Address} {chain later : Chain} {agent after : Agent}

theorem Housed.stays (housed : agent.Housed me chain) (stays : chain.Stays later) :
    agent.Housed me later where
  self := housed.self
  row key stored handle stands := by
    obtain ⟨row, found, creator, record⟩ := housed.row key stored handle stands
    obtain ⟨now, isNow, became⟩ := stays.row key row found
    exact ⟨now, isNow, became.creator.trans creator, became.agreement.trans record⟩
  entry := housed.entry
  alone := housed.alone

theorem Housed.retains (housed : agent.Housed me chain) (retains : agent.Retains after) :
    after.Housed me chain where
  self := retains.identity ▸ housed.self
  row key stored handle stands := housed.row key stored handle (retains.stands key ▸ stands)
  entry key stored handle stands :=
    (retains.entryId handle).trans (housed.entry key stored handle (retains.stands key ▸ stands))
  alone key stored handle other stored' handle' stands stands' :=
    housed.alone key stored handle other stored' handle' (retains.stands key ▸ stands)
      (retains.stands other ▸ stands')

/-- What memory has less is as it was. -/
theorem Housed.less (housed : agent.Housed me chain) (self : after.identity = agent.identity)
    (entries : ∀ handle, after.entryId handle = agent.entryId handle)
    (part : ∀ key stored handle, after.stands key = some (stored, handle) →
      ∃ held, agent.stands key = some (held, handle) ∧ held.record = stored.record) :
    after.Housed me chain where
  self := self ▸ housed.self
  row key stored handle stands := by
    obtain ⟨held, isHeld, same⟩ := part key stored handle stands
    exact same ▸ housed.row key held handle isHeld
  entry key stored handle stands := by
    obtain ⟨held, isHeld, same⟩ := part key stored handle stands
    exact (entries handle).trans (same ▸ housed.entry key held handle isHeld)
  alone key stored handle other stored' handle' stands stands' sameProvider := by
    obtain ⟨held, isHeld, same⟩ := part key stored handle stands
    obtain ⟨held', isHeld', same'⟩ := part other stored' handle' stands'
    exact housed.alone key held handle other held' handle' isHeld isHeld'
      (by rw [same, same']; exact sameProvider)

theorem entryId_insertAgreement {stored : Stored Agreement} {handle : Handle} {id : String}
    (isEntry : agent.entryId handle = some id) :
    (agent.insertAgreement stored).entryId handle = some id := by
  obtain ⟨provider, found, rfl⟩ := Option.map_eq_some_iff.mp isEntry
  exact congrArg (Option.map (·.id)) (Pool.entryAt_add_of_some _ found)

/-- A first agreement of a provider joins. -/
theorem Housed.insertAgreement (housed : agent.Housed me chain) {stored : Stored Agreement}
    (isRow : ∃ row, chain.entities.get? stored.key = some row ∧ row.creator = me ∧
      row.record.asAgreement = some stored.record)
    (first : ∀ key held handle, agent.stands key = some (held, handle) →
      held.record.provider ≠ stored.record.provider) :
    (agent.insertAgreement stored).Housed me chain := by
  have cases_ : ∀ key held handle,
      (agent.insertAgreement stored).stands key = some (held, handle) →
      (key = stored.key ∧ held = stored ∧ handle = agent.pool.entries.length) ∨
        agent.stands key = some (held, handle) := by
    intro key held handle stands
    rw [stands_insertAgreement] at stands
    split at stands
    · next same =>
        cases stands
        exact .inl ⟨same, rfl, rfl⟩
    · exact .inr stands
  refine ⟨housed.self, fun key held handle stands => ?_, fun key held handle stands => ?_,
    fun key held handle other held' handle' stands stands' same => ?_⟩
  · rcases cases_ key held handle stands with ⟨rfl, rfl, _⟩ | old
    · exact isRow
    · exact housed.row key held handle old
  · rcases cases_ key held handle stands with ⟨rfl, rfl, rfl⟩ | old
    · exact congrArg (Option.map (·.id)) (Pool.entryAt_add_new agent.pool _)
    · exact entryId_insertAgreement (housed.entry key held handle old)
  · rcases cases_ key held handle stands with ⟨rfl, rfl, rfl⟩ | old
    · rcases cases_ other held' handle' stands' with ⟨rfl, _, _⟩ | old'
      · rfl
      · exact absurd same.symm (first other held' handle' old')
    · rcases cases_ other held' handle' stands' with ⟨rfl, rfl, rfl⟩ | old'
      · exact absurd same (first key held handle old)
      · exact housed.alone key held handle other held' handle' old old' same

theorem Housed.adoptAgreement (housed : agent.Housed me chain) {stored : Stored Agreement}
    (isRow : ∃ row, chain.entities.get? stored.key = some row ∧ row.creator = me ∧
      row.record.asAgreement = some stored.record) :
    (agent.adoptAgreement stored).Housed me chain := by
  rw [Agent.adoptAgreement]
  split
  · next live found =>
      refine housed.less rfl (fun _ => rfl) fun key now handle stands => ?_
      have adopted := stands_adoptAgreement agent stored key
      rw [Agent.adoptAgreement, found] at adopted
      have stands := adopted.symm.trans stands
      split at stands
      · next same =>
          subst same
          split at stands
          · next held handle found =>
              cases stands
              exact ⟨held, found, rfl⟩
          · next none_ =>
              rw [Agent.stands, found] at none_
              cases none_
      · exact ⟨now, stands, rfl⟩
  · split
    · exact housed
    · next first =>
        refine housed.insertAgreement isRow fun key held handle stands same => first ?_
        obtain ⟨live, member, _, rfl, _⟩ := stands_eq_some.mp stands
        exact List.any_eq_true.mpr ⟨live, member, by simpa using same⟩

theorem Housed.adoptAgreements (housed : agent.Housed me chain) {live : List (Stored Agreement)}
    (rows : ∀ stored ∈ live, ∃ row, chain.entities.get? stored.key = some row ∧
      row.creator = me ∧ row.record.asAgreement = some stored.record) :
    (agent.adoptAgreements live).Housed me chain := by
  rw [Agent.adoptAgreements]
  induction live generalizing agent with
  | nil => exact housed
  | cons stored live ih =>
      rw [List.forall_mem_cons] at rows
      exact ih (housed.adoptAgreement rows.1) rows.2

theorem entryId_endAgreements (agent : Agent) (live : List EntityKey) (handle : Handle) :
    (agent.endAgreements live).1.entryId handle = agent.entryId handle ∧
      (agent.endAgreements live).1.identity = agent.identity := by
  have folded : ∀ (gone : List Live) (agent : Agent),
      (gone.foldl endAgreement agent).entryId handle = agent.entryId handle ∧
        (gone.foldl endAgreement agent).identity = agent.identity := by
    intro gone
    induction gone with
    | nil => exact fun agent => ⟨rfl, rfl⟩
    | cons ending gone ih => exact fun agent => ih (agent.endAgreement ending)
  exact folded _ agent

theorem Housed.endAgreements (housed : agent.Housed me chain) (live : List EntityKey) :
    (agent.endAgreements live).1.Housed me chain := by
  refine housed.less (agent.entryId_endAgreements live 0).2
    (fun handle => (agent.entryId_endAgreements live handle).1) fun key stored handle stands => ?_
  rw [stands_endAgreements] at stands
  split at stands
  · exact ⟨stored, stands, rfl⟩
  · cases stands

end Agent

namespace State

/-- Memory has one agreement a provider, and what a discovery under way may accept is of no provider
that has one. -/
structure Housed (me : Address) (state : State) : Prop where
  abreast : state.Abreast
  agent : ∀ process ∈ state.process, process.agent.Housed me state.chain
  task : ∀ process ∈ state.process, process.task.Fits process.agent.Covers

variable {urls : Urls} {sidecar : Identity} {state next : State}

theorem Origin.housed (origin : state.Origin) (me : Address) : state.Housed me where
  abreast := origin.abreast
  agent := by simp [origin.process]
  task := by simp [origin.process]

theorem Housed.step {event : Event} (housed : state.Housed sidecar.address)
    (stepped : state.step urls sidecar event = some next) : next.Housed sidecar.address := by
  have stays := (step_advances stepped).stays
  refine ⟨housed.abreast.step stepped, fun process isThere => ?_, fun process isThere => ?_⟩
  · cases step_turn stepped with
    | off gone =>
        rw [gone] at isThere
        cases isThere
    | launch given now =>
        cases now.symm.trans isThere
        exact ⟨rfl, by rintro _ _ _ ⟨⟩, by rintro _ _ _ ⟨⟩, by rintro _ _ _ _ _ _ ⟨⟩⟩
    | retains was now retains =>
        cases now.symm.trans isThere
        exact ((housed.agent _ was).retains retains).stays stays
    | @page before work head shown order rows was task page now chain =>
        cases now.symm.trans isThere
        have reordered := (housed.agent before was).retains (.reorder before.agent order)
        refine chain.symm ▸ (reordered.endAgreements _).adoptAgreements fun stored member => ?_
        obtain ⟨row, inRows, decoded⟩ := List.mem_filterMap.mp (mem_oldestFirst.mp member)
        obtain ⟨record, isAgreement, rfl⟩ := Option.map_eq_some_iff.mp decoded
        obtain ⟨now, isNow, became⟩ := housed.abreast.trails.shown page inRows
        have admits := (Chain.page_mem page inRows).2.2
        have creator : row.creator = sidecar.address := by
          simp only [Query.admits, Agent.agreementsQuery, Bool.and_eq_true] at admits
          have mine := admits.1.1.1.1.1.2
          rw [← (housed.agent before was).self]
          simpa using mine
        exact ⟨now, isNow, became.creator.trans creator, became.agreement.trans isAgreement⟩
    | @accept before discovery offer port key fates keys was task later free row now =>
        cases now.symm.trans isThere
        have fitting := housed.task before was
        rw [task] at fitting
        refine ((housed.agent before was).stays stays).insertAgreement ⟨_, row, rfl, rfl⟩ ?_
        intro other held handle stands same
        have covered := fitting.1 other held handle stands
        rw [same] at covered
        exact fitting.2 covered
    | @extend before index task row fates keys was runs isRow expires now =>
        cases now.symm.trans isThere
        have waits : (before.agent.awaitAnswer index
            (next.chain.head + blocks before.agent.config.agreementLife)).Housed sidecar.address
              state.chain :=
          (housed.agent before was).less rfl (fun _ => rfl)
            fun key stored handle stands => ⟨stored, stands, rfl⟩
        exact waits.stays stays
    | @learn before index task expiresAt was runs answer now chain =>
        cases now.symm.trans isThere
        have learns : ((before.agent.learnExpiry task.agreement expiresAt).endAdmission
            index).Housed sidecar.address state.chain := by
          refine (housed.agent before was).less rfl (fun _ => rfl)
            fun key stored handle stands => ?_
          have stands : (before.agent.learnExpiry task.agreement expiresAt).stands key =
            some (stored, handle) := stands
          rw [stands_learnExpiry] at stands
          split at stands
          · obtain ⟨held, isHeld, same⟩ := Option.map_eq_some_iff.mp stands
            cases same
            exact ⟨held.1, isHeld, rfl⟩
          · exact ⟨stored, stands, rfl⟩
        exact learns.stays stays
  · rcases step_next stepped isThere with ⟨_, config, section_, _, _, _, rfl⟩ | ⟨before, was, goes⟩
    · trivial
    have fitting : process.task.Fits before.agent.Covers :=
      goes.task_fits before.agent.covers_lasting (housed.task before was)
        fun order head rows shown task page key stored handle stands => by
          refine Agent.covers_discover _ head rows key stored handle ?_
          exact ((Agent.Retains.reorder before.agent order).stands key).trans stands
    cases step_turn stepped with
    | off gone =>
        rw [gone] at isThere
        cases isThere
    | launch given now =>
        cases now.symm.trans isThere
        trivial
    | retains was' now retains =>
        cases was.symm.trans was'
        cases now.symm.trans isThere
        refine fitting.mono fun discovery covers key stored handle stands => ?_
        exact covers key stored handle (retains.stands key ▸ stands)
    | page was' task page now chain =>
        cases now.symm.trans isThere
        exact Task.fits_afterEnded _ _ _
    | @accept _ discovery offer port key fates keys was' task later free row now =>
        cases was.symm.trans was'
        cases now.symm.trans isThere
        intro other held handle stands
        rw [Agent.stands_insertAgreement] at stands
        split at stands
        · cases stands
          exact List.mem_cons_self
        · exact fitting other held handle stands
    | extend was' runs isRow expires now =>
        cases was.symm.trans was'
        cases now.symm.trans isThere
        exact fitting
    | @learn _ index task expiresAt was' runs answer now chain =>
        cases was.symm.trans was'
        cases now.symm.trans isThere
        refine fitting.mono fun discovery covers key stored handle stands => ?_
        have stands : (before.agent.learnExpiry task.agreement expiresAt).stands key =
          some (stored, handle) := stands
        rw [stands_learnExpiry] at stands
        split at stands
        · obtain ⟨held, isHeld, same⟩ := Option.map_eq_some_iff.mp stands
          cases same
          exact covers key held.1 held.2 isHeld
        · exact covers key stored handle stands

end State

end CommunityLb
