import CommunityLb.Marketplace.Starts

/-!
# One listing for every start

The first start that succeeds returns a listing key.  Every later one finds the same listing, as long
as no older one of the LB was on its way to the chain when the first was created.
-/

namespace CommunityLb

open State

/-- What a step does to the start of the process it leaves. -/
inductive StartTurn (sidecar : Identity) (state next : State) (after : Process) : Event → Prop
  | launch {config : Config} {section_ : Marketplace} (given : config.marketplace = some section_)
      (now : after = launched sidecar config section_) :
      StartTurn sidecar state next after (.launch config)
  | stays {event : Event} {before : Process} (was : state.process = some before)
      (same : before.agent.SameStart after.agent) (task : before.task.Stays after.task)
      (blank : before.Blank → after.Blank) : StartTurn sidecar state next after event
  | found {before : Process} {head : Nat} {shown order : List EntityKey}
      {rows : List (Stored Record)} (was : state.process = some before)
      (task : before.task = .listings head)
      (page : state.view.page (before.agent.listingsQuery head) shown = some rows)
      (now : after = Process.ensureListing
        { before with
          agent := { before.agent with agreements := before.agent.agreements.reorder order } }
        rows)
      (chain : next.chain = state.chain) : StartTurn sidecar state next after (.read shown order)
  | listed {before : Process} {batch : Batch} {answer : WriteAnswer} {sent : State}
      {result : Except WriteError BatchResult} (was : state.process = some before)
      (lists : before.task.phase = .lists) (sends : before.sending = some batch)
      (answered : state.send sidecar batch answer = some (sent, result))
      (now : after = before.written result) (chain : next.chain = sent.chain) :
      StartTurn sidecar state next after (.write answer)

namespace State

variable {urls : Urls} {sidecar : Identity} {state next : State}

theorem readAnswered_start {shown order : List EntityKey} {after : Process}
    (stepped : state.readAnswered shown order = some next) (isThere : next.process = some after) :
    StartTurn sidecar state next after (.read shown order) := by
  simp only [State.readAnswered, Option.bind_eq_bind, Option.bind_eq_some_iff] at stepped
  obtain ⟨before, was, reading, reads, reply, replied, stepped⟩ := stepped
  cases stepped
  cases isThere
  have reordered : before.agent.SameStart
      { before.agent with agreements := before.agent.agreements.reorder order } := ⟨rfl, rfl, rfl⟩
  rcases Process.read_phase
      { before with
        agent := { before.agent with agreements := before.agent.agreements.reorder order } }
      order reply with ⟨head, rows, task, rfl⟩ | stays
  · have task : before.task = .listings head := task
    simp only [Task.reading, task, Option.some.injEq] at reads
    subst reads
    obtain ⟨shownRows, page, same⟩ := Option.map_eq_some_iff.mp replied
    cases same
    exact .found was task page (by simp [Process.read, task]) rfl
  · rcases Process.read_sameStart
        { before with
          agent := { before.agent with agreements := before.agent.agreements.reorder order } }
        order reply with ⟨head, rows, task, rfl⟩ | same
    · have task : before.task = .listings head := task
      simp only [Task.reading, task, Option.some.injEq] at reads
      subst reads
      obtain ⟨shownRows, page, same⟩ := Option.map_eq_some_iff.mp replied
      cases same
      exact .found was task page (by simp [Process.read, task]) rfl
    · exact .stays was (reordered.trans same) stays fun blank => (blank.reorder order).read order reply

/-- What every step does to a start. -/
theorem step_start {event : Event} (stepped : state.step urls sidecar event = some next)
    {after : Process} (isThere : next.process = some after) :
    StartTurn sidecar state next after event := by
  -- A process that changes without the chain.
  have ofProcess : ∀ {change : Process → Option Process},
      (∀ process after, change process = some after →
        process.agent.SameStart after.agent ∧ process.task.Stays after.task ∧
          (process.Blank → after.Blank)) →
      state.ofProcess change = some next → StartTurn sidecar state next after event := by
    intro change stays ran
    obtain ⟨now, changed, rfl⟩ := Option.map_eq_some_iff.mp ran
    obtain ⟨before, was, changes⟩ := Option.bind_eq_some_iff.mp changed
    cases isThere
    obtain ⟨same, task, blank⟩ := stays before after changes
    exact .stays was same task blank
  have same : next.process = state.process → StartTurn sidecar state next after event :=
    fun same => .stays (same.symm.trans isThere) (.refl _) (.inl rfl) id
  cases event with
  | sealBlocks count fates =>
      obtain ⟨⟨chain, pending⟩, settled, rfl⟩ := Option.map_eq_some_iff.mp stepped
      exact same rfl
  | catchUp count =>
      cases stepped
      exact same rfl
  | post offer =>
      simp only [State.step] at stepped
      split at stepped <;> cases stepped
      exact same rfl
  | withdraw offer =>
      simp only [State.step] at stepped
      split at stepped <;> cases stepped
      exact same rfl
  | launch config =>
      simp only [State.step] at stepped
      split at stepped
      · next section_ off valid given =>
          cases stepped
          cases isThere
          exact .launch given rfl
      · cases stepped
  | crash =>
      obtain ⟨_, _, rfl⟩ := Option.map_eq_some_iff.mp stepped
      cases isThere
  | serve handle =>
      simp only [State.step, State.serve, Option.bind_eq_bind, Option.bind_eq_some_iff] at stepped
      obtain ⟨before, was, _, _, stepped⟩ := stepped
      cases stepped
      cases isThere
      exact .stays was ⟨rfl, rfl, rfl⟩ (.inl rfl) fun blank => ⟨blank.memory, blank.owes⟩
  | admission index answer =>
      simp only [State.step, State.admissionSent, Option.bind_eq_bind,
        Option.bind_eq_some_iff] at stepped
      obtain ⟨before, was, _, _, stepped⟩ := stepped
      split at stepped
      · cases stepped
      · obtain ⟨⟨middle, result⟩, sent, stepped⟩ := Option.bind_eq_some_iff.mp stepped
        cases stepped
        cases isThere
        refine .stays was ?_ (.inl rfl) fun blank => ⟨fun isBlank => ?_, blank.owes⟩
        · simp only
          split
          · split <;> exact ⟨rfl, rfl, rfl⟩
          · exact ⟨rfl, rfl, rfl⟩
        · have nothing := blank.memory isBlank
          simp only
          split
          · split <;> exact nothing
          · exact nothing
  | read shown order => exact readAnswered_start stepped isThere
  | write answer =>
      simp only [State.step, State.writeAnswered, Option.bind_eq_bind,
        Option.bind_eq_some_iff] at stepped
      obtain ⟨before, was, batch, sends, ⟨sent, result⟩, answered, stepped⟩ := stepped
      cases stepped
      cases isThere
      by_cases lists : before.task.phase = .lists
      · exact .listed was lists sends answered rfl rfl
      · exact .stays was ((before.written_sameStart result).resolve_left lists)
          ((before.written_phase result).resolve_left lists) fun blank => blank.written result
  | gate handle gate value =>
      refine ofProcess (fun process after changes => ?_) stepped
      cases changes
      exact ⟨⟨rfl, rfl, rfl⟩, .inl rfl, fun blank => ⟨blank.memory, blank.owes⟩⟩
  | admitted agreement =>
      refine ofProcess (fun process after changes => ?_) stepped
      cases changes
      refine ⟨process.agent.admitted_sameStart agreement, .inl rfl,
        fun blank => ⟨fun isBlank => ?_, blank.owes⟩⟩
      rw [process.agent.admitted_agreements agreement]
      exact blank.memory isBlank
  | learn index =>
      refine ofProcess (fun process after changes => ?_) stepped
      simp only [admissionAnswered, Option.bind_eq_bind, Option.bind_eq_some_iff] at changes
      obtain ⟨_, _, _, _, changes⟩ := changes
      cases changes
      exact ⟨⟨rfl, rfl, rfl⟩, .inl rfl, fun blank => blank.learn _ _ _⟩
  | endAdmission index =>
      refine ofProcess (fun process after changes => ?_) stepped
      simp only [Option.bind_eq_bind, Option.bind_eq_some_iff] at changes
      obtain ⟨_, _, changes⟩ := changes
      split at changes <;> cases changes
      exact ⟨⟨rfl, rfl, rfl⟩, .inl rfl, fun blank => ⟨blank.memory, blank.owes⟩⟩
  | tick tick =>
      refine ofProcess (fun process after changes => ?_) stepped
      split at changes
      · next task =>
          cases changes
          exact ⟨.refl _, .runs (by rw [task]; rfl) (by cases tick <;> rfl),
            fun _ => .of_late (by cases tick <;> rfl)⟩
      · cases changes
  | unread =>
      refine ofProcess (fun process after changes => ?_) stepped
      obtain ⟨_, _, rfl⟩ := Option.map_eq_some_iff.mp changes
      exact ⟨process.unread_works.start, process.unread_phase, fun blank => blank.unread⟩
  | countServed order =>
      refine ofProcess (fun process after changes => ?_) stepped
      simp only [Process.countServed] at changes
      split at changes
      · next task =>
          cases changes
          have reordered : process.agent.SameStart
              { process.agent with agreements := process.agent.agreements.reorder order } :=
            ⟨rfl, rfl, rfl⟩
          exact ⟨reordered.trans (Process.afterCounts_works
              { process with
                agent :=
                  { process.agent with
                    agreements := process.agent.agreements.reorder order } } _ _ _ _ _).start,
            .runs (by rw [task]; rfl) (Process.phase_afterCounts _ _ _ _ _ _),
            fun _ => .of_late (Process.afterCounts_late _ _ _ _ _ _)⟩
      · cases changes
  | portLooked isBound =>
      refine ofProcess (fun process after changes => ?_) stepped
      rw [Process.portLooked] at changes
      split at changes
      · next task =>
          cases changes
          split
          · simp only
            split
            · exact ⟨.refl _, .runs (by rw [task]; rfl) rfl, fun _ => .of_late rfl⟩
            · exact ⟨.refl _, .runs (by rw [task]; rfl) rfl, fun _ => .of_late rfl⟩
          · exact ⟨.refl _, .runs (by rw [task]; rfl) rfl, fun _ => .of_late rfl⟩
      · cases changes

end State

/-! ## What a start finds -/

/-- The listing a section asks for. -/
def Marketplace.desiredListing (section_ : Marketplace) : LbListing where
  weiPerCall := section_.weiPerCall
  tunnelServer := section_.tunnelServer
  maxProviders := section_.maxProviders

/-- What an operation writes to a listing is the one that is asked for. -/
def Operation.Lists (desired : LbListing) : Operation → Prop
  | .create (.listing record) _ | .patch _ (.listing record) => record = desired
  | _ => True

theorem Operation.Routine.lists {operation : Operation} (routine : operation.Routine)
    (desired : LbListing) : operation.Lists desired := by
  cases operation with
  | create record seconds => cases record <;> trivial
  | patch key set => cases set <;> trivial
  | delete key => trivial
  | extend key seconds => trivial

/-- A process writes to listings what its section asks for. -/
theorem Process.sending_lists {process : Process} {batch : Batch} (routine : process.task.Routine)
    (sends : process.sending = some batch) :
    ∀ operation ∈ batch, operation.Lists process.agent.config.desiredListing := by
  unfold Process.sending at sends
  split at sends
  case h_1 task | h_2 task | h_3 task | h_4 task =>
    cases sends
    intro operation member
    rw [task] at routine
    exact (routine batch List.mem_cons_self operation member).lists _
  case h_9 => cases sends
  all_goals
    cases sends
    intro operation member
    obtain rfl := List.mem_singleton.mp member
    trivial

theorem listing_of_isSome {record : Record} (isListing : record.asListing.isSome = true) :
    ∃ listing, record = .listing listing := by
  cases record <;> first | exact ⟨_, rfl⟩ | cases isListing

namespace Chain

variable {me : Address} {chain next : Chain} {key : EntityKey}

/-- That a listing is the LB's eldest is a law, and so is that it says what is asked for. -/
theorem listing_law (desired : LbListing) :
    Law me (Operation.Lists desired)
      (fun chain => chain.EldestAt me (·.asListing.isSome = true) key (chain.head + 1))
      (fun chain => chain.EldestAt me (·.asListing.isSome = true) key chain.head) :=
  eldest_law fun set _ record isListing => (asListing_set record set).trans isListing

theorem desired_law (desired : LbListing) :
    Law me (Operation.Lists desired)
      (fun chain => chain.EldestAt me (· = .listing desired) key (chain.head + 1))
      (fun chain => chain.EldestAt me (· = .listing desired) key chain.head) := by
  refine eldest_law fun set fits record isDesired => ?_
  cases set with
  | counter payload state =>
      subst isDesired
      rfl
  | listing record =>
      rw [isDesired, Record.set]
      exact congrArg Record.listing fits

theorem EldestAt.mono {shape weaker : Record → Prop} {before : Nat}
    (le : ∀ record, shape record → weaker record)
    (eldest : chain.EldestAt me shape key before) : chain.EldestAt me weaker key before := by
  obtain ⟨row, sameKey, earlier, eldest⟩ := eldest
  exact ⟨row, sameKey, earlier, eldest.found, eldest.creator, le _ eldest.shape, eldest.first⟩

end Chain

theorem listingsQuery_admits {agent : Agent} {head : Nat} {row : Stored Record} :
    (agent.listingsQuery head).admits row = true ↔
      row.record.kind = .listing ∧ row.creator = agent.identity.address ∧ head < row.expiresAt := by
  simp only [Query.admits, Agent.listingsQuery, Option.all_some, Option.all_none, Bool.not_false,
    Bool.true_or, Bool.and_true, Bool.and_eq_true, decide_eq_true_eq, and_assoc]
  exact and_congr_left fun _ => decide_eq_true_iff

/-- The listing rows a start is shown, when they are the ones the chain has. -/
def ShowsListings (agent : Agent) (chain : Chain) (head : Nat) (rows : List (Stored Record)) :
    Prop :=
  ∀ row, row ∈ rows ↔
    row ∈ chain.entities.values ∧ chain.alive row = true ∧
      (agent.listingsQuery head).admits row = true

section Found

variable {agent : Agent} {chain : Chain} {head : Nat} {rows : List (Stored Record)}

/-- A listing of the LB on the chain is shown, and decodes. -/
theorem ShowsListings.shown (shows : ShowsListings agent chain head rows)
    (past : head ≤ chain.head) {row : Stored Record}
    (listed : chain.LiveListing agent.identity.address row) :
    ∃ stored ∈ rows.filterMap (Stored.decode Record.asListing), stored.key = row.key ∧
      stored.createdAt = row.createdAt ∧ row.record = .listing stored.record := by
  obtain ⟨found, alive, mine, isListing⟩ := listed
  obtain ⟨listing, isRecord⟩ := listing_of_isSome isListing
  have lives : chain.head < row.expiresAt := (of_decide_eq_true alive).1
  have admits : (agent.listingsQuery head).admits row = true :=
    listingsQuery_admits.mpr ⟨by rw [isRecord]; rfl, mine, by omega⟩
  have inRows := (shows row).mpr ⟨(Keyed.get?_eq_some.mp found).1, alive, admits⟩
  exact ⟨⟨row.key, row.creator, row.createdAt, row.expiresAt, listing⟩,
    List.mem_filterMap.mpr ⟨row, inRows, by rw [Stored.decode, isRecord]; rfl⟩, rfl, rfl, isRecord⟩

/-- The oldest listing a start is shown is the LB's eldest. -/
theorem ShowsListings.eldest (shows : ShowsListings agent chain head rows)
    (past : head ≤ chain.head) (dated : chain.Dated) {first : Stored LbListing}
    {rest : List (Stored LbListing)}
    (order : oldestFirst (rows.filterMap (Stored.decode Record.asListing)) = first :: rest) :
    chain.EldestAt agent.identity.address (· = .listing first.record) first.key
      (chain.head + 1) := by
  have sorted := oldestFirst_sorted (rows.filterMap (Stored.decode Record.asListing))
  rw [order] at sorted
  have member : first ∈ rows.filterMap (Stored.decode Record.asListing) := by
    rw [← mem_oldestFirst, order]
    exact List.mem_cons_self
  obtain ⟨row, inRows, decoded⟩ := List.mem_filterMap.mp member
  obtain ⟨listing, isListing, rfl⟩ := Option.map_eq_some_iff.mp decoded
  obtain ⟨inChain, alive, admits⟩ := (shows row).mp inRows
  have found := Keyed.get?_key inChain
  have isRecord : row.record = .listing listing := by
    cases record : row.record <;> rw [record] at isListing <;> cases isListing
    rfl
  refine ⟨row, rfl, Nat.lt_succ_of_le (dated row.key row found), found,
    (listingsQuery_admits.mp admits).2.1, isRecord, fun other listed => ?_⟩
  obtain ⟨stored, among, sameKey, createdAt, _⟩ := shows.shown past listed
  rw [← mem_oldestFirst, order] at among
  rcases List.mem_cons.mp among with rfl | later
  · rw [Stored.Older, ← sameKey, ← createdAt]
    exact .inr ⟨rfl, BitVec.le_refl _⟩
  · have older := (List.pairwise_cons.mp sorted).1 stored later
    rw [Stored.Older, ← sameKey, ← createdAt]
    exact older

/-- A listing that is the LB's eldest, and on the chain, is the one a start finds. -/
theorem ShowsListings.finds (shows : ShowsListings agent chain head rows)
    (past : head ≤ chain.head) (dated : chain.Dated) {key : EntityKey} {desired : LbListing}
    (eldest : chain.EldestAt agent.identity.address (· = .listing desired) key (chain.head + 1))
    (lives : (chain.live? key).isSome) :
    ∃ first rest, oldestFirst (rows.filterMap (Stored.decode Record.asListing)) = first :: rest ∧
      first.key = key ∧ first.record = desired := by
  obtain ⟨row, rfl, _, eldest⟩ := eldest
  obtain ⟨live, isLive⟩ := Option.isSome_iff_exists.mp lives
  obtain ⟨isThere, alive⟩ := Option.filter_eq_some_iff.mp isLive
  cases eldest.found.symm.trans isThere
  have listed : chain.LiveListing agent.identity.address row :=
    ⟨eldest.found, alive, eldest.creator, by rw [eldest.shape]; rfl⟩
  obtain ⟨stored, among, sameKey, createdAt, _⟩ := shows.shown past listed
  rw [← mem_oldestFirst] at among
  cases order : oldestFirst (rows.filterMap (Stored.decode Record.asListing)) with
  | nil =>
      rw [order] at among
      cases among
  | cons first rest =>
      obtain ⟨other, otherKey, _, first'⟩ := shows.eldest past dated order
      -- Each of the two is older than the other, so they are one row.
      have sameRow : other.key = row.key := by
        have inRows : first ∈ rows.filterMap (Stored.decode Record.asListing) := by
          rw [← mem_oldestFirst, order]
          exact List.mem_cons_self
        obtain ⟨shown, isShown, decoded⟩ := List.mem_filterMap.mp inRows
        obtain ⟨listing, isListing, rfl⟩ := Option.map_eq_some_iff.mp decoded
        obtain ⟨inChain, alive', admits⟩ := (shows shown).mp isShown
        have same : other = shown := by
          have found := first'.found
          rw [otherKey, Keyed.get?_key inChain] at found
          exact (Option.some.inj found).symm
        subst same
        have otherListed : chain.LiveListing agent.identity.address other :=
          ⟨first'.found, alive', first'.creator, by rw [first'.shape]; rfl⟩
        rcases eldest.first other otherListed with earlier | ⟨_, le⟩
        · rcases first'.first row listed with earlier' | ⟨at', _⟩
          · exact absurd earlier (Nat.lt_asymm earlier')
          · exact absurd at' (Nat.ne_of_gt earlier)
        · rcases first'.first row listed with earlier' | ⟨_, ge⟩
          · omega
          · exact BitVec.le_antisymm ge le
      refine ⟨first, rest, rfl, otherKey.symm.trans sameRow, ?_⟩
      have found := first'.found
      rw [sameRow, eldest.found] at found
      cases found
      exact Record.listing.inj (first'.shape.symm.trans eldest.shape)

end Found

/-! ## Starts in a run -/

/-- The key the first start to succeed returned. -/
abbrev Kept := Option EntityKey

/-- One step: the first process that runs has the key. -/
def nowKept (before : Kept) (_ : State) (_ : Event) (next : State) : Kept :=
  before.or ((next.process.filter (·.task.phase = .runs)).map (·.agent.listingKey))

/-- The head that a start looks for its listing at. -/
def Task.listingsHead : Task → Option Nat
  | .listings head => some head
  | _ => none

/-- A start creates its listing. -/
def Task.createsListing : Task → Bool
  | .createListing => true
  | _ => false

/-- Every launch is of one configuration. -/
def OneConfig (config : Config) : Event → Prop
  | .launch other => other = config
  | _ => True

/-- The listing in use is on the chain whenever a start looks for it. -/
def InUse (both : State × Kept) : Event → Prop
  | .read _ _ => ∀ process ∈ both.1.process, ∀ head ∈ process.task.listingsHead,
      both.2.all (fun key => (both.1.chain.live? key).isSome) = true
  | _ => True

/-- The query a start looks for its listing with shows the listings that the chain has. -/
def ShowsThem (both : State × Kept) : Event → Prop
  | .read _ _ => ∀ process ∈ both.1.process, ∀ head ∈ process.task.listingsHead,
      both.1.view.count (process.agent.listingsQuery head) ≤ PAGE_LIMIT ∧
        (both.1.view.matching (process.agent.listingsQuery head)).values.Perm
          (both.1.chain.matching (process.agent.listingsQuery head)).values
  | _ => True

/-- A listing that is created is no younger than one the LB has on the chain by then. -/
def CreatesFirst (sidecar : Identity) (both : State × Kept) : Event → Prop
  | .write (.landed fates keys) => ∀ process ∈ both.1.process, process.task.createsListing = true →
      ∀ landed ∈ (both.1.chain.advance 1).settle sidecar.address both.1.pending fates,
        ∀ key ∈ keys, ∀ row ∈ landed.1.entities.values, landed.1.alive row = true →
          row.creator = sidecar.address → row.record.asListing.isSome = true →
            landed.1.head = row.createdAt ∧ key ≤ row.key
  | _ => True

instance (config : Config) : (event : Event) → Decidable (OneConfig config event)
  | .launch other => decidable_of_iff (other = config) Iff.rfl
  | .sealBlocks _ _ | .catchUp _ | .post _ | .withdraw _ | .crash | .serve _ | .gate _ _ _
  | .admitted _ | .admission _ _ | .learn _ | .endAdmission _ | .tick _ | .read _ _ | .unread
  | .countServed _ | .portLooked _ | .write _ => isTrue trivial

instance (both : State × Kept) : (event : Event) → Decidable (InUse both event)
  | .read _ _ => by unfold InUse; infer_instance
  | .sealBlocks _ _ | .catchUp _ | .post _ | .withdraw _ | .launch _ | .crash | .serve _
  | .gate _ _ _ | .admitted _ | .admission _ _ | .learn _ | .endAdmission _ | .tick _ | .unread
  | .countServed _ | .portLooked _ | .write _ => isTrue trivial

instance (both : State × Kept) : (event : Event) → Decidable (ShowsThem both event)
  | .read _ _ => by unfold ShowsThem; infer_instance
  | .sealBlocks _ _ | .catchUp _ | .post _ | .withdraw _ | .launch _ | .crash | .serve _
  | .gate _ _ _ | .admitted _ | .admission _ _ | .learn _ | .endAdmission _ | .tick _ | .unread
  | .countServed _ | .portLooked _ | .write _ => isTrue trivial

instance (sidecar : Identity) (both : State × Kept) :
    (event : Event) → Decidable (CreatesFirst sidecar both event)
  | .write (.landed _ _) => by unfold CreatesFirst; infer_instance
  | .write (.failed _ _) | .sealBlocks _ _ | .catchUp _ | .post _ | .withdraw _ | .launch _
  | .crash | .serve _ | .gate _ _ _ | .admitted _ | .admission _ _ | .learn _ | .endAdmission _
  | .tick _ | .read _ _ | .unread | .countServed _ | .portLooked _ => isTrue trivial

namespace State

variable {urls : Urls} {sidecar : Identity} {state next : State} {config : Config}
variable {section_ : Marketplace} {kept : Kept}

/-- What holds between starts of one section: the key is of the eldest listing, which says what is
asked for, and only a start before the first that succeeds writes a listing. -/
structure Listed (sidecar : Identity) (section_ : Marketplace) (state : State) (kept : Kept) :
    Prop where
  trails : state.Trails
  headed : state.Headed
  pending : ∀ batch ∈ state.pending, ∀ operation ∈ batch,
    operation.Lists section_.desiredListing
  own : ∀ process ∈ state.process,
    process.agent.config = section_ ∧ process.agent.identity = sidecar
  routine : ∀ process ∈ state.process, process.task.Routine
  eldest : ∀ key ∈ kept, state.chain.EldestAt sidecar.address
    (· = .listing section_.desiredListing) key (state.chain.head + 1)
  lists : ∀ process ∈ state.process, process.task.phase = .lists → kept = none
  patches : ∀ process ∈ state.process, ∀ key expiresAt,
    process.task = .patchListing key expiresAt →
      state.chain.EldestAt sidecar.address (·.asListing.isSome = true) key (state.chain.head + 1)
  runs : ∀ process ∈ state.process, process.task.phase = .runs →
    kept = some process.agent.listingKey

theorem Listed.sends (listed : state.Listed sidecar section_ kept) :
    state.Sends (Operation.Lists section_.desiredListing) where
  pending := listed.pending
  process process isThere batch sends := by
    have lists := Process.sending_lists (listed.routine process isThere) sends
    rw [(listed.own process isThere).1] at lists
    exact lists
  extend _ _ := trivial

/-- A create that lands on a chain without an older listing leaves the eldest. -/
theorem created_eldest {seconds : Nat} {desired : LbListing}
    {fates : List (Option (List EntityKey))} {keys : List EntityKey}
    {result : Except WriteError BatchResult}
    (first : ∀ landed ∈ (state.chain.advance 1).settle sidecar.address state.pending fates,
      ∀ key ∈ keys, ∀ row ∈ landed.1.entities.values, landed.1.alive row = true →
        row.creator = sidecar.address → row.record.asListing.isSome = true →
          landed.1.head = row.createdAt ∧ key ≤ row.key)
    (sent : state.send sidecar [.create (.listing desired) seconds] (.landed fates keys) =
      some (next, result)) :
    ∃ key expiresAt, result = .ok { createdEntities := [(key, expiresAt)] } ∧
      next.chain.EldestAt sidecar.address (· = .listing desired) key (next.chain.head + 1) := by
  simp only [State.send, Option.bind_eq_bind, Option.bind_eq_some_iff] at sent
  obtain ⟨⟨chain, rest⟩, settled, sent⟩ := sent
  split at sent
  · cases sent
  · obtain ⟨landed, lands, sent⟩ := Option.bind_eq_some_iff.mp sent
    cases sent
    obtain ⟨length, executed⟩ := Chain.land_eq_some.mp lands
    obtain ⟨key, rfl⟩ := List.length_eq_one_iff.mp (length : keys.length = 1)
    obtain ⟨after, operated, done⟩ := Option.bind_eq_some_iff.mp executed
    cases done
    have created := Chain.operate_created operated
    have head := Chain.operate_head operated
    refine ⟨key, _, rfl,
      { key := key
        creator := sidecar.address
        createdAt := chain.head
        expiresAt := chain.head + blocksOf seconds
        record := .listing desired }, rfl, ?_, created, rfl, rfl, fun other listing => ?_⟩
    · have head : landed.head = chain.head := head
      exact head ▸ Nat.lt_succ_self _
    · obtain ⟨found, alive, mine, isListing⟩ := listing
      have found : landed.entities.get? other.key = some other := found
      simp only [Chain.operate] at operated
      split at operated
      · cases operated
        rw [Keyed.get?_insert] at found
        split at found
        · next same =>
            rw [← Option.some.inj found]
            exact .inr ⟨rfl, BitVec.le_refl _⟩
        · have inChain := (Keyed.get?_eq_some.mp found).1
          exact .inr (first (chain, rest) settled key List.mem_cons_self other inChain alive mine
            isListing)
      · cases operated

/-- A patch of the eldest listing that lands leaves it saying what is asked for. -/
theorem patched_eldest {key : EntityKey} {desired : LbListing}
    {fates : List (Option (List EntityKey))} {keys : List EntityKey}
    {result : Except WriteError BatchResult}
    (pending : ∀ batch ∈ state.pending, ∀ operation ∈ batch, operation.Lists desired)
    (eldest : state.chain.EldestAt sidecar.address (·.asListing.isSome = true) key
      (state.chain.head + 1))
    (sent : state.send sidecar [.patch key (.listing desired)] (.landed fates keys) =
      some (next, result)) :
    next.chain.EldestAt sidecar.address (· = .listing desired) key (next.chain.head + 1) := by
  have law : Chain.Law sidecar.address (Operation.Lists desired)
      (fun chain => chain.EldestAt sidecar.address (·.asListing.isSome = true) key (chain.head + 1))
      (fun chain => chain.EldestAt sidecar.address (·.asListing.isSome = true) key chain.head) :=
    Chain.listing_law desired
  have fits : (Operation.patch key (.listing desired)).Lists desired := rfl
  simp only [State.send, Option.bind_eq_bind, Option.bind_eq_some_iff] at sent
  obtain ⟨⟨chain, rest⟩, settled, sent⟩ := sent
  split at sent
  · cases sent
  · obtain ⟨landed, lands, sent⟩ := Option.bind_eq_some_iff.mp sent
    cases sent
    have opened := law.settle (law.opens state.chain 0 eldest) pending settled
    obtain ⟨length, executed⟩ := Chain.land_eq_some.mp lands
    obtain ⟨fresh, rfl⟩ := List.length_eq_one_iff.mp (length : keys.length = 1)
    obtain ⟨after, operated, done⟩ := Option.bind_eq_some_iff.mp executed
    cases done
    obtain ⟨row, sameKey, earlier, now⟩ :=
      law.closes _ (law.operates _ _ _ _ opened fits operated)
    obtain ⟨was, wasKey, _, eldest⟩ := opened
    refine ⟨row, sameKey, earlier, now.found, now.creator, ?_, now.first⟩
    obtain ⟨listing, isListing⟩ := listing_of_isSome eldest.shape
    obtain ⟨patched, isPatched, _, _, _, record⟩ := Chain.operate_record operated eldest.found
    have samePatched : patched = row := by
      rw [wasKey, ← sameKey] at isPatched
      exact Option.some.inj (isPatched.symm.trans now.found)
    subst samePatched
    simp only [Chain.operate] at operated
    split at operated
    · cases operated
      have found := now.found
      have adjusted : patched = { was with record := was.record.set (.listing desired) } := by
        rw [sameKey] at found
        have isWas := eldest.found
        rw [wasKey] at isWas
        simpa [Keyed.get?_adjust, isWas] using found.symm
      rw [adjusted, isListing]
      rfl
    · cases operated

/-- The rows a start is shown are the listings that the chain has. -/
theorem showsListings {process : Process} {head : Nat} {shown order : List EntityKey}
    {rows : List (Stored Record)} (was : state.process = some process)
    (task : process.task = .listings head)
    (page : state.view.page (process.agent.listingsQuery head) shown = some rows)
    (shows : ShowsThem (state, kept) (.read shown order)) :
    ShowsListings process.agent state.chain head rows := by
  obtain ⟨fits, same⟩ := shows process was head (by rw [task]; rfl)
  intro row
  have inView : row ∈ rows ↔
      row ∈ (state.view.matching (process.agent.listingsQuery head)).values := by
    constructor
    · intro member
      obtain ⟨inChain, alive, admits⟩ := Chain.page_mem page member
      simp [Chain.matching, Keyed.filter, inChain, alive, admits]
    · intro member
      simp only [Chain.matching, Keyed.filter, List.mem_filter, Bool.and_eq_true] at member
      exact Chain.page_whole page fits member.1 member.2.1 member.2.2
  rw [inView, same.mem_iff]
  simp [Chain.matching, Keyed.filter]

theorem nowKept_none {event : Event} (gone : next.process = none) :
    nowKept kept state event next = kept := by
  simp [nowKept, gone]

theorem nowKept_some {key : EntityKey} {event : Event} (has : kept = some key) :
    nowKept kept state event next = some key := by
  simp [nowKept, has]

theorem nowKept_first {event : Event} {after : Process} (hasNone : kept = none)
    (isThere : next.process = some after) :
    nowKept kept state event next =
      if after.task.phase = .runs then some after.agent.listingKey else none := by
  by_cases runs : after.task.phase = .runs <;>
    simp [nowKept, hasNone, isThere, Option.filter, runs]

/-- What a step makes of a start: its task, and the listing it has when it succeeds. -/
structure Turned (sidecar : Identity) (section_ : Marketplace) (next : State) (kept : Kept)
    (after : Process) : Prop where
  own : after.agent.config = section_ ∧ after.agent.identity = sidecar
  lists : after.task.phase = .lists → kept = none
  patches : ∀ key expiresAt, after.task = .patchListing key expiresAt →
    next.chain.EldestAt sidecar.address (·.asListing.isSome = true) key (next.chain.head + 1)
  runs : after.task.phase = .runs →
    kept = some after.agent.listingKey ∨ kept = none ∧
      next.chain.EldestAt sidecar.address (· = .listing section_.desiredListing)
        after.agent.listingKey (next.chain.head + 1)

/-- A process that neither writes a listing nor has succeeded. -/
theorem Turned.on {after : Process}
    (own : after.agent.config = section_ ∧ after.agent.identity = sidecar)
    (waits : after.task.phase = .reads ∨ after.task.phase = .refused) :
    Turned sidecar section_ next kept after := by
  have unlisted : after.task.phase ≠ .lists := by
    rcases waits with waits | waits <;> simp [waits]
  have waits : after.task.phase ≠ .runs := by
    rcases waits with waits | waits <;> simp [waits]
  refine ⟨own, fun lists => absurd lists unlisted, fun key expiresAt task => ?_,
    fun runs => absurd runs waits⟩
  rw [task] at unlisted
  exact absurd rfl unlisted

/-- A process whose start has succeeded. -/
theorem Turned.over {after : Process}
    (own : after.agent.config = section_ ∧ after.agent.identity = sidecar)
    (runs : after.task.phase = .runs)
    (key : kept = some after.agent.listingKey ∨ kept = none ∧
      next.chain.EldestAt sidecar.address (· = .listing section_.desiredListing)
        after.agent.listingKey (next.chain.head + 1)) :
    Turned sidecar section_ next kept after := by
  have unlisted : after.task.phase ≠ .lists := by
    rw [runs]
    decide
  refine ⟨own, fun lists => absurd lists unlisted, fun key expiresAt task => ?_, fun _ => key⟩
  rw [task] at unlisted
  exact absurd rfl unlisted

/-- A process that writes its listing, and none has one yet. -/
theorem Turned.writes {after : Process}
    (own : after.agent.config = section_ ∧ after.agent.identity = sidecar)
    (lists : after.task.phase = .lists) (hasNone : kept = none)
    (patches : ∀ key expiresAt, after.task = .patchListing key expiresAt →
      next.chain.EldestAt sidecar.address (·.asListing.isSome = true) key (next.chain.head + 1)) :
    Turned sidecar section_ next kept after := by
  refine ⟨own, fun _ => hasNone, patches, fun runs => ?_⟩
  rw [lists] at runs
  cases runs

/-- A start that finds its listing finds the one that is kept, when one is. -/
theorem Listed.found (listed : state.Listed sidecar section_ kept) {before : Process} {head : Nat}
    {shown order : List EntityKey} {rows : List (Stored Record)}
    (inUse : InUse (state, kept) (.read shown order))
    (shows : ShowsThem (state, kept) (.read shown order)) (was : state.process = some before)
    (task : before.task = .listings head)
    (page : state.view.page (before.agent.listingsQuery head) shown = some rows)
    (chain : next.chain = state.chain) :
    Turned sidecar section_ next kept (Process.ensureListing
      { before with
        agent := { before.agent with agreements := before.agent.agreements.reorder order } }
      rows) := by
  obtain ⟨config, identity⟩ := listed.own before was
  have shown := showsListings was task page shows
  have past : head ≤ state.chain.head :=
    listed.headed before was head (by rw [task]; rfl)
  have desired : before.agent.desiredListing = section_.desiredListing := by
    rw [← config]
    rfl
  have again : ∀ key, kept = some key → ∃ first rest,
      oldestFirst (rows.filterMap (Stored.decode Record.asListing)) = first :: rest ∧
        first.key = key ∧ first.record = section_.desiredListing := by
    intro key isKept
    exact shown.finds past listed.trails.dated (identity ▸ listed.eldest key isKept)
      (by simpa [isKept] using inUse before was head (by rw [task]; rfl))
  rw [Process.ensureListing]
  cases order' : oldestFirst (rows.filterMap (Stored.decode Record.asListing)) with
  | nil =>
      have hasNone : kept = none := by
        cases has : kept with
        | none => rfl
        | some key =>
            obtain ⟨first, rest, found, _⟩ := again key has
            rw [order'] at found
            cases found
      refine .writes ⟨config, identity⟩ rfl hasNone fun key expiresAt task => ?_
      cases task
  | cons first rest =>
      have eldest := shown.eldest past listed.trails.dated order'
      rw [identity, ← chain] at eldest
      by_cases same : first.record = before.agent.desiredListing
      · have same' : first.record = Agent.desiredListing
            { before.agent with agreements := before.agent.agreements.reorder order } := same
        simp only [if_pos same']
        refine .over ⟨config, identity⟩ rfl ?_
        cases has : kept with
        | none =>
            rw [same, desired] at eldest
            exact .inr ⟨rfl, eldest⟩
        | some key =>
            obtain ⟨other, others, found, isKey, _⟩ := again key has
            rw [order'] at found
            cases found
            exact .inl (congrArg some isKey.symm)
      · have same' : ¬ first.record = Agent.desiredListing
            { before.agent with agreements := before.agent.agreements.reorder order } := same
        simp only [if_neg same']
        have hasNone : kept = none := by
          cases has : kept with
          | none => rfl
          | some key =>
              obtain ⟨other, others, found, _, isDesired⟩ := again key has
              rw [order'] at found
              cases found
              exact absurd (isDesired.trans desired.symm) same
        refine .writes ⟨config, identity⟩ rfl hasNone fun key expiresAt isTask => ?_
        cases isTask
        exact eldest.mono fun record isListing => by rw [isListing]; rfl

/-- A start that writes its listing has it when the write lands. -/
theorem Listed.listed (listed : state.Listed sidecar section_ kept) {before : Process}
    {batch : Batch} {answer : WriteAnswer} {sent : State} {result : Except WriteError BatchResult}
    (first : CreatesFirst sidecar (state, kept) (.write answer))
    (was : state.process = some before) (lists : before.task.phase = .lists)
    (sends : before.sending = some batch)
    (answered : state.send sidecar batch answer = some (sent, result))
    (chain : next.chain = sent.chain) :
    Turned sidecar section_ next kept (before.written result) := by
  obtain ⟨config, identity⟩ := listed.own before was
  have hasNone := listed.lists before was lists
  have desired : before.agent.desiredListing = section_.desiredListing := by
    rw [← config]
    rfl
  cases answer with
  | failed error lost =>
      obtain rfl := send_failed answered
      rcases Task.lists_cases lists with task | ⟨key, expiresAt, task⟩
      · simp only [Process.written, task]
        exact .on ⟨config, identity⟩ (.inr rfl)
      · simp only [Process.written, task]
        exact .on ⟨config, identity⟩ (.inr rfl)
  | landed fates keys =>
      rcases Task.lists_cases lists with task | ⟨key, expiresAt, task⟩
      · simp only [Process.sending, task, Option.some.injEq] at sends
        subst sends
        obtain ⟨key, expiresAt, rfl, eldest⟩ := created_eldest (first before was (by rw [task]; rfl))
          answered
        rw [desired, ← chain] at eldest
        simp only [Process.written, task]
        exact .over ⟨config, identity⟩ rfl (.inr ⟨hasNone, eldest⟩)
      · simp only [Process.sending, task, Option.some.injEq] at sends
        subst sends
        rw [desired] at answered
        have eldest := patched_eldest listed.pending (listed.patches before was key expiresAt task)
          answered
        rw [← chain] at eldest
        obtain ⟨_, _, _, _, _, _, rfl⟩ := send_landed answered
        simp only [Process.written, task]
        exact .over ⟨config, identity⟩ rfl (.inr ⟨hasNone, eldest⟩)

/-- One step of a world whose starts are all of one section. -/
theorem Listed.turned (listed : state.Listed sidecar section_ kept) {event : Event}
    (given : config.marketplace = some section_) (one : OneConfig config event)
    (inUse : InUse (state, kept) event) (shows : ShowsThem (state, kept) event)
    (first : CreatesFirst sidecar (state, kept) event)
    (stepped : state.step urls sidecar event = some next) {after : Process}
    (isThere : next.process = some after) : Turned sidecar section_ next kept after := by
  cases step_start stepped isThere with
  | launch launched now =>
      subst now
      obtain rfl : _ = config := one
      cases given.symm.trans launched
      exact .on ⟨rfl, rfl⟩ (.inl rfl)
  | stays was same task blank =>
      rename_i before
      obtain ⟨config, identity⟩ := listed.own before was
      refine ⟨⟨same.config.trans config, same.identity.trans identity⟩, fun lists => ?_,
        fun key expiresAt isTask => ?_, fun runs => ?_⟩
      · rcases task with task | ⟨unlisted, phase⟩ | refused
        · exact listed.lists before was (task ▸ lists)
        · exact absurd (phase.symm.trans lists) unlisted
        · cases refused.symm.trans lists
      · have lists : after.task.phase = .lists := by rw [isTask]; rfl
        rcases task with task | ⟨unlisted, phase⟩ | refused
        · exact (step_law (Chain.listing_law section_.desiredListing) listed.sends
            (listed.patches before was key expiresAt (task ▸ isTask)) stepped).1
        · exact absurd (phase.symm.trans lists) unlisted
        · cases refused.symm.trans lists
      · have ran : before.task.phase = .runs := by
          rcases task with task | ⟨_, phase⟩ | refused
          · exact task ▸ runs
          · exact phase.symm.trans runs
          · cases refused.symm.trans runs
        exact .inl (same.listingKey ▸ listed.runs before was ran)
  | found was task page now chain => exact now ▸ listed.found inUse shows was task page chain
  | listed was lists sends answered now chain =>
      exact now ▸ listed.listed first was lists sends answered chain

theorem Listed.step (listed : state.Listed sidecar section_ kept) {event : Event}
    (given : config.marketplace = some section_) (one : OneConfig config event)
    (inUse : InUse (state, kept) event) (shows : ShowsThem (state, kept) event)
    (first : CreatesFirst sidecar (state, kept) event)
    (stepped : state.step urls sidecar event = some next) :
    next.Listed sidecar section_ (nowKept kept state event next) := by
  have turned : ∀ after, next.process = some after → Turned sidecar section_ next kept after :=
    fun after isThere => listed.turned given one inUse shows first stepped isThere
  have still : ∀ key, kept = some key → next.chain.EldestAt sidecar.address
      (· = .listing section_.desiredListing) key (next.chain.head + 1) := fun key isKept =>
    (step_law (Chain.desired_law section_.desiredListing) listed.sends (listed.eldest key isKept)
      stepped).1
  have pending : ∀ batch ∈ next.pending, ∀ operation ∈ batch,
      operation.Lists section_.desiredListing := by
    have law : Chain.Law sidecar.address (Operation.Lists section_.desiredListing)
        (fun _ => True) (fun _ => True) :=
      ⟨fun _ _ _ => trivial, fun _ _ _ _ _ _ _ => trivial, fun _ _ => trivial,
        fun _ _ _ _ _ _ => trivial, fun _ _ _ _ _ _ => trivial⟩
    exact (step_law law listed.sends trivial stepped).2
  refine ⟨listed.trails.step stepped, listed.headed.step stepped, pending,
    fun after isThere => (turned after isThere).own, fun after isThere => ?_, fun key isKept => ?_,
    fun after isThere lists => ?_, fun after isThere => (turned after isThere).patches,
    fun after isThere runs => ?_⟩
  · rcases step_next stepped isThere with ⟨_, config, section_, _, _, _, rfl⟩ | ⟨before, was, goes⟩
    · exact Task.routine_of_nil rfl
    · exact goes.routine (listed.routine before was)
  · cases has : kept with
    | some old =>
        rw [nowKept_some has] at isKept
        cases isKept
        exact still _ has
    | none =>
        cases process : next.process with
        | none =>
            rw [nowKept_none process, has] at isKept
            cases isKept
        | some after =>
            rw [nowKept_first has process] at isKept
            obtain ⟨runs, isKey⟩ := Option.ite_none_right_eq_some.mp isKept
            obtain rfl := Option.some.inj isKey
            rcases (turned after process).runs runs with old | ⟨_, eldest⟩
            · rw [has] at old
              cases old
            · exact eldest
  · have hasNone := (turned after isThere).lists lists
    rw [nowKept_first hasNone isThere, lists]
    rfl
  · rcases (turned after isThere).runs runs with old | ⟨hasNone, _⟩
    · exact nowKept_some old
    · rw [nowKept_first hasNone isThere, if_pos runs]

/-- A world that no start has been made in: no process, and no write in flight. -/
structure Unstarted (state : State) : Prop where
  origin : state.Origin
  pending : state.pending = []

theorem Unstarted.listed (unstarted : state.Unstarted) :
    state.Listed sidecar section_ none where
  trails := unstarted.origin.trails
  headed := by simp [Headed, unstarted.origin.process]
  pending := by simp [unstarted.pending]
  own := by simp [unstarted.origin.process]
  routine := by simp [unstarted.origin.process]
  eldest := by simp
  lists := by simp [unstarted.origin.process]
  patches := by simp [unstarted.origin.process]
  runs := by simp [unstarted.origin.process]

/-- Nothing is sent by a start before its listing, in any step of a world. -/
theorem blank_step {event : Event} (blank : ∀ process ∈ state.process, process.Blank)
    (stepped : state.step urls sidecar event = some next) :
    ∀ process ∈ next.process, process.Blank := by
  intro after isThere
  cases step_start stepped isThere with
  | launch given now =>
      subst now
      refine ⟨fun _ => rfl, fun head queue task => ?_⟩
      cases task
  | stays was same task keeps => exact keeps (blank _ was)
  | found was task page now chain =>
      subst now
      refine .of_late ?_
      rw [Process.ensureListing]
      split
      · rfl
      · split <;> rfl
  | listed was lists sends answered now chain => exact now ▸ (blank _ was).written _

/-- Starts keep their listing: one that succeeds returns the key the first one did, none writes a
listing once one has succeeded, and none writes anything before its listing. -/
structure KeepsListing (state : State) (kept : Kept) : Prop where
  runs : ∀ process ∈ state.process, process.task.phase = .runs →
    kept = some process.agent.listingKey
  lists : ∀ process ∈ state.process, process.task.phase = .lists → kept = none
  reads : ∀ process ∈ state.process, process.task.phase = .reads ∨ process.task.phase = .refused →
    process.sending = none

/-- A start that reads, or is refused, sends nothing.  And every start under one configuration keeps
the listing of the first that succeeded, in every run in which a start's query shows the listings the
chain has, and no listing is created after an older one of the LB that is on the chain by then. -/
theorem listing_is_kept {start finish : State} {events : List Event} (unstarted : start.Unstarted)
    (reached : ((world urls sidecar).watched nowKept).run (start, none) events =
      some (finish, kept)) :
    (∀ process ∈ finish.process,
      process.task.phase = .reads ∨ process.task.phase = .refused → process.sending = none) ∧
    (((world urls sidecar).watched nowKept).Meets
      (fun both event => OneConfig config event ∧ InUse both event ∧ ShowsThem both event ∧
        CreatesFirst sidecar both event) (start, none) events → finish.KeepsListing kept) := by
  have blank : ∀ process ∈ finish.process, process.Blank := by
    have preserved : ∀ (both : State × Kept) (event : Event) (next : State × Kept),
        (∀ process ∈ both.1.process, process.Blank) →
          ((world urls sidecar).watched nowKept).step both event = some next →
            ∀ process ∈ next.1.process, process.Blank := by
      intro both event next blank stepped
      obtain ⟨after, ran, rfl⟩ := Option.map_eq_some_iff.mp stepped
      exact blank_step blank ran
    exact Machine.run_preserves preserved (by simp [unstarted.origin.process]) reached
  have sent : ∀ process ∈ finish.process,
      process.task.phase = .reads ∨ process.task.phase = .refused → process.sending = none := by
    intro process isThere phase
    refine (blank process isThere).sending ?_ ?_ <;> rcases phase with phase | phase <;>
      simp [phase]
  refine ⟨sent, fun meets => ?_⟩
  cases given : config.marketplace with
  | none =>
      -- Without a section nothing is launched.
      have preserved : ∀ (both : State × Kept) (event : Event) (next : State × Kept),
          both.1.process = none →
            (OneConfig config event ∧ InUse both event ∧ ShowsThem both event ∧
              CreatesFirst sidecar both event) →
              ((world urls sidecar).watched nowKept).step both event = some next →
                next.1.process = none := by
        rintro both event next off ⟨one, _, _, _⟩ stepped
        obtain ⟨after, ran, rfl⟩ := Option.map_eq_some_iff.mp stepped
        by_contra running
        obtain ⟨process, isThere⟩ := Option.ne_none_iff_exists'.mp running
        cases step_start ran isThere with
        | launch launched now =>
            obtain rfl : _ = config := one
            cases given.symm.trans launched
        | stays was same task keeps => cases off.symm.trans was
        | found was task page now chain => cases off.symm.trans was
        | listed was lists sends answered now chain => cases off.symm.trans was
      have off := Machine.run_invariant preserved unstarted.origin.process meets reached
      have off : finish.process = none := off
      exact ⟨by simp [off], by simp [off], sent⟩
  | some section_ =>
      have preserved : ∀ (both : State × Kept) (event : Event) (next : State × Kept),
          both.1.Listed sidecar section_ both.2 →
            (OneConfig config event ∧ InUse both event ∧ ShowsThem both event ∧
              CreatesFirst sidecar both event) →
              ((world urls sidecar).watched nowKept).step both event = some next →
                next.1.Listed sidecar section_ next.2 := by
        rintro both event next listed ⟨one, inUse, shows, first⟩ stepped
        obtain ⟨after, ran, rfl⟩ := Option.map_eq_some_iff.mp stepped
        exact listed.step given one inUse shows first ran
      have listed := Machine.run_invariant preserved unstarted.listed meets reached
      exact ⟨listed.runs, listed.lists, sent⟩

/-- A start that reads, and loses its listing's create. -/
def lostStart : List Event :=
  .launch (smallConfig smallSection) :: List.replicate 8 answered ++
    [.write (.failed .unresolved true), .crash]

/-- The lost create lands, and the next two starts find what it left. -/
def landsBetween : List Event :=
  [.sealBlocks 0 [some [100]], .catchUp 1, .launch (smallConfig smallSection)] ++
    List.replicate 7 answered ++ [.read [100] [], .crash, .launch (smallConfig smallSection)] ++
      List.replicate 7 answered ++ [.read [100] []]

/-- The lost create lands before the next start's own, and the one after finds both. -/
def landsBefore : List Event :=
  .launch (smallConfig smallSection) :: List.replicate 8 answered ++
    [.sealBlocks 0 [some [100]], .write (.landed [] [101]), .catchUp 2, .crash,
      .launch (smallConfig smallSection)] ++
    List.replicate 7 answered ++ [.read [100, 101] []]

theorem emptyWorld_unstarted : emptyWorld.Unstarted :=
  ⟨emptyWorld_origin, rfl⟩

theorem listing_is_kept_small :
    ∃ finish, ((world plainUrls smallSidecar).watched nowKept).run (emptyWorld, none)
      (lostStart ++ landsBetween) = some (finish, some 100) ∧ finish.KeepsListing (some 100) := by
  have ran : (((world plainUrls smallSidecar).watched nowKept).run (emptyWorld, none)
      (lostStart ++ landsBetween)).map Prod.snd = some (some 100) := by
    decide +kernel
  have meets : ((world plainUrls smallSidecar).watched nowKept).Meets
      (fun both event => OneConfig (smallConfig smallSection) event ∧ InUse both event ∧
        ShowsThem both event ∧ CreatesFirst smallSidecar both event) (emptyWorld, none)
      (lostStart ++ landsBetween) := by
    decide +kernel
  obtain ⟨⟨finish, kept⟩, reached, same⟩ := Option.map_eq_some_iff.mp ran
  obtain rfl : kept = some 100 := same
  exact ⟨finish, reached, (listing_is_kept emptyWorld_unstarted reached).2 meets⟩

/-- A create that was lost lands before the next start's: the one after finds another listing. -/
theorem late_create_changes_listing :
    ¬ ∀ (urls : Urls) (sidecar : Identity) (config : Config) (start finish : State)
      (events : List Event) (kept : Kept), start.Unstarted →
        ((world urls sidecar).watched nowKept).Meets
          (fun both event => OneConfig config event ∧ InUse both event) (start, none) events →
        ((world urls sidecar).watched nowKept).run (start, none) events = some (finish, kept) →
          finish.KeepsListing kept := by
  intro claim
  have ran : (((world plainUrls smallSidecar).watched nowKept).run (emptyWorld, none)
      (lostStart ++ landsBefore)).map (fun both => (both.2, both.1.process.map fun process =>
        (process.task.phase, process.agent.listingKey))) =
      some (some 101, some (.runs, 100)) := by
    decide +kernel
  have meets : ((world plainUrls smallSidecar).watched nowKept).Meets
      (fun both event => OneConfig (smallConfig smallSection) event ∧ InUse both event)
      (emptyWorld, none) (lostStart ++ landsBefore) := by
    decide +kernel
  obtain ⟨⟨finish, kept⟩, reached, same⟩ := Option.map_eq_some_iff.mp ran
  obtain ⟨rfl, running⟩ : kept = some 101 ∧ finish.process.map (fun process =>
    (process.task.phase, process.agent.listingKey)) = some (.runs, 100) := Prod.mk.inj same
  obtain ⟨process, isThere, found⟩ := Option.map_eq_some_iff.mp running
  obtain ⟨runs, key⟩ := Prod.mk.inj found
  have keeps := claim plainUrls smallSidecar (smallConfig smallSection) emptyWorld finish _ _
    emptyWorld_unstarted meets reached
  have isKept := keeps.runs process isThere runs
  rw [key] at isKept
  revert isKept
  decide

end State

end CommunityLb
