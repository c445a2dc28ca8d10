import CommunityLb.Marketplace.Listing
import CommunityLb.Marketplace.Refresh

/-!
# Accepted or extended

An extended agreement is told from an accepted one by the life memory has it with.  An acceptance is
in memory from the head its poll read, so the blocks until it lands count as its life.
-/

namespace CommunityLb

/-! ## The chain -/

/-- The expiries that rows were first on the chain with. -/
abbrev Firsts := EntityKey → Option Nat

/-- One step: a row that is new is first there with the expiry it has. -/
def nowFirst (before : Firsts) (_ : State) (_ : Event) (next : State) : Firsts := fun key =>
  (before key).or (next.chain.expiryOf key)

/-- An agreement that the LB wrote. -/
structure Stored.AgreedBy (me : Address) (row : Stored Record) : Prop where
  creator : row.creator = me
  agreement : row.record.asAgreement.isSome = true

theorem Stored.Became.agreedBy {me : Address} {row now : Stored Record} (became : row.Became now) :
    now.AgreedBy me ↔ row.AgreedBy me := by
  constructor
  · rintro ⟨creator, agreement⟩
    exact ⟨became.creator ▸ creator, became.agreement ▸ agreement⟩
  · rintro ⟨creator, agreement⟩
    exact ⟨became.creator.trans creator, became.agreement.symm ▸ agreement⟩

/-- A life is that of an acceptance, or at least that of an extend. -/
def Marketplace.Lasts (section_ : Marketplace) (createdAt expiresAt : Nat) : Prop :=
  expiresAt = createdAt + blocks section_.offerMaxLifetime ∨
    createdAt + blocks section_.agreementLife ≤ expiresAt

namespace Chain

variable {me : Address} {section_ : Marketplace} {base chain next : Chain} {firsts : Firsts}

/-- The LB's agreements were first there with the life of an acceptance, and have that or the life of
an extend. -/
def Aged (chain : Chain) (me : Address) (section_ : Marketplace) (firsts : Firsts) : Prop :=
  ∀ key row, chain.entities.get? key = some row → row.AgreedBy me →
    firsts key = some (row.createdAt + blocks section_.offerMaxLifetime) ∧
      section_.Lasts row.createdAt row.expiresAt

/-- An agreement is created for the life of an acceptance, and an extend is of a row that is there, for
an agreement to the life of one. -/
def Fits (chain : Chain) (section_ : Marketplace) : Operation → Prop
  | .create (.agreement _) seconds => seconds = section_.offerMaxLifetime.asSecs
  | .extend key seconds => ∃ row, chain.entities.get? key = some row ∧
      (row.record.asAgreement.isSome = true → seconds = section_.agreementLife.asSecs)
  | _ => True

theorem Fits.stays {operation : Operation} (fits : chain.Fits section_ operation)
    (stays : chain.Stays next) : next.Fits section_ operation := by
  cases operation with
  | create record seconds => cases record <;> exact fits
  | extend key seconds =>
      obtain ⟨row, found, life⟩ := fits
      obtain ⟨now, isNow, became⟩ := stays.row key row found
      exact ⟨now, isNow, became.agreement ▸ life⟩
  | _ => trivial

theorem Fits.quiet {operation : Operation} (quiet : operation.Quiet) :
    chain.Fits section_ operation := by
  unfold Operation.Quiet at quiet
  split at quiet
  · trivial
  · trivial
  · trivial
  · cases quiet

/-- A later chain: an agreement that is new has the life of an acceptance, and one that was there has
the expiry it had or the life of an extend. -/
structure Ages (base : Chain) (me : Address) (section_ : Marketplace) (chain : Chain) : Prop where
  stays : base.Stays chain
  dated : chain.Dated
  fresh : ∀ key row, chain.entities.get? key = some row → row.AgreedBy me →
    base.entities.get? key = none → row.expiresAt = row.createdAt + blocks section_.offerMaxLifetime
  known : ∀ key row was, chain.entities.get? key = some row → row.AgreedBy me →
    base.entities.get? key = some was →
      row.expiresAt = was.expiresAt ∨ row.createdAt + blocks section_.agreementLife ≤ row.expiresAt

theorem Ages.refl (dated : chain.Dated) : chain.Ages me section_ chain where
  stays := .refl chain
  dated := dated
  fresh := by
    intro key row found _ absent
    rw [found] at absent
    cases absent
  known := by
    intro key row was found _ isWas
    rw [found] at isWas
    cases isWas
    exact .inl rfl

theorem Ages.advance (ages : base.Ages me section_ chain) (count : Nat) :
    base.Ages me section_ (chain.advance count) where
  stays := ages.stays.trans (advance_stays chain count)
  dated := ages.dated.advance count
  fresh := ages.fresh
  known := ages.known

/-- A row is added under a key that was free. -/
theorem Ages.insert (ages : base.Ages me section_ chain) {row : Stored Record}
    (free : chain.entities.get? row.key = none) (now : row.createdAt ≤ chain.head)
    (life : row.AgreedBy me → row.expiresAt = row.createdAt + blocks section_.offerMaxLifetime) :
    base.Ages me section_ { chain with entities := chain.entities.insert row } where
  stays := ages.stays.trans (.insert free)
  dated := ages.dated.insert now
  fresh := by
    intro key found isFound mine absent
    simp only [Keyed.get?_insert] at isFound
    split at isFound
    · cases isFound
      exact life mine
    · exact ages.fresh key found isFound mine absent
  known := by
    intro key found was isFound mine isWas
    simp only [Keyed.get?_insert] at isFound
    split at isFound
    · next same =>
        obtain ⟨other, isOther, _⟩ := ages.stays.row key was isWas
        rw [same, free] at isOther
        cases isOther
    · exact ages.known key found was isFound mine isWas

/-- A row changes, its expiry not or to the life of an extend. -/
theorem Ages.adjust (ages : base.Ages me section_ chain) {key : EntityKey}
    {change : Stored Record → Stored Record} {keeps : ∀ row, (change row).key = row.key}
    (became : ∀ row, chain.entities.get? key = some row → row.Became (change row))
    (life : ∀ row, chain.entities.get? key = some row → row.AgreedBy me →
      (change row).expiresAt = row.expiresAt ∨ (base.entities.get? key).isSome ∧
        row.createdAt + blocks section_.agreementLife ≤ (change row).expiresAt) :
    base.Ages me section_ { chain with entities := chain.entities.adjust key change keeps } where
  stays := ages.stays.trans (.adjust became)
  dated := by
    intro other found isFound
    simp only [Keyed.get?_adjust] at isFound
    split at isFound
    · next same =>
        obtain ⟨row, isRow, rfl⟩ := Option.map_eq_some_iff.mp isFound
        rw [same] at isRow
        exact (became row isRow).createdAt ▸ ages.dated key row isRow
    · exact ages.dated other found isFound
  fresh := by
    intro other found isFound mine absent
    simp only [Keyed.get?_adjust] at isFound
    split at isFound
    · next same =>
        subst same
        obtain ⟨row, isRow, rfl⟩ := Option.map_eq_some_iff.mp isFound
        have mine := (became row isRow).agreedBy.mp mine
        rw [(became row isRow).createdAt]
        rcases life row isRow mine with same | ⟨isThere, _⟩
        · exact same.trans (ages.fresh other row isRow mine absent)
        · rw [absent] at isThere
          cases isThere
    · exact ages.fresh other found isFound mine absent
  known := by
    intro other found was isFound mine isWas
    simp only [Keyed.get?_adjust] at isFound
    split at isFound
    · next same =>
        subst same
        obtain ⟨row, isRow, rfl⟩ := Option.map_eq_some_iff.mp isFound
        have mine := (became row isRow).agreedBy.mp mine
        rw [(became row isRow).createdAt]
        rcases life row isRow mine with same | ⟨_, extended⟩
        · exact (ages.known other row was isRow mine isWas).imp same.trans
            fun extended => same.symm ▸ extended
        · exact .inr extended
    · exact ages.known other found was isFound mine isWas

/-- Operations that fit leave the lives of the agreements so. -/
theorem Ages.operate (ages : base.Ages me section_ chain) {fresh : EntityKey}
    {operation : Operation} (fits : base.Fits section_ operation)
    (operated : chain.operate me fresh operation = some next) : base.Ages me section_ next := by
  cases operation with
  | create record seconds =>
      simp only [Chain.operate] at operated
      split at operated
      · next free =>
          cases operated
          refine ages.insert (by simpa using free) le_rfl ?_
          rintro ⟨_, agreement⟩
          cases record with
          | agreement record =>
              have life : seconds = section_.offerMaxLifetime.asSecs := fits
              rw [life]
              rfl
          | _ => cases agreement
      · cases operated
  | patch key set =>
      simp only [Chain.operate] at operated
      split at operated
      · cases operated
        exact ages.adjust (fun row _ => ⟨rfl, rfl, le_rfl, asAgreement_set row.record set⟩)
          fun _ _ _ => .inl rfl
      · cases operated
  | delete key =>
      simp only [Chain.operate] at operated
      split at operated
      · cases operated
        exact ⟨ages.stays.trans ⟨le_rfl, fun _ row found => ⟨row, found, .refl row⟩⟩, ages.dated,
          ages.fresh, ages.known⟩
      · cases operated
  | extend key seconds =>
      obtain ⟨row, found, life⟩ := fits
      simp only [Chain.operate] at operated
      split at operated
      · next moves =>
          cases operated
          obtain ⟨live, isLive, later⟩ := (Option.any_eq_true _ _).mp moves
          obtain ⟨isThere, _⟩ := Option.filter_eq_some_iff.mp isLive
          refine ages.adjust ?_ ?_
          · intro other isOther
            obtain rfl := Option.some.inj (isOther.symm.trans isThere)
            exact ⟨rfl, rfl, (of_decide_eq_true later).le, rfl⟩
          · intro other isOther mine
            obtain ⟨now, isNow, became⟩ := ages.stays.row key row found
            obtain rfl := Option.some.inj (isOther.symm.trans isNow)
            have seconds := life (became.agreement ▸ mine.agreement)
            refine .inr ⟨by rw [found]; rfl, ?_⟩
            rw [seconds]
            exact Nat.add_le_add_right (ages.dated key other isOther) _
      · cases operated

/-- Blocks of what fits keep the lives of the agreements so. -/
theorem ages_law (base : Chain) (me : Address) (section_ : Marketplace) :
    Chain.Law me (base.Fits section_) (base.Ages me section_) (base.Ages me section_) where
  opens _ count ages := ages.advance (count + 1)
  operates _ _ _ _ ages fits operated := ages.operate fits operated
  closes _ ages := ages
  posts _ _ ages free theirs now :=
    ages.insert free now.le fun mine => absurd mine.creator theirs
  withdraws _ _ _ ages _ _ :=
    ⟨ages.stays.trans ⟨le_rfl, fun _ row found => ⟨row, found, .refl row⟩⟩, ages.dated,
      ages.fresh, ages.known⟩

theorem Aged.ages (aged : chain.Aged me section_ firsts) (ages : chain.Ages me section_ next)
    (unseen : ∀ key, chain.entities.get? key = none → firsts key = none) :
    next.Aged me section_ fun key => (firsts key).or (next.expiryOf key) := by
  intro key row found mine
  cases was : chain.entities.get? key with
  | none =>
      have life := ages.fresh key row found mine was
      refine ⟨?_, .inl life⟩
      simp only [unseen key was, Option.none_or, expiryOf, found, Option.map_some, life]
  | some old =>
      obtain ⟨now, isNow, became⟩ := ages.stays.row key old was
      obtain rfl := Option.some.inj (found.symm.trans isNow)
      obtain ⟨first, lasts⟩ := aged key old was (became.agreedBy.mp mine)
      rw [became.createdAt]
      refine ⟨by simp only [first, Option.some_or], ?_⟩
      rcases ages.known key row old found mine was with same | extended
      · rw [same]
        exact lasts
      · exact .inr (became.createdAt ▸ extended)

/-- What was first there is so later. -/
theorem Aged.later (aged : chain.Aged me section_ firsts) (later : Firsts) :
    chain.Aged me section_ fun key => (firsts key).or (later key) := by
  intro key row found mine
  obtain ⟨first, lasts⟩ := aged key row found mine
  exact ⟨by simp only [first, Option.some_or], lasts⟩

end Chain

/-! ## What is sent -/

/-- A row is there that is no agreement. -/
def Chain.Unagreed (chain : Chain) (key : EntityKey) : Prop :=
  ∃ row, chain.entities.get? key = some row ∧ row.record.asAgreement = none

theorem Chain.Unagreed.stays {chain later : Chain} {key : EntityKey} (unagreed : chain.Unagreed key)
    (stays : chain.Stays later) : later.Unagreed key := by
  obtain ⟨row, found, none⟩ := unagreed
  obtain ⟨now, isNow, became⟩ := stays.row key row found
  exact ⟨now, isNow, became.agreement.trans none⟩

theorem Chain.Unagreed.fits {chain : Chain} {section_ : Marketplace} {key : EntityKey}
    (unagreed : chain.Unagreed key) (seconds : Nat) : chain.Fits section_ (.extend key seconds) := by
  obtain ⟨row, found, none⟩ := unagreed
  refine ⟨row, found, fun some => ?_⟩
  rw [none] at some
  cases some

/-- An operation of a kind is sent when what is queued is. -/
theorem Process.sending_fits {process : Process} {chain : Chain} {batch : Batch}
    (queues : process.task.Queues (chain.Fits process.agent.config))
    (sends : process.sending = some batch) :
    ∀ operation ∈ batch, chain.Fits process.agent.config operation := by
  intro operation member
  unfold sending at sends
  split at sends
  case h_1 task | h_2 task | h_3 task | h_4 task =>
    cases sends
    rw [task] at queues
    exact queues batch List.mem_cons_self operation member
  case h_9 => cases sends
  all_goals
    cases sends
    obtain rfl := List.mem_singleton.mp member
    trivial

namespace State

variable {urls : Urls} {sidecar : Identity} {state next : State}

/-- An admission that runs ran before, or its agreement was in memory. -/
theorem step_admissions {event : Event} (stepped : state.step urls sidecar event = some next)
    {after : Process} (isThere : next.process = some after) :
    ∀ task ∈ after.agent.admissions, ∃ before, state.process = some before ∧
      (task.agreement ∈ before.agent.admissions.map Admission.agreement ∨
        (before.agent.agreements.get? task.agreement).isSome) := by
  have works : ∀ before, state.process = some before →
      (∀ key ∈ after.agent.admissions.map Admission.agreement,
        key ∈ before.agent.admissions.map Admission.agreement) →
      ∀ task ∈ after.agent.admissions, ∃ before, state.process = some before ∧
        (task.agreement ∈ before.agent.admissions.map Admission.agreement ∨
          (before.agent.agreements.get? task.agreement).isSome) :=
    fun before was keeps task member =>
      ⟨before, was, .inl (keeps _ (List.mem_map_of_mem member))⟩
  have same : next.process = state.process → ∀ task ∈ after.agent.admissions,
      ∃ before, state.process = some before ∧
        (task.agreement ∈ before.agent.admissions.map Admission.agreement ∨
          (before.agent.agreements.get? task.agreement).isSome) :=
    fun same => works after (same.symm.trans isThere) fun _ member => member
  have ends : ∀ (agent : Agent) (index : Nat), ∀ key ∈
      (agent.endAdmission index).admissions.map Admission.agreement,
      key ∈ agent.admissions.map Admission.agreement := by
    intro agent index key member
    obtain ⟨task, isTask, rfl⟩ := List.mem_map.mp member
    exact List.mem_map_of_mem (List.mem_of_mem_eraseIdx isTask)
  have awaited : ∀ (agent : Agent) (index expiresAt : Nat), ∀ asked ∈
      (agent.awaitAnswer index expiresAt).admissions,
      ∃ earlier ∈ agent.admissions, earlier.agreement = asked.agreement := by
    intro agent index expiresAt asked member
    obtain ⟨position, isAt⟩ := List.mem_iff_getElem?.mp member
    simp only [Agent.awaitAnswer, List.getElem?_modify] at isAt
    obtain ⟨earlier, wasAt, rfl⟩ := Option.map_eq_some_iff.mp isAt
    refine ⟨earlier, List.mem_of_getElem? wasAt, ?_⟩
    split <;> rfl
  cases event with
  | sealBlocks count fates =>
      obtain ⟨⟨chain, pending⟩, settled, rfl⟩ := Option.map_eq_some_iff.mp stepped
      exact same rfl
  | catchUp count =>
      cases stepped
      exact same rfl
  | post offer =>
      simp only [State.step] at stepped
      split at stepped <;> cases stepped
      exact same rfl
  | withdraw offer =>
      simp only [State.step] at stepped
      split at stepped <;> cases stepped
      exact same rfl
  | launch config =>
      simp only [State.step] at stepped
      split at stepped
      · cases stepped
        cases isThere
        intro task member
        cases member
      · cases stepped
  | crash =>
      obtain ⟨_, _, rfl⟩ := Option.map_eq_some_iff.mp stepped
      cases isThere
  | serve handle =>
      simp only [State.step, State.serve, Option.bind_eq_bind, Option.bind_eq_some_iff] at stepped
      obtain ⟨before, was, _, _, stepped⟩ := stepped
      cases stepped
      cases isThere
      exact works before was fun _ member => member
  | gate handle gate value =>
      obtain ⟨now, changed, rfl⟩ := Option.map_eq_some_iff.mp stepped
      obtain ⟨before, was, changes⟩ := Option.bind_eq_some_iff.mp changed
      cases changes
      cases isThere
      exact works before was fun _ member => member
  | admitted agreement =>
      obtain ⟨now, changed, rfl⟩ := Option.map_eq_some_iff.mp stepped
      obtain ⟨before, was, changes⟩ := Option.bind_eq_some_iff.mp changed
      cases changes
      cases isThere
      intro task member
      refine ⟨before, was, ?_⟩
      simp only [Agent.admitted] at member
      split at member
      · exact .inl (List.mem_map_of_mem member)
      · next live found =>
          split at member
          · exact .inl (List.mem_map_of_mem member)
          · rcases List.mem_append.mp member with old | isNew
            · exact .inl (List.mem_map_of_mem old)
            · obtain rfl := List.mem_singleton.mp isNew
              exact .inr (by rw [found]; rfl)
  | admission index answer =>
      simp only [State.step, State.admissionSent, Option.bind_eq_bind,
        Option.bind_eq_some_iff] at stepped
      obtain ⟨before, was, task, runs, stepped⟩ := stepped
      split at stepped
      · cases stepped
      · obtain ⟨⟨middle, result⟩, sent, stepped⟩ := Option.bind_eq_some_iff.mp stepped
        cases stepped
        cases isThere
        refine works before was ?_
        split
        · split
          · intro key member
            obtain ⟨asked, isAsked, rfl⟩ := List.mem_map.mp member
            obtain ⟨earlier, isEarlier, same⟩ := awaited before.agent index _ asked isAsked
            exact same ▸ List.mem_map_of_mem isEarlier
          · exact ends before.agent index
        · exact ends before.agent index
  | learn index =>
      obtain ⟨now, changed, rfl⟩ := Option.map_eq_some_iff.mp stepped
      obtain ⟨before, was, changes⟩ := Option.bind_eq_some_iff.mp changed
      simp only [admissionAnswered, Option.bind_eq_bind, Option.bind_eq_some_iff] at changes
      obtain ⟨task, runs, expiresAt, answer, changes⟩ := changes
      cases changes
      cases isThere
      exact works before was (ends (before.agent.learnExpiry task.agreement expiresAt) index)
  | endAdmission index =>
      obtain ⟨now, changed, rfl⟩ := Option.map_eq_some_iff.mp stepped
      obtain ⟨before, was, changes⟩ := Option.bind_eq_some_iff.mp changed
      simp only [Option.bind_eq_bind, Option.bind_eq_some_iff] at changes
      obtain ⟨task, _, changes⟩ := changes
      split at changes
      · cases changes
      · cases changes
        cases isThere
        exact works before was (ends before.agent index)
  | tick tick =>
      obtain ⟨now, changed, rfl⟩ := Option.map_eq_some_iff.mp stepped
      obtain ⟨before, was, changes⟩ := Option.bind_eq_some_iff.mp changed
      split at changes
      · cases changes
        cases isThere
        exact works before was fun _ member => member
      · cases changes
  | read shown order =>
      simp only [State.step, State.readAnswered, Option.bind_eq_bind,
        Option.bind_eq_some_iff] at stepped
      obtain ⟨before, was, reading, reads, reply, replied, stepped⟩ := stepped
      cases stepped
      cases isThere
      refine works before was ?_
      rcases Process.read_works
          { before with
            agent := { before.agent with agreements := before.agent.agreements.reorder order } }
          order reply with ⟨head, rows, task, rfl⟩ | keeps
      · have task : before.task = .listings head := task
        intro key member
        simpa [Process.read, task, Process.ensureListing_admissions] using member
      · intro key member
        rw [keeps.admissions] at member
        exact member
  | unread =>
      obtain ⟨now, changed, rfl⟩ := Option.map_eq_some_iff.mp stepped
      obtain ⟨before, was, changes⟩ := Option.bind_eq_some_iff.mp changed
      obtain ⟨_, _, rfl⟩ := Option.map_eq_some_iff.mp changes
      cases isThere
      refine works before was fun key member => ?_
      rw [before.unread_works.admissions] at member
      exact member
  | countServed order =>
      obtain ⟨now, changed, rfl⟩ := Option.map_eq_some_iff.mp stepped
      obtain ⟨before, was, changes⟩ := Option.bind_eq_some_iff.mp changed
      cases isThere
      refine works before was ?_
      simp only [Process.countServed] at changes
      split at changes
      · cases changes
        intro key member
        rw [(Process.afterCounts_works _ _ _ _ _ _).admissions] at member
        exact member
      · cases changes
  | portLooked isBound =>
      obtain ⟨now, changed, rfl⟩ := Option.map_eq_some_iff.mp stepped
      obtain ⟨before, was, changes⟩ := Option.bind_eq_some_iff.mp changed
      cases isThere
      refine works before was ?_
      rw [Process.portLooked] at changes
      split at changes
      · cases changes
        split
        · simp only
          split <;> exact fun _ member => member
        · exact fun _ member => member
      · cases changes
  | write answer =>
      simp only [State.step, State.writeAnswered, Option.bind_eq_bind,
        Option.bind_eq_some_iff] at stepped
      obtain ⟨before, was, batch, sends, ⟨middle, result⟩, sent, stepped⟩ := stepped
      cases stepped
      cases isThere
      refine works before was fun key member => ?_
      rw [Process.written_admissions] at member
      exact member

/-- The listing that a process runs with, and the one that a start patches, are no agreements. -/
structure ListsApart (state : State) : Prop where
  runs : ∀ process ∈ state.process, process.task.phase = .runs →
    state.chain.Unagreed process.agent.listingKey
  patches : ∀ process ∈ state.process, ∀ key expiresAt, process.task = .patchListing key expiresAt →
    state.chain.Unagreed key

/-- A listing that a page shows is no agreement. -/
theorem Trails.listing {query : Query} {shown : List EntityKey} {rows : List (Stored Record)}
    (trails : state.Trails) (page : state.view.page query shown = some rows)
    {kept : Stored LbListing}
    (member : kept ∈ oldestFirst (rows.filterMap (Stored.decode Record.asListing))) :
    state.chain.Unagreed kept.key := by
  obtain ⟨row, inRows, decoded⟩ := List.mem_filterMap.mp (mem_oldestFirst.mp member)
  obtain ⟨listing, isListing, rfl⟩ := Option.map_eq_some_iff.mp decoded
  obtain ⟨now, isNow, became⟩ := trails.shown page inRows
  refine ⟨now, isNow, became.agreement.trans ?_⟩
  cases record : row.record with
  | agreement agreement =>
      rw [record] at isListing
      cases isListing
  | _ => rfl

theorem ListsApart.step (apart : state.ListsApart) (trails : state.Trails) {event : Event}
    (stepped : state.step urls sidecar event = some next) : next.ListsApart := by
  have stays := (step_advances stepped).stays
  suffices ∀ after, next.process = some after →
      (after.task.phase = .runs → next.chain.Unagreed after.agent.listingKey) ∧
        ∀ key expiresAt, after.task = .patchListing key expiresAt → next.chain.Unagreed key from
    ⟨fun after isThere => (this after isThere).1, fun after isThere => (this after isThere).2⟩
  intro after isThere
  cases step_start stepped isThere with
  | launch given now =>
      subst now
      exact ⟨fun runs => (by cases runs), fun key expiresAt task => (by cases task)⟩
  | stays was same task keeps =>
      rename_i before
      constructor
      · intro runs
        have ran : before.task.phase = .runs := by
          rcases task with task | ⟨_, phase⟩ | refused
          · exact task ▸ runs
          · exact phase.symm.trans runs
          · cases refused.symm.trans runs
        exact same.listingKey ▸ (apart.runs before was ran).stays stays
      · intro key expiresAt isTask
        have lists : after.task.phase = .lists := by rw [isTask]; rfl
        rcases task with task | ⟨unlisted, phase⟩ | refused
        · exact (apart.patches before was key expiresAt (task ▸ isTask)).stays stays
        · exact absurd (phase.symm.trans lists) unlisted
        · cases refused.symm.trans lists
  | found was task page now chain =>
      subst now
      rw [Process.ensureListing]
      split
      · exact ⟨fun runs => (by cases runs), fun key expiresAt task => (by cases task)⟩
      · next kept rest order' =>
          have unagreed : next.chain.Unagreed kept.key := by
            rw [chain]
            exact trails.listing page (by rw [order']; exact List.mem_cons_self)
          split
          · refine ⟨fun _ => unagreed, fun key expiresAt task => ?_⟩
            cases task
          · refine ⟨fun runs => ?_, fun key expiresAt task => ?_⟩
            · cases runs
            · cases task
              exact unagreed
  | @listed before batch answer sent result was lists sends answered now chain =>
      subst now
      rcases Task.lists_cases lists with task | ⟨key, expiresAt, task⟩
      · simp only [Process.written, task]
        cases answer with
        | failed error lost =>
            obtain rfl := send_failed answered
            exact ⟨fun runs => (by cases runs), fun key expiresAt task => (by cases task)⟩
        | landed fates keys =>
            simp only [Process.sending, task, Option.some.injEq] at sends
            subst sends
            obtain ⟨earlier, _, _, length, executed, _, rfl⟩ := send_landed answered
            obtain ⟨key, rfl⟩ := List.length_eq_one_iff.mp (length : keys.length = 1)
            obtain ⟨landed, operated, done⟩ := Option.bind_eq_some_iff.mp executed
            have done : landed = sent.chain := Option.some.inj done
            have created := Chain.operate_created operated
            refine ⟨fun _ => ?_, fun key expiresAt task => by cases task⟩
            rw [chain, ← done]
            exact ⟨_, created, rfl⟩
      · have unagreed := (apart.patches before was key expiresAt task).stays stays
        simp only [Process.written, task]
        split
        · exact ⟨fun _ => unagreed, fun key expiresAt task => by cases task⟩
        · exact ⟨fun runs => (by cases runs), fun key expiresAt task => (by cases task)⟩

end State

/-! ## Memory -/

/-- The head that an acceptance's poll read. -/
def Task.acceptHead : Task → Option Nat
  | .acceptAgreement discovery _ _ => some discovery.head
  | _ => none

/-- An agreement in memory and its row: the creation block that memory has is so little early that an
accepted life does not count as an extended one. -/
structure Remembers (chain : Chain) (me : Address) (section_ : Marketplace) (key : EntityKey)
    (stored : Stored Agreement) (row : Stored Record) : Prop where
  found : chain.entities.get? key = some row
  mine : row.AgreedBy me
  estimate : row.createdAt + blocks section_.offerMaxLifetime <
    stored.createdAt + blocks section_.agreementLife
  lasts : section_.Lasts row.createdAt stored.expiresAt

theorem Remembers.stays {chain later : Chain} {me : Address} {section_ : Marketplace}
    {key : EntityKey} {stored : Stored Agreement} {row : Stored Record}
    (remembers : Remembers chain me section_ key stored row) (stays : chain.Stays later) :
    ∃ now, Remembers later me section_ key stored now := by
  obtain ⟨now, isNow, became⟩ := stays.row key row remembers.found
  exact ⟨now, isNow, became.agreedBy.mpr remembers.mine, became.createdAt ▸ remembers.estimate,
    became.createdAt ▸ remembers.lasts⟩

namespace State

/-- An acceptance lands before its life, counted from the head its poll read, is as long as that of an
extend. -/
def LandsSoon (state : State) : Event → Prop
  | .write (.landed _ _) => ∀ process ∈ state.process, ∀ head ∈ process.task.acceptHead,
      state.chain.head + 1 + blocks process.agent.config.offerMaxLifetime <
        head + blocks process.agent.config.agreementLife
  | _ => True

instance (state : State) : (event : Event) → Decidable (state.LandsSoon event)
  | .write (.landed _ _) => by unfold LandsSoon; infer_instance
  | .write (.failed _ _) | .read _ _ | .sealBlocks _ _ | .catchUp _ | .post _ | .withdraw _
  | .launch _ | .crash | .serve _ | .gate _ _ _ | .admitted _ | .admission _ _ | .learn _
  | .endAdmission _ | .tick _ | .unread | .countServed _ | .portLooked _ => isTrue trivial

/-- What holds while the LB runs under one section. -/
structure Traces (sidecar : Identity) (section_ : Marketplace) (both : State × Firsts) : Prop where
  abreast : both.1.Abreast
  own : ∀ process ∈ both.1.process,
    process.agent.config = section_ ∧ process.agent.identity = sidecar
  shorter : ∀ process ∈ both.1.process,
    blocks section_.offerMaxLifetime < blocks section_.agreementLife
  pending : ∀ batch ∈ both.1.pending, ∀ operation ∈ batch, both.1.chain.Fits section_ operation
  queues : ∀ process ∈ both.1.process, process.task.Queues (both.1.chain.Fits section_)
  admissions : ∀ process ∈ both.1.process, ∀ task ∈ process.agent.admissions,
    (both.1.chain.entities.get? task.agreement).isSome
  apart : both.1.ListsApart
  aged : both.1.chain.Aged sidecar.address section_ both.2
  behind : ∀ earlier ∈ both.1.behind, earlier.Aged sidecar.address section_ both.2
  unseen : ∀ key, both.1.chain.entities.get? key = none → both.2 key = none
  memory : ∀ process ∈ both.1.process, ∀ key stored handle,
    process.agent.stands key = some (stored, handle) →
      ∃ row, Remembers both.1.chain sidecar.address section_ key stored row

variable {urls : Urls} {sidecar : Identity} {state next : State} {section_ : Marketplace}
variable {firsts : Firsts}

/-- An extend to the life of an agreement fits whatever row is there. -/
theorem fits_extend {chain : Chain} {key : EntityKey} (isThere : (chain.entities.get? key).isSome) :
    chain.Fits section_ (.extend key section_.agreementLife.asSecs) := by
  obtain ⟨row, found⟩ := Option.isSome_iff_exists.mp isThere
  exact ⟨row, found, fun _ => rfl⟩

theorem Traces.sends (traces : Traces sidecar section_ (state, firsts)) :
    state.SendsOnly (state.chain.Fits section_) where
  pending := traces.pending
  process process isThere batch sends := by
    have queues := traces.queues process isThere
    rw [← (traces.own process isThere).1] at queues ⊢
    exact Process.sending_fits queues sends
  admissions process isThere task member := by
    rw [(traces.own process isThere).1]
    exact fits_extend (traces.admissions process isThere task member)

/-- A refresh extends the listing, and agreements that are there. -/
theorem Traces.refreshes (traces : Traces sidecar section_ (state, firsts)) {process : Process}
    (isThere : state.process = some process) :
    process.Refreshes (state.chain.Fits section_) := by
  intro task
  have listing := traces.apart.runs process isThere (by rw [task]; rfl)
  refine ⟨listing.fits _, fun live member => ?_⟩
  have stands : process.agent.stands live.key = some (live.agreement, live.provider) :=
    Agent.stands_eq_some.mpr ⟨live, member, rfl, rfl, rfl⟩
  obtain ⟨row, remembers⟩ := traces.memory process isThere _ _ _ stands
  rw [(traces.own process isThere).1]
  exact fits_extend (by rw [remembers.found]; rfl)

/-- What a step makes of the chain. -/
theorem Traces.ages (traces : Traces sidecar section_ (state, firsts)) {event : Event}
    (stepped : state.step urls sidecar event = some next) :
    state.chain.Ages sidecar.address section_ next.chain ∧
      ∀ batch ∈ next.pending, ∀ operation ∈ batch, state.chain.Fits section_ operation :=
  step_law_only (Chain.ages_law state.chain sidecar.address section_) traces.sends
    (.refl traces.abreast.trails.dated) stepped

/-- A write that lands does so in the next block. -/
theorem write_landed_head {fates : List (Option (List EntityKey))} {keys : List EntityKey}
    (stepped : state.step urls sidecar (.write (.landed fates keys)) = some next) :
    next.chain.head = state.chain.head + 1 := by
  simp only [State.step, State.writeAnswered, Option.bind_eq_bind, Option.bind_eq_some_iff] at stepped
  obtain ⟨_, _, _, _, ⟨middle, result⟩, sent, stepped⟩ := stepped
  cases stepped
  obtain ⟨chain, _, head, _, _, same, _⟩ := send_landed sent
  exact same.trans head

/-- Whose the process is and how it is configured, after a step. -/
theorem Traces.own_step (traces : Traces sidecar section_ (state, firsts)) {config : Config}
    (given : config.marketplace = some section_) {event : Event} (one : OneConfig config event)
    (stepped : state.step urls sidecar event = some next) :
    ∀ process ∈ next.process,
      process.agent.config = section_ ∧ process.agent.identity = sidecar := by
  intro after isThere
  cases step_turn stepped with
  | off gone =>
      rw [gone] at isThere
      cases isThere
  | launch launched now =>
      obtain rfl : _ = config := one
      cases given.symm.trans launched
      cases now.symm.trans isThere
      exact ⟨rfl, rfl⟩
  | retains was now retains =>
      cases now.symm.trans isThere
      obtain ⟨config, identity⟩ := traces.own _ was
      exact ⟨retains.config.trans config, retains.identity.trans identity⟩
  | @page before work head shown order rows was task page now chain =>
      cases now.symm.trans isThere
      obtain ⟨config, identity⟩ := traces.own before was
      have same := (Process.reconcileAgreements_works
        { before with
          agent := { before.agent with agreements := before.agent.agreements.reorder order } }
        work head rows).start
      exact ⟨same.config.trans config, same.identity.trans identity⟩
  | accept was task later free row now =>
      cases now.symm.trans isThere
      have own := traces.own _ was
      exact own
  | extend was runs isRow expires now =>
      cases now.symm.trans isThere
      have own := traces.own _ was
      exact own
  | learn was runs answer now chain =>
      cases now.symm.trans isThere
      have own := traces.own _ was
      exact own

/-- What memory has after a step it remembers by. -/
theorem Traces.memory_step (traces : Traces sidecar section_ (state, firsts)) {event : Event}
    (soon : state.LandsSoon event)
    (stepped : state.step urls sidecar event = some next) :
    ∀ process ∈ next.process, ∀ key stored handle,
      process.agent.stands key = some (stored, handle) →
        ∃ row, Remembers next.chain sidecar.address section_ key stored row := by
  have stays := (step_advances stepped).stays
  intro after isThere key stored handle stands
  cases step_turn stepped with
  | off gone =>
      rw [gone] at isThere
      cases isThere
  | launch given now =>
      cases now.symm.trans isThere
      cases stands
  | @retains _ before _ was now retains =>
      cases now.symm.trans isThere
      obtain ⟨row, remembers⟩ := traces.memory before was key stored handle (retains.stands key ▸ stands)
      exact remembers.stays stays
  | @page before work head shown order rows was task page now chain =>
      cases now.symm.trans isThere
      obtain ⟨row, inRows, record, rfl, isAgreement, created, expires, _⟩ :=
        Process.reconcileAgreements_stands (Chain.page_distinct page) stands
      obtain ⟨inView, _, admits⟩ := Chain.page_mem page inRows
      have creator : row.creator = sidecar.address := by
        have asked : before.agent.identity.address = row.creator := by
          simp [Query.admits, Agent.agreementsQuery] at admits
          exact admits.1.2.symm
        rw [← asked, (traces.own before was).2]
      have mine : row.AgreedBy sidecar.address := ⟨creator, by rw [isAgreement]; rfl⟩
      have aged : state.view.Aged sidecar.address section_ firsts := by
        rw [State.view]
        cases shown : state.behind with
        | nil => exact traces.aged
        | cons earlier later => exact traces.behind earlier (by simp [shown])
      obtain ⟨_, lasts⟩ := aged row.key row (Keyed.get?_key inView) mine
      obtain ⟨shownNow, isNow, became⟩ := traces.abreast.trails.shown page inRows
      rw [chain]
      refine ⟨shownNow, isNow, became.agreedBy.mpr mine, ?_, ?_⟩
      · rw [became.createdAt, created]
        exact Nat.add_lt_add_left (traces.shorter before was) _
      · rw [became.createdAt, expires]
        exact lasts
  | @accept before discovery offer port created fates keys was task later free row now =>
      cases now.symm.trans isThere
      obtain ⟨config, _⟩ := traces.own before was
      rw [Agent.stands_insertAgreement] at stands
      split at stands
      · next same =>
          have same : key = created := same
          subst same
          cases stands
          have soon := soon before was discovery.head (by rw [task]; rfl)
          have head := write_landed_head stepped
          rw [config] at soon row
          refine ⟨_, row, ⟨rfl, rfl⟩, ?_, ?_⟩
          · show next.chain.head + blocks section_.offerMaxLifetime <
              discovery.head + blocks section_.agreementLife
            rw [head]
            exact soon
          · rw [config]
            exact .inl rfl
      · obtain ⟨row, remembers⟩ := traces.memory before was key stored handle stands
        exact remembers.stays stays
  | @extend before index task row fates keys was runs isRow expires now =>
      cases now.symm.trans isThere
      obtain ⟨row, remembers⟩ := traces.memory before was key stored handle stands
      exact remembers.stays stays
  | @learn before index task expiresAt was runs answer now chain =>
      cases now.symm.trans isThere
      have stands : (before.agent.learnExpiry task.agreement expiresAt).stands key =
        some (stored, handle) := stands
      rw [stands_learnExpiry] at stands
      split at stands
      · next same =>
          subst same
          obtain ⟨held, isHeld, isStored⟩ := Option.map_eq_some_iff.mp stands
          cases isStored
          obtain ⟨row, remembers⟩ := traces.memory before was _ _ _ isHeld
          have answered : (task.agreement, expiresAt) ∈ before.agent.answers :=
            List.mem_filterMap.mpr ⟨task, List.mem_of_getElem? runs, by rw [answer]; rfl⟩
          obtain ⟨other, extended⟩ := traces.abreast.answers before was _ answered
          obtain rfl := Option.some.inj (remembers.found.symm.trans extended.found)
          have life := extended.life
          rw [(traces.own before was).1] at life
          rw [chain]
          exact ⟨row, remembers.found, remembers.mine, remembers.estimate, .inr life⟩
      · obtain ⟨row, remembers⟩ := traces.memory before was key stored handle stands
        exact remembers.stays stays

theorem Traces.step {config : Config} (traces : Traces sidecar section_ (state, firsts))
    (given : config.marketplace = some section_) {event : Event} (one : OneConfig config event)
    (soon : state.LandsSoon event) (stepped : state.step urls sidecar event = some next) :
    Traces sidecar section_ (next, nowFirst firsts state event next) := by
  have abreast := traces.abreast.step stepped
  have advances := step_advances stepped
  obtain ⟨ages, pending⟩ := traces.ages stepped
  refine ⟨abreast, traces.own_step given one stepped, fun after isThere => ?_,
    fun batch member operation inBatch => (pending batch member operation inBatch).stays
      advances.stays, fun after isThere => ?_, fun after isThere task member => ?_,
    traces.apart.step traces.abreast.trails stepped, traces.aged.ages ages traces.unseen,
    fun earlier member => ?_, fun key absent => ?_, traces.memory_step soon stepped⟩
  · rcases step_next stepped isThere with ⟨_, other, _, rfl, valid, launched, _⟩ | ⟨before, was, _⟩
    · obtain rfl : other = config := one
      exact Marketplace.validate_offerMaxLifetime_lt (Config.validate_marketplace valid given)
    · exact traces.shorter before was
  · have queues : after.task.Queues (state.chain.Fits section_) := by
      rcases step_next stepped isThere with ⟨_, _, _, _, _, _, rfl⟩ | ⟨before, was, goes⟩
      · exact Task.queues_of_nil rfl
      · exact goes.queues (fun _ => Chain.Fits.quiet) (traces.refreshes was)
          (traces.queues before was)
    exact fun batch member operation inBatch =>
      (queues batch member operation inBatch).stays advances.stays
  · obtain ⟨before, was, asks⟩ := step_admissions stepped isThere task member
    have isRow : (state.chain.entities.get? task.agreement).isSome := by
      rcases asks with runs | known
      · obtain ⟨earlier, isEarlier, same⟩ := List.mem_map.mp runs
        exact same ▸ traces.admissions before was earlier isEarlier
      · obtain ⟨live, found⟩ := Option.isSome_iff_exists.mp known
        have stands : before.agent.stands task.agreement = some (live.agreement, live.provider) := by
          rw [Agent.stands, found]
          rfl
        obtain ⟨row, remembers⟩ := traces.memory before was _ _ _ stands
        rw [remembers.found]
        rfl
    obtain ⟨row, found⟩ := Option.isSome_iff_exists.mp isRow
    obtain ⟨now, isNow, _⟩ := advances.stays.row _ row found
    rw [isNow]
    rfl
  · rcases advances.behind earlier member with old | rfl
    · exact (traces.behind earlier old).later _
    · exact traces.aged.later _
  · have wasAbsent : state.chain.entities.get? key = none := by
      refine Option.eq_none_iff_forall_ne_some.mpr fun old found => ?_
      obtain ⟨row, isRow, _⟩ := advances.stays.row _ _ found
      rw [absent] at isRow
      cases isRow
    have unseen : firsts key = none := traces.unseen key wasAbsent
    simp [nowFirst, unseen, Chain.expiryOf, absent]

/-- A world in which the LB's key has written nothing. -/
structure Unwritten (sidecar : Identity) (state : State) : Prop where
  unstarted : state.Unstarted
  rows : ∀ key row, state.chain.entities.get? key = some row → row.creator ≠ sidecar.address

theorem Unwritten.traces (unwritten : state.Unwritten sidecar) :
    Traces sidecar section_ (state, fun _ => none) where
  abreast := unwritten.unstarted.origin.abreast
  own := by simp [unwritten.unstarted.origin.process]
  shorter := by simp [unwritten.unstarted.origin.process]
  pending := by simp [unwritten.unstarted.pending]
  queues := by simp [unwritten.unstarted.origin.process]
  admissions := by simp [unwritten.unstarted.origin.process]
  apart := ⟨by simp [unwritten.unstarted.origin.process],
    by simp [unwritten.unstarted.origin.process]⟩
  aged key row found mine := absurd mine.creator (unwritten.rows key row found)
  behind := by
    intro earlier member key row found mine
    obtain ⟨now, isNow, became⟩ :=
      (unwritten.unstarted.origin.trails.behind earlier member).row key row found
    exact absurd (became.creator.trans mine.creator) (unwritten.rows key now isNow)
  unseen _ _ := rfl
  memory := by simp [unwritten.unstarted.origin.process]

/-- An agreement's record was extended: the chain has a later expiry for it than it was first there
with. -/
def WasExtended (both : State × Firsts) (agreement : EntityKey) : Prop :=
  ∃ first ∈ both.2 agreement, ∃ expiresAt ∈ both.1.chain.expiryOf agreement, first < expiresAt

/-- An agreement in memory is told as extended exactly when its record was, and one whose record was
not is extended at its admission. -/
structure TellsExtended (both : State × Firsts) : Prop where
  extended : ∀ process ∈ both.1.process, ∀ live ∈ process.agent.agreements.values,
    (Agent.wasExtended live process.agent.config.agreementLife = true ↔ WasExtended both live.key)
  admits : ∀ process ∈ both.1.process, ∀ live ∈ process.agent.agreements.values,
    ¬ WasExtended both live.key → (process.agent.admitted live.key).admitting live.key = true

/-- An agreement in memory whose record was extended is not there any more with the expiry that the
record was first on the chain with. -/
def Heard (both : State × Firsts) (live : Live) : Prop :=
  WasExtended both live.key → ∃ first ∈ both.2 live.key, first < live.agreement.expiresAt

/-- The admission of an agreement that is not told as extended runs. -/
theorem admitted_admitting {agent : Agent} {live : Live} (member : live ∈ agent.agreements.values)
    (unextended : Agent.wasExtended live agent.config.agreementLife = false) :
    (agent.admitted live.key).admitting live.key = true := by
  have found : agent.agreements.get? live.key = some live := Keyed.get?_key member
  rw [Agent.admitted, found]
  simp only [unextended, Bool.false_eq_true, false_or]
  split
  · next runs => exact runs
  · simp [Agent.admitting]

/-- The record of an agreement in memory, with the expiry it was first there with, and how the
agreement is told. -/
theorem Traces.tells (traces : Traces sidecar section_ (state, firsts)) {process : Process}
    (isThere : state.process = some process) {live : Live}
    (member : live ∈ process.agent.agreements.values) :
    ∃ first expiresAt, firsts live.key = some first ∧
      state.chain.expiryOf live.key = some expiresAt ∧ live.agreement.expiresAt ≤ expiresAt ∧
        (Agent.wasExtended live process.agent.config.agreementLife = true ↔
          first < live.agreement.expiresAt) := by
  have stands : process.agent.stands live.key = some (live.agreement, live.provider) :=
    Agent.stands_eq_some.mpr ⟨live, member, rfl, rfl, rfl⟩
  obtain ⟨row, remembers⟩ := traces.memory process isThere _ _ _ stands
  obtain ⟨other, backs⟩ := traces.abreast.known process isThere _ _ _ stands
  obtain rfl := Option.some.inj (remembers.found.symm.trans backs.found)
  obtain ⟨first, _⟩ := traces.aged live.key row remembers.found remembers.mine
  have expiry : state.chain.expiryOf live.key = some row.expiresAt := by
    rw [Chain.expiryOf, remembers.found, Option.map_some]
  refine ⟨_, row.expiresAt, first, expiry, backs.expiresAt, ?_⟩
  have shorter := traces.shorter process isThere
  have estimate := remembers.estimate
  have early := backs.createdAt
  rw [(traces.own process isThere).1]
  simp only [Agent.wasExtended, ge_iff_le, decide_eq_true_eq]
  rcases remembers.lasts with accepted | extended
  · rw [accepted]
    omega
  · omega

/-- An agreement is told as its record is, once memory has heard. -/
theorem Traces.told_iff (traces : Traces sidecar section_ (state, firsts)) {process : Process}
    (isThere : state.process = some process) {live : Live}
    (member : live ∈ process.agent.agreements.values) :
    (Agent.wasExtended live process.agent.config.agreementLife = true ↔
      WasExtended (state, firsts) live.key) ↔ Heard (state, firsts) live := by
  obtain ⟨first, expiresAt, isFirst, expiry, notLater, tells⟩ := traces.tells isThere member
  have extended : WasExtended (state, firsts) live.key ↔ first < expiresAt := by
    simp [WasExtended, isFirst, expiry]
  have heard : Heard (state, firsts) live ↔
      (first < expiresAt → first < live.agreement.expiresAt) := by
    rw [Heard, extended]
    simp [isFirst]
  rw [tells, extended, heard]
  constructor
  · exact fun same later => same.mpr later
  · exact fun hears => ⟨fun told => told.trans_le notLater, hears⟩

theorem Traces.admits (traces : Traces sidecar section_ (state, firsts)) {process : Process}
    (isThere : state.process = some process) {live : Live}
    (member : live ∈ process.agent.agreements.values)
    (unextended : ¬ WasExtended (state, firsts) live.key) :
    (process.agent.admitted live.key).admitting live.key = true := by
  obtain ⟨first, expiresAt, isFirst, expiry, notLater, tells⟩ := traces.tells isThere member
  refine admitted_admitting member (Bool.eq_false_iff.mpr fun told => unextended ?_)
  exact ⟨first, isFirst, expiresAt, expiry, (tells.mp told).trans_le notLater⟩

/-- In every run under one configuration whose acceptances land soon, the agreements in memory are
told apart, and extended at their admission when they never were, exactly when memory has heard of
the extends that landed; and whatever it has heard, an agreement that never was extended is told so
and extended at its admission. -/
theorem tells_extended {config : Config} (given : config.marketplace = some section_)
    {start finish : State} {events : List Event} (unwritten : start.Unwritten sidecar)
    (meets : ((world urls sidecar).watched nowFirst).Meets
      (fun both event => OneConfig config event ∧ both.1.LandsSoon event) (start, fun _ => none)
      events)
    (reached : ((world urls sidecar).watched nowFirst).run (start, fun _ => none) events =
      some (finish, firsts)) :
    (TellsExtended (finish, firsts) ↔ ∀ process ∈ finish.process,
      ∀ live ∈ process.agent.agreements.values, Heard (finish, firsts) live) ∧
    ∀ process ∈ finish.process, ∀ live ∈ process.agent.agreements.values,
      ((Agent.wasExtended live process.agent.config.agreementLife = true ↔
        WasExtended (finish, firsts) live.key) ↔ Heard (finish, firsts) live) ∧
      (∃ first ∈ firsts live.key, ∃ expiresAt ∈ finish.chain.expiryOf live.key,
        live.agreement.expiresAt ≤ expiresAt ∧
        (Agent.wasExtended live process.agent.config.agreementLife = true ↔
          first < live.agreement.expiresAt)) ∧
      (¬ WasExtended (finish, firsts) live.key →
        Agent.wasExtended live process.agent.config.agreementLife = false ∧
          (process.agent.admitted live.key).admitting live.key = true) := by
  have preserved : ∀ (both : State × Firsts) (event : Event) (next : State × Firsts),
      Traces sidecar section_ both → (OneConfig config event ∧ both.1.LandsSoon event) →
        ((world urls sidecar).watched nowFirst).step both event = some next →
          Traces sidecar section_ next := by
    rintro both event next traces ⟨one, soon⟩ stepped
    obtain ⟨after, ran, rfl⟩ := Option.map_eq_some_iff.mp stepped
    exact Traces.step traces given one soon ran
  have traces := Machine.run_invariant preserved unwritten.traces meets reached
  refine ⟨⟨?_, fun heard => ⟨?_, ?_⟩⟩, fun process isThere live member => ⟨?_, ?_, ?_⟩⟩
  · exact fun told process isThere live member =>
      (traces.told_iff isThere member).mp (told.extended process isThere live member)
  · exact fun process isThere live member =>
      (traces.told_iff isThere member).mpr (heard process isThere live member)
  · exact fun process isThere live member => traces.admits isThere member
  · exact traces.told_iff isThere member
  · obtain ⟨first, expiresAt, isFirst, expiry, notLater, tells⟩ := traces.tells isThere member
    exact ⟨first, isFirst, expiresAt, expiry, notLater, tells⟩
  · intro unextended
    refine ⟨Bool.eq_false_iff.mpr fun told => unextended ?_, traces.admits isThere member unextended⟩
    obtain ⟨first, expiresAt, isFirst, expiry, notLater, tells⟩ := traces.tells isThere member
    exact ⟨first, isFirst, expiresAt, expiry, (tells.mp told).trans_le notLater⟩

theorem emptyWorld_unwritten (sidecar : Identity) : emptyWorld.Unwritten sidecar where
  unstarted := ⟨emptyWorld_origin, rfl⟩
  rows := by
    intro key row found
    cases found

/-- An acceptance that is extended at admission and read back. -/
theorem tells_extended_small : ∃ finish firsts,
    ((world plainUrls smallSidecar).watched nowFirst).run (emptyWorld, fun _ => none)
      (startUp smallSection ++ acceptance ++ extendAtAdmission ++ answerThenPoll) =
        some (finish, firsts) ∧
      TellsExtended (finish, firsts) ∧ ∃ process ∈ finish.process,
        ∃ live ∈ process.agent.agreements.values, WasExtended (finish, firsts) live.key := by
  have ran : (((world plainUrls smallSidecar).watched nowFirst).run (emptyWorld, fun _ => none)
      (startUp smallSection ++ acceptance ++ extendAtAdmission ++ answerThenPoll)).any
        (fun both => both.1.process.any fun process =>
          process.agent.agreements.values.any (fun live =>
            (both.2 live.key).any fun first => first < live.agreement.expiresAt &&
              (both.1.chain.expiryOf live.key).any (first < ·)) &&
          process.agent.agreements.values.all fun live =>
            (both.2 live.key).any (· < live.agreement.expiresAt)) = true := by
    decide +kernel
  have given : (smallConfig smallSection).marketplace = some smallSection := rfl
  have meets : ((world plainUrls smallSidecar).watched nowFirst).Meets
      (fun both event => OneConfig (smallConfig smallSection) event ∧ both.1.LandsSoon event)
      (emptyWorld, fun _ => none)
      (startUp smallSection ++ acceptance ++ extendAtAdmission ++ answerThenPoll) := by
    decide +kernel
  obtain ⟨⟨finish, firsts⟩, reached, shows⟩ := (Option.any_eq_true _ _).mp ran
  obtain ⟨process, isThere, shows⟩ := (Option.any_eq_true _ _).mp shows
  obtain ⟨some, all⟩ := Bool.and_eq_true_iff.mp shows
  obtain ⟨live, member, some⟩ := List.any_eq_true.mp some
  obtain ⟨first, isFirst, both⟩ := (Option.any_eq_true _ _).mp some
  obtain ⟨-, later⟩ := Bool.and_eq_true_iff.mp both
  obtain ⟨expiresAt, expiry, later⟩ := (Option.any_eq_true _ _).mp later
  have tells := tells_extended given (emptyWorld_unwritten smallSidecar) meets reached
  refine ⟨finish, firsts, reached, tells.1.mpr ?_, process, isThere, live, member, first, isFirst,
    expiresAt, expiry, of_decide_eq_true later⟩
  intro other isOther live member _
  cases isThere.symm.trans isOther
  obtain ⟨first, isFirst, earlier⟩ :=
    (Option.any_eq_true _ _).mp (List.all_eq_true.mp all live member)
  exact ⟨first, isFirst, of_decide_eq_true earlier⟩

/-- A section whose agreements live one block less as accepted than once extended. -/
def closeSection : Marketplace :=
  { smallSection with offerMaxLifetime := Duration.fromSecs 1998 }

/-- An accepted provider turns healthy, and a refresh extends its agreement before the next poll. -/
def refreshUnheard : List Event :=
  [.gate 0 .health true, .sealBlocks 45 [], .catchUp 1, .tick .refresh, answered, answered,
    .write (.landed [] [500, 501])]

/-- With such a section an acceptance that lands in the block after the head its poll read is told as
extended, and its admission never runs.  With any section a refresh that lands is not told until a
poll reads it. -/
theorem accepted_told_extended :
    (¬ ∀ (urls : Urls) (sidecar : Identity) (config : Config) (section_ : Marketplace)
        (start finish : State) (events : List Event) (firsts : Firsts),
      config.marketplace = some section_ → start.Unwritten sidecar →
      ((world urls sidecar).watched nowFirst).Meets (fun _ event => OneConfig config event)
        (start, fun _ => none) events →
      ((world urls sidecar).watched nowFirst).run (start, fun _ => none) events =
        some (finish, firsts) → TellsExtended (finish, firsts)) ∧
    ¬ ∀ (urls : Urls) (sidecar : Identity) (config : Config) (section_ : Marketplace)
        (start finish : State) (events : List Event) (firsts : Firsts),
      config.marketplace = some section_ → start.Unwritten sidecar →
      ((world urls sidecar).watched nowFirst).Meets
        (fun both event => OneConfig config event ∧ both.1.LandsSoon event)
        (start, fun _ => none) events →
      ((world urls sidecar).watched nowFirst).run (start, fun _ => none) events =
        some (finish, firsts) → TellsExtended (finish, firsts) := by
  refine ⟨fun claim => ?_, fun claim => ?_⟩
  · have ran : (((world plainUrls smallSidecar).watched nowFirst).run (emptyWorld, fun _ => none)
        (startUp closeSection ++ acceptance)).any (fun both => both.1.process.any fun process =>
          process.agent.agreements.values.any fun live =>
            !(process.agent.admitted live.key).admitting live.key &&
              both.1.chain.expiryOf live.key = both.2 live.key) = true := by
      decide +kernel
    obtain ⟨⟨finish, firsts⟩, reached, shows⟩ := (Option.any_eq_true _ _).mp ran
    obtain ⟨process, isThere, shows⟩ := (Option.any_eq_true _ _).mp shows
    obtain ⟨live, member, shows⟩ := List.any_eq_true.mp shows
    obtain ⟨idle, first⟩ := Bool.and_eq_true_iff.mp shows
    have tells := claim plainUrls smallSidecar (smallConfig closeSection) closeSection emptyWorld
      finish (startUp closeSection ++ acceptance) firsts rfl (emptyWorld_unwritten smallSidecar)
      (by decide +kernel) reached
    have unextended : ¬ WasExtended (finish, firsts) live.key := by
      rintro ⟨was, isWas, expiresAt, expiry, later⟩
      have same := expiry.symm.trans ((of_decide_eq_true first).trans isWas)
      exact Nat.lt_irrefl was (Option.some.inj same ▸ later)
    have runs := tells.admits process isThere live member unextended
    rw [runs] at idle
    cases idle
  · have ran : (((world plainUrls smallSidecar).watched nowFirst).run (emptyWorld, fun _ => none)
        (startUp hourlySection ++ acceptance ++ refreshUnheard)).any (fun both =>
          both.1.process.any fun process => process.agent.agreements.values.any fun live =>
            !Agent.wasExtended live process.agent.config.agreementLife &&
              (both.2 live.key).any fun first =>
                (both.1.chain.expiryOf live.key).any (first < ·)) = true := by
      decide +kernel
    obtain ⟨⟨finish, firsts⟩, reached, shows⟩ := (Option.any_eq_true _ _).mp ran
    obtain ⟨process, isThere, shows⟩ := (Option.any_eq_true _ _).mp shows
    obtain ⟨live, member, shows⟩ := List.any_eq_true.mp shows
    obtain ⟨untold, extended⟩ := Bool.and_eq_true_iff.mp shows
    obtain ⟨first, isFirst, extended⟩ := (Option.any_eq_true _ _).mp extended
    obtain ⟨expiresAt, expiry, later⟩ := (Option.any_eq_true _ _).mp extended
    have tells := claim plainUrls smallSidecar (smallConfig hourlySection) hourlySection emptyWorld
      finish (startUp hourlySection ++ acceptance ++ refreshUnheard) firsts rfl
      (emptyWorld_unwritten smallSidecar) (by decide +kernel) reached
    have told := (tells.extended process isThere live member).mpr
      ⟨first, isFirst, expiresAt, expiry, of_decide_eq_true later⟩
    rw [told] at untold
    cases untold

end State

end CommunityLb
