import CommunityLb.Marketplace.Ground
import CommunityLb.Marketplace.Providers

/-!
# What a reconcile ends

A reconcile counts the agreement records and then reads one page of them; what memory has and the page
does not show is ended.  A write that lands between the two reads can make the page one of several.
-/

namespace CommunityLb

namespace Chain

/-- A key's row is on the chain, and decodes to an agreement. -/
def hasAgreement (chain : Chain) (key : EntityKey) : Bool :=
  (chain.live? key).any (·.record.asAgreement.isSome)

theorem hasAgreement_iff {chain : Chain} {key : EntityKey} :
    chain.hasAgreement key = true ↔ ∃ row record, chain.entities.get? key = some row ∧
      chain.alive row = true ∧ row.record.asAgreement = some record := by
  simp only [hasAgreement, live?, Option.any_eq_true, Option.filter_eq_some_iff,
    Option.isSome_iff_exists]
  constructor
  · rintro ⟨row, ⟨found, alive⟩, record, isAgreement⟩
    exact ⟨row, record, found, alive, isAgreement⟩
  · rintro ⟨row, record, found, alive, isAgreement⟩
    exact ⟨row, ⟨found, alive⟩, record, isAgreement⟩

/-- Of more rows than a page holds, a page may leave any one out. -/
theorem page_without {chain : Chain} {query : Query} (more : PAGE_LIMIT < chain.count query)
    (key : EntityKey) :
    ∃ shown rows, chain.page query shown = some rows ∧ ∀ row ∈ rows, row.key ≠ key := by
  have distinct := (chain.matching query).distinct
  have longer : PAGE_LIMIT ≤ ((chain.matching query).keys.erase key).length := by
    have length : (chain.matching query).keys.length = chain.count query :=
      List.length_map _
    rw [List.length_erase]
    split <;> omega
  have shows : chain.page query (((chain.matching query).keys.erase key).take PAGE_LIMIT) =
      some ((((chain.matching query).keys.erase key).take PAGE_LIMIT).filterMap
        (chain.matching query).get?) := by
    refine if_pos ⟨?_, ?_, ?_⟩
    · exact (distinct.erase key).sublist (List.take_sublist _ _)
    · refine List.all_eq_true.mpr fun other member => ?_
      exact Keyed.mem_keys.mp (List.mem_of_mem_erase (List.mem_of_mem_take member))
    · rw [List.length_take, Nat.min_eq_left longer]
      exact (Nat.min_eq_left more.le).symm
  refine ⟨_, _, shows, ?_⟩
  rintro row member rfl
  obtain ⟨other, isShown, found⟩ := List.mem_filterMap.mp member
  obtain ⟨_, rfl⟩ := Keyed.get?_eq_some.mp found
  exact (distinct.mem_erase_iff.mp (List.mem_of_mem_take isShown)).1 rfl

end Chain

/-- The entity an operation changes. -/
def Operation.target : Operation → Option EntityKey
  | create _ _ => none
  | patch key _ | delete key | extend key _ => some key

theorem pageHead_eq_some {task : Task} {head : Nat} :
    task.pageHead = some head ↔ ∃ work, task = .agreementsPage work head := by
  cases task <;> simp [Task.pageHead]

/-- The final writes a task has to make. -/
def Task.finalWrites : Task → List Batch
  | closeEnded _ _ queue => queue
  | _ => []

/-- A reconcile of a process against a chain keeps the agreements the chain has, their entries in the
pool, and their counter records open. -/
structure KeepsLive (me : Address) (chain : Chain) (before after : Process) : Prop where
  memory : ∀ live ∈ before.agent.agreements.values, chain.hasAgreement live.key →
    ∃ now, after.agent.stands live.key = some (now, live.provider)
  pool : ∀ live ∈ before.agent.agreements.values, chain.hasAgreement live.key →
    live.provider ∈ before.agent.pool.members → live.provider ∈ after.agent.pool.members
  counters : ∀ batch ∈ after.task.finalWrites, ∀ operation ∈ batch, ∀ key ∈ operation.target,
    ∀ agreement, chain.owner me key = some agreement → chain.hasAgreement agreement = false

namespace Agent

variable {agent : Agent} {key : EntityKey} {stored : Stored Agreement} {handle : Handle}

theorem adoptAgreement_keeps (other : Stored Agreement)
    (stands : agent.stands key = some (stored, handle)) :
    ∃ now, (agent.adoptAgreement other).stands key = some (now, handle) := by
  rw [stands_adoptAgreement]
  split
  · simp [stands]
  · exact ⟨stored, stands⟩

/-- What memory has it keeps as it adopts. -/
theorem adoptAgreements_keeps (live : List (Stored Agreement))
    (stands : agent.stands key = some (stored, handle)) :
    ∃ now, (agent.adoptAgreements live).stands key = some (now, handle) := by
  rw [adoptAgreements]
  induction live generalizing agent stored with
  | nil => exact ⟨stored, stands⟩
  | cons other live ih =>
      obtain ⟨now, isNow⟩ := adoptAgreement_keeps other stands
      exact ih isNow

theorem adoptAgreements_members (agent : Agent) (live : List (Stored Agreement)) :
    agent.pool.members ⊆ (agent.adoptAgreements live).pool.members := by
  rw [adoptAgreements]
  induction live generalizing agent with
  | nil => exact List.Subset.refl _
  | cons other live ih =>
      refine List.Subset.trans ?_ (ih (agent.adoptAgreement other))
      rw [adoptAgreement]
      split
      · exact List.Subset.refl _
      · split
        · exact List.Subset.refl _
        · exact List.subset_append_left _ _

/-- Entries of other ids stay in the pool as agreements end. -/
theorem endAgreements_members {live : List EntityKey} {id : String}
    (isEntry : agent.entryId handle = some id)
    (others : ∀ ending ∈ agent.agreements.values, ending.key ∉ live →
      agent.entryId ending.provider ≠ some id)
    (known : ∀ ending ∈ agent.agreements.values, (agent.entryId ending.provider).isSome)
    (member : handle ∈ agent.pool.members) :
    handle ∈ (agent.endAgreements live).1.pool.members := by
  have folded : ∀ (gone : List Live) (after : Agent),
      (∀ other, after.entryId other = agent.entryId other) →
      (∀ ending ∈ gone, ∃ name, agent.entryId ending.provider = some name ∧ name ≠ id) →
      handle ∈ after.pool.members → handle ∈ (gone.foldl endAgreement after).pool.members := by
    intro gone
    induction gone with
    | nil => exact fun after _ _ member => member
    | cons ending gone ih =>
        intro after same differs member
        rw [List.forall_mem_cons] at differs
        refine ih (after.endAgreement ending) same differs.2 ?_
        obtain ⟨name, isName, differs⟩ := differs.1
        have removed : after.providerId ending.provider = name := by
          have isName : (after.pool.entryAt ending.provider).map (·.id) = some name :=
            (same ending.provider).trans isName
          rw [providerId, isName]
          rfl
        refine (List.mem_eraseP_of_neg ?_).mpr member
        have isId : (after.pool.entryAt handle).map (·.id) = some id := (same handle).trans isEntry
        obtain ⟨provider, found, rfl⟩ := Option.map_eq_some_iff.mp isId
        simpa [Pool.named, removed, found] using differs.symm
  refine folded _ agent (fun _ => rfl) (fun ending isEnding => ?_) member
  obtain ⟨inMemory, isGone⟩ := List.mem_filter.mp isEnding
  obtain ⟨name, isName⟩ := Option.isSome_iff_exists.mp (known ending inMemory)
  refine ⟨name, isName, ?_⟩
  rintro rfl
  exact others ending inMemory (by simpa using isGone) isName

end Agent

/-! ## A page -/

section Page

variable {me : Address} {chain : Chain} {process : Process} {work : Work} {head : Nat}
  {rows : List (Stored Record)}

theorem mem_finalWrites {live : List EntityKey} {agent : Agent} {batch : Batch}
    {operation : Operation} {key : EntityKey}
    (member : batch ∈ (Task.afterEnded work head
      (asQueue ((agent.endAgreements live).2.map (finalWrite head)))).finalWrites)
    (inBatch : operation ∈ batch) (isTarget : operation.target = some key) :
    ∃ ending ∈ agent.agreements.values, ending.key ∉ live ∧
      ∃ counter, ending.counter = some counter ∧ counter.key = key := by
  have inQueue : batch ∈ asQueue ((agent.endAgreements live).2.map (finalWrite head)) := by
    rw [Task.afterEnded] at member
    split at member
    · cases member
    · exact member
  rw [asQueue] at inQueue
  split at inQueue
  · cases inQueue
  · obtain rfl := List.mem_singleton.mp inQueue
    obtain ⟨ended, isEnded, rfl⟩ := List.mem_map.mp inBatch
    obtain ⟨ending, isEnding, owed⟩ := List.mem_filterMap.mp isEnded
    obtain ⟨inMemory, isGone⟩ := List.mem_filter.mp isEnding
    obtain ⟨counter, counts, rfl⟩ := Option.map_eq_some_iff.mp owed
    refine ⟨ending, inMemory, by simpa using isGone, counter, counts, ?_⟩
    rw [finalWrite] at isTarget
    split at isTarget <;> exact Option.some.inj isTarget

/-- A page that shows every agreement of memory the chain has keeps them. -/
theorem keepsLive_of_shown (grounded : process.agent.Grounded me chain)
    (housed : process.agent.Housed me chain)
    (shown : ∀ live ∈ process.agent.agreements.values, chain.hasAgreement live.key →
      live.key ∈ (rows.filterMap (Stored.decode Record.asAgreement)).map Stored.key) :
    KeepsLive me chain process (process.reconcileAgreements work head rows) := by
  have keeps : ∀ live ∈ process.agent.agreements.values, chain.hasAgreement live.key →
      live.key ∈ (oldestFirst (rows.filterMap (Stored.decode Record.asAgreement))).map
        Stored.key := by
    intro live member has
    exact ((oldestFirst_perm _).map Stored.key).mem_iff.mpr (shown live member has)
  have stands : ∀ live ∈ process.agent.agreements.values,
      process.agent.stands live.key = some (live.agreement, live.provider) :=
    fun live member => Agent.stands_eq_some.mpr ⟨live, member, rfl, rfl, rfl⟩
  refine ⟨fun live member has => ?_, fun live member has inPool => ?_,
    fun batch member operation inBatch key isTarget agreement owned => ?_⟩
  · have kept := process.agent.stands_endAgreements
      ((oldestFirst (rows.filterMap (Stored.decode Record.asAgreement))).map Stored.key) live.key
    rw [if_pos (keeps live member has)] at kept
    exact Agent.adoptAgreements_keeps _ (kept.trans (stands live member))
  · apply Agent.adoptAgreements_members
    have entry := fun other isOther => housed.entry _ _ _ (stands other isOther)
    refine Agent.endAgreements_members (entry live member) ?_ ?_ inPool
    · intro ending isEnding isGone sameId
      rw [entry ending isEnding, Option.some.injEq] at sameId
      have same := housed.alone _ _ _ _ _ _ (stands ending isEnding) (stands live member)
        (marketplaceId_injective sameId)
      exact isGone (same ▸ keeps live member has)
    · intro ending isEnding
      rw [entry ending isEnding]
      rfl
  · obtain ⟨ending, isEnding, isGone, counter, counts, rfl⟩ :=
      mem_finalWrites member inBatch isTarget
    have same := (grounded.owned ending isEnding counter counts).symm.trans owned
    rw [Option.some.injEq] at same
    rw [← same, Bool.eq_false_iff]
    exact fun has => isGone (keeps ending isEnding has)

theorem KeepsLive.of_reorder {before after : Process} (order : List EntityKey)
    (keeps : KeepsLive me chain
      { before with
        agent := { before.agent with agreements := before.agent.agreements.reorder order } }
      after) : KeepsLive me chain before after where
  memory live member := keeps.memory live (Keyed.mem_reorder.mpr member)
  pool live member := keeps.pool live (Keyed.mem_reorder.mpr member)
  counters := keeps.counters

end Page

namespace State

variable {urls : Urls} {sidecar : Identity} {state next : State}

/-- The agreements of memory that the chain has fit on one page, or there is none. -/
def FitsPage (chain : Chain) (process : Process) (head : Nat) : Prop :=
  chain.count (process.agent.agreementsQuery head) ≤ PAGE_LIMIT ∨
    ∀ live ∈ process.agent.agreements.values, chain.hasAgreement live.key = false

theorem Housed.keepsLive {process : Process} {work : Work} {head : Nat}
    (housed : state.Housed sidecar.address) (grounded : state.Grounded sidecar.address)
    (isThere : state.process = some process) (awaits : process.task = .agreementsPage work head)
    (current : state.behind = []) :
    (∀ shown order next after, state.step urls sidecar (.read shown order) = some next →
        next.process = some after → KeepsLive sidecar.address state.chain process after) ↔
      FitsPage state.chain process head := by
  have isHead : process.task.pageHead = some head := by rw [awaits]; rfl
  have view : state.view = state.chain := by rw [State.view, current]; rfl
  have agentGrounded := (grounded.process process isThere).agent
  have agentHoused := housed.agent process isThere
  constructor
  · intro keeps
    by_contra misses
    simp only [FitsPage, not_or, not_le, not_forall, Bool.not_eq_false] at misses
    obtain ⟨more, live, member, has⟩ := misses
    obtain ⟨shown, rows, page, without⟩ := Chain.page_without more live.key
    obtain ⟨next, stepped⟩ : ∃ next, state.readAnswered shown [] = some next := by
      simp [State.readAnswered, isThere, Task.reading, awaits, State.reply, view, page]
    obtain ⟨work, read, task, isPage, rfl⟩ := readAnswered_page isThere isHead stepped
    rw [view, page] at isPage
    cases isPage
    obtain ⟨now, stands⟩ := (keeps shown [] _ _ stepped rfl).memory live member has
    obtain ⟨row, inRows, _, same, _⟩ :=
      Process.reconcileAgreements_stands (Chain.page_distinct page) stands
    exact without row inRows same
  · intro fits shown order next after stepped isAfter
    obtain ⟨work, rows, task, page, rfl⟩ := readAnswered_page isThere isHead stepped
    cases isAfter
    rw [view] at page
    refine KeepsLive.of_reorder order ?_
    refine keepsLive_of_shown (agentGrounded.reorder order) (agentHoused.retains (.reorder _ order))
      fun live member has => ?_
    have member : live ∈ process.agent.agreements.values := Keyed.mem_reorder.mp member
    rcases fits with fits | none_
    · obtain ⟨row, record, found, alive, isAgreement⟩ := Chain.hasAgreement_iff.mp has
      have stands : process.agent.stands live.key = some (live.agreement, live.provider) :=
        Agent.stands_eq_some.mpr ⟨live, member, rfl, rfl, rfl⟩
      obtain ⟨other, isOther, creator, _⟩ := agentHoused.row _ _ _ stands
      obtain rfl := Option.some.inj (found.symm.trans isOther)
      have isRow := Keyed.get?_eq_some.mp found
      have later : head < row.expiresAt := by
        have read : head ≤ state.chain.head :=
          housed.abreast.headed process isThere head (by rw [awaits]; rfl)
        simp only [Chain.alive, Bool.decide_and, Bool.and_eq_true, decide_eq_true_eq] at alive
        exact read.trans_lt alive.1
      have isKind : row.record.kind = .agreement := by
        cases record : row.record <;> simp_all [Record.asAgreement, Record.kind]
      have admits : (process.agent.agreementsQuery head).admits row = true := by
        simp [Query.admits, Agent.agreementsQuery, isKind, creator, agentHoused.self, later]
      have inRows := Chain.page_whole page fits isRow.1 alive admits
      obtain ⟨stored, decoded, same⟩ : ∃ stored,
          Stored.decode Record.asAgreement row = some stored ∧ stored.key = row.key := by
        simp [Stored.decode, isAgreement]
      exact List.mem_map.mpr ⟨stored, List.mem_filterMap.mpr ⟨row, inRows, decoded⟩,
        same.trans isRow.2⟩
    · rw [none_ live member] at has
      cases has

/-- In any state of a run, a page read at its moment keeps the agreements the chain has, whatever
rows it shows, exactly when all the LB's records fit on one page or memory has none that is there. -/
theorem keepsLive_iff {start middle : State} {events : List Event} {process : Process}
    {work : Work} {head : Nat} (origin : start.Origin) (grounded : start.Grounded sidecar.address)
    (reached : (world urls sidecar).run start events = some middle)
    (isThere : middle.process = some process) (awaits : process.task = .agreementsPage work head)
    (current : middle.behind = []) :
    (∀ shown order next after, middle.step urls sidecar (.read shown order) = some next →
        next.process = some after → KeepsLive sidecar.address middle.chain process after) ↔
      FitsPage middle.chain process head := by
  have preserved : ∀ (state : State) (event : Event) (next : State),
      state.Housed sidecar.address ∧ state.Grounded sidecar.address →
        (world urls sidecar).step state event = some next →
          next.Housed sidecar.address ∧ next.Grounded sidecar.address :=
    fun _ _ _ both stepped => ⟨Housed.step both.1 stepped, Grounded.step both.2 stepped⟩
  have both := Machine.run_preserves preserved ⟨origin.housed _, grounded⟩ reached
  exact both.1.keepsLive both.2 isThere awaits current

theorem emptyWorld_grounded : emptyWorld.Grounded smallSidecar.address := by
  apply Genesis.grounded
  constructor <;> simp [emptyWorld, Keyed.empty]

theorem keepsLive_iff_small :
    ∃ middle process,
      (world plainUrls smallSidecar).run emptyWorld (startUp smallSection ++ acceptance ++
        [.tick .poll, answered, answered]) = some middle ∧ middle.process = some process ∧
      ((∀ shown order next after,
          middle.step plainUrls smallSidecar (.read shown order) = some next →
            next.process = some after →
              KeepsLive smallSidecar.address middle.chain process after) ↔
        FitsPage middle.chain process 3) := by
  have stands : ((world plainUrls smallSidecar).run emptyWorld
      (startUp smallSection ++ acceptance ++ [.tick .poll, answered, answered])).bind (fun state =>
        state.process.map fun process =>
          (process.task.pageHead, state.behind.length)) = some (some 3, 0) := by
    decide +kernel
  obtain ⟨middle, reached, here⟩ := Option.bind_eq_some_iff.mp stands
  obtain ⟨process, isThere, same⟩ := Option.map_eq_some_iff.mp here
  obtain ⟨isHead, current⟩ := Prod.mk.inj same
  obtain ⟨work, awaits⟩ := pageHead_eq_some.mp isHead
  exact ⟨middle, process, reached, isThere,
    keepsLive_iff emptyWorld_origin emptyWorld_grounded reached isThere awaits
      (List.length_eq_zero_iff.mp current)⟩

/-- Agreement records of the LB's key that do not decode, one short of a page. -/
def crowd : List (Stored Record) :=
  (List.range 99).map fun index =>
    { key := BitVec.ofNat 256 (1000 + index)
      creator := smallSidecar.address
      createdAt := 0
      expiresAt := 100000
      record := .unreadable .agreement .opened }

/-- A chain with the crowd, and no process yet. -/
def crowdedWorld : State :=
  { emptyWorld with
    chain :=
      { head := 0
        entities :=
          { values := crowd
            distinct := by decide +kernel }
        gone := [] } }

theorem crowdedWorld_row {key : EntityKey} {row : Stored Record}
    (found : crowdedWorld.chain.entities.get? key = some row) :
    row.createdAt = 0 ∧ row.record = .unreadable .agreement .opened := by
  obtain ⟨index, _, rfl⟩ := List.mem_map.mp (Keyed.get?_eq_some.mp found).1
  exact ⟨rfl, rfl⟩

theorem crowdedWorld_origin : crowdedWorld.Origin where
  process := rfl
  trails :=
    { dated := fun _ _ found => (crowdedWorld_row found).1.le
      behind := by simp [crowdedWorld, emptyWorld] }

theorem crowdedWorld_grounded : crowdedWorld.Grounded smallSidecar.address where
  rooted := by
    refine ⟨by simp [crowdedWorld], fun key agreement owned => ?_⟩
    obtain ⟨row, found, counts⟩ := Option.bind_eq_some_iff.mp owned
    simp [(crowdedWorld_row found).2, Record.asCounter] at counts
  behind := by simp [crowdedWorld, emptyWorld]
  pending := by simp [crowdedWorld, emptyWorld, SaneQueue]
  process := by simp [crowdedWorld, emptyWorld]

/-- Of two acceptances one lands and one is answered as unresolved.  The unresolved one lands between
the next poll's count and its page. -/
def secondLandsBetween : List Event :=
  let crowdKeys := crowd.map Stored.key
  let offer (key : EntityKey) (creator : Address) : Event :=
    .post
      { key := key
        creator := creator
        createdAt := 0
        expiresAt := 300
        record :=
          { lbListing := 100
            chainId := 5 } }
  [.launch (smallConfig smallSection), answered, answered, answered, .read crowdKeys [],
    answered, answered, answered, answered, .write (.landed [] [100]), offer 50 33, offer 51 34,
    .catchUp 3, .tick .poll, answered, answered, .read crowdKeys [], answered, answered,
    .read [50, 51] [], .portLooked false, .write (.landed [] [200]), .write (.landed [] [300]),
    .portLooked false, .write (.failed .unresolved true), .catchUp 2,
    .tick .poll, answered, answered, .sealBlocks 0 [some [201]], .catchUp 1]

/-- The page that shows the later agreement in place of the one in memory. -/
def otherPage : Event :=
  .read (201 :: crowd.map Stored.key) []

/-- An agreement whose record is on the chain is ended, when a write lands between the count and the
page. -/
theorem late_write_ends_live :
    ¬ ∀ (urls : Urls) (sidecar : Identity) (start middle : State) (events : List Event)
        (process : Process) (work : Work) (head : Nat), start.Origin →
      start.Grounded sidecar.address → (world urls sidecar).run start events = some middle →
      middle.process = some process → process.task = .agreementsPage work head →
      middle.behind = [] → ∀ shown order next after,
        middle.step urls sidecar (.read shown order) = some next → next.process = some after →
          KeepsLive sidecar.address middle.chain process after := by
  intro claim
  have stands : ((world plainUrls smallSidecar).run crowdedWorld secondLandsBetween).bind
      (fun state => state.process.map fun process =>
        (process.task.pageHead, state.behind.length, state.chain.hasAgreement 200,
          (process.agent.stands 200).map (·.2))) = some (some 3, 0, true, some 0) := by
    decide +kernel
  have ends : ((world plainUrls smallSidecar).run crowdedWorld
      (secondLandsBetween ++ [otherPage])).bind
        (fun state => state.process.map fun process => process.agent.stands 200) = some none := by
    decide +kernel
  obtain ⟨finish, reaches, ended⟩ := Option.bind_eq_some_iff.mp ends
  obtain ⟨after, isAfter, gone⟩ := Option.map_eq_some_iff.mp ended
  obtain ⟨middle, reached, goes⟩ := Machine.run_append_eq_some.mp reaches
  obtain ⟨next, stepped, last⟩ := Machine.run_cons_eq_some.mp goes
  cases last
  rw [reached, Option.bind_some] at stands
  obtain ⟨process, isThere, same⟩ := Option.map_eq_some_iff.mp stands
  simp only [Prod.mk.injEq] at same
  obtain ⟨isHead, current, has, inMemory⟩ := same
  obtain ⟨work, awaits⟩ := pageHead_eq_some.mp isHead
  obtain ⟨⟨stored, handle⟩, isStored, _⟩ := Option.map_eq_some_iff.mp inMemory
  obtain ⟨live, member, isKey, _⟩ := Agent.stands_eq_some.mp isStored
  have keeps := claim plainUrls smallSidecar crowdedWorld middle secondLandsBetween process work 3
    crowdedWorld_origin crowdedWorld_grounded reached isThere awaits
    (List.length_eq_zero_iff.mp current) _ _ _ after stepped isAfter
  obtain ⟨now, isNow⟩ := keeps.memory live member (isKey ▸ has)
  rw [isKey, gone] at isNow
  cases isNow

end State

end CommunityLb
