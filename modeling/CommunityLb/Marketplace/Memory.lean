import CommunityLb.Marketplace.Reading
import CommunityLb.Marketplace.OnChain
import CommunityLb.Marketplace.Lives

/-!
# What memory keeps of the agreements

Memory takes up an agreement from a page of agreement records or from an acceptance that landed,
drops one at a page, and learns an expiry from the answer of an admission's extend.  Everything else
leaves the agreements' records and their entries as they are.
-/

namespace CommunityLb

namespace Agent

/-- An agreement as memory has it, its counter apart. -/
def stands (agent : Agent) (key : EntityKey) : Option (Stored Agreement × Handle) :=
  (agent.agreements.get? key).map fun live => (live.agreement, live.provider)

/-- The answers of extends on their way, each with its agreement. -/
def answers (agent : Agent) : List (EntityKey × Nat) :=
  agent.admissions.filterMap fun task => task.answer.map (task.agreement, ·)

/-- The id of the entry behind a handle. -/
def entryId (agent : Agent) (handle : Handle) : Option String :=
  (agent.pool.entryAt handle).map (·.id)

/-- Memory that has its agreements as before. -/
structure Retains (before after : Agent) : Prop where
  config : after.config = before.config
  identity : after.identity = before.identity
  stands : ∀ key, after.stands key = before.stands key
  entryId : ∀ handle, after.entryId handle = before.entryId handle
  members : after.pool.members = before.pool.members
  answers : ∀ pair ∈ after.answers, pair ∈ before.answers

variable {agent before middle after : Agent}

theorem Retains.refl (agent : Agent) : agent.Retains agent :=
  ⟨rfl, rfl, fun _ => rfl, fun _ => rfl, rfl, fun _ member => member⟩

theorem Retains.trans (first : before.Retains middle) (second : middle.Retains after) :
    before.Retains after where
  config := second.config.trans first.config
  identity := second.identity.trans first.identity
  stands key := (second.stands key).trans (first.stands key)
  entryId handle := (second.entryId handle).trans (first.entryId handle)
  members := second.members.trans first.members
  answers pair member := first.answers pair (second.answers pair member)

theorem stands_eq_some {key : EntityKey} {stored : Stored Agreement} {handle : Handle} :
    agent.stands key = some (stored, handle) ↔
      ∃ live ∈ agent.agreements.values, live.key = key ∧ live.agreement = stored ∧
        live.provider = handle := by
  simp only [Agent.stands, Option.map_eq_some_iff, Keyed.get?_eq_some, Prod.mk.injEq]
  constructor
  · rintro ⟨live, ⟨member, isKey⟩, isStored, isHandle⟩
    exact ⟨live, member, isKey, isStored, isHandle⟩
  · rintro ⟨live, member, isKey, isStored, isHandle⟩
    exact ⟨live, ⟨member, isKey⟩, isStored, isHandle⟩

/-- Agreements changed in their counters alone. -/
theorem stands_update (agent : Agent) (change : Live → Live)
    (keeps : ∀ live, (change live).key = live.key)
    (same : ∀ live, (change live).agreement = live.agreement ∧
      (change live).provider = live.provider) (key : EntityKey) :
    Agent.stands { agent with agreements := agent.agreements.update change keeps } key =
      agent.stands key := by
  simp only [Agent.stands, Keyed.get?_update, Option.map_map]
  refine congrArg (fun show_ => (agent.agreements.get? key).map show_) (funext fun live => ?_)
  rw [Function.comp, (same live).1, (same live).2]

theorem stands_adjust (agent : Agent) (target : EntityKey) (change : Live → Live)
    (keeps : ∀ live, (change live).key = live.key)
    (same : ∀ live, (change live).agreement = live.agreement ∧
      (change live).provider = live.provider) (key : EntityKey) :
    Agent.stands { agent with agreements := agent.agreements.adjust target change keeps } key =
      agent.stands key := by
  refine stands_update agent _ _ (fun live => ?_) key
  split
  · exact same live
  · exact ⟨rfl, rfl⟩

/-- An entry changed where it stands keeps its id. -/
theorem entryId_modify (agent : Agent) (handle other : Handle) (change : Provider → Provider)
    (keeps : ∀ provider, (change provider).id = provider.id) :
    Agent.entryId { agent with pool := agent.pool.modify handle change } other =
      agent.entryId other := by
  simp only [Agent.entryId, Pool.entryAt_modify]
  split
  · cases agent.pool.entryAt other with
    | none => rfl
    | some provider => exact congrArg some (keeps provider)
  · rfl

theorem Retains.modify (agent : Agent) (handle : Handle) (change : Provider → Provider)
    (keeps : ∀ provider, (change provider).id = provider.id) :
    agent.Retains { agent with pool := agent.pool.modify handle change } :=
  ⟨rfl, rfl, fun _ => rfl, fun other => entryId_modify agent handle other change keeps, rfl,
    fun _ member => member⟩

theorem Retains.adjust (agent : Agent) (target : EntityKey) (change : Live → Live)
    (keeps : ∀ live, (change live).key = live.key)
    (same : ∀ live, (change live).agreement = live.agreement ∧
      (change live).provider = live.provider) :
    agent.Retains { agent with agreements := agent.agreements.adjust target change keeps } :=
  ⟨rfl, rfl, stands_adjust agent target change keeps same, fun _ => rfl, rfl,
    fun _ member => member⟩

theorem Retains.reorder (agent : Agent) (order : List EntityKey) :
    agent.Retains { agent with agreements := agent.agreements.reorder order } :=
  ⟨rfl, rfl, fun key => by simp [Agent.stands], fun _ => rfl, rfl, fun _ member => member⟩

theorem forgetCounter_retains (agent : Agent) (agreement : EntityKey) (count : Nat) :
    agent.Retains (agent.forgetCounter agreement count) := by
  rw [forgetCounter]
  split
  · exact .refl agent
  · next live _ =>
      exact (Retains.modify agent live.provider (·.subtractServed count) fun _ => rfl).trans
        (.adjust _ agreement (fun live => { live with counter := none }) (fun _ => rfl)
          fun _ => ⟨rfl, rfl⟩)

theorem forgetClosedCounters_retains (agent : Agent) (closed : List (EntityKey × Nat)) :
    agent.Retains (agent.forgetClosedCounters closed) := by
  rw [forgetClosedCounters]
  induction closed generalizing agent with
  | nil => exact .refl agent
  | cons found closed ih => exact (agent.forgetCounter_retains found.1 found.2).trans (ih _)

/-- Seeding the entries changes what they count alone. -/
theorem seedEntries_kept (records : CountersByAgreement) (lives : List Live) (pool : Pool) :
    (lives.foldl (seedEntry records) pool).members = pool.members ∧
      ∀ handle, ((lives.foldl (seedEntry records) pool).entryAt handle).map (·.id) =
        (pool.entryAt handle).map (·.id) := by
  induction lives generalizing pool with
  | nil => exact ⟨rfl, fun _ => rfl⟩
  | cons live lives ih =>
      have once : (seedEntry records pool live).members = pool.members ∧
          ∀ handle, ((seedEntry records pool live).entryAt handle).map (·.id) =
            (pool.entryAt handle).map (·.id) := by
        rw [seedEntry]
        split
        · refine ⟨rfl, fun handle => ?_⟩
          rw [Pool.entryAt_modify]
          split
          · cases pool.entryAt handle <;> rfl
          · rfl
        · exact ⟨rfl, fun _ => rfl⟩
      obtain ⟨members, ids⟩ := ih (seedEntry records pool live)
      exact ⟨members.trans once.1, fun handle => (ids handle).trans (once.2 handle)⟩

theorem matchToAgreements_retains (agent : Agent) (records : CountersByAgreement) :
    agent.Retains (agent.matchToAgreements records) := by
  obtain ⟨members, ids⟩ := seedEntries_kept records agent.agreements.values agent.pool
  exact ⟨rfl, rfl,
    stands_update agent
      (fun live => { live with counter := (records.get? live.key).map openCounter })
      (fun _ => rfl) fun _ => ⟨rfl, rfl⟩,
    ids, members, fun _ member => member⟩

theorem setCounter_retains (agent : Agent) (agreement : EntityKey)
    (counter : Option OpenCounter) : agent.Retains (agent.setCounter agreement counter) :=
  .adjust agent agreement (fun live => { live with counter := counter }) (fun _ => rfl)
    fun _ => ⟨rfl, rfl⟩

theorem endPeriod_retains (head : Nat) (ended : Agent × Batch) (close : Closing) :
    ended.1.Retains (endPeriod head ended close).1 := by
  rw [endPeriod]
  split
  · exact .refl _
  · exact ended.1.forgetCounter_retains close.agreement close.count

theorem endPeriods_retains (agent : Agent) (closing : List Closing) (patched : List EntityKey)
    (head : Nat) : agent.Retains (agent.endPeriods closing patched head).1 := by
  rw [endPeriods]
  suffices ∀ (closes : List Closing) (ended : Agent × Batch),
      ended.1.Retains (closes.foldl (endPeriod head) ended).1 from this _ (agent, [])
  intro closes
  induction closes with
  | nil => exact fun ended => .refl ended.1
  | cons close closes ih =>
      exact fun ended => (endPeriod_retains head ended close).trans (ih _)

/-! ## A page of agreement records -/

theorem stands_endAgreement (agent : Agent) (ending : Live) (key : EntityKey) :
    (agent.endAgreement ending).stands key =
      if key = ending.key then none else agent.stands key := by
  simp only [Agent.stands, Agent.endAgreement, Keyed.get?_erase]
  split <;> rfl

/-- What ends leaves memory, and nothing else does. -/
theorem stands_endAgreements (agent : Agent) (live : List EntityKey) (key : EntityKey) :
    (agent.endAgreements live).1.stands key =
      if key ∈ live then agent.stands key else none := by
  have folded : ∀ (gone : List Live) (agent : Agent),
      (gone.foldl endAgreement agent).stands key =
        if key ∈ gone.map Live.key then none else agent.stands key := by
    intro gone
    induction gone with
    | nil => exact fun agent => rfl
    | cons ending gone ih =>
        intro agent
        rw [List.foldl_cons, ih, stands_endAgreement, List.map_cons]
        by_cases here : key = ending.key <;> simp [here]
  simp only [Agent.endAgreements, folded]
  by_cases isLive : key ∈ live
  · rw [if_pos isLive, if_neg]
    intro ended
    obtain ⟨ending, isEnding, rfl⟩ := List.mem_map.mp ended
    simpa [isLive] using (List.mem_filter.mp isEnding).2
  · rw [if_neg isLive]
    split
    · rfl
    · next kept =>
        refine Option.map_eq_none_iff.mpr (Keyed.get?_eq_none.mpr fun value member same => ?_)
        refine kept (List.mem_map.mpr ⟨value, List.mem_filter.mpr ⟨member, ?_⟩, same⟩)
        simpa [same] using isLive

theorem stands_insertAgreement (agent : Agent) (stored : Stored Agreement) (key : EntityKey) :
    (agent.insertAgreement stored).stands key =
      if key = stored.key then some (stored, agent.pool.entries.length) else agent.stands key := by
  simp only [Agent.stands, Agent.insertAgreement, Keyed.get?_insert]
  by_cases same : key = stored.key <;> simp [same, Live.key]

/-- One record against memory: known, it gives its life; new, it is adopted or its provider is
under agreement already. -/
theorem stands_adoptAgreement (agent : Agent) (stored : Stored Agreement) (key : EntityKey) :
    (agent.adoptAgreement stored).stands key =
      if key = stored.key then
        match agent.stands key with
        | some (held, handle) =>
            some
              ({ held with
                 createdAt := stored.createdAt
                 expiresAt := stored.expiresAt }, handle)
        | none =>
            if agent.agreements.values.any
                (·.agreement.record.provider = stored.record.provider) then none
            else some (stored, agent.pool.entries.length)
      else agent.stands key := by
  rw [adoptAgreement]
  split
  · next live found =>
      have adjusted := Keyed.get?_adjust agent.agreements stored.key
        (fun live =>
          { live with
            agreement :=
              { live.agreement with
                createdAt := stored.createdAt
                expiresAt := stored.expiresAt } })
        (fun _ => rfl) key
      refine (congrArg (Option.map fun live => (live.agreement, live.provider)) adjusted).trans ?_
      by_cases same : key = stored.key
      · subst same
        simp [Agent.stands, found]
      · simp [Agent.stands, same]
  · next absent =>
      by_cases same : key = stored.key
      · subst same
        rw [if_pos rfl]
        have none_ : agent.stands stored.key = none := by simp [Agent.stands, absent]
        rw [none_]
        split
        · exact none_
        · rw [stands_insertAgreement, if_pos rfl]
      · rw [if_neg same]
        split
        · rfl
        · rw [stands_insertAgreement, if_neg same]

/-- What memory has after a page: each agreement it had and the page shows, with the life the page
shows, and the records it adopts. -/
theorem stands_adoptAgreements {live : List (Stored Agreement)} {agent : Agent}
    (distinct : (live.map Stored.key).Nodup) {key : EntityKey} {now : Stored Agreement}
    {handle : Handle} (stands : (agent.adoptAgreements live).stands key = some (now, handle)) :
    (agent.stands key = some (now, handle) ∧ key ∉ live.map Stored.key) ∨
      ∃ stored ∈ live, stored.key = key ∧ now.createdAt = stored.createdAt ∧
        now.expiresAt = stored.expiresAt ∧
        (now = stored ∧ agent.stands key = none ∨
          ∃ held, agent.stands key = some (held, handle) ∧ now.record = held.record) := by
  rw [adoptAgreements] at stands
  induction live generalizing agent with
  | nil => exact .inl ⟨stands, by simp⟩
  | cons stored live ih =>
      obtain ⟨fresh, distinct⟩ := List.nodup_cons.mp distinct
      rcases ih distinct stands with ⟨before, absent⟩ | ⟨other, isOther, rfl, created, expires, how⟩
      · rw [stands_adoptAgreement] at before
        split at before
        · next same =>
            subst same
            refine .inr ⟨stored, List.mem_cons_self, rfl, ?_⟩
            split at before
            · next held old found =>
                cases before
                exact ⟨rfl, rfl, .inr ⟨held, found, rfl⟩⟩
            · next none_ =>
                split at before
                · cases before
                · cases before
                  exact ⟨rfl, rfl, .inl ⟨rfl, none_⟩⟩
        · next differs =>
            refine .inl ⟨before, ?_⟩
            rw [List.map_cons, List.mem_cons, not_or]
            exact ⟨differs, absent⟩
      · have differs : other.key ≠ stored.key := by
          rintro same
          exact fresh (same ▸ List.mem_map_of_mem isOther)
        have same := stands_adoptAgreement agent stored other.key
        rw [if_neg differs] at same
        refine .inr ⟨other, List.mem_cons_of_mem _ isOther, rfl, created, expires, ?_⟩
        rcases how with ⟨rfl, none_⟩ | ⟨held, found, record⟩
        · exact .inl ⟨rfl, same.symm.trans none_⟩
        · exact .inr ⟨held, same.symm.trans found, record⟩

end Agent

/-! ## A process -/

/-- The head that a page of agreement records is read at. -/
def Task.pageHead : Task → Option Nat
  | .agreementsPage _ head => some head
  | _ => none

namespace Process

variable {process next : Process}

theorem afterOffer_agent (process : Process) (discovery : Discovery) :
    (process.afterOffer discovery).agent = process.agent := by
  rw [afterOffer]
  split <;> rfl

theorem reconciled_retains (process : Process) (work : Work) (head : Nat)
    (opened : CountersByAgreement) (duplicates : List EntityKey)
    (closed : List (EntityKey × Nat)) :
    process.agent.Retains (process.reconciled work head opened duplicates closed).agent :=
  (process.agent.forgetClosedCounters_retains closed).trans
    (Agent.matchToAgreements_retains _ opened)

theorem openCountersRead_retains (process : Process) (work : Work) (head : Nat)
    (order : List EntityKey) (rows : List (Stored Record)) :
    process.agent.Retains (process.openCountersRead work head order rows).agent := by
  simp only [openCountersRead]
  split
  · exact process.reconciled_retains _ _ _ _ _
  · exact .refl _

theorem ensureListing_retains (process : Process) (rows : List (Stored Record)) :
    process.agent.Retains (process.ensureListing rows).agent := by
  rw [ensureListing]
  split
  · exact .refl _
  · split <;> exact ⟨rfl, rfl, fun _ => rfl, fun _ => rfl, rfl, fun _ member => member⟩

theorem afterCounts_retains (process : Process) (kind : Flush) (head : Nat)
    (closing : List Closing) (queue : List Batch) (patched : List EntityKey) :
    process.agent.Retains (process.afterCounts kind head closing queue patched).agent := by
  simp only [afterCounts]
  split
  · exact process.agent.endPeriods_retains closing patched head
  · exact .refl _

/-- A read changes which agreements memory has at a page of agreement records alone. -/
theorem read_retains (process : Process) (order : List EntityKey) (reply : Reply) :
    (∃ work head rows, process.task = .agreementsPage work head ∧ reply = .rows rows ∧
      process.read order reply = process.reconcileAgreements work head rows) ∨
      process.agent.Retains (process.read order reply).agent := by
  unfold read
  split
  case h_4 work head rows task => exact .inl ⟨work, head, rows, task, rfl, rfl⟩
  all_goals refine .inr ?_
  case h_3 => split <;> exact .refl _
  case h_7 => split <;> exact .refl _
  case h_8 work head rows _ => exact process.openCountersRead_retains work head order rows
  case h_9 =>
    split
    · exact process.reconciled_retains _ _ _ _ _
    · exact .refl _
  case h_10 =>
    rw [afterOffer_agent]
    exact .refl _
  case h_14 rows _ => exact process.ensureListing_retains rows
  all_goals exact .refl _

theorem unread_retains (process : Process) : process.agent.Retains process.unread.agent := by
  unfold unread
  split <;> exact .refl _

theorem counterWritten_retains (process : Process) (discovery : Discovery) (offer : Stored Offer)
    (port : Nat) (agreement : EntityKey) (result : Except WriteError BatchResult) :
    process.agent.Retains
      (process.counterWritten discovery offer port agreement result).agent := by
  simp only [counterWritten, afterOffer_agent]
  exact process.agent.setCounter_retains agreement _

/-- A write adds to the agreements memory has when it is an acceptance that landed. -/
theorem written_retains (process : Process) (result : Except WriteError BatchResult) :
    (∃ discovery offer port landed created others,
      process.task = .acceptAgreement discovery offer port ∧ result = .ok landed ∧
        landed.createdEntities = created :: others ∧
        process.written result =
          { process with
            agent := process.agent.insertAgreement
              (process.agent.acceptedRow offer port discovery.head created)
            task := .acceptCounter discovery offer port created.1 }) ∨
      process.agent.Retains (process.written result).agent := by
  unfold written
  split
  case h_2 =>
    split <;> exact .inr (process.afterCounts_retains _ _ _ _ _)
  case h_5 discovery offer port task =>
    unfold agreementWritten
    split
    · next landed =>
        split
        · next created others names =>
            exact .inl ⟨discovery, offer, port, landed, created, others, task, rfl, names, rfl⟩
        · rw [afterOffer_agent]
          exact .inr (.refl _)
    · rw [afterOffer_agent]
      exact .inr (.refl _)
    · rw [afterOffer_agent]
      exact .inr (.refl _)
  case h_6 => exact .inr (process.counterWritten_retains _ _ _ _ _)
  case h_7 =>
    refine .inr ?_
    split
    · split <;> exact ⟨rfl, rfl, fun _ => rfl, fun _ => rfl, rfl, fun _ member => member⟩
    · exact .refl _
  case h_8 =>
    refine .inr ?_
    split <;> exact ⟨rfl, rfl, fun _ => rfl, fun _ => rfl, rfl, fun _ member => member⟩
  all_goals exact .inr (.refl _)

theorem countServed_retains (counted : process.countServed = some next) :
    process.agent.Retains next.agent := by
  rw [countServed] at counted
  split at counted
  · cases counted
    exact process.afterCounts_retains _ _ _ _ _
  · cases counted

theorem portLooked_retains {isBound : Bool} (looked : process.portLooked isBound = some next) :
    process.agent.Retains next.agent := by
  rw [portLooked] at looked
  split at looked
  · cases looked
    split
    · simp only
      split <;> exact .refl _
    · exact .refl _
  · cases looked

/-- The agreements a page shows, oldest first. -/
theorem live_distinct {rows : List (Stored Record)} (distinct : (rows.map Stored.key).Nodup) :
    ((oldestFirst (rows.filterMap (Stored.decode Record.asAgreement))).map Stored.key).Nodup := by
  refine (((oldestFirst_perm _).map Stored.key).nodup_iff).mpr ?_
  refine distinct.sublist ?_
  induction rows with
  | nil => exact .slnil
  | cons row rows ih =>
      have rest := ih (List.nodup_cons.mp distinct).2
      rw [List.filterMap_cons]
      split
      · exact rest.cons _
      · next stored decoded =>
          obtain ⟨record, _, rfl⟩ := Option.map_eq_some_iff.mp decoded
          exact rest.cons_cons _

theorem adoptAgreement_kept (agent : Agent) (stored : Stored Agreement) :
    (agent.adoptAgreement stored).config = agent.config ∧
      (agent.adoptAgreement stored).identity = agent.identity ∧
        (agent.adoptAgreement stored).answers = agent.answers := by
  rw [Agent.adoptAgreement]
  split
  · exact ⟨rfl, rfl, rfl⟩
  · split <;> exact ⟨rfl, rfl, rfl⟩

theorem endAgreement_kept (agent : Agent) (ending : Live) :
    (agent.endAgreement ending).config = agent.config ∧
      (agent.endAgreement ending).identity = agent.identity ∧
        (agent.endAgreement ending).answers = agent.answers := by
  refine ⟨rfl, rfl, ?_⟩
  simp only [Agent.answers, Agent.endAgreement, List.filterMap_map]
  refine List.filterMap_congr fun task _ => ?_
  rw [Function.comp]
  split <;> rfl

/-- A page leaves the configuration, who the LB is, and the answers on their way. -/
theorem reconcileAgreements_kept (process : Process) (work : Work) (head : Nat)
    (rows : List (Stored Record)) :
    (process.reconcileAgreements work head rows).agent.config = process.agent.config ∧
      (process.reconcileAgreements work head rows).agent.identity = process.agent.identity ∧
        (process.reconcileAgreements work head rows).agent.answers = process.agent.answers := by
  have adopted : ∀ (live : List (Stored Agreement)) (agent : Agent),
      (agent.adoptAgreements live).config = agent.config ∧
        (agent.adoptAgreements live).identity = agent.identity ∧
          (agent.adoptAgreements live).answers = agent.answers := by
    intro live
    induction live with
    | nil => exact fun agent => ⟨rfl, rfl, rfl⟩
    | cons stored live ih =>
        intro agent
        obtain ⟨config, identity, answers⟩ := ih (agent.adoptAgreement stored)
        obtain ⟨config', identity', answers'⟩ := adoptAgreement_kept agent stored
        exact ⟨config.trans config', identity.trans identity', answers.trans answers'⟩
  have ended : ∀ (gone : List Live) (agent : Agent),
      (gone.foldl Agent.endAgreement agent).config = agent.config ∧
        (gone.foldl Agent.endAgreement agent).identity = agent.identity ∧
          (gone.foldl Agent.endAgreement agent).answers = agent.answers := by
    intro gone
    induction gone with
    | nil => exact fun agent => ⟨rfl, rfl, rfl⟩
    | cons ending gone ih =>
        intro agent
        obtain ⟨config, identity, answers⟩ := ih (agent.endAgreement ending)
        obtain ⟨config', identity', answers'⟩ := endAgreement_kept agent ending
        exact ⟨config.trans config', identity.trans identity', answers.trans answers'⟩
  simp only [reconcileAgreements, Agent.endAgreements]
  obtain ⟨config, identity, answers⟩ := adopted _ _
  obtain ⟨config', identity', answers'⟩ := ended _ _
  exact ⟨config.trans config', identity.trans identity', answers.trans answers'⟩

/-- What memory has after a page is on the page, with the life it has there. -/
theorem reconcileAgreements_stands {process : Process} {work : Work} {head : Nat}
    {rows : List (Stored Record)} (distinct : (rows.map Stored.key).Nodup) {key : EntityKey}
    {now : Stored Agreement} {handle : Handle}
    (stands : (process.reconcileAgreements work head rows).agent.stands key = some (now, handle)) :
    ∃ row ∈ rows, ∃ record, row.key = key ∧ row.record.asAgreement = some record ∧
      now.createdAt = row.createdAt ∧ now.expiresAt = row.expiresAt ∧
        (now.record = record ∧ process.agent.stands key = none ∨
          ∃ held, process.agent.stands key = some (held, handle) ∧ now.record = held.record) := by
  simp only [reconcileAgreements] at stands
  rcases Agent.stands_adoptAgreements (live_distinct distinct) stands with
    ⟨before, absent⟩ | ⟨stored, isStored, rfl, created, expires, how⟩
  · rw [Agent.stands_endAgreements, if_neg absent] at before
    cases before
  · have isLive : stored.key ∈ (oldestFirst (rows.filterMap
        (Stored.decode Record.asAgreement))).map Stored.key := List.mem_map_of_mem isStored
    rw [Agent.stands_endAgreements, if_pos isLive] at how
    obtain ⟨row, inRows, decoded⟩ := List.mem_filterMap.mp (mem_oldestFirst.mp isStored)
    obtain ⟨record, isAgreement, rfl⟩ := Option.map_eq_some_iff.mp decoded
    refine ⟨row, inRows, record, rfl, isAgreement, created, expires, ?_⟩
    exact how.imp_left fun adopted => ⟨by rw [adopted.1], adopted.2⟩

end Process

/-! ## A step -/

/-- What a step did to memory. -/
inductive Turn (sidecar : Identity) (state next : State) : Event → Prop
  | off {event : Event} (gone : next.process = none) : Turn sidecar state next event
  | launch {config : Config} {section_ : Marketplace} (given : config.marketplace = some section_)
      (now : next.process = some (State.launched sidecar config section_)) :
      Turn sidecar state next (.launch config)
  | retains {event : Event} {before after : Process} (was : state.process = some before)
      (now : next.process = some after) (retains : before.agent.Retains after.agent) :
      Turn sidecar state next event
  | page {before : Process} {work : Work} {head : Nat} {shown order : List EntityKey}
      {rows : List (Stored Record)} (was : state.process = some before)
      (task : before.task = .agreementsPage work head)
      (page : state.view.page (before.agent.agreementsQuery head) shown = some rows)
      (now : next.process = some (Process.reconcileAgreements
        { before with
          agent := { before.agent with agreements := before.agent.agreements.reorder order } }
        work head rows))
      (chain : next.chain = state.chain) : Turn sidecar state next (.read shown order)
  | accept {before : Process} {discovery : Discovery} {offer : Stored Offer} {port : Nat}
      {key : EntityKey} {fates : List (Option (List EntityKey))} {keys : List EntityKey}
      (was : state.process = some before)
      (task : before.task = .acceptAgreement discovery offer port)
      (later : state.chain.head < next.chain.head)
      (free : state.chain.entities.get? key = none)
      (row : next.chain.entities.get? key = some
        { key := key
          creator := sidecar.address
          createdAt := next.chain.head
          expiresAt := next.chain.head + blocks before.agent.config.offerMaxLifetime
          record := .agreement (before.agent.acceptedRecord offer port) })
      (now : next.process = some
        { before with
          agent := before.agent.insertAgreement (before.agent.acceptedRow offer port discovery.head
            (key, next.chain.head + blocks before.agent.config.offerMaxLifetime))
          task := .acceptCounter discovery offer port key }) :
      Turn sidecar state next (.write (.landed fates keys))
  | extend {before : Process} {index : Nat} {task : Admission} {row : Stored Record}
      {fates : List (Option (List EntityKey))} {keys : List EntityKey}
      (was : state.process = some before) (runs : before.agent.admissions[index]? = some task)
      (isRow : next.chain.entities.get? task.agreement = some row)
      (expires : row.expiresAt = next.chain.head + blocks before.agent.config.agreementLife)
      (now : next.process = some
        { before with
          agent := before.agent.awaitAnswer index
            (next.chain.head + blocks before.agent.config.agreementLife) }) :
      Turn sidecar state next (.admission index (.landed fates keys))
  | learn {before : Process} {index : Nat} {task : Admission} {expiresAt : Nat}
      (was : state.process = some before) (runs : before.agent.admissions[index]? = some task)
      (answer : task.answer = some expiresAt)
      (now : next.process = some
        { before with
          agent := (before.agent.learnExpiry task.agreement expiresAt).endAdmission index })
      (chain : next.chain = state.chain) : Turn sidecar state next (.learn index)

namespace State

variable {urls : Urls} {sidecar : Identity} {state next : State}

/-- A batch that landed did so in a later block, on a chain that its operations then changed. -/
theorem send_landed {batch : Batch} {fates : List (Option (List EntityKey))}
    {keys : List EntityKey} {result : Except WriteError BatchResult}
    (sent : state.send sidecar batch (.landed fates keys) = some (next, result)) :
    ∃ chain, state.chain.Stays chain ∧ chain.head = state.chain.head + 1 ∧
      keys.length = batch.length ∧
      chain.execute sidecar.address (batch.zip keys) = some next.chain ∧
        next.chain.head = chain.head ∧
        result = .ok (BatchResult.of next.chain.head (batch.zip keys)) := by
  simp only [State.send, Option.bind_eq_bind, Option.bind_eq_some_iff] at sent
  obtain ⟨⟨chain, pending⟩, settled, sent⟩ := sent
  split at sent
  · cases sent
  · obtain ⟨landed, lands, sent⟩ := Option.bind_eq_some_iff.mp sent
    cases sent
    obtain ⟨length, executed⟩ := Chain.land_eq_some.mp lands
    exact ⟨chain, (Chain.advance_stays _ 1).trans (Chain.settle_stays settled),
      Chain.settle_head settled, length, executed, Chain.execute_head executed, rfl⟩

/-- A write that was not answered as landed says so. -/
theorem send_failed {batch : Batch} {error : WriteError} {lost : Bool}
    {result : Except WriteError BatchResult}
    (sent : state.send sidecar batch (.failed error lost) = some (next, result)) :
    result = .error error := by
  simp only [State.send] at sent
  split at sent
  · split at sent
    · cases sent
      rfl
    · cases sent
  · cases sent
    rfl

theorem writeAnswered_turn {answer : WriteAnswer}
    (stepped : state.writeAnswered sidecar answer = some next) :
    Turn sidecar state next (.write answer) := by
  simp only [State.writeAnswered, Option.bind_eq_bind, Option.bind_eq_some_iff] at stepped
  obtain ⟨process, isThere, batch, sends, ⟨middle, result⟩, sent, stepped⟩ := stepped
  cases stepped
  rcases process.written_retains result with
    ⟨discovery, offer, port, landed, created, others, task, rfl, names, now⟩ | retains
  · cases answer with
    | failed error lost => cases send_failed sent
    | landed fates keys =>
        obtain ⟨chain, stays, head, length, executed, same, isResult⟩ := send_landed sent
        simp only [Process.sending, task, Option.some.injEq] at sends
        subst sends
        obtain ⟨key, rfl⟩ := List.length_eq_one_iff.mp (length : keys.length = 1)
        obtain ⟨next, operated, done⟩ := Option.bind_eq_some_iff.mp executed
        cases done
        cases isResult
        simp only [List.zip_cons_cons, List.zip_nil_right, BatchResult.of, List.cons.injEq] at names
        obtain ⟨rfl, _⟩ := names
        have row := Chain.operate_created operated
        rw [← same] at row
        have later : state.chain.head < middle.chain.head := by omega
        refine .accept isThere task later ?_ row (congrArg some now)
        refine Option.eq_none_iff_forall_ne_some.mpr fun old found => ?_
        obtain ⟨row, isRow, _⟩ := stays.row _ _ found
        rw [Chain.operate_fresh operated] at isRow
        cases isRow
  · exact .retains isThere rfl retains

theorem admissionSent_turn {index : Nat} {answer : WriteAnswer}
    (stepped : state.admissionSent sidecar index answer = some next) :
    Turn sidecar state next (.admission index answer) := by
  simp only [State.admissionSent, Option.bind_eq_bind, Option.bind_eq_some_iff] at stepped
  obtain ⟨process, isThere, task, runs, stepped⟩ := stepped
  split at stepped
  · cases stepped
  · obtain ⟨⟨middle, result⟩, sent, stepped⟩ := Option.bind_eq_some_iff.mp stepped
    cases stepped
    have ends : process.agent.Retains (process.agent.endAdmission index) := by
      refine ⟨rfl, rfl, fun _ => rfl, fun _ => rfl, rfl, fun pair member => ?_⟩
      obtain ⟨task, isTask, isPair⟩ := List.mem_filterMap.mp member
      exact List.mem_filterMap.mpr ⟨task, List.mem_of_mem_eraseIdx isTask, isPair⟩
    cases answer with
    | failed error lost =>
        obtain rfl := send_failed sent
        exact .retains isThere rfl ends
    | landed fates keys =>
        obtain ⟨chain, stays, head, length, executed, same, rfl⟩ := send_landed sent
        obtain ⟨key, rfl⟩ := List.length_eq_one_iff.mp (length : keys.length = 1)
        obtain ⟨next, operated, done⟩ := Option.bind_eq_some_iff.mp executed
        cases done
        obtain ⟨row, _, extended⟩ := Chain.operate_extended operated
        exact .extend isThere runs extended (congrArg (· + _) same.symm) rfl

theorem readAnswered_turn {shown order : List EntityKey}
    (stepped : state.readAnswered shown order = some next) :
    Turn sidecar state next (.read shown order) := by
  simp only [State.readAnswered, Option.bind_eq_bind, Option.bind_eq_some_iff] at stepped
  obtain ⟨process, isThere, reading, reads, reply, replied, stepped⟩ := stepped
  cases stepped
  rcases Process.read_retains
      { process with
        agent := { process.agent with agreements := process.agent.agreements.reorder order } }
      order reply with ⟨work, head, rows, task, rfl, now⟩ | retains
  · have task : process.task = .agreementsPage work head := task
    simp only [Task.reading, task, Option.some.injEq] at reads
    subst reads
    obtain ⟨shownRows, page, same⟩ := Option.map_eq_some_iff.mp replied
    cases same
    exact .page isThere task page (congrArg some now) rfl
  · exact .retains isThere rfl ((Agent.Retains.reorder process.agent order).trans retains)

/-- A page of agreement records is taken over, whatever it shows. -/
theorem readAnswered_page {shown order : List EntityKey} {process : Process} {head : Nat}
    (isThere : state.process = some process) (awaits : process.task.pageHead = some head)
    (stepped : state.readAnswered shown order = some next) :
    ∃ work rows, process.task = .agreementsPage work head ∧
      state.view.page (process.agent.agreementsQuery head) shown = some rows ∧
      next = { state with
        process := some (Process.reconcileAgreements
          { process with
            agent := { process.agent with agreements := process.agent.agreements.reorder order } }
          work head rows) } := by
  simp only [State.readAnswered, Option.bind_eq_bind, Option.bind_eq_some_iff] at stepped
  obtain ⟨other, isOther, reading, reads, reply, replied, stepped⟩ := stepped
  cases isThere.symm.trans isOther
  cases task : process.task with
  | agreementsPage work read =>
      simp only [Task.pageHead, task, Option.some.injEq] at awaits
      subst awaits
      simp only [Task.reading, task, Option.some.injEq] at reads
      subst reads
      obtain ⟨rows, page, same⟩ := Option.map_eq_some_iff.mp replied
      cases same
      refine ⟨work, rows, rfl, page, ?_⟩
      simpa [Process.read, task] using stepped.symm
  | _ => simp [Task.pageHead, task] at awaits

/-- What every step of the world does to memory. -/
theorem step_turn {event : Event} (stepped : state.step urls sidecar event = some next) :
    Turn sidecar state next event := by
  have ofProcess : ∀ {change : Process → Option Process},
      (∀ process after, change process = some after → process.agent.Retains after.agent) →
      state.ofProcess change = some next → Turn sidecar state next event := by
    intro change retains ran
    obtain ⟨after, changed, rfl⟩ := Option.map_eq_some_iff.mp ran
    obtain ⟨process, isThere, changes⟩ := Option.bind_eq_some_iff.mp changed
    exact .retains isThere rfl (retains process after changes)
  have same : next.process = state.process → Turn sidecar state next event := by
    intro same
    cases was : state.process with
    | none => exact .off (same.trans was)
    | some process => exact .retains was (same.trans was) (.refl _)
  cases event with
  | sealBlocks count fates =>
      obtain ⟨⟨chain, pending⟩, settled, rfl⟩ := Option.map_eq_some_iff.mp stepped
      exact same rfl
  | catchUp count =>
      cases stepped
      exact same rfl
  | post offer =>
      simp only [State.step] at stepped
      split at stepped
      · cases stepped
        exact same rfl
      · cases stepped
  | withdraw offer =>
      simp only [State.step] at stepped
      split at stepped
      · cases stepped
        exact same rfl
      · cases stepped
  | launch config =>
      simp only [State.step] at stepped
      split at stepped
      · next valid given =>
          cases stepped
          exact .launch given rfl
      · cases stepped
  | crash =>
      obtain ⟨_, _, rfl⟩ := Option.map_eq_some_iff.mp stepped
      exact .off rfl
  | serve handle =>
      simp only [State.step, State.serve, Option.bind_eq_bind, Option.bind_eq_some_iff] at stepped
      obtain ⟨process, isThere, provider, found, stepped⟩ := stepped
      cases stepped
      exact .retains isThere rfl (.modify process.agent handle Provider.recordServed fun _ => rfl)
  | gate handle gate value =>
      refine ofProcess (fun process after changes => ?_) stepped
      cases changes
      exact .modify process.agent handle (·.setEligibility gate value) fun _ => rfl
  | admitted agreement =>
      refine ofProcess (fun process after changes => ?_) stepped
      cases changes
      simp only [Agent.admitted]
      split
      · exact .refl _
      · split
        · exact .refl _
        · refine ⟨rfl, rfl, fun _ => rfl, fun _ => rfl, rfl, fun pair member => ?_⟩
          simpa [Agent.answers] using member
  | admission index answer => exact admissionSent_turn stepped
  | learn index =>
      obtain ⟨after, changed, rfl⟩ := Option.map_eq_some_iff.mp stepped
      obtain ⟨process, isThere, changes⟩ := Option.bind_eq_some_iff.mp changed
      simp only [admissionAnswered, Option.bind_eq_bind, Option.bind_eq_some_iff] at changes
      obtain ⟨task, runs, expiresAt, answer, changes⟩ := changes
      cases changes
      exact .learn isThere runs answer rfl rfl
  | endAdmission index =>
      refine ofProcess (fun process after changes => ?_) stepped
      simp only [Option.bind_eq_bind, Option.bind_eq_some_iff] at changes
      obtain ⟨task, _, changes⟩ := changes
      split at changes
      · cases changes
      · cases changes
        refine ⟨rfl, rfl, fun _ => rfl, fun _ => rfl, rfl, fun pair member => ?_⟩
        obtain ⟨task, isTask, isPair⟩ := List.mem_filterMap.mp member
        exact List.mem_filterMap.mpr ⟨task, List.mem_of_mem_eraseIdx isTask, isPair⟩
  | tick tick =>
      refine ofProcess (fun process after changes => ?_) stepped
      split at changes
      · cases changes
        exact .refl _
      · cases changes
  | read shown order => exact readAnswered_turn stepped
  | unread =>
      refine ofProcess (fun process after changes => ?_) stepped
      obtain ⟨_, _, rfl⟩ := Option.map_eq_some_iff.mp changes
      exact process.unread_retains
  | countServed order =>
      refine ofProcess (fun process after changes => ?_) stepped
      exact (Agent.Retains.reorder process.agent order).trans (Process.countServed_retains changes)
  | portLooked isBound =>
      refine ofProcess (fun process after changes => ?_) stepped
      exact Process.portLooked_retains changes
  | write answer => exact writeAnswered_turn stepped

end State

end CommunityLb
