import CommunityLb.Marketplace.Projection
import CommunityLb.Marketplace.Opened

/-!
# What memory holds of one agreement

Each change of the agent's memory as one agreement's account sees it.
-/

namespace CommunityLb

namespace Agent

variable {me : Address} {chain : Chain} {agent after : Agent} {agreement : EntityKey}

/-- No two agreements share an entry. -/
theorem Grounded.apart (grounded : agent.Grounded me chain) {live other : Live}
    (inLive : live ∈ agent.agreements.values) (inOther : other ∈ agent.agreements.values)
    (same : live.provider = other.provider) : live.key = other.key := by
  obtain ⟨provider, address, port, found, source⟩ := grounded.entry live inLive
  obtain ⟨provider', address', port', found', source'⟩ := grounded.entry other inOther
  rw [same, found'] at found
  obtain rfl := Option.some.inj found
  exact (Source.marketplace.inj (source.symm.trans source')).2.1

theorem held_of_get? {live : Live} (found : agent.agreements.get? agreement = some live) :
    agent.held agreement =
      some
        { counter := live.counter.map (·.key)
          served := agent.pool.served live.provider
          total := agent.pool.servedTotal live.provider } := by
  simp [held, found]

theorem held_eq_none : agent.held agreement = none ↔ agent.agreements.get? agreement = none :=
  Option.map_eq_none_iff

/-- What memory holds comes of the agreement's entry and its counter alone. -/
theorem held_congr
    (agreements : (after.agreements.get? agreement).map (fun live => (live.provider, live.counter)) =
      (agent.agreements.get? agreement).map fun live => (live.provider, live.counter))
    (entries : ∀ live, agent.agreements.get? agreement = some live →
      after.pool.served live.provider = agent.pool.served live.provider ∧
        after.pool.servedTotal live.provider = agent.pool.servedTotal live.provider) :
    after.held agreement = agent.held agreement := by
  cases before : agent.agreements.get? agreement with
  | none =>
      rw [before, Option.map_none, Option.map_eq_none_iff] at agreements
      rw [held_eq_none.mpr agreements, held_eq_none.mpr before]
  | some live =>
      rw [before, Option.map_some, Option.map_eq_some_iff] at agreements
      obtain ⟨now, found, same⟩ := agreements
      obtain ⟨handle, counter⟩ := Prod.mk.inj same
      rw [held_of_get? found, held_of_get? before, handle, counter, (entries live before).1,
        (entries live before).2]

@[simp]
theorem held_reorder (agent : Agent) (order : List EntityKey) (agreement : EntityKey) :
    ({ agent with agreements := agent.agreements.reorder order } : Agent).held agreement =
      agent.held agreement := by
  simp [held]

/-- Another agreement's entry changes, or one of the configuration. -/
theorem held_modify_other {handle : Handle} {change : Provider → Provider}
    (other : ∀ live, agent.agreements.get? agreement = some live → live.provider ≠ handle) :
    ({ agent with pool := agent.pool.modify handle change } : Agent).held agreement =
      agent.held agreement := by
  refine held_congr rfl fun live found => ?_
  simp [Pool.served_modify, Pool.servedTotal_modify, (other live found).symm]

/-- The agreement's entry changes. -/
theorem held_modify_same {live : Live} {provider : Provider} {change : Provider → Provider}
    (found : agent.agreements.get? agreement = some live)
    (entry : agent.pool.entryAt live.provider = some provider) :
    ({ agent with pool := agent.pool.modify live.provider change } : Agent).held agreement =
      some
        { counter := live.counter.map (·.key)
          served := (change provider).served
          total := (change provider).servedTotal } := by
  simp [held, found, Pool.served_modify, Pool.servedTotal_modify, entry]

/-- A change that leaves what an entry counts. -/
theorem held_modify_keeps (handle : Handle) {change : Provider → Provider}
    (keeps : ∀ provider, (change provider).served = provider.served ∧
      (change provider).servedTotal = provider.servedTotal) :
    ({ agent with pool := agent.pool.modify handle change } : Agent).held agreement =
      agent.held agreement := by
  refine held_congr rfl fun live _ => ?_
  simp only [Pool.served_modify, Pool.servedTotal_modify, keeps]
  simp [Pool.served, Pool.servedTotal]

theorem Grounded.entry_of_get? (grounded : agent.Grounded me chain) {live : Live}
    (found : agent.agreements.get? agreement = some live) :
    ∃ provider address port, agent.pool.entryAt live.provider = some provider ∧
      provider.source = .marketplace address agreement port := by
  obtain ⟨member, rfl⟩ := Keyed.get?_eq_some.mp found
  exact grounded.entry live member

/-- A request served by an entry of the agreement is counted by the entry memory has, or by one
from before. -/
theorem Grounded.held_served (grounded : agent.Grounded me chain) (agreement : EntityKey)
    {handle : Handle} {provider : Provider} (entry : agent.pool.entryAt handle = some provider) :
    ({ agent with pool := agent.pool.modify handle Provider.recordServed } : Agent).held agreement =
        agent.held agreement ∨
      (∃ address port, provider.source = .marketplace address agreement port) ∧
        ∃ held, agent.held agreement = some held ∧
          ({ agent with
            pool := agent.pool.modify handle Provider.recordServed } : Agent).held agreement =
            some { held with served := held.served + 1, total := held.total + 1 } := by
  by_cases own : ∃ live, agent.agreements.get? agreement = some live ∧ live.provider = handle
  · obtain ⟨live, found, rfl⟩ := own
    obtain ⟨other, address, port, isOther, source⟩ := grounded.entry_of_get? found
    obtain rfl := Option.some.inj (entry.symm.trans isOther)
    refine .inr ⟨⟨address, port, source⟩, _, held_of_get? found, ?_⟩
    rw [held_modify_same found entry]
    simp [Provider.recordServed, Pool.served, Pool.servedTotal, entry]
  · refine .inl (held_modify_other fun live found same => own ⟨live, found, same⟩)

/-! ## The counter reconcile -/

theorem Grounded.held_forgetCounter (grounded : agent.Grounded me chain) (other : EntityKey)
    (count : Nat) :
    (agent.forgetCounter other count).held agreement =
      if other = agreement then
        (agent.held agreement).map fun held =>
          { held with
            counter := none
            served := held.served - count }
      else agent.held agreement := by
  rw [Agent.forgetCounter]
  split
  · next absent =>
      split
      · next same =>
          subst same
          simp [held_eq_none.mpr absent]
      · rfl
  · next live found =>
      have adjusted := Keyed.get?_adjust agent.agreements other
        (fun live => { live with counter := none }) (fun _ => rfl)
      split
      · next same =>
          subst same
          obtain ⟨provider, _, _, entry, _⟩ := grounded.entry_of_get? found
          have now := (adjusted other).trans (if_pos rfl)
          rw [found] at now
          rw [held_of_get? now, held_of_get? found]
          simp [Pool.served, Pool.servedTotal, Pool.entryAt_modify, entry, Provider.subtractServed]
      · next differs =>
          have here : agreement ≠ other := fun same => differs same.symm
          refine held_congr ?_ fun mine isMine => ?_
          · rw [adjusted agreement, if_neg here]
          · have apart : live.provider ≠ mine.provider := by
              intro same
              obtain ⟨inLive, rfl⟩ := Keyed.get?_eq_some.mp found
              obtain ⟨inMine, rfl⟩ := Keyed.get?_eq_some.mp isMine
              exact differs (grounded.apart inLive inMine same)
            simp [Pool.served_modify, Pool.servedTotal_modify, apart]

/-- What was found closed leaves memory. -/
theorem Grounded.held_forgetClosedCounters (grounded : agent.Grounded me chain)
    {closed : List (EntityKey × Nat)} (distinct : (closed.map Prod.fst).Nodup) :
    (agent.forgetClosedCounters closed).held agreement =
      (agent.held agreement).map fun held =>
        match closed.lookup agreement with
        | some count =>
            { held with
              counter := none
              served := held.served - count }
        | none => held := by
  rw [Agent.forgetClosedCounters]
  induction closed generalizing agent with
  | nil => simp
  | cons found closed ih =>
      obtain ⟨fresh, rest⟩ := List.nodup_cons.mp distinct
      rw [List.foldl_cons, ih (grounded.forgetCounter found.1 found.2) rest,
        grounded.held_forgetCounter, List.lookup_cons]
      by_cases same : found.1 = agreement
      · have absent : closed.lookup agreement = none := by
          refine Option.eq_none_iff_forall_ne_some.mpr fun count isThere => fresh ?_
          rw [same]
          exact List.mem_map_of_mem (mem_of_lookup isThere)
        rw [if_pos same, absent, same]
        cases agent.held agreement <;> simp
      · have differs : (agreement == found.1) = false := by
          simpa using fun here : agreement = found.1 => same here.symm
        rw [if_neg same, differs]

theorem seedEntry_other {records : CountersByAgreement} {pool : Pool} {live : Live}
    {handle : Handle} (other : live.provider ≠ handle) :
    (seedEntry records pool live).entryAt handle = pool.entryAt handle := by
  rw [seedEntry]
  split
  · rw [Pool.entryAt_modify, if_neg other]
  · rfl

theorem seedEntries_other (records : CountersByAgreement) {lives : List Live} (pool : Pool)
    {handle : Handle} (others : ∀ live ∈ lives, live.provider ≠ handle) :
    (lives.foldl (seedEntry records) pool).entryAt handle = pool.entryAt handle := by
  induction lives generalizing pool with
  | nil => rfl
  | cons live lives ih =>
      rw [List.foldl_cons, ih _ fun other member => others other (List.mem_cons_of_mem _ member),
        seedEntry_other (others live List.mem_cons_self)]

/-- Each agreement takes the record it counts into, and an entry without one counts on from it. -/
theorem Grounded.held_matchToAgreements (grounded : agent.Grounded me chain)
    (records : CountersByAgreement) :
    (agent.matchToAgreements records).held agreement =
      (agent.held agreement).map
        (Account.take ((records.get? agreement).map Entry.ofStored) none) := by
  have matched := Keyed.get?_update agent.agreements
    (fun live => { live with counter := (records.get? live.key).map openCounter })
    (fun _ => rfl) agreement
  cases found : agent.agreements.get? agreement with
  | none =>
      rw [found] at matched
      rw [held_eq_none.mpr found, held_eq_none.mpr matched]
      rfl
  | some live =>
      rw [found] at matched
      obtain ⟨member, isKey⟩ := Keyed.get?_eq_some.mp found
      obtain ⟨provider, _, _, entry, _⟩ := grounded.entry live member
      -- Only the agreement's own seed touches its entry.
      have seeded : (agent.agreements.values.foldl (seedEntry records) agent.pool).entryAt
          live.provider = (seedEntry records agent.pool live).entryAt live.provider := by
        obtain ⟨before, later, split⟩ := List.append_of_mem member
        have distinct := agent.agreements.distinct
        rw [split, List.map_append, List.map_cons, List.nodup_append] at distinct
        obtain ⟨_, others, disjoint⟩ := distinct
        have notBefore : ∀ other ∈ before, other.provider ≠ live.provider := by
          intro other isOther same
          have key := grounded.apart (split ▸ List.mem_append_left _ isOther) member same
          exact disjoint other.key (List.mem_map_of_mem isOther) live.key List.mem_cons_self key
        have notLater : ∀ other ∈ later, other.provider ≠ live.provider := by
          intro other isOther same
          have key := grounded.apart
            (split ▸ List.mem_append_right _ (List.mem_cons_of_mem _ isOther)) member same
          exact (List.nodup_cons.mp others).1 (key ▸ List.mem_map_of_mem isOther)
        rw [split, List.foldl_append, List.foldl_cons, seedEntries_other _ _ notLater]
        have kept := seedEntries_other records agent.pool notBefore
        rw [seedEntry, seedEntry]
        split
        · rw [Pool.entryAt_modify, Pool.entryAt_modify, if_pos rfl, if_pos rfl, kept]
        · exact kept
      rw [held_of_get? matched, held_of_get? found, Option.map_some]
      have pool : (agent.matchToAgreements records).pool =
          agent.agreements.values.foldl (seedEntry records) agent.pool := rfl
      simp only [Pool.served, Pool.servedTotal, pool, seeded, seedEntry, isKey]
      cases counter : live.counter with
      | none =>
          cases records.get? agreement with
          | none => simp [Account.take, entry]
          | some stored =>
              simp [Account.take, Pool.entryAt_modify, entry, Provider.seedServed, openCounter,
                Entry.ofStored]
      | some counter =>
          cases records.get? agreement with
          | none => simp [Account.take, entry]
          | some stored => simp [Account.take, entry, openCounter, Entry.ofStored]

/-! ## A page of agreement records -/

/-- An agreement as it is taken up: nothing counted yet, and no record to count into. -/
def fresh : Held where
  counter := none
  served := 0
  total := 0

theorem held_endAgreement (agent : Agent) (ending : Live) (agreement : EntityKey) :
    (agent.endAgreement ending).held agreement =
      if agreement = ending.key then none else agent.held agreement := by
  by_cases same : agreement = ending.key
  · simp [Agent.held, Agent.endAgreement, Keyed.get?_erase, same]
  · rw [if_neg same]
    refine held_congr ?_ fun live _ => ⟨rfl, rfl⟩
    simp [Agent.endAgreement, Keyed.get?_erase, same]

/-- What ends leaves memory, and nothing else does. -/
theorem held_endAgreements (agent : Agent) (live : List EntityKey) (agreement : EntityKey) :
    (agent.endAgreements live).1.held agreement =
      if agreement ∈ live then agent.held agreement else none := by
  have folded : ∀ (gone : List Live) (agent : Agent),
      (gone.foldl endAgreement agent).held agreement =
        if agreement ∈ gone.map Live.key then none else agent.held agreement := by
    intro gone
    induction gone with
    | nil => exact fun agent => rfl
    | cons ending gone ih =>
        intro agent
        rw [List.foldl_cons, ih, held_endAgreement, List.map_cons]
        by_cases here : agreement = ending.key <;> simp [here]
  simp only [Agent.endAgreements, folded]
  by_cases isLive : agreement ∈ live
  · rw [if_pos isLive, if_neg]
    intro ended
    obtain ⟨ending, isEnding, rfl⟩ := List.mem_map.mp ended
    simpa [isLive] using (List.mem_filter.mp isEnding).2
  · rw [if_neg isLive]
    split
    · rfl
    · next kept =>
        refine held_eq_none.mpr (Keyed.get?_eq_none.mpr fun value member same => ?_)
        refine kept (List.mem_map.mpr ⟨value, List.mem_filter.mpr ⟨member, ?_⟩, same⟩)
        simpa [same] using isLive

theorem Grounded.held_insertAgreement (grounded : agent.Grounded me chain)
    (stored : Stored Agreement) :
    (agent.insertAgreement stored).held agreement =
      if agreement = stored.key then some fresh else agent.held agreement := by
  have inserted : (agent.insertAgreement stored).agreements.get? agreement =
      if agreement = stored.key then
        some
          { agreement := stored
            provider := agent.pool.entries.length
            counter := none }
      else agent.agreements.get? agreement :=
    Keyed.get?_insert agent.agreements _ agreement
  by_cases same : agreement = stored.key
  · rw [if_pos same] at inserted ⊢
    rw [held_of_get? inserted]
    simp [Agent.insertAgreement, Pool.served, Pool.servedTotal, fresh, Provider.fromMarketplace,
      Provider.new]
  · rw [if_neg same] at inserted ⊢
    refine held_congr (congrArg _ inserted) fun live found => ?_
    obtain ⟨provider, _, _, entry, _⟩ := grounded.entry_of_get? found
    simp [Agent.insertAgreement, Pool.served, Pool.servedTotal, entry,
      Pool.entryAt_add_of_some _ entry]

theorem Grounded.held_adoptAgreement (grounded : agent.Grounded me chain)
    (agreement : EntityKey) (stored : Stored Agreement) :
    (agent.adoptAgreement stored).held agreement = agent.held agreement ∨
      stored.key = agreement ∧ agent.held agreement = none ∧
        (agent.adoptAgreement stored).held agreement = some fresh := by
  rw [Agent.adoptAgreement]
  split
  · next live found =>
      have adjusted := Keyed.get?_adjust agent.agreements stored.key
        (fun live =>
          { live with
            agreement :=
              { live.agreement with
                createdAt := stored.createdAt
                expiresAt := stored.expiresAt } })
        (fun _ => rfl) agreement
      refine .inl (held_congr ((congrArg _ adjusted).trans ?_) fun _ _ => ⟨rfl, rfl⟩)
      split
      · rw [Option.map_map]
        rfl
      · rfl
  · next absent =>
      split
      · exact .inl rfl
      · rw [grounded.held_insertAgreement]
        split
        · next same =>
            exact .inr ⟨same.symm, held_eq_none.mpr (same ▸ absent), rfl⟩
        · exact .inl rfl

/-- A page of agreement records adopts an agreement, or leaves what memory holds of it. -/
theorem Grounded.held_adoptAgreements (grounded : agent.Grounded me chain)
    (agreement : EntityKey) {live : List (Stored Agreement)}
    (known : ∀ stored ∈ live, (chain.entities.get? stored.key).isSome) :
    (agent.adoptAgreements live).held agreement = agent.held agreement ∨
      agreement ∈ live.map Stored.key ∧ agent.held agreement = none ∧
        (agent.adoptAgreements live).held agreement = some fresh := by
  rw [Agent.adoptAgreements]
  induction live generalizing agent with
  | nil => exact .inl rfl
  | cons stored live ih =>
      have later := ih (grounded.adoptAgreement (known stored List.mem_cons_self))
        fun other member => known other (List.mem_cons_of_mem _ member)
      rw [List.foldl_cons, List.map_cons, List.mem_cons]
      rcases grounded.held_adoptAgreement agreement stored with
        same | ⟨isKey, absent, now⟩
      · rw [same] at later
        exact later.imp_right fun taken => ⟨.inr taken.1, taken.2⟩
      · rcases later with kept | ⟨_, none_, _⟩
        · exact .inr ⟨.inl isKey.symm, absent, kept.trans now⟩
        · rw [now] at none_
          cases none_

/-- The counter of an agreement is set. -/
theorem held_setCounter (agent : Agent) (other : EntityKey) (counter : Option OpenCounter) :
    (agent.setCounter other counter).held agreement =
      if agreement = other then
        (agent.held agreement).map fun held => { held with counter := counter.map (·.key) }
      else agent.held agreement := by
  have adjusted := Keyed.get?_adjust agent.agreements other
    (fun live => { live with counter := counter }) (fun _ => rfl) agreement
  split
  · next same =>
      rw [if_pos same] at adjusted
      refine (congrArg (Option.map fun live : Live =>
        ({ counter := live.counter.map (·.key)
           served := agent.pool.served live.provider
           total := agent.pool.servedTotal live.provider } : Held)) adjusted).trans ?_
      cases found : agent.agreements.get? agreement <;> simp [Agent.held, found]
  · next differs =>
      rw [if_neg differs] at adjusted
      exact held_congr (congrArg _ adjusted) fun _ _ => ⟨rfl, rfl⟩

/-! ## The ends of periods -/

theorem find?_ended {closing : List Closing} (distinct : (closing.map Closing.agreement).Nodup)
    (ends : Closing → Bool) :
    (closing.filter ends).find? (·.agreement = agreement) =
      (closing.find? (·.agreement = agreement)).filter ends := by
  induction closing with
  | nil => rfl
  | cons close closing ih =>
      obtain ⟨apart, rest⟩ := List.nodup_cons.mp distinct
      by_cases here : close.agreement = agreement
      · have others : closing.find? (·.agreement = agreement) = none := by
          refine List.find?_eq_none.mpr fun other member same => apart ?_
          rw [here, ← of_decide_eq_true same]
          exact List.mem_map_of_mem member
        cases isEnd : ends close with
        | true => simp [isEnd, here, Option.filter]
        | false =>
            rw [List.filter_cons_of_neg (by simp [isEnd]), ih rest, others,
              List.find?_cons_of_pos (by simp [here])]
            simp [isEnd, Option.filter]
      · cases isEnd : ends close with
        | true =>
            rw [List.filter_cons_of_pos isEnd, List.find?_cons_of_neg (by simp [here]),
              List.find?_cons_of_neg (by simp [here]), ih rest]
        | false =>
            rw [List.filter_cons_of_neg (by simp [isEnd]), List.find?_cons_of_neg (by simp [here]),
              ih rest]

theorem endPeriod_get? (head : Nat) (ended : Agent × Batch) (close : Closing)
    (other : EntityKey) :
    ((endPeriod head ended close).1.agreements.get? other).map Live.agreement =
      (ended.1.agreements.get? other).map Live.agreement := by
  rw [endPeriod]
  split
  · rfl
  · next live found =>
      have adjusted := Keyed.get?_adjust ended.1.agreements close.agreement
        (fun live => { live with counter := none }) (fun _ => rfl) other
      simp only [Agent.forgetCounter, found]
      refine (congrArg _ adjusted).trans ?_
      split
      · rw [Option.map_map]
        rfl
      · rfl

/-- What memory holds once a close that landed has left it. -/
def closedBy (close : Option Closing) (held : Held) : Held :=
  match close with
  | some close =>
      { held with
        counter := none
        served := held.served - close.count }
  | none => held

@[simp]
theorem closedBy_none : closedBy none = id :=
  rfl

/-- The successor that the end of a period opens. -/
def succeeds (agreement : EntityKey) (head : Nat) (close : Option Closing) (live : Option Live) :
    List CounterWrite :=
  match close, live with
  | some _, some live =>
      [.opening (freshCounter agreement live.agreement.record live.agreement.record.weiPerCall
        head)]
  | _, _ => []

/-- What the end of an agreement's period leaves in memory, and what it writes. -/
structure EndsAs (me : Address) (chain : Chain) (agreement : EntityKey) (head : Nat)
    (close : Option Closing) (before after : Agent) (made : Batch) : Prop where
  held : after.held agreement = (before.held agreement).map (closedBy close)
  writes : made.filterMap (Operation.writeFor me chain agreement) =
    succeeds agreement head close (before.agreements.get? agreement)

theorem Grounded.endsPeriod (grounded : agent.Grounded me chain) (agreement : EntityKey)
    (head : Nat) (close : Closing) (made : Batch) :
    ∃ one : Batch, (endPeriod head (agent, made) close).2 = made ++ one ∧
      (endPeriod head (agent, made) close).1.Grounded me chain ∧
      EndsAs me chain agreement head (if close.agreement = agreement then some close else none)
        agent (endPeriod head (agent, made) close).1 one := by
  rw [endPeriod]
  by_cases here : close.agreement = agreement
  · rw [if_pos here]
    split
    · next absent =>
        have gone : agent.agreements.get? agreement = none := here ▸ absent
        refine ⟨[], by simp, grounded, ?_, ?_⟩
        · rw [held_eq_none.mpr gone]
          rfl
        · rw [gone]
          rfl
    · next live found =>
        have isLive : agent.agreements.get? agreement = some live := here ▸ found
        refine ⟨_, rfl, grounded.forgetCounter _ _, ?_, ?_⟩
        · rw [grounded.held_forgetCounter, if_pos here]
          rfl
        · rw [isLive, here]
          simp [Operation.writeFor, freshCounter, succeeds]
  · rw [if_neg here]
    split
    · exact ⟨[], by simp, grounded, by simp, rfl⟩
    · refine ⟨_, rfl, grounded.forgetCounter _ _, ?_, ?_⟩
      · rw [grounded.held_forgetCounter, if_neg here]
        simp
      · simp [Operation.writeFor, freshCounter, succeeds, here]

/-- Every close that landed leaves memory, and its agreement's successor is opened. -/
theorem Grounded.held_endPeriods (grounded : agent.Grounded me chain) (agreement : EntityKey)
    {closing : List Closing} (distinct : (closing.map Closing.agreement).Nodup) (patched : List EntityKey) (head : Nat) :
    EndsAs me chain agreement head
      ((closing.find? (·.agreement = agreement)).filter (·.counter ∈ patched)) agent
      (agent.endPeriods closing patched head).1 (agent.endPeriods closing patched head).2 := by
  rw [Agent.endPeriods, ← find?_ended distinct]
  have part : ((closing.filter (·.counter ∈ patched)).map Closing.agreement).Nodup :=
    distinct.sublist (List.filter_sublist.map _)
  generalize closing.filter (·.counter ∈ patched) = ended at part
  suffices ∀ made : Batch, ∃ all : Batch,
      (ended.foldl (endPeriod head) (agent, made)).2 = made ++ all ∧
        EndsAs me chain agreement head (ended.find? (·.agreement = agreement)) agent
          (ended.foldl (endPeriod head) (agent, made)).1 all by
    obtain ⟨all, same, ends⟩ := this []
    rw [same]
    simpa using ends
  clear distinct
  induction ended generalizing agent with
  | nil =>
      exact fun made => ⟨[], by simp, by simp, by simp [succeeds]⟩
  | cons close ended ih =>
      intro made
      obtain ⟨apart, rest⟩ := List.nodup_cons.mp part
      obtain ⟨one, isOne, grounded', first⟩ := grounded.endsPeriod agreement head close made
      obtain ⟨all, isAll, later⟩ := ih grounded' rest (endPeriod head (agent, made) close).2
      have kept := endPeriod_get? head (agent, made) close agreement
      rw [List.foldl_cons]
      refine ⟨one ++ all, ?_, ?_, ?_⟩
      · rw [← List.append_assoc, ← isOne]
        exact isAll
      · refine later.held.trans ?_
        rw [first.held]
        by_cases here : close.agreement = agreement
        · have others : ended.find? (·.agreement = agreement) = none := by
            refine List.find?_eq_none.mpr fun other member same => apart ?_
            rw [here, ← of_decide_eq_true same]
            exact List.mem_map_of_mem member
          simp [here, others]
        · simp [here]
      · rw [List.filterMap_append, first.writes, later.writes]
        by_cases here : close.agreement = agreement
        · have others : ended.find? (·.agreement = agreement) = none := by
            refine List.find?_eq_none.mpr fun other member same => apart ?_
            rw [here, ← of_decide_eq_true same]
            exact List.mem_map_of_mem member
          simp [here, others, succeeds]
        · rw [if_neg here, List.find?_cons_of_neg (by simp [here])]
          cases ended.find? (·.agreement = agreement) with
          | none => simp [succeeds]
          | some found =>
              cases was : agent.agreements.get? agreement with
              | none =>
                  rw [was] at kept
                  simp [succeeds, Option.map_eq_none_iff.mp kept]
              | some live =>
                  rw [was] at kept
                  obtain ⟨now, isNow, same⟩ := Option.map_eq_some_iff.mp kept
                  simp [succeeds, isNow, same]

end Agent

/-! ## What a flush owes -/

/-- Of values at most one of which is meant, only that one is read. -/
theorem filterMap_of_unique {α β : Type} {values : List α} (mine : α → Bool) {read : α → Option β}
    (others : ∀ value ∈ values, mine value = false → read value = none)
    (unique : values.Pairwise fun first second => mine first = true → mine second = false) :
    values.filterMap read = ((values.find? mine).bind read).toList := by
  induction values with
  | nil => rfl
  | cons value values ih =>
      obtain ⟨apart, rest⟩ := List.pairwise_cons.mp unique
      have later := ih (fun other member => others other (List.mem_cons_of_mem _ member)) rest
      cases isMine : mine value with
      | false =>
          rw [List.filterMap_cons_none (others value List.mem_cons_self isMine),
            List.find?_cons_of_neg (by simp [isMine]), later]
      | true =>
          have absent : values.filterMap read = [] := by
            refine List.filterMap_eq_nil_iff.mpr fun other member => ?_
            exact others other (List.mem_cons_of_mem _ member) (apart other member isMine)
          rw [List.find?_cons_of_pos isMine, List.filterMap_cons, absent]
          simp only [Option.bind_some]
          cases read value <;> rfl

/-- Keys that are distinct name one value at most. -/
theorem unique_of_nodup {α κ : Type} [DecidableEq κ] {values : List α} {name : α → κ}
    (distinct : (values.map name).Nodup) (key : κ) :
    values.Pairwise fun first second =>
      decide (name first = key) = true → decide (name second = key) = false := by
  refine (List.pairwise_map.mp distinct).imp fun {first second} apart isFirst => ?_
  rw [decide_eq_false_iff_not]
  rintro rfl
  exact apart (of_decide_eq_true isFirst)

/-- The record read that an agreement counts into, or that is a stray of it. -/
def Counters.row (counters : Counters) (agreement : EntityKey) : Option Entry :=
  ((counters.opened.get? agreement).or
    (counters.strays.find? (·.record.agreement = agreement))).map Entry.ofStored

namespace Agent

variable {me : Address} {chain : Chain} {agent : Agent} {agreement : EntityKey}
  {counters : Counters} {head : Nat} {flush : Flush}

theorem writeFor_patchRecord {key : EntityKey} {record : CounterRecord}
    (owned : chain.owner me key = some agreement) :
    (patchRecord key record).writeFor me chain agreement =
      some (.patch key record.payload (record.state = .closed)) := by
  cases state : record.state <;> simp [patchRecord, Operation.writeFor, owned, state]

theorem deletes_writes (keys : List EntityKey) :
    (keys.map Operation.delete).filterMap (Operation.writeFor me chain agreement) =
      (keys.filter (chain.owner me · = some agreement)).map CounterWrite.delete := by
  induction keys with
  | nil => rfl
  | cons key keys ih =>
      rw [List.map_cons, List.filterMap_cons, ih]
      by_cases owned : chain.owner me key = some agreement <;> simp [Operation.writeFor, owned]

/-- The write that ends the agreement's stray. -/
theorem strays_writes (read : counters.Grounded me chain agent.agreements) :
    (counters.strays.map (strayWrite head)).filterMap (Operation.writeFor me chain agreement) =
      ((counters.strays.find? (·.record.agreement = agreement)).map fun stray =>
        if stray.record.count = 0 then CounterWrite.delete stray.key
        else .patch stray.key (closed stray.record stray.record.count head).payload true).toList := by
  have writes : ∀ stray ∈ counters.strays, stray.record.agreement = agreement →
      (strayWrite head stray).writeFor me chain agreement = some
        (if stray.record.count = 0 then CounterWrite.delete stray.key
        else .patch stray.key (closed stray.record stray.record.count head).payload true) := by
    rintro stray member rfl
    have owned := (read.strays stray member).1
    rw [strayWrite]
    split
    · simp [Operation.writeFor, owned]
    · rw [writeFor_patchRecord owned]
      rfl
  rw [List.filterMap_map, filterMap_of_unique (·.record.agreement = agreement) ?_
    (unique_of_nodup read.distinct agreement)]
  · cases found : counters.strays.find? (·.record.agreement = agreement) with
    | none => rfl
    | some stray =>
        have member := List.mem_of_find?_eq_some found
        have same : stray.record.agreement = agreement := by simpa using List.find?_some found
        simp [writes stray member same]
  · intro stray member other
    have owned := (read.strays stray member).1
    have differs : stray.record.agreement ≠ agreement := of_decide_eq_false other
    rw [Function.comp_apply, strayWrite]
    split <;> simp [Operation.writeFor, patchRecord, owned, differs]

/-- What a flush owes one agreement is written for no other. -/
theorem countsOf_other {live : Live} (other : live.key ≠ agreement)
    (read : counters.Grounded me chain agent.agreements) :
    (agent.countsOf counters head flush live).1.bind (Operation.writeFor me chain agreement) =
      none := by
  simp only [Agent.countsOf]
  split
  · next stored found =>
      obtain ⟨inOpened, same⟩ := Keyed.get?_eq_some.mp found
      have owned : chain.owner me stored.key = some live.key :=
        (read.opened stored inOpened).1.trans (congrArg some same)
      split
      · simp [Operation.writeFor, patchRecord, owned, other]
      · split <;> simp [Operation.writeFor, patchRecord, owned, other]
  · split <;> simp [Operation.writeFor, freshCounter, other]

/-- What a flush owes a live agreement. -/
theorem countsOf_owed {live : Live}
    (found : agent.agreements.get? agreement = some live)
    (read : counters.Grounded me chain agent.agreements)
    (isOpen : ∀ stored ∈ counters.opened.values, stored.record.state = .opened) (head : Nat)
    (flush : Flush) :
    let opening := freshCounter agreement live.agreement.record live.agreement.record.weiPerCall head
    let owed := Account.owed flush head (blocks agent.config.settlementPeriod) opening
      (counters.row agreement) (agent.held agreement)
    (((agent.countsOf counters head flush live).1.bind
      (Operation.writeFor me chain agreement)).toList = owed.1) ∧
      ((agent.countsOf counters head flush live).2.map fun close =>
        ({ counter := close.counter
           count := close.count
           landed := false } : Close)) = owed.2 := by
  intro opening owed
  obtain ⟨member, rfl⟩ := Keyed.get?_eq_some.mp found
  have noStray : counters.strays.find? (·.record.agreement = live.key) = none := by
    refine List.find?_eq_none.mpr fun stray inStrays same => ?_
    have absent := (read.strays stray inStrays).2
    rw [of_decide_eq_true same, found] at absent
    cases absent
  have isRow : counters.row live.key =
      (counters.opened.get? live.key).map Entry.ofStored := by
    rw [Counters.row, noStray, Option.or_none]
  have isHeld := held_of_get? found
  simp only [owed, isRow, isHeld, Agent.countsOf]
  cases opened : counters.opened.get? live.key with
  | none => cases flush <;> simp [Account.owed, Operation.writeFor, freshCounter, opening]
  | some stored =>
      obtain ⟨inOpened, same⟩ := Keyed.get?_eq_some.mp opened
      have owned : chain.owner me stored.key = some live.key :=
        (read.opened stored inOpened).1.trans (congrArg some same)
      simp only [Option.map_some, Account.owed, Entry.ofStored]
      split
      · rw [Option.bind_some, writeFor_patchRecord owned]
        exact ⟨rfl, rfl⟩
      · split
        · exact ⟨rfl, rfl⟩
        · rw [Option.bind_some, writeFor_patchRecord owned]
          simp [counted, isOpen stored inOpened, CounterRecord.payload]

/-- A flush's first batch as one agreement's account sees it. -/
theorem countsBatch_owed (agreement : EntityKey)
    (read : counters.Grounded me chain agent.agreements)
    (isOpen : ∀ stored ∈ counters.opened.values, stored.record.state = .opened) (head : Nat)
    (flush : Flush) :
    ∃ opening : CounterRecord, opening.count = 0 ∧ opening.state = .opened ∧
      let owed := Account.owed flush head (blocks agent.config.settlementPeriod) opening
        (counters.row agreement) (agent.held agreement)
      (agent.countsBatch counters head flush).1.filterMap (Operation.writeFor me chain agreement) =
          (if flush = .scheduled then
            (counters.duplicates.filter (chain.owner me · = some agreement)).map CounterWrite.delete
          else []) ++ owed.1 ∧
        (((agent.countsBatch counters head flush).2.find? (·.agreement = agreement)).map fun close =>
          ({ counter := close.counter
             count := close.count
             landed := false } : Close)) = owed.2 := by
  have unique : agent.agreements.values.Pairwise fun first second =>
      decide (first.key = agreement) = true → decide (second.key = agreement) = false :=
    unique_of_nodup agent.agreements.distinct agreement
  have writes : ((agent.agreements.values.map (agent.countsOf counters head flush)).filterMap
      Prod.fst).filterMap (Operation.writeFor me chain agreement) =
      ((agent.agreements.get? agreement).bind fun live =>
        (agent.countsOf counters head flush live).1.bind
          (Operation.writeFor me chain agreement)).toList := by
    rw [List.filterMap_filterMap, List.filterMap_map,
      filterMap_of_unique (·.key = agreement) ?_ unique]
    · rfl
    · exact fun live _ other => countsOf_other (of_decide_eq_false other) read
  have closes : ((agent.agreements.values.map (agent.countsOf counters head flush)).filterMap
      Prod.snd).find? (·.agreement = agreement) =
      (agent.agreements.get? agreement).bind fun live =>
        (agent.countsOf counters head flush live).2 := by
    rw [List.filterMap_map, ← List.head?_filter, List.filter_filterMap,
      filterMap_of_unique (·.key = agreement) ?_ unique]
    · cases found : agent.agreements.get? agreement with
      | none =>
          rw [Keyed.get?] at found
          simp [found]
      | some live =>
          obtain ⟨_, isKey⟩ := Keyed.get?_eq_some.mp found
          rw [Keyed.get?] at found
          rw [found]
          cases asks : (agent.countsOf counters head flush live).2 with
          | none => simp [asks]
          | some close => simp [asks, Option.filter, countsOf_agreement asks, isKey]
    · intro live _ other
      cases asks : (agent.countsOf counters head flush live).2 with
      | none => simp [asks]
      | some close =>
          have differs : live.key ≠ agreement := of_decide_eq_false other
          simp [asks, Option.filter, countsOf_agreement asks, differs]
  cases found : agent.agreements.get? agreement with
  | some live =>
      have noStray : counters.strays.find? (·.record.agreement = agreement) = none := by
        refine List.find?_eq_none.mpr fun stray inStrays same => ?_
        have absent := (read.strays stray inStrays).2
        rw [of_decide_eq_true same, found] at absent
        cases absent
      obtain ⟨made, asked⟩ := countsOf_owed found read isOpen head flush
      refine ⟨freshCounter agreement live.agreement.record live.agreement.record.weiPerCall head,
        rfl, rfl, ?_, ?_⟩
      · rw [← made]
        simp only [Agent.countsBatch, List.filterMap_append, writes, found, Option.bind_some]
        refine congrArg (· ++ _) ?_
        split
        · rw [List.filterMap_append, deletes_writes, strays_writes read, noStray]
          simp
        · rfl
      · rw [← asked]
        simp only [Agent.countsBatch, closes, found, Option.bind_some]
  | none =>
      have isRow : counters.row agreement =
          (counters.strays.find? (·.record.agreement = agreement)).map Entry.ofStored := by
        have absent : counters.opened.get? agreement = none := by
          refine Option.eq_none_iff_forall_ne_some.mpr fun stored isThere => ?_
          obtain ⟨inOpened, same⟩ := Keyed.get?_eq_some.mp isThere
          have known := (read.opened stored inOpened).2
          rw [show stored.record.agreement = agreement from same, found] at known
          cases known
        rw [Counters.row, absent, Option.none_or]
      refine ⟨{ agreement := agreement, provider := 0, state := .opened, count := 0, weiPerCall := 0,
                openedBlock := 0, closedBlock := none }, rfl, rfl, ?_, ?_⟩
      · simp only [Agent.countsBatch, List.filterMap_append, writes, found, Option.bind_none,
          held_eq_none.mpr found, isRow]
        cases flush with
        | stop => cases counters.strays.find? (·.record.agreement = agreement) <;> rfl
        | scheduled =>
            rw [if_pos rfl, if_pos rfl, List.filterMap_append, deletes_writes, strays_writes read]
            cases counters.strays.find? (·.record.agreement = agreement) with
            | none => simp [Account.owed]
            | some stray =>
                by_cases zero : stray.record.count = 0 <;>
                  simp [Account.owed, Entry.ofStored, zero]
      · simp only [Agent.countsBatch, closes, found, Option.bind_none, held_eq_none.mpr found, isRow]
        cases counters.strays.find? (·.record.agreement = agreement) with
        | none => cases flush <;> rfl
        | some stray =>
            cases flush with
            | stop => rfl
            | scheduled =>
                by_cases zero : stray.record.count = 0 <;>
                  simp [Account.owed, Entry.ofStored, zero]

end Agent

end CommunityLb
