import CommunityLb.Marketplace.Refresh

/-!
# A refresh against the block it lands in

A refresh is one transaction of extends, and one extend that the chain refuses refuses them all.
What the refresh leaves out it decides by the head it read, which is past when it lands.
-/

namespace CommunityLb

namespace Chain

variable {chain next : Chain} {me : Address} {fresh : EntityKey}

/-- An extend that the chain takes: its entity is alive, and its expiry moves later. -/
def Extendable (chain : Chain) (key : EntityKey) (seconds : Nat) : Prop :=
  ∃ row ∈ chain.live? key, row.expiresAt < chain.head + blocksOf seconds

theorem operate_extend_isSome {key : EntityKey} {seconds : Nat} :
    (chain.operate me fresh (.extend key seconds)).isSome ↔ chain.Extendable key seconds := by
  simp only [operate, Extendable]
  split
  · next moves =>
      obtain ⟨row, isLive, later⟩ := (Option.any_eq_true _ _).mp moves
      simpa using ⟨row, isLive, of_decide_eq_true later⟩
  · next stays =>
      simp only [Option.isSome_none, Bool.false_eq_true, false_iff]
      rintro ⟨row, isLive, later⟩
      exact stays ((Option.any_eq_true _ _).mpr ⟨row, isLive, decide_eq_true later⟩)

/-- An extend leaves every other entity as it was. -/
theorem operate_extend_live? {key other : EntityKey} {seconds : Nat}
    (operated : chain.operate me fresh (.extend key seconds) = some next) (differs : other ≠ key) :
    next.live? other = chain.live? other := by
  simp only [operate] at operated
  split at operated
  · cases operated
    simp only [live?, Keyed.get?_adjust, if_neg differs]
    rfl
  · cases operated

/-- Extends of different entities all land, exactly when the chain takes each of them. -/
theorem execute_extends {extends_ : List ((EntityKey × Nat) × EntityKey)}
    (distinct : (extends_.map (·.1.1)).Nodup) :
    (chain.execute me (extends_.map fun sent => (.extend sent.1.1 sent.1.2, sent.2))).isSome ↔
      ∀ sent ∈ extends_, chain.Extendable sent.1.1 sent.1.2 := by
  induction extends_ generalizing chain with
  | nil => simp [execute]
  | cons sent extends_ ih =>
      obtain ⟨⟨key, seconds⟩, fresh⟩ := sent
      obtain ⟨notAmong, distinct⟩ := List.nodup_cons.mp distinct
      simp only [List.map_cons, execute, List.forall_mem_cons]
      cases operated : chain.operate me fresh (.extend key seconds) with
      | none =>
          have refused : ¬ chain.Extendable key seconds := fun taken => by
            have lands : (chain.operate me fresh (.extend key seconds)).isSome :=
              operate_extend_isSome.mpr taken
            rw [operated] at lands
            cases lands
          simp [refused]
      | some next =>
          have taken : chain.Extendable key seconds :=
            operate_extend_isSome.mp (Option.isSome_iff_exists.mpr ⟨next, operated⟩)
          have head : next.head = chain.head := operate_head operated
          have others : ∀ sent ∈ extends_,
              next.Extendable sent.1.1 sent.1.2 ↔ chain.Extendable sent.1.1 sent.1.2 := by
            intro sent member
            have differs : sent.1.1 ≠ key := by
              intro same
              exact notAmong (same ▸ List.mem_map_of_mem (f := fun sent => sent.1.1) member)
            rw [Extendable, Extendable, operate_extend_live? operated differs, head]
          rw [Option.bind_some, ih distinct, and_iff_right taken]
          exact forall₂_congr others

/-- An entity of a kind that expires in a block, and was not deleted. -/
def Bears (chain : Chain) (key : EntityKey) (kind : Kind) (expiresAt : Nat) : Prop :=
  ∃ row, chain.entities.get? key = some row ∧ row.record.kind = kind ∧
    row.expiresAt = expiresAt ∧ key ∉ chain.gone

theorem Bears.kind_eq {key : EntityKey} {first second : Kind} {expiresAt expiresAt' : Nat}
    (one : chain.Bears key first expiresAt) (other : chain.Bears key second expiresAt') :
    first = second := by
  obtain ⟨row, found, rfl, _⟩ := one
  obtain ⟨row', found', rfl, _⟩ := other
  cases found.symm.trans found'
  rfl

theorem Bears.extendable_iff {key : EntityKey} {kind : Kind} {expiresAt seconds : Nat}
    (bears : chain.Bears key kind expiresAt) :
    chain.Extendable key seconds ↔
      chain.head < expiresAt ∧ expiresAt < chain.head + blocksOf seconds := by
  obtain ⟨row, found, _, rfl, present⟩ := bears
  obtain ⟨_, rfl⟩ := Keyed.get?_eq_some.mp found
  constructor
  · rintro ⟨other, isLive, later⟩
    obtain ⟨isThere, alive⟩ := Option.filter_eq_some_iff.mp isLive
    cases found.symm.trans isThere
    exact ⟨(of_decide_eq_true alive).1, later⟩
  · rintro ⟨alive, later⟩
    exact ⟨row, Option.filter_eq_some_iff.mpr ⟨found, decide_eq_true ⟨alive, present⟩⟩, later⟩

end Chain

namespace Agent

variable {agent : Agent} {head : Nat}

/-- Memory has every expiry that the chain has: the listing's, and each agreement's. -/
structure KnowsExpiries (agent : Agent) (chain : Chain) : Prop where
  listing : chain.Bears agent.listingKey .listing agent.listingExpiresAt
  agreement : ∀ live ∈ agent.agreements.values,
    chain.Bears live.key .agreement live.agreement.expiresAt

/-- An agreement that a refresh extends. -/
def extendsOne (agent : Agent) (head : Nat) (live : Live) : Bool :=
  (agent.refreshOf (some head) live).isSome

theorem refreshOf_some {live : Live} :
    agent.refreshOf (some head) live =
      if agent.extendsOne head live then some (.extend live.key agent.config.agreementLife.asSecs)
      else none := by
  simp only [extendsOne, refreshOf]
  split
  · rfl
  · split
    · rfl
    · split <;> rfl

/-- A refresh extends an eligible provider's agreement that outlives the head by no more than the
life an extend sets. -/
theorem extendsOne_iff {live : Live} :
    agent.extendsOne head live = true ↔
      (agent.pool.entryAt live.provider).any (·.eligible) = true ∧
        head < live.agreement.expiresAt ∧
          live.agreement.expiresAt ≤ head + blocks agent.config.agreementLife := by
  have left : agent.refreshOf (some head) live = none ↔ _ := refreshOf_none
  rw [← Option.not_isSome_iff_eq_none] at left
  rw [extendsOne, ← not_iff_not, left, leavesOut, expiresLater]
  cases (agent.pool.entryAt live.provider).any (·.eligible) with
  | false => simp
  | true =>
      simp only [Bool.true_eq_false, Bool.true_and, decide_eq_true_eq, Option.any_some, true_and,
        false_or, not_and, not_le, gt_iff_lt]
      omega

/-- What a refresh extends, and for how long. -/
def refreshed (agent : Agent) (head : Nat) : List (EntityKey × Nat) :=
  (if expiresLater (some head) agent.listingExpiresAt agent.config.listingLife then []
    else [(agent.listingKey, agent.config.listingLife.asSecs)]) ++
    (agent.agreements.values.filter (agent.extendsOne head)).map fun live =>
      (live.key, agent.config.agreementLife.asSecs)

/-- A refresh is extends only. -/
theorem refreshBatch_eq :
    agent.refreshBatch (some head) =
      (agent.refreshed head).map fun extended => .extend extended.1 extended.2 := by
  have agreements : agent.agreements.values.filterMap (agent.refreshOf (some head)) =
      (agent.agreements.values.filter (agent.extendsOne head)).map fun live =>
        .extend live.key agent.config.agreementLife.asSecs := by
    rw [← List.filterMap_eq_map, List.filterMap_filter]
    exact List.filterMap_congr fun live _ => refreshOf_some
  rw [refreshBatch, refreshed, agreements, List.map_append, List.map_map]
  congr 1
  split <;> rfl

/-- A refresh names every entity once. -/
theorem refreshed_distinct {chain : Chain} (knows : agent.KnowsExpiries chain) :
    ((agent.refreshed head).map Prod.fst).Nodup := by
  have agreements :
      ((agent.agreements.values.filter (agent.extendsOne head)).map Live.key).Nodup :=
    (agent.agreements.filter (agent.extendsOne head)).distinct
  rw [refreshed, List.map_append, List.map_map]
  split
  · exact agreements
  · refine List.nodup_cons.mpr ⟨fun among => ?_, agreements⟩
    obtain ⟨live, member, same⟩ := List.mem_map.mp among
    have bears := knows.agreement live (List.mem_filter.mp member).1
    have same : live.key = agent.listingKey := same
    rw [same] at bears
    cases knows.listing.kind_eq bears

/-- Nothing a refresh extends expires with the block after the head: the listing does not, or is left
out, and no agreement does that an extend would be made of. -/
structure Clear (agent : Agent) (head : Nat) : Prop where
  listing : head + 1 < agent.listingExpiresAt ∨
    head + blocks agent.config.listingLife < agent.listingExpiresAt
  agreement : ∀ live ∈ agent.agreements.values,
    (agent.pool.entryAt live.provider).any (·.eligible) = true →
      live.agreement.expiresAt = head + 1 → blocks agent.config.agreementLife = 0

/-- The chain takes every extend of a refresh that lands in the next block, exactly when the head is
clear of every boundary. -/
theorem refreshed_extendable_iff {landing : Chain} (knows : agent.KnowsExpiries landing)
    (next : landing.head = head + 1) :
    (∀ extended ∈ agent.refreshed head, landing.Extendable extended.1 extended.2) ↔
      agent.Clear head := by
  simp only [refreshed, List.forall_mem_append, List.forall_mem_map, List.mem_filter]
  have listing : (∀ extended ∈ (if expiresLater (some head) agent.listingExpiresAt
        agent.config.listingLife then []
      else [(agent.listingKey, agent.config.listingLife.asSecs)]),
        landing.Extendable extended.1 extended.2) ↔
      (head + 1 < agent.listingExpiresAt ∨
        head + blocks agent.config.listingLife < agent.listingExpiresAt) := by
    by_cases later : head + blocks agent.config.listingLife < agent.listingExpiresAt
    · simp [expiresLater, later]
    · have kept : expiresLater (some head) agent.listingExpiresAt agent.config.listingLife = false := by
        simpa [expiresLater] using Nat.le_of_not_lt later
      rw [blocks] at later ⊢
      simp only [kept, Bool.false_eq_true, if_false, List.mem_singleton, forall_eq,
        knows.listing.extendable_iff, next]
      omega
  have agreement : (∀ live, live ∈ agent.agreements.values ∧ agent.extendsOne head live = true →
      landing.Extendable live.key agent.config.agreementLife.asSecs) ↔
      ∀ live ∈ agent.agreements.values,
        (agent.pool.entryAt live.provider).any (·.eligible) = true →
          live.agreement.expiresAt = head + 1 → blocks agent.config.agreementLife = 0 := by
    refine forall_congr' fun live => ?_
    rw [and_imp]
    refine forall_congr' fun member => ?_
    rw [extendsOne_iff, (knows.agreement live member).extendable_iff, next, blocks]
    constructor
    · intro takes eligible boundary
      by_contra positive
      have := (takes ⟨eligible, by omega, by omega⟩).1
      omega
    · rintro clear ⟨eligible, alive, within⟩
      have := clear eligible
      omega
  rw [listing, agreement]
  exact ⟨fun both => ⟨both.1, both.2⟩, fun clear => ⟨clear.listing, clear.agreement⟩⟩

/-- A refresh that lands within one block of the head it read: the chain takes each of its extends,
and the whole of it, exactly when the head is clear of every boundary. -/
theorem refresh_lands_iff {landing : Chain} {me : Address} {keys : List EntityKey}
    (knows : agent.KnowsExpiries landing) (after : head < landing.head)
    (within : landing.head ≤ head + 1)
    (enough : keys.length = (agent.refreshBatch (some head)).length) :
    ((∀ operation ∈ agent.refreshBatch (some head), ∃ key seconds,
        operation = .extend key seconds ∧ landing.Extendable key seconds) ∧
      (landing.land me (agent.refreshBatch (some head)) keys).isSome) ↔ agent.Clear head := by
  have next : landing.head = head + 1 := by omega
  rw [← refreshed_extendable_iff knows next, Chain.land, if_pos enough, refreshBatch_eq]
  rw [refreshBatch_eq, List.length_map] at enough
  have sent : ((agent.refreshed head).map fun extended =>
      Operation.extend extended.1 extended.2).zip keys =
      ((agent.refreshed head).zip keys).map fun sent => (.extend sent.1.1 sent.1.2, sent.2) := by
    rw [List.zip_map_left]
    rfl
  have names : ((agent.refreshed head).zip keys).map (·.1) = agent.refreshed head :=
    List.map_fst_zip enough.ge
  have distinct : (((agent.refreshed head).zip keys).map (·.1.1)).Nodup := by
    have once : ((agent.refreshed head).map Prod.fst).Nodup := refreshed_distinct knows
    rw [← names, List.map_map] at once
    exact once
  have each : (∀ sent ∈ (agent.refreshed head).zip keys,
      landing.Extendable sent.1.1 sent.1.2) ↔
      ∀ extended ∈ agent.refreshed head, landing.Extendable extended.1 extended.2 := by
    have mapped := List.forall_mem_map (f := Prod.fst) (l := (agent.refreshed head).zip keys)
      (P := fun extended => landing.Extendable extended.1 extended.2)
    rw [names] at mapped
    exact mapped.symm
  rw [sent, Chain.execute_extends distinct, each]
  constructor
  · exact And.right
  · intro takes
    refine ⟨fun operation member => ?_, takes⟩
    obtain ⟨extended, among, rfl⟩ := List.mem_map.mp member
    exact ⟨extended.1, extended.2, rfl, takes extended among⟩

/-! ## One agreement, and its boundary -/

/-- An agreement that expires in a block. -/
def lastingUntil (expiresAt : Nat) : Stored Agreement where
  key := 200
  creator := 1
  createdAt := 100
  expiresAt := expiresAt
  record :=
    { provider := 9
      offer := 50
      weiPerCall := 7
      remotePort := 20000 }

/-- Memory of that agreement alone, its provider in rotation. -/
def holdsUntil (expiresAt : Nat) : Agent where
  config := smallSection
  identity := smallSidecar
  pool :=
    { entries := [{ Provider.fromMarketplace 9 200 20000 with eligibility := ALL_GATES }]
      members := [0] }
  agreements := Keyed.empty.insert
    { agreement := lastingUntil expiresAt
      provider := 0
      counter := none }
  listingKey := 10
  listingExpiresAt := 1000
  admissions := []

/-- The block after 599, with that agreement and the listing on the chain. -/
def landingAt600 (expiresAt : Nat) : Chain where
  head := 600
  entities :=
    (Keyed.empty.insert
      { key := 10
        creator := 1
        createdAt := 0
        expiresAt := 1000
        record := .listing { tunnelServer := "lb:7000", weiPerCall := 7, maxProviders := 2 } }).insert
      { key := 200
        creator := 1
        createdAt := 100
        expiresAt := expiresAt
        record := .agreement (lastingUntil expiresAt).record }
  gone := []

theorem holdsUntil_knows (expiresAt : Nat) :
    (holdsUntil expiresAt).KnowsExpiries (landingAt600 expiresAt) where
  listing := ⟨_, rfl, rfl, rfl, List.not_mem_nil⟩
  agreement := by
    intro live member
    obtain rfl : live = _ := List.mem_singleton.mp member
    exact ⟨_, rfl, rfl, rfl, List.not_mem_nil⟩

theorem holdsUntil_601_lands :
    (holdsUntil 601).Clear 599 ∧
      ((landingAt600 601).land 1 ((holdsUntil 601).refreshBatch (some 599)) [300, 301]).isSome := by
  have clear : (holdsUntil 601).Clear 599 := ⟨by decide, by decide⟩
  exact ⟨clear, ((refresh_lands_iff (holdsUntil_knows 601) (by decide) (by decide)
    (by decide)).mpr clear).2⟩

/-- An agreement that expires with the block a refresh lands in is extended all the same, and the
chain refuses the whole refresh. -/
theorem boundary_refuses_refresh :
    ¬ ∀ (agent : Agent) (landing : Chain) (me : Address) (head : Nat) (keys : List EntityKey),
      agent.KnowsExpiries landing → head < landing.head → landing.head ≤ head + 1 →
        keys.length = (agent.refreshBatch (some head)).length →
          (∀ operation ∈ agent.refreshBatch (some head), ∃ key seconds,
            operation = .extend key seconds ∧ landing.Extendable key seconds) ∧
            (landing.land me (agent.refreshBatch (some head)) keys).isSome := by
  intro claim
  have claimed := (claim (holdsUntil 600) (landingAt600 600) 1 599 [300, 301] (holdsUntil_knows 600)
    (by decide) (by decide) (by decide)).2
  revert claimed
  decide

end Agent

end CommunityLb
