import CommunityLb.Marketplace.Memory

/-!
# Older offers win

A poll's discovery settles the offers one after another, oldest first.  What it does is told by a
verdict on each offer: why it was passed over, or at which port its acceptance was asked for.
-/

namespace CommunityLb

/-- What a discovery does that is seen from outside. -/
inductive Act where
  | look (port : Nat) (isBound : Bool)
  /-- An acceptance's first write was answered, and the port and the slot are held after it or not. -/
  | create (offer : Stored Offer) (port : Nat) (held : Bool)
  deriving DecidableEq, Repr

/-- What became of an offer. -/
inductive OfferFate where
  /-- The free slots are used up. -/
  | waits
  /-- An agreement points at it. -/
  | pointed
  /-- Its provider has an agreement. -/
  | provided
  /-- No port is left; some were found bound on the way. -/
  | noPort (bound : List Nat)
  /-- Its acceptance was asked for, at the first port that was found not bound. -/
  | asked (bound : List Nat) (port : Nat) (held : Bool)
  deriving DecidableEq, Repr

/-- The ports that were found bound for an offer. -/
def OfferFate.bound : OfferFate → List Nat
  | noPort bound | asked bound _ _ => bound
  | _ => []

/-- The port an offer was given and holds. -/
def OfferFate.given : OfferFate → Option Nat
  | asked _ port true => some port
  | _ => none

/-- What was done about an offer. -/
def OfferFate.acts (offer : Stored Offer) : OfferFate → List Act
  | noPort bound => bound.map (.look · true)
  | asked bound port held =>
      bound.map (.look · true) ++ [.look port false, .create offer port held]
  | _ => []

/-- The offers looked at so far, each with its verdict. -/
abbrev OfferFates := List (Stored Offer × OfferFate)

namespace OfferFates

variable (verdicts : OfferFates)

/-- The offers that hold a slot. -/
def held : List (Stored Offer) :=
  (verdicts.filter fun settled => settled.2.given.isSome).map Prod.fst

/-- The ports given away. -/
def given : List Nat :=
  verdicts.filterMap fun settled => settled.2.given

/-- The ports found bound. -/
def bound : List Nat :=
  verdicts.flatMap fun settled => settled.2.bound

/-- Everything that was done. -/
def acts : List Act :=
  verdicts.flatMap fun settled => settled.2.acts settled.1

/-- A port that no agreement in memory holds, that was not given away and was not found bound. -/
def Free (agent : Agent) (bound : List Nat) (port : Nat) : Prop :=
  (∀ live ∈ agent.agreements.values, live.agreement.record.remotePort ≠ port) ∧
    port ∉ verdicts.given ∧ port ∉ verdicts.bound ∧ port ∉ bound

/-- A verdict is the right one for what memory holds, after those on the older offers. -/
def Justified (agent : Agent) (ports : List Nat) (offer : Stored Offer) : OfferFate → Prop
  | .waits => agent.config.maxProviders ≤ agent.agreements.values.length + verdicts.held.length
  | .pointed => ∃ live ∈ agent.agreements.values, live.agreement.record.offer = offer.key
  | .provided =>
      (∃ live ∈ agent.agreements.values, live.agreement.record.provider = offer.creator) ∨
        ∃ other ∈ verdicts.held, other.creator = offer.creator
  | .noPort bound => ∀ port ∈ ports, ¬ verdicts.Free agent bound port
  | .asked bound port _ =>
      (∀ live ∈ agent.agreements.values, live.agreement.record.offer ≠ offer.key ∧
        live.agreement.record.provider ≠ offer.creator) ∧
      (∀ other ∈ verdicts.held, other.creator ≠ offer.creator) ∧
      agent.agreements.values.length + verdicts.held.length < agent.config.maxProviders ∧
      port ∈ ports ∧ verdicts.Free agent bound port ∧
      ∀ other ∈ ports, verdicts.Free agent bound other → port ≤ other

/-- Every verdict is the right one. -/
inductive Settled (agent : Agent) (ports : List Nat) : OfferFates → Prop
  | empty : Settled agent ports []
  | snoc {before : OfferFates} {offer : Stored Offer} {verdict : OfferFate}
      (settled : Settled agent ports before)
      (justified : before.Justified agent ports offer verdict) :
      Settled agent ports (before ++ [(offer, verdict)])

variable {verdicts} {agent : Agent} {ports : List Nat}

/-- Every verdict is justified by those before it. -/
theorem Settled.justified (settled : Settled agent ports verdicts) {before after : OfferFates}
    {offer : Stored Offer} {verdict : OfferFate}
    (parts : verdicts = before ++ (offer, verdict) :: after) :
    before.Justified agent ports offer verdict := by
  induction settled generalizing after with
  | empty => simp at parts
  | snoc settled justified ih =>
      rcases List.eq_nil_or_concat after with rfl | ⟨rest, last, rfl⟩
      · obtain ⟨rfl, same⟩ := List.append_inj' parts rfl
        cases same
        exact justified
      · have shorter := congrArg List.dropLast parts
        simp only [List.concat_eq_append] at shorter
        rw [List.dropLast_concat, ← List.cons_append, ← List.append_assoc,
          List.dropLast_concat] at shorter
        exact ih shorter

/-- No more slots are taken than memory leaves free. -/
theorem Settled.held_le (settled : Settled agent ports verdicts) :
    verdicts.held.length ≤ agent.config.maxProviders - agent.agreements.values.length := by
  induction settled with
  | empty => exact Nat.zero_le _
  | @snoc before offer verdict settled justified ih =>
      have longer : (held (before ++ [(offer, verdict)])).length =
          before.held.length + if verdict.given.isSome then 1 else 0 := by
        simp only [held, List.filter_append, List.map_append, List.length_append]
        split <;> simp_all
      rw [longer]
      split
      · next holds =>
          cases verdict with
          | asked bound port held =>
              have slot := justified.2.2.1
              omega
          | waits => cases holds
          | pointed => cases holds
          | provided => cases holds
          | noPort bound => cases holds
      · exact ih

/-! ## What a discovery knows -/

/-- A discovery knows the verdicts so far, and the ports found bound for the offer in hand. -/
structure Known (agent : Agent) (verdicts : OfferFates) (bound : List Nat)
    (discovery : Discovery) : Prop where
  free : discovery.free = agent.config.maxProviders - agent.agreements.values.length
  takenOffers : ∀ key, key ∈ discovery.takenOffers ↔
    ∃ live ∈ agent.agreements.values, live.agreement.record.offer = key
  accepted : discovery.accepted = verdicts.held.length
  providers : ∀ provider, provider ∈ discovery.acceptedProviders ↔
    (∃ live ∈ agent.agreements.values, live.agreement.record.provider = provider) ∨
      ∃ other ∈ verdicts.held, other.creator = provider
  ports : ∀ port, port ∈ discovery.usedPorts ↔ ¬ verdicts.Free agent bound port

/-- A verdict that gives no port away, and finds none bound. -/
theorem held_pass (offer : Stored Offer) {verdict : OfferFate} (none : verdict.given = none) :
    held (verdicts ++ [(offer, verdict)]) = verdicts.held := by
  simp [held, List.filter_append, none]

theorem given_pass (offer : Stored Offer) {verdict : OfferFate} (none : verdict.given = none) :
    given (verdicts ++ [(offer, verdict)]) = verdicts.given := by
  simp [given, List.filterMap_append, none]

theorem bound_snoc (offer : Stored Offer) (verdict : OfferFate) :
    bound (verdicts ++ [(offer, verdict)]) = verdicts.bound ++ verdict.bound := by
  simp [bound, List.flatMap_append]

theorem acts_snoc (offer : Stored Offer) (verdict : OfferFate) :
    acts (verdicts ++ [(offer, verdict)]) = verdicts.acts ++ verdict.acts offer := by
  simp [acts, List.flatMap_append]

variable {bound : List Nat} {discovery : Discovery} {offer : Stored Offer}

/-- A discovery begins with what memory holds. -/
theorem Known.initial (agent : Agent) (head : Nat) (rows : List (Stored Record)) :
    Known agent [] [] (agent.discover head rows) where
  free := rfl
  takenOffers key := by simp [Agent.discover]
  accepted := rfl
  providers provider := by simp [Agent.discover, held]
  ports port := by simp [Agent.discover, Free, given, OfferFates.bound]

/-- What is known does not depend on which offers are left. -/
theorem Known.left (known : Known agent verdicts bound discovery) (rest : List (Stored Offer)) :
    Known agent verdicts bound { discovery with offers := rest } :=
  ⟨known.free, known.takenOffers, known.accepted, known.providers, known.ports⟩

/-- An offer that holds no slot: what is known is what was known of its ports. -/
theorem Known.pass (known : Known agent verdicts bound discovery) {verdict : OfferFate}
    (none : verdict.given = none) (same : verdict.bound = bound) :
    Known agent (verdicts ++ [(offer, verdict)]) [] discovery where
  free := known.free
  takenOffers := known.takenOffers
  accepted := by rw [held_pass offer none, known.accepted]
  providers provider := by rw [held_pass offer none, known.providers provider]
  ports port := by
    rw [known.ports port, Free, Free, given_pass offer none, bound_snoc, same]
    simp only [List.mem_append, List.not_mem_nil, not_false_eq_true, and_true, not_or]

/-- An offer that holds a slot and its port. -/
theorem Known.hold (known : Known agent verdicts bound discovery) (port : Nat) :
    Known agent (verdicts ++ [(offer, .asked bound port true)]) []
      (discovery.hold offer port) where
  free := known.free
  takenOffers := known.takenOffers
  accepted := by
    have longer : held (verdicts ++ [(offer, .asked bound port true)]) =
        verdicts.held ++ [offer] := by simp [held, OfferFate.given, List.filter_append]
    rw [longer, List.length_append, ← known.accepted]
    rfl
  providers provider := by
    have longer : held (verdicts ++ [(offer, .asked bound port true)]) =
        verdicts.held ++ [offer] := by simp [held, OfferFate.given, List.filter_append]
    have cons : provider ∈ (discovery.hold offer port).acceptedProviders ↔
        provider = offer.creator ∨ provider ∈ discovery.acceptedProviders := List.mem_cons
    rw [cons, known.providers provider, longer]
    simp only [List.mem_append, List.mem_singleton, or_and_right, exists_or, exists_eq_left]
    grind
  ports other := by
    have cons : other ∈ (discovery.hold offer port).usedPorts ↔
        other = port ∨ other ∈ discovery.usedPorts := List.mem_cons
    have more : given (verdicts ++ [(offer, .asked bound port true)]) =
        verdicts.given ++ [port] := by simp [given, OfferFate.given, List.filterMap_append]
    rw [cons, known.ports other, Free, Free, more, bound_snoc, OfferFate.bound]
    simp only [List.mem_append, List.mem_singleton, List.not_mem_nil, not_false_eq_true, and_true,
      not_or]
    grind

/-- A port that is found bound. -/
theorem Known.skipPort (known : Known agent verdicts bound discovery) (port : Nat) :
    Known agent verdicts (bound ++ [port]) (discovery.skipPort port) where
  free := known.free
  takenOffers := known.takenOffers
  accepted := known.accepted
  providers := known.providers
  ports other := by
    have cons : other ∈ (discovery.skipPort port).usedPorts ↔
        other = port ∨ other ∈ discovery.usedPorts := List.mem_cons
    rw [cons, known.ports other, Free, Free]
    simp only [List.mem_append, List.mem_singleton, not_or]
    grind

/-- What is found first among the ports is the lowest. -/
theorem lowest_of_find {ports : List Nat} (sorted : ports.Pairwise (· < ·)) {free : Nat → Bool}
    {port : Nat} (found : ports.find? free = some port) :
    ∀ other ∈ ports, free other = true → port ≤ other := by
  obtain ⟨-, lower, higher, rfl, taken⟩ := List.find?_eq_some_iff_append.mp found
  intro other member isFree
  rcases List.mem_append.mp member with below | above
  · exact absurd isFree (by simpa using taken other below)
  · rcases List.mem_cons.mp above with rfl | later
    · exact le_rfl
    · exact ((List.pairwise_cons.mp (List.pairwise_append.mp sorted).2.1).1 other later).le

/-- An offer that is not passed over, and the lowest port that is free for it. -/
structure Wanted (ports : List Nat) (discovery : Discovery) (offer : Stored Offer) (port : Nat) :
    Prop where
  slot : discovery.accepted < discovery.free
  unpointed : offer.key ∉ discovery.takenOffers
  unprovided : offer.creator ∉ discovery.acceptedProviders
  port : ports.find? (· ∉ discovery.usedPorts) = some port

/-- The acceptance of a wanted offer is asked for by right. -/
theorem Known.justified (known : Known agent verdicts bound discovery)
    (sorted : ports.Pairwise (· < ·)) {port : Nat} (wanted : Wanted ports discovery offer port)
    (held : Bool) : verdicts.Justified agent ports offer (.asked bound port held) := by
  have unprovided := mt (known.providers offer.creator).mpr wanted.unprovided
  push Not at unprovided
  have free : ∀ other, other ∉ discovery.usedPorts ↔ verdicts.Free agent bound other :=
    fun other => (not_congr (known.ports other)).trans not_not
  have unpointed := mt (known.takenOffers offer.key).mpr wanted.unpointed
  push Not at unpointed
  refine ⟨fun live member => ⟨unpointed live member, unprovided.1 live member⟩, unprovided.2, ?_,
    List.mem_of_find?_eq_some wanted.port, ?_, ?_⟩
  · have slot := wanted.slot
    rw [known.accepted, known.free] at slot
    omega
  · rw [← free]
    simpa using List.find?_some wanted.port
  · intro other member isFree
    exact lowest_of_find sorted wanted.port other member (by simpa using (free other).mpr isFree)

/-- No port is left for an offer. -/
theorem Known.justified_noPort (known : Known agent verdicts bound discovery)
    (none : ports.find? (· ∉ discovery.usedPorts) = none) :
    verdicts.Justified agent ports offer (.noPort bound) := by
  intro port member
  rw [← known.ports port]
  simpa using List.find?_eq_none.mp none port member

/-- Once no port is left, none of the offers that follow gets one. -/
theorem Settled.noPorts (settled : Settled agent ports verdicts)
    (known : Known agent verdicts [] discovery)
    (none : ports.find? (· ∉ discovery.usedPorts) = .none) (offers : List (Stored Offer)) :
    ∃ later, Settled agent ports (verdicts ++ later) ∧ later.map Prod.fst = offers ∧
      acts (verdicts ++ later) = verdicts.acts := by
  induction offers generalizing verdicts with
  | nil => exact ⟨[], by simpa using settled, rfl, by simp⟩
  | cons offer rest ih =>
      have justified : verdicts.Justified agent ports offer (.noPort []) :=
        known.justified_noPort none
      obtain ⟨later, isSettled, offers, same⟩ := ih (settled.snoc justified) (known.pass rfl rfl)
      refine ⟨(offer, .noPort []) :: later, ?_, ?_, ?_⟩
      · simpa using isSettled
      · simp [offers]
      · rw [List.append_cons, same, acts_snoc]
        simp [OfferFate.acts]

/-- What the search for the next offer settles on its way, with nothing done about any offer. -/
inductive Sought (agent : Agent) (ports : List Nat) (discovery : Discovery)
    (verdicts : OfferFates) (offers : List (Stored Offer)) :
    Option (Discovery × Stored Offer × Nat) → Prop
  | ended {later : OfferFates} (settled : Settled agent ports (verdicts ++ later))
      (all : later.map Prod.fst = offers) (quiet : acts (verdicts ++ later) = verdicts.acts) :
      Sought agent ports discovery verdicts offers none
  | found {later : OfferFates} {offer : Stored Offer} {rest : List (Stored Offer)} {port : Nat}
      (settled : Settled agent ports (verdicts ++ later))
      (parts : later.map Prod.fst ++ offer :: rest = offers)
      (quiet : acts (verdicts ++ later) = verdicts.acts)
      (known : Known agent (verdicts ++ later) [] { discovery with offers := rest })
      (wanted : Wanted ports { discovery with offers := rest } offer port) :
      Sought agent ports discovery verdicts offers
        (some ({ discovery with offers := rest }, offer, port))

/-- An offer that is passed over joins the verdicts, and the search goes on. -/
theorem Sought.pass {verdict : OfferFate} {rest : List (Stored Offer)}
    {found : Option (Discovery × Stored Offer × Nat)} (silent : verdict.acts offer = [])
    (sought : Sought agent ports discovery (verdicts ++ [(offer, verdict)]) rest found) :
    Sought agent ports discovery verdicts (offer :: rest) found := by
  have same : acts (verdicts ++ [(offer, verdict)]) = verdicts.acts := by
    rw [acts_snoc, silent, List.append_nil]
  cases sought with
  | @ended later settled all quiet =>
      rw [← List.append_cons] at settled quiet
      exact .ended settled (congrArg (offer :: ·) all) (quiet.trans same)
  | @found later other left port settled parts quiet known wanted =>
      rw [← List.append_cons] at settled quiet known
      exact .found settled (congrArg (offer :: ·) parts) (quiet.trans same) known wanted

/-- The search for the next offer settles the offers on its way. -/
theorem Settled.seek (settled : Settled agent ports verdicts)
    (known : Known agent verdicts [] discovery) (offers : List (Stored Offer)) :
    Sought agent ports discovery verdicts offers (discovery.seek ports offers) := by
  induction offers generalizing verdicts with
  | nil =>
      have same : verdicts ++ [] = verdicts := List.append_nil verdicts
      exact .ended (same.symm ▸ settled) rfl (congrArg acts same)
  | cons offer rest ih =>
      have passes : ∀ verdict : OfferFate, verdict.given = none → verdict.bound = [] →
          verdict.acts offer = [] → verdicts.Justified agent ports offer verdict →
            Sought agent ports discovery verdicts (offer :: rest)
              (discovery.seek ports rest) := by
        intro verdict given bound silent justified
        exact .pass silent (ih (settled.snoc justified) (known.pass given bound))
      rw [Discovery.seek]
      split
      · next passed =>
          rcases passed with full | pointed | provided
          · refine passes .waits rfl rfl rfl ?_
            rw [known.accepted, known.free] at full
            rw [Justified]
            omega
          · exact passes .pointed rfl rfl rfl ((known.takenOffers offer.key).mp pointed)
          · exact passes .provided rfl rfl rfl ((known.providers offer.creator).mp provided)
      · next looks =>
          push Not at looks
          cases found : ports.find? (· ∉ discovery.usedPorts) with
          | none =>
              obtain ⟨later, isSettled, all, quiet⟩ :=
                settled.noPorts known found (offer :: rest)
              exact .ended isSettled all quiet
          | some port =>
              have same : verdicts ++ [] = verdicts := List.append_nil verdicts
              exact .found (same.symm ▸ settled) rfl (congrArg acts same)
                (same.symm ▸ known.left rest) ⟨looks.1, looks.2.1, looks.2.2, found⟩

end OfferFates

/-! ## The poll -/

/-- What a poll's discovery meets. -/
inductive PollEvent where
  | looked (isBound : Bool)
  | written (result : Except WriteError BatchResult)
  /-- Memory changes beside it, at admissions and by the traffic. -/
  | aside (agent : Agent)

/-- The port and the slot are held after an acceptance's first write. -/
def slotHeld : Except WriteError BatchResult → Bool
  | .ok result => result.createdEntities ≠ []
  | .error error => error = .unresolved

/-- A poll's discovery, with what it did. -/
structure Poll where
  process : Process
  acts : List Act

namespace Poll

/-- A poll reads the page of offers. -/
def begun (process : Process) (head : Nat) (rows : List (Stored Record)) : Poll where
  process := { process with task := .offers head }.read [] (.rows rows)
  acts := []

/-- One event, where it can happen. -/
def step (poll : Poll) : PollEvent → Option Poll
  | .looked isBound =>
      match poll.process.task with
      | .portProbe _ _ port =>
          (poll.process.portLooked isBound).map fun process =>
            { process := process
              acts := poll.acts ++ [.look port isBound] }
      | _ => none
  | .written result =>
      match poll.process.task with
      | .acceptAgreement _ offer port =>
          some
            { process := poll.process.written result
              acts := poll.acts ++ [.create offer port (slotHeld result)] }
      | .acceptCounter _ _ _ _ =>
          some { poll with process := poll.process.written result }
      | _ => none
  | .aside agent =>
      if agent.config = poll.process.agent.config then
        some { poll with process := { poll.process with agent := agent } }
      else none

/-- A poll's discovery under way. -/
def machine : Machine Poll PollEvent where
  step := step

open OfferFates

variable {agent : Agent} {offers : List (Stored Offer)} {discovery : Discovery} {ports : List Nat}
  {verdicts : OfferFates} {offer : Stored Offer} {port : Nat} {poll next : Poll}

/-- The offer in hand, with the ports found bound for it. -/
structure InHand (agent : Agent) (offers : List (Stored Offer)) (ports : List Nat)
    (verdicts : OfferFates) (bound : List Nat) (discovery : Discovery) (offer : Stored Offer)
    (port : Nat) : Prop where
  settled : Settled agent ports verdicts
  known : Known agent verdicts bound discovery
  wanted : Wanted ports discovery offer port
  offers : verdicts.map Prod.fst ++ offer :: discovery.offers = offers

/-- Where a poll stands, what it did is what its verdicts say, and what it does about the offer in
hand. -/
def Stands (agent : Agent) (offers : List (Stored Offer)) (ports : List Nat) (task : Task)
    (acts : List Act) : Prop :=
  match task with
  | .idle => ∃ verdicts, Settled agent ports verdicts ∧ verdicts.map Prod.fst = offers ∧
      acts = verdicts.acts
  | .portProbe discovery offer port => ∃ verdicts bound,
      InHand agent offers ports verdicts bound discovery offer port ∧
        acts = verdicts.acts ++ bound.map (.look · true)
  | .acceptAgreement discovery offer port => ∃ verdicts bound,
      InHand agent offers ports verdicts bound discovery offer port ∧
        acts = verdicts.acts ++ bound.map (.look · true) ++ [.look port false]
  | .acceptCounter discovery offer port _ => ∃ verdicts bound,
      InHand agent offers ports verdicts bound discovery offer port ∧
        acts = verdicts.acts ++ (OfferFate.asked bound port true).acts offer
  | _ => False

/-- The next offer, or the poll's end, after the verdicts so far. -/
theorem stands_afterOffer {process : Process} (isPorts : process.agent.config.remotePorts = ports)
    (settled : Settled agent ports verdicts) (known : Known agent verdicts [] discovery)
    (all : verdicts.map Prod.fst ++ discovery.offers = offers) :
    Stands agent offers ports (process.afterOffer discovery).task verdicts.acts := by
  have sought := settled.seek known discovery.offers
  rw [Process.afterOffer, isPorts]
  generalize discovery.seek ports discovery.offers = found at sought
  cases sought with
  | @ended later isSettled rest quiet =>
      refine ⟨_, isSettled, ?_, quiet.symm⟩
      rw [List.map_append, rest, all]
  | @found later offer rest port isSettled parts quiet knows wanted =>
      refine ⟨_, [], ⟨isSettled, knows, wanted, ?_⟩, by simp [quiet]⟩
      rw [← all, ← parts, List.map_append, List.append_assoc]

/-- A poll begins with no offer settled. -/
theorem stands_begun (process : Process) (head : Nat) (rows : List (Stored Record)) :
    Stands process.agent (process.agent.discover head rows).offers
      process.agent.config.remotePorts (begun process head rows).process.task [] := by
  have known := Known.initial process.agent head rows
  exact @stands_afterOffer _ _ _ _ [] { process with task := .offers head } rfl .empty known rfl

/-- A port in hand is looked at: a bound one is skipped, any other is the offer's. -/
theorem stands_looked {process after : Process} {isBound : Bool} {acts : List Act}
    (isPorts : process.agent.config.remotePorts = ports)
    (probing : process.task = .portProbe discovery offer port)
    (stands : Stands agent offers ports process.task acts)
    (looked : process.portLooked isBound = some after) :
    after.agent = process.agent ∧
      Stands agent offers ports after.task (acts ++ [.look port isBound]) := by
  rw [probing] at stands
  obtain ⟨verdicts, bound, inHand, rfl⟩ := stands
  rw [Process.portLooked, probing] at looked
  cases isBound with
  | false =>
      cases Option.some.inj looked
      exact ⟨rfl, verdicts, bound, inHand, rfl⟩
  | true =>
      have skipped := inHand.known.skipPort port
      have acts : (bound ++ [port]).map (Act.look · true) =
          bound.map (.look · true) ++ [.look port true] := List.map_append
      simp only [if_true, isPorts] at looked
      cases found : ports.find? (· ∉ (discovery.skipPort port).usedPorts) with
      | some next =>
          rw [found] at looked
          cases looked
          refine ⟨rfl, verdicts, bound ++ [port], ⟨inHand.settled, skipped, ?_, inHand.offers⟩, ?_⟩
          · exact ⟨inHand.wanted.slot, inHand.wanted.unpointed, inHand.wanted.unprovided, found⟩
          · rw [acts, List.append_assoc]
      | none =>
          rw [found] at looked
          cases looked
          have justified : verdicts.Justified agent ports offer (.noPort (bound ++ [port])) :=
            skipped.justified_noPort found
          obtain ⟨later, isSettled, all, quiet⟩ :=
            (inHand.settled.snoc justified).noPorts (skipped.pass rfl rfl) found discovery.offers
          refine ⟨rfl, _, isSettled, ?_, ?_⟩
          · rw [← inHand.offers]
            simp [all]
          · rw [quiet, acts_snoc, OfferFate.acts, acts, List.append_assoc]

/-- The offer in hand gets its verdict, and the poll goes on. -/
theorem InHand.settle {bound : List Nat} (inHand : InHand agent offers ports verdicts bound discovery
    offer port) (sorted : ports.Pairwise (· < ·)) {process : Process}
    (isPorts : process.agent.config.remotePorts = ports) (held : Bool) :
    Stands agent offers ports
      (process.afterOffer (if held then discovery.hold offer port else discovery)).task
      (verdicts.acts ++ (OfferFate.asked bound port held).acts offer) := by
  have settled := inHand.settled.snoc (inHand.known.justified sorted inHand.wanted held)
  rw [← acts_snoc]
  cases held with
  | true =>
      have offers := inHand.offers
      exact stands_afterOffer isPorts settled (inHand.known.hold port)
        (by simp [← offers, Discovery.hold])
  | false =>
      have offers := inHand.offers
      exact stands_afterOffer isPorts settled (inHand.known.pass rfl rfl) (by simp [← offers])

/-- The first write of an acceptance is answered. -/
theorem stands_agreementWritten {process : Process} {result : Except WriteError BatchResult}
    {acts : List Act} (sorted : ports.Pairwise (· < ·))
    (isPorts : process.agent.config.remotePorts = ports)
    (accepting : process.task = .acceptAgreement discovery offer port)
    (stands : Stands agent offers ports process.task acts) :
    (process.written result).agent.config = process.agent.config ∧
      Stands agent offers ports (process.written result).task
        (acts ++ [.create offer port (slotHeld result)]) := by
  rw [accepting] at stands
  obtain ⟨verdicts, bound, inHand, rfl⟩ := stands
  have whole : ∀ held, verdicts.acts ++ bound.map (.look · true) ++ [.look port false] ++
      [.create offer port held] = verdicts.acts ++ (OfferFate.asked bound port held).acts offer := by
    intro held
    simp [OfferFate.acts]
  have answered : process.written result =
      process.agreementWritten discovery offer port result := by
    simp only [Process.written, accepting]
  rw [answered, whole]
  cases result with
  | ok result =>
      simp only [Process.agreementWritten]
      split
      · next created others names =>
          have holds : slotHeld (.ok result) = true := by simp [slotHeld, names]
          rw [holds]
          exact ⟨rfl, verdicts, bound, inHand, rfl⟩
      · next names =>
          have holds : slotHeld (.ok result) = false := by simp [slotHeld, names]
          rw [holds, Process.afterOffer_agent]
          exact ⟨rfl, inHand.settle sorted isPorts false⟩
  | error error =>
      cases error with
      | unresolved =>
          refine ⟨?_, inHand.settle sorted isPorts true⟩
          rw [Process.agreementWritten, Process.afterOffer_agent]
      | _ =>
          refine ⟨?_, inHand.settle sorted isPorts false⟩
          simp only [Process.agreementWritten, Process.afterOffer_agent]

/-- The second write of an acceptance is answered. -/
theorem stands_counterWritten {process : Process} {result : Except WriteError BatchResult}
    {agreement : EntityKey} {acts : List Act} (sorted : ports.Pairwise (· < ·))
    (isPorts : process.agent.config.remotePorts = ports)
    (accepting : process.task = .acceptCounter discovery offer port agreement)
    (stands : Stands agent offers ports process.task acts) :
    (process.written result).agent.config = process.agent.config ∧
      Stands agent offers ports (process.written result).task acts := by
  rw [accepting] at stands
  obtain ⟨verdicts, bound, inHand, rfl⟩ := stands
  obtain ⟨counted, same, answered⟩ : ∃ counted : Process,
      counted.agent.config = process.agent.config ∧
        process.written result = counted.afterOffer (discovery.hold offer port) := by
    simp only [Process.written, accepting]
    exact ⟨{ process with agent := process.agent.setCounter agreement _ }, rfl, rfl⟩
  rw [answered, Process.afterOffer_agent]
  exact ⟨same, inHand.settle sorted (same ▸ isPorts) true⟩

/-- The configured ports come lowest first. -/
theorem remotePorts_sorted (config : Marketplace) : config.remotePorts.Pairwise (· < ·) :=
  (List.pairwise_lt_range' ..).sublist (List.take_sublist _ _)

/-- A poll of a discovery stands where its verdicts say. -/
structure Going (agent : Agent) (offers : List (Stored Offer)) (config : Marketplace)
    (poll : Poll) : Prop where
  unchanged : poll.process.agent.config = config
  stands : Stands agent offers config.remotePorts poll.process.task poll.acts

theorem Going.step {config : Marketplace} {event : PollEvent} (going : Going agent offers config poll)
    (stepped : poll.step event = some next) : Going agent offers config next := by
  have isPorts := congrArg Marketplace.remotePorts going.unchanged
  have sorted := remotePorts_sorted config
  cases event with
  | looked isBound =>
      simp only [Poll.step] at stepped
      split at stepped
      · next discovery offer port probing =>
          obtain ⟨after, looked, rfl⟩ := Option.map_eq_some_iff.mp stepped
          obtain ⟨agent, stands⟩ := stands_looked isPorts probing going.stands looked
          exact ⟨(congrArg Agent.config agent).trans going.unchanged, stands⟩
      · cases stepped
  | written result =>
      simp only [Poll.step] at stepped
      split at stepped
      · next discovery offer port accepting =>
          cases stepped
          obtain ⟨same, stands⟩ := stands_agreementWritten sorted isPorts accepting going.stands
          exact ⟨same.trans going.unchanged, stands⟩
      · next discovery offer port agreement accepting =>
          cases stepped
          obtain ⟨same, stands⟩ := stands_counterWritten sorted isPorts accepting going.stands
          exact ⟨same.trans going.unchanged, stands⟩
      · cases stepped
  | aside agent =>
      simp only [Poll.step] at stepped
      split at stepped
      · next same =>
          cases stepped
          exact ⟨same.trans going.unchanged, going.stands⟩
      · cases stepped

/-- Whatever is not said yet is looks at ports for the offer in hand. -/
theorem Stands.told {task : Task} {acts : List Act} (sorted : ports.Pairwise (· < ·))
    (stands : Stands agent offers ports task acts) :
    ∃ (verdicts : OfferFates) (looks : List (Nat × Bool)), Settled agent ports verdicts ∧
      verdicts.map Prod.fst <+: offers ∧
      acts = verdicts.acts ++ looks.map (fun look => .look look.1 look.2) ∧
      (task = .idle → verdicts.map Prod.fst = offers ∧ looks = []) := by
  cases task with
  | idle =>
      obtain ⟨verdicts, settled, offers, rfl⟩ := stands
      exact ⟨verdicts, [], settled, offers ▸ List.prefix_rfl, by simp, fun _ => ⟨offers, rfl⟩⟩
  | portProbe discovery offer port =>
      obtain ⟨verdicts, bound, inHand, rfl⟩ := stands
      refine ⟨verdicts, bound.map (·, true), inHand.settled, ⟨_, inHand.offers⟩, ?_, ?_⟩
      · simp [Function.comp_def]
      · exact Task.noConfusion
  | acceptAgreement discovery offer port =>
      obtain ⟨verdicts, bound, inHand, rfl⟩ := stands
      refine ⟨verdicts, bound.map (·, true) ++ [(port, false)], inHand.settled,
        ⟨_, inHand.offers⟩, ?_, ?_⟩
      · simp [Function.comp_def]
      · exact Task.noConfusion
  | acceptCounter discovery offer port agreement =>
      obtain ⟨verdicts, bound, inHand, rfl⟩ := stands
      refine ⟨verdicts ++ [(offer, .asked bound port true)], [],
        inHand.settled.snoc (inHand.known.justified sorted inHand.wanted true),
        ⟨discovery.offers, ?_⟩, ?_, ?_⟩
      · simp [← inHand.offers]
      · simp [acts_snoc]
      · exact Task.noConfusion
  | _ => cases stands

/-- A poll settles the decodable offers for this chain one after another, oldest first, every
verdict the right one for what memory held and those before it; it does nothing else, and takes no
more slots than memory left free. -/
theorem older_offers_win {process : Process} {head : Nat} {rows : List (Stored Record)}
    {events : List PollEvent} {poll : Poll}
    (reached : machine.run (begun process head rows) events = some poll) :
    ∃ offers : List (Stored Offer), offers.Pairwise Stored.Older ∧
      offers.Perm ((rows.filterMap (Stored.decode Record.asOffer)).filter
        (·.record.chainId = process.agent.identity.chainId)) ∧
      ∃ (verdicts : OfferFates) (looks : List (Nat × Bool)),
        (∀ (before : OfferFates) offer verdict after, verdicts = before ++ (offer, verdict) :: after →
          before.Justified process.agent process.agent.config.remotePorts offer verdict) ∧
        verdicts.held.length ≤
          process.agent.config.maxProviders - process.agent.agreements.values.length ∧
        verdicts.map Prod.fst <+: offers ∧
        poll.acts = verdicts.acts ++ looks.map (fun look => .look look.1 look.2) ∧
        (poll.process.task = .idle → verdicts.map Prod.fst = offers ∧ looks = []) := by
  have preserved : ∀ before event after,
      Going process.agent (process.agent.discover head rows).offers process.agent.config before →
        machine.step before event = some after →
          Going process.agent (process.agent.discover head rows).offers process.agent.config after :=
    fun _ _ _ going stepped => going.step stepped
  have begins : Going process.agent (process.agent.discover head rows).offers
      process.agent.config (begun process head rows) := by
    refine ⟨?_, stands_begun process head rows⟩
    exact congrArg Agent.config (Process.afterOffer_agent _ _)
  have going := Machine.run_preserves preserved begins reached
  obtain ⟨verdicts, looks, settled, offers, acts, ends⟩ :=
    going.stands.told (remotePorts_sorted _)
  refine ⟨_, oldestFirst_sorted _, oldestFirst_perm _, verdicts, looks, ?_, settled.held_le, offers,
    acts, ends⟩
  intro before offer verdict after parts
  exact settled.justified parts

/-- A section with room for three providers. -/
def roomySection : Marketplace :=
  { smallSection with maxProviders := 3 }

/-- A process with one agreement in memory, at the first port. -/
def oneUnder : Process where
  config := smallConfig roomySection
  agent :=
    Agent.insertAgreement
      { config := roomySection
        identity := smallSidecar
        pool :=
          { entries := []
            members := [] }
        agreements := .empty
        listingKey := 100
        listingExpiresAt := 1000
        admissions := [] }
      { key := 60
        creator := 1
        createdAt := 1
        expiresAt := 500
        record :=
          { provider := 35
            offer := 52
            weiPerCall := 7
            remotePort := 20000 } }
  task := .idle

/-- A page of offers, out of order, two of them by the provider that is under agreement. -/
def fourOffers : List (Stored Record) :=
  [(50, 33, 4), (51, 34, 2), (52, 35, 1), (53, 35, 3)].map fun row =>
    { key := row.1
      creator := row.2.1
      createdAt := row.2.2
      expiresAt := 300
      record := .offer { lbListing := 100, chainId := 5 } }

/-- The first free port is bound, one offer's create fails, and another's is unresolved. -/
def bumpy : List PollEvent :=
  [.looked true, .looked false, .written (.error .failed), .looked false,
    .written (.error .unresolved)]

/-- The last offer gets the port that the failed create before it gave back. -/
theorem older_offers_win_bumpy : ∃ poll, machine.run (begun oneUnder 6 fourOffers) bumpy = some poll ∧
    ∃ verdicts : OfferFates,
      verdicts.map (fun settled => settled.1.key) = [52, 51, 53, 50] ∧
      verdicts.held.length ≤ 2 ∧ poll.acts = verdicts.acts := by
  refine ⟨_, rfl, ?_⟩
  have reached : machine.run (begun oneUnder 6 fourOffers) bumpy = some _ := rfl
  obtain ⟨offers, sorted, perm, verdicts, looks, -, few, -, acts, ends⟩ := older_offers_win reached
  obtain ⟨all, rfl⟩ := ends rfl
  refine ⟨verdicts, ?_, few, by simpa using acts⟩
  have sorts := oldestFirst_perm (fourOffers.filterMap (Stored.decode Record.asOffer))
  have apart : ∀ first ∈ fourOffers.filterMap (Stored.decode Record.asOffer),
      ∀ second ∈ fourOffers.filterMap (Stored.decode Record.asOffer),
        first.Older second → second.Older first → first = second := by decide
  have same := (perm.trans sorts.symm).eq_of_pairwise
    (fun first second member member' =>
      apart first (perm.subset member) second (sorts.subset member'))
    sorted (oldestFirst_sorted _)
  have keys := congrArg (List.map Stored.key) (all.trans same)
  rw [List.map_map] at keys
  exact keys.trans (by decide)

end Poll

end CommunityLb
