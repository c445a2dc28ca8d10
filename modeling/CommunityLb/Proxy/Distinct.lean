import CommunityLb.Proxy.Failover

/-!
# Failover goes to another provider

A request that is processed with nothing but the time passing beside it goes once around the members
before it comes back to a provider it was tried at.
-/

namespace CommunityLb

/-- The attempts a request may still make, the one under way included. -/
def RequestPhase.budget : RequestPhase → Nat
  | .selecting left => left + 1
  | .trying _ _ _ left => left + 1
  | .spent => 0
  | .ended _ => 0

@[simp]
theorem RequestPhase.budget_again (left : Nat) : (RequestPhase.again left).budget = left := by
  cases left <;> rfl

/-- What a request is tried at, beside the attempts that ended. -/
theorem Request.tried_of_resting {request : Request}
    (resting : ∀ provider attemptStarted timeout left,
      request.phase ≠ .trying provider attemptStarted timeout left) :
    request.tried = request.attempts.map Prod.fst := by
  rw [Request.tried]
  split
  · next isTrying => exact absurd isTrying (resting _ _ _ _)
  · exact List.append_nil _

theorem Request.tried_of_trying {request : Request} {provider : Handle} {attemptStarted : Instant}
    {timeout : Duration} {left : Nat}
    (trying : request.phase = .trying provider attemptStarted timeout left) :
    request.tried = request.attempts.map Prod.fst ++ [provider] := by
  rw [Request.tried, trying]

/-- An attempt that ends moves to the attempts that ended. -/
theorem Request.tried_attempted (request : Request) (provider : Handle) (left : Nat)
    (outcome : Outcome) : (request.attempted provider left outcome).tried =
      request.attempts.map Prod.fst ++ [provider] := by
  have resting : ∀ other attemptStarted timeout more,
      (request.attempted provider left outcome).phase ≠
        .trying other attemptStarted timeout more := by
    intro other attemptStarted timeout more
    cases outcome <;> cases left <;> exact RequestPhase.noConfusion
  rw [tried_of_resting resting]
  exact List.map_append

theorem Request.budget_attempted (request : Request) (provider : Handle) (left : Nat)
    (outcome : Outcome) : (request.attempted provider left outcome).phase.budget ≤ left := by
  cases outcome with
  | answer => exact Nat.zero_le left
  | tooLarge => exact Nat.zero_le left
  | noAnswer => exact (RequestPhase.budget_again left).le
  | timedOut => exact (RequestPhase.budget_again left).le

namespace Front

/-! ## The members -/

/-- The members are entries, each of them once. -/
structure Joined (state : Front) : Prop where
  distinct : state.members.Nodup
  inside : ∀ provider ∈ state.members, provider < state.entries.length

theorem Joined.initial : initial.Joined where
  distinct := List.nodup_nil
  inside _ member := absurd member List.not_mem_nil

variable {config : Config} {state next : Front}

/-- What a step of a request leaves of the pool. -/
theorem Joined.of_same (joined : state.Joined) (members : next.members = state.members)
    (entries : next.entries.length = state.entries.length) : next.Joined where
  distinct := members ▸ joined.distinct
  inside provider member := by
    rw [entries]
    exact joined.inside provider (members ▸ member)

theorem members_select (config : Config) (state : Front) (index : Nat) (request : Request) (left : Nat) :
    (state.select config index request left).members = state.members ∧
      (state.select config index request left).entries = state.entries := by
  rw [select]
  split <;> exact ⟨rfl, rfl⟩

theorem Joined.step {event : FrontEvent} (joined : state.Joined)
    (stepped : state.step config event = some next) : next.Joined := by
  cases event with
  | pass duration =>
      cases stepped
      exact joined.of_same rfl rfl
  | join id url source =>
      cases stepped
      constructor
      · refine List.nodup_append.mpr ⟨joined.distinct, List.nodup_singleton _, ?_⟩
        intro old isOld new isNew same
        rw [List.mem_singleton.mp isNew] at same
        exact absurd (joined.inside old isOld) (same ▸ Nat.lt_irrefl _)
      · intro provider member
        rw [List.length_append, List.length_singleton]
        rcases List.mem_append.mp member with old | new
        · exact (joined.inside provider old).trans (Nat.lt_succ_self _)
        · rw [List.mem_singleton.mp new]
          exact Nat.lt_succ_self _
  | leave id =>
      cases stepped
      exact ⟨joined.distinct.sublist List.eraseP_sublist,
        fun provider member => joined.inside provider (List.mem_of_mem_eraseP member)⟩
  | monitor provider event =>
      cases stepped
      exact joined.of_same rfl (List.length_modify ..)
  | arrive =>
      cases stepped
      exact joined.of_same rfl rfl
  | select index =>
      obtain ⟨request, left, found, selecting, rfl⟩ := select_cases stepped
      obtain ⟨members, entries⟩ := members_select config state index request left
      exact joined.of_same members (congrArg List.length entries)
  | attempted index outcome =>
      obtain ⟨request, provider, attemptStarted, timeout, left, found, trying, rfl⟩ :=
        attempted_cases stepped
      exact joined.of_same rfl (List.length_modify ..)
  | finish index =>
      obtain ⟨request, found, spent, rfl⟩ := finish_cases stepped
      exact joined.of_same rfl rfl

/-- The members of a state that is reached are entries, each of them once. -/
theorem joined {events : List FrontEvent} {state : Front}
    (reached : (machine config).run Front.initial events = some state) : state.Joined := by
  have preserved : ∀ before event after, before.Joined →
      (machine config).step before event = some after → after.Joined :=
    fun _ _ _ holds stepped => holds.step stepped
  exact Machine.run_preserves preserved Joined.initial reached

/-! ## One request alone -/

/-- Nothing but this request is served, and the time passes. -/
def Alone (index : Nat) : FrontEvent → Prop
  | .pass _ => True
  | .select other | .attempted other _ | .finish other => other = index
  | _ => False

/-- The eligible members in the order of one lap from the cursor. -/
def firstLap (state : Front) : List Handle :=
  (window state.members state.cursor state.members.length).filter state.eligibleAt

/-- A lap passes every eligible member once. -/
theorem firstLap_perm (state : Front) :
    state.firstLap.Perm (state.members.filter state.eligibleAt) :=
  (window_full state.cursor).filter _

/-- How far a request that began in a state has come: what lies ahead of it is what is left of the
first lap, or the lap is over. -/
structure Walk (config : Config) (start state : Front) (request : Request) : Prop where
  isRequest : state.requests[start.requests.length]? = some request
  members : state.members = start.members
  untouched : ∀ provider, provider ∉ request.attempts.map Prod.fst →
    state.eligibleAt provider = start.eligibleAt provider
  budget : request.attempts.length + request.phase.budget ≤ 1 + config.proxy.maxRetries
  ahead : start.firstLap <+: request.tried ∨
    ∃ rest, request.tried ++ rest = start.firstLap ∧
      (request.phase.budget = 0 ∨ ∃ count ≤ start.members.length,
        (window start.members state.cursor count).filter start.eligibleAt = rest)

variable {start : Front} {request : Request}

/-- A request begins with the whole lap ahead of it. -/
theorem Walk.arrive (few : config.proxy.maxRetries < 2 ^ 32 - 1)
    (stepped : start.step config .arrive = some next) :
    ∃ request, Walk config start next request ∧ request.attempts = [] ∧
      request.deadline = next.now + config.proxy.requestTimeout := by
  have attempts : (1 + config.proxy.maxRetries) % 2 ^ 32 = config.proxy.maxRetries + 1 := by
    rw [Nat.mod_eq_of_lt (by omega), Nat.add_comm]
  cases stepped
  rw [attempts]
  refine ⟨{ deadline := start.now + config.proxy.requestTimeout
            attempts := []
            phase := .selecting config.proxy.maxRetries },
    ⟨?_, rfl, fun _ _ => rfl, ?_, ?_⟩, rfl, rfl⟩
  · exact List.getElem?_concat_length
  · exact (Nat.zero_add _).trans_le (Nat.add_comm _ _).le
  · exact .inr ⟨start.firstLap, rfl, .inr ⟨start.members.length, le_rfl, rfl⟩⟩

/-- What is left of the lap is eligible now exactly where it was at the start. -/
theorem Walk.ahead_eligible (walk : Walk config start state request) (joined : start.Joined)
    (resting : request.tried = request.attempts.map Prod.fst) {rest : List Handle}
    (parts : request.tried ++ rest = start.firstLap) {cursor count : Nat}
    (isRest : (window start.members cursor count).filter start.eligibleAt = rest) :
    ∀ provider ∈ window start.members cursor count,
      state.eligibleAt provider = start.eligibleAt provider := by
  intro provider isAhead
  apply walk.untouched provider
  intro isTried
  rw [← resting] at isTried
  have eligible : start.eligibleAt provider = true := by
    have inLap : provider ∈ start.firstLap := parts ▸ List.mem_append_left rest isTried
    exact (List.mem_filter.mp inLap).2
  have again : provider ∈ rest := isRest ▸ List.mem_filter.mpr ⟨isAhead, eligible⟩
  have distinct : start.firstLap.Nodup :=
    start.firstLap_perm.nodup_iff.mpr (joined.distinct.filter _)
  rw [← parts] at distinct
  exact List.disjoint_of_nodup_append distinct isTried again

theorem Walk.select (walk : Walk config start state request) (joined : start.Joined)
    {left : Nat} (selecting : request.phase = .selecting left)
    (noWrap : (state.select config start.requests.length request left).cursor ≤ 2 ^ 64) :
    ∃ after, Walk config start (state.select config start.requests.length request left) after ∧
      request.tried <+: after.tried := by
  have inside : start.requests.length < state.requests.length :=
    (List.getElem?_eq_some_iff.mp walk.isRequest).1
  have resting : request.tried = request.attempts.map Prod.fst :=
    Request.tried_of_resting fun _ _ _ _ => by
      rw [selecting]
      exact RequestPhase.noConfusion
  have budget := walk.budget
  rw [selecting] at budget
  have kept : ∀ phase, request.tried <+: ({ request with phase := phase } : Request).tried := by
    intro phase
    rw [resting]
    exact List.prefix_append _ _
  -- A request that makes no attempt more keeps what it was tried at.
  have rests : ∀ phase, phase.budget = 0 →
      (∀ provider attemptStarted timeout left,
        phase ≠ .trying provider attemptStarted timeout left) → ∀ cursor,
        start.firstLap <+: ({ request with phase := phase } : Request).tried ∨
          ∃ rest, ({ request with phase := phase } : Request).tried ++ rest = start.firstLap ∧
            (phase.budget = 0 ∨ ∃ count ≤ start.members.length,
              (window start.members cursor count).filter start.eligibleAt = rest) := by
    intro phase spent rests cursor
    have same : ({ request with phase := phase } : Request).tried = request.tried :=
      (Request.tried_of_resting rests).trans resting.symm
    rw [same]
    rcases walk.ahead with whole | ⟨rest, parts, -⟩
    · exact .inl whole
    · exact .inr ⟨rest, parts, .inl spent⟩
  rcases selected : nextEligible state.members state.eligibleAt state.cursor with
    ⟨_ | provider, cursor⟩
  · simp only [Front.select, selected]
    refine ⟨_, ⟨List.getElem?_set_self inside, walk.members, walk.untouched, ?_, ?_⟩, kept _⟩
    · exact (Nat.le_add_right _ _).trans budget
    · exact rests _ rfl (fun _ _ _ _ => RequestPhase.noConfusion) _
  · simp only [Front.select, selected] at noWrap ⊢
    by_cases late : request.deadline - state.now = 0
    · simp only [if_pos late] at noWrap ⊢
      refine ⟨_, ⟨List.getElem?_set_self inside, walk.members, walk.untouched, ?_, ?_⟩, kept _⟩
      · exact (Nat.le_add_right _ _).trans budget
      · exact rests _ rfl (fun _ _ _ _ => RequestPhase.noConfusion) _
    · simp only [if_neg late] at noWrap ⊢
      refine ⟨_, ⟨List.getElem?_set_self inside, walk.members, walk.untouched, budget, ?_⟩,
        kept _⟩
      rw [Request.tried_of_trying rfl, ← resting]
      rcases walk.ahead with whole | ⟨rest, parts, spent | ⟨count, within, isRest⟩⟩
      · exact .inl (whole.trans (List.prefix_append _ _))
      · rw [selecting] at spent
        cases spent
      · have same := walk.ahead_eligible joined resting parts isRest
        have now := (List.filter_congr same).trans isRest
        cases rest with
        | nil =>
            rw [List.append_nil] at parts
            exact .inl (parts ▸ List.prefix_append _ _)
        | cons first rest =>
            rw [← walk.members] at now within
            obtain ⟨passed, most, found, later⟩ :=
              nextEligible_window within now (selected ▸ noWrap)
            rw [selected] at found
            obtain ⟨rfl, rfl⟩ : provider = first ∧ cursor = state.cursor + passed := by
              simpa using found
            refine .inr ⟨rest, by rw [← parts]; simp, .inr ⟨count - passed, ?_, ?_⟩⟩
            · rw [← walk.members]
              exact (Nat.sub_le _ _).trans within
            · rw [← later, walk.members]
              refine List.filter_congr fun other isLater => (same other ?_).symm
              rw [← Nat.add_sub_cancel' most, window_append]
              exact List.mem_append_right _ isLater

/-- An attempt that ends touches no other provider, and no position of the lap. -/
theorem Walk.attempted (walk : Walk config start state request) {provider : Handle}
    {attemptStarted : Instant} {timeout : Duration} {left : Nat}
    (trying : request.phase = .trying provider attemptStarted timeout left) (outcome : Outcome) :
    Walk config start
        (state.attempted config start.requests.length request provider attemptStarted left outcome)
        (request.attempted provider left outcome) ∧
      request.tried <+: (request.attempted provider left outcome).tried := by
  have inside : start.requests.length < state.requests.length :=
    (List.getElem?_eq_some_iff.mp walk.isRequest).1
  have same : (request.attempted provider left outcome).tried = request.tried := by
    rw [Request.tried_attempted, Request.tried_of_trying trying]
  have fewer := request.budget_attempted provider left outcome
  have budget := walk.budget
  have ahead := walk.ahead
  rw [trying, RequestPhase.budget] at budget ahead
  refine ⟨⟨List.getElem?_set_self inside, walk.members, ?_, ?_, ?_⟩, same ▸ List.prefix_rfl⟩
  · intro other untried
    have apart : ∀ attempt ∈ request.attempts ++ [(provider, outcome)], other ≠ attempt.1 :=
      fun attempt made same => untried (same ▸ List.mem_map_of_mem made)
    have notThis : provider ≠ other :=
      fun same => apart (provider, outcome) (List.mem_append_right _ (List.mem_singleton_self _))
        same.symm
    have earlier : other ∉ request.attempts.map Prod.fst := by
      intro isTried
      obtain ⟨attempt, made, rfl⟩ := List.mem_map.mp isTried
      exact apart attempt (List.mem_append_left _ made) rfl
    rw [← walk.untouched other earlier]
    have entry : (state.entries.modify provider
        (·.attempted config.health outcome attemptStarted state.now))[other]? =
          state.entries[other]? := by
      simp [notThis]
    exact congrArg (·.any (·.eligible)) entry
  · have longer : (request.attempted provider left outcome).attempts.length =
        request.attempts.length + 1 := List.length_append
    rw [longer]
    omega
  · rw [same]
    rcases ahead with whole | ⟨rest, parts, spent | later⟩
    · exact .inl whole
    · cases spent
    · exact .inr ⟨rest, parts, .inr later⟩

theorem Walk.finish (walk : Walk config start state request) (spent : request.phase = .spent) :
    ∃ after, Walk config start (state.finish start.requests.length request) after ∧
      request.tried <+: after.tried := by
  have inside : start.requests.length < state.requests.length :=
    (List.getElem?_eq_some_iff.mp walk.isRequest).1
  have budget := walk.budget
  have ahead := walk.ahead
  rw [spent] at budget ahead
  refine ⟨_, ⟨List.getElem?_set_self inside, walk.members, walk.untouched, budget, ?_⟩, ?_⟩
  · rw [Request.tried, spent] at ahead
    rcases ahead with whole | ⟨rest, parts, -⟩
    · exact .inl whole
    · exact .inr ⟨rest, parts, .inl rfl⟩
  · rw [Request.tried, spent]
    exact List.prefix_rfl

/-- Every step of the request keeps its walk, and what it was tried at. -/
theorem Walk.step {event : FrontEvent} (walk : Walk config start state request)
    (joined : start.Joined) (alone : Alone start.requests.length event)
    (stepped : state.step config event = some next) (noWrap : next.cursor ≤ 2 ^ 64) :
    ∃ after, Walk config start next after ∧ request.tried <+: after.tried := by
  cases event with
  | pass duration =>
      cases stepped
      exact ⟨request,
        ⟨walk.isRequest, walk.members, walk.untouched, walk.budget, walk.ahead⟩, List.prefix_rfl⟩
  | join id url source => cases alone
  | leave id => cases alone
  | monitor provider event => cases alone
  | arrive => cases alone
  | select index =>
      obtain rfl : index = start.requests.length := alone
      obtain ⟨found, left, isFound, selecting, rfl⟩ := select_cases stepped
      obtain rfl : request = found := Option.some.inj (walk.isRequest.symm.trans isFound)
      exact walk.select joined selecting noWrap
  | attempted index outcome =>
      obtain rfl : index = start.requests.length := alone
      obtain ⟨found, provider, attemptStarted, timeout, left, isFound, trying, rfl⟩ :=
        attempted_cases stepped
      obtain rfl : request = found := Option.some.inj (walk.isRequest.symm.trans isFound)
      exact ⟨_, walk.attempted trying outcome⟩
  | finish index =>
      obtain rfl : index = start.requests.length := alone
      obtain ⟨found, isFound, spent, rfl⟩ := finish_cases stepped
      obtain rfl : request = found := Option.some.inj (walk.isRequest.symm.trans isFound)
      exact walk.finish spent

/-! ## The whole request -/

theorem cursor_le_step {event : FrontEvent} (stepped : state.step config event = some next) :
    state.cursor ≤ next.cursor := by
  cases event with
  | select index =>
      obtain ⟨request, left, found, selecting, rfl⟩ := select_cases stepped
      have travels : state.cursor ≤
          (nextEligible state.members state.eligibleAt state.cursor).2 := nextEligible_le state.cursor
      rw [Front.select]
      split
      · next cursor selected => rwa [selected] at travels
      · next provider cursor selected => rwa [selected] at travels
  | attempted index outcome =>
      obtain ⟨request, provider, attemptStarted, timeout, left, found, trying, rfl⟩ :=
        attempted_cases stepped
      exact le_rfl
  | finish index =>
      obtain ⟨request, found, spent, rfl⟩ := finish_cases stepped
      exact le_rfl
  | pass duration =>
      cases stepped
      exact le_rfl
  | join id url source =>
      cases stepped
      exact le_rfl
  | leave id =>
      cases stepped
      exact le_rfl
  | monitor provider event =>
      cases stepped
      exact le_rfl
  | arrive =>
      cases stepped
      exact le_rfl

/-- The cursor never goes back. -/
theorem cursor_le {events : List FrontEvent} {final : Front}
    (reached : (machine config).run state events = some final) : state.cursor ≤ final.cursor := by
  let ahead (now : Front) : Prop := state.cursor ≤ now.cursor
  have preserved : ∀ before event after, ahead before →
      (machine config).step before event = some after → ahead after :=
    fun _ _ _ holds stepped => holds.trans (cursor_le_step stepped)
  have start : ahead state := le_rfl
  exact Machine.run_preserves preserved start reached

/-- The walk of a request over a whole run. -/
theorem Walk.run {events : List FrontEvent} {final : Front}
    (walk : Walk config start state request) (joined : start.Joined)
    (alone : ∀ event ∈ events, Alone start.requests.length event)
    (reached : (machine config).run state events = some final) (noWrap : final.cursor ≤ 2 ^ 64) :
    ∃ after, Walk config start final after ∧ request.tried <+: after.tried := by
  induction events generalizing state request with
  | nil =>
      obtain rfl : state = final := by simpa using reached
      exact ⟨request, walk, List.prefix_rfl⟩
  | cons event events ih =>
      obtain ⟨next, stepped, rest⟩ := Machine.run_cons_eq_some.mp reached
      obtain ⟨after, later, grows⟩ := walk.step joined (alone event List.mem_cons_self) stepped
        ((cursor_le rest).trans noWrap)
      obtain ⟨last, walked, more⟩ := ih later
        (fun other member => alone other (List.mem_cons_of_mem _ member)) rest
      exact ⟨last, walked, grows.trans more⟩

/-- A provider that is asked takes one attempt of the budget. -/
theorem Walk.tried_le (walk : Walk config start state request) :
    request.tried.length ≤ 1 + config.proxy.maxRetries := by
  refine le_trans ?_ walk.budget
  rw [Request.tried, List.length_append, List.length_map]
  cases request.phase with
  | selecting left => exact Nat.add_le_add_left (Nat.zero_le _) _
  | trying provider attemptStarted timeout left =>
      exact Nat.add_le_add_left (Nat.le_add_left 1 left) _
  | spent => exact le_rfl
  | ended ending => exact le_rfl

/-- Within one lap no provider is asked twice. -/
theorem Walk.distinct (walk : Walk config start state request) (joined : start.Joined) :
    (request.tried.take (start.members.filter start.eligibleAt).length).Nodup := by
  have distinct : start.firstLap.Nodup :=
    start.firstLap_perm.nodup_iff.mpr (joined.distinct.filter _)
  rw [← start.firstLap_perm.length_eq]
  rcases walk.ahead with whole | ⟨rest, parts, -⟩
  · rwa [← List.prefix_iff_eq_take.mp whole]
  · rw [← parts] at distinct
    exact (List.nodup_append.mp distinct).1.sublist (List.take_sublist _ _)

theorem run_waits (state : Front) (waits : List Duration) :
    (machine config).run state (waits.map .pass) =
      some { state with now := state.now + waits.sum } := by
  induction waits generalizing state with
  | nil => rfl
  | cons wait waits ih =>
      have stepped : (machine config).step state (.pass wait) =
          some { state with now := state.now + wait } := rfl
      rw [List.map_cons, Machine.run_cons, stepped, Option.bind_some, ih, List.sum_cons,
        Nat.add_assoc]

/-- Time that passes leaves a request's walk as it is. -/
theorem Walk.waits (walk : Walk config start state request) {waits : List Duration}
    (reached : (machine config).run state (waits.map .pass) = some next) :
    Walk config start next request := by
  rw [run_waits] at reached
  cases reached
  exact ⟨walk.isRequest, walk.members, walk.untouched, walk.budget, walk.ahead⟩

/-- While time remains and a member is eligible, a provider is asked first. -/
theorem Walk.asks (walk : Walk config start state request) (untried : request.attempts = [])
    (intime : state.now < request.deadline)
    (eligible : start.members.filter start.eligibleAt ≠ [])
    (stepped : state.step config (.select start.requests.length) = some next) {after : Request}
    (isAfter : next.requests[start.requests.length]? = some after) : after.tried ≠ [] := by
  have inside : start.requests.length < state.requests.length :=
    (List.getElem?_eq_some_iff.mp walk.isRequest).1
  have same : state.eligibleAt = start.eligibleAt := funext fun provider =>
    walk.untouched provider (by simp [untried])
  rw [← same, ← walk.members] at eligible
  obtain ⟨found, left, isFound, selecting, rfl⟩ := select_cases stepped
  obtain rfl : request = found := Option.some.inj (walk.isRequest.symm.trans isFound)
  obtain ⟨provider, cursor, selected⟩ : ∃ provider cursor,
      nextEligible state.members state.eligibleAt state.cursor = (some provider, cursor) := by
    rcases selected : nextEligible state.members state.eligibleAt state.cursor with
      ⟨_ | provider, cursor⟩
    · exact absurd (nextEligible_none (congrArg Prod.fst selected)) eligible
    · exact ⟨provider, cursor, rfl⟩
  have remains : ¬ request.deadline - state.now = 0 := Nat.sub_ne_zero_of_lt intime
  simp only [Front.select, selected, if_neg remains] at isAfter
  have isAfter := isAfter.symm.trans (List.getElem?_set_self inside)
  rw [Option.some.inj isAfter, Request.tried_of_trying rfl]
  exact List.append_ne_nil_of_right_ne_nil _ (List.cons_ne_nil _ _)

/-- A request that is processed alone is tried at one provider after another until the lap is over,
at most as often as the retries allow, and at least once while time remains. -/
theorem failover_distinct {config : Config} (few : config.proxy.maxRetries < 2 ^ 32 - 1)
    {start final : Front} (joined : start.Joined) {events : List FrontEvent}
    (others : ∀ event ∈ events, Alone start.requests.length event)
    (reached : (machine config).run start (.arrive :: events) = some final)
    (noWrap : final.cursor ≤ 2 ^ 64) :
    ∃ request, final.requests[start.requests.length]? = some request ∧
      request.tried.length ≤ 1 + config.proxy.maxRetries ∧
        (request.tried.take (start.members.filter start.eligibleAt).length).Nodup ∧
          ∀ (waits : List Duration) (rest : List FrontEvent),
            events = waits.map .pass ++ .select start.requests.length :: rest →
            waits.sum < config.proxy.requestTimeout →
              1 ≤ (start.members.filter start.eligibleAt).length → request.tried ≠ [] := by
  obtain ⟨arrived, isArrived, ran⟩ := Machine.run_cons_eq_some.mp reached
  obtain ⟨fresh, walk, untried, deadline⟩ := Walk.arrive few isArrived
  obtain ⟨request, walked, -⟩ := walk.run joined others ran noWrap
  refine ⟨request, walked.isRequest, walked.tried_le, walked.distinct joined, ?_⟩
  rintro waits rest rfl intime some
  obtain ⟨waited, isWaited, later⟩ := Machine.run_append_eq_some.mp ran
  obtain ⟨next, selected, last⟩ := Machine.run_cons_eq_some.mp later
  have fits := (cursor_le last).trans noWrap
  have alone : Alone start.requests.length (.select start.requests.length) := rfl
  obtain ⟨after, walkNext, -⟩ := (walk.waits isWaited).step joined alone selected fits
  obtain ⟨same, walkLast, grows⟩ := walkNext.run joined (fun event member =>
    others event (List.mem_append_right _ (List.mem_cons_of_mem _ member))) last noWrap
  obtain rfl : request = same :=
    Option.some.inj (walked.isRequest.symm.trans walkLast.isRequest)
  have waitedNow : waited.now = arrived.now + waits.sum := by
    rw [run_waits] at isWaited
    exact congrArg Front.now (Option.some.inj isWaited).symm
  have before : waited.now < fresh.deadline := by
    rw [waitedNow, deadline]
    exact Nat.add_lt_add_left intime arrived.now
  have asked : after.tried ≠ [] :=
    (walk.waits isWaited).asks untried before (List.length_pos_iff.mp some) selected
      walkNext.isRequest
  intro none
  exact asked (List.prefix_nil.mp (none ▸ grows))

/-- The front with both providers in rotation. -/
def bothUp : Front :=
  ((machine oneRetry).run initial twoProbed).getD initial

/-- The two providers are asked one after the other, and the second one answers. -/
def bothAsked : List FrontEvent :=
  [.select 0, .attempted 0 .noAnswer, .pass 5, .select 0, .attempted 0 .answer]

/-- A request that is tried at both providers is tried at each of them once. -/
theorem failover_distinct_two : ∃ final request,
    (machine oneRetry).run bothUp (.arrive :: bothAsked) = some final ∧
      final.requests[0]? = some request ∧ (request.tried.take 2).Nodup := by
  have isUp : (machine oneRetry).run initial twoProbed = some bothUp := rfl
  have others : ∀ event ∈ bothAsked, Alone bothUp.requests.length event := by
    simp [bothAsked, Alone, show bothUp.requests.length = 0 from rfl]
  have ran : ((machine oneRetry).run bothUp (.arrive :: bothAsked)).isSome := by decide
  obtain ⟨final, reached⟩ := Option.isSome_iff_exists.mp ran
  have cursor : ((machine oneRetry).run bothUp (.arrive :: bothAsked)).map (·.cursor) = some 2 := by
    decide
  have noWrap : final.cursor ≤ 2 ^ 64 := by
    rw [reached] at cursor
    have atTwo : final.cursor = 2 := Option.some.inj cursor
    rw [atTwo]
    decide
  obtain ⟨request, isRequest, -, distinct, -⟩ :=
    failover_distinct (by decide) (joined isUp) others reached noWrap
  exact ⟨final, request, reached, isRequest, distinct⟩

end Front

end CommunityLb
