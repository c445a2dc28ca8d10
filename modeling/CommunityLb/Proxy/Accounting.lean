import CommunityLb.Proxy.Failover

/-!
# Every request is accounted for once

The counters the entries and the LB keep say what became of the requests: each served request at the
one provider whose answer was relayed, each failed attempt at its provider, and each request that no
provider answered at the LB.
-/

namespace CommunityLb

/-! ## What a request adds to the counters -/

/-- An attempt that produced no answer. -/
def failedAttempt (attempt : Handle × Outcome) : Bool :=
  attempt.2 = .noAnswer || attempt.2 = .timedOut

namespace Request

/-- The answers of a provider that were relayed to the request. -/
def answers (request : Request) (provider : Handle) : Nat :=
  request.attempts.count (provider, .answer)

/-- The attempts at a provider that produced no answer. -/
def failures (request : Request) (provider : Handle) : Nat :=
  request.attempts.countP fun attempt => attempt.1 = provider && failedAttempt attempt

/-- Whether the LB answered the request itself, in this way. -/
def refusals (request : Request) (outcome : LbOutcome) : Nat :=
  if request.phase = .ended (.refused outcome) then 1 else 0

/-- The attempts that ended, told by where the request stands: all but the last produced no answer,
and the last one's end is the request's. -/
def Told (request : Request) : Prop :=
  match request.phase with
  | .ended (.answered provider) => ∃ earlier, (∀ attempt ∈ earlier, failedAttempt attempt = true) ∧
      request.attempts = earlier ++ [(provider, .answer)]
  | .ended .tooLarge => ∃ earlier provider, (∀ attempt ∈ earlier, failedAttempt attempt = true) ∧
      request.attempts = earlier ++ [(provider, .tooLarge)]
  | _ => ∀ attempt ∈ request.attempts, failedAttempt attempt = true

theorem count_answer_of_failed {attempts : List (Handle × Outcome)}
    (failed : ∀ attempt ∈ attempts, failedAttempt attempt = true) (provider : Handle) :
    attempts.count (provider, .answer) = 0 :=
  List.count_eq_zero.mpr fun member => absurd (failed _ member) (by simp [failedAttempt])

/-- A request that ended added to one counter at most: its answer's provider's, or the LB's. -/
theorem Told.once {request : Request} (told : request.Told) {ending : Ending}
    (ended : request.phase = .ended ending) :
    (∀ provider, request.answers provider = if ending = .answered provider then 1 else 0) ∧
      (∀ outcome, request.refusals outcome = if ending = .refused outcome then 1 else 0) := by
  constructor
  · intro provider
    rw [Told, ended] at told
    cases ending with
    | answered answering =>
        obtain ⟨earlier, failed, isAll⟩ := told
        rw [answers, isAll, List.count_append, count_answer_of_failed failed]
        by_cases same : answering = provider
        · simp [same]
        · simp [same]
    | tooLarge =>
        obtain ⟨earlier, other, failed, isAll⟩ := told
        rw [answers, isAll, List.count_append, count_answer_of_failed failed]
        simp
    | refused outcome =>
        rw [answers, count_answer_of_failed told]
        simp
  · intro outcome
    rw [refusals, ended]
    simp

theorem attempts_attempted (request : Request) (provider : Handle) (left : Nat)
    (outcome : Outcome) : (request.attempted provider left outcome).attempts =
      request.attempts ++ [(provider, outcome)] :=
  rfl

theorem answers_attempted (request : Request) (provider other : Handle) (left : Nat)
    (outcome : Outcome) : (request.attempted provider left outcome).answers other =
      request.answers other + if provider = other ∧ outcome = .answer then 1 else 0 := by
  rw [answers, answers, attempts_attempted, List.count_append]
  congr 1
  by_cases same : provider = other <;> cases outcome <;> simp [same]

theorem failures_attempted (request : Request) (provider other : Handle) (left : Nat)
    (outcome : Outcome) : (request.attempted provider left outcome).failures other =
      request.failures other +
        if provider = other ∧ (outcome = .noAnswer ∨ outcome = .timedOut) then 1 else 0 := by
  rw [failures, failures, attempts_attempted, List.countP_append]
  congr 1
  by_cases same : provider = other <;> cases outcome <;> simp [same, failedAttempt]

theorem refusals_attempted (request : Request) (provider : Handle) (left : Nat)
    (outcome : Outcome) (other : LbOutcome) :
    (request.attempted provider left outcome).refusals other = 0 := by
  cases outcome <;> cases left <;> simp [refusals, attempted, RequestPhase.again]

/-- What a request tells, it tells after one more attempt. -/
theorem Told.attempted {request : Request} (told : ∀ attempt ∈ request.attempts,
    failedAttempt attempt = true) (provider : Handle) (left : Nat) (outcome : Outcome) :
    (request.attempted provider left outcome).Told := by
  have more : failedAttempt (provider, outcome) = true →
      ∀ attempt ∈ request.attempts ++ [(provider, outcome)], failedAttempt attempt = true := by
    intro failed attempt member
    rcases List.mem_append.mp member with old | new
    · exact told attempt old
    · rwa [List.mem_singleton.mp new]
  cases outcome with
  | answer => exact ⟨request.attempts, told, rfl⟩
  | tooLarge => exact ⟨request.attempts, provider, told, rfl⟩
  | noAnswer => cases left <;> exact more rfl
  | timedOut => cases left <;> exact more rfl

end Request

/-- A count of the LB's own answers. -/
def LbOutcomes.of (outcomes : LbOutcomes) : LbOutcome → Nat
  | .noHealthyProvider => outcomes.noHealthyProvider
  | .timedOut => outcomes.timedOut
  | .noProviderAnswered => outcomes.noProviderAnswered

theorem LbOutcomes.of_record (outcomes : LbOutcomes) (recorded outcome : LbOutcome) :
    (outcomes.record recorded).of outcome =
      outcomes.of outcome + if recorded = outcome then 1 else 0 := by
  cases recorded <;> cases outcome <;> simp [LbOutcomes.record, LbOutcomes.of]

/-- One value of a list replaced, its sum changes by the difference. -/
theorem sum_map_set {β : Type} {values : List β} {index : Nat} {old : β}
    (found : values[index]? = some old) (new : β) (count : β → Nat) :
    ((values.set index new).map count).sum + count old = (values.map count).sum + count new := by
  induction values generalizing index with
  | nil => simp at found
  | cons first rest ih =>
      cases index with
      | zero =>
          obtain rfl : first = old := by simpa using found
          simp only [List.set_cons_zero, List.map_cons, List.sum_cons]
          omega
      | succ index =>
          have later := ih (by simpa using found)
          simp only [List.set_cons_succ, List.map_cons, List.sum_cons]
          omega

namespace Watched

/-- The counters an entry keeps of requests. -/
structure SameCounts (before after : Watched) : Prop where
  served : after.served = before.served
  servedTotal : after.servedTotal = before.servedTotal
  transportFailures : after.transportFailures = before.transportFailures

variable (provider : Watched)

theorem SameCounts.refl : provider.SameCounts provider :=
  ⟨rfl, rfl, rfl⟩

theorem SameCounts.trans {first second third : Watched} (one : first.SameCounts second)
    (two : second.SameCounts third) : first.SameCounts third :=
  ⟨two.served.trans one.served, two.servedTotal.trans one.servedTotal,
    two.transportFailures.trans one.transportFailures⟩

theorem recordHealth_counts (success : Bool) (flipAfter : Nat) (source : HealthSignal) :
    provider.SameCounts (provider.recordHealth success flipAfter source) := by
  simp only [recordHealth]
  split
  · exact ⟨rfl, rfl, rfl⟩
  · split <;> exact ⟨rfl, rfl, rfl⟩

theorem probe_counts (config : Health) (referenceHeight height : Option Nat) (now : Instant) :
    provider.SameCounts (provider.probe config referenceHeight height now).2 := by
  cases height with
  | none =>
      exact (show provider.SameCounts provider.recordUnansweredProbe from ⟨rfl, rfl, rfl⟩).trans
        (recordHealth_counts _ false config.flipAfter .probe)
  | some height =>
      have answered : provider.SameCounts ((provider.recordAnsweredProbe now).recordHeight height) :=
        ⟨rfl, rfl, rfl⟩
      simp only [probe]
      split
      · exact answered.trans (recordHealth_counts _ _ _ _)
      · exact answered.trans (recordHealth_counts _ _ _ _)

theorem chainCleared_counts (config : Health) (chainRound : Bool) (answer : Option Nat) :
    provider.SameCounts (provider.chainCleared config chainRound answer).2 := by
  rw [chainCleared]
  split
  · exact .refl provider
  · simp only
    split
    · rw [verifyChain.eq_def]
      split
      · split <;> exact ⟨rfl, rfl, rfl⟩
      · exact ⟨rfl, rfl, rfl⟩
    · exact ⟨rfl, rfl, rfl⟩

/-- The Monitor and the integrity checks count no request. -/
theorem monitored_counts (config : Health) (now : Instant) (event : MonitorEvent) :
    provider.SameCounts (provider.monitored config now event) := by
  cases event with
  | probe referenceHeight height => exact provider.probe_counts config referenceHeight height now
  | reschedule began => exact ⟨rfl, rfl, rfl⟩
  | chainCheck chainRound answer => exact provider.chainCleared_counts config chainRound answer
  | verdict verdict height => cases verdict <;> exact ⟨rfl, rfl, rfl⟩
  | admitted => exact ⟨rfl, rfl, rfl⟩

/-- An attempt adds to its provider's counters what it ended as. -/
theorem attempted_counts (config : Health) (outcome : Outcome) (attemptStarted now : Instant) :
    let after := provider.attempted config outcome attemptStarted now
    after.served = provider.served + (if outcome = .answer then 1 else 0) ∧
      after.servedTotal = provider.servedTotal + (if outcome = .answer then 1 else 0) ∧
        after.transportFailures = provider.transportFailures +
          if outcome = .noAnswer ∨ outcome = .timedOut then 1 else 0 := by
  cases outcome with
  | answer => exact ⟨rfl, rfl, rfl⟩
  | tooLarge => exact ⟨rfl, rfl, rfl⟩
  | noAnswer =>
      have same := provider.recordHealth_counts false config.flipAfter .traffic
      exact ⟨same.served, same.servedTotal, congrArg (· + 1) same.transportFailures⟩
  | timedOut =>
      have same := provider.recordHealth_counts false config.flipAfter .traffic
      simp only [attempted]
      split
      · exact ⟨rfl, rfl, rfl⟩
      · exact ⟨same.served, same.servedTotal, congrArg (· + 1) same.transportFailures⟩

end Watched

namespace Front

/-! ## The counters of a state -/

/-- What all requests add up to. -/
def total (state : Front) (count : Request → Nat) : Nat :=
  (state.requests.map count).sum

/-- An entry's counters are what the requests did at it. -/
structure CountedAt (state : Front) (provider : Handle) (entry : Watched) : Prop where
  served : entry.served = state.total (·.answers provider)
  servedTotal : entry.servedTotal = state.total (·.answers provider)
  transportFailures : entry.transportFailures = state.total (·.failures provider)

/-- Every counter says what became of the requests. -/
structure Counted (state : Front) : Prop where
  entries : ∀ provider entry, state.entries[provider]? = some entry →
    state.CountedAt provider entry
  outcomes : ∀ outcome, state.outcomes.of outcome = state.total (·.refusals outcome)

/-- Every counter says what became of the requests, and every request tells what became of it. -/
structure Accounts (state : Front) : Prop extends state.Counted where
  told : ∀ request ∈ state.requests, request.Told
  members : ∀ provider ∈ state.members, provider < state.entries.length
  tried : ∀ request ∈ state.requests, ∀ provider ∈ request.tried,
    provider < state.entries.length

theorem Accounts.initial : initial.Accounts where
  entries := by simp [Front.initial]
  outcomes outcome := by cases outcome <;> rfl
  told := by simp [Front.initial]
  members := by simp [Front.initial]
  tried := by simp [Front.initial]

variable {config : Config} {state next : Front}

theorem total_set {index : Nat} {old : Request} (found : state.requests[index]? = some old)
    (new : Request) (count : Request → Nat) :
    (state.setRequest index new).total count + count old = state.total count + count new :=
  sum_map_set found new count

theorem mem_setRequest {index : Nat} {new request : Request}
    (member : request ∈ (state.setRequest index new).requests) :
    request ∈ state.requests ∨ request = new :=
  List.mem_or_eq_of_mem_set member

/-- A request that added nothing yet, or nothing more, leaves the counters as they are. -/
theorem Counted.setRequest (counted : state.Counted) {index : Nat} {old new : Request}
    (found : state.requests[index]? = some old) (attempts : new.attempts = old.attempts)
    (refusals : ∀ outcome, new.refusals outcome = old.refusals outcome) :
    (state.setRequest index new).Counted where
  entries provider entry isEntry := by
    have here := counted.entries provider entry isEntry
    have answers := total_set found new (·.answers provider)
    have failures := total_set found new (·.failures provider)
    simp only [Request.answers, Request.failures, attempts] at answers failures
    exact ⟨here.served.trans (by simp only [Request.answers]; omega),
      here.servedTotal.trans (by simp only [Request.answers]; omega),
      here.transportFailures.trans (by simp only [Request.failures]; omega)⟩
  outcomes outcome := by
    have here := counted.outcomes outcome
    have same := total_set found new (·.refusals outcome)
    simp only [refusals] at same
    have kept : (state.setRequest index new).outcomes = state.outcomes := rfl
    rw [kept, here]
    omega

/-- A request that the LB answers itself is one more of the LB's own answers. -/
theorem Counted.refuse (counted : state.Counted) {index : Nat} {old : Request}
    (found : state.requests[index]? = some old)
    (under : ∀ ending, old.phase ≠ .ended ending) (cursor : Nat) (outcome : LbOutcome) :
    ({ state with
      cursor := cursor
      outcomes := state.outcomes.record outcome }.setRequest index
        { old with phase := .ended (.refused outcome) }).Counted where
  entries provider entry isEntry := by
    have here := counted.entries provider entry isEntry
    have answers := total_set found { old with phase := .ended (.refused outcome) }
      (·.answers provider)
    have failures := total_set found { old with phase := .ended (.refused outcome) }
      (·.failures provider)
    simp only [Request.answers, Request.failures] at answers failures
    exact ⟨here.served.trans (by simp only [Request.answers, total, Front.setRequest] at *; omega),
      here.servedTotal.trans (by simp only [Request.answers, total, Front.setRequest] at *; omega),
      here.transportFailures.trans
        (by simp only [Request.failures, total, Front.setRequest] at *; omega)⟩
  outcomes other := by
    have here := counted.outcomes other
    have same := total_set found { old with phase := .ended (.refused outcome) } (·.refusals other)
    have before : old.refusals other = 0 := if_neg (under _)
    have after : ({ old with phase := .ended (.refused outcome) } : Request).refusals other =
        if outcome = other then 1 else 0 := by simp [Request.refusals]
    simp only [before, after] at same
    have kept : (({ state with
        cursor := cursor
        outcomes := state.outcomes.record outcome } : Front).setRequest index
          { old with phase := .ended (.refused outcome) }).outcomes =
        state.outcomes.record outcome := rfl
    rw [kept, LbOutcomes.of_record, here]
    simp only [total, Front.setRequest] at same ⊢
    omega

/-- An attempt that ends adds to its provider's counters, and to no other's. -/
theorem Counted.attempted (counted : state.Counted) {index : Nat} {request : Request}
    (found : state.requests[index]? = some request)
    (under : ∀ ending, request.phase ≠ .ended ending) (provider : Handle)
    (attemptStarted : Instant) (left : Nat) (outcome : Outcome) :
    (state.attempted config index request provider attemptStarted left outcome).Counted := by
  have totals : ∀ count : Request → Nat,
      (state.attempted config index request provider attemptStarted left outcome).total count +
        count request = state.total count + count (request.attempted provider left outcome) :=
    fun count => sum_map_set found _ count
  refine ⟨fun other entry isEntry => ?_, fun other => ?_⟩
  · have isEntry : (state.entries.modify provider
        (·.attempted config.health outcome attemptStarted state.now))[other]? = some entry := isEntry
    rw [List.getElem?_modify] at isEntry
    obtain ⟨old, isOld, rfl⟩ := Option.map_eq_some_iff.mp isEntry
    have here := counted.entries other old isOld
    have answers := totals (·.answers other)
    have failures := totals (·.failures other)
    simp only [Request.answers_attempted] at answers
    simp only [Request.failures_attempted] at failures
    obtain ⟨served, servedTotal, transportFailures⟩ :=
      old.attempted_counts config.health outcome attemptStarted state.now
    by_cases same : provider = other
    · simp only [same, true_and] at answers failures
      rw [if_pos same]
      refine ⟨?_, ?_, ?_⟩
      · rw [served, here.served, same]
        omega
      · rw [servedTotal, here.servedTotal, same]
        omega
      · rw [transportFailures, here.transportFailures, same]
        omega
    · simp only [same, false_and, if_false] at answers failures
      rw [if_neg same]
      refine ⟨here.served.trans ?_, here.servedTotal.trans ?_, here.transportFailures.trans ?_⟩
      · omega
      · omega
      · omega
  · have here : state.outcomes.of other = state.total (·.refusals other) := counted.outcomes other
    have same := totals (·.refusals other)
    have before : request.refusals other = 0 := if_neg (under _)
    simp only [before, Request.refusals_attempted] at same
    exact here.trans same.symm

/-! ## One step -/

/-- A request that goes on, with no attempt more. -/
theorem Accounts.setRequest (accounts : state.Accounts) {index : Nat} {new : Request}
    (counted : (state.setRequest index new).Counted) (told : new.Told)
    (tried : ∀ provider ∈ new.tried, provider < state.entries.length) :
    (state.setRequest index new).Accounts where
  toCounted := counted
  told request member := by
    rcases mem_setRequest member with old | rfl
    · exact accounts.told request old
    · exact told
  members := accounts.members
  tried request member := by
    rcases mem_setRequest member with old | rfl
    · exact accounts.tried request old
    · exact tried

/-- An entry is born with its counters at zero. -/
theorem Accounts.join (accounts : state.Accounts) (id url : String) (source : Source)
    (now : Instant) :
    ({ state with
      entries := state.entries ++ [Watched.born (Provider.new id url source) now]
      members := state.members ++ [state.entries.length] } : Front).Accounts where
  entries handle entry isEntry := by
    rcases Nat.lt_or_ge handle state.entries.length with old | new
    · rw [List.getElem?_append_left old] at isEntry
      have here := accounts.entries handle entry isEntry
      exact ⟨here.served, here.servedTotal, here.transportFailures⟩
    · have isNew : entry = Watched.born (Provider.new id url source) now ∧
          handle = state.entries.length := by
        rw [List.getElem?_append_right new] at isEntry
        have inside := (List.getElem?_eq_some_iff.mp isEntry).1
        have position : handle - state.entries.length = 0 := Nat.lt_one_iff.mp inside
        rw [position] at isEntry
        exact ⟨(Option.some.inj isEntry).symm, le_antisymm (Nat.sub_eq_zero_iff_le.mp position) new⟩
      obtain ⟨rfl, rfl⟩ := isNew
      have untouched : ∀ request ∈ state.requests, ∀ attempt ∈ request.attempts,
          attempt.1 ≠ state.entries.length := by
        intro request member attempt inAttempts same
        have tried := accounts.tried request member attempt.1
          (List.mem_append_left _ (List.mem_map_of_mem inAttempts))
        exact Nat.lt_irrefl _ (same ▸ tried)
      have noAnswers : state.total (·.answers state.entries.length) = 0 := by
        refine List.sum_eq_zero fun count isCount => ?_
        obtain ⟨request, member, rfl⟩ := List.mem_map.mp isCount
        exact List.count_eq_zero.mpr fun inAttempts =>
          untouched request member _ inAttempts rfl
      have noFailures : state.total (·.failures state.entries.length) = 0 := by
        refine List.sum_eq_zero fun count isCount => ?_
        obtain ⟨request, member, rfl⟩ := List.mem_map.mp isCount
        refine List.countP_eq_zero.mpr fun attempt inAttempts => ?_
        simp [untouched request member attempt inAttempts]
      exact ⟨noAnswers.symm, noAnswers.symm, noFailures.symm⟩
  outcomes := accounts.outcomes
  told := accounts.told
  members handle member := by
    rw [List.length_append, List.length_singleton]
    rcases List.mem_append.mp member with old | new
    · exact (accounts.members handle old).trans (Nat.lt_succ_self _)
    · rw [List.mem_singleton.mp new]
      exact Nat.lt_succ_self _
  tried request member handle isTried := by
    rw [List.length_append, List.length_singleton]
    exact (accounts.tried request member handle isTried).trans (Nat.lt_succ_self _)

theorem Accounts.monitor (accounts : state.Accounts) (provider : Handle) (event : MonitorEvent) :
    ({ state with
      entries := state.entries.modify provider
        (·.monitored config.health state.now event) } : Front).Accounts where
  entries handle entry isEntry := by
    rw [List.getElem?_modify] at isEntry
    obtain ⟨old, isOld, rfl⟩ := Option.map_eq_some_iff.mp isEntry
    have here := accounts.entries handle old isOld
    have same := old.monitored_counts config.health state.now event
    split
    · exact ⟨same.served.trans here.served, same.servedTotal.trans here.servedTotal,
        same.transportFailures.trans here.transportFailures⟩
    · exact ⟨here.served, here.servedTotal, here.transportFailures⟩
  outcomes := accounts.outcomes
  told := accounts.told
  members handle member := by
    rw [List.length_modify]
    exact accounts.members handle member
  tried request member handle isTried := by
    rw [List.length_modify]
    exact accounts.tried request member handle isTried

theorem Accounts.arrive (accounts : state.Accounts) :
    ({ state with
      requests := state.requests ++
        [{ deadline := state.now + config.proxy.requestTimeout
           attempts := []
           phase := .again ((1 + config.proxy.maxRetries) % 2 ^ 32) }] } : Front).Accounts := by
  generalize (1 + config.proxy.maxRetries) % 2 ^ 32 = attempts
  generalize isNew : ({ deadline := state.now + config.proxy.requestTimeout
                        attempts := []
                        phase := .again attempts } : Request) = new
  have answers : ∀ provider, new.answers provider = 0 := fun provider => by
    rw [← isNew]
    rfl
  have failures : ∀ provider, new.failures provider = 0 := fun provider => by
    rw [← isNew]
    rfl
  have refusals : ∀ outcome, new.refusals outcome = 0 := fun outcome => by
    rw [← isNew, Request.refusals]
    cases attempts <;> simp [RequestPhase.again]
  have tried : new.tried = [] := by
    rw [← isNew, Request.tried]
    cases attempts <;> rfl
  refine ⟨⟨fun provider entry isEntry => ?_, fun outcome => ?_⟩, fun request member => ?_,
    accounts.members, fun request member => ?_⟩
  · have here := accounts.entries provider entry isEntry
    refine ⟨here.served.trans ?_, here.servedTotal.trans ?_, here.transportFailures.trans ?_⟩
    · simp [total, answers]
    · simp [total, answers]
    · simp [total, failures]
  · exact (accounts.outcomes outcome).trans (by simp [total, refusals])
  · rcases List.mem_append.mp member with old | isLast
    · exact accounts.told request old
    · rw [List.mem_singleton.mp isLast, ← isNew, Request.Told]
      cases attempts <;> simp [RequestPhase.again]
  · rcases List.mem_append.mp member with old | isLast
    · exact accounts.tried request old
    · rw [List.mem_singleton.mp isLast, tried]
      exact fun provider inTried => absurd inTried List.not_mem_nil

theorem Accounts.select (accounts : state.Accounts) {index : Nat} {request : Request} {left : Nat}
    (found : state.requests[index]? = some request) (selecting : request.phase = .selecting left) :
    (state.select config index request left).Accounts := by
  have member := List.mem_of_getElem? found
  have failed : ∀ attempt ∈ request.attempts, failedAttempt attempt = true := by
    have told := accounts.told request member
    rwa [Request.Told, selecting] at told
  have tried := accounts.tried request member
  have under : ∀ ending, request.phase ≠ .ended ending := by
    intro ending
    rw [selecting]
    exact RequestPhase.noConfusion
  have attempted : ∀ provider ∈ request.attempts.map Prod.fst, provider < state.entries.length :=
    fun provider isTried => tried provider (List.mem_append_left _ isTried)
  have resting : ∀ phase, (∀ provider attemptStarted timeout left,
      phase ≠ .trying provider attemptStarted timeout left) →
      ∀ provider ∈ ({ request with phase := phase } : Request).tried,
        provider < state.entries.length := by
    intro phase rests provider isTried
    rcases List.mem_append.mp isTried with old | new
    · exact attempted provider old
    · split at new
      · next started timeout left isTrying => exact absurd isTrying (rests _ started timeout left)
      · cases new
  have moved : ∀ cursor, ({ state with cursor := cursor } : Front).Accounts := fun cursor =>
    ⟨⟨fun provider entry isEntry =>
      let here := accounts.entries provider entry isEntry
      ⟨here.served, here.servedTotal, here.transportFailures⟩, accounts.outcomes⟩, accounts.told,
      accounts.members, accounts.tried⟩
  rw [Front.select]
  split
  · next cursor _ =>
      refine ⟨accounts.toCounted.refuse found under cursor .noHealthyProvider, ?_,
        accounts.members, ?_⟩
      · intro other isOther
        rcases List.mem_or_eq_of_mem_set isOther with old | rfl
        · exact accounts.told other old
        · exact failed
      · intro other isOther
        rcases List.mem_or_eq_of_mem_set isOther with old | rfl
        · exact accounts.tried other old
        · exact resting _ fun _ _ _ _ => RequestPhase.noConfusion
  · next provider cursor selected =>
      have isMember := (nextEligible_mem (congrArg Prod.fst selected)).1
      simp only
      split
      · refine (moved cursor).setRequest ?_ failed ?_
        · exact (moved cursor).toCounted.setRequest found rfl fun outcome => by
            rw [Request.refusals, Request.refusals, if_neg (under _), if_neg RequestPhase.noConfusion]
        · exact resting _ fun _ _ _ _ => RequestPhase.noConfusion
      · refine (moved cursor).setRequest ?_ failed ?_
        · exact (moved cursor).toCounted.setRequest found rfl fun outcome => by
            rw [Request.refusals, Request.refusals, if_neg (under _), if_neg RequestPhase.noConfusion]
        · intro other isTried
          rcases List.mem_append.mp isTried with old | new
          · exact attempted other old
          · rw [List.mem_singleton.mp new]
            exact accounts.members provider isMember

theorem Accounts.attempted (accounts : state.Accounts) {index : Nat} {request : Request}
    {provider : Handle} {attemptStarted : Instant} {timeout : Duration} {left : Nat}
    (found : state.requests[index]? = some request)
    (trying : request.phase = .trying provider attemptStarted timeout left) (outcome : Outcome) :
    (state.attempted config index request provider attemptStarted left outcome).Accounts := by
  have member := List.mem_of_getElem? found
  have failed : ∀ attempt ∈ request.attempts, failedAttempt attempt = true := by
    have told := accounts.told request member
    rwa [Request.Told, trying] at told
  have under : ∀ ending, request.phase ≠ .ended ending := by
    intro ending
    rw [trying]
    exact RequestPhase.noConfusion
  have tried : ∀ other ∈ (request.attempted provider left outcome).tried,
      other ∈ request.tried := by
    intro other isTried
    rw [Request.tried, trying]
    rcases List.mem_append.mp isTried with old | new
    · rw [Request.attempts_attempted, List.map_append] at old
      exact old
    · cases outcome <;> cases left <;> cases new
  refine ⟨accounts.toCounted.attempted found under provider attemptStarted left outcome, ?_, ?_, ?_⟩
  · intro other isOther
    rcases List.mem_or_eq_of_mem_set isOther with old | rfl
    · exact accounts.told other old
    · exact Request.Told.attempted failed provider left outcome
  · intro other isMember
    have length : (state.attempted config index request provider attemptStarted left
        outcome).entries.length = state.entries.length := List.length_modify ..
    rw [length]
    exact accounts.members other isMember
  · intro other isOther handle isTried
    have length : (state.attempted config index request provider attemptStarted left
        outcome).entries.length = state.entries.length := List.length_modify ..
    rw [length]
    rcases List.mem_or_eq_of_mem_set isOther with old | rfl
    · exact accounts.tried other old handle isTried
    · exact accounts.tried request member handle (tried handle isTried)

theorem Accounts.finish (accounts : state.Accounts) {index : Nat} {request : Request}
    (found : state.requests[index]? = some request) (spent : request.phase = .spent) :
    (state.finish index request).Accounts := by
  have member := List.mem_of_getElem? found
  have failed : ∀ attempt ∈ request.attempts, failedAttempt attempt = true := by
    have told := accounts.told request member
    rwa [Request.Told, spent] at told
  have under : ∀ ending, request.phase ≠ .ended ending := by
    intro ending
    rw [spent]
    exact RequestPhase.noConfusion
  have tried := accounts.tried request member
  refine ⟨accounts.toCounted.refuse found under state.cursor _, ?_, accounts.members, ?_⟩
  · intro other isOther
    rcases List.mem_or_eq_of_mem_set isOther with old | rfl
    · exact accounts.told other old
    · exact failed
  · intro other isOther
    rcases List.mem_or_eq_of_mem_set isOther with old | rfl
    · exact accounts.tried other old
    · rw [Request.tried, spent] at tried
      exact tried

/-- Every event keeps the accounts. -/
theorem Accounts.step {event : FrontEvent} (accounts : state.Accounts)
    (stepped : state.step config event = some next) : next.Accounts := by
  cases event with
  | pass duration =>
      cases stepped
      exact ⟨⟨fun provider entry isEntry =>
        let here := accounts.entries provider entry isEntry
        ⟨here.served, here.servedTotal, here.transportFailures⟩, accounts.outcomes⟩, accounts.told,
        accounts.members, accounts.tried⟩
  | join id url source =>
      cases stepped
      exact accounts.join id url source state.now
  | leave id =>
      cases stepped
      exact ⟨⟨fun provider entry isEntry =>
        let here := accounts.entries provider entry isEntry
        ⟨here.served, here.servedTotal, here.transportFailures⟩, accounts.outcomes⟩, accounts.told,
        fun provider isMember => accounts.members provider (List.mem_of_mem_eraseP isMember),
        accounts.tried⟩
  | monitor provider event =>
      cases stepped
      exact accounts.monitor provider event
  | arrive =>
      cases stepped
      exact accounts.arrive
  | select index =>
      obtain ⟨request, left, found, selecting, rfl⟩ := select_cases stepped
      exact accounts.select found selecting
  | attempted index outcome =>
      obtain ⟨request, provider, attemptStarted, timeout, left, found, trying, rfl⟩ :=
        attempted_cases stepped
      exact accounts.attempted found trying outcome
  | finish index =>
      obtain ⟨request, found, spent, rfl⟩ := finish_cases stepped
      exact accounts.finish found spent

/-! ## Over whole runs -/

/-- Whatever the order of arrivals, attempts, timeouts and membership changes, every counter adds up,
every attempt was made at an entry, and each request that ended grew the counters in exactly one of
the three ways. -/
theorem accounted_once {events : List FrontEvent} {state : Front}
    (reached : (machine config).run initial events = some state) :
    (∀ provider entry, state.entries[provider]? = some entry →
      entry.served = state.total (·.answers provider) ∧
        entry.servedTotal = state.total (·.answers provider) ∧
          entry.transportFailures = state.total (·.failures provider)) ∧
      (∀ outcome, state.outcomes.of outcome = state.total (·.refusals outcome)) ∧
        ∀ request ∈ state.requests,
          (∀ attempt ∈ request.attempts, attempt.1 < state.entries.length) ∧
            ∀ ending, request.phase = .ended ending →
              (∀ provider, request.answers provider =
                if ending = .answered provider then 1 else 0) ∧
                ∀ outcome, request.refusals outcome =
                  if ending = .refused outcome then 1 else 0 := by
  have preserved : ∀ before event after, before.Accounts →
      (machine config).step before event = some after → after.Accounts :=
    fun _ _ _ holds stepped => holds.step stepped
  have accounts : state.Accounts := Machine.run_preserves preserved Accounts.initial reached
  refine ⟨?_, accounts.outcomes, ?_⟩
  · intro provider entry isEntry
    have here := accounts.entries provider entry isEntry
    exact ⟨here.served, here.servedTotal, here.transportFailures⟩
  · intro request member
    constructor
    · intro attempt made
      exact accounts.tried request member attempt.1
        (List.mem_append_left _ (List.mem_map_of_mem made))
    · intro ending ended
      exact (accounts.told request member).once ended

/-- The first provider leaves while it is being tried, and the second one answers. -/
def leftBehind : List FrontEvent :=
  twoProbed ++ [.arrive, .select 0, .leave "near", .attempted 0 .noAnswer, .select 0,
    .attempted 0 .answer]

/-- The provider that left is not paid for what the other one answered. -/
theorem accounted_once_leftBehind : ∃ state,
    (machine oneRetry).run initial leftBehind = some state ∧
      state.total (·.answers 0) = 0 ∧ state.total (·.answers 1) = 1 ∧
        ∀ entry, state.entries[1]? = some entry → entry.served = 1 := by
  refine ⟨_, rfl, by decide, by decide, fun entry isEntry => ?_⟩
  have reached : (machine oneRetry).run initial leftBehind = some _ := rfl
  have accounts := accounted_once reached
  exact (accounts.1 1 entry isEntry).1.trans (by decide)

end Front

end CommunityLb
