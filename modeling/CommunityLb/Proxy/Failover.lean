import CommunityLb.Proxy.Selection
import CommunityLb.Stats.Ring

/-!
# Requests and their failover

A request is tried at one provider after another, until one answers, the attempts are used up or its
time is over.  Many are under way at once, while providers join, leave and are probed.
-/

namespace CommunityLb

/-- How a request ended. -/
inductive Ending where
  | answered (provider : Handle)
  | tooLarge
  /-- The LB answered by itself. -/
  | refused (outcome : LbOutcome)
  deriving DecidableEq, Repr

/-- Where a request stands. -/
inductive RequestPhase where
  /-- A provider is selected next, with so many attempts left after this one. -/
  | selecting (left : Nat)
  | trying (provider : Handle) (attemptStarted : Instant) (timeout : Duration) (left : Nat)
  /-- The attempts are used up, or the time is. -/
  | spent
  | ended (ending : Ending)
  deriving DecidableEq, Repr

/-- The next attempt, while one is left. -/
def RequestPhase.again : Nat → RequestPhase
  | 0 => .spent
  | left + 1 => .selecting left

/-- One request, with the attempts of it that ended. -/
structure Request where
  deadline : Instant
  attempts : List (Handle × Outcome)
  phase : RequestPhase
  deriving DecidableEq, Repr

/-- The providers a request was tried at, in order. -/
def Request.tried (request : Request) : List Handle :=
  request.attempts.map Prod.fst ++
    match request.phase with
    | .trying provider _ _ _ => [provider]
    | _ => []

/-- A request after one more attempt: the answer is relayed, or the request goes on. -/
def Request.attempted (request : Request) (provider : Handle) (left : Nat) (outcome : Outcome) :
    Request :=
  { request with
    attempts := request.attempts ++ [(provider, outcome)]
    phase :=
      match outcome with
      | .answer => .ended (.answered provider)
      | .tooLarge => .ended .tooLarge
      | .noAnswer | .timedOut => .again left }

/-- What the Monitor and the integrity checks do to an entry. -/
inductive MonitorEvent where
  | probe (referenceHeight height : Option Nat)
  | reschedule (began : Instant)
  | chainCheck (chainRound : Bool) (answer : Option Nat)
  | verdict (verdict : Verdict) (height : Nat)
  | admitted

/-- An entry after it. -/
def Watched.monitored (config : Health) (provider : Watched) (now : Instant) :
    MonitorEvent → Watched
  | .probe referenceHeight height => (provider.probe config referenceHeight height now).2
  | .reschedule began => provider.rescheduleUnanswered config began
  | .chainCheck chainRound answer => (provider.chainCleared config chainRound answer).2
  | .verdict verdict height => provider.recordIntegrity verdict height
  | .admitted => provider.scheduleProbeNow now

/-- The pool's entries and cursor, the LB's own answers, and the requests so far. -/
structure Front where
  now : Instant
  entries : List Watched
  members : List Handle
  cursor : Nat
  outcomes : LbOutcomes
  requests : List Request

/-- What happens to the requests and around them. -/
inductive FrontEvent where
  | pass (duration : Duration)
  | join (id url : String) (source : Source)
  | leave (id : String)
  | monitor (provider : Handle) (event : MonitorEvent)
  | arrive
  /-- The next provider is selected for a request. -/
  | select (request : Nat)
  /-- A request's attempt ends. -/
  | attempted (request : Nat) (outcome : Outcome)
  /-- A request that is spent is answered. -/
  | finish (request : Nat)

namespace Front

/-- The member's entry is in rotation. -/
def eligibleAt (state : Front) (provider : Handle) : Bool :=
  state.entries[provider]?.any (·.eligible)

/-- One request changed. -/
def setRequest (state : Front) (index : Nat) (request : Request) : Front :=
  { state with requests := state.requests.set index request }

variable (config : Config)

/-- A request goes on to the next eligible provider, while its time is not over. -/
def select (state : Front) (index : Nat) (request : Request) (left : Nat) : Front :=
  match nextEligible state.members state.eligibleAt state.cursor with
  | (none, cursor) =>
      { state with
        cursor := cursor
        outcomes := state.outcomes.record .noHealthyProvider }.setRequest index
          { request with phase := .ended (.refused .noHealthyProvider) }
  | (some provider, cursor) =>
      let remaining := request.deadline - state.now
      { state with cursor := cursor }.setRequest index
        { request with
          phase :=
            if remaining = 0 then .spent
            else .trying provider state.now (min remaining config.proxy.attemptTimeout) left }

/-- An attempt ends. -/
def attempted (state : Front) (index : Nat) (request : Request) (provider : Handle)
    (attemptStarted : Instant) (left : Nat) (outcome : Outcome) : Front :=
  { state with
    entries := state.entries.modify provider
      (·.attempted config.health outcome attemptStarted state.now) }.setRequest index
        (request.attempted provider left outcome)

/-- A spent request is answered by the LB. -/
def finish (state : Front) (index : Nat) (request : Request) : Front :=
  let outcome : LbOutcome :=
    if request.deadline ≤ state.now then .timedOut else .noProviderAnswered
  { state with outcomes := state.outcomes.record outcome }.setRequest index
    { request with phase := .ended (.refused outcome) }

/-- One event, where it can happen. -/
def step (state : Front) : FrontEvent → Option Front
  | .pass duration => some { state with now := state.now + duration }
  | .join id url source =>
      some
        { state with
          entries := state.entries ++ [Watched.born (Provider.new id url source) state.now]
          members := state.members ++ [state.entries.length] }
  | .leave id =>
      some
        { state with
          members := state.members.eraseP fun handle => state.entries[handle]?.any (·.id = id) }
  | .monitor provider event =>
      some
        { state with
          entries := state.entries.modify provider
            (·.monitored config.health state.now event) }
  | .arrive =>
      some
        { state with
          requests := state.requests ++
            [{ deadline := state.now + config.proxy.requestTimeout
               attempts := []
               phase := .again ((1 + config.proxy.maxRetries) % 2 ^ 32) }] }
  | .select index =>
      match state.requests[index]? with
      | some request =>
          match request.phase with
          | .selecting left => some (state.select config index request left)
          | _ => none
      | none => none
  | .attempted index outcome =>
      match state.requests[index]? with
      | some request =>
          match request.phase with
          | .trying provider attemptStarted _ left =>
              some (state.attempted config index request provider attemptStarted left outcome)
          | _ => none
      | none => none
  | .finish index =>
      match state.requests[index]? with
      | some request =>
          match request.phase with
          | .spent => some (state.finish index request)
          | _ => none
      | none => none

/-- The LB's front. -/
def machine : Machine Front FrontEvent where
  step := step config

/-- Before the first provider. -/
def initial : Front where
  now := 0
  entries := []
  members := []
  cursor := 0
  outcomes :=
    { noHealthyProvider := 0
      timedOut := 0
      noProviderAnswered := 0 }
  requests := []

variable {config} {state next : Front} {index : Nat}

theorem select_cases (stepped : state.step config (.select index) = some next) :
    ∃ request left, state.requests[index]? = some request ∧ request.phase = .selecting left ∧
      next = state.select config index request left := by
  simp only [step] at stepped
  split at stepped
  · next request isRequest =>
      split at stepped
      · next left selecting =>
          exact ⟨request, left, isRequest, selecting, (Option.some.inj stepped).symm⟩
      · cases stepped
  · cases stepped

theorem attempted_cases {outcome : Outcome}
    (stepped : state.step config (.attempted index outcome) = some next) :
    ∃ request provider attemptStarted timeout left, state.requests[index]? = some request ∧
      request.phase = .trying provider attemptStarted timeout left ∧
        next = state.attempted config index request provider attemptStarted left outcome := by
  simp only [step] at stepped
  split at stepped
  · next request isRequest =>
      split at stepped
      · next provider attemptStarted timeout left trying =>
          exact ⟨request, provider, attemptStarted, timeout, left, isRequest, trying,
            (Option.some.inj stepped).symm⟩
      · cases stepped
  · cases stepped

theorem finish_cases (stepped : state.step config (.finish index) = some next) :
    ∃ request, state.requests[index]? = some request ∧ request.phase = .spent ∧
      next = state.finish index request := by
  simp only [step] at stepped
  split at stepped
  · next request isRequest =>
      split at stepped
      · next spent => exact ⟨request, isRequest, spent, (Option.some.inj stepped).symm⟩
      · cases stepped
  · cases stepped

end Front

/-- One retry, and two probes bring a provider into rotation. -/
def oneRetry : Config where
  health :=
    { probeInterval := Duration.fromSecs 1
      probeTimeout := Duration.fromSecs 1
      flipAfter := 2
      maxProbeBackoff := 0
      refHeightInterval := 0
      chainidCheckInterval := 0
      chainId := none
      lagToleranceBlocks := 0 }
  proxy :=
    { attemptTimeout := Duration.fromSecs 1
      requestTimeout := Duration.fromSecs 2
      maxRetries := 1
      maxRequestSize := 1
      maxResponseSize := 1 }
  marketplace := none
  integrity := none
  providers := []

/-- Two providers join and answer their first probes. -/
def twoProbed : List FrontEvent :=
  [.join "near" "http://near" .static, .join "far" "http://far" .static,
    .monitor 0 (.probe none (some 7)), .monitor 0 (.probe none (some 8)),
    .monitor 1 (.probe none (some 7)), .monitor 1 (.probe none (some 8))]

end CommunityLb
