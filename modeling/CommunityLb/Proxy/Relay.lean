import CommunityLb.Chain.Codec
import CommunityLb.Proxy.Failover

/-!
# What crosses the proxy

A client's body is refused before any provider is involved, or goes to providers as it is; what a
provider answers comes back as it is, or not at all.  Many requests are under way at once, and each
client is answered for its own.
-/

namespace CommunityLb

open Codec (JsonValue Serde)

/-- The bytes of a body. -/
abbrev Bytes := List (BitVec 8)

/-- A text of ASCII characters in bytes. -/
def asBytes (text : String) : Bytes :=
  text.toList.map fun letter => BitVec.ofNat 8 letter.toNat

/-! ## The denylist -/

/-- An uppercase letter as its lowercase one, and any other byte as it is. -/
def toAsciiLowercase (byte : BitVec 8) : BitVec 8 :=
  if 65 ≤ byte ∧ byte ≤ 90 then byte + 32 else byte

/-- Method names the endpoint refuses. -/
def DENIED : List String :=
  ["admin_", "engine_", "miner_", "debug_set", "debug_verbosity", "debug_vmodule",
    "debug_freezeclient", "eth_sendtransaction", "eth_sign", "eth_accounts", "personal_",
    "eth_newfilter", "eth_newblockfilter", "eth_newpendingtransactionfilter",
    "eth_getfilterchanges", "eth_getfilterlogs", "eth_uninstallfilter", "eth_subscribe",
    "eth_unsubscribe"]

/-- The slices of so many bytes. -/
def windows (size : Nat) : Bytes → List Bytes
  | [] => []
  | byte :: rest =>
      if size ≤ rest.length + 1 then (byte :: rest).take size :: windows size rest else []

def containsIgnoreCase (haystack needle : Bytes) : Bool :=
  if needle.length > haystack.length then false
  else
    (windows needle.length haystack).any fun window =>
      window.map toAsciiLowercase = needle.map toAsciiLowercase

/-- The denied name the body contains, if any. -/
def denied (body : Bytes) : Option String :=
  DENIED.find? fun name => containsIgnoreCase body (asBytes name)

/-! ## Looks at a body -/

def isAsciiWhitespace (byte : BitVec 8) : Bool :=
  byte = 32 || byte = 9 || byte = 10 || byte = 12 || byte = 13

/-- A body starts, after whitespace, as a JSON object or array. -/
def looksLikeJson (body : Bytes) : Bool :=
  (body.find? fun byte => !isAsciiWhitespace byte).any fun byte => byte = 123 || byte = 91

/-- The longest body that is parsed as a refusal. -/
def REFUSAL_MAX : Nat :=
  4096

/-- A document's field, where the document is an object that has it. -/
def Codec.JsonValue.get (document : JsonValue) (name : String) : Option JsonValue :=
  match document with
  | .object fields => fields.lookup name
  | _ => none

/-- A body is a JSON-RPC response, or a batch of them. -/
def isJsonRpcResponse (serde : Serde) (body : Bytes) : Bool :=
  if body.length > REFUSAL_MAX then false
  else
    match serde.fromSlice body with
    | some (.array batch) =>
        !batch.isEmpty && batch.all fun item => (item.get "jsonrpc").isSome
    | some document => (document.get "jsonrpc").isSome
    | none => false

/-! ## Answers -/

/-- What a client is answered. -/
inductive Response where
  /-- A provider's status and body. -/
  | relayed (status : Nat) (body : Bytes)
  /-- A JSON document of the LB's own. -/
  | own (status : Nat) (document : JsonValue)
  | text (status : Nat) (text : String)
  /-- What the server answers a body it could not read. -/
  | rejected

def METHOD_DENIED : Int :=
  -32050

def NO_HEALTHY_PROVIDER : Int :=
  -32051

def REQUEST_TIMED_OUT : Int :=
  -32052

def RESPONSE_TOO_LARGE : Int :=
  -32053

def REQUEST_TOO_LARGE : Int :=
  -32054

/-- The JSON-RPC error envelope. -/
def errorResponse (code : Int) (message : String) (id : JsonValue) : JsonValue :=
  .object
    [("jsonrpc", .string "2.0"), ("id", id),
      ("error", .object [("code", .integer code), ("message", .string ("lb: " ++ message))])]

/-- The request's id for an envelope, null where the body yields none. -/
def extractId (serde : Serde) (body : Bytes) : JsonValue :=
  ((serde.fromSlice body).bind (·.get "id")).getD .null

/-- An error of the LB's own as a response. -/
def Response.error (serde : Serde) (status : Nat) (code : Int) (message : String)
    (requestBody : Bytes) : Response :=
  .own status (errorResponse code message (extractId serde requestBody))

/-- Why a body could not be read. -/
inductive BytesRejection where
  | payloadTooLarge
  | other
  deriving DecidableEq, Repr

/-- The refusals answered before any provider is involved. -/
def checkRequest (serde : Serde) (body : Except BytesRejection Bytes) : Except Response Bytes :=
  match body with
  | .error .payloadTooLarge =>
      .error (.error serde 413 REQUEST_TOO_LARGE "request too large" [])
  | .error .other => .error .rejected
  | .ok body =>
      if !looksLikeJson body then
        .error (.text 400
          "Request body is not a JSON-RPC request: expected a JSON object or a batch array.\n")
      else
        match denied body with
        | some name =>
            .error (.error serde 200 METHOD_DENIED ("method not supported: " ++ name) body)
        | none => .ok body

/-! ## One attempt -/

/-- What comes of one exchange with a provider. -/
inductive Exchange where
  /-- Nothing came, because the time was over or for another reason. -/
  | failed (timedOut : Bool)
  /-- A response's status, the length it declares, the chunks of its body, and how the body broke
  off where it did. -/
  | response (status : Nat) (contentLength : Option Nat) (chunks : List Bytes)
      (broken : Option Bool)

/-- What one attempt produced. -/
inductive Forwarded where
  | answer (response : Response)
  | noAnswer
  | timedOut
  | tooLarge

/-- What the attempt is to the request it was made for. -/
def Forwarded.outcome : Forwarded → Outcome
  | answer _ => .answer
  | noAnswer => .noAnswer
  | timedOut => .timedOut
  | tooLarge => .tooLarge

/-- A failed attempt: the timeout told apart from the rest. -/
def failure (timedOut : Bool) : Forwarded :=
  if timedOut then .timedOut else .noAnswer

/-- The body collected from its chunks, unless it passes the cap. -/
def collect (cap : Nat) : Bytes → List Bytes → Option Bytes
  | collected, [] => some collected
  | collected, chunk :: chunks =>
      if collected.length + chunk.length > cap then none
      else collect cap (collected ++ chunk) chunks

def isSuccess (status : Nat) : Bool :=
  200 ≤ status && status ≤ 299

/-- One attempt, judged by what came. -/
def attempt (serde : Serde) (cap : Nat) : Exchange → Forwarded
  | .failed timedOut => failure timedOut
  | .response status contentLength chunks broken =>
      let refused := status = 400
      if ¬(isSuccess status ∨ refused) then .noAnswer
      else if contentLength.any (· > cap) then .tooLarge
      else
        match collect cap [] chunks with
        | none => .tooLarge
        | some collected =>
            match broken with
            | some timedOut => failure timedOut
            | none =>
                if !looksLikeJson collected then .noAnswer
                else if refused ∧ !isJsonRpcResponse serde collected then .noAnswer
                else .answer (.relayed status collected)

/-! ## Denied names -/

/-- The slices are what stands in the body at that length. -/
theorem mem_windows {size : Nat} (positive : 0 < size) {window haystack : Bytes} :
    window ∈ windows size haystack ↔ window.length = size ∧ window <:+: haystack := by
  induction haystack with
  | nil =>
      simp only [windows, List.not_mem_nil, List.infix_nil, false_iff, not_and]
      rintro isSize rfl
      exact absurd isSize (Nat.ne_of_lt positive)
  | cons byte rest ih =>
      rw [windows, List.infix_cons_iff]
      by_cases fits : size ≤ rest.length + 1
      · rw [if_pos fits, List.mem_cons, ih, and_or_left]
        refine or_congr_left ⟨?_, ?_⟩
        · rintro rfl
          exact ⟨by simpa using fits, List.take_prefix _ _⟩
        · rintro ⟨rfl, starts⟩
          exact List.prefix_iff_eq_take.mp starts
      · rw [if_neg fits]
        simp only [List.not_mem_nil, false_iff, not_and, not_or]
        rintro rfl
        constructor
        · intro starts
          exact fits (by simpa using starts.length_le)
        · intro within
          have short := within.length_le
          omega

/-- A name is contained when it stands somewhere in the body, in whatever case. -/
theorem containsIgnoreCase_iff {haystack needle : Bytes} (inhabited : needle ≠ []) :
    containsIgnoreCase haystack needle = true ↔
      needle.map toAsciiLowercase <:+: haystack.map toAsciiLowercase := by
  have positive : 0 < needle.length := List.length_pos_iff.mpr inhabited
  constructor
  · intro contains
    rw [containsIgnoreCase] at contains
    split at contains
    · cases contains
    · obtain ⟨window, isWindow, same⟩ := List.any_eq_true.mp contains
      obtain ⟨-, within⟩ := (mem_windows positive).mp isWindow
      rw [← of_decide_eq_true same]
      exact within.map _
  · rintro ⟨before, after, whole⟩
    obtain ⟨front, back, rfl, isFront, -⟩ := List.map_eq_append_iff.mp whole.symm
    obtain ⟨early, window, rfl, -, isWindow⟩ := List.map_eq_append_iff.mp isFront
    have sameLength : window.length = needle.length := by
      simpa using congrArg List.length isWindow
    have within : window <:+: early ++ window ++ back := ⟨early, back, rfl⟩
    have short := within.length_le
    rw [containsIgnoreCase, if_neg (by omega), List.any_eq_true]
    exact ⟨window, (mem_windows positive).mpr ⟨sameLength, within⟩, decide_eq_true isWindow⟩

/-- However a body is cut into chunks, it is collected whole or given up. -/
theorem collect_eq {cap : Nat} (collected : Bytes) (chunks : List Bytes)
    (within : collected.length ≤ cap) :
    collect cap collected chunks =
      if collected.length + chunks.flatten.length ≤ cap then some (collected ++ chunks.flatten)
      else none := by
  induction chunks generalizing collected with
  | nil => simp [collect, within]
  | cons chunk chunks ih =>
      rw [collect, List.flatten_cons, List.length_append]
      by_cases fits : collected.length + chunk.length ≤ cap
      · rw [if_neg (by omega), ih _ (by simpa using fits)]
        simp [Nat.add_assoc]
      · rw [if_pos (by omega), if_neg (by omega)]

/-- A provider's answer to an exchange that came whole and within the cap: its own status and its
body's bytes, whatever chunks they came in. -/
def Exchange.Relays (serde : Serde) (cap : Nat) (exchange : Exchange) (response : Response) :
    Prop :=
  ∃ status contentLength chunks, exchange = .response status contentLength chunks none ∧
    response = .relayed status chunks.flatten ∧
      (∀ length ∈ contentLength, length ≤ cap) ∧ chunks.flatten.length ≤ cap ∧
      looksLikeJson chunks.flatten = true ∧
        (isSuccess status = true ∨ status = 400 ∧ isJsonRpcResponse serde chunks.flatten = true)

theorem relays_of_answer {serde : Serde} {cap : Nat} {exchange : Exchange} {response : Response}
    (answered : attempt serde cap exchange = .answer response) :
    exchange.Relays serde cap response := by
  cases exchange with
  | failed timedOut => cases timedOut <;> cases answered
  | response status contentLength chunks broken =>
      rw [attempt, collect_eq [] chunks (Nat.zero_le cap)] at answered
      split at answered
      · cases answered
      next answers =>
        split at answered
        · cases answered
        next undeclared =>
          split at answered
          · cases answered
          next collected isCollected =>
            rw [Option.ite_none_right_eq_some] at isCollected
            obtain ⟨within, isWhole⟩ := isCollected
            obtain rfl : chunks.flatten = collected := Option.some.inj isWhole
            split at answered
            next timedOut => cases timedOut <;> cases answered
            split at answered
            · cases answered
            next looks =>
              split at answered
              · cases answered
              next refusal =>
                cases answered
                refine ⟨status, contentLength, chunks, rfl, rfl, fun length isDeclared => ?_,
                  by simpa using within, by simpa using looks, ?_⟩
                · subst isDeclared
                  simpa using undeclared
                · by_cases isRefused : status = 400
                  · exact .inr ⟨isRefused, by simpa [isRefused] using refusal⟩
                  · exact .inl (by simpa [isRefused] using answers)

/-- An attempt's answer is the provider's. -/
theorem attempt_answer {serde : Serde} {cap : Nat} {exchange : Exchange} {response : Response} :
    attempt serde cap exchange = .answer response ↔ exchange.Relays serde cap response := by
  constructor
  · exact relays_of_answer
  · rintro ⟨status, contentLength, chunks, rfl, rfl, declared, within, looks, answers⟩
    have undeclared : contentLength.any (· > cap) = false := by
      cases contentLength with
      | none => rfl
      | some length => simpa using declared length rfl
    have answers' : isSuccess status = true ∨ status = 400 := answers.imp_right And.left
    have judged : status = 400 → isJsonRpcResponse serde chunks.flatten = true := by
      rintro rfl
      rcases answers with succeeds | ⟨-, responds⟩
      · exact absurd succeeds (by decide)
      · exact responds
    rw [attempt, collect_eq [] chunks (Nat.zero_le cap), if_neg (not_not_intro answers'),
      undeclared, if_neg Bool.false_ne_true, if_pos (by simpa using within)]
    simpa [looks] using judged

/-- What passes the check passes as it is: it starts as JSON and names nothing denied. -/
theorem checkRequest_ok {serde : Serde} {given : Except BytesRejection Bytes} {body : Bytes}
    (passes : checkRequest serde given = .ok body) :
    given = .ok body ∧ looksLikeJson body = true ∧ denied body = none := by
  cases given with
  | error rejection => cases rejection <;> cases passes
  | ok read =>
      rw [checkRequest] at passes
      split at passes
      · cases passes
      · next looks =>
          split at passes
          · cases passes
          · next allowed =>
              cases passes
              exact ⟨rfl, by simpa using looks, allowed⟩

/-! ## Every client's request -/

/-- The LB's own answer to a request that it answers itself. -/
def LbOutcome.response (serde : Serde) (body : Bytes) : LbOutcome → Response
  | .noHealthyProvider => .error serde 503 NO_HEALTHY_PROVIDER "no healthy provider" body
  | .timedOut => .error serde 504 REQUEST_TIMED_OUT "request timed out" body
  | .noProviderAnswered => .error serde 503 NO_HEALTHY_PROVIDER "no provider answered" body

/-- The LB's answer where a provider's is too large. -/
def tooLargeResponse (serde : Serde) (body : Bytes) : Response :=
  .error serde 502 RESPONSE_TOO_LARGE "response too large" body

/-- A client whose body went through, what was sent for it, what came of it, and its answer. -/
structure Client where
  body : Bytes
  sent : List (Handle × Bytes)
  exchanges : List Exchange
  answer : Option Response

/-- The front with the bodies that go through it. -/
structure Relay where
  front : Front
  /-- One for each request of the front. -/
  clients : List Client
  /-- The answers to requests that reached no provider's selection. -/
  refusals : List Response

/-- What happens to the requests with their bodies, and around them. -/
inductive RelayEvent where
  /-- Time passes, a provider joins or leaves, or the Monitor does its part. -/
  | around (event : FrontEvent)
  | arrive (body : Except BytesRejection Bytes)
  | select (request : Nat)
  | exchanged (request : Nat) (exchange : Exchange)
  | finish (request : Nat)

/-- An event that is none of a request's. -/
def FrontEvent.isAround : FrontEvent → Bool
  | .pass _ | .join _ _ _ | .leave _ | .monitor _ _ => true
  | _ => false

/-- A client after its request went on: sent to the provider tried, or answered by the LB. -/
def Client.goOn (serde : Serde) (client : Client) : RequestPhase → Client
  | .trying provider _ _ _ => { client with sent := client.sent ++ [(provider, client.body)] }
  | .ended (.refused outcome) =>
      { client with answer := some (outcome.response serde client.body) }
  | _ => client

/-- A client after an attempt for it. -/
def Client.heard (serde : Serde) (cap : Nat) (exchange : Exchange) (client : Client) : Client :=
  { client with
    exchanges := client.exchanges ++ [exchange]
    answer :=
      match attempt serde cap exchange with
      | .answer response => some response
      | .tooLarge => some (tooLargeResponse serde client.body)
      | _ => client.answer }

namespace Relay

variable (config : Config) (serde : Serde)

/-- A request went on in the front, and its client with it. -/
def goOn (relay : Relay) (index : Nat) (front : Front) : Relay :=
  { relay with
    front := front
    clients := relay.clients.modify index fun client =>
      match front.requests[index]? with
      | some request => client.goOn serde request.phase
      | none => client }

/-- One event, where it can happen. -/
def step (relay : Relay) : RelayEvent → Option Relay
  | .around event =>
      if event.isAround then
        (relay.front.step config event).map fun front => { relay with front := front }
      else none
  | .arrive body =>
      match checkRequest serde body with
      | .error response => some { relay with refusals := relay.refusals ++ [response] }
      | .ok body =>
          (relay.front.step config .arrive).map fun front =>
            { relay with
              front := front
              clients := relay.clients ++
                [{ body := body, sent := [], exchanges := [], answer := none }] }
  | .select index => (relay.front.step config (.select index)).map (relay.goOn serde index)
  | .exchanged index exchange =>
      (relay.front.step config
        (.attempted index (attempt serde config.proxy.maxResponseSize exchange).outcome)).map
          fun front =>
            { relay with
              front := front
              clients := relay.clients.modify index
                (Client.heard serde config.proxy.maxResponseSize exchange) }
  | .finish index => (relay.front.step config (.finish index)).map (relay.goOn serde index)

/-- The LB's front with its clients. -/
def machine : Machine Relay RelayEvent where
  step := step config serde

/-- Before the first provider and the first client. -/
def initial : Relay where
  front := Front.initial
  clients := []
  refusals := []

end Relay

/-! ## What a client is answered -/

/-- An error of the LB's own for a request that reached providers' selection: one of its codes, its
mark before the message, and the id of the client's request. -/
def Response.IsOwn (serde : Serde) (body : Bytes) (response : Response) : Prop :=
  ∃ status code message,
    code ∈ [NO_HEALTHY_PROVIDER, REQUEST_TIMED_OUT, RESPONSE_TOO_LARGE] ∧
      response = .own status (errorResponse code message (extractId serde body))

/-- A client beside its request: its body passed the check, every provider tried for it was sent
that body, each attempt is what its exchange comes to, and it is answered when the request ended, by
what ended it. -/
structure Client.Follows (serde : Serde) (cap : Nat) (request : Request) (client : Client) :
    Prop where
  checked : looksLikeJson client.body = true ∧ denied client.body = none
  sent : client.sent = request.tried.map fun provider => (provider, client.body)
  outcomes : request.attempts.map Prod.snd =
    client.exchanges.map fun exchange => (attempt serde cap exchange).outcome
  answered : match request.phase with
    | .ended (.answered _) => ∃ exchange response, client.exchanges.getLast? = some exchange ∧
        attempt serde cap exchange = .answer response ∧ client.answer = some response
    | .ended .tooLarge => client.answer = some (tooLargeResponse serde client.body)
    | .ended (.refused outcome) => client.answer = some (outcome.response serde client.body)
    | _ => client.answer = none

namespace Client.Follows

variable {serde : Serde} {cap : Nat} {request next : Request} {client : Client}

/-- A client whose request just arrived. -/
theorem arrives {body : Bytes} {deadline : Instant} {left : Nat}
    (checked : looksLikeJson body = true ∧ denied body = none) :
    Client.Follows serde cap
      { deadline := deadline, attempts := [], phase := .again left }
      { body := body, sent := [], exchanges := [], answer := none } := by
  constructor
  · exact checked
  · cases left <;> simp [Request.tried, RequestPhase.again]
  · rfl
  · cases left <;> simp [RequestPhase.again]

/-- A request that goes on, or is given up, takes its client along. -/
theorem goOn (follows : client.Follows serde cap request) (unanswered : client.answer = none)
    (idle : request.tried = request.attempts.map Prod.fst)
    (sameAttempts : next.attempts = request.attempts)
    (onward : (∃ provider started timeout left,
        next.phase = .trying provider started timeout left) ∨
      (∃ outcome, next.phase = .ended (.refused outcome)) ∨ next.phase = .spent) :
    (client.goOn serde next.phase).Follows serde cap next := by
  have sent := follows.sent
  have outcomes := follows.outcomes
  rw [idle] at sent
  rcases onward with ⟨provider, started, timeout, left, trying⟩ | ⟨outcome, ended⟩ | spent
  · constructor
    · rw [trying]
      exact follows.checked
    · simp [trying, Client.goOn, Request.tried, sameAttempts, sent]
    · simpa [trying, Client.goOn, sameAttempts] using outcomes
    · simpa [trying, Client.goOn] using unanswered
  · constructor
    · rw [ended]
      exact follows.checked
    · simp [ended, Client.goOn, Request.tried, sameAttempts, sent]
    · simpa [ended, Client.goOn, sameAttempts] using outcomes
    · simp [ended, Client.goOn]
  · constructor
    · rw [spent]
      exact follows.checked
    · simp [spent, Client.goOn, Request.tried, sameAttempts, sent]
    · simpa [spent, Client.goOn, sameAttempts] using outcomes
    · simpa [spent, Client.goOn] using unanswered

/-- An attempt of a request takes its client along. -/
theorem heard (follows : client.Follows serde cap request) {provider : Handle}
    {started : Instant} {timeout : Duration} {left : Nat} (exchange : Exchange)
    (trying : request.phase = .trying provider started timeout left) :
    (client.heard serde cap exchange).Follows serde cap
      (request.attempted provider left (attempt serde cap exchange).outcome) := by
  have sent := follows.sent
  have outcomes := follows.outcomes
  have unanswered : client.answer = none := by simpa [trying] using follows.answered
  constructor
  · exact follows.checked
  · rw [Request.tried, trying] at sent
    cases attempt serde cap exchange <;> cases left <;>
      simp [Client.heard, Request.attempted, Request.tried, Forwarded.outcome, RequestPhase.again,
        sent]
  · simp [Client.heard, Request.attempted, outcomes]
  · cases judged : attempt serde cap exchange with
    | answer response =>
        simp only [Client.heard, Request.attempted, Forwarded.outcome, judged]
        exact ⟨exchange, response, List.getLast?_concat, judged, rfl⟩
    | tooLarge => simp [Client.heard, Request.attempted, Forwarded.outcome, judged]
    | noAnswer =>
        cases left <;>
          simpa [Client.heard, Request.attempted, Forwarded.outcome, judged, RequestPhase.again]
            using unanswered
    | timedOut =>
        cases left <;>
          simpa [Client.heard, Request.attempted, Forwarded.outcome, judged, RequestPhase.again]
            using unanswered

end Client.Follows

namespace Relay

variable {config : Config} {serde : Serde}

/-- Every client beside its request. -/
structure Fine (config : Config) (serde : Serde) (relay : Relay) : Prop where
  length : relay.clients.length = relay.front.requests.length
  follows : ∀ (index : Nat) (request : Request) (client : Client),
    relay.front.requests[index]? = some request →
    relay.clients[index]? = some client →
      client.Follows serde config.proxy.maxResponseSize request

/-- One request changed, and its client as it has to. -/
theorem Fine.changed {relay next : Relay} (fine : relay.Fine config serde) {index : Nat}
    {request request' : Request} (isRequest : relay.front.requests[index]? = some request)
    {change : Client → Client}
    (changes : ∀ client, client.Follows serde config.proxy.maxResponseSize request →
      (change client).Follows serde config.proxy.maxResponseSize request')
    (requests : next.front.requests = relay.front.requests.set index request')
    (clients : next.clients = relay.clients.modify index change) : next.Fine config serde := by
  constructor
  · rw [clients, requests, List.length_modify, List.length_set, fine.length]
  · intro other found client isFound isClient
    rw [requests, List.getElem?_set] at isFound
    rw [clients, List.getElem?_modify] at isClient
    by_cases same : index = other
    · subst same
      rw [if_pos rfl] at isFound
      split at isFound
      · obtain rfl := Option.some.inj isFound
        obtain ⟨old, isOld, rfl⟩ := Option.map_eq_some_iff.mp isClient
        simpa using changes old (fine.follows index request old isRequest isOld)
      · cases isFound
    · rw [if_neg same] at isFound
      have isOld : relay.clients[other]? = some client := by simpa [same] using isClient
      exact fine.follows other found client isFound isOld

theorem Fine.initial : (Relay.initial).Fine config serde where
  length := rfl
  follows := by
    intro index request client isRequest
    simp [Relay.initial, Front.initial] at isRequest

/-- What stands in a list with one more entry. -/
theorem of_getElem?_concat {α : Type} {values : List α} {last value : α} {index : Nat}
    (isThere : (values ++ [last])[index]? = some value) :
    values[index]? = some value ∨ index = values.length ∧ value = last := by
  obtain before | after := Nat.lt_or_ge index values.length
  · rw [List.getElem?_append_left before] at isThere
    exact .inl isThere
  · rw [List.getElem?_append_right after] at isThere
    obtain ⟨inRange, isLast⟩ := List.getElem?_eq_some_iff.mp isThere
    have atEnd : index - values.length = 0 := by simpa using inRange
    exact .inr ⟨by omega, by simpa [atEnd] using isLast.symm⟩

/-- An event around the requests leaves them. -/
theorem requests_around {front next : Front} {event : FrontEvent} (isAround : event.isAround = true)
    (stepped : front.step config event = some next) : next.requests = front.requests := by
  cases event <;> first | (cases stepped; rfl) | cases isAround

/-- A selection tries a provider for one request, answers it or gives it up. -/
theorem select_requests (front : Front) (index : Nat) (request : Request) (left : Nat) :
    ∃ next : Request, (front.select config index request left).requests =
        front.requests.set index next ∧ next.attempts = request.attempts ∧
      ((∃ provider started timeout left, next.phase = .trying provider started timeout left) ∨
        (∃ outcome, next.phase = .ended (.refused outcome)) ∨ next.phase = .spent) := by
  rw [Front.select]
  split
  · exact ⟨_, rfl, rfl, .inr (.inl ⟨_, rfl⟩)⟩
  · next provider cursor selected =>
      refine ⟨_, rfl, rfl, ?_⟩
      by_cases noTime : request.deadline - front.now = 0
      · exact .inr (.inr (if_pos noTime))
      · exact .inl ⟨_, _, _, _, if_neg noTime⟩

/-- A request that goes on takes its client along, and no other. -/
theorem Fine.goOn {relay : Relay} (fine : relay.Fine config serde) {index : Nat}
    {request next : Request} {front : Front}
    (isRequest : relay.front.requests[index]? = some request)
    (waits : request.tried = request.attempts.map Prod.fst)
    (unanswered : ∀ client : Client,
      client.Follows serde config.proxy.maxResponseSize request → client.answer = none)
    (requests : front.requests = relay.front.requests.set index next)
    (sameAttempts : next.attempts = request.attempts)
    (onward : (∃ provider started timeout left,
        next.phase = .trying provider started timeout left) ∨
      (∃ outcome, next.phase = .ended (.refused outcome)) ∨ next.phase = .spent) :
    (relay.goOn serde index front).Fine config serde := by
  have inRange : index < relay.front.requests.length := (List.getElem?_eq_some_iff.mp isRequest).1
  have isNext : front.requests[index]? = some next := by
    rw [requests, List.getElem?_set_self inRange]
  refine fine.changed isRequest (fun client follows => ?_) requests rfl
  simp only [isNext]
  exact follows.goOn (unanswered client follows) waits sameAttempts onward

/-- Every step keeps every client beside its request. -/
theorem Fine.step {relay next : Relay} {event : RelayEvent} (fine : relay.Fine config serde)
    (stepped : relay.step config serde event = some next) : next.Fine config serde := by
  cases event with
  | around event =>
      simp only [Relay.step] at stepped
      split at stepped
      · next isAround =>
          obtain ⟨front, moved, rfl⟩ := Option.map_eq_some_iff.mp stepped
          have same := requests_around isAround moved
          exact ⟨by simpa [same] using fine.length, by simpa [same] using fine.follows⟩
      · cases stepped
  | arrive body =>
      simp only [Relay.step] at stepped
      split at stepped
      · next response isRefused =>
          obtain rfl := Option.some.inj stepped
          exact ⟨fine.length, fine.follows⟩
      · next accepted isAccepted =>
          obtain ⟨front, moved, rfl⟩ := Option.map_eq_some_iff.mp stepped
          obtain rfl := Option.some.inj moved
          constructor
          · simp [fine.length]
          · intro index request client isRequest isClient
            obtain isOld | ⟨isNew, rfl⟩ := of_getElem?_concat isRequest
            · have inRange := (List.getElem?_eq_some_iff.mp isOld).1
              rw [List.getElem?_append_left (by rw [fine.length]; exact inRange)] at isClient
              exact fine.follows index request client isOld isClient
            · rw [isNew, ← fine.length, List.getElem?_concat_length] at isClient
              obtain rfl := Option.some.inj isClient
              exact .arrives (checkRequest_ok isAccepted).2
  | select index =>
      obtain ⟨front, moved, rfl⟩ := Option.map_eq_some_iff.mp stepped
      obtain ⟨request, left, isRequest, selecting, rfl⟩ := Front.select_cases moved
      obtain ⟨onward, requests, sameAttempts, phases⟩ :=
        select_requests relay.front index request left
      refine fine.goOn isRequest (by simp [Request.tried, selecting]) (fun client follows => ?_)
        requests sameAttempts phases
      simpa [selecting] using follows.answered
  | exchanged index exchange =>
      obtain ⟨front, moved, rfl⟩ := Option.map_eq_some_iff.mp stepped
      obtain ⟨request, provider, started, timeout, left, isRequest, trying, rfl⟩ :=
        Front.attempted_cases moved
      exact fine.changed isRequest (fun client follows => follows.heard exchange trying) rfl rfl
  | finish index =>
      obtain ⟨front, moved, rfl⟩ := Option.map_eq_some_iff.mp stepped
      obtain ⟨request, isRequest, spent, rfl⟩ := Front.finish_cases moved
      refine fine.goOn isRequest (by simp [Request.tried, spent]) (fun client follows => ?_)
        rfl rfl (.inr (.inl ⟨_, rfl⟩))
      simpa [spent] using follows.answered

/-- The body that an event brings past the check. -/
def accepted (serde : Serde) : RelayEvent → Option Bytes
  | .arrive body => (checkRequest serde body).toOption
  | _ => none

/-- The clients are those whose bodies passed the check, in the order they came. -/
theorem step_bodies {relay next : Relay} {event : RelayEvent}
    (stepped : relay.step config serde event = some next) :
    next.clients.map Client.body =
      relay.clients.map Client.body ++ (accepted serde event).toList := by
  have kept : ∀ (clients : List Client) (index : Nat) (change : Client → Client),
      (∀ client, (change client).body = client.body) →
        (clients.modify index change).map Client.body = clients.map Client.body := by
    intro clients index change same
    apply List.ext_getElem?
    intro other
    rw [List.getElem?_map, List.getElem?_modify, List.getElem?_map]
    cases clients[other]? with
    | none => rfl
    | some client => by_cases here : index = other <;> simp [here, same]
  have going : ∀ (client : Client) (phase : RequestPhase),
      (client.goOn serde phase).body = client.body := by
    intro client phase
    cases phase with
    | ended ending => cases ending <;> rfl
    | _ => rfl
  cases event with
  | around event =>
      simp only [Relay.step] at stepped
      split at stepped
      · obtain ⟨front, moved, rfl⟩ := Option.map_eq_some_iff.mp stepped
        simp [accepted]
      · cases stepped
  | arrive body =>
      simp only [Relay.step] at stepped
      split at stepped
      · next response isRefused =>
          obtain rfl := Option.some.inj stepped
          simp [accepted, isRefused, Except.toOption]
      · next passed isAccepted =>
          obtain ⟨front, moved, rfl⟩ := Option.map_eq_some_iff.mp stepped
          simp [accepted, isAccepted, Except.toOption]
  | select index =>
      obtain ⟨front, moved, rfl⟩ := Option.map_eq_some_iff.mp stepped
      simp only [Relay.goOn, accepted, Option.toList_none, List.append_nil]
      apply kept
      intro client
      split
      · exact going client _
      · rfl
  | exchanged index exchange =>
      obtain ⟨front, moved, rfl⟩ := Option.map_eq_some_iff.mp stepped
      simp only [accepted, Option.toList_none, List.append_nil]
      exact kept _ _ _ fun client => rfl
  | finish index =>
      obtain ⟨front, moved, rfl⟩ := Option.map_eq_some_iff.mp stepped
      simp only [Relay.goOn, accepted, Option.toList_none, List.append_nil]
      apply kept
      intro client
      split
      · exact going client _
      · rfl

/-- So they are over a whole run. -/
theorem run_bodies {relay finish : Relay} {events : List RelayEvent}
    (ran : (machine config serde).run relay events = some finish) :
    finish.clients.map Client.body =
      relay.clients.map Client.body ++ events.filterMap (accepted serde) := by
  induction events generalizing relay with
  | nil =>
      obtain rfl : relay = finish := by simpa using ran
      simp
  | cons event events ih =>
      obtain ⟨next, stepped, reached⟩ := Machine.run_cons_eq_some.mp ran
      rw [ih reached, step_bodies stepped, List.append_assoc]
      cases isAccepted : accepted serde event <;> simp [isAccepted]

/-- A body that passed names no denied method, in whatever case. -/
theorem denied_none {body : Bytes} (allowed : denied body = none) {name : String}
    (isDenied : name ∈ DENIED) :
    ¬(asBytes name).map toAsciiLowercase <:+: body.map toAsciiLowercase := by
  have inhabited : ∀ name ∈ DENIED, asBytes name ≠ [] := by decide
  intro within
  have absent := List.find?_eq_none.mp allowed name isDenied
  exact absent ((containsIgnoreCase_iff (inhabited name isDenied)).mpr within)

/-- Bodies cross untouched.  In every run, with any number of requests under way at once, the
clients are those whose bodies passed the check; every provider tried for one is sent that client's
very body, which starts as JSON and names no denied method; and a client is answered when its
request ended, with the status and the bytes that the last provider tried answered it, or with an
error of the LB's own that carries its id. -/
theorem bodies_cross_untouched (config : Config) (serde : Serde) {events : List RelayEvent}
    {finish : Relay} (ran : (machine config serde).run Relay.initial events = some finish) :
    finish.clients.map Client.body = events.filterMap (accepted serde) ∧
      ∀ (index : Nat) (request : Request) (client : Client),
        finish.front.requests[index]? = some request → finish.clients[index]? = some client →
          client.sent = request.tried.map (fun provider => (provider, client.body)) ∧
          looksLikeJson client.body = true ∧
          (∀ name ∈ DENIED,
            ¬(asBytes name).map toAsciiLowercase <:+: client.body.map toAsciiLowercase) ∧
          (client.answer.isSome = true ↔ ∃ ending, request.phase = .ended ending) ∧
          ∀ response, client.answer = some response →
            (∃ exchange, client.exchanges.getLast? = some exchange ∧
              exchange.Relays serde config.proxy.maxResponseSize response) ∨
              response.IsOwn serde client.body := by
  have fine : finish.Fine config serde :=
    Machine.run_preserves (fun _ _ _ fine stepped => fine.step stepped) Fine.initial ran
  refine ⟨by simpa [Relay.initial] using run_bodies ran, ?_⟩
  intro index request client isRequest isClient
  have follows := fine.follows index request client isRequest isClient
  refine ⟨follows.sent, follows.checked.1, fun name => denied_none follows.checked.2, ?_, ?_⟩
  · have answered := follows.answered
    cases phase : request.phase with
    | ended ending =>
        rw [phase] at answered
        cases ending with
        | answered provider =>
            obtain ⟨exchange, response, -, -, isAnswer⟩ := answered
            simp [isAnswer]
        | tooLarge => simp [show client.answer = _ from answered]
        | refused outcome => simp [show client.answer = _ from answered]
    | _ =>
        rw [phase] at answered
        simp [show client.answer = none from answered]
  · intro response isAnswer
    have answered := follows.answered
    cases phase : request.phase with
    | ended ending =>
        rw [phase] at answered
        cases ending with
        | answered provider =>
            obtain ⟨exchange, other, isLast, judged, isOther⟩ := answered
            obtain rfl : other = response := Option.some.inj (isOther.symm.trans isAnswer)
            exact .inl ⟨exchange, isLast, attempt_answer.mp judged⟩
        | tooLarge =>
            have same : some _ = some response := (show client.answer = _ from answered).symm.trans
              isAnswer
            obtain rfl := Option.some.inj same
            exact .inr ⟨_, _, _, by decide, rfl⟩
        | refused outcome =>
            have same : some _ = some response := (show client.answer = _ from answered).symm.trans
              isAnswer
            obtain rfl := Option.some.inj same
            cases outcome with
            | noHealthyProvider => exact .inr ⟨_, _, _, by decide, rfl⟩
            | timedOut => exact .inr ⟨_, _, _, by decide, rfl⟩
            | noProviderAnswered => exact .inr ⟨_, _, _, by decide, rfl⟩
    | _ =>
        rw [phase] at answered
        rw [show client.answer = none from answered] at isAnswer
        cases isAnswer

/-- One retry, and room for a short answer. -/
def roomy : Config :=
  { oneRetry with proxy := { oneRetry.proxy with maxResponseSize := 64 } }

/-- The two bodies below as documents. -/
def listSerde : Serde where
  toVec := fun _ => []
  fromSlice := fun bytes =>
    if bytes = asBytes "[1]" then some (.array [.integer 1])
    else if bytes = asBytes "[\"ETH_SIGN\"]" then some (.array [.string "ETH_SIGN"])
    else none

/-- A denied body, and one that the first provider fails and the second answers in two chunks. -/
def twoClients : List RelayEvent :=
  twoProbed.map .around ++
    [.arrive (.ok (asBytes "[\"ETH_SIGN\"]")), .arrive (.ok (asBytes "[1]")), .select 0,
      .exchanged 0 (.failed false), .select 0,
      .exchanged 0 (.response 200 none [asBytes "[2", asBytes "]"] none)]

theorem bodies_cross_untouched_two : ∃ finish,
    (machine roomy listSerde).run Relay.initial twoClients = some finish ∧
      finish.clients.map Client.body = [asBytes "[1]"] ∧
        finish.clients.map Client.sent = [[(0, asBytes "[1]"), (1, asBytes "[1]")]] ∧
          finish.refusals.length = 1 := by
  have runs : ((machine roomy listSerde).run Relay.initial twoClients).isSome = true := by
    decide +kernel
  have shown : ((machine roomy listSerde).run Relay.initial twoClients).map
      (fun relay => (relay.clients.map Client.sent, relay.refusals.length)) =
        some ([[(0, asBytes "[1]"), (1, asBytes "[1]")]], 1) := by decide +kernel
  obtain ⟨finish, ran⟩ := Option.isSome_iff_exists.mp runs
  rw [ran] at shown
  obtain ⟨sent, refused⟩ := Prod.mk.inj (Option.some.inj shown)
  refine ⟨finish, ran, ?_, sent, refused⟩
  rw [(bodies_cross_untouched roomy listSerde ran).1]
  decide +kernel

end Relay
end CommunityLb
