import CommunityLb.Chain.Records

/-!
# The configuration

The sections that `Config::validate` checks, in its order and with its messages.  Durations are in
nanoseconds.  The URL parser is a library's: it stands here as the parameter `Urls`.
-/

namespace CommunityLb

/-- A span of time in nanoseconds. -/
abbrev Duration := Nat

namespace Duration

/-- Whole seconds as a duration. -/
def fromSecs (seconds : Nat) : Duration :=
  seconds * 1000000000

/-- The whole seconds of a duration. -/
def asSecs (duration : Duration) : Nat :=
  duration / 1000000000

/-- What a duration has beyond its whole seconds. -/
def subsecNanos (duration : Duration) : Nat :=
  duration % 1000000000

/-- The digits after the point, trailing zeros cut. -/
private def fraction (value scale : Nat) : String :=
  let digits := (Nat.toDigits 10 (scale + value % scale)).drop 1
  let kept := (digits.reverse.dropWhile (· = '0')).reverse
  if kept = [] then "" else "." ++ String.ofList kept

/-- A duration the way a message shows it: seconds, or the largest smaller unit. -/
def debug (duration : Duration) : String :=
  let text (scale : Nat) (unit : String) :=
    toString (duration / scale) ++ fraction duration scale ++ unit
  if 1000000000 ≤ duration then text 1000000000 "s"
  else if 1000000 ≤ duration then text 1000000 "ms"
  else if 1000 ≤ duration then text 1000 "µs"
  else toString duration ++ "ns"

end Duration

/-- A string the way a message shows it: quoted, the characters that need it escaped. -/
def debugString (text : String) : String :=
  let escape (c : Char) : List Char :=
    if c = '"' then ['\\', '"']
    else if c = '\\' then ['\\', '\\']
    else if c = '\n' then ['\\', 'n']
    else if c = '\r' then ['\\', 'r']
    else if c = '\t' then ['\\', 't']
    else if c = '\x00' then ['\\', '0']
    else if c.toNat < 32 ∨ c.toNat = 127 then
      ['\\', 'u', '\x7b'] ++ Nat.toDigits 16 c.toNat ++ ['\x7d']
    else [c]
  "\"" ++ String.ofList (text.toList.flatMap escape) ++ "\""

/-- What the URL library answers for a text: the scheme it parses with, or why it does not parse. -/
structure Urls where
  parse : String → Except String String

/-- The longest lifetime the chain allows. -/
def MAX_LIFETIME : Duration :=
  Duration.fromSecs 15768000

/-- How the providers are probed. -/
structure Health where
  probeInterval : Duration
  probeTimeout : Duration
  flipAfter : Nat
  maxProbeBackoff : Duration
  refHeightInterval : Duration
  chainidCheckInterval : Duration
  chainId : Option Nat
  lagToleranceBlocks : Nat
  deriving DecidableEq, Repr

/-- How a request is forwarded. -/
structure Proxy where
  attemptTimeout : Duration
  requestTimeout : Duration
  maxRetries : Nat
  maxRequestSize : Nat
  maxResponseSize : Nat
  deriving DecidableEq, Repr

/-- How answers are compared. -/
structure Integrity where
  interval : Duration
  confirmAfter : Duration
  deriving DecidableEq, Repr

/-- A provider listed in the configuration. -/
structure StaticProvider where
  id : String
  url : String
  deriving DecidableEq, Repr

/-- The marketplace section. -/
structure Marketplace where
  writerUrl : String
  weiPerCall : Wei
  tunnelServer : String
  maxProviders : Nat
  remotePortStart : Nat
  discoveryInterval : Duration
  refreshInterval : Duration
  agreementLife : Duration
  listingLife : Duration
  counterRecordLife : Duration
  offerMaxLifetime : Duration
  settlementPeriod : Duration
  flushInterval : Duration
  deriving DecidableEq, Repr

/-- The configuration, the sections its validation reads. -/
structure Config where
  health : Health
  proxy : Proxy
  marketplace : Option Marketplace
  integrity : Option Integrity
  providers : List StaticProvider
  deriving DecidableEq, Repr

/-- A lifetime in blocks, the way the sidecar converts it. -/
def blocks (lifetime : Duration) : Nat :=
  blocksOf lifetime.asSecs

/-- One check: the message when it fails. -/
private def refuseIf (bad : Bool) (message : String) : Except String Unit :=
  if bad then .error message else .ok ()

private theorem refuseIf_ok {bad : Bool} {message : String} :
    refuseIf bad message = .ok () ↔ bad = false := by
  cases bad <;> simp [refuseIf]

private theorem bind_ok {first : Except String Unit} {second : Except String Unit} :
    (do first; second) = .ok () ↔ first = .ok () ∧ second = .ok () := by
  cases first with
  | error message => simp [bind, Except.bind]
  | ok _ => simp [bind, Except.bind]

private theorem forM_ok {α : Type} {checked : List α} {check : α → Except String Unit} :
    checked.forM check = .ok () ↔ ∀ value ∈ checked, check value = .ok () := by
  induction checked with
  | nil => simp [pure, Except.pure]
  | cons value checked ih =>
      have split : (value :: checked).forM check = .ok () ↔
          check value = .ok () ∧ checked.forM check = .ok () := bind_ok
      rw [split, ih]
      simp only [List.mem_cons, forall_eq_or_imp]

/-- A URL has to parse, and its scheme has to be http or https. -/
def validateHttpUrl (urls : Urls) (what url : String) : Except String Unit :=
  match urls.parse url with
  | .error reason => .error (what ++ " " ++ debugString url ++ " does not parse: " ++ reason)
  | .ok scheme =>
      refuseIf (scheme ≠ "http" ∧ scheme ≠ "https")
        (what ++ " " ++ debugString url ++ " is not http(s)")

namespace Marketplace

/-- One port per slot, from the start port up. -/
def remotePorts (config : Marketplace) : List Nat :=
  (List.range' config.remotePortStart (65536 - config.remotePortStart)).take config.maxProviders

/-- The lifetimes that writes ask for, in seconds. -/
def lifetimes (config : Marketplace) : List Nat :=
  [config.agreementLife.asSecs, config.listingLife.asSecs, config.counterRecordLife.asSecs,
    config.offerMaxLifetime.asSecs]

/-- What the marketplace section has to meet. -/
def validate (urls : Urls) (config : Marketplace) : Except String Unit := do
  validateHttpUrl urls "marketplace.writer_url" config.writerUrl
  [("discovery_interval", config.discoveryInterval),
    ("refresh_interval", config.refreshInterval),
    ("agreement_life", config.agreementLife),
    ("listing_life", config.listingLife),
    ("counter_record_life", config.counterRecordLife),
    ("offer_max_lifetime", config.offerMaxLifetime),
    ("settlement_period", config.settlementPeriod),
    ("flush_interval", config.flushInterval)].forM fun (name, duration) =>
      refuseIf (duration = 0) ("marketplace." ++ name ++ " must be greater than zero")
  -- A lifetime is sent in seconds and becomes whole blocks at two seconds each.
  [("agreement_life", config.agreementLife),
    ("listing_life", config.listingLife),
    ("counter_record_life", config.counterRecordLife),
    ("offer_max_lifetime", config.offerMaxLifetime)].forM fun (name, duration) => do
      refuseIf (duration.subsecNanos ≠ 0 ∨ duration.asSecs % 2 ≠ 0)
        ("marketplace." ++ name ++ " must be an even number of seconds: lifetimes " ++
          "are whole blocks of two seconds")
      refuseIf (duration > MAX_LIFETIME)
        ("marketplace." ++ name ++ " (" ++ duration.debug ++ ") must be at most " ++
          MAX_LIFETIME.debug ++ ", the longest lifetime the chain allows")
  refuseIf (config.offerMaxLifetime ≥ config.agreementLife)
    ("marketplace.offer_max_lifetime (" ++ config.offerMaxLifetime.debug ++
      ") must be shorter than agreement_life (" ++ config.agreementLife.debug ++
      "): an agreement has to outlive the offer it answers, or the offer is " ++
      "accepted again when the agreement expires")
  refuseIf (config.discoveryInterval ≥ config.refreshInterval)
    ("marketplace.discovery_interval (" ++ config.discoveryInterval.debug ++
      ") must be shorter than refresh_interval (" ++ config.refreshInterval.debug ++
      "): the poll after a refresh is what tells the next refresh which records still live")
  [("agreement_life", config.agreementLife),
    ("listing_life", config.listingLife)].forM fun (name, life) =>
      refuseIf (life ≤ config.refreshInterval)
        ("marketplace." ++ name ++ " (" ++ life.debug ++
          ") must be longer than refresh_interval (" ++ config.refreshInterval.debug ++
          "): a record refreshed to this life expires before the next refresh")
  refuseIf (config.refreshInterval < Duration.fromSecs 2)
    ("marketplace.refresh_interval (" ++ config.refreshInterval.debug ++
      ") must be at least two seconds, one block: " ++
      "two refreshes in one block ask for the same expiry, which is refused")
  refuseIf (config.flushInterval > config.agreementLife)
    ("marketplace.flush_interval (" ++ config.flushInterval.debug ++
      ") must be at most agreement_life (" ++ config.agreementLife.debug ++
      "): an agreement's count must reach the chain before the agreement can end")
  refuseIf (config.maxProviders > PAGE_LIMIT)
    ("marketplace.max_providers is " ++ toString config.maxProviders ++ ", maximum is " ++
      toString PAGE_LIMIT ++ ": the agreement records are reloaded in one page of " ++
      toString PAGE_LIMIT ++ " at startup")
  refuseIf (config.remotePortStart + config.maxProviders > 65536)
    ("marketplace.remote_port_start " ++ toString config.remotePortStart ++
      " plus max_providers " ++ toString config.maxProviders ++ " runs past port 65535")

/-- Counter records of a validated section live for a block at least, and so do acceptances. -/
theorem validate_lives {urls : Urls} {config : Marketplace}
    (valid : config.validate urls = .ok ()) :
    0 < blocks config.counterRecordLife ∧ 0 < blocks config.offerMaxLifetime := by
  simp only [validate, bind_ok] at valid
  have block : ∀ life : Nat, life ≠ 0 → life % 1000000000 = 0 → life / 1000000000 % 2 = 0 →
      0 < life / 1000000000 / 2 := by
    intro life
    omega
  have lives : ∀ named : String × Duration,
      named ∈ [("counter_record_life", config.counterRecordLife),
        ("offer_max_lifetime", config.offerMaxLifetime)] → 0 < blocks named.2 := by
    intro named member
    have positive := (forM_ok.mp valid.2.1) named (by aesop)
    have whole := (forM_ok.mp valid.2.2.1) named (by aesop)
    simp only [refuseIf_ok, decide_eq_false_iff_not] at positive
    obtain ⟨even, _⟩ := bind_ok.mp whole
    simp only [refuseIf_ok, decide_eq_false_iff_not, not_or, ne_eq, not_not] at even
    exact block named.2 positive even.1 even.2
  exact ⟨lives ("counter_record_life", _) (by simp), lives ("offer_max_lifetime", _) (by simp)⟩

/-- No counter record of a validated section lives longer than the chain allows. -/
theorem validate_counterRecordLife_le {urls : Urls} {config : Marketplace}
    (valid : config.validate urls = .ok ()) :
    blocks config.counterRecordLife ≤ blocks MAX_LIFETIME := by
  simp only [validate, bind_ok] at valid
  have whole := (forM_ok.mp valid.2.2.1) ("counter_record_life", config.counterRecordLife) (by simp)
  obtain ⟨_, atMost⟩ := bind_ok.mp whole
  simp only [refuseIf_ok, decide_eq_false_iff_not, gt_iff_lt, Nat.not_lt] at atMost
  exact Nat.div_le_div_right (Nat.div_le_div_right atMost)

/-- The lifetimes of a validated section are whole blocks, one at least, and no longer than the
chain allows. -/
theorem validate_lifetimes {urls : Urls} {config : Marketplace}
    (valid : config.validate urls = .ok ()) :
    ∀ count ∈ config.lifetimes, 0 < count ∧ count % 2 = 0 ∧ count ≤ MAX_LIFETIME.asSecs := by
  simp only [validate, bind_ok] at valid
  have bounds : ∀ life : Nat, life ≠ 0 → life % 1000000000 = 0 → life / 1000000000 % 2 = 0 →
      ¬ MAX_LIFETIME < life → 0 < life / 1000000000 ∧ life / 1000000000 % 2 = 0 ∧
        life / 1000000000 ≤ MAX_LIFETIME.asSecs := by
    intro life some whole even atMost
    exact ⟨by omega, even, Nat.div_le_div_right (Nat.le_of_not_lt atMost)⟩
  intro count member
  obtain ⟨named, isNamed, rfl⟩ : ∃ named ∈ [("agreement_life", config.agreementLife),
      ("listing_life", config.listingLife), ("counter_record_life", config.counterRecordLife),
      ("offer_max_lifetime", config.offerMaxLifetime)], named.2.asSecs = count := by
    simpa [lifetimes, eq_comm, or_and_right, exists_or] using member
  have positive := (forM_ok.mp valid.2.1) named (by aesop)
  have whole := (forM_ok.mp valid.2.2.1) named isNamed
  simp only [refuseIf_ok, decide_eq_false_iff_not] at positive
  obtain ⟨even, atMost⟩ := bind_ok.mp whole
  simp only [refuseIf_ok, decide_eq_false_iff_not, not_or, ne_eq, not_not] at even
  simp only [refuseIf_ok, decide_eq_false_iff_not, gt_iff_lt] at atMost
  exact bounds named.2 positive even.1 even.2 atMost

/-- An extended agreement of a validated section lives longer than an accepted one, in blocks. -/
theorem validate_offerMaxLifetime_lt {urls : Urls} {config : Marketplace}
    (valid : config.validate urls = .ok ()) :
    blocks config.offerMaxLifetime < blocks config.agreementLife := by
  simp only [validate, bind_ok] at valid
  have wholeBlocks : ∀ life : Nat, life % 1000000000 = 0 → life / 1000000000 % 2 = 0 →
      life = 2000000000 * (life / 1000000000 / 2) := by
    intro life whole even
    have seconds := Nat.div_add_mod life 1000000000
    have pairs := Nat.div_add_mod (life / 1000000000) 2
    omega
  have whole : ∀ named ∈ [("agreement_life", config.agreementLife),
      ("listing_life", config.listingLife), ("counter_record_life", config.counterRecordLife),
      ("offer_max_lifetime", config.offerMaxLifetime)],
      named.2 = 2000000000 * blocks named.2 := by
    intro named member
    obtain ⟨even, _⟩ := bind_ok.mp ((forM_ok.mp valid.2.2.1) named member)
    simp only [refuseIf_ok, decide_eq_false_iff_not, not_or, ne_eq, not_not] at even
    exact wholeBlocks named.2 even.1 even.2
  have shorter := valid.2.2.2.1
  simp only [refuseIf_ok, decide_eq_false_iff_not, ge_iff_le, Nat.not_le] at shorter
  have extended : config.agreementLife = 2000000000 * blocks config.agreementLife :=
    whole ("agreement_life", _) List.mem_cons_self
  have accepted : config.offerMaxLifetime = 2000000000 * blocks config.offerMaxLifetime :=
    whole ("offer_max_lifetime", _) (List.mem_of_getElem? (i := 3) rfl)
  rw [extended, accepted] at shorter
  exact Nat.lt_of_mul_lt_mul_left shorter

end Marketplace

/-- What the integrity section has to meet. -/
def Integrity.validate (config : Integrity) : Except String Unit := do
  [("integrity.interval", config.interval),
    ("integrity.confirm_after", config.confirmAfter)].forM fun (name, duration) =>
      refuseIf (duration = 0) (name ++ " must be greater than zero")
  refuseIf (config.confirmAfter ≥ config.interval)
    ("integrity.confirm_after (" ++ config.confirmAfter.debug ++
      ") must be shorter than interval (" ++ config.interval.debug ++
      "): a mismatch is asked again before the next round")

/-- A static id is a handle: lowercase letters, digits and dashes, at least one. -/
def isHandle (id : String) : Bool :=
  !id.isEmpty && id.toList.all fun c =>
    ('a' ≤ c ∧ c ≤ 'z') ∨ ('0' ≤ c ∧ c ≤ '9') ∨ c = '-'

namespace Config

/-- The checks on the static providers, the ids seen so far at hand. -/
def validateProviders (urls : Urls) (seen : List String) :
    List StaticProvider → Except String Unit
  | [] => .ok ()
  | provider :: providers => do
      refuseIf (!isHandle provider.id)
        ("provider id " ++ debugString provider.id ++
          " is not a valid handle (lowercase letters, digits, '-')")
      refuseIf (seen.contains provider.id)
        ("provider id " ++ debugString provider.id ++ " appears twice")
      validateHttpUrl urls ("provider " ++ debugString provider.id ++ ": url") provider.url
      validateProviders urls (provider.id :: seen) providers

/-- What the configuration has to meet. -/
def validate (urls : Urls) (config : Config) : Except String Unit := do
  [("health.probe_interval", config.health.probeInterval),
    ("health.probe_timeout", config.health.probeTimeout),
    ("proxy.attempt_timeout", config.proxy.attemptTimeout),
    ("proxy.request_timeout", config.proxy.requestTimeout)].forM fun (name, duration) =>
      refuseIf (duration = 0) (name ++ " must be greater than zero")
  [("proxy.max_request_size", config.proxy.maxRequestSize),
    ("proxy.max_response_size", config.proxy.maxResponseSize)].forM fun (name, size) =>
      refuseIf (size = 0) (name ++ " must be greater than zero")
  [("ref_height_interval", config.health.refHeightInterval),
    ("chainid_check_interval", config.health.chainidCheckInterval)].forM fun (name, interval) =>
      refuseIf (interval ≠ 0 ∧ interval < config.health.probeInterval)
        ("health." ++ name ++ " is shorter than health.probe_interval: checks happen " ++
        "on probe rounds, so use 0 (every round) or at least the probe interval")
  refuseIf (config.health.flipAfter < 2)
    ("health.flip_after is " ++ toString config.health.flipAfter ++
      ", minimum is 2: a provider's health may " ++
        "only change after at least two results in a row agree")
  validateProviders urls [] config.providers
  config.marketplace.forM (Marketplace.validate urls)
  config.integrity.forM Integrity.validate

/-- A validated configuration's marketplace section is validated. -/
theorem validate_marketplace {urls : Urls} {config : Config} {section_ : Marketplace}
    (valid : config.validate urls = .ok ()) (given : config.marketplace = some section_) :
    section_.validate urls = .ok () := by
  simp only [validate, bind_ok, given] at valid
  exact valid.2.2.2.2.2.1

end Config

end CommunityLb
