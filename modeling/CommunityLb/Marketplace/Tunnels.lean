import CommunityLb.Chain.Json
import CommunityLb.Marketplace.Accounts
import CommunityLb.Marketplace.Providers

/-!
# Who is let into the tunnel

A tunnel's client carries the id of the agreement it claims and a signature over it.  It is let in
for an agreement in memory when the provider of the agreement signed, and registers the port that
the agreement assigns.  How a signature is read, and whose it is, is given.
-/

namespace CommunityLb

/-- Signatures: how one is read from a text, and the address that signed a message with it. -/
structure Signatures (Signature : Type) where
  parse : String → Option Signature
  recoverAddressFromMsg : Signature → String → Option Address

/-- What the tunnel server is asking about. -/
inductive Op where
  | login
  | newProxy (remotePort : Nat) (name : String)
  deriving DecidableEq, Repr

/-- The proxy name for an assigned port. -/
def proxyName (remotePort : Nat) : String :=
  "node-rpc-" ++ Nat.repr remotePort

/-- Why a client is turned away. -/
inductive Rejection where
  | agreementNotAKey
  | tokenNotASignature
  | noAgreement (key : EntityKey)
  /-- The signer is not the agreement's provider. -/
  | wrongSigner
  | wrongPort (requested assigned : Nat)
  | wrongName (requested expected : String)
  deriving DecidableEq, Repr

/-- What the client's operator reads, texts quoted the way debug output quotes them. -/
def Rejection.text (debug : String → String) : Rejection → String
  | agreementNotAKey => "agreement id is not an entity key"
  | tokenNotASignature => "token is not a signature"
  | noAgreement key => "no agreement " ++ Codec.hexText 64 key.toNat
  | wrongSigner => "signature was not made by the agreement's provider over this agreement id"
  | wrongPort requested assigned =>
      "port " ++ Nat.repr requested ++ " requested, agreement assigns " ++ Nat.repr assigned
  | wrongName requested expected =>
      "proxy name " ++ debug requested ++ " is not this agreement's; set name = " ++
        debug expected ++ " in frpc.toml"

/-- The message a provider signs for its token. -/
def tokenMessage (agreement : EntityKey) : String :=
  "arkiv-rpc:" ++ Codec.hexText 64 agreement.toNat

/-- What the client carries. -/
structure Token (Signature : Type) where
  agreement : EntityKey
  signature : Signature

section Admission

variable {Signature : Type} (signatures : Signatures Signature)

/-- The client's token, the agreement's id read first. -/
def Token.parse (agreement token : Option String) : Except Rejection (Token Signature) :=
  match agreement.bind (Codec.parseFixed 64) with
  | none => .error .agreementNotAKey
  | some key =>
      match token.bind signatures.parse with
      | none => .error .tokenNotASignature
      | some signature =>
          .ok
            { agreement := BitVec.ofNat 256 key
              signature := signature }

/-- Whether to admit the client, given its token and the live agreement under the token's key. -/
def decideAdmission (op : Op) (token : Token Signature) (agreement : Option (Stored Agreement)) :
    Except Rejection Unit :=
  match agreement with
  | none => .error (.noAgreement token.agreement)
  | some stored =>
      match signatures.recoverAddressFromMsg token.signature (tokenMessage token.agreement) with
      | none => .error .tokenNotASignature
      | some signer =>
          if signer ≠ stored.record.provider then .error .wrongSigner
          else
            match op with
            | .login => .ok ()
            | .newProxy remotePort name =>
                if remotePort ≠ stored.record.remotePort then
                  .error (.wrongPort remotePort stored.record.remotePort)
                else if name ≠ proxyName stored.record.remotePort then
                  .error (.wrongName name (proxyName stored.record.remotePort))
                else .ok ()

/-- The tunnel server's callback: what the client carries, for a login or a registration. -/
structure Callback where
  op : Op
  agreement : Option String
  token : Option String
  deriving DecidableEq, Repr

/-- The answer to a callback, from the agreements in memory: the agreement it is let in for. -/
def Agent.admission (agent : Agent) (callback : Callback) : Except Rejection (Stored Agreement) :=
  match Token.parse signatures callback.agreement callback.token with
  | .error rejection => .error rejection
  | .ok token =>
      let stored := (agent.agreements.get? token.agreement).map (·.agreement)
      match decideAdmission signatures callback.op token stored, stored with
      | .error rejection, _ => .error rejection
      | .ok (), some stored => .ok stored
      -- Not reached: what is admitted was found.
      | .ok (), none => .error (.noAgreement token.agreement)

/-- What the client carries claims an agreement, signed by its provider. -/
def Callback.Claims (callback : Callback) (stored : Stored Agreement) : Prop :=
  ∃ signature, Token.parse signatures callback.agreement callback.token =
      .ok
        { agreement := stored.key
          signature := signature } ∧
    signatures.recoverAddressFromMsg signature (tokenMessage stored.key) =
      some stored.record.provider

/-- The address that signed the claim a client carries. -/
def Callback.signer (callback : Callback) : Option Address :=
  match Token.parse signatures callback.agreement callback.token with
  | .error _ => none
  | .ok token =>
      signatures.recoverAddressFromMsg token.signature (tokenMessage token.agreement)

variable {signatures}

theorem Callback.Claims.signer {callback : Callback} {stored : Stored Agreement}
    (claims : callback.Claims signatures stored) :
    callback.signer signatures = some stored.record.provider := by
  obtain ⟨signature, parsed, signed⟩ := claims
  simp [Callback.signer, parsed, signed]

/-- Who is let in has the live agreement's provider as signer, and its port. -/
theorem decideAdmission_ok {op : Op} {token : Token Signature}
    {agreement : Option (Stored Agreement)}
    (lets : decideAdmission signatures op token agreement = .ok ()) :
    ∃ stored, agreement = some stored ∧
      signatures.recoverAddressFromMsg token.signature (tokenMessage token.agreement) =
        some stored.record.provider ∧
      ∀ remotePort name, op = .newProxy remotePort name →
        remotePort = stored.record.remotePort ∧ name = proxyName stored.record.remotePort := by
  cases agreement with
  | none => cases lets
  | some stored =>
      simp only [decideAdmission] at lets
      split at lets
      · cases lets
      next signer recovered =>
        split at lets
        · cases lets
        next signed =>
          have same : signer = stored.record.provider := not_not.mp signed
          refine ⟨stored, rfl, recovered.trans (congrArg some same), ?_⟩
          rintro remotePort name rfl
          dsimp only at lets
          split at lets
          · cases lets
          next samePort =>
            split at lets
            · cases lets
            next sameName => exact ⟨not_not.mp samePort, not_not.mp sameName⟩

/-- What is admitted is an agreement in memory, claimed by its provider, at its own port. -/
theorem Agent.admission_ok {agent : Agent} {callback : Callback} {stored : Stored Agreement}
    (admitted : agent.admission signatures callback = .ok stored) :
    (∃ handle, agent.stands stored.key = some (stored, handle)) ∧
      callback.Claims signatures stored ∧
      ∀ remotePort name, callback.op = .newProxy remotePort name →
        remotePort = stored.record.remotePort ∧ name = proxyName stored.record.remotePort := by
  simp only [admission] at admitted
  split at admitted
  · cases admitted
  next token parsed =>
    split at admitted
    · cases admitted
    · next found lets isFound =>
        cases admitted
        obtain ⟨held, isHeld, signed, registers⟩ := decideAdmission_ok lets
        obtain rfl : held = stored := Option.some.inj (isHeld.symm.trans isFound)
        obtain ⟨live, inMemory, rfl⟩ := Option.map_eq_some_iff.mp isFound
        have keyed : live.agreement.key = token.agreement := (Keyed.get?_eq_some.mp inMemory).2
        refine ⟨⟨live.provider, ?_⟩, ⟨token.signature, ?_, ?_⟩, registers⟩
        · rw [keyed, Agent.stands, inMemory]
          rfl
        · rw [parsed, keyed]
        · rw [keyed, signed]
    · cases admitted

end Admission

namespace State

variable {urls : Urls} {sidecar : Identity} {start finish : State} {events : List Event}

/-- A tunnel is its provider's.  Whatever happened since the LB's first start, a client is let in
only for an agreement that this LB wrote on the chain, by a signature of that agreement's provider,
and registers only that agreement's port under the name for it; and whatever claims one signer
makes, it is let in for one agreement, and so at one port. -/
theorem tunnels_are_their_providers {Signature : Type} (signatures : Signatures Signature)
    (origin : start.Origin) (ran : (world urls sidecar).run start events = some finish)
    {process : Process} (isThere : finish.process = some process) :
    (∀ callback stored, process.agent.admission signatures callback = .ok stored →
      (∃ row, finish.chain.entities.get? stored.key = some row ∧ row.creator = sidecar.address ∧
        row.record.asAgreement = some stored.record) ∧
      callback.Claims signatures stored ∧
      ∀ remotePort name, callback.op = .newProxy remotePort name →
        remotePort = stored.record.remotePort ∧ name = proxyName stored.record.remotePort) ∧
    ∀ first second stored stored', process.agent.admission signatures first = .ok stored →
      process.agent.admission signatures second = .ok stored' →
        first.signer signatures = second.signer signatures → stored = stored' := by
  have housed : finish.Housed sidecar.address :=
    Machine.run_preserves (fun _ _ _ housed stepped => housed.step stepped)
      (origin.housed sidecar.address) ran
  have agent := housed.agent process isThere
  constructor
  · intro callback stored admitted
    obtain ⟨⟨handle, stands⟩, claims, registers⟩ := Agent.admission_ok admitted
    exact ⟨agent.row stored.key stored handle stands, claims, registers⟩
  · intro first second stored stored' admitted admitted' sameSigner
    obtain ⟨⟨handle, stands⟩, claims, -⟩ := Agent.admission_ok admitted
    obtain ⟨⟨handle', stands'⟩, claims', -⟩ := Agent.admission_ok admitted'
    have sameProvider : stored.record.provider = stored'.record.provider :=
      Option.some.inj (claims.signer.symm.trans (sameSigner.trans claims'.signer))
    have sameKey := agent.alone _ _ _ _ _ _ stands stands' sameProvider
    rw [sameKey, stands'] at stands
    exact (Prod.mk.inj (Option.some.inj stands)).1.symm

/-- The provider's signature over the claim to its agreement. -/
def oneSignature : Signatures String where
  parse := some
  recoverAddressFromMsg := fun signature message =>
    if signature = "signed" ∧ message = tokenMessage 200 then some 33 else none

/-- The registration of the provider's own port. -/
def ownPort : Callback where
  op := .newProxy 20000 (proxyName 20000)
  agreement := some (Codec.hexText 64 200)
  token := some "signed"

theorem tunnels_are_their_providers_small : ∃ finish process,
    (world plainUrls smallSidecar).run emptyWorld (beginning ++ serving) = some finish ∧
      finish.process = some process ∧ ∃ stored,
        process.agent.admission oneSignature ownPort = .ok stored ∧
          ∃ row, finish.chain.entities.get? stored.key = some row ∧
            row.creator = smallSidecar.address := by
  have ran : ((world plainUrls smallSidecar).run emptyWorld (beginning ++ serving)).any
      (fun finish => finish.process.any fun process =>
        (process.agent.admission oneSignature ownPort).toBool) = true := by
    decide +kernel
  obtain ⟨finish, reached, lets⟩ := (Option.any_eq_true _ _).mp ran
  obtain ⟨process, isThere, admits⟩ := (Option.any_eq_true _ _).mp lets
  cases admitted : process.agent.admission oneSignature ownPort with
  | error rejection => simp [admitted, Except.toBool] at admits
  | ok stored =>
      obtain ⟨⟨row, found, creator, -⟩, -, -⟩ :=
        (tunnels_are_their_providers oneSignature emptyWorld_origin reached isThere).1 ownPort
          stored admitted
      exact ⟨finish, process, reached, isThere, stored, admitted, row, found, creator⟩

end State
end CommunityLb
