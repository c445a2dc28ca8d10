import CommunityLb.Config
import CommunityLb.Lib.Digits

/-!
# The provider pool

An entry is shared by reference: the pool's membership and the agreements name entries by their
handle, and a request in flight keeps the one it holds.
-/

namespace CommunityLb

/-- A handle of a shared entry. -/
abbrev Handle := Nat

/-- How a provider entered the pool. -/
inductive Source where
  /-- Listed in the configuration. -/
  | static
  /-- Accepted from the marketplace. -/
  | marketplace (address : Address) (agreementId : EntityKey) (port : Nat)
  deriving DecidableEq, Repr

/-- A provider's entry. -/
structure Provider where
  id : String
  url : String
  source : Source
  /-- The two gates as one byte, a bit per gate, set while that gate lets the provider through. -/
  eligibility : BitVec 8
  /-- Completed forwards in the current settlement period. -/
  served : Nat
  /-- Completed forwards since the entry was made, never reset. -/
  servedTotal : Nat
  deriving DecidableEq, Repr

/-- The gates on eligibility. -/
inductive Gate where
  | health
  | integrity
  deriving DecidableEq, Repr

/-- A gate's bit in the eligibility byte. -/
def Gate.bit : Gate → BitVec 8
  | health => 1
  | integrity => 2

/-- Both bits set: eligible. -/
def ALL_GATES : BitVec 8 :=
  Gate.health.bit ||| Gate.integrity.bit

/-- A marketplace provider's id in the pool: its address, lowercase. -/
def marketplaceId (address : Address) : String :=
  "0x" ++ String.ofList (hexDigits 40 address.toNat)

/-- An id tells the address it is made of. -/
theorem marketplaceId_injective {first second : Address}
    (same : marketplaceId first = marketplaceId second) : first = second := by
  have digits : hexDigits 40 first.toNat = hexDigits 40 second.toNat := by
    have lists := congrArg String.toList same
    simpa [marketplaceId] using lists
  have bound : ∀ address : Address, address.toNat < 16 ^ 40 := fun address => address.isLt
  exact BitVec.eq_of_toNat_eq (hexDigits_injective (bound first) (bound second) digits)

namespace Provider

/-- An entry as it is born: the integrity gate open, the health gate closed. -/
def new (id url : String) (source : Source) : Provider where
  id := id
  url := url
  source := source
  eligibility := Gate.integrity.bit
  served := 0
  servedTotal := 0

/-- A provider of the configuration. -/
def fromConfig (provider : StaticProvider) : Provider :=
  new provider.id provider.url .static

/-- A marketplace provider, reached through its tunnel port on the loopback. -/
def fromMarketplace (address : Address) (agreementId : EntityKey) (port : Nat) : Provider :=
  new (marketplaceId address) ("http://127.0.0.1:" ++ toString port)
    (.marketplace address agreementId port)

/-- The agreement record's key of a marketplace provider. -/
def agreementId (provider : Provider) : Option EntityKey :=
  match provider.source with
  | .static => none
  | .marketplace _ agreementId _ => some agreementId

/-- One completed forward. -/
def recordServed (provider : Provider) : Provider :=
  { provider with
    served := provider.served + 1
    servedTotal := provider.servedTotal + 1 }

/-- The period just written and closed leaves the entry. -/
def subtractServed (provider : Provider) (count : Nat) : Provider :=
  { provider with served := provider.served - count }

/-- What this period already counted on the chain joins the entry. -/
def seedServed (provider : Provider) (count : Nat) : Provider :=
  { provider with served := provider.served + count }

/-- In rotation: both gates let it through. -/
def eligible (provider : Provider) : Bool :=
  provider.eligibility = ALL_GATES

/-- The probes pass. -/
def healthy (provider : Provider) : Bool :=
  provider.eligibility &&& Gate.health.bit ≠ 0

/-- Found serving data that is not the chain's, and no passing round since. -/
def servingWrongData (provider : Provider) : Bool :=
  provider.eligibility &&& Gate.integrity.bit = 0

/-- One gate's bit set to a value. -/
def setEligibility (provider : Provider) (gate : Gate) (value : Bool) : Provider :=
  { provider with
    eligibility :=
      if value then provider.eligibility ||| gate.bit else provider.eligibility &&& ~~~gate.bit }

end Provider

/-- The entries made so far, by handle, and the members of the pool in order. -/
structure Pool where
  entries : List Provider
  members : List Handle
  deriving DecidableEq, Repr

namespace Pool

/-- The pool at the start: the configuration's providers. -/
def new (providers : List StaticProvider) : Pool where
  entries := providers.map Provider.fromConfig
  members := List.range providers.length

/-- The entry behind a handle. -/
def entryAt (pool : Pool) (handle : Handle) : Option Provider :=
  pool.entries[handle]?

/-- Adds a provider; its handle is the new entry's. -/
def add (pool : Pool) (provider : Provider) : Pool where
  entries := pool.entries ++ [provider]
  members := pool.members ++ [pool.entries.length]

/-- The member's entry has this id. -/
def named (pool : Pool) (id : String) (handle : Handle) : Bool :=
  (pool.entryAt handle).any (·.id = id)

/-- The first member with this id, while there is one. -/
def get (pool : Pool) (id : String) : Option Handle :=
  pool.members.find? (pool.named id)

/-- Removes the first member with this id. -/
def remove (pool : Pool) (id : String) : Pool :=
  { pool with members := pool.members.eraseP (pool.named id) }

/-- One entry changed where it stands. -/
def modify (pool : Pool) (handle : Handle) (change : Provider → Provider) : Pool :=
  { pool with entries := pool.entries.modify handle change }

/-- The completed forwards an entry holds for its current period. -/
def served (pool : Pool) (handle : Handle) : Nat :=
  ((pool.entryAt handle).map (·.served)).getD 0

/-- The completed forwards an entry holds since it was made. -/
def servedTotal (pool : Pool) (handle : Handle) : Nat :=
  ((pool.entryAt handle).map (·.servedTotal)).getD 0

@[simp]
theorem entryAt_remove (pool : Pool) (id : String) (handle : Handle) :
    (pool.remove id).entryAt handle = pool.entryAt handle :=
  rfl

theorem entryAt_modify (pool : Pool) (handle other : Handle) (change : Provider → Provider) :
    (pool.modify handle change).entryAt other =
      if handle = other then (pool.entryAt other).map change else pool.entryAt other := by
  simp only [entryAt, modify, List.getElem?_modify]
  split <;> simp

theorem entryAt_add_of_some {pool : Pool} {handle : Handle} {provider : Provider} (added : Provider)
    (found : pool.entryAt handle = some provider) :
    (pool.add added).entryAt handle = some provider := by
  have inside : handle < pool.entries.length := (List.getElem?_eq_some_iff.mp found).1
  rw [entryAt, add, List.getElem?_append_left inside]
  exact found

@[simp]
theorem entryAt_add_new (pool : Pool) (added : Provider) :
    (pool.add added).entryAt pool.entries.length = some added := by
  simp [entryAt, add]

theorem served_modify (pool : Pool) (handle other : Handle) (change : Provider → Provider) :
    (pool.modify handle change).served other =
      if handle = other then ((pool.entryAt other).map fun provider => (change provider).served).getD 0
      else pool.served other := by
  simp only [served, entryAt_modify]
  split
  · cases pool.entryAt other <;> rfl
  · rfl

theorem servedTotal_modify (pool : Pool) (handle other : Handle) (change : Provider → Provider) :
    (pool.modify handle change).servedTotal other =
      if handle = other then
        ((pool.entryAt other).map fun provider => (change provider).servedTotal).getD 0
      else pool.servedTotal other := by
  simp only [servedTotal, entryAt_modify]
  split
  · cases pool.entryAt other <;> rfl
  · rfl

end Pool

end CommunityLb
