import CommunityLb.Marketplace.Projection
import CommunityLb.Marketplace.Effect

/-!
# Blocks as one agreement's account sees them

What a sealed block, a batch that lands in it and a batch that is lost do to the account.
-/

namespace CommunityLb

namespace State

variable {me : Address} {agreement : EntityKey} {state next : State} {process : Process}
  {ok : Label → Account → Prop}

/-- The account of an agreement under a process. -/
def accountOf (me : Address) (agreement : EntityKey) (state : State) (process : Process) : Account :=
  state.accountWith me agreement (process.task.desk me state.chain agreement process.agent)
    (process.agent.held agreement)

theorem account_of (me : Address) (agreement : EntityKey) (runs : state.process = some process) :
    state.account me agreement = state.accountOf me agreement process := by
  simp only [account, accountOf, desk, held, runs, Option.bind_some]

theorem account_off (off : state.process = none) :
    state.account me agreement = state.accountWith me agreement .clear none := by
  simp only [account, desk, held, off, Option.bind_none]

/-- What an account mentions is of entities of the chain. -/
theorem Grounded.knownWith (grounded : state.Grounded me) (agreement : EntityKey) {desk : Desk}
    {held : Option Held}
    (atHand : ∀ key ∈ desk.mentions, (state.chain.entities.get? key).isSome)
    (inMemory : ∀ key ∈ held.bind (·.counter), (state.chain.entities.get? key).isSome) :
    (state.accountWith me agreement desk held).Known state.chain where
  rows _ member := Account.counters_known member
  seen := by
    intro rows isSeen row member
    obtain ⟨earlier, isEarlier, rfl⟩ := List.mem_map.mp isSeen
    exact (grounded.behind earlier isEarlier).known _ (Account.counters_known member)
  sent := fun _ member _ target => writesOf_known member target
  desk := atHand
  held := inMemory

theorem Grounded.held_known (grounded : state.Grounded me) (runs : state.process = some process)
    {key : EntityKey} (counts : key ∈ (process.agent.held agreement).bind (·.counter)) :
    (state.chain.entities.get? key).isSome := by
  obtain ⟨held, isHeld, counter⟩ := Option.bind_eq_some_iff.mp counts
  obtain ⟨live, found, rfl⟩ := Option.map_eq_some_iff.mp isHeld
  obtain ⟨opened, isOpened, rfl⟩ := Option.map_eq_some_iff.mp counter
  have owned := (grounded.process process runs).agent.owned live (Keyed.get?_eq_some.mp found).1
    opened isOpened
  exact Chain.known_of_owner (by rw [owned]; rfl)

theorem Grounded.known (grounded : state.Grounded me) (agreement : EntityKey)
    (runs : state.process = some process) :
    (state.accountOf me agreement process).Known state.chain :=
  grounded.knownWith agreement
    (fun _ mentioned => Task.desk_known (grounded.process process runs).task mentioned)
    (fun _ counts => grounded.held_known runs counts)

/-! ## Sealing -/

/-- The account while the block at the head is filled. -/
def filling (me : Address) (agreement : EntityKey) (state : State) (dead : Bool) (desk : Desk)
    (held : Option Held) : Account :=
  { state.accountWith me agreement desk held with
    dead := dead
    mining := true }

theorem filling_known (dead : Bool) {desk : Desk} {held : Option Held}
    (known : (state.accountWith me agreement desk held).Known state.chain) :
    (state.filling me agreement dead desk held).Known state.chain :=
  ⟨known.rows, known.seen, known.sent, known.desk, known.held⟩

/-- The block at the head is done. -/
theorem fills (me : Address) (agreement : EntityKey) (state : State) (dead : Bool) (desk : Desk)
    (held : Option Held)
    (stays : dead = true → state.chain.lost agreement = true) :
    Relation.ReflTransGen (Account.Step ok) (state.filling me agreement dead desk held)
      (state.accountWith me agreement desk held) := by
  have done := @Account.blockDone ok (state.filling me agreement dead desk held)
    (state.chain.lost agreement) stays
  exact done

/-- Blocks are sealed, and the first writes in flight land or drop in the last of them. -/
theorem Grounded.seals (grounded : state.Grounded me) {count : Nat} (later : 0 < count)
    {fates : List (Option (List EntityKey))} {chain : Chain} {pending : List Batch}
    (settled : (state.chain.advance count).settle me state.pending fates = some (chain, pending))
    {desk : Desk} {held : Option Held}
    (known : (state.accountWith me agreement desk held).Known state.chain)
    (stays : (state.chain.advance count).counters me agreement =
      state.chain.counters me agreement ∨ ∀ account, ok .expire account) :
    Relation.ReflTransGen (Account.Step ok) (state.accountWith me agreement desk held)
      (({ state.moved chain with pending := pending } : State).filling me agreement
        (state.chain.lost agreement) desk held) := by
  refine (mines later desk held stays).trans ?_
  have grows : state.chain.Grows me (state.chain.advance count) := Chain.advance_grows _ _
  have follows : (state.chain.advance count).Follows me (state.chain.advance count) :=
    ⟨.refl _, grounded.rooted.advance count⟩
  have sane : SaneQueue me (state.chain.advance count) state.pending := grounded.pending.grows grows
  have same : writesOf me (state.chain.advance count) agreement state.pending =
      writesOf me state.chain agreement state.pending := writesOf_grows grounded.pending grows
  have passes : Account.Passes me agreement ok _ _ _ := Account.settles
    (@mined_known _ _ _ count _ _ known) rfl rfl follows rfl sane
    (by rw [same]; exact List.suffix_refl _) settled
  rw [same] at passes
  have finished := follows.settle sane settled
  have suffix := Chain.settle_suffix settled
  have later' : writesOf me chain agreement pending =
      writesOf me (state.chain.advance count) agreement pending :=
    writesOf_grows (fun batch member => sane batch (suffix.subset member)) finished.grows
  have head : chain.head = state.chain.head + count := Chain.settle_head settled
  have reached : ({ state.moved chain with pending := pending } : State).filling me agreement
      (state.chain.lost agreement) desk held =
      (state.mined me agreement count desk held).inFlight ()
        (writesOf me (state.chain.advance count) agreement pending) (chain.counters me agreement) := by
    rw [← later']
    simp only [filling, accountWith, mined, Account.inFlight]
    rw [← head]
    rfl
  rw [reached]
  exact passes.steps

/-! ## A batch that lands -/

/-- A batch lands, and its writes are the next at hand. -/
theorem Grounded.lands (grounded : state.Grounded me) (unsent : state.pending = [])
    {landed : Chain} {batch : Batch} {keys : List EntityKey} {queue : List Batch}
    {close : Option Close} {held : Option Held} {dead : Bool}
    (sane : SaneQueue me state.chain (batch :: queue))
    (lands : state.chain.land me batch keys = some landed)
    (known : (state.accountWith me agreement
      (.writing (writesOf me state.chain agreement (batch :: queue)) close) held).Known
        state.chain) :
    Relation.ReflTransGen (Account.Step ok)
      (state.filling me agreement dead
        (.writing (writesOf me state.chain agreement (batch :: queue)) close) held)
      (({ state with chain := landed } : State).filling me agreement dead
        (.writing (writesOf me landed agreement queue)
          (close.map fun asked =>
            { asked with
              landed := asked.landed ||
                (writesOf me state.chain agreement [batch]).any (Account.answers close) }))
        held) := by
  obtain ⟨length, executed⟩ := Chain.land_eq_some.mp lands
  have operations : (batch.zip keys).map Prod.fst = batch := List.map_fst_zip length.ge
  have follows : state.chain.Follows me state.chain := ⟨.refl _, grounded.rooted⟩
  have here := sane batch List.mem_cons_self
  have others : SaneQueue me state.chain queue :=
    fun other member => sane other (List.mem_cons_of_mem _ member)
  have finished := follows.land here lands
  have whole := Account.writesOf_cons me state.chain agreement batch queue
  have landing : Account.Landing ok me agreement _ _ _ _ := Account.landing_atHand
    (filling_known dead known) rfl rfl (by simp [filling, accountWith, unsent, writesOf])
    rfl
  have part : ((batch.zip keys).map Prod.fst).filterMap
      (Operation.writeFor me state.chain agreement) ++ writesOf me state.chain agreement queue <:+
        writesOf me state.chain agreement (batch :: queue) := by
    rw [operations, whole]
  have passes := landing.executes follows rfl
    (fun pair member => here pair.1 (List.of_mem_zip member).1) executed
    ((close.map (·.landed)).getD false) part
  rw [operations, ← whole] at passes
  have answered : ∀ (writes : List CounterWrite) (noted : Bool),
      writes.foldl (fun noted write => Account.answers close write || noted) noted =
        (noted || writes.any (Account.answers close)) := by
    intro writes
    induction writes with
    | nil => simp
    | cons write writes ih =>
        intro noted
        rw [List.foldl_cons, ih, List.any_cons]
        cases Account.answers close write <;> cases noted <;> rfl
  have single : writesOf me state.chain agreement [batch] =
      batch.filterMap (Operation.writeFor me state.chain agreement) := by
    simp [writesOf]
  have head : landed.head = state.chain.head := Chain.land_head lands
  have sent : ∀ chain : Chain, writesOf me chain agreement ([] : List Batch) = [] := fun _ => rfl
  have from_ : (state.filling me agreement dead
      (.writing (writesOf me state.chain agreement (batch :: queue)) close) held) =
      (state.filling me agreement dead
        (.writing (writesOf me state.chain agreement (batch :: queue)) close) held).atHand close
          ((close.map (·.landed)).getD false)
          (writesOf me state.chain agreement (batch :: queue))
          (state.chain.counters me agreement) := by
    cases close <;> rfl
  have to_ : (({ state with chain := landed } : State).filling me agreement dead
        (.writing (writesOf me landed agreement queue)
          (close.map fun asked =>
            { asked with
              landed := asked.landed ||
                (writesOf me state.chain agreement [batch]).any (Account.answers close) }))
        held) =
      (state.filling me agreement dead
        (.writing (writesOf me state.chain agreement (batch :: queue)) close) held).atHand close
          ((batch.filterMap (Operation.writeFor me state.chain agreement)).foldl
            (fun noted write => Account.answers close write || noted)
            ((close.map (·.landed)).getD false))
          (writesOf me state.chain agreement queue)
          (landed.counters me agreement) := by
    rw [answered, writesOf_grows others finished.grows, single]
    cases close <;> simp [filling, accountWith, Account.atHand, head, unsent, sent]
  rw [from_, to_]
  exact passes.steps

/-- A batch that landed is answered when every write before it has landed or dropped. -/
theorem send_landed_chain {sidecar : Identity} {batch : Batch}
    {fates : List (Option (List EntityKey))} {keys : List EntityKey}
    {result : Except WriteError BatchResult}
    (sent : state.send sidecar batch (.landed fates keys) = some (next, result)) :
    ∃ chain landed, (state.chain.advance 1).settle sidecar.address state.pending fates =
        some (chain, []) ∧ chain.land sidecar.address batch keys = some landed ∧
      next = { state.moved landed with pending := [] } ∧
      result = .ok (BatchResult.of landed.head (batch.zip keys)) := by
  simp only [State.send, Option.bind_eq_bind, Option.bind_eq_some_iff] at sent
  obtain ⟨⟨chain, pending⟩, settled, sent⟩ := sent
  split at sent
  · cases sent
  · next nothing =>
      obtain ⟨landed, lands, sent⟩ := Option.bind_eq_some_iff.mp sent
      cases sent
      obtain rfl : pending = [] := by simpa using nothing
      exact ⟨chain, landed, settled, lands, rfl, rfl⟩

section Sends

variable {sidecar : Identity} {batch : Batch} {fates : List (Option (List EntityKey))}
  {keys : List EntityKey} {result : Except WriteError BatchResult} {held : Option Held}

/-- The chain before a batch lands: every write before it has landed or dropped. -/
theorem Grounded.settled (grounded : state.Grounded me) {chain : Chain}
    (settled : (state.chain.advance 1).settle me state.pending fates = some (chain, [])) :
    ({ state.moved chain with pending := [] } : State).Grounded me :=
  grounded.moved ((grounded.follows 1).settle grounded.pending settled) (by simp [SaneQueue])

/-- A batch at hand is sent and answered as landed. -/
theorem Grounded.sent_landed (grounded : state.Grounded sidecar.address)
    (sent : state.send sidecar batch (.landed fates keys) = some (next, result))
    {queue : List Batch} {close : Option Close}
    (sane : SaneQueue sidecar.address state.chain (batch :: queue))
    (known : (state.accountWith sidecar.address agreement
      (.writing (writesOf sidecar.address state.chain agreement (batch :: queue)) close)
        held).Known state.chain)
    (stays : (state.chain.advance 1).counters sidecar.address agreement =
      state.chain.counters sidecar.address agreement ∨ ∀ account, ok .expire account) :
    Relation.ReflTransGen (Account.Step ok)
      (state.accountWith sidecar.address agreement
        (.writing (writesOf sidecar.address state.chain agreement (batch :: queue)) close) held)
      (next.accountWith sidecar.address agreement
        (.writing (writesOf sidecar.address next.chain agreement queue)
          (close.map fun asked =>
            { asked with
              landed := asked.landed ||
                (writesOf sidecar.address state.chain agreement [batch]).any
                  (Account.answers close) }))
        held) := by
  obtain ⟨chain, landed, settled, lands, rfl, _⟩ := send_landed_chain sent
  have follows := (grounded.follows 1).settle grounded.pending settled
  have before := grounded.settled settled
  have here : SaneQueue sidecar.address chain (batch :: queue) := sane.grows follows.grows
  have same : ∀ queue', SaneQueue sidecar.address state.chain queue' →
      writesOf sidecar.address chain agreement queue' =
        writesOf sidecar.address state.chain agreement queue' :=
    fun _ sane' => writesOf_grows sane' follows.grows
  have one : SaneQueue sidecar.address state.chain [batch] := by
    intro other member
    obtain rfl := List.mem_singleton.mp member
    exact sane other List.mem_cons_self
  have known' : (({ state.moved chain with pending := [] } : State).accountWith sidecar.address
      agreement (.writing (writesOf sidecar.address chain agreement (batch :: queue)) close)
        held).Known chain := by
    rw [same _ sane]
    exact before.knownWith agreement (fun key mentioned => follows.grows.known key (known.desk key mentioned))
      (fun key counts => follows.grows.known key (known.held key counts))
  have landing : Relation.ReflTransGen (Account.Step ok)
      (({ state.moved chain with pending := [] } : State).filling sidecar.address agreement
        (state.chain.lost agreement)
        (.writing (writesOf sidecar.address chain agreement (batch :: queue)) close) held)
      (({ state.moved landed with pending := [] } : State).filling sidecar.address agreement
        (state.chain.lost agreement)
        (.writing (writesOf sidecar.address landed agreement queue)
          (close.map fun asked =>
            { asked with
              landed := asked.landed ||
                (writesOf sidecar.address chain agreement [batch]).any (Account.answers close) }))
        held) :=
    before.lands rfl here lands known'
  have after : chain.Follows sidecar.address landed :=
    (⟨.refl _, follows.rooted⟩ : chain.Follows sidecar.address chain).land
      (here batch List.mem_cons_self) lands
  have filled : Relation.ReflTransGen (Account.Step ok) _ _ := fills sidecar.address agreement
    { state.moved landed with pending := [] } (state.chain.lost agreement)
    (.writing (writesOf sidecar.address landed agreement queue)
      (close.map fun asked =>
        { asked with
          landed := asked.landed ||
            (writesOf sidecar.address chain agreement [batch]).any (Account.answers close) }))
    held (fun gone => after.grows.lost agreement (follows.grows.lost agreement gone))
  have sealing := grounded.seals (by omega : 0 < 1) settled known stays
  rw [same _ sane] at landing
  rw [← same _ one]
  exact sealing.trans (landing.trans filled)

/-- Nothing of the agreement's is in a batch that lands, whatever is at hand. -/
theorem Grounded.sent_aside (grounded : state.Grounded sidecar.address) {key : EntityKey}
    {seconds : Nat} {desk : Desk}
    (sent : state.send sidecar [.extend key seconds] (.landed fates keys) = some (next, result))
    (known : (state.accountWith sidecar.address agreement desk held).Known state.chain)
    (stays : (state.chain.advance 1).counters sidecar.address agreement =
      state.chain.counters sidecar.address agreement ∨ ∀ account, ok .expire account) :
    Relation.ReflTransGen (Account.Step ok) (state.accountWith sidecar.address agreement desk held)
      (next.accountWith sidecar.address agreement desk held) := by
  obtain ⟨chain, landed, settled, lands, rfl, _⟩ := send_landed_chain sent
  have follows := (grounded.follows 1).settle grounded.pending settled
  have before : chain.Follows sidecar.address chain := ⟨.refl _, follows.rooted⟩
  have after := before.land (by simp [Operation.Sane]) lands
  obtain ⟨length, executed⟩ := Chain.land_eq_some.mp lands
  obtain ⟨fresh, rfl⟩ := List.length_eq_one_iff.mp (length : keys.length = 1)
  obtain ⟨middle, operated, done⟩ := Option.bind_eq_some_iff.mp executed
  cases done
  have rows : Chain.landFor chain.head fresh (chain.counters sidecar.address agreement) none =
      some (landed.counters sidecar.address agreement) :=
    Chain.operate_counters (by simp [Operation.Sane]) follows.rooted.gone operated
  have same : chain.counters sidecar.address agreement =
      landed.counters sidecar.address agreement := Option.some.inj rows
  have filled : Relation.ReflTransGen (Account.Step ok) _ _ := fills sidecar.address agreement
    { state.moved landed with pending := [] } (state.chain.lost agreement) desk held (fun gone => after.grows.lost agreement (follows.grows.lost agreement gone))
  have sealing := grounded.seals (by omega : 0 < 1) settled known stays
  have kept : ({ state.moved chain with pending := [] } : State).filling sidecar.address agreement
      (state.chain.lost agreement) desk held =
      ({ state.moved landed with pending := [] } : State).filling sidecar.address agreement
        (state.chain.lost agreement) desk held := by
    have head : landed.head = chain.head := Chain.operate_head operated
    simp only [filling, accountWith, State.moved]
    rw [same, head]
    rfl
  rw [kept] at sealing
  exact sealing.trans filled

end Sends

end State

/-! ## A batch that is lost, or never sent -/

namespace Account

variable {ok : Label → Account → Prop}

/-- The next writes at hand are not answered as landed. -/
theorem fails {account : Account} {writes rest : List CounterWrite} {close : Option Close}
    (lost : Bool) (desk : account.desk = .writing (writes ++ rest) close)
    (allowed : ∀ account, ok (.fail lost) account) :
    Relation.ReflTransGen (Step ok) account
      { account with
        sent := if lost then account.sent ++ writes else account.sent
        desk := .writing rest close } := by
  induction writes generalizing account with
  | nil =>
      have same : ({ account with
          sent := if lost then account.sent ++ [] else account.sent
          desk := .writing rest close } : Account) = account := by
        rw [List.append_nil, ite_self, ← (show account.desk = .writing rest close from desk)]
      rw [same]
  | cons write writes ih =>
      refine .head (.sendFailed lost desk (allowed _)) ?_
      have later := @ih
        { account with
          sent := if lost then account.sent ++ [write] else account.sent
          desk := .writing (writes ++ rest) close } rfl
      cases lost with
      | false => exact later
      | true => simpa using later

end Account

namespace State

variable {me : Address} {agreement : EntityKey} {state next : State} {process : Process}
  {ok : Label → Account → Prop}

/-- A batch at hand is not answered as landed. -/
theorem sent_failed {sidecar : Identity} {batch : Batch} {error : WriteError} {lost : Bool}
    {result : Except WriteError BatchResult} {held : Option Held}
    (sent : state.send sidecar batch (.failed error lost) = some (next, result))
    {queue : List Batch} {close : Option Close} (allowed : ∀ account, ok (.fail lost) account) :
    Relation.ReflTransGen (Account.Step ok)
      (state.accountWith me agreement
        (.writing (writesOf me state.chain agreement (batch :: queue)) close) held)
      (next.accountWith me agreement
        (.writing (writesOf me next.chain agreement queue) close) held) := by
  have desk : (state.accountWith me agreement
      (.writing (writesOf me state.chain agreement (batch :: queue)) close) held).desk =
      .writing (writesOf me state.chain agreement [batch] ++ writesOf me state.chain agreement queue)
        close := by
    rw [← Account.writesOf_append]
    rfl
  have failing := Account.fails lost desk allowed
  simp only [State.send] at sent
  cases lost with
  | false =>
      cases sent
      exact failing
  | true =>
      obtain ⟨_, same⟩ := Option.ite_none_right_eq_some.mp sent
      cases same
      simp only [if_true] at failing
      have grown : ({ state with pending := state.pending ++ [batch] } : State).accountWith me
          agreement (.writing (writesOf me state.chain agreement queue) close) held =
          { state.accountWith me agreement
              (.writing (writesOf me state.chain agreement (batch :: queue)) close) held with
            sent := writesOf me state.chain agreement state.pending ++
              writesOf me state.chain agreement [batch]
            desk := .writing (writesOf me state.chain agreement queue) close } := by
        simp only [accountWith, Account.writesOf_append]
      rw [grown]
      exact failing

/-- Nothing of the agreement's is in a batch that is lost, whatever is at hand. -/
theorem failed_aside {sidecar : Identity} {batch : Batch} {error : WriteError} {lost : Bool}
    {result : Except WriteError BatchResult} {desk : Desk} {held : Option Held}
    (sent : state.send sidecar batch (.failed error lost) = some (next, result))
    (nothing : writesOf me state.chain agreement [batch] = []) :
    next.accountWith me agreement desk held = state.accountWith me agreement desk held := by
  simp only [State.send] at sent
  split at sent
  · obtain ⟨_, same⟩ := Option.ite_none_right_eq_some.mp sent
    cases same
    simp only [accountWith, Account.writesOf_append, nothing, List.append_nil]
  · cases sent
    rfl

end State

end CommunityLb
