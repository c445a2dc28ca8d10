import CommunityLb.Marketplace.Expiry

/-!
# What a refresh leaves out

A refresh leaves out the agreements memory shows expired.  It does not learn from its own answer: memory
is told an expiry by a page of agreement records, and by the answer of an extend at admission.
-/

namespace CommunityLb

/-- The expiry a row has. -/
def Chain.expiryOf (chain : Chain) (key : EntityKey) : Option Nat :=
  (chain.entities.get? key).map (·.expiresAt)

namespace Agent

/-- An eligible provider's agreement that memory shows expired. -/
def leavesOut (agent : Agent) (head : Nat) (live : Live) : Bool :=
  (agent.pool.entryAt live.provider).any (·.eligible) && live.agreement.expiresAt ≤ head

/-- What a refresh leaves out, and why. -/
theorem refreshOf_none {agent : Agent} {head : Nat} {live : Live} :
    agent.refreshOf (some head) live = none ↔
      (agent.pool.entryAt live.provider).any (·.eligible) = false ∨
        agent.leavesOut head live = true ∨
          expiresLater (some head) live.agreement.expiresAt agent.config.agreementLife = true := by
  rw [refreshOf, leavesOut]
  cases (agent.pool.entryAt live.provider).any (·.eligible) with
  | false => simp
  | true =>
      by_cases expired : live.agreement.expiresAt ≤ head
      · simp [expired]
      · cases expiresLater (some head) live.agreement.expiresAt agent.config.agreementLife <;>
          simp [expired]

end Agent

namespace State

/-- A refresh reads the head next. -/
def refreshes (process : Process) : Bool :=
  match process.task with
  | .refreshHead => true
  | _ => false

/-- What a refresh leaves out as expired has expired on the chain. -/
def LeavesOutExpired (state : State) : Event → Prop
  | .read _ _ => ∀ process ∈ state.process, refreshes process →
      ∀ live ∈ process.agent.agreements.values, process.agent.leavesOut state.chain.head live →
        ∃ expiresAt ∈ state.chain.expiryOf live.key, expiresAt ≤ state.chain.head
  | _ => True

instance (state : State) : (event : Event) → Decidable (state.LeavesOutExpired event)
  | .read _ _ => by unfold LeavesOutExpired; infer_instance
  | .sealBlocks _ _ | .catchUp _ | .post _ | .withdraw _ | .launch _ | .crash | .serve _
  | .gate _ _ _ | .admitted _ | .admission _ _ | .learn _ | .endAdmission _ | .tick _ | .unread
  | .countServed _ | .portLooked _ | .write _ => isTrue trivial

/-! ## What memory is told -/

/-- What an event tells memory of a row's expiry, when it tells of the row. -/
def tells (state : State) (key : EntityKey) : Event → Option (Option Nat)
  | .read _ _ =>
      if state.process.any (·.task.pageHead.isSome) then some (state.view.expiryOf key) else none
  | .learn index =>
      match state.process.bind (·.agent.admissions[index]?) with
      | some task => if task.agreement = key then some task.answer else none
      | none => none
  | _ => none

/-- The expiries that rows were moved to and memory was not told of. -/
abbrev Missed := EntityKey → Option Nat

/-- One step: a row whose expiry moved is missed, until memory is told the expiry it has. -/
def nowMissed (before : Missed) (state : State) (event : Event) (next : State) : Missed := fun key =>
  match state.tells key event with
  | some told =>
      if told = next.chain.expiryOf key then none else next.chain.expiryOf key
  | none =>
      if (state.chain.expiryOf key).isSome ∧ next.chain.expiryOf key ≠ state.chain.expiryOf key then
        next.chain.expiryOf key
      else before key

/-- No eligible provider's agreement that memory shows expired was moved past the head, unless memory
was told. -/
def MissesNone (both : State × Missed) : Event → Prop
  | .read _ _ => ∀ process ∈ both.1.process, refreshes process →
      ∀ live ∈ process.agent.agreements.values,
        process.agent.leavesOut both.1.chain.head live →
          ∀ expiresAt ∈ both.2 live.key, expiresAt ≤ both.1.chain.head
  | _ => True

instance (both : State × Missed) : (event : Event) → Decidable (MissesNone both event)
  | .read _ _ => by unfold MissesNone; infer_instance
  | .sealBlocks _ _ | .catchUp _ | .post _ | .withdraw _ | .launch _ | .crash | .serve _
  | .gate _ _ _ | .admitted _ | .admission _ _ | .learn _ | .endAdmission _ | .tick _ | .unread
  | .countServed _ | .portLooked _ | .write _ => isTrue trivial

/-- What memory was told of is as the chain has it. -/
structure Told (both : State × Missed) : Prop where
  abreast : both.1.Abreast
  missed : ∀ key expiresAt, both.2 key = some expiresAt →
    both.1.chain.expiryOf key = some expiresAt
  known : ∀ process ∈ both.1.process, ∀ key stored handle,
    process.agent.stands key = some (stored, handle) → both.2 key = none →
      both.1.chain.expiryOf key = some stored.expiresAt

variable {urls : Urls} {sidecar : Identity} {state next : State}

/-- Memory takes over what it is told. -/
theorem step_tells {event : Event} (stepped : state.step urls sidecar event = some next)
    {process : Process} (isThere : next.process = some process) {key : EntityKey}
    {stored : Stored Agreement} {handle : Handle}
    (stands : process.agent.stands key = some (stored, handle)) {told : Option Nat}
    (tells : state.tells key event = some told) : told = some stored.expiresAt := by
  cases event with
  | read shown order =>
      simp only [State.tells, Option.ite_none_right_eq_some, Option.some.injEq] at tells
      obtain ⟨awaits, rfl⟩ := tells
      obtain ⟨before, was, awaits⟩ := (Option.any_eq_true _ _).mp awaits
      obtain ⟨head, awaits⟩ := Option.isSome_iff_exists.mp awaits
      obtain ⟨work, rows, task, page, rfl⟩ := readAnswered_page was awaits stepped
      cases isThere
      obtain ⟨row, inRows, _, rfl, _, _, expires, _⟩ :=
        Process.reconcileAgreements_stands (Chain.page_distinct page) stands
      have found := Keyed.get?_key (Chain.page_mem page inRows).1
      rw [Chain.expiryOf, found, expires]
      rfl
  | learn index =>
      obtain ⟨after, changed, rfl⟩ := Option.map_eq_some_iff.mp stepped
      obtain ⟨before, was, changes⟩ := Option.bind_eq_some_iff.mp changed
      simp only [admissionAnswered, Option.bind_eq_bind, Option.bind_eq_some_iff] at changes
      obtain ⟨task, runs, expiresAt, answer, changes⟩ := changes
      simp only [State.tells, was, Option.bind_some, runs] at tells
      split at tells
      · next same =>
          cases tells
          subst same
          cases changes
          cases isThere
          have stands : (before.agent.learnExpiry task.agreement expiresAt).stands task.agreement =
            some (stored, handle) := stands
          rw [stands_learnExpiry, if_pos rfl] at stands
          obtain ⟨held, _, same⟩ := Option.map_eq_some_iff.mp stands
          cases same
          exact answer
      · cases tells
  | _ => cases tells

/-- What memory is not told of it has from before, or from an acceptance. -/
theorem step_untold {event : Event} (stepped : state.step urls sidecar event = some next)
    {process : Process} (isThere : next.process = some process) {key : EntityKey}
    {stored : Stored Agreement} {handle : Handle}
    (stands : process.agent.stands key = some (stored, handle))
    (untold : state.tells key event = none) :
    (∃ before, state.process = some before ∧ before.agent.stands key = some (stored, handle)) ∨
      state.chain.expiryOf key = none ∧ next.chain.expiryOf key = some stored.expiresAt := by
  cases step_turn stepped with
  | off gone =>
      rw [gone] at isThere
      cases isThere
  | launch given now =>
      cases now.symm.trans isThere
      cases stands
  | @retains _ before after was now retains =>
      cases now.symm.trans isThere
      exact .inl ⟨before, was, retains.stands key ▸ stands⟩
  | page was task page now chain =>
      simp [State.tells, was, task, Task.pageHead] at untold
  | @accept before discovery offer port created fates keys was task later free row now =>
      cases now.symm.trans isThere
      rw [Agent.stands_insertAgreement] at stands
      split at stands
      · next same =>
          have same : key = created := same
          subst same
          cases stands
          exact .inr ⟨by rw [Chain.expiryOf, free]; rfl, by rw [Chain.expiryOf, row]; rfl⟩
      · exact .inl ⟨before, was, stands⟩
  | @extend before index task row fates keys was runs isRow expires now =>
      cases now.symm.trans isThere
      exact .inl ⟨before, was, stands⟩
  | @learn before index task expiresAt was runs answer now chain =>
      cases now.symm.trans isThere
      simp only [State.tells, was, Option.bind_some, runs] at untold
      split at untold
      · cases untold
      · next differs =>
          have stands : (before.agent.learnExpiry task.agreement expiresAt).stands key =
            some (stored, handle) := stands
          rw [stands_learnExpiry, if_neg (fun same => differs same.symm)] at stands
          exact .inl ⟨before, was, stands⟩

theorem Told.step {before : Missed} {event : Event} (told : Told (state, before))
    (stepped : state.step urls sidecar event = some next) :
    Told (next, nowMissed before state event next) := by
  have abreast := told.abreast.step stepped
  refine ⟨abreast, fun key expiresAt isMissed => ?_,
    fun process isThere key stored handle stands notMissed => ?_⟩
  · simp only [nowMissed] at isMissed
    split at isMissed
    · split at isMissed
      · cases isMissed
      · exact isMissed
    · split at isMissed
      · exact isMissed
      · next still =>
          have was := told.missed key expiresAt isMissed
          have same : next.chain.expiryOf key = state.chain.expiryOf key := by
            by_contra moved
            exact still ⟨by rw [was]; rfl, moved⟩
          exact same.trans was
  · have isRow : next.chain.expiryOf key ≠ none := by
      obtain ⟨row, backs⟩ := abreast.known process isThere key stored handle stands
      simp [Chain.expiryOf, backs.found]
    simp only [nowMissed] at notMissed
    split at notMissed
    · next tells =>
        obtain rfl := step_tells stepped isThere stands tells
        split at notMissed
        · next same => exact same.symm
        · exact absurd notMissed isRow
    · next untold =>
        split at notMissed
        · exact absurd notMissed isRow
        · next still =>
            rcases step_untold stepped isThere stands untold with
              ⟨process, was, stood⟩ | ⟨_, now⟩
            · have known := told.known process was key stored handle stood notMissed
              have same : next.chain.expiryOf key = state.chain.expiryOf key := by
                by_contra moved
                exact still ⟨by rw [known]; rfl, moved⟩
              exact same.trans known
            · exact now

/-- What is left out as expired has expired, exactly when no later expiry of it was missed. -/
theorem Told.leavesOut {before : Missed} (told : Told (state, before)) (event : Event) :
    state.LeavesOutExpired event ↔ MissesNone (state, before) event := by
  cases event with
  | read shown order =>
      refine forall₂_congr fun process isThere => forall_congr' fun _ => forall₂_congr fun live member =>
        forall_congr' fun out => ?_
      have stands : process.agent.stands live.key = some (live.agreement, live.provider) :=
        Agent.stands_eq_some.mpr ⟨live, member, rfl, rfl, rfl⟩
      cases isMissed : before live.key with
      | none =>
          have known := told.known process isThere _ _ _ stands isMissed
          have expired : live.agreement.expiresAt ≤ state.chain.head := by
            simp only [Agent.leavesOut, Bool.and_eq_true, decide_eq_true_eq] at out
            exact out.2
          simp [known, expired, isMissed]
      | some expiresAt =>
          have known := told.missed live.key expiresAt isMissed
          simp [known, isMissed]
  | _ => exact Iff.rfl

/-- What every refresh of a run leaves out as expired has expired, exactly when at every refresh no
agreement that memory shows expired was moved past the head without memory being told. -/
theorem leavesOutExpired_iff {start : State} (origin : start.Origin) (events : List Event) :
    (world urls sidecar).Meets LeavesOutExpired start events ↔
      ((world urls sidecar).watched nowMissed).Meets MissesNone (start, fun _ => none) events := by
  have initial : Told (start, fun _ => none) :=
    ⟨origin.abreast, by simp, by simp [origin.process]⟩
  have preserved : ∀ (both : State × Missed) (event : Event) (next : State × Missed), Told both →
      ((world urls sidecar).watched nowMissed).step both event = some next → Told next := by
    intro both event next told stepped
    obtain ⟨after, ran, rfl⟩ := Option.map_eq_some_iff.mp stepped
    exact Told.step told ran
  have watched := Machine.meets_watched (world urls sidecar) nowMissed LeavesOutExpired
    (start, fun _ => none) events
  exact watched.symm.trans
    (Machine.meets_congr preserved (fun both event told => Told.leavesOut told event) initial events)

/-- A section that refreshes every 550 blocks, to a life of 1000. -/
def hourlySection : Marketplace :=
  { smallSection with
    discoveryInterval := Duration.fromSecs 300
    refreshInterval := Duration.fromSecs 1100 }

/-- An accepted provider turns healthy, its agreement is extended, and so it is by the next
refresh. -/
def extendThenRefresh : List Event :=
  [.gate 0 .health true, .admitted 200, .admission 0 (.landed [] [400]), .learn 0,
    .sealBlocks 545 [], .catchUp 2, .tick .refresh, answered, answered,
    .write (.landed [] [500, 501])]

/-- A poll that reads the agreement, and nothing else, before the next refresh. -/
def pollThenRefresh : List Event :=
  [.catchUp 1, .sealBlocks 450 [], .tick .poll, answered, answered, .read [200] [], .unread, .unread,
    .sealBlocks 97 [], .tick .refresh, answered, answered]

/-- Polls that read the head and nothing else, before the next refresh. -/
def failedPolls : List Event :=
  [.sealBlocks 150 [], .tick .poll, answered, .unread,
    .sealBlocks 150 [], .tick .poll, answered, .unread,
    .sealBlocks 150 [], .tick .poll, answered, .unread,
    .sealBlocks 95 [], .tick .refresh, answered, answered]

theorem leavesOutExpired_small :
    (world plainUrls smallSidecar).Meets LeavesOutExpired emptyWorld
      (startUp hourlySection ++ acceptance ++ extendThenRefresh ++ pollThenRefresh) :=
  (leavesOutExpired_iff emptyWorld_origin _).mpr (by decide +kernel)

/-- After a refresh whose expiry no poll learned, the next refresh leaves a live record out. -/
theorem stale_memory_drops_provider :
    ¬ ∀ (urls : Urls) (sidecar : Identity) (start : State) (events : List Event), start.Origin →
      (world urls sidecar).Meets LeavesOutExpired start events := by
  intro claim
  have claimed := claim plainUrls smallSidecar emptyWorld
    (startUp hourlySection ++ acceptance ++ extendThenRefresh ++ failedPolls) emptyWorld_origin
  revert claimed
  decide +kernel

end State

end CommunityLb
