import CommunityLb.Stats.Ring
import CommunityLb.Lib.Machine

/-!
# What the buckets count

Ticks, stops and restarts, with providers joining and leaving.  A ring keeps its reading while its
provider is away, so the hour a provider comes back in is counted right only when there is none.
-/

namespace CommunityLb

/-- The entries made so far and the rings, with what the ticks read of each entry. -/
structure Service where
  entries : List Watched
  members : List Handle
  outcomes : LbOutcomes
  stats : Stats
  /-- The rings as they were saved last. -/
  file : Stats
  /-- Each reading of an entry's total so far, newest first. -/
  readings : List (Handle × Nat)

/-- What happens to the counters and to the rings. -/
inductive ServiceEvent where
  | join (provider : Provider) (now : Instant)
  | leave (id : String)
  | serve (handle : Handle) (now : Instant)
  /-- An attempt at a provider that produced no answer. -/
  | miss (handle : Handle)
  /-- The LB answered by itself. -/
  | outcome (outcome : LbOutcome)
  /-- The hour that starts here is over. -/
  | tick (start : Nat)
  /-- The process stops in the hour that starts here. -/
  | stop (start : Nat)
  /-- The next process starts. -/
  | restart

namespace Service

/-- The members' entries. -/
def snapshot (state : Service) : List Watched :=
  state.members.filterMap (state.entries[·]?)

/-- What a tick reads of the members. -/
def reads (state : Service) : List (Handle × Nat) :=
  state.members.filterMap fun handle =>
    state.entries[handle]?.map fun entry => (handle, entry.servedTotal)

/-- A process with its counters at zero. -/
def noOutcomes : LbOutcomes where
  noHealthyProvider := 0
  timedOut := 0
  noProviderAnswered := 0

/-- The rings are another version, which is saved. -/
def save (state : Service) (stats : Stats) : Service :=
  { state with
    stats := stats
    file := stats.saved
    readings := state.reads ++ state.readings }

/-- One event. -/
def step (state : Service) : ServiceEvent → Option Service
  | .join provider now =>
      some
        { state with
          entries := state.entries ++ [Watched.born provider now]
          members := state.members ++ [state.entries.length] }
  | .leave id =>
      some
        { state with
          members := state.members.eraseP fun handle => state.entries[handle]?.any (·.id = id) }
  | .serve handle now =>
      some { state with entries := state.entries.modify handle (·.recordServed now) }
  | .miss handle =>
      some { state with entries := state.entries.modify handle (·.recordTransportFailure) }
  | .outcome outcome => some { state with outcomes := state.outcomes.record outcome }
  | .tick start => some (state.save (state.stats.tick start state.snapshot state.outcomes))
  | .stop start => some (state.save (state.stats.stop start state.snapshot state.outcomes))
  | .restart =>
      some
        { state with
          members := []
          outcomes := noOutcomes
          stats := state.file }

/-- The ticks of a process after another. -/
def machine : Machine Service ServiceEvent where
  step := step

/-- Before the first start. -/
def initial : Service where
  entries := []
  members := []
  outcomes := noOutcomes
  stats := .empty
  file := .empty
  readings := []

/-- The buckets of an id. -/
def bucketsOf (state : Service) (id : String) : List Bucket :=
  (state.stats.ringsOf id).served.buckets

/-- An entry's total at the last tick that saw it. -/
def lastRead (state : Service) (handle : Handle) : Option Nat :=
  (state.readings.find? (·.1 = handle)).map (·.2)

/-- The entry has this id. -/
def named (state : Service) (id : String) (handle : Handle) : Bool :=
  state.entries[handle]?.any (·.id = id)

/-- What the entries of an id had counted at the ticks that saw them. -/
def readOf (state : Service) (id : String) : Nat :=
  ∑ handle ∈ (Finset.range state.entries.length).filter (state.named id ·),
    (state.lastRead handle).getD 0

/-- Each member's hour is closed with what its entry counted since the last tick that saw it, or
since it was made, which is an hour cut short; no other id's hour is. -/
structure Closes (stopping : Bool) (start : Nat) (state next : Service) : Prop where
  member : ∀ handle ∈ state.members, ∀ entry ∈ state.entries[handle]?,
    next.bucketsOf entry.id = closeHour (state.bucketsOf entry.id) start
      (entry.servedTotal - (state.lastRead handle).getD 0)
      (stopping || (state.lastRead handle).isNone)
  first : ∀ handle ∈ state.members, ∀ entry ∈ state.entries[handle]?,
    state.lastRead handle = none →
      ∃ newest ∈ (next.bucketsOf entry.id).getLast?, newest.isPartial = true
  away : ∀ id, (∀ handle ∈ state.members, state.named id handle = false) →
    next.bucketsOf id = state.bucketsOf id ∨
      stopping = false ∧ next.bucketsOf id = [] ∧
        ∀ newest ∈ (state.bucketsOf id).getLast?, newest.start < start - HOURS * HOUR

/-- The buckets record each tick's and each stop's growth, and change at nothing else. -/
def Records (state next : Service) : ServiceEvent → Prop
  | .tick start => Closes false start state next
  | .stop start => Closes true start state next
  | _ => ∀ id, next.bucketsOf id = state.bucketsOf id

/-- A provider joins under an id that no member has and whose ring has no reading. -/
def JoinsAfresh (state : Service) : ServiceEvent → Prop
  | .join provider _ =>
      (∀ handle ∈ state.members, state.named provider.id handle = false) ∧
        (state.stats.ringsOf provider.id).served.last = none
  | _ => True

instance (state : Service) (event : ServiceEvent) : Decidable (JoinsAfresh state event) := by
  cases event <;> unfold JoinsAfresh <;> infer_instance

/-- Nothing falls off a ring. -/
def KeepsAll (state : Service) (event : ServiceEvent) : Prop :=
  (∀ start, event = .tick start ∨ event = .stop start → ∀ handle ∈ state.members,
    ∀ entry ∈ state.entries[handle]?, (state.bucketsOf entry.id).length = HOURS →
      ∀ newest ∈ (state.bucketsOf entry.id).getLast?, newest.start = start) ∧
  ∀ start, event = .tick start → ∀ id,
    (∀ handle ∈ state.members, state.named id handle = false) →
      ∀ newest ∈ (state.bucketsOf id).getLast?, start - HOURS * HOUR ≤ newest.start

/-- The ids of the members. -/
def ids (state : Service) : List String :=
  state.members.filterMap fun handle => state.entries[handle]?.map (·.id)

/-- Each member's ring holds its entry's last reading. -/
structure Aligned (state : Service) : Prop where
  inside : ∀ handle ∈ state.members, handle < state.entries.length
  distinct : state.ids.Nodup
  aligned : ∀ handle ∈ state.members, ∀ entry ∈ state.entries[handle]?,
    (state.stats.ringsOf entry.id).served.last = state.lastRead handle
  grows : ∀ handle, ∀ entry ∈ state.entries[handle]?,
    (state.lastRead handle).getD 0 ≤ entry.servedTotal
  read : ∀ handle, (state.lastRead handle).isSome = true → handle < state.entries.length
  file : ∀ id, (state.file.ringsOf id).served.buckets = state.bucketsOf id

theorem Aligned.initial : Aligned initial where
  inside := by simp [Service.initial]
  distinct := by simp [Service.initial, ids]
  aligned := by simp [Service.initial]
  grows := by simp [Service.initial]
  read := by simp [Service.initial, lastRead]
  file := fun _ => rfl

theorem ids_snapshot (state : Service) : state.snapshot.map (·.id) = state.ids := by
  simp [snapshot, ids, List.map_filterMap]

theorem named_iff {state : Service} {id : String} {handle : Handle} :
    state.named id handle = true ↔ state.entries[handle]?.map (·.id) = some id := by
  rw [named]
  cases state.entries[handle]? <;> simp

/-- No two members have one id. -/
theorem Aligned.unique {state : Service} (aligned : Aligned state) {first second : Handle}
    (isFirst : first ∈ state.members) (isSecond : second ∈ state.members) {id : String}
    (namesFirst : state.named id first = true) (namesSecond : state.named id second = true) :
    first = second := by
  by_contra differs
  have apart := List.pairwise_filterMap.mp aligned.distinct
  have : Std.Symm fun first second : Handle =>
      ∀ id ∈ state.entries[first]?.map (·.id), ∀ other ∈ state.entries[second]?.map (·.id),
        id ≠ other :=
    ⟨fun _ _ apart other isOther id isId => (apart id isId other isOther).symm⟩
  exact apart.forall isFirst isSecond differs id (named_iff.mp namesFirst) id
    (named_iff.mp namesSecond) rfl

/-- What a tick finds of an entry. -/
theorem find_reads (state : Service) (handle : Handle) :
    (state.reads.find? (·.1 = handle)).map (·.2) =
      if handle ∈ state.members then state.entries[handle]?.map (·.servedTotal) else none := by
  rw [reads]
  induction state.members with
  | nil => rfl
  | cons first rest ih =>
      cases entry : state.entries[first]? with
      | none =>
          rw [List.filterMap_cons_none (by simp [entry]), ih]
          by_cases same : handle = first
          · subst same
            simp [entry]
          · simp [same]
      | some found =>
          rw [List.filterMap_cons_some (by simp [entry]; rfl)]
          by_cases same : first = handle
          · subst same
            simp [entry]
          · rw [List.find?_cons_of_neg (by simpa using same), ih]
            simp [Ne.symm same]

/-- A tick reads every member, and no other entry. -/
theorem lastRead_save (state : Service) (stats : Stats) (handle : Handle) :
    (state.save stats).lastRead handle =
      (if handle ∈ state.members then state.entries[handle]?.map (·.servedTotal) else none).or
        (state.lastRead handle) := by
  rw [← find_reads]
  simp only [lastRead, save, List.find?_append]
  cases state.reads.find? (·.1 = handle) <;> rfl

theorem mem_snapshot {state : Service} {handle : Handle} {entry : Watched}
    (isMember : handle ∈ state.members) (isEntry : state.entries[handle]? = some entry) :
    entry ∈ state.snapshot :=
  List.mem_filterMap.mpr ⟨handle, isMember, isEntry⟩

/-- The rings after the members' hour is closed, but for those that are dropped. -/
def KeptFrom (stopping : Bool) (start : Nat) (state : Service) (stats : Stats) : Prop :=
  let closed := state.snapshot.foldl (Stats.closeEntry start stopping) state.stats
  ∀ id, stats.ringsOf id = closed.ringsOf id ∨
    stopping = false ∧ stats.ringsOf id = .empty ∧
      ∀ newest ∈ (closed.ringsOf id).served.newest, newest < start - HOURS * HOUR

theorem keptFrom_stop (start : Nat) (state : Service) :
    KeptFrom true start state (state.stats.stop start state.snapshot state.outcomes) :=
  fun _ => .inl rfl

theorem keptFrom_tick (start : Nat) (state : Service) :
    KeptFrom false start state (state.stats.tick start state.snapshot state.outcomes) :=
  fun id => (Stats.ringsOf_tick state.stats start state.snapshot state.outcomes id).imp_right
    fun dropped => ⟨rfl, dropped⟩

/-- A member's ring is never dropped. -/
theorem Aligned.ringsOf_member {state : Service} (aligned : Aligned state) {stopping : Bool}
    {start : Nat} {stats : Stats} (kept : KeptFrom stopping start state stats) {handle : Handle}
    (isMember : handle ∈ state.members) {entry : Watched}
    (isEntry : state.entries[handle]? = some entry) :
    stats.ringsOf entry.id = (state.stats.ringsOf entry.id).close start stopping entry := by
  have closed := (Stats.ringsOf_foldl (state.ids_snapshot ▸ aligned.distinct) start stopping
    state.stats).1 entry (mem_snapshot isMember isEntry)
  rcases kept entry.id with same | ⟨_, _, old⟩
  · rw [same, closed]
  · rw [closed] at old
    obtain ⟨newest, isNewest, isStart, _⟩ := getLast?_closeHour
      (state.stats.ringsOf entry.id).served.buckets start
      (entry.servedTotal - (state.stats.ringsOf entry.id).served.last.getD 0)
      (stopping || (state.stats.ringsOf entry.id).served.last.isNone)
    have late := old newest.start (by
      simp [ProviderRings.close, Ring.close, Ring.newest, isNewest])
    omega

/-- An id that no member has keeps its ring, or loses it whole. -/
theorem Aligned.ringsOf_away {state : Service} (aligned : Aligned state) {stopping : Bool}
    {start : Nat} {stats : Stats} (kept : KeptFrom stopping start state stats) {id : String}
    (away : ∀ handle ∈ state.members, state.named id handle = false) :
    stats.ringsOf id = state.stats.ringsOf id ∨
      stopping = false ∧ stats.ringsOf id = .empty ∧
        ∀ newest ∈ (state.stats.ringsOf id).served.newest, newest < start - HOURS * HOUR := by
  have unlisted : ∀ entry ∈ state.snapshot, entry.id ≠ id := by
    intro entry listed same
    obtain ⟨handle, isMember, isEntry⟩ := List.mem_filterMap.mp listed
    have names : state.named id handle = true := named_iff.mpr (by simp [isEntry, same])
    exact absurd (names.symm.trans (away handle isMember)) (by decide)
  have closed := (Stats.ringsOf_foldl (state.ids_snapshot ▸ aligned.distinct) start stopping
    state.stats).2 id unlisted
  have here := kept id
  rwa [closed] at here

/-- A tick or a stop closes the hour of every member. -/
theorem Aligned.closes {state : Service} (aligned : Aligned state) {stopping : Bool} {start : Nat}
    {stats : Stats} (kept : KeptFrom stopping start state stats) :
    Closes stopping start state (state.save stats) := by
  have member : ∀ handle ∈ state.members, ∀ entry ∈ state.entries[handle]?,
      (state.save stats).bucketsOf entry.id = closeHour (state.bucketsOf entry.id) start
        (entry.servedTotal - (state.lastRead handle).getD 0)
        (stopping || (state.lastRead handle).isNone) := by
    intro handle isMember entry isEntry
    have closed := aligned.ringsOf_member kept isMember isEntry
    rw [bucketsOf, save, closed, ← aligned.aligned handle isMember entry isEntry]
    rfl
  refine ⟨member, fun handle isMember entry isEntry unread => ?_, fun id away => ?_⟩
  · rw [member handle isMember entry isEntry, unread]
    obtain ⟨newest, isNewest, _, isPartial⟩ := getLast?_closeHour (state.bucketsOf entry.id) start
      (entry.servedTotal - Option.getD none 0) (stopping || Option.isNone (none : Option Nat))
    exact ⟨newest, isNewest, isPartial (by simp)⟩
  · rcases aligned.ringsOf_away kept away with same | ⟨isTick, dropped, old⟩
    · left
      rw [bucketsOf, save, same]
      rfl
    · right
      refine ⟨isTick, by rw [bucketsOf, save, dropped]; rfl, fun newest isNewest => ?_⟩
      refine old newest.start ?_
      have isNewest : (state.stats.ringsOf id).served.buckets.getLast? = some newest := isNewest
      simp [Ring.newest, isNewest]

/-- A tick or a stop leaves the rings with the members' readings. -/
theorem Aligned.save {state : Service} (aligned : Aligned state) {stopping : Bool} {start : Nat}
    {stats : Stats} (kept : KeptFrom stopping start state stats) :
    Aligned (state.save stats) := by
  refine ⟨aligned.inside, aligned.distinct, fun handle isMember entry isEntry => ?_,
    fun handle entry isEntry => ?_, fun handle isRead => ?_, fun id => ?_⟩
  · have closed := aligned.ringsOf_member kept isMember isEntry
    have isEntry : state.entries[handle]? = some entry := isEntry
    have isMember : handle ∈ state.members := isMember
    rw [lastRead_save, if_pos isMember, isEntry]
    exact congrArg (·.served.last) closed
  · have isEntry : state.entries[handle]? = some entry := isEntry
    rw [lastRead_save]
    split
    · simp [isEntry]
    · exact aligned.grows handle entry isEntry
  · rw [lastRead_save] at isRead
    split at isRead
    · next isMember => exact aligned.inside handle isMember
    · exact aligned.read handle isRead
  · have saved := congrArg Ring.buckets (Stats.ringsOf_saved stats id)
    exact saved

/-- Entries change and keep their ids, and no total shrinks. -/
theorem Aligned.modify {state : Service} (aligned : Aligned state) (changed : Handle)
    {change : Watched → Watched} (keeps : ∀ entry, (change entry).id = entry.id)
    (grows : ∀ entry, entry.servedTotal ≤ (change entry).servedTotal) :
    Aligned { state with entries := state.entries.modify changed change } := by
  have sameId : ∀ handle : Handle,
      (state.entries.modify changed change)[handle]?.map (fun entry => entry.id) =
        state.entries[handle]?.map (fun entry => entry.id) := by
    intro handle
    rw [List.getElem?_modify]
    cases state.entries[handle]? with
    | none => rfl
    | some entry =>
        by_cases same : changed = handle
        · simp [same, keeps]
        · simp [same]
  refine ⟨fun handle isMember => ?_, ?_, fun handle isMember entry isEntry => ?_,
    fun handle entry isEntry => ?_, fun handle isRead => ?_, aligned.file⟩
  · simpa using aligned.inside handle isMember
  · rw [ids]
    simp only [sameId]
    exact aligned.distinct
  · have named := sameId handle
    rw [show (state.entries.modify changed change)[handle]? = some entry from isEntry] at named
    obtain ⟨old, isOld, same⟩ := Option.map_eq_some_iff.mp named.symm
    have same : old.id = entry.id := same
    rw [← same]
    exact aligned.aligned handle isMember old isOld
  · have isEntry : (state.entries.modify changed change)[handle]? = some entry := isEntry
    rw [List.getElem?_modify] at isEntry
    cases isOld : state.entries[handle]? with
    | none => simp [isOld] at isEntry
    | some old =>
        have before := aligned.grows handle old isOld
        rw [isOld, Option.map_eq_map, Option.map_some, Option.some.injEq] at isEntry
        subst isEntry
        by_cases same : changed = handle
        · rw [if_pos same]
          exact before.trans (grows old)
        · rw [if_neg same]
          exact before
  · simpa using aligned.read handle isRead

/-- A provider joins afresh. -/
theorem Aligned.join {state : Service} (aligned : Aligned state) {provider : Provider}
    {now : Instant} (afresh : JoinsAfresh state (.join provider now)) :
    Aligned
      { state with
        entries := state.entries ++ [Watched.born provider now]
        members := state.members ++ [state.entries.length] } := by
  obtain ⟨unnamed, unread⟩ := afresh
  have older : ∀ handle < state.entries.length,
      (state.entries ++ [Watched.born provider now])[handle]? = state.entries[handle]? :=
    fun handle inside => List.getElem?_append_left inside
  have newest : (state.entries ++ [Watched.born provider now])[state.entries.length]? =
      some (Watched.born provider now) := by
    simp
  have unseen : state.lastRead state.entries.length = none := by
    cases read : state.lastRead state.entries.length with
    | none => rfl
    | some reading => exact absurd (aligned.read _ (by simp [read])) (lt_irrefl _)
  have split : ∀ {handle entry},
      (state.entries ++ [Watched.born provider now])[handle]? = some entry →
        state.entries[handle]? = some entry ∨
          handle = state.entries.length ∧ entry = Watched.born provider now := by
    intro handle entry isEntry
    rcases Nat.lt_trichotomy handle state.entries.length with inside | rfl | outside
    · exact .inl (older handle inside ▸ isEntry)
    · exact .inr ⟨rfl, by simpa using isEntry.symm⟩
    · rw [List.getElem?_eq_none (by simp; omega)] at isEntry
      cases isEntry
  refine ⟨fun handle isMember => ?_, ?_, fun handle isMember entry isEntry => ?_,
    fun handle entry isEntry => ?_, fun handle isRead => ?_, aligned.file⟩
  · rcases List.mem_append.mp isMember with old | isNew
    · simpa using Nat.lt_succ_of_lt (aligned.inside handle old)
    · simp [List.mem_singleton.mp isNew]
  · have same : state.members.filterMap
        (fun handle => (state.entries ++ [Watched.born provider now])[handle]?.map (·.id)) =
        state.ids :=
      List.filterMap_congr fun handle isMember => by
        rw [older handle (aligned.inside handle isMember)]
    rw [ids, List.filterMap_append, same]
    simp only [List.filterMap_cons, newest, Option.map_some, List.filterMap_nil,
      List.nodup_append, List.nodup_singleton, List.mem_singleton, forall_eq, true_and]
    refine ⟨aligned.distinct, fun id isId same => ?_⟩
    obtain ⟨handle, isMember, names⟩ := List.mem_filterMap.mp isId
    subst same
    exact absurd ((named_iff.mpr names).symm.trans (unnamed handle isMember)) (by decide)
  · rcases List.mem_append.mp isMember with old | isNew
    · have isEntry : (state.entries ++ [Watched.born provider now])[handle]? = some entry := isEntry
      rw [older handle (aligned.inside handle old)] at isEntry
      exact aligned.aligned handle old entry isEntry
    · obtain rfl := List.mem_singleton.mp isNew
      obtain rfl : Watched.born provider now = entry := by
        simpa using isEntry
      exact unread.trans unseen.symm
  · rcases split isEntry with old | ⟨rfl, rfl⟩
    · exact aligned.grows handle entry old
    · have none_ : ({ state with
          entries := state.entries ++ [Watched.born provider now]
          members := state.members ++ [state.entries.length] } : Service).lastRead
            state.entries.length = none := unseen
      rw [none_]
      exact Nat.zero_le _
  · simpa using Nat.lt_succ_of_lt (aligned.read handle isRead)

/-- One event. -/
theorem Aligned.step {state next : Service} {event : ServiceEvent} (aligned : Aligned state)
    (afresh : JoinsAfresh state event) (stepped : state.step event = some next) :
    Aligned next := by
  cases event with
  | join provider now =>
      cases stepped
      exact aligned.join afresh
  | leave id =>
      cases stepped
      have fewer := List.eraseP_sublist
        (p := fun handle => state.entries[handle]?.any fun entry => entry.id = id)
        (l := state.members)
      exact ⟨fun handle isMember => aligned.inside handle (fewer.mem isMember),
        aligned.distinct.sublist (fewer.filterMap _),
        fun handle isMember => aligned.aligned handle (fewer.mem isMember), aligned.grows,
        aligned.read, aligned.file⟩
  | serve handle now =>
      cases stepped
      exact aligned.modify handle (fun _ => rfl) fun _ => Nat.le_succ _
  | miss handle =>
      cases stepped
      exact aligned.modify handle (fun _ => rfl) fun _ => le_rfl
  | outcome outcome =>
      cases stepped
      exact ⟨aligned.inside, aligned.distinct, aligned.aligned, aligned.grows, aligned.read,
        aligned.file⟩
  | tick start =>
      cases stepped
      exact aligned.save (keptFrom_tick start state)
  | stop start =>
      cases stepped
      exact aligned.save (keptFrom_stop start state)
  | restart =>
      cases stepped
      exact ⟨fun _ isMember => (nomatch isMember), List.nodup_nil,
        fun _ isMember => (nomatch isMember), aligned.grows, aligned.read, fun _ => rfl⟩

/-- Each event is recorded for what it is. -/
theorem Aligned.records {state next : Service} {event : ServiceEvent} (aligned : Aligned state)
    (stepped : state.step event = some next) : Records state next event := by
  cases event with
  | tick start =>
      cases stepped
      exact aligned.closes (keptFrom_tick start state)
  | stop start =>
      cases stepped
      exact aligned.closes (keptFrom_stop start state)
  | restart =>
      cases stepped
      exact aligned.file
  | _ =>
      cases stepped
      exact fun _ => rfl

/-- The sum over the entries of an id moves with the one that is a member. -/
theorem Aligned.readOf_member {state : Service} (aligned : Aligned state) (stats : Stats)
    {handle : Handle} (isMember : handle ∈ state.members) {entry : Watched}
    (isEntry : state.entries[handle]? = some entry) :
    (state.save stats).readOf entry.id =
      state.readOf entry.id + (entry.servedTotal - (state.lastRead handle).getD 0) := by
  have names : state.named entry.id handle = true := named_iff.mpr (by simp [isEntry])
  have listed : handle ∈ (Finset.range state.entries.length).filter (state.named entry.id ·) := by
    simp [aligned.inside handle isMember, names]
  have others : ∀ other ∈ ((Finset.range state.entries.length).filter
      (state.named entry.id ·)).erase handle,
      ((state.save stats).lastRead other).getD 0 = (state.lastRead other).getD 0 := by
    intro other inRest
    obtain ⟨differs, inside⟩ := Finset.mem_erase.mp inRest
    have absent : other ∉ state.members := fun isOther =>
      differs (aligned.unique isOther isMember (Finset.mem_filter.mp inside).2 names)
    rw [lastRead_save, if_neg absent, Option.none_or]
  have here : ((state.save stats).lastRead handle).getD 0 =
      (state.lastRead handle).getD 0 + (entry.servedTotal - (state.lastRead handle).getD 0) := by
    rw [lastRead_save, if_pos isMember, isEntry, Option.map_some, Option.some_or, Option.getD_some]
    exact (Nat.add_sub_of_le (aligned.grows handle entry isEntry)).symm
  have before := Finset.add_sum_erase _ (fun other => (state.lastRead other).getD 0) listed
  have after := Finset.add_sum_erase _ (fun other => ((state.save stats).lastRead other).getD 0)
    listed
  rw [Finset.sum_congr rfl others, here] at after
  have sumBefore : state.readOf entry.id = _ := before.symm
  have sumAfter : (state.save stats).readOf entry.id = _ := after.symm
  rw [sumBefore, sumAfter]
  omega

/-- The sum over the entries of an id that no member has stays. -/
theorem readOf_away {state : Service} (stats : Stats) {id : String}
    (away : ∀ handle ∈ state.members, state.named id handle = false) :
    (state.save stats).readOf id = state.readOf id := by
  refine Finset.sum_congr rfl fun handle listed => ?_
  have names : state.named id handle = true := (Finset.mem_filter.mp listed).2
  have absent : handle ∉ state.members := fun isMember =>
    absurd (names.symm.trans (away handle isMember)) (by decide)
  rw [lastRead_save, if_neg absent, Option.none_or]

/-- An entry that keeps its id leaves the sums. -/
theorem readOf_modify (state : Service) (changed : Handle) (change : Watched → Watched)
    (keeps : ∀ entry, (change entry).id = entry.id) (id : String) :
    ({ state with entries := state.entries.modify changed change } : Service).readOf id =
      state.readOf id := by
  have names : ∀ handle,
      ({ state with entries := state.entries.modify changed change } : Service).named id handle =
        state.named id handle := by
    intro handle
    simp only [named, List.getElem?_modify]
    cases state.entries[handle]? with
    | none => rfl
    | some entry =>
        by_cases same : changed = handle
        · simp [same, keeps]
        · simp [same]
  simp only [readOf, List.length_modify, names]
  rfl

/-- Where nothing falls off, a tick or a stop keeps the sums. -/
theorem Aligned.sums_save {state : Service} (aligned : Aligned state) {stopping : Bool}
    {start : Nat} {stats : Stats} (kept : KeptFrom stopping start state stats)
    (room : ∀ handle ∈ state.members, ∀ entry ∈ state.entries[handle]?,
      (state.bucketsOf entry.id).length = HOURS →
        ∀ newest ∈ (state.bucketsOf entry.id).getLast?, newest.start = start)
    (recent : stopping = false → ∀ id, (∀ handle ∈ state.members, state.named id handle = false) →
      ∀ newest ∈ (state.bucketsOf id).getLast?, start - HOURS * HOUR ≤ newest.start)
    (sums : ∀ id, bucketTotal (state.bucketsOf id) = state.readOf id) (id : String) :
    bucketTotal ((state.save stats).bucketsOf id) = (state.save stats).readOf id := by
  have closes := aligned.closes kept
  by_cases away : ∀ handle ∈ state.members, state.named id handle = false
  · rw [readOf_away stats away]
    rcases closes.away id away with same | ⟨isTick, dropped, old⟩
    · rw [same, sums id]
    · have isEmpty : state.bucketsOf id = [] := by
        cases newest : (state.bucketsOf id).getLast? with
        | none => exact List.getLast?_eq_none_iff.mp newest
        | some bucket =>
            exact absurd (old bucket newest)
              (Nat.not_lt.mpr (recent isTick id away bucket newest))
      rw [dropped, ← sums id, isEmpty]
  · push Not at away
    obtain ⟨handle, isMember, names⟩ := away
    obtain ⟨entry, isEntry, rfl⟩ := Option.map_eq_some_iff.mp
      (named_iff.mp (eq_true_of_ne_false names))
    rw [closes.member handle isMember entry isEntry, aligned.readOf_member stats isMember isEntry,
      bucketTotal_closeHour _ _ (room handle isMember entry isEntry), sums entry.id]

/-- One event keeps the sums where nothing falls off. -/
theorem Aligned.sums_step {state next : Service} {event : ServiceEvent} (aligned : Aligned state)
    (keeps : KeepsAll state event) (stepped : state.step event = some next)
    (sums : ∀ id, bucketTotal (state.bucketsOf id) = state.readOf id) (id : String) :
    bucketTotal (next.bucketsOf id) = next.readOf id := by
  cases event with
  | join provider now =>
      cases stepped
      have unseen : state.lastRead state.entries.length = none := by
        cases read : state.lastRead state.entries.length with
        | none => rfl
        | some reading => exact absurd (aligned.read _ (by simp [read])) (lt_irrefl _)
      have older : ∀ handle ∈ Finset.range state.entries.length,
          (state.entries ++ [Watched.born provider now])[handle]? = state.entries[handle]? :=
        fun handle inside => List.getElem?_append_left (Finset.mem_range.mp inside)
      refine (sums id).trans ?_
      rw [readOf, readOf, List.length_append, List.length_singleton, Finset.sum_filter,
        Finset.sum_filter, Finset.sum_range_succ]
      have newest : ∀ handle, ({ state with
          entries := state.entries ++ [Watched.born provider now]
          members := state.members ++ [state.entries.length] } : Service).lastRead handle =
            state.lastRead handle := fun _ => rfl
      simp only [newest, unseen, Option.getD_none, ite_self, Nat.add_zero]
      refine Finset.sum_congr rfl fun handle inside => ?_
      simp only [named, older handle inside]
      exact if_congr Iff.rfl rfl rfl
  | leave id =>
      cases stepped
      exact sums _
  | serve handle now =>
      cases stepped
      exact (sums id).trans
        (readOf_modify state handle (·.recordServed now) (fun _ => rfl) id).symm
  | miss handle =>
      cases stepped
      exact (sums id).trans
        (readOf_modify state handle (·.recordTransportFailure) (fun _ => rfl) id).symm
  | outcome outcome =>
      cases stepped
      exact sums id
  | tick start =>
      cases stepped
      exact aligned.sums_save (keptFrom_tick start state) (keeps.1 start (.inl rfl))
        (fun _ => keeps.2 start rfl) sums id
  | stop start =>
      cases stepped
      exact aligned.sums_save (keptFrom_stop start state) (keeps.1 start (.inr rfl))
        (fun isTick => absurd isTick (by decide)) sums id
  | restart =>
      cases stepped
      exact (congrArg bucketTotal (aligned.file id)).trans (sums id)

/-- Where every provider joins under an id whose ring has no reading, each tick and each stop
records exactly what the members' entries counted since the tick before, and while nothing falls off
the buckets of an id add up to what its entries had counted when they were read. -/
theorem exact_of_joinsAfresh {events : List ServiceEvent} {state : Service}
    (afresh : machine.Meets JoinsAfresh initial events)
    (reached : machine.run initial events = some state) :
    (∀ event next, machine.step state event = some next → Records state next event) ∧
      (machine.Meets KeepsAll initial events →
        ∀ id, bucketTotal (state.bucketsOf id) = state.readOf id) := by
  have aligned : Aligned state :=
    Machine.run_invariant (fun _ _ _ => Aligned.step) Aligned.initial afresh reached
  refine ⟨fun event next => aligned.records, fun keeps => ?_⟩
  have preserved : ∀ (before : Service) (event : ServiceEvent) (after : Service),
      (Aligned before ∧ ∀ id, bucketTotal (before.bucketsOf id) = before.readOf id) →
      JoinsAfresh before event ∧ KeepsAll before event → machine.step before event = some after →
      Aligned after ∧ ∀ id, bucketTotal (after.bucketsOf id) = after.readOf id :=
    fun _ _ _ holds ok stepped =>
      ⟨holds.1.step ok.1 stepped, holds.1.sums_step ok.2 stepped holds.2⟩
  have both := Machine.run_invariant preserved ⟨Aligned.initial, fun _ => rfl⟩
    (afresh.and keeps) reached
  exact both.2

/-- A provider, as it joins. -/
def near : ServiceEvent :=
  .join (Provider.new "near" "http://near" .static) 0

/-- Read, gone and back after a restart. -/
def backAfterRestart : List ServiceEvent :=
  [near, .serve 0 1, .serve 0 2, .tick 0, .leave "near", .restart, near, .serve 1 3, .tick 3600]

theorem back_after_restart_counts : ∃ state, machine.run initial backAfterRestart = some state ∧
    (∀ event next, machine.step state event = some next → Records state next event) ∧
      (machine.Meets KeepsAll initial backAfterRestart →
        ∀ id, bucketTotal (state.bucketsOf id) = state.readOf id) :=
  ⟨_, rfl, @exact_of_joinsAfresh backAfterRestart _ (by decide) rfl⟩

/-- Read, gone and back with the ring's reading still there. -/
def backInTheHour : List ServiceEvent :=
  [near, .serve 0 1, .serve 0 2, .tick 0, .leave "near", near, .serve 1 3]

theorem back_in_the_hour_is_lost : ∃ state next, machine.run initial backInTheHour = some state ∧
    machine.step state (.tick 3600) = some next ∧ ¬Records state next (.tick 3600) ∧
      bucketTotal (next.bucketsOf "near") = 2 ∧ next.readOf "near" = 3 := by
  refine ⟨_, _, rfl, rfl, fun closes => ?_, by decide, by decide⟩
  obtain ⟨newest, isNewest, isPartial⟩ := closes.first 1 (by decide) _ rfl rfl
  obtain rfl : (⟨3600, 0, false⟩ : Bucket) = newest := Option.some.inj isNewest
  exact absurd isPartial (by decide)

end Service

end CommunityLb
