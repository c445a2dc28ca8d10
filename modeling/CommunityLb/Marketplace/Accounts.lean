import CommunityLb.Marketplace.Truthful

/-!
# What every run does to every agreement's account

The account's invariants, carried along the runs of the world that refine it.
-/

namespace CommunityLb

/-- The kind of the flush that is about to read the entries. -/
def Task.counting? : Task → Option Flush
  | countsBatch kind _ _ => some kind
  | _ => none

/-- The task waits for its timers. -/
def Task.isIdle : Task → Bool
  | idle => true
  | _ => false

namespace State

variable {urls : Urls} {sidecar : Identity} {agreement : EntityKey}
  {start middle finish state next : State} {events first second : List Event} {event : Event}

/-! ## Refinement -/

/-- Every run is some steps of every agreement's account, from a blank one, and every event in it is
some that are for it. -/
theorem run_refines (genesis : Genesis sidecar.address start)
    (reached : (world urls sidecar).run start events = some finish) :
    Relation.ReflTransGen (Account.Step fun _ _ => True)
      (.blank start.chain.head (start.chain.lost agreement))
      (finish.account sidecar.address agreement) ∧
    ∀ event next, finish.step urls sidecar event = some next →
      Relation.ReflTransGen (Account.Step (finish.Emits sidecar.address agreement event))
        (finish.account sidecar.address agreement) (next.account sidecar.address agreement) := by
  have preserved : ∀ (state : State) (event : Event) (next : State),
      (state.Grounded sidecar.address ∧ state.ReadsOpen) ∧
        Relation.ReflTransGen (Account.Step fun _ _ => True)
          (.blank start.chain.head (start.chain.lost agreement))
          (state.account sidecar.address agreement) →
        (world urls sidecar).step state event = some next →
          (next.Grounded sidecar.address ∧ next.ReadsOpen) ∧
            Relation.ReflTransGen (Account.Step fun _ _ => True)
              (.blank start.chain.head (start.chain.lost agreement))
              (next.account sidecar.address agreement) := by
    rintro state event next ⟨⟨grounded, opened⟩, reaches⟩ stepped
    refine ⟨⟨grounded.step stepped, opened.step stepped⟩, reaches.trans ?_⟩
    exact (grounded.step_simulates opened stepped).lift id fun _ _ step =>
      step.mono fun _ _ => trivial
  have initial : (start.Grounded sidecar.address ∧ start.ReadsOpen) ∧
      Relation.ReflTransGen (Account.Step fun _ _ => True)
        (.blank start.chain.head (start.chain.lost agreement))
        (start.account sidecar.address agreement) := by
    refine ⟨⟨genesis.grounded, by simp [ReadsOpen, genesis.process]⟩, ?_⟩
    rw [genesis.blank]
  obtain ⟨⟨grounded, opened⟩, reaches⟩ := Machine.run_preserves preserved initial reached
  exact ⟨reaches, fun event next stepped => grounded.step_simulates opened stepped⟩

/-- The start of a small world, up to an acceptance's first record. -/
def beginning : List Event :=
  startUp smallSection ++ acceptance.take 11

/-- The acceptance's other record, and a request served. -/
def serving : List Event :=
  acceptance.drop 11 ++ [.serve 0, .sealBlocks 0 [], .catchUp 1]

/-- What a flush reads before the entries. -/
def asking (counter : EntityKey) : List Event :=
  [.tick .flush, answered, answered, .read [counter] []]

/-- The first flush's close and the successor it creates. -/
def closing : List Event :=
  [.write (.landed [] [301]), .write (.landed [] [302]), .catchUp 2]

theorem emptyWorld_genesis : Genesis smallSidecar.address emptyWorld := by
  constructor <;> simp [emptyWorld, Keyed.empty]

theorem run_refines_small : ∃ finish,
    (world plainUrls smallSidecar).run emptyWorld (beginning ++ serving) = some finish ∧
    Relation.ReflTransGen (Account.Step fun _ _ => True)
      (.blank emptyWorld.chain.head (emptyWorld.chain.lost 200))
      (finish.account smallSidecar.address 200) := by
  have ran : ((world plainUrls smallSidecar).run emptyWorld (beginning ++ serving)).isSome := by
    decide +kernel
  obtain ⟨finish, reached⟩ := Option.isSome_iff_exists.mp ran
  exact ⟨finish, reached, (run_refines emptyWorld_genesis reached).1⟩

/-! ## What is counted -/

/-- Reading every open counter record as it is, the LB keeps all its counts in an agreement's oldest
one: no record that carries a count is younger than an open one.  Writes may be lost and land later,
records expire, and the LB crash and start again. -/
theorem counts_lead (genesis : Genesis sidecar.address start)
    (meets : (world urls sidecar).Meets SeesCounters start events)
    (reached : (world urls sidecar).run start events = some finish) {counted row : Entry}
    (inRows : counted ∈ finish.chain.counters sidecar.address agreement)
    (counts : counted.record.count ≠ 0)
    (inRow : row ∈ finish.chain.counters sidecar.address agreement) (opened : row.isOpen = true) :
    counted.Older row := by
  have preserved : ∀ (state : State) (event : Event) (next : State),
      ((state.Grounded sidecar.address ∧ state.ReadsOpen) ∧ state.Headed ∧
        (state.account sidecar.address agreement).Led) → state.SeesCounters event →
        (world urls sidecar).step state event = some next →
          (next.Grounded sidecar.address ∧ next.ReadsOpen) ∧ next.Headed ∧
            (next.account sidecar.address agreement).Led := by
    rintro state event next ⟨⟨grounded, opened⟩, headed, led⟩ sees stepped
    refine ⟨⟨grounded.step stepped, opened.step stepped⟩, headed.step stepped, ?_⟩
    refine Machine.reaches_invariant (fun _ _ led step => led.step step) led ?_
    exact (grounded.step_simulates opened stepped).lift id fun _ _ step =>
      step.mono fun _ => sees.whole grounded headed
  have initial : (start.Grounded sidecar.address ∧ start.ReadsOpen) ∧ start.Headed ∧
      (start.account sidecar.address agreement).Led := by
    refine ⟨⟨genesis.grounded, by simp [ReadsOpen, genesis.process]⟩,
      by simp [Headed, genesis.process], ?_⟩
    rw [genesis.blank]
    exact Account.blank_led _ _
  obtain ⟨_, _, led⟩ := Machine.run_invariant preserved initial meets reached
  exact led.leads counted.key (.inl ⟨counted, inRows, rfl, counts⟩) counted inRows rfl row inRow
    opened

theorem counts_lead_small : ∃ finish counted row,
    (world plainUrls smallSidecar).run emptyWorld
      (beginning ++ serving ++ (asking 300 ++ .countServed [] :: closing)) = some finish ∧
    counted ∈ finish.chain.counters smallSidecar.address 200 ∧
      row ∈ finish.chain.counters smallSidecar.address 200 ∧ counted ≠ row ∧
        counted.Older row := by
  have ran : ((world plainUrls smallSidecar).run emptyWorld
      (beginning ++ serving ++ (asking 300 ++ .countServed [] :: closing))).map (fun state =>
        (state.chain.counters smallSidecar.address 200).map fun entry =>
          (entry.key, entry.isOpen, entry.record.count)) =
      some [(300, false, 1), (302, true, 0)] := by
    decide +kernel
  have meets : (world plainUrls smallSidecar).Meets SeesCounters emptyWorld
      (beginning ++ serving ++ (asking 300 ++ .countServed [] :: closing)) := by
    decide +kernel
  obtain ⟨finish, reached, rows⟩ := Option.map_eq_some_iff.mp ran
  obtain ⟨counted, rest, split, isCounted, others⟩ := List.map_eq_cons_iff.mp rows
  obtain ⟨row, none_, isOther, isRow, _⟩ := List.map_eq_cons_iff.mp others
  have inRows : counted ∈ finish.chain.counters smallSidecar.address 200 := by
    rw [split]
    exact List.mem_cons_self
  have inRow : row ∈ finish.chain.counters smallSidecar.address 200 := by
    rw [split, isOther]
    exact List.mem_cons_of_mem _ List.mem_cons_self
  have counts : counted.record.count = 1 := (Prod.mk.inj (Prod.mk.inj isCounted).2).2
  have opened : row.isOpen = true := (Prod.mk.inj (Prod.mk.inj isRow).2).1
  refine ⟨finish, counted, row, reached, inRows, inRow, ?_, ?_⟩
  · rintro rfl
    cases isCounted.symm.trans isRow
  · exact counts_lead emptyWorld_genesis meets reached inRows (by simp [counts]) inRow opened

/-! ## While answers are the truth -/

variable {ok : Label → Account → Prop} {also : State → Event → Prop}

/-- What truthful steps keep of an account, a run keeps of it, when its events are no other steps. -/
theorem Honest.run_keeps {holds : Account → Prop} (honest : start.Honest sidecar.address)
    (preserved : ∀ before after, before.Afforded → holds before → Account.Step ok before after →
      holds after)
    (truthful : ∀ label account, ok label account → Account.Truthful label account)
    (paths : ∀ state event next, state.Honest sidecar.address → state.AnswersTruly event →
      also state event → state.step urls sidecar event = some next →
        Relation.ReflTransGen (Account.Step ok) (state.account sidecar.address agreement)
          (next.account sidecar.address agreement))
    (initial : holds (start.account sidecar.address agreement))
    (meets : (world urls sidecar).Meets
      (fun state event => state.AnswersTruly event ∧ also state event) start events)
    (reached : (world urls sidecar).run start events = some finish) :
    finish.Honest sidecar.address ∧ holds (finish.account sidecar.address agreement) := by
  have onPaths : ∀ before after : Account, before.Afforded ∧ holds before →
      Account.Step ok before after → after.Afforded ∧ holds after := by
    rintro before after ⟨afforded, isHeld⟩ step
    exact ⟨afforded.step (step.mono fun label => truthful label before),
      preserved before after afforded isHeld step⟩
  have preserved : ∀ (state : State) (event : Event) (next : State),
      state.Honest sidecar.address ∧ holds (state.account sidecar.address agreement) →
        state.AnswersTruly event ∧ also state event →
          (world urls sidecar).step state event = some next →
            next.Honest sidecar.address ∧ holds (next.account sidecar.address agreement) := by
    rintro state event next ⟨honest, isHeld⟩ ⟨truly, allowed⟩ stepped
    have path := paths state event next honest truly allowed stepped
    exact ⟨honest.step truly stepped,
      (Machine.reaches_invariant onPaths ⟨honest.afforded agreement, isHeld⟩ path).2⟩
  exact Machine.run_invariant preserved ⟨honest, initial⟩ meets reached

/-- What holds while answers are the truth, holds after every run. -/
theorem Honest.run (honest : start.Honest sidecar.address)
    (meets : (world urls sidecar).Meets AnswersTruly start events)
    (reached : (world urls sidecar).run start events = some finish) :
    finish.Honest sidecar.address := by
  refine Machine.run_invariant ?_ honest meets reached
  exact fun state event next honest truly stepped => honest.step truly stepped

/-- No request is billed twice: what an agreement's records carry was served under it.  The LB may
crash at any moment and start again. -/
theorem never_overbilled (genesis : Genesis sidecar.address start)
    (meets : (world urls sidecar).Meets AnswersTruly start events)
    (reached : (world urls sidecar).run start events = some finish) (agreement : EntityKey) :
    Account.total (finish.chain.counters sidecar.address agreement) ≤
      finish.served.count agreement :=
  ((genesis.honest.run meets reached).afforded agreement).bound

theorem never_overbilled_small : ∃ finish,
    (world plainUrls smallSidecar).run emptyWorld
      (beginning ++ serving ++ (asking 300 ++ .countServed [] :: closing)) = some finish ∧
    Account.total (finish.chain.counters smallSidecar.address 200) ≤ finish.served.count 200 := by
  have ran : ((world plainUrls smallSidecar).run emptyWorld
      (beginning ++ serving ++ (asking 300 ++ .countServed [] :: closing))).isSome := by
    decide +kernel
  have meets : (world plainUrls smallSidecar).Meets AnswersTruly emptyWorld
      (beginning ++ serving ++ (asking 300 ++ .countServed [] :: closing)) := by
    decide +kernel
  obtain ⟨finish, reached⟩ := Option.isSome_iff_exists.mp ran
  exact ⟨finish, reached, never_overbilled emptyWorld_genesis meets reached 200⟩

/-! ## What becomes of a record -/

/-- The chain only goes on. -/
theorem run_stays (reached : (world urls sidecar).run start events = some finish) :
    start.chain.Stays finish.chain := by
  have preserved : ∀ (state : State) (event : Event) (next : State),
      start.chain.Stays state.chain → (world urls sidecar).step state event = some next →
        start.chain.Stays next.chain :=
    fun _ _ _ stays stepped => stays.trans (step_advances stepped).stays
  exact Machine.run_preserves preserved (.refl _) reached

/-- A counter record is of the block it was created in. -/
theorem created_then (stays : start.chain.Stays finish.chain) {entry row : Entry}
    (inRows : entry ∈ start.chain.counters sidecar.address agreement)
    (inLater : row ∈ finish.chain.counters sidecar.address agreement) (same : row.key = entry.key) :
    row.createdAt = entry.createdAt := by
  obtain ⟨stored, inChain, _, _, isKey, isAge, _⟩ := Chain.mem_counters.mp inRows
  obtain ⟨later, inLater, _, _, isLaterKey, isLaterAge, _⟩ := Chain.mem_counters.mp inLater
  have found : start.chain.entities.get? entry.key = some stored :=
    Keyed.get?_eq_some.mpr ⟨inChain, isKey⟩
  obtain ⟨now, isNow, became⟩ := stays.row entry.key stored found
  obtain rfl : later = now := by
    refine Option.some.inj (Eq.trans (Keyed.get?_eq_some.mpr ⟨inLater, ?_⟩).symm isNow)
    exact isLaterKey.trans same
  rw [← isLaterAge, ← isAge]
  exact became.createdAt

/-- No counter record of an agreement expires as blocks are sealed. -/
def Unexpired (me : Address) (agreement : EntityKey) (state : State) (event : Event) : Prop :=
  (state.chain.advance event.sealed).counters me agreement = state.chain.counters me agreement

instance (me : Address) (agreement : EntityKey) (state : State) (event : Event) :
    Decidable (state.Unexpired me agreement event) :=
  inferInstanceAs (Decidable (_ = _))

/-- A closed counter record is final.  It carries a count and its block, nothing is written to it
again, and unless a record of the agreement expires it stays. -/
theorem closed_is_final (genesis : Genesis sidecar.address start)
    (meets : (world urls sidecar).Meets AnswersTruly start (first ++ second))
    (reached : (world urls sidecar).run start first = some middle)
    (goes : (world urls sidecar).run middle second = some finish) {entry : Entry}
    (inRows : entry ∈ middle.chain.counters sidecar.address agreement)
    (shut : entry.isOpen = false) :
    (0 < entry.record.count ∧ entry.record.closedBlock.isSome) ∧
      (∀ row ∈ finish.chain.counters sidecar.address agreement, row.key = entry.key →
        row = entry) ∧
      ((world urls sidecar).Meets (Unexpired sidecar.address agreement) middle second →
        entry ∈ finish.chain.counters sidecar.address agreement) := by
  obtain ⟨before, since⟩ := Machine.meets_append meets reached
  have honest := genesis.honest.run before reached
  have led := (honest.afforded agreement).led
  have initial : Account.Kept middle.chain.head entry
      (middle.account sidecar.address agreement) := by
    refine ⟨honest.final agreement entry.key, shut, le_rfl, by simp [account, accountWith], ?_⟩
    intro row inRow same _
    exact List.inj_on_of_nodup_map led.distinct inRow inRows same
  refine ⟨(honest.final agreement entry.key).closed entry inRows rfl shut, ?_, fun unexpired => ?_⟩
  · intro row inRow same
    have preserved : ∀ before after : Account, before.Afforded →
        Account.Kept middle.chain.head entry before →
          Account.Step Account.Truthful before after → Account.Kept middle.chain.head entry after :=
      fun _ _ afforded kept step => kept.step (step.mono fun _ => afforded.guarded)
    have kept := honest.run_keeps preserved (fun _ _ => id)
      (fun _ _ _ honest truly _ stepped => honest.simulates truly stepped agreement) initial
      (since.mono fun _ _ truly => And.intro truly trivial) goes
    refine kept.2.same row inRow same ?_
    rw [created_then (run_stays goes) inRows inRow same]
    exact led.dated entry inRows
  · have preserved : ∀ before after : Account, before.Afforded →
        Account.Kept middle.chain.head entry before ∧ entry ∈ before.rows →
          Account.Step (fun label account => Account.Truthful label account ∧ label ≠ .expire)
            before after → Account.Kept middle.chain.head entry after ∧ entry ∈ after.rows := by
      rintro before after afforded ⟨kept, isThere⟩ step
      have guarded : Account.Step
          (fun label account => Account.Guarded label account ∧ label ≠ .expire) before after :=
        step.mono fun label both => ⟨afforded.guarded both.1, both.2⟩
      exact ⟨kept.step (guarded.mono fun _ => And.left), kept.stays isThere guarded⟩
    have kept := honest.run_keeps preserved (fun _ _ => And.left)
      (fun state event next honest truly unexpired stepped => ?_) ⟨initial, inRows⟩
      (since.and unexpired) goes
    · exact kept.2.2
    · refine (honest.path truly stepped agreement).lift id fun _ _ step => step.mono ?_
      rintro label ⟨emits, truthful⟩
      refine ⟨truthful, ?_⟩
      rintro rfl
      cases emits with
      | expire goes => exact goes unexpired

/-- The record that the first flush closes. -/
def closedOne : Entry where
  key := 300
  createdAt := 3
  record :=
    { agreement := 200
      provider := 33
      state := .closed
      count := 1
      weiPerCall := 7
      openedBlock := 1
      closedBlock := some 4 }

theorem closed_is_final_small : ∃ finish,
    (world plainUrls smallSidecar).run emptyWorld
      ((beginning ++ serving ++ (asking 300 ++ .countServed [] :: closing)) ++
        (.serve 0 :: asking 302)) = some finish ∧
    closedOne ∈ finish.chain.counters smallSidecar.address 200 := by
  have ran : ((world plainUrls smallSidecar).run emptyWorld
      ((beginning ++ serving ++ (asking 300 ++ .countServed [] :: closing)) ++
        (.serve 0 :: asking 302))).isSome := by
    decide +kernel
  have meets : (world plainUrls smallSidecar).Meets AnswersTruly emptyWorld
      ((beginning ++ serving ++ (asking 300 ++ .countServed [] :: closing)) ++
        (.serve 0 :: asking 302)) := by
    decide +kernel
  have stands : ((world plainUrls smallSidecar).run emptyWorld
      (beginning ++ serving ++ (asking 300 ++ .countServed [] :: closing))).map (fun state =>
        decide (closedOne ∈ state.chain.counters smallSidecar.address 200 ∧
          (world plainUrls smallSidecar).Meets (Unexpired smallSidecar.address 200) state
            (.serve 0 :: asking 302))) = some true := by
    decide +kernel
  obtain ⟨finish, reaches⟩ := Option.isSome_iff_exists.mp ran
  obtain ⟨middle, reached, goes⟩ := Machine.run_append_eq_some.mp reaches
  rw [reached] at stands
  obtain ⟨inRows, unexpired⟩ := of_decide_eq_true (Option.some.inj stands)
  have final := closed_is_final emptyWorld_genesis meets reached goes inRows rfl
  exact ⟨finish, reaches, final.2.2 unexpired⟩

/-- The count of a counter record never goes down. -/
theorem counts_rise (genesis : Genesis sidecar.address start)
    (meets : (world urls sidecar).Meets AnswersTruly start (first ++ second))
    (reached : (world urls sidecar).run start first = some middle)
    (goes : (world urls sidecar).run middle second = some finish) {entry row : Entry}
    (inRows : entry ∈ middle.chain.counters sidecar.address agreement)
    (inLater : row ∈ finish.chain.counters sidecar.address agreement)
    (same : row.key = entry.key) : entry.record.count ≤ row.record.count := by
  obtain ⟨before, since⟩ := Machine.meets_append meets reached
  have honest := genesis.honest.run before reached
  have led := (honest.afforded agreement).led
  have initial : Account.Counted middle.chain.head entry.key entry.record.count
      (middle.account sidecar.address agreement) := by
    refine ⟨honest.rising agreement entry.key, le_rfl, by simp [account, accountWith], ?_⟩
    intro other inOther isKey _
    rw [List.inj_on_of_nodup_map led.distinct inOther inRows isKey]
  have preserved : ∀ before after : Account, before.Afforded →
      Account.Counted middle.chain.head entry.key entry.record.count before →
        Account.Step Account.Truthful before after →
          Account.Counted middle.chain.head entry.key entry.record.count after :=
    fun _ _ afforded counted step => counted.step (step.mono fun _ => afforded.level)
  have counted := honest.run_keeps preserved (fun _ _ => id)
    (fun _ _ _ honest truly _ stepped => honest.simulates truly stepped agreement) initial
    (since.mono fun _ _ truly => And.intro truly trivial) goes
  refine counted.2.least row inLater same ?_
  rw [created_then (run_stays goes) inRows inLater same]
  exact led.dated entry inRows

theorem counts_rise_small : ∃ finish, ∃ entry row : Entry,
    (world plainUrls smallSidecar).run emptyWorld
      ((beginning ++ serving) ++ (asking 300 ++ .countServed [] :: closing)) = some finish ∧
    row.key = entry.key ∧ entry.record.count = 0 ∧ row.record.count = 1 ∧
      entry.record.count ≤ row.record.count := by
  have ran : ((world plainUrls smallSidecar).run emptyWorld
      ((beginning ++ serving) ++ (asking 300 ++ .countServed [] :: closing))).map (fun state =>
        decide (closedOne ∈ state.chain.counters smallSidecar.address 200)) = some true := by
    decide +kernel
  have meets : (world plainUrls smallSidecar).Meets AnswersTruly emptyWorld
      ((beginning ++ serving) ++ (asking 300 ++ .countServed [] :: closing)) := by
    decide +kernel
  have stands : ((world plainUrls smallSidecar).run emptyWorld (beginning ++ serving)).map
      (fun state => (state.chain.counters smallSidecar.address 200).map fun entry =>
        (entry.key, entry.record.count)) = some [(300, 0)] := by
    decide +kernel
  obtain ⟨finish, reaches, isThere⟩ := Option.map_eq_some_iff.mp ran
  obtain ⟨middle, reached, goes⟩ := Machine.run_append_eq_some.mp reaches
  rw [reached, Option.map_some, Option.some.injEq] at stands
  obtain ⟨entry, rest, split, isEntry, _⟩ := List.map_eq_cons_iff.mp stands
  have inRows : entry ∈ middle.chain.counters smallSidecar.address 200 := by
    rw [split]
    exact List.mem_cons_self
  have same : closedOne.key = entry.key := (congrArg Prod.fst isEntry).symm
  refine ⟨finish, entry, closedOne, reaches, same, congrArg Prod.snd isEntry, rfl, ?_⟩
  exact counts_rise emptyWorld_genesis meets reached goes inRows (of_decide_eq_true isThere) same

/-! ## What an agreement is billed -/

/-- Memory holds an agreement and goes on holding it, and none of its counter records expires. -/
def GoesOn (urls : Urls) (sidecar : Identity) (agreement : EntityKey) (state : State)
    (event : Event) : Prop :=
  (state.held agreement).isSome ∧
    (∀ next ∈ state.step urls sidecar event, (next.held agreement).isSome) ∧
      state.Unexpired sidecar.address agreement event

instance (urls : Urls) (sidecar : Identity) (agreement : EntityKey) (state : State)
    (event : Event) : Decidable (state.GoesOn urls sidecar agreement event) :=
  inferInstanceAs (Decidable (_ ∧ _ ∧ _))

/-- While memory holds the agreement, none of the steps ends it. -/
theorem Honest.steady (honest : state.Honest sidecar.address) (truly : state.AnswersTruly event)
    (goesOn : state.GoesOn urls sidecar agreement event)
    (stepped : state.step urls sidecar event = some next) :
    Relation.ReflTransGen
      (Account.Step fun label account =>
        (state.Emits sidecar.address agreement event label account ∧
          Account.Truthful label account) ∧ Account.Steady label)
      (state.account sidecar.address agreement) (next.account sidecar.address agreement) := by
  obtain ⟨live, goes, unexpired⟩ := goesOn
  have stillLive := goes next stepped
  have path := honest.path truly stepped agreement
  refine path.head_induction_on .refl fun {before after} step rest ih => .head ?_ ih
  refine step.known.mono ?_
  rintro label ⟨emits, _, leaves⟩
  refine ⟨emits, ?_, ?_, ?_⟩
  · rintro rfl
    cases emits.1 with
    | expire goes => exact goes unexpired
  · rintro rfl
    have absent := leaves (.inl rfl)
    cases emits.1 with
    | @pastLife process work head shown order rows runs task page gone =>
        -- A page ends or adopts an agreement, and never both.
        have never : ∀ before after : Account, before.held = none →
            Account.Step (fun label account =>
              state.Emits sidecar.address agreement (.read shown order) label account ∧
                Account.Truthful label account) before after → after.held = none := by
          intro before after absent step
          refine step.absent absent ?_ ?_
          · rintro ⟨adopts, _⟩
            cases adopts with
            | adopt _ _ _ _ _ unheld => simp [unheld] at live
          · rintro ⟨accepts, _⟩
            cases accepts
        have gone : next.held agreement = none := Machine.reaches_invariant never absent rest
        simp [gone] at stillLive
  · rintro rfl
    cases emits.1 with
    | quit =>
        obtain ⟨_, _, rfl⟩ := Option.map_eq_some_iff.mp stepped
        simp [State.held] at stillLive

/-- A held agreement's total moves with the requests its entry serves, and with nothing else. -/
theorem total_of_step {held : Held} {before after : Account}
    (step : Account.Step (fun label _ => label ≠ .serve ∧ Account.Steady label) before after)
    (live : before.held = some held) :
    ∃ now, after.held = some now ∧ now.total = held.total := by
  cases step with
  | serve _ allowed => exact absurd rfl allowed.1
  | adopt absent => simp [live] at absent
  | accept absent => simp [live] at absent
  | accepted _ isHeld =>
      cases live.symm.trans isHeld
      exact ⟨_, rfl, rfl⟩
  | acceptFailed _ _ isHeld =>
      cases live.symm.trans isHeld
      exact ⟨_, rfl, rfl⟩
  | pastLife _ _ _ _ _ allowed => exact absurd rfl allowed.2.2.1
  | quit allowed => exact absurd rfl allowed.2.2.2
  | @match_ _ row _ found =>
      refine ⟨Account.take row found held, congrArg (Option.map _) live, ?_⟩
      cases found <;> rfl
  | successor _ _ isHeld =>
      cases live.symm.trans isHeld
      exact ⟨_, rfl, rfl⟩
  | _ => exact ⟨held, live, rfl⟩

/-- The requests that an event has served by the entry memory has for an agreement. -/
def servesFor (agreement : EntityKey) (state : State) : Event → Nat
  | .serve handle =>
      if (state.process.bind (·.agent.agreements.get? agreement)).any (·.provider = handle) then 1
      else 0
  | _ => 0

/-- One step: the requests so far, and its own. -/
def nowServed (agreement : EntityKey) (before : Nat) (state : State) (event : Event) (_ : State) :
    Nat :=
  before + state.servesFor agreement event

/-- While memory holds an agreement, its entry's total counts the requests the entry serves. -/
theorem Honest.total_step {was : Held} (honest : state.Honest sidecar.address)
    (truly : state.AnswersTruly event) (goesOn : state.GoesOn urls sidecar agreement event)
    (stepped : state.step urls sidecar event = some next)
    (isHeld : state.held agreement = some was) :
    ∃ now, next.held agreement = some now ∧
      now.total = was.total + state.servesFor agreement event := by
  have quiet : (∀ handle, event ≠ .serve handle) → ∃ now, next.held agreement = some now ∧
      now.total = was.total := by
    intro other
    have preserved : ∀ before after : Account,
        (∃ now, before.held = some now ∧ now.total = was.total) →
          Account.Step (fun label _ => label ≠ .serve ∧ Account.Steady label) before after →
            ∃ now, after.held = some now ∧ now.total = was.total := by
      rintro before after ⟨held, live, total⟩ step
      obtain ⟨now, isNow, same⟩ := total_of_step step live
      exact ⟨now, isNow, same.trans total⟩
    have initial : ∃ now, (state.account sidecar.address agreement).held = some now ∧
        now.total = was.total := ⟨was, isHeld, rfl⟩
    refine Machine.reaches_invariant preserved initial
      ((honest.steady truly goesOn stepped).lift id fun _ _ step => step.mono ?_)
    rintro label ⟨⟨emits, _⟩, steady⟩
    refine ⟨?_, steady⟩
    rintro rfl
    cases emits with
    | @serve _ handle => exact other handle rfl
  cases event with
  | serve handle =>
      simp only [State.step, State.serve, Option.bind_eq_bind, Option.bind_eq_some_iff] at stepped
      obtain ⟨process, runs, provider, entry, stepped⟩ := stepped
      cases stepped
      have holds : process.agent.held agreement = some was := by
        rw [← held_of agreement runs]
        exact isHeld
      obtain ⟨live, found, rfl⟩ := Option.map_eq_some_iff.mp holds
      simp only [servesFor, runs, Option.bind_some, found, Option.any_some, decide_eq_true_eq]
      by_cases own : live.provider = handle
      · subst own
        refine ⟨_, Agent.held_modify_same found entry, ?_⟩
        simp [Provider.recordServed, Pool.servedTotal, entry]
      · rw [if_neg own]
        refine ⟨_, (Agent.held_modify_other fun other isOther => ?_).trans holds, rfl⟩
        cases found.symm.trans isOther
        exact own
  | _ =>
      obtain ⟨now, isNow, same⟩ := quiet (by simp)
      exact ⟨now, isNow, same⟩

/-- Exact billing goes on while memory holds the agreement. -/
theorem Honest.bills {base : Nat} (honest : start.Honest sidecar.address)
    (billed : ∃ held, Account.Billed base (start.account sidecar.address agreement) held)
    (meets : (world urls sidecar).Meets (fun state event => state.AnswersTruly event ∧
      state.GoesOn urls sidecar agreement event) start events)
    (reached : (world urls sidecar).run start events = some finish) :
    finish.Honest sidecar.address ∧
      ∃ held, Account.Billed base (finish.account sidecar.address agreement) held := by
  have preserved : ∀ before after : Account, before.Afforded →
      (∃ held, Account.Billed base before held) →
        Account.Step (fun label account => Account.Truthful label account ∧ Account.Steady label)
          before after → ∃ held, Account.Billed base after held := by
    rintro before after afforded ⟨held, billed⟩ step
    exact afforded.exact_step billed step
  refine honest.run_keeps preserved (fun _ _ => And.left) ?_ billed meets reached
  intro state event next honest truly goesOn stepped
  exact (honest.steady truly goesOn stepped).lift id fun _ _ step =>
    step.mono fun _ both => ⟨both.1.2, both.2⟩

/-- Along a run in which memory goes on holding an agreement its entry's total counts the requests the
entry serves. -/
theorem Honest.counts_served {was : Held} {count : Nat} (honest : start.Honest sidecar.address)
    (isHeld : start.held agreement = some was)
    (meets : (world urls sidecar).Meets (fun state event => state.AnswersTruly event ∧
      state.GoesOn urls sidecar agreement event) start events)
    (reached : ((world urls sidecar).watched (nowServed agreement)).run (start, 0) events =
      some (finish, count)) :
    ∃ held, finish.held agreement = some held ∧ held.total = was.total + count := by
  have preserved : ∀ (both : State × Nat) (event : Event) (next : State × Nat),
      (both.1.Honest sidecar.address ∧
        ∃ held, both.1.held agreement = some held ∧ held.total = was.total + both.2) →
        both.1.AnswersTruly event ∧ both.1.GoesOn urls sidecar agreement event →
          ((world urls sidecar).watched (nowServed agreement)).step both event = some next →
            next.1.Honest sidecar.address ∧
              ∃ held, next.1.held agreement = some held ∧ held.total = was.total + next.2 := by
    rintro both event next ⟨honest, held, live, total⟩ ⟨truly, goesOn⟩ stepped
    obtain ⟨after, ran, rfl⟩ := Option.map_eq_some_iff.mp stepped
    obtain ⟨now, isNow, counted⟩ := honest.total_step truly goesOn ran live
    refine ⟨honest.step truly ran, now, isNow, ?_⟩
    rw [counted, total, nowServed, Nat.add_assoc]
  have watched := (Machine.meets_watched (world urls sidecar) (nowServed agreement)
    (fun state event => state.AnswersTruly event ∧ state.GoesOn urls sidecar agreement event)
    (start, 0) events).mpr meets
  exact (Machine.run_invariant preserved ⟨honest, was, isHeld, rfl⟩ watched reached).2

/-- Exact billing: while memory holds an agreement, what its other records carry and what its entry
still holds add up to what the records carried as memory took it, and every request since. -/
theorem billed_exactly (genesis : Genesis sidecar.address start)
    (meets : (world urls sidecar).Meets AnswersTruly start (first ++ second))
    (reached : (world urls sidecar).run start first = some middle)
    (begun : (middle.account sidecar.address agreement).Begun)
    (goesOn : (world urls sidecar).Meets (GoesOn urls sidecar agreement) middle second)
    (goes : (world urls sidecar).run middle second = some finish) :
    ∃ held, finish.held agreement = some held ∧
      Account.others (finish.chain.counters sidecar.address agreement) held.counter + held.served =
        Account.total (middle.chain.counters sidecar.address agreement) + held.total ∧
      ∀ count, ((world urls sidecar).watched (nowServed agreement)).run (middle, 0) second =
        some (finish, count) → held.total = count := by
  obtain ⟨before, since⟩ := Machine.meets_append meets reached
  have honest := genesis.honest.run before reached
  have initial := begun.billed (honest.afforded agreement) (honest.rising agreement)
  obtain ⟨_, held, billed⟩ := honest.bills ⟨_, initial⟩ (since.and goesOn) goes
  refine ⟨held, billed.live, billed.balance, fun count served => ?_⟩
  obtain ⟨now, isNow, total⟩ := honest.counts_served begun.1 (since.and goesOn) served
  cases isNow.symm.trans billed.live
  simpa using total

/-- A flush whose write is refused. -/
def refusedFlush : List Event :=
  asking 300 ++ [.countServed [], .write (.failed .failed false)]

/-- Three requests around two flushes: one whose close is refused, and one that lands. -/
def threeServed : List Event :=
  serving ++ refusedFlush ++ .serve 0 :: asking 300 ++ .countServed [] :: closing ++ [.serve 0]

theorem billed_exactly_small : ∃ finish held,
    (world plainUrls smallSidecar).run emptyWorld (beginning ++ threeServed) = some finish ∧
    finish.held 200 = some held ∧ held.total = 3 ∧
      Account.others (finish.chain.counters smallSidecar.address 200) held.counter + held.served =
        3 := by
  have stands : ((world plainUrls smallSidecar).run emptyWorld beginning).map (fun state =>
      decide ((state.account smallSidecar.address 200).Begun ∧
        state.chain.counters smallSidecar.address 200 = [] ∧
        (world plainUrls smallSidecar).Meets (GoesOn plainUrls smallSidecar 200) state
          threeServed ∧
        (((world plainUrls smallSidecar).watched (nowServed 200)).run (state, 0) threeServed).map
          Prod.snd = some 3)) = some true := by
    decide +kernel
  have meets : (world plainUrls smallSidecar).Meets AnswersTruly emptyWorld
      (beginning ++ threeServed) := by
    decide +kernel
  obtain ⟨middle, reached, stands⟩ := Option.map_eq_some_iff.mp stands
  obtain ⟨begun, nothing, goesOn, ran⟩ := of_decide_eq_true stands
  obtain ⟨⟨finish, count⟩, served, rfl⟩ := Option.map_eq_some_iff.mp ran
  have goes := Machine.run_of_watched served
  obtain ⟨held, live, balance, counted⟩ :=
    billed_exactly emptyWorld_genesis meets reached begun goesOn goes
  have total := counted 3 served
  refine ⟨finish, held, Machine.run_append_eq_some.mpr ⟨middle, reached, goes⟩, live, total, ?_⟩
  rw [balance, nothing, total]
  rfl

/-! ## Two flushes -/

/-- No request of the agreement is served, no write is lost or refused but one that goes again in
halves, and no flush is one at a stop. -/
def Undisturbed (agreement : EntityKey) (state : State) : Event → Prop
  | .serve handle => ∀ process ∈ state.process,
      ∀ provider ∈ process.agent.pool.entryAt handle, provider.agreementId ≠ some agreement
  | .write (.failed error _) => error = .tooLarge ∧
      ∀ process ∈ state.process, ∀ batch ∈ process.sending, batch.halves.isSome
  | .countServed _ => ∀ process ∈ state.process, process.task.counting? = some .scheduled
  | _ => True

instance (agreement : EntityKey) (state : State) :
    (event : Event) → Decidable (state.Undisturbed agreement event)
  | .serve _ | .write (.failed _ _) | .countServed _ => by unfold Undisturbed; infer_instance
  | .write (.landed _ _) | .admission _ _ | .sealBlocks _ _ | .catchUp _ | .post _ | .withdraw _
  | .launch _ | .crash | .gate _ _ _ | .admitted _ | .learn _ | .endAdmission _ | .tick _
  | .read _ _ | .unread | .portLooked _ => isTrue trivial

/-- What is undisturbed serves nothing and loses nothing. -/
theorem Undisturbed.calm {label : Label} {account : Account}
    (undisturbed : state.Undisturbed agreement event)
    (emits : state.Emits sidecar.address agreement event label account) : Account.Calm label := by
  constructor
  · rintro rfl
    cases emits with
    | serve runs entry source =>
        refine undisturbed _ runs _ entry ?_
        simp [Provider.agreementId, source]
  · rintro lost rfl
    cases emits with
    | fail runs sends whole => exact whole ⟨undisturbed.1, undisturbed.2 _ runs _ sends⟩

/-- A scheduled flush reads what the agreement's entry counted and asks for what it owes. -/
theorem Honest.counted {base : Nat} {held : Held} {order : List EntityKey}
    (honest : state.Honest sidecar.address)
    (undisturbed : state.Undisturbed agreement (.countServed order))
    (stepped : state.step urls sidecar (.countServed order) = some next)
    (billed : Account.Billed base (state.account sidecar.address agreement) held) :
    ∃ row duplicates opening head period,
      (state.account sidecar.address agreement).desk = .matched true row duplicates ∧
      opening.count = 0 ∧ opening.state = .opened ∧
      Relation.ReflTransGen (Account.Step fun _ _ => False)
        { state.account sidecar.address agreement with
          desk := .writing
            (duplicates.map .delete ++
              (Account.owed .scheduled head period opening row (some held)).1)
            (Account.owed .scheduled head period opening row (some held)).2 }
        (next.account sidecar.address agreement) := by
  obtain ⟨after, changed, rfl⟩ := Option.map_eq_some_iff.mp stepped
  obtain ⟨process, runs, counted⟩ := Option.bind_eq_some_iff.mp changed
  have now := honest.grounded.process process runs
  have same := now.remember (now.agent.reorder order) fun _ => by simp
  have isCounting := counted
  simp only [Process.countServed] at isCounting
  split at isCounting
  · next kind head counters task =>
      obtain rfl : kind = .scheduled := by
        simpa [Task.counting?, task] using undisturbed process runs
      have read := same.task
      have isOpen := honest.opened process runs
      simp only [task] at read isOpen
      obtain ⟨row, duplicates, opening, period, zero, opened, reads, made⟩ :=
        @counts_taken sidecar.address agreement state _ (fun _ _ => False) same.agent _ _ _ task
          read (fun stored member => isOpen stored (List.mem_append_left _ member)) _ counted
      rw [Agent.held_reorder] at reads made
      have live : process.agent.held agreement = some held := by
        rw [← held_of agreement runs]
        exact billed.live
      have here : state.account sidecar.address agreement =
          state.accountWith sidecar.address agreement (.matched true row duplicates)
            (process.agent.held agreement) := by
        rw [account_of sidecar.address agreement runs, ← reads]
        simp only [accountOf, Agent.held_reorder]
        exact congrArg (state.accountWith sidecar.address agreement · _)
          (Task.desk_congr sidecar.address state.chain agreement process.task rfl).symm
      rw [here, account_ran]
      refine ⟨row, duplicates, opening, head, period, rfl, zero, opened, ?_⟩
      rw [live] at made ⊢
      exact made
  · cases isCounting

/-- What quiet steps keep of an agreement that is billed exactly, a run keeps in which memory goes on
holding it and nothing disturbs it. -/
theorem Honest.quietly {base : Nat} {holds : Account → Prop} (honest : start.Honest sidecar.address)
    (preserved : ∀ before after : Account, ∀ held, Account.Billed base before held →
      holds before → Account.Step Account.Quiet before after → holds after)
    (billed : ∃ held, Account.Billed base (start.account sidecar.address agreement) held)
    (initial : holds (start.account sidecar.address agreement))
    (meets : (world urls sidecar).Meets (fun state event => state.AnswersTruly event ∧
      state.GoesOn urls sidecar agreement event ∧ state.Undisturbed agreement event) start events)
    (reached : (world urls sidecar).run start events = some finish) :
    finish.Honest sidecar.address ∧
      (∃ held, Account.Billed base (finish.account sidecar.address agreement) held) ∧
        holds (finish.account sidecar.address agreement) := by
  have steps : ∀ before after : Account, before.Afforded →
      (∃ held, Account.Billed base before held) ∧ holds before →
        Account.Step (fun label account =>
          (Account.Truthful label account ∧ Account.Steady label) ∧ Account.Calm label)
          before after → (∃ held, Account.Billed base after held) ∧ holds after := by
    rintro before after afforded ⟨⟨held, billed⟩, isHeld⟩ step
    have quiet := afforded.quiet_step billed step
    exact ⟨billed.step (quiet.mono fun _ => Account.Quiet.exact),
      preserved before after held billed isHeld quiet⟩
  refine honest.run_keeps steps (fun _ _ both => both.1.1) ?_ ⟨billed, initial⟩ meets reached
  rintro state event next honest truly ⟨goesOn, undisturbed⟩ stepped
  exact (honest.steady truly goesOn stepped).lift id fun _ _ step =>
    step.mono fun _ both => ⟨⟨both.1.2, both.2⟩, undisturbed.calm both.1.1⟩

/-- A flush leaves a record to count into, and one that finds such a record leaves nothing. -/
theorem Honest.flushes {base : Nat} {order : List EntityKey}
    (honest : state.Honest sidecar.address)
    (billed : ∃ held, Account.Billed base (state.account sidecar.address agreement) held)
    (undisturbed : state.Undisturbed agreement (.countServed order))
    (stepped : state.step urls sidecar (.countServed order) = some next) :
    (∃ held, Account.Billed base (next.account sidecar.address agreement) held) ∧
      ((Account.Settled base (next.account sidecar.address agreement) ∨
        Account.Paying (next.account sidecar.address agreement)) ∨
          Account.Opening (next.account sidecar.address agreement)) ∧
      ((Account.Settled base (state.account sidecar.address agreement) ∨
        Account.Paying (state.account sidecar.address agreement)) ∨
          Account.Opening (state.account sidecar.address agreement) →
        Account.Settled base (next.account sidecar.address agreement) ∨
          Account.Paying (next.account sidecar.address agreement)) := by
  obtain ⟨held, billed⟩ := billed
  obtain ⟨row, duplicates, opening, head, period, desk, zero, opened, follows⟩ :=
    honest.counted undisturbed stepped billed
  exact billed.flushed desk zero opened rfl follows

/-- One flush after the other, an agreement's whole count reaches the chain: once both are done the
counts of its records are what they were as memory took it and every request served since, nothing
lost and nothing twice.  Before the first flush anything may have happened while memory held it. -/
theorem two_flushes_settle {third fourth fifth : List Event} {one other : List EntityKey}
    {rest : State} (genesis : Genesis sidecar.address start)
    (meets : (world urls sidecar).Meets AnswersTruly start
      (first ++ (second ++ (third ++ .countServed one :: (fourth ++ .countServed other :: fifth)))))
    (reached : (world urls sidecar).run start first = some middle)
    (begun : (middle.account sidecar.address agreement).Begun)
    (goesOn : (world urls sidecar).Meets (GoesOn urls sidecar agreement) middle
      (second ++ (third ++ .countServed one :: (fourth ++ .countServed other :: fifth))))
    (served : (world urls sidecar).run middle second = some rest)
    (undisturbed : (world urls sidecar).Meets (Undisturbed agreement) rest
      (third ++ .countServed one :: (fourth ++ .countServed other :: fifth)))
    (goes : (world urls sidecar).run rest
      (third ++ .countServed one :: (fourth ++ .countServed other :: fifth)) = some finish)
    (done : ∀ process ∈ finish.process, process.task = .idle) :
    ∃ held, finish.held agreement = some held ∧
      Account.total (finish.chain.counters sidecar.address agreement) =
        Account.total (middle.chain.counters sidecar.address agreement) + held.total ∧
      ∀ count, ((world urls sidecar).watched (nowServed agreement)).run (middle, 0)
          (second ++ (third ++ .countServed one :: (fourth ++ .countServed other :: fifth))) =
        some (finish, count) → held.total = count := by
  obtain ⟨before, since⟩ := Machine.meets_append meets reached
  have honest := genesis.honest.run before reached
  have begins := begun.billed (honest.afforded agreement) (honest.rising agreement)
  have counts : ∀ count, ((world urls sidecar).watched (nowServed agreement)).run (middle, 0)
        (second ++ (third ++ .countServed one :: (fourth ++ .countServed other :: fifth))) =
      some (finish, count) →
        ∃ held, finish.held agreement = some held ∧ held.total = 0 + count :=
    fun _ ran => honest.counts_served begun.1 (since.and goesOn) ran
  obtain ⟨serving, flushing⟩ := Machine.meets_append (since.and goesOn) served
  obtain ⟨honest, billed⟩ := honest.bills ⟨_, begins⟩ serving served
  have quiet : (world urls sidecar).Meets (fun state event => state.AnswersTruly event ∧
      state.GoesOn urls sidecar agreement event ∧ state.Undisturbed agreement event) rest
      (third ++ .countServed one :: (fourth ++ .countServed other :: fifth)) :=
    (flushing.and undisturbed).mono fun _ _ all => ⟨all.1.1, all.1.2, all.2⟩
  obtain ⟨asks, toFirst, fromFirst⟩ := Machine.run_append_eq_some.mp goes
  obtain ⟨quietFirst, quiet⟩ := Machine.meets_append quiet toFirst
  obtain ⟨asked, firstFlush, fromFirst⟩ := Machine.run_cons_eq_some.mp fromFirst
  obtain ⟨asksAgain, toSecond, fromSecond⟩ := Machine.run_append_eq_some.mp fromFirst
  obtain ⟨quietSecond, quietLast⟩ := Machine.meets_append (quiet.2 asked firstFlush) toSecond
  obtain ⟨askedAgain, secondFlush, fromSecond⟩ := Machine.run_cons_eq_some.mp fromSecond
  have firstFlush : asks.step urls sidecar (.countServed one) = some asked := firstFlush
  have secondFlush : asksAgain.step urls sidecar (.countServed other) = some askedAgain := secondFlush
  -- The first flush.
  obtain ⟨honest, billed⟩ := honest.bills billed
    (quietFirst.mono fun _ _ all => And.intro all.1 all.2.1) toFirst
  obtain ⟨billed, covered, _⟩ := honest.flushes billed quiet.1.2.2 firstFlush
  have honest := honest.step quiet.1.1 firstFlush
  -- The second.
  obtain ⟨honest, billed, covered⟩ := honest.quietly
    (fun _ _ _ billed covered step => Account.covered_step covered billed step) billed covered
    quietSecond toSecond
  obtain ⟨billed, _, pays⟩ := honest.flushes billed quietLast.1.2.2 secondFlush
  have honest := honest.step quietLast.1.1 secondFlush
  obtain ⟨honest, billed, paid⟩ := honest.quietly
    (fun _ _ _ billed paid step => Account.paid_step paid billed step) billed (pays covered)
    (quietLast.2 askedAgain secondFlush) fromSecond
  have sent : (finish.desk sidecar.address agreement).queue = [] := by
    cases runs : finish.process with
    | none => simp [State.desk, runs]
    | some process => simp [State.desk, runs, done process runs, Task.desk]
  obtain ⟨held, live, settled⟩ := Account.settled_of_sent paid sent
  refine ⟨held, live, settled, fun count ran => ?_⟩
  obtain ⟨now, isNow, total⟩ := counts count ran
  cases isNow.symm.trans live
  simpa using total

/-- The first flush and the next, after a request. -/
def twoFlushes : List Event :=
  asking 300 ++ .countServed [] :: ((closing ++ asking 302) ++ .countServed [] :: [])

theorem two_flushes_settle_small : ∃ finish held,
    (world plainUrls smallSidecar).run emptyWorld (beginning ++ (serving ++ twoFlushes)) =
      some finish ∧ finish.held 200 = some held ∧
    Account.total (finish.chain.counters smallSidecar.address 200) = held.total := by
  have ran : ((world plainUrls smallSidecar).run emptyWorld
      (beginning ++ (serving ++ twoFlushes))).map (fun state =>
        state.process.all fun process => process.task.isIdle) = some true := by
    decide +kernel
  have meets : (world plainUrls smallSidecar).Meets AnswersTruly emptyWorld
      (beginning ++ (serving ++ twoFlushes)) := by
    decide +kernel
  have stands : ((world plainUrls smallSidecar).run emptyWorld beginning).map (fun state =>
      decide ((state.account smallSidecar.address 200).Begun ∧
        state.chain.counters smallSidecar.address 200 = [] ∧
        (world plainUrls smallSidecar).Meets (GoesOn plainUrls smallSidecar 200) state
          (serving ++ twoFlushes))) = some true := by
    decide +kernel
  have rests : ((world plainUrls smallSidecar).run emptyWorld (beginning ++ serving)).map
      (fun state => decide ((world plainUrls smallSidecar).Meets (Undisturbed 200) state
        twoFlushes)) = some true := by
    decide +kernel
  obtain ⟨finish, reaches, idle⟩ := Option.map_eq_some_iff.mp ran
  obtain ⟨middle, reached, goes⟩ := Machine.run_append_eq_some.mp reaches
  obtain ⟨rest, served, flushes⟩ := Machine.run_append_eq_some.mp goes
  rw [reached] at stands
  rw [Machine.run_append_eq_some.mpr ⟨middle, reached, served⟩] at rests
  obtain ⟨begun, nothing, goesOn⟩ := of_decide_eq_true (Option.some.inj stands)
  have done : ∀ process ∈ finish.process, process.task = .idle := by
    intro process runs
    have isIdle := (Option.all_eq_true _ _).mp idle process runs
    cases task : process.task <;> simp_all [Task.isIdle]
  obtain ⟨held, live, settled, -⟩ := two_flushes_settle emptyWorld_genesis meets reached begun goesOn
    served (of_decide_eq_true (Option.some.inj rests)) flushes done
  refine ⟨finish, held, reaches, live, ?_⟩
  rw [settled, nothing]
  exact Nat.zero_add _

end State

end CommunityLb
