import CommunityLb.Marketplace.Memory

/-!
# What memory learned of an expiry

An extend moves an agreement's expiry on the chain; memory learns it from a page or, after an
admission, from the extend's answer.  A page that was answered before the extend landed, or an answer
that comes after a later one was learned, would take memory back.
-/

namespace CommunityLb

namespace State

/-- The expiry memory has for an agreement. -/
def expiryOf (state : State) (agreement : EntityKey) : Option Nat :=
  state.process.bind fun process =>
    (process.agent.stands agreement).map fun held => held.1.expiresAt

/-- A chain, and no process yet. -/
structure Origin (state : State) : Prop where
  process : state.process = none
  trails : state.Trails

/-- The latest expiry that was ever learned of an agreement, by this process or one before it. -/
abbrev Learnt := EntityKey → Nat

/-- The answer to an agreement's extend that an event applies. -/
def answerTo (state : State) (agreement : EntityKey) : Event → Option Nat
  | .learn index => do
      let process ← state.process
      let task ← process.agent.admissions[index]?
      if task.agreement = agreement then task.answer else none
  | _ => none

/-- One step: what memory holds after it is learned, and so is an answer that is applied. -/
def nowLearnt (before : Learnt) (state : State) (event : Event) (next : State) : Learnt :=
  fun agreement => max (before agreement)
    (max ((next.expiryOf agreement).getD 0) ((state.answerTo agreement event).getD 0))

/-- No page of agreement records is taken over that shows one with an expiry before the latest that
was learned of it, and no answer is applied to an agreement in memory after a later expiry of it was
learned. -/
def InTime (both : State × Learnt) : Event → Prop
  | .read shown _ => ∀ process ∈ both.1.process, ∀ head ∈ process.task.pageHead,
      ∀ rows ∈ both.1.view.page (process.agent.agreementsQuery head) shown, ∀ row ∈ rows,
        row.record.asAgreement.isSome → both.2 row.key ≤ row.expiresAt
  | .learn index => ∀ process ∈ both.1.process, ∀ task ∈ process.agent.admissions[index]?,
      ∀ expiresAt ∈ task.answer, (process.agent.stands task.agreement).isSome →
        both.2 task.agreement ≤ expiresAt
  | _ => True

instance (both : State × Learnt) : (event : Event) → Decidable (InTime both event)
  | .read _ _ | .learn _ => by unfold InTime; infer_instance
  | .sealBlocks _ _ | .catchUp _ | .post _ | .withdraw _ | .launch _ | .crash | .serve _
  | .gate _ _ _ | .admitted _ | .admission _ _ | .endAdmission _ | .tick _ | .unread
  | .countServed _ | .portLooked _ | .write _ => isTrue trivial

/-! ## Memory against the chain -/

/-- The row of an agreement in memory, written no earlier and expiring no earlier than memory has
it. -/
structure Backs (chain : Chain) (key : EntityKey) (stored : Stored Agreement) (row : Stored Record) :
    Prop where
  found : chain.entities.get? key = some row
  createdAt : stored.createdAt ≤ row.createdAt
  expiresAt : stored.expiresAt ≤ row.expiresAt

/-- The row that an admission extended. -/
structure Extended (chain : Chain) (life : Nat) (pair : EntityKey × Nat) (row : Stored Record) :
    Prop where
  found : chain.entities.get? pair.1 = some row
  life : row.createdAt + life ≤ pair.2
  expiresAt : pair.2 ≤ row.expiresAt

/-- Memory is never ahead of the chain. -/
structure Abreast (state : State) : Prop where
  trails : state.Trails
  headed : state.Headed
  known : ∀ process ∈ state.process, ∀ key stored handle,
    process.agent.stands key = some (stored, handle) → ∃ row, Backs state.chain key stored row
  answers : ∀ process ∈ state.process, ∀ pair ∈ process.agent.answers,
    ∃ row, Extended state.chain (blocks process.agent.config.agreementLife) pair row

variable {urls : Urls} {sidecar : Identity} {state next : State}

theorem Backs.stays {chain later : Chain} {key : EntityKey} {stored : Stored Agreement}
    {row : Stored Record} (backs : Backs chain key stored row) (stays : chain.Stays later) :
    ∃ now, Backs later key stored now := by
  obtain ⟨now, isNow, became⟩ := stays.row key row backs.found
  exact ⟨now, isNow, became.createdAt ▸ backs.createdAt, backs.expiresAt.trans became.expiresAt⟩

theorem Extended.stays {chain later : Chain} {life : Nat} {pair : EntityKey × Nat}
    {row : Stored Record} (extended : Extended chain life pair row) (stays : chain.Stays later) :
    ∃ now, Extended later life pair now := by
  obtain ⟨now, isNow, became⟩ := stays.row pair.1 row extended.found
  exact ⟨now, isNow, became.createdAt ▸ extended.life,
    extended.expiresAt.trans became.expiresAt⟩

theorem Origin.abreast (origin : state.Origin) : state.Abreast where
  trails := origin.trails
  headed := by simp [Headed, origin.process]
  known := by simp [origin.process]
  answers := by simp [origin.process]

/-- Nothing is known when nothing runs. -/
theorem Abreast.off (trails : next.Trails) (gone : next.process = none) : next.Abreast where
  trails := trails
  headed := by simp [Headed, gone]
  known := by simp [gone]
  answers := by simp [gone]

/-- The rows a page shows are of the chain, no later than it has them. -/
theorem Trails.shown {query : Query} {shown : List EntityKey} {rows : List (Stored Record)}
    (trails : state.Trails) (page : state.view.page query shown = some rows) {row : Stored Record}
    (inRows : row ∈ rows) :
    ∃ now, state.chain.entities.get? row.key = some now ∧ row.Became now :=
  trails.view.row row.key row (Keyed.get?_key (Chain.page_mem page inRows).1)

theorem answers_endAdmission {agent : Agent} {index : Nat} {pair : EntityKey × Nat}
    (member : pair ∈ (agent.endAdmission index).answers) : pair ∈ agent.answers := by
  obtain ⟨task, isTask, isPair⟩ := List.mem_filterMap.mp member
  exact List.mem_filterMap.mpr ⟨task, List.mem_of_mem_eraseIdx isTask, isPair⟩

/-- The answer an extend gets joins those on their way. -/
theorem answers_awaitAnswer {agent : Agent} {index expiresAt : Nat} {pair : EntityKey × Nat}
    (member : pair ∈ (agent.awaitAnswer index expiresAt).answers) :
    pair ∈ agent.answers ∨ ∃ task ∈ agent.admissions[index]?, pair = (task.agreement, expiresAt) := by
  obtain ⟨task, isTask, isPair⟩ := List.mem_filterMap.mp member
  obtain ⟨position, isAt⟩ := List.mem_iff_getElem?.mp isTask
  simp only [Agent.awaitAnswer, List.getElem?_modify] at isAt
  split at isAt
  · next same =>
      subst same
      obtain ⟨old, isOld, rfl⟩ := Option.map_eq_some_iff.mp isAt
      cases isPair
      exact .inr ⟨old, isOld, rfl⟩
  · have isAt : agent.admissions[position]? = some task := by simpa using isAt
    exact .inl (List.mem_filterMap.mpr ⟨task, List.mem_of_getElem? isAt, isPair⟩)

theorem stands_learnExpiry (agent : Agent) (agreement key : EntityKey) (expiresAt : Nat) :
    (agent.learnExpiry agreement expiresAt).stands key =
      if key = agreement then
        (agent.stands key).map fun held => ({ held.1 with expiresAt := expiresAt }, held.2)
      else agent.stands key := by
  have adjusted := Keyed.get?_adjust agent.agreements agreement
    (fun live => { live with agreement := { live.agreement with expiresAt := expiresAt } })
    (fun _ => rfl) key
  refine (congrArg (Option.map fun live => (live.agreement, live.provider)) adjusted).trans ?_
  split
  · simp only [Agent.stands, Option.map_map]
    rfl
  · rfl

theorem Abreast.step {event : Event} (abreast : state.Abreast)
    (stepped : state.step urls sidecar event = some next) : next.Abreast := by
  have stays := (step_advances stepped).stays
  have trails := abreast.trails.step stepped
  have headed := abreast.headed.step stepped
  cases step_turn stepped with
  | off gone => exact .off trails gone
  | launch given now =>
      refine ⟨trails, headed, fun process isThere key stored handle stands => ?_,
        fun process isThere pair member => ?_⟩
      · cases now.symm.trans isThere
        cases stands
      · cases now.symm.trans isThere
        cases member
  | @retains _ before after was now retains =>
      refine ⟨trails, headed, fun process isThere key stored handle stands => ?_,
        fun process isThere pair member => ?_⟩
      · cases now.symm.trans isThere
        rw [retains.stands] at stands
        obtain ⟨row, backs⟩ := abreast.known before was key stored handle stands
        exact backs.stays stays
      · cases now.symm.trans isThere
        obtain ⟨row, extended⟩ := abreast.answers before was pair (retains.answers pair member)
        rw [retains.config]
        exact extended.stays stays
  | @page before work head shown order rows was task page now chain =>
      have distinct := Chain.page_distinct page
      refine ⟨trails, headed, fun process isThere key stored handle stands => ?_,
        fun process isThere pair member => ?_⟩
      · cases now.symm.trans isThere
        obtain ⟨row, inRows, _, rfl, _, created, expires, _⟩ :=
          Process.reconcileAgreements_stands distinct stands
        obtain ⟨now, isNow, became⟩ := abreast.trails.shown page inRows
        exact ⟨now, chain ▸ isNow, (created.trans became.createdAt.symm).le,
          expires.le.trans became.expiresAt⟩
      · cases now.symm.trans isThere
        obtain ⟨config, _, answers⟩ := Process.reconcileAgreements_kept
          { before with
            agent := { before.agent with agreements := before.agent.agreements.reorder order } }
          work head rows
        rw [answers] at member
        obtain ⟨row, extended⟩ := abreast.answers before was pair member
        rw [config, chain]
        exact ⟨row, extended⟩
  | @accept before discovery offer port key fates keys was task later free row now =>
      refine ⟨trails, headed, fun process isThere other stored handle stands => ?_,
        fun process isThere pair member => ?_⟩
      · cases now.symm.trans isThere
        rw [Agent.stands_insertAgreement] at stands
        split at stands
        · next same =>
            cases stands
            have same : other = key := same
            have read : discovery.head ≤ state.chain.head :=
              abreast.headed before was discovery.head (by rw [task]; rfl)
            exact ⟨_, same ▸ row, read.trans later.le, le_rfl⟩
        · obtain ⟨row, backs⟩ := abreast.known before was other stored handle stands
          exact backs.stays stays
      · cases now.symm.trans isThere
        obtain ⟨row, extended⟩ := abreast.answers before was pair member
        exact extended.stays stays
  | @extend before index task row fates keys was runs isRow expires now =>
      refine ⟨trails, headed, fun process isThere key stored handle stands => ?_,
        fun process isThere pair member => ?_⟩
      · cases now.symm.trans isThere
        obtain ⟨row, backs⟩ := abreast.known before was key stored handle stands
        exact backs.stays stays
      · cases now.symm.trans isThere
        rcases answers_awaitAnswer member with old | ⟨other, isOther, rfl⟩
        · obtain ⟨row, extended⟩ := abreast.answers before was pair old
          exact extended.stays stays
        · cases runs.symm.trans isOther
          have dated := trails.dated task.agreement row isRow
          exact ⟨row, isRow, Nat.add_le_add_right dated _, expires.ge⟩
  | @learn before index task expiresAt was runs answer now chain =>
      have inAnswers : (task.agreement, expiresAt) ∈ before.agent.answers :=
        List.mem_filterMap.mpr ⟨task, List.mem_of_getElem? runs, by rw [answer]; rfl⟩
      refine ⟨trails, headed, fun process isThere key stored handle stands => ?_,
        fun process isThere pair member => ?_⟩
      · cases now.symm.trans isThere
        have stands : (before.agent.learnExpiry task.agreement expiresAt).stands key =
          some (stored, handle) := stands
        rw [stands_learnExpiry] at stands
        split at stands
        · next same =>
            subst same
            obtain ⟨held, isHeld, same⟩ := Option.map_eq_some_iff.mp stands
            cases same
            obtain ⟨row, backs⟩ := abreast.known before was _ held.1 held.2 isHeld
            obtain ⟨other, extended⟩ := abreast.answers before was _ inAnswers
            obtain rfl := Option.some.inj (backs.found.symm.trans extended.found)
            exact ⟨row, chain ▸ backs.found, backs.createdAt, extended.expiresAt⟩
        · obtain ⟨row, backs⟩ := abreast.known before was key stored handle stands
          exact ⟨row, chain ▸ backs.found, backs.createdAt, backs.expiresAt⟩
      · cases now.symm.trans isThere
        obtain ⟨row, extended⟩ := abreast.answers before was pair (answers_endAdmission member)
        exact ⟨row, chain ▸ extended.found, extended.life, extended.expiresAt⟩

/-! ## What is learned stays learned -/

/-- An agreement's record has an expiry that memory, if it has the agreement, is not behind. -/
structure Learned (state : State) (key : EntityKey) (createdAt floor : Nat) : Prop where
  row : ∃ row, state.chain.entities.get? key = some row ∧ row.createdAt = createdAt ∧
    floor ≤ row.expiresAt
  memory : ∀ process ∈ state.process, ∀ stored handle,
    process.agent.stands key = some (stored, handle) → floor ≤ stored.expiresAt

theorem Learned.step {event : Event} {key : EntityKey} {createdAt floor : Nat} {learnt : Learnt}
    (learned : state.Learned key createdAt floor) (told : floor ≤ learnt key)
    (inTime : InTime (state, learnt) event)
    (stepped : state.step urls sidecar event = some next) :
    next.Learned key createdAt floor := by
  obtain ⟨row, found, created, expires⟩ := learned.row
  have row' : ∃ row, next.chain.entities.get? key = some row ∧ row.createdAt = createdAt ∧
      floor ≤ row.expiresAt := by
    obtain ⟨now, isNow, became⟩ := (step_advances stepped).stays.row key row found
    exact ⟨now, isNow, became.createdAt.trans created, expires.trans became.expiresAt⟩
  refine ⟨row', fun process isThere stored handle stands => ?_⟩
  cases step_turn stepped with
  | off gone =>
      rw [gone] at isThere
      cases isThere
  | launch given now =>
      cases now.symm.trans isThere
      cases stands
  | retains was now retains =>
      cases now.symm.trans isThere
      rw [retains.stands] at stands
      exact learned.memory _ was stored handle stands
  | @page before work head shown order rows was task page now chain =>
      cases now.symm.trans isThere
      obtain ⟨shownRow, inRows, record, rfl, isAgreement, _, sameExpiry, _⟩ :=
        Process.reconcileAgreements_stands (Chain.page_distinct page) stands
      rw [sameExpiry]
      exact told.trans (inTime before was head (by rw [task]; rfl) rows page shownRow inRows
        (by rw [isAgreement]; rfl))
  | @accept before discovery offer port created fates keys was task later free row now =>
      cases now.symm.trans isThere
      rw [Agent.stands_insertAgreement] at stands
      split at stands
      · next same =>
          have same : key = created := same
          rw [← same, found] at free
          cases free
      · exact learned.memory before was stored handle stands
  | extend was runs isRow expires now =>
      cases now.symm.trans isThere
      exact learned.memory _ was stored handle stands
  | @learn before index task expiresAt was runs answer now chain =>
      cases now.symm.trans isThere
      have stands : (before.agent.learnExpiry task.agreement expiresAt).stands key =
        some (stored, handle) := stands
      rw [stands_learnExpiry] at stands
      split at stands
      · next same =>
          subst same
          obtain ⟨held, isHeld, same⟩ := Option.map_eq_some_iff.mp stands
          cases same
          exact told.trans (inTime before was task runs expiresAt answer (by rw [isHeld]; rfl))
      · exact learned.memory before was stored handle stands

/-- An answer that is applied is learned. -/
theorem Abreast.learned {index : Nat} {task : Admission} {process : Process}
    (abreast : state.Abreast) (isThere : state.process = some process)
    (runs : process.agent.admissions[index]? = some task)
    (stepped : state.step urls sidecar (.learn index) = some next) (learnt : Learnt) :
    ∃ createdAt, next.Learned task.agreement createdAt
        (createdAt + blocks process.agent.config.agreementLife) ∧
      createdAt + blocks process.agent.config.agreementLife ≤
        nowLearnt learnt state (.learn index) next task.agreement := by
  obtain ⟨after, changed, rfl⟩ := Option.map_eq_some_iff.mp stepped
  obtain ⟨before, was, changes⟩ := Option.bind_eq_some_iff.mp changed
  cases isThere.symm.trans was
  simp only [admissionAnswered, Option.bind_eq_bind, Option.bind_eq_some_iff] at changes
  obtain ⟨other, isOther, expiresAt, answer, changes⟩ := changes
  cases runs.symm.trans isOther
  cases changes
  have inAnswers : (task.agreement, expiresAt) ∈ process.agent.answers :=
    List.mem_filterMap.mpr ⟨task, List.mem_of_getElem? runs, by rw [answer]; rfl⟩
  obtain ⟨row, extended⟩ := abreast.answers process was _ inAnswers
  have told : state.answerTo task.agreement (.learn index) = some expiresAt := by
    simp [answerTo, isThere, runs, answer]
  refine ⟨row.createdAt, ⟨⟨row, extended.found, rfl, extended.life.trans extended.expiresAt⟩, ?_⟩,
    ?_⟩
  rotate_left
  · rw [nowLearnt, told]
    exact extended.life.trans (le_max_of_le_right (le_max_right _ _))
  rintro _ ⟨⟩ stored handle stands
  have stands : (process.agent.learnExpiry task.agreement expiresAt).stands task.agreement =
    some (stored, handle) := stands
  rw [stands_learnExpiry, if_pos rfl] at stands
  obtain ⟨held, _, same⟩ := Option.map_eq_some_iff.mp stands
  cases same
  exact extended.life

/-- An agreement whose extend was learned is not admitted again. -/
theorem Learned.admitted {key : EntityKey} {createdAt : Nat} {process : Process}
    (abreast : state.Abreast) (isThere : state.process = some process)
    (learned : state.Learned key createdAt
      (createdAt + blocks process.agent.config.agreementLife)) :
    process.agent.admitted key = process.agent := by
  rw [Agent.admitted]
  split
  · rfl
  · next live found =>
      have stands : process.agent.stands key = some (live.agreement, live.provider) := by
        simp [Agent.stands, found]
      have floor := learned.memory process isThere _ _ stands
      obtain ⟨row, isRow, rfl, _⟩ := learned.row
      obtain ⟨other, backs⟩ := abreast.known process isThere key _ _ stands
      obtain rfl := Option.some.inj (isRow.symm.trans backs.found)
      have old := backs.createdAt
      have extended : Agent.wasExtended live process.agent.config.agreementLife = true := by
        have life : blocks process.agent.config.agreementLife ≤
            live.agreement.expiresAt - live.agreement.createdAt := by
          apply Nat.le_sub_of_add_le
          rw [Nat.add_comm]
          exact (Nat.add_le_add_right old _).trans floor
        simpa [Agent.wasExtended] using life
      rw [if_pos (.inl extended)]

/-- The expiry memory has is learned. -/
theorem Abreast.held {key : EntityKey} {expiresAt : Nat} (abreast : state.Abreast)
    (isHeld : state.expiryOf key = some expiresAt) :
    ∃ createdAt, state.Learned key createdAt expiresAt := by
  obtain ⟨process, isThere, held⟩ := Option.bind_eq_some_iff.mp isHeld
  obtain ⟨⟨stored, handle⟩, stands, rfl⟩ := Option.map_eq_some_iff.mp held
  obtain ⟨row, backs⟩ := abreast.known process isThere key stored handle stands
  refine ⟨row.createdAt, ⟨row, backs.found, rfl, backs.expiresAt⟩, ?_⟩
  rintro other isOther again by_ stands'
  cases isThere.symm.trans isOther
  cases stands.symm.trans stands'
  exact le_rfl

/-- Memory is not ahead of the chain in any later state. -/
theorem Abreast.run {middle finish : State} {events : List Event} (abreast : middle.Abreast)
    (reached : (world urls sidecar).run middle events = some finish) : finish.Abreast := by
  have preserved : ∀ (state : State) (event : Event) (next : State), state.Abreast →
      (world urls sidecar).step state event = some next → next.Abreast :=
    fun _ _ _ abreast stepped => Abreast.step abreast stepped
  exact Machine.run_preserves preserved abreast reached

/-- What was learned is learned in every later state of a run whose steps are in time. -/
theorem Learned.run {key : EntityKey} {createdAt floor : Nat} {middle finish : State × Learnt}
    {events : List Event} (learned : middle.1.Learned key createdAt floor)
    (told : floor ≤ middle.2 key)
    (inTime : ((world urls sidecar).watched nowLearnt).Meets InTime middle events)
    (reached : ((world urls sidecar).watched nowLearnt).run middle events = some finish) :
    finish.1.Learned key createdAt floor := by
  have preserved : ∀ (both : State × Learnt) (event : Event) (next : State × Learnt),
      (both.1.Learned key createdAt floor ∧ floor ≤ both.2 key) → InTime both event →
        ((world urls sidecar).watched nowLearnt).step both event = some next →
          next.1.Learned key createdAt floor ∧ floor ≤ next.2 key := by
    rintro both event next ⟨learned, told⟩ inTime stepped
    obtain ⟨after, ran, rfl⟩ := Option.map_eq_some_iff.mp stepped
    exact ⟨learned.step told inTime ran, told.trans (le_max_left _ _)⟩
  exact (Machine.run_invariant preserved ⟨learned, told⟩ inTime reached).1

/-- Memory is never ahead of the chain, and what it holds is learned. -/
theorem Origin.told {start : State} {both : State × Learnt} {events : List Event}
    (origin : start.Origin)
    (reached : ((world urls sidecar).watched nowLearnt).run (start, fun _ => 0) events =
      some both) :
    both.1.Abreast ∧
      ∀ key expiresAt, both.1.expiryOf key = some expiresAt → expiresAt ≤ both.2 key := by
  have preserved : ∀ (both : State × Learnt) (event : Event) (next : State × Learnt),
      (both.1.Abreast ∧
        ∀ key expiresAt, both.1.expiryOf key = some expiresAt → expiresAt ≤ both.2 key) →
        ((world urls sidecar).watched nowLearnt).step both event = some next →
          next.1.Abreast ∧
            ∀ key expiresAt, next.1.expiryOf key = some expiresAt → expiresAt ≤ next.2 key := by
    rintro both event next ⟨abreast, -⟩ stepped
    obtain ⟨after, ran, rfl⟩ := Option.map_eq_some_iff.mp stepped
    refine ⟨Abreast.step abreast ran, fun key expiresAt isHeld => ?_⟩
    have held : (after.expiryOf key).getD 0 = expiresAt := by rw [isHeld, Option.getD_some]
    exact le_max_of_le_right (le_max_of_le_left held.ge)
  refine Machine.run_preserves preserved ⟨origin.abreast, fun key expiresAt isHeld => ?_⟩ reached
  rw [expiryOf, origin.process] at isHeld
  cases isHeld

/-- In a run whose pages and answers are in time, the expiry memory has for an agreement never
decreases, and a tunnel that is admitted after an extend was answered starts no other admission. -/
theorem learned_of_inTime {start : State} {middle finish : State × Learnt}
    {before after : List Event} (origin : start.Origin)
    (inTime : ((world urls sidecar).watched nowLearnt).Meets InTime (start, fun _ => 0)
      (before ++ after))
    (reached : ((world urls sidecar).watched nowLearnt).run (start, fun _ => 0) before =
      some middle)
    (goes : ((world urls sidecar).watched nowLearnt).run middle after = some finish) :
    (∀ key earlier later, middle.1.expiryOf key = some earlier →
      finish.1.expiryOf key = some later → earlier ≤ later) ∧
    ∀ index rest process task, after = .learn index :: rest → middle.1.process = some process →
      process.agent.admissions[index]? = some task → ∀ last ∈ finish.1.process,
        last.agent.config.agreementLife = process.agent.config.agreementLife →
          last.agent.admitted task.agreement = last.agent := by
  obtain ⟨abreast, held⟩ := origin.told reached
  have late := (Machine.meets_append inTime reached).2
  constructor
  · intro key earlier later isEarlier isLater
    obtain ⟨createdAt, learned⟩ := abreast.held isEarlier
    obtain ⟨process, isThere, holds⟩ := Option.bind_eq_some_iff.mp isLater
    obtain ⟨⟨stored, handle⟩, stands, rfl⟩ := Option.map_eq_some_iff.mp holds
    exact (learned.run (held key earlier isEarlier) late goes).memory process isThere stored handle
      stands
  · rintro index rest process task rfl isThere runs last isLast sameLife
    obtain ⟨next, stepped, rest⟩ := Machine.run_cons_eq_some.mp goes
    obtain ⟨after, ran, rfl⟩ := Option.map_eq_some_iff.mp stepped
    have ran : middle.1.step urls sidecar (.learn index) = some after := ran
    obtain ⟨createdAt, learned, told⟩ := abreast.learned isThere runs ran middle.2
    have learned := learned.run told (late.2 _ stepped) rest
    rw [← sameLife] at learned
    have both := Machine.run_append_eq_some.mpr ⟨middle, reached, goes⟩
    exact learned.admitted (origin.told both).1 isLast

/-- An extend at admission lands while no poll is under way. -/
def extendAtAdmission : List Event :=
  [.admitted 200, .admission 0 (.landed [] [400])]

/-- The extend is answered, and the next poll reads the row it extended. -/
def answerThenPoll : List Event :=
  [.learn 0, .catchUp 1, .tick .poll, answered, answered, .read [200] []]

/-- The extend lands and is answered between the two reads of a poll. -/
def answerDuringPoll : List Event :=
  [.admitted 200, .tick .poll, answered, answered, .admission 0 (.landed [] [400]), .learn 0]

theorem emptyWorld_origin : emptyWorld.Origin where
  process := rfl
  trails :=
    { dated := by
        intro key row found
        cases found
      behind := by simp [emptyWorld] }

theorem learned_of_inTime_small :
    ∃ middle finish,
      ((world plainUrls smallSidecar).watched nowLearnt).run (emptyWorld, fun _ => 0)
        (startUp smallSection ++ acceptance ++ extendAtAdmission) = some middle ∧
      ((world plainUrls smallSidecar).watched nowLearnt).run middle answerThenPoll = some finish ∧
      (∀ key earlier later, middle.1.expiryOf key = some earlier →
        finish.1.expiryOf key = some later → earlier ≤ later) ∧
      ∀ last ∈ finish.1.process, last.agent.config.agreementLife = smallSection.agreementLife →
        last.agent.admitted 200 = last.agent := by
  have ran : (((world plainUrls smallSidecar).watched nowLearnt).run (emptyWorld, fun _ => 0)
      (startUp smallSection ++ acceptance ++ extendAtAdmission ++ answerThenPoll)).isSome := by
    decide +kernel
  obtain ⟨finish, reaches⟩ := Option.isSome_iff_exists.mp ran
  obtain ⟨middle, reached, goes⟩ := Machine.run_append_eq_some.mp reaches
  have inTime : ((world plainUrls smallSidecar).watched nowLearnt).Meets InTime
      (emptyWorld, fun _ => 0)
      (startUp smallSection ++ acceptance ++ extendAtAdmission ++ answerThenPoll) := by
    decide +kernel
  have waits : (((world plainUrls smallSidecar).watched nowLearnt).run (emptyWorld, fun _ => 0)
      (startUp smallSection ++ acceptance ++ extendAtAdmission)).bind (fun both =>
        both.1.process.map fun process =>
          (process.agent.admissions, process.agent.config)) =
      some ([{ agreement := 200, held := true, answer := some 1004 }], smallSection) := by
    decide +kernel
  rw [reached, Option.bind_some] at waits
  obtain ⟨process, isThere, same⟩ := Option.map_eq_some_iff.mp waits
  have runs : process.agent.admissions[0]? =
      some { agreement := 200, held := true, answer := some 1004 } := by
    have admissions : process.agent.admissions = _ := congrArg Prod.fst same
    rw [admissions]
    rfl
  obtain ⟨grows, settled⟩ := learned_of_inTime emptyWorld_origin inTime reached goes
  refine ⟨middle, finish, reached, goes, grows, fun last isLast sameLife => ?_⟩
  exact settled 0 _ process _ rfl isThere runs last isLast
    (sameLife.trans (congrArg (fun both => both.2.agreementLife) same).symm)

/-- A page that was answered before the extend landed takes memory back, and the next admitted tunnel
writes again. -/
theorem page_forgets_expiry :
    (¬ ∀ (urls : Urls) (sidecar : Identity) (start middle finish : State)
        (before after : List Event) (key : EntityKey) (earlier later : Nat), start.Origin →
      (world urls sidecar).run start before = some middle →
      (world urls sidecar).run middle after = some finish →
      middle.expiryOf key = some earlier → finish.expiryOf key = some later → earlier ≤ later) ∧
    ((world plainUrls smallSidecar).run emptyWorld
      (startUp smallSection ++ acceptance ++ answerDuringPoll ++
        [.read [200] [], .admitted 200, .admission 0 (.landed [] [500])])).isSome := by
  constructor
  · intro claim
    have learns : ((world plainUrls smallSidecar).run emptyWorld
        (startUp smallSection ++ acceptance ++ answerDuringPoll)).bind (·.expiryOf 200) =
          some 1004 := by
      decide +kernel
    obtain ⟨middle, reached, earlier⟩ := Option.bind_eq_some_iff.mp learns
    have forgets : ((world plainUrls smallSidecar).run emptyWorld
        ((startUp smallSection ++ acceptance ++ answerDuringPoll) ++ [.read [200] []])).bind
          (·.expiryOf 200) = some 502 := by
      decide +kernel
    obtain ⟨finish, reaches, later⟩ := Option.bind_eq_some_iff.mp forgets
    rw [Machine.run_append, reached] at reaches
    have claimed := claim plainUrls smallSidecar emptyWorld middle finish _ _ 200 1004 502
      emptyWorld_origin reached reaches earlier later
    omega
  · decide +kernel

end State

end CommunityLb
