import CommunityLb.Lib.Machine
import Mathlib.Data.List.Rotate

/-!
# Round robin over the eligible members

One cursor is shared by all selections.  It counts the positions examined, eligible or not, in a
word of 64 bits: here it counts on, and a position is read from its remainder.
-/

namespace CommunityLb

variable {α : Type} (members : List α) (eligible : α → Bool)

/-- The member at the cursor's position. -/
def memberAt (cursor : Nat) : Option α :=
  members[cursor % 2 ^ 64 % members.length]?

/-- A number of positions examined from the cursor on, up to the first eligible one. -/
def lap : Nat → Nat → Option α × Nat
  | 0, cursor => (none, cursor)
  | left + 1, cursor =>
      match (memberAt members cursor).filter eligible with
      | some provider => (some provider, cursor + 1)
      | none => lap left (cursor + 1)

/-- The provider of the next request, and the cursor after it. -/
def nextEligible (cursor : Nat) : Option α × Nat :=
  if members = [] then (none, cursor)
  else
    match lap members eligible members.length cursor with
    | (some provider, cursor) => (some provider, cursor)
    | (none, cursor) => (members.find? eligible, cursor)

/-- A number of selections, one after another. -/
def selections : Nat → Nat → List (Option α) × Nat
  | 0, cursor => ([], cursor)
  | count + 1, cursor =>
      let (first, cursor) := nextEligible members eligible cursor
      let (rest, cursor) := selections count cursor
      (first :: rest, cursor)

/-! ## One lap -/

/-- The members at a number of positions from the cursor on, the word apart. -/
def window (cursor count : Nat) : List α :=
  (List.range' cursor count).filterMap fun position => members[position % members.length]?

variable {members eligible}

theorem lap_le (left cursor : Nat) : cursor ≤ (lap members eligible left cursor).2 := by
  induction left generalizing cursor with
  | zero => exact le_rfl
  | succ left ih =>
      rw [lap]
      split
      · exact Nat.le_succ cursor
      · exact (Nat.le_succ cursor).trans (ih (cursor + 1))

theorem lap_succ_lt (left cursor : Nat) : cursor < (lap members eligible (left + 1) cursor).2 := by
  rw [lap]
  split
  · exact Nat.lt_succ_self cursor
  · exact lap_le left (cursor + 1)

theorem lap_some {left cursor : Nat} {provider : α}
    (found : (lap members eligible left cursor).1 = some provider) :
    provider ∈ members ∧ eligible provider = true := by
  induction left generalizing cursor with
  | zero => cases found
  | succ left ih =>
      rw [lap] at found
      split at found
      · next first isFirst =>
          obtain rfl := Option.some.inj found
          obtain ⟨isMember, isEligible⟩ := Option.filter_eq_some_iff.mp isFirst
          exact ⟨List.mem_of_getElem? isMember, isEligible⟩
      · exact ih found

theorem window_succ (inside : members ≠ []) (cursor count : Nat) :
    ∃ member, members[cursor % members.length]? = some member ∧
      window members cursor (count + 1) = member :: window members (cursor + 1) count := by
  have positive : cursor % members.length < members.length :=
    Nat.mod_lt _ (List.length_pos_iff.mpr inside)
  refine ⟨members[cursor % members.length], List.getElem?_eq_getElem positive, ?_⟩
  rw [window, List.range'_succ, List.filterMap_cons, List.getElem?_eq_getElem positive]
  rfl

theorem window_append (cursor first second : Nat) :
    window members cursor (first + second) =
      window members cursor first ++ window members (cursor + first) second := by
  simp only [window]
  rw [← List.range'_append_1, List.filterMap_append]

/-- A lap finds the first eligible member of what lies ahead, as long as the word does not wrap, and
leaves the rest of it ahead. -/
theorem lap_window (inside : members ≠ []) {left count cursor : Nat} {first : α} {rest : List α}
    (enough : count ≤ left) (ahead : (window members cursor count).filter eligible = first :: rest)
    (noWrap : (lap members eligible left cursor).2 ≤ 2 ^ 64) :
    ∃ passed ≤ count, lap members eligible left cursor = (some first, cursor + passed) ∧
      (window members (cursor + passed) (count - passed)).filter eligible = rest := by
  induction count generalizing left cursor with
  | zero => cases ahead
  | succ count ih =>
      obtain ⟨left, rfl⟩ : ∃ less, left = less + 1 := ⟨left - 1, by omega⟩
      obtain ⟨member, isMember, split⟩ := window_succ inside cursor count
      have unwrapped : cursor % 2 ^ 64 = cursor :=
        Nat.mod_eq_of_lt ((lap_succ_lt left cursor).trans_le noWrap)
      have here : memberAt members cursor = some member := by
        rw [memberAt, unwrapped, isMember]
      rw [split] at ahead
      by_cases isEligible : eligible member = true
      · rw [List.filter_cons_of_pos isEligible] at ahead
        obtain ⟨rfl, rfl⟩ := List.cons.inj ahead
        refine ⟨1, by omega, ?_, by rw [Nat.add_sub_cancel]⟩
        rw [lap, here, Option.filter_some, if_pos isEligible]
      · rw [List.filter_cons_of_neg isEligible] at ahead
        have goesOn : lap members eligible (left + 1) cursor =
            lap members eligible left (cursor + 1) := by
          rw [lap, here, Option.filter_some, if_neg isEligible]
        rw [goesOn] at noWrap ⊢
        obtain ⟨passed, most, found, later⟩ := ih (by omega) ahead noWrap
        refine ⟨passed + 1, by omega, ?_, ?_⟩
        · rw [found]
          congr 1
          omega
        · have position : cursor + (passed + 1) = cursor + 1 + passed := by omega
          rw [position, Nat.add_sub_add_right]
          exact later

/-- A selection takes the first eligible member of what lies ahead. -/
theorem nextEligible_window {count cursor : Nat} {first : α} {rest : List α}
    (within : count ≤ members.length)
    (ahead : (window members cursor count).filter eligible = first :: rest)
    (noWrap : (nextEligible members eligible cursor).2 ≤ 2 ^ 64) :
    ∃ passed ≤ count, nextEligible members eligible cursor = (some first, cursor + passed) ∧
      (window members (cursor + passed) (count - passed)).filter eligible = rest := by
  have inside : members ≠ [] := by
    rintro rfl
    obtain rfl : count = 0 := by simpa using within
    cases ahead
  have cursors : (nextEligible members eligible cursor).2 =
      (lap members eligible members.length cursor).2 := by
    rw [nextEligible, if_neg inside]
    split <;> simp_all
  obtain ⟨passed, most, found, later⟩ :=
    lap_window inside within ahead (cursors ▸ noWrap)
  refine ⟨passed, most, ?_, later⟩
  rw [nextEligible, if_neg inside, found]

theorem window_eq_take (cursor : Nat) {count : Nat} (within : count ≤ members.length) :
    window members cursor count = (members.rotate cursor).take count := by
  induction count with
  | zero => rfl
  | succ count ih =>
      have rotated : (members.rotate cursor)[count]? = members[(cursor + count) % members.length]? := by
        rw [List.getElem?_rotate within, Nat.add_comm]
      rw [List.take_add_one, ← ih (by omega), rotated, window, List.range'_1_concat,
        List.filterMap_append, ← window, List.filterMap_cons, List.filterMap_nil]
      cases members[(cursor + count) % members.length]? <;> rfl

/-- A whole lap passes every member once. -/
theorem window_full (cursor : Nat) : (window members cursor members.length).Perm members := by
  rw [window_eq_take cursor le_rfl, List.take_of_length_le (by simp)]
  exact members.rotate_perm cursor

/-! ## Consecutive selections -/

theorem nextEligible_le (cursor : Nat) : cursor ≤ (nextEligible members eligible cursor).2 := by
  have travels : cursor ≤ (lap members eligible members.length cursor).2 :=
    lap_le members.length cursor
  rw [nextEligible]
  split
  · exact le_rfl
  · split <;> simp_all

/-- A provider that is selected is an eligible member. -/
theorem nextEligible_mem {cursor : Nat} {provider : α}
    (selected : (nextEligible members eligible cursor).1 = some provider) :
    provider ∈ members ∧ eligible provider = true := by
  rw [nextEligible] at selected
  split at selected
  · cases selected
  · split at selected
    · next first _ found => exact lap_some (found ▸ selected)
    · exact ⟨List.mem_of_find?_eq_some selected, List.find?_some selected⟩

/-- None is selected only where no member is eligible. -/
theorem nextEligible_none {cursor : Nat}
    (selected : (nextEligible members eligible cursor).1 = none) :
    members.filter eligible = [] := by
  rw [nextEligible] at selected
  split at selected
  · next empty => rw [empty, List.filter_nil]
  · split at selected
    · cases selected
    · exact List.filter_eq_nil_iff.mpr (List.find?_eq_none.mp selected)

theorem selections_le (count cursor : Nat) :
    cursor ≤ (selections members eligible count cursor).2 := by
  induction count generalizing cursor with
  | zero => exact le_rfl
  | succ count ih =>
      rw [selections]
      exact (nextEligible_le cursor).trans (ih _)

/-- As many selections as lie ahead take what lies ahead, in its order. -/
theorem selections_window {count cursor : Nat} {ahead : List α}
    (within : count ≤ members.length)
    (isAhead : (window members cursor count).filter eligible = ahead)
    (noWrap : (selections members eligible ahead.length cursor).2 ≤ 2 ^ 64) :
    (selections members eligible ahead.length cursor).1 = ahead.map some := by
  induction ahead generalizing count cursor with
  | nil => rfl
  | cons first rest ih =>
      rw [List.length_cons, selections] at noWrap ⊢
      have wordFits := (selections_le rest.length _).trans noWrap
      obtain ⟨passed, most, found, later⟩ := nextEligible_window within isAhead wordFits
      simp only [found] at noWrap ⊢
      rw [ih (by omega) later noWrap, List.map_cons]

/-! ## Selections that overlap -/

/-- Where a selection stands: positions left of its lap, the scan over all members that follows it,
or what it returned. -/
inductive Picking (α : Type) where
  | lap (left : Nat)
  | scan
  | done (provider : Option α)

/-- The shared cursor and the selections. -/
structure Pickings (α : Type) where
  cursor : Nat
  pickings : List (Picking α)

/-- What the selections do, each step of one of them on the shared cursor. -/
inductive PickEvent where
  | start
  /-- One position is examined. -/
  | examine (picking : Nat)
  /-- The lap found none, and the members are gone through from the first. -/
  | scan (picking : Nat)

/-- A selection's own steps. -/
def PickEvent.isOf (own : Nat) : PickEvent → Bool
  | .start => false
  | .examine picking => picking = own
  | .scan picking => picking = own

/-- How many steps a selection still takes at most. -/
def Picking.left : Picking α → Nat
  | .lap left => left + 1
  | .scan => 1
  | .done _ => 0

namespace Pickings

variable (members eligible)

/-- One step. -/
def step (state : Pickings α) : PickEvent → Option (Pickings α)
  | .start =>
      some
        { state with
          pickings := state.pickings ++
            [if members = [] then .done none else .lap members.length] }
  | .examine picking =>
      match state.pickings[picking]? with
      | some (.lap (left + 1)) =>
          some
            { cursor := state.cursor + 1
              pickings := state.pickings.set picking
                (match (memberAt members state.cursor).filter eligible with
                | some provider => .done (some provider)
                | none => if left = 0 then .scan else .lap left) }
      | _ => none
  | .scan picking =>
      match state.pickings[picking]? with
      | some .scan =>
          some { state with pickings := state.pickings.set picking (.done (members.find? eligible)) }
      | _ => none

/-- Selections over a membership that stays. -/
def machine : Machine (Pickings α) PickEvent where
  step := step members eligible

/-- No selection yet. -/
def initial (cursor : Nat) : Pickings α where
  cursor := cursor
  pickings := []

/-- What a selection returned is an eligible member, and none only when there is none. -/
def Sound (state : Pickings α) : Prop :=
  ∀ provider, .done provider ∈ state.pickings →
    match provider with
    | some provider => provider ∈ members ∧ eligible provider = true
    | none => ∀ member ∈ members, eligible member = false

variable {members eligible}

theorem Sound.set {state : Pickings α} (sound : Sound members eligible state) (cursor index : Nat)
    {picking : Picking α}
    (isSound : ∀ provider, picking = .done provider →
      match provider with
      | some provider => provider ∈ members ∧ eligible provider = true
      | none => ∀ member ∈ members, eligible member = false) :
    Sound members eligible
      { cursor := cursor
        pickings := state.pickings.set index picking } := by
  intro provider isDone
  rcases List.mem_or_eq_of_mem_set isDone with old | new
  · exact sound provider old
  · exact isSound provider new.symm

theorem Sound.step {state next : Pickings α} {event : PickEvent}
    (sound : Sound members eligible state)
    (stepped : state.step members eligible event = some next) : Sound members eligible next := by
  cases event with
  | start =>
      cases stepped
      intro provider isDone
      rcases List.mem_append.mp isDone with old | new
      · exact sound provider old
      · rw [List.mem_singleton] at new
        split at new
        · next noMember =>
            cases new
            rw [noMember]
            exact fun member isMember => absurd isMember List.not_mem_nil
        · cases new
  | examine picking =>
      simp only [Pickings.step] at stepped
      split at stepped
      · cases stepped
        refine sound.set _ _ fun provider isDone => ?_
        split at isDone
        · next first isFirst =>
            cases isDone
            obtain ⟨isMember, isEligible⟩ := Option.filter_eq_some_iff.mp isFirst
            exact ⟨List.mem_of_getElem? isMember, isEligible⟩
        · split at isDone <;> cases isDone
      · cases stepped
  | scan picking =>
      simp only [Pickings.step] at stepped
      split at stepped
      · cases stepped
        refine sound.set _ _ fun provider isDone => ?_
        cases isDone
        cases found : members.find? eligible with
        | some first => exact ⟨List.mem_of_find?_eq_some found, List.find?_some found⟩
        | none =>
            intro member isMember
            simpa using List.find?_eq_none.mp found member isMember
      · cases stepped

/-- How many steps a selection still takes at most, those that have not begun included. -/
def leftOf (members : List α) (state : Pickings α) (own : Nat) : Nat :=
  (state.pickings[own]?.map Picking.left).getD (members.length + 1)

theorem leftOf_set (state : Pickings α) (cursor index own : Nat) (picking held : Picking α)
    (isHeld : state.pickings[index]? = some held) :
    leftOf members
      { cursor := cursor
        pickings := state.pickings.set index picking } own =
      if index = own then picking.left else leftOf members state own := by
  have inside : index < state.pickings.length := (List.getElem?_eq_some_iff.mp isHeld).1
  by_cases same : index = own
  · subst same
    simp [leftOf, inside]
  · simp [leftOf, same]

/-- A step of a selection leaves it fewer, and the others as many. -/
theorem leftOf_step {state next : Pickings α} {event : PickEvent}
    (stepped : state.step members eligible event = some next) (own : Nat) :
    (if event.isOf own then 1 else 0) + leftOf members next own ≤ leftOf members state own := by
  cases event with
  | start =>
      cases stepped
      simp only [PickEvent.isOf, leftOf]
      rcases Nat.lt_trichotomy own state.pickings.length with older | new | none
      · simp [List.getElem?_append_left older]
      · subst new
        simp only [List.getElem?_concat_length, Option.map_some, Option.getD_some,
          List.getElem?_eq_none le_rfl, Option.map_none, Option.getD_none]
        by_cases noMember : members = [] <;> simp [noMember, Picking.left]
      · have beyond : state.pickings.length + 1 ≤ own := none
        simp [List.getElem?_eq_none, beyond, none.le]
  | examine picking =>
      simp only [Pickings.step] at stepped
      split at stepped
      · next left isLap =>
          cases stepped
          rw [leftOf_set state _ _ _ _ _ isLap]
          simp only [PickEvent.isOf, decide_eq_true_eq]
          split
          · next same =>
              subst same
              have more : leftOf members state picking = left + 2 := by
                simp [leftOf, isLap, Picking.left]
              rw [more]
              split
              · simp [Picking.left]
              · split <;> simp only [Picking.left] <;> omega
          · omega
      · cases stepped
  | scan picking =>
      simp only [Pickings.step] at stepped
      split at stepped
      · next isScan =>
          cases stepped
          rw [leftOf_set state _ _ _ _ _ isScan]
          simp only [PickEvent.isOf, decide_eq_true_eq]
          split
          · next same =>
              subst same
              simp [leftOf, isScan, Picking.left]
          · omega
      · cases stepped

/-- A selection's own steps in a run, and those it has left. -/
theorem leftOf_run {state finish : Pickings α} {events : List PickEvent}
    (reached : (machine members eligible).run state events = some finish) (own : Nat) :
    events.countP (·.isOf own) + leftOf members finish own ≤ leftOf members state own := by
  induction events generalizing state with
  | nil =>
      cases reached
      simp
  | cons event events ih =>
      obtain ⟨next, stepped, rest⟩ := Machine.run_cons_eq_some.mp reached
      have one := leftOf_step stepped own
      have later := ih rest
      rw [List.countP_cons]
      omega

/-- A lap under way has a position left. -/
def Moving (state : Pickings α) : Prop :=
  .lap 0 ∉ state.pickings

theorem Moving.step {state next : Pickings α} {event : PickEvent} (moving : state.Moving)
    (stepped : state.step members eligible event = some next) : next.Moving := by
  have set_ : ∀ (cursor index : Nat) (picking : Picking α), picking ≠ .lap 0 →
      ({ cursor := cursor
         pickings := state.pickings.set index picking } : Pickings α).Moving := by
    intro cursor index picking isMoving stuck
    rcases List.mem_or_eq_of_mem_set stuck with old | new
    · exact moving old
    · exact isMoving new.symm
  cases event with
  | start =>
      cases stepped
      intro stuck
      rcases List.mem_append.mp stuck with old | new
      · exact moving old
      · rw [List.mem_singleton] at new
        split at new
        · cases new
        · next some_ =>
            have length := Picking.lap.inj new
            exact some_ (List.length_eq_zero_iff.mp length.symm)
  | examine picking =>
      simp only [Pickings.step] at stepped
      split at stepped
      · cases stepped
        refine set_ _ _ _ ?_
        split
        · simp
        · split <;> simp_all
      · cases stepped
  | scan picking =>
      simp only [Pickings.step] at stepped
      split at stepped
      · cases stepped
        exact set_ _ _ _ (by simp)
      · cases stepped

/-- A selection that has not returned has a step of its own to make. -/
theorem Moving.enabled {state : Pickings α} (moving : state.Moving) {own : Nat}
    {picking : Picking α} (isPicking : state.pickings[own]? = some picking)
    (under_way : ∀ provider, picking ≠ .done provider) :
    ∃ event, event.isOf own = true ∧ (state.step members eligible event).isSome = true := by
  cases picking with
  | lap left =>
      cases left with
      | zero => exact absurd (List.mem_of_getElem? isPicking) moving
      | succ left => exact ⟨.examine own, by simp [PickEvent.isOf], by simp [Pickings.step, isPicking]⟩
  | scan => exact ⟨.scan own, by simp [PickEvent.isOf], by simp [Pickings.step, isPicking]⟩
  | done provider => exact absurd rfl (under_way provider)

/-- Alone, a selection goes through its lap as `lap` does. -/
theorem lap_alone (left cursor : Nat) :
    ∃ events,
      (machine members eligible).run
          { cursor := cursor
            pickings := [.lap (left + 1)] } events =
        some
          { cursor := (lap members eligible (left + 1) cursor).2
            pickings :=
              [match (lap members eligible (left + 1) cursor).1 with
              | some provider => .done (some provider)
              | none => .scan] } := by
  induction left generalizing cursor with
  | zero =>
      refine ⟨[.examine 0], ?_⟩
      rw [Machine.run_cons]
      simp only [machine, Pickings.step, lap]
      cases found : (memberAt members cursor).filter eligible <;> rfl
  | succ left ih =>
      cases found : (memberAt members cursor).filter eligible with
      | some provider =>
          refine ⟨[.examine 0], ?_⟩
          rw [Machine.run_cons, lap]
          simp only [machine, Pickings.step, found]
          rfl
      | none =>
          obtain ⟨events, ran⟩ := ih (cursor + 1)
          refine ⟨.examine 0 :: events, ?_⟩
          have goesOn : lap members eligible (left + 1 + 1) cursor =
              lap members eligible (left + 1) (cursor + 1) := by
            rw [lap, found]
          rw [Machine.run_cons, goesOn]
          simp only [machine, Pickings.step, found]
          exact ran

/-- Alone, a selection is `nextEligible`. -/
theorem nextEligible_alone (cursor : Nat) :
    ∃ events, (machine members eligible).run (initial cursor) events =
      some
        { cursor := (nextEligible members eligible cursor).2
          pickings := [.done (nextEligible members eligible cursor).1] } := by
  by_cases noMember : members = []
  · refine ⟨[.start], ?_⟩
    simp [Machine.run_cons, machine, Pickings.step, initial, nextEligible, noMember]
  · obtain ⟨left, length⟩ : ∃ left, members.length = left + 1 :=
      Nat.exists_eq_succ_of_ne_zero (by simpa using noMember)
    obtain ⟨events, ran⟩ : ∃ events, (machine members eligible).run
        { cursor := cursor
          pickings := [.lap (left + 1)] } events = some _ := lap_alone left cursor
    have started : (machine members eligible).step (initial cursor) .start =
        some { cursor := cursor, pickings := [.lap (left + 1)] } := by
      simp [machine, Pickings.step, initial, noMember, length]
    rw [nextEligible, if_neg noMember, length]
    cases found : (lap members eligible (left + 1) cursor).1 with
    | some provider =>
        refine ⟨.start :: events, ?_⟩
        have both : lap members eligible (left + 1) cursor =
            (some provider, (lap members eligible (left + 1) cursor).2) := by rw [← found]
        rw [Machine.run_cons, started, Option.bind_some, ran, both]
    | none =>
        refine ⟨.start :: events ++ [.scan 0], ?_⟩
        have both : lap members eligible (left + 1) cursor =
            (none, (lap members eligible (left + 1) cursor).2) := by rw [← found]
        rw [Machine.run_append, Machine.run_cons, started, Option.bind_some, ran, both]
        rfl

end Pickings

/-- A selection returns after one step more than there are members at most, whatever the others do, and
has a step to make until then; it returns an eligible member, and none only when no member is eligible,
however the selections share the cursor; alone it is `nextEligible`; and as many selections in a row as
there are eligible members return each of them once, while the cursor's word does not wrap. -/
theorem selection_complete_fair (members : List α) (eligible : α → Bool) (cursor : Nat) :
    (∀ events state, (Pickings.machine members eligible).run (.initial cursor) events = some state →
      (∀ own picking, state.pickings[own]? = some picking →
        events.countP (·.isOf own) ≤ members.length + 1 ∧
          ((∀ provider, picking ≠ .done provider) →
            events.countP (·.isOf own) ≤ members.length ∧
              ∃ event, event.isOf own = true ∧
                (state.step members eligible event).isSome = true)) ∧
      ∀ provider, .done provider ∈ state.pickings →
        match provider with
        | some provider => provider ∈ members ∧ eligible provider = true
        | none => ∀ member ∈ members, eligible member = false) ∧
      (∃ events, (Pickings.machine members eligible).run (.initial cursor) events =
        some
          { cursor := (nextEligible members eligible cursor).2
            pickings := [.done (nextEligible members eligible cursor).1] }) ∧
      ((selections members eligible (members.filter eligible).length cursor).2 ≤ 2 ^ 64 →
        (selections members eligible (members.filter eligible).length cursor).1.Perm
          ((members.filter eligible).map some)) := by
  refine ⟨?_, Pickings.nextEligible_alone cursor, ?_⟩
  · intro events state reached
    have preserved : ∀ (before : Pickings α) (event : PickEvent) (after : Pickings α),
        Pickings.Sound members eligible before ∧ before.Moving →
          (Pickings.machine members eligible).step before event = some after →
            Pickings.Sound members eligible after ∧ after.Moving :=
      fun _ _ _ kept stepped => ⟨kept.1.step stepped, kept.2.step stepped⟩
    have none : Pickings.Sound members eligible (.initial cursor) ∧
        (Pickings.initial cursor : Pickings α).Moving :=
      ⟨fun _ isDone => absurd isDone List.not_mem_nil, List.not_mem_nil⟩
    obtain ⟨sound, moving⟩ := Machine.run_preserves preserved none reached
    refine ⟨fun own picking isPicking => ?_, sound⟩
    have counted := Pickings.leftOf_run reached own
    have all : Pickings.leftOf members (.initial cursor) own = members.length + 1 := rfl
    have rest : Pickings.leftOf members state own = picking.left := by
      simp [Pickings.leftOf, isPicking]
    rw [all, rest] at counted
    refine ⟨by omega, fun under_way => ⟨?_, moving.enabled isPicking under_way⟩⟩
    have more : 0 < picking.left := by
      cases picking with
      | lap left => exact Nat.succ_pos left
      | scan => exact Nat.one_pos
      | done provider => exact absurd rfl (under_way provider)
    omega
  · intro noWrap
    have whole : (window members cursor members.length).Perm members := window_full cursor
    have perm := whole.filter eligible
    rw [← perm.length_eq] at noWrap ⊢
    rw [selections_window le_rfl rfl noWrap]
    exact perm.map some

/-- Of five members two are eligible, from the third position on. -/
theorem selection_complete_fair_five :
    (selections [1, 2, 3, 4, 5] (fun member => decide (member % 2 = 0)) 2 2).1.Perm
      [some 2, some 4] :=
  (selection_complete_fair [1, 2, 3, 4, 5] (fun member => decide (member % 2 = 0)) 2).2.2
    (by decide)

end CommunityLb
