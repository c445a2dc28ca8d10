import CommunityLb.Marketplace.Led
import CommunityLb.Marketplace.Monotone

/-!
# Every request is billed once

Under a live agreement the counts of its records and what the entry still carries add up to what
was there at the adoption and what was served since.  The record memory counts into is left out of
the sum: its count is a copy of the entry's.
-/

namespace CommunityLb

namespace Account

/-- The counts of all records. -/
def total (rows : List Entry) : Nat :=
  (rows.map (·.record.count)).sum

/-- The counts of all records but the one memory counts into. -/
def others (rows : List Entry) (counter : Option EntityKey) : Nat :=
  total (rows.filter fun row => counter ≠ some row.key)

@[simp]
theorem others_none (rows : List Entry) : others rows none = total rows := by
  simp [others]

/-- A record's own count and the others' are all there is. -/
theorem total_eq (rows : List Entry) (key : EntityKey) :
    total rows = others rows (some key) + (countsOn rows key).sum := by
  induction rows with
  | nil => rfl
  | cons row rows ih =>
      by_cases same : row.key = key
      · simp_all [total, others, countsOn, Nat.add_left_comm]
      · simp_all [total, others, countsOn, Ne.symm same, Nat.add_assoc]

/-- A record's counts are at most a bound each of them meets, since there is one at most. -/
theorem countsOn_sum_le {rows : List Entry} {key : EntityKey} {bound : Nat}
    (distinct : (rows.map Entry.key).Nodup)
    (below : ∀ row ∈ rows, row.key = key → row.record.count ≤ bound) :
    (countsOn rows key).sum ≤ bound := by
  induction rows with
  | nil => exact Nat.zero_le _
  | cons row rows ih =>
      obtain ⟨apart, rest⟩ := List.nodup_cons.mp distinct
      by_cases same : row.key = key
      · have noOther : rows.filter (·.key = key) = [] := by
          refine List.filter_eq_nil_iff.mpr fun other member here => apart ?_
          rw [same, ← of_decide_eq_true here]
          exact List.mem_map_of_mem member
        have own := below row List.mem_cons_self same
        simpa [countsOn, same, noOther] using own
      · have later := ih rest fun other member => below other (List.mem_cons_of_mem _ member)
        simpa [countsOn, same] using later

/-- The count of a record that is there is its own. -/
theorem countsOn_sum_eq {rows : List Entry} {row : Entry}
    (distinct : (rows.map Entry.key).Nodup) (member : row ∈ rows) :
    (countsOn rows row.key).sum = row.record.count := by
  induction rows with
  | nil => cases member
  | cons first rows ih =>
      obtain ⟨apart, rest⟩ := List.nodup_cons.mp distinct
      rcases List.mem_cons.mp member with rfl | later
      · have noOther : rows.filter (·.key = row.key) = [] := by
          refine List.filter_eq_nil_iff.mpr fun other inRows here => apart ?_
          rw [← of_decide_eq_true here]
          exact List.mem_map_of_mem inRows
        simp [countsOn, noOther]
      · have differs : first.key ≠ row.key := fun same => apart (same ▸ List.mem_map_of_mem later)
        simpa [countsOn, differs] using ih rest later

/-- The count of a record that is not there is nothing. -/
theorem countsOn_absent {rows : List Entry} {key : EntityKey} (absent : key ∉ rows.map Entry.key) :
    (countsOn rows key).sum = 0 := by
  have none_here : rows.filter (·.key = key) = [] := by
    refine List.filter_eq_nil_iff.mpr fun row member here => absent ?_
    exact of_decide_eq_true here ▸ List.mem_map_of_mem member
  simp [countsOn, none_here]

/-- Records that count nothing can be left out. -/
theorem total_filter {rows : List Entry} {keep : Entry → Bool}
    (zero : ∀ row ∈ rows, keep row = false → row.record.count = 0) :
    total (rows.filter keep) = total rows := by
  induction rows with
  | nil => rfl
  | cons row rows ih =>
      have later := ih fun other member => zero other (List.mem_cons_of_mem _ member)
      have own := zero row List.mem_cons_self
      simp only [total] at later ⊢
      cases kept : keep row with
      | true => simp [kept, later]
      | false => simp [kept, later, own kept]

/-- Landing, a write changes no sum it does not carry a count to. -/
theorem others_land {block : Nat} {fresh : EntityKey} {rows landed : List Entry}
    {write : CounterWrite} {counter : Option EntityKey}
    (lands : write.land block fresh rows = some landed)
    (opening : ∀ record, write = .opening record → record.count = 0)
    (aimed : ∀ row ∈ rows, write.patched = some row.key → counter = some row.key)
    (deletes : ∀ row ∈ rows, write = .delete row.key → row.record.count = 0) :
    others landed counter = others rows counter := by
  cases write with
  | opening record =>
      cases lands
      by_cases here : counter = some fresh <;>
        simp [others, total, List.filter_append, here, opening record rfl]
  | patch target payload closing =>
      simp only [CounterWrite.land] at lands
      split at lands
      · cases lands
        rw [others, others, total, total, List.filter_map, List.map_map]
        have same_keep : ((fun row : Entry => decide (counter ≠ some row.key)) ∘ fun entry =>
            if entry.key = target then entry.patch payload closing else entry) =
            fun row => decide (counter ≠ some row.key) := by
          funext entry
          simp only [Function.comp_apply]
          split <;> rfl
        rw [same_keep]
        refine congrArg List.sum (List.map_congr_left fun row member => ?_)
        obtain ⟨inRows, other⟩ := List.mem_filter.mp member
        have differs : row.key ≠ target := by
          rintro rfl
          exact of_decide_eq_true other (aimed row inRows rfl)
        simp [differs]
      · cases lands
  | delete target =>
      simp only [CounterWrite.land] at lands
      split at lands
      · cases lands
        rw [others, others, List.filter_filter]
        have swapped : (rows.filter fun row =>
            decide (counter ≠ some row.key) && decide (row.key ≠ target)) =
            (rows.filter fun row => counter ≠ some row.key).filter (·.key ≠ target) := by
          rw [List.filter_filter]
          exact List.filter_congr fun row _ => Bool.and_comm _ _
        rw [swapped]
        refine total_filter fun row member gone => ?_
        have here : row.key = target := by simpa using gone
        exact deletes row (List.mem_of_mem_filter member) (congrArg _ here.symm)
      · cases lands

/-- Landing, a write leaves the count of a record it is no patch of and deletes no count of. -/
theorem countsOn_sum_land {block : Nat} {fresh key : EntityKey} {rows landed : List Entry}
    {write : CounterWrite} (distinct : (rows.map Entry.key).Nodup)
    (lands : write.land block fresh rows = some landed)
    (other : ∀ record, write = .opening record → fresh ≠ key)
    (unpatched : write.patched ≠ some key)
    (deletes : write = .delete key → ∀ row ∈ rows, row.key = key → row.record.count = 0) :
    (countsOn landed key).sum = (countsOn rows key).sum := by
  rcases land_countsOn other lands with ⟨count, carries, _⟩ | ⟨_, kept⟩ | ⟨deleted, gone⟩
  · exact absurd (CounterWrite.countFor_patched carries) unpatched
  · rw [kept]
  · have zero := countsOn_sum_le distinct fun row member same =>
      (deletes deleted row member same).le
    rw [gone]
    exact (Nat.le_zero.mp zero).symm

/-- Landing, a patch makes its record's count its own. -/
theorem countsOn_patch {block : Nat} {fresh key : EntityKey} {rows landed : List Entry}
    {payload : CounterPayload} {closing : Bool}
    (lands : (CounterWrite.patch key payload closing).land block fresh rows = some landed)
    (distinct : (landed.map Entry.key).Nodup) : (countsOn landed key).sum = payload.count := by
  obtain ⟨row, inRows, same⟩ := List.mem_map.mp (land_target lands rfl)
  have patched : row.patch payload closing ∈ landed := by
    simp only [CounterWrite.land] at lands
    split at lands
    · rw [← Option.some.inj lands]
      exact List.mem_map.mpr ⟨row, inRows, if_pos same⟩
    · cases lands
  have here : (row.patch payload closing).key = key := same
  exact here ▸ countsOn_sum_eq distinct patched

/-! ## The balance -/

/-- What is at hand agrees with the records, with the writes on their way, and with memory. -/
def AtHand (rows : List Entry) (writes : List CounterWrite) (counter : Option EntityKey) :
    Desk → Prop
  | .writing _ none => True
  | .writing queue (some close) =>
      counter = some close.counter ∧
        if close.landed then
          writes = [] ∧ (countsOn rows close.counter).sum = close.count
        else
          queue = [] ∨ ∃ deletes payload,
            queue = deletes ++ [.patch close.counter payload true] ∧
              payload.count = close.count ∧ ∀ write ∈ deletes, ∃ key, write = .delete key
  | .accepting _ => counter = none
  | .shown _ (some row) _ missing found =>
      missing = none ∧ found = none ∧
        match counter with
        | none => (countsOn rows row.key).sum = row.record.count
        | some key =>
            key = row.key ∨ key ∉ rows.map Entry.key ∧ (countsOn rows row.key).sum = 0
  | .shown _ none _ (some key) found =>
      found = none ∧ counter = some key ∧ ∀ row ∈ rows, row.key = key → row.isOpen = false
  | .shown _ none _ none (some count) =>
      ∃ key, counter = some key ∧ (countsOn rows key).sum = count ∧
        ∀ write ∈ writes, write.patched ≠ some key
  | .shown _ none _ none none => ∀ key, counter = some key → key ∉ rows.map Entry.key
  | .matched _ row _ => counter = row.map (·.key)

/-- Pages are whole, no record found closed leaves another one open, and none found closed is
still to be written. -/
def Exact : Label → Account → Prop
  | .expire, _ | .adopt, _ | .accept, _ | .pastLife, _ | .quit, _ => False
  | .page flushing shown, account =>
      Whole (.page flushing shown) account ∧
        ∀ row ∈ account.rows, account.held.bind (·.counter) = some row.key →
          row.isOpen = false → ∀ other ∈ account.rows, other.isOpen = false
  | .lookup key, account =>
      ∀ row ∈ account.rows, row.key = key → row.isOpen = false →
        ∀ write ∈ account.sent, write.patched ≠ some key
  | _, _ => True

/-- The record an agreement counts into, or will count into once memory is matched to it. -/
def Current (account : Account) (key : EntityKey) : Prop :=
  account.held.bind (·.counter) = some key ∨ account.desk.row.map (·.key) = some key

/-- The records of a live agreement carry, with what its entry still holds, what they did at the
adoption and every request since. -/
structure Billed (base : Nat) (account : Account) (held : Held) : Prop where
  led : account.Led
  rising : ∀ key, account.Rising key
  live : account.held = some held
  balance : others account.rows held.counter + held.served = base + held.total
  /-- A patch on its way is one of the record memory counts into. -/
  aimed : ∀ write ∈ account.outstanding, ∀ row ∈ account.rows,
    write.patched = some row.key → held.counter = some row.key
  deletes : ∀ row ∈ account.rows, .delete row.key ∈ account.outstanding →
    row.record.count = 0 ∧ row.isOpen = true
  /-- A record on its way to be deleted is not patched before. -/
  deleted : account.outstanding.Pairwise fun write later =>
    ∀ row ∈ account.rows, later = .delete row.key → write.patched ≠ some row.key
  spare : ∀ key ∈ account.desk.duplicates, ∀ row ∈ account.rows, row.key = key →
    row.isOpen = true
  /-- The record to count into was deleted, unused: no open one carries anything. -/
  absent : ∀ key, account.Current key → key ∉ account.rows.map Entry.key →
    ∀ row ∈ account.rows, row.isOpen = true → row.record.count = 0
  /-- What was read of a record has not gone down since. -/
  floor : ∀ row ∈ account.desk.row, row.record.count ≤ (countsOn account.rows row.key).sum
  atHand : AtHand account.rows account.outstanding held.counter account.desk

theorem AtHand.mono {rows : List Entry} {writes fewer : List CounterWrite} {counter : Option EntityKey}
    {desk : Desk} (atHand : AtHand rows writes counter desk)
    (part : ∀ write ∈ fewer, write ∈ writes) : AtHand rows fewer counter desk := by
  cases desk with
  | writing queue close =>
      cases close with
      | none => trivial
      | some close =>
          refine ⟨atHand.1, ?_⟩
          have rest := atHand.2
          split at rest
          · next landed =>
              rw [if_pos landed]
              refine ⟨List.eq_nil_iff_forall_not_mem.mpr fun write member => ?_, rest.2⟩
              exact List.not_mem_nil (rest.1 ▸ part write member)
          · next unlanded =>
              rw [if_neg unlanded]
              exact rest
  | accepting record => exact atHand
  | matched flushing row duplicates => exact atHand
  | shown flushing row duplicates missing found =>
      cases row with
      | some row => exact atHand
      | none =>
          cases missing with
          | some key => exact atHand
          | none =>
              cases found with
              | none => exact atHand
              | some count =>
                  obtain ⟨key, holds, sum, unpatched⟩ := atHand
                  exact ⟨key, holds, sum, fun write member => unpatched write (part write member)⟩

namespace Billed

variable {base : Nat} {before after : Account} {held : Held}

/-- A patch that lands is one of the record memory counts into. -/
theorem patch_aimed (billed : Billed base before held) {write : CounterWrite}
    {fresh key : EntityKey} {block : Nat} {rows : List Entry}
    (member : write ∈ before.outstanding) (lands : write.land block fresh before.rows = some rows)
    (patched : write.patched = some key) : held.counter = some key := by
  obtain ⟨row, inRows, rfl⟩ := List.mem_map.mp (land_target lands (CounterWrite.patched_target patched))
  exact billed.aimed write member row inRows patched

/-- Landing leaves every record's count but the one memory counts into. -/
theorem count_kept (billed : Billed base before held) {write : CounterWrite}
    {fresh key : EntityKey} {block : Nat} {rows : List Entry}
    (member : write ∈ before.outstanding) (unused : ∀ record, write = .opening record → fresh ∉ before.mentions)
    (lands : write.land block fresh before.rows = some rows) (mentioned : key ∈ before.mentions)
    (unpatched : write.patched ≠ some key) :
    (countsOn rows key).sum = (countsOn before.rows key).sum := by
  refine countsOn_sum_land billed.led.distinct lands ?_ unpatched ?_
  · rintro record rfl rfl
    exact unused record rfl mentioned
  · rintro rfl row inRows rfl
    exact (billed.deletes row inRows member).1

/-- The entry is never below the count of the record memory counts into. -/
theorem count_le (billed : Billed base before held) {key : EntityKey}
    (counter : held.counter = some key) : (countsOn before.rows key).sum ≤ held.served := by
  refine countsOn_sum_le billed.led.distinct fun row member same => ?_
  refine (billed.rising key).held held billed.live counter row.record.count ?_
  refine List.mem_append_left _ (List.mem_map_of_mem (List.mem_filter.mpr ⟨member, ?_⟩))
  exact decide_eq_true same

/-- Landing lowers no record's count. -/
theorem count_rises (billed : Billed base before held) {write : CounterWrite}
    {rest : List CounterWrite} {fresh key : EntityKey} {block : Nat} {rows : List Entry}
    (queued : before.outstanding = write :: rest) (unused : ∀ record, write = .opening record → fresh ∉ before.mentions)
    (lands : write.land block fresh before.rows = some rows) (mentioned : key ∈ before.mentions) :
    (countsOn before.rows key).sum ≤ (countsOn rows key).sum := by
  have member : write ∈ before.outstanding := queued ▸ List.mem_cons_self
  have other : ∀ record, write = .opening record → fresh ≠ key := by
    rintro record rfl rfl
    exact unused record rfl mentioned
  rcases land_countsOn other lands with ⟨count, carries, counts⟩ | ⟨_, kept⟩ | ⟨rfl, gone⟩
  · have sorted := (List.pairwise_append.mp (billed.rising key).sorted).2.2
    have below : ∀ earlier ∈ countsOn before.rows key, earlier ≤ count := fun earlier onChain =>
      sorted earlier onChain count (List.mem_filterMap.mpr ⟨write, member, carries⟩)
    rw [counts, List.sum_replicate]
    exact List.sum_le_card_nsmul _ _ below
  · rw [kept]
  · refine (countsOn_sum_le billed.led.distinct ?_).trans (Nat.zero_le _)
    rintro row inRows rfl
    exact (billed.deletes row inRows member).1.le

/-- The current record is the only open one that may carry a count. -/
theorem current_leads (billed : Billed base before held) {key : EntityKey}
    (current : before.Current key) : Leads before.rows key :=
  billed.led.leads key (current.elim (fun holds => .inr (.inr (.inl holds)))
    fun read => .inr (.inr (.inr read)))

/-- The record read is the one memory counts into, as far as that one is there. -/
theorem read_counter (billed : Billed base before held) {key read : EntityKey}
    (counter : held.counter = some key) (inRows : key ∈ before.rows.map Entry.key)
    (isRead : before.desk.row.map (·.key) = some read) : read = key := by
  have atHand := billed.atHand
  cases desk : before.desk with
  | writing queue close => simp [desk, Desk.row] at isRead
  | accepting record => simp [desk, Desk.row] at isRead
  | matched flushing row duplicates =>
      rw [desk] at atHand isRead
      have same : held.counter = row.map (·.key) := atHand
      exact Option.some.inj (isRead.symm.trans (same.symm.trans counter))
  | shown flushing row duplicates missing found =>
      rw [desk] at atHand isRead
      cases row with
      | none => simp [Desk.row] at isRead
      | some row =>
          obtain rfl : row.key = read := by simpa [Desk.row] using isRead
          have known := atHand.2.2
          rw [counter] at known
          exact (known.resolve_right fun gone => gone.1 inRows).symm

/-- What is at hand still agrees when the next write lands. -/
theorem atHand_land (billed : Billed base before held) {write : CounterWrite}
    {rest : List CounterWrite} {fresh : EntityKey} {rows : List Entry}
    (queued : before.outstanding = write :: rest) (unused : ∀ record, write = .opening record → fresh ∉ before.mentions)
    (lands : write.land before.head fresh before.rows = some rows) :
    AtHand rows rest held.counter before.desk := by
  have member : write ∈ before.outstanding := queued ▸ List.mem_cons_self
  have atHand := billed.atHand
  have absent : ∀ key ∈ before.mentions, key ∉ before.rows.map Entry.key →
      key ∉ rows.map Entry.key := by
    intro key mentioned gone inRows
    obtain ⟨row, inRow, rfl⟩ := List.mem_map.mp inRows
    rcases land_old lands inRow with ⟨record, rfl, rfl⟩ | ⟨old, inOld, sameKey, _⟩
    · exact unused record rfl mentioned
    · exact gone (sameKey ▸ List.mem_map_of_mem inOld)
  have counter : ∀ key, held.counter = some key → key ∈ before.mentions := by
    intro key counter
    exact counter_mentioned (by simp [billed.live, counter])
  cases desk : before.desk with
  | writing queue close =>
      rw [desk] at atHand
      cases close with
      | none => trivial
      | some close =>
          refine ⟨atHand.1, ?_⟩
          have known := atHand.2
          split at known
          · rw [known.1] at queued
            cases queued
          · next unlanded =>
              rw [if_neg unlanded]
              exact known
  | accepting record =>
      rw [desk] at atHand
      exact atHand
  | matched flushing row duplicates =>
      rw [desk] at atHand
      exact atHand
  | shown flushing row duplicates missing found =>
      rw [desk] at atHand
      cases row with
      | some row =>
          have read : row.key ∈ before.mentions := read_mentioned (by simp [desk, Desk.row])
          refine ⟨atHand.1, atHand.2.1, ?_⟩
          have known := atHand.2.2
          cases holds : held.counter with
          | none =>
              rw [holds] at known
              refine (billed.count_kept member unused lands read fun patched => ?_).trans known
              exact absurd (billed.patch_aimed member lands patched) (by simp [holds])
          | some key =>
              rw [holds] at known
              rcases known with same | ⟨gone, zero⟩
              · exact .inl same
              · by_cases same : key = row.key
                · exact .inl same
                · refine .inr ⟨absent key (counter key holds) gone, ?_⟩
                  refine (billed.count_kept member unused lands read fun patched => ?_).trans zero
                  have aimed := billed.patch_aimed member lands patched
                  exact same (Option.some.inj (holds.symm.trans aimed))
      | none =>
          cases missing with
          | some key =>
              obtain ⟨notFound, holds, shut⟩ := atHand
              refine ⟨notFound, holds, fun row inRow same => ?_⟩
              rcases land_old lands inRow with
                ⟨record, rfl, rfl⟩ | ⟨old, inOld, sameKey, _, opened, _⟩
              · have here : fresh = key := same
                exact absurd (here ▸ counter key holds) (unused record rfl)
              · have wasShut := shut old inOld (sameKey.trans same)
                by_contra nowOpen
                simp [opened (by simpa using nowOpen)] at wasShut
          | none =>
              cases found with
              | none => exact fun key holds => absent key (counter key holds) (atHand key holds)
              | some count =>
                  obtain ⟨key, holds, sum, unpatched⟩ := atHand
                  refine ⟨key, holds, ?_, fun other inRest =>
                    unpatched other (queued ▸ List.mem_cons_of_mem _ inRest)⟩
                  exact (billed.count_kept member unused lands (counter key holds)
                    (unpatched write member)).trans sum

/-- The next write on its way lands. -/
theorem landing (billed : Billed base before held) {write : CounterWrite}
    {rest : List CounterWrite} {fresh : EntityKey} (queued : before.outstanding = write :: rest)
    (unused : ∀ record, write = .opening record → fresh ∉ before.mentions)
    (lands : write.land before.head fresh before.rows = some after.rows)
    (led : after.Led) (rising : ∀ key, after.Rising key)
    (writes : after.outstanding = rest) (live : after.held = before.held)
    (read : ∀ row ∈ after.desk.row, row ∈ before.desk.row)
    (spare : ∀ key ∈ after.desk.duplicates, key ∈ before.desk.duplicates)
    (atHand : AtHand after.rows rest held.counter after.desk) : Billed base after held where
  led := led
  rising := rising
  live := live.trans billed.live
  balance := by
    have member : write ∈ before.outstanding := queued ▸ List.mem_cons_self
    have kept : others after.rows held.counter = others before.rows held.counter := by
      refine others_land lands (fun record opens => ?_) (fun row inRows patched => ?_)
        fun row inRows deletes => ?_
      · exact (billed.led.opening record (opens ▸ member)).1
      · exact billed.aimed write member row inRows patched
      · exact (billed.deletes row inRows (deletes ▸ member)).1
    rw [kept]
    exact billed.balance
  aimed := by
    rw [writes]
    intro other inRest row inRows patched
    have onTheWay : other ∈ before.outstanding := queued ▸ List.mem_cons_of_mem _ inRest
    rcases land_old lands inRows with ⟨record, rfl, rfl⟩ | ⟨old, inOld, sameKey, _⟩
    · exact absurd (target_mentioned onTheWay (CounterWrite.patched_target patched)) (unused record rfl)
    · rw [← sameKey] at patched ⊢
      exact billed.aimed other onTheWay old inOld patched
  deletes := by
    rw [writes]
    intro row inRows deletes
    have onTheWay : .delete row.key ∈ before.outstanding :=
      queued ▸ List.mem_cons_of_mem _ deletes
    rcases land_rows lands inRows with
      ⟨record, rfl, rfl⟩ | ⟨payload, closing, old, rfl, inOld, changed⟩ | ⟨inOld, _⟩
    · exact absurd (target_mentioned onTheWay rfl) (unused record rfl)
    · have before_deleted := (List.pairwise_cons.mp (queued ▸ billed.deleted)).1 _ deletes
      have sameKey : old.key = row.key := by rw [changed]; rfl
      refine absurd ?_ (before_deleted old inOld (by rw [sameKey]))
      rw [sameKey]
      rfl
    · exact billed.deletes row inOld onTheWay
  deleted := by
    rw [writes]
    refine (List.pairwise_cons.mp (queued ▸ billed.deleted)).2.imp_of_mem ?_
    rintro first later inFirst inLater apart row inRows rfl
    rcases land_old lands inRows with ⟨record, rfl, rfl⟩ | ⟨old, inOld, sameKey, _⟩
    · exact absurd (target_mentioned (queued ▸ List.mem_cons_of_mem _ inLater) rfl) (unused record rfl)
    · rw [← sameKey]
      exact apart old inOld (by rw [sameKey])
  spare := by
    intro key isSpare row inRows same
    have wasSpare := spare key isSpare
    rcases land_rows lands inRows with
      ⟨record, rfl, rfl⟩ | ⟨payload, closing, old, rfl, inOld, changed⟩ | ⟨inOld, _⟩
    · have here : fresh = key := same
      exact absurd (here ▸ duplicate_mentioned wasSpare) (unused record rfl)
    · refine absurd (.inr (.inl ⟨_, queued ▸ List.mem_cons_self, ?_⟩))
        (billed.led.spare key wasSpare)
      exact congrArg some same
    · exact billed.spare key wasSpare row inOld same
  absent := by
    intro key current gone row inRows opened
    have wasCurrent : before.Current key :=
      current.imp (fun holds => live ▸ holds) fun isRead => by
        obtain ⟨entry, found, same⟩ := Option.map_eq_some_iff.mp isRead
        exact Option.map_eq_some_iff.mpr ⟨entry, read entry found, same⟩
    have member : write ∈ before.outstanding := queued ▸ List.mem_cons_self
    rcases land_old lands inRows with ⟨record, rfl, rfl⟩ | ⟨old, inOld, sameKey, _, wasOpen, count⟩
    · exact (billed.led.opening record member).1
    · by_cases inBefore : key ∈ before.rows.map Entry.key
      · obtain ⟨lead, inLead, rfl⟩ := List.mem_map.mp inBefore
        -- The record to count into is what this write deletes.
        have deleted := land_gone lands inBefore gone
        subst deleted
        obtain ⟨_, leadOpen⟩ := billed.deletes lead inLead member
        by_contra counts
        have same_count : old.record.count = row.record.count :=
          count.resolve_right (by simp [CounterWrite.patched])
        have oldCounts : before.Counting old.key :=
          .inl ⟨old, inOld, rfl, same_count ▸ counts⟩
        have same : lead = old := Leads.unique billed.led.distinct inLead inOld
          (billed.led.leads _ oldCounts old inOld rfl lead inLead leadOpen)
          (billed.current_leads wasCurrent lead inLead rfl old inOld (wasOpen opened))
        exact gone (same ▸ sameKey ▸ List.mem_map_of_mem inRows)
      · rcases count with same | patched
        · rw [← same]
          exact billed.absent key wasCurrent inBefore old inOld (wasOpen opened)
        · have aimed := billed.patch_aimed member lands (sameKey ▸ patched)
          have here := List.mem_map_of_mem (f := Entry.key) inOld
          rcases wasCurrent with holds | isRead
          · rw [billed.live] at holds
            exact absurd (Option.some.inj (holds.symm.trans aimed) ▸ here) inBefore
          · exact absurd (billed.read_counter aimed here isRead ▸ here) inBefore
  floor := by
    intro row found
    have wasRead := read row found
    exact (billed.floor row wasRead).trans
      (billed.count_rises queued unused lands (read_mentioned (by simp [Option.mem_def.mp wasRead])))
  atHand := writes ▸ atHand

/-- Read whole, the oldest open record is the one memory counts into, or memory's is gone and this
one carries nothing. -/
theorem oldest_counts (billed : Billed base before held) {flushing : Bool} {shown : List Entry}
    {row : Entry} (allowed : Exact (.page flushing shown) before)
    (oldest : IsOldest shown (some row)) {key : EntityKey} (counter : held.counter = some key) :
    key = row.key ∨ key ∉ before.rows.map Entry.key ∧ row.record.count = 0 := by
  obtain ⟨⟨_, whole⟩, shut⟩ := allowed
  obtain ⟨inRows, opened⟩ := (whole row).mp oldest.1
  have holds : before.held.bind (·.counter) = some key := by simp [billed.live, counter]
  by_cases inBefore : key ∈ before.rows.map Entry.key
  · obtain ⟨lead, inLead, rfl⟩ := List.mem_map.mp inBefore
    refine .inl (congrArg _ ?_)
    have leadOpen : lead.isOpen = true := by
      by_contra leadShut
      simp [shut lead inLead holds (by simpa using leadShut) row inRows] at opened
    exact Leads.unique billed.led.distinct inLead inRows
      (oldest.2 lead ((whole lead).mpr ⟨inLead, leadOpen⟩))
      (billed.current_leads (.inl holds) lead inLead rfl row inRows opened)
  · exact .inr ⟨inBefore, billed.absent key (.inl holds) inBefore row inRows opened⟩

/-- Under the conditions of exact billing every reading is level. -/
theorem level (billed : Billed base before held) (label : Label) (allowed : Exact label before) :
    Level label before := by
  cases label with
  | page flushing shown =>
      rintro row oldest other top isDue count member
      have inRows : row ∈ before.rows := ((allowed.1.2 row).mp oldest.1).1
      have own : count = row.record.count := by
        rcases List.mem_append.mp member with onChain | onTheWay
        · obtain ⟨same, here, rfl⟩ := List.mem_map.mp onChain
          obtain ⟨inSame, sameKey⟩ := List.mem_filter.mp here
          rw [List.inj_on_of_nodup_map billed.led.distinct inSame inRows (of_decide_eq_true sameKey)]
        · obtain ⟨write, inWrites, carries⟩ := List.mem_filterMap.mp onTheWay
          refine absurd ?_ other
          simp [billed.live, billed.aimed write inWrites row inRows
            (CounterWrite.countFor_patched carries)]
      rw [billed.live] at isDue other
      cases isDue
      cases counter : held.counter with
      | none => simp [take, counter, own]
      | some key =>
          have zero := (billed.oldest_counts allowed oldest counter).resolve_left
            fun same => other (by simp [counter, same])
          simp [take, counter, own, zero.2]
  | _ => trivial

/-- The same records and memory, no new writes, nothing new at hand. -/
theorem shrink (billed : Billed base before held) (led : after.Led)
    (rising : ∀ key, after.Rising key) (rows : after.rows = before.rows)
    (writes : after.outstanding.Sublist before.outstanding) (live : after.held = before.held)
    (read : ∀ row ∈ after.desk.row, row ∈ before.desk.row)
    (spare : ∀ key ∈ after.desk.duplicates, key ∈ before.desk.duplicates)
    (atHand : AtHand before.rows after.outstanding held.counter after.desk) :
    Billed base after held where
  led := led
  rising := rising
  live := live.trans billed.live
  balance := rows ▸ billed.balance
  aimed := by
    rw [rows]
    exact fun write member => billed.aimed write (writes.subset member)
  deletes := by
    rw [rows]
    exact fun row inRows deletes => billed.deletes row inRows (writes.subset deletes)
  deleted := by
    rw [rows]
    exact billed.deleted.sublist writes
  spare := by
    rw [rows]
    exact fun key member => billed.spare key (spare key member)
  absent := by
    rw [rows]
    exact fun key current =>
      billed.absent key (current.imp (fun holds => live ▸ holds) fun isRead => by
        obtain ⟨entry, found, same⟩ := Option.map_eq_some_iff.mp isRead
        exact Option.map_eq_some_iff.mpr ⟨entry, read entry found, same⟩)
  floor := by
    rw [rows]
    exact fun row found => billed.floor row (read row found)
  atHand := rows ▸ atHand

/-- The same at hand, and no new writes. -/
theorem keep (billed : Billed base before held) (led : after.Led)
    (rising : ∀ key, after.Rising key) (rows : after.rows = before.rows)
    (writes : after.outstanding.Sublist before.outstanding) (live : after.held = before.held)
    (desk : after.desk = before.desk) : Billed base after held := by
  refine billed.shrink led rising rows writes live ?_ ?_ ?_
  · rw [desk]
    exact fun row read => read
  · rw [desk]
    exact fun key member => member
  · rw [desk]
    exact billed.atHand.mono fun write member => writes.subset member

/-- What was at hand is let go. -/
theorem clear (billed : Billed base before held) (led : after.Led)
    (rising : ∀ key, after.Rising key) (rows : after.rows = before.rows)
    (sent : after.sent = before.sent) (live : after.held = before.held)
    (desk : after.desk = .clear) : Billed base after held := by
  refine billed.shrink led rising rows ?_ live ?_ ?_ ?_
  · simp [outstanding, sent, desk]
  · simp [desk, Desk.row]
  · simp [desk, Desk.duplicates]
  · rw [desk]
    trivial

/-- The entry and the record it counts into agree on the sum, once memory is matched. -/
theorem take_balance (billed : Billed base before held) {flushing : Bool} {row : Option Entry}
    {duplicates : List EntityKey} {found : Option Nat}
    (desk : before.desk = .shown flushing row duplicates none found) :
    others before.rows (row.map (·.key)) + (take row found held).served =
      base + (take row found held).total := by
  have atHand := billed.atHand
  have balance := billed.balance
  rw [desk] at atHand
  cases row with
  | some row =>
      obtain ⟨_, rfl, known⟩ := atHand
      have whole := total_eq before.rows row.key
      cases counter : held.counter with
      | none =>
          simp only [counter, others_none] at known balance
          simp only [take, counter, Option.map_some]
          omega
      | some key =>
          simp only [counter] at known balance
          simp only [take, counter, Option.map_some]
          rcases known with rfl | ⟨gone, zero⟩
          · exact balance
          · have other := total_eq before.rows key
            have nothing := countsOn_absent gone
            omega
  | none =>
      cases found with
      | some count =>
          obtain ⟨key, counter, sum, _⟩ := atHand
          have whole := total_eq before.rows key
          have bound := billed.count_le counter
          simp only [counter] at balance
          simp only [take, Option.map_none, others_none]
          omega
      | none =>
          cases counter : held.counter with
          | none =>
              simp only [counter] at balance
              simpa [take, counter] using balance
          | some key =>
              have whole := total_eq before.rows key
              have nothing := countsOn_absent (atHand key counter)
              simp only [counter] at balance
              simp only [take, counter, Option.map_none, others_none]
              omega

/-- A flush adds the deletes of records that carry nothing, and what it owes the agreement. -/
theorem counting (billed : Billed base before held) {row : Option Entry}
    {duplicates : List EntityKey} {leftovers : List CounterWrite} {opening : CounterRecord}
    {flush : Flush} {head period : Nat} (desk : before.desk = .matched true row duplicates)
    (deletes : ∀ write ∈ leftovers, ∃ key ∈ duplicates, write = .delete key)
    (led : after.Led) (rising : ∀ key, after.Rising key) (rows : after.rows = before.rows)
    (sent : after.sent = before.sent) (live : after.held = before.held)
    (now : after.desk = .writing
      (leftovers ++ (owed flush head period opening row (some held)).1)
      (owed flush head period opening row (some held)).2) : Billed base after held := by
  have counter : held.counter = row.map (·.key) := by simpa [desk, AtHand] using billed.atHand
  have queued : before.outstanding = before.sent := by simp [outstanding, desk]
  have writes : after.outstanding =
      before.sent ++ (leftovers ++ (owed flush head period opening row (some held)).1) := by
    simp [outstanding, sent, now]
  -- A new write deletes a younger record, or is one to the record memory counts into.
  have kinds : ∀ write ∈ leftovers ++ (owed flush head period opening row (some held)).1,
      (∃ key ∈ duplicates, write = .delete key) ∨
        ∀ key, write.target = some key → write.patched = some key ∧ held.counter = some key := by
    intro write member
    rcases List.mem_append.mp member with leftover | inOwed
    · exact .inl (deletes write leftover)
    · refine .inr fun key target => ?_
      rcases owed_live flush head period opening row held with
        ⟨nothing, _⟩ | ⟨_, one⟩ | ⟨found, payload, closing, rfl, _, one⟩
      · simp [nothing] at inOwed
      · obtain rfl : write = .opening opening := by simpa [one] using inOwed
        cases target
      · obtain rfl : write = .patch found.key payload closing := by simpa [one] using inOwed
        exact ⟨target, counter.trans target⟩
  have spare : ∀ key ∈ duplicates, key ∈ before.desk.duplicates := by
    simp [desk, Desk.duplicates]
  refine ⟨led, rising, live.trans billed.live, rows ▸ billed.balance, ?_, ?_, ?_, ?_, ?_,
    by simp [now, Desk.row], ?_⟩
  · rw [writes, rows]
    intro write member row inRows patched
    rcases List.mem_append.mp member with inSent | isNew
    · exact billed.aimed write (queued ▸ inSent) row inRows patched
    · rcases kinds write isNew with ⟨key, _, rfl⟩ | known
      · cases patched
      · exact (known _ (CounterWrite.patched_target patched)).2
  · rw [writes, rows]
    intro row inRows member
    rcases List.mem_append.mp member with inSent | isNew
    · exact billed.deletes row inRows (queued ▸ inSent)
    · rcases kinds _ isNew with ⟨key, isSpare, same⟩ | known
      · cases same
        refine ⟨?_, billed.spare row.key (spare _ isSpare) row inRows rfl⟩
        by_contra counts
        exact billed.led.spare row.key (spare _ isSpare) (.inl ⟨row, inRows, rfl, counts⟩)
      · cases (known row.key rfl).1
  · rw [writes, rows]
    refine List.pairwise_append.mpr ⟨queued ▸ billed.deleted, ?_, ?_⟩
    · refine List.pairwise_append.mpr ⟨?_, ?_, ?_⟩
      · refine List.pairwise_of_forall_mem_list fun first inFirst later _ row _ _ patched => ?_
        obtain ⟨key, _, rfl⟩ := deletes first inFirst
        cases patched
      · rcases owed_live flush head period opening row held with
          ⟨nothing, _⟩ | ⟨_, one⟩ | ⟨found, payload, closing, rfl, _, one⟩
        · simp [nothing]
        · simp [one]
        · simp [one]
      · intro first inFirst later _ row _ _ patched
        obtain ⟨key, _, rfl⟩ := deletes first inFirst
        cases patched
    · rintro first inFirst later inLater row inRows rfl patched
      rcases kinds _ inLater with ⟨key, isSpare, same⟩ | known
      · cases same
        exact billed.led.spare row.key (spare _ isSpare)
          (.inr (.inl ⟨first, queued ▸ inFirst, patched⟩))
      · cases (known row.key rfl).1
  · simp [now, Desk.duplicates]
  · rw [rows]
    rintro key (holds | isRead)
    · exact billed.absent key (.inl (live ▸ holds))
    · simp [now, Desk.row] at isRead
  · rw [now]
    rcases owed_live flush head period opening row held with
      ⟨nothing, _⟩ | ⟨_, one⟩ | ⟨found, payload, closing, rfl, same, one⟩
    · simp [nothing, AtHand]
    · simp [one, AtHand]
    · cases closing with
      | false => simp [one, AtHand]
      | true =>
          simp only [one, if_true, AtHand]
          refine ⟨counter, ?_⟩
          rw [if_neg (by simp)]
          exact .inr ⟨leftovers, payload, rfl, same, fun write member =>
            (deletes write member).imp fun key known => known.2⟩

/-- A close asked for comes last of what is to be sent. -/
theorem close_last (billed : Billed base before held) {write : CounterWrite}
    {queue : List CounterWrite} {close : Close}
    (desk : before.desk = .writing (write :: queue) (some close)) :
    held.counter = some close.counter ∧ close.landed = false ∧
      ((∃ payload, write = .patch close.counter payload true ∧ payload.count = close.count ∧
        queue = []) ∨
      (∃ key, write = .delete key) ∧ ∃ deletes payload,
        queue = deletes ++ [.patch close.counter payload true] ∧
          payload.count = close.count ∧ ∀ write ∈ deletes, ∃ key, write = .delete key) := by
  have atHand := billed.atHand
  rw [desk] at atHand
  obtain ⟨counter, known⟩ := atHand
  refine ⟨counter, ?_⟩
  split at known
  · have nothing := known.1
    simp [outstanding, desk] at nothing
  · next unlanded =>
      refine ⟨by simpa using unlanded, ?_⟩
      rcases known with empty | ⟨deletes, payload, same, count, kinds⟩
      · cases empty
      · cases deletes with
        | nil =>
            cases same
            exact .inl ⟨payload, rfl, count, rfl⟩
        | cons first deletes =>
            cases same
            exact .inr ⟨kinds _ List.mem_cons_self, deletes, payload, rfl, count,
              fun write member => kinds write (List.mem_cons_of_mem _ member)⟩

/-- The next write at hand is answered as landed. -/
theorem answered (billed : Billed base before held) {write : CounterWrite}
    {queue : List CounterWrite} {close : Option Close} {fresh : EntityKey} {rows : List Entry}
    (desk : before.desk = .writing (write :: queue) close)
    (distinct : (rows.map Entry.key).Nodup)
    (lands : write.land before.head fresh before.rows = some rows) :
    AtHand rows queue held.counter (.writing queue (close.map (Close.answered write))) := by
  cases close with
  | none => trivial
  | some close =>
      obtain ⟨counter, unlanded, ⟨payload, rfl, count, rfl⟩ | ⟨⟨key, rfl⟩, rest⟩⟩ :=
        billed.close_last desk
      · refine ⟨counter, ?_⟩
        rw [if_pos (by simp [Close.answered])]
        refine ⟨rfl, ?_⟩
        exact (countsOn_patch lands distinct).trans count
      · refine ⟨counter, ?_⟩
        rw [if_neg (by simp [Close.answered, unlanded])]
        exact .inr rest

end Billed

/-- Every step keeps the balance, under the conditions of exact billing. -/
theorem Billed.step {base : Nat} {before after : Account} {held : Held}
    (billed : Billed base before held) (step : Step Exact before after) :
    ∃ now, Billed base after now := by
  have led := billed.led.step (step.mono fun label allowed => by
    cases label <;> first | trivial | exact allowed.1)
  have rising := fun key => (billed.rising key).step (step.mono billed.level)
  cases step with
  | trail => exact ⟨held, billed.keep led rising rfl (.refl _) rfl rfl⟩
  | settle => exact ⟨held, billed.keep led rising rfl (.refl _) rfl rfl⟩
  | die => exact ⟨held, billed.keep led rising rfl (.refl _) rfl rfl⟩
  | catchUp count => exact ⟨held, billed.keep led rising rfl (.refl _) rfl rfl⟩
  | serveLate => exact ⟨held, billed.keep led rising rfl (.refl _) rfl rfl⟩
  | advance count keep later stays =>
      have same : before.rows.filter keep = before.rows := stays.resolve_right id
      exact ⟨held, billed.keep led rising same (.refl _) rfl rfl⟩
  | @serve live' live allowed =>
      obtain rfl : live' = held := Option.some.inj (live.symm.trans billed.live)
      refine ⟨_, led, rising, rfl, ?_, billed.aimed, billed.deletes, billed.deleted, billed.spare,
        fun key current => ?_, billed.floor, billed.atHand⟩
      · have balance := billed.balance
        simp only
        omega
      · refine billed.absent key (current.imp_left fun holds => ?_)
        simpa [billed.live] using holds
  | @land write rest fresh rows sent mining unused lands =>
      have queued : before.outstanding = write :: (rest ++ before.desk.queue) := by
        rw [outstanding, sent, List.cons_append]
      exact ⟨held, billed.landing queued unused lands led rising rfl rfl (fun _ read => read)
        (fun _ member => member) (billed.atHand_land queued unused lands)⟩
  | @drop write rest sent =>
      refine ⟨held, billed.keep led rising rfl ?_ rfl rfl⟩
      rw [outstanding, outstanding, sent]
      exact List.sublist_cons_self _ _
  | adopt absent desk alive allowed => exact allowed.elim
  | accept absent desk empty unseen unsent fresh zero opened allowed => exact allowed.elim
  | pastLife head openedBlock wei live desk allowed => exact allowed.elim
  | quit allowed => exact allowed.elim
  | @accepted record live fresh desk isLive unsent mining unused zero opened =>
      obtain rfl : live = held := Option.some.inj (isLive.symm.trans billed.live)
      obtain ⟨noRows, _⟩ := billed.led.accepting record desk
      have counter : live.counter = none := by simpa [desk, AtHand] using billed.atHand
      have balance := billed.balance
      simp only [noRows, counter] at balance
      refine ⟨_, led, rising, rfl, ?_, ?_, ?_, ?_, ?_, ?_, by simp [Desk.row], trivial⟩
      · simpa [noRows, others, total] using balance
      · simp [outstanding, unsent]
      · simp [outstanding, unsent]
      · simp [outstanding, unsent]
      · simp [Desk.duplicates]
      · rintro key current gone row inRows opened
        obtain rfl : row = ⟨fresh, before.head, record⟩ := by simpa [noRows] using inRows
        exact zero
  | @acceptFailed record live lost desk isLive allowed =>
      obtain rfl : live = held := Option.some.inj (isLive.symm.trans billed.live)
      obtain ⟨noRows, _⟩ := billed.led.accepting record desk
      have counter : live.counter = none := by simpa [desk, AtHand] using billed.atHand
      have same : ({ live with counter := none } : Held) = live := by rw [← counter]
      refine ⟨live, billed.shrink led rising rfl ?_ ?_ ?_ ?_ trivial⟩
      · simp only [outstanding, desk, Desk.queue_writing, List.append_nil]
        cases lost <;> simp [Desk.queue]
      · exact congrArg some same |>.trans isLive.symm
      · simp [Desk.row]
      · simp [Desk.duplicates]
  | giveUp allowed => exact ⟨held, billed.clear led rising rfl rfl rfl rfl⟩
  | leave desk => exact ⟨held, billed.clear led rising rfl rfl rfl rfl⟩
  | finish desk unlanded => exact ⟨held, billed.clear led rising rfl rfl rfl rfl⟩
  | @page flushing shown row duplicates desk settled inView oldest younger allowed =>
      have queued : before.outstanding = before.sent := by simp [outstanding, desk]
      have current := (allowed.1).2
      refine ⟨held, led, rising, billed.live, billed.balance, ?_, ?_, ?_, ?_, ?_, ?_, ?_⟩
      · simpa [outstanding, desk] using billed.aimed
      · simpa [outstanding, desk] using billed.deletes
      · simpa [outstanding, desk] using billed.deleted
      · intro key member other inRows same
        obtain ⟨entry, inShown, rfl, _⟩ := younger key member
        obtain ⟨inEntry, opened⟩ := (current entry).mp inShown
        obtain rfl := List.inj_on_of_nodup_map billed.led.distinct inRows inEntry same
        exact opened
      · rintro key (holds | isRead) gone other inRows opened
        · exact billed.absent key (.inl holds) gone other inRows opened
        · obtain ⟨entry, rfl, rfl⟩ := Option.map_eq_some_iff.mp isRead
          exact absurd (List.mem_map_of_mem ((current entry).mp oldest.1).1) gone
      · rintro entry rfl
        exact (countsOn_sum_eq billed.led.distinct ((current entry).mp oldest.1).1).ge
      · cases row with
        | some row =>
            have inRows := ((current row).mp oldest.1).1
            refine ⟨rfl, rfl, ?_⟩
            cases counter : held.counter with
            | none => exact countsOn_sum_eq billed.led.distinct inRows
            | some key =>
                refine (billed.oldest_counts allowed oldest counter).imp_right fun gone => ?_
                exact ⟨gone.1, (countsOn_sum_eq billed.led.distinct inRows).trans gone.2⟩
        | none =>
            have empty : shown = [] := oldest
            cases counter : held.counter with
            | none => simp [AtHand, billed.live, counter]
            | some key =>
                simp only [billed.live, Option.bind_some, counter, if_true]
                refine ⟨rfl, rfl, fun other inRows _ => ?_⟩
                by_contra opened
                have inShown := (current other).mpr ⟨inRows, by simpa using opened⟩
                simp [empty] at inShown
  | @lookup flushing row duplicates target desk allowed =>
      have atHand := billed.atHand
      rw [desk] at atHand
      cases row with
      | some row => exact absurd atHand.1 (by simp)
      | none =>
          obtain ⟨_, counter, shut⟩ := atHand
          refine ⟨held, billed.shrink led rising rfl ?_ rfl (by simp [Desk.row])
            (by simp [desk, Desk.duplicates]) ?_⟩
          · simp [outstanding, desk]
          · have queued : before.outstanding = before.sent := by simp [outstanding, desk]
            cases found : before.rows.find? (·.key = target) with
            | none =>
                simp only [closedCount, found, Option.bind_none]
                intro key holds
                obtain rfl : key = target := Option.some.inj (holds.symm.trans counter)
                simpa using found
            | some entry =>
                have inRows := List.mem_of_find?_eq_some found
                obtain rfl : entry.key = target := by simpa using List.find?_some found
                have isShut := shut entry inRows rfl
                simp only [closedCount, found, Option.bind_some, isShut]
                refine ⟨entry.key, counter, countsOn_sum_eq billed.led.distinct inRows, ?_⟩
                simpa [outstanding] using allowed entry inRows rfl isShut
  | @match_ flushing row duplicates found desk =>
      have queued : before.outstanding = before.sent := by simp [outstanding, desk]
      refine ⟨take row found held, led, rising, by simp [billed.live], billed.take_balance desk,
        ?_, ?_, ?_, ?_, ?_, by simpa [desk, Desk.row] using billed.floor, rfl⟩
      · intro write member other inRows patched
        have onTheWay : write ∈ before.outstanding := by simpa [outstanding, desk] using member
        have counter := billed.aimed write onTheWay other inRows patched
        have here := List.mem_map_of_mem (f := Entry.key) inRows
        have atHand := billed.atHand
        rw [desk] at atHand
        cases row with
        | some row =>
            exact congrArg some (billed.read_counter counter here (by simp [desk, Desk.row]))
        | none =>
            cases found with
            | none => exact absurd here (atHand other.key counter)
            | some count =>
                obtain ⟨key, holds, _, unpatched⟩ := atHand
                obtain rfl : key = other.key := Option.some.inj (holds.symm.trans counter)
                exact absurd patched (unpatched write onTheWay)
      · simpa [outstanding, desk] using billed.deletes
      · simpa [outstanding, desk] using billed.deleted
      · simpa [desk, Desk.duplicates] using billed.spare
      · intro key current
        refine billed.absent key (.inr ?_)
        simpa [Current, desk, Desk.row, billed.live, take] using current
  | @counts row duplicates opening flush head period desk zero opened =>
      refine ⟨held, billed.counting desk ?_ led rising rfl rfl rfl (by rw [billed.live])⟩
      intro write member
      split at member
      · exact (List.mem_map.mp member).imp fun key known => ⟨known.1, known.2.symm⟩
      · cases member
  | @send write queue close fresh rows desk unsent mining unused lands =>
      have queued : before.outstanding = write :: queue := by
        rw [outstanding, unsent, desk]
        rfl
      refine ⟨held, billed.landing queued unused lands led rising ?_ rfl (by simp [Desk.row])
        (by simp [Desk.duplicates]) ?_⟩
      · simp [outstanding, unsent]
      · exact billed.answered desk led.distinct lands
  | @sendFailed write queue close lost desk allowed =>
      refine ⟨held, billed.shrink led rising rfl ?_ rfl (by simp [Desk.row])
        (by simp [Desk.duplicates]) ?_⟩
      · rw [outstanding, outstanding, desk]
        cases lost
        · exact (List.sublist_cons_self write queue).append_left before.sent
        · simp [Desk.queue]
      · cases close with
        | none => trivial
        | some close =>
            obtain ⟨counter, unlanded, ⟨_, _, _, rfl⟩ | ⟨_, rest⟩⟩ := billed.close_last desk
            · refine ⟨counter, ?_⟩
              rw [if_neg (by simp [unlanded])]
              exact .inl rfl
            · refine ⟨counter, ?_⟩
              rw [if_neg (by simp [unlanded])]
              exact .inr rest
  | @successor close live opening desk landed isLive zero opened =>
      obtain rfl : live = held := Option.some.inj (isLive.symm.trans billed.live)
      have atHand := billed.atHand
      rw [desk] at atHand
      obtain ⟨counter, known⟩ := atHand
      rw [if_pos landed] at known
      have unsent : before.sent = [] := by simpa [outstanding, desk] using known.1
      refine ⟨_, led, rising, rfl, ?_, ?_, ?_, ?_, ?_, ?_, by simp [Desk.row], trivial⟩
      · have balance := billed.balance
        have whole := total_eq before.rows close.counter
        have bound := billed.count_le counter
        simp only [counter] at balance
        simp only [others_none]
        omega
      · simp [outstanding, unsent, CounterWrite.patched]
      · simp [outstanding, unsent]
      · simp [outstanding, unsent]
      · simp [Desk.duplicates]
      · rintro key (holds | isRead)
        · cases holds
        · cases isRead

end Account

end CommunityLb
