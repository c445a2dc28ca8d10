import CommunityLb.Marketplace.Task

/-!
# One agreement's account

What is counted under one agreement lives in three places: its counter records on the chain, the
writes to them that are on their way, and what memory holds.  An account is these three, with what
the task has at hand in between; its steps are what the LB and the chain can do to it.
-/

namespace CommunityLb

/-- A counter record on the chain, its life left out. -/
structure Entry where
  key : EntityKey
  createdAt : Nat
  record : CounterRecord
  deriving DecidableEq, Repr

namespace Entry

/-- The entry of a row. -/
def ofStored (stored : Stored CounterRecord) : Entry where
  key := stored.key
  createdAt := stored.createdAt
  record := stored.record

/-- The period is still counted. -/
def isOpen (entry : Entry) : Bool :=
  entry.record.state = .opened

/-- Creation order. -/
def Older (first second : Entry) : Prop :=
  first.createdAt < second.createdAt ∨
    first.createdAt = second.createdAt ∧ first.key ≤ second.key

/-- The entry after a patch of its payload, and of its state when it closes. -/
def patch (entry : Entry) (payload : CounterPayload) (closing : Bool) : Entry :=
  { entry with
    record :=
      { entry.record with
        state := if closing then .closed else entry.record.state
        count := payload.count
        weiPerCall := payload.weiPerCall
        openedBlock := payload.openedBlock
        closedBlock := payload.closedBlock } }

end Entry

/-- A write to one agreement's counter records. -/
inductive CounterWrite where
  | opening (record : CounterRecord)
  | patch (key : EntityKey) (payload : CounterPayload) (closing : Bool)
  | delete (key : EntityKey)
  deriving DecidableEq, Repr

namespace CounterWrite

/-- The record a write is to, when there is one yet. -/
def target : CounterWrite → Option EntityKey
  | opening _ => none
  | patch key _ _ => some key
  | delete key => some key

/-- The record a patch is to. -/
def patched : CounterWrite → Option EntityKey
  | patch key _ _ => some key
  | _ => none

/-- The count a write carries to a record. -/
def countFor (key : EntityKey) : CounterWrite → Option Nat
  | patch target payload _ => if target = key then some payload.count else none
  | _ => none

@[simp]
theorem countFor_opening (key : EntityKey) (record : CounterRecord) :
    (opening record).countFor key = none :=
  rfl

@[simp]
theorem countFor_delete (key target : EntityKey) :
    (delete target).countFor key = none :=
  rfl

theorem countFor_patched {key : EntityKey} {write : CounterWrite} {count : Nat}
    (carries : write.countFor key = some count) : write.patched = some key := by
  cases write with
  | opening record => cases carries
  | delete target => cases carries
  | patch target payload closing =>
      simp only [countFor] at carries
      split at carries
      · next same => exact congrArg some same
      · cases carries

theorem patched_target {key : EntityKey} {write : CounterWrite}
    (patched : write.patched = some key) : write.target = some key := by
  cases write with
  | opening record => cases patched
  | delete target => cases patched
  | patch target payload closing => exact patched

theorem countFor_target {key : EntityKey} {write : CounterWrite} {count : Nat}
    (carries : write.countFor key = some count) : write.target = some key :=
  patched_target (countFor_patched carries)

/-- What a write does when it lands in a block; a create's record gets its key there. -/
def land (block : Nat) (fresh : EntityKey) (rows : List Entry) : CounterWrite → Option (List Entry)
  | opening record =>
      some (rows ++
        [{ key := fresh
           createdAt := block
           record := record }])
  | patch key payload closing =>
      if key ∈ rows.map Entry.key then
        some (rows.map fun entry =>
          if entry.key = key then entry.patch payload closing else entry)
      else none
  | delete key =>
      if key ∈ rows.map Entry.key then some (rows.filter (·.key ≠ key)) else none

end CounterWrite

/-- A close the flush asked for, and whether it was answered as landed. -/
structure Close where
  counter : EntityKey
  count : Nat
  landed : Bool
  deriving DecidableEq, Repr

/-- What the task has at hand of one agreement. -/
inductive Desk where
  /-- Writes to be sent, and the close among them. -/
  | writing (queue : List CounterWrite) (close : Option Close)
  /-- The open records read, by a flush or not: the one that counts, the younger ones, the record
  memory misses and looks up, and the count that one was found closed with. -/
  | shown (flushing : Bool) (row : Option Entry) (duplicates : List EntityKey)
      (missing : Option EntityKey) (found : Option Nat)
  /-- The open records read, and memory matched to them. -/
  | matched (flushing : Bool) (row : Option Entry) (duplicates : List EntityKey)
  /-- An acceptance's counter record, to be created. -/
  | accepting (record : CounterRecord)
  deriving DecidableEq, Repr

namespace Desk

/-- Nothing at hand. -/
abbrev clear : Desk :=
  writing [] none

/-- The writes at hand. -/
def queue : Desk → List CounterWrite
  | writing queue _ => queue
  | accepting record => [.opening record]
  | _ => []

@[simp]
theorem queue_writing (queue : List CounterWrite) (close : Option Close) :
    (writing queue close).queue = queue :=
  rfl

@[simp]
theorem queue_shown (flushing : Bool) (row : Option Entry) (duplicates : List EntityKey)
    (missing : Option EntityKey) (found : Option Nat) :
    (shown flushing row duplicates missing found).queue = [] :=
  rfl

@[simp]
theorem queue_matched (flushing : Bool) (row : Option Entry) (duplicates : List EntityKey) :
    (matched flushing row duplicates).queue = [] :=
  rfl

@[simp]
theorem queue_accepting (record : CounterRecord) :
    (accepting record).queue = [.opening record] :=
  rfl

/-- The record at hand that an agreement counts into, or that is a stray. -/
def row : Desk → Option Entry
  | shown _ row _ _ _ => row
  | matched _ row _ => row
  | _ => none

/-- The younger open records at hand. -/
def duplicates : Desk → List EntityKey
  | shown _ _ duplicates _ _ => duplicates
  | matched _ _ duplicates => duplicates
  | _ => []

/-- Open records read are at hand. -/
def reading : Desk → Bool
  | shown .. | matched .. => true
  | _ => false

/-- The records named at hand. -/
def mentions : Desk → List EntityKey
  | writing queue close => queue.filterMap CounterWrite.target ++ (close.map (·.counter)).toList
  | shown _ row duplicates missing _ =>
      (row.map (·.key)).toList ++ duplicates ++ missing.toList
  | matched _ row duplicates => (row.map (·.key)).toList ++ duplicates
  | accepting _ => []

end Desk

/-- What memory holds of a live agreement: the record it counts into, and its entry's counts. -/
structure Held where
  counter : Option EntityKey
  served : Nat
  total : Nat
  deriving DecidableEq, Repr

/-- One agreement's account. -/
structure Account where
  head : Nat
  /-- The agreement's counter records on the chain. -/
  rows : List Entry
  /-- The earlier states of them that a query may still show, oldest first. -/
  seen : List (List Entry)
  /-- The writes in flight whose answer was lost, in the order sent. -/
  sent : List CounterWrite
  desk : Desk
  held : Option Held
  /-- The agreement's record has gone from the chain. -/
  dead : Bool
  /-- A block is being filled. -/
  mining : Bool
  /-- The requests served under the agreement so far. -/
  log : Nat
  deriving DecidableEq

namespace Account

/-- The records a query by attributes shows. -/
def view (account : Account) : List Entry :=
  account.seen.headD account.rows

/-- The writes on their way, in the order they will land. -/
def outstanding (account : Account) : List CounterWrite :=
  account.sent ++ account.desk.queue

/-- The records an account knows of. -/
def mentions (account : Account) : List EntityKey :=
  account.rows.map Entry.key ++ account.seen.flatMap (·.map Entry.key) ++
    account.sent.filterMap CounterWrite.target ++ account.desk.mentions ++
    (account.held.bind (·.counter)).toList

theorem row_mentioned {account : Account} {row : Entry} (member : row ∈ account.rows) :
    row.key ∈ account.mentions := by
  simp only [mentions, List.mem_append]
  exact .inl (.inl (.inl (.inl (List.mem_map_of_mem member))))

theorem target_mentioned {account : Account} {write : CounterWrite} {key : EntityKey}
    (member : write ∈ account.outstanding) (target : write.target = some key) :
    key ∈ account.mentions := by
  simp only [mentions, List.mem_append]
  rcases List.mem_append.mp member with sent | at_hand
  · exact .inl (.inl (.inr (List.mem_filterMap.mpr ⟨write, sent, target⟩)))
  · refine .inl (.inr ?_)
    cases desk : account.desk with
    | writing queue close =>
        rw [desk] at at_hand
        exact List.mem_append_left _ (List.mem_filterMap.mpr ⟨write, at_hand, target⟩)
    | accepting record =>
        rw [desk] at at_hand
        obtain rfl : write = .opening record := by simpa [Desk.queue] using at_hand
        cases target
    | shown flushing row duplicates missing found =>
        rw [desk] at at_hand
        cases at_hand
    | matched flushing row duplicates =>
        rw [desk] at at_hand
        cases at_hand

theorem counter_mentioned {account : Account} {key : EntityKey}
    (holds : account.held.bind (·.counter) = some key) : key ∈ account.mentions := by
  simp only [mentions, List.mem_append]
  exact .inr (by simp [holds])

theorem read_mentioned {account : Account} {key : EntityKey}
    (read : account.desk.row.map (·.key) = some key) : key ∈ account.mentions := by
  simp only [mentions, List.mem_append]
  refine .inl (.inr ?_)
  cases desk : account.desk with
  | writing queue close => simp [desk, Desk.row] at read
  | accepting record => simp [desk, Desk.row] at read
  | shown flushing row duplicates missing found =>
      rw [desk] at read
      simp only [Desk.row] at read
      simp [Desk.mentions, read]
  | matched flushing row duplicates =>
      rw [desk] at read
      simp only [Desk.row] at read
      simp [Desk.mentions, read]

theorem duplicate_mentioned {account : Account} {key : EntityKey}
    (member : key ∈ account.desk.duplicates) : key ∈ account.mentions := by
  simp only [mentions, List.mem_append]
  refine .inl (.inr ?_)
  cases desk : account.desk with
  | writing queue close => simp [desk, Desk.duplicates] at member
  | accepting record => simp [desk, Desk.duplicates] at member
  | shown flushing row duplicates missing found =>
      rw [desk] at member
      exact List.mem_append_left _ (List.mem_append_right _ member)
  | matched flushing row duplicates =>
      rw [desk] at member
      exact List.mem_append_right _ member

/-- The first of some records: none only when there is none, else one that no other precedes. -/
def IsOldest (shown : List Entry) : Option Entry → Prop
  | none => shown = []
  | some row => row ∈ shown ∧ ∀ entry ∈ shown, row.Older entry

/-- The count a record on the chain is closed with. -/
def closedCount (rows : List Entry) (key : EntityKey) : Option Nat :=
  (rows.find? (·.key = key)).bind fun entry =>
    if entry.isOpen then none else some entry.record.count

/-- Memory after the counter reconcile: what was found closed leaves it, and it takes the record
read, counting on from that one's count when it held none. -/
def take (row : Option Entry) (found : Option Nat) (held : Held) : Held :=
  let kept : Held :=
    match found with
    | some count =>
        { held with
          counter := none
          served := held.served - count }
    | none => held
  { kept with
    counter := row.map (·.key)
    served :=
      match kept.counter, row with
      | none, some row => kept.served + row.record.count
      | _, _ => kept.served }

@[simp]
theorem take_counter (row : Option Entry) (found : Option Nat) (held : Held) :
    (take row found held).counter = row.map (·.key) :=
  rfl

@[simp]
theorem take_total (row : Option Entry) (found : Option Nat) (held : Held) :
    (take row found held).total = held.total := by
  cases found <;> rfl

/-- The write a flush owes one agreement's counting, and the close it asks for. -/
def owed (flush : Flush) (head period : Nat) (opening : CounterRecord) (row : Option Entry)
    (held : Option Held) : List CounterWrite × Option Close :=
  match held, row with
  | some held, some row =>
      if flush = .scheduled ∧ held.served > 0 ∧ head ≥ row.record.openedBlock + period then
        ([.patch row.key (closed row.record held.served head).payload true],
          some { counter := row.key, count := held.served, landed := false })
      else if row.record.count = held.served then ([], none)
      else ([.patch row.key { row.record.payload with count := held.served } false], none)
  | some _, none =>
      match flush with
      | .stop => ([], none)
      | .scheduled => ([.opening opening], none)
  | none, some row =>
      match flush with
      | .stop => ([], none)
      | .scheduled =>
          if row.record.count = 0 then ([.delete row.key], none)
          else ([.patch row.key (closed row.record row.record.count head).payload true], none)
  | none, none => ([], none)

/-- The last write of an agreement that ended. -/
def final (head openedBlock : Nat) (wei : Wei) (held : Held) : List CounterWrite :=
  match held.counter with
  | none => []
  | some key =>
      if held.served = 0 then [.delete key]
      else
        [.patch key
          { count := held.served
            weiPerCall := wei
            openedBlock := openedBlock
            closedBlock := some head } true]

end Account

/-! ## Landing -/

namespace Account

/-- A write lands only when its record is there. -/
theorem land_target {block : Nat} {fresh key : EntityKey} {rows landed : List Entry}
    {write : CounterWrite} (lands : write.land block fresh rows = some landed)
    (target : write.target = some key) : key ∈ rows.map Entry.key := by
  cases write with
  | opening record => cases target
  | patch other payload closing =>
      cases target
      simp only [CounterWrite.land] at lands
      split at lands
      · assumption
      · cases lands
  | delete other =>
      cases target
      simp only [CounterWrite.land] at lands
      split at lands
      · assumption
      · cases lands

/-- The rows after a write landed: changed by it, new by it, or as before. -/
theorem land_rows {block : Nat} {fresh : EntityKey} {rows landed : List Entry}
    {write : CounterWrite} (lands : write.land block fresh rows = some landed) {row : Entry}
    (member : row ∈ landed) :
    (∃ record, write = .opening record ∧
      row = { key := fresh, createdAt := block, record := record }) ∨
    (∃ payload closing old, write = .patch row.key payload closing ∧ old ∈ rows ∧
      row = old.patch payload closing) ∨
    (row ∈ rows ∧ (∀ payload closing, write ≠ .patch row.key payload closing) ∧
      write ≠ .delete row.key) := by
  cases write with
  | opening record =>
      cases lands
      rcases List.mem_append.mp member with old | new
      · exact .inr (.inr ⟨old, by simp, by simp⟩)
      · exact .inl ⟨record, rfl, by simpa using new⟩
  | patch target payload closing =>
      simp only [CounterWrite.land] at lands
      split at lands
      · cases lands
        obtain ⟨old, inRows, rfl⟩ := List.mem_map.mp member
        by_cases same : old.key = target
        · simp only [same, if_true] at member ⊢
          exact .inr (.inl ⟨payload, closing, old, by rw [← same]; rfl, inRows, rfl⟩)
        · simp only [same, if_false]
          exact .inr (.inr ⟨inRows, by simp [Ne.symm same], by simp⟩)
      · cases lands
  | delete target =>
      simp only [CounterWrite.land] at lands
      split at lands
      · cases lands
        obtain ⟨old, kept⟩ := List.mem_filter.mp member
        exact .inr (.inr ⟨old, by simp, by simpa using (Ne.symm (by simpa using kept))⟩)
      · cases lands

/-- A row after a landing is new, or an old one that kept its key and its age, did not open
again, and changed its count only by a patch of its own. -/
theorem land_old {block : Nat} {fresh : EntityKey} {rows landed : List Entry}
    {write : CounterWrite} (lands : write.land block fresh rows = some landed) {row : Entry}
    (member : row ∈ landed) :
    (∃ record, write = .opening record ∧
      row = { key := fresh, createdAt := block, record := record }) ∨
    ∃ old ∈ rows, old.key = row.key ∧ old.createdAt = row.createdAt ∧
      (row.isOpen = true → old.isOpen = true) ∧
      (old.record.count = row.record.count ∨ write.patched = some row.key) := by
  rcases land_rows lands member with
    new | ⟨payload, closing, old, rfl, inRows, changed⟩ | ⟨kept, _⟩
  · exact .inl new
  · refine .inr ⟨old, inRows, ?_, ?_, ?_, .inr rfl⟩
    · rw [changed]
      rfl
    · rw [changed]
      rfl
    · rw [changed]
      cases closing <;> simp [Entry.isOpen, Entry.patch]
  · exact .inr ⟨row, kept, rfl, rfl, id, .inl rfl⟩

/-- A record that a landing takes away was deleted by it. -/
theorem land_gone {block : Nat} {fresh key : EntityKey} {rows landed : List Entry}
    {write : CounterWrite} (lands : write.land block fresh rows = some landed)
    (inRows : key ∈ rows.map Entry.key) (gone : key ∉ landed.map Entry.key) :
    write = .delete key := by
  obtain ⟨row, member, rfl⟩ := List.mem_map.mp inRows
  by_contra other
  refine gone ?_
  cases write with
  | opening record =>
      cases lands
      simp [List.mem_map_of_mem member]
  | patch target payload closing =>
      simp only [CounterWrite.land] at lands
      split at lands
      · rw [← Option.some.inj lands, List.map_map]
        refine List.mem_map.mpr ⟨row, member, ?_⟩
        simp only [Function.comp_apply]
        split <;> rfl
      · cases lands
  | delete target =>
      simp only [CounterWrite.land] at lands
      split at lands
      · rw [← Option.some.inj lands]
        refine List.mem_map_of_mem (List.mem_filter.mpr ⟨member, ?_⟩)
        exact decide_eq_true fun same => other (congrArg _ same.symm)
      · cases lands

/-- Landing keeps the keys apart, when a new record's key is not used. -/
theorem land_distinct {block : Nat} {fresh : EntityKey} {rows landed : List Entry}
    {write : CounterWrite} (lands : write.land block fresh rows = some landed)
    (distinct : (rows.map Entry.key).Nodup)
    (unused : ∀ record, write = .opening record → fresh ∉ rows.map Entry.key) :
    (landed.map Entry.key).Nodup := by
  cases write with
  | opening record =>
      cases lands
      rw [List.map_append]
      refine List.nodup_append.mpr ⟨distinct, List.nodup_singleton _, ?_⟩
      intro first inRows second isNew same
      obtain rfl : second = fresh := by simpa using isNew
      exact unused record rfl (same ▸ inRows)
  | patch target payload closing =>
      simp only [CounterWrite.land] at lands
      split at lands
      · cases lands
        have keys : (rows.map fun entry =>
            if entry.key = target then entry.patch payload closing else entry).map Entry.key =
            rows.map Entry.key := by
          rw [List.map_map]
          refine List.map_congr_left fun entry _ => ?_
          simp only [Function.comp_apply]
          split <;> rfl
        exact keys ▸ distinct
      · cases lands
  | delete target =>
      simp only [CounterWrite.land] at lands
      split at lands
      · cases lands
        exact distinct.sublist (List.filter_sublist.map _)
      · cases lands

end Account

/-! ## Counts -/

namespace Account

/-- The counts a record stands with. -/
def countsOn (rows : List Entry) (key : EntityKey) : List Nat :=
  (rows.filter (·.key = key)).map (·.record.count)

/-- A landing write makes a record's count its own, leaves the count it had, or deletes it. -/
theorem land_countsOn {key fresh : EntityKey} {block : Nat} {write : CounterWrite}
    {rows landed : List Entry} (other : ∀ record, write = .opening record → fresh ≠ key)
    (lands : write.land block fresh rows = some landed) :
    (∃ count, write.countFor key = some count ∧
      countsOn landed key = List.replicate (countsOn rows key).length count) ∨
    (write.countFor key = none ∧ countsOn landed key = countsOn rows key) ∨
    (write = .delete key ∧ countsOn landed key = []) := by
  cases write with
  | opening record =>
      cases lands
      exact .inr (.inl ⟨rfl, by simp [countsOn, other record rfl]⟩)
  | delete target =>
      simp only [CounterWrite.land] at lands
      split at lands
      · cases lands
        by_cases same : target = key
        · exact .inr (.inr ⟨congrArg _ same, by simp [countsOn, same]⟩)
        · refine .inr (.inl ⟨rfl, ?_⟩)
          rw [countsOn, List.filter_filter, countsOn]
          refine congrArg _ (List.filter_congr fun entry _ => ?_)
          by_cases here : entry.key = key
          · simp [here, Ne.symm same]
          · simp [here]
      · cases lands
  | patch target payload closing =>
      simp only [CounterWrite.land] at lands
      split at lands
      · cases lands
        have kept : countsOn (rows.map fun entry =>
            if entry.key = target then entry.patch payload closing else entry) key =
            (rows.filter (·.key = key)).map fun entry =>
              if entry.key = target then payload.count else entry.record.count := by
          rw [countsOn, List.filter_map, List.map_map]
          have here : ((fun entry : Entry => decide (entry.key = key)) ∘ fun entry =>
              if entry.key = target then entry.patch payload closing else entry) =
              fun entry => decide (entry.key = key) := by
            funext entry
            simp only [Function.comp_apply]
            split <;> rfl
          rw [here]
          refine List.map_congr_left fun entry _ => ?_
          simp only [Function.comp_apply]
          split <;> rfl
        by_cases same : target = key
        · refine .inl ⟨payload.count, by simp [CounterWrite.countFor, same], ?_⟩
          rw [kept, same, countsOn, List.length_map, ← List.map_const']
          refine List.map_congr_left fun entry member => ?_
          simp [show entry.key = key by simpa using (List.mem_filter.mp member).2]
        · refine .inr (.inl ⟨by simp [CounterWrite.countFor, same], ?_⟩)
          rw [kept]
          refine List.map_congr_left fun entry member => ?_
          have here : entry.key = key := by simpa using (List.mem_filter.mp member).2
          rw [if_neg fun clash => same (clash.symm.trans here)]
      · cases lands

end Account

/-! ## What the LB writes -/

namespace Account

/-- A write that is as its kind should be: an opening opens, a close carries a count and a block. -/
def WellMade : CounterWrite → Prop
  | .opening record => record.state = .opened
  | .patch _ payload closing => closing → 0 < payload.count ∧ payload.closedBlock.isSome
  | .delete _ => True

/-- A flush owes one write at most: a new record, or one to the record read. -/
theorem owed_cases (flush : Flush) (head period : Nat) (opening : CounterRecord)
    (row : Option Entry) (held : Option Held) :
    (owed flush head period opening row held).1 = [] ∨
    (owed flush head period opening row held).1 = [.opening opening] ∨
    ∃ found write, row = some found ∧ write.target = some found.key ∧ WellMade write ∧
      (owed flush head period opening row held).1 = [write] := by
  cases row with
  | none => cases held <;> cases flush <;> simp [owed]
  | some found =>
      cases held with
      | some live =>
          simp only [owed]
          split
          · next due =>
              refine .inr (.inr ⟨found, _, rfl, ?_, ?_, rfl⟩)
              · rfl
              · exact fun _ => ⟨due.2.1, rfl⟩
          · split
            · exact .inl rfl
            · refine .inr (.inr ⟨found, _, rfl, ?_, ?_, rfl⟩)
              · rfl
              · exact fun closing => nomatch closing
      | none =>
          cases flush with
          | stop => exact .inl rfl
          | scheduled =>
              simp only [owed]
              split
              · exact .inr (.inr ⟨found, .delete found.key, rfl, rfl, trivial, rfl⟩)
              · next counted =>
                  refine .inr (.inr ⟨found, _, rfl, ?_, ?_, rfl⟩)
                  · rfl
                  · exact fun _ => ⟨Nat.pos_of_ne_zero counted, rfl⟩

/-- Under a live agreement a flush owes a copy of the entry's count, a record to count into, or
nothing that the record read does not have. -/
theorem owed_live (flush : Flush) (head period : Nat) (opening : CounterRecord)
    (row : Option Entry) (held : Held) :
    (owed flush head period opening row (some held) = ([], none) ∧
      (row = none → flush = .stop) ∧ ∀ found ∈ row, found.record.count = held.served) ∨
    (row = none ∧ owed flush head period opening row (some held) = ([.opening opening], none)) ∨
    ∃ found payload closing, row = some found ∧ payload.count = held.served ∧
      owed flush head period opening row (some held) =
        ([.patch found.key payload closing],
          if closing then
            some
              { counter := found.key
                count := held.served
                landed := false }
          else none) := by
  cases row with
  | none =>
      cases flush with
      | stop => exact .inl ⟨rfl, fun _ => rfl, by simp⟩
      | scheduled => exact .inr (.inl ⟨rfl, rfl⟩)
  | some found =>
      simp only [owed]
      split
      · exact .inr (.inr ⟨found, _, true, rfl, rfl, rfl⟩)
      · split
        · next same => exact .inl ⟨rfl, by simp, by simpa using same⟩
        · exact .inr (.inr ⟨found, _, false, rfl, rfl, rfl⟩)

end Account

/-- A close is answered as landed when a patch of its record is. -/
def Close.answered (write : CounterWrite) (close : Close) : Close :=
  match write with
  | .patch key _ _ => { close with landed := close.landed || key = close.counter }
  | _ => close

/-- The steps that a run may be asked to keep a condition at. -/
inductive Label where
  /-- A counter record expires. -/
  | expire
  /-- The open counter records are read. -/
  | page (flushing : Bool) (shown : List Entry)
  /-- The record memory misses is looked up. -/
  | lookup (key : EntityKey)
  /-- The agreement is adopted from its record. -/
  | adopt
  /-- The agreement is accepted. -/
  | accept
  /-- The agreement ends. -/
  | pastLife
  /-- A request is served. -/
  | serve
  /-- A read fails. -/
  | giveUp
  /-- A write is not answered as landed. -/
  | fail (lost : Bool)
  /-- The process ends. -/
  | quit

open Account in
/-- One step of an account. -/
inductive Account.Step (ok : Label → Account → Prop) : Account → Account → Prop
  /-- Queries may trail at this state. -/
  | trail {account : Account} (settled : account.mining = false) :
      Step ok account { account with seen := account.seen ++ [account.rows] }
  /-- Blocks are sealed, and the last of them is filled. -/
  | advance {account : Account} (count : Nat) (keep : Entry → Bool) (later : 0 < count)
      (stays : account.rows.filter keep = account.rows ∨ ok .expire account) :
      Step ok account
        { account with
          head := account.head + count
          rows := account.rows.filter keep
          mining := true }
  | settle {account : Account} : Step ok account { account with mining := false }
  | die {account : Account} : Step ok account { account with dead := true }
  | catchUp {account : Account} (count : Nat) :
      Step ok account { account with seen := account.seen.drop count }
  | land {account : Account} {write : CounterWrite} {rest : List CounterWrite}
      {fresh : EntityKey} {rows : List Entry} (sent : account.sent = write :: rest)
      (mining : account.mining = true)
      (unused : ∀ record, write = .opening record → fresh ∉ account.mentions)
      (lands : write.land account.head fresh account.rows = some rows) :
      Step ok account { account with rows := rows, sent := rest }
  | drop {account : Account} {write : CounterWrite} {rest : List CounterWrite}
      (sent : account.sent = write :: rest) : Step ok account { account with sent := rest }
  | serve {account : Account} {held : Held} (live : account.held = some held)
      (allowed : ok .serve account) :
      Step ok account
        { account with
          held := some { held with served := held.served + 1, total := held.total + 1 }
          log := account.log + 1 }
  /-- A request served by an entry the agreement had before. -/
  | serveLate {account : Account} : Step ok account { account with log := account.log + 1 }
  | adopt {account : Account} (absent : account.held = none) (desk : account.desk = .clear)
      (alive : account.seen = [] → account.dead = false) (allowed : ok .adopt account) :
      Step ok account { account with held := some { counter := none, served := 0, total := 0 } }
  | accept {account : Account} {record : CounterRecord} (absent : account.held = none)
      (desk : account.desk = .clear) (empty : account.rows = [])
      (unseen : ∀ rows ∈ account.seen, rows = []) (unsent : account.sent = [])
      (fresh : account.dead = false) (zero : record.count = 0) (opened : record.state = .opened)
      (allowed : ok .accept account) :
      Step ok account
        { account with
          held := some { counter := none, served := 0, total := 0 }
          desk := .accepting record }
  | accepted {account : Account} {record : CounterRecord} {held : Held} {fresh : EntityKey}
      (desk : account.desk = .accepting record) (live : account.held = some held)
      (unsent : account.sent = []) (mining : account.mining = true)
      (unused : fresh ∉ account.mentions) (zero : record.count = 0)
      (opened : record.state = .opened) :
      Step ok account
        { account with
          rows := account.rows ++
            [{ key := fresh
               createdAt := account.head
               record := record }]
          held := some { held with counter := some fresh }
          desk := .clear
          mining := false }
  | acceptFailed {account : Account} {record : CounterRecord} {held : Held} (lost : Bool)
      (desk : account.desk = .accepting record) (live : account.held = some held)
      (allowed : ok (.fail lost) account) :
      Step ok account
        { account with
          sent := if lost then account.sent ++ [.opening record] else account.sent
          held := some { held with counter := none }
          desk := .clear }
  | pastLife {account : Account} {held : Held} (head openedBlock : Nat) (wei : Wei)
      (live : account.held = some held) (desk : account.desk = .clear)
      (allowed : ok .pastLife account) :
      Step ok account
        { account with
          held := none
          desk := .writing (final head openedBlock wei held) none }
  | quit {account : Account} (allowed : ok .quit account) :
      Step ok account { account with held := none, desk := .clear }
  | page {account : Account} (flushing : Bool) {shown : List Entry} {row : Option Entry}
      {duplicates : List EntityKey} (desk : account.desk = .clear)
      (settled : account.mining = false) (inView : ∀ entry ∈ shown, entry ∈ account.view ∧ entry.isOpen)
      (oldest : IsOldest shown row)
      (younger : ∀ key ∈ duplicates, ∃ entry ∈ shown, entry.key = key ∧ row ≠ some entry)
      (allowed : ok (.page flushing shown) account) :
      Step ok account
        { account with
          desk := .shown flushing row duplicates
            (if row = none then account.held.bind (·.counter) else none) none }
  | lookup {account : Account} {flushing : Bool} {row : Option Entry}
      {duplicates : List EntityKey} {key : EntityKey}
      (desk : account.desk = .shown flushing row duplicates (some key) none)
      (allowed : ok (.lookup key) account) :
      Step ok account
        { account with
          desk := .shown flushing row duplicates none (closedCount account.rows key) }
  | match_ {account : Account} {flushing : Bool} {row : Option Entry}
      {duplicates : List EntityKey} {found : Option Nat}
      (desk : account.desk = .shown flushing row duplicates none found) :
      Step ok account
        { account with
          held := account.held.map (take row found)
          desk := .matched flushing row duplicates }
  | leave {account : Account} {row : Option Entry} {duplicates : List EntityKey}
      (desk : account.desk = .matched false row duplicates) :
      Step ok account { account with desk := .clear }
  | giveUp {account : Account} (allowed : ok .giveUp account) :
      Step ok account { account with desk := .clear }
  | counts {account : Account} {row : Option Entry} {duplicates : List EntityKey}
      {opening : CounterRecord} (flush : Flush) (head period : Nat)
      (desk : account.desk = .matched true row duplicates) (zero : opening.count = 0)
      (opened : opening.state = .opened) :
      Step ok account
        { account with
          desk := .writing
            ((if flush = .scheduled then duplicates.map .delete else []) ++
              (owed flush head period opening row account.held).1)
            (owed flush head period opening row account.held).2 }
  | send {account : Account} {write : CounterWrite} {queue : List CounterWrite}
      {close : Option Close} {fresh : EntityKey} {rows : List Entry}
      (desk : account.desk = .writing (write :: queue) close) (unsent : account.sent = [])
      (mining : account.mining = true)
      (unused : ∀ record, write = .opening record → fresh ∉ account.mentions)
      (lands : write.land account.head fresh account.rows = some rows) :
      Step ok account
        { account with
          rows := rows
          desk := .writing queue (close.map (Close.answered write)) }
  | sendFailed {account : Account} {write : CounterWrite} {queue : List CounterWrite}
      {close : Option Close} (lost : Bool)
      (desk : account.desk = .writing (write :: queue) close) (allowed : ok (.fail lost) account) :
      Step ok account
        { account with
          sent := if lost then account.sent ++ [write] else account.sent
          desk := .writing queue close }
  | successor {account : Account} {close : Close} {held : Held} {opening : CounterRecord}
      (desk : account.desk = .writing [] (some close)) (landed : close.landed = true)
      (live : account.held = some held) (zero : opening.count = 0)
      (opened : opening.state = .opened) :
      Step ok account
        { account with
          held := some { held with counter := none, served := held.served - close.count }
          desk := .writing [.opening opening] none }
  | finish {account : Account} {close : Option Close} (desk : account.desk = .writing [] close)
      (unlanded : account.held = none ∨ ∀ made ∈ close, made.landed = false) :
      Step ok account { account with desk := .clear }

/-- A step under a condition is one under a weaker condition. -/
theorem Account.Step.mono {ok weaker : Label → Account → Prop} {before after : Account}
    (le : ∀ label, ok label before → weaker label before) (step : Step ok before after) :
    Step weaker before after := by
  cases step with
  | trail settled => exact .trail settled
  | advance count keep later stays => exact .advance count keep later (stays.imp_right (le _))
  | settle => exact .settle
  | die => exact .die
  | catchUp count => exact .catchUp count
  | land sent mining unused lands => exact .land sent mining unused lands
  | drop sent => exact .drop sent
  | serve live allowed => exact .serve live (le _ allowed)
  | serveLate => exact .serveLate
  | adopt absent desk alive allowed => exact .adopt absent desk alive (le _ allowed)
  | accept absent desk empty unseen unsent fresh zero opened allowed =>
      exact .accept absent desk empty unseen unsent fresh zero opened (le _ allowed)
  | accepted desk live unsent mining unused zero opened =>
      exact .accepted desk live unsent mining unused zero opened
  | acceptFailed lost desk live allowed => exact .acceptFailed lost desk live (le _ allowed)
  | pastLife head openedBlock wei live desk allowed =>
      exact .pastLife head openedBlock wei live desk (le _ allowed)
  | quit allowed => exact .quit (le _ allowed)
  | page flushing desk settled inView oldest younger allowed =>
      exact .page flushing desk settled inView oldest younger (le _ allowed)
  | lookup desk allowed => exact .lookup desk (le _ allowed)
  | match_ desk => exact .match_ desk
  | leave desk => exact .leave desk
  | giveUp allowed => exact .giveUp (le _ allowed)
  | counts flush head period desk zero opened => exact .counts flush head period desk zero opened
  | send desk unsent mining unused lands => exact .send desk unsent mining unused lands
  | sendFailed lost desk allowed => exact .sendFailed lost desk (le _ allowed)
  | successor desk landed live zero opened => exact .successor desk landed live zero opened
  | finish desk unlanded => exact .finish desk unlanded

end CommunityLb
