import CommunityLb.Settle.Ledger

/-!
# Every page of a query

A query is read a page of keys at a time, each page the rows after the last key read, until a page
comes back empty.  Rows are created and expire between the reads, and a node may answer anything.
-/

namespace CommunityLb

/-- The big integer of a hex string. -/
def Hex.toBigInt? (text : Hex) : Option Int :=
  bigInt? text

/-- A key is below another: both are numbers, the first the smaller. -/
def Hex.Below (left right : Hex) : Prop :=
  ∃ number bound, left.toBigInt? = some number ∧ right.toBigInt? = some bound ∧ number < bound

instance : Trans Hex.Below Hex.Below Hex.Below where
  trans := by
    rintro left middle right ⟨number, bound, isNumber, isBound, less⟩
      ⟨bound', limit, isBound', isLimit, less'⟩
    obtain rfl : bound = bound' := Option.some.inj (isBound.symm.trans isBound')
    exact ⟨number, limit, isNumber, isLimit, less.trans less'⟩

/-! ## The walk -/

/-- The node's page maximum. -/
def PAGE : Nat :=
  100

/-- A page asked of a node: the whole query in parentheses, above the last key read. -/
structure PageQuery where
  text : String
  limit : Nat
  deriving DecidableEq, Repr

/-- The page of a query after a key. -/
def pageQuery (text : String) (after : Option Hex) : PageQuery where
  text := "(" ++ text ++ ")" ++
    (match after with
    | some key => " AND $key > key(" ++ key.text ++ ")"
    | none => "") ++ " ORDER BY $key"
  limit := PAGE

/-- What a node answers, by how many reads came before and the bound it is asked above. -/
abbrev Node :=
  Nat → Option Hex → Except String (List Row)

/-- What a page out of key order throws. -/
def outOfOrder (after : Option Hex) : String :=
  "the node answered " ++
    (match after with
    | none => "the first page"
    | some key => "the page after key " ++ key.text) ++ " out of key order: nothing was paid"

/-- What a key that is no number throws. -/
def notANumber (key : Hex) : String :=
  "Cannot convert " ++ key.text ++ " to a BigInt"

/-- The last key of a page, each above the one before it, the first above the bound. -/
def lastInOrder (after : Option Hex) : Option Hex → List Row → Except String (Option Hex)
  | previous, [] => .ok previous
  | none, row :: page => lastInOrder after (some row.key) page
  | some previous, row :: page =>
      match row.key.toBigInt?, previous.toBigInt? with
      | none, _ => .error (notANumber row.key)
      | some _, none => .error (notANumber previous)
      | some number, some bound =>
          if number ≤ bound then .error (outOfOrder after)
          else lastInOrder after (some row.key) page

/-- A walk under way. -/
structure Walk where
  rows : List Row
  after : Option Hex
  reads : Nat

/-- Nothing read. -/
def Walk.start : Walk where
  rows := []
  after := none
  reads := 0

/-- What one read leaves: more to read, or the walk's end. -/
inductive Walk.Turn where
  | on (walk : Walk)
  | ended (result : Except String (List Row))

/-- One read, and what becomes of the walk. -/
def Walk.turn (read : Node) (walk : Walk) : Walk.Turn :=
  match read walk.reads walk.after with
  | .error reason => .ended (.error reason)
  | .ok page =>
      if page.isEmpty then .ended (.ok walk.rows)
      else
        match lastInOrder walk.after walk.after page with
        | .error reason => .ended (.error reason)
        | .ok last =>
            .on
              { rows := walk.rows ++ page
                after := last
                reads := walk.reads + 1 }

/-- How a walk ended, and after how many reads. -/
structure Walked where
  result : Except String (List Row)
  reads : Nat

/-- A walk from where it is; none while it is still reading after so many reads. -/
def Walk.finish (read : Node) : Nat → Walk → Option Walked
  | 0, _ => none
  | fuel + 1, walk =>
      match walk.turn read with
      | .ended result =>
          some
            { result := result
              reads := walk.reads + 1 }
      | .on next => next.finish read fuel

/-- Every row of a query, a page at a time. -/
def everyPage (read : Node) (fuel : Nat) : Option Walked :=
  Walk.start.finish read fuel

/-- Every row of a query's text that a client finds, a page at a time. -/
def query (client : Nat → PageQuery → Except String (List Row)) (text : String) (fuel : Nat) :
    Option Walked :=
  everyPage (fun reads after => client reads (pageQuery text after)) fuel

/-- A walk over a node reaches this point of it. -/
inductive Walk.Reached (read : Node) : Walk → Prop where
  | start : Reached read Walk.start
  | on {walk next : Walk} : Reached read walk → walk.turn read = .on next → Reached read next

/-! ## Any node -/

/-- A page is in order where its keys rise from the bound, and the last of them is the next bound. -/
theorem lastInOrder_ok {after previous last : Option Hex} {page : List Row}
    (ordered : lastInOrder after previous page = .ok last) :
    (previous.toList ++ page.map (·.key)).IsChain Hex.Below ∧
      last = (previous.toList ++ page.map (·.key)).getLast? := by
  induction page generalizing previous with
  | nil =>
      cases previous <;> cases ordered <;> simp
  | cons row page ih =>
      cases previous with
      | none =>
          simpa using ih ordered
      | some previous =>
          simp only [lastInOrder] at ordered
          split at ordered
          · cases ordered
          · cases ordered
          · next number bound isNumber isBound =>
              split at ordered
              · cases ordered
              · next above =>
                  obtain ⟨chain, isLast⟩ := ih ordered
                  have below : Hex.Below previous row.key :=
                    ⟨bound, number, isBound, isNumber, not_le.mp above⟩
                  refine ⟨?_, ?_⟩
                  · simpa using List.IsChain.cons_cons below chain
                  · simpa [List.getLast?_cons_cons] using isLast

/-- The rows' keys rise. -/
def Increasing (rows : List Row) : Prop :=
  (rows.map (·.key)).Pairwise Hex.Below

/-- What a walk keeps over any node: its keys rise, and the last of them is the bound. -/
structure Walk.Rising (walk : Walk) : Prop where
  chain : (walk.rows.map (·.key)).IsChain Hex.Below
  last : walk.after = (walk.rows.map (·.key)).getLast?

/-- A read that is not the last moves past the bound. -/
structure Moves (read : Node) (walk next : Walk) (page : List Row) : Prop where
  answered : read walk.reads walk.after = .ok page
  more : page ≠ []
  rows : next.rows = walk.rows ++ page
  reads : next.reads = walk.reads + 1
  /-- Its keys rise from the bound, to the next one. -/
  rising : (walk.after.toList ++ page.map (·.key)).IsChain Hex.Below
  last : next.after = (page.map (·.key)).getLast?

theorem Walk.turn_on {read : Node} {walk next : Walk} (goesOn : walk.turn read = .on next) :
    ∃ page, Moves read walk next page := by
  simp only [Walk.turn] at goesOn
  split at goesOn
  · cases goesOn
  · next page answered =>
      split at goesOn
      · cases goesOn
      · next more =>
          have more : page ≠ [] := by simpa using more
          split at goesOn
          · cases goesOn
          · next last ordered =>
              cases goesOn
              obtain ⟨rising, isLast⟩ := lastInOrder_ok ordered
              refine ⟨page, ?_⟩
              constructor
              · exact answered
              · exact more
              · rfl
              · rfl
              · exact rising
              · rw [isLast, List.getLast?_append_of_ne_nil]
                simpa using more

theorem Walk.Rising.on {read : Node} {walk next : Walk} {page : List Row} (rising : walk.Rising)
    (moves : Moves read walk next page) : next.Rising := by
  constructor
  · rw [moves.rows, List.map_append, List.isChain_append]
    have pageRising := moves.rising
    rw [List.isChain_append] at pageRising
    refine ⟨rising.chain, pageRising.2.1, fun key isLast first isFirst => ?_⟩
    apply pageRising.2.2 key _ first isFirst
    have isBound : walk.after = some key := rising.last.trans isLast
    simp [isBound]
  · rw [moves.rows, moves.last, List.map_append, List.getLast?_append_of_ne_nil]
    simpa using moves.more

/-- Every point a walk reaches is rising. -/
theorem Walk.Reached.rising {read : Node} {walk : Walk} (reached : Walk.Reached read walk) :
    walk.Rising := by
  induction reached with
  | start => exact ⟨List.isChain_nil, rfl⟩
  | on _ goesOn ih =>
      obtain ⟨page, moves⟩ := Walk.turn_on goesOn
      exact ih.on moves

/-- A walk ends with what it read so far, or an error. -/
theorem Walk.turn_ended {read : Node} {walk : Walk} {found : List Row}
    (ends : walk.turn read = .ended (.ok found)) :
    read walk.reads walk.after = .ok [] ∧ found = walk.rows := by
  simp only [Walk.turn] at ends
  split at ends
  · cases ends
  · next page answered =>
      split at ends
      · next isEmpty =>
          cases ends
          obtain rfl := List.isEmpty_iff.mp isEmpty
          exact ⟨answered, rfl⟩
      · split at ends <;> cases ends

/-- What a walk returns, over any node, is in key order. -/
theorem Walk.finish_increasing {read : Node} {fuel : Nat} {walk : Walk} {ended : Walked}
    {found : List Row} (reached : Walk.Reached read walk)
    (ends : walk.finish read fuel = some ended) (isFound : ended.result = .ok found) :
    Increasing found := by
  induction fuel generalizing walk with
  | zero => cases ends
  | succ fuel ih =>
      simp only [Walk.finish] at ends
      split at ends
      · next result isResult =>
          cases ends
          obtain rfl : result = .ok found := isFound
          obtain ⟨_, rfl⟩ := Walk.turn_ended isResult
          exact List.isChain_iff_pairwise.mp reached.rising.chain
      · next goesOn => exact ih (reached.on goesOn) ends

/-! ## A node that answers in key order -/

/-- The number of a key. -/
def Row.number (row : Row) : Nat :=
  (row.key.toBigInt?.getD 0).toNat

/-- A key is 32 bytes. -/
def Hex.IsKey (key : Hex) : Prop :=
  ∃ digits number, key = '0' :: 'x' :: digits ∧ digits.length = 64 ∧
    ofHexDigits? 0 digits = some number

/-- A key is its number. -/
theorem Hex.IsKey.isNumber {key : Hex} (isKey : key.IsKey) :
    ∃ number : Nat, key.toBigInt? = some (number : Int) ∧ number < 16 ^ 64 := by
  obtain ⟨digits, number, rfl, long, isNumber⟩ := isKey
  have bound := ofHexDigits?_lt isNumber
  rw [long, Nat.zero_add, Nat.one_mul] at bound
  have some_ : digits ≠ [] := by
    rintro rfl
    cases long
  have plain : ∀ c ∈ '0' :: 'x' :: digits, isSpace c = false := by
    intro c member
    rcases List.mem_cons.mp member with rfl | member
    · decide
    · rcases List.mem_cons.mp member with rfl | member
      · decide
      · obtain ⟨value, isValue⟩ := ofHexDigits?_mem isNumber c member
        exact isSpace_of_hexDigit? isValue
  refine ⟨number, ?_, bound⟩
  rw [Hex.toBigInt?, bigInt?_of_plain plain]
  simp [literal?, some_, isNumber]

/-- The least number above a bound. -/
def floorOf : Option Hex → Nat
  | none => 0
  | some key => (key.toBigInt?.getD 0).toNat + 1

/-- The rows a query matches as each read of a walk is answered. -/
structure Matching where
  alive : Nat → List Row
  keys : ∀ read, ∀ row ∈ alive read, row.key.IsKey
  distinct : ∀ read, ((alive read).map Row.number).Nodup

namespace Matching

/-- The rows above a bound, in key order. -/
def above (rows : Matching) (read : Nat) (after : Option Hex) : List Row :=
  ((rows.alive read).filter fun row => floorOf after ≤ row.number).insertionSort
    fun left right => left.number ≤ right.number

/-- A node answers each read with some of the rows above the bound, the first so many in key order:
one at least, unless there are none. -/
def AnsweredBy (rows : Matching) (read : Node) : Prop :=
  ∀ (reads : Nat) (after : Option Hex), (∀ key ∈ after, key.IsKey) →
    ∃ count, 0 < count ∧ read reads after = .ok ((rows.above reads after).take count)

theorem mem_above {rows : Matching} {read : Nat} {after : Option Hex} {row : Row} :
    row ∈ rows.above read after ↔ row ∈ rows.alive read ∧ floorOf after ≤ row.number := by
  rw [above, List.mem_insertionSort, List.mem_filter, decide_eq_true_eq]

/-- Their numbers rise. -/
theorem above_rises (rows : Matching) (read : Nat) (after : Option Hex) :
    (rows.above read after).Pairwise fun left right => left.number < right.number := by
  have sorted := pairwise_insertionSort_by Row.number
    ((rows.alive read).filter fun row => floorOf after ≤ row.number)
  have perm := (List.perm_insertionSort (fun left right : Row => left.number ≤ right.number)
    ((rows.alive read).filter fun row => floorOf after ≤ row.number)).map Row.number
  have distinct : ((rows.above read after).map Row.number).Nodup :=
    perm.nodup_iff.mpr ((rows.distinct read).sublist (List.filter_sublist.map _))
  have apart : (rows.above read after).Pairwise fun left right => left.number ≠ right.number :=
    List.pairwise_map.mp distinct
  exact (sorted.and apart).imp fun both => lt_of_le_of_ne both.1 both.2

end Matching

/-- What is left of a walk is whole: rows that were alive as they were read, in key order, and among
them every one that was alive at every read, changed or not. -/
structure Whole (rows : Matching) (reads : Nat) (found : List Row) : Prop where
  increasing : Increasing found
  alive : ∀ row ∈ found, ∃ read < reads, row ∈ rows.alive read
  stays : ∀ number, (∀ read < reads, ∃ row ∈ rows.alive read, row.number = number) →
    ∃ row ∈ found, row.number = number
  unchanged : ∀ row, (∀ read < reads, row ∈ rows.alive read) → row ∈ found

/-- A page in key order above the bound is in order for the walk. -/
theorem lastInOrder_of_chain {after previous : Option Hex} {page : List Row}
    (rising : (previous.toList ++ page.map (·.key)).IsChain Hex.Below) :
    ∃ last, lastInOrder after previous page = .ok last := by
  induction page generalizing previous with
  | nil =>
      refine ⟨previous, ?_⟩
      cases previous <;> rfl
  | cons row page ih =>
      cases previous with
      | none => exact @ih (some row.key) rising
      | some previous =>
          obtain ⟨below, rest⟩ := List.isChain_cons_cons.mp rising
          obtain ⟨bound, number, isBound, isNumber, above⟩ := below
          obtain ⟨last, ordered⟩ := @ih (some row.key) rest
          refine ⟨last, ?_⟩
          simp only [lastInOrder, isBound, isNumber, if_neg (not_le.mpr above), ordered]

/-- Rows of 32-byte keys whose numbers rise are in key order. -/
theorem below_of_number {left right : Row} (isKey : left.key.IsKey) (isKey' : right.key.IsKey)
    (less : left.number < right.number) : Hex.Below left.key right.key := by
  obtain ⟨number, isNumber, _⟩ := isKey.isNumber
  obtain ⟨bound, isBound, _⟩ := isKey'.isNumber
  refine ⟨number, bound, isNumber, isBound, ?_⟩
  simpa [Row.number, isNumber, isBound] using less

/-- A 32-byte key is below the space of keys. -/
theorem Hex.IsKey.floorOf_le {key : Hex} (isKey : key.IsKey) : floorOf (some key) ≤ 16 ^ 64 := by
  obtain ⟨number, isNumber, bound⟩ := isKey.isNumber
  rw [floorOf, isNumber, Option.getD_some, Int.toNat_natCast]
  exact bound

/-- What a walk keeps over a node that answers in key order. -/
structure Walk.Keeps (rows : Matching) (walk : Walk) : Prop where
  alive : ∀ row ∈ walk.rows, ∃ read < walk.reads, row ∈ rows.alive read
  /-- What was alive at every read so far and is below the next bound was read. -/
  stays : ∀ number, (∀ read < walk.reads, ∃ row ∈ rows.alive read, row.number = number) →
    number < floorOf walk.after → ∃ row ∈ walk.rows, row.number = number
  isKey : ∀ key ∈ walk.after, key.IsKey

theorem Walk.Keeps.start (rows : Matching) : Walk.start.Keeps rows := by
  constructor
  · intro row member
    cases member
  · intro number _ below
    cases below
  · intro key member
    cases member

/-- The page a node answers in key order. -/
structure Matching.Page (rows : Matching) (walk : Walk) (page : List Row) : Prop where
  /-- Each of its rows is alive and above the bound. -/
  alive : ∀ row ∈ page, row ∈ rows.alive walk.reads ∧ floorOf walk.after ≤ row.number
  rises : page.Pairwise fun left right => left.number < right.number
  /-- A row alive above the bound is in it, or above all of it. -/
  whole : ∀ row ∈ rows.alive walk.reads, floorOf walk.after ≤ row.number →
    row ∈ page ∨ page ≠ [] ∧ ∀ read ∈ page, read.number < row.number

theorem Matching.AnsweredBy.page {rows : Matching} {read : Node} (answers : rows.AnsweredBy read)
    {walk : Walk} (isKey : ∀ key ∈ walk.after, key.IsKey) :
    ∃ page, read walk.reads walk.after = .ok page ∧ rows.Page walk page := by
  obtain ⟨count, positive, answered⟩ := answers walk.reads walk.after isKey
  refine ⟨_, answered, ?_⟩
  have rises := rows.above_rises walk.reads walk.after
  rw [← List.take_append_drop count (rows.above walk.reads walk.after),
    List.pairwise_append] at rises
  constructor
  · intro row member
    exact Matching.mem_above.mp (List.mem_of_mem_take member)
  · exact rises.1
  · intro row isAlive isAbove
    have member : row ∈ rows.above walk.reads walk.after :=
      Matching.mem_above.mpr ⟨isAlive, isAbove⟩
    have more := List.ne_nil_of_mem member
    rw [← List.take_append_drop count (rows.above walk.reads walk.after)] at member
    rcases List.mem_append.mp member with inPage | later
    · exact .inl inPage
    · refine .inr ⟨?_, fun read inPage => rises.2.2 read inPage row later⟩
      rw [Ne, List.take_eq_nil_iff]
      exact fun none => none.elim (fun zero => absurd zero positive.ne') more

/-- An empty page ends a walk that kept everything. -/
theorem Walk.Keeps.whole {rows : Matching} {walk : Walk} (keeps : walk.Keeps rows)
    (rising : walk.Rising) (page : rows.Page walk []) : Whole rows (walk.reads + 1) walk.rows := by
  have below : ∀ row ∈ rows.alive walk.reads, row.number < floorOf walk.after := by
    intro row isAlive
    by_contra above
    rcases page.whole row isAlive (not_lt.mp above) with member | ⟨more, _⟩
    · cases member
    · exact more rfl
  have stays : ∀ number,
      (∀ read < walk.reads + 1, ∃ row ∈ rows.alive read, row.number = number) →
      ∃ row ∈ walk.rows, row.number = number := by
    intro number through
    obtain ⟨row, isAlive, isNumber⟩ := through walk.reads (Nat.lt_succ_self _)
    apply keeps.stays number fun read before => through read (Nat.lt_succ_of_lt before)
    rw [← isNumber]
    exact below row isAlive
  constructor
  · exact List.isChain_iff_pairwise.mp rising.chain
  · intro row member
    obtain ⟨read, before, isAlive⟩ := keeps.alive row member
    exact ⟨read, Nat.lt_succ_of_lt before, isAlive⟩
  · exact stays
  · intro row through
    obtain ⟨found, member, same⟩ := stays row.number fun read before =>
      ⟨row, through read before, rfl⟩
    obtain ⟨read, before, isAlive⟩ := keeps.alive found member
    obtain rfl : found = row := List.inj_on_of_nodup_map (rows.distinct read) isAlive
      (through read (Nat.lt_succ_of_lt before)) same
    exact member

/-- A page that is not empty is in order, and the walk goes on with it. -/
theorem Walk.Keeps.turn {rows : Matching} {read : Node} {walk : Walk} {page : List Row}
    (keeps : walk.Keeps rows) (answered : read walk.reads walk.after = .ok page)
    (isPage : rows.Page walk page) (more : page ≠ []) : ∃ next, walk.turn read = .on next := by
  have pageKeys : ∀ row ∈ page, row.key.IsKey := fun row member =>
    rows.keys _ row (isPage.alive row member).1
  have rising : (walk.after.toList ++ page.map (·.key)).IsChain Hex.Below := by
    rw [List.isChain_iff_pairwise, List.pairwise_append]
    refine ⟨?_, ?_, ?_⟩
    · cases walk.after <;> simp
    · rw [List.pairwise_map]
      exact isPage.rises.imp_of_mem fun isLeft isRight less =>
        below_of_number (pageKeys _ isLeft) (pageKeys _ isRight) less
    · intro bound isBound key isKey
      obtain ⟨row, member, rfl⟩ := List.mem_map.mp isKey
      have isBound : walk.after = some bound := by simpa using isBound
      have above := (isPage.alive row member).2
      obtain ⟨number, isNumber, _⟩ := (keeps.isKey bound isBound).isNumber
      obtain ⟨value, isValue, _⟩ := (pageKeys row member).isNumber
      refine ⟨number, value, isNumber, isValue, ?_⟩
      simpa [isBound, floorOf, Row.number, isNumber, isValue, Nat.succ_le_iff] using above
  obtain ⟨last, ordered⟩ : ∃ last, lastInOrder walk.after walk.after page = .ok last :=
    lastInOrder_of_chain rising
  have goesOn : walk.turn read = .on
      { rows := walk.rows ++ page
        after := last
        reads := walk.reads + 1 } := by
    simp only [Walk.turn, answered, List.isEmpty_iff, more, if_false, ordered]
  exact ⟨_, goesOn⟩

/-- One read moves a walk on, and it keeps what it kept. -/
theorem Walk.Keeps.on {rows : Matching} {read : Node} {walk next : Walk} {page : List Row}
    (keeps : walk.Keeps rows) (isPage : rows.Page walk page) (moves : Moves read walk next page) :
    next.Keeps rows ∧ floorOf walk.after < floorOf next.after := by
  obtain ⟨last, isLast⟩ : ∃ last, page.getLast? = some last :=
    Option.isSome_iff_exists.mp (List.getLast?_isSome.mpr moves.more)
  have inPage : last ∈ page := List.mem_of_getLast? isLast
  have after : next.after = some last.key := by
    rw [moves.last, List.getLast?_map, isLast]
    rfl
  have floor : floorOf next.after = last.number + 1 := by
    rw [after]
    rfl
  have upTo : ∀ row ∈ page, row.number ≤ last.number := by
    intro row member
    obtain ⟨front, rfl⟩ := List.getLast?_eq_some_iff.mp isLast
    have rises := isPage.rises
    rw [List.pairwise_append] at rises
    rcases List.mem_append.mp member with inFront | isSame
    · exact (rises.2.2 row inFront last (List.mem_singleton_self last)).le
    · rw [List.mem_singleton.mp isSame]
  refine ⟨⟨?_, ?_, ?_⟩, ?_⟩
  · intro row member
    rw [moves.rows] at member
    rw [moves.reads]
    rcases List.mem_append.mp member with before | isNew
    · obtain ⟨read, before, isAlive⟩ := keeps.alive row before
      exact ⟨read, Nat.lt_succ_of_lt before, isAlive⟩
    · exact ⟨walk.reads, Nat.lt_succ_self _, (isPage.alive row isNew).1⟩
  · intro number through below
    rw [moves.reads] at through
    rw [moves.rows]
    rw [floor] at below
    by_cases read : number < floorOf walk.after
    · obtain ⟨row, member, isNumber⟩ :=
        keeps.stays number (fun read before => through read (Nat.lt_succ_of_lt before)) read
      exact ⟨row, List.mem_append_left _ member, isNumber⟩
    · obtain ⟨row, isAlive, isNumber⟩ := through walk.reads (Nat.lt_succ_self _)
      have above : floorOf walk.after ≤ row.number := by omega
      rcases isPage.whole row isAlive above with member | ⟨_, beyond⟩
      · exact ⟨row, List.mem_append_right _ member, isNumber⟩
      · have less := beyond last inPage
        omega
  · intro key isKey
    rw [after] at isKey
    obtain rfl : last.key = key := Option.some.inj isKey
    exact rows.keys _ last (isPage.alive last inPage).1
  · have above := (isPage.alive last inPage).2
    omega

/-- Over a node that answers in key order, a walk ends, whole. -/
theorem Walk.Keeps.finish {rows : Matching} {read : Node} (answers : rows.AnsweredBy read)
    {fuel : Nat} {walk : Walk} (reached : Walk.Reached read walk) (keeps : walk.Keeps rows)
    (enough : 16 ^ 64 < fuel + floorOf walk.after) :
    ∃ ended found, walk.finish read fuel = some ended ∧ ended.result = .ok found ∧
      Whole rows ended.reads found := by
  induction fuel generalizing walk with
  | zero =>
      have bounded : floorOf walk.after ≤ 16 ^ 64 := by
        cases after : walk.after with
        | none => exact Nat.zero_le _
        | some key => exact (keeps.isKey key after).floorOf_le
      omega
  | succ fuel ih =>
      obtain ⟨page, answered, isPage⟩ := answers.page keeps.isKey
      by_cases more : page = []
      · subst more
        have ends : walk.turn read = .ended (.ok walk.rows) := by
          simp [Walk.turn, answered]
        refine ⟨_, walk.rows, by rw [Walk.finish, ends], rfl, ?_⟩
        exact keeps.whole reached.rising isPage
      · obtain ⟨next, goesOn⟩ := keeps.turn answered isPage more
        obtain ⟨page', moves⟩ := Walk.turn_on goesOn
        obtain rfl : page = page' := Except.ok.inj (answered.symm.trans moves.answered)
        obtain ⟨kept, further⟩ := keeps.on isPage moves
        obtain ⟨ended, found, ends, isFound, whole⟩ := ih (reached.on goesOn) kept (by omega)
        exact ⟨ended, found, by rw [Walk.finish, goesOn]; exact ends, isFound, whole⟩

/-- Every row that stays is read.  Over a node that answers each read with some of the rows then
alive above the bound in key order, a walk ends, and returns rising keys, each alive as it was read,
with every row alive through the whole walk.  Over any node at all it returns nothing but rising
keys, and it reads on only after a page whose keys rise from the bound. -/
theorem everyPage_reads_what_stays (read : Node) :
    (∀ rows : Matching, rows.AnsweredBy read → ∃ fuel ended found,
      everyPage read fuel = some ended ∧ ended.result = .ok found ∧ Whole rows ended.reads found) ∧
    (∀ fuel ended found, everyPage read fuel = some ended → ended.result = .ok found →
      Increasing found) ∧
    ∀ walk next, walk.turn read = .on next → ∃ page, Moves read walk next page := by
  refine ⟨?_, ?_, ?_⟩
  · intro rows answers
    exact ⟨16 ^ 64 + 1, Walk.Keeps.finish answers .start (.start rows) (Nat.lt_add_right _
      (Nat.lt_succ_self _))⟩
  · intro fuel ended found ends isFound
    exact Walk.finish_increasing .start ends isFound
  · intro walk next goesOn
    exact Walk.turn_on goesOn

/-- A row of a small key. -/
def smallRow (digit : Char) : Row where
  key := '0' :: 'x' :: List.replicate 63 '0' ++ [digit]
  creator := ['l']
  attributes := []

/-- The first of two rows expires once the first read is answered, and a third is created. -/
def threeRows : Matching where
  alive := fun read =>
    if read = 0 then [smallRow '2', smallRow '1'] else [smallRow '3', smallRow '2']
  keys := by
    intro read row member
    have small : ∀ digit ∈ ['1', '2', '3'], (smallRow digit).key.IsKey := by
      intro digit member
      simp only [List.mem_cons, List.not_mem_nil, or_false] at member
      rcases member with rfl | rfl | rfl <;> exact ⟨_, _, rfl, rfl, rfl⟩
    split at member
    · simp only [List.mem_cons, List.not_mem_nil, or_false] at member
      rcases member with rfl | rfl <;> exact small _ (by decide)
    · simp only [List.mem_cons, List.not_mem_nil, or_false] at member
      rcases member with rfl | rfl <;> exact small _ (by decide)
  distinct := by
    intro read
    split <;> decide

/-- A node that answers with one row at a time. -/
def oneByOne (reads : Nat) (after : Option Hex) : Except String (List Row) :=
  .ok ((threeRows.above reads after).take 1)

/-- Each row is read, whatever was alive when. -/
theorem threeRows_all_read : threeRows.AnsweredBy oneByOne ∧
    ((everyPage oneByOne 4).map fun ended =>
      (ended.result.toOption.map fun rows => rows.map Row.number, ended.reads)) =
        some (some [1, 2, 3], 4) ∧
    ∃ fuel ended found, everyPage oneByOne fuel = some ended ∧ ended.result = .ok found ∧
      Whole threeRows ended.reads found :=
  have answers : threeRows.AnsweredBy oneByOne := fun _ _ _ => ⟨1, Nat.one_pos, rfl⟩
  ⟨answers, by decide +kernel, (everyPage_reads_what_stays oneByOne).1 threeRows answers⟩

end CommunityLb
