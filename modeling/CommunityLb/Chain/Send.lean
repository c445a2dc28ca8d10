import CommunityLb.Chain.Writer

/-!
# How a batch is sent

A batch is sent as one transaction.  When it is refused as too large it goes again in halves, down to
a single operation.  An operation goes with its place in the batch, so that two equal ones are told
apart.
-/

namespace CommunityLb

/-- One batch as sent, with what came back. -/
structure Batch.Sent where
  batch : Batch
  result : Except WriteError BatchResult

/-- An operation and its place in the batch it came in. -/
abbrev Placed := Operation × Nat

/-- The operations of a chunk. -/
def operationsOf (chunk : List Placed) : Batch :=
  chunk.map Prod.fst

/-- One call of the writer: what was sent, what came back, and whether it goes again in halves. -/
structure Call where
  chunk : List Placed
  result : Except WriteError BatchResult
  split : Bool

/-- A chunk in two halves, in order; nothing when there is only one operation. -/
def halvesOf (chunk : List Placed) : Option (List Placed × List Placed) :=
  if chunk.length < 2 then none
  else some (chunk.take (chunk.length / 2), chunk.drop (chunk.length / 2))

/-- The halves a chunk goes again in, when it was refused as too large. -/
def again (chunk : List Placed) : Except WriteError BatchResult → Option (List Placed × List Placed)
  | .error .tooLarge => halvesOf chunk
  | _ => none

theorem halvesOf_eq_some {chunk first second : List Placed}
    (halves : halvesOf chunk = some (first, second)) :
    chunk = first ++ second ∧ 0 < first.length ∧ 0 < second.length := by
  rw [halvesOf] at halves
  split at halves
  · cases halves
  · next long =>
      cases halves
      refine ⟨(List.take_append_drop _ _).symm, ?_, ?_⟩
      · rw [List.length_take]
        omega
      · rw [List.length_drop]
        omega

theorem again_eq_some {chunk first second : List Placed}
    {result : Except WriteError BatchResult}
    (halves : again chunk result = some (first, second)) :
    result = .error .tooLarge ∧ halvesOf chunk = some (first, second) := by
  unfold again at halves
  split at halves
  · exact ⟨rfl, halves⟩
  · cases halves

/-- What is still to be sent, weighed so that halves weigh less than the whole. -/
def weight (queue : List (List Placed)) : Nat :=
  (queue.map fun chunk => chunk.length * chunk.length + 1).sum

theorem weight_halves {chunk first second : List Placed} (queue : List (List Placed))
    (halves : halvesOf chunk = some (first, second)) :
    weight (first :: second :: queue) < weight (chunk :: queue) := by
  obtain ⟨rfl, isFirst, isSecond⟩ := halvesOf_eq_some halves
  have product : 0 < first.length * second.length := Nat.mul_pos isFirst isSecond
  simp only [weight, List.map_cons, List.sum_cons, List.length_append]
  nlinarith

/-- The calls that a queue of chunks leads to, from the writer's answer to each. -/
def sendCalls (writer : Nat → Batch → Except WriteError BatchResult) (calls : Nat) :
    List (List Placed) → List Call
  | [] => []
  | chunk :: queue =>
      let result := writer calls (operationsOf chunk)
      match halves : again chunk result with
      | some (first, second) =>
          { chunk := chunk
            result := result
            split := true } :: sendCalls writer (calls + 1) (first :: second :: queue)
      | none =>
          { chunk := chunk
            result := result
            split := false } :: sendCalls writer (calls + 1) queue
  termination_by queue => weight queue
  decreasing_by
    · exact weight_halves queue (again_eq_some halves).2
    · simp [weight]

/-- Every call of the writer as a batch is sent; an empty batch is not. -/
def callsOf (writer : Nat → Batch → Except WriteError BatchResult) (batch : Batch) : List Call :=
  sendCalls writer 0 (if batch = [] then [] else [batch.zipIdx])

/-- A batch sent: each part as it was reported. -/
def send (writer : Nat → Batch → Except WriteError BatchResult) (batch : Batch) : List Batch.Sent :=
  ((callsOf writer batch).filter (!·.split)).map fun call =>
    { batch := operationsOf call.chunk
      result := call.result }

variable {writer : Nat → Batch → Except WriteError BatchResult} {calls : Nat}
  {queue : List (List Placed)}

/-- What is reported is what was to be sent, in order. -/
theorem sendCalls_reported (calls : Nat) (queue : List (List Placed)) :
    ((sendCalls writer calls queue).filter (!·.split)).flatMap (·.chunk) = queue.flatten := by
  fun_induction sendCalls writer calls queue with
  | case1 => rfl
  | case2 calls chunk queue result first second halves ih =>
      obtain ⟨whole, _⟩ := halvesOf_eq_some (again_eq_some halves).2
      simp [ih, whole]
  | case3 calls chunk queue result whole ih => simp [ih]

/-- What is sent was to be sent. -/
theorem sendCalls_subset {call : Call} (member : call ∈ sendCalls writer calls queue) :
    call.chunk ⊆ queue.flatten := by
  fun_induction sendCalls writer calls queue with
  | case1 => cases member
  | case2 calls chunk queue result first second halves ih =>
      obtain ⟨whole, _⟩ := halvesOf_eq_some (again_eq_some halves).2
      rcases List.mem_cons.mp member with rfl | later
      · simp
      · simpa [whole] using ih later
  | case3 calls chunk queue result whole ih =>
      rcases List.mem_cons.mp member with rfl | later
      · simp
      · exact List.Subset.trans (ih later) (by simp)

/-- What was answered otherwise than as too large is not sent again. -/
theorem sendCalls_once (distinct : queue.flatten.Nodup) :
    (sendCalls writer calls queue).Pairwise fun call later =>
      call.result ≠ .error .tooLarge → call.chunk.Disjoint later.chunk := by
  fun_induction sendCalls writer calls queue with
  | case1 => exact .nil
  | case2 calls chunk queue result first second halves ih =>
      obtain ⟨refused, isHalves⟩ := again_eq_some halves
      obtain ⟨whole, _⟩ := halvesOf_eq_some isHalves
      refine .cons (fun later _ answered => absurd refused answered) (ih ?_)
      simpa [whole] using distinct
  | case3 calls chunk queue result whole ih =>
      rw [List.flatten_cons, List.nodup_append'] at distinct
      obtain ⟨_, rest, apart⟩ := distinct
      refine .cons (fun later member _ => ?_) (ih rest)
      exact fun _ inChunk inLater => apart inChunk (sendCalls_subset member inLater)

/-- What is reported as too large is a single operation. -/
theorem sendCalls_single (filled : ∀ chunk ∈ queue, chunk ≠ []) {call : Call}
    (member : call ∈ sendCalls writer calls queue) (reported : call.split = false)
    (refused : call.result = .error .tooLarge) : call.chunk.length = 1 := by
  fun_induction sendCalls writer calls queue with
  | case1 => cases member
  | case2 calls chunk queue result first second halves ih =>
      obtain ⟨_, isFirst, isSecond⟩ := halvesOf_eq_some (again_eq_some halves).2
      rcases List.mem_cons.mp member with rfl | later
      · cases reported
      · refine ih ?_ later
        simp only [List.forall_mem_cons] at filled ⊢
        exact ⟨List.length_pos_iff.mp isFirst, List.length_pos_iff.mp isSecond, filled.2⟩
  | case3 calls chunk queue result whole ih =>
      rw [List.forall_mem_cons] at filled
      rcases List.mem_cons.mp member with rfl | later
      · have refused : result = .error .tooLarge := refused
        rw [refused] at whole
        have short : chunk.length < 2 := by
          by_contra long
          simp [again, halvesOf, long] at whole
        have some_ := List.length_pos_iff.mpr filled.1
        show chunk.length = 1
        omega
      · exact ih filled.2 later

/-- Each call has the writer's answer to it, and goes again in halves when that is too large and it has
them. -/
theorem sendCalls_answered (calls : Nat) (queue : List (List Placed)) :
    ∀ index call, (sendCalls writer calls queue)[index]? = some call →
      call.result = writer (calls + index) (operationsOf call.chunk) ∧
        (call.split = true ↔ call.result = .error .tooLarge ∧ 2 ≤ call.chunk.length) := by
  fun_induction sendCalls writer calls queue with
  | case1 => simp
  | case2 calls chunk queue result first second halves ih =>
      obtain ⟨refused, isHalves⟩ := again_eq_some halves
      obtain ⟨whole, isFirst, isSecond⟩ := halvesOf_eq_some isHalves
      intro index call isCall
      cases index with
      | zero =>
          cases isCall
          have long : 2 ≤ chunk.length := by
            rw [whole, List.length_append]
            omega
          exact ⟨rfl, fun _ => ⟨refused, long⟩, fun _ => rfl⟩
      | succ index =>
          obtain ⟨answered, splits⟩ := ih index call isCall
          rw [Nat.add_assoc, Nat.add_comm 1] at answered
          exact ⟨answered, splits⟩
  | case3 calls chunk queue result whole ih =>
      intro index call isCall
      cases index with
      | zero =>
          cases isCall
          refine ⟨rfl, fun isSplit => absurd isSplit (by simp), ?_⟩
          rintro ⟨refused, long⟩
          have refused : result = .error .tooLarge := refused
          simp [again, refused, halvesOf, Nat.not_lt.mpr long] at whole
      | succ index =>
          obtain ⟨answered, splits⟩ := ih index call isCall
          rw [Nat.add_assoc, Nat.add_comm 1] at answered
          exact ⟨answered, splits⟩

theorem callsOf_flatten (batch : Batch) :
    (if batch = [] then [] else [batch.zipIdx]).flatten = batch.zipIdx := by
  split
  · next empty => simp [empty]
  · simp

/-- Every operation of a batch is reported once, in order, in a part that was sent and with the
writer's answer to it; what was answered otherwise than as too large is not sent again; only a single
operation is reported as too large; and an empty batch sends nothing. -/
theorem send_exact (writer : Nat → Batch → Except WriteError BatchResult) (batch : Batch) :
    (send writer batch).flatMap (·.batch) = batch ∧
    (((callsOf writer batch).filter (!·.split)).flatMap (·.chunk) = batch.zipIdx ∧
      batch.zipIdx.Nodup) ∧
    ((callsOf writer batch).Pairwise fun call later =>
      call.result ≠ .error .tooLarge → call.chunk.Disjoint later.chunk) ∧
    ((send writer batch).map (fun sent => (sent.batch, sent.result)) =
      ((callsOf writer batch).filter (!·.split)).map fun call =>
        (operationsOf call.chunk, call.result)) ∧
    (∀ index call, (callsOf writer batch)[index]? = some call →
      call.result = writer index (operationsOf call.chunk) ∧
        (call.split = true ↔ call.result = .error .tooLarge ∧ 2 ≤ call.chunk.length)) ∧
    (∀ sent ∈ send writer batch, sent.result = .error .tooLarge → sent.batch.length = 1) ∧
    (batch = [] → callsOf writer batch = []) := by
  have reported : ((callsOf writer batch).filter (!·.split)).flatMap (·.chunk) = batch.zipIdx :=
    (sendCalls_reported 0 _).trans (callsOf_flatten batch)
  have distinct : batch.zipIdx.Nodup := by
    apply List.Nodup.of_map Prod.snd
    rw [List.zipIdx_map_snd]
    exact List.nodup_range'
  refine ⟨?_, ⟨reported, distinct⟩, ?_, ?_, ?_, ?_, ?_⟩
  · have operations := congrArg operationsOf reported
    rw [operationsOf, operationsOf, List.map_flatMap, List.zipIdx_map_fst] at operations
    simpa [send, List.flatMap_map, operationsOf] using operations
  · exact sendCalls_once (by rwa [callsOf_flatten])
  · rw [send, List.map_map]
    rfl
  · intro index call isCall
    have answered := sendCalls_answered 0 _ index call isCall
    rwa [Nat.zero_add] at answered
  · rintro sent member refused
    obtain ⟨call, isCall, rfl⟩ := List.mem_map.mp member
    obtain ⟨isCall, whole⟩ := List.mem_filter.mp isCall
    have single := sendCalls_single ?_ isCall (by simpa using whole) refused
    · simpa [operationsOf] using single
    · intro chunk member
      split at member
      · cases member
      · next filled =>
          obtain rfl := List.mem_singleton.mp member
          simpa using filled
  · rintro rfl
    simp [callsOf, sendCalls]

end CommunityLb
