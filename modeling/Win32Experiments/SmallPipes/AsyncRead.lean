import Win32Experiments.NamedPipeTheorems

/-!
# `AsyncRead`

`AsyncRead` starts its first `ReadFile` when it is constructed, and `FinishReading` makes the
others. The vector is as long as one read, and grows when a read of the loop has ended; and what a
pending operation made of its message is in its `OVERLAPPED` only.
-/

namespace Win32Experiments.SmallPipes

open Foundation NamedPipe

/-- `STATUS_BUFFER_OVERFLOW`: part of the message remains. -/
def statusBufferOverflow : ℕ := 0x80000005

/-- An `Overlapped` whose operation is over: its status and the bytes it has read. -/
structure Overlapped where
  Internal : ℕ
  InternalHigh : ℕ
deriving DecidableEq, Repr

/-- `IsPartial`. -/
def Overlapped.isPartial (o : Overlapped) : Bool :=
  o.Internal = statusBufferOverflow

/-- `GetBytesRead`. -/
def Overlapped.getBytesRead (o : Overlapped) : ℕ := o.InternalHigh

/-- An `AsyncRead`, and the ranges given to `ReadFile`. -/
structure AsyncRead where
  data : List UInt8
  operation : Overlapped
  pipe : Pipe
  bytesToRead : ℕ
  ranges : List Range
deriving DecidableEq, Repr

/-- The members before `Start`. -/
def AsyncRead.new (pipe : Pipe) (bytesToRead : ℕ) : AsyncRead :=
  { data := [], operation := ⟨0, 0⟩, pipe, bytesToRead, ranges := [] }

/-- A `ReadFile` to `Data.data() + offset`, and the wait for its operation: what the call returns,
which of a pending operation is an error, and the object when the operation is over. -/
def AsyncRead.read (pending : Bool) (offset : ℕ) (r : AsyncRead) :
    Option (ReadFileResult × AsyncRead) :=
  (readFile none r.pipe r.bytesToRead).map fun done =>
    (if pending then { done with success := false, lastError := errorIoPending } else done,
      { r with
        -- bytes behind the end of the vector are not in it
        data := (store r.data offset done.bytes).take r.data.length
        operation := ⟨if done.success then 0 else statusBufferOverflow, done.bytes.length⟩
        pipe := done.pipe
        ranges := r.ranges ++ [⟨offset, r.bytesToRead, r.data.length⟩] })

/-- `Start`. -/
def AsyncRead.start (pending : Bool) (r : AsyncRead) :
    Option (Except Win32Error Unit × AsyncRead) :=
  let r := { r with data := resize r.data r.bytesToRead }
  (r.read pending 0).map fun (call, r) =>
    if ¬ call.success ∧ call.lastError ≠ errorIoPending then
      (.error ⟨call.lastError, "IO operation failed"⟩, r)
    else (.ok (), r)

/-- The loop of `FinishReading`; at most `fuel` turns. `pending k` says whether the operation of
the `k`th `ReadFile` is pending when the call returns. -/
def AsyncRead.finishLoop (pending : ℕ → Bool) :
    ℕ → ℕ → AsyncRead → Option (Except Win32Error Unit × AsyncRead)
  | 0, _, _ => none
  | fuel + 1, totalBytesRead, r =>
    let r := { r with operation := ⟨0, 0⟩ }
    (r.read (pending r.ranges.length) totalBytesRead).bind fun (call, r) =>
      let totalBytesRead := totalBytesRead + r.operation.getBytesRead
      if call.success then some (.ok (), { r with data := resize r.data totalBytesRead })
      else if call.lastError ≠ errorMoreData then
        some (.error ⟨call.lastError, "ReadFile() failed."⟩, r)
      else
        finishLoop pending fuel totalBytesRead
          { r with data := resize r.data (r.data.length + r.bytesToRead) }

/-- `FinishReading`. Each turn that is not the last takes a byte of the message or more. -/
def AsyncRead.finishReading (pending : ℕ → Bool) (r : AsyncRead) :
    Option (Except Win32Error Unit × AsyncRead) :=
  if !r.operation.isPartial then
    some (.ok (), { r with data := resize r.data r.operation.getBytesRead })
  else
    r.finishLoop pending ((r.pipe.headD []).length + 1) r.operation.getBytesRead

/-- An `AsyncRead` is constructed, and finishes reading. -/
def asyncRead (pending : ℕ → Bool) (pipe : Pipe) (bytesToRead : ℕ) :
    Option (Except Win32Error Unit × AsyncRead) :=
  ((AsyncRead.new pipe bytesToRead).start (pending 0)).bind fun (outcome, r) =>
    match outcome with
    | .error e => some (.error e, r)
    | .ok () => r.finishReading pending

/-- No exception is thrown, every range lies in the vector, and `Data` is the message. -/
def ReadsMessage (pending : ℕ → Bool) (message : List UInt8) (rest : Pipe) (bytesToRead : ℕ) :
    Prop :=
  ∃ r, asyncRead pending (message :: rest) bytesToRead = some (.ok (), r) ∧
    (∀ range ∈ r.ranges, range.Inside) ∧ r.data = message

variable {pending : ℕ → Bool} {message : List UInt8} {rest : Pipe} {bytesToRead : ℕ}

/-! ## The loop ends -/

/-- With a message in the pipe, a turn ends the loop or leaves a shorter message. -/
theorem finishLoop_isSome {fuel totalBytesRead : ℕ} {r : AsyncRead} (hn : 0 < r.bytesToRead)
    (hpipe : r.pipe = message :: rest) (hfuel : message.length < fuel) :
    (r.finishLoop pending fuel totalBytesRead).isSome := by
  induction fuel generalizing totalBytesRead r message with
  | zero => omega
  | succ fuel ih =>
    rw [AsyncRead.finishLoop]
    rcases Nat.lt_or_ge r.bytesToRead message.length with hlong | hfits
    · simp only [AsyncRead.read, hpipe, readFile_of_lt hlong, Option.map_some, Option.bind_some]
      cases hpending : pending r.ranges.length with
      | true => rfl
      | false =>
        have hrest : (message.drop r.bytesToRead).length < fuel := by
          rw [List.length_drop]
          omega
        exact ih hn rfl hrest
    · simp only [AsyncRead.read, hpipe, readFile_of_le hfits, Option.map_some, Option.bind_some]
      cases hpending : pending r.ranges.length with
      | true => rfl
      | false => rfl

/-- With a message in the pipe, `AsyncRead` is done with it, by an exception or without. -/
theorem asyncRead_isSome (hn : 0 < bytesToRead) :
    (asyncRead pending (message :: rest) bytesToRead).isSome := by
  rcases Nat.lt_or_ge bytesToRead message.length with hlong | hfits
  · simp only [asyncRead, AsyncRead.new, AsyncRead.start, AsyncRead.read, readFile_of_lt hlong]
    cases hpending : pending 0 with
    | true => exact finishLoop_isSome hn rfl (Nat.lt_succ_self _)
    | false => rfl
  · simp only [asyncRead, AsyncRead.new, AsyncRead.start, AsyncRead.read, readFile_of_le hfits]
    cases hpending : pending 0 with
    | true => rfl
    | false => rfl

/-! ## A message that fits -/

/-- One `ReadFile` is enough, whether it is pending or not. -/
theorem readsMessage_of_le (h : message.length ≤ bytesToRead) :
    ReadsMessage pending message rest bytesToRead := by
  have hdata : resize ((store (resize [] bytesToRead) 0 message).take
      (resize [] bytesToRead).length) message.length = message := by
    have hroom : (resize [] bytesToRead).length = bytesToRead := by simp [resize]
    have hstored : (store (resize [] bytesToRead) 0 message).length = bytesToRead := by
      rw [length_store (by omega), hroom]
    rw [hroom, List.take_of_length_le (Nat.le_of_eq hstored), resize_of_le (by omega)]
    exact window_store_self (Nat.zero_le _)
  have hinside : ∀ range ∈ [Range.mk 0 bytesToRead (resize [] bytesToRead).length],
      range.Inside := by
    rw [List.forall_mem_singleton]
    simp [Range.Inside, resize]
  refine ⟨⟨_, ⟨0, message.length⟩, rest, bytesToRead, _⟩, ?_, hinside, hdata⟩
  simp only [asyncRead, AsyncRead.new, AsyncRead.start, AsyncRead.read, readFile_of_le h]
  cases hpending : pending 0 with
  | true => rfl
  | false => rfl

/-! ## A longer message -/

/-- The loop makes a `ReadFile` behind what was read, and forgets no range. -/
theorem ranges_finishLoop {fuel totalBytesRead : ℕ} {r r' : AsyncRead}
    {outcome : Except Win32Error Unit}
    (h : r.finishLoop pending fuel totalBytesRead = some (outcome, r')) :
    ∀ range ∈ r.ranges ++ [⟨totalBytesRead, r.bytesToRead, r.data.length⟩], range ∈ r'.ranges := by
  induction fuel generalizing totalBytesRead r with
  | zero => contradiction
  | succ fuel ih =>
    rw [AsyncRead.finishLoop] at h
    obtain ⟨⟨call, r₁⟩, hread, h⟩ := Option.bind_eq_some_iff.mp h
    have hranges : r₁.ranges = r.ranges ++ [⟨totalBytesRead, r.bytesToRead, r.data.length⟩] := by
      obtain ⟨done, -, hdone⟩ := Option.map_eq_some_iff.mp hread
      obtain ⟨-, rfl⟩ := Prod.mk.inj hdone
      rfl
    rw [← hranges]
    dsimp only at h
    split at h
    · obtain ⟨-, rfl⟩ := Prod.mk.inj (Option.some.inj h)
      exact fun _ hrange => hrange
    · split at h
      · obtain ⟨-, rfl⟩ := Prod.mk.inj (Option.some.inj h)
        exact fun _ hrange => hrange
      · intro range hrange
        exact ih h range (List.mem_append_left _ hrange)

/-- Of a message that is too long for one read, the constructor throws unless its operation is
pending, and else the second `ReadFile` gets a range behind the end of the vector. -/
theorem not_readsMessage_of_lt (hn : 0 < bytesToRead) (h : bytesToRead < message.length) :
    ¬ ReadsMessage pending message rest bytesToRead := by
  rintro ⟨r, hread, hinside, -⟩
  have htake : (message.take bytesToRead).length = bytesToRead := List.length_take_of_le (by omega)
  cases hpending : pending 0 with
  | false =>
    -- `ERROR_MORE_DATA` at once
    have hthrows : ∃ e r', asyncRead pending (message :: rest) bytesToRead
        = some (.error e, r') := by
      simp only [asyncRead, AsyncRead.new, AsyncRead.start, AsyncRead.read, readFile_of_lt h,
        hpending]
      exact ⟨_, _, rfl⟩
    obtain ⟨e, r', hthrows⟩ := hthrows
    rw [hthrows] at hread
    simp at hread
  | true =>
    let r₁ : AsyncRead :=
      { data := (store (resize [] bytesToRead) 0 (message.take bytesToRead)).take
          (resize [] bytesToRead).length
        operation := ⟨statusBufferOverflow, (message.take bytesToRead).length⟩
        pipe := message.drop bytesToRead :: rest
        bytesToRead
        ranges := [⟨0, bytesToRead, (resize [] bytesToRead).length⟩] }
    have hfinish : r₁.finishLoop pending ((message.drop bytesToRead).length + 1)
        (message.take bytesToRead).length = some (.ok (), r) := by
      rw [← hread]
      simp only [asyncRead, AsyncRead.new, AsyncRead.start, AsyncRead.read, readFile_of_lt h,
        hpending]
      rfl
    have hsize : r₁.data.length ≤ bytesToRead := by
      have hroom : (resize [] bytesToRead).length = bytesToRead := by simp [resize]
      show ((store (resize [] bytesToRead) 0 (message.take bytesToRead)).take
        (resize [] bytesToRead).length).length ≤ _
      rw [List.length_take, hroom]
      exact Nat.min_le_left _ _
    have hsecond : (Range.mk (message.take bytesToRead).length r₁.bytesToRead
        r₁.data.length).Inside := by
      apply hinside
      apply ranges_finishLoop hfinish
      exact List.mem_append_right _ (List.mem_singleton.mpr rfl)
    have hend : (message.take bytesToRead).length + bytesToRead ≤ r₁.data.length := hsecond
    omega

/-- **Reassembly.** Whichever operations are pending, a message is read as it should be exactly if
it fits in the first read. -/
theorem readsMessage_iff (hn : 0 < bytesToRead) :
    ReadsMessage pending message rest bytesToRead ↔ message.length ≤ bytesToRead := by
  constructor
  · intro h
    by_contra hlong
    exact not_readsMessage_of_lt hn (by omega) h
  · exact readsMessage_of_le

/-- A message of two bytes, read two at a time, with the operation pending. -/
theorem readsMessage_twoBytes : ReadsMessage (fun _ => true) [65, 66] [[67]] 2 :=
  (readsMessage_iff (by decide)).mpr (by decide)

/-- A message of three bytes: the constructor throws, or the second read is given the two bytes
behind the vector and `FinishReading` throws. -/
theorem threeBytes_counterexample :
    (∃ r, asyncRead (fun _ => false) [[65, 66, 67]] 2
      = some (.error ⟨errorMoreData, "IO operation failed"⟩, r)) ∧
    (∃ r, asyncRead (fun _ => true) [[65, 66, 67]] 2
      = some (.error ⟨errorIoPending, "ReadFile() failed."⟩, r) ∧
      ⟨2, 2, 2⟩ ∈ r.ranges ∧ ¬ (Range.mk 2 2 2).Inside) ∧
    ∀ pending, ¬ ReadsMessage pending [65, 66, 67] [] 2 := by
  refine ⟨⟨_, rfl⟩, ⟨_, rfl, by decide, by decide⟩, fun pending => ?_⟩
  exact not_readsMessage_of_lt (by decide) (by decide)

end Win32Experiments.SmallPipes
