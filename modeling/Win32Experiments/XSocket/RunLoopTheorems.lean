import Win32Experiments.XSocket.RunLoop
import Win32Experiments.XSocket.TransportTheorems

/-!
# When `RunLoop` counts what it moves

A send action adds its lengths up. A receive action passes the address of its count to `ReadData`,
which sets it; so the count is that of the last `ReadData`, and there is more than one when the
first buffer was filled.

* `count_receive`, `count_send`: when the count of one action is right;
* `readData_fills`, `supplies_iff_pending`: what fills a buffer;
* `reads_stream`: what a receive action takes of the stream;
* `accounted_iff`: all actions of a run are accounted for exactly if each met the condition.
-/

namespace Win32Experiments.XSocket

open Foundation

/-! ## `ReadData` -/

variable {list : List ListEntry} {b : ReceiveBuffer} {r : ReadResult}

/-- The output length counts the bytes copied. -/
theorem length_data {dataLength : ℕ} {dataIsNull : Bool}
    (h : readData list dataLength dataIsNull = some r) : r.data.length = r.outputDataLength := by
  rw [readData] at h
  split at h
  · obtain rfl := Option.some.inj h
    rfl
  · obtain ⟨r', hloop, rfl⟩ := Option.map_eq_some_iff.mp h
    refine readLoop_invariant (fun r => r.data.length = r.index) ?_ rfl hloop
    intro r first rest hr _
    simp only [readStep, ListEntry.copyTo, List.length_append, length_readCells, hr]

theorem readBuffer_eq_some : readBuffer list b = some r ↔
    readData list b.ulBufferLength b.isNull = some r ∧
      (r.hr = .S_OK → r.outputDataLength ≠ 0) := by
  rw [readBuffer, Option.bind_eq_some_iff]
  constructor
  · rintro ⟨r', hread, h⟩
    split at h
    · contradiction
    · next hassert =>
      obtain rfl := Option.some.inj h
      exact ⟨hread, fun hok hzero => hassert ⟨hok, hzero⟩⟩
  · rintro ⟨hread, hassert⟩
    refine ⟨r, hread, ?_⟩
    rw [if_neg]
    rintro ⟨hok, hzero⟩
    exact hassert hok hzero

/-- `ReadData` succeeds unless it is given no buffer. -/
theorem hr_readData {dataLength : ℕ} {dataIsNull : Bool}
    (h : readData list dataLength dataIsNull = some r) : r.hr = .S_OK ↔ dataIsNull = false := by
  rw [readData] at h
  split at h
  · next hnull =>
    obtain rfl := Option.some.inj h
    simp [hnull]
  · next hnull =>
    obtain ⟨r', -, rfl⟩ := Option.map_eq_some_iff.mp h
    simpa using hnull

/-! ## What fills a buffer -/

/-- Only the head chunk may have been read from, and no read stalls on a chunk. -/
structure ReadableList (list : List ListEntry) : Prop where
  noStall : NoStall list
  fresh : ∀ entry ∈ list.tail, entry.index = 0

theorem ReadableList.of_validList (h : ValidList list) : ReadableList list where
  noStall entry hmem := by
    have hentry := h.valid entry hmem
    have hpos := hentry.index_lt
    exact ⟨hentry.size_lt, by omega⟩
  fresh := h.fresh

/-- An iteration leaves a readable list. -/
theorem readableList_readStep {dataLength : ℕ} {r : ReadState} {first : ListEntry}
    {rest : List ListEntry} (h : ReadableList (first :: rest)) :
    ReadableList (readStep dataLength r first rest).list where
  noStall := noStall_readStep h.noStall
  fresh := by
    have hfresh : ∀ entry ∈ rest, entry.index = 0 := h.fresh
    simp only [readStep]
    split
    · intro entry hmem
      exact hfresh entry (List.mem_of_mem_tail hmem)
    · exact hfresh

@[simp] theorem supplies_zero : Supplies list 0 := by
  cases list with
  | nil => rfl
  | cons first rest =>
    intro k _
    omega

/-- Fresh chunks have their sizes for a read. -/
theorem supplies_fresh {n : ℕ} (h : ∀ entry ∈ list, entry.index = 0) :
    Supplies list n ↔ n ≤ (list.map ListEntry.size).sum := by
  cases list with
  | nil => simp [Supplies]
  | cons first rest =>
    rw [Supplies, h first List.mem_cons_self, List.map_cons, List.sum_cons]
    constructor
    · intro hsupply
      have hfirst := hsupply 0 (by omega)
      omega
    · intro hle k _
      have hmul := Nat.mul_le_mul_right first.size (Nat.le_add_left 1 k)
      omega

/-- A first chunk that a read uses in part is enough for it. -/
theorem supplies_of_le {n : ℕ} {first : ListEntry} {rest : List ListEntry} (h : n ≤ first.size) :
    Supplies (first :: rest) n := by
  intro k _
  have hmul := Nat.mul_le_mul_right first.size (Nat.le_add_left 1 k)
  omega

/-- A first chunk that was read from gives its size, and the read goes on from its new cursor. -/
theorem supplies_round {n index : ℕ} {first : ListEntry} {rest : List ListEntry}
    (hindex : first.index % 2 ^ 32 ≠ 0) (hle : first.size ≤ n)
    (hround : index = addW 32 first.index first.size) :
    Supplies (first :: rest) n ↔ Supplies ({ first with index } :: rest) (n - first.size) := by
  have hshift : ∀ k, first.index + (k + 1) * first.size = first.index + first.size + k * first.size
      := fun k => by rw [Nat.succ_mul]; omega
  rw [Supplies, Supplies, hround]
  simp only [addW, Nat.mod_add_mod]
  constructor
  · intro h k hk
    have hnext := h (k + 1) (by rw [hshift]; exact hk)
    rw [Nat.succ_mul (k + 1)] at hnext
    omega
  · intro h k hk
    cases k with
    | zero => exact absurd hk (by simpa using hindex)
    | succ k =>
      have hnext := h k (by rw [← hshift]; exact hk)
      rw [Nat.succ_mul (k + 1)]
      omega

/-- An iteration takes what it copies from what the chunks have. -/
theorem supplies_readStep {dataLength : ℕ} {r : ReadState} {first : ListEntry}
    {rest : List ListEntry} (h : ReadableList (first :: rest)) (hlt : r.index < dataLength) :
    Supplies (first :: rest) (dataLength - r.index) ↔
      Supplies (readStep dataLength r first rest).list
        (dataLength - (readStep dataLength r first rest).index) := by
  obtain ⟨hsize, -⟩ := h.noStall first List.mem_cons_self
  have hfresh : ∀ entry ∈ rest, entry.index = 0 := h.fresh
  have hnext : (readStep dataLength r first rest).index
      = r.index + min (dataLength - r.index) first.size := rfl
  rw [hnext]
  rcases Nat.lt_or_ge (dataLength - r.index) first.size with hshort | hfull
  · -- the chunk satisfies the read
    rw [show dataLength - (r.index + min (dataLength - r.index) first.size) = 0 by omega]
    exact iff_of_true (supplies_of_le (by omega)) supplies_zero
  · rw [show dataLength - (r.index + min (dataLength - r.index) first.size)
      = dataLength - r.index - first.size by omega]
    have hcopy : (first.copyTo (dataLength - r.index)).2.2
        = { first with index := addW 32 first.index first.size } := by
      rw [ListEntry.copyTo, Nat.min_eq_right hfull]
    simp only [readStep, hcopy]
    by_cases hfront : first.index % 2 ^ 32 = 0
    · have hdone : ({ first with index := addW 32 first.index first.size } : ListEntry).dataLeft
          = 0 := by
        simp only [ListEntry.dataLeft, subW, addW]
        omega
      rw [if_pos hdone, supplies_fresh hfresh]
      constructor
      · intro hsupply
        have hfirst := hsupply 0 (by omega)
        omega
      · intro hrest k _
        have hmul := Nat.mul_le_mul_right first.size (Nat.le_add_left 1 k)
        omega
    · -- the cursor is past the end, and the chunk stays
      have hstays : ({ first with index := addW 32 first.index first.size } : ListEntry).dataLeft
          ≠ 0 := by
        simp only [ListEntry.dataLeft, subW, addW]
        omega
      rw [if_neg hstays]
      exact supplies_round hfront hfull rfl

/-- The loop fills the buffer exactly if the chunks have bytes enough. -/
theorem readLoop_fills {dataLength fuel : ℕ} {s s' : ReadState} (hs : ReadableList s.list)
    (hle : s.index ≤ dataLength) (h : readLoop dataLength fuel s = some s') :
    dataLength ≤ s'.index ↔ Supplies s.list (dataLength - s.index) := by
  induction fuel generalizing s with
  | zero => simp [readLoop] at h
  | succ fuel ih =>
    rw [readLoop] at h
    split at h
    · next hlist =>
      obtain rfl := Option.some.inj h
      rw [hlist, Supplies]
      omega
    · next first rest hlist =>
      rw [hlist] at hs ⊢
      split at h
      · next hlt =>
        rw [supplies_readStep hs hlt]
        refine ih (readableList_readStep hs) ?_ h
        show s.index + min (dataLength - s.index) first.size ≤ dataLength
        omega
      · next hfull =>
        obtain rfl := Option.some.inj h
        rw [show dataLength - s.index = 0 by omega]
        exact iff_of_true (by omega) supplies_zero

/-- A `ReadData` fills its buffer exactly if the chunks have bytes enough. -/
theorem readData_fills {dataLength : ℕ} (hlist : ReadableList list)
    (h : readData list dataLength false = some r) :
    dataLength ≤ r.outputDataLength ↔ Supplies list dataLength := by
  simp only [readData, Bool.false_eq_true, if_false, Option.map_eq_some_iff] at h
  obtain ⟨s, hloop, rfl⟩ := h
  have hstart : ReadableList (ReadState.mk 0 list []).list := hlist
  exact readLoop_fills hstart (Nat.zero_le _) hloop

/-- In a transport that is in order, a read that stays in its chunk is filled if so many bytes are
pending. -/
theorem supplies_iff_pending {dataLength : ℕ} (hlist : ValidList list)
    (hstay : ∀ first, list.head? = some first → 0 < first.index →
      dataLength ≤ first.size - first.index) :
    Supplies list dataLength ↔ dataLength ≤ (pending list).length := by
  have hreadable := ReadableList.of_validList hlist
  obtain ⟨r, hread⟩ := Option.isSome_iff_exists.mp (readData_isSome hreadable.noStall dataLength)
  obtain ⟨-, -, hlen⟩ := readData_spec hlist hstay hread
  rw [← readData_fills hreadable hread]
  omega

/-- A `ReadData` that has returned tells whether its buffer was filled. -/
theorem fills_iff_of_read (hlist : ReadableList list) (hread : readBuffer list b = some r) :
    Fills list b ↔ r.hr = .S_OK ∧ b.ulBufferLength ≤ r.outputDataLength := by
  obtain ⟨hdata, -⟩ := readBuffer_eq_some.mp hread
  rw [hr_readData hdata, Fills]
  apply and_congr_right
  intro hnull
  rw [hnull] at hdata
  exact (readData_fills hlist hdata).symm

/-! ## Receive actions -/

variable {p q : Performed}

/-- A receive action reads to its first buffer, and is done with it or goes on to the next one. -/
theorem receiveLoop_cons {bs : List ReceiveBuffer} (h : receiveLoop (b :: bs) p = some q) :
    ∃ r, readBuffer p.list b = some r ∧
      (q = ⟨r.hr, r.outputDataLength, p.moved ++ [r.data], r.list⟩ ∧
          (bs ≠ [] → ¬ (r.hr = .S_OK ∧ b.ulBufferLength ≤ r.outputDataLength)) ∨
        bs ≠ [] ∧ r.hr = .S_OK ∧ b.ulBufferLength ≤ r.outputDataLength ∧
          receiveLoop bs ⟨r.hr, r.outputDataLength, p.moved ++ [r.data], r.list⟩ = some q) := by
  rw [receiveLoop] at h
  obtain ⟨r, hread, h⟩ := Option.bind_eq_some_iff.mp h
  refine ⟨r, hread, ?_⟩
  dsimp only at h
  split at h
  · next hfail => exact Or.inl ⟨(Option.some.inj h).symm, fun _ hfills => hfail hfills.1⟩
  · next hok =>
    split at h
    · next hshort =>
      refine Or.inl ⟨(Option.some.inj h).symm, fun _ hfills => ?_⟩
      omega
    · next hfull =>
      cases bs with
      | nil => exact Or.inl ⟨(Option.some.inj h).symm, by simp⟩
      | cons b' bs' =>
        exact Or.inr ⟨List.cons_ne_nil b' bs', not_not.mp hok, Nat.le_of_not_lt hfull, h⟩

/-- With one `ReadData` to come, the bytes moved before it are not in the count. -/
theorem receiveLoop_count {buffers : List ReceiveBuffer} (hne : buffers ≠ [])
    (h : receiveLoop buffers p = some q) :
    q.bytesTransferred + (p.moved.map List.length).sum ≤ (q.moved.map List.length).sum := by
  induction buffers generalizing p with
  | nil => contradiction
  | cons b bs ih =>
    obtain ⟨r, hread, hcases⟩ := receiveLoop_cons h
    have hlen := length_data (readBuffer_eq_some.mp hread).1
    have hsum : ((p.moved ++ [r.data]).map List.length).sum
        = (p.moved.map List.length).sum + r.outputDataLength := by
      rw [List.map_append, List.sum_append, List.map_singleton, List.sum_singleton, hlen]
    rcases hcases with ⟨rfl, -⟩ | ⟨hne, -, -, hrest⟩
    · dsimp only
      omega
    · have hcount := ih hne hrest
      dsimp only at hcount
      omega

/-- The count of a receive action is right exactly if there is no second `ReadData`. -/
theorem count_receive {bs : List ReceiveBuffer} {hr : HResult} (hlist : ReadableList list)
    (h : receiveLoop (b :: bs) ⟨hr, 0, [], list⟩ = some q) :
    q.bytesTransferred = (q.moved.map List.length).sum ↔ (bs ≠ [] → ¬ Fills list b) := by
  obtain ⟨r, hread, hcases⟩ := receiveLoop_cons h
  have hread : readBuffer list b = some r := hread
  obtain ⟨hdata, hassert⟩ := readBuffer_eq_some.mp hread
  have hlen := length_data hdata
  rw [fills_iff_of_read hlist hread]
  rcases hcases with ⟨rfl, hstop⟩ | ⟨hne, hok, hfull, hrest⟩
  · exact iff_of_true (by simp [hlen]) hstop
  · -- the next `ReadData` sets the count anew
    refine iff_of_false (fun hcount => ?_) fun hstop => hstop hne ⟨hok, hfull⟩
    have hpos := hassert hok
    have hmoved := receiveLoop_count hne hrest
    simp only [List.nil_append, List.map_singleton, List.sum_singleton, hlen] at hmoved
    omega

/-- The buffers go to `ReadData` in order. -/
theorem reads_receiveLoop {buffers : List ReceiveBuffer} (h : receiveLoop buffers p = some q) :
    ∃ k moved, Reads p.list (buffers.take k) moved q.list ∧ q.moved = p.moved ++ moved := by
  induction buffers generalizing p with
  | nil =>
    obtain rfl := Option.some.inj h
    exact ⟨0, [], .nil, (List.append_nil _).symm⟩
  | cons b bs ih =>
    obtain ⟨r, hread, hcases⟩ := receiveLoop_cons h
    rcases hcases with ⟨rfl, -⟩ | ⟨-, -, -, hrest⟩
    · exact ⟨1, [r.data], .cons hread .nil, rfl⟩
    · obtain ⟨k, moved, hreads, hmoved⟩ := ih hrest
      refine ⟨k + 1, r.data :: moved, .cons hread hreads, ?_⟩
      rw [hmoved, List.append_assoc, List.singleton_append]

/-- In a transport that is in order, a read that copies no byte from outside its chunk takes the
next bytes of the stream. -/
theorem readData_stream {dataLength : ℕ} {dataIsNull : Bool} (hlist : ValidList list)
    (h : readData list dataLength dataIsNull = some r) (hdata : none ∉ r.data) :
    ValidList r.list ∧ r.data ++ (pending r.list).map some = (pending list).map some := by
  cases dataIsNull with
  | true =>
    obtain rfl := Option.some.inj h
    exact ⟨hlist, rfl⟩
  | false =>
    have hstay : ∀ first, list.head? = some first → 0 < first.index →
        dataLength ≤ first.size - first.index := by
      intro first hhead hpos
      by_contra hlong
      obtain ⟨rest, rfl⟩ := List.head?_eq_some_iff.mp hhead
      have hfirst := hlist.valid first List.mem_cons_self
      exact hdata (overread_readData hfirst hpos (by omega) h)
    obtain ⟨hvalid, hstream, -⟩ := readData_spec hlist hstay h
    exact ⟨hvalid, hstream⟩

/-- So the buffers of a receive action get the next bytes of the stream, each byte once. -/
theorem reads_stream {list' : List ListEntry} {buffers : List ReceiveBuffer}
    {moved : List (List (Option UInt8))} (h : Reads list buffers moved list')
    (hlist : ValidList list) (hmoved : none ∉ moved.flatten) :
    ValidList list' ∧ moved.flatten ++ (pending list').map some = (pending list).map some := by
  induction h with
  | nil => exact ⟨hlist, rfl⟩
  | cons hread _ ih =>
    rw [List.flatten_cons, List.mem_append, not_or] at hmoved
    obtain ⟨hvalid, hstream⟩ :=
      readData_stream hlist (readBuffer_eq_some.mp hread).1 hmoved.1
    obtain ⟨hvalid', hrest⟩ := ih hvalid hmoved.2
    refine ⟨hvalid', ?_⟩
    rw [List.flatten_cons, List.append_assoc, hrest, hstream]

/-! ## Send actions -/

/-- `WriteData` appends the bytes of a buffer that is written, and changes nothing otherwise. -/
theorem writeData_buffer (list : List ListEntry) (b : SendBuffer) :
    if b.Written then
      (writeData list b.pbBuffer b.entryAllocated b.bufferAllocated).1 = .S_OK ∧
        pending (writeData list b.pbBuffer b.entryAllocated b.bufferAllocated).2
          = pending list ++ b.bytes
    else
      (writeData list b.pbBuffer b.entryAllocated b.bufferAllocated).1 ≠ .S_OK ∧
        (writeData list b.pbBuffer b.entryAllocated b.bufferAllocated).2 = list := by
  obtain ⟨pbBuffer, entryAllocated, bufferAllocated⟩ := b
  cases pbBuffer with
  | none => exact ⟨rfl, (List.append_nil _).symm⟩
  | some data =>
    cases entryAllocated with
    | false => exact ⟨by simp [writeData], rfl⟩
    | true =>
      cases bufferAllocated with
      | false => exact ⟨by simp [writeData], rfl⟩
      | true => exact ⟨rfl, pending_appendTail _ _ rfl⟩

/-- A send action moves the buffers that are written, and adds their lengths up. -/
theorem sendLoop_spec (buffers : List SendBuffer) (hp : p.bytesTransferred < 2 ^ 32) :
    (sendLoop buffers p).moved
      = p.moved ++ (buffers.takeWhile SendBuffer.Written).map (fun b => b.bytes.map some) ∧
    pending (sendLoop buffers p).list
      = pending p.list ++ (buffers.takeWhile SendBuffer.Written).flatMap SendBuffer.bytes ∧
    (sendLoop buffers p).bytesTransferred = (p.bytesTransferred +
      ((buffers.takeWhile SendBuffer.Written).map fun b => b.bytes.length).sum) % 2 ^ 32 := by
  induction buffers generalizing p with
  | nil =>
    refine ⟨by simp [sendLoop], by simp [sendLoop], ?_⟩
    show p.bytesTransferred = (p.bytesTransferred + 0) % 2 ^ 32
    omega
  | cons b bs ih =>
    have hwrite := writeData_buffer p.list b
    rcases hcall : writeData p.list b.pbBuffer b.entryAllocated b.bufferAllocated with ⟨hr, list'⟩
    rw [hcall] at hwrite
    rw [sendLoop, hcall, List.takeWhile_cons]
    by_cases hwritten : b.Written = true
    · rw [if_pos hwritten] at hwrite
      obtain ⟨hok, hpending⟩ := hwrite
      have hlt : addW 32 p.bytesTransferred b.bytes.length < 2 ^ 32 := Nat.mod_lt _ (by decide)
      have hrest := @ih ⟨hr, addW 32 p.bytesTransferred b.bytes.length,
        p.moved ++ [b.bytes.map some], list'⟩ hlt
      obtain ⟨hmoved, hlist, hcount⟩ := hrest
      dsimp only at hmoved hlist hcount hok hpending ⊢
      rw [if_neg (not_not.mpr hok), if_pos hwritten, hmoved, hlist, hcount, hpending]
      refine ⟨?_, ?_, ?_⟩
      · rw [List.map_cons, List.append_assoc, List.singleton_append]
      · rw [List.flatMap_cons, List.append_assoc]
      · rw [List.map_cons, List.sum_cons, addW, Nat.mod_add_mod, Nat.add_assoc]
    · rw [if_neg hwritten] at hwrite
      obtain ⟨hfail, hlist⟩ := hwrite
      dsimp only at hfail hlist ⊢
      rw [if_pos hfail, if_neg hwritten, hlist]
      refine ⟨by simp, by simp, ?_⟩
      show p.bytesTransferred = (p.bytesTransferred + 0) % 2 ^ 32
      omega

/-- The count of a send action is right exactly if its buffers are shorter than `2 ^ 32` bytes. -/
theorem count_send (list : List ListEntry) (hr : HResult) (buffers : List SendBuffer) :
    (sendLoop buffers ⟨hr, 0, [], list⟩).bytesTransferred
        = ((sendLoop buffers ⟨hr, 0, [], list⟩).moved.map List.length).sum ↔
      ((buffers.takeWhile SendBuffer.Written).map fun b => b.bytes.length).sum < 2 ^ 32 := by
  obtain ⟨hmoved, -, hcount⟩ := @sendLoop_spec ⟨hr, 0, [], list⟩ buffers (Nat.two_pow_pos 32)
  have hlength : ((sendLoop buffers ⟨hr, 0, [], list⟩).moved.map List.length).sum
      = ((buffers.takeWhile SendBuffer.Written).map fun b => b.bytes.length).sum := by
    simp [hmoved, Function.comp_def]
  dsimp only at hcount
  rw [hlength, hcount]
  omega

/-- A send action appends the bytes it moves to the stream. -/
theorem presented_send (list : List ListEntry) (hr : HResult) (buffers : List SendBuffer)
    (aborts : ℕ) :
    (Completion.mk (.sendToNetwork buffers) list (sendLoop buffers ⟨hr, 0, [], list⟩)
      aborts).Presented := by
  obtain ⟨hmoved, hlist, -⟩ := @sendLoop_spec ⟨hr, 0, [], list⟩ buffers (Nat.two_pow_pos 32)
  have hprefix : buffers.takeWhile SendBuffer.Written <+: buffers := List.takeWhile_prefix _
  refine ⟨⟨(buffers.takeWhile SendBuffer.Written).length, ?_⟩, ?_⟩
  · rw [← List.prefix_iff_eq_take.mp hprefix]
    exact hmoved
  · simp [hmoved, hlist, List.flatMap, List.map_flatten, Function.comp_def]

/-! ## One turn -/

/-- A performed action is accounted for exactly if it met the condition. -/
theorem accounted_perform {s : RunLoop} {hr : HResult} {action : Action} {aborts : ℕ}
    (hlist : ReadableList s.list) (h : perform s.list hr action = some p) :
    (Completion.mk action s.list p aborts).Accounted ↔ CountsOnce s (hr, action) := by
  cases action with
  | noAction =>
    obtain rfl := Option.some.inj h
    exact iff_of_true ⟨rfl, rfl, rfl⟩ trivial
  | receiveFromNetwork buffers =>
    rw [perform, Option.ite_none_left_eq_some] at h
    obtain ⟨hne, h⟩ := h
    have hpresented : (Completion.mk (.receiveFromNetwork buffers) s.list p aborts).Presented := by
      obtain ⟨k, moved, hreads, hmoved⟩ := reads_receiveLoop h
      exact ⟨k, hmoved ▸ hreads⟩
    cases buffers with
    | nil => contradiction
    | cons b bs =>
      have hcount := count_receive hlist h
      have hcond : CountsOnce s (hr, .receiveFromNetwork (b :: bs))
          ↔ (bs ≠ [] → ¬ Fills s.list b) := by
        cases bs with
        | nil => exact iff_of_true trivial (by simp)
        | cons b' bs' => simp [CountsOnce]
      rw [hcond, ← hcount]
      exact ⟨Completion.Accounted.count, fun hcount => ⟨hcount, hpresented⟩⟩
  | indicateReceiveComplete bufferCount =>
    rw [perform, Option.ite_none_left_eq_some] at h
    obtain rfl := Option.some.inj h.2
    exact iff_of_true ⟨rfl, rfl, rfl⟩ trivial
  | sendToNetwork buffers =>
    obtain rfl := Option.some.inj h
    rw [CountsOnce, ← count_send s.list hr buffers]
    exact ⟨Completion.Accounted.count,
      fun hcount => ⟨hcount, presented_send s.list hr buffers aborts⟩⟩
  | indicateSendComplete =>
    obtain rfl := Option.some.inj h
    exact iff_of_true ⟨rfl, rfl, rfl⟩ trivial
  | other => contradiction

/-! ## The list stays readable -/

theorem readableList_readData {dataLength : ℕ} {dataIsNull : Bool} (hlist : ReadableList list)
    (h : readData list dataLength dataIsNull = some r) : ReadableList r.list := by
  rw [readData] at h
  split at h
  · obtain rfl := Option.some.inj h
    exact hlist
  · obtain ⟨s, hloop, rfl⟩ := Option.map_eq_some_iff.mp h
    refine readLoop_invariant (fun s => ReadableList s.list) ?_ hlist hloop
    intro s first rest hs hfirst
    exact readableList_readStep (hfirst ▸ hs)

theorem readableList_reads {list' : List ListEntry} {buffers : List ReceiveBuffer}
    {moved : List (List (Option UInt8))} (h : Reads list buffers moved list')
    (hlist : ReadableList list) : ReadableList list' := by
  induction h with
  | nil => exact hlist
  | cons hread _ ih => exact ih (readableList_readData hlist (readBuffer_eq_some.mp hread).1)

theorem readableList_writeData (b : SendBuffer) (hlist : ReadableList list) :
    ReadableList (writeData list b.pbBuffer b.entryAllocated b.bufferAllocated).2 := by
  obtain ⟨pbBuffer, entryAllocated, bufferAllocated, hlength⟩ := b
  cases pbBuffer with
  | none => exact hlist
  | some data =>
    rcases writeData_cases list data entryAllocated bufferAllocated with hcase | hcase
    · rw [hcase]
      exact hlist
    · rw [hcase]
      constructor
      · intro entry hmem
        rcases List.mem_append.mp hmem with hmem | hmem
        · exact hlist.noStall entry hmem
        · rw [List.mem_singleton.mp hmem]
          exact ⟨hlength, fun _ => rfl⟩
      · intro entry hmem
        cases list with
        | nil => contradiction
        | cons first rest =>
          rcases List.mem_append.mp hmem with hmem | hmem
          · exact hlist.fresh entry hmem
          · rw [List.mem_singleton.mp hmem]
            rfl

theorem readableList_sendLoop (buffers : List SendBuffer) (hlist : ReadableList p.list) :
    ReadableList (sendLoop buffers p).list := by
  induction buffers generalizing p with
  | nil => exact hlist
  | cons b bs ih =>
    have hwrite := readableList_writeData b hlist
    rw [sendLoop]
    dsimp only
    split
    · exact hwrite
    · exact ih hwrite

theorem readableList_perform {hr : HResult} {action : Action} (hlist : ReadableList list)
    (h : perform list hr action = some p) : ReadableList p.list := by
  cases action with
  | noAction | indicateSendComplete =>
    obtain rfl := Option.some.inj h
    exact hlist
  | receiveFromNetwork buffers =>
    rw [perform, Option.ite_none_left_eq_some] at h
    obtain ⟨k, moved, hreads, -⟩ := reads_receiveLoop h.2
    exact readableList_reads hreads hlist
  | indicateReceiveComplete bufferCount =>
    rw [perform, Option.ite_none_left_eq_some] at h
    obtain rfl := Option.some.inj h.2
    exact hlist
  | sendToNetwork buffers =>
    obtain rfl := Option.some.inj h
    exact readableList_sendLoop buffers hlist
  | other => contradiction

/-! ## Runs -/

variable {actions : List (HResult × Action)} {s t : RunLoop}

theorem step_eq_some_iff {e : HResult × Action} :
    s.step e = some t ↔ ∃ p, perform s.list e.1 e.2 = some p ∧
      RunLoop.mk p.list (s.completed ++ [⟨e.2, s.list, p,
        (if e.1 ≠ .S_OK then 1 else 0) + if p.hr ≠ .S_OK then 1 else 0⟩]) = t :=
  Option.map_eq_some_iff

/-- A turn completes one action more, which is accounted for exactly if it met the condition. -/
theorem accounted_step {e : HResult × Action} (hlist : ReadableList s.list)
    (h : s.step e = some t) :
    (∀ c ∈ t.completed, c.Accounted) ↔ (∀ c ∈ s.completed, c.Accounted) ∧ CountsOnce s e := by
  obtain ⟨p, hperform, rfl⟩ := step_eq_some_iff.mp h
  rw [List.forall_mem_append, List.forall_mem_singleton, accounted_perform hlist hperform]

/-- **Byte counts.** At the end of a run every action completed was completed with the number of
the bytes moved for its buffers, which went to or came from the transport in order, exactly if no
receive action was given a second buffer behind one that the transport filled, and no send action
wrote `2 ^ 32` bytes; and a `ReadData` on the transport returns. -/
theorem accounted_iff (h : run RunLoop.step RunLoop.init actions = some t) :
    ((∀ c ∈ t.completed, c.Accounted) ↔
      EachStep RunLoop.step CountsOnce RunLoop.init actions) ∧
    ∀ dataLength, (readData t.list dataLength false).isSome := by
  have hinit : ReadableList RunLoop.init.list :=
    ⟨by simp [NoStall, RunLoop.init], by simp [RunLoop.init]⟩
  have hinv : ∀ (s : RunLoop) e (t : RunLoop), ReadableList s.list → True → s.step e = some t →
      ReadableList t.list := by
    intro s e t hlist _ hstep
    obtain ⟨p, hperform, rfl⟩ := step_eq_some_iff.mp hstep
    exact readableList_perform hlist hperform
  obtain ⟨hlist, hiff⟩ := run_iff (fun s => ReadableList s.list)
    (fun s => ∀ c ∈ s.completed, c.Accounted) hinv
    (fun s e t hlist _ hstep => accounted_step hlist hstep) eachStep_true h hinit
  refine ⟨hiff.trans (and_iff_right ?_), readData_isSome hlist.noStall⟩
  simp [RunLoop.init]

/-- Three bytes are sent. With three pending, a buffer of four takes them all, and the second
buffer is left. -/
theorem accounted_shortBuffer :
    ∃ t, run RunLoop.step RunLoop.init
        [(.S_OK, .sendToNetwork [⟨some [1, 2, 3], true, true, by decide⟩]),
          (.S_OK, .receiveFromNetwork [⟨4, false⟩, ⟨1, false⟩])] = some t ∧
      t.completed.map (fun c => c.performed.bytesTransferred) = [3, 3] ∧
      ∀ c ∈ t.completed, c.Accounted := by
  have hrun : run RunLoop.step RunLoop.init
      [(.S_OK, .sendToNetwork [⟨some [1, 2, 3], true, true, by decide⟩]),
        (.S_OK, .receiveFromNetwork [⟨4, false⟩, ⟨1, false⟩])] = some _ := rfl
  have hsent : CountsOnce RunLoop.init
      (.S_OK, .sendToNetwork [⟨some [1, 2, 3], true, true, by decide⟩]) := by
    show 3 + 0 < 2 ^ 32
    decide
  refine ⟨_, hrun, by decide, (accounted_iff hrun).1.mpr ⟨hsent, ?_, trivial⟩⟩
  -- the first buffer is not filled
  rintro ⟨-, hsupply⟩
  have hfirst : 4 ≤ (0 + 1) * 3 + 0 := hsupply 0 rfl
  omega

/-- Three bytes are sent, and received to a buffer of two and one of one: the action has moved
three bytes, and is completed with one. -/
theorem lastBuffer_counterexample :
    ∃ t, run RunLoop.step RunLoop.init
        [(.S_OK, .sendToNetwork [⟨some [1, 2, 3], true, true, by decide⟩]),
          (.S_OK, .receiveFromNetwork [⟨2, false⟩, ⟨1, false⟩])] = some t ∧
      (t.completed.getLast?.map fun c => c.performed.moved) = some [[some 1, some 2], [some 3]] ∧
      (t.completed.getLast?.map fun c => c.performed.bytesTransferred) = some 1 ∧
      ¬ ∀ c ∈ t.completed, c.Accounted := by
  refine ⟨_, rfl, by decide, by decide, fun hall => ?_⟩
  have hlast : 1 = 3 := (hall _ (List.mem_cons_of_mem _ List.mem_cons_self)).count
  omega

end Win32Experiments.XSocket
