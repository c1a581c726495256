import Win32Experiments.XSocket.Transport

/-!
# `Transport` is a FIFO byte stream while reads stay in their chunk

`ListEntry::CopyTo` limits a copy by the size of the chunk, not by what is left of it. The
two differ exactly when the chunk is partly read and the read asks for more than the rest.

* `readLoop_spec`: a read that starts at a fresh chunk, or stays in the one it starts in,
  takes the next bytes of the stream;
* `overread_readData`: any other read copies bytes from outside the chunk;
* `fifoStream_iff`: so a run is a FIFO byte stream exactly when all its reads are of the
  first kind.
-/

namespace Win32Experiments.XSocket

open Foundation

/-! ## Chunks and lists that the transport builds -/

/-- A chunk as `Attach` leaves it, with its cursor short of the end. -/
structure ListEntry.Valid (entry : ListEntry) : Prop where
  size_eq : entry.size = entry.data.length
  size_lt : entry.size < 2 ^ 32
  index_lt : entry.index < entry.size

/-- Only the head chunk is partly read. -/
structure ValidList (list : List ListEntry) : Prop where
  valid : ∀ entry ∈ list, entry.Valid
  fresh : ∀ entry ∈ list.tail, entry.index = 0

theorem ListEntry.valid_attach {data : List UInt8} (hpos : data ≠ []) (hlt : data.length < 2 ^ 32) :
    (ListEntry.attach data.length data).Valid where
  size_eq := rfl
  size_lt := hlt
  index_lt := List.length_pos_iff.mpr hpos

theorem ValidList.tail {first : ListEntry} {rest : List ListEntry} (h : ValidList (first :: rest)) :
    ValidList rest where
  valid entry he := h.valid entry (List.mem_cons_of_mem _ he)
  fresh entry he := h.fresh entry (List.mem_of_mem_tail he)

theorem ValidList.appendTail {list : List ListEntry} {entry : ListEntry} (h : ValidList list)
    (he : entry.Valid) (hindex : entry.index = 0) : ValidList (appendTail list entry) where
  valid e hmem := by
    rcases List.mem_append.mp hmem with hmem | hmem
    · exact h.valid e hmem
    · rw [List.mem_singleton.mp hmem]
      exact he
  fresh e hmem := by
    cases list with
    | nil => simp [XSocket.appendTail] at hmem
    | cons first rest =>
      rw [XSocket.appendTail, List.cons_append, List.tail_cons] at hmem
      rcases List.mem_append.mp hmem with hmem | hmem
      · exact h.fresh e hmem
      · rw [List.mem_singleton.mp hmem]
        exact hindex

@[simp] theorem pending_nil : pending [] = [] := rfl

@[simp] theorem pending_cons (first : ListEntry) (rest : List ListEntry) :
    pending (first :: rest) = first.data.drop first.index ++ pending rest := rfl

/-- An appended fresh chunk adds its bytes at the end of the stream. -/
theorem pending_appendTail (list : List ListEntry) (entry : ListEntry) (h : entry.index = 0) :
    pending (appendTail list entry) = pending list ++ entry.data := by
  simp [pending, XSocket.appendTail, h]

/-! ## One iteration of `ReadData` -/

/-- A copy of at most what is left of the chunk takes the next bytes and moves the cursor. -/
theorem copyTo_eq {entry : ListEntry} (h : entry.Valid) {n : ℕ}
    (hn : 0 < entry.index → n ≤ entry.size - entry.index) :
    entry.copyTo n =
      (((entry.data.drop entry.index).take n).map some, min n (entry.size - entry.index),
        { entry with index := entry.index + min n (entry.size - entry.index) }) := by
  obtain ⟨hsize, hlt, hindex⟩ := h
  -- the bound by the size is the bound by the rest unless the chunk is partly read
  have hmin : min n entry.size = min n (entry.size - entry.index) := by
    rcases Nat.eq_zero_or_pos entry.index with h0 | h0
    · rw [h0, Nat.sub_zero]
    · have := hn h0
      omega
  have hbytes : window entry.data entry.index (min n (entry.size - entry.index))
      = (entry.data.drop entry.index).take n := by
    rw [window, hsize, ← List.length_drop]
    exact List.take_eq_take_iff.mpr (by omega)
  simp only [ListEntry.copyTo, hmin]
  rw [readCells_of_le (by omega), hbytes, addW_of_lt (by omega)]

/-- What is left of a valid chunk whose cursor moved. -/
theorem dataLeft_eq {entry : ListEntry} {index : ℕ} (h : entry.Valid) (hi : index ≤ entry.size) :
    ({ entry with index } : ListEntry).dataLeft = entry.size - index :=
  subW_of_le h.size_lt hi

/-- The loop state is in order: the list is valid and, if the head is partly read, what the
read still wants is inside it. -/
structure ReadState.InChunk (dataLength : ℕ) (r : ReadState) : Prop where
  list : ValidList r.list
  index_le : r.index ≤ dataLength
  head : ∀ first, r.list.head? = some first → 0 < first.index →
    dataLength - r.index ≤ first.size - first.index

/-- An iteration in order moves the next bytes of the stream to the caller's buffer. -/
theorem readStep_spec {dataLength : ℕ} {r : ReadState} {first : ListEntry}
    {rest : List ListEntry} (hr : r.InChunk dataLength) (hlist : r.list = first :: rest) :
    (readStep dataLength r first rest).InChunk dataLength ∧
    (readStep dataLength r first rest).data
        ++ (pending (readStep dataLength r first rest).list).map some
      = r.data ++ (pending r.list).map some ∧
    (readStep dataLength r first rest).index
        + (pending (readStep dataLength r first rest).list).length
      = r.index + (pending r.list).length := by
  obtain ⟨hvalid, hle, hhead⟩ := hr
  rw [hlist] at hvalid hhead ⊢
  have hfirst : first.Valid := hvalid.valid first List.mem_cons_self
  have hcopy := copyTo_eq hfirst (hhead first rfl)
  obtain ⟨hsize, hlt, hindex⟩ := hfirst
  set n := dataLength - r.index with hn
  set k := min n (first.size - first.index) with hk
  have hleft : ({ first with index := first.index + k } : ListEntry).dataLeft
      = first.size - (first.index + k) :=
    dataLeft_eq ⟨hsize, hlt, hindex⟩ (by omega)
  simp only [readStep, ← hn, hcopy, hleft]
  by_cases hdone : first.size - (first.index + k) = 0
  · -- the chunk is used up: the bytes copied are all that was left of it
    have hall : (first.data.drop first.index).take n = first.data.drop first.index :=
      List.take_of_length_le (by rw [List.length_drop]; omega)
    rw [if_pos hdone, hall]
    refine ⟨⟨hvalid.tail, by simp only; omega, ?_⟩, ?_, ?_⟩
    · intro next hnext hpos
      have hzero := hvalid.fresh next (List.mem_of_mem_head? hnext)
      omega
    · rw [pending_cons, List.map_append, List.append_assoc]
    · rw [pending_cons, List.length_append, List.length_drop]
      omega
  · -- the chunk has bytes left: the read is satisfied
    have hkn : k = n := by omega
    rw [if_neg hdone, hkn]
    refine ⟨⟨⟨?_, hvalid.fresh⟩, by simp only; omega, ?_⟩, ?_, ?_⟩
    · intro entry hmem
      rcases List.mem_cons.mp hmem with rfl | hmem
      · exact ⟨hsize, hlt, by simp only; omega⟩
      · exact hvalid.valid entry (List.mem_cons_of_mem _ hmem)
    · intro next hnext _
      simp only at hnext ⊢
      omega
    · rw [pending_cons, pending_cons, List.append_assoc, ← List.map_append, ← List.append_assoc,
        ← List.drop_drop, List.take_append_drop]
    · simp only [pending_cons, List.length_append, List.length_drop]
      omega

/-! ## The loop of `ReadData` -/

/-- The entries on which the loop cannot stall: an empty chunk has its cursor at the front. -/
def NoStall (list : List ListEntry) : Prop :=
  ∀ entry ∈ list, entry.size < 2 ^ 32 ∧ (entry.size = 0 → entry.index = 0)

theorem noStall_readStep {dataLength : ℕ} {r : ReadState} {first : ListEntry}
    {rest : List ListEntry} (h : NoStall (first :: rest)) :
    NoStall (readStep dataLength r first rest).list := by
  have hfirst := h first List.mem_cons_self
  intro entry hmem
  -- the chunk read from, or one behind it
  have hcases : entry = (first.copyTo (dataLength - r.index)).2.2 ∨ entry ∈ rest := by
    simp only [readStep] at hmem
    split at hmem
    · exact Or.inr hmem
    · exact List.mem_cons.mp hmem
  rcases hcases with rfl | hmem
  · refine ⟨hfirst.1, ?_⟩
    intro hzero
    have hsize : first.size = 0 := hzero
    simp [ListEntry.copyTo, addW, hsize, hfirst.2 hsize]
  · exact h entry (List.mem_cons_of_mem _ hmem)

/-- Each iteration fills a byte of the buffer or drops an entry. -/
theorem readStep_decreases {dataLength : ℕ} {r : ReadState} {first : ListEntry}
    {rest : List ListEntry} (h : NoStall (first :: rest)) (hlt : r.index < dataLength) :
    dataLength - (readStep dataLength r first rest).index
        + (readStep dataLength r first rest).list.length
      < dataLength - r.index + (first :: rest).length := by
  obtain ⟨hsize, hempty⟩ := h first List.mem_cons_self
  rcases Nat.eq_zero_or_pos first.size with hzero | hpos
  · -- an empty chunk is dropped at once
    have hleft : (first.copyTo (dataLength - r.index)).2.2.dataLeft = 0 := by
      simp [ListEntry.copyTo, ListEntry.dataLeft, hzero, hempty hzero, addW, subW]
    simp only [readStep, hleft]
    simp only [ListEntry.copyTo, hzero, Nat.min_zero, if_true, List.length_cons]
    omega
  · have hlen : (readStep dataLength r first rest).list.length ≤ (first :: rest).length := by
      simp only [readStep]
      split <;> simp
    have hindex : (readStep dataLength r first rest).index
        = r.index + min (dataLength - r.index) first.size := rfl
    rw [hindex]
    omega

/-- The loop ends by its own guard: the fuel `readData` gives it is enough. -/
theorem readLoop_isSome {dataLength fuel : ℕ} {r : ReadState} (h : NoStall r.list)
    (hfuel : dataLength - r.index + r.list.length < fuel) :
    (readLoop dataLength fuel r).isSome := by
  induction fuel generalizing r with
  | zero => omega
  | succ fuel ih =>
    obtain ⟨index, list, data⟩ := r
    cases list with
    | nil => rfl
    | cons first rest =>
      simp only [readLoop]
      split
      · next hlt =>
        have hdec : _ < dataLength - index + (first :: rest).length :=
          @readStep_decreases dataLength ⟨index, first :: rest, data⟩ first rest h hlt
        apply ih (noStall_readStep h)
        simp only at hfuel ⊢
        omega
      · rfl

/-- What the loop does from a state in order: it moves the next bytes of the stream, as many
as the buffer takes or the list has. -/
theorem readLoop_spec {dataLength fuel : ℕ} {r r' : ReadState} (hr : r.InChunk dataLength)
    (h : readLoop dataLength fuel r = some r') :
    ValidList r'.list ∧
    r'.data ++ (pending r'.list).map some = r.data ++ (pending r.list).map some ∧
    r'.index = min dataLength (r.index + (pending r.list).length) := by
  induction fuel generalizing r with
  | zero => simp [readLoop] at h
  | succ fuel ih =>
    rw [readLoop] at h
    split at h
    · next hlist =>
      obtain rfl := Option.some.inj h
      have hle := hr.index_le
      refine ⟨hr.list, rfl, ?_⟩
      rw [hlist, pending_nil, List.length_nil]
      omega
    · next first rest hlist =>
      split at h
      · obtain ⟨hnext, hdata, hcount⟩ := readStep_spec hr hlist
        obtain ⟨hvalid, hdata', hindex⟩ := ih hnext h
        exact ⟨hvalid, hdata'.trans hdata, by rw [hindex, hcount]⟩
      · obtain rfl := Option.some.inj h
        have hle := hr.index_le
        exact ⟨hr.list, rfl, by omega⟩

/-- What every round keeps holds behind the loop. -/
theorem readLoop_invariant {dataLength fuel : ℕ} {r r' : ReadState} (P : ReadState → Prop)
    (hstep : ∀ r first rest, P r → r.list = first :: rest → P (readStep dataLength r first rest))
    (hr : P r) (h : readLoop dataLength fuel r = some r') : P r' := by
  induction fuel generalizing r with
  | zero => simp [readLoop] at h
  | succ fuel ih =>
    rw [readLoop] at h
    split at h
    · obtain rfl := Option.some.inj h
      exact hr
    · next first rest hlist =>
      split at h
      · exact ih (hstep r first rest hr hlist) h
      · obtain rfl := Option.some.inj h
        exact hr

/-- The loop leaves entries on which the next read cannot stall either. -/
theorem noStall_readLoop {dataLength fuel : ℕ} {r r' : ReadState} (hr : NoStall r.list)
    (h : readLoop dataLength fuel r = some r') : NoStall r'.list := by
  refine readLoop_invariant (fun r => NoStall r.list) ?_ hr h
  intro r first rest hstall hlist
  exact noStall_readStep (hlist ▸ hstall)

/-- The loop only appends to the caller's buffer. -/
theorem readLoop_data {dataLength fuel : ℕ} {r r' : ReadState}
    (h : readLoop dataLength fuel r = some r') : r.data <+: r'.data := by
  refine readLoop_invariant (fun r' => r.data <+: r'.data) ?_ List.prefix_rfl h
  intro r' first rest hprefix _
  exact hprefix.trans (List.prefix_append _ _)

/-! ## `WriteData` and `ReadData` -/

/-- `WriteData` appends one fresh chunk, or fails and changes nothing. -/
theorem writeData_cases (list : List ListEntry) (data : List UInt8) (a b : Bool) :
    writeData list (some data) a b = (.E_OUTOFMEMORY, list) ∨
    writeData list (some data) a b
      = (.S_OK, appendTail list (ListEntry.attach data.length data)) := by
  cases a with
  | false => exact Or.inl rfl
  | true =>
    cases b with
    | false => exact Or.inl rfl
    | true => exact Or.inr rfl

/-- `ReadData` returns on every list without stalling entries. -/
theorem readData_isSome {list : List ListEntry} (h : NoStall list) (dataLength : ℕ) :
    (readData list dataLength false).isSome := by
  have hloop : (readLoop dataLength (dataLength + list.length + 1) ⟨0, list, []⟩).isSome :=
    readLoop_isSome h (Nat.lt_succ_self _)
  simpa [readData] using hloop

/-- A read that stays in its chunk delivers the next bytes of the stream, as many as it
asked for or as there are. -/
theorem readData_spec {list : List ListEntry} {dataLength : ℕ} {r : ReadResult}
    (hlist : ValidList list)
    (hstay : ∀ first, list.head? = some first → 0 < first.index →
      dataLength ≤ first.size - first.index)
    (h : readData list dataLength false = some r) :
    ValidList r.list ∧ r.data ++ (pending r.list).map some = (pending list).map some ∧
    r.outputDataLength = min dataLength (pending list).length := by
  simp only [readData, Bool.false_eq_true, if_false, Option.map_eq_some_iff] at h
  obtain ⟨r', hloop, rfl⟩ := h
  have hstart : (⟨0, list, []⟩ : ReadState).InChunk dataLength :=
    ⟨hlist, Nat.zero_le _, hstay⟩
  obtain ⟨hvalid, hdata, hindex⟩ := readLoop_spec hstart hloop
  rw [List.nil_append] at hdata
  rw [Nat.zero_add] at hindex
  exact ⟨hvalid, hdata, hindex⟩

/-- A read that starts inside a chunk and asks for more than its rest copies bytes from
outside the chunk. -/
theorem overread_readData {first : ListEntry} {rest : List ListEntry} {dataLength : ℕ}
    {r : ReadResult} (hfirst : first.Valid) (hpos : 0 < first.index)
    (hlong : first.size - first.index < dataLength)
    (h : readData (first :: rest) dataLength false = some r) : none ∈ r.data := by
  obtain ⟨hsize, hlt, hindex⟩ := hfirst
  simp only [readData, Bool.false_eq_true, if_false, Option.map_eq_some_iff] at h
  obtain ⟨r', hloop, rfl⟩ := h
  rw [readLoop] at hloop
  simp only [show 0 < dataLength by omega, if_true] at hloop
  -- the first copy runs over the end of the chunk
  have hmem : none ∈ (readStep dataLength ⟨0, first :: rest, []⟩ first rest).data := by
    simp only [readStep, ListEntry.copyTo, List.nil_append, Nat.sub_zero]
    exact none_mem_readCells (by omega) (by omega)
  exact (readLoop_data hloop).subset hmem

/-! ## Runs -/

/-- What holds in every state of a run whose reads stayed in their chunks. -/
structure World.Ordered (w : World) : Prop where
  fifo : FifoStream w
  list : ValidList w.list

theorem ordered_init : World.init.Ordered where
  fifo := ⟨rfl, by simp [World.init], by simp [World.init], by simp [World.init]⟩
  list := ⟨by simp [World.init], by simp [World.init]⟩

/-- In order, the bytes pending are those written and not yet delivered. -/
theorem FifoStream.length_pending {w : World} (h : FifoStream w) :
    (pending w.list).length = w.written.length - w.delivered.length := by
  have hlen := congrArg List.length h.conserved
  simp only [List.length_append, List.length_map] at hlen
  omega

/-- A write keeps the stream in order. -/
theorem ordered_writeData {w w' : World} {data : List UInt8} {a b : Bool} (hw : w.Ordered)
    (hallowed : (Call.writeData data a b).Allowed w)
    (h : w.call (.writeData data a b) = some w') : w'.Ordered := by
  obtain ⟨⟨hcons, hle, hin, hreads⟩, hlist⟩ := hw
  rw [World.call] at h
  rcases writeData_cases w.list data a b with hcase | hcase
  · -- an allocation failed: nothing was appended
    rw [hcase] at h
    obtain rfl := Option.some.inj h
    exact ⟨⟨hcons, hle, hin, hreads⟩, hlist⟩
  · rw [hcase] at h
    obtain rfl := Option.some.inj h
    have hentry := ListEntry.valid_attach hallowed.1 hallowed.2
    have hlist' := hlist.appendTail hentry rfl
    refine ⟨⟨?_, fun entry he => Nat.le_of_lt (hlist'.valid entry he).index_lt, hin, hreads⟩,
      hlist'⟩
    show w.delivered ++ (pending (appendTail w.list _)).map some = (w.written ++ data).map some
    rw [pending_appendTail _ _ rfl, List.map_append, List.map_append, ← List.append_assoc, hcons]
    rfl

/-- A read that stays in its chunk keeps the stream in order. -/
theorem ordered_readData {w w' : World} {dataLength : ℕ} (hw : w.Ordered)
    (hstay : StaysInChunk w (.readData dataLength))
    (h : w.call (.readData dataLength) = some w') : w'.Ordered := by
  obtain ⟨hfifo, hlist⟩ := hw
  obtain ⟨r, hread, rfl⟩ := Option.map_eq_some_iff.mp h
  obtain ⟨hvalid, hdata, hlen⟩ := readData_spec hlist hstay hread
  -- the bytes read leave `pending` for `delivered`
  have hcons : w.delivered ++ r.data ++ (pending r.list).map some = w.written.map some := by
    rw [List.append_assoc, hdata, hfifo.conserved]
  refine ⟨⟨hcons, fun entry he => Nat.le_of_lt (hvalid.valid entry he).index_lt, ?_, ?_⟩, hvalid⟩
  · -- the bytes delivered are bytes written
    intro hmem
    have hnone : none ∈ w.written.map some := hcons ▸ List.mem_append_left _ hmem
    simp at hnone
  · intro record hmem
    rcases List.mem_append.mp hmem with hmem | hmem
    · exact hfifo.readLength record hmem
    · rw [List.mem_singleton.mp hmem, ← hfifo.length_pending]
      exact hlen

/-- A read that leaves its chunk delivers a byte from outside it. -/
theorem overread_call {w w' : World} {dataLength : ℕ} (hw : w.Ordered)
    (hstay : ¬ StaysInChunk w (.readData dataLength))
    (h : w.call (.readData dataLength) = some w') : none ∈ w'.delivered := by
  obtain ⟨r, hread, rfl⟩ := Option.map_eq_some_iff.mp h
  simp only [StaysInChunk, not_forall] at hstay
  obtain ⟨first, hhead, hpos, hlong⟩ := hstay
  obtain ⟨rest, hlist⟩ := List.head?_eq_some_iff.mp hhead
  rw [hlist] at hread
  have hfirst : first.Valid := hw.list.valid first (List.mem_of_mem_head? hhead)
  exact List.mem_append_right _ (overread_readData hfirst hpos (by omega) hread)

/-- What was delivered stays delivered. -/
theorem delivered_grows {w w' : World} {c : Call} (h : w.call c = some w') :
    w.delivered <+: w'.delivered := by
  cases c with
  | writeData data a b =>
    obtain rfl := Option.some.inj h
    exact List.prefix_rfl
  | readData dataLength =>
    obtain ⟨r, _, rfl⟩ := Option.map_eq_some_iff.mp h
    exact List.prefix_append _ _

theorem noStall_call {w w' : World} {c : Call} (hallowed : c.Allowed w) (hw : NoStall w.list)
    (h : w.call c = some w') : NoStall w'.list := by
  cases c with
  | writeData data a b =>
    rw [World.call] at h
    rcases writeData_cases w.list data a b with hcase | hcase
    · rw [hcase] at h
      obtain rfl := Option.some.inj h
      exact hw
    · rw [hcase] at h
      obtain rfl := Option.some.inj h
      intro entry hmem
      rcases List.mem_append.mp hmem with hmem | hmem
      · exact hw entry hmem
      · rw [List.mem_singleton.mp hmem]
        exact ⟨hallowed.2, fun _ => rfl⟩
  | readData dataLength =>
    obtain ⟨r, hread, rfl⟩ := Option.map_eq_some_iff.mp h
    simp only [readData, Bool.false_eq_true, if_false, Option.map_eq_some_iff] at hread
    obtain ⟨r', hloop, rfl⟩ := hread
    exact noStall_readLoop hw hloop

theorem step_eq_some {w w' : World} {c : Call} :
    w.step c = some w' ↔ c.Allowed w ∧ w.call c = some w' := by
  rw [World.step]
  split
  · next h => simp [h]
  · next h => simp [h]

theorem ordered_step {w w' : World} {c : Call} (hw : w.Ordered) (hstay : StaysInChunk w c)
    (h : w.step c = some w') : w'.Ordered := by
  obtain ⟨hallowed, hcall⟩ := step_eq_some.mp h
  cases c with
  | writeData data a b => exact ordered_writeData hw hallowed hcall
  | readData dataLength => exact ordered_readData hw hstay hcall

theorem overread_step {w w' : World} {c : Call} (hw : w.Ordered) (hstay : ¬ StaysInChunk w c)
    (h : w.step c = some w') : none ∈ w'.delivered := by
  obtain ⟨_, hcall⟩ := step_eq_some.mp h
  cases c with
  | writeData data a b => exact absurd trivial hstay
  | readData dataLength => exact overread_call hw hstay hcall

/-- No run builds a list on which `ReadData` would stall. -/
theorem noStall_run {calls : List Call} {w : World}
    (h : run World.step World.init calls = some w) : NoStall w.list := by
  refine run_invariant (fun w => NoStall w.list) ?_ h (by simp [World.init, NoStall])
  intro w c w' hw hstep
  obtain ⟨hallowed, hcall⟩ := step_eq_some.mp hstep
  exact noStall_call hallowed hw hcall

/-- **FIFO.** At the end of a run the transport is a FIFO byte stream exactly when each read
of the run that started inside a chunk asked for no more than the rest of that chunk; and
every call allowed there returns. -/
theorem fifoStream_iff {calls : List Call} {w : World}
    (h : run World.step World.init calls = some w) :
    (FifoStream w ↔ EachStep World.step StaysInChunk World.init calls) ∧
    ∀ c : Call, c.Allowed w → (w.step c).isSome := by
  constructor
  · -- a byte from outside its chunk is never taken back
    have hexact := run_exact World.Ordered (fun w => none ∈ w.delivered)
      (fun w c w' hw _ hstay hstep => ordered_step hw hstay hstep)
      (fun w c w' hw _ hstay hstep => overread_step hw hstay hstep)
      (fun w c w' hbad _ hstep => (delivered_grows (step_eq_some.mp hstep).2).subset hbad)
      eachStep_true h ordered_init
    rcases hexact with ⟨hgood, hsteps⟩ | ⟨hbad, hsteps⟩
    · exact iff_of_true hgood.fifo hsteps
    · exact iff_of_false (fun hfifo => hfifo.inChunk hbad) hsteps
  · intro c hallowed
    rw [World.step, if_pos hallowed]
    cases c with
    | writeData data a b => rfl
    | readData dataLength =>
      rw [World.call, Option.isSome_map]
      exact readData_isSome (noStall_run h) dataLength

/-- A chunk of three bytes read as two and one stays in order. -/
theorem fifoStream_two_then_one :
    FifoStream ⟨[], [1, 2, 3], [some 1, some 2, some 3], [⟨2, 3, 2⟩, ⟨1, 1, 1⟩]⟩ := by
  have hrun : run World.step World.init
      [.writeData [1, 2, 3] true true, .readData 2, .readData 1]
      = some ⟨[], [1, 2, 3], [some 1, some 2, some 3], [⟨2, 3, 2⟩, ⟨1, 1, 1⟩]⟩ := by decide
  exact (fifoStream_iff hrun).1.mpr (by decide)

/-- Three bytes written and two reads of two: the second read is of one byte of the chunk
and one byte past it. -/
theorem overread_counterexample :
    ∃ w, run World.step World.init [.writeData [1, 2, 3] true true, .readData 2, .readData 2]
        = some w ∧ w.delivered = [some 1, some 2, some 3, none] ∧ ¬ FifoStream w :=
  ⟨_, rfl, rfl, fun h => h.inChunk (by decide)⟩

end Win32Experiments.XSocket
