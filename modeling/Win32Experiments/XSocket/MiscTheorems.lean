import Win32Experiments.XSocket.Misc

/-!
# The rewrite is a FIFO stream while one entry serves each read

Every iteration of `ReadData` copies to the start of the buffer. A read that one entry serves
therefore delivers the next bytes; a read that goes on to a second entry counts the bytes of
both, but its buffer holds fewer, or its count is larger than the buffer.
-/

namespace Win32Experiments.XSocket.Misc

open Foundation

variable {r t : ReadState} {first : ListEntry} {rest list : List ListEntry} {size fuel : ℕ}

/-! ## One iteration -/

/-- No entry in the list has been read to its end. -/
def Unread (list : List ListEntry) : Prop := ∀ entry ∈ list, entry.index < entry.data.length

/-- From cell `m` on, nothing has been written to the buffer. -/
def Unwritten (buffer : List (Option UInt8)) (m : ℕ) : Prop :=
  ∀ i, m ≤ i → i < buffer.length → buffer[i]? = some none

theorem unwritten_replicate (size : ℕ) : Unwritten (List.replicate size none) 0 := by
  intro i _ hi
  rw [List.length_replicate] at hi
  simp [hi]

/-- The number of bytes that an iteration copies. -/
def copied (first : ListEntry) (buffer : List (Option UInt8)) : ℕ :=
  min first.remaining buffer.length

/-- The cells that it copies. -/
def cells (first : ListEntry) (buffer : List (Option UInt8)) : List (Option UInt8) :=
  (window first.data first.index (copied first buffer)).map some

theorem length_cells (buffer : List (Option UInt8)) (h : first.index < first.data.length) :
    (cells first buffer).length = copied first buffer := by
  rw [cells, List.length_map]
  apply length_window
  unfold copied ListEntry.remaining
  omega

/-- An iteration with an unread entry at the head. -/
theorem readStep_of_lt (r : ReadState) (rest : List ListEntry)
    (h : first.index < first.data.length) :
    readStep r first rest =
      { totalRead := r.totalRead + copied first r.buffer
        list :=
          if first.remaining ≤ r.buffer.length then rest
          else { first with index := first.index + r.buffer.length } :: rest
        buffer := store r.buffer 0 (cells first r.buffer) } := by
  have hcopy : first.copyTo r.buffer =
      (copied first r.buffer, store r.buffer 0 (cells first r.buffer),
        { first with index := first.index + copied first r.buffer }) := by
    rw [ListEntry.copyTo, if_neg (by omega)]
    rfl
  unfold readStep
  rw [hcopy]
  by_cases hall : first.remaining ≤ r.buffer.length
  · have hempty : ({ first with index := first.index + copied first r.buffer } : ListEntry).empty
        = true := by
      unfold ListEntry.empty copied
      unfold ListEntry.remaining at hall ⊢
      rw [decide_eq_true_iff]
      dsimp only
      omega
    simp only [hempty, if_pos hall, if_true]
  · have hcopied : copied first r.buffer = r.buffer.length := by
      unfold copied
      omega
    have hempty : ({ first with index := first.index + r.buffer.length } : ListEntry).empty
        = false := by
      unfold ListEntry.empty
      unfold ListEntry.remaining at hall
      rw [decide_eq_false_iff_not]
      dsimp only
      omega
    simp only [hcopied, hempty, if_neg hall, Bool.false_eq_true, if_false]

theorem length_buffer_readStep (rest : List ListEntry) (h : first.index < first.data.length) :
    (readStep r first rest).buffer.length = r.buffer.length := by
  rw [readStep_of_lt r rest h]
  apply length_store
  rw [length_cells _ h]
  unfold copied
  omega

/-- The entries left are unread. -/
theorem unread_readStep (h : Unread (first :: rest)) : Unread (readStep r first rest).list := by
  have hfirst : first.index < first.data.length := h first List.mem_cons_self
  have hrest : Unread rest := fun entry hentry => h entry (List.mem_cons_of_mem _ hentry)
  rw [readStep_of_lt r rest hfirst]
  dsimp only
  split
  · exact hrest
  · rename_i hall
    intro entry hentry
    rcases List.mem_cons.mp hentry with rfl | hentry
    · unfold ListEntry.remaining at hall
      dsimp only
      omega
    · exact hrest entry hentry

/-- The copy leaves the cells behind it unwritten. -/
theorem unwritten_readStep {m : ℕ} (hm : Unwritten r.buffer m)
    (h : first.index < first.data.length) :
    Unwritten (readStep r first rest).buffer (max m (copied first r.buffer)) := by
  intro i hi hlen
  rw [length_buffer_readStep rest h] at hlen
  rw [readStep_of_lt r rest h]
  show (store r.buffer 0 (cells first r.buffer))[i]? = some none
  have hcells := length_cells r.buffer h
  rw [store, List.take_zero, List.nil_append, List.getElem?_append_right (by omega),
    List.getElem?_drop, hcells, Nat.zero_add]
  have hidx : copied first r.buffer + (i - copied first r.buffer) = i := by omega
  rw [hidx]
  exact hm i (by omega) hlen

/-! ## The loop -/

theorem readLoop_of_le (h : r.buffer.length ≤ r.totalRead) : readLoop (fuel + 1) r = some r := by
  rw [readLoop, if_neg (by omega)]

theorem readLoop_nil (h : r.list = []) : readLoop (fuel + 1) r = some r := by
  rw [readLoop, h]
  split <;> rfl

theorem readLoop_cons (h : r.list = first :: rest) (hlt : r.totalRead < r.buffer.length) :
    readLoop (fuel + 1) r = readLoop fuel (readStep r first rest) := by
  rw [readLoop, if_pos hlt, h]

/-- The loop returns: an iteration drops an entry, or the next test ends the loop. -/
theorem readLoop_isSome (hunread : Unread r.list) (h : r.list.length + 1 < fuel) :
    (readLoop fuel r).isSome := by
  induction fuel generalizing r with
  | zero => omega
  | succ fuel ih =>
    by_cases hlt : r.totalRead < r.buffer.length
    · cases hlist : r.list with
      | nil =>
        rw [readLoop_nil hlist]
        rfl
      | cons first rest =>
        rw [hlist] at hunread
        rw [hlist, List.length_cons] at h
        have hfirst := hunread first List.mem_cons_self
        rw [readLoop_cons hlist hlt]
        by_cases hall : first.remaining ≤ r.buffer.length
        · apply ih (unread_readStep hunread)
          rw [readStep_of_lt r rest hfirst]
          simp only [if_pos hall]
          omega
        · obtain ⟨fuel, rfl⟩ : ∃ k, fuel = k + 1 := ⟨fuel - 1, by omega⟩
          rw [readLoop_of_le]
          · rfl
          · rw [length_buffer_readStep rest hfirst, readStep_of_lt r rest hfirst]
            show r.buffer.length ≤ r.totalRead + copied first r.buffer
            unfold copied
            omega
    · rw [readLoop_of_le (by omega)]
      rfl

/-- What every iteration preserves holds when the loop returns. -/
theorem readLoop_invariant (P : ReadState → Prop)
    (hstep : ∀ r first rest, r.list = first :: rest → P r → P (readStep r first rest))
    (hloop : readLoop fuel r = some t) (hr : P r) : P t := by
  induction fuel generalizing r with
  | zero => contradiction
  | succ fuel ih =>
    by_cases hlt : r.totalRead < r.buffer.length
    · cases hlist : r.list with
      | nil =>
        rw [readLoop_nil hlist, Option.some.injEq] at hloop
        exact hloop ▸ hr
      | cons first rest =>
        rw [readLoop_cons hlist hlt] at hloop
        exact ih hloop (hstep r first rest hlist hr)
    · rw [readLoop_of_le (by omega), Option.some.injEq] at hloop
      exact hloop ▸ hr

/-- A read of a nonempty list into a nonempty buffer starts with a copy. -/
theorem readData_cons (hsize : 0 < size) :
    readData (first :: rest) size = readLoop (rest.length + 2)
      (readStep ⟨0, first :: rest, List.replicate size none⟩ first rest) := by
  apply readLoop_cons rfl
  show 0 < (List.replicate size none).length
  rw [List.length_replicate]
  exact hsize

/-! ## A read that one entry serves -/

/-- The read has delivered the next bytes: the count is within the buffer, and the first bytes
of the buffer, followed by what is pending after the read, were pending before it. -/
structure Delivers (list : List ListEntry) (size : ℕ) (r : ReadState) : Prop where
  length : r.buffer.length = size
  bounded : r.totalRead ≤ size
  conserved : r.buffer.take r.totalRead ++ (pending r.list).map some = (pending list).map some

/-- A loop that ends before its first copy has delivered nothing. -/
theorem delivers_nothing : Delivers list size ⟨0, list, List.replicate size none⟩ where
  length := List.length_replicate
  bounded := Nat.zero_le _
  conserved := by simp

/-- The first copy of a read delivers the next bytes. -/
theorem delivers_readStep (hfirst : first.index < first.data.length) :
    Delivers (first :: rest) size
      (readStep ⟨0, first :: rest, List.replicate size none⟩ first rest) := by
  have hbuffer : (List.replicate size (none : Option UInt8)).length = size :=
    List.length_replicate
  have hcells := length_cells (List.replicate size none) hfirst
  constructor
  · rw [length_buffer_readStep rest hfirst]
    exact hbuffer
  · rw [readStep_of_lt _ rest hfirst]
    show 0 + copied first (List.replicate size none) ≤ size
    unfold copied
    omega
  · have hself := @window_store_self _ (List.replicate size none)
      (cells first (List.replicate size none)) 0 (Nat.zero_le _)
    rw [hcells, window, List.drop_zero] at hself
    rw [readStep_of_lt _ rest hfirst]
    dsimp only
    rw [Nat.zero_add, hself, cells, ← List.map_append]
    congr 1
    by_cases hall : first.remaining ≤ (List.replicate size (none : Option UInt8)).length
    · have hcopied : copied first (List.replicate size none) = first.remaining := by
        unfold copied
        omega
      rw [if_pos hall, hcopied, window, ListEntry.remaining, ← List.length_drop,
        List.take_length]
      rfl
    · have hcopied : copied first (List.replicate size none) = size := by
        unfold copied
        omega
      rw [if_neg hall, hcopied, hbuffer, window]
      show _ ++ ((first.data.drop (first.index + size)) ++ pending rest)
        = first.data.drop first.index ++ pending rest
      rw [← List.append_assoc, ← List.drop_drop, List.take_append_drop]

/-- A read that one entry serves delivers the next bytes. -/
theorem delivers_readData (hunread : Unread list)
    (hone : list.length ≤ 1 ∨ ∀ first ∈ list.head?, size ≤ first.remaining)
    (h : readData list size = some r) : Delivers list size r := by
  have hbuffer : (List.replicate size (none : Option UInt8)).length = size :=
    List.length_replicate
  cases list with
  | nil =>
    rw [readData, readLoop_nil rfl, Option.some.injEq] at h
    exact h ▸ delivers_nothing
  | cons first rest =>
    have hfirst := hunread first List.mem_cons_self
    by_cases hsize : size = 0
    · subst hsize
      rw [readData, readLoop_of_le (by simp), Option.some.injEq] at h
      exact h ▸ delivers_nothing
    · rw [readData_cons (by omega)] at h
      -- the test behind the first copy ends the loop
      have hend : r = readStep ⟨0, first :: rest, List.replicate size none⟩ first rest := by
        rcases hone with hshort | hlarge
        · by_cases hall : first.remaining ≤ size
          · rw [readLoop_nil, Option.some.injEq] at h
            · exact h.symm
            · rw [readStep_of_lt _ rest hfirst]
              simp only [hbuffer, if_pos hall]
              rw [List.length_cons] at hshort
              exact List.eq_nil_of_length_eq_zero (by omega)
          · rw [readLoop_of_le, Option.some.injEq] at h
            · exact h.symm
            · rw [length_buffer_readStep rest hfirst, readStep_of_lt _ rest hfirst]
              simp only [copied, hbuffer]
              omega
        · have hremaining := hlarge first rfl
          rw [readLoop_of_le, Option.some.injEq] at h
          · exact h.symm
          · rw [length_buffer_readStep rest hfirst, readStep_of_lt _ rest hfirst]
            simp only [copied, hbuffer]
            omega
      rw [hend]
      exact delivers_readStep hfirst

/-! ## A read that goes on to a second entry -/

/-- The count exceeds what has been written of the buffer. -/
structure Overcounts (r : ReadState) : Prop where
  unread : Unread r.list
  room : 0 < r.buffer.length
  written : ∃ m, m < r.totalRead ∧ Unwritten r.buffer m

/-- A further copy adds to the count, but it goes over what is written. -/
theorem overcounts_readStep {m : ℕ} (hunread : Unread (first :: rest))
    (hroom : 0 < r.buffer.length) (hpos : 0 < r.totalRead) (hm : m ≤ r.totalRead)
    (hwritten : Unwritten r.buffer m) : Overcounts (readStep r first rest) := by
  have hfirst := hunread first List.mem_cons_self
  refine ⟨unread_readStep hunread, ?_, _, ?_, unwritten_readStep hwritten hfirst⟩
  · rw [length_buffer_readStep rest hfirst]
    exact hroom
  · rw [readStep_of_lt r rest hfirst]
    show max m (copied first r.buffer) < r.totalRead + copied first r.buffer
    unfold copied ListEntry.remaining
    omega

/-- A read whose count is larger than the buffer, or covers a cell that it has not written. -/
def Lossy (totalRead : ℕ) (buffer : List (Option UInt8)) : Prop :=
  buffer.length < totalRead ∨ none ∈ buffer.take totalRead

theorem Overcounts.lossy (h : Overcounts r) : Lossy r.totalRead r.buffer := by
  obtain ⟨m, hm, hwritten⟩ := h.written
  by_cases hlarge : r.buffer.length < r.totalRead
  · exact Or.inl hlarge
  · have hcell := hwritten m (Nat.le_refl m) (by omega)
    rw [← List.getElem?_take_of_lt hm] at hcell
    exact Or.inr (List.mem_of_getElem? hcell)

/-- A read that the first entry cannot serve, with a second behind it, is lossy. -/
theorem lossy_readData {second : ListEntry} (hunread : Unread (first :: second :: rest))
    (hshort : first.remaining < size)
    (h : readData (first :: second :: rest) size = some r) : Lossy r.totalRead r.buffer := by
  have hfirst := hunread first List.mem_cons_self
  have hrest : Unread (second :: rest) := fun entry hentry =>
    hunread entry (List.mem_cons_of_mem _ hentry)
  rw [readData_cons (by omega)] at h
  generalize hr₀ : (⟨0, first :: second :: rest, List.replicate size none⟩ : ReadState) = r₀ at h
  have hbuffer : r₀.buffer.length = size := by
    rw [← hr₀]
    exact List.length_replicate
  have hwritten : Unwritten r₀.buffer 0 := by
    rw [← hr₀]
    exact unwritten_replicate size
  have hcopied : copied first r₀.buffer = first.remaining := by
    unfold copied
    omega
  have hpos : 0 < first.remaining := by
    unfold ListEntry.remaining
    omega
  -- the first copy takes the whole entry
  have hcount : (readStep r₀ first (second :: rest)).totalRead = first.remaining := by
    rw [readStep_of_lt _ _ hfirst, ← hcopied, ← hr₀]
    exact Nat.zero_add _
  have hlist : (readStep r₀ first (second :: rest)).list = second :: rest := by
    rw [readStep_of_lt _ _ hfirst]
    exact if_pos (by omega)
  have hlength := length_buffer_readStep (r := r₀) (second :: rest) hfirst
  have hfront : Unwritten (readStep r₀ first (second :: rest)).buffer _ :=
    unwritten_readStep hwritten hfirst
  rw [hcopied, Nat.zero_max] at hfront
  -- the second copy starts at the front again, and so does every further one
  rw [readLoop_cons hlist (by omega)] at h
  apply Overcounts.lossy
  apply readLoop_invariant Overcounts _ h
  · exact overcounts_readStep hrest (by omega) (by omega) (by omega) hfront
  · intro r first rest hlist hr
    obtain ⟨m, hm, hwritten⟩ := hr.written
    have hunread := hr.unread
    rw [hlist] at hunread
    exact overcounts_readStep hunread hr.room (by omega) (Nat.le_of_lt hm) hwritten

/-! ## Runs -/

variable {w w' : World} {c : Call}

/-- A stream, and its entries are unread. -/
structure Sound (w : World) : Prop where
  unread : Unread w.list
  stream : FifoStream w

/-- Some read was lossy. -/
def Lost (w : World) : Prop := ∃ read ∈ w.reads, Lossy read.totalRead read.buffer

theorem sound_init : Sound .init where
  unread := by simp [Unread, World.init]
  stream := ⟨by simp [World.init], rfl⟩

/-- Every call returns while the entries are unread. -/
theorem step_isSome (h : Unread w.list) : (w.step c).isSome := by
  cases c with
  | writeData data => rfl
  | readData size =>
    rw [World.step, Option.isSome_map]
    exact readLoop_isSome h (Nat.lt_succ_self _)

theorem unread_writeData {data : List UInt8} (h : Unread list) : Unread (writeData list data) := by
  unfold writeData
  split
  · exact h
  · rename_i hdata
    intro entry hentry
    rcases List.mem_append.mp hentry with hentry | hentry
    · exact h entry hentry
    · rw [List.mem_singleton.mp hentry]
      exact List.length_pos_iff.mpr hdata

theorem pending_writeData (list : List ListEntry) (data : List UInt8) :
    pending (writeData list data) = pending list ++ data := by
  unfold writeData
  split
  · rename_i hdata
    rw [hdata, List.append_nil]
  · simp [pending, ListEntry.attach]

/-- The list behind a read is unread. -/
theorem unread_readData (h : Unread list) (hr : readData list size = some r) : Unread r.list := by
  apply readLoop_invariant (fun r => Unread r.list) _ hr h
  intro r first rest hlist hr
  rw [hlist] at hr
  exact unread_readStep hr

theorem unread_step (hw : Unread w.list) (h : w.step c = some w') : Unread w'.list := by
  cases c with
  | writeData data =>
    rw [World.step, Option.some.injEq] at h
    subst h
    exact unread_writeData hw
  | readData size =>
    obtain ⟨r, hr, rfl⟩ := Option.map_eq_some_iff.mp h
    exact unread_readData hw hr

theorem sound_step (hw : Sound w) (hc : OneEntry w c) (h : w.step c = some w') : Sound w' := by
  have hunread := unread_step hw.unread h
  cases c with
  | writeData data =>
    rw [World.step, Option.some.injEq] at h
    subst h
    refine ⟨hunread, hw.stream.bounded, ?_⟩
    show w.delivered ++ (pending (writeData w.list data)).map some = (w.written ++ data).map some
    rw [pending_writeData, List.map_append, List.map_append, ← List.append_assoc,
      hw.stream.conserved]
  | readData size =>
    obtain ⟨r, hr, rfl⟩ := Option.map_eq_some_iff.mp h
    have hdelivers := delivers_readData hw.unread hc hr
    refine ⟨hunread, ?_, ?_⟩
    · intro read hread
      rcases List.mem_append.mp hread with hread | hread
      · exact hw.stream.bounded read hread
      · rw [List.mem_singleton.mp hread]
        show r.totalRead ≤ r.buffer.length
        rw [hdelivers.length]
        exact hdelivers.bounded
    · rw [← hw.stream.conserved, ← hdelivers.conserved]
      simp [World.delivered]

/-- A read that goes on to a second entry is lossy. -/
theorem lost_step (hw : Sound w) (hc : ¬ OneEntry w c) (h : w.step c = some w') : Lost w' := by
  cases c with
  | writeData data => exact absurd trivial hc
  | readData size =>
    obtain ⟨r, hr, rfl⟩ := Option.map_eq_some_iff.mp h
    refine ⟨⟨r.totalRead, r.buffer⟩, List.mem_append_right _ (List.mem_singleton_self _), ?_⟩
    obtain ⟨hmany, hhead⟩ := not_or.mp hc
    have hunread := hw.unread
    match hlist : w.list with
    | [] => simp [hlist] at hmany
    | [_] => simp [hlist] at hmany
    | first :: second :: rest =>
      rw [hlist] at hr hunread
      apply lossy_readData hunread _ hr
      simpa [hlist] using hhead

/-- What a lossy read lost stays lost. -/
theorem lost_of_step (hw : Lost w) (h : w.step c = some w') : Lost w' := by
  obtain ⟨read, hread, hlossy⟩ := hw
  cases c with
  | writeData data =>
    rw [World.step, Option.some.injEq] at h
    subst h
    exact ⟨read, hread, hlossy⟩
  | readData size =>
    obtain ⟨r, -, rfl⟩ := Option.map_eq_some_iff.mp h
    exact ⟨read, List.mem_append_left _ hread, hlossy⟩

/-- A transport with a lossy read is no stream. -/
theorem not_fifoStream_of_lost (hw : Lost w) : ¬ FifoStream w := by
  rintro ⟨hbounded, hconserved⟩
  obtain ⟨read, hread, hlong | hnone⟩ := hw
  · have hle := hbounded read hread
    omega
  · have hmem : none ∈ w.written.map some := by
      rw [← hconserved]
      exact List.mem_append_left _ (List.mem_flatMap.mpr ⟨read, hread, hnone⟩)
    simp at hmem

/-- Every sequence of calls returns, and the transport is a FIFO byte stream after it exactly
if one entry served each read. -/
theorem misc_fifoStream_iff (cs : List Call) :
    ∃ w, run World.step .init cs = some w ∧
      (FifoStream w ↔ EachStep World.step OneEntry .init cs) := by
  obtain ⟨w, hrun⟩ : ∃ w, run World.step .init cs = some w := by
    apply run_isSome (fun w => Unread w.list)
    · intro w c w' hw hstep
      exact unread_step hw hstep
    · intro w c hw
      exact step_isSome hw
    · exact sound_init.unread
  refine ⟨w, hrun, ?_⟩
  have hexact := run_exact (K := fun _ _ => True) (C := OneEntry) Sound Lost
    (fun w c w' hw _ hc h => sound_step hw hc h) (fun w c w' hw _ hc h => lost_step hw hc h)
    (fun w c w' hw _ h => lost_of_step hw h) eachStep_true hrun sound_init
  rcases hexact with ⟨hw, hes⟩ | ⟨hw, hes⟩
  · exact iff_of_true hw.stream hes
  · exact iff_of_false (not_fifoStream_of_lost hw) hes

/-- Two writes and a read of the three bytes: the third byte has overwritten the first, the
second is where it was, and the count promises a third. -/
theorem overwrite_counterexample :
    ∃ w, run World.step .init [.writeData [1, 2], .writeData [3], .readData 3] = some w ∧
      w.reads = [⟨3, [some 3, some 2, none]⟩] ∧ ¬ FifoStream w := by
  refine ⟨_, rfl, rfl, ?_⟩
  intro h
  have hconserved := h.conserved
  contradiction

end Win32Experiments.XSocket.Misc
