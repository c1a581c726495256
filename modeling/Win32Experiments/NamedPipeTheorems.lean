import Win32Experiments.NamedPipe

/-!
# What `ReadPipe` returns

The vector always has room for one more `ReadFile` behind the bytes of the message that were
read. So each `ReadFile` gets a range of the vector, and the loop ends after as many of them as
the message needs: with the message when each of these ends at once and without an error, and
by an exception when one does not.
-/

namespace Win32Experiments.NamedPipe

open Foundation

/-- The operation ends at once and without an error. -/
def Completion.Quiet (completion : Completion) : Prop :=
  completion.error = none ∧ completion.pending = false

instance (completion : Completion) : Decidable completion.Quiet :=
  inferInstanceAs (Decidable (_ ∧ _))

/-! ## `ReadFile` -/

section

variable {completion : Completion} {pipe : Pipe} {n : ℕ}

/-- A call without an `OVERLAPPED` is one that is never pending. -/
theorem readFileOverlapped_not_pending (error : Option ReadError) :
    readFileOverlapped ⟨error, false⟩ = readFile error := by
  funext pipe n
  simp [readFileOverlapped]

theorem readFileOverlapped_quiet (h : completion.Quiet) (pipe : Pipe) (n : ℕ) :
    readFileOverlapped completion pipe n = readFile none pipe n := by
  obtain ⟨error, pending⟩ := completion
  obtain ⟨rfl, rfl⟩ := h
  rw [readFileOverlapped_not_pending]

/-- Any other call on a pipe with a message has failed, and not for the length of the message. -/
theorem readFileOverlapped_not_quiet (h : ¬ completion.Quiet) (hpipe : pipe ≠ []) (n : ℕ) :
    ∃ result, readFileOverlapped completion pipe n = some result ∧ result.success = false ∧
      result.lastError ≠ errorMoreData := by
  obtain ⟨message, rest, rfl⟩ := List.exists_cons_of_ne_nil hpipe
  obtain ⟨error, pending⟩ := completion
  cases pending with
  | true =>
    have hread : ∃ result, readFile error (message :: rest) n = some result := by
      cases error with
      | some lastError => exact ⟨_, rfl⟩
      | none =>
        by_cases hle : message.length ≤ n
        · exact ⟨_, by rw [readFile, readMessage_of_le hle]; rfl⟩
        · exact ⟨_, by rw [readFile, readMessage_of_lt (by omega)]; rfl⟩
    obtain ⟨result, hresult⟩ := hread
    refine ⟨{ result with success := false, lastError := errorIoPending }, ?_, rfl, ?_⟩
    · simp [readFileOverlapped, hresult]
    · show errorIoPending ≠ errorMoreData
      decide
  | false =>
    cases error with
    | none => exact absurd ⟨rfl, rfl⟩ h
    | some lastError =>
      rw [readFileOverlapped_not_pending]
      exact ⟨_, rfl, rfl, lastError.ne_moreData⟩

theorem readFile_of_le {message : List UInt8} {rest : Pipe} (h : message.length ≤ n) :
    readFile none (message :: rest) n = some ⟨true, 0, message, rest⟩ := by
  rw [readFile, readMessage_of_le h]
  rfl

theorem readFile_of_lt {message : List UInt8} {rest : Pipe} (h : n < message.length) :
    readFile none (message :: rest) n
      = some ⟨false, errorMoreData, message.take n, message.drop n :: rest⟩ := by
  rw [readFile, readMessage_of_lt h]
  rfl

end

/-! ## The vector -/

theorem resize_of_le {buffer : List UInt8} {size : ℕ} (h : size ≤ buffer.length) :
    resize buffer size = window buffer 0 size := by
  rw [resize, Nat.sub_eq_zero_of_le h, List.replicate_zero, List.append_nil]
  rfl

theorem resize_add (buffer : List UInt8) (n : ℕ) :
    resize buffer (buffer.length + n) = buffer ++ List.replicate n 0 := by
  rw [resize, List.take_of_length_le (by omega), Nat.add_sub_cancel_left]

/-- The bytes `got` of a message have been read, `remaining` is still in the pipe, and the
vector has room for one more `ReadFile`. -/
structure Reading.Holds (r : Reading) (n : ℕ) (got remaining : List UInt8) (rest : Pipe) :
    Prop where
  count : r.totalBytesRead = got.length
  size : r.returnBuffer.length = got.length + n
  front : window r.returnBuffer 0 got.length = got
  pipe : r.pipe = remaining :: rest
  inside : ∀ range ∈ r.ranges, range.Inside

section

variable (add : ℕ → ℕ → ℕ) {n : ℕ} {r : Reading} {got remaining : List UInt8} {rest : Pipe}

theorem holds_start (n : ℕ) (message : List UInt8) (rest : Pipe) :
    (Reading.start n (message :: rest)).Holds n [] message rest where
  count := rfl
  size := by simp [Reading.start]
  front := rfl
  pipe := rfl
  inside := by simp [Reading.start]

/-- The next `ReadFile` gets a range of the vector. -/
theorem Reading.Holds.inside_received (h : r.Holds n got remaining rest) (result : ReadFileResult) :
    ∀ range ∈ (r.received add n result).ranges, range.Inside := by
  intro range hmem
  rcases List.mem_append.mp hmem with hmem | hmem
  · exact h.inside range hmem
  · rw [List.mem_singleton.mp hmem]
    have hsize := h.size
    have hcount := h.count
    show r.totalBytesRead + n ≤ r.returnBuffer.length
    omega

/-- The vector behind a `ReadFile`: its length, and the bytes read so far at its front. -/
theorem Reading.Holds.received (h : r.Holds n got remaining rest) (result : ReadFileResult)
    (hbytes : result.bytes.length ≤ n) :
    (r.received add n result).returnBuffer.length = got.length + n ∧
    window (r.received add n result).returnBuffer 0 (got ++ result.bytes).length
      = got ++ result.bytes := by
  have hsize := h.size
  have hcount := h.count
  constructor
  · rw [Reading.received, ← h.size]
    apply length_store
    omega
  · have happend := @window_store_append _ r.returnBuffer result.bytes 0 got.length (by omega)
    rw [Nat.zero_add, h.front] at happend
    rw [Reading.received, h.count, List.length_append]
    exact happend

variable {add} {completion : ℕ → Completion} (fuel : ℕ)

/-- A `ReadFile` that fails, or is pending, ends the loop by an exception. -/
theorem readPipeLoop_of_not_quiet (h : r.Holds n got remaining rest)
    (hloud : ¬ (completion r.ranges.length).Quiet) :
    ∃ returned, readPipeLoop add n (fun k => readFileOverlapped (completion k)) (fuel + 1) r
        = some returned ∧
      (∃ e, returned.outcome = .error e) ∧ ∀ range ∈ returned.ranges, range.Inside := by
  have hpipe : r.pipe ≠ [] := by simp [h.pipe]
  obtain ⟨result, hresult, hsuccess, hlast⟩ := readFileOverlapped_not_quiet hloud hpipe n
  have hinside := h.inside_received add result
  refine ⟨⟨.error ⟨result.lastError, "ReadFile() failed."⟩, result.pipe, _⟩, ?_, ⟨_, rfl⟩, hinside⟩
  rw [readPipeLoop, hresult, Option.bind_some, if_neg (by simp [hsuccess]), if_pos hlast]
  rfl

/-- The last `ReadFile` of a message ends the loop with the message. -/
theorem readPipeLoop_of_le (h : r.Holds n got remaining rest)
    (hadd : add got.length remaining.length = got.length + remaining.length)
    (hquiet : (completion r.ranges.length).Quiet) (hle : remaining.length ≤ n) :
    ∃ returned, readPipeLoop add n (fun k => readFileOverlapped (completion k)) (fuel + 1) r
        = some returned ∧ returned.outcome = .ok (got ++ remaining) ∧ returned.pipe = rest ∧
      ∀ range ∈ returned.ranges, range.Inside := by
  have hread := readFileOverlapped_quiet hquiet r.pipe n
  rw [h.pipe, readFile_of_le hle] at hread
  obtain ⟨hsize, hfront⟩ := h.received add ⟨true, 0, remaining, rest⟩ hle
  have hinside := h.inside_received add ⟨true, 0, remaining, rest⟩
  refine ⟨⟨.ok (got ++ remaining), rest, _⟩, ?_, rfl, rfl, hinside⟩
  · rw [readPipeLoop, h.pipe, hread, Option.bind_some, if_pos rfl]
    have htotal : (r.received add n ⟨true, 0, remaining, rest⟩).totalBytesRead
        = (got ++ remaining).length := by
      rw [List.length_append, ← hadd, ← h.count]
      rfl
    have hresize : resize (r.received add n ⟨true, 0, remaining, rest⟩).returnBuffer
        (r.received add n ⟨true, 0, remaining, rest⟩).totalBytesRead = got ++ remaining := by
      rw [htotal, resize_of_le, hfront]
      rw [hsize, List.length_append]
      omega
    rw [hresize]
    rfl

/-- Any other `ReadFile` that succeeds leaves the rest of the message to the next turn. -/
theorem readPipeLoop_of_lt (h : r.Holds n got remaining rest)
    (hadd : add got.length n = got.length + n)
    (hquiet : (completion r.ranges.length).Quiet) (hlt : n < remaining.length) :
    ∃ r', r'.Holds n (got ++ remaining.take n) (remaining.drop n) rest ∧
      r'.ranges.length = r.ranges.length + 1 ∧
      readPipeLoop add n (fun k => readFileOverlapped (completion k)) (fuel + 1) r
        = readPipeLoop add n (fun k => readFileOverlapped (completion k)) fuel r' := by
  have hread := readFileOverlapped_quiet hquiet r.pipe n
  rw [h.pipe, readFile_of_lt hlt] at hread
  have htake : (remaining.take n).length = n := List.length_take_of_le (by omega)
  let result : ReadFileResult :=
    ⟨false, errorMoreData, remaining.take n, remaining.drop n :: rest⟩
  obtain ⟨hsize, hfront⟩ := h.received add result (Nat.le_of_eq htake)
  have hgrow : ((r.received add n result).grow n).returnBuffer
      = (r.received add n result).returnBuffer ++ List.replicate n 0 := resize_add _ n
  refine ⟨(r.received add n result).grow n, ?_, ?_, ?_⟩
  · constructor
    · show add r.totalBytesRead (remaining.take n).length = _
      rw [h.count, htake, hadd, List.length_append, htake]
    · rw [hgrow, List.length_append, hsize, List.length_append, List.length_replicate, htake]
    · rw [hgrow, window_append_left, hfront]
      rw [hsize, List.length_append, htake]
      omega
    · rfl
    · exact h.inside_received add result
  · exact List.length_append
  · rw [readPipeLoop, h.pipe, hread, Option.bind_some, if_neg (by simp), if_neg (by simp)]

end

/-! ## The whole loop -/

section

variable {add : ℕ → ℕ → ℕ} {n : ℕ} (completion : ℕ → Completion)

/-- **The loop.** With turns enough for the bytes that remain, the loop ends, and every
`ReadFile` was given a range of the vector. It ends with the message when the operations that
the rest of the message needs are quiet, and by an exception when one of them is not. -/
theorem readPipeLoop_spec {fuel : ℕ} {r : Reading} {got remaining : List UInt8} {rest : Pipe}
    (hn : 0 < n) (h : r.Holds n got remaining rest)
    (hadd : ∀ a b, a + b ≤ got.length + remaining.length → add a b = a + b)
    (hfuel : remaining.length < fuel) :
    ∃ returned, readPipeLoop add n (fun k => readFileOverlapped (completion k)) fuel r
        = some returned ∧
      (∀ range ∈ returned.ranges, range.Inside) ∧
      ((∀ j < readsNeeded remaining.length n, (completion (r.ranges.length + j)).Quiet) →
        returned.outcome = .ok (got ++ remaining) ∧ returned.pipe = rest) ∧
      ((∃ j < readsNeeded remaining.length n, ¬ (completion (r.ranges.length + j)).Quiet) →
        ∃ e, returned.outcome = .error e) := by
  induction fuel generalizing r got remaining with
  | zero => omega
  | succ fuel ih =>
    by_cases hquiet : (completion r.ranges.length).Quiet
    · by_cases hle : remaining.length ≤ n
      · obtain ⟨returned, hret, hok, hrest, hin⟩ :=
          readPipeLoop_of_le fuel h (hadd _ _ (Nat.le_refl _)) hquiet hle
        refine ⟨returned, hret, hin, fun _ => ⟨hok, hrest⟩, ?_⟩
        rintro ⟨j, hj, hloud⟩
        rw [readsNeeded_of_le hle hn, Nat.lt_one_iff] at hj
        rw [hj] at hloud
        exact absurd hquiet hloud
      · -- the rest of the message needs one operation less
        have hlt : n < remaining.length := by omega
        obtain ⟨r', hr', hranges, hloop⟩ :=
          readPipeLoop_of_lt fuel h (hadd _ _ (by omega)) hquiet hlt
        have hlen : (got ++ remaining.take n).length + (remaining.drop n).length
            = got.length + remaining.length := by
          rw [List.length_append, List.length_take, List.length_drop]
          omega
        have hdrop : (remaining.drop n).length = remaining.length - n := List.length_drop
        obtain ⟨returned, hret, hin, hok, herr⟩ :=
          ih hr' (fun a b hab => hadd a b (by omega)) (by omega)
        rw [hdrop, hranges] at hok herr
        rw [readsNeeded_of_lt hlt hn]
        refine ⟨returned, hloop.trans hret, hin, ?_, ?_⟩
        · intro hall
          rw [List.append_assoc, List.take_append_drop] at hok
          apply hok
          intro j hj
          have hnext := hall (j + 1) (by omega)
          rwa [Nat.add_comm j, ← Nat.add_assoc] at hnext
        · rintro ⟨j, hj, hloud⟩
          cases j with
          | zero => exact absurd hquiet hloud
          | succ j =>
            apply herr
            refine ⟨j, by omega, ?_⟩
            rwa [Nat.add_comm j, ← Nat.add_assoc] at hloud
    · obtain ⟨returned, hret, herr, hin⟩ :=
        @readPipeLoop_of_not_quiet add _ _ _ _ _ _ fuel h hquiet
      refine ⟨returned, hret, hin, ?_, fun _ => herr⟩
      intro hall
      exact absurd (hall 0 readsNeeded_pos) hquiet

/-- **`ReadPipe`** on a pipe with a message. -/
theorem readPipe_spec (hn : 0 < n) (message : List UInt8) (rest : Pipe)
    (hadd : ∀ a b, a + b ≤ message.length → add a b = a + b) :
    ∃ returned, readPipe add n (fun k => readFileOverlapped (completion k)) (message :: rest)
        = some returned ∧
      (∀ range ∈ returned.ranges, range.Inside) ∧
      ((∀ k < readsNeeded message.length n, (completion k).Quiet) →
        returned.outcome = .ok message ∧ returned.pipe = rest) ∧
      ((∃ k < readsNeeded message.length n, ¬ (completion k).Quiet) →
        ∃ e, returned.outcome = .error e) := by
  have hspec := readPipeLoop_spec completion hn (holds_start n message rest) (by simpa using hadd)
    (Nat.lt_succ_self message.length)
  simp only [Reading.start, List.length_nil, Nat.zero_add, List.nil_append] at hspec
  exact hspec

end

end Win32Experiments.NamedPipe
