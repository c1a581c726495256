import Win32Experiments.WebSocketProto.WinHttpWebSocket

/-!
# `Receive` reassembles messages

The string of a call always has 2048 bytes, and the fragments stand at its front; the pointer
and the length offered are what lies behind them. So `Receive` returns the message when it
fills the string exactly, and no fragment may do so before.
-/

namespace Win32Experiments.WebSocketProto

open Foundation

/-! ## Statements -/

/-- A call that returns true has collected the message in the caller's string, no fragment was
written outside the string, and no call was made with a zero-length buffer. -/
structure Reassembles (s : WinHttpWebSocket) : Prop where
  collected : ∀ call ∈ s.ended, call.outcome = .returned true →
    call.charBuffer = call.fragments.flatten
  inside : ∀ range ∈ s.written, range.1 + range.2 ≤ initialSize
  offered : ∀ length ∈ s.offered, 0 < length

/-- The bytes of the message so far leave room in the string while the message is unfinished,
and fill it exactly when it is finished. -/
def FillsExactly (s : WinHttpWebSocket) : Event → Prop
  | .receive => True
  | .reply (.error _) => True
  | .reply (.received bytes type) => ∀ r ∈ s.receiving,
    if type = .close then True
    else if type.isFragment then (r.fragments ++ [bytes]).flatten.length < initialSize
    else (r.fragments ++ [bytes]).flatten.length = initialSize

instance (s : WinHttpWebSocket) : ∀ e : Event, Decidable (FillsExactly s e)
  | .receive => isTrue trivial
  | .reply (.error _) => isTrue trivial
  | .reply (.received bytes type) =>
    inferInstanceAs (Decidable (∀ r ∈ s.receiving,
      if type = .close then True
      else if type.isFragment then (r.fragments ++ [bytes]).flatten.length < initialSize
      else (r.fragments ++ [bytes]).flatten.length = initialSize))

/-! ## The locals of a call -/

/-- The fragments stand at the front of the string; the pointer and the length offered are the
rest of it. -/
structure Receiving.Valid (r : Receiving) : Prop where
  size : r.charBuffer.length = initialSize
  room : r.pbCurrentBufferPointer + r.dwBufferLength = initialSize
  filled : window r.charBuffer 0 r.pbCurrentBufferPointer = r.fragments.flatten

theorem valid_start : Receiving.start.Valid where
  size := List.length_replicate
  room := rfl
  filled := rfl

/-- The pointer counts the bytes of the fragments. -/
theorem Receiving.Valid.length_flatten {r : Receiving} (h : r.Valid) :
    r.fragments.flatten.length = r.pbCurrentBufferPointer := by
  have hroom := h.room
  have hsize := h.size
  rw [← h.filled]
  apply length_window
  omega

/-- A buffer that fits is appended. -/
theorem valid_store {r : Receiving} (h : r.Valid) {bytes : List UInt8}
    (hfits : bytes.length ≤ r.dwBufferLength) : (r.store bytes).Valid := by
  have hroom := h.room
  have hsize := h.size
  have hword : initialSize < 2 ^ 32 := by decide
  constructor
  · rw [← h.size]
    apply length_store
    omega
  · rw [Receiving.store, subW_of_le (by omega) hfits]
    show r.pbCurrentBufferPointer + bytes.length + (r.dwBufferLength - bytes.length) = _
    omega
  · have happend := @window_store_append _ r.charBuffer bytes 0 r.pbCurrentBufferPointer (by omega)
    rw [Nat.zero_add] at happend
    rw [Receiving.store, happend, h.filled]
    simp

/-- The length offered next is what the fragments leave of the string. -/
theorem Receiving.Valid.dwBufferLength_eq {r : Receiving} (h : r.Valid) :
    r.dwBufferLength = initialSize - r.fragments.flatten.length := by
  have hroom := h.room
  rw [h.length_flatten]
  omega

/-- The string is the message exactly when the message fills it. -/
theorem Receiving.Valid.charBuffer_eq_iff {r : Receiving} (h : r.Valid) :
    r.charBuffer = r.fragments.flatten ↔ r.fragments.flatten.length = initialSize := by
  constructor
  · intro heq
    rw [← heq, h.size]
  · intro hlen
    rw [h.length_flatten] at hlen
    rw [← h.filled, hlen, ← h.size]
    simp [window]

/-! ## Steps -/

/-- The locals are valid, and what was written lies in the string. -/
structure WinHttpWebSocket.Located (s : WinHttpWebSocket) : Prop where
  receiving : ∀ r ∈ s.receiving, r.Valid
  inside : ∀ range ∈ s.written, range.1 + range.2 ≤ initialSize

theorem located_connected : WinHttpWebSocket.connected.Located where
  receiving := by simp [WinHttpWebSocket.connected]
  inside := by simp [WinHttpWebSocket.connected]

theorem reassembles_connected : Reassembles .connected where
  collected := by simp [WinHttpWebSocket.connected]
  inside := by simp [WinHttpWebSocket.connected]
  offered := by simp [WinHttpWebSocket.connected]

section

variable {s : WinHttpWebSocket} {charBuffer : List UInt8} {r : Receiving} {bytes : List UInt8}
  {type : BufferType}

theorem receive_eq_of_connected (h : s.status = .Connected) :
    s.receive charBuffer = s.offer .start := by
  rw [WinHttpWebSocket.receive, if_neg (not_not.mpr h)]

theorem receive_eq_of_ne (h : s.status ≠ .Connected) :
    s.receive charBuffer = { s with
      ended := s.ended ++
        [⟨.threw "WebSocket is not connected to receive data", charBuffer, []⟩] } := by
  rw [WinHttpWebSocket.receive, if_pos h]

theorem located_receive (h : s.Located) : (s.receive charBuffer).Located := by
  by_cases hconnected : s.status = .Connected
  · rw [receive_eq_of_connected hconnected]
    constructor
    · intro r hr
      obtain rfl := Option.some.inj hr
      exact valid_start
    · exact h.inside
  · rw [receive_eq_of_ne hconnected]
    exact ⟨h.receiving, h.inside⟩

/-- What a reply writes lies behind the earlier fragments. -/
theorem inside_written (h : s.Located) (hr : s.receiving = some r)
    (hfits : bytes.length ≤ r.dwBufferLength) :
    ∀ range ∈ s.written ++ [(r.pbCurrentBufferPointer, bytes.length)],
      range.1 + range.2 ≤ initialSize := by
  have hroom := (h.receiving r hr).room
  intro range hmem
  rcases List.mem_append.mp hmem with hmem | hmem
  · exact h.inside range hmem
  · rw [List.mem_singleton.mp hmem]
    show r.pbCurrentBufferPointer + bytes.length ≤ initialSize
    omega

theorem located_reply {reply : Reply} (h : s.Located) (hr : s.receiving = some r)
    (hfits : s.Fits (.reply reply)) : (s.reply r reply).Located := by
  cases reply with
  | error lastError => exact ⟨by simp [WinHttpWebSocket.reply, WinHttpWebSocket.finish], h.inside⟩
  | received bytes type =>
    have hbytes : bytes.length ≤ r.dwBufferLength := hfits r hr
    have hwritten := inside_written h hr hbytes
    simp only [WinHttpWebSocket.reply]
    split_ifs with hclose hfragment
    · exact ⟨by simp [WinHttpWebSocket.finish], hwritten⟩
    · -- the message is unfinished
      refine ⟨?_, hwritten⟩
      intro r' hr'
      obtain rfl := Option.some.inj hr'
      exact valid_store (h.receiving r hr) hbytes
    · exact ⟨by simp [WinHttpWebSocket.finish], hwritten⟩

end

theorem located_step {s t : WinHttpWebSocket} {e : Event} (h : s.Located) (hfits : s.Fits e)
    (hstep : s.step e = some t) : t.Located := by
  rcases WinHttpWebSocket.step_cases hstep with ⟨_, _, charBuffer, rfl⟩ | ⟨reply, r, rfl, hr, rfl⟩
  · exact located_receive h
  · exact located_reply h hr hfits

/-! ## What a step adds to the record -/

section

variable {s : WinHttpWebSocket} {r : Receiving}

theorem reassembles_def : Reassembles s ↔
    (∀ call ∈ s.ended, call.outcome = .returned true →
      call.charBuffer = call.fragments.flatten) ∧
    (∀ range ∈ s.written, range.1 + range.2 ≤ initialSize) ∧
    ∀ length ∈ s.offered, 0 < length :=
  ⟨fun h => ⟨h.collected, h.inside, h.offered⟩, fun h => ⟨h.1, h.2.1, h.2.2⟩⟩

/-- Another call has ended. -/
theorem reassembles_finish_iff {outcome : Outcome} :
    Reassembles (s.finish r outcome) ↔
      Reassembles s ∧ (outcome = .returned true → r.charBuffer = r.fragments.flatten) := by
  simp only [reassembles_def, WinHttpWebSocket.finish, List.forall_mem_append,
    List.forall_mem_singleton]
  tauto

/-- Another buffer has been offered. -/
theorem reassembles_offer_iff : Reassembles (s.offer r) ↔ Reassembles s ∧ 0 < r.dwBufferLength := by
  simp only [reassembles_def, WinHttpWebSocket.offer, List.forall_mem_append,
    List.forall_mem_singleton]
  tauto

/-- Another range of the string has been written. -/
theorem reassembles_written_iff {range : ℕ × ℕ} (hrange : range.1 + range.2 ≤ initialSize) :
    Reassembles { s with written := s.written ++ [range] } ↔ Reassembles s := by
  simp only [reassembles_def, List.forall_mem_append, List.forall_mem_singleton]
  tauto

theorem reassembles_receive_iff {charBuffer : List UInt8} :
    Reassembles (s.receive charBuffer) ↔ Reassembles s := by
  by_cases hconnected : s.status = .Connected
  · rw [receive_eq_of_connected hconnected, reassembles_offer_iff, and_iff_left]
    decide
  · rw [receive_eq_of_ne hconnected]
    simp only [reassembles_def, List.forall_mem_append, List.forall_mem_singleton]
    simp

end

/-- A reply keeps the record right exactly when its bytes leave room in an unfinished message
or fill the string with a finished one. -/
theorem reassembles_reply_iff {s : WinHttpWebSocket} {r : Receiving} {reply : Reply}
    (h : s.Located) (hr : s.receiving = some r) (hfits : s.Fits (.reply reply)) :
    Reassembles (s.reply r reply) ↔ Reassembles s ∧ FillsExactly s (.reply reply) := by
  cases reply with
  | error lastError =>
    rw [WinHttpWebSocket.reply, reassembles_finish_iff]
    simp [FillsExactly]
  | received bytes type =>
    have hbytes : bytes.length ≤ r.dwBufferLength := hfits r hr
    have hvalid := valid_store (h.receiving r hr) hbytes
    have hwritten := @reassembles_written_iff s (r.pbCurrentBufferPointer, bytes.length)
      (inside_written h hr hbytes _ (List.mem_append_right _ (List.mem_singleton_self _)))
    have hfills : FillsExactly s (.reply (.received bytes type)) ↔
        if type = .close then True
        else if type.isFragment then (r.fragments ++ [bytes]).flatten.length < initialSize
        else (r.fragments ++ [bytes]).flatten.length = initialSize := by
      simp only [FillsExactly, hr, Option.mem_def, Option.some.injEq, forall_eq']
    rw [hfills]
    simp only [WinHttpWebSocket.reply]
    split_ifs with hclose hfragment
    · rw [reassembles_finish_iff, and_iff_left (by simp), and_true, ← hwritten]
      exact ⟨fun h => ⟨h.collected, h.inside, h.offered⟩,
        fun h => ⟨h.collected, h.inside, h.offered⟩⟩
    · -- the next buffer offered is the room left
      rw [reassembles_offer_iff, hwritten, hvalid.dwBufferLength_eq, Nat.sub_pos_iff_lt]
      rfl
    · rw [reassembles_finish_iff, hwritten, hvalid.charBuffer_eq_iff]
      simp [Receiving.store]

theorem reassembles_step_iff {s t : WinHttpWebSocket} {e : Event} (h : s.Located)
    (hfits : s.Fits e) (hstep : s.step e = some t) :
    Reassembles t ↔ Reassembles s ∧ FillsExactly s e := by
  rcases WinHttpWebSocket.step_cases hstep with ⟨rfl, _, charBuffer, rfl⟩ | ⟨reply, r, rfl, hr, rfl⟩
  · rw [reassembles_receive_iff]
    exact (and_iff_left trivial).symm
  · exact reassembles_reply_iff h hr hfits

/-! ## Runs -/

/-- **Reassembly.** No run writes outside the string. At the end of a run every message was
collected and no zero-length buffer was offered exactly when each fragment of the run left
room in the 2048 bytes and each finished message filled them. -/
theorem reassembles_iff {events : List Event} {s : WinHttpWebSocket}
    (hfits : EachStep WinHttpWebSocket.step WinHttpWebSocket.Fits .connected events)
    (h : run WinHttpWebSocket.step .connected events = some s) :
    (∀ range ∈ s.written, range.1 + range.2 ≤ initialSize) ∧
    (Reassembles s ↔ EachStep WinHttpWebSocket.step FillsExactly .connected events) := by
  obtain ⟨hlocated, hiff⟩ := run_iff WinHttpWebSocket.Located Reassembles
    (fun _ _ _ hs hK hstep => located_step hs hK hstep)
    (fun _ _ _ hs hK hstep => reassembles_step_iff hs hK hstep) hfits h located_connected
  exact ⟨hlocated.inside, hiff.trans (and_iff_right reassembles_connected)⟩

/-- A message of 2048 bytes in two fragments, and then a close. -/
theorem reassembles_full_message :
    ∃ s, run WinHttpWebSocket.step .connected
        [.receive, .reply (.received (List.replicate 2000 7) .binaryFragment),
          .reply (.received (List.replicate 48 9) .binaryMessage),
          .receive, .reply (.received [] .close)] = some s ∧
      Reassembles s := by
  have hrun : ∃ s, run WinHttpWebSocket.step .connected
      [.receive, .reply (.received (List.replicate 2000 7) .binaryFragment),
        .reply (.received (List.replicate 48 9) .binaryMessage),
        .receive, .reply (.received [] .close)] = some s := ⟨_, rfl⟩
  obtain ⟨s, hs⟩ := hrun
  refine ⟨s, hs, (reassembles_iff ?_ hs).2.mpr ?_⟩
  · decide +kernel
  · decide +kernel

/-- A message of one byte: `Receive` returns true with a string of 2048. -/
theorem reassembles_counterexample :
    ∃ s, run WinHttpWebSocket.step .connected
        [.receive, .reply (.received [7] .binaryMessage)] = some s ∧
      s.ended = [⟨.returned true, 7 :: List.replicate 2047 0, [[7]]⟩] ∧ ¬ Reassembles s := by
  refine ⟨_, rfl, rfl, ?_⟩
  intro h
  have hcollected := h.collected _ (List.mem_singleton_self _) rfl
  have hlen := congrArg List.length hcollected
  rw [(valid_store valid_start (by decide)).size] at hlen
  contradiction

end Win32Experiments.WebSocketProto
