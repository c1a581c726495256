import Win32Experiments.WebSocketProto.ReceiveTheorems
import Win32Experiments.WebSocketProto.TestMessageTheorems

/-!
# The program prints what it sent

`main` sends an array of 256 bytes, the server sends it back, and `Receive` returns a string of
2048 bytes. Both are longer than the message; the zeros behind it end the parse.

* `padded_run`: behind the buffers of a message the string of `Receive` has zeros;
* `echo_prints`: the text is printed exactly if it has at most 253 bytes, in whatever parts the
  array comes back.
-/

namespace Win32Experiments.WebSocketProto

open Foundation

/-- `buffer.size()`. -/
def arraySize : ℕ := 256

variable {Field : Type}

/-- The array that `main` sends. -/
def sentArray (lib : Library Field) (text : List UInt8) : List UInt8 :=
  ((TestMessage.empty.setSometext text).serializeToArray lib (List.replicate arraySize 0)).2

/-- `main` prints `text` when `Receive` leaves the string `receivedBuffer`. -/
def Prints (lib : Library Field) (receivedBuffer text : List UInt8) : Prop :=
  ∃ m e, ParsesTo lib receivedBuffer m e ∧ m.sometext = text

/-! ## The string of `Receive` -/

/-- A string of 2048 bytes: the buffers, and zeros. -/
def Padded (charBuffer : List UInt8) (fragments : List (List UInt8)) : Prop :=
  charBuffer = fragments.flatten ++ List.replicate (initialSize - fragments.flatten.length) 0

/-- The call in progress and those that returned true have padded strings. -/
structure WinHttpWebSocket.Padded (s : WinHttpWebSocket) : Prop where
  located : s.Located
  receiving : ∀ r ∈ s.receiving, WebSocketProto.Padded r.charBuffer r.fragments
  ended : ∀ call ∈ s.ended, call.outcome = .returned true →
    WebSocketProto.Padded call.charBuffer call.fragments

variable {s t : WinHttpWebSocket}

/-- A buffer is written over zeros. -/
theorem padded_store {r : Receiving} (hvalid : r.Valid) (h : Padded r.charBuffer r.fragments)
    (bytes : List UInt8) : Padded (r.store bytes).charBuffer (r.store bytes).fragments := by
  have hlength := hvalid.length_flatten
  have hdrop : (r.fragments.flatten ++
      List.replicate (initialSize - r.fragments.flatten.length) (0 : UInt8)).drop
        (r.pbCurrentBufferPointer + bytes.length) =
      List.replicate (initialSize - r.fragments.flatten.length - bytes.length) 0 := by
    rw [← hlength, List.drop_length_add_append, List.drop_replicate]
  show store r.charBuffer r.pbCurrentBufferPointer bytes = _
  rw [Padded] at h
  rw [h, store, hdrop, ← hlength, List.take_left]
  show _ = (r.fragments ++ [bytes]).flatten ++ List.replicate
    (initialSize - (r.fragments ++ [bytes]).flatten.length) 0
  rw [List.flatten_append, List.flatten_singleton, List.length_append, Nat.sub_add_eq]

theorem padded_receive {charBuffer : List UInt8} (h : s.Padded) :
    (s.receive charBuffer).Padded := by
  refine ⟨located_receive h.located, ?_, ?_⟩
  · by_cases hconnected : s.status = .Connected
    · rw [receive_eq_of_connected hconnected]
      intro r hr
      rw [← Option.some.inj hr]
      exact (List.nil_append _).symm
    · rw [receive_eq_of_ne hconnected]
      exact h.receiving
  · by_cases hconnected : s.status = .Connected
    · rw [receive_eq_of_connected hconnected]
      exact h.ended
    · rw [receive_eq_of_ne hconnected]
      intro call hmem hreturned
      rcases List.mem_append.mp hmem with hmem | hmem
      · exact h.ended call hmem hreturned
      · rw [List.mem_singleton.mp hmem] at hreturned
        contradiction

/-- A call ends, with a padded string if it returns true. -/
theorem padded_finish {r : Receiving} {outcome : Outcome}
    (h : ∀ call ∈ s.ended, call.outcome = .returned true → Padded call.charBuffer call.fragments)
    (hr : outcome = .returned true → Padded r.charBuffer r.fragments) :
    ∀ call ∈ (s.finish r outcome).ended, call.outcome = .returned true →
      Padded call.charBuffer call.fragments := by
  intro call hmem hreturned
  rcases List.mem_append.mp hmem with hmem | hmem
  · exact h call hmem hreturned
  · rw [List.mem_singleton.mp hmem] at hreturned ⊢
    exact hr hreturned

theorem padded_reply {r : Receiving} {reply : Reply} (h : s.Padded) (hr : s.receiving = some r)
    (hfits : s.Fits (.reply reply)) : (s.reply r reply).Padded := by
  have hlocated := located_reply h.located hr hfits
  cases reply with
  | error lastError =>
    exact ⟨hlocated, by simp [WinHttpWebSocket.reply, WinHttpWebSocket.finish],
      padded_finish h.ended fun hreturned => absurd hreturned (by simp)⟩
  | received bytes type =>
    have hstore := padded_store (h.located.receiving r hr) (h.receiving r hr) bytes
    revert hlocated
    simp only [WinHttpWebSocket.reply]
    split_ifs with hclose hfragment
    · exact fun hlocated => ⟨hlocated, by simp [WinHttpWebSocket.finish],
        padded_finish h.ended fun hreturned => absurd hreturned (by simp)⟩
    · -- the message is unfinished
      refine fun hlocated => ⟨hlocated, ?_, h.ended⟩
      intro r' hr'
      rw [← Option.some.inj hr']
      exact hstore
    · exact fun hlocated => ⟨hlocated, by simp [WinHttpWebSocket.finish],
        padded_finish h.ended fun _ => hstore⟩

theorem padded_step {e : Event} (h : s.Padded) (hfits : s.Fits e) (hstep : s.step e = some t) :
    t.Padded := by
  rcases WinHttpWebSocket.step_cases hstep with ⟨_, _, charBuffer, rfl⟩ | ⟨reply, r, rfl, hr, rfl⟩
  · exact padded_receive h
  · exact padded_reply h hr hfits

/-- In every run, what a call that returned true has collected stands in front of zeros. -/
theorem padded_run {events : List Event}
    (hfits : EachStep WinHttpWebSocket.step WinHttpWebSocket.Fits .connected events)
    (h : run WinHttpWebSocket.step .connected events = some s) : s.Padded :=
  run_invariant_of WinHttpWebSocket.Padded (fun _ _ _ => padded_step) hfits h
    ⟨located_connected, nofun, nofun⟩

/-! ## The parse of a padded message -/

section Parse

variable {lib : Library Field} {text : List UInt8}

/-- The message that `main` sends. -/
theorem serialize_text (hlib : lib.Contract) (hne : text ≠ []) :
    (TestMessage.empty.setSometext text).serialize lib =
      [10] ++ (varint text.length ++ text) := by
  unfold TestMessage.serialize TestMessage.setSometext TestMessage.empty
  rw [if_pos (List.length_pos_iff.mpr hne), hlib.writeString, varint_tag, List.flatMap_nil,
    List.append_nil]

/-- A message of up to 253 bytes fits. -/
theorem byteSizeLong_le_iff (hlib : lib.Contract) :
    (TestMessage.empty.setSometext text).byteSizeLong lib ≤ arraySize ↔ text.length ≤ 253 := by
  rw [byteSizeLong_eq hlib]
  by_cases hnil : text = []
  · rw [hnil]
    exact iff_of_true (Nat.zero_le _) (Nat.zero_le _)
  rw [serialize_text hlib hnil, List.length_append, List.length_append, List.length_singleton]
  have harray : arraySize = 256 := rfl
  by_cases hbyte : text.length < 128
  · rw [length_varint (by omega), if_pos hbyte]
    omega
  · have hlong := lt_length_varint (Nat.not_lt.mp hbyte)
    by_cases hsmall : text.length < 128 * 128
    · rw [length_varint hsmall, if_neg hbyte]
      omega
    · omega

/-- What of the array is not zeros. -/
def sentFront (lib : Library Field) (text : List UInt8) : List UInt8 :=
  if text.length ≤ 253 then (TestMessage.empty.setSometext text).serialize lib else []

/-- The array is the message and zeros, or zeros only. -/
theorem sentArray_eq (hlib : lib.Contract) :
    sentArray lib text =
      sentFront lib text ++ List.replicate (arraySize - (sentFront lib text).length) 0 := by
  have hfits := @byteSizeLong_le_iff _ _ text hlib
  unfold sentArray TestMessage.serializeToArray sentFront
  rw [List.length_replicate]
  by_cases hshort : text.length ≤ 253
  · rw [if_pos (hfits.mpr hshort), if_pos hshort]
    show store _ 0 _ = _
    rw [store, List.take_zero, List.nil_append, Nat.zero_add, List.drop_replicate]
  · rw [if_neg (mt hfits.mp hshort), if_neg hshort]
    rfl

theorem length_sentArray (hlib : lib.Contract) : (sentArray lib text).length = arraySize := by
  have hlen := byteSizeLong_eq hlib (TestMessage.empty.setSometext text)
  have hfits := @byteSizeLong_le_iff _ _ text hlib
  have hle : (sentFront lib text).length ≤ arraySize := by
    unfold sentFront
    split
    · next hshort =>
      have := hfits.mpr hshort
      omega
    · exact Nat.zero_le _
  rw [sentArray_eq hlib, List.length_append, List.length_replicate]
  omega

/-- `Receive` leaves the message in front of a zero, or zeros only. -/
theorem exists_charBuffer_eq (hlib : lib.Contract) {charBuffer : List UInt8}
    {fragments : List (List UInt8)} (h : Padded charBuffer fragments)
    (hecho : fragments.flatten = sentArray lib text) :
    ∃ zeros, charBuffer = sentFront lib text ++ 0 :: zeros := by
  obtain ⟨k, hk⟩ : ∃ k, initialSize - arraySize = k + 1 := ⟨1791, by decide⟩
  rw [Padded, hecho, length_sentArray hlib, hk, sentArray_eq hlib, List.append_assoc,
    List.replicate_append_replicate, ← Nat.add_assoc, List.replicate_succ] at h
  exact ⟨_, h⟩

/-- The parse ends at a zero. -/
theorem parseTurn_zero (hlib : lib.Contract) (msg : TestMessage Field) (rest : List UInt8) :
    parseTurn lib ⟨msg, 0 :: rest⟩ = .error (msg, .lastTag 0) := by
  have htag : lib.readTag (0 :: rest) = some (0, rest) := by
    have hread := hlib.readTag 0 rest (by decide)
    rwa [varint_of_lt (by decide)] at hread
  rw [parseTurn, if_neg (List.cons_ne_nil _ _), htag]
  rfl

/-- A message in front of a zero is read back, its text also if it is none. -/
theorem parsesTo_text (hlib : lib.Contract) (hsize : text.length < maxSize) (rest : List UInt8) :
    ∃ m e, ParsesTo lib ((TestMessage.empty.setSometext text).serialize lib ++ 0 :: rest) m e ∧
      m.sometext = text := by
  by_cases hverify : text = [] ∨ lib.verifyUTF8 text = true
  · have hvalid : (TestMessage.empty.setSometext text : TestMessage Field).Valid lib :=
      ⟨fun hne => hverify.resolve_left hne, hsize⟩
    refine ⟨TestMessage.empty.mergeFrom (.setSometext .empty text), .lastTag 0, ?_, ?_⟩
    · exact (returns_of_reaches (reaches_serialize hlib hvalid)).mpr
        (returns_of_error (parseTurn_zero hlib _ _))
    · unfold TestMessage.mergeFrom TestMessage.setSometext TestMessage.empty
      simp only
      split
      · rfl
      · next hempty =>
        exact (List.eq_nil_of_length_eq_zero (by omega)).symm
  · rw [not_or, Bool.not_eq_true] at hverify
    refine ⟨TestMessage.empty.setSometext text, .failure, returns_of_error ?_, rfl⟩
    rw [serialize_text hlib hverify.1, List.append_assoc, List.append_assoc, ← varint_tag,
      parseTurn, if_neg (by rw [varint_tag]; exact List.cons_ne_nil _ _)]
    simp only [hlib.readTag (1 * 8 + 2) _ (by decide), hlib.readString _ _ _ hsize, hverify.2]
    rfl

end Parse

/-- What is printed is determined by the string. -/
theorem Prints.unique {lib : Library Field} {receivedBuffer text text' : List UInt8}
    (h : Prints lib receivedBuffer text) (h' : Prints lib receivedBuffer text') : text = text' := by
  obtain ⟨m, e, hparses, hm⟩ := h
  obtain ⟨m', e', hparses', hm'⟩ := h'
  have hsame := (Prod.mk.inj (Returns.unique hparses hparses')).1
  rw [← hm, ← hm', hsame]

/-- **The echo.** In every run of the socket, a call of `Receive` that returned true for the array
that `main` sent, in whatever buffers it came, has left a string of which `main` prints the text
sent if the array had room for it, and no text otherwise. -/
theorem echo_prints {lib : Library Field} {text : List UInt8} {events : List Event}
    {call : Received} (hlib : lib.Contract) (hsize : text.length < maxSize)
    (hfits : EachStep WinHttpWebSocket.step WinHttpWebSocket.Fits .connected events)
    (hrun : run WinHttpWebSocket.step .connected events = some s) (hcall : call ∈ s.ended)
    (htrue : call.outcome = .returned true) (hecho : call.fragments.flatten = sentArray lib text) :
    Prints lib call.charBuffer (if text.length ≤ 253 then text else []) ∧
      (Prints lib call.charBuffer text ↔ text.length ≤ 253) := by
  have hpadded := (padded_run hfits hrun).ended call hcall htrue
  have hprints : Prints lib call.charBuffer (if text.length ≤ 253 then text else []) := by
    obtain ⟨zeros, hzeros⟩ := exists_charBuffer_eq hlib hpadded hecho
    rw [hzeros, sentFront]
    split
    · exact parsesTo_text hlib hsize zeros
    · exact ⟨.empty, .lastTag 0, returns_of_error (parseTurn_zero hlib _ zeros), rfl⟩
  refine ⟨hprints, ?_⟩
  by_cases hshort : text.length ≤ 253
  · rw [if_pos hshort] at hprints
    exact iff_of_true hprints hshort
  · rw [if_neg hshort] at hprints
    refine iff_of_false ?_ hshort
    intro hsame
    rw [hsame.unique hprints] at hshort
    exact hshort (Nat.zero_le _)

/-- The array comes back in two buffers. -/
def echoInTwo : List Event :=
  [.receive,
    .reply (.received ([10, 4, 112, 111, 111, 112] ++ List.replicate 94 0) .binaryFragment),
    .reply (.received (List.replicate 156 0) .binaryMessage)]

/-- The text that the program sends. -/
theorem echo_prints_poop :
    ∃ s, run WinHttpWebSocket.step .connected echoInTwo = some s ∧
      ∃ call ∈ s.ended, Prints wireFormat call.charBuffer [112, 111, 111, 112] := by
  have hfits : EachStep WinHttpWebSocket.step WinHttpWebSocket.Fits .connected echoInTwo := by
    decide +kernel
  have hserialize : (TestMessage.empty.setSometext [112, 111, 111, 112]).serialize wireFormat =
      [10, 4, 112, 111, 111, 112] := by
    rw [serialize_text wireFormat_contract (by decide), varint_of_lt (by decide)]
    rfl
  have hsent : sentArray wireFormat [112, 111, 111, 112] =
      [10, 4, 112, 111, 111, 112] ++ List.replicate 250 0 := by
    rw [sentArray_eq wireFormat_contract, sentFront, if_pos (by decide), hserialize]
    rfl
  refine ⟨_, rfl, _, List.mem_singleton_self _, ?_⟩
  have hsize : ([112, 111, 111, 112] : List UInt8).length < maxSize := by decide
  refine (echo_prints wireFormat_contract hsize hfits rfl (List.mem_singleton_self _) rfl
    ?_).1
  show [[10, 4, 112, 111, 111, 112] ++ List.replicate 94 0, List.replicate 156 0].flatten = _
  rw [hsent, List.flatten_cons, List.flatten_singleton, List.append_assoc,
    List.replicate_append_replicate]

end Win32Experiments.WebSocketProto
