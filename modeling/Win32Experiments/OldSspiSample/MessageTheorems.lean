import Win32Experiments.OldSspiSample.FramingTheorems
import Win32Experiments.OldSspiSample.Message

/-!
# The encrypted message round-trips, and its size field is trusted

* `encryptThis_eq`, `window_layout`: the buffer of `EncryptThis` starts with the size field, the
  trailer as long as it came out, and the ciphertext;
* `decryptThis_encryptThis`: `DecryptThis` finds them there again and returns the message;
* `safe_iff`: on any other bytes it stays inside what was received exactly if the first four
  bytes are there and leave room for the trailer that they announce.
-/

namespace Win32Experiments.OldSspiSample

open Foundation Sspi

/-! ## The layout of `EncryptThis` -/

theorem length_malloc (memory : ℕ → UInt8) (size : ℕ) : (malloc memory size).length = size := by
  rw [malloc, List.length_map, List.length_range]

/-- A trailer, the size field in front of it and the data behind it, written in this order. -/
theorem window_layout {block field trailer data : List UInt8}
    (h : field.length + trailer.length + data.length ≤ block.length) :
    window (store (store (store block field.length trailer) 0 field)
        (trailer.length + field.length) data)
      0 (field.length + trailer.length + data.length) = field ++ trailer ++ data := by
  have hcomm : trailer.length + field.length = field.length + trailer.length := Nat.add_comm _ _
  set block₁ := store block field.length trailer with hblock₁
  set block₂ := store block₁ 0 field with hblock₂
  have hlen₁ : block₁.length = block.length := length_store (by omega)
  have hlen₂ : block₂.length = block₁.length := length_store (by omega)
  -- the field is written in front of the trailer and leaves it alone
  have htrailer : window block₂ field.length trailer.length = trailer := by
    rw [hblock₂, window_store_after (by omega) (by omega), hblock₁]
    exact window_store_self (by omega)
  have hfield : window block₂ 0 field.length = field := window_store_self (Nat.zero_le _)
  have hfront : window block₂ 0 (field.length + trailer.length) = field ++ trailer := by
    rw [window_add, Nat.zero_add, hfield, htrailer]
  have happend := @window_store_append _ block₂ data 0 (field.length + trailer.length) (by omega)
  rw [Nat.zero_add, hfront] at happend
  rw [hcomm, happend]

section

variable {sspi : MessageSecurity} {cbSecurityTrailer : ℕ} (memory : ℕ → UInt8)
  (message : List UInt8)

/-- What `EncryptThis` returns, when no sum of sizes wraps. -/
theorem encryptThis_eq {enc : Encryption} (hsspi : MessageContract sspi cbSecurityTrailer)
    (hsize : cbSecurityTrailer + message.length + 4 < 2 ^ 32)
    (henc : sspi.encryptMessage cbSecurityTrailer message = enc) :
    encryptThis sspi memory message cbSecurityTrailer = some
      { output := store (store (store (malloc memory (cbSecurityTrailer + message.length + 4))
          4 enc.trailer) 0 (leBytes 4 enc.trailer.length)) (enc.trailer.length + 4) enc.data
        cbOutput := 4 + enc.trailer.length + enc.data.length
        writes := [⟨4, cbSecurityTrailer⟩, ⟨0, 4⟩, ⟨enc.trailer.length + 4, message.length⟩] } := by
  have hsucceeds := hsspi.succeeds message
  have hdata := hsspi.length_data message
  have htrailer := hsspi.length_trailer message
  rw [henc] at hsucceeds hdata htrailer
  have hroom : addW 32 cbSecurityTrailer message.length = cbSecurityTrailer + message.length :=
    addW_of_lt (by omega)
  have hcount : addW 32 (addW 32 message.length enc.trailer.length) 4
      = 4 + enc.trailer.length + enc.data.length := by
    have hsum : addW 32 message.length enc.trailer.length
        = message.length + enc.trailer.length := addW_of_lt (by omega)
    rw [hsum, addW_of_lt (by omega)]
    omega
  have htake : enc.data.take message.length = enc.data := List.take_of_length_le (by omega)
  simp only [encryptThis, henc, hsucceeds, Bool.true_eq_false, if_false, hroom, hcount, htake]

/-- `EncryptThis` writes nowhere but in the buffer it allocated, whose first bytes are the size
field, the trailer and the ciphertext. -/
theorem encryptThis_layout {enc : Encryption} (hsspi : MessageContract sspi cbSecurityTrailer)
    (hsize : cbSecurityTrailer + message.length + 4 < 2 ^ 32)
    (henc : sspi.encryptMessage cbSecurityTrailer message = enc) :
    ∃ e, encryptThis sspi memory message cbSecurityTrailer = some e ∧
      (∀ w ∈ e.writes, w.Within e.output.length) ∧
      e.cbOutput = 4 + enc.trailer.length + enc.data.length ∧
      window e.output 0 e.cbOutput
        = leBytes 4 enc.trailer.length ++ enc.trailer ++ enc.data := by
  have hdata := hsspi.length_data message
  have htrailer := hsspi.length_trailer message
  rw [henc] at hdata htrailer
  have hfield : (leBytes 4 enc.trailer.length).length = 4 := length_leBytes _ _
  set block := malloc memory (cbSecurityTrailer + message.length + 4) with hblock
  have hmalloc : block.length = cbSecurityTrailer + message.length + 4 := length_malloc _ _
  have hwindow := @window_layout block (leBytes 4 enc.trailer.length) enc.trailer enc.data
    (by omega)
  rw [hfield] at hwindow
  refine ⟨_, encryptThis_eq memory message hsspi hsize henc, ?_, rfl, hwindow⟩
  -- the last of the three stores is behind what `EncryptMessage` may have written
  have hlen₁ : (store block 4 enc.trailer).length = block.length := length_store (by omega)
  have hlen₂ : (store (store block 4 enc.trailer) 0 (leBytes 4 enc.trailer.length)).length
      = block.length := by
    rw [length_store (by omega), hlen₁]
  have hlen : (store (store (store block 4 enc.trailer) 0 (leBytes 4 enc.trailer.length))
      (enc.trailer.length + 4) enc.data).length = block.length := by
    rw [length_store (by omega), hlen₂]
  intro w hw
  rw [hlen]
  simp only [List.mem_cons, List.not_mem_nil, or_false] at hw
  rcases hw with rfl | rfl | rfl
  · rw [Extent.within_mk]
    omega
  · rw [Extent.within_mk]
    omega
  · rw [Extent.within_mk]
    omega

end

/-! ## `DecryptThis` -/

section

variable (trailer data rest : List UInt8)

/-- The bytes that `EncryptThis` sends, and what is behind them in the client's buffer. -/
def received : List UInt8 := leBytes 4 trailer.length ++ trailer ++ data ++ rest

theorem window_received_field :
    window (received trailer data rest) 0 4 = leBytes 4 trailer.length := by
  have hfield : (leBytes 4 trailer.length).length = 4 := length_leBytes _ _
  rw [received, List.append_assoc, List.append_assoc, window_append_left (by omega), ← hfield]
  exact List.take_length

theorem window_received_trailer :
    window (received trailer data rest) 4 trailer.length = trailer := by
  have hfield : (leBytes 4 trailer.length).length = 4 := length_leBytes _ _
  rw [received, List.append_assoc, window_append_left (by rw [List.length_append]; omega),
    ← hfield]
  exact window_append_right

theorem window_received_data :
    window (received trailer data rest) (4 + trailer.length) data.length = data := by
  have hlen : 4 + trailer.length = (leBytes 4 trailer.length ++ trailer).length := by
    rw [List.length_append, length_leBytes]
  rw [received, window_append_left (by rw [List.length_append]; omega), hlen]
  exact window_append_right

variable {trailer data rest}

/-- `DecryptThis` on a size field, as long a trailer and data, with anything behind them. -/
theorem decryptThis_received {sspi : MessageSecurity} {plain : List UInt8}
    (hsize : 4 + trailer.length + data.length < 2 ^ 32)
    (hplain : sspi.decryptMessage trailer data = (.SEC_E_OK, plain)) :
    decryptThis sspi (received trailer data rest) (4 + trailer.length + data.length) =
      { sigBuffer := ⟨.SECBUFFER_TOKEN, trailer.length, 4⟩
        dataBuffer := ⟨.SECBUFFER_DATA, data.length, 4 + trailer.length⟩
        status := .SEC_E_OK
        buffer := store (received trailer data rest) (4 + trailer.length) plain
        pDataBuffer := 4 + trailer.length
        cbMessage := data.length } := by
  have hvalue : leValue (leBytes 4 trailer.length) = trailer.length :=
    leValue_leBytes (by omega)
  have hcount : subW 32 (subW 32 (4 + trailer.length + data.length) trailer.length) 4
      = data.length := by
    have hfirst : subW 32 (4 + trailer.length + data.length) trailer.length
        = 4 + data.length := by
      rw [subW_of_le (by omega) (by omega)]
      omega
    rw [hfirst, subW_of_le (by omega) (by omega)]
    omega
  simp only [decryptThis, window_received_field, hvalue, window_received_trailer, hcount,
    window_received_data, hplain]

end

/-- `DecryptThis` of `buffer` has handed the trailer and the ciphertext of `enc` to
`DecryptMessage`, and its pointer and length denote `message`. -/
structure Decrypted.Undoes (d : Decrypted) (buffer : List UInt8) (enc : Encryption)
    (message : List UInt8) : Prop where
  trailer : window buffer d.sigBuffer.pvBuffer d.sigBuffer.cbBuffer = enc.trailer
  data : window buffer d.dataBuffer.pvBuffer d.dataBuffer.cbBuffer = enc.data
  status : d.status = .SEC_E_OK
  message : window d.buffer d.pDataBuffer d.cbMessage = message

/-- **The round trip.** `EncryptThis` stays in the buffer it allocated, and what it builds, at the
front of the client's buffer, makes `DecryptThis` hand over the trailer and the ciphertext and
return the message. -/
theorem decryptThis_encryptThis {sspi : MessageSecurity} {cbSecurityTrailer : ℕ}
    (hsspi : MessageContract sspi cbSecurityTrailer) (memory : ℕ → UInt8)
    (message rest : List UInt8) (hsize : cbSecurityTrailer + message.length + 4 < 2 ^ 32) :
    ∃ e, encryptThis sspi memory message cbSecurityTrailer = some e ∧
      (∀ w ∈ e.writes, w.Within e.output.length) ∧
      (decryptThis sspi (window e.output 0 e.cbOutput ++ rest) e.cbOutput).Undoes
        (window e.output 0 e.cbOutput ++ rest)
        (sspi.encryptMessage cbSecurityTrailer message) message := by
  have hdata := hsspi.length_data message
  have htrailer := hsspi.length_trailer message
  have hinverts := hsspi.inverts message
  generalize henc : sspi.encryptMessage cbSecurityTrailer message = enc at hdata htrailer hinverts ⊢
  obtain ⟨e, he, hwrites, hcount, hwindow⟩ := encryptThis_layout memory message hsspi hsize henc
  have hdecrypt := @decryptThis_received enc.trailer enc.data rest sspi message (by omega) hinverts
  have hbuffer : window e.output 0 e.cbOutput ++ rest = received enc.trailer enc.data rest := by
    rw [hwindow, received]
  refine ⟨e, he, hwrites, ?_⟩
  rw [hbuffer, hcount, hdecrypt]
  refine ⟨window_received_trailer _ _ _, window_received_data _ _ _, rfl, ?_⟩
  -- the message replaces the ciphertext, which is as long
  show window (store _ (4 + enc.trailer.length) message) (4 + enc.trailer.length)
    enc.data.length = _
  rw [hdata]
  refine window_store_self ?_
  rw [received, List.length_append, List.length_append, List.length_append, length_leBytes]
  omega

/-- Bytes shifted by one, behind a trailer of one byte where two were allowed for. -/
def shifting : MessageSecurity where
  encryptMessage _ m := ⟨.SEC_E_OK, [170], m.map (· + 1)⟩
  decryptMessage _ data := (.SEC_E_OK, data.map (· - 1))

theorem shifting_contract : MessageContract shifting 2 where
  succeeds _ := rfl
  length_data _ := List.length_map _
  length_trailer _ := Nat.le_succ 1
  inverts m := by simp [shifting, Function.comp_def]

theorem decryptThis_encryptThis_shifting :
    ∃ e, encryptThis shifting (fun _ => 205) [72, 105] 2 = some e ∧
      (∀ w ∈ e.writes, w.Within e.output.length) ∧
      (decryptThis shifting (window e.output 0 e.cbOutput ++ [204]) e.cbOutput).Undoes
        (window e.output 0 e.cbOutput ++ [204]) (shifting.encryptMessage 2 [72, 105])
        [72, 105] :=
  decryptThis_encryptThis shifting_contract _ [72, 105] [204] (by decide)

/-! ## Bytes from the peer -/

/-- Four bytes have arrived, and behind them as many as they announce; or none have. -/
def AnnouncesTrailer (bytes : List UInt8) : Prop :=
  bytes = [] ∨ 4 + leValue (bytes.take 4) ≤ bytes.length

instance (bytes : List UInt8) : Decidable (AnnouncesTrailer bytes) :=
  inferInstanceAs (Decidable (_ ∨ _))

/-- `DecryptThis` on the bytes received, which stand at the front of the buffer. -/
theorem staysInside_iff (sspi : MessageSecurity) {data bytes : List UInt8}
    (hlt : bytes.length < 2 ^ 32) :
    (decryptThis sspi (store data 0 bytes) bytes.length).StaysInside bytes.length ↔
      4 + leValue (bytes.take 4) ≤ bytes.length := by
  have hstore : store data 0 bytes = bytes ++ data.drop bytes.length := by
    rw [store, List.take_zero, List.nil_append, Nat.zero_add]
  constructor
  · intro h
    have hfour : 0 + 4 ≤ bytes.length := h.sizeField
    have hunder := h.noUnderflow
    change leValue (window (store data 0 bytes) 0 4) + 4 ≤ bytes.length at hunder
    rw [hstore, window_append_left hfour] at hunder
    change leValue (bytes.take 4) + 4 ≤ bytes.length at hunder
    omega
  · intro h
    have hfield : window (store data 0 bytes) 0 4 = bytes.take 4 := by
      rw [hstore, window_append_left (by omega)]
      rfl
    -- neither subtraction wraps
    have hcount : subW 32 (subW 32 bytes.length (leValue (bytes.take 4))) 4
        = bytes.length - leValue (bytes.take 4) - 4 := by
      have hfirst : subW 32 bytes.length (leValue (bytes.take 4))
          = bytes.length - leValue (bytes.take 4) := subW_of_le hlt (by omega)
      rw [hfirst, subW_of_le (by omega) (by omega)]
    refine ⟨?_, ?_, ?_, ?_⟩
    · rw [Extent.within_mk]
      omega
    · show 4 + leValue (window (store data 0 bytes) 0 4) ≤ bytes.length
      rw [hfield]
      omega
    · show 4 + leValue (window (store data 0 bytes) 0 4) + subW 32
        (subW 32 bytes.length (leValue (window (store data 0 bytes) 0 4))) 4 ≤ bytes.length
      rw [hfield, hcount]
      omega
    · show leValue (window (store data 0 bytes) 0 4) + 4 ≤ bytes.length
      rw [hfield]
      omega

/-- **The bounds.** Whatever arrives, however it is cut into `recv` chunks and whatever the buffer
held before, the client rejects it or stays inside it exactly if nothing has arrived or what has
arrived holds the trailer that it announces. -/
theorem safe_iff (sspi : MessageSecurity) (data stream : List UInt8)
    (outcomes : List RecvOutcome) :
    (receiveMessage sspi data stream outcomes).Safe ↔
      ((receiveBytes BIG_BUFF stream outcomes).result = some true →
        AnnouncesTrailer (receiveBytes BIG_BUFF stream outcomes).stored) := by
  obtain ⟨-, hread, hle⟩ := receiveBytes_spec BIG_BUFF stream outcomes
  have hint : (toInt32 BIG_BUFF).toNat = 2048 := by decide
  rw [hint] at hle
  simp only [receiveMessage]
  generalize receiveBytes BIG_BUFF stream outcomes = r at hread hle ⊢
  obtain ⟨result, bytes, cbRead, stream', outcomes'⟩ := r
  simp only at hread hle
  subst hread
  match result with
  | none => exact iff_of_true trivial nofun
  | some false => exact iff_of_true trivial nofun
  | some true =>
    simp only [true_implies]
    split
    · next hzero => exact iff_of_true trivial (Or.inl (List.length_eq_zero_iff.mp hzero))
    · next hpos =>
      have hne : bytes ≠ [] := fun hnil => hpos (by rw [hnil]; rfl)
      rw [AnnouncesTrailer, or_iff_right hne]
      exact staysInside_iff sspi (by omega)

/-- Five bytes that announce a trailer of 255 bytes. -/
theorem announcedTrailer_counterexample :
    ¬ (receiveMessage shifting (List.replicate BIG_BUFF 0) [255, 0, 0, 0, 7]
      [.chunk 4, .closed]).Safe := by
  intro h
  have hunder : 255 + 4 ≤ 5 := h.noUnderflow
  omega

end Win32Experiments.OldSspiSample
