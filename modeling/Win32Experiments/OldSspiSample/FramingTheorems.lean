import Win32Experiments.OldSspiSample.Framing

/-!
# The framing round-trips, and trusts the length it is sent

`ReceiveMsg` reads as many bytes as the header says; the size of the caller's buffer is a
parameter it never looks at.

* `receiveLoop_spec`: what the loop of `ReceiveBytes` does to the stream, whatever happens;
* `receiveMsg_stored`: what `ReceiveMsg` stores is bounded by the header alone;
* `neverOverruns_iff`: so a stream is harmless for a buffer exactly when its header is at most
  the size of the buffer, or is negative as an `int`, or too few bytes follow it;
* `roundTrips_iff`: messages that fit survive every schedule of partial transfers, up to the
  largest `int`.
-/

namespace Win32Experiments.OldSspiSample

open Foundation

/-! ## The loop of `SendBytes` -/

@[simp] theorem sendLoop_zero (pTemp : List UInt8) (os : List SendOutcome) :
    sendLoop 0 pTemp os = ⟨some true, [], os⟩ := by
  cases os with
  | nil => rfl
  | cons o os => rfl

/-- A negative length is never sent. -/
theorem sendLoop_neg {cbRemaining : ℤ} (h : cbRemaining < 0) (pTemp : List UInt8)
    (os : List SendOutcome) : (sendLoop cbRemaining pTemp os).result ≠ some true := by
  have hne : cbRemaining ≠ 0 := by omega
  cases os with
  | nil => simp [sendLoop, hne]
  | cons o os => simp [sendLoop, hne, h]

/-- `send` calls that take at least a byte each get everything out. -/
theorem sendLoop_chunks {pTemp : List UInt8} {ns : List ℕ} (h : pTemp.length ≤ ns.length) :
    ∃ j ≤ pTemp.length, sendLoop pTemp.length pTemp (ns.map .chunk)
      = ⟨some true, pTemp, (ns.drop j).map .chunk⟩ := by
  induction ns generalizing pTemp with
  | nil =>
    have hnil : pTemp = [] := List.length_eq_zero_iff.mp (by simpa using h)
    exact ⟨0, Nat.zero_le _, by rw [hnil]; rfl⟩
  | cons n ns ih =>
    by_cases hnil : pTemp = []
    · exact ⟨0, Nat.zero_le _, by rw [hnil]; exact sendLoop_zero _ _⟩
    · have hpos := List.length_pos_iff.mpr hnil
      rw [List.length_cons] at h
      have hcount : (pTemp.drop (min (n + 1) pTemp.length)).length
          = pTemp.length - min (n + 1) pTemp.length := List.length_drop
      obtain ⟨j, hj, hrest⟩ := @ih (pTemp.drop (min (n + 1) pTemp.length)) (by omega)
      have hcast : (pTemp.length : ℤ) - (min (n + 1) pTemp.length : ℕ)
          = ((pTemp.drop (min (n + 1) pTemp.length)).length : ℕ) := by omega
      refine ⟨j + 1, by omega, ?_⟩
      rw [List.map_cons, sendLoop, if_neg (by omega), if_neg (by omega)]
      simp only [Int.toNat_natCast]
      rw [hcast, hrest, Sent.prepend, List.take_append_drop, List.drop_succ_cons]

/-- Bytes whose number is an `int` are sent whole. -/
theorem sendBytes_chunks {pBuf : List UInt8} {ns : List ℕ} (hlt : pBuf.length < 2 ^ 31)
    (h : pBuf.length ≤ ns.length) :
    ∃ j ≤ pBuf.length, sendBytes pBuf pBuf.length (ns.map .chunk)
      = ⟨some true, pBuf, (ns.drop j).map .chunk⟩ := by
  unfold sendBytes
  split
  · next hzero => exact ⟨0, Nat.zero_le _, by rw [List.length_eq_zero_iff.mp hzero]; rfl⟩
  · rw [toInt32_of_lt hlt]
    exact sendLoop_chunks h

/-! ## The loop of `ReceiveBytes` -/

@[simp] theorem receiveLoop_zero (stream : List UInt8) (os : List RecvOutcome) :
    receiveLoop 0 stream os = ⟨some true, [], 0, stream, os⟩ := by
  cases os with
  | nil => rfl
  | cons o os => rfl

/-- A front of a list followed by what is left of the list. -/
theorem take_append_drop_take (l : List UInt8) (n : ℕ) :
    l.take n ++ l.drop (l.take n).length = l := by
  by_cases hle : n ≤ l.length
  · rw [List.length_take_of_le hle, List.take_append_drop]
  · rw [List.take_of_length_le (by omega), List.drop_length, List.append_nil]

/-- The loop moves a front of the stream into the buffer, no more than was asked for, and
counts it. -/
theorem receiveLoop_spec (cbRemaining : ℤ) (stream : List UInt8) (os : List RecvOutcome) :
    (receiveLoop cbRemaining stream os).stored ++ (receiveLoop cbRemaining stream os).stream
      = stream ∧
    (receiveLoop cbRemaining stream os).cbRead
      = (receiveLoop cbRemaining stream os).stored.length ∧
    (receiveLoop cbRemaining stream os).stored.length ≤ cbRemaining.toNat := by
  have hstop : ∀ (result : Option Bool) (os : List RecvOutcome),
      let r : Received := ⟨result, [], 0, stream, os⟩
      r.stored ++ r.stream = stream ∧ r.cbRead = r.stored.length ∧
        r.stored.length ≤ cbRemaining.toNat :=
    fun _ _ => ⟨rfl, rfl, Nat.zero_le _⟩
  induction os generalizing cbRemaining stream with
  | nil => exact hstop _ _
  | cons o os ih =>
    unfold receiveLoop
    split
    · exact hstop _ _
    · split
      · exact hstop _ _
      · next hne hneg =>
        cases o with
        | closed => exact hstop _ _
        | error => exact hstop _ _
        | chunk n =>
          simp only
          split
          · exact hstop _ _
          · -- one `recv`, then the rest of the loop
            set bytes := stream.take (min (n + 1) cbRemaining.toNat) with hbytes
            have hlen : bytes.length ≤ cbRemaining.toNat := by
              rw [hbytes, List.length_take]
              omega
            have hsplit : bytes ++ stream.drop bytes.length = stream := take_append_drop_take _ _
            obtain ⟨hstream, hread, hle⟩ :=
              ih (cbRemaining - bytes.length) (stream.drop bytes.length)
                fun _ _ => ⟨rfl, rfl, Nat.zero_le _⟩
            refine ⟨?_, ?_, ?_⟩
            · rw [Received.prepend, List.append_assoc, hstream, hsplit]
            · rw [Received.prepend, hread, List.length_append]
            · rw [Received.prepend, List.length_append]
              omega

theorem receiveBytes_spec (cbBuf : ℕ) (stream : List UInt8) (os : List RecvOutcome) :
    (receiveBytes cbBuf stream os).stored ++ (receiveBytes cbBuf stream os).stream = stream ∧
    (receiveBytes cbBuf stream os).cbRead = (receiveBytes cbBuf stream os).stored.length ∧
    (receiveBytes cbBuf stream os).stored.length ≤ (toInt32 cbBuf).toNat :=
  receiveLoop_spec _ _ _

/-- A `recv` that is given as much as the loop asks for. -/
theorem receiveLoop_full {k : ℕ} {stream : List UInt8} (hk : 0 < k) (hstream : stream ≠ [])
    (os : List RecvOutcome) :
    receiveLoop k stream (.chunk (k - 1) :: os)
      = (receiveLoop (k - (stream.take k).length : ℤ) (stream.drop (stream.take k).length)
          os).prepend (stream.take k) := by
  have hmin : min (k - 1 + 1) (k : ℤ).toNat = k := by
    rw [Int.toNat_natCast]
    omega
  have hne : ¬ stream.take k = [] := by
    rw [List.take_eq_nil_iff]
    rintro (hzero | hnil)
    · omega
    · exact hstream hnil
  rw [receiveLoop, if_neg (by omega), if_neg (by omega)]
  simp only [hmin]
  rw [if_neg hne]

/-- `recv` calls that return at least a byte each get everything in, and nothing behind it. -/
theorem receiveLoop_chunks {body rest : List UInt8} {ns : List ℕ} (h : body.length ≤ ns.length) :
    ∃ j ≤ body.length, receiveLoop body.length (body ++ rest) (ns.map .chunk)
      = ⟨some true, body, body.length, rest, (ns.drop j).map .chunk⟩ := by
  induction ns generalizing body with
  | nil =>
    have hnil : body = [] := List.length_eq_zero_iff.mp (by simpa using h)
    exact ⟨0, Nat.zero_le _, by rw [hnil]; rfl⟩
  | cons n ns ih =>
    by_cases hnil : body = []
    · exact ⟨0, Nat.zero_le _, by rw [hnil]; exact receiveLoop_zero _ _⟩
    · have hpos := List.length_pos_iff.mpr hnil
      rw [List.length_cons] at h
      -- one `recv` takes `k` bytes of the body, and the loop goes on for the rest
      set k := min (n + 1) body.length with hk
      have hcount : (body.drop k).length = body.length - k := List.length_drop
      obtain ⟨j, hj, hrest⟩ := @ih (body.drop k) (by omega)
      have htake : (body ++ rest).take k = body.take k :=
        List.take_append_of_le_length (by omega)
      have hdrop : (body ++ rest).drop k = body.drop k ++ rest :=
        List.drop_append_of_le_length (by omega)
      have hlen : (body.take k).length = k := List.length_take_of_le (by omega)
      have hne : ¬ body.take k = [] := by
        intro hempty
        rw [hempty, List.length_nil] at hlen
        omega
      have hcast : (body.length : ℤ) - k = ((body.drop k).length : ℕ) := by omega
      refine ⟨j + 1, by omega, ?_⟩
      rw [List.map_cons, receiveLoop, if_neg (by omega), if_neg (by omega)]
      simp only [Int.toNat_natCast]
      have hsum : k + (body.drop k).length = body.length := by omega
      rw [← hk, htake, if_neg hne, hlen, hdrop, hcast, hrest, Received.prepend, hlen, hsum,
        List.take_append_drop, List.drop_succ_cons]

theorem receiveBytes_chunks {body rest : List UInt8} {ns : List ℕ} (hlt : body.length < 2 ^ 31)
    (h : body.length ≤ ns.length) :
    ∃ j ≤ body.length, receiveBytes body.length (body ++ rest) (ns.map .chunk)
      = ⟨some true, body, body.length, rest, (ns.drop j).map .chunk⟩ := by
  rw [receiveBytes, toInt32_of_lt hlt]
  exact receiveLoop_chunks h

/-! ## What `ReceiveMsg` stores -/

/-- The length in the header at the front of a stream. -/
def headerOf (stream : List UInt8) : ℕ := leValue (stream.take 4)

theorem headerOf_lt (stream : List UInt8) : headerOf stream < 2 ^ 32 := by
  have hlt := leValue_lt (stream.take 4)
  have hlen : (stream.take 4).length ≤ 4 := List.length_take_le _ _
  calc headerOf stream < 256 ^ (stream.take 4).length := hlt
    _ ≤ 256 ^ 4 := Nat.pow_le_pow_right (by decide) hlen
    _ = 2 ^ 32 := by decide

/-- After the header, `ReceiveMsg` stores what `ReceiveBytes` does for the length in it. -/
theorem receiveMsg_of_header {cbBuf : ℕ} {stream rest : List UInt8} {os os' : List RecvOutcome}
    (hheader : receiveBytes 4 stream os = ⟨some true, stream.take 4, 4, rest, os'⟩) :
    (receiveMsg cbBuf stream os).stored
      = (receiveBytes (headerOf stream) rest os').stored := by
  unfold receiveMsg
  rw [hheader]
  simp only [if_true, ne_eq, not_true_eq_false, if_false]
  split <;> rfl

/-- What `ReceiveMsg` stores comes behind the header, and is at most what the header says. -/
theorem receiveMsg_stored (cbBuf : ℕ) (stream : List UInt8) (os : List RecvOutcome) :
    (receiveMsg cbBuf stream os).stored = [] ∨
    4 ≤ stream.length ∧ (receiveMsg cbBuf stream os).stored <+: stream.drop 4 ∧
      (receiveMsg cbBuf stream os).stored.length ≤ (toInt32 (headerOf stream)).toNat := by
  obtain ⟨hstream, hread, -⟩ := receiveBytes_spec 4 stream os
  by_cases hheader : (receiveBytes 4 stream os).result = some true ∧
      (receiveBytes 4 stream os).cbRead = 4
  · generalize hr : receiveBytes 4 stream os = r at hstream hread hheader
    obtain ⟨hresult, hfour⟩ := hheader
    have hlen : r.stored.length = 4 := hread.symm.trans hfour
    -- the four bytes stored first are the header
    have htake : stream.take 4 = r.stored := by rw [← hstream, List.take_left' hlen]
    have hdrop : stream.drop 4 = r.stream := by rw [← hstream, List.drop_left' hlen]
    have hparts : receiveBytes 4 stream os
        = ⟨some true, stream.take 4, 4, stream.drop 4, r.outcomes⟩ := by
      rw [hr, htake, hdrop, ← hresult, ← hfour]
    rw [receiveMsg_of_header hparts]
    obtain ⟨hbody, -, hle⟩ := receiveBytes_spec (headerOf stream) (stream.drop 4) r.outcomes
    have hfull := congrArg List.length htake
    rw [hlen, List.length_take] at hfull
    exact Or.inr ⟨by omega, ⟨_, hbody⟩, hle⟩
  · -- without a whole header nothing is stored
    apply Or.inl
    unfold receiveMsg
    simp only
    split
    · next hresult =>
      rw [if_pos fun hfour => hheader ⟨hresult, hfour⟩]
    · rfl

/-- The caller's buffer of `cbBuf` bytes is safe from `stream`, whatever `recv` returns. -/
def NeverOverruns (cbBuf : ℕ) (stream : List UInt8) : Prop :=
  ∀ outcomes, (receiveMsg cbBuf stream outcomes).stored.length ≤ cbBuf

/-- The header is at most the size of the buffer, or is negative as an `int`, or what follows
it fits in the buffer anyway. -/
def HeaderFits (cbBuf : ℕ) (stream : List UInt8) : Prop :=
  stream.length < 4 ∨ headerOf stream ≤ cbBuf ∨ 2 ^ 31 ≤ headerOf stream ∨
    (stream.drop 4).length ≤ cbBuf

/-- A stream is harmless exactly when its header is. -/
theorem neverOverruns_iff (cbBuf : ℕ) (stream : List UInt8) :
    NeverOverruns cbBuf stream ↔ HeaderFits cbBuf stream := by
  constructor
  · -- the schedule that delivers the header and then everything asked for
    intro hsafe
    by_contra hfits
    simp only [HeaderFits, not_or, Nat.not_lt, Nat.not_le] at hfits
    obtain ⟨hlen, hbig, hint, hbody⟩ := hfits
    have hpos : 0 < headerOf stream := by omega
    -- `recv` returns the header whole
    have hheader : receiveBytes 4 stream [.chunk 3, .chunk (headerOf stream - 1)]
        = ⟨some true, stream.take 4, 4, stream.drop 4, [.chunk (headerOf stream - 1)]⟩ := by
      have hne : stream ≠ [] := List.length_pos_iff.mp (by omega)
      have htake : (stream.take 4).length = 4 := List.length_take_of_le hlen
      rw [receiveBytes, toInt32_of_lt (by omega)]
      rw [@receiveLoop_full 4 stream (by decide) hne, htake]
      simp [Received.prepend, htake]
    have hover := hsafe [.chunk 3, .chunk (headerOf stream - 1)]
    have hne : stream.drop 4 ≠ [] := List.length_pos_iff.mp (by omega)
    rw [receiveMsg_of_header hheader, receiveBytes, toInt32_of_lt hint,
      receiveLoop_full hpos hne, Received.prepend, List.length_append, List.length_take] at hover
    omega
  · intro hfits outcomes
    rcases receiveMsg_stored cbBuf stream outcomes with hnil | ⟨hlen, hbody, hle⟩
    · rw [hnil]
      exact Nat.zero_le _
    · have hbody := hbody.length_le
      rcases hfits with hshort | hsmall | hneg | hfew
      · omega
      · have hint : toInt32 (headerOf stream) ≤ headerOf stream := by
          unfold toInt32
          split <;> omega
        omega
      · -- a negative length ends the loop before the first `recv`
        have hint := toInt32_neg hneg (headerOf_lt stream)
        omega
      · omega

/-! ## Round trips -/

/-- A message on the wire. -/
def frame (m : List UInt8) : List UInt8 := leBytes 4 m.length ++ m

theorem length_frame (m : List UInt8) : (frame m).length = 4 + m.length := by
  rw [frame, List.length_append, length_leBytes]

/-- `SendMsg` puts the frame of its message on the wire. -/
theorem sendMsg_chunks {m : List UInt8} {ns : List ℕ} (hpos : 1 ≤ m.length)
    (hlt : m.length < 2 ^ 31) (h : (frame m).length ≤ ns.length) :
    ∃ j ≤ (frame m).length, sendMsg m m.length (ns.map .chunk)
      = ⟨some true, frame m, (ns.drop j).map .chunk⟩ := by
  rw [length_frame] at h ⊢
  have hheader := length_leBytes 4 m.length
  -- the header, then the body on what is left of the schedule
  obtain ⟨i, hi, hsent⟩ := @sendBytes_chunks (leBytes 4 m.length) ns
    (by rw [hheader]; decide) (by omega)
  rw [hheader] at hi hsent
  obtain ⟨j, hj, hbody⟩ := @sendBytes_chunks m (ns.drop i) hlt
    (by rw [List.length_drop]; omega)
  refine ⟨i + j, by omega, ?_⟩
  unfold sendMsg
  rw [if_neg (by omega), hsent]
  simp only [if_true]
  rw [hbody, List.drop_drop]
  rfl

/-- `ReceiveMsg` takes exactly the frame at the front of the stream. -/
theorem receiveMsg_chunks {m rest : List UInt8} {ns : List ℕ} (cbBuf : ℕ)
    (hlt : m.length < 2 ^ 31) (h : (frame m).length ≤ ns.length) :
    ∃ j ≤ (frame m).length, receiveMsg cbBuf (frame m ++ rest) (ns.map .chunk)
      = ⟨some true, m, m.length, rest, (ns.drop j).map .chunk⟩ := by
  rw [length_frame] at h ⊢
  have hheader := length_leBytes 4 m.length
  -- the header, then the body on what is left of the schedule
  obtain ⟨i, hi, hread⟩ := @receiveBytes_chunks (leBytes 4 m.length) (m ++ rest) ns
    (by rw [hheader]; decide) (by omega)
  rw [hheader] at hi hread
  obtain ⟨j, hj, hbody⟩ := @receiveBytes_chunks m rest (ns.drop i) hlt
    (by rw [List.length_drop]; omega)
  have hvalue : leValue (leBytes 4 m.length) = m.length :=
    leValue_leBytes (Nat.lt_trans hlt (by decide))
  refine ⟨i + j, by omega, ?_⟩
  unfold receiveMsg
  rw [frame, List.append_assoc, hread]
  simp only [if_true, ne_eq, not_true_eq_false, if_false, hvalue]
  rw [hbody, List.drop_drop]
  simp

/-- The bytes of a sequence of messages on the wire. -/
def wireOf (msgs : List (List UInt8)) : List UInt8 := msgs.flatMap frame

theorem wireOf_cons (m : List UInt8) (ms : List (List UInt8)) :
    wireOf (m :: ms) = frame m ++ wireOf ms := List.flatMap_cons

theorem sendMsgs_chunks {msgs : List (List UInt8)} {ns : List ℕ}
    (hmsgs : ∀ m ∈ msgs, 1 ≤ m.length ∧ m.length < 2 ^ 31)
    (h : (wireOf msgs).length ≤ ns.length) :
    ∃ j ≤ (wireOf msgs).length, sendMsgs msgs (ns.map .chunk)
      = ⟨some true, wireOf msgs, (ns.drop j).map .chunk⟩ := by
  induction msgs generalizing ns with
  | nil => exact ⟨0, Nat.zero_le _, rfl⟩
  | cons m ms ih =>
    rw [wireOf_cons, List.length_append] at h ⊢
    obtain ⟨hpos, hlt⟩ := hmsgs m List.mem_cons_self
    obtain ⟨i, hi, hfirst⟩ := @sendMsg_chunks m ns hpos hlt (by omega)
    obtain ⟨j, hj, hrest⟩ := @ih (ns.drop i) (fun m hm => hmsgs m (List.mem_cons_of_mem _ hm))
      (by rw [List.length_drop]; omega)
    refine ⟨i + j, by omega, ?_⟩
    unfold sendMsgs
    rw [hfirst]
    simp only [if_true]
    rw [hrest, List.drop_drop]
    rfl

theorem receiveMsgs_chunks {msgs : List (List UInt8)} {rest : List UInt8} {ns : List ℕ}
    (cbBuf : ℕ) (hmsgs : ∀ m ∈ msgs, m.length < 2 ^ 31) (h : (wireOf msgs).length ≤ ns.length) :
    receiveMsgs cbBuf msgs.length (wireOf msgs ++ rest) (ns.map .chunk)
      = some (msgs.map fun m => (m, m.length), rest) := by
  induction msgs generalizing ns with
  | nil => rfl
  | cons m ms ih =>
    rw [wireOf_cons, List.length_append] at h
    obtain ⟨i, hi, hfirst⟩ := @receiveMsg_chunks m (wireOf ms ++ rest) ns cbBuf
      (hmsgs m List.mem_cons_self) (by omega)
    have hrest := @ih (ns.drop i) (fun m hm => hmsgs m (List.mem_cons_of_mem _ hm))
      (by rw [List.length_drop]; omega)
    rw [wireOf_cons, List.append_assoc, List.length_cons, receiveMsgs, hfirst]
    simp only [if_true]
    rw [hrest]
    rfl

/-- Messages that were sent have lengths that are an `int`. -/
theorem length_lt_of_sendMsgs {msgs : List (List UInt8)} {os : List SendOutcome}
    (hmsgs : ∀ m ∈ msgs, m.length < 2 ^ 32) (h : (sendMsgs msgs os).result = some true) :
    ∀ m ∈ msgs, m.length < 2 ^ 31 := by
  induction msgs generalizing os with
  | nil => simp
  | cons m ms ih =>
    unfold sendMsgs at h
    simp only at h
    split at h
    · next hfirst =>
      have hms := ih (fun m hm => hmsgs m (List.mem_cons_of_mem _ hm)) h
      intro m' hm'
      rcases List.mem_cons.mp hm' with rfl | hm'
      · -- a longer body is a negative length for `send`
        by_contra hbig
        have hneg := toInt32_neg (Nat.not_lt.mp hbig) (hmsgs m' List.mem_cons_self)
        unfold sendMsg at hfirst
        rw [if_neg (by omega)] at hfirst
        simp only at hfirst
        split at hfirst
        · have hbody : (sendBytes m' m'.length _).result = some true := hfirst
          rw [sendBytes, if_neg (by omega)] at hbody
          exact sendLoop_neg hneg _ _ hbody
        · next hheader => exact hheader hfirst
      · exact hms m' hm'
    · next hfirst => exact absurd h hfirst

/-- Sent over any schedule of transfers of at least a byte each, long enough for all of the
bytes, the messages arrive as they were, with their lengths, and what follows them in the
stream is left alone. -/
def RoundTrips (cbBuf : ℕ) (msgs : List (List UInt8)) : Prop :=
  ∀ (sends recvs : List ℕ) (rest : List UInt8), (wireOf msgs).length ≤ sends.length →
    (wireOf msgs).length ≤ recvs.length →
    (sendMsgs msgs (sends.map .chunk)).result = some true ∧
    receiveMsgs cbBuf msgs.length ((sendMsgs msgs (sends.map .chunk)).wire ++ rest)
        (recvs.map .chunk)
      = some (msgs.map fun m => (m, m.length), rest)

/-- Messages round-trip exactly when their lengths are positive as an `int`. -/
theorem roundTrips_iff {cbBuf : ℕ} {msgs : List (List UInt8)}
    (hmsgs : ∀ m ∈ msgs, 1 ≤ m.length ∧ m.length < 2 ^ 32) :
    RoundTrips cbBuf msgs ↔ ∀ m ∈ msgs, m.length < 2 ^ 31 := by
  constructor
  · -- the sender alone fails on a longer message
    intro htrip
    have hsent := (htrip (.replicate (wireOf msgs).length 0) (.replicate (wireOf msgs).length 0)
      [] (by simp) (by simp)).1
    exact length_lt_of_sendMsgs (fun m hm => (hmsgs m hm).2) hsent
  · intro hlt sends recvs rest hsends hrecvs
    obtain ⟨j, _, hsent⟩ :=
      sendMsgs_chunks (fun m hm => ⟨(hmsgs m hm).1, hlt m hm⟩) hsends
    rw [hsent]
    exact ⟨rfl, receiveMsgs_chunks cbBuf hlt hrecvs⟩

/-- **The framing** is safe from a stream exactly when the header is, and loses nothing
exactly when the lengths are positive as an `int`. -/
theorem framing_iff {cbBuf : ℕ} (hcb : cbBuf < 2 ^ 32) :
    (∀ stream, NeverOverruns cbBuf stream ↔ HeaderFits cbBuf stream) ∧
    ∀ msgs : List (List UInt8), (∀ m ∈ msgs, 1 ≤ m.length ∧ m.length ≤ cbBuf) →
      (RoundTrips cbBuf msgs ↔ ∀ m ∈ msgs, m.length < 2 ^ 31) := by
  refine ⟨neverOverruns_iff cbBuf, fun msgs hmsgs => roundTrips_iff fun m hm => ?_⟩
  obtain ⟨hpos, hle⟩ := hmsgs m hm
  exact ⟨hpos, by omega⟩

/-- A buffer of three bytes is safe from a frame of two, and a message of two and one of three
bytes round-trip. -/
theorem framing_threeBytes :
    NeverOverruns 3 [2, 0, 0, 0, 7, 8] ∧ RoundTrips 3 [[7, 8], [4, 5, 6]] := by
  have hframing := framing_iff (show 3 < 2 ^ 32 by decide)
  refine ⟨(hframing.1 _).mpr (Or.inr (Or.inl (by decide))), (hframing.2 _ ?_).mpr ?_⟩ <;> decide

/-- A header of four for a buffer of two bytes. -/
theorem overrun_counterexample :
    (receiveMsg 2 [4, 0, 0, 0, 1, 2, 3, 4] [.chunk 3, .chunk 3]).stored = [1, 2, 3, 4] ∧
    ¬ NeverOverruns 2 [4, 0, 0, 0, 1, 2, 3, 4] := by
  refine ⟨rfl, ?_⟩
  intro hsafe
  have hover := hsafe [.chunk 3, .chunk 3]
  exact absurd hover (by decide)

end Win32Experiments.OldSspiSample
