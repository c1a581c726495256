import Win32Experiments.WebSocketProto.WinHttpWebSocket

/-!
# The receive loop of `WebSocket`

The loop moves a pointer and a remaining length that belong to `rgbBuffer`, but gives the front and
the length of `charBuffer` to every `WinHttpWebSocketReceive`; in the end it prints `charBuffer`
whole.

* `overlay`: what the receives leave in `charBuffer`;
* `receiveLoop_eq_reported`, `receiveLoop_eq_threw`: how the loop ends;
* `overlay_eq_flatten_iff`: when the fragments are in it one behind the other;
* `receiveLoop_reports_iff`: when the loop reports the message.
-/

namespace Win32Experiments.WebSocket

open Foundation
open WebSocketProto (BufferType Reply)

/-! ## The loop -/

/-- The size of both buffers. -/
def bufferSize : ℕ := 1024

/-- The locals of the loop. -/
structure Locals where
  dwBufferLength : ℕ
  pbCurrentBufferPointer : ℕ
  charBuffer : List UInt8

/-- The locals before the loop. -/
def Locals.start : Locals := ⟨bufferSize, 0, List.replicate bufferSize 0⟩

/-- How the loop ends: it waits for a receive, throws, or reports a text. -/
inductive Outcome
  | waits
  | threw
  | reported (text : List UInt8)
deriving DecidableEq, Repr

/-- The ranges of `charBuffer` that the receives are offered, by offset and length, and the end. -/
structure Run where
  offers : List (ℕ × ℕ)
  outcome : Outcome
deriving DecidableEq, Repr

/-- `WinHttpWebSocketReceive` delivers bytes at `&charBuffer[0]`. -/
def Locals.receive (l : Locals) (bytes : List UInt8) : Locals :=
  { dwBufferLength := subW 32 l.dwBufferLength bytes.length
    pbCurrentBufferPointer := l.pbCurrentBufferPointer + bytes.length
    charBuffer := store l.charBuffer 0 bytes }

/-- The loop, and the test behind it. -/
def receiveLoop (l : Locals) : List Reply → Run
  | [] => if l.dwBufferLength = 0 then ⟨[], .threw⟩ else ⟨[(0, l.charBuffer.length)], .waits⟩
  | reply :: replies =>
    if l.dwBufferLength = 0 then ⟨[], .threw⟩ else
    let offer := (0, l.charBuffer.length)
    match reply with
    | .error _ => ⟨[offer], .threw⟩
    | .received bytes type =>
      let l := l.receive bytes
      if type = .utf8Fragment then
        let run := receiveLoop l replies
        ⟨offer :: run.offers, run.outcome⟩
      else if type ≠ .utf8Message then ⟨[offer], .threw⟩
      else ⟨[offer], .reported l.charBuffer⟩

/-- The replies for a message: its fragments, and its last part. -/
def replies (fragments : List (List UInt8)) (last : List UInt8) : List Reply :=
  fragments.map (.received · .utf8Fragment) ++ [.received last .utf8Message]

/-- The text reported is the message, and every receive is offered room inside of the buffer. -/
structure Reports (fragments : List (List UInt8)) (last : List UInt8) : Prop where
  text : (receiveLoop .start (replies fragments last)).outcome =
    .reported (fragments.flatten ++ last)
  inside : ∀ offer ∈ (receiveLoop .start (replies fragments last)).offers,
    offer.1 + offer.2 ≤ bufferSize

/-- Behind the first part that is not empty there are only zeros, and it starts with as many zeros
as any of them has. -/
def FirstOnly : List (List UInt8) → Prop
  | [] => True
  | first :: parts =>
    if first = [] then FirstOnly parts
    else ∀ part ∈ parts, (∀ b ∈ part, b = 0) ∧ ∀ b ∈ first.take part.length, b = 0

/-! ## Parts at the front of one buffer -/

/-- The buffer behind the parts, each written to its front. -/
def overlay (buffer : List UInt8) (parts : List (List UInt8)) : List UInt8 :=
  parts.foldl (store · 0 ·) buffer

section

variable {buffer part : List UInt8} {parts : List (List UInt8)} {i : ℕ}

theorem store_zero (buffer part : List UInt8) :
    store buffer 0 part = part ++ buffer.drop part.length := by
  rw [store, List.take_zero, List.nil_append, Nat.zero_add]

/-- The parts reach no further than the buffer, so its length stays. -/
theorem length_overlay (hfits : ∀ part ∈ parts, part.length ≤ buffer.length) :
    (overlay buffer parts).length = buffer.length := by
  induction parts generalizing buffer with
  | nil => rfl
  | cons part parts ih =>
    rw [List.forall_mem_cons] at hfits
    have hstore : (store buffer 0 part).length = buffer.length := length_store (by omega)
    show (overlay (store buffer 0 part) parts).length = _
    rw [ih (by rw [hstore]; exact hfits.2), hstore]

/-- A byte of the buffer is an old one, or the byte at this place of a part. -/
theorem getElem?_overlay (buffer : List UInt8) (parts : List (List UInt8)) (i : ℕ) :
    (overlay buffer parts)[i]? = buffer[i]? ∨
      ∃ part ∈ parts, i < part.length ∧ (overlay buffer parts)[i]? = part[i]? := by
  induction parts generalizing buffer with
  | nil => exact Or.inl rfl
  | cons part parts ih =>
    rcases ih (store buffer 0 part) with hold | ⟨later, hlater, hi, hnew⟩
    · by_cases hi : i < part.length
      · refine Or.inr ⟨part, List.mem_cons_self, hi, ?_⟩
        show (overlay (store buffer 0 part) parts)[i]? = _
        rw [hold, store_zero, List.getElem?_append_left hi]
      · left
        show (overlay (store buffer 0 part) parts)[i]? = _
        rw [hold, store_zero, List.getElem?_append_right (by omega), List.getElem?_drop]
        congr 1
        omega
    · exact Or.inr ⟨later, List.mem_cons_of_mem _ hlater, hi, hnew⟩

/-- Where a part reaches, the byte is one of the parts. -/
theorem getElem?_overlay_of_lt (buffer : List UInt8) (hpart : part ∈ parts) (hi : i < part.length) :
    ∃ part ∈ parts, i < part.length ∧ (overlay buffer parts)[i]? = part[i]? := by
  induction parts generalizing buffer with
  | nil => exact absurd hpart List.not_mem_nil
  | cons head parts ih =>
    rcases List.mem_cons.mp hpart with rfl | htail
    · rcases getElem?_overlay (store buffer 0 part) parts i with hold | ⟨later, hlater, hl, hnew⟩
      · refine ⟨part, List.mem_cons_self, hi, ?_⟩
        show (overlay (store buffer 0 part) parts)[i]? = _
        rw [hold, store_zero, List.getElem?_append_left hi]
      · exact ⟨later, List.mem_cons_of_mem _ hlater, hl, hnew⟩
    · obtain ⟨later, hlater, hl, hnew⟩ := ih (store buffer 0 head) htail
      exact ⟨later, List.mem_cons_of_mem _ hlater, hl, hnew⟩

/-- Each part is somewhere in the message. -/
theorem exists_getElem?_flatten (hpart : part ∈ parts) :
    ∃ k, ∀ j < part.length, parts.flatten[k + j]? = part[j]? := by
  obtain ⟨before, behind, rfl⟩ := List.append_of_mem hpart
  refine ⟨before.flatten.length, fun j hj => ?_⟩
  rw [List.flatten_append, List.flatten_cons, List.getElem?_append_right (by omega),
    Nat.add_sub_cancel_left, List.getElem?_append_left hj]

/-- What the first part leaves of a buffer of zeros. -/
theorem store_replicate (n : ℕ) (first : List UInt8) :
    store (List.replicate n 0) 0 first = first ++ List.replicate (n - first.length) 0 := by
  rw [store_zero, List.drop_replicate]

/-- If the buffer is the message, then behind the first part the message has zeros only. -/
theorem eq_zero_of_overlay_eq {n : ℕ} {first : List UInt8} {b : UInt8} (hfirst : first ≠ [])
    (h : overlay (first ++ List.replicate (n - first.length) 0) parts = first ++ parts.flatten)
    (hi : first.length ≤ i) (hb : (first ++ parts.flatten)[i]? = some b) : b = 0 := by
  -- induction on what is behind the place: a byte that a part has put there comes again further on
  induction hrest : (first ++ parts.flatten).length - i using Nat.strong_induction_on
    generalizing i with
  | _ rest ih =>
    have hover : (overlay (first ++ List.replicate (n - first.length) 0) parts)[i]? = some b := by
      rw [h, hb]
    rcases getElem?_overlay (first ++ List.replicate (n - first.length) 0) parts i with
      hold | ⟨part, hpart, hlt, hnew⟩
    · rw [hover, List.getElem?_append_right hi] at hold
      exact List.eq_of_mem_replicate (List.mem_of_getElem? hold.symm)
    · obtain ⟨k, hk⟩ := exists_getElem?_flatten hpart
      have hpos := List.length_pos_iff.mpr hfirst
      have hagain : (first ++ parts.flatten)[first.length + (k + i)]? = some b := by
        rw [List.getElem?_append_right (by omega), Nat.add_sub_cancel_left, hk i hlt, ← hnew, hover]
      obtain ⟨hless, -⟩ := List.getElem?_eq_some_iff.mp hb
      exact ih _ (by omega) (by omega) hagain rfl

/-- The first part shows, and the others do not change it: only zeros are written over it. -/
theorem overlay_first_iff {n : ℕ} {first : List UInt8} (hfirst : first ≠ [])
    (hlen : (first ++ parts.flatten).length = n) :
    overlay (List.replicate n 0) (first :: parts) = first ++ parts.flatten ↔
      ∀ part ∈ parts, (∀ b ∈ part, b = 0) ∧ ∀ b ∈ first.take part.length, b = 0 := by
  have hover : overlay (List.replicate n 0) (first :: parts) =
      overlay (first ++ List.replicate (n - first.length) 0) parts := by
    show overlay (store (List.replicate n 0) 0 first) parts = _
    rw [store_replicate]
  rw [hover]
  rw [List.length_append] at hlen
  constructor
  · intro h
    have hzero : ∀ part ∈ parts, ∀ b ∈ part, b = 0 := by
      intro part hpart b hb
      obtain ⟨j, hj, rfl⟩ := List.mem_iff_getElem.mp hb
      obtain ⟨k, hk⟩ := exists_getElem?_flatten hpart
      have hplace : (first ++ parts.flatten)[first.length + (k + j)]? = some part[j] := by
        rw [List.getElem?_append_right (by omega), Nat.add_sub_cancel_left, hk j hj,
          List.getElem?_eq_getElem hj]
      exact eq_zero_of_overlay_eq hfirst h (by omega) hplace
    refine fun part hpart => ⟨hzero part hpart, fun b hb => ?_⟩
    obtain ⟨j, hj, rfl⟩ := List.mem_iff_getElem.mp hb
    rw [List.length_take] at hj
    obtain ⟨later, hlater, hlt, hnew⟩ := getElem?_overlay_of_lt
      (first ++ List.replicate (n - first.length) 0) hpart (show j < part.length by omega)
    rw [h, List.getElem?_append_left (by omega), List.getElem?_eq_getElem (by omega)] at hnew
    rw [List.getElem_take]
    exact hzero later hlater _ (List.mem_of_getElem? hnew.symm)
  · intro hzero
    have hflatten : parts.flatten = List.replicate (n - first.length) 0 := by
      refine List.eq_replicate_iff.mpr ⟨by omega, fun b hb => ?_⟩
      obtain ⟨part, hpart, hmem⟩ := List.mem_flatten.mp hb
      exact (hzero part hpart).1 b hmem
    rw [← hflatten]
    apply List.ext_getElem?
    intro j
    rcases getElem?_overlay (first ++ parts.flatten) parts j with hold | ⟨part, hpart, hj, hnew⟩
    · exact hold
    · have hpartZero := (hzero part hpart).1 _ (List.getElem_mem hj)
      rw [hnew, List.getElem?_eq_getElem hj, hpartZero, hflatten]
      by_cases hjf : j < first.length
      · have hfirstZero := (hzero part hpart).2 first[j]
          (List.mem_take_iff_getElem.mpr ⟨j, by omega, rfl⟩)
        rw [List.getElem?_append_left hjf, List.getElem?_eq_getElem hjf, hfirstZero]
      · have hle := (List.sublist_flatten_of_mem hpart).length_le
        rw [List.getElem?_append_right (by omega), List.getElem?_replicate, if_pos (by omega)]

/-- The buffer is the message exactly when only its first part shows. -/
theorem overlay_eq_flatten_iff {n : ℕ} (hlen : parts.flatten.length = n) :
    overlay (List.replicate n 0) parts = parts.flatten ↔ FirstOnly parts := by
  induction parts with
  | nil =>
    subst hlen
    exact iff_of_true rfl trivial
  | cons first parts ih =>
    rw [FirstOnly]
    split
    · next hfirst =>
      subst hfirst
      have hstore : store (List.replicate n (0 : UInt8)) 0 [] = List.replicate n 0 := store_zero _ _
      show overlay (store (List.replicate n 0) 0 []) parts = parts.flatten ↔ _
      rw [hstore]
      exact ih hlen
    · next hfirst => exact overlay_first_iff hfirst hlen

end

/-! ## The turns of the loop -/

section

variable {l : Locals} {bytes last text : List UInt8} {fragments : List (List UInt8)}

theorem receiveLoop_of_zero (hzero : l.dwBufferLength = 0) (replies : List Reply) :
    receiveLoop l replies = ⟨[], .threw⟩ := by
  cases replies with
  | nil => rw [receiveLoop, if_pos hzero]
  | cons reply replies => rw [receiveLoop, if_pos hzero]

theorem receiveLoop_fragment (hroom : l.dwBufferLength ≠ 0) (bytes : List UInt8)
    (replies : List Reply) :
    receiveLoop l (.received bytes .utf8Fragment :: replies) =
      ⟨(0, l.charBuffer.length) :: (receiveLoop (l.receive bytes) replies).offers,
        (receiveLoop (l.receive bytes) replies).outcome⟩ := by
  rw [receiveLoop, if_neg hroom]
  rfl

theorem receiveLoop_last (hroom : l.dwBufferLength ≠ 0) (last : List UInt8) :
    receiveLoop l (replies [] last) =
      ⟨[(0, l.charBuffer.length)], .reported (store l.charBuffer 0 last)⟩ := by
  show receiveLoop l [.received last .utf8Message] = _
  rw [receiveLoop, if_neg hroom]
  rfl

theorem replies_cons (fragment : List UInt8) :
    replies (fragment :: fragments) last =
      .received fragment .utf8Fragment :: replies fragments last := rfl

/-- Every receive is offered the whole of `charBuffer`. -/
theorem receiveLoop_offers (hlen : l.charBuffer.length = bufferSize)
    (hfits : ∀ part ∈ fragments ++ [last], part.length ≤ bufferSize) :
    ∀ offer ∈ (receiveLoop l (replies fragments last)).offers, offer.1 + offer.2 ≤ bufferSize := by
  induction fragments generalizing l with
  | nil =>
    by_cases hzero : l.dwBufferLength = 0
    · rw [receiveLoop_of_zero hzero]
      exact fun _ hmem => absurd hmem List.not_mem_nil
    · rw [receiveLoop_last hzero, List.forall_mem_singleton, hlen, Nat.zero_add]
  | cons fragment fragments ih =>
    rw [List.cons_append, List.forall_mem_cons] at hfits
    by_cases hzero : l.dwBufferLength = 0
    · rw [receiveLoop_of_zero hzero]
      exact fun _ hmem => absurd hmem List.not_mem_nil
    · have hstore : (l.receive fragment).charBuffer.length = bufferSize := by
        have hkept : (store l.charBuffer 0 fragment).length = l.charBuffer.length :=
          length_store (by omega)
        exact hkept.trans hlen
      rw [replies_cons, receiveLoop_fragment hzero, List.forall_mem_cons]
      refine ⟨?_, ih hstore hfits.2⟩
      rw [hlen, Nat.zero_add]

/-- A text that is reported is what the parts leave in `charBuffer`. -/
theorem reported_eq_overlay
    (h : (receiveLoop l (replies fragments last)).outcome = .reported text) :
    text = overlay l.charBuffer (fragments ++ [last]) := by
  induction fragments generalizing l with
  | nil =>
    by_cases hzero : l.dwBufferLength = 0
    · rw [receiveLoop_of_zero hzero] at h
      contradiction
    · rw [receiveLoop_last hzero] at h
      exact (Outcome.reported.inj h).symm
  | cons fragment fragments ih =>
    by_cases hzero : l.dwBufferLength = 0
    · rw [receiveLoop_of_zero hzero] at h
      contradiction
    · rw [replies_cons, receiveLoop_fragment hzero] at h
      exact ih h

/-- What is left of the buffer length when it was the length of the message. -/
theorem dwBufferLength_receive {rest : ℕ} (h : l.dwBufferLength = bytes.length + rest)
    (hlt : l.dwBufferLength < 2 ^ 32) :
    (l.receive bytes).dwBufferLength = rest := by
  show subW 32 l.dwBufferLength bytes.length = rest
  rw [subW_of_le hlt (by omega), h, Nat.add_sub_cancel_left]

/-- If the message is as long as the buffer and the last part is not empty, there is room for every
receive. -/
theorem receiveLoop_eq_reported (hlast : last ≠ [])
    (hlen : l.dwBufferLength = (fragments.flatten ++ last).length)
    (hlt : l.dwBufferLength < 2 ^ 32) :
    (receiveLoop l (replies fragments last)).outcome =
      .reported (overlay l.charBuffer (fragments ++ [last])) := by
  have hpos := List.length_pos_iff.mpr hlast
  induction fragments generalizing l with
  | nil =>
    have hroom : l.dwBufferLength ≠ 0 := by
      rw [hlen, List.flatten_nil, List.nil_append]
      omega
    rw [receiveLoop_last hroom]
    rfl
  | cons fragment fragments ih =>
    rw [List.flatten_cons, List.append_assoc, List.length_append] at hlen
    have hroom : l.dwBufferLength ≠ 0 := by
      rw [hlen, List.length_append]
      omega
    have hrest := dwBufferLength_receive hlen hlt
    rw [replies_cons, receiveLoop_fragment hroom]
    exact ih hrest (by omega)

/-- If the fragments fill the buffer, there is no receive for the last part. -/
theorem receiveLoop_eq_threw (hlen : l.dwBufferLength = fragments.flatten.length)
    (hlt : l.dwBufferLength < 2 ^ 32) :
    (receiveLoop l (replies fragments last)).outcome = .threw := by
  induction fragments generalizing l with
  | nil => rw [receiveLoop_of_zero hlen]
  | cons fragment fragments ih =>
    by_cases hzero : l.dwBufferLength = 0
    · rw [receiveLoop_of_zero hzero]
    · rw [List.flatten_cons, List.length_append] at hlen
      have hrest := dwBufferLength_receive hlen hlt
      rw [replies_cons, receiveLoop_fragment hzero]
      exact ih hrest (by omega)

end

/-! ## The message -/

section

variable {fragments : List (List UInt8)} {last : List UInt8}

theorem start_dwBufferLength_lt : Locals.start.dwBufferLength < 2 ^ 32 := by
  show 1024 < 2 ^ 32
  omega

/-- **The receive loop.** It reports the message exactly when the message is as long as the buffer,
its last part is not empty, and only its first part shows. Each part fits into the room that
its receive is offered. -/
theorem receiveLoop_reports_iff (hfits : ∀ part ∈ fragments ++ [last], part.length ≤ bufferSize) :
    Reports fragments last ↔
      (fragments.flatten ++ last).length = bufferSize ∧ last ≠ [] ∧
        FirstOnly (fragments ++ [last]) := by
  have hstart : Locals.start.charBuffer.length = bufferSize := List.length_replicate
  have hparts : (fragments ++ [last]).flatten = fragments.flatten ++ last := by
    rw [List.flatten_append, List.flatten_singleton]
  have hinside := receiveLoop_offers hstart hfits
  have hshows (hlen : (fragments.flatten ++ last).length = bufferSize) :
      overlay (List.replicate bufferSize 0) (fragments ++ [last]) =
        (fragments ++ [last]).flatten ↔ FirstOnly (fragments ++ [last]) :=
    overlay_eq_flatten_iff (hparts ▸ hlen)
  constructor
  · rintro ⟨htext, -⟩
    have hover := reported_eq_overlay htext
    have hlen : (fragments.flatten ++ last).length = bufferSize := by
      rw [hover, length_overlay (by rw [hstart]; exact hfits), hstart]
    refine ⟨hlen, ?_, ?_⟩
    · rintro rfl
      rw [List.append_nil] at hlen
      rw [receiveLoop_eq_threw hlen.symm start_dwBufferLength_lt] at htext
      exact Outcome.noConfusion htext
    · exact (hshows hlen).mp (hover.symm.trans hparts.symm)
  · rintro ⟨hlen, hlast, hfirst⟩
    refine ⟨?_, hinside⟩
    rw [receiveLoop_eq_reported hlast hlen.symm start_dwBufferLength_lt, ← hparts]
    congr 1
    exact (hshows hlen).mpr hfirst

end

/-- A message of one part that fills the buffer. -/
theorem reports_full :
    (∀ part ∈ [] ++ [List.replicate 1024 (65 : UInt8)], part.length ≤ bufferSize) ∧
      Reports [] (List.replicate 1024 65) := by
  have hfits : ∀ part ∈ [] ++ [List.replicate 1024 (65 : UInt8)], part.length ≤ bufferSize := by
    intro part hpart
    rw [List.nil_append, List.mem_singleton] at hpart
    rw [hpart, List.length_replicate]
    exact Nat.le_refl _
  have hne : List.replicate 1024 (65 : UInt8) ≠ [] := List.cons_ne_nil _ _
  refine ⟨hfits, (receiveLoop_reports_iff hfits).mpr ⟨?_, hne, ?_⟩⟩
  · rw [List.flatten_nil, List.nil_append, List.length_replicate]
    rfl
  · rw [List.nil_append, FirstOnly, if_neg hne]
    exact fun _ hmem => absurd hmem List.not_mem_nil

/-- Of `"He"` and `"llo"` the buffer keeps the second, and the text has 1024 characters. -/
theorem reports_counterexample :
    (receiveLoop .start (replies [[72, 101]] [108, 108, 111])).outcome =
        .reported ([108, 108, 111] ++ List.replicate 1021 0) ∧
      ¬ Reports [[72, 101]] [108, 108, 111] := by
  have houtcome : (receiveLoop .start (replies [[72, 101]] [108, 108, 111])).outcome =
      .reported ([108, 108, 111] ++ List.replicate 1021 0) := by
    rw [replies_cons, receiveLoop_fragment (by decide), receiveLoop_last (by decide)]
    show Outcome.reported (store (store (List.replicate bufferSize 0) 0 [72, 101]) 0 _) = _
    rw [store_replicate, store_zero]
    show Outcome.reported ([108, 108, 111] ++ (List.replicate 1022 0).drop 1) = _
    rw [List.drop_replicate]
  refine ⟨houtcome, ?_⟩
  rintro ⟨htext, -⟩
  rw [houtcome] at htext
  have hhead : some (108 : UInt8) = some 72 := congrArg List.head? (Outcome.reported.inj htext)
  exact absurd hhead (by decide)

end Win32Experiments.WebSocket
