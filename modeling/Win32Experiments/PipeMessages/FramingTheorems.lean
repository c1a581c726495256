import Win32Experiments.NamedPipeTheorems
import Win32Experiments.PipeMessages.Framing

/-!
# What `ReadWithHeader` gets from `WriteWithHeader`

The vector of `WriteWithHeader` already has room for the payload when the payload is inserted,
so that the message ends in as many zeros as the payload has bytes. `ReadWithHeader` gets the
payload back with these zeros behind it.
-/

namespace Win32Experiments.PipeMessages

open Foundation NamedPipe

/-! ## Statements -/

/-- The calls of `ReadWithHeader` behind the writes of `payloads`. -/
def roundTrip (payloads : List (List UInt8)) :
    Option (List (Except Win32Error (Header × List UInt8)) × List Range) :=
  match writeAll [] payloads with
  | .ok pipe => readAll payloads.length pipe
  | .error _ => none

/-- The calls return the payloads with their headers, and every `ReadFile` was given a range of
its vector. -/
def RoundTrips (payloads : List (List UInt8)) : Prop :=
  ∃ outcomes ranges, roundTrip payloads = some (outcomes, ranges) ∧
    outcomes = payloads.map (fun payload => .ok (⟨.TypeB, .TypeA⟩, payload)) ∧
    ∀ range ∈ ranges, range.Inside

/-- The payload fits in a `DWORD` with its header. -/
def FitsWithHeader (payload : List UInt8) : Prop := payload.length ≤ 2 ^ 32 - 1 - sizeofHeader

/-! ## The message -/

/-- What follows the header in the vector: the payload, and zeros in the room that the vector
already had for it. -/
theorem dataWithHeader_eq (payload : List UInt8) :
    dataWithHeader payload
      = header.bytes ++ (payload ++ List.replicate payload.length 0) := by
  have hbytes : header.bytes.length = sizeofHeader := rfl
  have hvector : store (List.replicate (sizeofHeader + payload.length) 0) 0 header.bytes
      = header.bytes ++ List.replicate payload.length 0 := by
    rw [store, List.take_zero, List.nil_append, hbytes, Nat.zero_add, List.drop_replicate,
      Nat.add_sub_cancel_left]
  rw [dataWithHeader, hvector, ← hbytes, List.take_left, List.drop_left, List.append_assoc]

theorem length_dataWithHeader (payload : List UInt8) :
    (dataWithHeader payload).length = sizeofHeader + 2 * payload.length := by
  rw [dataWithHeader_eq, List.length_append, List.length_append, List.length_replicate]
  show sizeofHeader + (payload.length + payload.length) = _
  omega

/-- The message that `WriteWithHeader` queues. -/
def message (payload : List UInt8) : List UInt8 :=
  (dataWithHeader payload).take ((dataWithHeader payload).length % 2 ^ 32)

theorem writeWithHeader_eq (pipe : Pipe) (payload : List UInt8) :
    writeWithHeader none pipe payload = .ok (pipe ++ [message payload]) := rfl

theorem length_message_lt (payload : List UInt8) : (message payload).length < 2 ^ 32 := by
  have hmod : (dataWithHeader payload).length % 2 ^ 32 < 2 ^ 32 := Nat.mod_lt _ (by decide)
  rw [message, List.length_take]
  omega

/-- An empty payload is a message of its header. -/
theorem splitHeader_message_nil : splitHeader (message []) = (⟨.TypeB, .TypeA⟩, []) := by decide

/-- No other payload comes back as it was. -/
theorem splitHeader_message_ne {payload : List UInt8} (hfits : FitsWithHeader payload)
    (hne : payload ≠ []) : splitHeader (message payload) ≠ (⟨.TypeB, .TypeA⟩, payload) := by
  intro heq
  have hpos : 0 < payload.length := List.length_pos_iff.mpr hne
  have hlen : (message payload).length = (sizeofHeader + 2 * payload.length) % 2 ^ 32 := by
    rw [message, List.length_take, length_dataWithHeader]
    apply Nat.min_eq_left
    exact Nat.mod_le _ _
  rw [splitHeader] at heq
  split at heq
  · -- a message that the cast has cut down to less than a header
    have hheader : ({} : Header) = ⟨.TypeB, .TypeA⟩ := congrArg Prod.fst heq
    contradiction
  · next hlong =>
    -- the length of what comes back is twice that of the payload, up to the cast
    have hback := congrArg (fun pair => pair.2.length) heq
    simp only [List.length_drop, hlen] at hback
    rw [hlen] at hlong
    unfold FitsWithHeader at hfits
    simp only [sizeofHeader] at hback hlong hfits
    omega

/-! ## The calls -/

theorem writeAll_eq (pipe : Pipe) (payloads : List (List UInt8)) :
    writeAll pipe payloads = .ok (pipe ++ payloads.map message) := by
  induction payloads generalizing pipe with
  | nil => rw [writeAll, List.map_nil, List.append_nil]
  | cons payload payloads ih =>
    rw [writeAll, writeWithHeader_eq]
    show writeAll (pipe ++ [message payload]) payloads = _
    rw [ih, List.map_cons, List.append_assoc, List.singleton_append]

/-- `ReadWithHeader` on a pipe with a message that a `DWORD` counts. -/
theorem readWithHeader_eq (data : List UInt8) (rest : Pipe) (hdata : data.length < 2 ^ 32) :
    ∃ ranges, readWithHeader (data :: rest) = some ⟨.ok (splitHeader data), rest, ranges⟩ ∧
      ∀ range ∈ ranges, range.Inside := by
  have hadd : ∀ a b, a + b ≤ data.length → addW 32 a b = a + b := by
    intro a b hab
    apply addW_of_lt
    omega
  obtain ⟨returned, hret, hin, hok, _⟩ :=
    readPipe_spec (fun _ => ⟨none, false⟩) (by decide : 0 < bufferSize) data rest hadd
  simp only [readFileOverlapped_not_pending] at hret
  obtain ⟨houtcome, hrest⟩ := hok fun _ _ => ⟨rfl, rfl⟩
  refine ⟨returned.ranges, ?_, hin⟩
  rw [readWithHeader, readPipe, hret, Option.map_some, houtcome, hrest]
  rfl

/-- Each call takes one message. -/
theorem readAll_eq (messages : List (List UInt8)) (h : ∀ data ∈ messages, data.length < 2 ^ 32) :
    ∃ ranges, readAll messages.length messages
        = some (messages.map (fun data => .ok (splitHeader data)), ranges) ∧
      ∀ range ∈ ranges, range.Inside := by
  induction messages with
  | nil => exact ⟨[], rfl, by simp⟩
  | cons data messages ih =>
    obtain ⟨hdata, hmessages⟩ := List.forall_mem_cons.mp h
    obtain ⟨ranges, hread, hin⟩ := readWithHeader_eq data messages hdata
    obtain ⟨ranges', hall, hin'⟩ := ih hmessages
    refine ⟨ranges ++ ranges', ?_, List.forall_mem_append.mpr ⟨hin, hin'⟩⟩
    rw [List.length_cons, readAll, hread, Option.bind_eq_bind, Option.bind_some, hall]
    rfl

theorem roundTrip_eq (payloads : List (List UInt8)) :
    ∃ ranges, roundTrip payloads
        = some (payloads.map (fun payload => .ok (splitHeader (message payload))), ranges) ∧
      ∀ range ∈ ranges, range.Inside := by
  obtain ⟨ranges, hall, hin⟩ := readAll_eq (payloads.map message) (by
    intro data hdata
    obtain ⟨payload, _, rfl⟩ := List.mem_map.mp hdata
    exact length_message_lt payload)
  refine ⟨ranges, ?_, hin⟩
  rw [roundTrip, writeAll_eq, List.nil_append]
  rw [List.length_map, List.map_map] at hall
  exact hall

/-- **Round trip.** Every call returns, and gives `ReadFile` ranges of its vector only. The
payloads come back with their headers exactly when they are all empty. -/
theorem payloads_roundTrip_iff (payloads : List (List UInt8))
    (hfits : ∀ payload ∈ payloads, FitsWithHeader payload) :
    (∃ outcomes ranges, roundTrip payloads = some (outcomes, ranges) ∧
      outcomes.length = payloads.length ∧ ∀ range ∈ ranges, range.Inside) ∧
    (RoundTrips payloads ↔ ∀ payload ∈ payloads, payload = []) := by
  obtain ⟨ranges, hall, hin⟩ := roundTrip_eq payloads
  refine ⟨⟨_, ranges, hall, List.length_map _, hin⟩, ?_⟩
  constructor
  · rintro ⟨outcomes, ranges', hall', houtcomes, _⟩ payload hmem
    rw [hall, Option.some.injEq, Prod.mk.injEq] at hall'
    rw [← hall'.1, List.map_inj_left] at houtcomes
    by_contra hne
    have hback := houtcomes payload hmem
    rw [Except.ok.injEq] at hback
    exact splitHeader_message_ne (hfits payload hmem) hne hback
  · intro hempty
    refine ⟨_, ranges, hall, ?_, hin⟩
    apply List.map_congr_left
    intro payload hmem
    rw [hempty payload hmem, splitHeader_message_nil]

/-- Two empty payloads. -/
theorem roundTrips_two_empty : RoundTrips [[], []] :=
  (payloads_roundTrip_iff [[], []] (by simp [FitsWithHeader])).2.mpr (by simp)

/-- A payload of one byte comes back as two. -/
theorem roundTrips_counterexample :
    (∃ ranges, roundTrip [[7]] = some ([.ok (⟨.TypeB, .TypeA⟩, [7, 0])], ranges)) ∧
    FitsWithHeader [7] ∧ ¬ RoundTrips [[7]] := by
  obtain ⟨ranges, hall, _⟩ := roundTrip_eq [[7]]
  have hback : splitHeader (message [7]) = (⟨.TypeB, .TypeA⟩, [7, 0]) := by decide
  rw [List.map_singleton, hback] at hall
  refine ⟨⟨ranges, hall⟩, by simp [FitsWithHeader, sizeofHeader], ?_⟩
  rintro ⟨outcomes, ranges', hall', houtcomes, _⟩
  rw [hall, Option.some.injEq, Prod.mk.injEq, houtcomes] at hall'
  simp at hall'

end Win32Experiments.PipeMessages
