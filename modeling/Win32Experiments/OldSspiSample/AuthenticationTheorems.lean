import Mathlib.Algebra.GroupWithZero.Nat
import Win32Experiments.OldSspiSample.Authentication

/-!
# Client and server stay in step

The exchange goes through three kinds of states: one side is about to call its package and
the other waits (`Turn`); a token is on its way (`Transit`); both sides are done (`Both`).

* `act_cost`: every step but a call of a package uses up bytes;
* `turn_step`, `transit_step`, `both_step`: what a step leads to from each kind of state;
* `authentication_inStep`: as long as no package completes and continues, no token is misread
  or lost, and every run ends with both sides done.
-/

namespace Win32Experiments.OldSspiSample

open Foundation Sspi

/-! ## Roles and bytes -/

@[simp] theorem other_other (r : Role) : r.other.other = r := by cases r <;> rfl

@[simp] theorem other_ne (r : Role) : r.other ≠ r := by cases r <;> decide

/-- There are two roles. -/
theorem eq_or_eq_other (q r : Role) : q = r ∨ q = r.other := by
  cases q <;> cases r <;> simp [Role.other]

theorem length_lengthOctets (token : List UInt8) : (lengthOctets token).length = 4 := by
  rw [lengthOctets, octets, List.length_map, length_leBytes]

theorem length_frameOctets (token : List UInt8) :
    (frameOctets token).length = 4 + token.length := by
  rw [frameOctets, List.length_append, length_lengthOctets, octets, List.length_map]

theorem valuesOf_octets (tag : Tag) (bytes : List UInt8) : valuesOf (octets tag bytes) = bytes := by
  rw [valuesOf, octets, List.map_map]
  exact List.map_id' _

theorem tag_of_mem_octets {tag : Tag} {bytes : List UInt8} {o : Octet} (h : o ∈ octets tag bytes) :
    o.tag = tag := by
  obtain ⟨_, _, rfl⟩ := List.mem_map.mp h
  rfl

/-- The length prefix of a token is read back as its length. -/
theorem leValue_lengthOctets {token : List UInt8} (h : token.length < 2 ^ 31) :
    leValue (valuesOf (lengthOctets token)) = token.length := by
  rw [lengthOctets, valuesOf_octets]
  exact leValue_leBytes (Nat.lt_trans h (by decide))

/-! ## Steps of one side -/

/-- What holds of a side wherever it stands: a `send` loop has bytes left, a `recv` loop does
not have more than it wants, and nothing is read as data before the exchange is over. -/
def Side.Sound (s : Side) : Prop :=
  match s.control with
  | .generate => s.data = []
  | .sendLength left body => left ≠ [] ∧ body ≠ [] ∧ s.data = []
  | .sendBody left => left ≠ [] ∧ s.data = []
  | .receiveLength got => got.length < 4 ∧ s.data = []
  | .receiveBody cbData got => got.length ≤ cbData ∧ s.data = []
  | .readBlock => s.data.length ≤ BIG_BUFF
  | _ => True

/-- A `recv` either waits, or reports a closed peer, or takes bytes off the inbox. -/
theorem recvSome_cases {wanted n : ℕ} {inbox : List Octet} {peerClosed : Bool} {onClosed : Side}
    {onBytes : List Octet → Side} {a : Action}
    (h : recvSome wanted inbox peerClosed n onClosed onBytes = some a) :
    (inbox = [] ∧ peerClosed = true ∧ a = ⟨onClosed, [], []⟩) ∨
    (inbox ≠ [] ∧ a = ⟨onBytes (inbox.take (min (n + 1) wanted)),
      inbox.drop (min (n + 1) wanted), []⟩) := by
  unfold recvSome at h
  split at h
  · next hnil =>
    split at h
    · next hclosed => exact Or.inl ⟨hnil, hclosed, (Option.some.inj h).symm⟩
    · simp at h
  · next hne => exact Or.inr ⟨hne, (Option.some.inj h).symm⟩

theorem gotLength_of_eq {s : Side} {got bytes : List Octet} (h : (got ++ bytes).length = 4) :
    s.gotLength got bytes =
      { s with
        control := .receiveBody (leValue (valuesOf (got ++ bytes))) []
        lengthRead := s.lengthRead ++ bytes } := by
  rw [Side.gotLength, if_pos h]

theorem gotLength_of_ne {s : Side} {got bytes : List Octet} (h : (got ++ bytes).length ≠ 4) :
    s.gotLength got bytes =
      { s with control := .receiveLength (got ++ bytes), lengthRead := s.lengthRead ++ bytes } := by
  rw [Side.gotLength, if_neg h]

theorem gotBody_of_lt {s : Side} {capacity cbData : ℕ} {got bytes : List Octet}
    (h : capacity < (got ++ bytes).length) :
    s.gotBody capacity cbData got bytes =
      { s with control := .overrun, bodyRead := s.bodyRead ++ bytes } := by
  rw [Side.gotBody, if_pos h]

theorem gotBody_of_le {s : Side} {capacity cbData : ℕ} {got bytes : List Octet}
    (h : (got ++ bytes).length ≤ capacity) :
    s.gotBody capacity cbData got bytes =
      { s with
        control := .receiveBody cbData (got ++ bytes), bodyRead := s.bodyRead ++ bytes } := by
  rw [Side.gotBody, if_neg (Nat.not_lt.mpr h)]

theorem sound_sent {cfg : Setting} {r : Role} {s : Side} (hdata : s.data = []) :
    (s.sent cfg r).Sound := by
  unfold Side.sent Side.Sound
  cases s.fDone with
  | false => exact ⟨(by decide : ([] : List Octet).length < 4), hdata⟩
  | true =>
    cases r with
    | client =>
      show s.data.length ≤ BIG_BUFF
      rw [hdata]
      exact Nat.zero_le _
    | server => trivial

theorem sound_sendMsg {cfg : Setting} {r : Role} {s : Side} {token : List UInt8} {fDone : Bool}
    (hdata : s.data = []) : (s.sendMsg cfg r token fDone).Sound := by
  unfold Side.sendMsg
  simp only
  split
  · exact sound_sent hdata
  · next hne =>
    refine ⟨?_, ?_, hdata⟩
    · rw [← List.length_pos_iff, length_lengthOctets]
      decide
    · simpa [octets] using hne

/-- A `recv` takes no more bytes off the inbox than it was asked for. -/
theorem length_asked_le (inbox : List Octet) (n wanted : ℕ) :
    (inbox.take (min (n + 1) wanted)).length ≤ wanted := by
  rw [List.length_take]
  omega

/-- No more bytes of the length field are received than it lacks. -/
theorem sound_gotLength {s : Side} {got bytes : List Octet} (hgot : got.length < 4)
    (hle : bytes.length ≤ 4 - got.length) (hdata : s.data = []) :
    (s.gotLength got bytes).Sound := by
  by_cases hfour : (got ++ bytes).length = 4
  · rw [gotLength_of_eq hfour]
    exact ⟨Nat.zero_le _, hdata⟩
  · rw [gotLength_of_ne hfour]
    refine ⟨?_, hdata⟩
    rw [List.length_append] at hfour ⊢
    omega

/-- No more bytes of the body are received than were announced. -/
theorem sound_gotBody {s : Side} {capacity cbData : ℕ} {got bytes : List Octet}
    (hgot : got.length ≤ cbData) (hle : bytes.length ≤ cbData - got.length) (hdata : s.data = []) :
    (s.gotBody capacity cbData got bytes).Sound := by
  by_cases hover : capacity < (got ++ bytes).length
  · rw [gotBody_of_lt hover]
    trivial
  · rw [gotBody_of_le (Nat.not_lt.mp hover)]
    refine ⟨?_, hdata⟩
    rw [List.length_append]
    omega

/-- Every step keeps a side sound. -/
theorem sound_act {cfg : Setting} {r : Role} {s : Side} {inbox : List Octet} {peerClosed : Bool}
    {n : ℕ} {a : Action} (hs : s.Sound) (h : s.act cfg r inbox peerClosed n = some a) :
    a.side.Sound := by
  cases hc : s.control with
  | generate =>
    simp only [Side.act, hc] at h
    simp only [Side.Sound, hc] at hs
    split at h
    · obtain rfl := Option.some.inj h
      trivial
    · obtain rfl := Option.some.inj h
      exact sound_sendMsg hs
  | sendLength left body =>
    simp only [Side.act, hc] at h
    simp only [Side.Sound, hc] at hs
    obtain rfl := Option.some.inj h
    unfold Side.Sound
    by_cases hrest : left.drop (n + 1) = []
    · simp only [if_pos hrest]
      exact hs.2
    · simp only [if_neg hrest]
      exact ⟨hrest, hs.2⟩
  | sendBody left =>
    simp only [Side.act, hc] at h
    simp only [Side.Sound, hc] at hs
    obtain rfl := Option.some.inj h
    by_cases hrest : left.drop (n + 1) = []
    · simp only [if_pos hrest]
      exact sound_sent hs.2
    · simp only [if_neg hrest]
      exact ⟨hrest, hs.2⟩
  | receiveLength got =>
    simp only [Side.act, hc] at h
    simp only [Side.Sound, hc] at hs
    rcases recvSome_cases h with ⟨_, _, rfl⟩ | ⟨_, rfl⟩
    · trivial
    -- `recv` was asked for what the prefix still lacks
    · exact sound_gotLength hs.1 (length_asked_le _ _ _) hs.2
  | receiveBody cbData got =>
    simp only [Side.act, hc] at h
    simp only [Side.Sound, hc] at hs
    -- the length may be 0, or negative as the `int` that `recv` is given
    split at h
    · obtain rfl := Option.some.inj h
      exact hs.2
    · split at h
      · obtain rfl := Option.some.inj h
        trivial
      · rcases recvSome_cases h with ⟨_, _, rfl⟩ | ⟨_, rfl⟩
        · trivial
        · exact sound_gotBody hs.1 (length_asked_le _ _ _) hs.2
  | sendBlock left =>
    simp only [Side.act, hc] at h
    split at h <;> obtain rfl := Option.some.inj h <;> trivial
  | readBlock =>
    simp only [Side.act, hc] at h
    simp only [Side.Sound, hc] at hs
    split at h
    · obtain rfl := Option.some.inj h
      trivial
    · rcases recvSome_cases h with ⟨_, _, rfl⟩ | ⟨_, rfl⟩
      · trivial
      · have hle := length_asked_le inbox n (BIG_BUFF - s.data.length)
        simp only [Side.Sound, List.length_append]
        omega
  | finished => simp [Side.act, hc] at h
  | failed => simp [Side.act, hc] at h
  | overrun => simp [Side.act, hc] at h

/-! ## Every step uses something up -/

/-- What a side still has to do after the exchange. -/
def Setting.fullCost (cfg : Setting) : Role → ℕ
  | .client => 2
  | .server => 2 * cfg.block.length + 2

/-- The steps that a side can make before its next call of the package, each byte counted
twice until it is sent. -/
def Side.cost (cfg : Setting) (r : Role) (s : Side) : ℕ :=
  match s.control with
  | .generate => cfg.fullCost r
  | .sendLength left body => 2 * (left.length + body.length) + cfg.fullCost r + 1
  | .sendBody left => 2 * left.length + cfg.fullCost r + 1
  | .receiveLength _ => cfg.fullCost r + 1
  | .receiveBody _ _ => cfg.fullCost r + 1
  | .sendBlock left => 2 * left.length + 1
  | .readBlock => 1
  | .finished => 0
  | .failed => 0
  | .overrun => 0

theorem fullCost_pos (cfg : Setting) (r : Role) : 0 < cfg.fullCost r := by
  cases r with
  | client => exact Nat.succ_pos _
  | server => exact Nat.succ_pos _

/-- When `SendMsg` has returned, the exchange goes on or is over. -/
theorem cost_sent_le (cfg : Setting) (r : Role) (s : Side) :
    (s.sent cfg r).cost cfg r ≤ cfg.fullCost r + if s.fDone then 0 else 1 := by
  unfold Side.sent Side.cost
  cases s.fDone with
  | false => exact Nat.le_refl _
  | true =>
    cases r with
    | client =>
      show 1 ≤ 2
      decide
    | server =>
      simp only [Setting.afterAuth, Setting.fullCost, octets, List.length_map, if_true]
      omega

theorem cost_sent_done_lt (cfg : Setting) (r : Role) {s : Side} (h : s.fDone = true) :
    (s.sent cfg r).cost cfg r < cfg.fullCost r := by
  unfold Side.sent Side.cost
  rw [h]
  cases r with
  | client =>
    show 1 < 2
    decide
  | server =>
    simp only [Setting.afterAuth, Setting.fullCost, octets, List.length_map, if_true]
    omega

/-- A byte of the length field leaves a side in its leg. -/
theorem cost_gotLength (cfg : Setting) (r : Role) (s : Side) (got bytes : List Octet) :
    (s.gotLength got bytes).cost cfg r = cfg.fullCost r + 1 := by
  by_cases hfour : (got ++ bytes).length = 4
  · rw [gotLength_of_eq hfour]
    rfl
  · rw [gotLength_of_ne hfour]
    rfl

/-- A byte of the body leaves a side in its leg, or overruns the buffer. -/
theorem cost_gotBody_le (cfg : Setting) (r : Role) (s : Side) (capacity cbData : ℕ)
    (got bytes : List Octet) :
    (s.gotBody capacity cbData got bytes).cost cfg r ≤ cfg.fullCost r + 1 := by
  by_cases hover : capacity < (got ++ bytes).length
  · rw [gotBody_of_lt hover]
    exact Nat.zero_le _
  · rw [gotBody_of_le (Nat.not_lt.mp hover)]
    exact Nat.le_refl _

/-- A `recv` of a side takes a byte from the wire, or the side comes to its end. -/
theorem recvSome_cost {cfg : Setting} {r : Role} {wanted n bound : ℕ} {inbox : List Octet}
    {peerClosed : Bool} {onClosed : Side} {onBytes : List Octet → Side} {a : Action}
    (h : recvSome wanted inbox peerClosed n onClosed onBytes = some a) (hwanted : 0 < wanted)
    (hclosed : onClosed.cost cfg r < bound)
    (hbytes : ∀ bytes, (onBytes bytes).cost cfg r ≤ bound) :
    a.side.cost cfg r + a.sent.length + a.inbox.length < bound + inbox.length := by
  rcases recvSome_cases h with ⟨rfl, _, rfl⟩ | ⟨hne, rfl⟩
  -- the peer has closed, and the side fails
  · simp only [List.length_nil]
    omega
  -- a byte that is received leaves the wire
  · have hpos := List.length_pos_iff.mpr hne
    have hcost := hbytes (inbox.take (min (n + 1) wanted))
    simp only [List.length_drop, List.length_nil]
    omega

/-- A step that is no call of the package moves bytes from the side to the wire, from the
wire to the side, or ends a loop. -/
theorem act_cost {cfg : Setting} {r : Role} {s : Side} {inbox : List Octet} {peerClosed : Bool}
    {n : ℕ} {a : Action} (hs : s.Sound) (hgen : s.control ≠ .generate)
    (h : s.act cfg r inbox peerClosed n = some a) :
    a.side.cost cfg r + a.sent.length + a.inbox.length < s.cost cfg r + inbox.length := by
  have hfull := fullCost_pos cfg r
  cases hc : s.control with
  | generate => exact absurd hc hgen
  -- a byte that is sent counts twice here and once on the wire
  | sendLength left body =>
    simp only [Side.act, hc] at h
    simp only [Side.Sound, hc] at hs
    obtain rfl := Option.some.inj h
    have hpos := List.length_pos_iff.mpr hs.1
    simp only [Side.cost, hc, List.length_take]
    by_cases hrest : left.drop (n + 1) = []
    · simp only [if_pos hrest]
      omega
    · simp only [if_neg hrest, List.length_drop]
      omega
  | sendBody left =>
    simp only [Side.act, hc] at h
    simp only [Side.Sound, hc] at hs
    obtain rfl := Option.some.inj h
    have hpos := List.length_pos_iff.mpr hs.1
    simp only [List.length_take]
    by_cases hrest : left.drop (n + 1) = []
    · have hle := cost_sent_le cfg r s
      have hone : (if s.fDone then 0 else 1) ≤ 1 := by split <;> omega
      have hstart : s.cost cfg r = 2 * left.length + cfg.fullCost r + 1 := by
        simp only [Side.cost, hc]
      simp only [if_pos hrest]
      omega
    · simp only [if_neg hrest, Side.cost, hc, List.length_drop]
      omega
  | receiveLength got =>
    simp only [Side.act, hc] at h
    simp only [Side.Sound, hc] at hs
    have hstart : s.cost cfg r = cfg.fullCost r + 1 := by simp only [Side.cost, hc]
    rw [hstart]
    exact recvSome_cost h (by omega) (Nat.succ_pos _) fun bytes =>
      Nat.le_of_eq (cost_gotLength cfg r s got bytes)
  | receiveBody cbData got =>
    simp only [Side.act, hc] at h
    simp only [Side.Sound, hc] at hs
    split at h
    · obtain rfl := Option.some.inj h
      simp only [Side.cost, hc, List.length_nil]
      omega
    · split at h
      · obtain rfl := Option.some.inj h
        simp only [Side.cost, hc, List.length_nil]
        omega
      · have hstart : s.cost cfg r = cfg.fullCost r + 1 := by simp only [Side.cost, hc]
        rw [hstart]
        exact recvSome_cost h (by omega) (Nat.succ_pos _) fun bytes =>
          cost_gotBody_le cfg r s (cfg.capacity r) cbData got bytes
  | sendBlock left =>
    simp only [Side.act, hc] at h
    split at h
    · obtain rfl := Option.some.inj h
      simp only [Side.cost, hc, List.length_nil]
      omega
    · next hne =>
      obtain rfl := Option.some.inj h
      have hpos := List.length_pos_iff.mpr hne
      simp only [Side.cost, hc, List.length_take, List.length_drop]
      omega
  | readBlock =>
    simp only [Side.act, hc] at h
    simp only [Side.Sound, hc] at hs
    split at h
    · obtain rfl := Option.some.inj h
      simp only [Side.cost, hc, List.length_nil]
      omega
    · have hstart : s.cost cfg r = 1 := by simp only [Side.cost, hc]
      rw [hstart]
      exact recvSome_cost h (by omega) Nat.one_pos fun _ => Nat.le_refl 1
  | finished => simp [Side.act, hc] at h
  | failed => simp [Side.act, hc] at h
  | overrun => simp [Side.act, hc] at h

/-! ## The package calls -/

/-- The condition on the packages: no answer completes and continues, and each token fits the
input buffer of the peer. -/
def Fits (cfg : Setting) : Role → List Leg → Prop
  | _, [] => True
  | r, leg :: legs =>
    leg.status ≠ .SEC_I_COMPLETE_AND_CONTINUE ∧ leg.token.length ≤ cfg.capacity r.other ∧
    leg.token.length < 2 ^ 31 ∧ Fits cfg r.other legs

theorem generate_eq (cfg : Setting) (r : Role) (inputs : List (List UInt8)) :
    cfg.generate r inputs = genContext (cfg.packages.answer r inputs) := by
  cases r <;> rfl

/-- Without an answer that completes and continues, `fDone` is what the package means. -/
theorem genContext_eq {leg : Leg} (hok : leg.finishes = true ∨ leg.continues = true)
    (hne : leg.status ≠ .SEC_I_COMPLETE_AND_CONTINUE) :
    genContext leg = some (leg.token, leg.finishes) := by
  unfold Leg.finishes Leg.continues at *
  unfold genContext
  cases hstatus : leg.status <;> simp_all [SEC_SUCCESS, completeAuthToken]

/-! ## Past the exchange -/

/-- The side `r` has returned from `DoAuthentication` and has since sent `out`. -/
def After (cfg : Setting) : Role → Side → List Octet → Prop
  | .client, s, out => (s.control = .readBlock ∨ s.control = .finished) ∧ out = []
  | .server, s, out => ∃ left,
    (s.control = .sendBlock left ∨ s.control = .finished ∧ left = []) ∧
    out ++ left = octets .block cfg.block

/-- Nothing about tokens has changed. -/
def SameTokens (s s' : Side) : Prop :=
  s'.fDone = s.fDone ∧ s'.consumed = s.consumed ∧ s'.emitted = s.emitted ∧
  s'.lengthRead = s.lengthRead ∧ s'.bodyRead = s.bodyRead

variable {cfg : Setting}

theorem after_sent {r : Role} {s : Side} (h : s.fDone = true) : After cfg r (s.sent cfg r) [] := by
  unfold Side.sent
  rw [h]
  cases r with
  | client => exact ⟨Or.inl rfl, rfl⟩
  | server => exact ⟨_, Or.inl rfl, rfl⟩

theorem after_control_ne {r : Role} {s : Side} {out : List Octet} (h : After cfg r s out) :
    s.control ≠ .generate := by
  intro hgen
  cases r with
  | client => rcases h.1 with hc | hc <;> simp [hgen] at hc
  | server =>
    obtain ⟨left, hc | ⟨hc, _⟩, _⟩ := h <;> simp [hgen] at hc

/-- Past the exchange a side only sends the block, or only reads. -/
theorem after_act {r : Role} {s : Side} {out inbox : List Octet} {peerClosed : Bool} {n : ℕ}
    {a : Action} (hs : After cfg r s out) (h : s.act cfg r inbox peerClosed n = some a) :
    After cfg r a.side (out ++ a.sent) ∧ SameTokens s a.side ∧
    ∃ taken, inbox = taken ++ a.inbox ∧ a.side.data = s.data ++ taken := by
  cases r with
  -- the client reads the block until the server closes
  | client =>
    obtain ⟨hc | hc, rfl⟩ := hs
    · simp only [Side.act, hc] at h
      split at h
      · obtain rfl := Option.some.inj h
        exact ⟨⟨Or.inr rfl, rfl⟩, ⟨rfl, rfl, rfl, rfl, rfl⟩, [], rfl, (List.append_nil _).symm⟩
      · rcases recvSome_cases h with ⟨rfl, _, rfl⟩ | ⟨_, rfl⟩
        · exact ⟨⟨Or.inr rfl, rfl⟩, ⟨rfl, rfl, rfl, rfl, rfl⟩, [], rfl, (List.append_nil _).symm⟩
        · exact ⟨⟨Or.inl rfl, rfl⟩, ⟨rfl, rfl, rfl, rfl, rfl⟩, _, (List.take_append_drop _ _).symm,
            rfl⟩
    · simp [Side.act, hc] at h
  -- the server sends it, or has sent all of it
  | server =>
    obtain ⟨left, hc | ⟨hc, _⟩, hblock⟩ := hs
    · simp only [Side.act, hc] at h
      split at h
      · next hnil =>
        obtain rfl := Option.some.inj h
        refine ⟨⟨[], Or.inr ⟨rfl, rfl⟩, ?_⟩, ⟨rfl, rfl, rfl, rfl, rfl⟩, [], rfl,
          (List.append_nil _).symm⟩
        rw [List.append_nil, List.append_nil, ← hblock, hnil, List.append_nil]
      · obtain rfl := Option.some.inj h
        refine ⟨⟨_, Or.inl rfl, ?_⟩, ⟨rfl, rfl, rfl, rfl, rfl⟩, [], rfl, (List.append_nil _).symm⟩
        rw [List.append_assoc, List.take_append_drop, hblock]
    · simp [Side.act, hc] at h

/-! ## The states of the exchange -/

/-- It is the turn of `r` to call its package, with the answers `legs` to come; its peer waits
for a token or, when it has finished, is past the exchange. -/
structure Turn (cfg : Setting) (net : Net) (r : Role) (peerFinished : Bool) (legs : List Leg) :
    Prop where
  contract : Contract peerFinished legs
  follows : Follows cfg.packages r (fun q => (net.side q).consumed) legs
  fits : Fits cfg r legs
  control : (net.side r).control = .generate
  wire : net.wire r = []
  waiting : peerFinished = false →
    (net.side r.other).control = .receiveLength [] ∧ net.wire r.other = []
  after : peerFinished = true → After cfg r.other (net.side r.other) (net.wire r.other)
  tokens : ∀ q, (net.side q.other).consumed = (net.side q).emitted
  data : ∀ q, (net.side q).data = []

/-- `r` is in `SendMsg` with `left` to send, or past it and has sent `out` since. -/
def Sending (cfg : Setting) (r : Role) (s : Side) (left out : List Octet) : Prop :=
  (∃ l body, s.control = .sendLength l body ∧ body ≠ [] ∧ left = l ++ body ∧ out = []) ∨
  (s.control = .sendBody left ∧ left ≠ [] ∧ out = []) ∨
  (left = [] ∧ s.fDone = true ∧ After cfg r s out) ∨
  (left = [] ∧ s.fDone = false ∧ s.control = .receiveLength [] ∧ out = [])

/-- A side is in `ReceiveMsg` and has received the bytes `received` of the frame of `token`. -/
def Receiving (s : Side) (token : List UInt8) (received : List Octet) : Prop :=
  s.control = .receiveLength received ∨
  ∃ got, s.control = .receiveBody token.length got ∧ received = lengthOctets token ++ got

/-- `token` is on its way from `r` to its peer, whose turn comes with the answers `legs`. -/
structure Transit (cfg : Setting) (net : Net) (r : Role) (token : List UInt8) (legs : List Leg) :
    Prop where
  contract : Contract (net.side r).fDone legs
  follows : Follows cfg.packages r.other (Function.update (fun q => (net.side q).consumed)
    r.other ((net.side r.other).consumed ++ [token])) legs
  fits : Fits cfg r.other legs
  token_ne : token ≠ []
  token_le : token.length ≤ cfg.capacity r.other
  token_lt : token.length < 2 ^ 31
  streams : ∃ left received w out, Sending cfg r (net.side r) left out ∧
    Receiving (net.side r.other) token received ∧ net.wire r = w ++ out ∧
    received ++ w ++ left = frameOctets token
  back : net.wire r.other = []
  token_emitted : (net.side r).emitted = (net.side r.other).consumed ++ [token]
  tokens : (net.side r).consumed = (net.side r.other).emitted
  data : ∀ q, (net.side q).data = []

/-- Both sides are past the exchange. -/
structure Both (cfg : Setting) (net : Net) : Prop where
  client : After cfg .client (net.side .client) (net.wire .client)
  server : After cfg .server (net.side .server)
    ((net.side .client).data ++ net.wire .server)
  tokens : ∀ q, (net.side q.other).consumed = (net.side q).emitted

/-- The states of the exchange, with the answers of the packages that are still to come. -/
def Stage (cfg : Setting) (legs : List Leg) (net : Net) : Prop :=
  (∃ r peerFinished, Turn cfg net r peerFinished legs) ∨
  (∃ r token, Transit cfg net r token legs) ∨
  legs = [] ∧ Both cfg net

/-! ## Steps of the two sides -/

/-- A step changes one side, extends its wire and takes from its inbox. -/
theorem step_cases {net net' : Net} {e : Role × ℕ} (h : net.step cfg e = some net') :
    ∃ a, (net.side e.1).act cfg e.1 (net.wire e.1.other) (net.side e.1.other).closed e.2 = some a ∧
      net'.side e.1 = a.side ∧ net'.side e.1.other = net.side e.1.other ∧
      net'.wire e.1 = net.wire e.1 ++ a.sent ∧ net'.wire e.1.other = a.inbox := by
  obtain ⟨a, hact, rfl⟩ := Option.map_eq_some_iff.mp h
  refine ⟨a, hact, ?_, ?_, ?_, ?_⟩
  · exact Function.update_self ..
  · exact Function.update_of_ne (other_ne _) ..
  · exact if_pos rfl
  · exact if_neg (other_ne _)

/-- What a step can still cost: the two sides and the bytes on the wires. -/
def Net.cost (cfg : Setting) (net : Net) : ℕ :=
  (net.side .client).cost cfg .client + (net.side .server).cost cfg .server +
  (net.wire .client).length + (net.wire .server).length

theorem cost_eq (net : Net) (r : Role) :
    net.cost cfg = (net.side r).cost cfg r + (net.side r.other).cost cfg r.other +
      (net.wire r).length + (net.wire r.other).length := by
  cases r with
  | client => rfl
  | server =>
    show _ = _ + (net.side .client).cost cfg .client + _ + (net.wire .client).length
    rw [Net.cost]
    omega

/-- Every step but a call of a package lowers the cost. -/
theorem step_cost {net net' : Net} {e : Role × ℕ} (hsound : ∀ q, (net.side q).Sound)
    (hgen : (net.side e.1).control ≠ .generate) (h : net.step cfg e = some net') :
    net'.cost cfg < net.cost cfg := by
  obtain ⟨a, hact, hside, hother, hwire, hinbox⟩ := step_cases h
  have hcost := act_cost (hsound e.1) hgen hact
  rw [cost_eq net e.1, cost_eq net' e.1, hside, hother, hwire, hinbox, List.length_append]
  omega

/-- What holds of both sides holds of the one that moved and the one that did not. -/
theorem forall_role {P : Role → Prop} (r : Role) (h : P r) (hother : P r.other) (q : Role) :
    P q := by
  rcases eq_or_eq_other q r with rfl | rfl
  · exact h
  · exact hother

/-- The bytes that may be sent and received, as far as tags tell. -/
def Side.Clean (s : Side) : Prop :=
  (∀ o ∈ s.lengthRead, o.tag = .length) ∧ ∀ o ∈ s.bodyRead, o.tag = .body

theorem clean_of_sameTokens {s s' : Side} (h : SameTokens s s') (hs : s.Clean) : s'.Clean := by
  obtain ⟨_, _, _, hlength, hbody⟩ := h
  rwa [Side.Clean, hlength, hbody]

theorem consumed_eq {net net' : Net}
    (h : ∀ q, (net'.side q).consumed = (net.side q).consumed) :
    (fun q => (net'.side q).consumed) = fun q => (net.side q).consumed :=
  funext h

/-- The cost of the answers to come. -/
def legsCost (legs : List Leg) : ℕ :=
  (legs.map fun leg => 2 * (frameOctets leg.token).length + 2).sum

/-- What a step leads to: a state of the exchange at a lower cost. -/
def StepsTo (cfg : Setting) (legs : List Leg) (net net' : Net) : Prop :=
  ∃ legs', Stage cfg legs' net' ∧
    legsCost legs' + net'.cost cfg < legsCost legs + net.cost cfg ∧
    ∀ q, (net.side q).Clean → (net'.side q).Clean

/-! ## The turn of a side -/

/-- The peer of the side whose turn it is can only go on past the exchange. -/
theorem turn_step_other {net net' : Net} {r : Role} {peerFinished : Bool} {legs : List Leg} {n : ℕ}
    (hT : Turn cfg net r peerFinished legs) (hsound : ∀ q, (net.side q).Sound)
    (h : net.step cfg (r.other, n) = some net') : StepsTo cfg legs net net' := by
  obtain ⟨a, hact, hside, hother, hwire, hinbox⟩ := step_cases h
  simp only [other_other] at hact hside hother hwire hinbox
  cases peerFinished with
  | false =>
    -- it waits for a token, and nothing is on the wire
    obtain ⟨hcontrol, _⟩ := hT.waiting rfl
    simp only [Side.act, hcontrol] at hact
    rcases recvSome_cases hact with ⟨_, hclosed, _⟩ | ⟨hne, _⟩
    · simp [Side.closed, hT.control] at hclosed
    · exact absurd hT.wire hne
  | true =>
    -- it has finished, and what it sends is behind the exchange
    have hafter := hT.after rfl
    obtain ⟨hafter', hsame, taken, htaken, hdata⟩ := after_act hafter hact
    rw [hT.wire] at htaken
    obtain ⟨htaken, hnil⟩ := List.nil_eq_append_iff.mp htaken
    have hcost := step_cost hsound (after_control_ne hafter) h
    have hconsumed := hsame.2.1
    have hemitted := hsame.2.2.1
    have hall : ∀ q, (net'.side q).consumed = (net.side q).consumed ∧
        (net'.side q).emitted = (net.side q).emitted ∧
        (net'.side q).data = (net.side q).data := by
      refine forall_role r ?_ ?_
      · rw [hother]
        exact ⟨rfl, rfl, rfl⟩
      · rw [hside, hdata, htaken, List.append_nil]
        exact ⟨hconsumed, hemitted, rfl⟩
    refine ⟨legs, Or.inl ⟨r, true, ?_⟩, by omega, ?_⟩
    · refine ⟨hT.contract, ?_, hT.fits, ?_, ?_, ?_, ?_, ?_, ?_⟩
      · rw [consumed_eq fun q => (hall q).1]
        exact hT.follows
      · rw [hother]
        exact hT.control
      · rw [hinbox, hnil]
      · simp
      · intro _
        rw [hside, hwire]
        exact hafter'
      · intro q
        rw [(hall q.other).1, (hall q).2.1]
        exact hT.tokens q
      · intro q
        rw [(hall q).2.2]
        exact hT.data q
    · refine forall_role r ?_ ?_
      · rw [hother]
        exact id
      · rw [hside]
        exact clean_of_sameTokens hsame

/-- An empty token ends the exchange: its side finishes, and the peer has. -/
theorem sendMsg_nil (r : Role) (s : Side) (fDone : Bool) :
    s.sendMsg cfg r [] fDone = ({ s with fDone } : Side).sent cfg r := by
  unfold Side.sendMsg
  exact if_pos rfl

theorem sendMsg_ne {token : List UInt8} (h : token ≠ []) (r : Role) (s : Side) (fDone : Bool) :
    s.sendMsg cfg r token fDone =
      { s with
        fDone
        control := .sendLength (lengthOctets token) (octets .body token)
        emitted := s.emitted ++ [token] } := if_neg h

/-- The last call of a package: its peer is done, and now it is. -/
theorem turn_last {net net' : Net} {r : Role} {leg : Leg} {a : Action}
    (hT : Turn cfg net r true [leg]) (htoken : leg.token = [])
    (ha : a = ⟨(net.side r).sendMsg cfg r leg.token true, net.wire r.other, []⟩)
    (hside : net'.side r = a.side) (hother : net'.side r.other = net.side r.other)
    (hwire : net'.wire r = net.wire r ++ a.sent) (hinbox : net'.wire r.other = a.inbox) :
    StepsTo cfg [leg] net net' := by
  rw [htoken, sendMsg_nil] at ha
  have hafter : After cfg r (net'.side r) [] := by
    rw [hside, ha]
    exact after_sent rfl
  have hpeer : After cfg r.other (net'.side r.other) (net'.wire r.other) := by
    rw [hother, hinbox, ha]
    exact hT.after rfl
  have hnil : net'.wire r = [] := by rw [hwire, ha, hT.wire, List.append_nil]
  have hdata : ∀ q, (net'.side q).data = [] := by
    refine forall_role r ?_ ?_
    · rw [hside, ha]
      exact hT.data r
    · rw [hother]
      exact hT.data r.other
  -- nothing was sent, so the wires are as they were
  have hboth : Both cfg net' := by
    refine ⟨?_, ?_, ?_⟩
    · cases r with
      | client =>
        rw [hnil]
        exact hafter
      | server => exact hpeer
    · rw [hdata, List.nil_append]
      cases r with
      | client => exact hpeer
      | server =>
        rw [hnil]
        exact hafter
    · have hkeep : ∀ q, (net'.side q).consumed = (net.side q).consumed ∧
          (net'.side q).emitted = (net.side q).emitted := by
        refine forall_role r ?_ ?_
        · rw [hside, ha]
          exact ⟨rfl, rfl⟩
        · rw [hother]
          exact ⟨rfl, rfl⟩
      intro q
      rw [(hkeep q.other).1, (hkeep q).2]
      exact hT.tokens q
  refine ⟨[], Or.inr (Or.inr ⟨rfl, hboth⟩), ?_, ?_⟩
  · have hlt : (net'.side r).cost cfg r < cfg.fullCost r := by
      rw [hside, ha]
      exact cost_sent_done_lt cfg r rfl
    have hstart : (net.side r).cost cfg r = cfg.fullCost r := by
      rw [Side.cost, hT.control]
    rw [cost_eq net r, cost_eq net' r, hother, hwire, hinbox, ha, hstart]
    simp only [legsCost, List.map_nil, List.sum_nil, List.append_nil]
    omega
  · refine forall_role r ?_ ?_
    · rw [hside, ha]
      exact id
    · rw [hother]
      exact id

/-- Any other call of a package puts a token on its way. -/
theorem turn_emit {net net' : Net} {r : Role} {leg : Leg} {legs : List Leg} {a : Action}
    (hT : Turn cfg net r false (leg :: legs))
    (ha : a = ⟨(net.side r).sendMsg cfg r leg.token leg.finishes, net.wire r.other, []⟩)
    (hside : net'.side r = a.side) (hother : net'.side r.other = net.side r.other)
    (hwire : net'.wire r = net.wire r ++ a.sent) (hinbox : net'.wire r.other = a.inbox) :
    StepsTo cfg (leg :: legs) net net' := by
  obtain ⟨_, htoken, hcontract⟩ := hT.contract
  obtain ⟨_, hle, hlt, hfits⟩ := hT.fits
  obtain ⟨_, hfollows⟩ := hT.follows
  obtain ⟨hwaits, hback⟩ := hT.waiting rfl
  rw [sendMsg_ne htoken] at ha
  have hcontrol : (net'.side r).control
      = .sendLength (lengthOctets leg.token) (octets .body leg.token) := by rw [hside, ha]
  have hkeep : ∀ q, (net'.side q).consumed = (net.side q).consumed ∧
      (net'.side q).data = (net.side q).data := by
    refine forall_role r ?_ ?_
    · rw [hside, ha]
      exact ⟨rfl, rfl⟩
    · rw [hother]
      exact ⟨rfl, rfl⟩
  refine ⟨legs, Or.inr (Or.inl ⟨r, leg.token, ?_⟩), ?_, ?_⟩
  · refine ⟨?_, ?_, hfits, htoken, hle, hlt, ?_, ?_, ?_, ?_, ?_⟩
    · rw [hside, ha]
      exact hcontract
    · rw [consumed_eq fun q => (hkeep q).1, hother]
      exact hfollows
    -- the whole frame is still to be sent
    · refine ⟨frameOctets leg.token, [], [], [], ?_, ?_, ?_, rfl⟩
      · exact Or.inl ⟨_, _, hcontrol, by simpa [octets] using htoken, rfl, rfl⟩
      · rw [hother]
        exact Or.inl hwaits
      · rw [hwire, ha, hT.wire]
    · rw [hinbox, ha]
      exact hback
    · rw [hside, ha, hother, hT.tokens r]
    · have htokens := hT.tokens r.other
      rw [other_other] at htokens
      rw [(hkeep r).1, hother, htokens]
    · intro q
      rw [(hkeep q).2]
      exact hT.data q
  · have hstart : (net.side r).cost cfg r = cfg.fullCost r := by
      rw [Side.cost, hT.control]
    have hcost : (net'.side r).cost cfg r
        = 2 * (frameOctets leg.token).length + cfg.fullCost r + 1 := by
      rw [Side.cost, hcontrol, frameOctets, List.length_append]
    rw [cost_eq net r, cost_eq net' r, hother, hwire, hinbox, ha, hstart, hcost]
    simp only [legsCost, List.map_cons, List.sum_cons, List.append_nil]
    omega
  · refine forall_role r ?_ ?_
    · rw [hside, ha]
      exact id
    · rw [hother]
      exact id

/-- A step from the turn of a side. -/
theorem turn_step {net net' : Net} {e : Role × ℕ} {r : Role} {peerFinished : Bool} {legs : List Leg}
    (hT : Turn cfg net r peerFinished legs) (hsound : ∀ q, (net.side q).Sound)
    (h : net.step cfg e = some net') : StepsTo cfg legs net net' := by
  obtain ⟨q, n⟩ := e
  rcases eq_or_eq_other q r with rfl | rfl
  · obtain ⟨a, hact, hside, hother, hwire, hinbox⟩ := step_cases h
    simp only at hact hside hother hwire hinbox
    cases legs with
    | nil => exact absurd hT.contract (by cases peerFinished <;> exact id)
    | cons leg legs =>
      have hanswer := hT.follows.1
      have hne := hT.fits.1
      cases peerFinished with
      | true =>
        obtain ⟨hfinishes, htoken, rfl⟩ := hT.contract
        have hgen := genContext_eq (Or.inl hfinishes) hne
        rw [hfinishes] at hgen
        simp only [Side.act, hT.control, generate_eq, hanswer, hgen] at hact
        exact turn_last hT htoken (Option.some.inj hact).symm hside hother hwire hinbox
      | false =>
        have hgen := genContext_eq hT.contract.1 hne
        simp only [Side.act, hT.control, generate_eq, hanswer, hgen] at hact
        exact turn_emit hT (Option.some.inj hact).symm hside hother hwire hinbox
  · exact turn_step_other hT hsound h

/-! ## A token on its way -/

theorem sending_control_ne {r : Role} {s : Side} {left out : List Octet}
    (h : Sending cfg r s left out) : s.control ≠ .generate := by
  rcases h with ⟨l, body, hc, _⟩ | ⟨hc, _⟩ | ⟨_, _, hafter⟩ | ⟨_, _, hc, _⟩
  · simp [hc]
  · simp [hc]
  · exact after_control_ne hafter
  · simp [hc]

theorem receiving_control_ne {s : Side} {token : List UInt8} {received : List Octet}
    (h : Receiving s token received) : s.control ≠ .generate ∧ s.closed = false := by
  rcases h with hc | ⟨got, hc, _⟩
  · simp [hc, Side.closed]
  · simp [hc, Side.closed]

/-- Nothing follows a frame before all of it is sent. -/
theorem sending_out {r : Role} {s : Side} {left out : List Octet} (h : Sending cfg r s left out)
    (hne : left ≠ []) : out = [] ∧ s.closed = false := by
  rcases h with ⟨l, body, hc, _, _, hout⟩ | ⟨hc, _, hout⟩ | ⟨hnil, _⟩ | ⟨hnil, _⟩
  · exact ⟨hout, by simp [hc, Side.closed]⟩
  · exact ⟨hout, by simp [hc, Side.closed]⟩
  · exact absurd hnil hne
  · exact absurd hnil hne

/-- A step of the sender moves bytes of the frame to its wire, or goes on behind it. -/
theorem sending_act {r : Role} {s : Side} {left out : List Octet} {peerClosed : Bool} {n : ℕ}
    {a : Action} (hs : Sending cfg r s left out) (hpeer : peerClosed = false)
    (h : s.act cfg r [] peerClosed n = some a) :
    SameTokens s a.side ∧ a.side.data = s.data ∧ a.inbox = [] ∧
    ∃ moved left' out', left = moved ++ left' ∧ Sending cfg r a.side left' out' ∧
      out ++ a.sent = moved ++ out' := by
  rcases hs with ⟨l, body, hc, hbody, rfl, rfl⟩ | ⟨hc, _, rfl⟩ | ⟨rfl, hdone, hafter⟩ |
    ⟨rfl, _, hc, rfl⟩
  -- in the send loop of the length
  · simp only [Side.act, hc] at h
    obtain rfl := Option.some.inj h
    refine ⟨⟨rfl, rfl, rfl, rfl, rfl⟩, rfl, rfl, l.take (n + 1), l.drop (n + 1) ++ body, [], ?_, ?_,
      ?_⟩
    · rw [← List.append_assoc, List.take_append_drop]
    · by_cases hrest : l.drop (n + 1) = []
      · rw [hrest]
        exact Or.inr (Or.inl ⟨by simp, hbody, rfl⟩)
      · exact Or.inl ⟨_, _, if_neg hrest, hbody, rfl, rfl⟩
    · rw [List.append_nil, List.nil_append]
  -- in the send loop of the body
  · simp only [Side.act, hc] at h
    obtain rfl := Option.some.inj h
    by_cases hrest : left.drop (n + 1) = []
    · have hall : left.take (n + 1) = left := by
        have hsplit := List.take_append_drop (n + 1) left
        rwa [hrest, List.append_nil] at hsplit
      simp only [if_pos hrest, hall]
      refine ⟨⟨rfl, rfl, rfl, rfl, rfl⟩, rfl, trivial, left, [], [], (List.append_nil _).symm, ?_,
        (List.append_nil _).symm⟩
      cases hdone : s.fDone with
      | true => exact Or.inr (Or.inr (Or.inl ⟨rfl, hdone, after_sent hdone⟩))
      | false =>
        refine Or.inr (Or.inr (Or.inr ⟨rfl, hdone, ?_, rfl⟩))
        rw [Side.sent, hdone]
        rfl
    · simp only [if_neg hrest]
      refine ⟨⟨rfl, rfl, rfl, rfl, rfl⟩, trivial, trivial, left.take (n + 1), left.drop (n + 1),
        [], (List.take_append_drop _ _).symm, Or.inr (Or.inl ⟨rfl, hrest, rfl⟩),
        (List.append_nil _).symm⟩
  -- past the frame, when the package has finished
  · obtain ⟨hafter', hsame, taken, htaken, hdata⟩ := after_act hafter h
    obtain ⟨rfl, hnil⟩ := List.nil_eq_append_iff.mp htaken
    rw [List.append_nil] at hdata
    exact ⟨hsame, hdata, hnil, [], [], out ++ a.sent, rfl,
      Or.inr (Or.inr (Or.inl ⟨rfl, hsame.1.trans hdone, hafter'⟩)), rfl⟩
  -- waiting for the next token: nothing can have arrived
  · simp only [Side.act, hc] at h
    rcases recvSome_cases h with ⟨_, hclosed, _⟩ | ⟨hne, _⟩
    · exact absurd (hpeer.symm.trans hclosed) (by decide)
    · exact absurd rfl hne

/-- A step of the sender. -/
theorem transit_step_sender {net net' : Net} {r : Role} {token : List UInt8} {legs : List Leg}
    {n : ℕ} (hT : Transit cfg net r token legs) (hsound : ∀ q, (net.side q).Sound)
    (h : net.step cfg (r, n) = some net') : StepsTo cfg legs net net' := by
  obtain ⟨a, hact, hside, hother, hwire, hinbox⟩ := step_cases h
  simp only at hact hside hother hwire hinbox
  obtain ⟨left, received, w, out, hsending, hreceiving, hstream, hframe⟩ := hT.streams
  rw [hT.back] at hact
  have hpeer := (receiving_control_ne hreceiving).2
  obtain ⟨hsame, hdata, hnil, moved, left', out', hleft, hsending', hout⟩ :=
    sending_act hsending hpeer hact
  have hcost := step_cost hsound (sending_control_ne hsending) h
  have hconsumed : ∀ q, (net'.side q).consumed = (net.side q).consumed := by
    refine forall_role r ?_ ?_
    · rw [hside, hsame.2.1]
    · rw [hother]
  refine ⟨legs, Or.inr (Or.inl ⟨r, token, ?_⟩), by omega, ?_⟩
  · refine ⟨?_, ?_, hT.fits, hT.token_ne, hT.token_le, hT.token_lt, ?_, ?_, ?_, ?_, ?_⟩
    · rw [hside, hsame.1]
      exact hT.contract
    · rw [consumed_eq hconsumed, hother]
      exact hT.follows
    · refine ⟨left', received, w ++ moved, out', ?_, ?_, ?_, ?_⟩
      · rw [hside]
        exact hsending'
      · rw [hother]
        exact hreceiving
      · rw [hwire, hstream, List.append_assoc, List.append_assoc, hout]
      · rw [← hframe, hleft]
        simp only [List.append_assoc]
    · rw [hinbox, hnil]
    · rw [hside, hother, hsame.2.2.1]
      exact hT.token_emitted
    · rw [hside, hother, hsame.2.1]
      exact hT.tokens
    · refine forall_role r ?_ ?_
      · rw [hside, hdata]
        exact hT.data r
      · rw [hother]
        exact hT.data r.other
  · refine forall_role r ?_ ?_
    · rw [hside]
      exact clean_of_sameTokens hsame
    · rw [hother]
      exact id

/-- A `recv` that stays inside the frame takes bytes of the frame only. -/
theorem take_wire {left received w out frame : List Octet} {k : ℕ}
    (hframe : received ++ w ++ left = frame) (hout : left ≠ [] → out = [])
    (hk : received.length + k ≤ frame.length) :
    (w ++ out).take k = w.take k ∧ (w ++ out).drop k = w.drop k ++ out := by
  -- behind the frame there are bytes only when all of it is on the wire
  by_cases hleft : left = []
  · have hlen := congrArg List.length hframe
    rw [hleft, List.append_nil, List.length_append] at hlen
    exact ⟨List.take_append_of_le_length (by omega), List.drop_append_of_le_length (by omega)⟩
  · rw [hout hleft, List.append_nil, List.append_nil]
    exact ⟨rfl, rfl⟩

/-- The receiver got a part of the frame. -/
theorem transit_receive {net net' : Net} {r : Role} {token : List UInt8} {legs : List Leg}
    {left received moved w out : List Octet} {a : Action}
    (hT : Transit cfg net r token legs) (hcost : net'.cost cfg < net.cost cfg)
    (hsending : Sending cfg r (net.side r) left out)
    (hside : net'.side r.other = a.side) (hother : net'.side r = net.side r)
    (hwire : net'.wire r.other = net.wire r.other ++ a.sent) (hinbox : net'.wire r = a.inbox)
    (hsent : a.sent = []) (hrest : a.inbox = w ++ out)
    (hframe : received ++ moved ++ w ++ left = frameOctets token)
    (hreceiving : Receiving a.side token (received ++ moved))
    (hkeep : a.side.consumed = (net.side r.other).consumed ∧
      a.side.emitted = (net.side r.other).emitted ∧ a.side.data = (net.side r.other).data)
    (hclean : (net.side r.other).Clean → a.side.Clean) : StepsTo cfg legs net net' := by
  have hconsumed : ∀ q, (net'.side q).consumed = (net.side q).consumed := by
    refine forall_role r ?_ ?_
    · rw [hother]
    · rw [hside, hkeep.1]
  refine ⟨legs, Or.inr (Or.inl ⟨r, token, ?_⟩), by omega, ?_⟩
  · refine ⟨?_, ?_, hT.fits, hT.token_ne, hT.token_le, hT.token_lt, ?_, ?_, ?_, ?_, ?_⟩
    · rw [hother]
      exact hT.contract
    · rw [consumed_eq hconsumed, hconsumed]
      exact hT.follows
    · refine ⟨left, received ++ moved, w, out, ?_, ?_, ?_, hframe⟩
      · rw [hother]
        exact hsending
      · rw [hside]
        exact hreceiving
      · rw [hinbox, hrest]
    · rw [hwire, hT.back, hsent]
      rfl
    · rw [hother, hconsumed]
      exact hT.token_emitted
    · rw [hside, hother, hkeep.2.1]
      exact hT.tokens
    · refine forall_role r ?_ ?_
      · rw [hother]
        exact hT.data r
      · rw [hside, hkeep.2.2]
        exact hT.data r.other
  · refine forall_role r ?_ ?_
    · rw [hother]
      exact id
    · rw [hside]
      exact hclean

/-- The receiver has the whole token, and its turn begins. -/
theorem transit_consume {net net' : Net} {r : Role} {token : List UInt8} {legs : List Leg}
    {out : List Octet} {a : Action}
    (hT : Transit cfg net r token legs) (hcost : net'.cost cfg < net.cost cfg)
    (hsending : Sending cfg r (net.side r) [] out) (hstream : net.wire r = out)
    (ha : a = ⟨{ net.side r.other with
      control := .generate
      consumed := (net.side r.other).consumed ++ [token] }, net.wire r, []⟩)
    (hside : net'.side r.other = a.side) (hother : net'.side r = net.side r)
    (hwire : net'.wire r.other = net.wire r.other ++ a.sent) (hinbox : net'.wire r = a.inbox) :
    StepsTo cfg legs net net' := by
  have hconsumed : (fun q => (net'.side q).consumed) =
      Function.update (fun q => (net.side q).consumed) r.other
        ((net.side r.other).consumed ++ [token]) := by
    funext q
    rcases eq_or_eq_other q r with rfl | rfl
    · rw [Function.update_of_ne (other_ne q).symm, hother]
    · rw [Function.update_self, hside, ha]
  refine ⟨legs, Or.inl ⟨r.other, (net.side r).fDone, ?_⟩, by omega, ?_⟩
  · refine ⟨hT.contract, ?_, hT.fits, ?_, ?_, ?_, ?_, ?_, ?_⟩
    · rw [hconsumed]
      exact hT.follows
    · rw [hside, ha]
    · rw [hwire, hT.back, ha]
      rfl
    · intro hdone
      rw [other_other, hother, hinbox, ha]
      -- a sender that has not finished waits for the next token
      rcases hsending with ⟨_, _, _, hne, hl, _⟩ | ⟨_, hne, _⟩ | ⟨_, hdone', _⟩ | ⟨_, _, hc, hout⟩
      · exact absurd (List.nil_eq_append_iff.mp hl).2 hne
      · exact absurd rfl hne
      · exact absurd (hdone.symm.trans hdone') (by decide)
      · exact ⟨hc, hstream.trans hout⟩
    · intro hdone
      rw [other_other, hother, hinbox, ha]
      -- a sender that has finished is past the exchange
      rcases hsending with ⟨_, _, _, hne, hl, _⟩ | ⟨_, hne, _⟩ | ⟨_, _, hafter⟩ | ⟨_, hdone', _⟩
      · exact absurd (List.nil_eq_append_iff.mp hl).2 hne
      · exact absurd rfl hne
      · rw [hstream]
        exact hafter
      · exact absurd (hdone.symm.trans hdone') (by decide)
    · refine forall_role r ?_ ?_
      · rw [hside, ha, hother, hT.token_emitted]
      · rw [other_other, hother, hside, ha]
        exact hT.tokens
    · refine forall_role r ?_ ?_
      · rw [hother]
        exact hT.data r
      · rw [hside, ha]
        exact hT.data r.other
  · refine forall_role r ?_ ?_
    · rw [hother]
      exact id
    · rw [hside, ha]
      exact id

/-- Octets of a frame that end with its length prefix are part of it. -/
theorem prefix_of_frame {token : List UInt8} {a b : List Octet} (h : a ++ b = frameOctets token)
    (hlen : a.length ≤ 4) : a <+: lengthOctets token := by
  have hpre : a <+: frameOctets token := ⟨b, h⟩
  refine List.prefix_of_prefix_length_le hpre ⟨_, rfl⟩ ?_
  rwa [length_lengthOctets]

/-- The receiver does not find its peer closed inside a frame. -/
theorem not_closed {r : Role} {s : Side} {left received w out : List Octet} {token : List UInt8}
    (hsending : Sending cfg r s left out) (hframe : received ++ w ++ left = frameOctets token)
    (hnil : w ++ out = []) (hlen : received.length < 4 + token.length) : s.closed = false := by
  refine (sending_out hsending fun hleft => ?_).2
  obtain ⟨rfl, _⟩ := List.append_eq_nil_iff.mp hnil
  have hcount := congrArg List.length hframe
  rw [hleft, List.append_nil, List.append_nil, length_frameOctets] at hcount
  omega

/-- A step of the receiver in the first `ReceiveBytes`. -/
theorem transit_step_length {net net' : Net} {r : Role} {token : List UInt8} {legs : List Leg}
    {n : ℕ} {left received w out : List Octet} (hT : Transit cfg net r token legs)
    (hsound : ∀ q, (net.side q).Sound) (h : net.step cfg (r.other, n) = some net')
    (hsending : Sending cfg r (net.side r) left out)
    (hc : (net.side r.other).control = .receiveLength received) (hstream : net.wire r = w ++ out)
    (hframe : received ++ w ++ left = frameOctets token) : StepsTo cfg legs net net' := by
  have hcost := step_cost hsound (show (net.side r.other).control ≠ .generate by simp [hc]) h
  obtain ⟨a, hact, hside, hother, hwire, hinbox⟩ := step_cases h
  simp only [other_other] at hact hside hother hwire hinbox
  have hshort := hsound r.other
  simp only [Side.Sound, hc] at hshort
  simp only [Side.act, hc, hstream] at hact
  rcases recvSome_cases hact with ⟨hnil, hclosed, _⟩ | ⟨_, ha⟩
  -- the peer cannot have closed: the frame is not all received
  · have hopen := not_closed hsending hframe hnil (by omega)
    exact absurd (hopen.symm.trans hclosed) (by decide)
  · set k := min (n + 1) (4 - received.length) with hk
    have htotal := congrArg List.length hframe
    rw [length_frameOctets] at htotal
    obtain ⟨htake, hdrop⟩ := @take_wire left received w out _ k hframe
      (fun hne => (sending_out hsending hne).1) (by rw [length_frameOctets]; omega)
    rw [htake, hdrop] at ha
    have hmoved : received ++ w.take k ++ w.drop k ++ left = frameOctets token := by
      rw [List.append_assoc received, List.take_append_drop, hframe]
    have hfour : (received ++ w.take k).length ≤ 4 := by
      rw [List.length_append, List.length_take]
      omega
    have hpre : received ++ w.take k <+: lengthOctets token :=
      prefix_of_frame ((List.append_assoc _ _ _).symm.trans hmoved) hfour
    -- with four bytes the prefix is complete
    have hreceiving : Receiving a.side token (received ++ w.take k) := by
      rw [ha]
      by_cases hlen : (received ++ w.take k).length = 4
      · have hall : received ++ w.take k = lengthOctets token :=
          hpre.eq_of_length (by rw [hlen, length_lengthOctets])
        refine Or.inr ⟨[], ?_, by rw [hall, List.append_nil]⟩
        simp only [gotLength_of_eq hlen]
        rw [hall, leValue_lengthOctets hT.token_lt]
      · apply Or.inl
        simp only [gotLength_of_ne hlen]
    refine transit_receive hT hcost hsending hside hother hwire hinbox (by rw [ha]) (by rw [ha])
      hmoved hreceiving (by rw [ha]; exact ⟨rfl, rfl, rfl⟩) ?_
    rintro ⟨hlengths, hbodies⟩
    rw [ha]
    refine ⟨fun o ho => ?_, hbodies⟩
    rcases List.mem_append.mp ho with ho | ho
    · exact hlengths o ho
    · exact tag_of_mem_octets (hpre.subset (List.mem_append_right _ ho))

/-- A step of the receiver in the second `ReceiveBytes`, or behind it. -/
theorem transit_step_body {net net' : Net} {r : Role} {token : List UInt8} {legs : List Leg}
    {n : ℕ} {left got w out : List Octet} (hT : Transit cfg net r token legs)
    (hsound : ∀ q, (net.side q).Sound) (h : net.step cfg (r.other, n) = some net')
    (hsending : Sending cfg r (net.side r) left out)
    (hc : (net.side r.other).control = .receiveBody token.length got)
    (hstream : net.wire r = w ++ out)
    (hframe : lengthOctets token ++ got ++ w ++ left = frameOctets token) :
    StepsTo cfg legs net net' := by
  have hcost := step_cost hsound (show (net.side r.other).control ≠ .generate by simp [hc]) h
  obtain ⟨a, hact, hside, hother, hwire, hinbox⟩ := step_cases h
  simp only [other_other] at hact hside hother hwire hinbox
  have hshort := hsound r.other
  simp only [Side.Sound, hc] at hshort
  have hbody : got ++ w ++ left = octets .body token := by
    have hparts := hframe
    rw [frameOctets, List.append_assoc, List.append_assoc] at hparts
    rw [List.append_assoc]
    exact List.append_cancel_left hparts
  have hcount := congrArg List.length hbody
  rw [octets, List.length_map, List.length_append, List.length_append] at hcount
  simp only [Side.act, hc, hstream] at hact
  split at hact
  · next hall =>
    -- the loop ends, `ReceiveMsg` returns the token
    have hw : w = [] := List.length_eq_zero_iff.mp (by omega)
    have hleft : left = [] := List.length_eq_zero_iff.mp (by omega)
    subst hw hleft
    have hgot : valuesOf got = token := by
      rw [List.append_nil, List.append_nil] at hbody
      rw [hbody, valuesOf_octets]
    refine transit_consume hT hcost hsending hstream ?_ hside hother hwire hinbox
    rw [hgot] at hact
    exact (Option.some.inj hact).symm.trans (by rw [hstream])
  · next hmore =>
    -- a length below 2 ^ 31 is the same as an `int`
    have hint : ¬ toInt32 token.length < 0 := by
      rw [toInt32_of_lt hT.token_lt]
      omega
    rw [if_neg hint] at hact
    rcases recvSome_cases hact with ⟨hnil, hclosed, _⟩ | ⟨_, ha⟩
    · have hopen := not_closed hsending hframe hnil (by
        rw [List.length_append, length_lengthOctets]
        omega)
      exact absurd (hopen.symm.trans hclosed) (by decide)
    · set k := min (n + 1) (token.length - got.length) with hk
      obtain ⟨htake, hdrop⟩ := @take_wire left (lengthOctets token ++ got) w out _ k hframe
        (fun hne => (sending_out hsending hne).1)
        (by rw [length_frameOctets, List.length_append, length_lengthOctets]; omega)
      rw [htake, hdrop] at ha
      have hmoved : got ++ w.take k ++ w.drop k ++ left = octets .body token := by
        rw [List.append_assoc got, List.take_append_drop, hbody]
      -- the token fits the buffer, so nothing is overrun
      have hroom : (got ++ w.take k).length ≤ cfg.capacity r.other := by
        refine Nat.le_trans ?_ hT.token_le
        rw [List.length_append, List.length_take]
        omega
      rw [gotBody_of_le hroom] at ha
      refine transit_receive hT hcost hsending hside hother hwire hinbox (by rw [ha]) (by rw [ha])
        ?_ (Or.inr ⟨got ++ w.take k, by rw [ha], by rw [List.append_assoc]⟩)
        (by rw [ha]; exact ⟨rfl, rfl, rfl⟩) ?_
      · rw [frameOctets, ← hmoved]
        simp only [List.append_assoc]
      · rintro ⟨hlengths, hbodies⟩
        rw [ha]
        refine ⟨hlengths, ?_⟩
        intro o ho
        rcases List.mem_append.mp ho with ho | ho
        · exact hbodies o ho
        · refine @tag_of_mem_octets .body token o ?_
          rw [← hmoved]
          exact List.mem_append_left _ (List.mem_append_left _ (List.mem_append_right _ ho))

/-- A step while a token is on its way. -/
theorem transit_step {net net' : Net} {e : Role × ℕ} {r : Role} {token : List UInt8}
    {legs : List Leg} (hT : Transit cfg net r token legs) (hsound : ∀ q, (net.side q).Sound)
    (h : net.step cfg e = some net') : StepsTo cfg legs net net' := by
  obtain ⟨q, n⟩ := e
  rcases eq_or_eq_other q r with rfl | rfl
  · exact transit_step_sender hT hsound h
  · obtain ⟨left, received, w, out, hsending, hreceiving, hstream, hframe⟩ := hT.streams
    rcases hreceiving with hc | ⟨got, hc, rfl⟩
    · exact transit_step_length hT hsound h hsending hc hstream hframe
    · exact transit_step_body hT hsound h hsending hc hstream hframe

/-! ## Both sides done -/

/-- A step once both sides are done. -/
theorem both_step {net net' : Net} {e : Role × ℕ} (hB : Both cfg net)
    (hsound : ∀ q, (net.side q).Sound) (h : net.step cfg e = some net') :
    StepsTo cfg [] net net' := by
  obtain ⟨q, n⟩ := e
  obtain ⟨a, hact, hside, hother, hwire, hinbox⟩ := step_cases h
  have hnil : net.wire .client = [] := hB.client.2
  have hkeep : SameTokens (net.side q) a.side → ∀ q', SameTokens (net.side q') (net'.side q') := by
    intro hsame
    refine forall_role q ?_ ?_
    · rw [hside]
      exact hsame
    · rw [hother]
      exact ⟨rfl, rfl, rfl, rfl, rfl⟩
  have htokens : (∀ q', SameTokens (net.side q') (net'.side q')) →
      ∀ q', (net'.side q'.other).consumed = (net'.side q').emitted := by
    intro hsame q'
    rw [(hsame q'.other).2.1, (hsame q').2.2.1]
    exact hB.tokens q'
  cases q with
  | client =>
    obtain ⟨hafter, hsame, taken, htaken, hdata⟩ := after_act hB.client hact
    have hcost := step_cost hsound (after_control_ne hB.client) h
    simp only [Role.other] at hother hinbox htaken
    refine ⟨[], Or.inr (Or.inr ⟨rfl, ?_, ?_, htokens (hkeep hsame)⟩), by omega, fun q' =>
      clean_of_sameTokens (hkeep hsame q')⟩
    · rw [hside, hwire]
      exact hafter
    · rw [hside, hother, hinbox, hdata, List.append_assoc, ← htaken]
      exact hB.server
  -- the client sends nothing, so the server takes nothing
  | server =>
    obtain ⟨hafter, hsame, taken, htaken, hdata⟩ := after_act hB.server hact
    have hcost := step_cost hsound (after_control_ne hB.server) h
    simp only [Role.other] at hother hinbox htaken
    rw [hnil] at htaken
    obtain ⟨_, hinboxNil⟩ := List.nil_eq_append_iff.mp htaken
    refine ⟨[], Or.inr (Or.inr ⟨rfl, ?_, ?_, htokens (hkeep hsame)⟩), by omega, fun q' =>
      clean_of_sameTokens (hkeep hsame q')⟩
    · rw [hother, hinbox, hinboxNil, ← hnil]
      exact hB.client
    · rw [hside, hother, hwire, ← List.append_assoc]
      exact hafter

/-! ## No deadlock -/

/-- A side that cannot step is closed, or waits for a peer that is not. -/
theorem act_eq_none {r : Role} {s : Side} {inbox : List Octet} {peerClosed : Bool} {n : ℕ}
    (h : s.act cfg r inbox peerClosed n = none) :
    s.closed = true ∨
    inbox = [] ∧ peerClosed = false ∧
      ((∃ got, s.control = .receiveLength got) ∨
        (∃ cbData got, s.control = .receiveBody cbData got ∧ got.length ≠ cbData) ∨
        s.control = .readBlock) := by
  -- a `recv` that waits has an empty inbox and an open peer
  have hwait : ∀ {wanted : ℕ} {onClosed : Side} {onBytes : List Octet → Side},
      recvSome wanted inbox peerClosed n onClosed onBytes = none →
      inbox = [] ∧ peerClosed = false := by
    intro wanted onClosed onBytes hrecv
    unfold recvSome at hrecv
    split at hrecv
    · next hnil =>
      split at hrecv
      · simp at hrecv
      · next hopen => exact ⟨hnil, eq_false_of_ne_true hopen⟩
    · simp at hrecv
  cases hc : s.control with
  | generate =>
    simp only [Side.act, hc] at h
    split at h <;> simp at h
  | sendLength left body => simp [Side.act, hc] at h
  | sendBody left => simp [Side.act, hc] at h
  | receiveLength got =>
    simp only [Side.act, hc] at h
    obtain ⟨hnil, hopen⟩ := hwait h
    exact Or.inr ⟨hnil, hopen, Or.inl ⟨got, rfl⟩⟩
  | receiveBody cbData got =>
    simp only [Side.act, hc] at h
    split at h
    · simp at h
    · next hmore =>
      split at h
      · simp at h
      · obtain ⟨hnil, hopen⟩ := hwait h
        exact Or.inr ⟨hnil, hopen, Or.inr (Or.inl ⟨cbData, got, rfl, hmore⟩)⟩
  | sendBlock left =>
    simp only [Side.act, hc] at h
    split at h <;> simp at h
  | readBlock =>
    simp only [Side.act, hc] at h
    split at h
    · simp at h
    · obtain ⟨hnil, hopen⟩ := hwait h
      exact Or.inr ⟨hnil, hopen, Or.inr (Or.inr rfl)⟩
  | finished => exact Or.inl (by simp [Side.closed, hc])
  | failed => exact Or.inl (by simp [Side.closed, hc])
  | overrun => exact Or.inl (by simp [Side.closed, hc])

/-- While a token is on its way, its sender or its receiver can step. -/
theorem transit_not_stuck {net : Net} {r : Role} {token : List UInt8} {legs : List Leg}
    (hT : Transit cfg net r token legs) (hsound : ∀ q, (net.side q).Sound)
    (hstuck : ∀ q, (net.side q).act cfg q (net.wire q.other) (net.side q.other).closed 0 = none) :
    False := by
  obtain ⟨left, received, w, out, hsending, hreceiving, hstream, hframe⟩ := hT.streams
  have hcount := congrArg List.length hframe
  rw [length_frameOctets, List.length_append, List.length_append] at hcount
  -- the sender could go on if it had bytes left
  have hleft : left = [] := by
    rcases hsending with ⟨l, body, hc, _⟩ | ⟨hc, _⟩ | ⟨hnil, _⟩ | ⟨hnil, _⟩
    · have hsend := hstuck r
      simp [Side.act, hc] at hsend
    · have hsend := hstuck r
      simp [Side.act, hc] at hsend
    · exact hnil
    · exact hnil
  rw [hleft, List.length_nil] at hcount
  have hrecv := hstuck r.other
  rw [other_other] at hrecv
  rcases act_eq_none hrecv with hclosed | ⟨hnil, _, hwaits⟩
  · exact absurd ((receiving_control_ne hreceiving).2.symm.trans hclosed) (by decide)
  -- so the frame is all received, and the receiver does not wait for more
  · rw [hstream] at hnil
    obtain ⟨rfl, _⟩ := List.append_eq_nil_iff.mp hnil
    have hshort := hsound r.other
    rcases hreceiving with hc | ⟨got, hc, rfl⟩
    · simp only [Side.Sound, hc] at hshort
      rw [List.length_nil] at hcount
      omega
    · rw [List.length_nil, List.length_append, length_lengthOctets] at hcount
      rcases hwaits with ⟨_, hc'⟩ | ⟨_, _, hc', hmore⟩ | hc'
      · simp [hc] at hc'
      · rw [hc] at hc'
        obtain ⟨rfl, rfl⟩ := Control.receiveBody.inj hc'
        omega
      · simp [hc] at hc'

/-- Once both sides are done, they stop only when the message was handled. -/
theorem both_stuck {net : Net} (hB : Both cfg net)
    (hstuck : ∀ q, (net.side q).act cfg q (net.wire q.other) (net.side q.other).closed 0 = none)
    (q : Role) : (net.side q).control = .finished := by
  have hserver : (net.side .server).control = .finished := by
    obtain ⟨left, hc | ⟨hc, _⟩, _⟩ := hB.server
    · have hsend := hstuck .server
      simp only [Side.act, hc] at hsend
      split at hsend <;> simp at hsend
    · exact hc
  cases q with
  | server => exact hserver
  | client =>
    rcases hB.client.1 with hc | hc
    · -- the server has closed the connection
      rcases act_eq_none (hstuck .client) with hclosed | ⟨_, hopen, _⟩
      · simp [Side.closed, hc] at hclosed
      · simp [Role.other, Side.closed, hserver] at hopen
    · exact hc

/-! ## Runs -/

/-- `DoAuthentication` has returned. -/
def Side.authenticated (s : Side) : Prop :=
  (∃ left, s.control = .sendBlock left) ∨ s.control = .readBlock ∨ s.control = .finished

/-- Client and server are in step: each token put out is the next one taken in, no byte is
misread, nothing fails; once both have authenticated, the client has read a front of the
encrypted message and the rest is next in its channel; and they stop only at the end. -/
structure InStep (cfg : Setting) (net : Net) : Prop where
  next_token : ∀ r, (net.side r.other).consumed <+: (net.side r).emitted
  lengths : ∀ r, ∀ o ∈ (net.side r).lengthRead, o.tag = .length
  bodies : ∀ r, ∀ o ∈ (net.side r).bodyRead, o.tag = .body
  alive : ∀ r, (net.side r).control ≠ .failed ∧ (net.side r).control ≠ .overrun
  drained : (∀ r, (net.side r).authenticated) → net.wire .client = [] ∧
    (net.side .client).data ++ net.wire .server <+: octets .block cfg.block
  stops : (∀ e, net.step cfg e = none) → ∀ r, (net.side r).control = .finished

theorem after_alive {r : Role} {s : Side} {out : List Octet} (h : After cfg r s out) :
    s.control ≠ .failed ∧ s.control ≠ .overrun := by
  cases r with
  | client => rcases h.1 with hc | hc <;> simp [hc]
  | server => obtain ⟨left, hc | ⟨hc, _⟩, _⟩ := h <;> simp [hc]

theorem inStep_of_turn {net : Net} {r : Role} {peerFinished : Bool} {legs : List Leg}
    (hT : Turn cfg net r peerFinished legs) (hclean : ∀ q, (net.side q).Clean) :
    InStep cfg net := by
  refine ⟨?_, fun q => (hclean q).1, fun q => (hclean q).2, ?_, ?_, ?_⟩
  · intro q
    exact (hT.tokens q) ▸ List.prefix_rfl
  · refine forall_role r (by simp [hT.control]) ?_
    cases peerFinished with
    | false => simp [(hT.waiting rfl).1]
    | true => exact after_alive (hT.after rfl)
  · intro hauth
    rcases hauth r with ⟨left, hc⟩ | hc | hc <;> simp [hT.control] at hc
  · intro hstuck
    have hstep := Option.map_eq_none_iff.mp (hstuck (r, 0))
    simp only at hstep
    rcases act_eq_none hstep with hclosed | ⟨_, _, ⟨_, hc⟩ | ⟨_, _, hc, _⟩ | hc⟩
    · simp [Side.closed, hT.control] at hclosed
    all_goals simp [hT.control] at hc

theorem inStep_of_transit {net : Net} {r : Role} {token : List UInt8} {legs : List Leg}
    (hT : Transit cfg net r token legs) (hsound : ∀ q, (net.side q).Sound)
    (hclean : ∀ q, (net.side q).Clean) : InStep cfg net := by
  obtain ⟨left, received, w, out, hsending, hreceiving, hstream, hframe⟩ := hT.streams
  refine ⟨?_, fun q => (hclean q).1, fun q => (hclean q).2, ?_, ?_, ?_⟩
  · refine forall_role r ?_ ?_
    · rw [hT.token_emitted]
      exact List.prefix_append _ _
    · rw [other_other]
      exact hT.tokens ▸ List.prefix_rfl
  · refine forall_role r ?_ ?_
    · rcases hsending with ⟨_, _, hc, _⟩ | ⟨hc, _⟩ | ⟨_, _, hafter⟩ | ⟨_, _, hc, _⟩
      · simp [hc]
      · simp [hc]
      · exact after_alive hafter
      · simp [hc]
    · rcases hreceiving with hc | ⟨got, hc, _⟩ <;> simp [hc]
  · intro hauth
    rcases hreceiving with hc | ⟨got, hc, _⟩ <;>
      rcases hauth r.other with ⟨left, hc'⟩ | hc' | hc' <;> simp [hc] at hc'
  · intro hstuck
    exact (transit_not_stuck hT hsound fun q => Option.map_eq_none_iff.mp (hstuck (q, 0))).elim

theorem inStep_of_both {net : Net} (hB : Both cfg net) (hclean : ∀ q, (net.side q).Clean) :
    InStep cfg net := by
  refine ⟨?_, fun q => (hclean q).1, fun q => (hclean q).2, ?_, ?_, ?_⟩
  · intro q
    exact (hB.tokens q) ▸ List.prefix_rfl
  · intro q
    cases q with
    | client => exact after_alive hB.client
    | server => exact after_alive hB.server
  · intro _
    obtain ⟨left, _, hblock⟩ := hB.server
    exact ⟨hB.client.2, left, hblock⟩
  · intro hstuck
    exact both_stuck hB fun q => Option.map_eq_none_iff.mp (hstuck (q, 0))

/-- A run from a state of the exchange stays in the exchange and uses up its cost. -/
theorem stage_run {legs : List Leg} {net net' : Net} {events : List (Role × ℕ)}
    (hstage : Stage cfg legs net) (hsound : ∀ q, (net.side q).Sound)
    (hclean : ∀ q, (net.side q).Clean) (h : run (Net.step cfg) net events = some net') :
    ∃ legs', Stage cfg legs' net' ∧ (∀ q, (net'.side q).Sound) ∧ (∀ q, (net'.side q).Clean) ∧
      events.length + (legsCost legs' + net'.cost cfg) ≤ legsCost legs + net.cost cfg := by
  induction events generalizing legs net with
  | nil =>
    obtain rfl := Option.some.inj h
    exact ⟨legs, hstage, hsound, hclean, by simp⟩
  | cons e es ih =>
    obtain ⟨mid, hstep, hrest⟩ := run_cons_eq_some.mp h
    -- one step, from whichever state of the exchange
    have hsteps : StepsTo cfg legs net mid := by
      rcases hstage with ⟨r, peerFinished, hT⟩ | ⟨r, token, hT⟩ | ⟨rfl, hB⟩
      · exact turn_step hT hsound hstep
      · exact transit_step hT hsound hstep
      · exact both_step hB hsound hstep
    have hsound' : ∀ q, (mid.side q).Sound := by
      obtain ⟨a, hact, hside, hother, _, _⟩ := step_cases hstep
      refine forall_role e.1 ?_ ?_
      · rw [hside]
        exact sound_act (hsound e.1) hact
      · rw [hother]
        exact hsound e.1.other
    obtain ⟨legs', hstage', hcost, hclean'⟩ := hsteps
    obtain ⟨legs'', hstage'', hsound'', hclean'', hcost''⟩ :=
      ih hstage' hsound' (fun q => hclean' q (hclean q)) hrest
    refine ⟨legs'', hstage'', hsound'', hclean'', ?_⟩
    rw [List.length_cons]
    omega

/-- **The exchange stays in step.** For packages that obey the contract, never complete and
continue, and put out tokens that fit, client and server are in step in every state of every
run; and no run goes on for ever, so every run that is not cut short ends with both done. -/
theorem authentication_inStep {legs : List Leg}
    (hfollows : Follows cfg.packages .client (fun _ => []) legs) (hcontract : Contract false legs)
    (hfits : Fits cfg .client legs) :
    (∀ events net, run (Net.step cfg) Net.start events = some net → InStep cfg net) ∧
    ∃ bound, ∀ events net, run (Net.step cfg) Net.start events = some net →
      events.length ≤ bound := by
  -- the exchange starts with the turn of the client, and the server waits
  have hstart : Turn cfg Net.start .client false legs := by
    refine ⟨hcontract, ?_, hfits, rfl, rfl, fun _ => ⟨rfl, rfl⟩, by simp, ?_, ?_⟩
    · have hnone : (fun q => (Net.start.side q).consumed) = fun _ => [] := by
        funext q
        cases q <;> rfl
      rw [hnone]
      exact hfollows
    · intro q
      cases q <;> rfl
    · intro q
      cases q <;> rfl
  have hsound : ∀ q, (Net.start.side q).Sound := by
    intro q
    cases q with
    | client => exact rfl
    | server => exact ⟨by decide, rfl⟩
  have hclean : ∀ q, (Net.start.side q).Clean := by
    intro q
    cases q <;> exact ⟨by simp [Net.start, Side.start], by simp [Net.start, Side.start]⟩
  constructor
  · intro events net h
    obtain ⟨legs', hstage, hsound', hclean', _⟩ :=
      stage_run (Or.inl ⟨_, _, hstart⟩) hsound hclean h
    rcases hstage with ⟨r, peerFinished, hT⟩ | ⟨r, token, hT⟩ | ⟨_, hB⟩
    · exact inStep_of_turn hT hclean'
    · exact inStep_of_transit hT hsound' hclean'
    · exact inStep_of_both hB hclean'
  · refine ⟨legsCost legs + Net.start.cost cfg, ?_⟩
    intro events net h
    obtain ⟨_, _, _, _, hcost⟩ := stage_run (Or.inl ⟨_, _, hstart⟩) hsound hclean h
    omega

/-- Packages of four legs, the last one empty. -/
def fourLegs : Setting where
  packages :=
    { initializeSecurityContext := fun inputs =>
        if inputs = [] then ⟨.SEC_I_CONTINUE_NEEDED, [1]⟩ else ⟨.SEC_E_OK, [3, 3]⟩
      acceptSecurityContext := fun inputs =>
        if inputs.length = 1 then ⟨.SEC_I_CONTINUE_NEEDED, [2]⟩ else ⟨.SEC_E_OK, []⟩ }
  block := [9, 9]
  capacity _ := 12000

theorem authentication_fourLegs :
    (∀ events net, run (Net.step fourLegs) Net.start events = some net → InStep fourLegs net) ∧
    ∃ bound, ∀ events net, run (Net.step fourLegs) Net.start events = some net →
      events.length ≤ bound := by
  refine @authentication_inStep fourLegs [⟨.SEC_I_CONTINUE_NEEDED, [1]⟩,
    ⟨.SEC_I_CONTINUE_NEEDED, [2]⟩, ⟨.SEC_E_OK, [3, 3]⟩, ⟨.SEC_E_OK, []⟩] ?_ ?_ ?_
  · exact ⟨rfl, rfl, rfl, rfl, trivial⟩
  · exact ⟨by decide, by decide, by decide, by decide, by decide, by decide, rfl, rfl, rfl⟩
  · simp [Fits, fourLegs]

/-- A client package that completes its first token and continues. -/
def completesAndContinues : Setting where
  packages :=
    { initializeSecurityContext := fun inputs =>
        if inputs = [] then ⟨.SEC_I_COMPLETE_AND_CONTINUE, [1]⟩ else ⟨.SEC_E_OK, []⟩
      acceptSecurityContext := fun _ => ⟨.SEC_E_OK, [2]⟩ }
  block := [9]
  capacity _ := 12000

/-- The client is done after its first token, so the server's token is next in the channel from
which the client reads the encrypted message. -/
theorem completeAndContinue_counterexample :
    Follows completesAndContinues.packages .client (fun _ => [])
      [⟨.SEC_I_COMPLETE_AND_CONTINUE, [1]⟩, ⟨.SEC_E_OK, [2]⟩, ⟨.SEC_E_OK, []⟩] ∧
    Contract false [⟨.SEC_I_COMPLETE_AND_CONTINUE, [1]⟩, ⟨.SEC_E_OK, [2]⟩, ⟨.SEC_E_OK, []⟩] ∧
    ∃ net, run (Net.step completesAndContinues) Net.start
        [(.client, 0), (.client, 3), (.client, 0), (.server, 3), (.server, 0), (.server, 0),
          (.server, 0), (.server, 3), (.server, 0)] = some net ∧
      (net.side .client).control = .readBlock ∧ net.wire .server = frameOctets [2] ∧
      ¬ InStep completesAndContinues net := by
  refine ⟨⟨rfl, rfl, rfl, trivial⟩,
    ⟨by decide, by decide, by decide, by decide, by decide, rfl, rfl⟩, _, rfl, rfl, rfl, ?_⟩
  intro hstep
  have hdrained := hstep.drained fun r => by
    cases r with
    | client => exact Or.inr (Or.inl rfl)
    | server => exact Or.inl ⟨_, rfl⟩
  exact absurd hdrained.2 (by decide)

end Win32Experiments.OldSspiSample
