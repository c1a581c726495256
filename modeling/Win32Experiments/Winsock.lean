import Win32Experiments.Foundation.Memory

/-!
# Socket calls

What the calls on a stream socket return. The stream itself is the environment's: a run is
given the outcome of each of its calls.
-/

namespace Win32Experiments.Winsock

open Foundation

/-- What a `recv` call returns. -/
inductive RecvOutcome
  | data (bytes : List UInt8)
  | closed
  | error
deriving DecidableEq, Repr

/-! ## Loops of `send` calls -/

/-- What a loop of `send` calls has put on the wire, the number of calls made on the socket, and
whether no call failed. -/
structure Sent where
  wire : List UInt8
  calls : ℕ
  complete : Bool
deriving DecidableEq, Repr

/-- Sends `buffer[pos, stop)` by calls that take what they can: the call numbered `k` at most
`accepts k` bytes, and none of them if it fails. -/
def sendRange (accepts : ℕ → ℕ) (buffer : List UInt8) (stop pos calls : ℕ) : Sent :=
  if stop ≤ pos then ⟨[], calls, true⟩
  else
    let d := min (accepts calls) (stop - pos)
    if _hd : d = 0 then ⟨[], calls + 1, false⟩
    else
      let rest := sendRange accepts buffer stop (pos + d) (calls + 1)
      { rest with wire := window buffer pos d ++ rest.wire }
termination_by stop - pos

/-- If no call fails, the loop sends all of the range, in whatever pieces. -/
theorem sendRange_complete {accepts : ℕ → ℕ} (haccepts : ∀ k, 0 < accepts k)
    (buffer : List UInt8) (stop pos calls : ℕ) :
    (sendRange accepts buffer stop pos calls).wire = window buffer pos (stop - pos) ∧
      (sendRange accepts buffer stop pos calls).complete = true := by
  induction pos, calls using sendRange.induct accepts buffer stop with
  | case1 pos calls hpos =>
    rw [sendRange, if_pos hpos, Nat.sub_eq_zero_of_le hpos, window_zero_len]
    exact ⟨rfl, rfl⟩
  | case2 pos calls hpos d hd =>
    have hpositive := haccepts calls
    have hzero : min (accepts calls) (stop - pos) = 0 := hd
    omega
  | case3 pos calls hpos d hd ih =>
    obtain ⟨hwire, hcomplete⟩ := ih
    have hsplit : stop - pos = d + (stop - (pos + d)) := by
      have hle : d ≤ stop - pos := Nat.min_le_right _ _
      omega
    have hstep : sendRange accepts buffer stop pos calls
        = { sendRange accepts buffer stop (pos + d) (calls + 1) with
            wire := window buffer pos d
              ++ (sendRange accepts buffer stop (pos + d) (calls + 1)).wire } := by
      rw [sendRange, if_neg hpos, dif_neg hd]
    rw [hstep, hsplit, window_add, ← hwire]
    exact ⟨rfl, hcomplete⟩

/-- A loop that reports that no call failed has sent all of the range. -/
theorem wire_sendRange_of_complete {accepts : ℕ → ℕ} {buffer : List UInt8} {stop pos calls : ℕ}
    (h : (sendRange accepts buffer stop pos calls).complete = true) :
    (sendRange accepts buffer stop pos calls).wire = window buffer pos (stop - pos) := by
  induction pos, calls using sendRange.induct accepts buffer stop with
  | case1 pos calls hpos =>
    rw [sendRange, if_pos hpos, Nat.sub_eq_zero_of_le hpos, window_zero_len]
  | case2 pos calls hpos d hd =>
    rw [sendRange, if_neg hpos, dif_pos hd] at h
    contradiction
  | case3 pos calls hpos d hd ih =>
    have hsplit : stop - pos = d + (stop - (pos + d)) := by
      have hle : d ≤ stop - pos := Nat.min_le_right _ _
      omega
    rw [sendRange, if_neg hpos, dif_neg hd] at h ⊢
    show window buffer pos d ++ (sendRange accepts buffer stop (pos + d) (calls + 1)).wire = _
    rw [hsplit, window_add, ← ih h]

end Win32Experiments.Winsock
