import Win32Experiments.NamedPipeTheorems

/-!
# The two `ReadPipe` of `SmallPipes`

The pipe operates as `completion` says: the `k`th `ReadFile` of a call fails, or takes the next
bytes of the message, at once or later. The blocking version waits in `ReadFile`; the other one
waits for the event of the `OVERLAPPED`, but then asks `GetLastError` about the call.
-/

namespace Win32Experiments.SmallPipes

open Foundation NamedPipe

section

variable (completion : ℕ → Completion) (pipe : Pipe) (bytesToRead : ℕ)

/-- `Blocking::ReadPipe`. The count of 64 bits never exceeds the size of the vector. -/
def Blocking.readPipe : Option ReadPipeReturn :=
  NamedPipe.readPipe (· + ·) bytesToRead (fun k => readFile (completion k).error) pipe

/-- `Nonblocking::ReadPipe`. -/
def Nonblocking.readPipe : Option ReadPipeReturn :=
  NamedPipe.readPipe (· + ·) bytesToRead (fun k => readFileOverlapped (completion k)) pipe

/-- Both return; the second with the bytes that the first returns, which are the message when
no operation fails; and it throws only when the first does. -/
structure Agree (message : List UInt8) (rest : Pipe) : Prop where
  returns : ∃ blocking nonblocking,
    Blocking.readPipe completion (message :: rest) bytesToRead = some blocking ∧
    Nonblocking.readPipe completion (message :: rest) bytesToRead = some nonblocking ∧
    (∀ bytes, nonblocking.outcome = .ok bytes → blocking.outcome = .ok bytes) ∧
    (∀ e, nonblocking.outcome = .error e → ∃ e', blocking.outcome = .error e')
  whole : (∀ k, (completion k).error = none) →
    ∃ blocking, Blocking.readPipe completion (message :: rest) bytesToRead = some blocking ∧
      blocking.outcome = .ok message ∧ blocking.pipe = rest

/-- Of the operations that the message needs one fails, or none returns before it is over. -/
def FailsOrNonePending (message : List UInt8) : Prop :=
  (∃ k < readsNeeded message.length bytesToRead, (completion k).error ≠ none) ∨
  ∀ k < readsNeeded message.length bytesToRead, (completion k).pending = false

end

/-! ## The blocking version -/

section

variable (completion : ℕ → Completion) {bytesToRead : ℕ} (message : List UInt8) (rest : Pipe)

/-- The blocking version returns, with the message or by an exception. -/
theorem blocking_readPipe_spec (hn : 0 < bytesToRead) :
    ∃ returned, Blocking.readPipe completion (message :: rest) bytesToRead = some returned ∧
      ((∀ k < readsNeeded message.length bytesToRead, (completion k).error = none) →
        returned.outcome = .ok message ∧ returned.pipe = rest) ∧
      ((∃ k < readsNeeded message.length bytesToRead, (completion k).error ≠ none) →
        ∃ e, returned.outcome = .error e) := by
  obtain ⟨returned, hret, _, hok, herr⟩ := @readPipe_spec (· + ·) bytesToRead
    (fun k => ⟨(completion k).error, false⟩) hn message rest (fun _ _ _ => rfl)
  refine ⟨returned, ?_, ?_, ?_⟩
  · rw [Blocking.readPipe, ← hret]
    simp only [readFileOverlapped_not_pending]
  · intro hall
    exact hok fun k hk => ⟨hall k hk, rfl⟩
  · rintro ⟨k, hk, hfails⟩
    exact herr ⟨k, hk, fun hquiet => hfails hquiet.1⟩

/-- So does the other version, which needs operations that end at once. -/
theorem nonblocking_readPipe_spec (hn : 0 < bytesToRead) :
    ∃ returned, Nonblocking.readPipe completion (message :: rest) bytesToRead = some returned ∧
      ((∀ k < readsNeeded message.length bytesToRead, (completion k).Quiet) →
        returned.outcome = .ok message ∧ returned.pipe = rest) ∧
      ((∃ k < readsNeeded message.length bytesToRead, ¬ (completion k).Quiet) →
        ∃ e, returned.outcome = .error e) := by
  obtain ⟨returned, hret, _, hspec⟩ :=
    @readPipe_spec (· + ·) bytesToRead completion hn message rest (fun _ _ _ => rfl)
  exact ⟨returned, hret, hspec⟩

/-! ## Agreement -/

end

end Win32Experiments.SmallPipes
