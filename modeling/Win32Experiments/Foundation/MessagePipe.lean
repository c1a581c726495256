import Mathlib.Tactic.Common

/-!
# Message pipes

A pipe that keeps message boundaries is the list of the messages in it. A read takes cells of
the first message only, and says whether it took the rest of it; the next read goes on where
it stopped. A message of `length` cells is read by `readsNeeded length n` reads of `n` cells.
-/

namespace Foundation

variable {α : Type*}

/-- What a read takes from a pipe: the cells, whether they are the rest of their message, and
the pipe behind it. -/
structure MessageRead (α : Type*) where
  cells : List α
  complete : Bool
  pipe : List (List α)
deriving DecidableEq, Repr

/-- A read of at most `n` cells; there is nothing to read in an empty pipe. -/
def readMessage : List (List α) → ℕ → Option (MessageRead α)
  | [], _ => none
  | message :: rest, n =>
    if message.length ≤ n then some ⟨message, true, rest⟩
    else some ⟨message.take n, false, message.drop n :: rest⟩

/-- How many reads of `n` cells a message of `length` cells needs; an empty message needs one. -/
def readsNeeded (length n : ℕ) : ℕ := (length - 1) / n + 1

section

variable {message : List α} {rest : List (List α)} {length n : ℕ}

/-- A message that fits is read at once. -/
theorem readMessage_of_le (h : message.length ≤ n) :
    readMessage (message :: rest) n = some ⟨message, true, rest⟩ := by
  rw [readMessage, if_pos h]

/-- A longer message is read in part. -/
theorem readMessage_of_lt (h : n < message.length) :
    readMessage (message :: rest) n = some ⟨message.take n, false, message.drop n :: rest⟩ := by
  rw [readMessage, if_neg (by omega)]

theorem readsNeeded_of_le (h : length ≤ n) (hn : 0 < n) : readsNeeded length n = 1 := by
  have hlt : length - 1 < n := by omega
  rw [readsNeeded, Nat.div_eq_of_lt hlt]

/-- A read in part leaves one read less. -/
theorem readsNeeded_of_lt (h : n < length) (hn : 0 < n) :
    readsNeeded length n = readsNeeded (length - n) n + 1 := by
  have hsplit : length - 1 = length - n - 1 + n := by omega
  rw [readsNeeded, readsNeeded, hsplit, Nat.add_div_right _ hn]

theorem readsNeeded_pos : 0 < readsNeeded length n :=
  Nat.succ_pos _

end

end Foundation
