import Win32Experiments.Foundation.Occurrences
import Mathlib.Data.List.TakeWhile
import Mathlib.Tactic.Common

/-!
# The string functions of `ExecuteCmd`

`Split` takes the pieces of a string off its front. `splitLoop` has fuel for one turn more than the
string has characters: a turn shortens the string, unless the delimiter is empty.

* `split_of_find_eq_none`, `split_of_find_eq_some`: what a turn does;
* `split_spec`: `Split` is the inverse of joining the pieces with the delimiter;
* `trim_eq_self_iff`, `trim_append_spaces`: what `Trim` leaves.
-/

namespace Win32Experiments.ExecuteCmd.Strings

open Foundation

/-! ## The functions -/

/-- `std::isspace`: tab, line feed, vertical tab, form feed, carriage return and the blank. -/
def isspace (ch : UInt8) : Bool := (9 ≤ ch && ch ≤ 13) || ch == 32

/-- `LeftTrim`. -/
def leftTrim (s : List UInt8) : List UInt8 := s.dropWhile isspace

/-- `RightTrim`. -/
def rightTrim (s : List UInt8) : List UInt8 := (s.reverse.dropWhile isspace).reverse

/-- `Trim`. -/
def trim (s : List UInt8) : List UInt8 := rightTrim (leftTrim s)

/-- The loop of `Split`, with fuel. -/
def splitLoop (delimiter : List UInt8) :
    ℕ → List (List UInt8) → List UInt8 → Option (List (List UInt8))
  | 0, _, _ => none
  | fuel + 1, results, intermediateString =>
    match find delimiter intermediateString with
    | none => some results
    | some position =>
      let split := intermediateString.take position
      let intermediateString := intermediateString.drop (position + delimiter.length)
      -- on the last turn, the remainder is entered as well
      let remainder :=
        if find delimiter intermediateString = none then [intermediateString] else []
      splitLoop delimiter fuel (results ++ [split] ++ remainder) intermediateString

/-- `Split`; `none` when its loop does not end. -/
def split (stringToSplit delimiter : List UInt8) : Option (List (List UInt8)) :=
  if findFrom delimiter stringToSplit 0 = none then
    some [stringToSplit]
  else
    splitLoop delimiter (stringToSplit.length + 1) [] stringToSplit

/-! ## The turns of `Split` -/

section

variable {delimiter s : List UInt8} {fuel fuel' i : ℕ}

/-- The loop adds the same pieces to any results, however much fuel is left. -/
theorem splitLoop_eq (hd : delimiter ≠ []) (results : List (List UInt8))
    (hfuel : s.length < fuel) (hfuel' : s.length < fuel') :
    splitLoop delimiter fuel results s =
      (splitLoop delimiter fuel' [] s).map (results ++ ·) := by
  induction s using find_induction hd generalizing fuel fuel' results with
  | none s hnone =>
    obtain ⟨fuel, rfl⟩ := Nat.exists_eq_add_of_lt hfuel
    obtain ⟨fuel', rfl⟩ := Nat.exists_eq_add_of_lt hfuel'
    rw [splitLoop, hnone, splitLoop, hnone]
    show some results = some (results ++ [])
    rw [List.append_nil]
  | some s i hsome ih =>
    have hle := find_add_length_le hsome
    have hpos := List.length_pos_iff.mpr hd
    obtain ⟨fuel, rfl⟩ := Nat.exists_eq_add_of_lt hfuel
    obtain ⟨fuel', rfl⟩ := Nat.exists_eq_add_of_lt hfuel'
    have hlen : (s.drop (i + delimiter.length)).length < s.length + fuel := by
      rw [List.length_drop]
      omega
    have hlen' : (s.drop (i + delimiter.length)).length < s.length + fuel' := by
      rw [List.length_drop]
      omega
    rw [splitLoop, hsome, splitLoop, hsome]
    show splitLoop _ _ (results ++ _ ++ _) _ = (splitLoop _ _ ([] ++ _ ++ _) _).map _
    generalize (if find delimiter (s.drop (i + delimiter.length)) = none then _ else _) = remainder
    have hleft := ih (results ++ [s.take i] ++ remainder) hlen hlen'
    have hright := ih ([] ++ [s.take i] ++ remainder) hlen' hlen'
    rw [hleft, hright, Option.map_map]
    congr 1
    funext pieces
    simp only [Function.comp_apply, List.nil_append, List.append_assoc]

/-- A string without the delimiter is the only piece. -/
theorem split_of_find_eq_none (h : find delimiter s = none) : split s delimiter = some [s] := by
  rw [split, findFrom_zero, if_pos h]

/-- What is before the first delimiter is the first piece, and the others are those of what is
behind it. -/
theorem split_of_find_eq_some (hd : delimiter ≠ []) (h : find delimiter s = some i) :
    split s delimiter =
      (split (s.drop (i + delimiter.length)) delimiter).map (s.take i :: ·) := by
  have hle := find_add_length_le h
  have hpos := List.length_pos_iff.mpr hd
  have hlen : (s.drop (i + delimiter.length)).length < s.length := by
    rw [List.length_drop]
    omega
  have hfound : ¬ find delimiter s = none := by
    rw [h]
    exact Option.some_ne_none i
  rw [split, findFrom_zero, if_neg hfound, splitLoop, h]
  show splitLoop _ _ ([] ++ _ ++ _) _ = _
  rw [splitLoop_eq hd _ hlen (Nat.lt_succ_self _), split, findFrom_zero]
  split
  · next hlast =>
    rw [splitLoop, hlast]
    rfl
  · rw [List.append_nil, List.nil_append]
    rfl

end

/-! ## `Split` is the inverse of joining -/

/-- **`Split`.** The loop ends; the pieces do not contain the delimiter, it joins them to the
string, and they are one more than its leftmost occurrences. -/
theorem split_spec (stringToSplit : List UInt8) {delimiter : List UInt8} (hd : delimiter ≠ []) :
    ∃ pieces, split stringToSplit delimiter = some pieces ∧
      Splits delimiter stringToSplit pieces ∧
      pieces.length = occurrences delimiter stringToSplit + 1 := by
  induction stringToSplit using find_induction hd with
  | none s hnone =>
    refine ⟨[s], split_of_find_eq_none hnone, splits_of_find_eq_none hnone, ?_⟩
    rw [occurrences_of_find_eq_none hnone, List.length_singleton]
  | some s i hsome ih =>
    obtain ⟨pieces, hsplit, hpieces, hlen⟩ := ih
    have hne : pieces ≠ [] := List.length_pos_iff.mp (by omega)
    refine ⟨s.take i :: pieces, ?_, hpieces.cons hd hsome hne, ?_⟩
    · rw [split_of_find_eq_some hd hsome, hsplit, Option.map_some]
    · rw [List.length_cons, hlen, occurrences_of_find_eq_some hd hsome]

/-- A delimiter of two characters that are the same, at both ends and twice in a row. -/
theorem split_adjacent :
    ([1, 1] : List UInt8) ≠ [] ∧
    ∃ pieces, split [1, 1, 2, 1, 1, 1, 1, 1] [1, 1] = some pieces ∧
      Splits [1, 1] [1, 1, 2, 1, 1, 1, 1, 1] pieces ∧
      pieces.length = occurrences [1, 1] [1, 1, 2, 1, 1, 1, 1, 1] + 1 :=
  ⟨by decide, split_spec [1, 1, 2, 1, 1, 1, 1, 1] (by decide)⟩

example : split [1, 1, 2, 1, 1, 1, 1, 1] [1, 1] = some [[], [2], [], [1]] := by decide

/-- With an empty delimiter the loop does not end. -/
example : split [1, 2] [] = none := by decide

/-! ## What `Trim` leaves -/

/-- Neither end of the text is white space. -/
def Trimmed (s : List UInt8) : Prop :=
  (∀ ch ∈ s.head?, isspace ch = false) ∧ ∀ ch ∈ s.getLast?, isspace ch = false

instance (s : List UInt8) : Decidable (Trimmed s) :=
  have : Decidable (∀ ch ∈ s.head?, isspace ch = false) := Option.decidableForallMem _
  have : Decidable (∀ ch ∈ s.getLast?, isspace ch = false) := Option.decidableForallMem _
  inferInstanceAs (Decidable (_ ∧ _))

section

variable {s spaces : List UInt8}

theorem leftTrim_eq_self_iff : leftTrim s = s ↔ ∀ ch ∈ s.head?, isspace ch = false := by
  cases s with
  | nil => simp [leftTrim]
  | cons a s => simp [leftTrim, List.dropWhile_eq_self_iff]

theorem rightTrim_eq_self_iff : rightTrim s = s ↔ ∀ ch ∈ s.getLast?, isspace ch = false := by
  have hreverse : rightTrim s = s ↔ leftTrim s.reverse = s.reverse := by
    rw [rightTrim, List.reverse_eq_iff, leftTrim]
  rw [hreverse, leftTrim_eq_self_iff, List.head?_reverse]

theorem length_leftTrim_le : (leftTrim s).length ≤ s.length :=
  (List.dropWhile_suffix _).length_le

theorem length_rightTrim_le : (rightTrim s).length ≤ s.length := by
  have hle : (s.reverse.dropWhile isspace).length ≤ s.reverse.length :=
    (List.dropWhile_suffix _).length_le
  rw [List.length_reverse] at hle
  rw [rightTrim, List.length_reverse]
  exact hle

theorem length_trim_le : (trim s).length ≤ s.length :=
  Nat.le_trans length_rightTrim_le length_leftTrim_le

/-- `Trim` changes what has white space at an end. -/
theorem trim_eq_self_iff : trim s = s ↔ Trimmed s := by
  rw [Trimmed, ← leftTrim_eq_self_iff, ← rightTrim_eq_self_iff]
  constructor
  · intro htrim
    have hlen := congrArg List.length htrim
    have hright : (rightTrim (leftTrim s)).length ≤ _ := length_rightTrim_le
    rw [trim] at hlen
    have hleft : leftTrim s = s :=
      (List.dropWhile_suffix _).eq_of_length_le (by show s.length ≤ (leftTrim s).length; omega)
    rw [trim, hleft] at htrim
    exact ⟨hleft, htrim⟩
  · rintro ⟨hleft, hright⟩
    rw [trim, hleft, hright]

theorem rightTrim_append_spaces (hspaces : ∀ ch ∈ spaces, isspace ch) :
    rightTrim (s ++ spaces) = rightTrim s := by
  rw [rightTrim, List.reverse_append, List.dropWhile_append_of_pos, rightTrim]
  intro ch hch
  exact hspaces ch (List.mem_reverse.mp hch)

/-- White space behind a text does not change what is left of it. -/
theorem trim_append_spaces (hspaces : ∀ ch ∈ spaces, isspace ch) :
    trim (s ++ spaces) = trim s := by
  rw [trim, leftTrim, List.dropWhile_append]
  split
  · next hnone =>
    rw [List.isEmpty_iff] at hnone
    have hempty : spaces.dropWhile isspace = [] := List.dropWhile_eq_nil_iff.mpr hspaces
    rw [trim, leftTrim, hnone, hempty]
  · rw [rightTrim_append_spaces hspaces, trim, leftTrim]

end

end Win32Experiments.ExecuteCmd.Strings
