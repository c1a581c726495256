import Win32Experiments.Foundation.Occurrences
import Mathlib.Tactic.Common

/-!
# `TokeniseString` and `Replace` of `HardDriveInfo`

`TokeniseString` keeps a position from which it searches a string that already starts at this
position, and cuts every piece out of the whole string.

* `tokeniseString_returns`: its loop ends;
* `tokeniseLoop_spec`: what the loop enters once it has gone round;
* `tokenises_iff`: when the pieces are those of the string, and `Replace` replaces.
-/

namespace Win32Experiments.HardDriveInfo.Util

open Foundation

/-! ## The functions -/

/-- The loop of `TokeniseString`, with fuel. -/
def tokeniseLoop (stringToTokenise delimiter : List UInt16) :
    ℕ → List (List UInt16) → ℕ → List UInt16 → Option (List (List UInt16))
  | 0, _, _, _ => none
  | fuel + 1, results, position, intermediateString =>
    match findFrom delimiter intermediateString position with
    | none => some results
    | some position => do
      let split := stringToTokenise.take position
      let position := position + delimiter.length
      let intermediateString ← substr stringToTokenise position
      -- on the last turn, the remainder is entered as well
      let remainder :=
        if findFrom delimiter intermediateString position = none then [intermediateString] else []
      tokeniseLoop stringToTokenise delimiter fuel (results ++ [split] ++ remainder) position
        intermediateString

/-- `TokeniseString`; `none` when its loop does not end, or throws. -/
def tokeniseString (stringToTokenise delimiter : List UInt16) : Option (List (List UInt16)) :=
  if findFrom delimiter stringToTokenise 0 = none then
    some [stringToTokenise]
  else
    tokeniseLoop stringToTokenise delimiter (stringToTokenise.length + 1) [] 0 stringToTokenise

/-- The loop of `Replace` and the piece that it leaves for the end. -/
def joinResults (whatToReplaceWith : List UInt16) :
    List UInt16 → List (List UInt16) → List UInt16
  | updatedString, [] => updatedString
  | updatedString, [last] => updatedString ++ last
  | updatedString, piece :: rest =>
    joinResults whatToReplaceWith (updatedString ++ piece ++ whatToReplaceWith) rest

/-- `Replace`. -/
def replace (stringToWorkOn whatToReplace whatToReplaceWith : List UInt16) :
    Option (List UInt16) :=
  (tokeniseString stringToWorkOn whatToReplace).map fun results =>
    if results.length = 0 then stringToWorkOn else joinResults whatToReplaceWith [] results

/-- `TokeniseString` returns the pieces of the string, and `Replace` replaces the leftmost
occurrences. -/
structure Tokenises (s delimiter : List UInt16) : Prop where
  splits : ∃ pieces, tokeniseString s delimiter = some pieces ∧ Splits delimiter s pieces
  replaces : ∀ whatToReplaceWith,
    replace s delimiter whatToReplaceWith = some (replaceAll delimiter whatToReplaceWith s)

/-! ## The loop -/

section

variable {s delimiter : List UInt16} {results : List (List UInt16)} {fuel position i : ℕ}

theorem length_intercalate_cons {pieces : List (List UInt16)} (hne : pieces ≠ [])
    (piece : List UInt16) :
    (delimiter.intercalate (piece :: pieces)).length =
      piece.length + delimiter.length + (delimiter.intercalate pieces).length := by
  rw [List.intercalate_cons_of_ne_nil hne, List.length_append, List.length_append]

/-- What is found from the position on lies behind it, and inside of the string. -/
theorem findFrom_drop_bounds (hd : delimiter ≠ [])
    (h : findFrom delimiter (s.drop position) position = some i) :
    position ≤ i ∧ i + delimiter.length ≤ s.length := by
  rw [findFrom_eq hd] at h
  obtain ⟨j, hj, rfl⟩ := Option.map_eq_some_iff.mp h
  have hle := find_add_length_le hj
  have hpos := List.length_pos_iff.mpr hd
  rw [List.length_drop, List.length_drop] at hle
  omega

/-- One turn: what is before the position found, and the remainder if it is the last turn. -/
theorem tokeniseLoop_of_findFrom (hd : delimiter ≠ [])
    (h : findFrom delimiter (s.drop position) position = some i) :
    tokeniseLoop s delimiter (fuel + 1) results position (s.drop position) =
      tokeniseLoop s delimiter fuel
        (results ++ [s.take i] ++
          if findFrom delimiter (s.drop (i + delimiter.length)) (i + delimiter.length) = none then
            [s.drop (i + delimiter.length)]
          else [])
        (i + delimiter.length) (s.drop (i + delimiter.length)) := by
  have hle := (findFrom_drop_bounds hd h).2
  rw [tokeniseLoop, h]
  show (substr s (i + delimiter.length)).bind _ = _
  rw [substr_eq hle, Option.bind_some]

/-- The loop ends. It enters pieces that are together with their delimiters as long as the string,
or longer. -/
theorem tokeniseLoop_spec (hd : delimiter ≠ []) (hfuel : s.length - position < fuel)
    (h : findFrom delimiter (s.drop position) position = some i) :
    ∃ pieces ≠ [],
      tokeniseLoop s delimiter fuel results position (s.drop position) =
        some (results ++ pieces) ∧
      s.length ≤ (delimiter.intercalate pieces).length := by
  induction fuel generalizing results position i with
  | zero => omega
  | succ fuel ih =>
    have hbounds := findFrom_drop_bounds hd h
    have hpos := List.length_pos_iff.mpr hd
    rw [tokeniseLoop_of_findFrom hd h]
    cases hnext :
      findFrom delimiter (s.drop (i + delimiter.length)) (i + delimiter.length) with
    | none =>
      obtain ⟨fuel, rfl⟩ := Nat.exists_eq_succ_of_ne_zero (show fuel ≠ 0 by omega)
      refine ⟨[s.take i, s.drop (i + delimiter.length)], List.cons_ne_nil _ _, ?_, ?_⟩
      · rw [tokeniseLoop, hnext, if_pos rfl, List.append_assoc]
        rfl
      · rw [length_intercalate_cons (List.cons_ne_nil _ _), List.intercalate_singleton,
          List.length_take, List.length_drop]
        omega
    | some j =>
      rw [if_neg (Option.some_ne_none j), List.append_nil]
      have hless : s.length - (i + delimiter.length) < fuel := by omega
      obtain ⟨pieces, hne, hloop, hlen⟩ := @ih (results ++ [s.take i]) _ _ hless hnext
      refine ⟨s.take i :: pieces, List.cons_ne_nil _ _, ?_, ?_⟩
      · rw [hloop, List.append_assoc]
        rfl
      · rw [length_intercalate_cons hne]
        omega

end

/-! ## The pieces -/

section

variable {s delimiter : List UInt16} {i : ℕ}

theorem tokeniseString_of_find_eq_none (h : find delimiter s = none) :
    tokeniseString s delimiter = some [s] := by
  rw [tokeniseString, findFrom_zero, if_pos h]

theorem tokeniseString_of_find_eq_some (h : find delimiter s = some i) :
    tokeniseString s delimiter =
      tokeniseLoop s delimiter (s.length + 1) [] 0 (s.drop 0) := by
  rw [tokeniseString, findFrom_zero, if_neg (h ▸ Option.some_ne_none i), List.drop_zero]

/-- Termination: `TokeniseString` returns, without an exception. -/
theorem tokeniseString_returns (hd : delimiter ≠ []) :
    ∃ pieces, tokeniseString s delimiter = some pieces := by
  cases hfind : find delimiter s with
  | none => exact ⟨_, tokeniseString_of_find_eq_none hfind⟩
  | some i =>
    have hfrom : findFrom delimiter (s.drop 0) 0 = some i := by
      rw [List.drop_zero, findFrom_zero, hfind]
    have hfuel : s.length - 0 < s.length + 1 := by omega
    obtain ⟨pieces, -, hloop, -⟩ := @tokeniseLoop_spec _ _ [] _ _ _ hd hfuel hfrom
    exact ⟨_, (tokeniseString_of_find_eq_some hfind).trans hloop⟩

/-- So does `Replace`. -/
theorem replace_returns (hd : delimiter ≠ []) (whatToReplaceWith : List UInt16) :
    ∃ updatedString, replace s delimiter whatToReplaceWith = some updatedString := by
  have hreturns : ∃ pieces, tokeniseString s delimiter = some pieces := tokeniseString_returns hd
  obtain ⟨pieces, hpieces⟩ := hreturns
  exact ⟨_, by rw [replace, hpieces, Option.map_some]⟩

/-- With a single occurrence, the pieces are what is before and behind it. -/
theorem tokeniseString_of_single (hd : delimiter ≠ []) (h : find delimiter s = some i)
    (hrest : find delimiter (s.drop (i + delimiter.length)) = none) :
    tokeniseString s delimiter = some [s.take i, s.drop (i + delimiter.length)] := by
  have hfrom : findFrom delimiter (s.drop 0) 0 = some i := by
    rw [List.drop_zero, findFrom_zero, h]
  have hlast := findFrom_of_find_eq_none hd hrest (i + delimiter.length)
  have hle := find_add_length_le h
  have hpos := List.length_pos_iff.mpr hd
  obtain ⟨fuel, hfuel⟩ := Nat.exists_eq_succ_of_ne_zero (show s.length ≠ 0 by omega)
  rw [tokeniseString_of_find_eq_some h, tokeniseLoop_of_findFrom hd hfrom, if_pos hlast, hfuel,
    tokeniseLoop, hlast]
  rfl

/-- With a second occurrence, a piece contains the delimiter, or the pieces are too long. -/
theorem not_splits_of_second (hd : delimiter ≠ []) (h : find delimiter s = some i)
    (hrest : find delimiter (s.drop (i + delimiter.length)) ≠ none)
    {pieces : List (List UInt16)} (hpieces : tokeniseString s delimiter = some pieces) :
    ¬ Splits delimiter s pieces := by
  intro hsplits
  have hfrom : findFrom delimiter (s.drop 0) 0 = some i := by
    rw [List.drop_zero, findFrom_zero, h]
  have hle := find_add_length_le h
  have hpos := List.length_pos_iff.mpr hd
  rw [tokeniseString_of_find_eq_some h, tokeniseLoop_of_findFrom hd hfrom] at hpieces
  cases hnext : findFrom delimiter (s.drop (i + delimiter.length)) (i + delimiter.length) with
  | none =>
    obtain ⟨fuel, hfuel⟩ := Nat.exists_eq_succ_of_ne_zero (show s.length ≠ 0 by omega)
    rw [if_pos hnext, hfuel, tokeniseLoop, hnext] at hpieces
    obtain rfl := Option.some.inj hpieces
    exact hrest (find_eq_none_iff.mpr
      (hsplits.free _ (List.mem_append_right _ (List.mem_singleton_self _))))
  | some j =>
    rw [if_neg (hnext ▸ Option.some_ne_none j), List.append_nil] at hpieces
    have hfuel : s.length - (i + delimiter.length) < s.length := by omega
    obtain ⟨longer, hne, hloop, hlen⟩ := @tokeniseLoop_spec _ _ ([] ++ [s.take i]) _ _ _ hd hfuel
      hnext
    obtain rfl := Option.some.inj (hloop.symm.trans hpieces)
    have hjoin := congrArg List.length hsplits.join
    have htotal : (delimiter.intercalate (s.take i :: longer)).length = _ :=
      length_intercalate_cons hne (s.take i)
    rw [List.length_take] at htotal
    change (delimiter.intercalate (s.take i :: longer)).length = s.length at hjoin
    omega

/-- **`TokeniseString` and `Replace`.** They do what they are to do exactly when the delimiter does
not occur again behind its first occurrence. -/
theorem tokenises_iff (hd : delimiter ≠ []) :
    Tokenises s delimiter ↔ occurrences delimiter s ≤ 1 := by
  cases hfind : find delimiter s with
  | none =>
    rw [occurrences_of_find_eq_none hfind]
    refine iff_of_true ⟨⟨[s], tokeniseString_of_find_eq_none hfind,
      splits_of_find_eq_none hfind⟩, ?_⟩ (Nat.zero_le 1)
    intro whatToReplaceWith
    rw [replace, tokeniseString_of_find_eq_none hfind, replaceAll_of_find_eq_none hfind]
    rfl
  | some i =>
    rw [occurrences_of_find_eq_some hd hfind, Nat.succ_le_succ_iff, Nat.le_zero,
      occurrences_eq_zero_iff hd]
    constructor
    · rintro ⟨⟨pieces, hpieces, hsplits⟩, -⟩
      by_contra hrest
      exact not_splits_of_second hd hfind hrest hpieces hsplits
    · intro hrest
      have hpieces := tokeniseString_of_single hd hfind hrest
      refine ⟨⟨_, hpieces, ?_⟩, ?_⟩
      · exact (splits_of_find_eq_none hrest).cons hd hfind (List.cons_ne_nil _ _)
      · intro whatToReplaceWith
        rw [replace, hpieces, replaceAll_of_find_eq_some hd hfind,
          replaceAll_of_find_eq_none hrest]
        rfl

end

/-- A single delimiter of two characters between two words. -/
theorem tokenises_single : ([44, 32] : List UInt16) ≠ [] ∧ Tokenises [97, 44, 32, 98] [44, 32] :=
  ⟨by decide, (tokenises_iff (by decide)).mpr (by decide)⟩

/-- With two delimiters the second piece still contains the second one, and `Replace` leaves it. -/
theorem tokenises_counterexample :
    tokeniseString [97, 44, 98, 44, 99] [44] = some [[97], [98, 44, 99]] ∧
      replace [97, 44, 98, 44, 99] [44] [59] = some [97, 59, 98, 44, 99] ∧
      ¬ Tokenises [97, 44, 98, 44, 99] [44] := by
  have hpieces : tokeniseString [97, 44, 98, 44, 99] [44] = some [[97], [98, 44, 99]] := by decide
  refine ⟨hpieces, by decide, ?_⟩
  rintro ⟨⟨pieces, hreturned, hsplits⟩, -⟩
  obtain rfl := Option.some.inj (hpieces.symm.trans hreturned)
  exact hsplits.free [98, 44, 99] (by decide) (by decide)

/-- A piece is cut out of the whole string. -/
example : tokeniseString [97, 44, 98, 44, 99, 44, 100] [44] =
    some [[97], [97, 44, 98], [99, 44, 100]] := by decide

end Win32Experiments.HardDriveInfo.Util
