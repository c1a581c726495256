import Win32Experiments.Foundation.Checked
import Win32Experiments.Foundation.Handles

/-!
# `WmiClassObject::StringVector`

The loop over a `SAFEARRAY` of strings counts from zero, whatever the lower bound of the array is,
and keeps the copies that `SafeArrayGetElement` makes.

* `lLbound_of_ok`: where the loop stays inside of the bounds, they start at zero;
* `readFrom_eq`: what the loop collects then;
* `readsWholeArray_iff`: when the array is read as a whole and everything is released.
-/

namespace Win32Experiments.HardDriveInfo

open Foundation

/-- A `SAFEARRAY` of strings with one dimension. A string may be a null `BSTR`. -/
structure SafeArray where
  lLbound : ℤ
  elements : List (Option (List UInt16))
  fits_lower : FitsInt lLbound
  fits_upper : FitsInt (lLbound + elements.length - 1)

/-- `SafeArrayGetUBound`. -/
def SafeArray.upperBound (a : SafeArray) : ℤ := a.lLbound + a.elements.length - 1

/-- `SafeArrayGetElement`, which reports an index outside of the bounds and then writes nothing. -/
def SafeArray.getElement (a : SafeArray) (i : ℤ) : Option (Option (List UInt16)) :=
  if a.lLbound ≤ i ∧ i ≤ a.upperBound then a.elements[(i - a.lLbound).toNat]? else none

/-- The text of a `BSTR`: a null one is empty. -/
def bstrText (bstr : Option (List UInt16)) : List UInt16 := bstr.getD []

/-- The vector, the indices asked for, the copied strings, and the array. -/
structure Reading where
  results : List (List UInt16)
  indices : List ℤ
  strings : Handles
  array : Handles
deriving DecidableEq, Repr

/-- The array in `vtProp`, and nothing read yet. -/
def Reading.start : Reading := ⟨[], [], .empty, Handles.empty.create⟩

/-- A copy of an element: a null `BSTR` needs no allocation. -/
def copied (strings : Handles) : Option (List UInt16) → Handles
  | none => strings
  | some _ => strings.create

/-- One turn of the loop. Where nothing is written to `addr`, its use is undefined. -/
def readElement (a : SafeArray) (i : ℤ) (r : Reading) : Except Reading Reading :=
  match a.getElement i with
  | none => .error { r with indices := r.indices ++ [i] }
  | some bstr => .ok
    { r with
      results := r.results ++ [bstrText bstr]
      indices := r.indices ++ [i]
      strings := copied r.strings bstr }

/-- The loop from `i` on, with so many turns left. -/
def readFrom (a : SafeArray) : ℕ → ℤ → Reading → Except Reading Reading
  | 0, _, r => .ok r
  | n + 1, i, r => do
    let r ← readElement a i r
    readFrom a n (i + 1) r

/-- `elementCount`, where its calculation does not overflow a `long`. -/
def elementCount (a : SafeArray) : Option ℤ := do
  let difference ← checked (a.upperBound - a.lLbound)
  checked (difference + 1)

/-- The loop. -/
def readArray (a : SafeArray) : Except Reading Reading :=
  match elementCount a with
  | none => .error .start
  | some n => readFrom a n.toNat 0 .start

/-- What `IWbemClassObject::Get` answers. -/
inductive Property where
  | failed
  | other
  | strings (a : SafeArray)

/-- How the function ends. -/
inductive Outcome where
  | threw (message : String)
  | returned (r : Reading)
  | undefined (r : Reading)
deriving DecidableEq, Repr

/-- `StringVector`. The destructor of `vtProp` destroys the array. -/
def stringVector : Property → Outcome
  | .failed => .threw "Failed ClassObject::Get()"
  | .other => .threw "WMI value is not typed as a BSTR."
  | .strings a =>
    match readArray a with
    | .error r => .undefined r
    | .ok r => .returned { r with array := r.array.close 0 }

/-- The function returns the elements in order, asks for no index outside of the bounds, and
releases each string and the array once. -/
def ReadsWholeArray (a : SafeArray) : Prop :=
  ∃ r, stringVector (.strings a) = .returned r ∧
    r.results = a.elements.map bstrText ∧
    (∀ i ∈ r.indices, a.lLbound ≤ i ∧ i ≤ a.upperBound) ∧
    r.strings.EachClosedOnce ∧ r.array.EachClosedOnce

/-! ## The count -/

section Count

variable {a : SafeArray}

theorem elementCount_of_lt (h : a.elements.length < 2 ^ 31) :
    elementCount a = some (a.elements.length : ℤ) := by
  have hdifference : a.upperBound - a.lLbound = a.elements.length - 1 := by
    unfold SafeArray.upperBound
    omega
  have hfits : FitsInt ((a.elements.length : ℤ) - 1) := by
    unfold FitsInt
    omega
  have hcount : FitsInt ((a.elements.length : ℤ) - 1 + 1) := by
    unfold FitsInt
    omega
  unfold elementCount
  rw [hdifference, checked_of_fits hfits, Option.bind_eq_bind, Option.bind_some,
    checked_of_fits hcount, Int.sub_add_cancel]

/-- The count of an array with more elements overflows. -/
theorem elementCount_eq_none (h : 2 ^ 31 ≤ a.elements.length) : elementCount a = none := by
  have hdifference : a.upperBound - a.lLbound = a.elements.length - 1 := by
    unfold SafeArray.upperBound
    omega
  have hcount : ¬ FitsInt ((a.elements.length : ℤ) - 1 + 1) := by
    unfold FitsInt
    omega
  unfold elementCount checked
  rw [hdifference]
  by_cases hfits : FitsInt ((a.elements.length : ℤ) - 1)
  · rw [if_pos hfits, Option.bind_eq_bind, Option.bind_some, if_neg hcount]
  · rw [if_neg hfits]
    rfl

end Count

/-! ## The loop -/

section Loop

variable {a : SafeArray} {n k : ℕ} {i : ℤ} {r s : Reading}

/-- A turn reads inside of the bounds, or its behaviour is undefined. -/
theorem bounds_of_readElement (h : readElement a i r = .ok s) :
    a.lLbound ≤ i ∧ i ≤ a.upperBound := by
  unfold readElement SafeArray.getElement at h
  by_contra hout
  rw [if_neg hout] at h
  contradiction

/-- Where the loop ends, every index was inside of the bounds. -/
theorem bounds_of_readFrom (h : readFrom a n i r = .ok s) :
    ∀ d < n, a.lLbound ≤ i + d ∧ i + d ≤ a.upperBound := by
  induction n generalizing i r with
  | zero => exact fun d hd => absurd hd (Nat.not_lt_zero d)
  | succ n ih =>
    rw [readFrom] at h
    match hstep : readElement a i r with
    | .error t =>
      rw [hstep] at h
      contradiction
    | .ok t =>
      rw [hstep] at h
      intro d hd
      match d with
      | 0 =>
        rw [Nat.cast_zero, add_zero]
        exact bounds_of_readElement hstep
      | d + 1 =>
        have hlater := ih h d (by omega)
        push_cast
        omega

/-- The bounds of an array that is read without an undefined use start at zero. -/
theorem lLbound_of_ok (hne : a.elements ≠ []) (h : readFrom a a.elements.length 0 r = .ok s) :
    a.lLbound = 0 := by
  have hpos : 0 < a.elements.length := List.length_pos_iff.mpr hne
  have hbounds := bounds_of_readFrom h
  have hfirst := hbounds 0 hpos
  have hlast := hbounds (a.elements.length - 1) (by omega)
  unfold SafeArray.upperBound at hlast
  omega

/-- The copies that are made of the elements. -/
def copies (strings : Handles) (elements : List (Option (List UInt16))) : Handles :=
  elements.foldl copied strings

/-- What the loop collects from the element number `k` on. -/
theorem readFrom_eq (hzero : a.lLbound = 0) (hlen : k + n = a.elements.length) (r : Reading) :
    readFrom a n k r = .ok
      { r with
        results := r.results ++ (a.elements.drop k).map bstrText
        indices := r.indices ++ (List.range' k n).map (fun j : ℕ => (j : ℤ))
        strings := copies r.strings (a.elements.drop k) } := by
  induction n generalizing k r with
  | zero =>
    rw [List.drop_of_length_le (by omega)]
    simp [readFrom, copies]
  | succ n ih =>
    have hk : k < a.elements.length := by omega
    have hget : a.getElement k = some a.elements[k] := by
      have hin : a.lLbound ≤ (k : ℤ) ∧ (k : ℤ) ≤ a.upperBound := by
        unfold SafeArray.upperBound
        omega
      rw [SafeArray.getElement, if_pos hin, hzero, sub_zero, Int.toNat_natCast,
        List.getElem?_eq_getElem hk]
    have hnext : (k : ℤ) + 1 = ((k + 1 : ℕ) : ℤ) := rfl
    rw [readFrom, readElement, hget, hnext]
    show readFrom a n ((k + 1 : ℕ) : ℤ) _ = _
    rw [ih (by omega), List.drop_eq_getElem_cons hk, List.range'_succ]
    simp only [List.map_cons, List.append_assoc, List.singleton_append, copies, List.foldl_cons]

/-- No copy is ever released. -/
theorem copies_eq (strings : Handles) (elements : List (Option (List UInt16))) :
    copies strings elements = ⟨strings.opened + elements.countP Option.isSome, strings.closed⟩ := by
  induction elements generalizing strings with
  | nil => rfl
  | cons bstr elements ih =>
    rw [copies, List.foldl_cons, ← copies, ih, List.countP_cons]
    match bstr with
    | none => rfl
    | some text =>
      show Handles.mk (strings.opened + 1 + elements.countP Option.isSome) strings.closed =
        ⟨strings.opened + (elements.countP Option.isSome + 1), strings.closed⟩
      congr 1
      omega

/-- Copies that are not released are a leak, unless there is none. -/
theorem eachClosedOnce_copies_iff (elements : List (Option (List UInt16))) :
    (copies .empty elements).EachClosedOnce ↔ ∀ bstr ∈ elements, bstr = none := by
  rw [copies_eq]
  have hcount : elements.countP Option.isSome = 0 ↔ ∀ bstr ∈ elements, bstr = none := by
    rw [List.countP_eq_zero]
    simp
  rw [← hcount]
  show (∀ h, ([] : List ℕ).count h = if h < 0 + elements.countP Option.isSome then 1 else 0) ↔ _
  constructor
  · intro h
    by_contra hne
    have hfirst := h 0
    rw [if_pos (by omega)] at hfirst
    contradiction
  · intro hzero h
    rw [hzero, if_neg (Nat.not_lt_zero h)]
    rfl

theorem readArray_of_lt (h : a.elements.length < 2 ^ 31) :
    readArray a = readFrom a a.elements.length 0 .start := by
  rw [readArray, elementCount_of_lt h]
  rfl

theorem array_closed : (Handles.empty.create.close 0).EachClosedOnce :=
  Handles.accounts_empty.create.close.eachClosedOnce_iff.mpr rfl

theorem readsWholeArray_of_nil (h : a.elements = []) : ReadsWholeArray a := by
  have hread : readArray a = .ok .start := by
    rw [readArray_of_lt (by rw [h]; decide), h]
    rfl
  refine ⟨{ Reading.start with array := Handles.empty.create.close 0 }, ?_, ?_, ?_, ?_,
    array_closed⟩
  · rw [stringVector, hread]
    rfl
  · rw [h]
    rfl
  · intro i hi
    exact absurd hi List.not_mem_nil
  · exact Handles.accounts_empty.eachClosedOnce_iff.mpr rfl

/-- An array that starts at zero is read in order, and all that is wrong is the leak. -/
theorem readsWholeArray_iff_of_zero (hzero : a.lLbound = 0) (hlong : a.elements.length < 2 ^ 31) :
    ReadsWholeArray a ↔ ∀ bstr ∈ a.elements, bstr = none := by
  have hread : readArray a = .ok
      { Reading.start with
        results := a.elements.map bstrText
        indices := (List.range' 0 a.elements.length).map (fun j : ℕ => (j : ℤ))
        strings := copies .empty a.elements } := by
    rw [readArray_of_lt hlong]
    exact readFrom_eq hzero (Nat.zero_add _) Reading.start
  unfold ReadsWholeArray stringVector
  simp only [hread]
  constructor
  · rintro ⟨r, hr, -, -, hstrings, -⟩
    rw [← Outcome.returned.inj hr] at hstrings
    exact (eachClosedOnce_copies_iff _).mp hstrings
  · intro hnull
    refine ⟨_, rfl, rfl, ?_, (eachClosedOnce_copies_iff _).mpr hnull, array_closed⟩
    intro i hi
    obtain ⟨j, hj, rfl⟩ := List.mem_map.mp hi
    have hlt : j < a.elements.length := by simpa using hj
    unfold SafeArray.upperBound
    omega

/-- A count that overflows leaves nothing to be said. -/
theorem not_readsWholeArray_of_le (h : 2 ^ 31 ≤ a.elements.length) : ¬ ReadsWholeArray a := by
  rintro ⟨r, hr, -⟩
  rw [stringVector, readArray, elementCount_eq_none h] at hr
  contradiction

/-- An array with elements is not read where it does not start at zero. -/
theorem not_readsWholeArray_of_ne_zero (hne : a.elements ≠ []) (hzero : a.lLbound ≠ 0) :
    ¬ ReadsWholeArray a := by
  by_cases hlong : a.elements.length < 2 ^ 31
  · rintro ⟨r, hr, -⟩
    rw [stringVector, readArray_of_lt hlong] at hr
    match hread : readFrom a a.elements.length 0 Reading.start with
    | .error t =>
      rw [hread] at hr
      contradiction
    | .ok t => exact hzero (lLbound_of_ok hne hread)
  · exact not_readsWholeArray_of_le (Nat.le_of_not_lt hlong)

/-- **When the array is read as a whole.** Every string that is read leaks, and the indices fit the
bounds only of an array that starts at zero. -/
theorem readsWholeArray_iff (a : SafeArray) :
    ReadsWholeArray a ↔ a.elements = [] ∨
      a.lLbound = 0 ∧ a.elements.length < 2 ^ 31 ∧ ∀ bstr ∈ a.elements, bstr = none := by
  by_cases hne : a.elements = []
  · exact iff_of_true (readsWholeArray_of_nil hne) (.inl hne)
  · by_cases hzero : a.lLbound = 0
    · by_cases hlong : a.elements.length < 2 ^ 31
      · rw [readsWholeArray_iff_of_zero hzero hlong]
        constructor
        · exact fun hnull => .inr ⟨hzero, hlong, hnull⟩
        · exact fun h => h.elim (fun hnil => absurd hnil hne) fun h => h.2.2
      · exact iff_of_false (not_readsWholeArray_of_le (Nat.le_of_not_lt hlong))
          fun h => h.elim hne fun h => hlong h.2.1
    · exact iff_of_false (not_readsWholeArray_of_ne_zero hne hzero)
        fun h => h.elim hne fun h => hzero h.1

end Loop

/-- An array of one string whose only index is one. -/
theorem not_readsWholeArray_oneBased :
    ¬ ReadsWholeArray ⟨1, [some [65]], by decide, by decide⟩ := by
  rintro ⟨r, hr, -⟩
  contradiction

end Win32Experiments.HardDriveInfo
