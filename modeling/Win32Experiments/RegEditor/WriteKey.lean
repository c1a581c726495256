import Win32Experiments.RegEditor.RegReads

/-!
# A string that is written and read

`WriteKey` passes the string on with its terminator, as so many bytes; the readers ask for a size,
make room for it, and cut the string at the size that the second call reports, less the
terminator. The surplus of the first size is cut off as well.
-/

namespace Win32Experiments.RegEditor

open Foundation

/-! ## The writer -/

/-- `WriteKey`, where `RegOpenKeyEx` and `RegSetValueEx` return `openKeyStatus` and
`setValueStatus`. -/
def writeKey (reg : Registry) (place : Place) (keyValue : List UInt16)
    (openKeyStatus setValueStatus : ℕ) : Except RegistryError Registry :=
  if openKeyStatus ≠ 0 then .error ⟨"Failed to open registry key", some openKeyStatus⟩
  else if setValueStatus ≠ 0 then
    .error ⟨"Failed to write to registry key", some setValueStatus⟩
  else
    -- the size is a `DWORD`
    let cbData := (keyValue.length + 1) * 2 % 2 ^ 32
    .ok (regSetKeyValueW reg place regSz ((wideBytes (keyValue ++ [0])).take cbData))

/-! ## What the system promises -/

/-- A string without nulls is stored at the place as `REG_SZ`, with its terminator or without. -/
def Registry.HoldsString (reg : Registry) (place : Place) (us : List UInt16) : Prop :=
  0 ∉ us ∧ ∃ data, reg place = some ⟨regSz, data⟩ ∧ terminated (wideUnits data) = us ++ [0]

/-- `RegGetValue` as documented, for the strings in the registry: a query of the size reports
enough, a reading with room enough gives the string with its terminator and reports just that. -/
structure ReadsStrings (regGetValue : Outcomes) (reg : Registry) : Prop where
  queried : ∀ place us, reg.HoldsString place us →
    (regGetValue ⟨place, rrfRtRegSz, none⟩).retCode = 0 ∧
      2 * (us.length + 1) ≤ (regGetValue ⟨place, rrfRtRegSz, none⟩).dataSize
  read : ∀ place us size, reg.HoldsString place us → 2 * (us.length + 1) ≤ size →
    regGetValue ⟨place, rrfRtRegSz, some size⟩ = ⟨0, wideBytes (us ++ [0]), 2 * (us.length + 1)⟩

/-- The outcomes of `RegGetValueW` on a registry. -/
def Environment.answers (os : Environment) (reg : Registry) : Outcomes := fun query =>
  match query.size with
  | none =>
    match querySize os reg query.place query.dwFlags with
    | .error status => ⟨status, [], 0⟩
    | .ok dataSize => ⟨0, [], dataSize⟩
  | some size =>
    match regGetValueW os reg query.place query.dwFlags with
    | .error status => ⟨status, [], 0⟩
    | .ok bytes => if size < bytes.length then ⟨errorMoreData, [], bytes.length⟩
      else ⟨0, bytes, bytes.length⟩

variable {regGetValue : Outcomes} {reg reg' : Registry} {place : Place} {us : List UInt16}

/-- A string and its terminator, in bytes. -/
theorem length_wideBytes_terminated (us : List UInt16) :
    (wideBytes (us ++ [0])).length = 2 * (us.length + 1) := by
  rw [length_wideBytes, List.length_append, List.length_singleton]

/-- However the string is stored, it is given with one terminator. -/
theorem regGetValueW_of_holdsString {os : Environment} (h : reg.HoldsString place us) :
    regGetValueW os reg place rrfRtRegSz = .ok (wideBytes (us ++ [0])) := by
  obtain ⟨-, data, hstored, hdata⟩ := h
  unfold regGetValueW
  rw [hstored]
  show Except.ok (wideBytes (terminated (wideUnits data))) = _
  rw [hdata]

/-- The registry of the typed accessors keeps the promise, however much it overestimates. -/
theorem answers_readsStrings (os : Environment) (reg : Registry) :
    ReadsStrings (os.answers reg) reg := by
  constructor
  · intro place us h
    have hquery : querySize os reg place rrfRtRegSz = .ok (2 * (us.length + 1) + os.slack) := by
      rw [querySize, regGetValueW_of_holdsString h, ← length_wideBytes_terminated]
      rfl
    simp only [Environment.answers, hquery]
    exact ⟨trivial, Nat.le_add_right _ _⟩
  · intro place us size h hsize
    simp only [Environment.answers, regGetValueW_of_holdsString h, length_wideBytes_terminated]
    rw [if_neg (by omega)]

/-! ## The readers -/

/-- A string read into `n` zero units, and cut behind its last character. -/
theorem resize_wideUnits_fill {n : ℕ} (hn : us.length + 1 ≤ n)
    (hlen : (us.length + 1) * 2 < 2 ^ 32) :
    resize (wideUnits ((Outcome.mk 0 (wideBytes (us ++ [0])) (2 * (us.length + 1))).fill
      (wideBytes (resize [] n)))) (subW 32 (2 * (us.length + 1) / 2) 1) = us := by
  have hbuffer : wideBytes (resize [] n) = List.replicate (2 * n) 0 := by
    rw [resize, List.take_nil, List.nil_append, List.length_nil, Nat.sub_zero,
      wideBytes_replicate_zero]
  have hfill : (Outcome.mk 0 (wideBytes (us ++ [0])) (2 * (us.length + 1))).fill
      (wideBytes (resize [] n))
      = wideBytes (us ++ [0] ++ List.replicate (n - (us.length + 1)) 0) := by
    rw [hbuffer, wideBytes_append (us ++ [0]), wideBytes_replicate_zero, Nat.mul_sub,
      ← length_wideBytes_terminated, ← List.drop_replicate]
    apply List.take_of_length_le
    simp only [length_wideBytes, List.length_append, List.length_drop, List.length_replicate,
      List.length_singleton]
    omega
  have hwchars : subW 32 (2 * (us.length + 1) / 2) 1 = us.length := by
    rw [Nat.mul_div_cancel_left _ (by omega), subW_of_le (by omega) (by omega), Nat.add_sub_cancel]
  have hroom : us.length - (us ++ [0] ++ List.replicate (n - (us.length + 1)) (0 : UInt16)).length
      = 0 := by
    simp only [List.length_append]
    omega
  rw [hfill, wideUnits_wideBytes, hwchars, resize, hroom, List.replicate_zero, List.append_nil,
    List.append_assoc, List.take_left]

/-- Both readers return a string that the registry holds. -/
theorem regGetString_of_holdsString (hread : ReadsStrings regGetValue reg)
    (h : reg.HoldsString place us) (hlen : (us.length + 1) * 2 < 2 ^ 32) (out : List UInt16) :
    regGetString regGetValue place = .ok us ∧
      regGetStringOut regGetValue place out = (true, us) := by
  obtain ⟨hcode, hsize⟩ := hread.queried place us h
  have houtcome := hread.read place us _ h hsize
  have hroom : us.length + 1 ≤ (regGetValue ⟨place, rrfRtRegSz, none⟩).dataSize / 2 := by omega
  have hdata := resize_wideUnits_fill hroom hlen
  constructor
  · simp only [regGetString, hcode, houtcome, hdata, ne_eq, not_true_eq_false, if_false]
  · simp only [regGetStringOut, hcode, houtcome, hdata, ne_eq, not_true_eq_false, if_false]

/-! ## The round trip -/

variable {keyValue : List UInt16} {openKeyStatus setValueStatus : ℕ}

/-- A `WriteKey` that succeeds has stored the string, terminator included. -/
theorem holdsString_of_writeKey (hnull : 0 ∉ keyValue) (hlen : (keyValue.length + 1) * 2 < 2 ^ 32)
    (hwrite : writeKey reg place keyValue openKeyStatus setValueStatus = .ok reg') :
    reg'.HoldsString place keyValue := by
  unfold writeKey at hwrite
  split at hwrite
  · contradiction
  · split at hwrite
    · contradiction
    · have hcbData : (keyValue.length + 1) * 2 % 2 ^ 32 = (wideBytes (keyValue ++ [0])).length := by
        rw [Nat.mod_eq_of_lt hlen, length_wideBytes_terminated, Nat.mul_comm]
      rw [Except.ok.injEq, hcbData, List.take_length] at hwrite
      refine ⟨hnull, wideBytes (keyValue ++ [0]), ?_, ?_⟩
      · rw [← hwrite, regSetKeyValueW, Function.update_self]
      · rw [wideUnits_wideBytes, terminated, if_pos List.getLast?_concat]

/-- What `WriteKey` wrote, both overloads of `RegGetString` read back, whatever the size-only call
reported. -/
theorem regGetString_writeKey (hnull : 0 ∉ keyValue) (hlen : (keyValue.length + 1) * 2 < 2 ^ 32)
    (hwrite : writeKey reg place keyValue openKeyStatus setValueStatus = .ok reg')
    (hread : ReadsStrings regGetValue reg') (out : List UInt16) :
    regGetString regGetValue place = .ok keyValue ∧
      regGetStringOut regGetValue place out = (true, keyValue) :=
  regGetString_of_holdsString hread (holdsString_of_writeKey hnull hlen hwrite) hlen out

/-- `L"AB"` on a system that overestimates sizes by three bytes. -/
theorem regGetString_writeKey_overestimated :
    ∃ reg', writeKey (fun _ => none) ⟨1, [65], [66]⟩ [65, 66] 0 0 = .ok reg' ∧
      regGetString (Environment.answers ⟨id, 3, []⟩ reg') ⟨1, [65], [66]⟩ = .ok [65, 66] ∧
      regGetStringOut (Environment.answers ⟨id, 3, []⟩ reg') ⟨1, [65], [66]⟩ [7]
        = (true, [65, 66]) := by
  have hwrite : writeKey (fun _ => none) ⟨1, [65], [66]⟩ [65, 66] 0 0 = .ok _ := rfl
  exact ⟨_, hwrite,
    regGetString_writeKey (by decide) (by decide) hwrite (answers_readsStrings _ _) [7]⟩

end Win32Experiments.RegEditor
