import Mathlib.Data.List.TakeWhile
import Win32Experiments.RegEditor.Registry

/-!
# What is set and what comes back

`RegistryValueMap` maps a type to the mask of its query, and `Set` stores the value under that
number. A string is therefore stored as `REG_EXPAND_SZ`, and the two integers under types that
no query admits. A string comes back when the expansion leaves it alone and the size-only
query does not overestimate: `Get` keeps the length of the first answer.
-/

namespace Win32Experiments.RegEditor

open Foundation

/-! ## Statements -/

/-- The values in question: strings have no embedded null and fewer than `2 ^ 30` characters. -/
def ValueType.Admissible : (T : ValueType) → T.Value → Prop
  | .wstring, value => 0 ∉ value ∧ value.length < 2 ^ 30
  | .DWORD, _ => True
  | .size_t, _ => True

/-- The value is a string that the environment leaves alone, and the size-only query reports
no further character. -/
def ComesBack (os : Environment) : (T : ValueType) → T.Value → Prop
  | .wstring, value => os.expand value = value ∧ os.slack < 2
  | .DWORD, _ => False
  | .size_t, _ => False

/-! ## What is stored -/

variable {os : Environment} {reg reg' : Registry} {place : Place} {status : ℕ}

/-- A `Set` that succeeds has stored the bytes under the mask. -/
theorem stored_of_set {T : ValueType} {value : T.Value}
    (h : reg.set place T value status = .ok reg') :
    reg' place = some ⟨T.type, T.bytes value⟩ := by
  unfold Registry.set at h
  split at h
  · contradiction
  · split at h
    · contradiction
    · rw [Except.ok.injEq] at h
      rw [← h, regSetKeyValueW, Function.update_self]

/-- A short string is stored whole. -/
theorem bytes_wstring {value : List UInt16} (h : value.length < 2 ^ 30) :
    ValueType.wstring.bytes value = wideBytes value := by
  have hmod : value.length % 2 ^ 32 * 2 % 2 ^ 32 = 2 * value.length := by omega
  show (wideBytes value).take (value.length % 2 ^ 32 * 2 % 2 ^ 32) = wideBytes value
  rw [hmod, ← length_wideBytes, List.take_length]

/-! ## What is read -/

/-- The types under which integers are stored are admitted by no mask. -/
theorem regGetValueW_of_unknown {dwType : ℕ} {data : List UInt8}
    (hstored : reg place = some ⟨dwType, data⟩)
    (hunknown : ∀ dwFlags, admits dwFlags dwType = false) (dwFlags : ℕ) :
    regGetValueW os reg place dwFlags = .error errorUnsupportedType := by
  unfold regGetValueW
  rw [hstored]
  simp only [hunknown dwFlags, Bool.false_eq_true, if_false]

/-- What is stored as `REG_EXPAND_SZ` is read as a string: expanded, and with a terminator. -/
theorem regGetValueW_of_expandSz {value : List UInt16}
    (hstored : reg place = some ⟨regExpandSz, wideBytes value⟩) (hnull : (0 : UInt16) ∉ value) :
    regGetValueW os reg place rrfRtRegSz = .ok (wideBytes (os.expand value ++ [0])) := by
  have htext : (wideUnits (wideBytes value)).takeWhile (· ≠ 0) = value := by
    rw [wideUnits_wideBytes, List.takeWhile_eq_self_iff]
    intro u hu
    rw [decide_eq_true_iff]
    intro hzero
    exact hnull (hzero ▸ hu)
  unfold regGetValueW
  rw [hstored]
  show Except.ok (wideBytes (os.expand ((wideUnits (wideBytes value)).takeWhile (· ≠ 0)) ++ [0]))
    = _
  rw [htext]

/-- The string that `Get` returns: the expansion, with the surplus of the first answer as nulls. -/
theorem getWith_wstring {ε : Type} (fail : ℕ → ε) {text : List UInt16}
    (hread : regGetValueW os reg place rrfRtRegSz = .ok (wideBytes (text ++ [0]))) :
    reg.getWith fail os place .wstring = .ok (text ++ List.replicate (os.slack / 2) 0) := by
  have hlen : (wideBytes (text ++ [0])).length = 2 * (text.length + 1) := by
    rw [length_wideBytes, List.length_append, List.length_singleton]
  have hhalf : (2 * (text.length + 1) + os.slack) / 2 - (text.length + 1) = os.slack / 2 := by
    omega
  have hrest : (List.replicate (2 * ((2 * (text.length + 1) + os.slack) / 2)) (0 : UInt8)).drop
      (2 * (text.length + 1)) = wideBytes (List.replicate (os.slack / 2) 0) := by
    rw [List.drop_replicate, wideBytes_replicate_zero, ← Nat.mul_sub, hhalf]
  have hzeros : ([0] : List UInt16) ++ List.replicate (os.slack / 2) 0
      = List.replicate (os.slack / 2) 0 ++ [0] := by
    rw [← List.replicate_succ', List.replicate_succ]
    rfl
  have hquery : querySize os reg place rrfRtRegSz = .ok (2 * (text.length + 1) + os.slack) := by
    rw [querySize, hread, ← hlen]
    rfl
  have hvalue : readValue os reg place ValueType.wstring.type
      (List.replicate (2 * ((2 * (text.length + 1) + os.slack) / 2)) 0)
      (2 * (text.length + 1) + os.slack)
      = .ok (wideBytes (text ++ List.replicate (os.slack / 2) 0 ++ [0])) := by
    unfold readValue
    rw [show ValueType.wstring.type = rrfRtRegSz from rfl, hread]
    dsimp only
    rw [hlen, if_neg (by omega), hrest, ← wideBytes_append, List.append_assoc, hzeros,
      List.append_assoc]
  unfold Registry.getWith
  simp only [hquery, hvalue]
  rw [wideUnits_wideBytes, List.dropLast_concat]

/-! ## Round trips -/

/-- Without nulls at its end, a string can only be what it is. -/
theorem append_replicate_eq_iff {text value : List UInt16} (hnull : (0 : UInt16) ∉ value) (n : ℕ) :
    text ++ List.replicate n 0 = value ↔ text = value ∧ n = 0 := by
  constructor
  · intro heq
    have hn : n = 0 := by
      by_contra hpos
      apply hnull
      rw [← heq]
      exact List.mem_append_right _ (List.mem_replicate.mpr ⟨hpos, rfl⟩)
    subst hn
    simpa using heq
  · rintro ⟨rfl, rfl⟩
    simp

/-- After a `Set`, both kinds of `Get` return the value set, or neither. -/
theorem getWith_set_iff {ε : Type} (fail : ℕ → ε) {T : ValueType} {value : T.Value}
    (hvalue : T.Admissible value) (hset : reg.set place T value status = .ok reg') :
    reg'.getWith fail os place T = .ok value ↔ ComesBack os T value := by
  have hstored := stored_of_set hset
  cases T with
  | wstring =>
    obtain ⟨hnull, hlen⟩ := hvalue
    rw [bytes_wstring hlen] at hstored
    have hread : regGetValueW os reg' place rrfRtRegSz = _ := regGetValueW_of_expandSz hstored hnull
    rw [getWith_wstring fail hread, Except.ok.injEq, append_replicate_eq_iff hnull]
    apply and_congr_right
    intro _
    omega
  | DWORD =>
    have hread : regGetValueW os reg' place ValueType.DWORD.type = _ :=
      regGetValueW_of_unknown hstored (by intro dwFlags; rfl) _
    simp [Registry.getWith, readValue, hread, ComesBack]
  | size_t =>
    have hread : regGetValueW os reg' place ValueType.size_t.type = _ :=
      regGetValueW_of_unknown hstored (by intro dwFlags; rfl) _
    simp [Registry.getWith, readValue, hread, ComesBack]

/-- `Get` returns what `Set` stored exactly if it comes back. -/
theorem get_set_iff {T : ValueType} {value : T.Value} (hvalue : T.Admissible value)
    (hset : reg.set place T value status = .ok reg') :
    (reg'.get os place T = .ok value ↔ ComesBack os T value) ∧
      (reg'.getExpected os place T = .ok value ↔ ComesBack os T value) :=
  ⟨getWith_set_iff _ hvalue hset, getWith_set_iff _ hvalue hset⟩

/-- A system that finds no variable to expand and reports exact sizes. -/
def Environment.plain : Environment := { expand := id, slack := 0, memory := [] }

/-- `L"test"` in an empty registry comes back. -/
theorem get_set_test :
    ∃ reg', Registry.set (fun _ => none) ⟨1, [65], [65]⟩ .wstring [116, 101, 115, 116] 0
        = .ok reg' ∧
      reg'.get .plain ⟨1, [65], [65]⟩ .wstring = .ok [116, 101, 115, 116] ∧
      reg'.getExpected .plain ⟨1, [65], [65]⟩ .wstring = .ok [116, 101, 115, 116] := by
  obtain ⟨hget, hexpected⟩ := @get_set_iff .plain (fun _ => none) _ ⟨1, [65], [65]⟩ 0 .wstring
    [116, 101, 115, 116] ⟨by decide, by decide⟩ rfl
  have hback : ComesBack .plain .wstring [116, 101, 115, 116] := ⟨rfl, by decide⟩
  exact ⟨_, rfl, hget.mpr hback, hexpected.mpr hback⟩

/-- The `DWORD` 5 is stored, and no `Get` can read it. -/
theorem unsupportedType_counterexample :
    ∃ reg', Registry.set (fun _ => none) ⟨1, [65], [65]⟩ .DWORD 5 0 = .ok reg' ∧
      reg'.get .plain ⟨1, [65], [65]⟩ .DWORD
        = .error ⟨"Cannot read value from registry.", some errorUnsupportedType⟩ :=
  ⟨_, rfl, rfl⟩

end Win32Experiments.RegEditor
