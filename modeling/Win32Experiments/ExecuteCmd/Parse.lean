import Win32Experiments.ExecuteCmd.Strings

/-!
# The parser of `ExecuteCmd`

The command prints a header, and the value in the line below it. `Parse` takes the line behind the
header, drops two characters off its end and trims it.

* `split_commandOutput`: the lines of the output;
* `parse_commandOutput`: what `Parse` makes of them;
* `parse_eq_serial_iff`: when this is the value.
-/

namespace Win32Experiments.ExecuteCmd

open Foundation Strings

/-! ## The parser -/

/-- The header of the column. -/
def serialNumberHeader : List UInt8 := "SerialNumber".toList.map fun c => c.toNat.toUInt8

/-- The end of a line, `"\\r\\r\\n"`. -/
def lineEnd : List UInt8 := [13, 13, 10]

/-- The loop of `Parse`: the token behind the first one that starts with the header. -/
def serialToken : Bool → List (List UInt8) → List UInt8
  | _, [] => []
  | true, token :: _ => token
  | false, token :: tokens => serialToken (serialNumberHeader.isPrefixOf token) tokens

/-- `Parse` drops two extra spaces from a token of more than two characters. -/
def popSpaces (serialNumber : List UInt8) : List UInt8 :=
  if serialNumber.length > 2 then serialNumber.dropLast.dropLast else serialNumber

/-- `Parse`; `none` when `Split` does not return. -/
def parse (cmd : List UInt8) : Option (List UInt8) :=
  (split cmd lineEnd).map fun tokens => trim (popSpaces (serialToken false tokens))

/-! ## The output of the command -/

/-- A serial number: ASCII text in one line that neither starts nor ends with a blank. -/
structure IsSerialNumber (serial : List UInt8) : Prop where
  ne_nil : serial ≠ []
  ascii : ∀ ch ∈ serial, ch < 128
  not_mem_cr : 13 ∉ serial
  not_mem_lf : 10 ∉ serial
  head_ne_blank : serial.head? ≠ some 32
  getLast_ne_blank : serial.getLast? ≠ some 32

/-- `count` blanks. -/
def blanks (count : ℕ) : List UInt8 := List.replicate count 32

/-- What the command prints. -/
def commandOutput (serial : List UInt8) (headerSpaces valueSpaces : ℕ) : List UInt8 :=
  serialNumberHeader ++ blanks headerSpaces ++ lineEnd ++ serial ++ blanks valueSpaces ++ lineEnd ++
    lineEnd

section

variable {serial s t : List UInt8} {headerSpaces valueSpaces : ℕ}

theorem isspace_of_mem_blanks {count : ℕ} : ∀ ch ∈ blanks count, isspace ch := by
  intro ch hch
  rw [List.eq_of_mem_replicate hch]
  decide

theorem cr_not_mem_append_blanks {count : ℕ} (h : 13 ∉ t) : 13 ∉ t ++ blanks count := by
  rw [List.mem_append, not_or]
  refine ⟨h, fun hmem => ?_⟩
  have hcr := List.eq_of_mem_replicate hmem
  contradiction

/-- `Split` takes a line off. -/
theorem split_line (h : 13 ∉ t) (s : List UInt8) :
    split (t ++ (lineEnd ++ s)) lineEnd = (split s lineEnd).map (t :: ·) := by
  have hfind : find lineEnd (t ++ (lineEnd ++ s)) = some t.length := find_append_of_not_mem h s
  have hne : lineEnd ≠ [] := List.cons_ne_nil _ _
  rw [split_of_find_eq_some hne hfind, List.take_left, ← List.drop_drop, List.drop_left,
    List.drop_left]

/-- The output is cut into the header, the value, and what is between and behind the last two ends
of a line. -/
theorem split_commandOutput (hserial : 13 ∉ serial) :
    split (commandOutput serial headerSpaces valueSpaces) lineEnd =
      some [serialNumberHeader ++ blanks headerSpaces, serial ++ blanks valueSpaces, [], []] := by
  have hheader : 13 ∉ serialNumberHeader ++ blanks headerSpaces :=
    cr_not_mem_append_blanks (by decide)
  have hlines : commandOutput serial headerSpaces valueSpaces =
      (serialNumberHeader ++ blanks headerSpaces) ++ (lineEnd ++
        ((serial ++ blanks valueSpaces) ++ (lineEnd ++ ([] ++ (lineEnd ++ []))))) := by
    rw [commandOutput, List.append_nil, List.nil_append]
    simp only [List.append_assoc]
  rw [hlines, split_line hheader, split_line (cr_not_mem_append_blanks hserial),
    split_line List.not_mem_nil]
  rfl

/-- `Parse` works on the value and the blanks behind it. -/
theorem parse_commandOutput (hserial : 13 ∉ serial) :
    parse (commandOutput serial headerSpaces valueSpaces) =
      some (trim (popSpaces (serial ++ blanks valueSpaces))) := by
  have hheader : serialNumberHeader.isPrefixOf (serialNumberHeader ++ blanks headerSpaces) :=
    List.isPrefixOf_iff_prefix.mpr (List.prefix_append _ _)
  rw [parse, split_commandOutput hserial, Option.map_some, serialToken, hheader, serialToken]

/-! ## When `Parse` returns the value -/

/-- With two blanks or more, it is two blanks that are dropped. -/
theorem trim_popSpaces_of_two_le (hne : serial ≠ []) (htwo : 2 ≤ valueSpaces) :
    trim (popSpaces (serial ++ blanks valueSpaces)) = trim serial := by
  obtain ⟨rest, rfl⟩ := Nat.exists_eq_add_of_le' htwo
  have hpos := List.length_pos_iff.mpr hne
  have hlong : (serial ++ blanks (rest + 2)).length > 2 := by
    rw [List.length_append, blanks, List.length_replicate]
    omega
  have hblanks : serial ++ blanks (rest + 2) = serial ++ blanks rest ++ [32] ++ [32] := by
    rw [blanks, List.replicate_succ', List.replicate_succ', blanks]
    simp only [List.append_assoc]
  rw [popSpaces, if_pos hlong, hblanks, List.dropLast_concat, List.dropLast_concat,
    trim_append_spaces isspace_of_mem_blanks]

/-- With a single blank, a value of one character is left alone. -/
theorem trim_popSpaces_of_singleton (hone : serial.length = 1) :
    trim (popSpaces (serial ++ blanks 1)) = trim serial := by
  have hshort : ¬ (serial ++ blanks 1).length > 2 := by
    rw [List.length_append, blanks, List.length_replicate]
    omega
  rw [popSpaces, if_neg hshort, trim_append_spaces isspace_of_mem_blanks]

/-- With a single blank, a longer value loses its last character. -/
theorem length_trim_popSpaces_lt (hlong : 2 ≤ serial.length) :
    (trim (popSpaces (serial ++ blanks 1))).length < serial.length := by
  have hpop : popSpaces (serial ++ blanks 1) = serial.dropLast := by
    have hlen : (serial ++ blanks 1).length > 2 := by
      rw [List.length_append, blanks, List.length_replicate]
      omega
    have hblank : serial ++ blanks 1 = serial ++ [32] := rfl
    rw [popSpaces, if_pos hlen, hblank, List.dropLast_concat]
  have hle : (trim serial.dropLast).length ≤ serial.dropLast.length := length_trim_le
  rw [List.length_dropLast] at hle
  rw [hpop]
  omega

/-- **`Parse`.** It returns the value exactly when there are two blanks or more behind it, or the
value has one character; and no white space is at the ends of the value. -/
theorem parse_eq_serial_iff (hserial : IsSerialNumber serial) (hvalue : 1 ≤ valueSpaces) :
    parse (commandOutput serial headerSpaces valueSpaces) = some serial ↔
      (2 ≤ valueSpaces ∨ serial.length = 1) ∧ Trimmed serial := by
  have hpos := List.length_pos_iff.mpr hserial.ne_nil
  rw [parse_commandOutput hserial.not_mem_cr, Option.some.injEq]
  by_cases htwo : 2 ≤ valueSpaces
  · rw [trim_popSpaces_of_two_le hserial.ne_nil htwo, trim_eq_self_iff]
    simp only [htwo, true_or, true_and]
  · obtain rfl : valueSpaces = 1 := by omega
    by_cases hone : serial.length = 1
    · rw [trim_popSpaces_of_singleton hone, trim_eq_self_iff]
      simp only [hone, or_true, true_and]
    · have hshorter := length_trim_popSpaces_lt (show 2 ≤ serial.length by omega)
      refine iff_of_false (fun heq => ?_) (fun h => ?_)
      · rw [heq] at hshorter
        omega
      · omega

end

theorem isSerialNumber_AB : IsSerialNumber [65, 66] where
  ne_nil := by decide
  ascii := List.forall_mem_cons.mpr ⟨by decide, List.forall_mem_singleton.mpr (by decide)⟩
  not_mem_cr := by decide
  not_mem_lf := by decide
  head_ne_blank := by decide
  getLast_ne_blank := by decide

/-- A value of two characters with two blanks behind it. -/
theorem parse_two_blanks :
    IsSerialNumber [65, 66] ∧ parse (commandOutput [65, 66] 2 2) = some [65, 66] := by
  exact ⟨isSerialNumber_AB, (parse_eq_serial_iff isSerialNumber_AB (by decide)).mpr (by decide)⟩

/-- The same value with a single blank loses its last character. -/
theorem parse_counterexample :
    IsSerialNumber [65, 66] ∧ parse (commandOutput [65, 66] 2 1) = some [65] ∧
      ¬ ∀ serial headerSpaces valueSpaces, IsSerialNumber serial → 1 ≤ headerSpaces →
        1 ≤ valueSpaces → parse (commandOutput serial headerSpaces valueSpaces) = some serial := by
  have hparse : parse (commandOutput [65, 66] 2 1) = some [65] := by decide
  refine ⟨isSerialNumber_AB, hparse, fun hall => ?_⟩
  have hwhole := hall [65, 66] 2 1 isSerialNumber_AB (by decide) (by decide)
  rw [hparse] at hwhole
  contradiction

end Win32Experiments.ExecuteCmd
