import Win32Experiments.EventLog.ParameterStrings
import Mathlib.Data.List.TakeWhile

/-!
# The three passes over a message

`placeholdersFrom` is what both scanning passes are to find. The counting loop steps over a `%`
only, the locating loop over the digits as well; the digits contain no `%`, so both find the same.

* `countParameters_eq`, `locateParameters_eq`: the scanning passes;
* `placeholdersFrom_eq_cons`: the message in front of and behind the first placeholder;
* `fillFinalMessage_eq`: the copies fit into the buffer, and give the expanded message.
-/

namespace Win32Experiments.EventLog

open Foundation

/-- The placeholders of a text that starts at the offset `pos` of the message. -/
def placeholdersFrom : ℕ → List UInt16 → List Placeholder
  | _, [] => []
  | pos, c :: text =>
    if c = 37 ∧ startsWithDigit text then
      ⟨pos, wtoi text, pos + 1 + (text.takeWhile isdigit).length⟩ ::
        placeholdersFrom (pos + 1) text
    else placeholdersFrom (pos + 1) text

section

variable {pMessage text : List UInt16} {pos fuel : ℕ}

/-! ## The characters -/

/-- The character behind a place of the message tells whether the rest starts with a digit. -/
theorem exists_charAt (h : pos ≤ pMessage.length) :
    ∃ c, charAt pMessage pos = some c ∧ isdigit c = startsWithDigit (pMessage.drop pos) := by
  by_cases hlt : pos < pMessage.length
  · refine ⟨pMessage[pos], ?_, ?_⟩
    · rw [charAt, List.getElem?_append_left hlt, List.getElem?_eq_getElem hlt]
    · rw [List.drop_eq_getElem_cons hlt, startsWithDigit]
  · obtain rfl : pos = pMessage.length := by omega
    refine ⟨0, ?_, ?_⟩
    · rw [charAt, List.getElem?_append_right (Nat.le_refl _), Nat.sub_self]
      rfl
    · rw [List.drop_length]
      rfl

theorem percent_not_mem_takeWhile (text : List UInt16) : 37 ∉ text.takeWhile isdigit := by
  intro hmem
  have hdigit : isdigit 37 = true := List.mem_takeWhile_imp hmem
  contradiction

/-- A text without `%` has no placeholder. -/
theorem placeholdersFrom_append (h : 37 ∉ text) (rest : List UInt16) :
    placeholdersFrom pos (text ++ rest) = placeholdersFrom (pos + text.length) rest := by
  induction text generalizing pos with
  | nil => rfl
  | cons c text ih =>
    rw [List.mem_cons, not_or] at h
    rw [List.cons_append, placeholdersFrom, if_neg (fun hc => h.1 hc.1.symm), ih h.2,
      List.length_cons]
    congr 1
    omega

/-- The digits have no placeholder. -/
theorem placeholdersFrom_skip (pos : ℕ) (text : List UInt16) :
    placeholdersFrom pos text =
      placeholdersFrom (pos + (text.takeWhile isdigit).length) (text.dropWhile isdigit) := by
  have hsplit := @placeholdersFrom_append _ pos (percent_not_mem_takeWhile text)
    (text.dropWhile isdigit)
  rwa [List.takeWhile_append_dropWhile] at hsplit

theorem placeholdersFrom_of_starts (pos : ℕ) (h : startsWithDigit text) :
    placeholdersFrom pos (37 :: text) =
      ⟨pos, wtoi text, pos + 1 + (text.takeWhile isdigit).length⟩ ::
        placeholdersFrom (pos + 1) text := by
  rw [placeholdersFrom, if_pos ⟨rfl, h⟩]

theorem placeholdersFrom_of_not_starts (pos : ℕ) (h : ¬ startsWithDigit text) :
    placeholdersFrom pos (37 :: text) = placeholdersFrom (pos + 1) text := by
  rw [placeholdersFrom, if_neg (fun hc => h hc.2)]

theorem drop_add_takeWhile (pos : ℕ) (pMessage : List UInt16) :
    pMessage.drop (pos + ((pMessage.drop pos).takeWhile isdigit).length) =
      (pMessage.drop pos).dropWhile isdigit := by
  have hsplit : (pMessage.drop pos).takeWhile isdigit ++ (pMessage.drop pos).dropWhile isdigit =
      pMessage.drop pos := List.takeWhile_append_dropWhile
  have hdrop := congrArg (List.drop ((pMessage.drop pos).takeWhile isdigit).length) hsplit
  rw [List.drop_left, List.drop_drop] at hdrop
  exact hdrop.symm

/-- No further `%`: no further placeholder. -/
theorem placeholdersFrom_of_wcschr_eq_none (h : wcschr pMessage pos = none) :
    placeholdersFrom pos (pMessage.drop pos) = [] := by
  rw [wcschr, findFrom_eq (List.cons_ne_nil _ _), Option.map_eq_none_iff, find_eq_none_iff] at h
  have hnot : 37 ∉ pMessage.drop pos := fun hmem => h ((List.singleton_infix_iff _ _).mpr hmem)
  have hnone := @placeholdersFrom_append _ pos hnot []
  rwa [List.append_nil] at hnone

/-- The next `%` is where the next placeholder may start. -/
theorem wcschr_eq_some {start : ℕ} (h : wcschr pMessage pos = some start) :
    pos ≤ start ∧ start < pMessage.length ∧
      pMessage.drop start = 37 :: pMessage.drop (start + 1) ∧
      placeholdersFrom pos (pMessage.drop pos) = placeholdersFrom start (pMessage.drop start) := by
  rw [wcschr, findFrom_eq (List.cons_ne_nil _ _)] at h
  obtain ⟨i, hi, rfl⟩ := Option.map_eq_some_iff.mp h
  have hle := find_add_length_le hi
  rw [List.length_drop, List.length_singleton] at hle
  have hnot : 37 ∉ (pMessage.drop pos).take i := fun hmem =>
    not_infix_take_of_find (List.cons_ne_nil _ _) hi ((List.singleton_infix_iff _ _).mpr hmem)
  have hlen : ((pMessage.drop pos).take i).length = i := by
    rw [List.length_take, List.length_drop]
    omega
  have hfound := eq_append_of_find hi
  refine ⟨by omega, by omega, ?_, ?_⟩
  · have hdrop := congrArg (List.drop i) hfound
    rw [List.append_assoc, List.drop_append_of_le_length (by omega),
      List.drop_eq_nil_of_le (by omega), List.nil_append, List.drop_drop, List.drop_drop] at hdrop
    rw [← hdrop, List.length_singleton]
    rfl
  · have hskip := @placeholdersFrom_append _ pos hnot ((pMessage.drop pos).drop i)
    rwa [List.take_append_drop, hlen, List.drop_drop] at hskip

/-! ## The scanning passes -/

/-- The first loop counts the placeholders that are ahead. -/
theorem countLoop_eq (n : ℕ) (hpos : pos ≤ pMessage.length) (hfuel : pMessage.length - pos < fuel)
    (hcount : n + (placeholdersFrom pos (pMessage.drop pos)).length < 2 ^ 32) :
    countLoop pMessage fuel pos n =
      some (n + (placeholdersFrom pos (pMessage.drop pos)).length) := by
  induction fuel generalizing pos n with
  | zero => omega
  | succ fuel ih =>
    rw [countLoop]
    cases hnext : wcschr pMessage pos with
    | none =>
      rw [placeholdersFrom_of_wcschr_eq_none hnext]
      rfl
    | some start =>
      obtain ⟨hle, hlt, hdrop, hskip⟩ := wcschr_eq_some hnext
      obtain ⟨c, hc, hdigit⟩ := exists_charAt (show start + 1 ≤ pMessage.length by omega)
      rw [hskip, hdrop] at hcount ⊢
      show (charAt pMessage (start + 1)).bind _ = _
      rw [hc, Option.bind_some, hdigit]
      by_cases hstarts : startsWithDigit (pMessage.drop (start + 1))
      · rw [placeholdersFrom_of_starts _ hstarts, List.length_cons] at hcount ⊢
        have hsum : addW 32 n 1 = n + 1 := addW_of_lt (by omega)
        rw [if_pos hstarts, hsum, ih (n + 1) (by omega) (by omega) (by omega)]
        congr 1
        omega
      · rw [placeholdersFrom_of_not_starts _ hstarts] at hcount ⊢
        rw [if_neg hstarts]
        exact ih n (by omega) (by omega) hcount

/-- The digits are skipped up to the first character that is none. -/
theorem skipDigits_eq (hpos : pos < pMessage.length) (hfuel : pMessage.length - pos ≤ fuel) :
    skipDigits pMessage fuel pos =
      some (pos + 1 + ((pMessage.drop (pos + 1)).takeWhile isdigit).length) := by
  induction fuel generalizing pos with
  | zero => omega
  | succ fuel ih =>
    obtain ⟨c, hc, hdigit⟩ := exists_charAt (show pos + 1 ≤ pMessage.length by omega)
    rw [skipDigits, hc]
    show (if isdigit c then skipDigits pMessage fuel (pos + 1) else some (pos + 1)) = _
    by_cases hlt : pos + 1 < pMessage.length
    · rw [List.drop_eq_getElem_cons hlt, startsWithDigit] at hdigit
      rw [List.drop_eq_getElem_cons hlt, hdigit]
      split
      · next hstarts =>
        rw [ih hlt (by omega), List.takeWhile_cons_of_pos hstarts, List.length_cons]
        congr 1
        omega
      · next hstarts =>
        rw [List.takeWhile_cons_of_neg hstarts]
        rfl
    · rw [List.drop_eq_nil_of_le (by omega), startsWithDigit] at hdigit
      rw [hdigit, List.drop_eq_nil_of_le (by omega)]
      rfl

/-- From a digit on, all digits are skipped. -/
theorem skipDigits_of_starts (h : startsWithDigit (pMessage.drop pos))
    (hfuel : pMessage.length - pos ≤ fuel) :
    skipDigits pMessage fuel pos =
      some (pos + ((pMessage.drop pos).takeWhile isdigit).length) := by
  have hlt : pos < pMessage.length := by
    by_contra hge
    rw [List.drop_eq_nil_of_le (by omega)] at h
    contradiction
  rw [skipDigits_eq hlt hfuel]
  rw [List.drop_eq_getElem_cons hlt, startsWithDigit] at h
  rw [List.drop_eq_getElem_cons hlt, List.takeWhile_cons_of_pos h, List.length_cons]
  congr 1
  omega

/-- The second loop writes the placeholders that are ahead, if the arrays have room for them. -/
theorem locateLoop_eq {count : ℕ} (written : List Placeholder) (hpos : pos ≤ pMessage.length)
    (hfuel : pMessage.length - pos < fuel)
    (hroom : written.length + (placeholdersFrom pos (pMessage.drop pos)).length ≤ count) :
    locateLoop pMessage count fuel pos written =
      some (written ++ placeholdersFrom pos (pMessage.drop pos)) := by
  induction fuel generalizing pos written with
  | zero => omega
  | succ fuel ih =>
    rw [locateLoop]
    cases hnext : wcschr pMessage pos with
    | none => rw [placeholdersFrom_of_wcschr_eq_none hnext, List.append_nil]
    | some start =>
      obtain ⟨hle, hlt, hdrop, hskip⟩ := wcschr_eq_some hnext
      obtain ⟨c, hc, hdigit⟩ := exists_charAt (show start + 1 ≤ pMessage.length by omega)
      rw [hskip, hdrop] at hroom ⊢
      show (charAt pMessage (start + 1)).bind _ = _
      rw [hc, Option.bind_some, hdigit]
      by_cases hstarts : startsWithDigit (pMessage.drop (start + 1))
      · have hlen : ((pMessage.drop (start + 1)).takeWhile isdigit).length ≤ _ :=
          (List.takeWhile_prefix isdigit).length_le
        rw [List.length_drop] at hlen
        rw [placeholdersFrom_of_starts _ hstarts, placeholdersFrom_skip, ← drop_add_takeWhile,
          List.length_cons] at hroom
        have hinside : written.length < count := by omega
        rw [if_pos hstarts, if_pos hinside, skipDigits_of_starts hstarts (by omega),
          Option.bind_eq_bind, Option.bind_some, placeholdersFrom_of_starts _ hstarts,
          placeholdersFrom_skip (start + 1), ← drop_add_takeWhile, ih]
        · rw [List.append_assoc]
          rfl
        · omega
        · omega
        · rw [List.length_append, List.length_singleton]
          omega
      · rw [placeholdersFrom_of_not_starts _ hstarts] at hroom ⊢
        rw [if_neg hstarts]
        exact ih written (by omega) (by omega) hroom

/-- The placeholders of the message. -/
def placeholders (pMessage : List UInt16) : List Placeholder := placeholdersFrom 0 pMessage

theorem length_placeholdersFrom_le (pos : ℕ) (text : List UInt16) :
    (placeholdersFrom pos text).length ≤ text.length := by
  induction text generalizing pos with
  | nil => exact Nat.le_refl 0
  | cons c text ih =>
    have hrest := ih (pos + 1)
    rw [placeholdersFrom, List.length_cons]
    split
    · rw [List.length_cons]
      omega
    · omega

/-- The first pass counts the placeholders. -/
theorem countParameters_eq (hlen : pMessage.length < 2 ^ 32) :
    countParameters pMessage = some (placeholders pMessage).length := by
  have hle := length_placeholdersFrom_le 0 pMessage
  have hloop := @countLoop_eq pMessage 0 (pMessage.length + 1) 0 (Nat.zero_le _) (by omega)
  rw [List.drop_zero, Nat.zero_add] at hloop
  exact hloop (by omega)

/-- The second pass locates them, in arrays that have as many entries. -/
theorem locateParameters_eq :
    locateParameters pMessage (placeholders pMessage).length = some (placeholders pMessage) := by
  have hloop := @locateLoop_eq pMessage 0 (pMessage.length + 1) (placeholders pMessage).length []
    (Nat.zero_le _) (by omega)
  rw [List.drop_zero, List.length_nil, Nat.zero_add, List.nil_append] at hloop
  rw [locateParameters, hloop (Nat.le_refl _)]
  show (if (placeholders pMessage).length = _ then _ else none) = _
  rw [if_pos rfl]
  rfl

end

/-! ## The expanded message -/

section

variable {table : ℕ → List UInt16} {text : List UInt16} {pos : ℕ}

/-- Behind a placeholder the digits are left out. -/
theorem expandFrom_true (table : ℕ → List UInt16) (text : List UInt16) :
    expandFrom table true text = expand table (text.dropWhile isdigit) := by
  induction text with
  | nil => rfl
  | cons c text ih =>
    rw [expandFrom]
    by_cases hc : isdigit c
    · rw [List.dropWhile_cons_of_pos hc, Bool.true_and, if_pos hc, ih]
    · rw [List.dropWhile_cons_of_neg hc, Bool.true_and, if_neg hc, expand, expandFrom,
        Bool.false_and, if_neg Bool.false_ne_true]

theorem expand_of_starts (table : ℕ → List UInt16) (h : startsWithDigit text) :
    expand table (37 :: text) = table (wtoi text) ++ expand table (text.dropWhile isdigit) := by
  have hnumber : wtoi (text.takeWhile isdigit) = wtoi text := by
    rw [wtoi, List.takeWhile_idem, wtoi]
  rw [expand, expandFrom, Bool.false_and, if_neg Bool.false_ne_true, if_pos ⟨rfl, h⟩, hnumber,
    expandFrom_true]

theorem expand_cons_of_not {c : UInt16} (table : ℕ → List UInt16)
    (h : ¬ (c = 37 ∧ startsWithDigit text)) :
    expand table (c :: text) = c :: expand table text := by
  rw [expand, expandFrom, Bool.false_and, if_neg Bool.false_ne_true, if_neg h, expand]

/-- Without a placeholder the text stays. -/
theorem expand_of_placeholdersFrom_eq_nil (table : ℕ → List UInt16)
    (h : placeholdersFrom pos text = []) : expand table text = text := by
  induction text generalizing pos with
  | nil => rfl
  | cons c text ih =>
    rw [placeholdersFrom] at h
    split at h
    · contradiction
    · next hnot => rw [expand_cons_of_not table hnot, ih h]

/-- The text in front of the first placeholder, and behind it. -/
theorem placeholdersFrom_eq_cons {entry : Placeholder} {entries : List Placeholder}
    (h : placeholdersFrom pos text = entry :: entries) :
    ∃ before behind, text = before ++ 37 :: behind ∧ startsWithDigit behind ∧
      entry = ⟨pos + before.length, wtoi behind,
        pos + before.length + 1 + (behind.takeWhile isdigit).length⟩ ∧
      entries = placeholdersFrom entry.endingAddress (behind.dropWhile isdigit) ∧
      ∀ table, expand table text =
        before ++ table entry.parameterID ++ expand table (behind.dropWhile isdigit) := by
  induction text generalizing pos with
  | nil => contradiction
  | cons c text ih =>
    by_cases hc : c = 37 ∧ startsWithDigit text
    · obtain ⟨rfl, hstarts⟩ := hc
      rw [placeholdersFrom_of_starts _ hstarts] at h
      obtain ⟨rfl, rfl⟩ := List.cons.inj h
      refine ⟨[], text, rfl, hstarts, rfl, placeholdersFrom_skip _ _, fun table => ?_⟩
      rw [expand_of_starts table hstarts, List.nil_append]
    · rw [placeholdersFrom, if_neg hc] at h
      obtain ⟨before, behind, rfl, hstarts, hentry, hentries, hexpand⟩ := ih h
      refine ⟨c :: before, behind, rfl, hstarts, ?_, hentries, fun table => ?_⟩
      · rw [hentry, List.length_cons, Nat.add_assoc pos 1, Nat.add_comm 1]
      · rw [expand_cons_of_not table hc, hexpand table]
        rfl

/-- There is a placeholder exactly when a digit follows some `%`. -/
theorem placeholders_ne_nil_iff : placeholders text ≠ [] ↔ HasPlaceholder text := by
  constructor
  · intro hne
    obtain ⟨entry, entries, hcons⟩ := List.exists_cons_of_ne_nil hne
    obtain ⟨before, behind, htext, hstarts, -⟩ := placeholdersFrom_eq_cons hcons
    exact ⟨before, behind, htext, hstarts⟩
  · rintro ⟨before, behind, rfl, hstarts⟩
    rw [placeholders]
    generalize 0 = pos
    induction before generalizing pos with
    | nil =>
      rw [List.nil_append, placeholdersFrom_of_starts _ hstarts]
      exact List.cons_ne_nil _ _
    | cons c before ih =>
      rw [List.cons_append, placeholdersFrom]
      split
      · exact List.cons_ne_nil _ _
      · exact ih (pos + 1)

end

/-! ## The copies -/

section

variable {pMessage : List UInt16}

/-- The parameter strings of the placeholders. -/
def parametersOf (table : ℕ → WString) (entries : List Placeholder) : List WString :=
  entries.map fun entry => table entry.parameterID

/-- The characters of the parameter strings. -/
def cchParameters (parameters : List WString) : ℕ :=
  (parameters.map fun parameter => parameter.text.length).sum

theorem copy_eq {f : Filling} {chars : List UInt16} (h : chars.length + 1 ≤ f.cchBuffer) :
    f.copy chars =
      some ⟨f.written ++ chars, f.cchBuffer - chars.length, f.pTempMessage⟩ := by
  rw [Filling.copy, if_pos h]

/-- The loop of the copies: if there is room for the rest of the message, for the parameter strings
and a NUL, then nothing more is needed, and there is room for what is left of the message. -/
theorem fillLoop_eq (entries : List Placeholder) (parameters : List WString) (f : Filling)
    (hpos : f.pTempMessage ≤ pMessage.length)
    (hentries : placeholdersFrom f.pTempMessage (pMessage.drop f.pTempMessage) = entries)
    (hparameters : parameters.length = entries.length)
    (hroom : (pMessage.drop f.pTempMessage).length + cchParameters parameters + 1 ≤ f.cchBuffer) :
    ∃ f', fillLoop pMessage f (entries.zip parameters) = some f' ∧
      (pMessage.drop f'.pTempMessage).length + 1 ≤ f'.cchBuffer ∧
      ∀ table, parameters = parametersOf table entries →
        f'.written ++ pMessage.drop f'.pTempMessage =
          f.written ++ expand (fun id => (table id).text) (pMessage.drop f.pTempMessage) := by
  induction entries generalizing f parameters with
  | nil =>
    refine ⟨f, ?_, ?_, fun table _ => ?_⟩
    · rw [List.zip_nil_left, fillLoop]
    · omega
    · rw [expand_of_placeholdersFrom_eq_nil _ hentries]
  | cons entry entries ih =>
    obtain ⟨parameter, parameters, rfl⟩ :=
      List.exists_cons_of_length_eq_add_one (hparameters.trans List.length_cons)
    obtain ⟨before, behind, htext, hstarts, hentry, hrest, hexpand⟩ :=
      placeholdersFrom_eq_cons hentries
    have hlen := congrArg List.length htext
    rw [List.length_append, List.length_cons, List.length_drop] at hlen
    have hdigits : (behind.takeWhile isdigit).length ≤ behind.length :=
      (List.takeWhile_prefix isdigit).length_le
    have hcch : cchParameters (parameter :: parameters) =
        parameter.text.length + cchParameters parameters := rfl
    have hstart : entry.startingAddress = f.pTempMessage + before.length := by rw [hentry]
    have hend : entry.endingAddress =
        f.pTempMessage + before.length + 1 + (behind.takeWhile isdigit).length := by rw [hentry]
    have hsegment : window pMessage f.pTempMessage (entry.startingAddress - f.pTempMessage) =
        before := by
      rw [window, hstart, Nat.add_sub_cancel_left, htext, List.take_left]
    have hbehind : pMessage.drop entry.endingAddress = behind.dropWhile isdigit := by
      have hbefore : (before ++ 37 :: behind).drop (before.length + 1) = behind := by
        rw [← List.drop_drop, List.drop_left]
        rfl
      have hdrop : pMessage.drop (f.pTempMessage + (before.length + 1)) = behind := by
        rw [← List.drop_drop, htext, hbefore]
      have hskip := drop_add_takeWhile (f.pTempMessage + (before.length + 1)) pMessage
      rw [hdrop] at hskip
      rw [hend, ← hskip]
      rfl
    have hrestLength : (pMessage.drop entry.endingAddress).length ≤ behind.length := by
      rw [hbehind]
      exact (List.dropWhile_suffix isdigit).length_le
    rw [hcch, List.length_drop] at hroom
    have hcopied := @copy_eq f before (by omega)
    have hcopied' := @copy_eq
      ⟨f.written ++ before, f.cchBuffer - before.length, entry.endingAddress⟩
      parameter.text (by show _ ≤ f.cchBuffer - before.length; omega)
    obtain ⟨f', hloop, hleft, hwritten⟩ := ih parameters
      ⟨f.written ++ before ++ parameter.text,
        f.cchBuffer - before.length - parameter.text.length, entry.endingAddress⟩
      (by show entry.endingAddress ≤ _; omega) (by rw [hrest, ← hbehind])
      (Nat.succ.inj hparameters)
      (by
        show (pMessage.drop entry.endingAddress).length + _ + 1 ≤
          f.cchBuffer - before.length - parameter.text.length
        omega)
    refine ⟨f', ?_, hleft, fun table htable => ?_⟩
    · show fillLoop pMessage f ((entry, parameter) :: entries.zip parameters) = _
      rw [fillLoop, if_pos (by omega)]
      show (f.copy (window pMessage f.pTempMessage (entry.startingAddress - f.pTempMessage))).bind
        _ = _
      rw [hsegment, hcopied, Option.bind_some]
      show (Filling.copy _ _).bind _ = _
      rw [hcopied', Option.bind_some, hloop]
    · obtain ⟨hparameter, hrestTable⟩ := List.cons.inj htable
      rw [hwritten table hrestTable, hexpand, hbehind, hparameter]
      simp only [List.append_assoc]

/-- The copies fit into the buffer, whatever strings there are for the placeholders; and the strings
of a table expand the message. -/
theorem fillFinalMessage_eq {parameters : List WString}
    (hparameters : parameters.length = (placeholders pMessage).length) :
    ∃ text, fillFinalMessage pMessage (placeholders pMessage) parameters = some text ∧
      ∀ table, parameters = parametersOf table (placeholders pMessage) →
        text = expand (fun id => (table id).text) pMessage := by
  have hstart : placeholdersFrom 0 (pMessage.drop 0) = placeholders pMessage := by
    rw [List.drop_zero, placeholders]
  obtain ⟨f', hloop, hleft, hwritten⟩ := fillLoop_eq (placeholders pMessage) parameters
    ⟨[], pMessage.length + cchParameters parameters + 1, 0⟩ (Nat.zero_le _) hstart hparameters
    (Nat.le_refl _)
  refine ⟨f'.written ++ pMessage.drop f'.pTempMessage, ?_, fun table htable => ?_⟩
  · rw [fillFinalMessage]
    show (fillLoop pMessage _ _).bind _ = _
    rw [← cchParameters, hloop, Option.bind_some]
    show (f'.copy _).bind _ = _
    rw [copy_eq hleft, Option.bind_some]
  · rw [hwritten table htable, List.nil_append, List.drop_zero]

end

end Win32Experiments.EventLog
