import Win32Experiments.EventLog.Messages
import Win32Experiments.EventLog.ParameterStringsTheorems

/-!
# Expansion and release of the messages

With every allocation and lookup successful, the final message is the expanded one. For the buffers
it is the placeholders that matter: without one, nothing is allocated for the message but what is
freed; with one, `pParameters` stays, or the loop that frees its entries comes to a null pointer.

* `applyParameterStrings_expands`: the final message;
* `leaks_of_hasPlaceholder`: what a message with a placeholder leaves behind;
* `dumpRecords_eachFreedOnce_iff`: when every buffer is freed once.
-/

namespace Win32Experiments.EventLog

open Foundation

section

variable {env : Environment} {l : Locals} {pMessage : WString}

/-! ## One lookup -/

/-- A string without arguments is all that is allocated. -/
theorem getMessageString_zero (env : Environment) (buffer : Buffer) (messageId : ℕ) :
    getMessageString env buffer messageId 0 =
      (if (env.formatMessage buffer messageId).isSome then [.alloc buffer .localAlloc] else [],
        env.formatMessage buffer messageId) := by
  rw [getMessageString]
  simp only [Nat.lt_irrefl, decide_false, Bool.false_and, Bool.false_eq_true, if_false,
    List.nil_append, List.append_nil]

/-- The locals behind a lookup that succeeds. -/
def Locals.lookedUp (l : Locals) (parameter : WString) : Locals :=
  { l with
    pParameters := l.pParameters ++ [parameter]
    trace := l.trace ++ [.read .parameterIDs] ++
      [.alloc (.parameter l.pParameters.length) .localAlloc] ++
      [.read (.parameter l.pParameters.length)] }

theorem lookupParameters_of_some {entry : Placeholder} {parameter : WString}
    (h : env.formatMessage (.parameter l.pParameters.length) entry.parameterID = some parameter)
    (entries : List Placeholder) :
    lookupParameters env l (entry :: entries) =
      lookupParameters env (l.lookedUp parameter) entries := by
  rw [lookupParameters, getMessageString_zero, h]
  rfl

theorem lookupParameters_of_none {entry : Placeholder}
    (h : env.formatMessage (.parameter l.pParameters.length) entry.parameterID = none)
    (entries : List Placeholder) :
    lookupParameters env l (entry :: entries) =
      { (l.log [.read .parameterIDs]).log [] with status := ERROR_INVALID_PARAMETER } := by
  rw [lookupParameters, getMessageString_zero, h]
  rfl

/-! ## What the stages leave alone -/

/-- The allocation of the arrays leaves the count and the parameter strings alone. -/
theorem allocateArrays_keeps (env : Environment) (l : Locals) (arrays : List Buffer) :
    (allocateArrays env l arrays).dwParameterCount = l.dwParameterCount ∧
      (allocateArrays env l arrays).pParameters = l.pParameters := by
  induction arrays generalizing l with
  | nil => exact ⟨rfl, rfl⟩
  | cons array arrays ih =>
    rw [allocateArrays]
    split
    · exact ih ({ l with arrays := l.arrays ++ [array] }.log [.alloc array .malloc])
    · exact ⟨rfl, rfl⟩

/-- The lookups leave the count and the arrays alone. -/
theorem lookupParameters_keeps (env : Environment) (l : Locals) (entries : List Placeholder) :
    (lookupParameters env l entries).dwParameterCount = l.dwParameterCount ∧
      (lookupParameters env l entries).arrays = l.arrays := by
  induction entries generalizing l with
  | nil => exact ⟨rfl, rfl⟩
  | cons entry entries ih =>
    cases hlookup : env.formatMessage (.parameter l.pParameters.length) entry.parameterID with
    | none =>
      rw [lookupParameters_of_none hlookup]
      exact ⟨rfl, rfl⟩
    | some parameter =>
      rw [lookupParameters_of_some hlookup]
      exact ih (l.lookedUp parameter)

/-! ## The final message -/

theorem allocateArrays_of_malloc (hmalloc : ∀ b, env.malloc b = true) (arrays : List Buffer) :
    (allocateArrays env l arrays).status = l.status ∧
      (allocateArrays env l arrays).arrays = l.arrays ++ arrays := by
  induction arrays generalizing l with
  | nil => exact ⟨rfl, (List.append_nil _).symm⟩
  | cons array arrays ih =>
    rw [allocateArrays, if_pos (hmalloc array)]
    obtain ⟨hstatus, harrays⟩ :=
      @ih ({ l with arrays := l.arrays ++ [array] }.log [.alloc array .malloc])
    refine ⟨hstatus, ?_⟩
    rw [harrays]
    show l.arrays ++ [array] ++ arrays = _
    rw [List.append_assoc]
    rfl

theorem lookupParameters_of_table {table : ℕ → WString}
    (hlookup : ∀ i id, env.formatMessage (.parameter i) id = some (table id))
    (entries : List Placeholder) :
    (lookupParameters env l entries).status = l.status ∧
      (lookupParameters env l entries).pParameters =
        l.pParameters ++ parametersOf table entries := by
  induction entries generalizing l with
  | nil => exact ⟨rfl, (List.append_nil _).symm⟩
  | cons entry entries ih =>
    rw [lookupParameters_of_some (hlookup _ _)]
    obtain ⟨hstatus, hparameters⟩ := @ih (l.lookedUp (table entry.parameterID))
    refine ⟨hstatus, ?_⟩
    rw [hparameters]
    show l.pParameters ++ [table entry.parameterID] ++ _ = _
    rw [List.append_assoc]
    rfl

/-- What `cleanup` returns if there is nothing to free, or `pParameters` is not null. -/
theorem cleanup_result (h : l.dwParameterCount = 0 ∨ .parameters ∈ l.arrays)
    (hstatus : l.status = ERROR_SUCCESS) :
    l.cleanup.result = some (ERROR_SUCCESS, l.pFinalMessage) := by
  have hnull : ¬ (0 < l.dwParameterCount ∧ .parameters ∉ l.arrays) := by
    rintro ⟨hpos, hnot⟩
    rcases h with hzero | hmem
    · omega
    · exact hnot hmem
  rw [Locals.cleanup, if_neg hnull]
  show some (l.status, _) = _
  rw [hstatus]
  rfl

/-- The locals behind the allocation of the arrays. -/
def allocated (env : Environment) (pMessage : WString) : Locals :=
  allocateArrays env
    ⟨ERROR_SUCCESS, (placeholders pMessage.text).length, [], [], .null, [.read .message]⟩
    [.startingAddresses, .endingAddresses, .parameters, .parameterIDs]

/-- The locals behind the lookups. -/
def lookedUp (env : Environment) (pMessage : WString) : Locals :=
  lookupParameters env ((allocated env pMessage).log [.read .message]) (placeholders pMessage.text)

/-- The stages of the function, for a message with a placeholder. -/
theorem applyParameterStrings_of_hasPlaceholder (h : HasPlaceholder pMessage.text) :
    applyParameterStringsToMessage env pMessage =
      if (allocated env pMessage).status ≠ ERROR_SUCCESS then
        some (allocated env pMessage).cleanup
      else if (lookedUp env pMessage).status ≠ ERROR_SUCCESS then
        some (lookedUp env pMessage).cleanup
      else
        buildFinalMessage env pMessage (placeholders pMessage.text) (lookedUp env pMessage) := by
  have hcount : (placeholders pMessage.text).length ≠ 0 := fun hzero =>
    placeholders_ne_nil_iff.mpr h (List.length_eq_zero_iff.mp hzero)
  rw [applyParameterStringsToMessage, countParameters_eq pMessage.length_lt]
  show (if _ then _ else _) = _
  rw [if_neg hcount]
  show (if (allocated env pMessage).status ≠ ERROR_SUCCESS then _ else
    (locateParameters pMessage.text (placeholders pMessage.text).length).bind _) = _
  rw [locateParameters_eq, Option.bind_some]
  rfl

/-- Without a placeholder nothing is done. -/
theorem applyParameterStrings_of_not_hasPlaceholder (h : ¬ HasPlaceholder pMessage.text) :
    applyParameterStringsToMessage env pMessage =
      some ⟨[.read .message], some (ERROR_SUCCESS, .null)⟩ := by
  have hnil : placeholders pMessage.text = [] := not_not.mp (mt placeholders_ne_nil_iff.mp h)
  rw [applyParameterStringsToMessage, countParameters_eq pMessage.length_lt, hnil]
  rfl

/-- **`ApplyParameterStringsToMessage`.** All lookups and allocations succeed: the function returns,
so no pass leaves the message, the arrays or the buffer; both scanning passes find the same
entries; and there is a final message, the expanded one, exactly when there is a placeholder. -/
theorem applyParameterStrings_expands (pMessage : WString) (table : ℕ → WString)
    (hmalloc : ∀ b, env.malloc b = true)
    (hlookup : ∀ i id, env.formatMessage (.parameter i) id = some (table id)) :
    (∃ entries, countParameters pMessage.text = some entries.length ∧
      locateParameters pMessage.text entries.length = some entries) ∧
    ∃ applied, applyParameterStringsToMessage env pMessage = some applied ∧
      (HasPlaceholder pMessage.text → applied.result =
        some (ERROR_SUCCESS, .built (expand (fun id => (table id).text) pMessage.text))) ∧
      (¬ HasPlaceholder pMessage.text → applied.result = some (ERROR_SUCCESS, .null)) := by
  refine ⟨⟨placeholders pMessage.text, countParameters_eq pMessage.length_lt,
    locateParameters_eq⟩, ?_⟩
  by_cases hplaceholder : HasPlaceholder pMessage.text
  · obtain ⟨hstatus, harrays⟩ := @allocateArrays_of_malloc env
      ⟨ERROR_SUCCESS, (placeholders pMessage.text).length, [], [], .null, [.read .message]⟩
      hmalloc [.startingAddresses, .endingAddresses, .parameters, .parameterIDs]
    obtain ⟨hstatus', hparameters⟩ := @lookupParameters_of_table env
      ((allocated env pMessage).log [.read .message]) table hlookup (placeholders pMessage.text)
    have hfound : (lookedUp env pMessage).pParameters =
        parametersOf table (placeholders pMessage.text) := by
      refine hparameters.trans ?_
      show (allocated env pMessage).pParameters ++ _ = _
      rw [allocated, (allocateArrays_keeps _ _ _).2, List.nil_append]
    have hlength : (lookedUp env pMessage).pParameters.length =
        (placeholders pMessage.text).length := by
      rw [hfound, parametersOf, List.length_map]
    have hmem : Buffer.parameters ∈ (lookedUp env pMessage).arrays := by
      have hsame : (lookedUp env pMessage).arrays = (allocated env pMessage).arrays :=
        (lookupParameters_keeps _ _ _).2
      rw [hsame, allocated, harrays]
      exact List.mem_append_right _ (by decide)
    have hsuccess : (allocated env pMessage).status = ERROR_SUCCESS := hstatus
    have hsuccess' : (lookedUp env pMessage).status = ERROR_SUCCESS := hstatus'.trans hsuccess
    obtain ⟨text, hfill, htext⟩ := fillFinalMessage_eq hlength
    rw [applyParameterStrings_of_hasPlaceholder hplaceholder, if_neg (not_not.mpr hsuccess),
      if_neg (not_not.mpr hsuccess'), buildFinalMessage]
    show ∃ applied, (if env.malloc .finalMessage then
      (fillFinalMessage pMessage.text (placeholders pMessage.text)
        (lookedUp env pMessage).pParameters).bind _ else _) = _ ∧ _
    rw [if_pos (hmalloc _), hfill, Option.bind_some, ← htext table hfound]
    refine ⟨_, rfl, fun _ => ?_, fun h => absurd hplaceholder h⟩
    exact cleanup_result (Or.inr hmem) hsuccess'
  · exact ⟨_, applyParameterStrings_of_not_hasPlaceholder hplaceholder,
      fun h => absurd h hplaceholder, fun _ => rfl⟩

end

/-! ## A message with a parameter -/

theorem quarts_noNul : (0 : UInt16) ∉ [113, 116] := by decide

theorem eightQuarts_noNul : (0 : UInt16) ∉ [56, 32, 37, 37, 52, 46] := by decide

theorem length_lt_of_le {text : List UInt16} (h : text.length ≤ 6) : text.length < 2 ^ 32 := by
  omega

/-- `L"qt"`. -/
def quarts : WString := ⟨[113, 116], quarts_noNul, length_lt_of_le (Nat.le_add_right 2 4)⟩

/-- `L"8 %%4."`. -/
def eightQuarts : WString :=
  ⟨[56, 32, 37, 37, 52, 46], eightQuarts_noNul, length_lt_of_le (Nat.le_refl 6)⟩

/-- Everything succeeds; the parameter strings are the first, the other messages the second. -/
def allSucceed : Environment where
  malloc := fun _ => true
  formatMessage := fun buffer _ =>
    match buffer with
    | .parameter _ => some quarts
    | _ => some eightQuarts

/-- `L"8 %qt."`: the first `%` stays. -/
theorem applyParameterStrings_quarts :
    (∀ b, allSucceed.malloc b = true) ∧
      (∀ i id, allSucceed.formatMessage (.parameter i) id = some quarts) ∧
      ∃ applied, applyParameterStringsToMessage allSucceed eightQuarts = some applied ∧
        applied.result = some (ERROR_SUCCESS, .built [56, 32, 37, 113, 116, 46]) := by
  refine ⟨fun _ => rfl, fun _ _ => rfl, ?_⟩
  obtain ⟨-, applied, happly, hplaceholder, -⟩ := applyParameterStrings_expands eightQuarts
    (fun _ => quarts) (show ∀ b, allSucceed.malloc b = true from fun _ => rfl) (fun _ _ => rfl)
  exact ⟨applied, happly, hplaceholder ⟨[56, 32, 37], [52, 46], rfl, rfl⟩⟩

section

variable {env : Environment} {l : Locals} {pMessage : WString}

/-! ## What a placeholder leaves behind -/

/-- The message and `pParameters` are not freed. -/
def Unfreed (trace : List Event) : Prop :=
  ∀ kind, .free .message kind ∉ trace ∧ .free .parameters kind ∉ trace

/-- Arrays that are not null have been allocated. -/
structure Locals.Sound (l : Locals) : Prop where
  unfreed : Unfreed l.trace
  allocated : ∀ b ∈ l.arrays, .alloc b .malloc ∈ l.trace

theorem Unfreed.append {t t' : List Event} (h : Unfreed t) (h' : Unfreed t') :
    Unfreed (t ++ t') := by
  intro kind
  rw [List.mem_append, not_or, List.mem_append, not_or]
  exact ⟨⟨(h kind).1, (h' kind).1⟩, ⟨(h kind).2, (h' kind).2⟩⟩

theorem Unfreed.flatMap {f : ℕ → List Event} (h : ∀ i, Unfreed (f i)) (is : List ℕ) :
    Unfreed (is.flatMap f) := by
  induction is with
  | nil => exact fun _ => ⟨List.not_mem_nil, List.not_mem_nil⟩
  | cons i is ih =>
    rw [List.flatMap_cons]
    exact (h i).append ih

theorem Locals.Sound.log (h : l.Sound) {events : List Event} (hevents : Unfreed events) :
    (l.log events).Sound where
  unfreed := h.unfreed.append hevents
  allocated := fun b hb => List.mem_append_left _ (h.allocated b hb)

theorem sound_allocateArrays (h : l.Sound) (arrays : List Buffer) :
    (allocateArrays env l arrays).Sound := by
  induction arrays generalizing l with
  | nil => exact h
  | cons array arrays ih =>
    rw [allocateArrays]
    split
    · refine ih ⟨h.unfreed.append fun kind => ?_, fun b hb => ?_⟩
      · simp
      · rcases List.mem_append.mp hb with hold | hnew
        · exact List.mem_append_left _ (h.allocated b hold)
        · rw [List.mem_singleton.mp hnew]
          exact List.mem_append_right _ (List.mem_singleton_self _)
    · exact ⟨h.unfreed, h.allocated⟩

theorem sound_lookupParameters (h : l.Sound) (entries : List Placeholder) :
    (lookupParameters env l entries).Sound ∧
      ((lookupParameters env l entries).status = ERROR_SUCCESS →
        (lookupParameters env l entries).pParameters.length =
          l.pParameters.length + entries.length) := by
  induction entries generalizing l with
  | nil => exact ⟨h, fun _ => rfl⟩
  | cons entry entries ih =>
    cases hlookup : env.formatMessage (.parameter l.pParameters.length) entry.parameterID with
    | none =>
      rw [lookupParameters_of_none hlookup]
      have hread : (l.log [.read .parameterIDs]).Sound := h.log (by simp [Unfreed])
      have hlog : ((l.log [.read .parameterIDs]).log []).Sound := hread.log (by simp [Unfreed])
      refine ⟨⟨hlog.unfreed, hlog.allocated⟩, fun hstatus => ?_⟩
      contradiction
    | some parameter =>
      rw [lookupParameters_of_some hlookup]
      have hlog : (l.lookedUp parameter).Sound :=
        ⟨((h.unfreed.append (by simp [Unfreed])).append (by simp [Unfreed])).append
          (by simp [Unfreed]), fun b hb => List.mem_append_left _ (List.mem_append_left _
            (List.mem_append_left _ (h.allocated b hb)))⟩
      obtain ⟨hsound, hlength⟩ := ih hlog
      refine ⟨hsound, fun hstatus => ?_⟩
      rw [hlength hstatus]
      show (l.pParameters ++ [parameter]).length + _ = _
      rw [List.length_append, List.length_singleton, List.length_cons]
      omega

/-- What a call leaves behind that has had placeholders to replace. -/
structure Applied.Leaks (applied : Applied) : Prop where
  unfreed : Unfreed applied.trace
  allocated : applied.result ≠ none → .alloc .parameters .malloc ∈ applied.trace

/-- `cleanup` frees neither the message nor `pParameters`. -/
theorem cleanup_leaks (h : l.Sound) (hcount : 0 < l.dwParameterCount) : l.cleanup.Leaks := by
  have harray (array : Buffer) (hne : array ≠ .message ∧ array ≠ .parameters) :
      Unfreed (l.freeArray array) := by
    rw [Locals.freeArray]
    split
    · simp [Unfreed, hne.1.symm, hne.2.symm]
    · simp [Unfreed]
  have hparameter (i : ℕ) : Unfreed (l.freeParameter i) := by
    rw [Locals.freeParameter]
    split
    · simp [Unfreed]
    · simp [Unfreed]
  have htrace : Unfreed (l.trace ++ l.freeArray .startingAddresses ++
      l.freeArray .endingAddresses ++ l.freeArray .parameterIDs) :=
    ((h.unfreed.append (harray _ (by decide))).append (harray _ (by decide))).append
      (harray _ (by decide))
  rw [Locals.cleanup]
  split
  · exact ⟨htrace, fun hresult => absurd rfl hresult⟩
  · next hnull =>
    refine ⟨htrace.append (Unfreed.flatMap hparameter _), fun _ => ?_⟩
    have hmem : Buffer.parameters ∈ l.arrays := by
      by_contra hnot
      exact hnull ⟨hcount, hnot⟩
    simp only [List.append_assoc]
    exact List.mem_append_left _ (h.allocated _ hmem)

/-- The final message is built, or not for want of memory. -/
theorem buildFinalMessage_leaks (h : l.Sound) (hcount : 0 < l.dwParameterCount)
    (hlength : l.pParameters.length = (placeholders pMessage.text).length) :
    ∃ applied, buildFinalMessage env pMessage (placeholders pMessage.text) l = some applied ∧
      applied.Leaks := by
  have hread : (l.log [.read .message]).Sound := h.log (by simp [Unfreed])
  rw [buildFinalMessage]
  by_cases hmalloc : env.malloc .finalMessage
  · obtain ⟨text, hfill, -⟩ := fillFinalMessage_eq hlength
    have halloc : ((l.log [.read .message]).log [.alloc .finalMessage .malloc]).Sound :=
      hread.log (by simp [Unfreed])
    have hcopied : (((l.log [.read .message]).log [.alloc .finalMessage .malloc]).log
        ((List.range l.dwParameterCount).flatMap copyReads)).Sound :=
      halloc.log (Unfreed.flatMap (by simp [Unfreed, copyReads]) _)
    have hend : ((((l.log [.read .message]).log [.alloc .finalMessage .malloc]).log
        ((List.range l.dwParameterCount).flatMap copyReads)).log [.read .message]).Sound :=
      hcopied.log (by simp [Unfreed])
    show ∃ applied, (if env.malloc .finalMessage then
      (fillFinalMessage pMessage.text (placeholders pMessage.text) l.pParameters).bind _
        else _) = _ ∧ _
    rw [if_pos hmalloc, hfill, Option.bind_some]
    exact ⟨_, rfl, cleanup_leaks ⟨hend.unfreed, hend.allocated⟩ hcount⟩
  · rw [if_neg hmalloc]
    exact ⟨_, rfl, cleanup_leaks ⟨hread.unfreed, hread.allocated⟩ hcount⟩

/-- A message with a placeholder: whatever succeeds, the function returns or comes to a null
pointer, and leaves `pParameters` behind if it returns. -/
theorem leaks_of_hasPlaceholder (h : HasPlaceholder pMessage.text) :
    ∃ applied, applyParameterStringsToMessage env pMessage = some applied ∧ applied.Leaks := by
  have hne : (placeholders pMessage.text).length ≠ 0 := fun hzero =>
    placeholders_ne_nil_iff.mpr h (List.length_eq_zero_iff.mp hzero)
  have hsound : (allocated env pMessage).Sound :=
    sound_allocateArrays ⟨by simp [Unfreed], fun b hb => absurd hb List.not_mem_nil⟩ _
  have hlog : ((allocated env pMessage).log [.read .message]).Sound :=
    hsound.log (by simp [Unfreed])
  obtain ⟨hsound', hlength⟩ := @sound_lookupParameters env _ hlog (placeholders pMessage.text)
  have hpositive : 0 < (allocated env pMessage).dwParameterCount := by
    rw [allocated, (allocateArrays_keeps _ _ _).1]
    exact Nat.pos_of_ne_zero hne
  have hpositive' : 0 < (lookedUp env pMessage).dwParameterCount := by
    rw [lookedUp, (lookupParameters_keeps _ _ _).1]
    exact hpositive
  rw [applyParameterStrings_of_hasPlaceholder h]
  split
  · exact ⟨_, rfl, cleanup_leaks hsound hpositive⟩
  · split
    · exact ⟨_, rfl, cleanup_leaks hsound' hpositive'⟩
    · next hstatus =>
      refine buildFinalMessage_leaks hsound' hpositive' ?_
      rw [lookedUp, hlength (not_not.mp hstatus)]
      show (allocated env pMessage).pParameters.length + _ = _
      rw [allocated, (allocateArrays_keeps _ _ _).2, List.length_nil, Nat.zero_add]

end

/-! ## The records -/

/-- The record is of another source, or its message is not found, or has no placeholder. -/
def Record.Harmless (record : Record) : Prop :=
  record.ofProvider = false ∨
    ∀ pMessage, record.env.formatMessage .message record.eventID = some pMessage →
      ¬ HasPlaceholder pMessage.text

section

variable {record : Record}

/-- The category is printed and freed if there is one. -/
theorem dumpCategory_eq (record : Record) :
    dumpCategory record = [] ∨
      dumpCategory record = MemoryEvent.life .category .localAlloc 1 := by
  rw [dumpCategory, getMessageString_zero]
  cases record.env.formatMessage .category record.eventCategory with
  | none => exact Or.inl rfl
  | some pMessage => exact Or.inr rfl

theorem eachFreedOnce_dumpCategory : EachFreedOnce (dumpCategory record) := by
  rcases dumpCategory_eq record with h | h
  · rw [h]
    exact eachFreedOnce_nil
  · rw [h]
    exact eachFreedOnce_life _ _ _

theorem history_dumpCategory {b : Buffer} (hb : b ≠ .category) :
    history b (dumpCategory record) = [] := by
  rcases dumpCategory_eq record with h | h
  · rw [h]
    rfl
  · rw [h, history_life, if_neg hb.symm]

/-- The arguments are freed before the message is printed. -/
theorem eachFreedOnce_args :
    EachFreedOnce ([.alloc .args .malloc, .read .args, .alloc .message .localAlloc,
      .free .args .malloc, .read .message, .read .message, .free .message .localAlloc] :
        List Event) := by
  intro b
  by_cases hargs : b = .args
  · subst hargs
    exact Or.inr ⟨.malloc, 1, rfl⟩
  · by_cases hmessage : b = .message
    · subst hmessage
      exact Or.inr ⟨.localAlloc, 2, rfl⟩
    · left
      simp [history, MemoryEvent.buffer, Ne.symm hargs, Ne.symm hmessage]

/-- A harmless message. -/
theorem dumpMessage_of_harmless
    (h : ∀ pMessage, record.env.formatMessage .message record.eventID = some pMessage →
      ¬ HasPlaceholder pMessage.text) :
    ∃ dumped, dumpMessage record = some dumped ∧ dumped.crashed = false ∧
      EachFreedOnce dumped.trace ∧ history .category dumped.trace = [] := by
  rw [dumpMessage, getMessageString]
  cases hfound : record.env.formatMessage .message record.eventID with
  | none =>
    refine ⟨_, rfl, rfl, ?_, ?_⟩
    · split
      · exact eachFreedOnce_life Buffer.args Allocator.malloc 1
      · exact eachFreedOnce_nil
    · split
      · rfl
      · rfl
  | some pMessage =>
    show ∃ dumped, (applyParameterStringsToMessage record.env pMessage).bind _ = _ ∧ _
    rw [applyParameterStrings_of_not_hasPlaceholder (h pMessage hfound), Option.bind_some]
    refine ⟨_, rfl, rfl, ?_, ?_⟩
    · split
      · exact eachFreedOnce_args
      · exact eachFreedOnce_life Buffer.message Allocator.localAlloc 2
    · split
      · rfl
      · rfl

theorem dumpRecord_of_harmless (h : record.Harmless) :
    ∃ dumped, dumpRecord record = some dumped ∧ dumped.crashed = false ∧
      EachFreedOnce dumped.trace := by
  rw [dumpRecord]
  split
  · next hprovider =>
    have hmessage := h.resolve_left (by rw [hprovider]; decide)
    obtain ⟨dumped, hdumped, hcrashed, heach, hcategory⟩ := dumpMessage_of_harmless hmessage
    rw [hdumped, Option.map_some]
    refine ⟨_, rfl, hcrashed, (eachFreedOnce_append_iff ?_).mpr
      ⟨eachFreedOnce_dumpCategory, heach⟩⟩
    intro b
    by_cases hb : b = .category
    · subst hb
      exact Or.inr hcategory
    · exact Or.inl (history_dumpCategory hb)
  · exact ⟨_, rfl, rfl, eachFreedOnce_nil⟩

theorem unfreed_dumpCategory (record : Record) : Unfreed (dumpCategory record) := by
  rcases dumpCategory_eq record with h | h
  · rw [h]
    simp [Unfreed]
  · rw [h]
    simp [Unfreed, MemoryEvent.life]

/-- Formatting the message frees the arguments only. -/
theorem getMessageString_message {pMessage : WString}
    (hfound : record.env.formatMessage .message record.eventID = some pMessage) :
    ∃ events, getMessageString record.env .message record.eventID record.numStrings =
        (events, some pMessage) ∧
      Unfreed events ∧ .alloc .message .localAlloc ∈ events := by
  rw [getMessageString, hfound]
  refine ⟨_, rfl, ?_, ?_⟩
  · split
    · simp [Unfreed]
    · simp [Unfreed]
  · split
    · simp
    · simp

/-- A message with a placeholder leaves `pParameters` or itself behind. -/
theorem dumpRecord_of_not_harmless (h : ¬ record.Harmless) :
    ∃ dumped, dumpRecord record = some dumped ∧ ¬ EachFreedOnce dumped.trace := by
  rw [Record.Harmless, not_or] at h
  obtain ⟨hprovider, hmessage⟩ := h
  simp only [not_forall, not_not] at hmessage
  obtain ⟨pMessage, hfound, hplaceholder⟩ := hmessage
  obtain ⟨applied, happly, hleaks⟩ := @leaks_of_hasPlaceholder record.env _ hplaceholder
  obtain ⟨events, hevents, hunfreed, halloc⟩ := getMessageString_message hfound
  have hbefore := (unfreed_dumpCategory record).append (hunfreed.append hleaks.unfreed)
  rw [dumpRecord, if_pos (Bool.not_eq_false _ ▸ hprovider), dumpMessage, hevents]
  show ∃ dumped, ((applyParameterStringsToMessage record.env pMessage).bind _).map _ = _ ∧ _
  rw [happly, Option.bind_some]
  cases hresult : applied.result with
  | none =>
    refine ⟨_, rfl, fun heach => ?_⟩
    have hmem : MemoryEvent.alloc .message .localAlloc ∈
        dumpCategory record ++ (events ++ applied.trace) :=
      List.mem_append_right _ (List.mem_append_left _ halloc)
    exact (hbefore .localAlloc).1 (heach.free_mem hmem)
  | some result =>
    refine ⟨_, rfl, fun heach => ?_⟩
    have hparameters := hleaks.allocated (hresult ▸ Option.some_ne_none result)
    have hmem : MemoryEvent.alloc .parameters .malloc ∈
        dumpCategory record ++ (events ++ applied.trace ++ releaseMessages result.2) :=
      List.mem_append_right _ (List.mem_append_left _ (List.mem_append_right _ hparameters))
    have hrelease : MemoryEvent.free .parameters .malloc ∉ releaseMessages result.2 := by
      cases result.2 <;> simp [releaseMessages]
    have hfree : MemoryEvent.free .parameters .malloc ∈
        dumpCategory record ++ (events ++ applied.trace ++ releaseMessages result.2) :=
      heach.free_mem hmem
    rw [← List.append_assoc, List.mem_append] at hfree
    exact hfree.elim (hbefore .malloc).2 hrelease

end

/-! ## All records -/

/-- The buffers of the records from the `k`th on carry a number from `k` on. -/
theorem history_dumpRecords {records : List Record} {k k' : ℕ}
    {trace : List (MemoryEvent (ℕ × Buffer) Allocator)} (h : dumpRecords k records = some trace)
    (hlt : k' < k) (b : Buffer) : history (k', b) trace = [] := by
  induction records generalizing k trace with
  | nil =>
    obtain rfl := Option.some.inj h
    rfl
  | cons record records ih =>
    rw [dumpRecords] at h
    obtain ⟨dumped, hdumped, h⟩ := Option.bind_eq_some_iff.mp h
    have htag := history_tag_of_ne (show k ≠ k' by omega) b dumped.trace
    split at h
    · obtain rfl := Option.some.inj h
      exact htag
    · obtain ⟨rest, hrest, rfl⟩ := Option.map_eq_some_iff.mp h
      rw [history_append, htag, ih hrest (by omega)]
      rfl

/-- **`DumpRecordsInBuffer`.** For all records and whatever succeeds in them: every buffer is freed
once, by the deallocator that matches, and not read after that, exactly when each record is of
another source, or its message is not found, or has no placeholder. -/
theorem dumpRecords_eachFreedOnce_iff (records : List Record) :
    ∃ trace, dumpRecordsInBuffer records = some trace ∧
      (EachFreedOnce trace ↔ ∀ record ∈ records, record.Harmless) := by
  rw [dumpRecordsInBuffer]
  generalize 0 = k
  induction records generalizing k with
  | nil => exact ⟨[], rfl, iff_of_true eachFreedOnce_nil fun _ h => absurd h List.not_mem_nil⟩
  | cons record records ih =>
    obtain ⟨rest, hrest, hiff⟩ := ih (k + 1)
    have hdisjoint (trace : List Event) (b : ℕ × Buffer) :
        history b (trace.map (MemoryEvent.tag k)) = [] ∨ history b rest = [] := by
      by_cases hk : k = b.1
      · subst hk
        exact Or.inr (history_dumpRecords hrest (Nat.lt_succ_self _) b.2)
      · exact Or.inl (history_tag_of_ne hk b.2 _)
    rw [dumpRecords, List.forall_mem_cons]
    by_cases hharmless : record.Harmless
    · obtain ⟨dumped, hdumped, hcrashed, heach⟩ := dumpRecord_of_harmless hharmless
      refine ⟨dumped.trace.map (.tag k) ++ rest, ?_, ?_⟩
      · rw [hdumped]
        show (if dumped.crashed = true then _ else (dumpRecords (k + 1) records).map _) = _
        rw [hcrashed, if_neg Bool.false_ne_true, hrest, Option.map_some]
      · rw [eachFreedOnce_append_iff (hdisjoint _), eachFreedOnce_tag_iff, hiff]
        exact and_congr_left fun _ => iff_of_true heach hharmless
    · obtain ⟨dumped, hdumped, heach⟩ := dumpRecord_of_not_harmless hharmless
      have htagged : ¬ EachFreedOnce (dumped.trace.map (MemoryEvent.tag k)) :=
        fun h => heach ((eachFreedOnce_tag_iff k).mp h)
      rw [hdumped]
      show ∃ trace, (if dumped.crashed = true then _ else
        (dumpRecords (k + 1) records).map _) = some trace ∧ _
      rw [hrest, Option.map_some]
      split
      · exact ⟨_, rfl, iff_of_false htagged fun h => hharmless h.1⟩
      · refine ⟨_, rfl, iff_of_false (fun h => ?_) fun h => hharmless h.1⟩
        exact htagged ((eachFreedOnce_append_iff (hdisjoint _)).mp h).1

/-- Everything succeeds for a record with the message `L"8 %%4."`: `pParameters` is not freed. -/
theorem dumpRecords_counterexample :
    ∃ trace, dumpRecordsInBuffer [⟨true, 1, 2, 0, allSucceed⟩] = some trace ∧
      history (0, .parameters) trace =
        [.alloc (0, .parameters) .malloc, .read (0, .parameters), .read (0, .parameters)] ∧
      ¬ EachFreedOnce trace := by
  have hhistory : (dumpRecordsInBuffer [⟨true, 1, 2, 0, allSucceed⟩]).map
      (history (0, Buffer.parameters)) =
      some [.alloc (0, .parameters) .malloc, .read (0, .parameters), .read (0, .parameters)] := by
    decide
  obtain ⟨trace, htrace, hparameters⟩ := Option.map_eq_some_iff.mp hhistory
  refine ⟨trace, htrace, hparameters, fun heach => ?_⟩
  rcases heach (0, .parameters) with hnone | ⟨kind, n, hlife⟩
  · rw [hparameters] at hnone
    contradiction
  · have hfree : MemoryEvent.free (0, Buffer.parameters) kind ∈ history (0, .parameters) trace := by
      rw [hlife, MemoryEvent.life]
      exact List.mem_append_right _ (List.mem_singleton_self _)
    rw [hparameters] at hfree
    simp at hfree

end Win32Experiments.EventLog
