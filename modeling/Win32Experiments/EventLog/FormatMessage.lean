import Mathlib.Data.List.Infix
import Win32Experiments.Foundation.Memory
import Win32Experiments.Foundation.Word

/-!
# `GetMessageString` of `TestA`

The function asks `EvtFormatMessage` for the size of a text, allocates as much and asks again. For
keywords the text is a list of strings; the size is not taken over for it, and a terminator is
written before there is a buffer.

* `walk_eq`: the loop of the caller goes over every list with a second terminator;
* `formatsWhole_iff`: the function makes such a list of no keywords.
-/

namespace Win32Experiments.EventLog.TestA

open Foundation

/-- `EVT_FORMAT_MESSAGE_FLAGS`. -/
inductive FormatId where
  | event
  | level
  | task
  | opcode
  | keyword
  | channel
  | provider
  | id
  | xml
deriving DecidableEq, Repr

/-- What there is to format of an event: the text for each format, and the keywords. -/
structure EventText where
  text : FormatId → List UInt16
  keywords : List (List UInt16)
  keywords_ne : keywords ≠ []
  keyword_ne : ∀ k ∈ keywords, k ≠ []
  keyword_noNul : ∀ k ∈ keywords, 0 ∉ k

/-- Strings, each with its terminator. -/
def terminated (strings : List (List UInt16)) : List UInt16 := strings.flatMap (· ++ [0])

/-- What `EvtFormatMessage` writes. -/
def EventText.content (e : EventText) (formatId : FormatId) : List UInt16 :=
  if formatId = .keyword then terminated e.keywords else e.text formatId ++ [0]

/-- The result of a call of `EvtFormatMessage`, which fails with `ERROR_INSUFFICIENT_BUFFER` if it
does: what it returns, the buffer behind it, and `BufferUsed`. -/
structure FormatCall where
  succeeded : Bool
  buffer : Option (List UInt16)
  bufferUsed : ℕ

/-- `EvtFormatMessage`. -/
def evtFormatMessage (content : List UInt16) (bufferSize : ℕ) (buffer : Option (List UInt16)) :
    FormatCall :=
  if content.length ≤ bufferSize then
    ⟨true, buffer.map fun cells => store cells 0 content, content.length⟩
  else ⟨false, buffer, content.length⟩

/-- What `malloc` does: whether it succeeds, and what it finds in the memory. -/
structure Malloc where
  succeeds : Bool
  garbage : ℕ → UInt16

/-- The cells that `malloc` returns. -/
def Malloc.cells (malloc : Malloc) (size : ℕ) : Option (List UInt16) :=
  if malloc.succeeds then some ((List.range size).map malloc.garbage) else none

/-- An access that is none. -/
inductive Fault where
  | nullPointer
  | outside
deriving DecidableEq, Repr

/-- `pBuffer[i] = c`. -/
def write (pBuffer : Option (List UInt16)) (i : ℕ) (c : UInt16) :
    Except Fault (Option (List UInt16)) :=
  match pBuffer with
  | none => .error .nullPointer
  | some cells => if i < cells.length then .ok (some (cells.set i c)) else .error .outside

/-- The branch in front of the allocation: `dwBufferSize` behind it. For keywords there is a write,
but no size. -/
def bufferSize (formatId : FormatId) (pBuffer : Option (List UInt16))
    (dwBufferSize dwBufferUsed : ℕ) : Except Fault ℕ :=
  if formatId = .keyword then do
    let _ ← write pBuffer (subW 32 dwBufferSize 1) 0
    return dwBufferSize
  else .ok dwBufferUsed

/-- What follows the allocation. -/
def fillBuffer (e : EventText) (formatId : FormatId) (dwBufferSize : ℕ) :
    Option (List UInt16) → Except Fault (Option (List UInt16))
  | none => .ok none
  | some cells =>
    let call := evtFormatMessage (e.content formatId) dwBufferSize (some cells)
    if formatId = .keyword then write call.buffer (subW 32 call.bufferUsed 1) 0
    else .ok call.buffer

/-- `GetMessageString`. -/
def getMessageString (e : EventText) (malloc : Malloc) (formatId : FormatId) :
    Except Fault (Option (List UInt16)) :=
  let call := evtFormatMessage (e.content formatId) 0 none
  if call.succeeded then .ok none
  else do
    let dwBufferSize ← bufferSize formatId none 0 call.bufferUsed
    fillBuffer e formatId dwBufferSize (malloc.cells dwBufferSize)

/-- The loop of `Run` over the keywords. The pointer is the cells from it to the end of the
buffer; `none` stands for a read behind this. -/
def walk : ℕ → List UInt16 → Option (List (List UInt16))
  | 0, _ => none
  | fuel + 1, ptemp => do
    let length ← ptemp.findIdx? (· == 0)
    let next ← ptemp[length + 1]?
    if next = 0 then some [ptemp.take length]
    else (walk fuel (ptemp.drop (length + 1))).map (ptemp.take length :: ·)

/-- The text that the caller expects: keywords end with a second terminator. -/
def EventText.whole (e : EventText) (formatId : FormatId) : List UInt16 :=
  e.content formatId ++ if formatId = .keyword then [0] else []

/-- No access is a fault, an allocated buffer holds the whole text, and the caller's loop finds the
keywords in it. -/
def FormatsWhole (e : EventText) (malloc : Malloc) (formatId : FormatId) : Prop :=
  ∃ pBuffer, getMessageString e malloc formatId = .ok pBuffer ∧
    (malloc.succeeds = true → ∃ cells, pBuffer = some cells ∧ e.whole formatId <+: cells ∧
      (formatId = .keyword → walk (cells.length + 1) cells = some e.keywords))

/-! ## The loop over the keywords -/

section Walk

variable {k : List UInt16} {keywords : List (List UInt16)} {rest : List UInt16} {fuel : ℕ}

/-- `wcslen` of a string with anything behind its terminator. -/
theorem findIdx_zero (hk : 0 ∉ k) : (k ++ 0 :: rest).findIdx? (· == 0) = some k.length := by
  induction k with
  | nil => rfl
  | cons c k ih =>
    have hc : ¬ (c == 0) = true := by
      intro heq
      rw [beq_iff_eq.mp heq] at hk
      exact hk List.mem_cons_self
    rw [List.cons_append, List.findIdx?_cons, if_neg hc,
      ih fun hmem => hk (List.mem_cons_of_mem c hmem)]
    rfl

/-- One turn of the loop, at a string with anything behind its terminator. -/
theorem walk_cons (hk : 0 ∉ k) (c : UInt16) :
    walk (fuel + 1) (k ++ 0 :: c :: rest) =
      if c = 0 then some [k] else (walk fuel (c :: rest)).map (k :: ·) := by
  have hnext : (k ++ 0 :: c :: rest)[k.length + 1]? = some c := by
    rw [List.getElem?_append_right (by omega)]
    simp
  have hdrop : (k ++ 0 :: c :: rest).drop (k.length + 1) = c :: rest := by
    rw [List.drop_append, List.drop_of_length_le (by omega)]
    simp
  simp only [walk, findIdx_zero hk, Option.bind_eq_bind, Option.bind_some, hnext, List.take_left,
    hdrop]

/-- **The caller's loop** finds every list of keywords that has a second terminator. -/
theorem walk_eq (hne : keywords ≠ []) (hk : ∀ k ∈ keywords, k ≠ []) (hnul : ∀ k ∈ keywords, 0 ∉ k)
    (hfuel : keywords.length ≤ fuel) :
    walk fuel (terminated keywords ++ 0 :: rest) = some keywords := by
  induction keywords generalizing fuel with
  | nil => exact absurd rfl hne
  | cons k keywords ih =>
    have hhere : 0 ∉ k := hnul k List.mem_cons_self
    obtain ⟨fuel, rfl⟩ : ∃ n, fuel = n + 1 := by
      rw [List.length_cons] at hfuel
      exact ⟨fuel - 1, by omega⟩
    have hsplit : terminated (k :: keywords) ++ 0 :: rest
        = k ++ 0 :: (terminated keywords ++ 0 :: rest) := by
      unfold terminated
      rw [List.flatMap_cons, List.append_assoc, List.append_assoc]
      rfl
    rw [hsplit]
    match keywords with
    | [] =>
      show walk (fuel + 1) (k ++ 0 :: 0 :: rest) = some [k]
      rw [walk_cons hhere, if_pos rfl]
    | next :: keywords =>
      -- The character behind the terminator is the first of the next keyword.
      obtain ⟨c, cs, hnext⟩ := List.exists_cons_of_ne_nil (hk next (by simp))
      have hc : c ≠ 0 := by
        intro hzero
        exact hnul next (by simp) (by rw [hnext, hzero]; exact List.mem_cons_self)
      have hcells : terminated (next :: keywords) ++ 0 :: rest
          = c :: (cs ++ [0] ++ terminated keywords ++ 0 :: rest) := by
        unfold terminated
        rw [List.flatMap_cons, hnext]
        rfl
      have hlater : walk fuel (terminated (next :: keywords) ++ 0 :: rest)
          = some (next :: keywords) :=
        ih (by simp) (fun x hx => hk x (List.mem_cons_of_mem k hx))
          (fun x hx => hnul x (List.mem_cons_of_mem k hx))
          (by rw [List.length_cons] at hfuel; omega)
      rw [hcells] at hlater ⊢
      rw [walk_cons hhere, if_neg hc, hlater, Option.map_some]

end Walk

/-! ## The function -/

section Format

variable {e : EventText} {malloc : Malloc} {formatId : FormatId}

/-- There is always something to format, so the first call fails. -/
theorem length_content_pos (e : EventText) (formatId : FormatId) :
    0 < (e.content formatId).length := by
  unfold EventText.content
  by_cases hkeyword : formatId = .keyword
  · rw [if_pos hkeyword]
    obtain ⟨k, keywords, hkeywords⟩ := List.exists_cons_of_ne_nil e.keywords_ne
    rw [hkeywords, terminated, List.flatMap_cons, List.length_append, List.length_append]
    show 0 < k.length + 1 + _
    omega
  · rw [if_neg hkeyword, List.length_append]
    show 0 < _ + 1
    omega

theorem first_call (e : EventText) (formatId : FormatId) :
    evtFormatMessage (e.content formatId) 0 none =
      ⟨false, none, (e.content formatId).length⟩ :=
  if_neg (Nat.not_le.mpr (length_content_pos e formatId))

/-- For keywords, the first write goes through a null pointer. -/
theorem getMessageString_keyword (e : EventText) (malloc : Malloc) :
    getMessageString e malloc .keyword = .error .nullPointer := by
  unfold getMessageString
  rw [first_call]
  rfl

/-- A buffer as large as the text is filled with it. -/
theorem store_content {cells content : List UInt16} (h : cells.length = content.length) :
    store cells 0 content = content := by
  rw [store, List.take_zero, List.nil_append, Nat.zero_add,
    List.drop_of_length_le (Nat.le_of_eq h), List.append_nil]

/-- For the other formats the buffer is as large as the text. -/
theorem getMessageString_of_ne (h : formatId ≠ .keyword) :
    getMessageString e malloc formatId =
      .ok (if malloc.succeeds then some (e.content formatId) else none) := by
  unfold getMessageString
  rw [first_call]
  show (bufferSize formatId none 0 (e.content formatId).length >>= fun dwBufferSize =>
    fillBuffer e formatId dwBufferSize (malloc.cells dwBufferSize)) = _
  rw [bufferSize, if_neg h]
  show fillBuffer e formatId _ (malloc.cells (e.content formatId).length) = _
  unfold Malloc.cells
  by_cases hmalloc : malloc.succeeds
  · have hlen : ((List.range (e.content formatId).length).map malloc.garbage).length
        = (e.content formatId).length := by
      rw [List.length_map, List.length_range]
    rw [if_pos hmalloc, if_pos hmalloc, fillBuffer, if_neg h, evtFormatMessage,
      if_pos (Nat.le_refl _)]
    show Except.ok (some (store _ 0 (e.content formatId))) = _
    rw [store_content hlen]
  · rw [if_neg hmalloc, if_neg hmalloc]
    rfl

/-- **When the whole text is formatted.** -/
theorem formatsWhole_iff (e : EventText) (malloc : Malloc) (formatId : FormatId) :
    FormatsWhole e malloc formatId ↔ formatId ≠ .keyword := by
  unfold FormatsWhole
  by_cases h : formatId = .keyword
  · rw [h, getMessageString_keyword]
    refine iff_of_false ?_ fun hne => hne rfl
    rintro ⟨pBuffer, hfault, -⟩
    contradiction
  · refine iff_of_true ⟨_, getMessageString_of_ne h, fun hmalloc => ?_⟩ h
    refine ⟨e.content formatId, if_pos hmalloc, ?_, fun hkeyword => absurd hkeyword h⟩
    rw [EventText.whole, if_neg h, List.append_nil]

end Format

/-- An event with one keyword. -/
def audit : EventText where
  text _ := []
  keywords := [[65]]
  keywords_ne := by decide
  keyword_ne := by decide
  keyword_noNul := by decide

theorem not_formatsWhole_keyword : ¬ FormatsWhole audit ⟨true, fun _ => 0⟩ .keyword := by
  unfold FormatsWhole
  rw [getMessageString_keyword]
  rintro ⟨pBuffer, hfault, -⟩
  contradiction

end Win32Experiments.EventLog.TestA
