import Win32Experiments.WebSocketProto.TestMessage

/-!
# What is serialized is parsed

* `parsesTo_concat`: bytes that are serialized messages one behind the other are parsed to the
  messages merged in this order, and `ByteSizeLong` is what a message takes;
* `parsesTo_serialize_of_parsesTo`: whatever bytes were accepted, the message that they gave is
  serialized to bytes that give it again.
-/

namespace Win32Experiments.WebSocketProto

open Foundation

variable {Field : Type} {lib : Library Field} {m : TestMessage Field}

/-! ## One turn of the parser -/

section Turns

variable {msg : TestMessage Field} {field : Field} {rest : List UInt8}

/-- The tag of the string is one byte. -/
theorem varint_tag : varint (1 * 8 + 2) = [10] := varint_of_lt (by decide)

/-- A string behind its tag becomes the string of the message, if it is text. -/
theorem parseTurn_string (hlib : lib.Contract) {text : List UInt8} (hsize : text.length < maxSize)
    (htext : lib.verifyUTF8 text = true) :
    parseTurn lib ⟨msg, lib.writeStringMaybeAliased 1 text ++ rest⟩ =
      .ok ⟨msg.setSometext text, rest⟩ := by
  have hne : lib.writeStringMaybeAliased 1 text ++ rest ≠ [] := by
    rw [hlib.writeString, varint_tag]
    exact List.cons_ne_nil _ _
  rw [parseTurn, if_neg hne, hlib.writeString, List.append_assoc, List.append_assoc]
  simp only [hlib.readTag (1 * 8 + 2) _ (by decide), hlib.readString _ _ _ hsize, htext]
  rfl

/-- A field that is not of the message is kept. -/
theorem parseTurn_unknown (hlib : lib.Contract) :
    parseTurn lib ⟨msg, lib.serializeUnknownField field ++ rest⟩ =
      .ok ⟨{ msg with unknownFields := msg.unknownFields ++ [field] }, rest⟩ := by
  obtain ⟨tag, body, hbytes, htag, hstring, hgroup, hzero, hread⟩ := hlib.readUnknown field
  have hne : lib.serializeUnknownField field ++ rest ≠ [] := by
    rw [hbytes, List.append_assoc]
    exact List.append_ne_nil_of_left_ne_nil (varint_ne_nil tag) _
  rw [parseTurn, if_neg hne, hbytes, List.append_assoc]
  simp only [hlib.readTag tag _ htag, hread]
  rw [if_neg (by omega), if_neg (by omega)]

/-- The unknown fields of a message, one behind the other. -/
theorem reaches_unknownFields (hlib : lib.Contract) (fields : List Field) :
    Reaches (parseTurn lib) ⟨msg, fields.flatMap lib.serializeUnknownField ++ rest⟩
      ⟨{ msg with unknownFields := msg.unknownFields ++ fields }, rest⟩ := by
  induction fields generalizing msg with
  | nil =>
    rw [List.append_nil]
    exact .refl
  | cons field fields ih =>
    rw [List.flatMap_cons, List.append_assoc]
    refine .head (parseTurn_unknown hlib) ?_
    have hrest := @ih { msg with unknownFields := msg.unknownFields ++ [field] }
    rwa [List.append_assoc, List.singleton_append] at hrest

/-- A serialized message is merged into the message so far. -/
theorem reaches_serialize (hlib : lib.Contract) (hm : m.Valid lib) :
    Reaches (parseTurn lib) ⟨msg, m.serialize lib ++ rest⟩ ⟨msg.mergeFrom m, rest⟩ := by
  unfold TestMessage.serialize TestMessage.mergeFrom
  by_cases hempty : 0 < m.sometext.length
  · rw [if_pos hempty, if_pos hempty, List.append_assoc]
    have htext := hm.text (List.length_pos_iff.mp hempty)
    exact .head (parseTurn_string hlib hm.size htext) (reaches_unknownFields hlib _)
  · rw [if_neg hempty, if_neg hempty, List.nil_append]
    exact reaches_unknownFields hlib _

end Turns

/-! ## Serialized messages -/

/-- `ByteSizeLong` is the number of the bytes that `_InternalSerialize` writes. -/
theorem byteSizeLong_eq (hlib : lib.Contract) (m : TestMessage Field) :
    m.byteSizeLong lib = (m.serialize lib).length := by
  have hfields : (m.unknownFields.map fun field => (lib.serializeUnknownField field).length).sum =
      (m.unknownFields.flatMap lib.serializeUnknownField).length := by
    rw [List.length_flatMap]
  unfold TestMessage.byteSizeLong TestMessage.serialize
  rw [hfields, List.length_append]
  split
  · rw [hlib.stringSize, hlib.writeString, varint_tag]
    simp only [List.length_append, List.length_singleton]
  · rfl

/-- Messages one behind the other are merged in their order. -/
theorem reaches_concat (hlib : lib.Contract) {ms : List (TestMessage Field)}
    (hms : ∀ m ∈ ms, m.Valid lib) (msg : TestMessage Field) (rest : List UInt8) :
    Reaches (parseTurn lib) ⟨msg, ms.flatMap (·.serialize lib) ++ rest⟩
      ⟨ms.foldl TestMessage.mergeFrom msg, rest⟩ := by
  induction ms generalizing msg with
  | nil => exact .refl
  | cons m ms ih =>
    rw [List.forall_mem_cons] at hms
    rw [List.flatMap_cons, List.append_assoc, List.foldl_cons]
    exact (reaches_serialize hlib hms.1).trans (ih hms.2 _)

/-- **Merge.** The bytes of messages, one behind the other, are accepted as the messages merged in
this order; a message takes as many bytes as it says. -/
theorem parsesTo_concat (hlib : lib.Contract) (ms : List (TestMessage Field))
    (hms : ∀ m ∈ ms, m.Valid lib) :
    ParsesTo lib (ms.flatMap (·.serialize lib)) (ms.foldl TestMessage.mergeFrom .empty) .done ∧
    (ms.flatMap (·.serialize lib)).length = (ms.map (·.byteSizeLong lib)).sum := by
  constructor
  · have hreach := reaches_concat hlib hms .empty []
    rw [List.append_nil] at hreach
    refine (returns_of_reaches hreach).mpr (returns_of_error ?_)
    rw [parseTurn, if_pos rfl]
  · rw [List.length_flatMap]
    simp only [byteSizeLong_eq hlib]

/-- A text, then a field that is not of the message, then another text. -/
theorem parsesTo_concat_texts :
    ParsesTo wireFormat [10, 2, 104, 105, 16, 7, 10, 1, 33]
      ⟨[33], [⟨2, 7, by decide, by decide⟩]⟩ .done := by
  have htext : ∀ text : List UInt8, text.length < 4 → wireFormat.verifyUTF8 text = true →
      (⟨text, []⟩ : TestMessage NumberField).Valid wireFormat :=
    fun text hsize htext => ⟨fun _ => htext, lt_trans hsize (by decide)⟩
  have hparses := (parsesTo_concat wireFormat_contract
    [⟨[104, 105], []⟩, ⟨[], [⟨2, 7, by decide, by decide⟩]⟩, ⟨[33], []⟩] (by
      rw [List.forall_mem_cons, List.forall_mem_cons, List.forall_mem_singleton]
      exact ⟨htext _ (by decide) rfl, ⟨fun hne => absurd rfl hne, by decide⟩,
        htext _ (by decide) rfl⟩)).1
  have hbytes : ∀ n < 128, varint n = [UInt8.ofNat n] := fun _ => varint_of_lt
  simpa [TestMessage.serialize, wireFormat, hbytes, TestMessage.mergeFrom, TestMessage.empty]
    using hparses

/-- A message on its own is read back. -/
theorem parsesTo_serialize (hlib : lib.Contract) (hm : m.Valid lib) :
    ParsesTo lib (m.serialize lib) m .done := by
  have hreach := @reaches_serialize _ lib m TestMessage.empty [] hlib hm
  rw [List.append_nil] at hreach
  have hmerge : TestMessage.empty.mergeFrom m = m := by
    obtain ⟨text, fields⟩ := m
    unfold TestMessage.mergeFrom TestMessage.empty
    rw [List.nil_append]
    split
    · rfl
    · next hempty =>
      have hnil : text = [] := by
        by_contra hne
        exact hempty (List.length_pos_iff.mpr hne)
      rw [hnil]
  rw [hmerge] at hreach
  refine (returns_of_reaches hreach).mpr (returns_of_error ?_)
  rw [parseTurn, if_pos rfl]

/-! ## Accepted bytes -/

/-- What a turn that goes on has done: it has stored a string that is text, or kept a field. -/
theorem parseTurn_ok (hlib : lib.Contract) {p q : Parsing Field} (h : parseTurn lib p = .ok q) :
    q.bytes.length < p.bytes.length ∧
    ((∃ str, q.msg = p.msg.setSometext str ∧ lib.verifyUTF8 str = true ∧ str.length < maxSize) ∨
      q.msg.sometext = p.msg.sometext) := by
  rw [parseTurn] at h
  split at h
  · contradiction
  split at h
  · contradiction
  next tag bytes htag =>
    have hlt := hlib.readTag_lt _ _ _ htag
    split at h
    · generalize hstr : lib.inlineGreedyStringParser p.msg.sometext bytes = parsed at h
      obtain ⟨str, pointer⟩ := parsed
      simp only at h
      split at h
      · contradiction
      next hverify =>
        split at h
        · contradiction
        next rest =>
          obtain ⟨hsize, hle⟩ := hlib.readString_le _ _ _ _ hstr
          rw [← Except.ok.inj h]
          refine ⟨?_, Or.inl ⟨str, rfl, by simpa using hverify, hsize⟩⟩
          show rest.length < _
          omega
    · split at h
      · contradiction
      split at h
      · contradiction
      next field rest hfield =>
        have hle := hlib.readUnknown_le _ _ _ _ hfield
        rw [← Except.ok.inj h]
        refine ⟨?_, Or.inr rfl⟩
        show rest.length < _
        omega

/-- A message that is parsed can be sent. -/
theorem valid_parseTurn (hlib : lib.Contract) {p q : Parsing Field} (hp : p.msg.Valid lib)
    (h : parseTurn lib p = .ok q) : q.msg.Valid lib := by
  obtain ⟨-, ⟨str, hmsg, hverify, hsize⟩ | hsame⟩ := parseTurn_ok hlib h
  · rw [hmsg]
    exact ⟨fun _ => hverify, hsize⟩
  · exact ⟨hsame ▸ hp.text, hsame ▸ hp.size⟩

theorem valid_empty : (TestMessage.empty : TestMessage Field).Valid lib :=
  ⟨fun hne => absurd rfl hne, Nat.two_pow_pos 31⟩

/-- A parse that did not fail leaves the message of its last turn. -/
theorem msg_of_not_failure {p : Parsing Field} {e : ParseEnd}
    (h : parseTurn lib p = .error (m, e)) (he : e ≠ .failure) : m = p.msg := by
  rw [parseTurn] at h
  split at h
  · rw [Except.error.injEq, Prod.mk.injEq] at h
    exact h.1.symm
  split at h
  · rw [Except.error.injEq, Prod.mk.injEq] at h
    exact absurd h.2.symm he
  split at h
  · simp only at h
    split at h
    · rw [Except.error.injEq, Prod.mk.injEq] at h
      exact absurd h.2.symm he
    · split at h
      · rw [Except.error.injEq, Prod.mk.injEq] at h
        exact absurd h.2.symm he
      · contradiction
  · split at h
    · rw [Except.error.injEq, Prod.mk.injEq] at h
      exact h.1.symm
    · split at h
      · rw [Except.error.injEq, Prod.mk.injEq] at h
        exact absurd h.2.symm he
      · contradiction

/-- The parser comes to an end on all bytes. -/
theorem exists_parsesTo (hlib : lib.Contract) (bytes : List UInt8) :
    ∃ m e, ParsesTo lib bytes m e := by
  obtain ⟨t, ⟨m, e⟩, -, hreach, hleave⟩ := returns_of_measure (fun p => p.bytes.length)
    (fun p q (_ : True) h => ⟨trivial, (parseTurn_ok hlib h).1⟩)
    (trivial : (fun _ : Parsing Field => True) ⟨.empty, bytes⟩)
  exact ⟨m, e, returns_iff.mpr ⟨t, hreach, hleave⟩⟩

/-- **What is accepted can be sent on.** Every array is parsed to an end; and if that is not a
failure, the message serialized is accepted again as the same message. -/
theorem parsesTo_serialize_of_parsesTo (hlib : lib.Contract) (bytes : List UInt8) :
    ∃ m e, ParsesTo lib bytes m e ∧ (e ≠ .failure → ParsesTo lib (m.serialize lib) m .done) := by
  obtain ⟨m, e, h⟩ := exists_parsesTo hlib bytes
  refine ⟨m, e, h, fun he => ?_⟩
  obtain ⟨p, hreach, hleave⟩ := returns_iff.mp h
  have hturn : ∀ p q, p.msg.Valid lib → parseTurn lib p = .ok q → q.msg.Valid lib :=
    fun _ _ => valid_parseTurn hlib
  have hvalid : p.msg.Valid lib := hreach.invariant hturn valid_empty
  rw [msg_of_not_failure hleave he]
  exact parsesTo_serialize hlib hvalid

/-- The number 7 in two bytes is accepted, and sent on in one. -/
theorem parsesTo_serialize_of_parsesTo_long :
    ParsesTo wireFormat [16, 135, 0] ⟨[], [⟨2, 7, by decide, by decide⟩]⟩ .done ∧
    ParsesTo wireFormat [16, 7] ⟨[], [⟨2, 7, by decide, by decide⟩]⟩ .done := by
  have hlong : ParsesTo wireFormat [16, 135, 0] ⟨[], [⟨2, 7, by decide, by decide⟩]⟩ .done :=
    ⟨2, rfl⟩
  obtain ⟨m, e, hparses, hagain⟩ := parsesTo_serialize_of_parsesTo wireFormat_contract [16, 135, 0]
  obtain ⟨rfl, rfl⟩ := Prod.mk.inj (Returns.unique hparses hlong)
  have hbytes : ∀ n < 128, varint n = [UInt8.ofNat n] := fun _ => varint_of_lt
  have hshort := hagain (by decide)
  simp only [TestMessage.serialize, wireFormat, List.length_nil, lt_irrefl, if_false,
    List.flatMap_cons, List.flatMap_nil, hbytes 16 (by decide), hbytes 7 (by decide)] at hshort
  exact ⟨hlong, hshort⟩

end Win32Experiments.WebSocketProto
