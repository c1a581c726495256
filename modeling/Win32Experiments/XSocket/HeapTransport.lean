import Win32Experiments.Foundation.Run
import Win32Experiments.XSocket.List
import Win32Experiments.XSocket.TransportTheorems

/-!
# The transport on the ring of its list

`WriteData` and `ReadData` as they run on the pointers of `List`: each entry is allocated, linked
in, read through `Peek`, and unlinked and deleted when nothing is left of it. The assertions of
`Peek`, `RemoveHead` and `ReadData` are part of the functions.

* `Heap.writeData_spec`, `Heap.readLoop_spec`: the ring does what the list of chunks does;
* `represents_of_run`: in every run of calls that are allowed the ring stays well formed and is all
  that is allocated, no assertion fails, and the bytes written and delivered are those of the list
  model.
-/

namespace Win32Experiments.XSocket

open Foundation

namespace Heap

/-! ## Entries behind pointers -/

/-- `p->Attach(dataLength, data)`. -/
def attach (h : Heap) (p : Option ℕ) (dataLength : ℕ) (data : List UInt8) : Option Heap :=
  (h.deref p).map fun a =>
    { h with contents := Function.update h.contents a (some (.attach dataLength data)) }

/-- `p->CopyTo(…, dataLength, &copiedBytes)`: the bytes copied, their number and the heap. -/
def copyTo (h : Heap) (p : Option ℕ) (dataLength : ℕ) :
    Option (List (Option UInt8) × ℕ × Heap) := do
  let a ← p
  let entry ← h.contents a
  let (bytes, copiedBytes, entry) := entry.copyTo dataLength
  some (bytes, copiedBytes, { h with contents := Function.update h.contents a (some entry) })

/-- `p->DataLeft()`. -/
def dataLeft (h : Heap) (p : Option ℕ) : Option ℕ := do
  let a ← p
  let entry ← h.contents a
  some entry.dataLeft

/-- `Peek` with its assertion. -/
def assertPeek (this : ℕ) (h : Heap) : Option (Option ℕ) :=
  if h.isEmpty this then none else some (h.peek this)

/-- `RemoveHead` with its assertion. -/
def assertRemoveHead (this : ℕ) (h : Heap) : Option Heap :=
  if h.isEmpty this then none else h.removeHead this

/-! ## `Transport` -/

/-- `Transport::WriteData`; `entryAddress` is what `new` returns for the entry. -/
def writeData (this : ℕ) (h : Heap) (data : Option (List UInt8)) (entryAddress : Option ℕ)
    (bufferAllocated : Bool) : Option (HResult × Heap) :=
  match data with
  | none => some (.S_OK, h)
  | some data =>
    match entryAddress with
    | none => some (.E_OUTOFMEMORY, h)
    | some entry =>
      let h := h.newEntry entry ⟨0, 0, []⟩
      if !bufferAllocated then (h.delete (some entry)).map fun h => (.E_OUTOFMEMORY, h)
      else do
        let h ← h.attach (some entry) data.length data
        let h ← h.appendTail this entry
        some (.S_OK, h)

/-- The locals of the loop of `Transport::ReadData`, with the heap it works on. -/
structure ReadState where
  index : ℕ
  heap : Heap
  data : List (Option UInt8)

/-- One iteration of the loop of `Transport::ReadData`. -/
def readStep (this dataLength : ℕ) (r : ReadState) : Option ReadState := do
  let first ← r.heap.assertPeek this
  let (bytes, copiedBytes, heap) ← r.heap.copyTo first (dataLength - r.index)
  let left ← heap.dataLeft first
  let heap ← (if left = 0 then heap.assertRemoveHead this else some heap)
  some { index := r.index + copiedBytes, heap, data := r.data ++ bytes }

/-- The loop of `Transport::ReadData`, for at most `fuel` tests of its guard. -/
def readLoop (this dataLength : ℕ) : ℕ → ReadState → Option ReadState
  | 0, _ => none
  | fuel + 1, r =>
    if r.index < dataLength && !r.heap.isEmpty this then
      (readStep this dataLength r).bind (readLoop this dataLength fuel)
    else some r

/-- `Transport::ReadData` to a buffer, with its assertion: the bytes and the heap. -/
def readData (this fuel : ℕ) (h : Heap) (dataLength : ℕ) : Option ReadState :=
  (readLoop this dataLength fuel ⟨0, h, []⟩).bind fun r => if r.index = 0 then none else some r

end Heap

/-! ## Calls -/

/-- A call on the transport, with the address that the allocator returns for a new entry. -/
inductive HeapCall
  | writeData (data : List UInt8) (entryAddress : Option ℕ) (bufferAllocated : Bool)
  | readData (dataLength : ℕ)
deriving DecidableEq, Repr

/-- The call as the list model sees it. -/
def HeapCall.toCall : HeapCall → Call
  | .writeData data entryAddress bufferAllocated =>
    .writeData data entryAddress.isSome bufferAllocated
  | .readData dataLength => .readData dataLength

/-- A transport on a heap, with the bytes written and delivered. Every call of `WriteData` was
counted, which bounds the turns of a read. -/
structure HeapWorld where
  heap : Heap
  writes : ℕ
  written : List UInt8
  delivered : List (Option UInt8)
  reads : List ReadRecord

/-- A new transport, whose list has its head at `this`. -/
def HeapWorld.init (this : ℕ) : HeapWorld := ⟨.list this, 0, [], [], []⟩

/-- What a call does; `none` if it uses a pointer that is null or dangling, if an assertion fails,
or if it does not return. -/
def HeapWorld.step (this : ℕ) (w : HeapWorld) : HeapCall → Option HeapWorld
  | .writeData data entryAddress bufferAllocated =>
    (w.heap.writeData this (some data) entryAddress bufferAllocated).map fun (hr, heap) =>
      { w with
        heap
        writes := w.writes + 1
        written := if hr = .S_OK then w.written ++ data else w.written }
  | .readData dataLength =>
    (w.heap.readData this (dataLength + w.writes + 1) dataLength).map fun r =>
      { w with
        heap := r.heap
        delivered := w.delivered ++ r.data
        reads := w.reads ++
          [⟨dataLength, w.written.length - w.delivered.length, r.index⟩] }

/-- The calls that callers make, and what the allocator promises: a new entry is at an address
where nothing is allocated. -/
def HeapCall.Allowed (this : ℕ) (w : HeapWorld) : HeapCall → Prop
  | .writeData data entryAddress _ =>
    data ≠ [] ∧ data.length < 2 ^ 32 ∧ ∀ a ∈ entryAddress, w.heap.contents a = none
  | .readData dataLength => 0 < dataLength ∧ dataLength < 2 ^ 32 ∧ w.heap.isEmpty this = false

instance (this : ℕ) (w : HeapWorld) (c : HeapCall) : Decidable (c.Allowed this w) :=
  match c with
  | .writeData .. => inferInstanceAs (Decidable (_ ∧ _ ∧ _))
  | .readData _ => inferInstanceAs (Decidable (_ ∧ _ ∧ _))

/-- The heap of the transport is the ring of the queue, and nothing else is allocated. -/
structure Holds (this : ℕ) (h : Heap) (queue : Queue) : Prop where
  wellFormed : WellFormed this h queue
  owned : ∀ a, (h.contents a).isSome ↔ a ∈ this :: queue.map Prod.fst

/-- The transport on the heap and the one on the list of chunks agree. -/
structure Represents (this : ℕ) (w : HeapWorld) (v : World) : Prop where
  holds : ∃ queue, Holds this w.heap queue ∧ queue.map Prod.snd = v.list
  written : w.written = v.written
  delivered : w.delivered = v.delivered
  reads : w.reads = v.reads

namespace Heap

variable {this : ℕ} {h h' : Heap} {a : ℕ} {p q : Option ℕ} {entry : ListEntry} {queue : Queue}

/-! ## What is allocated -/

theorem contents_setForward (hset : h.setForward p q = some h') : h'.contents = h.contents := by
  obtain ⟨a, -, rfl⟩ := Option.map_eq_some_iff.mp hset
  rfl

theorem contents_setBackward (hset : h.setBackward p q = some h') : h'.contents = h.contents := by
  obtain ⟨a, -, rfl⟩ := Option.map_eq_some_iff.mp hset
  rfl

/-- Linking an entry in allocates nothing. -/
theorem contents_appendTail (happend : h.appendTail this a = some h') :
    h'.contents = h.contents := by
  simp only [appendTail, Option.bind_eq_bind, Option.bind_eq_some_iff] at happend
  obtain ⟨next, -, h₁, hfirst, h₂, hsecond, h₃, hthird, hlast⟩ := happend
  rw [contents_setBackward hlast, contents_setForward hthird, contents_setBackward hsecond,
    contents_setForward hfirst]

/-- Of the heap only the entry behind the head is given back. -/
theorem contents_removeHead (hforward : h.forward this = some a)
    (hremove : h.removeHead this = some h') :
    h'.contents = Function.update h.contents a none := by
  simp only [removeHead, Option.bind_eq_bind, Option.bind_eq_some_iff] at hremove
  obtain ⟨previous, -, next, -, h₁, hfirst, next', -, back, -, h₂, hsecond, hdelete⟩ := hremove
  obtain ⟨b, hderef, rfl⟩ := Option.map_eq_some_iff.mp hdelete
  rw [hforward, deref, Option.filter_eq_some_iff] at hderef
  show Function.update h₂.contents b none = _
  rw [contents_setBackward hsecond, contents_setForward hfirst, Option.some.inj hderef.1]

/-- The ring of the queue, and nothing else, is on the heap. -/
structure Kept (this : ℕ) (h : Heap) (queue : Queue) : Prop where
  inv : Inv this h queue
  owned : ∀ a, (h.contents a).isSome → a ∈ this :: queue.map Prod.fst

theorem kept_list : Kept this (list this) [] where
  inv := inv_list
  owned a ha := by
    have hcontents : (if a = this then some _ else none : Option ListEntry).isSome = true := ha
    by_cases heq : a = this
    · rw [heq]
      exact List.mem_cons_self
    · rw [if_neg heq] at hcontents
      contradiction

theorem Kept.holds (hkept : Kept this h queue) : Holds this h queue where
  wellFormed := hkept.inv.wellFormed
  owned a := ⟨hkept.owned a, hkept.inv.isSome⟩

theorem Kept.not_mem (hkept : Kept this h queue) (ha : h.contents a = none) :
    a ∉ this :: queue.map Prod.fst := by
  intro hmem
  have hsome := hkept.inv.isSome hmem
  rw [ha] at hsome
  contradiction

/-- A ring stays when nothing of it is written to. -/
theorem Inv.congr (hinv : Inv this h queue)
    (hforward : ∀ x ∈ this :: queue.map Prod.fst, h'.forward x = h.forward x)
    (hbackward : ∀ x ∈ this :: queue.map Prod.fst, h'.backward x = h.backward x)
    (hcontents : ∀ x ∈ this :: queue.map Prod.fst, h'.contents x = h.contents x) :
    Inv this h' queue where
  circle :=
    { nodup := hinv.circle.nodup
      joined := by
        apply Links.isChain_congr hinv.circle.joined
        · intro x hx
          rw [List.dropLast_concat] at hx
          exact hforward x hx
        · intro x hx
          rw [List.cons_append, List.tail_cons, List.mem_append, List.mem_singleton] at hx
          exact hbackward x (List.mem_cons.mpr hx.symm) }
  contents node hnode := by
    rw [hcontents node.1 (List.mem_cons_of_mem this (List.mem_map_of_mem hnode))]
    exact hinv.contents node hnode
  head := by
    rw [hcontents this List.mem_cons_self]
    exact hinv.head

/-! ## `WriteData` -/

/-- The entry whose buffer could not be allocated is given back. -/
theorem kept_delete (entry : ListEntry) (hkept : Kept this h queue) (ha : h.contents a = none) :
    ∃ h', (h.newEntry a entry).delete (some a) = some h' ∧ Kept this h' queue := by
  have hnew : ((h.newEntry a entry).contents a).isSome := by
    show (Function.update h.contents a (some entry) a).isSome
    rw [Function.update_self]
    rfl
  have hne : ∀ x ∈ this :: queue.map Prod.fst, x ≠ a :=
    fun x hx heq => hkept.not_mem ha (heq ▸ hx)
  have hcontents : Function.update (Function.update h.contents a (some entry)) a none
      = h.contents := by
    rw [Function.update_idem, ← ha, Function.update_eq_self]
  refine ⟨_, delete_of_isSome hnew, hkept.inv.congr ?_ ?_ ?_, ?_⟩
  · exact fun x hx => Function.update_of_ne (hne x hx) _ _
  · exact fun x hx => Function.update_of_ne (hne x hx) _ _
  · exact fun x _ => congrFun hcontents x
  · intro x hx
    have hx' : (Function.update (Function.update h.contents a (some entry)) a none x).isSome := hx
    rw [hcontents] at hx'
    exact hkept.owned x hx'

/-- The entry that got its buffer is the last of the queue. -/
theorem kept_appendTail (entry : ListEntry) (hkept : Kept this h queue) (ha : h.contents a = none) :
    ∃ h', (h.newEntry a entry).appendTail this a = some h' ∧
      Kept this h' (queue ++ [(a, entry)]) := by
  have hout := hkept.not_mem ha
  rw [List.mem_cons, not_or] at hout
  obtain ⟨h', happend, hinv⟩ := appendTail_spec hkept.inv hout.1 hout.2
  refine ⟨h', happend, hinv, ?_⟩
  intro x hx
  rw [contents_appendTail happend] at hx
  have hx' : (Function.update h.contents a (some entry) x).isSome := hx
  rw [List.map_append, List.map_singleton, ← List.cons_append, List.mem_append,
    List.mem_singleton]
  by_cases heq : x = a
  · exact Or.inr heq
  · rw [Function.update_of_ne heq] at hx'
    exact Or.inl (hkept.owned x hx')

/-- What is attached is attached to the new entry. -/
theorem attach_newEntry {data : List UInt8} {dataLength : ℕ} :
    (h.newEntry a entry).attach (some a) dataLength data =
      some (h.newEntry a (.attach dataLength data)) := by
  have hnew : ((h.newEntry a entry).contents a).isSome := by
    show (Function.update h.contents a (some entry) a).isSome
    rw [Function.update_self]
    rfl
  rw [attach, deref_of_isSome hnew, Option.map_some, newEntry]
  simp only [Function.update_idem]
  rfl

/-- **`WriteData` on the ring** does what it does on the list of chunks. -/
theorem writeData_spec (data : List UInt8) {entryAddress : Option ℕ} (bufferAllocated : Bool)
    (hkept : Kept this h queue) (hfresh : ∀ a ∈ entryAddress, h.contents a = none) :
    ∃ h' queue', h.writeData this (some data) entryAddress bufferAllocated =
        some ((XSocket.writeData (queue.map Prod.snd) (some data) entryAddress.isSome
          bufferAllocated).1, h') ∧
      Kept this h' queue' ∧
      queue'.map Prod.snd = (XSocket.writeData (queue.map Prod.snd) (some data)
        entryAddress.isSome bufferAllocated).2 := by
  match entryAddress, bufferAllocated with
  | none, _ => exact ⟨h, queue, rfl, hkept, rfl⟩
  | some a, false =>
    obtain ⟨h', hdelete, hkept'⟩ := kept_delete ⟨0, 0, []⟩ hkept (hfresh a rfl)
    refine ⟨h', queue, ?_, hkept', rfl⟩
    show ((h.newEntry a ⟨0, 0, []⟩).delete (some a)).map _ = _
    rw [hdelete]
    rfl
  | some a, true =>
    obtain ⟨h', happend, hkept'⟩ :=
      kept_appendTail (.attach data.length data) hkept (hfresh a rfl)
    refine ⟨h', queue ++ [(a, .attach data.length data)], ?_, hkept', ?_⟩
    · show ((h.newEntry a ⟨0, 0, []⟩).attach (some a) data.length data).bind (fun h =>
        (h.appendTail this a).bind fun h => some (HResult.S_OK, h)) = _
      rw [attach_newEntry, Option.bind_some, happend]
      rfl
    · rw [List.map_append]
      rfl

/-! ## `ReadData` -/

/-- The reads agree on the bytes copied and on what is left. -/
structure Matches (this : ℕ) (r : ReadState) (l : XSocket.ReadState) : Prop where
  index : r.index = l.index
  data : r.data = l.data
  queue : ∃ queue, Kept this r.heap queue ∧ queue.map Prod.snd = l.list

/-- The list is empty exactly if its queue is. -/
theorem Kept.isEmpty_iff (hkept : Kept this h queue) : h.isEmpty this = true ↔ queue = [] :=
  hkept.inv.wellFormed.isEmpty

theorem Kept.isEmpty_cons {first : ℕ × ListEntry} (hkept : Kept this h (first :: queue)) :
    h.isEmpty this = false := by
  rw [← Bool.not_eq_true, hkept.isEmpty_iff]
  exact List.cons_ne_nil first queue

/-- An entry of the ring that is written to stays in its place. -/
theorem Kept.update_head {first : ℕ × ListEntry} (hkept : Kept this h (first :: queue)) :
    Kept this { h with contents := Function.update h.contents first.1 (some entry) }
      ((first.1, entry) :: queue) where
  inv :=
    { circle := hkept.inv.circle
      contents := by
        intro node hnode
        rcases List.mem_cons.mp hnode with rfl | hmem
        · exact Function.update_self _ _ _
        · have hnodup := hkept.inv.circle.nodup
          rw [List.map_cons, List.nodup_cons, List.nodup_cons] at hnodup
          have hne : node.1 ≠ first.1 :=
            fun heq => hnodup.2.1 (heq ▸ List.mem_map_of_mem hmem)
          rw [← hkept.inv.contents node (List.mem_cons_of_mem first hmem)]
          exact Function.update_of_ne hne _ _
      head := by
        have hnodup := hkept.inv.circle.nodup
        rw [List.map_cons, List.nodup_cons] at hnodup
        have hne : this ≠ first.1 := fun heq => hnodup.1 (heq ▸ List.mem_cons_self)
        show (Function.update h.contents first.1 (some entry) this).isSome
        rw [Function.update_of_ne hne]
        exact hkept.inv.head }
  owned x hx := by
    by_cases heq : x = first.1
    · rw [heq]
      exact List.mem_cons_of_mem this List.mem_cons_self
    · have hx' : (Function.update h.contents first.1 (some entry) x).isSome := hx
      rw [Function.update_of_ne heq] at hx'
      exact hkept.owned x hx'

/-- The head of a queue is taken out and given back. -/
theorem kept_removeHead {first : ℕ × ListEntry} (hkept : Kept this h (first :: queue)) :
    ∃ h', h.assertRemoveHead this = some h' ∧ Kept this h' queue := by
  obtain ⟨h', hremove, hinv⟩ := removeHead_spec hkept.inv
  have hforward : h.forward this = some first.1 := by
    have hcircle := hkept.inv.circle
    rw [List.map_cons] at hcircle
    exact hcircle.forward_head
  have hremove' : h.removeHead this = some h' := hremove
  refine ⟨h', ?_, hinv, ?_⟩
  · rw [assertRemoveHead, hkept.isEmpty_cons]
    exact hremove'
  · intro x hx
    rw [contents_removeHead hforward hremove'] at hx
    have hne : x ≠ first.1 := by
      intro heq
      rw [heq, Function.update_self] at hx
      contradiction
    rw [Function.update_of_ne hne] at hx
    have hmem := hkept.owned x hx
    rw [List.map_cons, List.mem_cons, List.mem_cons] at hmem
    rcases hmem with hthis | hfirst | hrest
    · rw [hthis]
      exact List.mem_cons_self
    · exact absurd hfirst hne
    · exact List.mem_cons_of_mem this hrest

/-- An iteration on the list, by what the copy leaves of the chunk. -/
theorem readStep_of_copyTo {dataLength copiedBytes : ℕ} {l : XSocket.ReadState}
    {first : ListEntry} {rest : List ListEntry} {bytes : List (Option UInt8)}
    (hcopied : first.copyTo (dataLength - l.index) = (bytes, copiedBytes, entry)) :
    XSocket.readStep dataLength l first rest =
      { index := l.index + copiedBytes
        list := if entry.dataLeft = 0 then rest else entry :: rest
        data := l.data ++ bytes } := by
  rw [XSocket.readStep, hcopied]

/-- `CopyTo` through a pointer writes the cursor back. -/
theorem copyTo_eq {dataLength copiedBytes : ℕ} {chunk : ListEntry} {bytes : List (Option UInt8)}
    (hcontents : h.contents a = some chunk)
    (hcopied : chunk.copyTo dataLength = (bytes, copiedBytes, entry)) :
    h.copyTo (some a) dataLength = some (bytes, copiedBytes,
      { h with contents := Function.update h.contents a (some entry) }) := by
  simp only [copyTo, Option.bind_eq_bind, Option.bind_some, hcontents]
  rw [hcopied]

/-- One iteration, with the same chunk at the head. -/
theorem readStep_spec (dataLength : ℕ) {r : ReadState} {l : XSocket.ReadState}
    {first : ListEntry} {rest : List ListEntry} (hmatch : Matches this r l)
    (hlist : l.list = first :: rest) :
    ∃ r', readStep this dataLength r = some r' ∧
      Matches this r' (XSocket.readStep dataLength l first rest) := by
  obtain ⟨hindex, hdata, queue, hkept, hqueue⟩ := hmatch
  rw [hlist, List.map_eq_cons_iff] at hqueue
  obtain ⟨node, queue, rfl, rfl, rfl⟩ := hqueue
  have hcircle := hkept.inv.circle
  rw [List.map_cons] at hcircle
  have hforward : r.heap.forward this = some node.1 := hcircle.forward_head
  have hcontents := hkept.inv.contents node List.mem_cons_self
  -- What the copy leaves of the chunk.
  obtain ⟨⟨bytes, copiedBytes, entry⟩, hcopied⟩ :
    ∃ copied, node.2.copyTo (dataLength - l.index) = copied := ⟨_, rfl⟩
  let heap : Heap :=
    { r.heap with contents := Function.update r.heap.contents node.1 (some entry) }
  have hkeptCopy : Kept this heap ((node.1, entry) :: queue) := hkept.update_head
  have hpeek : r.heap.assertPeek this = some (some node.1) := by
    rw [assertPeek, hkept.isEmpty_cons, peek, hforward]
    rfl
  have hcopy : r.heap.copyTo (some node.1) (dataLength - r.index) =
      some (bytes, copiedBytes, heap) := by
    rw [hindex]
    exact copyTo_eq hcontents hcopied
  have hleft : heap.dataLeft (some node.1) = some entry.dataLeft := by
    rw [dataLeft, Option.bind_eq_bind, Option.bind_some,
      hkeptCopy.inv.contents (node.1, entry) List.mem_cons_self]
    rfl
  rw [readStep_of_copyTo hcopied, readStep, hpeek, Option.bind_eq_bind, Option.bind_some, hcopy,
    Option.bind_eq_bind, Option.bind_some]
  show ∃ r', ((heap.dataLeft (some node.1)).bind fun left =>
      (if left = 0 then heap.assertRemoveHead this else some heap).bind fun heap =>
        some (ReadState.mk (r.index + copiedBytes) heap (r.data ++ bytes))) = some r' ∧ _
  rw [hleft, Option.bind_some, hindex, hdata]
  by_cases hdone : entry.dataLeft = 0
  · obtain ⟨h', hremove, hkept'⟩ := kept_removeHead hkeptCopy
    rw [if_pos hdone, if_pos hdone, hremove]
    exact ⟨_, rfl, rfl, rfl, queue, hkept', rfl⟩
  · rw [if_neg hdone, if_neg hdone]
    exact ⟨_, rfl, rfl, rfl, _, hkeptCopy, rfl⟩

/-- The loop on the ring ends as the loop on the list of chunks does. -/
theorem readLoop_spec {dataLength fuel : ℕ} {r : ReadState} {l l' : XSocket.ReadState}
    (hmatch : Matches this r l) (hloop : XSocket.readLoop dataLength fuel l = some l') :
    ∃ r', readLoop this dataLength fuel r = some r' ∧ Matches this r' l' := by
  induction fuel generalizing r l with
  | zero => exact absurd hloop (by simp [XSocket.readLoop])
  | succ fuel ih =>
    obtain ⟨queue, hkept, hqueue⟩ := hmatch.queue
    rw [XSocket.readLoop] at hloop
    split at hloop
    · next hlist =>
      rw [← Option.some.inj hloop]
      rw [hlist, List.map_eq_nil_iff] at hqueue
      rw [readLoop, hkept.isEmpty_iff.mpr hqueue, Bool.not_true, Bool.and_false]
      exact ⟨r, rfl, hmatch⟩
    · next first rest hlist =>
      have hnonempty : r.heap.isEmpty this = false := by
        rw [← Bool.not_eq_true, hkept.isEmpty_iff]
        intro hnil
        rw [hnil, hlist] at hqueue
        contradiction
      rw [readLoop, hnonempty, Bool.not_false, Bool.and_true, hmatch.index]
      split at hloop
      · next hlt =>
        rw [if_pos (decide_eq_true hlt)]
        obtain ⟨r₁, hstep, hmatch₁⟩ := readStep_spec dataLength hmatch hlist
        rw [hstep, Option.bind_some]
        exact ih hmatch₁ hloop
      · next hge =>
        rw [← Option.some.inj hloop, if_neg (by simpa using hge)]
        exact ⟨r, rfl, hmatch⟩

end Heap

/-! ## Reads of chunks that are not empty -/

section Reads

variable {list : List ListEntry} {dataLength fuel fuel' : ℕ} {r r' : ReadState}

/-- The chunks that `WriteData` makes of the bytes it is given. -/
def Chunks (list : List ListEntry) : Prop := ∀ entry ∈ list, 0 < entry.size ∧ entry.size < 2 ^ 32

theorem Chunks.noStall (h : Chunks list) : NoStall list := by
  intro entry hmem
  have hentry := h entry hmem
  exact ⟨hentry.2, by omega⟩

theorem Chunks.readStep {first : ListEntry} {rest : List ListEntry} (h : Chunks r.list)
    (hlist : r.list = first :: rest) : Chunks (readStep dataLength r first rest).list := by
  rw [hlist] at h
  have hrest : Chunks rest := fun entry hmem => h entry (List.mem_cons_of_mem first hmem)
  unfold XSocket.readStep
  simp only
  split
  · exact hrest
  · intro entry hmem
    rcases List.mem_cons.mp hmem with rfl | hmem
    · exact h first List.mem_cons_self
    · exact hrest entry hmem

/-- More turns change nothing about what a loop that ended returns. -/
theorem readLoop_of_le (h : readLoop dataLength fuel r = some r') (hle : fuel ≤ fuel') :
    readLoop dataLength fuel' r = some r' := by
  induction fuel generalizing r fuel' with
  | zero => exact absurd h (by simp [readLoop])
  | succ fuel ih =>
    obtain ⟨fuel', rfl⟩ : ∃ k, fuel' = k + 1 := ⟨fuel' - 1, by omega⟩
    rw [readLoop] at h ⊢
    split at h
    · exact h
    · split at h
      · next hlt =>
        rw [if_pos hlt]
        exact ih h (by omega)
      · next hge =>
        rw [if_neg hge]
        exact h

/-- A read of a byte or more takes one, when there is a chunk: its assertion holds. -/
theorem readLoop_index_pos {first : ListEntry} {rest : List ListEntry}
    (hlist : r.list = first :: rest) (hsize : 0 < first.size) (hlt : r.index < dataLength)
    (h : readLoop dataLength fuel r = some r') : 0 < r'.index := by
  match fuel with
  | 0 => exact absurd h (by simp [readLoop])
  | fuel + 1 =>
    rw [readLoop] at h
    split at h
    · next hnil =>
      rw [hnil] at hlist
      contradiction
    · next first' rest' hcons =>
      rw [hlist] at hcons
      obtain ⟨rfl, rfl⟩ := List.cons.inj hcons
      rw [if_pos hlt] at h
      refine readLoop_invariant (fun r => 0 < r.index) ?_ ?_ h
      · intro r first rest hpos _
        exact Nat.add_pos_left hpos _
      · show 0 < r.index + min (dataLength - r.index) first.size
        omega

/-- A read leaves no more chunks than there were. -/
theorem readLoop_length_le (h : readLoop dataLength fuel r = some r') :
    r'.list.length ≤ r.list.length := by
  refine readLoop_invariant (fun r' => r'.list.length ≤ r.list.length) ?_ le_rfl h
  intro r' first rest hle hlist
  rw [hlist, List.length_cons] at hle
  unfold XSocket.readStep
  simp only
  split
  · omega
  · rw [List.length_cons]
    exact hle

theorem Chunks.readLoop (h : Chunks r.list) (hloop : readLoop dataLength fuel r = some r') :
    Chunks r'.list :=
  readLoop_invariant (fun r => Chunks r.list) (fun _ _ _ h hlist => h.readStep hlist) h hloop

end Reads

/-! ## Runs -/

section Runs

variable {this : ℕ} {w : HeapWorld} {v : World} {call : HeapCall}

/-- What holds between the calls of the two transports. -/
structure Simulates (this : ℕ) (w : HeapWorld) (v : World) : Prop where
  kept : ∃ queue, Heap.Kept this w.heap queue ∧ queue.map Prod.snd = v.list
  chunks : Chunks v.list
  bounded : v.list.length ≤ w.writes
  written : w.written = v.written
  delivered : w.delivered = v.delivered
  reads : w.reads = v.reads

theorem simulates_init : Simulates this (.init this) .init where
  kept := ⟨[], Heap.kept_list, rfl⟩
  chunks := fun _ hmem => absurd hmem List.not_mem_nil
  bounded := le_rfl
  written := rfl
  delivered := rfl
  reads := rfl

theorem Simulates.represents (h : Simulates this w v) : Represents this w v where
  holds := by
    obtain ⟨queue, hkept, hqueue⟩ := h.kept
    exact ⟨queue, hkept.holds, hqueue⟩
  written := h.written
  delivered := h.delivered
  reads := h.reads

/-- A write puts a chunk behind the others, or leaves them as they were. -/
theorem simulates_writeData {data : List UInt8} {entryAddress : Option ℕ} {bufferAllocated : Bool}
    (h : Simulates this w v)
    (hallowed : (HeapCall.writeData data entryAddress bufferAllocated).Allowed this w) :
    ∃ w' v', w.step this (.writeData data entryAddress bufferAllocated) = some w' ∧
      v.step (HeapCall.writeData data entryAddress bufferAllocated).toCall = some v' ∧
      Simulates this w' v' := by
  obtain ⟨queue, hkept, hqueue⟩ := h.kept
  obtain ⟨hne, hlt, hfresh⟩ := hallowed
  obtain ⟨heap, queue', hwrite, hkept', hqueue'⟩ :=
    Heap.writeData_spec data bufferAllocated hkept hfresh
  have hcases := writeData_cases v.list data entryAddress.isSome bufferAllocated
  obtain ⟨⟨hr, list⟩, hlist⟩ :
    ∃ c, writeData v.list (some data) entryAddress.isSome bufferAllocated = c := ⟨_, rfl⟩
  rw [hqueue, hlist] at hwrite hqueue'
  rw [hlist] at hcases
  have hstep : w.step this (.writeData data entryAddress bufferAllocated) =
      some { w with
        heap
        writes := w.writes + 1
        written := if hr = .S_OK then w.written ++ data else w.written } := by
    rw [HeapWorld.step, hwrite]
    rfl
  have hcall : v.call (.writeData data entryAddress.isSome bufferAllocated) =
      some { v with
        list
        written := if hr = .S_OK then v.written ++ data else v.written } := by
    rw [World.call, hlist]
  refine ⟨_, _, hstep, step_eq_some.mpr ⟨⟨hne, hlt⟩, hcall⟩, ⟨queue', hkept', hqueue'⟩, ?_, ?_, ?_,
    h.delivered, h.reads⟩
  · rcases hcases with hcase | hcase
    · rw [(Prod.mk.inj hcase).2]
      exact h.chunks
    · intro entry hmem
      rw [(Prod.mk.inj hcase).2] at hmem
      rcases List.mem_append.mp hmem with hold | hnew
      · exact h.chunks entry hold
      · rw [List.mem_singleton.mp hnew]
        exact ⟨List.length_pos_iff.mpr hne, hlt⟩
  · have hbounded := h.bounded
    rcases hcases with hcase | hcase
    · rw [(Prod.mk.inj hcase).2]
      exact Nat.le_succ_of_le hbounded
    · rw [(Prod.mk.inj hcase).2]
      show (v.list ++ [_]).length ≤ w.writes + 1
      rw [List.length_append, List.length_singleton]
      omega
  · rw [h.written]

/-- A read takes the same bytes from the ring as from the list of chunks. -/
theorem simulates_readData {dataLength : ℕ} (h : Simulates this w v)
    (hallowed : (HeapCall.readData dataLength).Allowed this w) :
    ∃ w' v', w.step this (.readData dataLength) = some w' ∧
      v.step (HeapCall.readData dataLength).toCall = some v' ∧ Simulates this w' v' := by
  obtain ⟨queue, hkept, hqueue⟩ := h.kept
  obtain ⟨hpos, hlt, hnonempty⟩ := hallowed
  obtain ⟨first, rest, hlist⟩ : ∃ first rest, v.list = first :: rest := by
    apply List.exists_cons_of_ne_nil
    intro hnil
    rw [hnil, List.map_eq_nil_iff] at hqueue
    rw [hkept.isEmpty_iff.mpr hqueue] at hnonempty
    contradiction
  obtain ⟨l, hl⟩ : ∃ l, readLoop dataLength (dataLength - 0 + v.list.length + 1)
      ⟨0, v.list, []⟩ = some l :=
    Option.isSome_iff_exists.mp (readLoop_isSome h.chunks.noStall (Nat.lt_succ_self _))
  have hbounded := h.bounded
  have hmore : readLoop dataLength (dataLength + w.writes + 1) ⟨0, v.list, []⟩ = some l :=
    readLoop_of_le hl (by omega)
  have hstart : Heap.Matches this ⟨0, w.heap, []⟩ ⟨0, v.list, []⟩ :=
    ⟨rfl, rfl, queue, hkept, hqueue⟩
  obtain ⟨r, hr, hmatch⟩ := Heap.readLoop_spec hstart hmore
  have hindex : 0 < l.index := by
    have hfirst := (h.chunks first (hlist ▸ List.mem_cons_self)).1
    exact readLoop_index_pos hlist hfirst hpos hl
  have hheap : w.heap.readData this (dataLength + w.writes + 1) dataLength = some r := by
    rw [Heap.readData, hr, Option.bind_some, if_neg]
    rw [hmatch.index]
    omega
  have hread : readData v.list dataLength false = some ⟨.S_OK, l.index, l.data, l.list⟩ := by
    have hl' : readLoop dataLength (dataLength + v.list.length + 1) ⟨0, v.list, []⟩ = some l := hl
    rw [readData, if_neg Bool.false_ne_true, hl']
    rfl
  have hstep : w.step this (.readData dataLength) =
      some { w with
        heap := r.heap
        delivered := w.delivered ++ r.data
        reads := w.reads ++ [⟨dataLength, w.written.length - w.delivered.length, r.index⟩] } := by
    rw [HeapWorld.step, hheap]
    rfl
  have hcall : v.call (.readData dataLength) =
      some { v with
        list := l.list
        delivered := v.delivered ++ l.data
        reads := v.reads ++ [⟨dataLength, v.written.length - v.delivered.length, l.index⟩] } := by
    rw [World.call, hread]
    rfl
  have hne : v.list ≠ [] := by
    rw [hlist]
    exact List.cons_ne_nil first rest
  refine ⟨_, _, hstep, step_eq_some.mpr ⟨⟨hpos, hlt, hne⟩, hcall⟩, hmatch.queue, ?_, ?_, h.written,
    ?_, ?_⟩
  · exact Chunks.readLoop (r := ⟨0, v.list, []⟩) h.chunks hl
  · exact (readLoop_length_le hl).trans hbounded
  · show w.delivered ++ r.data = v.delivered ++ l.data
    rw [h.delivered, hmatch.data]
  · show w.reads ++ [_] = v.reads ++ [_]
    rw [h.reads, h.written, h.delivered, hmatch.index]

/-- The assertion of `ReadData` fails for a read of nothing, and for one from an empty list. -/
theorem isSome_readData_iff {dataLength : ℕ} (h : Simulates this w v) (hlt : dataLength < 2 ^ 32) :
    (w.step this (.readData dataLength)).isSome ↔
      0 < dataLength ∧ w.heap.isEmpty this = false := by
  constructor
  · intro hsome
    by_contra hnothing
    -- the guard of the loop fails at once, and no byte was copied
    have hguard : ¬(decide (0 < dataLength) && !w.heap.isEmpty this) = true := by
      rw [Bool.and_eq_true, decide_eq_true_eq, Bool.not_eq_true']
      exact hnothing
    have hnone : w.heap.readData this (dataLength + w.writes + 1) dataLength = none := by
      rw [Heap.readData, Heap.readLoop, if_neg hguard]
      rfl
    rw [HeapWorld.step, hnone] at hsome
    contradiction
  · rintro ⟨hpos, hnonempty⟩
    obtain ⟨w', -, hstep, -⟩ := simulates_readData h ⟨hpos, hlt, hnonempty⟩
    rw [hstep]
    rfl

theorem simulates_step (h : Simulates this w v) (hallowed : call.Allowed this w) :
    ∃ w' v', w.step this call = some w' ∧ v.step call.toCall = some v' ∧ Simulates this w' v' := by
  match call with
  | .writeData data entryAddress bufferAllocated => exact simulates_writeData h hallowed
  | .readData dataLength => exact simulates_readData h hallowed

/-- **The ring implements the transport.** However writes that are not empty and reads of something
that is there follow each other, and at whatever free addresses entries are allocated, no pointer
that is null or dangling is used, no assertion fails, and every call returns. The ring stays well
formed and is all that is allocated; the results are those of the transport on a list, which is a
byte stream while the reads stay in their chunk. The assertion of a read fails exactly if it asks
for nothing or finds the list empty. -/
theorem represents_of_run (this : ℕ) (calls : List HeapCall)
    (hallowed : EachStep (HeapWorld.step this) (HeapCall.Allowed this) (.init this) calls) :
    ∃ w v, run (HeapWorld.step this) (.init this) calls = some w ∧
      run World.step .init (calls.map HeapCall.toCall) = some v ∧ Represents this w v ∧
      (EachStep World.step StaysInChunk .init (calls.map HeapCall.toCall) → FifoStream v) ∧
      ∀ dataLength < 2 ^ 32, (w.step this (.readData dataLength)).isSome ↔
        0 < dataLength ∧ w.heap.isEmpty this = false := by
  obtain ⟨w, v, hw, hv, hsim⟩ := run_simulation HeapCall.toCall
    (fun w v call hsim hallowed => simulates_step hsim hallowed) hallowed simulates_init
  refine ⟨w, v, hw, hv, hsim.represents, ?_, fun _ => isSome_readData_iff hsim⟩
  intro hstay
  have hordered := run_invariant_of World.Ordered
    (fun w c w' hw hstay hstep => ordered_step hw hstay hstep) hstay hv ordered_init
  exact hordered.fifo

/-- An entry is allocated where one was freed, and an allocation fails in between. -/
theorem represents_of_run_reused : ∃ w v,
    run (HeapWorld.step 100) (.init 100)
      [.writeData [1, 2] (some 7) true, .readData 2, .writeData [3] (some 7) false,
        .writeData [4, 5, 6] (some 7) true, .readData 1] = some w ∧
    run World.step .init
      [.writeData [1, 2] true true, .readData 2, .writeData [3] true false,
        .writeData [4, 5, 6] true true, .readData 1] = some v ∧ Represents 100 w v ∧
    FifoStream v ∧ w.step 100 (.readData 0) = none := by
  obtain ⟨w, v, hw, hv, hrepresents, hfifo, hread⟩ := represents_of_run 100
    [.writeData [1, 2] (some 7) true, .readData 2, .writeData [3] (some 7) false,
      .writeData [4, 5, 6] (some 7) true, .readData 1] (by decide)
  refine ⟨w, v, hw, hv, hrepresents, hfifo (by decide), ?_⟩
  rw [← Option.not_isSome_iff_eq_none, hread 0 (by decide)]
  exact fun hpos => Nat.lt_irrefl 0 hpos.1

end Runs

end Win32Experiments.XSocket
