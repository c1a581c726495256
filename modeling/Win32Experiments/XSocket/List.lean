import Mathlib.Logic.Function.Basic
import Win32Experiments.Foundation.Circle
import Win32Experiments.Foundation.Run
import Win32Experiments.XSocket.Transport

/-!
# `List` of the XSocket sample

The ring of list entries behind the queue that the transport works on. The heap tells for each
address what the entry there points at and holds; `this` is the address of the head, which is a
member of the list object.

* `Heap.appendTail_spec`, `Heap.removeHead_spec`: what the two operations do to a ring;
* `Heap.run_spec`: the heap keeps up with the queue, in every run.
-/

namespace Win32Experiments.XSocket

open Foundation

/-- The fields of the entries by their addresses. Nothing is allocated where `contents` is
`none`. -/
structure Heap extends Links ℕ where
  contents : ℕ → Option ListEntry

namespace Heap

/-- The address that a pointer can be used for: it is not null, and there is an entry. -/
def deref (h : Heap) (p : Option ℕ) : Option ℕ := p.filter fun a => (h.contents a).isSome

/-- `p->forward`. -/
def getForward (h : Heap) (p : Option ℕ) : Option (Option ℕ) := (h.deref p).map h.forward

/-- `p->backward`. -/
def getBackward (h : Heap) (p : Option ℕ) : Option (Option ℕ) := (h.deref p).map h.backward

/-- `p->forward = q`. -/
def setForward (h : Heap) (p q : Option ℕ) : Option Heap :=
  (h.deref p).map fun a => { h with forward := Function.update h.forward a q }

/-- `p->backward = q`. -/
def setBackward (h : Heap) (p q : Option ℕ) : Option Heap :=
  (h.deref p).map fun a => { h with backward := Function.update h.backward a q }

/-- `new ListEntry`, at an address that the allocator returns, with the data attached to it. -/
def newEntry (h : Heap) (address : ℕ) (entry : ListEntry) : Heap :=
  { forward := Function.update h.forward address none
    backward := Function.update h.backward address none
    contents := Function.update h.contents address (some entry) }

/-- `delete p`. -/
def delete (h : Heap) (p : Option ℕ) : Option Heap :=
  (h.deref p).map fun a => { h with contents := Function.update h.contents a none }

/-! ## The operations -/

/-- The constructor of `List`. -/
def list (this : ℕ) : Heap :=
  { forward := fun _ => some this
    backward := fun _ => some this
    contents := fun a => if a = this then some ⟨0, 0, []⟩ else none }

/-- `Peek`. -/
def peek (this : ℕ) (h : Heap) : Option ℕ := h.forward this

/-- `RemoveHead`. -/
def removeHead (this : ℕ) (h : Heap) : Option Heap := do
  let first := h.forward this
  let previous ← h.getBackward first
  let next ← h.getForward first
  let h ← h.setForward previous next
  let next ← h.getForward first
  let back ← h.getBackward first
  let h ← h.setBackward next back
  h.delete first

/-- `AppendTail`. -/
def appendTail (this entry : ℕ) (h : Heap) : Option Heap := do
  let last := h.backward this
  let next ← h.getForward last
  let h ← h.setForward last (some entry)
  let h ← h.setBackward next (some entry)
  let h ← h.setForward (some entry) next
  h.setBackward (some entry) last

/-- `IsEmpty`. -/
def isEmpty (this : ℕ) (h : Heap) : Bool :=
  h.forward this = some this && h.backward this = some this

/-- An operation of the list's user; an entry is new, at some address, when it is appended. -/
inductive Operation where
  | appendTail (address : ℕ) (entry : ListEntry)
  | removeHead
deriving DecidableEq, Repr

/-- What an operation does; `none` if it uses a pointer that is null or dangling. -/
def step (this : ℕ) (h : Heap) : Operation → Option Heap
  | .appendTail address entry => (h.newEntry address entry).appendTail this address
  | .removeHead => h.removeHead this

end Heap

/-! ## The queue -/

/-- The entries appended and not removed, in the order in which they were appended. -/
abbrev Queue := List (ℕ × ListEntry)

/-- The operations on the queue: an entry that is appended is at an address not in use, and the
head is removed of a queue that is not empty. -/
def Queue.step (this : ℕ) (queue : Queue) : Heap.Operation → Option Queue
  | .appendTail address entry =>
    if address ≠ this ∧ address ∉ queue.map Prod.fst then some (queue ++ [(address, entry)])
    else none
  | .removeHead =>
    match queue with
    | [] => none
    | _ :: rest => some rest

/-- The heap holds the ring of the queue. -/
structure WellFormed (this : ℕ) (h : Heap) (queue : Queue) : Prop where
  circle : h.Circle this (queue.map Prod.fst)
  inverse : ∀ a ∈ this :: queue.map Prod.fst, ∀ b ∈ this :: queue.map Prod.fst,
    h.forward a = some b ↔ h.backward b = some a
  contents : ∀ node ∈ queue, h.contents node.1 = some node.2
  isEmpty : h.isEmpty this = true ↔ queue = []
  peek : ∀ first rest, queue = first :: rest → h.peek this = some first.1

/-! ## What the operations do -/

namespace Heap

variable {this : ℕ} {h : Heap} {address a b : ℕ} {entry : ListEntry} {queue : Queue}

/-- What holds between the operations. -/
structure Inv (this : ℕ) (h : Heap) (queue : Queue) : Prop where
  circle : h.Circle this (queue.map Prod.fst)
  contents : ∀ node ∈ queue, h.contents node.1 = some node.2
  head : (h.contents this).isSome

theorem inv_list : Inv this (list this) [] where
  circle := Links.circle_nil.mpr ⟨rfl, rfl⟩
  contents node hmem := absurd hmem List.not_mem_nil
  head := by
    show (if this = this then some _ else none : Option ListEntry).isSome = true
    rw [if_pos rfl]
    rfl

theorem deref_of_isSome (ha : (h.contents a).isSome) : h.deref (some a) = some a := by
  rw [deref, Option.filter_some, if_pos ha]

/-- The nodes of the ring are allocated. -/
theorem Inv.isSome (hinv : Inv this h queue) (ha : a ∈ this :: queue.map Prod.fst) :
    (h.contents a).isSome := by
  rcases List.mem_cons.mp ha with rfl | hmem
  · exact hinv.head
  · obtain ⟨node, hnode, rfl⟩ := List.mem_map.mp hmem
    rw [hinv.contents node hnode]
    rfl

section Pointers

variable {q : Option ℕ}

theorem getForward_of_isSome (ha : (h.contents a).isSome) :
    h.getForward (some a) = some (h.forward a) := by
  rw [getForward, deref_of_isSome ha, Option.map_some]

theorem getBackward_of_isSome (ha : (h.contents a).isSome) :
    h.getBackward (some a) = some (h.backward a) := by
  rw [getBackward, deref_of_isSome ha, Option.map_some]

theorem setForward_of_isSome (ha : (h.contents a).isSome) :
    h.setForward (some a) q = some { h with forward := Function.update h.forward a q } := by
  rw [setForward, deref_of_isSome ha, Option.map_some]

theorem setBackward_of_isSome (ha : (h.contents a).isSome) :
    h.setBackward (some a) q = some { h with backward := Function.update h.backward a q } := by
  rw [setBackward, deref_of_isSome ha, Option.map_some]

theorem delete_of_isSome (ha : (h.contents a).isSome) :
    h.delete (some a) = some { h with contents := Function.update h.contents a none } := by
  rw [delete, deref_of_isSome ha, Option.map_some]

end Pointers

/-- The entry is linked in between the last node and the head. -/
theorem appendTail_eq (hback : h.backward this = some a) (hforward : h.forward a = some this)
    (hthis : (h.contents this).isSome) (ha : (h.contents a).isSome)
    (haddress : (h.contents address).isSome) :
    h.appendTail this address = some
      { h with
        forward := Function.update (Function.update h.forward a (some address)) address (some this)
        backward :=
          Function.update (Function.update h.backward this (some address)) address (some a) } := by
  simp only [appendTail, hback, getForward_of_isSome ha, hforward, Option.bind_eq_bind,
    Option.bind_some, setForward_of_isSome ha]
  -- Each write leaves what is allocated as it was.
  let h₁ : Heap := { h with forward := Function.update h.forward a (some address) }
  let h₂ : Heap := { h₁ with backward := Function.update h.backward this (some address) }
  let h₃ : Heap := { h₂ with forward := Function.update h₁.forward address (some this) }
  have hsecond : h₁.setBackward (some this) (some address) = some h₂ := setBackward_of_isSome hthis
  have hthird : h₂.setForward (some address) (some this) = some h₃ :=
    setForward_of_isSome haddress
  show (h₁.setBackward (some this) (some address)).bind _ = _
  rw [hsecond, Option.bind_some, hthird, Option.bind_some]
  exact setBackward_of_isSome (h := h₃) haddress

/-- **A new entry becomes the last one.** -/
theorem appendTail_spec (hinv : Inv this h queue) (hthis : address ≠ this)
    (hfresh : address ∉ queue.map Prod.fst) :
    ∃ h', h.step this (.appendTail address entry) = some h' ∧
      Inv this h' (queue ++ [(address, entry)]) := by
  have hout : address ∉ this :: queue.map Prod.fst :=
    fun hmem => (List.mem_cons.mp hmem).elim hthis hfresh
  have hne : ∀ x ∈ this :: queue.map Prod.fst, x ≠ address :=
    fun x hx heq => hout (heq ▸ hx)
  have hlast := hinv.circle.joined_last
  have hmem := List.getLast_mem (List.cons_ne_nil this (queue.map Prod.fst))
  generalize hgen : (this :: queue.map Prod.fst).getLast (List.cons_ne_nil _ _) = last at hlast hmem
  have hthis' : this ≠ address := hne this List.mem_cons_self
  have hlast' : last ≠ address := hne last hmem
  -- What the new entry leaves as it was.
  have hkept : ∀ x ∈ this :: queue.map Prod.fst,
      (h.newEntry address entry).contents x = h.contents x :=
    fun x hx => Function.update_of_ne (hne x hx) _ _
  refine ⟨_, appendTail_eq (a := last) ?_ ?_ ?_ ?_ ?_, ?_, ?_, ?_⟩
  · show Function.update h.backward address none this = some last
    rw [Function.update_of_ne hthis', hlast.2]
  · show Function.update h.forward address none last = some this
    rw [Function.update_of_ne hlast', hlast.1]
  · rw [hkept this List.mem_cons_self]
    exact hinv.head
  · rw [hkept last hmem]
    exact hinv.isSome hmem
  · show (Function.update h.contents address (some entry) address).isSome
    rw [Function.update_self]
    rfl
  · rw [List.map_append, List.map_singleton]
    refine hinv.circle.append hgen hout ⟨?_, ?_⟩ ⟨?_, ?_⟩ ?_ ?_
    · show Function.update (Function.update (h.newEntry address entry).forward last (some address))
        address (some this) last = some address
      rw [Function.update_of_ne hlast', Function.update_self]
    · exact Function.update_self _ _ _
    · exact Function.update_self _ _ _
    · show Function.update (Function.update (h.newEntry address entry).backward this (some address))
        address (some last) this = some address
      rw [Function.update_of_ne hthis', Function.update_self]
    · intro x hx hx'
      show Function.update (Function.update (Function.update h.forward address none) last
        (some address)) address (some this) x = h.forward x
      rw [Function.update_of_ne hx', Function.update_of_ne hx, Function.update_of_ne hx']
    · intro x hx hx'
      show Function.update (Function.update (Function.update h.backward address none) this
        (some address)) address (some last) x = h.backward x
      rw [Function.update_of_ne hx', Function.update_of_ne hx, Function.update_of_ne hx']
  · intro node hnode
    rcases List.mem_append.mp hnode with hold | hnew
    · have hmem' : node.1 ∈ this :: queue.map Prod.fst :=
        List.mem_cons_of_mem this (List.mem_map_of_mem hold)
      rw [← hinv.contents node hold]
      exact hkept node.1 hmem'
    · rw [List.mem_singleton.mp hnew]
      exact Function.update_self _ _ _
  · show ((h.newEntry address entry).contents this).isSome
    rw [hkept this List.mem_cons_self]
    exact hinv.head

/-- The first entry is unlinked and deleted. -/
theorem removeHead_eq {first next : ℕ} (hforward : h.forward this = some first)
    (hnext : h.forward first = some next) (hback : h.backward first = some this)
    (hne : first ≠ this) (hthis : (h.contents this).isSome)
    (hfirst : (h.contents first).isSome) (hnextSome : (h.contents next).isSome) :
    h.removeHead this = some
      { forward := Function.update h.forward this (some next)
        backward := Function.update h.backward next (some this)
        contents := Function.update h.contents first none } := by
  simp only [removeHead, hforward, getBackward_of_isSome hfirst, getForward_of_isSome hfirst, hback,
    hnext, Option.bind_eq_bind, Option.bind_some, setForward_of_isSome hthis]
  let h₁ : Heap := { h with forward := Function.update h.forward this (some next) }
  let h₂ : Heap := { h₁ with backward := Function.update h.backward next (some this) }
  have hnext₁ : h₁.getForward (some first) = some (some next) := by
    rw [getForward_of_isSome (h := h₁) hfirst, ← hnext]
    exact congrArg some (Function.update_of_ne hne _ _)
  have hback₁ : h₁.getBackward (some first) = some (some this) := by
    rw [getBackward_of_isSome (h := h₁) hfirst, ← hback]
  have hsecond : h₁.setBackward (some next) (some this) = some h₂ :=
    setBackward_of_isSome hnextSome
  show (h₁.getForward (some first)).bind (fun next => (h₁.getBackward (some first)).bind
    fun back => (h₁.setBackward next back).bind fun h => h.delete (some first)) = _
  rw [hnext₁, Option.bind_some, hback₁, Option.bind_some, hsecond, Option.bind_some]
  exact delete_of_isSome (h := h₂) hfirst

/-- **The oldest entry is taken out.** -/
theorem removeHead_spec {first : ℕ × ListEntry} (hinv : Inv this h (first :: queue)) :
    ∃ h', h.step this .removeHead = some h' ∧ Inv this h' queue := by
  have hcircle := hinv.circle
  rw [List.map_cons] at hcircle
  have hforward := hcircle.forward_head
  have hmemFirst : first.1 ∈ this :: (first :: queue).map Prod.fst :=
    List.mem_cons_of_mem this List.mem_cons_self
  have hne : first.1 ≠ this := fun heq =>
    (List.nodup_cons.mp hcircle.nodup).1 (heq ▸ List.mem_cons_self)
  have hback : h.backward first.1 = some this :=
    (hcircle.inverse List.mem_cons_self hmemFirst).mp hforward
  obtain ⟨next, hnext⟩ : ∃ next, (queue.map Prod.fst ++ [this]).head? = some next := by
    match queue with
    | [] => exact ⟨this, rfl⟩
    | node :: queue => exact ⟨node.1, rfl⟩
  have hjoined : h.Joined first.1 next := by
    have hchain := (List.isChain_cons_cons.mp hcircle.joined).2
    exact (List.isChain_cons.mp hchain).1 next hnext
  have hmemNext : next ∈ this :: (first :: queue).map Prod.fst := by
    have hmem := List.mem_of_head? hnext
    rw [List.mem_append, List.mem_singleton] at hmem
    exact hmem.elim (fun hold => List.mem_cons_of_mem _ (List.mem_cons_of_mem _ hold))
      fun heq => heq ▸ List.mem_cons_self
  have hkept : ∀ node ∈ queue, node.1 ≠ first.1 := by
    intro node hnode heq
    have hnodup := (List.nodup_cons.mp hcircle.nodup).2
    exact (List.nodup_cons.mp hnodup).1 (heq ▸ List.mem_map_of_mem hnode)
  refine ⟨_, removeHead_eq hforward hjoined.1 hback hne hinv.head (hinv.isSome hmemFirst)
    (hinv.isSome hmemNext), ?_, ?_, ?_⟩
  · refine hcircle.tail hnext ⟨?_, ?_⟩ ?_ ?_
    · exact Function.update_self _ _ _
    · exact Function.update_self _ _ _
    · exact fun x hx _ => Function.update_of_ne hx _ _
    · exact fun x hx _ => Function.update_of_ne hx _ _
  · intro node hnode
    rw [← hinv.contents node (List.mem_cons_of_mem first hnode)]
    exact Function.update_of_ne (hkept node hnode) _ _
  · show (Function.update h.contents first.1 none this).isSome
    rw [Function.update_of_ne hne.symm]
    exact hinv.head

/-- The ring is that of the queue. -/
theorem Inv.wellFormed (hinv : Inv this h queue) : WellFormed this h queue where
  circle := hinv.circle
  inverse _ ha _ hb := hinv.circle.inverse ha hb
  contents := hinv.contents
  isEmpty := by
    have hcircle := hinv.circle
    unfold isEmpty
    rw [Bool.and_eq_true, decide_eq_true_iff, decide_eq_true_iff]
    match queue with
    | [] => exact iff_of_true (Links.circle_nil.mp hcircle) rfl
    | node :: queue =>
      rw [List.map_cons] at hcircle
      refine iff_of_false (fun hempty => ?_) (List.cons_ne_nil node queue)
      have heq : node.1 = this := Option.some.inj (hcircle.forward_head.symm.trans hempty.1)
      exact (List.nodup_cons.mp hcircle.nodup).1 (heq ▸ List.mem_cons_self)
  peek first rest hqueue := by
    have hcircle := hinv.circle
    rw [hqueue, List.map_cons] at hcircle
    exact hcircle.forward_head

/-- One operation: the heap does what the queue does. -/
theorem step_spec {queue' : Queue} {operation : Operation} (hinv : Inv this h queue)
    (hstep : queue.step this operation = some queue') :
    ∃ h', h.step this operation = some h' ∧ Inv this h' queue' := by
  match operation with
  | .appendTail address entry =>
    rw [Queue.step] at hstep
    split at hstep
    · rename_i hfresh
      rw [← Option.some.inj hstep]
      exact appendTail_spec hinv hfresh.1 hfresh.2
    · contradiction
  | .removeHead =>
    match queue with
    | [] => contradiction
    | first :: rest =>
      rw [← Option.some.inj hstep]
      exact removeHead_spec hinv

/-- All operations, from any list that holds the queue. -/
theorem run_spec {queue' : Queue} {operations : List Operation} (hinv : Inv this h queue)
    (hrun : run (Queue.step this) queue operations = some queue') :
    ∃ h', run (step this) h operations = some h' ∧ Inv this h' queue' := by
  induction operations generalizing h queue with
  | nil =>
    rw [run_nil, Option.some.injEq] at hrun
    exact ⟨h, rfl, hrun ▸ hinv⟩
  | cons operation operations ih =>
    obtain ⟨middle, hmiddle, hrest⟩ := run_cons_eq_some.mp hrun
    obtain ⟨h₁, hstep, hinv₁⟩ := step_spec hinv hmiddle
    obtain ⟨h₂, hlater, hinv₂⟩ := ih hinv₁ hrest
    exact ⟨h₂, run_cons_eq_some.mpr ⟨h₁, hstep, hlater⟩, hinv₂⟩

end Heap

/-- **The list is a well-formed ring** behind every run of the queue: no pointer that is null or
dangling is used on the way, and the ring is that of the queue. -/
theorem wellFormed_of_run (this : ℕ) (operations : List Heap.Operation) (queue : Queue)
    (hrun : run (Queue.step this) [] operations = some queue) :
    ∃ h, run (Heap.step this) (.list this) operations = some h ∧ WellFormed this h queue := by
  obtain ⟨h, hheap, hinv⟩ := Heap.run_spec Heap.inv_list hrun
  exact ⟨h, hheap, hinv.wellFormed⟩

/-- The list becomes empty and is used again, at an address that was freed. -/
theorem wellFormed_of_run_reused : ∃ h,
    run (Heap.step 100) (.list 100)
      [.appendTail 1 ⟨1, 0, [7]⟩, .removeHead, .appendTail 2 ⟨0, 0, []⟩, .appendTail 1 ⟨1, 0, [8]⟩]
        = some h ∧
    WellFormed 100 h [(2, ⟨0, 0, []⟩), (1, ⟨1, 0, [8]⟩)] :=
  wellFormed_of_run 100 _ _ rfl

end Win32Experiments.XSocket
