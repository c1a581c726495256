import Win32Experiments.Foundation.Halting
import Mathlib.Algebra.Group.Nat.Defs
import Mathlib.Data.List.Range

/-!
# Committing on demand

The program reserves `PAGELIMIT` pages and writes to them element by element. A write to a page
that is not committed yet faults, and `PageFaultExceptionFilter` commits the page at `lpNxtPage`
and lets the write run again. Addresses are byte offsets from `lpvBase`. The loop counts
`PAGELIMIT * dwPageSize` elements; an element has `charSize` bytes.

* `commitsOnDemand_iff`: the loop stays in the reservation and finishes exactly if an element is
  one byte long;
* `not_commitsOnDemand_unicode`: with two-byte elements it never does. Half way through it is at
  the end of the reservation, and writes on behind it or exits the process.
-/

namespace Win32Experiments.VirtualAllocReserving

open Foundation

/-- `PAGELIMIT`. -/
def pageLimit : ℕ := 80

/-- `EXCEPTION_ACCESS_VIOLATION`. -/
def exceptionAccessViolation : UInt32 := 0xC0000005

/-- What the filter returns: `EXCEPTION_EXECUTE_HANDLER` or `EXCEPTION_CONTINUE_EXECUTION`. -/
inductive Filter where
  | executeHandler
  | continueExecution
deriving DecidableEq, Repr

/-- The global variables, and the numbers of the pages committed so far. -/
structure Pages where
  lpNxtPage : ℕ
  dwPages : ℕ
  committed : List ℕ
deriving DecidableEq, Repr

/-- The numbers of the pages with a byte among the `size` bytes at `address`. -/
def pagesAt (dwPageSize address size : ℕ) : List ℕ :=
  .range' (address / dwPageSize) ((address + size - 1) / dwPageSize + 1 - address / dwPageSize)

/-- The next page is committed and counted. -/
def Pages.commitNext (dwPageSize : ℕ) (p : Pages) : Pages where
  lpNxtPage := p.lpNxtPage + dwPageSize
  dwPages := p.dwPages + 1
  committed := p.committed ++ pagesAt dwPageSize p.lpNxtPage dwPageSize

/-- `PageFaultExceptionFilter`; `lpvResult` tells whether `VirtualAlloc` commits the page. -/
def pageFaultExceptionFilter (dwPageSize : ℕ) (lpvResult : Bool) (dwCode : UInt32) (p : Pages) :
    Filter × Pages :=
  if dwCode ≠ exceptionAccessViolation then (.executeHandler, p)
  else if pageLimit ≤ p.dwPages then (.executeHandler, p)
  else if lpvResult = false then (.executeHandler, p)
  else (.continueExecution, p.commitNext dwPageSize)

/-- The variables at the head of the loop, and the addresses written so far. -/
structure Place where
  i : ℕ
  pages : Pages
  written : List ℕ
deriving DecidableEq, Repr

/-- Before the loop: nothing committed, nothing written. -/
def Place.start : Place := ⟨0, ⟨0, 0, []⟩, []⟩

/-- Where the loop goes when it is left. -/
inductive Ending where
  | virtualFree
  | exitProcess
deriving DecidableEq, Repr

section Loop

variable (dwPageSize charSize : ℕ) (mapped : ℕ → Bool)

/-- `PAGELIMIT * dwPageSize`, the bytes reserved and the bound of the loop. -/
def reservedBytes : ℕ := pageLimit * dwPageSize % 2 ^ 32

/-- The byte at `address` can be written. Behind the reservation `mapped` tells what there is. -/
def writable (p : Pages) (address : ℕ) : Bool :=
  if address < reservedBytes dwPageSize then p.committed.contains (address / dwPageSize)
  else mapped address

/-- The element at `address` can be written. -/
def accessible (p : Pages) (address : ℕ) : Bool :=
  (List.range charSize).all fun b => writable dwPageSize mapped p (address + b)

/-- One try of `lpPtr[i] = 'a'`, and `i++` behind it. -/
def turn (s : Place) : Except Ending Place :=
  if s.i < reservedBytes dwPageSize then
    if accessible dwPageSize charSize mapped s.pages (charSize * s.i) then
      .ok { s with i := s.i + 1, written := s.written ++ [charSize * s.i] }
    else
      match pageFaultExceptionFilter dwPageSize true exceptionAccessViolation s.pages with
      | (.continueExecution, pages) => .ok { s with pages := pages }
      | (.executeHandler, _) => .error .exitProcess
  else .error .virtualFree

/-- What committing on demand is: every access that faults is at `lpNxtPage`, the pages committed
are the first `dwPages` of the reservation, every element is written in the reservation, and the
loop finishes. -/
structure CommitsOnDemand : Prop where
  faults : ∀ s, Reaches (turn dwPageSize charSize mapped) .start s →
    s.i < reservedBytes dwPageSize →
    accessible dwPageSize charSize mapped s.pages (charSize * s.i) = false →
    charSize * s.i = s.pages.lpNxtPage
  committed : ∀ s, Reaches (turn dwPageSize charSize mapped) .start s →
    s.pages.committed = .range s.pages.dwPages ∧ s.pages.dwPages ≤ pageLimit
  inside : ∀ s, Reaches (turn dwPageSize charSize mapped) .start s →
    ∀ address ∈ s.written, address + charSize ≤ reservedBytes dwPageSize
  finishes : ∃ s, Reaches (turn dwPageSize charSize mapped) .start s ∧
    turn dwPageSize charSize mapped s = .error .virtualFree ∧
    s.written = (List.range (reservedBytes dwPageSize)).map (charSize * ·)

end Loop

/-! ## The run in the reservation -/

/-- What holds as long as the loop is in the reservation. -/
structure Inv (dwPageSize charSize : ℕ) (s : Place) : Prop where
  written : s.written = (List.range s.i).map (charSize * ·)
  next : s.pages.lpNxtPage = dwPageSize * s.pages.dwPages
  committed : s.pages.committed = .range s.pages.dwPages
  dwPages : s.pages.dwPages ≤ pageLimit
  behind : charSize * s.i ≤ dwPageSize * s.pages.dwPages

theorem inv_start {dwPageSize charSize : ℕ} : Inv dwPageSize charSize .start :=
  ⟨rfl, rfl, rfl, Nat.zero_le _, Nat.zero_le _⟩

/-- The page at the start of a page is that page alone. -/
theorem pagesAt_mul {dwPageSize : ℕ} (hpos : 0 < dwPageSize) (k : ℕ) :
    pagesAt dwPageSize (dwPageSize * k) dwPageSize = [k] := by
  have hfirst : dwPageSize * k / dwPageSize = k := Nat.mul_div_cancel_left k hpos
  have hlast : (dwPageSize * k + dwPageSize - 1) / dwPageSize = k := by
    rw [Nat.add_sub_assoc hpos, Nat.mul_add_div hpos, Nat.div_eq_of_lt (by omega)]
    omega
  rw [pagesAt, hfirst, hlast, Nat.add_sub_cancel_left]
  rfl

/-- The filter commits the next page, as long as there is one. -/
theorem filter_continues {dwPageSize : ℕ} {p : Pages} (hlt : p.dwPages < pageLimit) :
    pageFaultExceptionFilter dwPageSize true exceptionAccessViolation p =
      (.continueExecution, p.commitNext dwPageSize) := by
  have hle : ¬ pageLimit ≤ p.dwPages := by omega
  simp [pageFaultExceptionFilter, hle]

/-- The filter gives up when all pages are committed. -/
theorem filter_gives_up {dwPageSize : ℕ} {p : Pages} (hle : pageLimit ≤ p.dwPages) :
    pageFaultExceptionFilter dwPageSize true exceptionAccessViolation p =
      (.executeHandler, p) := by
  simp [pageFaultExceptionFilter, hle]

section Run

variable {dwPageSize charSize : ℕ} {mapped : ℕ → Bool} {s t : Place}

theorem reservedBytes_eq (hlt : pageLimit * dwPageSize < 2 ^ 32) :
    reservedBytes dwPageSize = pageLimit * dwPageSize := Nat.mod_eq_of_lt hlt

/-- All bytes of an element are in one page. -/
theorem page_of_byte (hdvd : charSize ∣ dwPageSize) {b : ℕ} (hb : b < charSize) (i : ℕ) :
    (charSize * i + b) / dwPageSize = charSize * i / dwPageSize := by
  obtain ⟨k, rfl⟩ := hdvd
  have hpos : 0 < charSize := by omega
  rw [← Nat.div_div_eq_div_mul, ← Nat.div_div_eq_div_mul, Nat.mul_add_div hpos,
    Nat.div_eq_of_lt hb, Nat.mul_div_cancel_left i hpos, Nat.add_zero]

/-- An element in the reservation can be written exactly if its page is committed. -/
theorem accessible_iff (mapped : ℕ → Bool) (hchar : 0 < charSize)
    (hdvd : charSize ∣ dwPageSize) (hlt : pageLimit * dwPageSize < 2 ^ 32)
    (h : Inv dwPageSize charSize s)
    (hin : charSize * s.i < pageLimit * dwPageSize) :
    accessible dwPageSize charSize mapped s.pages (charSize * s.i) = true ↔
      charSize * s.i < dwPageSize * s.pages.dwPages := by
  have hpos : 0 < dwPageSize := by
    by_contra hzero
    simp [Nat.eq_zero_of_not_pos hzero] at hin
  have hbyte : ∀ b < charSize,
      (writable dwPageSize mapped s.pages (charSize * s.i + b) = true ↔
        charSize * s.i < dwPageSize * s.pages.dwPages) := by
    intro b hb
    have hinside : charSize * s.i + b < pageLimit * dwPageSize := by
      obtain ⟨k, hk⟩ := Nat.dvd_mul_left_of_dvd hdvd pageLimit
      rw [hk] at hin ⊢
      have hi : s.i + 1 ≤ k := Nat.lt_of_mul_lt_mul_left hin
      have hmul := Nat.mul_le_mul_left charSize hi
      rw [Nat.mul_succ] at hmul
      omega
    rw [writable, reservedBytes_eq hlt, if_pos hinside, page_of_byte hdvd hb, h.committed,
      List.contains_iff_mem, List.mem_range, Nat.div_lt_iff_lt_mul hpos, Nat.mul_comm dwPageSize]
  rw [accessible, List.all_eq_true]
  constructor
  · intro hall
    exact (hbyte 0 hchar).mp (hall 0 (List.mem_range.mpr hchar))
  · intro hin b hb
    exact (hbyte b (List.mem_range.mp hb)).mpr hin

/-- A turn that writes. -/
theorem turn_write (hi : s.i < reservedBytes dwPageSize)
    (hacc : accessible dwPageSize charSize mapped s.pages (charSize * s.i) = true) :
    turn dwPageSize charSize mapped s =
      .ok { s with i := s.i + 1, written := s.written ++ [charSize * s.i] } := by
  rw [turn, if_pos hi, if_pos hacc]

/-- A turn that faults and commits the next page. -/
theorem turn_commit (hi : s.i < reservedBytes dwPageSize)
    (hacc : accessible dwPageSize charSize mapped s.pages (charSize * s.i) = false)
    (hlt : s.pages.dwPages < pageLimit) :
    turn dwPageSize charSize mapped s =
      .ok { s with pages := s.pages.commitNext dwPageSize } := by
  rw [turn, if_pos hi, if_neg (by simp [hacc]), filter_continues hlt]

/-- A turn that faults with no page left. -/
theorem turn_giveUp (hi : s.i < reservedBytes dwPageSize)
    (hacc : accessible dwPageSize charSize mapped s.pages (charSize * s.i) = false)
    (hle : pageLimit ≤ s.pages.dwPages) :
    turn dwPageSize charSize mapped s = .error .exitProcess := by
  rw [turn, if_pos hi, if_neg (by simp [hacc]), filter_gives_up hle]

/-- A write in a committed page keeps the invariant. -/
theorem inv_write (hdvd : charSize ∣ dwPageSize) (h : Inv dwPageSize charSize s)
    (hpage : charSize * s.i < dwPageSize * s.pages.dwPages) :
    Inv dwPageSize charSize
      { s with i := s.i + 1, written := s.written ++ [charSize * s.i] } := by
  refine ⟨?_, h.next, h.committed, h.dwPages, ?_⟩
  · show s.written ++ [charSize * s.i] = _
    rw [h.written, List.range_succ, List.map_append, List.map_singleton]
  · show charSize * (s.i + 1) ≤ dwPageSize * s.pages.dwPages
    obtain ⟨k, hk⟩ := Nat.dvd_mul_right_of_dvd hdvd s.pages.dwPages
    rw [hk] at hpage ⊢
    exact Nat.mul_le_mul_left charSize (Nat.lt_of_mul_lt_mul_left hpage)

/-- The commit of the next page keeps the invariant. -/
theorem inv_commit (hpos : 0 < dwPageSize) (h : Inv dwPageSize charSize s)
    (hlt : s.pages.dwPages < pageLimit) :
    Inv dwPageSize charSize
      { s with pages := s.pages.commitNext dwPageSize } := by
  refine ⟨h.written, ?_, ?_, hlt, ?_⟩
  · show s.pages.lpNxtPage + dwPageSize = dwPageSize * (s.pages.dwPages + 1)
    rw [h.next, Nat.mul_succ]
  · show s.pages.committed ++ pagesAt dwPageSize s.pages.lpNxtPage dwPageSize =
      .range (s.pages.dwPages + 1)
    rw [h.next, pagesAt_mul hpos, h.committed, List.range_succ]
  · show charSize * s.i ≤ dwPageSize * (s.pages.dwPages + 1)
    have hbehind := h.behind
    rw [Nat.mul_succ]
    omega

/-- An access in the reservation that faults is at `lpNxtPage`, and there is a page left. -/
theorem fault_at_next (hchar : 0 < charSize) (hdvd : charSize ∣ dwPageSize)
    (hlt : pageLimit * dwPageSize < 2 ^ 32) (h : Inv dwPageSize charSize s)
    (hin : charSize * s.i < pageLimit * dwPageSize)
    (hacc : accessible dwPageSize charSize mapped s.pages (charSize * s.i) = false) :
    charSize * s.i = s.pages.lpNxtPage ∧ s.pages.dwPages < pageLimit := by
  have hnot : ¬ charSize * s.i < dwPageSize * s.pages.dwPages := by
    rw [← accessible_iff mapped hchar hdvd hlt h hin, hacc]
    exact Bool.false_ne_true
  have hat : charSize * s.i = dwPageSize * s.pages.dwPages := by
    have hbehind := h.behind
    omega
  refine ⟨hat.trans h.next.symm, ?_⟩
  rw [hat, Nat.mul_comm pageLimit] at hin
  exact Nat.lt_of_mul_lt_mul_left hin

/-- Turns that are left, as long as the loop is in the reservation. -/
def left (dwPageSize : ℕ) (s : Place) : ℕ :=
  pageLimit * dwPageSize - s.i + (pageLimit - s.pages.dwPages)

/-- **One turn in the reservation.** It goes on, writes an element or commits a page. -/
theorem turn_inside (mapped : ℕ → Bool) (hchar : 0 < charSize)
    (hdvd : charSize ∣ dwPageSize) (hlt : pageLimit * dwPageSize < 2 ^ 32)
    (h : Inv dwPageSize charSize s)
    (hin : charSize * s.i < pageLimit * dwPageSize) :
    ∃ t, turn dwPageSize charSize mapped s = .ok t ∧ Inv dwPageSize charSize t ∧
      left dwPageSize t < left dwPageSize s := by
  have hi : s.i < pageLimit * dwPageSize :=
    Nat.lt_of_le_of_lt (Nat.le_mul_of_pos_left s.i hchar) hin
  have hloop : s.i < reservedBytes dwPageSize := (reservedBytes_eq hlt).symm ▸ hi
  have hpos : 0 < dwPageSize := by
    by_contra hzero
    simp [Nat.eq_zero_of_not_pos hzero] at hin
  by_cases hacc : accessible dwPageSize charSize mapped s.pages (charSize * s.i) = true
  · have hpage := (accessible_iff mapped hchar hdvd hlt h hin).mp hacc
    refine ⟨_, turn_write hloop hacc, inv_write hdvd h hpage, ?_⟩
    show pageLimit * dwPageSize - (s.i + 1) + (pageLimit - s.pages.dwPages) < left dwPageSize s
    rw [left]
    omega
  · have hfault := Bool.eq_false_iff.mpr hacc
    obtain ⟨-, hleft⟩ := fault_at_next hchar hdvd hlt h hin hfault
    refine ⟨_, turn_commit hloop hfault hleft, inv_commit hpos h hleft, ?_⟩
    show pageLimit * dwPageSize - s.i + (pageLimit - (s.pages.dwPages + 1)) < left dwPageSize s
    rw [left]
    omega

/-- **The run in the reservation.** The loop comes to the end of the reservation. -/
theorem reaches_end (mapped : ℕ → Bool) (hchar : 0 < charSize)
    (hdvd : charSize ∣ dwPageSize) (hlt : pageLimit * dwPageSize < 2 ^ 32) :
    ∃ s, Reaches (turn dwPageSize charSize mapped) .start s ∧ Inv dwPageSize charSize s ∧
      charSize * s.i = pageLimit * dwPageSize := by
  have hturn : ∀ s, Inv dwPageSize charSize s →
      ¬ charSize * s.i = pageLimit * dwPageSize →
      ∃ t, turn dwPageSize charSize mapped s = .ok t ∧ Inv dwPageSize charSize t ∧
        left dwPageSize t < left dwPageSize s := by
    intro s h hnot
    have hbehind := h.behind
    have hpages := Nat.mul_le_mul_left dwPageSize h.dwPages
    rw [Nat.mul_comm dwPageSize pageLimit] at hpages
    apply turn_inside mapped hchar hdvd hlt h
    omega
  obtain ⟨s, h, hend, hreach⟩ := reaches_of_measure (left dwPageSize) hturn inv_start
  exact ⟨s, hreach, h, hend⟩

/-- At the end of the reservation all pages are committed. -/
theorem dwPages_of_end (hpos : 0 < dwPageSize) (h : Inv dwPageSize charSize s)
    (hend : charSize * s.i = pageLimit * dwPageSize) : s.pages.dwPages = pageLimit := by
  have hbehind := h.behind
  rw [hend, Nat.mul_comm] at hbehind
  exact Nat.le_antisymm h.dwPages (Nat.le_of_mul_le_mul_left hbehind hpos)

/-! ## One-byte elements -/

/-- With one-byte elements the loop never leaves the reservation. -/
theorem reaches_inv (hlt : pageLimit * dwPageSize < 2 ^ 32)
    (hreach : Reaches (turn dwPageSize 1 mapped) .start s) : Inv dwPageSize 1 s := by
  refine hreach.invariant ?_ inv_start
  intro s t h hturn
  by_cases hloop : s.i < reservedBytes dwPageSize
  · have hin : 1 * s.i < pageLimit * dwPageSize := by
      rw [Nat.one_mul, ← reservedBytes_eq hlt]
      exact hloop
    obtain ⟨t', hturn', ht', -⟩ :=
      turn_inside mapped Nat.one_pos (Nat.one_dvd dwPageSize) hlt h hin
    rw [hturn, Except.ok.injEq] at hturn'
    exact hturn' ▸ ht'
  · rw [turn, if_neg hloop] at hturn
    contradiction

theorem commitsOnDemand_of_one_byte (hlt : pageLimit * dwPageSize < 2 ^ 32) :
    CommitsOnDemand dwPageSize 1 mapped := by
  have hreserved := reservedBytes_eq hlt
  refine ⟨?_, ?_, ?_, ?_⟩
  · intro s hreach hloop hacc
    have hin : 1 * s.i < pageLimit * dwPageSize := by
      rw [Nat.one_mul, ← hreserved]
      exact hloop
    have h := reaches_inv hlt hreach
    exact (fault_at_next Nat.one_pos (Nat.one_dvd dwPageSize) hlt h hin hacc).1
  · intro s hreach
    have h := reaches_inv hlt hreach
    exact ⟨h.committed, h.dwPages⟩
  · intro s hreach address hmem
    have h := reaches_inv hlt hreach
    rw [h.written, List.mem_map] at hmem
    obtain ⟨i, hi, rfl⟩ := hmem
    have hrange := List.mem_range.mp hi
    have hbehind := h.behind
    have hpages := Nat.mul_le_mul_left dwPageSize h.dwPages
    rw [Nat.mul_comm dwPageSize pageLimit] at hpages
    rw [hreserved]
    omega
  · obtain ⟨s, hreach, h, hend⟩ :=
      reaches_end mapped Nat.one_pos (Nat.one_dvd dwPageSize) hlt
    rw [Nat.one_mul] at hend
    refine ⟨s, hreach, ?_, ?_⟩
    · rw [turn, if_neg (by omega)]
    · rw [h.written, hend, hreserved]

/-! ## Longer elements -/

/-- With longer elements the loop goes on at the end of the reservation, and leaves it. -/
theorem turn_at_end (hchar : 1 < charSize) (hpos : 0 < dwPageSize)
    (hlt : pageLimit * dwPageSize < 2 ^ 32) (h : Inv dwPageSize charSize s)
    (hend : charSize * s.i = pageLimit * dwPageSize) :
    turn dwPageSize charSize mapped s = .error .exitProcess ∨
      ∃ t, turn dwPageSize charSize mapped s = .ok t ∧
        pageLimit * dwPageSize ∈ t.written := by
  have hi : s.i < pageLimit * dwPageSize := by
    have hpositive : 0 < pageLimit * dwPageSize := Nat.mul_pos (by decide) hpos
    have htwo := Nat.mul_le_mul_right s.i hchar
    omega
  have hloop : s.i < reservedBytes dwPageSize := (reservedBytes_eq hlt).symm ▸ hi
  by_cases hacc : accessible dwPageSize charSize mapped s.pages (charSize * s.i) = true
  · refine Or.inr ⟨_, turn_write hloop hacc, ?_⟩
    rw [← hend]
    exact List.mem_append_right s.written (List.mem_singleton_self _)
  · have hfault := Bool.eq_false_iff.mpr hacc
    exact Or.inl (turn_giveUp hloop hfault (dwPages_of_end hpos h hend).ge)

theorem not_commitsOnDemand (hchar : 1 < charSize) (hpos : 0 < dwPageSize)
    (hdvd : charSize ∣ dwPageSize) (hlt : pageLimit * dwPageSize < 2 ^ 32) :
    ¬ CommitsOnDemand dwPageSize charSize mapped := by
  intro hdemand
  obtain ⟨s, hreach, h, hend⟩ :=
    reaches_end mapped (Nat.zero_lt_of_lt hchar) hdvd hlt
  rcases turn_at_end hchar hpos hlt h hend with hexit | ⟨t, hturn, hmem⟩
  · obtain ⟨u, hreach', hfree, -⟩ := hdemand.finishes
    have hexits : Returns (turn dwPageSize charSize mapped) .start .exitProcess :=
      returns_iff.mpr ⟨s, hreach, hexit⟩
    have hfrees : Returns (turn dwPageSize charSize mapped) .start .virtualFree :=
      returns_iff.mpr ⟨u, hreach', hfree⟩
    have hsame := hexits.unique hfrees
    contradiction
  · have hinside := hdemand.inside t (hreach.tail hturn) _ hmem
    rw [reservedBytes_eq hlt] at hinside
    omega

/-- **Committing on demand.** The element size and the page cursor agree only for bytes. -/
theorem commitsOnDemand_iff (hpos : 0 < dwPageSize) (hdvd : charSize ∣ dwPageSize)
    (hlt : pageLimit * dwPageSize < 2 ^ 32) :
    CommitsOnDemand dwPageSize charSize mapped ↔ charSize = 1 := by
  have hchar : 0 < charSize := Nat.pos_of_dvd_of_pos hdvd hpos
  constructor
  · intro hdemand
    by_contra hne
    exact not_commitsOnDemand (by omega) hpos hdvd hlt hdemand
  · rintro rfl
    exact commitsOnDemand_of_one_byte hlt

/-- **The `wchar_t` build.** It never commits on demand only: after `PAGELIMIT / 2` pages worth of
elements everything reserved is committed and written, and the loop writes on behind it or exits
the process. -/
theorem not_commitsOnDemand_unicode (heven : 2 ∣ dwPageSize) (hpage : 2 ≤ dwPageSize)
    (hlt : pageLimit * dwPageSize < 2 ^ 32) :
    ¬ CommitsOnDemand dwPageSize 2 mapped ∧
      ∃ s, Reaches (turn dwPageSize 2 mapped) .start s ∧ s.i = 40 * dwPageSize ∧
        s.written = (List.range (40 * dwPageSize)).map (2 * ·) ∧ s.pages.dwPages = pageLimit ∧
        (turn dwPageSize 2 mapped s = .error .exitProcess ∨
          ∃ t, turn dwPageSize 2 mapped s = .ok t ∧ pageLimit * dwPageSize ∈ t.written) := by
  have hpos : 0 < dwPageSize := by omega
  refine ⟨not_commitsOnDemand Nat.one_lt_two hpos heven hlt, ?_⟩
  obtain ⟨s, hreach, h, hend⟩ := reaches_end mapped Nat.two_pos heven hlt
  have hi : s.i = 40 * dwPageSize := by
    rw [pageLimit] at hend
    omega
  refine ⟨s, hreach, hi, ?_, dwPages_of_end hpos h hend,
    turn_at_end Nat.one_lt_two hpos hlt h hend⟩
  rw [h.written, hi]

end Run

/-- With the usual page size and nothing mapped behind the reservation. -/
theorem not_commitsOnDemand_unicode_4096 : ¬ CommitsOnDemand 4096 2 fun _ => false :=
  (not_commitsOnDemand_unicode (by decide) (by decide) (by decide)).1

/-- The write of element 163840 is the first one behind the reservation; it faults, and the filter
has no page left. -/
theorem leaves_reservation_4096 :
    (∃ s, Reaches (turn 4096 2 fun _ => false) .start s ∧ s.i = 163840 ∧
      reservedBytes 4096 = 2 * s.i ∧ turn 4096 2 (fun _ => false) s = .error .exitProcess) ∧
    ¬ CommitsOnDemand 4096 2 fun _ => false := by
  have hlt : pageLimit * 4096 < 2 ^ 32 := by decide
  have heven : 2 ∣ 4096 := by decide
  refine ⟨?_, not_commitsOnDemand Nat.one_lt_two (by decide) heven hlt⟩
  obtain ⟨s, hreach, h, hend⟩ := reaches_end (fun _ => false) Nat.two_pos heven hlt
  have hreserved : reservedBytes 4096 = 2 * s.i := by rw [hend, reservedBytes_eq hlt]
  have hi : s.i = 163840 := by
    rw [pageLimit] at hend
    omega
  have hloop : s.i < reservedBytes 4096 := by omega
  have hfault : accessible 4096 2 (fun _ => false) s.pages (2 * s.i) = false := by
    rw [← hreserved, accessible, List.all_eq_false]
    refine ⟨0, by decide, ?_⟩
    simp [writable]
  exact ⟨s, hreach, hi, hreserved,
    turn_giveUp hloop hfault (dwPages_of_end (by decide) h hend).ge⟩

end Win32Experiments.VirtualAllocReserving
