import Win32Experiments.Foundation.Cleanup
import Win32Experiments.Foundation.Handles

/-!
# `TakeOwnership`

The ladder of calls that sets the DACL of a file, takes its ownership if this is refused, and tries
again. What each call answers is an input. The SIDs, the ACLs and the tokens are numbered in the
order in which they are allocated.
-/

namespace Win32Experiments.TakingOwnership

open Foundation

def errorSuccess : ℕ := 0
def errorAccessDenied : ℕ := 5
def errorNotAllAssigned : ℕ := 1300

/-! ## The calls -/

/-- The answers to the calls in `SetPrivilege`: whether the LUID is found, whether the token is
adjusted, and the last error behind this. -/
structure PrivilegeAnswers where
  lookupPrivilegeValue : Bool
  adjustTokenPrivileges : Bool
  lastError : ℕ
deriving DecidableEq, Repr

/-- `SetPrivilege`. -/
def setPrivilege (answers : PrivilegeAnswers) : Bool :=
  if answers.lookupPrivilegeValue = false then false
  else if answers.adjustTokenPrivileges = false then false
  else if answers.lastError = errorNotAllAssigned then false
  else true

/-- The answers to the calls in `TakeOwnership`, in its order. -/
structure Answers where
  sidEveryone : Bool
  sidAdmin : Bool
  setEntriesInAcl : ℕ
  firstDacl : ℕ
  openProcessToken : Bool
  enablePrivilege : PrivilegeAnswers
  setOwner : ℕ
  disablePrivilege : PrivilegeAnswers
  secondDacl : ℕ
deriving DecidableEq, Repr

/-- A call of `SetPrivilege` for `SE_TAKE_OWNERSHIP_NAME`, and what it returned. -/
structure PrivilegeCall where
  bEnablePrivilege : Bool
  returned : Bool
deriving DecidableEq, Repr

/-- The local variables, what has been allocated and released, the calls of `SetPrivilege` and the
results of the DACL changes, the latest last. -/
structure Frame where
  bRetval : Bool
  hToken : Option ℕ
  pSIDAdmin : Option ℕ
  pSIDEveryone : Option ℕ
  pACL : Option ℕ
  sids : Handles
  acls : Handles
  tokens : Handles
  privilegeCalls : List PrivilegeCall
  daclResults : List ℕ
deriving DecidableEq, Repr

/-- The variables as they are declared. -/
def Frame.start : Frame :=
  { bRetval := false, hToken := none, pSIDAdmin := none, pSIDEveryone := none, pACL := none
    sids := .empty, acls := .empty, tokens := .empty, privilegeCalls := [], daclResults := [] }

namespace Frame

/-! ## The steps -/

/-- `AllocateAndInitializeSid` for Everyone. -/
def allocateEveryone (a : Answers) (f : Frame) : Except Frame Frame :=
  if a.sidEveryone then
    .ok { f with pSIDEveryone := some f.sids.opened, sids := f.sids.create }
  else .error f

/-- `AllocateAndInitializeSid` for the Administrators. -/
def allocateAdmin (a : Answers) (f : Frame) : Except Frame Frame :=
  if a.sidAdmin then
    .ok { f with pSIDAdmin := some f.sids.opened, sids := f.sids.create }
  else .error f

/-- `SetEntriesInAcl`. -/
def setEntries (a : Answers) (f : Frame) : Except Frame Frame :=
  if a.setEntriesInAcl = errorSuccess then
    .ok { f with pACL := some f.acls.opened, acls := f.acls.create }
  else .error f

/-- A change of the DACL. -/
def setDacl (dwRes : ℕ) (f : Frame) : Frame := { f with daclResults := f.daclResults ++ [dwRes] }

/-- The first try, which goes on only if access was denied. -/
def firstDacl (a : Answers) (f : Frame) : Except Frame Frame :=
  if a.firstDacl = errorSuccess then .error { f.setDacl a.firstDacl with bRetval := true }
  else if a.firstDacl ≠ errorAccessDenied then .error (f.setDacl a.firstDacl)
  else .ok (f.setDacl a.firstDacl)

/-- `OpenProcessToken`. -/
def openToken (a : Answers) (f : Frame) : Except Frame Frame :=
  if a.openProcessToken then
    .ok { f with hToken := some f.tokens.opened, tokens := f.tokens.create }
  else .error f

/-- A call of `SetPrivilege`. -/
def callSetPrivilege (answers : PrivilegeAnswers) (bEnablePrivilege : Bool) (f : Frame) :
    Except Frame Frame :=
  let g := { f with
    privilegeCalls := f.privilegeCalls ++ [⟨bEnablePrivilege, setPrivilege answers⟩] }
  if setPrivilege answers then .ok g else .error g

/-- The change of the owner. -/
def setOwner (a : Answers) (f : Frame) : Except Frame Frame :=
  if a.setOwner = errorSuccess then .ok f else .error f

/-- The second try. -/
def secondDacl (a : Answers) (f : Frame) : Except Frame Frame :=
  if a.secondDacl = errorSuccess then .ok { f.setDacl a.secondDacl with bRetval := true }
  else .ok (f.setDacl a.secondDacl)

/-- The function up to its label. -/
def body (a : Answers) (f : Frame) : Except Frame Frame := do
  let f ← f.allocateEveryone a
  let f ← f.allocateAdmin a
  let f ← f.setEntries a
  let f ← f.firstDacl a
  let f ← f.openToken a
  let f ← f.callSetPrivilege a.enablePrivilege true
  let f ← f.setOwner a
  let f ← f.callSetPrivilege a.disablePrivilege false
  f.secondDacl a

/-- The code behind the label `Cleanup`. -/
def cleanup (f : Frame) : Frame :=
  { f with
    sids := (f.sids.closeAll f.pSIDAdmin.toList).closeAll f.pSIDEveryone.toList
    acls := f.acls.closeAll f.pACL.toList
    tokens := f.tokens.closeAll f.hToken.toList }

end Frame

/-- `TakeOwnership`: the frame in which it returns. -/
def takeOwnership (a : Answers) : Frame := (atLabel (Frame.start.body a)).cleanup

/-! ## Nothing left behind -/

/-- Behind every call that has enabled the privilege there is one that disables it. -/
def DisabledAfter (calls : List PrivilegeCall) : Prop :=
  ∀ before after, calls = before ++ ⟨true, true⟩ :: after →
    ∃ call ∈ after, call.bEnablePrivilege = false

/-- The frame in which the function returns leaves nothing behind, and the answer is honest. -/
structure LeavesNothing (f : Frame) : Prop where
  disabled : DisabledAfter f.privilegeCalls
  sids : f.sids.EachClosedOnce
  acls : f.acls.EachClosedOnce
  tokens : f.tokens.EachClosedOnce
  honest : f.bRetval = true → f.daclResults.getLast? = some errorSuccess

/-- The ladder comes to the first call of `SetPrivilege`. -/
def ComesToEnable (a : Answers) : Prop :=
  a.sidEveryone = true ∧ a.sidAdmin = true ∧ a.setEntriesInAcl = errorSuccess ∧
    a.firstDacl = errorAccessDenied ∧ a.openProcessToken = true

instance (a : Answers) : Decidable (ComesToEnable a) := inferInstanceAs (Decidable (_ ∧ _))

/-- The privilege is enabled, and the owner cannot be set. -/
def OwnerRefused (a : Answers) : Prop :=
  ComesToEnable a ∧ setPrivilege a.enablePrivilege = true ∧ a.setOwner ≠ errorSuccess

instance (a : Answers) : Decidable (OwnerRefused a) := inferInstanceAs (Decidable (_ ∧ _))

/-! ## What the variables hold -/

namespace Frame

/-- What the first `n` variables hold is all that is allocated, the others are still null, and no
DACL change has succeeded. -/
structure Stage (n : ℕ) (f : Frame) : Prop where
  sids : f.sids.Accounts (f.pSIDAdmin.toList ++ f.pSIDEveryone.toList)
  acls : f.acls.Accounts f.pACL.toList
  tokens : f.tokens.Accounts f.hToken.toList
  pSIDEveryone : n ≤ 0 → f.pSIDEveryone = none
  pSIDAdmin : n ≤ 1 → f.pSIDAdmin = none
  pACL : n ≤ 2 → f.pACL = none
  hToken : n ≤ 3 → f.hToken = none
  bRetval : f.bRetval = false

/-- What holds at the label. -/
structure Ready (f : Frame) : Prop where
  sids : f.sids.Accounts (f.pSIDAdmin.toList ++ f.pSIDEveryone.toList)
  acls : f.acls.Accounts f.pACL.toList
  tokens : f.tokens.Accounts f.hToken.toList
  honest : f.bRetval = true → f.daclResults.getLast? = some errorSuccess

variable {a : Answers} {answers : PrivilegeAnswers} {bEnablePrivilege : Bool} {n : ℕ} {f : Frame}

theorem stage_start : Stage 0 start where
  sids := Handles.accounts_empty
  acls := Handles.accounts_empty
  tokens := Handles.accounts_empty
  pSIDEveryone _ := rfl
  pSIDAdmin _ := rfl
  pACL _ := rfl
  hToken _ := rfl
  bRetval := rfl

theorem Stage.ready (h : Stage n f) : Ready f where
  sids := h.sids
  acls := h.acls
  tokens := h.tokens
  honest htrue := by
    rw [h.bRetval] at htrue
    contradiction

theorem leads_allocateEveryone : Leads (Stage 0) (allocateEveryone a) (Stage 1) Ready := by
  refine .ite (fun f _ h => ?_) fun f _ h => h.ready
  have hsids := h.sids
  rw [h.pSIDEveryone (Nat.le_refl 0), h.pSIDAdmin (by omega)] at hsids
  refine ⟨?_, h.acls, h.tokens, by omega, fun _ => h.pSIDAdmin (by omega),
    fun _ => h.pACL (by omega), fun _ => h.hToken (by omega), h.bRetval⟩
  show f.sids.create.Accounts (f.pSIDAdmin.toList ++ [f.sids.opened])
  rw [h.pSIDAdmin (by omega)]
  exact hsids.create

theorem leads_allocateAdmin : Leads (Stage 1) (allocateAdmin a) (Stage 2) Ready := by
  refine .ite (fun f _ h => ?_) fun f _ h => h.ready
  have hsids := h.sids
  rw [h.pSIDAdmin (Nat.le_refl 1)] at hsids
  exact ⟨hsids.create, h.acls, h.tokens, by omega, by omega, fun _ => h.pACL (by omega),
    fun _ => h.hToken (by omega), h.bRetval⟩

theorem leads_setEntries : Leads (Stage 2) (setEntries a) (Stage 3) Ready := by
  refine .ite (fun f _ h => ?_) fun f _ h => h.ready
  have hacls := h.acls
  rw [h.pACL (Nat.le_refl 2)] at hacls
  exact ⟨h.sids, hacls.create, h.tokens, by omega, by omega, by omega,
    fun _ => h.hToken (by omega), h.bRetval⟩

theorem Stage.setDacl (h : Stage n f) (dwRes : ℕ) : Stage n (f.setDacl dwRes) :=
  ⟨h.sids, h.acls, h.tokens, h.pSIDEveryone, h.pSIDAdmin, h.pACL, h.hToken, h.bRetval⟩

/-- A change of the DACL that succeeds makes the answer `TRUE`. -/
theorem Stage.changed (h : Stage n f) {dwRes : ℕ} (hres : dwRes = errorSuccess) :
    Ready { f.setDacl dwRes with bRetval := true } where
  sids := h.sids
  acls := h.acls
  tokens := h.tokens
  honest _ := by
    show (f.daclResults ++ [dwRes]).getLast? = some errorSuccess
    rw [List.getLast?_concat, hres]

theorem leads_firstDacl : Leads (Stage 3) (firstDacl a) (Stage 3) Ready := by
  unfold firstDacl
  by_cases hsuccess : a.firstDacl = errorSuccess
  · simp only [if_pos hsuccess]
    constructor
    · intro f g h hres
      contradiction
    · intro f g h hres
      exact Except.error.inj hres ▸ h.changed hsuccess
  · simp only [if_neg hsuccess]
    by_cases hdenied : a.firstDacl = errorAccessDenied
    · simp only [hdenied, ne_eq, not_true, if_false]
      constructor
      · intro f g h hres
        exact Except.ok.inj hres ▸ h.setDacl _
      · intro f g h hres
        contradiction
    · simp only [ne_eq, hdenied, not_false_iff, if_true]
      constructor
      · intro f g h hres
        contradiction
      · intro f g h hres
        exact Except.error.inj hres ▸ (h.setDacl _).ready

theorem leads_openToken : Leads (Stage 3) (openToken a) (Stage 4) Ready := by
  refine .ite (fun f _ h => ?_) fun f _ h => h.ready
  have htokens := h.tokens
  rw [h.hToken (Nat.le_refl 3)] at htokens
  exact ⟨h.sids, h.acls, htokens.create, by omega, by omega, by omega, by omega, h.bRetval⟩

theorem leads_callSetPrivilege :
    Leads (Stage 4) (callSetPrivilege answers bEnablePrivilege) (Stage 4) Ready := by
  refine .ite (fun f _ h => ?_) fun f _ h => ?_
  · exact ⟨h.sids, h.acls, h.tokens, h.pSIDEveryone, h.pSIDAdmin, h.pACL, h.hToken, h.bRetval⟩
  · exact ⟨h.sids, h.acls, h.tokens, h.ready.honest⟩

theorem leads_setOwner : Leads (Stage 4) (setOwner a) (Stage 4) Ready :=
  .ite (fun _ _ h => h) fun _ _ h => h.ready

theorem leads_secondDacl : Leads (Stage 4) (secondDacl a) Ready Ready := by
  unfold secondDacl
  by_cases hsuccess : a.secondDacl = errorSuccess
  · simp only [if_pos hsuccess]
    constructor
    · intro f g h hres
      exact Except.ok.inj hres ▸ h.changed hsuccess
    · intro f g h hres
      contradiction
  · simp only [if_neg hsuccess]
    constructor
    · intro f g h hres
      exact Except.ok.inj hres ▸ (h.setDacl _).ready
    · intro f g h hres
      contradiction

/-- However the label is come to, the variables hold what is allocated. -/
theorem leads_body : Leads (Stage 0) (body a) Ready Ready :=
  leads_allocateEveryone.bind <| leads_allocateAdmin.bind <| leads_setEntries.bind <|
    leads_firstDacl.bind <| leads_openToken.bind <| leads_callSetPrivilege.bind <|
    leads_setOwner.bind <| leads_callSetPrivilege.bind leads_secondDacl

/-- The code behind the label releases what the variables hold. -/
theorem Ready.cleanup (h : Ready f) : f.cleanup.sids.EachClosedOnce ∧
    f.cleanup.acls.EachClosedOnce ∧ f.cleanup.tokens.EachClosedOnce := by
  have hsids := h.sids
  rw [← List.append_nil (f.pSIDAdmin.toList ++ f.pSIDEveryone.toList), List.append_assoc] at hsids
  have hacls := h.acls
  rw [← List.append_nil f.pACL.toList] at hacls
  have htokens := h.tokens
  rw [← List.append_nil f.hToken.toList] at htokens
  exact ⟨hsids.closeAll.closeAll.eachClosedOnce_iff.mpr rfl,
    hacls.closeAll.eachClosedOnce_iff.mpr rfl, htokens.closeAll.eachClosedOnce_iff.mpr rfl⟩

end Frame

theorem ready_atLabel (a : Answers) : (atLabel (Frame.start.body a)).Ready :=
  Frame.leads_body.atLabel Frame.stage_start

/-! ## The calls of `SetPrivilege` -/

section Calls

variable {a : Answers}

/-- The ladder up to the first call of `SetPrivilege`. -/
def Frame.climb (a : Answers) (f : Frame) : Except Frame Frame := do
  let f ← f.allocateEveryone a
  let f ← f.allocateAdmin a
  let f ← f.setEntries a
  let f ← f.firstDacl a
  f.openToken a

/-- The ladder from the first call of `SetPrivilege` on. -/
def Frame.takeOver (a : Answers) (f : Frame) : Except Frame Frame := do
  let f ← f.callSetPrivilege a.enablePrivilege true
  let f ← f.setOwner a
  let f ← f.callSetPrivilege a.disablePrivilege false
  f.secondDacl a

theorem body_eq (f : Frame) : f.body a = f.climb a >>= Frame.takeOver a := by
  unfold Frame.body Frame.climb
  simp only [bind_assoc]
  rfl

theorem climb_of_comesToEnable (h : ComesToEnable a) :
    ∃ f, Frame.start.climb a = .ok f ∧ f.privilegeCalls = [] := by
  obtain ⟨heveryone, hadmin, hentries, hdenied, htoken⟩ := h
  have hfailed : a.firstDacl ≠ errorSuccess := hdenied ▸ by decide
  unfold Frame.climb Frame.allocateEveryone Frame.allocateAdmin Frame.setEntries Frame.firstDacl
    Frame.openToken
  simp only [if_pos heveryone, if_pos hadmin, if_pos hentries, if_neg hfailed,
    if_neg (not_not.mpr hdenied), if_pos htoken]
  exact ⟨_, rfl, rfl⟩

theorem climb_of_not_comesToEnable (h : ¬ ComesToEnable a) :
    ∃ f, Frame.start.climb a = .error f ∧ f.privilegeCalls = [] := by
  unfold Frame.climb Frame.allocateEveryone Frame.allocateAdmin Frame.setEntries Frame.firstDacl
    Frame.openToken
  by_cases heveryone : a.sidEveryone
  · by_cases hadmin : a.sidAdmin
    · by_cases hentries : a.setEntriesInAcl = errorSuccess
      · by_cases hsuccess : a.firstDacl = errorSuccess
        · simp only [if_pos heveryone, if_pos hadmin, if_pos hentries, if_pos hsuccess]
          exact ⟨_, rfl, rfl⟩
        · by_cases hdenied : a.firstDacl = errorAccessDenied
          · have htoken : ¬ a.openProcessToken :=
              fun htoken => h ⟨heveryone, hadmin, hentries, hdenied, htoken⟩
            simp only [if_pos heveryone, if_pos hadmin, if_pos hentries, if_neg hsuccess,
              if_neg (not_not.mpr hdenied), if_neg htoken]
            exact ⟨_, rfl, rfl⟩
          · simp only [if_pos heveryone, if_pos hadmin, if_pos hentries, if_neg hsuccess,
              if_pos hdenied]
            exact ⟨_, rfl, rfl⟩
      · simp only [if_pos heveryone, if_pos hadmin, if_neg hentries]
        exact ⟨_, rfl, rfl⟩
    · simp only [if_pos heveryone, if_neg hadmin]
      exact ⟨_, rfl, rfl⟩
  · simp only [if_neg heveryone]
    exact ⟨_, rfl, rfl⟩

/-- The calls of `SetPrivilege` from the first on. -/
def laterCalls (a : Answers) : List PrivilegeCall :=
  ⟨true, setPrivilege a.enablePrivilege⟩ ::
    if setPrivilege a.enablePrivilege = true ∧ a.setOwner = errorSuccess then
      [⟨false, setPrivilege a.disablePrivilege⟩]
    else []

theorem laterCalls_of_owner (henable : setPrivilege a.enablePrivilege = true)
    (howner : a.setOwner = errorSuccess) :
    laterCalls a = [⟨true, setPrivilege a.enablePrivilege⟩,
      ⟨false, setPrivilege a.disablePrivilege⟩] := by
  rw [laterCalls, if_pos ⟨henable, howner⟩]

theorem laterCalls_of_not
    (h : ¬ (setPrivilege a.enablePrivilege = true ∧ a.setOwner = errorSuccess)) :
    laterCalls a = [⟨true, setPrivilege a.enablePrivilege⟩] := by
  rw [laterCalls, if_neg h]

theorem privilegeCalls_takeOver {f : Frame} (hf : f.privilegeCalls = []) :
    (atLabel (f.takeOver a)).privilegeCalls = laterCalls a := by
  unfold Frame.takeOver Frame.callSetPrivilege Frame.setOwner Frame.secondDacl
  by_cases henable : setPrivilege a.enablePrivilege
  · by_cases howner : a.setOwner = errorSuccess
    · rw [laterCalls_of_owner henable howner]
      by_cases hdisable : setPrivilege a.disablePrivilege
      · by_cases hdacl : a.secondDacl = errorSuccess
        · simp only [if_pos henable, if_pos howner, if_pos hdisable, if_pos hdacl, hf]
          rfl
        · simp only [if_pos henable, if_pos howner, if_pos hdisable, if_neg hdacl, hf]
          rfl
      · simp only [if_pos henable, if_pos howner, if_neg hdisable, hf]
        rfl
    · rw [laterCalls_of_not fun h => howner h.2]
      simp only [if_pos henable, if_neg howner, hf]
      rfl
  · rw [laterCalls_of_not fun h => henable h.1]
    simp only [if_neg henable, hf]
    rfl

/-- The calls of `SetPrivilege`. -/
theorem privilegeCalls_takeOwnership :
    (takeOwnership a).privilegeCalls = if ComesToEnable a then laterCalls a else [] := by
  show (atLabel (Frame.start.body a)).privilegeCalls = _
  rw [body_eq]
  by_cases h : ComesToEnable a
  · obtain ⟨f, hclimb, hcalls⟩ := climb_of_comesToEnable h
    rw [hclimb, if_pos h]
    exact privilegeCalls_takeOver hcalls
  · obtain ⟨f, hclimb, hcalls⟩ := climb_of_not_comesToEnable h
    rw [hclimb, if_neg h]
    exact hcalls

/-! ## When the privilege stays -/

theorem disabledAfter_nil : DisabledAfter [] := by
  intro before after h
  exact absurd h (by simp)

/-- A first call that enables nothing does not matter. -/
theorem disabledAfter_singleton_iff (returned : Bool) :
    DisabledAfter [⟨true, returned⟩] ↔ returned = false := by
  constructor
  · intro h
    cases returned with
    | false => rfl
    | true =>
      obtain ⟨call, hmem, -⟩ := h [] [] rfl
      exact absurd hmem List.not_mem_nil
  · intro hfalse before after h
    rw [hfalse] at h
    have hmem : (⟨true, true⟩ : PrivilegeCall) ∈ [⟨true, false⟩] := h ▸ by simp
    exact absurd hmem (by decide)

theorem disabledAfter_pair (returned : Bool) :
    DisabledAfter [⟨true, true⟩, ⟨false, returned⟩] := by
  intro before after h
  match before with
  | [] =>
    rw [List.nil_append, List.cons.injEq] at h
    exact ⟨⟨false, returned⟩, h.2 ▸ List.mem_singleton_self _, rfl⟩
  | [call] => exact absurd (congrArg (·[1]?) h) (by simp)
  | _ :: _ :: before => exact absurd (congrArg List.length h) (by simp)

theorem disabledAfter_laterCalls_iff : DisabledAfter (laterCalls a) ↔
    ¬ (setPrivilege a.enablePrivilege = true ∧ a.setOwner ≠ errorSuccess) := by
  by_cases henable : setPrivilege a.enablePrivilege = true
  · by_cases howner : a.setOwner = errorSuccess
    · rw [laterCalls_of_owner henable howner, henable]
      exact iff_of_true (disabledAfter_pair _) fun h => h.2 howner
    · rw [laterCalls_of_not fun h => howner h.2, disabledAfter_singleton_iff, henable]
      exact iff_of_false (by decide) (not_not.mpr ⟨rfl, howner⟩)
  · rw [laterCalls_of_not fun h => henable h.1, disabledAfter_singleton_iff]
    exact iff_of_true (Bool.eq_false_iff.mpr henable) fun h => henable h.1

/-- **When nothing is left behind.** The jump behind the refused owner passes the call that
disables the privilege. -/
theorem leavesNothing_iff (a : Answers) :
    LeavesNothing (takeOwnership a) ↔ ¬ OwnerRefused a := by
  have hready := ready_atLabel a
  have hcalls := privilegeCalls_takeOwnership (a := a)
  have hdisabled : DisabledAfter (takeOwnership a).privilegeCalls ↔ ¬ OwnerRefused a := by
    rw [hcalls]
    by_cases h : ComesToEnable a
    · rw [if_pos h, disabledAfter_laterCalls_iff]
      exact not_congr ⟨fun hlater => ⟨h, hlater⟩, And.right⟩
    · rw [if_neg h]
      exact iff_of_true disabledAfter_nil fun hrefused => h hrefused.1
  constructor
  · intro h
    exact hdisabled.mp h.disabled
  · intro h
    obtain ⟨hsids, hacls, htokens⟩ := hready.cleanup
    exact ⟨hdisabled.mpr h, hsids, hacls, htokens, hready.honest⟩

end Calls

/-- The file is owned by someone else, and its owner may not be changed either. -/
theorem not_leavesNothing_refused :
    ¬ LeavesNothing (takeOwnership
      ⟨true, true, 0, 5, true, ⟨true, true, 0⟩, 5, ⟨true, true, 0⟩, 0⟩) := by
  intro h
  obtain ⟨call, hmem, -⟩ := h.disabled [] [] (by decide)
  exact absurd hmem List.not_mem_nil

end Win32Experiments.TakingOwnership
