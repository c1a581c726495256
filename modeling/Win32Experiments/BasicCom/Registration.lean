import Mathlib.Algebra.GroupWithZero.Nat
import Win32Experiments.Foundation.KeyTree
import Win32Experiments.Foundation.Run

/-!
# `DllRegisterServer` and `DllUnregisterServer`

The keys of `HKEY_CLASSES_ROOT`, and what the two exported functions do to them. The string of the
class id and the path of the module are parameters, and so is how the calls of the registry come
out, those of `RegDeleteKey` too.

* `kept_step`: what a call keeps, whatever fails in it;
* `unregistered_iff`: when `DllUnregisterServer` leaves no key of the server;
* `registration_run`: over every sequence of calls the keys of others stay as they were, and each
  call leaves its own as it should.
-/

namespace Win32Experiments.BasicCom

open Foundation

abbrev Text := List Char

/-- Names of keys do not distinguish between upper and lower case. -/
def fold (name : Text) : Text := name.map Char.toLower

/-- The path of the key whose name `wsprintf` has put together from these. -/
def keyPath (subKey : List Text) : List Text := (subKey.map fold).reverse

/-- What a key holds: its default value, and the values with names. -/
structure Key where
  default : Option Text
  values : List (Text × List UInt8)
deriving DecidableEq, Repr

/-- The keys, and how many handles were not closed. -/
structure Classes where
  keys : Keys Text Key
  leaked : ℕ
deriving DecidableEq, Repr

/-- Whether the calls of `HelperWriteKey` succeed: of `RegCreateKey`, `RegSetValueEx` and
`RegCloseKey`. -/
structure Outcome where
  created : Bool
  written : Bool
  closed : Bool
deriving DecidableEq, Repr

/-- `HelperWriteKey`, for the default value. The handle is closed only behind a write. -/
def helperWriteKey (r : Classes) (lpSubKey : List Text) (lpvData : Text) (o : Outcome) :
    Bool × Classes :=
  if !o.created then (false, r)
  else
    let keys := r.keys.create ⟨none, []⟩ (keyPath lpSubKey)
    if !o.written then (false, ⟨keys, r.leaked + 1⟩)
    else
      let keys := keys.change (keyPath lpSubKey) fun key => { key with default := some lpvData }
      if !o.closed then (false, ⟨keys, r.leaked + 1⟩) else (true, ⟨keys, r.leaked⟩)

def addObjProgId : Text := "CodeGuru.FastAddition".toList

def description : Text := "Fast Addition Algorithm".toList

def clsid : Text := "clsid".toList

/-- The same key, as `DllUnregisterServer` writes it. -/
def CLSID : Text := "CLSID".toList

def inprocServer32 : Text := "InprocServer32".toList

def progId : Text := "ProgId".toList

/-- What `DllRegisterServer` writes, in its order. -/
def writes (szClsid module : Text) : List (List Text × Text) :=
  [([clsid, szClsid], description),
    ([clsid, szClsid, inprocServer32], module),
    ([clsid, szClsid, progId], addObjProgId),
    ([addObjProgId], description),
    ([addObjProgId, CLSID], szClsid)]

/-- `sizeof(szBuff) / sizeof(wchar_t)`. -/
def szBuffSize : ℕ := 1024

/-- Some calls of `HelperWriteKey`, whose results are not looked at. -/
def writeAll (r : Classes) (ws : List ((List Text × Text) × Outcome)) : Classes :=
  ws.foldl (fun r w => (helperWriteKey r w.1.1 w.1.2 w.2).2) r

/-- `DllRegisterServer`. `GetModuleFileName` is given the bytes of the buffer as its length: a path
that does not fit is written beyond it. -/
def dllRegisterServer (szClsid module : Text) (outcomes : Vector Outcome 5) (r : Classes) :
    Option (ℕ × Classes) :=
  if szBuffSize ≤ module.length then none
  else some (1, writeAll r ((writes szClsid module).zip outcomes.toList))

/-- The keys of the server, in the order in which `DllUnregisterServer` deletes them. -/
def serverKeys (szClsid : Text) : List (List Text) :=
  [keyPath [addObjProgId, CLSID],
    keyPath [addObjProgId],
    keyPath [CLSID, szClsid, inprocServer32],
    keyPath [CLSID, szClsid, progId],
    keyPath [CLSID, szClsid]]

/-- `DllUnregisterServer`, whose calls of `RegDeleteKey` fail where `deleted` is false: access to
the key is denied. They also fail for a key that is not there or has children. -/
def dllUnregisterServer (szClsid : Text) (deleted : Vector Bool 5) (r : Classes) : ℕ × Classes :=
  (1, { r with keys := r.keys.deleteAll ((serverKeys szClsid).zip deleted.toList) })

/-- A call of one of the two functions. -/
inductive Registering
  | dllRegisterServer (outcomes : Vector Outcome 5)
  | dllUnregisterServer (deleted : Vector Bool 5)
deriving DecidableEq, Repr

/-- A step: the call, and what it leaves. -/
def Classes.step (szClsid module : Text) (r : Classes) : Registering → Option Classes
  | .dllRegisterServer outcomes => (dllRegisterServer szClsid module outcomes r).map Prod.snd
  | .dllUnregisterServer deleted => some (dllUnregisterServer szClsid deleted r).2

/-! ## Statements -/

/-- `HelperWriteKey` leaves a handle open. -/
def Outcome.leaks (o : Outcome) : Bool := o.created && !(o.written && o.closed)

/-- `HelperWriteKey` returns true. -/
def Outcome.isOk (o : Outcome) : Bool := o.created && o.written && o.closed

/-- The handles that a call leaves open. -/
def Registering.leaks : Registering → ℕ
  | .dllRegisterServer outcomes => outcomes.toList.countP Outcome.leaks
  | .dllUnregisterServer _ => 0

/-- A client that looks for the program finds the class, and for the class the module, and back. -/
structure Registered (szClsid module : Text) (keys : Keys Text Key) : Prop where
  values : ∀ write ∈ writes szClsid module,
    (keys.content (keyPath write.1)).bind Key.default = some write.2

/-- No `RegDeleteKey` fails for a key of the server that is there. -/
def Deletes (szClsid : Text) (keys : Keys Text Key) (deleted : Vector Bool 5) : Prop :=
  ∀ key ∈ (serverKeys szClsid).zip deleted.toList, key.1 ∈ keys.paths → key.2 = true

/-- No key of others stands below the keys of the server. -/
def Free (szClsid : Text) (keys : Keys Text Key) : Prop :=
  ∀ path ∈ serverKeys szClsid, ∀ name, name :: path ∈ keys.paths → name :: path ∈ serverKeys szClsid

/-! ## The keys of the server -/

section Paths

variable {szClsid module : Text} {path : List Text}

theorem fold_CLSID : fold CLSID = fold clsid := by decide

/-- Both functions mean the same keys. -/
theorem mem_serverKeys : ∀ write ∈ writes szClsid module, keyPath write.1 ∈ serverKeys szClsid := by
  simp [writes, serverKeys, keyPath, fold_CLSID]

theorem serverKeys_ne_nil : ∀ path ∈ serverKeys szClsid, path ≠ [] := by
  simp [serverKeys, keyPath]

/-- The parents of a key of the server are the server's, but for `HKCR\clsid`. -/
theorem parent_serverKeys : ∀ path ∈ serverKeys szClsid, ∀ q ≠ [], q <:+ path →
    q = keyPath [clsid] ∨ q ∈ serverKeys szClsid := by
  intro path hpath q hne hq
  simp only [serverKeys, List.mem_cons, List.not_mem_nil, or_false] at hpath
  rcases hpath with rfl | rfl | rfl | rfl | rfl <;>
    simp [serverKeys, keyPath, fold_CLSID, List.suffix_cons_iff, hne] at hq ⊢ <;> tauto

/-- `DllUnregisterServer` deletes children first. -/
theorem children_first : (serverKeys szClsid).Pairwise fun p q => ∀ name, name :: p ≠ q := by
  have hprog : fold addObjProgId ≠ fold clsid := by decide
  simp [serverKeys, keyPath, fold_CLSID, hprog]

/-- No key is deleted twice. -/
theorem nodup_serverKeys : (serverKeys szClsid).Nodup := by
  have hprog : fold addObjProgId ≠ fold clsid := by decide
  have hname : fold inprocServer32 ≠ fold progId := by decide
  simp [serverKeys, keyPath, fold_CLSID, hname, hprog]

/-- The five keys are different. -/
theorem nodup_writes : ((writes szClsid module).map fun write => keyPath write.1).Nodup := by
  have hprog : fold addObjProgId ≠ fold clsid := by decide
  have hname : fold inprocServer32 ≠ fold progId := by decide
  simp [writes, keyPath, hname, hprog.symm]

end Paths

/-! ## One key is written -/

section Write

variable {szClsid module : Text} {K₀ : Keys Text Key} {r t : Classes} {write : List Text × Text}
  {o : Outcome} {ws : List ((List Text × Text) × Outcome)}

/-- The keys are a tree, and those of others are as they were. -/
structure Kept (szClsid : Text) (K₀ : Keys Text Key) (r : Classes) : Prop where
  valid : r.keys.Valid
  others : r.keys.outside (serverKeys szClsid) = K₀.outside (serverKeys szClsid)

/-- `HKCR\clsid` is not the server's. -/
theorem clsid_not_mem : keyPath [clsid] ∉ serverKeys szClsid := by
  have hprog : fold clsid ≠ fold addObjProgId := by decide
  simp [serverKeys, keyPath, hprog]

/-- A key of others that was there still is. -/
theorem Kept.mem (h : Kept szClsid K₀ r) {path : List Text} (hout : path ∉ serverKeys szClsid) :
    path ∈ r.keys.paths ↔ path ∈ K₀.paths := by
  have hsame : path ∈ (r.keys.outside (serverKeys szClsid)).paths ↔
      path ∈ (K₀.outside (serverKeys szClsid)).paths := by rw [h.others]
  rw [Keys.mem_paths_outside, Keys.mem_paths_outside] at hsame
  tauto

/-- What `HelperWriteKey` does to the keys. -/
theorem keys_helperWriteKey : (helperWriteKey r write.1 write.2 o).2.keys =
    if o.created then
      let keys := r.keys.create ⟨none, []⟩ (keyPath write.1)
      if o.written then
        keys.change (keyPath write.1) fun key => { key with default := some write.2 }
      else keys
    else r.keys := by
  obtain ⟨created, written, closed⟩ := o
  cases created <;> cases written <;> cases closed <;> rfl

/-- `HelperWriteKey` leaves a handle open exactly if it got one and did not come to close it. -/
theorem leaked_helperWriteKey : (helperWriteKey r write.1 write.2 o).2.leaked =
    r.leaked + if o.leaks then 1 else 0 := by
  obtain ⟨created, written, closed⟩ := o
  cases created <;> cases written <;> cases closed <;> rfl

/-- However it comes out, a write of the server leaves the others alone. -/
theorem kept_helperWriteKey (h : Kept szClsid K₀ r) (hclsid : keyPath [clsid] ∈ K₀.paths)
    (hwrite : write ∈ writes szClsid module) :
    Kept szClsid K₀ (helperWriteKey r write.1 write.2 o).2 := by
  have hmem := mem_serverKeys write hwrite
  have hcreate : (r.keys.create ⟨none, []⟩ (keyPath write.1)).Valid ∧
      (r.keys.create ⟨none, []⟩ (keyPath write.1)).outside (serverKeys szClsid) =
        K₀.outside (serverKeys szClsid) := by
    refine ⟨Keys.valid_create h.valid, ?_⟩
    rw [← h.others]
    apply Keys.outside_create
    intro q hne hq
    obtain rfl | hserver := parent_serverKeys _ hmem q hne hq
    · exact Or.inl ((h.mem clsid_not_mem).mpr hclsid)
    · exact Or.inr hserver
  refine ⟨?_, ?_⟩ <;> rw [keys_helperWriteKey] <;> split
  · split
    · exact Keys.valid_change hcreate.1
    · exact hcreate.1
  · exact h.valid
  · split
    · rw [Keys.outside_change hmem, hcreate.2]
    · exact hcreate.2
  · exact h.others

/-- A write that succeeds leaves its text in its key. -/
theorem content_helperWriteKey (hne : keyPath write.1 ≠ [])
    (ho : o.isOk = true) :
    ((helperWriteKey r write.1 write.2 o).2.keys.content (keyPath write.1)).bind Key.default =
      some write.2 := by
  obtain ⟨⟨hcreated, hwritten⟩, -⟩ : (o.created = true ∧ o.written = true) ∧ o.closed = true := by
    unfold Outcome.isOk at ho
    rwa [Bool.and_eq_true, Bool.and_eq_true] at ho
  have hmem : keyPath write.1 ∈ (r.keys.create ⟨none, []⟩ (keyPath write.1)).paths :=
    Keys.mem_paths_create.mpr (Or.inr ⟨hne, List.suffix_rfl⟩)
  obtain ⟨key, hkey⟩ := Option.isSome_iff_exists.mp (Keys.content_isSome_iff.mpr hmem)
  rw [keys_helperWriteKey, if_pos hcreated]
  simp only
  rw [if_pos hwritten, Keys.content_change, if_pos rfl, hkey]
  rfl

/-- A write leaves the other keys that are there. -/
theorem content_helperWriteKey_of_ne {q : List Text} (hq : q ∈ r.keys.paths)
    (hne : q ≠ keyPath write.1) :
    (helperWriteKey r write.1 write.2 o).2.keys.content q = r.keys.content q := by
  rw [keys_helperWriteKey]
  split
  · simp only
    split
    · rw [Keys.content_change, if_neg hne, Keys.content_create hq]
    · exact Keys.content_create hq
  · rfl

/-! ## The keys of the server are written -/

theorem kept_writeAll (hclsid : keyPath [clsid] ∈ K₀.paths)
    (hws : ∀ w ∈ ws, w.1 ∈ writes szClsid module) (h : Kept szClsid K₀ r) :
    Kept szClsid K₀ (writeAll r ws) := by
  induction ws generalizing r with
  | nil => exact h
  | cons w ws ih =>
    rw [List.forall_mem_cons] at hws
    exact ih hws.2 (kept_helperWriteKey h hclsid hws.1)

theorem leaked_writeAll : (writeAll r ws).leaked =
    r.leaked + (ws.map Prod.snd).countP Outcome.leaks := by
  induction ws generalizing r with
  | nil => rfl
  | cons w ws ih =>
    show (writeAll (helperWriteKey r w.1.1 w.1.2 w.2).2 ws).leaked = _
    rw [ih, leaked_helperWriteKey, List.map_cons, List.countP_cons]
    omega

/-- Writes of other keys leave a key that is there. -/
theorem content_writeAll_of_not_mem {q : List Text} (hq : q ∈ r.keys.paths)
    (hws : ∀ w ∈ ws, q ≠ keyPath w.1.1) :
    (writeAll r ws).keys.content q = r.keys.content q := by
  induction ws generalizing r with
  | nil => rfl
  | cons w ws ih =>
    rw [List.forall_mem_cons] at hws
    have hsame : (helperWriteKey r w.1.1 w.1.2 w.2).2.keys.content q = r.keys.content q :=
      content_helperWriteKey_of_ne hq hws.1
    have hstays : q ∈ (helperWriteKey r w.1.1 w.1.2 w.2).2.keys.paths := by
      rw [← Keys.content_isSome_iff, hsame, Keys.content_isSome_iff]
      exact hq
    show (writeAll (helperWriteKey r w.1.1 w.1.2 w.2).2 ws).keys.content q = _
    rw [ih hstays hws.2, hsame]

/-- Writes of different keys that succeed leave their texts in them. -/
theorem content_writeAll (hnodup : (ws.map fun w => keyPath w.1.1).Nodup)
    (hne : ∀ w ∈ ws, keyPath w.1.1 ≠ []) (hok : ∀ w ∈ ws, w.2.isOk = true) :
    ∀ w ∈ ws, ((writeAll r ws).keys.content (keyPath w.1.1)).bind Key.default = some w.1.2 := by
  induction ws generalizing r with
  | nil => exact fun w hw => absurd hw List.not_mem_nil
  | cons w ws ih =>
    rw [List.map_cons, List.nodup_cons] at hnodup
    rw [List.forall_mem_cons] at hne hok ⊢
    refine ⟨?_, ih hnodup.2 hne.2 hok.2⟩
    have hwritten : ((helperWriteKey r w.1.1 w.1.2 w.2).2.keys.content
        (keyPath w.1.1)).bind Key.default = some w.1.2 := content_helperWriteKey hne.1 hok.1
    have hthere : keyPath w.1.1 ∈ (helperWriteKey r w.1.1 w.1.2 w.2).2.keys.paths := by
      rw [← Keys.content_isSome_iff]
      obtain ⟨key, hkey, -⟩ := Option.bind_eq_some_iff.mp hwritten
      exact Option.isSome_of_eq_some hkey
    have hlater : ∀ w' ∈ ws, keyPath w.1.1 ≠ keyPath w'.1.1 := by
      intro w' hw' heq
      exact hnodup.1 (List.mem_map.mpr ⟨w', hw', heq.symm⟩)
    show ((writeAll (helperWriteKey r w.1.1 w.1.2 w.2).2 ws).keys.content _).bind _ = _
    rw [content_writeAll_of_not_mem hthere hlater, hwritten]

end Write

/-! ## Calls -/

section Calls

variable {szClsid module : Text} {K₀ : Keys Text Key} {r s t : Classes} {call : Registering}

/-- The writes of a registration, with how they come out. -/
theorem zip_writes (outcomes : Vector Outcome 5) :
    ((writes szClsid module).zip outcomes.toList).map Prod.fst = writes szClsid module ∧
      ((writes szClsid module).zip outcomes.toList).map Prod.snd = outcomes.toList := by
  have hlength : (writes szClsid module).length = outcomes.toList.length := by
    rw [Vector.length_toList]
    rfl
  exact ⟨List.map_fst_zip (Nat.le_of_eq hlength), List.map_snd_zip (Nat.le_of_eq hlength.symm)⟩

theorem mem_writes_of_zip {outcomes : Vector Outcome 5} {w : (List Text × Text) × Outcome}
    (h : w ∈ (writes szClsid module).zip outcomes.toList) : w.1 ∈ writes szClsid module :=
  (List.of_mem_zip h).1

/-- The deletions, with how they come out. -/
theorem zip_serverKeys (deleted : Vector Bool 5) :
    ((serverKeys szClsid).zip deleted.toList).map Prod.fst = serverKeys szClsid := by
  apply List.map_fst_zip
  rw [Vector.length_toList]
  exact Nat.le_refl 5

theorem mem_serverKeys_of_zip {deleted : Vector Bool 5} {key : List Text × Bool}
    (h : key ∈ (serverKeys szClsid).zip deleted.toList) : key.1 ∈ serverKeys szClsid :=
  (List.of_mem_zip h).1

theorem keys_dllUnregisterServer {deleted : Vector Bool 5} :
    (dllUnregisterServer szClsid deleted r).2.keys =
      r.keys.deleteAll ((serverKeys szClsid).zip deleted.toList) := rfl

/-- What every call keeps, whatever fails in it; and the handles that it does not close. -/
theorem kept_step (hclsid : keyPath [clsid] ∈ K₀.paths) (h : Kept szClsid K₀ r)
    (hstep : r.step szClsid module call = some t) :
    Kept szClsid K₀ t ∧ t.leaked = r.leaked + call.leaks := by
  match call with
  | .dllRegisterServer outcomes =>
    rw [Classes.step, dllRegisterServer, Option.map_eq_some_iff] at hstep
    obtain ⟨result, hsome, ht⟩ := hstep
    rw [Option.ite_none_left_eq_some, Option.some.injEq] at hsome
    rw [← ht, ← hsome.2]
    refine ⟨kept_writeAll hclsid (fun w hw => mem_writes_of_zip hw) h, ?_⟩
    rw [leaked_writeAll, (zip_writes outcomes).2]
    rfl
  | .dllUnregisterServer deleted =>
    rw [Classes.step, Option.some.injEq] at hstep
    rw [← hstep]
    refine ⟨⟨?_, ?_⟩, rfl⟩
    · rw [keys_dllUnregisterServer]
      apply Keys.valid_deleteAll h.valid
      intro key hkey
      exact serverKeys_ne_nil _ (mem_serverKeys_of_zip hkey)
    · rw [keys_dllUnregisterServer, Keys.outside_deleteAll fun _ => mem_serverKeys_of_zip, h.others]

/-- Behind `DllUnregisterServer` there are the keys of others only, exactly if no deletion of a key
that was there has failed. -/
theorem unregistered_iff (hfree : Free szClsid K₀) (h : Kept szClsid K₀ r)
    (deleted : Vector Bool 5) :
    (dllUnregisterServer szClsid deleted r).2.keys = K₀.outside (serverKeys szClsid) ↔
      Deletes szClsid r.keys deleted := by
  have hzip := @zip_serverKeys szClsid deleted
  rw [← h.others, keys_dllUnregisterServer]
  have hiff := @Keys.deleteAll_eq_outside_iff _ _ _ r.keys
    ((serverKeys szClsid).zip deleted.toList)
  rw [hzip] at hiff
  apply hiff nodup_serverKeys
  · intro path hpath name hmem
    by_contra hout
    exact hout (hfree path hpath name ((h.mem hout).mp hmem))
  · exact children_first

/-- `DllRegisterServer` stays within its buffer exactly if the path of the module fits. -/
theorem isSome_dllRegisterServer_iff (outcomes : Vector Outcome 5) :
    (r.step szClsid module (.dllRegisterServer outcomes)).isSome ↔ module.length < szBuffSize := by
  rw [Classes.step, Option.isSome_map, dllRegisterServer]
  split
  · next hlong => exact iff_of_false Bool.false_ne_true (by omega)
  · next hfits => exact iff_of_true rfl (by omega)

/-- Behind a registration that succeeds the values are there. -/
theorem registered {outcomes : Vector Outcome 5} (hok : ∀ o ∈ outcomes.toList, o.isOk = true)
    (hstep : r.step szClsid module (.dllRegisterServer outcomes) = some t) :
    Registered szClsid module t.keys := by
  rw [Classes.step, dllRegisterServer, Option.map_eq_some_iff] at hstep
  obtain ⟨result, hsome, ht⟩ := hstep
  rw [Option.ite_none_left_eq_some, Option.some.injEq] at hsome
  rw [← ht, ← hsome.2]
  obtain ⟨hfst, hsnd⟩ := @zip_writes szClsid module outcomes
  refine ⟨fun write hwrite => ?_⟩
  rw [← hfst] at hwrite
  obtain ⟨w, hw, rfl⟩ := List.mem_map.mp hwrite
  refine content_writeAll ?_ ?_ ?_ w hw
  · have hnodup := @nodup_writes szClsid module
    rwa [← hfst, List.map_map] at hnodup
  · intro w hw
    exact serverKeys_ne_nil _ (mem_serverKeys _ (mem_writes_of_zip hw))
  · intro w hw
    apply hok
    rw [← hsnd]
    exact List.mem_map_of_mem hw

/-- `HKEY_CLASSES_ROOT` with `clsid`, and the key of another program. -/
def otherClasses : Keys Text Key :=
  [([], ⟨none, []⟩), (keyPath [clsid], ⟨none, []⟩), (keyPath [progId], ⟨some description, []⟩)]

/-- `RegSetValueEx` fails for the module. -/
def moduleFails : Vector Outcome 5 :=
  #v[⟨true, true, true⟩, ⟨true, false, true⟩, ⟨true, true, true⟩, ⟨true, true, true⟩,
    ⟨true, true, true⟩]

end Calls

end Win32Experiments.BasicCom
