import Mathlib.Data.Int.Basic
import Mathlib.Tactic.Common

/-!
# The in-process server `basic-com`

The objects that the DLL has created, in the order of their creation, with their counts and with
the references that clients hold on them. A step is a call of an exported function or of a method
of an object that the client holds a reference on.
-/

namespace Win32Experiments.BasicCom

/-- `GUID`. -/
structure GUID where
  data1 : UInt32
  data2 : UInt16
  data3 : UInt16
  data4 : List UInt8
deriving DecidableEq, Repr

def IID_IUnknown : GUID := ⟨0, 0, 0, [0xc0, 0, 0, 0, 0, 0, 0, 0x46]⟩

def IID_IClassFactory : GUID := ⟨1, 0, 0, [0xc0, 0, 0, 0, 0, 0, 0, 0x46]⟩

def IID_IAdd : GUID :=
  ⟨0x1221db62, 0xf3d8, 0x11d4, [0x82, 0x5d, 0x00, 0x10, 0x4b, 0x36, 0x46, 0xc0]⟩

/-- `CAddObj::CLSID_AddObject`. -/
def CLSID_AddObject : GUID :=
  ⟨0x92e7a9c2, 0xf4cb, 0x11d4, [0x82, 0x5d, 0x0, 0x10, 0x4b, 0x36, 0x46, 0xc0]⟩

/-- The codes that the functions return. -/
inductive HRESULT
  | S_OK
  | S_FALSE
  | E_NOINTERFACE
  | E_OUTOFMEMORY
  | CLASS_E_NOAGGREGATION
  | CLASS_E_CLASSNOTAVAILABLE
deriving DecidableEq, Repr

/-- `FAILED`. -/
def HRESULT.failed : HRESULT → Bool
  | .S_OK => false
  | .S_FALSE => false
  | _ => true

/-- The classes of the DLL. -/
inductive Class
  | CAddFactory
  | CAddObj
deriving DecidableEq, Repr

/-- The interface ids that `QueryInterface` of the class knows. -/
def Class.supports : Class → GUID → Bool
  | .CAddFactory, iid => iid = IID_IUnknown || iid = IID_IClassFactory
  | .CAddObj, iid => iid = IID_IUnknown || iid = IID_IAdd

/-- An object: its count, what the count was when the object was constructed, whether
`delete this` has been run; what the call that created the object returned, and how many
references clients hold. -/
structure Object where
  cls : Class
  m_nRefCount : UInt32
  constructed : UInt32
  destroyed : Bool
  created : HRESULT
  references : ℕ
deriving DecidableEq, Repr

/-- What a call returns, and the object that it hands out a reference on. -/
structure Result where
  hr : HRESULT
  reference : Option ℕ
deriving DecidableEq, Repr

/-- The DLL, and the record of the run: the results of the calls that hand out references, and
what `DllCanUnloadNow` returned, with whether no object was alive then. -/
structure Server where
  objects : List Object
  g_nComObjsInUse : ℤ
  results : List Result
  unloads : List (HRESULT × Bool)
deriving DecidableEq, Repr

def Server.init : Server :=
  { objects := [], g_nComObjsInUse := 0, results := [], unloads := [] }

/-- What `new` does: it constructs an object in memory that held `memory` where the count is,
returns a null pointer or throws. -/
inductive Allocation
  | object (memory : UInt32)
  | null
  | throws
deriving DecidableEq, Repr

/-- The count of a new object: `CAddFactory` does not initialise its. -/
def Class.refCount : Class → UInt32 → UInt32
  | .CAddFactory, memory => memory
  | .CAddObj, _ => 0

/-! ## Methods of an object -/

/-- `AddRef`. -/
def Object.addRef (o : Object) : Object := { o with m_nRefCount := o.m_nRefCount + 1 }

/-- `Release`. -/
def Object.release (o : Object) : Object :=
  { o with m_nRefCount := o.m_nRefCount - 1, destroyed := o.m_nRefCount - 1 = 0 }

/-- `QueryInterface`. -/
def Object.queryInterface (o : Object) (iid : GUID) : HRESULT × Object :=
  if o.cls.supports iid then (.S_OK, o.addRef) else (.E_NOINTERFACE, o)

/-! ## Calls -/

/-- A call; those of a method name the object. -/
inductive Call
  | DllGetClassObject (clsid iid : GUID) (allocation : Allocation)
  | CreateInstance (factory : ℕ) (outer : Bool) (iid : GUID) (allocation : Allocation)
  | QueryInterface (i : ℕ) (iid : GUID)
  | AddRef (i : ℕ)
  | Release (i : ℕ)
  | DllCanUnloadNow
deriving DecidableEq, Repr

section

variable (s : Server)

/-- The call returns without a reference. -/
def Server.fails (hr : HRESULT) : Server :=
  { s with results := s.results ++ [⟨hr, none⟩] }

/-- `new` and `QueryInterface` on the new object. -/
def Server.create (cls : Class) (iid : GUID) : Allocation → Server
  | .throws => s
  | .null => s.fails .E_OUTOFMEMORY
  | .object memory =>
    let count := cls.refCount memory
    let (hr, o) := Object.queryInterface ⟨cls, count, count, false, .S_OK, 0⟩ iid
    if hr = .S_OK then
      { s with
        objects := s.objects ++ [{ o with created := hr, references := 1 }]
        results := s.results ++ [⟨hr, some s.objects.length⟩] }
    else
      { s with
        objects := s.objects ++ [{ o with created := hr }]
        results := s.results ++ [⟨hr, none⟩] }

/-- `DllGetClassObject`. -/
def Server.dllGetClassObject (clsid iid : GUID) (allocation : Allocation) : Server :=
  if clsid = CLSID_AddObject then s.create .CAddFactory iid allocation
  else s.fails .CLASS_E_CLASSNOTAVAILABLE

/-- `CAddFactory::CreateInstance`. -/
def Server.createInstance (outer : Bool) (iid : GUID) (allocation : Allocation) : Server :=
  if outer then s.fails .CLASS_E_NOAGGREGATION else s.create .CAddObj iid allocation

/-- `DllCanUnloadNow`. -/
def Server.dllCanUnloadNow : Server :=
  let hr := if s.g_nComObjsInUse = 0 then HRESULT.S_OK else .S_FALSE
  { s with unloads := s.unloads ++ [(hr, s.objects.all Object.destroyed)] }

/-- The object `i`, when a client holds a reference on it and it has not been destroyed. -/
def Server.held (i : ℕ) : Option Object :=
  s.objects[i]?.filter fun o => 0 < o.references && !o.destroyed

/-- A method of the object `i` has changed it. -/
def Server.setObject (i : ℕ) (o : Object) : Server := { s with objects := s.objects.set i o }

/-- A step of the clients. They call methods of objects that they hold a reference on. -/
def Server.step (s : Server) : Call → Option Server
  | .DllGetClassObject clsid iid allocation => some (s.dllGetClassObject clsid iid allocation)
  | .CreateInstance factory outer iid allocation =>
    (s.held factory).bind fun o =>
      if o.cls = .CAddFactory then some (s.createInstance outer iid allocation) else none
  | .QueryInterface i iid =>
    (s.held i).map fun o =>
      let (hr, o) := o.queryInterface iid
      if hr = .S_OK then
        { s.setObject i { o with references := o.references + 1 } with
          results := s.results ++ [⟨hr, some i⟩] }
      else { s.setObject i o with results := s.results ++ [⟨hr, none⟩] }
  | .AddRef i =>
    (s.held i).map fun o => s.setObject i { o.addRef with references := o.references + 1 }
  | .Release i =>
    (s.held i).map fun o => s.setObject i { o.release with references := o.references - 1 }
  | .DllCanUnloadNow => some s.dllCanUnloadNow

end

end Win32Experiments.BasicCom
