import Win32Experiments.Foundation.Run
import Win32Experiments.Foundation.Threads
import Win32Experiments.BasicCom.Server

/-!
# Lifetimes of COM objects

The count of an object is what it was at construction and the references that clients hold. So
an object is destroyed with its last reference when the count started at zero; an object that
does not know the interface it was created for is never destroyed; and `DllCanUnloadNow` says
that no object is alive, whether one is or not.
-/

namespace Win32Experiments.BasicCom

open Foundation

/-! ## Statements -/

/-- An object is destroyed exactly when no reference is left, or when the call that created it
failed. -/
def Object.Managed (o : Object) : Prop :=
  if o.created.failed then o.destroyed = true else (o.destroyed = true ↔ o.references = 0)

instance (o : Object) : Decidable o.Managed :=
  inferInstanceAs (Decidable (if o.created.failed then o.destroyed = true
    else (o.destroyed = true ↔ o.references = 0)))

/-- Objects live as long as their references, calls that fail hand out none, and
`DllCanUnloadNow` returns `S_OK` exactly when no object is alive. -/
structure Lifetimes (s : Server) : Prop where
  objects : ∀ o ∈ s.objects, o.Managed
  results : ∀ result ∈ s.results, result.hr.failed → result.reference = none
  unloads : ∀ unload ∈ s.unloads, unload.1 = .S_OK ↔ unload.2 = true

/-- When a call keeps that. -/
def KeepsLifetimes (s : Server) : Call → Prop
  -- nothing is created, or it knows the interface
  | .DllGetClassObject clsid iid allocation =>
    clsid = CLSID_AddObject → allocation ≠ .null → allocation ≠ .throws →
      Class.CAddFactory.supports iid
  | .CreateInstance _ outer iid allocation =>
    outer = false → allocation ≠ .null → allocation ≠ .throws → Class.CAddObj.supports iid
  | .QueryInterface _ _ => True
  | .AddRef _ => True
  -- the references left make the count zero exactly when there are none
  | .Release i => ∀ o ∈ s.held i,
    o.constructed + UInt32.ofNat (o.references - 1) = 0 ↔ o.references = 1
  | .DllCanUnloadNow => s.objects.all Object.destroyed = true

instance (s : Server) : ∀ c : Call, Decidable (KeepsLifetimes s c)
  | .DllGetClassObject clsid iid allocation =>
    inferInstanceAs (Decidable (clsid = CLSID_AddObject → allocation ≠ .null →
      allocation ≠ .throws → Class.CAddFactory.supports iid))
  | .CreateInstance _ outer iid allocation =>
    inferInstanceAs (Decidable (outer = false → allocation ≠ .null → allocation ≠ .throws →
      Class.CAddObj.supports iid))
  | .QueryInterface _ _ => isTrue trivial
  | .AddRef _ => isTrue trivial
  | .Release i => inferInstanceAs (Decidable (∀ o ∈ s.held i,
    o.constructed + UInt32.ofNat (o.references - 1) = 0 ↔ o.references = 1))
  | .DllCanUnloadNow => inferInstanceAs (Decidable (s.objects.all Object.destroyed = true))

/-! ## The counts -/

/-- While the object is alive its count is that of its construction and its references; a
reference is only held on an object whose creation did not fail. -/
structure Object.Counted (o : Object) : Prop where
  count : o.destroyed = false → o.m_nRefCount = o.constructed + UInt32.ofNat o.references
  created : 0 < o.references → o.created.failed = false

/-- The invariant of all runs: `g_nComObjsInUse` is never changed. -/
structure Server.Inv (s : Server) : Prop where
  objects : ∀ o ∈ s.objects, o.Counted
  inUse : s.g_nComObjsInUse = 0
  results : ∀ result ∈ s.results, result.hr.failed → result.reference = none

theorem inv_init : Server.init.Inv where
  objects := by simp [Server.init]
  inUse := rfl
  results := by simp [Server.init]

theorem lifetimes_init : Lifetimes Server.init where
  objects := by simp [Server.init]
  results := by simp [Server.init]
  unloads := by simp [Server.init]

section

variable {s t : Server} {o : Object} {i : ℕ} {iid : GUID}

theorem held_eq_some (h : s.held i = some o) :
    s.objects[i]? = some o ∧ 0 < o.references ∧ o.destroyed = false := by
  obtain ⟨hget, hheld⟩ := Option.filter_eq_some_iff.mp h
  simpa [hget] using hheld

/-- A client may hold a reference on an object that is alive. -/
theorem managed_of_held (h : s.Inv) (hheld : s.held i = some o) : o.Managed := by
  obtain ⟨hget, href, halive⟩ := held_eq_some hheld
  have hcreated := (h.objects o (List.mem_of_getElem? hget)).created href
  rw [Object.Managed, hcreated, halive]
  simp
  omega

/-- One reference more. -/
theorem counted_addRef (h : o.Counted) (href : 0 < o.references) :
    Object.Counted { o.addRef with references := o.references + 1 } where
  count := by
    intro halive
    show o.m_nRefCount + 1 = o.constructed + UInt32.ofNat (o.references + 1)
    rw [h.count halive, UInt32.ofNat_add, UInt32.add_assoc]
    rfl
  created := fun _ => h.created href

/-- One reference less. -/
theorem count_release (h : o.Counted) (href : 0 < o.references) (halive : o.destroyed = false) :
    o.m_nRefCount - 1 = o.constructed + UInt32.ofNat (o.references - 1) := by
  have hsplit : o.references = o.references - 1 + 1 := by omega
  rw [h.count halive, hsplit, UInt32.ofNat_add, ← UInt32.add_assoc, Nat.add_sub_cancel]
  exact UInt32.add_sub_cancel _ 1

/-! ## Creation -/

theorem lifetimes_def : Lifetimes s ↔ (∀ o ∈ s.objects, o.Managed) ∧
    (∀ result ∈ s.results, result.hr.failed → result.reference = none) ∧
    ∀ unload ∈ s.unloads, unload.1 = .S_OK ↔ unload.2 = true :=
  ⟨fun h => ⟨h.objects, h.results, h.unloads⟩, fun h => ⟨h.1, h.2.1, h.2.2⟩⟩

/-- A call that fails without creating an object. -/
theorem inv_fails (h : s.Inv) (hr : HRESULT) : (s.fails hr).Inv := by
  refine ⟨h.objects, h.inUse, List.forall_mem_append.mpr ⟨h.results, ?_⟩⟩
  rw [List.forall_mem_singleton]
  intro _
  rfl

theorem lifetimes_fails_iff (hr : HRESULT) : Lifetimes (s.fails hr) ↔ Lifetimes s := by
  simp only [lifetimes_def, Server.fails, List.forall_mem_append, List.forall_mem_singleton]
  tauto

variable {cls : Class} {memory : UInt32}

/-- A new object that knows the interface is held by one reference. -/
theorem create_of_supports (h : cls.supports iid) : s.create cls iid (.object memory)
    = { s with
        objects := s.objects ++
          [⟨cls, cls.refCount memory + 1, cls.refCount memory, false, .S_OK, 1⟩]
        results := s.results ++ [⟨.S_OK, some s.objects.length⟩] } := by
  simp only [Server.create, Object.queryInterface, if_pos h]
  rfl

/-- A new object that does not is held by nobody. -/
theorem create_of_not_supports (h : ¬ cls.supports iid) : s.create cls iid (.object memory)
    = { s with
        objects := s.objects ++
          [⟨cls, cls.refCount memory, cls.refCount memory, false, .E_NOINTERFACE, 0⟩]
        results := s.results ++ [⟨.E_NOINTERFACE, none⟩] } := by
  simp only [Server.create, Object.queryInterface, if_neg h]
  rfl

theorem inv_create (h : s.Inv) (allocation : Allocation) : (s.create cls iid allocation).Inv := by
  cases allocation with
  | throws => exact h
  | null => exact inv_fails h .E_OUTOFMEMORY
  | object memory =>
    by_cases hsupports : cls.supports iid
    · rw [create_of_supports hsupports]
      refine ⟨List.forall_mem_append.mpr ⟨h.objects, ?_⟩, h.inUse,
        List.forall_mem_append.mpr ⟨h.results, ?_⟩⟩
      · rw [List.forall_mem_singleton]
        exact ⟨fun _ => rfl, fun _ => rfl⟩
      · rw [List.forall_mem_singleton]
        intro hfailed
        contradiction
    · rw [create_of_not_supports hsupports]
      refine ⟨List.forall_mem_append.mpr ⟨h.objects, ?_⟩, h.inUse,
        List.forall_mem_append.mpr ⟨h.results, ?_⟩⟩
      · rw [List.forall_mem_singleton]
        exact ⟨fun _ => (UInt32.add_zero _).symm, nofun⟩
      · rw [List.forall_mem_singleton]
        intro _
        rfl

/-- A creation keeps the lifetimes unless it leaves an object that nobody holds. -/
theorem lifetimes_create_iff (allocation : Allocation) :
    Lifetimes (s.create cls iid allocation) ↔
      Lifetimes s ∧ (allocation ≠ .null → allocation ≠ .throws → cls.supports iid) := by
  cases allocation with
  | throws => simp [Server.create]
  | null =>
    rw [Server.create, lifetimes_fails_iff]
    simp
  | object memory =>
    by_cases hsupports : cls.supports iid
    · have hmanaged :
          Object.Managed ⟨cls, cls.refCount memory + 1, cls.refCount memory, false, .S_OK, 1⟩ := by
        simp [Object.Managed, HRESULT.failed]
      rw [create_of_supports hsupports]
      simp only [lifetimes_def, List.forall_mem_append, List.forall_mem_singleton]
      simp [hsupports, hmanaged, HRESULT.failed]
    · have hmanaged : ¬ Object.Managed
          ⟨cls, cls.refCount memory, cls.refCount memory, false, .E_NOINTERFACE, 0⟩ := by
        simp [Object.Managed, HRESULT.failed]
      rw [create_of_not_supports hsupports]
      simp only [lifetimes_def, List.forall_mem_append, List.forall_mem_singleton]
      simp [hsupports, hmanaged]

/-! ## Methods of an object -/

/-- A method changes one object; what it makes of the object decides. -/
theorem lifetimes_setObject_iff (h : s.Inv) (hheld : s.held i = some o) (o' : Object) :
    Lifetimes (s.setObject i o') ↔ Lifetimes s ∧ o'.Managed := by
  simp only [lifetimes_def, Server.setObject,
    forall_mem_set_iff (held_eq_some hheld).1 (managed_of_held h hheld)]
  tauto

theorem inv_setObject {o' : Object} (h : s.Inv) (hheld : s.held i = some o) (ho' : o'.Counted) :
    (s.setObject i o').Inv := by
  have hget := (held_eq_some hheld).1
  have ho := h.objects o (List.mem_of_getElem? hget)
  exact ⟨(forall_mem_set_iff hget ho).mpr ⟨h.objects, ho'⟩, h.inUse, h.results⟩

/-- An object with one reference more is managed. -/
theorem managed_addRef (h : s.Inv) (hheld : s.held i = some o) :
    Object.Managed { o.addRef with references := o.references + 1 } := by
  obtain ⟨hget, href, halive⟩ := held_eq_some hheld
  have hcreated := (h.objects o (List.mem_of_getElem? hget)).created href
  simp [Object.Managed, Object.addRef, hcreated, halive]

/-- An object with one reference less is managed exactly when its count is zero with its last
reference. -/
theorem managed_release_iff (h : s.Inv) (hheld : s.held i = some o) :
    Object.Managed { o.release with references := o.references - 1 } ↔
      (o.constructed + UInt32.ofNat (o.references - 1) = 0 ↔ o.references = 1) := by
  obtain ⟨hget, href, halive⟩ := held_eq_some hheld
  have ho := h.objects o (List.mem_of_getElem? hget)
  have hone : o.references - 1 = 0 ↔ o.references = 1 := by omega
  simp only [Object.Managed, Object.release, ho.created href, Bool.false_eq_true, if_false,
    decide_eq_true_eq, count_release ho href halive, hone]

theorem counted_release (h : s.Inv) (hheld : s.held i = some o) :
    Object.Counted { o.release with references := o.references - 1 } := by
  obtain ⟨hget, href, halive⟩ := held_eq_some hheld
  have ho := h.objects o (List.mem_of_getElem? hget)
  exact ⟨fun _ => count_release ho href halive, fun _ => ho.created href⟩

/-- `QueryInterface` on an object that is held: with a reference more, or as it was. -/
theorem queryInterface_cases (hstep : s.step (.QueryInterface i iid) = some t) :
    ∃ o, s.held i = some o ∧
      (t = { s.setObject i { o.addRef with references := o.references + 1 } with
          results := s.results ++ [⟨.S_OK, some i⟩] } ∨
        t = { s.setObject i o with results := s.results ++ [⟨.E_NOINTERFACE, none⟩] }) := by
  obtain ⟨o, hheld, rfl⟩ := Option.map_eq_some_iff.mp hstep
  refine ⟨o, hheld, ?_⟩
  by_cases hsupports : o.cls.supports iid
  · left
    simp only [Object.queryInterface, if_pos hsupports]
    rfl
  · right
    simp only [Object.queryInterface, if_neg hsupports]
    rfl

/-! ## Steps -/

theorem inv_step {c : Call} (h : s.Inv) (hstep : s.step c = some t) : t.Inv := by
  cases c with
  | DllGetClassObject clsid iid allocation =>
    obtain rfl := Option.some.inj hstep
    rw [Server.dllGetClassObject]
    split
    · exact inv_create h allocation
    · exact inv_fails h _
  | CreateInstance factory outer iid allocation =>
    obtain ⟨o, _, hcls⟩ := Option.bind_eq_some_iff.mp hstep
    split at hcls
    · obtain rfl := Option.some.inj hcls
      rw [Server.createInstance]
      split
      · exact inv_fails h _
      · exact inv_create h allocation
    · contradiction
  | QueryInterface i iid =>
    obtain ⟨o, hheld, rfl | rfl⟩ := queryInterface_cases hstep
    · obtain ⟨hget, href, _⟩ := held_eq_some hheld
      have ho := h.objects o (List.mem_of_getElem? hget)
      have hset := inv_setObject h hheld (counted_addRef ho href)
      refine ⟨hset.objects, h.inUse, List.forall_mem_append.mpr ⟨h.results, ?_⟩⟩
      rw [List.forall_mem_singleton]
      intro hfailed
      contradiction
    · have ho := h.objects o (List.mem_of_getElem? (held_eq_some hheld).1)
      have hset := inv_setObject h hheld ho
      refine ⟨hset.objects, h.inUse, List.forall_mem_append.mpr ⟨h.results, ?_⟩⟩
      rw [List.forall_mem_singleton]
      intro _
      rfl
  | AddRef i =>
    obtain ⟨o, hheld, rfl⟩ := Option.map_eq_some_iff.mp hstep
    obtain ⟨hget, href, _⟩ := held_eq_some hheld
    exact inv_setObject h hheld (counted_addRef (h.objects o (List.mem_of_getElem? hget)) href)
  | Release i =>
    obtain ⟨o, hheld, rfl⟩ := Option.map_eq_some_iff.mp hstep
    exact inv_setObject h hheld (counted_release h hheld)
  | DllCanUnloadNow =>
    obtain rfl := Option.some.inj hstep
    exact ⟨h.objects, h.inUse, h.results⟩

/-- A result that hands out no reference when it is a failure says nothing about lifetimes. -/
theorem lifetimes_result_iff {hr : HRESULT} {reference : Option ℕ}
    (hhands : hr.failed → reference = none) :
    Lifetimes { s with results := s.results ++ [⟨hr, reference⟩] } ↔ Lifetimes s := by
  simp only [lifetimes_def, List.forall_mem_append, List.forall_mem_singleton]
  tauto

/-- A call keeps the lifetimes exactly when it meets the condition for it. -/
theorem lifetimes_step_iff {c : Call} (h : s.Inv) (hstep : s.step c = some t) :
    Lifetimes t ↔ Lifetimes s ∧ KeepsLifetimes s c := by
  cases c with
  | DllGetClassObject clsid iid allocation =>
    obtain rfl := Option.some.inj hstep
    rw [Server.dllGetClassObject]
    split
    · next hclsid =>
      rw [lifetimes_create_iff]
      simp [KeepsLifetimes, hclsid]
    · next hclsid =>
      rw [lifetimes_fails_iff]
      simp [KeepsLifetimes, hclsid]
  | CreateInstance factory outer iid allocation =>
    obtain ⟨o, _, hcls⟩ := Option.bind_eq_some_iff.mp hstep
    split at hcls
    · obtain rfl := Option.some.inj hcls
      rw [Server.createInstance]
      split
      · next houter =>
        rw [lifetimes_fails_iff]
        simp [KeepsLifetimes, houter]
      · next houter =>
        rw [lifetimes_create_iff]
        simp [KeepsLifetimes, houter]
    · contradiction
  | QueryInterface i iid =>
    rw [KeepsLifetimes, and_true]
    obtain ⟨o, hheld, rfl | rfl⟩ := queryInterface_cases hstep
    · have hset := lifetimes_setObject_iff h hheld { o.addRef with references := o.references + 1 }
      rw [and_iff_left (managed_addRef h hheld)] at hset
      have hsucceeded : HRESULT.failed .S_OK = true → some i = none :=
        fun hfailed => absurd hfailed (by decide)
      exact (lifetimes_result_iff hsucceeded).trans hset
    · have hset := lifetimes_setObject_iff h hheld o
      rw [and_iff_left (managed_of_held h hheld)] at hset
      exact (lifetimes_result_iff fun _ => rfl).trans hset
  | AddRef i =>
    obtain ⟨o, hheld, rfl⟩ := Option.map_eq_some_iff.mp hstep
    rw [lifetimes_setObject_iff h hheld, and_iff_left (managed_addRef h hheld)]
    exact (and_iff_left trivial).symm
  | Release i =>
    obtain ⟨o, hheld, rfl⟩ := Option.map_eq_some_iff.mp hstep
    rw [lifetimes_setObject_iff h hheld, managed_release_iff h hheld]
    simp [KeepsLifetimes, hheld]
  | DllCanUnloadNow =>
    obtain rfl := Option.some.inj hstep
    simp only [lifetimes_def, Server.dllCanUnloadNow, h.inUse, if_true, List.forall_mem_append,
      List.forall_mem_singleton, true_iff, KeepsLifetimes]
    tauto

/-! ## Runs -/

/-- **Lifetimes.** At the end of a run of calls the lifetimes are right exactly when every call
of the run met the condition for it. -/
theorem lifetimes_iff {calls : List Call} (h : run Server.step Server.init calls = some s) :
    Lifetimes s ↔ EachStep Server.step KeepsLifetimes Server.init calls := by
  obtain ⟨_, hiff⟩ := run_iff Server.Inv Lifetimes (fun _ _ _ hs _ hstep => inv_step hs hstep)
    (fun _ _ _ hs _ hstep => lifetimes_step_iff hs hstep) eachStep_true h inv_init
  exact hiff.trans (and_iff_right lifetimes_init)

end

/-- A factory in zeroed memory and an object of it, each released as often as it was referenced. -/
theorem lifetimes_zeroed_factory :
    ∃ s, run Server.step Server.init
        [.DllGetClassObject CLSID_AddObject IID_IClassFactory (.object 0),
          .CreateInstance 0 false IID_IAdd (.object 0), .Release 0, .QueryInterface 1 IID_IUnknown,
          .Release 1, .Release 1, .DllCanUnloadNow] = some s ∧ Lifetimes s := by
  have hrun : ∃ s, run Server.step Server.init
      [.DllGetClassObject CLSID_AddObject IID_IClassFactory (.object 0),
        .CreateInstance 0 false IID_IAdd (.object 0), .Release 0, .QueryInterface 1 IID_IUnknown,
        .Release 1, .Release 1, .DllCanUnloadNow] = some s := ⟨_, rfl⟩
  obtain ⟨s, hs⟩ := hrun
  exact ⟨s, hs, (lifetimes_iff hs).mpr (by decide +kernel)⟩

/-- A factory whose count happened to be 5: its only reference is released and it stays alive;
and `DllCanUnloadNow` returns `S_OK`. -/
theorem lifetimes_counterexample :
    ∃ s, run Server.step Server.init
        [.DllGetClassObject CLSID_AddObject IID_IClassFactory (.object 5), .DllCanUnloadNow,
          .Release 0] = some s ∧
      s.objects = [⟨.CAddFactory, 5, 5, false, .S_OK, 0⟩] ∧ s.unloads = [(.S_OK, false)] ∧
      ¬ Lifetimes s := by
  refine ⟨_, rfl, by decide +kernel, by decide +kernel, ?_⟩
  intro hlife
  have hunload := hlife.unloads (.S_OK, false) (by decide +kernel)
  simp at hunload

end Win32Experiments.BasicCom
