import Mathlib.Data.List.Nodup
import Mathlib.Tactic.Common

/-!
# Trees of keys

A tree is the list of its keys with what they hold. The path of a key has its own name first and the
names of its parents behind it, so that the parent of `name :: path` is `path`; the root is `[]`.

* `Valid`: every key is there once, and its parent is there;
* `create`, `change`, `delete`: a key is created with the parents that are missing, and only a key
  without children is deleted;
* `outside`: the keys other than some given ones; operations on those leave it alone;
* `foldl_delete`: deleting keys, children first, leaves the others;
* `deleteAll_eq_outside_iff`: where a deletion may fail, it leaves exactly the others if and only if
  none fails for a key that is there.
-/

namespace Foundation

/-- The keys of a tree. -/
abbrev Keys (ν κ : Type*) := List (List ν × κ)

namespace Keys

variable {ν κ : Type*} [DecidableEq ν]

/-- The paths of the keys. -/
def paths (t : Keys ν κ) : List (List ν) := t.map Prod.fst

/-- What the key holds, if it is there. -/
def content (t : Keys ν κ) (path : List ν) : Option κ := (t.find? (·.1 = path)).map Prod.snd

/-- The key is created, and first its parent, unless they are there. -/
def create (new : κ) (t : Keys ν κ) : List ν → Keys ν κ
  | [] => t
  | name :: path =>
    let t := create new t path
    if name :: path ∈ t.paths then t else t ++ [(name :: path, new)]

/-- What the key holds is changed. -/
def change (t : Keys ν κ) (path : List ν) (f : κ → κ) : Keys ν κ :=
  t.map fun key => if key.1 = path then (key.1, f key.2) else key

/-- The key has children. -/
def hasChild (t : Keys ν κ) (path : List ν) : Bool :=
  t.paths.any fun q => q ≠ [] && q.tail = path

/-- The key is deleted if it has no children. -/
def delete (t : Keys ν κ) (path : List ν) : Keys ν κ :=
  if t.hasChild path then t else t.filter (·.1 ≠ path)

/-- The keys are deleted one behind the other, those whose deletion does not fail. -/
def deleteAll (t : Keys ν κ) (gone : List (List ν × Bool)) : Keys ν κ :=
  gone.foldl (fun t key => if key.2 then t.delete key.1 else t) t

/-- The keys that are not among the given ones. -/
def outside (t : Keys ν κ) (own : List (List ν)) : Keys ν κ := t.filter (·.1 ∉ own)

/-- Every key is there once, and its parent is there. -/
structure Valid (t : Keys ν κ) : Prop where
  root : [] ∈ t.paths
  nodup : t.paths.Nodup
  closed : ∀ name path, name :: path ∈ t.paths → path ∈ t.paths

variable {t : Keys ν κ} {name : ν} {path p q : List ν} {new : κ} {f : κ → κ}
  {own : List (List ν)}

/-! ## Paths -/

theorem hasChild_iff : t.hasChild path = true ↔ ∃ name, name :: path ∈ t.paths := by
  rw [hasChild, List.any_eq_true]
  constructor
  · rintro ⟨q, hq, hchild⟩
    rw [Bool.and_eq_true, decide_eq_true_eq, decide_eq_true_eq] at hchild
    obtain ⟨name, rest, rfl⟩ := List.exists_cons_of_ne_nil hchild.1
    rw [List.tail_cons] at hchild
    exact ⟨name, hchild.2 ▸ hq⟩
  · rintro ⟨name, hq⟩
    exact ⟨_, hq, by simp⟩

theorem content_isSome_iff : (t.content path).isSome ↔ path ∈ t.paths := by
  rw [content, Option.isSome_map, List.find?_isSome, paths, List.mem_map]
  constructor
  · rintro ⟨key, hkey, heq⟩
    exact ⟨key, hkey, of_decide_eq_true heq⟩
  · rintro ⟨key, hkey, heq⟩
    exact ⟨key, hkey, decide_eq_true heq⟩

/-- Creating adds the key and those of its parents that were missing. -/
theorem mem_paths_create : q ∈ (t.create new p).paths ↔ q ∈ t.paths ∨ q ≠ [] ∧ q <:+ p := by
  induction p with
  | nil =>
    rw [create, List.suffix_nil]
    tauto
  | cons name path ih =>
    have hcons : q ≠ [] ∧ q <:+ name :: path ↔ q = name :: path ∨ q ≠ [] ∧ q <:+ path := by
      rw [List.suffix_cons_iff]
      constructor
      · rintro ⟨hne, heq | hsuffix⟩
        · exact Or.inl heq
        · exact Or.inr ⟨hne, hsuffix⟩
      · rintro (rfl | ⟨hne, hsuffix⟩)
        · exact ⟨List.cons_ne_nil _ _, Or.inl rfl⟩
        · exact ⟨hne, Or.inr hsuffix⟩
    rw [hcons, create]
    split
    · next hmem =>
      rw [ih]
      constructor
      · rintro (h | h)
        · exact Or.inl h
        · exact Or.inr (Or.inr h)
      · rintro (h | rfl | h)
        · exact Or.inl h
        · exact ih.mp hmem
        · exact Or.inr h
    · rw [paths, List.map_append, List.mem_append, ← paths, ih, List.map_singleton,
        List.mem_singleton]
      tauto

@[simp] theorem paths_change : (t.change p f).paths = t.paths := by
  rw [paths, change, List.map_map, paths]
  apply List.map_congr_left
  intro key _
  show (if key.1 = p then (key.1, f key.2) else key).1 = key.1
  split <;> rfl

omit [DecidableEq ν] in
theorem paths_filter (keep : List ν → Bool) :
    paths (t.filter fun key => keep key.1) = t.paths.filter keep := by
  rw [paths, paths, List.filter_map]
  rfl

/-! ## The tree stays one -/

theorem valid_create (h : t.Valid) : (t.create new p).Valid := by
  induction p with
  | nil => exact h
  | cons name path ih =>
    rw [create]
    split
    · exact ih
    · next hmem =>
      have hpath : path ∈ (t.create new path).paths := by
        rw [mem_paths_create]
        by_cases hnil : path = []
        · exact Or.inl (hnil ▸ h.root)
        · exact Or.inr ⟨hnil, List.suffix_rfl⟩
      have hpaths : (t.create new path ++ [(name :: path, new)]).paths =
          (t.create new path).paths ++ [name :: path] := List.map_append
      refine ⟨?_, ?_, ?_⟩
      · rw [hpaths]
        exact List.mem_append_left _ ih.root
      · rw [hpaths, List.nodup_append]
        refine ⟨ih.nodup, List.nodup_singleton _, ?_⟩
        intro q hq q' hq' heq
        rw [List.mem_singleton.mp hq'] at heq
        exact hmem (heq ▸ hq)
      · intro name' path' hmem'
        rw [hpaths] at hmem' ⊢
        apply List.mem_append_left
        rcases List.mem_append.mp hmem' with hold | hnew
        · exact ih.closed name' path' hold
        · rw [List.mem_singleton, List.cons.injEq] at hnew
          exact hnew.2 ▸ hpath

theorem valid_change (h : t.Valid) : (t.change p f).Valid := by
  obtain ⟨hroot, hnodup, hclosed⟩ := h
  rw [← paths_change] at hroot hnodup
  simp only [← @paths_change ν κ _ t p f] at hclosed
  exact ⟨hroot, hnodup, hclosed⟩

theorem valid_delete (h : t.Valid) (hp : p ≠ []) : (t.delete p).Valid := by
  rw [delete]
  split
  · exact h
  · next hleaf =>
    rw [hasChild_iff, not_exists] at hleaf
    have hpaths : paths (t.filter fun key => key.1 ≠ p) = t.paths.filter fun q => q ≠ p :=
      paths_filter fun q => decide (q ≠ p)
    refine ⟨?_, ?_, ?_⟩
    · rw [hpaths, List.mem_filter]
      exact ⟨h.root, decide_eq_true hp.symm⟩
    · rw [hpaths]
      exact h.nodup.filter _
    · intro name path hmem
      rw [hpaths, List.mem_filter] at hmem ⊢
      refine ⟨h.closed name path hmem.1, decide_eq_true ?_⟩
      rintro rfl
      exact hleaf name hmem.1

/-! ## What a key holds -/

/-- Creating a key does not change those that are there. -/
theorem content_create (h : q ∈ t.paths) : (t.create new p).content q = t.content q := by
  induction p with
  | nil => rfl
  | cons name path ih =>
    rw [create]
    split
    · exact ih
    · obtain ⟨held, hheld⟩ := Option.isSome_iff_exists.mp (content_isSome_iff.mpr h)
      rw [← ih] at hheld ⊢
      rw [content, Option.map_eq_some_iff] at hheld
      obtain ⟨key, hkey, -⟩ := hheld
      rw [content, List.find?_append, hkey, content, hkey]
      rfl

theorem content_change : (t.change p f).content q =
    if q = p then (t.content q).map f else t.content q := by
  induction t with
  | nil => split <;> rfl
  | cons key t ih =>
    have hcons : ∀ (key : List ν × κ) (t : Keys ν κ), content (key :: t) q =
        if key.1 = q then some key.2 else t.content q := by
      intro key t
      rw [content, List.find?_cons]
      by_cases heq : key.1 = q
      · rw [decide_eq_true heq, if_pos heq]
        rfl
      · rw [decide_eq_false heq, if_neg heq, content]
    have hchange : change (key :: t) p f =
        (if key.1 = p then (key.1, f key.2) else key) :: change t p f := rfl
    rw [hchange, hcons, hcons, ih]
    by_cases hkey : key.1 = p
    · rw [if_pos hkey]
      by_cases hq : key.1 = q
      · rw [if_pos hq, if_pos hq, if_pos (hq.symm.trans hkey), Option.map_some]
      · rw [if_neg hq, if_neg hq]
    · rw [if_neg hkey]
      by_cases hq : key.1 = q
      · rw [if_pos hq, if_neg fun heq => hkey (hq.trans heq), if_pos hq]
      · rw [if_neg hq, if_neg hq]

/-! ## The other keys -/

theorem mem_paths_outside : p ∈ (t.outside own).paths ↔ p ∈ t.paths ∧ p ∉ own := by
  have hpaths : paths (t.filter fun key => key.1 ∉ own) = t.paths.filter fun q => q ∉ own :=
    paths_filter fun q => decide (q ∉ own)
  rw [outside, hpaths, List.mem_filter, decide_eq_true_eq]

/-- Whoever creates its own keys, and whose parents are there, leaves the others alone. -/
theorem outside_create (h : ∀ q, q ≠ [] → q <:+ p → q ∈ t.paths ∨ q ∈ own) :
    (t.create new p).outside own = t.outside own := by
  induction p with
  | nil => rfl
  | cons name path ih =>
    have hpath := ih fun q hne hsuffix => h q hne (hsuffix.trans (List.suffix_cons _ _))
    rw [create]
    split
    · exact hpath
    · next hmem =>
      have hown : name :: path ∈ own := by
        refine (h _ (List.cons_ne_nil _ _) List.suffix_rfl).resolve_left fun hold => hmem ?_
        exact mem_paths_create.mpr (Or.inl hold)
      rw [outside, List.filter_append, ← outside, hpath]
      simp [hown]

theorem outside_change (h : p ∈ own) : (t.change p f).outside own = t.outside own := by
  induction t with
  | nil => rfl
  | cons key t ih =>
    have hchange : change (key :: t) p f =
        (if key.1 = p then (key.1, f key.2) else key) :: change t p f := rfl
    have hcons : ∀ (key : List ν × κ) (t : Keys ν κ), outside (key :: t) own =
        if key.1 ∈ own then outside t own else key :: outside t own := by
      intro key t
      rw [outside, List.filter_cons]
      by_cases hkey : key.1 ∈ own <;> simp [hkey, outside]
    rw [hchange, hcons, hcons, ih]
    by_cases hkey : key.1 = p
    · rw [if_pos hkey, hkey, if_pos h, if_pos h]
    · rw [if_neg hkey]

theorem outside_delete (h : p ∈ own) : (t.delete p).outside own = t.outside own := by
  rw [delete]
  split
  · rfl
  · rw [outside, outside, List.filter_filter]
    apply List.filter_congr
    intro key _
    by_cases hkey : key.1 = p
    · simp [hkey, h]
    · simp [hkey]

/-- Deleting a key leaves the other paths, and adds none. -/
theorem mem_paths_delete (hq : q ∈ t.paths) (hne : q ≠ p) : q ∈ (t.delete p).paths := by
  rw [delete]
  split
  · exact hq
  · have hpaths : paths (t.filter fun key => key.1 ≠ p) = t.paths.filter fun q => q ≠ p :=
      paths_filter fun q => decide (q ≠ p)
    rw [hpaths, List.mem_filter]
    exact ⟨hq, decide_eq_true hne⟩

theorem mem_of_mem_paths_delete (h : q ∈ (t.delete p).paths) : q ∈ t.paths := by
  rw [delete] at h
  split at h
  · exact h
  · exact (List.Sublist.map Prod.fst List.filter_sublist).subset h

theorem delete_of_not_mem (h : p ∉ t.paths) : t.delete p = t := by
  rw [delete]
  split
  · rfl
  · apply List.filter_eq_self.mpr
    intro key hkey
    apply decide_eq_true
    rintro rfl
    exact h (List.mem_map_of_mem hkey)

/-- **Children first.** Keys that have no other children than one another, and whose children are
deleted before them, are deleted, and the others stay. -/
theorem foldl_delete (hfree : ∀ p ∈ own, ∀ name, name :: p ∈ t.paths → name :: p ∈ own)
    (horder : own.Pairwise fun p q => ∀ name, name :: p ≠ q) :
    own.foldl delete t = t.outside own := by
  induction own generalizing t with
  | nil =>
    rw [List.foldl_nil, outside]
    exact (List.filter_eq_self.mpr fun _ _ => by simp).symm
  | cons p own ih =>
    rw [List.pairwise_cons] at horder
    rw [List.forall_mem_cons] at hfree
    have hleaf : ¬ t.hasChild p = true := by
      rw [hasChild_iff]
      rintro ⟨name, hmem⟩
      rcases List.mem_cons.mp (hfree.1 name hmem) with hself | hlater
      · exact List.cons_ne_self name p hself
      · exact horder.1 _ hlater name rfl
    have hpaths : paths (t.filter fun key => key.1 ≠ p) = t.paths.filter fun q => q ≠ p :=
      paths_filter fun q => decide (q ≠ p)
    rw [List.foldl_cons, delete, if_neg hleaf, ih _ horder.2]
    · rw [outside, outside, List.filter_filter]
      apply List.filter_congr
      intro key _
      by_cases hkey : key.1 = p
      · simp [hkey]
      · simp [hkey]
    · intro q hq name hmem
      rw [hpaths, List.mem_filter, decide_eq_true_eq] at hmem
      exact (List.mem_cons.mp (hfree.2 q hq name hmem.1)).resolve_left hmem.2

/-! ## Deletions that may fail -/

section DeleteAll

variable {gone : List (List ν × Bool)}

theorem deleteAll_cons {key : List ν × Bool} :
    t.deleteAll (key :: gone) = deleteAll (if key.2 then t.delete key.1 else t) gone := rfl

theorem valid_deleteAll (h : t.Valid) (hne : ∀ key ∈ gone, key.1 ≠ []) :
    (t.deleteAll gone).Valid := by
  induction gone generalizing t with
  | nil => exact h
  | cons key gone ih =>
    rw [List.forall_mem_cons] at hne
    rw [deleteAll_cons]
    apply ih _ hne.2
    split
    · exact valid_delete h hne.1
    · exact h

theorem outside_deleteAll (h : ∀ key ∈ gone, key.1 ∈ own) :
    (t.deleteAll gone).outside own = t.outside own := by
  induction gone generalizing t with
  | nil => rfl
  | cons key gone ih =>
    rw [List.forall_mem_cons] at h
    rw [deleteAll_cons, ih h.2]
    split
    · exact outside_delete h.1
    · rfl

/-- A key stays if its deletion fails. -/
theorem mem_paths_deleteAll (hp : p ∈ t.paths) (hfail : ∀ key ∈ gone, key.1 = p → key.2 = false) :
    p ∈ (t.deleteAll gone).paths := by
  induction gone generalizing t with
  | nil => exact hp
  | cons key gone ih =>
    rw [List.forall_mem_cons] at hfail
    rw [deleteAll_cons]
    apply ih _ hfail.2
    split
    · next hok =>
      have hne : p ≠ key.1 := by
        rintro rfl
        rw [hfail.1 rfl] at hok
        contradiction
      exact mem_paths_delete hp hne
    · exact hp

/-- Only the deletions of keys that are there matter. -/
theorem deleteAll_eq_foldl (hok : ∀ key ∈ gone, key.1 ∈ t.paths → key.2 = true) :
    t.deleteAll gone = (gone.map Prod.fst).foldl delete t := by
  induction gone generalizing t with
  | nil => rfl
  | cons key gone ih =>
    rw [List.forall_mem_cons] at hok
    have hdelete : (if key.2 then t.delete key.1 else t) = t.delete key.1 := by
      by_cases hmem : key.1 ∈ t.paths
      · rw [if_pos (hok.1 hmem)]
      · rw [delete_of_not_mem hmem, ite_self]
    rw [deleteAll_cons, hdelete, List.map_cons, List.foldl_cons]
    apply ih
    intro later hlater hmem
    exact hok.2 later hlater (mem_of_mem_paths_delete hmem)

/-- **Children first, and what fails.** The keys are gone, and the others stay, exactly if no
deletion of a key that is there fails. -/
theorem deleteAll_eq_outside_iff (hnodup : (gone.map Prod.fst).Nodup)
    (hfree : ∀ p ∈ gone.map Prod.fst, ∀ name, name :: p ∈ t.paths → name :: p ∈ gone.map Prod.fst)
    (horder : (gone.map Prod.fst).Pairwise fun p q => ∀ name, name :: p ≠ q) :
    t.deleteAll gone = t.outside (gone.map Prod.fst) ↔
      ∀ key ∈ gone, key.1 ∈ t.paths → key.2 = true := by
  constructor
  · intro h key hkey hmem
    by_contra hfailed
    have hstays : key.1 ∈ (t.deleteAll gone).paths := by
      apply mem_paths_deleteAll hmem
      intro key' hkey' heq
      rw [List.inj_on_of_nodup_map hnodup hkey' hkey heq]
      exact Bool.not_eq_true _ ▸ hfailed
    rw [h, mem_paths_outside] at hstays
    exact hstays.2 (List.mem_map_of_mem hkey)
  · intro hok
    rw [deleteAll_eq_foldl hok]
    exact foldl_delete hfree horder

end DeleteAll

end Keys

end Foundation
