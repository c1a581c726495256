import Mathlib.Data.List.Infix
import Mathlib.Tactic.Common

/-!
# Occurrences of a word

`find` gives the first place at which a word occurs in a string. `scan` reads the string from left
to right and skips each occurrence it comes to, so it marks the leftmost occurrences that do not
overlap; what a program counts, cuts at or replaces is one of these.

* `find_eq_some_iff`, `find_eq_none_iff`: where `find` stops;
* `find_induction`: the induction along a search that goes on behind each occurrence;
* `scan_of_find_eq_some`, `scan_of_find_eq_none`: a search sees what the scan sees;
* `scan_append`: a string may be cut where no occurrence is;
* `exists_infix_of_infix_replaceAll`, `infix_replaceAll_of_infix`: what occurs in what is left when
  the word is removed;
* `exists_stuffed_of_infix_replaceAll`, `Stuffed.replaceAll_eq`: it was there with copies of the
  word between its characters;
* `Splits`: pieces that a string is cut into at the occurrences.
-/

namespace Foundation

variable {α : Type*} [DecidableEq α] {w s t : List α} {i : ℕ}

/-! ## The first occurrence -/

/-- The first place at which `w` occurs. -/
def find (w : List α) : List α → Option ℕ
  | [] => if w = [] then some 0 else none
  | a :: s => if w <+: a :: s then some 0 else (find w s).map (· + 1)

/-- The first place from `pos` on at which `w` occurs; none starts behind the string. -/
def findFrom (w s : List α) (pos : ℕ) : Option ℕ :=
  if pos ≤ s.length then (find w (s.drop pos)).map (pos + ·) else none

/-- The rest of a string from `pos` on; behind the string there is none. -/
def substr (s : List α) (pos : ℕ) : Option (List α) :=
  if pos ≤ s.length then some (s.drop pos) else none

omit [DecidableEq α] in
theorem substr_eq (h : i ≤ s.length) : substr s i = some (s.drop i) := by
  rw [substr, if_pos h]

/-- `find` stops at an occurrence that has none before it. -/
theorem find_eq_some_iff :
    find w s = some i ↔ w <+: s.drop i ∧ i ≤ s.length ∧ ∀ j < i, ¬ w <+: s.drop j := by
  induction s generalizing i with
  | nil =>
    rw [find]
    split
    · next hw =>
      subst hw
      simp only [Option.some.injEq, List.drop_nil, List.nil_prefix, List.length_nil, true_and,
        not_true_eq_false]
      constructor
      · rintro rfl
        exact ⟨Nat.le_refl 0, by omega⟩
      · intro h
        omega
    · next hw => simp [hw]
  | cons a s ih =>
    rw [find]
    split
    · next hpre =>
      rw [Option.some.injEq]
      constructor
      · rintro rfl
        exact ⟨hpre, Nat.zero_le _, by omega⟩
      · rintro ⟨-, -, hnone⟩
        by_contra hne
        exact hnone 0 (by omega) hpre
    · next hpre =>
      cases i with
      | zero =>
        refine iff_of_false ?_ fun h => hpre h.1
        rw [Option.map_eq_some_iff]
        rintro ⟨j, -, hj⟩
        omega
      | succ i =>
        have hmap : (find w s).map (· + 1) = some (i + 1) ↔ find w s = some i := by
          simp [Option.map_eq_some_iff]
        rw [hmap, ih, List.drop_succ_cons, List.length_cons, Nat.succ_le_succ_iff]
        refine and_congr_right fun _ => and_congr_right fun _ => ?_
        constructor
        · intro hnone j hj
          cases j with
          | zero => exact hpre
          | succ j => exact hnone j (by omega)
        · intro hnone j hj
          exact hnone (j + 1) (by omega)

/-- `find` fails on the strings that do not contain the word. -/
theorem find_eq_none_iff : find w s = none ↔ ¬ w <:+: s := by
  induction s with
  | nil =>
    rw [find, List.infix_nil]
    split
    · next hw => simp [hw]
    · next hw => simp [hw]
  | cons a s ih =>
    rw [find, List.infix_cons_iff]
    split
    · next hpre => simp [hpre]
    · next hpre => simp [hpre, ih]

/-- A string is what is before the first occurrence, the occurrence, and what is behind it. -/
theorem eq_append_of_find (h : find w s = some i) :
    s.take i ++ w ++ s.drop (i + w.length) = s := by
  obtain ⟨⟨rest, hrest⟩, -, -⟩ := find_eq_some_iff.mp h
  have hdrop : s.drop (i + w.length) = rest := by
    rw [← List.drop_drop, ← hrest, List.drop_left]
  rw [hdrop, List.append_assoc, hrest, List.take_append_drop]

theorem find_add_length_le (h : find w s = some i) : i + w.length ≤ s.length := by
  obtain ⟨hpre, hle, -⟩ := find_eq_some_iff.mp h
  have hlen := hpre.length_le
  rw [List.length_drop] at hlen
  omega

@[simp] theorem findFrom_zero : findFrom w s 0 = find w s := by
  rw [findFrom, if_pos (Nat.zero_le _), List.drop_zero]
  simp only [Nat.zero_add, Option.map_id']

/-- A search from `pos` on is a search in what is behind `pos`. -/
theorem findFrom_eq (hw : w ≠ []) (pos : ℕ) :
    findFrom w s pos = (find w (s.drop pos)).map (pos + ·) := by
  rw [findFrom]
  split
  · rfl
  · next hlong =>
    rw [List.drop_eq_nil_of_le (by omega), find, if_neg hw, Option.map_none]

/-- A word that does not occur is not found from any place on. -/
theorem findFrom_of_find_eq_none (hw : w ≠ []) (h : find w s = none) (pos : ℕ) :
    findFrom w s pos = none := by
  rw [findFrom_eq hw, Option.map_eq_none_iff, find_eq_none_iff]
  exact fun hin => find_eq_none_iff.mp h (hin.trans (List.drop_suffix _ _).isInfix)

/-- The word does not occur before its first occurrence. -/
theorem not_infix_take_of_find (hw : w ≠ []) (h : find w s = some i) : ¬ w <:+: s.take i := by
  obtain ⟨-, hle, hnone⟩ := find_eq_some_iff.mp h
  rintro ⟨p, q, hpq⟩
  have hpos := List.length_pos_iff.mpr hw
  have hlen := congrArg List.length hpq
  simp only [List.length_append, List.length_take] at hlen
  apply hnone p.length (by omega)
  have hsplit : s = p ++ (w ++ (q ++ s.drop i)) := by
    rw [← List.append_assoc w, ← List.append_assoc p, ← List.append_assoc p, hpq,
      List.take_append_drop]
  rw [hsplit, List.drop_left]
  exact List.prefix_append _ _

/-- The induction along the search for a word: it is not found, or the search goes on behind its
first occurrence. -/
theorem find_induction (hw : w ≠ []) {motive : List α → Prop}
    (none : ∀ s, find w s = none → motive s)
    (some : ∀ s i, find w s = some i → motive (s.drop (i + w.length)) → motive s)
    (s : List α) : motive s := by
  induction hlen : s.length using Nat.strong_induction_on generalizing s with
  | _ n ih =>
    cases hfind : find w s with
    | none => exact none s hfind
    | some i =>
      have hpos := List.length_pos_iff.mpr hw
      have hle := find_add_length_le hfind
      refine some s i hfind (ih _ ?_ _ rfl)
      rw [List.length_drop]
      omega

/-! ## The scan -/

/-- A scan for `w` that is to skip `skip` characters first: the characters it keeps, and `none` for
each occurrence. -/
def scanSkip (w : List α) : ℕ → List α → List (Option α)
  | _, [] => []
  | skip + 1, _ :: s => scanSkip w skip s
  | 0, a :: s =>
    if w <+: a :: s then none :: scanSkip w (w.length - 1) s else some a :: scanSkip w 0 s

/-- The characters of a string, and `none` for each of the leftmost occurrences of `w`. -/
def scan (w s : List α) : List (Option α) := scanSkip w 0 s

/-- The number of the leftmost occurrences. -/
def occurrences (w s : List α) : ℕ := (scan w s).count none

/-- The string with `v` in place of each of the leftmost occurrences of `w`. -/
def replaceAll (w v s : List α) : List α := (scan w s).flatMap fun mark => mark.elim v ([·])

@[simp] theorem scan_nil (w : List α) : scan w [] = [] := rfl

theorem scanSkip_eq (w : List α) (skip : ℕ) (s : List α) :
    scanSkip w skip s = scan w (s.drop skip) := by
  induction s generalizing skip with
  | nil => rw [List.drop_nil, scan_nil, scanSkip]
  | cons a s ih =>
    cases skip with
    | zero => rfl
    | succ skip => rw [scanSkip, ih, List.drop_succ_cons]

/-- The scan skips an occurrence. -/
theorem scan_append_left (hw : w ≠ []) (s : List α) : scan w (w ++ s) = none :: scan w s := by
  obtain ⟨a, w', rfl⟩ := List.exists_cons_of_ne_nil hw
  have hpre : a :: w' <+: a :: (w' ++ s) := List.prefix_append (a :: w') s
  rw [List.cons_append, scan, scanSkip, if_pos hpre, scanSkip_eq, List.length_cons,
    Nat.add_sub_cancel, List.drop_left]

/-- The scan keeps a character at which no occurrence starts. -/
theorem scan_cons {a : α} (h : ¬ w <+: a :: s) : scan w (a :: s) = some a :: scan w s := by
  rw [scan, scanSkip, if_neg h, scan]

omit [DecidableEq α] in
/-- What is behind an occurrence is shorter. -/
theorem exists_rest_lt (hw : w ≠ []) (h : w <+: s) :
    ∃ rest, w ++ rest = s ∧ rest.length < s.length := by
  obtain ⟨rest, hrest⟩ := h
  have hpos := List.length_pos_iff.mpr hw
  refine ⟨rest, hrest, ?_⟩
  rw [← hrest, List.length_append]
  omega

/-- **Cuts.** A string may be cut where no occurrence starts before the cut and ends behind it. -/
theorem scan_append (hw : w ≠ [])
    (hcut : ∀ j < s.length, w <+: s.drop j ++ t → w <+: s.drop j) :
    scan w (s ++ t) = scan w s ++ scan w t := by
  induction hlen : s.length using Nat.strong_induction_on generalizing s with
  | _ n ih =>
    cases s with
    | nil => rfl
    | cons a s =>
      by_cases hpre : w <+: a :: s
      · obtain ⟨rest, hrest, hshorter⟩ := exists_rest_lt hw hpre
        rw [← hrest] at hcut ⊢
        rw [List.append_assoc, scan_append_left hw, scan_append_left hw, List.cons_append]
        congr 1
        refine ih rest.length (by omega) ?_ rfl
        intro j hj hstart
        have hdrop : (w ++ rest).drop (w.length + j) = rest.drop j := by
          rw [← List.drop_drop, List.drop_left]
        rw [← hdrop] at hstart ⊢
        exact hcut _ (by rw [List.length_append]; omega) hstart
      · have hlong : ¬ w <+: a :: (s ++ t) := fun h => hpre (hcut 0 (Nat.succ_pos _) h)
        rw [List.cons_append, scan_cons hlong, scan_cons hpre, List.cons_append]
        congr 1
        refine ih s.length (by rw [← hlen, List.length_cons]; omega) ?_ rfl
        intro j hj hstart
        exact hcut (j + 1) (Nat.succ_lt_succ hj) hstart

/-- A search that fails and a scan that finds nothing are the same. -/
theorem scan_of_find_eq_none (h : find w s = none) : scan w s = s.map some := by
  induction s with
  | nil => rfl
  | cons a s ih =>
    rw [find_eq_none_iff, List.infix_cons_iff, not_or] at h
    rw [scan_cons h.1, ih (find_eq_none_iff.mpr h.2), List.map_cons]

/-- A search that stops, and then goes on behind the occurrence, sees what the scan sees. -/
theorem scan_of_find_eq_some (hw : w ≠ []) (h : find w s = some i) :
    scan w s = (s.take i).map some ++ none :: scan w (s.drop (i + w.length)) := by
  induction s generalizing i with
  | nil =>
    rw [find, if_neg hw] at h
    contradiction
  | cons a s ih =>
    rw [find] at h
    split at h
    · next hpre =>
      obtain rfl := Option.some.inj h
      obtain ⟨rest, hrest⟩ := hpre
      rw [← hrest, scan_append_left hw, List.take_zero, List.map_nil, List.nil_append,
        Nat.zero_add, List.drop_left]
    · next hpre =>
      obtain ⟨j, hj, rfl⟩ := Option.map_eq_some_iff.mp h
      rw [scan_cons hpre, ih hj, List.take_succ_cons, List.map_cons, List.cons_append,
        Nat.add_right_comm, List.drop_succ_cons]

/-! ## What is counted and replaced -/

variable {v : List α}

theorem count_none_map_some (s : List α) : (s.map some).count none = 0 := by
  rw [List.count_eq_zero, List.mem_map]
  rintro ⟨a, -, ha⟩
  contradiction

theorem occurrences_of_find_eq_none (h : find w s = none) : occurrences w s = 0 := by
  rw [occurrences, scan_of_find_eq_none h, count_none_map_some]

theorem occurrences_of_find_eq_some (hw : w ≠ []) (h : find w s = some i) :
    occurrences w s = occurrences w (s.drop (i + w.length)) + 1 := by
  rw [occurrences, scan_of_find_eq_some hw h, List.count_append, List.count_cons_self,
    count_none_map_some, Nat.zero_add, occurrences]

theorem occurrences_eq_zero_iff (hw : w ≠ []) : occurrences w s = 0 ↔ find w s = none := by
  constructor
  · intro hzero
    by_contra hfound
    obtain ⟨i, hi⟩ := Option.ne_none_iff_exists'.mp hfound
    rw [occurrences_of_find_eq_some hw hi] at hzero
    omega
  · exact occurrences_of_find_eq_none

theorem replaceAll_of_find_eq_none (h : find w s = none) : replaceAll w v s = s := by
  rw [replaceAll, scan_of_find_eq_none h, List.flatMap_map]
  exact List.flatMap_singleton' s

theorem replaceAll_of_find_eq_some (hw : w ≠ []) (h : find w s = some i) :
    replaceAll w v s = s.take i ++ v ++ replaceAll w v (s.drop (i + w.length)) := by
  rw [replaceAll, scan_of_find_eq_some hw h, List.flatMap_append, List.flatMap_cons,
    List.flatMap_map, ← List.append_assoc]
  have hkept : (s.take i).flatMap (fun a => (some a).elim v ([·])) = s.take i :=
    List.flatMap_singleton' _
  rw [hkept]
  rfl

/-! ## What is left when the word is removed -/

/-- Where the marks of a scan may be cut, the string may be cut as well. -/
theorem scan_eq_append (hw : w ≠ []) {marks marks' : List (Option α)}
    (h : scan w s = marks ++ marks') :
    ∃ p q, s = p ++ q ∧ scan w p = marks ∧ scan w q = marks' := by
  induction hlen : s.length using Nat.strong_induction_on generalizing s marks with
  | _ n ih =>
    cases marks with
    | nil => exact ⟨[], s, rfl, rfl, h⟩
    | cons mark marks =>
      cases s with
      | nil => contradiction
      | cons a s =>
        by_cases hpre : w <+: a :: s
        · obtain ⟨rest, hrest, hshorter⟩ := exists_rest_lt hw hpre
          rw [← hrest, scan_append_left hw, List.cons_append] at h
          obtain ⟨rfl, htail⟩ := List.cons.inj h
          obtain ⟨p, q, rfl, hp, hq⟩ := ih rest.length (by omega) htail rfl
          refine ⟨w ++ p, q, ?_, ?_, hq⟩
          · rw [List.append_assoc, hrest]
          · rw [scan_append_left hw, hp]
        · rw [scan_cons hpre, List.cons_append] at h
          obtain ⟨rfl, htail⟩ := List.cons.inj h
          rw [List.length_cons] at hlen
          obtain ⟨p, q, rfl, hp, hq⟩ := ih s.length (by omega) htail rfl
          refine ⟨a :: p, q, rfl, ?_, hq⟩
          have hshort : ¬ w <+: a :: p := fun hp => hpre (hp.trans (List.prefix_append _ q))
          rw [scan_cons hshort, hp]

/-- Removing the word keeps what the scan keeps. -/
theorem replaceAll_nil_eq : replaceAll w [] s = (scan w s).filterMap id := by
  rw [replaceAll]
  induction scan w s with
  | nil => rfl
  | cons mark marks ih =>
    rw [List.flatMap_cons, ih, List.filterMap_cons]
    cases mark with
    | none => rfl
    | some a => rfl

/-- What occurs in the string that is left was left of a part of the string. -/
theorem exists_infix_of_infix_replaceAll (hw : w ≠ []) (h : t <:+: replaceAll w [] s) :
    ∃ part, part <:+: s ∧ replaceAll w [] part = t := by
  obtain ⟨before, behind, heq⟩ := h
  rw [replaceAll_nil_eq, List.append_assoc] at heq
  obtain ⟨marks₁, marks', hmarks, -, hrest⟩ := List.filterMap_eq_append_iff.mp heq.symm
  obtain ⟨marks₂, marks₃, rfl, hpart, -⟩ := List.filterMap_eq_append_iff.mp hrest
  obtain ⟨p, q', rfl, -, hq'⟩ := scan_eq_append hw hmarks
  obtain ⟨part, q, rfl, hscan, -⟩ := scan_eq_append hw hq'
  refine ⟨part, ⟨p, q, by rw [List.append_assoc]⟩, ?_⟩
  rw [replaceAll_nil_eq, hscan, hpart]

theorem length_replaceAll_nil_le (hw : w ≠ []) (s : List α) :
    (replaceAll w [] s).length ≤ s.length := by
  induction s using find_induction hw with
  | none s hnone => rw [replaceAll_of_find_eq_none hnone]
  | some s i hsome ih =>
    have hle := find_add_length_le hsome
    rw [List.length_drop] at ih
    rw [replaceAll_of_find_eq_some hw hsome, List.length_append, List.append_nil, List.length_take]
    omega

/-- Removing a word shortens the strings that contain it. -/
theorem length_replaceAll_nil_lt (hw : w ≠ []) (h : w <:+: s) :
    (replaceAll w [] s).length < s.length := by
  have hfound : find w s ≠ none := fun hnone => find_eq_none_iff.mp hnone h
  obtain ⟨i, hi⟩ := Option.ne_none_iff_exists'.mp hfound
  have hpos := List.length_pos_iff.mpr hw
  have hle := find_add_length_le hi
  have hrest := length_replaceAll_nil_le hw (s.drop (i + w.length))
  rw [List.length_drop] at hrest
  rw [replaceAll_of_find_eq_some hw hi, List.length_append, List.append_nil, List.length_take]
  omega

/-! ## A word whose first character does not come again -/

section

variable {a : α} {x y : List α}

/-- Such a word does not go on behind a place where its first character is. -/
theorem replaceAll_append_of_head (ha : a ∉ w) (ht : ∀ b ∈ t.head?, b = a) (v s : List α) :
    replaceAll (a :: w) v (s ++ t) = replaceAll (a :: w) v s ++ replaceAll (a :: w) v t := by
  have hcut : ∀ j < s.length, a :: w <+: s.drop j ++ t → a :: w <+: s.drop j := by
    intro j hj hstart
    by_contra hcross
    -- the cut is inside of the occurrence, so the first character of `t` is one of `w`
    obtain ⟨z, hz, hzt⟩ : ∃ z, s.drop j ++ z = a :: w ∧ z <+: t := by
      have hor := List.prefix_or_prefix_of_prefix hstart (List.prefix_append (s.drop j) t)
      obtain ⟨z, hz⟩ := hor.resolve_left hcross
      rw [← hz, List.prefix_append_right_inj] at hstart
      exact ⟨z, hz, hstart⟩
    rw [List.drop_eq_getElem_cons hj, List.cons_append] at hz
    have htail := (List.cons.inj hz).2
    cases z with
    | nil =>
      rw [List.append_nil] at htail
      apply hcross
      rw [List.drop_eq_getElem_cons hj, (List.cons.inj hz).1, htail]
    | cons b z =>
      have hb : b = a := by
        obtain ⟨t', rfl⟩ := hzt
        exact ht b rfl
      apply ha
      rw [← htail, ← hb]
      exact List.mem_append_right _ List.mem_cons_self
  rw [replaceAll, scan_append (List.cons_ne_nil a w) hcut, List.flatMap_append]
  rfl

theorem replaceAll_of_length_lt (h : s.length < w.length) (v : List α) : replaceAll w v s = s := by
  apply replaceAll_of_find_eq_none
  rw [find_eq_none_iff]
  intro hin
  have hle := hin.length_le
  omega

/-- A string may be cut unless the word begins at its end, and then this beginning is left. -/
theorem replaceAll_append_or (ha : a ∉ w) (v s t : List α) :
    replaceAll (a :: w) v (s ++ t) = replaceAll (a :: w) v s ++ replaceAll (a :: w) v t ∨
      ∃ x y, x ≠ [] ∧ y ≠ [] ∧ x ++ y = a :: w ∧ x <:+ replaceAll (a :: w) v s := by
  by_cases hcut : ∀ j < s.length, a :: w <+: s.drop j ++ t → a :: w <+: s.drop j
  · left
    rw [replaceAll, scan_append (List.cons_ne_nil a w) hcut, List.flatMap_append]
    rfl
  · right
    simp only [not_forall] at hcut
    obtain ⟨j, hj, hstart, hcross⟩ := hcut
    have hor := List.prefix_or_prefix_of_prefix hstart (List.prefix_append (s.drop j) t)
    obtain ⟨y, hy⟩ := hor.resolve_left hcross
    have hx : s.drop j ≠ [] := by
      rw [Ne, List.drop_eq_nil_iff]
      omega
    have hyne : y ≠ [] := by
      rintro rfl
      rw [List.append_nil] at hy
      exact hcross (hy ▸ List.prefix_refl _)
    have hhead : ∀ b ∈ (s.drop j).head?, b = a := by
      intro b hb
      obtain ⟨x, hx⟩ := List.head?_eq_some_iff.mp hb
      rw [hx, List.cons_append] at hy
      exact (List.cons.inj hy).1
    have hshort : (s.drop j).length < (a :: w).length := by
      have hpos := List.length_pos_iff.mpr hyne
      rw [← hy, List.length_append]
      omega
    have hleft := replaceAll_append_of_head ha hhead v (s.take j)
    rw [List.take_append_drop, replaceAll_of_length_lt hshort] at hleft
    exact ⟨s.drop j, y, hx, hyne, hy, _, hleft.symm⟩

/-- What is left of a part that starts with the character is in what is left of the string, unless
it ends as the word begins. -/
theorem infix_replaceAll_of_infix (ha : a ∉ w) {part : List α} (v : List α)
    (hhead : ∀ b ∈ part.head?, b = a)
    (hend : ∀ x y, x ≠ [] → y ≠ [] → x ++ y = a :: w → ¬ x <:+ replaceAll (a :: w) v part)
    (h : part <:+: s) : replaceAll (a :: w) v part <:+: replaceAll (a :: w) v s := by
  obtain ⟨p, q, rfl⟩ := h
  by_cases hpart : part = []
  · subst hpart
    exact List.nil_infix
  · have hhead' : ∀ b ∈ (part ++ q).head?, b = a := by
      rw [List.head?_append_of_ne_nil _ hpart]
      exact hhead
    rw [List.append_assoc, replaceAll_append_of_head ha hhead']
    rcases replaceAll_append_or ha v part q with hcut | ⟨x, y, hx, hy, hxy, hsuffix⟩
    · rw [hcut, ← List.append_assoc]
      exact List.infix_append _ _ _
    · exact absurd hsuffix (hend x y hx hy hxy)

/-- What is left starts with the character only if the string does. -/
theorem head?_of_head?_replaceAll_nil (h : (replaceAll (a :: w) [] s).head? = some a) :
    s.head? = some a := by
  cases s with
  | nil => contradiction
  | cons b s =>
    by_cases hpre : a :: w <+: b :: s
    · obtain ⟨rest, hrest⟩ := hpre
      rw [← hrest]
      rfl
    · rw [replaceAll, scan_cons hpre, List.flatMap_cons] at h
      exact h

end

/-! ## Copies of a word between the characters of another -/

section

variable {x y : List α} {a : α} {n : ℕ}

/-- `t` is `s` with any number of copies of `w` between one character and the next. -/
inductive Stuffed (w : List α) : List α → List α → Prop
  | last (a : α) : Stuffed w [a] [a]
  | next {s t : List α} (a : α) (n : ℕ) (h : Stuffed w s t) :
      Stuffed w (a :: s) (a :: ((List.replicate n w).flatten ++ t))

omit [DecidableEq α] in
/-- Nothing stands before the first character. -/
theorem Stuffed.exists_cons (h : Stuffed w s t) : ∃ b s' t', s = b :: s' ∧ t = b :: t' := by
  cases h with
  | last b => exact ⟨b, [], [], rfl, rfl⟩
  | @next s' t' b n h => exact ⟨b, s', _, rfl, rfl⟩

theorem replaceAll_append_left (hw : w ≠ []) (s : List α) :
    replaceAll w [] (w ++ s) = replaceAll w [] s := by
  rw [replaceAll_nil_eq, scan_append_left hw, List.filterMap_cons, replaceAll_nil_eq]
  rfl

theorem replaceAll_cons (h : ¬ w <+: a :: s) :
    replaceAll w [] (a :: s) = a :: replaceAll w [] s := by
  rw [replaceAll_nil_eq, scan_cons h, List.filterMap_cons, replaceAll_nil_eq]
  rfl

theorem replaceAll_copies_append (hw : w ≠ []) (n : ℕ) (s : List α) :
    replaceAll w [] ((List.replicate n w).flatten ++ s) = replaceAll w [] s := by
  induction n with
  | zero => rw [List.replicate_zero, List.flatten_nil, List.nil_append]
  | succ n ih =>
    rw [List.replicate_succ, List.flatten_cons, List.append_assoc, replaceAll_append_left hw, ih]

/-- Nothing is left of copies only. -/
theorem eq_copies_of_replaceAll_eq_nil (hw : w ≠ []) (h : replaceAll w [] s = []) :
    ∃ n, s = (List.replicate n w).flatten := by
  induction s using find_induction hw with
  | none s hnone =>
    rw [replaceAll_of_find_eq_none hnone] at h
    exact ⟨0, h⟩
  | some s i hsome ih =>
    rw [replaceAll_of_find_eq_some hw hsome, List.append_nil, List.append_eq_nil_iff] at h
    obtain ⟨n, hn⟩ := ih h.2
    refine ⟨n + 1, ?_⟩
    rw [List.replicate_succ, List.flatten_cons, ← hn]
    have hsplit := eq_append_of_find hsome
    rw [h.1, List.nil_append] at hsplit
    exact hsplit.symm

/-- What is left of a string, with the copies that were between its characters, is what is between
the first copies and the last ones. -/
theorem exists_stuffed (hw : w ≠ []) (hs : replaceAll w [] s ≠ []) :
    ∃ m t n, s = (List.replicate m w).flatten ++ t ++ (List.replicate n w).flatten ∧
      Stuffed w (replaceAll w [] s) t ∧ replaceAll w [] t = replaceAll w [] s := by
  induction hlen : s.length using Nat.strong_induction_on generalizing s with
  | _ k ih =>
    cases s with
    | nil => exact absurd rfl hs
    | cons a s =>
      by_cases hpre : w <+: a :: s
      · obtain ⟨rest, hrest, hshorter⟩ := exists_rest_lt hw hpre
        rw [← hrest, replaceAll_append_left hw] at hs ⊢
        obtain ⟨m, t, n, hsplit, hstuffed, hleft⟩ := ih rest.length (by omega) hs rfl
        refine ⟨m + 1, t, n, ?_, hstuffed, hleft⟩
        rw [List.replicate_succ, List.flatten_cons]
        simp only [List.append_assoc] at hsplit ⊢
        rw [← hsplit]
      · rw [List.length_cons] at hlen
        rw [replaceAll_cons hpre]
        by_cases hnone : replaceAll w [] s = []
        · -- only copies are behind the character
          obtain ⟨n, rfl⟩ := eq_copies_of_replaceAll_eq_nil hw hnone
          have hshort : ¬ w <+: [a] := fun hin => hpre (hin.trans (List.prefix_append [a] _))
          refine ⟨0, [a], n, rfl, ?_, ?_⟩
          · rw [hnone]
            exact .last a
          · rw [hnone]
            exact replaceAll_cons hshort
        · obtain ⟨m, t, n, hsplit, hstuffed, hleft⟩ := ih s.length (by omega) hnone rfl
          have hshort : ¬ w <+: a :: ((List.replicate m w).flatten ++ t) := by
            intro hin
            apply hpre
            rw [hsplit]
            exact hin.trans (List.prefix_append _ _)
          refine ⟨0, a :: ((List.replicate m w).flatten ++ t), n, ?_, hstuffed.next a m, ?_⟩
          · rw [hsplit]
            rfl
          · rw [replaceAll_cons hshort, replaceAll_copies_append hw, hleft]

/-- What occurs in the string that is left was in the string, with copies of the word between its
characters. -/
theorem exists_stuffed_of_infix_replaceAll (hw : w ≠ []) (ht : t ≠ [])
    (h : t <:+: replaceAll w [] s) :
    ∃ part, part <:+: s ∧ Stuffed w t part ∧ replaceAll w [] part = t := by
  obtain ⟨whole, hwhole, rfl⟩ := exists_infix_of_infix_replaceAll hw h
  obtain ⟨m, part, n, hsplit, hstuffed, hleft⟩ := exists_stuffed hw ht
  exact ⟨part, List.IsInfix.trans ⟨_, _, hsplit.symm⟩ hwhole, hstuffed, hleft⟩

section

omit [DecidableEq α]

/-- A word does not start at a place without its first character. -/
theorem infix_of_infix_append_of_not_mem (ha : a ∉ x) (h : a :: v <:+: x ++ y) : a :: v <:+: y := by
  induction x with
  | nil => exact h
  | cons b x ih =>
    rw [List.mem_cons, not_or] at ha
    rw [List.cons_append, List.infix_cons_iff] at h
    rcases h with hpre | hin
    · exact absurd (List.cons_prefix_cons.mp hpre).1 ha.1
    · exact ih ha.2 hin

/-- Among copies of a word there is no other one with the same first character, unless the one
begins as the other. -/
theorem infix_of_infix_copies_append (ha : a ∉ w) (hv : ¬ a :: v <+: a :: w)
    (hw : ¬ a :: w <+: a :: v) (h : a :: v <:+: (List.replicate n (a :: w)).flatten ++ y) :
    a :: v <:+: y := by
  induction n with
  | zero => exact h
  | succ n ih =>
    rw [List.replicate_succ, List.flatten_cons, List.append_assoc, List.cons_append,
      List.infix_cons_iff] at h
    rcases h with hpre | hin
    · have hor := List.prefix_or_prefix_of_prefix hpre (List.prefix_append (a :: w) _)
      exact absurd hor (not_or.mpr ⟨hv, hw⟩)
    · exact ih (infix_of_infix_append_of_not_mem ha hin)

/-- A word occurs only at the start, where the first character is not between the copies. -/
theorem Stuffed.not_infix_tail (h : Stuffed (a :: w) s t) (ha : a ∉ w) (hs : a ∉ s.tail)
    (hv : ¬ a :: v <+: a :: w) (hw : ¬ a :: w <+: a :: v) : ¬ a :: v <:+: t.tail := by
  induction h with
  | last b => simp
  | @next s t b n h ih =>
    intro hin
    rw [List.tail_cons] at hs hin
    have hbehind := infix_of_infix_copies_append ha hv hw hin
    obtain ⟨c, s', t', rfl, rfl⟩ := h.exists_cons
    rw [List.mem_cons, not_or] at hs
    rw [List.infix_cons_iff] at hbehind
    rcases hbehind with hpre | hlater
    · exact hs.1 (List.cons_prefix_cons.mp hpre).1
    · exact ih hs.2 hlater

/-- Copies behind the first character of a word are not what the word goes on with. -/
theorem eq_zero_of_prefix_copies {b : α} (hb : b ≠ a)
    (h : b :: v <+: (List.replicate n (a :: w)).flatten ++ y) : n = 0 := by
  cases n with
  | zero => rfl
  | succ n =>
    rw [List.replicate_succ, List.flatten_cons, List.append_assoc, List.cons_append,
      List.cons_prefix_cons] at h
    exact absurd h.1 hb

/-- What the string starts with, up to the first character of the copies, was there before. -/
theorem Stuffed.prefix_of_prefix {b : α} (h : Stuffed (a :: w) s t) (hv : a ∉ v)
    (hpre : b :: v <+: t) : b :: v <+: s := by
  induction h generalizing b v with
  | last c => exact hpre
  | @next s t c n h ih =>
    rw [List.cons_prefix_cons] at hpre ⊢
    refine ⟨hpre.1, ?_⟩
    cases v with
    | nil => exact List.nil_prefix
    | cons d v =>
      rw [List.mem_cons, not_or] at hv
      obtain rfl := eq_zero_of_prefix_copies (Ne.symm hv.1) hpre.2
      exact ih hv.2 hpre.2

/-- If all of it is there at the start, there are no copies. -/
theorem Stuffed.eq_of_prefix (h : Stuffed (a :: w) s t) (hs : a ∉ s.tail) (hpre : s <+: t) :
    t = s := by
  induction h with
  | last c => rfl
  | @next s t c n h ih =>
    rw [List.tail_cons] at hs
    have hrest := (List.cons_prefix_cons.mp hpre).2
    obtain ⟨d, s', t', rfl, rfl⟩ := h.exists_cons
    rw [List.mem_cons, not_or] at hs
    obtain rfl := eq_zero_of_prefix_copies (Ne.symm hs.1) hrest
    rw [ih hs.2 hrest]
    rfl

end

/-- The copies are what is removed, if the word is nowhere else. -/
theorem Stuffed.replaceAll_eq (h : Stuffed (a :: w) s t) (ha : a ∉ w) (hs : ¬ a :: w <:+: s.tail)
    (ht : ¬ a :: w <+: t) : replaceAll (a :: w) [] t = s := by
  induction h with
  | last b => exact replaceAll_cons ht
  | @next s t b n h ih =>
    obtain ⟨c, s', t', rfl, rfl⟩ := h.exists_cons
    rw [List.tail_cons, List.infix_cons_iff, not_or] at hs
    have hrest : ¬ a :: w <+: c :: t' := fun hpre => hs.1 (h.prefix_of_prefix ha hpre)
    rw [replaceAll_cons ht, replaceAll_copies_append (List.cons_ne_nil a w), ih hs.2 hrest]

end

/-! ## Pieces -/

/-- Pieces without the word that the word joins to the string. -/
structure Splits (w s : List α) (pieces : List (List α)) : Prop where
  free : ∀ piece ∈ pieces, ¬ w <:+: piece
  join : w.intercalate pieces = s

theorem splits_of_find_eq_none (h : find w s = none) : Splits w s [s] where
  free := by
    rw [List.forall_mem_singleton]
    exact find_eq_none_iff.mp h
  join := List.intercalate_singleton

/-- What is before the first occurrence, and the pieces of what is behind it. -/
theorem Splits.cons {pieces : List (List α)} (hw : w ≠ []) (h : find w s = some i)
    (hpieces : pieces ≠ []) (hrest : Splits w (s.drop (i + w.length)) pieces) :
    Splits w s (s.take i :: pieces) where
  free := by
    rw [List.forall_mem_cons]
    exact ⟨not_infix_take_of_find hw h, hrest.free⟩
  join := by
    rw [List.intercalate_cons_of_ne_nil hpieces, hrest.join]
    exact eq_append_of_find h

/-- A word is found behind a text without its first character. -/
theorem find_append_of_not_mem {a : α} (h : a ∉ t) (s : List α) :
    find (a :: w) (t ++ (a :: w ++ s)) = some t.length := by
  refine find_eq_some_iff.mpr ⟨?_, ?_, ?_⟩
  · rw [List.drop_left]
    exact List.prefix_append _ _
  · rw [List.length_append]
    omega
  · rintro j hj ⟨rest, hrest⟩
    rw [List.drop_append_of_le_length (by omega), List.drop_eq_getElem_cons hj] at hrest
    have hhead := (List.cons.inj hrest).1
    exact h (hhead ▸ List.getElem_mem hj)

end Foundation
