import Win32Experiments.Foundation.Occurrences
import Mathlib.Tactic.Common

/-!
# `WinHttpWebSocket::CleanServerString`

The schemes are removed from the server string in one pass for each. A pass does not look again at
what it has joined, and the second may join what the first one was to remove.

* `replace_eq`: `Replace` replaces the leftmost occurrences;
* `exists_part_of_infix_cleaned`, `infix_cleaned_of_part`: a scheme that is left was in the string,
  with schemes between its characters;
* `cleanServerString_clean_iff`: when none is left.
-/

namespace Win32Experiments.WebSocketProto

open Foundation

/-! ## The functions -/

/-- The loop of `Replace`, with fuel. -/
def replaceLoop (source from' to' : List UInt16) :
    ℕ → List UInt16 → ℕ → Option (List UInt16)
  | 0, _, _ => none
  | fuel + 1, newString, lastPos =>
    match findFrom from' source lastPos with
    | none => (substr source lastPos).map (newString ++ ·)
    | some findPos =>
      let newString := newString ++ (source.drop lastPos).take (findPos - lastPos) ++ to'
      replaceLoop source from' to' fuel newString (findPos + from'.length)

/-- `Replace`; `none` when its loop does not end, or throws. -/
def replace (source from' to' : List UInt16) : Option (List UInt16) :=
  replaceLoop source from' to' (source.length + 1) [] 0

/-- `L"http://"`. -/
def whatToReplace1 : List UInt16 := "http://".toList.map fun c => c.toNat.toUInt16

/-- `L"https://"`. -/
def whatToReplace2 : List UInt16 := "https://".toList.map fun c => c.toNat.toUInt16

/-- `CleanServerString`: what becomes of `m_server`. -/
def cleanServerString (server : List UInt16) : Option (List UInt16) :=
  (replace server whatToReplace1 []).bind fun s => replace s whatToReplace2 []

/-- The string contains neither scheme, and `CleanServerString` does not change it. -/
structure Clean (server : List UInt16) : Prop where
  noHttp : ¬ whatToReplace1 <:+: server
  noHttps : ¬ whatToReplace2 <:+: server
  fixed : cleanServerString server = some server

/-! ## `Replace` -/

section

variable {source from' : List UInt16} {fuel lastPos : ℕ}

/-- The loop adds what is behind the last position, with the occurrences replaced. -/
theorem replaceLoop_eq (hf : from' ≠ []) (to' newString : List UInt16)
    (hlast : lastPos ≤ source.length) (hfuel : source.length - lastPos < fuel) :
    replaceLoop source from' to' fuel newString lastPos =
      some (newString ++ replaceAll from' to' (source.drop lastPos)) := by
  induction fuel generalizing newString lastPos with
  | zero => omega
  | succ fuel ih =>
    cases hfind : find from' (source.drop lastPos) with
    | none =>
      rw [replaceLoop, findFrom_eq hf, hfind, replaceAll_of_find_eq_none hfind]
      show (substr source lastPos).map (newString ++ ·) = _
      rw [substr_eq hlast, Option.map_some]
    | some i =>
      have hpos := List.length_pos_iff.mpr hf
      have hle := find_add_length_le hfind
      rw [List.length_drop] at hle
      have hnext : lastPos + i + from'.length ≤ source.length := by omega
      have hless : source.length - (lastPos + i + from'.length) < fuel := by omega
      rw [replaceLoop, findFrom_eq hf, hfind]
      show replaceLoop source from' to' fuel
        (newString ++ (source.drop lastPos).take (lastPos + i - lastPos) ++ to')
        (lastPos + i + from'.length) = _
      rw [ih _ hnext hless, Nat.add_sub_cancel_left, replaceAll_of_find_eq_some hf hfind,
        List.drop_drop, Nat.add_assoc]
      simp only [List.append_assoc]

/-- `Replace` replaces the leftmost occurrences that do not overlap. -/
theorem replace_eq (hf : from' ≠ []) (source to' : List UInt16) :
    replace source from' to' = some (replaceAll from' to' source) := by
  rw [replace, replaceLoop_eq hf to' [] (Nat.zero_le _) (by omega), List.nil_append,
    List.drop_zero]

end

/-! ## What is left of a string -/

/-- The string without the leftmost occurrences of `http://`, and what is left then without those of
`https://`. -/
def cleaned (server : List UInt16) : List UInt16 :=
  replaceAll whatToReplace2 [] (replaceAll whatToReplace1 [] server)

theorem cleanServerString_eq (server : List UInt16) :
    cleanServerString server = some (cleaned server) := by
  have hone : whatToReplace1 ≠ [] := by decide
  have htwo : whatToReplace2 ≠ [] := by decide
  rw [cleanServerString, replace_eq hone, Option.bind_some, replace_eq htwo, cleaned]

theorem whatToReplace1_ne_nil : whatToReplace1 ≠ [] := by decide

theorem whatToReplace2_ne_nil : whatToReplace2 ≠ [] := by decide

/-- A string is left alone exactly when it contains neither scheme. -/
theorem cleaned_eq_self_iff {server : List UInt16} :
    cleaned server = server ↔ ¬ whatToReplace1 <:+: server ∧ ¬ whatToReplace2 <:+: server := by
  have hfirst := length_replaceAll_nil_le whatToReplace1_ne_nil server
  have hsecond :=
    length_replaceAll_nil_le whatToReplace2_ne_nil (replaceAll whatToReplace1 [] server)
  constructor
  · intro hself
    have hlen := congrArg List.length hself
    rw [cleaned] at hlen
    have hno : ¬ whatToReplace1 <:+: server := by
      intro hin
      have hless := length_replaceAll_nil_lt whatToReplace1_ne_nil hin
      omega
    refine ⟨hno, fun hin => ?_⟩
    have hless := length_replaceAll_nil_lt whatToReplace2_ne_nil hin
    rw [replaceAll_of_find_eq_none (find_eq_none_iff.mpr hno)] at hlen
    omega
  · rintro ⟨hno, hno'⟩
    rw [cleaned, replaceAll_of_find_eq_none (find_eq_none_iff.mpr hno),
      replaceAll_of_find_eq_none (find_eq_none_iff.mpr hno')]

/-! ## The schemes that are left -/

/-- One of the two schemes. -/
def IsScheme (s : List UInt16) : Prop := s = whatToReplace1 ∨ s = whatToReplace2

/-- Both schemes have their first letter only there. -/
theorem IsScheme.eq_cons {s : List UInt16} (h : IsScheme s) : ∃ s', s = 104 :: s' ∧ 104 ∉ s' := by
  rcases h with rfl | rfl
  · exact ⟨_, rfl, by decide⟩
  · exact ⟨_, rfl, by decide⟩

/-- A scheme does not end as a scheme begins. -/
theorem IsScheme.not_suffix {s scheme x y : List UInt16} (hs : IsScheme s)
    (hscheme : IsScheme scheme) (hx : x ≠ []) (hy : y ≠ []) (hxy : x ++ y = scheme) :
    ¬ x <:+ s := by
  rintro ⟨z, hz⟩
  obtain ⟨s', hs', hnot⟩ := hs.eq_cons
  obtain ⟨scheme', hscheme', -⟩ := hscheme.eq_cons
  obtain ⟨c, x', rfl⟩ := List.exists_cons_of_ne_nil hx
  have hc : c = 104 := by
    rw [hscheme', List.cons_append] at hxy
    exact (List.cons.inj hxy).1
  subst hc
  cases z with
  | cons d z =>
    rw [hs', List.cons_append] at hz
    have htail := (List.cons.inj hz).2
    exact hnot (htail ▸ List.mem_append_right z List.mem_cons_self)
  | nil =>
    -- the scheme begins with the other one
    rw [List.nil_append] at hz
    have hlen := congrArg List.length hxy
    have hpos := List.length_pos_iff.mpr hy
    rw [List.length_append, hz] at hlen
    have hpre : s <+: scheme := ⟨y, by rw [← hz, hxy]⟩
    rcases hs with rfl | rfl
    · rcases hscheme with rfl | rfl
      · omega
      · revert hpre
        decide
    · rcases hscheme with rfl | rfl
      · revert hpre
        decide
      · omega

/-- The beginning of the one scheme is not removed with the other. -/
theorem suffix_replaceAll_whatToReplace2 {x y s : List UInt16}
    (hxy : x ++ y = whatToReplace1) (h : x <:+ s) : x <:+ replaceAll whatToReplace2 [] s := by
  obtain ⟨z, rfl⟩ := h
  have htwo : whatToReplace2 = 104 :: whatToReplace2.tail := rfl
  have hhead : ∀ b ∈ x.head?, b = 104 := by
    intro b hb
    obtain ⟨x', rfl⟩ := List.head?_eq_some_iff.mp hb
    rw [List.cons_append] at hxy
    exact (List.cons.inj hxy).1
  have hshort : x.length < whatToReplace2.length := by
    have hlen := congrArg List.length hxy
    have hone : whatToReplace1.length = 7 := rfl
    have hlong : whatToReplace2.length = 8 := rfl
    rw [List.length_append] at hlen
    omega
  refine ⟨replaceAll whatToReplace2 [] z, ?_⟩
  have hcut := @replaceAll_append_of_head _ _ whatToReplace2.tail x 104 (by decide) hhead [] z
  rw [← htwo, replaceAll_of_length_lt hshort] at hcut
  exact hcut.symm

/-- A part that becomes a scheme becomes it within the string, too. -/
theorem infix_cleaned_of_part {server part scheme : List UInt16} (hscheme : IsScheme scheme)
    (hcleaned : cleaned part = scheme) (hpart : part <:+: server) :
    scheme <:+: cleaned server := by
  obtain ⟨scheme', hhead, -⟩ := hscheme.eq_cons
  have hone : whatToReplace1 = 104 :: whatToReplace1.tail := rfl
  have htwo : whatToReplace2 = 104 :: whatToReplace2.tail := rfl
  -- the part starts with the first letter of the schemes, before each pass
  have hjoinedHead : (replaceAll whatToReplace1 [] part).head? = some 104 := by
    have hcleanedHead : (cleaned part).head? = some 104 := by
      rw [hcleaned, hhead]
      rfl
    rw [cleaned, htwo] at hcleanedHead
    exact head?_of_head?_replaceAll_nil hcleanedHead
  have hpartHead : part.head? = some 104 := by
    rw [hone] at hjoinedHead
    exact head?_of_head?_replaceAll_nil hjoinedHead
  have hfirst : replaceAll whatToReplace1 [] part <:+: replaceAll whatToReplace1 [] server := by
    rw [hone]
    refine infix_replaceAll_of_infix (by decide) [] ?_ ?_ hpart
    · intro b hb
      exact Option.some.inj (hb.symm.trans hpartHead)
    · intro x y hx hy hxy hsuffix
      rw [← hone] at hxy hsuffix
      have hleft := suffix_replaceAll_whatToReplace2 hxy hsuffix
      rw [← cleaned, hcleaned] at hleft
      exact hscheme.not_suffix (Or.inl rfl) hx hy hxy hleft
  rw [← hcleaned, cleaned, cleaned, htwo]
  refine infix_replaceAll_of_infix (by decide) [] ?_ ?_ hfirst
  · intro b hb
    exact Option.some.inj (hb.symm.trans hjoinedHead)
  · intro x y hx hy hxy hsuffix
    rw [← htwo] at hxy hsuffix
    rw [← cleaned, hcleaned] at hsuffix
    exact hscheme.not_suffix (Or.inr rfl) hx hy hxy hsuffix

/-- A scheme that has copies of `https://` between its characters, and then copies of `http://`
between the characters of that. If the scheme is `http://` there is a copy of one of them, if it is
`https://` one of `https://`. -/
def HidesScheme (part : List UInt16) : Prop :=
  ∃ joined, Stuffed whatToReplace1 joined part ∧
    (Stuffed whatToReplace2 whatToReplace1 joined ∧ part ≠ whatToReplace1 ∨
      Stuffed whatToReplace2 whatToReplace2 joined ∧ joined ≠ whatToReplace2)

/-- A scheme that is left was hidden in the string. -/
theorem exists_part_of_infix_cleaned {server scheme : List UInt16} (hscheme : IsScheme scheme)
    (h : scheme <:+: cleaned server) : ∃ part, part <:+: server ∧ HidesScheme part := by
  have hne : scheme ≠ [] := by
    obtain ⟨scheme', rfl, -⟩ := hscheme.eq_cons
    exact List.cons_ne_nil _ _
  obtain ⟨joined, hjoined, hsecond, hleft⟩ :=
    exists_stuffed_of_infix_replaceAll whatToReplace2_ne_nil hne h
  have hjoinedNe : joined ≠ [] := by
    rintro rfl
    exact hne hleft.symm
  obtain ⟨part, hpart, hfirst, hleft'⟩ :=
    exists_stuffed_of_infix_replaceAll whatToReplace1_ne_nil hjoinedNe hjoined
  refine ⟨part, hpart, joined, hfirst, ?_⟩
  rcases hscheme with rfl | rfl
  · refine Or.inl ⟨hsecond, fun hself => ?_⟩
    have hnone : replaceAll whatToReplace1 [] whatToReplace1 = [] := by decide
    rw [hself, hnone] at hleft'
    exact hjoinedNe hleft'.symm
  · refine Or.inr ⟨hsecond, fun hself => ?_⟩
    have hnone : replaceAll whatToReplace2 [] whatToReplace2 = [] := by decide
    rw [hself, hnone] at hleft
    exact hne hleft.symm

/-- What hides a scheme becomes it. -/
theorem HidesScheme.cleaned_eq {part : List UInt16} (h : HidesScheme part) :
    IsScheme (cleaned part) := by
  have hhead : (104 : UInt16) ∉ whatToReplace1.tail := by decide
  have hhead' : (104 : UInt16) ∉ whatToReplace2.tail := by decide
  have hno : ¬ whatToReplace1 <+: whatToReplace2 := by decide
  have hno' : ¬ whatToReplace2 <+: whatToReplace1 := by decide
  obtain ⟨joined, hfirst, hsecond⟩ := h
  -- the first pass leaves `joined`: the other scheme that is there at most at the start
  have hpass : ∀ scheme, IsScheme scheme → Stuffed whatToReplace2 scheme joined →
      ¬ whatToReplace1 <+: part → replaceAll whatToReplace1 [] part = joined := by
    intro scheme hscheme hstuffed htop
    obtain ⟨scheme', rfl, hnot⟩ := hscheme.eq_cons
    exact hfirst.replaceAll_eq hhead (hstuffed.not_infix_tail hhead' hnot hno hno') htop
  rcases hsecond with ⟨hstuffed, hne⟩ | ⟨hstuffed, hne⟩
  · have htop : ¬ whatToReplace1 <+: part := by
      intro hpre
      have hjoined := hstuffed.eq_of_prefix hhead (hfirst.prefix_of_prefix hhead hpre)
      rw [hjoined] at hfirst
      exact hne (hfirst.eq_of_prefix hhead hpre)
    have htail : ¬ whatToReplace2 <:+: whatToReplace1.tail := by decide
    have htop' : ¬ whatToReplace2 <+: joined :=
      fun hpre => hno' (hstuffed.prefix_of_prefix hhead' hpre)
    left
    rw [cleaned, hpass _ (Or.inl rfl) hstuffed htop]
    exact hstuffed.replaceAll_eq hhead' htail htop'
  · have htop : ¬ whatToReplace1 <+: part := by
      intro hpre
      exact hno (hstuffed.prefix_of_prefix hhead (hfirst.prefix_of_prefix hhead hpre))
    have htail : ¬ whatToReplace2 <:+: whatToReplace2.tail := by decide
    have htop' : ¬ whatToReplace2 <+: joined :=
      fun hpre => hne (hstuffed.eq_of_prefix hhead' hpre)
    right
    rw [cleaned, hpass _ (Or.inr rfl) hstuffed htop]
    exact hstuffed.replaceAll_eq hhead' htail htop'

/-- **`CleanServerString`.** It removes the leftmost occurrences of the one scheme and then of the
other; no scheme is left, and another call changes nothing, exactly when no part of the server
string hides one. -/
theorem cleanServerString_clean_iff (server : List UInt16) :
    cleanServerString server = some (cleaned server) ∧
      (Clean (cleaned server) ↔ ∀ part, part <:+: server → ¬ HidesScheme part) := by
  refine ⟨cleanServerString_eq server, ?_⟩
  constructor
  · intro hclean part hpart hhides
    have hscheme := hhides.cleaned_eq
    have hleft := infix_cleaned_of_part hscheme rfl hpart
    rcases hscheme with hone | htwo
    · exact hclean.noHttp (hone ▸ hleft)
    · exact hclean.noHttps (htwo ▸ hleft)
  · intro hnone
    have hno : ∀ scheme, IsScheme scheme → ¬ scheme <:+: cleaned server := by
      intro scheme hscheme hin
      obtain ⟨part, hpart, hhides⟩ := exists_part_of_infix_cleaned hscheme hin
      exact hnone part hpart hhides
    have hone := hno _ (Or.inl rfl)
    have htwo := hno _ (Or.inr rfl)
    refine ⟨hone, htwo, ?_⟩
    rw [cleanServerString_eq, cleaned_eq_self_iff.mpr ⟨hone, htwo⟩]

/-- `L"hthttp://tp://"` becomes a scheme. -/
theorem cleanServerString_counterexample :
    cleanServerString ("hthttp://tp://".toList.map fun c => c.toNat.toUInt16) =
        some whatToReplace1 ∧
      ¬ Clean whatToReplace1 ∧ cleanServerString whatToReplace1 = some [] := by
  refine ⟨by decide, fun hclean => hclean.noHttp (List.infix_refl _), by decide⟩

/-- The second pass may join what the first one was to remove. -/
example : cleanServerString ("hthttps://tp://".toList.map fun c => c.toNat.toUInt16) =
    some whatToReplace1 := by decide

end Win32Experiments.WebSocketProto
