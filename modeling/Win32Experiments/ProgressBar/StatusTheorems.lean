import Mathlib.Algebra.Order.Group.Unbundled.Int
import Win32Experiments.ProgressBar.ProgressWindow

/-!
# The window shows what was asked for

While the window shows what was asked for, a setter sends what differs and the bar follows, as
long as the range fits in two words. A status built by its constructor does not hold the
maximum that was asked for, unless its memory held it.
-/

namespace Win32Experiments.ProgressBar

open Foundation

/-! ## Statements -/

/-- The bar and the fields of `Status` are what was asked for. -/
structure Shows (w : ProgressWindow) : Prop where
  low : w.bar.low = w.asked.min
  high : w.bar.high = w.asked.max
  position : w.bar.position = w.asked.value
  min : w.Status.Min = w.asked.min
  max : w.Status.Max = w.asked.max
  value : w.Status.Value = w.asked.value

/-- The window, if there is one, shows what was asked for. -/
def ShowsAsked (o : Option ProgressWindow) : Prop := ∀ w ∈ o, Shows w

/-- The range can be sent: it is in the range of an unsigned word. -/
def InWord (min max : ℤ) : Prop := 0 ≤ min ∧ max < 2 ^ 16

/-- The range asked for is one of words, and a status has it in its memory. -/
def Sendable (_ : Option ProgressWindow) : Call → Prop
  | .construct a => a.memory = a.max ∧ InWord a.min a.max
  | .setStatus a => a.memory = a.max ∧ InWord a.min a.max
  | .setValue _ => True
  | .setValueRange _ min max => InWord min max
  | .setProgress min max => InWord min max

instance (min max : ℤ) : Decidable (InWord min max) := inferInstanceAs (Decidable (_ ∧ _))

instance (o : Option ProgressWindow) : ∀ call : Call, Decidable (Sendable o call)
  | .construct _ => inferInstanceAs (Decidable (_ ∧ _))
  | .setStatus _ => inferInstanceAs (Decidable (_ ∧ _))
  | .setValue _ => isTrue trivial
  | .setValueRange _ min max => inferInstanceAs (Decidable (InWord min max))
  | .setProgress min max => inferInstanceAs (Decidable (InWord min max))

/-! ## The bar -/

theorem clamp_of_mem {low high v : ℤ} (hlow : low ≤ v) (hhigh : v ≤ high) :
    clamp low high v = v := by
  unfold clamp
  omega

/-- A word holds the numbers of its range. -/
theorem loword_eq_iff (n : ℤ) : loword n = n ↔ 0 ≤ n ∧ n < 2 ^ 16 := by
  unfold loword
  omega

/-- Both ends of a range in order are words exactly if the range is one of words. -/
theorem loword_range_iff {min max : ℤ} (h : min ≤ max) :
    loword min = min ∧ loword max = max ↔ InWord min max := by
  rw [loword_eq_iff, loword_eq_iff]
  unfold InWord
  omega

/-! ## The setters -/

variable {w w' : ProgressWindow} {asked : Asked} {value min max : ℤ}

/-- A setter of the value and the range shows them exactly if the range can be sent. -/
theorem shows_setValueRange_iff (w : ProgressWindow) (hmin : min ≤ value) (hmax : value ≤ max)
    {memory : ℤ} :
    Shows { w.setValueRange value min memory with asked := ⟨value, min, max⟩ } ↔
      memory = max ∧ InWord min max := by
  have hle : min ≤ max := by omega
  have hrange := loword_range_iff hle
  constructor
  · intro h
    have hmemory : memory = max := h.max
    refine ⟨hmemory, hrange.mp ⟨h.low, ?_⟩⟩
    rw [← hmemory]
    exact h.high.trans hmemory.symm
  · rintro ⟨rfl, hword⟩
    obtain ⟨hlow, hhigh⟩ := hrange.mpr hword
    refine ⟨hlow, hhigh, ?_, rfl, rfl, rfl⟩
    show clamp (loword min) (loword memory) value = value
    rw [hlow, hhigh]
    exact clamp_of_mem hmin hmax

/-- `w'` is `w` but for texts and marquee. -/
structure SameNumbers (w w' : ProgressWindow) : Prop where
  low : w'.bar.low = w.bar.low
  high : w'.bar.high = w.bar.high
  position : w'.bar.position = w.bar.position
  min : w'.Status.Min = w.Status.Min
  max : w'.Status.Max = w.Status.Max
  value : w'.Status.Value = w.Status.Value
  asked : w'.asked = w.asked

theorem SameNumbers.trans {w'' : ProgressWindow} (h : SameNumbers w w') (h' : SameNumbers w' w'') :
    SameNumbers w w'' :=
  ⟨h'.low.trans h.low, h'.high.trans h.high, h'.position.trans h.position, h'.min.trans h.min,
    h'.max.trans h.max, h'.value.trans h.value, h'.asked.trans h.asked⟩

theorem sameNumbers_refl (w : ProgressWindow) : SameNumbers w w :=
  ⟨rfl, rfl, rfl, rfl, rfl, rfl, rfl⟩

theorem sameNumbers_ite {p : Prop} [Decidable p] (h : SameNumbers w w') :
    SameNumbers w (if p then w' else w) := by
  split
  · exact h
  · exact sameNumbers_refl w

/-- `SetStatus` sends the range where it differs. -/
def setRangeIfChanged (w : ProgressWindow) (status : ProgressStatus) : ProgressWindow :=
  if w.Status.Max ≠ status.Max ∨ w.Status.Min ≠ status.Min then
    w.setProgress status.Min status.Max
  else w

/-- `SetStatus` sends the value where it differs. -/
def setValueIfChanged (w : ProgressWindow) (status : ProgressStatus) : ProgressWindow :=
  if w.Status.Value ≠ status.Value then w.setValue status.Value else w

/-- The texts and the marquee go before. -/
theorem setStatus_eq (w : ProgressWindow) (status : ProgressStatus) :
    ∃ w', SameNumbers w w' ∧
      w.setStatus status = setValueIfChanged (setRangeIfChanged w' status) status := by
  let w₁ := if w.Status.Title ≠ status.Title then w.setTitle status.Title else w
  let w₂ := if w₁.Status.Text ≠ status.Text then w₁.setText status.Text else w₁
  let w₃ := if w₂.Status.Marquee ≠ status.Marquee then w₂.setMarquee status.Marquee else w₂
  have h₁ : SameNumbers w w₁ := sameNumbers_ite ⟨rfl, rfl, rfl, rfl, rfl, rfl, rfl⟩
  have h₂ : SameNumbers w₁ w₂ := sameNumbers_ite ⟨rfl, rfl, rfl, rfl, rfl, rfl, rfl⟩
  have h₃ : SameNumbers w₂ w₃ := sameNumbers_ite ⟨rfl, rfl, rfl, rfl, rfl, rfl, rfl⟩
  exact ⟨w₃, (h₁.trans h₂).trans h₃, rfl⟩

/-- A window that shows what was asked for, and what was asked for can be sent and is in
order. -/
structure Good (w : ProgressWindow) : Prop where
  shows : Shows w
  inWord : InWord w.asked.min w.asked.max
  ordered : w.asked.Ordered

theorem Good.same (hw : Good w) (h : SameNumbers w w') : Good w' where
  shows := by
    constructor
    · rw [h.low, h.asked, hw.shows.low]
    · rw [h.high, h.asked, hw.shows.high]
    · rw [h.position, h.asked, hw.shows.position]
    · rw [h.min, h.asked, hw.shows.min]
    · rw [h.max, h.asked, hw.shows.max]
    · rw [h.value, h.asked, hw.shows.value]
  inWord := by
    rw [h.asked]
    exact hw.inWord
  ordered := by
    rw [h.asked]
    exact hw.ordered

/-- Behind the first message, a window that showed its numbers shows the new range, if that can
be sent, and the old value moved into it. -/
theorem setRangeIfChanged_bar (hw : Good w) {status : ProgressStatus}
    (hle : status.Min ≤ status.Max) (hword : InWord status.Min status.Max) :
    (setRangeIfChanged w status).bar.low = status.Min ∧
      (setRangeIfChanged w status).bar.high = status.Max ∧
      (setRangeIfChanged w status).bar.position
        = clamp status.Min status.Max w.asked.value := by
  obtain ⟨hlow, hhigh⟩ := (loword_range_iff hle).mpr hword
  unfold setRangeIfChanged
  split
  · refine ⟨hlow, hhigh, ?_⟩
    show clamp (loword status.Min) (loword status.Max) w.bar.position = _
    rw [hlow, hhigh, hw.shows.position]
  · rename_i hsame
    obtain ⟨hmax, hmin⟩ := not_or.mp hsame
    rw [not_not] at hmax hmin
    obtain ⟨hlo, hhi⟩ := hw.ordered
    rw [← hmin, ← hmax, hw.shows.low, hw.shows.high, hw.shows.position, hw.shows.min,
      hw.shows.max, clamp_of_mem hlo hhi]
    exact ⟨rfl, rfl, rfl⟩

/-- If the bar has the range of a status, it was sent, or it was there before. -/
theorem inWord_of_setRangeIfChanged (hw : Good w) {status : ProgressStatus}
    (hle : status.Min ≤ status.Max)
    (hlow : (setRangeIfChanged w status).bar.low = status.Min)
    (hhigh : (setRangeIfChanged w status).bar.high = status.Max) :
    InWord status.Min status.Max := by
  unfold setRangeIfChanged at hlow hhigh
  split at hlow
  · rename_i hchanged
    rw [if_pos hchanged] at hhigh
    exact (loword_range_iff hle).mp ⟨hlow, hhigh⟩
  · rename_i hsame
    rw [if_neg hsame] at hhigh
    rw [← hlow, ← hhigh, hw.shows.low, hw.shows.high]
    exact hw.inWord

/-- The numbers of the status are taken over. -/
theorem status_setRangeIfChanged (w : ProgressWindow) (status : ProgressStatus) :
    (setRangeIfChanged w status).Status.Min = status.Min ∧
      (setRangeIfChanged w status).Status.Max = status.Max ∧
      (setRangeIfChanged w status).Status.Value = w.Status.Value := by
  unfold setRangeIfChanged
  split
  · exact ⟨rfl, rfl, rfl⟩
  · rename_i hsame
    obtain ⟨hmax, hmin⟩ := not_or.mp hsame
    exact ⟨not_not.mp hmin, not_not.mp hmax, rfl⟩

theorem setValueIfChanged_eq (w : ProgressWindow) (status : ProgressStatus) :
    (setValueIfChanged w status).Status = { w.Status with Value := status.Value } ∧
      (setValueIfChanged w status).bar.low = w.bar.low ∧
      (setValueIfChanged w status).bar.high = w.bar.high ∧
      (setValueIfChanged w status).bar.position =
        if w.Status.Value ≠ status.Value then clamp w.bar.low w.bar.high status.Value
        else w.bar.position := by
  unfold setValueIfChanged
  split
  · exact ⟨rfl, rfl, rfl, rfl⟩
  · rename_i hsame
    rw [← not_not.mp hsame]
    exact ⟨rfl, rfl, rfl, rfl⟩

/-- `SetStatus` leads from a good window to one that shows the status exactly if the status has
the maximum asked for and the range can be sent. -/
theorem shows_setStatus_iff (hw : Good w) {a : StatusArguments} (ha : a.asked.Ordered) :
    Shows { w.setStatus a.status with asked := a.asked } ↔
      a.memory = a.max ∧ InWord a.min a.max := by
  obtain ⟨hmin, hmax⟩ := ha
  have hle : a.min ≤ a.max := le_trans hmin hmax
  obtain ⟨w', hsame, heq⟩ := setStatus_eq w a.status
  have hw' := hw.same hsame
  obtain ⟨hMin, hMax, hValue⟩ := status_setRangeIfChanged w' a.status
  obtain ⟨hStatus, hlow, hhigh, hposition⟩ :=
    setValueIfChanged_eq (setRangeIfChanged w' a.status) a.status
  rw [heq]
  constructor
  · intro h
    have hmemory : a.memory = a.max := by
      have hfield := h.max
      dsimp only at hfield
      rw [hStatus] at hfield
      exact hMax.symm.trans hfield
    refine ⟨hmemory, ?_⟩
    have hordered : a.status.Min ≤ a.status.Max := hle.trans hmemory.ge
    have hword := inWord_of_setRangeIfChanged hw' hordered (hlow.symm.trans h.low)
      ((hhigh.symm.trans h.high).trans hmemory.symm)
    exact ⟨hword.1, hmemory ▸ hword.2⟩
  · rintro ⟨hmemory, hword⟩
    have hordered : a.status.Min ≤ a.status.Max := hle.trans hmemory.ge
    have hstatusMax : a.status.Value ≤ a.status.Max := hmax.trans hmemory.ge
    have hstatusWord : InWord a.status.Min a.status.Max := ⟨hword.1, lt_of_eq_of_lt hmemory hword.2⟩
    obtain ⟨hbarLow, hbarHigh, hbarPosition⟩ := setRangeIfChanged_bar hw' hordered hstatusWord
    constructor
    · exact hlow.trans hbarLow
    · exact (hhigh.trans hbarHigh).trans hmemory
    · dsimp only
      rw [hposition, hbarLow, hbarHigh, hbarPosition, hValue]
      split
      · exact clamp_of_mem hmin hstatusMax
      · rename_i hsent
        have hvalue : w'.asked.value = a.value := by
          rw [← hw'.shows.value]
          exact not_not.mp hsent
        rw [hvalue]
        exact clamp_of_mem hmin hstatusMax
    · dsimp only
      rw [hStatus]
      exact hMin
    · dsimp only
      rw [hStatus]
      exact hMax.trans hmemory
    · dsimp only
      rw [hStatus]
      rfl

theorem shows_setValue (hw : Good w) {value : ℤ} (hasked : Asked.Ordered { w.asked with value }) :
    Shows { w.setValue value with asked := { w.asked with value } } := by
  obtain ⟨hlow, hhigh⟩ := hasked
  refine ⟨hw.shows.low, hw.shows.high, ?_, hw.shows.min, hw.shows.max, rfl⟩
  show clamp w.bar.low w.bar.high value = value
  rw [hw.shows.low, hw.shows.high]
  exact clamp_of_mem hlow hhigh

theorem shows_setProgress_iff (hw : Good w) {min max : ℤ}
    (hasked : Asked.Ordered { w.asked with min, max }) :
    Shows { w.setProgress min max with asked := { w.asked with min, max } } ↔ InWord min max := by
  obtain ⟨hlow, hhigh⟩ := hasked
  have hrange := loword_range_iff (le_trans hlow hhigh)
  constructor
  · intro h
    exact hrange.mp ⟨h.low, h.high⟩
  · intro hword
    obtain ⟨hmin, hmax⟩ := hrange.mpr hword
    refine ⟨hmin, hmax, ?_, rfl, rfl, hw.shows.value⟩
    show clamp (loword min) (loword max) w.bar.position = w.asked.value
    rw [hw.shows.position]
    dsimp only at hmin hmax
    rw [hmin, hmax]
    exact clamp_of_mem hlow hhigh

/-! ## Runs -/

/-- A good window, or none yet. -/
def GoodOrNone (o : Option ProgressWindow) : Prop := ∀ w ∈ o, Good w

/-- A step constructs the window, or calls a setter of it. -/
theorem step_cases {o o' : Option ProgressWindow} {call : Call} (h : step o call = some o') :
    (∃ a, o = none ∧ call = .construct a ∧ a.asked.Ordered ∧
      o' = some (.construct a.status a.asked)) ∨
    ∃ w, o = some w ∧ (∀ a, call ≠ .construct a) ∧ (call.asked w.asked).Ordered ∧
      o' = some { w.call call with asked := call.asked w.asked } := by
  cases o with
  | none =>
    left
    cases call with
    | construct a =>
      simp only [step, Option.ite_none_right_eq_some, Option.some.injEq] at h
      exact ⟨a, rfl, rfl, h.1, h.2.symm⟩
    | setStatus a => simp [step] at h
    | setValue value => simp [step] at h
    | setValueRange value min max => simp [step] at h
    | setProgress min max => simp [step] at h
  | some w =>
    right
    refine ⟨w, rfl, ?_⟩
    cases call with
    | construct a => simp [step] at h
    | setStatus a =>
      simp only [step, Option.ite_none_right_eq_some, Option.some.injEq] at h
      exact ⟨by simp, h.1, h.2.symm⟩
    | setValue value =>
      simp only [step, Option.ite_none_right_eq_some, Option.some.injEq] at h
      exact ⟨by simp, h.1, h.2.symm⟩
    | setValueRange value min max =>
      simp only [step, Option.ite_none_right_eq_some, Option.some.injEq] at h
      exact ⟨by simp, h.1, h.2.symm⟩
    | setProgress min max =>
      simp only [step, Option.ite_none_right_eq_some, Option.some.injEq] at h
      exact ⟨by simp, h.1, h.2.symm⟩

/-- The constructor shows what was asked for exactly if the call is sendable. -/
theorem shows_construct_iff {a : StatusArguments} (hordered : a.asked.Ordered) :
    Shows (.construct a.status a.asked) ↔ Sendable none (.construct a) :=
  shows_setValueRange_iff _ hordered.1 hordered.2

/-- From a good window a setter leads to one that shows what was asked for exactly if the call
is sendable. -/
theorem shows_call_iff (hw : Good w) {call : Call} (hcall : ∀ a, call ≠ .construct a)
    (hordered : (call.asked w.asked).Ordered) :
    Shows { w.call call with asked := call.asked w.asked } ↔ Sendable (some w) call := by
  cases call with
  | construct a => exact absurd rfl (hcall a)
  | setStatus a => exact shows_setStatus_iff hw hordered
  | setValue value => exact iff_of_true (shows_setValue hw hordered) trivial
  | setValueRange value min max =>
    exact (shows_setValueRange_iff w hordered.1 hordered.2).trans (and_iff_right rfl)
  | setProgress min max => exact shows_setProgress_iff hw hordered

/-- What a sendable call asks for is in the range of a word. -/
theorem inWord_asked (hw : Good w) {call : Call} (hsend : Sendable (some w) call) :
    InWord (call.asked w.asked).min (call.asked w.asked).max := by
  cases call with
  | construct a => exact hsend.2
  | setStatus a => exact hsend.2
  | setValue value => exact hw.inWord
  | setValueRange value min max => exact hsend
  | setProgress min max => exact hsend

/-- A sendable call leads to a good window. -/
theorem good_step {o o' : Option ProgressWindow} {call : Call} (ho : GoodOrNone o)
    (hsend : Sendable o call) (h : step o call = some o') : GoodOrNone o' := by
  intro w' hw'
  rcases step_cases h with ⟨a, rfl, rfl, hordered, rfl⟩ | ⟨w, rfl, hcall, hordered, rfl⟩
  · rw [Option.mem_some_iff] at hw'
    subst hw'
    have hshows := (shows_construct_iff hordered).mpr hsend
    exact { shows := hshows, inWord := hsend.2, ordered := hordered }
  · rw [Option.mem_some_iff] at hw'
    subst hw'
    have hw : Good w := ho w rfl
    have hshows := (shows_call_iff hw hcall hordered).mpr hsend
    exact { shows := hshows, inWord := inWord_asked hw hsend, ordered := hordered }

/-- A call that is not sendable leads to a window that does not show what was asked for. -/
theorem not_showsAsked_step {o o' : Option ProgressWindow} {call : Call} (ho : GoodOrNone o)
    (hsend : ¬ Sendable o call) (h : step o call = some o') : ¬ ShowsAsked o' := by
  intro hasked
  rcases step_cases h with ⟨a, rfl, rfl, hordered, rfl⟩ | ⟨w, rfl, hcall, hordered, rfl⟩
  · have hshows : Shows (.construct a.status a.asked) := hasked _ rfl
    exact hsend ((shows_construct_iff hordered).mp hshows)
  · have hshows : Shows { w.call call with asked := call.asked w.asked } := hasked _ rfl
    exact hsend ((shows_call_iff (ho w rfl) hcall hordered).mp hshows)

/-- After every call the window shows what was asked for exactly if every range asked for fits
in two words, and every status had the maximum asked for in its memory. -/
theorem progressWindow_shows_iff {calls : List Call} {o : Option ProgressWindow}
    (hrun : run step none calls = some o) :
    (∀ calls' o', calls' <+: calls → run step none calls' = some o' → ShowsAsked o') ↔
      EachStep step Sendable none calls := by
  refine forall_prefix_iff GoodOrNone ShowsAsked ?_ ?_ ?_ hrun ?_
  · intro o ho w hw
    exact (ho w hw).shows
  · intro o call o' ho hsend h
    exact good_step ho hsend h
  · intro o call o' ho hsend h
    exact not_showsAsked_step ho hsend h
  · intro w hw
    contradiction

/-- The window of a status whose memory held the maximum, moved twice. -/
def moved : List Call :=
  [.construct ⟨"Progress", "", 0, 0, 100, false, 100⟩, .setValue 40, .setProgress 20 65535]

theorem shows_moved :
    Shows { Status := ⟨"Progress", "", 40, 20, 65535, false⟩, title := "Progress", text := "",
            bar := ⟨20, 65535, 40, false⟩, asked := ⟨40, 20, 65535⟩ } := by
  have hmoved : run step none moved = some (some
      { Status := ⟨"Progress", "", 40, 20, 65535, false⟩, title := "Progress", text := "",
        bar := ⟨20, 65535, 40, false⟩, asked := ⟨40, 20, 65535⟩ }) := by decide
  have hsendable : EachStep step Sendable none moved := by decide
  exact (progressWindow_shows_iff hmoved).mpr hsendable moved _ List.prefix_rfl hmoved _ rfl

/-- A status of range 0 to 100 whose memory held nothing shows the range 0 to 0. -/
theorem selfAssignedMax_counterexample :
    ¬ ∀ (calls : List Call) (o : Option ProgressWindow), run step none calls = some o →
      ShowsAsked o := by
  intro hall
  let calls : List Call := [.construct ⟨"Progress", "", 0, 0, 100, false, 0⟩]
  let w : ProgressWindow :=
    { Status := ⟨"Progress", "", 0, 0, 0, false⟩, title := "Progress", text := "",
      bar := ⟨0, 0, 0, false⟩, asked := ⟨0, 0, 100⟩ }
  have hrun : run step none calls = some (some w) := by decide
  have hmax : w.bar.high = w.asked.max := (hall calls (some w) hrun w rfl).high
  exact absurd hmax (by decide)

end Win32Experiments.ProgressBar
