import Mathlib.Data.Nat.Bitwise
import R3000.Device.Timer
import R3000.Proofs.Bits

/-!
# Ticks of a timer

A tick looks at the counter twice: first it compares it with the target, then
with the highest value. Where the counter starts over at the target it is not
seen at the highest value any more, even if that is the target. Apart from this
each of the two values sets its flag, and raises the interrupt if that is
enabled and armed.
-/

namespace R3000

namespace TimerChannel

/-! ## One tick -/

/-- The value that a tick brings the counter to. -/
def next (c : TimerChannel) : UInt16 :=
  c.counter + 1

/-- The counter comes to the target. -/
def MeetsTarget (c : TimerChannel) : Prop :=
  c.next = c.target

/-- The counter comes to the highest value. -/
def MeetsMax (c : TimerChannel) : Prop :=
  c.next = 0xFFFF

/-- The counter comes to the highest value, and has not started over there as at the target. -/
def NotesMax (c : TimerChannel) : Prop :=
  c.MeetsMax ∧ ¬ (c.MeetsTarget ∧ c.hasMode resetOnTarget = true)

/-- The counter starts over. -/
def StartsOver (c : TimerChannel) : Prop :=
  (c.MeetsTarget ∧ c.hasMode resetOnTarget = true) ∨
    (c.MeetsMax ∧ c.hasMode resetOnTarget = false)

/-- The interrupt can be raised: it repeats, or was not raised before. -/
def Armed (c : TimerChannel) : Prop :=
  c.hasMode irqRepeat = true ∨ c.fired = false

section

variable (c : TimerChannel)

instance : Decidable c.MeetsTarget := inferInstanceAs (Decidable (_ = _))

instance : Decidable c.MeetsMax := inferInstanceAs (Decidable (_ = _))

instance : Decidable c.NotesMax := inferInstanceAs (Decidable (_ ∧ _))

instance : Decidable c.StartsOver := inferInstanceAs (Decidable (_ ∨ _))

end

/-- The flags that a tick sets. -/
def marks (c : TimerChannel) : UInt16 :=
  (if c.MeetsTarget then reachedTarget else 0) ||| (if c.NotesMax then reachedMax else 0)

/-- The channel after a tick, but for the interrupt. -/
def noted (c : TimerChannel) : TimerChannel :=
  { c with counter := if c.StartsOver then 0 else c.next, mode := c.mode ||| c.marks }

/-- The tick asks for an interrupt. -/
def Wants (c : TimerChannel) : Prop :=
  (c.MeetsTarget ∧ c.hasMode irqOnTarget = true) ∨ (c.NotesMax ∧ c.hasMode irqOnMax = true)

instance (c : TimerChannel) : Decidable c.Wants := inferInstanceAs (Decidable (_ ∨ _))

/-! ## Mode bits -/

/-- Flags that are set leave the other bits of the mode alone. -/
theorem hasMode_or {flags bit : UInt16} (h : flags &&& bit = 0) (c : TimerChannel) :
    ({ c with mode := c.mode ||| flags } : TimerChannel).hasMode bit = c.hasMode bit := by
  rw [hasMode, half_or_and, h, UInt16.or_zero, hasMode]

theorem meetTarget_eq (c : TimerChannel) :
    c.meetTarget =
      { c with
        counter := if c.hasMode resetOnTarget then 0 else c.counter
        mode := c.mode ||| reachedTarget } := by
  rw [meetTarget, hasMode_or (by decide)]
  split <;> rfl

theorem meetMax_eq (c : TimerChannel) :
    c.meetMax =
      { c with
        counter := if c.hasMode resetOnTarget then c.counter else 0
        mode := c.mode ||| reachedMax } := by
  rw [meetMax, hasMode_or (by decide)]
  split <;> rfl

/-- The channel once the counter has been compared with the target. -/
def compared (c : TimerChannel) : TimerChannel :=
  { c with
    counter := if c.MeetsTarget ∧ c.hasMode resetOnTarget = true then 0 else c.next
    mode := c.mode ||| if c.MeetsTarget then reachedTarget else 0 }

theorem compared_eq (c : TimerChannel) :
    (if c.next == c.target then meetTarget { c with counter := c.next }
      else { c with counter := c.next }) = c.compared := by
  by_cases ht : c.MeetsTarget
  · rw [if_pos (beq_iff_eq.mpr ht), meetTarget_eq, compared, if_pos ht]
    simp only [ht, true_and]
    rfl
  · rw [if_neg (mt beq_iff_eq.mp ht), compared, if_neg ht, if_neg fun h => ht h.1, UInt16.or_zero]

/-- A counter that has started over no longer stands at the highest value. -/
theorem compared_counter (c : TimerChannel) : c.compared.counter == 0xFFFF ↔ c.NotesMax := by
  have hcounter : c.compared.counter =
      if c.MeetsTarget ∧ c.hasMode resetOnTarget = true then 0 else c.next := rfl
  rw [beq_iff_eq, NotesMax, hcounter]
  by_cases h : c.MeetsTarget ∧ c.hasMode resetOnTarget = true
  · rw [if_pos h]
    exact iff_of_false (by decide) fun hmax => hmax.2 h
  · rw [if_neg h]
    exact (and_iff_left h).symm

theorem noted_eq (c : TimerChannel) :
    (if c.compared.counter == 0xFFFF then c.compared.meetMax else c.compared) = c.noted := by
  have hreset : c.compared.hasMode resetOnTarget = c.hasMode resetOnTarget := by
    have hflags : (if c.MeetsTarget then reachedTarget else 0) &&& resetOnTarget = 0 := by
      split <;> decide
    exact hasMode_or hflags c
  by_cases hm : c.NotesMax
  · rw [if_pos (c.compared_counter.mpr hm), meetMax_eq, hreset, noted, marks, if_pos hm]
    cases hr : c.hasMode resetOnTarget with
    | true =>
      have hover : ¬ c.StartsOver := by
        rintro (h | h)
        · exact hm.2 h
        · simp [hr] at h
      rw [if_neg hover]
      simp only [compared, if_neg hm.2, UInt16.or_assoc, if_true]
    | false =>
      have hover : c.StartsOver := .inr ⟨hm.1, hr⟩
      rw [if_pos hover]
      simp [compared, UInt16.or_assoc]
  · have hover : c.StartsOver ↔ c.MeetsTarget ∧ c.hasMode resetOnTarget = true := by
      refine or_iff_left fun h => hm ⟨h.1, fun ht => ?_⟩
      rw [ht.2] at h
      cases h.2
    rw [if_neg (mt c.compared_counter.mp hm), noted, marks, if_neg hm, UInt16.or_zero]
    simp only [compared, hover]

/-- The flags are no other bits of the mode. -/
theorem marks_and {bit : UInt16} (ht : reachedTarget &&& bit = 0) (hm : reachedMax &&& bit = 0)
    (c : TimerChannel) : c.marks &&& bit = 0 := by
  rw [marks, half_or_and]
  split <;> split <;> simp [ht, hm]

theorem noted_hasMode {bit : UInt16} (ht : reachedTarget &&& bit = 0) (hm : reachedMax &&& bit = 0)
    (c : TimerChannel) : c.noted.hasMode bit = c.hasMode bit :=
  hasMode_or (c.marks_and ht hm) c

/-- Both looks at the counter, and then the interrupt. -/
theorem tick_eq (c : TimerChannel) :
    c.tick = if c.Wants then c.noted.raise else (false, c.noted) := by
  have hwants : ((c.next == c.target) && c.noted.hasMode irqOnTarget ||
      (c.compared.counter == 0xFFFF) && c.noted.hasMode irqOnMax) = true ↔ c.Wants := by
    rw [noted_hasMode (by decide) (by decide), noted_hasMode (by decide) (by decide),
      Bool.or_eq_true, Bool.and_eq_true, Bool.and_eq_true, compared_counter, beq_iff_eq]
    rfl
  rw [← if_congr hwants rfl rfl, ← noted_eq, ← compared_eq]
  rfl

/-! ## Raising the interrupt -/

theorem xor_and (mode flags bit : UInt16) :
    (mode ^^^ flags) &&& bit = (mode &&& bit) ^^^ (flags &&& bit) := by
  apply UInt16.toNat_inj.mp
  simp only [UInt16.toNat_and, UInt16.toNat_xor, Nat.and_xor_distrib_right]

/-- A request bit that is toggled. -/
theorem toggled_request (mode : UInt16) :
    ((mode ^^^ irqRequest) &&& irqRequest != 0) = !(mode &&& irqRequest != 0) := by
  have hbit : mode &&& irqRequest = 0 ∨ mode &&& irqRequest = irqRequest := by
    have hand : (mode &&& irqRequest).toNat = (mode.toNat.testBit 10).toNat * 2 ^ 10 := by
      rw [UInt16.toNat_and]
      exact Nat.and_two_pow mode.toNat 10
    rw [← UInt16.toNat_inj, ← UInt16.toNat_inj, hand]
    cases mode.toNat.testBit 10
    · exact .inl rfl
    · exact .inr rfl
  rw [xor_and, UInt16.and_self]
  rcases hbit with h | h
  · rw [h]
    rfl
  · rw [h]
    rfl

/-- The mode once the interrupt has been raised. -/
def requested (c : TimerChannel) : UInt16 :=
  if c.hasMode irqToggle then c.mode ^^^ irqRequest else c.mode &&& ~~~irqRequest

theorem raise_of_armed {c : TimerChannel} (h : c.Armed) :
    c.raise = (true, { c with fired := true, mode := c.requested }) := by
  have harmed : (c.fired && !c.hasMode irqRepeat) = false := by
    rcases h with h | h
    · rw [h, Bool.not_true, Bool.and_false]
    · rw [h, Bool.false_and]
  rw [raise, harmed, requested]
  cases c.hasMode irqToggle <;> rfl

theorem raise_of_not_armed {c : TimerChannel} (h : ¬ c.Armed) : c.raise = (false, c) := by
  obtain ⟨hrepeat, hfired⟩ := not_or.mp h
  rw [Bool.not_eq_false] at hfired
  rw [raise, if_pos]
  rw [hfired, Bool.eq_false_iff.mpr hrepeat]
  rfl

/-- Raising changes the request bit of the mode and no other. -/
theorem requested_and {bit : UInt16} (h : ~~~irqRequest &&& bit = bit) (c : TimerChannel) :
    c.requested &&& bit = c.mode &&& bit := by
  have hrequest : irqRequest &&& bit = 0 := by
    rw [← h, ← UInt16.and_assoc]
    exact UInt16.zero_and
  rw [requested]
  split
  · rw [xor_and, hrequest, UInt16.xor_zero]
  · rw [UInt16.and_assoc, h]

theorem requested_request (c : TimerChannel) :
    (c.requested &&& irqRequest != 0) = (c.hasMode irqToggle && !c.hasMode irqRequest) := by
  rw [requested]
  cases htoggle : c.hasMode irqToggle with
  | true => exact toggled_request c.mode
  | false =>
    have hclear : ~~~irqRequest &&& irqRequest = 0 := by decide
    rw [if_neg Bool.false_ne_true, UInt16.and_assoc, hclear, UInt16.and_zero]
    rfl

/-! ## The whole tick -/

theorem noted_armed (c : TimerChannel) : c.noted.Armed ↔ c.Armed := by
  rw [Armed, noted_hasMode (by decide) (by decide), Armed]
  rfl

theorem tick_of_raised {c : TimerChannel} (hw : c.Wants) (ha : c.Armed) :
    c.tick = (true, { c.noted with fired := true, mode := c.noted.requested }) := by
  rw [tick_eq, if_pos hw, raise_of_armed (c.noted_armed.mpr ha)]

theorem tick_of_not_raised {c : TimerChannel} (h : ¬ (c.Wants ∧ c.Armed)) :
    c.tick = (false, c.noted) := by
  rw [tick_eq]
  split
  · rename_i hw
    exact raise_of_not_armed (mt c.noted_armed.mp fun ha => h ⟨hw, ha⟩)
  · rfl

/-- The bits of the mode that say how the channel works. A tick leaves them alone. -/
def settings : UInt16 :=
  ~~~(irqRequest ||| reachedTarget ||| reachedMax)

/-- What a tick makes of a channel, and whether it raises the interrupt. -/
structure Ticks (c : TimerChannel) (raised : Bool) (c' : TimerChannel) : Prop where
  interrupt : raised = true ↔ c.Wants ∧ c.Armed
  fired : c'.fired = (c.fired || raised)
  counter : c'.counter = if c.StartsOver then 0 else c.next
  target : c'.target = c.target
  reachedTarget : c'.hasMode reachedTarget = (c.hasMode reachedTarget || decide c.MeetsTarget)
  reachedMax : c'.hasMode reachedMax = (c.hasMode reachedMax || decide c.NotesMax)
  request : c'.hasMode irqRequest =
    if raised then c.hasMode irqToggle && !c.hasMode irqRequest else c.hasMode irqRequest
  settings : c'.mode &&& settings = c.mode &&& settings

theorem or_ne_zero (x y : UInt16) : (x ||| y != 0) = (x != 0 || y != 0) := by
  rw [Bool.eq_iff_iff, Bool.or_eq_true, bne_iff_ne, bne_iff_ne, bne_iff_ne, ne_eq,
    UInt16.or_eq_zero_iff]
  exact not_and_or

theorem noted_flag (c : TimerChannel) (flag : UInt16) :
    c.noted.hasMode flag = (c.hasMode flag || c.marks &&& flag != 0) := by
  rw [hasMode, noted, half_or_and, or_ne_zero, hasMode]

theorem noted_reachedTarget (c : TimerChannel) :
    c.noted.hasMode reachedTarget = (c.hasMode reachedTarget || decide c.MeetsTarget) := by
  have hmarks : (c.marks &&& reachedTarget != 0) = decide c.MeetsTarget := by
    rw [marks, half_or_and]
    by_cases ht : c.MeetsTarget <;> by_cases hm : c.NotesMax <;> simp [ht, hm] <;> decide
  rw [noted_flag, hmarks]

theorem noted_reachedMax (c : TimerChannel) :
    c.noted.hasMode reachedMax = (c.hasMode reachedMax || decide c.NotesMax) := by
  have hmarks : (c.marks &&& reachedMax != 0) = decide c.NotesMax := by
    rw [marks, half_or_and]
    by_cases ht : c.MeetsTarget <;> by_cases hm : c.NotesMax <;> simp [ht, hm] <;> decide
  rw [noted_flag, hmarks]

theorem noted_settings (c : TimerChannel) : c.noted.mode &&& settings = c.mode &&& settings := by
  have hflags : c.marks &&& settings = 0 := c.marks_and (by decide) (by decide)
  rw [noted, half_or_and, hflags, UInt16.or_zero]

theorem ticks (c : TimerChannel) : c.Ticks c.tick.1 c.tick.2 := by
  by_cases h : c.Wants ∧ c.Armed
  · rw [tick_of_raised h.1 h.2]
    have hkept {bit : UInt16} (hbit : ~~~irqRequest &&& bit = bit) :
        c.noted.requested &&& bit = c.noted.mode &&& bit := requested_and hbit c.noted
    refine ⟨iff_of_true rfl h, (Bool.or_true _).symm, rfl, rfl, ?_, ?_, ?_, ?_⟩
    · rw [← noted_reachedTarget, hasMode, hkept (by decide), hasMode]
    · rw [← noted_reachedMax, hasMode, hkept (by decide), hasMode]
    · rw [hasMode, requested_request, noted_hasMode (by decide) (by decide),
        noted_hasMode (by decide) (by decide), if_pos rfl]
    · rw [hkept (by decide), noted_settings]
  · rw [tick_of_not_raised h]
    refine ⟨iff_of_false Bool.false_ne_true h, (Bool.or_false _).symm, rfl, rfl,
      c.noted_reachedTarget, c.noted_reachedMax, ?_, c.noted_settings⟩
    exact noted_hasMode (by decide) (by decide) c

/-! ## Both values -/

/-- The counter comes to the target and to the highest value alike, also where
these are one: each sets its flag and raises the interrupt if that is enabled. -/
structure NotesBoth (c : TimerChannel) (raised : Bool) (c' : TimerChannel) : Prop where
  target : c.MeetsTarget → c'.hasMode reachedTarget = true
  max : c.MeetsMax → c'.hasMode reachedMax = true
  interrupt : raised = true ↔
    ((c.MeetsTarget ∧ c.hasMode irqOnTarget = true) ∨
      (c.MeetsMax ∧ c.hasMode irqOnMax = true)) ∧ c.Armed
  counter : c'.counter = if c.StartsOver then 0 else c.next

/-- The counter starts over at the highest value as at its target, and the flag or
the interrupt of the highest value is still to come. -/
def Overlooks (c : TimerChannel) : Prop :=
  c.MeetsMax ∧ c.MeetsTarget ∧ c.hasMode resetOnTarget = true ∧
    (c.hasMode reachedMax = false ∨
      (c.hasMode irqOnMax = true ∧ c.hasMode irqOnTarget = false ∧ c.Armed))

/-- Where nothing is overlooked, both values are noted; and only there. -/
theorem Ticks.notesBoth_iff {c c' : TimerChannel} {raised : Bool} (h : c.Ticks raised c') :
    c.NotesBoth raised c' ↔ ¬ c.Overlooks := by
  constructor
  · rintro hboth ⟨hmax, htarget, hreset, hmissed⟩
    have hunnoted : ¬ c.NotesMax := fun hnotes => hnotes.2 ⟨htarget, hreset⟩
    rcases hmissed with hflag | ⟨honMax, honTarget, harmed⟩
    · have hset := hboth.max hmax
      rw [h.reachedMax, hflag, decide_eq_false hunnoted] at hset
      cases hset
    · have hraised := hboth.interrupt.mpr ⟨.inr ⟨hmax, honMax⟩, harmed⟩
      obtain ⟨⟨-, hon⟩ | ⟨hnotes, -⟩, -⟩ := h.interrupt.mp hraised
      · rw [honTarget] at hon
        cases hon
      · exact hunnoted hnotes
  · intro hnone
    -- The highest value is noted, or else nothing hangs on it.
    have hmax (hmeets : c.MeetsMax) (hmissed : c.hasMode TimerChannel.reachedMax = false ∨
        (c.hasMode irqOnMax = true ∧ c.hasMode irqOnTarget = false ∧ c.Armed)) : c.NotesMax :=
      ⟨hmeets, fun hover => hnone ⟨hmeets, hover.1, hover.2, hmissed⟩⟩
    refine ⟨?_, ?_, ?_, h.counter⟩
    · intro hmeets
      rw [h.reachedTarget, decide_eq_true hmeets, Bool.or_true]
    · intro hmeets
      rw [h.reachedMax]
      cases hflag : c.hasMode TimerChannel.reachedMax with
      | true => rfl
      | false => exact decide_eq_true (hmax hmeets (.inl hflag))
    · rw [h.interrupt]
      refine and_congr_left fun harmed => ⟨?_, ?_⟩
      · rintro (htarget | ⟨hnotes, honMax⟩)
        · exact .inl htarget
        · exact .inr ⟨hnotes.1, honMax⟩
      · rintro (htarget | ⟨hmeets, honMax⟩)
        · exact .inl htarget
        · by_cases hnotes : c.NotesMax
          · exact .inr ⟨hnotes, honMax⟩
          · -- Then the target is noted at the same value.
            cases honTarget : c.hasMode irqOnTarget with
            | true =>
              have hover := not_not.mp fun hother => hnotes ⟨hmeets, hother⟩
              exact .inl ⟨hover.1, honTarget⟩
            | false => exact absurd (hmax hmeets (.inr ⟨honMax, honTarget, harmed⟩)) hnotes

end TimerChannel

end R3000
