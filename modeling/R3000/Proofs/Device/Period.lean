import R3000.Proofs.Device.Firing

/-!
# Periods of a timer

A timer that is set up and then left alone counts round in a circle. Its
settings say where the circle closes: at the target or at the highest value, of
which the counter then holds neither. A target of zero is met only after all
values. The interrupt of the target comes once a round.
-/

namespace R3000

namespace TimerChannel

variable {c c' : TimerChannel} {raised : Bool} {bit : UInt16} {k : Nat}

/-! ## One tick -/

/-- After how many ticks a counter is back at zero. -/
def period (mode target : UInt16) : Nat :=
  if mode &&& resetOnTarget = 0 then 0xFFFF
  else if target = 0 then 0x10000
  else target.toNat

theorem period_pos (mode target : UInt16) : 0 < period mode target := by
  rw [period]
  split_ifs with _ htarget
  · decide
  · decide
  · exact Nat.pos_of_ne_zero fun h => htarget (UInt16.toNat_inj.mp h)

theorem period_le (mode target : UInt16) : period mode target ≤ 2 ^ 16 := by
  rw [period]
  split_ifs
  · decide
  · decide
  · exact Nat.le_of_lt target.toNat_lt

theorem toNat_next (c : TimerChannel) : c.next.toNat = (c.counter.toNat + 1) % 2 ^ 16 :=
  UInt16.toNat_add c.counter 1

theorem hasMode_eq_false_iff : c.hasMode bit = false ↔ c.mode &&& bit = 0 := by
  rw [hasMode, bne_eq_false_iff_eq]

/-- The counter starts over where its period ends. -/
theorem startsOver_iff (c : TimerChannel) :
    c.StartsOver ↔ c.next.toNat = period c.mode c.target % 2 ^ 16 := by
  rw [period]
  split_ifs with hmode htarget
  · have hreset := hasMode_eq_false_iff.mpr hmode
    simp only [StartsOver, hreset, Bool.false_eq_true, and_false, and_true, false_or]
    exact UInt16.toNat_inj.symm
  · have hreset := Bool.of_not_eq_false (mt hasMode_eq_false_iff.mp hmode)
    simp only [StartsOver, hreset, Bool.true_eq_false, and_false, and_true, or_false, MeetsTarget,
      htarget]
    exact UInt16.toNat_inj.symm
  · have hreset := Bool.of_not_eq_false (mt hasMode_eq_false_iff.mp hmode)
    simp only [StartsOver, hreset, Bool.true_eq_false, and_false, and_true, or_false]
    rw [Nat.mod_eq_of_lt c.target.toNat_lt]
    exact UInt16.toNat_inj.symm

/-- The counter goes up by one, and is back at zero when its period is over. -/
theorem Ticks.counter_succ (h : c.Ticks raised c')
    (hc : c.counter.toNat < period c.mode c.target) :
    c'.counter.toNat =
      if c.counter.toNat + 1 = period c.mode c.target then 0 else c.counter.toNat + 1 := by
  have hle := period_le c.mode c.target
  have hnext := c.toNat_next
  have hover := c.startsOver_iff
  rw [h.counter]
  split_ifs with hends hperiod hperiod
  · rfl
  · rw [hover] at hends
    omega
  · rw [hover] at hends
    omega
  · rw [hover] at hends
    omega

/-! ## The interrupt of the target -/

/-- The counter starts over at a target other than zero, and the interrupt of the
target is enabled alone. -/
structure Paced (c : TimerChannel) : Prop where
  reset : c.hasMode resetOnTarget = true
  onTarget : c.hasMode irqOnTarget = true
  onMax : c.hasMode irqOnMax = false
  target : c.target ≠ 0

namespace Paced

theorem tick (h : c.Paced) (ht : c.Ticks raised c') : c'.Paced where
  reset := (ht.hasMode (by decide)).trans h.reset
  onTarget := (ht.hasMode (by decide)).trans h.onTarget
  onMax := (ht.hasMode (by decide)).trans h.onMax
  target := fun hzero => h.target (ht.target.symm.trans hzero)

theorem period_eq (h : c.Paced) : period c.mode c.target = c.target.toNat := by
  have hmode : ¬ c.mode &&& resetOnTarget = 0 := fun hzero => by
    nomatch h.reset.symm.trans (hasMode_eq_false_iff.mpr hzero)
  rw [period, if_neg hmode, if_neg h.target]

/-- The interrupt is raised at the end of a period, if it can be. -/
theorem raised_iff (h : c.Paced) (ht : c.Ticks raised c')
    (hc : c.counter.toNat < c.target.toNat) :
    raised = true ↔ c.counter.toNat + 1 = c.target.toNat ∧ c.Armed := by
  have hmeets : c.MeetsTarget ↔ c.counter.toNat + 1 = c.target.toNat := by
    have hlt := c.target.toNat_lt
    rw [MeetsTarget, ← UInt16.toNat_inj, toNat_next]
    omega
  rw [ht.interrupt, Wants, h.onTarget, h.onMax, hmeets]
  simp

end Paced

end TimerChannel

/-! ## Ticks without an access -/

theorem succ_mod {P : Nat} (hP : 0 < P) (k : Nat) :
    (k + 1) % P = if k % P + 1 = P then 0 else k % P + 1 := by
  have hlt := Nat.mod_lt k hP
  rw [← Nat.mod_add_mod]
  split_ifs with h
  · rw [h, Nat.mod_self]
  · exact Nat.mod_eq_of_lt (by omega)

theorem dvd_succ_iff {P : Nat} (hP : 0 < P) (k : Nat) : P ∣ k + 1 ↔ k % P + 1 = P := by
  rw [Nat.dvd_iff_mod_eq_zero, succ_mod hP]
  simp

/-- Only the end of the first period counts. -/
theorem min_div_succ {P : Nat} (hP : 0 < P) (k : Nat) :
    min 1 ((k + 1) / P) = min 1 (k / P) + if P ∣ k + 1 ∧ k < P then 1 else 0 := by
  rw [Nat.succ_div]
  by_cases hk : k < P
  · simp only [Nat.div_eq_of_lt hk, hk, and_true]
    split_ifs <;> rfl
  · have hfirst : 1 ≤ k / P := Nat.div_pos (Nat.le_of_not_lt hk) hP
    have hlate : ¬ (P ∣ k + 1 ∧ k < P) := fun h => hk h.2
    rw [if_neg hlate, Nat.min_eq_left hfirst, Nat.min_eq_left (Nat.le_add_right_of_le hfirst)]

namespace Timers

open TimerChannel (period)

variable {t : Timers} {n : Fin 3} {k : Nat}

/-- The timers after `k` ticks and nothing else. -/
def ticked (t : Timers) (k : Nat) : Timers :=
  t.after (List.replicate k .tick)

theorem ticked_succ (t : Timers) (k : Nat) : t.ticked (k + 1) = (t.ticked k).tick.2 := by
  rw [ticked, List.replicate_succ', after_concat]
  rfl

theorem ticks_ticked (t : Timers) (n : Fin 3) (k : Nat) :
    ((t.ticked k).channel n).Ticks ((t.ticked k).raises n) ((t.ticked (k + 1)).channel n) := by
  rw [ticked_succ, tick_channel, raises_eq]
  exact TimerChannel.ticks _

/-- Settings and target of a timer that is left alone stay as they are. -/
theorem settings_ticked (t : Timers) (n : Fin 3) {bit : UInt16}
    (hbit : TimerChannel.settings &&& bit = bit) (k : Nat) :
    ((t.ticked k).channel n).mode &&& bit = (t.channel n).mode &&& bit := by
  induction k with
  | zero => rfl
  | succ k ih => rw [(t.ticks_ticked n k).mode_and hbit, ih]

theorem target_ticked (t : Timers) (n : Fin 3) (k : Nat) :
    ((t.ticked k).channel n).target = (t.channel n).target := by
  induction k with
  | zero => rfl
  | succ k ih => rw [(t.ticks_ticked n k).target, ih]

theorem period_ticked (t : Timers) (n : Fin 3) (k : Nat) :
    period ((t.ticked k).channel n).mode ((t.ticked k).channel n).target =
      period (t.channel n).mode (t.channel n).target := by
  rw [period, settings_ticked t n (by decide), target_ticked, period]

/-- A counter that begins at zero holds the ticks of the period it is in. -/
theorem counter_ticked (h : (t.channel n).counter = 0) (k : Nat) :
    ((t.ticked k).channel n).counter.toNat =
      k % period (t.channel n).mode (t.channel n).target := by
  have hpos := TimerChannel.period_pos (t.channel n).mode (t.channel n).target
  induction k with
  | zero =>
    rw [Nat.zero_mod]
    exact congrArg UInt16.toNat h
  | succ k ih =>
    have hlt := Nat.mod_lt k hpos
    rw [← ih, ← period_ticked t n k] at hlt
    rw [(t.ticks_ticked n k).counter_succ hlt, period_ticked, ih, succ_mod hpos]

/-! ## Interrupts without an access -/

section Paced

variable (hpaced : (t.channel n).Paced)
include hpaced

theorem paced_ticked (k : Nat) : ((t.ticked k).channel n).Paced := by
  induction k with
  | zero => exact hpaced
  | succ k ih => exact ih.tick (t.ticks_ticked n k)

variable (hcounter : (t.channel n).counter = 0)
include hcounter

/-- At the end of each period the interrupt is raised, if it can be. -/
theorem raises_ticked (k : Nat) :
    (t.ticked k).raises n = true ↔
      (t.channel n).target.toNat ∣ k + 1 ∧ ((t.ticked k).channel n).Armed := by
  have hpos := TimerChannel.period_pos (t.channel n).mode (t.channel n).target
  have hcount := counter_ticked hcounter k
  rw [hpaced.period_eq] at hpos hcount
  have hlt := Nat.mod_lt k hpos
  rw [← hcount, ← t.target_ticked n k] at hlt
  rw [(paced_ticked hpaced k).raised_iff (t.ticks_ticked n k) hlt, hcount, target_ticked,
    dvd_succ_iff hpos]

variable (hfired : (t.channel n).fired = false)
include hfired

/-- From the end of the first period on the channel knows of its interrupt. -/
theorem fired_ticked (k : Nat) :
    ((t.ticked k).channel n).fired = true ↔ (t.channel n).target.toNat ≤ k := by
  have hpos := TimerChannel.period_pos (t.channel n).mode (t.channel n).target
  rw [hpaced.period_eq] at hpos
  induction k with
  | zero => exact iff_of_false (Bool.eq_false_iff.mp hfired) (Nat.not_le.mpr hpos)
  | succ k ih =>
    rw [(t.ticks_ticked n k).fired, Bool.or_eq_true, or_congr_left ih,
      raises_ticked hpaced hcounter]
    constructor
    · rintro (hle | ⟨hdvd, -⟩)
      · exact Nat.le_succ_of_le hle
      · exact Nat.le_of_dvd (Nat.succ_pos k) hdvd
    · intro hle
      -- The first period is over, or this tick ends it.
      rcases Nat.lt_or_eq_of_le hle with hlt | heq
      · exact .inl (Nat.le_of_lt_succ hlt)
      · have hbefore : ¬ (t.channel n).target.toNat ≤ k := by omega
        exact .inr ⟨dvd_of_eq heq, .inr (Bool.eq_false_iff.mpr (mt ih.mp hbefore))⟩

/-- One interrupt a period, or one in all if it does not repeat. -/
theorem occurrences_ticked (k : Nat) :
    occurrences (fires n) t (List.replicate k .tick) =
      if (t.channel n).mode &&& TimerChannel.irqRepeat = 0 then
        min 1 (k / (t.channel n).target.toNat)
      else k / (t.channel n).target.toNat := by
  have hpos := TimerChannel.period_pos (t.channel n).mode (t.channel n).target
  rw [hpaced.period_eq] at hpos
  induction k with
  | zero => simp [occurrences]
  | succ k ih =>
    -- Whether the interrupt can still be raised depends on the first period alone.
    have harmed : ((t.ticked k).channel n).Armed ↔
        ¬ (t.channel n).mode &&& TimerChannel.irqRepeat = 0 ∨ k < (t.channel n).target.toNat := by
      rw [TimerChannel.Armed, TimerChannel.hasMode, settings_ticked t n (by decide), bne_iff_ne,
        Bool.eq_false_iff, ne_eq, ne_eq, fired_ticked hpaced hcounter hfired, Nat.not_le]
    have hfires : (fires n (t.ticked k) .tick).toNat =
        if (t.ticked k).raises n = true then 1 else 0 := by
      rw [fires]
      cases (t.ticked k).raises n <;> rfl
    rw [List.replicate_succ', occurrences_concat, ih, ← ticked, hfires]
    simp only [raises_ticked hpaced hcounter k, harmed]
    by_cases honce : (t.channel n).mode &&& TimerChannel.irqRepeat = 0
    · rw [if_pos honce, if_pos honce, min_div_succ hpos]
      simp [honce]
    · rw [if_neg honce, if_neg honce, Nat.succ_div]
      simp [honce]

end Paced

/-! ## Timers that were just set up -/

/-- The timers once mode and target of channel `n` have been written. -/
def programmed (t : Timers) (n : Fin 3) (mode target : UInt32) : Timers :=
  (t.writeRegister (.mode n) mode).writeRegister (.target n) target

theorem channel_programmed (t : Timers) (n : Fin 3) (mode target : UInt32) :
    (t.programmed n mode target).channel n =
      ((t.channel n).writeMode mode).writeTarget target := by
  simp [programmed, channel_writeRegister]

/-- The two registers may be written in any order. -/
theorem programmed_comm (t : Timers) (n : Fin 3) (mode target : UInt32) :
    (t.writeRegister (.target n) target).writeRegister (.mode n) mode =
      t.programmed n mode target := by
  simp only [programmed, writeRegister, modifyChannel_modifyChannel]
  rfl

/-- Of a written mode the bits that can be written are taken. -/
theorem programmed_and (t : Timers) (n : Fin 3) (mode target : UInt32) {bit : UInt16}
    (hbit : 0x03FF &&& bit = bit) :
    ((t.programmed n mode target).channel n).mode &&& bit = mode.toUInt16 &&& bit := by
  have hrequest : TimerChannel.irqRequest &&& bit = 0 := by
    rw [← hbit, ← UInt16.and_assoc]
    exact UInt16.zero_and
  rw [channel_programmed, TimerChannel.writeTarget, TimerChannel.writeMode, half_or_and,
    hrequest, UInt16.or_zero, UInt16.and_assoc, hbit]

/-- The settings that make the target the only source of the interrupt and the end
of the period. -/
def pacing : UInt16 :=
  TimerChannel.resetOnTarget ||| TimerChannel.irqOnTarget

theorem paced_programmed (t : Timers) (n : Fin 3) {mode target : UInt32}
    (hmode : mode.toUInt16 &&& (pacing ||| TimerChannel.irqOnMax) = pacing)
    (htarget : target.toUInt16 ≠ 0) : ((t.programmed n mode target).channel n).Paced := by
  have hbit {bit : UInt16} (hwritten : 0x03FF &&& bit = bit)
      (hmask : (pacing ||| TimerChannel.irqOnMax) &&& bit = bit) :
      ((t.programmed n mode target).channel n).hasMode bit = (pacing &&& bit != 0) := by
    rw [TimerChannel.hasMode, programmed_and t n mode target hwritten, ← hmode, UInt16.and_assoc,
      hmask]
  refine ⟨(hbit (by decide) (by decide)).trans (by decide),
    (hbit (by decide) (by decide)).trans (by decide),
    (hbit (by decide) (by decide)).trans (by decide), ?_⟩
  rw [channel_programmed]
  exact htarget

/-- A timer whose mode and target were just written, in whichever order, is after `k` ticks
`k` modulo its period. If the target is the only source of the interrupt and the end
of the period, the interrupt comes at the end of each period, or of the first one alone. -/
theorem programmed_periodic (t : Timers) (n : Fin 3) (mode target : UInt32) (k : Nat) :
    (t.writeRegister (.target n) target).writeRegister (.mode n) mode =
        t.programmed n mode target ∧
      (((t.programmed n mode target).ticked k).channel n).counter.toNat =
        k % period mode.toUInt16 target.toUInt16 ∧
      (mode.toUInt16 &&& (pacing ||| TimerChannel.irqOnMax) = pacing → target.toUInt16 ≠ 0 →
        occurrences (fires n) (t.programmed n mode target) (List.replicate k .tick) =
          if mode.toUInt16 &&& TimerChannel.irqRepeat = 0 then
            min 1 (k / target.toUInt16.toNat)
          else k / target.toUInt16.toNat) := by
  have hchannel := t.channel_programmed n mode target
  have hcounter : ((t.programmed n mode target).channel n).counter = 0 := by
    rw [hchannel]
    rfl
  have htarget : ((t.programmed n mode target).channel n).target = target.toUInt16 := by
    rw [hchannel]
    rfl
  have hfired : ((t.programmed n mode target).channel n).fired = false := by
    rw [hchannel]
    rfl
  refine ⟨t.programmed_comm n mode target, ?_, fun hmode hnonzero => ?_⟩
  · have hreset : ((t.programmed n mode target).channel n).mode &&& TimerChannel.resetOnTarget =
        mode.toUInt16 &&& TimerChannel.resetOnTarget := t.programmed_and n mode target (by decide)
    rw [counter_ticked hcounter k, period, hreset, htarget, period]
  · have hpaced := t.paced_programmed n hmode hnonzero
    rw [occurrences_ticked hpaced hcounter hfired k, t.programmed_and n mode target (by decide),
      htarget]

/-- A target of three with a repeating interrupt: three interrupts in ten ticks. -/
theorem programmed_periodic_repeat :
    (0x58 : UInt32).toUInt16 &&& (pacing ||| TimerChannel.irqOnMax) = pacing ∧
      (3 : UInt32).toUInt16 ≠ 0 ∧
      (((({} : Timers).programmed 0 0x58 3).ticked 10).channel 0).counter.toNat = 1 ∧
      occurrences (fires 0) (({} : Timers).programmed 0 0x58 3) (List.replicate 10 .tick) = 3 := by
  have hmode : (0x58 : UInt32).toUInt16 &&& (pacing ||| TimerChannel.irqOnMax) = pacing := by
    decide
  have htarget : (3 : UInt32).toUInt16 ≠ 0 := by decide
  obtain ⟨-, hcounter, hcount⟩ := programmed_periodic {} 0 0x58 3 10
  exact ⟨hmode, htarget, hcounter, hcount hmode htarget⟩

end Timers

end R3000
