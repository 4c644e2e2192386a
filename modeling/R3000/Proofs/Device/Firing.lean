import R3000.Proofs.Device.Timer

/-!
# Interrupts of one timer

How often a timer raises its interrupt in a history. A timer that does not
repeat its interrupt raises it once at most: the channel remembers that it did,
and only a written mode makes it forget. The request bit of its mode falls with
the interrupt and stays low.
-/

namespace R3000

namespace TimerChannel

variable {c c' : TimerChannel} {raised : Bool} {bit : UInt16}

/-! ## Bits that stay -/

/-- A tick leaves the settings alone. -/
theorem Ticks.mode_and (h : c.Ticks raised c') (hbit : TimerChannel.settings &&& bit = bit) :
    c'.mode &&& bit = c.mode &&& bit := by
  rw [← hbit, ← UInt16.and_assoc, ← UInt16.and_assoc, h.settings]

theorem Ticks.hasMode (h : c.Ticks raised c') (hbit : TimerChannel.settings &&& bit = bit) :
    c'.hasMode bit = c.hasMode bit := by
  rw [TimerChannel.hasMode, TimerChannel.hasMode, h.mode_and hbit]

/-- Reading leaves all bits alone but the flags. -/
theorem Observed.hasMode (h : c.Observed c')
    (hbit : ~~~(reachedTarget ||| reachedMax) &&& bit = bit) : c'.hasMode bit = c.hasMode bit := by
  rcases h.mode with hm | hm
  · rw [TimerChannel.hasMode, TimerChannel.hasMode, hm]
  · rw [TimerChannel.hasMode, TimerChannel.hasMode, hm, UInt16.and_assoc, hbit]

theorem request_writeMode (c : TimerChannel) (value : UInt32) :
    (c.writeMode value).hasMode irqRequest = true := by
  have hnone : 0x03FF &&& irqRequest = 0 := by decide
  rw [hasMode, writeMode, half_or_and, UInt16.and_assoc, hnone, UInt16.and_zero, UInt16.zero_or]
  rfl

/-! ## Interrupts that do not repeat -/

/-- What an event does to a channel whose mode it spares, and whether it raises
the interrupt. What is written may have been read before. -/
inductive Spared (c : TimerChannel) : (raised : Bool) → TimerChannel → Prop where
  | tick : c.Spared c.tick.1 c.tick.2
  | read {c' : TimerChannel} (h : c.Observed c') : c.Spared false c'
  | counter {c' : TimerChannel} (h : c.Observed c') (value : UInt32) :
    c.Spared false (c'.writeCounter value)
  | target {c' : TimerChannel} (h : c.Observed c') (value : UInt32) :
    c.Spared false (c'.writeTarget value)

/-- The interrupt does not repeat, and the request bit is high until it is raised. -/
structure OneShot (c : TimerChannel) : Prop where
  once : c.hasMode irqRepeat = false
  request : c.hasMode irqRequest = !c.fired

namespace OneShot

theorem written {value : UInt32} (h : (c.writeMode value).hasMode irqRepeat = false) :
    (c.writeMode value).OneShot where
  once := h
  request := c.request_writeMode value

/-- An interrupt that is raised is the first one. -/
theorem unfired (h : c.OneShot) (ht : c.Ticks true c') : c.fired = false := by
  refine (ht.interrupt.mp rfl).2.resolve_left fun hrepeat => ?_
  nomatch hrepeat.symm.trans h.once

theorem tick (h : c.OneShot) (ht : c.Ticks raised c') : c'.OneShot where
  once := (ht.hasMode (by decide)).trans h.once
  request := by
    rw [ht.request, ht.fired, h.request]
    cases raised with
    | false => rw [Bool.or_false, if_neg Bool.false_ne_true]
    | true =>
      rw [h.unfired ht, if_pos rfl, Bool.not_false, Bool.not_true, Bool.and_false, Bool.or_true,
        Bool.not_true]

theorem read (h : c.OneShot) (ho : c.Observed c') : c'.OneShot where
  once := (ho.hasMode (by decide)).trans h.once
  request := by rw [ho.hasMode (by decide), h.request, ho.fired]

theorem spared (h : c.OneShot) (hs : c.Spared raised c') : c'.OneShot := by
  cases hs with
  | tick => exact h.tick c.ticks
  | read ho => exact h.read ho
  | counter ho value => exact ⟨(h.read ho).once, (h.read ho).request⟩
  | target ho value => exact ⟨(h.read ho).once, (h.read ho).request⟩

/-- The channel counts its interrupts, of which there is none or one. -/
theorem fired_spared (h : c.OneShot) (hs : c.Spared raised c') :
    c'.fired.toNat = c.fired.toNat + raised.toNat := by
  cases hs with
  | tick =>
    have ht := c.ticks
    generalize c.tick.1 = raised at ht ⊢
    rw [ht.fired]
    cases raised with
    | false => rw [Bool.or_false, Bool.toNat_false, Nat.add_zero]
    | true =>
      rw [h.unfired ht]
      rfl
  | read ho | counter ho value | target ho value => exact congrArg Bool.toNat ho.fired

/-- The request bit moves when the interrupt is raised, and only then. -/
theorem request_spared (h : c.OneShot) (hs : c.Spared raised c') :
    (c'.hasMode irqRequest != c.hasMode irqRequest) = raised := by
  have hmoves : ∀ before after raised : Bool, after.toNat = before.toNat + raised.toNat →
      ((!after) != (!before)) = raised := by decide
  rw [(h.spared hs).request, h.request]
  exact hmoves _ _ _ (h.fired_spared hs)

end OneShot

end TimerChannel

namespace Timers

variable {t t' : Timers} {n : Fin 3} {event : Event} {history : List Event}

/-! ## What an event does to a channel -/

/-- The event raises the interrupt of channel `n`. -/
def fires (n : Fin 3) (t : Timers) (event : Event) : Bool :=
  event = .tick && t.raises n

/-- The event changes the request bit of channel `n`. -/
def movesRequest (n : Fin 3) (t : Timers) (event : Event) : Bool :=
  ((t.happen event).channel n).hasMode TimerChannel.irqRequest !=
    (t.channel n).hasMode TimerChannel.irqRequest

instance (n : Fin 3) (event : Event) : Decidable (event.Spares n) :=
  inferInstanceAs (Decidable (_ ≠ _))

theorem spared_happen (t : Timers) (h : event.Spares n) :
    (t.channel n).Spared (fires n t event) ((t.happen event).channel n) := by
  cases event with
  | tick =>
    rw [happen, tick_channel, fires, raises_eq]
    exact .tick
  | read w offset => exact .read (t.happen_read w offset n)
  | write w offset value =>
    obtain ⟨t', ho, hw⟩ := t.happen_write w offset value
    cases hr : (Event.write w offset value).register? with
    | none =>
      rw [hr] at hw
      dsimp only at hw
      rw [hw]
      exact .read (ho n)
    | some r =>
      rw [hr] at hw
      obtain ⟨content, hw⟩ := hw
      rw [hw, channel_writeRegister, if_neg fun hmode => h (hr.trans (congrArg some hmode))]
      split
      · exact .counter (ho n) content
      · split
        · exact .target (ho n) content
        · exact .read (ho n)

/-- What is written to a mode is a mode as it is written. -/
theorem mode_happen (t : Timers) (h : event.register? = some (.mode n)) :
    ∃ c value, (t.happen event).channel n = TimerChannel.writeMode c value := by
  cases event with
  | tick | read => cases h
  | write w offset value =>
    obtain ⟨t', -, hw⟩ := t.happen_write w offset value
    rw [h] at hw
    obtain ⟨content, hw⟩ := hw
    exact ⟨t'.channel n, content, by rw [hw, channel_writeRegister, if_pos rfl]⟩

/-! ## Counting -/

/-- In how many places of a history that begins with `t` something is so. -/
def occurrences (P : Timers → Event → Bool) (t : Timers) : (history : List Event) → Nat
  | [] => 0
  | event :: history => (P t event).toNat + occurrences P (t.happen event) history

theorem occurrences_concat (P : Timers → Event → Bool) (t : Timers) (history : List Event)
    (event : Event) :
    occurrences P t (history ++ [event]) =
      occurrences P t history + (P (t.after history) event).toNat := by
  induction history generalizing t with
  | nil => exact Nat.add_comm _ _
  | cons first history ih =>
    rw [List.cons_append, occurrences, occurrences, ih, Nat.add_assoc]
    rfl

/-- Over a history that spares its mode, a channel counts its interrupts, and the
request bit moves with them. -/
theorem occurrences_fires (h : (t.channel n).OneShot) (hspares : ∀ event ∈ history, event.Spares n) :
    ((t.after history).channel n).fired.toNat =
        (t.channel n).fired.toNat + occurrences (fires n) t history ∧
      occurrences (movesRequest n) t history = occurrences (fires n) t history := by
  induction history generalizing t with
  | nil => exact ⟨rfl, rfl⟩
  | cons event history ih =>
    rw [List.forall_mem_cons] at hspares
    have hs := t.spared_happen hspares.1
    obtain ⟨hfired, hmoves⟩ := ih (h.spared hs) hspares.2
    refine ⟨?_, ?_⟩
    · rw [occurrences, ← Nat.add_assoc, ← h.fired_spared hs]
      exact hfired
    · rw [occurrences, occurrences, hmoves, movesRequest, h.request_spared hs]

/-- A timer whose mode was written without the repeat bit raises its interrupt at
most once until the mode is written again, and its request bit moves with the
interrupt. -/
theorem fires_once (t : Timers) {write : Event} (hmode : write.register? = some (.mode n))
    (honce : ((t.happen write).channel n).hasMode TimerChannel.irqRepeat = false)
    (hspares : ∀ event ∈ history, event.Spares n) :
    occurrences (fires n) (t.happen write) history ≤ 1 ∧
      occurrences (movesRequest n) (t.happen write) history ≤ 1 ∧
      occurrences (movesRequest n) (t.happen write) history =
        occurrences (fires n) (t.happen write) history := by
  obtain ⟨c, value, hc⟩ := t.mode_happen hmode
  have hshot : ((t.happen write).channel n).OneShot := by
    rw [hc] at honce ⊢
    exact .written honce
  obtain ⟨hfired, hmoves⟩ := occurrences_fires hshot hspares
  have hcount : occurrences (fires n) (t.happen write) history ≤ 1 := by
    have hlast := Bool.toNat_le (((t.happen write).after history).channel n).fired
    omega
  exact ⟨hcount, hmoves.trans_le hcount, hmoves⟩

/-- Channel 1 with both interrupts enabled. Its target is reached twice, and the flags are
read in between. -/
theorem fires_once_reached_twice :
    (Event.write .byte 0x14 0x38).register? = some (.mode 1) ∧
      ((({} : Timers).happen (.write .byte 0x14 0x38)).channel 1).hasMode
        TimerChannel.irqRepeat = false ∧
      (∀ event ∈ [Event.write .half 0x18 2, .tick, .tick, .read .byte 0x14, .write .word 0x10 1,
        .tick], event.Spares 1) ∧
      occurrences (fires 1) (({} : Timers).happen (.write .byte 0x14 0x38))
        [.write .half 0x18 2, .tick, .tick, .read .byte 0x14, .write .word 0x10 1, .tick] = 1 := by
  have hmode : (Event.write .byte 0x14 0x38).register? = some (.mode 1) := by decide
  have honce : ((({} : Timers).happen (.write .byte 0x14 0x38)).channel 1).hasMode
      TimerChannel.irqRepeat = false := by decide
  have hspares : ∀ event ∈ [Event.write .half 0x18 2, .tick, .tick, .read .byte 0x14,
      .write .word 0x10 1, .tick], event.Spares 1 := by decide
  refine ⟨hmode, honce, hspares, Nat.le_antisymm (fires_once {} hmode honce hspares).1 ?_⟩
  decide

end Timers

end R3000
