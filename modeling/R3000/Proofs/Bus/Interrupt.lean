import R3000.Proofs.Bus.History
import R3000.Proofs.Device.Dma
import R3000.Proofs.Device.Timer
import R3000.Proofs.Latch

/-!
# Requests for interrupts

The timers and the DMA controller raise lines of the interrupt controller, and a
program acknowledges a line by a store that brings a zero for it. Such a store
may be narrow, and then it leaves the lines in the other byte alone. So a line
that was raised stays raised until it is acknowledged, whatever happens in
between.
-/

namespace R3000

namespace InterruptController

/-! ## Lines -/

/-- Line `n` is raised. -/
def Raised (c : InterruptController) (n : Fin 16) : Prop :=
  c.status.toNat.testBit n = true

/-- The address is in the word of the status register. -/
def NamesStatus (a : UInt32) : Prop :=
  a < Target.controlSegment ∧ wordAddress (physical a) = 0x1F801070

instance (c : InterruptController) (n : Fin 16) : Decidable (c.Raised n) :=
  inferInstanceAs (Decidable (_ = _))

instance (a : UInt32) : Decidable (NamesStatus a) :=
  inferInstanceAs (Decidable (_ ∧ _))

theorem raised_request (c : InterruptController) (lines : UInt16) (n : Fin 16) :
    (c.request lines).Raised n ↔ lines.toNat.testBit n = true ∨ c.Raised n := by
  rw [Raised, request, UInt16.toNat_or, Nat.testBit_or, Bool.or_eq_true, or_comm, Raised]

/-- What a store brings for line `n`, if it goes to the status register. -/
def supplied? (w : Width) (a value : UInt32) (n : Fin 16) : Option Bool :=
  (w.supplied? a value (n / 8)).map (·.toNat.testBit (n % 8))

/-- A line is in the byte of a word that has its number. -/
theorem testBit_lower (value : UInt32) (n : Fin 16) :
    value.toUInt16.toNat.testBit n = (byteOf value (n / 8)).toNat.testBit (n % 8) := by
  have hlt : n.val % 8 < 8 := Nat.mod_lt _ (by decide)
  rw [UInt32.toNat_toUInt16, Nat.testBit_mod_two_pow, decide_eq_true n.isLt, Bool.true_and,
    testBit_byteOf, decide_eq_true hlt, Bool.true_and, Nat.div_add_mod]

/-- A write of any width replaces the lines that it brings, and keeps the others. -/
theorem raised_write (c : InterruptController) (w : Width) {offset : UInt32}
    (h : wordAddress offset = 0) (value : UInt32) (n : Fin 16) :
    (Device.write c w offset value).Raised n ↔
      (supplied? w offset value n).getD (c.status.toNat.testBit n) = true := by
  have hwrite : Device.write c w offset value =
      c.writeStatus (w.merge offset c.status.toUInt32 value) := by
    change c.writeWord (wordAddress offset) (c.merged w offset value) = _
    rw [merged, h]
    rfl
  have hkept : (byteOf c.status.toUInt32 (n / 8)).toNat.testBit (n % 8) = c.status.toNat.testBit n := by
    rw [← testBit_lower, UInt16.toUInt16_toUInt32]
  have hbyte : n.val / 8 < 4 := by omega
  rw [hwrite, Raised, writeStatus, testBit_lower, Width.byteOf_merge_supplied w offset _ _ hbyte,
    supplied?]
  cases w.supplied? offset value (n / 8) with
  | none => rw [Option.getD_none, hkept, Option.map_none, Option.getD_none]
  | some byte => rfl

/-- Elsewhere in the controller a write keeps all lines. -/
theorem status_write_other (c : InterruptController) (w : Width) {offset : UInt32}
    (h : wordAddress offset ≠ 0) (value : UInt32) :
    (Device.write c w offset value).status = c.status := by
  change (c.writeWord (wordAddress offset) (c.merged w offset value)).status = c.status
  rw [writeWord, if_neg (mt beq_iff_eq.mp h)]
  split <;> rfl

end InterruptController

/-! ## Timers -/

/-- A tick of the timers raises the lines of the timers whose interrupt it raises. -/
theorem Timers.testBit_tick (t : Timers) (n : Fin 16) :
    t.tick.1.toNat.testBit n = true ↔ ∃ k : Fin 3, n.val = 4 + k ∧ t.raises k = true := by
  have hlines : ∀ (irq₀ irq₁ irq₂ : Bool) (n : Fin 16),
      ((if irq₀ then InterruptController.timerLine 0 else 0) |||
        (if irq₁ then InterruptController.timerLine 1 else 0) |||
        (if irq₂ then InterruptController.timerLine 2 else 0)).toNat.testBit n = true ↔
          ∃ k : Fin 3, n.val = 4 + k ∧ #v[irq₀, irq₁, irq₂].get k = true := by
    decide
  refine (hlines (t.channel 0).tick.1 (t.channel 1).tick.1 (t.channel 2).tick.1 n).trans ?_
  refine exists_congr fun k => and_congr_right fun _ => ?_
  rw [raises_eq]
  match k with
  | 0 => rfl
  | 1 => rfl
  | 2 => rfl

/-! ## The DMA controller -/

/-- Bit 31 of the interrupt register rises. -/
def Dma.Rises (d d' : Dma) : Prop :=
  d.interrupt.toNat.testBit 31 = false ∧ d'.interrupt.toNat.testBit 31 = true

namespace Bus

variable {b : Bus} {w : Width} {a value : UInt32} {n : Fin 16}

/-! ## Events -/

/-- What an event brings for line `n`, if the cache is isolated and if not. -/
def Event.supplied? (isolated : Bool) (n : Fin 16) : Event → Option Bool
  | .store w a value =>
    if isolated = false ∧ InterruptController.NamesStatus a then
      InterruptController.supplied? w a value n
    else none
  | _ => none

/-- The event acknowledges line `n`: it is a store that is not hidden and brings a
zero for the line. -/
def Event.Acknowledges (isolated : Bool) (n : Fin 16) (event : Event) : Prop :=
  event.supplied? isolated n = some false

/-- The event raises line `n`: a timer or the DMA controller asks for it, or a
store brings a one. -/
def Raises (n : Fin 16) (b : Bus) : Event → Prop
  | .load .. => False
  | .store w a value => Event.supplied? b.isolated n (.store w a value) = some true
  | .tick => ∃ k : Fin 3, n.val = 4 + k ∧ b.timers.raises k = true
  | .completeDma ch => n = 3 ∧ b.dma.Rises (b.completeDma ch).dma

/-- An event of the history raised line `n`, and none after it acknowledged the line. -/
def RaisedSince (b : Bus) (history : List Event) (n : Fin 16) : Prop :=
  SetSince happen (Raises n) (¬ ·.Acknowledges b.isolated n) b history

/-! ## What an event does to a line -/

theorem interrupt_tick (b : Bus) : b.tick.2.interrupt = b.interrupt.request b.timers.tick.1 := by
  change (if b.timers.tick.1 == 0 then b.interrupt else b.interrupt.request b.timers.tick.1) = _
  split
  · rename_i hnone
    rw [beq_iff_eq.mp hnone, InterruptController.request, UInt16.or_zero]
  · rfl

theorem raised_completeDma (b : Bus) (ch : Fin 7) (n : Fin 16) :
    (b.completeDma ch).interrupt.Raised n ↔
      (n = 3 ∧ b.dma.Rises (b.completeDma ch).dma) ∨ b.interrupt.Raised n := by
  have hline : ∀ n : Fin 16, InterruptController.dmaLine.toNat.testBit n = true ↔ n = 3 := by decide
  have hrises : b.dma.Rises (b.completeDma ch).dma ↔ (b.dma.complete ch).1 = true :=
    (b.dma.complete_fst_iff ch).symm
  have hinterrupt : (b.completeDma ch).interrupt =
      if (b.dma.complete ch).1 then b.interrupt.request InterruptController.dmaLine
      else b.interrupt := rfl
  rw [hrises, hinterrupt]
  split
  · rename_i hrose
    rw [InterruptController.raised_request, hline, and_iff_left hrose]
  · rename_i hrose
    rw [or_iff_right fun h => hrose h.2]

/-- What is stored to the status register comes through a store to its word. -/
theorem namesStatus_of_ofStore {offset : UInt32}
    (h : Target.ofStore w a = .ok (.device .interrupt offset)) (hword : wordAddress offset = 0) :
    InterruptController.NamesStatus a := by
  obtain ⟨hlow, hphysical, -⟩ := Target.ofAddress_device h
  have hoffset : Peripheral.interrupt.offset w a = offset := by
    rw [Peripheral.offset, ← physical_align, hphysical, UInt32.add_comm, UInt32.add_sub_cancel]
  rw [← hoffset] at hword
  exact ⟨UInt32.not_le.mp (mt (w.le_align_iff rfl a).mpr hlow),
    (Peripheral.wordAddress_offset_eq_iff ..).mp hword⟩

/-- A target that is not the status register keeps all lines. -/
theorem status_write_other {t : Target}
    (h : ∀ offset, t = .device .interrupt offset → wordAddress offset ≠ 0) :
    (b.write t w value).interrupt.status = b.interrupt.status := by
  cases t with
  | cacheControl | absent => rfl
  | cell r offset => cases r <;> rfl
  | device p offset =>
    cases p with
    | interrupt => exact b.interrupt.status_write_other w (h offset rfl) _
    | _ => rfl

theorem status_store_other (h : ¬ (b.isolated = false ∧ InterruptController.NamesStatus a)) :
    (b.happen (.store w a value)).interrupt.status = b.interrupt.status := by
  rw [happen_store]
  split
  · rfl
  · rename_i hseen
    cases ht : Target.ofStore w a with
    | error e => rfl
    | ok t =>
      refine status_write_other fun offset hdevice hword => ?_
      subst hdevice
      have hnames := namesStatus_of_ofStore ht hword
      refine h ⟨?_, hnames⟩
      have halign : w.align a < Target.controlSegment :=
        UInt32.lt_of_le_of_lt (w.align_le a) hnames.1
      rw [hides, decide_eq_true halign, Bool.and_true] at hseen
      exact Bool.eq_false_iff.mpr hseen

theorem raised_store (b : Bus) (w : Width) (a value : UInt32) (n : Fin 16) :
    (b.happen (.store w a value)).interrupt.Raised n ↔
      (Event.supplied? b.isolated n (.store w a value)).getD (b.interrupt.status.toNat.testBit n) =
        true := by
  by_cases h : b.isolated = false ∧ InterruptController.NamesStatus a
  · obtain ⟨hi, hlow, hnames⟩ := h
    have howns : Peripheral.interrupt.Owns a := .of_wordAddress hlow hnames rfl
    have hword : wordAddress (Peripheral.interrupt.offset w a) = 0 :=
      (Peripheral.wordAddress_offset_eq_iff ..).mpr hnames
    have hhole : Device.writeHole? Peripheral.interrupt.State w
        (Peripheral.interrupt.offset w a) = none :=
      (registerHole_eq_none_iff (Peripheral.interrupt.align_offset w a)).mpr (by rw [hword]; rfl)
    have hsupplied : InterruptController.supplied? w (Peripheral.interrupt.offset w a)
        (w.truncate value) n = InterruptController.supplied? w a value n := by
      rw [InterruptController.supplied?, w.supplied?_truncate,
        Width.supplied?_congr (Peripheral.interrupt.start_offset w a), InterruptController.supplied?]
    rw [happen_store_device hi howns, hhole, Event.supplied?, if_pos ⟨hi, hlow, hnames⟩, ← hsupplied]
    exact b.interrupt.raised_write w hword _ n
  · rw [InterruptController.Raised, status_store_other h, Event.supplied?, if_neg h]
    rfl

/-- Only stores acknowledge. -/
theorem Event.not_acknowledges {isolated : Bool} {event : Event}
    (h : event.supplied? isolated n = none) : ¬ event.Acknowledges isolated n := by
  rw [Acknowledges, h]
  nofun

/-- A line is raised after an event that raises it, or if it was raised before and
was not acknowledged. -/
theorem raised_happen (b : Bus) (event : Event) (n : Fin 16) :
    (b.happen event).interrupt.Raised n ↔
      Raises n b event ∨ (¬ event.Acknowledges b.isolated n ∧ b.interrupt.Raised n) := by
  cases event with
  | load w a =>
    obtain ⟨timers, hb, -⟩ := b.happen_load w a
    rw [hb, Raises, false_or, and_iff_right (Event.not_acknowledges rfl)]
  | tick =>
    rw [happen, interrupt_tick, InterruptController.raised_request, Timers.testBit_tick, Raises,
      and_iff_right (Event.not_acknowledges rfl)]
  | completeDma ch =>
    rw [happen, raised_completeDma, Raises, and_iff_right (Event.not_acknowledges rfl)]
  | store w a value =>
    rw [raised_store, Raises, Event.Acknowledges, InterruptController.Raised]
    cases Event.supplied? b.isolated n (.store w a value) with
    | none => simp
    | some bit => cases bit <;> simp

/-- The lines that are raised after a history. -/
theorem raised_after (b : Bus) (history : List Event) (n : Fin 16) :
    (b.after history).interrupt.Raised n ↔
      (b.interrupt.Raised n ∧ ∀ event ∈ history, ¬ event.Acknowledges b.isolated n) ∨
        b.RaisedSince history n := by
  refine latched_foldl (I := fun b' : Bus => b'.isolated = b.isolated)
    (P := fun b' : Bus => b'.interrupt.Raised n) ?_ ?_ rfl history
  · intro b' event hi
    rw [isolated_happen, hi]
  · intro b' event hi
    rw [raised_happen, hi]

/-- A byte that is stored leaves the lines of the other byte alone. -/
theorem raised_store_byte (h : a.toNat % 4 ≠ n / 8) :
    (b.happen (.store .byte a value)).interrupt.Raised n ↔ b.interrupt.Raised n := by
  have hstart : Width.byte.start a = a.toNat % 4 := rfl
  have huses : ¬ Width.byte.Uses a (n / 8) := by
    rw [Width.Uses, hstart, Width.bytes]
    omega
  have hsupplied : Event.supplied? b.isolated n (.store .byte a value) = none := by
    rw [Event.supplied?, InterruptController.supplied?, Width.supplied?, if_neg huses]
    split <;> rfl
  rw [raised_store, hsupplied, InterruptController.Raised, Option.getD_none]

/-- A line that was raised stays raised until a store that is not hidden brings a
zero for it, whatever the history, and a byte that is stored leaves the lines
of the other byte alone. Every tick raises the lines of the timers whose
interrupt it raises, and it answers whether a line that the mask lets through is
raised afterwards. -/
theorem requests_kept (b : Bus) (history : List Event) :
    (∀ n, (b.after history).interrupt.Raised n ↔
      (b.interrupt.Raised n ∧ ∀ event ∈ history, ¬ event.Acknowledges b.isolated n) ∨
        b.RaisedSince history n) ∧
    (∀ (a value : UInt32) (n : Fin 16), a.toNat % 4 ≠ n / 8 →
      ((b.after (history ++ [.store .byte a value])).interrupt.Raised n ↔
        (b.after history).interrupt.Raised n)) ∧
    (∀ k : Fin 3, (b.after history).timers.raises k = true →
      (b.after (history ++ [.tick])).interrupt.status.toNat.testBit (4 + k) = true) ∧
    ((b.after history).tick.1 = true ↔
      (b.after (history ++ [.tick])).interrupt.status &&&
        (b.after (history ++ [.tick])).interrupt.mask ≠ 0) := by
  refine ⟨b.raised_after history, ?_, ?_, ?_⟩
  · intro a value n hother
    rw [after_concat]
    exact raised_store_byte hother
  · intro k hk
    rw [after_concat]
    exact ((b.after history).raised_happen .tick ⟨4 + k, by omega⟩).mpr (.inl ⟨k, rfl, hk⟩)
  · rw [after_concat, happen]
    exact bne_iff_ne

/-- Timer 0 reaches its target. A zero for the upper byte keeps its line, and a zero
for the lower one acknowledges it. -/
example :
    (({} : Bus).after [.store .half 0x1F801108 1, .store .byte 0x1F801104 0x10, .tick,
      .store .byte 0xBF801071 0]).interrupt.Raised 4 ∧
    ¬ (({} : Bus).after [.store .half 0x1F801108 1, .store .byte 0x1F801104 0x10, .tick,
      .store .half 0xBF801071 0xFFEF]).interrupt.Raised 4 := by
  decide

end Bus

end R3000
