import R3000.Proofs.Bits
import R3000.Proofs.Device.InPlace

/-!
# Histories of the DMA controller

A program writes registers at any width, the transfer engine reports the end of
transfers and asks which channels were started. Bit 31 of the interrupt register
follows from the other bits, and is brought up to date by both operations that
change these.
-/

namespace R3000

namespace Dma

/-! ## Events -/

/-- What happens to the controller. -/
inductive Event where
  | write (w : Width) (offset value : UInt32)
  | complete (ch : Fin 7)
  | takeTriggered
deriving DecidableEq, Repr

/-- The controller after an event. A write that is refused leaves what it has
done until then. -/
def happen (d : Dma) : Event → Dma
  | .write w offset value =>
    match Device.storeLane readInPlace writeInPlace w offset value d with
    | .ok _ d' => d'
    | .error _ d' => d'
  | .complete ch => (d.complete ch).2
  | .takeTriggered => d.takeTriggered.2

/-- The controller after a history that begins when it is switched on. -/
def after (history : List Event) : Dma :=
  history.foldl happen {}

/-- What every event preserves holds after every history. -/
theorem after_preserves {P : Dma → Prop} (h₀ : P {}) (hstep : ∀ d event, P d → P (d.happen event))
    (history : List Event) : P (after history) := by
  have hfold (d : Dma) (hd : P d) : P (history.foldl happen d) := by
    induction history generalizing d with
    | nil => exact hd
    | cons event history ih => exact ih _ (hstep d event hd)
  exact hfold {} h₀

/-- Writes of every width find the register around them. -/
theorem writeHole_eq_none_iff (w : Width) (offset : UInt32) :
    Device.writeHole? Dma w offset = none ↔ answers offset = true := by
  have hword : answers (wordAddress offset) = answers offset := by
    rw [answers, answers, Register.ofOffset_wordAddress]
  change registerHole? answers w offset = none ↔ _
  cases w <;> simp [registerHole?, hword]

/-- A write of any width goes to the register around it, if there is one. -/
theorem happen_write_eq (d : Dma) (w : Width) (offset value : UInt32) :
    d.happen (.write w offset value) =
      match Register.ofOffset? offset with
      | some r => d.writeRegister r (w.merge offset (d.readRegister r) value)
      | none => d := by
  have hhole := writeHole_eq_none_iff w offset
  rw [answers] at hhole
  simp only [happen, Device.storeLane_eq readInPlace_eq writeInPlace_eq writesLane d offset value,
    Device.store, Device.write]
  cases hr : Register.ofOffset? offset with
  | some r =>
    rw [hhole.mpr (by rw [hr]; rfl)]
    rfl
  | none =>
    cases hw : Device.writeHole? Dma w offset with
    | none => simp [hw, hr] at hhole
    | some hole => rfl

/-- It is refused and does nothing, or puts some value into one register. -/
theorem happen_write (d : Dma) (w : Width) (offset value : UInt32) :
    d.happen (.write w offset value) = d ∨
      ∃ r content, d.happen (.write w offset value) = d.writeRegister r content := by
  rw [happen_write_eq]
  cases Register.ofOffset? offset with
  | none => exact .inl rfl
  | some r => exact .inr ⟨r, _, rfl⟩

theorem channel_modify (d : Dma) (k ch : Fin 7) (f : DmaChannel → DmaChannel) :
    (d.modifyChannel k f).channels.get ch =
      if k = ch then f (d.channels.get ch) else d.channels.get ch := by
  change (d.modifyChannel k f).channels[ch] = _
  rw [modifyChannel, Fin.getElem_fin, Vector.getElem_set]
  by_cases hk : k = ch
  · subst hk
    rw [if_pos rfl, if_pos rfl]
    rfl
  · rw [if_neg hk, if_neg fun h => hk (Fin.ext h)]
    rfl

/-! ## Bit 31 of the interrupt register -/

/-- Bit 31 is due: forced by bit 15, or let through by bit 23 for a channel with
both its enable and its flag. -/
def Due (interrupt : UInt32) : Prop :=
  interrupt.toNat.testBit 15 = true ∨
    (interrupt.toNat.testBit 23 = true ∧ ∃ ch : Fin 7,
      interrupt.toNat.testBit (16 + ch) = true ∧ interrupt.toNat.testBit (24 + ch) = true)

theorem Due.congr {a b : UInt32} (h : ∀ i < 31, a.toNat.testBit i = b.toNat.testBit i) :
    Due a ↔ Due b := by
  have hch (ch : Fin 7) : a.toNat.testBit (16 + ch) = b.toNat.testBit (16 + ch) ∧
      a.toNat.testBit (24 + ch) = b.toNat.testBit (24 + ch) :=
    ⟨h _ (by omega), h _ (by omega)⟩
  simp [Due, h 15, h 23, hch]

theorem masterFlag_iff (interrupt : UInt32) : masterFlag interrupt = true ↔ Due interrupt := by
  have hboth (i : Nat) :
      ((interrupt >>> 16) &&& (interrupt >>> 24) &&& 0x7F).toNat.testBit i = true ↔
        (interrupt.toNat.testBit (16 + i) = true ∧ interrupt.toNat.testBit (24 + i) = true) ∧
          i < 7 := by
    have hmask : (0x7F : UInt32).toNat = 2 ^ 7 - 1 := rfl
    rw [UInt32.toNat_and, Nat.testBit_and, hmask, Nat.testBit_two_pow_sub_one]
    simp
  rw [masterFlag, Bool.or_eq_true, Bool.and_eq_true, and_ne_zero_eq_testBit (k := 15) rfl,
    and_ne_zero_eq_testBit (k := 23) rfl, ne_zero_iff_exists_testBit, Due]
  simp only [hboth]
  refine or_congr_right (and_congr_right fun _ => ⟨?_, ?_⟩)
  · rintro ⟨i, hi, hlt⟩
    exact ⟨⟨i, hlt⟩, hi⟩
  · rintro ⟨ch, hch⟩
    exact ⟨ch, hch, ch.isLt⟩

theorem testBit_withMasterFlag (interrupt : UInt32) (i : Nat) :
    (withMasterFlag interrupt).toNat.testBit i =
      if i = 31 then masterFlag interrupt else interrupt.toNat.testBit i := by
  have hraise : (0x80000000 : UInt32).toNat = 2 ^ 31 := rfl
  have hclear : (0x7FFFFFFF : UInt32).toNat = 2 ^ 31 - 1 := rfl
  have hhigh (hi : 32 ≤ i) := testBit_eq_false_of_le interrupt hi
  rw [withMasterFlag]
  cases masterFlag interrupt with
  | true =>
    rw [if_pos rfl, UInt32.toNat_or, Nat.testBit_or, hraise, Nat.testBit_two_pow]
    grind
  | false =>
    rw [if_neg Bool.false_ne_true, UInt32.toNat_and, Nat.testBit_and, hclear,
      Nat.testBit_two_pow_sub_one]
    grind

/-- Once bit 31 is brought up to date it says what is due. -/
theorem testBit_master (interrupt : UInt32) :
    (withMasterFlag interrupt).toNat.testBit 31 = true ↔ Due (withMasterFlag interrupt) := by
  have hkept : ∀ i < 31, (withMasterFlag interrupt).toNat.testBit i = interrupt.toNat.testBit i := by
    intro i hi
    rw [testBit_withMasterFlag, if_neg (Nat.ne_of_lt hi)]
  rw [Due.congr hkept, testBit_withMasterFlag, if_pos rfl, masterFlag_iff]

/-! ## What every history keeps -/

/-- The bits that the interrupt register has. -/
def interruptBits : UInt32 := 0xFFFF803F

theorem within_withMasterFlag {interrupt : UInt32} (h : Within interruptBits interrupt) :
    Within interruptBits (withMasterFlag interrupt) := by
  rw [withMasterFlag]
  split
  · exact h.or (.of_and_eq (by decide))
  · exact h.and_left _

/-- Bit 31 says what is due, bits that the interrupt register does not have are
clear, and transfers start at addresses of 24 bits. -/
structure Lawful (d : Dma) : Prop where
  master : d.interrupt.toNat.testBit 31 = true ↔ Due d.interrupt
  bits : Within interruptBits d.interrupt
  base : ∀ ch : Fin 7, (d.channels.get ch).base.toNat < 2 ^ 24

namespace Lawful

variable {d : Dma}

theorem initial : Lawful {} where
  master := by
    change (0 : UInt32).toNat.testBit 31 = true ↔ Due 0
    simp [Due]
  bits := .of_and_eq (by decide)
  base := by decide

theorem modifyChannel (h : d.Lawful) (ch : Fin 7) {f : DmaChannel → DmaChannel}
    (hf : (f (d.channels.get ch)).base.toNat < 2 ^ 24) : (d.modifyChannel ch f).Lawful where
  master := h.master
  bits := h.bits
  base k := by
    rw [channel_modify]
    split
    · rename_i hk
      exact hk ▸ hf
    · exact h.base k

/-- A new interrupt register may hold anything that fits, if bit 31 is brought up to date. -/
theorem setInterrupt (h : d.Lawful) {interrupt : UInt32} (hbits : Within interruptBits interrupt) :
    Lawful { d with interrupt := withMasterFlag interrupt } where
  master := testBit_master interrupt
  bits := within_withMasterFlag hbits
  base := h.base

theorem writeInterrupt (h : d.Lawful) (value : UInt32) : (d.writeInterrupt value).Lawful :=
  -- The flags that stay are flags already, and of the value only what fits is taken.
  h.setInterrupt (((h.bits.and_left _).and_left _).or (.and_right _ (.of_and_eq (by decide))))

theorem writeRegister (h : d.Lawful) (r : Register) (value : UInt32) :
    (d.writeRegister r value).Lawful := by
  cases r with
  | base ch =>
    refine h.modifyChannel ch (f := ({ · with base := value &&& 0x00FFFFFF })) ?_
    rw [UInt32.toNat_and]
    exact Nat.and_lt_two_pow _ (by decide)
  | blockControl ch => exact h.modifyChannel ch (f := ({ · with blockControl := value })) (h.base ch)
  | channelControl ch =>
    have hwritten := h.modifyChannel ch (f := ({ · with control := Dma.channelControl ch value }))
      (h.base ch)
    simp only [Dma.writeRegister, writeChannelControl]
    split
    · exact ⟨hwritten.master, hwritten.bits, hwritten.base⟩
    · exact hwritten
  | control => exact ⟨h.master, h.bits, h.base⟩
  | interrupt => exact h.writeInterrupt value
  | spare i => exact ⟨h.master, h.bits, h.base⟩

theorem complete (h : d.Lawful) (ch : Fin 7) : (d.complete ch).2.Lawful := by
  have hflag : ∀ ch : Fin 7, (1 <<< UInt32.ofNat (24 + ch.val)) &&& interruptBits =
      1 <<< UInt32.ofNat (24 + ch.val) := by decide
  refine (h.modifyChannel ch (f := DmaChannel.stop) (h.base ch)).setInterrupt ?_
  split
  · exact h.bits.or (.of_and_eq (hflag ch))
  · exact h.bits

theorem happen (h : d.Lawful) (event : Event) : (d.happen event).Lawful := by
  cases event with
  | write w offset value =>
    rcases d.happen_write w offset value with hd | ⟨r, content, hd⟩
    · rw [hd]
      exact h
    · rw [hd]
      exact h.writeRegister r content
  | complete ch => exact h.complete ch
  | takeTriggered => exact ⟨h.master, h.bits, h.base⟩

end Lawful

theorem lawful_after (history : List Event) : (after history).Lawful :=
  after_preserves .initial (fun _ event h => h.happen event) history

/-- The end of a transfer is reported as a rise of bit 31 exactly if the bit was
clear and is set afterwards. -/
theorem complete_fst_iff (d : Dma) (ch : Fin 7) :
    (d.complete ch).1 = true ↔
      d.interrupt.toNat.testBit 31 = false ∧
        (d.complete ch).2.interrupt.toNat.testBit 31 = true := by
  have hbit (a : UInt32) : (a &&& 0x80000000 != 0) = a.toNat.testBit 31 :=
    and_ne_zero_eq_testBit rfl a
  have hclear (a : UInt32) : (a &&& 0x80000000 == 0) = !a.toNat.testBit 31 := by
    rw [← hbit, bne, Bool.not_not]
  simp only [Dma.complete, hbit, hclear, Bool.and_eq_true, Bool.not_eq_true']

/-- After every history bit 31 of the interrupt register is set exactly when it is
forced or an enabled channel is flagged, bits 6 to 14 are clear, every channel
starts below 2 ^ 24, and the end of a transfer answers whether bit 31 rose. -/
theorem interrupt_after (history : List Event) :
    ((after history).interrupt.toNat.testBit 31 = true ↔ Due (after history).interrupt) ∧
      (∀ i : Fin 9, (after history).interrupt.toNat.testBit (6 + i) = false) ∧
      (∀ ch : Fin 7, ((after history).channels.get ch).base.toNat < 2 ^ 24) ∧
      ∀ ch : Fin 7, ((after history).complete ch).1 = true ↔
        (after history).interrupt.toNat.testBit 31 = false ∧
          ((after history).complete ch).2.interrupt.toNat.testBit 31 = true := by
  have h := lawful_after history
  have hunused : ∀ i : Fin 9, interruptBits.toNat.testBit (6 + i) = false := by decide
  refine ⟨h.master, ?_, h.base, (after history).complete_fst_iff⟩
  intro i
  exact h.bits.testBit_eq_false (hunused i)

/-- The end of a transfer raises bit 31, and acknowledging its flag takes it back. -/
example :
    (after [.write .half 0x76 0x0084, .complete 2]).interrupt = 0x84840000 ∧
      (after [.write .half 0x76 0x0084, .complete 2, .write .byte 0x77 0x04]).interrupt =
        0x00840000 := by
  decide

end Dma

end R3000
