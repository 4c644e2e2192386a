import R3000.Proofs.Bus.Acknowledgement
import R3000.Proofs.Bus.Interrupt

/-!
# The line of the DMA controller

Bit 31 of the interrupt register of the DMA controller says that an interrupt is
due, and its rise is to raise the line. The end of a transfer does so. But a
store can make the bit rise as well, by bit 15 or by the enables of channels
that are flagged, and no store raises a line of its own accord.
-/

namespace R3000

namespace Dma

variable {offset : UInt32}

/-- Only the word of the interrupt register has this register. -/
theorem wordAddress_of_interrupt (h : Register.ofOffset? offset = some .interrupt) :
    wordAddress offset = 0x74 := by
  have hrow : (offset >>> 4).toNat = offset.toNat / 16 := by
    rw [UInt32.toNat_shiftRight, Nat.shiftRight_eq_div_pow]
    rfl
  have hslot : ((offset >>> 2) &&& 3).toNat = offset.toNat / 4 % 4 := by
    rw [toNat_and_low (k := 2) rfl, UInt32.toNat_shiftRight, Nat.shiftRight_eq_div_pow]
    rfl
  simp only [Register.ofOffset?, hrow, beq_iff_eq, ← UInt32.toNat_inj, hslot] at h
  have hplace : offset.toNat / 16 = 7 ∧ offset.toNat / 4 % 4 = 1 := by
    grind
  apply UInt32.toNat_inj.mp
  rw [toNat_wordAddress]
  change _ = 0x74
  omega

/-- A write changes the interrupt register only if it is written to this register. -/
theorem interrupt_writeRegister {r : Register} (h : r ≠ .interrupt) (d : Dma) (value : UInt32) :
    (d.writeRegister r value).interrupt = d.interrupt := by
  cases r with
  | interrupt => exact absurd rfl h
  | channelControl ch =>
    simp only [writeRegister, writeChannelControl]
    split <;> rfl
  | base | blockControl | control | spare => rfl

/-- A write makes bit 31 rise if it is written to the interrupt register, where the
bit was clear and is due afterwards. -/
theorem rises_write_iff (d : Dma) {w : Width} (hhole : Device.writeHole? Dma w offset = none)
    (value : UInt32) :
    d.Rises (Device.write d w offset value) ↔
      wordAddress offset = 0x74 ∧ d.interrupt.toNat.testBit 31 = false ∧
        Due (Device.write d w offset value).interrupt := by
  obtain ⟨r, hr⟩ : ∃ r, Register.ofOffset? offset = some r :=
    Option.isSome_iff_exists.mp ((writeHole_eq_none_iff w offset).mp hhole)
  have hwrite : Device.write d w offset value =
      d.writeRegister r (w.merge offset (d.readRegister r) value) := by
    simp only [Device.write, hr]
  by_cases hinterrupt : r = .interrupt
  · subst hinterrupt
    rw [and_iff_right (wordAddress_of_interrupt hr), hwrite, Rises]
    exact and_congr_right fun _ => testBit_master _
  · have hword : wordAddress offset ≠ 0x74 := by
      intro hword
      rw [ofOffset_interrupt hword] at hr
      exact hinterrupt (Option.some.inj hr).symm
    rw [hwrite, Rises, interrupt_writeRegister hinterrupt]
    refine iff_of_false ?_ fun h => hword h.1
    rintro ⟨hclear, hset⟩
    nomatch hclear.symm.trans hset

end Dma

namespace Bus

variable {b b' : Bus} {a : UInt32}

/-- A transfer ends, or a store that is not hidden goes to the controller. -/
def AtDma (b : Bus) : Event → Prop
  | .completeDma _ => True
  | .store _ a _ => b.isolated = false ∧ Peripheral.dma.Owns a
  | _ => False

/-- The line is raised if bit 31 rises, and no line changes if it does not. -/
structure LineFollows (b b' : Bus) : Prop where
  raised : b.dma.Rises b'.dma → b'.interrupt.Raised 3
  kept : ¬ b.dma.Rises b'.dma → b'.interrupt.status = b.interrupt.status

/-- The event is a store to the interrupt register in which bit 31 was clear, and is
due afterwards. -/
def RisesByStore (b : Bus) : Event → Prop
  | .store w a value =>
    Dma.NamesInterrupt a ∧ b.dma.interrupt.toNat.testBit 31 = false ∧
      Dma.Due (b.happen (.store w a value)).dma.interrupt
  | _ => False

theorem interrupt_store (hi : b.isolated = false) (ha : Peripheral.dma.Owns a) (w : Width)
    (value : UInt32) :
    (b.happen (.store w a value)).interrupt = b.interrupt := by
  rw [happen_store_device hi ha]
  split <;> rfl

theorem rises_store_iff (hi : b.isolated = false) (ha : Peripheral.dma.Owns a) (w : Width)
    (value : UInt32) :
    b.dma.Rises (b.happen (.store w a value)).dma ↔ RisesByStore b (.store w a value) := by
  have hnames : Dma.NamesInterrupt a ↔ wordAddress (Peripheral.dma.offset w a) = 0x74 := by
    rw [Dma.NamesInterrupt, and_iff_right ha.1, Peripheral.wordAddress_offset_eq_iff]
    rfl
  rw [RisesByStore, hnames, happen_store_device hi ha]
  cases hhole : Device.writeHole? Peripheral.dma.State w (Peripheral.dma.offset w a) with
  | none => exact b.dma.rises_write_iff hhole _
  | some hole =>
    -- A hole is not the interrupt register, and what meets it changes nothing.
    refine iff_of_false ?_ ?_
    · rintro ⟨hclear, hset⟩
      nomatch hclear.symm.trans hset
    · rintro ⟨hword, -⟩
      have hnone : Device.writeHole? Peripheral.dma.State w (Peripheral.dma.offset w a) = none :=
        Dma.writeHole_interrupt w hword
      nomatch hnone.symm.trans hhole

theorem lineFollows_completeDma (b : Bus) (ch : Fin 7) : LineFollows b (b.completeDma ch) where
  raised h := (b.raised_completeDma ch 3).mpr (.inl ⟨rfl, h⟩)
  kept h := by
    have hrose : ¬ (b.dma.complete ch).1 = true := mt (b.dma.complete_fst_iff ch).mp h
    change (if (b.dma.complete ch).1 then b.interrupt.request InterruptController.dmaLine
      else b.interrupt).status = b.interrupt.status
    rw [if_neg hrose]

/-- The line follows bit 31 at the end of every transfer, and at every store but one
to the interrupt register that makes the bit rise while the line is low. -/
theorem lineFollows_iff (b : Bus) (event : Event) (h : AtDma b event) :
    (LineFollows b (b.happen event) ↔ (RisesByStore b event → b.interrupt.Raised 3)) ∧
      (RisesByStore b event →
        b.dma.Rises (b.happen event).dma ∧ (b.happen event).interrupt = b.interrupt) := by
  cases event with
  | load | tick => cases h
  | completeDma ch => exact ⟨iff_of_true (b.lineFollows_completeDma ch) nofun, nofun⟩
  | store w a value =>
    obtain ⟨hi, ha⟩ := h
    have hkept := interrupt_store hi ha w value
    have hrises := rises_store_iff hi ha w value
    refine ⟨⟨?_, ?_⟩, fun h => ⟨hrises.mpr h, hkept⟩⟩
    · intro hfollows h
      exact hkept ▸ hfollows.raised (hrises.mpr h)
    · intro hraised
      refine ⟨fun h => ?_, fun _ => ?_⟩
      · rw [hkept]
        exact hraised (hrises.mp h)
      · rw [hkept]

/-- The end of a transfer on channel 2, which is enabled. -/
theorem lineFollows_iff_transfer :
    AtDma { dma := { interrupt := 0x00840000 } } (.completeDma 2) ∧
      LineFollows { dma := { interrupt := 0x00840000 } }
        (happen { dma := { interrupt := 0x00840000 } } (.completeDma 2)) ∧
      (happen { dma := { interrupt := 0x00840000 } } (.completeDma 2)).interrupt.Raised 3 := by
  have hfollows : LineFollows { dma := { interrupt := 0x00840000 } }
      (happen { dma := { interrupt := 0x00840000 } } (.completeDma 2)) :=
    (lineFollows_iff _ (.completeDma 2) trivial).1.mpr nofun
  refine ⟨trivial, hfollows, hfollows.raised ?_⟩
  rw [Dma.Rises]
  decide

/-- A store forces bit 31, and the line stays low. -/
theorem line_missed :
    ¬ ∀ (b : Bus) (event : Event), AtDma b event → LineFollows b (b.happen event) := by
  intro hlaw
  have ha : Peripheral.dma.Owns 0x1F8010F4 := by decide
  have hfollows := hlaw {} (.store .word 0x1F8010F4 0x8000) ⟨rfl, ha⟩
  have hrises : Dma.Rises {} (happen {} (.store .word 0x1F8010F4 0x8000)).dma := by
    rw [Dma.Rises]
    decide
  have hlow : ¬ (happen {} (.store .word 0x1F8010F4 0x8000)).interrupt.Raised 3 := by
    rw [interrupt_store rfl ha .word 0x8000]
    decide
  exact hlow (hfollows.raised hrises)

end Bus

end R3000
