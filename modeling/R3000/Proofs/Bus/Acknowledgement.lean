import R3000.Proofs.Bus.Window
import R3000.Proofs.Device.Dma

/-!
# Acknowledging transfers

Writing a one to a flag of the interrupt register clears it. A narrow write reads
the register, puts its bytes in and writes the whole back. So flags that it does
not bring come back as ones and are cleared as well, though nothing was written
to them.
-/

namespace R3000

namespace Dma

/-- The end of a transfer on channel `ch` waits to be acknowledged. -/
def Flagged (d : Dma) (ch : Fin 7) : Prop :=
  d.interrupt.toNat.testBit (24 + ch) = true

/-- The address is in the word of the interrupt register. -/
def NamesInterrupt (a : UInt32) : Prop :=
  a < Target.controlSegment ∧ wordAddress (physical a) = 0x1F8010F4

instance (d : Dma) (ch : Fin 7) : Decidable (d.Flagged ch) :=
  inferInstanceAs (Decidable (_ = _))

instance (a : UInt32) : Decidable (NamesInterrupt a) :=
  inferInstanceAs (Decidable (_ ∧ _))

/-- A store brings a one for the flag of channel `ch`, if it brings the flags at all. -/
def Acknowledges (w : Width) (a value : UInt32) (ch : Fin 7) : Prop :=
  ∃ byte, w.supplied? a value 3 = some byte ∧ byte.toNat.testBit ch = true

/-- What the store clears, it has brought a one for. -/
def ClearsOnes (w : Width) (a value : UInt32) (d d' : Dma) : Prop :=
  ∀ ch, d.Flagged ch → ¬ d'.Flagged ch → Acknowledges w a value ch

variable {d : Dma}

/-- The flags are in the highest byte of the register. -/
theorem testBit_flags (value : UInt32) (ch : Fin 7) :
    (byteOf value 3).toNat.testBit ch = value.toNat.testBit (24 + ch) := by
  have hlt : ch.val < 8 := by omega
  rw [testBit_byteOf, decide_eq_true hlt, Bool.true_and]

theorem ofOffset_interrupt {offset : UInt32} (h : wordAddress offset = 0x74) :
    Register.ofOffset? offset = some .interrupt := by
  rw [← Register.ofOffset_wordAddress, h]
  rfl

theorem writeHole_interrupt (w : Width) {offset : UInt32} (h : wordAddress offset = 0x74) :
    Device.writeHole? Dma w offset = none := by
  rw [writeHole_eq_none_iff, answers, ofOffset_interrupt h]
  rfl

/-- A write of the whole register clears the flags that it has ones for. -/
theorem flagged_writeInterrupt (d : Dma) (value : UInt32) (ch : Fin 7) :
    (d.writeInterrupt value).Flagged ch ↔
      d.Flagged ch ∧ (byteOf value 3).toNat.testBit ch = false := by
  have hflags : ∀ ch : Fin 7, (0x7F000000 : UInt32).toNat.testBit (24 + ch) = true := by decide
  have hothers : ∀ ch : Fin 7, (0x00FF803F : UInt32).toNat.testBit (24 + ch) = false := by decide
  have hlow : 24 + ch.val ≠ 31 := by omega
  rw [Flagged, writeInterrupt, testBit_withMasterFlag, if_neg hlow, UInt32.toNat_or, Nat.testBit_or,
    UInt32.toNat_and, Nat.testBit_and, UInt32.toNat_and, Nat.testBit_and,
    testBit_complement _ (by omega), UInt32.toNat_and, Nat.testBit_and, UInt32.toNat_and,
    Nat.testBit_and, hflags, hothers, testBit_flags, Flagged]
  simp

/-- A store clears every flag but those that it brings a zero for. -/
theorem flagged_write (d : Dma) (w : Width) {offset : UInt32} (h : wordAddress offset = 0x74)
    (value : UInt32) (ch : Fin 7) :
    (Device.write d w offset value).Flagged ch ↔
      d.Flagged ch ∧ ∃ byte, w.supplied? offset value 3 = some byte ∧
        byte.toNat.testBit ch = false := by
  have hwrite : Device.write d w offset value =
      d.writeInterrupt (w.merge offset d.interrupt value) := by
    simp only [Device.write, ofOffset_interrupt h]
    rfl
  rw [hwrite, flagged_writeInterrupt, Width.byteOf_merge_supplied w offset _ _ (by decide)]
  refine and_congr_right fun hflag => ?_
  cases w.supplied? offset value 3 with
  | none =>
    -- What comes back is the flag itself.
    rw [Flagged, ← testBit_flags] at hflag
    simp [hflag]
  | some byte => simp

/-- A store that clears no other flag than it should brings the flags, or there are none. -/
theorem clearsOnes_iff {d' : Dma} {w : Width} {a value : UInt32}
    (h : ∀ ch, d'.Flagged ch ↔
      d.Flagged ch ∧ ∃ byte, w.supplied? a value 3 = some byte ∧ byte.toNat.testBit ch = false) :
    ClearsOnes w a value d d' ↔ w.Uses a 3 ∨ ∀ ch, ¬ d.Flagged ch := by
  constructor
  · intro hlaw
    by_cases huses : w.Uses a 3
    · exact .inl huses
    · have hnone : w.supplied? a value 3 = none := if_neg huses
      refine .inr fun ch hflag => ?_
      have hcleared : ¬ d'.Flagged ch := by
        rw [h, hnone]
        rintro ⟨-, byte, hbyte, -⟩
        cases hbyte
      obtain ⟨byte, hbyte, -⟩ := hlaw ch hflag hcleared
      rw [hnone] at hbyte
      cases hbyte
  · rintro (huses | hclear) ch hflag hcleared
    · have hsome : w.supplied? a value 3 = some (byteOf value (3 - w.start a)) := if_pos huses
      refine ⟨_, hsome, ?_⟩
      by_contra hzero
      rw [Bool.not_eq_true] at hzero
      exact hcleared ((h ch).mpr ⟨hflag, _, hsome, hzero⟩)
    · exact absurd hflag (hclear ch)

end Dma

/-! ## Stores -/

namespace Bus

variable {b : Bus} {w : Width} {a value : UInt32}

/-- The controller answers stores of every width to its interrupt register. -/
theorem ofStore_interrupt (h : Dma.NamesInterrupt a) (w : Width) :
    ∃ offset, Target.ofStore w a = .ok (.device .dma offset) ∧ wordAddress offset = 0x74 ∧
      w.start offset = w.start a := by
  obtain ⟨hlow, hword⟩ := h
  have howns : Peripheral.dma.Owns a := .of_wordAddress hlow hword rfl
  have hoffset : wordAddress (Peripheral.dma.offset w a) = 0x74 :=
    (Peripheral.wordAddress_offset_eq_iff ..).mpr hword
  have hhole : Device.writeHole? Peripheral.dma.State w (Peripheral.dma.offset w a) = none :=
    Dma.writeHole_interrupt w hoffset
  refine ⟨_, ?_, hoffset, Peripheral.dma.start_offset w a⟩
  rw [Target.ofStore, Target.ofAddress_occupied howns, hhole]

theorem store_interrupt (b : Bus) (w : Width) {a : UInt32} (value : UInt32)
    (hi : b.isolated = false) (ha : Dma.NamesInterrupt a) :
    ∃ dma, b.store w a value = .ok { b with dma } ∧ ∀ ch, dma.Flagged ch ↔
      b.dma.Flagged ch ∧ ∃ byte, w.supplied? a value 3 = some byte ∧
        byte.toNat.testBit ch = false := by
  obtain ⟨offset, ht, hoffset, hplace⟩ := ofStore_interrupt ha w
  have hseen : b.hides w a = false := by rw [hides, hi, Bool.false_and]
  refine ⟨Device.write b.dma w offset (w.truncate value), ?_, ?_⟩
  · rw [store_eq_map, hseen, ht]
    rfl
  · intro ch
    rw [Dma.flagged_write b.dma w hoffset, Width.supplied?_truncate, Width.supplied?_congr hplace]

/-- A store to the interrupt register clears every flag but those that it brings a
zero for. So it clears flags without a one exactly if it does not bring the
flags and some flag is set. -/
theorem store_flags (b : Bus) (w : Width) {a : UInt32} (value : UInt32) (hi : b.isolated = false)
    (ha : Dma.NamesInterrupt a) :
    ∃ dma, b.store w a value = .ok { b with dma } ∧
      (∀ ch, dma.Flagged ch ↔
        b.dma.Flagged ch ∧ ∃ byte, w.supplied? a value 3 = some byte ∧
          byte.toNat.testBit ch = false) ∧
      (Dma.ClearsOnes w a value b.dma dma ↔ w.Uses a 3 ∨ ∀ ch, ¬ b.dma.Flagged ch) := by
  obtain ⟨dma, hs, hflags⟩ := b.store_interrupt w value hi ha
  exact ⟨dma, hs, hflags, Dma.clearsOnes_iff hflags⟩

/-- The end of a transfer on channel 2, acknowledged through a halfword. -/
theorem store_flags_half :
    ({ dma := { interrupt := 0x84840000 } } : Bus).isolated = false ∧
      Dma.NamesInterrupt 0xBF8010F6 ∧
      ∃ dma, ({ dma := { interrupt := 0x84840000 } } : Bus).store .half 0xBF8010F6 0x0484 =
          .ok { dma } ∧ ¬ dma.Flagged 2 := by
  have ha : Dma.NamesInterrupt 0xBF8010F6 := by decide
  obtain ⟨dma, hs, hflags, -⟩ :=
    store_flags { dma := { interrupt := 0x84840000 } } .half 0x0484 rfl ha
  refine ⟨rfl, ha, dma, hs, ?_⟩
  rw [hflags]
  rintro ⟨-, byte, hbyte, hzero⟩
  cases hbyte
  cases hzero

/-- A byte store elsewhere in the register takes away the flag of channel 2. -/
theorem flag_lost :
    ¬ ∀ (b : Bus) (w : Width) (a value : UInt32) (dma : Dma), b.isolated = false →
        Dma.NamesInterrupt a → b.store w a value = .ok { b with dma } →
          Dma.ClearsOnes w a value b.dma dma := by
  intro hlaw
  have ha : Dma.NamesInterrupt 0x1F8010F4 := by decide
  have hnone : Width.byte.supplied? 0x1F8010F4 0 3 = none := by decide
  obtain ⟨dma, hs, hflags⟩ :=
    store_interrupt { dma := { interrupt := 0x84840000 } } .byte 0 rfl ha
  have hcleared : ¬ dma.Flagged 2 := by
    rw [hflags, hnone]
    rintro ⟨-, byte, hbyte, -⟩
    cases hbyte
  obtain ⟨byte, hbyte, -⟩ := hlaw _ _ _ _ _ rfl ha hs 2 (by decide) hcleared
  rw [hnone] at hbyte
  cases hbyte

end Bus

end R3000
