import R3000.Proofs.Device.Timer
import R3000.Proofs.Memory.Bytes

/-!
# Upper halves of the timers' registers

The registers of the timers are sixteen bits wide and stand in words of their
own. Halfword accesses leave the upper half of a word out. Byte accesses do not
know of it: a byte is read with its word, and a byte that is written goes with
the word that was read. This shows in the mode registers, where it matters that a
word is read and that one is written, whatever is in it.
-/

namespace R3000

namespace TimerChannel

/-- Neither flag is set. -/
def Unflagged (c : TimerChannel) : Prop :=
  c.mode &&& (reachedTarget ||| reachedMax) = 0

/-- The channel is as a written mode leaves it. -/
structure AsWritten (c : TimerChannel) : Prop where
  counter : c.counter = 0
  fired : c.fired = false
  mode : (c.mode &&& 0x03FF) ||| irqRequest = c.mode

variable {c : TimerChannel}

/-- Reading the mode leaves a channel as it was, if neither flag is set. -/
theorem readMode_eq_self_iff : c.readMode.2 = c ↔ c.Unflagged := by
  have hsplit : c.mode = (c.mode &&& ~~~(reachedTarget ||| reachedMax)) |||
      (c.mode &&& (reachedTarget ||| reachedMax)) := by
    have hall : ~~~(reachedTarget ||| reachedMax) ||| (reachedTarget ||| reachedMax) = -1 := by
      decide
    rw [UInt16.and_comm c.mode, UInt16.and_comm c.mode, ← half_or_and, hall, UInt16.neg_one_and]
  constructor
  · intro heq
    have hnone : ~~~(reachedTarget ||| reachedMax) &&& (reachedTarget ||| reachedMax) = 0 := by
      decide
    rw [Unflagged, ← congrArg mode heq, readMode, UInt16.and_assoc, hnone, UInt16.and_zero]
  · intro hflags
    rw [Unflagged] at hflags
    rw [hflags, UInt16.or_zero] at hsplit
    rw [readMode, ← hsplit]

/-- So does writing the mode, if it is what was written and nothing happened since. -/
theorem writeMode_eq_self_iff {value : UInt32} (h : value.toUInt16 = c.mode) :
    c.writeMode value = c ↔ c.AsWritten := by
  have hwritten : c.writeMode value =
      { c with mode := (c.mode &&& 0x03FF) ||| irqRequest, counter := 0, fired := false } := by
    rw [writeMode, h]
  rw [hwritten]
  constructor
  · intro heq
    exact ⟨(congrArg counter heq).symm, (congrArg fired heq).symm, congrArg mode heq⟩
  · rintro ⟨hcounter, hfired, hmode⟩
    rw [hmode, ← hcounter, ← hfired]

end TimerChannel

namespace Timers

variable {t : Timers} {n : Fin 3} {w : Width} {offset value : UInt32} {r : Register}

/-- The offset is in the upper half of the word of register `r`. -/
def InUpperHalf (offset : UInt32) (r : Register) : Prop :=
  Register.ofOffset? (wordAddress offset) = some r ∧ isUpperHalf offset = true

instance (offset : UInt32) (r : Register) : Decidable (InUpperHalf offset r) :=
  inferInstanceAs (Decidable (_ ∧ _))

theorem isUpperHalf_iff : isUpperHalf offset = true ↔ 2 ≤ offset.toNat % 4 := by
  rw [isUpperHalf, and_ne_zero_eq_testBit (k := 1) rfl, Nat.testBit_eq_decide_div_mod_eq,
    decide_eq_true_iff]
  omega

theorem isUpperHalf_align_half (offset : UInt32) :
    isUpperHalf (Width.half.align offset) = isUpperHalf offset := by
  rw [Bool.eq_iff_iff, isUpperHalf_iff, isUpperHalf_iff, Width.toNat_align, Width.bytes]
  omega

theorem align_half_of_lower (h : isUpperHalf offset = false) :
    Width.half.align offset = wordAddress offset := by
  have hplace : ¬ 2 ≤ offset.toNat % 4 := by
    rw [← isUpperHalf_iff, h]
    exact Bool.false_ne_true
  apply UInt32.toNat_inj.mp
  rw [Width.toNat_align, toNat_wordAddress, Width.bytes]
  omega

/-- There is nothing above the lowest two bytes. -/
theorem lane_upperHalf (h : 2 ≤ w.start offset) (x : UInt16) : w.lane offset x.toUInt32 = 0 := by
  have hpow : 256 ^ 2 ≤ 256 ^ w.start offset := Nat.pow_le_pow_right (by decide) h
  have hbelow : x.toNat < 256 ^ w.start offset := Nat.lt_of_lt_of_le x.toNat_lt hpow
  apply UInt32.toNat_inj.mp
  rw [Width.toNat_lane, UInt16.toNat_toUInt32, Nat.div_eq_of_lt hbelow, Nat.zero_mod]
  rfl

/-- What is written there does not reach the lowest two bytes. -/
theorem merge_upperHalf (h : 2 ≤ w.start offset) (x : UInt16) (value : UInt32) :
    (w.merge offset x.toUInt32 value).toUInt16 = x := by
  have hkept : (w.merge offset x.toUInt32 value).toUInt16 = x.toUInt32.toUInt16 := by
    apply toUInt16_congr
    intro k hk
    rw [Width.byteOf_merge _ _ _ _ (by omega), if_neg]
    rw [Width.Uses]
    omega
  rw [hkept, UInt16.toUInt16_toUInt32]

theorem modifyChannel_eq_self_iff {f : TimerChannel → TimerChannel} :
    t.modifyChannel n f = t ↔ f (t.channel n) = t.channel n := by
  constructor
  · intro heq
    have hchannel := t.channel_modify n n f
    rwa [heq, if_pos rfl, eq_comm] at hchannel
  · intro hf
    have hset : t.channels.set n (t.channels.get n) = t.channels := Vector.set_getElem_self ..
    exact congrArg Timers.mk ((congrArg (t.channels.set n) hf).trans hset)

/-! ## Accesses -/

/-- A register that is read and written back with what was in it. -/
def rewritten (t : Timers) (r : Register) : Timers :=
  (t.readRegister r).2.writeRegister r (t.readRegister r).1

theorem readRegister_fst (t : Timers) (r : Register) :
    ∃ x : UInt16, (t.readRegister r).1 = x.toUInt32 := by
  cases r with
  | counter n | mode n | target n => exact ⟨_, rfl⟩

theorem writeRegister_congr {value' : UInt32} (h : value.toUInt16 = value'.toUInt16)
    (t : Timers) (r : Register) : t.writeRegister r value = t.writeRegister r value' := by
  cases r with
  | counter n => simp only [writeRegister, TimerChannel.writeCounter, h]
  | mode n => simp only [writeRegister, TimerChannel.writeMode, h]
  | target n => simp only [writeRegister, TimerChannel.writeTarget, h]

theorem half_upperHalf (t : Timers) (h : isUpperHalf offset = true) (value : UInt32) :
    Device.load t .half offset = .ok (0, t) ∧ Device.store t .half offset value = .ok t := by
  simp [Device.load, Device.readHole?, Device.read, Device.store, Device.writeHole?, Device.write,
    hole?, h]

/-- A byte that is loaded reads the register, and one that is stored writes it back. -/
theorem byte_upperHalf (t : Timers) (h : InUpperHalf offset r) (value : UInt32) :
    Device.load t .byte offset = .ok (0, (t.readRegister r).2) ∧
      Device.store t .byte offset value = .ok (t.rewritten r) := by
  obtain ⟨x, hx⟩ := t.readRegister_fst r
  have hread : t.readWord (wordAddress offset) = t.readRegister r := by rw [readWord, h.1]
  have hwrite (t : Timers) (value : UInt32) :
      t.writeWord (wordAddress offset) value = t.writeRegister r value := by rw [writeWord, h.1]
  have hhole : hole? .byte offset = none := by
    simp [hole?, registerHole?, answers, h.1]
  constructor
  · have hlane := lane_upperHalf (w := .byte) (isUpperHalf_iff.mp h.2) x
    rw [← hx] at hlane
    have hvalue : Device.read t .byte offset = (0, (t.readRegister r).2) := by
      simp only [Device.read, hread, hlane]
    simp only [Device.load, Device.readHole?, hhole, hvalue]
  · have hmerge := merge_upperHalf (w := .byte) (isUpperHalf_iff.mp h.2) x value
    rw [← hx] at hmerge
    have hback : Device.write t .byte offset value = t.rewritten r := by
      simp only [Device.write, writeByte, hread, hwrite]
      rw [writeRegister_congr (hmerge.trans (UInt16.toUInt16_toUInt32 x).symm), ← hx, rewritten]
    simp only [Device.store, Device.writeHole?, hhole, hback]

theorem readRegister_eq_self_iff (t : Timers) (r : Register) :
    (t.readRegister r).2 = t ↔ ∀ n, r = .mode n → (t.channel n).Unflagged := by
  cases r with
  | counter n | target n => exact iff_of_true rfl (by simp)
  | mode n =>
    change t.modifyChannel n (·.readMode.2) = t ↔ _
    rw [modifyChannel_eq_self_iff, TimerChannel.readMode_eq_self_iff]
    simp

theorem rewritten_eq_self_iff (t : Timers) (r : Register) :
    t.rewritten r = t ↔ ∀ n, r = .mode n → (t.channel n).AsWritten := by
  cases r with
  | counter n =>
    refine iff_of_true ?_ (by simp)
    change t.modifyChannel n (·.writeCounter (t.channel n).counter.toUInt32) = t
    rw [modifyChannel_eq_self_iff, TimerChannel.writeCounter, UInt16.toUInt16_toUInt32]
  | target n =>
    refine iff_of_true ?_ (by simp)
    change t.modifyChannel n (·.writeTarget (t.channel n).target.toUInt32) = t
    rw [modifyChannel_eq_self_iff, TimerChannel.writeTarget, UInt16.toUInt16_toUInt32]
  | mode n =>
    have hwritten : t.rewritten (.mode n) =
        t.modifyChannel n (·.writeMode (t.channel n).mode.toUInt32) :=
      t.modifyChannel_modifyChannel n (·.readMode.2) (·.writeMode (t.channel n).mode.toUInt32)
    rw [hwritten, modifyChannel_eq_self_iff,
      TimerChannel.writeMode_eq_self_iff (UInt16.toUInt16_toUInt32 _)]
    simp

/-- Narrow loads from an upper half give zero. They leave the timers as they were
unless they take a byte of a mode whose flags are set. Narrow stores leave them so unless they
bring a byte of a mode that was not written just before. -/
theorem upperHalf_access (t : Timers) (hw : w ≠ .word) (h : InUpperHalf offset r)
    (value : UInt32) :
    ∃ loaded stored, Device.load t w offset = .ok (0, loaded) ∧
      Device.store t w offset value = .ok stored ∧
      (loaded = t ↔ (w = .byte → ∀ n, r = .mode n → (t.channel n).Unflagged)) ∧
      (stored = t ↔ (w = .byte → ∀ n, r = .mode n → (t.channel n).AsWritten)) := by
  cases w with
  | word => exact absurd rfl hw
  | half =>
    obtain ⟨hload, hstore⟩ := t.half_upperHalf h.2 value
    exact ⟨t, t, hload, hstore, iff_of_true rfl (by nofun), iff_of_true rfl (by nofun)⟩
  | byte =>
    obtain ⟨hload, hstore⟩ := t.byte_upperHalf h value
    refine ⟨_, _, hload, hstore, ?_, ?_⟩
    · rw [t.readRegister_eq_self_iff]
      simp
    · rw [t.rewritten_eq_self_iff]
      simp

/-- The upper half of a target. -/
theorem upperHalf_access_target :
    Width.byte ≠ .word ∧ InUpperHalf 0x1B (.target 1) ∧
      Device.load flagged .byte 0x1B = .ok (0, flagged) ∧
      Device.store flagged .byte 0x1B 0xFF = .ok flagged := by
  have hw : Width.byte ≠ .word := by decide
  have h : InUpperHalf 0x1B (.target 1) := by decide
  obtain ⟨loaded, stored, hload, hstore, hloaded, hstored⟩ := upperHalf_access flagged hw h 0xFF
  rw [hloaded.mpr (by nofun)] at hload
  rw [hstored.mpr (by nofun)] at hstore
  exact ⟨hw, h, hload, hstore⟩

/-- A byte stored to the upper half of a mode starts the counter over. -/
theorem mode_rewritten :
    ¬ ∀ (t : Timers) (w : Width) (offset value : UInt32) (r : Register), w ≠ .word →
        InUpperHalf offset r →
          Device.load t w offset = .ok (0, t) ∧ Device.store t w offset value = .ok t := by
  intro hlaw
  have h : InUpperHalf 0x06 (.mode 0) := by decide
  have hstore := (hlaw ⟨#v[{ counter := 5 }, {}, {}]⟩ .byte 0x06 0 _ (by decide) h).2
  rw [(byte_upperHalf _ h 0).2] at hstore
  have hwritten := (rewritten_eq_self_iff _ _).mp (Except.ok.inj hstore) 0 rfl
  exact absurd hwritten.counter (by decide)

end Timers

end R3000
