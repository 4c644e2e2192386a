import R3000.Proofs.Bounds.Device
import R3000.Proofs.Device.Parts
import R3000.Proofs.Latch

/-!
# The mirror of the control register

The six lowest bits of the sound unit's status register repeat those of its control
register. They are copied there whenever the control register is written. But the status
register can be written as well, and then keeps the bits it is given until the control
register is written again.
-/

namespace R3000

namespace Spu

/-! ## Registers and writes -/

/-- A write to the registers. -/
structure Write where
  width : Width
  offset : UInt32
  value : UInt32
  in_range : offset ≤ 0x3FF
deriving DecidableEq, Repr

/-- The unit after a write. -/
def perform (s : Spu) (w : Write) : Spu :=
  Device.write s w.width w.offset w.value

/-- The unit after writes that begin when it is switched on. -/
def after (history : List Write) : Spu :=
  history.foldl perform {}

/-- The bits of a halfword that are mirrored. -/
def lowBits (value : UInt16) : UInt16 :=
  value &&& 0x003F

def controlBits (s : Spu) : UInt16 :=
  lowBits (s.readHalf controlOffset)

def statusBits (s : Spu) : UInt16 :=
  lowBits (s.readHalf statusOffset)

/-- The status register repeats the bits of the control register. -/
def Mirrored (s : Spu) : Prop :=
  s.statusBits = s.controlBits

namespace Write

/-- The bits that a write itself brings to the mirrored bits of the halfword `register`. -/
def brings? (w : Write) (register : UInt32) : Option UInt16 :=
  match w.width with
  | .byte => if w.offset = register then some (lowBits w.value.toUInt16) else none
  | .half =>
    if Width.half.align w.offset = register then some (lowBits w.value.toUInt16) else none
  | .word =>
    if Width.half.align w.offset = register then some (lowBits w.value.toUInt16)
    else if Width.half.align (w.offset + 2) = register then
      some (lowBits (w.value >>> 16).toUInt16)
    else none

/-- A write reaches the control register, or one byte of it. -/
def ReachesControl (w : Write) : Prop :=
  isControl w.offset = true ∨ w.width = .word ∧ isControl (w.offset + 2) = true

instance (w : Write) : Decidable w.ReachesControl :=
  inferInstanceAs (Decidable (_ ∨ _))

end Write

/-! ## Halfwords -/

theorem lowBits_mirror (old value : UInt16) :
    lowBits ((old &&& 0xFFC0) ||| (value &&& 0x003F)) = lowBits value := by
  have hapart : (0xFFC0 : UInt16) &&& 0x003F = 0 := rfl
  rw [lowBits, half_or_and, UInt16.and_assoc, hapart, UInt16.and_zero, UInt16.zero_or,
    UInt16.and_assoc, UInt16.and_self, lowBits]

theorem lowBits_mergeByte (s : Spu) (offset value : UInt32) :
    lowBits (s.mergeByte offset value) =
      if offset.toNat % 2 = 0 then lowBits value.toUInt16 else lowBits (s.readHalf offset) := by
  have hupper : (0xFF00 : UInt16) &&& 0x003F = 0 := rfl
  have hlower : (0x00FF : UInt16) &&& 0x003F = 0x003F := rfl
  have hmoved (x : UInt16) : (x <<< (8 : UInt16)) &&& 0x003F = 0 := by
    have height : (8 : UInt16).toNat % 16 = 8 := rfl
    apply UInt16.toNat_inj.mp
    rw [UInt16.toNat_and, UInt16.toNat_shiftLeft, height, Nat.shiftLeft_eq]
    refine (Nat.and_two_pow_sub_one_eq_mod _ 6).trans (?_ : _ = 0)
    omega
  rw [mergeByte]
  split
  · rename_i heven
    rw [if_pos ((and_one_eq_zero_iff offset).mp (beq_iff_eq.mp heven)), lowBits,
      half_or_and, UInt16.and_assoc, hupper, UInt16.and_zero, UInt16.zero_or,
      UInt16.and_assoc, hlower, lowBits]
  · rename_i hodd
    rw [if_neg (mt (and_one_eq_zero_iff offset).mpr (mt beq_iff_eq.mpr hodd)), lowBits,
      half_or_and, hmoved, UInt16.or_zero, UInt16.and_assoc, hlower, lowBits]

variable {s : Spu} {offset : UInt32}

theorem controlBits_writeHalf (hs : s.registers.size = registerCount) (ho : offset.toNat < 1026)
    (value : UInt16) :
    (s.writeHalf offset value).controlBits =
      if offset.toNat / 2 = 213 then lowBits value else s.controlBits := by
  have hplace : index controlOffset = 213 := rfl
  have hstatus : index statusOffset = 215 := rfl
  rw [controlBits, readHalf_writeHalf (hs ▸ index_lt _), written, hplace, hstatus, index_eq]
  split
  · rw [if_pos (by omega)]
  · rw [if_neg (by omega), if_neg (by omega), controlBits]

theorem statusBits_writeHalf (hs : s.registers.size = registerCount) (ho : offset.toNat < 1026)
    (value : UInt16) :
    (s.writeHalf offset value).statusBits =
      if offset.toNat / 2 = 213 ∨ offset.toNat / 2 = 215 then lowBits value
      else s.statusBits := by
  have hstatus : index statusOffset = 215 := rfl
  have hcontrol := isControl_iff offset
  rw [statusBits, readHalf_writeHalf (hs ▸ index_lt _), written, hstatus, index_eq]
  split
  · rw [if_pos (by omega)]
  · by_cases hc : offset.toNat / 2 = 213
    · rw [if_pos ⟨hcontrol.mpr hc, rfl⟩, if_pos (.inl hc), lowBits_mirror]
    · rw [if_neg (by rw [hcontrol]; omega), if_neg (by omega), statusBits]

/-- What is written to the control register shows in both. -/
theorem mirrored_writeHalf (hs : s.registers.size = registerCount)
    (hcontrol : offset.toNat / 2 = 213) (value : UInt16) :
    (s.writeHalf offset value).Mirrored := by
  rw [Mirrored, statusBits_writeHalf hs (by omega), controlBits_writeHalf hs (by omega),
    if_pos (.inl hcontrol), if_pos hcontrol]

/-! ## One write -/

namespace Write

theorem offset_lt (w : Write) : w.offset.toNat < 1024 :=
  Nat.lt_succ_of_le (UInt32.le_iff_toNat_le.mp w.in_range)

theorem toNat_next (w : Write) : (w.offset + 2).toNat = w.offset.toNat + 2 := by
  have htwo : (2 : UInt32).toNat = 2 := rfl
  have hlt := w.offset_lt
  rw [UInt32.toNat_add, htwo]
  omega

end Write

variable {w : Write}

theorem size_perform (s : Spu) (w : Write) :
    (s.perform w).registers.size = s.registers.size :=
  size_write ..

theorem perform_byte (s : Spu) (h : w.width = .byte) :
    s.perform w = s.writeHalf w.offset (s.mergeByte w.offset w.value) := by
  rw [perform, h]
  rfl

theorem perform_half (s : Spu) (h : w.width = .half) :
    s.perform w = s.writeHalf w.offset w.value.toUInt16 := by
  rw [perform, h]
  rfl

theorem perform_word (s : Spu) (h : w.width = .word) :
    s.perform w =
      (s.writeHalf w.offset w.value.toUInt16).writeHalf (w.offset + 2)
        (w.value >>> 16).toUInt16 := by
  rw [perform, h]
  rfl

/-- The mirror is renewed by whatever reaches the control register, be it the byte that is
not mirrored. -/
theorem mirrored_perform (hs : s.registers.size = registerCount) (h : w.ReachesControl) :
    (s.perform w).Mirrored := by
  have hlt := w.offset_lt
  have hnext := w.toNat_next
  rw [Write.ReachesControl, isControl_iff, isControl_iff] at h
  cases hw : w.width with
  | byte =>
    rw [perform_byte s hw]
    exact mirrored_writeHalf hs (h.resolve_right fun hword => nomatch hw.symm.trans hword.1) _
  | half =>
    rw [perform_half s hw]
    exact mirrored_writeHalf hs (h.resolve_right fun hword => nomatch hw.symm.trans hword.1) _
  | word =>
    rw [perform_word s hw]
    rcases h with hfirst | ⟨-, hsecond⟩
    · -- The second halfword is the one between the two registers.
      have hkept := mirrored_writeHalf hs hfirst w.value.toUInt16
      rw [Mirrored, statusBits_writeHalf (by rwa [size_writeHalf]) (by omega),
        controlBits_writeHalf (by rwa [size_writeHalf]) (by omega), if_neg (by omega),
        if_neg (by omega)]
      exact hkept
    · exact mirrored_writeHalf (by rwa [size_writeHalf]) hsecond _

/-- Other writes leave the control register alone, and change the status register to what
they bring there. -/
theorem bits_perform (hs : s.registers.size = registerCount) (h : ¬ w.ReachesControl) :
    (s.perform w).controlBits = s.controlBits ∧
      (s.perform w).statusBits = (w.brings? statusOffset).getD s.statusBits := by
  have hlt := w.offset_lt
  have hnext := w.toNat_next
  have hstatus : statusOffset.toNat = 430 := rfl
  have hregister : statusOffset.toNat % 2 = 0 := rfl
  rw [Write.ReachesControl, isControl_iff, isControl_iff, not_or] at h
  rw [Write.brings?]
  cases hw : w.width with
  | byte =>
    rw [perform_byte s hw, controlBits_writeHalf hs (by omega), if_neg h.1,
      statusBits_writeHalf hs (by omega), lowBits_mergeByte]
    refine ⟨rfl, ?_⟩
    simp only [← UInt32.toNat_inj, hstatus]
    by_cases hbyte : w.offset.toNat = 430
    · rw [if_pos (by omega), if_pos (by omega), if_pos hbyte, Option.getD_some]
    · rw [if_neg hbyte, Option.getD_none]
      split
      · -- The upper byte of the register comes with the lower byte that was there.
        have hplace : index w.offset = index statusOffset := by
          rw [index_eq, index_eq]
          omega
        rw [if_neg (by omega), statusBits, readHalf, readHalf, hplace]
      · rfl
  | half =>
    rw [perform_half s hw, controlBits_writeHalf hs (by omega), if_neg h.1,
      statusBits_writeHalf hs (by omega)]
    refine ⟨rfl, ?_⟩
    simp only [align_eq_iff hregister]
    split
    · rw [if_pos (by omega), Option.getD_some]
    · rw [if_neg (by omega), Option.getD_none]
  | word =>
    have hsecond : ¬ (w.offset + 2).toNat / 2 = 213 := fun hc => h.2 ⟨hw, hc⟩
    rw [perform_word s hw, controlBits_writeHalf (by rwa [size_writeHalf]) (by omega),
      if_neg hsecond, controlBits_writeHalf hs (by omega), if_neg h.1,
      statusBits_writeHalf (by rwa [size_writeHalf]) (by omega),
      statusBits_writeHalf hs (by omega)]
    refine ⟨rfl, ?_⟩
    simp only [align_eq_iff hregister]
    by_cases hlow : w.offset.toNat / 2 = 215
    · rw [if_neg (by omega), if_pos (by omega), if_pos (by omega), Option.getD_some]
    · by_cases hhigh : (w.offset + 2).toNat / 2 = 215
      · rw [if_pos (by omega), if_neg (by omega), if_pos (by omega), Option.getD_some]
      · rw [if_neg (by omega), if_neg (by omega), if_neg (by omega), if_neg (by omega),
          Option.getD_none]

/-! ## Histories -/

/-- A write after which the mirror holds whatever was before: it reaches the control
register, or brings the bits of the control register to the status register. -/
def Renews (s : Spu) (w : Write) : Prop :=
  w.ReachesControl ∨ w.brings? statusOffset = some s.controlBits

/-- A write that brings nothing to the mirrored bits of the status register. -/
def Write.Spares (w : Write) : Prop :=
  w.brings? statusOffset = none

theorem mirrored_perform_iff (hs : s.registers.size = registerCount) (w : Write) :
    (s.perform w).Mirrored ↔ s.Renews w ∨ (w.Spares ∧ s.Mirrored) := by
  by_cases hreach : w.ReachesControl
  · exact iff_of_true (mirrored_perform hs hreach) (.inl (.inl hreach))
  · obtain ⟨hcontrol, hstatus⟩ := bits_perform hs hreach
    rw [Mirrored, hcontrol, hstatus, Renews, Write.Spares, or_iff_right hreach]
    cases hb : w.brings? statusOffset with
    | none => simp [Mirrored]
    | some bits => simp

theorem size_default : ({} : Spu).registers.size = registerCount :=
  Array.size_replicate

theorem readHalf_default (offset : UInt32) : ({} : Spu).readHalf offset = 0 := by
  have hplace : index offset < 512 := index_lt offset
  simp [readHalf, hplace]

/-- After any writes the mirror holds exactly if none of them brought anything to the
mirrored bits of the status register, or if all that did were followed by a write that
renewed the mirror: one that reached the control register, or one that brought to the
status register what the control register held. -/
theorem mirrored_after_iff (history : List Write) :
    (after history).Mirrored ↔
      (∀ w ∈ history, w.Spares) ∨ SetSince perform Renews Write.Spares {} history := by
  have hfirst : ({} : Spu).Mirrored := by
    rw [Mirrored, statusBits, controlBits, readHalf_default, readHalf_default]
  have hlatched := latched_foldl (I := fun s : Spu => s.registers.size = registerCount)
    (P := Mirrored) (fun s w hs => (size_perform s w).trans hs)
    (fun s w hs => mirrored_perform_iff hs w) size_default history
  rw [after, hlatched, and_iff_right hfirst]

/-- The status register can be given other bits than the control register has, by a write
of any width. -/
theorem mirror_broken :
    ¬ (after [⟨.byte, 0x1AE, 0x01, by decide⟩]).Mirrored ∧
      ¬ (after [⟨.half, 0x1AE, 0x0001, by decide⟩]).Mirrored ∧
      ¬ (after [⟨.word, 0x1AC, 0x00010000, by decide⟩]).Mirrored := by
  have hbreaks {w : Write} (hreach : ¬ w.ReachesControl) (hb : w.brings? statusOffset = some 1) :
      ¬ (after [w]).Mirrored := by
    change ¬ (perform {} w).Mirrored
    obtain ⟨hcontrol, hstatus⟩ := bits_perform size_default hreach
    rw [Mirrored, hcontrol, hstatus, hb, controlBits, readHalf_default]
    decide
  exact ⟨hbreaks (by decide) (by decide), hbreaks (by decide) (by decide),
    hbreaks (by decide) (by decide)⟩

end Spu

end R3000
