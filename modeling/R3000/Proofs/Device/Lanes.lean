import R3000.Proofs.Device.UpperHalf

/-!
# Lanes of device registers

Most devices have word registers, of which narrow reads give lanes. The sound
unit has halfword registers and composes its words of them, and the timers leave
out the upper halves of their words. A narrow read gives the lane of the word in
all of them. Reading leaves a device as it was, except that the mode of a timer
loses its flags.
-/

namespace R3000

namespace Device

variable {D : Type} [Device D] {w : Width} {offset : UInt32}

/-- A read of width `w` at `offset` gives the lane of the word, if there is a word. It
leaves what reading the word does, unless it is one of a halfword. -/
structure Coherent (D : Type) [Device D] (w : Width) (offset : UInt32) : Prop where
  hole : readHole? D .word (wordAddress offset) = none → readHole? D w offset = none
  value : ∀ d : D, (read d w offset).1 = w.lane offset (read d .word (wordAddress offset)).1
  state : w ≠ .half → ∀ d : D, (read d w offset).2 = (read d .word (wordAddress offset)).2

theorem ReadsLane.coherent (h : w ≠ .word → ReadsLane D w) (ha : w.align offset = offset) :
    Coherent D w offset := by
  by_cases hw : w = .word
  · subst hw
    have hword : wordAddress offset = offset := ha
    exact ⟨fun hnone => by rwa [hword] at hnone, fun d => by rw [hword, Width.lane_word],
      fun _ d => by rw [hword]⟩
  · have hlane := h hw
    exact ⟨fun hnone => by rw [hlane.hole, hnone], fun d => by rw [hlane.read],
      fun _ d => by rw [hlane.read]⟩

end Device

/-! ## The sound unit -/

namespace Spu

theorem index_eq (offset : UInt32) : index offset = offset.toNat / 2 % 512 := by
  rw [index, toNat_and_low (k := 9) rfl, UInt32.toNat_shiftRight]
  rfl

theorem readHalf_word (s : Spu) (offset : UInt32) :
    s.readHalf offset =
      if offset.toNat % 4 < 2 then s.readHalf (wordAddress offset)
      else s.readHalf (wordAddress offset + 2) := by
  have hoffset := offset.toNat_lt
  have hupper : (wordAddress offset + 2).toNat = (wordAddress offset).toNat + 2 :=
    Width.word.toNat_align_add offset (k := 2) (by decide)
  simp only [readHalf]
  split
  · congr 1
    rw [index_eq, index_eq, toNat_wordAddress]
    omega
  · congr 1
    rw [index_eq, index_eq, hupper, toNat_wordAddress]
    omega

theorem toNat_readWord (s : Spu) (offset : UInt32) :
    (s.readWord offset).toNat =
      (s.readHalf offset).toNat + 2 ^ 16 * (s.readHalf (offset + 2)).toNat := by
  have hlow := (s.readHalf offset).toNat_lt
  have hhigh := (s.readHalf (offset + 2)).toNat_lt
  have hmoved : ((s.readHalf (offset + 2)).toUInt32 <<< 16).toNat =
      2 ^ 16 * (s.readHalf (offset + 2)).toNat := by
    rw [UInt32.toNat_shiftLeft, UInt16.toNat_toUInt32, Nat.shiftLeft_eq, Nat.mul_comm]
    exact Nat.mod_eq_of_lt (Nat.mul_lt_mul_of_pos_left hhigh (Nat.two_pow_pos 16))
  rw [readWord, UInt32.toNat_or, hmoved, UInt16.toNat_toUInt32, Nat.or_comm,
    ← Nat.two_pow_add_eq_or_of_lt hlow, Nat.add_comm]

theorem toNat_readByte (s : Spu) (offset : UInt32) :
    (s.readByte offset).toNat = (s.readHalf offset).toNat / 256 ^ (offset.toNat % 2) % 256 := by
  have hbit : (offset &&& 1).toNat = offset.toNat % 2 := toNat_and_low (k := 1) rfl offset
  have hmove : ((offset &&& 1) * 8).toNat % 32 = 8 * (offset.toNat % 2) := by
    have height : (8 : UInt32).toNat = 8 := rfl
    rw [UInt32.toNat_mul, hbit, height]
    omega
  rw [readByte, Width.toNat_truncate, UInt32.toNat_shiftRight, hmove, UInt16.toNat_toUInt32,
    Nat.shiftRight_eq_div_pow, Nat.pow_mul]
  rfl

/-- A halfword of the sound unit is the half of its word. -/
theorem readHalf_eq (s : Spu) (offset : UInt32) :
    (s.readHalf offset).toUInt32 = Width.half.lane offset (s.readWord (wordAddress offset)) := by
  have hlow := (s.readHalf (wordAddress offset)).toNat_lt
  have hhigh := (s.readHalf (wordAddress offset + 2)).toNat_lt
  have hstart : Width.half.start offset = if offset.toNat % 4 < 2 then 0 else 2 := by
    rw [Width.start, Width.toNat_align, Width.bytes]
    split <;> omega
  have hbytes : Width.half.bytes = 2 := rfl
  apply UInt32.toNat_inj.mp
  rw [UInt16.toNat_toUInt32, readHalf_word, Width.toNat_lane, toNat_readWord, hstart, hbytes]
  split <;> omega

/-- A byte of the sound unit is the byte of its word. -/
theorem readByte_eq (s : Spu) (offset : UInt32) :
    s.readByte offset = Width.byte.lane offset (s.readWord (wordAddress offset)) := by
  have hlow := (s.readHalf (wordAddress offset)).toNat_lt
  have hstart : Width.byte.start offset = offset.toNat % 4 := rfl
  have hbytes : Width.byte.bytes = 1 := rfl
  apply UInt32.toNat_inj.mp
  rw [toNat_readByte, readHalf_word, Width.toNat_lane, toNat_readWord, hstart, hbytes]
  -- The lower two bytes come from one halfword and the upper two from the next.
  obtain h | h | h | h : offset.toNat % 4 = 0 ∨ offset.toNat % 4 = 1 ∨ offset.toNat % 4 = 2 ∨
      offset.toNat % 4 = 3 := by omega
  · have hplace : offset.toNat % 2 = 0 := by omega
    rw [h, hplace, if_pos (by decide)]
    omega
  · have hplace : offset.toNat % 2 = 1 := by omega
    rw [h, hplace, if_pos (by decide)]
    omega
  · have hplace : offset.toNat % 2 = 0 := by omega
    rw [h, hplace, if_neg (by decide)]
    omega
  · have hplace : offset.toNat % 2 = 1 := by omega
    rw [h, hplace, if_neg (by decide)]
    omega

theorem readsLane {w : Width} (hw : w ≠ .word) : Device.ReadsLane Spu w where
  hole _ := rfl
  read s offset := by
    cases w with
    | word => exact absurd rfl hw
    | half => exact congrArg (·, s) (s.readHalf_eq offset)
    | byte => exact congrArg (·, s) (s.readByte_eq offset)

end Spu

/-! ## The timers -/

namespace Timers

variable {t : Timers} {w : Width} {offset : UInt32}

theorem readWord_fst (t : Timers) (offset : UInt32) :
    ∃ x : UInt16, (t.readWord offset).1 = x.toUInt32 := by
  rw [readWord]
  cases Register.ofOffset? offset with
  | none => exact ⟨0, rfl⟩
  | some r => exact t.readRegister_fst r

theorem coherent_half (ha : Width.half.align offset = offset) :
    Device.Coherent Timers .half offset where
  hole h := by
    cases hupper : isUpperHalf offset with
    | true => exact if_pos (by rw [hupper, Bool.true_or])
    | false =>
      rw [← align_half_of_lower hupper, ha] at h
      have hanswers : answers offset = true := by
        by_contra hvacant
        nomatch h.symm.trans (if_neg hvacant)
      exact if_pos (by rw [hanswers, Bool.or_true])
  value t := by
    obtain ⟨x, hx⟩ := t.readWord_fst (wordAddress offset)
    change _ = Width.half.lane offset (t.readWord (wordAddress offset)).1
    change (if isUpperHalf offset then (0, t) else t.readWord offset).1 = _
    cases hupper : isUpperHalf offset with
    | true =>
      have hstart : 2 ≤ Width.half.start offset := by
        rw [Width.start, ha]
        exact isUpperHalf_iff.mp hupper
      rw [hx, lane_upperHalf hstart]
      rfl
    | false =>
      have hword : wordAddress offset = offset := (align_half_of_lower hupper).symm.trans ha
      have hstart : Width.half.start offset = 0 := by
        have hlower : ¬ 2 ≤ offset.toNat % 4 := fun h =>
          Bool.false_ne_true (hupper.symm.trans (isUpperHalf_iff.mpr h))
        have heven := Width.half.bytes_dvd_align offset
        rw [ha, Width.bytes] at heven
        rw [Width.start, ha]
        omega
      rw [hword] at hx ⊢
      rw [if_neg Bool.false_ne_true, hx]
      apply UInt32.toNat_inj.mp
      rw [Width.toNat_lane, hstart, Nat.pow_zero, Nat.div_one, UInt16.toNat_toUInt32]
      exact (Nat.mod_eq_of_lt x.toNat_lt).symm
  state h := absurd rfl h

/-- Reading leaves the timers as they were, or it clears the flags of the mode that is there. -/
theorem read_leaves (t : Timers) (ha : w.align offset = offset) :
    (Device.read t w offset).2 = t ∨
      ∃ n, Register.ofOffset? (wordAddress offset) = some (.mode n) ∧
        (Device.read t w offset).2 = t.modifyChannel n (·.readMode.2) := by
  have hword (offset : UInt32) : (t.readWord offset).2 = t ∨
      ∃ n, Register.ofOffset? offset = some (.mode n) ∧
        (t.readWord offset).2 = t.modifyChannel n (·.readMode.2) := by
    rw [readWord]
    cases hr : Register.ofOffset? offset with
    | none => exact .inl rfl
    | some r =>
      cases r with
      | counter n | target n => exact .inl rfl
      | mode n => exact .inr ⟨n, rfl, rfl⟩
  cases w with
  | byte => exact hword (wordAddress offset)
  | word =>
    have hsame : wordAddress offset = offset := ha
    rw [hsame]
    exact hword offset
  | half =>
    change (if isUpperHalf offset then (0, t) else t.readWord offset).2 = t ∨ ∃ n, _ ∧
      (if isUpperHalf offset then (0, t) else t.readWord offset).2 = _
    cases hupper : isUpperHalf offset with
    | true => exact .inl rfl
    | false =>
      rw [← align_half_of_lower hupper, ha]
      exact hword offset

/-- The mode registers follow each other at a distance of sixteen bytes. -/
theorem Register.toNat_of_mode {n : Fin 3} (h : ofOffset? offset = some (.mode n)) :
    offset.toNat = 4 + 16 * n.val := by
  have hslot : (offset &&& 0xF).toNat = offset.toNat % 2 ^ 4 := toNat_and_low (k := 4) rfl offset
  have hrow : (offset >>> 4).toNat = offset.toNat / 2 ^ 4 := by
    rw [UInt32.toNat_shiftRight]
    exact Nat.shiftRight_eq_div_pow ..
  unfold ofOffset? at h
  dsimp only at h
  split at h
  · split at h
    · nomatch h
    · split at h
      · rename_i hmode
        obtain rfl := Register.mode.inj (Option.some.inj h)
        rw [beq_iff_eq, ← UInt32.toNat_inj, hslot] at hmode
        change _ = 4 at hmode
        dsimp only
        omega
      · split at h <;> nomatch h
  · nomatch h

end Timers

/-! ## All devices -/

namespace Peripheral

theorem coherent (p : Peripheral) {w : Width} {offset : UInt32} (ha : w.align offset = offset) :
    Device.Coherent p.State w offset := by
  cases p with
  | interrupt => exact Device.ReadsLane.coherent InterruptController.readsLane ha
  | dma => exact Device.ReadsLane.coherent Dma.readsLane ha
  | gpu => exact Device.ReadsLane.coherent Gpu.readsLane ha
  | spu => exact Device.ReadsLane.coherent Spu.readsLane ha
  | timers =>
    cases w with
    | half => exact Timers.coherent_half ha
    | byte => exact Device.ReadsLane.coherent (fun _ => Timers.readsLane) ha
    | word => exact Device.ReadsLane.coherent (absurd rfl) ha

end Peripheral

end R3000
