import R3000.Proofs.Bus.Bytes
import R3000.Proofs.Device.UpperHalf
import R3000.Proofs.Parts

/-!
# Words written in parts

Where a register keeps what is put into it, a word can be written in parts as
well. This leaves out the registers that writing acts on: the channel control
and the interrupt register of the DMA controller, and the modes of the timers.
The sound unit has halfwords, and its control register shows in its status
register; here too only what is written last remains.
-/

namespace R3000

/-- A word at `offset` can be written in parts. -/
def Device.Divides (D : Type) [Device D] (offset : UInt32) : Prop :=
  ∀ (d : D) (w : Width) (value : UInt32),
    w.places.foldl
        (fun d k => Device.write d w (offset + UInt32.ofNat k) (w.part value k)) d =
      Device.write d .word offset value

/-- A register that keeps what is put into it can be written in parts, if a write of
each width merges its value into the register. -/
theorem Keeps.divides {D : Type} [Device D] {get : D → UInt32} {put : D → UInt32 → D}
    {mask offset : UInt32} (h : Keeps get put mask) (ha : offset.toNat % 4 = 0)
    (hwrite : ∀ (d : D) (w : Width) (value : UInt32), ∀ k ∈ w.places,
      Device.write d w (offset + UInt32.ofNat k) value =
        put d (w.merge (offset + UInt32.ofNat k) (get d) value)) :
    Device.Divides D offset := by
  have hparts (d : D) (w : Width) (value : UInt32) :
      w.places.foldl
          (fun d k => Device.write d w (offset + UInt32.ofNat k) (w.part value k)) d =
        put d value := by
    rw [← h.put_parts w ha value d]
    exact List.foldl_ext _ _ _ fun d k hk => hwrite d w _ k hk
  intro d w value
  have hword := hparts d .word value
  rw [Width.places, List.foldl_cons, List.foldl_nil, Width.part_word] at hword
  rw [hparts, ← hword]
  congr 1
  exact UInt32.add_zero offset

/-- Registers of sixteen bits. -/
theorem toUInt32_toUInt16 (x : UInt32) : x.toUInt16.toUInt32 = x &&& 0xFFFF := by
  apply UInt32.toNat_inj.mp
  rw [UInt16.toNat_toUInt32, UInt32.toNat_toUInt16, toNat_and_low (k := 16) rfl]

theorem toUInt16_and_mask (x : UInt32) : (x &&& 0xFFFF).toUInt16 = x.toUInt16 := by
  rw [← toUInt32_toUInt16, UInt16.toUInt16_toUInt32]

/-- A halfword that is written below fills them. -/
theorem toUInt16_merge_half {offset : UInt32} (h : Width.half.start offset = 0)
    (content value : UInt32) :
    (Width.half.merge offset content value).toUInt16 = value.toUInt16 := by
  apply toUInt16_congr
  intro k hk
  rw [Width.byteOf_merge _ _ _ _ (by omega), if_pos, h, Nat.sub_zero]
  rw [Width.Uses, h, Width.bytes]
  omega

/-! ## Interrupt controller -/

namespace InterruptController

variable {offset : UInt32}

theorem keeps (h : answers offset = true) :
    Keeps (readWord · offset) (writeWord · offset) 0xFFFF := by
  rw [answers, Bool.or_eq_true, beq_iff_eq, beq_iff_eq] at h
  rcases h with rfl | rfl
  all_goals
    refine ⟨fun c x => toUInt32_toUInt16 x, fun c x y => rfl, fun c x => ?_⟩
    simp only [writeWord, writeStatus, writeMask, toUInt16_and_mask]

theorem divides (h : answers offset = true) : Device.Divides InterruptController offset := by
  have ha : offset.toNat % 4 = 0 := by
    rw [answers, Bool.or_eq_true, beq_iff_eq, beq_iff_eq] at h
    rcases h with rfl | rfl <;> rfl
  refine (keeps h).divides ha fun c w value k hk => ?_
  change c.writeWord (wordAddress _) (w.merge _ (c.readWord (wordAddress _)) value) = _
  rw [Width.wordAddress_add_place ha hk]

end InterruptController

/-! ## DMA controller -/

namespace Dma

variable {offset : UInt32} {r : Register}

/-- Writing the register does nothing but to keep what is written. -/
def Register.Plain : Register → Prop
  | .channelControl _ | .interrupt => False
  | _ => True

theorem keeps (h : r.Plain) : ∃ mask, Keeps (readRegister · r) (writeRegister · r) mask := by
  have hchannel (d : Dma) (ch : Fin 7) (f : DmaChannel → DmaChannel) :
      (d.modifyChannel ch f).channels[ch] = f d.channels[ch] :=
    Vector.getElem_set_self ..
  cases r with
  | channelControl | interrupt => cases h
  | base ch =>
    refine ⟨0x00FFFFFF, ?_, ?_, ?_⟩
    · intro d x
      exact congrArg DmaChannel.base (hchannel d ch ({ · with base := x &&& 0x00FFFFFF }))
    · intro d x y
      simp [writeRegister, writeBase, modifyChannel]
    · intro d x
      simp only [writeRegister, writeBase, UInt32.and_assoc, UInt32.and_self]
  | blockControl ch =>
    refine ⟨_, .of_get_put ?_ ?_⟩
    · intro d x
      exact congrArg DmaChannel.blockControl (hchannel d ch ({ · with blockControl := x }))
    · intro d x y
      simp [writeRegister, writeBlockControl, modifyChannel]
  | control => exact ⟨_, .of_get_put (fun d x => rfl) fun d x y => rfl⟩
  | spare i =>
    refine ⟨_, .of_get_put ?_ ?_⟩
    · intro d x
      exact Vector.getElem_set_self ..
    · intro d x y
      simp [writeRegister]

theorem divides (ha : offset.toNat % 4 = 0) (hr : Register.ofOffset? offset = some r)
    (h : r.Plain) : Device.Divides Dma offset := by
  obtain ⟨mask, hkeeps⟩ := keeps h
  refine hkeeps.divides ha fun d w value k hk => ?_
  have hplace : Register.ofOffset? (offset + UInt32.ofNat k) = some r := by
    rw [← Register.ofOffset_wordAddress, Width.wordAddress_add_place ha hk, hr]
  simp only [Device.write, hplace]

end Dma

/-! ## Timers -/

namespace Timers

variable {offset : UInt32} {r : Register}

/-- Writing the register does nothing but to keep what is written. -/
def Register.Plain : Register → Prop
  | .mode _ => False
  | _ => True

theorem keeps (h : r.Plain) : Keeps (fun t => (readRegister t r).1) (writeRegister · r) 0xFFFF := by
  have hchannel (t : Timers) (n : Fin 3) (f : TimerChannel → TimerChannel) :
      (t.modifyChannel n f).channels[n] = f t.channels[n] :=
    Vector.getElem_set_self ..
  refine ⟨?_, ?_, fun t x => writeRegister_congr (toUInt16_and_mask x) t r⟩
  · intro t x
    rw [← toUInt32_toUInt16]
    cases r with
    | mode => cases h
    | counter n =>
      exact congrArg (fun c => c.counter.toUInt32) (hchannel t n (·.writeCounter x))
    | target n => exact congrArg (fun c => c.target.toUInt32) (hchannel t n (·.writeTarget x))
  · intro t x y
    cases r with
    | mode => cases h
    | counter n => simp [writeRegister, modifyChannel, TimerChannel.writeCounter]
    | target n => simp [writeRegister, modifyChannel, TimerChannel.writeTarget]

theorem divides (ha : offset.toNat % 4 = 0) (hr : Register.ofOffset? offset = some r)
    (h : r.Plain) : Device.Divides Timers offset := by
  have hread (t : Timers) : (t.readRegister r).2 = t := by
    cases r with
    | mode => cases h
    | counter | target => rfl
  have hback (t : Timers) : t.writeRegister r (t.readRegister r).1 = t := by
    have hrewritten := (t.rewritten_eq_self_iff r).mpr fun n hmode => by
      subst hmode
      cases h
    rwa [rewritten, hread] at hrewritten
  refine (keeps h).divides ha fun t w value k hk => ?_
  have hplace : wordAddress (offset + UInt32.ofNat k) = offset :=
    Width.wordAddress_add_place ha hk
  have hstart : w.start (offset + UInt32.ofNat k) = k := Width.start_add_place ha hk
  obtain ⟨x, hx⟩ := t.readRegister_fst r
  cases w with
  | word =>
    obtain rfl : k = 0 := by simpa [Width.places] using hk
    rw [Width.merge_word]
    have hzero : offset + UInt32.ofNat 0 = offset := UInt32.add_zero offset
    change t.writeWord (offset + UInt32.ofNat 0) value = _
    rw [hzero, writeWord, hr]
  | byte =>
    change t.writeByte (offset + UInt32.ofNat k) value = _
    simp only [writeByte, readWord, writeWord, hplace, hr, hread]
  | half =>
    rw [hx]
    change (if isUpperHalf (offset + UInt32.ofNat k) then t
      else t.writeWord (offset + UInt32.ofNat k) value) = _
    obtain rfl | rfl : k = 0 ∨ k = 2 := by simpa [Width.places] using hk
    · have hlower : isUpperHalf (offset + UInt32.ofNat 0) = false := by
        rw [Bool.eq_false_iff, ne_eq, isUpperHalf_iff, toNat_add_ofNat_mod, ha]
        decide
      have hzero : offset + UInt32.ofNat 0 = offset := UInt32.add_zero offset
      rw [if_neg (Bool.eq_false_iff.mp hlower),
        writeRegister_congr (toUInt16_merge_half hstart x.toUInt32 value), hzero, writeWord, hr]
    · have hupper : isUpperHalf (offset + UInt32.ofNat 2) = true := by
        rw [isUpperHalf_iff, toNat_add_ofNat_mod, ha]
      have hmerge := merge_upperHalf hstart.ge x value
      rw [if_pos hupper, writeRegister_congr (hmerge.trans (UInt16.toUInt16_toUInt32 x).symm), ← hx,
        hback]

end Timers

/-! ## Sound unit -/

namespace Spu

variable {s : Spu} {offset other : UInt32}

/-- What a halfword written at `offset` leaves in place `i`, where `old` was. -/
def written (offset : UInt32) (value : UInt16) (i : Nat) (old : UInt16) : UInt16 :=
  if i = index offset then value
  else if isControl offset = true ∧ i = index statusOffset then
    (old &&& 0xFFC0) ||| (value &&& 0x003F)
  else old

/-- Halfwords are told apart by their places. -/
theorem align_eq_iff {register : UInt32} (h : register.toNat % 2 = 0) (offset : UInt32) :
    Width.half.align offset = register ↔ offset.toNat / 2 = register.toNat / 2 := by
  rw [← UInt32.toNat_inj, Width.toNat_align, Width.bytes]
  omega

theorem isControl_iff (offset : UInt32) : isControl offset = true ↔ offset.toNat / 2 = 213 := by
  have heven : controlOffset.toNat % 2 = 0 := rfl
  exact beq_iff_eq.trans (align_eq_iff heven offset)

theorem index_control (h : isControl offset = true) : index offset = 213 := by
  rw [index_eq, (isControl_iff offset).mp h]

theorem getElem?_setHalf (s : Spu) (offset : UInt32) (value : UInt16) (i : Nat) :
    (s.setHalf offset value).registers[i]? =
      s.registers[i]?.map fun old => if i = index offset then value else old := by
  rw [setHalf, Array.getElem?_setIfInBounds]
  by_cases hi : index offset = i
  · subst hi
    by_cases hsize : index offset < s.registers.size
    · simp [hsize]
    · simp [hsize]
  · rw [if_neg hi]
    simp [Ne.symm hi]

theorem getElem?_writeHalf (s : Spu) (offset : UInt32) (value : UInt16) (i : Nat) :
    (s.writeHalf offset value).registers[i]? = s.registers[i]?.map (written offset value i) := by
  rw [writeHalf]
  split
  · rename_i hcontrol
    have hplace : index statusOffset ≠ index offset := by
      rw [index_control hcontrol]
      decide
    rw [getElem?_setHalf, getElem?_setHalf, Option.map_map, readHalf, Array.getD_eq_getD_getElem?,
      getElem?_setHalf]
    cases hold : s.registers[i]? with
    | none => rfl
    | some old =>
      by_cases hi : i = index statusOffset
      · subst hi
        simp [written, hcontrol, hplace, hold]
      · simp [written, hi]
  · rename_i hcontrol
    rw [getElem?_setHalf]
    congr 1
    funext old
    simp [written, hcontrol]

theorem ext_registers {s s' : Spu} (h : ∀ i : Nat, s.registers[i]? = s'.registers[i]?) :
    s = s' := by
  cases s
  cases s'
  exact congrArg Spu.mk (Array.ext_getElem? h)

/-- Of two halfwords that are written in one place the second remains. -/
theorem writeHalf_writeHalf (hindex : index other = index offset)
    (hcontrol : isControl other = isControl offset) (s : Spu) (x y : UInt16) :
    (s.writeHalf offset x).writeHalf other y = s.writeHalf offset y := by
  have hmirror (old : UInt16) :
      ((old &&& 0xFFC0) ||| (x &&& 0x003F)) &&& 0xFFC0 = old &&& 0xFFC0 := by
    have hapart : (0x003F : UInt16) &&& 0xFFC0 = 0 := rfl
    rw [half_or_and, UInt16.and_assoc, UInt16.and_self, UInt16.and_assoc, hapart,
      UInt16.and_zero, UInt16.or_zero]
  apply ext_registers
  intro i
  rw [getElem?_writeHalf, getElem?_writeHalf, getElem?_writeHalf, Option.map_map]
  congr 1
  funext old
  simp only [Function.comp, written, hindex, hcontrol]
  split
  · rfl
  · split
    · rw [hmirror]
    · rfl

/-- Beyond the registers nothing can be written. -/
theorem writeHalf_of_size_le (h : s.registers.size ≤ index offset) (x : UInt16) :
    s.writeHalf offset x = s := by
  apply ext_registers
  intro i
  rw [getElem?_writeHalf]
  cases hold : s.registers[i]? with
  | none => rfl
  | some old =>
    have hi : i < s.registers.size := (Array.getElem?_eq_some_iff.mp hold).1
    rw [Option.map_some, written, if_neg (by omega), if_neg]
    -- The status register lies behind the control register.
    rintro ⟨hcontrol, hstatus⟩
    have hlast : index statusOffset = 215 := rfl
    rw [index_control hcontrol] at h
    omega

/-- What is read within the registers after a write. -/
theorem readHalf_writeHalf (h : index other < s.registers.size) (value : UInt16) :
    (s.writeHalf offset value).readHalf other =
      written offset value (index other) (s.readHalf other) := by
  rw [readHalf, readHalf, Array.getD_eq_getD_getElem?, Array.getD_eq_getD_getElem?,
    getElem?_writeHalf, Array.getElem?_eq_getElem h]
  rfl

/-! ### Bytes -/

theorem index_add_one (ha : offset.toNat % 2 = 0) : index (offset + 1) = index offset := by
  have hlt := offset.toNat_lt
  have hone : (1 : UInt32).toNat = 1 := rfl
  rw [index_eq, index_eq, UInt32.toNat_add, hone]
  omega

theorem isControl_add_one (ha : offset.toNat % 2 = 0) :
    isControl (offset + 1) = isControl offset := by
  have hlt := offset.toNat_lt
  have hone : (1 : UInt32).toNat = 1 := rfl
  rw [Bool.eq_iff_iff, isControl_iff, isControl_iff, UInt32.toNat_add, hone]
  omega

theorem and_one_eq_zero_iff (offset : UInt32) : offset &&& 1 = 0 ↔ offset.toNat % 2 = 0 := by
  rw [← UInt32.toNat_inj, toNat_and_low (k := 1) rfl]
  rfl

/-- The halfword of two bytes. -/
def halfOf (low high : UInt32) : UInt16 :=
  (low.toUInt16 &&& 0x00FF) ||| (high.toUInt16 <<< (8 : UInt16))

/-- Two bytes that are written to a halfword meet there. -/
theorem write_bytes (ha : offset.toNat % 2 = 0) (s : Spu) (low high : UInt32) :
    Device.write (Device.write s .byte offset low) .byte (offset + 1) high =
      s.writeHalf offset (halfOf low high) := by
  have hlower : (offset &&& 1 == 0) = true := beq_iff_eq.mpr ((and_one_eq_zero_iff offset).mpr ha)
  have hupper : ¬ (offset + 1 &&& 1 == 0) = true := by
    have hlt := offset.toNat_lt
    have hone : (1 : UInt32).toNat = 1 := rfl
    rw [beq_iff_eq, and_one_eq_zero_iff, UInt32.toNat_add, hone]
    omega
  have hindex := index_add_one ha
  have hapart : (0xFF00 : UInt16) &&& 0x00FF = 0 := rfl
  change (s.writeHalf offset (s.mergeByte offset low)).writeHalf (offset + 1)
    ((s.writeHalf offset (s.mergeByte offset low)).mergeByte (offset + 1) high) = _
  rw [writeHalf_writeHalf hindex (isControl_add_one ha)]
  by_cases hsize : index offset < s.registers.size
  · -- The second byte finds the first one below it.
    rw [mergeByte, if_neg hupper, readHalf_writeHalf (hindex ▸ hsize), written, if_pos hindex,
      mergeByte, if_pos hlower, half_or_and, UInt16.and_assoc, UInt16.and_assoc, UInt16.and_self,
      hapart, UInt16.and_zero, UInt16.zero_or, halfOf]
  · have hbeyond : s.registers.size ≤ index offset := Nat.le_of_not_lt hsize
    rw [writeHalf_of_size_le hbeyond, writeHalf_of_size_le hbeyond]

/-- The two bytes of a value from byte `k` on. -/
theorem halfOf_parts (value : UInt32) {k : Nat} (hk : k + 1 < 4) :
    halfOf (Width.byte.part value k) (Width.byte.part value (k + 1)) =
      (value >>> UInt32.ofNat (8 * k)).toUInt16 := by
  have hshift {k : Nat} (hk : k < 4) :
      (value >>> UInt32.ofNat (8 * k)).toNat = value.toNat / 256 ^ k := by
    rw [UInt32.toNat_shiftRight, Width.toNat_ofNat_place hk,
      Nat.mod_eq_of_lt (by omega : 8 * k < 32), Nat.shiftRight_eq_div_pow, Nat.pow_mul]
  have hpart {k : Nat} (hk : k < 4) :
      (Width.byte.part value k).toNat = value.toNat / 256 ^ k % 256 := by
    rw [Width.part, Width.toNat_truncate, hshift hk]
    rfl
  have hlow : ((Width.byte.part value k).toUInt16 &&& 0x00FF).toNat =
      value.toNat / 256 ^ k % 2 ^ 8 := by
    rw [UInt16.toNat_and, UInt32.toNat_toUInt16, hpart (by omega)]
    refine (Nat.and_two_pow_sub_one_eq_mod _ 8).trans ?_
    omega
  have hhigh : ((Width.byte.part value (k + 1)).toUInt16 <<< (8 : UInt16)).toNat =
      2 ^ 8 * (value.toNat / 256 ^ k / 256 % 256) := by
    have height : (8 : UInt16).toNat % 16 = 8 := rfl
    rw [UInt16.toNat_shiftLeft, UInt32.toNat_toUInt16, hpart hk, height, Nat.shiftLeft_eq,
      Nat.pow_succ, ← Nat.div_div_eq_div_mul]
    omega
  apply UInt16.toNat_inj.mp
  rw [halfOf, UInt16.toNat_or, hlow, hhigh, Nat.or_comm,
    ← Nat.two_pow_add_eq_or_of_lt (Nat.mod_lt _ (by decide)), UInt32.toNat_toUInt16,
    hshift (by omega)]
  omega

theorem divides (ha : offset.toNat % 4 = 0) : Device.Divides Spu offset := by
  intro s w value
  have hzero : offset + UInt32.ofNat 0 = offset := UInt32.add_zero offset
  cases w with
  | word =>
    rw [Width.places, List.foldl_cons, List.foldl_nil, Width.part_word, hzero]
  | half =>
    have hlow : (Width.half.part value 0).toUInt16 = value.toUInt16 := toUInt16_and_mask _
    have hhigh : (Width.half.part value 2).toUInt16 = (value >>> 16).toUInt16 := toUInt16_and_mask _
    change (s.writeHalf (offset + UInt32.ofNat 0) (Width.half.part value 0).toUInt16).writeHalf
      (offset + 2) (Width.half.part value 2).toUInt16 = s.writeWord offset value
    rw [hlow, hhigh, hzero, writeWord]
  | byte =>
    have hlast : offset + UInt32.ofNat 3 = offset + UInt32.ofNat 2 + 1 := by
      rw [UInt32.add_assoc]
      rfl
    have hplace : (offset + UInt32.ofNat 2).toNat % 2 = 0 := by
      have hmod := toNat_add_ofNat_mod offset 2
      omega
    have hlow : halfOf (Width.byte.part value 0) (Width.byte.part value 1) = value.toUInt16 := by
      rw [halfOf_parts value (by decide)]
      exact congrArg UInt32.toUInt16 UInt32.shiftRight_zero
    have hhigh : halfOf (Width.byte.part value 2) (Width.byte.part value 3) =
        (value >>> 16).toUInt16 := halfOf_parts value (by decide)
    simp only [Width.places, List.foldl_cons, List.foldl_nil, hzero, hlast]
    rw [write_bytes hplace, hhigh]
    refine (congrArg (writeHalf · _ _) (write_bytes (by omega) s _ _)).trans ?_
    rw [hlow]
    rfl

end Spu

end R3000
