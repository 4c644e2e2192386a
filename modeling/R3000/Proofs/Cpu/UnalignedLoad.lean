import R3000.Proofs.Bus.Bytes
import R3000.Proofs.Cpu.Execution
import R3000.Proofs.Cpu.State
import R3000.Proofs.Memory.Bulk

/-!
# Loading a word from any address

`lwr` brings the bytes of a word from its address on into the lowest places of
a register, and `lwl` those up to its address into the highest. With addresses
that are three apart the two bring in four consecutive bytes, wherever these
lie and whichever of the two instructions comes first.
-/

namespace R3000

/-! ## Spliced words -/

namespace Arithmetic

variable {k : Nat}

theorem low_cases (a : UInt32) :
    (a &&& 3 = 0 ∧ a.toNat % 4 = 0) ∨ (a &&& 3 = 1 ∧ a.toNat % 4 = 1) ∨
      (a &&& 3 = 2 ∧ a.toNat % 4 = 2) ∨ (a &&& 3 = 3 ∧ a.toNat % 4 = 3) := by
  have hlow : (a &&& 3).toNat = a.toNat % 4 := toNat_and_low (k := 2) rfl a
  have hlt : a.toNat % 4 < 4 := Nat.mod_lt _ (by decide)
  simp only [← UInt32.toNat_inj, hlow]
  change (_ = 0 ∧ _) ∨ (_ = 1 ∧ _) ∨ (_ = 2 ∧ _) ∨ (_ = 3 ∧ _)
  omega

/-- The bytes of `memory` from the place of `a` on come into the lowest of `register`. -/
theorem byteOf_loadRight (a memory register : UInt32) (hk : k < 4) :
    byteOf (loadRight a memory register) k =
      if k + a.toNat % 4 < 4 then byteOf memory (k + a.toNat % 4) else byteOf register k := by
  rcases low_cases a with ⟨hlow, hmod⟩ | ⟨hlow, hmod⟩ | ⟨hlow, hmod⟩ | ⟨hlow, hmod⟩
  all_goals rw [loadRight, hlow, hmod]
  · exact (if_pos hk).symm
  · exact byteOf_joinBelow register memory rfl rfl (by decide)
  · exact byteOf_joinBelow register memory rfl rfl (by decide)
  · exact byteOf_joinBelow register memory rfl rfl (by decide)

/-- The bytes of `memory` up to the place of `a` come into the highest of `register`. -/
theorem byteOf_loadLeft (a memory register : UInt32) (hk : k < 4) :
    byteOf (loadLeft a memory register) k =
      if k < 3 - a.toNat % 4 then byteOf register k
      else byteOf memory (k - (3 - a.toNat % 4)) := by
  rcases low_cases a with ⟨hlow, hmod⟩ | ⟨hlow, hmod⟩ | ⟨hlow, hmod⟩ | ⟨hlow, hmod⟩
  all_goals rw [loadLeft, hlow, hmod]
  · exact byteOf_joinAbove register memory rfl rfl (by decide) hk
  · exact byteOf_joinAbove register memory rfl rfl (by decide) hk
  · exact byteOf_joinAbove register memory rfl rfl (by decide) hk
  · exact (if_neg (Nat.not_lt_zero k)).symm

end Arithmetic

/-! ## Two instructions -/

namespace Cpu

open Arithmetic

/-- Carry out `first` and then, unless it failed, `second`. -/
def executeBoth (c : Cpu) (b : Bus) (first second : Instruction) : Outcome :=
  let o := c.execute b first
  match o.fault with
  | some _ => o
  | none => Outcome.after o.notes (o.cpu.execute o.bus second)

/-- An instruction for the right part of four bytes from `a` on and one for the
left part, both with the register `t` and with addresses from the register `base`. -/
structure Straddles (c : Cpu) (rightOpcode leftOpcode : Opcode) (right left : Instruction)
    (base t : RegisterIndex) (a : UInt32) : Prop where
  opcodes : right.opcode = rightOpcode ∧ left.opcode = leftOpcode
  bases : right.rs = base ∧ left.rs = base
  registers : right.rt = t ∧ left.rt = t
  addresses : c.effectiveAddress right = a ∧ c.effectiveAddress left = a + 3

/-- All that was done is to put `value` into register `t`. -/
structure Puts (c : Cpu) (b : Bus) (t : RegisterIndex) (value : UInt32) (o : Outcome) : Prop where
  fault : o.fault = none
  cpu : o.cpu = c.setReg t value
  reg : o.cpu.reg t = value
  bus : o.bus = b

variable {c : Cpu} {b : Bus} {i first second right left : Instruction} {base t : RegisterIndex}
  {a x y value value' : UInt32} {o : Outcome}

theorem effectiveAddress_setReg (h : t ≠ i.rs) :
    (c.setReg t value).effectiveAddress i = c.effectiveAddress i := by
  rw [effectiveAddress, reg_setReg, if_neg fun hr => h hr.1.symm, effectiveAddress]

theorem loadInto_puts {w : Width} (f : UInt32 → UInt32) (ht : t ≠ 0)
    (hl : b.load w a = .ok (x, b)) : c.Puts b t (f x) (c.loadInto b w a t f) where
  fault := by
    rw [loadInto, Outcome.after_fault, hl]
    rfl
  cpu := by
    rw [loadInto, Outcome.after_cpu, hl]
    rfl
  reg := by
    rw [loadInto, Outcome.after_cpu, hl]
    exact reg_setReg_self c t (f x) ht
  bus := by
    rw [loadInto, Outcome.after_bus, hl]
    rfl

theorem executeBoth_of_ok (h : (c.execute b first).fault = none) :
    c.executeBoth b first second =
      Outcome.after (c.execute b first).notes
        ((c.execute b first).cpu.execute (c.execute b first).bus second) := by
  rw [executeBoth, h]

/-- The second of two values that are put into one register stays there. -/
theorem Puts.both (h : c.Puts b t value (c.execute b first))
    (h' : (c.setReg t value).Puts b t value' ((c.setReg t value).execute b second)) :
    c.Puts b t value' (c.executeBoth b first second) := by
  rw [executeBoth_of_ok h.fault, h.cpu, h.bus]
  refine ⟨?_, ?_, ?_, ?_⟩
  · rw [Outcome.after_fault]
    exact h'.fault
  · rw [Outcome.after_cpu, h'.cpu, setReg_setReg]
  · rw [Outcome.after_cpu]
    exact h'.reg
  · rw [Outcome.after_bus]
    exact h'.bus

/-! ## Loads -/

theorem execute_lwr (ho : i.opcode = .lwr) (ht : i.rt ≠ 0)
    (hl : b.load .word (c.effectiveAddress i) = .ok (x, b)) :
    c.Puts b i.rt (loadRight (c.effectiveAddress i) x (c.reg i.rt)) (c.execute b i) := by
  rw [execute, ho]
  exact loadInto_puts (loadRight (c.effectiveAddress i) · (c.reg i.rt)) ht hl

theorem execute_lwl (ho : i.opcode = .lwl) (ht : i.rt ≠ 0)
    (hl : b.load .word (c.effectiveAddress i) = .ok (x, b)) :
    c.Puts b i.rt (loadLeft (c.effectiveAddress i) x (c.reg i.rt)) (c.execute b i) := by
  rw [execute, ho]
  exact loadInto_puts (loadLeft (c.effectiveAddress i) · (c.reg i.rt)) ht hl

/-- A write to a register that is not the base moves neither address. -/
theorem Straddles.setReg {rightOpcode leftOpcode : Opcode}
    (h : c.Straddles rightOpcode leftOpcode right left base t a) (hbase : t ≠ base)
    (value : UInt32) : (c.setReg t value).Straddles rightOpcode leftOpcode right left base t a where
  opcodes := h.opcodes
  bases := h.bases
  registers := h.registers
  addresses := by
    rw [effectiveAddress_setReg (h.bases.1 ▸ hbase), effectiveAddress_setReg (h.bases.2 ▸ hbase)]
    exact h.addresses

section

variable (h : c.Straddles .lwr .lwl right left base t a) (ht : t ≠ 0)
include h ht

theorem Straddles.right_puts (hx : b.load .word a = .ok (x, b)) :
    c.Puts b t (loadRight a x (c.reg t)) (c.execute b right) := by
  obtain ⟨ho, -⟩ := h.opcodes
  obtain ⟨rfl, -⟩ := h.registers
  obtain ⟨rfl, -⟩ := h.addresses
  exact execute_lwr ho ht hx

theorem Straddles.left_puts (hy : b.load .word (a + 3) = .ok (y, b)) :
    c.Puts b t (loadLeft (a + 3) y (c.reg t)) (c.execute b left) := by
  obtain ⟨-, ho⟩ := h.opcodes
  obtain ⟨-, rfl⟩ := h.registers
  obtain ⟨-, haddress⟩ := h.addresses
  rw [← haddress] at hy ⊢
  exact execute_lwl ho ht hy

end

/-! ## The four bytes -/

theorem byteOf_right {k : Nat} (register : UInt32) (hk : k < 4) :
    byteOf (loadRight a x register) k =
      if k + a.toNat % 4 < 4 then Bus.straddled a x y k else byteOf register k := by
  rw [byteOf_loadRight a x register hk]
  split
  · rename_i hin
    exact (if_pos hin).symm
  · rfl

theorem byteOf_left {k : Nat} (register : UInt32) (hxy : a.toNat % 4 = 0 → x = y) (hk : k < 4) :
    byteOf (loadLeft (a + 3) y register) k =
      if 3 ≤ k + (a + 3).toNat % 4 then Bus.straddled a x y k else byteOf register k := by
  have hplace := toNat_add_three_mod a
  rw [byteOf_loadLeft (a + 3) y register hk, Bus.straddled, hplace]
  by_cases hzero : a.toNat % 4 = 0
  · -- One word holds all four bytes.
    have hin : k + 0 < 4 := hk
    rw [hxy hzero, hzero, if_neg (Nat.not_lt_zero k), if_pos (Nat.le_add_left 3 k), if_pos hin]
    rfl
  · by_cases hin : k + a.toNat % 4 < 4
    · rw [if_pos (by omega), if_neg (by omega)]
    · rw [if_neg (by omega), if_pos (by omega), if_neg hin]
      congr 1
      omega

/-- The two instructions, in either order, put the four bytes into the register. -/
theorem Straddles.executeBoth (h : c.Straddles .lwr .lwl right left base t a) (ht : t ≠ 0)
    (hbase : t ≠ base) (hx : b.load .word a = .ok (x, b)) (hy : b.load .word (a + 3) = .ok (y, b)) :
    ∃ word, (∀ k < 4, byteOf word k = Bus.straddled a x y k) ∧
      c.Puts b t word (c.executeBoth b right left) ∧
      c.Puts b t word (c.executeBoth b left right) := by
  have hxy := Bus.load_same hx hy
  have hplace := toNat_add_three_mod a
  -- Each byte comes in with the right part or with the left part.
  have hrightLeft (k : Nat) (hk : k < 4) :
      byteOf (loadLeft (a + 3) y (loadRight a x (c.reg t))) k = Bus.straddled a x y k := by
    rw [byteOf_left _ hxy hk, byteOf_right _ hk, hplace]
    by_cases hin : k + a.toNat % 4 < 4
    · rw [if_pos hin, ite_self]
    · rw [if_pos (by omega)]
  have hleftRight (k : Nat) (hk : k < 4) :
      byteOf (loadRight a x (loadLeft (a + 3) y (c.reg t))) k = Bus.straddled a x y k := by
    rw [byteOf_right _ hk, byteOf_left _ hxy hk, hplace]
    by_cases hin : k + a.toNat % 4 < 4
    · rw [if_pos hin]
    · rw [if_neg hin, if_pos (by omega)]
  have hword : loadRight a x (loadLeft (a + 3) y (c.reg t)) =
      loadLeft (a + 3) y (loadRight a x (c.reg t)) :=
    eq_of_byteOf_eq fun k hk => (hleftRight k hk).trans (hrightLeft k hk).symm
  refine ⟨_, hrightLeft, ?_, ?_⟩
  · refine (h.right_puts ht hx).both ?_
    have hsecond := (h.setReg hbase (loadRight a x (c.reg t))).left_puts ht hy
    rwa [reg_setReg_self _ _ _ ht] at hsecond
  · refine (h.left_puts ht hy).both ?_
    have hsecond := (h.setReg hbase (loadLeft (a + 3) y (c.reg t))).right_puts ht hx
    rwa [reg_setReg_self _ _ _ ht, hword] at hsecond

/-- `lwr` at `a` and `lwl` at `a + 3`, in either order, put the word of the four
bytes from `a` on into the register. Alone, `lwr` replaces the bytes that are in
the word around `a`, `lwl` those in the word around `a + 3`, and both keep the
others. -/
theorem executeBoth_lwr_lwl (h : c.Straddles .lwr .lwl right left base t a) (ht : t ≠ 0)
    (hbase : t ≠ base) (hx : b.Legible a) (hy : b.Legible (a + 3)) :
    ∃ byte : Nat → UInt8,
      (∀ k < 4, b.load .byte (a + UInt32.ofNat k) = .ok ((byte k).toUInt32, b)) ∧
      (∃ word, word.toNat = composed 4 byte ∧ c.Puts b t word (c.executeBoth b right left) ∧
        c.Puts b t word (c.executeBoth b left right)) ∧
      (∃ value, c.Puts b t value (c.execute b right) ∧
        ∀ k < 4, byteOf value k = if k + a.toNat % 4 < 4 then byte k else byteOf (c.reg t) k) ∧
      ∃ value, c.Puts b t value (c.execute b left) ∧
        ∀ k < 4, byteOf value k = if 3 ≤ k + (a + 3).toNat % 4 then byte k else byteOf (c.reg t) k := by
  obtain ⟨x, hx⟩ := hx.load
  obtain ⟨y, hy⟩ := hy.load
  obtain ⟨word, hbytes, hrightLeft, hleftRight⟩ := h.executeBoth ht hbase hx hy
  refine ⟨Bus.straddled a x y, fun k hk => Bus.load_straddled hx hy hk, ?_, ?_, ?_⟩
  · refine ⟨word, ?_, hrightLeft, hleftRight⟩
    rw [← composed_byteOf]
    exact composed_congr hbytes
  · exact ⟨_, h.right_puts ht hx, fun k hk => byteOf_right _ hk⟩
  · exact ⟨_, h.left_puts ht hy, fun k hk => byteOf_left _ (Bus.load_same hx hy) hk⟩

/-- `lwr t1, 0(t0)` and `lwl t1, 3(t0)` where the last bytes of RAM meet the first
bytes of its mirror. Two bytes of the register come from either side. -/
theorem executeBoth_lwr_lwl_mirror :
    let c := (Cpu.reset.setReg 8 0x801FFFFE).setReg 9 0x55667788
    ∃ b, b = ({} : Bus).copyToRam 0x801FFFFE ⟨#[0xAA, 0xBB, 0xCC, 0xDD]⟩ ∧
      c.Straddles .lwr .lwl (.decode 0x99090000) (.decode 0x89090003) 8 9 0x801FFFFE ∧
      (9 : RegisterIndex) ≠ 0 ∧ (9 : RegisterIndex) ≠ 8 ∧
      b.Legible 0x801FFFFE ∧ b.Legible (0x801FFFFE + 3) ∧
      c.Puts b 9 0xDDCCBBAA (c.executeBoth b (.decode 0x99090000) (.decode 0x89090003)) ∧
      c.Puts b 9 0xDDCCBBAA (c.executeBoth b (.decode 0x89090003) (.decode 0x99090000)) ∧
      c.Puts b 9 0x5566BBAA (c.execute b (.decode 0x99090000)) ∧
      c.Puts b 9 0xDDCC7788 (c.execute b (.decode 0x89090003)) := by
  intro c
  have hcell : ∀ k < 4, NamesCell (0x801FFFFE + UInt32.ofNat k) ∧
      Cell.ofAddress (0x801FFFFE + UInt32.ofNat k) = ⟨.ram, (0x1FFFFE + k) % 0x200000⟩ := by
    decide
  have hcopied : ∀ k < 4,
      (({} : Bus).copyToRam 0x801FFFFE ⟨#[0xAA, 0xBB, 0xCC, 0xDD]⟩).byteAt
        (Cell.ofAddress (0x801FFFFE + UInt32.ofNat k)) = byteOf 0xDDCCBBAA k := by
    intro k hk
    rw [(hcell k hk).2, Bus.byteAt, Bus.copyToRam, Memory.get_copy]
    revert k
    decide
  -- From here on the bus is a variable, so that its memory is not computed.
  refine ⟨_, rfl, ?_⟩
  generalize ({} : Bus).copyToRam 0x801FFFFE ⟨#[0xAA, 0xBB, 0xCC, 0xDD]⟩ = b at hcopied ⊢
  have h : c.Straddles .lwr .lwl (.decode 0x99090000) (.decode 0x89090003) 8 9 0x801FFFFE :=
    ⟨by decide, by decide, by decide, by decide⟩
  have hx : b.Legible 0x801FFFFE := NamesCell.legible b (by decide)
  have hy : b.Legible (0x801FFFFE + 3) := NamesCell.legible b (by decide)
  obtain ⟨byte, hbytes, ⟨word, hword, hrightLeft, hleftRight⟩, ⟨right, hright, hrightBytes⟩,
    ⟨left, hleft, hleftBytes⟩⟩ := executeBoth_lwr_lwl h (by decide) (by decide) hx hy
  have hbyte (k : Nat) (hk : k < 4) : byte k = byteOf 0xDDCCBBAA k := by
    have hload := hbytes k hk
    rw [Bus.load_byte_cell b (hcell k hk).1, hcopied k hk] at hload
    obtain ⟨hvalue, -⟩ := Prod.mk.inj (Except.ok.inj hload)
    exact (UInt8.toUInt32_inj.mp hvalue).symm
  have hwordValue : word = 0xDDCCBBAA := by
    apply UInt32.toNat_inj.mp
    rw [hword, composed_congr hbyte, composed_byteOf]
  have hrightValue : right = 0x5566BBAA := by
    apply eq_of_byteOf_eq
    intro k hk
    rw [hrightBytes k hk, hbyte k hk]
    revert k
    decide
  have hleftValue : left = 0xDDCC7788 := by
    apply eq_of_byteOf_eq
    intro k hk
    rw [hleftBytes k hk, hbyte k hk]
    revert k
    decide
  subst hwordValue hrightValue hleftValue
  exact ⟨h, by decide, by decide, hx, hy, hrightLeft, hleftRight, hright, hleft⟩

end Cpu

end R3000
