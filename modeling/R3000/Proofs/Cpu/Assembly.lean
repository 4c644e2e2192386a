import Mathlib.Data.List.Nodup
import Mathlib.Data.List.TakeWhile
import R3000.Proofs.Cpu.Disassembly
import R3000.Proofs.Text

/-!
# What assembly text says

The text of an instruction gives back its operation and its operands: the mnemonic is the
text before the first blank, and the operands are divided by commas. Of the fields of the
word the operands show those that the operation uses, and what is not shown changes nothing
that the instruction does.
-/

namespace R3000

/-! ## Mnemonics -/

namespace Opcode

def all : List Opcode :=
  [sll, srl, sra, sllv, srlv, srav, jr, jalr, syscall, breakpoint, mfhi, mthi, mflo, mtlo, mult,
    multu, div, divu, add, addu, sub, subu, and, or, xor, nor, slt, sltu, bltz, bgez, bltzal,
    bgezal, j, jal, beq, bne, blez, bgtz, addi, addiu, slti, sltiu, andi, ori, xori, lui, mfc0,
    cfc0, mtc0, ctc0, rfe, lb, lh, lwl, lw, lbu, lhu, lwr, sb, sh, swl, sw, swr, illegal] ++
  (List.finRange 4).map cop ++ (List.finRange 4).map lwc ++ (List.finRange 4).map swc

theorem mem_all (op : Opcode) : op ∈ all := by
  cases op with
  | cop n | lwc n | swc n => simp [all]
  | _ => decide

/-- No two operations have one mnemonic. -/
theorem mnemonic_inj {op op' : Opcode} (h : op.mnemonic = op'.mnemonic) : op = op' := by
  have hnodup : (all.map mnemonic).Nodup := by decide +kernel
  exact List.inj_on_of_nodup_map hnodup (mem_all op) (mem_all op') h

/-- A mnemonic is one word, and not the one that stands for no operation. -/
theorem mnemonic_word (op : Opcode) : ' ' ∉ op.mnemonic.toList ∧ op.mnemonic ≠ "nop" := by
  have hall : ∀ op ∈ all, ' ' ∉ op.mnemonic.toList ∧ op.mnemonic ≠ "nop" := by decide +kernel
  exact hall op (mem_all op)

end Opcode

/-! ## Texts of fields -/

theorem RegisterIndex.number_inj {r r' : RegisterIndex} :
    toString r.val = toString r'.val ↔ r = r' := by
  have hsigned (n : Nat) : toString n = toString (n : Int) := rfl
  rw [hsigned, hsigned, Text.toString_inj, Int.ofNat_inj, Fin.val_inj]

theorem RegisterIndex.comma_name (r : RegisterIndex) : ',' ∉ r.name.toList := by
  revert r
  decide

namespace Instruction

open Text

variable {i j : Instruction} {pc : UInt32}

theorem comma_addressText (i : Instruction) : ',' ∉ i.addressText.toList := by
  simp only [addressText, String.toList_append, List.mem_append, not_or]
  exact ⟨⟨⟨comma_toString _, by decide⟩, i.rs.comma_name⟩, by decide⟩

/-- No operand has a comma in it. -/
theorem comma_operands (i : Instruction) (pc : UInt32) :
    ∀ text ∈ i.operands pc, ',' ∉ text.toList := by
  have hnumber (n : Nat) : ',' ∉ (toString n).toList := comma_toString n
  have hsigns : ',' ∉ "0x".toList ∧ ',' ∉ "cop0r".toList ∧ ',' ∉ "$".toList := by decide
  cases ho : i.opcode with
  | jalr =>
    simp only [operands, ho]
    split <;> simp [RegisterIndex.comma_name]
  | _ =>
    simp only [operands, ho, List.forall_mem_cons, RegisterIndex.comma_name, Hex.comma_word,
      hexText, comma_addressText, comma_toString, signedText, String.toList_append,
      List.mem_append, Hex.comma_fixed, hnumber, hsigns, or_self, not_false_eq_true,
      List.not_mem_nil, false_implies, implies_true, and_true]

theorem signedText_inj : i.signedText = j.signedText ↔ i.imm = j.imm := by
  refine ⟨fun h => ?_, fun h => by rw [signedText, signedText, signedImm, signedImm, h]⟩
  rw [signedText, signedText, toString_inj] at h
  have hsigned : i.signedImm = j.signedImm := Int16.toInt_inj.mp h
  exact congrArg Int16.toUInt16 hsigned

theorem hexText_inj : i.hexText = j.hexText ↔ i.imm = j.imm := by
  rw [hexText, hexText, String.append_right_inj, Hex.fixed_inj i.imm.toNat_lt j.imm.toNat_lt,
    UInt16.toNat_inj]

/-- The offset of an address is what stands before its parenthesis. -/
theorem addressText_inj : i.addressText = j.addressText ↔ i.imm = j.imm ∧ i.rs = j.rs := by
  refine ⟨fun h => ?_, fun ⟨himm, hrs⟩ => ?_⟩
  · have hparenthesis (i : Instruction) : '(' ∉ i.signedText.toList := fun h => by
      simpa using mem_toString h
    rw [addressText, addressText, String.append_left_inj] at h
    obtain ⟨hoffset, hbase⟩ := divided_inj (by rfl) (hparenthesis i) (hparenthesis j) h
    exact ⟨signedText_inj.mp hoffset, RegisterIndex.name_inj.mp hbase⟩
  · rw [addressText, addressText, signedText_inj.mpr himm, hrs]

theorem branchAddress_inj :
    i.branchAddress pc = j.branchAddress pc ↔ i.branchOffset = j.branchOffset :=
  UInt32.add_right_inj _

/-- The segment of a jump takes the bits that its target leaves. -/
theorem jumpAddress_inj :
    i.jumpAddress pc = j.jumpAddress pc ↔
      i.target <<< (2 : UInt32) = j.target <<< (2 : UInt32) := by
  have htarget (i : Instruction) :
      i.jumpAddress pc &&& 0x0FFFFFFC = i.target <<< (2 : UInt32) := by
    have hsegment : (0xF0000000 : UInt32) &&& 0x0FFFFFFC = 0 := rfl
    have hmask : (0x03FFFFFF : UInt32) <<< 2 = 0x0FFFFFFC := rfl
    rw [jumpAddress, target, UInt32.shiftLeft_and, hmask, word_or_and, UInt32.and_assoc, hsegment,
      UInt32.and_zero, UInt32.zero_or, UInt32.and_assoc, UInt32.and_self]
  exact ⟨fun h => by rw [← htarget i, ← htarget j, h],
    fun h => by rw [jumpAddress, jumpAddress, h]⟩

/-! ## The text as a whole -/

/-- The text before the first blank is the mnemonic, unless the word is zero. -/
theorem takeWhile_assembly (i : Instruction) (pc : UInt32) :
    (i.assembly pc).toList.takeWhile (· != ' ') =
      if i.word = 0 then "nop".toList else i.opcode.mnemonic.toList := by
  have hblank := i.opcode.mnemonic_word.1
  split
  · rename_i hzero
    rw [assembly, if_pos (by simpa using hzero)]
    decide
  · rename_i hword
    rw [assembly_of_ne_zero hword]
    split
    · rw [List.takeWhile_eq_self_iff]
      exact fun ch hch => bne_iff_ne.mpr fun heq => hblank (heq ▸ hch)
    · simp only [String.toList_append, List.append_assoc]
      exact takeWhile_divided hblank _

/-- Instructions with one text are the same operation on the same operands, or both the
word zero. -/
theorem assembly_inj (h : i.assembly pc = j.assembly pc) :
    i.word = 0 ∧ j.word = 0 ∨ i.opcode = j.opcode ∧ i.operands pc = j.operands pc := by
  have hfirst : _ = _ := congrArg (·.toList.takeWhile (· != ' ')) h
  simp only [takeWhile_assembly] at hfirst
  by_cases hi : i.word = 0
  · by_cases hj : j.word = 0
    · exact .inl ⟨hi, hj⟩
    · rw [if_pos hi, if_neg hj] at hfirst
      exact absurd (String.toList_injective hfirst.symm) j.opcode.mnemonic_word.2
  · by_cases hj : j.word = 0
    · rw [if_neg hi, if_pos hj] at hfirst
      exact absurd (String.toList_injective hfirst) i.opcode.mnemonic_word.2
    · rw [if_neg hi, if_neg hj] at hfirst
      have hop : i.opcode = j.opcode := Opcode.mnemonic_inj (String.toList_injective hfirst)
      refine .inr ⟨hop, ?_⟩
      -- Operands put a blank behind the mnemonic, which has none itself.
      have hblank (others : String) :
          j.opcode.mnemonic ≠ j.opcode.mnemonic ++ " " ++ others := fun heq => by
        have hmem : ' ' ∈ (j.opcode.mnemonic ++ " " ++ others).toList := by simp
        exact j.opcode.mnemonic_word.1 (heq ▸ hmem)
      rw [assembly_of_ne_zero hi, assembly_of_ne_zero hj, hop] at h
      by_cases hni : i.operands pc = []
      · by_cases hnj : j.operands pc = []
        · exact hni.trans hnj.symm
        · rw [if_pos hni, if_neg hnj] at h
          exact absurd h (hblank _)
      · by_cases hnj : j.operands pc = []
        · rw [if_neg hni, if_pos hnj] at h
          exact absurd h.symm (hblank _)
        · rw [if_neg hni, if_neg hnj, String.append_right_inj] at h
          exact intercalate_inj (by rfl) (i.comma_operands pc) (j.comma_operands pc) hni hnj h

end Instruction

/-! ## The effect -/

namespace Cpu

open Instruction

/-- Instructions with the same operation and the same operands do the same. Only their notes
may differ, where a word that has no meaning is named. -/
theorem execute_of_operands {i j : Instruction} {pc : UInt32} (hop : i.opcode = j.opcode)
    (h : i.operands pc = j.operands pc) (c : Cpu) (b : Bus) :
    (c.execute b i).cpu = (c.execute b j).cpu ∧ (c.execute b i).bus = (c.execute b j).bus ∧
      (c.execute b i).fault = (c.execute b j).fault := by
  have hj (op : Opcode) (hi : i.opcode = op) : j.opcode = op := hop.symm.trans hi
  cases hi : i.opcode with
  | sll | srl | sra =>
    simp only [operands, hi, hj _ hi, List.cons.injEq, RegisterIndex.name_inj,
      RegisterIndex.number_inj, and_true] at h
    obtain ⟨hrd, hrt, hshamt⟩ := h
    simp only [execute, hi, hj _ hi, hrd, hrt, hshamt, and_self]
  | sllv | srlv | srav | add | addu | sub | subu | and | or | xor | nor | slt | sltu =>
    simp only [operands, hi, hj _ hi, List.cons.injEq, RegisterIndex.name_inj, and_true] at h
    obtain ⟨hrd, hfirst, hsecond⟩ := h
    simp only [execute, hi, hj _ hi, hrd, hfirst, hsecond, and_self]
  | jr | mthi | mtlo =>
    simp only [operands, hi, hj _ hi, List.cons.injEq, RegisterIndex.name_inj, and_true] at h
    simp only [execute, hi, hj _ hi, h, and_self]
  | jalr =>
    -- The link goes to register 31 where one register is shown.
    have hregisters : i.rd = j.rd ∧ i.rs = j.rs := by
      simp only [operands, hi, hj _ hi] at h
      split at h <;> split at h <;> simp_all [RegisterIndex.name_inj]
    obtain ⟨hrd, hrs⟩ := hregisters
    simp only [execute, hi, hj _ hi, hrd, hrs, and_self]
  | syscall | breakpoint | rfe => simp only [execute, hi, hj _ hi, and_self]
  | mfhi | mflo =>
    simp only [operands, hi, hj _ hi, List.cons.injEq, RegisterIndex.name_inj, and_true] at h
    simp only [execute, hi, hj _ hi, h, and_self]
  | mult | multu | div | divu =>
    simp only [operands, hi, hj _ hi, List.cons.injEq, RegisterIndex.name_inj, and_true] at h
    obtain ⟨hrs, hrt⟩ := h
    simp only [execute, hi, hj _ hi, hrs, hrt, and_self]
  | bltz | bgez | bltzal | bgezal | blez | bgtz =>
    simp only [operands, hi, hj _ hi, List.cons.injEq, RegisterIndex.name_inj, Hex.word_inj,
      branchAddress_inj, and_true] at h
    obtain ⟨hrs, hoffset⟩ := h
    simp only [execute, hi, hj _ hi, branchLinkIf, branchIf, branchTarget, hrs, hoffset, and_self]
  | beq | bne =>
    simp only [operands, hi, hj _ hi, List.cons.injEq, RegisterIndex.name_inj, Hex.word_inj,
      branchAddress_inj, and_true] at h
    obtain ⟨hrs, hrt, hoffset⟩ := h
    simp only [execute, hi, hj _ hi, branchIf, branchTarget, hrs, hrt, hoffset, and_self]
  | j | jal =>
    simp only [operands, hi, hj _ hi, List.cons.injEq, Hex.word_inj, jumpAddress_inj,
      and_true] at h
    simp only [execute, hi, hj _ hi, jumpTarget, h, and_self]
  | addi | addiu | slti | sltiu =>
    simp only [operands, hi, hj _ hi, List.cons.injEq, RegisterIndex.name_inj, signedText_inj,
      and_true] at h
    obtain ⟨hrt, hrs, himm⟩ := h
    have hsigned : i.immSigned = j.immSigned := by
      rw [immSigned, immSigned, signedImm, signedImm, himm]
    simp only [execute, hi, hj _ hi, hrt]
    rw [hrs, hsigned]
    exact ⟨rfl, rfl, rfl⟩
  | andi | ori | xori =>
    simp only [operands, hi, hj _ hi, List.cons.injEq, RegisterIndex.name_inj, hexText_inj,
      and_true] at h
    obtain ⟨hrt, hrs, himm⟩ := h
    simp only [execute, hi, hj _ hi, immZero, hrt, hrs, himm, and_self]
  | lui =>
    simp only [operands, hi, hj _ hi, List.cons.injEq, RegisterIndex.name_inj, hexText_inj,
      and_true] at h
    obtain ⟨hrt, himm⟩ := h
    simp only [execute, hi, hj _ hi, immZero, hrt, himm, and_self]
  | mfc0 | cfc0 | mtc0 | ctc0 =>
    simp only [operands, hi, hj _ hi, List.cons.injEq, RegisterIndex.name_inj,
      String.append_right_inj, RegisterIndex.number_inj, and_true] at h
    obtain ⟨hrt, hrd⟩ := h
    simp only [execute, hi, hj _ hi, hrt, hrd, and_self]
  | lb | lh | lwl | lw | lbu | lhu | lwr | sb | sh | swl | sw | swr =>
    simp only [operands, hi, hj _ hi, List.cons.injEq, RegisterIndex.name_inj, addressText_inj,
      and_true] at h
    obtain ⟨hrt, himm, hrs⟩ := h
    simp only [execute, hi, hj _ hi, effectiveAddress, immSigned, signedImm, hrt, himm, hrs,
      and_self]
  | cop | lwc | swc | illegal =>
    -- The error names the word that was fetched, not the one that was decoded.
    simp only [execute, hi, hj _ hi, reject, and_self]

/-- Words that are shown by one text at an address have one effect: carried out in the same
state they leave the same processor and bus, and fail with the same error or not at all. -/
theorem same_text_same_effect {word word' pc : UInt32}
    (h : disassemble word pc = disassemble word' pc) (c : Cpu) (b : Bus) :
    (c.execute b (.decode word)).cpu = (c.execute b (.decode word')).cpu ∧
      (c.execute b (.decode word)).bus = (c.execute b (.decode word')).bus ∧
      (c.execute b (.decode word)).fault = (c.execute b (.decode word')).fault := by
  rcases assembly_inj h with ⟨hword, hword'⟩ | ⟨hop, hoperands⟩
  · have hsame : word = word' := hword.trans hword'.symm
    subst hsame
    exact ⟨rfl, rfl, rfl⟩
  · exact execute_of_operands hop hoperands c b

/-- An addition does not use the five bits of a shift amount, and of an operation of the
second coprocessor the text leaves out one bit of the word. -/
theorem same_text_same_effect_unused_bits :
    (disassemble 0x00430821 0xBFC00000 = disassemble 0x00430FE1 0xBFC00000 ∧
      (Cpu.reset.execute {} (.decode 0x00430821)).cpu =
        (Cpu.reset.execute {} (.decode 0x00430FE1)).cpu) ∧
    disassemble 0x48000001 0xBFC00000 = disassemble 0x4A000001 0xBFC00000 ∧
      (Cpu.reset.execute {} (.decode 0x48000001)).fault =
        (Cpu.reset.execute {} (.decode 0x4A000001)).fault := by
  have hsum : disassemble 0x00430821 0xBFC00000 = disassemble 0x00430FE1 0xBFC00000 := by decide
  have hcop : disassemble 0x48000001 0xBFC00000 = disassemble 0x4A000001 0xBFC00000 := by decide
  exact ⟨⟨hsum, (same_text_same_effect hsum Cpu.reset {}).1⟩, hcop,
    (same_text_same_effect hcop Cpu.reset {}).2.2⟩

end Cpu

end R3000
