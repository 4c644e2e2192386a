import R3000.Cpu.Disassembly
import R3000.Proofs.Bus.Bytes
import R3000.Proofs.Cpu.Sequencing

/-!
# Shown targets

The text of a branch or a jump ends with the address that it goes to. The text
knows only where the instruction is, while the processor finds the target from
the pair of addresses after it has advanced. Both come to the same target
wherever the second address of the pair is the one behind the first.
-/

namespace R3000

/-- Instructions that go to a target in their word, always or under a condition. -/
def Opcode.targeted : List Opcode :=
  [beq, bne, blez, bgtz, bltz, bgez, bltzal, bgezal, j, jal]

/-! ## Hexadecimal words -/

namespace Hex

theorem digit_inj {n m : Nat} (h : digit n = digit m) : n % 16 = m % 16 := by
  have hsmall : ∀ x < 16, ∀ y < 16, digit x = digit y → x = y := by decide
  apply hsmall _ (Nat.mod_lt _ (by decide)) _ (Nat.mod_lt _ (by decide))
  simpa only [digit, Nat.mod_mod] using h

/-- Digits are shown by one number of their size only. -/
theorem digits_inj {count n m : Nat} (h : digits count n = digits count m) :
    n % 16 ^ count = m % 16 ^ count := by
  induction count generalizing n m with
  | zero => rw [Nat.pow_zero, Nat.mod_one, Nat.mod_one]
  | succ count ih =>
    -- Both lists end with one digit, so they agree in it and in what is before it.
    obtain ⟨hhigh, hlow⟩ := List.append_inj' h rfl
    have hrest : n / 16 % 16 ^ count = m / 16 % 16 ^ count := ih hhigh
    have hlast : n % 16 = m % 16 := digit_inj (List.singleton_inj.mp hlow)
    rw [Nat.pow_succ', Nat.mod_mul, Nat.mod_mul, hrest, hlast]

theorem length_word (w : UInt32) : (word w).toList.length = 10 := by
  simp [word, fixed, length_digits]

/-- Numbers that have no more than `count` digits are told apart by them. -/
theorem fixed_inj {count n m : Nat} (hn : n < 16 ^ count) (hm : m < 16 ^ count) :
    fixed count n = fixed count m ↔ n = m := by
  refine ⟨fun h => ?_, congrArg (fixed count)⟩
  have hdigits : n % 16 ^ count = m % 16 ^ count := digits_inj (String.ofList_injective h)
  rwa [Nat.mod_eq_of_lt hn, Nat.mod_eq_of_lt hm] at hdigits

theorem word_inj {v w : UInt32} : word v = word w ↔ v = w := by
  rw [word, word, String.append_right_inj, fixed_inj v.toNat_lt w.toNat_lt, UInt32.toNat_inj]

end Hex

/-! ## The text -/

/-- The last operand in `text` is the word `a`. -/
def EndsWithWord (text : String) (a : UInt32) : Prop :=
  ∃ before, text = before ++ " " ++ Hex.word a

theorem EndsWithWord.unique {text : String} {a a' : UInt32} (h : EndsWithWord text a)
    (h' : EndsWithWord text a') : a = a' := by
  obtain ⟨before, rfl⟩ := h
  obtain ⟨before', h'⟩ := h'
  have hchars := congrArg String.toList h'
  simp only [String.toList_append] at hchars
  have hlength : (Hex.word a).toList.length = (Hex.word a').toList.length := by
    rw [Hex.length_word, Hex.length_word]
  exact Hex.word_inj.mp (String.toList_injective (List.append_inj' hchars hlength).2)

namespace Instruction

/-- The target that the text of a branch or a jump at `pc` shows. -/
def shownTarget (i : Instruction) (pc : UInt32) : UInt32 :=
  match i.opcode with
  | .j | .jal => i.jumpAddress pc
  | _ => i.branchAddress pc

/-- The registers that a branch compares. -/
def compared (i : Instruction) : List RegisterIndex :=
  match i.opcode with
  | .beq | .bne => [i.rs, i.rt]
  | .bltz | .bgez | .bltzal | .bgezal | .blez | .bgtz => [i.rs]
  | _ => []

variable {i : Instruction}

theorem operands_of_target (h : i.opcode ∈ Opcode.targeted) (pc : UInt32) :
    i.operands pc = i.compared.map RegisterIndex.name ++ [Hex.word (i.shownTarget pc)] := by
  cases ho : i.opcode with
  | beq | bne | blez | bgtz | bltz | bgez | bltzal | bgezal | j | jal =>
    simp only [operands, compared, shownTarget, ho]
    rfl
  | _ => simp [ho, Opcode.targeted] at h

theorem assembly_of_ne_zero (h : i.word ≠ 0) (pc : UInt32) :
    i.assembly pc =
      if i.operands pc = [] then i.opcode.mnemonic
      else i.opcode.mnemonic ++ " " ++ ", ".intercalate (i.operands pc) := by
  rw [assembly, if_neg (by simpa using h)]
  cases i.operands pc <;> rfl

/-- Text whose last operand is a word ends with that word. -/
theorem assembly_endsWithWord {pc a : UInt32} {names : List String} (hw : i.word ≠ 0)
    (ho : i.operands pc = names ++ [Hex.word a]) : EndsWithWord (i.assembly pc) a := by
  have hcomma : (", " : String) = "," ++ " " := by decide
  have hne : i.operands pc ≠ [] := by
    rw [ho]
    exact List.append_ne_nil_of_right_ne_nil _ (List.cons_ne_nil _ _)
  rw [assembly_of_ne_zero hw, if_neg hne, ho]
  -- A jump shows its target alone. A branch shows registers first, with a comma behind each.
  by_cases hn : names = []
  · subst hn
    exact ⟨i.opcode.mnemonic, by rw [List.nil_append, String.intercalate_singleton]⟩
  · refine ⟨i.opcode.mnemonic ++ " " ++ ", ".intercalate names ++ ",", ?_⟩
    rw [String.intercalate_append_of_ne_nil hn (List.cons_ne_nil _ _),
      String.intercalate_singleton]
    simp only [hcomma, String.append_assoc]

end Instruction

/-- The text of a branch or a jump ends with its target. -/
theorem disassemble_endsWithWord {word : UInt32} (pc : UInt32)
    (h : (Instruction.decode word).opcode ∈ Opcode.targeted) :
    EndsWithWord (disassemble word pc) ((Instruction.decode word).shownTarget pc) := by
  refine Instruction.assembly_endsWithWord ?_ (Instruction.operands_of_target h pc)
  -- The word that is shown as `nop` is a shift.
  rintro (rfl : word = 0)
  exact absurd h (by decide)

/-! ## The step -/

namespace Cpu

variable {c : Cpu} {i : Instruction}

/-- A branch or a jump whose delay slot is behind it goes on or goes to the target shown. -/
theorem flow_of_target (hn : c.nextPc = c.pc + 4) (h : i.opcode ∈ Opcode.targeted) :
    c.flow i = .next ∨ c.flow i = .jump (i.shownTarget c.pc) := by
  -- The processor counts from the address of the delay slot, the text from that of the branch.
  have hbranch (taken : Prop) [Decidable taken] :
      c.branchFlow i taken = .next ∨ c.branchFlow i taken = .jump (i.branchAddress c.pc) := by
    rw [branchFlow, hn]
    split
    · exact .inr rfl
    · exact .inl rfl
  cases ho : i.opcode with
  | beq | bne | blez | bgtz | bltz | bgez | bltzal | bgezal =>
    simp only [flow, Instruction.shownTarget, ho]
    exact hbranch _
  | j | jal =>
    simp only [flow, Instruction.shownTarget, ho, hn]
    exact .inr rfl
  | _ => simp [ho, Opcode.targeted] at h

/-- A branch or a jump to a target in the instruction cannot fail. -/
theorem fault_execute_of_target (b : Bus) (h : i.opcode ∈ Opcode.targeted) :
    (c.execute b i).fault = none := by
  cases ho : i.opcode with
  | beq | bne | blez | bgtz | bltz | bgez | bltzal | bgezal | j | jal =>
    simp only [execute, ho]
    rfl
  | _ => simp [ho, Opcode.targeted] at h

/-- The text of a branch or a jump shows one target, and a step that carries it out
at the same address leaves that target behind the delay slot if it transfers control,
wherever the instruction and its target lie. -/
theorem shown_target {b b' : Bus} {word : UInt32} (hn : c.nextPc = c.pc + 4)
    (hl : b.load .word c.pc = .ok (word, b'))
    (h : (Instruction.decode word).opcode ∈ Opcode.targeted) :
    ∃ shown, (∀ a, EndsWithWord (disassemble word c.pc) a ↔ a = shown) ∧
      (c.step b).fault = none ∧ (c.step b).cpu.pc = c.pc + 4 ∧
      (c.step b).cpu.nextPc =
        if c.flow (.decode word) = .next then c.pc + 8 else shown := by
  have hshown := disassemble_endsWithWord c.pc h
  have hfault := fault_execute_of_target (c := c.fetched word) b' h
  have hpair : (c.step b).cpu.pair = (c.flow (.decode word)).advance c.pair := by
    rw [step_of_load hl, Outcome.after_cpu]
    exact pair_execute c word b' _ hfault
  refine ⟨_, fun a => ⟨fun ha => ha.unique hshown, fun ha => ha ▸ hshown⟩, ?_, ?_, ?_⟩
  · rw [step_of_load hl, Outcome.after_fault, hfault]
    rfl
  · have hpc : (c.step b).cpu.pc = _ := congrArg Prod.fst hpair
    rcases flow_of_target hn h with hf | hf <;> rw [hpc, hf] <;> exact hn
  · have hnext : (c.step b).cpu.nextPc = _ := congrArg Prod.snd hpair
    rcases flow_of_target hn h with hf | hf
    · rw [hnext, hf, if_pos rfl]
      change c.nextPc + 4 = _
      rw [hn, UInt32.add_assoc]
      rfl
    · rw [hnext, hf, if_neg nofun]
      rfl

/-- A jump in the last word of a segment of 256 megabytes goes to the next segment, and
is shown so. -/
theorem shown_target_segment_end :
    ∃ (b : Bus) (c : Cpu), c.pc = 0x8FFFFFFC ∧ c.nextPc = c.pc + 4 ∧
      b.load .word c.pc = .ok (0x08000000, b) ∧
      EndsWithWord (disassemble 0x08000000 c.pc) 0x90000000 ∧
      (c.step b).cpu.nextPc = 0x90000000 := by
  obtain ⟨b, -, hl⟩ := ({} : Bus).load_stored_word
    (a := 0x8FFFFFFC) (by decide) rfl (by decide) 0x08000000
  obtain ⟨shown, hshown, -, -, hnext⟩ :=
    shown_target (c := Cpu.reset.setPc 0x8FFFFFFC) (by decide) hl (by decide)
  have htext : EndsWithWord (disassemble 0x08000000 0x8FFFFFFC) 0x90000000 := ⟨"j", by decide⟩
  refine ⟨b, Cpu.reset.setPc 0x8FFFFFFC, rfl, by decide, hl, htext, ?_⟩
  exact hnext.trans ((hshown _).mp htext).symm

end Cpu

end R3000
