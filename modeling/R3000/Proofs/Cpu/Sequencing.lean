import R3000.Proofs.Cpu.Arithmetic
import R3000.Proofs.Cpu.Execution

/-!
# Sequencing and delay slots

`Cpu.flow` says where an instruction sends control, from the state before it.
Every instruction that succeeds advances the pair of addresses accordingly, so
in a run the instruction behind a branch that is taken comes exactly once
before the branch's target, unless it sends control elsewhere itself.
-/

namespace R3000

open Arithmetic

/-- Where an instruction sends control. -/
inductive Flow where
  | next
  /-- To `target`, after the delay slot. -/
  | jump (target : UInt32)
  /-- To the trap handler at once. -/
  | trap (vector : UInt32)
deriving DecidableEq, Repr

/-- What becomes of the addresses of the next two instructions. -/
def Flow.advance (pair : UInt32 × UInt32) : Flow → UInt32 × UInt32
  | next => (pair.2, pair.2 + 4)
  | jump target => (pair.2, target)
  | trap vector => (vector, vector + 4)

/-- The register that keeps the way back. -/
def Instruction.link? (i : Instruction) : Option RegisterIndex :=
  match i.opcode with
  | .jal | .bltzal | .bgezal => some 31
  | .jalr => some i.rd
  | _ => none

namespace Cpu

/-- The addresses of the next two instructions. -/
def pair (c : Cpu) : UInt32 × UInt32 :=
  (c.pc, c.nextPc)

/-- A branch of the instruction `i`, relative to its delay slot. -/
def branchFlow (c : Cpu) (i : Instruction) (taken : Prop) [Decidable taken] : Flow :=
  if taken then .jump (c.nextPc + (i.immSigned <<< (2 : UInt32))) else .next

/-- A result that traps when it does not fit. -/
def checkedFlow (c : Cpu) (result : Int) : Flow :=
  if FitsSigned result then .next else .trap (trapVector c.cop0.status)

/-- Where the instruction `i` sends control when it is fetched in the state `c`. -/
def flow (c : Cpu) (i : Instruction) : Flow :=
  let s := signed (c.reg i.rs)
  let t := signed (c.reg i.rt)
  match i.opcode with
  | .beq => c.branchFlow i (c.reg i.rs = c.reg i.rt)
  | .bne => c.branchFlow i (c.reg i.rs ≠ c.reg i.rt)
  | .blez => c.branchFlow i (s ≤ 0)
  | .bgtz => c.branchFlow i (0 < s)
  | .bltz | .bltzal => c.branchFlow i (s < 0)
  | .bgez | .bgezal => c.branchFlow i (0 ≤ s)
  | .j | .jal => .jump ((c.nextPc &&& 0xF0000000) ||| (i.target <<< (2 : UInt32)))
  | .jr | .jalr => .jump (c.reg i.rs)
  | .syscall | .breakpoint => .trap (trapVector c.cop0.status)
  | .add => c.checkedFlow (s + t)
  | .addi => c.checkedFlow (s + signed i.immSigned)
  | .sub => c.checkedFlow (s - t)
  | _ => .next

/-! ## One instruction -/

theorem pair_setReg (c : Cpu) (r : RegisterIndex) (value : UInt32) :
    (c.setReg r value).pair = c.pair := by
  rw [pair, setReg_pc, setReg_nextPc, pair]

theorem pair_loadInto (c : Cpu) (b : Bus) (w : Width) (a : UInt32) (r : RegisterIndex)
    (f : UInt32 → UInt32) : (c.loadInto b w a r f).cpu.pair = c.pair := by
  rw [loadInto, Outcome.after_cpu]
  split
  · rfl
  · exact pair_setReg ..

theorem storeFrom_cpu (c : Cpu) (b : Bus) (w : Width) (a value : UInt32) :
    (c.storeFrom b w a value).cpu = c := by
  rw [storeFrom, Outcome.after_cpu]
  split <;> rfl

theorem update_cpu (c : Cpu) (b : Bus) (a : UInt32) (f : UInt32 → UInt32) :
    (c.update b a f).cpu = c := by
  rw [update, Outcome.after_cpu]
  split
  · rfl
  · exact storeFrom_cpu ..

theorem pair_moveToSystem (c : Cpu) (b : Bus) (r : RegisterIndex) (value : UInt32) :
    (c.moveToSystem b r value).cpu.pair = c.pair := by
  rw [moveToSystem]
  split <;> rfl

/-- Arithmetic whose result fits writes it. -/
theorem checked_of_fits {c : Cpu} {b : Bus} {r : RegisterIndex} {overflows : Bool}
    {value : UInt32} {result : Int} (h : overflows = true ↔ ¬ FitsSigned result)
    (hf : FitsSigned result) : c.checked b r overflows value = (c.setReg r value).done b :=
  if_neg fun ho => h.mp ho hf

/-- Arithmetic whose result does not fit traps. -/
theorem checked_of_not_fits {c : Cpu} {b : Bus} {r : RegisterIndex} {overflows : Bool}
    {value : UInt32} {result : Int} (h : overflows = true ↔ ¬ FitsSigned result)
    (hf : ¬ FitsSigned result) : c.checked b r overflows value = c.trap b .overflow :=
  if_pos (h.mpr hf)

section

variable (c : Cpu) (word : UInt32) (b : Bus) (i : Instruction)

theorem pair_branchIf (taken : Bool) {p : Prop} [Decidable p] (h : taken = true ↔ p) :
    ((c.fetched word).branchIf i taken).pair = (c.branchFlow i p).advance c.pair := by
  unfold branchFlow
  by_cases hp : p
  · rw [if_pos hp, h.mpr hp]
    rfl
  · rw [if_neg hp, Bool.eq_false_iff.mpr fun ht => hp (h.mp ht)]
    rfl

theorem pair_branchLinkIf (taken : Bool) {p : Prop} [Decidable p] (h : taken = true ↔ p) :
    ((c.fetched word).branchLinkIf i taken).pair = (c.branchFlow i p).advance c.pair := by
  have hpc : ((c.fetched word).link 31).pc = c.nextPc := setReg_pc ..
  have hnext : ((c.fetched word).link 31).nextPc = c.nextPc + 4 := setReg_nextPc ..
  unfold branchFlow branchLinkIf
  by_cases hp : p
  · rw [if_pos hp, h.mpr hp, branchIf, if_pos rfl, branchTarget, hpc]
    exact congrArg (·, _) hpc
  · rw [if_neg hp, Bool.eq_false_iff.mpr fun ht => hp (h.mp ht), branchIf, if_neg Bool.false_ne_true]
    exact Prod.ext hpc hnext

theorem pair_checked (r : RegisterIndex) (overflows : Bool) (value : UInt32) {result : Int}
    (h : overflows = true ↔ ¬ FitsSigned result) :
    ((c.fetched word).checked b r overflows value).cpu.pair =
      (c.checkedFlow result).advance c.pair := by
  unfold checkedFlow
  by_cases hf : FitsSigned result
  · rw [if_pos hf, checked_of_fits h hf]
    exact pair_setReg ..
  · rw [if_neg hf, checked_of_not_fits h hf]
    rfl

/-- An aligned jump to a register, or a refusal. -/
theorem jumpRegister_cpu {target : UInt32} {linked : Cpu}
    (hok : ((c.fetched word).jumpRegister b target linked).fault = none) :
    ((c.fetched word).jumpRegister b target linked).cpu = linked.jump target := by
  unfold jumpRegister at *
  split at hok
  · nomatch hok
  · rename_i h
    rw [if_neg h]
    rfl

end

theorem pair_execute (c : Cpu) (word : UInt32) (b : Bus) (i : Instruction)
    (hok : ((c.fetched word).execute b i).fault = none) :
    ((c.fetched word).execute b i).cpu.pair = (c.flow i).advance c.pair := by
  unfold execute flow
  cases ho : i.opcode with
  | sll | srl | sra | sllv | srlv | srav | mfhi | mflo | addu | subu | and | or | xor | nor | slt
  | sltu | addiu | slti | sltiu | andi | ori | xori | lui | mfc0 | cfc0 => exact pair_setReg ..
  | mult | multu | div | divu | mthi | mtlo | rfe | cop | lwc | swc | illegal => rfl
  | lb | lh | lwl | lw | lbu | lhu | lwr => exact pair_loadInto ..
  | sb | sh | sw => exact congrArg pair (storeFrom_cpu ..)
  | swl | swr => exact congrArg pair (update_cpu ..)
  | mtc0 | ctc0 => exact pair_moveToSystem ..
  | syscall | breakpoint => rfl
  | add => exact pair_checked _ _ _ _ _ _ (addOverflows_iff _ _)
  | addi => exact pair_checked _ _ _ _ _ _ (addOverflows_iff _ _)
  | sub => exact pair_checked _ _ _ _ _ _ (subOverflows_iff _ _)
  | beq => exact pair_branchIf _ _ _ _ beq_iff_eq
  | bne => exact pair_branchIf _ _ _ _ bne_iff_ne
  | bltz => exact pair_branchIf _ _ _ _ (isNegative_iff _)
  | bgez => exact pair_branchIf _ _ _ _ (not_isNegative_iff _)
  -- The condition is read before the link is written, also where the link is what it reads.
  | bltzal => exact pair_branchLinkIf _ _ _ _ (isNegative_iff _)
  | bgezal => exact pair_branchLinkIf _ _ _ _ (not_isNegative_iff _)
  | blez => exact pair_branchIf _ _ _ _ (isNotPositive_iff _)
  | bgtz => exact pair_branchIf _ _ _ _ (isPositive_iff _)
  | j => rfl
  | jal => exact congrArg (·, _) (setReg_pc ..)
  -- A misaligned target is refused, so success says that the jump was made.
  | jr =>
    simp only [execute, ho] at hok
    exact congrArg pair (jumpRegister_cpu _ _ _ hok)
  | jalr =>
    simp only [execute, ho] at hok
    refine (congrArg pair (jumpRegister_cpu _ _ _ hok)).trans ?_
    exact congrArg (·, _) (setReg_pc ..)

/-- The way back is the address behind the delay slot, whether or not a branch is taken. -/
theorem reg_execute_link (c : Cpu) (word : UInt32) (b : Bus) {i : Instruction}
    {r : RegisterIndex} (hl : i.link? = some r)
    (hok : ((c.fetched word).execute b i).fault = none) (q : RegisterIndex) :
    ((c.fetched word).execute b i).cpu.reg q =
      if q = r ∧ r ≠ 0 then c.nextPc + 4 else c.reg q := by
  have hlink (r : RegisterIndex) : ((c.fetched word).link r).reg q =
      if q = r ∧ r ≠ 0 then c.nextPc + 4 else c.reg q :=
    reg_setReg (c.fetched word) r q _
  have hbranch (taken : Bool) : ((c.fetched word).branchLinkIf i taken).reg q =
      if q = 31 ∧ (31 : RegisterIndex) ≠ 0 then c.nextPc + 4 else c.reg q := by
    cases taken <;> exact hlink 31
  cases ho : i.opcode with
  | jal =>
    simp only [Instruction.link?, ho, Option.some.injEq] at hl
    subst hl
    simp only [execute, ho]
    exact hlink 31
  | jalr =>
    simp only [Instruction.link?, ho, Option.some.injEq] at hl
    subst hl
    simp only [execute, ho] at hok ⊢
    rw [jumpRegister_cpu _ _ _ hok]
    exact hlink i.rd
  | bltzal | bgezal =>
    simp only [Instruction.link?, ho, Option.some.injEq] at hl
    subst hl
    simp only [execute, ho]
    exact hbranch _
  | _ => simp only [Instruction.link?, ho, reduceCtorEq] at hl

/-! ## Runs -/

/-- The instruction that the next step carries out, if there is one at its address. -/
def fetch? (c : Cpu) (b : Bus) : Option Instruction :=
  match b.load .word c.pc with
  | .error _ => none
  | .ok (word, _) => some (.decode word)

theorem load_of_fetch {c : Cpu} {b : Bus} {i : Instruction} (hf : c.fetch? b = some i) :
    ∃ word b₁, b.load .word c.pc = .ok (word, b₁) ∧ i = .decode word := by
  rw [fetch?] at hf
  split at hf
  · nomatch hf
  · rename_i word b₁ hl
    exact ⟨word, b₁, hl, (Option.some.inj hf).symm⟩

theorem step_of_fetch {c : Cpu} {b : Bus} {i : Instruction} (hf : c.fetch? b = some i) :
    ∃ word b', i = .decode word ∧ (c.step b).cpu = ((c.fetched word).execute b' i).cpu ∧
      ((c.step b).fault = none → ((c.fetched word).execute b' i).fault = none) := by
  obtain ⟨word, b₁, hl, rfl⟩ := load_of_fetch hf
  refine ⟨word, b₁, rfl, ?_, ?_⟩
  · rw [step_of_load hl, Outcome.after_cpu]
  · rw [step_of_load hl, Outcome.after_fault]
    exact Option.map_eq_none_iff.mp

/-- A step that succeeds has carried out an instruction. -/
theorem fetch_of_step {c : Cpu} {b : Bus} (hs : (c.step b).fault = none) :
    ∃ i, c.fetch? b = some i := by
  unfold fetch?
  simp only [step, Outcome.after_fault] at hs
  cases hl : b.load .word c.pc with
  | error e =>
    rw [hl] at hs
    exact absurd hs (Option.some_ne_none _)
  | ok x => exact ⟨_, rfl⟩

end Cpu

/-- An instruction that was carried out, between the states around it. -/
structure Moment where
  before : Cpu
  instruction : Instruction
  after : Cpu

namespace Moment

/-- Where the instruction sent control. -/
def flow (m : Moment) : Flow :=
  m.before.flow m.instruction

/-- The addresses advance by where the instruction sent control, and a linking
instruction leaves the address behind its delay slot in one register, unless that is
register 0, and every other register as it was. -/
structure Sequenced (m : Moment) : Prop where
  pair : m.after.pair = m.flow.advance m.before.pair
  link : ∀ r, m.instruction.link? = some r → ∀ q,
    m.after.reg q = if q = r ∧ r ≠ 0 then m.before.nextPc + 4 else m.before.reg q

/-- `slot` comes in the delay slot of `m`, which jumps to `target`. -/
structure Delays (m slot : Moment) (target : UInt32) : Prop where
  pair : slot.before.pair = (m.before.nextPc, target)
  next : slot.flow = .next → slot.after.pair = (target, target + 4)
  jump : ∀ target', slot.flow = .jump target' → slot.after.pair = (target, target')
  trap : ∀ vector, slot.flow = .trap vector → slot.after.pair = (vector, vector + 4)

theorem Sequenced.delays {m slot : Moment} {target : UInt32} (hm : m.Sequenced)
    (hs : slot.Sequenced) (hn : slot.before = m.after) (hj : m.flow = .jump target) :
    m.Delays slot target := by
  have hpair : slot.before.pair = (m.before.nextPc, target) := by
    rw [hn, hm.pair, hj]
    rfl
  have hafter := hs.pair
  rw [hpair] at hafter
  exact {
    pair := hpair
    next := fun h => by rw [hafter, h]; rfl
    jump := fun _ h => by rw [hafter, h]; rfl
    trap := fun _ h => by rw [hafter, h]; rfl }

end Moment

/-- Steps that succeed one after another, with what each carried out. -/
inductive Run : Cpu → Bus → List Moment → Cpu → Bus → Prop where
  | nil (c : Cpu) (b : Bus) : Run c b [] c b
  | cons {c : Cpu} {b : Bus} {i : Instruction} {moments : List Moment} {c' : Cpu} {b' : Bus}
      (hf : c.fetch? b = some i) (hs : (c.step b).fault = none)
      (hr : Run (c.step b).cpu (c.step b).bus moments c' b') :
      Run c b (⟨c, i, (c.step b).cpu⟩ :: moments) c' b'

namespace Run

variable {c c' : Cpu} {b b' : Bus} {moments : List Moment}

theorem sequenced (h : Run c b moments c' b') : ∀ m ∈ moments, m.Sequenced := by
  -- Each instruction is seen alone: what it does follows from its own step.
  induction h with
  | nil => exact nofun
  | @cons c b i moments c' b' hf hs hr ih =>
    obtain ⟨word, b₁, hi, hc, hok⟩ := Cpu.step_of_fetch hf
    rw [List.forall_mem_cons]
    refine ⟨⟨?_, ?_⟩, ih⟩
    · rw [hc]
      exact Cpu.pair_execute c word b₁ i (hok hs)
    · intro r hl q
      rw [hc]
      exact Cpu.reg_execute_link c word b₁ hl (hok hs) q

/-- Every step that succeeds adds an instruction to a run. -/
theorem extend (h : Run c b moments c' b') (hs : (c'.step b').fault = none) :
    ∃ i, Run c b (moments ++ [⟨c', i, (c'.step b').cpu⟩]) (c'.step b').cpu (c'.step b').bus := by
  induction h with
  | nil c b =>
    obtain ⟨i, hf⟩ := Cpu.fetch_of_step hs
    exact ⟨i, .cons hf hs (.nil _ _)⟩
  | cons hf hs' _ ih =>
    obtain ⟨i, hr⟩ := ih hs
    exact ⟨i, .cons hf hs' hr⟩

/-- The first instruction of a run finds the state that the run begins in. -/
theorem before_head (h : Run c b moments c' b') (hl : 0 < moments.length) :
    moments[0].before = c := by
  cases h with
  | nil => nomatch hl
  | cons => rfl

/-- An instruction finds what the one before it left. -/
theorem before_succ (h : Run c b moments c' b') (k : Nat) (hk : k + 1 < moments.length) :
    moments[k + 1].before = moments[k].after := by
  induction h generalizing k with
  | nil => nomatch hk
  | cons hf hs hr ih =>
    cases k with
    -- The second instruction of the run is the first one of the rest.
    | zero => exact hr.before_head _
    | succ k => exact ih k (Nat.lt_of_succ_lt_succ hk)

/-- In a run every instruction advances the addresses by where it sends control,
and between a jump and its target comes the one instruction behind the jump. -/
theorem sequencing (h : Run c b moments c' b') :
    (∀ m ∈ moments, m.Sequenced) ∧
      ∀ k (hk : k + 1 < moments.length) target, moments[k].flow = .jump target →
        moments[k].Delays moments[k + 1] target := by
  refine ⟨h.sequenced, ?_⟩
  intro k hk target hj
  have hm := h.sequenced moments[k] (List.getElem_mem _)
  have hs := h.sequenced moments[k + 1] (List.getElem_mem _)
  exact hm.delays hs (h.before_succ k hk) hj

/-- Two of the DMA controller's registers as a program: a linking branch to
itself, which tests the register that it writes, and its delay slot. -/
theorem sequencing_branch_to_itself :
    let c := Cpu.reset.setPc 0x1F8010F8
    let b : Bus := { dma := { spare := #v[0x07F1FFFF, 0] } }
    ∃ branch slot c' b', Run c b [branch, slot] c' b' ∧
      branch.instruction.opcode = .bgezal ∧ branch.instruction.link? = some branch.instruction.rs ∧
        branch.Sequenced ∧ branch.Delays slot 0x1F8010F8 := by
  intro c b
  -- The branch reads register 31, which still holds zero, and links to it.
  have h : Run c b _ _ _ :=
    .cons (i := .decode 0x07F1FFFF) (by decide) (by decide)
      (.cons (i := .decode 0) (by decide) (by decide) (.nil _ _))
  refine ⟨_, _, _, _, h, by decide, by decide, h.sequencing.1 _ (List.mem_cons_self ..), ?_⟩
  exact h.sequencing.2 0 (by decide) _ (by decide)

end Run

end R3000
