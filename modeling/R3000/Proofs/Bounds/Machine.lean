import R3000.Proofs.Bounds.Bus
import R3000.Proofs.Cpu.Arithmetic
import R3000.Proofs.Machine.Operation

/-!
# Bounds of steps

`Machine.step?` is a step that gives nothing when an index, a sum, a product, a
quotient or a shift is out of range anywhere on the way. Beside what the bus can
run into there is one such place: the count of instructions is at its end.
-/

namespace R3000

open Arithmetic

namespace Cpu

/-- What the instruction computes on words has a result. Sums and differences
wrap around, or trap when they do not fit. -/
def computes (c : Cpu) (i : Instruction) : Bool :=
  let s := c.reg i.rs
  let t := c.reg i.rt
  match i.opcode with
  | .sll | .srl | .sra => i.shamt.val < 32
  | .sllv | .srlv | .srav => s &&& 31 < 32
  | .mult => -2 ^ 63 ≤ signed s * signed t ∧ signed s * signed t < 2 ^ 63
  | .multu => s.toNat * t.toNat < 2 ^ 64
  | .div =>
    t = 0 ∨ (s = 0x80000000 ∧ t = 0xFFFFFFFF) ∨ FitsSigned ((signed s).tdiv (signed t))
  | _ => true

theorem computes_all (c : Cpu) (i : Instruction) : c.computes i = true := by
  have hshift (a : UInt32) : a &&& 31 < 32 :=
    UInt32.lt_iff_toNat_lt.mpr (Nat.lt_of_le_of_lt (toNat_and_le a 31) (by decide))
  have hproduct (a b : UInt32) : a.toNat * b.toNat < 2 ^ 32 * 2 ^ 32 :=
    Nat.mul_lt_mul'' a.toNat_lt b.toNat_lt
  unfold computes
  cases i.opcode with
  | sll | srl | sra => exact decide_eq_true i.shamt.isLt
  | sllv | srlv | srav => exact decide_eq_true (hshift _)
  | mult => exact decide_eq_true (product_fits _ _)
  | multu => exact decide_eq_true (hproduct _ _)
  | div => exact decide_eq_true (quotient_fits _ _)
  | _ => rfl

section

variable (c : Cpu) (b : Bus)

def loadInto? (w : Width) (address : UInt32) (r : RegisterIndex) (f : UInt32 → UInt32) :
    Option Outcome := do
  let _ ← b.load? w address
  return c.loadInto b w address r f

def storeFrom? (w : Width) (address value : UInt32) : Option Outcome := do
  let _ ← b.store? w address value
  return c.storeFrom b w address value

def update? (address : UInt32) (f : UInt32 → UInt32) : Option Outcome := do
  match ← b.load? .word address with
  | .error _ => return c.update b address f
  | .ok (value, b₁) =>
    let _ ← b₁.store? .word (wordAddress address) (f value)
    return c.update b address f

def execute? (i : Instruction) : Option Outcome :=
  let address := c.effectiveAddress i
  let t := c.reg i.rt
  if c.computes i then
    match i.opcode with
    | .lb => c.loadInto? b .byte address i.rt extendByte
    | .lbu => c.loadInto? b .byte address i.rt id
    | .lh => c.loadInto? b .half address i.rt extendHalf
    | .lhu => c.loadInto? b .half address i.rt id
    | .lw => c.loadInto? b .word address i.rt id
    | .lwl => c.loadInto? b .word address i.rt (loadLeft address · t)
    | .lwr => c.loadInto? b .word address i.rt (loadRight address · t)
    | .sb => c.storeFrom? b .byte address t
    | .sh => c.storeFrom? b .half address t
    | .sw => c.storeFrom? b .word address t
    | .swl => c.update? b address (storeLeft address · t)
    | .swr => c.update? b address (storeRight address · t)
    | _ => some (c.execute b i)
  else none

def step? : Option Outcome := do
  match ← b.load? .word c.pc with
  | .error _ => return c.step b
  | .ok (word, b₁) =>
    let _ ← (c.fetched word).execute? b₁ (.decode word)
    return c.step b

variable {b} (hb : b.Complete)
include hb

theorem loadInto?_eq (w : Width) (address : UInt32) (r : RegisterIndex) (f : UInt32 → UInt32) :
    c.loadInto? b w address r f = some (c.loadInto b w address r f) := by
  rw [loadInto?, Bus.load?_eq hb]
  rfl

theorem storeFrom?_eq (w : Width) (address value : UInt32) :
    c.storeFrom? b w address value = some (c.storeFrom b w address value) := by
  rw [storeFrom?, Bus.store?_eq hb]
  rfl

theorem update?_eq (address : UInt32) (f : UInt32 → UInt32) :
    c.update? b address f = some (c.update b address f) := by
  rw [update?, Bus.load?_eq hb]
  simp only [Option.bind_eq_bind, Option.bind_some]
  cases hl : b.load .word address with
  | error e => rfl
  | ok x =>
    simp only [Bus.store?_eq (Bus.stable_complete.load hl hb)]
    rfl

theorem execute?_eq (i : Instruction) : c.execute? b i = some (c.execute b i) := by
  rw [execute?, if_pos (c.computes_all i)]
  cases ho : i.opcode with
  | lb | lbu | lh | lhu | lw | lwl | lwr =>
    simp only [execute, ho]
    exact c.loadInto?_eq hb ..
  | sb | sh | sw =>
    simp only [execute, ho]
    exact c.storeFrom?_eq hb ..
  | swl | swr =>
    simp only [execute, ho]
    exact c.update?_eq hb ..
  | _ => rfl

theorem step?_eq : c.step? b = some (c.step b) := by
  rw [step?, Bus.load?_eq hb]
  simp only [Option.bind_eq_bind, Option.bind_some]
  cases hl : b.load .word c.pc with
  | error e => rfl
  | ok x =>
    simp only [execute?_eq _ (Bus.stable_complete.load hl hb)]
    rfl

end

end Cpu

namespace Machine

def advance? (order : TickOrder) (cpu : Cpu) (bus : Bus) : Option Outcome := do
  match order with
  | .cpuFirst => let _ ← cpu.step? bus
  | .peripheralsFirst => let _ ← (tick cpu bus).cpu.step? (tick cpu bus).bus
  return advance order cpu bus

/-- The count of instructions ends at its highest value. -/
def step? (m : Machine) : Option Progress := do
  let o ← advance? m.order m.cpu m.bus
  if o.fault = none ∧ 2 ^ 64 ≤ m.cycles.toNat + 1 then none else some m.step

/-- Up to `n` steps, until one fails; what they report is left out. -/
def steps? : (n : Nat) → Machine → Option (Machine × Option Error)
  | 0, m => some (m, none)
  | n + 1, m => do
    let p ← m.step?
    match p.fault with
    | some e => return (p.machine, some e)
    | none => steps? n p.machine

theorem advance?_eq (order : TickOrder) (c : Cpu) {b : Bus} (hb : b.Complete) :
    advance? order c b = some (advance order c b) := by
  cases order with
  | cpuFirst =>
    rw [advance?, Cpu.step?_eq c hb]
    rfl
  | peripheralsFirst =>
    rw [advance?, Cpu.step?_eq _ (show (tick c b).bus.Complete from hb)]
    rfl

theorem complete_step (m : Machine) (hb : m.bus.Complete) : m.step.machine.bus.Complete :=
  step_preserves_bus Bus.stable_complete (fun _ _ h => h) (fun _ h => h) m hb

/-- A step has a result unless it would count beyond the end. -/
theorem step?_eq_none_iff {m : Machine} (hb : m.bus.Complete) :
    m.step? = none ↔ m.step.fault = none ∧ 2 ^ 64 ≤ m.cycles.toNat + 1 := by
  rw [step?, advance?_eq _ _ hb, step_fault]
  simp only [Option.bind_eq_bind, Option.bind_some, ite_eq_left_iff, reduceCtorEq, imp_false,
    Decidable.not_not]

theorem step?_eq {m : Machine} (hb : m.bus.Complete) (hc : m.cycles.toNat + 1 < 2 ^ 64) :
    m.step? = some m.step := by
  rw [step?, advance?_eq _ _ hb]
  exact if_neg fun h => Nat.not_lt.mpr h.2 hc

theorem steps?_eq (n : Nat) {m : Machine} (hb : m.bus.Complete)
    (hc : m.cycles.toNat + n < 2 ^ 64) :
    m.steps? n = some ((m.steps n).machine, (m.steps n).fault) := by
  induction n generalizing m with
  | zero => rfl
  | succ n ih =>
    rw [steps?, step?_eq hb (by omega)]
    simp only [Option.bind_eq_bind, Option.bind_some]
    cases hf : m.step.fault with
    | some e =>
      obtain ⟨hm, he⟩ := steps_succ_of_fault n hf
      rw [hm, he]
      rfl
    | none =>
      obtain ⟨hm, he⟩ := steps_succ_of_ok n hf
      have hcount : m.step.machine.cycles.toNat ≤ m.cycles.toNat + 1 := by
        rw [step_cycles, hf]
        exact Nat.mod_le ..
      rw [hm, he]
      exact ih (complete_step m hb) (by omega)

end Machine

end R3000
