import R3000.Proofs.Cpu.Frame

/-!
# Nested traps

A trap moves the levels of the mode stack up and a return moves them down. There
are three levels only, and a return leaves the uppermost where it is, so traps and
returns that match do not give back everything: what comes back depends on how
deep the traps were nested. The invariant says where the levels from before are at
each depth.
-/

namespace R3000

/-- The instruction writes Status by its number. -/
def Instruction.WritesStatus (i : Instruction) : Prop :=
  i.opcode ∈ Opcode.systemWriters ∧ i.rd = Cop0.statusIndex

/-! ## The mode stack -/

/-- `now` is Status `depth` traps deep, when it was `before` outside of them and
the traps are nested no deeper than `limit`. -/
structure Status.Nested (limit : Nat) (before : UInt32) (depth : Nat) (now : UInt32) : Prop where
  depth_le : depth ≤ limit
  outside : ∀ k, 6 ≤ k → now.toNat.testBit k = before.toNat.testBit k
  lifted : ∀ k, k + 2 * limit < 6 → now.toNat.testBit (k + 2 * depth) = before.toNat.testBit k
  cleared : ∀ k < 6, k < 2 * depth → now.toNat.testBit k = false

namespace Status.Nested

variable {limit depth : Nat} {before now : UInt32}

theorem refl (limit : Nat) (before : UInt32) : Nested limit before 0 before where
  depth_le := Nat.zero_le limit
  outside _ _ := rfl
  lifted _ _ := rfl
  cleared k _ hk := absurd hk (Nat.not_lt_zero k)

theorem push (h : Nested limit before depth now) (hd : depth < limit) :
    Nested limit before (depth + 1) (Status.push now) where
  depth_le := hd
  outside k hk := by rw [testBit_push, if_neg (by omega), h.outside k hk]
  lifted k hk := by
    have hindex : k + 2 * (depth + 1) - 2 = k + 2 * depth := by omega
    rw [testBit_push, if_pos (by omega), decide_eq_true (by omega), Bool.true_and, hindex,
      h.lifted k hk]
  cleared k hk hdepth := by
    rw [testBit_push, if_pos hk]
    by_cases hcurrent : 2 ≤ k
    · rw [h.cleared (k - 2) (by omega) (by omega), Bool.and_false]
    · rw [decide_eq_false hcurrent, Bool.false_and]

theorem pop (h : Nested limit before (depth + 1) now) :
    Nested limit before depth (Status.pop now) where
  depth_le := Nat.le_of_succ_le h.depth_le
  outside k hk := by rw [testBit_pop, if_neg (by omega), h.outside k hk]
  lifted k hk := by
    have hdepth := h.depth_le
    have hindex : 2 + (k + 2 * depth) = k + 2 * (depth + 1) := by omega
    rw [testBit_pop, if_pos (by omega), hindex, h.lifted k hk]
  cleared k hk hdepth := by
    rw [testBit_pop]
    -- The uppermost level stays: it was clear at the greater depth already.
    split
    · exact h.cleared (2 + k) (by omega) (by omega)
    · exact h.cleared k hk (by omega)

end Status.Nested

namespace Cpu

variable {c c' start : Cpu} {b : Bus} {i : Instruction} {t : Trap} {limit depth : Nat}

/-! ## What a step makes of Status -/

theorem status_of_trap (hf : c.fetch? b = some i) (ht : c.trap? i = some t) :
    (c.step b).cpu.cop0.status = Status.push c.cop0.status := by
  obtain ⟨-, -, -, hcop0⟩ := (framed_of_fetch hf).trap t ht
  rw [hcop0, Cop0.status_enterTrap]

theorem status_of_rfe (hf : c.fetch? b = some i) (ho : i.opcode = .rfe) :
    (c.step b).cpu.cop0.status = Status.pop c.cop0.status := by
  obtain ⟨word, b₁, -, hcpu, -⟩ := step_of_fetch hf
  rw [hcpu]
  simp only [execute, ho]
  exact Cop0.status_leaveTrap _

theorem status_of_other (hf : c.fetch? b = some i) (ht : c.trap? i = none)
    (ho : i.opcode ≠ .rfe) (hw : ¬ i.WritesStatus) :
    (c.step b).cpu.cop0.status = c.cop0.status :=
  system_kept hf ht (fun _ => ho) hw

/-! ## Courses -/

/-- The processor comes from `start` to `c`, being `depth` traps deep there and never
more than `limit`. Traps are taken by instructions or given by the host, returns
are instructions, and whatever else happens does not touch Status. -/
inductive Nesting (limit : Nat) (start : Cpu) : Nat → Cpu → Prop where
  | start : Nesting limit start 0 start
  | trap {depth : Nat} {c : Cpu} {b : Bus} {i : Instruction} {t : Trap}
      (h : Nesting limit start depth c) (hd : depth < limit) (hf : c.fetch? b = some i)
      (ht : c.trap? i = some t) : Nesting limit start (depth + 1) (c.step b).cpu
  | raise {depth : Nat} {c : Cpu} (t : Trap) (h : Nesting limit start depth c)
      (hd : depth < limit) : Nesting limit start (depth + 1) (c.enterTrap t)
  | leave {depth : Nat} {c : Cpu} {b : Bus} {i : Instruction}
      (h : Nesting limit start (depth + 1) c) (hf : c.fetch? b = some i)
      (ho : i.opcode = .rfe) : Nesting limit start depth (c.step b).cpu
  | other {depth : Nat} {c c' : Cpu} (h : Nesting limit start depth c)
      (hs : c'.cop0.status = c.cop0.status) : Nesting limit start depth c'

namespace Nesting

/-- Other instructions go on at the same depth, unless they write Status. -/
theorem step (h : Nesting limit start depth c) (hf : c.fetch? b = some i)
    (ht : c.trap? i = none) (ho : i.opcode ≠ .rfe) (hw : ¬ i.WritesStatus) :
    Nesting limit start depth (c.step b).cpu :=
  h.other (status_of_other hf ht ho hw)

theorem nested (h : Nesting limit start depth c) :
    Status.Nested limit start.cop0.status depth c.cop0.status := by
  induction h with
  | start => exact .refl limit _
  | trap _ hd hf ht ih =>
    rw [status_of_trap hf ht]
    exact ih.push hd
  | raise t _ hd ih =>
    rw [enterTrap, setPc, Cop0.status_enterTrap]
    exact ih.push hd
  | leave _ hf ho ih =>
    rw [status_of_rfe hf ho]
    exact ih.pop
  | other _ hs ih =>
    rw [hs]
    exact ih

/-- Traps nested no deeper than two levels give the current level back when all of
them have returned, and no deeper than one the previous level too. In between the
processor is in kernel mode with interrupts off. Other bits never change. -/
theorem status_kept (h : Nesting limit start depth c) :
    let before := start.cop0.status.toNat
    let now := c.cop0.status.toNat
    (∀ k, 6 ≤ k → now.testBit k = before.testBit k) ∧
      (0 < depth → ∀ k < 2, now.testBit k = false) ∧
      (depth = 0 → limit ≤ 2 → ∀ k < 2, now.testBit k = before.testBit k) ∧
      (depth = 0 → limit ≤ 1 → ∀ k < 4, now.testBit k = before.testBit k) := by
  intro before now
  have hnested := h.nested
  refine ⟨hnested.outside, fun hd k hk => hnested.cleared k (by omega) (by omega), ?_, ?_⟩
  · rintro rfl hlimit k hk
    exact hnested.lifted k (by omega)
  · rintro rfl hlimit k hk
    exact hnested.lifted k (by omega)

/-- A system call, an interrupt in its handler with one instruction of its own,
and both returns. -/
theorem status_kept_interrupted :
    let c₀ : Cpu := { Cpu.reset.setPc 0x1F8010F8 with
      cop0 := Cop0.reset.set Cop0.statusIndex 0x0000042B }
    let calls : Bus := { dma := { spare := #v[0x0000000C, 0] } }
    let returns : Bus := { dma := { spare := #v[0x00000000, 0x42000010] } }
    let handler := (c₀.step calls).cpu
    let inner := (handler.enterTrap .interrupt).setPc 0x1F8010F8
    let served := (inner.step returns).cpu
    let outer := (served.step returns).cpu.setPc 0x1F8010FC
    let c := (outer.step returns).cpu
    Nesting 2 c₀ 0 c ∧ c.cop0.status.toNat.testBit 0 = true ∧
      c.cop0.status.toNat.testBit 1 = true := by
  intro c₀ calls returns handler inner served outer c
  have hcall : c₀.fetch? calls = some (.decode 0x0000000C) := by decide
  have hserve : inner.fetch? returns = some (.decode 0x00000000) := by decide
  have hinner : served.fetch? returns = some (.decode 0x42000010) := by decide
  have houter : outer.fetch? returns = some (.decode 0x42000010) := by decide
  have hcourse : Nesting 2 c₀ 2 inner :=
    ((Nesting.start.trap (by decide) hcall rfl).raise .interrupt (by decide)).other rfl
  have hserved : Nesting 2 c₀ 2 served :=
    hcourse.step hserve rfl (by decide) fun hw => absurd hw.1 (by decide)
  have hreturned : Nesting 2 c₀ 1 outer := (hserved.leave hinner rfl).other rfl
  have hc : Nesting 2 c₀ 0 c := hreturned.leave houter rfl
  obtain ⟨-, -, hcurrent, -⟩ := hc.status_kept
  refine ⟨hc, ?_, ?_⟩
  · exact (hcurrent rfl (by decide) 0 (by decide)).trans (by decide)
  · exact (hcurrent rfl (by decide) 1 (by decide)).trans (by decide)

end Nesting

end Cpu

end R3000
