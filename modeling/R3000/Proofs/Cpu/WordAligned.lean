import R3000.Proofs.Alignment
import R3000.Proofs.Bus.Access
import R3000.Proofs.Cpu.Cop0
import R3000.Proofs.Cpu.Frame

/-!
# Aligned addresses

Every way to the next instruction keeps the pair of addresses at multiples of four:
branches and jumps lead to whole words by their encoding, a jump to a register
checks its target, and the trap vectors are aligned. So a processor that begins
aligned stays so over any program, also where steps fail, and a trap records an
aligned address.
-/

namespace R3000

namespace Cpu

/-- The addresses of the next two instructions are multiples of four. -/
structure Aligned (c : Cpu) : Prop where
  pc : 4 ∣ c.pc.toNat
  nextPc : 4 ∣ c.nextPc.toNat

variable {c c' : Cpu} {b b' : Bus} {i : Instruction} {t : Trap} {fault? : Option Error}

/-! ## Where an instruction leads -/

theorem four_dvd_trapVector (status : UInt32) : 4 ∣ (trapVector status).toNat := by
  rw [trapVector]
  split <;> decide

theorem MayLead.four_dvd (h : c.Aligned) {target : UInt32} (ht : c.MayLead i target) :
    4 ∣ target.toNat := by
  rcases ht with rfl | rfl | rfl | ⟨rfl, haligned⟩
  · exact h.nextPc
  · exact four_dvd_add h.pc (four_dvd_shiftLeft _)
  · have hsegment : 4 ∣ (c.pc &&& 0xF0000000).toNat := by
      rw [← and_three_eq_zero_iff, UInt32.and_assoc]
      exact UInt32.and_zero
    exact four_dvd_or hsegment (four_dvd_shiftLeft _)
  · exact (and_three_eq_zero_iff _).mp haligned

namespace Aligned

theorem setPc {pc : UInt32} (h : 4 ∣ pc.toNat) (c : Cpu) : (c.setPc pc).Aligned :=
  ⟨h, four_dvd_add h (by decide)⟩

theorem setReg (h : c.Aligned) (r : RegisterIndex) (value : UInt32) :
    (c.setReg r value).Aligned :=
  ⟨by rw [setReg_pc]; exact h.pc, by rw [setReg_nextPc]; exact h.nextPc⟩

theorem jump (h : c.Aligned) {target : UInt32} (ht : 4 ∣ target.toNat) :
    (c.jump target).Aligned :=
  ⟨h.pc, ht⟩

theorem fetched (h : c.Aligned) (word : UInt32) : (c.fetched word).Aligned :=
  ⟨h.nextPc, four_dvd_add h.nextPc (by decide)⟩

theorem executes (h : c.Aligned) (he : c.Executes b i c' b' fault?) : c'.Aligned := by
  cases he with
  | register value => exact h.setReg _ value
  | load kept => exact h.setReg _ kept
  | transfer ht => exact h.jump (ht.four_dvd h)
  | linkTransfer _ ht => exact (h.setReg _ c.nextPc).jump (ht.four_dvd h)
  | trap => exact .setPc (four_dvd_trapVector _) _
  -- Everything else leaves the pair where the fetch has put it.
  | _ => exact ⟨h.pc, h.nextPc⟩

/-- A step keeps the pair aligned, whether or not it fails. -/
theorem step (h : c.Aligned) (b : Bus) : (c.step b).cpu.Aligned := by
  rcases c.step_cases b with ⟨e, -, hcpu, -, -⟩ | ⟨word, b₁, -, fault?, he, -⟩
  · rw [hcpu]
    exact ⟨h.pc, h.nextPc⟩
  · exact (h.fetched word).executes he

theorem after (h : c.Aligned) (b : Bus) (n : Nat) : (c.after b n).1.Aligned := by
  induction n with
  | zero => exact h
  | succ n ih => exact ih.step _

end Aligned

/-! ## The address of a trap -/

/-- The next step takes a trap. -/
def Traps (c : Cpu) (b : Bus) : Prop :=
  ∃ i t, c.fetch? b = some i ∧ c.trap? i = some t

/-- The next instruction writes EPC by its number. -/
def WritesEpc (c : Cpu) (b : Bus) : Prop :=
  ∃ i, c.fetch? b = some i ∧ i.WritesSystem Cop0.epcIndex

/-- A trap leaves the address of its instruction in EPC. -/
theorem epc_of_traps (h : c.Traps b) : (c.step b).cpu.cop0.epc = c.pc := by
  obtain ⟨i, t, hf, ht⟩ := h
  obtain ⟨-, -, -, hcop0⟩ := (framed_of_fetch hf).trap t ht
  rw [hcop0, Cop0.epc_enterTrap]

theorem cop0_of_unfetched (hf : c.fetch? b = none) : (c.step b).cpu.cop0 = c.cop0 := by
  rcases c.step_cases b with ⟨e, -, hcpu, -, -⟩ | ⟨word, b₁, hl, -⟩
  · rw [hcpu]
  · rw [fetch?, hl] at hf
    exact absurd hf (Option.some_ne_none _)

/-- Only traps and writes by number change EPC. -/
theorem epc_of_other (ht : ¬ c.Traps b) (hw : ¬ c.WritesEpc b) :
    (c.step b).cpu.cop0.epc = c.cop0.epc := by
  cases hf : c.fetch? b with
  | none => rw [cop0_of_unfetched hf]
  | some i =>
    have htrap : c.trap? i = none := by
      rw [Option.eq_none_iff_forall_ne_some]
      exact fun t hi => ht ⟨i, t, hf, hi⟩
    exact system_kept hf htrap (fun h => absurd h (by decide)) fun hi => hw ⟨i, hf, hi⟩

theorem epc_aligned (h : c.Aligned) (ht : c.Traps b) : 4 ∣ (c.step b).cpu.cop0.epc.toNat := by
  rw [epc_of_traps ht]
  exact h.pc

/-- What a trap has left in EPC stays aligned while no instruction writes it by its number. -/
theorem epc_after_aligned (h : c.Aligned) {n k : Nat} (hk : k < n)
    (htraps : (c.after b k).1.Traps (c.after b k).2)
    (hkept : ∀ j, k < j → j < n → ¬ (c.after b j).1.WritesEpc (c.after b j).2) :
    4 ∣ (c.after b n).1.cop0.epc.toNat := by
  induction n with
  | zero => exact absurd hk (Nat.not_lt_zero k)
  | succ n ih =>
    by_cases hlast : (c.after b n).1.Traps (c.after b n).2
    · exact epc_aligned (h.after b n) hlast
    · -- The trap was taken earlier, and the last step has left EPC alone.
      have hkn : k < n := by
        rcases Nat.lt_succ_iff_lt_or_eq.mp hk with hkn | rfl
        · exact hkn
        · exact absurd htraps hlast
      rw [after, epc_of_other hlast (hkept n hkn (Nat.lt_succ_self n))]
      exact ih hkn fun j hkj hjn => hkept j hkj (Nat.lt_succ_of_lt hjn)

/-- After any number of steps, failing or not, the pair of addresses is aligned. Every trap
taken on the way leaves an aligned address in EPC, which stays there until an instruction
writes EPC by its number. -/
theorem after_aligned (h : c.Aligned) (b : Bus) (n : Nat) :
    (c.after b n).1.Aligned ∧
      ∀ k < n, (c.after b k).1.Traps (c.after b k).2 →
        4 ∣ (c.after b (k + 1)).1.cop0.epc.toNat ∧
          ((∀ j, k < j → j < n → ¬ (c.after b j).1.WritesEpc (c.after b j).2) →
            4 ∣ (c.after b n).1.cop0.epc.toNat) :=
  ⟨h.after b n, fun k hk htraps =>
    ⟨epc_aligned (h.after b k) htraps, epc_after_aligned h hk htraps⟩⟩

/-- A processor about to fetch from the registers of the DMA controller, with a misaligned
address in register 8. -/
def misled : Cpu :=
  (Cpu.reset.setPc 0x1F8010F8).setReg 8 0x80020002

/-- A jump to the address in register 8, and a system call behind it. -/
def jumpAndCall : Bus where
  dma := { spare := #v[0x01000008, 0x0000000C] }

/-- The jump fails, and the run goes on with the system call. -/
theorem after_aligned_refused :
    misled.Aligned ∧ (misled.step jumpAndCall).fault.isSome ∧
      (misled.after jumpAndCall 1).1.Traps (misled.after jumpAndCall 1).2 ∧
      (misled.after jumpAndCall 2).1.Aligned ∧
      4 ∣ (misled.after jumpAndCall 2).1.cop0.epc.toNat := by
  have h : misled.Aligned := ⟨by decide, by decide⟩
  have htraps : (misled.after jumpAndCall 1).1.Traps (misled.after jumpAndCall 1).2 :=
    ⟨.decode 0x0000000C, .syscall, by decide, by decide⟩
  obtain ⟨hpair, hepc⟩ := after_aligned h jumpAndCall 2
  have hend := (hepc 1 (by decide) htraps).2 fun j hj hj' => by omega
  exact ⟨h, by decide, htraps, hpair, hend⟩

end Cpu

end R3000
