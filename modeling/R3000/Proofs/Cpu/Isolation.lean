import R3000.Proofs.Bus.Reading
import R3000.Proofs.Bus.Refusal
import R3000.Proofs.Cpu.Access

/-!
# Isolation of the cache

While the cache is isolated, stores below the last segment are lost. So of what
a program does in that time the bus shows two things only: flags of the timers
that were cleared by reading them, and what was stored to the cache control
register. This holds for every program, with the instruction that ends the
isolation as its last.
-/

namespace R3000

/-- The access stores to the cache control register. -/
def Access.Controls : Access → Prop
  | store _ a _ => wordAddress a = Target.cacheControlAddress
  | update a _ => wordAddress a = Target.cacheControlAddress
  | _ => False

namespace Bus

variable {b b₁ b' : Bus} {w : Width} {a value : UInt32} {p q : Prop}

/-- What isolation lets through between `b` and `b'`, where `control` says
whether the cache control register was stored to. -/
structure Shielded (control : Prop) (b b' : Bus) : Prop where
  unwritten : b.Unwritten b'
  cacheControl : b'.cacheControl ≠ b.cacheControl → control

namespace Shielded

theorem refl (p : Prop) (b : Bus) : Shielded p b b :=
  ⟨.refl b, fun h => absurd rfl h⟩

theorem mono (hpq : p → q) (h : Shielded p b b') : Shielded q b b' :=
  ⟨h.unwritten, fun hc => hpq (h.cacheControl hc)⟩

theorem trans (h : Shielded p b b₁) (h' : Shielded q b₁ b') : Shielded (p ∨ q) b b' where
  unwritten := h.unwritten.trans h'.unwritten
  cacheControl hc := by
    by_cases hlast : b'.cacheControl = b₁.cacheControl
    · exact .inl (h.cacheControl fun hfirst => hc (hlast.trans hfirst))
    · exact .inr (h'.cacheControl hlast)

theorem load (h : b.load w a = .ok (value, b')) : Shielded False b b' :=
  ⟨.load h, fun hc => hc (cacheControl_load h)⟩

theorem setIsolated (b : Bus) (isolated : Bool) : Shielded False b (b.setIsolated isolated) :=
  ⟨⟨rfl, rfl, rfl, .refl _, rfl, rfl⟩, fun hc => hc rfl⟩

/-- A store that isolation does not hide is in the last segment, where one register answers. -/
theorem store (hi : b.isolated = true) (h : b.store w a value = .ok b') :
    Shielded (wordAddress a = Target.cacheControlAddress) b b' := by
  rcases store_ok h with ⟨-, rfl⟩ | ⟨hshown, t, ht, rfl⟩
  · exact .refl _ _
  · have hsegment : Target.controlSegment ≤ w.align a := by
      rw [hides, hi, Bool.true_and, decide_eq_false_iff_not] at hshown
      exact UInt32.not_lt.mp hshown
    rw [Target.ofStore, Target.ofAddress, if_pos hsegment] at ht
    split at ht
    · rename_i hword
      cases ht
      refine ⟨⟨rfl, rfl, rfl, .refl _, rfl, rfl⟩, fun _ => ?_⟩
      rw [← wordAddress_align w a]
      exact beq_iff_eq.mp hword
    · cases ht

end Shielded

end Bus

namespace Access

variable {b : Bus}

theorem shielded_store (hi : b.isolated = true) (w : Width) (a value : UInt32) :
    b.Shielded (wordAddress a = Target.cacheControlAddress) ((store w a value).leaves b) := by
  cases hs : b.store w a value with
  | error e =>
    rw [leaves_store_error hs]
    exact .refl _ _
  | ok b' =>
    rw [leaves_store hs]
    exact .store hi hs

theorem shielded (hi : b.isolated = true) (x : Access) : b.Shielded x.Controls (x.leaves b) := by
  cases x with
  | none => exact .refl _ _
  | load w a =>
    cases hl : b.load w a with
    | error e =>
      rw [leaves_load_error hl]
      exact .refl _ _
    | ok y =>
      rw [leaves_load hl]
      exact .load hl
  | store w a value => exact shielded_store hi w a value
  | update a f =>
    cases hl : b.load .word a with
    | error e =>
      rw [leaves_update_error hl]
      exact .refl _ _
    | ok y =>
      -- The word goes back to where it was loaded, in the same isolation.
      have hi' : y.2.isolated = true := (Bus.isolated_load hl).trans hi
      have hback := shielded_store hi' .word (wordAddress a) (f y.1)
      rw [wordAddress_wordAddress] at hback
      rw [leaves_update hl]
      exact ((Bus.Shielded.load hl).trans hback).mono fun hc => hc.resolve_left id

end Access

namespace Cpu

/-- The next instruction stores to the cache control register. -/
def StoresControl (c : Cpu) (b : Bus) : Prop :=
  ∃ word b', b.load .word c.pc = .ok (word, b') ∧ (c.access (.decode word)).Controls

variable {b : Bus}

theorem execute_shielded (hi : b.isolated = true) (c : Cpu) (i : Instruction) :
    b.Shielded (c.access i).Controls (c.execute b i).bus := by
  by_cases hs : i.opcode ∈ Opcode.systemWriters
  · obtain ⟨isolated, hbus⟩ := c.execute_bus_system b hs
    rw [hbus]
    exact (Bus.Shielded.setIsolated b isolated).mono False.elim
  · rw [execute_bus c b hs]
    exact Access.shielded hi _

theorem step_shielded (hi : b.isolated = true) (c : Cpu) :
    b.Shielded (c.StoresControl b) (c.step b).bus := by
  unfold step
  rw [Outcome.after_bus]
  cases hl : b.load .word c.pc with
  | error e => exact .refl _ _
  | ok x =>
    have hi' : x.2.isolated = true := (Bus.isolated_load hl).trans hi
    have hexecute := execute_shielded hi' (c.fetched x.1) (.decode x.1)
    refine ((Bus.Shielded.load hl).trans hexecute).mono fun hc => ?_
    exact ⟨x.1, x.2, hl, hc.resolve_left id⟩

/-- A program that runs while the cache is isolated changes nothing of memory and
devices but flags of the timers that it reads, and the cache control register
only by storing to it. The steps may fail, and the last may end the isolation. -/
theorem after_shielded (c : Cpu) (b : Bus) (n : Nat)
    (h : ∀ k < n, (c.after b k).2.isolated = true) :
    b.Shielded (∃ k < n, (c.after b k).1.StoresControl (c.after b k).2) (c.after b n).2 := by
  induction n with
  | zero => exact .refl _ _
  | succ n ih =>
    have hbefore := ih fun k hk => h k (Nat.lt_succ_of_lt hk)
    have hlast := step_shielded (h n (Nat.lt_succ_self n)) (c.after b n).1
    refine (hbefore.trans hlast).mono ?_
    rintro (⟨k, hk, hc⟩ | hc)
    · exact ⟨k, Nat.lt_succ_of_lt hk, hc⟩
    · exact ⟨n, Nat.lt_succ_self n, hc⟩

/-- An isolated bus with a program in the registers of the first DMA channel:
`swl` to the mode of the first timer, whose flags are set, `sw` to the cache
control register and `mtc0` to Status. -/
def isolatedProgram : Bus :=
  let program : DmaChannel :=
    { base := 0xA9280000, blockControl := 0xAD480000, control := 0x40806000 }
  { isolated := true
    dma := { channels := #v[program, {}, {}, {}, {}, {}, {}] }
    timers := .flagged }

/-- A processor at this program, with the two addresses and a value to store. -/
def atIsolatedProgram : Cpu :=
  (((reset.setPc 0x1F801080).setReg 8 0x0000E988).setReg 9 0x1F801104).setReg 10 0xFFFE0130

/-- The flags are cleared, the cache control register is written, the mode itself
is not, and the last instruction ends the isolation. -/
theorem after_shielded_program :
    (∀ k < 3, (atIsolatedProgram.after isolatedProgram k).2.isolated = true) ∧
      isolatedProgram.Shielded
        (∃ k < 3, (atIsolatedProgram.after isolatedProgram k).1.StoresControl
          (atIsolatedProgram.after isolatedProgram k).2)
        (atIsolatedProgram.after isolatedProgram 3).2 ∧
      ((atIsolatedProgram.after isolatedProgram 3).2.timers.channels.get 0).mode = 0x0401 ∧
      (atIsolatedProgram.after isolatedProgram 3).2.cacheControl = 0x0000E988 ∧
      (atIsolatedProgram.after isolatedProgram 3).2.isolated = false := by
  have h : ∀ k < 3, (atIsolatedProgram.after isolatedProgram k).2.isolated = true := by
    intro k hk
    match k, hk with
    | 0, _ => rfl
    | 1, _ => rfl
    | 2, _ => rfl
  exact ⟨h, after_shielded _ _ 3 h, rfl, rfl, rfl⟩

end Cpu

end R3000
