import R3000.Proofs.Cpu.Execution

/-!
# What accesses preserve

A load or store that succeeds reads or writes one target. So what every read
and every write preserves is preserved by every access, and what accesses and
changes of isolation preserve is preserved by every instruction.
-/

namespace R3000

/-- From the first of these addresses to the last, all in the I/O window, there is `x`;
for a device they are those of its registers. -/
structure Occupant.Spans (x : Occupant) (first last : UInt32) : Prop where
  low : 0x1F801000 ≤ first
  high : last ≤ 0x1F801FFF
  device : ∀ p, x = .device p → p.first = first ∧ p.last = last

theorem Occupant.ofPhysical_spans {address : UInt32} {x : Occupant}
    (h : ofPhysical? address = some x) :
    ∃ first last, x.Spans first last ∧ first ≤ address ∧ address ≤ last := by
  have hrow {first last : UInt32} {y : Occupant} {rest : Option Occupant} (hy : y.Spans first last)
      (h : (if decide (first ≤ address) && decide (address ≤ last) then some y else rest) =
        some x) :
      (∃ first last, x.Spans first last ∧ first ≤ address ∧ address ≤ last) ∨ rest = some x := by
    split at h
    · rename_i hb
      rw [Bool.and_eq_true, decide_eq_true_iff, decide_eq_true_iff] at hb
      exact .inl ⟨first, last, Option.some.inj h ▸ hy, hb⟩
    · exact .inr h
  unfold ofPhysical? at h
  -- Row by row, down to the addresses that are not on the map.
  iterate 10
    refine (hrow ⟨by decide, by decide, by rintro p ⟨⟩ <;> exact ⟨rfl, rfl⟩⟩ h).elim id fun h => ?_
  nomatch h

/-- Where an access to a device comes from, and that the device answers. -/
theorem Target.ofAddress_device {hole? : Peripheral → Width → UInt32 → Option UInt32} {w : Width}
    {a offset : UInt32} {p : Peripheral} (h : ofAddress hole? w a = .ok (.device p offset)) :
    ¬ controlSegment ≤ a ∧ physical a = p.first + offset ∧ hole? p w offset = none := by
  unfold ofAddress ofOccupant at h
  split at h
  · split at h <;> cases h
  · rename_i hlow
    split at h
    · split at h
      · cases h
      · cases h
      · cases h
      · split at h
        · cases h
        · rename_i hnone
          cases h
          refine ⟨hlow, ?_, hnone⟩
          rw [UInt32.add_comm, UInt32.sub_add_cancel]
    · cases h

namespace Bus

variable {b b' : Bus} {w : Width} {a value : UInt32}

/-- A load finds its target and reads it. -/
theorem load_eq_map (b : Bus) (w : Width) (a : UInt32) :
    b.load w a = (Target.ofLoad w a).map (b.read · w) := by
  rw [load]
  cases Target.ofLoad w a <;> rfl

/-- A store that is not hidden finds its target and writes it. -/
theorem store_eq_map (b : Bus) (w : Width) (a value : UInt32) :
    b.store w a value =
      if b.hides w a then .ok b else (Target.ofStore w a).map (b.write · w value) := by
  rw [store]
  split
  · rfl
  · cases Target.ofStore w a <;> rfl

theorem load_ok (h : b.load w a = .ok (value, b')) :
    ∃ t, Target.ofLoad w a = .ok t ∧ b.read t w = (value, b') := by
  rw [load] at h
  cases ht : Target.ofLoad w a with
  | error e => rw [ht] at h; nomatch h
  | ok t =>
    rw [ht] at h
    exact ⟨t, rfl, Except.ok.inj h⟩

theorem store_ok (h : b.store w a value = .ok b') :
    (b.hides w a = true ∧ b' = b) ∨
      (b.hides w a = false ∧ ∃ t, Target.ofStore w a = .ok t ∧ b' = b.write t w value) := by
  rw [store] at h
  split at h
  · rename_i hh
    exact .inl ⟨hh, (Except.ok.inj h).symm⟩
  · rename_i hh
    cases ht : Target.ofStore w a with
    | error e => rw [ht] at h; nomatch h
    | ok t =>
      rw [ht] at h
      exact .inr ⟨Bool.eq_false_iff.mpr hh, t, rfl, (Except.ok.inj h).symm⟩

/-- Reads and writes of targets do not touch what `P` is about. -/
structure Stable (P : Bus → Prop) : Prop where
  -- Reading counts too: it clears the flags in the mode of a timer.
  read : ∀ b t w, P b → P (b.read t w).2
  write : ∀ b t w value, P b → P (b.write t w value)

namespace Stable

variable {P : Bus → Prop}

theorem load (hP : Stable P) (h : b.load w a = .ok (value, b')) (hb : P b) : P b' := by
  obtain ⟨t, -, hr⟩ := load_ok h
  have hread := hP.read b t w hb
  rwa [hr] at hread

/-- What a load leaves of the bus, when only that matters. -/
theorem loaded (hP : Stable P) (h : (b.load w a).map (·.2) = .ok b') (hb : P b) : P b' := by
  cases hl : b.load w a with
  | error e =>
    rw [hl] at h
    cases h
  | ok x =>
    rw [hl] at h
    cases h
    exact hP.load hl hb

theorem store (hP : Stable P) (h : b.store w a value = .ok b') (hb : P b) : P b' := by
  rcases store_ok h with ⟨-, rfl⟩ | ⟨-, t, -, rfl⟩
  · exact hb
  · exact hP.write b t w value hb

theorem executes (hP : Stable P) (hi : ∀ b isolated, P b → P (b.setIsolated isolated))
    {c c' : Cpu} {i : Instruction} {fault? : Option Error}
    (h : c.Executes b i c' b' fault?) (hb : P b) : P b' := by
  cases h with
  | load _ hl => exact hP.load hl hb
  | store hs => exact hP.store hs hb
  | update hl hs => exact hP.store hs (hP.load hl hb)
  | updateFault hl => exact hP.load hl hb
  | systemStatus => exact hi _ _ hb
  | _ => exact hb

end Stable

end Bus

namespace Cpu

/-- A step fetches a word and carries it out, or it fails at once. -/
theorem step_cases (c : Cpu) (b : Bus) :
    (∃ e, b.load .word c.pc = .error e ∧ (c.step b).cpu = { c with currentPc := c.pc } ∧
        (c.step b).bus = b ∧ (c.step b).fault = some (e.raisedAt c.pc none)) ∨
      ∃ word b₁, b.load .word c.pc = .ok (word, b₁) ∧ ∃ fault?,
        (c.fetched word).Executes b₁ (.decode word) (c.step b).cpu (c.step b).bus fault? ∧
        (c.step b).fault = fault?.map (·.raisedAt c.pc (some word)) := by
  unfold step
  simp only [Outcome.after_cpu, Outcome.after_bus, Outcome.after_fault]
  cases hl : b.load .word c.pc with
  | error e => exact .inl ⟨e, rfl, rfl, rfl, rfl⟩
  | ok x => exact .inr ⟨x.1, x.2, rfl, _, ends_execute _ _ _, rfl⟩

/-- Processor and bus after `n` steps, whether or not they fail. -/
def after (c : Cpu) (b : Bus) : (n : Nat) → Cpu × Bus
  | 0 => (c, b)
  | n + 1 =>
    let o := (c.after b n).1.step (c.after b n).2
    (o.cpu, o.bus)

end Cpu

/-- What accesses and changes of isolation preserve, a step preserves. -/
theorem Bus.Stable.step {P : Bus → Prop} (hP : Stable P)
    (hi : ∀ b isolated, P b → P (b.setIsolated isolated)) (c : Cpu) {b : Bus} (hb : P b) :
    P (c.step b).bus := by
  rcases c.step_cases b with ⟨e, -, -, hbus, -⟩ | ⟨word, b₁, hl, fault?, he, -⟩
  · rw [hbus]
    exact hb
  · exact hP.executes hi he (hP.load hl hb)

end R3000
