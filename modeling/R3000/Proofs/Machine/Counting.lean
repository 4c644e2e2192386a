import Mathlib.Algebra.Group.Nat.Defs
import R3000.Proofs.Machine.Operation

/-!
# Counting steps

A run with a limit does not count its steps: it looks at how far the count of
instructions, a word that wraps, has come since the run began. It takes as many
steps as the limit says all the same, unless one fails before, and two runs
take as many as one run of both lengths.
-/

namespace R3000

/-- The machine and the error of a progress, without the notes. -/
def Progress.ending (p : Progress) : Machine × Option Error :=
  (p.machine, p.fault)

namespace Machine

variable {m m' : Machine} {n : Nat} {e : Error}

/-! ## Steps one after another -/

theorem ending_succ_of_fault (n : Nat) (h : m.step.fault = some e) :
    (m.steps (n + 1)).ending = (m.step.machine, some e) :=
  Prod.ext (steps_succ_of_fault n h).1 (steps_succ_of_fault n h).2

theorem ending_succ_of_ok (n : Nat) (h : m.step.fault = none) :
    (m.steps (n + 1)).ending = (m.step.machine.steps n).ending :=
  Prod.ext (steps_succ_of_ok n h).1 (steps_succ_of_ok n h).2

theorem ending_one (m : Machine) : (m.steps 1).ending = m.step.ending := by
  cases hs : m.step.fault with
  | some e => rw [ending_succ_of_fault 0 hs, Progress.ending, hs]
  | none => rw [ending_succ_of_ok 0 hs, Progress.ending, Progress.ending, hs]; rfl

/-- After steps that succeed come the other steps. -/
theorem ending_add_of_ok {a : Nat} (b : Nat) (h : (m.steps a).fault = none) :
    (m.steps (a + b)).ending = ((m.steps a).machine.steps b).ending := by
  induction a generalizing m with
  | zero =>
    rw [Nat.zero_add]
    rfl
  | succ a ih =>
    rw [Nat.succ_add]
    cases hs : m.step.fault with
    | some e =>
      rw [(steps_succ_of_fault a hs).2] at h
      nomatch h
    | none =>
      obtain ⟨hm, hf⟩ := steps_succ_of_ok a hs
      rw [ending_succ_of_ok _ hs, hm]
      exact ih (hf.symm.trans h)

/-- After steps one of which fails comes none. -/
theorem ending_add_of_fault {a : Nat} (b : Nat) (h : (m.steps a).fault = some e) :
    (m.steps (a + b)).ending = (m.steps a).ending := by
  induction a generalizing m with
  | zero => nomatch h
  | succ a ih =>
    rw [Nat.succ_add]
    cases hs : m.step.fault with
    | some e => rw [ending_succ_of_fault _ hs, ending_succ_of_fault _ hs]
    | none =>
      rw [ending_succ_of_ok _ hs, ending_succ_of_ok _ hs]
      exact ih ((steps_succ_of_ok a hs).2.symm.trans h)

theorem ok_of_succ (h : (m.steps (n + 1)).fault = none) : (m.steps n).fault = none := by
  cases hs : (m.steps n).fault with
  | none => rfl
  | some e =>
    obtain ⟨-, hf⟩ := Prod.mk.inj (ending_add_of_fault 1 hs)
    nomatch h.symm.trans (hf.trans hs)

/-- The last of several steps is a step of the machine that the others leave. -/
theorem ending_succ_last (h : (m.steps n).fault = none) :
    (m.steps (n + 1)).ending = (m.steps n).machine.step.ending := by
  rw [ending_add_of_ok 1 h, ending_one]

/-- From `m` to `m'` in `k` steps, each of which succeeds. -/
inductive Stepped : (k : Nat) → (m m' : Machine) → Prop where
  | refl (m : Machine) : Stepped 0 m m
  | step {k : Nat} {m m' : Machine} (hs : m.step.fault = none)
      (h : Stepped k m.step.machine m') : Stepped (k + 1) m m'

theorem stepped_of_ok {n : Nat} (h : (m.steps n).fault = none) :
    Stepped n m (m.steps n).machine := by
  induction n generalizing m with
  | zero => exact .refl m
  | succ n ih =>
    cases hs : m.step.fault with
    | some e =>
      rw [(steps_succ_of_fault n hs).2] at h
      nomatch h
    | none =>
      obtain ⟨hm, hf⟩ := steps_succ_of_ok n hs
      rw [hm]
      exact .step hs (ih (hf.symm.trans h))

theorem Stepped.ending {k : Nat} (h : Stepped k m m') : (m.steps k).ending = (m', none) := by
  induction h with
  | refl m => rfl
  | step hs _ ih => rw [ending_succ_of_ok _ hs, ih]

/-- The error of steps is that of the first step that fails, and the last. -/
theorem stepped_of_fault {n : Nat} (h : (m.steps n).fault = some e) :
    ∃ k < n, ∃ last, Stepped k m last ∧ last.step.fault = some e ∧
      (m.steps n).machine = last.step.machine := by
  induction n generalizing m with
  | zero => nomatch h
  | succ n ih =>
    cases hs : m.step.fault with
    | some e' =>
      obtain ⟨hm, hf⟩ := steps_succ_of_fault n hs
      obtain rfl : e' = e := Option.some.inj (hf.symm.trans h)
      exact ⟨0, Nat.succ_pos n, m, .refl m, hs, hm⟩
    | none =>
      obtain ⟨hm, hf⟩ := steps_succ_of_ok n hs
      obtain ⟨k, hk, last, hlast, he, hend⟩ := ih (hf.symm.trans h)
      exact ⟨k + 1, Nat.succ_lt_succ hk, last, .step hs hlast, he, hm.trans hend⟩

/-! ## The count of instructions -/

theorem cycles_of_ok (h : m.step.fault = none) : m.step.machine.cycles = m.cycles + 1 := by
  rw [step_cycles, h]
  rfl

theorem cycles_of_fault (h : m.step.fault = some e) : m.step.machine.cycles = m.cycles := by
  rw [step_cycles, h]
  rfl

theorem Stepped.cycles {k : Nat} (h : Stepped k m m') :
    m'.cycles = m.cycles + UInt64.ofNat k := by
  induction h with
  | refl m => exact (UInt64.add_zero _).symm
  | @step k m m' hs _ ih =>
    rw [ih, cycles_of_ok hs, UInt64.ofNat_add, UInt64.add_assoc, UInt64.add_comm 1]
    rfl

/-- Where the count of instructions does not wrap, it grows by the steps that succeed. -/
theorem Stepped.cycles_toNat {k : Nat} (h : Stepped k m m')
    (hfits : m.cycles.toNat + k < 2 ^ 64) : m'.cycles.toNat = m.cycles.toNat + k := by
  rw [h.cycles, UInt64.toNat_add, UInt64.toNat_ofNat', Nat.add_mod_mod, Nat.mod_eq_of_lt hfits]

/-! ## Runs with a limit -/

/-- The loop of a run: while the count of instructions is less than `limit`
ahead of `start`, it takes a step. -/
inductive Counted (start limit : UInt64) : Machine → Machine × Option Error → Prop where
  | done {m : Machine} (h : ¬ m.cycles - start < limit) : Counted start limit m (m, none)
  | fail {m : Machine} {e : Error} (h : m.cycles - start < limit) (hs : m.step.fault = some e) :
      Counted start limit m (m.step.machine, some e)
  | step {m : Machine} {o : Machine × Option Error} (h : m.cycles - start < limit)
      (hs : m.step.fault = none) (hr : Counted start limit m.step.machine o) :
      Counted start limit m o

section

variable {start limit : UInt64} {o : Machine × Option Error}

theorem counted_of_done (h : ¬ m.cycles - start < limit) :
    Counted start limit m o ↔ o = (m, none) := by
  constructor
  · intro ho
    cases ho with
    | done => rfl
    | fail hlt | step hlt => exact absurd hlt h
  · rintro rfl
    exact .done h

theorem counted_of_fault (h : m.cycles - start < limit) (hs : m.step.fault = some e) :
    Counted start limit m o ↔ o = (m.step.machine, some e) := by
  constructor
  · intro ho
    cases ho with
    | done hdone => exact absurd h hdone
    | fail _ hs' => rw [Option.some.inj (hs.symm.trans hs')]
    | step _ hs' => nomatch hs.symm.trans hs'
  · rintro rfl
    exact .fail h hs

theorem counted_of_ok (h : m.cycles - start < limit) (hs : m.step.fault = none) :
    Counted start limit m o ↔ Counted start limit m.step.machine o := by
  constructor
  · intro ho
    cases ho with
    | done hdone => exact absurd h hdone
    | fail _ hs' => nomatch hs.symm.trans hs'
    | step _ _ hr => exact hr
  · exact .step h hs

/-- As far as the limit is ahead of the count, so many steps the loop takes. -/
theorem counted_iff_steps {n : Nat} (hn : (m.cycles - start).toNat + n = limit.toNat) :
    Counted start limit m o ↔ o = (m.steps n).ending := by
  induction n generalizing m with
  | zero =>
    refine counted_of_done ?_
    rw [UInt64.lt_iff_toNat_lt]
    omega
  | succ n ih =>
    have hlt : m.cycles - start < limit := by
      rw [UInt64.lt_iff_toNat_lt]
      omega
    cases hs : m.step.fault with
    | some e => rw [counted_of_fault hlt hs, ending_succ_of_fault n hs]
    | none =>
      have hnext : (m.step.machine.cycles - start).toNat + n = limit.toNat := by
        have hstep : m.step.machine.cycles - start = (m.cycles - start) + 1 := by
          rw [cycles_of_ok hs]
          grind
        have hlimit := limit.toNat_lt
        -- The difference stays below the limit, so it does not wrap where the count may.
        rw [hstep, UInt64.toNat_add, UInt64.toNat_one]
        omega
      rw [counted_of_ok hlt hs, ending_succ_of_ok n hs]
      exact ih hnext

end

/-- The loop of a run ends in one way, as the run does. -/
theorem counted_iff_run {limit : UInt64} {o : Machine × Option Error} :
    Counted m.cycles limit m o ↔ o = (m.run (some limit)).ending := by
  refine counted_iff_steps ?_
  rw [UInt64.sub_self, UInt64.toNat_zero, Nat.zero_add]

/-- A run that succeeds answers its limit: so far the count of instructions has come. -/
theorem run_answer {limit : UInt64} (h : (m.run (some limit)).fault = none) :
    (m.run (some limit)).machine.cycles - m.cycles = limit := by
  have hcycles := (stepped_of_ok h).cycles
  rw [UInt64.ofNat_toNat] at hcycles
  rw [run, hcycles]
  grind

/-- Two runs one after the other end as one run does. -/
theorem run_add {a b : UInt64} (hfits : a.toNat + b.toNat < 2 ^ 64)
    (h : (m.run (some a)).fault = none) :
    ((m.run (some a)).machine.run (some b)).ending = (m.run (some (a + b))).ending := by
  have hsum : (a + b).toNat = a.toNat + b.toNat := by
    rw [UInt64.toNat_add, Nat.mod_eq_of_lt hfits]
  rw [run, run, run, hsum]
  exact (ending_add_of_ok b.toNat h).symm

end Machine

end R3000
