import Mathlib.Data.List.Basic
import R3000.CommandLine
import R3000.Proofs.Machine.Counting

/-!
# Runs of the program

The command line takes the steps that it is asked for in chunks, to report its
progress, and each chunk in slices, to write the trace. The host decides what
becomes of the trace and of nothing else: the machine and the error are those
of the same steps taken at once.
-/

namespace R3000

/-! ## What the host decides -/

section

variable {M : Type → Type} [Monad M] {α β γ δ : Type}

/-- Every result of `x` is `g` of something that the host decides. -/
def Yields (x : M α) (g : γ → α) : Prop :=
  ∃ y : M γ, x = g <$> y

variable [LawfulMonad M] {g : γ → α}

theorem yields_pure (g : γ → α) (c : γ) : Yields (pure (g c) : M α) g :=
  ⟨pure c, (map_pure g c).symm⟩

theorem Yields.bind {x : M α} {k : α → M β} {g' : δ → β} (h : Yields x g)
    (hk : ∀ c, Yields (k (g c)) g') : Yields (x >>= k) g' := by
  obtain ⟨y, rfl⟩ := h
  obtain ⟨z, hz⟩ := Classical.axiomOfChoice hk
  refine ⟨y >>= z, ?_⟩
  rw [bind_map_left, map_bind]
  exact bind_congr hz

theorem yields_after (x : M α) {k : α → M β} {g : γ → β} (hk : ∀ a, Yields (k a) g) :
    Yields (x >>= k) g :=
  Yields.bind ⟨x, (id_map x).symm⟩ hk

end

/-! ## Tracers -/

/-- The machine with the tracer `t` in place of its own, if it has one. -/
def Machine.retraced (m : Machine) (t : Tracer) : Machine :=
  { m with tracer := m.tracer.map fun _ => t }

/-- How `p` ends with the tracer `t` in place of its own. -/
def Progress.retraced (p : Progress) (t : Tracer) : Option Error × Machine :=
  (p.fault, p.machine.retraced t)

namespace Machine

variable {m : Machine} {e : Error}

theorem retraced_self (m : Machine) : m.retraced (m.tracer.getD {}) = m := by
  obtain ⟨cpu, bus, cycles, order, tracer, calls⟩ := m
  cases tracer <;> rfl

theorem retraced_retraced (m : Machine) (t t' : Tracer) :
    (m.retraced t).retraced t' = m.retraced t' := by
  rw [retraced, retraced, retraced, Option.map_map]
  rfl

/-- No step can tell what the tracer holds. -/
theorem step_retraced (m : Machine) (t : Tracer) :
    (∃ t', (m.retraced t).step.machine = m.step.machine.retraced t') ∧
      (m.retraced t).step.fault = m.step.fault := by
  obtain ⟨cpu, bus, cycles, order, tracer, calls⟩ := m
  simp only [step, retraced]
  cases (advance order cpu bus).fault with
  | some e => exact ⟨⟨t, rfl⟩, rfl⟩
  | none => cases tracer <;> exact ⟨⟨(t.trace (advance order cpu bus).cpu).2, rfl⟩, rfl⟩

theorem steps_retraced (m : Machine) (t : Tracer) (n : Nat) :
    ((m.retraced t).steps n).retraced = (m.steps n).retraced := by
  obtain ⟨⟨t', hm⟩, hf⟩ := steps_related (R := fun m' m => ∃ t, m' = m.retraced t)
    (by rintro _ m ⟨t, rfl⟩; exact m.step_retraced t) n ⟨t, Eq.refl (m.retraced t)⟩
  funext t''
  rw [Progress.retraced, hf, hm, retraced_retraced, Progress.retraced]

theorem retraced_of_ending {p p' : Progress} (h : p.ending = p'.ending) :
    p.retraced = p'.retraced := by
  obtain ⟨hm, hf⟩ := Prod.mk.inj h
  funext t
  rw [Progress.retraced, hm, hf, Progress.retraced]

/-- Steps end as the first of them do if one of these fails. -/
theorem retraced_of_fault {a n : Nat} (ha : a ≤ n) (h : (m.steps a).fault = some e) :
    (m.steps n).retraced = (m.steps a).retraced := by
  obtain ⟨b, rfl⟩ := Nat.exists_eq_add_of_le ha
  exact retraced_of_ending (ending_add_of_fault b h)

/-- Steps end as the later of them do if the first succeed, whatever becomes of
the tracer between them. -/
theorem retraced_of_ok {a n : Nat} (ha : a ≤ n) (h : (m.steps a).fault = none) (t : Tracer) :
    (((m.steps a).machine.retraced t).steps (n - a)).retraced = (m.steps n).retraced := by
  obtain ⟨b, rfl⟩ := Nat.exists_eq_add_of_le ha
  rw [steps_retraced, Nat.add_sub_cancel_left]
  exact (retraced_of_ending (ending_add_of_ok b h)).symm

end Machine

section

variable {M : Type → Type} [Monad M] [LawfulMonad M]

theorem yields_fault {p : Progress} {e : Error} (h : p.fault = some e) (t : Tracer) :
    Yields (pure (some e, p.machine.retraced t) : M _) p.retraced := by
  rw [← h]
  exact yields_pure p.retraced t

theorem yields_done (m : Machine) : Yields (pure (none, m) : M _) (m.steps 0).retraced := by
  have h : Yields (pure (none, m.retraced (m.tracer.getD {})) : M _) (m.steps 0).retraced :=
    yields_pure (m.steps 0).retraced (m.tracer.getD {})
  rwa [m.retraced_self] at h

end

namespace CommandLine

open Machine

/-! ## Slices and chunks -/

section

variable {M : Type → Type} [Monad M] [LawfulMonad M] [Host M]

theorem yields_writeTrace (trace : Option String) (machine : Machine) :
    Yields (writeTrace trace machine : M Machine) machine.retraced := by
  unfold writeTrace
  split
  · rename_i t ht
    have hsome (t' : Tracer) : { machine with tracer := some t' } = machine.retraced t' := by
      rw [retraced, ht]
      rfl
    refine yields_after _ fun answer => ?_
    cases answer with
    | ok _ | error _ =>
      simp only [hsome]
      exact yields_pure machine.retraced _
  · have h := yields_pure (M := M) machine.retraced (machine.tracer.getD {})
    rwa [machine.retraced_self] at h

theorem yields_runSlices (f : LogFilter) (trace : Option String) {fuel left : Nat}
    (machine : Machine) (hfuel : left ≤ fuel * sliceSize) :
    Yields (runSlices f trace fuel left machine : M _) (machine.steps left).retraced := by
  induction fuel generalizing left machine with
  | zero =>
    obtain rfl : left = 0 := by omega
    exact yields_done machine
  | succ fuel ih =>
    unfold runSlices
    split
    · rename_i hleft
      subst hleft
      exact yields_done machine
    · have hle : min left sliceSize ≤ left := Nat.min_le_left ..
      refine yields_after _ fun _ => (yields_writeTrace trace _).bind fun t => ?_
      cases hf : (machine.steps (min left sliceSize)).fault with
      | some e =>
        rw [retraced_of_fault hle hf]
        exact yields_fault hf t
      | none =>
        -- The next slice may find another tracer than the steps taken at once would.
        have hrest : left - sliceSize = left - min left sliceSize := by omega
        rw [← retraced_of_ok hle hf t, ← hrest]
        exact ih _ (by rw [Nat.succ_mul] at hfuel; omega)

theorem yields_runFor (f : LogFilter) (trace : Option String) (count : Nat) (machine : Machine) :
    Yields (runFor f trace count machine : M _) (machine.steps count).retraced := by
  refine yields_runSlices f trace machine (Nat.le_of_lt ?_)
  exact (Nat.div_lt_iff_lt_mul (by decide)).mp (Nat.lt_succ_self _)

theorem chunkOf_pos (total : Nat) : 0 < chunkOf total :=
  Nat.le_max_right ..

theorem yields_runChunks (f : LogFilter) (trace : Option String) {total fuel done : Nat}
    (machine : Machine) (hfuel : total - done ≤ fuel * chunkOf total) :
    Yields (runChunks f trace total fuel done machine : M _)
      (machine.steps (total - done)).retraced := by
  induction fuel generalizing done machine with
  | zero =>
    have hdone : total - done = 0 := by omega
    rw [hdone]
    exact yields_done machine
  | succ fuel ih =>
    unfold runChunks
    split
    · rename_i hdone
      rw [Nat.sub_eq_zero_of_le hdone]
      exact yields_done machine
    · have hle : min (chunkOf total) (total - done) ≤ total - done := Nat.min_le_right ..
      refine (yields_runFor f trace _ machine).bind fun t => ?_
      rw [Progress.retraced]
      cases hf : (machine.steps (min (chunkOf total) (total - done))).fault with
      | some e =>
        rw [retraced_of_fault hle hf]
        exact yields_fault hf t
      | none =>
        refine yields_after _ fun _ => ?_
        rw [← retraced_of_ok hle hf t, Nat.sub_sub]
        exact ih _ (by rw [Nat.succ_mul] at hfuel; omega)

/-- The program runs as the machine does. -/
theorem yields_run (f : LogFilter) (s : Settings) (machine : Machine) :
    Yields (run f s machine : M _) (machine.run s.instructions).retraced := by
  unfold run
  refine yields_after _ fun _ => ?_
  cases s.instructions with
  | none => exact yields_runFor f s.trace unlimited machine
  | some total =>
    refine yields_runChunks f s.trace machine ?_
    refine Nat.le_of_lt ((Nat.div_lt_iff_lt_mul (chunkOf_pos _)).mp ?_)
    exact Nat.lt_succ_self _

end

/-! ## Counting in words -/

/-- How many steps the next of the chunks of `total` steps has when `done` are done. -/
def chunkAfter (total done : UInt64) : UInt64 :=
  min (max (total / 10) 1) (total - done)

/-- The loop over chunks: while fewer than `total` steps are done, it runs for a
chunk and adds what this run answers. -/
inductive Chunked (total : UInt64) : UInt64 → Machine → Machine × Option Error → Prop where
  | done {done : UInt64} {m : Machine} (h : ¬ done < total) : Chunked total done m (m, none)
  | fail {done : UInt64} {m m' : Machine} {e : Error} (h : done < total)
      (hr : Counted m.cycles (chunkAfter total done) m (m', some e)) :
      Chunked total done m (m', some e)
  | chunk {done : UInt64} {m m₁ : Machine} {o : Machine × Option Error} (h : done < total)
      (hr : Counted m.cycles (chunkAfter total done) m (m₁, none))
      (hrest : Chunked total (done + (m₁.cycles - m.cycles)) m₁ o) : Chunked total done m o

variable {m : Machine} {total done : UInt64} {e : Error} {o : Machine × Option Error}

/-- A chunk has at least one step and at most those that are left. -/
theorem chunkAfter_bounds (h : done < total) :
    0 < (chunkAfter total done).toNat ∧
      done.toNat + (chunkAfter total done).toNat ≤ total.toNat := by
  have hleft := UInt64.toNat_sub_of_le total done (UInt64.le_of_lt h)
  rw [UInt64.lt_iff_toNat_lt] at h
  rw [chunkAfter, UInt64.toNat_min, UInt64.toNat_max, hleft, UInt64.toNat_one]
  omega

theorem chunked_of_done (h : ¬ done < total) : Chunked total done m o ↔ o = (m, none) := by
  constructor
  · intro ho
    cases ho with
    | done => rfl
    | fail hlt | chunk hlt => exact absurd hlt h
  · rintro rfl
    exact .done h

/-- A chunk that fails ends the loop. -/
theorem chunked_of_fault (h : done < total)
    (hf : (m.run (some (chunkAfter total done))).fault = some e) :
    Chunked total done m o ↔ o = (m.run (some (chunkAfter total done))).ending := by
  constructor
  · intro ho
    cases ho with
    | done hdone => exact absurd h hdone
    | fail _ hr => exact counted_iff_run.mp hr
    | chunk _ hr =>
      obtain ⟨-, hok⟩ := Prod.mk.inj (counted_iff_run.mp hr)
      nomatch hok.trans hf
  · rintro rfl
    have hr := counted_iff_run.mpr (Eq.refl (m.run (some (chunkAfter total done))).ending)
    rw [Progress.ending, hf] at hr ⊢
    exact .fail h hr

/-- After a chunk that succeeds the loop goes on, with as many steps done as the chunk has. -/
theorem chunked_of_ok (h : done < total)
    (hf : (m.run (some (chunkAfter total done))).fault = none) :
    Chunked total done m o ↔
      Chunked total (done + chunkAfter total done)
        (m.run (some (chunkAfter total done))).machine o := by
  have hanswer := run_answer hf
  constructor
  · intro ho
    cases ho with
    | done hdone => exact absurd h hdone
    | fail _ hr =>
      obtain ⟨-, hfail⟩ := Prod.mk.inj (counted_iff_run.mp hr)
      nomatch hfail.trans hf
    | chunk _ hr hrest =>
      -- What the loop adds is a difference of two counts, and that is the chunk.
      obtain ⟨hm, -⟩ := Prod.mk.inj (counted_iff_run.mp hr)
      rw [hm, hanswer] at hrest
      exact hrest
  · intro hrest
    have hr := counted_iff_run.mpr (Eq.refl (m.run (some (chunkAfter total done))).ending)
    rw [Progress.ending, hf] at hr
    refine .chunk h hr ?_
    rw [hanswer]
    exact hrest

/-- As many steps as are not done yet the loop takes. -/
theorem chunked_iff_steps {n : Nat} (hn : done.toNat + n = total.toNat) :
    Chunked total done m o ↔ o = (m.steps n).ending := by
  -- A chunk is at least one step, so fewer are left after it.
  induction n using Nat.strongRecOn generalizing done m with
  | ind n ih =>
    by_cases hlt : done < total
    · obtain ⟨hpos, hle⟩ := chunkAfter_bounds hlt
      have hsplit : n = (chunkAfter total done).toNat + (n - (chunkAfter total done).toNat) := by
        omega
      cases hf : (m.run (some (chunkAfter total done))).fault with
      | some e =>
        rw [chunked_of_fault hlt hf, hsplit, ending_add_of_fault _ hf]
        rfl
      | none =>
        have hdone : (done + chunkAfter total done).toNat +
            (n - (chunkAfter total done).toNat) = total.toNat := by
          have htotal := total.toNat_lt
          rw [UInt64.toNat_add, Nat.mod_eq_of_lt (by omega)]
          omega
        rw [chunked_of_ok hlt hf, ih _ (by omega) hdone, hsplit, ending_add_of_ok _ hf,
          Nat.add_sub_cancel_left]
        rfl
    · have hzero : n = 0 := by
        rw [UInt64.lt_iff_toNat_lt] at hlt
        omega
      subst hzero
      exact chunked_of_done hlt

/-! ## Runs agree -/

/-- The ways to take `total` steps from `m` end alike: with all of the steps
taken, or with the error of the first step that fails. -/
structure Agrees (m : Machine) (total : UInt64) : Prop where
  chunks : ∀ o, Chunked total 0 m o ↔ o = (m.steps total.toNat).ending
  program : ∀ {M : Type → Type} [Monad M] [LawfulMonad M] [Host M] (f : LogFilter) (s : Settings),
    s.instructions = some total → Yields (run f s m : M _) (m.steps total.toNat).retraced
  success : (m.steps total.toNat).fault = none →
    Stepped total.toNat m (m.steps total.toNat).machine ∧
      (m.steps total.toNat).machine.cycles.toNat = m.cycles.toNat + total.toNat
  failure : ∀ e, (m.steps total.toNat).fault = some e →
    ∃ k < total.toNat, ∃ last, Stepped k m last ∧ last.step.fault = some e ∧
      (m.steps total.toNat).machine = last.step.machine ∧
      (m.steps total.toNat).machine.cycles.toNat = m.cycles.toNat + k

theorem agrees (hfits : m.cycles.toNat + total.toNat < 2 ^ 64) : Agrees m total where
  chunks _ := chunked_iff_steps (by rw [UInt64.toNat_zero, Nat.zero_add])
  program {M} _ _ _ f s hs := by
    have h := yields_run (M := M) f s m
    rw [hs] at h
    exact h
  success h := ⟨stepped_of_ok h, (stepped_of_ok h).cycles_toNat hfits⟩
  failure e h := by
    obtain ⟨k, hk, last, hlast, he, hend⟩ := stepped_of_fault h
    refine ⟨k, hk, last, hlast, he, hend, ?_⟩
    rw [hend, cycles_of_fault he]
    exact hlast.cycles_toNat (by omega)

/-- However a machine is made to take its steps, by the loop over chunks, by the
program, at once or in two runs, it comes to the same machine and error, and the
count of instructions has grown by the steps that succeeded. -/
theorem runs_agree (m : Machine) :
    (∀ total : UInt64, m.cycles.toNat + total.toNat < 2 ^ 64 → Agrees m total) ∧
      (∀ a o, Counted m.cycles a m o ↔ o = (m.run (some a)).ending) ∧
      (∀ a, (m.run (some a)).fault = none →
        (m.run (some a)).machine.cycles - m.cycles = a) ∧
      ∀ a b, a.toNat + b.toNat < 2 ^ 64 → (m.run (some a)).fault = none →
        ((m.run (some a)).machine.run (some b)).ending = (m.run (some (a + b))).ending :=
  ⟨fun _ => agrees, fun _ _ => counted_iff_run, fun _ => run_answer, fun _ _ => run_add⟩

/-- A host that has no files and shows nothing. -/
instance silentHost : Host Id where
  getVariable _ := none
  read _ := .error .notFound
  create _ := .error .notFound
  append _ _ := .error .notFound
  log _ := ()
  print _ := ()

/-- A machine in front of three registers that hold zero; behind them nothing answers. -/
def beforeHole : Machine :=
  { cpu := Cpu.reset.setPc 0x1F801080 }

/-- Of twenty-five steps in chunks of two, the fourth fails. -/
theorem runs_agree_beforeHole :
    Agrees beforeHole 25 ∧ (beforeHole.steps 25).fault =
        some (.executionFault 0x1F80108C none (.unmappedIo 0x1F80108C 4)) ∧
      (beforeHole.steps 25).machine.cycles = 3 ∧
      Yields (run { directives := [] } { instructions := some 25 } beforeHole : Id _)
        (beforeHole.steps 25).retraced ∧
      (beforeHole.run (some 1)).fault = none ∧
      ((beforeHole.run (some 1)).machine.run (some 2)).ending =
        (beforeHole.run (some 3)).ending := by
  obtain ⟨hagrees, -, -, hadd⟩ := runs_agree beforeHole
  have h := hagrees 25 (by decide)
  have hok : (beforeHole.run (some 1)).fault = none := rfl
  exact ⟨h, rfl, rfl, h.program _ _ rfl, hok, hadd 1 2 (by decide) hok⟩

end CommandLine

end R3000
