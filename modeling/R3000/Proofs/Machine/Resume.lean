import R3000.Proofs.Machine.Consistency
import R3000.Proofs.Machine.Restoring

/-!
# Saving and going on

A snapshot holds neither the content of the BIOS nor the isolation of the
cache, and restoring overrules register zero. For a machine that a host can
reach nothing is lost by this: restored elsewhere, the snapshot runs on as the
machine itself would have.
-/

namespace R3000

namespace Machine

/-! ## Tracers do not matter to steps -/

/-- The machine with no tracer attached. -/
def untraced (m : Machine) : Machine :=
  { m with tracer := none, calls := none }

theorem step_untraced (m : Machine) :
    m.untraced.step.machine = m.step.machine.untraced ∧
      m.untraced.step.fault = m.step.fault := by
  simp only [step, untraced, observe, traceStep]
  cases (advance m.order m.cpu m.bus).fault <;> exact ⟨rfl, rfl⟩

theorem steps_untraced (n : Nat) (m : Machine) :
    (m.untraced.steps n).machine = (m.steps n).machine.untraced ∧
      (m.untraced.steps n).fault = (m.steps n).fault := by
  refine steps_related (R := fun m' m => m' = m.untraced) ?_ n rfl
  rintro _ m rfl
  exact step_untraced m

/-- For every count of steps, `m` and `m'` end with the same error or none, and
with the same processor, bus and count of instructions. -/
structure RunsLike (m m' : Machine) : Prop where
  fault : ∀ n, (m.steps n).fault = (m'.steps n).fault
  cpu : ∀ n, (m.steps n).machine.cpu = (m'.steps n).machine.cpu
  bus : ∀ n, (m.steps n).machine.bus = (m'.steps n).machine.bus
  cycles : ∀ n, (m.steps n).machine.cycles = (m'.steps n).machine.cycles

/-- Machines that differ in their tracers only run alike. -/
theorem RunsLike.of_untraced {m m' : Machine} (h : m.untraced = m'.untraced) : m.RunsLike m' := by
  have hm (n : Nat) : (m.steps n).machine.untraced = (m'.steps n).machine.untraced := by
    rw [← (steps_untraced n m).1, h, (steps_untraced n m').1]
  exact {
    fault := fun n => by rw [← (steps_untraced n m).2, h, (steps_untraced n m').2]
    cpu := fun n => congrArg (·.cpu) (hm n)
    bus := fun n => congrArg (·.bus) (hm n)
    cycles := fun n => congrArg (·.cycles) (hm n) }

end Machine

/-! ## What a snapshot keeps -/

namespace Snapshot

variable (c : Cpu) (b : Bus) (cycles : UInt64) (timestamp : Timestamp)

theorem regions_capture {r : Region} (hr : r ≠ .bios) :
    (capture c b cycles timestamp).regions[r.index]? = some (b.memory.bank r).bytes := by
  cases r with
  | bios => exact absurd rfl hr
  | _ => rfl

/-- A captured snapshot fits every machine. -/
theorem fits_capture : (capture c b cycles timestamp).Fits where
  version := rfl
  count := rfl
  sizes r bytes hr hbytes := by
    rw [regions_capture c b cycles timestamp hr] at hbytes
    rw [← Option.some.inj hbytes, Bank.size_eq]

/-- A region's content comes back from a captured snapshot. -/
theorem bankOr_capture {r : Region} (hr : r ≠ .bios) (old : Bank r.size) :
    (capture c b cycles timestamp).bankOr r old = b.memory.bank r := by
  rw [bankOr, regions_capture c b cycles timestamp hr, Option.bind_some, Bank.ofBytes?,
    dif_pos (b.memory.bank r).size_eq]
  rfl

theorem memory_capture {m : Memory} (hm : m.bios = b.memory.bios) :
    (capture c b cycles timestamp).memory m = b.memory := by
  apply Memory.ext_bank
  intro r
  cases r with
  | bios => exact hm
  | ram | expansion1 | scratchpad | ports | expansion2 | expansion3 =>
    exact bankOr_capture c b cycles timestamp (by decide) _

variable {c b}

/-- Isolation is found again in Status. -/
theorem restoredBus_capture (h : Consistent c b) {old : Bus}
    (hb : old.memory.bios = b.memory.bios) :
    (capture c b cycles timestamp).restoredBus old = b := by
  have hm := memory_capture c b cycles timestamp hb
  have hi : Status.isolates (capture c b cycles timestamp).cpu.cop0.status = b.isolated :=
    h.isolated.symm
  rw [restoredBus, hm, hi]
  rfl

/-- Register zero held zero already. -/
theorem restoredCpu_capture (h : Consistent c b) :
    (capture c b cycles timestamp).restoredCpu = c := by
  have hz : c.registers.set 0 0 = c.registers := by
    apply Vector.ext
    intro i hi
    rw [Vector.getElem_set]
    split
    · rename_i h0
      subst h0
      exact h.zero.symm
    · rfl
  rw [restoredCpu]
  exact congrArg (fun registers => { c with registers }) hz

end Snapshot

namespace Machine

/-- Restoring takes over what was captured of a processor and a bus that agree. -/
theorem restore_capture {m : Machine} {c : Cpu} {b : Bus} (hc : Consistent c b)
    (hbios : m.bus.memory.bios = b.memory.bios) (cycles : UInt64) (timestamp : Timestamp) :
    m.restore (.capture c b cycles timestamp) = .ok { m with cpu := c, bus := b, cycles } := by
  rw [restore, (Snapshot.fits_capture ..).check, Snapshot.restoredCpu_capture _ _ hc,
    Snapshot.restoredBus_capture _ _ hc hbios]
  rfl

/-- A snapshot of a reachable machine can be restored on every machine with the
same BIOS, which then runs on as the saved one would have. -/
theorem restore_save {m other : Machine} (h : m.Reachable)
    (hbios : other.bus.memory.bios = m.bus.memory.bios) (horder : other.order = m.order)
    (timestamp : Timestamp) :
    ∃ restored, other.restore (m.save timestamp) = .ok restored ∧ restored.RunsLike m := by
  refine ⟨{ other with cpu := m.cpu, bus := m.bus, cycles := m.cycles }, ?_, ?_⟩
  · exact restore_capture h.coherent hbios m.cycles timestamp
  · apply RunsLike.of_untraced
    rw [untraced, untraced, horder]

/-- Ten steps into a program that a timer accompanies, taken over by a machine
that was just switched on and traces. -/
theorem restore_save_timer :
    ∃ m other restored : Machine, m = performAll {} [.busStore .word 0x1F801104 8, .steps 10] ∧
      other = { bus := { memory := { Memory.blank with bios := m.bus.memory.bios } }
                order := m.order, tracer := some {} } ∧
      m.Reachable ∧ other.restore (m.save ⟨0, 0⟩) = .ok restored ∧ restored.RunsLike m := by
  -- The steps are not to be computed, so the machine stays a variable.
  have h (m : Machine) (hm : m.Reachable) :=
    @restore_save m { bus := { memory := { Memory.blank with bios := m.bus.memory.bios } }
                      order := m.order, tracer := some {} } hm rfl rfl ⟨0, 0⟩
  obtain ⟨restored, hr⟩ := h _ ⟨_, rfl⟩
  exact ⟨_, _, restored, rfl, rfl, ⟨_, rfl⟩, hr⟩

end Machine

end R3000
