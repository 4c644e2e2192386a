import R3000.Proofs.Bus.Access
import R3000.Proofs.Cpu.Cop0
import R3000.Proofs.Machine.Operation

/-!
# Agreement of processor and bus

The bus keeps a copy of the isolation bit of Status, and register zero holds
zero. No operation of the host breaks this, whether it succeeds or fails.
-/

namespace R3000

namespace Bus

/-- Accesses leave the isolation of the cache alone. -/
theorem stable_isolated (isolated : Bool) : Stable (·.isolated = isolated) where
  read b t w h := by
    cases t with
    | device p offset => cases p <;> exact h
    | _ => exact h
  write b t w value h := by
    cases t with
    | device p offset => cases p <;> exact h
    | cell r offset => cases r <;> exact h
    | _ => exact h

end Bus

/-- The bus knows the isolation bit of Status, and register zero holds zero. -/
structure Consistent (c : Cpu) (b : Bus) : Prop where
  zero : c.ZeroFixed
  isolated : b.isolated = Status.isolates c.cop0.status

namespace Consistent

variable {c c' : Cpu} {b b' : Bus}

/-- Only the isolation of the bus matters, and of the processor only register
zero and Status. -/
theorem congr (h : Consistent c b) (hz : c'.reg 0 = c.reg 0)
    (hs : Status.isolates c'.cop0.status = Status.isolates c.cop0.status)
    (hb : b'.isolated = b.isolated) : Consistent c' b' :=
  ⟨hz.trans h.zero, by rw [hb, h.isolated, hs]⟩

theorem isolates_enterTrap (c : Cpu) (t : Trap) :
    Status.isolates (c.enterTrap t).cop0.status = Status.isolates c.cop0.status := by
  rw [Cpu.enterTrap, Cpu.setPc, Cop0.status_enterTrap, Status.isolates_push]

/-- A processor that was just switched on agrees with a bus that is not isolated. -/
theorem reset (hb : b.isolated = false) : Consistent Cpu.reset b where
  zero := by rw [Cpu.ZeroFixed]; decide
  isolated := by rw [hb]; decide

theorem setReg (h : Consistent c b) (r : RegisterIndex) (value : UInt32) :
    Consistent (c.setReg r value) b :=
  ⟨h.zero.setReg r value, by rw [Cpu.setReg_cop0, h.isolated]⟩

theorem load {w : Width} {a value : UInt32} (h : Consistent c b)
    (hl : b.load w a = .ok (value, b')) : Consistent c b' :=
  ⟨h.zero, (Bus.stable_isolated _).load hl h.isolated⟩

theorem store {w : Width} {a value : UInt32} (h : Consistent c b)
    (hs : b.store w a value = .ok b') : Consistent c b' :=
  ⟨h.zero, (Bus.stable_isolated _).store hs h.isolated⟩

theorem executes {i : Instruction} {fault? : Option Error} (h : Consistent c b)
    (he : c.Executes b i c' b' fault?) : Consistent c' b' := by
  cases he with
  | register value => exact h.setReg _ value
  | hiLo | transfer => exact h.congr rfl rfl rfl
  | linkTransfer => exact (h.setReg _ c.nextPc).congr rfl rfl rfl
  | trap => exact h.congr rfl (isolates_enterTrap ..) rfl
  | load kept hl => exact (h.load hl).setReg _ kept
  | store hs => exact h.store hs
  | update hl hs => exact (h.load hl).store hs
  | system value hr => exact h.congr rfl (by rw [Cop0.status_write _ _ _ hr]) rfl
  -- The one write that changes isolation tells the bus so.
  | systemStatus => exact ⟨h.zero, rfl⟩
  | leave => exact h.congr rfl (by rw [Cop0.status_leaveTrap, Status.isolates_pop]) rfl
  | updateFault hl => exact h.load hl
  | _ => exact h

theorem fetched (h : Consistent c b) (word : UInt32) : Consistent (c.fetched word) b :=
  h.congr rfl rfl rfl

theorem step (h : Consistent c b) : Consistent (c.step b).cpu (c.step b).bus := by
  rcases c.step_cases b with ⟨e, -, hcpu, hbus, -⟩ | ⟨word, b₁, hl, fault?, he, -⟩
  · rw [hcpu, hbus]
    exact h.congr rfl rfl rfl
  · exact ((h.load hl).fetched word).executes he

theorem tick (h : Consistent c b) : Consistent (Machine.tick c b).cpu (Machine.tick c b).bus :=
  h.congr rfl (congrArg Status.isolates (Cop0.status_setHardwareInterrupt ..)) rfl

theorem advance (h : Consistent c b) (order : TickOrder) :
    Consistent (Machine.advance order c b).cpu (Machine.advance order c b).bus :=
  Machine.advance_preserves (fun _ _ hc => hc.step) (fun _ _ hc => hc.tick) order h

end Consistent

namespace Machine

/-- The processor and the bus of a machine agree. -/
def Coherent (m : Machine) : Prop :=
  Consistent m.cpu m.bus

theorem Coherent.step {m : Machine} (h : m.Coherent) : m.step.machine.Coherent := by
  have ha := Consistent.advance h m.order
  rw [Coherent, step_cpu, step_bus]
  exact ha

theorem Coherent.reset (m : Machine) : m.reset.2.Coherent := by
  simp only [Machine.reset]
  -- Whether kernel calls are reported does not matter.
  split <;> exact Consistent.reset rfl

theorem Coherent.settle {m : Machine} (h : m.Coherent) {notes : List Note}
    {answer : Except Error Bus} (hb : ∀ bus, answer = .ok bus → bus.isolated = m.bus.isolated) :
    (m.settle notes answer).machine.Coherent := by
  cases answer with
  | error e => exact h
  | ok bus => exact h.congr rfl rfl (hb bus rfl)

theorem Coherent.load {m : Machine} (h : m.Coherent) (x : Executable) : (m.load x).Coherent := by
  have hbus : (clearFor (m.bus.copyToRam x.loadAddress x.payload) x).isolated =
      m.bus.isolated := by
    unfold clearFor
    split <;> rfl
  have hstart : Consistent ((m.cpu.setPc x.entry).setReg 28 x.globalPointer) m.bus :=
    (h.congr rfl rfl rfl : Consistent (m.cpu.setPc x.entry) m.bus).setReg 28 _
  have henter : Consistent (enter m.cpu x) m.bus := by
    unfold enter
    simp only
    split
    · exact (hstart.setReg 29 _).setReg 30 _
    · exact hstart
  exact henter.congr rfl rfl hbus

/-- Restoring makes processor and bus agree, whatever the snapshot holds. -/
theorem Coherent.restore {m m' : Machine} {s : Snapshot} (h : m.restore s = .ok m') :
    m'.Coherent := by
  rw [restore_ok h]
  exact ⟨Vector.getElem_set_self .., rfl⟩

theorem Coherent.perform {m : Machine} (h : m.Coherent) (operation : Operation) :
    (m.perform operation).machine.Coherent := by
  cases operation with
  | step => exact h.step
  | steps n => exact steps_preserves (fun _ => step) n h
  | run limit => exact run_preserves (fun _ => step) limit h
  | reset => exact .reset m
  | loadBios image =>
    simp only [Machine.perform, Machine.loadBios, Bus.loadBios]
    cases Bank.ofBytes? Region.bios.size image with
    | none => exact h
    | some bios => exact h.congr rfl rfl rfl
  | load x => exact h.load x
  | busLoad w address =>
    apply h.settle
    intro bus hl
    exact (Bus.stable_isolated m.bus.isolated).loaded hl rfl
  | busStore w address value =>
    apply h.settle
    intro bus hs
    exact (Bus.stable_isolated m.bus.isolated).store hs rfl
  | copyToRam | fillRam | completeDma | takeTriggered | drainQueue =>
    apply h.settle
    intro bus hb
    exact Except.ok.inj hb ▸ rfl
  | restore s =>
    simp only [Machine.perform]
    cases hr : m.restore s with
    | error e => exact h
    | ok m' => exact .restore hr
  | setOrder | startTrace | stopTrace => exact h
  | reportCalls on =>
    simp only [Machine.perform, Machine.reportCalls]
    split <;> exact h

/-- Nothing that a host can do makes processor and bus disagree. -/
theorem Reachable.coherent {m : Machine} (h : m.Reachable) : m.Coherent :=
  h.preserves (Consistent.reset rfl) fun _ operation hm => hm.perform operation

end Machine

end R3000
