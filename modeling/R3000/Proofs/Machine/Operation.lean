import R3000.Machine
import R3000.Proofs.Bus.Access

/-!
# Operations of the host

`Operation` lists what a host can do with a machine, and `Reachable` says which
machines it can get so from one that was just switched on. A property of every
reachable machine is proved for the first one and for a single operation; runs
of many steps are reduced to single steps here, once. A property of the bus
alone is `Kept` by every operation but a few if what can happen to a bus keeps it.
-/

namespace R3000

/-- What a host can do with a machine. -/
inductive Operation where
  | step
  | steps (n : Nat)
  | run (limit : Option UInt64)
  | reset
  | loadBios (image : ByteArray)
  | load (x : Executable)
  | copyToRam (address : UInt32) (data : ByteArray)
  | fillRam (address count : UInt32) (value : UInt8)
  | busLoad (w : Width) (address : UInt32)
  | busStore (w : Width) (address value : UInt32)
  | completeDma (ch : Fin 7)
  | takeTriggered
  | drainQueue
  | restore (s : Snapshot)
  | setOrder (order : TickOrder)
  | startTrace (medium : Tracer)
  | stopTrace
  | reportCalls (on : Bool)

namespace Machine

/-- Put what an operation on the bus answered in the bus's place, and report `notes`. -/
def settle (m : Machine) (notes : List Note) : Except Error Bus → Progress
  | .error e => { machine := m, fault := some e, notes }
  | .ok bus => { machine := { m with bus }, notes }

/-- Do an operation. One that fails may still have changed the machine. -/
def perform (m : Machine) : Operation → Progress
  | .step => m.step
  | .steps n => m.steps n
  | .run limit => m.run limit
  | .reset => { machine := m.reset.2, notes := m.reset.1 }
  | .loadBios image =>
    match m.loadBios image with
    | .error e => { machine := m, fault := some e }
    | .ok m => { machine := m }
  | .load x => { machine := m.load x, notes := loadNotes x }
  | .copyToRam address data => m.settle [] (.ok (m.bus.copyToRam address data))
  | .fillRam address count value =>
    m.settle (Bus.fillNotes address count) (.ok (m.bus.fillRam address count value))
  | .busLoad w address => m.settle (Bus.loadNotes w address) ((m.bus.load w address).map (·.2))
  | .busStore w address value =>
    m.settle (m.bus.storeNotes w address value) (m.bus.store w address value)
  | .completeDma ch => m.settle (m.bus.completeNotes ch) (.ok (m.bus.completeDma ch))
  | .takeTriggered => m.settle [] (.ok { m.bus with dma := m.bus.dma.takeTriggered.2 })
  | .drainQueue => m.settle [] (.ok { m.bus with gpu := m.bus.gpu.drain.2 })
  | .restore s =>
    match m.restore s with
    | .error e => { machine := m, fault := some e }
    | .ok restored => { machine := restored, notes := s.restoreNotes m.bus }
  | .setOrder order => { machine := { m with order } }
  | .startTrace medium => { machine := m.startTrace medium }
  | .stopTrace => { machine := m.stopTrace, notes := m.stopTraceNotes }
  | .reportCalls on => { machine := (m.reportCalls on).2, notes := (m.reportCalls on).1 }

/-- Do operations one after another, whether or not they fail. -/
def performAll (m : Machine) (operations : List Operation) : Machine :=
  operations.foldl (fun m operation => (m.perform operation).machine) m

/-- What a host can make of a machine that was just switched on. -/
def Reachable (m : Machine) : Prop :=
  ∃ operations, m = performAll {} operations

/-- What a host can make of it when the only snapshots it restores are saved
from machines that it got to in the same way. -/
inductive Attainable : Machine → Prop where
  | start : Attainable {}
  | perform {m : Machine} (operation : Operation) (hm : Attainable m)
      (ho : ∀ s, operation ≠ .restore s) : Attainable (m.perform operation).machine
  | restore {m saved : Machine} (timestamp : Timestamp) (hm : Attainable m)
      (hs : Attainable saved) : Attainable (m.perform (.restore (saved.save timestamp))).machine

/-- What restoring a snapshot makes of a machine, when it succeeds. -/
theorem restore_ok {m m' : Machine} {s : Snapshot} (h : m.restore s = .ok m') :
    m' = { m with cpu := s.restoredCpu, bus := s.restoredBus m.bus, cycles := s.cycles } := by
  rw [restore] at h
  cases hc : s.check with
  | error e =>
    rw [hc] at h
    nomatch h
  | ok _ =>
    rw [hc] at h
    exact (Except.ok.inj h).symm

/-! ## One step -/

@[simp] theorem tick_cpu (c : Cpu) (b : Bus) :
    (tick c b).cpu = c.setHardwareInterrupt 0 b.tick.1 :=
  rfl

@[simp] theorem tick_bus (c : Cpu) (b : Bus) : (tick c b).bus = b.tick.2 :=
  rfl

@[simp] theorem tick_fault (c : Cpu) (b : Bus) : (tick c b).fault = none :=
  rfl

/-- When the devices come first, the instruction is carried out on what they left. -/
theorem advance_peripheralsFirst (c : Cpu) (b : Bus) :
    advance .peripheralsFirst c b =
      ((tick c b).cpu.step (tick c b).bus).after (tick c b).notes :=
  rfl

/-- An instruction that comes first and succeeds is followed by the devices. -/
theorem advance_cpuFirst_of_ok {c : Cpu} {b : Bus} (h : (c.step b).fault = none) :
    advance .cpuFirst c b = (tick (c.step b).cpu (c.step b).bus).after (c.step b).notes := by
  simp only [advance, h]

/-- An instruction that comes first and fails is followed by nothing. -/
theorem advance_cpuFirst_of_fault {c : Cpu} {b : Bus} {e : Error}
    (h : (c.step b).fault = some e) : advance .cpuFirst c b = c.step b := by
  simp only [advance, h]

/-- The devices never fail. -/
theorem advance_cpuFirst_fault (c : Cpu) (b : Bus) :
    (advance .cpuFirst c b).fault = (c.step b).fault := by
  cases h : (c.step b).fault with
  | some e => rw [advance_cpuFirst_of_fault h, h]
  | none => rw [advance_cpuFirst_of_ok h, Outcome.after_fault, tick_fault]

/-- What instructions and ticks preserve, they preserve in either order. -/
theorem advance_preserves {P : Cpu → Bus → Prop}
    (hstep : ∀ c b, P c b → P (c.step b).cpu (c.step b).bus)
    (htick : ∀ c b, P c b → P (tick c b).cpu (tick c b).bus) (order : TickOrder) {c : Cpu}
    {b : Bus} (h : P c b) : P (advance order c b).cpu (advance order c b).bus := by
  cases order with
  | cpuFirst =>
    cases hs : (c.step b).fault with
    | some e =>
      rw [advance_cpuFirst_of_fault hs]
      exact hstep c b h
    | none =>
      rw [advance_cpuFirst_of_ok hs, Outcome.after_cpu, Outcome.after_bus]
      exact htick _ _ (hstep c b h)
  | peripheralsFirst =>
    rw [advance_peripheralsFirst, Outcome.after_cpu, Outcome.after_bus]
    exact hstep _ _ (htick c b h)

section

variable (m : Machine)

theorem step_cpu : m.step.machine.cpu = (advance m.order m.cpu m.bus).cpu := by
  simp only [step]
  split <;> rfl

theorem step_bus : m.step.machine.bus = (advance m.order m.cpu m.bus).bus := by
  simp only [step]
  split <;> rfl

theorem step_fault : m.step.fault = (advance m.order m.cpu m.bus).fault := by
  simp only [step]
  split <;> rename_i h <;> exact h.symm

theorem step_order : m.step.machine.order = m.order := by
  simp only [step]
  split <;> rfl

/-- A step that fails is not counted. -/
theorem step_cycles :
    m.step.machine.cycles = if m.step.fault.isSome then m.cycles else m.cycles + 1 := by
  rw [step_fault]
  simp only [step]
  split <;> rename_i h <;> rw [h] <;> rfl

end

/-- What accesses, changes of isolation and ticks preserve, a step preserves. -/
theorem step_preserves_bus {P : Bus → Prop} (hP : Bus.Stable P)
    (hi : ∀ b isolated, P b → P (b.setIsolated isolated)) (ht : ∀ b, P b → P b.tick.2)
    (m : Machine) (hm : P m.bus) : P m.step.machine.bus := by
  rw [step_bus]
  exact advance_preserves (P := fun _ b => P b) (fun c _ h => hP.step hi c h)
    (fun _ _ h => ht _ h) m.order hm

/-! ## Steps -/

theorem stepsFrom_notes (n : Nat) (m : Machine) (notes : List Note) :
    (stepsFrom n m notes).machine = (m.steps n).machine ∧
      (stepsFrom n m notes).fault = (m.steps n).fault := by
  -- The notes are carried along, and nothing ever looks at them.
  induction n generalizing m notes with
  | zero => exact ⟨rfl, rfl⟩
  | succ n ih =>
    simp only [steps, stepsFrom]
    cases m.step.fault with
    | some e => exact ⟨rfl, rfl⟩
    | none =>
      have h := ih m.step.machine (m.step.notes.reverseAux notes)
      have h' := ih m.step.machine (m.step.notes.reverseAux [])
      exact ⟨h.1.trans h'.1.symm, h.2.trans h'.2.symm⟩

/-- A first step that fails ends the steps. -/
theorem steps_succ_of_fault {m : Machine} {e : Error} (n : Nat) (h : m.step.fault = some e) :
    (m.steps (n + 1)).machine = m.step.machine ∧ (m.steps (n + 1)).fault = some e := by
  simp only [steps, stepsFrom, h, and_self]

/-- After a first step that succeeds come the other steps. -/
theorem steps_succ_of_ok {m : Machine} (n : Nat) (h : m.step.fault = none) :
    (m.steps (n + 1)).machine = (m.step.machine.steps n).machine ∧
      (m.steps (n + 1)).fault = (m.step.machine.steps n).fault := by
  simp only [steps, stepsFrom, h]
  exact stepsFrom_notes ..

/-- What every step preserves, steps preserve. -/
theorem steps_preserves {P : Machine → Prop} (hstep : ∀ m, P m → P m.step.machine) (n : Nat)
    {m : Machine} (hm : P m) : P (m.steps n).machine := by
  induction n generalizing m with
  | zero => exact hm
  | succ n ih =>
    cases h : m.step.fault with
    | some e =>
      rw [(steps_succ_of_fault n h).1]
      exact hstep m hm
    | none =>
      rw [(steps_succ_of_ok n h).1]
      exact ih (hstep m hm)

/-- Machines that single steps keep related, steps keep related. -/
theorem steps_related {R : Machine → Machine → Prop}
    (hR : ∀ m m', R m m' → R m.step.machine m'.step.machine ∧ m.step.fault = m'.step.fault)
    (n : Nat) {m m' : Machine} (h : R m m') :
    R (m.steps n).machine (m'.steps n).machine ∧ (m.steps n).fault = (m'.steps n).fault := by
  induction n generalizing m m' with
  | zero => exact ⟨h, rfl⟩
  | succ n ih =>
    obtain ⟨hm, hf⟩ := hR m m' h
    cases hs : m.step.fault with
    | some e =>
      obtain ⟨he, hfe⟩ := steps_succ_of_fault n hs
      obtain ⟨he', hfe'⟩ := steps_succ_of_fault n (hf.symm.trans hs)
      rw [he, he', hfe, hfe']
      exact ⟨hm, rfl⟩
    | none =>
      obtain ⟨he, hfe⟩ := steps_succ_of_ok n hs
      obtain ⟨he', hfe'⟩ := steps_succ_of_ok n (hf.symm.trans hs)
      rw [he, he', hfe, hfe']
      exact ih hm

theorem run_preserves {P : Machine → Prop} (hstep : ∀ m, P m → P m.step.machine)
    (limit : Option UInt64) {m : Machine} (hm : P m) : P (m.run limit).machine := by
  cases limit <;> exact steps_preserves hstep _ hm

/-! ## Operations and the bus -/

/-- Of what can happen to a bus, only a reset, a snapshot and an image of the
BIOS may touch what `P` is about. -/
structure Kept (P : Bus → Prop) : Prop extends Bus.Stable P where
  isolate : ∀ b isolated, P b → P (b.setIsolated isolated)
  tick : ∀ b, P b → P b.tick.2
  copyToRam : ∀ b address data, P b → P (b.copyToRam address data)
  fillRam : ∀ b address count value, P b → P (b.fillRam address count value)
  completeDma : ∀ b ch, P b → P (b.completeDma ch)
  takeTriggered : ∀ b, P b → P { b with dma := b.dma.takeTriggered.2 }
  drainQueue : ∀ b, P b → P { b with gpu := b.gpu.drain.2 }

theorem settle_preserves {P : Bus → Prop} {m : Machine} (hm : P m.bus) {notes : List Note}
    {answer : Except Error Bus} (h : ∀ b, answer = .ok b → P b) :
    P (m.settle notes answer).machine.bus := by
  cases answer with
  | error e => exact hm
  | ok b => exact h b rfl

theorem Kept.perform {P : Bus → Prop} (hP : Kept P) {m : Machine} (operation : Operation)
    (hm : P m.bus) (hreset : operation = .reset → P m.bus.reset)
    (hload : ∀ image b, operation = .loadBios image → m.bus.loadBios image = .ok b → P b)
    (hrestore : ∀ s, operation = .restore s → P (s.restoredBus m.bus)) :
    P (m.perform operation).machine.bus := by
  have hstep (m : Machine) : P m.bus → P m.step.machine.bus :=
    step_preserves_bus hP.toStable hP.isolate hP.tick m
  cases operation with
  | step => exact hstep m hm
  | steps n => exact steps_preserves (P := (P ·.bus)) hstep n hm
  | run limit => exact run_preserves (P := (P ·.bus)) hstep limit hm
  | reset =>
    simp only [Machine.perform, Machine.reset]
    cases m.calls <;> exact hreset rfl
  | loadBios image =>
    simp only [Machine.perform, Machine.loadBios]
    cases hl : m.bus.loadBios image with
    | error e => exact hm
    | ok b => exact hload image b rfl hl
  | load x =>
    simp only [Machine.perform, Machine.load, clearFor]
    split
    · exact hP.copyToRam _ _ _ hm
    · exact hP.fillRam _ _ _ _ (hP.copyToRam _ _ _ hm)
  | copyToRam address data => exact hP.copyToRam _ _ _ hm
  | fillRam address count value => exact hP.fillRam _ _ _ _ hm
  | busLoad w address => exact settle_preserves hm fun b hb => hP.loaded hb hm
  | busStore w address value => exact settle_preserves hm fun b hb => hP.store hb hm
  | completeDma ch => exact hP.completeDma _ _ hm
  | takeTriggered => exact hP.takeTriggered _ hm
  | drainQueue => exact hP.drainQueue _ hm
  | restore s =>
    simp only [Machine.perform]
    cases hr : m.restore s with
    | error e => exact hm
    | ok m' =>
      rw [restore_ok hr]
      exact hrestore s rfl
  | setOrder | startTrace | stopTrace => exact hm
  | reportCalls on =>
    simp only [Machine.perform, Machine.reportCalls]
    split <;> exact hm

/-! ## Reachable machines -/

/-- What every allowed operation preserves, any number of them preserve. -/
theorem performAll_preserves {P : Machine → Prop} {A : Operation → Prop}
    (hop : ∀ m operation, A operation → P m → P (m.perform operation).machine)
    (operations : List Operation) (hall : ∀ operation ∈ operations, A operation)
    {m : Machine} (hm : P m) : P (m.performAll operations) := by
  induction operations generalizing m with
  | nil => exact hm
  | cons operation operations ih =>
    obtain ⟨hfirst, hrest⟩ := List.forall_mem_cons.mp hall
    exact ih hrest (hop m operation hfirst hm)

/-- What holds of a machine just switched on, and is preserved by every
operation, holds of every reachable machine. -/
theorem Reachable.preserves {P : Machine → Prop} (h₀ : P {})
    (hop : ∀ m operation, P m → P (m.perform operation).machine) {m : Machine}
    (h : m.Reachable) : P m := by
  obtain ⟨operations, rfl⟩ := h
  exact performAll_preserves (A := fun _ => True) (fun m operation _ => hop m operation)
    operations (fun _ _ => trivial) h₀

theorem Reachable.perform {m : Machine} (h : m.Reachable) (operation : Operation) :
    (m.perform operation).machine.Reachable := by
  obtain ⟨operations, rfl⟩ := h
  refine ⟨operations ++ [operation], ?_⟩
  rw [performAll, performAll, List.foldl_append]
  rfl

theorem attainable_performAll {m : Machine} (h : m.Attainable) (operations : List Operation)
    (hall : ∀ operation ∈ operations, ∀ s, operation ≠ .restore s) :
    (m.performAll operations).Attainable :=
  performAll_preserves (A := fun operation => ∀ s, operation ≠ .restore s)
    (fun _ operation ho hm => hm.perform operation ho) operations hall h

theorem Attainable.reachable {m : Machine} (h : m.Attainable) : m.Reachable := by
  induction h with
  | start => exact ⟨[], rfl⟩
  | perform operation _ _ ih => exact ih.perform operation
  | restore timestamp _ _ ih => exact ih.perform _

end Machine

end R3000
