import R3000.Proofs.Bounds.Machine
import R3000.Proofs.Device.Gpu
import R3000.Proofs.Machine.Resume
import R3000.Proofs.Memory.Bank
import R3000.Proofs.Snapshot.Codec

/-!
# Sound snapshots

Restoring checks the version and the regions of a snapshot. The queue of the
GPU, the register file of the sound unit and the count of instructions it takes
as they are. So a machine stays within its bounds after restoring exactly if
the snapshot is sound: its queue is not too long and its register file whole.
-/

namespace R3000

/-! ## Sound devices -/

/-- The queue is not too long and the register file is whole. -/
structure Sound (g : Gpu) (s : Spu) : Prop where
  queue : g.queue.size ≤ Gpu.queueCapacity
  registers : s.registers.size = Spu.registerCount

theorem Sound.blank : Sound {} {} where
  queue := Nat.zero_le _
  registers := Array.size_replicate

def Bus.Sound (b : Bus) : Prop :=
  R3000.Sound b.gpu b.spu

def Snapshot.Sound (s : Snapshot) : Prop :=
  R3000.Sound s.gpu s.spu

/-- A snapshot to restore is sound; anything else a host may do as it likes. -/
def Operation.Sound : Operation → Prop
  | restore s => s.Sound
  | _ => True

theorem Bus.Sound.complete {b : Bus} (h : b.Sound) : b.Complete :=
  Nat.le_of_eq h.registers.symm

/-- Accesses keep the devices sound. -/
theorem Bus.stable_sound : Stable Sound where
  read b t w h := by
    cases t with
    | device p offset => cases p <;> first | exact h | (cases w <;> exact h)
    | _ => exact h
  write b t w value h := by
    cases t with
    | device p offset =>
      cases p with
      | gpu => exact ⟨Gpu.size_write_le h.queue .., h.registers⟩
      | spu => exact ⟨h.queue, (Spu.size_write ..).trans h.registers⟩
      | _ => exact h
    | cell r offset => cases r <;> exact h
    | _ => exact h

namespace Machine

/-- A host that restores nothing keeps the devices sound. -/
theorem kept_sound : Kept Bus.Sound where
  toStable := Bus.stable_sound
  isolate _ _ h := h
  tick _ h := h
  copyToRam _ _ _ h := h
  fillRam _ _ _ _ h := h
  completeDma _ _ h := h
  takeTriggered _ h := h
  drainQueue _ h := ⟨Nat.zero_le _, h.registers⟩

theorem devices_restore {m m' : Machine} {s : Snapshot} (h : m.restore s = .ok m') :
    m'.bus.gpu = s.gpu ∧ m'.bus.spu = s.spu ∧ m'.cycles = s.cycles := by
  rw [restore_ok h]
  exact ⟨rfl, rfl, rfl⟩

theorem sound_restore_iff {m m' : Machine} {s : Snapshot} (h : m.restore s = .ok m') :
    m'.bus.Sound ↔ s.Sound := by
  obtain ⟨hg, hs, -⟩ := devices_restore h
  rw [Bus.Sound, hg, hs, Snapshot.Sound]

/-- Whatever a host does keeps the devices sound, whether it succeeds or fails. -/
theorem sound_perform (m : Machine) (operation : Operation) (ho : operation.Sound)
    (h : m.bus.Sound) : (m.perform operation).machine.bus.Sound := by
  refine kept_sound.perform operation h (fun _ => .blank) ?_ ?_
  · intro image b _ hb
    rw [Bus.loadBios] at hb
    split at hb
    · exact Except.ok.inj hb ▸ h
    · cases hb
  · rintro s rfl
    exact ho

/-! ## Well-formed machines -/

/-- What a host can make of `m`. -/
def Later (m m' : Machine) : Prop :=
  ∃ operations : List Operation, (∀ operation ∈ operations, operation.Sound) ∧
    m' = m.performAll operations

theorem Later.refl (m : Machine) : m.Later m :=
  ⟨[], nofun, rfl⟩

theorem Later.sound {m m' : Machine} (hl : m.Later m') (h : m.bus.Sound) : m'.bus.Sound := by
  obtain ⟨operations, hall, rfl⟩ := hl
  exact performAll_preserves (P := (·.bus.Sound)) sound_perform operations hall h

/-- The devices of the machine are sound, no access goes out of bounds, and a
step does so exactly if it succeeds when the count of instructions is at its
end. -/
structure WellFormed (m : Machine) : Prop where
  sound : m.bus.Sound
  load : ∀ w address, m.bus.load? w address ≠ none
  store : ∀ w address value, m.bus.store? w address value ≠ none
  step : m.step? = none ↔ m.step.fault = none ∧ 2 ^ 64 ≤ m.cycles.toNat + 1

theorem WellFormed.of_sound {m : Machine} (h : m.bus.Sound) : m.WellFormed where
  sound := h
  load := by
    intro w address
    rw [Bus.load?_eq h.complete]
    exact Option.some_ne_none _
  store := by
    intro w address value
    rw [Bus.store?_eq h.complete]
    exact Option.some_ne_none _
  step := step?_eq_none_iff h.complete

/-- A machine that goes on from a snapshot stays well-formed exactly if the
snapshot is sound, and then takes every step that can still be counted. With a
register file that is too short it cannot read the last register, and a queue
that is too long grows with every word. -/
theorem restore_wellFormed_iff {m m' : Machine} {s : Snapshot} (h : m.restore s = .ok m') :
    ((∀ m'', m'.Later m'' → m''.WellFormed) ↔ s.Sound) ∧
      (s.Sound → ∀ n, s.cycles.toNat + n < 2 ^ 64 →
        m'.steps? n = some ((m'.steps n).machine, (m'.steps n).fault)) ∧
      (s.spu.registers.size < Spu.registerCount → m'.bus.load? .half 0x1F801FFE = none) ∧
      (Gpu.queueCapacity < s.gpu.queue.size → ∀ word,
        (m'.bus.gpu.submit word).queue.size = s.gpu.queue.size + 1) := by
  obtain ⟨hg, hs, hc⟩ := devices_restore h
  have hiff := sound_restore_iff h
  refine ⟨⟨?_, ?_⟩, ?_, ?_, ?_⟩
  · intro hall
    exact hiff.mp (hall m' (.refl m')).sound
  · intro hsound m'' hl
    exact .of_sound (hl.sound (hiff.mpr hsound))
  · intro hsound n hn
    exact steps?_eq n (hiff.mpr hsound).complete (hc ▸ hn)
  · intro hshort
    apply Bus.load?_last
    rw [Bus.Complete, hs]
    exact Nat.not_le.mpr hshort
  · intro hlong word
    rw [← hg] at hlong ⊢
    exact Gpu.size_submit_of_lt hlong word

/-- A machine that was just switched on goes on from the snapshot of another, which
has words queued, registers set in the processor and in the sound unit, and steps counted. -/
theorem restore_wellFormed_queued :
    ∃ saved m' : Machine, restore {} (saved.save ⟨0, 0⟩) = .ok m' ∧
      m'.cpu.reg 8 = 0x80001000 ∧ m'.bus.gpu.queue = #[0x02000000, 0x00100010] ∧
      m'.bus.spu.readHalf 0x1AE = 0x2A ∧ m'.cycles = 5 ∧
      (∀ m'', m'.Later m'' → m''.WellFormed) ∧
      ∀ n, 5 + n < 2 ^ 64 → m'.steps? n = some ((m'.steps n).machine, (m'.steps n).fault) := by
  -- The bus stays a variable, so that its memory is not computed.
  have h (c : Cpu) (b : Bus) (cycles : UInt64) (hc : Consistent c b)
      (hbios : ({} : Machine).bus.memory.bios = b.memory.bios) (hs : b.Sound) :
      ∃ m', restore {} (.capture c b cycles ⟨0, 0⟩) = .ok m' ∧
        m'.cpu = c ∧ m'.bus = b ∧ m'.cycles = cycles ∧
        (∀ m'', m'.Later m'' → m''.WellFormed) ∧
        ∀ n, cycles.toNat + n < 2 ^ 64 →
          m'.steps? n = some ((m'.steps n).machine, (m'.steps n).fault) := by
    have hr := restore_capture hc hbios cycles ⟨0, 0⟩
    obtain ⟨hiff, hsteps, -⟩ := restore_wellFormed_iff hr
    exact ⟨_, hr, rfl, rfl, rfl, hiff.mpr hs, hsteps hs⟩
  let spu : Spu := ({} : Spu).writeHalf 0x1AA 0xC02A
  have hsound : Sound { queue := #[0x02000000, 0x00100010] } spu :=
    ⟨by decide, (Spu.size_writeHalf ..).trans Sound.blank.registers⟩
  obtain ⟨m', hr, hcpu, hbus, hcycles, hwell, hsteps⟩ :=
    h (Cpu.reset.setReg 8 0x80001000) { gpu := { queue := #[0x02000000, 0x00100010] }, spu } 5
      ((Consistent.reset rfl).setReg 8 _) rfl hsound
  refine ⟨⟨_, _, 5, .cpuFirst, none, none⟩, m', hr, ?_, ?_, ?_, hcycles, hwell, hsteps⟩
  · rw [hcpu]
    decide
  · rw [hbus]
  · rw [hbus]
    decide +kernel

/-! ## Files that break the bounds -/

/-- Every queue, register file and count of instructions can be loaded from a file. -/
theorem exists_loaded (m : Machine) (gpu : Gpu) (spu : Spu) (cycles : UInt64)
    (hq : gpu.queue.size < 2 ^ 64) (hr : spu.registers.size < 2 ^ 64) :
    ∃ bytes s, Snapshot.decode bytes = .ok s ∧
      m.restore s = .ok { m with
        cpu := .reset, bus := { memory := m.bus.memory, gpu, spu }, cycles } := by
  have hc : Consistent .reset { memory := m.bus.memory, gpu, spu } := .reset rfl
  have hw : (Snapshot.capture .reset { memory := m.bus.memory, gpu, spu } cycles ⟨0, 0⟩).Writable :=
    Snapshot.writable_capture (by decide +kernel) (by decide +kernel) hq hr
  exact ⟨_, _, Snapshot.decode_encode_capture hw, restore_capture (m := m) hc rfl cycles ⟨0, 0⟩⟩

/-- A machine whose BIOS begins with zeros takes a step from there. -/
theorem step_fault_of_reset {m : Machine} (ho : m.order = .cpuFirst) (hc : m.cpu = .reset)
    (hzero : m.bus.memory.bios.load .word 0 = 0) : m.step.fault = none := by
  have hlow : ¬ Target.controlSegment ≤ Width.word.align Cpu.reset.pc := by decide
  have hregion : Region.ofPhysical (physical (Width.word.align Cpu.reset.pc)) = .bios := by
    decide
  have hload : m.bus.load .word Cpu.reset.pc = .ok (0, m.bus) := by
    rw [Bus.load, Target.ofLoad, Target.ofAddress, if_neg hlow, hregion]
    exact congrArg (fun word => Except.ok (word, m.bus)) hzero
  have hdecode : (Instruction.decode 0).opcode = .sll := by decide
  have hexecute (c : Cpu) : (c.execute m.bus (.decode 0)).fault = none := by
    simp only [Cpu.execute, hdecode]
    rfl
  have hstep : (Cpu.reset.step m.bus).fault = none := by
    simp only [Cpu.step, hload, Outcome.after_fault, hexecute, Option.map_none]
  rw [step_fault, ho, hc, advance_cpuFirst_fault, hstep]

/-- Files that decode and restore, and break the bounds: one with a queue that
is a word too long, one without registers of the sound unit, and one that is
sound with the highest count of instructions. -/
theorem restore_unsound :
    (∃ bytes s m', Snapshot.decode bytes = .ok s ∧ restore {} s = .ok m' ∧
        m'.bus.gpu.queue.size = Gpu.queueCapacity + 1) ∧
      (∃ bytes s m', Snapshot.decode bytes = .ok s ∧ restore {} s = .ok m' ∧
        m'.bus.load? .half 0x1F801FFE = none) ∧
      ∃ bytes s m', Snapshot.decode bytes = .ok s ∧ restore {} s = .ok m' ∧ s.Sound ∧
        m'.step? = none := by
  refine ⟨?_, ?_, ?_⟩
  · have hsize : (Array.replicate (Gpu.queueCapacity + 1) (0 : UInt32)).size =
        Gpu.queueCapacity + 1 := Array.size_replicate
    obtain ⟨bytes, s, hd, hr⟩ := exists_loaded {}
      { queue := Array.replicate (Gpu.queueCapacity + 1) 0 } {} 0
      (by rw [hsize]; decide) (by rw [Sound.blank.registers]; decide)
    exact ⟨bytes, s, _, hd, hr, hsize⟩
  · obtain ⟨bytes, s, hd, hr⟩ := exists_loaded {} {} ⟨#[]⟩ 0 (by decide) (by decide)
    exact ⟨bytes, s, _, hd, hr, Bus.load?_last (show ¬ Spu.registerCount ≤ 0 by decide)⟩
  · obtain ⟨bytes, s, hd, hr⟩ := exists_loaded {} {} {} 0xFFFFFFFFFFFFFFFF
      (by decide) (by rw [Sound.blank.registers]; decide)
    have hsound : s.Sound := (sound_restore_iff hr).mp .blank
    have hfault := step_fault_of_reset (m := { cycles := 0xFFFFFFFFFFFFFFFF }) rfl rfl
      (Bank.load_blank 19 .word 0)
    have hcomplete := ((sound_restore_iff hr).mpr hsound).complete
    exact ⟨bytes, s, _, hd, hr, hsound, (step?_eq_none_iff hcomplete).mpr ⟨hfault, by decide⟩⟩

end Machine

end R3000
