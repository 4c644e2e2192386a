import R3000.Proofs.Machine.Tracing
import R3000.Proofs.Memory.Bank

/-!
# Resetting in place

A reset goes through the machine part by part: the content of each region but the BIOS,
the registers of the bus, each device. Here it is that sequence of writes. It comes to what
`Machine.reset` gives, from whatever state it begins, and that is a machine just switched
on with the same BIOS and tick order. So all that comes afterwards is as it is there.
-/

namespace R3000

/-! ## Memory -/

/-- The bank with all its bytes cleared. -/
def Bank.wiped {size : Nat} (_ : Bank size) : Bank size :=
  ⟨⟨Array.replicate size 0⟩, Array.size_replicate⟩

theorem Bank.wiped_eq_blank {k : Nat} (b : Bank (1 <<< k)) : b.wiped = blank k := by
  apply ext_get
  intro i
  rw [get_blank, get_eq_getElem?, wiped, Array.getElem?_replicate]
  split <;> rfl

namespace Memory

/-- Clear a region; the BIOS is left alone. -/
def wipe (m : Memory) (r : Region) : Memory :=
  if r = .bios then m else m.modify r Bank.wiped

theorem bank_foldl_wipe (m : Memory) {r : Region} (hr : r ≠ .bios) :
    (Region.all.foldl wipe m).bank r = (m.bank r).wiped := by
  cases r with
  | bios => exact absurd rfl hr
  | ram | expansion1 | scratchpad | ports | expansion2 | expansion3 => rfl

theorem bank_clear (m : Memory) {r : Region} (hr : r ≠ .bios) :
    m.clear.bank r = Bank.blank r.sizeLog2 := by
  cases r with
  | bios => exact absurd rfl hr
  | ram | expansion1 | scratchpad | ports | expansion2 | expansion3 => rfl

/-- Region by region, no byte outside the BIOS is forgotten. -/
theorem foldl_wipe (m : Memory) : Region.all.foldl wipe m = m.clear := by
  apply ext_bank
  intro r
  by_cases hr : r = .bios
  · subst hr
    have hwiped : (Region.all.foldl wipe m).bank .bios = m.bios := rfl
    exact hwiped
  · rw [bank_foldl_wipe m hr, bank_clear m hr]
    exact Bank.wiped_eq_blank (m.bank r)

end Memory

namespace Machine

/-! ## Part by part -/

/-- The writes of a reset. The last one ends the line of terminal output. -/
def resets : List (Machine → Machine) :=
  [fun m => { m with cpu := Cpu.reset },
    fun m => { m with bus.memory := Region.all.foldl Memory.wipe m.bus.memory },
    fun m => { m with bus.cacheControl := 0 },
    fun m => { m with bus.isolated := false },
    fun m => { m with bus.interrupt := {} },
    fun m => { m with bus.dma := {} },
    fun m => { m with bus.timers := {} },
    fun m => { m with bus.gpu := {} },
    fun m => { m with bus.spu := {} },
    fun m => { m with cycles := 0 },
    fun m => { m with calls := m.calls.map (·.flush.2) }]

def resetInPlace (m : Machine) : Machine :=
  resets.foldl (fun m f => f m) m

theorem resetInPlace_eq (m : Machine) : m.resetInPlace = m.reset.2 := by
  simp only [resetInPlace, resets, List.foldl_cons, List.foldl_nil, Memory.foldl_wipe]
  simp only [reset]
  cases m.calls <;> rfl

/-! ## Afterwards -/

/-- Asked the same, `m` and `m'` answer the same wherever it is not about the tracers, and
end with the same processor, bus and count of instructions. -/
structure ServesLike (α : Type) (m m' : Machine) : Prop where
  answers : ∀ requests : List (Request α),
    (m.transcript requests).filter (!·.1.traces) = (m'.transcript requests).filter (!·.1.traces)
  cpu : ∀ requests : List (Request α), (m.serveAll requests).cpu = (m'.serveAll requests).cpu
  bus : ∀ requests : List (Request α), (m.serveAll requests).bus = (m'.serveAll requests).bus
  cycles : ∀ requests : List (Request α),
    (m.serveAll requests).cycles = (m'.serveAll requests).cycles

/-- Machines that differ in their tracers only serve alike. -/
theorem ServesLike.of_untraced {α : Type} {m m' : Machine} (h : m.untraced = m'.untraced) :
    ServesLike α m m' := by
  have hserve (requests : List (Request α)) :
      (m.serveAll requests).untraced = (m'.serveAll requests).untraced := by
    rw [(m.transcript_untraced requests).2, h, (m'.transcript_untraced requests).2]
  exact {
    answers := fun requests => by
      rw [(m.transcript_untraced requests).1, h, (m'.transcript_untraced requests).1]
    cpu := fun requests => congrArg (·.cpu) (hserve requests)
    bus := fun requests => congrArg (·.bus) (hserve requests)
    cycles := fun requests => congrArg (·.cycles) (hserve requests) }

/-- The image of a BIOS that is in place can be installed in a machine just switched on. -/
theorem loadBios_bytes (bios : Bank Region.bios.size) :
    ({} : Machine).loadBios bios.bytes = .ok { bus := { memory := { Memory.blank with bios } } } := by
  rw [loadBios, Bus.loadBios, Bank.ofBytes?, dif_pos bios.size_eq]
  rfl

theorem reset_untraced (m : Machine) :
    m.reset.2.untraced =
      { bus := { memory := { Memory.blank with bios := m.bus.memory.bios } }, order := m.order } := by
  simp only [reset, untraced]
  cases m.calls <;> rfl

/-- Whatever happened before, a reset leaves a machine just switched on in which the same
BIOS was installed, with the tick order kept, and whatever is asked of it afterwards goes
as on that machine. -/
theorem reset_forgets (α : Type) (m : Machine) :
    ∃ fresh, ({} : Machine).loadBios m.bus.memory.bios.bytes = .ok fresh ∧
      m.resetInPlace = m.reset.2 ∧ m.reset.2.cpu = fresh.cpu ∧ m.reset.2.bus = fresh.bus ∧
      m.reset.2.cycles = fresh.cycles ∧ m.reset.2.order = m.order ∧
      ServesLike α m.reset.2 { fresh with order := m.order } := by
  have hsame := m.reset_untraced
  refine ⟨_, loadBios_bytes m.bus.memory.bios, m.resetInPlace_eq, ?_, ?_, ?_, ?_, ?_⟩
  · exact congrArg (·.cpu) hsame
  · exact congrArg (·.bus) hsame
  · exact congrArg (·.cycles) hsame
  · exact congrArg (·.order) hsame
  · exact .of_untraced hsame

end Machine

end R3000
