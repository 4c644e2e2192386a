import R3000.Proofs.Bus.Access
import R3000.Proofs.Device.InPlace

/-!
# Accesses in place

A load or store as the sequence of accesses that the bus and its devices carry
out, where what was done before a refusal stays done. Both come to `Bus.load`
and `Bus.store`, which decide refusals first: an access that is refused has
left the bus as it was.
-/

namespace R3000

/-- A device says which of its registers does not answer; the bus says which
access was refused. -/
def Error.widened (w : Width) (address : UInt32) : Error → Error
  | .unmappedIo _ _ => .unmappedIo address w.bytes
  | e => e

namespace Bus

/-- Work of a device, as a part of the bus. -/
def onDevice {α : Type} (p : Peripheral) (w : Width) (address : UInt32)
    (x : InPlace p.State α) : InPlace Bus α := fun b =>
  match x (b.device p) with
  | .ok a d => .ok a (b.setDevice p d)
  | .error e d => .error (e.widened w address) (b.setDevice p d)

def loadPort (w : Width) (address : UInt32) : InPlace Bus UInt32 := do
  match Occupant.ofPhysical? address with
  | none => throw (.unmappedIo address w.bytes)
  | some .latch => return (← get).memory.load .ports w (Region.ports.offset address)
  | some (.absent _) => return 0
  | some (.device p) => onDevice p w address (p.loadInPlace w (address - p.first))

def storePort (w : Width) (address value : UInt32) : InPlace Bus Unit := do
  match Occupant.ofPhysical? address with
  | none => throw (.unmappedIo address w.bytes)
  | some .latch => modify fun b =>
    { b with memory := b.memory.store .ports w (Region.ports.offset address) value }
  | some (.absent _) => return
  | some (.device p) =>
    onDevice p w address (p.storeInPlace w (address - p.first) (w.truncate value))

def loadInPlace (w : Width) (a : UInt32) : InPlace Bus UInt32 := do
  let address := w.align a
  if Target.controlSegment ≤ address then
    if wordAddress address == Target.cacheControlAddress then
      return w.lane address (← get).cacheControl
    else throw (.invalidMemoryAccess address)
  else
    match Region.ofPhysical (physical address) with
    | .ports => loadPort w (physical address)
    | r => return (← get).memory.load r w (r.offset (physical address))

def storeInPlace (w : Width) (a value : UInt32) : InPlace Bus Unit := do
  let address := w.align a
  if Target.controlSegment ≤ address then
    if wordAddress address == Target.cacheControlAddress then
      modify fun b => { b with cacheControl := w.merge address b.cacheControl value }
    else throw (.invalidMemoryAccess address)
  else if (← get).isolated then return
  else
    match Region.ofPhysical (physical address) with
    | .ports => storePort w (physical address) value
    | .bios => return
    | r => modify fun b =>
      { b with memory := b.memory.store r w (r.offset (physical address)) value }

/-- A device is read, or the bus refuses the access. -/
theorem onDevice_load (b : Bus) (p : Peripheral) (w : Width) (address : UInt32) :
    onDevice p w address (p.loadInPlace w (address - p.first)) b =
      match Device.readHole? p.State w (address - p.first) with
      | some _ => .error (.unmappedIo address w.bytes) b
      | none => .ok (b.readDevice p w (address - p.first)).1
          (b.readDevice p w (address - p.first)).2 := by
  rw [onDevice, Peripheral.loadInPlace_eq, Device.load]
  cases Device.readHole? p.State w (address - p.first) with
  | some hole => cases p <;> rfl
  | none => cases p <;> rfl

theorem onDevice_store (b : Bus) (p : Peripheral) (w : Width) (address value : UInt32) :
    onDevice p w address (p.storeInPlace w (address - p.first) value) b =
      match Device.writeHole? p.State w (address - p.first) with
      | some _ => .error (.unmappedIo address w.bytes) b
      | none => .ok () (b.writeDevice p w (address - p.first) value) := by
  rw [onDevice, Peripheral.storeInPlace_eq, Device.store]
  cases Device.writeHole? p.State w (address - p.first) with
  | some hole => cases p <;> rfl
  | none => cases p <;> rfl

theorem loadPort_eq (b : Bus) (w : Width) (address : UInt32) :
    loadPort w address b = settled b
      ((Target.ofOccupant (fun p => Device.readHole? p.State) w address).map (b.read · w)) := by
  rw [loadPort, Target.ofOccupant]
  cases Occupant.ofPhysical? address with
  | none => rfl
  | some o =>
    cases o with
    | latch | absent name => rfl
    | device p =>
      refine (onDevice_load b p w address).trans ?_
      dsimp only
      cases Device.readHole? p.State w (address - p.first) <;> rfl

theorem storePort_eq (b : Bus) (w : Width) (address value : UInt32) :
    storePort w address value b = settled b
      (((Target.ofOccupant (fun p => Device.writeHole? p.State) w address).map
        (b.write · w value)).map (((), ·))) := by
  rw [storePort, Target.ofOccupant]
  cases Occupant.ofPhysical? address with
  | none => rfl
  | some o =>
    cases o with
    | latch | absent name => rfl
    | device p =>
      refine (onDevice_store b p w address (w.truncate value)).trans ?_
      dsimp only
      cases Device.writeHole? p.State w (address - p.first) <;> rfl

/-- A load in place comes to the load that decides refusals first. -/
theorem loadInPlace_eq (b : Bus) (w : Width) (a : UInt32) :
    loadInPlace w a b = settled b (b.load w a) := by
  rw [load_eq_map, loadInPlace, Target.ofLoad, Target.ofAddress]
  split
  · split <;> rfl
  · cases Region.ofPhysical (physical (w.align a)) with
    | ports => exact loadPort_eq b w (physical (w.align a))
    | _ => rfl

/-- So does a store. -/
theorem storeInPlace_eq (b : Bus) (w : Width) (a value : UInt32) :
    storeInPlace w a value b = settled b ((b.store w a value).map (((), ·))) := by
  rw [store_eq_map, storeInPlace, hides, Target.ofStore, Target.ofAddress]
  by_cases hseg : Target.controlSegment ≤ w.align a
  · have hlt : ¬ w.align a < Target.controlSegment := UInt32.not_lt.mpr hseg
    simp only [if_pos hseg, decide_eq_false hlt, Bool.and_false, Bool.false_eq_true, if_false]
    split <;> rfl
  · have hlt : w.align a < Target.controlSegment := UInt32.not_le.mp hseg
    simp only [if_neg hseg, decide_eq_true hlt, Bool.and_true]
    have hget : (get : InPlace Bus Bus) b = .ok b b := rfl
    rw [bind_of_ok _ hget]
    cases b.isolated with
    | true => rfl
    | false =>
      simp only [Bool.false_eq_true, if_false]
      cases Region.ofPhysical (physical (w.align a)) with
      | ports => exact storePort_eq b w (physical (w.align a)) value
      | _ => rfl

theorem loadInPlace_ok {b b' : Bus} {w : Width} {a value : UInt32}
    (h : b.load w a = .ok (value, b')) : loadInPlace w a b = .ok value b' := by
  rw [loadInPlace_eq, h]
  rfl

theorem storeInPlace_ok {b b' : Bus} {w : Width} {a value : UInt32}
    (h : b.store w a value = .ok b') : storeInPlace w a value b = .ok () b' := by
  rw [storeInPlace_eq, h]
  rfl

/-- A load that is refused leaves the bus as it was. -/
theorem loadInPlace_error {b : Bus} {w : Width} {a : UInt32} {e : Error}
    (h : b.load w a = .error e) : loadInPlace w a b = .error e b := by
  rw [loadInPlace_eq, h]
  rfl

/-- A store that is refused leaves the bus as it was. -/
theorem storeInPlace_error {b : Bus} {w : Width} {a value : UInt32} {e : Error}
    (h : b.store w a value = .error e) : storeInPlace w a value b = .error e b := by
  rw [storeInPlace_eq, h]
  rfl

end Bus

end R3000
