import R3000.Proofs.Bounds.Device
import R3000.Proofs.Bus.Access
import R3000.Proofs.Memory.Region

/-!
# Bounds of bus accesses

`Bus.load?` and `Bus.store?` are loads and stores that give nothing when an
index, a sum or a shift is out of range anywhere on the way. Addresses cannot
make that happen. Of the state, only a register file of the sound unit that is
too short can.
-/

namespace R3000

/-! ## Targets -/

theorem Occupant.device_bounds {address : UInt32} {p : Peripheral}
    (h : ofPhysical? address = some (.device p)) : p.first ≤ address ∧ address ≤ p.last := by
  obtain ⟨first, last, hspans, hbounds⟩ := ofPhysical_spans h
  obtain ⟨rfl, rfl⟩ := hspans.device p rfl
  exact hbounds

/-- The hole that an access meets is in the word around it. -/
theorem registerHole_le {answers : UInt32 → Bool} {w : Width} {offset hole : UInt32}
    (h : registerHole? answers w offset = some hole) : hole ≤ offset := by
  have hword : wordAddress offset ≤ offset := Width.word.align_le offset
  have hcases : hole = offset ∨ hole = wordAddress offset := by
    cases w <;> simp only [registerHole?, Option.ite_none_left_eq_some, Option.some.injEq] at h
    case word => exact .inl h.2.symm
    all_goals exact .inr h.2.symm
  rcases hcases with rfl | rfl
  · exact UInt32.le_refl _
  · exact hword

theorem Timers.hole_le {w : Width} {offset hole : UInt32} (h : hole? w offset = some hole) :
    hole ≤ offset := by
  cases w with
  | half =>
    simp only [hole?, Option.ite_none_left_eq_some, Option.some.injEq] at h
    exact h.2 ▸ UInt32.le_refl offset
  | byte | word =>
    simp only [hole?] at h
    exact registerHole_le h

namespace Peripheral

/-- Whether a device finds the register that an access selects. -/
def selects : Peripheral → Width → (offset : UInt32) → Bool
  | timers, w, offset => Timers.selects w offset
  | _, _, _ => true

/-- The offset of the last byte. -/
def span (p : Peripheral) : UInt32 :=
  p.last - p.first

theorem toNat_first_add_span (p : Peripheral) : p.first.toNat + p.span.toNat < 2 ^ 32 := by
  cases p <;> decide

theorem sub_first_le {p : Peripheral} {address : UInt32} (hfirst : p.first ≤ address)
    (hlast : address ≤ p.last) : address - p.first ≤ p.span := by
  have hspan : p.first ≤ p.last := UInt32.le_trans hfirst hlast
  rw [span, UInt32.le_iff_toNat_le, UInt32.toNat_sub_of_le _ _ hfirst,
    UInt32.toNat_sub_of_le _ _ hspan]
  exact Nat.sub_le_sub_right (UInt32.le_iff_toNat_le.mp hlast) _

theorem spu_add_two_lt {offset : UInt32} (h : offset ≤ spu.span) : offset.toNat + 2 < 2 ^ 32 :=
  Nat.lt_of_le_of_lt (Nat.add_le_add_right (UInt32.le_iff_toNat_le.mp h) 2) (by decide)

theorem selects_of_le (p : Peripheral) (w : Width) {offset : UInt32} (h : offset ≤ p.span) :
    p.selects w offset = true := by
  cases p with
  | timers => exact Timers.selects_of_le w h
  | _ => rfl

theorem readHole_le {p : Peripheral} {w : Width} {offset hole : UInt32}
    (h : Device.readHole? p.State w offset = some hole) : hole ≤ offset := by
  cases p with
  | interrupt | dma | gpu => exact registerHole_le h
  | timers => exact Timers.hole_le h
  | spu => nomatch h

theorem writeHole_le {p : Peripheral} {w : Width} {offset hole : UInt32}
    (h : Device.writeHole? p.State w offset = some hole) : hole ≤ offset := by
  cases p with
  | interrupt | dma => exact registerHole_le h
  | timers => exact Timers.hole_le h
  | gpu =>
    cases w with
    | word => exact registerHole_le h
    | byte | half => nomatch h
  | spu => nomatch h

end Peripheral

namespace Target

section

variable (hole? : Peripheral → Width → UInt32 → Option UInt32) (w : Width) (address : UInt32)

def ofOccupant? : Option (Except Error Target) :=
  match Occupant.ofPhysical? address with
  | some (.device p) => do
    let offset ← difference? address p.first
    if p.selects w offset then
      match hole? p w offset with
      | some hole => do
        let _ ← sum? p.first hole
        return .error (.unmappedIo address w.bytes)
      | none => return .ok (.device p offset)
    else none
  | _ => some (ofOccupant hole? w address)

def ofAddress? : Option (Except Error Target) :=
  if controlSegment ≤ address then some (ofAddress hole? w address)
  else
    match Region.ofPhysical (physical address) with
    | .ports => ofOccupant? hole? w (physical address)
    | _ => some (ofAddress hole? w address)

variable (hle : ∀ {p w offset hole}, hole? p w offset = some hole → hole ≤ offset)
include hle

theorem ofOccupant?_eq : ofOccupant? hole? w address = some (ofOccupant hole? w address) := by
  rw [ofOccupant?, ofOccupant]
  cases ho : Occupant.ofPhysical? address with
  | none => rfl
  | some o =>
    cases o with
    | latch | absent => rfl
    | device p =>
      obtain ⟨hfirst, hlast⟩ := Occupant.device_bounds ho
      have hspan := Peripheral.sub_first_le hfirst hlast
      simp only [difference?, if_pos hfirst, Option.bind_eq_bind, Option.bind_some,
        p.selects_of_le w hspan, if_true]
      cases hh : hole? p w (address - p.first) with
      | none => rfl
      | some hole =>
        have hsum : p.first.toNat + hole.toNat < 2 ^ 32 :=
          Nat.lt_of_le_of_lt (Nat.add_le_add_left (UInt32.le_iff_toNat_le.mp
            (UInt32.le_trans (hle hh) hspan)) _) p.toNat_first_add_span
        simp only [sum?_eq hsum, Option.bind_some]
        rfl

theorem ofAddress?_eq : ofAddress? hole? w address = some (ofAddress hole? w address) := by
  unfold ofAddress? ofAddress
  split
  · rfl
  · cases Region.ofPhysical (physical address) with
    | ports => exact ofOccupant?_eq hole? w _ hle
    | _ => rfl

end

/-- The target lies within what it is a part of. -/
def Fits (w : Width) : Target → Prop
  | .cell r offset => offset + w.bytes ≤ r.size
  | .device p offset => offset ≤ p.span
  | _ => True

theorem ofAddress_fits {hole? : Peripheral → Width → UInt32 → Option UInt32} {w : Width}
    {a : UInt32} {t : Target} (h : ofAddress hole? w (w.align a) = .ok t) : t.Fits w := by
  have hcell (r : Region) : Fits w (.cell r (r.offset (physical (w.align a)))) :=
    r.offset_add_bytes_le w a
  unfold ofAddress at h
  split at h
  · split at h
    · cases h
      trivial
    · nomatch h
  · split at h
    · rename_i hr
      unfold ofOccupant at h
      split at h
      · nomatch h
      · cases h
        exact hcell .ports
      · cases h
        trivial
      · rename_i p ho
        split at h
        · nomatch h
        · cases h
          exact Peripheral.sub_first_le (Occupant.device_bounds ho).1 (Occupant.device_bounds ho).2
    · cases h
      exact hcell _

end Target

namespace Bus

/-! ## Reads and writes -/

def read? (b : Bus) (t : Target) (w : Width) : Option (UInt32 × Bus) :=
  match t with
  | .cacheControl address => do return (← w.lane? address b.cacheControl, b)
  | .cell r offset => do return (← (b.memory.bank r).load? w offset, b)
  | .device .interrupt offset => do
    return (← w.lane? offset (b.interrupt.readWord (wordAddress offset)), b)
  | .device .dma offset =>
    match Dma.Register.ofOffset? offset with
    | some r => do return (← w.lane? offset (b.dma.readRegister r), b)
    | none => some (0, b)
  | .device .timers offset =>
    match w with
    | .byte => do
      let (content, timers) := b.timers.readWord (wordAddress offset)
      return (← Width.byte.lane? offset content, { b with timers })
    | _ => some (b.readDevice .timers w offset)
  | .device .gpu offset => do return (← w.lane? offset (b.gpu.readWord (wordAddress offset)), b)
  | .device .spu offset => do return (← b.spu.read? w offset, b)
  | .absent _ => some (0, b)

def write? (b : Bus) (t : Target) (w : Width) (value : UInt32) : Option Bus :=
  match t with
  | .cacheControl address => do
    return { b with cacheControl := ← w.merge? address b.cacheControl value }
  | .cell .bios _ => some b
  | .cell r offset => do
    let _ ← (b.memory.bank r).store? w offset value
    return b.write t w value
  | .device .interrupt offset => do
    let content := b.interrupt.readWord (wordAddress offset)
    let merged ← w.merge? offset content (w.truncate value)
    return { b with interrupt := b.interrupt.writeWord (wordAddress offset) merged }
  | .device .dma offset =>
    match Dma.Register.ofOffset? offset with
    | some r => do
      let merged ← w.merge? offset (b.dma.readRegister r) (w.truncate value)
      return { b with dma := ← b.dma.writeRegister? r merged }
    | none => some b
  | .device .timers offset =>
    match w with
    | .byte => do
      let (content, timers) := b.timers.readWord (wordAddress offset)
      let merged ← Width.byte.merge? offset content (w.truncate value)
      return { b with timers := timers.writeWord (wordAddress offset) merged }
    | _ => some (b.write t w value)
  | .device .gpu _ => some (b.write t w value)
  | .device .spu offset => do return { b with spu := ← b.spu.write? w offset (w.truncate value) }
  | .absent _ => some b

/-- The sound unit has all its registers. -/
def Complete (b : Bus) : Prop :=
  Spu.registerCount ≤ b.spu.registers.size

/-- Accesses keep the size of the register file. -/
theorem stable_complete : Stable Complete where
  read b t w h := by
    cases t with
    | device p offset => cases p <;> first | exact h | (cases w <;> exact h)
    | _ => exact h
  write b t w value h := by
    cases t with
    | device p offset =>
      cases p with
      | spu => exact Nat.le_trans h (Nat.le_of_eq (Spu.size_write ..).symm)
      | _ => exact h
    | cell r offset => cases r <;> exact h
    | _ => exact h

section

variable {b : Bus} (hb : b.Complete) {t : Target} {w : Width} (ht : t.Fits w)
include hb ht

theorem read?_eq : b.read? t w = some (b.read t w) := by
  cases t with
  | cacheControl address => rw [read?, Width.lane?_eq]; rfl
  | absent => rfl
  | cell r offset => rw [read?, Bank.load?_eq ht]; rfl
  | device p offset =>
    cases p with
    | interrupt | gpu => rw [read?, Width.lane?_eq]; rfl
    | dma =>
      simp only [read?, Width.lane?_eq, read, readDevice, Device.read, device]
      cases Dma.Register.ofOffset? offset <;> rfl
    | timers =>
      cases w with
      | byte => simp only [read?, Width.lane?_eq]; rfl
      | half | word => rfl
    | spu =>
      rw [read?, Spu.read?_eq w hb (Peripheral.spu_add_two_lt ht)]
      cases w <;> rfl

theorem write?_eq (value : UInt32) : b.write? t w value = some (b.write t w value) := by
  cases t with
  | cacheControl address => rw [write?, Width.merge?_eq]; rfl
  | absent => rfl
  | cell r offset =>
    cases r with
    | bios => rfl
    | _ => simp only [write?, Bank.store?_eq value ht]; rfl
  | device p offset =>
    cases p with
    | interrupt => simp only [write?, Width.merge?_eq]; rfl
    | gpu => rfl
    | dma =>
      simp only [write?, Width.merge?_eq, Option.bind_eq_bind, Option.bind_some,
        Dma.writeRegister?_eq, write, writeDevice, Device.write]
      cases Dma.Register.ofOffset? offset <;> rfl
    | timers =>
      cases w with
      | byte => simp only [write?, Width.merge?_eq]; rfl
      | half | word => rfl
    | spu => rw [write?, Spu.write?_eq w _ hb (Peripheral.spu_add_two_lt ht)]; rfl

end

/-! ## Loads and stores -/

def load? (b : Bus) (w : Width) (address : UInt32) : Option (Except Error (UInt32 × Bus)) := do
  match ← Target.ofAddress? (fun p => Device.readHole? p.State) w (w.align address) with
  | .error e => return .error e
  | .ok t => return .ok (← b.read? t w)

def store? (b : Bus) (w : Width) (address value : UInt32) : Option (Except Error Bus) :=
  if b.hides w address then some (.ok b)
  else do
    match ← Target.ofAddress? (fun p => Device.writeHole? p.State) w (w.align address) with
    | .error e => return .error e
    | .ok t => return .ok (← b.write? t w value)

theorem load?_eq {b : Bus} (hb : b.Complete) (w : Width) (a : UInt32) :
    b.load? w a = some (b.load w a) := by
  have ht := Target.ofAddress?_eq (fun p => Device.readHole? p.State) w (w.align a)
    Peripheral.readHole_le
  rw [load?, ht, load, Target.ofLoad]
  simp only [Option.bind_eq_bind, Option.bind_some]
  cases h : Target.ofAddress (fun p => Device.readHole? p.State) w (w.align a) with
  | error e => rfl
  | ok t =>
    simp only [read?_eq hb (Target.ofAddress_fits h)]
    rfl

theorem store?_eq {b : Bus} (hb : b.Complete) (w : Width) (a value : UInt32) :
    b.store? w a value = some (b.store w a value) := by
  have ht := Target.ofAddress?_eq (fun p => Device.writeHole? p.State) w (w.align a)
    Peripheral.writeHole_le
  rw [store?, ht, store, Target.ofStore]
  split
  · rfl
  · simp only [Option.bind_eq_bind, Option.bind_some]
    cases h : Target.ofAddress (fun p => Device.writeHole? p.State) w (w.align a) with
    | error e => rfl
    | ok t =>
      simp only [write?_eq hb (Target.ofAddress_fits h)]
      rfl

/-- A sound unit without its last register fails when that register is read. -/
theorem load?_last {b : Bus} (hb : ¬ b.Complete) : b.load? .half 0x1F801FFE = none := by
  have ht : Target.ofAddress? (fun p => Device.readHole? p.State) .half
      (Width.half.align 0x1F801FFE) = some (.ok (.device .spu 0x3FE)) := rfl
  have hr : b.spu.read? .half 0x3FE = none := by
    rw [Spu.read?, Spu.readHalf?_last _ (Nat.lt_of_not_le hb)]
    rfl
  rw [load?, ht]
  simp only [Option.bind_eq_bind, Option.bind_some, read?, hr, Option.bind_none]

end Bus

end R3000
