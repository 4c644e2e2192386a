import R3000.Device.Peripheral
import R3000.Proofs.Alignment

/-!
# Device accesses in place

A device works register by register. A narrow write reads the register around
it, replaces a lane and writes the register back, and each of the two accesses
can be refused. Here an access is that sequence, and what was done before a
refusal stays done. It comes to what `Device.load` and `Device.store` give,
where refusals are decided first.
-/

namespace R3000

/-- Work on a state that can be refused; the state at that moment stays. -/
abbrev InPlace (σ α : Type) : Type :=
  EStateM Error σ α

/-- Work that has done nothing when it is refused. -/
def settled {σ α : Type} (s : σ) : Except Error (α × σ) → EStateM.Result Error σ α
  | .ok (a, s') => .ok a s'
  | .error e => .error e s

theorem bind_of_ok {ε σ α β : Type} {x : EStateM ε σ α} {s s' : σ} {a : α}
    (f : α → EStateM ε σ β) (h : x s = .ok a s') : (x >>= f) s = f a s' := by
  change EStateM.bind x f s = f a s'
  rw [EStateM.bind, h]

theorem bind_of_error {ε σ α β : Type} {x : EStateM ε σ α} {s s' : σ} {e : ε}
    (f : α → EStateM ε σ β) (h : x s = .error e s') : (x >>= f) s = .error e s' := by
  change EStateM.bind x f s = .error e s'
  rw [EStateM.bind, h]

/-! ## Words and lanes -/

theorem wordAddress_wordAddress (a : UInt32) : wordAddress (wordAddress a) = wordAddress a :=
  Width.word.align_align a

theorem wordAddress_align (w : Width) (a : UInt32) :
    wordAddress (w.align a) = wordAddress a := by
  cases w with
  | byte => rfl
  | half =>
    rw [wordAddress, Width.align, UInt32.and_assoc]
    rfl
  | word => exact wordAddress_wordAddress a

/-- A shift drops what rounding down to a word clears. -/
theorem wordAddress_shiftRight {k : UInt32} (hk : (0xFFFFFFFC : UInt32) >>> k = (-1) >>> k)
    (a : UInt32) : wordAddress a >>> k = a >>> k := by
  rw [wordAddress, UInt32.shiftRight_and, hk, ← UInt32.shiftRight_and, UInt32.and_neg_one]

namespace Width

theorem lane_zero (w : Width) (address : UInt32) : w.lane address 0 = 0 := by
  rw [lane, UInt32.zero_shiftRight, truncate, UInt32.zero_and]

theorem shift_word (address : UInt32) : word.shift address = 0 := by
  have h : word.align address &&& 3 = 0 := by
    rw [align, UInt32.and_assoc]
    exact UInt32.and_zero
  rw [shift, h]
  rfl

@[simp] theorem lane_word (address content : UInt32) : word.lane address content = content := by
  rw [lane, shift_word, UInt32.shiftRight_zero, truncate]
  exact UInt32.and_neg_one

@[simp] theorem merge_word (address content value : UInt32) :
    word.merge address content value = value := by
  have hmask : word.mask <<< word.shift address = -1 := by
    rw [shift_word]
    rfl
  rw [merge, hmask, shift_word, UInt32.shiftLeft_zero]
  simp

end Width

/-! ## Registers of a device -/

namespace Device

variable {D : Type} [Device D]

/-- Load a word register, or a lane of one. -/
def loadLane (read : UInt32 → InPlace D UInt32) (w : Width) (offset : UInt32) :
    InPlace D UInt32 :=
  match w with
  | .word => read offset
  | _ => do return w.lane offset (← read (wordAddress offset))

/-- Store a word register; for a lane of one, read it first. -/
def storeLane (read : UInt32 → InPlace D UInt32) (write : UInt32 → UInt32 → InPlace D Unit)
    (w : Width) (offset value : UInt32) : InPlace D Unit :=
  match w with
  | .word => write offset value
  | _ => do
    let content ← read (wordAddress offset)
    write (wordAddress offset) (w.merge offset content value)

/-- A read of width `w` gives a lane of the register around it. -/
structure ReadsLane (D : Type) [Device D] (w : Width) : Prop where
  hole : ∀ offset, readHole? D w offset = readHole? D .word (wordAddress offset)
  read : ∀ (d : D) offset, read d w offset =
    (w.lane offset (read d .word (wordAddress offset)).1, (read d .word (wordAddress offset)).2)

/-- A write of width `w` replaces a lane of the register around it. A register
that can be read can be written. -/
structure WritesLane (D : Type) [Device D] (w : Width) : Prop where
  hole : ∀ offset, writeHole? D w offset = readHole? D .word (wordAddress offset)
  back : ∀ offset, writeHole? D .word (wordAddress offset) = readHole? D .word (wordAddress offset)
  write : ∀ (d : D) offset value, write d w offset value =
    write (read d .word (wordAddress offset)).2 .word (wordAddress offset)
      (w.merge offset (read d .word (wordAddress offset)).1 value)

section

variable {readReg : UInt32 → InPlace D UInt32}
  (hr : ∀ d offset, readReg offset d = settled d (load d .word offset))
include hr

theorem loadLane_eq {w : Width} (h : w ≠ .word → ReadsLane D w) (d : D) (offset : UInt32) :
    loadLane readReg w offset d = settled d (load d w offset) := by
  by_cases hw : w = .word
  · subst hw
    exact hr d offset
  · have hlane := h hw
    have hseq : loadLane readReg w offset =
        readReg (wordAddress offset) >>= fun content => pure (w.lane offset content) := by
      cases w with
      | word => exact absurd rfl hw
      | byte | half => rfl
    have hread := hr d (wordAddress offset)
    rw [load] at hread
    rw [hseq, load, hlane.hole]
    cases hhole : readHole? D .word (wordAddress offset) with
    | some hole =>
      rw [hhole] at hread
      exact bind_of_error _ hread
    | none =>
      rw [hhole] at hread
      rw [bind_of_ok _ hread, hlane.read]
      rfl

variable {writeReg : UInt32 → UInt32 → InPlace D Unit}
  (hwrite : ∀ d offset value,
    writeReg offset value d = settled d ((store d .word offset value).map (((), ·))))
include hwrite

/-- A lane is stored only in a register that was read, so nothing is refused
after something was done. -/
theorem storeLane_eq {w : Width} (h : w ≠ .word → WritesLane D w) (d : D)
    (offset value : UInt32) :
    storeLane readReg writeReg w offset value d =
      settled d ((store d w offset value).map (((), ·))) := by
  by_cases hw : w = .word
  · subst hw
    exact hwrite d offset value
  · have hlane := h hw
    have hseq : storeLane readReg writeReg w offset value =
        readReg (wordAddress offset) >>= fun content =>
          writeReg (wordAddress offset) (w.merge offset content value) := by
      cases w with
      | word => exact absurd rfl hw
      | byte | half => rfl
    have hread := hr d (wordAddress offset)
    have hback := hlane.back offset
    rw [load] at hread
    rw [hseq, store, hlane.hole]
    cases hhole : readHole? D .word (wordAddress offset) with
    | some hole =>
      rw [hhole] at hread
      exact bind_of_error _ hread
    | none =>
      rw [hhole] at hread hback
      rw [bind_of_ok _ hread, hwrite, store, hback, hlane.write]
      rfl

end

end Device

theorem registerHole_narrow {w : Width} (hw : w ≠ .word) (answers : UInt32 → Bool)
    (offset : UInt32) :
    registerHole? answers w offset = registerHole? answers .word (wordAddress offset) := by
  cases w with
  | word => exact absurd rfl hw
  | byte | half => rfl

/-! ## Devices -/

namespace InterruptController

def readInPlace (offset : UInt32) : InPlace InterruptController UInt32 := do
  let c ← get
  if offset == 0 then return c.status.toUInt32
  else if offset == 4 then return c.mask.toUInt32
  else throw (Device.unmapped InterruptController offset)

def writeInPlace (offset value : UInt32) : InPlace InterruptController Unit :=
  if offset == 0 then modify (·.writeStatus value)
  else if offset == 4 then modify (·.writeMask value)
  else throw (Device.unmapped InterruptController offset)

theorem readInPlace_eq (c : InterruptController) (offset : UInt32) :
    readInPlace offset c = settled c (Device.load c .word offset) := by
  by_cases h0 : offset = 0
  · subst h0
    exact congrArg (EStateM.Result.ok · c) (Width.lane_word 0 _).symm
  · by_cases h4 : offset = 4
    · subst h4
      exact congrArg (EStateM.Result.ok · c) (Width.lane_word 4 _).symm
    · simp [readInPlace, Device.load, Device.readHole?, registerHole?, answers, h0, h4]
      rfl

theorem writeInPlace_eq (c : InterruptController) (offset value : UInt32) :
    writeInPlace offset value c = settled c ((Device.store c .word offset value).map (((), ·))) := by
  by_cases h0 : offset = 0
  · subst h0
    exact congrArg (fun v => EStateM.Result.ok () (c.writeStatus v)) (Width.merge_word 0 _ _).symm
  · by_cases h4 : offset = 4
    · subst h4
      exact congrArg (fun v => EStateM.Result.ok () (c.writeMask v)) (Width.merge_word 4 _ _).symm
    · simp [writeInPlace, Device.store, Device.writeHole?, registerHole?, answers, h0, h4]
      rfl

theorem readsLane {w : Width} (hw : w ≠ .word) : Device.ReadsLane InterruptController w where
  hole offset := registerHole_narrow hw answers offset
  read c offset := by simp [Device.read, wordAddress_wordAddress]

theorem writesLane {w : Width} (hw : w ≠ .word) : Device.WritesLane InterruptController w where
  hole offset := registerHole_narrow hw answers offset
  back _ := rfl
  write c offset value := by simp [Device.read, Device.write, merged, wordAddress_wordAddress]

end InterruptController

namespace Dma

def readInPlace (offset : UInt32) : InPlace Dma UInt32 := do
  match Register.ofOffset? offset with
  | some r => return (← get).readRegister r
  | none => throw (Device.unmapped Dma offset)

def writeInPlace (offset value : UInt32) : InPlace Dma Unit :=
  match Register.ofOffset? offset with
  | some r => modify (·.writeRegister r value)
  | none => throw (Device.unmapped Dma offset)

theorem readInPlace_eq (d : Dma) (offset : UInt32) :
    readInPlace offset d = settled d (Device.load d .word offset) := by
  cases h : Register.ofOffset? offset <;>
    simp [readInPlace, Device.load, Device.readHole?, registerHole?, answers, Device.read, h] <;> rfl

theorem writeInPlace_eq (d : Dma) (offset value : UInt32) :
    writeInPlace offset value d = settled d ((Device.store d .word offset value).map (((), ·))) := by
  cases h : Register.ofOffset? offset <;>
    simp [writeInPlace, Device.store, Device.writeHole?, registerHole?, answers, Device.write, h] <;>
    rfl

theorem Register.ofOffset_wordAddress (offset : UInt32) :
    ofOffset? (wordAddress offset) = ofOffset? offset := by
  rw [ofOffset?, ofOffset?, wordAddress_shiftRight (by decide), wordAddress_shiftRight (by decide)]

theorem readsLane {w : Width} (hw : w ≠ .word) : Device.ReadsLane Dma w where
  hole offset := registerHole_narrow hw answers offset
  read d offset := by
    cases h : Register.ofOffset? offset <;>
      simp [Device.read, Register.ofOffset_wordAddress, h, Width.lane_zero]

theorem writesLane {w : Width} (hw : w ≠ .word) : Device.WritesLane Dma w where
  hole offset := registerHole_narrow hw answers offset
  back _ := rfl
  write d offset value := by
    cases h : Register.ofOffset? offset <;>
      simp [Device.read, Device.write, Register.ofOffset_wordAddress, h]

end Dma

namespace Timers

def readInPlace (offset : UInt32) : InPlace Timers UInt32 :=
  match Register.ofOffset? offset with
  | some r => modifyGet (·.readRegister r)
  | none => throw (Device.unmapped Timers offset)

def writeInPlace (offset value : UInt32) : InPlace Timers Unit :=
  match Register.ofOffset? offset with
  | some r => modify (·.writeRegister r value)
  | none => throw (Device.unmapped Timers offset)

/-- The upper half of a word reads as zero. -/
def loadInPlace (w : Width) (offset : UInt32) : InPlace Timers UInt32 :=
  match w with
  | .half => if isUpperHalf offset then pure 0 else readInPlace offset
  | _ => Device.loadLane readInPlace w offset

/-- The upper half of a word takes no writes. -/
def storeInPlace (w : Width) (offset value : UInt32) : InPlace Timers Unit :=
  match w with
  | .half => if isUpperHalf offset then pure () else writeInPlace offset value
  | _ => Device.storeLane readInPlace writeInPlace w offset value

theorem readInPlace_eq (t : Timers) (offset : UInt32) :
    readInPlace offset t = settled t (Device.load t .word offset) := by
  cases h : Register.ofOffset? offset <;>
    simp [readInPlace, Device.load, Device.readHole?, hole?, registerHole?, answers, Device.read,
      readWord, h] <;> rfl

theorem writeInPlace_eq (t : Timers) (offset value : UInt32) :
    writeInPlace offset value t = settled t ((Device.store t .word offset value).map (((), ·))) := by
  cases h : Register.ofOffset? offset <;>
    simp [writeInPlace, Device.store, Device.writeHole?, hole?, registerHole?, answers,
      Device.write, writeWord, h] <;>
    rfl

theorem readsLane : Device.ReadsLane Timers .byte where
  hole _ := rfl
  read _ _ := by simp [Device.read]

theorem writesLane : Device.WritesLane Timers .byte where
  hole _ := rfl
  back _ := rfl
  write _ _ _ := rfl

/-- Below the upper half, a halfword access is a word access. -/
theorem load_half {offset : UInt32} (h : isUpperHalf offset = false) (t : Timers) :
    Device.load t .half offset = Device.load t .word offset := by
  simp [Device.load, Device.readHole?, hole?, registerHole?, Device.read, h]

theorem store_half {offset : UInt32} (h : isUpperHalf offset = false) (t : Timers)
    (value : UInt32) : Device.store t .half offset value = Device.store t .word offset value := by
  simp [Device.store, Device.writeHole?, hole?, registerHole?, Device.write, h]

theorem loadInPlace_eq (w : Width) (t : Timers) (offset : UInt32) :
    loadInPlace w offset t = settled t (Device.load t w offset) := by
  cases w with
  | word => exact Device.loadLane_eq readInPlace_eq (absurd rfl) t offset
  | byte => exact Device.loadLane_eq readInPlace_eq (fun _ => readsLane) t offset
  | half =>
    rw [loadInPlace]
    cases h : isUpperHalf offset with
    | false => exact load_half h t ▸ readInPlace_eq t offset
    | true =>
      simp [Device.load, Device.readHole?, hole?, Device.read, h]
      rfl

theorem storeInPlace_eq (w : Width) (t : Timers) (offset value : UInt32) :
    storeInPlace w offset value t =
      settled t ((Device.store t w offset value).map (((), ·))) := by
  cases w with
  | word => exact Device.storeLane_eq readInPlace_eq writeInPlace_eq (absurd rfl) t offset value
  | byte =>
    exact Device.storeLane_eq readInPlace_eq writeInPlace_eq (fun _ => writesLane) t offset value
  | half =>
    rw [storeInPlace]
    cases h : isUpperHalf offset with
    | false => exact store_half h t value ▸ writeInPlace_eq t offset value
    | true =>
      simp [Device.store, Device.writeHole?, hole?, Device.write, h]
      rfl

end Timers

namespace Gpu

def readInPlace (offset : UInt32) : InPlace Gpu UInt32 := do
  let g ← get
  if offset == 0 then return g.latch
  else if offset == 4 then return g.readStatus
  else throw (Device.unmapped Gpu offset)

def writeInPlace (offset value : UInt32) : InPlace Gpu Unit :=
  if offset == 0 then modify (·.submit value)
  else if offset == 4 then modify (·.control value)
  else throw (Device.unmapped Gpu offset)

/-- Narrow writes are dropped. -/
def storeInPlace (w : Width) (offset value : UInt32) : InPlace Gpu Unit :=
  match w with
  | .word => writeInPlace offset value
  | _ => pure ()

theorem readInPlace_eq (g : Gpu) (offset : UInt32) :
    readInPlace offset g = settled g (Device.load g .word offset) := by
  by_cases h0 : offset = 0
  · subst h0
    exact congrArg (EStateM.Result.ok · g) (Width.lane_word 0 _).symm
  · by_cases h4 : offset = 4
    · subst h4
      exact congrArg (EStateM.Result.ok · g) (Width.lane_word 4 _).symm
    · simp [readInPlace, Device.load, Device.readHole?, registerHole?, answers, h0, h4]
      rfl

theorem storeInPlace_eq (w : Width) (g : Gpu) (offset value : UInt32) :
    storeInPlace w offset value g =
      settled g ((Device.store g w offset value).map (((), ·))) := by
  cases w with
  | byte | half => rfl
  | word =>
    by_cases h0 : offset = 0
    · subst h0
      rfl
    · by_cases h4 : offset = 4
      · subst h4
        rfl
      · simp [storeInPlace, writeInPlace, Device.store, Device.writeHole?, registerHole?, answers,
          h0, h4]
        rfl

theorem readsLane {w : Width} (hw : w ≠ .word) : Device.ReadsLane Gpu w where
  hole offset := registerHole_narrow hw answers offset
  read g offset := by simp [Device.read, wordAddress_wordAddress]

end Gpu

namespace Spu

/-- Reading changes nothing here. -/
def loadInPlace (w : Width) (offset : UInt32) : InPlace Spu UInt32 := do
  let s ← get
  match w with
  | .byte => return s.readByte offset
  | .half => return (s.readHalf offset).toUInt32
  | .word => return s.readWord offset

def storeInPlace (w : Width) (offset value : UInt32) : InPlace Spu Unit := do
  match w with
  | .byte =>
    let s ← get
    modify (·.writeHalf offset (s.mergeByte offset value))
  | .half => modify (·.writeHalf offset value.toUInt16)
  | .word =>
    modify (·.writeHalf offset value.toUInt16)
    modify (·.writeHalf (offset + 2) (value >>> 16).toUInt16)

theorem loadInPlace_eq (w : Width) (s : Spu) (offset : UInt32) :
    loadInPlace w offset s = settled s (Device.load s w offset) := by
  cases w <;> rfl

theorem storeInPlace_eq (w : Width) (s : Spu) (offset value : UInt32) :
    storeInPlace w offset value s =
      settled s ((Device.store s w offset value).map (((), ·))) := by
  cases w <;> rfl

end Spu

namespace Peripheral

def loadInPlace : (p : Peripheral) → Width → (offset : UInt32) → InPlace p.State UInt32
  | .interrupt => Device.loadLane InterruptController.readInPlace
  | .dma => Device.loadLane Dma.readInPlace
  | .timers => Timers.loadInPlace
  | .gpu => Device.loadLane Gpu.readInPlace
  | .spu => Spu.loadInPlace

def storeInPlace : (p : Peripheral) → Width → (offset value : UInt32) → InPlace p.State Unit
  | .interrupt => Device.storeLane InterruptController.readInPlace InterruptController.writeInPlace
  | .dma => Device.storeLane Dma.readInPlace Dma.writeInPlace
  | .timers => Timers.storeInPlace
  | .gpu => Gpu.storeInPlace
  | .spu => Spu.storeInPlace

theorem loadInPlace_eq (p : Peripheral) (w : Width) (offset : UInt32) (d : p.State) :
    p.loadInPlace w offset d = settled d (Device.load d w offset) := by
  cases p with
  | interrupt =>
    exact Device.loadLane_eq InterruptController.readInPlace_eq InterruptController.readsLane d offset
  | dma => exact Device.loadLane_eq Dma.readInPlace_eq Dma.readsLane d offset
  | timers => exact Timers.loadInPlace_eq w d offset
  | gpu => exact Device.loadLane_eq Gpu.readInPlace_eq Gpu.readsLane d offset
  | spu => exact Spu.loadInPlace_eq w d offset

theorem storeInPlace_eq (p : Peripheral) (w : Width) (offset value : UInt32) (d : p.State) :
    p.storeInPlace w offset value d =
      settled d ((Device.store d w offset value).map (((), ·))) := by
  cases p with
  | interrupt =>
    exact Device.storeLane_eq InterruptController.readInPlace_eq
      InterruptController.writeInPlace_eq InterruptController.writesLane d offset value
  | dma =>
    exact Device.storeLane_eq Dma.readInPlace_eq Dma.writeInPlace_eq Dma.writesLane d offset value
  | timers => exact Timers.storeInPlace_eq w d offset value
  | gpu => exact Gpu.storeInPlace_eq w d offset value
  | spu => exact Spu.storeInPlace_eq w d offset value

end Peripheral

end R3000
