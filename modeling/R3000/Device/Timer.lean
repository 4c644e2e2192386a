import R3000.Device.Interrupt

/-!
# Timers

Three free-running sixteen-bit counters, each with a target. A tick advances
every counter; reaching the target or the highest value sets a flag in the
mode register and may raise the timer's interrupt line. Reading a mode
register clears its two flags.
-/

namespace R3000

structure TimerChannel where
  counter : UInt16 := 0
  mode : UInt16 := 0x0400
  target : UInt16 := 0
  /-- The interrupt was raised since the mode was last written. -/
  fired : Bool := false
deriving DecidableEq, Repr, Inhabited

namespace TimerChannel

/-! ## Mode bits -/

/-- The counter starts over at the target, not at the highest value. -/
def resetOnTarget : UInt16 := 0x0008

def irqOnTarget : UInt16 := 0x0010

def irqOnMax : UInt16 := 0x0020

/-- The interrupt may be raised more than once. -/
def irqRepeat : UInt16 := 0x0040

/-- Raising the interrupt toggles the request bit and does not clear it. -/
def irqToggle : UInt16 := 0x0080

/-- The request bit, low while a request is made. -/
def irqRequest : UInt16 := 0x0400

def reachedTarget : UInt16 := 0x0800

def reachedMax : UInt16 := 0x1000

def hasMode (c : TimerChannel) (bit : UInt16) : Bool :=
  c.mode &&& bit != 0

/-! ## Registers -/

def writeCounter (c : TimerChannel) (value : UInt32) : TimerChannel :=
  { c with counter := value.toUInt16 }

/-- The mode, and the channel with both flags cleared. -/
def readMode (c : TimerChannel) : UInt16 × TimerChannel :=
  (c.mode, { c with mode := c.mode &&& ~~~(reachedTarget ||| reachedMax) })

/-- A written mode starts the counter over and arms the interrupt again. -/
def writeMode (c : TimerChannel) (value : UInt32) : TimerChannel :=
  { c with mode := (value.toUInt16 &&& 0x03FF) ||| irqRequest, counter := 0, fired := false }

def writeTarget (c : TimerChannel) (value : UInt32) : TimerChannel :=
  { c with target := value.toUInt16 }

/-! ## Ticks -/

/-- Note that the counter stands at the target. -/
def meetTarget (c : TimerChannel) : TimerChannel :=
  let c := { c with mode := c.mode ||| reachedTarget }
  if c.hasMode resetOnTarget then { c with counter := 0 } else c

/-- Note that the counter stands at the highest value. -/
def meetMax (c : TimerChannel) : TimerChannel :=
  let c := { c with mode := c.mode ||| reachedMax }
  if c.hasMode resetOnTarget then c else { c with counter := 0 }

/-- Raise the interrupt, unless it was raised before and does not repeat. -/
def raise (c : TimerChannel) : Bool × TimerChannel :=
  if c.fired && !c.hasMode irqRepeat then (false, c)
  else if c.hasMode irqToggle then (true, { c with fired := true, mode := c.mode ^^^ irqRequest })
  else (true, { c with fired := true, mode := c.mode &&& ~~~irqRequest })

/-- Advance by one. The target is looked at first; a counter that starts over
there no longer stands at the highest value. -/
def tick (c : TimerChannel) : Bool × TimerChannel :=
  let c := { c with counter := c.counter + 1 }
  let atTarget := c.counter == c.target
  let c := if atTarget then c.meetTarget else c
  let atMax := c.counter == 0xFFFF
  let c := if atMax then c.meetMax else c
  if (atTarget && c.hasMode irqOnTarget) || (atMax && c.hasMode irqOnMax) then c.raise
  else (false, c)

end TimerChannel

structure Timers where
  channels : Vector TimerChannel 3 := Vector.replicate 3 {}
deriving DecidableEq, Repr, Inhabited

namespace Timers

def modifyChannel (t : Timers) (n : Fin 3) (f : TimerChannel → TimerChannel) : Timers :=
  ⟨t.channels.set n (f t.channels[n])⟩

/-- Advance every channel. The answer holds the interrupt lines to raise. -/
def tick (t : Timers) : UInt16 × Timers :=
  let (irq₀, c₀) := t.channels[0].tick
  let (irq₁, c₁) := t.channels[1].tick
  let (irq₂, c₂) := t.channels[2].tick
  let line (raised : Bool) (n : Fin 3) : UInt16 :=
    if raised then InterruptController.timerLine n else 0
  (line irq₀ 0 ||| line irq₁ 1 ||| line irq₂ 2, ⟨#v[c₀, c₁, c₂]⟩)

def readMode (t : Timers) (n : Fin 3) : UInt16 × Timers :=
  let (mode, c) := t.channels[n].readMode
  (mode, ⟨t.channels.set n c⟩)

/-! ## Registers -/

inductive Register where
  | counter (n : Fin 3)
  | mode (n : Fin 3)
  | target (n : Fin 3)
deriving DecidableEq, Repr

def Register.ofOffset? (offset : UInt32) : Option Register :=
  let n := (offset >>> 4).toNat
  let slot := offset &&& 0xF
  if h : n < 3 then
    if slot == 0 then some (.counter ⟨n, h⟩)
    else if slot == 4 then some (.mode ⟨n, h⟩)
    else if slot == 8 then some (.target ⟨n, h⟩)
    else none
  else none

def readRegister (t : Timers) : Register → UInt32 × Timers
  | .counter n => (t.channels[n].counter.toUInt32, t)
  | .mode n =>
    let (mode, t) := t.readMode n
    (mode.toUInt32, t)
  | .target n => (t.channels[n].target.toUInt32, t)

def writeRegister (t : Timers) (r : Register) (value : UInt32) : Timers :=
  match r with
  | .counter n => t.modifyChannel n (·.writeCounter value)
  | .mode n => t.modifyChannel n (·.writeMode value)
  | .target n => t.modifyChannel n (·.writeTarget value)

def answers (offset : UInt32) : Bool :=
  (Register.ofOffset? offset).isSome

/-- Whether a halfword access at `offset` meets the upper half of a word, which
reads as zero and takes no writes. -/
def isUpperHalf (offset : UInt32) : Bool :=
  offset &&& 2 != 0

def hole? (w : Width) (offset : UInt32) : Option UInt32 :=
  match w with
  | .half => if isUpperHalf offset || answers offset then none else some offset
  | _ => registerHole? answers w offset

def readWord (t : Timers) (offset : UInt32) : UInt32 × Timers :=
  match Register.ofOffset? offset with
  | some r => t.readRegister r
  | none => (0, t)

def writeWord (t : Timers) (offset value : UInt32) : Timers :=
  match Register.ofOffset? offset with
  | some r => t.writeRegister r value
  | none => t

/-- Read a register and put one byte into it. -/
def writeByte (t : Timers) (offset value : UInt32) : Timers :=
  let (content, t) := t.readWord (wordAddress offset)
  t.writeWord (wordAddress offset) (Width.byte.merge offset content value)

/-! ## Notes -/

private def timerNote (text : String) : Note :=
  ⟨.trace, .timer, text⟩

/-- What a tick that raised `lines` reports. -/
def tickNotes (lines : UInt16) : List Note :=
  (List.finRange 3).filterMap fun n =>
    if lines &&& InterruptController.timerLine n != 0 then
      some (timerNote ("Timer " ++ toString n.val ++ " IRQ"))
    else none

def wordNotes (offset value : UInt32) : List Note :=
  if answers offset then
    [timerNote ("Timer write +0x" ++ Hex.padded 2 offset.toNat ++ " = 0x" ++
      Hex.padded 4 value.toNat)]
  else []

instance : Device Timers where
  name := "Timers"
  first := 0x1F801100
  last := 0x1F80112F
  readHole? := hole?
  writeHole? := hole?
  read t w offset :=
    match w with
    | .word => t.readWord offset
    | .half => if isUpperHalf offset then (0, t) else t.readWord offset
    | .byte =>
      let (content, t) := t.readWord (wordAddress offset)
      (Width.byte.lane offset content, t)
  write t w offset value :=
    match w with
    | .word => t.writeWord offset value
    | .half => if isUpperHalf offset then t else t.writeWord offset value
    | .byte => t.writeByte offset value
  writeNotes t w offset value :=
    match w with
    | .word => wordNotes offset value
    | .half => if isUpperHalf offset then [] else wordNotes offset value
    | .byte =>
      wordNotes (wordAddress offset)
        (Width.byte.merge offset (t.readWord (wordAddress offset)).1 value)

end Timers

end R3000
