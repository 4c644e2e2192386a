import R3000.Memory.Bank
import R3000.Memory.Region

/-!
# Memory

One bank for each region of the physical map. `bank` is the view through
which memory is described; `modify` changes a single bank.
-/

namespace R3000

structure Memory where
  ram : Bank Region.ram.size
  expansion1 : Bank Region.expansion1.size
  scratchpad : Bank Region.scratchpad.size
  ports : Bank Region.ports.size
  expansion2 : Bank Region.expansion2.size
  expansion3 : Bank Region.expansion3.size
  bios : Bank Region.bios.size

namespace Memory

/-- Zero everywhere. -/
def blank : Memory where
  ram := Bank.blank 21
  expansion1 := Bank.blank 23
  scratchpad := Bank.blank 10
  ports := Bank.blank 13
  expansion2 := Bank.blank 13
  expansion3 := Bank.blank 21
  bios := Bank.blank 19

def bank (m : Memory) : (r : Region) → Bank r.size
  | .ram => m.ram
  | .expansion1 => m.expansion1
  | .scratchpad => m.scratchpad
  | .ports => m.ports
  | .expansion2 => m.expansion2
  | .expansion3 => m.expansion3
  | .bios => m.bios

/-- Apply `f` to the bank of region `r`. -/
@[inline] def modify (m : Memory) (r : Region) (f : {n : Nat} → Bank n → Bank n) : Memory :=
  match r with
  | .ram => { m with ram := f m.ram }
  | .expansion1 => { m with expansion1 := f m.expansion1 }
  | .scratchpad => { m with scratchpad := f m.scratchpad }
  | .ports => { m with ports := f m.ports }
  | .expansion2 => { m with expansion2 := f m.expansion2 }
  | .expansion3 => { m with expansion3 := f m.expansion3 }
  | .bios => { m with bios := f m.bios }

theorem bank_modify (m : Memory) (r q : Region) (f : {n : Nat} → Bank n → Bank n) :
    (m.modify r f).bank q = if q = r then f (m.bank q) else m.bank q := by
  cases r <;> cases q <;> rfl

theorem ext_bank {m n : Memory} (h : ∀ r, m.bank r = n.bank r) : m = n := by
  cases m; cases n
  have hr := h .ram; have h1 := h .expansion1; have hs := h .scratchpad; have hp := h .ports
  have h2 := h .expansion2; have h3 := h .expansion3; have hb := h .bios
  simp only [bank] at hr h1 hs hp h2 h3 hb
  subst hr h1 hs hp h2 h3 hb
  rfl

/-- The byte at an offset of a region's backing store. -/
def get (m : Memory) (r : Region) (i : Nat) : UInt8 :=
  (m.bank r).get i

def load (m : Memory) (r : Region) (w : Width) (i : Nat) : UInt32 :=
  (m.bank r).load w i

def store (m : Memory) (r : Region) (w : Width) (i : Nat) (value : UInt32) : Memory :=
  m.modify r fun b => b.store w i value

/-- Zero everywhere but in the BIOS. -/
def clear (m : Memory) : Memory :=
  { blank with bios := m.bios }

/-! ## Bulk writes to RAM -/

/-- Write the bytes of `data` from index `i` on to RAM, from `address` on. -/
def copyFrom (m : Memory) (address : UInt32) (data : ByteArray) (i : Nat) : Memory :=
  if h : i < data.size then
    let m := m.modify .ram fun b => b.set (Region.ram.offset address) data[i]
    copyFrom m (address + 1) data (i + 1)
  else m
termination_by data.size - i

/-- Write `data` to RAM from physical address `address` on, wrapping at the end of RAM. -/
def copy (m : Memory) (address : UInt32) (data : ByteArray) : Memory :=
  m.copyFrom address data 0

/-- Write `count` bytes of `value` to RAM from physical address `address` on. -/
def fill (m : Memory) (address : UInt32) (count : Nat) (value : UInt8) : Memory :=
  match count with
  | 0 => m
  | count + 1 =>
    fill (m.modify .ram fun b => b.set (Region.ram.offset address) value) (address + 1) count value

end Memory

end R3000
