import R3000.Proofs.Bus.InPlace

/-!
# Accesses of instructions

An instruction makes at most one access to the bus, and its operands say which.
The bus that the instruction leaves is the one that its access leaves, and an
instruction that fails has no access, or one that was refused and did nothing.
-/

namespace R3000

/-! ## Words that are stored back -/

theorem Peripheral.writeHole_word (p : Peripheral) (offset : UInt32) :
    Device.writeHole? p.State .word offset = Device.readHole? p.State .word offset := by
  cases p <;> rfl

namespace Target

/-- Only the holes of the width that is used matter. -/
theorem ofAddress_congr {hole₁ hole₂ : Peripheral → Width → UInt32 → Option UInt32} {w : Width}
    (h : ∀ p offset, hole₁ p w offset = hole₂ p w offset) (address : UInt32) :
    ofAddress hole₁ w address = ofAddress hole₂ w address := by
  simp only [ofAddress, ofOccupant, h]

/-- Words are stored where they are loaded. -/
theorem ofStore_word (a : UInt32) : ofStore .word a = ofLoad .word a :=
  ofAddress_congr Peripheral.writeHole_word _

theorem ofLoad_wordAddress (a : UInt32) : ofLoad .word (wordAddress a) = ofLoad .word a := by
  rw [ofLoad, ofLoad]
  exact congrArg _ (wordAddress_wordAddress a)

end Target

/-- A word that could be loaded can be stored back, whatever became of the bus. -/
theorem Bus.store_back {b b₁ : Bus} {a loaded : UInt32}
    (hl : b.load .word a = .ok (loaded, b₁)) (b₂ : Bus) (value : UInt32) :
    ∃ b', b₂.store .word (wordAddress a) value = .ok b' := by
  obtain ⟨t, ht, -⟩ := load_ok hl
  rw [store_eq_map, Target.ofStore_word, Target.ofLoad_wordAddress, ht]
  split <;> exact ⟨_, rfl⟩

/-! ## Accesses of an instruction -/

/-- What an instruction does on the bus. -/
inductive Access where
  | none
  | load (w : Width) (address : UInt32)
  | store (w : Width) (address value : UInt32)
  /-- Load the word around the address and store what `f` makes of it. -/
  | update (address : UInt32) (f : UInt32 → UInt32)

/-- Carry an access out on the bus, where what was done before a refusal stays. -/
def Access.inPlace : Access → InPlace Bus Unit
  | none => pure ()
  | load w address => do
    let _ ← Bus.loadInPlace w address
  | store w address value => Bus.storeInPlace w address value
  | update address f => do
    let content ← Bus.loadInPlace .word address
    Bus.storeInPlace .word (wordAddress address) (f content)

/-- The bus after an access, refused or not. -/
def Access.leaves (a : Access) (b : Bus) : Bus :=
  match a.inPlace b with
  | .ok _ b' => b'
  | .error _ b' => b'

namespace Access

variable {b b' : Bus} {w : Width} {a value : UInt32} {f : UInt32 → UInt32} {e : Error}

theorem leaves_load (h : b.load w a = .ok (value, b')) : (load w a).leaves b = b' := by
  rw [leaves, inPlace, bind_of_ok _ (Bus.loadInPlace_ok h)]
  rfl

theorem leaves_load_error (h : b.load w a = .error e) : (load w a).leaves b = b := by
  rw [leaves, inPlace, bind_of_error _ (Bus.loadInPlace_error h)]

theorem leaves_store (h : b.store w a value = .ok b') : (store w a value).leaves b = b' := by
  rw [leaves, inPlace, Bus.storeInPlace_ok h]

theorem leaves_store_error (h : b.store w a value = .error e) :
    (store w a value).leaves b = b := by
  rw [leaves, inPlace, Bus.storeInPlace_error h]

/-- Once the word is loaded, an update is a store. -/
theorem leaves_update (h : b.load .word a = .ok (value, b')) :
    (update a f).leaves b = (store .word (wordAddress a) (f value)).leaves b' := by
  rw [leaves, inPlace, bind_of_ok _ (Bus.loadInPlace_ok h)]
  rfl

theorem leaves_update_error (h : b.load .word a = .error e) : (update a f).leaves b = b := by
  rw [leaves, inPlace, bind_of_error _ (Bus.loadInPlace_error h)]

end Access

namespace Cpu

open Arithmetic

/-- The access of an instruction. -/
def access (c : Cpu) (i : Instruction) : Access :=
  let address := c.effectiveAddress i
  let value := c.reg i.rt
  match i.opcode with
  | .lb | .lbu => .load .byte address
  | .lh | .lhu => .load .half address
  | .lw | .lwl | .lwr => .load .word address
  | .sb => .store .byte address value
  | .sh => .store .half address value
  | .sw => .store .word address value
  | .swl => .update address (storeLeft address · value)
  | .swr => .update address (storeRight address · value)
  | _ => .none

variable {c : Cpu} {b : Bus} {e : Error}

/-- An outcome that fails exactly where `x` does fails with the same error. -/
theorem error_of_fault {α : Type} {x : Except Error α} {o : Outcome}
    (herror : ∀ e', x = .error e' → o.fault = some e') (hok : ∀ a, x = .ok a → o.fault = none)
    (h : o.fault = some e) : x = .error e := by
  cases x with
  | error e' => exact congrArg _ (Option.some.inj ((herror e' rfl).symm.trans h))
  | ok a => nomatch (hok a rfl).symm.trans h

theorem load_refused {w : Width} {a : UInt32} {r : RegisterIndex} {f : UInt32 → UInt32}
    (h : (c.loadInto b w a r f).fault = some e) : b.load w a = .error e := by
  rw [loadInto, Outcome.after_fault] at h
  exact error_of_fault (fun _ he => by rw [he]; rfl) (fun _ ha => by rw [ha]; rfl) h

theorem store_refused {w : Width} {a value : UInt32}
    (h : (c.storeFrom b w a value).fault = some e) : b.store w a value = .error e := by
  rw [storeFrom, Outcome.after_fault] at h
  exact error_of_fault (fun _ he => by rw [he]; rfl) (fun _ ha => by rw [ha]; rfl) h

/-- When an update fails, its load failed. -/
theorem update_refused {a : UInt32} {f : UInt32 → UInt32}
    (h : (c.update b a f).fault = some e) : b.load .word a = .error e := by
  rw [update, Outcome.after_fault] at h
  refine error_of_fault (fun _ he => by rw [he]; rfl) (fun x hx => ?_) h
  obtain ⟨b', hs⟩ := Bus.store_back hx x.2 (f x.1)
  simp only [hx, storeFrom, Outcome.after_fault, hs]
  rfl

/-- An instruction that fails has no access, or its access was refused and did
nothing. -/
theorem execute_fault {i : Instruction} (h : (c.execute b i).fault = some e) :
    c.access i = .none ∨ (c.access i).inPlace b = .error e b := by
  unfold execute at h
  unfold access
  cases ho : i.opcode with
  | lb | lbu | lh | lhu | lw | lwl | lwr =>
    rw [ho] at h
    exact .inr (bind_of_error _ (Bus.loadInPlace_error (load_refused h)))
  | sb | sh | sw =>
    rw [ho] at h
    exact .inr (Bus.storeInPlace_error (store_refused h))
  | swl | swr =>
    rw [ho] at h
    exact .inr (bind_of_error _ (Bus.loadInPlace_error (update_refused h)))
  | _ => exact .inl rfl

/-- An instruction that fails changes neither processor nor bus. -/
theorem Executes.unchanged {i : Instruction} {c' : Cpu} {b' : Bus}
    (h : c.Executes b i c' b' (some e)) : c' = c ∧ b' = b := by
  cases h with
  | loadFault | storeFault | unaligned | reject => exact ⟨rfl, rfl⟩
  | updateFault hl hs =>
    obtain ⟨b', hback⟩ := Bus.store_back hl _ _
    rw [hback] at hs
    nomatch hs

/-! ## The bus after an instruction -/

theorem loadInto_bus (c : Cpu) (b : Bus) (w : Width) (a : UInt32) (r : RegisterIndex)
    (f : UInt32 → UInt32) : (c.loadInto b w a r f).bus = (Access.load w a).leaves b := by
  rw [loadInto, Outcome.after_bus]
  cases hl : b.load w a with
  | error e => exact (Access.leaves_load_error hl).symm
  | ok x => exact (Access.leaves_load hl).symm

theorem storeFrom_bus (c : Cpu) (b : Bus) (w : Width) (a value : UInt32) :
    (c.storeFrom b w a value).bus = (Access.store w a value).leaves b := by
  rw [storeFrom, Outcome.after_bus]
  cases hs : b.store w a value with
  | error e => exact (Access.leaves_store_error hs).symm
  | ok b' => exact (Access.leaves_store hs).symm

theorem update_bus (c : Cpu) (b : Bus) (a : UInt32) (f : UInt32 → UInt32) :
    (c.update b a f).bus = (Access.update a f).leaves b := by
  rw [update, Outcome.after_bus]
  cases hl : b.load .word a with
  | error e => exact (Access.leaves_update_error hl).symm
  | ok x => exact (c.storeFrom_bus ..).trans (Access.leaves_update hl).symm

/-- An instruction leaves the bus as its access does, unless it writes to system control. -/
theorem execute_bus (c : Cpu) (b : Bus) {i : Instruction}
    (hi : i.opcode ∉ Opcode.systemWriters) : (c.execute b i).bus = (c.access i).leaves b := by
  unfold execute access
  cases ho : i.opcode with
  | lb | lbu | lh | lhu | lw | lwl | lwr => exact loadInto_bus ..
  | sb | sh | sw => exact storeFrom_bus ..
  | swl | swr => exact update_bus ..
  | add | sub | addi =>
    simp only [checked]
    split <;> rfl
  | jr | jalr =>
    simp only [jumpRegister]
    split <;> rfl
  | mtc0 | ctc0 => exact absurd (by rw [ho]; decide) hi
  | _ => rfl

/-- A write to system control may change the isolation of the bus, and no more. -/
theorem execute_bus_system (c : Cpu) (b : Bus) {i : Instruction}
    (hi : i.opcode ∈ Opcode.systemWriters) :
    ∃ isolated, (c.execute b i).bus = b.setIsolated isolated := by
  rw [execute_systemWriter c b hi, moveToSystem]
  split
  · exact ⟨_, rfl⟩
  · exact ⟨b.isolated, rfl⟩

end Cpu

end R3000
