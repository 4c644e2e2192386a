import R3000.Proofs.Bounds.Bus
import R3000.Proofs.Bus.InPlace

/-!
# Refused accesses

Two parts of the address space can refuse an access: the last segment outside
the cache control register, always, and the I/O window, where no register
answers. The error names the aligned address, virtual in the first case and
physical in the second. All other accesses succeed, and so does a store that
isolation hides. A refused access leaves the bus as it was.
-/

namespace R3000

/-- The access falls in the last segment, outside the cache control register. -/
def Vacant (w : Width) (a : UInt32) : Prop :=
  0xC0000000 ≤ w.align a ∧ wordAddress (w.align a) ≠ 0xFFFE0130

/-- The access falls in the I/O window. -/
def InWindow (w : Width) (a : UInt32) : Prop :=
  w.align a < 0xC0000000 ∧
    0x1F801000 ≤ physical (w.align a) ∧ physical (w.align a) ≤ 0x1F801FFF

/-- When an access may be refused, and with which error. -/
structure Refusals {α : Type} (w : Width) (a : UInt32) (answer : Except Error α) : Prop where
  invalid_iff : answer = .error (.invalidMemoryAccess (w.align a)) ↔ Vacant w a
  error : ∀ e, answer = .error e →
    e = .invalidMemoryAccess (w.align a) ∨
      (e = .unmappedIo (physical (w.align a)) w.bytes ∧ InWindow w a)

namespace Refusals

variable {α β : Type} {w : Width} {a : UInt32} {answer : Except Error α}

/-- Every access to another address succeeds. -/
theorem answered (h : Refusals w a answer) (hvacant : ¬ Vacant w a) (hwindow : ¬ InWindow w a) :
    ∃ x, answer = .ok x := by
  cases answer with
  | ok x => exact ⟨x, rfl⟩
  | error e =>
    rcases h.error e rfl with rfl | ⟨-, hw⟩
    · exact absurd (h.invalid_iff.mp rfl) hvacant
    · exact absurd hw hwindow

theorem ok (hvacant : ¬ Vacant w a) (x : α) : Refusals w a (.ok x) where
  invalid_iff := ⟨fun hx => (nomatch hx), fun hv => absurd hv hvacant⟩
  error _ he := nomatch he

theorem invalid (hvacant : Vacant w a) :
    Refusals w a (.error (.invalidMemoryAccess (w.align a)) : Except Error α) where
  invalid_iff := ⟨fun _ => hvacant, fun _ => rfl⟩
  error _ he := .inl (Except.error.inj he).symm

theorem unmapped (hwindow : InWindow w a) :
    Refusals w a (.error (.unmappedIo (physical (w.align a)) w.bytes) : Except Error α) where
  invalid_iff := ⟨fun hx => (nomatch hx), fun hv => absurd hwindow.1 (UInt32.not_lt.mpr hv.1)⟩
  error _ he := .inr ⟨(Except.error.inj he).symm, hwindow⟩

/-- Refusals do not depend on what is made of an answer. -/
theorem map (f : α → β) (h : Refusals w a answer) : Refusals w a (answer.map f) := by
  cases answer with
  | error e =>
    exact ⟨by simpa [Except.map] using h.invalid_iff, by simpa [Except.map] using h.error⟩
  | ok x =>
    refine ok (fun hv => ?_) (f x)
    nomatch h.invalid_iff.mpr hv

end Refusals

namespace Target

variable (hole? : Peripheral → Width → UInt32 → Option UInt32) {w : Width} {a : UInt32}

theorem ofOccupant_refusals (hwindow : InWindow w a) :
    Refusals w a (ofOccupant hole? w (physical (w.align a))) := by
  have hvacant : ¬ Vacant w a := fun hv => absurd hwindow.1 (UInt32.not_lt.mpr hv.1)
  rw [ofOccupant]
  split
  · exact .unmapped hwindow
  · exact .ok hvacant _
  · exact .ok hvacant _
  · split
    · exact .unmapped hwindow
    · exact .ok hvacant _

/-- Which registers do not answer depends on the direction of the access; when
an access may be refused does not. -/
theorem ofAddress_refusals (w : Width) (a : UInt32) :
    Refusals w a (ofAddress hole? w (w.align a)) := by
  rw [ofAddress]
  split
  · rename_i hseg
    split
    · rename_i hcache
      exact .ok (fun hv => hv.2 (beq_iff_eq.mp hcache)) _
    · rename_i hcache
      exact .invalid ⟨hseg, fun h => hcache (beq_iff_eq.mpr h)⟩
  · rename_i hseg
    split
    · rename_i hports
      obtain ⟨hfirst, hlimit⟩ := (Region.ofPhysical_eq_iff (toNat_physical_lt _) _).mp hports
      refine ofOccupant_refusals hole? ⟨UInt32.not_le.mp hseg, hfirst, ?_⟩
      exact UInt32.le_iff_toNat_le.mpr (Nat.le_of_lt_succ (UInt32.lt_iff_toNat_lt.mp hlimit))
    · exact .ok (fun hv => hseg hv.1) _

end Target

namespace Bus

theorem load_refusals (b : Bus) (w : Width) (a : UInt32) : Refusals w a (b.load w a) := by
  rw [load_eq_map]
  exact (Target.ofAddress_refusals _ w a).map _

theorem hides_iff {b : Bus} {w : Width} {a : UInt32} :
    b.hides w a = true ↔ b.isolated = true ∧ w.align a < 0xC0000000 := by
  rw [hides, Bool.and_eq_true, decide_eq_true_iff]
  rfl

theorem store_refusals (b : Bus) (w : Width) (a value : UInt32) :
    Refusals w a (b.store w a value) := by
  rw [store_eq_map]
  split
  · rename_i hhides
    exact .ok (fun hv => absurd (hides_iff.mp hhides).2 (UInt32.not_lt.mpr hv.1)) b
  · exact (Target.ofAddress_refusals _ w a).map _

/-- While the cache is isolated, every store below the last segment succeeds and
is lost. -/
theorem store_isolated {b : Bus} (hi : b.isolated = true) {a : UInt32} (ha : a < 0xC0000000)
    (w : Width) (value : UInt32) : b.store w a value = .ok b := by
  have halign : w.align a < 0xC0000000 := UInt32.lt_of_le_of_lt (w.align_le a) ha
  rw [store_eq_map, if_pos (hides_iff.mpr ⟨hi, halign⟩)]

/-- Accesses never go out of range. They succeed or are refused as `Refusals`
says. An access carried out in place has done nothing when it is refused. -/
theorem access_total (b : Bus) (hb : b.spu.registers.size = Spu.registerCount)
    (w : Width) (a value : UInt32) :
    (b.load? w a = some (b.load w a) ∧ b.store? w a value = some (b.store w a value)) ∧
      (Refusals w a (b.load w a) ∧ Refusals w a (b.store w a value)) ∧
      (¬ Vacant w a → ¬ InWindow w a →
        (∃ x, b.load w a = .ok x) ∧ ∃ x, b.store w a value = .ok x) ∧
      (b.isolated = true → a < 0xC0000000 → b.store w a value = .ok b) ∧
      loadInPlace w a b = settled b (b.load w a) ∧
      storeInPlace w a value b = settled b ((b.store w a value).map (((), ·))) := by
  have hcomplete : b.Complete := Nat.le_of_eq hb.symm
  have hload := b.load_refusals w a
  have hstore := b.store_refusals w a value
  refine ⟨⟨load?_eq hcomplete w a, store?_eq hcomplete w a value⟩, ⟨hload, hstore⟩, ?_, ?_,
    loadInPlace_eq b w a, storeInPlace_eq b w a value⟩
  · intro hvacant hwindow
    exact ⟨hload.answered hvacant hwindow, hstore.answered hvacant hwindow⟩
  · intro hi ha
    exact store_isolated hi ha w value

/-- A halfword stored between the registers of the memory control and the serial
port. -/
theorem access_total_gap :
    ({} : Bus).spu.registers.size = Spu.registerCount ∧
      ({} : Bus).store .half 0xBF801025 7 = .error (.unmappedIo 0x1F801024 2) ∧
      storeInPlace .half 0xBF801025 7 {} = .error (.unmappedIo 0x1F801024 2) {} := by
  have hsize : ({} : Bus).spu.registers.size = Spu.registerCount := Array.size_replicate
  have hstore : ({} : Bus).store .half 0xBF801025 7 = .error (.unmappedIo 0x1F801024 2) := rfl
  obtain ⟨-, -, -, -, -, hplace⟩ := access_total {} hsize .half 0xBF801025 7
  rw [hstore] at hplace
  exact ⟨hsize, hstore, hplace⟩

end Bus

end R3000
