import R3000.Bus
import R3000.Proofs.Memory.Bank
import R3000.Proofs.Memory.Region

/-!
# Cells

A cell is one byte of a region's backing store. Below the last kernel segment
every address outside the I/O window names a cell, and many addresses name the
same one. Loads and stores of every width are described by the cells they
touch: a load is the value of its cells, and a store gives its cells the bytes
of its value unless the cache is isolated or the cells are read-only.
-/

namespace R3000

structure Cell where
  region : Region
  offset : Nat
deriving DecidableEq, Repr

/-- Addresses that name a cell. -/
def NamesCell (a : UInt32) : Prop :=
  a < Target.controlSegment ∧ Region.ofAddress a ≠ .ports

instance (a : UInt32) : Decidable (NamesCell a) :=
  inferInstanceAs (Decidable (_ ∧ _))

namespace Cell

/-- The cell that an address names. -/
def ofAddress (a : UInt32) : Cell where
  region := Region.ofAddress a
  offset := (Region.ofAddress a).offset (physical a)

/-- Cell `k` of an access of width `w` at `a`. -/
def ofAccess (w : Width) (a : UInt32) (k : Nat) : Cell :=
  ofAddress (w.align a + UInt32.ofNat k)

theorem ofAccess_eq {w : Width} (a : UInt32) {k : Nat} (hk : k < w.bytes) :
    ofAccess w a k =
      ⟨Region.ofAddress a, (Region.ofAddress a).offset (physical (w.align a)) + k⟩ := by
  rw [ofAccess, ofAddress, Region.ofAddress_align_add a hk, Region.offset_align_add _ a hk]

/-- Two addresses name one cell when they lie in one window and agree under its mask. -/
theorem ofAddress_eq_iff (x y : UInt32) :
    ofAddress x = ofAddress y ↔
      ∃ r : Region, r.Holds (physical x) ∧ r.Holds (physical y) ∧
        physical x &&& r.mask = physical y &&& r.mask := by
  constructor
  · intro h
    obtain ⟨hr, ho⟩ := Cell.mk.inj h
    rw [← hr] at ho
    refine ⟨Region.ofAddress x, Region.holds_ofAddress x, ?_, UInt32.toNat_inj.mp ho⟩
    rw [hr]
    exact Region.holds_ofAddress y
  · rintro ⟨r, hx, hy, hm⟩
    have hrx : Region.ofAddress x = r := (Region.ofPhysical_eq_iff (toNat_physical_lt x) r).mpr hx
    have hry : Region.ofAddress y = r := (Region.ofPhysical_eq_iff (toNat_physical_lt y) r).mpr hy
    rw [ofAddress, ofAddress, hrx, hry, Region.offset, Region.offset, hm]

end Cell

/-! ## Targets -/

theorem NamesCell.align_lt {w : Width} {a : UInt32} (h : NamesCell a) :
    w.align a < Target.controlSegment :=
  UInt32.lt_of_le_of_lt (w.align_le a) h.1

/-- What answers at an address that names a cell is that cell's region. -/
theorem Target.ofAddress_cell {w : Width} {a : UInt32} (h : NamesCell a)
    (hole? : Peripheral → Width → UInt32 → Option UInt32) :
    ofAddress hole? w (w.align a) =
      .ok (.cell (Region.ofAddress a) ((Region.ofAddress a).offset (physical (w.align a)))) := by
  have hlow : ¬ controlSegment ≤ w.align a := UInt32.not_le.mpr h.align_lt
  have hr : Region.ofPhysical (physical (w.align a)) = Region.ofAddress a :=
    Region.ofAddress_align w a
  rw [ofAddress, if_neg hlow, hr]
  split
  · exact absurd ‹_› h.2
  · rfl

/-! ## Loads and stores -/

/-- The bytes of memory after a store that fits into its region. -/
theorem Memory.get_store (m : Memory) (r q : Region) (w : Width) (i j : Nat) (value : UInt32)
    (hi : i + w.bytes ≤ r.size) :
    (m.store r w i value).get q j =
      if q = r ∧ i ≤ j ∧ j < i + w.bytes then byteOf value (j - i) else m.get q j := by
  rw [get, store, bank_modify]
  by_cases hq : q = r
  · subst hq
    rw [if_pos rfl, Bank.get_store]
    congr 1
    simp only [eq_iff_iff, true_and]
    omega
  · rw [if_neg hq, if_neg fun h => hq h.1, get]

namespace Bus

/-- The byte that a cell holds. -/
def byteAt (b : Bus) (c : Cell) : UInt8 :=
  b.memory.get c.region c.offset

/-- A store of width `w` at `a` puts byte `k` of its value into the cell `c`. -/
def Reaches (b : Bus) (w : Width) (a : UInt32) (c : Cell) (k : Nat) : Prop :=
  k < w.bytes ∧ c = Cell.ofAccess w a k ∧ b.isolated = false ∧ c.region ≠ .bios

/-- A load is the value of the cells it touches, and changes nothing. -/
theorem load_cells (b : Bus) (w : Width) {a : UInt32} (h : NamesCell a) :
    ∃ x, b.load w a = .ok (x, b) ∧
      x.toNat = composed w.bytes fun k => b.byteAt (Cell.ofAccess w a k) := by
  refine ⟨_, by rw [load, Target.ofLoad, Target.ofAddress_cell h]; rfl, ?_⟩
  rw [Memory.load, Bank.toNat_load]
  apply composed_congr
  intro k hk
  rw [Cell.ofAccess_eq a hk, byteAt, Memory.get]

/-- A store away from read-only cells writes through when the cache is not isolated. -/
theorem store_writable (b : Bus) (w : Width) {a : UInt32} (h : NamesCell a)
    (hi : b.isolated = false) (hr : Region.ofAddress a ≠ .bios) (value : UInt32) :
    b.store w a value =
      .ok { b with memory := b.memory.store (Region.ofAddress a) w
                     ((Region.ofAddress a).offset (physical (w.align a))) value } := by
  have hh : b.hides w a = false := by rw [hides, hi, Bool.false_and]
  rw [store, hh, Target.ofStore, Target.ofAddress_cell h]
  -- Which address it was no longer matters, only that the region is not the BIOS.
  generalize Region.ofAddress a = r at hr
  cases r <;> first | rfl | exact absurd rfl hr

/-- A store that the isolated cache takes, or that meets a read-only cell, changes nothing. -/
theorem store_dropped (b : Bus) (w : Width) {a : UInt32} (h : NamesCell a)
    (hd : b.isolated = true ∨ Region.ofAddress a = .bios) (value : UInt32) :
    b.store w a value = .ok b := by
  rw [store]
  split
  · rfl
  · rename_i hh
    rcases hd with hi | hr
    · exact absurd (by rw [hides, hi, Bool.true_and, decide_eq_true h.align_lt]) hh
    · rw [Target.ofStore, Target.ofAddress_cell h, hr]
      rfl

/-- A store gives the cells it reaches the bytes of its value, and changes nothing else. -/
theorem store_cells (b : Bus) (w : Width) {a : UInt32} (h : NamesCell a) (value : UInt32) :
    ∃ b', b.store w a value = .ok b' ∧
      (∀ c k, b.Reaches w a c k → b'.byteAt c = byteOf value k) ∧
      (∀ c, (¬ ∃ k, b.Reaches w a c k) → b'.byteAt c = b.byteAt c) ∧
      b' = { b with memory := b'.memory } := by
  by_cases hw : b.isolated = false ∧ Region.ofAddress a ≠ .bios
  · -- The store is carried out, at consecutive offsets of one region.
    obtain ⟨hi, hr⟩ := hw
    refine ⟨_, b.store_writable w h hi hr value, ?_, ?_, rfl⟩
    · rintro c k ⟨hk, rfl, -, -⟩
      rw [Cell.ofAccess_eq a hk, byteAt,
        Memory.get_store _ _ _ _ _ _ _ (Region.offset_add_bytes_le _ w a),
        if_pos ⟨rfl, Nat.le_add_right _ _, Nat.add_lt_add_left hk _⟩, Nat.add_sub_cancel_left]
    · intro c hc
      rw [byteAt, Memory.get_store _ _ _ _ _ _ _ (Region.offset_add_bytes_le _ w a), if_neg]
      · rfl
      · rintro ⟨hcr, hle, hlt⟩
        -- An offset between the first and the last byte is that of some byte `k`.
        have hk : c.offset - (Region.ofAddress a).offset (physical (w.align a)) < w.bytes := by omega
        refine hc ⟨_, hk, ?_, hi, hcr ▸ hr⟩
        rw [Cell.ofAccess_eq a hk, Nat.add_sub_cancel' hle, ← hcr]
  · -- The store is dropped, and reaches no cell either.
    have hd : b.isolated = true ∨ Region.ofAddress a = .bios := by
      rw [not_and_or, Bool.not_eq_false, not_not] at hw
      exact hw
    refine ⟨b, b.store_dropped w h hd value, ?_, fun _ _ => rfl, rfl⟩
    rintro c k ⟨hk, rfl, hi, hr⟩
    rw [Cell.ofAccess_eq a hk] at hr
    rcases hd with hd | hd
    · rw [hd] at hi
      contradiction
    · exact absurd hd hr

/-! ## Reading over a write -/

/-- A load after a store is the value of the cells it touches. Those that the
store reached hold the bytes of the stored value and all others what they held
before, whichever of its names each cell was called by. -/
theorem load_over_store (b : Bus) (w₁ w₂ : Width) {a₁ a₂ : UInt32} (h₁ : NamesCell a₁)
    (h₂ : NamesCell a₂) (value : UInt32) :
    ∃ b', b.store w₁ a₁ value = .ok b' ∧
      (∃ x, b'.load w₂ a₂ = .ok (x, b') ∧
        x.toNat = composed w₂.bytes fun k => b'.byteAt (Cell.ofAccess w₂ a₂ k)) ∧
      (∀ c k, b.Reaches w₁ a₁ c k → b'.byteAt c = byteOf value k) ∧
      (∀ c, (¬ ∃ k, b.Reaches w₁ a₁ c k) → b'.byteAt c = b.byteAt c) ∧
      b' = { b with memory := b'.memory } ∧
      ∀ x y, Cell.ofAddress x = Cell.ofAddress y ↔
        ∃ r : Region, r.Holds (physical x) ∧ r.Holds (physical y) ∧
          physical x &&& r.mask = physical y &&& r.mask := by
  obtain ⟨b', hs, hreached, hkept, hframe⟩ := b.store_cells w₁ h₁ value
  exact ⟨b', hs, b'.load_cells w₂ h₂, hreached, hkept, hframe, Cell.ofAddress_eq_iff⟩

/-- The upper half of a word stored through one segment, read through another and
through a mirror of RAM. -/
theorem load_over_store_mirror :
    NamesCell 0x80000101 ∧ NamesCell 0xA0200103 ∧
      ∃ b', ({} : Bus).store .word 0x80000101 0xDEADBEEF = .ok b' ∧
        b'.load .half 0xA0200103 = .ok (0xDEAD, b') := by
  have h₁ : NamesCell 0x80000101 := by decide
  have h₂ : NamesCell 0xA0200103 := by decide
  obtain ⟨b', hs, ⟨x, hl, hx⟩, hreached, -⟩ := load_over_store {} .word .half h₁ h₂ 0xDEADBEEF
  have h2 := hreached (Cell.ofAccess .half 0xA0200103 0) 2 ⟨by decide, by decide, rfl, by decide⟩
  have h3 := hreached (Cell.ofAccess .half 0xA0200103 1) 3 ⟨by decide, by decide, rfl, by decide⟩
  have hv : x = 0xDEAD := by
    apply UInt32.toNat_inj.mp
    rw [hx, Width.bytes, composed, Finset.sum_range_succ, Finset.sum_range_one, h2, h3]
    rfl
  exact ⟨h₁, h₂, b', hs, hv ▸ hl⟩

end Bus

end R3000
