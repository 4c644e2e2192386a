import Mathlib.Algebra.Group.Nat.Defs
import Mathlib.Tactic.SplitIfs
import R3000.Memory.Region
import R3000.Proofs.Alignment

/-!
# Windows and offsets

The selection of a region by comparison agrees with the table of windows, and
masking an address is taking its remainder by the region's size. All windows
begin and end on multiples of four, so the bytes of one access never fall into
two regions, and all sizes are multiples of four, so they never wrap around
inside one.
-/

namespace R3000

theorem toNat_physical (a : UInt32) : (physical a).toNat = a.toNat % 2 ^ 29 := by
  simpa [physical] using Nat.and_two_pow_sub_one_eq_mod a.toNat 29

theorem toNat_physical_lt (a : UInt32) : (physical a).toNat < 2 ^ 29 := by
  rw [toNat_physical]
  exact Nat.mod_lt _ (by decide)

/-- Dropping the segment keeps the place within a word. -/
theorem physical_align (w : Width) (a : UInt32) : physical (w.align a) = w.align (physical a) := by
  apply UInt32.toNat_inj.mp
  rw [toNat_physical, Width.toNat_align, Width.toNat_align, toNat_physical]
  cases w <;> simp only [Width.bytes] <;> omega

theorem physical_wordAddress (a : UInt32) : physical (wordAddress a) = wordAddress (physical a) :=
  physical_align .word a

namespace Region

theorem size_eq (r : Region) : r.size = 2 ^ r.sizeLog2 :=
  Nat.one_shiftLeft _

theorem toNat_mask (r : Region) : r.mask.toNat = 2 ^ r.sizeLog2 - 1 := by
  rw [mask_eq_size_sub_one, size_eq]

theorem offset_eq_mod (r : Region) (p : UInt32) : r.offset p = p.toNat % r.size := by
  rw [offset, UInt32.toNat_and, toNat_mask, Nat.and_two_pow_sub_one_eq_mod, size_eq]

theorem size_pos (r : Region) : 0 < r.size := by
  rw [size_eq]
  exact Nat.two_pow_pos _

theorem offset_lt (r : Region) (p : UInt32) : r.offset p < r.size := by
  rw [offset_eq_mod]
  exact Nat.mod_lt _ r.size_pos

theorem four_dvd_size (r : Region) : 4 ∣ r.size := by
  cases r <;> decide

/-! ## Windows -/

/-- Each region is in the table of regions at its own index and nowhere else. -/
theorem getElem?_all {i : Nat} {r : Region} : all[i]? = some r ↔ i = r.index := by
  constructor
  · intro h
    have hi : i < all.length := (List.getElem?_eq_some_iff.mp h).1
    exact (List.getElem?_inj hi (by decide)).mp (h.trans (ofIndex?_index r).symm)
  · rintro rfl
    exact ofIndex?_index r

theorem index_inj {r q : Region} : r.index = q.index ↔ r = q := by
  refine ⟨fun h => ?_, congrArg index⟩
  exact Option.some.inj ((ofIndex?_index r).symm.trans (h ▸ ofIndex?_index q))

/-- The physical address `p` lies in the region's window. -/
def Holds (r : Region) (p : UInt32) : Prop :=
  r.first ≤ p ∧ p < r.limit

instance (r : Region) (p : UInt32) : Decidable (r.Holds p) :=
  inferInstanceAs (Decidable (_ ∧ _))

/-- No two windows overlap. -/
theorem windows_apart {r q : Region} (h : r ≠ q) : r.limit ≤ q.first ∨ q.limit ≤ r.first := by
  have hall : ∀ r ∈ all, ∀ q ∈ all, r ≠ q → r.limit ≤ q.first ∨ q.limit ≤ r.first := by decide
  have hmem (r : Region) : r ∈ all := List.mem_of_getElem? (getElem?_all.mpr rfl)
  exact hall r (hmem r) q (hmem q) h

theorem Holds.unique {r q : Region} {p : UInt32} (hr : r.Holds p) (hq : q.Holds p) : r = q := by
  have hself : ¬ p < p := UInt32.lt_irrefl p
  by_cases h : r = q
  · exact h
  · rcases windows_apart h with hle | hle
    · exact absurd (UInt32.lt_of_lt_of_le hr.2 (UInt32.le_trans hle hq.1)) hself
    · exact absurd (UInt32.lt_of_lt_of_le hq.2 (UInt32.le_trans hle hr.1)) hself

/-- Each comparison that fails leaves the first address of the next window behind it. -/
theorem holds_ofPhysical {p : UInt32} (hp : p.toNat < 2 ^ 29) : (ofPhysical p).Holds p := by
  unfold ofPhysical
  split_ifs with hram hexpansion1 hscratchpad hports hexpansion2 hexpansion3
  · exact ⟨Nat.zero_le p.toNat, hram⟩
  · exact ⟨UInt32.not_lt.mp hram, hexpansion1⟩
  · exact ⟨UInt32.not_lt.mp hexpansion1, hscratchpad⟩
  · exact ⟨UInt32.not_lt.mp hscratchpad, hports⟩
  · exact ⟨UInt32.not_lt.mp hports, hexpansion2⟩
  · exact ⟨UInt32.not_lt.mp hexpansion2, hexpansion3⟩
  · exact ⟨UInt32.not_lt.mp hexpansion3, hp⟩

/-- The region that is selected is the one whose window holds the address. -/
theorem ofPhysical_eq_iff {p : UInt32} (hp : p.toNat < 2 ^ 29) (r : Region) :
    ofPhysical p = r ↔ r.Holds p := by
  constructor
  · rintro rfl
    exact holds_ofPhysical hp
  · exact (holds_ofPhysical hp).unique

theorem holds_ofAddress (a : UInt32) : (ofAddress a).Holds (physical a) :=
  holds_ofPhysical (toNat_physical_lt a)

/-- Addresses in one word are in one region. -/
theorem ofPhysical_congr {p q : UInt32} (h : p.toNat / 4 = q.toNat / 4) :
    ofPhysical p = ofPhysical q := by
  simp only [ofPhysical, UInt32.lt_iff_toNat_lt]
  -- Every window ends on a multiple of four, so each comparison sees the word only.
  have hlt (k : Nat) : p.toNat < 4 * k ↔ q.toNat < 4 * k := by omega
  have h1 := hlt 0x7C00000; have h2 := hlt 0x7E00000; have h3 := hlt 0x7E00400
  have h4 := hlt 0x7E00800; have h5 := hlt 0x7E80000; have h6 := hlt 0x7F00000
  simp only [Nat.reduceMul] at h1 h2 h3 h4 h5 h6
  simp [h1, h2, h3, h4, h5, h6]

theorem ofPhysical_align (w : Width) (p : UInt32) : ofPhysical (w.align p) = ofPhysical p := by
  apply ofPhysical_congr
  rw [Width.toNat_align]
  cases w <;> simp only [Width.bytes] <;> omega

theorem ofAddress_align (w : Width) (a : UInt32) : ofAddress (w.align a) = ofAddress a := by
  rw [ofAddress, physical_align, ofPhysical_align, ofAddress]

/-! ## The bytes of one access -/

variable {w : Width} {k : Nat}

theorem toNat_physical_align_add (a : UInt32) (hk : k < w.bytes) :
    (physical (w.align a + UInt32.ofNat k)).toNat = (physical (w.align a)).toNat + k := by
  have hd := w.bytes_dvd_align a
  rw [toNat_physical, toNat_physical, Width.toNat_align_add w a hk]
  cases w <;> simp only [Width.bytes] at hd hk <;> omega

theorem ofAddress_align_add (a : UInt32) (hk : k < w.bytes) :
    ofAddress (w.align a + UInt32.ofNat k) = ofAddress a := by
  rw [← ofAddress_align w a]
  apply ofPhysical_congr
  have hd := w.bytes_dvd_align a
  rw [toNat_physical_align_add a hk, toNat_physical]
  cases w <;> simp only [Width.bytes] at hd hk <;> omega

theorem bytes_dvd_size (r : Region) (w : Width) : w.bytes ∣ r.size :=
  Nat.dvd_trans w.bytes_dvd r.four_dvd_size

theorem bytes_dvd_offset (r : Region) (w : Width) (a : UInt32) :
    w.bytes ∣ r.offset (physical (w.align a)) := by
  rw [offset_eq_mod, Nat.dvd_mod_iff (r.bytes_dvd_size w), physical_align]
  exact w.bytes_dvd_align _

/-- An access stays inside the backing store. -/
theorem offset_add_bytes_le (r : Region) (w : Width) (a : UInt32) :
    r.offset (physical (w.align a)) + w.bytes ≤ r.size := by
  -- Offset and size are multiples of the width, so less by one byte is less by one access.
  obtain ⟨m, hm⟩ := r.bytes_dvd_offset w a
  obtain ⟨n, hn⟩ := r.bytes_dvd_size w
  have hlt := r.offset_lt (physical (w.align a))
  rw [hm, hn] at hlt ⊢
  have hmn : m + 1 ≤ n := Nat.lt_of_mul_lt_mul_left hlt
  calc w.bytes * m + w.bytes = w.bytes * (m + 1) := (Nat.mul_succ _ _).symm
    _ ≤ w.bytes * n := Nat.mul_le_mul_left _ hmn

/-- The bytes of an access follow each other in the backing store. -/
theorem offset_align_add (r : Region) (a : UInt32) (hk : k < w.bytes) :
    r.offset (physical (w.align a + UInt32.ofNat k)) = r.offset (physical (w.align a)) + k := by
  have hle := r.offset_add_bytes_le w a
  rw [offset_eq_mod] at hle
  rw [offset_eq_mod, offset_eq_mod, toNat_physical_align_add a hk, ← Nat.mod_add_mod,
    Nat.mod_eq_of_lt (by omega)]

/-- A byte lies in a bank as it lies in its word. -/
theorem offset_wordAddress (r : Region) (p : UInt32) :
    r.offset p = r.offset (wordAddress p) + p.toNat % 4 := by
  obtain ⟨m, hm⟩ := r.four_dvd_size
  have hword : (p.toNat - p.toNat % 4) / 4 = p.toNat / 4 := by omega
  have hstart : (p.toNat - p.toNat % 4) % 4 = 0 := by omega
  rw [offset_eq_mod, offset_eq_mod, toNat_wordAddress, hm, Nat.mod_mul, Nat.mod_mul, hword, hstart]
  omega

/-! ## The table and the selection -/

theorem physical_of_lt {p : UInt32} (hp : p.toNat < 2 ^ 29) : physical p = p := by
  apply UInt32.toNat_inj.mp
  rw [toNat_physical, Nat.mod_eq_of_lt hp]

/-- Of the windows in the table exactly one holds a physical address: that of the region which
is selected, at the region's own index. The bytes of an aligned access from there on follow
each other in the backing store of this region, up to its end at most. -/
theorem table_selects {p : UInt32} (hp : p.toNat < 2 ^ 29) :
    all[(ofPhysical p).index]? = some (ofPhysical p) ∧
      (∀ i r, all[i]? = some r → (r.Holds p ↔ i = (ofPhysical p).index)) ∧
      ∀ w : Width, w.bytes ∣ p.toNat →
        (ofPhysical p).offset p + w.bytes ≤ (ofPhysical p).size ∧
          ∀ k < w.bytes,
            (ofPhysical p).offset (p + .ofNat k) = (ofPhysical p).offset p + k ∧
              ofPhysical (p + .ofNat k) = ofPhysical p ∧ (ofPhysical p).Holds (p + .ofNat k) := by
  refine ⟨getElem?_all.mpr rfl, fun i r hi => ?_, fun w hw => ?_⟩
  · rw [getElem?_all.mp hi, index_inj, eq_comm, ofPhysical_eq_iff hp]
  · have hplace : physical (w.align p) = p := by rw [Width.align_of_dvd hw, physical_of_lt hp]
    have hfits := (ofPhysical p).offset_add_bytes_le w p
    rw [hplace] at hfits
    refine ⟨hfits, fun k hk => ?_⟩
    have hbyte : physical (p + .ofNat k) = p + .ofNat k := by
      have hadd := w.toNat_align_add p hk
      have hphysical := toNat_physical_align_add p hk
      rw [hplace] at hphysical
      rw [Width.align_of_dvd hw] at hadd hphysical
      exact UInt32.toNat_inj.mp (hphysical.trans hadd.symm)
    have hoffset := (ofPhysical p).offset_align_add p hk
    have hregion := ofAddress_align_add p hk
    rw [hplace, Width.align_of_dvd hw, hbyte] at hoffset
    rw [Width.align_of_dvd hw, ofAddress, ofAddress, hbyte, physical_of_lt hp] at hregion
    have hholds := holds_ofAddress (p + .ofNat k)
    rw [ofAddress, hbyte, hregion] at hholds
    exact ⟨hoffset, hregion, hholds⟩

/-- The last word of the scratchpad's window is also the last of its backing store, which the
window shows four times. -/
theorem table_selects_window_end :
    (0x1F800FFC : UInt32).toNat < 2 ^ 29 ∧ Width.word.bytes ∣ (0x1F800FFC : UInt32).toNat ∧
      all[2]? = some scratchpad ∧
      (∀ i r, all[i]? = some r → (r.Holds 0x1F800FFC ↔ i = 2)) ∧
      scratchpad.offset 0x1F800FFC = 1020 ∧ scratchpad.size = 1024 ∧
      scratchpad.offset 0x1F800FFC + 4 ≤ scratchpad.size ∧
      ∀ k < 4, scratchpad.offset (0x1F800FFC + .ofNat k) = scratchpad.offset 0x1F800FFC + k ∧
        ofPhysical (0x1F800FFC + .ofNat k) = scratchpad ∧
        scratchpad.Holds (0x1F800FFC + .ofNat k) := by
  have hp : (0x1F800FFC : UInt32).toNat < 2 ^ 29 := by decide
  have hw : Width.word.bytes ∣ (0x1F800FFC : UInt32).toNat := by decide
  have hselected : ofPhysical 0x1F800FFC = scratchpad := by decide
  obtain ⟨htable, halone, hbytes⟩ := table_selects hp
  obtain ⟨hfits, hfollow⟩ := hbytes .word hw
  rw [hselected] at htable halone hfits hfollow
  exact ⟨hp, hw, htable, halone, by decide, by decide, hfits, hfollow⟩

end Region

end R3000
