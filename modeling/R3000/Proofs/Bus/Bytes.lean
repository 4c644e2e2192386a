import R3000.Proofs.Bus.Reading
import R3000.Proofs.Device.Lanes
import R3000.Proofs.Memory.Cell

/-!
# Lanes of a loaded word

Memory and devices give the same bytes in halves and one at a time as in words. So
wherever a word can be loaded, so can its lanes. Reading a word changes nothing,
except that the flags in the mode of a timer are cleared.
-/

namespace R3000

/-! ## Memory and devices -/

/-- All bytes of a word have one occupant. -/
theorem Occupant.ofPhysical_wordAddress (p : UInt32) :
    ofPhysical? (wordAddress p) = ofPhysical? p := by
  have hwithin {first last : UInt32} (hf : first.toNat % 4 = 0) (hl : last.toNat % 4 = 3) :
      (decide (first ≤ wordAddress p) && decide (wordAddress p ≤ last)) =
        (decide (first ≤ p) && decide (p ≤ last)) := by
    rw [decide_eq_decide.mpr (le_wordAddress_iff hf p),
      decide_eq_decide.mpr (wordAddress_le_iff hl p)]
  simp only [ofPhysical?]
  -- One window after the other begins and ends with a word.
  repeat refine if_congr (by rw [hwithin (by decide) (by decide)]) rfl ?_
  rfl

theorem Occupant.ofPhysical_align (w : Width) (p : UInt32) :
    ofPhysical? (w.align p) = ofPhysical? p := by
  rw [← ofPhysical_wordAddress, wordAddress_align, ofPhysical_wordAddress]

theorem Bank.load_lane {size : Nat} (b : Bank size) (w : Width) (i : Nat) (a : UInt32) :
    b.load w (i + w.start a) = w.lane a (b.load .word i) := by
  apply UInt32.toNat_inj.mp
  rw [Width.toNat_lane, toNat_load, toNat_load]
  refine Eq.trans ?_ (composed_slice (w.start_add_bytes_le a) fun k => b.get (i + k)).symm
  apply composed_congr
  intro k _
  rw [Nat.add_assoc]

theorem Memory.load_lane (m : Memory) (r : Region) (w : Width) (p : UInt32) :
    m.load r w (r.offset (w.align p)) = w.lane p (m.load r .word (r.offset (wordAddress p))) := by
  have hplace : r.offset (w.align p) = r.offset (wordAddress p) + w.start p := by
    rw [r.offset_wordAddress, wordAddress_align, Width.start]
  rw [load, load, hplace, Bank.load_lane]

theorem Width.start_physical (w : Width) (a : UInt32) : w.start (physical a) = w.start a := by
  apply w.start_congr
  rw [toNat_physical]
  omega

namespace Peripheral

/-- Every device begins with a word. -/
theorem first_mod_four (p : Peripheral) : p.first.toNat % 4 = 0 := by
  cases p <;> rfl

theorem start_sub_first (p : Peripheral) (w : Width) (a : UInt32) :
    w.start (w.align a - p.first) = w.start a := by
  have hfirst := p.first_mod_four
  have hlt := (w.align a).toNat_lt
  have hlt' := p.first.toNat_lt
  rw [← w.start_align a]
  apply w.start_congr
  rw [UInt32.toNat_sub]
  omega

end Peripheral

namespace Bus

variable {b b' : Bus} {a x : UInt32}

/-- `t'` gives the lane at `p` of the word that `t` gives. -/
def GivesLane (t t' : Target) (w : Width) (p : UInt32) : Prop :=
  ∀ b : Bus, (b.read t' w).1 = w.lane p (b.read t .word).1 ∧
    (w ≠ .half → (b.read t' w).2 = (b.read t .word).2)

/-- Where a window answers for a word, it answers for each lane of it. -/
theorem ofOccupant_lane {p : UInt32} {t : Target} (w : Width)
    (h : Target.ofOccupant (fun q => Device.readHole? q.State) .word (wordAddress p) = .ok t) :
    ∃ t', Target.ofOccupant (fun q => Device.readHole? q.State) w (w.align p) = .ok t' ∧
      GivesLane t t' w p := by
  rw [Target.ofOccupant, Occupant.ofPhysical_wordAddress] at h
  rw [Target.ofOccupant, Occupant.ofPhysical_align]
  split at h
  · cases h
  · cases h
    exact ⟨_, rfl, fun b => ⟨b.memory.load_lane .ports w p, fun _ => rfl⟩⟩
  · cases h
    exact ⟨_, rfl, fun b => ⟨(w.lane_zero p).symm, fun _ => rfl⟩⟩
  · rename_i q _
    split at h
    · cases h
    · rename_i hnone
      cases h
      -- The offset from the first register is aligned with the address.
      have hword : wordAddress (w.align p - q.first) = wordAddress p - q.first := by
        rw [wordAddress_sub q.first_mod_four, wordAddress_align]
      have haligned : w.align (w.align p - q.first) = w.align p - q.first := by
        rw [w.align_sub q.first_mod_four, w.align_align]
      have hcoherent := q.coherent haligned
      rw [← hword] at hnone
      rw [← hword, hcoherent.hole hnone]
      refine ⟨_, rfl, fun b => ⟨?_, fun hw => ?_⟩⟩
      · exact (hcoherent.value (b.device q)).trans (Width.lane_congr (q.start_sub_first w p) _)
      · exact congrArg (b.setDevice q) (hcoherent.state hw (b.device q))

/-- Where a word can be loaded, so can each of its lanes. -/
theorem load_lane (h : b.load .word a = .ok (x, b')) (w : Width) :
    ∃ b'', b.load w a = .ok (w.lane a x, b'') ∧ (w ≠ .half → b'' = b') := by
  have hsegment : Target.controlSegment ≤ w.align a ↔ Target.controlSegment ≤ wordAddress a :=
    (w.le_align_iff rfl a).trans (le_wordAddress_iff rfl a).symm
  have hregion : Region.ofPhysical (physical (wordAddress a)) =
      Region.ofPhysical (physical (w.align a)) :=
    (Region.ofAddress_align .word a).trans (Region.ofAddress_align w a).symm
  obtain ⟨t, ht, hr⟩ := load_ok h
  suffices hlane : ∃ t', Target.ofLoad w a = .ok t' ∧ GivesLane t t' w a by
    obtain ⟨t', ht', hgives⟩ := hlane
    obtain ⟨hvalue, hstate⟩ := hgives b
    rw [hr] at hvalue hstate
    exact ⟨(b.read t' w).2, by rw [load_eq_map, ht', Except.map, ← hvalue], hstate⟩
  change Target.ofAddress _ .word (wordAddress a) = .ok t at ht
  rw [Target.ofAddress, wordAddress_wordAddress, hregion] at ht
  rw [Target.ofLoad, Target.ofAddress, wordAddress_align]
  by_cases hlow : Target.controlSegment ≤ w.align a
  · rw [if_pos (hsegment.mp hlow)] at ht
    rw [if_pos hlow]
    split at ht
    · rename_i hcontrol
      cases ht
      refine ⟨_, if_pos hcontrol, fun b => ⟨?_, fun _ => rfl⟩⟩
      rw [read, read, Width.lane_word, Width.lane_congr (w.start_align a)]
    · cases ht
  · rw [if_neg (mt hsegment.mpr hlow), physical_wordAddress] at ht
    rw [if_neg hlow]
    have hphysical (content : UInt32) : w.lane (physical a) content = w.lane a content :=
      Width.lane_congr (w.start_physical a) content
    rw [physical_align] at ht ⊢
    split at ht
    · obtain ⟨t', ht', hgives⟩ := ofOccupant_lane w ht
      exact ⟨t', ht', fun b => ⟨(hgives b).1.trans (hphysical _), (hgives b).2⟩⟩
    · cases ht
      refine ⟨_, rfl, fun b => ⟨?_, fun _ => rfl⟩⟩
      exact (b.memory.load_lane _ w (physical a)).trans (hphysical _)

/-- Where a word can be loaded, so can each of its bytes. -/
theorem load_byte (h : b.load .word a = .ok (x, b')) :
    b.load .byte a = .ok ((byteOf x (a.toNat % 4)).toUInt32, b') := by
  obtain ⟨b'', hl, hb⟩ := load_lane h .byte
  rw [hl, Width.lane_byte, hb (by decide)]

/-- A load of a word depends on which word its address is in. -/
theorem load_word_congr {y : UInt32} (h : wordAddress a = wordAddress y) (b : Bus) :
    b.load .word a = b.load .word y := by
  have htarget : Target.ofLoad .word a = Target.ofLoad .word y :=
    congrArg (Target.ofAddress (fun p => Device.readHole? p.State) .word) h
  rw [load, load, htarget]

/-- The register around `a` is the mode of a timer. -/
def MeetsTimerMode (a : UInt32) : Prop :=
  ∃ offset n, Target.ofLoad .word a = .ok (.device .timers offset) ∧
    Timers.Register.ofOffset? offset = some (.mode n)

/-- Reading a word changes nothing, if it is not the mode of a timer. -/
theorem load_steady (h : b.load .word a = .ok (x, b')) (hmode : ¬ MeetsTimerMode a) : b' = b := by
  obtain ⟨t, ht, hr⟩ := load_ok h
  have hb : b' = (b.read t .word).2 := (congrArg Prod.snd hr).symm
  rcases b.read_snd t .word with hkept | ⟨offset, rfl, hread⟩
  · rw [hb, hkept]
  · have hword : (b.timers.readWord offset).2 = b.timers := by
      rw [Timers.readWord]
      cases hreg : Timers.Register.ofOffset? offset with
      | none => rfl
      | some r =>
        cases r with
        | counter | target => rfl
        | mode n => exact absurd ⟨offset, n, ht, hreg⟩ hmode
    rw [hb, hread]
    exact congrArg (fun timers => { b with timers }) hword

/-- The word around `a` can be read, and it is not the mode of a timer. -/
structure Legible (b : Bus) (a : UInt32) : Prop where
  answers : ∃ r, b.load .word (wordAddress a) = .ok r
  steady : ¬ MeetsTimerMode a

theorem Legible.load (h : b.Legible a) : ∃ x, b.load .word a = .ok (x, b) := by
  obtain ⟨⟨x, b'⟩, hl⟩ := h.answers
  rw [load_word_congr (wordAddress_wordAddress a)] at hl
  have hb := load_steady hl h.steady
  subst hb
  exact ⟨x, hl⟩

/-- The byte that a load gives is the one that the cell holds. -/
theorem load_byte_cell (b : Bus) (h : NamesCell a) :
    b.load .byte a = .ok ((b.byteAt (Cell.ofAddress a)).toUInt32, b) := by
  obtain ⟨x, hl, hx⟩ := b.load_cells .byte h
  have hcell : Cell.ofAccess .byte a 0 = Cell.ofAddress a := by
    rw [Cell.ofAccess]
    exact congrArg Cell.ofAddress (UInt32.add_zero a)
  rw [hl]
  congr 2
  apply UInt32.toNat_inj.mp
  rw [hx, UInt8.toNat_toUInt32, Width.bytes, composed, Finset.sum_range_one, hcell]
  omega

/-- A word stored in cells that can be written is what is loaded there again. -/
theorem load_stored_word (b : Bus) (h : NamesCell a) (hi : b.isolated = false)
    (hr : Region.ofAddress a ≠ .bios) (value : UInt32) :
    ∃ b', b.store .word a value = .ok b' ∧ b'.load .word a = .ok (value, b') := by
  obtain ⟨b', hs, hreached, -⟩ := b.store_cells .word h value
  obtain ⟨x, hl, hx⟩ := b'.load_cells .word h
  have hbytes : ∀ k < 4, b'.byteAt (Cell.ofAccess .word a k) = byteOf value k := by
    intro k hk
    refine hreached _ k ⟨hk, rfl, hi, ?_⟩
    rw [Cell.ofAccess_eq (w := .word) a hk]
    exact hr
  have hvalue : x = value := by
    apply UInt32.toNat_inj.mp
    rw [hx, ← composed_byteOf value]
    exact composed_congr hbytes
  exact ⟨b', hs, hvalue ▸ hl⟩

/-! ## Four bytes from any address on -/

/-- Byte `k` from `a` on, when the word around `a` is `x` and that around `a + 3` is `y`. -/
def straddled (a x y : UInt32) (k : Nat) : UInt8 :=
  if k + a.toNat % 4 < 4 then byteOf x (k + a.toNat % 4) else byteOf y (k + a.toNat % 4 - 4)

/-- The two words are one, if the bytes begin with a word. -/
theorem load_same {y : UInt32} (hx : b.load .word a = .ok (x, b))
    (hy : b.load .word (a + 3) = .ok (y, b)) (ha : a.toNat % 4 = 0) : x = y := by
  have hword : wordAddress (a + 3) = wordAddress a :=
    wordAddress_add_below (k := 3) (by omega)
  rw [load_word_congr hword, hx] at hy
  cases hy
  rfl

/-- Four bytes from any address on are in two words, or in one. -/
theorem load_straddled {y : UInt32} (hx : b.load .word a = .ok (x, b))
    (hy : b.load .word (a + 3) = .ok (y, b)) {k : Nat} (hk : k < 4) :
    b.load .byte (a + UInt32.ofNat k) = .ok ((straddled a x y k).toUInt32, b) := by
  have hplace := toNat_add_ofNat_mod a k
  have hlast := toNat_add_three_mod a
  by_cases h : k + a.toNat % 4 < 4
  · have hword : b.load .word (a + UInt32.ofNat k) = .ok (x, b) :=
      (load_word_congr (wordAddress_add_below h) b).trans hx
    have hin : (a + UInt32.ofNat k).toNat % 4 = k + a.toNat % 4 := by omega
    rw [load_byte hword, straddled, if_pos h, hin]
  · have hword : b.load .word (a + UInt32.ofNat k) = .ok (y, b) :=
      (load_word_congr (wordAddress_add_above hk (by omega)) b).trans hy
    have hin : (a + UInt32.ofNat k).toNat % 4 = k + a.toNat % 4 - 4 := by omega
    rw [load_byte hword, straddled, if_neg h, hin]

end Bus

namespace NamesCell

variable {a : UInt32}

/-- A cell is not a register of the timers. -/
theorem not_meetsTimerMode (h : NamesCell a) : ¬ Bus.MeetsTimerMode a := by
  rintro ⟨offset, n, ht, -⟩
  rw [Target.ofLoad, Target.ofAddress_cell h] at ht
  cases ht

theorem legible (b : Bus) (h : NamesCell a) : b.Legible a where
  answers := by
    obtain ⟨x, hl, -⟩ := b.load_cells .word h
    rw [Bus.load_word_congr (wordAddress_wordAddress a)]
    exact ⟨_, hl⟩
  steady := h.not_meetsTimerMode

end NamesCell

end R3000
