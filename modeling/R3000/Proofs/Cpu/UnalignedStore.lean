import R3000.Proofs.Cpu.UnalignedLoad

/-!
# Storing a word at any address

`swr` and `swl` put parts of a register into the words around two addresses
that are three apart, each by reading its word and writing it back. Together
they give four consecutive cells the bytes of the register, and every other
cell keeps its byte, though the words around the addresses were written whole.
-/

namespace R3000

/-! ## Spliced words -/

namespace Arithmetic

variable {k : Nat}

/-- The lowest bytes of `register` come into `memory` from the place of `a` on. -/
theorem byteOf_storeRight (a memory register : UInt32) (hk : k < 4) :
    byteOf (storeRight a memory register) k =
      if k < a.toNat % 4 then byteOf memory k else byteOf register (k - a.toNat % 4) := by
  rcases low_cases a with ⟨hlow, hmod⟩ | ⟨hlow, hmod⟩ | ⟨hlow, hmod⟩ | ⟨hlow, hmod⟩
  all_goals rw [storeRight, hlow, hmod]
  · exact (if_neg (Nat.not_lt_zero k)).symm
  · exact byteOf_joinAbove memory register rfl rfl (by decide) hk
  · exact byteOf_joinAbove memory register rfl rfl (by decide) hk
  · exact byteOf_joinAbove memory register rfl rfl (by decide) hk

/-- The highest bytes of `register` come into `memory` up to the place of `a`. -/
theorem byteOf_storeLeft (a memory register : UInt32) (hk : k < 4) :
    byteOf (storeLeft a memory register) k =
      if k + (3 - a.toNat % 4) < 4 then byteOf register (k + (3 - a.toNat % 4))
      else byteOf memory k := by
  rcases low_cases a with ⟨hlow, hmod⟩ | ⟨hlow, hmod⟩ | ⟨hlow, hmod⟩ | ⟨hlow, hmod⟩
  all_goals rw [storeLeft, hlow, hmod]
  · exact byteOf_joinBelow memory register rfl rfl (by decide)
  · exact byteOf_joinBelow memory register rfl rfl (by decide)
  · exact byteOf_joinBelow memory register rfl rfl (by decide)
  · exact (if_pos hk).symm

end Arithmetic

/-! ## Cells of a word -/

/-- The word around `a` is below the last kernel segment, in RAM, in the
scratchpad or in an expansion region. -/
def Storable (a : UInt32) : Prop :=
  wordAddress a < Target.controlSegment ∧
    Region.ofAddress (wordAddress a) ∈
      [.ram, .scratchpad, .expansion1, .expansion2, .expansion3]

instance (a : UInt32) : Decidable (Storable a) :=
  inferInstanceAs (Decidable (_ ∧ _))

variable {a value : UInt32} {k : Nat}

namespace Storable

theorem region (h : Storable a) : Region.ofAddress a ≠ .ports ∧ Region.ofAddress a ≠ .bios := by
  have hmem := h.2
  have halign : Region.ofAddress (wordAddress a) = Region.ofAddress a :=
    Region.ofAddress_align .word a
  rw [halign] at hmem
  generalize Region.ofAddress a = r at hmem
  revert hmem
  cases r <;> decide

theorem cell (h : Storable a) : NamesCell a := by
  refine ⟨?_, h.region.1⟩
  have hsegment : Target.controlSegment ≤ wordAddress a ↔ Target.controlSegment ≤ a :=
    le_wordAddress_iff rfl a
  exact UInt32.not_le.mp (mt hsegment.mpr (UInt32.not_le.mpr h.1))

theorem congr {x : UInt32} (h : Storable a) (hx : wordAddress x = wordAddress a) : Storable x := by
  rw [Storable, hx]
  exact h

/-- Four bytes from `a` on can be stored when the first and the last of them can. -/
theorem add (h : Storable a) (h' : Storable (a + 3)) (hk : k < 4) :
    Storable (a + UInt32.ofNat k) := by
  by_cases hin : k + a.toNat % 4 < 4
  · exact h.congr (wordAddress_add_below hin)
  · have hlast := toNat_add_three_mod a
    exact h'.congr (wordAddress_add_above hk (by omega))

end Storable

namespace Cell

/-- A cell has its place within a word from each of its addresses. -/
theorem offset_mod_four (a : UInt32) : (ofAddress a).offset % 4 = a.toNat % 4 := by
  rw [ofAddress, Region.offset_eq_mod, Nat.mod_mod_of_dvd _ (Region.four_dvd_size _), toNat_physical]
  omega

/-- Four consecutive addresses name four cells. -/
theorem ofAddress_add_inj {j : Nat} (hj : j < 4) (hk : k < 4)
    (h : ofAddress (a + UInt32.ofNat j) = ofAddress (a + UInt32.ofNat k)) : j = k := by
  have hplace := congrArg (·.offset % 4) h
  simp only [offset_mod_four, toNat_add_ofNat_mod] at hplace
  omega

/-- An address names a cell of the word that it is in. -/
theorem ofAddress_eq_ofAccess {x : UInt32} (h : wordAddress x = wordAddress a) :
    ofAddress x = ofAccess .word a (x.toNat % 4) := by
  have hx := wordAddress_add x
  rw [h] at hx
  exact congrArg ofAddress hx.symm

theorem ofAddress_right (hk : k + a.toNat % 4 < 4) :
    ofAddress (a + UInt32.ofNat k) = ofAccess .word a (k + a.toNat % 4) := by
  have hplace : (a + UInt32.ofNat k).toNat % 4 = k + a.toNat % 4 := by
    rw [toNat_add_ofNat_mod]
    omega
  rw [ofAddress_eq_ofAccess (wordAddress_add_below hk), hplace]

theorem ofAddress_left (hk : k < 4) (hk' : 3 ≤ k + (a + 3).toNat % 4) :
    ofAddress (a + UInt32.ofNat k) = ofAccess .word (a + 3) (k + (a + 3).toNat % 4 - 3) := by
  have hlast := toNat_add_three_mod a
  have hplace : (a + UInt32.ofNat k).toNat % 4 = k + (a + 3).toNat % 4 - 3 := by
    rw [toNat_add_ofNat_mod]
    omega
  rw [ofAddress_eq_ofAccess (wordAddress_add_above hk hk'), hplace]

end Cell

/-! ## Bytes of a value in consecutive cells -/

namespace Bus

variable {b b₁ b' : Bus}

/-- The bytes of `value` that `P` is about are in the cells from `a` on, and
nothing else of the bus has changed. -/
structure Places (P : Nat → Prop) (value a : UInt32) (b b' : Bus) : Prop where
  placed : ∀ k < 4, P k → b'.byteAt (Cell.ofAddress (a + UInt32.ofNat k)) = byteOf value k
  kept : ∀ c, (∀ k < 4, P k → c ≠ Cell.ofAddress (a + UInt32.ofNat k)) → b'.byteAt c = b.byteAt c
  frame : b' = { b with memory := b'.memory }

/-- Bytes that are in place are not moved by others. -/
theorem Places.trans {P Q : Nat → Prop} (h : b.Places P value a b₁) (h' : b₁.Places Q value a b') :
    b.Places (fun k => P k ∨ Q k) value a b' where
  placed := by
    intro k hk hpq
    by_cases hq : Q k
    · exact h'.placed k hk hq
    · have hp : P k := hpq.resolve_right hq
      rw [h'.kept, h.placed k hk hp]
      intro j hj hqj hcell
      exact hq (Cell.ofAddress_add_inj hk hj hcell ▸ hqj)
  kept := by
    intro c hc
    rw [h'.kept c fun k hk hq => hc k hk (.inr hq), h.kept c fun k hk hp => hc k hk (.inl hp)]
  frame := by
    rw [h'.frame, h.frame]

theorem store_wordAddress (b : Bus) (a value : UInt32) :
    b.store .word (wordAddress a) value = b.store .word a value := by
  have halign : Width.word.align (wordAddress a) = Width.word.align a := wordAddress_wordAddress a
  rw [store, hides, Target.ofStore, halign, store, hides, Target.ofStore]

/-- Reading the word around `e` and writing it back as `f` makes it places bytes,
if `f` has each of them at its cell and keeps the bytes of the other cells. -/
theorem rewrite_places {e : UInt32} {P : Nat → Prop} {f : UInt32 → UInt32} (h : Storable e)
    (hi : b.isolated = false)
    (hplaced : ∀ k < 4, P k → ∃ j < 4,
      Cell.ofAddress (a + UInt32.ofNat k) = Cell.ofAccess .word e j ∧
        ∀ x, byteOf (f x) j = byteOf value k)
    (hkept : ∀ j < 4,
      (∃ k < 4, P k ∧ Cell.ofAccess .word e j = Cell.ofAddress (a + UInt32.ofNat k)) ∨
        ∀ x, byteOf (f x) j = byteOf x j) :
    ∃ x b', b.load .word e = .ok (x, b) ∧ b.store .word (wordAddress e) (f x) = .ok b' ∧
      b.Places P value a b' := by
  obtain ⟨x, hl, hx⟩ := b.load_cells .word h.cell
  obtain ⟨b', hs, hreached, hother, hframe⟩ := b.store_cells .word h.cell (f x)
  have hreaches (j : Nat) (hj : j < 4) : b.Reaches .word e (Cell.ofAccess .word e j) j := by
    refine ⟨hj, rfl, hi, ?_⟩
    rw [Cell.ofAccess_eq e hj]
    exact h.region.2
  refine ⟨x, b', hl, (b.store_wordAddress e (f x)).trans hs, ?_, ?_, hframe⟩
  · intro k hk hp
    obtain ⟨j, hj, hcell, hbyte⟩ := hplaced k hk hp
    rw [hcell, hreached _ j (hreaches j hj), hbyte x]
  · intro c hc
    by_cases hin : ∃ j, b.Reaches .word e c j
    · -- The cell was written; what it got is what it had.
      obtain ⟨j, hj, rfl, -⟩ := hin
      rw [hreached _ j (hreaches j hj)]
      rcases hkept j hj with ⟨k, hk, hp, hcell⟩ | hbyte
      · exact absurd hcell (hc k hk hp)
      · rw [hbyte x, byteOf_of_composed hx hj]
    · exact hother c hin

/-- What `swr` does at `a`. -/
theorem storeRight_places (h : Storable a) (hi : b.isolated = false) (value : UInt32) :
    ∃ x b', b.load .word a = .ok (x, b) ∧
      b.store .word (wordAddress a) (Arithmetic.storeRight a x value) = .ok b' ∧
      b.Places (fun k => k + a.toNat % 4 < 4) value a b' := by
  apply rewrite_places h hi
  · intro k hk hp
    refine ⟨k + a.toNat % 4, hp, Cell.ofAddress_right hp, fun x => ?_⟩
    rw [Arithmetic.byteOf_storeRight a x value hp, if_neg (by omega), Nat.add_sub_cancel]
  · intro j hj
    by_cases hlow : j < a.toNat % 4
    · refine .inr fun x => ?_
      rw [Arithmetic.byteOf_storeRight a x value hj, if_pos hlow]
    · have hin : j - a.toNat % 4 + a.toNat % 4 = j := Nat.sub_add_cancel (Nat.le_of_not_lt hlow)
      refine .inl ⟨j - a.toNat % 4, by omega, by omega, ?_⟩
      rw [Cell.ofAddress_right (by omega), hin]

/-- What `swl` does at `a + 3`. -/
theorem storeLeft_places (h : Storable (a + 3)) (hi : b.isolated = false) (value : UInt32) :
    ∃ x b', b.load .word (a + 3) = .ok (x, b) ∧
      b.store .word (wordAddress (a + 3)) (Arithmetic.storeLeft (a + 3) x value) = .ok b' ∧
      b.Places (fun k => 3 ≤ k + (a + 3).toNat % 4) value a b' := by
  have hlt : (a + 3).toNat % 4 < 4 := Nat.mod_lt _ (by decide)
  apply rewrite_places h hi
  · intro k hk hp
    have hin : k + (a + 3).toNat % 4 - 3 + (3 - (a + 3).toNat % 4) = k := by omega
    refine ⟨k + (a + 3).toNat % 4 - 3, by omega, Cell.ofAddress_left hk hp, fun x => ?_⟩
    rw [Arithmetic.byteOf_storeLeft _ x value (by omega), hin, if_pos hk]
  · intro j hj
    by_cases hlow : j + (3 - (a + 3).toNat % 4) < 4
    · have hin : j + (3 - (a + 3).toNat % 4) + (a + 3).toNat % 4 - 3 = j := by omega
      refine .inl ⟨j + (3 - (a + 3).toNat % 4), hlow, by omega, ?_⟩
      rw [Cell.ofAddress_left hlow (by omega), hin]
    · refine .inr fun x => ?_
      rw [Arithmetic.byteOf_storeLeft _ x value hj, if_neg hlow]

end Bus

/-! ## Stores -/

namespace Cpu

open Arithmetic

/-- Bytes of `value` are in place, and no register has changed. -/
structure PlacesBytes (c : Cpu) (b : Bus) (P : Nat → Prop) (value a : UInt32) (o : Outcome) :
    Prop where
  fault : o.fault = none
  cpu : o.cpu = c
  bus : b.Places P value a o.bus

variable {c : Cpu} {b b' : Bus} {P Q : Nat → Prop} {first second right left : Instruction}
  {base t : RegisterIndex} {x e : UInt32} {o : Outcome}

theorem update_places {f : UInt32 → UInt32} (hl : b.load .word e = .ok (x, b))
    (hs : b.store .word (wordAddress e) (f x) = .ok b') (hp : b.Places P value a b') :
    c.PlacesBytes b P value a (c.update b e f) where
  fault := by
    rw [update, Outcome.after_fault, hl]
    simp only [storeFrom, Outcome.after_fault, hs]
    rfl
  cpu := by
    rw [update, Outcome.after_cpu, hl]
    simp only [storeFrom, Outcome.after_cpu, hs]
    rfl
  bus := by
    rw [update, Outcome.after_bus, hl]
    simp only [storeFrom, Outcome.after_bus, hs]
    exact hp

/-- The second instruction adds its bytes to those of the first. -/
theorem PlacesBytes.both (h : c.PlacesBytes b P value a (c.execute b first))
    (h' : ∀ b₁, b.Places P value a b₁ → c.PlacesBytes b₁ Q value a (c.execute b₁ second)) :
    c.PlacesBytes b (fun k => P k ∨ Q k) value a (c.executeBoth b first second) := by
  have hsecond := h' _ h.bus
  rw [executeBoth_of_ok h.fault, h.cpu]
  refine ⟨?_, ?_, ?_⟩
  · rw [Outcome.after_fault]
    exact hsecond.fault
  · rw [Outcome.after_cpu]
    exact hsecond.cpu
  · rw [Outcome.after_bus]
    exact h.bus.trans hsecond.bus

section

variable (h : c.Straddles .swr .swl right left base t a) (hi : b.isolated = false)
include h hi

theorem Straddles.right_places (ha : Storable a) :
    c.PlacesBytes b (fun k => k + a.toNat % 4 < 4) (c.reg t) a (c.execute b right) := by
  obtain ⟨ho, -⟩ := h.opcodes
  obtain ⟨rfl, -⟩ := h.registers
  obtain ⟨rfl, -⟩ := h.addresses
  obtain ⟨x, b', hl, hs, hp⟩ := Bus.storeRight_places ha hi (c.reg right.rt)
  rw [execute, ho]
  exact update_places hl hs hp

theorem Straddles.left_places (ha : Storable (a + 3)) :
    c.PlacesBytes b (fun k => 3 ≤ k + (a + 3).toNat % 4) (c.reg t) a (c.execute b left) := by
  obtain ⟨-, ho⟩ := h.opcodes
  obtain ⟨-, rfl⟩ := h.registers
  obtain ⟨-, haddress⟩ := h.addresses
  obtain ⟨x, b', hl, hs, hp⟩ := Bus.storeLeft_places ha hi (c.reg left.rt)
  rw [← haddress] at hl hs
  rw [execute, ho]
  exact update_places hl hs hp

end

/-- The register `t` is in the four cells from `a` on. Nothing else has changed,
and loads of the word at `a` bring it back. -/
structure StoresWord (c : Cpu) (b : Bus) (t : RegisterIndex) (a : UInt32) (o : Outcome) : Prop where
  fault : o.fault = none
  cpu : o.cpu = c
  stored : ∀ k < 4,
    o.bus.load .byte (a + UInt32.ofNat k) = .ok ((byteOf (c.reg t) k).toUInt32, o.bus)
  kept : ∀ cell, (∀ k < 4, cell ≠ Cell.ofAddress (a + UInt32.ofNat k)) →
    o.bus.byteAt cell = b.byteAt cell
  frame : o.bus = { b with memory := o.bus.memory }
  readBack : ∀ (c' : Cpu) (right left : Instruction) (base u : RegisterIndex),
    c'.Straddles .lwr .lwl right left base u a → u ≠ 0 → u ≠ base →
      c'.Puts o.bus u (c.reg t) (c'.executeBoth o.bus right left) ∧
        c'.Puts o.bus u (c.reg t) (c'.executeBoth o.bus left right)

/-- A word whose bytes can be loaded is what the loads of the word at `a` bring. -/
theorem executeBoth_loads (ha : Storable a) (ha' : Storable (a + 3))
    (hbytes : ∀ k < 4, b.load .byte (a + UInt32.ofNat k) = .ok ((byteOf value k).toUInt32, b))
    (h : c.Straddles .lwr .lwl right left base t a) (ht : t ≠ 0) (hbase : t ≠ base) :
    c.Puts b t value (c.executeBoth b right left) ∧
      c.Puts b t value (c.executeBoth b left right) := by
  obtain ⟨x, hx⟩ := (ha.cell.legible b).load
  obtain ⟨y, hy⟩ := (ha'.cell.legible b).load
  obtain ⟨word, hword, hputs⟩ := h.executeBoth ht hbase hx hy
  have hvalue : word = value := by
    apply eq_of_byteOf_eq
    intro k hk
    have hloaded := (Bus.load_straddled hx hy hk).symm.trans (hbytes k hk)
    have hbyte := congrArg Prod.fst (Except.ok.inj hloaded)
    rw [hword k hk]
    exact UInt8.toUInt32_inj.mp hbyte
  rwa [hvalue] at hputs

/-- When every byte has been placed, the word is stored. -/
theorem PlacesBytes.storesWord (h : c.PlacesBytes b P (c.reg t) a o) (hall : ∀ k < 4, P k)
    (ha : Storable a) (ha' : Storable (a + 3)) : c.StoresWord b t a o := by
  have hstored (k : Nat) (hk : k < 4) :
      o.bus.load .byte (a + UInt32.ofNat k) = .ok ((byteOf (c.reg t) k).toUInt32, o.bus) := by
    have hcell : NamesCell (a + UInt32.ofNat k) := (ha.add ha' hk).cell
    rw [o.bus.load_byte_cell hcell, h.bus.placed k hk (hall k hk)]
  refine ⟨h.fault, h.cpu, hstored, ?_, h.bus.frame, ?_⟩
  · intro cell hcell
    exact h.bus.kept cell fun k hk _ => hcell k hk
  · intro c' right left base u hpair hu hbase
    exact executeBoth_loads ha ha' hstored hpair hu hbase

/-- `swr` at `a` and `swl` at `a + 3`, in either order, store the register at `a`
and change nothing else. -/
theorem executeBoth_swr_swl (h : c.Straddles .swr .swl right left base t a)
    (hi : b.isolated = false) (ha : Storable a) (ha' : Storable (a + 3)) :
    c.StoresWord b t a (c.executeBoth b right left) ∧
      c.StoresWord b t a (c.executeBoth b left right) := by
  have hlast := toNat_add_three_mod a
  have hi' {R : Nat → Prop} {b₁ : Bus} (hp : b.Places R (c.reg t) a b₁) : b₁.isolated = false := by
    rw [hp.frame]
    exact hi
  constructor
  · refine ((h.right_places hi ha).both fun b₁ hp => h.left_places (hi' hp) ha').storesWord ?_ ha ha'
    intro k hk
    omega
  · refine ((h.left_places hi ha').both fun b₁ hp => h.right_places (hi' hp) ha).storesWord ?_ ha ha'
    intro k hk
    omega

/-- `swr t1, 0(t0)` and `swl t1, 3(t0)` where the last bytes of the scratchpad meet
the first byte of its mirror. -/
theorem executeBoth_swr_swl_mirror :
    let c := (Cpu.reset.setReg 8 0x9F8003FD).setReg 9 0xDEADBEEF
    let b : Bus := {}
    c.Straddles .swr .swl (.decode 0xB9090000) (.decode 0xA9090003) 8 9 0x9F8003FD ∧
      b.isolated = false ∧ Storable 0x9F8003FD ∧ Storable (0x9F8003FD + 3) ∧
      c.StoresWord b 9 0x9F8003FD (c.executeBoth b (.decode 0xB9090000) (.decode 0xA9090003)) ∧
      c.StoresWord b 9 0x9F8003FD (c.executeBoth b (.decode 0xA9090003) (.decode 0xB9090000)) := by
  intro c b
  have h : c.Straddles .swr .swl (.decode 0xB9090000) (.decode 0xA9090003) 8 9 0x9F8003FD :=
    ⟨by decide, by decide, by decide, by decide⟩
  have ha : Storable 0x9F8003FD := by decide
  have ha' : Storable (0x9F8003FD + 3) := by decide
  exact ⟨h, rfl, ha, ha', executeBoth_swr_swl h rfl ha ha'⟩

end Cpu

end R3000
