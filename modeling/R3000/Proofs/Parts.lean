import R3000.Memory
import R3000.Proofs.Memory.Bytes

/-!
# Parts of a word

A word consists of two halves, or of four bytes. Putting all parts of a value
into a word, one after the other, puts the value there. The same holds for a
register that keeps what is put into it within some mask, though it is read and
written back for every part, and for memory.
-/

namespace R3000

namespace Width

/-- Where the parts of a word begin that have this width. -/
def places : Width → List Nat
  | byte => [0, 1, 2, 3]
  | half => [0, 2]
  | word => [0]

/-- The part of a value that begins with byte `k`. -/
def part (w : Width) (value : UInt32) (k : Nat) : UInt32 :=
  w.truncate (value >>> UInt32.ofNat (8 * k))

variable {w : Width} {a value : UInt32} {k j : Nat} {ks : List Nat}

theorem add_bytes_le_of_mem (hk : k ∈ w.places) : k + w.bytes ≤ 4 := by
  have hle : ∀ w : Width, ∀ k ∈ w.places, k + w.bytes ≤ 4 := by
    intro w
    cases w <;> decide
  exact hle w k hk

theorem lt_of_mem (hk : k ∈ w.places) : k < 4 := by
  have hle := add_bytes_le_of_mem hk
  have hpos : 0 < w.bytes := by cases w <;> decide
  omega

theorem bytes_dvd_of_mem (hk : k ∈ w.places) : w.bytes ∣ k := by
  have hdvd : ∀ w : Width, ∀ k ∈ w.places, w.bytes ∣ k := by
    intro w
    cases w <;> decide
  exact hdvd w k hk

/-- Every byte of a word is in one of the parts. -/
theorem exists_place (w : Width) (hj : j < 4) : ∃ k ∈ w.places, k ≤ j ∧ j < k + w.bytes := by
  have hcovered : ∀ w : Width, ∀ j : Fin 4, ∃ k ∈ w.places, k ≤ j ∧ j < k + w.bytes := by
    intro w
    cases w <;> decide
  exact hcovered w ⟨j, hj⟩

theorem toNat_ofNat_place (hk : k < 4) : (UInt32.ofNat (8 * k)).toNat = 8 * k := by
  rw [UInt32.toNat_ofNat']
  omega

theorem byteOf_part (hk : k ∈ w.places) (hj : j < w.bytes) :
    byteOf (w.part value k) j = byteOf value (k + j) := by
  have hlt := lt_of_mem hk
  apply byteOf_congr
  intro i hi
  have hbit : 8 * j + i < 8 * w.bytes := by omega
  rw [part, truncate, UInt32.toNat_and, Nat.testBit_and, toNat_mask, Nat.testBit_two_pow_sub_one,
    decide_eq_true hbit, Bool.and_true, testBit_shiftRight _ (toNat_ofNat_place hlt) (by omega)]
  congr 1
  omega

theorem truncate_part (w : Width) (value : UInt32) (k : Nat) :
    w.truncate (w.part value k) = w.part value k := by
  rw [part, truncate, truncate, UInt32.and_assoc, UInt32.and_self]

theorem part_word (value : UInt32) : word.part value 0 = value := by
  apply eq_of_byteOf_eq
  intro j hj
  rw [byteOf_part (by decide) hj, Nat.zero_add]

/-! ## Words -/

/-- The parts of an aligned word are aligned. -/
theorem align_add_place (ha : a.toNat % 4 = 0) (hk : k ∈ w.places) :
    w.align (a + UInt32.ofNat k) = a + UInt32.ofNat k := by
  have hlt := lt_of_mem hk
  have hdvd := bytes_dvd_of_mem hk
  have hadd := a.toNat_lt
  apply UInt32.toNat_inj.mp
  rw [toNat_align, UInt32.toNat_add, UInt32.toNat_ofNat']
  cases w <;> simp only [bytes] at hdvd ⊢ <;> omega

theorem wordAddress_of_aligned (ha : a.toNat % 4 = 0) : wordAddress a = a :=
  align_of_dvd (w := .word) (Nat.dvd_of_mod_eq_zero ha)

theorem wordAddress_add_place (ha : a.toNat % 4 = 0) (hk : k ∈ w.places) :
    wordAddress (a + UInt32.ofNat k) = a := by
  have hlt := lt_of_mem hk
  rw [wordAddress_add_below (by omega), wordAddress_of_aligned ha]

theorem start_add_place (ha : a.toNat % 4 = 0) (hk : k ∈ w.places) :
    w.start (a + UInt32.ofNat k) = k := by
  have hlt := lt_of_mem hk
  rw [start, align_add_place ha hk, toNat_add_ofNat_mod, ha]
  omega

/-- Put the part of `value` that begins with byte `k` into a word. -/
def mergePart (w : Width) (a value content : UInt32) (k : Nat) : UInt32 :=
  w.merge (a + UInt32.ofNat k) content (w.part value k)

theorem byteOf_mergePart (ha : a.toNat % 4 = 0) (hk : k ∈ w.places) (content : UInt32)
    (hj : j < 4) :
    byteOf (w.mergePart a value content k) j =
      if k ≤ j ∧ j < k + w.bytes then byteOf value j else byteOf content j := by
  have huses : w.Uses (a + UInt32.ofNat k) j ↔ k ≤ j ∧ j < k + w.bytes := by
    rw [Uses, start_add_place ha hk]
  rw [mergePart, byteOf_merge w _ _ _ hj, if_congr huses rfl rfl, start_add_place ha hk]
  split
  · rw [byteOf_part hk (by omega)]
    congr 1
    omega
  · rfl

theorem byteOf_foldl_mergePart (ha : a.toNat % 4 = 0) (hks : ∀ k ∈ ks, k ∈ w.places)
    (content : UInt32) (hj : j < 4) :
    byteOf (ks.foldl (w.mergePart a value) content) j =
      if ∃ k ∈ ks, k ≤ j ∧ j < k + w.bytes then byteOf value j else byteOf content j := by
  induction ks generalizing content with
  | nil => simp
  | cons k ks ih =>
    obtain ⟨hk, hks⟩ := List.forall_mem_cons.mp hks
    rw [List.foldl_cons, ih hks, byteOf_mergePart ha hk content hj]
    simp only [List.exists_mem_cons_iff]
    by_cases hrest : ∃ k ∈ ks, k ≤ j ∧ j < k + w.bytes
    · rw [if_pos hrest, if_pos (.inr hrest)]
    · rw [if_neg hrest]
      exact if_congr (or_iff_left hrest).symm rfl rfl

/-- Once all parts have been put there, the word is the value. -/
theorem foldl_mergePart (w : Width) (ha : a.toNat % 4 = 0) (value content : UInt32) :
    w.places.foldl (w.mergePart a value) content = value := by
  apply eq_of_byteOf_eq
  intro j hj
  rw [byteOf_foldl_mergePart ha (fun k hk => hk) content hj, if_pos (w.exists_place hj)]

/-- Only what the mask has of a word matters for what it has of the word after a merge. -/
theorem merge_and (w : Width) (a content value mask : UInt32) :
    w.merge a (content &&& mask) value &&& mask = w.merge a content value &&& mask := by
  apply UInt32.toNat_inj.mp
  apply Nat.eq_of_testBit_eq
  intro i
  simp only [merge, UInt32.toNat_and, UInt32.toNat_or, Nat.testBit_and, Nat.testBit_or]
  cases mask.toNat.testBit i <;> simp

end Width

/-! ## Registers -/

/-- A register that keeps what is put into it, within a mask, and nothing else. -/
structure Keeps {σ : Type} (get : σ → UInt32) (put : σ → UInt32 → σ) (mask : UInt32) : Prop where
  get_put : ∀ s x, get (put s x) = x &&& mask
  put_put : ∀ s x y, put (put s x) y = put s y
  put_and : ∀ s x, put s (x &&& mask) = put s x

namespace Keeps

variable {σ : Type} {get : σ → UInt32} {put : σ → UInt32 → σ} {mask x y : UInt32}

/-- A register that keeps all bits. -/
theorem of_get_put (hget : ∀ s x, get (put s x) = x) (hput : ∀ s x y, put (put s x) y = put s y) :
    Keeps get put 0xFFFFFFFF := by
  have hall (x : UInt32) : x &&& 0xFFFFFFFF = x := UInt32.and_neg_one
  exact ⟨fun s x => by rw [hget, hall], hput, fun s x => by rw [hall]⟩

theorem put_congr (h : Keeps get put mask) (hxy : x &&& mask = y &&& mask) (s : σ) :
    put s x = put s y := by
  rw [← h.put_and s x, hxy, h.put_and]

/-- Parts that are put into the register one after the other meet in it. -/
theorem foldl_put (h : Keeps get put mask) (w : Width) (a value : UInt32) (ks : List Nat) (s : σ)
    (x : UInt32) :
    ks.foldl (fun s k => put s (w.mergePart a value (get s) k)) (put s x) =
      put s (ks.foldl (w.mergePart a value) x) := by
  induction ks generalizing x with
  | nil => rfl
  | cons k ks ih =>
    have hput : put s (w.mergePart a value (x &&& mask) k) = put s (w.mergePart a value x k) :=
      h.put_congr (w.merge_and _ x _ mask) s
    rw [List.foldl_cons, List.foldl_cons, h.put_put, h.get_put, hput, ih]

/-- Putting all parts of a value there is putting the value there. -/
theorem put_parts (h : Keeps get put mask) (w : Width) {a : UInt32} (ha : a.toNat % 4 = 0)
    (value : UInt32) (s : σ) :
    w.places.foldl (fun s k => put s (w.mergePart a value (get s) k)) s = put s value := by
  obtain ⟨k, ks, hks⟩ : ∃ k ks, w.places = k :: ks := by
    cases w <;> exact ⟨_, _, rfl⟩
  rw [hks, List.foldl_cons, h.foldl_put, ← List.foldl_cons, ← hks, w.foldl_mergePart ha]

end Keeps

/-! ## Memory -/

/-- The bytes of the parts are those of the word. -/
theorem Width.flatMap_places (w : Width) :
    (w.places.flatMap fun k => (List.range w.bytes).map (k + ·)) = List.range 4 := by
  cases w <;> rfl

theorem Bank.store_parts {size : Nat} (b : Bank size) (w : Width) (i : Nat) (value : UInt32) :
    w.places.foldl (fun b k => b.store w (i + k) (w.part value k)) b = b.store .word i value := by
  let setByte (b : Bank size) (j : Nat) : Bank size := b.set (i + j) (byteOf value j)
  have hpart (b : Bank size) (k : Nat) (hk : k ∈ w.places) :
      b.store w (i + k) (w.part value k) =
        ((List.range w.bytes).map (k + ·)).foldl setByte b := by
    rw [store_eq_foldl, List.foldl_map]
    refine List.foldl_ext _ _ _ fun b j hj => ?_
    rw [Width.byteOf_part hk (List.mem_range.mp hj), Nat.add_assoc]
  calc w.places.foldl (fun b k => b.store w (i + k) (w.part value k)) b
    _ = w.places.foldl (fun b k => ((List.range w.bytes).map (k + ·)).foldl setByte b) b :=
        List.foldl_ext _ _ _ hpart
    _ = (List.range 4).foldl setByte b := by rw [← List.foldl_flatMap, w.flatMap_places]
    _ = b.store .word i value := (b.store_eq_foldl .word i value).symm

namespace Memory

theorem foldl_modify {α : Type} (f : α → {n : Nat} → Bank n → Bank n) (r : Region) (xs : List α)
    (m : Memory) :
    xs.foldl (fun m x => m.modify r (f x)) m =
      m.modify r fun b => xs.foldl (fun b x => f x b) b := by
  induction xs generalizing m with
  | nil => cases r <;> rfl
  | cons x xs ih =>
    rw [List.foldl_cons, ih]
    cases r <;> rfl

theorem store_parts (m : Memory) (r : Region) (w : Width) (i : Nat) (value : UInt32) :
    w.places.foldl (fun m k => m.store r w (i + k) (w.part value k)) m =
      m.store r .word i value := by
  have hfold := foldl_modify (fun k {_} b => Bank.store b w (i + k) (w.part value k)) r w.places m
  simp only [Bank.store_parts] at hfold
  exact hfold

end Memory

end R3000
