import R3000.Executable
import R3000.Proofs.Memory.Bulk

/-!
# Reading executables

A file is an executable exactly when it has a whole header and begins with the magic
characters. Each field of the header is a word at a place of its own, and the payload
is what comes behind the header, up to the size that the header states or to the end of
the file.
-/

namespace R3000

theorem Bank.get_file (file : ByteArray) (i : Nat) :
    (⟨file, rfl⟩ : Bank file.size).get i = byteIn file i := by
  rw [Bank.get_eq_getElem?, byteIn, Array.getD_eq_getD_getElem?]

namespace Executable

/-- The file has a whole header and begins with the magic characters. -/
def HasHeader (file : ByteArray) : Prop :=
  headerSize ≤ file.size ∧ magic.data.toList <+: file.data.toList

/-- Value of the four bytes of a file from offset `i` on, the lowest first. -/
def valueAt (file : ByteArray) (i : Nat) : Nat :=
  composed 4 fun k => byteIn file (i + k)

/-- The fields that the header gives, each behind its offset. -/
def headerFields : List (Nat × (Executable → UInt32)) :=
  [(0x10, entry), (0x14, globalPointer), (0x18, loadAddress), (0x28, fillStart), (0x2C, fillSize),
    (0x30, stackBase), (0x34, stackOffset)]

/-- The executable is the one that a file describes. -/
structure DescribedBy (x : Executable) (file : ByteArray) : Prop where
  fields : ∀ f ∈ headerFields, (f.2 x).toNat = valueAt file f.1
  payload : x.payload.data.toList =
    (file.data.toList.drop 0x800).take (min (valueAt file 0x1C) (file.size - 0x800))

theorem toNat_wordAt (file : ByteArray) (i : Nat) : (wordAt file i).toNat = valueAt file i := by
  have hload : wordAt file i = (⟨file, rfl⟩ : Bank file.size).load .word i := by
    simp only [Bank.load, Bank.get_file]
    rfl
  rw [hload, Bank.toNat_load]
  simp only [Bank.get_file]
  rfl

theorem toList_extract (file : ByteArray) (start stop : Nat) :
    (file.extract start stop).data.toList = (file.data.toList.drop start).take (stop - start) := by
  rw [ByteArray.data_extract, Array.toList_extract, List.extract_eq_take_drop]

/-- The first eight bytes are compared with the magic characters. -/
theorem extract_bne_magic_iff (file : ByteArray) :
    (file.extract 0 8 != magic) = true ↔ ¬ magic.data.toList <+: file.data.toList := by
  have hdata : (file.extract 0 8 != magic) = ((file.extract 0 8).data != magic.data) := rfl
  have hlength : magic.data.toList.length = 8 := by decide
  rw [hdata, bne_iff_ne, ne_eq, ← Array.toList_inj, toList_extract, List.prefix_iff_eq_take, hlength]
  exact not_congr eq_comm

/-- A file with a header is read, and gives what it describes. -/
theorem parse_of_hasHeader {file : ByteArray} (h : HasHeader file) :
    ∃ x, parse file = .ok x ∧ x.DescribedBy file := by
  obtain ⟨hsize, hmagic⟩ := h
  have hsmall : ¬ file.size < headerSize := Nat.not_lt.mpr hsize
  have hbad : ¬ (file.extract 0 8 != magic) = true :=
    mt (extract_bne_magic_iff file).mp (not_not_intro hmagic)
  refine ⟨_, by rw [parse, if_neg hsmall, if_neg hbad], ?_⟩
  constructor
  · simp [headerFields, toNat_wordAt]
  · simp only [toList_extract, Nat.add_sub_cancel_left, statedSize, toNat_wordAt, availableSize]
    rfl

/-- A file without one is refused. -/
theorem parse_of_not_hasHeader {file : ByteArray} (h : ¬ HasHeader file) :
    ∃ d, parse file = .error d := by
  rw [HasHeader, not_and_or, Nat.not_le] at h
  by_cases hsmall : file.size < headerSize
  · exact ⟨_, if_pos hsmall⟩
  · have hbad := (extract_bne_magic_iff file).mpr (h.resolve_left hsmall)
    exact ⟨_, by rw [parse, if_neg hsmall, if_pos hbad]⟩

/-- Reading succeeds exactly for files with a header. -/
theorem parse_ok_iff (file : ByteArray) : (∃ x, parse file = .ok x) ↔ HasHeader file := by
  constructor
  · rintro ⟨x, hx⟩
    by_contra h
    obtain ⟨d, hd⟩ := parse_of_not_hasHeader h
    rw [hx] at hd
    nomatch hd
  · intro h
    obtain ⟨x, hx, -⟩ := parse_of_hasHeader h
    exact ⟨x, hx⟩

theorem describedBy_of_parse {file : ByteArray} {x : Executable} (h : parse file = .ok x) :
    x.DescribedBy file := by
  obtain ⟨y, hy, hdescribed⟩ := parse_of_hasHeader ((parse_ok_iff file).mp ⟨x, h⟩)
  rw [h] at hy
  exact Except.ok.inj hy ▸ hdescribed

end Executable

end R3000
