import Mathlib.Algebra.Group.Nat.Defs
import R3000.Snapshot

/-!
# Writing and reading values

What is written is read back, in the midst of anything and to the last byte.
`Recovers` says so of a reader and a writer, and passes from the parts of a
value to the whole.
-/

namespace R3000

namespace Reader

variable {α β : Type}

/-- The reader finds `a` in the bytes `written`. It takes all of them and nothing
that stands around them, and refuses when some are missing at the end. -/
structure Reads (r : Reader α) (written : ByteArray) (a : α) : Prop where
  found : ∀ before after,
    r (before ++ written ++ after) before.size = some (a, before.size + written.size)
  refused : ∀ before n, n < written.size → r (before ++ written.extract 0 n) before.size = none

/-- Behind the bytes `start` come in `stop` bytes that the reader reads back as `a`. -/
def Recovers (r : Reader α) (start stop : ByteArray) (a : α) : Prop :=
  ∃ written, stop = start ++ written ∧ r.Reads written a

/-! ## Sequences -/

theorem Reads.pure (a : α) : (pure a : Reader α).Reads .empty a :=
  ⟨fun _ _ => rfl, nofun⟩

section

variable {r : Reader α} {f : α → Reader β} {bytes : ByteArray} {pos pos' : Nat} {a : α}

theorem bind_of_some (h : r bytes pos = some (a, pos')) : (r >>= f) bytes pos = f a bytes pos' := by
  simp only [Bind.bind, h]

theorem bind_of_none (h : r bytes pos = none) : (r >>= f) bytes pos = none := by
  simp only [Bind.bind, h]

end

theorem Reads.bind {r : Reader α} {f : α → Reader β} {first second : ByteArray} {a : α} {b : β}
    (hr : r.Reads first a) (hf : (f a).Reads second b) : (r >>= f).Reads (first ++ second) b where
  found before after := by
    have hsplit : before ++ (first ++ second) ++ after = before ++ first ++ (second ++ after) := by
      simp only [ByteArray.append_assoc]
    have hnext := hf.found (before ++ first) after
    have hrest : before ++ first ++ second ++ after = before ++ first ++ (second ++ after) :=
      ByteArray.append_assoc
    rw [hrest, ByteArray.size_append] at hnext
    rw [hsplit, bind_of_some (hr.found before (second ++ after)), hnext, ByteArray.size_append,
      Nat.add_assoc]
  refused before n hn := by
    rw [ByteArray.extract_append]
    by_cases h : n < first.size
    · -- The part for the second value is missing altogether.
      have hnone : second.extract (0 - first.size) (n - first.size) = .empty := by
        rw [Nat.zero_sub, Nat.sub_eq_zero_of_le (Nat.le_of_lt h), ByteArray.extract_same]
      rw [hnone, ByteArray.append_empty]
      exact bind_of_none (hr.refused before n h)
    · have hle : first.size ≤ n := Nat.le_of_not_lt h
      have hall : first.extract 0 n = first := by
        rw [← Nat.max_eq_left hle]
        exact ByteArray.extract_zero_max_size
      rw [hall, Nat.zero_sub, ← ByteArray.append_assoc, bind_of_some (hr.found before _),
        ← ByteArray.size_append]
      rw [ByteArray.size_append] at hn
      exact hf.refused _ _ (by omega)

section

variable {start middle stop : ByteArray}

theorem Recovers.pure (a : α) : (pure a : Reader α).Recovers start start a :=
  ⟨.empty, ByteArray.append_empty.symm, .pure a⟩

theorem Recovers.bind {r : Reader α} {f : α → Reader β} {a : α} {b : β}
    (hr : r.Recovers start middle a) (hf : (f a).Recovers middle stop b) :
    (r >>= f).Recovers start stop b := by
  obtain ⟨first, rfl, hr⟩ := hr
  obtain ⟨second, rfl, hf⟩ := hf
  exact ⟨first ++ second, ByteArray.append_assoc, hr.bind hf⟩

/-- What was read may be turned into another value without reading on. -/
theorem Recovers.finish {r : Reader α} {f : α → Reader β} {a : α} {b : β}
    (hr : r.Recovers start stop a) (hf : f a = Pure.pure b) : (r >>= f).Recovers start stop b := by
  have h : (f a).Recovers stop stop b := by
    rw [hf]
    exact .pure b
  exact hr.bind h

theorem Recovers.map {r : Reader α} {a : α} (f : α → β) (hr : r.Recovers start stop a) :
    (do return f (← r)).Recovers start stop (f a) :=
  hr.finish rfl

end

/-! ## Bytes -/

theorem byte_reads (x : UInt8) : byte.Reads [x].toByteArray x where
  found before after := by
    have hlt : before.size < (before ++ [x].toByteArray ++ after).size := by
      simp only [ByteArray.size_append, List.size_toByteArray, List.length_singleton]
      omega
    have hget : (before ++ [x].toByteArray ++ after)[before.size] = x := by
      rw [ByteArray.getElem_append_left (by
        rw [ByteArray.size_append, List.size_toByteArray, List.length_singleton]; omega),
        ByteArray.getElem_append_right (Nat.le_refl _)]
      simp only [Nat.sub_self]
      rfl
    rw [byte, dif_pos hlt, hget]
    rfl
  refused before n hn := by
    have hz : n = 0 := Nat.lt_one_iff.mp hn
    rw [hz, ByteArray.extract_same, ByteArray.append_empty]
    exact dif_neg (Nat.lt_irrefl _)

theorem byte_recovers (x : UInt8) (buffer : ByteArray) :
    byte.Recovers buffer (buffer.push x) x :=
  ⟨_, ByteArray.append_toByteArray_singleton.symm, byte_reads x⟩

theorem take_recovers (bytes buffer : ByteArray) :
    (take bytes.size).Recovers buffer (buffer ++ bytes) bytes := by
  refine ⟨bytes, rfl, ⟨?_, ?_⟩⟩
  · intro before after
    have hex : (before ++ bytes ++ after).extract before.size (before.size + bytes.size) = bytes := by
      rw [ByteArray.append_assoc]
      exact (ByteArray.extract_append_size_add (i := 0)).trans (ByteArray.extract_append_eq_left rfl)
    rw [take, if_pos (by simp only [ByteArray.size_append]; omega), hex]
  · intro before n hn
    rw [take, if_neg]
    simp only [ByteArray.size_append, ByteArray.size_extract]
    omega

/-! ## Numbers -/

theorem littleEndian_recovers (count : Nat) {n : Nat} (hn : n < 256 ^ count)
    (buffer : ByteArray) :
    (littleEndian count).Recovers buffer (putLittleEndian buffer count n) n := by
  induction count generalizing n buffer with
  | zero =>
    obtain rfl : n = 0 := Nat.lt_one_iff.mp hn
    exact .pure 0
  | succ count ih =>
    have hhigh : n / 256 < 256 ^ count := by
      rw [Nat.div_lt_iff_lt_mul (by decide)]
      exact hn
    have hvalue : (UInt8.ofNat n).toNat + 256 * (n / 256) = n := by
      rw [UInt8.toNat_ofNat']
      omega
    have h := (ih hhigh (buffer.push (UInt8.ofNat n))).map ((UInt8.ofNat n).toNat + 256 * ·)
    rw [hvalue] at h
    exact (byte_recovers _ buffer).bind h

/-- What follows the first byte of a number. -/
def numberAfter (width : Nat) (first : UInt8) : Reader Nat :=
  if first < 251 then return first.toNat
  else if first == 251 then littleEndian 2
  else if first == 252 ∧ 4 ≤ width then littleEndian 4
  else if first == 253 ∧ 8 ≤ width then littleEndian 8
  else refuse

theorem number_recovers {width n : Nat} (hn : n < 256 ^ width)
    (hw : width = 2 ∨ width = 4 ∨ width = 8) (buffer : ByteArray) :
    (number width).Recovers buffer (putNumber buffer n) n := by
  -- Behind a marker comes a fixed number of bytes; the shortest form that has room is used.
  have hmarked {mark : UInt8} {count : Nat} (hcount : n < 256 ^ count)
      (hmark : numberAfter width mark = littleEndian count) :
      (number width).Recovers buffer (putLittleEndian (buffer.push mark) count n) n := by
    have h := littleEndian_recovers count hcount (buffer.push mark)
    rw [← hmark] at h
    exact (byte_recovers mark buffer).bind (f := numberAfter width) h
  have hhalf : UInt16.size = 2 ^ 16 := rfl
  have hword : UInt32.size = 2 ^ 32 := rfl
  rw [putNumber, hhalf, hword]
  by_cases h1 : n < 251
  · have hvalue : (UInt8.ofNat n).toNat = n := UInt8.toNat_ofNat_of_lt' (Nat.lt_trans h1 (by decide))
    have hfirst : numberAfter width (UInt8.ofNat n) = pure n := by
      rw [numberAfter, if_pos (UInt8.lt_iff_toNat_lt.mpr (hvalue.symm ▸ h1)), hvalue]
    rw [if_pos h1]
    exact (byte_recovers _ buffer).finish (f := numberAfter width) hfirst
  · by_cases h2 : n < 2 ^ 16
    · rw [if_neg h1, if_pos h2]
      exact hmarked h2 rfl
    · by_cases h4 : n < 2 ^ 32
      · have hwidth : 4 ≤ width := by
          rcases hw with rfl | rfl | rfl <;> omega
        rw [if_neg h1, if_neg h2, if_pos h4]
        exact hmarked h4 (by simp [numberAfter, hwidth])
      · have hwidth : width = 8 := by
          rcases hw with rfl | rfl | rfl <;> omega
        subst hwidth
        rw [if_neg h1, if_neg h2, if_neg h4]
        exact hmarked hn rfl

/-! ## Repetition -/

variable {item : Reader α} {write : ByteArray → α → ByteArray}

theorem many_recovers (items : List α)
    (h : ∀ a ∈ items, ∀ buffer, item.Recovers buffer (write buffer a) a) (read : Array α)
    (buffer : ByteArray) :
    (many item items.length read).Recovers buffer (items.foldl write buffer)
      (read ++ items.toArray) := by
  -- What was read so far stands in front, so the induction is for every such array.
  induction items generalizing read buffer with
  | nil =>
    have hread : read ++ ([] : List α).toArray = read := Array.append_empty
    rw [hread]
    exact .pure read
  | cons a items ih =>
    rw [List.forall_mem_cons] at h
    have hread : read.push a ++ items.toArray = read ++ (a :: items).toArray := by simp
    have hrest := ih h.2 (read.push a) (write buffer a)
    rw [hread] at hrest
    exact (h.1 buffer).bind (f := fun a => many item items.length (read.push a)) hrest

theorem vector_recovers {n : Nat} (items : Vector α n)
    (h : ∀ a ∈ items, ∀ buffer, item.Recovers buffer (write buffer a) a) (buffer : ByteArray) :
    (vector item n).Recovers buffer (items.toArray.foldl write buffer) items := by
  -- A vector is read from its front and built at its back, so the last item is split off.
  induction n with
  | zero =>
    obtain rfl : items = #v[] := Vector.eq_empty
    exact .pure #v[]
  | succ n ih =>
    rw [← Vector.push_pop_back items] at h ⊢
    rw [Vector.forall_mem_push] at h
    rw [Vector.toArray_push, Array.foldl_push]
    exact (ih items.pop h.2).bind ((h.1 _).map items.pop.push)

end Reader

namespace Wire

open Reader

/-- The value is read back as it was written. -/
def Faithful {α : Type} [Wire α] (a : α) : Prop :=
  ∀ buffer, (get : Reader α).Recovers buffer (put buffer a) a

variable {α : Type} [Wire α]

theorem faithful_byte (x : UInt8) : Faithful x :=
  byte_recovers x

theorem faithful_bool (b : Bool) : Faithful b := by
  intro buffer
  cases b with
  | false => exact (byte_recovers 0 buffer).finish rfl
  | true => exact (byte_recovers 1 buffer).finish rfl

theorem faithful_half (n : UInt16) : Faithful n := by
  intro buffer
  have h := (number_recovers n.toNat_lt (.inl rfl) buffer).map UInt16.ofNat
  rw [UInt16.ofNat_toNat] at h
  exact h

theorem faithful_word (n : UInt32) : Faithful n := by
  intro buffer
  have h := (number_recovers n.toNat_lt (.inr (.inl rfl)) buffer).map UInt32.ofNat
  rw [UInt32.ofNat_toNat] at h
  exact h

theorem faithful_double (n : UInt64) : Faithful n := by
  intro buffer
  have h := (number_recovers n.toNat_lt (.inr (.inr rfl)) buffer).map UInt64.ofNat
  rw [UInt64.ofNat_toNat] at h
  exact h

/-- The greatest count that can be written. -/
theorem count_recovers {n : Nat} (h : n < 2 ^ 64) (buffer : ByteArray) :
    (number 8).Recovers buffer (putNumber buffer n) n :=
  number_recovers h (.inr (.inr rfl)) buffer

theorem faithful_bytes {bytes : ByteArray} (h : bytes.size < 2 ^ 64) : Faithful bytes := by
  intro buffer
  exact (count_recovers h buffer).bind (take_recovers bytes _)

theorem faithful_text {text : String} (h : text.toUTF8.size < 2 ^ 64) : Faithful text := by
  intro buffer
  have hvalid : String.fromUTF8? text.toUTF8 = some text := dif_pos text.isValidUTF8
  have hread : Reader.ofOption (String.fromUTF8? text.toUTF8) = pure text := by rw [hvalid]; rfl
  exact (faithful_bytes h buffer).finish hread

theorem faithful_array {items : Array α} (hs : items.size < 2 ^ 64)
    (h : ∀ a ∈ items, Faithful a) : Faithful items := by
  intro buffer
  have hmany := many_recovers items.toList (fun a ha => h a (Array.mem_def.mpr ha)) #[]
    (putNumber buffer items.size)
  rw [Array.toArray_toList, Array.empty_append, Array.foldl_toList] at hmany
  exact (count_recovers hs buffer).bind hmany

theorem faithful_vector {n : Nat} {items : Vector α n} (h : ∀ a ∈ items, Faithful a) :
    Faithful items :=
  vector_recovers items h

end Wire

/-! ## Snapshots -/

namespace Snapshot

open Wire

theorem faithful_cpu (c : Cpu) : Faithful c := by
  intro buffer
  exact
    (faithful_vector (fun a _ => faithful_word a) buffer).bind <|
    (faithful_word c.pc _).bind <|
    (faithful_word c.nextPc _).bind <|
    (faithful_word c.currentPc _).bind <|
    (faithful_word c.currentInstruction _).bind <|
    (faithful_word c.hi _).bind <|
    (faithful_word c.lo _).bind <|
    (faithful_vector (fun a _ => faithful_word a) _).finish rfl

theorem faithful_interrupt (c : InterruptController) : Faithful c := by
  intro buffer
  exact (faithful_half c.status buffer).bind <| (faithful_half c.mask _).finish rfl

theorem faithful_dmaChannel (c : DmaChannel) : Faithful c := by
  intro buffer
  exact
    (faithful_word c.base buffer).bind <|
    (faithful_word c.blockControl _).bind <|
    (faithful_word c.control _).finish rfl

theorem faithful_dma (d : Dma) : Faithful d := by
  intro buffer
  exact
    (faithful_vector (fun c _ => faithful_dmaChannel c) buffer).bind <|
    (faithful_word d.control _).bind <|
    (faithful_word d.interrupt _).bind <|
    (faithful_vector (fun a _ => faithful_word a) _).bind <|
    (faithful_byte d.triggered _).finish rfl

theorem faithful_timerChannel (c : TimerChannel) : Faithful c := by
  intro buffer
  exact
    (faithful_half c.counter buffer).bind <|
    (faithful_half c.mode _).bind <|
    (faithful_half c.target _).bind <|
    (faithful_bool c.fired _).finish rfl

theorem faithful_timers (t : Timers) : Faithful t := by
  intro buffer
  exact (faithful_vector (fun c _ => faithful_timerChannel c) buffer).finish rfl

theorem faithful_gpu {g : Gpu} (h : g.queue.size < 2 ^ 64) : Faithful g := by
  intro buffer
  exact
    (faithful_word g.status buffer).bind <|
    (faithful_array h (fun a _ => faithful_word a) _).bind <|
    (faithful_word g.latch _).bind <|
    (faithful_word g.displayStart _).bind <|
    (faithful_word g.horizontalRange _).bind <|
    (faithful_word g.verticalRange _).finish rfl

theorem faithful_spu {s : Spu} (h : s.registers.size < 2 ^ 64) : Faithful s := by
  intro buffer
  exact (faithful_array h (fun a _ => faithful_half a) buffer).finish rfl

/-- The time is read back as it was written. -/
theorem faithful_timestamp {t : Timestamp} (hs : t.render.toUTF8.size < 2 ^ 64)
    (hp : Timestamp.parse? t.render = some t) : Faithful t := by
  intro buffer
  exact (faithful_text hs buffer).finish (by rw [hp]; rfl)

/-- Every length of the snapshot can be written, and its time can be read. -/
structure Writable (s : Snapshot) : Prop where
  timestamp : s.timestamp.render.toUTF8.size < 2 ^ 64
  time : Timestamp.parse? s.timestamp.render = some s.timestamp
  regions : s.regions.size < 2 ^ 64
  region : ∀ bytes ∈ s.regions, bytes.size < 2 ^ 64
  queue : s.gpu.queue.size < 2 ^ 64
  registers : s.spu.registers.size < 2 ^ 64

theorem Writable.faithful {s : Snapshot} (h : s.Writable) : Faithful s := by
  intro buffer
  exact
    (faithful_word s.version buffer).bind <|
    (faithful_timestamp h.timestamp h.time _).bind <|
    (faithful_double s.cycles _).bind <|
    (faithful_cpu s.cpu _).bind <|
    (faithful_array h.regions (fun bytes hb => faithful_bytes (h.region bytes hb)) _).bind <|
    (faithful_word s.cacheControl _).bind <|
    (faithful_interrupt s.interrupt _).bind <|
    (faithful_dma s.dma _).bind <|
    (faithful_timers s.timers _).bind <|
    (faithful_gpu h.queue _).bind <|
    (faithful_spu h.registers _).finish rfl

/-- A written snapshot is read back, unless its version is not the current one. -/
theorem decode_encode {s : Snapshot} (h : s.Writable) (rest : ByteArray) :
    decode (s.encode ++ rest) = s.checkVersion.map fun _ => s := by
  -- A file is read from position zero, with nothing in front of it.
  obtain ⟨written, hw, hr⟩ := h.faithful .empty
  have hfound := hr.found .empty rest
  rw [← hw, ByteArray.size_empty] at hfound
  rw [decode, encode, hfound]
  change (s.checkVersion >>= fun _ => pure s) = s.checkVersion.map fun _ => s
  cases s.checkVersion <;> rfl

/-! ## Files -/

/-- A file that ends before the snapshot does is refused, whatever its version. -/
theorem decode_extract {s : Snapshot} (h : s.Writable) {n : Nat} (hn : n < s.encode.size) :
    decode (s.encode.extract 0 n) = .error .saveStateDecode := by
  obtain ⟨written, hw, hr⟩ := h.faithful .empty
  rw [ByteArray.empty_append] at hw
  have hshort : n < written.size := by
    rw [← hw]
    exact hn
  have hrefused := hr.refused .empty n hshort
  rw [ByteArray.empty_append, ByteArray.size_empty] at hrefused
  rw [decode, encode, hw, hrefused]

/-- A file of the current version is read back, with anything behind it and
with nothing left out; a file of another version is refused by that version. -/
theorem file_roundTrip {s : Snapshot} (h : s.Writable) :
    (s.version = currentVersion →
        decode s.encode = .ok s ∧ ∀ rest, decode (s.encode ++ rest) = .ok s) ∧
      (∀ n < s.encode.size, decode (s.encode.extract 0 n) = .error .saveStateDecode) ∧
      (s.version ≠ currentVersion →
        decode s.encode = .error (.saveStateVersion currentVersion s.version)) := by
  have hwhole := decode_encode h .empty
  rw [ByteArray.append_empty] at hwhole
  refine ⟨?_, ?_, ?_⟩
  · intro hv
    have hcheck : s.checkVersion = .ok () := if_pos hv
    refine ⟨?_, ?_⟩
    · rw [hwhole, hcheck]
      rfl
    · intro rest
      rw [decode_encode h rest, hcheck]
      rfl
  · intro n hn
    exact decode_extract h hn
  · intro hv
    have hcheck : s.checkVersion = .error (.saveStateVersion currentVersion s.version) := if_neg hv
    rw [hwhole, hcheck]
    rfl

/-- Numbers and lengths on both sides of where their written form grows. -/
def boundary (version : UInt32) : Snapshot where
  version
  timestamp := ⟨86399, 1⟩
  cycles := 0x100000000
  cpu := .reset
  regions := #[.empty, Bank.zeros 7, Bank.zeros 8]
  cacheControl := 0xFFFFFFFF
  interrupt := { status := 250, mask := 251 }
  dma := { interrupt := 0xFFFF, spare := #v[0x10000, 0xFF] }
  timers := {}
  gpu := { queue := #[250, 251, 0xFFFF, 0x10000] }
  spu := ⟨#[250, 251, 0xFFFF]⟩

theorem writable_boundary (version : UInt32) : (boundary version).Writable where
  timestamp := (by decide +kernel : (Timestamp.render ⟨86399, 1⟩).toUTF8.size < 2 ^ 64)
  time := (by decide +kernel :
    Timestamp.parse? (Timestamp.render ⟨86399, 1⟩) = some ⟨86399, 1⟩)
  regions := (by decide : 3 < 2 ^ 64)
  region := by
    simp only [boundary, List.mem_toArray, List.forall_mem_cons, Bank.size_zeros]
    exact ⟨by decide, by decide, by decide, nofun⟩
  queue := (by decide : 4 < 2 ^ 64)
  registers := (by decide : 3 < 2 ^ 64)

/-- Read back with a byte behind it, refused without its last byte, and refused
as version 2. -/
theorem file_roundTrip_boundary :
    (boundary 1).Writable ∧ (boundary 2).Writable ∧
      decode (boundary 1).encode = .ok (boundary 1) ∧
      decode ((boundary 1).encode ++ [0xFF].toByteArray) = .ok (boundary 1) ∧
      (∀ n < (boundary 1).encode.size,
        decode ((boundary 1).encode.extract 0 n) = .error .saveStateDecode) ∧
      decode (boundary 2).encode = .error (.saveStateVersion 1 2) := by
  obtain ⟨hread, hcut, -⟩ := file_roundTrip (writable_boundary 1)
  obtain ⟨-, -, hother⟩ := file_roundTrip (writable_boundary 2)
  obtain ⟨hwhole, hbehind⟩ := hread rfl
  exact ⟨writable_boundary 1, writable_boundary 2, hwhole, hbehind _, hcut, hother (by decide)⟩

/-! ## Captured snapshots -/

section

variable {c : Cpu} {b : Bus} {cycles : UInt64} {timestamp : Timestamp}

theorem writable_capture (ht : timestamp.render.toUTF8.size < 2 ^ 64)
    (hp : Timestamp.parse? timestamp.render = some timestamp)
    (hq : b.gpu.queue.size < 2 ^ 64) (hr : b.spu.registers.size < 2 ^ 64) :
    (capture c b cycles timestamp).Writable where
  timestamp := ht
  time := hp
  regions := by simp [capture, Region.all]
  region bytes hb := by
    obtain ⟨r, -, rfl⟩ := List.mem_map.mp (List.mem_toArray.mp hb)
    unfold regionBytes
    split
    · decide
    · rw [Bank.size_eq]
      cases r <;> decide
  queue := hq
  registers := hr

/-- The file of a captured snapshot is read back. -/
theorem decode_encode_capture (h : (capture c b cycles timestamp).Writable) :
    decode (capture c b cycles timestamp).encode = .ok (capture c b cycles timestamp) := by
  have hv : (capture c b cycles timestamp).checkVersion = .ok () := if_pos rfl
  have hd := decode_encode h .empty
  rw [ByteArray.append_empty, hv] at hd
  exact hd

end

end Snapshot

end R3000
