import Mathlib.Data.List.Basic
import R3000.Proofs.Device.InPlace
import R3000.Proofs.Machine.Operation
import R3000.Proofs.Memory.Region

/-!
# Restoring in place

A machine takes a snapshot over part by part: the content of each region, the
registers of each device, the processor. Here restoring is that sequence of
checks and writes. What was written before it stops stays written, and copying
content of another size over a region ends the program. It comes to what
`Machine.restore` gives, where all parts change at once: every check comes before
the first write, and what passes them can be copied.
-/

namespace R3000

/-! ## Loops -/

section

variable {ε σ α : Type} {f : α → EStateM ε σ Unit}

/-- A loop whose body never stops does the body's work for each element in turn. -/
theorem forM_of_ok {w : σ → α → σ} {xs : List α} (h : ∀ x ∈ xs, ∀ s, f x s = .ok () (w s x))
    (s : σ) : xs.forM f s = .ok () (xs.foldl w s) := by
  induction xs generalizing s with
  | nil => rfl
  | cons x xs ih =>
    obtain ⟨hfirst, hrest⟩ := List.forall_mem_cons.mp h
    exact (bind_of_ok _ (hfirst s)).trans (ih hrest _)

theorem forM_modify (fs : List (σ → σ)) (s : σ) :
    fs.forM (modify : (σ → σ) → EStateM ε σ Unit) s = .ok () (fs.foldl (fun s f => f s) s) :=
  forM_of_ok (fun _ _ _ => rfl) s

/-- A loop whose body only looks changes nothing. -/
theorem forM_of_kept {xs : List α} (h : ∀ x ∈ xs, ∀ s, f x s = .ok () s) (s : σ) :
    xs.forM f s = .ok () s := by
  rw [forM_of_ok (w := fun s _ => s) h, List.foldl_fixed]

/-- A loop stops with the first element at which its body does. -/
theorem forM_of_error {before after : List α} {x : α} {s : σ} {e : ε}
    (hbefore : ∀ y ∈ before, ∀ s, f y s = .ok () s) (hx : f x s = .error e s) :
    (before ++ x :: after).forM f s = .error e s := by
  have happend : (before ++ x :: after).forM f =
      before.forM f >>= fun _ => (x :: after).forM f := List.forM_append
  rw [happend, bind_of_ok _ (forM_of_kept hbefore s)]
  exact bind_of_error _ hx

end

/-! ## Snapshots that fit -/

namespace Snapshot

/-- The snapshot fits a machine: it has the current version and content of the right
size for every region but the BIOS. -/
structure Fits (s : Snapshot) : Prop where
  version : s.version = currentVersion
  count : s.regions.size = 7
  sizes : ∀ (r : Region) (bytes : ByteArray), r ≠ .bios → s.regions[r.index]? = some bytes →
    bytes.size = r.size

/-- With which error a snapshot is refused: the version counts before the number of
regions, and that before the first region of another size. -/
inductive Misfit (s : Snapshot) : Error → Prop where
  | version (h : s.version ≠ currentVersion) :
      s.Misfit (.saveStateVersion currentVersion s.version)
  | count (hv : s.version = currentVersion) (h : s.regions.size ≠ 7) :
      s.Misfit (.invalidSaveState (Mismatch.regionCount s.regions.size).describe)
  | size (hv : s.version = currentVersion) (hc : s.regions.size = 7) {r : Region}
      {bytes : ByteArray} (hr : r ≠ .bios) (hbytes : s.regions[r.index]? = some bytes)
      (h : bytes.size ≠ r.size)
      (hfirst : ∀ (q : Region) (bytes : ByteArray), q.index < r.index →
        s.regions[q.index]? = some bytes → bytes.size = q.size) :
      s.Misfit (.invalidSaveState (Mismatch.regionSize r bytes.size).describe)

/-- The regions, each with the content that the snapshot has for it. -/
def slices (s : Snapshot) : List (Region × ByteArray) :=
  Region.all.zip s.regions.toList

/-- What is wrong with the content for a region. -/
def wrongSize? : Region × ByteArray → Option Mismatch
  | (r, bytes) => if r ≠ .bios ∧ bytes.size ≠ r.size then some (.regionSize r bytes.size) else none

theorem wrongSize_eq_none {r : Region} {bytes : ByteArray} :
    wrongSize? (r, bytes) = none ↔ (r ≠ .bios → bytes.size = r.size) := by
  rw [wrongSize?, ite_eq_right_iff]
  simp

theorem wrongSize_eq_some {r : Region} {bytes : ByteArray} {x : Mismatch} :
    wrongSize? (r, bytes) = some x ↔
      (r ≠ .bios ∧ bytes.size ≠ r.size) ∧ x = .regionSize r bytes.size := by
  rw [wrongSize?, Option.ite_none_right_eq_some, Option.some_inj, eq_comm (a := x)]

variable {s : Snapshot}

theorem getElem?_slices {i : Nat} {r : Region} {bytes : ByteArray} :
    s.slices[i]? = some (r, bytes) ↔ i = r.index ∧ s.regions[i]? = some bytes := by
  rw [slices, List.getElem?_zip_eq_some, Region.getElem?_all, Array.getElem?_toList]

theorem slices_eq (h : s.regions.size = 7) :
    s.slices = Region.all.map fun r => (r, s.regions.getD r.index ByteArray.empty) := by
  rw [slices]
  match s.regions, h with
  | ⟨[_, _, _, _, _, _, _]⟩, _ => rfl

theorem misfit_eq (h : s.regions.size = 7) : s.misfit? = s.slices.findSome? wrongSize? := by
  rw [misfit?, if_neg fun hn => hn h, slices_eq h, List.findSome?_map]
  rfl

/-- No content has the wrong size exactly if all sizes are right. -/
theorem findSome_wrongSize_eq_none :
    s.slices.findSome? wrongSize? = none ↔
      ∀ (r : Region) (bytes : ByteArray), r ≠ .bios → s.regions[r.index]? = some bytes →
        bytes.size = r.size := by
  rw [List.findSome?_eq_none_iff]
  constructor
  · intro h r bytes hr hbytes
    have hmem : (r, bytes) ∈ s.slices :=
      List.mem_of_getElem? (getElem?_slices.mpr ⟨rfl, hbytes⟩)
    exact wrongSize_eq_none.mp (h _ hmem) hr
  · rintro h ⟨r, bytes⟩ hmem
    obtain ⟨i, hi⟩ := List.getElem?_of_mem hmem
    obtain ⟨rfl, hbytes⟩ := getElem?_slices.mp hi
    exact wrongSize_eq_none.mpr fun hr => h r bytes hr hbytes

/-- The content that is found to be wrong is the first of the wrong size. -/
theorem misfit_of_findSome (hv : s.version = currentVersion) (hc : s.regions.size = 7)
    {x : Mismatch} (h : s.slices.findSome? wrongSize? = some x) :
    s.Misfit (.invalidSaveState x.describe) := by
  obtain ⟨before, ⟨r, bytes⟩, after, hslices, hx, hbefore⟩ := List.findSome?_eq_some_iff.mp h
  obtain ⟨⟨hr, hsize⟩, rfl⟩ := wrongSize_eq_some.mp hx
  have hat : s.slices[before.length]? = some (r, bytes) := by
    rw [hslices, List.getElem?_append_right (Nat.le_refl _), Nat.sub_self]
    rfl
  obtain ⟨hlength, hbytes⟩ := getElem?_slices.mp hat
  refine .size hv hc hr (hlength ▸ hbytes) hsize fun q bytes' hq hbytes' => ?_
  have hmem : (q, bytes') ∈ before := by
    have hq' : s.slices[q.index]? = some (q, bytes') := getElem?_slices.mpr ⟨rfl, hbytes'⟩
    rw [hslices, List.getElem?_append_left (hlength ▸ hq)] at hq'
    exact List.mem_of_getElem? hq'
  -- The BIOS comes last, so it is not before any other region.
  have hbios : q ≠ .bios := by
    rintro rfl
    exact absurd hq (by cases r <;> decide)
  exact wrongSize_eq_none.mp (hbefore _ hmem) hbios

theorem Fits.check (h : s.Fits) : s.check = .ok () := by
  have hfit : s.misfit? = none := by
    rw [misfit_eq h.count]
    exact findSome_wrongSize_eq_none.mpr h.sizes
  rw [Snapshot.check, checkVersion, if_pos h.version, hfit]
  rfl

end Snapshot

/-! ## Restoring part by part -/

/-- Why restoring stops. -/
inductive Stop where
  | refused (e : Error)
  /-- Content was to be copied over a region of another size. -/
  | sizesDiffer (r : Region)

namespace Machine

/-- The machine with content copied over a region. -/
def copyOver (m : Machine) : Region × ByteArray → Machine
  | (r, bytes) =>
    { m with
      bus.memory := m.bus.memory.modify r fun old => (Bank.ofBytes? _ bytes).getD old }

/-- Stop if the content for a region has the wrong size. -/
def checkInPlace (slice : Region × ByteArray) : EStateM Stop Machine Unit :=
  match Snapshot.wrongSize? slice with
  | some x => throw (.refused (.invalidSaveState x.describe))
  | none => pure ()

/-- Copy the content for a region; that of the BIOS is left alone. -/
def copyInPlace (slice : Region × ByteArray) : EStateM Stop Machine Unit :=
  if slice.1 = .bios then pure ()
  else if slice.2.size = slice.1.size then modify (copyOver · slice)
  else throw (.sizesDiffer slice.1)

/-- The writes that follow the content of the regions. -/
def writes (s : Snapshot) : List (Machine → Machine) :=
  [fun m => { m with bus.cacheControl := s.cacheControl },
    fun m => { m with bus.interrupt := s.interrupt },
    fun m => { m with bus.dma := s.dma },
    fun m => { m with bus.timers := s.timers },
    fun m => { m with bus.gpu := s.gpu },
    fun m => { m with bus.spu := s.spu },
    fun m => { m with cpu.registers := s.restoredCpu.registers },
    fun m => { m with cpu.pc := s.cpu.pc },
    fun m => { m with cpu.nextPc := s.cpu.nextPc },
    fun m => { m with cpu.currentPc := s.cpu.currentPc },
    fun m => { m with cpu.currentInstruction := s.cpu.currentInstruction },
    fun m => { m with cpu.hi := s.cpu.hi },
    fun m => { m with cpu.lo := s.cpu.lo },
    fun m => { m with cpu.cop0 := s.cpu.cop0 },
    fun m => { m with bus := m.bus.setIsolated (Status.isolates m.cpu.cop0.status) },
    fun m => { m with cycles := s.cycles }]

/-- Restore a snapshot part by part. -/
def restoreInPlace (s : Snapshot) : EStateM Stop Machine Unit :=
  if s.version ≠ Snapshot.currentVersion then
    throw (.refused (.saveStateVersion Snapshot.currentVersion s.version))
  else if s.regions.size ≠ Region.all.length then
    throw (.refused (.invalidSaveState (Snapshot.Mismatch.regionCount s.regions.size).describe))
  else do
    s.slices.forM checkInPlace
    s.slices.forM copyInPlace
    (writes s).forM modify

section

variable {slice : Region × ByteArray}

theorem checkInPlace_of_none (h : Snapshot.wrongSize? slice = none) (m : Machine) :
    checkInPlace slice m = .ok () m := by
  rw [checkInPlace, h]
  rfl

theorem checkInPlace_of_some {x : Snapshot.Mismatch} (h : Snapshot.wrongSize? slice = some x)
    (m : Machine) : checkInPlace slice m = .error (.refused (.invalidSaveState x.describe)) m := by
  rw [checkInPlace, h]
  rfl

/-- Content that passed the check can be copied. -/
theorem copyInPlace_of_none (h : Snapshot.wrongSize? slice = none) (m : Machine) :
    copyInPlace slice m = .ok () (if slice.1 = .bios then m else m.copyOver slice) := by
  rw [copyInPlace]
  split
  · rfl
  · rename_i hbios
    rw [if_pos (Snapshot.wrongSize_eq_none.mp h hbios)]
    rfl

end

/-- The machine with everything that a snapshot keeps taken from it. -/
def taking (m : Machine) (s : Snapshot) : Machine :=
  { m with cpu := s.restoredCpu, bus := s.restoredBus m.bus, cycles := s.cycles }

variable {s : Snapshot}

theorem foldl_copyOver (hc : s.regions.size = 7) (m : Machine) :
    s.slices.foldl (fun m slice => if slice.1 = .bios then m else m.copyOver slice) m =
      { m with bus.memory := s.memory m.bus.memory } := by
  have hcontent (r : Region) (old : Bank r.size) : s.bankOr r old =
      (Bank.ofBytes? r.size (s.regions.getD r.index ByteArray.empty)).getD old := by
    have hr : r.index < s.regions.size := by
      rw [hc]
      cases r <;> decide
    rw [Snapshot.bankOr, Array.getD_eq_getD_getElem?, Array.getElem?_eq_getElem hr]
    rfl
  rw [Snapshot.slices_eq hc]
  simp only [Snapshot.memory, hcontent]
  -- Each copy is over a region of its own, so their order does not show.
  rfl

/-- The checks stop at the first content that is wrong. -/
theorem forM_checkInPlace_of_some {x : Snapshot.Mismatch}
    (hx : s.slices.findSome? Snapshot.wrongSize? = some x) (m : Machine) :
    s.slices.forM checkInPlace m = .error (.refused (.invalidSaveState x.describe)) m := by
  obtain ⟨before, slice, after, hslices, hslice, hbefore⟩ := List.findSome?_eq_some_iff.mp hx
  rw [hslices]
  exact forM_of_error (fun y hy => checkInPlace_of_none (hbefore y hy))
    (checkInPlace_of_some hslice m)

theorem restoreInPlace_eq (hv : s.version = Snapshot.currentVersion) (hc : s.regions.size = 7) :
    restoreInPlace s =
      (do s.slices.forM checkInPlace; s.slices.forM copyInPlace; (writes s).forM modify) := by
  rw [restoreInPlace, if_neg (not_not_intro hv), if_neg fun hn => hn hc]

/-- A snapshot that fits is taken over as a whole. -/
theorem restoreInPlace_of_fits (h : s.Fits) (m : Machine) :
    restoreInPlace s m = .ok () (m.taking s) := by
  have hnone := List.findSome?_eq_none_iff.mp (Snapshot.findSome_wrongSize_eq_none.mpr h.sizes)
  have hcheck := forM_of_kept (fun slice hs => checkInPlace_of_none (hnone slice hs)) m
  have hcopy := forM_of_ok (fun slice hs => copyInPlace_of_none (hnone slice hs)) m
  rw [foldl_copyOver h.count] at hcopy
  rw [restoreInPlace_eq h.version h.count, bind_of_ok _ hcheck, bind_of_ok _ hcopy]
  exact forM_modify (writes s) _

/-- A snapshot that does not fit is refused before anything is written. -/
theorem restoreInPlace_of_not_fits (h : ¬ s.Fits) (m : Machine) :
    ∃ e, s.Misfit e ∧ s.check = .error e ∧ restoreInPlace s m = .error (.refused e) m := by
  -- The cases go by the first check that stops; no write comes before any of them.
  by_cases hv : s.version = Snapshot.currentVersion
  · by_cases hc : s.regions.size = Region.all.length
    · cases hx : s.slices.findSome? Snapshot.wrongSize? with
      | none => exact absurd ⟨hv, hc, Snapshot.findSome_wrongSize_eq_none.mp hx⟩ h
      | some x =>
        refine ⟨_, Snapshot.misfit_of_findSome hv hc hx, ?_, ?_⟩
        · rw [Snapshot.check, Snapshot.checkVersion, if_pos hv, Snapshot.misfit_eq hc, hx]
          rfl
        · rw [restoreInPlace_eq hv hc]
          exact bind_of_error _ (forM_checkInPlace_of_some hx m)
    · refine ⟨_, .count hv hc, ?_, ?_⟩
      · rw [Snapshot.check, Snapshot.checkVersion, if_pos hv, Snapshot.misfit?, if_pos hc]
        rfl
      · rw [restoreInPlace, if_neg (not_not_intro hv), if_pos hc]
        rfl
  · refine ⟨_, .version hv, ?_, ?_⟩
    · rw [Snapshot.check, Snapshot.checkVersion, if_neg hv]
      rfl
    · rw [restoreInPlace, if_pos hv]
      rfl

/-- Restoring is all or nothing. A snapshot that fits is taken over as a whole; any other
is refused with its misfit, and the machine stays as it was. -/
theorem restore_all_or_nothing (m : Machine) (s : Snapshot) :
    (s.Fits ∧ restoreInPlace s m = .ok () (m.taking s) ∧ m.restore s = .ok (m.taking s)) ∨
      ¬ s.Fits ∧ ∃ e, s.Misfit e ∧ restoreInPlace s m = .error (.refused e) m ∧
        m.restore s = .error e := by
  by_cases h : s.Fits
  · refine .inl ⟨h, restoreInPlace_of_fits h m, ?_⟩
    rw [restore, h.check]
    rfl
  · obtain ⟨e, hmisfit, hcheck, hplace⟩ := restoreInPlace_of_not_fits h m
    refine .inr ⟨h, e, hmisfit, hplace, ?_⟩
    rw [restore, hcheck]

end Machine

end R3000
