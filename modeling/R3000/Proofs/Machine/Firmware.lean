import R3000.Proofs.Machine.Request
import R3000.Proofs.Memory.Bulk

/-!
# The BIOS is read-only

Programs store to any address, and a host writes to RAM in bulk, restores
snapshots, resets and steps. Of all this only the installation of an image
writes to the bank of the BIOS, so snapshots may leave it out.
-/

namespace R3000

/-! ## The bus -/

namespace Bus

/-- Accesses leave the BIOS alone. -/
theorem stable_bios (bios : Bank Region.bios.size) : Stable (·.memory.bios = bios) where
  read b t w h := by
    cases t with
    | device p offset => cases p <;> exact h
    | _ => exact h
  write b t w value h := by
    cases t with
    | device p offset => cases p <;> exact h
    -- A write to the BIOS is dropped, and one to another region has its own bank.
    | cell r offset => cases r <;> exact h
    | _ => exact h

theorem bios_copyToRam (b : Bus) (address : UInt32) (data : ByteArray) :
    (b.copyToRam address data).memory.bios = b.memory.bios :=
  b.memory.bank_copy_other (r := .bios) _ (by decide) data

theorem bios_fillRam (b : Bus) (address count : UInt32) (value : UInt8) :
    (b.fillRam address count value).memory.bios = b.memory.bios :=
  b.memory.bank_fill_other (r := .bios) _ (by decide) _ value

end Bus

namespace Machine

/-! ## One request -/

theorem kept_bios (bios : Bank Region.bios.size) : Kept (·.memory.bios = bios) where
  toStable := Bus.stable_bios bios
  isolate _ _ h := h
  tick _ h := h
  copyToRam b address data h := (b.bios_copyToRam address data).trans h
  fillRam b address count value h := (b.bios_fillRam address count value).trans h
  completeDma _ _ h := h
  takeTriggered _ h := h
  drainQueue _ h := h

/-- An operation leaves the BIOS alone, unless it installs an image and succeeds. -/
theorem bios_perform (m : Machine) (operation : Operation)
    (h : ∀ image, operation = .loadBios image → (m.perform operation).fault ≠ none) :
    (m.perform operation).machine.bus.memory.bios = m.bus.memory.bios := by
  -- Neither a reset nor a snapshot brings a BIOS of its own.
  refine (kept_bios m.bus.memory.bios).perform operation rfl (fun _ => rfl) ?_ (fun _ _ => rfl)
  rintro image b rfl hb
  have hfault : (m.perform (.loadBios image)).fault = none := by
    simp only [perform, loadBios, hb]
    rfl
  exact absurd hfault (h image rfl)

variable {α : Type}

/-- An image of another size than the BIOS is refused. -/
theorem answer_loadBios (m : Machine) {image : ByteArray} (h : image.size ≠ Region.bios.size) :
    m.answer (.operation (.loadBios image)) =
      (.failed (.invalidBiosSize Region.bios.size image.size) : Answer α) := by
  have hload : m.loadBios image = .error (.invalidBiosSize Region.bios.size image.size) := by
    rw [loadBios, Bus.loadBios, Bank.ofBytes?, dif_neg h]
    rfl
  simp only [answer, perform, hload, Option.elim]

/-- A request that does not install an image leaves the BIOS alone. -/
theorem bios_serve (m : Machine) (r : Request α)
    (h : ∀ image, r = .operation (.loadBios image) → ∃ e, m.answer r = .failed e) :
    (m.serve r).bus.memory.bios = m.bus.memory.bios := by
  cases r with
  | byHand f => rfl
  | operation o =>
    refine m.bios_perform o fun image ho hfault => ?_
    subst ho
    obtain ⟨e, he⟩ := h image rfl
    rw [answer, hfault] at he
    nomatch he

/-! ## Any number of requests -/

/-- Requests of which none installs an image leave the BIOS as it was. -/
theorem bios_serveAll (m : Machine) (requests : List (Request α))
    (h : ∀ image answer, (.operation (.loadBios image), answer) ∈ m.transcript requests →
      ∃ e, answer = .failed e) :
    (m.serveAll requests).bus.memory.bios = m.bus.memory.bios := by
  induction requests generalizing m with
  | nil => rfl
  | cons r requests ih =>
    have hfirst : (m.serve r).bus.memory.bios = m.bus.memory.bios := by
      refine m.bios_serve r fun image hr => ?_
      exact h image (m.answer r) (hr ▸ List.mem_cons_self)
    have hrest := ih (m.serve r) fun image answer hmem =>
      h image answer (List.mem_cons_of_mem _ hmem)
    exact hrest.trans hfirst

/-- A machine that was just switched on, with a BIOS. -/
def booting (bios : Bank Region.bios.size) : Machine :=
  { bus := { memory := { Memory.blank with bios } } }

/-- Stores to the BIOS and to an alias of it, a fill at its address, an image
that is too short, a snapshot with something in its place, a reset and steps. -/
def attempts (m : Machine) : List (Request Unit) :=
  [.operation (.busStore .word 0xBFC00000 0xFFFFFFFF),
    .operation (.busStore .byte 0x9FC80001 0xFF),
    .operation (.fillRam 0x1FC00000 16 0xFF),
    .operation (.loadBios ⟨#[1, 2, 3]⟩),
    .operation (.restore { m.save ⟨0, 0⟩ with
      regions := (m.save ⟨0, 0⟩).regions.set! Region.bios.index ⟨#[1, 2, 3]⟩ }),
    .operation .reset,
    .operation (.steps 10)]

/-- The attempts on a machine with a BIOS that begins with a byte other than zero. -/
theorem bios_serveAll_attempts :
    ∃ bios m, bios = (Bank.blank 19).set 0 0x3C ∧ m = booting bios ∧
      (∀ image answer, (.operation (.loadBios image), answer) ∈ m.transcript m.attempts →
        ∃ e, answer = .failed e) ∧
      (m.serveAll m.attempts).bus.memory.bios = bios := by
  -- The BIOS stays a variable, so that no memory is computed.
  have h (bios : Bank Region.bios.size) (image : ByteArray) (answer : Answer Unit)
      (hmem : (.operation (.loadBios image), answer) ∈
        (booting bios).transcript (booting bios).attempts) :
      ∃ e, answer = .failed e := by
    simp only [attempts, transcript, List.mem_cons, List.not_mem_nil, Prod.mk.injEq,
      Request.operation.injEq, Operation.loadBios.injEq, reduceCtorEq, false_and, or_self,
      or_false, false_or] at hmem
    obtain ⟨rfl, rfl⟩ := hmem
    exact ⟨_, answer_loadBios _ (by decide)⟩
  have hbios (bios : Bank Region.bios.size) :
      ((booting bios).serveAll (booting bios).attempts).bus.memory.bios = bios :=
    bios_serveAll (booting bios) _ (h bios)
  exact ⟨_, _, rfl, rfl, h _, hbios _⟩

end Machine

end R3000
