import R3000.Cpu.Trace
import R3000.Proofs.Cpu.Disassembly
import R3000.Proofs.Cpu.State
import R3000.Proofs.Text

/-!
# What a trace says

A line gives back the instruction that it is about and every general register, where register
zero holds zero: a register that is left out holds zero too. Address, word and values have a
fixed count of digits, and the assembly text follows from address and word, so a line also
shows where it ends, and the lines of a trace are found again one after another.
-/

namespace R3000

/-- The processors carried out the same word at the same address and hold the same in every
general register. -/
structure Cpu.Alike (c c' : Cpu) : Prop where
  currentPc : c.currentPc = c'.currentPc
  currentInstruction : c.currentInstruction = c'.currentInstruction
  reg : ∀ r, c.reg r = c'.reg r

namespace Trace

open Text

variable {c c' : Cpu} {s t : String}

/-! ## Registers -/

/-- Registers with their values. -/
def fields (c : Cpu) (shown : List RegisterIndex) : List (RegisterIndex × UInt32) :=
  shown.map fun r => (r, c.reg r)

/-- How a register is shown with its value. -/
def fieldText (field : RegisterIndex × UInt32) : String :=
  " " ++ field.1.name ++ "=" ++ Hex.fixed 8 field.2.toNat

/-- A register and its value are found again before whatever follows them. -/
theorem fieldText_inj {field field' : RegisterIndex × UInt32}
    (h : fieldText field ++ s = fieldText field' ++ t) : field = field' ∧ s = t := by
  have hparts (field : RegisterIndex × UInt32) (s : String) : fieldText field ++ s =
      " " ++ field.1.name ++ "=" ++ (Hex.fixed 8 field.2.toNat ++ s) :=
    String.append_assoc
  have hequals : ∀ r : RegisterIndex, '=' ∉ (" " ++ r.name).toList := by decide
  have hlength (n : Nat) : (Hex.fixed 8 n).toList.length = 8 := by
    rw [Hex.fixed, String.toList_ofList, Hex.length_digits]
  rw [hparts, hparts] at h
  obtain ⟨hname, hvalue⟩ := divided_inj (by rfl) (hequals _) (hequals _) h
  obtain ⟨hdigits, hbehind⟩ :=
    append_inj_of_length ((hlength _).trans (hlength _).symm) hvalue
  rw [String.append_right_inj, RegisterIndex.name_inj] at hname
  rw [Hex.fixed_inj field.2.toNat_lt field'.2.toNat_lt, UInt32.toNat_inj] at hdigits
  exact ⟨Prod.ext hname hdigits, hbehind⟩

/-- The registers of a line are found again up to its end. -/
theorem fields_inj {shown shown' : List (RegisterIndex × UInt32)}
    (h : String.join (shown.map fieldText) ++ ("\n" ++ s) =
      String.join (shown'.map fieldText) ++ ("\n" ++ t)) : shown = shown' ∧ s = t := by
  have hblank (field : RegisterIndex × UInt32) (s : String) :
      (fieldText field ++ s).toList.head? ≠ some '\n' := by
    simp [fieldText]
  have hnewline (s : String) : ("\n" ++ s).toList.head? = some '\n' := by
    simp
  obtain ⟨hshown, hbehind⟩ := join_inj (P := (·.toList.head? = some '\n')) hblank
    (fun _ _ _ _ _ _ => fieldText_inj) (hnewline s) (hnewline t) h
  rw [List.forall₂_eq_eq_eq] at hshown
  exact ⟨hshown, (String.append_right_inj _).mp hbehind⟩

theorem mem_fields_nonzero {r : RegisterIndex} {value : UInt32} :
    (r, value) ∈ fields c (nonzero c) ↔ (r ≠ 0 ∧ c.reg r ≠ 0) ∧ c.reg r = value := by
  simp [fields, nonzero]

/-- The registers that are not zero tell what the others hold. -/
theorem reg_of_fields (h : fields c (nonzero c) = fields c' (nonzero c')) {r : RegisterIndex}
    (hr : r ≠ 0) : c.reg r = c'.reg r := by
  have hshown {d d' : Cpu} (h : fields d (nonzero d) = fields d' (nonzero d'))
      (hd : d.reg r ≠ 0) : d'.reg r = d.reg r := by
    have hmem : (r, d.reg r) ∈ fields d (nonzero d) := mem_fields_nonzero.mpr ⟨⟨hr, hd⟩, rfl⟩
    rw [h] at hmem
    exact (mem_fields_nonzero.mp hmem).2
  -- What neither shows is zero in both.
  by_cases hzero : c.reg r = 0
  · by_cases hzero' : c'.reg r = 0
    · rw [hzero, hzero']
    · exact hshown h.symm hzero'
  · exact (hshown h hzero).symm

/-! ## Lines -/

theorem lineOf_eq (c : Cpu) (shown : List RegisterIndex) :
    lineOf c shown = instructionText c ++ String.join ((fields c shown).map fieldText) := by
  rw [fields, List.map_map]
  rfl

/-- A line gives back the instruction and the registers that it shows, and what follows it. -/
theorem lineOf_inj {shown shown' : List RegisterIndex}
    (h : lineOf c shown ++ "\n" ++ s = lineOf c' shown' ++ "\n" ++ t) :
    c.currentPc = c'.currentPc ∧ c.currentInstruction = c'.currentInstruction ∧
      fields c shown = fields c' shown' ∧ s = t := by
  have hlength (v w : UInt32) : (Hex.word v).toList.length = (Hex.word w).toList.length := by
    rw [Hex.length_word, Hex.length_word]
  simp only [lineOf_eq, instructionText, String.append_assoc] at h
  obtain ⟨hpc, h⟩ := append_inj_of_length (hlength _ _) h
  obtain ⟨hword, h⟩ := append_inj_of_length (hlength _ _) ((String.append_right_inj _).mp h)
  rw [Hex.word_inj] at hpc hword
  -- The assembly text has no fixed length, but it follows from what was found before it.
  rw [hpc, hword] at h
  simp only [String.append_right_inj] at h
  exact ⟨hpc, hword, fields_inj h⟩

/-- A line gives back the instruction and all registers, and what follows it. -/
theorem line_inj (hc : c.ZeroFixed) (hc' : c'.ZeroFixed)
    (h : line c ++ "\n" ++ s = line c' ++ "\n" ++ t) : c.Alike c' ∧ s = t := by
  obtain ⟨hpc, hword, hfields, hbehind⟩ := lineOf_inj h
  refine ⟨⟨hpc, hword, fun r => ?_⟩, hbehind⟩
  by_cases hr : r = 0
  · rw [hr]
    exact hc.trans hc'.symm
  · exact reg_of_fields hfields hr

/-- Lines one after another give back the instructions and the registers at each of them. -/
theorem lines_inj {cs cs' : List Cpu} (hcs : ∀ c ∈ cs, c.ZeroFixed)
    (hcs' : ∀ c ∈ cs', c.ZeroFixed)
    (h : String.join (cs.map (line · ++ "\n")) = String.join (cs'.map (line · ++ "\n"))) :
    List.Forall₂ Cpu.Alike cs cs' := by
  have hline (c : Cpu) (s : String) : line c ++ "\n" ++ s ≠ "" := by
    simp [String.append_eq_empty_iff]
  have hempty : String.join (cs.map (line · ++ "\n")) ++ "" =
      String.join (cs'.map (line · ++ "\n")) ++ "" := by rw [h]
  exact (join_inj (P := (· = "")) hline
    (fun c hc c' hc' _ _ => line_inj (hcs c hc) (hcs' c' hc')) rfl rfl hempty).1

end Trace

/-! ## Traces -/

namespace Tracer

variable {t : Tracer} {c : Cpu}

/-- A trace as text, with a line for each instruction. -/
def text (t : Tracer) : String :=
  String.join (t.lines.toList.map (· ++ "\n"))

/-- The trace is being written, and its medium takes the next line. -/
def takes (t : Tracer) : Bool :=
  t.enabled && (t.refusal? t.given).isNone

/-- Tracing the instruction that left the processor `c` writes `line`. -/
def Writes (t : Tracer) (c : Cpu) (line : String) : Prop :=
  (t.trace c).2.lines = t.lines.push line

/-- Trace instructions one after another, each by the processor that it left. -/
def traceAll (t : Tracer) (cs : List Cpu) : Tracer :=
  cs.foldl (fun t c => (t.trace c).2) t

/-- Those of the processors whose line is taken. -/
def taken (t : Tracer) : List Cpu → List Cpu
  | [] => []
  | c :: cs => if t.takes then c :: (t.trace c).2.taken cs else (t.trace c).2.taken cs

theorem mem_of_mem_taken {t : Tracer} {cs : List Cpu} (h : c ∈ t.taken cs) : c ∈ cs := by
  induction cs generalizing t with
  | nil => exact h
  | cons first cs ih =>
    rw [taken] at h
    split at h
    · rcases List.mem_cons.mp h with rfl | h
      · exact List.mem_cons_self
      · exact List.mem_cons_of_mem _ (ih h)
    · exact List.mem_cons_of_mem _ (ih h)

theorem lines_trace (t : Tracer) (c : Cpu) :
    (t.trace c).2.lines = if t.takes then t.lines.push (Trace.line c) else t.lines := by
  cases he : t.enabled with
  | false => simp [trace, takes, he]
  | true =>
    cases hr : t.refusal? t.given with
    | none | some e => simp [trace, push, takes, he, hr]

/-- The only line that is ever written about an instruction is its own. -/
theorem Writes.eq_line {line : String} (h : t.Writes c line) : line = Trace.line c := by
  rw [Writes, lines_trace] at h
  split at h
  · exact (Array.push_eq_push.mp h).1.symm
  · have hsize := congrArg Array.size h
    simp at hsize

theorem lines_traceAll (t : Tracer) (cs : List Cpu) :
    (t.traceAll cs).lines.toList = t.lines.toList ++ (t.taken cs).map Trace.line := by
  induction cs generalizing t with
  | nil => simp [traceAll, taken]
  | cons c cs ih =>
    have hrest := ih (t.trace c).2
    rw [lines_trace] at hrest
    rw [traceAll, List.foldl_cons, ← traceAll, hrest, taken]
    split <;> simp

/-- A trace that begins empty is the lines that were taken. -/
theorem text_traceAll (ht : t.lines = #[]) (cs : List Cpu) :
    (t.traceAll cs).text = String.join ((t.taken cs).map (Trace.line · ++ "\n")) := by
  rw [text, lines_traceAll, ht, List.nil_append, List.map_map]
  rfl

end Tracer

end R3000
