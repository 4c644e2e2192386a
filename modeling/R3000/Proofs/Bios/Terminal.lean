import R3000.Machine

/-!
# Terminal output

Characters that a program writes are collected into lines. Whatever the tracer sees, and
whenever it is flushed or the machine is reset, the lines that were reported and the text
that waits are together what was written, in its order and without line feeds and carriage
returns.
-/

namespace R3000

namespace Bios

/-! ## What happens to a tracer -/

/-- What happens to a tracer: it looks at the processor, it is told to end its line, or the
machine around it is reset. -/
inductive Event where
  | observe (cpu : Cpu)
  | flush
  | reset

namespace Event

/-- The byte that an event writes to the terminal: the low byte of register 4, where the
processor is about to enter function 3C of the first table or 3D of the second. -/
def written? : Event → Option UInt8
  | observe cpu =>
    let entry := cpu.pc &&& 0x1FFFFFFF
    let function := (cpu.reg 9).toUInt8
    if entry = 0xA0 ∧ function = 0x3C ∨ entry = 0xB0 ∧ function = 0x3D then
      some (cpu.reg 4).toUInt8
    else none
  | flush | reset => none

/-- The byte that an event adds to the text. -/
def added? (e : Event) : Option UInt8 :=
  e.written?.filter fun byte => byte ≠ 10 ∧ byte ≠ 13

/-- The text that an event adds to the line. -/
def text (e : Event) : String :=
  match e.added? with
  | some byte => String.singleton (CallTracer.character byte)
  | none => ""

/-- The event asks for the end of the line. -/
def AsksEnd : Event → Prop
  | observe cpu => (observe cpu).written? = some 10
  | flush | reset => True

end Event

/-- The lines of terminal output among reports. -/
def lines (reports : List Report) : List String :=
  reports.filterMap fun
    | .line text => some text
    | .call _ => none

namespace CallTracer

/-- The reports of an event and the tracer after it. A reset of the machine flushes it. -/
def happen (t : CallTracer) : Event → List Report × CallTracer
  | .observe cpu => t.observe cpu
  | .flush | .reset => t.flush

/-- The reports of events, oldest first, and the tracer after them. -/
def happenAll (t : CallTracer) : List Event → List Report × CallTracer
  | [] => ([], t)
  | e :: events =>
    let (reports, t) := t.happen e
    let (more, t) := t.happenAll events
    (reports ++ more, t)

/-- The event ends the line: there is text on it and its end is asked for, or the text
reaches the limit with the character that is added. -/
def Ends (t : CallTracer) (e : Event) : Prop :=
  t.terminal ≠ "" ∧ e.AsksEnd ∨
    ∃ byte, e.added? = some byte ∧ 256 ≤ (t.terminal.push (character byte)).utf8ByteSize

/-! ## Characters -/

theorem toNat_character (byte : UInt8) : (character byte).toNat = byte.toNat := by
  have hlt := byte.toNat_lt
  have hvalid : byte.toNat.isValidChar := .inl (by omega)
  rw [character, Char.ofNat, dif_pos hvalid]
  rfl

/-- Bytes from 128 on take two bytes of text. -/
theorem utf8Size_character_le (byte : UInt8) : (character byte).utf8Size ≤ 2 := by
  have hlt := byte.toNat_lt
  have hval : (character byte).val.toNat = byte.toNat := toNat_character byte
  have hsmall : (character byte).val ≤ 0x7FF := by
    rw [UInt32.le_iff_toNat_le, hval]
    exact Nat.le_of_lt (Nat.lt_of_lt_of_le hlt (by decide))
  simp only [Char.utf8Size]
  split
  · decide
  · exact Nat.le_of_eq (if_pos hsmall)

/-! ## One event -/

/-- What comes of a line that `text` is added to: it is reported and nothing waits, or it
waits and nothing is reported. -/
structure Leaves (t : CallTracer) (text : String) (ended : Prop)
    (o : List Report × CallTracer) : Prop where
  reported : ended → lines o.1 = [t.terminal ++ text] ∧ o.2.terminal = ""
  waits : ¬ ended → lines o.1 = [] ∧ o.2.terminal = t.terminal ++ text

theorem Leaves.congr {t : CallTracer} {text : String} {p q : Prop}
    {o : List Report × CallTracer} (h : t.Leaves text p o) (hpq : p ↔ q) : t.Leaves text q o :=
  ⟨fun hq => h.reported (hpq.mpr hq), fun hq => h.waits (mt hpq.mp hq)⟩

/-- Nothing is added, and no line ends. -/
theorem leaves_kept (t : CallTracer) {reports : List Report} (h : lines reports = []) :
    t.Leaves "" False (reports, t) :=
  ⟨False.elim, fun _ => ⟨h, String.append_empty.symm⟩⟩

theorem leaves_flush (t : CallTracer) : t.Leaves "" (t.terminal ≠ "") t.flush := by
  rw [flush]
  by_cases h : t.terminal = ""
  · rw [if_pos (String.isEmpty_iff.mpr h)]
    exact (t.leaves_kept rfl).congr (iff_of_false not_false (not_not_intro h))
  · rw [if_neg (mt String.isEmpty_iff.mp h)]
    exact ⟨fun _ => ⟨congrArg (fun text => [text]) String.append_empty.symm, rfl⟩,
      fun hempty => absurd h hempty⟩

theorem leaves_push (t : CallTracer) (ch : Char) :
    t.Leaves (String.singleton ch) (256 ≤ (t.terminal.push ch).utf8ByteSize) (t.push ch) := by
  have hpushed : t.terminal ++ String.singleton ch = t.terminal.push ch := String.append_singleton
  have hne : t.terminal.push ch ≠ "" := fun h => by
    simpa using congrArg String.toList h
  have hflush := (leaves_flush { t with terminal := t.terminal.push ch }).reported hne
  rw [String.append_empty] at hflush
  have hlimit : lineLimit = 256 := rfl
  simp only [push, hlimit]
  constructor
  · intro hlong
    rw [hpushed, if_pos hlong]
    exact hflush
  · intro hshort
    rw [hpushed, if_neg hshort]
    exact ⟨rfl, rfl⟩

/-- A byte that is written is put, and any other call is reported. -/
theorem observe_eq (t : CallTracer) (cpu : Cpu) :
    t.observe cpu =
      (Event.observe cpu).written?.elim ((Call.ofCpu? cpu).toList.map Report.call, t)
        t.putchar := by
  simp only [observe, Event.written?, Call.ofCpu?, Table.ofAddress?, beq_iff_eq]
  by_cases ha : cpu.pc &&& 0x1FFFFFFF = 0xA0
  · by_cases hput : (cpu.reg 9).toUInt8 = 0x3C <;> simp [ha, hput, record, Call.isPutchar]
  · by_cases hb : cpu.pc &&& 0x1FFFFFFF = 0xB0
    · by_cases hput : (cpu.reg 9).toUInt8 = 0x3D <;> simp [hb, hput, record, Call.isPutchar]
    · by_cases hc : cpu.pc &&& 0x1FFFFFFF = 0xC0 <;> simp [ha, hb, hc, record, Call.isPutchar]

theorem leaves_putchar (t : CallTracer) {cpu : Cpu} {byte : UInt8}
    (h : (Event.observe cpu).written? = some byte) :
    t.Leaves (Event.observe cpu).text (t.Ends (.observe cpu)) (t.putchar byte) := by
  rw [Ends, Event.AsksEnd, Event.text, Event.added?, h]
  by_cases hfeed : byte = 10
  · subst hfeed
    exact t.leaves_flush.congr (by simp)
  · by_cases hreturn : byte = 13
    · subst hreturn
      exact (t.leaves_kept rfl).congr (by simp)
    · have hadded : (some byte).filter (fun b => decide (b ≠ 10 ∧ b ≠ 13)) = some byte := by
        simp [hfeed, hreturn]
      have hput : t.putchar byte = t.push (character byte) := by
        rw [putchar, if_neg (by simpa using hfeed), if_neg (by simpa using hreturn)]
      rw [hadded, hput]
      exact (t.leaves_push (character byte)).congr (by simp [hfeed])

theorem leaves_happen (t : CallTracer) (e : Event) :
    t.Leaves e.text (t.Ends e) (t.happen e) := by
  cases e with
  | flush | reset =>
    refine t.leaves_flush.congr ?_
    simp [Ends, Event.AsksEnd, Event.added?, Event.written?]
  | observe cpu =>
    rw [happen, observe_eq]
    cases hwritten : (Event.observe cpu).written? with
    | some byte => exact t.leaves_putchar hwritten
    | none =>
      -- The report of a call is no line, and leaves the line alone.
      have hlines : lines ((Call.ofCpu? cpu).toList.map Report.call) = [] := by
        cases Call.ofCpu? cpu <;> rfl
      rw [Ends, Event.AsksEnd, Event.text, Event.added?, hwritten]
      exact (t.leaves_kept hlines).congr (by simp)

/-! ## Any number of events -/

variable {t : CallTracer}

theorem Leaves.kept {text : String} {ended : Prop} {o : List Report × CallTracer}
    (h : t.Leaves text ended o) :
    (lines o.1).flatMap String.toList ++ o.2.terminal.toList =
      t.terminal.toList ++ text.toList := by
  by_cases hended : ended
  · obtain ⟨hlines, hterminal⟩ := h.reported hended
    simp [hlines, hterminal]
  · obtain ⟨hlines, hterminal⟩ := h.waits hended
    simp [hlines, hterminal]

/-- The line is shorter than its limit, which no event changes. -/
def Short (t : CallTracer) : Prop :=
  t.terminal.utf8ByteSize < 256

theorem lines_append (reports more : List Report) :
    lines (reports ++ more) = lines reports ++ lines more :=
  List.filterMap_append ..

theorem happenAll_cons (t : CallTracer) (e : Event) (events : List Event) :
    t.happenAll (e :: events) =
      ((t.happen e).1 ++ ((t.happen e).2.happenAll events).1,
        ((t.happen e).2.happenAll events).2) :=
  rfl

/-- What was reported and what waits is what waited before and what was added. -/
theorem kept_happenAll (t : CallTracer) (events : List Event) :
    (lines (t.happenAll events).1).flatMap String.toList ++
        (t.happenAll events).2.terminal.toList =
      t.terminal.toList ++ events.flatMap (·.text.toList) := by
  induction events generalizing t with
  | nil => simp [happenAll, lines]
  | cons e events ih =>
    rw [happenAll_cons, lines_append, List.flatMap_append, List.append_assoc, ih,
      ← List.append_assoc, (t.leaves_happen e).kept, List.append_assoc, List.flatMap_cons]

/-- A line that waits stays below its limit. -/
theorem Short.happen (h : t.Short) (e : Event) : (t.happen e).2.Short := by
  have hleaves := t.leaves_happen e
  rw [Short]
  by_cases hends : t.Ends e
  · rw [(hleaves.reported hends).2]
    decide
  · rw [(hleaves.waits hends).2, Event.text]
    cases hadded : e.added? with
    | none => rwa [String.append_empty]
    | some byte =>
      rw [String.append_singleton]
      exact Nat.lt_of_not_le fun hlong => hends (.inr ⟨byte, hadded, hlong⟩)

theorem Short.happenAll (h : t.Short) (events : List Event) : (t.happenAll events).2.Short := by
  induction events generalizing t with
  | nil => exact h
  | cons e events ih => exact ih (h.happen e)

theorem utf8ByteSize_text_le (e : Event) : e.text.utf8ByteSize ≤ 2 := by
  rw [Event.text]
  cases e.added? with
  | none => decide
  | some byte =>
    change (String.singleton (character byte)).utf8ByteSize ≤ 2
    rw [String.utf8ByteSize_singleton]
    exact utf8Size_character_le byte

/-- A line that ends has text on it, and is not longer than what waited and two bytes. -/
theorem Short.line_happen (h : t.Short) {e : Event} {line : String}
    (hline : line ∈ lines (t.happen e).1) : line ≠ "" ∧ line.utf8ByteSize ≤ 257 := by
  have hleaves := t.leaves_happen e
  by_cases hends : t.Ends e
  · rw [(hleaves.reported hends).1, List.mem_singleton] at hline
    subst hline
    constructor
    · rw [ne_eq, String.append_eq_empty_iff,
        Classical.not_and_iff_not_or_not]
      rcases hends with ⟨hne, -⟩ | ⟨byte, hadded, -⟩
      · exact .inl hne
      · refine .inr ?_
        rw [Event.text, hadded]
        simp
    · have hadded := utf8ByteSize_text_le e
      rw [Short] at h
      rw [String.utf8ByteSize_append]
      omega
  · rw [(hleaves.waits hends).1] at hline
    cases hline

theorem Short.line_happenAll (h : t.Short) {events : List Event} {line : String}
    (hline : line ∈ lines (t.happenAll events).1) : line ≠ "" ∧ line.utf8ByteSize ≤ 257 := by
  induction events generalizing t with
  | nil => cases hline
  | cons e events ih =>
    rw [happenAll_cons, lines_append, List.mem_append] at hline
    exact hline.elim h.line_happen (ih (h.happen e))

/-- What is added are the characters of the bytes that are added. -/
theorem flatMap_text (events : List Event) :
    events.flatMap (·.text.toList) = (events.filterMap Event.added?).map character := by
  induction events with
  | nil => rfl
  | cons e events ih =>
    rw [List.flatMap_cons, ih, Event.text]
    cases hadded : e.added? with
    | none => rw [List.filterMap_cons_none hadded]; rfl
    | some byte => rw [List.filterMap_cons_some hadded, String.toList_singleton]; rfl

/-- No line feed is added. -/
theorem newline_not_added (events : List Event) :
    '\n' ∉ (events.filterMap Event.added?).map character := by
  intro h
  obtain ⟨byte, hbyte, heq⟩ := List.mem_map.mp h
  obtain ⟨e, -, hadded⟩ := List.mem_filterMap.mp hbyte
  have hkept : byte ≠ 10 ∧ byte ≠ 13 := by
    rw [Event.added?, Option.filter_eq_some_iff] at hadded
    simpa using hadded.2
  have hfeed : byte.toNat = 10 := by
    rw [← toNat_character, heq]
    rfl
  exact hkept.1 (UInt8.toNat_inj.mp hfeed)

/-- After any events the lines that were reported and the text that waits are together the
bytes that were written, as code points, without line feeds and carriage returns. What waits
is shorter than 256 bytes, and the next event reports a line exactly if it ends the line: the
text that waits with the character it adds. No reported line is empty, has a line feed in it
or is longer than 257 bytes. A reset of the machine is one of these events. -/
theorem nothing_lost (events : List Event) :
    let reports := (({} : CallTracer).happenAll events).1
    let t := (({} : CallTracer).happenAll events).2
    ((lines reports).flatMap String.toList ++ t.terminal.toList).map Char.toNat =
        (events.filterMap Event.added?).map UInt8.toNat ∧
      t.terminal.utf8ByteSize < 256 ∧
      (∀ e, (t.Ends e → lines (t.happen e).1 = [t.terminal ++ e.text]) ∧
        (¬ t.Ends e → lines (t.happen e).1 = [])) ∧
      (∀ line ∈ lines reports, line ≠ "" ∧ '\n' ∉ line.toList ∧ line.utf8ByteSize ≤ 257) ∧
      ∀ m : Machine, m.calls = some t →
        m.reset.1 = Machine.notesOf (t.happen .reset).1 ∧
          m.reset.2.calls = some (t.happen .reset).2 := by
  intro reports t
  have hshort : ({} : CallTracer).Short := Nat.zero_lt_succ 255
  have hkept : (lines reports).flatMap String.toList ++ t.terminal.toList =
      (events.filterMap Event.added?).map character := by
    rw [kept_happenAll, flatMap_text]
    rfl
  refine ⟨?_, hshort.happenAll events, fun e => ?_, fun line hline => ?_, fun m hm => ?_⟩
  · rw [hkept, List.map_map]
    exact List.map_congr_left fun byte _ => toNat_character byte
  · have hleaves := t.leaves_happen e
    exact ⟨fun h => (hleaves.reported h).1, fun h => (hleaves.waits h).1⟩
  · obtain ⟨hne, hsize⟩ := hshort.line_happenAll hline
    refine ⟨hne, fun hfeed => newline_not_added events ?_, hsize⟩
    rw [← hkept]
    exact List.mem_append_left _ (List.mem_flatMap.mpr ⟨line, hline, hfeed⟩)
  · simp only [Machine.reset, hm]
    exact ⟨rfl, rfl⟩

/-- A character put through the first table. -/
def putEvent (byte : UInt8) : Event :=
  .observe (((Cpu.reset.setPc 0xA0).setReg 9 0x3C).setReg 4 byte.toUInt32)

/-- A line of two characters in three bytes is reported at its line feed. The character
behind it waits, and is reported by a flush or a reset, but not at a carriage return. -/
theorem nothing_lost_line :
    let reports := (({} : CallTracer).happenAll
      [putEvent 72, putEvent 233, putEvent 13, putEvent 10, putEvent 33]).1
    let t := (({} : CallTracer).happenAll
      [putEvent 72, putEvent 233, putEvent 13, putEvent 10, putEvent 33]).2
    ("Hé" ∈ lines reports ∧ '\n' ∉ "Hé".toList) ∧
      (t.Ends .flush ∧ lines (t.happen .flush).1 = ["!"]) ∧
      (¬ t.Ends (putEvent 13) ∧ lines (t.happen (putEvent 13)).1 = []) ∧
      ({ calls := some t } : Machine).reset.1 = Machine.notesOf (t.happen .reset).1 := by
  intro reports t
  obtain ⟨-, -, hreported, hlines, hreset⟩ :=
    nothing_lost [putEvent 72, putEvent 233, putEvent 13, putEvent 10, putEvent 33]
  have hline : "Hé" ∈ lines reports := by decide
  have hflush : t.Ends .flush := .inl ⟨by decide, trivial⟩
  have hreturn : ¬ t.Ends (putEvent 13) := by
    rintro (⟨-, hasked⟩ | ⟨byte, hadded, -⟩)
    · exact absurd (show (putEvent 13).written? = some 10 from hasked) (by decide)
    · have hnone : (putEvent 13).added? = none := by decide
      nomatch hadded.symm.trans hnone
  refine ⟨⟨hline, (hlines _ hline).2.1⟩, ⟨hflush, ?_⟩, ⟨hreturn, (hreported _).2 hreturn⟩, ?_⟩
  · rw [(hreported .flush).1 hflush]
    decide
  · exact (hreset { calls := some t } rfl).1

end CallTracer

end Bios

end R3000
