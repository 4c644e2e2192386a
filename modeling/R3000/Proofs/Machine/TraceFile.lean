import R3000.Proofs.Cpu.Frame
import R3000.Proofs.Cpu.Trace
import R3000.Proofs.Machine.Consistency
import R3000.Proofs.Machine.Counting
import R3000.Proofs.Machine.Loading
import R3000.Proofs.Machine.Request

/-!
# Trace files

A machine that writes a trace adds a line for each step that is carried out, whatever a host
asks for in between. The file therefore tells through which instructions and with which
registers the machine went: two runs that leave the same file went alike at every line.
-/

namespace R3000

/-! ## Requests -/

/-- How many steps an operation asks for. -/
def Operation.stepCount : Operation → Nat
  | step => 1
  | steps n => n
  | run (some limit) => limit.toNat
  | run none => Machine.unlimited
  | _ => 0

/-- The operation is about the bus alone. -/
def Operation.onBus : Operation → Bool
  | loadBios _ | copyToRam .. | fillRam .. | busLoad .. | busStore .. | completeDma _ => true
  | takeTriggered | drainQueue => true
  | _ => false

namespace Request

variable {α : Type}

/-- How many steps a request asks for. -/
def stepCount : Request α → Nat
  | operation o => o.stepCount
  | byHand _ => 0

/-- The request neither begins a trace nor ends one. -/
def KeepsTrace : Request α → Prop
  | operation (.startTrace _) | operation .stopTrace => False
  | _ => True

/-- What the host does by hand leaves register zero at zero. -/
def KeepsZero : Request α → Prop
  | operation _ => True
  | byHand f => ∀ c b cycles order, c.ZeroFixed → (f c b cycles order).2.1.ZeroFixed

end Request

namespace Machine

variable {α : Type} {m : Machine}

/-! ## The steps that are carried out -/

/-- The processor after each of up to `n` steps, until one fails. -/
def retired : (n : Nat) → Machine → List Cpu
  | 0, _ => []
  | n + 1, m =>
    match m.step.fault with
    | some _ => []
    | none => m.step.machine.cpu :: retired n m.step.machine

/-- The processor after each step that is carried out while the machine serves requests. -/
def retiredAll (m : Machine) : List (Request α) → List Cpu
  | [] => []
  | r :: requests => m.retired r.stepCount ++ (m.serve r).retiredAll requests

/-- An operation on the bus leaves the processor and the trace alone. -/
theorem perform_onBus (m : Machine) {o : Operation} (h : o.onBus = true) :
    (m.perform o).machine.cpu = m.cpu ∧ (m.perform o).machine.tracer = m.tracer := by
  have hsettle (notes : List Note) (answer : Except Error Bus) :
      (m.settle notes answer).machine.cpu = m.cpu ∧
        (m.settle notes answer).machine.tracer = m.tracer := by
    cases answer <;> exact ⟨rfl, rfl⟩
  cases o with
  | loadBios image =>
    simp only [perform, loadBios]
    cases m.bus.loadBios image <;> exact ⟨rfl, rfl⟩
  | copyToRam | fillRam | busLoad | busStore | completeDma | takeTriggered | drainQueue =>
    exact hsettle _ _
  | _ => exact absurd h Bool.false_ne_true

/-! ## The trace -/

theorem step_tracer_of_fault {e : Error} (h : m.step.fault = some e) :
    m.step.machine.tracer = m.tracer := by
  rw [step_fault] at h
  simp only [step, h]

/-- A step that is carried out is traced by the processor that it leaves. -/
theorem step_tracer_of_ok (h : m.step.fault = none) :
    m.step.machine.tracer = m.tracer.map fun t => (t.trace m.step.machine.cpu).2 := by
  rw [step_cpu]
  rw [step_fault] at h
  simp only [step, h]
  cases m.tracer <;> rfl

theorem steps_tracer (n : Nat) (m : Machine) :
    (m.steps n).machine.tracer = m.tracer.map (·.traceAll (m.retired n)) := by
  induction n generalizing m with
  | zero => exact Option.map_id'.symm
  | succ n ih =>
    cases h : m.step.fault with
    | some e =>
      rw [(steps_succ_of_fault n h).1, step_tracer_of_fault h, retired, h]
      exact Option.map_id'.symm
    | none =>
      rw [(steps_succ_of_ok n h).1, ih, step_tracer_of_ok h, retired, h, Option.map_map]
      rfl

/-- An operation traces the steps that it takes and leaves the trace alone otherwise. -/
theorem perform_tracer {o : Operation} (h : (Request.operation o : Request α).KeepsTrace) :
    (m.perform o).machine.tracer = m.tracer.map (·.traceAll (m.retired o.stepCount)) := by
  have hbus := m.perform_onBus (o := o)
  have hkept : m.tracer = m.tracer.map (·.traceAll []) := Option.map_id'.symm
  cases o with
  | step => exact (congrArg (·.1.tracer) m.ending_one).symm.trans (steps_tracer 1 m)
  | steps n => exact steps_tracer n m
  | run limit => cases limit <;> exact steps_tracer _ m
  | reset =>
    simp only [perform, reset]
    split <;> exact hkept
  | restore s =>
    simp only [perform, restore]
    cases s.check <;> exact hkept
  | reportCalls on =>
    simp only [perform, reportCalls]
    split <;> exact hkept
  | startTrace | stopTrace => exact h.elim
  | load | setOrder => exact hkept
  | _ => exact (hbus rfl).2.trans hkept

theorem serve_tracer {r : Request α} (h : r.KeepsTrace) :
    (m.serve r).tracer = m.tracer.map (·.traceAll (m.retired r.stepCount)) := by
  cases r with
  | operation o => exact perform_tracer h
  | byHand f => exact Option.map_id'.symm

/-- The trace grows by the steps that are carried out, and by nothing else. -/
theorem serveAll_tracer {requests : List (Request α)} (h : ∀ r ∈ requests, r.KeepsTrace) :
    (m.serveAll requests).tracer = m.tracer.map (·.traceAll (m.retiredAll requests)) := by
  induction requests generalizing m with
  | nil => exact Option.map_id'.symm
  | cons r requests ih =>
    obtain ⟨hfirst, hothers⟩ := List.forall_mem_cons.mp h
    rw [serveAll, List.foldl_cons, ← serveAll, ih hothers, serve_tracer hfirst, Option.map_map]
    simp only [retiredAll, Tracer.traceAll, List.foldl_append, Function.comp_def]

/-! ## Register zero -/

theorem zeroFixed_step (h : m.cpu.ZeroFixed) : m.step.machine.cpu.ZeroFixed := by
  rw [step_cpu]
  refine advance_preserves (P := fun c _ => c.ZeroFixed) (fun c b hc => ?_) (fun _ _ hc => hc)
    m.order h
  rcases c.step_cases b with ⟨e, -, hcpu, -, -⟩ | ⟨word, b₁, -, fault?, he, -⟩
  · rw [hcpu]
    exact hc
  · exact he.zeroFixed hc

theorem zeroFixed_perform (h : m.cpu.ZeroFixed) (o : Operation) :
    (m.perform o).machine.cpu.ZeroFixed := by
  have hbus := m.perform_onBus (o := o)
  cases o with
  | step => exact zeroFixed_step h
  | steps n => exact steps_preserves (P := (·.cpu.ZeroFixed)) (fun _ => zeroFixed_step) n h
  | run limit => exact run_preserves (P := (·.cpu.ZeroFixed)) (fun _ => zeroFixed_step) limit h
  | reset => exact (Coherent.reset m).zero
  | load x =>
    -- The program sets registers 28 to 30 at most.
    exact (reg_enter m.cpu x 0).trans h
  | restore s =>
    simp only [perform]
    cases hr : m.restore s with
    | error e => exact h
    | ok m' => exact (Coherent.restore hr).zero
  | reportCalls on =>
    simp only [perform, reportCalls]
    split <;> exact h
  | setOrder | startTrace | stopTrace => exact h
  | _ =>
    rw [(hbus rfl).1]
    exact h

theorem zeroFixed_retired (h : m.cpu.ZeroFixed) (n : Nat) : ∀ c ∈ m.retired n, c.ZeroFixed := by
  induction n generalizing m with
  | zero => exact fun c hc => absurd hc List.not_mem_nil
  | succ n ih =>
    intro c hc
    rw [retired] at hc
    split at hc
    · exact absurd hc List.not_mem_nil
    · rcases List.mem_cons.mp hc with rfl | hc
      · exact zeroFixed_step h
      · exact ih (zeroFixed_step h) c hc

theorem zeroFixed_retiredAll {requests : List (Request α)} (h : m.cpu.ZeroFixed)
    (hrequests : ∀ r ∈ requests, r.KeepsZero) : ∀ c ∈ m.retiredAll requests, c.ZeroFixed := by
  induction requests generalizing m with
  | nil => exact fun c hc => absurd hc List.not_mem_nil
  | cons r requests ih =>
    obtain ⟨hfirst, hothers⟩ := List.forall_mem_cons.mp hrequests
    have hserve : (m.serve r).cpu.ZeroFixed := by
      cases r with
      | operation o => exact zeroFixed_perform h o
      | byHand f => exact hfirst _ _ _ _ h
    rw [retiredAll, List.forall_mem_append]
    exact ⟨zeroFixed_retired h _, ih hserve hothers⟩

end Machine

/-! ## Runs with a trace -/

/-- A machine that begins a trace on a new medium and then serves requests, none of which
begins another trace or ends this one. -/
structure TracedRun (α : Type) where
  start : Machine
  /-- Which lines the medium refuses, and why. -/
  refusal? : (given : Nat) → Option FileFailure
  requests : List (Request α)
  keepsTrace : ∀ r ∈ requests, r.KeepsTrace

namespace TracedRun

variable {α β : Type}

/-- The trace at its beginning. -/
def medium (x : TracedRun α) : Tracer :=
  { refusal? := x.refusal? }

/-- The machine in the end. -/
def ending (x : TracedRun α) : Machine :=
  (x.start.startTrace x.medium).serveAll x.requests

/-- What the file holds in the end. -/
def file? (x : TracedRun α) : Option String :=
  x.ending.tracer.map Tracer.text

/-- The processor after each step whose line is in the file. -/
def traced (x : TracedRun α) : List Cpu :=
  x.medium.taken ((x.start.startTrace x.medium).retiredAll x.requests)

/-- The file is a line for each step that was traced. -/
theorem file?_eq (x : TracedRun α) :
    x.file? = some (String.join (x.traced.map (Trace.line · ++ "\n"))) := by
  rw [file?, ending, Machine.serveAll_tracer x.keepsTrace, traced, ← Tracer.text_traceAll rfl]
  rfl

/-- Register zero holds zero at each line if it does so in the beginning and the host does not
change it by hand. -/
theorem zeroFixed_traced (x : TracedRun α) (h : x.start.cpu.ZeroFixed)
    (hrequests : ∀ r ∈ x.requests, r.KeepsZero) : ∀ c ∈ x.traced, c.ZeroFixed := fun c hc =>
  Machine.zeroFixed_retiredAll (m := x.start.startTrace x.medium) h hrequests c
    (Tracer.mem_of_mem_taken hc)

/-- A line tells which instruction was carried out at which address and what every register
holds after it, where register zero holds zero. Two runs that leave the same file, whatever
they began with and whatever was asked of them, therefore went through the same addresses,
words and registers at each of its lines. Register zero holds zero there if it does so in the
beginning and the host does not change it by hand. -/
theorem same_file_alike :
    (∀ (t t' : Tracer) (c c' : Cpu) (line : String), c.ZeroFixed → c'.ZeroFixed →
      t.Writes c line → t'.Writes c' line → c.Alike c') ∧
    (∀ (x : TracedRun α) (x' : TracedRun β), (∀ c ∈ x.traced, c.ZeroFixed) →
      (∀ c ∈ x'.traced, c.ZeroFixed) → x.file? = x'.file? →
      List.Forall₂ Cpu.Alike x.traced x'.traced) ∧
    ∀ x : TracedRun α, x.start.cpu.ZeroFixed → (∀ r ∈ x.requests, r.KeepsZero) →
      ∀ c ∈ x.traced, c.ZeroFixed := by
  refine ⟨fun t t' c c' line hc hc' hw hw' => ?_, fun x x' hx hx' hfile => ?_,
    fun x => x.zeroFixed_traced⟩
  · have hlines : Trace.line c = Trace.line c' := hw.eq_line.symm.trans hw'.eq_line
    exact (Trace.line_inj (s := "") (t := "") hc hc' (by rw [hlines])).1
  · rw [x.file?_eq, x'.file?_eq, Option.some_inj] at hfile
    exact Trace.lines_inj hx hx' hfile

/-- A bus whose direct memory access unit holds two instructions, `lui t0, 0x0013` and
`addiu t0, t0, 1`. -/
def countingBus : Bus :=
  { dma := { spare := #v[0x3C080013, 0x25080001] } }

/-- The two instructions carried out at once. -/
def counting : TracedRun Unit where
  start := { cpu := Cpu.reset.setPc 0x1F8010F8, bus := countingBus }
  refusal? := fun _ => none
  requests := [.operation (.steps 2)]
  keepsTrace := by simp [Request.KeepsTrace]

/-- The two instructions carried out in the other tick order, with another result of the
multiplier after the first. -/
def countingByHand : TracedRun Unit where
  start := { cpu := Cpu.reset.setPc 0x1F8010F8, bus := countingBus, order := .peripheralsFirst }
  refusal? := fun _ => none
  requests :=
    [.operation .step, .byHand fun c b _ _ => ((), { c with hi := 7 }, b), .operation .step]
  keepsTrace := by simp [Request.KeepsTrace]

/-- A trace does not show the multiplier's result: two runs that differ in it leave the same
file, and agree in all that a trace does show. -/
theorem same_file_alike_by_hand :
    (counting.ending.cpu.hi = 0 ∧ countingByHand.ending.cpu.hi = 7 ∧
      counting.file? = countingByHand.file? ∧ counting.traced.length = 2 ∧
      (∀ c ∈ counting.traced, c.ZeroFixed) ∧ (∀ c ∈ countingByHand.traced, c.ZeroFixed) ∧
      List.Forall₂ Cpu.Alike counting.traced countingByHand.traced) ∧
    ∃ line : String,
      counting.ending.cpu.ZeroFixed ∧ countingByHand.ending.cpu.ZeroFixed ∧
        Tracer.Writes {} counting.ending.cpu line ∧
        Tracer.Writes {} countingByHand.ending.cpu line ∧
        counting.ending.cpu.Alike countingByHand.ending.cpu := by
  obtain ⟨hline, hfile, hzero⟩ := same_file_alike (α := Unit) (β := Unit)
  have hcounting : ∀ c ∈ counting.traced, c.ZeroFixed :=
    hzero counting rfl (by simp [counting, Request.KeepsZero])
  have hbyHand : ∀ c ∈ countingByHand.traced, c.ZeroFixed :=
    hzero countingByHand rfl (by simp [countingByHand, Request.KeepsZero, Cpu.ZeroFixed, Cpu.reg])
  have hsame : counting.file? = countingByHand.file? := by decide +kernel
  have hwrites : Tracer.Writes {} counting.ending.cpu (Trace.line counting.ending.cpu) := rfl
  have hwrites' : Tracer.Writes {} countingByHand.ending.cpu (Trace.line counting.ending.cpu) := by
    unfold Tracer.Writes
    decide +kernel
  have hends : counting.ending.cpu.reg 0 = 0 := by decide +kernel
  have hends' : countingByHand.ending.cpu.reg 0 = 0 := by decide +kernel
  exact ⟨⟨by decide +kernel, by decide +kernel, hsame, by decide +kernel, hcounting, hbyHand,
    hfile _ _ hcounting hbyHand hsame⟩, _, hends, hends', hwrites, hwrites',
    hline _ _ _ _ _ hends hends' hwrites hwrites'⟩

end TracedRun

end R3000
