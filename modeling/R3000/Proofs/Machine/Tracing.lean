import R3000.Proofs.Machine.Request
import R3000.Proofs.Machine.Resume

/-!
# Tracers only watch

A machine may report kernel calls and write a trace. Whatever a host asks for
and whenever it turns the tracers on or off, it hears the same and gets the same
machine as without them, also where the medium of a trace refuses lines. The
tracers look at the processor, and nothing looks at them.
-/

namespace R3000

namespace Machine

variable {α : Type}

theorem run_untraced (limit : Option UInt64) (m : Machine) :
    (m.untraced.run limit).machine = (m.run limit).machine.untraced ∧
      (m.untraced.run limit).fault = (m.run limit).fault := by
  cases limit <;> exact steps_untraced _ m

theorem settle_untraced (m : Machine) (notes : List Note) (answer : Except Error Bus) :
    (m.untraced.settle notes answer).machine = (m.settle notes answer).machine.untraced ∧
      (m.untraced.settle notes answer).fault = (m.settle notes answer).fault := by
  cases answer <;> exact ⟨rfl, rfl⟩

/-- An operation that is not about the tracers does the same without them. -/
theorem perform_untraced (m : Machine) (o : Operation)
    (h : (Request.operation o : Request α).traces = false) :
    (m.untraced.perform o).machine = (m.perform o).machine.untraced ∧
      (m.untraced.perform o).fault = (m.perform o).fault := by
  cases o with
  | step => exact m.step_untraced
  | steps n => exact m.steps_untraced n
  | run limit => exact run_untraced limit m
  | reset =>
    simp only [perform, reset, untraced]
    cases m.calls <;> exact ⟨rfl, trivial⟩
  | loadBios image =>
    simp only [perform, loadBios, untraced]
    cases m.bus.loadBios image <;> exact ⟨rfl, rfl⟩
  | load x => exact ⟨rfl, rfl⟩
  | restore s =>
    simp only [perform, restore, untraced]
    cases s.check <;> exact ⟨rfl, rfl⟩
  | setOrder order => exact ⟨rfl, rfl⟩
  | startTrace | stopTrace | reportCalls => cases h
  | _ => exact m.settle_untraced _ _

theorem result_untraced (m : Machine) (o : Operation) :
    (m.untraced.result o : Answer α) = m.result o := by
  cases o with
  | run limit =>
    have hcycles : (m.untraced.run limit).machine.cycles = (m.run limit).machine.cycles :=
      congrArg (·.cycles) (run_untraced limit m).1
    rw [result, result, hcycles]
    rfl
  | _ => rfl

/-! ## Requests -/

/-- A request about the tracers changes nothing but the tracers. -/
theorem serve_traces (m : Machine) {r : Request α} (h : r.traces = true) :
    (m.serve r).untraced = m.untraced := by
  cases r with
  | byHand f => cases h
  | operation o =>
    cases o with
    | startTrace medium | stopTrace => rfl
    | reportCalls on =>
      simp only [serve, perform, reportCalls]
      cases on <;> cases m.calls <;> rfl
    | _ => cases h

theorem serve_untraced (m : Machine) {r : Request α} (h : r.traces = false) :
    m.untraced.serve r = (m.serve r).untraced := by
  cases r with
  | operation o => exact (m.perform_untraced o h).1
  | byHand f => rfl

theorem answer_untraced (m : Machine) {r : Request α} (h : r.traces = false) :
    m.untraced.answer r = m.answer r := by
  cases r with
  | operation o => rw [answer, answer, (m.perform_untraced o h).2, result_untraced]
  | byHand f => rfl

/-- With the requests about the tracers left out, the machine without tracers
gives the same answers and becomes the same. -/
theorem transcript_untraced (m : Machine) (requests : List (Request α)) :
    (m.transcript requests).filter (!·.1.traces) =
        m.untraced.transcript (requests.filter (!·.traces)) ∧
      (m.serveAll requests).untraced = m.untraced.serveAll (requests.filter (!·.traces)) := by
  induction requests generalizing m with
  | nil => exact ⟨rfl, rfl⟩
  | cons r requests ih =>
    obtain ⟨htranscript, hserve⟩ := ih (m.serve r)
    cases hr : r.traces with
    | true =>
      rw [serve_traces m hr] at htranscript hserve
      simp only [transcript, serveAll, List.foldl_cons, List.filter_cons, hr, Bool.not_true,
        Bool.false_eq_true, if_false]
      exact ⟨htranscript, hserve⟩
    | false =>
      rw [← serve_untraced m hr] at htranscript hserve
      simp only [transcript, serveAll, List.foldl_cons, List.filter_cons, hr, Bool.not_false,
        if_true]
      exact ⟨by rw [htranscript, answer_untraced m hr], hserve⟩

/-- Whatever a host asks for, and whenever it turns tracers on or off or a trace
line cannot be written, every other request is answered as it is by the machine
without tracers, and processor, bus and count of instructions end the same. -/
theorem tracers_only_watch (m : Machine) (requests : List (Request α)) :
    (m.transcript requests).filter (!·.1.traces) =
        m.untraced.transcript (requests.filter (!·.traces)) ∧
      (m.serveAll requests).cpu = (m.untraced.serveAll (requests.filter (!·.traces))).cpu ∧
      (m.serveAll requests).bus = (m.untraced.serveAll (requests.filter (!·.traces))).bus ∧
      (m.serveAll requests).cycles =
        (m.untraced.serveAll (requests.filter (!·.traces))).cycles := by
  obtain ⟨htranscript, hserve⟩ := m.transcript_untraced requests
  rw [← hserve]
  exact ⟨htranscript, rfl, rfl, rfl⟩

end Machine

end R3000
