import R3000.Proofs.Machine.Operation

/-!
# Requests and answers

A host does not only perform operations. Between them it looks at processor and
devices, and may change them by hand. The bytes of memory it changes by
operations only. What it hears, and what it has made of the machine, is
described here for any number of requests.
-/

namespace R3000

/-- What a host asks of a machine, where `α` is what it learns when it looks for itself. -/
inductive Request (α : Type) where
  | operation (o : Operation)
  /-- Look at all but the tracers, and change processor and devices. -/
  | byHand (f : Cpu → Bus → UInt64 → TickOrder → α × Cpu × Bus)

/-- What the host hears. -/
inductive Answer (α : Type) where
  | failed (e : Error)
  | done
  /-- So many instructions were carried out. -/
  | ran (count : UInt64)
  | loaded (value : UInt32)
  /-- These channels were started. -/
  | started (channels : List (Fin 7))
  | drained (words : Array UInt32)
  | seen (a : α)

/-- The request is about the tracers. -/
def Request.traces {α : Type} : Request α → Bool
  | operation (.startTrace _) | operation .stopTrace | operation (.reportCalls _) => true
  | _ => false

namespace Machine

variable {α : Type}

/-- What an operation answers when it succeeds. -/
def result (m : Machine) : Operation → Answer α
  | .run limit => .ran ((m.run limit).machine.cycles - m.cycles)
  | .busLoad w address =>
    match m.bus.load w address with
    | .error e => .failed e
    | .ok (value, _) => .loaded value
  | .takeTriggered => .started m.bus.dma.takeTriggered.1
  | .drainQueue => .drained m.bus.gpu.drain.1
  | _ => .done

def answer (m : Machine) : Request α → Answer α
  | .operation o => (m.perform o).fault.elim (m.result o) .failed
  | .byHand f => .seen (f m.cpu m.bus m.cycles m.order).1

/-- The machine after a request. What the host does by hand leaves memory alone. -/
def serve (m : Machine) : Request α → Machine
  | .operation o => (m.perform o).machine
  | .byHand f =>
    let (_, cpu, bus) := f m.cpu m.bus m.cycles m.order
    { m with cpu, bus := { bus with memory := m.bus.memory } }

/-- The machine after requests, whether or not they fail. -/
def serveAll (m : Machine) (requests : List (Request α)) : Machine :=
  requests.foldl serve m

/-- The requests, each with its answer. -/
def transcript (m : Machine) : List (Request α) → List (Request α × Answer α)
  | [] => []
  | r :: requests => (r, m.answer r) :: (m.serve r).transcript requests

end Machine

end R3000
