/-!
# Notes

What the machine reports while it works. A note says how severe it is, which
component speaks, and its text; it never changes what the machine does.
-/

namespace R3000

inductive Severity where
  | error
  | warn
  | info
  | debug
  | trace
deriving DecidableEq, Repr, Inhabited

/-- The part of the program that a note comes from. -/
inductive Component where
  | program
  | bios
  | config
  | cop0
  | cpu
  | instructions
  | jumps
  | dma
  | gpu
  | interrupt
  | loader
  | memory
  | cache
  | ports
  | saveState
  | spu
  | system
  | timer
deriving DecidableEq, Repr, Inhabited

/-- The name that log lines and log filters know the component by. -/
def Component.path : Component → String
  | program => "psxcore"
  | bios => "psxcore::core::bios"
  | config => "psxcore::core::config"
  | cop0 => "psxcore::core::cpu::cop0"
  | cpu => "psxcore::core::cpu"
  | instructions => "psxcore::core::cpu::instructions"
  | jumps => "psxcore::core::cpu::instructions::jump"
  | dma => "psxcore::core::dma"
  | gpu => "psxcore::core::gpu"
  | interrupt => "psxcore::core::interrupt"
  | loader => "psxcore::core::loader"
  | memory => "psxcore::core::memory"
  | cache => "psxcore::core::memory::cache"
  | ports => "psxcore::core::memory::io_ports"
  | saveState => "psxcore::core::save_state"
  | spu => "psxcore::core::spu"
  | system => "psxcore::core::system"
  | timer => "psxcore::core::timer"

structure Note where
  severity : Severity
  component : Component
  text : String
deriving DecidableEq, Repr, Inhabited

end R3000
