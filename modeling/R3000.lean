import R3000.Main
import R3000.Proofs.Bus.Refusal
import R3000.Proofs.Cpu.Sequencing
import R3000.Proofs.Machine.Failure
import R3000.Proofs.Machine.Soundness
import R3000.Proofs.Machine.SystemControl
import R3000.Proofs.Memory.Cell
import R3000.Proofs.Cpu.Attribution
import R3000.Proofs.Bus.Reading
import R3000.Proofs.Cpu.Isolation
import R3000.Proofs.Cpu.Frame
import R3000.Proofs.Machine.Counting
import R3000.Proofs.CommandLine.Running
import R3000.Proofs.Device.Dma
import R3000.Proofs.Bus.Drawing
import R3000.Proofs.Machine.Request
import R3000.Proofs.Machine.Firmware
import R3000.Proofs.Machine.Tracing
import R3000.Proofs.Bus.Acknowledgement
import R3000.Proofs.Device.Timer
import R3000.Proofs.Cpu.UnalignedStore
import R3000.Proofs.Device.Period
import R3000.Proofs.Bus.Mapping
import R3000.Proofs.Bus.DmaLine
import R3000.Proofs.Bus.Parts
import R3000.Proofs.Device.Start
import R3000.Proofs.Cpu.Multiplier
import R3000.Proofs.Cpu.Trapping
import R3000.Proofs.Cpu.Nesting
import R3000.Proofs.Bus.Lanes
import R3000.Proofs.Machine.TickOrder
import R3000.Proofs.Machine.PendingLine
import R3000.Proofs.Cpu.WordAligned
import R3000.Proofs.Machine.Restoring
import R3000.Proofs.Bus.Bulk
import R3000.Proofs.Machine.Loading
import R3000.Proofs.Machine.Resetting
import R3000.Proofs.Cpu.Disassembly
import R3000.Proofs.Cpu.Assembly
import R3000.Proofs.Bios.Terminal
import R3000.Proofs.Device.Control
import R3000.Proofs.Device.Mirror
import R3000.Proofs.Cpu.Trace
import R3000.Proofs.Machine.TraceFile
