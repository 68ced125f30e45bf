import SprdFlash.Framing
import SprdFlash.Corruption
import SprdFlash.Native
import SprdFlash.Library.Pieces
import SprdFlash.Plan
import SprdFlash.Exchange
import SprdFlash.WireLog
import SprdFlash.Runs
import SprdFlash.Acknowledging
import SprdFlash.Transfers
import SprdFlash.Package
import SprdFlash.LogicalRegion
import SprdFlash.PacImage
import SprdFlash.Completion
import SprdFlash.OwnBytes
import SprdFlash.Truncation
import SprdFlash.Refusal
import SprdFlash.Delivery
import SprdFlash.FailStop
import SprdFlash.NvWrite
import SprdFlash.Library.Packets
import SprdFlash.PdlFraming
import SprdFlash.PdlSession
import SprdFlash.PdlTransfer
import SprdFlash.Handshake
import SprdFlash.HandOver
import SprdFlash.PdlAcceptance
import SprdFlash.FormatSession
import SprdFlash.Line
import SprdFlash.Pairing
import SprdFlash.Tracking
import SprdFlash.Checksums
import SprdFlash.SingleByte
import SprdFlash.PacLayout
import SprdFlash.Asking
import SprdFlash.ReadFlash
import SprdFlash.UsbTransport
import SprdFlash.PortRelease
import SprdFlash.Cli
import SprdFlash.Endings
import SprdFlash.ExitCodes
import SprdFlash.Gates
import SprdFlash.Installation
import SprdFlash.Commands
import SprdFlash.UsbFraming
import SprdFlash.UsbLifecycle
import SprdFlash.UsbSession
import SprdFlash.Library.Simulation
import SprdFlash.UsbFlash
import SprdFlash.UsbModem
import SprdFlash.CommandHistory
