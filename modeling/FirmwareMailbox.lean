import FirmwareMailbox.Machine.Script
import FirmwareMailbox.Machine.Simulation
import FirmwareMailbox.Main
import FirmwareMailbox.Program.Transcript
import FirmwareMailbox.Proofs.Message.Outcome
import FirmwareMailbox.Proofs.Message.Trace
import FirmwareMailbox.Proofs.Register.Access
import FirmwareMailbox.Proofs.Session.GivingUp
import FirmwareMailbox.Proofs.Session.Remembering
import FirmwareMailbox.Proofs.Simulation.Agreement
import FirmwareMailbox.Proofs.Simulation.Twins
import FirmwareMailbox.Proofs.Topology.Buses
import FirmwareMailbox.Proofs.Topology.Numbering
import FirmwareMailbox.Session.Operation
import FirmwareMailbox.Telemetry.Page
import FirmwareMailbox.Proofs.Message.Sending
import FirmwareMailbox.Proofs.Session.Gating
import FirmwareMailbox.Proofs.Session.Refusing
import FirmwareMailbox.Proofs.Message.Locking
import FirmwareMailbox.Proofs.Machine.Sharing
import FirmwareMailbox.Proofs.Simulation.Windows
import FirmwareMailbox.Proofs.Simulation.Interleaving
import FirmwareMailbox.Proofs.Topology.Order
import FirmwareMailbox.Proofs.Session.Knowing
import FirmwareMailbox.Proofs.Session.Confinement
import FirmwareMailbox.Proofs.Simulation.Confinement
import FirmwareMailbox.Proofs.Session.Telling
import FirmwareMailbox.Proofs.Storage.Relisting
import FirmwareMailbox.Proofs.Topology.Rescan
import FirmwareMailbox.Proofs.Simulation.Views
import FirmwareMailbox.Proofs.Simulation.Kin
import FirmwareMailbox.Proofs.Simulation.Probing
import FirmwareMailbox.Proofs.Simulation.Relearning
import FirmwareMailbox.Proofs.Topology.Consistency
import FirmwareMailbox.Proofs.Simulation.Seats
import FirmwareMailbox.Proofs.Simulation.Settings
import FirmwareMailbox.Proofs.Simulation.Changing
import FirmwareMailbox.Proofs.Simulation.Boosting
import FirmwareMailbox.Proofs.Simulation.Hosting
import FirmwareMailbox.Proofs.Machine.Series
import FirmwareMailbox.Proofs.Session.Fanout
import FirmwareMailbox.Proofs.Capability.Probes
import FirmwareMailbox.Proofs.Telemetry.Readings
import FirmwareMailbox.Proofs.Telemetry.Rounds
import FirmwareMailbox.Proofs.Telemetry.Gauges
import FirmwareMailbox.Proofs.Telemetry.Traffic
import FirmwareMailbox.Proofs.Text.Numeral
import FirmwareMailbox.Proofs.Text.Split
import FirmwareMailbox.Proofs.Pci.Names
import FirmwareMailbox.Proofs.Storage.Handle
import FirmwareMailbox.Proofs.Storage.Scan
import FirmwareMailbox.Proofs.Cpu.Listing
import FirmwareMailbox.Proofs.Cpu.Inserts
import FirmwareMailbox.Proofs.Cpu.Stanzas
import FirmwareMailbox.Proofs.Cpu.Overflow
import FirmwareMailbox.Proofs.Topology.Walk
import FirmwareMailbox.Proofs.Command.Listing
import FirmwareMailbox.Proofs.Register.Layout
import FirmwareMailbox.Proofs.Processor.Gate
import FirmwareMailbox.Proofs.Command.Sockets
import FirmwareMailbox.Proofs.Message.Threads
import FirmwareMailbox.Proofs.Session.Reasons
import FirmwareMailbox.Proofs.Session.Bounds
import FirmwareMailbox.Proofs.Config.Numbers
