import Smarthome.Semantics.Transducer
import Smarthome.Semantics.PrefixMatcher
import Smarthome.Protocol
import Smarthome.Coordinator.UartReceiver
import Smarthome.Coordinator.UartFrames
import Smarthome.Coordinator.UartResync
import Smarthome.Coordinator.UartLiveness
import Smarthome.Coordinator.Slots
import Smarthome.Coordinator.FrameEffects
import Smarthome.Node.Dispatch
import Smarthome.Coordinator.Relay
import Smarthome.Router.Framing
import Smarthome.Semantics.NorFlash
import Smarthome.Semantics.Retry
import Smarthome.Flash.ExternalFlash
import Smarthome.Flash.OtaSlots
import Smarthome.Semantics.CrashLogic
import Smarthome.Flash.Image
import Smarthome.Bootloader.Main
import Smarthome.Bootloader.Copy
import Smarthome.Bootloader.Execution
import Smarthome.Semantics.Runs
import Smarthome.Node.FirmwareActions
import Smarthome.Device.System
import Smarthome.Device.BootSafety
import Smarthome.Device.Rollback
import Smarthome.Node.FirmwareUpdate
import Smarthome.Router.Firmware
import Smarthome.Semantics.Mailbox
import Smarthome.Coordinator.Polling
import Smarthome.Coordinator.Forwarding
import Smarthome.Ota.System
import Smarthome.Ota.Transfer
import Smarthome.Ota.Repeated
import Smarthome.Semantics.RingQueue
import Smarthome.Node.MainProcess
import Smarthome.Semantics.Reads
import Smarthome.Semantics.Window
import Smarthome.Time.TimeData
import Smarthome.Time.Clock
import Smarthome.Time.Handler
import Smarthome.Coordinator.DatagramReceiver
import Smarthome.Node.DatagramReads
import Smarthome.DatagramBounds
import Smarthome.Node.DownloadBounds
import Smarthome.Node.UpdateProcess
import Smarthome.Node.UpdateAttempts
import Smarthome.Semantics.LuaPattern
import Smarthome.Router.Packet
import Smarthome.Router.RawPackets
import Smarthome.Router.Survival
import Smarthome.Router.MainCycle
import Smarthome.Router.Recognition
import Smarthome.Router.ExactlyOnce
import Smarthome.Router.UpdateLoop
import Smarthome.Time.Sync
import Smarthome.Router.Automation
import Smarthome.Router.Commands
import Smarthome.Wire.Downlink
import Smarthome.Router.StatusReport
import Smarthome.Wire.Uplink
import Smarthome.Semantics.LinkedList
import Smarthome.Contiki.Etimer
import Smarthome.Contiki.Process
import Smarthome.Contiki.Exit
import Smarthome.Contiki.Delivery
import Smarthome.Semantics.Memory
import Smarthome.Lowpan.Iphc
import Smarthome.Lowpan.IphcRoundTrip
import Smarthome.Lowpan.Reassembly
import Smarthome.Lowpan.Copies
import Smarthome.Lowpan.WholePackets
import Smarthome.Lowpan.Output
import Smarthome.Lowpan.Transport
import Smarthome.Flash.Crc
import Smarthome.Device.Validation
import Smarthome.Buttons.Driver
import Smarthome.Buttons.Presses
import Smarthome.Buttons.Interference
import Smarthome.Uip.HeaderWalk
import Smarthome.Uip.WalkBounds
import Smarthome.Uip.UdpInput
import Smarthome.Semantics.BlockPool
import Smarthome.Routes.Tables
import Smarthome.Routes.Consistency
import Smarthome.Semantics.RecentlyUsed
import Smarthome.Routes.Search
import Smarthome.Routes.Addition
import Smarthome.Routes.Destinations
import Smarthome.Semantics.WaitingLines
import Smarthome.Contiki.List
import Smarthome.Csma.Driver
import Smarthome.Csma.Queues
import Smarthome.Csma.Transmissions
import Smarthome.Csma.Outcomes
import Smarthome.Semantics.ShiftRegister
import Smarthome.Semantics.Restarts
import Smarthome.Flash.CrcBits
import Smarthome.Flash.Bus
import Smarthome.Flash.BusSimulation
import Smarthome.Flash.Commands
import Smarthome.Node.SlotVerification
import Smarthome.Node.UserFlash
import Smarthome.Device.SlotSoundness
import Smarthome.Device.Bursts
import Smarthome.Device.GoldenImage
import Smarthome.Host.GenerateMetadata
import Smarthome.Host.Coverage
import Smarthome.Bootloader.Restarts
import Smarthome.Coordinator.PayloadBound
import Smarthome.Time.EpochClock
import Smarthome.Time.Responses
import Smarthome.Router.LocalCommands
import Smarthome.Wire.LocalCommand
import Smarthome.Wire.TimeSetting
import Smarthome.Wire.RawPrint
import Smarthome.Node.Relays
import Smarthome.Node.RelaySettings
import Smarthome.Semantics.RunningExtremes
import Smarthome.Node.SlotSelection
import Smarthome.Node.RadioPower
import Smarthome.Router.DeviceLists
import Smarthome.Semantics.Words
import Smarthome.Shell.Strings
import Smarthome.Shell.Settings
import Smarthome.Contiki.Calls
import Smarthome.Node.Membership
import Smarthome.Node.Joining
import Smarthome.Node.Effects
import Smarthome.Node.Keepalive
import Smarthome.Semantics.Lines
import Smarthome.Shell.SerialLine
import Smarthome.Shell.SerialLines
import Smarthome.Semantics.Latest
import Smarthome.Mac.Frame
import Smarthome.Mac.FrameRoundTrip
import Smarthome.Mac.Nullrdc
import Smarthome.Mac.Duplicates
import Smarthome.Mac.Transfer
import Smarthome.Mac.Link
import Smarthome.Csma.Numbers
import Smarthome.Mac.Path
import Smarthome.Mesh.Network
import Smarthome.Mesh.Admission
import Smarthome.Semantics.OnesComplement
import Smarthome.Uip.Checksum
import Smarthome.Uip.Output
import Smarthome.Uip.Forwarding
import Smarthome.Uip.Datagrams
import Smarthome.Uip.Path
import Smarthome.Uip.Ranks
