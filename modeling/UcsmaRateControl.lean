import UcsmaRateControl.Ath9k.Antennas
import UcsmaRateControl.Ath9k.BringUp
import UcsmaRateControl.Ath9k.CwUpdate
import UcsmaRateControl.Ath9k.DescLayout
import UcsmaRateControl.Ath9k.Device
import UcsmaRateControl.Ath9k.Eifs
import UcsmaRateControl.Ath9k.InterfaceLedger
import UcsmaRateControl.Ath9k.Interrupts
import UcsmaRateControl.Ath9k.PrimarySta
import UcsmaRateControl.Ath9k.Queues
import UcsmaRateControl.Ath9k.StationSlots
import UcsmaRateControl.Ath9k.Survey
import UcsmaRateControl.Ath9k.WakeRefs
import UcsmaRateControl.BufferNumber.Lifecycle
import UcsmaRateControl.GpioIrqLatency.Passes
import UcsmaRateControl.GpioTimeline.Load
import UcsmaRateControl.InterruptTest.Latency
import UcsmaRateControl.Network.Coverage
import UcsmaRateControl.Packetspammer.Addresses
import UcsmaRateControl.Packetspammer.Output
import UcsmaRateControl.Packetspammer.PacketCount
import UcsmaRateControl.Packetspammer.RadiotapWalk
import UcsmaRateControl.Packetspammer.ReadContract
import UcsmaRateControl.Unlock.EventLog
import UcsmaRateControl.Unlock.Exits
import UcsmaRateControl.Unlock.Lifecycle
import UcsmaRateControl.Unlock.Period
import UcsmaRateControl.Unlock.Pulses
import UcsmaRateControl.Unlock.QuietBit
import UcsmaRateControl.Unlock.Sampling
import UcsmaRateControl.Unlock.Transparency
