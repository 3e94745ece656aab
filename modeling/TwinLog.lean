import TwinLog.Error
import TwinLog.Script
import TwinLog.Bytes
import TwinLog.Align
import TwinLog.Crc16
import TwinLog.Settings.Callsign
import TwinLog.Settings.DisplayTimer
import TwinLog.Settings.Basic
import TwinLog.Settings.Image
import TwinLog.Record.Basic
import TwinLog.Device
import TwinLog.Volume
import TwinLog.Table
import TwinLog.NorFlash
import TwinLog.Log.Read
import TwinLog.Log.Scan
import TwinLog.Log.Recover
import TwinLog.Log.Append
import TwinLog.Side
import TwinLog.Session
import TwinLog.Storage
import TwinLog.Sim.Memory
import TwinLog.Sim.Fault
import TwinLog.Sim.Chip
import TwinLog.Sim.Device
import TwinLog.Sim.Bench
import TwinLog.Proofs.Wp
import TwinLog.Proofs.Medium
import TwinLog.Proofs.Volume
import TwinLog.Proofs.Record
import TwinLog.Proofs.Log.Entries
import TwinLog.Proofs.Log.Recovery
import TwinLog.Proofs.Log.Append
import TwinLog.Proofs.Installation
import TwinLog.Proofs.Save
import TwinLog.Proofs.Log.Tracking
import TwinLog.Proofs.Generations
import TwinLog.Proofs.Consistency
import TwinLog.Proofs.Atomicity
import TwinLog.Proofs.Live
import TwinLog.Proofs.Retry
import TwinLog.Proofs.Settings
import TwinLog.Proofs.Log.Records
import TwinLog.Proofs.Runs
import TwinLog.Proofs.Wraparound
import TwinLog.Proofs.Log.Blend
import TwinLog.Proofs.Log.Patch
import TwinLog.Proofs.InterruptedReset
import TwinLog.Proofs.Resumption
import TwinLog.Proofs.Requests
import TwinLog.Proofs.FirstLoad
import TwinLog.Proofs.Bookkeeping
import TwinLog.Proofs.Execution
import TwinLog.Proofs.Schedule
import TwinLog.Proofs.Faults
import TwinLog.Proofs.Durability
import TwinLog.Proofs.Translation
import TwinLog.Proofs.Log.Chain
import TwinLog.Proofs.Align
import TwinLog.Proofs.Devices
import TwinLog.Proofs.Confinement
import TwinLog.Proofs.Noninterference
import TwinLog.Proofs.Refusals
import TwinLog.Proofs.Simulation
import TwinLog.Proofs.Log.Decoding
import TwinLog.Proofs.Footprint
import TwinLog.Proofs.Raising
import TwinLog.Proofs.Interruption
import TwinLog.Proofs.Log.Upset
import TwinLog.Proofs.FailedRecovery
import TwinLog.Proofs.Histories
import TwinLog.Proofs.Log.Renewal
import TwinLog.Proofs.FailedSave
import TwinLog.Proofs.Registration
import TwinLog.Proofs.Drivers
import TwinLog.Proofs.Widening
import TwinLog.Proofs.EraseRange
import TwinLog.Proofs.Log.Frames
import TwinLog.Proofs.Upgrade
import TwinLog.Proofs.Log.Emulation
import TwinLog.Proofs.Crc16
import TwinLog.Proofs.Bursts
import TwinLog.Proofs.SaveBack
import TwinLog.Proofs.Log.Words
import TwinLog.Proofs.Log.Rounds
