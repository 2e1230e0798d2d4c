import ProjetSysteme.Library.Outcome
import ProjetSysteme.Library.PriorityList
import ProjetSysteme.Library.Ring
import ProjetSysteme.Library.Channel
import ProjetSysteme.Library.ChannelLaws
import ProjetSysteme.Library.PageTable
import ProjetSysteme.Library.Stack
import ProjetSysteme.Library.Congruential
import ProjetSysteme.Library.Probing
import ProjetSysteme.Kernel.Memory
import ProjetSysteme.Kernel.State
import ProjetSysteme.Kernel.Process
import ProjetSysteme.Kernel.Clock
import ProjetSysteme.Kernel.Primitives
import ProjetSysteme.Kernel.File
import ProjetSysteme.Kernel.Console
import ProjetSysteme.Kernel.Step
import ProjetSysteme.Kernel.Syscalls
import ProjetSysteme.Kernel.Hash
import ProjetSysteme.Invariant.Abstraction
import ProjetSysteme.Invariant.Coherence
import ProjetSysteme.Invariant.Change
import ProjetSysteme.Invariant.Destruction
import ProjetSysteme.Invariant.Termination
import ProjetSysteme.Invariant.Scheduling
import ProjetSysteme.Invariant.Stability
import ProjetSysteme.Invariant.Preservation
import ProjetSysteme.Invariant.Reachable
import ProjetSysteme.Invariant.Posture
import ProjetSysteme.Invariant.Effect
import ProjetSysteme.Invariant.Inversion
import ProjetSysteme.Invariant.Release
import ProjetSysteme.Invariant.Waiting
import ProjetSysteme.Invariant.Event
import ProjetSysteme.Invariant.Outcomes
import ProjetSysteme.Invariant.Conservation
import ProjetSysteme.Invariant.Simulation
import ProjetSysteme.Invariant.Frame
import ProjetSysteme.Invariant.Health
import ProjetSysteme.Invariant.History
import ProjetSysteme.Invariant.ProcessRuns
import ProjetSysteme.Invariant.ChannelRuns
import ProjetSysteme.Invariant.Annex
import ProjetSysteme.Invariant.AnnexRuns
import ProjetSysteme.Invariant.Pages
import ProjetSysteme.Invariant.PageRuns
import ProjetSysteme.Invariant.ConsoleRuns
import ProjetSysteme.Invariant.Paging
import ProjetSysteme.Properties.Scheduler
import ProjetSysteme.Properties.Waitpid
import ProjetSysteme.Properties.Reaping
import ProjetSysteme.Properties.Fifo
import ProjetSysteme.Properties.WakeUps
import ProjetSysteme.Properties.Deletion
import ProjetSysteme.Properties.Preset
import ProjetSysteme.Properties.Chprio
import ProjetSysteme.Properties.Reset
import ProjetSysteme.Properties.Kill
import ProjetSysteme.Properties.Orphans
import ProjetSysteme.Properties.Pages
import ProjetSysteme.Properties.Translation
import ProjetSysteme.Properties.Isolation
import ProjetSysteme.Properties.Syscalls
import ProjetSysteme.Properties.Hash
import ProjetSysteme.Properties.Console
import ProjetSysteme.Properties.Priority
import ProjetSysteme.Properties.Destruction
import ProjetSysteme.Library.RoundRobin
import ProjetSysteme.Properties.RoundRobin
import ProjetSysteme.Properties.Tick
import ProjetSysteme.Properties.Zombies
import ProjetSysteme.Properties.QueueIds
import ProjetSysteme.Properties.Start
import ProjetSysteme.Properties.Allocator
import ProjetSysteme.Invariant.Entries
import ProjetSysteme.Properties.FreePage
import ProjetSysteme.Properties.Readback
import ProjetSysteme.Invariant.Sleepers
import ProjetSysteme.Properties.Sleep
import ProjetSysteme.Properties.Waiters
import ProjetSysteme.Properties.MessageList
import ProjetSysteme.Properties.QueueAllocation
import ProjetSysteme.Properties.HashLookup
import ProjetSysteme.Properties.AddressBits
import ProjetSysteme.Properties.HashFailure
import ProjetSysteme.Properties.PageSearch
import ProjetSysteme.Properties.ConsoleBuffer
import ProjetSysteme.Properties.LineEditor
import ProjetSysteme.Library.Terminal
import ProjetSysteme.Kernel.Print
import ProjetSysteme.Properties.Screen
import ProjetSysteme.Invariant.Veil
import ProjetSysteme.Properties.EchoMode
import ProjetSysteme.Properties.Rings
import ProjetSysteme.Kernel.ChainedCalls
import ProjetSysteme.Invariant.Chained
import ProjetSysteme.Invariant.ChainedCalls
import ProjetSysteme.Properties.Chained
import ProjetSysteme.Library.Loop
import ProjetSysteme.Library.RunLength
import ProjetSysteme.Kernel.GdbSerial
import ProjetSysteme.Library.Buffer
import ProjetSysteme.Invariant.GdbPackets
import ProjetSysteme.Invariant.GdbFrames
import ProjetSysteme.Properties.GdbLine
import ProjetSysteme.Kernel.GdbMemory
import ProjetSysteme.Kernel.Numeral
import ProjetSysteme.Invariant.GdbMemory
import ProjetSysteme.Kernel.GdbStub
import ProjetSysteme.Properties.GdbMemory
import ProjetSysteme.Invariant.GdbStub
import ProjetSysteme.Properties.GdbSession
import ProjetSysteme.Properties.GdbCommands
import ProjetSysteme.Library.Positional
import ProjetSysteme.Invariant.Numeral
import ProjetSysteme.Kernel.Format
import ProjetSysteme.Invariant.PrintfScreen
import ProjetSysteme.Properties.Printing
import ProjetSysteme.Library.Division
import ProjetSysteme.Kernel.Division
import ProjetSysteme.Invariant.Division
import ProjetSysteme.Properties.Division
import ProjetSysteme.Kernel.Random
import ProjetSysteme.Properties.Random
import ProjetSysteme.Kernel.EarlyMm
import ProjetSysteme.Invariant.EarlyMm
import ProjetSysteme.Properties.EarlyMm
