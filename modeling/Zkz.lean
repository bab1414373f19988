import Zkz.Lib.Words
import Zkz.Lib.Post
import Zkz.Lib.Runs
import Zkz.Lib.Overlay
import Zkz.Lib.Unfolding
import Zkz.Lib.Exploration
import Zkz.Lib.Success
import Zkz.Lib.Buffers
import Zkz.Lib.Digits
import Zkz.Lib.Scans
import Zkz.Debugger.Breakpoint
import Zkz.Debugger.Kernel
import Zkz.Debugger.Commands
import Zkz.Debugger.Answers
import Zkz.Debugger.History
import Zkz.Debugger.Stopped
import Zkz.Debugger.Placement
import Zkz.Debugger.Numbering
import Zkz.Debugger.Clearing
import Zkz.Debugger.Frames
import Zkz.Debugger.Traps
import Zkz.Debugger.Stops
import Zkz.Debugger.Cpu
import Zkz.Debugger.Simulation
import Zkz.Debugger.Transparency
import Zkz.Debugger.Steps
import Zkz.Debugger.Rewinds
import Zkz.Debugger.Failures
import Zkz.Debugger.MainLoop
import Zkz.Debugger.Turns
import Zkz.Debugger.Processes
import Zkz.Debugger.Restart
import Zkz.Debugger.OneShot
import Zkz.Debugger.Composition
import Zkz.Debugger.CommandFaults
import Zkz.Debugger.Select
import Zkz.Debugger.Registers
import Zkz.Debugger.SetCommand
import Zkz.Debugger.SyscallFlag
import Zkz.Debugger.AutoReturns
import Zkz.Debugger.PrintedRip
import Zkz.Debugger.Placements
import Zkz.Debugger.Numerals
import Zkz.Debugger.BreakWords
import Zkz.Debugger.Log
import Zkz.Debugger.RegisterDump
import Zkz.Debugger.Arguments
import Zkz.Debugger.Maps
import Zkz.Symbols.Elf
import Zkz.Symbols.Readable
import Zkz.Symbols.Symbol
import Zkz.Symbols.Loading
import Zkz.Symbols.Malformed
import Zkz.Symbols.BaseAddress
import Zkz.Symbols.LineBounds
import Zkz.Symbols.LineLookup
import Zkz.Symbols.BreakLines
import Zkz.Symbols.Decoding
import Zkz.Symbols.LibraryPaths
import Zkz.Inject.ShellcodeList
import Zkz.Inject.Process
import Zkz.Inject.Segments
import Zkz.Inject.FreeSpace
import Zkz.Inject.Injection
import Zkz.Debugger.Deeds
import Zkz.Debugger.Plans
import Zkz.Debugger.Ideal
import Zkz.Debugger.Refinement
import Zkz.Debugger.Stepping
import Zkz.Debugger.Continuing
import Zkz.Debugger.IdealDeeds
import Zkz.Debugger.Sessions
import Zkz.Debugger.Protocol
import Zkz.Debugger.Startup
import Zkz.Debugger.Messages
import Zkz.Debugger.Splitting
import Zkz.Debugger.Lifetimes
import Zkz.Debugger.Listings
import Zkz.Debugger.Restoring
import Zkz.Lib.Walks
import Zkz.Symbols.Dependencies
