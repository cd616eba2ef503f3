import Luan.Core.Glob
import Luan.Core.Search
import Luan.Core.SwiftText
import Luan.ChromeMCP.HTTP
import Luan.ChromeMCP.HTTPTraps
import Luan.ChromeMCP.HTTPStream
import Luan.Core.Machine
import Luan.ChromeMCP.BrowserWSPool
import Luan.ChromeMCP.PoolInvariant
import Luan.ChromeMCP.PoolReplies
import Luan.ChromeMCP.PoolSession
import Luan.ChromeMCP.Manager
import Luan.ChromeMCP.ListenerNews
import Luan.ChromeMCP.ChromeTracking
import Luan.Core.Json
import Luan.ChromeMCP.Requests
import Luan.ChromeMCP.Endpoint
import Luan.ChromeMCP.AfterStop
import Luan.LuaRunner.Runner
import Luan.LuaRunner.Lifecycle
import Luan.LuaRunner.Responses
import Luan.LuaRunner.StopButton
import Luan.Core.Pieces
import Luan.Core.TextLines
import Luan.LuaRunner.ChildOutput
import Luan.Wildcard.Matcher
import Luan.Wildcard.SingleLevel
import Luan.Wildcard.Branches
import Luan.Wildcard.MultiLevel
import Luan.Wildcard.DoubleStars
import Luan.Wildcard.LabelBoundary
import Luan.Wildcard.BestMatch
import Luan.Core.GlobOrder
import Luan.Wildcard.Specificity
import Luan.Wildcard.Truncation
import Luan.Core.RecursiveMutex
import Luan.LuaLock.Lock
import Luan.LuaLock.Mirror
import Luan.LuaLock.Exclusion
import Luan.LuaLock.RefCount
import Luan.LuaLock.SaveRestore
import Luan.Core.Environment
import Luan.Settings.AppSettings
import Luan.CLI.Args
import Luan.CLI.Launch
import Luan.CLI.Relaunch
import Luan.CLI.ServicePort
import Luan.Settings.Workspace
import Luan.Settings.Tokens
import Luan.Core.ShellWords
import Luan.Settings.CliCommand
import Luan.CLI.Bridge
import Luan.CLI.ScriptArgs
import Luan.CLI.Inheritance
import Luan.Core.FileSystem
import Luan.CLI.RuntimeDir
import Luan.CLI.SameRuntime
import Luan.LuaRunner.ResetPassword
import Luan.LuaRunner.ResetMode
import Luan.Core.PieceStream
import Luan.Native.Brotli
import Luan.Native.BrotliLimits
import Luan.Native.LuaAlloc
import Luan.Core.CRun
import Luan.Core.Cuts
import Luan.Native.StrReplace
import Luan.Core.OnesComplement
import Luan.Icmp.Checksum
import Luan.Icmp.Reply
import Luan.Icmp.Ping
import Luan.Core.Packing
import Luan.Core.Runs
import Luan.Wildcard.Occurrences
import Luan.Wildcard.Score
import Luan.Wildcard.Compiled
import Luan.Wildcard.CaseFolding
import Luan.Pal.TunReading
import Luan.Core.Gregorian
import Luan.Native.Time64
import Luan.Native.LocalTime64
import Luan.Core.Doubles
import Luan.Native.LuaTime
import Luan.Core.FileLocks
import Luan.LuaRunner.DocumentRootLock
import Luan.Native.LzStream
import Luan.Native.LzDeflate
import Luan.Native.LuaFileSystem
import Luan.Native.LuaSqlite
import Luan.Core.SixBits
import Luan.Native.Base64
import Luan.Native.Iconv
import Luan.Core.FileWrites
import Luan.LuaRunner.SharedLog
