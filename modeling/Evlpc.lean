import Evlpc.Reassembly
import Evlpc.RoundTrip
import Evlpc.SessionRuns
import Evlpc.SidAllocator
import Evlpc.Exchange
import Evlpc.Correlation
import Evlpc.Closing
import Evlpc.DelayedProtocol
import Evlpc.DelayedResponseTest
import Evlpc.EventLoop
import Evlpc.FrameDecomposition
import Evlpc.HeaderValidation
import Evlpc.ReceiveBuffer
import Evlpc.CallbackTable
import Evlpc.SessionAccess
import Evlpc.FailedParse
import Evlpc.MessageCapacity
import Evlpc.LogReceive
import Evlpc.ServiceMonitor
import Evlpc.InProgress
import Evlpc.EventBatch
import Evlpc.Compaction
import Evlpc.DelayedRequests
import Evlpc.CommandLine
import Evlpc.XmlReaders
import Evlpc.ProcessConfig
import Evlpc.IniSections
import Evlpc.IniParser
import Evlpc.ConfigFiles
import Evlpc.IniNumbers
import Evlpc.IniReader
import Evlpc.ConfigAgent
import Evlpc.LivePointers
import Evlpc.IniFiles
import Evlpc.PitchCatch
import Evlpc.StreamExchange
import Evlpc.LogSeverity
import Evlpc.DelayedStreams
import Evlpc.EventRuns
import Evlpc.MonitorLaunch
