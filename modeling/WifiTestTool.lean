import WifiTestTool.Lib.Prog
import WifiTestTool.Lib.Frame
import WifiTestTool.Lib.Dll
import WifiTestTool.Lib.Slist
import WifiTestTool.Lib.StableInsert
import WifiTestTool.Lib.Rounding
import WifiTestTool.Lib.Events
import WifiTestTool.Lib.Regex
import WifiTestTool.Lib.Updates
import WifiTestTool.Lib.Digits
import WifiTestTool.Iperf.Timer
import WifiTestTool.Iperf.Types
import WifiTestTool.Iperf.Sys
import WifiTestTool.Iperf.Os
import WifiTestTool.Iperf.Params
import WifiTestTool.Iperf.Report
import WifiTestTool.Iperf.Data
import WifiTestTool.Iperf.TestTimers
import WifiTestTool.Iperf.Streams
import WifiTestTool.Iperf.Control
import WifiTestTool.Iperf.Server
import WifiTestTool.Iperf.Client
import WifiTestTool.Iperf.Units
import WifiTestTool.Iperf.Cookie
import WifiTestTool.Iperf.StreamList
import WifiTestTool.Iperf.JsonPrintf
import WifiTestTool.Iperf.CJson
import WifiTestTool.Iperf.Proofs.TimerProofs
import WifiTestTool.Iperf.Proofs.ParamsProofs
import WifiTestTool.Iperf.Proofs.ParamsExchange
import WifiTestTool.Iperf.Proofs.TimerQueue
import WifiTestTool.Iperf.Proofs.TimerRun
import WifiTestTool.Iperf.Proofs.TimerResets
import WifiTestTool.Iperf.Proofs.ReportAlternation
import WifiTestTool.Iperf.Proofs.TimerTimeout
import WifiTestTool.Iperf.Proofs.Measurement
import WifiTestTool.Iperf.Proofs.Neutral
import WifiTestTool.Iperf.Proofs.Plumbing
import WifiTestTool.Iperf.Proofs.ServerLife
import WifiTestTool.Iperf.Proofs.ServerIsolation
import WifiTestTool.Iperf.Proofs.Intruder
import WifiTestTool.Iperf.Proofs.DataCalls
import WifiTestTool.Iperf.Proofs.Accounting
import WifiTestTool.Iperf.Proofs.UdpLoss
import WifiTestTool.Iperf.Proofs.ObservedCalls
import WifiTestTool.Iperf.Proofs.CallRuns
import WifiTestTool.Iperf.Proofs.UdpOrder
import WifiTestTool.Iperf.Proofs.UdpHeader
import WifiTestTool.Iperf.Proofs.ResultExchange
import WifiTestTool.Iperf.Proofs.UdpTotals
import WifiTestTool.Iperf.Proofs.StreamFailure
import WifiTestTool.Iperf.Proofs.ZeroCopy
import WifiTestTool.Iperf.Proofs.FileTransfer
import WifiTestTool.Iperf.Proofs.SendCalls
import WifiTestTool.Iperf.Proofs.SendRate
import WifiTestTool.Iperf.Proofs.SendLimit
import WifiTestTool.Iperf.Proofs.Options
import WifiTestTool.Iperf.Proofs.Limits
import WifiTestTool.Iperf.Proofs.Lights
import WifiTestTool.Iperf.Proofs.Unlimited
import WifiTestTool.Iperf.Proofs.Direction
import WifiTestTool.Iperf.Proofs.ControlFrames
import WifiTestTool.Iperf.Proofs.JsonOutput
import WifiTestTool.Iperf.Proofs.ResultsTaken
import WifiTestTool.Iperf.Locale
import WifiTestTool.Iperf.Proofs.UnitsProofs
import WifiTestTool.Iperf.Proofs.MessageTexts
import WifiTestTool.Iperf.Proofs.UnitChoice
import WifiTestTool.Iperf.Proofs.CookieProofs
import WifiTestTool.Iperf.Proofs.StreamListProofs
import WifiTestTool.Iperf.Proofs.JsonPrintfProofs
import WifiTestTool.Iperf.Proofs.CJsonNumbers
import WifiTestTool.Iperf.Proofs.CJsonText
import WifiTestTool.Iperf.Proofs.CJsonBounds
import WifiTestTool.Iperf.Proofs.CJsonBuffers
import WifiTestTool.Iperf.Proofs.CJsonExact
import WifiTestTool.Iperf.Proofs.ParamsOnWire
import WifiTestTool.App.Java
import WifiTestTool.App.ParseIperData
import WifiTestTool.Iperf.Getopt
import WifiTestTool.App.Progress
import WifiTestTool.App.Validator
import WifiTestTool.App.AgingTest
import WifiTestTool.App.ScanResults
import WifiTestTool.App.CommandStore
import WifiTestTool.App.IperfTask
import WifiTestTool.App.Proofs.CommandStoreProofs
import WifiTestTool.App.Proofs.TextProofs
import WifiTestTool.App.Proofs.ReportLine
import WifiTestTool.App.Proofs.ChartScale
import WifiTestTool.App.Proofs.Plotted
import WifiTestTool.App.Proofs.ValidatorProofs
import WifiTestTool.App.Proofs.TaskEnds
import WifiTestTool.App.Proofs.AgingProofs
import WifiTestTool.App.Proofs.AgingCounts
import WifiTestTool.App.Proofs.ScanProofs
import WifiTestTool.Iperf.ControlTalk
import WifiTestTool.Iperf.Proofs.ClientTalk
import WifiTestTool.Iperf.Proofs.ServerTalk
import WifiTestTool.Iperf.Proofs.Alignment
