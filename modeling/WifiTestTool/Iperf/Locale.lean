import WifiTestTool.Iperf.Units

/-!
# The texts of the messages (`locale.c`)

The formats of the headers, of the connection messages and of the summary, beside those of the interval
reports, and the text of a message that one of them is for.
-/

namespace Iperf

/-- The formats. A header is printed through `"%s"`, or through `"%s\n"` with one more line feed behind it. -/
def messageFormat : Format → Option String
  | .reportTime => some "Time: %s\n"
  | .reportConnecting => some "Connecting to host %s, port %d\n"
  | .reportReverse => some "Reverse mode, remote host %s is sending\n"
  | .reportAccepted => some "iperf Accepted connection from %s, port %d\n"
  | .reportCookie => some "      Cookie: %s\n"
  | .tcpMss => some "      TCP MSS: %d\n"
  | .tcpMssDefault => some "      TCP MSS: %d (default)\n"
  | .reportConnected => some "iperf [%3d] local %s port %d connected to %s port %d\n"
  | .reportDiskfile => some "        Sent %s / %s (%d%%) of %s\n"
  | .reportBwHeader => some "[ ID] Interval           Transfer     Bandwidth\n"
  | .reportBwRetransHeader => some "[ ID] Interval           Transfer     Bandwidth       Retr\n"
  | .reportBwRetransCwndHeader =>
    some "[ ID] Interval           Transfer     Bandwidth       Retr  Cwnd\n"
  | .reportBwUdpHeader =>
    some "[ ID] Interval           Transfer     Bandwidth       Jitter    Lost/Total Datagrams\n"
  | .reportBwUdpSenderHeader =>
    some "[ ID] Interval           Transfer     Bandwidth       Total Datagrams\n"
  | .reportBwSeparator => some "- - - - - - - - - - - - - - - - - - - - - - - - -\n"
  | .reportBwRetransFormat => some "[%3d] %6.2f-%-6.2f sec  %ss  %ss/sec  %3u             %s\n"
  | .reportSummary => some "Test Complete. Summary Results:\n"
  | .reportDatagrams => some "[%3d] Sent %d datagrams\n"
  | .reportSumOutoforder => some "[SUM] %4.1f-%4.1f sec  %d datagrams received out-of-order\n"
  | .reportCpu =>
    some "CPU Utilization: %s/%s %.1f%% (%.1f%%u/%.1f%%s), %s/%s %.1f%% (%.1f%%u/%.1f%%s)\n"
  | fmt => intervalFormat fmt

/-- The cookie as the text that `%s` prints. A byte above 127 stands for itself; how the app decodes it does
not matter to what it looks for. -/
def cookieText (cookie : List UInt8) : List Char :=
  (cookie.takeWhile fun b => b ≠ 0).map fun b => Char.ofNat b.toNat

/-- The arguments that are not in the calls of the model, since the system or the peer gives them: the time
of day, the addresses, which `inet_ntop` writes, and the cookie. -/
inductive SystemArgs (t : IperfTest) : Format → List Arg → Prop where
  | time (now : String) (h : '/' ∉ now.toList) : SystemArgs t .reportTime [.text now]
  | accepted (ipr : String) (port : Int) (h : '/' ∉ ipr.toList) :
    SystemArgs t .reportAccepted [.text ipr, .int port]
  | cookie : SystemArgs t .reportCookie [.text (String.ofList (cookieText t.cookie))]
  | connected (ipl ipr : String) (lport rport : Int) (hl : '/' ∉ ipl.toList) (hr : '/' ∉ ipr.toList) :
    SystemArgs t .reportConnected [.text ipl, .int lport, .text ipr, .int rport]
  | none {fmt : Format}
      (h : fmt ∉ [.reportTime, .reportAccepted, .reportCookie, Format.reportConnected]) :
    SystemArgs t fmt []

/-- The text that `iprintf` sends to the app, in a test `t`. -/
def MessageText (t : IperfTest) (fmt : Format) (args : List Arg) (text : List Char) : Prop :=
  ∃ string ds more, messageFormat fmt = some string ∧ scanFormat .text string.toList = some ds ∧
    SystemArgs t fmt more ∧ render ds (args ++ more) = some text

end Iperf
