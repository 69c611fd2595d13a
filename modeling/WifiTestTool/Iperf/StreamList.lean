import WifiTestTool.Iperf.Types
import WifiTestTool.Lib.Slist

/-!
# The list of streams in memory (`iperf_api.c`, `queue.h`)

The streams of a test are linked by the macros `SLIST_INSERT_HEAD` and `SLIST_INSERT_AFTER`, and the
walks over them are `SLIST_FOREACH`. The id of a stream is counted on the walk to the end of the list.
-/

namespace Iperf

open Slist

/-- The structures of the streams and the head of the list. -/
structure StreamMem where
  mem : Slist.Heap IperfStream
  streams : Option Slist.Addr

/-- The stream with the id `i`. -/
def IperfStream.withId (i : Int) (st : IperfStream) : IperfStream := { st with id := i }

namespace StreamMem

/-- The loop of `iperf_add_stream`: the variables `prev`, which has no value before the loop, and `i`. The
counter is an `int`; it stays below the bound of its type, as every stream holds two descriptors of its
own, which are of this type too. -/
def lastStream (fuel : Nat) (s : StreamMem) : Option (Option Slist.Addr × Int) :=
  s.mem.forEach (fun (_, i) n _ => (some n, i + 1)) fuel s.streams (none, 2)

/-- `iperf_add_stream` -/
def iperfAddStream (fuel : Nat) (sp : Slist.Addr) (s : StreamMem) : Option StreamMem :=
  match s.streams with
  | none => do
    let mem ← s.mem.insertHead s.streams sp
    let mem ← mem.store sp (Node.mapVal (IperfStream.withId 1))
    some { mem := mem, streams := some sp }
  | some _ => do
    let (prev, i) ← s.lastStream fuel
    let prev ← prev
    let mem ← s.mem.insertAfter prev sp
    let mem ← mem.store sp (Node.mapVal (IperfStream.withId i))
    some { s with mem := mem }

/-- One call of `iperf_add_stream` for each stream of a list. -/
def addStreams (fuel : Nat) : List Slist.Addr → StreamMem → Option StreamMem
  | [], s => some s
  | sp :: sps, s => do
    let s ← s.iperfAddStream fuel sp
    addStreams fuel sps s

/-- The loop of `get_results` that looks for the stream with the id `sid`. -/
def findStream (fuel : Nat) (sid : Int) (s : StreamMem) : Option (Option Slist.Addr) :=
  s.mem.find (fun st => st.id = sid) fuel s.streams

/-- The ids in the order of the list, as `send_results` writes them. -/
def ids (fuel : Nat) (s : StreamMem) : Option (List Int) :=
  s.mem.forEach (fun ids _ st => ids ++ [st.id]) fuel s.streams []

end StreamMem

end Iperf
