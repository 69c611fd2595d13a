import Mathlib.Logic.Function.Basic
import WifiTestTool.Iperf.Sys

/-!
# The operating system

What the system keeps of the descriptors of a process and of the files behind them, and the answers that
it may give: a new descriptor is one that is not in use, `read` takes a file from where the last call has
stopped, without errors, and `sendfile` sends what is in the file. A private mapping of a file does not appear here: what
is stored to it is not carried through to the file, so the only changes of a file are those of `write`
and `ftruncate`.
-/

namespace Iperf

open Reactive

/-- What is behind an open descriptor. -/
inductive Handle where
  /-- A socket, with the bytes that were sent and received over it. -/
  | socket (sent received : List UInt8)
  /-- A file, with its contents and the position in it. -/
  | file (contents : List UInt8) (pos : Nat)
deriving DecidableEq

namespace Handle

/-- The bytes `bs` are written. -/
def write (bs : List UInt8) : Handle → Handle
  | socket sent received => socket (sent ++ bs) received
  | file contents pos => file (contents.take pos ++ bs ++ contents.drop (pos + bs.length)) (pos + bs.length)

/-- The bytes `bs` are read. -/
def read (bs : List UInt8) : Handle → Handle
  | socket sent received => socket sent (received ++ bs)
  | file contents pos => file contents (pos + bs.length)

/-- The file is given the length `n`. -/
def truncate (n : Nat) : Handle → Handle
  | socket sent received => socket sent received
  | file contents pos => file (contents.take n ++ List.replicate (n - contents.length) 0) pos

end Handle

/-- The state of the system. -/
structure Os where
  /-- The open descriptors. -/
  handle : Int → Option Handle
  /-- The files by their names. -/
  disk : String → List UInt8
  /-- The results of the calls of `write` and `sendfile`. -/
  transfers : List (Except Errno Nat)

namespace Os

/-- Put `h` behind a descriptor. -/
def put (fd : Int) (h : Option Handle) (g : Os) : Os := { g with handle := Function.update g.handle fd h }

/-- Change what is behind a descriptor. -/
def adjust (fd : Int) (f : Handle → Handle) (g : Os) : Os := g.put fd ((g.handle fd).map f)

/-- Note the result of a transfer. -/
def note (a : Except Errno Nat) (g : Os) : Os := { g with transfers := g.transfers ++ [a] }

/-- The contents of the file behind a descriptor. -/
def contents (g : Os) (fd : Int) : List UInt8 :=
  match g.handle fd with
  | some (.file contents _) => contents
  | _ => []

/-- The state after a request was answered. -/
def answer (g : Os) : (r : Req) → r.Ans → Os
  | .accept _, .ok fd | .socket _ _, .ok fd => g.put fd (some (.socket [] []))
  | .mkstemp, .ok fd => g.put fd (some (.file [] 0))
  | .openFile name forWriting, .ok fd => g.put fd (some (.file (if forWriting then [] else g.disk name) 0))
  | .ftruncate fd n, .ok _ => g.adjust fd (Handle.truncate n.toNat)
  | .read fd _, .ok bs => g.adjust fd (Handle.read bs)
  | .write fd bs, .ok n => (g.adjust fd (Handle.write (bs.take n))).note (.ok n)
  | .write _ _, .error e => g.note (.error e)
  | .sendfile toFd fromFd offset _, .ok n =>
    (g.adjust toFd (Handle.write (((g.contents fromFd).drop offset).take n))).note (.ok n)
  | .sendfile _ _ _ _, .error e => g.note (.error e)
  | .close fd, _ => g.put fd none
  | _, _ => g

/-- The answers that the system may give. -/
def mayAnswer (g : Os) : (r : Req) → r.Ans → Prop
  | .accept _, .ok fd | .socket _ _, .ok fd | .mkstemp, .ok fd | .openFile _ _, .ok fd =>
    0 ≤ fd ∧ g.handle fd = none
  | .read fd n, a =>
    match g.handle fd, a with
    | none, .ok _ => False
    | some (.socket _ _), .ok bs => bs.length ≤ n
    | some (.file contents pos), .ok bs => bs = (contents.drop pos).take n
    | some (.file _ _), .error _ => False
    | _, .error _ => True
  | .write fd bs, .ok n => g.handle fd ≠ none ∧ n ≤ bs.length
  | .sendfile toFd fromFd offset n, .ok k =>
    g.handle toFd ≠ none ∧ k ≤ n ∧ offset + k ≤ (g.contents fromFd).length
  | .select _ readSet writeSet _, .ok (_, readSet', writeSet') =>
    (∀ fd ∈ readSet ∪ writeSet, g.handle fd ≠ none) ∧ readSet' ⊆ readSet ∧ writeSet' ⊆ writeSet
  | .random n, bs => bs.length = n
  | _, _ => True

instance (g : Os) (r : Req) (a : r.Ans) : Decidable (g.mayAnswer r a) := by
  unfold mayAnswer
  split
  case h_5 fd n a => split <;> infer_instance
  all_goals infer_instance

end Os

/-- The contract of a program that owes `ok` when it makes a request to the system. -/
def osContract (ok : Mem → Os → Req → Prop) : Contract Mem Req.Ans Halt Os where
  onCall _ g r a := g.answer r a
  onWrite _ g := g
  allows _ g r a := g.mayAnswer r a
  ok := ok
  inv _ _ := True
  mayHalt _ _ _ := True

instance (ok : Mem → Os → Req → Prop) (m : Mem) (g : Os) (r : Req) (a : r.Ans) :
    Decidable ((osContract ok).allows m g r a) := inferInstanceAs (Decidable (g.mayAnswer r a))

/-! ## Descriptors -/

namespace Os

variable {g : Os} {fd fd' : Int} {f : Handle → Handle}

@[simp] theorem handle_note (a : Except Errno Nat) : (g.note a).handle = g.handle := rfl

@[simp] theorem handle_put_same (h : Option Handle) : (g.put fd h).handle fd = h := Function.update_self ..

theorem handle_put_of_ne (h : Option Handle) (hne : fd' ≠ fd) : (g.put fd h).handle fd' = g.handle fd' :=
  Function.update_of_ne hne ..

theorem handle_adjust_same : (g.adjust fd f).handle fd = (g.handle fd).map f := Function.update_self ..

theorem handle_adjust_of_ne (hne : fd' ≠ fd) : (g.adjust fd f).handle fd' = g.handle fd' :=
  Function.update_of_ne hne ..

end Os

end Iperf
