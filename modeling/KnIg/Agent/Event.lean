/-
The agent's event record as the backends fill it in and the queue carries it: the touched file, the
acting process and its ancestry. A `char` array holds its bytes whether or not a terminator is
among them; a terminated array also carries the proof that one is.
-/
import KnIg.File

namespace KnIg.Agent

open Lib

/-- A `char[n]`, with or without a terminator. -/
structure CharArr (n : Nat) where
  bytes : Bytes
  size : bytes.length = n

/-- The bytes before the first terminator, as `strnlen` bounds them. -/
def CharArr.str {n : Nat} (a : CharArr n) : Bytes := a.bytes.takeWhile (· ≠ 0)

/-- A `char[n]` with a terminator: the string before it. -/
structure TermArr (n : Nat) where
  str : CStr
  fits : str.length < n

/-- `strncpy(dst, s, n - 1)` into an array of zeros. -/
def CharArr.copy (n : Nat) (s : CStr) : CharArr n := ⟨(s.bytes.take (n - 1) ++ List.replicate n 0).take n, by simp⟩

/-- The same where the array is read as a string. -/
def TermArr.copy (n : Nat) (hn : 0 < n) (s : CStr) : TermArr n where
  str := s.cut (n - 1)
  fits := by
    have hlen : (s.cut (n - 1)).length ≤ n - 1 := List.length_take_le _ _
    omega

inductive EventType where
  | create | modify | delete | attrib | move | access | unknown
deriving DecidableEq

inductive EventSource where
  | inotify | ebpf | lkm | fanotify
deriving DecidableEq

/-- `IG_PA_MAX_DEPTH`. -/
def igPaMaxDepth : Nat := 16

theorem igPaMaxDepth_pos : 0 < igPaMaxDepth := by decide

/-- `ig_proc_info_t`. -/
structure ProcInfo where
  pid : Int32
  ppid : Int32
  uid : UInt32
  euid : UInt32
  sid : Int32
  tty : CharArr 32
  comm : CharArr 16
  exe : CharArr 256
  cmdline : CharArr 512
  startTicks : UInt64
  startTimeNs : UInt64

/-- `ig_pid_chain_t`. -/
structure PidChain where
  depth : Int32
  truncated : Int32
  chain : Fin igPaMaxDepth → ProcInfo

/-- `ig_event_t`. -/
structure IgEvent where
  type : EventType
  source : EventSource
  path : TermArr igMaxPath
  filename : TermArr 256
  timestamp : Int64
  dev : UInt64
  ino : UInt64
  blocked : Int32
  pid : Int32
  uid : UInt32
  sid : Int32
  comm : CharArr 16
  chain : PidChain

end KnIg.Agent
