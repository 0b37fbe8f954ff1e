/-
The report request as the server parses it: events with their process chains, agents, alerts and
the range, with the dates and times that Python's `datetime` computes for them.
-/
import KnIg.Lib.Text
import Mathlib.Data.Rat.Defs

namespace KnIg.Report

open Lib.Text

/-- What the server's code can raise. -/
inductive PyError
  | typeError | overflowError | valueError
  deriving DecidableEq

/-- The microseconds of a day. -/
def dayMicros : Int := 86400000000

/-- The ordinal of 9999-12-31. -/
def maxDay : Int := 3652059

/-- A date and time: the ordinal of its day, the microseconds of the day, and its offset from UTC in
microseconds, if it has one. -/
structure DateTime where
  day : Int
  micros : Int
  offset : Option Int
  day_range : 1 ≤ day ∧ day ≤ maxDay
  micros_range : 0 ≤ micros ∧ micros < dayMicros
  offset_range : ∀ o ∈ offset, -dayMicros < o ∧ o < dayMicros

namespace DateTime

/-- The wall clock as microseconds. -/
def wall (t : DateTime) : Int := t.day * dayMicros + t.micros

/-- `a - b`. A time with an offset and one without do not subtract. -/
def sub (a b : DateTime) : Except PyError Int :=
  match a.offset, b.offset with
  | none, none => .ok (a.wall - b.wall)
  | some o, some o' => .ok (a.wall - o - (b.wall - o'))
  | _, _ => .error .typeError

/-- A time less a duration, on its own clock. -/
def minus (t : DateTime) (d : Int) : Except PyError DateTime :=
  let l := t.wall - d
  if h : 1 ≤ l / dayMicros ∧ l / dayMicros ≤ maxDay then
    .ok { day := l / dayMicros
          micros := l % dayMicros
          offset := t.offset
          day_range := h
          micros_range := ⟨Int.emod_nonneg _ (by decide), Int.emod_lt_of_pos _ (by decide)⟩
          offset_range := t.offset_range }
  else .error .overflowError

end DateTime

/-- A date and a number of days. -/
def addDays (d : Int) (n : Nat) : Except PyError Int :=
  if d + n ≤ maxDay then .ok (d + n) else .error .overflowError

/-- The days before a month in a year without a leap day. -/
def daysBefore (month : Nat) : Nat := [0, 0, 31, 59, 90, 120, 151, 181, 212, 243, 273, 304, 334].getD month 0

/-- Month and day of the month of a day's ordinal. -/
def monthDay (d : Int) : Nat × Nat :=
  let n := (d - 1).toNat % 146097
  let n100 := n / 36524
  let r100 := n % 36524
  let n4 := r100 / 1461
  let r4 := r100 % 1461
  let n1 := r4 / 365
  let r := r4 % 365
  if n1 = 4 ∨ n100 = 4 then (12, 31) else
  let leap := n1 = 3 ∧ (n4 ≠ 24 ∨ n100 = 3)
  let before (m : Nat) : Nat := daysBefore m + if 2 < m ∧ leap then 1 else 0
  let guess := (r + 50) / 32
  let month := if r < before guess then guess - 1 else guess
  (month, r - before month + 1)

def twoDigits (n : Nat) : Str := [48 + n / 10 % 10, 48 + n % 10]

/-- A number in decimal. -/
def dec (n : Int) : Str := txt (toString n)

/-- A date as `%m-%d`. -/
def monthDayText (d : Int) : Str := twoDigits (monthDay d).1 ++ txt "-" ++ twoDigits (monthDay d).2

/-- A time as `%H:%M`. -/
def DateTime.clockText (t : DateTime) : Str :=
  twoDigits (t.micros / 3600000000).toNat ++ txt ":" ++ twoDigits (t.micros / 60000000 % 60).toNat

/-- What the standard library computes that the report leaves open: case mapping, floats and their text,
the clock of the server's own zone, the order in which a set of strings is walked, and the integer that
a string holds. -/
structure Runtime where
  lower : Str → Str
  upper : Str → Str
  /-- `round((cur - prev) / prev * 100)` -/
  pct : Int → Int → Int
  /-- `round(part / total * 100, 1)` in an f-string -/
  rate : Int → Int → Str
  /-- The seconds of a number of microseconds, as a float. -/
  seconds : Int → Rat
  /-- `timestamp` of a time without an offset. -/
  localTimestamp : DateTime → Except PyError Rat
  setOrder : List Str → List Str
  int : Str → Option Int

/-- `timestamp`: seconds since 1970-01-01, whose ordinal is 719163. -/
def DateTime.timestamp (rt : Runtime) (t : DateTime) : Except PyError Rat :=
  match t.offset with
  | some o => .ok (rt.seconds (t.wall - o - 719163 * dayMicros))
  | none => rt.localTimestamp t

structure TimeRange where
  fromTime : DateTime
  toTime : DateTime

structure AgentIn where
  agentId : Str
  hostname : Str

/-- A process of an event's chain. -/
structure ProcessNodeIn where
  pid : Int
  ppid : Int
  uid : Int
  euid : Int
  tty : Str
  comm : Str
  exe : Str
  cmdline : Str

structure EventIn where
  agentId : Str
  eventType : Str
  filePath : Str
  pid : Int
  blocked : Bool
  actorPid : Int
  actorPpid : Int
  actorUid : Int
  actorEuid : Int
  actorTty : Str
  actorComm : Str
  actorExe : Str
  actorCmdline : Str
  chainTruncated : Bool
  occurredAt : Option DateTime
  chain : List ProcessNodeIn

structure AlertIn where
  agentId : Str

structure ReportRequest where
  range : TimeRange
  agents : List AgentIn
  events : List EventIn
  prevEvents : List EventIn
  alerts : List AlertIn

/-- A quotient rounded, halves to the even side. -/
def roundQuot (a b : Int) : Int :=
  if 2 * (a % b) < b ∨ 2 * (a % b) = b ∧ a / b % 2 = 0 then a / b else a / b + 1

/-- The runtime of a server in UTC, as far as texts are ASCII and floats are exact. -/
def asciiRuntime : Runtime where
  lower s := s.map fun c => if 65 ≤ c ∧ c ≤ 90 then c + 32 else c
  upper s := s.map fun c => if 97 ≤ c ∧ c ≤ 122 then c - 32 else c
  pct cur prev := roundQuot ((cur - prev) * 100) prev
  rate part total := dec (roundQuot (part * 1000) total / 10) ++ txt "." ++ dec (roundQuot (part * 1000) total % 10)
  seconds us := us / 1000000
  localTimestamp t := .ok ((t.wall - 719163 * dayMicros : Int) / 1000000)
  setOrder names := names
  int s := if s ≠ [] ∧ s.all (fun c => 48 ≤ c && c ≤ 57) then some (s.foldl (fun n c => 10 * n + (c - 48)) 0) else none

example : [1, 59, 60, 366, 730179, 739755, 3652059].map monthDay =
    [(1, 1), (2, 28), (3, 1), (1, 1), (2, 29), (5, 19), (12, 31)] := by decide

end KnIg.Report
