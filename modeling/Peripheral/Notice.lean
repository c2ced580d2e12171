import Peripheral.Address.Basic
import Peripheral.Log

/-
  Peripheral.Notice — what others can notice of a task: it logs, or it pauses until work that
  it has given to other threads is done, and lets other tasks go on.
-/

namespace Peripheral

/-- Work on other threads. -/
inductive Work
  /-- Listing the devices of the bus. -/
  | enumeration
  /-- A wave of probes. -/
  | probes (wave : List Address)
deriving DecidableEq, Repr

inductive Notice
  | event (e : LogEvent)
  | pause (work : Work)
deriving DecidableEq, Repr

/-- The events among the notices. -/
def Notice.events (notices : List Notice) : List LogEvent :=
  notices.filterMap fun
    | .event e => some e
    | .pause _ => none

end Peripheral
