import Peripheral.Http.Request
import Peripheral.Log
import Peripheral.Usb.Call

/-
  Peripheral.Journal — all that a session has done to the world outside it, in order. What
  the world answers next depends on the journal alone, so an environment is a value that does
  not change.
-/

namespace Peripheral

structure Journal where
  events : List LogEvent := []
  calls : List Usb.Call := []
  requests : List Http.Request := []
deriving DecidableEq, Repr

namespace Journal

def log (j : Journal) (e : LogEvent) : Journal := { j with events := j.events ++ [e] }

def call (j : Journal) (c : Usb.Call) : Journal := { j with calls := j.calls ++ [c] }

def request (j : Journal) (r : Http.Request) : Journal := { j with requests := j.requests ++ [r] }

/-- How many calls of a kind were made. -/
def callCount (j : Journal) (kind : Usb.Call → Bool) : Nat := j.calls.countP kind

end Journal

end Peripheral
