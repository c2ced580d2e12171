import Peripheral.Discovery.Manager

/-
  Peripheral.Discovery.Schedule — discoveries on one manager as steps in time.

  A discovery begins at any time (`begin`) and takes its turns with the others (`Turn`). A
  session reports that it is queued. Then every discovery looks at the manager's flag, waits
  for the lock, and looks again (`look`, `enter`, `lookAgain`). Once admitted it announces
  itself, asks for the USB context (`setOut`), and reports what `Manager.course` says until it
  gives the lock back (`complete`). Each report is a turn of its own (`say`). At a pause it
  gives work to other threads and goes on when that work has ended (`pause`, `workEnds`,
  `resume`). A discovery that finds the flag up has no lock when it says so (`leave`).

  What the work will find is settled at `setOut`, where the native calls of the enumeration
  enter the journal; whether the work is still going on is what `working` tells.

  A discovery that is no session may be abandoned where it waits (`abandon`): the lock is free
  again, and work that was given away ends in its own time.

  A shutdown raises the flag (`raise`), then waits for the lock and gives up the USB context
  (`release`).
-/

namespace Peripheral.Discovery.Schedule

/-- How far a discovery has come. -/
inductive Stage
  /-- Has these reports to make before its first look at the flag. -/
  | begun (rest : List Report)
  /-- Waits for the lock. -/
  | waiting
  /-- Before its second look at the flag. -/
  | entered
  /-- Has these reports to make before it asks for the USB context. -/
  | admitted (rest : List Report)
  /-- These reports are to come. -/
  | running (rest : List Report)
  /-- Waits for its work on other threads. -/
  | paused (rest : List Report)
  | completed
  /-- Found the flag up and has these reports to make. -/
  | refusing (rest : List Report)
  | refused
  | abandoned
deriving DecidableEq, Repr

namespace Stage

/-- The stages between taking the lock and giving it back. -/
def hasLock : Stage → Bool
  | entered | admitted _ | running _ | paused _ => true
  | _ => false

/-- The stages in which a discovery lets others go on. -/
def waits : Stage → Bool
  | waiting | paused _ => true
  | _ => false

/-- The stages after the last turn. -/
def isOver : Stage → Bool
  | completed | refused | abandoned => true
  | _ => false

/-- The next report, unless there is none or a pause is next, and the stage after it. -/
def next? : Stage → Option (Report × Stage)
  | begun (r :: rest) => some (r, begun rest)
  | admitted (r :: rest) => some (r, admitted rest)
  | running (.notice (.pause _) :: _) => none
  | running (r :: rest) => some (r, running rest)
  | refusing (r :: rest) => some (r, refusing rest)
  | _ => none

end Stage

/-- One discovery. -/
structure Call where
  criteria : List Criteria
  /-- It was queued as a session. -/
  isSession : Bool
  stage : Stage
  /-- What it has reported. -/
  said : List Report := []
deriving DecidableEq, Repr

namespace Call

/-- A discovery that has reported nothing yet. -/
def fresh (cs : List Criteria) (isSession : Bool) : Call :=
  ⟨cs, isSession, .begun (if isSession then Manager.queued cs else []), []⟩

/-- Only a session reports that it was refused. -/
def refuse (k : Call) : Call := { k with stage := .refusing (if k.isSession then Manager.aborted else []) }

end Call

structure State where
  manager : Manager
  /-- The USB context was given up by a shutdown that is over. -/
  isReleased : Bool := false
  journal : Journal := {}
  calls : List Call := []
  /-- The work on other threads, with the place of the discovery that gave it. -/
  working : List (Nat × Work) := []

namespace State

/-- Nobody has the lock. -/
def isFree (s : State) : Bool := s.calls.all (!·.stage.hasLock)

def setCall (s : State) (i : Nat) (k : Call) : State := { s with calls := s.calls.set i k }

end State

/-- A turn of a discovery, or the end of work that one has given away. -/
inductive Turn (w : Surroundings) : State → State → Prop
  | say (s : State) (i : Nat) (k : Call) (r : Report) (next : Stage) :
      s.calls[i]? = some k → k.stage.next? = some (r, next) →
      Turn w s (s.setCall i { k with stage := next, said := k.said ++ [r] })
  | look (s : State) (i : Nat) (k : Call) :
      s.calls[i]? = some k → k.stage = .begun [] →
      Turn w s (s.setCall i (if s.manager.isShutDown then k.refuse else { k with stage := .waiting }))
  | enter (s : State) (i : Nat) (k : Call) :
      s.calls[i]? = some k → k.stage = .waiting → s.isFree = true →
      Turn w s (s.setCall i { k with stage := .entered })
  | lookAgain (s : State) (i : Nat) (k : Call) :
      s.calls[i]? = some k → k.stage = .entered →
      Turn w s (s.setCall i (if s.manager.isShutDown then k.refuse
        else { k with stage := .admitted (Manager.announced k.criteria) }))
  | setOut (s : State) (i : Nat) (k : Call) (reports : List Report) (probed : List Address) (j : Journal) :
      s.calls[i]? = some k → k.stage = .admitted [] →
      (s.manager.course w k.criteria).run s.journal = ((reports, probed), j) →
      Turn w s ({ s with journal := j }.setCall i { k with stage := .running reports })
  | pause (s : State) (i : Nat) (k : Call) (work : Work) (rest : List Report) :
      s.calls[i]? = some k → k.stage = .running (.notice (.pause work) :: rest) →
      Turn w s ({ s with working := s.working ++ [(i, work)] }.setCall i { k with stage := .paused rest })
  | workEnds (s : State) (x : Nat × Work) : x ∈ s.working →
      Turn w s { s with working := s.working.erase x }
  | resume (s : State) (i : Nat) (k : Call) (rest : List Report) :
      s.calls[i]? = some k → k.stage = .paused rest → (∀ x ∈ s.working, x.1 ≠ i) →
      Turn w s (s.setCall i { k with stage := .running rest })
  | complete (s : State) (i : Nat) (k : Call) :
      s.calls[i]? = some k → k.stage = .running [] →
      Turn w s (s.setCall i { k with stage := .completed })
  | leave (s : State) (i : Nat) (k : Call) :
      s.calls[i]? = some k → k.stage = .refusing [] →
      Turn w s (s.setCall i { k with stage := .refused })

/-- A turn, or what those who call on the manager do. -/
inductive Step (w : Surroundings) : State → State → Prop
  | turn {s t : State} : Turn w s t → Step w s t
  | begin (s : State) (cs : List Criteria) (isSession : Bool) :
      Step w s { s with calls := s.calls ++ [Call.fresh cs isSession] }
  | abandon (s : State) (i : Nat) (k : Call) :
      s.calls[i]? = some k → k.stage.waits = true → k.isSession = false →
      Step w s (s.setCall i { k with stage := .abandoned })
  | raise (s : State) :
      Step w s { s with manager := { s.manager with isShutDown := true } }
  | release (s : State) : s.manager.isShutDown = true → s.isFree = true →
      Step w s { s with manager := { s.manager with usb := false }, isReleased := true }

/-- The states that calls on the manager `m` lead to. -/
inductive Reach (w : Surroundings) (m : Manager) : State → Prop
  | start : Reach w m { manager := m }
  | step {s t : State} : Reach w m s → Step w s t → Reach w m t

end Peripheral.Discovery.Schedule
