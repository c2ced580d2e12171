import Peripheral.Scan.Subnet

/-
  Peripheral.Scan.Schedule — the scan of one subnet as steps in time.

  The scanning thread looks at one host after the other: it passes over those that the
  criteria rule out (`skip`) and launches a probe for each other one (`launch`). A probe runs
  on a thread of its own. At any time it answers and adds what it found to a list that all
  probes share (`answer`), and later ends (`finish`); one that breaks down ends without an
  answer (`breakDown`). When as many probes are out as the cap says, the scanning thread takes
  back each probe that has ended (`join`) and goes on when none is left (`resume`). After the
  last host it takes back the last wave (`close`, `join`, `leave`).

  `Reach` holds of the states that any order of these steps leads to.
-/

namespace Peripheral.Scan.Schedule

inductive Phase
  | launching
  /-- Takes back the probes of a full wave. -/
  | joining
  /-- Takes back the probes of the last wave. -/
  | closing
  | done
deriving DecidableEq, Repr

structure State where
  phase : Phase := .launching
  /-- The hosts not looked at yet. -/
  ahead : List Address
  /-- The waves that were taken back, in the order of their launches. -/
  past : List (List Address) := []
  /-- The wave that is out. -/
  wave : List Address := []
  /-- Probes that have neither answered nor ended. -/
  running : List Address := []
  /-- Probes that have answered and not ended. -/
  leaving : List Address := []
  /-- Probes that have ended and were not taken back. -/
  ended : List Address := []
  /-- What was found, in the order of the answers. -/
  found : List HostIdentity := []
deriving DecidableEq, Repr

namespace State

/-- The probes that have not ended. -/
def inFlight (s : State) : List Address := s.running ++ s.leaving

/-- How many probes were not taken back. -/
def out (s : State) : Nat := s.running.length + s.leaving.length + s.ended.length

/-- The probes in the order of their launches. -/
def launched (s : State) : List Address := s.past.flatten ++ s.wave

/-- What the scan returns when it is over. -/
def result (s : State) : List HostIdentity := sortByAddress s.found

end State

inductive Step (probe : Probe) (cap : Nat) (c : HostCriteria) : State → State → Prop
  | skip (s : State) (a : Address) (rest : List Address) :
      s.phase = .launching → s.ahead = a :: rest → c.allows a = false →
      Step probe cap c s { s with ahead := rest }
  | launch (s : State) (a : Address) (rest : List Address) :
      s.phase = .launching → s.ahead = a :: rest → c.allows a = true →
      Step probe cap c s { s with
        phase := if cap ≤ s.out + 1 then .joining else .launching
        ahead := rest
        wave := s.wave ++ [a]
        running := s.running ++ [a] }
  | answer (s : State) (a : Address) : a ∈ s.running → probe a c.port c.protocol ≠ .broken →
      Step probe cap c s { s with
        running := s.running.erase a
        leaving := s.leaving ++ [a]
        found := s.found ++ (ask probe c a).toList }
  | finish (s : State) (a : Address) : a ∈ s.leaving →
      Step probe cap c s { s with leaving := s.leaving.erase a, ended := s.ended ++ [a] }
  | breakDown (s : State) (a : Address) : a ∈ s.running → probe a c.port c.protocol = .broken →
      Step probe cap c s { s with running := s.running.erase a, ended := s.ended ++ [a] }
  | join (s : State) (a : Address) :
      s.phase = .joining ∨ s.phase = .closing → a ∈ s.ended →
      Step probe cap c s { s with ended := s.ended.erase a }
  | resume (s : State) : s.phase = .joining → s.out = 0 →
      Step probe cap c s { s with phase := .launching, past := s.past ++ [s.wave], wave := [] }
  | close (s : State) : s.phase = .launching → s.ahead = [] →
      Step probe cap c s { s with phase := .closing }
  | leave (s : State) : s.phase = .closing → s.out = 0 →
      Step probe cap c s { s with phase := .done }

inductive Reach (probe : Probe) (cap : Nat) (c : HostCriteria) (hosts : List Address) : State → Prop
  | start : Reach probe cap c hosts { ahead := hosts }
  | step {s t : State} : Reach probe cap c hosts s → Step probe cap c s t → Reach probe cap c hosts t

end Peripheral.Scan.Schedule
