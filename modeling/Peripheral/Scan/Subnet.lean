import Peripheral.Chunks
import Peripheral.Configuration
import Peripheral.Criteria.Basic
import Peripheral.Interface
import Peripheral.Notice
import Peripheral.Scan.Probe

/-
  Peripheral.Scan.Subnet — scanning subnets for hosts.

  The hosts of a subnet that the criteria allow are probed in ascending order and in waves: a
  wave starts when the one before it is over, and all but the last hold as many probes as the
  cap says. What is found comes in the order of the addresses, whatever order the probes of a
  wave end in. A probe that breaks down costs its own host only.

  `discover` probes one host if the criteria name one, and else scans every distinct IPv4
  subnet of the interfaces once.
-/

namespace Peripheral.Scan

/-- What a scan did and found. -/
structure Report where
  hosts : List HostIdentity := []
  /-- The probes of each wave, in the order of their launch. -/
  waves : List (List Address) := []
  /-- What it logged, and where it paused for its probes. -/
  notices : List Notice := []

def Report.append (a b : Report) : Report :=
  ⟨a.hosts ++ b.hosts, a.waves ++ b.waves, a.notices ++ b.notices⟩

instance : Append Report := ⟨Report.append⟩

def Report.events (r : Report) : List LogEvent := Notice.events r.notices

def Report.probed (r : Report) : List Address := r.waves.flatten

/-- The addresses of a subnet that are worth a probe. -/
def candidates (s : Subnet) (c : HostCriteria) : List Address := s.hosts.filter c.allows

/-- The identity that a probe finds, if it answers the criteria. -/
def ask (probe : Probe) (c : HostCriteria) (a : Address) : Option HostIdentity :=
  (probe a c.port c.protocol).host?.filter c.admits

/-- By address; of equal addresses the one found first stays in front. -/
def sortByAddress (hosts : List HostIdentity) : List HostIdentity :=
  hosts.mergeSort fun a b => decide (a.ip ≤ b.ip)

/-- The events of the probes that broke down in a wave. -/
def brokenEvents (probe : Probe) (c : HostCriteria) (wave : List Address) : List LogEvent :=
  wave.filterMap fun a =>
    if probe a c.port c.protocol = .broken then
      some ⟨.debug, "Probe task failed", [("error", "task panicked")]⟩
    else none

/-- The scan pauses for each wave and logs what broke down in it. -/
def waveNotices (probe : Probe) (c : HostCriteria) (wave : List Address) : List Notice :=
  .pause (.probes wave) :: (brokenEvents probe c wave).map .event

def subnet (probe : Probe) (cap : Nat) (s : Subnet) (c : HostCriteria) : Report :=
  let waves := chunks cap (candidates s c)
  let hosts := sortByAddress (waves.flatMap fun w => w.filterMap (ask probe c))
  { hosts, waves,
    notices :=
      .event ⟨.info, "Scanning subnet", [("subnet", s.base.text), ("prefix", s!"{s.prefixLen}"),
        ("port", s!"{c.port}")]⟩ ::
      waves.flatMap (waveNotices probe c) ++
      [.event ⟨.debug, "Subnet scan complete", [("subnet", s.base.text),
        ("probed", s!"{waves.flatten.length}"), ("found", s!"{hosts.length}")]⟩] }

/-- A probe of one host. -/
def host (probe : Probe) (a : Address) (c : HostCriteria) : Report :=
  { hosts := (ask probe c a).toList, waves := [[a]],
    notices :=
      .pause (.probes [a]) ::
      if probe a c.port c.protocol = .broken then
        [.event ⟨.debug, "Probe task failed", [("ip", a.text), ("error", "task panicked")]⟩]
      else [] }

/-- What tells two identities apart. -/
def identityKey (h : HostIdentity) : Mac × Address × UInt16 × Protocol :=
  (h.mac, h.ip, h.port, h.protocol)

/-- Keeps the first of the identities with one key, given the keys met before. -/
def distinctAfter (seen : List (Mac × Address × UInt16 × Protocol)) :
    List HostIdentity → List HostIdentity
  | [] => []
  | h :: rest =>
    if seen.contains (identityKey h) then distinctAfter seen rest
    else h :: distinctAfter (identityKey h :: seen) rest

def distinct (hosts : List HostIdentity) : List HostIdentity := distinctAfter [] hosts

/-- Scans the subnets of interfaces one after the other, each subnet once, given the subnets
    scanned before. -/
def interfaces (probe : Probe) (cap : Nat) (c : HostCriteria)
    (seen : List (Address × UInt32)) : List Interface → Report
  | [] => {}
  | i :: rest =>
    match i.ipv4 with
    | none =>
      { notices := [.event ⟨.trace, "No IPv4 subnet to scan", [("interface", i.name)]⟩] } ++
        interfaces probe cap c seen rest
    | some s =>
      if seen.contains (s.base, s.prefixLen) then interfaces probe cap c seen rest
      else subnet probe cap s c ++ interfaces probe cap c ((s.base, s.prefixLen) :: seen) rest

/-- The hosts that answer the criteria. -/
def discover (probe : Probe) (cap : Nat) (is : List Interface) (c : HostCriteria) : Report :=
  if c.port = 0 then
    { notices :=
        [.event ⟨.warn, "Ethernet criteria without a port cannot be probed", [("ip", c.ip)]⟩] }
  else if !c.isSubnetScan then
    match Address.parse (Text.strip c.ip) with
    | .ok a => host probe a c
    | .error e =>
      { notices :=
          [.event ⟨.warn, "Ignoring Ethernet criteria with invalid IP", [("error", e.message)]⟩] }
  else
    let r := interfaces probe cap c [] is
    { r with hosts := distinct r.hosts }

end Peripheral.Scan
