import Peripheral.Identity.Basic

/-
  Peripheral.Scan.Probe — asking one address whether a host answers there.
-/

namespace Peripheral

/-- What becomes of a probe. -/
inductive Reply
  | found (host : HostIdentity)
  | silent
  /-- The probe itself broke down. -/
  | broken
deriving DecidableEq, Repr

abbrev Probe := Address → UInt16 → Protocol → Reply

def Reply.host? : Reply → Option HostIdentity
  | found h => some h
  | _ => none

/-- A host that is known to answer, or to break its probe, at one port. -/
structure KnownHost where
  ip : Address
  port : UInt16
  /-- The only protocol it answers; none for both. -/
  protocol : Option Protocol
  reply : Protocol → Reply

/-- Probes answered from a list: an entry for the protocol asked for comes before one for
    both, and among equals the last one counts. -/
def Probe.ofKnown (hosts : List KnownHost) : Probe := fun ip port protocol =>
  let here := hosts.reverse.filter fun h => h.ip == ip && h.port == port
  match here.find? (·.protocol == some protocol) with
  | some h => h.reply protocol
  | none =>
    match here.find? (·.protocol == none) with
    | some h => h.reply protocol
    | none => .silent

end Peripheral
