import Peripheral.Proofs.Address.RoundTrip
import Peripheral.Proofs.Neighbor.Table
import Peripheral.Resolver

/-
  Peripheral.Proofs.Resolver — how hosts are resolved by what the operating system says.

  A host is reached at the hardware address of the first entry of the neighbour table that says
  where to reach it, and at none if no entry does or the table cannot be read
  (`mac_ofSystem_eq_ok_iff`, `mac_ofSystem_eq_error_iff`). So it is never reached at the zero address
  (`Entry.Resolves`). Its name is the one that the name service prints (`Hostname.ofHostsLine?_eq_some`),
  or else its address, and there always is one (`hostname_ofSystem_ne_empty`).
-/

namespace Peripheral

variable {os : System} {es : List Neighbor.Entry} {ip : Address} {m : Mac} {output name : String} {f : LinkError}

/-! ## Hardware addresses -/

namespace Resolver

open Neighbor (Shows lookup? lookup?_eq lookupMac_eq_none_iff lookupMac_eq_some_iff table)

theorem required_eq_ok_iff {mac : Option Mac} : required ip mac = .ok m ↔ mac = some m := by
  cases mac <;> simp [required]

theorem required_eq_error_iff {mac : Option Mac} :
    required ip mac = .error f ↔ mac = none ∧ f = .unreachable s!"{ip} has no neighbor table entry" := by
  cases mac <;> simp [required, eq_comm]

/-- A host is reached at what the first entry says that says where to reach it. -/
theorem mac_ofSystem_eq_ok_iff : (ofSystem os).mac ip = .ok m ↔ ∃ es, table os = .ok es ∧ ∃ before e after,
    es = before ++ e :: after ∧ e.Resolves ip m ∧ ∀ x ∈ before, ∀ n, ¬ x.Resolves ip n := by
  show required ip (lookup? os ip) = .ok m ↔ _
  rw [required_eq_ok_iff, lookup?_eq, lookupMac_eq_some_iff]
  cases table os <;> simp [Except.toOption]

/-- And nowhere if no entry does, or there is no table. -/
theorem mac_ofSystem_eq_error_iff : (ofSystem os).mac ip = .error f ↔
    f = .unreachable s!"{ip} has no neighbor table entry" ∧
      ∀ es, table os = .ok es → ∀ e ∈ es, ∀ m, ¬ e.Resolves ip m := by
  show required ip (lookup? os ip) = .error f ↔ _
  rw [required_eq_error_iff, lookup?_eq, lookupMac_eq_none_iff, and_comm]
  cases table os <;> simp [Except.toOption]

/-- Whoever is shown in the neighbour table is reached as it says. -/
theorem mac_ofSystem_of_shows (h : Shows os es) : (ofSystem os).mac ip = .ok m ↔ ∃ before e after,
    es = before ++ e :: after ∧ e.Resolves ip m ∧ ∀ x ∈ before, ∀ n, ¬ x.Resolves ip n := by
  rw [mac_ofSystem_eq_ok_iff, h.table_eq]
  simp

end Resolver

/-! ## Names -/

namespace Hostname

/-- Behind the address on the first line stands the name. Aliases and further lines do not count. -/
theorem ofHostsLine?_eq_some {line address : String} {ls aliases : List String}
    (houtput : Text.AreLinesOf (line :: ls) output) (hline : Text.AreWordsOf (address :: name :: aliases) line) :
    ofHostsLine? output = some name := by
  have hwords := Text.map_wordsOf_linesOf houtput
  rw [List.map_cons, Text.areWordsOf_iff.mp hline] at hwords
  obtain ⟨first, rest, hlines, hfirst, -⟩ := List.map_eq_cons_iff.mp hwords
  rw [ofHostsLine?, hlines, List.head?_cons, Option.bind_some, hfirst]
  rfl

theorem ofHostsLine?_ne_empty (h : ofHostsLine? output = some name) : name ≠ "" := by
  obtain ⟨line, -, hword⟩ := Option.bind_eq_some_iff.mp h
  exact Text.ne_empty_of_mem_wordsOf (List.mem_of_getElem? hword)

theorem ofAnswerLine?_ne_empty {line : String} (h : ofAnswerLine? line = some name) : name ≠ "" := by
  have hsaid : ∀ said : List Char, (if said.isEmpty then none else some (String.ofList said)) = some name →
      name ≠ "" := by
    intro said hname
    obtain ⟨hne, hname⟩ := Option.ite_none_left_eq_some.mp hname
    cases hname
    exact mt String.ofList_eq_empty_iff.mp (mt List.isEmpty_iff.mpr hne)
  unfold ofAnswerLine? at h
  dsimp only at h
  split at h
  · exact hsaid _ h
  · split at h
    · exact hsaid _ h
    · cases h

theorem ofAnswer?_ne_empty (h : ofAnswer? output = some name) : name ≠ "" := by
  obtain ⟨-, line, -, -, hline, -⟩ := List.findSome?_eq_some_iff.mp h
  exact ofAnswerLine?_ne_empty hline

theorem lookup?_ne_empty (h : lookup? os ip = some name) : name ≠ "" := by
  unfold lookup? at h
  split at h
  · obtain ⟨output, -, houtput⟩ := Option.bind_eq_some_iff.mp h
    exact ofHostsLine?_ne_empty houtput
  all_goals
    obtain ⟨output, -, houtput⟩ := Option.bind_eq_some_iff.mp h
    exact ofAnswer?_ne_empty houtput

end Hostname

namespace Resolver

/-- There always is a name. -/
theorem hostname_ofSystem_ne_empty (os : System) (ip : Address) : (ofSystem os).hostname ip ≠ "" := by
  show (Hostname.lookup? os ip).getD ip.text ≠ ""
  cases hname : Hostname.lookup? os ip with
  | some name => exact Hostname.lookup?_ne_empty hname
  | none =>
    -- no address is read from an empty text
    intro hempty
    have hnone : Address.ofText? "" = none := by decide
    have hread := Address.ofText?_text ip
    rw [Option.getD_none] at hempty
    rw [hempty, hnone] at hread
    cases hread

end Resolver

end Peripheral
