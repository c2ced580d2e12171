import Peripheral.Neighbor.Table
import Peripheral.Proofs.Neighbor.Groups
import Peripheral.Proofs.Neighbor.Sentence
import Peripheral.Proofs.Text.Utf8

/-
  Peripheral.Proofs.Neighbor.Table — whatever way a system shows its neighbour table, the table
  is read entry by entry.

  Each source is read in the form that it comes in (`Shows.table_eq`): what `ip` or `arp` prints, or
  the file of the kernel, whose line of titles is no entry. A table that cannot be read is as good
  as an empty one to those who look an address up (`lookup?_eq`).
-/

namespace Peripheral.Neighbor

variable {os : System} {es : List Entry} {ls : List String} {P : Entry → String → Prop} {read : String → Option Entry}
  {argument output : String}

/-- The line in columns of an entry. -/
inductive IsColumnLine : Entry → String → Prop
  | intro {ip : Address} {flags : UInt32} {mac : Mac} {device line : String} {ws : List String}
      (hform : IsColumnForm ip flags mac device ws) (hline : Text.AreWordsOf ws line) :
      IsColumnLine ⟨ip, some mac, device, State.ofFlags flags.toNat⟩ line

/-- The sentence of an entry. -/
inductive IsSentenceOf : Entry → String → Prop
  | intro {ip : Address} {mac : Option Mac} {interface line : String} {further : List String}
      (h : IsSentence ip mac interface further line) :
      IsSentenceOf ⟨ip, mac, interface, State.ofSaid mac further⟩ line

/-- Entries in their order, each on a line of its own, and between them any lines that the reader
    finds nothing in. -/
inductive Lists (P : Entry → String → Prop) (read : String → Option Entry) : List Entry → List String → Prop
  | nil : Lists P read [] []
  | entry {e : Entry} {line : String} {es : List Entry} {ls : List String} (hline : P e line)
      (h : Lists P read es ls) : Lists P read (e :: es) (line :: ls)
  | other {line : String} {es : List Entry} {ls : List String} (hnone : read line = none)
      (h : Lists P read es ls) : Lists P read es (line :: ls)

theorem Lists.filterMap_eq (hread : ∀ e line, P e line → read line = some e) (h : Lists P read es ls) :
    ls.filterMap read = es := by
  induction h with
  | nil => rfl
  | entry hline h ih => rw [List.filterMap_cons_some (hread _ _ hline), ih]
  | other hnone h ih => rw [List.filterMap_cons_none hnone, ih]

/-- The system shows these entries: Linux by `ip`, or if that prints nothing in the file of its
    kernel, another Unix and Windows by `arp`. -/
inductive Shows (os : System) : List Entry → Prop
  | keywords {es : List Entry} {ls : List String} {output : String} (hos : os.platform = .linux)
      (hprinted : os.printed? "ip" ["neigh", "show"] = some output) (hls : Text.AreLinesOf ls output)
      (hes : Tabulates es ls) : Shows os es
  | kernel {es : List Entry} {titles : String} {ls : List String} {text : String} (hos : os.platform = .linux)
      (hnone : os.printed? "ip" ["neigh", "show"] = none) (hfile : os.file "/proc/net/arp" = .ok (Text.Utf8.encode text))
      (hls : Text.AreLinesOf (titles :: ls) text) (hes : Lists IsColumnLine ofColumnLine? es ls) : Shows os es
  | sentences {es : List Entry} {output : String} (hos : os.platform = .unix)
      (hprinted : os.printed? "arp" ["-an"] = some output)
      (hes : Lists IsSentenceOf ofSentence? es (Text.linesOf output)) : Shows os es
  | groups {es : List Entry} {table : List (List String)} {output : String} (hos : os.platform = .windows)
      (hprinted : os.printed? "arp" ["-a"] = some output) (htable : Text.AreWordLinesOf table output)
      (hes : AreGroups es table) : Shows os es

theorem printedByArp_eq_ok (h : os.printed? "arp" [argument] = some output) :
    printedByArp os argument = .ok output := by
  unfold System.printed? at h
  unfold printedByArp
  split at h
  · rename_i e hrun
    split at h
    · rename_i hsucceeded
      cases h
      rw [hrun]
      exact if_pos hsucceeded
    · cases h
  · cases h

/-- The titles are no part of the table. -/
theorem kernelTable_eq_ok {titles text : String} (hfile : os.file "/proc/net/arp" = .ok (Text.Utf8.encode text))
    (hls : Text.AreLinesOf (titles :: ls) text) : kernelTable os = .ok (ls.filterMap ofColumnLine?) := by
  have hwords : ofColumnLine? = ofColumns? ∘ Text.wordsOf := rfl
  have hrows : ((Text.linesOf text).drop 1).map Text.wordsOf = ls.map Text.wordsOf := by
    rw [List.map_drop, Text.map_wordsOf_linesOf hls]
    rfl
  have hread : kernelTable os = .ok (((Text.linesOf text).drop 1).filterMap ofColumnLine?) := by
    simp only [kernelTable, hfile, Except.mapError, bind, Except.bind, Text.Utf8.decode?_encode]
    rfl
  rw [hread, hwords, ← List.filterMap_map, hrows, List.filterMap_map]

/-- The table that is read is the one that is shown. -/
theorem Shows.table_eq (h : Shows os es) : table os = .ok es := by
  unfold table
  cases h with
  | keywords hos hprinted hls hes =>
    rw [hos, hprinted]
    exact congrArg Except.ok ((ofKeywordLines_eq hls).trans hes.filterMap_eq)
  | kernel hos hnone hfile hls hes =>
    have hread : ∀ e line, IsColumnLine e line → ofColumnLine? line = some e := by
      intro e line h
      cases h with
      | intro hform hline => exact ofColumnLine?_eq_some hform hline
    rw [hos, hnone, ← hes.filterMap_eq hread]
    exact kernelTable_eq_ok hfile hls
  | sentences hos hprinted hes =>
    have hread : ∀ e line, IsSentenceOf e line → ofSentence? line = some e := by
      intro e line h
      cases h with
      | intro h => exact ofSentence?_eq_some h
    rw [hos, printedByArp_eq_ok hprinted, ← hes.filterMap_eq hread]
    rfl
  | groups hos hprinted htable hes =>
    rw [hos, printedByArp_eq_ok hprinted, ← (ofGroups_eq htable).trans (hes.ofGroupWords_eq "")]
    rfl

/-- A table that cannot be read has no entry. -/
theorem lookup?_eq (os : System) (ip : Address) : lookup? os ip = lookupMac ((table os).toOption.getD []) ip := by
  unfold lookup?
  cases table os <;> rfl

end Peripheral.Neighbor
