import Peripheral.Neighbor.Forms
import Peripheral.Proofs.Mac.Spelling
import Peripheral.Proofs.Neighbor.Lookup
import Peripheral.Proofs.Text.Layout
import Peripheral.Proofs.Text.Utf8

/-
  Peripheral.Proofs.Neighbor.Keyword — a table in keyword form is read back entry by entry, and
  the first usable one of an address answers for it.

  A line is `IP dev IFACE [lladdr MAC] FLAGS.. STATE` (`IsKeywordForm`). Everything but the
  address stands behind a keyword or at the end, so a line without hardware address is told
  from one with it as long as no other word is the keyword (`ofKeywordWords?_eq_some`). Lines
  that are no entries stand anywhere between them (`Tabulates`). Of the entries for an address
  those without a hardware address that can be used are passed over (`lookupMac_eq_some_iff`).
-/

namespace Peripheral.Neighbor

variable {key w ipWord macWord stateWord interface line output : String} {front rest ws flags ls : List String}
  {e : Entry} {es table : List Entry} {a ip : Address} {m : Mac} {state : State}

/-! ## (1) Words -/

theorem wordAfter?_cons_of_ne (h : w ≠ key) (ws : List String) : wordAfter? key (w :: ws) = wordAfter? key ws :=
  if_neg h

theorem wordAfter?_cons_self (key : String) (ws : List String) : wordAfter? key (key :: ws) = ws.head? := if_pos rfl

/-- A keyword at the very end has no word after it. -/
theorem wordAfter?_eq_none (hfront : key ∉ front) (w : String) : wordAfter? key (front ++ [w]) = none := by
  induction front with
  | nil =>
    by_cases hw : w = key
    · rw [hw]
      exact wordAfter?_cons_self key []
    · exact wordAfter?_cons_of_ne hw []
  | cons v front ih =>
    rw [List.mem_cons, not_or] at hfront
    rw [List.cons_append, wordAfter?_cons_of_ne (Ne.symm hfront.1), ih hfront.2]

/-- No address reads as a keyword. -/
theorem ne_of_ofText? (h : Address.ofText? w = some a) (hkey : Address.ofText? key = none) : w ≠ key := by
  rintro rfl
  rw [hkey] at h
  cases h

/-- The name of a state in capitals. What is unknown has none. -/
def State.capitals? : State → Option String
  | reachable => some "REACHABLE"
  | stale => some "STALE"
  | delay => some "DELAY"
  | probe => some "PROBE"
  | failed => some "FAILED"
  | incomplete => some "INCOMPLETE"
  | permanent => some "PERMANENT"
  | unknown => none

/-- The word names the state in any case, or names none and the state is unknown. -/
def State.IsNamed (state : State) (word : String) : Prop :=
  match state.capitals? with
  | some name => Text.capitals word = name
  | none => ∀ s : State, s.capitals? ≠ some (Text.capitals word)

theorem State.capitals?_ofWord (w : String) :
    (State.ofWord w).capitals? = some (Text.capitals w) ∨ State.ofWord w = .unknown := by
  unfold State.ofWord
  split
  case h_8 => exact .inr rfl
  all_goals
    rename_i hname
    exact .inl (congrArg some hname.symm)

theorem State.ofWord_eq (h : state.IsNamed w) : State.ofWord w = state := by
  cases state with
  | unknown =>
    have hnone : ∀ s : State, s.capitals? ≠ some (Text.capitals w) := h
    exact (capitals?_ofWord w).resolve_left (hnone _)
  | _ =>
    have hname : Text.capitals w = _ := h
    rw [State.ofWord, hname]
    rfl

/-! ## (2) Lines -/

/-- The words of an entry: its address, its interface behind `dev`, its hardware address behind
    `lladdr` if it has one, flags and its state. -/
inductive IsKeywordForm : Entry → List String → Prop
  | resolved {ip : Address} {mac : Mac} {interface : String} {state : State} {ipWord macWord stateWord : String}
      {flags : List String} (hip : Address.ofText? ipWord = some ip) (hmac : mac.Spells macWord.toList)
      (hinterface : interface ≠ "lladdr") (hflags : "lladdr" ∉ flags) (hstate : state.IsNamed stateWord) :
      IsKeywordForm ⟨ip, some mac, interface, state⟩
        (ipWord :: "dev" :: interface :: "lladdr" :: macWord :: (flags ++ [stateWord]))
  | unresolved {ip : Address} {interface : String} {state : State} {ipWord stateWord : String} {flags : List String}
      (hip : Address.ofText? ipWord = some ip) (hinterface : interface ≠ "lladdr") (hflags : "lladdr" ∉ flags)
      (hstate : state.IsNamed stateWord) :
      IsKeywordForm ⟨ip, none, interface, state⟩ (ipWord :: "dev" :: interface :: (flags ++ [stateWord]))

/-- What four words or more say. -/
theorem ofKeywordWords?_append (a b c : String) (front : List String) (w : String) :
    ofKeywordWords? (a :: b :: c :: (front ++ [w])) = (do
      let ip ← Address.ofText? a
      let interface ← wordAfter? "dev" (a :: b :: c :: (front ++ [w]))
      let mac := (wordAfter? "lladdr" (a :: b :: c :: (front ++ [w]))).bind Mac.ofText?
      some ⟨ip, mac, interface, State.ofWord w⟩) := by
  have hlast : (a :: b :: c :: (front ++ [w])).getLastD "" = w := List.getLastD_concat (l := a :: b :: c :: front)
  obtain ⟨d, rest, hrest⟩ := List.exists_cons_of_ne_nil (List.concat_ne_nil w front)
  rw [hrest] at hlast ⊢
  rw [ofKeywordWords?, hlast]

theorem ofKeywordWords?_eq_some (h : IsKeywordForm e ws) : ofKeywordWords? ws = some e := by
  have hdev : Address.ofText? "dev" = none := by decide
  have hlladdr : Address.ofText? "lladdr" = none := by decide
  cases h with
  | @resolved ip mac interface state ipWord macWord stateWord flags hip hmac hinterface hflags hstate =>
    have hwords := ofKeywordWords?_append ipWord "dev" interface ("lladdr" :: macWord :: flags) stateWord
    rw [List.cons_append, List.cons_append] at hwords
    rw [hwords, hip, wordAfter?_cons_of_ne (ne_of_ofText? hip hdev), wordAfter?_cons_self,
      wordAfter?_cons_of_ne (ne_of_ofText? hip hlladdr), wordAfter?_cons_of_ne (by decide),
      wordAfter?_cons_of_ne hinterface, wordAfter?_cons_self, State.ofWord_eq hstate]
    simp [hmac.ofText? hmac.trim]
  | @unresolved ip interface state ipWord stateWord flags hip hinterface hflags hstate =>
    have hnone : wordAfter? "lladdr" (ipWord :: "dev" :: interface :: flags ++ [stateWord]) = none :=
      wordAfter?_eq_none (by simp [hflags, hinterface.symm, (ne_of_ofText? hip hlladdr).symm]) stateWord
    rw [ofKeywordWords?_append, hip, wordAfter?_cons_of_ne (ne_of_ofText? hip hdev), wordAfter?_cons_self,
      State.ofWord_eq hstate]
    simp only [List.cons_append] at hnone
    simp [hnone]

/-- The lines of a table: entries in their order, and between them any lines that are none. -/
inductive Tabulates : List Entry → List String → Prop
  | nil : Tabulates [] []
  | entry {e : Entry} {ws : List String} {line : String} {es : List Entry} {ls : List String}
      (hform : IsKeywordForm e ws) (hline : Text.AreWordsOf ws line) (h : Tabulates es ls) :
      Tabulates (e :: es) (line :: ls)
  | other {line : String} {es : List Entry} {ls : List String} (hnone : ofKeywordLine? line = none)
      (h : Tabulates es ls) : Tabulates es (line :: ls)

theorem Tabulates.filterMap_eq (h : Tabulates es ls) : ls.filterMap ofKeywordLine? = es := by
  induction h with
  | nil => rfl
  | @entry e ws line es ls hform hline h ih =>
    have hread : ofKeywordLine? line = some e := by
      rw [ofKeywordLine?, Text.areWordsOf_iff.mp hline, ofKeywordWords?_eq_some hform]
    rw [List.filterMap_cons_some hread, ih]
  | other hnone h ih => rw [List.filterMap_cons_none hnone, ih]

/-- Of a table only the words of its lines count. -/
theorem ofKeywordLines_eq (houtput : Text.AreLinesOf ls output) :
    ofKeywordLines output = ls.filterMap ofKeywordLine? := by
  have hwords : ofKeywordLine? = ofKeywordWords? ∘ Text.wordsOf := rfl
  rw [ofKeywordLines, hwords, ← List.filterMap_map, ← List.filterMap_map, Text.map_wordsOf_linesOf houtput]

/-- A table is read back entry by entry from its bytes, and the first entry of an address that
    did not fail and has a hardware address, a zero one apart, answers for the address. -/
theorem tables_are_read_and_asked {es : List Entry} {ls : List String} {bytes : List UInt8} (hes : Tabulates es ls)
    (hls : Text.AreLinesOf ls (Text.Utf8.decodeLossy bytes)) :
    let table := ofKeywordLines (Text.Utf8.decodeLossy bytes)
    table = es ∧
      (∀ ip m, lookupMac table ip = some m ↔ ∃ before e after,
        es = before ++ e :: after ∧ e.Resolves ip m ∧ ∀ x ∈ before, ∀ n, ¬ x.Resolves ip n) ∧
      (∀ ip, lookupMac table ip = none ↔ ∀ e ∈ es, ∀ m, ¬ e.Resolves ip m) ∧
      ∀ table ip, lookupMac table ip ≠ some .zero := by
  intro table
  have htable : table = es := (ofKeywordLines_eq hls).trans hes.filterMap_eq
  rw [htable]
  exact ⟨rfl, fun ip m => lookupMac_eq_some_iff, fun ip => lookupMac_eq_none_iff, lookupMac_ne_zero⟩

/-- The first entry of the router has no hardware address that counts, and its second one is
    spelled in another way. -/
theorem router_is_found :
    let ls := ["fe80:0::1 dev eth0 lladdr 0:0:0:0:0:0 router STALE", "Dump terminated",
      "fe80::1 dev eth0 lladdr 00:1b:44:11:3a:b7 router REACHABLE ", "192.168.1.9 dev wlan0  INCOMPLETE"]
    let output := "fe80:0::1 dev eth0 lladdr 0:0:0:0:0:0 router STALE\nDump terminated\n" ++
      "fe80::1 dev eth0 lladdr 00:1b:44:11:3a:b7 router REACHABLE \n192.168.1.9 dev wlan0  INCOMPLETE\n"
    let router := Address.ofSegments .v6 [0xfe80, 0, 0, 0, 0, 0, 0, 1]
    let es := [⟨router, some .zero, "eth0", .stale⟩,
      ⟨router, some (.ofNats [0x00, 0x1b, 0x44, 0x11, 0x3a, 0xb7]), "eth0", .reachable⟩,
      ⟨.ofSegments .v4 [192, 168, 1, 9], none, "wlan0", .incomplete⟩]
    Tabulates es ls ∧ Text.AreLinesOf ls (Text.Utf8.decodeLossy (Text.Utf8.encode output)) ∧
      ofKeywordLines (Text.Utf8.decodeLossy (Text.Utf8.encode output)) = es ∧
      lookupMac (ofKeywordLines (Text.Utf8.decodeLossy (Text.Utf8.encode output))) router =
        some (.ofNats [0x00, 0x1b, 0x44, 0x11, 0x3a, 0xb7]) := by
  intro ls output router es
  have hspells : ∀ (w : String) (m : Mac), Mac.ofText? w = some m ∧ '+' ∉ w.toList → Text.trim w.toList = w.toList →
      m.Spells w.toList := fun w m h htrim => htrim ▸ Mac.spells_trim_iff.mpr h
  have hfirst : IsKeywordForm ⟨router, some .zero, "eth0", .stale⟩
      ("fe80:0::1" :: "dev" :: "eth0" :: "lladdr" :: "0:0:0:0:0:0" :: (["router"] ++ ["STALE"])) :=
    .resolved (by decide) (hspells _ _ (by decide) (by decide)) (by decide) (by decide) rfl
  have hsecond : IsKeywordForm
      ⟨router, some (.ofNats [0x00, 0x1b, 0x44, 0x11, 0x3a, 0xb7]), "eth0", .reachable⟩
      ("fe80::1" :: "dev" :: "eth0" :: "lladdr" :: "00:1b:44:11:3a:b7" :: (["router"] ++ ["REACHABLE"])) :=
    .resolved (by decide) (hspells _ _ (by decide) (by decide)) (by decide) (by decide) rfl
  have hthird : IsKeywordForm ⟨.ofSegments .v4 [192, 168, 1, 9], none, "wlan0", .incomplete⟩
      ("192.168.1.9" :: "dev" :: "wlan0" :: ([] ++ ["INCOMPLETE"])) :=
    .unresolved (by decide) (by decide) (by decide) rfl
  have htable : Tabulates es ls :=
    .entry hfirst (Text.areWordsOf_iff.mpr (by decide)) <| .other (by decide) <|
    .entry hsecond (Text.areWordsOf_iff.mpr (by decide)) <|
    .entry hthird (Text.areWordsOf_iff.mpr (by decide)) .nil
  have hlines : Text.AreLinesOf ls (Text.Utf8.decodeLossy (Text.Utf8.encode output)) := by
    have hcut : Text.linesOf output = ls := by decide +kernel
    rw [Text.Utf8.decodeLossy_encode, ← hcut]
    exact Text.areLinesOf_linesOf output
  obtain ⟨hread, hlookup, -, -⟩ := tables_are_read_and_asked htable hlines
  have hresolves : es[1].Resolves router (.ofNats [0x00, 0x1b, 0x44, 0x11, 0x3a, 0xb7]) :=
    ⟨rfl, rfl, by decide, by decide, by decide⟩
  refine ⟨htable, hlines, hread, (hlookup router _).mpr ⟨[es[0]], es[1], [es[2]], rfl, hresolves, ?_⟩⟩
  intro x hx n hzero
  rw [List.mem_singleton.mp hx] at hzero
  exact hzero.ne_zero (Option.some.inj hzero.mac_eq).symm

end Peripheral.Neighbor
