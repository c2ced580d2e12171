import Peripheral.Proofs.Neighbor.Keyword

/-
  Peripheral.Proofs.Neighbor.Groups — a table in groups is read back entry by entry, each entry
  with the address of its own header as interface.

  The reader carries the interface from line to line. A header sets it (`IsHeader`), the line of
  an entry gives the entry and keeps it (`IsRow`), and every other line does neither
  (`IsIdle`): these three cases of `groupLine` are all there are. So the entries below a header are
  those up to the next one (`AreRows.ofGroupWords_append`), and a line is without effect on all
  tables just if it is idle (`isIdle_iff`). Blank lines and column titles are.
-/

namespace Peripheral.Neighbor

variable {interface address kind : String} {ws : List String} {before after rows table : List (List String)}
  {e : Entry} {es : List Entry} {state : State}

/-! ## (1) Lines -/

/-- The kind of an entry tells its state. A word that is no kind leaves it unknown. -/
inductive IsKind : String → State → Prop
  | static : IsKind "static" .permanent
  | dynamic : IsKind "dynamic" .reachable
  | other {kind : String} (hstatic : kind ≠ "static") (hdynamic : kind ≠ "dynamic") : IsKind kind .unknown

/-- The words of a line that opens the group of an interface: `Interface: ADDRESS --- INDEX`. What
    follows the address does not count. -/
def IsHeader (address : String) (ws : List String) : Prop := ∃ rest, ws = "Interface:" :: address :: rest

/-- The words of an entry's line in the group of an interface: `IP MAC KIND`. -/
inductive IsRow (interface : String) : Entry → List String → Prop
  | intro {ip : Address} {mac : Mac} {state : State} {ipWord macWord kind : String}
      (hip : Address.ofText? ipWord = some ip) (hmac : Mac.ofText? macWord = some mac) (hkind : IsKind kind state) :
      IsRow interface ⟨ip, some mac, interface, state⟩ [ipWord, macWord, kind]

/-- Neither the words of a header nor those of an entry. -/
def IsIdle (ws : List String) : Prop :=
  (∀ address, ¬ IsHeader address ws) ∧ ∀ interface e, ¬ IsRow interface e ws

theorem isKind_iff : IsKind kind state ↔ State.ofKind kind = state := by
  constructor
  · rintro (_ | _ | ⟨hstatic, hdynamic⟩)
    · rfl
    · rfl
    · unfold State.ofKind
      split
      · contradiction
      · contradiction
      · rfl
  · rintro rfl
    unfold State.ofKind
    split
    · exact .static
    · exact .dynamic
    · rename_i hstatic hdynamic
      exact .other hstatic hdynamic

theorem isIdle_nil : IsIdle [] := ⟨nofun, nofun⟩

/-- Column titles are idle if there are not as many of them as words in an entry. -/
theorem isIdle_of_length (hfirst : ws.head? ≠ some "Interface:") (hlength : ws.length ≠ 3) : IsIdle ws := by
  constructor
  · rintro address ⟨rest, rfl⟩
    exact hfirst rfl
  · rintro interface e ⟨-, -, -⟩
    exact hlength rfl

theorem IsHeader.groupLine_eq (h : IsHeader address ws) (interface : String) :
    groupLine interface ws = (address, none) := by
  obtain ⟨rest, rfl⟩ := h
  simp [groupLine]

theorem IsRow.groupLine_eq (h : IsRow interface e ws) : groupLine interface ws = (interface, some e) := by
  obtain ⟨hip, hmac, hkind⟩ := h
  have hfirst : _ ≠ "Interface:" := ne_of_ofText? hip (by decide)
  simp [groupLine, hip, hmac, isKind_iff.mp hkind]

theorem IsIdle.groupLine_eq (h : IsIdle ws) (interface : String) : groupLine interface ws = (interface, none) := by
  obtain ⟨hheader, hrow⟩ := h
  unfold groupLine
  split
  · exact absurd ⟨_, rfl⟩ (hheader _)
  · split
    · rename_i hip hmac
      exact absurd (.intro hip hmac (isKind_iff.mpr rfl)) (hrow interface _)
    · rfl
  · rfl

/-! ## (2) Tables -/

/-- What `ofGroupLines` reads, from the words of the lines. -/
def ofGroupWords (interface : String) : List (List String) → List Entry
  | [] => []
  | ws :: table => (groupLine interface ws).2.toList ++ ofGroupWords (groupLine interface ws).1 table

theorem ofGroupLines_eq (interface : String) (ls : List String) :
    ofGroupLines interface ls = ofGroupWords interface (ls.map Text.wordsOf) := by
  induction ls generalizing interface with
  | nil => rfl
  | cons line ls ih =>
    have hstep : ofGroupLines interface (line :: ls) = (groupLine interface (Text.wordsOf line)).2.toList ++
        ofGroupLines (groupLine interface (Text.wordsOf line)).1 ls := rfl
    rw [hstep, ih, List.map_cons, ofGroupWords]

theorem ofGroups_eq {output : String} (h : Text.AreWordLinesOf table output) :
    ofGroups output = ofGroupWords "" table := by
  rw [ofGroups, ofGroupLines_eq, Text.areWordLinesOf_iff.mp h]

/-- The lines below the header of an interface: its entries in their order, and between them any
    lines that are idle. -/
inductive AreRows (interface : String) : List Entry → List (List String) → Prop
  | nil : AreRows interface [] []
  | row {e : Entry} {ws : List String} {es : List Entry} {rows : List (List String)} (hrow : IsRow interface e ws)
      (h : AreRows interface es rows) : AreRows interface (e :: es) (ws :: rows)
  | idle {ws : List String} {es : List Entry} {rows : List (List String)} (hidle : IsIdle ws)
      (h : AreRows interface es rows) : AreRows interface es (ws :: rows)

/-- The lines of a table: groups one after the other, each with idle lines in front, a header and
    the rows of its address. -/
inductive AreGroups : List Entry → List (List String) → Prop
  | nil : AreGroups [] []
  | group {address : String} {before rows table : List (List String)} {header : List String} {es rest : List Entry}
      (hbefore : ∀ ws ∈ before, IsIdle ws) (hheader : IsHeader address header) (hrows : AreRows address es rows)
      (h : AreGroups rest table) : AreGroups (es ++ rest) (before ++ header :: (rows ++ table))

theorem AreRows.ofGroupWords_append (h : AreRows interface es rows) (table : List (List String)) :
    ofGroupWords interface (rows ++ table) = es ++ ofGroupWords interface table := by
  induction h with
  | nil => rfl
  | row hrow h ih =>
    rw [List.cons_append, ofGroupWords, hrow.groupLine_eq, ih, Option.toList_some, List.singleton_append,
      List.cons_append]
  | idle hidle h ih =>
    rw [List.cons_append, ofGroupWords, hidle.groupLine_eq, ih, Option.toList_none, List.nil_append]

theorem areRows_of_idle (h : ∀ ws ∈ rows, IsIdle ws) (interface : String) : AreRows interface [] rows := by
  induction rows with
  | nil => exact .nil
  | cons ws rows ih => exact .idle (h ws List.mem_cons_self) (ih fun v hv => h v (List.mem_cons_of_mem ws hv))

/-- The interface in front of the first header goes to no entry. -/
theorem AreGroups.ofGroupWords_eq (h : AreGroups es table) (interface : String) :
    ofGroupWords interface table = es := by
  induction h generalizing interface with
  | nil => rfl
  | group hbefore hheader hrows h ih =>
    rw [(areRows_of_idle hbefore interface).ofGroupWords_append, List.nil_append, ofGroupWords, hheader.groupLine_eq,
      Option.toList_none, List.nil_append, hrows.ofGroupWords_append, ih]

theorem IsIdle.ofGroupWords_append (h : IsIdle ws) (interface : String) (before after : List (List String)) :
    ofGroupWords interface (before ++ ws :: after) = ofGroupWords interface (before ++ after) := by
  induction before generalizing interface with
  | nil => rw [List.nil_append, ofGroupWords, h.groupLine_eq, Option.toList_none, List.nil_append, List.nil_append]
  | cons v before ih => rw [List.cons_append, ofGroupWords, ih, List.cons_append, ofGroupWords]

/-- No line but an idle one can be put into every table, or taken from it, without a change. A
    header shows in the entry below it, and an entry by itself. -/
theorem isIdle_iff : IsIdle ws ↔ ∀ interface before after,
    ofGroupWords interface (before ++ ws :: after) = ofGroupWords interface (before ++ after) := by
  refine ⟨IsIdle.ofGroupWords_append, fun h => ⟨fun address hheader => ?_, fun interface e hrow => ?_⟩⟩
  · have hrow : ∀ interface, IsRow interface ⟨.ofSegments .v4 [0, 0, 0, 0], some .zero, interface, .permanent⟩
        ["0.0.0.0", "0:0:0:0:0:0", "static"] := fun _ => .intro (by decide) (by decide) .static
    have hsame := h (address ++ "x") [] [["0.0.0.0", "0:0:0:0:0:0", "static"]]
    simp [ofGroupWords, hheader.groupLine_eq, (hrow _).groupLine_eq] at hsame
    exact absurd (congrArg String.length hsame) (by simp)
  · have hsame := h interface [] []
    simp [ofGroupWords, hrow.groupLine_eq] at hsame

/-- Every entry of a table in groups is read, in order, with the address of its own header and the
    state of its kind; and a line that is neither a header nor an entry is as good as absent,
    wherever it stands in whatever text. -/
theorem groups_are_read_back :
    (∀ es table output, AreGroups es table → Text.AreWordLinesOf table output → ofGroups output = es) ∧
      ∀ before ws after output rest, IsIdle ws → Text.AreWordLinesOf (before ++ ws :: after) output →
        Text.AreWordLinesOf (before ++ after) rest → ofGroups output = ofGroups rest := by
  constructor
  · intro es table output hes houtput
    rw [ofGroups_eq houtput, hes.ofGroupWords_eq]
  · intro before ws after output rest hidle houtput hrest
    rw [ofGroups_eq houtput, ofGroups_eq hrest, hidle.ofGroupWords_append]

/-- Two groups. A line of the second one is cut off, and is read as if it were not there. -/
theorem second_group_is_read :
    let first := "\r\nInterface: 192.168.1.10 --- 0x5\r\n  Internet Address   Physical Address   Type\r\n" ++
      "  192.168.1.1  00-1b-44-11-3a-b7  dynamic\r\n"
    let second := "\nInterface: fe80::9 --- 0x7\n"
    let back := "192.168.1.255 \t ff-ff-ff-ff-ff-ff  static \n"
    let before := [[], ["Interface:", "192.168.1.10", "---", "0x5"],
      ["Internet", "Address", "Physical", "Address", "Type"], ["192.168.1.1", "00-1b-44-11-3a-b7", "dynamic"]] ++
      [[], ["Interface:", "fe80::9", "---", "0x7"]]
    let cut := ["192.168.1.7", "00-1b-44"]
    let after := [["192.168.1.255", "ff-ff-ff-ff-ff-ff", "static"]]
    let es := [⟨.ofSegments .v4 [192, 168, 1, 1], some (.ofNats [0x00, 0x1b, 0x44, 0x11, 0x3a, 0xb7]), "192.168.1.10",
      .reachable⟩, ⟨.ofSegments .v4 [192, 168, 1, 255], some (.ofNats [255, 255, 255, 255, 255, 255]), "fe80::9",
      .permanent⟩]
    AreGroups es (before ++ after) ∧ Text.AreWordLinesOf (before ++ after) (first ++ second ++ back) ∧
      IsIdle cut ∧
      Text.AreWordLinesOf (before ++ cut :: after) (first ++ second ++ ("192.168.1.7 00-1b-44\n" ++ back)) ∧
      ofGroups (first ++ second ++ back) = es ∧
      ofGroups (first ++ second ++ ("192.168.1.7 00-1b-44\n" ++ back)) = es := by
  intro first second back before cut after es
  have hblank : ∀ ws ∈ [([] : List String)], IsIdle ws := by simpa using isIdle_nil
  have htitles : IsIdle ["Internet", "Address", "Physical", "Address", "Type"] :=
    isIdle_of_length (by decide) (by decide)
  have hcut : IsIdle cut := isIdle_of_length (by decide) (by decide)
  have hdynamic : AreRows "192.168.1.10" [es[0]]
      [["Internet", "Address", "Physical", "Address", "Type"], ["192.168.1.1", "00-1b-44-11-3a-b7", "dynamic"]] :=
    .idle htitles (.row (.intro (by decide) (by decide) .dynamic) .nil)
  have hstatic : AreRows "fe80::9" [es[1]] after := .row (.intro (by decide) (by decide) .static) .nil
  have hes : AreGroups es (before ++ after) :=
    .group hblank ⟨["---", "0x5"], rfl⟩ hdynamic (.group hblank ⟨["---", "0x7"], rfl⟩ hstatic .nil)
  have hbefore : Text.AreWordLinesOf before (first ++ second) :=
    .append (Text.areWordLinesOf_iff.mpr (by decide +kernel)) (by decide +kernel)
      (Text.areWordLinesOf_iff.mpr (by decide +kernel))
  have hfeed : (first ++ second).toList.getLast? = some '\n' := by
    rw [String.toList_append]
    decide +kernel
  have hafter : Text.AreWordLinesOf after back := Text.areWordLinesOf_iff.mpr (by decide +kernel)
  have hlonger : Text.AreWordLinesOf ([cut] ++ after) ("192.168.1.7 00-1b-44\n" ++ back) :=
    .append (Text.areWordLinesOf_iff.mpr (by decide +kernel)) (by decide +kernel) hafter
  obtain ⟨hread, hskip⟩ := groups_are_read_back
  have hshort := hbefore.append hfeed hafter
  have hlong := hbefore.append hfeed hlonger
  have hback : ofGroups (first ++ second ++ back) = es := hread es _ _ hes hshort
  exact ⟨hes, hshort, hcut, hlong, hback, (hskip before cut after _ _ hcut hlong hshort).trans hback⟩

end Peripheral.Neighbor
