import Peripheral.Proofs.Toml.Scalar

/-
  Peripheral.Proofs.Toml.RoundTrip — reading back a settings file.

  What is written is read back (`ofText?_text?`), if it is a document: all names are bare, no
  name is given twice in a table, and no list of tables is empty, for nothing is written of an
  empty one.

  The reader goes from line to line and keeps the tables so far, so what is proved of a part of
  a file is which tables it leads from and to, whatever comes after it (`Leads`). The table that
  is being filled is always the last one: a header adds it (`open?_new`, `push?_new`,
  `push?_last`) and every line adds an entry to it (`within?_last`). Its lines are read the same
  way whether it has a header of its own or a repeated one (`Holder`).
-/

namespace Peripheral.Toml

/-- Among different names the next one is none of those before it. -/
theorem not_mem_front {name : String} {front rest : List String} (h : (front ++ name :: rest).Nodup) :
    name ∉ front := by
  intro hmem
  exact (List.nodup_append.mp h).2.2 name hmem name List.mem_cons_self rfl

/-! ## (1) The last table -/

section Last

variable {name : String} {es : Entries} {v : Value}

theorem alter?_new (change : Option Value → Option Value) (hname : name ∉ es.map Prod.fst) :
    alter? name change es = (change none).map fun v => es ++ [(name, v)] := by
  induction es with
  | nil => rfl
  | cons e es ih =>
    rw [List.map_cons, List.mem_cons, not_or] at hname
    rw [alter?, if_neg (Ne.symm hname.1), ih hname.2]
    cases change none <;> rfl

theorem alter?_last (change : Option Value → Option Value) (hname : name ∉ es.map Prod.fst) :
    alter? name change (es ++ [(name, v)]) = (change (some v)).map fun v => es ++ [(name, v)] := by
  induction es with
  | nil => simp [alter?]
  | cons e es ih =>
    rw [List.map_cons, List.mem_cons, not_or] at hname
    rw [List.cons_append, alter?, if_neg (Ne.symm hname.1), ih hname.2]
    cases change (some v) <;> rfl

theorem add?_new (hname : name ∉ es.map Prod.fst) : add? v [name] es = some (es ++ [(name, v)]) := by
  rw [add?, alter?_new _ hname]
  rfl

theorem open?_new (hname : name ∉ es.map Prod.fst) : open? [name] es = some (es ++ [(name, .table .explicit [])]) :=
  alter?_new _ hname

theorem push?_new (hname : name ∉ es.map Prod.fst) : push? [name] es = some (es ++ [(name, .tables [[]])]) :=
  alter?_new _ hname

theorem push?_last (hname : name ∉ es.map Prod.fst) (elements : List Entries) :
    push? [name] (es ++ [(name, .tables elements)]) = some (es ++ [(name, .tables (elements ++ [[]]))]) :=
  alter?_last _ hname

/-- A value that holds the table being filled. -/
inductive Holder : (Entries → Value) → Prop
  | table : Holder (.table .explicit)
  | last (elements : List Entries) : Holder fun es => .tables (elements ++ [es])

theorem within?_last {hold : Entries → Value} (hhold : Holder hold) (change : Entries → Option Entries)
    (hname : name ∉ es.map Prod.fst) (filled : Entries) :
    within? change [name] (es ++ [(name, hold filled)]) =
      (change filled).map fun filled => es ++ [(name, hold filled)] := by
  rw [within?, alter?_last _ hname]
  cases hhold with
  | table => cases h : change filled <;> simp [within?, h]
  | last elements => cases h : change filled <;> simp [within?, alterLast?, h]

end Last

/-! ## (2) Lines -/

/-- Reading a part of a file leads from one document to another, whatever comes after it. -/
def Leads (d : Document) (text : List Char) (d' : Document) : Prop :=
  ∃ lines ≤ text.length, ∀ fuel rest, statements? (fuel + lines) d (text ++ rest) = statements? fuel d' rest

section Parts

variable {d d' d'' : Document} {text text' : List Char} {name : String}

theorem Leads.refl (d : Document) : Leads d [] d := ⟨0, Nat.le_refl 0, fun _ _ => rfl⟩

theorem Leads.trans (h : Leads d text d') (h' : Leads d' text' d'') : Leads d (text ++ text') d'' := by
  obtain ⟨n, hn, hread⟩ := h
  obtain ⟨m, hm, hread'⟩ := h'
  refine ⟨m + n, by rw [List.length_append]; omega, ?_⟩
  intro fuel rest
  rw [List.append_assoc, ← Nat.add_assoc, hread, hread']

/-- A free line says nothing. -/
theorem leads_free (d : Document) : Leads d ['\n'] d := ⟨1, Nat.le_refl 1, fun _ _ => rfl⟩

/-- A line begins with a bracket or a name. -/
def IsLineStart (c : Char) : Prop := c = '[' ∨ isBareKeyChar c = true

theorem IsLineStart.ne {c e : Char} (hc : IsLineStart c) (he : e ≠ '[' ∧ isBareKeyChar e = false) : c ≠ e := by
  rcases hc with rfl | hbare
  · exact he.1.symm
  · exact ne_of_test hbare he.2

theorem Leads.of_statement {c : Char} (hc : IsLineStart c)
    (h : ∀ rest, statement? d (c :: (text ++ rest)) = some (d', rest)) : Leads d (c :: text) d' := by
  have hblank : c ≠ ' ' := hc.ne (by decide)
  have htab : c ≠ '\t' := hc.ne (by decide)
  have hcomment : c ≠ '#' := hc.ne (by decide)
  have hfeed : c ≠ '\n' := hc.ne (by decide)
  have hreturn : c ≠ '\r' := hc.ne (by decide)
  refine ⟨1, by simp, ?_⟩
  intro fuel rest
  rw [List.cons_append, statements?, skipSpace_cons (by simp [isSpace, hblank, htab])]
  simp [hcomment, hfeed, hreturn, h]

theorem lineRest?_feed (s : List Char) : lineRest? ('\n' :: s) = some s := rfl

theorem statement?_name {c : Char} (hc : c ≠ '[') (s : List Char) :
    statement? d (c :: s) = assignment? d (c :: s) := by
  unfold statement?
  split <;> simp_all

/-- A line with a name and a value. -/
theorem leads_assignment {j : Json} (hname : IsBare name) (hj : writeValue? j = some text) :
    ∃ v, v.toJson = j ∧ ∀ {path root root'}, within? (add? v [name]) path root = some root' →
      Leads ⟨root, path⟩ (name.toList ++ ' ' :: '=' :: ' ' :: (text ++ ['\n'])) ⟨root', path⟩ := by
  obtain ⟨v, hv, hread⟩ := value?_write hj
  obtain ⟨x, s, hs, hx⟩ := writeValue?_head hj
  obtain ⟨c, t, ht, hc⟩ := hname.head
  refine ⟨v, hv, ?_⟩
  intro path root root' hroot
  have hassignment : ∀ rest, assignment? ⟨root, path⟩ (name.toList ++ ' ' :: '=' :: ' ' :: (text ++ '\n' :: rest)) =
      some (⟨root', path⟩, rest) := by
    intro rest
    have hkey : key? (depthLimit - 1) (name.toList ++ ' ' :: '=' :: ' ' :: (text ++ '\n' :: rest)) =
        some ([name], '=' :: ' ' :: (text ++ '\n' :: rest)) :=
      key?_bare hname 78 (by simp [isBareKeyChar, isDigit]) (by simp [skipSpace, isSpace])
    have hspace : skipSpace (' ' :: (text ++ '\n' :: rest)) = text ++ '\n' :: rest := by
      rw [hs]
      exact skipSpace_cons hx.not_isSpace _
    simp [assignment?, hkey, char?, hspace, hread, lineRest?_feed, hroot]
  rw [ht]
  refine .of_statement (.inr hc) fun rest => ?_
  rw [statement?_name (ne_of_test hc (by decide))]
  have hread := hassignment rest
  rw [ht] at hread
  simpa using hread

/-- The lines of a table add its members. -/
theorem leads_lines {hold : Entries → Value} (hhold : Holder hold) {root : Entries} (hname : name ∉ root.map Prod.fst)
    {members : List (String × Json)} (hbare : ∀ m ∈ members, IsBare m.1) (h : writeLines? members = some text)
    {es : Entries} (hes : (es.map Prod.fst ++ members.map Prod.fst).Nodup) :
    ∃ new, entriesToJson new = members ∧
      Leads ⟨root ++ [(name, hold es)], [name]⟩ text ⟨root ++ [(name, hold (es ++ new))], [name]⟩ := by
  induction members generalizing text es with
  | nil =>
    cases h
    exact ⟨[], rfl, by rw [List.append_nil]; exact .refl _⟩
  | cons m members ih =>
    obtain ⟨key, j⟩ := m
    obtain ⟨hkey, hmore⟩ := List.forall_mem_cons.mp hbare
    simp only [writeLines?, Option.bind_eq_bind, Option.bind_eq_some_iff] at h
    obtain ⟨value, hvalue, lines, hlines, htext⟩ := h
    cases htext
    obtain ⟨v, hv, hassign⟩ := leads_assignment hkey hvalue
    have hfresh : key ∉ es.map Prod.fst := not_mem_front hes
    have hnext : ((es ++ [(key, v)]).map Prod.fst ++ members.map Prod.fst).Nodup := by
      simpa using hes
    obtain ⟨new, hnew, hlead⟩ := ih hmore hlines hnext
    refine ⟨(key, v) :: new, by rw [entriesToJson, hv, hnew], ?_⟩
    have hadd : within? (add? v [key]) [name] (root ++ [(name, hold es)]) =
        some (root ++ [(name, hold (es ++ [(key, v)]))]) := by
      rw [within?_last hhold _ hname, add?_new hfresh]
      rfl
    have hall := (hassign hadd).trans hlead
    simpa using hall

/-! ## (3) Headers -/

theorem word?_front (w : String) (s : List Char) : word? w (w.toList ++ s) = some s := by
  have hprefix : w.toList.isPrefixOf (w.toList ++ s) = true := List.isPrefixOf_iff_prefix.mpr (List.prefix_append _ _)
  rw [word?, if_pos hprefix, ← String.length_toList, List.drop_left]

theorem header?_bare {close : String} {t : List Char} (hclose : close.toList = ']' :: t) (hname : IsBare name)
    {enter : List String → Entries → Option Entries} {root' : Entries} (henter : enter [name] d.root = some root')
    (rest : List Char) :
    header? close enter d (name.toList ++ (close.toList ++ '\n' :: rest)) = some (⟨root', [name]⟩, rest) := by
  have hspace : skipSpace (close.toList ++ '\n' :: rest) = close.toList ++ '\n' :: rest := by
    rw [hclose]
    exact skipSpace_cons (by decide) _
  have hkey : key? (depthLimit - 1) (name.toList ++ (close.toList ++ '\n' :: rest)) =
      some ([name], close.toList ++ '\n' :: rest) := by
    have hdot : ∀ c ∈ (skipSpace (close.toList ++ '\n' :: rest)).head?, c ≠ '.' := by
      rw [hspace, hclose]
      simp
    have hread := key?_bare hname 78 (by simp [hclose, isBareKeyChar, isDigit]) hdot
    rwa [hspace] at hread
  simp [header?, hkey, word?_front, lineRest?_feed, henter]

/-- The header of a new table. -/
theorem leads_open (hname : IsBare name) {root : Entries} (hnew : name ∉ root.map Prod.fst) (path : List String) :
    Leads ⟨root, path⟩ ('[' :: (name.toList ++ [']', '\n'])) ⟨root ++ [(name, .table .explicit [])], [name]⟩ := by
  obtain ⟨c, s, hs, hc⟩ := hname.head
  have hbracket : c ≠ '[' := ne_of_test hc (by decide)
  have hclose : "]".toList = [']'] := rfl
  refine .of_statement (.inl rfl) fun rest => ?_
  have hheader := @header?_bare ⟨root, path⟩ name "]" _ hclose hname open? _ (open?_new hnew) rest
  have hstatement : statement? ⟨root, path⟩ ('[' :: (name.toList ++ ']' :: '\n' :: rest)) =
      header? "]" open? ⟨root, path⟩ (name.toList ++ ']' :: '\n' :: rest) := by
    rw [hs, List.cons_append]
    unfold statement?
    split <;> simp_all
  rw [List.append_assoc]
  exact hstatement.trans hheader

/-- A repeated header adds one more table. -/
theorem leads_push (hname : IsBare name) {root root' : Entries} (hpush : push? [name] root = some root')
    (path : List String) :
    Leads ⟨root, path⟩ ('[' :: '[' :: (name.toList ++ [']', ']', '\n'])) ⟨root', [name]⟩ := by
  have hclose : "]]".toList = [']', ']'] := rfl
  refine .of_statement (.inl rfl) fun rest => ?_
  have hheader := @header?_bare ⟨root, path⟩ name "]]" _ hclose hname push? _ hpush rest
  rw [List.cons_append, List.append_assoc]
  exact hheader

/-! ## (4) Tables -/

/-- The names of a table are bare and different. -/
def IsTable : Json → Prop
  | .obj members => (members.map Prod.fst).Nodup ∧ ∀ m ∈ members, IsBare m.1
  | _ => False

theorem leads_table {hold : Entries → Value} (hhold : Holder hold) {root : Entries} (hname : name ∉ root.map Prod.fst)
    {header : List Char} (hheader : Leads d (header ++ ['\n']) ⟨root ++ [(name, hold [])], [name]⟩) {j : Json}
    (hj : IsTable j) (h : writeTable? header j = some text) :
    ∃ es, .obj (entriesToJson es) = j ∧ Leads d text ⟨root ++ [(name, hold es)], [name]⟩ := by
  cases j with
  | obj members =>
    obtain ⟨lines, hlines, htext⟩ := Option.map_eq_some_iff.mp h
    have hdistinct : (([] : Entries).map Prod.fst ++ members.map Prod.fst).Nodup := hj.1
    obtain ⟨es, hes, hlead⟩ := leads_lines hhold hname hj.2 hlines hdistinct
    refine ⟨es, by rw [hes], ?_⟩
    rw [← htext]
    simpa using hheader.trans hlead
  | _ => exact hj.elim

/-- Tables with a free line between them, each under a header. -/
inductive Follows : Document → List (List Char) → Document → Prop
  | none (d : Document) : Follows d [] d
  | table {d d' d'' : Document} {text : List Char} {more : List (List Char)} (hstart : text.head? = some '[')
      (h : Leads d text d') (hmore : Follows d' more d'') : Follows d (text :: more) d''

theorem Follows.append {ts ts' : List (List Char)} (h : Follows d ts d') (h' : Follows d' ts' d'') :
    Follows d (ts ++ ts') d'' := by
  induction h with
  | none d => exact h'
  | table hstart hlead _ ih => exact .table hstart hlead (ih h')

theorem Follows.leads {ts : List (List Char)} (h : Follows d ts d') : Leads d (['\n'].intercalate ts) d' := by
  induction h with
  | none d => exact .refl d
  | table hstart hlead hmore ih =>
    cases hmore with
    | none => simpa using hlead
    | table =>
      rw [List.intercalate_cons_cons]
      exact (hlead.trans (leads_free _)).trans ih

/-- A file with tables begins with a header. -/
theorem Follows.head? {ts : List (List Char)} (h : Follows d ts d') :
    ∀ c ∈ (['\n'].intercalate ts).head?, c = '[' := by
  cases h with
  | none => nofun
  | @table _ _ _ text more hstart =>
    have hhead : (['\n'].intercalate (text :: more)).head? = some '[' := by
      cases more with
      | nil => simpa using hstart
      | cons t more => simp [List.intercalate_cons_cons, hstart]
    intro c hc
    rw [hhead] at hc
    cases hc
    rfl

/-! ## (5) Documents -/

/-- The tables of one name: one, or at least one under a repeated header. -/
def IsMember : Json → Prop
  | .arr items => items ≠ [] ∧ ∀ j ∈ items, IsTable j
  | j => IsTable j

/-- The names of a document are bare and different, and every one is that of tables. -/
def IsDocument (members : List (String × Json)) : Prop :=
  (members.map Prod.fst).Nodup ∧ ∀ m ∈ members, IsBare m.1 ∧ IsMember m.2

theorem head?_writeTable? {header : List Char} {j : Json} (hheader : header.head? = some '[')
    (h : writeTable? header j = some text) : text.head? = some '[' := by
  cases j with
  | obj members =>
    obtain ⟨lines, -, rfl⟩ := Option.map_eq_some_iff.mp h
    simp [hheader]
  | _ => cases h

/-- A table under a repeated header. -/
theorem follows_push (hname : IsBare name) {root start : Entries} (hnew : name ∉ root.map Prod.fst)
    {elements : List Entries} (hpush : push? [name] start = some (root ++ [(name, .tables (elements ++ [[]]))]))
    (path : List String) {j : Json} (hj : IsTable j)
    (h : writeTable? ("[[".toList ++ name.toList ++ "]]".toList) j = some text) :
    ∃ es, .obj (entriesToJson es) = j ∧
      Follows ⟨start, path⟩ [text] ⟨root ++ [(name, .tables (elements ++ [es]))], [name]⟩ := by
  have hheader : Leads ⟨start, path⟩ ("[[".toList ++ name.toList ++ "]]".toList ++ ['\n'])
      ⟨root ++ [(name, .tables (elements ++ [[]]))], [name]⟩ := by
    have hlead := leads_push hname hpush path
    simpa using hlead
  obtain ⟨es, hes, hlead⟩ := leads_table (.last elements) hnew hheader hj h
  exact ⟨es, hes, .table (head?_writeTable? rfl h) hlead (.none _)⟩

/-- More tables under the header of the last ones. -/
theorem follows_more (hname : IsBare name) {root : Entries} (hnew : name ∉ root.map Prod.fst) {items : List Json}
    (hitems : ∀ j ∈ items, IsTable j) {ts : List (List Char)}
    (h : items.mapM (writeTable? ("[[".toList ++ name.toList ++ "]]".toList)) = some ts) (elements : List Entries) :
    ∃ new, elementsToJson new = items ∧ Follows ⟨root ++ [(name, .tables elements)], [name]⟩ ts
      ⟨root ++ [(name, .tables (elements ++ new))], [name]⟩ := by
  induction items generalizing ts elements with
  | nil =>
    cases h
    exact ⟨[], rfl, by rw [List.append_nil]; exact .none _⟩
  | cons j items ih =>
    obtain ⟨hj, hmore⟩ := List.forall_mem_cons.mp hitems
    simp only [List.mapM_cons, Option.bind_eq_bind, Option.bind_eq_some_iff] at h
    obtain ⟨t, ht, ts, hts, hall⟩ := h
    cases hall
    obtain ⟨es, hes, hone⟩ := follows_push hname hnew (push?_last hnew elements) [name] hj ht
    obtain ⟨new, hnews, hrest⟩ := ih hmore hts (elements ++ [es])
    refine ⟨es :: new, by rw [elementsToJson, hes, hnews], ?_⟩
    have hall := hone.append hrest
    simpa using hall

/-- The tables of a new name. -/
theorem follows_member (hname : IsBare name) {root : Entries} (hnew : name ∉ root.map Prod.fst) {j : Json}
    (hj : IsMember j) {ts : List (List Char)} (h : writeMember? name j = some ts) (path : List String) :
    ∃ v, v.toJson = j ∧ Follows ⟨root, path⟩ ts ⟨root ++ [(name, v)], [name]⟩ := by
  cases j with
  | obj members =>
    obtain ⟨t, ht, hts⟩ := Option.map_eq_some_iff.mp h
    have hheader : Leads ⟨root, path⟩ ('[' :: name.toList ++ [']'] ++ ['\n'])
        ⟨root ++ [(name, .table .explicit [])], [name]⟩ := by
      have hlead := leads_open hname hnew path
      simpa using hlead
    have htable : IsTable (.obj members) := hj
    obtain ⟨es, hes, hlead⟩ := leads_table .table hnew hheader htable ht
    refine ⟨.table .explicit es, hes, ?_⟩
    rw [← hts]
    exact .table (head?_writeTable? rfl ht) hlead (.none _)
  | arr items =>
    cases items with
    | nil => exact absurd rfl hj.1
    | cons first items =>
      obtain ⟨hfirst, hmore⟩ := List.forall_mem_cons.mp hj.2
      simp only [writeMember?, List.mapM_cons, Option.bind_eq_bind, Option.bind_eq_some_iff] at h
      obtain ⟨t, ht, ts, hts, hall⟩ := h
      cases hall
      obtain ⟨es, hes, hone⟩ := @follows_push _ _ hname root root hnew [] (push?_new hnew) path _ hfirst ht
      obtain ⟨new, hnews, hrest⟩ := follows_more hname hnew hmore hts [es]
      refine ⟨.tables (es :: new), by rw [Value.toJson, elementsToJson, hes, hnews], ?_⟩
      have hall := hone.append hrest
      simpa using hall
  | _ => exact hj.elim

theorem follows_members {members : List (String × Json)} (hmembers : ∀ m ∈ members, IsBare m.1 ∧ IsMember m.2)
    {ts : List (List Char)} (h : writeMembers? members = some ts) (root : Entries) (path : List String)
    (hroot : (root.map Prod.fst ++ members.map Prod.fst).Nodup) :
    ∃ es path', entriesToJson es = members ∧ Follows ⟨root, path⟩ ts ⟨root ++ es, path'⟩ := by
  induction members generalizing ts root path with
  | nil =>
    cases h
    exact ⟨[], path, rfl, by rw [List.append_nil]; exact .none _⟩
  | cons m members ih =>
    obtain ⟨name, j⟩ := m
    obtain ⟨⟨hname, hj⟩, hmore⟩ := List.forall_mem_cons.mp hmembers
    simp only [writeMembers?, Option.bind_eq_bind, Option.bind_eq_some_iff] at h
    obtain ⟨ts, hts, more, hmore', hall⟩ := h
    cases hall
    have hnew : name ∉ root.map Prod.fst := not_mem_front hroot
    obtain ⟨v, hv, hone⟩ := follows_member hname hnew hj hts path
    have hnext : ((root ++ [(name, v)]).map Prod.fst ++ members.map Prod.fst).Nodup := by
      simpa using hroot
    obtain ⟨es, path', hes, hrest⟩ := ih hmore hmore' _ [name] hnext
    refine ⟨(name, v) :: es, path', by rw [entriesToJson, hv, hes], ?_⟩
    have hall := hone.append hrest
    simpa using hall

end Parts

/-- A document is read back from its own text. -/
theorem ofText?_text? {members : List (String × Json)} (hmembers : IsDocument members) {text : String}
    (h : text? (.obj members) = some text) : (ofText? text).map entriesToJson = some members := by
  obtain ⟨ts, hts, htext⟩ := Option.map_eq_some_iff.mp h
  obtain ⟨es, path, hes, hfollows⟩ := follows_members hmembers.2 hts [] [] (by simpa using hmembers.1)
  obtain ⟨lines, hlines, hread⟩ := hfollows.leads
  rw [List.nil_append] at hread
  have hall := hread ((['\n'].intercalate ts).length + 1 - lines) []
  rw [List.append_nil, Nat.sub_add_cancel (by omega)] at hall
  obtain ⟨fuel, hfuel⟩ : ∃ k, (['\n'].intercalate ts).length + 1 - lines = k + 1 :=
    ⟨(['\n'].intercalate ts).length - lines, by omega⟩
  rw [ofText?, ← htext, String.toList_ofList]
  split
  · next s hs =>
    have hmark := hfollows.head? '\uFEFF' (by rw [hs]; rfl)
    exact absurd hmark (by decide)
  · rw [hall, hfuel]
    exact congrArg some hes

/-! ## (6) What can be written -/

theorem isSome_writeValue?_nat (n : Nat) : (writeValue? (.nat n)).isSome = true ↔ n < 2 ^ 63 := by
  unfold writeValue? Json.nat
  dsimp only
  split
  · simp
    omega
  · simp
    omega

theorem isSome_writeLines? {members : List (String × Json)} :
    (writeLines? members).isSome = true ↔ ∀ m ∈ members, (writeValue? m.2).isSome = true := by
  induction members with
  | nil => simp [writeLines?]
  | cons m members ih =>
    rw [List.forall_mem_cons, ← ih, writeLines?]
    cases writeValue? m.2 <;> cases writeLines? members <;> simp

/-- Every value of a table can be written. -/
def HasLines : Json → Prop
  | .obj members => ∀ m ∈ members, (writeValue? m.2).isSome = true
  | _ => False

theorem isSome_writeTable? (header : List Char) (j : Json) : (writeTable? header j).isSome = true ↔ HasLines j := by
  cases j with
  | obj members => rw [writeTable?, Option.isSome_map, isSome_writeLines?, HasLines]
  | _ => simp [writeTable?, HasLines]

/-- Every value of the tables of a name can be written. -/
def IsWritable : Json → Prop
  | .arr items => ∀ j ∈ items, HasLines j
  | j => HasLines j

theorem isSome_mapM {α β : Type} {f : α → Option β} {l : List α} :
    (l.mapM f).isSome = true ↔ ∀ a ∈ l, (f a).isSome = true := by
  induction l with
  | nil => simp
  | cons a l ih =>
    rw [List.forall_mem_cons, ← ih, List.mapM_cons]
    cases f a <;> cases l.mapM f <;> simp

theorem isSome_writeMember? (name : String) (j : Json) : (writeMember? name j).isSome = true ↔ IsWritable j := by
  cases j with
  | arr items =>
    rw [writeMember?, isSome_mapM]
    simp only [isSome_writeTable?, IsWritable]
  | _ => simp [writeMember?, isSome_writeTable?, IsWritable]

/-- A document can be written if every value of its tables can. -/
theorem isSome_text? (members : List (String × Json)) :
    (text? (.obj members)).isSome = true ↔ ∀ m ∈ members, IsWritable m.2 := by
  rw [text?, Option.isSome_map]
  induction members with
  | nil => simp [writeMembers?]
  | cons m members ih =>
    rw [List.forall_mem_cons, ← ih, ← isSome_writeMember? m.1, writeMembers?]
    cases writeMember? m.1 m.2 <;> cases writeMembers? members <;> simp

end Peripheral.Toml
