import Peripheral.Proofs.Neighbor.Columns
import Peripheral.Proofs.Neighbor.Keyword
import Peripheral.Proofs.Text.Slice

/-
  Peripheral.Proofs.Neighbor.Sentence — a line written as a sentence is read back, and so is a line
  in columns: both come to the same kind of entry.

  A sentence is `NAME (IP) at MAC on IFACE ..` (`IsSentence`). The name may be anything without an
  opening parenthesis, blanks and text outside ASCII included: the address is found behind the
  first one, and every position that the line is cut at is one that was found (`sentenceAt?_eq`).
  Where no hardware address stands the entry is incomplete, and a word that says it is permanent
  does not change that (`incomplete_before_permanent`).
-/

namespace Peripheral.Neighbor

open Mac (byteLength)
open Text.Slice (between? between?_append byteLength_append byteLength_cons cutAt?_cases find? from? from?_append)

variable {ip : Address} {mac : Option Mac} {m : Mac} {interface macWord line : String} {ws further : List String}

/-! ## (1) Sentences -/

/-- The word for a hardware address, or the one that stands in its place. -/
inductive IsMacWord : Option Mac → String → Prop
  | complete {m : Mac} {word : String} (h : m.Spells word.toList) : IsMacWord (some m) word
  | incomplete : IsMacWord none "(incomplete)"

/-- A name without an opening parenthesis, the address in parentheses, and behind it the words for
    the hardware address and the interface; further words may follow. -/
inductive IsSentence (ip : Address) (mac : Option Mac) (interface : String) (further : List String) : String → Prop
  | intro {name ipText tail macWord : String} (hname : '(' ∉ name.toList) (hip : Address.ofText? ipText = some ip)
      (hmac : IsMacWord mac macWord) (hinterface : interface ≠ "permanent")
      (htail : Text.AreWordsOf ("at" :: macWord :: "on" :: interface :: further) tail) :
      IsSentence ip mac interface further (name ++ "(" ++ ipText ++ ")" ++ tail)

/-- What a sentence says of how far its entry can be trusted. -/
def State.ofSaid (mac : Option Mac) (further : List String) : State :=
  if mac.isNone then .incomplete else if "permanent" ∈ further then .permanent else .reachable

theorem IsMacWord.ofText? (h : IsMacWord mac macWord) : Mac.ofText? macWord = mac := by
  cases h with
  | complete h => exact h.ofText? h.trim
  | incomplete => decide

/-- No such word reads as a keyword. -/
theorem IsMacWord.ne {key : String} (h : IsMacWord mac macWord) (hkey : Mac.ofText? key = none)
    (hplace : key ≠ "(incomplete)") : macWord ≠ key := by
  cases h with
  | complete h =>
    rintro rfl
    exact absurd (hkey.symm.trans (h.ofText? h.trim)) nofun
  | incomplete => exact hplace.symm

theorem ofPredicate?_eq_some (ip : Address) (hmac : IsMacWord mac macWord) (hinterface : interface ≠ "permanent") :
    ofPredicate? ip ("at" :: macWord :: "on" :: interface :: further) =
      some ⟨ip, mac, interface, State.ofSaid mac further⟩ := by
  have hon : wordAfter? "on" ("at" :: macWord :: "on" :: interface :: further) = some interface := by
    have hmacWord : macWord ≠ "on" := hmac.ne (by decide) (by decide)
    rw [wordAfter?_cons_of_ne (by decide), wordAfter?_cons_of_ne hmacWord, wordAfter?_cons_self, List.head?_cons]
  have hmacWord : "permanent" ≠ macWord := (hmac.ne (by decide) (by decide)).symm
  rw [ofPredicate?, wordAfter?_cons_self, hon, State.ofSaid]
  simp [hmac.ofText?, hmacWord, hinterface.symm]

theorem ofSentence?_eq_some (h : IsSentence ip mac interface further line) :
    ofSentence? line = some ⟨ip, mac, interface, State.ofSaid mac further⟩ := by
  obtain @⟨name, ipText, tail, macWord, hname, hip, hmac, hinterface, htail⟩ := h
  have hclose : ')' ∉ ipText.toList := by
    intro hmem
    exact absurd (Address.isWritten_of_ofText hip hmem) (by decide)
  have hline : (name ++ "(" ++ ipText ++ ")" ++ tail).toList =
      name.toList ++ '(' :: (ipText.toList ++ ')' :: tail.toList) := by
    simp
  rw [ofSentence?, hline, Text.cutAt?_append hname]
  simp [Text.cutAt?_append hclose, hip, Text.areWordsOf_iff.mp htail, ofPredicate?_eq_some ip hmac hinterface]

/-- A hardware address that stands in a sentence can be used, the zero one apart. -/
theorem usableMac_of_said : (⟨ip, mac, interface, State.ofSaid mac further⟩ : Entry).usableMac = some m ↔
    mac = some m ∧ m ≠ .zero := by
  rw [Entry.usableMac_eq_some_iff]
  constructor
  · rintro ⟨hmac, hzero, -, -⟩
    exact ⟨hmac, hzero⟩
  · rintro ⟨rfl, hzero⟩
    have hstate : State.ofSaid (some m) further = .permanent ∨ State.ofSaid (some m) further = .reachable := by
      by_cases hpermanent : "permanent" ∈ further
      · exact .inl (if_pos hpermanent)
      · exact .inr (if_neg hpermanent)
    refine ⟨rfl, hzero, ?_, ?_⟩
    all_goals rcases hstate with h | h <;> simp [h]

/-! ## (2) Positions -/

/-- The positions that a line is cut at are in it and not within a character. -/
theorem sentenceAt?_eq (line : String) : sentenceAt? line = some (ofSentence? line) := by
  unfold sentenceAt? ofSentence?
  rcases cutAt?_cases '(' line.toList with ⟨hfind, hcut⟩ | ⟨name, s, hs, hfind, hcut⟩
  · simp [hfind, hcut]
  have htail : from? (byteLength name) line.toList = some ('(' :: s) := by
    rw [hs, from?_append]
  rcases cutAt?_cases ')' s with ⟨hfind', hcut'⟩ | ⟨ip, t, ht, hfind', hcut'⟩
  · have hnone : find? ')' ('(' :: s) = none := by simp [find?, hfind']
    simp [hfind, hcut, hcut', htail, hnone]
  have hopen : '('.utf8Size = 1 := by decide
  have hclose : ')'.utf8Size = 1 := by decide
  have hlength : find? ')' ('(' :: s) = some (1 + byteLength ip) := by simp [find?, hfind', hopen]
  have hip : between? (byteLength name + 1) (byteLength name + (1 + byteLength ip)) line.toList = some ip := by
    have hcut := between?_append (name ++ ['(']) ip (')' :: t)
    simpa [hs, ht, hopen, Nat.add_assoc] using hcut
  have hbehind : from? (byteLength name + (1 + byteLength ip) + 1) line.toList = some t := by
    have hcut := from?_append (name ++ '(' :: (ip ++ [')'])) t
    simpa [hs, ht, hopen, hclose, Nat.add_assoc] using hcut
  cases hread : Address.ofText? (String.ofList ip) <;>
    simp [hfind, hcut, hcut', htail, hlength, hip, hread, hbehind]

/-! ## (3) Both forms -/

theorem State.ofSaid_eq_incomplete_iff : State.ofSaid mac further = .incomplete ↔ mac = none := by
  unfold State.ofSaid
  cases mac with
  | none => simp
  | some m => by_cases h : "permanent" ∈ further <;> simp [h]

theorem State.ofSaid_eq_permanent_iff :
    State.ofSaid mac further = .permanent ↔ mac ≠ none ∧ "permanent" ∈ further := by
  unfold State.ofSaid
  cases mac with
  | none => simp
  | some m => by_cases h : "permanent" ∈ further <;> simp [h]

/-- A line in columns and a sentence are read back as the entries they are written from. What can be
    used of them is a hardware address other than the zero one, in columns only with the flag of a
    complete or a permanent entry. No line makes either reader look for a column that is missing or
    cut at a position that is none. -/
theorem both_forms_are_read_back :
    (∀ {ip : Address} {flags : UInt32} {mac : Mac} {device line : String} {ws : List String},
      IsColumnForm ip flags mac device ws → Text.AreWordsOf ws line →
      ∃ e, ofColumnLine? line = some e ∧ e.ip = ip ∧ e.mac = some mac ∧ e.interface = device ∧
        (∀ m, e.usableMac = some m ↔ m = mac ∧ mac ≠ .zero ∧ (flags &&& 2 ≠ 0 ∨ flags &&& 4 ≠ 0)) ∧
        (e.state = .permanent ↔ flags &&& 4 ≠ 0)) ∧
      (∀ {ip : Address} {mac : Option Mac} {interface line : String} {further : List String},
        IsSentence ip mac interface further line →
        ∃ e, ofSentence? line = some e ∧ e.ip = ip ∧ e.mac = mac ∧ e.interface = interface ∧
          (∀ m, e.usableMac = some m ↔ mac = some m ∧ m ≠ .zero) ∧ (e.state = .incomplete ↔ mac = none) ∧
          (e.state = .permanent ↔ mac ≠ none ∧ "permanent" ∈ further)) ∧
      ∀ line, columnsAt? (Text.wordsOf line) = some (ofColumnLine? line) ∧
        sentenceAt? line = some (ofSentence? line) := by
  refine ⟨fun {ip flags mac device line ws} hform hline => ?_,
    fun {ip mac interface line further} hline => ?_, fun line => ⟨columnsAt?_eq _, sentenceAt?_eq line⟩⟩
  · have hcomplete : flags.toNat &&& 2 = 0 ↔ flags &&& 2 = 0 := toNat_and_eq_zero_iff 2
    have hpermanent : flags.toNat &&& 4 = 0 ↔ flags &&& 4 = 0 := toNat_and_eq_zero_iff 4
    refine ⟨_, ofColumnLine?_eq_some hform hline, rfl, rfl, rfl, fun m => ?_, ?_⟩
    · rw [usableMac_of_flags, ne_eq (_ &&& _), ne_eq (_ &&& _), hcomplete, hpermanent]
    · rw [State.ofFlags_eq_permanent_iff, ne_eq, hpermanent]
  · exact ⟨_, ofSentence?_eq_some hline, rfl, rfl, rfl, fun m => usableMac_of_said, State.ofSaid_eq_incomplete_iff,
      State.ofSaid_eq_permanent_iff⟩

/-- The router has a line in columns and a sentence, and both say the same of it. -/
theorem router_is_read_in_both_forms :
    let router := Address.ofSegments .v4 [192, 168, 1, 1]
    let mac := Mac.ofNats [0x00, 0x1b, 0x44, 0x11, 0x3a, 0xb7]
    ∃ e : Entry, e.ip = router ∧ e.usableMac = some mac ∧ e.interface = "en0" ∧ e.state = .permanent ∧
      ofColumnLine? "192.168.1.1      0x1         0x6         00:1B:44:11:3A:B7     *        en0" = some e ∧
      ofSentence? "gateway) (192.168.1.1) at 0:1b:44:11:3a:b7 on en0 permanent [ethernet]" = some e := by
  intro router mac
  obtain ⟨hcolumns, hsentence, -⟩ := both_forms_are_read_back
  have hform : IsColumnForm router 6 mac "en0" ["192.168.1.1", "0x1", "0x6", "00:1B:44:11:3A:B7", "*", "en0"] :=
    isColumnForm_text router 6 mac "0x1" "*" "en0" []
  have hmac : mac.Spells "0:1b:44:11:3a:b7".toList := by
    have htrim : Text.trim "0:1b:44:11:3a:b7".toList = "0:1b:44:11:3a:b7".toList := by decide
    exact htrim ▸ Mac.spells_trim_iff.mpr (by decide)
  have hsaid : IsSentence router (some mac) "en0" ["permanent", "[ethernet]"]
      ("gateway) " ++ "(" ++ "192.168.1.1" ++ ")" ++ " at 0:1b:44:11:3a:b7 on en0 permanent [ethernet]") :=
    .intro (by decide) (by decide) (.complete hmac) (by decide) (Text.areWordsOf_iff.mpr (by decide))
  have hwords : Text.AreWordsOf ["192.168.1.1", "0x1", "0x6", "00:1B:44:11:3A:B7", "*", "en0"]
      "192.168.1.1      0x1         0x6         00:1B:44:11:3A:B7     *        en0" :=
    Text.areWordsOf_iff.mpr (by decide)
  obtain ⟨e, hread, hip, hmac, hinterface, husable, hstate⟩ := hcolumns hform hwords
  obtain ⟨e', hread', hip', hmac', hinterface', -, -, hstate'⟩ := hsentence hsaid
  have hpermanent : e.state = .permanent := hstate.mpr (by decide)
  have hpermanent' : e'.state = .permanent := hstate'.mpr (by decide)
  obtain rfl : e = e' := by
    cases e
    cases e'
    simp_all
  exact ⟨e, hip, (husable mac).mpr (by decide), hinterface, hpermanent, hread, hread'⟩

/-- Where no hardware address stands the entry is incomplete, permanent or not. -/
theorem incomplete_before_permanent :
    let line := "? (192.168.1.9) at (incomplete) on en0 permanent"
    IsSentence (.ofSegments .v4 [192, 168, 1, 9]) none "en0" ["permanent"] line ∧
      (ofSentence? line).map (·.state) = some .incomplete := by
  have hsaid : IsSentence (.ofSegments .v4 [192, 168, 1, 9]) none "en0" ["permanent"]
      ("? " ++ "(" ++ "192.168.1.9" ++ ")" ++ " at (incomplete) on en0 permanent") :=
    .intro (by decide) (by decide) .incomplete (by decide) (Text.areWordsOf_iff.mpr (by decide))
  exact ⟨hsaid, by decide⟩

end Peripheral.Neighbor
