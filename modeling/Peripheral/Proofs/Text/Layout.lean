import Mathlib.Data.List.Basic
import Mathlib.Data.List.Forall2
import Peripheral.Text.Blank

/-
  Peripheral.Proofs.Text.Layout — texts that are laid out in lines and words.

  A line is written from its words with blanks around them, at least one between two of them
  (`AreWords`), and a text from its lines with a line feed behind each, alone or after a
  carriage return; the last line may do without (`AreLines`). However much blank there is, the
  words are read back (`areWords_iff`), and so are the words of every line (`map_words_lines`).
  There is no text that is not laid out so (`areLines_lines`). `AreWordLinesOf` is both at once,
  and just what reading a text word by word tells of it (`areWordLinesOf_iff`).
-/

namespace Peripheral.Text

variable {s t l w : List Char} {ws ls rest : List (List Char)} {c : Char}

/-! ## Words -/

/-- Not empty, and no blank in it. -/
def IsWord (w : List Char) : Prop := w ≠ [] ∧ ∀ c ∈ w, isBlank c = false

/-- The text has these words and blanks, and a word ends where a blank or the text's end is. -/
inductive AreWords : List (List Char) → List Char → Prop
  | nil : AreWords [] []
  | blank {c : Char} {ws : List (List Char)} {s : List Char} (hc : isBlank c = true) (h : AreWords ws s) :
      AreWords ws (c :: s)
  | word {w : List Char} {ws : List (List Char)} {s : List Char} (hw : IsWord w)
      (hs : ∀ c ∈ s.head?, isBlank c = true) (h : AreWords ws s) : AreWords (w :: ws) (w ++ s)

/-- `AreWords` over strings. -/
def AreWordsOf (ws : List String) (line : String) : Prop := AreWords (ws.map String.toList) line.toList

theorem addToWords_blank (hc : isBlank c = true) (state : Bool × List (List Char)) :
    addToWords c state = (false, state.2) := by
  unfold addToWords
  exact if_pos hc

theorem addToWords_closed (hc : isBlank c = false) (ws : List (List Char)) :
    addToWords c (false, ws) = (true, [c] :: ws) := by
  unfold addToWords
  exact if_neg (by simp [hc])

theorem addToWords_open (hc : isBlank c = false) (w : List Char) (ws : List (List Char)) :
    addToWords c (true, w :: ws) = (true, (c :: w) :: ws) := by
  unfold addToWords
  exact if_neg (by simp [hc])

/-- No word is open in front of a blank or the text's end. -/
theorem foldr_addToWords_closed (hs : ∀ c ∈ s.head?, isBlank c = true) :
    s.foldr addToWords (false, []) = (false, words s) := by
  cases s with
  | nil => rfl
  | cons c s =>
    unfold words
    rw [List.foldr_cons, addToWords_blank (hs c rfl)]

theorem foldr_addToWords_word (hw : IsWord w) (ws : List (List Char)) :
    w.foldr addToWords (false, ws) = (true, w :: ws) := by
  obtain ⟨hne, hblank⟩ := hw
  induction w with
  | nil => exact absurd rfl hne
  | cons c w ih =>
    have hc : isBlank c = false := hblank c List.mem_cons_self
    cases w with
    | nil => exact addToWords_closed hc ws
    | cons d w =>
      rw [List.foldr_cons, ih (List.cons_ne_nil d w) fun x hx => hblank x (List.mem_cons_of_mem c hx),
        addToWords_open hc]

theorem words_eq (h : AreWords ws s) : words s = ws := by
  induction h with
  | nil => rfl
  | blank hc h ih =>
    unfold words at ih ⊢
    rw [List.foldr_cons, addToWords_blank hc, ih]
  | word hw hs h ih =>
    unfold words
    rw [List.foldr_append, foldr_addToWords_closed hs, foldr_addToWords_word hw, ih]

theorem exists_open_word (hc : isBlank c = false) (s : List Char) :
    ∃ w ws, (c :: s).foldr addToWords (false, []) = (true, w :: ws) := by
  rw [List.foldr_cons]
  obtain ⟨isOpen, ws⟩ := s.foldr addToWords (false, [])
  cases isOpen with
  | false => exact ⟨_, _, addToWords_closed hc ws⟩
  | true =>
    cases ws with
    | nil =>
      refine ⟨[c], [], ?_⟩
      unfold addToWords
      exact if_neg (by simp [hc])
    | cons w ws => exact ⟨_, _, addToWords_open hc w ws⟩

/-- Every line is laid out in its words. The induction is on the line, a character at a time: one
    that is no blank opens a word or joins the one behind it. -/
theorem areWords_words (s : List Char) : AreWords (words s) s := by
  induction s with
  | nil => exact .nil
  | cons c s ih =>
    cases hc : isBlank c with
    | true =>
      have hwords : words (c :: s) = words s := by
        unfold words
        rw [List.foldr_cons, addToWords_blank hc]
      exact hwords ▸ .blank hc ih
    | false =>
      have hword : IsWord [c] := ⟨List.cons_ne_nil c [], by simpa using hc⟩
      by_cases hs : ∀ x ∈ s.head?, isBlank x = true
      · have hwords : words (c :: s) = [c] :: words s := by
          rw [words, List.foldr_cons, foldr_addToWords_closed hs, addToWords_closed hc]
        exact hwords ▸ .word hword hs ih
      · cases s with
        | nil => exact absurd nofun hs
        | cons d s =>
          have hd : isBlank d = false := by simpa using hs
          obtain ⟨w, ws, hfold⟩ := exists_open_word hd s
          have hrest : words (d :: s) = w :: ws := by rw [words, hfold]
          have hwords : words (c :: d :: s) = (c :: w) :: ws := by
            rw [words, List.foldr_cons, hfold, addToWords_open hc]
          rw [hrest] at ih
          rw [hwords]
          generalize d :: s = t at ih hs ⊢
          cases ih with
          | blank hx h => exact absurd (by simpa using hx) hs
          | word hw ht h =>
            have hjoined : IsWord (c :: _) := ⟨List.cons_ne_nil c _, List.forall_mem_cons.mpr ⟨hc, hw.2⟩⟩
            exact .word hjoined ht h

theorem areWords_iff : AreWords ws s ↔ words s = ws := ⟨words_eq, fun h => h ▸ areWords_words s⟩

/-- A line is read word by word, whatever the blanks between the words are. -/
theorem areWordsOf_iff {ws : List String} {line : String} : AreWordsOf ws line ↔ wordsOf line = ws := by
  rw [AreWordsOf, areWords_iff, wordsOf]
  constructor
  · intro h
    rw [h, List.map_map]
    exact List.map_id'' (fun _ => String.ofList_toList) ws
  · rintro rfl
    rw [List.map_map]
    exact (List.map_id'' (fun _ => String.toList_ofList) _).symm

theorem AreWords.isWord (h : AreWords ws s) : ∀ w ∈ ws, IsWord w := by
  induction h with
  | nil => exact nofun
  | blank hc h ih => exact ih
  | word hw hs h ih => exact List.forall_mem_cons.mpr ⟨hw, ih⟩

theorem ne_empty_of_mem_wordsOf {word line : String} (h : word ∈ wordsOf line) : word ≠ "" := by
  obtain ⟨w, hw, rfl⟩ := List.mem_map.mp h
  exact mt String.ofList_eq_empty_iff.mp ((areWords_words line.toList).isWord w hw).1

/-! ## Lines -/

/-- The text has these lines. Each one ends with a line feed or with a carriage return and a
    line feed; the last one may have no end. -/
inductive AreLines : List (List Char) → List Char → Prop
  | nil : AreLines [] []
  | last {l : List Char} (hne : l ≠ []) (hl : '\n' ∉ l) : AreLines [l] l
  | feed {l s : List Char} {ls : List (List Char)} (hl : '\n' ∉ l) (h : AreLines ls s) :
      AreLines (l :: ls) (l ++ '\n' :: s)
  | returned {l s : List Char} {ls : List (List Char)} (hl : '\n' ∉ l) (h : AreLines ls s) :
      AreLines (l :: ls) (l ++ '\r' :: '\n' :: s)

/-- `AreLines` over strings. -/
def AreLinesOf (ls : List String) (text : String) : Prop := AreLines (ls.map String.toList) text.toList

theorem lines_append_feed (hl : '\n' ∉ l) (s : List Char) : lines (l ++ '\n' :: s) = endLine l :: lines s := by
  have hcut : (l ++ '\n' :: s).splitOn '\n' = l :: s.splitOn '\n' :=
    List.splitOnP_append_cons_of_forall_mem (fun c hc => beq_false_of_ne (ne_of_mem_of_not_mem hc hl)) '\n' rfl s
  obtain ⟨k, ks, hks⟩ := List.exists_cons_of_ne_nil (List.splitOnP_ne_nil (· == '\n') s)
  have hrest : s.splitOn '\n' = k :: ks := hks
  simp [lines, hcut, hrest]

/-- The carriage return is no part of a word. -/
theorem words_endLine (l : List Char) : words (endLine l) = words l := by
  unfold endLine
  split
  · rename_i hlast
    obtain ⟨init, rfl⟩ := List.getLast?_eq_some_iff.mp hlast
    unfold words
    rw [List.dropLast_concat, List.foldr_append, List.foldr_cons, addToWords_blank (by decide)]
    rfl
  · rfl

theorem map_words_lines (h : AreLines ls s) : (lines s).map words = ls.map words := by
  induction h with
  | nil => rfl
  | @last l hne hl =>
    have hcut : l.splitOn '\n' = [l] := List.splitOn_eq_singleton hl
    simp [lines, hcut, hne]
  | @feed l s ls hl h ih => rw [lines_append_feed hl, List.map_cons, words_endLine, ih, List.map_cons]
  | @returned l s ls hl h ih =>
    have hreturn : '\n' ∉ l ++ ['\r'] := by simp [hl]
    have hline : words (endLine (l ++ ['\r'])) = words l := by
      rw [endLine, if_pos List.getLast?_concat, List.dropLast_concat]
    rw [← List.singleton_append, ← List.append_assoc, lines_append_feed hreturn, List.map_cons, hline, ih,
      List.map_cons]

/-- A text is read line by line and word by word, whatever ends the lines. -/
theorem map_wordsOf_linesOf {ls : List String} {text : String} (h : AreLinesOf ls text) :
    (linesOf text).map wordsOf = ls.map wordsOf := by
  have hwords := congrArg (List.map (List.map String.ofList)) (map_words_lines h)
  have hline : (wordsOf ∘ String.ofList : List Char → List String) = List.map String.ofList ∘ words := by
    funext l
    rw [Function.comp_apply, wordsOf, String.toList_ofList, Function.comp_apply]
  rw [linesOf, List.map_map, hline, ← List.map_map, hwords, List.map_map, List.map_map]
  rfl

/-- The lines of two texts, one behind the other, if the first one does not end within a line. -/
theorem AreLines.append (h : AreLines ls s) (hend : ∀ c ∈ s.getLast?, c = '\n') (hrest : AreLines rest t) :
    AreLines (ls ++ rest) (s ++ t) := by
  induction h with
  | nil => exact hrest
  | @last l hne hl =>
    have hlast : l.getLast hne = '\n' := hend _ (List.getLast?_eq_some_getLast hne)
    exact absurd (hlast ▸ List.getLast_mem hne) hl
  | @feed l s ls hl h ih =>
    have hs : ∀ c ∈ s.getLast?, c = '\n' := fun c hc =>
      hend c (List.mem_getLast?_append_of_mem_getLast? (List.mem_getLast?_cons hc))
    rw [List.cons_append, List.append_assoc, List.cons_append]
    exact .feed hl (ih hs)
  | @returned l s ls hl h ih =>
    have hs : ∀ c ∈ s.getLast?, c = '\n' := fun c hc =>
      hend c (List.mem_getLast?_append_of_mem_getLast? (List.mem_getLast?_cons (List.mem_getLast?_cons hc)))
    rw [List.cons_append, List.append_assoc, List.cons_append, List.cons_append]
    exact .returned hl (ih hs)

/-- Every text is laid out in its lines. -/
theorem areLines_lines (s : List Char) : AreLines (lines s) s := by
  induction h : s.length using Nat.strongRecOn generalizing s with
  | ind n ih =>
    subst h
    by_cases hfeed : '\n' ∈ s
    · obtain ⟨l, t, rfl, hl⟩ := List.eq_append_cons_of_mem hfeed
      have hshorter : t.length < (l ++ '\n' :: t).length := by
        rw [List.length_append, List.length_cons]
        omega
      have hrest : AreLines (lines t) t := ih t.length hshorter t rfl
      rw [lines_append_feed hl, endLine]
      split
      · rename_i hlast
        obtain ⟨init, rfl⟩ := List.getLast?_eq_some_iff.mp hlast
        rw [List.dropLast_concat, List.append_assoc]
        exact .returned (fun h => hl (List.mem_append_left _ h)) hrest
      · exact .feed hl hrest
    · have hcut : s.splitOn '\n' = [s] := List.splitOn_eq_singleton hfeed
      by_cases hne : s = []
      · subst hne
        exact .nil
      · have hline : lines s = [s] := by simp [lines, hcut, hne]
        rw [hline]
        exact .last hne hfeed

theorem areLinesOf_linesOf (text : String) : AreLinesOf (linesOf text) text := by
  have hlines : (linesOf text).map String.toList = lines text.toList := by
    rw [linesOf, List.map_map]
    exact List.map_id'' (fun _ => String.toList_ofList) _
  rw [AreLinesOf, hlines]
  exact areLines_lines text.toList

/-! ## Lines of words -/

/-- The text has lines with these words, whatever ends the lines and whatever stands between the
    words. -/
def AreWordLinesOf (table : List (List String)) (text : String) : Prop :=
  ∃ ls, List.Forall₂ AreWordsOf table ls ∧ AreLinesOf ls text

theorem areWordLinesOf_iff {table : List (List String)} {text : String} :
    AreWordLinesOf table text ↔ (linesOf text).map wordsOf = table := by
  constructor
  · rintro ⟨ls, htable, hls⟩
    rw [map_wordsOf_linesOf hls]
    clear hls
    induction htable with
    | nil => rfl
    | cons hline h ih => rw [List.map_cons, areWordsOf_iff.mp hline, ih]
  · rintro rfl
    refine ⟨linesOf text, ?_, areLinesOf_linesOf text⟩
    rw [List.forall₂_map_left_iff, List.forall₂_same]
    exact fun line _ => areWordsOf_iff.mpr rfl

theorem AreWordLinesOf.append {table rest : List (List String)} {s t : String} (hs : AreWordLinesOf table s)
    (hend : s.toList.getLast? = some '\n') (ht : AreWordLinesOf rest t) :
    AreWordLinesOf (table ++ rest) (s ++ t) := by
  obtain ⟨ls, htable, hls⟩ := hs
  obtain ⟨ms, hrest, hms⟩ := ht
  refine ⟨ls ++ ms, List.rel_append htable hrest, ?_⟩
  rw [AreLinesOf, List.map_append, String.toList_append]
  exact hls.append (fun c hc => (Option.some.inj (hend.symm.trans hc)).symm) hms

end Peripheral.Text
