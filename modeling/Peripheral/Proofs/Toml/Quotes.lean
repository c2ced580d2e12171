import Peripheral.Proofs.Text.Numeral
import Peripheral.Toml.Quotes
import Peripheral.Toml.Scalar

/-
  Peripheral.Proofs.Toml.Quotes — reading back a string of a settings file.

  Every style of quotes is read back (`string?_write`), if the string fits it: without escapes
  there are no control characters, and no quote that would end the string. The style that is
  chosen for a string fits it (`fits_of`).

  Over several lines a quote alone does not end the string, and up to two quotes stand in front
  of what comes next. So what is read is a run of at most two quotes and the rest of the string
  after it: the run grows with the next quote, ends in front of any other character, and joins
  the three quotes at the end.
-/

namespace Peripheral.Toml

open Text.Numeral (takeWhile_front)

namespace Quotes

/-! ## (1) Escapes -/

/-- How a character is shown: as it is, as the end of a line, or by an escape. What follows the backslash of an escape
    is not the end of a line. -/
inductive Shown (style : Quotes) : Char → List Char → Prop
  | plain {c : Char} (htext : isText c = true) (hne : c ≠ '\\') : Shown style c [c]
  | lineEnd (hstyle : style = longBasic) : Shown style '\n' ['\n']
  | escaped {c : Char} (x : Char) (e : List Char) (hend : ∀ t, lineEnd? (skipSpace (x :: t)) = none)
      (hread : ∀ t, escaped? (x :: (e ++ t)) = some (c, t)) : Shown style c ('\\' :: x :: e)

theorem codePoint?_append {ds : List Char} {n : Nat} (hlength : ds.length = 4)
    (hdigits : Text.Numeral.digits? 16 ds 0 = some n) (hn : n.isValidChar) (s : List Char) :
    codePoint? 4 (ds ++ s) = some (Char.ofNat n, s) := by
  rw [codePoint?, List.take_left' hlength, List.drop_left' hlength]
  simp [hlength, hdigits, hn]

/-- The digits of a control character. -/
theorem codePoint?_padded {n : Nat} (hn : n < 128) (s : List Char) :
    codePoint? 4 ((Text.Numeral.padded 16 4 n).map Char.toUpper ++ s) = some (Char.ofNat n, s) := by
  have hall : ∀ n < 128, ((Text.Numeral.padded 16 4 n).map Char.toUpper).length = 4 ∧
      Text.Numeral.digits? 16 ((Text.Numeral.padded 16 4 n).map Char.toUpper) 0 = some n := by decide +kernel
  exact codePoint?_append (hall n hn).1 (hall n hn).2 (.inl (by omega)) s

theorem isText_of_showable {c : Char} (h : isUnshowable c = false) (hc : c ≠ '\n') : isText c = true := by
  simp only [isUnshowable, Bool.or_eq_false_iff, Bool.and_eq_false_iff, decide_eq_false_iff_not, bne_eq_false_iff_eq,
    beq_eq_false_iff_ne] at h
  simp only [isText, Bool.or_eq_true, Bool.and_eq_true, decide_eq_true_eq, beq_iff_eq]
  rcases h.1 with (hlow | htab) | hfeed
  · exact .inr ⟨by omega, h.2⟩
  · exact .inl htab
  · exact absurd hfeed hc

/-- Every character is shown in one of these ways. -/
theorem shown (style : Quotes) (c : Char) : Shown style c (escape style c) := by
  fun_cases escape style c with
  | case1 => exact .escaped 'b' [] (fun _ => rfl) fun _ => rfl
  | case2 => exact .escaped 't' [] (fun _ => rfl) fun _ => rfl
  | case3 hstyle => exact .lineEnd hstyle
  | case4 => exact .escaped 'n' [] (fun _ => rfl) fun _ => rfl
  | case5 => exact .escaped 'f' [] (fun _ => rfl) fun _ => rfl
  | case6 => exact .escaped 'r' [] (fun _ => rfl) fun _ => rfl
  | case7 => exact .escaped '\\' [] (fun _ => rfl) fun _ => rfl
  | case8 c _ _ _ _ _ _ hshow =>
    have hn : c.toNat < 128 := by
      simp only [isUnshowable, Bool.or_eq_true, Bool.and_eq_true, decide_eq_true_eq, beq_iff_eq] at hshow
      omega
    refine .escaped 'u' _ (fun _ => rfl) fun t => ?_
    show codePoint? 4 ((Text.Numeral.padded 16 4 c.toNat).map Char.toUpper ++ t) = _
    rw [codePoint?_padded hn, Char.ofNat_toNat]
  | case9 c _ _ hfeed _ _ hbackslash hshow =>
    exact .plain (isText_of_showable (Bool.eq_false_iff.mpr hshow) hfeed) hbackslash

theorem Shown.length_pos {style : Quotes} {c : Char} {e : List Char} (h : Shown style c e) : 0 < e.length := by
  cases h <;> simp

theorem length_le_length_escapeAll (style : Quotes) (run : Nat) (cs : List Char) :
    cs.length ≤ (escapeAll style run cs).length := by
  induction cs generalizing run with
  | nil => exact Nat.le_refl 0
  | cons c cs ih =>
    have h0 := ih 0
    have hmore := ih (run + 1)
    unfold escapeAll
    split
    · split <;> simp only [List.length_cons] <;> omega
    · have hpos := (shown style c).length_pos
      rw [List.length_append, List.length_cons]
      omega

/-! ## (2) One line -/

theorem Shown.basic? {c : Char} {e : List Char} (h : Shown basic c e) (hc : c ≠ '"') (fuel : Nat) (s : List Char) :
    basic? (fuel + 1) (e ++ s) = (basic? fuel s).map fun (cs, s) => (c :: cs, s) := by
  cases h with
  | plain htext hne => simp [Toml.basic?, hc, hne, htext]
  | lineEnd hstyle => cases hstyle
  | escaped x e hend hread =>
    cases hs : Toml.basic? fuel s <;> simp [Toml.basic?, hread, hs]

/-- With escapes every string stands on one line. -/
theorem basic?_escapeAll (cs : List Char) {run fuel : Nat} (hfuel : cs.length < fuel) (rest : List Char) :
    basic? fuel (escapeAll basic run cs ++ '"' :: rest) = some (cs, rest) := by
  induction cs generalizing run fuel with
  | nil =>
    obtain ⟨fuel, rfl⟩ : ∃ k, fuel = k + 1 := ⟨fuel - 1, by simp at hfuel; omega⟩
    rfl
  | cons c cs ih =>
    obtain ⟨fuel, rfl⟩ : ∃ k, fuel = k + 1 := ⟨fuel - 1, by simp at hfuel; omega⟩
    have hrest : ∀ {run}, basic? fuel (escapeAll basic run cs ++ '"' :: rest) = some (cs, rest) :=
      ih (by simpa using hfuel)
    by_cases hc : c = '"'
    · subst hc
      rw [escapeAll, if_pos rfl, if_pos (show basic.quoteRun ≤ run from Nat.zero_le run)]
      simp [Toml.basic?, escaped?, hrest]
    · rw [escapeAll, if_neg hc, List.append_assoc, (shown basic c).basic? hc, hrest]
      rfl

/-- Without escapes, a string of one line without its own quote. -/
theorem literal?_append {cs : List Char} (htext : ∀ c ∈ cs, isText c = true ∧ c ≠ '\'') (rest : List Char) :
    literal? (cs ++ '\'' :: rest) = some (cs, rest) := by
  induction cs with
  | nil => rfl
  | cons c cs ih =>
    obtain ⟨hc, hcs⟩ := List.forall_mem_cons.mp htext
    rw [List.cons_append, literal?, if_neg hc.2, if_pos hc.1, ih hcs]
    rfl

/-! ## (3) Several lines -/

section Long

variable {quote : Char} {rest : List Char}

theorem takeWhile_run (k : Nat) (hrest : ∀ c ∈ rest.head?, c ≠ quote) :
    (List.replicate k quote ++ rest).takeWhile (· == quote) = List.replicate k quote := by
  refine takeWhile_front (fun c hc => ?_) fun c hc => ?_
  · simpa using List.eq_of_mem_replicate hc
  · simpa using hrest c hc

/-- At most two quotes do not end the string. -/
theorem longEnd?_run {k : Nat} (hk : k ≤ 2) (hrest : ∀ c ∈ rest.head?, c ≠ quote) :
    longEnd? quote (List.replicate k quote ++ rest) = none := by
  rw [longEnd?, takeWhile_run k hrest, List.length_replicate, if_pos (by omega)]

/-- At most two quotes join the three at the end. -/
theorem longEnd?_end {k : Nat} (hk : k ≤ 2) (hrest : ∀ c ∈ rest.head?, c ≠ quote) :
    longEnd? quote (List.replicate (k + 3) quote ++ rest) = some (List.replicate k quote, rest) := by
  have hown : min (k + 3) 5 - 3 = k := by omega
  rw [longEnd?, takeWhile_run (k + 3) hrest, List.length_replicate, if_neg (by omega), hown]
  show some (List.replicate k quote, (List.replicate (k + 3) quote ++ rest).drop (k + 3)) = _
  rw [List.drop_left' List.length_replicate]

/-- A reader of a string over several lines stops at the end of the string and takes any other quote for a part
    of it. -/
def StopsAt (quote : Char) (read : Nat → List Char → Option (List Char × List Char)) : Prop :=
  ∀ fuel s, read (fuel + 1) (quote :: s) =
    match longEnd? quote (quote :: s) with
    | some r => some r
    | none => (read fuel s).map fun (cs, s) => (quote :: cs, s)

theorem stopsAt_longBasic? : StopsAt '"' longBasic? := fun _ _ => rfl

theorem stopsAt_longLiteral? : StopsAt '\'' longLiteral? := fun _ _ => rfl

variable {read : Nat → List Char → Option (List Char × List Char)} {k fuel : Nat}

/-- A run of at most two quotes is read as it stands. -/
theorem StopsAt.run (hread : StopsAt quote read) (hk : k ≤ 2) (hrest : ∀ c ∈ rest.head?, c ≠ quote) :
    read (fuel + k) (List.replicate k quote ++ rest) =
      (read fuel rest).map fun (cs, s) => (List.replicate k quote ++ cs, s) := by
  induction k with
  | zero => cases h : read fuel rest <;> simp [h]
  | succ k ih =>
    have hend := longEnd?_run hk hrest
    rw [List.replicate_succ, List.cons_append] at hend ⊢
    rw [← Nat.add_assoc, hread, hend]
    dsimp only
    rw [ih (by omega)]
    cases h : read fuel rest <;> rfl

theorem StopsAt.end (hread : StopsAt quote read) (hk : k ≤ 2) (hrest : ∀ c ∈ rest.head?, c ≠ quote) :
    read (fuel + 1) (List.replicate k quote ++ quote :: quote :: quote :: rest) =
      some (List.replicate k quote, rest) := by
  have hall : List.replicate k quote ++ quote :: quote :: quote :: rest = List.replicate (k + 3) quote ++ rest := by
    rw [← List.replicate_append_replicate, List.append_assoc]
    rfl
  have hend := longEnd?_end hk hrest
  rw [hall, List.replicate_succ, List.cons_append, hread, ← List.cons_append, ← List.replicate_succ, hend]

theorem lineEnd?_text {c : Char} (hc : isText c = true) (s : List Char) : lineEnd? (c :: s) = none := by
  unfold lineEnd?
  split
  · cases ‹_ :: _ = _›
    exact absurd hc (by decide)
  · cases ‹_ :: _ = _›
    exact absurd hc (by decide)
  · rfl

theorem Shown.longBasic? {c : Char} {e : List Char} (h : Shown longBasic c e) (hc : c ≠ '"') (fuel : Nat)
    (s : List Char) :
    longBasic? (fuel + 1) (e ++ s) = (longBasic? fuel s).map fun (cs, s) => (c :: cs, s) := by
  cases h with
  | plain htext hne =>
    rw [List.singleton_append, Toml.longBasic?, if_neg hc, if_neg hne, lineEnd?_text htext, if_pos htext]
  | lineEnd hstyle => rfl
  | escaped x e hend hread =>
    cases hs : Toml.longBasic? fuel s <;> simp [Toml.longBasic?, hend, hread, hs]

theorem Shown.head?_ne {style : Quotes} {c : Char} {e : List Char} (h : Shown style c e) (hc : c ≠ '"')
    (s : List Char) : ∀ d ∈ (e ++ s).head?, d ≠ '"' := by
  cases h <;> simp [hc]

/-- A run of quotes and the rest of the string after it are read up to the end of the string. -/
theorem longBasic?_escapeAll (cs : List Char) {k fuel : Nat} (hk : k ≤ 2) (hfuel : k + cs.length < fuel)
    (hrest : ∀ c ∈ rest.head?, c ≠ '"') :
    longBasic? fuel (List.replicate k '"' ++ (escapeAll longBasic k cs ++ '"' :: '"' :: '"' :: rest)) =
      some (List.replicate k '"' ++ cs, rest) := by
  induction cs generalizing k fuel with
  | nil =>
    obtain ⟨fuel, rfl⟩ : ∃ f, fuel = f + 1 := ⟨fuel - 1, by simp at hfuel; omega⟩
    rw [List.append_nil]
    exact stopsAt_longBasic?.end hk hrest
  | cons c cs ih =>
    rw [List.length_cons] at hfuel
    obtain ⟨fuel, rfl⟩ : ∃ f, fuel = f + 1 + k := ⟨fuel - 1 - k, by omega⟩
    have hafter : longBasic? fuel (escapeAll longBasic 0 cs ++ '"' :: '"' :: '"' :: rest) = some (cs, rest) :=
      ih (Nat.zero_le 2) (by omega)
    by_cases hc : c = '"'
    · subst hc
      by_cases hlast : 2 ≤ k
      · -- the third quote of a run has an escape
        rw [escapeAll, if_pos rfl, if_pos (show longBasic.quoteRun ≤ k from hlast)]
        rw [stopsAt_longBasic?.run hk (by simp)]
        simp [Toml.longBasic?, lineEnd?, skipSpace, isSpace, escaped?, hafter]
      · have hnext := @ih (k + 1) (fuel + 1 + k) (by omega) (by omega)
        rw [escapeAll, if_pos rfl, if_neg (show ¬ longBasic.quoteRun ≤ k from hlast)]
        simpa [List.replicate_succ', List.append_assoc] using hnext
    · rw [escapeAll, if_neg hc, List.append_assoc]
      rw [stopsAt_longBasic?.run hk ((shown longBasic c).head?_ne hc _), (shown longBasic c).longBasic? hc, hafter]
      rfl

theorem longLiteral?_cons {c : Char} (hc : c ≠ '\'') (hshow : isUnshowable c = false) (fuel : Nat) (s : List Char) :
    longLiteral? (fuel + 1) (c :: s) = (longLiteral? fuel s).map fun (cs, s) => (c :: cs, s) := by
  by_cases hfeed : c = '\n'
  · subst hfeed
    rfl
  · have htext := isText_of_showable hshow hfeed
    rw [longLiteral?, if_neg hc, lineEnd?_text htext, if_pos htext]

/-- Without escapes, no more than two quotes stand together. -/
theorem longLiteral?_append (cs : List Char) {k fuel : Nat} (hcs : longestRun '\'' k cs ≤ 2)
    (hshow : ∀ c ∈ cs, isUnshowable c = false) (hfuel : k + cs.length < fuel) (hrest : ∀ c ∈ rest.head?, c ≠ '\'') :
    longLiteral? fuel (List.replicate k '\'' ++ (cs ++ '\'' :: '\'' :: '\'' :: rest)) =
      some (List.replicate k '\'' ++ cs, rest) := by
  induction cs generalizing k fuel with
  | nil =>
    obtain ⟨fuel, rfl⟩ : ∃ f, fuel = f + 1 := ⟨fuel - 1, by simp at hfuel; omega⟩
    rw [List.append_nil]
    exact stopsAt_longLiteral?.end hcs hrest
  | cons c cs ih =>
    rw [List.length_cons] at hfuel
    obtain ⟨hc, hmore⟩ := List.forall_mem_cons.mp hshow
    by_cases hquote : c = '\''
    · subst hquote
      rw [longestRun, if_pos rfl] at hcs
      have hnext := @ih (k + 1) fuel hcs hmore (by omega)
      simpa [List.replicate_succ', List.append_assoc] using hnext
    · obtain ⟨fuel, rfl⟩ : ∃ f, fuel = f + 1 + k := ⟨fuel - 1 - k, by omega⟩
      rw [longestRun, if_neg hquote, Nat.max_le] at hcs
      have hafter : longLiteral? fuel (cs ++ '\'' :: '\'' :: '\'' :: rest) = some (cs, rest) :=
        ih (k := 0) hcs.2 hmore (by omega)
      rw [List.cons_append, stopsAt_longLiteral?.run hcs.1 (by simpa using hquote), longLiteral?_cons hquote hc, hafter]
      rfl

end Long

/-! ## (4) The style of a string -/

/-- What a string needs to be shown without escapes. -/
def Fits (s : List Char) : Quotes → Prop
  | basic | longBasic => True
  | literal => ∀ c ∈ s, isText c = true ∧ c ≠ '\''
  | longLiteral => longestRun '\'' 0 s ≤ 2 ∧ ∀ c ∈ s, isUnshowable c = false

theorem le_longestRun (q : Char) (k : Nat) (s : List Char) : k ≤ longestRun q k s := by
  induction s generalizing k with
  | nil => exact Nat.le_refl k
  | cons c s ih =>
    rw [longestRun]
    split
    · exact Nat.le_of_succ_le (ih (k + 1))
    · exact Nat.le_max_left _ _

theorem not_mem_of_longestRun {q : Char} {s : List Char} (h : longestRun q 0 s = 0) : q ∉ s := by
  induction s with
  | nil => exact List.not_mem_nil
  | cons c s ih =>
    rw [longestRun] at h
    split at h
    · have hle := le_longestRun q (0 + 1) s
      omega
    · have hs : longestRun q 0 s = 0 := by omega
      rw [List.mem_cons]
      rintro (rfl | hq)
      · contradiction
      · exact ih hs hq

/-- The style of a string fits it. -/
theorem fits_of (s : List Char) : Fits s (of s) := by
  have hshowable : ¬ s.any isUnshowable = true → ∀ c ∈ s, isUnshowable c = false := by
    intro h c hc
    exact Bool.eq_false_iff.mpr fun hbad => h (List.any_eq_true.mpr ⟨c, hc, hbad⟩)
  unfold of
  dsimp only
  split
  · split <;> exact trivial
  next hshow =>
  split
  · exact trivial
  split
  next hliteral =>
    simp only [Bool.and_eq_true, decide_eq_true_eq, Bool.not_eq_true', List.contains_eq_mem, decide_eq_false_iff_not]
      at hliteral
    intro c hc
    refine ⟨isText_of_showable (hshowable hshow c hc) ?_, ?_⟩
    · rintro rfl
      exact hliteral.2 hc
    · rintro rfl
      exact not_mem_of_longestRun hliteral.1 hc
  split
  · exact trivial
  split
  next hsingles => exact ⟨hsingles, hshowable hshow⟩
  split <;> exact trivial

/-! ## (5) Every string -/

/-- The line end after the opening quotes is the one that was put there. -/
theorem skipFirstLineEnd_append {s body : List Char} (hbody : '\n' ∉ s → lineEnd? body = none) :
    skipFirstLineEnd (firstLineEnd s ++ body) = body := by
  unfold firstLineEnd
  split
  · rfl
  next h =>
    rw [List.nil_append, skipFirstLineEnd, hbody (by simpa using h)]
    rfl

theorem Shown.lineEnd?_append {style : Quotes} {c : Char} {e : List Char} (h : Shown style c e) (hc : c ≠ '\n')
    (t : List Char) : Toml.lineEnd? (e ++ t) = none := by
  cases h with
  | plain htext => exact lineEnd?_text htext t
  | lineEnd => exact absurd rfl hc
  | escaped => rfl

theorem lineEnd?_escapeAll {s : List Char} (hs : '\n' ∉ s) (rest : List Char) :
    lineEnd? (escapeAll longBasic 0 s ++ '"' :: rest) = none := by
  cases s with
  | nil => rfl
  | cons c s =>
    by_cases hc : c = '"'
    · subst hc
      rfl
    · rw [escapeAll, if_neg hc, List.append_assoc]
      exact (shown longBasic c).lineEnd?_append (fun h => hs (by simp [h])) _

/-- What is shown on one line does not begin with its own quote. -/
theorem ne_two_quotes {quote : Char} {body rest : List Char} (hbody : ∀ c ∈ body.head?, c ≠ quote)
    (hrest : ∀ c ∈ rest.head?, c ≠ quote) (u : List Char) : body ++ quote :: rest ≠ quote :: quote :: u := by
  intro h
  cases body with
  | nil =>
    rw [List.nil_append, List.cons.injEq] at h
    exact hrest quote (by simp [h.2]) rfl
  | cons c body =>
    rw [List.cons_append, List.cons.injEq] at h
    exact hbody c rfl h.1

theorem head?_escapeAll_basic (s : List Char) : ∀ c ∈ (escapeAll basic 0 s).head?, c ≠ '"' := by
  cases s with
  | nil => nofun
  | cons c s =>
    by_cases hc : c = '"'
    · subst hc
      simp [escapeAll, quoteRun]
    · rw [escapeAll, if_neg hc]
      exact (shown basic c).head?_ne hc _

section Strings

variable {s rest : List Char}

theorem string?_basic (hrest : ∀ c ∈ rest.head?, c ≠ '"') :
    string? (write basic s ++ rest) = some (String.ofList s, rest) := by
  have htext : write basic s ++ rest = '"' :: (escapeAll basic 0 s ++ '"' :: rest) := by simp [write]
  have hlength := length_le_length_escapeAll basic 0 s
  have hread : basic? ((escapeAll basic 0 s ++ '"' :: rest).length + 1) (escapeAll basic 0 s ++ '"' :: rest) =
      some (s, rest) :=
    basic?_escapeAll s (by rw [List.length_append]; omega) rest
  rw [htext]
  unfold string?
  split
  · next h => exact absurd (List.cons.inj h).2 (ne_two_quotes (head?_escapeAll_basic s) hrest _)
  · next h =>
    cases h
    exact congrArg (Option.map fun (cs, s) => (String.ofList cs, s)) hread
  all_goals simp_all

theorem string?_literal (hs : Fits s literal) (hrest : ∀ c ∈ rest.head?, c ≠ '\'') :
    string? (write literal s ++ rest) = some (String.ofList s, rest) := by
  have htext : write literal s ++ rest = '\'' :: (s ++ '\'' :: rest) := by simp [write]
  have hopen : ∀ c ∈ s.head?, c ≠ '\'' := fun c hc => (hs c (List.mem_of_mem_head? hc)).2
  rw [htext]
  unfold string?
  split
  · next h => cases h
  · next h => cases h
  · next h => exact absurd (List.cons.inj h).2 (ne_two_quotes hopen hrest _)
  · next h =>
    cases h
    rw [literal?_append hs]
    rfl
  · simp_all

theorem string?_longBasic (hrest : ∀ c ∈ rest.head?, c ≠ '"') :
    string? (write longBasic s ++ rest) = some (String.ofList s, rest) := by
  have htext : write longBasic s ++ rest = '"' :: '"' :: '"' :: (firstLineEnd s ++
      (escapeAll longBasic 0 s ++ '"' :: '"' :: '"' :: rest)) := by simp [write]
  have hfirst : skipFirstLineEnd (firstLineEnd s ++ (escapeAll longBasic 0 s ++ '"' :: '"' :: '"' :: rest)) =
      escapeAll longBasic 0 s ++ '"' :: '"' :: '"' :: rest :=
    skipFirstLineEnd_append fun hs => lineEnd?_escapeAll hs _
  have hlength : s.length < (write longBasic s ++ rest).length := by
    have hle := length_le_length_escapeAll longBasic 0 s
    rw [htext]
    simp only [List.length_cons, List.length_append]
    omega
  have hread : longBasic? (write longBasic s ++ rest).length (escapeAll longBasic 0 s ++ '"' :: '"' :: '"' :: rest) =
      some (s, rest) :=
    longBasic?_escapeAll s (Nat.zero_le 2) (by omega) hrest
  rw [htext] at hread ⊢
  show (longBasic? _ (skipFirstLineEnd _)).map _ = _
  rw [hfirst, hread]
  rfl

theorem string?_longLiteral (hs : Fits s longLiteral) (hrest : ∀ c ∈ rest.head?, c ≠ '\'') :
    string? (write longLiteral s ++ rest) = some (String.ofList s, rest) := by
  have htext : write longLiteral s ++ rest = '\'' :: '\'' :: '\'' :: (firstLineEnd s ++
      (s ++ '\'' :: '\'' :: '\'' :: rest)) := by simp [write]
  have hfirst : skipFirstLineEnd (firstLineEnd s ++ (s ++ '\'' :: '\'' :: '\'' :: rest)) =
      s ++ '\'' :: '\'' :: '\'' :: rest := by
    refine skipFirstLineEnd_append fun hfeed => ?_
    cases s with
    | nil => rfl
    | cons c s =>
      exact lineEnd?_text (isText_of_showable (hs.2 c (by simp)) fun h => hfeed (by simp [h])) _
  have hlength : s.length < (write longLiteral s ++ rest).length := by
    rw [htext]
    simp only [List.length_cons, List.length_append]
    omega
  have hread : longLiteral? (write longLiteral s ++ rest).length (s ++ '\'' :: '\'' :: '\'' :: rest) =
      some (s, rest) :=
    longLiteral?_append s hs.1 hs.2 (by omega) hrest
  rw [htext] at hread ⊢
  show (longLiteral? _ (skipFirstLineEnd _)).map _ = _
  rw [hfirst, hread]
  rfl

end Strings

end Quotes

/-- Every string is read back from its own text. -/
theorem string?_write (s : String) {rest : List Char} (hrest : ∀ c ∈ rest.head?, c ≠ '"' ∧ c ≠ '\'') :
    string? (Quotes.write (Quotes.of s.toList) s.toList ++ rest) = some (s, rest) := by
  have hfits := Quotes.fits_of s.toList
  have hdouble : ∀ c ∈ rest.head?, c ≠ '"' := fun c hc => (hrest c hc).1
  have hsingle : ∀ c ∈ rest.head?, c ≠ '\'' := fun c hc => (hrest c hc).2
  have hread : string? (Quotes.write (Quotes.of s.toList) s.toList ++ rest) =
      some (String.ofList s.toList, rest) := by
    cases hstyle : Quotes.of s.toList with
    | basic => exact Quotes.string?_basic hdouble
    | literal => exact Quotes.string?_literal (hstyle ▸ hfits) hsingle
    | longBasic => exact Quotes.string?_longBasic hdouble
    | longLiteral => exact Quotes.string?_longLiteral (hstyle ▸ hfits) hsingle
  rwa [String.ofList_toList] at hread

end Peripheral.Toml
