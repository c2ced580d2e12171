/-
  Peripheral.Pattern — anchored patterns over characters: a star stands for any run of
  characters, the empty one included, a question mark for exactly one, and every other
  character for itself.

  `Denotes p t` is that reading. `isMatch p t` decides it with a cursor that goes from left
  to right and remembers one place only: the last star it has passed and where the text
  after that star began. On a mismatch that star takes one character more; no earlier star is
  ever asked again.
-/

namespace Peripheral.Pattern

/-- The texts that a pattern stands for. -/
inductive Denotes : List Char → List Char → Prop
  | nil : Denotes [] []
  /-- The star takes a run `run`. -/
  | star {p t : List Char} (run : List Char) : Denotes p t → Denotes ('*' :: p) (run ++ t)
  | any {p t : List Char} (c : Char) : Denotes p t → Denotes ('?' :: p) (c :: t)
  | char {p t : List Char} (c : Char) : c ≠ '*' → c ≠ '?' → Denotes p t → Denotes (c :: p) (c :: t)

/-- Where a comparison stands: places in the pattern and in the text. -/
structure Cursor where
  p : Nat
  t : Nat
  /-- The place of the last star passed, and the place where the text after it began. -/
  star : Option (Nat × Nat)
deriving DecidableEq, Repr

namespace Cursor

def start : Cursor := ⟨0, 0, none⟩

/-- One character of the pattern is done with one of the text. -/
def pass (s : Cursor) : Cursor := ⟨s.p + 1, s.t + 1, s.star⟩

/-- A star is passed; so far it takes nothing. -/
def passStar (s : Cursor) : Cursor := ⟨s.p + 1, s.t, some (s.p, s.t)⟩

end Cursor

/-- What one turn of the comparison leads to. -/
inductive Turn
  | goOn (s : Cursor)
  | halt (result : Bool)
deriving DecidableEq, Repr

/-- After a mismatch the last star takes one character more. -/
def Cursor.back (s : Cursor) : Turn :=
  match s.star with
  | some (sp, st) => .goOn ⟨sp + 1, st + 1, some (sp, st + 1)⟩
  | none => .halt false

def turn (pattern text : List Char) (s : Cursor) : Turn :=
  match text[s.t]? with
  | none => .halt ((pattern.drop s.p).all (· == '*'))
  | some d =>
    match pattern[s.p]? with
    | some '*' => .goOn s.passStar
    | some '?' => .goOn s.pass
    | some c => if c = d then .goOn s.pass else s.back
    | none => s.back

/-- The character `d` of the text is none that the pattern takes at the cursor. -/
def Cursor.Mismatch (pattern : List Char) (s : Cursor) (d : Char) : Prop :=
  ∀ c, pattern[s.p]? = some c → c ≠ '*' ∧ c ≠ '?' ∧ c ≠ d

/-- What one turn can do, and when. -/
inductive Cursor.Takes (pattern text : List Char) (s : Cursor) : Turn → Prop
  | ended : text[s.t]? = none → Takes pattern text s (.halt ((pattern.drop s.p).all (· == '*')))
  | star (d : Char) : text[s.t]? = some d → pattern[s.p]? = some '*' →
      Takes pattern text s (.goOn s.passStar)
  | pass (c d : Char) : text[s.t]? = some d → pattern[s.p]? = some c → c ≠ '*' →
      c = '?' ∨ c = d → Takes pattern text s (.goOn s.pass)
  | back (d : Char) (sp st : Nat) : text[s.t]? = some d → s.Mismatch pattern d →
      s.star = some (sp, st) → Takes pattern text s (.goOn ⟨sp + 1, st + 1, some (sp, st + 1)⟩)
  | fail (d : Char) : text[s.t]? = some d → s.Mismatch pattern d → s.star = none →
      Takes pattern text s (.halt false)

theorem Cursor.takes_back {pattern text : List Char} {s : Cursor} {d : Char}
    (hd : text[s.t]? = some d) (hm : s.Mismatch pattern d) : s.Takes pattern text s.back := by
  unfold back
  split
  · exact .back d _ _ hd hm ‹_›
  · exact .fail d hd hm ‹_›

theorem Cursor.takes_turn (pattern text : List Char) (s : Cursor) :
    s.Takes pattern text (turn pattern text s) := by
  unfold turn
  split
  · exact .ended ‹_›
  · rename_i d hd
    split
    · exact .star d hd ‹_›
    · exact .pass '?' d hd ‹_› (by decide) (.inl rfl)
    · rename_i c hs hq hc
      split
      · exact .pass c d hd hc hs (.inr ‹_›)
      · refine takes_back hd fun x hx => ?_
        obtain rfl : c = x := by simpa [hc] using hx
        exact ⟨hs, hq, ‹_›⟩
    · rename_i hn
      exact takes_back hd fun x hx => by simp [hn] at hx

/-- What holds at every turn: the cursor is inside both lists, its star lies behind it, and
    between the star and the cursor every character of the pattern took one of the text. -/
structure Cursor.Within (pattern text : List Char) (s : Cursor) : Prop where
  p_le : s.p ≤ pattern.length
  t_le : s.t ≤ text.length
  star_lt : ∀ sp st, s.star = some (sp, st) → sp < s.p
  level : ∀ sp st, s.star = some (sp, st) → s.t + (sp + 1) = st + s.p
  starless : ∀ sp st, s.star = some (sp, st) → ∀ i, sp < i → i < s.p → pattern[i]? ≠ some '*'

namespace Cursor.Within

theorem start (pattern text : List Char) : Cursor.start.Within pattern text :=
  ⟨Nat.zero_le _, Nat.zero_le _, nofun, nofun, nofun⟩

theorem turn {pattern text : List Char} {s s' : Cursor} (h : s.Within pattern text)
    (hs : Pattern.turn pattern text s = .goOn s') : s'.Within pattern text := by
  have hs := hs ▸ s.takes_turn pattern text
  cases hs with
  | star d hd hp =>
    obtain ⟨hp, -⟩ := List.getElem?_eq_some_iff.mp hp
    refine ⟨hp, h.t_le, ?_, ?_, ?_⟩ <;> simp only [passStar, Option.some.injEq, Prod.mk.injEq]
    · omega
    · omega
    · intro sp st hst i _ _
      omega
  | pass c d hd hp hc _ =>
    obtain ⟨hp', -⟩ := List.getElem?_eq_some_iff.mp hp
    obtain ⟨ht, -⟩ := List.getElem?_eq_some_iff.mp hd
    refine ⟨hp', ht, fun sp st hst => ?_, fun sp st hst => ?_, fun sp st hst i h1 h2 => ?_⟩
    · exact Nat.lt_succ_of_lt (h.star_lt sp st hst)
    · have := h.level sp st hst
      simp only [Cursor.pass]
      omega
    · rcases Nat.lt_succ_iff_lt_or_eq.mp h2 with h2 | rfl
      · exact h.starless sp st hst i h1 h2
      · simpa [hp] using hc
  | back d sp st hd _ hst =>
    obtain ⟨ht, -⟩ := List.getElem?_eq_some_iff.mp hd
    have hlt := h.star_lt sp st hst
    have hlevel := h.level sp st hst
    have hp := h.p_le
    refine ⟨by simp only; omega, by simp only; omega, ?_, ?_, ?_⟩ <;>
      simp only [Option.some.injEq, Prod.mk.injEq]
    · omega
    · omega
    · intro sp' st' hst' i _ _
      omega

end Cursor.Within

/-- What is left to try: the stars ahead, then the places for the text after the last star,
    then the pattern. -/
def Cursor.left (pattern text : List Char) (s : Cursor) : Nat × Nat × Nat :=
  match s.star with
  | none => (pattern.length + 1, 0, pattern.length - s.p)
  | some (sp, st) => (pattern.length - sp, text.length - st, pattern.length - s.p)

theorem Cursor.left_lt {pattern text : List Char} {s s' : Cursor} (h : s.Within pattern text)
    (hs : turn pattern text s = .goOn s') :
    Prod.Lex (· < ·) (Prod.Lex (· < ·) (· < ·)) (s'.left pattern text) (s.left pattern text) := by
  have hs := hs ▸ s.takes_turn pattern text
  cases hs with
  | star d hd hp =>
    obtain ⟨hp, -⟩ := List.getElem?_eq_some_iff.mp hp
    cases hst : s.star with
    | none =>
      simp only [left, passStar, hst]
      exact .left _ _ (by omega)
    | some q =>
      have := h.star_lt q.1 q.2 hst
      simp only [left, passStar, hst]
      exact .left _ _ (by omega)
  | pass c d hd hp hc _ =>
    obtain ⟨hp, -⟩ := List.getElem?_eq_some_iff.mp hp
    cases hst : s.star with
    | none =>
      simp only [left, pass, hst]
      exact .right _ (.right _ (by omega))
    | some q =>
      simp only [left, pass, hst]
      exact .right _ (.right _ (by omega))
  | back d sp st hd _ hst =>
    obtain ⟨ht, -⟩ := List.getElem?_eq_some_iff.mp hd
    have := h.star_lt sp st hst
    have := h.level sp st hst
    simp only [left, hst]
    exact .right _ (.left _ _ (by omega))

/-- Goes on until the text is used up or a mismatch has no star to go back to. -/
def run (pattern text : List Char) (s : Cursor) (h : s.Within pattern text) : Bool :=
  match e : turn pattern text s with
  | .halt result => result
  | .goOn s' => run pattern text s' (h.turn e)
termination_by s.left pattern text
decreasing_by exact Cursor.left_lt h e

/-- Whether the whole text matches the whole pattern. -/
def isMatch (pattern text : List Char) : Bool :=
  run pattern text .start (.start pattern text)

/-- `isMatch` over strings. -/
def accepts (pattern text : String) : Bool := isMatch pattern.toList text.toList

/-- A text criterion: an empty pattern accepts every text. -/
def admits (criterion text : String) : Bool :=
  criterion.isEmpty || criterion == "*" || accepts criterion text

end Peripheral.Pattern
