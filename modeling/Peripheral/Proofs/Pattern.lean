import Peripheral.Pattern

/-
  Peripheral.Proofs.Pattern — one remembered star is enough.

  A cursor stands for what the comparison can still find (`Cursor.Open`): the rest of the
  pattern denotes the rest of the text, or what follows the last star denotes the text from a
  later place on. A turn changes neither the one nor the other (`open_iff_of_turn`), although
  a turn over a star forgets the star before it: a match by way of the older star takes as
  many characters up to the new star as the cursor took, or more, and the new star makes up
  for the rest (`Denotes.skip`, `Denotes.wider_star`).

  Read as a pattern, every text stands for itself (`denotes_self`), and one without stars and
  question marks for nothing else (`IsLiteral.admits_iff`).
-/

namespace Peripheral.Pattern

variable {pattern text : List Char} {s s' : Cursor}

/-! ## The language -/

theorem denotes_star_iff {p t : List Char} :
    Denotes ('*' :: p) t ↔ ∃ k, Denotes p (t.drop k) := by
  constructor
  · intro h
    cases h with
    | star run h => exact ⟨run.length, by simpa using h⟩
    | char c hs => exact absurd rfl hs
  · rintro ⟨k, h⟩
    simpa using Denotes.star (t.take k) h

/-- A character that is no star passes exactly one character. -/
theorem denotes_cons_cons_iff {c d : Char} {p t : List Char} (hc : c ≠ '*') :
    Denotes (c :: p) (d :: t) ↔ (c = '?' ∨ c = d) ∧ Denotes p t := by
  constructor
  · intro h
    generalize hu : d :: t = u at h
    cases h with
    | star => exact absurd rfl hc
    | any e h =>
      cases hu
      exact ⟨.inl rfl, h⟩
    | char e _ _ h =>
      cases hu
      exact ⟨.inr rfl, h⟩
  · rintro ⟨rfl | rfl, hp⟩
    · exact .any d hp
    · by_cases hq : c = '?'
      · subst hq
        exact .any _ hp
      · exact .char c hc hq hp

theorem not_denotes_nil_cons {d : Char} {t : List Char} : ¬ Denotes [] (d :: t) := nofun

theorem denotes_nil_right_iff {p : List Char} : Denotes p [] ↔ p.all (· == '*') = true := by
  induction p with
  | nil => exact ⟨fun _ => rfl, fun _ => .nil⟩
  | cons c p ih =>
    by_cases hc : c = '*'
    · subst hc
      simpa [denotes_star_iff] using ih
    · have : ¬ Denotes (c :: p) [] := by
        intro h
        generalize ht : ([] : List Char) = t at h
        cases h with
        | star => exact hc rfl
        | any => cases ht
        | char => cases ht
      simp [this, hc]

/-- A star may take more of the text than it did. -/
theorem Denotes.wider_star {p t : List Char} (k : Nat) (h : Denotes ('*' :: p) (t.drop k)) :
    Denotes ('*' :: p) t := by
  obtain ⟨j, h⟩ := denotes_star_iff.mp h
  exact denotes_star_iff.mpr ⟨k + j, by simpa using h⟩

/-- Without a star, the front of a pattern takes one character for each of its own. -/
theorem Denotes.skip {w p t : List Char} (hw : '*' ∉ w) (h : Denotes (w ++ p) t) :
    Denotes p (t.drop w.length) := by
  induction w generalizing t with
  | nil => exact h
  | cons c w ih =>
    have hc : c ≠ '*' := fun e => hw (by simp [e])
    cases t with
    | nil =>
      rw [denotes_nil_right_iff] at h
      simp [hc] at h
    | cons d t =>
      have h := ((denotes_cons_cons_iff hc).mp h).2
      simpa using ih (fun hm => hw (List.mem_cons_of_mem _ hm)) h

/-! ## What a cursor can still find -/

/-- The rest of the pattern denotes the rest of the text, or a later try of the last star
    succeeds. -/
def Cursor.Open (pattern text : List Char) (s : Cursor) : Prop :=
  Denotes (pattern.drop s.p) (text.drop s.t) ∨
    ∃ sp st k, s.star = some (sp, st) ∧ st < k ∧ Denotes (pattern.drop (sp + 1)) (text.drop k)

theorem Cursor.open_start_iff : Cursor.start.Open pattern text ↔ Denotes pattern text := by
  simp [Open, start]

/-- A try from a later place leads, past the characters between the star and the cursor, to a
    place behind the cursor. -/
theorem Cursor.Within.skip (h : s.Within pattern text) {sp st k : Nat} (hst : s.star = some (sp, st))
    (hk : st < k) (hd : Denotes (pattern.drop (sp + 1)) (text.drop k)) :
    ∃ j, s.t < j ∧ Denotes (pattern.drop s.p) (text.drop j) := by
  have hlt := h.star_lt sp st hst
  have hlevel := h.level sp st hst
  have hp := h.p_le
  let w := (pattern.drop (sp + 1)).take (s.p - (sp + 1))
  have hw : '*' ∉ w := by
    intro hm
    obtain ⟨i, hi⟩ := List.mem_iff_getElem?.mp hm
    rw [List.getElem?_take, List.getElem?_drop] at hi
    split at hi
    · exact h.starless sp st hst (sp + 1 + i) (by omega) (by omega) hi
    · cases hi
  have hlen : w.length = s.p - (sp + 1) := by
    simp only [w, List.length_take, List.length_drop]
    omega
  have hsplit : pattern.drop (sp + 1) = w ++ pattern.drop s.p := by
    have hrest : (pattern.drop (sp + 1)).drop (s.p - (sp + 1)) = pattern.drop s.p := by
      rw [List.drop_drop]
      congr 1
      omega
    rw [← hrest, List.take_append_drop]
  rw [hsplit] at hd
  refine ⟨k + w.length, by omega, ?_⟩
  simpa using hd.skip hw

theorem drop_eq_cons {l : List Char} {i : Nat} {c : Char} (h : l[i]? = some c) :
    l.drop i = c :: l.drop (i + 1) := by
  obtain ⟨hi, rfl⟩ := List.getElem?_eq_some_iff.mp h
  exact List.drop_eq_getElem_cons hi

/-- With the star just passed, what is open is what the star before the cursor denotes. -/
theorem Cursor.open_passStar_iff (hp : pattern[s.p]? = some '*') :
    s.passStar.Open pattern text ↔ Denotes (pattern.drop s.p) (text.drop s.t) := by
  rw [drop_eq_cons hp, denotes_star_iff]
  simp only [Open, passStar, List.drop_drop]
  constructor
  · rintro (h | ⟨sp, st, k, hst, hk, h⟩)
    · exact ⟨0, h⟩
    · cases hst
      exact ⟨k - s.t, by rwa [Nat.add_sub_cancel' (Nat.le_of_lt hk)]⟩
  · rintro ⟨k, h⟩
    rcases Nat.eq_zero_or_pos k with rfl | hk
    · exact .inl h
    · exact .inr ⟨s.p, s.t, s.t + k, rfl, by omega, h⟩

theorem Cursor.Mismatch.not_denotes {d : Char} (hd : text[s.t]? = some d)
    (h : s.Mismatch pattern d) : ¬ Denotes (pattern.drop s.p) (text.drop s.t) := by
  rw [drop_eq_cons hd]
  cases hp : pattern[s.p]? with
  | none =>
    rw [List.drop_eq_nil_of_le (List.getElem?_eq_none_iff.mp hp)]
    exact not_denotes_nil_cons
  | some c =>
    obtain ⟨hs, hq, hcd⟩ := h c hp
    rw [drop_eq_cons hp, denotes_cons_cons_iff hs]
    exact fun ⟨hm, _⟩ => hm.elim hq hcd

/-- A turn loses no match and finds none that was not there. -/
theorem Cursor.open_iff_of_turn (h : s.Within pattern text) (hs : turn pattern text s = .goOn s') :
    s'.Open pattern text ↔ s.Open pattern text := by
  have hs := hs ▸ s.takes_turn pattern text
  cases hs with
  | star d _ hp =>
    rw [open_passStar_iff hp]
    refine ⟨.inl, ?_⟩
    rintro (hd | ⟨sp, st, k, hst, hk, hd⟩)
    · exact hd
    · -- the older star is forgotten: the new one takes what lies between the two matches
      obtain ⟨j, hj, hd⟩ := h.skip hst hk hd
      rw [drop_eq_cons hp] at hd ⊢
      refine Denotes.wider_star (j - s.t) ?_
      rwa [List.drop_drop, Nat.add_sub_cancel' (Nat.le_of_lt hj)]
  | pass c d hd hp hc hcd =>
    have here : Denotes (pattern.drop s.p) (text.drop s.t) ↔
        Denotes (pattern.drop (s.p + 1)) (text.drop (s.t + 1)) := by
      rw [drop_eq_cons hp, drop_eq_cons hd, denotes_cons_cons_iff hc]
      exact and_iff_right hcd
    exact or_congr_left here.symm
  | back d sp st hd hm hst =>
    simp only [Open, hm.not_denotes hd, hst, Option.some.injEq, Prod.mk.injEq, false_or]
    constructor
    · rintro (hm | ⟨_, _, k, ⟨rfl, rfl⟩, hk, hm⟩)
      · exact ⟨sp, st, st + 1, ⟨rfl, rfl⟩, by omega, hm⟩
      · exact ⟨_, st, k, ⟨rfl, rfl⟩, by omega, hm⟩
    · rintro ⟨_, _, k, ⟨rfl, rfl⟩, hk, hm⟩
      rcases Nat.lt_succ_iff_lt_or_eq.mp (Nat.lt_succ_of_le hk) with hk | rfl
      · exact .inr ⟨sp, st + 1, k, ⟨rfl, rfl⟩, hk, hm⟩
      · exact .inl hm

/-- Where the comparison halts, its answer says whether a match was left to find. -/
theorem Cursor.eq_true_iff_of_halt (h : s.Within pattern text) {result : Bool}
    (hs : turn pattern text s = .halt result) : result = true ↔ s.Open pattern text := by
  have hs := hs ▸ s.takes_turn pattern text
  cases hs with
  | ended ht =>
    have hlen := List.getElem?_eq_none_iff.mp ht
    have rest : ∀ j, s.t ≤ j → text.drop j = [] := fun j hj => List.drop_eq_nil_of_le (by omega)
    rw [← denotes_nil_right_iff, ← rest s.t (Nat.le_refl _)]
    refine ⟨.inl, ?_⟩
    rintro (hd | ⟨sp, st, k, hst, hk, hd⟩)
    · exact hd
    · obtain ⟨j, hj, hd⟩ := h.skip hst hk hd
      rwa [rest j (Nat.le_of_lt hj), ← rest s.t (Nat.le_refl _)] at hd
  | fail d hd hm hst =>
    simp [Open, hm.not_denotes hd, hst]

theorem run_eq_true_iff (h : s.Within pattern text) :
    run pattern text s h = true ↔ s.Open pattern text := by
  fun_induction run pattern text s h with
  | case1 s h result e => exact Cursor.eq_true_iff_of_halt h e
  | case2 s h s' e ih => exact ih.trans (Cursor.open_iff_of_turn h e)

theorem isMatch_eq_true_iff : isMatch pattern text = true ↔ Denotes pattern text :=
  (run_eq_true_iff _).trans Cursor.open_start_iff

/-! ## Texts as patterns -/

/-- Every text, stars and question marks included, is one of those that it stands for. -/
theorem denotes_self (p : List Char) : Denotes p p := by
  induction p with
  | nil => exact .nil
  | cons c p ih =>
    by_cases hc : c = '*'
    · subst hc
      exact .star ['*'] ih
    · exact (denotes_cons_cons_iff hc).mpr ⟨.inr rfl, ih⟩

/-- Without a star or a question mark it stands for no other text. -/
theorem denotes_iff_eq {p t : List Char} (hp : ∀ c ∈ p, c ≠ '*' ∧ c ≠ '?') : Denotes p t ↔ p = t := by
  refine ⟨fun h => ?_, fun h => h ▸ denotes_self p⟩
  induction h with
  | nil => rfl
  | star run _ _ => exact absurd rfl (hp '*' List.mem_cons_self).1
  | any c _ _ => exact absurd rfl (hp '?' List.mem_cons_self).2
  | char c _ _ _ ih => rw [ih fun d hd => hp d (List.mem_cons_of_mem c hd)]

theorem denotes_star (t : List Char) : Denotes ['*'] t := by
  simpa using Denotes.star t .nil

/-- A text criterion that no text but itself answers. -/
structure IsLiteral (text : String) : Prop where
  nonempty : text ≠ ""
  starless : ∀ c ∈ text.toList, c ≠ '*' ∧ c ≠ '?'

theorem isLiteral_iff {text : String} :
    IsLiteral text ↔ text ≠ "" ∧ (text.toList.all fun c => c != '*' && c != '?') = true := by
  simp only [List.all_eq_true, Bool.and_eq_true, bne_iff_ne]
  exact ⟨fun h => ⟨h.nonempty, h.starless⟩, fun h => ⟨h.1, h.2⟩⟩

instance (text : String) : Decidable (IsLiteral text) := decidable_of_iff' _ isLiteral_iff

theorem admits_iff {criterion text : String} :
    admits criterion text = true ↔ criterion = "" ∨ Denotes criterion.toList text.toList := by
  simp only [admits, accepts, Bool.or_eq_true, String.isEmpty_iff, beq_iff_eq, isMatch_eq_true_iff]
  constructor
  · rintro ((hempty | hall) | h)
    · exact .inl hempty
    · subst hall
      exact .inr (denotes_star _)
    · exact .inr h
  · rintro (hempty | h)
    · exact .inl (.inl hempty)
    · exact .inr h

@[simp] theorem admits_self (text : String) : admits text text = true := admits_iff.mpr (.inr (denotes_self _))

theorem IsLiteral.admits_iff {criterion text : String} (h : IsLiteral criterion) :
    admits criterion text = true ↔ criterion = text := by
  rw [Pattern.admits_iff, denotes_iff_eq h.starless, String.toList_inj]
  exact or_iff_right h.nonempty

/-! ## Turn by turn -/

/-- Where the comparison is after some turns: at a cursor, or at its answer. -/
def after (pattern text : List Char) : Nat → Turn
  | 0 => .goOn .start
  | n + 1 =>
    match after pattern text n with
    | .goOn s => turn pattern text s
    | .halt result => .halt result

theorem within_of_after {n : Nat} (h : after pattern text n = .goOn s) : s.Within pattern text := by
  induction n generalizing s with
  | zero =>
    cases h
    exact .start pattern text
  | succ n ih =>
    simp only [after] at h
    split at h
    · rename_i s' hs'
      exact (ih hs').turn h
    · cases h

theorem run_halts (h : s.Within pattern text) {n : Nat} (hn : after pattern text n = .goOn s) :
    ∃ m, after pattern text m = .halt (run pattern text s h) := by
  fun_induction run pattern text s h generalizing n with
  | case1 s h result e => exact ⟨n + 1, by simp only [after, hn, e]⟩
  | case2 s h s' e ih => exact ih (n := n + 1) (by simp only [after, hn, e])

/-- The comparison halts, its answer is the declarative reading of the pattern, and at no turn
    is the cursor past the end of the pattern. -/
theorem one_remembered_star_suffices (pattern text : String) :
    (∃ n, after pattern.toList text.toList n = .halt (accepts pattern text)) ∧
      (accepts pattern text = true ↔ Denotes pattern.toList text.toList) ∧
      ∀ n s, after pattern.toList text.toList n = .goOn s → s.p ≤ pattern.toList.length :=
  ⟨run_halts (n := 0) (.start _ _) rfl, isMatch_eq_true_iff, fun _ _ h => (within_of_after h).p_le⟩

end Peripheral.Pattern
