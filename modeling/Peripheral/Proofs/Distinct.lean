import Peripheral.Scan.Subnet

/-
  Peripheral.Proofs.Distinct — keeping the first of what is repeated.

  `distinct` keeps the first of the identities with one key: what comes after a list adds what
  has other keys (`distinct_append`), and what repeats its keys adds nothing
  (`distinct_append_of_subset`). Where the key tells the identities apart, this is `eraseDups`
  (`distinct_eq_eraseDups`). Of the lists in a list, `eraseDups` of all of them keeps each
  element where it is first met: what is kept is ordered by the first list that holds it, and
  within a list as that list is (`pairwise_eraseDups_flatten`).
-/

namespace Peripheral

variable {α : Type} [BEq α]

theorem filter_eraseDups [LawfulBEq α] (p : α → Bool) (l : List α) :
    (l.filter p).eraseDups = l.eraseDups.filter p := by
  cases l with
  | nil => rfl
  | cons a l =>
    have ih := filter_eraseDups p (l.filter fun b => !b == a)
    rw [List.eraseDups_cons, List.filter_cons, List.filter_cons, ← ih, List.filter_filter]
    by_cases hp : p a = true
    · simp only [hp, if_true, List.eraseDups_cons, List.filter_filter, Bool.and_comm]
    · rw [if_neg hp, if_neg hp]
      -- what passes `p` is not `a`
      refine congrArg List.eraseDups (List.filter_congr fun b _ => ?_)
      by_cases hb : b = a
      · simp [hb, hp]
      · simp [hb]
termination_by l.length
decreasing_by
  have := List.length_filter_le (fun b => !b == a) l
  simp only [List.length_cons]
  omega

theorem eraseDups_sublist (l : List α) : l.eraseDups.Sublist l := by
  cases l with
  | nil => exact .slnil
  | cons a l =>
    rw [List.eraseDups_cons]
    exact ((eraseDups_sublist _).trans List.filter_sublist).cons_cons a
termination_by l.length
decreasing_by
  have := List.length_filter_le (fun b => !b == a) l
  simp only [List.length_cons]
  omega

/-- What was met before adds nothing. -/
theorem eraseDups_append_of_subset [LawfulBEq α] {seen l : List α} (h : l ⊆ seen) (rest : List α) :
    (seen ++ (l ++ rest)).eraseDups = (seen ++ rest).eraseDups := by
  have hl : l.removeAll seen = [] := by
    rw [List.removeAll, List.filter_eq_nil_iff]
    intro x hx
    simpa using h hx
  rw [List.eraseDups_append, List.eraseDups_append, List.removeAll, List.filter_append, ← List.removeAll,
    ← List.removeAll, hl, List.nil_append]

/-- The place of the first of some lists that holds an element. -/
def firstHolding {β : Type} [DecidableEq β] (ls : List (List β)) (x : β) : Nat := ls.findIdx fun l => decide (x ∈ l)

theorem pairwise_eraseDups_flatten {β : Type} [DecidableEq β] {lt : β → β → Prop} {ls : List (List β)}
    (h : ∀ l ∈ ls, l.Pairwise lt) :
    ls.flatten.eraseDups.Pairwise fun x y =>
      firstHolding ls x < firstHolding ls y ∨ firstHolding ls x = firstHolding ls y ∧ lt x y := by
  induction ls with
  | nil => exact .nil
  | cons l ls ih =>
    have hhere : ∀ x ∈ l, firstHolding (l :: ls) x = 0 := fun x hx => by
      simp [firstHolding, List.findIdx_cons, hx]
    have hlater : ∀ x, x ∉ l → firstHolding (l :: ls) x = firstHolding ls x + 1 := fun x hx => by
      simp [firstHolding, List.findIdx_cons, hx]
    have hrest : ∀ x ∈ ls.flatten.eraseDups.removeAll l, x ∉ l := fun x hx => by
      simpa using (List.mem_filter.mp hx).2
    rw [List.flatten_cons, List.eraseDups_append, List.removeAll, filter_eraseDups, ← List.removeAll,
      List.pairwise_append]
    refine ⟨?_, ?_, fun x hx y hy => .inl ?_⟩
    · refine ((h l List.mem_cons_self).sublist (eraseDups_sublist l)).imp_of_mem fun hx hy hxy => ?_
      rw [hhere _ (List.mem_eraseDups.mp hx), hhere _ (List.mem_eraseDups.mp hy)]
      exact .inr ⟨rfl, hxy⟩
    · have hpair := ih fun m hm => h m (List.mem_cons_of_mem _ hm)
      refine (hpair.sublist List.filter_sublist).imp_of_mem fun hx hy hxy => ?_
      rw [hlater _ (hrest _ hx), hlater _ (hrest _ hy)]
      exact hxy.imp (Nat.add_lt_add_right · 1) (.imp_left (congrArg (· + 1)))
    · rw [hhere x (List.mem_eraseDups.mp hx), hlater y (hrest y hy)]
      exact Nat.zero_lt_succ _

namespace Scan

/-- Given what was met before, the identities that are kept are those met for the first time. -/
theorem eraseDups_append_distinctAfter (seen : List (Mac × Address × UInt16 × Protocol))
    (before : List HostIdentity) {hosts : List HostIdentity}
    (hinj : ∀ x ∈ hosts, ∀ y ∈ hosts, identityKey x = identityKey y → x = y)
    (hseen : ∀ x ∈ hosts, identityKey x ∈ seen ↔ x ∈ before) :
    before.eraseDups ++ distinctAfter seen hosts = (before ++ hosts).eraseDups := by
  induction hosts generalizing seen before with
  | nil => rw [distinctAfter, List.append_nil, List.append_nil]
  | cons h rest ih =>
    have hinj' : ∀ x ∈ rest, ∀ y ∈ rest, identityKey x = identityKey y → x = y := fun x hx y hy =>
      hinj x (List.mem_cons_of_mem _ hx) y (List.mem_cons_of_mem _ hy)
    have hh := hseen h List.mem_cons_self
    rw [distinctAfter]
    by_cases hk : identityKey h ∈ seen
    · have hseen' := fun x hx => hseen x (List.mem_cons_of_mem h hx)
      rw [if_pos (List.contains_iff_mem.mpr hk), ih seen before hinj' hseen']
      exact (eraseDups_append_of_subset (List.cons_subset.mpr ⟨hh.mp hk, List.nil_subset _⟩) rest).symm
    · rw [if_neg (by simpa using hk)]
      have hnew : (before ++ [h]).eraseDups = before.eraseDups ++ [h] := by
        have : h ∉ before := fun hb => hk (hh.mpr hb)
        simp [List.eraseDups_append, List.eraseDups_cons, List.removeAll, this]
      have := ih (identityKey h :: seen) (before ++ [h]) hinj' fun x hx => ?_
      · simpa [hnew] using this
      · rw [List.mem_cons, List.mem_append, List.mem_singleton, hseen x (List.mem_cons_of_mem _ hx), or_comm]
        refine or_congr_right ⟨?_, congrArg identityKey⟩
        exact hinj x (List.mem_cons_of_mem _ hx) h List.mem_cons_self

theorem distinct_eq_eraseDups {hosts : List HostIdentity}
    (hinj : ∀ x ∈ hosts, ∀ y ∈ hosts, identityKey x = identityKey y → x = y) :
    distinct hosts = hosts.eraseDups :=
  eraseDups_append_distinctAfter [] [] hinj fun _ _ => by simp

/-! ## Lists one after the other -/

variable {seen : List (Mac × Address × UInt16 × Protocol)} {X Y : List HostIdentity}

theorem distinctAfter_congr {seen' : List (Mac × Address × UInt16 × Protocol)} (h : ∀ k, k ∈ seen ↔ k ∈ seen')
    (X : List HostIdentity) : distinctAfter seen X = distinctAfter seen' X := by
  induction X generalizing seen seen' with
  | nil => rfl
  | cons x X ih =>
    have hx : seen.contains (identityKey x) = seen'.contains (identityKey x) := by
      rw [Bool.eq_iff_iff, List.contains_iff_mem, List.contains_iff_mem, h]
    have hcons : ∀ k, k ∈ identityKey x :: seen ↔ k ∈ identityKey x :: seen' := fun k => by
      rw [List.mem_cons, List.mem_cons, h]
    rw [distinctAfter, distinctAfter, hx, ih h, ih hcons]

/-- A key counts as met from its first identity on, whether that one is kept or not. -/
theorem distinctAfter_cons (seen : List (Mac × Address × UInt16 × Protocol)) (x : HostIdentity) (X : List HostIdentity) :
    distinctAfter seen (x :: X) =
      (if identityKey x ∈ seen then [] else [x]) ++ distinctAfter (identityKey x :: seen) X := by
  rw [distinctAfter]
  by_cases hx : identityKey x ∈ seen
  · have hsame : ∀ k, k ∈ seen ↔ k ∈ identityKey x :: seen := fun k => by
      rw [List.mem_cons, iff_or_self]
      rintro rfl
      exact hx
    rw [if_pos (List.contains_iff_mem.mpr hx), if_pos hx, List.nil_append, distinctAfter_congr hsame]
  · rw [if_neg (mt List.contains_iff_mem.mp hx), if_neg hx, List.singleton_append]

/-- It does not matter when the keys were met. -/
theorem distinctAfter_middle (before seen : List (Mac × Address × UInt16 × Protocol))
    (k : Mac × Address × UInt16 × Protocol) (X : List HostIdentity) :
    distinctAfter (before ++ k :: seen) X = distinctAfter (k :: (before ++ seen)) X :=
  distinctAfter_congr (fun _ => List.perm_middle.mem_iff) X

/-- Keys that were met before take away what has them. -/
theorem distinctAfter_append_seen (before seen : List (Mac × Address × UInt16 × Protocol)) (X : List HostIdentity) :
    distinctAfter (before ++ seen) X = (distinctAfter seen X).filter fun x => identityKey x ∉ before := by
  induction X generalizing seen with
  | nil => rfl
  | cons x X ih =>
    have hhead : (if identityKey x ∈ before ++ seen then [] else [x]) =
        (if identityKey x ∈ seen then [] else [x]).filter fun x => identityKey x ∉ before := by
      by_cases hseen : identityKey x ∈ seen <;> by_cases hbefore : identityKey x ∈ before <;> simp [hseen, hbefore]
    rw [distinctAfter_cons, distinctAfter_cons, List.filter_append, hhead, ← ih, distinctAfter_middle]

theorem distinctAfter_append (seen : List (Mac × Address × UInt16 × Protocol)) (X Y : List HostIdentity) :
    distinctAfter seen (X ++ Y) = distinctAfter seen X ++ distinctAfter (X.map identityKey ++ seen) Y := by
  induction X generalizing seen with
  | nil => rfl
  | cons x X ih =>
    rw [List.cons_append, distinctAfter_cons, distinctAfter_cons, ih, distinctAfter_middle, List.append_assoc,
      List.map_cons, List.cons_append]

theorem mem_keys_distinctAfter {k : Mac × Address × UInt16 × Protocol} :
    k ∈ (distinctAfter seen X).map identityKey ↔ k ∈ X.map identityKey ∧ k ∉ seen := by
  induction X generalizing seen with
  | nil => simp [distinctAfter]
  | cons x X ih =>
    rw [distinctAfter]
    by_cases hx : identityKey x ∈ seen
    · simp only [List.contains_iff_mem, hx, if_true, ih, List.map_cons, List.mem_cons]
      refine and_congr_left fun hk => (or_iff_right ?_).symm
      rintro rfl
      exact hk hx
    · simp only [List.contains_iff_mem, hx, if_false, List.map_cons, List.mem_cons, ih, not_or]
      by_cases hk : k = identityKey x
      · simp [hk, hx]
      · simp [hk]

/-- No key is kept twice. -/
theorem nodup_keys_distinctAfter (seen : List (Mac × Address × UInt16 × Protocol)) (X : List HostIdentity) :
    ((distinctAfter seen X).map identityKey).Nodup := by
  induction X generalizing seen with
  | nil => exact .nil
  | cons x X ih =>
    rw [distinctAfter]
    by_cases hx : identityKey x ∈ seen
    · simp only [List.contains_iff_mem, hx, if_true, ih]
    · simp only [List.contains_iff_mem, hx, if_false, List.map_cons, List.nodup_cons]
      refine ⟨fun hmem => ?_, ih _⟩
      exact (mem_keys_distinctAfter.mp hmem).2 List.mem_cons_self

theorem mem_keys_distinct {k : Mac × Address × UInt16 × Protocol} :
    k ∈ (distinct X).map identityKey ↔ k ∈ X.map identityKey :=
  mem_keys_distinctAfter.trans (and_iff_left List.not_mem_nil)

/-- The later of two lists adds what has other keys than the earlier one. -/
theorem distinct_append (X Y : List HostIdentity) :
    distinct (X ++ Y) = distinct X ++ (distinct Y).filter fun y => identityKey y ∉ (distinct X).map identityKey := by
  rw [distinct, distinctAfter_append, distinctAfter_append_seen]
  simp only [mem_keys_distinct]
  rfl

/-- What repeats keys adds nothing. -/
theorem distinct_append_of_subset (h : Y.map identityKey ⊆ X.map identityKey) (Z : List HostIdentity) :
    distinct (X ++ (Y ++ Z)) = distinct (X ++ Z) := by
  have hY : (distinct Y).filter (fun y => identityKey y ∉ (distinct X).map identityKey) = [] := by
    rw [List.filter_eq_nil_iff]
    intro y hy
    have hkey : identityKey y ∈ (distinct Y).map identityKey := List.mem_map_of_mem hy
    simpa using List.mem_map.mp (mem_keys_distinct.mpr (h (mem_keys_distinct.mp hkey)))
  have hXY : distinct (X ++ Y) = distinct X := by rw [distinct_append, hY, List.append_nil]
  rw [← List.append_assoc, distinct_append, hXY, ← distinct_append]

end Scan

end Peripheral
