import Mathlib.Algebra.GroupWithZero.Nat
import Peripheral.Discovery.Schedule
import Peripheral.Proofs.Discovery.Manager

/-
  Peripheral.Proofs.Discovery.Schedule — discoveries that share a manager do not disturb each
  other, in any order of their steps.

  The lock has at most one owner (`Exclusive`), and the USB context is given up only when
  nobody has it, so an admitted discovery finds the manager as it was at first (`Inv.usb`).
  What each discovery has told and is to tell is therefore fixed by its stage (`Call.Sound`):
  on a bus that does not change it is what it would tell alone. Every turn brings the
  discoveries nearer to their end (`wellFounded_turn`), and one can be taken until all are over
  (`exists_turn`).
-/

namespace Peripheral.Discovery.Schedule

open Report (told batch statuses batches)

variable {w : Surroundings} {m : Manager} {s t : State} {i : Nat} {k : Call}

/-! ## What a discovery tells -/

theorem told_append_cons (said : List Report) (r : Report) (rest : List Report) :
    told (said ++ [r] ++ rest) = told (said ++ r :: rest) := by
  rw [List.append_assoc]
  rfl

theorem told_append_pause (said : List Report) (work : Work) (rest : List Report) :
    told (said ++ .notice (.pause work) :: rest) = told (said ++ rest) := by
  rw [Report.told_append, Report.told_append]
  rfl

namespace Call

/-- What a session tells before its first look at the flag. -/
def opening (k : Call) : List Report := if k.isSession then [.status .queued] else []

/-- What a refused session tells. -/
def closing (k : Call) : List Report := if k.isSession then [.status .completed] else []

theorem told_fresh (cs : List Criteria) (isSession : Bool) :
    told ([] ++ if isSession then Manager.queued cs else []) = (fresh cs isSession).opening := by
  cases isSession <;> rfl

theorem told_refuse (h : told k.said = k.opening) :
    told (k.said ++ if k.isSession then Manager.aborted else []) = k.opening ++ k.closing := by
  have hclosing : told (if k.isSession then Manager.aborted else []) = k.closing := by
    unfold closing
    cases k.isSession <;> rfl
  rw [Report.told_append, h, hclosing]

/-- All that an admitted discovery tells. -/
def whole (w : Surroundings) (m : Manager) (k : Call) : List Report :=
  k.opening ++ .status .enumeratingUsb :: m.phases w k.criteria

/-- What a discovery has told and is to tell in its stage, and what it may count on there. -/
def Sound (w : Surroundings) (m : Manager) (isReleased isShutDown : Bool) (k : Call) : Prop :=
  match k.stage with
  | .begun rest => told (k.said ++ rest) = k.opening
  | .waiting | .entered => told k.said = k.opening
  | .admitted rest => told (k.said ++ rest) = k.opening ++ [.status .enumeratingUsb] ∧
      isReleased = false ∧ m.isShutDown = false
  | .running rest | .paused rest => told (k.said ++ rest) = k.whole w m ∧ isReleased = false ∧ m.isShutDown = false
  | .completed => told k.said = k.whole w m ∧ m.isShutDown = false
  | .refusing rest => told (k.said ++ rest) = k.opening ++ k.closing ∧ isShutDown = true
  | .refused => told k.said = k.opening ++ k.closing ∧ isShutDown = true
  | .abandoned => told k.said <+: k.whole w m

end Call

/-- Raising the flag changes nothing for a call that is under way. -/
theorem Call.Sound.raise {isReleased isShutDown : Bool} (hs : k.Sound w m isReleased isShutDown) :
    k.Sound w m isReleased true := by
  obtain ⟨cs, isSession, stage, said⟩ := k
  cases stage with
  | refusing rest => exact ⟨hs.1, rfl⟩
  | refused => exact ⟨hs.1, rfl⟩
  | _ => exact hs

/-- Nor does giving up the USB context, for a call without the lock. -/
theorem Call.Sound.release {isReleased isShutDown : Bool} (hs : k.Sound w m isReleased isShutDown)
    (hlock : k.stage.hasLock = false) : k.Sound w m true isShutDown := by
  obtain ⟨cs, isSession, stage, said⟩ := k
  cases stage with
  | admitted rest => cases hlock
  | running rest => cases hlock
  | paused rest => cases hlock
  | _ => exact hs

/-- The stages in which work that was given away may go on. -/
def Stage.hasGiven : Stage → Bool
  | paused _ | abandoned => true
  | _ => false

/-- Whoever makes a report is in one of four stages, and stays in it. -/
theorem Stage.cases_of_next? {stage next : Stage} {r : Report} (h : stage.next? = some (r, next)) : ∃ rest,
    stage = .begun (r :: rest) ∧ next = .begun rest ∨ stage = .admitted (r :: rest) ∧ next = .admitted rest ∨
      stage = .running (r :: rest) ∧ next = .running rest ∨ stage = .refusing (r :: rest) ∧ next = .refusing rest := by
  unfold next? at h
  split at h
  · cases h
    exact ⟨_, .inl ⟨rfl, rfl⟩⟩
  · cases h
    exact ⟨_, .inr (.inl ⟨rfl, rfl⟩)⟩
  · cases h
  · cases h
    exact ⟨_, .inr (.inr (.inl ⟨rfl, rfl⟩))⟩
  · cases h
    exact ⟨_, .inr (.inr (.inr ⟨rfl, rfl⟩))⟩
  · cases h

theorem Call.Sound.at_stage {isReleased isShutDown : Bool} {stage : Stage} (hs : k.Sound w m isReleased isShutDown)
    (hstage : k.stage = stage) : Call.Sound w m isReleased isShutDown { k with stage } := by
  subst hstage
  exact hs

theorem Call.Sound.say {isReleased isShutDown : Bool} {r : Report} {next : Stage}
    (hs : k.Sound w m isReleased isShutDown) (hnext : k.stage.next? = some (r, next)) :
    Call.Sound w m isReleased isShutDown { k with stage := next, said := k.said ++ [r] } := by
  obtain ⟨rest, ⟨hstage, rfl⟩ | ⟨hstage, rfl⟩ | ⟨hstage, rfl⟩ | ⟨hstage, rfl⟩⟩ :=
    Stage.cases_of_next? hnext
  · exact (told_append_cons k.said r rest).trans (hs.at_stage hstage)
  · exact (hs.at_stage hstage).imp_left (told_append_cons k.said r rest).trans
  · exact (hs.at_stage hstage).imp_left (told_append_cons k.said r rest).trans
  · exact (hs.at_stage hstage).imp_left (told_append_cons k.said r rest).trans

/-! ## The lock and the work on other threads -/

theorem getElem?_setCall_self (k' : Call) (hk : s.calls[i]? = some k) : (s.setCall i k').calls[i]? = some k' :=
  List.getElem?_set_self (List.getElem?_eq_some_iff.mp hk).1

theorem getElem?_setCall_ne (k' : Call) {j : Nat} (hij : i ≠ j) : (s.setCall i k').calls[j]? = s.calls[j]? :=
  List.getElem?_set_ne hij

theorem hasLock_of_isFree (hfree : s.isFree = true) (hk : k ∈ s.calls) : k.stage.hasLock = false := by
  have hall := List.all_eq_true.mp hfree k hk
  simpa using hall

/-- The lock has one owner at most, and work on other threads was given by those who wait for it or were abandoned. -/
structure Exclusive (s : State) : Prop where
  owner : ∀ (i j : Nat) (k l : Call), s.calls[i]? = some k → s.calls[j]? = some l →
    k.stage.hasLock = true → l.stage.hasLock = true → i = j
  giver : ∀ x ∈ s.working, ∃ k, s.calls[x.1]? = some k ∧ k.stage.hasGiven = true
  /-- Nobody gives two pieces of work away at once. -/
  apart : (s.working.map Prod.fst).Nodup

namespace Exclusive

theorem start (m : Manager) : Exclusive { manager := m } := by
  refine ⟨?_, nofun, List.nodup_nil⟩
  intro i j k l hk
  rw [List.getElem?_nil] at hk
  cases hk

/-- A call moves: it takes the lock only if that is free, and no work of its own is left behind. -/
theorem setCall (h : Exclusive s) {k' : Call} (hk : s.calls[i]? = some k)
    (hlock : k'.stage.hasLock = true → k.stage.hasLock = true ∨ s.isFree = true)
    (hgiven : k.stage.hasGiven = true → k'.stage.hasGiven = true ∨ ∀ x ∈ s.working, x.1 ≠ i) :
    Exclusive (s.setCall i k') where
  owner := by
    -- nobody else has the lock when this call has it
    have hother : ∀ j l, i ≠ j → s.calls[j]? = some l → l.stage.hasLock = true → ¬ k'.stage.hasLock = true := by
      intro j l hij hl hlocked hlock'
      rcases hlock hlock' with hhad | hfree
      · exact hij (h.owner i j k l hk hl hhad hlocked)
      · rw [hasLock_of_isFree hfree (List.mem_of_getElem? hl)] at hlocked
        cases hlocked
    intro a b ka kb ha hb hla hlb
    by_cases hia : i = a
    · subst hia
      rw [getElem?_setCall_self k' hk] at ha
      cases ha
      by_cases hib : i = b
      · exact hib
      · rw [getElem?_setCall_ne k' hib] at hb
        exact absurd hla (hother b kb hib hb hlb)
    · rw [getElem?_setCall_ne k' hia] at ha
      by_cases hib : i = b
      · subst hib
        rw [getElem?_setCall_self k' hk] at hb
        cases hb
        exact absurd hlb (hother a ka hia ha hla)
      · rw [getElem?_setCall_ne k' hib] at hb
        exact h.owner a b ka kb ha hb hla hlb
  giver := by
    intro x hx
    obtain ⟨l, hl, hl'⟩ := h.giver x hx
    by_cases hix : i = x.1
    · subst hix
      cases hl.symm.trans hk
      rcases hgiven hl' with hk' | hnone
      · exact ⟨k', getElem?_setCall_self k' hk, hk'⟩
      · exact absurd rfl (hnone x hx)
    · exact ⟨l, (getElem?_setCall_ne k' hix).trans hl, hl'⟩
  apart := h.apart

/-- What a call does that has given no work away. -/
theorem setCall_idle (h : Exclusive s) {k' : Call} (hk : s.calls[i]? = some k)
    (hlock : k'.stage.hasLock = true → k.stage.hasLock = true ∨ s.isFree = true) (hidle : k.stage.hasGiven = false) :
    Exclusive (s.setCall i k') :=
  h.setCall hk hlock fun hgiven => absurd (hidle.symm.trans hgiven) Bool.false_ne_true

theorem ne_of_idle (h : Exclusive s) (hk : s.calls[i]? = some k) (hidle : k.stage.hasGiven = false) :
    ∀ x ∈ s.working, x.1 ≠ i := by
  intro x hx hxi
  obtain ⟨l, hl, hgiven⟩ := h.giver x hx
  rw [hxi] at hl
  cases hl.symm.trans hk
  rw [hidle] at hgiven
  cases hgiven

/-- The owner of the lock gives work away. -/
theorem give (h : Exclusive s) (hk : s.calls[i]? = some k) (hlock : k.stage.hasLock = true)
    (hidle : k.stage.hasGiven = false) (work : Work) (rest : List Report) :
    Exclusive ({ s with working := s.working ++ [(i, work)] }.setCall i { k with stage := .paused rest }) := by
  have hset : Exclusive (s.setCall i { k with stage := .paused rest }) :=
    h.setCall_idle hk (fun _ => .inl hlock) hidle
  refine ⟨hset.owner, ?_, ?_⟩
  · intro x hx
    rcases List.mem_append.mp hx with hx | hx
    · exact hset.giver x hx
    · rw [List.mem_singleton.mp hx]
      exact ⟨_, getElem?_setCall_self _ hk, rfl⟩
  · show ((s.working ++ [(i, work)]).map Prod.fst).Nodup
    rw [List.map_append]
    refine List.nodup_append.mpr ⟨h.apart, List.pairwise_singleton _ i, ?_⟩
    intro a ha b hb
    obtain ⟨x, hx, rfl⟩ := List.mem_map.mp ha
    rw [List.mem_singleton.mp hb]
    exact h.ne_of_idle hk hidle x hx

/-- A piece of work ends. -/
theorem ends (h : Exclusive s) (x : Nat × Work) : Exclusive { s with working := s.working.erase x } := by
  have hsub : (s.working.erase x).Sublist s.working := List.erase_sublist
  exact ⟨h.owner, fun y hy => h.giver y (hsub.subset hy), h.apart.sublist (hsub.map Prod.fst)⟩

theorem begin (h : Exclusive s) (cs : List Criteria) (isSession : Bool) :
    Exclusive { s with calls := s.calls ++ [Call.fresh cs isSession] } where
  owner := by
    -- the new call does not have the lock
    have hold : ∀ (i : Nat) (k : Call), (s.calls ++ [Call.fresh cs isSession])[i]? = some k → k.stage.hasLock = true →
        s.calls[i]? = some k := by
      intro i k hk hlock
      rw [List.getElem?_append] at hk
      split at hk
      · exact hk
      · rw [List.getElem?_singleton] at hk
        split at hk
        · cases hk
          cases hlock
        · cases hk
    intro i j k l hk hl hlk hll
    exact h.owner i j k l (hold i k hk hlk) (hold j l hl hll) hlk hll
  giver := by
    intro x hx
    obtain ⟨k, hk, hgiven⟩ := h.giver x hx
    exact ⟨k, List.getElem?_append_left (List.getElem?_eq_some_iff.mp hk).1 ▸ hk, hgiven⟩
  apart := h.apart

theorem turn (h : Exclusive s) (ht : Turn w s t) : Exclusive t := by
  cases ht with
  | say i k r next hk hnext =>
    obtain ⟨rest, ⟨hstage, rfl⟩ | ⟨hstage, rfl⟩ | ⟨hstage, rfl⟩ | ⟨hstage, rfl⟩⟩ := Stage.cases_of_next? hnext
    all_goals exact h.setCall_idle hk (fun hlock => .inl (by rw [hstage]; exact hlock)) (by rw [hstage]; rfl)
  | look i k hk hstage =>
    refine h.setCall_idle hk ?_ (by rw [hstage]; rfl)
    split <;> exact nofun
  | enter i k hk hstage hfree => exact h.setCall_idle hk (fun _ => .inr hfree) (by rw [hstage]; rfl)
  | lookAgain i k hk hstage => exact h.setCall_idle hk (fun _ => .inl (by rw [hstage]; rfl)) (by rw [hstage]; rfl)
  | setOut i k reports probed j hk hstage _ =>
    have hset : Exclusive (s.setCall i { k with stage := .running reports }) :=
      h.setCall_idle hk (fun _ => .inl (by rw [hstage]; rfl)) (by rw [hstage]; rfl)
    exact ⟨hset.owner, hset.giver, hset.apart⟩
  | pause i k work rest hk hstage => exact h.give hk (by rw [hstage]; rfl) (by rw [hstage]; rfl) work rest
  | workEnds x _ => exact h.ends x
  | resume i k rest hk hstage hnone => exact h.setCall hk (fun _ => .inl (by rw [hstage]; rfl)) fun _ => .inr hnone
  | complete i k hk hstage => exact h.setCall_idle hk nofun (by rw [hstage]; rfl)
  | leave i k hk hstage => exact h.setCall_idle hk nofun (by rw [hstage]; rfl)

theorem step (h : Exclusive s) (ht : Step w s t) : Exclusive t := by
  cases ht with
  | turn ht => exact h.turn ht
  | begin cs isSession => exact h.begin cs isSession
  | abandon i k hk _ _ => exact h.setCall hk nofun fun _ => .inl rfl
  | raise => exact ⟨h.owner, h.giver, h.apart⟩
  | release _ _ => exact ⟨h.owner, h.giver, h.apart⟩

end Exclusive

theorem Reach.exclusive (h : Reach w m s) : Exclusive s := by
  induction h with
  | start => exact .start m
  | step _ ht ih => exact ih.step ht

/-- What holds at every moment. -/
structure Inv (w : Surroundings) (m : Manager) (s : State) : Prop where
  owner : ∀ (i j : Nat) (k l : Call), s.calls[i]? = some k → s.calls[j]? = some l →
    k.stage.hasLock = true → l.stage.hasLock = true → i = j
  manager : s.manager = { m with usb := s.manager.usb, isShutDown := s.manager.isShutDown }
  usb : s.isReleased = false → s.manager.usb = m.usb
  raised : s.isReleased = true ∨ m.isShutDown = true → s.manager.isShutDown = true
  sound : ∀ k ∈ s.calls, k.Sound w m s.isReleased s.manager.isShutDown
  giver : ∀ x ∈ s.working, ∃ k, s.calls[x.1]? = some k ∧ k.stage.hasGiven = true
  /-- Nobody gives two pieces of work away at once. -/
  apart : (s.working.map Prod.fst).Nodup

/-! ## One call moves -/

namespace Inv

theorem exclusive (h : Inv w m s) : Exclusive s := ⟨h.owner, h.giver, h.apart⟩

theorem setCall (h : Inv w m s) {k' : Call} (hk : s.calls[i]? = some k)
    (hlock : k'.stage.hasLock = true → k.stage.hasLock = true ∨ s.isFree = true)
    (hgiven : k.stage.hasGiven = true → k'.stage.hasGiven = true ∨ ∀ x ∈ s.working, x.1 ≠ i)
    (hsound : k'.Sound w m s.isReleased s.manager.isShutDown) : Inv w m (s.setCall i k') where
  owner := (h.exclusive.setCall hk hlock hgiven).owner
  manager := h.manager
  usb := h.usb
  raised := h.raised
  sound := by
    intro l hl
    rcases List.mem_or_eq_of_mem_set hl with hl | rfl
    · exact h.sound l hl
    · exact hsound
  giver := (h.exclusive.setCall hk hlock hgiven).giver
  apart := h.apart

/-- What a call does that has given no work away. -/
theorem setCall_idle (h : Inv w m s) {k' : Call} (hk : s.calls[i]? = some k)
    (hlock : k'.stage.hasLock = true → k.stage.hasLock = true ∨ s.isFree = true) (hidle : k.stage.hasGiven = false)
    (hsound : k'.Sound w m s.isReleased s.manager.isShutDown) : Inv w m (s.setCall i k') :=
  h.setCall hk hlock (fun hgiven => absurd (hidle.symm.trans hgiven) Bool.false_ne_true) hsound

theorem sound_of (h : Inv w m s) (hk : s.calls[i]? = some k) : k.Sound w m s.isReleased s.manager.isShutDown :=
  h.sound k (List.mem_of_getElem? hk)

theorem refuse (h : Inv w m s) (hk : s.calls[i]? = some k) (hidle : k.stage.hasGiven = false)
    (htold : told k.said = k.opening) (hflag : s.manager.isShutDown = true) : Inv w m (s.setCall i k.refuse) :=
  h.setCall_idle hk (fun hlock => by cases hlock) hidle ⟨Call.told_refuse htold, hflag⟩

theorem turn (hbus : w.bus.IsSteady) (h : Inv w m s) (ht : Turn w s t) : Inv w m t := by
  cases ht with
  | say i k r next hk hnext =>
    have hs := (h.sound_of hk).say hnext
    obtain ⟨rest, ⟨hstage, rfl⟩ | ⟨hstage, rfl⟩ | ⟨hstage, rfl⟩ | ⟨hstage, rfl⟩⟩ :=
      Stage.cases_of_next? hnext
    all_goals exact h.setCall_idle hk (fun hlock => .inl (by rw [hstage]; exact hlock)) (by rw [hstage]; rfl) hs
  | look i k hk hstage =>
    have hs : told (k.said ++ []) = k.opening := (h.sound_of hk).at_stage hstage
    rw [List.append_nil] at hs
    by_cases hflag : s.manager.isShutDown = true
    · rw [if_pos hflag]
      exact h.refuse hk (by rw [hstage]; rfl) hs hflag
    · rw [if_neg hflag]
      exact h.setCall_idle hk nofun (by rw [hstage]; rfl) hs
  | enter i k hk hstage hfree =>
    have hs : told k.said = k.opening := (h.sound_of hk).at_stage hstage
    exact h.setCall_idle hk (fun _ => .inr hfree) (by rw [hstage]; rfl) hs
  | lookAgain i k hk hstage =>
    have hs : told k.said = k.opening := (h.sound_of hk).at_stage hstage
    by_cases hflag : s.manager.isShutDown = true
    · rw [if_pos hflag]
      exact h.refuse hk (by rw [hstage]; rfl) hs hflag
    · rw [if_neg hflag]
      have htold : told (k.said ++ Manager.announced k.criteria) = k.opening ++ [.status .enumeratingUsb] := by
        rw [Report.told_append, hs]
        rfl
      -- the flag is down, so neither a shutdown is over nor was the manager shut down from the start
      have hreleased : s.isReleased = false := eq_false_of_ne_true fun hr => hflag (h.raised (.inl hr))
      have hm : m.isShutDown = false := eq_false_of_ne_true fun hr => hflag (h.raised (.inr hr))
      exact h.setCall_idle hk (fun _ => .inl (by rw [hstage]; rfl)) (by rw [hstage]; rfl) ⟨htold, hreleased, hm⟩
  | setOut i k reports probed j hk hstage hrun =>
    obtain ⟨htold, hreleased, hm⟩ : told (k.said ++ []) = k.opening ++ [Report.status .enumeratingUsb] ∧
      s.isReleased = false ∧ m.isShutDown = false := (h.sound_of hk).at_stage hstage
    rw [List.append_nil] at htold
    have hsame : s.manager.phases w k.criteria = m.phases w k.criteria := by
      rw [h.manager, h.usb hreleased]
      rfl
    have hcourse := Manager.told_course s.manager k.criteria hbus s.journal
    rw [hrun, hsame] at hcourse
    have hwhole : told (k.said ++ reports) = k.whole w m := by
      rw [Report.told_append, htold, hcourse, List.append_assoc]
      rfl
    have hset : Inv w m (s.setCall i { k with stage := .running reports }) :=
      h.setCall_idle hk (fun _ => .inl (by rw [hstage]; rfl)) (by rw [hstage]; rfl) ⟨hwhole, hreleased, hm⟩
    exact ⟨hset.owner, hset.manager, hset.usb, hset.raised, hset.sound, hset.giver, hset.apart⟩
  | pause i k work rest hk hstage =>
    obtain ⟨htold, hheld⟩ : told (k.said ++ .notice (.pause work) :: rest) = k.whole w m ∧ _ :=
      (h.sound_of hk).at_stage hstage
    have hwhole : told (k.said ++ rest) = k.whole w m := (told_append_pause k.said work rest).symm.trans htold
    have hidle : k.stage.hasGiven = false := by rw [hstage]; rfl
    have hset : Inv w m (s.setCall i { k with stage := .paused rest }) :=
      h.setCall_idle hk (fun _ => .inl (by rw [hstage]; rfl)) hidle ⟨hwhole, hheld⟩
    have hgive := h.exclusive.give hk (by rw [hstage]; rfl) hidle work rest
    exact ⟨hset.owner, hset.manager, hset.usb, hset.raised, hset.sound, hgive.giver, hgive.apart⟩
  | workEnds x hx =>
    have hends := h.exclusive.ends x
    exact ⟨h.owner, h.manager, h.usb, h.raised, h.sound, hends.giver, hends.apart⟩
  | resume i k rest hk hstage hnone =>
    have hs : told (k.said ++ rest) = k.whole w m ∧ _ := (h.sound_of hk).at_stage hstage
    exact h.setCall hk (fun _ => .inl (by rw [hstage]; rfl)) (fun _ => .inr hnone) hs
  | complete i k hk hstage =>
    obtain ⟨htold, -, hm⟩ : told (k.said ++ []) = k.whole w m ∧ _ := (h.sound_of hk).at_stage hstage
    rw [List.append_nil] at htold
    exact h.setCall_idle hk nofun (by rw [hstage]; rfl) ⟨htold, hm⟩
  | leave i k hk hstage =>
    obtain ⟨htold, hflag⟩ : told (k.said ++ []) = k.opening ++ k.closing ∧ _ := (h.sound_of hk).at_stage hstage
    rw [List.append_nil] at htold
    exact h.setCall_idle hk nofun (by rw [hstage]; rfl) ⟨htold, hflag⟩

theorem begin (h : Inv w m s) (cs : List Criteria) (isSession : Bool) :
    Inv w m { s with calls := s.calls ++ [Call.fresh cs isSession] } where
  owner := (h.exclusive.begin cs isSession).owner
  manager := h.manager
  usb := h.usb
  raised := h.raised
  sound := by
    intro k hk
    rcases List.mem_append.mp hk with hk | hk
    · exact h.sound k hk
    · rw [List.mem_singleton.mp hk]
      exact Call.told_fresh cs isSession
  giver := (h.exclusive.begin cs isSession).giver
  apart := h.apart

theorem abandon (h : Inv w m s) (hk : s.calls[i]? = some k) (hwaits : k.stage.waits = true) :
    Inv w m (s.setCall i { k with stage := .abandoned }) := by
  have hsound : told k.said <+: k.whole w m := by
    have hs := h.sound_of hk
    cases hstage : k.stage with
    | waiting =>
      have hsaid : told k.said = k.opening := hs.at_stage hstage
      exact ⟨_, congrArg (· ++ _) hsaid⟩
    | paused rest =>
      obtain ⟨htold, -⟩ : told (k.said ++ rest) = k.whole w m ∧ _ := hs.at_stage hstage
      exact ⟨told rest, by rw [← htold, Report.told_append]⟩
    | _ => rw [hstage] at hwaits; cases hwaits
  exact h.setCall hk nofun (fun _ => .inl rfl) hsound

theorem raise (h : Inv w m s) : Inv w m { s with manager := { s.manager with isShutDown := true } } where
  owner := h.owner
  manager := by
    show { s.manager with isShutDown := true } = { m with usb := s.manager.usb, isShutDown := true }
    rw [h.manager]
  usb := h.usb
  raised _ := rfl
  sound k hk := (h.sound k hk).raise
  giver := h.giver
  apart := h.apart

theorem release (h : Inv w m s) (hflag : s.manager.isShutDown = true) (hfree : s.isFree = true) :
    Inv w m { s with manager := { s.manager with usb := false }, isReleased := true } where
  owner := h.owner
  manager := by
    show { s.manager with usb := false } = { m with usb := false, isShutDown := s.manager.isShutDown }
    rw [h.manager]
  usb := nofun
  raised _ := hflag
  sound k hk := (h.sound k hk).release (hasLock_of_isFree hfree hk)
  giver := h.giver
  apart := h.apart

theorem step (hbus : w.bus.IsSteady) (h : Inv w m s) (ht : Step w s t) : Inv w m t := by
  cases ht with
  | turn ht => exact h.turn hbus ht
  | begin cs isSession => exact h.begin cs isSession
  | abandon i k hk hwaits _ => exact h.abandon hk hwaits
  | raise => exact h.raise
  | release hflag hfree => exact h.release hflag hfree

end Inv

theorem inv (hbus : w.bus.IsSteady) (h : Reach w m s) : Inv w m s := by
  induction h with
  | start =>
    refine ⟨(Exclusive.start m).owner, rfl, fun _ => rfl, ?_, nofun, nofun, List.nodup_nil⟩
    rintro (hr | hm)
    · cases hr
    · exact hm
  | step _ ht ih => exact ih.step hbus ht

/-! ## Every discovery comes to its end -/

/-- The looks at the flag and the waits before the course of a discovery is known. -/
def Stage.ahead : Stage → Nat
  | begun _ => 4
  | waiting => 3
  | entered => 2
  | admitted _ => 1
  | _ => 0

/-- The turns that are left, work on other threads apart; a pause takes two more and one for the work. -/
def Stage.left : Stage → Nat
  | begun rest | admitted rest => rest.length
  | running rest => 3 * rest.length + 1
  | paused rest => 3 * rest.length + 2
  | refusing rest => rest.length + 1
  | _ => 0

/-- What is left to do: it becomes known how much when the course of a discovery does. -/
def State.left (s : State) : Nat × Nat :=
  ((s.calls.map fun k => k.stage.ahead).sum, (s.calls.map fun k => k.stage.left).sum + s.working.length)

theorem sum_map_set {α : Type} (f : α → Nat) {l : List α} {i : Nat} {a : α} (b : α) (h : l[i]? = some a) :
    ((l.set i b).map f).sum + f a = (l.map f).sum + f b := by
  induction l generalizing i with
  | nil => cases h
  | cons x l ih =>
    cases i with
    | zero =>
      cases h
      simp only [List.set_cons_zero, List.map_cons, List.sum_cons]
      omega
    | succ i =>
      have := ih h
      simp only [List.set_cons_succ, List.map_cons, List.sum_cons]
      omega

/-- The order in which what is left to do grows less. -/
abbrev Less : Nat × Nat → Nat × Nat → Prop := Prod.Lex (· < ·) (· < ·)

theorem left_of_ahead_lt {k' : Call} (hk : s.calls[i]? = some k) (ht : t.calls = s.calls.set i k')
    (hlt : k'.stage.ahead < k.stage.ahead) : Less t.left s.left := by
  have hsum := sum_map_set (fun k : Call => k.stage.ahead) k' hk
  apply Prod.Lex.left
  show (t.calls.map fun k => k.stage.ahead).sum < (s.calls.map fun k => k.stage.ahead).sum
  rw [ht]
  omega

theorem left_of_left_lt {k' : Call} (hk : s.calls[i]? = some k) (ht : t.calls = s.calls.set i k')
    (heq : k'.stage.ahead = k.stage.ahead)
    (hlt : k'.stage.left + t.working.length < k.stage.left + s.working.length) : Less t.left s.left := by
  have hahead := sum_map_set (fun k : Call => k.stage.ahead) k' hk
  have hleft := sum_map_set (fun k : Call => k.stage.left) k' hk
  apply Prod.lex_def.mpr
  right
  unfold State.left
  rw [ht]
  exact ⟨by omega, by omega⟩

theorem left_turn (ht : Turn w s t) : Less t.left s.left := by
  cases ht with
  | say i k r next hk hnext =>
    obtain ⟨rest, ⟨hstage, rfl⟩ | ⟨hstage, rfl⟩ | ⟨hstage, rfl⟩ | ⟨hstage, rfl⟩⟩ :=
      Stage.cases_of_next? hnext
    all_goals
      apply left_of_left_lt hk rfl
      · rw [hstage]
        rfl
      · rw [hstage]
        simp only [State.setCall, Stage.left, List.length_cons]
        omega
  | look i k hk hstage =>
    apply left_of_ahead_lt hk rfl
    rw [hstage]
    by_cases hflag : s.manager.isShutDown = true
    · rw [if_pos hflag]
      show 0 < 4
      omega
    · rw [if_neg hflag]
      show 3 < 4
      omega
  | enter i k hk hstage _ =>
    apply left_of_ahead_lt hk rfl
    rw [hstage]
    show 2 < 3
    omega
  | lookAgain i k hk hstage =>
    apply left_of_ahead_lt hk rfl
    rw [hstage]
    by_cases hflag : s.manager.isShutDown = true
    · rw [if_pos hflag]
      show 0 < 2
      omega
    · rw [if_neg hflag]
      show 1 < 2
      omega
  | setOut i k reports probed j hk hstage _ =>
    apply left_of_ahead_lt hk rfl
    rw [hstage]
    show 0 < 1
    omega
  | pause i k work rest hk hstage =>
    apply left_of_left_lt hk rfl
    · rw [hstage]
      rfl
    · rw [hstage]
      simp only [State.setCall, Stage.left, List.length_cons, List.length_append, List.length_nil]
      omega
  | workEnds x hx =>
    apply Prod.Lex.right
    have hpos := List.length_pos_of_mem hx
    have herase := List.length_erase_of_mem hx
    have hlt : (s.working.erase x).length < s.working.length := by omega
    exact Nat.add_lt_add_left hlt _
  | resume i k rest hk hstage _ =>
    apply left_of_left_lt hk rfl
    · rw [hstage]
      rfl
    · rw [hstage]
      simp only [State.setCall, Stage.left]
      omega
  | complete i k hk hstage =>
    apply left_of_left_lt hk rfl
    · rw [hstage]
      rfl
    · rw [hstage]
      simp only [State.setCall, Stage.left, List.length_nil]
      omega
  | leave i k hk hstage =>
    apply left_of_left_lt hk rfl
    · rw [hstage]
      rfl
    · rw [hstage]
      simp only [State.setCall, Stage.left, List.length_nil]
      omega

theorem wellFounded_turn (w : Surroundings) : WellFounded fun t s => Turn w s t :=
  Subrelation.wf (fun ht => left_turn ht)
    (InvImage.wf State.left (Prod.lex Nat.lt_wfRel Nat.lt_wfRel).wf)

/-- Whoever does not wait for the lock can take a turn, or the work that is waited for can end. -/
theorem exists_turn_of_call (w : Surroundings) (hk : s.calls[i]? = some k) (hover : k.stage.isOver = false)
    (hwaiting : k.stage ≠ .waiting) : ∃ t, Turn w s t := by
  cases hstage : k.stage with
  | begun rest =>
    cases rest with
    | nil => exact ⟨_, .look s i k hk hstage⟩
    | cons r rest => exact ⟨_, .say s i k r (.begun rest) hk (by rw [hstage]; rfl)⟩
  | waiting => exact absurd hstage hwaiting
  | entered => exact ⟨_, .lookAgain s i k hk hstage⟩
  | admitted rest =>
    cases rest with
    | nil => exact ⟨_, .setOut s i k _ _ _ hk hstage rfl⟩
    | cons r rest => exact ⟨_, .say s i k r (.admitted rest) hk (by rw [hstage]; rfl)⟩
  | running rest =>
    cases rest with
    | nil => exact ⟨_, .complete s i k hk hstage⟩
    | cons r rest =>
      cases r with
      | notice n =>
        cases n with
        | pause work => exact ⟨_, .pause s i k work rest hk hstage⟩
        | event e => exact ⟨_, .say s i k _ (.running rest) hk (by rw [hstage]; rfl)⟩
      | status x => exact ⟨_, .say s i k _ (.running rest) hk (by rw [hstage]; rfl)⟩
      | found ds => exact ⟨_, .say s i k _ (.running rest) hk (by rw [hstage]; rfl)⟩
  | paused rest =>
    by_cases hwork : ∃ x ∈ s.working, x.1 = i
    · obtain ⟨x, hx, -⟩ := hwork
      exact ⟨_, .workEnds s x hx⟩
    · exact ⟨_, .resume s i k rest hk hstage fun x hx hxi => hwork ⟨x, hx, hxi⟩⟩
  | refusing rest =>
    cases rest with
    | nil => exact ⟨_, .leave s i k hk hstage⟩
    | cons r rest => exact ⟨_, .say s i k r (.refusing rest) hk (by rw [hstage]; rfl)⟩
  | _ => rw [hstage] at hover; cases hover

theorem exists_hasLock (hfree : ¬ s.isFree = true) : ∃ k ∈ s.calls, k.stage.hasLock = true := by
  unfold State.isFree at hfree
  simpa using hfree

theorem Stage.isOver_of_hasLock {stage : Stage} (hlock : stage.hasLock = true) : stage.isOver = false := by
  cases stage with
  | completed => cases hlock
  | refused => cases hlock
  | abandoned => cases hlock
  | _ => rfl

/-- No deadlock: as long as a call is not over some turn can be taken. -/
theorem exists_turn (w : Surroundings) (hk : k ∈ s.calls) (hover : k.stage.isOver = false) : ∃ t, Turn w s t := by
  obtain ⟨i, hi⟩ := List.mem_iff_getElem?.mp hk
  by_cases hwaiting : k.stage = .waiting
  · by_cases hfree : s.isFree = true
    · exact ⟨_, .enter s i k hi hwaiting hfree⟩
    · -- the owner of the lock does not wait for it
      obtain ⟨l, hl, hlock⟩ := exists_hasLock hfree
      obtain ⟨j, hj⟩ := List.mem_iff_getElem?.mp hl
      apply exists_turn_of_call w hj (Stage.isOver_of_hasLock hlock)
      intro hw
      rw [hw] at hlock
      cases hlock
  · exact exists_turn_of_call w hi hover hwaiting

/-! ## What each discovery tells its caller -/

namespace Call

theorem opening_le_whole (w : Surroundings) (m : Manager) (k : Call) : k.opening <+: k.whole w m := ⟨_, rfl⟩

/-- At every moment a call has told a part of what an admitted one tells, or of what a refused one tells. -/
theorem Sound.told_le {isReleased isShutDown : Bool} (hs : k.Sound w m isReleased isShutDown) :
    told k.said <+: k.whole w m ∨ told k.said <+: k.opening ++ k.closing := by
  have hle : ∀ {rest all}, told (k.said ++ rest) = all → told k.said <+: all := by
    intro rest all h
    exact ⟨told rest, by rw [← h, Report.told_append]⟩
  cases hstage : k.stage with
  | begun rest =>
    have htold : told (k.said ++ rest) = k.opening := hs.at_stage hstage
    exact .inl ((hle htold).trans (k.opening_le_whole w m))
  | waiting =>
    have htold : told k.said = k.opening := hs.at_stage hstage
    exact .inl (htold ▸ k.opening_le_whole w m)
  | entered =>
    have htold : told k.said = k.opening := hs.at_stage hstage
    exact .inl (htold ▸ k.opening_le_whole w m)
  | admitted rest =>
    obtain ⟨htold, -⟩ : told (k.said ++ rest) = k.opening ++ [Report.status .enumeratingUsb] ∧ _ := hs.at_stage hstage
    exact .inl ((hle htold).trans ⟨m.phases w k.criteria, by rw [List.append_assoc]; rfl⟩)
  | running rest =>
    obtain ⟨htold, -⟩ : told (k.said ++ rest) = k.whole w m ∧ _ := hs.at_stage hstage
    exact .inl (hle htold)
  | paused rest =>
    obtain ⟨htold, -⟩ : told (k.said ++ rest) = k.whole w m ∧ _ := hs.at_stage hstage
    exact .inl (hle htold)
  | completed =>
    obtain ⟨htold, -⟩ : told k.said = k.whole w m ∧ _ := hs.at_stage hstage
    exact .inl (htold ▸ List.prefix_refl _)
  | refusing rest =>
    obtain ⟨htold, -⟩ : told (k.said ++ rest) = k.opening ++ k.closing ∧ _ := hs.at_stage hstage
    exact .inr (hle htold)
  | refused =>
    obtain ⟨htold, -⟩ : told k.said = k.opening ++ k.closing ∧ _ := hs.at_stage hstage
    exact .inr (htold ▸ List.prefix_refl _)
  | abandoned => exact .inl (hs.at_stage hstage)

theorem batches_opening (k : Call) : batches k.opening = [] := by
  unfold opening
  cases k.isSession <;> rfl

theorem batches_closing (k : Call) : batches k.closing = [] := by
  unfold closing
  cases k.isSession <;> rfl

theorem batches_whole (w : Surroundings) (m : Manager) (k : Call) :
    batches (k.whole w m) = batches (m.phases w k.criteria) := by
  unfold whole
  rw [Report.batches_append, batches_opening]
  rfl

theorem statuses_whole (w : Surroundings) (m : Manager) (hses : k.isSession = true) :
    statuses (k.whole w m) = [.queued, .enumeratingUsb, .enumeratingEthernet, .completed] := by
  unfold whole opening
  rw [if_pos hses, Report.statuses_append]
  show [Status.queued] ++ .enumeratingUsb :: statuses (m.phases w k.criteria) = _
  rw [Manager.statuses_phases]
  rfl

theorem Sound.ne_nil_of_mem_batches {isReleased isShutDown : Bool} (hs : k.Sound w m isReleased isShutDown)
    {ds : List Device} (hds : ds ∈ batches k.said) : ds ≠ [] := by
  rw [← Report.batches_told] at hds
  rcases hs.told_le with hle | hle
  · have hmem : ds ∈ batches (k.whole w m) := (hle.sublist.filterMap _).subset hds
    rw [batches_whole] at hmem
    exact Manager.ne_nil_of_mem_batches_phases hmem
  · have hmem : ds ∈ batches (k.opening ++ k.closing) := (hle.sublist.filterMap _).subset hds
    rw [Report.batches_append, batches_opening, batches_closing] at hmem
    cases hmem

end Call

/-- What holds of the discoveries on the manager `m` at every moment. -/
structure Isolated (w : Surroundings) (m : Manager) (s : State) : Prop where
  /-- One discovery at most is between taking the lock and giving it back. -/
  alone : ∀ (i j : Nat) (k l : Call), s.calls[i]? = some k → s.calls[j]? = some l →
    k.stage.hasLock = true → l.stage.hasLock = true → i = j
  /-- Unless one was abandoned, only the owner of the lock has work on other threads, one piece at a time. -/
  oneWork : (∀ k ∈ s.calls, k.stage ≠ .abandoned) → s.working.length ≤ 1 ∧
    ∀ x ∈ s.working, ∃ k rest, s.calls[x.1]? = some k ∧ k.stage = .paused rest
  /-- The devices that a discovery alone would return are told in batches between the statuses. -/
  inPhases : ∀ k ∈ s.calls, ∃ usb ethernet http : List Device,
    (∀ d ∈ usb, d.transport = .libusb ∨ d.transport = .ftdi) ∧ (∀ d ∈ ethernet, d.transport = .ethernet) ∧
    (∀ d ∈ http, d.transport = .http) ∧
    (m.isShutDown = false → ∀ j, ((m.discover w k.criteria).run j).1.1 = .ok (usb ++ ethernet ++ http)) ∧
    (told k.said <+: k.opening ++ .status .enumeratingUsb :: (batch usb ++ [.status .enumeratingEthernet] ++
        (batch ethernet ++ batch http) ++ [.status .completed]) ∨
      told k.said <+: k.opening ++ k.closing)
  nonempty : ∀ k ∈ s.calls, ∀ ds ∈ batches k.said, ds ≠ []
  completed : ∀ k ∈ s.calls, k.stage = .completed →
    (k.isSession = true → statuses k.said = [.queued, .enumeratingUsb, .enumeratingEthernet, .completed]) ∧
    ∀ j, ((m.discover w k.criteria).run j).1.1 = .ok (batches k.said).flatten
  /-- Nobody is refused before a shutdown. -/
  refused : ∀ k ∈ s.calls, k.stage = .refused → s.manager.isShutDown = true ∧ batches k.said = [] ∧
    (k.isSession = true → statuses k.said = [.queued, .completed])

theorem length_le_one_of_fst {α β : Type} {l : List (α × β)} (hn : (l.map Prod.fst).Nodup)
    (h : ∀ x ∈ l, ∀ y ∈ l, x.1 = y.1) : l.length ≤ 1 := by
  match l with
  | [] => exact Nat.zero_le _
  | [_] => exact Nat.le_refl _
  | x :: y :: l =>
    have hne := (List.nodup_cons.mp hn).1
    exact absurd (h x (by simp) y (by simp) ▸ List.mem_cons_self) hne

theorem isolated (hbus : w.bus.IsSteady) (h : Reach w m s) : Isolated w m s where
  alone := (inv hbus h).owner
  oneWork := by
    intro hnone
    have hinv := inv hbus h
    have hpaused : ∀ x ∈ s.working, ∃ k rest, s.calls[x.1]? = some k ∧ k.stage = .paused rest := by
      intro x hx
      obtain ⟨k, hk, hgiven⟩ := hinv.giver x hx
      cases hstage : k.stage with
      | paused rest => exact ⟨k, rest, hk, hstage⟩
      | abandoned => exact absurd hstage (hnone k (List.mem_of_getElem? hk))
      | _ => rw [hstage] at hgiven; cases hgiven
    refine ⟨?_, hpaused⟩
    -- whoever waits for work has the lock, so all the work was given by one call, which gives one piece at a time
    apply length_le_one_of_fst hinv.apart
    intro x hx y hy
    obtain ⟨k, rest, hk, hkstage⟩ := hpaused x hx
    obtain ⟨l, rest', hl, hlstage⟩ := hpaused y hy
    exact hinv.owner x.1 y.1 k l hk hl (by rw [hkstage]; rfl) (by rw [hlstage]; rfl)
  inPhases := by
    intro k hk
    refine ⟨m.usbDevices w k.criteria, m.ethernetDevices k.criteria, m.httpDevices k.criteria, ?_, ?_, ?_, ?_,
      ((inv hbus h).sound k hk).told_le⟩
    · intro d hd
      exact Manager.transport_of_mem_usbDevices hd
    · intro d hd
      exact Manager.transport_of_mem_ethernetDevices hd
    · intro d hd
      exact Manager.transport_of_mem_httpDevices hd
    · intro hm j
      exact Manager.discover_eq hbus hm j
  nonempty := by
    intro k hk ds hds
    exact ((inv hbus h).sound k hk).ne_nil_of_mem_batches hds
  completed := by
    intro k hk hstage
    obtain ⟨htold, hm⟩ : told k.said = k.whole w m ∧ m.isShutDown = false := ((inv hbus h).sound k hk).at_stage hstage
    constructor
    · intro hses
      rw [← Report.statuses_told, htold]
      exact k.statuses_whole w m hses
    · intro j
      rw [Manager.discover_eq hbus hm, ← Report.batches_told, htold, Call.batches_whole,
        Manager.flatten_batches_phases]
  refused := by
    intro k hk hstage
    obtain ⟨htold, hflag⟩ : told k.said = k.opening ++ k.closing ∧ s.manager.isShutDown = true :=
      ((inv hbus h).sound k hk).at_stage hstage
    refine ⟨hflag, ?_, ?_⟩
    · rw [← Report.batches_told, htold, Report.batches_append, Call.batches_opening, Call.batches_closing]
      rfl
    · intro hses
      rw [← Report.statuses_told, htold]
      unfold Call.opening Call.closing
      rw [if_pos hses, if_pos hses]
      rfl

/-- Any number of discoveries on one manager, in every order of their steps, with any shutdowns: one at a time has
    the lock, and each tells its caller what it would tell alone, in batches between the statuses, or that it was
    refused. The turns come to an end, and they do only when all the discoveries are over. -/
theorem discoveries_do_not_interfere (hbus : w.bus.IsSteady) (m : Manager) :
    (WellFounded fun t s => Turn w s t) ∧
      ∀ s, Reach w m s → Isolated w m s ∧ ∀ k ∈ s.calls, k.stage.isOver = false → ∃ t, Turn w s t := by
  refine ⟨wellFounded_turn w, fun s hs => ⟨isolated hbus hs, ?_⟩⟩
  intro k hk
  exact exists_turn w hk

/-- A bus with one chip, and no network. -/
def chipOnly : Surroundings where
  bus := Usb.oneChip
  net := Net.Network.ofPeers []
  resolver := Resolver.ofLists [] []
  client := Http.Client.ofPeers []

def usbOnly : Manager where
  usb := true
  ethernet := false
  limits := {}
  interfaces := []
  probe _ _ _ := .silent

/-- As it is found on that bus. -/
def chip : Device := .ftdi { identity := ⟨"", "", "", "1", Usb.ftdiVendor, 0x6010⟩ }

/-- The devices of a vendor that has none on that bus. -/
def otherVendor : List Criteria := [.usb { vendorId := 0x1209 }]

/-- A session that looks for every USB device has given its enumeration away, and one that looks for those of another
    vendor waits for the lock. -/
def firstPaused : State where
  manager := usbOnly
  journal := ((usbOnly.course chipOnly [.usb {}]).run {}).2
  calls := [⟨[.usb {}], true, .paused (((usbOnly.course chipOnly [.usb {}]).run {}).1.1.drop 1),
      Manager.queued [.usb {}] ++ Manager.announced [.usb {}]⟩,
    ⟨otherVendor, true, .waiting, Manager.queued otherVendor⟩]
  working := [(0, .enumeration)]

theorem reach_firstPaused : Reach chipOnly usbOnly firstPaused := by
  have h : Reach chipOnly usbOnly _ := Reach.start.step (.begin _ [.usb {}] true)
  have h := h.step (.begin _ otherVendor true)
  have h := h.step (.turn (.say _ 0 _ _ _ rfl rfl))
  have h := h.step (.turn (.say _ 1 _ _ _ rfl rfl))
  have h := h.step (.turn (.say _ 0 _ _ _ rfl rfl))
  have h := h.step (.turn (.look _ 0 _ rfl rfl))
  have h := h.step (.turn (.enter _ 0 _ rfl rfl rfl))
  have h := h.step (.turn (.lookAgain _ 0 _ rfl rfl))
  have h := h.step (.turn (.say _ 0 _ _ _ rfl rfl))
  have h := h.step (.turn (.say _ 0 _ _ _ rfl rfl))
  have h := h.step (.turn (.setOut _ 0 _ _ _ _ rfl rfl rfl))
  have h := h.step (.turn (.pause _ 0 _ _ _ rfl rfl))
  have h := h.step (.turn (.say _ 1 _ _ _ rfl rfl))
  have h := h.step (.turn (.look _ 1 _ rfl rfl))
  exact h

/-- The first has come to its end. -/
def firstCompleted : State where
  manager := usbOnly
  journal := firstPaused.journal
  calls := [⟨[.usb {}], true, .completed, Manager.queued [.usb {}] ++ Manager.announced [.usb {}] ++
      ((usbOnly.course chipOnly [.usb {}]).run {}).1.1.drop 1⟩,
    ⟨otherVendor, true, .waiting, Manager.queued otherVendor⟩]

theorem reach_firstCompleted : Reach chipOnly usbOnly firstCompleted := by
  have h := reach_firstPaused.step (.turn (.workEnds _ _ (List.mem_singleton_self _)))
  have h := h.step (.turn (.resume _ 0 _ _ rfl rfl nofun))
  have h := h.step (.turn (.say _ 0 _ _ _ rfl rfl))
  have h := h.step (.turn (.say _ 0 _ _ _ rfl rfl))
  have h := h.step (.turn (.say _ 0 _ _ _ rfl rfl))
  have h := h.step (.turn (.say _ 0 _ _ _ rfl rfl))
  have h := h.step (.turn (.complete _ 0 _ rfl rfl))
  exact h

theorem reach_bothCompleted : ∃ s k l, Reach chipOnly usbOnly s ∧ s.calls = [k, l] ∧ k.stage = .completed ∧
    k.isSession = true ∧ k.criteria = [.usb {}] ∧ batches k.said = [[chip]] ∧ l.stage = .completed ∧
    l.isSession = true ∧ l.criteria = otherVendor ∧ batches l.said = [] := by
  have h := reach_firstCompleted.step (.turn (.enter _ 1 _ rfl rfl rfl))
  have h := h.step (.turn (.lookAgain _ 1 _ rfl rfl))
  have h := h.step (.turn (.say _ 1 _ _ _ rfl rfl))
  have h := h.step (.turn (.say _ 1 _ _ _ rfl rfl))
  have h := h.step (.turn (.setOut _ 1 _ _ _ _ rfl rfl rfl))
  have h := h.step (.turn (.pause _ 1 _ _ _ rfl rfl))
  have h := h.step (.turn (.workEnds _ _ (List.mem_singleton_self _)))
  have h := h.step (.turn (.resume _ 1 _ _ rfl rfl nofun))
  have h := h.step (.turn (.say _ 1 _ _ _ rfl rfl))
  have h := h.step (.turn (.say _ 1 _ _ _ rfl rfl))
  have h := h.step (.turn (.say _ 1 _ _ _ rfl rfl))
  have h := h.step (.turn (.complete _ 1 _ rfl rfl))
  exact ⟨_, _, _, h, rfl, rfl, rfl, rfl, rfl, rfl, rfl, rfl, rfl⟩

/-- The first tells its caller of the chip, the second of nothing, as each would alone. -/
theorem one_of_two_sessions_finds_chip : ∃ s k l, Reach chipOnly usbOnly s ∧ s.calls = [k, l] ∧
    k.stage = .completed ∧ statuses k.said = [.queued, .enumeratingUsb, .enumeratingEthernet, .completed] ∧
    batches k.said = [[chip]] ∧ (∀ j, ((usbOnly.discover chipOnly [.usb {}]).run j).1.1 = .ok [chip]) ∧
    l.stage = .completed ∧ statuses l.said = [.queued, .enumeratingUsb, .enumeratingEthernet, .completed] ∧
    batches l.said = [] ∧ ∀ j, ((usbOnly.discover chipOnly otherVendor).run j).1.1 = .ok [] := by
  obtain ⟨s, k, l, hreach, hcalls, hstageK, hsessionK, hcriteriaK, hbatchesK, hstageL, hsessionL, hcriteriaL,
    hbatchesL⟩ := reach_bothCompleted
  obtain ⟨-, hruns⟩ := discoveries_do_not_interfere (w := chipOnly) Usb.isSteady_oneChip usbOnly
  obtain ⟨hstatusesK, hdevicesK⟩ := (hruns s hreach).1.completed k (by simp [hcalls]) hstageK
  obtain ⟨hstatusesL, hdevicesL⟩ := (hruns s hreach).1.completed l (by simp [hcalls]) hstageL
  rw [hcriteriaK, hbatchesK] at hdevicesK
  rw [hcriteriaL, hbatchesL] at hdevicesL
  exact ⟨s, k, l, hreach, hcalls, hstageK, hstatusesK hsessionK, hbatchesK, hdevicesK, hstageL, hstatusesL hsessionL,
    hbatchesL, hdevicesL⟩

end Peripheral.Discovery.Schedule
