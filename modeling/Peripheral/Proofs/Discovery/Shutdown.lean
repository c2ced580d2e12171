import Mathlib.Logic.Relation
import Peripheral.Proofs.Discovery.Schedule

/-
  Peripheral.Proofs.Discovery.Shutdown — a shutdown lets the admitted discoveries finish and
  keeps all others out, in any order of their steps.

  A step moves one discovery or none (`Step.move`, `Step.origin`), and a discovery is admitted
  only by a second look at the flag that finds it down (`Move.isKeptOut`). So from the moment the
  flag is raised the discoveries fall in two: those admitted by then go on to their end
  (`Move.isAdmitted`), the others never call for anything. The USB context is given up when
  nobody has the lock, that is when every admitted discovery has made its last report. What is
  left then is the manager that `Manager.shutdown` returns (`Reach.manager_of_isReleased`).
-/

namespace Peripheral.Discovery

open Report (told spoken batch statuses batches)

namespace Schedule

variable {w : Surroundings} {m : Manager} {s t : State} {i : Nat} {k k' : Call}

/-! ## One discovery moves -/

/-- What a step from `s` can do to the discovery at place `i`. -/
inductive Move (w : Surroundings) (s : State) (i : Nat) : Call → Call → Prop
  | stay (k : Call) : Move w s i k k
  | say (k : Call) (r : Report) (next : Stage) : k.stage.next? = some (r, next) →
      Move w s i k { k with stage := next, said := k.said ++ [r] }
  | look (k : Call) : k.stage = .begun [] →
      Move w s i k (if s.manager.isShutDown then k.refuse else { k with stage := .waiting })
  | enter (k : Call) : k.stage = .waiting → Move w s i k { k with stage := .entered }
  | lookAgain (k : Call) : k.stage = .entered →
      Move w s i k (if s.manager.isShutDown then k.refuse
        else { k with stage := .admitted (Manager.announced k.criteria) })
  | setOut (k : Call) (j : Journal) : k.stage = .admitted [] →
      Move w s i k { k with stage := .running ((s.manager.course w k.criteria).run j).1.1 }
  | pause (k : Call) (work : Work) (rest : List Report) : k.stage = .running (.notice (.pause work) :: rest) →
      Move w s i k { k with stage := .paused rest }
  | resume (k : Call) (rest : List Report) : k.stage = .paused rest → (∀ x ∈ s.working, x.1 ≠ i) →
      Move w s i k { k with stage := .running rest }
  | complete (k : Call) : k.stage = .running [] → Move w s i k { k with stage := .completed }
  | leave (k : Call) : k.stage = .refusing [] → Move w s i k { k with stage := .refused }
  | abandon (k : Call) : k.stage.waits = true → k.isSession = false → Move w s i k { k with stage := .abandoned }

theorem exists_move_setCall {a : Nat} {l l' : Call} (hl : s.calls[a]? = some l) (hmove : Move w s a l l')
    (hk : s.calls[i]? = some k) : ∃ k', (s.setCall a l').calls[i]? = some k' ∧ Move w s i k k' := by
  by_cases hai : a = i
  · subst hai
    cases hl.symm.trans hk
    exact ⟨l', getElem?_setCall_self l' hl, hmove⟩
  · exact ⟨k, (getElem?_setCall_ne l' hai).trans hk, .stay k⟩

theorem Turn.move (ht : Turn w s t) (hk : s.calls[i]? = some k) : ∃ k', t.calls[i]? = some k' ∧ Move w s i k k' := by
  cases ht with
  | say a l r next hl hnext => exact exists_move_setCall hl (.say l r next hnext) hk
  | look a l hl hstage => exact exists_move_setCall hl (.look l hstage) hk
  | enter a l hl hstage _ => exact exists_move_setCall hl (.enter l hstage) hk
  | lookAgain a l hl hstage => exact exists_move_setCall hl (.lookAgain l hstage) hk
  | setOut a l reports probed j hl hstage hrun =>
    have hmove : Move w s a l { l with stage := .running reports } := by
      have hreports : reports = ((s.manager.course w l.criteria).run s.journal).1.1 := by rw [hrun]
      rw [hreports]
      exact .setOut l s.journal hstage
    exact exists_move_setCall hl hmove hk
  | pause a l work rest hl hstage => exact exists_move_setCall hl (.pause l work rest hstage) hk
  | workEnds x _ => exact ⟨k, hk, .stay k⟩
  | resume a l rest hl hstage hnone => exact exists_move_setCall hl (.resume l rest hstage hnone) hk
  | complete a l hl hstage => exact exists_move_setCall hl (.complete l hstage) hk
  | leave a l hl hstage => exact exists_move_setCall hl (.leave l hstage) hk

/-- A discovery that is there stays there. -/
theorem Step.move (ht : Step w s t) (hk : s.calls[i]? = some k) : ∃ k', t.calls[i]? = some k' ∧ Move w s i k k' := by
  cases ht with
  | turn ht => exact ht.move hk
  | begin cs isSession =>
    exact ⟨k, List.getElem?_append_left (List.getElem?_eq_some_iff.mp hk).1 ▸ hk, .stay k⟩
  | abandon a l hl hwaits hsession => exact exists_move_setCall hl (.abandon l hwaits hsession) hk
  | raise => exact ⟨k, hk, .stay k⟩
  | release _ _ => exact ⟨k, hk, .stay k⟩

theorem Turn.length_calls (ht : Turn w s t) : t.calls.length = s.calls.length := by
  cases ht <;> simp [State.setCall]

/-- And one that is new has just begun. -/
theorem Step.origin (ht : Step w s t) (hk' : t.calls[i]? = some k') :
    (∃ k, s.calls[i]? = some k ∧ Move w s i k k') ∨
      s.calls[i]? = none ∧ ∃ cs isSession, k' = Call.fresh cs isSession := by
  cases hk : s.calls[i]? with
  | some k =>
    obtain ⟨l, hl, hmove⟩ := ht.move hk
    cases hl.symm.trans hk'
    exact .inl ⟨k, rfl, hmove⟩
  | none =>
    refine .inr ⟨rfl, ?_⟩
    have hlength : ∀ u : State, u.calls.length = s.calls.length → u.calls[i]? = none := by
      intro u hu
      rw [List.getElem?_eq_none_iff, hu]
      exact List.getElem?_eq_none_iff.mp hk
    cases ht with
    | turn ht => cases (hlength t ht.length_calls).symm.trans hk'
    | begin cs isSession =>
      rw [List.getElem?_append_right (List.getElem?_eq_none_iff.mp hk), List.getElem?_singleton] at hk'
      split at hk'
      · exact ⟨cs, isSession, (Option.some.inj hk').symm⟩
      · cases hk'
    | abandon a l hl _ _ => cases (hlength _ (List.length_set ..)).symm.trans hk'
    | raise => cases hk.symm.trans hk'
    | release _ _ => cases hk.symm.trans hk'

/-! ## Kept out or admitted -/

/-- The stages of a discovery that was admitted and not abandoned. -/
def Stage.hasPassed : Stage → Bool
  | admitted _ | running _ | paused _ | completed => true
  | _ => false

theorem Stage.eq_completed {stage : Stage} (hpassed : stage.hasPassed = true) (hlock : stage.hasLock = false) :
    stage = .completed := by
  cases stage with
  | completed => rfl
  | admitted rest => cases hlock
  | running rest => cases hlock
  | paused rest => cases hlock
  | _ => cases hpassed

namespace Call

/-- What a session reports before its first look at the flag. -/
def front (k : Call) : List Report := if k.isSession then Manager.queued k.criteria else []

/-- What a refused session reports. -/
def back (k : Call) : List Report := if k.isSession then Manager.aborted else []

theorem told_front (k : Call) : told k.front = k.opening := by
  unfold front opening
  cases k.isSession <;> rfl

theorem told_front_back (k : Call) : told (k.front ++ k.back) = k.opening ++ k.closing := by
  rw [Report.told_append, told_front]
  unfold back closing
  cases k.isSession <;> rfl

/-- What a discovery reports that asks for the USB context with the journal `j`. -/
def account (w : Surroundings) (m : Manager) (k : Call) (j : Journal) : List Report :=
  k.front ++ Manager.announced k.criteria ++ spoken ((m.course w k.criteria).run j).1.1

theorem told_account (w : Surroundings) (m : Manager) (k : Call) (j : Journal) :
    told (k.account w m j) = k.opening ++ .status .enumeratingUsb :: told ((m.course w k.criteria).run j).1.1 := by
  unfold account
  rw [Report.told_append, Report.told_append, Report.told_spoken, told_front, List.append_assoc]
  rfl

/-- What a discovery has reported and is to report that has not been admitted. -/
def IsKeptOut (k : Call) : Prop :=
  match k.stage with
  | .begun rest => k.said ++ rest = k.front
  | .waiting | .entered => k.said = k.front
  | .refusing rest => k.said ++ rest = k.front ++ k.back
  | .refused => k.said = k.front ++ k.back
  | .abandoned => k.said = k.front ∧ k.isSession = false
  | .admitted _ | .running _ | .paused _ | .completed => False

/-- What one has reported and is to report that has. -/
def IsAdmitted (w : Surroundings) (m : Manager) (k : Call) : Prop :=
  match k.stage with
  | .admitted rest => k.said ++ rest = k.front ++ Manager.announced k.criteria
  | .running rest | .paused rest => ∃ j, k.said ++ spoken rest = k.account w m j
  | .completed => ∃ j, k.said = k.account w m j
  | .abandoned => k.isSession = false
  | .begun _ | .waiting | .entered | .refusing _ | .refused => False

theorem IsKeptOut.at_stage {stage : Stage} (h : k.IsKeptOut) (hstage : k.stage = stage) :
    IsKeptOut { k with stage } := by
  subst hstage
  exact h

theorem IsAdmitted.at_stage {stage : Stage} (h : k.IsAdmitted w m) (hstage : k.stage = stage) :
    IsAdmitted w m { k with stage } := by
  subst hstage
  exact h

theorem isKeptOut_fresh (cs : List Criteria) (isSession : Bool) : (fresh cs isSession).IsKeptOut := rfl

theorem isKeptOut_refuse (h : k.said = k.front) : k.refuse.IsKeptOut := congrArg (· ++ k.back) h

theorem IsKeptOut.hasPassed (h : k.IsKeptOut) : k.stage.hasPassed = false := by
  unfold IsKeptOut at h
  cases hstage : k.stage <;> rw [hstage] at h <;> first | rfl | exact h.elim

theorem IsAdmitted.hasPassed (h : k.IsAdmitted w m) :
    k.stage.hasPassed = true ∨ k.stage = .abandoned ∧ k.isSession = false := by
  cases hstage : k.stage with
  | admitted rest => exact .inl rfl
  | running rest => exact .inl rfl
  | paused rest => exact .inl rfl
  | completed => exact .inl rfl
  | abandoned =>
    have hsession : k.isSession = false := h.at_stage hstage
    exact .inr ⟨rfl, hsession⟩
  | _ => exact (h.at_stage hstage).elim

/-- Whoever is kept out is told of no device. -/
theorem IsKeptOut.batches_said (h : k.IsKeptOut) : batches k.said = [] := by
  have hrefused : batches (k.front ++ k.back) = [] := by
    rw [← Report.batches_told, told_front_back, Report.batches_append, batches_opening, batches_closing]
    rfl
  have hfront : batches k.front = [] := by
    rw [Report.batches_append] at hrefused
    exact (List.append_eq_nil_iff.mp hrefused).1
  have hpart : ∀ {rest all : List Report}, k.said ++ rest = all → batches all = [] → batches k.said = [] := by
    rintro rest all rfl hall
    rw [Report.batches_append] at hall
    exact (List.append_eq_nil_iff.mp hall).1
  have hwhole : ∀ {all : List Report}, k.said = all → batches all = [] → batches k.said = [] := by
    rintro all rfl hall
    exact hall
  cases hstage : k.stage with
  | begun rest => exact hpart (h.at_stage hstage) hfront
  | waiting => exact hwhole (h.at_stage hstage) hfront
  | entered => exact hwhole (h.at_stage hstage) hfront
  | refusing rest => exact hpart (h.at_stage hstage) hrefused
  | refused => exact hwhole (h.at_stage hstage) hrefused
  | abandoned => exact hwhole (h.at_stage hstage).1 hfront
  | _ => exact (h.at_stage hstage).elim

/-- And comes to its end as one that was refused, unless its caller gives it up. -/
theorem IsKeptOut.of_isOver (h : k.IsKeptOut) (hover : k.stage.isOver = true) :
    k.stage = .refused ∧ (told k.said = if k.isSession then [.status .queued, .status .completed] else []) ∨
      k.stage = .abandoned ∧ k.isSession = false := by
  cases hstage : k.stage with
  | refused =>
    have hsaid : k.said = k.front ++ k.back := h.at_stage hstage
    refine .inl ⟨rfl, ?_⟩
    rw [hsaid, told_front_back]
    unfold opening closing
    cases k.isSession <;> rfl
  | abandoned => exact .inr ⟨rfl, (h.at_stage hstage).2⟩
  | completed => exact (h.at_stage hstage).elim
  | _ => rw [hstage] at hover; cases hover

end Call

/-- Whoever makes a report of its course has no pause to keep. -/
theorem Stage.spoken_of_next? {r : Report} {rest : List Report} {next : Stage}
    (hnext : (running (r :: rest)).next? = some (r, next)) : spoken (r :: rest) = r :: spoken rest := by
  cases r with
  | notice n =>
    cases n with
    | event e => rfl
    | pause work => cases hnext
  | status x => rfl
  | found ds => rfl

/-- Only a second look that finds the flag down admits a discovery. -/
theorem Move.isKeptOut (hmove : Move w s i k k') (h : k.IsKeptOut) :
    k'.IsKeptOut ∨ s.manager.isShutDown = false ∧ k'.IsAdmitted w m := by
  cases hmove with
  | stay => exact .inl h
  | say r next hnext =>
    left
    obtain ⟨rest, ⟨hstage, rfl⟩ | ⟨hstage, rfl⟩ | ⟨hstage, rfl⟩ | ⟨hstage, rfl⟩⟩ := Stage.cases_of_next? hnext
    · exact (List.append_cons _ _ _).symm.trans (h.at_stage hstage)
    · exact (h.at_stage hstage).elim
    · exact (h.at_stage hstage).elim
    · exact (List.append_cons _ _ _).symm.trans (h.at_stage hstage)
  | look hstage =>
    left
    have hsaid : k.said ++ [] = k.front := h.at_stage hstage
    rw [List.append_nil] at hsaid
    split
    · exact Call.isKeptOut_refuse hsaid
    · exact hsaid
  | enter hstage =>
    left
    have hsaid : k.said = k.front := h.at_stage hstage
    exact hsaid
  | lookAgain hstage =>
    have hsaid : k.said = k.front := h.at_stage hstage
    by_cases hflag : s.manager.isShutDown = true
    · left
      rw [if_pos hflag]
      exact Call.isKeptOut_refuse hsaid
    · right
      rw [if_neg hflag]
      exact ⟨eq_false_of_ne_true hflag, congrArg (· ++ Manager.announced k.criteria) hsaid⟩
  | setOut j hstage => exact (h.at_stage hstage).elim
  | pause work rest hstage => exact (h.at_stage hstage).elim
  | resume rest hstage _ => exact (h.at_stage hstage).elim
  | complete hstage => exact (h.at_stage hstage).elim
  | leave hstage =>
    left
    have hsaid : k.said ++ [] = k.front ++ k.back := h.at_stage hstage
    rw [List.append_nil] at hsaid
    exact hsaid
  | abandon hwaits hsession =>
    left
    cases hstage : k.stage with
    | waiting => exact ⟨h.at_stage hstage, hsession⟩
    | paused rest => exact (h.at_stage hstage).elim
    | _ => rw [hstage] at hwaits; cases hwaits

/-- An admitted discovery goes on, whatever the flag says, and asks for what the manager has. -/
theorem Move.isAdmitted (hmove : Move w s i k k')
    (hmanager : k.stage = .admitted [] → s.manager.course w k.criteria = m.course w k.criteria)
    (h : k.IsAdmitted w m) : k'.IsAdmitted w m := by
  cases hmove with
  | stay => exact h
  | say r next hnext =>
    obtain ⟨rest, ⟨hstage, rfl⟩ | ⟨hstage, rfl⟩ | ⟨hstage, rfl⟩ | ⟨hstage, rfl⟩⟩ := Stage.cases_of_next? hnext
    · exact (h.at_stage hstage).elim
    · exact (List.append_cons _ _ _).symm.trans (h.at_stage hstage)
    · obtain ⟨j, hj⟩ : ∃ j, k.said ++ spoken (r :: rest) = k.account w m j := h.at_stage hstage
      rw [Stage.spoken_of_next? (hstage ▸ hnext)] at hj
      exact ⟨j, (List.append_cons _ _ _).symm.trans hj⟩
    · exact (h.at_stage hstage).elim
  | look hstage => exact (h.at_stage hstage).elim
  | enter hstage => exact (h.at_stage hstage).elim
  | lookAgain hstage => exact (h.at_stage hstage).elim
  | setOut j hstage =>
    have hsaid : k.said ++ [] = k.front ++ Manager.announced k.criteria := h.at_stage hstage
    rw [List.append_nil] at hsaid
    refine ⟨j, ?_⟩
    show k.said ++ spoken ((s.manager.course w k.criteria).run j).1.1 = k.account w m j
    rw [hsaid, hmanager hstage]
    rfl
  | pause work rest hstage =>
    have hsaid : ∃ j, k.said ++ spoken (.notice (.pause work) :: rest) = k.account w m j := h.at_stage hstage
    exact hsaid
  | resume rest hstage _ =>
    have hsaid : ∃ j, k.said ++ spoken rest = k.account w m j := h.at_stage hstage
    exact hsaid
  | complete hstage =>
    obtain ⟨j, hj⟩ : ∃ j, k.said ++ [] = k.account w m j := h.at_stage hstage
    rw [List.append_nil] at hj
    exact ⟨j, hj⟩
  | leave hstage => exact (h.at_stage hstage).elim
  | abandon _ hsession => exact hsession

theorem Move.same_caller (hmove : Move w s i k k') : k'.criteria = k.criteria ∧ k'.isSession = k.isSession := by
  cases hmove with
  | look _ => split <;> exact ⟨rfl, rfl⟩
  | lookAgain _ => split <;> exact ⟨rfl, rfl⟩
  | _ => exact ⟨rfl, rfl⟩

/-- What is over stays as it is. -/
theorem Move.eq_of_isOver (hmove : Move w s i k k') (hover : k.stage.isOver = true) : k' = k := by
  have hnever : ∀ {stage : Stage}, k.stage = stage → stage.isOver = false → False := by
    rintro stage rfl hgoing
    rw [hgoing] at hover
    cases hover
  cases hmove with
  | stay => rfl
  | say r next hnext =>
    obtain ⟨rest, ⟨hstage, -⟩ | ⟨hstage, -⟩ | ⟨hstage, -⟩ | ⟨hstage, -⟩⟩ := Stage.cases_of_next? hnext
    all_goals exact (hnever hstage rfl).elim
  | look hstage => exact (hnever hstage rfl).elim
  | enter hstage => exact (hnever hstage rfl).elim
  | lookAgain hstage => exact (hnever hstage rfl).elim
  | setOut j hstage => exact (hnever hstage rfl).elim
  | pause work rest hstage => exact (hnever hstage rfl).elim
  | resume rest hstage _ => exact (hnever hstage rfl).elim
  | complete hstage => exact (hnever hstage rfl).elim
  | leave hstage => exact (hnever hstage rfl).elim
  | abandon hwaits _ =>
    cases hstage : k.stage with
    | waiting => exact (hnever hstage rfl).elim
    | paused rest => exact (hnever hstage rfl).elim
    | _ => rw [hstage] at hwaits; cases hwaits

/-- Work that was given away has a giver who waits for it or was abandoned. -/
theorem Move.hasGiven (hmove : Move w s i k k') (hgiven : k.stage.hasGiven = true) :
    k'.stage.hasGiven = true ∨ ∀ x ∈ s.working, x.1 ≠ i := by
  have hnever : ∀ {stage : Stage}, k.stage = stage → stage.hasGiven = false → False := by
    rintro stage rfl hidle
    rw [hidle] at hgiven
    cases hgiven
  cases hmove with
  | stay => exact .inl hgiven
  | say r next hnext =>
    obtain ⟨rest, ⟨hstage, -⟩ | ⟨hstage, -⟩ | ⟨hstage, -⟩ | ⟨hstage, -⟩⟩ := Stage.cases_of_next? hnext
    all_goals exact (hnever hstage rfl).elim
  | look hstage => exact (hnever hstage rfl).elim
  | enter hstage => exact (hnever hstage rfl).elim
  | lookAgain hstage => exact (hnever hstage rfl).elim
  | setOut j hstage => exact (hnever hstage rfl).elim
  | pause work rest hstage => exact .inl rfl
  | resume rest hstage hnone => exact .inr hnone
  | complete hstage => exact (hnever hstage rfl).elim
  | leave hstage => exact (hnever hstage rfl).elim
  | abandon _ _ => exact .inl rfl

/-! ## The manager and the work on other threads -/

/-- What a step does to the manager. -/
inductive Step.Manages (s t : State) : Prop
  | same : t.manager = s.manager → t.isReleased = s.isReleased → Manages s t
  | raised : t.manager = { s.manager with isShutDown := true } → t.isReleased = s.isReleased → Manages s t
  | released : s.manager.isShutDown = true → s.isFree = true → t.calls = s.calls →
      t.manager = { s.manager with usb := false } → t.isReleased = true → Manages s t

theorem Step.manages (ht : Step w s t) : Step.Manages s t := by
  cases ht with
  | turn ht => cases ht <;> exact .same rfl rfl
  | begin cs isSession => exact .same rfl rfl
  | abandon a l _ _ _ => exact .same rfl rfl
  | raise => exact .raised rfl rfl
  | release hflag hfree => exact .released hflag hfree rfl rfl rfl

/-- Native calls come from the enumeration of an admitted discovery. -/
theorem Step.journal (ht : Step w s t) :
    t.journal = s.journal ∨ ∃ (i : Nat) (k : Call), s.calls[i]? = some k ∧ k.stage = .admitted [] := by
  cases ht with
  | turn ht =>
    cases ht with
    | setOut i k reports probed j hk hstage _ => exact .inr ⟨i, k, hk, hstage⟩
    | _ => exact .inl rfl
  | _ => exact .inl rfl

/-- Work is given by an admitted discovery, which then waits for it. -/
theorem Step.working (ht : Step w s t) {x : Nat × Work} (hx : x ∈ t.working) :
    x ∈ s.working ∨ ∃ k k', s.calls[x.1]? = some k ∧ k.stage.hasPassed = true ∧ k.stage ≠ .completed ∧
      t.calls[x.1]? = some k' ∧ k'.stage.hasGiven = true := by
  cases ht with
  | turn ht =>
    cases ht with
    | pause i k work rest hk hstage =>
      rcases List.mem_append.mp hx with hx | hx
      · exact .inl hx
      · right
        rw [List.mem_singleton.mp hx]
        exact ⟨k, _, hk, by rw [hstage]; rfl, by rw [hstage]; exact nofun, getElem?_setCall_self _ hk, rfl⟩
    | workEnds y _ => exact .inl (List.mem_of_mem_erase hx)
    | _ => exact .inl hx
  | _ => exact .inl hx

/-- What holds at every moment, whatever becomes of the bus. -/
structure Standing (w : Surroundings) (m : Manager) (s : State) : Prop where
  manager : s.manager = { m with usb := s.manager.usb, isShutDown := s.manager.isShutDown }
  usb : s.isReleased = false → s.manager.usb = m.usb
  flag : s.isReleased = true → s.manager.isShutDown = true ∧ s.manager.usb = false
  ended : s.isReleased = true → ∀ k ∈ s.calls, k.stage.hasPassed = true → k.stage = .completed
  sorted : ∀ k ∈ s.calls, k.IsKeptOut ∨ k.IsAdmitted w m
  giver : ∀ x ∈ s.working, ∃ k, s.calls[x.1]? = some k ∧ k.stage.hasGiven = true

namespace Standing

/-- An admitted discovery finds the USB context that the manager had at first. -/
theorem course_eq (h : Standing w m s) (hk : k ∈ s.calls) (hstage : k.stage = .admitted []) (cs : List Criteria) :
    s.manager.course w cs = m.course w cs := by
  have hreleased : s.isReleased = false := by
    apply eq_false_of_ne_true
    intro hr
    have hdone := h.ended hr k hk (by rw [hstage]; rfl)
    rw [hstage] at hdone
    cases hdone
  rw [h.manager, h.usb hreleased]
  rfl

/-- Once the flag is up nobody is admitted. -/
theorem hasPassed_before (h : Standing w m s) (hflag : s.manager.isShutDown = true) (hk : s.calls[i]? = some k)
    (hmove : Move w s i k k') (hpassed : k'.stage.hasPassed = true) : k.stage.hasPassed = true := by
  rcases h.sorted k (List.mem_of_getElem? hk) with hkept | hadmitted
  · rcases hmove.isKeptOut (m := m) hkept with hkept' | ⟨hdown, -⟩
    · cases hkept'.hasPassed.symm.trans hpassed
    · cases hdown.symm.trans hflag
  · rcases hadmitted.hasPassed with hbefore | ⟨hstage, -⟩
    · exact hbefore
    · rw [hmove.eq_of_isOver (by rw [hstage]; rfl)] at hpassed
      exact hpassed

theorem step (h : Standing w m s) (ht : Step w s t) : Standing w m t where
  manager := by
    cases ht.manages with
    | same hm _ => rw [hm]; exact h.manager
    | raised hm _ => rw [hm, h.manager]
    | released _ _ _ hm _ => rw [hm, h.manager]
  usb := by
    intro hr
    cases ht.manages with
    | same hm hsame => rw [hm]; exact h.usb (hsame.symm.trans hr)
    | raised hm hsame => rw [hm]; exact h.usb (hsame.symm.trans hr)
    | released _ _ _ _ hreleased => cases hreleased.symm.trans hr
  flag := by
    intro hr
    cases ht.manages with
    | same hm hsame => rw [hm]; exact h.flag (hsame.symm.trans hr)
    | raised hm hsame => rw [hm]; exact ⟨rfl, (h.flag (hsame.symm.trans hr)).2⟩
    | released hflag _ _ hm _ => rw [hm]; exact ⟨hflag, rfl⟩
  ended := by
    intro hr k' hk' hpassed
    have hbefore : s.isReleased = true ∨ t.calls = s.calls ∧ s.isFree = true := by
      cases ht.manages with
      | same _ hsame => exact .inl (hsame.symm.trans hr)
      | raised _ hsame => exact .inl (hsame.symm.trans hr)
      | released _ hfree hcalls _ _ => exact .inr ⟨hcalls, hfree⟩
    rcases hbefore with hs | ⟨hcalls, hfree⟩
    · obtain ⟨i, hi⟩ := List.mem_iff_getElem?.mp hk'
      rcases ht.origin hi with ⟨k, hk, hmove⟩ | ⟨-, cs, isSession, rfl⟩
      · have hbefore := h.hasPassed_before (h.flag hs).1 hk hmove hpassed
        have hdone := h.ended hs k (List.mem_of_getElem? hk) hbefore
        rw [hmove.eq_of_isOver (by rw [hdone]; rfl)]
        exact hdone
      · cases hpassed
    · -- nobody has the lock when the context is given up
      exact Stage.eq_completed hpassed (hasLock_of_isFree hfree (hcalls ▸ hk'))
  sorted := by
    intro k' hk'
    obtain ⟨i, hi⟩ := List.mem_iff_getElem?.mp hk'
    rcases ht.origin hi with ⟨k, hk, hmove⟩ | ⟨-, cs, isSession, rfl⟩
    · have hmem := List.mem_of_getElem? hk
      rcases h.sorted k hmem with hkept | hadmitted
      · exact (hmove.isKeptOut hkept).imp_right And.right
      · exact .inr (hmove.isAdmitted (fun hstage => h.course_eq hmem hstage _) hadmitted)
    · exact .inl (Call.isKeptOut_fresh cs isSession)
  giver := by
    intro x hx
    rcases ht.working hx with hx' | ⟨-, k', -, -, -, hk', hgiven⟩
    · obtain ⟨k, hk, hgiven⟩ := h.giver x hx'
      obtain ⟨k', hk', hmove⟩ := ht.move hk
      rcases hmove.hasGiven hgiven with hgiven' | hnone
      · exact ⟨k', hk', hgiven'⟩
      · exact absurd rfl (hnone x hx')
    · exact ⟨k', hk', hgiven⟩

end Standing

theorem Reach.standing (h : Reach w m s) : Standing w m s := by
  induction h with
  | start => exact ⟨rfl, fun _ => rfl, nofun, nofun, nofun, nofun⟩
  | step _ ht ih => exact ih.step ht

/-! ## From the moment the flag is raised -/

namespace State

/-- The flag goes up. -/
def raised (s : State) : State := { s with manager := { s.manager with isShutDown := true } }

/-- The USB context is given up. -/
def released (s : State) : State := { s with manager := { s.manager with usb := false }, isReleased := true }

/-- The discovery at place `i` has not been admitted yet, nor abandoned, if it has begun at all. -/
def IsBefore (s : State) (i : Nat) : Prop :=
  ∀ k, s.calls[i]? = some k → k.stage.hasPassed = false ∧ k.stage ≠ .abandoned

end State

/-- When nobody has the lock the two steps of a shutdown leave the manager that `Manager.shutdown` returns. -/
theorem manager_released_raised (hfree : s.isFree = true) (j : Journal) :
    Step w s s.raised ∧ Step w s.raised s.raised.released ∧
      s.raised.released.manager = (s.manager.shutdown.run j).1 :=
  ⟨.raise s, .release s.raised rfl hfree, rfl⟩

/-- And so do they whatever was done between them, before or afterwards. -/
theorem Reach.manager_of_isReleased (h : Reach w m s) (hreleased : s.isReleased = true) (j : Journal) :
    s.manager = (m.shutdown.run j).1 := by
  obtain ⟨hflag, husb⟩ := h.standing.flag hreleased
  rw [h.standing.manager, hflag, husb]
  rfl

/-- What holds at `t`, after any steps since the flag was raised in `s`. -/
structure Since (w : Surroundings) (m : Manager) (s t : State) : Prop where
  standing : Standing w m t
  flag : t.manager.isShutDown = true
  kept : ∀ (i : Nat) (k : Call), t.calls[i]? = some k → s.IsBefore i → k.IsKeptOut
  passed : ∀ (i : Nat) (k : Call), s.calls[i]? = some k → k.stage.hasPassed = true → ∃ k', t.calls[i]? = some k' ∧
    k'.criteria = k.criteria ∧ k'.isSession = k.isSession ∧ k'.IsAdmitted w m
  /-- Nobody else has been admitted. -/
  before : ∀ (i : Nat) (k : Call), t.calls[i]? = some k → k.stage.hasPassed = true → ∃ l, s.calls[i]? = some l ∧
    l.stage.hasPassed = true

namespace Since

theorem start (hs : Reach w m s) : Since w m s s.raised where
  standing := (hs.step (.raise s)).standing
  flag := rfl
  kept := by
    intro i k hk hbefore
    obtain ⟨hpassed, habandoned⟩ := hbefore k hk
    rcases hs.standing.sorted k (List.mem_of_getElem? hk) with hkept | hadmitted
    · exact hkept
    · rcases hadmitted.hasPassed with h | ⟨h, -⟩
      · cases hpassed.symm.trans h
      · exact absurd h habandoned
  passed := by
    intro i k hk hpassed
    rcases hs.standing.sorted k (List.mem_of_getElem? hk) with hkept | hadmitted
    · cases hkept.hasPassed.symm.trans hpassed
    · exact ⟨k, hk, rfl, rfl, hadmitted⟩
  before := fun i k hk hpassed => ⟨k, hk, hpassed⟩

theorem step {u : State} (h : Since w m s t) (ht : Step w t u) : Since w m s u where
  standing := h.standing.step ht
  flag := by
    cases ht.manages with
    | same hm _ => rw [hm]; exact h.flag
    | raised hm _ => rw [hm]
    | released hflag _ _ hm _ => rw [hm]; exact hflag
  kept := by
    intro i k' hk' hbefore
    rcases ht.origin hk' with ⟨k, hk, hmove⟩ | ⟨-, cs, isSession, rfl⟩
    · rcases hmove.isKeptOut (m := m) (h.kept i k hk hbefore) with hkept | ⟨hdown, -⟩
      · exact hkept
      · cases hdown.symm.trans h.flag
    · exact Call.isKeptOut_fresh cs isSession
  passed := by
    intro i k hk hpassed
    obtain ⟨l, hl, hcriteria, hsession, hadmitted⟩ := h.passed i k hk hpassed
    obtain ⟨k', hk', hmove⟩ := ht.move hl
    obtain ⟨hcriteria', hsession'⟩ := hmove.same_caller
    refine ⟨k', hk', hcriteria'.trans hcriteria, hsession'.trans hsession, hmove.isAdmitted ?_ hadmitted⟩
    intro hstage
    exact h.standing.course_eq (List.mem_of_getElem? hl) hstage _
  before := by
    intro i k' hk' hpassed
    rcases ht.origin hk' with ⟨k, hk, hmove⟩ | ⟨-, cs, isSession, rfl⟩
    · exact h.before i k hk (h.standing.hasPassed_before h.flag hk hmove hpassed)
    · cases hpassed

theorem run (hs : Reach w m s) (ht : Relation.ReflTransGen (Step w) s.raised t) : Since w m s t := by
  induction ht with
  | refl => exact start hs
  | tail _ ht ih => exact ih.step ht

end Since

/-- How the discoveries on the manager `m` stand at `t`, after any steps since a shutdown raised the flag in `s`. -/
structure LetsFinish (w : Surroundings) (m : Manager) (s t : State) : Prop where
  flag : t.manager.isShutDown = true
  /-- Whoever had not been admitted by then never is, and ends with being refused. -/
  refused : ∀ (i : Nat) (k : Call), t.calls[i]? = some k → s.IsBefore i → k.stage.hasPassed = false ∧ batches k.said = [] ∧
    (k.stage.isOver = true →
      k.stage = .refused ∧ (told k.said = if k.isSession then [.status .queued, .status .completed] else []) ∨
        k.stage = .abandoned ∧ k.isSession = false)
  /-- Whoever had is not cut short, and has made all its reports when it ends. -/
  finished : ∀ (i : Nat) (k : Call), s.calls[i]? = some k → k.stage.hasPassed = true → ∃ k', t.calls[i]? = some k' ∧
    (k'.stage.hasPassed = true ∨ k'.stage = .abandoned ∧ k.isSession = false) ∧
    (k'.stage = .completed → ∃ j, told k'.said = k.opening ++ .status .enumeratingUsb ::
      (batch ((m.discoverUsb w (Manager.usbCriteria k.criteria)).run j).1.1 ++ [.status .enumeratingEthernet] ++
        (batch (m.ethernetDevices k.criteria) ++ batch (m.httpDevices k.criteria)) ++ [.status .completed]))
  /-- Native calls and work on other threads are theirs alone. -/
  theirs : ∀ u, Step w t u →
    (u.journal = t.journal ∨ ∃ (i : Nat) (k k' : Call), s.calls[i]? = some k ∧ k.stage.hasPassed = true ∧
      t.calls[i]? = some k' ∧ k'.stage = .admitted []) ∧
    ∀ x ∈ u.working, x ∈ t.working ∨ ∃ k, s.calls[x.1]? = some k ∧ k.stage.hasPassed = true
  /-- The shutdown is over only when they have ended, and then nothing is called for any more. -/
  released : t.isReleased = true → t.manager.usb = false ∧
    (∀ k ∈ t.calls, k.stage.hasPassed = true → k.stage = .completed) ∧
    (∀ x ∈ t.working, ∃ k, t.calls[x.1]? = some k ∧ k.stage = .abandoned) ∧
    ∀ u, Step w t u → u.journal = t.journal ∧ ∀ x ∈ u.working, x ∈ t.working
  /-- As long as a discovery is not over or has the lock some turn can be taken. -/
  goesOn : (∀ k ∈ t.calls, k.stage.isOver = false → ∃ u, Turn w t u) ∧ (t.isFree = true ∨ ∃ u, Turn w t u)

/-- Whatever others do, a shutdown lets the admitted discoveries make all their reports before it is over, and all
    others are refused, from the moment the flag is up: neither does one of them call for anything, nor does
    one that begins when the shutdown is over. The turns come to an end. -/
theorem shutdown_lets_the_admitted_finish (hs : Reach w m s) (ht : Relation.ReflTransGen (Step w) s.raised t) :
    LetsFinish w m s t ∧ WellFounded fun t s => Turn w s t := by
  have h := Since.run hs ht
  refine ⟨?_, wellFounded_turn w⟩
  constructor
  case flag => exact h.flag
  case refused =>
    intro i k hk hbefore
    have hkept := h.kept i k hk hbefore
    exact ⟨hkept.hasPassed, hkept.batches_said, hkept.of_isOver⟩
  case finished =>
    intro i k hk hpassed
    obtain ⟨k', hk', hcriteria, hsession, hadmitted⟩ := h.passed i k hk hpassed
    refine ⟨k', hk', hadmitted.hasPassed.imp_right fun hgone => ⟨hgone.1, hsession ▸ hgone.2⟩, ?_⟩
    intro hstage
    obtain ⟨j, hj⟩ : ∃ j, k'.said = k'.account w m j := hadmitted.at_stage hstage
    refine ⟨j, ?_⟩
    rw [hj, Call.told_account, Manager.told_course_eq, hcriteria]
    unfold Call.opening
    rw [hsession]
  case theirs =>
    intro u hu
    constructor
    · refine hu.journal.imp_right ?_
      rintro ⟨i, k', hk', hstage⟩
      obtain ⟨k, hk, hpassed⟩ := h.before i k' hk' (by rw [hstage]; rfl)
      exact ⟨i, k, k', hk, hpassed, hk', hstage⟩
    · intro x hx
      refine (hu.working hx).imp_right ?_
      rintro ⟨k, -, hk, hpassed, -⟩
      exact h.before x.1 k hk hpassed
  case released =>
    intro hr
    have hover := h.standing.ended hr
    refine ⟨(h.standing.flag hr).2, hover, ?_, ?_⟩
    · intro x hx
      obtain ⟨k, hk, hgiven⟩ := h.standing.giver x hx
      refine ⟨k, hk, ?_⟩
      cases hstage : k.stage with
      | abandoned => rfl
      | paused rest =>
        have hdone := hover k (List.mem_of_getElem? hk) (by rw [hstage]; rfl)
        rw [hstage] at hdone
        cases hdone
      | _ => rw [hstage] at hgiven; cases hgiven
    · intro u hu
      constructor
      · refine hu.journal.resolve_right ?_
        rintro ⟨i, k, hk, hstage⟩
        have hdone := hover k (List.mem_of_getElem? hk) (by rw [hstage]; rfl)
        rw [hstage] at hdone
        cases hdone
      · intro x hx
        refine (hu.working hx).resolve_right ?_
        rintro ⟨k, -, hk, hpassed, hgoing, -⟩
        exact hgoing (hover k (List.mem_of_getElem? hk) hpassed)
  case goesOn =>
    refine ⟨fun k hk => exists_turn w hk, ?_⟩
    by_cases hfree : t.isFree = true
    · exact .inl hfree
    · right
      obtain ⟨k, hk, hlock⟩ := exists_hasLock hfree
      exact exists_turn w hk (Stage.isOver_of_hasLock hlock)

/-- Two sessions that look for every USB device, of which the first is admitted and the second waits for the lock. -/
def oneAdmitted : State where
  manager := usbOnly
  calls := [⟨[.usb {}], true, .admitted (Manager.announced [.usb {}]), Manager.queued [.usb {}]⟩,
    ⟨[.usb {}], true, .waiting, Manager.queued [.usb {}]⟩]

theorem reach_oneAdmitted : Reach chipOnly usbOnly oneAdmitted := by
  have h : Reach chipOnly usbOnly _ := Reach.start.step (.begin _ [.usb {}] true)
  have h := h.step (.begin _ [.usb {}] true)
  have h := h.step (.turn (.say _ 0 _ _ _ rfl rfl))
  have h := h.step (.turn (.say _ 0 _ _ _ rfl rfl))
  have h := h.step (.turn (.look _ 0 _ rfl rfl))
  have h := h.step (.turn (.enter _ 0 _ rfl rfl rfl))
  have h := h.step (.turn (.lookAgain _ 0 _ rfl rfl))
  have h := h.step (.turn (.say _ 1 _ _ _ rfl rfl))
  have h := h.step (.turn (.say _ 1 _ _ _ rfl rfl))
  have h := h.step (.turn (.look _ 1 _ rfl rfl))
  exact h

/-- The flag goes up; the first comes to its end, the shutdown is over, and then the second gets the lock. -/
theorem run_of_oneAdmitted : ∃ t a b, Relation.ReflTransGen (Step chipOnly) oneAdmitted.raised t ∧
    t.isReleased = true ∧ t.calls = [a, b] ∧ a.stage = .completed ∧ b.stage = .refused ∧ b.isSession = true := by
  have r : Relation.ReflTransGen (Step chipOnly) oneAdmitted.raised _ := .single (.turn (.say _ 0 _ _ _ rfl rfl))
  have r := r.tail (.turn (.say _ 0 _ _ _ rfl rfl))
  have r := r.tail (.turn (.setOut _ 0 _ _ _ _ rfl rfl rfl))
  have r := r.tail (.turn (.pause _ 0 _ _ _ rfl rfl))
  have r := r.tail (.turn (.workEnds _ _ (List.mem_singleton_self _)))
  have r := r.tail (.turn (.resume _ 0 _ _ rfl rfl nofun))
  have r := r.tail (.turn (.say _ 0 _ _ _ rfl rfl))
  have r := r.tail (.turn (.say _ 0 _ _ _ rfl rfl))
  have r := r.tail (.turn (.say _ 0 _ _ _ rfl rfl))
  have r := r.tail (.turn (.say _ 0 _ _ _ rfl rfl))
  have r := r.tail (.turn (.complete _ 0 _ rfl rfl))
  have r := r.tail (.release _ rfl rfl)
  have r := r.tail (.turn (.enter _ 1 _ rfl rfl rfl))
  have r := r.tail (.turn (.lookAgain _ 1 _ rfl rfl))
  have r := r.tail (.turn (.say _ 1 _ _ _ rfl rfl))
  have r := r.tail (.turn (.say _ 1 _ _ _ rfl rfl))
  have r := r.tail (.turn (.leave _ 1 _ rfl rfl))
  exact ⟨_, _, _, r, rfl, rfl, rfl, rfl, rfl⟩

/-- The first has told its caller of the chip, the second that it was refused. -/
theorem first_finishes_second_is_refused : Reach chipOnly usbOnly oneAdmitted ∧
    ∃ t a b, Relation.ReflTransGen (Step chipOnly) oneAdmitted.raised t ∧ t.isReleased = true ∧
      t.manager.usb = false ∧ t.calls = [a, b] ∧ batches a.said = [[chip]] ∧
      statuses a.said = [.queued, .enumeratingUsb, .enumeratingEthernet, .completed] ∧
      batches b.said = [] ∧ statuses b.said = [.queued, .completed] := by
  obtain ⟨t, a, b, hrun, hreleased, hcalls, ha, hb, hsession⟩ := run_of_oneAdmitted
  obtain ⟨h, -⟩ := shutdown_lets_the_admitted_finish reach_oneAdmitted hrun
  have hbefore : oneAdmitted.IsBefore 1 := by
    rintro k ⟨⟩
    exact ⟨rfl, nofun⟩
  obtain ⟨-, hbatches, hover⟩ := h.refused 1 b (by rw [hcalls]; rfl) hbefore
  obtain ⟨a', ha', -, htold⟩ := h.finished 0 _ rfl rfl
  obtain rfl : a = a' := by
    rw [hcalls] at ha'
    exact Option.some.inj ha'
  obtain ⟨j, hj⟩ := htold ha
  have hchip : ((usbOnly.discoverUsb chipOnly (Manager.usbCriteria [.usb {}])).run j).1.1 = [chip] := by
    rw [Manager.devices_discoverUsb (w := chipOnly) usbOnly [.usb {}] Usb.isSteady_oneChip]
    rfl
  have htoldA : told a.said = [.status .queued, .status .enumeratingUsb, .found [chip], .status .enumeratingEthernet,
      .status .completed] := by
    rw [hj]
    show _ ++ .status .enumeratingUsb :: (batch ((usbOnly.discoverUsb chipOnly (Manager.usbCriteria [.usb {}])).run j).1.1 ++
      _ ++ _ ++ _) = _
    rw [hchip]
    rfl
  have htoldB : told b.said = [.status .queued, .status .completed] := by
    rcases hover (by rw [hb]; rfl) with ⟨-, htoldB⟩ | ⟨hgone, -⟩
    · rw [htoldB, hsession]
      rfl
    · cases hb.symm.trans hgone
  refine ⟨reach_oneAdmitted, t, a, b, hrun, hreleased, (h.released hreleased).1, hcalls, ?_, ?_, hbatches, ?_⟩
  · rw [← Report.batches_told, htoldA]
    rfl
  · rw [← Report.statuses_told, htoldA]
    rfl
  · rw [← Report.statuses_told, htoldB]
    rfl

end Schedule

end Peripheral.Discovery
