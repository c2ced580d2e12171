import Peripheral.Proofs.Discovery.Shutdown

/-
  Peripheral.Proofs.Discovery.Sessions — sessions as steps in time are the sessions of
  `Manager.session`, and those that are queued together are `Manager.sessions`.

  (1) In whatever order the steps are taken, a session that is over has made the reports of
  `Manager.session` (`Reach.said_of_completed`, `Reach.said_of_refused`). A pause is kept and not
  reported (`Report.spoken`).

  (2) `Heard` is a run of the schedule together with what is heard of it, the events of its reports
  in the order of the steps. What a discovery logs is heard in the order of its reports
  (`Heard.sublist`).

  (3) Sessions that begin one behind the other where nobody has the lock can be run to their ends
  with the reports and the native calls of `Manager.sessions`, and then `Manager.interleaved` is heard
  (`sessions_are_a_run`). The first to pause lets all those behind it get as far as waiting for the
  lock (`Heard.queue_all`); from there each runs to its end alone (`Heard.run_out`). So what each of
  them logs is heard in the order of its reports (`events_sublist_interleaved`).
-/

namespace Peripheral.Discovery

open Report (spoken batch)

/-! ## (1) The reports of one session -/

namespace Manager

variable {m : Manager} {w : Surroundings} {cs : List Criteria}

theorem run_session (hm : m.isShutDown = false) (j : Journal) : (m.session w cs).run j =
    ((queued cs ++ (announced cs ++ ((m.course w cs).run j).1.1), ((m.course w cs).run j).1.2),
      ((m.course w cs).run j).2) := by
  unfold session
  rw [hm, if_neg Bool.false_ne_true]
  rfl

theorem reports_session (hm : m.isShutDown = false) (j : Journal) :
    ((m.session w cs).run j).1.1 = queued cs ++ (announced cs ++ ((m.course w cs).run j).1.1) := by
  rw [run_session hm]

theorem run_session_shutDown (hm : m.isShutDown = true) (j : Journal) :
    (m.session w cs).run j = ((queued cs ++ aborted, []), j) := by
  unfold session
  rw [hm, if_pos rfl]
  rfl

theorem of_run_sessions_cons {css : List (List Criteria)} {reports : List (List Report)} {probed : List Address}
    {j k : Journal} (h : (m.sessions w (cs :: css)).run j = ((reports, probed), k)) :
    ∃ own ownProbed j' others more, (m.session w cs).run j = ((own, ownProbed), j') ∧
      (m.sessions w css).run j' = ((others, more), k) ∧ reports = own :: others := by
  rcases hown : (m.session w cs).run j with ⟨⟨own, ownProbed⟩, j'⟩
  rcases hothers : (m.sessions w css).run j' with ⟨⟨others, more⟩, k'⟩
  have heq : (m.sessions w (cs :: css)).run j = ((own :: others, ownProbed ++ more), k') := by
    unfold sessions
    rw [Act.run_bind, hown, Act.run_bind, hothers]
    rfl
  cases h.symm.trans heq
  exact ⟨own, ownProbed, j', others, more, rfl, hothers, rfl⟩

theorem length_sessions {css : List (List Criteria)} {reports : List (List Report)} {probed : List Address}
    {j k : Journal} (h : (m.sessions w css).run j = ((reports, probed), k)) : reports.length = css.length := by
  induction css generalizing j reports probed with
  | nil =>
    cases h
    rfl
  | cons cs css ih =>
    obtain ⟨own, ownProbed, j', others, more, -, hothers, rfl⟩ := of_run_sessions_cons h
    rw [List.length_cons, List.length_cons, ih hothers]

theorem of_run_session {own : List Report} {probed : List Address} {j k : Journal} (hm : m.isShutDown = false)
    (h : (m.session w cs).run j = ((own, probed), k)) :
    ∃ reports, own = queued cs ++ (announced cs ++ reports) ∧ (m.course w cs).run j = ((reports, probed), k) := by
  rw [run_session hm] at h
  cases h
  exact ⟨_, rfl, rfl⟩

theorem reports_discoverUsb (m : Manager) (w : Surroundings) (cs : List UsbCriteria) (j k : Journal) :
    ((m.discoverUsb w cs).run j).1.2 = ((m.discoverUsb w cs).run k).1.2 := by
  unfold discoverUsb
  split
  · rfl
  · split <;> rfl

/-- On a bus that does not change a discovery makes the same reports whenever it runs. -/
theorem reports_course_of_steady (m : Manager) (cs : List Criteria) (hbus : w.bus.IsSteady) (j k : Journal) :
    ((m.course w cs).run j).1.1 = ((m.course w cs).run k).1.1 := by
  rw [reports_course, reports_course, devices_discoverUsb m cs hbus, devices_discoverUsb m cs hbus,
    reports_discoverUsb m w _ j k]

end Manager

namespace Schedule

variable {w : Surroundings} {m : Manager} {s t u : State} {i : Nat} {k k' : Call}

/-- A manager that is shut down at first stays so. -/
theorem Reach.isShutDown (h : Reach w m s) (hm : m.isShutDown = true) : s.manager.isShutDown = true := by
  induction h with
  | start => exact hm
  | step _ ht ih =>
    cases ht.manages with
    | same hmanager _ => rw [hmanager]; exact ih
    | raised hmanager _ => rw [hmanager]
    | released hflag _ _ hmanager _ => rw [hmanager]; exact hflag

/-- And admits nobody. -/
theorem Reach.isKeptOut (h : Reach w m s) (hm : m.isShutDown = true) : ∀ k ∈ s.calls, k.IsKeptOut := by
  induction h with
  | start => exact nofun
  | step h ht ih =>
    intro k' hk'
    obtain ⟨i, hi⟩ := List.mem_iff_getElem?.mp hk'
    rcases ht.origin hi with ⟨k, hk, hmove⟩ | ⟨-, cs, isSession, rfl⟩
    · rcases hmove.isKeptOut (m := m) (ih k (List.mem_of_getElem? hk)) with hkept | ⟨hdown, -⟩
      · exact hkept
      · cases hdown.symm.trans (h.isShutDown hm)
    · exact Call.isKeptOut_fresh cs isSession

theorem Reach.isUp (h : Reach w m s) (hk : k ∈ s.calls) (hstage : k.stage = .completed) : m.isShutDown = false := by
  apply eq_false_of_ne_true
  intro hm
  exact (h.isKeptOut hm k hk).at_stage hstage

/-- A completed session has made the reports that it makes alone, when it asked for the USB context at some moment. -/
theorem Reach.said_of_completed (h : Reach w m s) (hk : k ∈ s.calls) (hsession : k.isSession = true)
    (hstage : k.stage = .completed) : ∃ j, k.said = spoken ((m.session w k.criteria).run j).1.1 := by
  have hm := h.isUp hk hstage
  rcases h.standing.sorted k hk with hkept | hadmitted
  · exact (hkept.at_stage hstage).elim
  · obtain ⟨j, hj⟩ : ∃ j, k.said = k.account w m j := hadmitted.at_stage hstage
    refine ⟨j, ?_⟩
    rw [hj, Manager.reports_session hm, Report.spoken_append, Report.spoken_append]
    unfold Call.account Call.front
    rw [if_pos hsession, List.append_assoc]
    rfl

/-- On a bus that does not change it does not matter when. -/
theorem Reach.said_of_completed_steady (hbus : w.bus.IsSteady) (h : Reach w m s) (hk : k ∈ s.calls)
    (hsession : k.isSession = true) (hstage : k.stage = .completed) (j : Journal) :
    k.said = spoken ((m.session w k.criteria).run j).1.1 := by
  obtain ⟨j', hj'⟩ := h.said_of_completed hk hsession hstage
  have hm := h.isUp hk hstage
  rw [hj', Manager.reports_session hm, Manager.reports_session hm, Manager.reports_course_of_steady m _ hbus j' j]

/-- And a refused one those that it makes when the shutdown is over. -/
theorem Reach.said_of_refused (h : Reach w m s) (hk : k ∈ s.calls) (hsession : k.isSession = true)
    (hstage : k.stage = .refused) (j j' : Journal) :
    k.said = spoken (((m.shutdown.run j).1.session w k.criteria).run j').1.1 := by
  rcases h.standing.sorted k hk with hkept | hadmitted
  · have hsaid : k.said = k.front ++ k.back := hkept.at_stage hstage
    rw [hsaid, Manager.run_session_shutDown rfl]
    unfold Call.front Call.back
    rw [if_pos hsession, if_pos hsession]
    rfl
  · exact (hadmitted.at_stage hstage).elim

end Schedule

/-! ## (2) What is heard of a run -/

/-- The events that are logged in the reports. -/
def Report.events (rs : List Report) : List LogEvent := Notice.events (notices rs)

theorem Report.events_append (rs ts : List Report) : events (rs ++ ts) = events rs ++ events ts := by
  unfold events notices Notice.events
  rw [List.filterMap_append, List.filterMap_append]

/-- A pause logs nothing. -/
theorem Report.events_spoken (rs : List Report) : events (spoken rs) = events rs := by
  induction rs with
  | nil => rfl
  | cons r rs ih =>
    cases r with
    | notice n =>
      cases n with
      | event e => exact congrArg (e :: ·) ih
      | pause work => exact ih
    | status x => exact ih
    | found ds => exact ih

open Report (events events_append)

namespace Schedule

variable {w : Surroundings} {m : Manager} {s t u : State} {i : Nat} {k k' : Call} {es es' : List LogEvent}

/-- What the discovery at place `i` has reported; nothing if there is none. -/
def State.saidAt (s : State) (i : Nat) : List Report := (s.calls.map (·.said))[i]?.getD []

/-- Steps from `s`, and the events that are heard of them: what is logged in each report that is made. -/
inductive Heard (w : Surroundings) (s : State) : List LogEvent → State → Prop
  | refl : Heard w s [] s
  | say {t : State} {es : List LogEvent} {i : Nat} {k : Call} {r : Report} {next : Stage} :
      Heard w s es t → t.calls[i]? = some k → k.stage.next? = some (r, next) →
      Heard w s (es ++ events [r]) (t.setCall i { k with stage := next, said := k.said ++ [r] })
  /-- Nobody makes a report. -/
  | quiet {t u : State} {es : List LogEvent} :
      Heard w s es t → Step w t u → (∀ i, u.saidAt i = t.saidAt i) → Heard w s es u

namespace Heard

theorem reach (h : Heard w s es t) (hs : Reach w m s) : Reach w m t := by
  induction h with
  | refl => exact hs
  | say _ hk hnext ih => exact ih.step (.turn (.say _ _ _ _ _ hk hnext))
  | quiet _ ht _ ih => exact ih.step ht

theorem trans (h : Heard w s es t) (h' : Heard w t es' u) : Heard w s (es ++ es') u := by
  induction h' with
  | refl => rwa [List.append_nil]
  | say _ hk hnext ih =>
    rw [← List.append_assoc]
    exact ih.say hk hnext
  | quiet _ ht hsaid ih => exact ih.quiet ht hsaid

theorem saidAt_setCall (hk : s.calls[i]? = some k) (k' : Call) (j : Nat) :
    (s.setCall i k').saidAt j = if i = j then k'.said else s.saidAt j := by
  unfold State.saidAt State.setCall
  rw [List.map_set]
  by_cases hij : i = j
  · have hlt := (List.getElem?_eq_some_iff.mp hk).1
    subst hij
    simp [hlt]
  · rw [List.getElem?_set_ne hij, if_neg hij]

/-- What a discovery logs is heard in the order of its reports, behind what it has logged before. -/
theorem sublist (h : Heard w s es t) (i : Nat) : (events (t.saidAt i)).Sublist (events (s.saidAt i) ++ es) := by
  induction h with
  | refl => rw [List.append_nil]
  | @say t es j k r next _ hk _ ih =>
    rw [saidAt_setCall hk, ← List.append_assoc]
    split
    · rename_i hji
      have hsaid : t.saidAt i = k.said := by
        unfold State.saidAt
        rw [← hji, List.getElem?_map, hk]
        rfl
      rw [hsaid] at ih
      rw [events_append]
      exact ih.append (List.Sublist.refl _)
    · exact ih.trans (List.sublist_append_left _ _)
  | quiet _ _ hsaid ih => rwa [hsaid]

end Heard

/-! ## (3) Sessions queued together -/

/-- No pause is among the reports. -/
def Unpaused (rs : List Report) : Prop := ∀ r ∈ rs, ∀ work, r ≠ .notice (.pause work)

theorem Stage.next?_running (r : Report) (rest : List Report) (hr : ∀ work, r ≠ .notice (.pause work)) :
    (running (r :: rest)).next? = some (r, running rest) := by
  cases r with
  | notice n =>
    cases n with
    | event e => rfl
    | pause work => exact absurd rfl (hr work)
  | status x => rfl
  | found ds => rfl

theorem unpaused_announced (cs : List Criteria) : Unpaused (Manager.announced cs) := by
  intro r hr work hpause
  subst hpause
  simp [Manager.announced, Report.logged] at hr

theorem unpaused_queued (cs : List Criteria) : Unpaused (Manager.queued cs) := by
  intro r hr work hpause
  subst hpause
  simp [Manager.queued, Report.logged] at hr

theorem unpaused_aborted : Unpaused Manager.aborted := by
  intro r hr work hpause
  subst hpause
  simp [Manager.aborted, Report.logged] at hr

/-- The reports up to the first pause. -/
theorem unpaused_or_paused (rs : List Report) :
    Unpaused rs ∨ ∃ front work rest, rs = front ++ .notice (.pause work) :: rest ∧ Unpaused front := by
  induction rs with
  | nil => exact .inl nofun
  | cons r rs ih =>
    by_cases hr : ∃ work, r = .notice (.pause work)
    · obtain ⟨work, rfl⟩ := hr
      exact .inr ⟨[], work, rs, rfl, nofun⟩
    · have hr : ∀ work, r ≠ .notice (.pause work) := not_exists.mp hr
      rcases ih with hrs | ⟨front, work, rest, rfl, hfront⟩
      · exact .inl (List.forall_mem_cons.mpr ⟨hr, hrs⟩)
      · exact .inr ⟨r :: front, work, rest, rfl, List.forall_mem_cons.mpr ⟨hr, hfront⟩⟩

theorem Unpaused.append {rs ts : List Report} (h : Unpaused rs) (h' : Unpaused ts) : Unpaused (rs ++ ts) :=
  List.forall_mem_append.mpr ⟨h, h'⟩

theorem Unpaused.spoken_eq {rs : List Report} (h : Unpaused rs) : spoken rs = rs := by
  apply List.filter_eq_self.mpr
  intro r hr
  cases r with
  | notice n =>
    cases n with
    | event e => rfl
    | pause work => exact absurd rfl (h _ hr work)
  | status x => rfl
  | found ds => rfl

/-! ### One discovery among others -/

namespace State

/-- The same but for the discoveries. -/
def withCalls (s : State) (calls : List Call) : State := { s with calls }

variable {l r : List Call}

theorem manager_withCalls (s : State) (l : List Call) : (s.withCalls l).manager = s.manager := rfl

theorem getElem?_withCalls (s : State) (l : List Call) (k : Call) (r : List Call) :
    (s.withCalls (l ++ k :: r)).calls[l.length]? = some k := by
  simp [withCalls]

theorem setCall_withCalls (s : State) (l : List Call) (k k' : Call) (r : List Call) :
    (s.withCalls (l ++ k :: r)).setCall l.length k' = s.withCalls (l ++ k' :: r) := by
  simp [withCalls, setCall]

theorem isFree_withCalls (hl : ∀ c ∈ l, c.stage.hasLock = false) (hk : k.stage.hasLock = false)
    (hr : ∀ c ∈ r, c.stage.hasLock = false) : (s.withCalls (l ++ k :: r)).isFree = true := by
  have hall : ∀ c ∈ l ++ k :: r, c.stage.hasLock = false :=
    List.forall_mem_append.mpr ⟨hl, List.forall_mem_cons.mpr ⟨hk, hr⟩⟩
  apply List.all_eq_true.mpr
  intro c hc
  simp [hall c hc]

end State

namespace Heard

open Manager (announced)

variable {l r : List Call} {cs : List Criteria} {isSession : Bool} {said rest : List Report}

/-- A discovery among others moves and makes no report. -/
theorem of_turn {s' : State} (ht : Turn w (s.withCalls (l ++ k :: r)) ((s'.withCalls (l ++ k :: r)).setCall l.length k'))
    (hsaid : k'.said = k.said) : Heard w (s.withCalls (l ++ k :: r)) [] (s'.withCalls (l ++ k' :: r)) := by
  rw [State.setCall_withCalls] at ht
  refine .quiet .refl (.turn ht) fun i => ?_
  unfold State.saidAt State.withCalls
  simp only [List.map_append, List.map_cons, hsaid]

/-- It makes one report after the other. -/
theorem report_all {front : List Report} (stage : List Report → Stage)
    (hnext : ∀ r rest, (∀ work, r ≠ .notice (.pause work)) → (stage (r :: rest)).next? = some (r, stage rest))
    (hfront : Unpaused front) (rest : List Report) :
    Heard w (s.withCalls (l ++ ⟨cs, isSession, stage (front ++ rest), said⟩ :: r)) (events front)
      (s.withCalls (l ++ ⟨cs, isSession, stage rest, said ++ front⟩ :: r)) := by
  induction front generalizing said with
  | nil =>
    rw [List.append_nil]
    exact .refl
  | cons x front ih =>
    obtain ⟨hx, hfront⟩ := List.forall_mem_cons.mp hfront
    have hsay := Heard.refl.say (w := w) (s.getElem?_withCalls l ⟨cs, isSession, stage (x :: front ++ rest), said⟩ r)
      (hnext x (front ++ rest) hx)
    rw [State.setCall_withCalls] at hsay
    have hall := hsay.trans (ih hfront)
    rw [List.nil_append, ← events_append, List.singleton_append, List.append_assoc] at hall
    exact hall

/-- One more discovery begins. -/
theorem start (s : State) (cs : List Criteria) (isSession : Bool) :
    Heard w s [] (s.withCalls (s.calls ++ [.fresh cs isSession])) := by
  refine .quiet .refl (.begin s cs isSession) fun i => ?_
  show ((s.calls ++ [Call.fresh cs isSession]).map (·.said))[i]?.getD [] = (s.calls.map (·.said))[i]?.getD []
  rw [List.map_append]
  rcases Nat.lt_or_ge i (s.calls.map (·.said)).length with hi | hi
  · rw [List.getElem?_append_left hi]
  · rw [List.getElem?_append_right hi, List.getElem?_eq_none hi, List.map_singleton, List.getElem?_singleton]
    split <;> rfl

/-- It looks at the flag and finds it down. -/
theorem look (hup : s.manager.isShutDown = false) :
    Heard w (s.withCalls (l ++ ⟨cs, isSession, .begun [], said⟩ :: r)) []
      (s.withCalls (l ++ ⟨cs, isSession, .waiting, said⟩ :: r)) := by
  have ht := Turn.look (w := w) _ _ _ (s.getElem?_withCalls l ⟨cs, isSession, .begun [], said⟩ r) rfl
  rw [State.manager_withCalls, if_neg (ne_true_of_eq_false hup)] at ht
  exact of_turn ht rfl

/-- Where nobody has the lock it gets from there as far as asking for the USB context. -/
theorem enter {reports : List Report} {probed : List Address} {j : Journal} (hup : s.manager.isShutDown = false)
    (hl : ∀ c ∈ l, c.stage.hasLock = false) (hr : ∀ c ∈ r, c.stage.hasLock = false)
    (hrun : (s.manager.course w cs).run s.journal = ((reports, probed), j)) :
    Heard w (s.withCalls (l ++ ⟨cs, isSession, .waiting, said⟩ :: r)) (events (announced cs))
      (State.withCalls { s with journal := j } (l ++ ⟨cs, isSession, .running reports, said ++ announced cs⟩ :: r)) := by
  have henters : Heard w (s.withCalls (l ++ ⟨cs, isSession, .waiting, said⟩ :: r)) []
      (s.withCalls (l ++ ⟨cs, isSession, .entered, said⟩ :: r)) :=
    of_turn (.enter _ _ _ (s.getElem?_withCalls l _ r) rfl (State.isFree_withCalls hl rfl hr)) rfl
  have hlook := Turn.lookAgain (w := w) _ _ _ (s.getElem?_withCalls l ⟨cs, isSession, .entered, said⟩ r) rfl
  rw [State.manager_withCalls, if_neg (ne_true_of_eq_false hup)] at hlook
  have hreports : Heard w (s.withCalls (l ++ ⟨cs, isSession, .admitted (announced cs), said⟩ :: r))
      (events (announced cs)) (s.withCalls (l ++ ⟨cs, isSession, .admitted [], said ++ announced cs⟩ :: r)) :=
    report_all .admitted (fun _ _ _ => rfl) (unpaused_announced cs) []
  have hsets : Heard w (s.withCalls (l ++ ⟨cs, isSession, .admitted [], said ++ announced cs⟩ :: r)) []
      (State.withCalls { s with journal := j } (l ++ ⟨cs, isSession, .running reports, said ++ announced cs⟩ :: r)) :=
    of_turn (.setOut _ _ _ reports probed j (s.getElem?_withCalls l _ r) rfl hrun) rfl
  have hall := henters.trans ((of_turn hlook rfl).trans (hreports.trans hsets))
  rwa [List.append_nil] at hall

/-- It gives work away and waits for it. -/
theorem pause (work : Work) :
    Heard w (s.withCalls (l ++ ⟨cs, isSession, .running (.notice (.pause work) :: rest), said⟩ :: r)) []
      (State.withCalls { s with working := s.working ++ [(l.length, work)] }
        (l ++ ⟨cs, isSession, .paused rest, said⟩ :: r)) :=
  of_turn (.pause _ _ _ work rest (s.getElem?_withCalls l _ r) rfl) rfl

/-- It comes to its next pause. -/
theorem run_to_pause {front : List Report} (hfront : Unpaused front) (work : Work) (rest : List Report) :
    Heard w (s.withCalls (l ++ ⟨cs, isSession, .running (front ++ .notice (.pause work) :: rest), said⟩ :: r))
      (events front) (State.withCalls { s with working := s.working ++ [(l.length, work)] }
        (l ++ ⟨cs, isSession, .paused rest, said ++ front⟩ :: r)) := by
  rw [← List.append_nil (events front)]
  exact (report_all .running Stage.next?_running hfront (.notice (.pause work) :: rest)).trans (pause work)

/-- Work that goes on alone ends. -/
theorem workEnds (hidle : s.working = []) (x : Nat × Work) :
    Heard w { s with working := s.working ++ [x] } [] s := by
  have ht : Turn w { s with working := s.working ++ [x] } { s with working := (s.working ++ [x]).erase x } :=
    .workEnds _ x (List.mem_append_right _ (List.mem_singleton_self x))
  have hnone : (s.working ++ [x]).erase x = s.working := by rw [hidle, List.nil_append, List.erase_cons_head]
  rw [hnone] at ht
  exact .quiet .refl (.turn ht) fun _ => rfl

/-- And it goes on. -/
theorem resume (hidle : s.working = []) (work : Work) :
    Heard w (State.withCalls { s with working := s.working ++ [(l.length, work)] }
      (l ++ ⟨cs, isSession, .paused rest, said⟩ :: r)) []
      (s.withCalls (l ++ ⟨cs, isSession, .running rest, said⟩ :: r)) := by
  have hends := workEnds (w := w) (s := s.withCalls (l ++ ⟨cs, isSession, .paused rest, said⟩ :: r)) hidle
    (l.length, work)
  refine hends.trans (of_turn (.resume _ _ _ rest (s.getElem?_withCalls l _ r) rfl fun x hx => ?_) rfl)
  have hx : x ∈ s.working := hx
  rw [hidle] at hx
  cases hx

/-- It comes to its end, with every pause on the way. -/
theorem run_out (hidle : s.working = []) :
    Heard w (s.withCalls (l ++ ⟨cs, isSession, .running rest, said⟩ :: r)) (events rest)
      (s.withCalls (l ++ ⟨cs, isSession, .completed, said ++ spoken rest⟩ :: r)) := by
  induction rest generalizing said with
  | nil =>
    rw [show said ++ spoken [] = said from List.append_nil said]
    exact of_turn (.complete _ _ _ (s.getElem?_withCalls l _ r) rfl) rfl
  | cons x rest ih =>
    by_cases hx : ∃ work, x = .notice (.pause work)
    · obtain ⟨work, rfl⟩ := hx
      exact ((pause work).trans (resume hidle work)).trans ih
    · have hx : Unpaused [x] := List.forall_mem_singleton.mpr (not_exists.mp hx)
      have hone : Heard w (s.withCalls (l ++ ⟨cs, isSession, .running (x :: rest), said⟩ :: r)) (events [x])
          (s.withCalls (l ++ ⟨cs, isSession, .running rest, said ++ [x]⟩ :: r)) :=
        report_all .running Stage.next?_running hx rest
      have hall := hone.trans ih
      rw [← events_append, List.append_assoc] at hall
      rw [show x :: rest = [x] ++ rest from rfl, Report.spoken_append, hx.spoken_eq]
      exact hall

end Heard

/-! ### The order of the events -/

theorem untilPause_event (e : LogEvent) (ns : List Notice) : Manager.untilPause (.event e :: ns) =
    (.event e :: (Manager.untilPause ns).1, (Manager.untilPause ns).2) := rfl

theorem Unpaused.untilPause_append {front : List Report} (h : Unpaused front) (ns : List Notice) :
    Manager.untilPause (Report.notices front ++ ns) =
      (Report.notices front ++ (Manager.untilPause ns).1, (Manager.untilPause ns).2) := by
  induction front with
  | nil => rfl
  | cons r front ih =>
    obtain ⟨hr, hfront⟩ := List.forall_mem_cons.mp h
    cases r with
    | notice n =>
      cases n with
      | event e =>
        have huntil := untilPause_event e (Report.notices front ++ ns)
        rw [ih hfront] at huntil
        exact huntil
      | pause work => exact absurd rfl (hr work)
    | status x => exact ih hfront
    | found ds => exact ih hfront

theorem events_untilPause (ns : List Notice) :
    Notice.events (Manager.untilPause ns).1 ++ Notice.events ((Manager.untilPause ns).2.getD []) =
      Notice.events ns := by
  induction ns with
  | nil => rfl
  | cons n ns ih =>
    cases n with
    | event e => exact congrArg (e :: ·) ih
    | pause work => rfl

theorem interleaved_of_none {waiting : Bool} {ns before : List Notice} {ls : List (List Notice)}
    (h : Manager.untilPause (if waiting then ns.drop 1 else ns) = (before, none)) :
    Manager.interleaved waiting (ns :: ls) = Notice.events before ++ Manager.interleaved waiting ls := by
  rw [Manager.interleaved, h]

theorem interleaved_of_some {waiting : Bool} {ns before after : List Notice} {ls : List (List Notice)}
    (h : Manager.untilPause (if waiting then ns.drop 1 else ns) = (before, some after)) :
    Manager.interleaved waiting (ns :: ls) =
      Notice.events before ++ (if waiting then [] else ls.flatMap fun l => Notice.events (l.take 1)) ++
        Notice.events after ++ Manager.interleaved true ls := by
  rw [Manager.interleaved, h]

theorem interleaved_unpaused {rs : List Report} (h : Unpaused rs) (ls : List (List Report)) :
    Manager.interleaved false ((rs :: ls).map Report.notices) =
      events rs ++ Manager.interleaved false (ls.map Report.notices) := by
  apply interleaved_of_none
  have huntil := h.untilPause_append []
  rw [List.append_nil] at huntil
  rw [if_neg Bool.false_ne_true, huntil]
  exact congrArg (·, none) (List.append_nil _)

theorem interleaved_paused {rs front rest : List Report} {work : Work} (hfront : Unpaused front)
    (hrs : rs = front ++ .notice (.pause work) :: rest) (ls : List (List Report)) :
    Manager.interleaved false ((rs :: ls).map Report.notices) =
      events front ++ (ls.map Report.notices).flatMap (fun ns => Notice.events (ns.take 1)) ++ events rest ++
        Manager.interleaved true (ls.map Report.notices) := by
  apply interleaved_of_some
  have hnotices : Report.notices rs = Report.notices front ++ .pause work :: Report.notices rest := by
    rw [hrs]
    exact List.filterMap_append
  rw [if_neg Bool.false_ne_true, hnotices, hfront.untilPause_append]
  exact congrArg (·, some (Report.notices rest)) (List.append_nil _)

/-- Those that wait for the lock have logged their first event and are heard one after the other. -/
theorem interleaved_true (ls : List (List Notice)) :
    Manager.interleaved true ls = ls.flatMap fun ns => Notice.events (ns.drop 1) := by
  induction ls with
  | nil => rfl
  | cons ns ls ih =>
    rw [List.flatMap_cons, ← ih, ← events_untilPause (ns.drop 1)]
    rcases huntil : Manager.untilPause (if true then ns.drop 1 else ns) with ⟨before, _ | after⟩
    · rw [interleaved_of_none huntil]
      rw [if_pos rfl] at huntil
      rw [huntil]
      exact congrArg (· ++ _) (List.append_nil _).symm
    · rw [interleaved_of_some huntil]
      rw [if_pos rfl] at huntil
      rw [huntil, if_pos rfl, List.append_nil]
      rfl

/-! ### One session behind the other -/

/-- A session that waits for the lock. -/
def Call.inLine (cs : List Criteria) : Call := ⟨cs, true, .waiting, Manager.queued cs⟩

/-- A session that has come to its end on the manager `m` with these reports. -/
def Call.ended (m : Manager) (cs : List Criteria) (reports : List Report) : Call :=
  ⟨cs, true, if m.isShutDown then .refused else .completed, spoken reports⟩

theorem hasLock_of_mem_fresh (css : List (List Criteria)) :
    ∀ c ∈ css.map (Call.fresh · true), c.stage.hasLock = false :=
  List.forall_mem_map.mpr fun _ _ => rfl

theorem hasLock_of_mem_inLine (css : List (List Criteria)) : ∀ c ∈ css.map Call.inLine, c.stage.hasLock = false :=
  List.forall_mem_map.mpr fun _ _ => rfl

theorem hasLock_of_mem_concat_ended {l : List Call} (hl : ∀ c ∈ l, c.stage.hasLock = false) (m : Manager)
    (cs : List Criteria) (reports : List Report) : ∀ c ∈ l ++ [.ended m cs reports], c.stage.hasLock = false := by
  have hended : (Call.ended m cs reports).stage.hasLock = false := by
    unfold Call.ended
    cases m.isShutDown <;> rfl
  exact List.forall_mem_append.mpr ⟨hl, List.forall_mem_singleton.mpr hended⟩

theorem Call.ended_of_up (hup : m.isShutDown = false) (cs : List Criteria) (course : List Report) :
    ended m cs (Manager.queued cs ++ (Manager.announced cs ++ course)) =
      ⟨cs, true, .completed, Manager.queued cs ++ Manager.announced cs ++ spoken course⟩ := by
  unfold ended
  rw [hup, if_neg Bool.false_ne_true, Report.spoken_append, Report.spoken_append, (unpaused_queued cs).spoken_eq,
    (unpaused_announced cs).spoken_eq, List.append_assoc]

namespace Heard

open Manager (queued announced aborted)

variable {l r : List Call}

/-- A session reports that it is queued. -/
theorem begins (cs : List Criteria) : Heard w (s.withCalls (l ++ .fresh cs true :: r)) (events (queued cs))
    (s.withCalls (l ++ ⟨cs, true, .begun [], queued cs⟩ :: r)) :=
  report_all .begun (fun _ _ _ => rfl) (unpaused_queued cs) []

/-- And gets as far as waiting for the lock. -/
theorem queue (hup : s.manager.isShutDown = false) (cs : List Criteria) :
    Heard w (s.withCalls (l ++ .fresh cs true :: r)) (events (queued cs)) (s.withCalls (l ++ .inLine cs :: r)) := by
  have hall := (begins cs).trans (look (w := w) (s := s) (l := l) (r := r) hup)
  rwa [List.append_nil] at hall

/-- So do all that have begun. -/
theorem queue_all (hup : s.manager.isShutDown = false) (css : List (List Criteria)) :
    Heard w (s.withCalls (l ++ css.map (.fresh · true))) (css.flatMap fun cs => events (queued cs))
      (s.withCalls (l ++ css.map .inLine)) := by
  induction css generalizing l with
  | nil => exact .refl
  | cons cs css ih =>
    have hrest := ih (l := l ++ [.inLine cs])
    rw [← List.append_cons, ← List.append_cons] at hrest
    exact (queue hup cs).trans hrest

/-- A manager that is shut down lets none of them in. -/
theorem abort (hdown : s.manager.isShutDown = true) (cs : List Criteria) :
    Heard w (s.withCalls (l ++ .fresh cs true :: r)) (events (queued cs ++ aborted))
      (s.withCalls (l ++ .ended s.manager cs (queued cs ++ aborted) :: r)) := by
  have hlook := Turn.look (w := w) _ _ _ (s.getElem?_withCalls l ⟨cs, true, .begun [], queued cs⟩ r) rfl
  rw [State.manager_withCalls, if_pos hdown] at hlook
  have hreports : Heard w (s.withCalls (l ++ ⟨cs, true, .refusing aborted, queued cs⟩ :: r)) (events aborted)
      (s.withCalls (l ++ ⟨cs, true, .refusing [], queued cs ++ aborted⟩ :: r)) :=
    report_all .refusing (fun _ _ _ => rfl) unpaused_aborted []
  have hleaves : Heard w (s.withCalls (l ++ ⟨cs, true, .refusing [], queued cs ++ aborted⟩ :: r)) []
      (s.withCalls (l ++ ⟨cs, true, .refused, queued cs ++ aborted⟩ :: r)) :=
    of_turn (.leave _ _ _ (s.getElem?_withCalls l _ r) rfl) rfl
  have hall := (begins cs).trans ((of_turn hlook rfl).trans (hreports.trans hleaves))
  rw [List.append_nil, List.nil_append, ← events_append] at hall
  unfold Call.ended
  rw [if_pos hdown]
  exact hall

/-- One that waits for the lock comes to its end. -/
theorem attend {cs : List Criteria} {reports : List Report} {probed : List Address} {j : Journal}
    (hup : s.manager.isShutDown = false) (hidle : s.working = []) (hl : ∀ c ∈ l, c.stage.hasLock = false)
    (hr : ∀ c ∈ r, c.stage.hasLock = false)
    (hrun : (s.manager.course w cs).run s.journal = ((reports, probed), j)) :
    Heard w (s.withCalls (l ++ .inLine cs :: r)) (events (announced cs ++ reports))
      (State.withCalls { s with journal := j }
        (l ++ .ended s.manager cs (queued cs ++ (announced cs ++ reports)) :: r)) := by
  rw [Call.ended_of_up hup, events_append]
  exact (enter hup hl hr hrun).trans (run_out hidle)

/-- Those that wait for the lock come to their ends one after the other. -/
theorem attend_all {css : List (List Criteria)} {reports : List (List Report)} {probed : List Address} {j : Journal}
    (hup : s.manager.isShutDown = false) (hidle : s.working = []) (hl : ∀ c ∈ l, c.stage.hasLock = false)
    (hrun : (s.manager.sessions w css).run s.journal = ((reports, probed), j)) :
    Heard w (s.withCalls (l ++ css.map .inLine)) (Manager.interleaved true (reports.map Report.notices))
      (State.withCalls { s with journal := j } (l ++ List.zipWith (Call.ended s.manager) css reports)) := by
  rw [interleaved_true]
  induction css generalizing s l reports probed with
  | nil =>
    cases hrun
    exact .refl
  | cons cs css ih =>
    obtain ⟨own, ownProbed, j', others, more, hown, hothers, rfl⟩ := Manager.of_run_sessions_cons hrun
    obtain ⟨course, rfl, hcourse⟩ := Manager.of_run_session hup hown
    have hl' := hasLock_of_mem_concat_ended hl s.manager cs (queued cs ++ (announced cs ++ course))
    have hrest := ih (s := { s with journal := j' }) hup hidle hl' hothers
    rw [← List.append_cons, ← List.append_cons] at hrest
    exact (attend hup hidle hl (hasLock_of_mem_inLine css) hcourse).trans hrest

/-- Where one pauses for the first time all those behind it get as far as waiting for the lock. -/
theorem attend_paused {cs : List Criteria} {css : List (List Criteria)} {front rest : List Report} {work : Work}
    {probed : List Address} {j : Journal} (hup : s.manager.isShutDown = false) (hidle : s.working = [])
    (hl : ∀ c ∈ l, c.stage.hasLock = false) (hfront : Unpaused front)
    (hrun : (s.manager.course w cs).run s.journal = ((front ++ .notice (.pause work) :: rest, probed), j)) :
    Heard w (s.withCalls (l ++ .inLine cs :: css.map (.fresh · true)))
      (events (announced cs ++ front) ++ css.flatMap (fun cs => events (queued cs)) ++ events rest)
      (State.withCalls { s with journal := j }
        (l ++ .ended s.manager cs (queued cs ++ (announced cs ++ (front ++ .notice (.pause work) :: rest))) ::
          css.map .inLine)) := by
  have hadmits : Heard w (s.withCalls (l ++ .inLine cs :: css.map (.fresh · true))) (events (announced cs)) _ :=
    enter hup hl (hasLock_of_mem_fresh css) hrun
  have hpauses := hadmits.trans (run_to_pause hfront work rest)
  have hqueue := queue_all (w := w) (s := { s with journal := j, working := s.working ++ [(l.length, work)] })
    (l := l ++ [⟨cs, true, .paused rest, queued cs ++ announced cs ++ front⟩]) hup css
  rw [← List.append_cons, ← List.append_cons] at hqueue
  have hresumes := (hpauses.trans hqueue).trans (resume (s := { s with journal := j }) hidle work)
  have hall := hresumes.trans (run_out (s := { s with journal := j }) hidle)
  rw [List.append_nil, ← events_append] at hall
  rw [Call.ended_of_up hup, Report.spoken_append, hfront.spoken_eq, ← List.append_assoc]
  exact hall

/-- The first event of each session is that it is queued. -/
theorem flatMap_first {css : List (List Criteria)} {reports : List (List Report)} {probed : List Address}
    {j k : Journal} (hup : m.isShutDown = false) (hrun : (m.sessions w css).run j = ((reports, probed), k)) :
    (reports.map Report.notices).flatMap (fun ns => Notice.events (ns.take 1)) =
      css.flatMap fun cs => events (queued cs) := by
  induction css generalizing j reports probed with
  | nil =>
    cases hrun
    rfl
  | cons cs css ih =>
    obtain ⟨own, ownProbed, j', others, more, hown, hothers, rfl⟩ := Manager.of_run_sessions_cons hrun
    obtain ⟨course, rfl, -⟩ := Manager.of_run_session hup hown
    rw [List.map_cons, List.flatMap_cons, List.flatMap_cons, ih hothers]
    rfl

/-- Those that have begun come to their ends one after the other. -/
theorem serve_all {css : List (List Criteria)} {reports : List (List Report)} {probed : List Address} {j : Journal}
    (hup : s.manager.isShutDown = false) (hidle : s.working = []) (hl : ∀ c ∈ l, c.stage.hasLock = false)
    (hrun : (s.manager.sessions w css).run s.journal = ((reports, probed), j)) :
    Heard w (s.withCalls (l ++ css.map (.fresh · true))) (Manager.interleaved false (reports.map Report.notices))
      (State.withCalls { s with journal := j } (l ++ List.zipWith (Call.ended s.manager) css reports)) := by
  induction css generalizing s l reports probed with
  | nil =>
    cases hrun
    exact .refl
  | cons cs css ih =>
    obtain ⟨own, ownProbed, j', others, more, hown, hothers, rfl⟩ := Manager.of_run_sessions_cons hrun
    obtain ⟨course, rfl, hcourse⟩ := Manager.of_run_session hup hown
    have hl' := hasLock_of_mem_concat_ended hl s.manager cs (queued cs ++ (announced cs ++ course))
    rcases unpaused_or_paused course with hcourse' | ⟨front, work, rest, rfl, hfront⟩
    · -- the others begin when it is over
      have hrest := ih (s := { s with journal := j' }) hup hidle hl' hothers
      rw [← List.append_cons, ← List.append_cons] at hrest
      have hall := ((queue hup cs).trans (attend hup hidle hl (hasLock_of_mem_fresh css) hcourse)).trans hrest
      rw [← events_append] at hall
      rw [interleaved_unpaused ((unpaused_queued cs).append ((unpaused_announced cs).append hcourse'))]
      exact hall
    · have hrest := attend_all (s := { s with journal := j' }) hup hidle hl' hothers
      rw [← List.append_cons, ← List.append_cons] at hrest
      have hall := ((queue hup cs).trans (attend_paused hup hidle hl hfront hcourse)).trans hrest
      have hbefore : Unpaused (queued cs ++ (announced cs ++ front)) :=
        (unpaused_queued cs).append ((unpaused_announced cs).append hfront)
      have hown : queued cs ++ (announced cs ++ (front ++ .notice (.pause work) :: rest)) =
          queued cs ++ (announced cs ++ front) ++ .notice (.pause work) :: rest := by
        simp only [List.append_assoc]
      rw [← flatMap_first hup hothers, ← List.append_assoc, ← List.append_assoc, ← events_append] at hall
      rw [interleaved_paused hbefore hown]
      exact hall

/-- Those that have begun on a manager that is shut down are refused one after the other. -/
theorem refuse_all {css : List (List Criteria)} {reports : List (List Report)} {probed : List Address} {j : Journal}
    (hdown : s.manager.isShutDown = true)
    (hrun : (s.manager.sessions w css).run s.journal = ((reports, probed), j)) :
    Heard w (s.withCalls (l ++ css.map (.fresh · true))) (Manager.interleaved false (reports.map Report.notices))
      (State.withCalls { s with journal := j } (l ++ List.zipWith (Call.ended s.manager) css reports)) := by
  induction css generalizing s l reports probed with
  | nil =>
    cases hrun
    exact .refl
  | cons cs css ih =>
    obtain ⟨own, ownProbed, j', others, more, hown, hothers, rfl⟩ := Manager.of_run_sessions_cons hrun
    rw [Manager.run_session_shutDown hdown] at hown
    cases hown
    have hrest := ih (l := l ++ [.ended s.manager cs (queued cs ++ aborted)]) hdown hothers
    rw [← List.append_cons, ← List.append_cons] at hrest
    rw [interleaved_unpaused ((unpaused_queued cs).append unpaused_aborted)]
    exact (abort hdown cs).trans hrest

/-- Sessions begin one behind the other. -/
theorem start_all (css : List (List Criteria)) :
    Heard w s [] (s.withCalls (s.calls ++ css.map (.fresh · true))) := by
  induction css generalizing s with
  | nil =>
    rw [List.map_nil, List.append_nil]
    exact .refl
  | cons cs css ih =>
    have hall := (start s cs true).trans ih
    rw [List.map_cons, List.append_cons]
    exact hall

end Heard

/-- Sessions that begin one behind the other where nobody has the lock and no work goes on can run to their ends with
    the reports and the native calls of `Manager.sessions`, and `Manager.interleaved` is what is heard. -/
theorem sessions_are_a_run {css : List (List Criteria)} {reports : List (List Report)} {probed : List Address}
    {j : Journal} (hfree : s.isFree = true) (hidle : s.working = [])
    (hrun : (s.manager.sessions w css).run s.journal = ((reports, probed), j)) :
    Heard w s (Manager.interleaved false (reports.map Report.notices))
      (State.withCalls { s with journal := j } (s.calls ++ List.zipWith (Call.ended s.manager) css reports)) := by
  refine (Heard.start_all css).trans ?_
  cases hdown : s.manager.isShutDown with
  | true => exact Heard.refuse_all hdown hrun
  | false => exact Heard.serve_all hdown hidle (fun c hc => hasLock_of_isFree hfree hc) hrun

theorem map_said_ended (m : Manager) {css : List (List Criteria)} {reports : List (List Report)}
    (h : reports.length = css.length) : (List.zipWith (Call.ended m) css reports).map (·.said) = reports.map spoken := by
  apply List.ext_getElem (by simp [h])
  intro i _ _
  simp [Call.ended]

/-- What each of them logs is heard in the order of its reports. -/
theorem events_sublist_interleaved {css : List (List Criteria)} {reports : List (List Report)} {probed : List Address}
    {j k : Journal} (hrun : (m.sessions w css).run j = ((reports, probed), k)) {rs : List Report} (hrs : rs ∈ reports) :
    (events rs).Sublist (Manager.interleaved false (reports.map Report.notices)) := by
  have hheard := sessions_are_a_run (s := { manager := m, journal := j }) rfl rfl hrun
  obtain ⟨i, hi⟩ := List.mem_iff_getElem?.mp hrs
  have hsub := hheard.sublist i
  have hsaid : State.saidAt (State.withCalls { manager := m, journal := k }
      (List.zipWith (Call.ended m) css reports)) i = spoken rs := by
    show ((List.zipWith (Call.ended m) css reports).map (·.said))[i]?.getD [] = spoken rs
    rw [map_said_ended m (Manager.length_sessions hrun), List.getElem?_map, hi]
    rfl
  rw [← Report.events_spoken, ← hsaid]
  exact hsub

end Schedule

end Peripheral.Discovery
