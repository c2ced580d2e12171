import Mathlib.Data.List.Perm.Subperm
import Peripheral.Proofs.Discovery.Sessions
import Peripheral.Proofs.Scan.Schedule

/-
  Peripheral.Proofs.Discovery.Overlap — how much work on other threads there is at once when
  discoveries are abandoned.

  A discovery gives a wave of probes away only if the wave keeps to the cap of its manager
  (`areWithin_course`, `Bounded`), and has the lock while it waits. One that is abandoned gives
  the lock back, but not its work. So all the work on other threads is what the owner of the
  lock waits for, or was left behind (`exists_working_perm`). Nobody leaves more than one piece
  (`length_leftBehind_le`), and whoever gives work away finds none but what was left behind.

  Nothing waits for that, and any number of discoveries can be abandoned in turn: so there is
  no bound on the enumerations, or on the probes, that go on at once (`exists_pile`).
-/

namespace Peripheral

/-- The probes of a piece of work. -/
def Work.wave : Work → List Address
  | enumeration => []
  | probes wave => wave

/-! ## The waves keep to the cap -/

/-- No wave among the notices has more probes than the cap says. -/
def Notice.AreWithin (cap : Nat) (ns : List Notice) : Prop := ∀ work, .pause work ∈ ns → work.wave.length ≤ cap

namespace Notice

variable {cap : Nat} {ns ns' : List Notice}

theorem AreWithin.append (h : AreWithin cap ns) (h' : AreWithin cap ns') : AreWithin cap (ns ++ ns') := by
  intro work hwork
  exact (List.mem_append.mp hwork).elim (h work) (h' work)

theorem AreWithin.cons_event (e : LogEvent) (h : AreWithin cap ns) : AreWithin cap (.event e :: ns) := by
  intro work hwork
  exact h work ((List.mem_cons.mp hwork).resolve_left nofun)

theorem areWithin_nil (cap : Nat) : AreWithin cap [] := nofun

end Notice

namespace Scan

open Notice (AreWithin areWithin_nil)

variable {probe : Probe} {cap : Nat}

theorem areWithin_waveNotices (c : HostCriteria) {wave : List Address} (hwave : wave.length ≤ cap) :
    AreWithin cap (waveNotices probe c wave) := by
  intro work hwork
  rcases List.mem_cons.mp hwork with hpause | hevent
  · cases hpause
    exact hwave
  · obtain ⟨e, -, he⟩ := List.mem_map.mp hevent
    cases he

theorem areWithin_subnet (hcap : 0 < cap) (s : Subnet) (c : HostCriteria) :
    AreWithin cap (subnet probe cap s c).notices := by
  refine AreWithin.cons_event _ (AreWithin.append ?_ ((areWithin_nil cap).cons_event _))
  intro work hwork
  obtain ⟨wave, hwave, hmem⟩ := List.mem_flatMap.mp hwork
  exact areWithin_waveNotices c (length_le_of_mem_chunks hcap _ wave hwave) work hmem

/-- One probe keeps to every cap. -/
theorem areWithin_host (hcap : 0 < cap) (a : Address) (c : HostCriteria) :
    AreWithin cap (host probe a c).notices := by
  intro work hwork
  rcases List.mem_cons.mp hwork with hpause | hevent
  · cases hpause
    exact hcap
  · split at hevent
    · cases List.mem_singleton.mp hevent
    · cases hevent

theorem areWithin_interfaces (hcap : 0 < cap) (c : HostCriteria) (seen : List (Address × UInt32))
    (is : List Interface) : AreWithin cap (interfaces probe cap c seen is).notices := by
  fun_induction interfaces probe cap c seen is with
  | case1 => exact areWithin_nil cap
  | case2 seen i rest _ ih => exact ((areWithin_nil cap).cons_event _).append ih
  | case3 seen i rest s _ _ ih => exact ih
  | case4 seen i rest s _ _ ih => exact (areWithin_subnet hcap s c).append ih

theorem areWithin_discover (hcap : 0 < cap) (is : List Interface) (c : HostCriteria) :
    AreWithin cap (discover probe cap is c).notices := by
  unfold discover
  split
  · exact (areWithin_nil cap).cons_event _
  · split
    · split
      · exact areWithin_host hcap _ c
      · exact (areWithin_nil cap).cons_event _
    · exact areWithin_interfaces hcap c [] is

end Scan

namespace Discovery

/-- No wave that the reports tell of has more probes than the cap says. -/
def Report.AreWithin (cap : Nat) (rs : List Report) : Prop := ∀ work, .notice (.pause work) ∈ rs → work.wave.length ≤ cap

namespace Report

variable {cap : Nat} {rs rs' : List Report}

theorem AreWithin.append (h : AreWithin cap rs) (h' : AreWithin cap rs') : AreWithin cap (rs ++ rs') := by
  intro work hwork
  exact (List.mem_append.mp hwork).elim (h work) (h' work)

theorem AreWithin.of_subset (h : AreWithin cap rs) (hsub : rs' ⊆ rs) : AreWithin cap rs' :=
  fun work hwork => h work (hsub hwork)

theorem areWithin_notices {ns : List Notice} (h : Notice.AreWithin cap ns) : AreWithin cap (ns.map .notice) := by
  intro work hwork
  obtain ⟨n, hn, heq⟩ := List.mem_map.mp hwork
  cases heq
  exact h work hn

theorem areWithin_singleton {r : Report} (hr : ∀ work, r ≠ .notice (.pause work)) : AreWithin cap [r] := by
  intro work hwork
  exact absurd (List.mem_singleton.mp hwork).symm (hr work)

theorem areWithin_logged (cap : Nat) (severity : Severity) (message : String) (fields : List (String × String)) :
    AreWithin cap [.logged severity message fields] := areWithin_singleton nofun

theorem areWithin_status (cap : Nat) (s : Status) : AreWithin cap [.status s] := areWithin_singleton nofun

theorem areWithin_batch (cap : Nat) (devices : List Device) : AreWithin cap (batch devices) := by
  unfold batch
  split
  · exact nofun
  · exact areWithin_singleton nofun

end Report

namespace Manager

open Report (AreWithin areWithin_logged areWithin_status areWithin_batch areWithin_notices)

theorem cap_pos (m : Manager) : 0 < m.cap := Scan.Schedule.cap_pos _

theorem areWithin_scan (m : Manager) (cs : List HostCriteria) : Notice.AreWithin m.cap (m.scan cs).notices := by
  have hfold : ∀ (cs : List HostCriteria) (r : Scan.Report), Notice.AreWithin m.cap r.notices → Notice.AreWithin m.cap
      (cs.foldl (fun r c => r ++ Scan.discover m.probe m.cap m.interfaces c) r).notices := by
    intro cs
    induction cs with
    | nil => exact fun r h => h
    | cons c cs ih => exact fun r h => ih _ (h.append (Scan.areWithin_discover m.cap_pos m.interfaces c))
  exact hfold cs {} (Notice.areWithin_nil _)

theorem areWithin_discoverHosts (m : Manager) (ethernet http : List HostCriteria) :
    AreWithin m.cap (m.discoverHosts ethernet http).1 := by
  unfold discoverHosts
  split
  · exact nofun
  · split
    · exact areWithin_logged _ _ _ _
    · have hethernet := areWithin_notices (m.areWithin_scan ethernet)
      have hhttp := areWithin_notices (m.areWithin_scan http)
      exact ((((areWithin_logged _ _ _ _).append hethernet).append (areWithin_batch _ _)).append hhttp).append
        (areWithin_batch _ _)

theorem areWithin_discoverUsb (m : Manager) (w : Surroundings) (cs : List UsbCriteria) (j : Journal) :
    AreWithin m.cap ((m.discoverUsb w cs).run j).1.2 := by
  unfold discoverUsb
  split
  · exact nofun
  · split
    · exact areWithin_logged _ _ _ _
    · intro work hwork
      cases List.mem_singleton.mp hwork
      exact Nat.zero_le _

/-- No discovery gives a wave away that has more probes than the cap of its manager says. -/
theorem areWithin_course (m : Manager) (w : Surroundings) (cs : List Criteria) (j : Journal) :
    AreWithin m.cap ((m.course w cs).run j).1.1 := by
  have husb := m.areWithin_discoverUsb w (usbCriteria cs) j
  have hhosts := m.areWithin_discoverHosts (ethernetCriteria cs) (httpCriteria cs)
  rw [reports_course]
  exact (((husb.append (areWithin_batch _ _)).append (areWithin_status _ _)).append hhosts).append
    ((areWithin_logged _ _ _ _).append (areWithin_status _ _))

end Manager

namespace Schedule

open Report (AreWithin)

variable {w : Surroundings} {m : Manager} {s t : State} {i : Nat} {k k' : Call}

/-- The reports that are to come from one that has asked for the USB context. -/
def Stage.toCome : Stage → List Report
  | running rest | paused rest => rest
  | _ => []

theorem Move.areWithin_toCome (hmove : Move w s i k k') (h : AreWithin s.manager.cap k.stage.toCome) :
    AreWithin s.manager.cap k'.stage.toCome := by
  have hfrom : ∀ {stage : Stage}, k.stage = stage → AreWithin s.manager.cap stage.toCome := by
    rintro stage rfl
    exact h
  cases hmove with
  | stay => exact h
  | say r next hnext =>
    obtain ⟨rest, ⟨-, rfl⟩ | ⟨-, rfl⟩ | ⟨hstage, rfl⟩ | ⟨-, rfl⟩⟩ := Stage.cases_of_next? hnext
    · exact nofun
    · exact nofun
    · exact (hfrom hstage).of_subset (List.subset_cons_self r rest)
    · exact nofun
  | look _ => split <;> exact nofun
  | lookAgain _ => split <;> exact nofun
  | setOut j _ => exact s.manager.areWithin_course w k.criteria j
  | pause work rest hstage => exact (hfrom hstage).of_subset (List.subset_cons_self _ rest)
  | resume rest hstage _ =>
    have hrest := hfrom hstage
    exact hrest
  | enter _ => exact nofun
  | complete _ => exact nofun
  | leave _ => exact nofun
  | abandon _ _ => exact nofun

/-- The waves on other threads, and those to come, keep to the cap of the manager `m`. -/
structure Bounded (m : Manager) (s : State) : Prop where
  cap : s.manager.cap = m.cap
  calls : ∀ k ∈ s.calls, AreWithin m.cap k.stage.toCome
  working : ∀ x ∈ s.working, x.2.wave.length ≤ m.cap

theorem Bounded.step (h : Bounded m s) (ht : Step w s t) : Bounded m t where
  cap := by
    cases ht.manages with
    | same hm _ => rw [hm]; exact h.cap
    | raised hm _ => rw [hm]; exact h.cap
    | released _ _ _ hm _ => rw [hm]; exact h.cap
  calls := by
    intro k' hk'
    obtain ⟨i, hi⟩ := List.mem_iff_getElem?.mp hk'
    rcases ht.origin hi with ⟨k, hk, hmove⟩ | ⟨-, cs, isSession, rfl⟩
    · rw [← h.cap]
      exact hmove.areWithin_toCome (h.cap ▸ h.calls k (List.mem_of_getElem? hk))
    · exact nofun
  working := by
    intro x hx
    cases ht with
    | turn ht =>
      cases ht with
      | pause i k work rest hk hstage =>
        rcases List.mem_append.mp hx with hx | hx
        · exact h.working x hx
        · -- this wave was among the reports to come
          have hcalls := h.calls k (List.mem_of_getElem? hk)
          rw [hstage] at hcalls
          rw [List.mem_singleton.mp hx]
          exact hcalls work List.mem_cons_self
      | workEnds y _ => exact h.working x (List.mem_of_mem_erase hx)
      | _ => exact h.working x hx
    | _ => exact h.working x hx

theorem Reach.bounded (h : Reach w m s) : Bounded m s := by
  induction h with
  | start => exact ⟨rfl, nofun, nofun⟩
  | step _ ht ih => exact ih.step ht

/-! ## What abandoned discoveries leave behind -/

/-- How many enumerations go on. -/
def enumerations (working : List (Nat × Work)) : Nat := working.countP fun x => x.2 = .enumeration

/-- How many probes are out. -/
def probesOut (working : List (Nat × Work)) : Nat := (working.map fun x => x.2.wave.length).sum

namespace State

/-- The work of discoveries that were abandoned. -/
def leftBehind (s : State) : List (Nat × Work) :=
  s.working.filter fun x => s.calls[x.1]?.any (·.stage = .abandoned)

/-- How many discoveries were abandoned. -/
def abandoned (s : State) : Nat := s.calls.countP (·.stage = .abandoned)

end State

theorem isLeftBehind_iff {x : Nat × Work} : s.calls[x.1]?.any (·.stage = .abandoned) = true ↔
    ∃ k, s.calls[x.1]? = some k ∧ k.stage = .abandoned := by
  simp only [Option.any_eq_true_iff_get, decide_eq_true_eq]
  constructor
  · rintro ⟨hsome, habandoned⟩
    exact ⟨_, (Option.some_get hsome).symm, habandoned⟩
  · rintro ⟨k, hk, habandoned⟩
    exact ⟨by rw [hk]; rfl, by simp only [hk, Option.get_some, habandoned]⟩

namespace Exclusive

theorem cases_of_mem_working (h : Exclusive s) {x : Nat × Work} (hx : x ∈ s.working) :
    ∃ k, s.calls[x.1]? = some k ∧ ((∃ rest, k.stage = .paused rest) ∨ k.stage = .abandoned) := by
  obtain ⟨k, hk, hgiven⟩ := h.giver x hx
  refine ⟨k, hk, ?_⟩
  cases hstage : k.stage with
  | paused rest => exact .inl ⟨rest, rfl⟩
  | abandoned => exact .inr rfl
  | _ => rw [hstage] at hgiven; cases hgiven

/-- Nobody leaves more than one piece of work behind. -/
theorem length_leftBehind_le (h : Exclusive s) : s.leftBehind.length ≤ s.abandoned := by
  have hnodup : (s.leftBehind.map Prod.fst).Nodup := h.apart.sublist (List.filter_sublist.map Prod.fst)
  have hsub : s.leftBehind.map Prod.fst ⊆ s.calls.findIdxs (·.stage = .abandoned) := by
    intro i hi
    obtain ⟨x, hx, rfl⟩ := List.mem_map.mp hi
    obtain ⟨k, hk, habandoned⟩ := isLeftBehind_iff.mp (List.mem_filter.mp hx).2
    obtain ⟨hlt, hget⟩ := List.getElem?_eq_some_iff.mp hk
    rw [List.mem_findIdxs_iff_exists_getElem_pos]
    exact ⟨hlt, by simp only [hget, habandoned, decide_true]⟩
  calc s.leftBehind.length = (s.leftBehind.map Prod.fst).length := (List.length_map _).symm
    _ ≤ (s.calls.findIdxs (·.stage = .abandoned)).length := (hnodup.subperm hsub).length_le
    _ = s.abandoned := List.length_findIdxs

/-- All other work is one piece at most: the owner of the lock waits for it. -/
theorem exists_working_perm (h : Exclusive s) :
    ∃ own, (s.leftBehind ++ own).Perm s.working ∧ own.length ≤ 1 := by
  refine ⟨_, List.filter_append_perm _ s.working, ?_⟩
  apply length_le_one_of_fst (h.apart.sublist (List.filter_sublist.map Prod.fst))
  have hpaused : ∀ x ∈ s.working.filter (fun x => !s.calls[x.1]?.any (·.stage = .abandoned)),
      ∃ k rest, s.calls[x.1]? = some k ∧ k.stage = .paused rest := by
    intro x hx
    obtain ⟨hmem, hnot⟩ := List.mem_filter.mp hx
    obtain ⟨k, hk, ⟨rest, hstage⟩ | hstage⟩ := h.cases_of_mem_working hmem
    · exact ⟨k, rest, hk, hstage⟩
    · rw [isLeftBehind_iff.mpr ⟨k, hk, hstage⟩] at hnot
      cases hnot
  intro x hx y hy
  obtain ⟨k, rest, hk, hkstage⟩ := hpaused x hx
  obtain ⟨l, rest', hl, hlstage⟩ := hpaused y hy
  exact h.owner x.1 y.1 k l hk hl (by rw [hkstage]; rfl) (by rw [hlstage]; rfl)

theorem enumerations_le (h : Exclusive s) : enumerations s.working ≤ enumerations s.leftBehind + 1 := by
  obtain ⟨own, hperm, hown⟩ := h.exists_working_perm
  calc enumerations s.working = enumerations (s.leftBehind ++ own) := (hperm.countP_eq _).symm
    _ = enumerations s.leftBehind + enumerations own := List.countP_append
    _ ≤ enumerations s.leftBehind + 1 := Nat.add_le_add_left (List.countP_le_length.trans hown) _

theorem probesOut_le (h : Exclusive s) (hb : Bounded m s) : probesOut s.working ≤ probesOut s.leftBehind + m.cap := by
  obtain ⟨own, hperm, hown⟩ := h.exists_working_perm
  have hwithin : probesOut own ≤ m.cap := by
    match own with
    | [] => exact Nat.zero_le _
    | [x] => exact hb.working x (hperm.subset (List.mem_append_right _ (List.mem_singleton_self x)))
  calc probesOut s.working = probesOut (s.leftBehind ++ own) := (hperm.map _).sum_nat.symm
    _ = probesOut s.leftBehind + probesOut own := by
      unfold probesOut
      rw [List.map_append, List.sum_append]
    _ ≤ probesOut s.leftBehind + m.cap := Nat.add_le_add_left hwithin _

/-- Whoever has the lock and waits for nothing finds no work but what was left behind. -/
theorem leftBehind_eq_working (h : Exclusive s) (hk : s.calls[i]? = some k) (hlock : k.stage.hasLock = true)
    (hidle : k.stage.hasGiven = false) : s.leftBehind = s.working := by
  refine List.filter_eq_self.mpr fun x hx => isLeftBehind_iff.mpr ?_
  obtain ⟨l, hl, ⟨rest, hstage⟩ | hstage⟩ := h.cases_of_mem_working hx
  · -- it would be the same discovery
    have hix := h.owner i x.1 k l hk hl hlock (by rw [hstage]; rfl)
    exact absurd hix.symm (h.ne_of_idle hk hidle x hx)
  · exact ⟨l, hl, hstage⟩

end Exclusive

/-- Only a discovery that is no session is ever abandoned. -/
theorem Standing.isSession_of_abandoned (h : Standing w m s) (hk : k ∈ s.calls) (hstage : k.stage = .abandoned) :
    k.isSession = false := by
  rcases h.sorted k hk with hkept | hadmitted
  · exact (hkept.at_stage hstage).2
  · exact hadmitted.at_stage hstage

/-! ## One discovery abandoned after the other -/

/-- A discovery of `cs` gives this work away before any other. -/
def GivesFirst (w : Surroundings) (m : Manager) (cs : List Criteria) (work : Work) : Prop :=
  ∀ j, ∃ front rest, ((m.course w cs).run j).1.1 = front ++ .notice (.pause work) :: rest ∧ Unpaused front

/-- When nobody has the lock one more discovery can begin and get as far as asking for the USB context. -/
theorem Reach.setsOut {cs : List Criteria} {reports : List Report} {probed : List Address} {j : Journal}
    (hdown : m.isShutDown = false) (h : Reach w m s) (hfree : s.isFree = true) (hm : s.manager = m)
    (hrun : (m.course w cs).run s.journal = ((reports, probed), j)) :
    Reach w m (State.withCalls { s with journal := j }
      (s.calls ++ [⟨cs, false, .running reports, Manager.announced cs⟩])) := by
  subst hm
  have hlocks : ∀ c ∈ s.calls, c.stage.hasLock = false := fun c hc => hasLock_of_isFree hfree hc
  have hlooks : Heard w (s.withCalls (s.calls ++ [.fresh cs false])) []
      (s.withCalls (s.calls ++ [⟨cs, false, .waiting, []⟩])) := .look hdown
  exact (((Heard.start s cs false).trans hlooks).trans (.enter hdown hlocks nofun hrun)).reach h

/-- And be abandoned when it has given its work away. -/
theorem Reach.exists_abandoned {cs : List Criteria} {work : Work} (hdown : m.isShutDown = false)
    (hgives : GivesFirst w m cs work) (h : Reach w m s) (hfree : s.isFree = true) (hm : s.manager = m) :
    ∃ t, Reach w m t ∧ t.isFree = true ∧ t.manager = m ∧ t.working = s.working ++ [(s.calls.length, work)] := by
  obtain ⟨front, rest, hreports, hfront⟩ := hgives s.journal
  rcases hrun : (m.course w cs).run s.journal with ⟨⟨reports, probed⟩, j⟩
  rw [hrun] at hreports
  cases hreports
  have h := (Heard.run_to_pause hfront work rest).reach (h.setsOut hdown hfree hm hrun)
  have h := h.step (.abandon _ _ _ (State.getElem?_withCalls _ s.calls _ []) rfl rfl)
  rw [State.setCall_withCalls] at h
  exact ⟨_, h, State.isFree_withCalls (fun c hc => hasLock_of_isFree hfree hc) rfl nofun, hm, rfl⟩

/-- So any number of discoveries can, one after the other. -/
theorem exists_pile {cs : List Criteria} {work : Work} (hdown : m.isShutDown = false)
    (hgives : GivesFirst w m cs work) (n : Nat) :
    ∃ s, Reach w m s ∧ s.isFree = true ∧ s.manager = m ∧ s.working.map Prod.snd = List.replicate n work := by
  induction n with
  | zero => exact ⟨_, .start, rfl, rfl, rfl⟩
  | succ n ih =>
    obtain ⟨s, hs, hfree, hm, hworking⟩ := ih
    obtain ⟨t, ht, hfree', hm', hworking'⟩ := hs.exists_abandoned hdown hgives hfree hm
    refine ⟨t, ht, hfree', hm', ?_⟩
    rw [hworking', List.map_append, hworking, List.replicate_succ']
    rfl

theorem givesFirst_enumeration {cs : List Criteria} (husb : m.usb = true) (hcs : Manager.usbCriteria cs ≠ []) :
    GivesFirst w m cs .enumeration := by
  intro j
  have hreports : ((m.discoverUsb w (Manager.usbCriteria cs)).run j).1.2 = [.notice (.pause .enumeration)] := by
    unfold Manager.discoverUsb
    rw [if_neg (mt List.isEmpty_iff.mp hcs), if_neg (by simp [husb])]
    rfl
  unfold Manager.course
  rw [Act.run_bind]
  generalize (m.discoverUsb w (Manager.usbCriteria cs)).run j = usb at hreports
  obtain ⟨⟨devices, usbReports⟩, k⟩ := usb
  cases hreports
  exact ⟨[], _, rfl, nofun⟩

theorem givesFirst_probe {c : HostCriteria} {a : Address} (hethernet : m.ethernet = true) (hport : c.port ≠ 0)
    (hscan : c.isSubnetScan = false) (ha : Address.parse (Text.strip c.ip) = .ok a) :
    GivesFirst w m [.ethernet c] (.probes [a]) := by
  intro j
  have hnotices : (m.scan [c]).notices = (Scan.host m.probe a c).notices := by
    show [] ++ (Scan.discover m.probe m.cap m.interfaces c).notices = _
    unfold Scan.discover
    rw [if_neg hport, hscan, ha]
    rfl
  have hhosts : ∃ message fields rest, (m.discoverHosts [c] []).1 =
      .logged .debug message fields :: .notice (.pause (.probes [a])) :: rest := by
    unfold Manager.discoverHosts
    rw [if_neg (by simp), if_neg (by simp [hethernet])]
    simp only [hnotices]
    exact ⟨_, _, _, rfl⟩
  obtain ⟨message, fields, rest, hrest⟩ := hhosts
  have hcourse : ∃ rest', ((m.course w [.ethernet c]).run j).1.1 =
      [] ++ [] ++ [Report.status .enumeratingEthernet] ++ (m.discoverHosts [c] []).1 ++ rest' := ⟨_, rfl⟩
  obtain ⟨rest', hcourse⟩ := hcourse
  refine ⟨[.status .enumeratingEthernet, .logged .debug message fields], rest ++ rest', ?_, ?_⟩
  · rw [hcourse, hrest]
    rfl
  · rintro r hr work rfl
    simp [Report.logged] at hr

theorem enumerations_pile {working : List (Nat × Work)} {n : Nat}
    (h : working.map Prod.snd = List.replicate n .enumeration) : enumerations working = n := by
  have hcount : enumerations working = (working.map Prod.snd).countP (· = .enumeration) := by
    rw [List.countP_map]
    rfl
  rw [hcount, h, List.countP_replicate, if_pos (decide_eq_true rfl)]

theorem probesOut_pile {working : List (Nat × Work)} {work : Work} {n : Nat}
    (h : working.map Prod.snd = List.replicate n work) : probesOut working = n * work.wave.length := by
  have hsum : probesOut working = ((working.map Prod.snd).map fun work => work.wave.length).sum := by
    rw [List.map_map]
    rfl
  rw [hsum, h, List.map_replicate, List.sum_replicate_nat]

/-! ## How much goes on at once -/

/-- How the work on other threads stands at `s`, on the manager `m`. -/
structure Confined (m : Manager) (s : State) : Prop where
  /-- One discovery at most is between taking the lock and giving it back. -/
  alone : ∀ (i j : Nat) (k l : Call), s.calls[i]? = some k → s.calls[j]? = some l →
    k.stage.hasLock = true → l.stage.hasLock = true → i = j
  /-- Work is waited for by a discovery that has the lock, or was left behind by one that was abandoned. -/
  givers : ∀ x ∈ s.working, ∃ k, s.calls[x.1]? = some k ∧
    ((∃ rest, k.stage = .paused rest) ∨ k.stage = .abandoned ∧ k.isSession = false)
  /-- Whoever has the lock and waits for nothing finds no work but what was left behind. -/
  starts : ∀ (i : Nat) (k : Call), s.calls[i]? = some k → k.stage.hasLock = true → k.stage.hasGiven = false →
    s.leftBehind = s.working
  /-- Nobody leaves more than one piece behind. -/
  leftBehind : s.leftBehind.length ≤ s.abandoned
  waves : ∀ x ∈ s.working, x.2.wave.length ≤ m.cap
  /-- But for what was left behind, one enumeration goes on at most. -/
  enumerations : enumerations s.working ≤ enumerations s.leftBehind + 1
  /-- And as many probes are out as the cap says at most. -/
  probes : probesOut s.working ≤ probesOut s.leftBehind + m.cap

/-- Any number of discoveries on one manager, abandoned where they wait or run to their end, with any shutdowns: the
    work of one that is not abandoned has ended before another gives work away, and only the work that abandoned ones
    left behind comes on top of one enumeration, or of as many probes as the cap says. -/
theorem only_abandoned_discoveries_overlap (h : Reach w m s) : Confined m s where
  alone := h.exclusive.owner
  givers := by
    intro x hx
    obtain ⟨k, hk, hwaits | hstage⟩ := h.exclusive.cases_of_mem_working hx
    · exact ⟨k, hk, .inl hwaits⟩
    · exact ⟨k, hk, .inr ⟨hstage, h.standing.isSession_of_abandoned (List.mem_of_getElem? hk) hstage⟩⟩
  starts := fun _ _ hk hlock hidle => h.exclusive.leftBehind_eq_working hk hlock hidle
  leftBehind := h.exclusive.length_leftBehind_le
  waves := h.bounded.working
  enumerations := h.exclusive.enumerations_le
  probes := h.exclusive.probesOut_le h.bounded

/-- Where two enumerations go on at once a discovery was abandoned. -/
theorem two_enumerations_one_abandoned : ∃ s, Reach chipOnly usbOnly s ∧ enumerations s.working = 2 ∧
    1 ≤ enumerations s.leftBehind ∧ 1 ≤ s.abandoned := by
  have hgives : GivesFirst chipOnly usbOnly [.usb {}] .enumeration := givesFirst_enumeration rfl (List.cons_ne_nil _ _)
  obtain ⟨s, hs, -, -, hworking⟩ := exists_pile rfl hgives 2
  have hconfined := only_abandoned_discoveries_overlap hs
  have htwo := enumerations_pile hworking
  have hbound := hconfined.enumerations
  have hleft : 1 ≤ enumerations s.leftBehind := by omega
  exact ⟨s, hs, htwo, hleft, hleft.trans (List.countP_le_length.trans hconfined.leftBehind)⟩

/-- Probes one host at a time. -/
def oneByOne : Manager where
  usb := false
  ethernet := true
  limits := { maxConcurrent := 1 }
  interfaces := []
  probe _ _ _ := .silent

/-- Dropped discoveries leave any number of enumerations behind, and any number of probes where no two may be out. -/
theorem abandoned_discoveries_pile_up : (∀ n, ∃ s, Reach chipOnly usbOnly s ∧ enumerations s.working = n) ∧
    oneByOne.cap = 1 ∧ ∀ n, ∃ s, Reach chipOnly oneByOne s ∧ probesOut s.working = n := by
  refine ⟨?_, rfl, ?_⟩
  · intro n
    have hgives : GivesFirst chipOnly usbOnly [.usb {}] .enumeration := givesFirst_enumeration rfl (List.cons_ne_nil _ _)
    obtain ⟨s, hs, -, -, hworking⟩ := exists_pile rfl hgives n
    exact ⟨s, hs, enumerations_pile hworking⟩
  · intro n
    have hgives : GivesFirst chipOnly oneByOne [.ethernet (.host "10.1.0.1" 80 .tcp)] (.probes [.v4 #v[10, 1, 0, 1]]) :=
      givesFirst_probe rfl (by decide) (by decide +kernel) (by decide +kernel)
    obtain ⟨s, hs, -, -, hworking⟩ := exists_pile rfl hgives n
    exact ⟨s, hs, (probesOut_pile hworking).trans (Nat.mul_one n)⟩

end Schedule
end Discovery
end Peripheral
