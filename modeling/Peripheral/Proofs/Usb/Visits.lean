import Mathlib.Data.List.Basic
import Peripheral.Proofs.Usb.Calls

/-
  Peripheral.Proofs.Usb.Visits — which devices an enumeration reports, and what it calls for.

  An enumeration opens each device with a readable descriptor and an admitted vendor once, in
  bus order, and closes it again before the next (`visit`). How an open ends depends on how
  often that device was opened before (`nextOpen`), so the visit of one device changes nothing
  for another (`nextOpen_after`): all that is found can be told from the journal at the
  beginning (`run_identities_visits`, `run_enumerate_visits`).
-/

namespace Peripheral.Usb

/-! ## One device -/

/-- A device and its place on the bus. -/
abbrev Spot := Device × Nat

/-- How the next open of a device ends. -/
def nextOpen (j : Journal) (x : Spot) : Option Error := x.1.opens (j.callCount (Call.isOpenOf x.2))

/-- The identity as it reads after an open: its strings are blank if that failed. -/
def Device.identity (dev : Device) : Option Error → UsbIdentity
  | some _ => ⟨"", "", "", dev.portPath, dev.vendorId, dev.productId⟩
  | none => ⟨descriptorText dev.name, descriptorText dev.manufacturer, descriptorText dev.serialNumber,
      dev.portPath, dev.vendorId, dev.productId⟩

/-- The calls of a visit: what could be opened is closed. -/
def visit (opened : Spot → Option Error) (x : Spot) : List Call :=
  .openDevice x.2 (opened x) :: if (opened x).isNone then [.closeDevice x.2] else []

variable {bus : Bus} {cs : List UsbCriteria} {vendor : UInt16 → Bool} {j : Journal} {opened : Spot → Option Error}

theorem run_openDevice_at {d : Nat} {dev : Device} (hd : bus.devices[d]? = some dev) (j : Journal) :
    (bus.openDevice d).run j = (match nextOpen j (dev, d) with
      | some e => .error e
      | none => .ok ⟨d, []⟩, j.call (.openDevice d (nextOpen j (dev, d)))) := by
  unfold Bus.openDevice Bus.next
  rw [hd]
  rfl

theorem run_identify_visit {d : Nat} {dev : Device} (hd : bus.devices[d]? = some dev) (j : Journal) :
    ((identify bus d dev).run j).1 = dev.identity (nextOpen j (dev, d)) ∧
      ((identify bus d dev).run j).2.calls = j.calls ++ visit (nextOpen j) (dev, d) := by
  unfold identify visit
  rw [Act.run_bind, run_openDevice_at hd]
  cases nextOpen j (dev, d) with
  | some e => exact ⟨rfl, rfl⟩
  | none =>
    refine ⟨rfl, ?_⟩
    show ((bus.drop ⟨d, []⟩).run (j.call (.openDevice d none))).2.calls = _
    rw [bus.run_drop_none _ _ rfl]
    simp

theorem place_of_mem_visit {x : Spot} {c : Call} {d : Nat} (hc : c ∈ visit opened x) (hopen : c.isOpenOf d = true) :
    x.2 = d := by
  unfold visit at hc
  rcases List.mem_cons.mp hc with rfl | hc
  · exact beq_iff_eq.mp hopen
  · split at hc
    · rw [List.mem_singleton.mp hc] at hopen
      cases hopen
    · cases hc

/-- Visits of other devices leave a device as it was. -/
theorem nextOpen_after {k : Journal} {xs : List Spot} {y : Spot} (hk : k.calls = j.calls ++ xs.flatMap (visit opened))
    (hne : ∀ x ∈ xs, x.2 ≠ y.2) : nextOpen k y = nextOpen j y := by
  have hnone : (xs.flatMap (visit opened)).countP (Call.isOpenOf y.2) = 0 := by
    apply List.countP_eq_zero.mpr
    intro c hc hopen
    obtain ⟨x, hx, hcx⟩ := List.mem_flatMap.mp hc
    exact hne x hx (place_of_mem_visit hcx hopen)
  unfold nextOpen Journal.callCount
  rw [hk, List.countP_append, hnone, Nat.add_zero]

/-! ## All devices -/

/-- The devices with a readable descriptor and an admitted vendor. -/
def visited (vendor : UInt16 → Bool) (xs : List Spot) : List Spot :=
  xs.filter fun x => x.1.descriptorFailure.isNone && vendor x.1.vendorId

/-- Those of them that answer one of the criteria. -/
def reported (cs : List UsbCriteria) (vendor : UInt16 → Bool) (opened : Spot → Option Error) (xs : List Spot) :
    List Spot :=
  (visited vendor xs).filter fun x => cs.any (·.admits (x.1.identity (opened x)))

/-- What is reported of them. -/
def identitiesOf (opened : Spot → Option Error) (xs : List Spot) : List UsbIdentity :=
  xs.map fun x => x.1.identity (opened x)

theorem visited_cons (x : Spot) (xs : List Spot) :
    visited vendor (x :: xs) =
      if x.1.descriptorFailure.isNone && vendor x.1.vendorId then x :: visited vendor xs else visited vendor xs :=
  List.filter_cons

theorem identitiesOf_reported_cons (x : Spot) (xs : List Spot) :
    identitiesOf opened (reported cs vendor opened (x :: xs)) =
      if x.1.descriptorFailure.isNone && vendor x.1.vendorId && cs.any (·.admits (x.1.identity (opened x))) then
        x.1.identity (opened x) :: identitiesOf opened (reported cs vendor opened xs)
      else identitiesOf opened (reported cs vendor opened xs) := by
  unfold reported
  rw [visited_cons]
  by_cases hx : (x.1.descriptorFailure.isNone && vendor x.1.vendorId) = true
  · rw [if_pos hx, List.filter_cons, hx, Bool.true_and]
    by_cases hwanted : (cs.any (·.admits (x.1.identity (opened x)))) = true
    · rw [if_pos hwanted, if_pos hwanted]
      rfl
    · rw [if_neg hwanted, if_neg hwanted]
  · rw [if_neg hx, eq_false_of_ne_true hx, Bool.false_and]
    rfl

/-- Only the opens of the visited devices matter. -/
theorem identitiesOf_reported_congr {opened' : Spot → Option Error} {xs : List Spot}
    (h : ∀ x ∈ visited vendor xs, opened x = opened' x) :
    identitiesOf opened (reported cs vendor opened xs) = identitiesOf opened' (reported cs vendor opened' xs) := by
  have hsame : reported cs vendor opened xs = reported cs vendor opened' xs := by
    apply List.filter_congr
    intro x hx
    rw [h x hx]
  rw [hsame]
  apply List.map_congr_left
  intro x hx
  rw [h x (List.mem_of_mem_filter hx)]

theorem flatMap_visit_congr {opened' : Spot → Option Error} {xs : List Spot} (h : ∀ x ∈ xs, opened x = opened' x) :
    xs.flatMap (visit opened) = xs.flatMap (visit opened') := by
  apply List.flatMap_congr
  intro x hx
  unfold visit
  rw [h x hx]

theorem ne_of_mem_zipIdx {devices : List Device} {d : Nat} {x : Spot} (hx : x ∈ devices.zipIdx (d + 1)) : d ≠ x.2 := by
  have := List.le_snd_of_mem_zipIdx hx
  omega

theorem run_identities_visits (devices : List Device) (d : Nat) (j : Journal) (hdrop : bus.devices.drop d = devices) :
    ((identities bus cs vendor d devices).run j).1 =
        identitiesOf (nextOpen j) (reported cs vendor (nextOpen j) (devices.zipIdx d)) ∧
      ((identities bus cs vendor d devices).run j).2.calls =
        j.calls ++ (visited vendor (devices.zipIdx d)).flatMap (visit (nextOpen j)) := by
  induction devices generalizing d j with
  | nil => exact ⟨rfl, (List.append_nil _).symm⟩
  | cons dev rest ih =>
    have hd : bus.devices[d]? = some dev := by rw [← List.head?_drop, hdrop, List.head?_cons]
    have hrest : bus.devices.drop (d + 1) = rest := by rw [← List.tail_drop, hdrop, List.tail_cons]
    unfold identities
    rw [List.zipIdx_cons, identitiesOf_reported_cons, visited_cons]
    cases hdesc : dev.descriptorFailure with
    | some e => exact ih (d + 1) (j.log _) hrest
    | none =>
      by_cases hv : vendor dev.vendorId = true
      · obtain ⟨hid, hcalls⟩ := run_identify_visit hd j
        simp only [hv, Bool.not_true, Bool.false_eq_true, if_false, Option.isNone_none, Bool.true_and, if_true]
        rw [Act.run_bind, Act.run_bind, Act.run_bind, hid]
        generalize hk : ((Act.log _).run ((identify bus d dev).run j).2).2 = k
        have hvisit : k.calls = j.calls ++ [(dev, d)].flatMap (visit (nextOpen j)) := by
          rw [← hk, List.flatMap_singleton, ← hcalls]
          rfl
        have hsame : ∀ x ∈ visited vendor (rest.zipIdx (d + 1)), nextOpen k x = nextOpen j x := by
          intro x hx
          apply nextOpen_after hvisit
          intro y hy
          rw [List.mem_singleton.mp hy]
          exact ne_of_mem_zipIdx (List.mem_of_mem_filter hx)
        obtain ⟨hids, hrests⟩ := ih (d + 1) k hrest
        rw [flatMap_visit_congr hsame, hvisit, List.append_assoc, ← List.flatMap_append] at hrests
        refine ⟨?_, hrests⟩
        rw [hids, identitiesOf_reported_congr hsame]
        rfl
      · simp only [hv, Bool.not_false, if_true]
        exact ih (d + 1) j hrest

/-- An enumeration of a bus whose devices can be listed. -/
theorem run_enumerate_visits (hlist : bus.listFailure = none) (hcs : cs ≠ []) (j : Journal) :
    ((enumerate bus cs vendor).run j).1 =
        identitiesOf (nextOpen j) (reported cs vendor (nextOpen j) bus.devices.zipIdx) ∧
      ((enumerate bus cs vendor).run j).2.calls =
        j.calls ++ (visited vendor bus.devices.zipIdx).flatMap (visit (nextOpen j)) := by
  unfold enumerate
  rw [if_neg (mt List.isEmpty_iff.mp hcs), hlist]
  exact run_identities_visits bus.devices 0 j rfl

theorem mem_visited_iff {x : Spot} :
    x ∈ visited vendor bus.devices.zipIdx ↔
      bus.devices[x.2]? = some x.1 ∧ x.1.descriptorFailure = none ∧ vendor x.1.vendorId = true := by
  unfold visited
  rw [List.mem_filter, List.mem_zipIdx_iff_getElem?, Bool.and_eq_true, Option.isNone_iff_eq_none]

theorem mem_reported_iff {x : Spot} :
    x ∈ reported cs vendor opened bus.devices.zipIdx ↔
      bus.devices[x.2]? = some x.1 ∧ x.1.descriptorFailure = none ∧ vendor x.1.vendorId = true ∧
        ∃ c ∈ cs, c.admits (x.1.identity (opened x)) = true := by
  unfold reported
  rw [List.mem_filter, mem_visited_iff, List.any_eq_true, and_assoc, and_assoc]

/-- Each device comes once, in bus order. -/
theorem pairwise_visited (bus : Bus) (vendor : UInt16 → Bool) :
    (visited vendor bus.devices.zipIdx).Pairwise fun x y => x.2 < y.2 := by
  apply List.Pairwise.filter
  rw [← List.pairwise_map, List.zipIdx_map_snd]
  exact List.pairwise_lt_range' 1

theorem pairwise_reported (bus : Bus) (cs : List UsbCriteria) (vendor : UInt16 → Bool) (opened : Spot → Option Error) :
    (reported cs vendor opened bus.devices.zipIdx).Pairwise fun x y => x.2 < y.2 :=
  (pairwise_visited bus vendor).filter _

end Peripheral.Usb
