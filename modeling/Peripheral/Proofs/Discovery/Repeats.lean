import Peripheral.Proofs.Discovery.Combined
import Peripheral.Proofs.Scan.Discover

/-
  Peripheral.Proofs.Discovery.Repeats — identities that are found more than once.

  What is kept are the identities at the places where a key is met for the first time
  (`distinct_eq_firsts`), each as it is there, its name included. A key that is dropped within a
  part is dropped from the whole as well, so that parts may be rid of their repeats before they
  are put together (`distinct_flatten`). A search does so for its subnets and a manager for its
  criteria: what comes out is what one pass over all that was found would keep
  (`hosts_discover_eq_distinct`, `hosts_scan_eq_distinct`).
-/

namespace Peripheral

namespace Scan

variable {hosts : List HostIdentity} {h : HostIdentity}

/-! ## First occurrences -/

/-- No identity before the place has the key of the one at it. -/
def IsFirst (hosts : List HostIdentity) (x : HostIdentity × Nat) : Prop :=
  identityKey x.1 ∉ (hosts.take x.2).map identityKey

instance (hosts : List HostIdentity) : DecidablePred (IsFirst hosts) :=
  fun x => inferInstanceAs (Decidable (identityKey x.1 ∉ (hosts.take x.2).map identityKey))

/-- The identities at the places where a key is met for the first time. -/
def firsts (hosts : List HostIdentity) : List HostIdentity := (hosts.zipIdx.filter fun x => IsFirst hosts x).map Prod.fst

theorem distinctAfter_eq_firsts (before rest : List HostIdentity) :
    distinctAfter (before.map identityKey) rest =
      ((rest.zipIdx before.length).filter fun x => IsFirst (before ++ rest) x).map Prod.fst := by
  induction rest generalizing before with
  | nil => rfl
  | cons h rest ih =>
    have hfirst : IsFirst (before ++ h :: rest) (h, before.length) ↔ identityKey h ∉ before.map identityKey := by
      rw [IsFirst, List.take_left]
    -- whether it is kept or not, the identity counts among those met before the next one
    have hnext := ih (before ++ [h])
    rw [List.append_assoc, List.singleton_append, List.length_append, List.length_singleton, List.map_append,
      List.map_singleton, distinctAfter_middle, List.append_nil] at hnext
    rw [distinctAfter_cons, hnext, List.zipIdx_cons]
    by_cases hh : identityKey h ∈ before.map identityKey
    · rw [if_pos hh, List.filter_cons_of_neg (by simpa [hfirst] using hh), List.nil_append]
    · rw [if_neg hh, List.filter_cons_of_pos (by simpa [hfirst] using hh), List.map_cons, List.singleton_append]

theorem distinct_eq_firsts (hosts : List HostIdentity) : distinct hosts = firsts hosts :=
  distinctAfter_eq_firsts [] hosts

theorem distinct_sublist (hosts : List HostIdentity) : (distinct hosts).Sublist hosts := by
  have h : (firsts hosts).Sublist (hosts.zipIdx.map Prod.fst) := List.filter_sublist.map Prod.fst
  rwa [← distinct_eq_firsts, List.zipIdx_map_fst] at h

/-- Of the identities with its key, the one that is kept comes first. -/
theorem find?_of_mem_distinct (hh : h ∈ distinct hosts) :
    hosts.find? (fun x => identityKey x = identityKey h) = some h := by
  rw [distinct_eq_firsts, firsts, List.mem_map] at hh
  obtain ⟨⟨_, i⟩, hx, rfl⟩ := hh
  obtain ⟨hmem, hfirst⟩ := List.mem_filter.mp hx
  obtain ⟨hi, hat⟩ := List.getElem?_eq_some_iff.mp (List.mk_mem_zipIdx_iff_getElem?.mp hmem)
  refine List.find?_eq_some_iff_getElem.mpr ⟨by simp, i, hi, hat, fun e he => ?_⟩
  simp only [decide_eq_true_eq, Bool.not_eq_eq_eq_not, Bool.not_true, decide_eq_false_iff_not] at hfirst ⊢
  intro hkey
  exact hfirst (hkey ▸ List.mem_map_of_mem (List.mem_take_iff_getElem.mpr ⟨e, by omega, rfl⟩))

/-- What keeps the first identity of each key. -/
structure KeepsFirsts (hosts kept : List HostIdentity) : Prop where
  eq_firsts : kept = firsts hosts
  sublist : kept.Sublist hosts
  nodup_keys : (kept.map identityKey).Nodup
  mem_keys_iff : ∀ k, k ∈ kept.map identityKey ↔ k ∈ hosts.map identityKey
  find? : ∀ h ∈ kept, hosts.find? (fun x => identityKey x = identityKey h) = some h

theorem keepsFirsts_distinct (hosts : List HostIdentity) : KeepsFirsts hosts (distinct hosts) where
  eq_firsts := distinct_eq_firsts hosts
  sublist := distinct_sublist hosts
  nodup_keys := nodup_keys_distinctAfter [] hosts
  mem_keys_iff _ := mem_keys_distinct
  find? _ := find?_of_mem_distinct

/-! ## Parts that were rid of their repeats -/

/-- Nothing is dropped where no key is repeated. -/
theorem distinct_eq_self (hnodup : (hosts.map identityKey).Nodup) : distinct hosts = hosts := by
  apply (distinct_sublist hosts).eq_of_length
  have hperm : ((distinct hosts).map identityKey).Perm (hosts.map identityKey) :=
    (List.perm_ext_iff_of_nodup (nodup_keys_distinctAfter [] hosts) hnodup).mpr fun _ => mem_keys_distinct
  simpa using hperm.length_eq

theorem distinct_distinct (hosts : List HostIdentity) : distinct (distinct hosts) = distinct hosts :=
  distinct_eq_self (nodup_keys_distinctAfter [] hosts)

/-- The parts may be rid of their repeats before they are put together. -/
theorem distinct_flatten (parts : List (List HostIdentity)) :
    distinct (parts.map distinct).flatten = distinct parts.flatten := by
  induction parts with
  | nil => rfl
  | cons part parts ih =>
    -- the first part has the same keys with and without its repeats, so it takes the same from the others
    rw [List.map_cons, List.flatten_cons, List.flatten_cons, distinct_append, distinct_append part, distinct_distinct, ih]

/-! ## Searches -/

/-- What a search finds, subnet by subnet, with all repeats. -/
def found (probe : Probe) (cap : Nat) (is : List Interface) (c : HostCriteria) : List HostIdentity :=
  if c.port = 0 then []
  else if c.isSubnetScan then (subnetsAfter [] is).flatMap fun s => (subnet probe cap s c).hosts
  else match Address.parse (Text.strip c.ip) with
    | .ok a => (ask probe c a).toList
    | .error _ => []

theorem hosts_discover_eq_distinct (probe : Probe) (cap : Nat) (is : List Interface) (c : HostCriteria) :
    (discover probe cap is c).hosts = distinct (found probe cap is c) := by
  unfold discover found
  by_cases hport : c.port = 0
  · simp only [hport, if_true]
    rfl
  · simp only [hport, if_false]
    cases c.isSubnetScan with
    | true => simp only [Bool.not_true, Bool.false_eq_true, if_false, if_true, (interfaces_eq [] is).1]
    | false =>
      simp only [Bool.not_false, Bool.false_eq_true, if_false, if_true]
      cases Address.parse (Text.strip c.ip) with
      | error e => rfl
      | ok a =>
        -- one host is no repeat
        show (ask probe c a).toList = distinct (ask probe c a).toList
        cases ask probe c a <;> rfl

end Scan

namespace Discovery.Manager

open Scan (KeepsFirsts distinct distinct_flatten)

/-- What the searches for the criteria find, with all repeats. -/
def found (m : Manager) (cs : List HostCriteria) : List HostIdentity :=
  cs.flatMap (Scan.found m.probe m.cap m.interfaces)

theorem hosts_scan_eq_distinct (m : Manager) (cs : List HostCriteria) : (m.scan cs).hosts = distinct (m.found cs) := by
  have hparts : (m.answering cs) = ((cs.map (Scan.found m.probe m.cap m.interfaces)).map distinct).flatten := by
    rw [List.map_map, answering, List.flatMap_def]
    refine congrArg List.flatten (List.map_congr_left fun c _ => ?_)
    exact Scan.hosts_discover_eq_distinct m.probe m.cap m.interfaces c
  rw [hosts_scan, hparts, distinct_flatten, found, List.flatMap_def]

/-- Of the identities with one key the first is kept, as it was found and where it was found. Passes over parts of a
    list before the pass over all of it change nothing, and so it makes no difference that a search drops the repeats
    among its subnets and a manager those among its criteria. -/
theorem repeats_are_dropped_once_for_all :
    (∀ hosts, KeepsFirsts hosts (distinct hosts)) ∧
      (∀ parts : List (List HostIdentity), distinct (parts.map distinct).flatten = distinct parts.flatten) ∧
      (∀ probe cap is c, (Scan.discover probe cap is c).hosts = distinct (Scan.found probe cap is c)) ∧
      ∀ (m : Manager) cs, (m.scan cs).hosts = distinct (m.found cs) :=
  ⟨Scan.keepsFirsts_distinct, distinct_flatten, Scan.hosts_discover_eq_distinct, hosts_scan_eq_distinct⟩

/-- The second name of a host is not kept, its second port is. -/
example :
    let a := Address.ofSegments .v4 [192, 168, 1, 5]
    distinct [⟨"printer", a, .zero, 80, .tcp⟩, ⟨"scanner", a, .zero, 80, .tcp⟩, ⟨"scanner", a, .zero, 443, .tcp⟩] =
      [⟨"printer", a, .zero, 80, .tcp⟩, ⟨"scanner", a, .zero, 443, .tcp⟩] := by
  decide

end Discovery.Manager

end Peripheral
