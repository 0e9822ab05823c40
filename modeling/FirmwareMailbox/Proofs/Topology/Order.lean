/-
  FirmwareMailbox.Proofs.Topology.Order — discovery does not depend on the order of the scan.

  The order of the buses is all that arranging looks at. Sorting two orders of the same devices puts
  the same buses in the same places (`map_bus_byBus`), so the first two neighbours on one bus stand
  at the same place in both, if there are any (`sharedBus?_congr`). If there are none, the buses
  ascend strictly and one order is left (`byBus_eq`): arranging has the same list to go on from, and
  discovery is the same program. Only where two devices share a bus the order of the scan decides which of
  the devices on that bus are named.
-/

import FirmwareMailbox.Proofs.Machine.Requests
import FirmwareMailbox.Proofs.Topology.Buses

namespace FirmwareMailbox.Topology

variable {ds ds' devices devices' : List PciDevice}

/-! ## Sorting -/

theorem map_bus_byBus (h : devices.Perm devices') :
    (byBus devices).map (·.address.bus) = (byBus devices').map (·.address.bus) := by
  have hsorted (ds : List PciDevice) : ((byBus ds).map (·.address.bus)).Pairwise (· ≤ ·) :=
    List.pairwise_map.mpr (byBus_sorted ds)
  have hperm : (byBus devices).Perm (byBus devices') :=
    (byBus_perm devices).trans (h.trans (byBus_perm devices').symm)
  exact List.Perm.eq_of_pairwise (fun _ _ _ _ => UInt8.le_antisymm) (hsorted devices) (hsorted devices')
    (hperm.map _)

/-- The buses alone decide whether two neighbours share one, and which. -/
theorem sharedBus?_congr (h : ds.map (·.address.bus) = ds'.map (·.address.bus)) :
    (sharedBus? ds).map (fun p => (p.1.address.bus, p.2.address.bus)) =
      (sharedBus? ds').map fun p => (p.1.address.bus, p.2.address.bus) := by
  fun_induction sharedBus? ds generalizing ds' with
  | case1 a b rest hab =>
    obtain ⟨a', _, rfl, ha, h⟩ := List.map_eq_cons_iff.mp h.symm
    obtain ⟨b', rest', rfl, hb, -⟩ := List.map_eq_cons_iff.mp h
    have hab' : a'.address.bus = b'.address.bus := ha.trans (hab.trans hb.symm)
    rw [sharedBus?, if_pos hab']
    exact congrArg some (Prod.ext ha.symm hb.symm)
  | case2 a b rest hab ih =>
    obtain ⟨a', tail, rfl, ha, ht⟩ := List.map_eq_cons_iff.mp h.symm
    obtain ⟨b', rest', rfl, hb, -⟩ := List.map_eq_cons_iff.mp ht
    have hab' : ¬ a'.address.bus = b'.address.bus := fun he => hab (ha.symm.trans (he.trans hb))
    rw [sharedBus?, if_neg hab']
    exact ih ht.symm
  | case3 ds hn =>
    have hn' : ∀ a' b' rest', ds' ≠ a' :: b' :: rest' := by
      intro a' b' rest' he
      subst he
      obtain ⟨a, tail, rfl, -, ht⟩ := List.map_eq_cons_iff.mp h
      obtain ⟨b, rest, rfl, -, -⟩ := List.map_eq_cons_iff.mp ht
      exact hn a b rest rfl
    rw [sharedBus?.eq_def ds']
    split
    · exact absurd rfl (hn' _ _ _)
    · rfl

/-- Neighbours that share a bus are in the list, and on one bus. -/
theorem sharedBus?_mem {a b : PciDevice} (h : sharedBus? ds = some (a, b)) :
    a ∈ ds ∧ b ∈ ds ∧ a.address.bus = b.address.bus := by
  fun_induction sharedBus? ds with
  | case1 a' b' rest hab =>
    cases h
    exact ⟨List.mem_cons_self .., List.mem_cons_of_mem _ (List.mem_cons_self ..), hab⟩
  | case2 a' b' rest hab ih =>
    obtain ⟨ha, hb, he⟩ := ih h
    exact ⟨List.mem_cons_of_mem _ ha, List.mem_cons_of_mem _ hb, he⟩
  | case3 ds hn => cases h

/-- Devices on different buses have one order only. -/
theorem byBus_eq (h : devices.Perm devices') (hs : sharedBus? (byBus devices) = none)
    (hs' : sharedBus? (byBus devices') = none) : byBus devices = byBus devices' := by
  refine List.Perm.eq_of_pairwise (fun a b _ _ hab hba => ?_)
    (ascending_of_sharedBus? hs (byBus_sorted devices)) (ascending_of_sharedBus? hs' (byBus_sorted devices'))
    ((byBus_perm devices).trans (h.trans (byBus_perm devices').symm))
  exact absurd hba (UInt8.lt_asymm hab)

/-! ## Arranging -/

/-- Two devices of the list are on this bus. -/
structure Sharing (devices : List PciDevice) (a b : PciAddress) (bus : UInt8) : Prop where
  left : a ∈ devices.map (·.address)
  right : b ∈ devices.map (·.address)
  bus_left : a.bus = bus
  bus_right : b.bus = bus

theorem Sharing.of_sharedBus? {a b : PciDevice} (h : sharedBus? (byBus devices) = some (a, b)) :
    Sharing devices a.address b.address a.address.bus := by
  obtain ⟨ha, hb, he⟩ := sharedBus?_mem h
  exact ⟨List.mem_map_of_mem ((byBus_perm devices).subset ha),
    List.mem_map_of_mem ((byBus_perm devices).subset hb), rfl, he.symm⟩

/-- Two orders of the same devices are arranged alike, or refused for two devices on one bus. -/
theorem arrange_perm (h : devices.Perm devices') :
    arrange devices = arrange devices' ∨
      ∃ a b a' b' bus, arrange devices = .error (.sharedBus a b) ∧ Sharing devices a b bus ∧
        arrange devices' = .error (.sharedBus a' b') ∧ Sharing devices' a' b' bus := by
  unfold arrange
  simp only [← h.length_eq]
  by_cases hc : devices.length ≠ 4 ∧ devices.length ≠ 8
  · left
    rw [if_pos hc, if_pos hc]
  rw [if_neg hc, if_neg hc]
  have hbuses := sharedBus?_congr (map_bus_byBus h)
  cases hs : sharedBus? (byBus devices) with
  | none =>
    have hs' : sharedBus? (byBus devices') = none := by simpa [hs] using hbuses.symm
    left
    rw [← byBus_eq h hs hs', hs]
  | some p =>
    obtain ⟨p', hs', hp⟩ : ∃ p', sharedBus? (byBus devices') = some p' ∧
        p'.1.address.bus = p.1.address.bus := by
      rw [hs] at hbuses
      obtain ⟨p', hs', hp⟩ := Option.map_eq_some_iff.mp hbuses.symm
      exact ⟨p', hs', (Prod.mk.inj hp).1⟩
    right
    refine ⟨p.1.address, p.2.address, p'.1.address, p'.2.address, p.1.address.bus, rfl, .of_sharedBus? hs,
      by rw [hs'], ?_⟩
    rw [← hp]
    exact .of_sharedBus? hs'

/-- Discovery goes on from what is arranged. -/
theorem ofDevices_perm (h : devices.Perm devices') :
    ofDevices devices = ofDevices devices' ∨
      ∃ a b a' b' bus, Sharing devices a b bus ∧ Sharing devices' a' b' bus ∧
        ofDevices devices = throw (.topology (.sharedBus a b)) ∧
        ofDevices devices' = throw (.topology (.sharedBus a' b')) := by
  unfold ofDevices
  rcases arrange_perm h with ha | ⟨a, b, a', b', bus, ha, hs, ha', hs'⟩
  · left
    rw [ha]
  · right
    exact ⟨a, b, a', b', bus, hs, hs', by rw [ha], by rw [ha']⟩

end FirmwareMailbox.Topology
