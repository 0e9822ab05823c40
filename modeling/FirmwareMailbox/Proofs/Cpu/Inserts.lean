/-
  FirmwareMailbox.Proofs.Cpu.Inserts — the table after any inserts is the finite map that they make.

  The last insert for a number is the one that counts (`LastFor`), in whatever order the numbers come and
  however many there are between them. The entries stay in order, there is one for each number that was
  inserted, and slots that the same inserts are made in are read the same (`inserts_make_map`).
-/

import FirmwareMailbox.Proofs.Cpu.Slots
import Mathlib.Data.Finset.Card

namespace FirmwareMailbox.CpuTable

/-- Of the inserts for the CPU, the last one has this entry. -/
def LastFor (inserts : List (Nat × CpuEntry)) (cpu : Nat) (e : CpuEntry) : Prop :=
  ∃ before after, inserts = before ++ (cpu, e) :: after ∧ ∀ p ∈ after, p.1 ≠ cpu

/-- The inserts one after the other, in slots. -/
def Slots.insertAll (slots : Slots) (inserts : List (Nat × CpuEntry)) : Except Error Slots :=
  inserts.foldlM (fun slots p => Slots.insert slots (UInt64.ofNat p.1) p.2) slots

/-- What is read of the slots is what is read of the table. -/
structure Slots.ReadAs (slots : Slots) (t : CpuTable) : Prop where
  find? : ∀ cpu, Slots.find? slots cpu = t.find? cpu
  entries : Slots.entries slots = t.entries
  size : Slots.size slots = t.size

variable {t : CpuTable} {inserts : List (Nat × CpuEntry)} {cpu : Nat} {e : CpuEntry}

theorem Fits.place (h : t.Fits) (hcpu : cpu ≤ highest) : Fits ⟨place cpu e t.entries⟩ := by
  intro p hp
  rcases mem_place hp with rfl | hp
  · exact hcpu
  · exact h p hp

theorem insertAll_slots (h : t.Fits) (hroom : ∀ p ∈ inserts, p.1 ≤ highest) :
    Slots.insertAll t.slots inserts = .ok (t.putAll inserts).slots := by
  induction inserts generalizing t with
  | nil => rfl
  | cons p rest ih =>
    obtain ⟨hp, hrest⟩ := List.forall_mem_cons.mp hroom
    have hcpu : (UInt64.ofNat p.1).toNat = p.1 := by
      have hsucc := le_highest_iff.mp hp
      apply UInt64.toNat_ofNat_of_lt'
      show p.1 < 2 ^ 64
      omega
    have hinsert : Slots.insert t.slots (UInt64.ofNat p.1) p.2 = .ok (slots ⟨CpuTable.place p.1 p.2 t.entries⟩) := by
      rw [insert_slots h, hcpu, insert, if_pos hp]
      rfl
    rw [Slots.insertAll, List.foldlM_cons, hinsert]
    exact ih (h.place hp) hrest

theorem find?_inserts : (empty.putAll inserts).find? cpu = some e ↔ LastFor inserts cpu e := by
  have hempty : empty.find? cpu = none := rfl
  rw [find?_putAll, hempty, Option.or_none, getLast?_filterMap_eq_some]
  constructor
  · intro h
    obtain ⟨before, p, after, hinserts, hp, hafter⟩ := h
    obtain ⟨rfl, rfl⟩ : p.1 = cpu ∧ p.2 = e := by simpa using hp
    exact ⟨before, after, hinserts, fun q hq => by simpa using hafter q hq⟩
  · intro h
    obtain ⟨before, after, hinserts, hafter⟩ := h
    exact ⟨before, (cpu, e), after, hinserts, by simp, fun q hq => by simpa using hafter q hq⟩

theorem find?_inserts_eq_none : (empty.putAll inserts).find? cpu = none ↔ ∀ p ∈ inserts, p.1 ≠ cpu := by
  have hempty : empty.find? cpu = none := rfl
  rw [find?_putAll, hempty, Option.or_none, List.getLast?_eq_none_iff, List.filterMap_eq_nil_iff]
  simp

theorem ascending_inserts (inserts : List (Nat × CpuEntry)) : Ascending (empty.putAll inserts).entries :=
  Ascending.putAll (t := empty) List.Pairwise.nil inserts

/-- There are as many entries as numbers that were inserted. -/
theorem size_inserts (inserts : List (Nat × CpuEntry)) :
    (empty.putAll inserts).size = (inserts.map (·.1)).toFinset.card := by
  have hA := ascending_inserts inserts
  have hnumbers : ((empty.putAll inserts).entries.map (·.1)).toFinset = (inserts.map (·.1)).toFinset := by
    ext c
    rw [List.mem_toFinset, List.mem_toFinset]
    have hfound : c ∈ (empty.putAll inserts).entries.map (·.1) ↔ (empty.putAll inserts).find? c ≠ none := by
      rw [Option.ne_none_iff_exists']
      simp [hA.mem_iff]
    rw [hfound, ne_eq, find?_inserts_eq_none]
    simp
  rw [← hnumbers, List.toFinset_card_of_nodup hA.nodup, List.length_map, size]

/-- After any inserts of numbers below the highest there is a table. It finds the entry of the last insert for
    a CPU, and refuses exactly the CPUs for which there was none. It lists each CPU once, with what is found
    for it, in strictly ascending order, and its size is the number of CPUs that were inserted. The same
    inserts in slots that grow on demand succeed as well and are read the same. -/
theorem inserts_make_map (h : ∀ p ∈ inserts, p.1 < Text.max64) :
    ∃ t, ofList inserts = .ok t ∧
      (∀ c e, t.get c = .ok e ↔ LastFor inserts c e) ∧
      (∀ c, t.get c = .error (.invalidArgument (.absentCpu c)) ↔ ∀ p ∈ inserts, p.1 ≠ c) ∧
      (∀ c e, (c, e) ∈ t.entries ↔ LastFor inserts c e) ∧
      (t.entries.map (·.1)).Pairwise (· < ·) ∧
      t.size = (inserts.map (·.1)).toFinset.card ∧
      (t.isEmpty = true ↔ inserts = []) ∧
      ∃ slots, Slots.insertAll [] inserts = .ok slots ∧ slots.ReadAs t := by
  have hroom : ∀ p ∈ inserts, p.1 ≤ highest := fun p hp => lt_max64_iff.mp (h p hp)
  have hA := ascending_inserts inserts
  have hfits : empty.Fits := fun p hp => absurd hp List.not_mem_nil
  refine ⟨empty.putAll inserts, foldlM_insert hroom empty, fun c e => get_eq_ok.trans find?_inserts,
    fun c => get_eq_error.trans find?_inserts_eq_none, fun c e => hA.mem_iff.trans find?_inserts,
    List.pairwise_map.mpr hA, size_inserts inserts, ?_, _, insertAll_slots hfits hroom,
    find?_slots _, entries_slots hA, size_slots hA⟩
  have hcard := size_inserts inserts
  rw [isEmpty, List.isEmpty_iff_length_eq_zero, ← size, hcard, Finset.card_eq_zero, List.toFinset_eq_empty_iff,
    List.map_eq_nil_iff]

/-- Two inserts for one CPU, and one for a lower number between them. -/
theorem inserts_make_map_descending :
    let inserts : List (Nat × CpuEntry) := [(3, ⟨1, 130⟩), (0, ⟨0, 0⟩), (3, ⟨0, 6⟩)]
    (∀ p ∈ inserts, p.1 < Text.max64) ∧
      ∃ t, ofList inserts = .ok t ∧ t.get 3 = .ok ⟨0, 6⟩ ∧
        t.get 1 = .error (.invalidArgument (.absentCpu 1)) ∧ t.size = 2 := by
  intro inserts
  have hroom : ∀ p ∈ inserts, p.1 < Text.max64 := by decide
  obtain ⟨t, ht, hok, herror, -, -, hsize, -⟩ := inserts_make_map hroom
  refine ⟨hroom, t, ht, ?_, ?_, hsize⟩
  · exact (hok 3 _).mpr ⟨[(3, ⟨1, 130⟩), (0, ⟨0, 0⟩)], [], rfl, fun p hp => absurd hp List.not_mem_nil⟩
  · exact (herror 1).mpr (by decide)

end FirmwareMailbox.CpuTable
