/-
  FirmwareMailbox.Proofs.Cpu.Slots — the table laid out as slots that are indexed by CPU number.

  Each CPU has the slot of its number; between them there are empty slots. A list of slots that ends before
  the one that is wanted is resized first, to one more than the number, and this length is a 64-bit word like
  the number. So it is 0 for the highest number of all, the slots that were there are cut off, and there is no
  slot to write to (`grow_highest`, `insert_highest`).

  What the table is to its readers its slots are too: an insert into the one is an insert into the other
  (`insert_slots`), with the same failure, and the slots hold the entries of the table in its order
  (`entries_slots`).
-/

import FirmwareMailbox.Proofs.Cpu.Table
import Mathlib.Tactic.Ring

namespace FirmwareMailbox.CpuTable

/-- One slot for each CPU number below the length; that of a CPU that is not there is empty. -/
abbrev Slots := List (Option CpuEntry)

namespace Slots

/-- As many slots as are asked for, the new ones empty. -/
def resize (slots : Slots) (n : Nat) : Slots := slots.take n ++ List.replicate (n - slots.length) none

/-- The slots once there ought to be one for the CPU. -/
def grow (slots : Slots) (cpu : UInt64) : Slots :=
  if slots.length ≤ cpu.toNat then resize slots (cpu + 1).toNat else slots

def insert (slots : Slots) (cpu : UInt64) (e : CpuEntry) : Except Error Slots :=
  if cpu.toNat < (grow slots cpu).length then .ok ((grow slots cpu).set cpu.toNat (some e))
  else .error (.outOfBounds cpu.toNat)

def find? (slots : Slots) (cpu : Nat) : Option CpuEntry := slots[cpu]?.join

/-- How many slots are not empty. -/
def size (slots : Slots) : Nat := slots.countP Option.isSome

/-- What is in the slots, one after the other, with the number of each. -/
def entries (slots : Slots) : List (Nat × CpuEntry) :=
  (List.range slots.length).filterMap fun cpu => (find? slots cpu).map (cpu, ·)

variable {slots : Slots} {cpu : UInt64} {e : CpuEntry}

theorem length_resize (slots : Slots) (n : Nat) : (resize slots n).length = n := by
  simp [resize]
  omega

theorem getElem?_resize (slots : Slots) (n i : Nat) :
    (resize slots n)[i]? = if i < n then some slots[i]?.join else none := by
  unfold resize
  by_cases hl : i < slots.length
  · by_cases hi : i < n
    · have htake : i < (slots.take n).length := by simp; omega
      rw [List.getElem?_append_left htake]
      simp [hi, hl]
    · have hend : (slots.take n).length ≤ i := by simp; omega
      have hzero : n - slots.length = 0 := by omega
      rw [hzero, List.replicate_zero, List.append_nil, List.getElem?_eq_none hend, if_neg hi]
  · have htake : (slots.take n).length ≤ i := by simp; omega
    have hplace : i - (slots.take n).length < n - slots.length ↔ i < n := by simp; omega
    rw [List.getElem?_append_right htake, List.getElem?_replicate]
    simp only [hplace]
    simp [hl]

/-- The successor of a word overflows at the highest word only. -/
theorem toNat_succ (cpu : UInt64) :
    (cpu + 1).toNat = if cpu.toNat + 1 < 2 ^ 64 then cpu.toNat + 1 else 0 := by
  have hlt := cpu.toNat_lt
  have hone : (1 : UInt64).toNat = 1 := rfl
  rw [UInt64.toNat_add, hone]
  split <;> omega

/-- Growing for a number that has a successor makes room and fills it with empty slots. -/
theorem getElem?_grow (h : cpu.toNat + 1 < 2 ^ 64) (i : Nat) :
    (grow slots cpu)[i]? = if i < max slots.length (cpu.toNat + 1) then some slots[i]?.join else none := by
  unfold grow
  rw [toNat_succ, if_pos h]
  by_cases hl : slots.length ≤ cpu.toNat
  · have hmax : max slots.length (cpu.toNat + 1) = cpu.toNat + 1 := by omega
    rw [if_pos hl, getElem?_resize, hmax]
  · have hmax : max slots.length (cpu.toNat + 1) = slots.length := by omega
    rw [if_neg hl, hmax]
    by_cases hi : i < slots.length
    · simp [hi]
    · simp [hi]

theorem lt_length_grow (h : cpu.toNat + 1 < 2 ^ 64) : cpu.toNat < (grow slots cpu).length := by
  have hsome : (grow slots cpu)[cpu.toNat]?.isSome = true := by
    rw [getElem?_grow h, if_pos (by omega)]
    rfl
  simpa using hsome

theorem grow_highest (hl : slots.length < 2 ^ 64) (h : ¬ cpu.toNat + 1 < 2 ^ 64) : grow slots cpu = [] := by
  have hlt := cpu.toNat_lt
  have hle : slots.length ≤ cpu.toNat := by omega
  rw [grow, if_pos hle, toNat_succ, if_neg h]
  exact List.eq_nil_of_length_eq_zero (length_resize slots 0)

theorem insert_highest (hl : slots.length < 2 ^ 64) (h : ¬ cpu.toNat + 1 < 2 ^ 64) :
    insert slots cpu e = .error (.outOfBounds cpu.toNat) := by
  rw [insert, grow_highest hl h]
  exact if_neg (Nat.not_lt_zero _)

end Slots

/-! ## The slots of a table -/

/-- One more than the highest number that has an entry. -/
def extent (t : CpuTable) : Nat := (t.entries.map (·.1 + 1)).foldr max 0

def slots (t : CpuTable) : Slots := (List.range t.extent).map t.find?

/-- The numbers that a table has a place for are those with a successor. -/
theorem le_highest_iff {n : Nat} : n ≤ highest ↔ n + 1 < 2 ^ 64 := by
  unfold highest
  omega

theorem lt_max64_iff {n : Nat} : n < Text.max64 ↔ n ≤ highest := by
  unfold highest Text.max64
  omega

/-- Every number in the table has a place there. -/
def Fits (t : CpuTable) : Prop := ∀ p ∈ t.entries, p.1 ≤ highest

variable {t : CpuTable} {cpu : UInt64} {e : CpuEntry}

theorem extent_cons (p : Nat × CpuEntry) (rest : List (Nat × CpuEntry)) :
    extent ⟨p :: rest⟩ = max (p.1 + 1) (extent ⟨rest⟩) := rfl

theorem extent_place (cpu : Nat) (e : CpuEntry) (entries : List (Nat × CpuEntry)) :
    extent ⟨place cpu e entries⟩ = max (extent ⟨entries⟩) (cpu + 1) := by
  induction entries with
  | nil => exact Nat.max_comm _ _
  | cons first rest ih =>
    obtain ⟨c, d⟩ := first
    unfold place
    by_cases hlt : cpu < c
    · simp only [if_pos hlt, extent_cons]
      omega
    · by_cases heq : cpu = c
      · simp only [if_neg hlt, if_pos heq, extent_cons]
        omega
      · simp only [if_neg hlt, if_neg heq, extent_cons, ih]
        omega

theorem lt_extent {p : Nat × CpuEntry} (h : p ∈ t.entries) : p.1 < t.extent := by
  obtain ⟨entries⟩ := t
  induction entries with
  | nil => cases h
  | cons q rest ih =>
    rw [extent_cons]
    rcases List.mem_cons.mp h with rfl | h
    · omega
    · have hrest := ih h
      omega

theorem Fits.extent_lt (h : t.Fits) : t.extent < 2 ^ 64 := by
  obtain ⟨entries⟩ := t
  induction entries with
  | nil => decide
  | cons q rest ih =>
    obtain ⟨hq, hrest⟩ := List.forall_mem_cons.mp h
    have hlt := ih hrest
    have hsucc := le_highest_iff.mp hq
    rw [extent_cons]
    omega

theorem length_slots (t : CpuTable) : t.slots.length = t.extent := by simp [slots]

theorem getElem?_slots (t : CpuTable) (c : Nat) :
    t.slots[c]? = if c < t.extent then some (t.find? c) else none := by
  by_cases hc : c < t.extent
  · simp [slots, hc]
  · simp [slots, hc]

theorem find?_slots (t : CpuTable) (c : Nat) : Slots.find? t.slots c = t.find? c := by
  unfold Slots.find?
  rw [getElem?_slots]
  by_cases hc : c < t.extent
  · rw [if_pos hc]
    rfl
  · rw [if_neg hc]
    cases hf : t.find? c with
    | none => rfl
    | some e => exact absurd (lt_extent (mem_of_find? hf)) hc

/-- An insert is the same in the slots as in the table. -/
theorem insert_slots (h : t.Fits) (cpu : UInt64) (e : CpuEntry) :
    Slots.insert t.slots cpu e = (t.insert cpu.toNat e).map slots := by
  by_cases hroom : cpu.toNat + 1 < 2 ^ 64
  · rw [Slots.insert, if_pos (Slots.lt_length_grow hroom), CpuTable.insert, if_pos (le_highest_iff.mpr hroom)]
    refine congrArg Except.ok (List.ext_getElem? fun i => ?_)
    rw [List.getElem?_set, getElem?_slots, extent_place, find?_place]
    by_cases hi : cpu.toNat = i
    · subst hi
      rw [if_pos rfl, if_pos (Slots.lt_length_grow hroom), if_pos (by omega), if_pos rfl]
    · rw [if_neg hi, Slots.getElem?_grow hroom, length_slots, if_neg (Ne.symm hi)]
      exact if_congr Iff.rfl (congrArg some (find?_slots t i)) rfl
  · rw [Slots.insert_highest (length_slots t ▸ h.extent_lt) hroom, CpuTable.insert, if_neg (mt le_highest_iff.mp hroom)]
    rfl

theorem entries_slots (h : Ascending t.entries) : Slots.entries t.slots = t.entries := by
  unfold Slots.entries
  simp only [length_slots, find?_slots]
  apply Ascending.eq_of_mem_iff _ h
  · intro p
    obtain ⟨c, e⟩ := p
    rw [h.mem_iff, List.mem_filterMap]
    constructor
    · intro hp
      obtain ⟨c', -, hfind⟩ := hp
      obtain ⟨e', hfind, heq⟩ := Option.map_eq_some_iff.mp hfind
      cases heq
      exact hfind
    · intro hfind
      refine ⟨c, List.mem_range.mpr (lt_extent (mem_of_find? hfind)), ?_⟩
      rw [hfind]
      rfl
  · apply List.pairwise_lt_range.filterMap
    intro a a' hlt p hp q hq
    obtain ⟨_, -, rfl⟩ := Option.map_eq_some_iff.mp hp
    obtain ⟨_, -, rfl⟩ := Option.map_eq_some_iff.mp hq
    exact hlt

theorem size_slots (h : Ascending t.entries) : Slots.size t.slots = t.size := by
  have hcount : Slots.size t.slots = (List.range t.extent).countP fun c => (t.find? c).isSome := List.countP_map ..
  have hlength : (Slots.entries t.slots).length = t.size := congrArg List.length (entries_slots h)
  rw [hcount, ← hlength, Slots.entries, List.length_filterMap_eq_countP, length_slots]
  simp only [find?_slots, Option.isSome_map]

end FirmwareMailbox.CpuTable
