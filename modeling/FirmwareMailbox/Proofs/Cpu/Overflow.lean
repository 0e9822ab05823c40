/-
  FirmwareMailbox.Proofs.Cpu.Overflow — the one number that no table has room for.

  A table is built by reading texts and by inserts (`Built`), and every number in it has a place in its slots.
  The length that an insert asks for is one more than the number. It is a word of its own for every number but
  the highest, for which the sum is 0: the slots are cut off and the write is out of bounds.

  So a text has one more outcome than a table and a refusal, and it is the texts whose first stanza that stops
  the reading is a sound one, of the CPU with the highest number, that have it (`parse_ends`).
-/

import FirmwareMailbox.Proofs.Cpu.Stanzas

namespace FirmwareMailbox.CpuInfo

open Text

/-- The tables that texts and inserts lead to. -/
inductive Built : CpuTable → Prop
  | empty : Built CpuTable.empty
  | parsed {text : List Char} {t : CpuTable} : parse text = .ok t → Built t
  | inserted {t t' : CpuTable} {cpu : Nat} {e : CpuEntry} : Built t → t.insert cpu e = .ok t' → Built t'

/-- The first stanza of the text that stops the reading is sound, and has the CPU with the highest number. -/
def Overflows (text : List Char) : Prop :=
  ∃ before stanza after, stanzas text = before ++ stanza :: after ∧
    (∀ earlier ∈ before, ¬ Faulty (lines earlier) ∧ ∀ e, ¬ Records (lines earlier) (max64, e)) ∧
    ¬ Faulty (lines stanza) ∧ ∃ e, Records (lines stanza) (max64, e)

variable {t t' : CpuTable} {text : List Char}

theorem fits_insert {cpu : Nat} {e : CpuEntry} (h : t.Fits) (hinsert : t.insert cpu e = .ok t') : t'.Fits := by
  unfold CpuTable.insert at hinsert
  by_cases hcpu : cpu ≤ CpuTable.highest
  · rw [if_pos hcpu] at hinsert
    cases hinsert
    exact h.place hcpu
  · rw [if_neg hcpu] at hinsert
    cases hinsert

theorem fits_addStanza {stanza : List Char} (h : t.Fits) (hadd : addStanza t stanza = .ok t') : t'.Fits := by
  unfold addStanza at hadd
  cases hs : Stanza.ofText stanza with
  | error e =>
    rw [hs] at hadd
    cases hadd
  | ok s =>
    rw [hs] at hadd
    change s.addTo t = .ok t' at hadd
    unfold Stanza.addTo at hadd
    split at hadd
    · cases hadd
      exact h
    · exact fits_insert h hadd
    · cases hadd

theorem fits_foldlM {ps : List (List Char)} (h : t.Fits) (hps : ps.foldlM addStanza t = .ok t') : t'.Fits := by
  induction ps generalizing t with
  | nil =>
    cases hps
    exact h
  | cons p ps ih =>
    rw [List.foldlM_cons] at hps
    cases hp : addStanza t p with
    | error e =>
      rw [hp] at hps
      cases hps
    | ok next =>
      rw [hp] at hps
      exact ih (fits_addStanza h hp) hps

theorem Built.fits (h : Built t) : t.Fits := by
  have hempty : CpuTable.empty.Fits := fun p hp => absurd hp List.not_mem_nil
  induction h with
  | empty => exact hempty
  | parsed hparse => exact fits_foldlM hempty hparse
  | inserted _ hinsert ih => exact fits_insert ih hinsert

theorem parse_outOfBounds_iff : parse text = .error (.outOfBounds max64) ↔ Overflows text := by
  rw [parse_eq_error]
  constructor
  · intro h
    obtain ⟨before, stanza, after, htext, hfault, hbefore⟩ := h
    refine ⟨before, stanza, after, htext, fun p hp => fault?_eq_none.mp (hbefore p hp), ?_⟩
    rcases fault?_eq_some hfault with ⟨-, cause, hcause⟩ | ⟨hgood, hrecords, -⟩
    · cases hcause
    · exact ⟨hgood, hrecords⟩
  · intro h
    obtain ⟨before, stanza, after, htext, hbefore, hgood, e, hrecords⟩ := h
    refine ⟨before, stanza, after, htext, ?_, fun p hp => fault?_eq_none.mpr (hbefore p hp)⟩
    cases hfault : fault? stanza with
    | none => exact absurd hrecords ((fault?_eq_none.mp hfault).2 e)
    | some error =>
      rcases fault?_eq_some hfault with ⟨hfaulty, -⟩ | ⟨-, -, rfl⟩
      · exact absurd hfaulty hgood
      · rfl

theorem parse_cases (text : List Char) : (∃ t, parse text = .ok t) ∨ (∃ cause, parse text = .error (.parse cause)) ∨
    parse text = .error (.outOfBounds max64) := by
  cases hparse : parse text with
  | ok t => exact .inl ⟨t, rfl⟩
  | error e =>
    obtain ⟨before, stanza, after, -, hfault, -⟩ := parse_eq_error.mp hparse
    rcases fault?_eq_some hfault with ⟨-, cause, rfl⟩ | ⟨-, -, rfl⟩
    · exact .inr (.inl ⟨cause, rfl⟩)
    · exact .inr (.inr rfl)

/-- The reading of a text ends with a table, a refusal, or a write that is out of bounds, and with the last
    exactly if the text has a CPU with the highest number before anything that is refused. An insert into a
    table is the insert into its slots. For every number but the highest the length that it asks for does not
    overflow and it succeeds; for the highest the length is 0, no slots are left, and it is out of bounds. -/
theorem parse_ends (text : List Char) :
    ((∃ t, parse text = .ok t) ∨ (∃ cause, parse text = .error (.parse cause)) ∨
      parse text = .error (.outOfBounds max64)) ∧
    (parse text = .error (.outOfBounds max64) ↔ Overflows text) ∧
    ∀ t, Built t → ∀ (cpu : UInt64) (e : CpuEntry),
      CpuTable.Slots.insert t.slots cpu e = (t.insert cpu.toNat e).map CpuTable.slots ∧
      (cpu.toNat < max64 → (cpu + 1).toNat = cpu.toNat + 1 ∧
        cpu.toNat < (CpuTable.Slots.grow t.slots cpu).length ∧ ∃ t', t.insert cpu.toNat e = .ok t') ∧
      (cpu.toNat = max64 → (cpu + 1).toNat = 0 ∧ CpuTable.Slots.grow t.slots cpu = [] ∧
        t.insert cpu.toNat e = .error (.outOfBounds max64)) := by
  refine ⟨parse_cases text, parse_outOfBounds_iff, fun t ht cpu e => ⟨CpuTable.insert_slots ht.fits cpu e, ?_, ?_⟩⟩
  · intro hlow
    have hle := CpuTable.lt_max64_iff.mp hlow
    have hroom := CpuTable.le_highest_iff.mp hle
    refine ⟨?_, CpuTable.Slots.lt_length_grow hroom, _, if_pos hle⟩
    rw [CpuTable.Slots.toNat_succ, if_pos hroom]
  · intro hhigh
    have hgt : ¬ cpu.toNat ≤ CpuTable.highest := mt CpuTable.lt_max64_iff.mpr (by omega)
    have hover := mt CpuTable.le_highest_iff.mpr hgt
    have hlength : t.slots.length < 2 ^ 64 := CpuTable.length_slots t ▸ ht.fits.extent_lt
    refine ⟨?_, CpuTable.Slots.grow_highest hlength hover, ?_⟩
    · rw [CpuTable.Slots.toNat_succ, if_neg hover]
    · rw [CpuTable.insert, if_neg hgt, hhigh]

/-- A number with room, and the highest, in the table of an empty text. -/
theorem parse_ends_empty : Built CpuTable.empty ∧ (5 : UInt64).toNat < max64 ∧
    (∃ t, CpuTable.empty.insert 5 ⟨0, 0⟩ = .ok t) ∧ (UInt64.ofNat max64).toNat = max64 ∧
    CpuTable.empty.insert max64 ⟨0, 0⟩ = .error (.outOfBounds max64) := by
  have hlow : (5 : UInt64).toNat < max64 := by decide
  have hhigh : (UInt64.ofNat max64).toNat = max64 := by decide
  obtain ⟨-, -, hinsert⟩ := parse_ends []
  have hroom := (hinsert CpuTable.empty .empty 5 ⟨0, 0⟩).2.1 hlow
  have hover := (hinsert CpuTable.empty .empty (UInt64.ofNat max64) ⟨0, 0⟩).2.2 hhigh
  exact ⟨.empty, hlow, hroom.2.2, hhigh, hover.2.2⟩

/-- A stanza as any other, but for the number of its CPU. -/
theorem parse_highest :
    parse "processor: 18446744073709551615\nphysical id: 0\napicid: 0\n".toList =
        .error (.outOfBounds 18446744073709551615) ∧
      ¬ ∀ text, (∃ t, parse text = .ok t) ∨ ∃ cause, parse text = .error (.parse cause) := by
  have hparse : parse "processor: 18446744073709551615\nphysical id: 0\napicid: 0\n".toList =
      .error (.outOfBounds 18446744073709551615) := by decide
  refine ⟨hparse, fun hall => ?_⟩
  have hends := hall "processor: 18446744073709551615\nphysical id: 0\napicid: 0\n".toList
  rw [hparse] at hends
  simp at hends

end FirmwareMailbox.CpuInfo
