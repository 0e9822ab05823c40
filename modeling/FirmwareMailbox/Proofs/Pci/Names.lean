/-
  FirmwareMailbox.Proofs.Pci.Names — the names of a device's file, written and read.

  What is read as a bus directory or as a slot is said without the reader (`SpellsBus`, `SpellsSlot`), and the
  reader accepts these names and no others. The names that are written for an address are among them and spell
  that address. They are the last two of its file's path, so a path below a root is the file of one address
  only (`names_round_trip`).
-/

import FirmwareMailbox.Pci.Address
import FirmwareMailbox.Proofs.Text.Numeral
import FirmwareMailbox.Proofs.Text.Split

namespace FirmwareMailbox.PciAddress

open Text
open Storage (names names_joinPath)

/-- The names of a bus directory: the bus alone, which is in domain 0, or the domain, a colon and the bus. -/
inductive SpellsBus : List Char → UInt32 → UInt8 → Prop
  | alone {name : List Char} {bus : UInt8} : ':' ∉ name → Numeral 16 max8 name bus.toNat → SpellsBus name 0 bus
  | within {before after : List Char} {domain : UInt32} {bus : UInt8} : ':' ∉ before →
      Numeral 16 max32 before domain.toNat → Numeral 16 max8 after bus.toNat →
      SpellsBus (before ++ ':' :: after) domain bus

/-- The names of a device's file: the device, a dot and the function. -/
inductive SpellsSlot : List Char → UInt8 → UInt8 → Prop
  | slot {before after : List Char} {device function : UInt8} : '.' ∉ before →
      Numeral 16 max8 before device.toNat → Numeral 16 max8 after function.toNat →
      SpellsSlot (before ++ '.' :: after) device function

variable {name : List Char} {domain : UInt32} {bus device function : UInt8}

/-! ## Reading -/

theorem readByte?_eq_some {cs : List Char} {b : UInt8} : readByte? cs = some b ↔ Numeral 16 max8 cs b.toNat := by
  unfold readByte?
  rw [Option.map_eq_some_iff]
  constructor
  · rintro ⟨n, hn, rfl⟩
    have hnum := readNumber?_eq_some.mp hn
    rwa [UInt8.toNat_ofNat_of_lt' (Nat.lt_succ_of_le hnum.1)]
  · exact fun h => ⟨b.toNat, readNumber?_eq_some.mpr h, UInt8.ofNat_toNat⟩

theorem readBusDirectory?_eq_some : readBusDirectory? name = some (domain, bus) ↔ SpellsBus name domain bus := by
  unfold readBusDirectory?
  constructor
  · intro h
    cases hs : splitOnce ':' name with
    | none =>
      simp only [hs, Option.map_eq_some_iff, Prod.mk.injEq, readByte?_eq_some] at h
      obtain ⟨b, hb, rfl, rfl⟩ := h
      exact .alone (splitOnce_eq_none.mp hs) hb
    | some parts =>
      obtain ⟨before, after⟩ := parts
      obtain ⟨rfl, hcolon⟩ := splitOnce_eq_some.mp hs
      simp only [hs, bind, Option.bind_eq_some_iff, pure, Option.some.injEq, Prod.mk.injEq, readByte?_eq_some,
        readNumber?_eq_some] at h
      obtain ⟨n, hn, b, hb, rfl, rfl⟩ := h
      refine .within hcolon ?_ hb
      rwa [UInt32.toNat_ofNat_of_lt' (Nat.lt_succ_of_le hn.1)]
  · intro h
    cases h with
    | alone hcolon hb => rw [splitOnce_eq_none.mpr hcolon, readByte?_eq_some.mpr hb, Option.map_some]
    | @within before after _ _ hcolon hn hb =>
      rw [splitOnce_eq_some.mpr ⟨rfl, hcolon⟩]
      simp only [readNumber?_eq_some.mpr hn, readByte?_eq_some.mpr hb, bind, Option.bind_some, pure,
        UInt32.ofNat_toNat]

example : readBusDirectory? "+0:0fF".toList = some (0, 0xFF) := by decide

theorem readSlot?_eq_some : readSlot? name = some (device, function) ↔ SpellsSlot name device function := by
  simp only [readSlot?, bind, Option.bind_eq_some_iff, pure, Option.some.injEq, Prod.mk.injEq, Prod.exists,
    splitOnce_eq_some, readByte?_eq_some]
  constructor
  · rintro ⟨before, after, ⟨rfl, hdot⟩, d, hd, f, hf, rfl, rfl⟩
    exact .slot hdot hd hf
  · rintro ⟨hdot, hd, hf⟩
    exact ⟨_, _, ⟨rfl, hdot⟩, _, hd, _, hf, rfl, rfl⟩

/-! ## Writing -/

variable (a : PciAddress)

theorem numeral_domain : Numeral 16 max32 (hexDigits 4 a.domain.toNat) a.domain.toNat :=
  numeral_hexDigits 4 (Nat.le_of_lt_succ a.domain.toNat_lt)

theorem numeral_byte (width : Nat) (b : UInt8) : Numeral 16 max8 (hexDigits width b.toNat) b.toNat :=
  numeral_hexDigits width (Nat.le_of_lt_succ b.toNat_lt)

theorem toList_busDirectory : a.busDirectory.toList =
    if a.domain > 0 then hexDigits 4 a.domain.toNat ++ ':' :: hexDigits 2 a.bus.toNat
    else hexDigits 2 a.bus.toNat := by
  unfold busDirectory
  split <;> simp [hexLower]

theorem toList_slotName : a.slotName.toList =
    hexDigits 2 a.device.toNat ++ '.' :: hexDigits 1 a.function.toNat := by
  simp [slotName, hexLower]

theorem spells_busDirectory : SpellsBus a.busDirectory.toList a.domain a.bus := by
  rw [toList_busDirectory]
  split
  · exact .within (a.numeral_domain.not_mem (by decide) (by decide)) a.numeral_domain (numeral_byte 2 a.bus)
  · rename_i h
    have hzero : a.domain = 0 :=
      UInt32.toNat_inj.mp (Nat.eq_zero_of_not_pos fun hpos => h (UInt32.lt_iff_toNat_lt.mpr hpos))
    rw [hzero]
    exact .alone ((numeral_byte 2 a.bus).not_mem (by decide) (by decide)) (numeral_byte 2 a.bus)

theorem spells_slotName : SpellsSlot a.slotName.toList a.device a.function := by
  rw [toList_slotName]
  exact .slot ((numeral_byte 2 a.device).not_mem (by decide) (by decide)) (numeral_byte 2 a.device)
    (numeral_byte 1 a.function)

theorem slash_not_mem_busDirectory : '/' ∉ a.busDirectory.toList := by
  have hbus : '/' ∉ hexDigits 2 a.bus.toNat := (numeral_byte 2 a.bus).not_mem (by decide) (by decide)
  have hdomain : '/' ∉ hexDigits 4 a.domain.toNat := a.numeral_domain.not_mem (by decide) (by decide)
  rw [toList_busDirectory]
  split
  · simp [hbus, hdomain]
  · exact hbus

theorem slash_not_mem_slotName : '/' ∉ a.slotName.toList := by
  have hdevice : '/' ∉ hexDigits 2 a.device.toNat := (numeral_byte 2 a.device).not_mem (by decide) (by decide)
  have hfunction : '/' ∉ hexDigits 1 a.function.toNat := (numeral_byte 1 a.function).not_mem (by decide) (by decide)
  rw [toList_slotName]
  simp [hdevice, hfunction]

theorem readBusDirectory?_busDirectory :
    readBusDirectory? a.busDirectory.toList = some (a.domain, a.bus) :=
  readBusDirectory?_eq_some.mpr a.spells_busDirectory

theorem readSlot?_slotName : readSlot? a.slotName.toList = some (a.device, a.function) :=
  readSlot?_eq_some.mpr a.spells_slotName

/-- The file is in the bus directory below the root. -/
theorem names_filePath (root : String) : names (a.filePath root) = names root ++ [a.busDirectory, a.slotName] := by
  have hbus : a.busDirectory ≠ "" := by
    intro h
    have hread := a.readBusDirectory?_busDirectory
    rw [h] at hread
    cases hread
  have hslot : a.slotName ≠ "" := by
    intro h
    have hread := a.readSlot?_slotName
    rw [h] at hread
    cases hread
  rw [filePath, names_joinPath a.slash_not_mem_slotName hslot, names_joinPath a.slash_not_mem_busDirectory hbus,
    List.append_assoc, List.singleton_append]

/-- The last two names of the path of an address's file spell the address, so the path is that of no other
    address; and the spellings of an address are all that is read as one. -/
theorem names_round_trip :
    (∀ (root : String) (a : PciAddress),
      names (a.filePath root) = names root ++ [a.busDirectory, a.slotName] ∧
      readBusDirectory? a.busDirectory.toList = some (a.domain, a.bus) ∧
      readSlot? a.slotName.toList = some (a.device, a.function)) ∧
    (∀ root : String, Function.Injective fun a : PciAddress => a.filePath root) ∧
    (∀ (name : List Char) (domain : UInt32) (bus : UInt8),
      readBusDirectory? name = some (domain, bus) ↔ SpellsBus name domain bus) ∧
    (∀ (name : List Char) (device function : UInt8),
      readSlot? name = some (device, function) ↔ SpellsSlot name device function) := by
  have hback : ∀ (root : String) (a : PciAddress),
      names (a.filePath root) = names root ++ [a.busDirectory, a.slotName] ∧
      readBusDirectory? a.busDirectory.toList = some (a.domain, a.bus) ∧
      readSlot? a.slotName.toList = some (a.device, a.function) := fun root a =>
    ⟨a.names_filePath root, a.readBusDirectory?_busDirectory, a.readSlot?_slotName⟩
  refine ⟨hback, ?_, fun _ _ _ => readBusDirectory?_eq_some, fun _ _ _ => readSlot?_eq_some⟩
  intro root a b hpath
  have hnames := congrArg names hpath
  simp only [names_filePath, List.append_cancel_left_eq, List.cons.injEq, and_true] at hnames
  obtain ⟨hbus, hslot⟩ := hnames
  have hread := a.readBusDirectory?_busDirectory
  rw [hbus, readBusDirectory?_busDirectory, Option.some.injEq, Prod.mk.injEq] at hread
  have hread' := a.readSlot?_slotName
  rw [hslot, readSlot?_slotName, Option.some.injEq, Prod.mk.injEq] at hread'
  cases a
  cases b
  simp only [PciAddress.mk.injEq]
  exact ⟨hread.1.symm, hread.2.symm, hread'.1.symm, hread'.2.symm⟩

end FirmwareMailbox.PciAddress
