/-
  FirmwareMailbox.Proofs.Processor.Gate — which answers of CPUID let a processor in.

  The vendor is the text of three registers. Every octet of its name is a character of its own, so no other
  registers read as it, and none that hold an ill-formed text (`vendor_ofCpuid`). Family and model are numbers made
  of the fields of the signature (`family_ofCpuid`, `model_ofCpuid`): the extended ones count if the base family is
  0xF, and without them the family is too low for the mailbox. So the gate is a matter of five fields of the four
  words, and who passes it falls into two classes by the narrowest width that its link may have
  (`requireMailbox_ofCpuid`).
-/

import FirmwareMailbox.Power.Setting
import FirmwareMailbox.Processor.Support
import FirmwareMailbox.Proofs.Register.Layout
import FirmwareMailbox.Proofs.Storage.Word
import FirmwareMailbox.Proofs.Text.Utf8

namespace FirmwareMailbox.Processor

/-- Bits `hi` to `lo` of a word. -/
def bits (hi lo : Nat) (w : UInt32) : Nat := w.toNat / 2 ^ lo % 2 ^ (hi + 1 - lo)

/-- The word that a register with this text holds, the first character in its lowest octet. -/
def word (text : String) : Nat := Storage.littleEndian (text.toList.flatMap String.utf8EncodeChar)

example : word "Auth" = 0x68747541 ∧ word "enti" = 0x69746E65 ∧ word "cAMD" = 0x444D4163 := by decide

/-- The registers of leaf 0 spell the vendor's name. -/
def SpellsAmd (ebx ecx edx : UInt32) : Prop :=
  ebx.toNat = word "Auth" ∧ edx.toNat = word "enti" ∧ ecx.toNat = word "cAMD"

/-- A signature of family 19h or later. -/
def IsLate (eax : UInt32) : Prop := bits 11 8 eax = 0xF ∧ 0xA ≤ bits 27 20 eax

/-- A signature of family 17h, models 30h to 3Fh. -/
def IsRome (eax : UInt32) : Prop := bits 11 8 eax = 0xF ∧ bits 27 20 eax = 8 ∧ bits 19 16 eax = 3

variable (eax ebx ecx edx : UInt32)

/-! ## The vendor -/

theorem vendor_eq_amd_iff : (ofCpuid eax ebx ecx edx).vendor = .amd ↔
    Vendor.octets ebx ++ Vendor.octets edx ++ Vendor.octets ecx =
      "AuthenticAMD".toList.flatMap String.utf8EncodeChar := by
  have hplain : Text.Utf8.replacement ∉ "AuthenticAMD".toList := by decide
  rw [← Text.Utf8.decodeLossy_eq_iff hplain]
  show Vendor.ofName (Vendor.nameOfRegisters ebx ecx edx) = .amd ↔ Vendor.nameOfRegisters ebx ecx edx = _
  rw [Vendor.ofName]
  split_ifs with hamd hintel
  · exact iff_of_true rfl hamd
  · exact iff_of_false (by decide) hamd
  · exact iff_of_false (by decide) hamd

/-- A register holds a text of four octets if it holds their word. -/
theorem octets_eq_iff (w : UInt32) {text : String} (h : (text.toList.flatMap String.utf8EncodeChar).length = 4) :
    Vendor.octets w = text.toList.flatMap String.utf8EncodeChar ↔ w.toNat = word text := by
  rw [word, eq_comm (a := w.toNat)]
  generalize text.toList.flatMap String.utf8EncodeChar = bytes at h ⊢
  match bytes with
  | [a, b, c, d] => exact Storage.octetsOf_eq_iff

theorem vendor_ofCpuid : (ofCpuid eax ebx ecx edx).vendor = .amd ↔ SpellsAmd ebx ecx edx := by
  have hname : "AuthenticAMD".toList.flatMap String.utf8EncodeChar =
      "Auth".toList.flatMap String.utf8EncodeChar ++ "enti".toList.flatMap String.utf8EncodeChar ++
        "cAMD".toList.flatMap String.utf8EncodeChar := by decide
  have hlen : (Vendor.octets ebx ++ Vendor.octets edx).length =
      ("Auth".toList.flatMap String.utf8EncodeChar ++ "enti".toList.flatMap String.utf8EncodeChar).length := rfl
  have hlen' : (Vendor.octets ebx).length = ("Auth".toList.flatMap String.utf8EncodeChar).length := rfl
  rw [vendor_eq_amd_iff, hname, List.append_eq_append_iff_of_size_eq_left hlen,
    List.append_eq_append_iff_of_size_eq_left hlen', octets_eq_iff ebx rfl, octets_eq_iff edx rfl, octets_eq_iff ecx rfl, SpellsAmd, and_assoc]

/-! ## Family and model -/

/-- A field that is shifted to the end of its word and cut off there. -/
theorem toNat_shiftRight_and {w k mask : UInt32} {n : Nat} (hk : k.toNat < 32) (hmask : mask.toNat = 2 ^ n - 1) :
    ((w >>> k) &&& mask).toNat = w.toNat / 2 ^ k.toNat % 2 ^ n := by
  rw [UInt32.toNat_and, hmask, Nat.and_two_pow_sub_one_eq_mod, UInt32.toNat_shiftRight, Nat.mod_eq_of_lt hk,
    Nat.shiftRight_eq_div_pow]

theorem toNat_baseModel : ((eax >>> 4) &&& 0xF).toNat = bits 7 4 eax := toNat_shiftRight_and (by decide) rfl

theorem toNat_baseFamily : ((eax >>> 8) &&& 0xF).toNat = bits 11 8 eax := toNat_shiftRight_and (by decide) rfl

theorem toNat_extendedModel : ((eax >>> 16) &&& 0xF).toNat = bits 19 16 eax := toNat_shiftRight_and (by decide) rfl

theorem toNat_extendedFamily : ((eax >>> 20) &&& 0xFF).toNat = bits 27 20 eax :=
  toNat_shiftRight_and (by decide) rfl

theorem bits_lt (hi lo : Nat) (w : UInt32) : bits hi lo w < 2 ^ (hi + 1 - lo) := Nat.mod_lt _ (Nat.two_pow_pos _)

theorem family_ofCpuid : (ofCpuid eax ebx ecx edx).family.toNat =
    if bits 11 8 eax = 0xF then 0xF + bits 27 20 eax else bits 11 8 eax := by
  have hext := bits_lt 27 20 eax
  show (signature eax).1.toNat = _
  simp only [signature, ← UInt32.toNat_inj, toNat_baseFamily, UInt32.reduceToNat]
  split_ifs with hbase
  · rw [UInt32.toNat_add, toNat_baseFamily, toNat_extendedFamily, hbase]
    omega
  · exact toNat_baseFamily eax

theorem model_ofCpuid : (ofCpuid eax ebx ecx edx).model.toNat =
    if bits 11 8 eax = 0xF then 16 * bits 19 16 eax + bits 7 4 eax else bits 7 4 eax := by
  show (signature eax).2.1.toNat = _
  simp only [signature, ← UInt32.toNat_inj, toNat_baseFamily, UInt32.reduceToNat]
  split_ifs with hbase
  · have hlow : ((eax >>> 4) &&& 0xF).toNat < 2 ^ 4 := toNat_baseModel eax ▸ bits_lt 7 4 eax
    have hhigh : ((eax >>> 16) &&& 0xF).toNat < 2 ^ 4 := toNat_extendedModel eax ▸ bits_lt 19 16 eax
    rw [UInt32.or_comm, Layout.toNat_or_shiftLeft (k := 4) hlow hhigh (by decide) (by decide), toNat_baseModel,
      toNat_extendedModel, Nat.add_comm]
    rfl
  · exact toNat_baseModel eax

/-! ## The gate -/

theorem late_ofCpuid : (ofCpuid eax ebx ecx edx).alwaysHasMailbox = true ↔ SpellsAmd ebx ecx edx ∧ IsLate eax := by
  have hbase := bits_lt 11 8 eax
  have hfamily := family_ofCpuid eax ebx ecx edx
  rw [alwaysHasMailbox, Bool.and_eq_true, decide_eq_true_eq, decide_eq_true_eq, vendor_ofCpuid, IsLate, ge_iff_le,
    UInt32.le_iff_toNat_le, hfamily]
  simp only [UInt32.reduceToNat]
  refine and_congr_right fun _ => ?_
  split_ifs with hF <;> omega

theorem rome_ofCpuid : ((ofCpuid eax ebx ecx edx).family = 0x17 ∧ 0x30 ≤ (ofCpuid eax ebx ecx edx).model ∧
    (ofCpuid eax ebx ecx edx).model ≤ 0x3F) ↔ IsRome eax := by
  have hbase := bits_lt 11 8 eax
  have hlow := bits_lt 7 4 eax
  have hfamily := family_ofCpuid eax ebx ecx edx
  have hmodel := model_ofCpuid eax ebx ecx edx
  rw [IsRome, ← UInt32.toNat_inj, UInt32.le_iff_toNat_le, UInt32.le_iff_toNat_le, hfamily, hmodel]
  simp only [UInt32.reduceToNat]
  split_ifs with hF <;> omega

/-- Every way through the gate. -/
theorem gate_cases : let p := ofCpuid eax ebx ecx edx
    (SpellsAmd ebx ecx edx ∧ IsLate eax ∧ p.requireMailbox = .ok () ∧ LinkWidth.floor p = .x2) ∨
    (SpellsAmd ebx ecx edx ∧ IsRome eax ∧ ¬ IsLate eax ∧ p.requireMailbox = .ok () ∧ LinkWidth.floor p = .x8) ∨
    (¬ (SpellsAmd ebx ecx edx ∧ (IsLate eax ∨ IsRome eax)) ∧ ∃ why, p.requireMailbox = .error (.unsupported why)) := by
  intro p
  have hvendor : p.vendor = .amd ↔ SpellsAmd ebx ecx edx := vendor_ofCpuid eax ebx ecx edx
  have hlate : p.alwaysHasMailbox = true ↔ SpellsAmd ebx ecx edx ∧ IsLate eax := late_ofCpuid eax ebx ecx edx
  have hrome : (p.family = 0x17 ∧ 0x30 ≤ p.model ∧ p.model ≤ 0x3F) ↔ IsRome eax := rome_ofCpuid eax ebx ecx edx
  rw [requireMailbox, LinkWidth.floor]
  by_cases hv : p.vendor = .amd
  · rw [if_neg (not_not_intro hv)]
    have hspells := hvendor.mp hv
    by_cases hl : p.alwaysHasMailbox = true
    · rw [if_pos hl, if_pos hl]
      exact Or.inl ⟨hspells, (hlate.mp hl).2, rfl, rfl⟩
    · have hnot : ¬ IsLate eax := fun h => hl (hlate.mpr ⟨hspells, h⟩)
      rw [if_neg hl, if_neg hl]
      by_cases hr : p.family = 0x17 ∧ 0x30 ≤ p.model ∧ p.model ≤ 0x3F
      · rw [if_pos hr]
        exact Or.inr (Or.inl ⟨hspells, hrome.mp hr, hnot, rfl, rfl⟩)
      · rw [if_neg hr]
        exact Or.inr (Or.inr ⟨fun h => h.2.elim hnot fun h => hr (hrome.mpr h), _, rfl⟩)
  · rw [if_pos hv]
    exact Or.inr (Or.inr ⟨fun h => hv (hvendor.mpr h.1), _, rfl⟩)

/-- How processor `p` is judged that answers these words. -/
structure Judged (p : Processor) (eax ebx ecx edx : UInt32) : Prop where
  vendor : p.vendor = .amd ↔ SpellsAmd ebx ecx edx
  /-- A strict reader of the registers finds the vendor in the same ones. -/
  strict : p.vendor = .amd ↔ Text.Utf8.decode? (Vendor.octets ebx ++ Vendor.octets edx ++ Vendor.octets ecx) =
    some "AuthenticAMD".toList
  passes : p.requireMailbox = .ok () ↔ SpellsAmd ebx ecx edx ∧ (IsLate eax ∨ IsRome eax)
  late : p.requireMailbox = .ok () ∧ LinkWidth.floor p = .x2 ↔ SpellsAmd ebx ecx edx ∧ IsLate eax
  rome : p.requireMailbox = .ok () ∧ LinkWidth.floor p = .x8 ↔ SpellsAmd ebx ecx edx ∧ IsRome eax
  refused : (∃ why, p.requireMailbox = .error (.unsupported why)) ↔
    ¬ (SpellsAmd ebx ecx edx ∧ (IsLate eax ∨ IsRome eax))

theorem requireMailbox_ofCpuid (eax ebx ecx edx : UInt32) :
    Judged (ofCpuid eax ebx ecx edx) eax ebx ecx edx := by
  have hvendor := vendor_ofCpuid eax ebx ecx edx
  have hstrict := (vendor_eq_amd_iff eax ebx ecx edx).trans Text.Utf8.decode?_eq_some_iff.symm
  have hexcl : IsLate eax → ¬ IsRome eax := by
    simp only [IsLate, IsRome]
    omega
  obtain ⟨hs, hl, hok, hfloor⟩ | ⟨hs, hr, hl, hok, hfloor⟩ | ⟨hnot, why, herr⟩ := gate_cases eax ebx ecx edx
  · have hr := hexcl hl
    exact ⟨hvendor, hstrict, by simp [hs, hl, hok], by simp [hs, hl, hok, hfloor], by simp [hr, hok, hfloor],
      by simp [hs, hl, hok]⟩
  · exact ⟨hvendor, hstrict, by simp [hs, hr, hok], by simp [hl, hok, hfloor], by simp [hs, hr, hok, hfloor],
      by simp [hs, hr, hok]⟩
  · have hl : ¬ (SpellsAmd ebx ecx edx ∧ IsLate eax) := fun h => hnot ⟨h.1, Or.inl h.2⟩
    have hr : ¬ (SpellsAmd ebx ecx edx ∧ IsRome eax) := fun h => hnot ⟨h.1, Or.inr h.2⟩
    exact ⟨hvendor, hstrict, by simp [herr, hnot], by simp [herr, hl], by simp [herr, hr], by simp [herr, hnot]⟩

end FirmwareMailbox.Processor
