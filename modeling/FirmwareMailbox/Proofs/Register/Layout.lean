/-
  FirmwareMailbox.Proofs.Register.Layout — what a layout packs, it reads again.

  A layout cuts a word into fields from bit 0 on, without a gap between them. On numbers that is `split`, and
  `join` puts the fields together again: each field keeps what goes into its width, and nothing above the last
  field comes back (`split_join`, `join_split`). A layout that packs as `join` does and reads as `split` does
  (`Packs`) loses nothing, whatever its fields are (`Packs.lossless`); so what is left to see of each of the
  layouts is which fields it has and in which order they stand.

  Only the bandwidth has fields wider than their bits. What its check accepts is what goes into them.
-/

import FirmwareMailbox.Proofs.Storage.Word
import FirmwareMailbox.Register.Layout

namespace FirmwareMailbox.Layout

/-! ## Fields of a number -/

/-- The number with fields of these widths and values, the lowest first. -/
def join : List Nat → List Nat → Nat
  | n :: ns, v :: vs => v % 2 ^ n + 2 ^ n * join ns vs
  | _, _ => 0

/-- The fields of these widths, the lowest first. -/
def split : List Nat → Nat → List Nat
  | [], _ => []
  | n :: ns, w => w % 2 ^ n :: split ns (w / 2 ^ n)

/-- As much of each value as its field holds. -/
def cut (widths values : List Nat) : List Nat := List.zipWith (fun n v => v % 2 ^ n) widths values

variable {ns vs : List Nat}

theorem join_split (ns : List Nat) (w : Nat) : join ns (split ns w) = w % 2 ^ ns.sum := by
  induction ns generalizing w with
  | nil => simp [join, Nat.mod_one]
  | cons n ns ih => rw [split, join, ih, Nat.mod_mod, List.sum_cons, Nat.pow_add, Nat.mod_mul]

theorem split_join (h : vs.length = ns.length) : split ns (join ns vs) = cut ns vs := by
  induction ns generalizing vs with
  | nil => simp [split, cut]
  | cons n ns ih =>
    cases vs with
    | nil => cases h
    | cons v vs =>
      have hn : 0 < 2 ^ n := Nat.two_pow_pos n
      have hlow : (v % 2 ^ n + 2 ^ n * join ns vs) % 2 ^ n = v % 2 ^ n := by
        rw [Nat.add_mul_mod_self_left, Nat.mod_mod]
      have hhigh : (v % 2 ^ n + 2 ^ n * join ns vs) / 2 ^ n = join ns vs := by
        rw [Nat.add_mul_div_left _ _ hn, Nat.div_eq_of_lt (Nat.mod_lt v hn), Nat.zero_add]
      rw [join, split, hlow, hhigh, ih (Nat.succ.inj h)]
      rfl

/-- What is read out of a field goes into it. -/
theorem cut_split (ns : List Nat) (w : Nat) : cut ns (split ns w) = split ns w := by
  induction ns generalizing w with
  | nil => rfl
  | cons n ns ih =>
    show (w % 2 ^ n % 2 ^ n) :: cut ns (split ns (w / 2 ^ n)) = _
    rw [ih, Nat.mod_mod, split]

/-- A field stands above those before it. -/
theorem getElem?_split (ns : List Nat) (w i : Nat) :
    (split ns w)[i]? = ns[i]?.map fun n => w / 2 ^ (ns.take i).sum % 2 ^ n := by
  induction ns generalizing w i with
  | nil => simp [split]
  | cons n ns ih =>
    cases i with
    | zero => simp [split]
    | succ i => simp [split, ih, Nat.div_div_eq_div_mul, Nat.pow_add]

/-! ## Layouts that pack fields -/

/-- The fields of the layout, the lowest first, are packed one above the other. -/
structure Packs (α : Type) [Layout α] (widths : List Nat) (fields : α → List Nat) : Prop where
  length : ∀ a, (fields a).length = widths.length
  inj : ∀ a b, fields a = fields b → a = b
  encode : ∀ a, (Layout.encode a).toNat = join widths (fields a)
  decode : ∀ w, fields (Layout.decode w) = split widths w.toNat

/-- The layout reads what it packed, for the fields it can pack and for no others, and packs what it read, but
    for the bits outside of its mask. -/
structure Lossless (α : Type) [Layout α] (mask : UInt32) (widths : List Nat) (fields : α → List Nat)
    (Valid : α → Prop) : Prop where
  decode_encode : ∀ a : α, Layout.decode (Layout.encode a) = a ↔ Valid a
  encode_decode : ∀ w, Layout.encode (Layout.decode w : α) = w &&& mask
  valid : ∀ w, Valid (Layout.decode w : α)
  /-- Each field has bits of its own, above those of the fields before it, whatever the other fields are. -/
  apart : ∀ (a : α) i n v, widths[i]? = some n → (fields a)[i]? = some v →
    (Layout.encode a).toNat / 2 ^ (widths.take i).sum % 2 ^ n = v % 2 ^ n
  injective : ∀ a b : α, Valid a → Valid b → Layout.encode a = Layout.encode b → a = b

theorem Packs.lossless {α : Type} [Layout α] {mask : UInt32} {widths : List Nat} {fields : α → List Nat}
    {Valid : α → Prop} (h : Packs α widths fields) (hmask : mask.toNat = 2 ^ widths.sum - 1)
    (hvalid : ∀ a, Valid a ↔ cut widths (fields a) = fields a) : Lossless α mask widths fields Valid := by
  have hfields : ∀ a, fields (Layout.decode (Layout.encode a)) = cut widths (fields a) := fun a => by
    rw [h.decode, h.encode, split_join (h.length a)]
  have hmod : ∀ w, (Layout.encode (Layout.decode w : α)).toNat = w.toNat % 2 ^ widths.sum := fun w => by
    rw [h.encode, h.decode, join_split]
  have hkept : ∀ a : α, Layout.decode (Layout.encode a) = a ↔ Valid a := fun a => by
    rw [hvalid, ← hfields]
    exact ⟨congrArg fields, h.inj _ _⟩
  refine ⟨hkept, fun w => ?_, fun w => ?_, fun a i n v hn hv => ?_, fun a b ha hb hab => ?_⟩
  · apply UInt32.toNat_inj.mp
    rw [hmod, UInt32.toNat_and, hmask, Nat.and_two_pow_sub_one_eq_mod]
  · rw [hvalid, h.decode, cut_split]
  · have hi := getElem?_split widths (Layout.encode a).toNat i
    rw [h.encode, split_join (h.length a), hn, ← h.encode] at hi
    simp only [cut, List.getElem?_zipWith, hn, hv, Option.map_some, Option.some.injEq] at hi
    exact hi.symm
  · rw [← (hkept a).mpr ha, hab, (hkept b).mpr hb]

/-! ## The layouts -/

section

variable {lo mid hi k l : UInt32} {n m : Nat}

/-- Bits above those of the lower word are added to it. -/
theorem toNat_or_shiftLeft (hlo : lo.toNat < 2 ^ k.toNat) (hhi : hi.toNat < 2 ^ n) (hk : k.toNat < 32)
    (hfit : k.toNat + n ≤ 32) : (lo ||| hi <<< k).toNat = lo.toNat + 2 ^ k.toNat * hi.toNat := by
  have hword : hi.toNat * 2 ^ k.toNat < 2 ^ 32 :=
    calc hi.toNat * 2 ^ k.toNat < 2 ^ n * 2 ^ k.toNat := Nat.mul_lt_mul_of_pos_right hhi (Nat.two_pow_pos _)
      _ = 2 ^ (k.toNat + n) := by rw [← Nat.pow_add, Nat.add_comm]
      _ ≤ 2 ^ 32 := Nat.pow_le_pow_right (by decide) hfit
  rw [UInt32.toNat_or, UInt32.toNat_shiftLeft, Nat.mod_eq_of_lt hk, Nat.shiftLeft_eq, Nat.mod_eq_of_lt hword,
    ← Nat.shiftLeft_eq, Storage.or_shiftLeft hlo]

theorem toNat_or_shiftLeft_or_shiftLeft (hlo : lo.toNat < 2 ^ k.toNat) (hmid : mid.toNat < 2 ^ n)
    (hhi : hi.toNat < 2 ^ m) (hl : l.toNat = k.toNat + n) (hl' : l.toNat < 32) (hfit : l.toNat + m ≤ 32) :
    (lo ||| mid <<< k ||| hi <<< l).toNat = join [k.toNat, n, m] [lo.toNat, mid.toNat, hi.toNat] := by
  have hlow := toNat_or_shiftLeft hlo hmid (by omega) (by omega)
  have hlt : (lo ||| mid <<< k).toNat < 2 ^ l.toNat :=
    calc (lo ||| mid <<< k).toNat < 2 ^ k.toNat + 2 ^ k.toNat * mid.toNat := by rw [hlow]; omega
      _ = 2 ^ k.toNat * (mid.toNat + 1) := by rw [Nat.mul_add, Nat.mul_one, Nat.add_comm]
      _ ≤ 2 ^ k.toNat * 2 ^ n := Nat.mul_le_mul_left _ hmid
      _ = 2 ^ l.toNat := by rw [← Nat.pow_add, hl]
  rw [toNat_or_shiftLeft hlt hhi hl' hfit, hlow, hl]
  simp only [join, Nat.mod_eq_of_lt hlo, Nat.mod_eq_of_lt hmid, Nat.mod_eq_of_lt hhi, Nat.mul_zero, Nat.add_zero,
    Nat.mul_add, Nat.pow_add, Nat.mul_assoc, Nat.add_assoc]

theorem or_or_reverse (a b c : UInt32) : a ||| b ||| c = c ||| b ||| a := by ac_rfl

/-- Three octets, the lowest first. -/
theorem toNat_octets (a b c : UInt8) : (a.toUInt32 ||| b.toUInt32 <<< 8 ||| c.toUInt32 <<< 16).toNat =
    join [8, 8, 8] [a.toNat, b.toNat, c.toNat] :=
  toNat_or_shiftLeft_or_shiftLeft (k := 8) (l := 16) a.toNat_lt b.toNat_lt c.toNat_lt rfl (by decide) (by decide)

end

theorem packs_busNumber : Packs BusNumber [8] fun r => [r.base.toNat] where
  length _ := rfl
  inj a b h := by
    obtain ⟨base⟩ := a
    obtain ⟨base'⟩ := b
    simpa [UInt8.toNat_inj] using h
  encode a := by
    have hbase := a.base.toNat_lt
    simp only [Layout.encode, join, UInt8.toNat_toUInt32]
    omega
  decode w := by simp [Layout.decode, split]

theorem packs_firmwareVersion :
    Packs FirmwareVersion [8, 8, 8] fun v => [v.debug.toNat, v.minor.toNat, v.major.toNat] where
  length _ := rfl
  inj a b h := by
    obtain ⟨major, minor, debug⟩ := a
    obtain ⟨major', minor', debug'⟩ := b
    simp only [List.cons.injEq, UInt8.toNat_inj, and_true] at h
    obtain ⟨rfl, rfl, rfl⟩ := h
    rfl
  encode a := toNat_octets a.debug a.minor a.major
  decode w := by simp [Layout.decode, split, Nat.shiftRight_eq_div_pow, Nat.div_div_eq_div_mul]

theorem packs_levelRange : Packs LevelRange [8, 8, 8] fun r => [r.min.toNat, r.max.toNat, r.tile.toNat] where
  length _ := rfl
  inj a b h := by
    obtain ⟨tile, max, min⟩ := a
    obtain ⟨tile', max', min'⟩ := b
    simp only [List.cons.injEq, UInt8.toNat_inj, and_true] at h
    obtain ⟨rfl, rfl, rfl⟩ := h
    rfl
  encode a := (congrArg UInt32.toNat (or_or_reverse _ _ _)).trans (toNat_octets a.min a.max a.tile)
  decode w := by simp [Layout.decode, split, Nat.shiftRight_eq_div_pow, Nat.div_div_eq_div_mul]

theorem packs_widthRange : Packs WidthRange [8, 8] fun r => [r.max.toNat, r.min.toNat] where
  length _ := rfl
  inj a b h := by
    obtain ⟨min, max⟩ := a
    obtain ⟨min', max'⟩ := b
    simp only [List.cons.injEq, UInt8.toNat_inj, and_true] at h
    obtain ⟨rfl, rfl⟩ := h
    rfl
  encode a := by
    have hmax := a.max.toNat_lt
    have hmin := a.min.toNat_lt
    have hword : (a.max.toUInt32 ||| a.min.toUInt32 <<< 8).toNat = a.max.toNat + 256 * a.min.toNat :=
      toNat_or_shiftLeft (n := 8) hmax hmin (by decide) (by decide)
    refine (congrArg UInt32.toNat (UInt32.or_comm _ _)).trans (hword.trans ?_)
    simp only [join]
    omega
  decode w := by simp [Layout.decode, split, Nat.shiftRight_eq_div_pow]

theorem packs_boostLimit : Packs BoostLimit [16, 16] fun b => [b.limitMhz.toNat, b.apicId.toNat] where
  length _ := rfl
  inj a b h := by
    obtain ⟨apicId, limitMhz⟩ := a
    obtain ⟨apicId', limitMhz'⟩ := b
    simp only [List.cons.injEq, UInt16.toNat_inj, and_true] at h
    obtain ⟨rfl, rfl⟩ := h
    rfl
  encode a := by
    have hlimit := a.limitMhz.toNat_lt
    have hid := a.apicId.toNat_lt
    have hword : (a.limitMhz.toUInt32 ||| a.apicId.toUInt32 <<< 16).toNat =
        a.limitMhz.toNat + 65536 * a.apicId.toNat :=
      toNat_or_shiftLeft (n := 16) hlimit hid (by decide) (by decide)
    refine (congrArg UInt32.toNat (UInt32.or_comm _ _)).trans (hword.trans ?_)
    simp only [join]
    omega
  decode w := by simp [Layout.decode, split, Nat.shiftRight_eq_div_pow]

theorem toNat_percent (w : UInt32) : (w &&& 0xFF).toNat = w.toNat % 2 ^ 8 := Nat.and_two_pow_sub_one_eq_mod _ 8

theorem toNat_gbps (w : UInt32) : (w &&& 0xFFF).toNat = w.toNat % 2 ^ 12 := Nat.and_two_pow_sub_one_eq_mod _ 12

theorem packs_ddrBandwidth :
    Packs DdrBandwidth [8, 12, 12] fun b => [b.usedPercent.toNat, b.usedGbps.toNat, b.maxGbps.toNat] where
  length _ := rfl
  inj a b h := by
    obtain ⟨maxGbps, usedGbps, usedPercent⟩ := a
    obtain ⟨maxGbps', usedGbps', usedPercent'⟩ := b
    simp only [List.cons.injEq, UInt32.toNat_inj, and_true] at h
    obtain ⟨rfl, rfl, rfl⟩ := h
    rfl
  encode a := by
    have hpercent := toNat_percent a.usedPercent
    have hused := toNat_gbps a.usedGbps
    have hmax := toNat_gbps a.maxGbps
    have hpercent' : (a.usedPercent &&& 0xFF).toNat < 2 ^ 8 := hpercent ▸ Nat.mod_lt _ (by decide)
    have hused' : (a.usedGbps &&& 0xFFF).toNat < 2 ^ 12 := hused ▸ Nat.mod_lt _ (by decide)
    have hmax' : (a.maxGbps &&& 0xFFF).toNat < 2 ^ 12 := hmax ▸ Nat.mod_lt _ (by decide)
    have hword := toNat_or_shiftLeft_or_shiftLeft (k := 8) (l := 20) hpercent' hused' hmax' rfl (by decide) (by decide)
    refine (congrArg UInt32.toNat (or_or_reverse _ _ _)).trans (hword.trans ?_)
    rw [hpercent, hused, hmax]
    simp only [join, Nat.mod_mod, UInt32.reduceToNat]
  decode w := by
    have hw := w.toNat_lt
    simp only [Layout.decode, toNat_percent, toNat_gbps, split, UInt32.toNat_shiftRight, UInt32.reduceToNat,
      Nat.shiftRight_eq_div_pow, Nat.reduceMod, Nat.div_div_eq_div_mul, List.cons.injEq, and_true, true_and]
    omega

/-- What the check of a bandwidth accepts is what its fields hold. -/
theorem fault?_ddrBandwidth (b : DdrBandwidth) : Layout.fault? b = none ↔
    b.usedPercent.toNat < 2 ^ 8 ∧ b.usedGbps.toNat < 2 ^ 12 ∧ b.maxGbps.toNat < 2 ^ 12 := by
  simp only [Layout.fault?, gt_iff_lt, UInt32.lt_iff_toNat_lt, UInt32.reduceToNat, Bool.or_eq_true,
    decide_eq_true_eq]
  split
  · simp only [reduceCtorEq, false_iff]
    omega
  · split
    · simp only [reduceCtorEq, false_iff]
      omega
    · simp only [true_iff]
      omega

/-- Every layout keeps all that its fields hold. A bandwidth is kept if its check accepts it, and what is read as
    one it accepts. -/
theorem layouts_lossless :
    Lossless BusNumber 0xFF [8] (fun r => [r.base.toNat]) (fun _ => True) ∧
    Lossless FirmwareVersion 0xFFFFFF [8, 8, 8] (fun v => [v.debug.toNat, v.minor.toNat, v.major.toNat])
      (fun _ => True) ∧
    Lossless BoostLimit 0xFFFFFFFF [16, 16] (fun b => [b.limitMhz.toNat, b.apicId.toNat]) (fun _ => True) ∧
    Lossless WidthRange 0xFFFF [8, 8] (fun r => [r.max.toNat, r.min.toNat]) (fun _ => True) ∧
    Lossless LevelRange 0xFFFFFF [8, 8, 8] (fun r => [r.min.toNat, r.max.toNat, r.tile.toNat]) (fun _ => True) ∧
    Lossless DdrBandwidth 0xFFFFFFFF [8, 12, 12] (fun b => [b.usedPercent.toNat, b.usedGbps.toNat, b.maxGbps.toNat])
      (fun b => Layout.fault? b = none) := by
  refine ⟨packs_busNumber.lossless rfl fun r => ?_, packs_firmwareVersion.lossless rfl fun v => ?_,
    packs_boostLimit.lossless rfl fun b => ?_, packs_widthRange.lossless rfl fun r => ?_,
    packs_levelRange.lossless rfl fun r => ?_, packs_ddrBandwidth.lossless rfl fun b => ?_⟩
  case refine_6 => simp [cut, fault?_ddrBandwidth]
  -- the others have fields no wider than their bits
  all_goals simp [cut]

end FirmwareMailbox.Layout
