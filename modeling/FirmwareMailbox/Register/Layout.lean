/-
  FirmwareMailbox.Register.Layout — what the bits of a word mean.

  A layout reads fields out of a word and packs them into one. Fields of a layout do not overlap.
  The fields of `DdrBandwidth` are whole words of which only the low 12, 12 and 8 bits are packed,
  so `fault?` has to accept them before packing keeps them; the fields of the other layouts are as
  wide as their bits, and `fault?` states what the firmware demands of the values.
-/

import FirmwareMailbox.Text.Numeral

namespace FirmwareMailbox

/-- Why the fields of a layout are not to be sent. -/
inductive LayoutFault where
  | widthClass
  | widthOrder
  | tileNumber
  | levelOrder
  | bandwidthRange
  | percentRange
  deriving DecidableEq, Repr

def LayoutFault.message : LayoutFault → String
  | .widthClass => "xGMI width class must be <= 2 (x16)"
  | .widthOrder => "xGMI minimum width must not exceed maximum width"
  | .tileNumber => "NBIO tile ID must be < 4"
  | .levelOrder => "NBIO DPM minimum must not exceed maximum"
  | .bandwidthRange => "DDR bandwidth fields are 12 bits wide"
  | .percentRange => "DDR utilization percent is 8 bits wide"

/-- Fields packed into a 32-bit word. -/
class Layout (α : Type) where
  encode : α → UInt32
  decode : UInt32 → α
  fault? : α → Option LayoutFault := fun _ => none

/-- Bus number register: the lowest bus of a tile in bits 7:0. -/
structure BusNumber where
  base : UInt8 := 0
  deriving DecidableEq, Repr, Inhabited

instance : Layout BusNumber where
  encode r := r.base.toUInt32
  decode w := ⟨w.toUInt8⟩

/-- Firmware version: debug in bits 7:0, minor in 15:8, major in 23:16. -/
structure FirmwareVersion where
  major : UInt8 := 0
  minor : UInt8 := 0
  debug : UInt8 := 0
  deriving DecidableEq, Repr, Inhabited

instance : Layout FirmwareVersion where
  encode v := v.debug.toUInt32 ||| (v.minor.toUInt32 <<< 8) ||| (v.major.toUInt32 <<< 16)
  decode w := ⟨(w >>> 16).toUInt8, (w >>> 8).toUInt8, w.toUInt8⟩

def FirmwareVersion.text (v : FirmwareVersion) : String :=
  Text.decimal v.major.toNat ++ "." ++ Text.decimal v.minor.toNat ++ "." ++
    Text.decimal v.debug.toNat

/-- Boost limit of one core: the limit in MHz in bits 15:0, the core's APIC ID in 31:16. -/
structure BoostLimit where
  apicId : UInt16 := 0
  limitMhz : UInt16 := 0
  deriving DecidableEq, Repr, Inhabited

instance : Layout BoostLimit where
  encode b := (b.apicId.toUInt32 <<< 16) ||| b.limitMhz.toUInt32
  decode w := ⟨(w >>> 16).toUInt16, w.toUInt16⟩

/-- Bounds of the xGMI link width as classes: maximum in bits 7:0, minimum in 15:8. -/
structure WidthRange where
  min : UInt8 := 0
  max : UInt8 := 0
  deriving DecidableEq, Repr, Inhabited

instance : Layout WidthRange where
  encode r := (r.min.toUInt32 <<< 8) ||| r.max.toUInt32
  decode w := ⟨(w >>> 8).toUInt8, w.toUInt8⟩
  fault? r :=
    if r.max > 2 || r.min > 2 then some .widthClass
    else if r.min > r.max then some .widthOrder
    else none

/-- Levels of one tile's PCIe interface: minimum in bits 7:0, maximum in 15:8, the tile's number
in 23:16. -/
structure LevelRange where
  tile : UInt8 := 0
  max : UInt8 := 0
  min : UInt8 := 0
  deriving DecidableEq, Repr, Inhabited

instance : Layout LevelRange where
  encode r := (r.tile.toUInt32 <<< 16) ||| (r.max.toUInt32 <<< 8) ||| r.min.toUInt32
  decode w := ⟨(w >>> 16).toUInt8, (w >>> 8).toUInt8, w.toUInt8⟩
  fault? r :=
    if r.tile ≥ 4 then some .tileNumber
    else if r.min > r.max then some .levelOrder
    else none

/-- Memory bandwidth: used percentage in bits 7:0, used GB/s in 19:8, highest GB/s in 31:20. -/
structure DdrBandwidth where
  maxGbps : UInt32 := 0
  usedGbps : UInt32 := 0
  usedPercent : UInt32 := 0
  deriving DecidableEq, Repr, Inhabited

instance : Layout DdrBandwidth where
  encode b := ((b.maxGbps &&& 0xFFF) <<< 20) ||| ((b.usedGbps &&& 0xFFF) <<< 8) |||
    (b.usedPercent &&& 0xFF)
  decode w := ⟨w >>> 20, (w >>> 8) &&& 0xFFF, w &&& 0xFF⟩
  fault? b :=
    if b.maxGbps > 0xFFF || b.usedGbps > 0xFFF then some .bandwidthRange
    else if b.usedPercent > 0xFF then some .percentRange
    else none

/-- A register: where it is and what it holds. -/
structure Register (α : Type) where
  address : UInt32
  fields : α
  deriving DecidableEq, Repr

namespace Register

variable {α : Type}

/-- The register at `address` before anything was read. -/
def blank [Inhabited α] (address : UInt32) : Register α := ⟨address, default⟩

/-- The same register after `word` was read from it. -/
def fill [Layout α] (r : Register α) (word : UInt32) : Register α :=
  { r with fields := Layout.decode word }

def word [Layout α] (r : Register α) : UInt32 := Layout.encode r.fields

end Register

end FirmwareMailbox
