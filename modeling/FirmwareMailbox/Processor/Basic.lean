/-
  FirmwareMailbox.Processor.Basic — which processor this is.

  Both parts come from CPUID: the vendor from the three registers of leaf 0, in the order EBX, EDX,
  ECX, twelve octets; family, model and stepping from the signature in EAX of leaf 1. The extended
  family and model count only when the base family is 0xF.
-/

import FirmwareMailbox.Text.Utf8

namespace FirmwareMailbox

inductive Vendor where
  | amd
  | intel
  | unknown
  deriving DecidableEq, Repr

structure Processor where
  vendor : Vendor
  family : UInt32
  model : UInt32
  stepping : UInt32
  deriving DecidableEq, Repr

namespace Vendor

def ofName (name : List Char) : Vendor :=
  if name = "AuthenticAMD".toList then .amd
  else if name = "GenuineIntel".toList then .intel
  else .unknown

/-- The octets of a word, the lowest first. -/
def octets (w : UInt32) : List UInt8 :=
  [w.toUInt8, (w >>> 8).toUInt8, (w >>> 16).toUInt8, (w >>> 24).toUInt8]

/-- The vendor's name in the registers of leaf 0. -/
def nameOfRegisters (ebx ecx edx : UInt32) : List Char :=
  Text.Utf8.decodeLossy (octets ebx ++ octets edx ++ octets ecx)

end Vendor

namespace Processor

/-- Family, model and stepping of a signature. -/
def signature (eax : UInt32) : UInt32 × UInt32 × UInt32 :=
  let stepping := eax &&& 0xF
  let model := (eax >>> 4) &&& 0xF
  let family := (eax >>> 8) &&& 0xF
  if family = 0xF then
    (family + ((eax >>> 20) &&& 0xFF), (((eax >>> 16) &&& 0xF) <<< 4) ||| model, stepping)
  else (family, model, stepping)

/-- The processor that answers these words to CPUID. -/
def ofCpuid (eax ebx ecx edx : UInt32) : Processor :=
  let (family, model, stepping) := signature eax
  ⟨Vendor.ofName (Vendor.nameOfRegisters ebx ecx edx), family, model, stepping⟩

def name (p : Processor) : String :=
  match p.vendor with
  | .amd =>
    if p.family = 0x17 then "EPYC Family 17h (Zen 2)"
    else if p.family = 0x19 then "EPYC Family 19h (Zen 3)"
    else if p.family > 0x19 then "AMD Family 1Ah or later"
    else "AMD (pre-Zen 2)"
  | .intel => "Intel"
  | .unknown => "Unknown"

/-- AMD families from 19h on always have the mailbox. -/
def alwaysHasMailbox (p : Processor) : Bool := p.vendor = .amd && p.family ≥ 0x19

end Processor

end FirmwareMailbox
