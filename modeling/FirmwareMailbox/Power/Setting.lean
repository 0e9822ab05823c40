/-
  FirmwareMailbox.Power.Setting — the settings that are chosen by name: a performance state of the
  data fabric, one of a tile's PCIe interface, a width of the xGMI links.
-/

import FirmwareMailbox.Processor.Basic

namespace FirmwareMailbox

/-- A state of the data fabric: a level, 0 the fastest, or left to the firmware. -/
inductive FabricState where
  | p0
  | p1
  | p2
  | p3
  | auto
  deriving DecidableEq, Repr

namespace FabricState

def name : FabricState → String
  | p0 => "0"
  | p1 => "1"
  | p2 => "2"
  | p3 => "3"
  | auto => "auto"

def level : FabricState → Option UInt32
  | p0 => some 0
  | p1 => some 1
  | p2 => some 2
  | p3 => some 3
  | auto => none

def all : List FabricState := [p0, p1, p2, p3, auto]

def ofName? (s : String) : Option FabricState := all.find? (·.name = s)

end FabricState

/-- A state of a tile's PCIe interface, as the lowest and highest level it may take. -/
inductive InterfaceState where
  | auto
  | p0
  deriving DecidableEq, Repr

namespace InterfaceState

def name : InterfaceState → String
  | auto => "auto"
  | p0 => "0"

def levels : InterfaceState → UInt8 × UInt8
  | auto => (0, 2)
  | p0 => (2, 2)

def all : List InterfaceState := [auto, p0]

def ofName? (s : String) : Option InterfaceState := all.find? (·.name = s)

end InterfaceState

/-- A width of the links between sockets. -/
inductive LinkWidth where
  | x2
  | x8
  | x16
  deriving DecidableEq, Repr

namespace LinkWidth

def name : LinkWidth → String
  | x2 => "x2"
  | x8 => "x8"
  | x16 => "x16"

/-- The number that stands for the width; wider is higher. -/
def widthClass : LinkWidth → UInt8
  | x2 => 0
  | x8 => 1
  | x16 => 2

def all : List LinkWidth := [x2, x8, x16]

def ofName? (s : String) : Option LinkWidth := all.find? (·.name = s)

instance : Ord LinkWidth := ⟨fun a b => compare a.widthClass b.widthClass⟩

instance : LT LinkWidth := ⟨fun a b => a.widthClass < b.widthClass⟩

instance (a b : LinkWidth) : Decidable (a < b) :=
  inferInstanceAs (Decidable (a.widthClass < b.widthClass))

/-- The narrowest width the links of a processor may drop to. -/
def floor (p : Processor) : LinkWidth := if p.alwaysHasMailbox then x2 else x8

end LinkWidth

end FirmwareMailbox
