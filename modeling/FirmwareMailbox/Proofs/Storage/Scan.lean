/-
  FirmwareMailbox.Proofs.Storage.Scan — what a scan identifies, and what it opens.

  A file in a bus directory is identified if its names spell an address and it starts with the vendor and the
  device asked for (`identified`). A scan that ends well has one find for each identified file, in the order of
  the directories. What it opens for a find is the file that goes by the names written for the address
  (`openConfig_eq_ok`), and that is the identified file if it goes by these names itself (`OwnNames`) and not
  otherwise: a directory `0` spells the bus that `00` is written for (`scan_identified`).
-/

import FirmwareMailbox.Proofs.Pci.Names
import FirmwareMailbox.Proofs.Storage.Handle
import Mathlib.Data.String.Basic

namespace FirmwareMailbox

open Text

namespace Storage

variable {tree : Node} {root : String} {base : List String} {buses : List (String × Node)}
  {vendor device : UInt16}

theorem bind_eq_ok {ε α β : Type} {x : Except ε α} {f : α → Except ε β} {b : β} :
    x >>= f = .ok b ↔ ∃ a, x = .ok a ∧ f a = .ok b := by
  cases x with
  | error e => simp [bind, Except.bind]
  | ok a => simp [bind, Except.bind]

/-! ## Names that are only names -/

/-- Neither a dot nor two, and not too long. -/
structure Plain (name : String) : Prop where
  dot : name ≠ "."
  dots : name ≠ ".."
  short : name.utf8ByteSize ≤ nameLimit

theorem utf8Len_le (cs : List Char) : String.utf8Len cs ≤ 4 * cs.length := by
  induction cs with
  | nil => exact Nat.le_refl _
  | cons c cs ih =>
    have hc := c.utf8Size_le_four
    rw [String.utf8Len_cons, List.length_cons]
    omega

theorem utf8ByteSize_le {name : String} (h : name.toList.length ≤ 63) : name.utf8ByteSize ≤ nameLimit := by
  have hlen := utf8Len_le name.toList
  rw [String.utf8Len_toList] at hlen
  have hlimit : nameLimit = 255 := rfl
  omega

/-- A name that spells something is no dots. -/
theorem plain_of_read {α : Type} {read : List Char → Option α} {name : String} {x : α}
    (h : read name.toList = some x) (hdot : read ".".toList = none) (hdots : read "..".toList = none)
    (hlen : name.toList.length ≤ 63) : Plain name := by
  refine ⟨?_, ?_, utf8ByteSize_le hlen⟩
  · rintro rfl
    rw [hdot] at h
    cases h
  · rintro rfl
    rw [hdots] at h
    cases h

theorem plain_busDirectory (a : PciAddress) : Plain a.busDirectory := by
  refine plain_of_read a.readBusDirectory?_busDirectory (by rfl) (by rfl) ?_
  have hdomain : (hexDigits 4 a.domain.toNat).length ≤ 8 :=
    length_hexDigits_le (by decide) (by decide) a.domain.toNat_lt
  have hbus : (hexDigits 2 a.bus.toNat).length ≤ 2 := length_hexDigits_le (by decide) (by decide) a.bus.toNat_lt
  rw [a.toList_busDirectory]
  split
  · rw [List.length_append, List.length_cons]
    omega
  · omega

theorem plain_slotName (a : PciAddress) : Plain a.slotName := by
  refine plain_of_read a.readSlot?_slotName (by rfl) (by rfl) ?_
  have hdevice : (hexDigits 2 a.device.toNat).length ≤ 2 :=
    length_hexDigits_le (by decide) (by decide) a.device.toNat_lt
  have hfunction : (hexDigits 1 a.function.toNat).length ≤ 2 :=
    length_hexDigits_le (by decide) (by decide) a.function.toNat_lt
  rw [a.toList_slotName, List.length_append, List.length_cons]
  omega

/-- Such a name leads to what is there by it. -/
theorem step_eq_ok {name : String} (hname : Plain name) {here next : List String} :
    tree.step here name = .ok next ↔ next = here ++ [name] ∧ ∃ n, tree.get (here ++ [name]) = .ok n := by
  rw [Node.get_append]
  unfold Node.step
  cases tree.get here with
  | error e => simp [bind, Except.bind]
  | ok n =>
    cases n with
    | directory entries =>
      simp only [if_neg hname.dot, if_neg hname.dots, if_neg (Nat.not_lt.mpr hname.short)]
      cases hc : Node.child? name entries with
      | none => simp [Node.get, hc, bind, Except.bind]
      | some n => simp [Node.get, hc, bind, Except.bind, eq_comm]
    | _ => simp [Node.get, bind, Except.bind]

/-- Two such names lead to what is there by them. -/
theorem follow_eq_ok {first second : String} (hfirst : Plain first) (hsecond : Plain second)
    {here there : List String} : tree.follow here [first, second] = .ok there ↔
      there = here ++ [first, second] ∧ ∃ n, tree.get there = .ok n := by
  have happend : here ++ [first, second] = here ++ [first] ++ [second] := by simp
  simp only [Node.follow, bind_eq_ok, step_eq_ok hfirst, step_eq_ok hsecond, happend, Except.ok.injEq]
  constructor
  · rintro ⟨_, ⟨rfl, -⟩, _, ⟨rfl, hn⟩, rfl⟩
    exact ⟨rfl, hn⟩
  · rintro ⟨rfl, n, hn⟩
    have hsplit := hn
    rw [Node.get_append, bind_eq_ok] at hsplit
    obtain ⟨m, hm, -⟩ := hsplit
    exact ⟨_, ⟨rfl, m, hm⟩, _, ⟨rfl, n, hn⟩, rfl⟩

/-- What is opened for an address is below the root by the names written for it, and no directory. -/
theorem openConfig_eq_ok {a : PciAddress} {file : OpenFile} : openConfig tree root a = .ok file ↔
    ∃ base n, tree.locate root = .ok base ∧ tree.get (base ++ [a.busDirectory, a.slotName]) = .ok n ∧
      n.isDirectory = false ∧ file = ⟨a.filePath root, base ++ [a.busDirectory, a.slotName]⟩ := by
  have hfound (ns : List String) : (do
      let base ← tree.locate root
      let ns ← tree.follow base [a.busDirectory, a.slotName]
      let n ← tree.get ns
      if n.isDirectory then throw Errno.isDirectory
      return ns) = Except.ok ns ↔ ∃ base n, tree.locate root = .ok base ∧
        tree.get (base ++ [a.busDirectory, a.slotName]) = .ok n ∧ n.isDirectory = false ∧
        ns = base ++ [a.busDirectory, a.slotName] := by
    simp only [bind_eq_ok, follow_eq_ok (plain_busDirectory a) (plain_slotName a)]
    constructor
    · rintro ⟨base, hbase, _, ⟨rfl, -⟩, n, hn, hd⟩
      cases hdir : n.isDirectory with
      | true => simp [hdir, throw, throwThe, MonadExceptOf.throw, bind, Except.bind] at hd
      | false =>
        simp only [hdir] at hd
        cases hd
        exact ⟨base, n, hbase, hn, hdir, rfl⟩
    · rintro ⟨base, n, hbase, hn, hdir, rfl⟩
      refine ⟨base, hbase, _, ⟨rfl, n, hn⟩, n, hn, ?_⟩
      simp only [hdir]
      rfl
  constructor
  · intro h
    simp only [openConfig] at h
    split at h
    · cases h
    · rename_i ns hns
      obtain ⟨base, n, hbase, hn, hdir, rfl⟩ := (hfound ns).mp hns
      cases h
      exact ⟨base, n, hbase, hn, hdir, rfl⟩
  · rintro ⟨base, n, hbase, hn, hdir, rfl⟩
    have hns := (hfound _).mpr ⟨base, n, hbase, hn, hdir, rfl⟩
    unfold openConfig
    rw [hns]

/-! ## What is identified -/

/-- The first word of a device's configuration space. -/
def identity (vendor device : UInt16) : UInt32 := device.toUInt32 <<< 16 ||| vendor.toUInt32

/-- Whether these octets are the first that are read. -/
def Node.startsWith (octets : List UInt8) : Node → Bool
  | .file bytes => octets.isPrefixOf bytes
  | .fullDevice => octets.all (· = 0)
  | _ => false

/-- A file in a bus directory, and the names of the two. -/
structure Slot where
  bus : String
  name : String
  node : Node

/-- The address that the names spell. -/
def Slot.address? (s : Slot) : Option PciAddress := spelledAddress? s.bus s.name

/-- The names are those that are written for the address. -/
def Slot.OwnNames (s : Slot) : Prop := ∀ a, s.address? = some a → s.bus = a.busDirectory ∧ s.name = a.slotName

def slotsIn (bus : String) : Node → List Slot
  | .directory files => files.map fun (name, node) => ⟨bus, name, node⟩
  | _ => []

/-- The files in all directories. -/
def slots (buses : List (String × Node)) : List Slot := buses.flatMap fun (bus, n) => slotsIn bus n

/-- The files that spell an address and start with the identity. -/
def identified (buses : List (String × Node)) (vendor device : UInt16) : List Slot :=
  (slots buses).filter fun s => s.node.startsWith (octetsOf (identity vendor device)) && s.address?.isSome

theorem identity_eq_iff {id : UInt32} :
    id = identity vendor device ↔ id.toUInt16 = vendor ∧ (id >>> 16).toUInt16 = device := by
  have hid := id.toNat_lt
  have hv := vendor.toNat_lt
  have hd := device.toNat_lt
  have hshift : device.toNat <<< 16 < 2 ^ 32 := by rw [Nat.shiftLeft_eq]; omega
  have hvalue : (identity vendor device).toNat = vendor.toNat + 2 ^ 16 * device.toNat := by
    simp only [identity, UInt32.toNat_or, UInt32.toNat_shiftLeft, UInt16.toNat_toUInt32, UInt32.reduceToNat,
      Nat.reduceMod, Nat.mod_eq_of_lt hshift]
    rw [Nat.or_comm, or_shiftLeft (k := 16) hv]
  rw [← UInt32.toNat_inj, hvalue, ← UInt16.toNat_inj, ← UInt16.toNat_inj, UInt32.toNat_toUInt16,
    UInt32.toNat_toUInt16, UInt32.toNat_shiftRight, Nat.shiftRight_eq_div_pow]
  simp only [UInt32.reduceToNat, Nat.reduceMod, Nat.reducePow]
  omega

theorem readWord_zero {n : Node} {w : UInt32} (path : String) :
    n.readWord path 0 = .ok w ↔ n.startsWith (octetsOf w) = true := by
  cases n with
  | file bytes =>
    have hdrop : bytes.drop (0 : UInt32).toNat = bytes := rfl
    simp only [Node.readWord, Node.startsWith, hdrop, List.isPrefixOf_iff_prefix, ← wordOf?_eq_some]
    cases wordOf? bytes <;> simp
  | fullDevice =>
    have hzeros : (octetsOf w).all (· = 0) = true ↔ octetsOf w = [0, 0, 0, 0] := by simp [octetsOf]
    have hzero : littleEndian [0, 0, 0, 0] = (0 : UInt32).toNat := rfl
    simp only [Node.readWord, Node.startsWith, Except.ok.injEq, hzeros, octetsOf_eq_iff, hzero, UInt32.toNat_inj]
  | _ => simp [Node.readWord, Node.startsWith]

theorem hasIdentity_eq (n : Node) (vendor device : UInt16) :
    hasIdentity n vendor device = n.startsWith (octetsOf (identity vendor device)) := by
  rw [Bool.eq_iff_iff, ← readWord_zero "", hasIdentity]
  cases n.readWord "" 0 with
  | error e => simp
  | ok id => simp [identity_eq_iff]

theorem matching_directory (buses : List (String × Node)) (vendor device : UInt16) :
    matching (.directory buses) vendor device = (identified buses vendor device).filterMap Slot.address? := by
  have hin (bus : String) (n : Node) : matchesIn bus vendor device n =
      ((slotsIn bus n).filter fun s => s.node.startsWith (octetsOf (identity vendor device)) &&
        s.address?.isSome).filterMap Slot.address? := by
    cases n with
    | directory files =>
      simp only [matchesIn, slotsIn, List.filterMap_filter, List.filterMap_map, hasIdentity_eq]
      refine congrArg₂ _ (funext fun e => ?_) rfl
      simp only [Function.comp_apply, Slot.address?]
      rcases Option.eq_none_or_eq_some (spelledAddress? bus e.1) with hspelled | ⟨a, hspelled⟩ <;> simp [hspelled]
    | _ => rfl
  simp only [matching, identified, slots, hin, List.filter_flatMap, List.filterMap_flatMap]

/-! ## What is listed -/

/-- The root is a directory with these entries. -/
structure Lists (tree : Node) (root : String) (base : List String) (buses : List (String × Node)) : Prop where
  located : tree.locate root = .ok base
  content : tree.get base = .ok (.directory buses)

/-- No directory has two entries of one name, as no file system lets it. -/
structure DistinctNames (buses : List (String × Node)) : Prop where
  ofBuses : (buses.map (·.1)).Nodup
  ofSlots : ∀ bus files, (bus, Node.directory files) ∈ buses → (files.map (·.1)).Nodup

theorem get_slot (h : Lists tree root base buses) (hd : DistinctNames buses) {s : Slot} (hs : s ∈ slots buses) :
    tree.get (base ++ [s.bus, s.name]) = .ok s.node := by
  obtain ⟨⟨bus, n⟩, hbus, hs⟩ := List.mem_flatMap.mp hs
  cases n with
  | directory files =>
    obtain ⟨⟨name, node⟩, hfile, rfl⟩ := List.mem_map.mp hs
    have hchild := (Node.child?_eq_some hd.ofBuses).mpr hbus
    have hchild' := (Node.child?_eq_some (hd.ofSlots bus files hbus)).mpr hfile
    rw [Node.get_append, h.content]
    simp only [bind, Except.bind, Node.get, hchild, hchild']
  | _ => cases hs

theorem scan_listed (h : Lists tree root base buses) (vendor device : UInt16) (first : DeviceHandle) :
    scan tree root vendor device first =
      openAll tree root vendor device first ((identified buses vendor device).filterMap Slot.address?) := by
  unfold scan
  rw [h.located]
  simp only [bind, Except.bind, h.content, Node.isDirectory, if_true, matching_directory]

theorem openAll_devices {as : List PciAddress} {first : DeviceHandle} {found : List (PciDevice × OpenFile)}
    (h : openAll tree root vendor device first as = .ok found) :
    ∀ d ∈ found, d.1.vendor = vendor ∧ d.1.device = device := by
  induction as generalizing first found with
  | nil =>
    cases h
    exact fun d hd => absurd hd List.not_mem_nil
  | cons a rest ih =>
    simp only [openAll] at h
    split at h
    · cases h
    · obtain ⟨others, hothers, hfound⟩ := bind_eq_ok.mp h
      cases hfound
      intro d hd
      rcases List.mem_cons.mp hd with rfl | hd
      · exact ⟨rfl, rfl⟩
      · exact ih hothers d hd

theorem openAll_isOk_iff {as : List PciAddress} {first : DeviceHandle} :
    (∃ found, openAll tree root vendor device first as = .ok found) ↔
      ∀ a ∈ as, ∃ file, openConfig tree root a = .ok file := by
  constructor
  · rintro ⟨found, hfound⟩
    by_contra hall
    obtain ⟨_, _, -, herror⟩ : ∃ a fault, openConfig tree root a = .error fault ∧
      openAll tree root vendor device first as = .error (.access fault) := openAll_error first hall
    rw [hfound] at herror
    cases herror
  · intro hall
    obtain ⟨found, hfound, -⟩ : ∃ found, openAll tree root vendor device first as = .ok found ∧
      List.Forall₂ (Finds tree root) as found ∧ found.map (·.1.handle) = List.range' first found.length :=
      openAll_ok first hall
    exact ⟨found, hfound⟩

/-- If the files are opened, each is for its address. -/
theorem of_openAll {as : List PciAddress} {first : DeviceHandle} {found : List (PciDevice × OpenFile)}
    (h : openAll tree root vendor device first as = .ok found) : List.Forall₂ (Finds tree root) as found ∧
      found.map (·.1.handle) = List.range' first found.length ∧
      ∀ d ∈ found, d.1.vendor = vendor ∧ d.1.device = device := by
  obtain ⟨found', hfound', hfinds, hhandles⟩ : ∃ found', openAll tree root vendor device first as = .ok found' ∧
    List.Forall₂ (Finds tree root) as found' ∧ found'.map (·.1.handle) = List.range' first found'.length :=
    openAll_ok first (openAll_isOk_iff.mp ⟨found, h⟩)
  obtain rfl : found' = found := Except.ok.inj (hfound'.symm.trans h)
  exact ⟨hfinds, hhandles, openAll_devices h⟩

/-- Of elements that all have an image, each is related as its image is. -/
theorem forall₂_of_filterMap {α β γ : Type} {R : β → γ → Prop} {f : α → Option β} {l : List α}
    {ys : List γ} (hl : ∀ x ∈ l, (f x).isSome = true) (h : List.Forall₂ R (l.filterMap f) ys) :
    List.Forall₂ (fun x y => ∃ b, f x = some b ∧ R b y) l ys := by
  induction l generalizing ys with
  | nil =>
    cases h
    exact .nil
  | cons x l ih =>
    obtain ⟨b, hb⟩ := Option.isSome_iff_exists.mp (hl x (List.mem_cons_self ..))
    rw [List.filterMap_cons_some hb] at h
    cases h with
    | cons hy hrest => exact .cons ⟨b, hb, hy⟩ (ih (fun x hx => hl x (List.mem_cons_of_mem _ hx)) hrest)

end Storage

open Storage

namespace Files

variable {f : Files} {root : String} {base : List String} {buses : List (String × Node)} {vendor device : UInt16}

/-- `d` is the find for `s`: the device has the address that the names spell, and its handle is open on the
    file of that address. -/
structure FoundFor (f : Files) (root : String) (base : List String) (vendor device : UInt16) (s : Slot)
    (d : PciDevice) : Prop where
  address : s.address? = some d.address
  ofVendor : d.vendor = vendor
  ofDevice : d.device = device
  opened : f.opened[d.handle]? =
    some ⟨d.address.filePath root, base ++ [d.address.busDirectory, d.address.slotName]⟩

/-- The handle is open on the very file that was identified. -/
structure OpenOn (f : Files) (root : String) (base : List String) (vendor device : UInt16) (s : Slot)
    (d : PciDevice) : Prop extends FoundFor f root base vendor device s d where
  file : ∃ path, f.opened[d.handle]? = some ⟨path, base ++ [s.bus, s.name]⟩
  word : f.read d.handle 0 = .ok (identity vendor device)

theorem scan_eq_ok (h : Lists f.storage.root root base buses) {found : List PciDevice} {f' : Files}
    (hscan : f.scan root vendor device = (.ok found, f')) : f'.storage = f.storage ∧
      List.Forall₂ (FoundFor f' root base vendor device) (identified buses vendor device) found := by
  simp only [scan, scan_listed h] at hscan
  split at hscan
  · cases hscan
  · rename_i pairs hpairs
    cases hscan
    obtain ⟨hfinds, hhandles, hdevices⟩ := of_openAll hpairs
    refine ⟨rfl, ?_⟩
    rw [List.forall₂_map_right_iff]
    have hspell : ∀ s ∈ identified buses vendor device, s.address?.isSome = true := fun s hs =>
      (Bool.and_eq_true_iff.mp (List.mem_filter.mp hs).2).2
    have hall := forall₂_of_filterMap hspell hfinds
    refine List.forall₂_iff_zip.mpr ⟨hall.length_eq, fun {s pair} hmem => ?_⟩
    obtain ⟨a, ha, haddress, hopen⟩ := (List.forall₂_iff_zip.mp hall).2 hmem
    have hpair := (List.of_mem_zip hmem).2
    obtain ⟨base', n, hbase, -, -, hfile⟩ := openConfig_eq_ok.mp hopen
    obtain rfl : base' = base := Except.ok.inj (hbase.symm.trans h.located)
    subst haddress
    refine ⟨ha, (hdevices _ hpair).1, (hdevices _ hpair).2, ?_⟩
    rw [← hfile]
    exact opened_of_handles hhandles hpair

theorem scan_isOk_iff (h : Lists f.storage.root root base buses) :
    (∃ found f', f.scan root vendor device = (.ok found, f')) ↔
      ∀ s ∈ identified buses vendor device, ∀ a, s.address? = some a →
        ∃ file, openConfig f.storage.root root a = .ok file := by
  have hopened : (∃ found f', f.scan root vendor device = (.ok found, f')) ↔
      ∃ found, openAll f.storage.root root vendor device f.opened.length
        ((identified buses vendor device).filterMap Slot.address?) = .ok found := by
    simp only [scan, scan_listed h]
    split
    · rename_i herror
      simp [herror]
    · rename_i found hfound
      simp [hfound]
  rw [hopened, openAll_isOk_iff]
  simp only [List.mem_filterMap]
  exact ⟨fun hall s hs a ha => hall a ⟨s, hs, ha⟩, fun hall a ⟨s, hs, ha⟩ => hall s hs a ha⟩

/-- A file with its address's own names is the one that is opened for the address. -/
theorem openConfig_own (h : Lists f.storage.root root base buses) (hd : DistinctNames buses) {s : Slot}
    (hs : s ∈ identified buses vendor device) (hown : s.OwnNames) {a : PciAddress} (ha : s.address? = some a) :
    ∃ file, openConfig f.storage.root root a = .ok file := by
  obtain ⟨hbus, hname⟩ := hown a ha
  obtain ⟨hslot, hmatch⟩ := List.mem_filter.mp hs
  have hget := get_slot h hd hslot
  rw [hbus, hname] at hget
  have hfile : s.node.isDirectory = false := by
    cases hn : s.node with
    | directory files =>
      rw [hn] at hmatch
      cases hmatch
    | _ => rfl
  exact ⟨_, openConfig_eq_ok.mpr ⟨base, s.node, h.located, hget, hfile, rfl⟩⟩

theorem FoundFor.openOn (h : Lists f.storage.root root base buses) (hd : DistinctNames buses) {s : Slot}
    (hs : s ∈ identified buses vendor device) (hown : s.OwnNames) {d : PciDevice}
    (hfound : FoundFor f root base vendor device s d) : OpenOn f root base vendor device s d := by
  obtain ⟨hbus, hname⟩ := hown d.address hfound.address
  obtain ⟨hslot, hmatch⟩ := List.mem_filter.mp hs
  have hopened := hfound.opened
  rw [← hbus, ← hname] at hopened
  have hword := (readWord_zero (d.address.filePath root)).mpr (Bool.and_eq_true_iff.mp hmatch).1
  refine ⟨hfound, ⟨_, hopened⟩, ?_⟩
  simp only [read, hopened, get_slot h hd hslot, hword]

/-- No other file is opened itself. -/
theorem OpenOn.ownNames {s : Slot} {d : PciDevice} (h : OpenOn f root base vendor device s d) : s.OwnNames := by
  intro a ha
  obtain rfl : a = d.address := Option.some.inj (ha.symm.trans h.address)
  obtain ⟨path, hfile⟩ := h.file
  have hsame := Option.some.inj (hfile.symm.trans h.opened)
  have hnames := congrArg OpenFile.names hsame
  simp only [List.append_cancel_left_eq, List.cons.injEq, and_true] at hnames
  exact hnames

/-- A scan that ends well has listed the root, and has one find for each identified file. It ends well if for
    every identified file's address a file can be opened. That this is the identified file itself holds of all
    of them if they go by their addresses' own names, and only then; and then nothing keeps the scan from ending
    well. -/
theorem scan_identified (f : Files) (root : String) (vendor device : UInt16) :
    (∀ found f', f.scan root vendor device = (.ok found, f') →
      ∃ base buses, Lists f.storage.root root base buses) ∧
    ∀ base buses, Lists f.storage.root root base buses → DistinctNames buses →
      (∀ found f', f.scan root vendor device = (.ok found, f') → f'.storage = f.storage ∧
        List.Forall₂ (FoundFor f' root base vendor device) (identified buses vendor device) found) ∧
      ((∃ found f', f.scan root vendor device = (.ok found, f')) ↔
        ∀ s ∈ identified buses vendor device, ∀ a, s.address? = some a →
          ∃ file, openConfig f.storage.root root a = .ok file) ∧
      ((∃ found f', f.scan root vendor device = (.ok found, f') ∧
          List.Forall₂ (OpenOn f' root base vendor device) (identified buses vendor device) found) ↔
        ∀ s ∈ identified buses vendor device, s.OwnNames) := by
  refine ⟨fun found f' hscan => ?_, fun base buses h hd =>
    ⟨fun found f' => scan_eq_ok h, scan_isOk_iff h, ?_, fun hown => ?_⟩⟩
  · simp only [scan, Storage.scan] at hscan
    cases hl : f.storage.root.locate root with
    | error e =>
      simp only [hl, bind, Except.bind] at hscan
      cases hscan
    | ok base =>
      cases hn : f.storage.root.get base with
      | error e =>
        simp only [hl, hn, bind, Except.bind] at hscan
        cases hscan
      | ok n =>
        cases n with
        | directory buses => exact ⟨base, buses, hl, hn⟩
        | _ =>
          simp only [hl, hn, bind, Except.bind, Node.isDirectory] at hscan
          cases hscan
  · rintro ⟨found, f', -, hopen⟩ s hs
    obtain ⟨i, hi, rfl⟩ := List.getElem_of_mem hs
    exact (hopen.get hi (hopen.length_eq ▸ hi)).ownNames
  · obtain ⟨found, f', hscan⟩ := (scan_isOk_iff h).mpr fun s hs a ha => openConfig_own h hd hs (hown s hs) ha
    obtain ⟨hstorage, hfound⟩ := scan_eq_ok h hscan
    have h' : Lists f'.storage.root root base buses := hstorage ▸ h
    refine ⟨found, f', hscan, List.forall₂_iff_zip.mpr ⟨hfound.length_eq, fun {s d} hmem => ?_⟩⟩
    have hs := (List.of_mem_zip hmem).1
    exact ((List.forall₂_iff_zip.mp hfound).2 hmem).openOn h' hd hs (hown s hs)

/-- A machine with these bus directories below `/pci`. -/
def withBuses (buses : List (String × Node)) : Files :=
  { storage := { root := .directory [("pci", .directory buses)] } }

theorem lists_withBuses (buses : List (String × Node)) :
    Lists (withBuses buses).storage.root "/pci" ["pci"] buses := ⟨by rfl, by rfl⟩

def rootComplex : Node := .file [0x22, 0x10, 0x80, 0x14]

def otherDevice : Node := .file [0x86, 0x80, 0x80, 0x14]

/-- Two devices and a text, by the names that the system gives them. -/
def ownBuses : List (String × Node) :=
  [("00", .directory [("00.0", rootComplex), ("00.1", otherDevice)]), ("devices", .file [])]

theorem distinctNames_ownBuses : DistinctNames ownBuses := by
  refine ⟨by decide, fun bus files hbus => ?_⟩
  simp only [ownBuses, List.mem_cons, Prod.mk.injEq, Node.directory.injEq, reduceCtorEq, and_false,
    List.not_mem_nil, or_false] at hbus
  obtain ⟨-, rfl⟩ := hbus
  decide

theorem scan_identified_ownBuses : ∃ d f',
    (withBuses ownBuses).scan "/pci" 0x1022 0x1480 = (.ok [d], f') ∧ f'.read d.handle 0 = .ok 0x14801022 := by
  have hidentified : identified ownBuses 0x1022 0x1480 = [⟨"00", "00.0", rootComplex⟩] := by rfl
  have hown : ∀ s ∈ identified ownBuses 0x1022 0x1480, s.OwnNames := by
    rw [hidentified]
    intro s hs a ha
    obtain rfl := List.mem_singleton.mp hs
    obtain rfl : a = {} := Option.some.inj (ha.symm.trans (by rfl))
    decide
  obtain ⟨-, hlisted⟩ := scan_identified (withBuses ownBuses) "/pci" 0x1022 0x1480
  obtain ⟨-, -, hitself⟩ := hlisted ["pci"] ownBuses (lists_withBuses ownBuses) distinctNames_ownBuses
  obtain ⟨found, f', hscan, hopen⟩ := hitself.mpr hown
  rw [hidentified] at hopen
  cases hopen with
  | cons hd hnil =>
    cases hnil
    exact ⟨_, f', hscan, hd.word⟩

/-- The root complex is in a directory that also spells bus 0, and at its address there is something else. That
    is opened; without it nothing is. -/
def strayBuses : List (String × Node) :=
  [("0", .directory [("00.0", rootComplex)]), ("00", .directory [("00.0", otherDevice)])]

theorem scan_strayBuses : identified strayBuses 0x1022 0x1480 = [⟨"0", "00.0", rootComplex⟩] ∧
    ∃ d f', (withBuses strayBuses).scan "/pci" 0x1022 0x1480 = (.ok [d], f') ∧
      f'.read d.handle 0 = .ok 0x14808086 ∧ identity 0x1022 0x1480 ≠ 0x14808086 ∧
      ∃ e, (withBuses (strayBuses.take 1)).scan "/pci" 0x1022 0x1480 = (.error e, withBuses (strayBuses.take 1)) :=
  ⟨by rfl, _, _, by rfl, by rfl, by decide, _, by rfl⟩

end Files

end FirmwareMailbox
