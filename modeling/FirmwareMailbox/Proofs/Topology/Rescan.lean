/-
  FirmwareMailbox.Proofs.Topology.Rescan — discovery after a scan does not depend on the order of directories.

  A scan opens the files that it finds, and a handle is the place of its file among those opened. If the
  directories list their entries in another order, the same device gets another handle. So discovery
  is a program that differs in the handles only (`ofDevices_renamed`), and each of its accesses reaches the
  same file, which holds the same octets (`Program.Renamed.run`).
-/

import FirmwareMailbox.Machine.Script
import FirmwareMailbox.Proofs.Storage.Relisting
import FirmwareMailbox.Proofs.Topology.Order

namespace FirmwareMailbox

/-! ## Programs that differ in the handles they use -/

/-- Two programs that make the same accesses, by other handles. -/
inductive Program.Renamed {α β : Type} (ρ : DeviceHandle → DeviceHandle → Prop) (R : α → β → Prop) :
    Program α → Program β → Prop
  | done {a : α} {b : β} : R a b → Renamed ρ R (.done a) (.done b)
  | read {h h' : DeviceHandle} (offset : UInt32) {next : Except Error UInt32 → Program α}
      {next' : Except Error UInt32 → Program β} : ρ h h' → (∀ x, Renamed ρ R (next x) (next' x)) →
      Renamed ρ R (.ask (.read h offset) next) (.ask (.read h' offset) next')
  | write {h h' : DeviceHandle} (offset value : UInt32) {next : Except Error Unit → Program α}
      {next' : Except Error Unit → Program β} : ρ h h' → (∀ x, Renamed ρ R (next x) (next' x)) →
      Renamed ρ R (.ask (.write h offset value) next) (.ask (.write h' offset value) next')

/-- The same access, by another handle, with the same reply. -/
inductive Event.Renamed (ρ : DeviceHandle → DeviceHandle → Prop) : Event → Event → Prop
  | read {h h' : DeviceHandle} (offset : UInt32) (x : Except Error UInt32) : ρ h h' →
      Renamed ρ ⟨.read h offset, x⟩ ⟨.read h' offset, x⟩
  | write {h h' : DeviceHandle} (offset value : UInt32) (x : Except Error Unit) : ρ h h' →
      Renamed ρ ⟨.write h offset value, x⟩ ⟨.write h' offset value, x⟩

/-- Two jobs that make the same accesses, by other handles, and fail alike. -/
def Job.Renamed {α β : Type} (ρ : DeviceHandle → DeviceHandle → Prop) (R : α → β → Prop) (j : Job α)
    (j' : Job β) : Prop := Program.Renamed ρ (SameEnd R) j.run j'.run

section

variable {ρ : DeviceHandle → DeviceHandle → Prop} {α β γ δ : Type} {R : α → β → Prop} {S : γ → δ → Prop}

theorem Program.Renamed.bind {p : Program α} {p' : Program β} {f : α → Program γ} {f' : β → Program δ}
    (h : Renamed ρ R p p') (hf : ∀ a b, R a b → Renamed ρ S (f a) (f' b)) :
    Renamed ρ S (p.bind f) (p'.bind f') := by
  induction h with
  | done hab => exact hf _ _ hab
  | read offset hh _ ih => exact .read offset hh ih
  | write offset value hh _ ih => exact .write offset value hh ih

namespace Job.Renamed

theorem pure {a : α} {b : β} (h : R a b) : Job.Renamed ρ R (Pure.pure a) (Pure.pure b) := .done (.ok h)

theorem throw (e : Error) : Job.Renamed ρ R (MonadExcept.throw e) (MonadExcept.throw e) := .done (.error e)

theorem bind {j : Job α} {j' : Job β} {f : α → Job γ} {f' : β → Job δ} (h : Job.Renamed ρ R j j')
    (hf : ∀ a b, R a b → Job.Renamed ρ S (f a) (f' b)) : Job.Renamed ρ S (j >>= f) (j' >>= f') := by
  refine Program.Renamed.bind h fun x y hxy => ?_
  cases hxy with
  | ok hab => exact hf _ _ hab
  | error e => exact .done (.error e)

theorem aperture_read {h h' : DeviceHandle} (hh : ρ h h') (a : Aperture) (address : UInt32) :
    Job.Renamed ρ Eq (a.read h address) (a.read h' address) := by
  refine Job.Renamed.bind (R := Eq) (.write _ _ hh fun x => .done (.refl (fun _ => rfl) x)) fun _ _ _ => ?_
  exact .read _ hh fun x => .done (.refl (fun _ => rfl) x)

end Job.Renamed

end

/-! ## Tables that differ in the handles of their tiles -/

namespace Topology

/-- The tile but for its handle. -/
def bare (t : Tile) : Tile := { t with handle := 0 }

/-- The same tile, by another handle. -/
structure SameTile (ρ : DeviceHandle → DeviceHandle → Prop) (x x' : Tile) : Prop where
  handle : ρ x.handle x'.handle
  bare : bare x = Topology.bare x'

/-- The same address, by another handle. -/
structure SameDevice (ρ : DeviceHandle → DeviceHandle → Prop) (d d' : PciDevice) : Prop where
  handle : ρ d.handle d'.handle
  address : d.address = d'.address

variable {ρ : DeviceHandle → DeviceHandle → Prop} {ds ds' : List PciDevice} {ts ts' : List Tile}

theorem map_bare (h : List.Forall₂ (SameTile ρ) ts ts') : ts.map bare = ts'.map bare := by
  induction h with
  | nil => rfl
  | cons hx _ ih => rw [List.map_cons, List.map_cons, hx.bare, ih]

/-- The addresses decide the order. -/
theorem byBus_renamed (h : List.Forall₂ (SameDevice ρ) ds ds') :
    List.Forall₂ (SameDevice ρ) (byBus ds) (byBus ds') := by
  obtain ⟨hlen, hzip⟩ := List.forall₂_iff_zip.mp h
  let before (p q : PciDevice × PciDevice) : Bool := p.1.address.bus ≤ q.1.address.bus
  let inOrder (a b : PciDevice) : Bool := a.address.bus ≤ b.address.bus
  have hl : ((ds.zip ds').mergeSort before).map Prod.fst = byBus ds := by
    rw [List.map_mergeSort (s := inOrder) fun _ _ _ _ => rfl, List.map_fst_zip (Nat.le_of_eq hlen)]
    rfl
  have hr : ((ds.zip ds').mergeSort before).map Prod.snd = byBus ds' := by
    rw [List.map_mergeSort (s := inOrder), List.map_snd_zip (Nat.le_of_eq hlen.symm)]
    · rfl
    · intro p hp q hq
      simp only [before, inOrder, (hzip hp).address, (hzip hq).address]
  rw [← hl, ← hr, List.forall₂_map_left_iff, List.forall₂_map_right_iff, List.forall₂_same]
  intro p hp
  exact hzip (List.mem_mergeSort.mp hp)

theorem sharedBus?_renamed (h : List.Forall₂ (SameDevice ρ) ds ds') :
    (sharedBus? ds).map (fun p => (p.1.address, p.2.address)) =
      (sharedBus? ds').map fun p => (p.1.address, p.2.address) := by
  induction h with
  | nil => rfl
  | @cons a a' rest rest' ha hrest ih =>
    cases hrest with
    | nil => rfl
    | cons hb hrest =>
      simp only [sharedBus?, ← ha.address, ← hb.address]
      split
      · simp only [Option.map_some, ha.address, hb.address]
      · exact ih

theorem tilesFrom_renamed (h : List.Forall₂ (SameDevice ρ) ds ds') (index : Nat) :
    List.Forall₂ (SameTile ρ) (tilesFrom index ds) (tilesFrom index ds') := by
  induction h generalizing index with
  | nil => exact .nil
  | cons hd hrest ih =>
    refine .cons ⟨hd.handle, ?_⟩ (ih _)
    cases hrest with
    | nil => simp only [bare, hd.address]
    | cons hnext _ => simp only [bare, hd.address, hnext.address]

theorem arrange_renamed (h : List.Forall₂ (SameDevice ρ) ds ds') :
    SameEnd (List.Forall₂ (SameTile ρ)) (arrange ds) (arrange ds') := by
  have hsorted := byBus_renamed h
  have hshared := sharedBus?_renamed hsorted
  unfold arrange
  simp only [h.length_eq]
  by_cases hc : ds'.length ≠ 4 ∧ ds'.length ≠ 8
  · rw [if_pos hc, if_pos hc]
    exact .error _
  rw [if_neg hc, if_neg hc]
  cases hs : sharedBus? (byBus ds) with
  | some p =>
    rw [hs] at hshared
    obtain ⟨p', hs', hp⟩ := Option.map_eq_some_iff.mp hshared.symm
    obtain ⟨ha, hb⟩ := Prod.mk.inj hp
    simp only [hs', ha, hb]
    exact .error _
  | none =>
    rw [hs] at hshared
    have hs' : sharedBus? (byBus ds') = none := Option.map_eq_none_iff.mp hshared.symm
    simp only [hs']
    revert hsorted
    generalize byBus ds = sorted
    generalize byBus ds' = sorted'
    intro hsorted
    cases hsorted with
    | nil => exact .error _
    | cons hd hrest =>
      simp only [hd.address]
      split
      · exact .error _
      · exact .ok (tilesFrom_renamed (.cons hd hrest) 0)

theorem index_renamed {x x' : Tile} (hx : SameTile ρ x x') : x.index = x'.index :=
  show (bare x).index = (bare x').index from by rw [hx.bare]

/-- What a claim looks at is not the handles. -/
theorem claim_bare (ts : List Tile) (ids : List (Option UInt8)) (x : Tile) (bus : UInt8) :
    claim (ts.map bare) ids (bare x) bus = claim ts ids x bus := by
  have hf : (ts.map bare).find? (·.covers bus) = (ts.find? (·.covers bus)).map bare := by
    rw [List.find?_map]
    rfl
  unfold claim
  rw [hf]
  cases ts.find? (·.covers bus) with
  | none => rfl
  | some owner => rfl

theorem claim_renamed (h : List.Forall₂ (SameTile ρ) ts ts') {x x' : Tile} (hx : SameTile ρ x x')
    (ids : List (Option UInt8)) (bus : UInt8) : claim ts ids x bus = claim ts' ids x' bus := by
  rw [← claim_bare ts, ← claim_bare ts', map_bare h, hx.bare]

theorem numberTiles_renamed (h : List.Forall₂ (SameTile ρ) ts ts') {rest rest' : List Tile}
    (hrest : List.Forall₂ (SameTile ρ) rest rest') (ids : List (Option UInt8)) :
    Job.Renamed ρ Eq (numberTiles ts rest ids) (numberTiles ts' rest' ids) := by
  induction hrest generalizing ids with
  | nil => exact .pure rfl
  | @cons x x' rest rest' hx _ ih =>
    have hindex : x.index = x'.index := index_renamed hx
    have hbus : Job.Renamed ρ Eq (reportedBus x) (reportedBus x') := by
      unfold reportedBus
      rw [hindex]
      refine (Job.Renamed.aperture_read hx.handle _ _).bind fun w _ hw => ?_
      subst hw
      exact .pure rfl
    refine hbus.bind fun bus _ hb => ?_
    subst hb
    rw [claim_renamed h hx, hindex]
    cases claim ts' ids x' bus with
    | error c => exact .throw _
    | ok place => exact ih _

theorem numbered_renamed (h : List.Forall₂ (SameTile ρ) ts ts') (ids : List (Option UInt8)) :
    List.Forall₂ (SameTile ρ) (ts.zipWith (fun t id => { t with id := id.getD 0 }) ids)
      (ts'.zipWith (fun t id => { t with id := id.getD 0 }) ids) := by
  induction h generalizing ids with
  | nil => exact .nil
  | @cons x x' rest rest' hx _ ih =>
    cases ids with
    | nil => exact .nil
    | cons id ids =>
      refine .cons ⟨hx.handle, ?_⟩ (ih ids)
      show { bare x with id := id.getD 0 } = { bare x' with id := id.getD 0 }
      rw [hx.bare]

/-- Discovery from the same addresses by other handles makes the same accesses, by those. -/
theorem ofDevices_renamed (h : List.Forall₂ (SameDevice ρ) ds ds') :
    Job.Renamed ρ (fun t t' => List.Forall₂ (SameTile ρ) t.tiles t'.tiles) (ofDevices ds) (ofDevices ds') := by
  unfold ofDevices
  rcases (arrange_renamed h).elim with ⟨ts, ts', ha, ha', hts⟩ | ⟨c, ha, ha'⟩
  · rw [ha, ha']
    have hids : ts.map (fun _ => (none : Option UInt8)) = ts'.map fun _ => none := by
      rw [List.map_const', List.map_const', hts.length_eq]
    simp only [hids]
    refine (numberTiles_renamed hts hts _).bind fun ids _ hids => ?_
    subst hids
    exact .pure (numbered_renamed hts ids)
  · rw [ha, ha']
    exact .throw _

end Topology

/-! ## Files in relisted directories -/

open Storage (OpenFile openConfig)

/-- The handles of one file, on two machines. -/
def SameFile (opened opened' : List OpenFile) (h h' : DeviceHandle) : Prop :=
  ∃ file, opened[h]? = some file ∧ opened'[h']? = some file

namespace Files

variable {f f' : Files} {h h' : DeviceHandle}

theorem read_relisted (ht : f.storage.root.Relisted f'.storage.root) (hh : SameFile f.opened f'.opened h h')
    (offset : UInt32) : f.read h offset = f'.read h' offset := by
  obtain ⟨file, hf, hf'⟩ := hh
  unfold read
  simp only [hf, hf']
  rcases (ht.get file.names).elim with ⟨n, n', hg, hg', hn⟩ | ⟨e, hg, hg'⟩
  · simp only [hg, hg', hn.readWord]
  · simp only [hg, hg']

theorem write_relisted (ht : f.storage.root.Relisted f'.storage.root) (hh : SameFile f.opened f'.opened h h')
    (offset value : UInt32) :
    (f.write h offset value).1 = (f'.write h' offset value).1 ∧
      (f.write h offset value).2.opened = f.opened ∧ (f'.write h' offset value).2.opened = f'.opened ∧
      (f.write h offset value).2.storage.root.Relisted (f'.write h' offset value).2.storage.root := by
  obtain ⟨file, hf, hf'⟩ := hh
  unfold write
  simp only [hf, hf']
  rcases (ht.get file.names).elim with ⟨n, n', hg, hg', hn⟩ | ⟨e, hg, hg'⟩
  · simp only [hg, hg', hn.writeWord]
    cases n'.writeWord file.path offset value with
    | error fault => exact ⟨rfl, rfl, rfl, ht⟩
    | ok new =>
      rcases (ht.put new file.names).elim with ⟨t, t', hp, hp', hr⟩ | ⟨e, hp, hp'⟩
      · simp only [hp, hp']
        exact ⟨trivial, trivial, trivial, hr⟩
      · simp only [hp, hp']
        exact ⟨trivial, trivial, trivial, ht⟩
  · simp only [hg, hg']
    exact ⟨trivial, trivial, trivial, ht⟩

end Files

namespace Script

/-- Machines that have these files open, in trees that may list them in another order. -/
structure Relisted (opened opened' : List OpenFile) (m m' : State) : Prop where
  source : m.source.isSome = true
  source' : m'.source.isSome = true
  opened : m.files.opened = opened
  opened' : m'.files.opened = opened'
  tree : m.files.storage.root.Relisted m'.files.storage.root

variable {opened opened' : List OpenFile} {m m' : State} {h h' : DeviceHandle}

theorem Relisted.read (hm : Relisted opened opened' m m') (hh : SameFile opened opened' h h') (offset : UInt32) :
    (m.read h offset).1 = (m'.read h' offset).1 ∧
      Relisted opened opened' (m.read h offset).2 (m'.read h' offset).2 := by
  obtain ⟨s, hs⟩ := Option.isSome_iff_exists.mp hm.source
  obtain ⟨s', hs'⟩ := Option.isSome_iff_exists.mp hm.source'
  simp only [State.read, hs, hs']
  refine ⟨Files.read_relisted hm.tree ?_ offset, hm⟩
  rwa [hm.opened, hm.opened']

theorem Relisted.write (hm : Relisted opened opened' m m') (hh : SameFile opened opened' h h')
    (offset value : UInt32) :
    (m.write h offset value).1 = (m'.write h' offset value).1 ∧
      Relisted opened opened' (m.write h offset value).2 (m'.write h' offset value).2 := by
  obtain ⟨s, hs⟩ := Option.isSome_iff_exists.mp hm.source
  obtain ⟨s', hs'⟩ := Option.isSome_iff_exists.mp hm.source'
  have hh' : SameFile m.files.opened m'.files.opened h h' := by rwa [hm.opened, hm.opened']
  obtain ⟨hx, ho, ho', ht⟩ := Files.write_relisted hm.tree hh' offset value
  simp only [State.write, hs, hs']
  exact ⟨hx, rfl, rfl, ho.trans hm.opened, ho'.trans hm.opened', ht⟩

/-- A run by other handles reaches the same files, and finds the same in them. -/
theorem run_renamed {α β : Type} {R : α → β → Prop} {p : Program α} {p' : Program β} (w w' : World State)
    (hp : p.Renamed (SameFile opened opened') R p') (hm : Relisted opened opened' w.machine w'.machine) :
    R (Program.run (World.answer machine) p w).1 (Program.run (World.answer machine) p' w').1 ∧
      List.Forall₂ (Event.Renamed (SameFile opened opened'))
        (Program.transcript (World.answer machine) p w) (Program.transcript (World.answer machine) p' w') := by
  induction hp generalizing w w' with
  | done hab => exact ⟨hab, .nil⟩
  | @read h h' offset next next' hh _ ih =>
    obtain ⟨hx, hm⟩ := hm.read hh offset
    obtain ⟨hr, hes⟩ := ih (w.machine.read h offset).1
      (World.answer machine (.read h offset) w).2 (World.answer machine (.read h' offset) w').2 hm
    change R (Program.run _ (next (w.machine.read h offset).1) _).1
        (Program.run _ (next' (w'.machine.read h' offset).1) _).1 ∧
      List.Forall₂ _ (⟨.read h offset, (w.machine.read h offset).1⟩ ::
          Program.transcript _ (next (w.machine.read h offset).1) _)
        (⟨.read h' offset, (w'.machine.read h' offset).1⟩ ::
          Program.transcript _ (next' (w'.machine.read h' offset).1) _)
    rw [← hx]
    exact ⟨hr, .cons (.read offset _ hh) hes⟩
  | @write h h' offset value next next' hh _ ih =>
    obtain ⟨hx, hm⟩ := hm.write hh offset value
    obtain ⟨hr, hes⟩ := ih (w.machine.write h offset value).1
      (World.answer machine (.write h offset value) w).2 (World.answer machine (.write h' offset value) w').2 hm
    change R (Program.run _ (next (w.machine.write h offset value).1) _).1
        (Program.run _ (next' (w'.machine.write h' offset value).1) _).1 ∧
      List.Forall₂ _ (⟨.write h offset value, (w.machine.write h offset value).1⟩ ::
          Program.transcript _ (next (w.machine.write h offset value).1) _)
        (⟨.write h' offset value, (w'.machine.write h' offset value).1⟩ ::
          Program.transcript _ (next' (w'.machine.write h' offset value).1) _)
    rw [← hx]
    exact ⟨hr, .cons (.write offset value _ hh) hes⟩

end Script

/-! ## From the scan to the table -/

open Storage (Rescanned SameFind opened_of_handles)

/-- The same finds are opened as the same files. -/
theorem sameDevices {opened : List OpenFile} {found mid found' : List (PciDevice × OpenFile)}
    (hp : found.Perm mid) (hs : List.Forall₂ SameFind mid found')
    (h : found.map (·.1.handle) = List.range' opened.length found.length)
    (h' : found'.map (·.1.handle) = List.range' opened.length found'.length) :
    List.Forall₂ (Topology.SameDevice (SameFile (opened ++ found.map (·.2)) (opened ++ found'.map (·.2))))
      (mid.map (·.1)) (found'.map (·.1)) := by
  rw [List.forall₂_map_left_iff, List.forall₂_map_right_iff]
  refine List.forall₂_iff_zip.mpr ⟨hs.length_eq, fun {x y} hxy => ?_⟩
  obtain ⟨hx, hy⟩ := List.of_mem_zip hxy
  obtain ⟨ha, hf⟩ := (List.forall₂_iff_zip.mp hs).2 hxy
  refine ⟨⟨x.2, opened_of_handles h (hp.mem_iff.mpr hx), ?_⟩, ha⟩
  rw [hf]
  exact opened_of_handles h' hy

namespace Topology

/-- How discovery ends if it starts from the scans of relisted directories. Where it names what came first,
    the directories decide what that is: which of the files that cannot be opened, which of the
    devices on one bus. -/
inductive Rediscovered (tree : Storage.Node) (root : String) :
    Except Error Topology → Except Error Topology → Prop
  | table {t t' : Topology} : t.tiles.map bare = t'.tiles.map bare → Rediscovered tree root (.ok t) (.ok t')
  | refused (e : Error) : Rediscovered tree root (.error e) (.error e)
  | unopened {a a' : PciAddress} {f f' : AccessFault} : openConfig tree root a = .error f →
      openConfig tree root a' = .error f' →
      Rediscovered tree root (.error (.access f)) (.error (.access f'))
  | shared {a b a' b' : PciAddress} {bus : UInt8} :
      a.bus = bus → b.bus = bus → a'.bus = bus → b'.bus = bus →
      Rediscovered tree root (.error (.topology (.sharedBus a b))) (.error (.topology (.sharedBus a' b')))

/-- The scans of two machines end alike, and what discovery starts from is open there by other handles. -/
theorem scans_relisted {m m' : Script.State} {root cpuInfo : String} (hs : m.source = some (root, cpuInfo))
    (hs' : m'.source = some (root, cpuInfo)) (ho : m'.files.opened = m.files.opened)
    (ht : m.files.storage.root.Relisted m'.files.storage.root) :
    (∃ e e', (m.scan).1 = .error e ∧ (m'.scan).1 = .error e' ∧
      Rediscovered m.files.storage.root root (.error e) (.error e')) ∨
    ∃ ds mid ds' opened opened', (m.scan).1 = .ok ds ∧ (m'.scan).1 = .ok ds' ∧ ds.Perm mid ∧
      List.Forall₂ (SameDevice (SameFile opened opened')) mid ds' ∧
      Script.Relisted opened opened' m.scan.2 m'.scan.2 := by
  have hscan := Storage.scan_relisted ht root Register.rootComplexVendor Register.rootComplexDevice
    m.files.opened.length
  simp only [Script.State.scan, Files.scan, hs, hs', ho]
  revert hscan
  generalize Storage.scan m.files.storage.root root _ _ _ = x
  generalize Storage.scan m'.files.storage.root root _ _ _ = x'
  intro hscan
  cases hscan with
  | unlisted e => exact Or.inl ⟨_, _, rfl, rfl, .refused _⟩
  | unopened hf hf' => exact Or.inl ⟨_, _, rfl, rfl, .unopened hf hf'⟩
  | found hp hsame hh hh' =>
    right
    refine ⟨_, _, _, _, _, rfl, rfl, hp.map _, sameDevices hp hsame hh hh', ?_⟩
    exact ⟨rfl, rfl, rfl, rfl, ht⟩

section

variable {μ : Type} {M : Machine μ} {w : World μ}

theorem run_scanned {ds : List PciDevice} (h : (M.devices w.machine).1 = .ok ds) :
    World.run M (Job.devices >>= ofDevices) w =
        World.run M (ofDevices ds) { w with machine := (M.devices w.machine).2 } ∧
      World.transcript M (Job.devices >>= ofDevices) w =
        ⟨.devices, .ok ds⟩ ::
          World.transcript M (ofDevices ds) { w with machine := (M.devices w.machine).2 } := by
  change Program.run _ (ExceptT.bindCont ofDevices (M.devices w.machine).1) _ = _ ∧
    ⟨.devices, (M.devices w.machine).1⟩ ::
      Program.transcript _ (ExceptT.bindCont ofDevices (M.devices w.machine).1) _ = _
  rw [h]
  exact ⟨rfl, rfl⟩

theorem run_unscanned {e : Error} (h : (M.devices w.machine).1 = .error e) :
    (World.run M (Job.devices >>= ofDevices) w).1 = .error e ∧
      World.transcript M (Job.devices >>= ofDevices) w = [⟨.devices, .error e⟩] := by
  change (Program.run _ (ExceptT.bindCont ofDevices (M.devices w.machine).1) _).1 = _ ∧
    ⟨.devices, (M.devices w.machine).1⟩ ::
      Program.transcript _ (ExceptT.bindCont ofDevices (M.devices w.machine).1) _ = _
  rw [h]
  exact ⟨rfl, rfl⟩

end

/-- The text of the error that names two devices on one bus. -/
def sharingText (left right : String) (bus : UInt8) : String :=
  "Topology discovery failed: " ++
    ("IOHC devices " ++ left ++ " and " ++ right ++ " share bus " ++ hexByte bus.toNat)

theorem message_sharedBus {a b : PciAddress} {bus : UInt8} (h : a.bus = bus) :
    (Error.topology (.sharedBus a b)).message = sharingText a.text b.text bus := by
  subst h
  rfl

theorem Rediscovered.of_sameEnd {tree : Storage.Node} {root : String} {r r' : Except Error Topology}
    (h : SameEnd (fun t t' => List.Forall₂ (SameTile ρ) t.tiles t'.tiles) r r') :
    Rediscovered tree root r r' := by
  cases h with
  | ok ht => exact .table (map_bare ht)
  | error e => exact .refused e

/-- Discovery goes the same way from the scans of relisted directories. -/
theorem rediscovered {w w' : World Script.State} {root cpuInfo : String}
    (hs : w.machine.source = some (root, cpuInfo)) (hs' : w'.machine.source = some (root, cpuInfo))
    (ho : w'.machine.files.opened = w.machine.files.opened)
    (ht : w.machine.files.storage.root.Relisted w'.machine.files.storage.root) :
    Rediscovered w.machine.files.storage.root root
        (World.run Script.machine (Job.devices >>= ofDevices) w).1
        (World.run Script.machine (Job.devices >>= ofDevices) w').1 ∧
      ∃ x x' es es',
        World.transcript Script.machine (Job.devices >>= ofDevices) w = ⟨.devices, x⟩ :: es ∧
        World.transcript Script.machine (Job.devices >>= ofDevices) w' = ⟨.devices, x'⟩ :: es' ∧
        List.Forall₂ (Event.Renamed (SameFile w.machine.scan.2.files.opened w'.machine.scan.2.files.opened))
          es es' := by
  rcases scans_relisted hs hs' ho ht with
    ⟨e, e', he, he', hr⟩ | ⟨ds, mid, ds', opened, opened', hd, hd', hp, hsame, hm⟩
  · obtain ⟨hx, hes⟩ := run_unscanned (M := Script.machine) he
    obtain ⟨hx', hes'⟩ := run_unscanned (M := Script.machine) he'
    rw [hx, hx']
    exact ⟨hr, _, _, [], [], hes, hes', .nil⟩
  · obtain ⟨hx, hes⟩ := run_scanned (M := Script.machine) hd
    obtain ⟨hx', hes'⟩ := run_scanned (M := Script.machine) hd'
    obtain ⟨hend, hall⟩ := Script.run_renamed { w with machine := w.machine.scan.2 }
      { w' with machine := w'.machine.scan.2 } (ofDevices_renamed hsame) hm
    rw [hx, hx', hm.opened, hm.opened']
    rcases ofDevices_perm hp with heq | ⟨a, b, a', b', bus, hab, hab', he, he'⟩
    · rw [← heq] at hend hall
      exact ⟨.of_sameEnd hend, _, _, _, _, hes, hes', hall⟩
    · rw [he'] at hend hall
      rw [he] at hes ⊢
      refine ⟨?_, _, _, _, _, hes, hes', hall⟩
      rcases hend.elim with ⟨t, t', ht, -, -⟩ | ⟨e, heq, heq'⟩
      · cases ht
      · obtain rfl := Except.error.inj heq
        have hr : (World.run Script.machine (ofDevices ds') { w' with machine := w'.machine.scan.2 }).1 =
            .error (.topology (.sharedBus a' b')) := heq'
        change Rediscovered _ _ _ (World.run Script.machine (ofDevices ds')
          { w' with machine := w'.machine.scan.2 }).1
        rw [hr]
        exact .shared hab.bus_left hab.bus_right hab'.bus_left hab'.bus_right

/-- Discovery from two orders of the same devices goes the same way on every machine: the same accesses with
    the same replies, and the same table or the same error. Only if two devices share a bus does the order
    decide which are named, before anything is accessed. So it is with the order in which directories
    list their entries, whatever handles the files get. -/
theorem discovery_ignores_order :
    (∀ {devices devices' : List PciDevice}, devices.Perm devices' →
      (∀ {μ : Type} (M : Machine μ) (w : World μ),
        World.run M (ofDevices devices) w = World.run M (ofDevices devices') w ∧
        World.transcript M (ofDevices devices) w = World.transcript M (ofDevices devices') w) ∨
      ∃ a b a' b' bus, Sharing devices a b bus ∧ Sharing devices' a' b' bus ∧
        (Error.topology (.sharedBus a b)).message = sharingText a.text b.text bus ∧
        (Error.topology (.sharedBus a' b')).message = sharingText a'.text b'.text bus ∧
        ∀ {μ : Type} (M : Machine μ) (w : World μ),
          World.run M (ofDevices devices) w = (.error (.topology (.sharedBus a b)), w) ∧
          World.transcript M (ofDevices devices) w = [] ∧
          World.run M (ofDevices devices') w = (.error (.topology (.sharedBus a' b')), w) ∧
          World.transcript M (ofDevices devices') w = []) ∧
    ∀ (w w' : World Script.State) (root cpuInfo : String),
      w.machine.source = some (root, cpuInfo) → w'.machine.source = some (root, cpuInfo) →
      w'.machine.files.opened = w.machine.files.opened →
      w.machine.files.storage.root.Relisted w'.machine.files.storage.root →
      Rediscovered w.machine.files.storage.root root
        (World.run Script.machine (Job.devices >>= ofDevices) w).1
        (World.run Script.machine (Job.devices >>= ofDevices) w').1 ∧
      ∃ x x' es es',
        World.transcript Script.machine (Job.devices >>= ofDevices) w = ⟨.devices, x⟩ :: es ∧
        World.transcript Script.machine (Job.devices >>= ofDevices) w' = ⟨.devices, x'⟩ :: es' ∧
        List.Forall₂ (Event.Renamed (SameFile w.machine.scan.2.files.opened w'.machine.scan.2.files.opened))
          es es' := by
  refine ⟨fun {devices devices'} h => ?_, fun w w' root cpuInfo => rediscovered⟩
  rcases ofDevices_perm h with heq | ⟨a, b, a', b', bus, hs, hs', he, he'⟩
  · left
    intro μ M w
    rw [heq]
    exact ⟨rfl, rfl⟩
  · right
    refine ⟨a, b, a', b', bus, hs, hs', message_sharedBus hs.bus_left, message_sharedBus hs'.bus_left, ?_⟩
    intro μ M w
    rw [he, he']
    exact ⟨rfl, rfl, rfl, rfl⟩

/-- The configuration file of a root complex whose register names this bus, whichever is asked for. -/
def complexFile (bus : UInt8) : Storage.Node :=
  .file ([0x22, 0x10, 0x80, 0x14] ++ List.replicate 96 0 ++ [bus, 0, 0, 0])

/-- A machine of root complexes, each in the directory of its bus. -/
def listing (buses : List (String × UInt8)) : World Script.State where
  machine :=
    { sockets := []
      devices := []
      found := []
      cpus := .error (.bus .deviceRemoved)
      files := { storage := { root := .directory [("pci", .directory
        (buses.map fun (name, bus) => (name, .directory [("00.0", complexFile bus)])))] } }
      source := some ("/pci", "/cpus") }

def fourBuses : List (String × UInt8) := [("00", 0), ("40", 0x40), ("80", 0x80), ("c0", 0xC0)]

theorem crossed_and_listing_rediscovered :
    (World.run Simulation.machine (ofDevices crossed.found.reverse) ⟨crossed, {}⟩).1 = .ok crossedTable ∧
      Rediscovered (listing fourBuses).machine.files.storage.root "/pci"
        (World.run Script.machine (Job.devices >>= ofDevices) (listing fourBuses)).1
        (World.run Script.machine (Job.devices >>= ofDevices) (listing fourBuses.reverse)).1 := by
  constructor
  · rcases discovery_ignores_order.1 (List.reverse_perm crossed.found) with
      hsame | ⟨_, _, _, _, _, -, -, -, -, hrun⟩
    · rw [(hsame Simulation.machine _).1, run_crossed]
    · have hr := run_crossed
      rw [(hrun Simulation.machine ⟨crossed, {}⟩).2.2.1] at hr
      cases hr
  · refine (discovery_ignores_order.2 (listing fourBuses) (listing fourBuses.reverse) "/pci" "/cpus"
      rfl rfl rfl ?_).1
    refine .entry "pci" [] [] (.order ?_ ?_)
    · decide +kernel
    · exact (List.reverse_perm fourBuses).symm.map _

end Topology

end FirmwareMailbox
