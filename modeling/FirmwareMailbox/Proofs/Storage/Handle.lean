/-
  FirmwareMailbox.Proofs.Storage.Handle — words read and written through a handle.

  A handle that is open on a file (`Holds`) sees the file's octets. A write puts the overwritten octets in their
  place (`write_held`), after which the handle holds them, and a read finds the word or is too short
  (`read_held`). An access through a handle is no other than an access through a cursor, wherever the cursor was
  left (`through_cursor`).
-/

import FirmwareMailbox.Proofs.Storage.Word

namespace FirmwareMailbox

namespace Storage

namespace Node

/-- Where something is, something else can be put. -/
theorem put_of_get {tree x : Node} {ns : List String} (h : tree.get ns = .ok x) (n : Node) :
    ∃ new, put n tree ns = .ok new := by
  induction ns generalizing tree with
  | nil => exact ⟨n, rfl⟩
  | cons name rest ih =>
    cases tree with
    | directory entries =>
      simp only [get] at h
      cases hc : child? name entries with
      | none => rw [hc] at h; cases h
      | some old =>
        rw [hc] at h
        obtain ⟨new, hnew⟩ := ih h
        refine ⟨.directory (putEntry name new entries), ?_⟩
        rw [put_directory, hc, if_neg (by simp), Option.getD_some, hnew]
        rfl
    | _ => cases h

theorem putEntry_putEntry (name : String) (x y : Node) (entries : List (String × Node)) :
    putEntry name y (putEntry name x entries) = putEntry name y entries := by
  induction entries with
  | nil => simp [putEntry]
  | cons e rest ih =>
    by_cases he : e.1 = name
    · simp [putEntry, he]
    · simp [putEntry, he, ih]

/-- What is put somewhere second is all that stays there. -/
theorem put_put {a tree mid : Node} {ns : List String} (h : put a tree ns = .ok mid) (b : Node) :
    put b mid ns = put b tree ns := by
  induction ns generalizing tree mid with
  | nil => rfl
  | cons name rest ih =>
    -- the first put found the way or made its last entry, so the second finds the way
    obtain ⟨entries, made, rfl, rfl, hmade, hlast⟩ := put_cons h
    have hnone : ¬ (child? name entries = none ∧ rest ≠ []) := fun hn => hn.2 (hlast hn.1)
    have hchild : child? name (putEntry name made entries) = some made := by rw [child?_putEntry, if_pos rfl]
    simp only [put_directory, hchild, if_neg hnone, if_neg (show ¬ (some made = none ∧ rest ≠ []) by simp),
      Option.getD_some, ih hmade, putEntry_putEntry]

end Node

end Storage

open Storage

namespace Files

/-- The handle is open on `file`, and `bytes` are in it. -/
structure Holds (f : Files) (d : DeviceHandle) (file : OpenFile) (bytes : List UInt8) : Prop where
  opened : f.opened[d]? = some file
  content : f.storage.root.get file.names = .ok (.file bytes)

/-- The same files with other octets in an open one. -/
def refill (f : Files) (file : OpenFile) (bytes : List UInt8) : Files :=
  match Node.put (.file bytes) f.storage.root file.names with
  | .ok root => { f with storage := { f.storage with root := root } }
  | .error _ => f

variable {f : Files} {d : DeviceHandle} {file : OpenFile} {bytes : List UInt8}

theorem Holds.refill (h : f.Holds d file bytes) (new : List UInt8) : (f.refill file new).Holds d file new := by
  obtain ⟨root, hroot⟩ := Node.put_of_get h.content (.file new)
  have hrefill : f.refill file new = { f with storage := { f.storage with root := root } } := by
    simp only [Files.refill, hroot]
  rw [hrefill]
  exact ⟨h.opened, Node.get_put_self hroot⟩

theorem Holds.refill_refill (h : f.Holds d file bytes) (a b : List UInt8) :
    (f.refill file a).refill file b = f.refill file b := by
  obtain ⟨root, hroot⟩ := Node.put_of_get h.content (.file a)
  have hrefill : f.refill file a = { f with storage := { f.storage with root := root } } := by
    simp only [Files.refill, hroot]
  obtain ⟨root', hroot'⟩ := Node.put_of_get h.content (.file b)
  rw [hrefill]
  simp only [Files.refill, Node.put_put hroot, hroot']

theorem write_held (h : f.Holds d file bytes) (offset value : UInt32) :
    f.write d offset value = (.ok (), f.refill file (overwrite bytes offset.toNat (octetsOf value))) := by
  obtain ⟨root, hroot⟩ := Node.put_of_get h.content (.file (overwrite bytes offset.toNat (octetsOf value)))
  simp only [write, h.opened, h.content, Node.writeWord, hroot, Files.refill]

theorem read_held (h : f.Holds d file bytes) (offset : UInt32) : f.read d offset =
    match wordOf? (bytes.drop offset.toNat) with
    | some w => .ok w
    | none => .error (.access ⟨.reading offset, file.path, .shortRead⟩) := by
  simp only [read, h.opened, h.content, Node.readWord]
  cases wordOf? (bytes.drop offset.toNat) <;> rfl

/-- The word at an offset is there if all four octets are. -/
theorem read_word (h : f.Holds d file bytes) (offset : UInt32) :
    if offset.toNat + 4 ≤ bytes.length then
      ∃ w, f.read d offset = .ok w ∧ w.toNat = littleEndian ((bytes.drop offset.toNat).take 4)
    else f.read d offset = .error (.access ⟨.reading offset, file.path, .shortRead⟩) := by
  rw [read_held h]
  cases hw : wordOf? (bytes.drop offset.toNat) with
  | none =>
    have hlen := wordOf?_eq_none.mp hw
    rw [List.length_drop] at hlen
    rw [if_neg (by omega)]
  | some w =>
    obtain ⟨hlen, hword⟩ := octetsOf_prefix_iff.mp (wordOf?_eq_some.mp hw)
    rw [List.length_drop] at hlen
    rw [if_pos (by omega)]
    exact ⟨w, rfl, hword.symm⟩

/-- What was written is read again. -/
theorem read_write (h : f.Holds d file bytes) (offset value : UInt32) :
    (f.refill file (overwrite bytes offset.toNat (octetsOf value))).read d offset = .ok value := by
  rw [read_held (h.refill _), wordOf?_eq_some.mpr (prefix_drop_overwrite _ _ _)]

/-- Whoever opens the file to read the word finds what the handle finds. -/
theorem readWordAt_held (h : f.Holds d file bytes) {path : String}
    (hpath : f.storage.root.locate path = .ok file.names) (offset w : UInt32) :
    readWordAt f.storage.root path offset = .ok w ↔ f.read d offset = .ok w := by
  rw [read_held h]
  simp only [readWordAt, hpath, h.content, Node.readWord]
  cases wordOf? (bytes.drop offset.toNat) <;> simp

theorem write_comm (h : f.Holds d file bytes) {o o' : UInt32} (v v' : UInt32)
    (hapart : o.toNat + 4 ≤ o'.toNat ∨ o'.toNat + 4 ≤ o.toNat) :
    (f.write d o v).2.write d o' v' = (f.write d o' v').2.write d o v := by
  simp only [write_held h, write_held (h.refill _), h.refill_refill, overwrite_comm bytes (octetsOf v) o.toNat
    (octetsOf v') o'.toNat hapart]

/-! ## One access after the other -/

/-- What is asked of an open file. -/
inductive Access where
  | read (offset : UInt32)
  | write (offset value : UInt32)

namespace Access

/-- The access through a handle; the answer is the word read, if one was to be read. -/
def ask (d : DeviceHandle) : Access → Files → Except Error (Option UInt32) × Files
  | read offset, f => ((f.read d offset).map some, f)
  | write offset value, f => ((f.write d offset value).1.map fun _ => none, (f.write d offset value).2)

/-- The access through a cursor, which goes to the offset and on from there. -/
def through (path : String) : Access → Cursor → Except Error (Option UInt32) × Cursor
  | read offset, c =>
    let (octets?, c) := (c.seek offset.toNat).take 4
    match octets? with
    | some octets => (.ok (some (UInt32.ofNat (littleEndian octets))), c)
    | none => (.error (.access ⟨.reading offset, path, .shortRead⟩), c)
  | write offset value, c => (.ok none, (c.seek offset.toNat).putAll (octetsOf value))

/-- The answers to accesses one after the other. -/
def inTurn {σ : Type} (step : Access → σ → Except Error (Option UInt32) × σ) :
    List Access → σ → List (Except Error (Option UInt32)) × σ
  | [], s => ([], s)
  | a :: rest, s =>
    let (answer, s) := step a s
    let (answers, s) := inTurn step rest s
    (answer :: answers, s)

/-- Reading, whether or not there is a word, changes no octet. -/
theorem through_read_bytes (path : String) (offset : UInt32) (c : Cursor) :
    ((read offset).through path c).2.bytes = c.bytes := by
  refine Eq.trans ?_ (Cursor.take_bytes 4 (c.seek offset.toNat))
  simp only [through]
  split <;> rfl

/-- Wherever the cursor was left, the answer is the handle's, and so are the octets then. -/
theorem ask_through {c : Cursor} (h : f.Holds d file c.bytes) (a : Access) :
    (a.ask d f).1 = (a.through file.path c).1 ∧ (a.ask d f).2.Holds d file (a.through file.path c).2.bytes := by
  cases a with
  | read offset =>
    refine ⟨?_, by rw [through_read_bytes]; exact h⟩
    have hread := read_word h offset
    -- after the seek nothing is left of the place where the cursor was
    have htake := Cursor.seek_take c offset.toNat (n := 4) (by decide)
    simp only [ask, through, htake]
    by_cases hlen : offset.toNat + 4 ≤ c.bytes.length
    · rw [if_pos hlen] at hread
      obtain ⟨w, hw, hword⟩ := hread
      simp only [if_pos hlen, hw, ← hword, UInt32.ofNat_toNat]
      rfl
    · rw [if_neg hlen] at hread
      simp only [if_neg hlen, hread]
      rfl
  | write offset value =>
    have hput : (c.seek offset.toNat |>.putAll (octetsOf value)).bytes =
        overwrite c.bytes offset.toNat (octetsOf value) := Cursor.putAll_bytes _ _ (c.seek offset.toNat)
    simp only [ask, through, write_held h, hput]
    exact ⟨rfl, h.refill _⟩

/-- Accesses through a handle are accesses through a cursor, from whatever place. -/
theorem through_cursor {c : Cursor} (h : f.Holds d file c.bytes) (accesses : List Access) :
    (inTurn (ask d) accesses f).1 = (inTurn (through file.path) accesses c).1 ∧
      (inTurn (ask d) accesses f).2.Holds d file (inTurn (through file.path) accesses c).2.bytes := by
  induction accesses generalizing f c with
  | nil => exact ⟨rfl, h⟩
  | cons a rest ih =>
    obtain ⟨hanswer, hheld⟩ := ask_through h a
    obtain ⟨hanswers, hheld'⟩ := ih hheld
    exact ⟨congrArg₂ List.cons hanswer hanswers, hheld'⟩

end Access

open Access in
/-- A write replaces the four octets at its offset and no other, after zeros if the file ended before; a read
    finds the word there, or the file is too short for it, and then so it is for who opens the file to read the
    word. What was written is read; of two words apart either can be written first. Whatever was asked of the
    file before, the place that it was left at has no part in the answers. -/
theorem word_access (h : f.Holds d file bytes) :
    (∀ offset value : UInt32, ∃ f' new, f.write d offset value = (.ok (), f') ∧ f'.Holds d file new ∧
      new.length = max bytes.length (offset.toNat + 4) ∧
      (∀ i, new[i]? = if i < offset.toNat then some (bytes.getD i 0)
        else if i < offset.toNat + 4 then (octetsOf value)[i - offset.toNat]? else bytes[i]?) ∧
      littleEndian (octetsOf value) = value.toNat ∧ f'.read d offset = .ok value) ∧
    (∀ offset : UInt32, if offset.toNat + 4 ≤ bytes.length then
        ∃ w, f.read d offset = .ok w ∧ w.toNat = littleEndian ((bytes.drop offset.toNat).take 4)
      else f.read d offset = .error (.access ⟨.reading offset, file.path, .shortRead⟩)) ∧
    (∀ path, f.storage.root.locate path = .ok file.names → ∀ offset w : UInt32,
      readWordAt f.storage.root path offset = .ok w ↔ f.read d offset = .ok w) ∧
    (∀ o v o' v' : UInt32, o.toNat + 4 ≤ o'.toNat ∨ o'.toNat + 4 ≤ o.toNat →
      (f.write d o v).2.write d o' v' = (f.write d o' v').2.write d o v) ∧
    (∀ place accesses, (inTurn (ask d) accesses f).1 = (inTurn (through file.path) accesses ⟨bytes, place⟩).1 ∧
      (inTurn (ask d) accesses f).2.Holds d file (inTurn (through file.path) accesses ⟨bytes, place⟩).2.bytes) ∧
    (∀ place offset, ((Access.read offset).through file.path ⟨bytes, place⟩).2.bytes = bytes) := by
  refine ⟨fun offset value => ?_, read_word h, fun path hpath => readWordAt_held h hpath,
    fun o v o' v' => write_comm h v v', fun place => through_cursor (c := ⟨bytes, place⟩) h,
    fun place offset => through_read_bytes file.path offset ⟨bytes, place⟩⟩
  refine ⟨_, _, write_held h offset value, h.refill _, ?_, ?_, littleEndian_octetsOf value,
    read_write h offset value⟩
  · rw [length_overwrite, length_octetsOf]
  · intro i
    rw [getElem?_overwrite, length_octetsOf]

/-- One file of six octets, and a handle on it. -/
def sixOctets : Files :=
  { storage := { root := .directory [("04.0", .file [0x22, 0x10, 0x80, 0x14, 1, 2])] },
    opened := [⟨"/04.0", ["04.0"]⟩] }

theorem word_access_sixOctets : sixOctets.read 0 0 = .ok 0x14801022 ∧
    (∃ f', sixOctets.write 0 7 5 = (.ok (), f') ∧ f'.read 0 7 = .ok 5) ∧
    ∃ fault, sixOctets.read 0 3 = .error fault := by
  have h : sixOctets.Holds 0 ⟨"/04.0", ["04.0"]⟩ [0x22, 0x10, 0x80, 0x14, 1, 2] := ⟨rfl, rfl⟩
  obtain ⟨hwrite, hread, -⟩ := word_access h
  have hword := hread 0
  have hshort := hread 3
  rw [if_pos (by decide)] at hword
  rw [if_neg (by decide)] at hshort
  obtain ⟨w, hw, hvalue⟩ := hword
  have hid : w = 0x14801022 := UInt32.toNat_inj.mp (hvalue.trans (by decide))
  obtain ⟨f', new, hwritten, -, -, -, -, hback⟩ := hwrite 7 5
  exact ⟨hid ▸ hw, ⟨f', hwritten, hback⟩, _, hshort⟩

end Files

end FirmwareMailbox
