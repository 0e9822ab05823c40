/-
  FirmwareMailbox.Proofs.Storage.Word — words in a configuration file.

  A word is four octets, the lowest first, and `littleEndian` is the number that they make. A written word
  replaces the four octets at its offset and nothing else; octets between the end of the file and the offset
  become zero (`getElem?_overwrite`).

  The system keeps a place in an open file, from which it goes on octet by octet (`Cursor`). Every access first
  goes to its own offset (`Cursor.seek_take`, `Cursor.putAll_bytes`), so the place that the one before left it at
  does not count.
-/

import FirmwareMailbox.Machine.Files
import FirmwareMailbox.Proofs.Storage.Relisting
import Mathlib.Data.Nat.Digits.Defs

namespace FirmwareMailbox

namespace Storage

/-- The number that octets make, the lowest first. -/
def littleEndian (bytes : List UInt8) : Nat := Nat.ofDigits 256 (bytes.map UInt8.toNat)

/-! ## Octets of a word -/

theorem or_shiftLeft {x k : Nat} (hx : x < 2 ^ k) (y : Nat) : x ||| y <<< k = x + 2 ^ k * y := by
  rw [Nat.or_comm, ← Nat.shiftLeft_add_eq_or_of_lt hx, Nat.shiftLeft_eq, Nat.add_comm, Nat.mul_comm]

theorem littleEndian_word (a b c d : UInt8) :
    (a.toUInt32 ||| (b.toUInt32 <<< 8) ||| (c.toUInt32 <<< 16) ||| (d.toUInt32 <<< 24)).toNat =
      littleEndian [a, b, c, d] := by
  have ha := a.toNat_lt
  have hb := b.toNat_lt
  have hc := c.toNat_lt
  have hd := d.toNat_lt
  have hb' : b.toNat <<< 8 < 2 ^ 32 := by rw [Nat.shiftLeft_eq]; omega
  have hc' : c.toNat <<< 16 < 2 ^ 32 := by rw [Nat.shiftLeft_eq]; omega
  have hd' : d.toNat <<< 24 < 2 ^ 32 := by rw [Nat.shiftLeft_eq]; omega
  simp only [UInt32.toNat_or, UInt32.toNat_shiftLeft, UInt8.toNat_toUInt32, UInt32.reduceToNat, Nat.reduceMod,
    Nat.mod_eq_of_lt hb', Nat.mod_eq_of_lt hc', Nat.mod_eq_of_lt hd']
  rw [or_shiftLeft (k := 8) ha, or_shiftLeft (k := 16) (by omega), or_shiftLeft (k := 24) (by omega)]
  simp only [littleEndian, List.map_cons, List.map_nil, Nat.ofDigits_cons, Nat.ofDigits_nil]
  omega

theorem littleEndian_octetsOf (w : UInt32) : littleEndian (octetsOf w) = w.toNat := by
  have hw := w.toNat_lt
  simp only [littleEndian, octetsOf, List.map_cons, List.map_nil, Nat.ofDigits_cons, Nat.ofDigits_nil,
    UInt32.toNat_toUInt8, UInt32.toNat_shiftRight, Nat.shiftRight_eq_div_pow, UInt32.reduceToNat,
    Nat.reduceMod, Nat.reducePow]
  omega

@[simp] theorem length_octetsOf (w : UInt32) : (octetsOf w).length = 4 := rfl

/-- Four octets are those of the word that they make. -/
theorem octetsOf_eq_iff {a b c d : UInt8} {w : UInt32} :
    octetsOf w = [a, b, c, d] ↔ littleEndian [a, b, c, d] = w.toNat := by
  constructor
  · intro h
    rw [← h, littleEndian_octetsOf]
  · intro h
    have ha := a.toNat_lt
    have hb := b.toNat_lt
    have hc := c.toNat_lt
    have hd := d.toNat_lt
    simp only [littleEndian, List.map_cons, List.map_nil, Nat.ofDigits_cons, Nat.ofDigits_nil] at h
    simp only [octetsOf, List.cons.injEq, and_true]
    refine ⟨?_, ?_, ?_, ?_⟩
    all_goals
      apply UInt8.toNat_inj.mp
      simp only [UInt32.toNat_toUInt8, UInt32.toNat_shiftRight, Nat.shiftRight_eq_div_pow, UInt32.reduceToNat,
        Nat.reduceMod, Nat.reducePow]
      omega

theorem wordOf?_eq_some {bytes : List UInt8} {w : UInt32} : wordOf? bytes = some w ↔ octetsOf w <+: bytes := by
  match bytes with
  | [] | [_] | [_, _] | [_, _, _] =>
    refine iff_of_false (by simp [wordOf?]) fun h => ?_
    have hlen := h.length_le
    simp at hlen
  | a :: b :: c :: d :: rest =>
    have hstart : octetsOf w <+: a :: b :: c :: d :: rest ↔ octetsOf w = [a, b, c, d] := by
      rw [List.prefix_iff_eq_take]
      rfl
    rw [hstart, octetsOf_eq_iff, ← littleEndian_word, wordOf?, Option.some.injEq, UInt32.toNat_inj]

theorem wordOf?_eq_none {bytes : List UInt8} : wordOf? bytes = none ↔ bytes.length < 4 := by
  match bytes with
  | [] | [_] | [_, _] | [_, _, _] => simp [wordOf?]
  | a :: b :: c :: d :: rest => simp [wordOf?]

/-- A prefix of four octets, as the number that it makes. -/
theorem octetsOf_prefix_iff {bytes : List UInt8} {w : UInt32} :
    octetsOf w <+: bytes ↔ 4 ≤ bytes.length ∧ littleEndian (bytes.take 4) = w.toNat := by
  rw [List.prefix_iff_eq_take]
  match bytes with
  | [] | [_] | [_, _] | [_, _, _] => simp [octetsOf]
  | a :: b :: c :: d :: rest =>
    have hlen : 4 ≤ (a :: b :: c :: d :: rest).length := by simp
    rw [and_iff_right hlen, length_octetsOf]
    exact octetsOf_eq_iff

/-! ## Overwriting -/

section

variable (bytes new : List UInt8) (offset i : Nat)

theorem getElem?_overwrite : (overwrite bytes offset new)[i]? =
    if i < offset then some (bytes.getD i 0)
    else if i < offset + new.length then new[i - offset]? else bytes[i]? := by
  have hlen : ((bytes ++ List.replicate (offset - bytes.length) 0).take offset).length = offset := by
    simp only [List.length_take, List.length_append, List.length_replicate]
    omega
  rw [overwrite, List.append_assoc, List.getElem?_append, hlen]
  split
  · rename_i hi
    rw [List.getElem?_take_of_lt hi, List.getD_eq_getElem?_getD]
    by_cases hb : i < bytes.length
    · rw [List.getElem?_append_left hb, List.getElem?_eq_getElem hb, Option.getD_some]
    · rw [List.getElem?_append_right (by omega), List.getElem?_replicate, if_pos (by omega),
        List.getElem?_eq_none (by omega), Option.getD_none]
  · rw [List.getElem?_append]
    by_cases hi : i < offset + new.length
    · rw [if_pos hi, if_pos (by omega)]
    · rw [if_neg hi, if_neg (by omega), List.getElem?_drop]
      congr 1
      omega

theorem length_overwrite : (overwrite bytes offset new).length = max bytes.length (offset + new.length) := by
  simp only [overwrite, List.length_append, List.length_take, List.length_replicate, List.length_drop]
  omega

/-- What was written can be read. -/
theorem prefix_drop_overwrite : new <+: (overwrite bytes offset new).drop offset := by
  rw [List.prefix_iff_getElem?]
  intro i hi
  rw [List.getElem?_drop, getElem?_overwrite, if_neg (by omega), if_pos (by omega), Nat.add_sub_cancel_left,
    List.getElem?_eq_getElem hi]

/-- Of two texts that do not overlap, either can be written first. -/
theorem overwrite_comm (new' : List UInt8) (offset' : Nat)
    (h : offset + new.length ≤ offset' ∨ offset' + new'.length ≤ offset) :
    overwrite (overwrite bytes offset new) offset' new' = overwrite (overwrite bytes offset' new') offset new := by
  apply List.ext_getElem?
  intro i
  simp only [getElem?_overwrite, List.getD_eq_getElem?_getD]
  grind

end

/-- An octet and then what follows it. -/
theorem overwrite_cons (bytes : List UInt8) (offset : Nat) (b : UInt8) (new : List UInt8) :
    overwrite (overwrite bytes offset [b]) (offset + 1) new = overwrite bytes offset (b :: new) := by
  apply List.ext_getElem?
  intro i
  simp only [getElem?_overwrite, List.getD_eq_getElem?_getD, List.getElem?_cons, List.length_cons, List.length_nil]
  grind

/-! ## A place in the file -/

/-- An open file as the system keeps it: its octets, and the place of the next one. -/
structure Cursor where
  bytes : List UInt8
  place : Nat

namespace Cursor

def seek (place : Nat) (c : Cursor) : Cursor := { c with place }

/-- The next `n` octets, one after the other, if there are so many. -/
def take : Nat → Cursor → Option (List UInt8) × Cursor
  | 0, c => (some [], c)
  | n + 1, c =>
    match c.bytes[c.place]? with
    | none => (none, c)
    | some b =>
      let (rest, c) := take n { c with place := c.place + 1 }
      (rest.map (b :: ·), c)

/-- Writes one octet; zeros fill the gap if the place is past the end. -/
def put (b : UInt8) (c : Cursor) : Cursor :=
  if c.place < c.bytes.length then ⟨c.bytes.set c.place b, c.place + 1⟩
  else ⟨c.bytes ++ List.replicate (c.place - c.bytes.length) 0 ++ [b], c.place + 1⟩

def putAll (new : List UInt8) (c : Cursor) : Cursor := new.foldl (fun c b => c.put b) c

theorem take_bytes (n : Nat) (c : Cursor) : (c.take n).2.bytes = c.bytes := by
  induction n generalizing c with
  | zero => rfl
  | succ n ih =>
    simp only [take]
    split
    · rfl
    · exact ih _

theorem take_octets (n : Nat) (c : Cursor) : (c.take n).1 =
    if c.place + n ≤ c.bytes.length ∨ n = 0 then some ((c.bytes.drop c.place).take n) else none := by
  induction n generalizing c with
  | zero => simp [take]
  | succ n ih =>
    simp only [take]
    split
    · rename_i hnone
      rw [List.getElem?_eq_none_iff] at hnone
      rw [if_neg (by omega)]
    · rename_i b hb
      obtain ⟨hlt, rfl⟩ := List.getElem?_eq_some_iff.mp hb
      simp only [ih, List.drop_eq_getElem_cons hlt, List.take_succ_cons]
      by_cases hn : c.place + (n + 1) ≤ c.bytes.length
      · rw [if_pos (Or.inl (by omega)), if_pos (Or.inl hn), Option.map_some]
      · rw [if_neg (by omega), if_neg (by omega), Option.map_none]

/-- From where one went to, the octets are there if the last of them is. -/
theorem seek_take (c : Cursor) (place : Nat) {n : Nat} (hn : 0 < n) : ((c.seek place).take n).1 =
    if place + n ≤ c.bytes.length then some ((c.bytes.drop place).take n) else none := by
  have htake := (c.seek place).take_octets n
  have hn' : n ≠ 0 := by omega
  simp only [hn', or_false] at htake
  exact htake

theorem put_bytes (b : UInt8) (c : Cursor) : (c.put b).bytes = overwrite c.bytes c.place [b] := by
  apply List.ext_getElem?
  intro i
  rw [getElem?_overwrite, List.getD_eq_getElem?_getD]
  unfold put
  split
  · simp only [List.getElem?_set]
    grind
  · simp only [List.append_assoc, List.getElem?_append, List.getElem?_replicate, List.length_replicate]
    grind

theorem put_place (b : UInt8) (c : Cursor) : (c.put b).place = c.place + 1 := by
  unfold put
  split <;> rfl

theorem putAll_bytes (b : UInt8) (new : List UInt8) (c : Cursor) :
    (c.putAll (b :: new)).bytes = overwrite c.bytes c.place (b :: new) := by
  induction new generalizing c b with
  | nil => exact c.put_bytes b
  | cons b' new ih =>
    have hnext := ih b' (c.put b)
    rw [put_bytes, put_place, overwrite_cons] at hnext
    exact hnext

end Cursor

end Storage
end FirmwareMailbox
