/-
  FirmwareMailbox.Proofs.Cpu.Listing — a list of processors that was written for some records, read again.

  Three keys count, and in a stanza the last value of each (`Stanza.foldlM_addLine`). All else in a stanza is
  passed over, and so are empty lines between and around stanzas (`foldlM_newline`). A text in which every record
  has a stanza (`Renders`), in whatever order its lines are and whatever other lines there are, is read as the
  table that the records make one after the other (`parse_renders`).
-/

import FirmwareMailbox.Cpu.Info
import FirmwareMailbox.Proofs.Cpu.Table
import FirmwareMailbox.Proofs.Text.Numeral
import FirmwareMailbox.Proofs.Text.Split

namespace FirmwareMailbox.CpuInfo

open Text

/-- The keys that count. -/
inductive Key where
  | cpu
  | socket
  | apicId
  deriving DecidableEq

namespace Key

def name : Key → String
  | cpu => "processor"
  | socket => "physical id"
  | apicId => "apicid"

def all : List Key := [cpu, socket, apicId]

/-- What a record has for the key. -/
def valueIn (r : Nat × CpuEntry) : Key → Nat
  | cpu => r.1
  | socket => r.2.socket
  | apicId => r.2.apicId.toNat

/-- The highest value of the key. -/
def limit : Key → Nat
  | apicId => max32
  | _ => max64

def ofName? (name : List Char) : Option Key :=
  all.find? fun k => name = k.name.toList

theorem ofName?_eq_some {name : List Char} {k : Key} : ofName? name = some k ↔ name = k.name.toList := by
  constructor
  · intro h
    simpa using List.find?_some h
  · rintro rfl
    cases k <;> decide

theorem ofName?_eq_none {name : List Char} : ofName? name = none ↔ ∀ k : Key, name ≠ k.name.toList := by
  constructor
  · intro h k hk
    rw [ofName?_eq_some.mpr hk] at h
    cases h
  · intro h
    cases hk : ofName? name with
    | none => rfl
    | some k => exact absurd (ofName?_eq_some.mp hk) (h k)

end Key

/-- The key of a line and the text of its value, if the key counts. -/
def reading? (line : List Char) : Option (Key × List Char) := do
  let (key, value) ← splitOnce ':' line
  let k ← Key.ofName? (trim key)
  return (k, trim value)

namespace Stanza

def get (s : Stanza) : Key → Option Nat
  | .cpu => s.cpu
  | .socket => s.socket
  | .apicId => s.apicId.map UInt32.toNat

def set (s : Stanza) (n : Nat) : Key → Stanza
  | .cpu => { s with cpu := some n }
  | .socket => { s with socket := some n }
  | .apicId => { s with apicId := some (UInt32.ofNat n) }

theorem get_set {n : Nat} {k : Key} (hn : n ≤ k.limit) (s : Stanza) (k' : Key) :
    (s.set n k).get k' = if k' = k then some n else s.get k' := by
  cases k with
  | apicId =>
    have hvalue : (UInt32.ofNat n).toNat = n := UInt32.toNat_ofNat_of_lt' (Nat.lt_succ_of_le hn)
    cases k' <;> simp [get, set, hvalue]
  | _ => cases k' <;> rfl

theorem readField_bind (k : Key) (value : List Char) (f : Nat → Stanza) :
    (readField k.name k.limit value >>= fun n => .ok (f n)) =
      match readNumber 10 k.limit (trim value) with
      | .ok n => .ok (f n)
      | .error _ => .error (.parse (.badField k.name (String.ofList (trim value)))) := by
  unfold readField
  cases readNumber 10 k.limit (trim value) <;> rfl

theorem addLine_eq (s : Stanza) (line : List Char) : s.addLine line =
    match reading? line with
    | none => .ok s
    | some (k, value) =>
      match readNumber 10 k.limit value with
      | .ok n => .ok (s.set n k)
      | .error _ => .error (.parse (.badField k.name (String.ofList value))) := by
  unfold addLine reading?
  cases splitOnce ':' line with
  | none => rfl
  | some parts =>
    obtain ⟨key, value⟩ := parts
    -- the names are compared one after the other, so each must differ from those before it
    have hcpu : "processor".toList = Key.cpu.name.toList := rfl
    have hsocket : "physical id".toList = Key.socket.name.toList := rfl
    have hapicId : "apicid".toList = Key.apicId.name.toList := rfl
    have hother : Key.socket.name.toList ≠ Key.cpu.name.toList ∧ Key.apicId.name.toList ≠ Key.cpu.name.toList ∧
        Key.apicId.name.toList ≠ Key.socket.name.toList := by decide
    simp only [hcpu, hsocket, hapicId]
    cases hk : Key.ofName? (trim key) with
    | none =>
      have hno := Key.ofName?_eq_none.mp hk
      simp only [if_neg (hno _), bind, Option.bind_some, hk, Option.bind_none]
    | some k =>
      have hname := Key.ofName?_eq_some.mp hk
      simp only [bind, Option.bind_some, hk, pure]
      rw [hname]
      cases k with
      | cpu =>
        rw [if_pos rfl]
        exact readField_bind .cpu value (s.set · .cpu)
      | socket =>
        rw [if_neg hother.1, if_pos rfl]
        exact readField_bind .socket value (s.set · .socket)
      | apicId =>
        rw [if_neg hother.2.1, if_neg hother.2.2, if_pos rfl]
        exact readField_bind .apicId value (s.set · .apicId)

/-- The number that a line gives to a key. -/
def number? (k : Key) (line : List Char) : Option Nat := do
  let (k', value) ← reading? line
  if k' = k then readNumber? 10 k.limit value else none

/-- If every value can be read, the last one of each key is kept. -/
theorem foldlM_addLine {ls : List (List Char)}
    (h : ∀ line ∈ ls, ∀ k value, reading? line = some (k, value) → ∃ n, readNumber 10 k.limit value = .ok n)
    (s : Stanza) : ∃ s', ls.foldlM addLine s = .ok s' ∧
      ∀ k, s'.get k = (ls.filterMap (number? k)).getLast?.or (s.get k) := by
  induction ls generalizing s with
  | nil => exact ⟨s, rfl, fun k => rfl⟩
  | cons line rest ih =>
    obtain ⟨hline, hrest⟩ := List.forall_mem_cons.mp h
    rw [List.foldlM_cons, addLine_eq]
    cases hr : reading? line with
    | none =>
      obtain ⟨s', hs', hget⟩ := ih hrest s
      refine ⟨s', hs', fun k => ?_⟩
      have hnone : number? k line = none := by simp [number?, hr]
      rw [hget, List.filterMap_cons_none hnone]
    | some r =>
      obtain ⟨k', value⟩ := r
      obtain ⟨n, hn⟩ := hline k' value hr
      obtain ⟨s', hs', hget⟩ := ih hrest (s.set n k')
      refine ⟨s', by simp only [hn]; exact hs', fun k => ?_⟩
      rw [hget, getLast?_filterMap_cons, Option.or_assoc, get_set (readNumber_eq_ok.mp hn).1]
      by_cases hk : k = k'
      · subst hk
        simp [number?, hr, readNumber?, hn, Except.toOption]
      · simp [number?, hr, hk, Ne.symm hk]

/-- A stanza with all that a record has. -/
theorem addTo_of_get {s : Stanza} {r : Nat × CpuEntry} (h : ∀ k, s.get k = some (k.valueIn r)) (t : CpuTable) :
    s.addTo t = t.insert r.1 r.2 := by
  have hcpu := h .cpu
  have hsocket := h .socket
  have hapicId := h .apicId
  obtain ⟨cpu, socket, apicId⟩ := s
  obtain ⟨w, rfl, hw⟩ := Option.map_eq_some_iff.mp hapicId
  obtain rfl : w = r.2.apicId := UInt32.toNat_inj.mp hw
  subst hcpu hsocket
  rfl

end Stanza

/-! ## Empty lines -/

theorem ofText_newline (text : List Char) : Stanza.ofText ('\n' :: text) = Stanza.ofText text := rfl

theorem ofText_append_newline (text : List Char) : Stanza.ofText (text ++ ['\n']) = Stanza.ofText text := by
  have hlines : lines (text ++ ['\n']) = lines text ++ [[]] := by
    rw [lines, lines, pieces_eq_splitOn, pieces_eq_splitOn, List.splitOn_append_cons_self]
    rfl
  rw [Stanza.ofText, hlines, List.foldlM_append]
  exact bind_pure _

/-- An empty line in front changes nothing. -/
theorem foldlM_newline (text : List Char) (t : CpuTable) :
    (stanzas ('\n' :: text)).foldlM addStanza t = (stanzas text).foldlM addStanza t := by
  induction text with
  | nil => rfl
  | cons c text ih =>
    by_cases hc : c = '\n'
    · -- two newlines end an empty stanza
      subst hc
      rw [ih]
      rfl
    · have hhead : (c :: text).head? ≠ some '\n' := fun h => hc (Option.some.inj h)
      rw [stanzas_cons (.inr hhead)]
      cases hs : stanzas (c :: text) with
      | nil => exact absurd hs (stanzas_ne_nil _)
      | cons p ps =>
        have hp : addStanza t ('\n' :: p) = addStanza t p := by rw [addStanza, ofText_newline, addStanza]
        rw [consHead, List.foldlM_cons, List.foldlM_cons, hp]

/-! ## Records -/

/-- Blanks within a line. -/
def Blanks (cs : List Char) : Prop := ∀ c ∈ cs, isBlank c = true ∧ c ≠ '\n'

/-- A line that gives the number `n` to a key. -/
def FieldLine (k : Key) (n : Nat) (line : List Char) : Prop :=
  ∃ before after digits, Blanks before ∧ Blanks after ∧ Numeral 10 k.limit digits n ∧
    line = k.name.toList ++ before ++ ':' :: (after ++ digits)

/-- A line that does not count: what is before its first colon, if it has one, is none of the keys. -/
structure OtherLine (line : List Char) : Prop where
  ne_nil : line ≠ []
  newline : '\n' ∉ line
  key : ∀ before after, line = before ++ ':' :: after → ':' ∉ before → ∀ k : Key, trim before ≠ k.name.toList

/-- The lines of a record's stanza, in any order: one for each key, and others. -/
def Describes (ls : List (List Char)) (r : Nat × CpuEntry) : Prop :=
  ∃ (field : Key → List Char) (others : List (List Char)), (∀ k, FieldLine k (k.valueIn r) (field k)) ∧
    (∀ line ∈ others, OtherLine line) ∧ ls.Perm (Key.all.map field ++ others)

/-- What can follow the last line of a stanza: the end of the text, with a newline before it or not, or an
    empty line. -/
def Parted (text : List Char) : Prop := text = [] ∨ text = ['\n'] ∨ ∃ rest, text = '\n' :: '\n' :: rest

/-- The text has a stanza for each record, in order, and empty lines between the stanzas and maybe around them. -/
inductive Renders : List (Nat × CpuEntry) → List Char → Prop
  | done : Renders [] []
  | newline {rs : List (Nat × CpuEntry)} {text : List Char} : Renders rs text → Renders rs ('\n' :: text)
  | stanza {r : Nat × CpuEntry} {rs : List (Nat × CpuEntry)} {ls : List (List Char)} {text : List Char} :
      Describes ls r → Parted text → Renders rs text → Renders (r :: rs) (unlines ls ++ text)

theorem Blanks.colon_not_mem {cs : List Char} (h : Blanks cs) : ':' ∉ cs := by
  intro hc
  have hblank := (h ':' hc).1
  exact absurd hblank (by decide)

/-- A name has no blank at its ends, and nothing that ends a key or a line. -/
theorem Key.name_clean (k : Key) : ':' ∉ k.name.toList ∧ '\n' ∉ k.name.toList ∧ k.name.toList ≠ [] ∧
    (∀ c ∈ k.name.toList.head?, isBlank c = false) ∧ ∀ c ∈ k.name.toList.getLast?, isBlank c = false := by
  refine ⟨?_, ?_, ?_, fun c hc => ?_, fun c hc => ?_⟩
  · cases k <;> decide
  · cases k <;> decide
  · cases k <;> decide
  · cases k <;> cases hc <;> decide
  · cases k <;> cases hc <;> decide

theorem FieldLine.reading? {k : Key} {n : Nat} {line : List Char} (h : FieldLine k n line) :
    ∃ value, CpuInfo.reading? line = some (k, value) ∧ readNumber 10 k.limit value = .ok n := by
  obtain ⟨before, after, digits, hb, ha, hn, rfl⟩ := h
  obtain ⟨hcolon, -, hne, hfirst, hlast⟩ := k.name_clean
  have hnil : ∀ c ∈ ([] : List Char), isBlank c = true := fun c hc => absurd hc List.not_mem_nil
  have hkey : trim ([] ++ k.name.toList ++ before) = k.name.toList :=
    trim_append hnil (fun c hc => (hb c hc).1) hfirst hlast hne
  have hdigits : trim (after ++ digits ++ []) = digits :=
    trim_append (fun c hc => (ha c hc).1) hnil (fun c hc => hn.not_blank (List.mem_of_mem_head? hc))
      (fun c hc => hn.not_blank (List.mem_of_mem_getLast? hc)) hn.ne_nil
  have hsplit : splitOnce ':' (k.name.toList ++ before ++ ':' :: (after ++ digits)) =
      some (k.name.toList ++ before, after ++ digits) := by
    refine splitOnce_eq_some.mpr ⟨rfl, fun hc => ?_⟩
    exact (List.mem_append.mp hc).elim hcolon hb.colon_not_mem
  rw [List.nil_append] at hkey
  rw [List.append_nil] at hdigits
  refine ⟨digits, ?_, readNumber_eq_ok.mpr hn⟩
  rw [CpuInfo.reading?, hsplit]
  simp only [bind, Option.bind_some, hkey, Key.ofName?_eq_some.mpr rfl, hdigits, pure]

theorem FieldLine.isLine {k : Key} {n : Nat} {line : List Char} (h : FieldLine k n line) :
    line ≠ [] ∧ '\n' ∉ line := by
  obtain ⟨before, after, digits, hb, ha, hn, rfl⟩ := h
  obtain ⟨-, hname, hne, -⟩ := k.name_clean
  have hdigits : '\n' ∉ digits := hn.not_mem (by decide) (by decide)
  have hbefore : '\n' ∉ before := fun hc => (hb _ hc).2 rfl
  have hafter : '\n' ∉ after := fun hc => (ha _ hc).2 rfl
  refine ⟨by simp, ?_⟩
  simp [hname, hdigits, hbefore, hafter]

theorem OtherLine.reading? {line : List Char} (h : OtherLine line) : CpuInfo.reading? line = none := by
  unfold CpuInfo.reading?
  cases hs : splitOnce ':' line with
  | none => rfl
  | some parts =>
    obtain ⟨key, value⟩ := parts
    obtain ⟨hline, hcolon⟩ := splitOnce_eq_some.mp hs
    simp only [bind, Option.bind_some, Key.ofName?_eq_none.mpr (h.key key value hline hcolon), Option.bind_none]

section

variable {ls : List (List Char)} {r : Nat × CpuEntry}

theorem Describes.isLine (h : Describes ls r) : ∀ line ∈ ls, line ≠ [] ∧ '\n' ∉ line := by
  obtain ⟨field, others, hfield, hother, hperm⟩ := h
  intro line hline
  rcases List.mem_append.mp (hperm.mem_iff.mp hline) with hmem | hmem
  · obtain ⟨k, -, rfl⟩ := List.mem_map.mp hmem
    exact (hfield k).isLine
  · exact ⟨(hother line hmem).ne_nil, (hother line hmem).newline⟩

theorem Describes.ne_nil (h : Describes ls r) : ls ≠ [] := by
  obtain ⟨field, others, -, -, hperm⟩ := h
  rintro rfl
  exact absurd hperm.symm.eq_nil (by simp [Key.all])

/-- Each key gets its number from one line only. -/
theorem Describes.number? (h : Describes ls r) (k : Key) :
    ls.filterMap (Stanza.number? k) = [k.valueIn r] := by
  obtain ⟨field, others, hfield, hother, hperm⟩ := h
  have hothers : others.filterMap (Stanza.number? k) = [] := by
    refine List.filterMap_eq_nil_iff.mpr fun line hline => ?_
    simp [Stanza.number?, (hother line hline).reading?]
  have hfields : (Key.all.map field).filterMap (Stanza.number? k) = [k.valueIn r] := by
    have hnumber : ∀ k', Stanza.number? k (field k') = if k' = k then some (k.valueIn r) else none := by
      intro k'
      obtain ⟨value, hvalue, hn⟩ := (hfield k').reading?
      by_cases hk : k' = k
      · subst hk
        simp [Stanza.number?, hvalue, readNumber?, hn, Except.toOption]
      · simp [Stanza.number?, hvalue, hk]
    cases k <;> simp [Key.all, hnumber]
  have hall := hperm.filterMap (Stanza.number? k)
  rw [List.filterMap_append, hfields, hothers, List.append_nil] at hall
  exact List.perm_singleton.mp hall

/-- A record's stanza is read as the record. -/
theorem Describes.addStanza (h : Describes ls r) (t : CpuTable) :
    CpuInfo.addStanza t (unlines ls) = t.insert r.1 r.2 := by
  have hreadable : ∀ line ∈ ls, ∀ k value, CpuInfo.reading? line = some (k, value) →
      ∃ n, readNumber 10 k.limit value = .ok n := by
    obtain ⟨field, others, hfield, hother, hperm⟩ := h
    intro line hline k value hr
    rcases List.mem_append.mp (hperm.mem_iff.mp hline) with hmem | hmem
    · obtain ⟨k', -, rfl⟩ := List.mem_map.mp hmem
      obtain ⟨value', hvalue, hn⟩ := (hfield k').reading?
      rw [hvalue, Option.some.injEq, Prod.mk.injEq] at hr
      obtain ⟨rfl, rfl⟩ := hr
      exact ⟨_, hn⟩
    · rw [(hother line hmem).reading?] at hr
      cases hr
  have hlines : lines (unlines ls) = ls := lines_unlines (fun l hl => (h.isLine l hl).2) h.ne_nil
  obtain ⟨s, hs, hget⟩ := Stanza.foldlM_addLine hreadable {}
  have hall : ∀ k, s.get k = some (k.valueIn r) := by
    intro k
    rw [hget, h.number? k]
    rfl
  rw [CpuInfo.addStanza, Stanza.ofText, hlines, hs]
  exact Stanza.addTo_of_get hall t

end

theorem Parted.stanzas {text : List Char} (h : Parted text) :
    ∃ p ps, Text.stanzas text = p :: ps ∧ (p = [] ∨ p = ['\n']) := by
  rcases h with rfl | rfl | ⟨rest, rfl⟩
  · exact ⟨[], [], rfl, .inl rfl⟩
  · exact ⟨['\n'], [], rfl, .inr rfl⟩
  · exact ⟨[], _, rfl, .inl rfl⟩

theorem foldlM_renders {rs : List (Nat × CpuEntry)} {text : List Char} (h : Renders rs text) (t : CpuTable) :
    (stanzas text).foldlM addStanza t = rs.foldlM (fun t r => t.insert r.1 r.2) t := by
  induction h generalizing t with
  | done => rfl
  | newline _ ih => rw [foldlM_newline, ih]
  | @stanza r rs ls text hr hparted _ ih =>
    obtain ⟨p, ps, htext, hp⟩ := hparted.stanzas
    have hfirst : addStanza t (unlines ls ++ p) = t.insert r.1 r.2 := by
      rw [← hr.addStanza t]
      rcases hp with rfl | rfl
      · rw [List.append_nil]
      · rw [addStanza, ofText_append_newline, addStanza]
    have hrest (t : CpuTable) : ps.foldlM addStanza t = rs.foldlM (fun t r => t.insert r.1 r.2) t := by
      rw [← ih t, htext]
      rcases hp with rfl | rfl <;> rfl
    rw [stanzas_unlines hr.isLine htext, List.foldlM_cons, List.foldlM_cons, hfirst]
    exact congrArg _ (funext hrest)

/-- The text of some records is read as the table that they make one after the other, in which the last record
    of a CPU is found and no other CPU is. -/
theorem parse_renders {rs : List (Nat × CpuEntry)} {text : List Char} (h : Renders rs text)
    (hroom : ∀ r ∈ rs, r.1 ≤ CpuTable.highest) : ∃ t, CpuTable.ofList rs = .ok t ∧ parse text = .ok t ∧
      ∀ cpu, t.find? cpu = (rs.filterMap fun r => if r.1 = cpu then some r.2 else none).getLast? := by
  have htable := CpuTable.foldlM_insert hroom CpuTable.empty
  refine ⟨CpuTable.empty.putAll rs, htable, ?_, fun cpu => ?_⟩
  · rw [parse, foldlM_renders h, htable]
  · rw [CpuTable.find?_putAll]
    exact Option.or_none

/-- The lines of a record as a system writes them, another line among them. -/
def written (r : Nat × CpuEntry) : List (List Char) :=
  (Key.cpu.name.toList ++ "\t: ".toList ++ Nat.toDigits 10 r.1) :: "siblings\t: 128".toList ::
    [Key.socket, Key.apicId].map fun k => k.name.toList ++ "\t: ".toList ++ Nat.toDigits 10 (k.valueIn r)

theorem describes_written {r : Nat × CpuEntry} (hr : ∀ k, Key.valueIn r k ≤ k.limit) : Describes (written r) r := by
  have hline : ∀ k, FieldLine k (k.valueIn r) (k.name.toList ++ "\t: ".toList ++ Nat.toDigits 10 (k.valueIn r)) := by
    intro k
    refine ⟨['\t'], [' '], _, fun c hc => ?_, fun c hc => ?_, numeral_toDigits (hr k), by simp⟩
    · obtain rfl := List.mem_singleton.mp hc
      decide
    · obtain rfl := List.mem_singleton.mp hc
      decide
  refine ⟨_, ["siblings\t: 128".toList], hline, ?_, ?_⟩
  · intro line hmem
    obtain rfl := List.mem_singleton.mp hmem
    refine ⟨by decide, by decide, fun before after hsplit hcolon => ?_⟩
    have honly := splitOnce_eq_some.mpr ⟨hsplit, hcolon⟩
    obtain ⟨rfl, -⟩ := Prod.mk.inj (Option.some.inj (honly.symm.trans (by decide :
      splitOnce ':' "siblings\t: 128".toList = some ("siblings\t".toList, " 128".toList))))
    intro k
    cases k <;> decide
  · exact .cons _ (List.perm_append_singleton _ _).symm

theorem parse_renders_written : ∃ t,
    parse (unlines (written (1, ⟨0, 7⟩)) ++ "\n\n".toList ++ unlines (written (1, ⟨1, 9⟩))) = .ok t ∧
      t.find? 1 = some ⟨1, 9⟩ ∧ t.find? 0 = none := by
  have hfirst : Describes (written (1, ⟨0, 7⟩)) (1, ⟨0, 7⟩) := describes_written fun k => by cases k <;> decide
  have hsecond : Describes (written (1, ⟨1, 9⟩)) (1, ⟨1, 9⟩) := describes_written fun k => by cases k <;> decide
  have htext : Renders [(1, ⟨0, 7⟩), (1, ⟨1, 9⟩)]
      (unlines (written (1, ⟨0, 7⟩)) ++ '\n' :: '\n' :: (unlines (written (1, ⟨1, 9⟩)) ++ [])) :=
    .stanza hfirst (.inr (.inr ⟨_, rfl⟩)) (.newline (.newline (.stanza hsecond (.inl rfl) .done)))
  obtain ⟨t, -, hparse, hfind⟩ := parse_renders htext (by decide)
  rw [List.append_nil] at hparse
  exact ⟨t, hparse, hfind 1, hfind 0⟩

end FirmwareMailbox.CpuInfo
