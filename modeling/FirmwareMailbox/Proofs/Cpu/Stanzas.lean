/-
  FirmwareMailbox.Proofs.Cpu.Stanzas — what any text is read as, stanza by stanza.

  A stanza is faulty if a line gives one of the three keys a value that is no number of the key's range, or if
  there is a CPU in it but not all that a CPU needs (`Faulty`). What is not faulty records a CPU, by the last
  line of each key (`Records`), or is passed over, and there are no other ways (`outcome_contribution`).

  What each stanza alone comes to tells how a text is read. The first that stops the reading says why
  (`parse_eq_error`), and if none does the table has the records of all (`parse_eq_ok`). So nothing that a
  stanza says gets into the record of another (`parse_reads_stanzas`).
-/

import FirmwareMailbox.Proofs.Cpu.Inserts
import FirmwareMailbox.Proofs.Cpu.Listing

namespace FirmwareMailbox.CpuInfo

open Text

/-! ## Lines -/

/-- The line gives the key a value with this text: before its first colon there is the name of the key, and
    after it the text, blanks at the ends of either apart. -/
def Gives (line : List Char) (k : Key) (value : List Char) : Prop :=
  ∃ before after, line = before ++ ':' :: after ∧ ':' ∉ before ∧ trim before = k.name.toList ∧ trim after = value

/-- Each value that a line gives to a key is a number of the key's range. -/
def Readable (ls : List (List Char)) : Prop :=
  ∀ line ∈ ls, ∀ k value, Gives line k value → ∃ n, Numeral 10 k.limit value n

/-- No line has the key. -/
def Lacks (ls : List (List Char)) (k : Key) : Prop := ∀ line ∈ ls, ∀ value, ¬ Gives line k value

/-- The last line that has the key gives it the number `n`. -/
def LastGives (ls : List (List Char)) (k : Key) (n : Nat) : Prop :=
  ∃ before line after value, ls = before ++ line :: after ∧ Gives line k value ∧ Numeral 10 k.limit value n ∧
    Lacks after k

variable {ls : List (List Char)} {line value : List Char} {k : Key} {n : Nat}

theorem reading?_eq_some : reading? line = some (k, value) ↔ Gives line k value := by
  cases hs : splitOnce ':' line with
  | none =>
    have hcolon := splitOnce_eq_none.mp hs
    have hnone : reading? line = none := by rw [reading?, hs]; rfl
    rw [hnone]
    refine iff_of_false (by simp) fun h => ?_
    obtain ⟨before, after, rfl, -⟩ := h
    simp at hcolon
  | some parts =>
    obtain ⟨key, rest⟩ := parts
    have hread : reading? line = (Key.ofName? (trim key)).map (·, trim rest) := by
      rw [reading?, hs]
      cases hk : Key.ofName? (trim key) <;> simp [hk]
    have hparts : ∀ before after, line = before ++ ':' :: after ∧ ':' ∉ before ↔ before = key ∧ after = rest := by
      intro before after
      rw [← splitOnce_eq_some, hs]
      simp [eq_comm]
    rw [hread]
    constructor
    · intro h
      obtain ⟨k', hk, heq⟩ := Option.map_eq_some_iff.mp h
      cases heq
      obtain ⟨hline, hcolon⟩ := (hparts key rest).mpr ⟨rfl, rfl⟩
      exact ⟨key, rest, hline, hcolon, Key.ofName?_eq_some.mp hk, rfl⟩
    · intro h
      obtain ⟨before, after, hline, hcolon, hkey, rfl⟩ := h
      obtain ⟨rfl, rfl⟩ := (hparts before after).mp ⟨hline, hcolon⟩
      rw [Key.ofName?_eq_some.mpr hkey]
      rfl

namespace Stanza

theorem number?_eq_some : number? k line = some n ↔ ∃ value, Gives line k value ∧ Numeral 10 k.limit value n := by
  simp only [← reading?_eq_some, ← readNumber?_eq_some]
  unfold number?
  cases reading? line with
  | none => simp
  | some r =>
    obtain ⟨k', value⟩ := r
    by_cases hk : k' = k
    · simp [hk]
    · simp [hk]

theorem number?_eq_none (h : Readable ls) (hline : line ∈ ls) :
    number? k line = none ↔ ∀ value, ¬ Gives line k value := by
  constructor
  · intro hnone value hgives
    obtain ⟨n, hn⟩ := h line hline k value hgives
    rw [number?_eq_some.mpr ⟨value, hgives, hn⟩] at hnone
    cases hnone
  · intro hlacks
    cases hn : number? k line with
    | none => rfl
    | some n =>
      obtain ⟨value, hgives, -⟩ := number?_eq_some.mp hn
      exact absurd hgives (hlacks value)

theorem lastGives_iff (h : Readable ls) : (ls.filterMap (number? k)).getLast? = some n ↔ LastGives ls k n := by
  rw [getLast?_filterMap_eq_some]
  constructor
  · intro hlast
    obtain ⟨before, line, after, rfl, hn, hafter⟩ := hlast
    obtain ⟨value, hgives, hn⟩ := number?_eq_some.mp hn
    exact ⟨before, line, after, value, rfl, hgives, hn, fun l hl => (number?_eq_none h (by simp [hl])).mp (hafter l hl)⟩
  · intro hlast
    obtain ⟨before, line, after, value, rfl, hgives, hn, hafter⟩ := hlast
    exact ⟨before, line, after, rfl, number?_eq_some.mpr ⟨value, hgives, hn⟩,
      fun l hl => (number?_eq_none h (by simp [hl])).mpr (hafter l hl)⟩

theorem lacks_iff (h : Readable ls) : (ls.filterMap (number? k)).getLast? = none ↔ Lacks ls k := by
  rw [List.getLast?_eq_none_iff, List.filterMap_eq_nil_iff]
  exact forall₂_congr fun line hline => number?_eq_none h hline

/-- The first value that is no number ends the reading of the stanza. -/
theorem foldlM_addLine_unreadable (h : ¬ Readable ls) (s : Stanza) :
    ∃ cause, ls.foldlM addLine s = .error (.parse cause) := by
  induction ls generalizing s with
  | nil => exact absurd (fun line hline => absurd hline List.not_mem_nil) h
  | cons line rest ih =>
    rw [List.foldlM_cons, addLine_eq]
    have hrest : (∀ k value, reading? line = some (k, value) → ∃ n, readNumber 10 k.limit value = .ok n) →
        ¬ Readable rest := by
      intro hline hrest
      apply h
      intro l hl k value hgives
      rcases List.mem_cons.mp hl with rfl | hl
      · obtain ⟨n, hn⟩ := hline k value (reading?_eq_some.mpr hgives)
        exact ⟨n, readNumber_eq_ok.mp hn⟩
      · exact hrest l hl k value hgives
    cases hr : reading? line with
    | none => exact ih (hrest fun k value hk => by rw [hr] at hk; cases hk) s
    | some r =>
      obtain ⟨k, value⟩ := r
      cases hn : readNumber 10 k.limit value with
      | error fault =>
        simp only [hn]
        exact ⟨_, rfl⟩
      | ok n =>
        simp only [hn]
        refine ih (hrest fun k' value' hk => ?_) (s.set n k)
        rw [hr] at hk
        cases hk
        exact ⟨n, hn⟩

end Stanza

/-! ## One stanza -/

/-- Why a stanza cannot be read: a key has a value that is no number of its range, or there is a CPU and no
    line has a key that it needs. -/
inductive Faulty (ls : List (List Char)) : Prop
  | badValue {line value : List Char} {k : Key} :
      line ∈ ls → Gives line k value → (∀ n, ¬ Numeral 10 k.limit value n) → Faulty ls
  | incomplete {line value : List Char} {k : Key} : line ∈ ls → Gives line .cpu value → Lacks ls k → Faulty ls

/-- The last line of each key has what the record has. -/
def Records (ls : List (List Char)) (r : Nat × CpuEntry) : Prop := ∀ k, LastGives ls k (k.valueIn r)

/-- What a stanza comes to: a record that the table has a place for, nothing, or a failure. -/
def contribution (text : List Char) : Except Error (Option (Nat × CpuEntry)) := do
  let s ← Stanza.ofText text
  match s.cpu, s.socket, s.apicId with
  | none, _, _ => .ok none
  | some cpu, some socket, some apicId =>
    if cpu ≤ CpuTable.highest then .ok (some (cpu, ⟨socket, apicId⟩)) else .error (.outOfBounds cpu)
  | some cpu, _, _ => .error (.parse (.incomplete cpu))

theorem addStanza_eq (t : CpuTable) (text : List Char) :
    addStanza t text = (contribution text).map fun r? => t.putAll r?.toList := by
  unfold addStanza contribution
  cases Stanza.ofText text with
  | error e => rfl
  | ok s =>
    obtain ⟨cpu, socket, apicId⟩ := s
    show Stanza.addTo _ t = _
    unfold Stanza.addTo CpuTable.insert
    cases cpu with
    | none => rfl
    | some cpu =>
      cases socket with
      | none => rfl
      | some socket =>
        cases apicId with
        | none => rfl
        | some apicId =>
          by_cases hcpu : cpu ≤ CpuTable.highest
          · simp [hcpu, bind, Except.bind, Except.map, CpuTable.putAll]
          · simp [hcpu, bind, Except.bind, Except.map]

/-- The ways a stanza can come out. -/
inductive Outcome (ls : List (List Char)) : Except Error (Option (Nat × CpuEntry)) → Prop
  | faulty {cause : Malformation} : Faulty ls → Outcome ls (.error (.parse cause))
  | other : ¬ Faulty ls → Lacks ls .cpu → Outcome ls (.ok none)
  | recorded {r : Nat × CpuEntry} : ¬ Faulty ls → Records ls r → r.1 ≤ CpuTable.highest → Outcome ls (.ok (some r))
  | homeless {e : CpuEntry} : ¬ Faulty ls → Records ls (max64, e) → Outcome ls (.error (.outOfBounds max64))

theorem readable_of_not_faulty (h : ¬ Faulty ls) : Readable ls := by
  intro line hline k value hgives
  by_contra hn
  exact h (.badValue hline hgives fun n hnumeral => hn ⟨n, hnumeral⟩)

theorem not_faulty (h : Readable ls) (hall : ¬ Lacks ls .cpu → ∀ k, ¬ Lacks ls k) : ¬ Faulty ls := by
  intro hf
  cases hf with
  | badValue hline hgives hn =>
    obtain ⟨n, hnumeral⟩ := h _ hline _ _ hgives
    exact hn n hnumeral
  | incomplete hline hgives hlacks =>
    exact hall (fun hcpu => hcpu _ hline _ hgives) _ hlacks

theorem outcome_contribution (text : List Char) : Outcome (lines text) (contribution text) := by
  by_cases h : Readable (lines text)
  · have hreadable : ∀ line ∈ lines text, ∀ k value, reading? line = some (k, value) →
        ∃ n, readNumber 10 k.limit value = .ok n := by
      intro line hline k value hr
      obtain ⟨n, hn⟩ := h line hline k value (reading?_eq_some.mp hr)
      exact ⟨n, readNumber_eq_ok.mpr hn⟩
    obtain ⟨s, hs, hget⟩ := Stanza.foldlM_addLine hreadable {}
    have hget' : ∀ k, s.get k = ((lines text).filterMap (Stanza.number? k)).getLast? := by
      intro k
      rw [hget]
      cases k <;> exact Option.or_none
    have hlast : ∀ k n, s.get k = some n → LastGives (lines text) k n := by
      intro k n hk
      rw [hget'] at hk
      exact (Stanza.lastGives_iff h).mp hk
    have hlacks : ∀ k, s.get k = none ↔ Lacks (lines text) k := by
      intro k
      rw [hget']
      exact Stanza.lacks_iff h
    have hof : Stanza.ofText text = .ok s := hs
    rw [contribution, hof]
    obtain ⟨cpu, socket, apicId⟩ := s
    cases cpu with
    | none =>
      have hcpu := (hlacks .cpu).mp rfl
      exact .other (not_faulty h fun hn => absurd hcpu hn) hcpu
    | some cpu =>
      obtain ⟨_, line, _, value, hls, hgives, hcpu, -⟩ := hlast .cpu cpu rfl
      have hline : line ∈ lines text := by simp [hls]
      cases socket with
      | none => exact .faulty (.incomplete hline hgives ((hlacks .socket).mp rfl))
      | some socket =>
        cases apicId with
        | none => exact .faulty (.incomplete hline hgives ((hlacks .apicId).mp rfl))
        | some apicId =>
          have hrecords : Records (lines text) (cpu, ⟨socket, apicId⟩) := by
            intro k
            apply hlast
            cases k <;> rfl
          have hgood : ¬ Faulty (lines text) := by
            apply not_faulty h
            intro _ k hk
            have hnone := (hlacks k).mpr hk
            cases k <;> cases hnone
          by_cases hroom : cpu ≤ CpuTable.highest
          · show Outcome _ (if cpu ≤ CpuTable.highest then _ else _)
            rw [if_pos hroom]
            exact .recorded hgood hrecords hroom
          · show Outcome _ (if cpu ≤ CpuTable.highest then _ else _)
            rw [if_neg hroom]
            have hle : cpu ≤ max64 := hcpu.1
            obtain rfl : cpu = max64 := Nat.le_antisymm hle (Nat.not_lt.mp (mt CpuTable.lt_max64_iff.mp hroom))
            exact .homeless hgood hrecords
  · have hfaulty : Faulty (lines text) := by
      by_contra hf
      exact h (readable_of_not_faulty hf)
    obtain ⟨cause, hcause⟩ := Stanza.foldlM_addLine_unreadable h {}
    have hof : Stanza.ofText text = .error (.parse cause) := hcause
    rw [contribution, hof]
    exact .faulty hfaulty

/-! ## All stanzas -/

/-- What a stanza fails with, if it does. -/
def fault? (text : List Char) : Option Error :=
  match contribution text with
  | .ok _ => none
  | .error e => some e

/-- The record that the table gets from a stanza. -/
def record? (text : List Char) : Option (Nat × CpuEntry) := (contribution text).toOption.join

/-- The last stanza with a CPU of this number has the record. -/
def Stems (text : List Char) (r : Nat × CpuEntry) : Prop :=
  ∃ before stanza after, stanzas text = before ++ stanza :: after ∧ Records (lines stanza) r ∧
    ∀ later ∈ after, ∀ e, ¬ Records (lines later) (r.1, e)

variable {text : List Char} {r r' : Nat × CpuEntry}

/-- The first stanza that fails says why; if none does, the table gets what each of them records. -/
theorem foldlM_addStanza (ps : List (List Char)) (t : CpuTable) : ps.foldlM addStanza t =
    match ps.findSome? fault? with
    | some e => .error e
    | none => .ok (t.putAll (ps.filterMap record?)) := by
  induction ps generalizing t with
  | nil => rfl
  | cons p ps ih =>
    rw [List.foldlM_cons, addStanza_eq, List.findSome?_cons]
    cases hp : contribution p with
    | error e =>
      have hfault : fault? p = some e := by rw [fault?, hp]
      rw [hfault]
      rfl
    | ok r? =>
      have hfault : fault? p = none := by rw [fault?, hp]
      have hrecord : record? p = r? := by rw [record?, hp]; rfl
      have hput : t.putAll ((p :: ps).filterMap record?) = (t.putAll r?.toList).putAll (ps.filterMap record?) := by
        cases r? with
        | none => rw [List.filterMap_cons_none hrecord]; rfl
        | some r => rw [List.filterMap_cons_some hrecord]; rfl
      rw [hfault, hput]
      exact ih _

theorem Records.unique (hgood : ¬ Faulty ls) (h : Records ls r) (h' : Records ls r') : r = r' := by
  have hsame : ∀ k, Key.valueIn r k = Key.valueIn r' k := by
    intro k
    have hk := (Stanza.lastGives_iff (readable_of_not_faulty hgood)).mpr (h k)
    rw [(Stanza.lastGives_iff (readable_of_not_faulty hgood)).mpr (h' k)] at hk
    exact (Option.some.inj hk).symm
  obtain ⟨cpu, socket, apicId⟩ := r
  obtain ⟨cpu', socket', apicId'⟩ := r'
  obtain rfl : cpu = cpu' := hsame .cpu
  obtain rfl : socket = socket' := hsame .socket
  obtain rfl : apicId = apicId' := UInt32.toNat_inj.mp (hsame .apicId)
  rfl

theorem Records.not_lacks (h : Records ls r) : ¬ Lacks ls .cpu := by
  intro hlacks
  obtain ⟨before, line, after, value, rfl, hgives, -⟩ := h .cpu
  exact hlacks line (by simp) value hgives

/-- What stops the reading at a stanza: it is faulty, or its CPU has the highest number of all. -/
theorem fault?_eq_some {e : Error} (h : fault? text = some e) : (Faulty (lines text) ∧ ∃ cause, e = .parse cause) ∨
    (¬ Faulty (lines text) ∧ (∃ entry, Records (lines text) (max64, entry)) ∧ e = .outOfBounds max64) := by
  have hout := outcome_contribution text
  unfold fault? at h
  generalize contribution text = c at hout h
  cases hout with
  | faulty hfaulty => exact .inl ⟨hfaulty, _, (Option.some.inj h).symm⟩
  | other => cases h
  | recorded => cases h
  | homeless hgood hrecords => exact .inr ⟨hgood, ⟨_, hrecords⟩, (Option.some.inj h).symm⟩

theorem fault?_eq_none : fault? text = none ↔
    ¬ Faulty (lines text) ∧ ∀ entry, ¬ Records (lines text) (max64, entry) := by
  have hout := outcome_contribution text
  unfold fault?
  generalize contribution text = c at hout
  cases hout with
  | faulty hfaulty => exact iff_of_false (by simp) fun h => h.1 hfaulty
  | other hgood hlacks => exact iff_of_true rfl ⟨hgood, fun entry h => h.not_lacks hlacks⟩
  | recorded hgood hrecords hroom =>
    refine iff_of_true rfl ⟨hgood, fun entry h => ?_⟩
    obtain rfl := hrecords.unique hgood h
    have hle : max64 ≤ CpuTable.highest := hroom
    exact absurd hle (by decide)
  | homeless hgood hrecords => exact iff_of_false (by simp) fun h => h.2 _ hrecords

theorem record?_eq_some (h : fault? text = none) : record? text = some r ↔ Records (lines text) r := by
  have hout := outcome_contribution text
  unfold fault? at h
  unfold record?
  generalize contribution text = c at hout h
  cases hout with
  | faulty => cases h
  | other hgood hlacks => exact iff_of_false (by simp [Except.toOption]) fun hr => hr.not_lacks hlacks
  | recorded hgood hrecords hroom =>
    constructor
    · intro hr
      cases hr
      exact hrecords
    · intro hr
      rw [hrecords.unique hgood hr]
      rfl
  | homeless => cases h

/-- Without a failure the table has the last record of each CPU, and no other. -/
theorem mem_putAll_records (h : ∀ p ∈ stanzas text, fault? p = none) :
    r ∈ (CpuTable.empty.putAll ((stanzas text).filterMap record?)).entries ↔ Stems text r := by
  obtain ⟨cpu, e⟩ := r
  have hnumber : ∀ p ∈ stanzas text, ∀ e, (record? p).bind (fun r => if r.1 = cpu then some r.2 else none) = some e ↔
      Records (lines p) (cpu, e) := by
    intro p hp e
    rw [← record?_eq_some (h p hp), Option.bind_eq_some_iff]
    constructor
    · intro hr
      obtain ⟨r, hr, heq⟩ := hr
      obtain ⟨rfl, rfl⟩ : r.1 = cpu ∧ r.2 = e := by simpa using heq
      exact hr
    · intro hr
      exact ⟨(cpu, e), hr, if_pos rfl⟩
  have hempty : CpuTable.empty.find? cpu = none := rfl
  rw [(CpuTable.ascending_inserts _).mem_iff, CpuTable.find?_putAll, hempty, Option.or_none, List.filterMap_filterMap,
    getLast?_filterMap_eq_some]
  constructor
  · intro hlast
    obtain ⟨before, p, after, hps, hp, hafter⟩ := hlast
    refine ⟨before, p, after, hps, (hnumber p (by simp [hps]) e).mp hp, fun later hlater e' hr => ?_⟩
    have hsome := (hnumber later (by simp [hps, hlater]) e').mpr hr
    rw [hafter later hlater] at hsome
    cases hsome
  · intro hstems
    obtain ⟨before, p, after, hps, hp, hafter⟩ := hstems
    refine ⟨before, p, after, hps, (hnumber p (by simp [hps]) e).mpr hp, fun later hlater => ?_⟩
    rw [Option.eq_none_iff_forall_ne_some]
    intro e' hsome
    exact hafter later hlater e' ((hnumber later (by simp [hps, hlater]) e').mp hsome)

theorem parse_eq_error {e : Error} : parse text = .error e ↔
    ∃ before stanza after, stanzas text = before ++ stanza :: after ∧ fault? stanza = some e ∧
      ∀ earlier ∈ before, fault? earlier = none := by
  rw [parse, foldlM_addStanza, ← List.findSome?_eq_some_iff]
  cases (stanzas text).findSome? fault? <;> simp

theorem parse_eq_ok (h : ∀ p ∈ stanzas text, fault? p = none) :
    ∃ t, parse text = .ok t ∧ ∀ r, r ∈ t.entries ↔ Stems text r := by
  refine ⟨_, ?_, fun r => mem_putAll_records h⟩
  rw [parse, foldlM_addStanza, List.findSome?_eq_none_iff.mpr h]

/-- A text is cut at its empty lines. If it names no CPU with the highest number, it is refused exactly if one
    of its stanzas is faulty. Otherwise each entry of its table is from one stanza, from the last line of each
    key there, and that is the last stanza of the CPU. -/
theorem parse_reads_stanzas (h : ∀ stanza ∈ stanzas text, ∀ line ∈ lines stanza, ∀ value,
      Gives line .cpu value → ¬ Numeral 10 max64 value max64) :
    ['\n', '\n'].intercalate (stanzas text) = text ∧ (∀ stanza ∈ stanzas text, ¬ ['\n', '\n'] <:+: stanza) ∧
      ((∃ cause, parse text = .error (.parse cause)) ↔ ∃ stanza ∈ stanzas text, Faulty (lines stanza)) ∧
      ((∀ stanza ∈ stanzas text, ¬ Faulty (lines stanza)) →
        ∃ t, parse text = .ok t ∧ ∀ r, r ∈ t.entries ↔ Stems text r) := by
  have hlow : ∀ stanza ∈ stanzas text, ∀ entry, ¬ Records (lines stanza) (max64, entry) := by
    intro stanza hstanza entry hrecords
    obtain ⟨before, line, after, value, hlines, hgives, hnumeral, -⟩ := hrecords .cpu
    exact h stanza hstanza line (by simp [hlines]) value hgives hnumeral
  have hgood : ∀ stanza ∈ stanzas text, ¬ Faulty (lines stanza) → fault? stanza = none :=
    fun stanza hstanza hgood => fault?_eq_none.mpr ⟨hgood, hlow stanza hstanza⟩
  refine ⟨intercalate_stanzas text, stanzas_uncut text, ⟨fun herror => ?_, fun hfaulty => ?_⟩, fun hall => ?_⟩
  · obtain ⟨cause, hcause⟩ := herror
    obtain ⟨before, stanza, after, htext, hfault, -⟩ := parse_eq_error.mp hcause
    have hstanza : stanza ∈ stanzas text := by simp [htext]
    refine ⟨stanza, hstanza, ?_⟩
    by_contra hn
    rw [hgood stanza hstanza hn] at hfault
    cases hfault
  · obtain ⟨stanza, hstanza, hfaulty⟩ := hfaulty
    -- the first stanza that fails need not be this one
    obtain ⟨e, he⟩ : ∃ e, (stanzas text).findSome? fault? = some e := by
      by_contra hnone
      have hall := List.findSome?_eq_none_iff.mp (Option.eq_none_iff_forall_ne_some.mpr (not_exists.mp hnone))
      exact (fault?_eq_none.mp (hall stanza hstanza)).1 hfaulty
    have hsplit := List.findSome?_eq_some_iff.mp he
    obtain ⟨before, first, after, htext, hfault, -⟩ := id hsplit
    rcases fault?_eq_some hfault with ⟨-, cause, rfl⟩ | ⟨-, ⟨entry, hentry⟩, -⟩
    · exact ⟨cause, parse_eq_error.mpr hsplit⟩
    · exact absurd hentry (hlow first (by simp [htext]) entry)
  · exact parse_eq_ok fun stanza hstanza => hgood stanza hstanza (hall stanza hstanza)

/-- A CPU without an APIC ID after one that has it. -/
theorem parse_reads_stanzas_partial :
    let text := "processor: 3\nphysical id: 1\napicid: 9\n\nprocessor: 4\nphysical id: 0".toList
    (∀ stanza ∈ stanzas text, ∀ line ∈ lines stanza, ∀ value,
      Gives line .cpu value → ¬ Numeral 10 max64 value max64) ∧ ∃ cause, parse text = .error (.parse cause) := by
  intro text
  have hlow : ∀ stanza ∈ stanzas text, ∀ line ∈ lines stanza, Stanza.number? .cpu line ≠ some max64 := by decide
  have hnumbers : ∀ stanza ∈ stanzas text, ∀ line ∈ lines stanza, ∀ value,
      Gives line .cpu value → ¬ Numeral 10 max64 value max64 :=
    fun stanza hstanza line hline value hgives hnumeral =>
      hlow stanza hstanza line hline (Stanza.number?_eq_some.mpr ⟨value, hgives, hnumeral⟩)
  obtain ⟨-, -, herror, -⟩ := parse_reads_stanzas hnumbers
  have hfault : fault? "processor: 4\nphysical id: 0".toList = some (.parse (.incomplete 4)) := by decide
  refine ⟨hnumbers, herror.mpr ⟨"processor: 4\nphysical id: 0".toList, by decide, ?_⟩⟩
  rcases fault?_eq_some hfault with ⟨hfaulty, -⟩ | ⟨-, -, hother⟩
  · exact hfaulty
  · cases hother

end FirmwareMailbox.CpuInfo
