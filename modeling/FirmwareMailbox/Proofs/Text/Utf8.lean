/-
  FirmwareMailbox.Proofs.Text.Utf8 — which octets are read as which characters.

  A sequence is well-formed if it is one of those of four shapes that the reader knows (`Codes`), and those are the
  ones that characters are written as (`codes_iff`). So a text starts with a character exactly if it starts with
  that character's octets (`head_eq_char_iff`), and both readers take the octets of a text back to the text: the
  strict one any text (`decode?_eq_some_iff`), the lenient one any text without the character that it writes for
  ill-formed parts (`decodeLossy_eq_iff`).
-/

import FirmwareMailbox.Text.Utf8
import Mathlib.Data.List.Basic

namespace FirmwareMailbox.Text.Utf8

/-! ## Well-formed sequences -/

theorem toNat_ofNat {v : Nat} (h : v.isValidChar) : (Char.ofNat v).toNat = v := by
  rw [Char.ofNat, dif_pos h]
  rfl

/-- The octets that code a number: the shortest ones, and none that code half of a pair or a number that is too
    great. -/
inductive Codes : List UInt8 → Nat → Prop where
  | one {a : UInt8} : a.toNat < 0x80 → Codes [a] a.toNat
  | two {a b : UInt8} : 0xC2 ≤ a.toNat → a.toNat ≤ 0xDF → isTail b = true →
      Codes [a, b] (a.toNat % 32 * 64 + payload b)
  | three {a b c : UInt8} : 0xE0 ≤ a.toNat → a.toNat ≤ 0xEF → within (second3 a) b = true → isTail c = true →
      Codes [a, b, c] ((a.toNat % 16 * 64 + payload b) * 64 + payload c)
  | four {a b c d : UInt8} : 0xF0 ≤ a.toNat → a.toNat ≤ 0xF4 → within (second4 a) b = true → isTail c = true →
      isTail d = true →
      Codes [a, b, c, d] (((a.toNat % 8 * 64 + payload b) * 64 + payload c) * 64 + payload d)

variable {a b c d : UInt8} {bs rest : List UInt8} {v n : Nat}

theorem isTail_iff : isTail b = true ↔ 0x80 ≤ b.toNat ∧ b.toNat ≤ 0xBF := by
  simp [isTail, UInt8.le_iff_toNat_le]

theorem within_second3_iff : within (second3 a) b = true ↔ 0x80 ≤ b.toNat ∧ b.toNat ≤ 0xBF ∧
    (a.toNat = 0xE0 → 0xA0 ≤ b.toNat) ∧ (a.toNat = 0xED → b.toNat ≤ 0x9F) := by
  simp only [within, second3, Bool.and_eq_true, decide_eq_true_eq, UInt8.le_iff_toNat_le, ← UInt8.toNat_inj]
  split_ifs with hE0 hED
  all_goals
    simp only [UInt8.reduceToNat] at *
    omega

theorem within_second4_iff : within (second4 a) b = true ↔ 0x80 ≤ b.toNat ∧ b.toNat ≤ 0xBF ∧
    (a.toNat = 0xF0 → 0x90 ≤ b.toNat) ∧ (a.toNat = 0xF4 → b.toNat ≤ 0x8F) := by
  simp only [within, second4, Bool.and_eq_true, decide_eq_true_eq, UInt8.le_iff_toNat_le, ← UInt8.toNat_inj]
  split_ifs with hF0 hF4
  all_goals
    simp only [UInt8.reduceToNat] at *
    omega

/-- The octets of a character's number, as far as they are needed. -/
def octets (v : Nat) : List UInt8 :=
  if v < 0x80 then [UInt8.ofNat v]
  else if v < 0x800 then [UInt8.ofNat (v / 64 + 0xC0), UInt8.ofNat (v % 64 + 0x80)]
  else if v < 0x10000 then
    [UInt8.ofNat (v / 4096 + 0xE0), UInt8.ofNat (v / 64 % 64 + 0x80), UInt8.ofNat (v % 64 + 0x80)]
  else
    [UInt8.ofNat (v / 262144 + 0xF0), UInt8.ofNat (v / 4096 % 64 + 0x80), UInt8.ofNat (v / 64 % 64 + 0x80),
      UInt8.ofNat (v % 64 + 0x80)]

theorem Codes.valid (h : Codes bs v) : v.isValidChar := by
  cases h with
  | one ha => exact Or.inl (by omega)
  | two ha ha' hb =>
    rw [isTail_iff] at hb
    simp only [payload]
    exact Or.inl (by omega)
  | three ha ha' hb hc =>
    rw [within_second3_iff] at hb
    rw [isTail_iff] at hc
    simp only [Nat.isValidChar, payload]
    omega
  | four ha ha' hb hc hd =>
    rw [within_second4_iff] at hb
    rw [isTail_iff] at hc hd
    simp only [Nat.isValidChar, payload]
    omega

theorem Codes.octets_eq (h : Codes bs v) : octets v = bs := by
  cases h with
  | one ha => rw [octets, if_pos ha, UInt8.ofNat_toNat]
  | two ha ha' hb =>
    rw [isTail_iff] at hb
    rw [payload, octets, if_neg (by omega), if_pos (by omega)]
    simp only [List.cons.injEq, ← UInt8.toNat_inj, UInt8.toNat_ofNat', and_true]
    omega
  | three ha ha' hb hc =>
    rw [within_second3_iff] at hb
    rw [isTail_iff] at hc
    simp only [payload]
    rw [octets, if_neg (by omega), if_neg (by omega), if_pos (by omega)]
    simp only [List.cons.injEq, ← UInt8.toNat_inj, UInt8.toNat_ofNat', and_true]
    omega
  | four ha ha' hb hc hd =>
    rw [within_second4_iff] at hb
    rw [isTail_iff] at hc hd
    simp only [payload]
    rw [octets, if_neg (by omega), if_neg (by omega), if_neg (by omega)]
    simp only [List.cons.injEq, ← UInt8.toNat_inj, UInt8.toNat_ofNat', and_true]
    omega

theorem codes_octets (h : v.isValidChar) : Codes (octets v) v := by
  have hcast : ∀ {bs w}, Codes bs w → w = v → Codes bs v := fun hw heq => heq ▸ hw
  simp only [Nat.isValidChar] at h
  unfold octets
  split_ifs with h1 h2 h3
  · refine hcast (Codes.one ?_) ?_ <;> simp only [UInt8.toNat_ofNat'] <;> omega
  · refine hcast (Codes.two ?_ ?_ (isTail_iff.mpr ?_)) ?_ <;> simp only [UInt8.toNat_ofNat', payload] <;> omega
  · refine hcast (Codes.three ?_ ?_ (within_second3_iff.mpr ?_) (isTail_iff.mpr ?_)) ?_ <;>
      simp only [UInt8.toNat_ofNat', payload] <;> omega
  · refine hcast (Codes.four ?_ ?_ (within_second4_iff.mpr ?_) (isTail_iff.mpr ?_) (isTail_iff.mpr ?_)) ?_ <;>
      simp only [UInt8.toNat_ofNat', payload] <;> omega

theorem utf8EncodeChar_eq (c : Char) : String.utf8EncodeChar c = octets c.toNat := by
  have hc : c.toNat.isValidChar := c.valid
  simp only [Nat.isValidChar] at hc
  have hval : c.val.toNat = c.toNat := rfl
  simp only [String.utf8EncodeChar, hval, octets, ← Nat.lt_succ_iff, Nat.succ_eq_add_one, Nat.reduceAdd]
  split_ifs with h1 h2 h3
  · rfl
  all_goals
    simp only [List.cons.injEq, ← UInt8.toNat_inj, UInt8.toNat_ofNat', and_true]
    omega

/-- What codes a character is what the character is written as. -/
theorem codes_iff {c : Char} : Codes bs c.toNat ↔ bs = String.utf8EncodeChar c := by
  rw [utf8EncodeChar_eq]
  exact ⟨fun h => h.octets_eq.symm, fun h => h ▸ codes_octets c.valid⟩

/-! ## Heads -/

theorem Codes.head_eq (h : Codes (a :: bs) v) (rest : List UInt8) :
    head a (bs ++ rest) = .char (Char.ofNat v) (bs.length + 1) := by
  unfold head
  simp only [UInt8.lt_iff_toNat_lt, UInt8.le_iff_toNat_le, Bool.and_eq_true, decide_eq_true_eq, UInt8.reduceToNat]
  cases h with
  | one ha => simp only [ha, if_true, List.length_nil]
  | two ha ha' hb =>
    rw [if_neg (by omega), if_pos (by omega)]
    simp [hb]
  | three ha ha' hb hc =>
    rw [if_neg (by omega), if_neg (by omega), if_pos (by omega)]
    simp [hb, hc]
  | four ha ha' hb hc hd =>
    rw [if_neg (by omega), if_neg (by omega), if_neg (by omega), if_pos (by omega)]
    simp [hb, hc, hd]

theorem codes_of_head {c : Char} (h : head a rest = .char c n) :
    ∃ bs, Codes (a :: bs) c.toNat ∧ bs <+: rest ∧ n = bs.length + 1 := by
  have hchar : ∀ {bs : List UInt8} {v : Nat}, Codes (a :: bs) v → Codes (a :: bs) (Char.ofNat v).toNat := fun h => by
    rw [toNat_ofNat h.valid]
    exact h
  unfold head at h
  simp only [UInt8.lt_iff_toNat_lt, UInt8.le_iff_toNat_le, Bool.and_eq_true, decide_eq_true_eq, UInt8.reduceToNat] at h
  split_ifs at h with h1 h2 h3 h4
  · cases h
    exact ⟨[], hchar (.one h1), List.nil_prefix, rfl⟩
  · split at h
    · split_ifs at h with hb
      cases h
      exact ⟨[_], hchar (.two h2.1 h2.2 hb), List.prefix_append _ _, rfl⟩
    · cases h
  · split at h
    · split_ifs at h with hb
      split at h
      · split_ifs at h with hc
        cases h
        exact ⟨[_, _], hchar (.three h3.1 h3.2 hb hc), List.prefix_append _ _, rfl⟩
      · cases h
    · cases h
  · split at h
    · split_ifs at h with hb
      split at h
      · split_ifs at h with hc
        split at h
        · split_ifs at h with hd
          cases h
          exact ⟨[_, _, _], hchar (.four h4.1 h4.2 hb hc hd), List.prefix_append _ _, rfl⟩
        · cases h
      · cases h
    · cases h

/-- A text starts with a character if it starts with the octets that the character is written as. -/
theorem head_eq_char_iff {c : Char} : head a rest = .char c n ↔
    ∃ tail, String.utf8EncodeChar c = a :: tail ∧ tail <+: rest ∧ n = tail.length + 1 := by
  constructor
  · intro h
    obtain ⟨tail, hcodes, htail, hn⟩ := codes_of_head h
    exact ⟨tail, (codes_iff.mp hcodes).symm, htail, hn⟩
  · intro h
    obtain ⟨tail, hc, ⟨rest, rfl⟩, rfl⟩ := h
    have hhead := (codes_iff.mpr hc.symm).head_eq rest
    rw [Char.ofNat_toNat] at hhead
    exact hhead

/-! ## Texts -/

/-- The head of a text that starts with this character. -/
def coded (c : Char) : Head := .char c (String.utf8EncodeChar c).length

theorem eq_coded_of_head {c : Char} (h : head a rest = .char c n) : head a rest = coded c := by
  obtain ⟨tail, hc, -, rfl⟩ := head_eq_char_iff.mp h
  rw [h, coded, hc, List.length_cons]

theorem heads_of_coded {c : Char} (h : head a rest = coded c) :
    heads (a :: rest) = coded c :: heads (rest.drop ((String.utf8EncodeChar c).length - 1)) := by
  rw [heads, h]
  rfl

/-- The octets that follow a character are read as if they stood alone. -/
theorem heads_append (c : Char) (bs : List UInt8) :
    heads (String.utf8EncodeChar c ++ bs) = coded c :: heads bs := by
  obtain ⟨a, tail, hc⟩ := List.exists_cons_of_length_pos (l := String.utf8EncodeChar c)
    (by rw [String.length_utf8EncodeChar]; exact c.utf8Size_pos)
  have hhead : head a (tail ++ bs) = coded c := by
    rw [coded, hc]
    exact head_eq_char_iff.mpr ⟨tail, hc, List.prefix_append _ _, rfl⟩
  rw [hc, List.cons_append, heads_of_coded hhead, hc, List.length_cons, Nat.add_sub_cancel, List.drop_left]

theorem heads_eq_map_coded_iff {cs : List Char} :
    heads bs = cs.map coded ↔ bs = cs.flatMap String.utf8EncodeChar := by
  constructor
  · intro h
    induction cs generalizing bs with
    | nil =>
      cases bs with
      | nil => rfl
      | cons a rest => simp [heads] at h
    | cons c cs ih =>
      cases bs with
      | nil => simp [heads] at h
      | cons a rest =>
        rw [List.map_cons, heads, List.cons.injEq] at h
        obtain ⟨hhead, hrest⟩ := h
        obtain ⟨tail, hc, ⟨rest, rfl⟩, -⟩ := head_eq_char_iff.mp hhead
        simp only [hhead, coded, hc, List.length_cons, Nat.add_sub_cancel, List.drop_left] at hrest
        rw [List.flatMap_cons, hc, ← ih hrest, List.cons_append]
  · intro h
    subst h
    induction cs with
    | nil => rw [List.flatMap_nil, heads, List.map_nil]
    | cons c cs ih => rw [List.flatMap_cons, heads_append, ih, List.map_cons]

theorem eq_coded_of_mem_heads {c : Char} (h : .char c n ∈ heads bs) : Head.char c n = coded c := by
  induction bs using heads.induct with
  | case1 => simp [heads] at h
  | case2 a rest hd size ih =>
    rw [heads, List.mem_cons] at h
    cases h with
    | inl hhead => rw [hhead, eq_coded_of_head hhead.symm]
    | inr hrest => exact ih hrest

/-- A text is read as these characters if it is what they are written as. -/
theorem decode?_eq_some_iff {cs : List Char} : decode? bs = some cs ↔ bs = cs.flatMap String.utf8EncodeChar := by
  have hcoded : ∀ c n, .char c n ∈ heads bs → Head.char c n = coded c := fun c n => eq_coded_of_mem_heads
  rw [← heads_eq_map_coded_iff, decode?]
  generalize heads bs = hs at hcoded ⊢
  induction hs generalizing cs with
  | nil => cases cs <;> simp
  | cons hd hs ih =>
    cases hd with
    | bad n => cases cs <;> simp [coded]
    | char c n =>
      rw [hcoded c n List.mem_cons_self]
      cases cs with
      | nil => simp [coded, Option.bind_eq_some_iff]
      | cons c' cs =>
        have ih := @ih cs fun c n hc => hcoded c n (List.mem_cons_of_mem _ hc)
        simp only [List.mapM_cons, coded, Option.bind_eq_bind, Option.bind_some, Option.pure_def,
          Option.bind_eq_some_iff, Option.some.injEq, List.cons.injEq, List.map_cons, Head.char.injEq]
        constructor
        · rintro ⟨cs', hcs', rfl, rfl⟩
          exact ⟨⟨rfl, rfl⟩, ih.mp hcs'⟩
        · rintro ⟨⟨rfl, -⟩, hhs⟩
          exact ⟨cs, ih.mpr hhs, rfl, rfl⟩

/-- Without replacement characters, what is read is what the text is written as. -/
theorem decodeLossy_eq_iff {cs : List Char} (h : replacement ∉ cs) :
    decodeLossy bs = cs ↔ bs = cs.flatMap String.utf8EncodeChar := by
  have hcoded : ∀ c n, .char c n ∈ heads bs → Head.char c n = coded c := fun c n => eq_coded_of_mem_heads
  rw [← heads_eq_map_coded_iff, decodeLossy]
  generalize heads bs = hs at hcoded ⊢
  induction hs generalizing cs with
  | nil => cases cs <;> simp
  | cons hd hs ih =>
    cases cs with
    | nil => simp
    | cons c' cs =>
      rw [List.mem_cons, not_or] at h
      have ih := ih h.2 fun c n hc => hcoded c n (List.mem_cons_of_mem _ hc)
      cases hd with
      | bad n => simp [coded, h.1]
      | char c n =>
        rw [hcoded c n List.mem_cons_self]
        simp only [List.map_cons, coded, List.cons.injEq, ih, Head.char.injEq]
        exact and_congr_left fun _ => ⟨fun hc => hc ▸ ⟨rfl, rfl⟩, fun hc => hc.1⟩

end FirmwareMailbox.Text.Utf8
