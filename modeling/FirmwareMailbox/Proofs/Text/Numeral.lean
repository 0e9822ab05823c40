/-
  FirmwareMailbox.Proofs.Text.Numeral — which texts are numbers.

  A numeral is an optional plus with digits after it (`Numeral`), and its value is that of the digits, the
  highest first. Reading a number accepts exactly the numerals whose value is not above the limit, and gives
  the value (`readNumber?_eq_some`): digits only add to what was read before them, so a value that is above
  the limit stays there. What is written, with whatever zeros in front, is a numeral of its number.
-/

import FirmwareMailbox.Text.Blank
import FirmwareMailbox.Text.Numeral
import Mathlib.Data.List.Forall2
import Mathlib.Data.Nat.Digits.Defs
import Mathlib.Tactic.Ring

namespace FirmwareMailbox.Text

/-- `c` is the digit `d` of a base, a letter of either case from ten on. -/
def IsDigit (base : Nat) (c : Char) (d : Nat) : Prop :=
  d < base ∧ d < 16 ∧ (c = d.digitChar ∨ c = d.digitChar.toUpper)

/-- `cs` are digits, the highest first, and their value is `n`. -/
def Digits (base : Nat) (cs : List Char) (n : Nat) : Prop :=
  ∃ ds, List.Forall₂ (IsDigit base) cs ds ∧ n = Nat.ofDigits base ds.reverse

/-- `cs` writes `n`, which is not above `limit`: an optional plus and then one digit or more. -/
def Numeral (base limit : Nat) (cs : List Char) (n : Nat) : Prop :=
  n ≤ limit ∧ ∃ digits, (cs = digits ∨ cs = '+' :: digits) ∧ digits ≠ [] ∧ Digits base digits n

variable {base limit n d : Nat} {c : Char} {cs : List Char}

/-! ## Digits -/

theorem digitValue?_digitChar : ∀ d < 16, digitValue? 16 d.digitChar = some d ∧
    digitValue? 16 d.digitChar.toUpper = some d := by
  decide

theorem digitChar_of_digitValue? : ∀ k < 103, ∀ d ∈ digitValue? 16 (Char.ofNat k),
    d < 16 ∧ (Char.ofNat k = d.digitChar ∨ Char.ofNat k = d.digitChar.toUpper) := by
  decide

theorem digitValue?_eq_some : digitValue? base c = some d ↔ IsDigit base c d := by
  have hranges : ∀ b, digitValue? b c = some d ↔
      (if 48 ≤ c.toNat ∧ c.toNat ≤ 57 then some (c.toNat - 48)
        else if 97 ≤ c.toNat ∧ c.toNat ≤ 102 then some (c.toNat - 97 + 10)
        else if 65 ≤ c.toNat ∧ c.toNat ≤ 70 then some (c.toNat - 65 + 10)
        else none) = some d ∧ d < b := by
    intro b
    simp only [digitValue?, Option.filter_eq_some_iff, decide_eq_true_eq, Char.le_def,
      UInt32.le_iff_toNat_le]
    rfl
  -- Only the base bounds the digit, so the sixteen digits of the largest base decide.
  have hbase : digitValue? base c = some d ↔ digitValue? 16 c = some d ∧ d < base := by
    rw [hranges base, hranges 16]
    grind
  rw [hbase, IsDigit, and_comm]
  refine and_congr_right fun _ => ⟨fun h => ?_, fun ⟨hd, hc⟩ => ?_⟩
  · have hk : c.toNat < 103 := by
      have := ((hranges 16).mp h).1
      grind
    have hc := digitChar_of_digitValue? c.toNat hk d
    rw [Char.ofNat_toNat] at hc
    exact hc h
  · rcases hc with rfl | rfl
    · exact (digitValue?_digitChar d hd).1
    · exact (digitValue?_digitChar d hd).2

/-- A digit of any base is one of the sixteen. -/
theorem IsDigit.value (h : IsDigit base c d) : digitValue? 16 c = some d :=
  digitValue?_eq_some.mpr ⟨h.2.1, h.2.1, h.2.2⟩

theorem isDigit_zero (hb : 0 < base) : IsDigit base '0' 0 := ⟨hb, by decide, Or.inl rfl⟩

/-- A digit that follows adds to `base` times the value. -/
theorem ofDigits_push (acc d : Nat) (ds : List Nat) :
    Nat.ofDigits base (acc :: d :: ds).reverse = Nat.ofDigits base ((acc * base + d) :: ds).reverse := by
  simp only [List.reverse_cons, List.append_assoc, Nat.ofDigits_append, Nat.ofDigits_cons,
    Nat.ofDigits_nil, List.cons_append, List.nil_append]
  ring

theorem le_ofDigits (hb : 0 < base) (acc : Nat) (ds : List Nat) :
    acc ≤ Nat.ofDigits base (acc :: ds).reverse := by
  rw [List.reverse_cons, Nat.ofDigits_append, Nat.ofDigits_singleton]
  exact Nat.le_add_left_of_le (Nat.le_mul_of_pos_left acc (Nat.pow_pos hb))

theorem takeDigits_eq_ok {acc : Nat} (hacc : acc ≤ limit) : takeDigits base limit acc cs = .ok n ↔
    n ≤ limit ∧ ∃ ds, List.Forall₂ (IsDigit base) cs ds ∧ n = Nat.ofDigits base (acc :: ds).reverse := by
  induction cs generalizing acc with
  | nil =>
    simp only [takeDigits, Except.ok.injEq, List.forall₂_nil_left_iff, exists_eq_left, List.reverse_singleton,
      Nat.ofDigits_singleton]
    constructor
    · rintro rfl
      exact ⟨hacc, rfl⟩
    · exact fun h => h.2.symm
  | cons c cs ih =>
    simp only [takeDigits, List.forall₂_cons_left_iff]
    cases hv : digitValue? base c with
    | none =>
      refine iff_of_false (by simp) ?_
      rintro ⟨-, _, ⟨d, ds, hd, -, rfl⟩, -⟩
      rw [digitValue?_eq_some.mpr hd] at hv
      cases hv
    | some d =>
      have hd := digitValue?_eq_some.mp hv
      have honly : ∀ e, IsDigit base c e → e = d := fun e he =>
        Option.some.inj ((digitValue?_eq_some.mpr he).symm.trans hv)
      by_cases hlt : limit < acc * base + d
      · -- Whatever follows, the value stays above the limit.
        simp only [if_pos hlt, reduceCtorEq, false_iff]
        rintro ⟨hn, _, ⟨e, ds, he, -, rfl⟩, rfl⟩
        rw [ofDigits_push, honly e he] at hn
        exact absurd (Nat.lt_of_lt_of_le hlt (le_ofDigits (Nat.zero_lt_of_lt hd.1) _ ds)) (by omega)
      · simp only [if_neg hlt]
        rw [ih (by omega)]
        refine and_congr_right fun _ => ⟨?_, ?_⟩
        · rintro ⟨ds, hds, rfl⟩
          exact ⟨_, ⟨d, ds, hd, hds, rfl⟩, (ofDigits_push acc d ds).symm⟩
        · rintro ⟨_, ⟨e, ds, he, hds, rfl⟩, rfl⟩
          obtain rfl := honly e he
          exact ⟨ds, hds, ofDigits_push acc e ds⟩

/-! ## Numbers -/

theorem takeDigits_zero : takeDigits base limit 0 cs = .ok n ↔ n ≤ limit ∧ Digits base cs n := by
  rw [takeDigits_eq_ok (Nat.zero_le _)]
  simp only [Digits, List.reverse_cons, Nat.ofDigits_append, Nat.ofDigits_singleton, Nat.mul_zero, Nat.add_zero]

/-- A plus is no digit. -/
theorem not_digits_plus : ¬ Digits base ('+' :: cs) n := by
  rintro ⟨_, hds, -⟩
  obtain ⟨_, _, hd, -, -⟩ := List.forall₂_cons_left_iff.mp hds
  have hnone : digitValue? 16 '+' = none := by decide
  rw [IsDigit.value hd] at hnone
  cases hnone

theorem readNumber_eq_ok : readNumber base limit cs = .ok n ↔ Numeral base limit cs n := by
  unfold readNumber Numeral
  split
  · simp
  · simp [not_digits_plus]
  · rename_i c cs
    rw [takeDigits_zero]
    refine and_congr_right fun _ => ⟨fun h => ⟨_, Or.inr rfl, List.cons_ne_nil c cs, h⟩, ?_⟩
    rintro ⟨digits, rfl | hcs, -, hd⟩
    · exact absurd hd not_digits_plus
    · exact (List.cons.inj hcs).2 ▸ hd
  · rename_i hnil _ hmore
    rw [takeDigits_zero]
    refine and_congr_right fun _ => ⟨fun h => ⟨cs, Or.inl rfl, hnil, h⟩, ?_⟩
    rintro ⟨digits, rfl | rfl, hne, hd⟩
    · exact hd
    · cases digits with
      | nil => exact absurd rfl hne
      | cons c digits => exact absurd rfl (hmore c digits)

/-- Reading accepts the numerals, and no other text. -/
theorem readNumber?_eq_some : readNumber? base limit cs = some n ↔ Numeral base limit cs n := by
  rw [← readNumber_eq_ok, readNumber?]
  cases readNumber base limit cs <;> simp [Except.toOption]

/-- The characters of a numeral are digits and the plus. -/
theorem Numeral.of_mem (h : Numeral base limit cs n) (hc : c ∈ cs) : c = '+' ∨ ∃ d, IsDigit base c d := by
  obtain ⟨-, digits, hcs, -, ds, hds, -⟩ := h
  have hdigit : c ∈ digits → ∃ d, IsDigit base c d := by
    intro hmem
    obtain ⟨i, hi, rfl⟩ := List.getElem_of_mem hmem
    exact ⟨_, hds.get hi (hds.length_eq ▸ hi)⟩
  rcases hcs with rfl | rfl
  · exact Or.inr (hdigit hc)
  · exact (List.mem_cons.mp hc).imp_right hdigit

theorem Numeral.ne_nil (h : Numeral base limit cs n) : cs ≠ [] := by
  obtain ⟨-, digits, rfl | rfl, hne, -⟩ := h
  · exact hne
  · exact List.cons_ne_nil _ _

theorem Numeral.not_mem {sep : Char} (h : Numeral base limit cs n) (hs : digitValue? 16 sep = none)
    (hp : sep ≠ '+') : sep ∉ cs := by
  intro hmem
  rcases h.of_mem hmem with hplus | ⟨d, hd⟩
  · exact hp hplus
  · rw [hd.value] at hs
    cases hs

theorem Numeral.not_blank (h : Numeral base limit cs n) (hc : c ∈ cs) : isBlank c = false := by
  have hdigits : ∀ d < 16, isBlank d.digitChar = false ∧ isBlank d.digitChar.toUpper = false := by decide
  rcases h.of_mem hc with rfl | ⟨d, -, hd, rfl | rfl⟩
  · decide
  · exact (hdigits d hd).1
  · exact (hdigits d hd).2

/-! ## Writing -/

theorem Digits.zeros (hb : 0 < base) (k : Nat) (h : Digits base cs n) :
    Digits base (List.replicate k '0' ++ cs) n := by
  induction k with
  | zero => exact h
  | succ k ih =>
    obtain ⟨ds, hds, rfl⟩ := ih
    refine ⟨0 :: ds, .cons (isDigit_zero hb) hds, ?_⟩
    rw [List.reverse_cons, Nat.ofDigits_append, Nat.ofDigits_singleton, Nat.mul_zero, Nat.add_zero]

theorem digits_toDigits (hb : 1 < base) (hb' : base ≤ 16) (n : Nat) : Digits base (Nat.toDigits base n) n := by
  have hdigit : ∀ d < base, IsDigit base d.digitChar d := fun d hd =>
    ⟨hd, Nat.lt_of_lt_of_le hd hb', Or.inl rfl⟩
  induction n using Nat.strongRecOn with
  | ind n ih =>
    by_cases hn : n < base
    · rw [Nat.toDigits_of_lt_base hn]
      exact ⟨[n], .cons (hdigit n hn) .nil, Nat.ofDigits_singleton.symm⟩
    · have hle : base ≤ n := Nat.le_of_not_lt hn
      obtain ⟨ds, hds, hval⟩ := ih (n / base) (Nat.div_lt_self (by omega) hb)
      rw [Nat.toDigits_of_base_le hb hle]
      refine ⟨ds ++ [n % base], List.rel_append hds (.cons (hdigit _ (Nat.mod_lt n (by omega))) .nil), ?_⟩
      rw [List.reverse_append, List.reverse_singleton, List.singleton_append, Nat.ofDigits_cons, ← hval]
      exact (Nat.mod_add_div n base).symm

theorem numeral_toDigits (h : n ≤ limit) : Numeral 10 limit (Nat.toDigits 10 n) n :=
  ⟨h, _, Or.inl rfl, Nat.toDigits_ne_nil, digits_toDigits (by decide) (by decide) n⟩

theorem numeral_hexDigits (width : Nat) (h : n ≤ limit) : Numeral 16 limit (hexDigits width n) n := by
  refine ⟨h, _, Or.inl rfl, ?_, (digits_toDigits (by decide) (Nat.le_refl 16) n).zeros (by decide) _⟩
  exact List.append_ne_nil_of_right_ne_nil _ Nat.toDigits_ne_nil

theorem length_hexDigits_le {width k : Nat} (hk : 0 < k) (hw : width ≤ k) (h : n < 16 ^ k) :
    (hexDigits width n).length ≤ k := by
  have hlen := Nat.toDigits_length 16 n k hk h
  simp only [hexDigits, List.length_append, List.length_replicate]
  omega

end FirmwareMailbox.Text
