/-
  FirmwareMailbox.Proofs.Config.Numbers — the numbers that a user gives.

  A bus number is a numeral of eight bits, hexadecimal behind `0x` or `0X` and decimal otherwise
  (`BusNumeral`). A poll budget is a positive decimal numeral of 32 bits between blanks (`PollNumeral`).
  Reading them accepts these texts with their values and refuses every other text, so nothing wraps and
  nothing is cut off.

  So an environment makes a configuration with a budget of one poll at least, or none. That is enough for
  the exchange: it gives up on the firmware only after it spent the budget, so only after it read the
  status (`user_numbers_read_exactly`).
-/

import FirmwareMailbox.Command.Basic
import FirmwareMailbox.Config
import FirmwareMailbox.Proofs.Session.Reasons
import FirmwareMailbox.Proofs.Text.Numeral
import FirmwareMailbox.Proofs.Text.Split

namespace FirmwareMailbox

open Text

/-! ## Bus numbers -/

namespace Command

/-- `cs` writes the bus `n`. -/
inductive BusNumeral (cs : List Char) (n : Nat) : Prop
  | hex {x : Char} {digits : List Char} : x = 'x' ∨ x = 'X' → cs = '0' :: x :: digits →
      Numeral 16 max8 digits n → BusNumeral cs n
  | decimal : Numeral 10 max8 cs n → BusNumeral cs n

variable {s : String} {cs : List Char} {n : Nat}

/-- A decimal numeral does not start as a hexadecimal one. -/
theorem not_decimal_lead {x : Char} {digits : List Char} (hx : x = 'x' ∨ x = 'X') :
    ¬ Numeral 10 max8 ('0' :: x :: digits) n := by
  have hletter : digitValue? 16 x = none ∧ x ≠ '+' := by
    rcases hx with rfl | rfl <;> decide
  intro h
  exact h.not_mem hletter.1 hletter.2 (List.mem_cons_of_mem _ (List.mem_cons_self ..))

/-- The number of a bus, and what is wrong with its text if there is none. -/
def busValue (cs : List Char) : Except NumberFault Nat :=
  match (dropLead? ['0', 'x'] cs).or (dropLead? ['0', 'X'] cs) with
  | some digits => readNumber 16 max8 digits
  | none => readNumber 10 max8 cs

theorem readBus_eq (s : String) : readBus s =
    match busValue s.toList with
    | .ok n => .ok (UInt8.ofNat n)
    | .error f => .error (busFault s f) := rfl

theorem busValue_eq_ok : busValue cs = .ok n ↔ BusNumeral cs n := by
  have hlead : ∀ {digits}, (dropLead? ['0', 'x'] cs).or (dropLead? ['0', 'X'] cs) = some digits ↔
      ∃ x, (x = 'x' ∨ x = 'X') ∧ cs = '0' :: x :: digits := by
    intro digits
    simp only [Option.or_eq_some_iff, Option.eq_none_iff_forall_ne_some, ne_eq, dropLead?_eq_some]
    constructor
    · rintro (h | ⟨-, h⟩)
      · exact ⟨'x', Or.inl rfl, h⟩
      · exact ⟨'X', Or.inr rfl, h⟩
    · rintro ⟨x, rfl | rfl, rfl⟩
      · exact Or.inl rfl
      · exact Or.inr ⟨by simp, rfl⟩
  unfold busValue
  cases hd : (dropLead? ['0', 'x'] cs).or (dropLead? ['0', 'X'] cs) with
  | some digits =>
    obtain ⟨x, hx, rfl⟩ := hlead.mp hd
    rw [readNumber_eq_ok]
    constructor
    · intro h
      exact .hex hx rfl h
    · intro h
      cases h with
      | hex _ hcs h =>
        cases hcs
        exact h
      | decimal h => exact absurd h (not_decimal_lead hx)
  | none =>
    rw [readNumber_eq_ok]
    constructor
    · intro h
      exact .decimal h
    · intro h
      cases h with
      | hex hx hcs _ =>
        rw [hlead.mpr ⟨_, hx, hcs⟩] at hd
        cases hd
      | decimal h => exact h

theorem BusNumeral.lt (h : BusNumeral cs n) : n < UInt8.size := by
  cases h with
  | hex _ _ h => exact Nat.lt_succ_of_le h.1
  | decimal h => exact Nat.lt_succ_of_le h.1

theorem readBus_eq_ok {b : UInt8} : readBus s = .ok b ↔ BusNumeral s.toList b.toNat := by
  rw [readBus_eq, ← busValue_eq_ok]
  cases hv : busValue s.toList with
  | error f => simp
  | ok n =>
    have hn : (UInt8.ofNat n).toNat = n := UInt8.toNat_ofNat_of_lt' (busValue_eq_ok.mp hv).lt
    simp only [Except.ok.injEq]
    constructor
    · rintro rfl
      exact hn.symm
    · rintro rfl
      exact UInt8.ofNat_toNat

/-- Plus and zeros in front, and letters of either case. -/
example : readBus "0X+00fF" = .ok 0xFF := by rfl

/-- A text that is no bus number is refused with what is wrong with it. -/
theorem readBus_eq_error (h : ∀ n, ¬ BusNumeral s.toList n) : ∃ f, readBus s = .error (busFault s f) := by
  rw [readBus_eq]
  cases hv : busValue s.toList with
  | error f => exact ⟨f, rfl⟩
  | ok n => exact absurd (busValue_eq_ok.mp hv) (h n)

end Command

/-! ## Poll budgets -/

namespace Config

/-- `cs` writes the poll budget `n`. -/
structure PollNumeral (cs : List Char) (n : Nat) : Prop where
  pos : 1 ≤ n
  between : ∃ before digits after, cs = before ++ digits ++ after ∧ (∀ c ∈ before, isBlank c = true) ∧
    (∀ c ∈ after, isBlank c = true) ∧ Numeral 10 max32 digits n

variable {s : String} {cs : List Char} {n : Nat}

/-- A numeral has no blanks, so what stands between blanks is what trimming leaves. -/
theorem numeral_trim : Numeral 10 max32 (trim cs) n ↔ ∃ before digits after, cs = before ++ digits ++ after ∧
    (∀ c ∈ before, isBlank c = true) ∧ (∀ c ∈ after, isBlank c = true) ∧ Numeral 10 max32 digits n := by
  constructor
  · intro h
    obtain ⟨before, after, hcs, hb, ha⟩ := exists_trim cs
    exact ⟨before, trim cs, after, hcs, hb, ha, h⟩
  · rintro ⟨before, digits, after, rfl, hb, ha, h⟩
    rwa [trim_append hb ha (fun c hc => h.not_blank (List.mem_of_mem_head? hc))
      (fun c hc => h.not_blank (List.mem_of_mem_getLast? hc)) h.ne_nil]

theorem PollNumeral.iff : PollNumeral cs n ↔ 1 ≤ n ∧ readNumber 10 max32 (trim cs) = .ok n := by
  rw [readNumber_eq_ok, numeral_trim]
  exact ⟨fun h => ⟨h.pos, h.between⟩, fun h => ⟨h.1, h.2⟩⟩

theorem readPolls_eq_ok {polls : UInt32} : readPolls s = .ok polls ↔ PollNumeral s.toList polls.toNat := by
  rw [PollNumeral.iff, readPolls]
  cases hv : readNumber 10 max32 (trim s.toList) with
  | error f => simp
  | ok n =>
    have hn : (UInt32.ofNat n).toNat = n :=
      UInt32.toNat_ofNat_of_lt' (Nat.lt_succ_of_le (readNumber_eq_ok.mp hv).1)
    cases n with
    | zero =>
      refine iff_of_false (fun h => by cases h) fun h => ?_
      have h0 : polls.toNat = 0 := (Except.ok.inj h.2).symm
      omega
    | succ n =>
      simp only [Except.ok.injEq]
      constructor
      · rintro rfl
        rw [hn]
        exact ⟨Nat.succ_pos n, rfl⟩
      · rintro ⟨-, h⟩
        rw [h, UInt32.ofNat_toNat]

example : readPolls " +0500\t" = .ok 500 := by rfl

/-- Every other text is refused, and the error quotes it. -/
theorem readPolls_eq_error {e : Error} :
    readPolls s = .error e ↔ (∀ n, ¬ PollNumeral s.toList n) ∧ e = .configuration (.polls s) := by
  simp only [PollNumeral.iff]
  rw [readPolls]
  cases hv : readNumber 10 max32 (trim s.toList) with
  | error f => simp [eq_comm]
  | ok n =>
    cases n with
    | zero =>
      have hnone : ∀ n, ¬ (1 ≤ n ∧ (Except.ok 0 : Except NumberFault Nat) = .ok n) := by
        rintro n ⟨hpos, h⟩
        cases h
        omega
      rw [and_iff_right hnone]
      constructor
      · intro h
        cases h
        rfl
      · rintro rfl
        rfl
    | succ n =>
      refine iff_of_false (fun h => by cases h) fun h => ?_
      exact h.1 (n + 1) ⟨Nat.succ_pos n, rfl⟩

/-- An environment fails to make a configuration only by its poll budget. -/
theorem ofEnvironment_eq_error {lookup : String → Option String} {e : Error} :
    ofEnvironment lookup = .error e ↔
      ∃ text, lookup "HSMP_MAILBOX_POLLS" = some text ∧ readPolls text = .error e := by
  unfold ofEnvironment
  cases lookup "HSMP_MAILBOX_POLLS" with
  | none => simp [pure, Except.pure]
  | some text => cases hp : readPolls text <;> simp [hp, bind, Except.bind, pure, Except.pure]

/-- The budget is the one that the environment sets, or the default one. -/
theorem ofEnvironment_polls {lookup : String → Option String} {c : Config} (h : ofEnvironment lookup = .ok c) :
    (lookup "HSMP_MAILBOX_POLLS" = none ∧ c.polls = 500) ∨
      ∃ text, lookup "HSMP_MAILBOX_POLLS" = some text ∧ readPolls text = .ok c.polls := by
  unfold ofEnvironment at h
  cases hp : lookup "HSMP_MAILBOX_POLLS" with
  | none =>
    rw [hp] at h
    cases h
    refine Or.inl ⟨rfl, ?_⟩
    cases lookup "HSMP_LOCK_FILE" <;> cases lookup "HSMP_ROOT_PREFIX" <;> rfl
  | some text =>
    rw [hp] at h
    cases hr : readPolls text with
    | error e => simp only [hr, bind, Except.bind] at h; cases h
    | ok polls =>
      simp only [hr, bind, Except.bind] at h
      cases h
      exact Or.inr ⟨text, rfl, hr⟩

/-- Whatever the environment, there is a poll to wait for. -/
theorem ofEnvironment_polls_pos {lookup : String → Option String} {c : Config} (h : ofEnvironment lookup = .ok c) :
    1 ≤ c.polls.toNat := by
  rcases ofEnvironment_polls h with ⟨-, hc⟩ | ⟨text, -, hr⟩
  · rw [hc]
    decide
  · exact (readPolls_eq_ok.mp hr).pos

end Config

/-- A bus number is read from the texts that write one, with its value, and no other text is one; a poll
    budget is read likewise, and is never 0. An environment whose budget is none makes no configuration.
    Every other environment makes one, with the budget that it sets or 500, and in a session with it an
    exchange gives up on the firmware, and a step ends in a timeout that is no reply of the machine's, only
    after a message was sent and the status was read as often as the budget says, once at least, and found
    clear each time. -/
theorem user_numbers_read_exactly :
    (∀ (s : String) (bus : UInt8), Command.readBus s = .ok bus ↔ Command.BusNumeral s.toList bus.toNat) ∧
    (∀ s : String, (∀ n, ¬ Command.BusNumeral s.toList n) →
      ∃ f, Command.readBus s = .error (Command.busFault s f)) ∧
    (∀ (s : String) (polls : UInt32), Config.readPolls s = .ok polls ↔
      Config.PollNumeral s.toList polls.toNat) ∧
    (∀ s : String, (∀ n, ¬ Config.PollNumeral s.toList n) →
      Config.readPolls s = .error (.configuration (.polls s))) ∧
    (∀ (lookup : String → Option String) (e : Error), Config.ofEnvironment lookup = .error e ↔
      ∃ text, lookup "HSMP_MAILBOX_POLLS" = some text ∧ (∀ n, ¬ Config.PollNumeral text.toList n) ∧
        e = .configuration (.polls text)) ∧
    ∀ (lookup : String → Option String) (c : Config), Config.ofEnvironment lookup = .ok c →
      ((lookup "HSMP_MAILBOX_POLLS" = none ∧ c.polls = 500) ∨
        ∃ text, lookup "HSMP_MAILBOX_POLLS" = some text ∧ Config.PollNumeral text.toList c.polls.toNat) ∧
      1 ≤ c.polls.toNat ∧
      (∀ (d : DeviceHandle) (m : Message) (highest : Option MessageId) (es : List Event)
        (r : Except Error (List UInt32)), Job.Yields (m.exchange c d highest) es r → ⟨.disable, ()⟩ ∈ es →
          m.Silent c d es ∧ StatusFound d Status.notReady es) ∧
      ∀ (st : Step) (es : List Event) (id : MessageId) (polls : UInt32),
        Job.Yields (st.perform ⟨c⟩) es (.error (.timeout id polls)) →
          (∃ x ∈ es, x.failure? = some (.timeout id polls)) ∨
            polls = c.polls ∧ ∃ (d : DeviceHandle) (m : Message), m.id = id ∧ m.Silent c d es ∧
              StatusFound d Status.notReady es := by
  refine ⟨?_, ?_, ?_, ?_, ?_, ?_⟩
  · intro s bus
    exact Command.readBus_eq_ok
  · intro s h
    exact Command.readBus_eq_error h
  · intro s polls
    exact Config.readPolls_eq_ok
  · intro s h
    exact Config.readPolls_eq_error.mpr ⟨h, rfl⟩
  · intro lookup e
    rw [Config.ofEnvironment_eq_error]
    exact exists_congr fun text => and_congr_right fun _ => Config.readPolls_eq_error
  · intro lookup c hc
    have hpos := Config.ofEnvironment_polls_pos hc
    refine ⟨?_, hpos, ?_, ?_⟩
    · rcases Config.ofEnvironment_polls hc with hdefault | ⟨text, hp, hr⟩
      · exact Or.inl hdefault
      · exact Or.inr ⟨text, hp, Config.readPolls_eq_ok.mp hr⟩
    · intro d m highest es r h hd
      have hsilent := Message.silent_of_disable h hd
      exact ⟨hsilent, hsilent.statusFound hpos⟩
    · intro st es id polls h
      rcases (st.explained ⟨c⟩ es _ h).timeout with hreply | ⟨rfl, d, m, rfl, hsilent⟩
      · exact Or.inl hreply
      · exact Or.inr ⟨rfl, d, m, rfl, hsilent, hsilent.statusFound hpos⟩

end FirmwareMailbox
