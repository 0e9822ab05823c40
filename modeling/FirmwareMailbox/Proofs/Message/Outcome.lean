/-
  FirmwareMailbox.Proofs.Message.Outcome — what an exchange ends in, by what the status answers.

  Take the words that the status register answers to one read after the other, `s 0`, `s 1` and so
  on, on a mailbox whose accesses work. If all that the budget allows for are clear, the exchange
  times out, and only then does the process give up on the firmware. Otherwise the first word that is
  set decides: no read follows it, and what it says is the result.
-/

import FirmwareMailbox.Machine.Script
import FirmwareMailbox.Proofs.Message.Trace

namespace FirmwareMailbox.Message

/-! ## Waiting -/

variable {n : Nat} {ss : List UInt32} {s : Nat → UInt32}

theorem Polled.of_clear (h : Polled n ss) (hs : ∀ i x, ss[i]? = some x → x = s i)
    (h0 : ∀ i < n, s i = Status.notReady) : ss.length = n ∧ lastStatus ss = Status.notReady := by
  induction h generalizing s with
  | out => exact ⟨rfl, rfl⟩
  | set hne =>
    have hx := hs 0 _ rfl
    exact absurd (hx.trans (h0 0 (by omega))) hne
  | clear _ ih =>
    obtain ⟨hl, hlast⟩ := ih (fun i x hi => hs (i + 1) x hi) fun i hi => h0 (i + 1) (by omega)
    exact ⟨by rw [List.length_cons, hl], by rw [lastStatus_clear, hlast]⟩

theorem Polled.of_set (h : Polled n ss) (hs : ∀ i x, ss[i]? = some x → x = s i) {k : Nat} (hk : k < n)
    (h0 : ∀ i < k, s i = Status.notReady) (hne : s k ≠ Status.notReady) :
    ss.length = k + 1 ∧ lastStatus ss = s k := by
  induction h generalizing s k with
  | out => omega
  | set hx =>
    cases k with
    | zero => exact ⟨rfl, hs 0 _ rfl⟩
    | succ k => exact absurd ((hs 0 _ rfl).trans (h0 0 (by omega))) hx
  | clear _ ih =>
    cases k with
    | zero => exact absurd (hs 0 _ rfl).symm hne
    | succ k =>
      obtain ⟨hl, hlast⟩ := ih (fun i x hi => hs (i + 1) x hi) (k := k) (by omega)
        (fun i hi => h0 (i + 1) (by omega)) hne
      exact ⟨by rw [List.length_cons, hl], by rw [lastStatus_clear, hlast]⟩

/-! ## The result -/

variable {m : Message} {highest : Option MessageId} {polls : UInt32} {ws : List UInt32}

theorem within_iff {a : MessageId} : a.within highest = true ↔ ∃ h, highest = some h ∧ a ≤ h := by
  cases highest <;> simp [MessageId.within]

theorem outcome_clear (h : lastStatus ss = Status.notReady) :
    m.outcome highest polls ss ws = .error (.timeout m.id polls) := by
  rw [outcome, refusal?, if_pos h]

/-- A status that is set is an OK, the firmware's refusal of a message it promised, or an error. -/
theorem outcome_set (h : lastStatus ss ≠ Status.notReady) :
    ((∃ words, m.outcome highest polls ss ws = .ok words) ↔ lastStatus ss = Status.ok) ∧
      (m.outcome highest polls ss ws = .error (.firmwareRejected m.id) ↔
        lastStatus ss = Status.invalidMessage ∧ ∃ h, highest = some h ∧ m.id ≤ h) ∧
      (lastStatus ss ≠ Status.ok →
        ¬ (lastStatus ss = Status.invalidMessage ∧ ∃ h, highest = some h ∧ m.id ≤ h) →
        m.outcome highest polls ss ws = .error (.hardware (lastStatus ss))) := by
  rw [← within_iff, outcome, refusal?, if_neg h]
  by_cases hr : lastStatus ss = Status.invalidMessage ∧ m.id.within highest = true
  · have hne : Status.invalidMessage ≠ Status.ok := by decide
    rw [if_pos hr, hr.1]
    simp [hne, hr.2]
  · rw [if_neg hr]
    by_cases hok : lastStatus ss = Status.ok
    · have hne : Status.ok ≠ Status.invalidMessage := by decide
      rw [if_neg (not_not_intro hok), hok]
      simp [hne]
    · rw [if_pos hok]
      simp [hok, hr]

/-! ## The exchange -/

variable {μ : Type}

/-- What the status answers decides how often it is read, what the exchange ends in, and whether the
    process gives up on the firmware. -/
theorem exchange_outcome (M : Machine μ) (w : World μ) (c : Config) (d : DeviceHandle) (m : Message)
    (highest : Option MessageId) (s : Nat → UInt32) (ha : m.args.length ≤ Register.slotCount)
    (hr : m.responseLength ≤ Register.slotCount) (hd : w.memory.disabled = false)
    (hl : (M.lock c.lockPath w.machine).1 = .ok ())
    (hw : ∀ x ∈ World.transcript M (m.exchange c d highest) w, x.error? = none)
    (hs : ∀ i x, (Aperture.hsmp.loads d Register.status
      (World.transcript M (m.exchange c d highest) w))[i]? = some x → x = s i) :
    let reads := (Aperture.hsmp.loads d Register.status
      (World.transcript M (m.exchange c d highest) w)).length
    let ended := World.run M (m.exchange c d highest) w
    ((∀ i < c.polls.toNat, s i = Status.notReady) →
      reads = c.polls.toNat ∧ ended.1 = .error (.timeout m.id c.polls) ∧
        ended.2.memory.disabled = true) ∧
    (∀ k < c.polls.toNat, (∀ i < k, s i = Status.notReady) → s k ≠ Status.notReady →
      reads = k + 1 ∧ ended.2.memory.disabled = false ∧
        ((∃ words, ended.1 = .ok words) ↔ s k = Status.ok) ∧
        (ended.1 = .error (.firmwareRejected m.id) ↔
          s k = Status.invalidMessage ∧ ∃ h, highest = some h ∧ m.id ≤ h) ∧
        (s k ≠ Status.ok → ¬ (s k = Status.invalidMessage ∧ ∃ h, highest = some h ∧ m.id ≤ h) →
          ended.1 = .error (.hardware (s k)))) ∧
    ∀ n, (∀ i < n, s i = Status.notReady) → s n ≠ Status.notReady →
      (ended.2.memory.disabled = false ↔ n < c.polls.toNat) ∧
        (s n = Status.ok → ((∃ words, ended.1 = .ok words) ↔ n < c.polls.toNat)) := by
  have hm : m.checkSize = .ok () := if_neg (by omega)
  rcases hrun : World.run M (m.exchange c d highest) w with ⟨r, w'⟩
  obtain ⟨ss, ws, hA, ⟨rfl, ht, hdis⟩ | ⟨e, -, hc, -⟩⟩ := exchange_run M hm hd hl hrun
  · have hss := loads_status hA hr ht
    rw [hss] at hs
    dsimp only
    rw [hss]
    have hclear : (∀ i < c.polls.toNat, s i = Status.notReady) → ss.length = c.polls.toNat ∧
        m.outcome highest c.polls ss ws = .error (.timeout m.id c.polls) ∧
          w'.memory.disabled = true := fun h0 => by
      obtain ⟨hl, hlast⟩ := hA.polled.of_clear hs h0
      exact ⟨hl, outcome_clear hlast, hdis.mpr hlast⟩
    have hset : ∀ k < c.polls.toNat, (∀ i < k, s i = Status.notReady) → s k ≠ Status.notReady →
        ss.length = k + 1 ∧ lastStatus ss = s k := fun k hk => hA.polled.of_set hs hk
    refine ⟨hclear, fun k hk h0 hne => ?_, fun n h0 hne => ?_⟩
    · obtain ⟨hl, hlast⟩ := hset k hk h0 hne
      rw [← hlast] at hne ⊢
      exact ⟨hl, Bool.eq_false_iff.mpr (mt hdis.mp hne), outcome_set hne⟩
    · by_cases hlt : n < c.polls.toNat
      · obtain ⟨-, hlast⟩ := hset n hlt h0 hne
        rw [← hlast] at hne ⊢
        exact ⟨iff_of_true (Bool.eq_false_iff.mpr (mt hdis.mp hne)) hlt,
          fun hok => iff_of_true ((outcome_set hne).1.mpr hok) hlt⟩
      · obtain ⟨-, ho, hg⟩ := hclear fun i hi => h0 i (by omega)
        rw [ho, hg]
        exact ⟨iff_of_false Bool.noConfusion hlt,
          fun _ => iff_of_false (fun ⟨_, h⟩ => by cases h) hlt⟩
  · obtain ⟨x, hx, he⟩ := hc.exists_error
    rw [hw x (List.mem_filter.mp hx).1] at he
    cases he

/-- A process on a machine whose firmware answers at the fifth read of the status. -/
def waiting : World Script.State :=
  ⟨{ sockets := [{ delay := 4 }], devices := [{ socket := 0 }], found := [], cpus := .ok ⟨[]⟩,
     files := { storage := { root := .directory [] } } }, {}⟩

theorem waiting_outcome :
    (World.run Script.machine (ping.exchange Simulation.config 0 none) waiting).2.memory.disabled =
        false ∧
      ((∃ words, (World.run Script.machine (ping.exchange Simulation.config 0 none) waiting).1 =
        .ok words) ↔ 4 < 5) := by
  have hs : Aperture.hsmp.loads 0 Register.status
      (World.transcript Script.machine (ping.exchange Simulation.config 0 none) waiting) =
        [0, 0, 0, 0, 1] := by
    decide +kernel
  have h := exchange_outcome Script.machine waiting Simulation.config 0 ping none
    (fun i => [0, 0, 0, 0, 1].getD i 0) (by decide) (by decide) rfl (by decide +kernel)
    (by decide +kernel) (fun i x hi => by rw [hs] at hi; simp [List.getD, hi])
  obtain ⟨hg, hok⟩ := h.2.2 4 (by decide) (by decide)
  exact ⟨hg.mpr (by decide), hok rfl⟩

end FirmwareMailbox.Message
