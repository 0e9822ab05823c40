/-
  FirmwareMailbox.Proofs.Session.Failure — what the parts of a session fail with.

  A failure blames the firmware or the system by its kind (`Error.BlamesFirmware`, `Error.kind_of_system`).
  On a machine whose devices and whose lock fail as such things do (`Machine.Plain`), what an exchange
  fails with tells where it failed. It gives up on the firmware if and only if it timed out
  (`yields_exchange_disable`), and of the failures that blame the firmware there are few (`Fatal`): the
  negotiation and the gate have no others.
-/

import FirmwareMailbox.Proofs.Message.Outcome
import FirmwareMailbox.Proofs.Session.Assembled
import FirmwareMailbox.Proofs.Session.Learning

namespace FirmwareMailbox

/-- A device that cannot be accessed. -/
def Error.ofDevice : Error → Bool
  | .bus _ | .access _ => true
  | _ => false

/-- A lock that cannot be taken. -/
def Error.ofLock : Error → Bool
  | .denied _ | .io _ | .system _ => true
  | _ => false

/-- Either way it is the system that failed. -/
theorem Error.kind_of_system {e : Error} (h : e.ofDevice = true ∨ e.ofLock = true) :
    e.kind = .device ∨ e.kind = .permission := by
  cases e with
  | denied _ => exact Or.inr rfl
  | bus _ => exact Or.inl rfl
  | access _ => exact Or.inl rfl
  | io i => cases hi : i.isPermissionDenied <;> simp [kind, hi]
  | system n => by_cases hn : n = .notPermitted ∨ n = .accessDenied <;> simp [kind, hn]
  | _ => rcases h with h | h <;> cases h

/-- A failure of a kind that shows that the firmware cannot be used. -/
def Error.BlamesFirmware (e : Error) : Prop :=
  e.kind = .unsupported ∨ e.kind = .hardware ∨ e.kind = .timeout

/-- The firmware is absent or too old, does not know a message, answers with a status or does not answer. -/
theorem Error.blamesFirmware_iff {e : Error} : e.BlamesFirmware ↔ (∃ cause, e = .unsupported cause) ∨
    (∃ m, e = .firmwareRejected m) ∨ (∃ status, e = .hardware status) ∨ ∃ m polls, e = .timeout m polls := by
  unfold BlamesFirmware
  cases e with
  | io i => cases hi : i.isPermissionDenied <;> simp [kind, hi]
  | system n => by_cases hn : n = .notPermitted ∨ n = .accessDenied <;> simp [kind, hn]
  | _ => simp [kind]

theorem Error.not_blamesFirmware_of_system {e : Error} (h : e.ofDevice = true ∨ e.ofLock = true) :
    ¬ e.BlamesFirmware := by
  unfold BlamesFirmware
  rcases kind_of_system h with hk | hk <;> simp [hk]

theorem Session.condemns_iff {e : Error} : condemns e = true ↔ e.BlamesFirmware := by
  unfold condemns Error.BlamesFirmware
  cases e.kind <;> simp

/-- Accesses fail with errors of devices, and the lock with errors of locks. -/
structure Machine.Plain {μ : Type} (M : Machine μ) : Prop where
  read : ∀ {d o m e}, (M.read d o m).1 = .error e → e.ofDevice = true
  write : ∀ {d o v m e}, (M.write d o v m).1 = .error e → e.ofDevice = true
  lock : ∀ {p m e}, (M.lock p m).1 = .error e → e.ofLock = true

/-- An event of a plain machine. -/
def Event.Plain : Event → Prop
  | ⟨.read .., .error e⟩ => e.ofDevice = true
  | ⟨.write .., .error e⟩ => e.ofDevice = true
  | ⟨.lock _, .error e⟩ => e.ofLock = true
  | _ => True

theorem Event.Plain.ofDevice {x : Event} {e : Error} (hx : x.Plain) (h : x.error? = some e) :
    e.ofDevice = true := by
  rcases x with ⟨q, y⟩
  cases q <;> first | cases h | skip
  all_goals
    cases y with
    | ok _ => cases h
    | error f =>
      cases h
      exact hx

theorem World.plain_transcript {μ α : Type} {M : Machine μ} (hM : M.Plain) (p : Program α) (w : World μ) :
    ∀ x ∈ Program.transcript (answer M) p w, x.Plain := by
  induction p generalizing w with
  | done a => simp [Program.transcript]
  | ask q next ih =>
    refine List.forall_mem_cons.mpr ⟨?_, ih _ _⟩
    cases q with
    | read d o =>
      cases hr : (M.read d o w.machine).1 with
      | ok v => simp only [answer, hr, Event.Plain]
      | error e => simpa only [answer, hr, Event.Plain] using hM.read hr
    | write d o v =>
      cases hr : (M.write d o v w.machine).1 with
      | ok v => simp only [answer, hr, Event.Plain]
      | error e => simpa only [answer, hr, Event.Plain] using hM.write hr
    | lock p =>
      cases hr : (M.lock p w.machine).1 with
      | ok v => simp only [answer, hr, Event.Plain]
      | error e => simpa only [answer, hr, Event.Plain] using hM.lock hr
    | _ => trivial

theorem World.Runs.plain {μ α : Type} {M : Machine μ} (hM : M.Plain) {j : Job α} {w w' : World μ}
    {es : List Event} {r : Except Error α} (h : Runs M j w es r w') : ∀ x ∈ es, x.Plain :=
  h.transcript ▸ plain_transcript hM j.run w

namespace Message

variable {m : Message} {c : Config} {d : DeviceHandle} {highest : Option MessageId} {polls : UInt32}
  {ss ws : List UInt32} {es : List Event}

/-- What a transaction that was not cut fails with. -/
theorem outcome_error {e : Error} (h : m.outcome highest polls ss ws = .error e) :
    (lastStatus ss = Status.notReady ∧ e = .timeout m.id polls) ∨
      lastStatus ss ≠ Status.notReady ∧
        ((m.id.within highest = true ∧ e = .firmwareRejected m.id) ∨ e = .hardware (lastStatus ss)) := by
  unfold outcome refusal? at h
  by_cases h0 : lastStatus ss = Status.notReady
  · rw [if_pos h0] at h
    cases h
    exact Or.inl ⟨h0, rfl⟩
  · rw [if_neg h0] at h
    refine Or.inr ⟨h0, ?_⟩
    split at h
    · cases h
    · rename_i f hf
      cases h
      split at hf
      · rename_i hw
        cases hf
        exact Or.inl ⟨hw.2, rfl⟩
      · split at hf
        · cases hf
          exact Or.inr rfl
        · cases hf

/-- A transaction asks for nothing but accesses and pauses, and so does one that was cut. -/
theorem disable_not_mem (h : es = m.transaction c d ss ws ∨ ∃ e, Cut es (m.transaction c d ss ws) e) :
    (⟨.disable, ()⟩ : Event) ∉ es := by
  intro hx
  have hmem : (⟨.disable, ()⟩ : Event) ∈ m.transaction c d ss ws := by
    rcases h with rfl | ⟨e, hc⟩
    · exact hx
    · exact hc.mem_of_not_isAccess hx rfl
  rcases of_mem_transaction hmem with h | h
  · cases h
  · exact Bool.noConfusion (Aperture.of_mem_events h).1

/-- An exchange gives up on the firmware if it times out and for no other reason. -/
theorem yields_exchange_disable {r : Except Error (List UInt32)} (hp : ∀ x ∈ es, x.Plain)
    (h : Job.Yields (m.exchange c d highest) es r) :
    ⟨.disable, ()⟩ ∈ es ↔ r = .error (.timeout m.id c.polls) := by
  rcases yields_exchange h with ⟨e, he, rfl, rfl⟩ | ⟨rfl, rfl⟩ | ⟨e, rfl, rfl⟩ | ⟨fs, rfl, hf⟩
  · refine iff_of_false (by simp) fun hr => ?_
    cases hr
    cases checkSize_eq_error he
  · simp
  · refine iff_of_false (by simp) fun hr => ?_
    cases hr
    have hl : (Event.mk (.lock c.lockPath) (.error (.timeout m.id c.polls))).Plain := hp _ (by simp)
    cases hl
  · have hmem : (⟨.disable, ()⟩ : Event) ∈ ⟨.isDisabled, false⟩ :: ⟨.lock c.lockPath, .ok ()⟩ ::
        (fs ++ [⟨.unlock c.lockPath, ()⟩]) ↔ ⟨.disable, ()⟩ ∈ fs := by
      simp
    rw [hmem]
    obtain ⟨ss, ws, hA, ⟨rfl, rfl⟩ | ⟨e, rfl, hc⟩⟩ := yields_converse hf
    · rw [List.mem_append, or_iff_right (disable_not_mem (Or.inl rfl))]
      split
      · rename_i h0
        exact iff_of_true (List.mem_singleton.mpr rfl) (outcome_clear h0)
      · rename_i h0
        refine iff_of_false List.not_mem_nil fun hr => ?_
        rcases outcome_error hr with ⟨h, -⟩ | ⟨-, ⟨-, h⟩ | h⟩
        · exact h0 h
        · cases h
        · cases h
    · refine iff_of_false (disable_not_mem (Or.inr ⟨e, hc⟩)) fun hr => ?_
      cases hr
      obtain ⟨x, hx, he⟩ := hc.exists_error
      have hd := (hp x (by simp [hx])).ofDevice he
      cases hd

/-- The failures of an exchange that blame the firmware. -/
theorem yields_exchange_blames {e : Error} (hp : ∀ x ∈ es, x.Plain)
    (h : Job.Yields (m.exchange c d highest) es (.error e)) (he : e.BlamesFirmware) :
    (e = .unsupported .disabled ∧ es = [⟨.isDisabled, true⟩]) ∨ e = .timeout m.id c.polls ∨
      (m.id.within highest = true ∧ e = .firmwareRejected m.id) ∨ ∃ status, e = .hardware status := by
  rcases yields_exchange h with ⟨f, hs, hr, rfl⟩ | ⟨hr, rfl⟩ | ⟨f, hr, rfl⟩ | ⟨fs, rfl, hf⟩
  · cases hr
    rw [checkSize_eq_error hs] at he
    simp [Error.BlamesFirmware, Error.kind] at he
  · cases hr
    exact Or.inl ⟨rfl, rfl⟩
  · cases hr
    have hl : (Event.mk (.lock c.lockPath) (.error e)).Plain := hp _ (by simp)
    exact absurd he (Error.not_blamesFirmware_of_system (Or.inr hl))
  · obtain ⟨ss, ws, hA, ⟨hr, rfl⟩ | ⟨f, hr, hc⟩⟩ := yields_converse hf
    · rcases outcome_error hr.symm with ⟨-, rfl⟩ | ⟨-, h | rfl⟩
      · exact Or.inr (Or.inl rfl)
      · exact Or.inr (Or.inr (Or.inl h))
      · exact Or.inr (Or.inr (Or.inr ⟨_, rfl⟩))
    · cases hr
      obtain ⟨x, hx, hxe⟩ := hc.exists_error
      have hd := (hp x (by simp [hx])).ofDevice hxe
      exact absurd he (Error.not_blamesFirmware_of_system (Or.inl hd))

end Message

/-- What condemns a negotiation: firmware that does not answer or answers with an error, another word
    than the test asked for, or no interface. -/
inductive Fatal : Error → Prop
  | timeout (m : MessageId) (polls : UInt32) : Fatal (.timeout m polls)
  | hardware (status : UInt32) : Fatal (.hardware status)
  | testAnswer (socket : Nat) (expected received : UInt32) :
      Fatal (.unsupported (.testAnswer socket expected received))
  | noInterface : Fatal (.unsupported .noInterface)

namespace World

variable {μ α : Type} {M : Machine μ}

/-- In a process that did not give up, the job makes it give up only by a timeout, and its failures
    that blame the firmware are fatal. -/
def Negotiates (M : Machine μ) (j : Job α) : Prop :=
  ∀ w es r w', w.memory.disabled = false → Runs M j w es r w' →
    (w'.memory.disabled = true → ∃ m polls, r = .error (.timeout m polls)) ∧
      ∀ e, r = .error e → e.BlamesFirmware → Fatal e

namespace Negotiates

theorem closed : Job.Closed (fun e => e.BlamesFirmware → Fatal e) fun j => Negotiates M j := by
  refine .of_bind_ok (fun {α x} hx => ?_) fun {α β j f} hj hf => ?_
  · intro w es r w' hw h
    obtain ⟨rfl, rfl, rfl⟩ := runs_lift.mp h
    exact ⟨fun hg => (by rw [hw] at hg; cases hg), hx⟩
  · intro w es r w' hw h
    rcases runs_bind.mp h with ⟨e, rfl, hfail⟩ | ⟨fs, gs, a, u, rfl, hok, hrest⟩
    · obtain ⟨hd, he⟩ := hj w es _ w' hw hfail
      refine ⟨fun hg => ?_, fun e' hr => ?_⟩
      · obtain ⟨m, polls, hr⟩ := hd hg
        cases hr
        exact ⟨m, polls, rfl⟩
      · cases hr
        exact he e rfl
    · have hu : u.memory.disabled = false := Bool.eq_false_iff.mpr fun hg => by
        obtain ⟨m, polls, hr⟩ := (hj w fs _ u hw hok).1 hg
        cases hr
      exact hf fs a hok.yields u gs r w' hu hrest

theorem exchange (hM : M.Plain) (c : Config) (d : DeviceHandle) (m : Message) :
    Negotiates M (m.exchange c d none) := by
  intro w es r w' hw h
  refine ⟨fun hg => ?_, fun e hr he => ?_⟩
  · rcases h.disabled.mp hg with h0 | hmem
    · rw [hw] at h0
      cases h0
    · exact ⟨m.id, c.polls, (Message.yields_exchange_disable (h.plain hM) h.yields).mp hmem⟩
  · subst hr
    rcases Message.yields_exchange_blames (h.plain hM) h.yields he with
      ⟨-, rfl⟩ | rfl | ⟨hn, -⟩ | ⟨status, rfl⟩
    · have hb : true = w.memory.disabled := (Program.transcript_cons h.transcript).1
      rw [hw] at hb
      cases hb
    · exact .timeout m.id c.polls
    · cases hn
    · exact .hardware status

end Negotiates

end World

/-- What a negotiation refuses of its own is fatal, or says nothing of the firmware. -/
theorem Capabilities.Refusal.fatal {e : Error} (h : Refusal e) (he : e.BlamesFirmware) : Fatal e := by
  cases h with
  | misuse cause => simp [Error.BlamesFirmware, Error.kind] at he
  | noSocket => simp [Error.BlamesFirmware, Error.kind] at he
  | testAnswer socket expected received => exact .testAnswer ..
  | noInterface => exact .noInterface

theorem Capabilities.negotiates_negotiate {μ : Type} {M : Machine μ} (c : Config) (hM : M.Plain) (t : Topology) :
    World.Negotiates M (negotiate c t) :=
  World.Negotiates.closed.negotiation (fun _ h => h.fatal) c t fun _ _ _ m _ _ => .exchange hM c _ m

end FirmwareMailbox
