/-
  FirmwareMailbox.Proofs.Session.Reasons — why a step fails.

  Whatever the replies are, a step that fails has a reason in its own events (`Reason`): a reply is the
  failure, or a mailbox said so, or stayed silent for as often as its status may be read; what is left are
  the refusals that the library makes of its own. That holds of an exchange (`Message.explained_exchange`)
  and of what is put together from exchanges, discoveries and checks (`Job.Explained.closed`), up to every
  step (`Step.explained`).

  A check that follows a job has to be explained only for the values that the job can end in. An exchange
  ends in as many words as were asked for, so nothing that reads a response looks for a word beyond its end.
-/

import FirmwareMailbox.Proofs.Session.Knowing

namespace FirmwareMailbox

/-- The failure that a reply is. -/
def Event.failure? : Event → Option Error
  | ⟨.lock _, .error e⟩ => some e
  | ⟨.devices, .error e⟩ => some e
  | ⟨.cpus, .error e⟩ => some e
  | x => x.error?

theorem Event.failure?_of_error? {x : Event} {e : Error} (h : x.error? = some e) : x.failure? = some e := by
  rcases x with ⟨q, y⟩
  cases q <;> first | exact h | cases h

/-- The status of a mailbox is read, and this word is found. -/
def StatusFound (d : DeviceHandle) (st : UInt32) (es : List Event) : Prop :=
  Aperture.hsmp.loaded d Register.status st <:+: es

namespace Message

/-- The message is sent, its status is read as often as it may be and stays clear, and the process gives
    up. -/
def Silent (m : Message) (c : Config) (d : DeviceHandle) (es : List Event) : Prop :=
  m.transaction c d (List.replicate c.polls.toNat Status.notReady) [] ++ [⟨.disable, ()⟩] <:+: es

variable {m : Message} {c : Config} {d : DeviceHandle} {n : Nat} {s : UInt32} {ss ws : List UInt32}
  {es : List Event}

/-- A wait that ends with a clear status spent its budget. -/
theorem Polled.eq_replicate (h : Polled n ss) (h0 : lastStatus ss = Status.notReady) :
    ss = List.replicate n Status.notReady := by
  induction h with
  | out => rfl
  | set hne => exact absurd h0 hne
  | clear _ ih =>
    rw [lastStatus_clear] at h0
    rw [List.replicate_succ, ← ih h0]

theorem lastStatus_mem (h : lastStatus ss ≠ Status.notReady) : lastStatus ss ∈ ss := by
  unfold lastStatus at h ⊢
  cases hl : ss.getLast? with
  | none => rw [hl] at h; exact absurd rfl h
  | some s => exact List.mem_of_getLast? hl

/-- The status words of a transaction are found by reads of the status. -/
theorem statusFound_transaction (h : s ∈ ss) : StatusFound d s (m.transaction c d ss ws) := by
  obtain ⟨before, after, rfl⟩ := List.append_of_mem h
  have hread : StatusFound d s (waited d c.interval (before ++ s :: after)) := by
    refine ⟨waited d c.interval before ++ [⟨.pause c.interval, ()⟩], waited d c.interval after, ?_⟩
    simp only [waited, List.flatMap_append, List.flatMap_cons, List.append_assoc, List.cons_append,
      List.nil_append]
  exact hread.trans ⟨m.request.flatMap (Aperture.hsmp.events d),
    (loadedSlots 0 ws).flatMap (Aperture.hsmp.events d), List.append_assoc ..⟩

/-- What happens under the lock is part of the exchange. -/
theorem infix_of_locked (path : String) (fs : List Event) :
    fs <:+: ⟨.isDisabled, false⟩ :: ⟨.lock path, .ok ()⟩ :: (fs ++ [⟨.unlock path, ()⟩]) :=
  ⟨[⟨.isDisabled, false⟩, ⟨.lock path, .ok ()⟩], [⟨.unlock path, ()⟩], rfl⟩

/-- A transaction that finds no status but clear ones is silent when the process gives up behind it. -/
theorem Answered.silent (hA : m.Answered c.polls.toNat ss ws) (h0 : lastStatus ss = Status.notReady) :
    m.Silent c d (m.transaction c d ss ws ++ [⟨.disable, ()⟩]) := by
  have hws : ws = [] := by
    apply List.eq_nil_of_length_eq_zero
    rw [hA.length, h0]
    rfl
  have hss : ss = List.replicate c.polls.toNat Status.notReady := hA.polled.eq_replicate h0
  subst hws hss
  exact List.infix_refl _

/-- Who may read the status at all has read it before giving up. -/
theorem Silent.statusFound (h : m.Silent c d es) (hp : 1 ≤ c.polls.toNat) :
    StatusFound d Status.notReady es := by
  have hmem : Status.notReady ∈ List.replicate c.polls.toNat Status.notReady :=
    List.mem_replicate.mpr ⟨by omega, rfl⟩
  have hfound : StatusFound d Status.notReady (m.transaction c d (List.replicate _ Status.notReady) []) :=
    statusFound_transaction hmem
  exact (hfound.trans (List.prefix_append _ _).isInfix).trans h

/-- An exchange in which the process gives up is a silent one. -/
theorem silent_of_disable {highest : Option MessageId} {r : Except Error (List UInt32)}
    (h : Job.Yields (m.exchange c d highest) es r) (hd : ⟨.disable, ()⟩ ∈ es) : m.Silent c d es := by
  rcases yields_exchange h with ⟨e, -, -, rfl⟩ | ⟨-, rfl⟩ | ⟨e, -, rfl⟩ | ⟨fs, rfl, hf⟩
  · cases hd
  · simp at hd
  · simp at hd
  · have hmem : ⟨.disable, ()⟩ ∈ fs := by simpa using hd
    refine List.IsInfix.trans ?_ (infix_of_locked c.lockPath fs)
    obtain ⟨ss, ws, hA, ⟨-, rfl⟩ | ⟨e, -, hc⟩⟩ := yields_converse hf
    · by_cases h0 : lastStatus ss = Status.notReady
      · rw [if_pos h0]
        exact hA.silent h0
      · rw [if_neg h0, List.append_nil] at hmem
        exact absurd hmem (disable_not_mem (Or.inl rfl))
    · exact absurd hmem (disable_not_mem (Or.inr ⟨e, hc⟩))

end Message

/-! ## Reasons -/

/-- Why a run with these events fails with an error, in a session with this configuration. -/
inductive Reason (c : Config) (es : List Event) : Error → Prop
  | refused {e : Error} : e.ofLibrary = true → Reason c es e
  | replied {x : Event} {e : Error} : x ∈ es → x.failure? = some e → Reason c es e
  | silent {d : DeviceHandle} {m : Message} : m.Silent c d es → Reason c es (.timeout m.id c.polls)
  | rejected {d : DeviceHandle} {m : MessageId} : StatusFound d Status.invalidMessage es →
      Reason c es (.firmwareRejected m)
  | answered {d : DeviceHandle} {st : UInt32} : StatusFound d st es → st ≠ Status.notReady →
      st ≠ Status.ok → Reason c es (.hardware st)

variable {c : Config} {es fs : List Event} {e : Error}

theorem Reason.mono (h : Reason c es e) (hs : es <:+: fs) : Reason c fs e := by
  cases h with
  | refused he => exact .refused he
  | replied hx he => exact .replied (hs.subset hx) he
  | silent hm => exact .silent (hm.trans hs)
  | rejected hf => exact .rejected (hf.trans hs)
  | answered hf h0 hok => exact .answered (hf.trans hs) h0 hok

/-- What cut a run short is a reply. -/
theorem Cut.reason {full : List Event} (h : Cut es full e) : Reason c es e := by
  obtain ⟨x, hx, he⟩ := h.exists_error
  exact .replied hx (Event.failure?_of_error? he)

/-- No index is out of bounds but by a reply. -/
theorem Reason.outOfBounds {i : Nat} (h : Reason c es (.outOfBounds i)) :
    ∃ x ∈ es, x.failure? = some (.outOfBounds i) := by
  cases h with
  | refused he => cases he
  | replied hx he => exact ⟨_, hx, he⟩

/-- There is a timeout only after silence, or by a reply. -/
theorem Reason.timeout {id : MessageId} {polls : UInt32} (h : Reason c es (.timeout id polls)) :
    (∃ x ∈ es, x.failure? = some (.timeout id polls)) ∨
      polls = c.polls ∧ ∃ (d : DeviceHandle) (m : Message), m.id = id ∧ m.Silent c d es := by
  cases h with
  | refused he => cases he
  | replied hx he => exact Or.inl ⟨_, hx, he⟩
  | silent hm => exact Or.inr ⟨rfl, _, _, rfl, hm⟩

/-- Whenever the job fails, its run has the reason. -/
def Job.Explained {α : Type} (c : Config) (j : Job α) : Prop :=
  ∀ es e, Job.Yields j es (.error e) → Reason c es e

namespace Job.Explained

/-- A refusal of the library is its own reason, and what follows a job leaves the job's reason as it is. -/
theorem closed : Closed (fun e => e.ofLibrary = true) fun j => Explained c j := by
  refine .of_bind_ok (fun {α x} hx => ?_) fun {α β j f} hj hf => ?_
  · intro es e h
    obtain ⟨-, he⟩ := yields_lift.mp h
    exact .refused (hx e he.symm)
  · intro es e h
    rcases yields_bind.mp h with ⟨e', he, hfail⟩ | ⟨fs, gs, a, rfl, hok, hrest⟩
    · cases he
      exact hj es e hfail
    · exact (hf fs a hok gs e hrest).mono (List.suffix_append fs gs).isInfix

theorem ask (q : Request) : Explained c (Job.ask q) := by
  intro es e h
  obtain ⟨x, -, hx⟩ := yields_ask.mp h
  cases hx

theorem devices : Explained c Job.devices := by
  intro es e h
  obtain rfl := Program.yields_request.mp h
  exact .replied (List.mem_singleton_self _) rfl

theorem cpus : Explained c Job.cpus := by
  intro es e h
  obtain rfl := Program.yields_request.mp h
  exact .replied (List.mem_singleton_self _) rfl

end Job.Explained

/-! ## Exchanges -/

namespace Message

variable {m : Message} {d : DeviceHandle} {highest : Option MessageId}

theorem explained_converse : Job.Explained c (m.converse c d highest) := by
  intro es e h
  obtain ⟨ss, ws, hA, ⟨hr, rfl⟩ | ⟨f, hr, hc⟩⟩ := yields_converse h
  · by_cases h0 : lastStatus ss = Status.notReady
    · rw [outcome_clear h0] at hr
      cases hr
      rw [if_pos h0]
      exact .silent (hA.silent h0)
    · have hfound : StatusFound d (lastStatus ss) (m.transaction c d ss ws) :=
        statusFound_transaction (lastStatus_mem h0)
      rw [if_neg h0, List.append_nil]
      obtain ⟨hok, hrejected, -⟩ := @outcome_set ss m highest c.polls ws h0
      rcases outcome_error hr.symm with ⟨h0', -⟩ | ⟨-, ⟨-, rfl⟩ | rfl⟩
      · exact absurd h0' h0
      · rw [(hrejected.mp hr.symm).1] at hfound
        exact .rejected hfound
      · refine .answered hfound h0 fun hs => ?_
        obtain ⟨words, hw⟩ := hok.mpr hs
        rw [hw] at hr
        cases hr
  · cases hr
    exact hc.reason

/-- An exchange fails because the library refuses it, because of a reply, or because of what it finds in
    the status. -/
theorem explained_exchange : Job.Explained c (m.exchange c d highest) := by
  intro es e h
  rcases yields_exchange h with ⟨f, hs, hr, -⟩ | ⟨hr, -⟩ | ⟨f, hr, rfl⟩ | ⟨fs, rfl, hf⟩
  · cases hr
    rw [checkSize_eq_error hs]
    exact .refused rfl
  · cases hr
    exact .refused rfl
  · cases hr
    exact .replied (List.mem_cons_of_mem _ (List.mem_singleton_self _)) rfl
  · exact (explained_converse fs e hf).mono (infix_of_locked c.lockPath fs)

end Message

/-! ## Discovery and negotiation -/

theorem Topology.explained_ofDevices (devices : List PciDevice) : Job.Explained c (ofDevices devices) := by
  refine Job.Explained.closed.ofDevices (fun _ => rfl) devices fun _ _ x _ es e h => ?_
  rcases Aperture.yields_read h with ⟨w, hw, -⟩ | ⟨f, hf, hc⟩
  · cases hw
  · cases hf
    exact (hc 0).reason

theorem Capabilities.Refusal.ofLibrary (h : Refusal e) : e.ofLibrary = true := by cases h <;> rfl

theorem Capabilities.explained_negotiate (c : Config) (t : Topology) : Job.Explained c (negotiate c t) :=
  Job.Explained.closed.negotiation (fun _ h => h.ofLibrary) c t fun _ _ _ _ _ _ => Message.explained_exchange

/-! ## The gate -/

namespace Session

variable (s : Session)

theorem explained_negotiate (t : Topology) : Job.Explained s.config (s.negotiate t) := by
  intro es e h
  rw [negotiate_eq] at h
  obtain ⟨fs, gs, x, rfl, hfs, hgs⟩ := Program.yields_bind_iff.mp h
  cases x with
  | ok caps => cases (Program.yields_done.mp hgs).2
  | error f =>
    have hf : e = f := by
      unfold conclude at hgs
      dsimp only at hgs
      split at hgs
      · obtain ⟨_, _, rfl, hd⟩ := Program.yields_ask.mp hgs
        exact Except.error.inj (Program.yields_done.mp hd).2
      · exact Except.error.inj (Program.yields_done.mp hgs).2
    subst hf
    exact (Capabilities.explained_negotiate s.config t fs e hfs).mono (List.prefix_append fs gs).isInfix

theorem explained_gate (m? : Option MessageId) : Job.Explained s.config (s.gate m?) :=
  Job.Explained.closed.gate (fun _ h => h) (fun q _ => .ask q) .devices .cpus Topology.explained_ofDevices s
    s.explained_negotiate m?

end Session

/-! ## Operations -/

theorem Operation.explained_perform (s : Session) (op : Operation) : Job.Explained s.config (op.perform s) := by
  have hgated : ∀ op : Operation, op ≠ .setLinkWidthAuto → Job.Explained s.config (op.perform s) := by
    intro op ha
    cases hd : op.disorder? with
    | some cause =>
      rw [perform_disorder s hd]
      exact Job.Explained.closed.throw rfl
    | none =>
      rw [perform_gate s hd]
      refine Job.Explained.closed.bind (s.explained_gate op.asks) fun inv => ?_
      rw [rest_eq s inv ha]
      exact Job.Explained.closed.errand (fun _ => rfl) s inv op fun _ _ _ _ _ _ _ => Message.explained_exchange
  by_cases ha : op = .setLinkWidthAuto
  · subst ha
    rw [perform_linkWidthAuto]
    exact Job.Explained.closed.bind (s.explained_gate _) fun inv => hgated _ fun he => by cases he
  · exact hgated op ha

/-- A step that fails has a reason, whatever the machine replies and whatever the process remembers. -/
theorem Step.explained (s : Session) (st : Step) : Job.Explained s.config (st.perform s) := by
  cases st with
  | operation op => exact op.explained_perform s
  | gate m? => exact Job.Explained.closed.map _ (s.explained_gate m?)
  | exchange n m =>
    have hexchange : Job.Explained s.config (s.exchange n m) :=
      Job.Explained.closed.bind (s.explained_gate (some m.id)) fun inv =>
        Job.Explained.closed.lift_bind (inv.topology.mailboxTile_fails (fun _ => rfl) n) fun tile _ =>
          Message.explained_exchange
    exact Job.Explained.closed.map _ hexchange
  | forget => exact Job.Explained.closed.map _ (.ask .forget)

end FirmwareMailbox
