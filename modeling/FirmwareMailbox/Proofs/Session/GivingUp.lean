/-
  FirmwareMailbox.Proofs.Session.GivingUp — a process that gave up on the firmware leaves it alone.

  A process gives up in two places: in an exchange that no status answers, and behind a negotiation
  that the firmware failed. Whatever it is asked to do from then on, it reaches no device any more
  (`Heeds`), and no operation gets past the gate. What made it give up can be found among its events
  (`Explained`), and the result of the operation tells as much (`Confesses`). All three hold of the
  gate and of each delivery, and from there of everything a process does. What the gate of a process that
  knows nothing yet makes of a failure is told by where it failed (`Judges`).
-/

import FirmwareMailbox.Machine.Simulation
import FirmwareMailbox.Proofs.Session.Failure
import FirmwareMailbox.Proofs.Session.Moves

namespace FirmwareMailbox

/-- Goes out to a device: a scan for devices or an access to one. -/
def Request.reachesDevices : Request → Bool
  | .read .. | .write .. | .devices => true
  | _ => false

namespace World

variable {μ α : Type} {M : Machine μ} {s : Session} {w u w' : World μ} {es fs : List Event}

/-- No device is reached once the process has given up. -/
structure Heeds (w : World μ) (es : List Event) (w' : World μ) : Prop where
  disabled : w'.memory.disabled = true ↔ w.memory.disabled = true ∨ ⟨.disable, ()⟩ ∈ es
  before : w.memory.disabled = true → ∀ x ∈ es, x.request.reachesDevices = false
  since : es.Pairwise fun x y => x = ⟨.disable, ()⟩ → y.request.reachesDevices = false

namespace Heeds

theorem composes : Composes (Heeds (μ := μ)) where
  refl w := ⟨by simp, fun _ x hx => (by cases hx), .nil⟩
  trans {w es u fs v} h h' := by
    refine ⟨?_, fun hw x hx => ?_, List.pairwise_append.mpr ⟨h.since, h'.since, fun x hx y hy hxd => ?_⟩⟩
    · rw [h'.disabled, h.disabled, List.mem_append, or_assoc]
    · rcases List.mem_append.mp hx with hx | hx
      · exact h.before hw x hx
      · exact h'.before (h.disabled.mpr (Or.inl hw)) x hx
    · exact h'.before (h.disabled.mpr (Or.inr (hxd ▸ hx))) y hy

/-- Whatever a process does before it gives up. -/
theorem of_not_mem (hw : w.memory.disabled = false) (hw' : w'.memory.disabled = false)
    (h : ⟨.disable, ()⟩ ∉ es) : Heeds w es w' := by
  refine ⟨by simp [hw, hw', h], fun hd => (by rw [hw] at hd; cases hd), ?_⟩
  exact List.pairwise_of_forall_mem_list fun x hx y _ hxd => absurd (hxd ▸ hx) h

/-- Requests that reach no device. -/
theorem of_quiet (hd : w'.memory.disabled = true ↔ w.memory.disabled = true ∨ ⟨.disable, ()⟩ ∈ es)
    (h : ∀ x ∈ es, x.request.reachesDevices = false) : Heeds w es w' :=
  ⟨hd, fun _ => h, List.pairwise_of_forall_mem_list fun _ _ y hy _ => h y hy⟩

theorem of_request (w : World μ) {q : Request} (hq : q.reachesDevices = false) :
    Heeds w [⟨q, (answer M q w).1⟩] (answer M q w).2 :=
  .of_quiet (disabled_run M (Program.request q) w) (by simpa using hq)

end Heeds

theorem Runs.heeds_of_only {P : Request → Prop} {j : Job α} (hj : Job.Only P j) {r : Except Error α}
    (h : Runs M j w es r w') (hP : ∀ q, P q → q ≠ .disable) (hw : w.memory.disabled = false) :
    Heeds w es w' := by
  have hm : ⟨.disable, ()⟩ ∉ es := fun hx => hP _ (Program.Yields.only hj h.yields _ hx) rfl
  refine .of_not_mem hw (Bool.eq_false_iff.mpr fun hd => ?_) hm
  rw [h.disabled, hw] at hd
  rcases hd with hd | hd
  · cases hd
  · exact hm hd

/-! ## The parts of a session's work -/

/-- An exchange gives up last of all, but for its lock. -/
theorem Heeds.exchange (c : Config) (d : DeviceHandle) (m : Message) (highest : Option MessageId) :
    Conducts M Heeds (m.exchange c d highest).run := by
  refine Conducts.of_runs fun w es r w' h => ?_
  have hd := h.disabled
  rcases Message.yields_exchange h.yields with ⟨e, -, -, rfl⟩ | ⟨-, rfl⟩ | ⟨e, -, rfl⟩ | ⟨fs, rfl, hf⟩
  · exact .of_quiet hd (by simp)
  · exact .of_quiet hd (by simp [Request.reachesDevices])
  · exact .of_quiet hd (by simp [Request.reachesDevices])
  · have hw : w.memory.disabled = false := (Program.transcript_cons h.transcript).1.symm
    refine ⟨hd, fun hw' => (by rw [hw] at hw'; cases hw'), ?_⟩
    -- the events under the lock, the last of which may be that the process gives up
    obtain ⟨gs, hs, hfs, hg, hq⟩ : ∃ gs hs, fs = gs ++ hs ∧ ⟨.disable, ()⟩ ∉ gs ∧
        ∀ x ∈ hs, x.request.reachesDevices = false := by
      obtain ⟨ss, ws, -, ⟨-, rfl⟩ | ⟨e, -, hc⟩⟩ := Message.yields_converse hf
      · refine ⟨_, _, rfl, Message.disable_not_mem (Or.inl rfl), ?_⟩
        split <;> simp [Request.reachesDevices]
      · exact ⟨fs, [], by simp, Message.disable_not_mem (Or.inr ⟨e, hc⟩), by simp⟩
    have hsplit : Event.mk .isDisabled false :: ⟨.lock c.lockPath, .ok ()⟩ ::
        (fs ++ [⟨.unlock c.lockPath, ()⟩]) = (⟨.isDisabled, false⟩ :: ⟨.lock c.lockPath, .ok ()⟩ :: gs) ++
          (hs ++ [⟨.unlock c.lockPath, ()⟩]) := by
      simp [hfs]
    rw [hsplit]
    have hquiet : ∀ x ∈ hs ++ [⟨.unlock c.lockPath, ()⟩], x.request.reachesDevices = false := by
      intro x hx
      rcases List.mem_append.mp hx with hx | hx
      · exact hq x hx
      · obtain rfl := List.mem_singleton.mp hx
        rfl
    refine List.pairwise_append.mpr ⟨?_, ?_, fun _ _ y hy _ => hquiet y hy⟩
    · exact List.pairwise_of_forall_mem_list fun x hx y _ hxd => absurd (hxd ▸ hx) (by simp [hg])
    · exact List.pairwise_of_forall_mem_list fun _ _ y hy _ => hquiet y hy

theorem Heeds.learn {r : Except Error Inventory} (hw : w.memory.disabled = false)
    (h : Runs M s.learn w es r w') : Heeds w es w' := by
  have hsurvey : ∀ {ks : List Event} {x} {u : World μ}, Runs M Session.survey w ks x u →
      Heeds w ks u := fun hs =>
    hs.heeds_of_only Session.survey_only (fun q hq hd => by subst hd; cases hq) hw
  rcases Session.runs_learn.mp h with ⟨e, rfl, hs⟩ | ⟨p, t, cpus, ks, u, ns, x, hs, hn, rfl, rfl⟩
  · exact hsurvey hs
  refine composes.trans (hsurvey hs) ?_
  obtain ⟨fs, v, hc, hend⟩ := Session.runs_negotiate.mp hn
  have hfirm := ((Conducts.closed composes).negotiation s.config t fun _ _ _ _ _ _ => exchange _ _ _ _).runs hc
  rcases hend with ⟨e, rfl, -, rfl, rfl⟩ | ⟨-, rfl, rfl⟩
  · exact composes.trans hfirm (.of_quiet (by simp [giveUp]) (by simp [Request.reachesDevices]))
  · exact hfirm

theorem Heeds.gate (s : Session) (m? : Option MessageId) : Conducts M Heeds (s.gate m?).run := by
  refine Conducts.of_runs fun w es r w' h => ?_
  have hasked : Heeds w [⟨.isPrivileged, true⟩, ⟨.isDisabled, false⟩, ⟨.recall, none⟩] w :=
    .of_quiet (by simp) (by simp [Request.reachesDevices])
  cases Session.runs_gate h with
  | denied => exact .of_quiet (by simp) (by simp [Request.reachesDevices])
  | disabled => exact .of_quiet (by simp) (by simp [Request.reachesDevices])
  | known => exact .of_quiet (by simp) (by simp [Request.reachesDevices])
  | learned _ hw _ hl =>
    exact composes.trans hasked (composes.trans (.learn hw hl)
      (.of_quiet (by simp [remember]) (by simp [Request.reachesDevices])))
  | failed _ hw _ hl => exact composes.trans hasked (.learn hw hl)

/-! ## Why a process gave up -/

/-- Among the events is an exchange that timed out. -/
def Unanswered (es : List Event) : Prop :=
  ∃ (c : Config) (d : DeviceHandle) (m : Message) (highest : Option MessageId) (fs : List Event),
    fs <:+: es ∧ Job.Yields (m.exchange c d highest) fs (.error (.timeout m.id c.polls))

/-- Among the events the machine is surveyed, and the negotiation that follows fails with an error of
    the kinds unsupported, hardware or timeout. -/
def Condemned (es : List Event) : Prop :=
  ∃ (s : Session) (p : Processor) (t : Topology) (cpus : CpuTable) (ks ns : List Event) (e : Error),
    (ks ++ ns) <:+: es ∧ Job.Yields Session.survey ks (.ok (p, t, cpus)) ∧
      Job.Yields (s.negotiate t) ns (.error e) ∧
        (e.kind = .unsupported ∨ e.kind = .hardware ∨ e.kind = .timeout)

theorem Unanswered.mono (h : Unanswered es) (hs : es <:+: fs) : Unanswered fs := by
  obtain ⟨c, d, m, highest, gs, hgs, hy⟩ := h
  exact ⟨c, d, m, highest, gs, hgs.trans hs, hy⟩

theorem Condemned.mono (h : Condemned es) (hs : es <:+: fs) : Condemned fs := by
  obtain ⟨s, p, t, cpus, ks, ns, e, hks, hy⟩ := h
  exact ⟨s, p, t, cpus, ks, ns, e, hks.trans hs, hy⟩

theorem mem_of_condemned {s : Session} {t : Topology} {e : Error}
    (h : Job.Yields (s.negotiate t) es (.error e)) (he : e.BlamesFirmware) :
    ⟨.disable, ()⟩ ∈ es := by
  rw [Session.negotiate_eq] at h
  obtain ⟨fs, gs, x, rfl, -, hc⟩ := Program.yields_bind_iff.mp h
  cases x with
  | ok caps => cases (Program.yields_done.mp hc).2
  | error f =>
    rw [Session.conclude] at hc
    split at hc
    · obtain ⟨_, hs, rfl, -⟩ := Program.yields_ask.mp hc
      simp
    · rename_i hf
      cases (Program.yields_done.mp hc).2
      exact absurd (Session.condemns_iff.mpr he) hf

/-- A process asks to give up wherever there is a reason to. -/
theorem mem_of_cause (hp : ∀ x ∈ es, x.Plain) (h : Unanswered es ∨ Condemned es) :
    ⟨.disable, ()⟩ ∈ es := by
  rcases h with ⟨c, d, m, highest, fs, hfs, hy⟩ | ⟨s, p, t, cpus, ks, ns, e, hks, -, hn, he⟩
  · exact hfs.subset ((Message.yields_exchange_disable (fun x hx => hp x (hfs.subset hx)) hy).mpr rfl)
  · exact hks.subset (List.mem_append_right _ (mem_of_condemned hn he))

theorem plain_trace (hM : M.Plain) (moves : List (Move μ)) (w : World μ) :
    ∀ x ∈ trace M moves w, x.Plain := by
  refine Composes.moves (M := M) (T := fun _ es _ => ∀ x ∈ es, x.Plain) ⟨fun w x hx => (by cases hx), ?_⟩
    (fun s m? => plain_transcript hM _) (fun c d m highest => plain_transcript hM _)
    (plain_transcript hM _) (plain_transcript hM _) (fun w m x hx => (by cases hx)) moves w
  exact fun h h' x hx => (List.mem_append.mp hx).elim (h x) (h' x)

/-- There is a reason wherever a process gave up. -/
def Explained (w : World μ) (es : List Event) (w' : World μ) : Prop :=
  w.memory.disabled = false → w'.memory.disabled = true → Unanswered es ∨ Condemned es

namespace Explained

theorem composes : Composes (Explained (μ := μ)) where
  refl w := fun hw hw' => by rw [hw] at hw'; cases hw'
  trans {w es u fs v} h h' := fun hw hv => by
    cases hu : u.memory.disabled with
    | true =>
      exact (h hw hu).imp (·.mono (List.prefix_append es fs).isInfix)
        (·.mono (List.prefix_append es fs).isInfix)
    | false =>
      exact (h' hu hv).imp (·.mono (List.suffix_append es fs).isInfix)
        (·.mono (List.suffix_append es fs).isInfix)

theorem exchange (hM : M.Plain) (c : Config) (d : DeviceHandle) (m : Message)
    (highest : Option MessageId) : Conducts M Explained (m.exchange c d highest).run := by
  refine Conducts.of_runs fun w es r w' h hw hw' => Or.inl ?_
  have hd := h.disabled.mp hw'
  rw [hw, or_iff_right Bool.false_ne_true] at hd
  obtain rfl := (Message.yields_exchange_disable (h.plain hM) h.yields).mp hd
  exact ⟨c, d, m, highest, es, List.infix_refl es, h.yields⟩

theorem learn (hM : M.Plain) {r : Except Error Inventory} (h : Runs M s.learn w es r w') :
    Explained w es w' := by
  intro hw hw'
  rcases Session.runs_learn.mp h with ⟨e, rfl, hs⟩ | ⟨p, t, cpus, ks, u, ns, x, hs, hn, rfl, rfl⟩
  · rw [hs.memory Session.survey_only, hw] at hw'
    cases hw'
  obtain ⟨fs, v, hc, hend⟩ := Session.runs_negotiate.mp hn
  have hu : u.memory.disabled = false := by rw [hs.memory Session.survey_only, hw]
  rcases hend with ⟨e, rfl, he, rfl, rfl⟩ | ⟨-, rfl, rfl⟩
  · exact Or.inr ⟨s, p, t, cpus, ks, _, e, List.infix_refl _, hs.yields, hn.yields, Session.condemns_iff.mp he⟩
  · have hx := ((Conducts.closed composes).negotiation s.config t
        fun _ _ _ _ _ _ => exchange hM _ _ _ _).runs hc hu hw'
    exact hx.imp (·.mono (List.suffix_append _ _).isInfix) (·.mono (List.suffix_append _ _).isInfix)

theorem gate (hM : M.Plain) (s : Session) (m? : Option MessageId) :
    Conducts M Explained (s.gate m?).run := by
  refine Conducts.of_runs fun w es r w' h hw hw' => ?_
  -- before and after the machine is learned, nothing gives up
  have hmid : ∀ {fs gs : List Event}, Unanswered fs ∨ Condemned fs →
      Unanswered ([⟨.isPrivileged, true⟩, ⟨.isDisabled, false⟩, ⟨.recall, none⟩] ++ (fs ++ gs)) ∨
        Condemned ([⟨.isPrivileged, true⟩, ⟨.isDisabled, false⟩, ⟨.recall, none⟩] ++ (fs ++ gs)) :=
    fun {fs gs} h => h.imp (·.mono (by rw [← List.append_assoc]; exact List.infix_append _ fs gs))
      (·.mono (by rw [← List.append_assoc]; exact List.infix_append _ fs gs))
  cases Session.runs_gate h with
  | denied => rw [hw] at hw'; cases hw'
  | disabled => rw [hw] at hw'; cases hw'
  | known => rw [hw] at hw'; cases hw'
  | learned _ _ _ hl => exact hmid (learn hM hl hw hw')
  | @failed fs _ _ _ _ _ hl =>
    have hx := @hmid fs [] (learn hM hl hw hw')
    rwa [List.append_nil] at hx

end Explained

/-! ## What the result tells of it -/

/-- In a process that did not give up, the job makes it give up only with an error that says so: a
    timeout, or, if the machine was not known, what condemned the negotiation. -/
structure Confesses (M : Machine μ) (j : Job α) : Prop where
  error : ∀ w es r w', w.memory.disabled = false → Runs M j w es r w' → w'.memory.disabled = true →
    ∃ e, r = .error e ∧ ((∃ m polls, e = .timeout m polls) ∨ w.memory.inventory = none ∧ Fatal e)
  /-- What was known stays known. -/
  known : ∀ w es r w', Runs M j w es r w' → w'.memory.inventory = none → w.memory.inventory = none

namespace Confesses

theorem lift (x : Except Error α) : Confesses M (liftM x) := by
  constructor
  · intro w es r w' hw h hw'
    obtain ⟨-, -, rfl⟩ := runs_lift.mp h
    rw [hw] at hw'
    cases hw'
  · intro w es r w' h hn
    obtain ⟨-, -, rfl⟩ := runs_lift.mp h
    exact hn

theorem bind {β : Type} {j : Job α} {f : α → Job β} (hj : Confesses M j) (hf : ∀ a, Confesses M (f a)) :
    Confesses M (j >>= f) := by
  constructor
  · intro w es r w' hw h hw'
    rcases runs_bind.mp h with ⟨e, rfl, hfail⟩ | ⟨fs, gs, a, u, rfl, hok, hrest⟩
    · obtain ⟨e', he, hc⟩ := hj.error _ _ _ _ hw hfail hw'
      cases he
      exact ⟨e, rfl, hc⟩
    · have hu : u.memory.disabled = false := Bool.eq_false_iff.mpr fun hu => by
        obtain ⟨e, he, -⟩ := hj.error _ _ _ _ hw hok hu
        cases he
      obtain ⟨e, rfl, hc⟩ := (hf a).error _ _ _ _ hu hrest hw'
      exact ⟨e, rfl, hc.imp_right fun ⟨hn, hx⟩ => ⟨hj.known _ _ _ _ hok hn, hx⟩⟩
  · intro w es r w' h hn
    rcases runs_bind.mp h with ⟨e, rfl, hfail⟩ | ⟨fs, gs, a, u, rfl, hok, hrest⟩
    · exact hj.known _ _ _ _ hfail hn
    · exact hj.known _ _ _ _ hok ((hf a).known _ _ _ _ hrest hn)

theorem exchange (hM : M.Plain) (c : Config) (d : DeviceHandle) (m : Message)
    (highest : Option MessageId) : Confesses M (m.exchange c d highest) := by
  constructor
  · intro w es r w' hw h hw'
    have hd := h.disabled.mp hw'
    rw [hw, or_iff_right Bool.false_ne_true] at hd
    exact ⟨_, (Message.yields_exchange_disable (h.plain hM) h.yields).mp hd, Or.inl ⟨_, _, rfl⟩⟩
  · intro w es r w' h hn
    have hinv := (Message.exchange_only d c m highest).conducts (M := M)
      (T := fun w _ w' => w'.memory.inventory = w.memory.inventory)
      ⟨fun _ => rfl, fun h h' => h'.trans h⟩ (fun q w hq => by cases q <;> first | rfl | cases hq)
    rw [← Conducts.runs hinv h]
    exact hn

theorem gate (hM : M.Plain) (s : Session) (m? : Option MessageId) : Confesses M (s.gate m?) := by
  have hlearn : ∀ {w es r u}, w.memory.disabled = false → Runs M s.learn w es r u →
      u.memory.disabled = true → ∃ e, r = .error e ∧ Fatal e := by
    intro w es r u hw h hu
    rcases Session.runs_learn.mp h with ⟨e, rfl, hs⟩ | ⟨p, t, cpus, ks, v, ns, x, hs, hn, rfl, rfl⟩
    · rw [hs.memory Session.survey_only, hw] at hu
      cases hu
    have hv : v.memory.disabled = false := by rw [hs.memory Session.survey_only, hw]
    obtain ⟨fs, v', hc, hend⟩ := Session.runs_negotiate.mp hn
    obtain ⟨hd, he⟩ := Capabilities.negotiates_negotiate s.config hM t _ _ _ _ hv hc
    rcases hend with ⟨e, rfl, hcond, -, -⟩ | ⟨-, -, rfl⟩
    · exact ⟨e, rfl, he e rfl (Session.condemns_iff.mp hcond)⟩
    · obtain ⟨m, polls, rfl⟩ := hd hu
      exact ⟨_, rfl, .timeout m polls⟩
  constructor
  · intro w es r w' hw h hw'
    cases Session.runs_gate h with
    | denied => rw [hw] at hw'; cases hw'
    | disabled => rw [hw] at hw'; cases hw'
    | known => rw [hw] at hw'; cases hw'
    | learned _ _ _ hl =>
      obtain ⟨e, he, -⟩ := hlearn hw hl hw'
      cases he
    | failed _ _ hn hl =>
      obtain ⟨e, he, hf⟩ := hlearn hw hl hw'
      exact ⟨e, he, Or.inr ⟨hn, hf⟩⟩
  · intro w es r w' h hn
    cases Session.runs_gate h with
    | denied => exact hn
    | disabled => exact hn
    | known => exact hn
    | learned _ _ h0 => exact h0
    | failed _ _ h0 => exact h0

theorem assembled (hM : M.Plain) {P : Message → Prop} {j : Job α} (h : Assembled s P j) :
    Confesses M j := by
  induction h with
  | lift x => exact lift x
  | gate m? => exact gate hM s m?
  | deliver inv n _ => exact bind (lift _) fun tile => exchange hM _ _ _ _
  | bind _ _ ih ihf => exact bind ih ihf

end Confesses

/-! ## What decides -/

/-- How a process that neither gave up nor knows its machine judges the firmware at the gate. -/
structure Judges (M : Machine μ) (s : Session) (m? : Option MessageId) (w : World μ) : Prop where
  /-- A survey that fails says nothing of the firmware. -/
  unsurveyed : ∀ e, (World.run M Session.survey w).1 = .error e →
    (World.run M (s.gate m?) w).1 = .error e ∧ (World.run M (s.gate m?) w).2.memory.disabled = false
  /-- If the probe fails, the kind of its failure decides. -/
  failed : ∀ p t cpus u e, World.run M Session.survey w = (.ok (p, t, cpus), u) →
    (World.run M (Capabilities.negotiate s.config t) u).1 = .error e →
      (World.run M (s.gate m?) w).1 = .error e ∧
        ((World.run M (s.gate m?) w).2.memory.disabled = true ↔
          e.kind = .unsupported ∨ e.kind = .hardware ∨ e.kind = .timeout)
  /-- Firmware that passed the probe is trusted, also if it is too old for the message. -/
  answered : ∀ p t cpus u caps, World.run M Session.survey w = (.ok (p, t, cpus), u) →
    (World.run M (Capabilities.negotiate s.config t) u).1 = .ok caps →
      (World.run M (s.gate m?) w).2.memory.disabled = false

/-- A probe that fails ends the learning, and the process gives up if the failure blames the firmware. -/
theorem runs_learn_of_probe {p : Processor} {t : Topology} {cpus : CpuTable} {e : Error}
    (hs : World.run M Session.survey w = (.ok (p, t, cpus), u))
    (hc : World.run M (Capabilities.negotiate s.config t) u = (.error e, w')) :
    ∃ es v, Runs M s.learn w es (.error e) v ∧
      (e.BlamesFirmware ∧ v = w'.giveUp ∨ ¬ e.BlamesFirmware ∧ v = w') := by
  have hlearn : ∀ {ns v}, Runs M (s.negotiate t) u ns (.error e) v → Runs M s.learn w _ (.error e) v :=
    fun hn => Session.runs_learn.mpr (Or.inr ⟨p, t, cpus, _, u, _, _, ⟨hs, rfl⟩, hn, rfl, rfl⟩)
  by_cases he : e.BlamesFirmware
  · have hn : Runs M (s.negotiate t) u _ (.error e) w'.giveUp :=
      Session.runs_negotiate.mpr ⟨_, w', ⟨hc, rfl⟩, Or.inl ⟨e, rfl, Session.condemns_iff.mpr he, rfl, rfl⟩⟩
    exact ⟨_, _, hlearn hn, Or.inl ⟨he, rfl⟩⟩
  · have hspared : ∀ f, (.error e : Except Error Capabilities) = .error f → Session.condemns f = false := by
      intro f hf
      cases hf
      exact Bool.eq_false_iff.mpr fun hcondemned => he (Session.condemns_iff.mp hcondemned)
    have hn : Runs M (s.negotiate t) u _ (.error e) w' :=
      Session.runs_negotiate.mpr ⟨_, w', ⟨hc, rfl⟩, Or.inr ⟨hspared, rfl, rfl⟩⟩
    exact ⟨_, _, hlearn hn, Or.inr ⟨he, rfl⟩⟩

section

variable (hp : M.isPrivileged w.machine = true) (hd : w.memory.disabled = false)
  (hi : w.memory.inventory = none)

include hp hd hi

/-- With nothing known, the gate comes to what learning the machine comes to, and remembers it. -/
theorem run_gate_unknown {r : Except Error Inventory} (h : Runs M s.learn w es r u) (m? : Option MessageId) :
    World.run M (s.gate m?) w =
      match r with
      | .ok inv => (Session.letPass m? inv, u.remember inv)
      | .error e => (.error e, u) := by
  have hg := runs M (s.gate m?) w
  generalize transcript M (s.gate m?) w = gs at hg
  generalize (World.run M (s.gate m?) w).1 = x, (World.run M (s.gate m?) w).2 = w' at hg
  cases Session.runs_gate hg with
  | denied hn => rw [hp] at hn; cases hn
  | disabled _ hn => rw [hd] at hn; cases hn
  | known _ _ hn => rw [hi] at hn; cases hn
  | failed _ _ _ hl =>
    cases hl.run.symm.trans h.run
    exact hg.run
  | learned _ _ _ hl =>
    cases hl.run.symm.trans h.run
    exact hg.run

theorem judges (hM : M.Plain) (s : Session) (m? : Option MessageId) : Judges M s m? w := by
  have hsurveyed : ∀ {x u}, World.run M Session.survey w = (x, u) → u.memory.disabled = false := by
    intro x u hs
    have hmemory : u.memory = w.memory := Runs.memory Session.survey_only ⟨hs, rfl⟩
    rw [hmemory, hd]
  -- the probe by itself gives up only by a timeout
  have hprobed : ∀ {t x u v}, u.memory.disabled = false →
      World.run M (Capabilities.negotiate s.config t) u = (x, v) → v.memory.disabled = true →
        ∃ m polls, x = .error (.timeout m polls) := fun hu hc =>
    (Capabilities.negotiates_negotiate s.config hM _ _ _ _ _ hu ⟨hc, rfl⟩).1
  refine ⟨fun e hs => ?_, fun p t cpus u e hs hc => ?_, fun p t cpus u caps hs hc => ?_⟩
  · have hrun : World.run M Session.survey w = (.error e, (World.run M Session.survey w).2) := Prod.ext hs rfl
    have hlearn : Runs M s.learn w _ (.error e) _ := Session.runs_learn.mpr (Or.inl ⟨e, rfl, ⟨hrun, rfl⟩⟩)
    rw [run_gate_unknown hp hd hi hlearn]
    exact ⟨rfl, hsurveyed hrun⟩
  · have hrun : World.run M (Capabilities.negotiate s.config t) u = (.error e, _) := Prod.ext hc rfl
    obtain ⟨es, v, hlearn, ⟨he, rfl⟩ | ⟨he, rfl⟩⟩ := runs_learn_of_probe hs hrun
    · rw [run_gate_unknown hp hd hi hlearn]
      exact ⟨rfl, iff_of_true rfl he⟩
    · rw [run_gate_unknown hp hd hi hlearn]
      refine ⟨rfl, iff_of_false (fun hv => he ?_) he⟩
      obtain ⟨m, polls, hr⟩ := hprobed (hsurveyed hs) hrun hv
      cases hr
      exact Or.inr (Or.inr rfl)
  · have hrun : World.run M (Capabilities.negotiate s.config t) u = (.ok caps, _) := Prod.ext hc rfl
    have hlearn : Runs M s.learn w _ (.ok ⟨p, t, cpus, caps⟩) _ :=
      Session.runs_learn_ok.mpr ⟨_, _, u, rfl, ⟨hs, rfl⟩, ⟨hrun, rfl⟩⟩
    rw [run_gate_unknown hp hd hi hlearn]
    refine Bool.eq_false_iff.mpr fun hv => ?_
    obtain ⟨m, polls, hr⟩ := hprobed (hsurveyed hs) hrun hv
    cases hr

end

/-! ## A process that gave up -/

/-- The job fails at once and changes nothing. -/
def Refuses (M : Machine μ) (w : World μ) (e : Error) (j : Job α) : Prop :=
  ∃ es, Runs M j w es (.error e) w

namespace Refuses

variable {β : Type} {j : Job α} {e : Error}

theorem bind {f : α → Job β} (h : Refuses M w e j) : Refuses M w e (j >>= f) :=
  h.imp fun _ h => runs_bind.mpr (Or.inl ⟨e, rfl, h⟩)

theorem map {f : α → β} (h : Refuses M w e j) : Refuses M w e (f <$> j) := by
  rw [map_eq_pure_bind]
  exact h.bind

theorem throw : Refuses M w e (throw e : Job α) := ⟨[], runs_throw.mpr ⟨rfl, rfl, rfl⟩⟩

theorem gate (hp : M.isPrivileged w.machine = true) (hw : w.memory.disabled = true) (s : Session)
    (m? : Option MessageId) : Refuses M w (.unsupported .disabled) (s.gate m?) := by
  have h := runs M (s.gate m?) w
  generalize World.transcript M (s.gate m?) w = es at h
  generalize (World.run M (s.gate m?) w).1 = r, (World.run M (s.gate m?) w).2 = w' at h
  cases Session.runs_gate h with
  | denied hn => rw [hp] at hn; cases hn
  | disabled => exact ⟨_, h⟩
  | known _ hn => rw [hw] at hn; cases hn
  | learned _ hn => rw [hw] at hn; cases hn
  | failed _ hn => rw [hw] at hn; cases hn

end Refuses

end World

/-- How a process that gave up refuses a step. A range of link widths is looked at before the gate. -/
def Step.refusal : Step → Error
  | .operation (.setLinkWidth min max) =>
    if max < min then .invalidArgument (.widths min max .widthOrder) else .unsupported .disabled
  | _ => .unsupported .disabled

namespace World

variable {μ : Type} {M : Machine μ} {w : World μ}

theorem Refuses.setLinkWidth (hp : M.isPrivileged w.machine = true) (hw : w.memory.disabled = true)
    (s : Session) (min max : LinkWidth) :
    Refuses M w (Step.refusal (.operation (.setLinkWidth min max))) (s.setLinkWidth min max) := by
  rw [Session.setLinkWidth_eq]
  dsimp only [Step.refusal]
  by_cases h : max < min
  · rw [if_pos h, if_pos h]
    exact .throw
  · rw [if_neg h, if_neg h]
    exact .bind (.gate hp hw s _)

theorem Refuses.step (hp : M.isPrivileged w.machine = true) (hw : w.memory.disabled = true) (s : Session)
    {st : Step} (hst : st ≠ .forget) : Refuses M w st.refusal (st.perform s) := by
  have hexchange : ∀ n m, Refuses M w (.unsupported .disabled) (s.exchange n m) := fun n m =>
    .bind (.gate hp hw s _)
  have hread : ∀ n m, Refuses M w (.unsupported .disabled) (s.readWord n m) := fun n m =>
    .bind (hexchange n _)
  cases st with
  | gate m? => exact .map (.gate hp hw s m?)
  | exchange n m => exact .map (hexchange n m)
  | forget => exact absurd rfl hst
  | operation op =>
    cases op
    case setLinkWidth min max => exact .map (.setLinkWidth hp hw s min max)
    -- every other operation begins with the gate, most of them to send a message
    case firmwareVersion | interfaceVersion | busAfter | lowestBuses | cpuBoost | setCpuBoost |
        setSystemBoost | setFabricState | setInterfaceState | setLinkWidthAuto =>
      exact .map (.bind (.gate hp hw s _))
    case fabricClocks | setPowerLimit | setSocketBoost => exact .map (.bind (hexchange _ _))
    case fabricClock | memoryClock => exact .map (.bind (.bind (hexchange _ _)))
    case procHot | ddrBandwidth => exact .map (.bind (hread _ _))
    case ddrMax | ddrUsed | ddrUsedPercent => exact .map (.bind (.bind (hread _ _)))
    all_goals exact .map (hread _ _)

/-! ## Whole runs -/

/-- On a machine with plain failures, a process that gave up reaches no device any more, and refuses
    every step of a privileged caller. It gives up for an exchange that timed out or a negotiation
    that failed with an error of the kinds unsupported, hardware or timeout, and for nothing else: the
    step in which it gives up fails with a timeout, or, if the machine was not known before, with what
    condemned the negotiation. If nothing is known, a survey that fails is no reason to give up, and if
    the probe fails, the kind of its failure decides. -/
theorem gives_up_for_good (M : Machine μ) (hM : M.Plain) (moves : List (Move μ)) (w : World μ) :
    (∀ before x rest, trace M moves w = before ++ x :: rest →
      (w.memory.disabled = true ∨ ⟨.disable, ()⟩ ∈ before) → x.request.reachesDevices = false) ∧
    ((after M moves w).memory.disabled = true ↔
      w.memory.disabled = true ∨ Unanswered (trace M moves w) ∨ Condemned (trace M moves w)) ∧
    (∀ (s : Session) (st : Step), (after M moves w).memory.disabled = true →
      M.isPrivileged (after M moves w).machine = true → st ≠ .forget →
      World.run M (st.perform s) (after M moves w) = (.error st.refusal, after M moves w)) ∧
    (∀ (s : Session) (st : Step), (after M moves w).memory.disabled = false →
      (World.run M (st.perform s) (after M moves w)).2.memory.disabled = true →
      ∃ e, (World.run M (st.perform s) (after M moves w)).1 = .error e ∧
        ((∃ m polls, e = .timeout m polls) ∨
          (after M moves w).memory.inventory = none ∧ Fatal e)) ∧
    (∀ (s : Session) (m? : Option MessageId), (after M moves w).memory.disabled = false →
      (after M moves w).memory.inventory = none → M.isPrivileged (after M moves w).machine = true →
      Judges M s m? (after M moves w)) ∧
    ∀ e : Error, (e.kind = .unsupported ∨ e.kind = .hardware ∨ e.kind = .timeout) ↔
      (∃ cause, e = .unsupported cause) ∨ (∃ m, e = .firmwareRejected m) ∨
        (∃ status, e = .hardware status) ∨ ∃ m polls, e = .timeout m polls := by
  have hheeds : Heeds w (trace M moves w) (after M moves w) := by
    refine Heeds.composes.moves Heeds.gate Heeds.exchange ?_ ?_ ?_ moves w
    · exact fun w => .of_request w rfl
    · exact fun w => .of_request w rfl
    · exact fun w m => .of_quiet (by simp) (by simp)
  have hexplained : Explained w (trace M moves w) (after M moves w) := by
    refine Explained.composes.moves (Explained.gate hM) (Explained.exchange hM) ?_ ?_ ?_ moves w
    · exact fun w hw hw' => absurd (hw.symm.trans hw') Bool.false_ne_true
    · exact fun w hw hw' => absurd (hw.symm.trans hw') Bool.false_ne_true
    · exact fun w m hw hw' => absurd (hw.symm.trans hw') Bool.false_ne_true
  have hplain : ∀ x ∈ trace M moves w, x.Plain := plain_trace hM moves w
  refine ⟨fun before x rest ht hw => ?_, ⟨fun hd => ?_, fun h => ?_⟩, fun s st hd hp hst => ?_,
    fun s st hd hd' => ?_, fun s m? hd hi hp => judges hp hd hi hM s m?, fun e => Error.blamesFirmware_iff⟩
  · obtain ⟨-, -, hpair⟩ := List.pairwise_append.mp (ht ▸ hheeds.since)
    rcases hw with hw | hx
    · exact hheeds.before hw x (by simp [ht])
    · exact hpair _ hx x (by simp) rfl
  · cases hw : w.memory.disabled with
    | true => exact Or.inl rfl
    | false => exact Or.inr (hexplained hw hd)
  · exact hheeds.disabled.mpr (h.imp_right (mem_of_cause hplain))
  · obtain ⟨es, h⟩ := Refuses.step hp hd s hst
    exact h.run
  · cases st with
    | forget => cases hd.symm.trans hd'
    | _ => exact (Confesses.assembled hM (Step.assembled s _ (by simp))).error _ _ _ _ hd (runs M _ _) hd'

end World

theorem Simulation.machine_plain : Simulation.machine.Plain where
  read {d o m e} h := by
    have hr : ∀ (x : Device) a, (m.readRegister x a).1 = .error e → e.ofDevice = true := by
      intro x a h
      unfold State.readRegister at h
      split at h <;> cases h
      rfl
    change (m.read d o).1 = .error e at h
    unfold State.read at h
    split at h
    · cases h; rfl
    · repeat' split at h
      all_goals first
        | exact hr _ _ h
        | (cases h; done)
        | (cases h; rfl)
  write {d o v m e} h := by
    have hr : ∀ (x : Device) a, (m.writeRegister x a v).1 = .error e → e.ofDevice = true := by
      intro x a h
      unfold State.writeRegister at h
      split at h <;> cases h
      rfl
    change (m.write d o v).1 = .error e at h
    unfold State.write at h
    split at h
    · cases h; rfl
    · repeat' split at h
      all_goals first
        | exact hr _ _ h
        | (cases h; done)
        | (cases h; rfl)
  lock {p m e} h := by
    change (m.storage.lock p).1 = .error e at h
    have hl : ∀ i, Storage.lockError p i = e → e.ofLock = true := by
      rintro i rfl
      unfold Storage.lockError
      split <;> rfl
    unfold Storage.lock at h
    split at h
    · exact hl _ (Except.error.inj h)
    · split at h
      · exact hl _ (Except.error.inj h)
      · cases h

namespace World

/-- A process that knows its machine, of one socket, whose firmware hangs. -/
def hung : World Simulation.State :=
  ⟨Simulation.ofPlans [⟨Usual.buses 0, Usual.buses 0, { interfaceVersion := 3, stalled := true }⟩] ⟨[]⟩,
    { inventory := some ⟨⟨.amd, 0x19, 1, 1⟩,
        ⟨Topology.tilesFrom 0 (Simulation.ofPlans [⟨Usual.buses 0, Usual.buses 0, { interfaceVersion := 3 }⟩]
          ⟨[]⟩).found⟩, ⟨[]⟩, ⟨{}, 3⟩⟩ }⟩

/-- A process that does not know its machine, where the firmware of one socket refuses every argument. -/
def faulty : World Simulation.State :=
  ⟨Topology.crossed.updateSocket 0 fun s =>
    { s with firmware := { s.firmware with forcedStatus := some Status.invalidArgument } }, {}⟩

/-- With this configuration there is no directory for the lock. -/
def lockless : Config := { Simulation.config with lockPath := "run/hsmp.lock" }

/-- Its survey succeeds. Its probe fails with a status, or before that at a lock that cannot be taken. -/
theorem faulty_probed : ∃ u, World.run Simulation.machine Session.survey faulty =
      (.ok (⟨.amd, 0x19, 1, 1⟩, Topology.crossedTable, ⟨[]⟩), u) ∧
    (World.run Simulation.machine (Capabilities.negotiate Simulation.config Topology.crossedTable) u).1 =
      .error (.hardware Status.invalidArgument) ∧
    (World.run Simulation.machine (Capabilities.negotiate lockless Topology.crossedTable) u).1 =
      .error (.io (.ofErrno .noEntry)) := by
  let x := World.run Simulation.machine (Topology.ofDevices Topology.crossed.found)
    { faulty with machine := { faulty.machine with scans := 1 } }
  have hx : x.1 = .ok Topology.crossedTable ∧ x.2.machine.cpus = ⟨[]⟩ ∧
      (World.run Simulation.machine (Capabilities.negotiate Simulation.config Topology.crossedTable) x.2).1 =
        .error (.hardware Status.invalidArgument) ∧
      (World.run Simulation.machine (Capabilities.negotiate lockless Topology.crossedTable) x.2).1 =
        .error (.io (.ofErrno .noEntry)) := by
    unfold x
    rw [Topology.ofDevices, Topology.arrange_crossed, Topology.byBus_crossed]
    decide +kernel
  obtain ⟨ht, hcpus, hstatus, hlock⟩ := hx
  have hdevices : Simulation.machine.devices faulty.machine =
      (.ok Topology.crossed.found, { faulty.machine with scans := 1 }) := rfl
  exact ⟨x.2, Session.run_survey (by decide) hdevices (Prod.ext ht rfl) (congrArg Except.ok hcpus), hstatus, hlock⟩

/-- Firmware that hangs and firmware that fails the probe are given up on, and to mend the machine comes too
    late. A lock that the probe cannot take is not held against the firmware. -/
theorem hung_and_faulty_give_up :
    let s : Session := ⟨Simulation.config⟩
    let stuck : List (Move Simulation.State) := [.step s (.operation (.socketPower 0))]
    let mended : List (Move Simulation.State) := [.step s (.gate none), .change fun _ => Topology.crossed]
    Simulation.machine.Plain ∧
    ((Unanswered (trace Simulation.machine stuck hung) ∨ Condemned (trace Simulation.machine stuck hung)) ∧
      World.run Simulation.machine ((Step.gate none).perform s) (after Simulation.machine stuck hung) =
        (.error (.unsupported .disabled), after Simulation.machine stuck hung)) ∧
    ((World.run Simulation.machine (s.gate none) faulty).1 = .error (.hardware Status.invalidArgument) ∧
      World.run Simulation.machine ((Step.gate none).perform s) (after Simulation.machine mended faulty) =
        (.error (.unsupported .disabled), after Simulation.machine mended faulty)) ∧
    (World.run Simulation.machine (Session.gate ⟨lockless⟩ none) faulty).1 = .error (.io (.ofErrno .noEntry)) ∧
      (World.run Simulation.machine (Session.gate ⟨lockless⟩ none) faulty).2.memory.disabled = false := by
  intro s stuck mended
  have hplain := Simulation.machine_plain
  obtain ⟨-, hcause, hrefused, -⟩ := gives_up_for_good Simulation.machine hplain stuck hung
  obtain ⟨-, -, hstays, -⟩ := gives_up_for_good Simulation.machine hplain mended faulty
  obtain ⟨-, -, -, -, hjudges, -⟩ := gives_up_for_good Simulation.machine hplain [] faulty
  have hstuck : (after Simulation.machine stuck hung).memory.disabled = true := by decide +kernel
  obtain ⟨u, hsurvey, hstatus, hlock⟩ := faulty_probed
  -- the status blames the firmware
  obtain ⟨hgate, hiff⟩ := (hjudges s none rfl rfl rfl).failed _ _ _ u _ hsurvey hstatus
  have hmended : (after Simulation.machine mended faulty).memory.disabled = true := by
    have hstep : World.run Simulation.machine ((Step.gate none).perform s) faulty =
        (.error (.hardware Status.invalidArgument), (World.run Simulation.machine (s.gate none) faulty).2) := by
      rw [Step.perform, map_eq_pure_bind]
      exact run_bind_error (Prod.ext hgate rfl)
    show (World.run Simulation.machine ((Step.gate none).perform s) faulty).2.memory.disabled = true
    rw [hstep]
    exact hiff.mpr (by decide)
  -- the lock does not
  obtain ⟨hlocked, hnot⟩ := (hjudges ⟨lockless⟩ none rfl rfl rfl).failed _ _ _ u _ hsurvey hlock
  refine ⟨hplain, ⟨(hcause.mp hstuck).resolve_left Bool.false_ne_true, ?_⟩, ⟨hgate, ?_⟩, hlocked, ?_⟩
  · exact hrefused s (.gate none) hstuck (by decide +kernel) (by decide)
  · exact hstays s (.gate none) hmended rfl (by decide)
  · exact Bool.eq_false_iff.mpr fun hd => absurd (hnot.mp hd) (by decide)

end World

end FirmwareMailbox
