/-
  FirmwareMailbox.Proofs.Session.Learning — the runs of the gate, taken apart.

  Learning the machine is a survey, which asks everything but the firmware and changes nothing that
  the process remembers, and then the negotiation with the firmware. Either of them may fail, and
  the process gives up only after the negotiation and only if its failure is one to give up for
  (`runs_learn`). The gate learns the machine only if nothing is remembered, and what it learned it
  publishes at once (`Passage`).
-/

import FirmwareMailbox.Proofs.Machine.Requests
import FirmwareMailbox.Session.Basic

namespace FirmwareMailbox

/-- The process gives up on the firmware. -/
def World.giveUp {μ : Type} (w : World μ) : World μ :=
  { w with memory := { w.memory with disabled := true } }

/-- The process remembers an inventory from now on. -/
def World.remember {μ : Type} (inv : Inventory) (w : World μ) : World μ :=
  { w with memory :=
    { w.memory with inventory := some inv, published := w.memory.published + 1 } }

/-- A processor is refused for what it is. -/
theorem Processor.requireMailbox_eq_error {p : Processor} {e : Error} (h : p.requireMailbox = .error e) :
    ∃ cause, e = .unsupported cause := by
  unfold requireMailbox at h
  repeat' split at h
  all_goals cases h
  all_goals exact ⟨_, rfl⟩

namespace Session

open World

variable {μ : Type} {M : Machine μ} {s : Session} {w w' : World μ} {es : List Event}

/-- What learning asks before it sends a message: whether the processor has a mailbox, the devices
    and what becomes of them, and the CPUs. -/
def survey : Job (Processor × Topology × CpuTable) := do
  let processor ← Job.ask .processor
  processor.requireMailbox
  let devices ← Job.devices
  let topology ← Topology.ofDevices devices
  let cpus ← Job.cpus
  return (processor, topology, cpus)

theorem learn_eq (s : Session) : s.learn = do
    let (processor, topology, cpus) ← survey
    let capabilities ← s.negotiate topology
    return { processor, topology, cpus, capabilities } := by
  simp only [learn, survey, bind_assoc, pure_bind]

/-- A survey is questions to the system and a discovery, and a refusal of processors without a mailbox. -/
theorem survey_of_closed {P : Error → Prop} {C : ∀ {α : Type}, Job α → Prop} (hC : Job.Closed P C)
    (hP : ∀ cause, P (.unsupported cause)) (hp : C (Job.ask .processor)) (hdevices : C Job.devices)
    (hd : ∀ devices, C (Topology.ofDevices devices)) (hcpus : C Job.cpus) : C survey := by
  refine hC.bind hp fun processor => hC.bind (hC.lift fun e he => ?_) fun _ => hC.bind hdevices fun devices =>
    hC.bind (hd devices) fun _ => hC.bind hcpus fun _ => hC.pure _
  obtain ⟨cause, rfl⟩ := Processor.requireMailbox_eq_error he
  exact hP cause

theorem survey_closed {C : ∀ {α : Type}, Program α → Prop} (hC : Program.Closed C)
    (hq : ∀ q : Request, q = .processor ∨ q = .devices ∨ q = .cpus → C (Program.request q))
    (hd : ∀ devices, C (Topology.ofDevices devices).run) : C survey.run :=
  survey_of_closed hC.job (fun _ => trivial) (hC.bind (hq .processor (by simp)) fun _ => hC.done _)
    (hq .devices (by simp)) hd (hq .cpus (by simp))

theorem survey_only : Job.Only (·.isMemo = false) survey := by
  refine survey_closed Program.Only.closed ?_ fun devices => (Topology.ofDevices_only devices).mono ?_
  · rintro q (rfl | rfl | rfl) <;> exact ⟨rfl, fun _ => trivial⟩
  · intro q hq
    cases q <;> first | rfl | cases hq

/-- The ways through a survey: it ends at a processor without a mailbox, at a scan that fails, at devices
    that make no table, at a list of processors that cannot be read, or with what it found. -/
inductive Surveyed (M : Machine μ) (w : World μ) :
    List Event → Except Error (Processor × Topology × CpuTable) → World μ → Prop
  | unsupported {e : Error} : (M.processor w.machine).requireMailbox = .error e →
      Surveyed M w [⟨.processor, M.processor w.machine⟩] (.error e) w
  | unlisted {e : Error} {m : μ} : M.devices w.machine = (.error e, m) →
      Surveyed M w [⟨.processor, M.processor w.machine⟩, ⟨.devices, .error e⟩] (.error e) { w with machine := m }
  | undiscovered {devices : List PciDevice} {m : μ} {ds : List Event} {e : Error} {u : World μ} :
      M.devices w.machine = (.ok devices, m) →
      Runs M (Topology.ofDevices devices) { w with machine := m } ds (.error e) u →
      Surveyed M w ([⟨.processor, M.processor w.machine⟩, ⟨.devices, .ok devices⟩] ++ ds) (.error e) u
  | cpuless {devices : List PciDevice} {m : μ} {ds : List Event} {t : Topology} {e : Error} {u : World μ} :
      M.devices w.machine = (.ok devices, m) →
      Runs M (Topology.ofDevices devices) { w with machine := m } ds (.ok t) u → M.cpus u.machine = .error e →
      Surveyed M w ([⟨.processor, M.processor w.machine⟩, ⟨.devices, .ok devices⟩] ++
        (ds ++ [⟨.cpus, .error e⟩])) (.error e) u
  | whole {devices : List PciDevice} {m : μ} {ds : List Event} {t : Topology} {cpus : CpuTable} {u : World μ} :
      (M.processor w.machine).requireMailbox = .ok () → M.devices w.machine = (.ok devices, m) →
      Runs M (Topology.ofDevices devices) { w with machine := m } ds (.ok t) u → M.cpus u.machine = .ok cpus →
      Surveyed M w ([⟨.processor, M.processor w.machine⟩, ⟨.devices, .ok devices⟩] ++
        (ds ++ [⟨.cpus, .ok cpus⟩])) (.ok (M.processor w.machine, t, cpus)) u

theorem runs_survey {r : Except Error (Processor × Topology × CpuTable)} (h : Runs M survey w es r w') :
    Surveyed M w es r w' := by
  have hscan : ∀ {y ls v v'}, Runs M Job.devices v ls y v' →
      ls = [⟨.devices, y⟩] ∧ M.devices v.machine = (y, v'.machine) ∧ v' = { v with machine := v'.machine } := by
    intro y ls v v' hl
    obtain ⟨gs, rfl, hd⟩ := runs_mk_ask.mp hl
    obtain ⟨rfl, rfl, rfl⟩ := runs_done.mp hd
    exact ⟨rfl, rfl, rfl⟩
  have hlist : ∀ {y ls v v'}, Runs M Job.cpus v ls y v' →
      ls = [⟨.cpus, y⟩] ∧ M.cpus v.machine = y ∧ v' = v := by
    intro y ls v v' hl
    obtain ⟨gs, rfl, hd⟩ := runs_mk_ask.mp hl
    obtain ⟨rfl, rfl, rfl⟩ := runs_done.mp hd
    exact ⟨rfl, rfl, rfl⟩
  obtain ⟨es, rfl, h₁⟩ := runs_ask_bind.mp h
  rcases runs_bind.mp h₁ with ⟨e, rfl, hp⟩ | ⟨ps, es, _, u, rfl, hp, h₂⟩
  · obtain ⟨rfl, he, rfl⟩ := runs_lift.mp hp
    exact .unsupported he.symm
  obtain ⟨rfl, hp, rfl⟩ := runs_lift.mp hp
  rw [List.nil_append]
  rcases runs_bind.mp h₂ with ⟨e, rfl, hl⟩ | ⟨ls, es, devices, v, rfl, hl, h₃⟩
  · obtain ⟨rfl, hd, hv⟩ := hscan hl
    rw [hv]
    exact .unlisted hd
  obtain ⟨rfl, hd, hv⟩ := hscan hl
  rw [hv] at h₃
  rcases runs_bind.mp h₃ with ⟨e, rfl, ht⟩ | ⟨ds, es, t, v', rfl, ht, h₄⟩
  · exact .undiscovered hd ht
  rcases runs_bind.mp h₄ with ⟨e, rfl, hc⟩ | ⟨cs, es, cpus, u', rfl, hc, h₅⟩
  · obtain ⟨rfl, he, rfl⟩ := hlist hc
    exact .cpuless hd ht he
  · obtain ⟨rfl, he, rfl⟩ := hlist hc
    obtain ⟨rfl, rfl, rfl⟩ := runs_pure.mp h₅
    rw [List.append_nil]
    exact .whole hp.symm hd ht he

/-- A survey of a processor with a mailbox comes to what its discovery comes to. -/
theorem run_survey {devices : List PciDevice} {m : μ} {t : Topology} {cpus : CpuTable}
    (hp : (M.processor w.machine).requireMailbox = .ok ()) (hd : M.devices w.machine = (.ok devices, m))
    (ht : World.run M (Topology.ofDevices devices) { w with machine := m } = (.ok t, w'))
    (hc : M.cpus w'.machine = .ok cpus) :
    World.run M survey w = (.ok (M.processor w.machine, t, cpus), w') := by
  have hask : World.run M (Job.ask .processor) w = (.ok (M.processor w.machine), w) := rfl
  have hrequire : World.run M (liftM (M.processor w.machine).requireMailbox) w = (.ok (), w) := by
    rw [hp]
    rfl
  have hscan : World.run M Job.devices w = (.ok devices, { w with machine := m }) := by
    show ((M.devices w.machine).1, { w with machine := (M.devices w.machine).2 }) = _
    rw [hd]
  have hlist : World.run M Job.cpus w' = (.ok cpus, w') := by
    show (M.cpus w'.machine, w') = _
    rw [hc]
  rw [survey, run_bind_ok hask, run_bind_ok hrequire, run_bind_ok hscan, run_bind_ok ht, run_bind_ok hlist]
  rfl

/-- What follows the firmware's part of the negotiation. -/
def conclude : Except Error Capabilities → Program (Except Error Capabilities)
  | .ok caps => .done (.ok caps)
  | .error e => if condemns e then .ask .disable fun _ => .done (.error e) else .done (.error e)

theorem negotiate_eq (s : Session) (t : Topology) :
    s.negotiate t = ExceptT.mk ((Capabilities.negotiate s.config t).run.bind conclude) := by
  refine congrArg (fun g => ExceptT.mk (Program.bind _ g)) (funext fun x => ?_)
  cases x with
  | ok caps => rfl
  | error e => by_cases h : condemns e = true <;> simp [conclude, h] <;> rfl

/-- The process gives up after a failure to give up for, and else does no more than the firmware's
    part of the negotiation. -/
theorem runs_negotiate {t : Topology} {r : Except Error Capabilities} :
    Runs M (s.negotiate t) w es r w' ↔
      ∃ fs u, Runs M (Capabilities.negotiate s.config t) w fs r u ∧
        ((∃ e, r = .error e ∧ condemns e = true ∧ es = fs ++ [⟨.disable, ()⟩] ∧ w' = u.giveUp) ∨
          (∀ e, r = .error e → condemns e = false) ∧ es = fs ∧ w' = u) := by
  rw [negotiate_eq, runs_catch]
  constructor
  · rintro ⟨fs, gs, x, u, rfl, h, hc⟩
    cases x with
    | ok caps =>
      obtain ⟨rfl, rfl, rfl⟩ := runs_done.mp hc
      exact ⟨fs, _, h, Or.inr ⟨fun e he => (by cases he), List.append_nil _, rfl⟩⟩
    | error e =>
      cases he : condemns e <;> simp only [conclude, he, if_true, Bool.false_eq_true, if_false] at hc
      · obtain ⟨rfl, rfl, rfl⟩ := runs_done.mp hc
        exact ⟨fs, _, h, Or.inr ⟨fun _ h => by cases h; exact he, List.append_nil _, rfl⟩⟩
      · obtain ⟨_, rfl, hd⟩ := runs_mk_ask.mp hc
        obtain ⟨rfl, rfl, rfl⟩ := runs_done.mp hd
        exact ⟨fs, u, h, Or.inl ⟨e, rfl, he, rfl, rfl⟩⟩
  · rintro ⟨fs, u, h, ⟨e, rfl, he, rfl, rfl⟩ | ⟨hn, rfl, rfl⟩⟩
    · refine ⟨fs, _, _, u, rfl, h, ?_⟩
      rw [conclude, if_pos he]
      exact runs_mk_ask.mpr ⟨[], rfl, runs_done.mpr ⟨rfl, rfl, rfl⟩⟩
    · refine ⟨es, [], r, w', (List.append_nil _).symm, h, ?_⟩
      cases r with
      | ok caps => exact runs_done.mpr ⟨rfl, rfl, rfl⟩
      | error e =>
        rw [conclude, if_neg (by rw [hn e rfl]; decide)]
        exact runs_done.mpr ⟨rfl, rfl, rfl⟩

theorem runs_learn {r : Except Error Inventory} :
    Runs M s.learn w es r w' ↔
      (∃ e, r = .error e ∧ Runs M survey w es (.error e) w') ∨
      ∃ p t cpus ks u ns x, Runs M survey w ks (.ok (p, t, cpus)) u ∧
        Runs M (s.negotiate t) u ns x w' ∧ es = ks ++ ns ∧
        r = x.map fun capabilities => { processor := p, topology := t, cpus, capabilities } := by
  rw [learn_eq]
  constructor
  · intro h
    rcases runs_bind.mp h with ⟨e, rfl, hs⟩ | ⟨ks, ns, ⟨p, t, cpus⟩, u, rfl, hs, hn⟩
    · exact Or.inl ⟨e, rfl, hs⟩
    refine Or.inr ⟨p, t, cpus, ks, u, ns, ?_⟩
    rcases runs_bind.mp hn with ⟨e, rfl, hc⟩ | ⟨gs, ps, caps, v, rfl, hc, hp⟩
    · exact ⟨.error e, hs, hc, rfl, rfl⟩
    · obtain ⟨rfl, rfl, rfl⟩ := runs_pure.mp hp
      exact ⟨.ok caps, hs, by rwa [List.append_nil], rfl, rfl⟩
  · rintro (⟨e, rfl, hs⟩ | ⟨p, t, cpus, ks, u, ns, x, hs, hn, rfl, rfl⟩)
    · exact runs_bind.mpr (Or.inl ⟨e, rfl, hs⟩)
    · refine runs_bind.mpr (Or.inr ⟨ks, ns, (p, t, cpus), u, rfl, hs, ?_⟩)
      cases x with
      | error e => exact runs_bind.mpr (Or.inl ⟨e, rfl, hn⟩)
      | ok caps =>
        exact runs_bind.mpr (Or.inr ⟨ns, [], caps, w', by simp, hn, runs_pure.mpr ⟨rfl, rfl, rfl⟩⟩)

/-- To learn a machine takes a survey and a negotiation that both succeed. -/
theorem runs_learn_ok {inv : Inventory} :
    Runs M s.learn w es (.ok inv) w' ↔
      ∃ ks ns u, es = ks ++ ns ∧ Runs M survey w ks (.ok (inv.processor, inv.topology, inv.cpus)) u ∧
        Runs M (Capabilities.negotiate s.config inv.topology) u ns (.ok inv.capabilities) w' := by
  constructor
  · intro h
    rcases runs_learn.mp h with ⟨e, he, -⟩ | ⟨p, t, cpus, ks, u, ns, x, hs, hn, rfl, hr⟩
    · cases he
    cases x with
    | error e => cases hr
    | ok caps =>
      cases hr
      obtain ⟨fs, v, hc, ⟨e, he, -⟩ | ⟨-, rfl, rfl⟩⟩ := runs_negotiate.mp hn
      · cases he
      · exact ⟨ks, ns, u, rfl, hs, hc⟩
  · rintro ⟨ks, ns, u, rfl, hs, hc⟩
    have hn : Runs M (s.negotiate inv.topology) u ns (.ok inv.capabilities) w' :=
      runs_negotiate.mpr ⟨ns, w', hc, Or.inr ⟨fun e he => (by cases he), rfl, rfl⟩⟩
    exact runs_learn.mpr (Or.inr ⟨_, _, _, ks, u, ns, _, hs, hn, rfl, rfl⟩)

/-- What is remembered is taken; otherwise the machine is learned, and published if that worked. -/
theorem runs_inventory {r : Except Error Inventory} (h : Runs M s.inventory w es r w') :
    (∃ inv, w.memory.inventory = some inv ∧ es = [⟨.recall, some inv⟩] ∧ r = .ok inv ∧ w' = w) ∨
    w.memory.inventory = none ∧
      ((∃ fs inv u, es = ⟨.recall, none⟩ :: (fs ++ [⟨.publish inv, ()⟩]) ∧
          Runs M s.learn w fs (.ok inv) u ∧ r = .ok inv ∧ w' = u.remember inv) ∨
        ∃ fs e, es = ⟨.recall, none⟩ :: fs ∧ Runs M s.learn w fs (.error e) w' ∧ r = .error e) := by
  obtain ⟨gs, rfl, hr⟩ := runs_ask_bind.mp h
  cases hi : w.memory.inventory with
  | some inv =>
    simp only [answer, hi] at hr ⊢
    obtain ⟨rfl, rfl, rfl⟩ := runs_pure.mp hr
    exact Or.inl ⟨inv, rfl, rfl, rfl, rfl⟩
  | none =>
    simp only [answer, hi] at hr ⊢
    refine Or.inr ⟨trivial, ?_⟩
    rcases runs_bind.mp hr with ⟨e, rfl, hl⟩ | ⟨fs, hs, inv, u, rfl, hl, hp⟩
    · exact Or.inr ⟨gs, e, rfl, hl, rfl⟩
    · obtain ⟨_, rfl, hd⟩ := runs_ask_bind.mp hp
      obtain ⟨rfl, rfl, rfl⟩ := runs_pure.mp hd
      exact Or.inl ⟨fs, inv, u, by simp, hl, rfl, rfl⟩

/-- What the gate makes of an inventory, for an operation that sends this message. -/
def letPass (m? : Option MessageId) (inv : Inventory) : Except Error Inventory :=
  match m? with
  | some m => (inv.capabilities.require m).map fun _ => inv
  | none => .ok inv

/-- It hands out what it was given, or nothing. -/
theorem letPass_eq_ok {m? : Option MessageId} {inv inv' : Inventory} (h : letPass m? inv = .ok inv') :
    inv' = inv := by
  cases m? with
  | none => cases h; rfl
  | some m =>
    simp only [letPass] at h
    cases hm : inv.capabilities.require m <;> rw [hm] at h <;> cases h
    rfl

theorem gate_eq (s : Session) (m? : Option MessageId) :
    s.gate m? = Job.ask .isPrivileged >>= fun privileged =>
      (if privileged = true then Job.ask .isDisabled else throw (.denied .notRoot)) >>= fun gaveUp =>
        (if gaveUp = true then throw (.unsupported .disabled) else s.inventory) >>= fun inv =>
          liftM (letPass m? inv) := by
  refine congrArg (Job.ask .isPrivileged >>= ·) (funext fun p => ?_)
  cases p with
  | false => rfl
  | true =>
    refine congrArg (Job.ask .isDisabled >>= ·) (funext fun d => ?_)
    cases d with
    | true => rfl
    | false =>
      refine congrArg (s.inventory >>= ·) (funext fun inv => ?_)
      cases m? with
      | none => rfl
      | some m => simp only [letPass]; cases inv.capabilities.require m <;> rfl

/-- The ways to pass the gate, or not: it is shut to a caller without privilege and in a process that
    gave up; behind it is the inventory that is remembered, or the one that is learned now. -/
inductive Passage (M : Machine μ) (s : Session) (m? : Option MessageId) (w : World μ) :
    List Event → Except Error Inventory → World μ → Prop
  | denied : M.isPrivileged w.machine = false →
      Passage M s m? w [⟨.isPrivileged, false⟩] (.error (.denied .notRoot)) w
  | disabled : M.isPrivileged w.machine = true → w.memory.disabled = true →
      Passage M s m? w [⟨.isPrivileged, true⟩, ⟨.isDisabled, true⟩] (.error (.unsupported .disabled)) w
  | known {inv : Inventory} : M.isPrivileged w.machine = true → w.memory.disabled = false →
      w.memory.inventory = some inv →
      Passage M s m? w [⟨.isPrivileged, true⟩, ⟨.isDisabled, false⟩, ⟨.recall, some inv⟩] (letPass m? inv) w
  | learned {fs : List Event} {inv : Inventory} {u : World μ} : M.isPrivileged w.machine = true →
      w.memory.disabled = false → w.memory.inventory = none → Runs M s.learn w fs (.ok inv) u →
      Passage M s m? w
        ([⟨.isPrivileged, true⟩, ⟨.isDisabled, false⟩, ⟨.recall, none⟩] ++ (fs ++ [⟨.publish inv, ()⟩]))
        (letPass m? inv) (u.remember inv)
  | failed {fs : List Event} {e : Error} {w' : World μ} : M.isPrivileged w.machine = true →
      w.memory.disabled = false → w.memory.inventory = none → Runs M s.learn w fs (.error e) w' →
      Passage M s m? w ([⟨.isPrivileged, true⟩, ⟨.isDisabled, false⟩, ⟨.recall, none⟩] ++ fs) (.error e) w'

theorem runs_gate {m? : Option MessageId} {r : Except Error Inventory} (h : Runs M (s.gate m?) w es r w') :
    Passage M s m? w es r w' := by
  rw [gate_eq] at h
  obtain ⟨es, rfl, hp⟩ := runs_ask_bind.mp h
  cases hpriv : M.isPrivileged w.machine with
  | false =>
    simp only [answer, hpriv, Bool.false_eq_true, if_false] at hp ⊢
    rcases runs_bind.mp hp with ⟨e, rfl, ht⟩ | ⟨_, _, _, _, rfl, ht, -⟩
    · obtain ⟨rfl, he, rfl⟩ := runs_throw.mp ht
      cases he
      exact .denied hpriv
    · cases (runs_throw.mp ht).2.1
  | true =>
    simp only [answer, hpriv, if_true] at hp ⊢
    obtain ⟨fs, rfl, hd⟩ := runs_ask_bind.mp hp
    cases hdis : w.memory.disabled with
    | true =>
      simp only [answer, hdis, if_true] at hd ⊢
      rcases runs_bind.mp hd with ⟨e, rfl, ht⟩ | ⟨_, _, _, _, rfl, ht, -⟩
      · obtain ⟨rfl, he, rfl⟩ := runs_throw.mp ht
        cases he
        exact .disabled hpriv hdis
      · cases (runs_throw.mp ht).2.1
    | false =>
      simp only [answer, hdis, Bool.false_eq_true, if_false] at hd ⊢
      rcases runs_bind.mp hd with ⟨e, rfl, hi⟩ | ⟨gs, hs, inv, u, rfl, hi, ha⟩
      · rcases runs_inventory hi with ⟨_, _, _, he, _⟩ | ⟨hn, ⟨_, _, _, _, _, he, _⟩ | ⟨gs, e', rfl, hl, he⟩⟩
        · cases he
        · cases he
        · cases he
          exact .failed hpriv hdis hn hl
      · obtain ⟨rfl, rfl, rfl⟩ := runs_lift.mp ha
        rw [List.append_nil]
        rcases runs_inventory hi with ⟨inv', hk, rfl, he, rfl⟩ |
          ⟨hn, ⟨ls, inv', v, rfl, hl, he, rfl⟩ | ⟨_, _, _, _, he⟩⟩
        · cases he
          exact .known hpriv hdis hk
        · cases he
          exact .learned hpriv hdis hn hl
        · cases he

end Session

end FirmwareMailbox
