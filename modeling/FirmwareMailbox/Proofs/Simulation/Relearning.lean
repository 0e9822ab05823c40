/-
  FirmwareMailbox.Proofs.Simulation.Relearning — forgetting makes no difference.

  No message changes what a probe asks for, so a machine that was learned once, and then was the
  process's alone, can be learned again with the same result whatever was sent to it since
  (`State.Taught`). So a process that forgets learns what it forgot. Learning changes nothing but records and
  mailboxes, and of these no later message tells: a process that has just forgotten, one that has learned
  anew and one that never forgot go on the same way (`Level`). This holds of the gate and of every exchange
  with a mailbox, so it holds of every operation (`Level.perform`) and of operations one after the other.
-/

import FirmwareMailbox.Proofs.Session.Knowing
import FirmwareMailbox.Proofs.Session.Moves
import FirmwareMailbox.Proofs.Simulation.Agreement
import FirmwareMailbox.Proofs.Simulation.Probing

namespace FirmwareMailbox

/-- The process forgets what it learned. -/
def World.forgot {μ : Type} (w : World μ) : World μ := { w with memory := { w.memory with inventory := none } }

/-- To forget again makes no difference. -/
theorem World.after_forget {μ : Type} (M : Machine μ) (s : Session) (k : Nat) (w : World μ) :
    World.after M (List.replicate (k + 1) (.step s .forget)) w = w.forgot := by
  induction k generalizing w with
  | zero => rfl
  | succ k ih => exact ih w.forgot

namespace Simulation

variable {s : Session} {inv : Inventory} {m m' : State} {w w' : World State} {es : List Event}

/-- The session learned this from the machine, or from one with the same core, and may learn again. -/
structure State.Taught (s : Session) (inv : Inventory) (m : State) : Prop where
  learned : ∃ v es u, World.Runs machine s.learn v es (.ok inv) u ∧ v.machine.Kin Firmware.core m
  lock : Lockable s.config m
  privileged : m.privileged = true

namespace State.Taught

theorem kin (h : m.Taught s inv) (hl : Lockable s.config m') (hk : m.Kin Firmware.core m') : m'.Taught s inv := by
  obtain ⟨v, es, u, hlearn, hv⟩ := h.learned
  exact ⟨⟨v, es, u, hlearn, hv.trans hk⟩, hl, hk.privileged.symm.trans h.privileged⟩

theorem keeping (h : w.machine.Taught s inv) (hk : Keeping Firmware.core s.config w es w') :
    w'.machine.Taught s inv := h.kin (hk h.lock).1 (hk h.lock).2

theorem honest (h : m.Taught s inv) : m.Honest inv.topology.HasMailbox := by
  obtain ⟨v, es, u, hlearn, hv⟩ := h.learned
  exact hv.honest Firmware.core_view (Reached.of_learn hlearn).honest

theorem relearn (h : w.machine.Taught s inv) (hd : w.memory.disabled = false) :
    ∃ es w', World.Runs machine s.learn w es (.ok inv) w' ∧ w'.memory.disabled = false ∧
      w'.machine.Taught s inv ∧ w.machine.Kin Firmware.unrecorded w'.machine := by
  obtain ⟨v, es, u, hlearn, hv⟩ := h.learned
  obtain ⟨fs, w', hw', hd', hl', hk'⟩ := Simulation.relearn hlearn hv h.lock hd
  exact ⟨fs, w', hw', hd', h.kin hl' hk'.core, hk'⟩

theorem of_learn (h : World.Runs machine s.learn w es (.ok inv) w') (hp : w.machine.privileged = true) :
    w'.machine.Taught s inv := by
  have hreached := Reached.of_learn h
  have hw : w.machine.Taught s inv := ⟨⟨w, es, w', h, .refl _⟩, hreached.lock, hp⟩
  obtain ⟨fs, u, hu, -, ht, -⟩ := hw.relearn hreached.before
  cases h.run.symm.trans hu.run
  exact ht

end State.Taught

/-! ## A process that may forget -/

/-- The process remembers nothing but what it would learn. -/
structure Versed (s : Session) (inv : Inventory) (w : World State) : Prop where
  taught : w.machine.Taught s inv
  memory : ∀ inv', w.memory.inventory = some inv' → inv' = inv

/-- The gate hands out the same inventory whether it is remembered or learned again. If it is learned, it is
    published. -/
theorem Versed.gate (hw : Versed s inv w) (hd : w.memory.disabled = false) (m? : Option MessageId) :
    ∃ es u, World.Runs machine (s.gate m?) w es (Session.letPass m? inv) u ∧ Versed s inv u ∧
      u.memory.inventory = some inv ∧ u.memory.disabled = false ∧
      w.machine.Kin Firmware.unrecorded u.machine ∧
      (w.memory.inventory = none → ∃ fs, es = fs ++ [⟨.publish inv, ()⟩]) := by
  have hrun := World.runs machine (s.gate m?) w
  generalize World.transcript machine (s.gate m?) w = es at hrun
  generalize (World.run machine (s.gate m?) w).1 = r, (World.run machine (s.gate m?) w).2 = u at hrun
  -- what learning would end in, should it come to that
  obtain ⟨ls, v, hlearn, hdv, htaught, hkin⟩ := hw.taught.relearn hd
  cases Session.runs_gate hrun with
  | denied hp => cases hp.symm.trans hw.taught.privileged
  | disabled _ hgone => cases hgone.symm.trans hd
  | known _ _ hi =>
    obtain rfl := hw.memory _ hi
    exact ⟨_, _, hrun, hw, hi, hd, .refl _, fun hn => by cases hn.symm.trans hi⟩
  | @learned fs _ _ _ _ hn hl =>
    cases hl.run.symm.trans hlearn.run
    exact ⟨_, _, hrun, ⟨htaught, fun _ hi => (Option.some.inj hi).symm⟩, rfl, hdv, hkin,
      fun _ => ⟨_, (List.append_assoc _ fs _).symm⟩⟩
  | failed _ _ _ hl => cases hl.run.symm.trans hlearn.run

theorem Versed.gate_disabled (hw : Versed s inv w) (hd : w.memory.disabled = true) (m? : Option MessageId) :
    World.run machine (s.gate m?) w = (.error (.unsupported .disabled), w) := by
  have hrun := World.runs machine (s.gate m?) w
  rcases hr : World.run machine (s.gate m?) w with ⟨r, u⟩
  rw [hr] at hrun
  generalize World.transcript machine (s.gate m?) w = es at hrun
  cases Session.runs_gate hrun with
  | denied hp => cases hp.symm.trans hw.taught.privileged
  | disabled => rfl
  | known _ hd' => cases hd'.symm.trans hd
  | learned _ hd' => cases hd'.symm.trans hd
  | failed _ hd' => cases hd'.symm.trans hd

/-- Two processes that both have given up or neither, and remember nothing but what they would learn, on
    machines that only mailboxes and records tell apart. -/
structure Level (s : Session) (inv : Inventory) (w w' : World State) : Prop where
  left : Versed s inv w
  right : Versed s inv w'
  kin : w.machine.Kin Firmware.unrecorded w'.machine
  disabled : w.memory.disabled = w'.memory.disabled

namespace Level

theorem exchange {n : Nat} {tile : Tile} (ht : inv.topology.mailboxTile n = .ok tile) {msg : Message}
    (hm : msg.Fits) (highest : Option MessageId) :
    World.Parallel machine (Level s inv) (msg.exchange s.config tile.handle highest).run := by
  refine .of_runs fun w w' h => ?_
  have hpaired : Paired Firmware.unrecorded inv.topology.HasMailbox s.config w w' :=
    ⟨h.kin, ⟨h.left.taught.lock, h.right.taught.lock⟩, h.left.taught.honest, h.disabled⟩
  -- the message may change settings, so it is the core that shows that nothing has to be learned anew
  have hversed : ∀ {v}, Versed s inv v → Versed s inv (World.run machine (msg.exchange s.config tile.handle
      highest) v).2 := by
    intro v hv
    have hrun := World.runs machine (msg.exchange s.config tile.handle highest) v
    refine ⟨hv.taught.keeping ((Keeping.exchange Firmware.core_view _ hm (Firmware.core_hides _) _).runs hrun),
      ?_⟩
    rw [(World.inventory_exchange _ _ _ _).runs hrun]
    exact hv.memory
  obtain ⟨u', hu', hu⟩ := (Concurs.exchange Firmware.unrecorded_view ⟨n, tile, ht, rfl⟩ hm
    (Firmware.unrecorded_shows msg.id) highest).runs (World.runs machine _ w) hpaired
  refine ⟨_, _, u', rfl, hu'.run, hversed h.left, ?_, hu.machine, hu.disabled⟩
  have hright := hversed h.right
  rwa [hu'.run] at hright

variable {α : Type}

theorem gate_bind {f : Inventory → Job α} (hf : World.Parallel machine (Level s inv) (f inv).run)
    (m? : Option MessageId) : World.Parallel machine (Level s inv) (s.gate m? >>= f).run := by
  refine World.Parallel.of_runs fun w w' h => ?_
  cases hd : w.memory.disabled with
  | true =>
    have hd' : w'.memory.disabled = true := h.disabled.symm.trans hd
    exact ⟨_, w, w', World.run_bind_error (h.left.gate_disabled hd m?),
      World.run_bind_error (h.right.gate_disabled hd' m?), h⟩
  | false =>
    have hd' : w'.memory.disabled = false := h.disabled.symm.trans hd
    obtain ⟨es, u, hu, hversed, -, hdu, hk, -⟩ := h.left.gate hd m?
    obtain ⟨es', u', hu', hversed', -, hdu', hk', -⟩ := h.right.gate hd' m?
    have hlevel : Level s inv u u' :=
      ⟨hversed, hversed', (hk.symm.trans h.kin).trans hk', hdu.trans hdu'.symm⟩
    cases hpass : Session.letPass m? inv with
    | error e =>
      rw [hpass] at hu hu'
      exact ⟨_, u, u', World.run_bind_error hu.run, World.run_bind_error hu'.run, hlevel⟩
    | ok inv' =>
      obtain rfl := Session.letPass_eq_ok hpass
      rw [hpass] at hu hu'
      obtain ⟨v', hv', hv⟩ := hf.runs (World.runs machine (f inv') u) hlevel
      exact ⟨_, _, v', World.run_bind_ok hu.run, (World.run_bind_ok hu'.run).trans hv'.run, hv⟩

theorem errand (op : Operation) :
    World.Parallel machine (Level s inv) (liftM (op.errand inv) >>= fun e => e.perform s inv).run :=
  World.Parallel.closed.errand s inv op fun _ _ _ ht _ hm => exchange ht hm _

/-- An operation goes the same way if what it does behind the gate does. -/
theorem perform_of_rest {op : Operation} (h : World.Parallel machine (Level s inv) (op.rest s inv).run) :
    World.Parallel machine (Level s inv) (op.perform s).run := by
  cases hd : op.disorder? with
  | some cause =>
    rw [Operation.perform_disorder s hd]
    exact World.Parallel.closed.done _
  | none =>
    rw [Operation.perform_gate s hd]
    exact gate_bind h op.asks

theorem rest (op : Operation) : World.Parallel machine (Level s inv) (op.rest s inv).run := by
  by_cases ha : op = .setLinkWidthAuto
  · subst ha
    -- it passes the gate once more, for an operation that does not
    change World.Parallel machine (Level s inv) ((Operation.setLinkWidth _ .x16).perform s).run
    refine perform_of_rest ?_
    rw [Operation.rest_eq s inv (by simp)]
    exact errand _
  · rw [Operation.rest_eq s inv ha]
    exact errand op

theorem perform (op : Operation) : World.Parallel machine (Level s inv) (op.perform s).run :=
  perform_of_rest (rest op)

theorem performAll (ops : List Operation) (h : Level s inv w w') :
    (World.performAll machine s ops w).1 = (World.performAll machine s ops w').1 := by
  induction ops generalizing w w' with
  | nil => rfl
  | cons op ops ih =>
    obtain ⟨hr, hlevel⟩ := perform op w w' h
    exact congrArg₂ List.cons hr (ih hlevel)

end Level

/-! ## What the process did before -/

/-- Whatever the process remembers, it may learn again. -/
def Acquainted (s : Session) (w : World State) : Prop :=
  ∀ inv, w.memory.inventory = some inv → w.machine.Taught s inv

namespace Acquainted

/-- The process stays acquainted with the machine. -/
def Stays (s : Session) (w : World State) (_ : List Event) (w' : World State) : Prop :=
  Acquainted s w → Acquainted s w'

theorem composes : World.Composes (Stays s) := ⟨fun _ h => h, fun h h' hw => h' (h hw)⟩

theorem gate (m? : Option MessageId) : World.Conducts machine (Stays s) (s.gate m?).run := by
  refine .of_runs fun w es r w' h hw => ?_
  cases Session.runs_gate h with
  | denied => exact hw
  | disabled => exact hw
  | known => exact hw
  | learned hp _ _ hl =>
    intro inv hi
    obtain rfl := Option.some.inj hi
    exact (State.Taught.of_learn hl hp :)
  | failed _ _ hn hl =>
    intro inv hi
    rw [World.inventory_learn hl, hn] at hi
    cases hi

theorem exchange (d : DeviceHandle) {msg : Message} (hm : msg.Fits) (highest : Option MessageId) :
    World.Conducts machine (Stays s) (msg.exchange s.config d highest).run := by
  refine .of_runs fun w es r w' h hw inv hi => ?_
  rw [(World.inventory_exchange _ _ _ _).runs h] at hi
  exact (hw inv hi).keeping ((Keeping.exchange Firmware.core_view d hm (Firmware.core_hides _) highest).runs h)

theorem step {st : Step} (hst : ∀ n msg, st ≠ .exchange n msg) (hw : Acquainted s w) :
    Acquainted s (World.run machine (st.perform s) w).2 := by
  have hclosed := World.Conducts.closed (M := machine) (composes (s := s))
  have hmade : ∀ {j : Job Answer}, Assembled s Message.Fits j → Acquainted s (World.run machine j w).2 :=
    fun hj => hclosed.assembled gate (fun d _ highest hm => exchange d hm highest) hj w hw
  cases st with
  | operation op => exact hmade (op.assembled s)
  | gate m? => exact hmade (.map _ (.gate m?))
  | exchange n msg => exact absurd rfl (hst n msg)
  | forget =>
    intro inv hi
    cases hi

/-- By induction on the steps. -/
theorem after {steps : List Step} (hsteps : ∀ st ∈ steps, ∀ n msg, st ≠ .exchange n msg) (hw : Acquainted s w) :
    Acquainted s (World.after machine (steps.map (.step s)) w) := by
  induction steps generalizing w with
  | nil => exact hw
  | cons st steps ih =>
    exact ih (fun st' h' => hsteps st' (List.mem_cons_of_mem _ h')) (step (hsteps st List.mem_cons_self) hw)

end Acquainted

/-- A process learned a machine and did operations, whatever came of them, and did not give up. If it then
    forgets, once or more often, the gate opens on the same inventory again and publishes it; and whether it
    passed the gate before them or not, further operations end as if it had not forgotten. -/
theorem forgetting_tells_nothing (s : Session) {w₀ : World State} (hnew : w₀.memory.inventory = none)
    {steps : List Step} (hsteps : ∀ st ∈ steps, ∀ n msg, st ≠ .exchange n msg) {inv : Inventory}
    (hi : (World.after machine (steps.map (.step s)) w₀).memory.inventory = some inv)
    (hd : (World.after machine (steps.map (.step s)) w₀).memory.disabled = false) (k : Nat) :
    let w := World.after machine (steps.map (.step s)) w₀
    let v := World.after machine (List.replicate (k + 1) (.step s .forget)) w
    v.memory.inventory = none ∧ ∃ es u,
      World.Runs machine (s.gate none) v (es ++ [⟨.publish inv, ()⟩]) (.ok inv) u ∧
      u.memory.inventory = some inv ∧ u.memory.disabled = false ∧ ∀ ops,
        (World.performAll machine s ops v).1 = (World.performAll machine s ops w).1 ∧
        (World.performAll machine s ops u).1 = (World.performAll machine s ops w).1 := by
  intro w v
  have htaught : w.machine.Taught s inv :=
    Acquainted.after hsteps (fun inv' h' => by cases hnew.symm.trans h') inv hi
  have hv : v = w.forgot := World.after_forget machine s k w
  have hversed : Versed s inv w := ⟨htaught, fun _ h' => Option.some.inj (h'.symm.trans hi)⟩
  have hforgot : Versed s inv v := by
    rw [hv]
    exact ⟨htaught, fun _ h' => by cases h'⟩
  have hnone : v.memory.inventory = none := by rw [hv]; rfl
  have hdv : v.memory.disabled = false := by rw [hv]; exact hd
  have hkin : v.machine.Kin Firmware.unrecorded w.machine := by
    rw [hv]
    exact .refl _
  obtain ⟨es, u, hrun, hu, hiu, hdu, hkinu, hpublished⟩ := hforgot.gate hdv none
  obtain ⟨fs, rfl⟩ := hpublished hnone
  refine ⟨hnone, fs, u, hrun, hiu, hdu, fun ops => ⟨?_, ?_⟩⟩
  · exact Level.performAll ops ⟨hforgot, hversed, hkin, hdv.trans hd.symm⟩
  · exact Level.performAll ops ⟨hu, hversed, hkinu.symm.trans hkin, hdu.trans hd.symm⟩

theorem sound_learned_again :
    let s : Session := ⟨config⟩
    let steps : List Step := [.operation (.setSocketBoost 0 1500), .operation (.procHot 9), .gate none]
    let w := World.after machine (steps.map (.step s)) ⟨sound, {}⟩
    ∃ inv, w.memory.inventory = some inv ∧ w.memory.disabled = false ∧ ∃ es u,
      World.Runs machine (s.gate none) (World.after machine (List.replicate 2 (.step s .forget)) w)
        (es ++ [⟨.publish inv, ()⟩]) (.ok inv) u := by
  intro s steps
  obtain ⟨firmware, hdoor⟩ := sound_healthy.door (s := s) rfl
  have hd : sound_healthy.site.Describes s ⟨sound.processor, Topology.crossedTable, sound.cpus, ⟨firmware, 3⟩⟩ :=
    ⟨rfl, rfl, rfl, rfl⟩
  obtain ⟨_, w₁, h₁, -, hdoor₁⟩ := Site.opens_perform hd (.setSocketBoost 0 1500) _ hdoor
  obtain ⟨_, w₂, h₂, -, hdoor₂⟩ := Site.opens_perform hd (.procHot 9) _ hdoor₁
  obtain ⟨m', mem', hgate, hknows, -⟩ := hdoor₂ none
  have hw : World.after machine (steps.map (.step s)) ⟨sound, {}⟩ = ⟨m', mem'⟩ := by
    show (World.run machine (Step.perform s (.gate none)) (World.run machine (Operation.perform s (.procHot 9))
      (World.run machine (Operation.perform s (.setSocketBoost 0 1500)) ⟨sound, {}⟩).2).2).2 = _
    rw [h₁, h₂, Step.perform, map_eq_pure_bind, World.run_bind_ok hgate]
    rfl
  have hsteps : ∀ st ∈ steps, ∀ n msg, st ≠ .exchange n msg := by simp [steps]
  have hi := (congrArg (·.memory.inventory) hw).trans hknows.inventory
  have hworking := (congrArg (·.memory.disabled) hw).trans hknows.working
  obtain ⟨-, es, u, hrun, -⟩ := forgetting_tells_nothing s rfl hsteps hi hworking 1
  exact ⟨_, hi, hworking, es, u, hrun⟩

end Simulation

end FirmwareMailbox
