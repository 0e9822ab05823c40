/-
  FirmwareMailbox.Proofs.Simulation.Confinement — what a simulated machine keeps.

  An access to the mailbox of a device changes the mailbox and the firmware of the socket behind it, and
  nothing else (`State.Spares`). So an exchange spares what is not behind its device, and a session that
  knows its machine spares the sockets that its operations are not for. Whatever a session does, a
  register outside the mailbox stays what it is.
-/

import FirmwareMailbox.Proofs.Session.Confinement
import FirmwareMailbox.Proofs.Session.Moves
import FirmwareMailbox.Proofs.Simulation.Windows

namespace FirmwareMailbox

namespace Simulation

/-- From `m` to `m'`, sockets with none of these devices stay as they are, with their registers and their
    firmware, and no register outside a mailbox changes anywhere. -/
structure State.Spares (H : DeviceHandle → Prop) (m m' : State) : Prop where
  devices : m'.devices.map Device.wiring = m.devices.map Device.wiring
  count : m'.sockets.length = m.sockets.length
  registers : ∀ (i : Nat) (s s' : Socket), m.sockets[i]? = some s → m'.sockets[i]? = some s' →
    ∀ a, ¬ Socket.InMailbox a → s'.registers.get a = s.registers.get a
  sockets : ∀ i, (∀ h d, H h → m.devices[h]? = some d → d.socket ≠ i) → m'.sockets[i]? = m.sockets[i]?

namespace State

variable {H K : DeviceHandle → Prop} {m m' m'' : State} {h : DeviceHandle} {d : Device}

/-- Other devices, but wired the same, and the same sockets. -/
theorem Spares.of_sockets (hd : m'.devices.map Device.wiring = m.devices.map Device.wiring)
    (hs : m'.sockets = m.sockets) : m.Spares H m' where
  devices := hd
  count := by rw [hs]
  registers i s s' h h' a _ := by
    rw [hs, h] at h'
    cases h'
    rfl
  sockets i _ := by rw [hs]

theorem Spares.refl (m : State) : m.Spares H m := .of_sockets rfl rfl

/-- The devices with a socket are the same before and after. -/
theorem Spares.device (h : m.Spares H m') {g : DeviceHandle} {x : Device} (hx : m'.devices[g]? = some x) :
    ∃ y, m.devices[g]? = some y ∧ y.socket = x.socket := by
  have hg : (m'.devices[g]?).map Device.wiring = (m.devices[g]?).map Device.wiring := by
    rw [← List.getElem?_map, ← List.getElem?_map, h.devices]
  rw [hx] at hg
  obtain ⟨y, hy, he⟩ := Option.map_eq_some_iff.mp hg.symm
  exact ⟨y, hy, (Prod.mk.inj he).1⟩

theorem Spares.trans (h : m.Spares H m') (h' : m'.Spares H m'') : m.Spares H m'' where
  devices := h'.devices.trans h.devices
  count := h'.count.trans h.count
  registers i s s'' hs hs'' a ha := by
    have hi : i < m'.sockets.length := by
      rw [h.count]
      exact (List.getElem?_eq_some_iff.mp hs).1
    have hs' := List.getElem?_eq_getElem hi
    exact (h'.registers i _ s'' hs' hs'' a ha).trans (h.registers i s _ hs hs' a ha)
  sockets i hi := by
    refine (h'.sockets i fun g x hg hx => ?_).trans (h.sockets i hi)
    obtain ⟨y, hy, hsock⟩ := h.device hx
    rw [← hsock]
    exact hi g y hg hy

theorem Spares.mono (h : m.Spares H m') (hK : ∀ g, H g → K g) : m.Spares K m' :=
  { h with sockets := fun i hi => h.sockets i fun g x hg => hi g x (hK g hg) }

theorem Idle.spares (h : m.Idle m') : m.Spares H m' := .of_sockets h.devices h.sockets

/-- Another state of the socket behind a device, with the same registers outside the mailbox. -/
theorem Spares.socket (hd : m.devices[h]? = some d) {s s' : Socket} (hs : m.sockets[d.socket]? = some s)
    (hr : ∀ a, ¬ Socket.InMailbox a → s'.registers.get a = s.registers.get a) :
    m.Spares (· = h) { m with sockets := m.sockets.set d.socket s' } where
  devices := rfl
  count := List.length_set
  registers i x x' hx hx' a ha := by
    change (m.sockets.set d.socket s')[i]? = some x' at hx'
    by_cases hi : d.socket = i
    · subst hi
      rw [List.getElem?_set_self (List.getElem?_eq_some_iff.mp hs).1] at hx'
      rw [hs] at hx
      cases hx
      cases hx'
      exact hr a ha
    · rw [List.getElem?_set_ne hi, hx] at hx'
      cases hx'
      rfl
  sockets i hi := List.getElem?_set_ne (hi h d rfl hd)

end State

variable {m : State} {h : DeviceHandle}

/-! ## Accesses to a mailbox -/

theorem spares_write_hsmpIndex (m : State) (h : DeviceHandle) (v : UInt32) :
    m.Spares (· = h) (m.write h Register.hsmpIndex v).2 := by
  rw [write_hsmpIndex]
  refine through_keeps (P := fun m' => m.Spares (· = h) m') (.refl m) fun d hd => ?_
  exact .of_sockets (State.map_wiring_set { d with hsmpIndex := v } hd rfl) rfl

theorem spares_read_hsmpData (m : State) (h : DeviceHandle) :
    m.Spares (· = h) (m.read h Register.hsmpData).2 := by
  rw [read_hsmpData]
  refine through_keeps (P := fun m' => m.Spares (· = h) m') (.refl m) fun d hd => ?_
  unfold State.readRegister
  split
  · exact .refl m
  · rename_i s hs
    refine .socket hd hs fun a _ => ?_
    unfold Socket.read
    split <;> rfl

theorem spares_write_hsmpData {msg : Message} {x v : UInt32} (hx : msg.Stores x v)
    (hi : ∀ d, m.devices[h]? = some d → d.hsmpIndex = x) :
    m.Spares (· = h) (m.write h Register.hsmpData v).2 := by
  rw [write_hsmpData]
  refine through_keeps (P := fun m' => m.Spares (· = h) m') (.refl m) fun d hd => ?_
  unfold State.writeRegister
  split
  · exact .refl m
  · rename_i s hs
    rw [hi d hd]
    exact .socket hd hs fun a ha => write_other hx s ha

/-- From one world to another, as `State.Spares`. -/
def Sparing (H : DeviceHandle → Prop) (w : World State) (_ : List Event) (w' : World State) : Prop :=
  w.machine.Spares H w'.machine

namespace Sparing

variable {α : Type} {H K : DeviceHandle → Prop}

theorem composes (H : DeviceHandle → Prop) : World.Composes (Sparing H) :=
  ⟨fun w => .refl w.machine, fun h h' => State.Spares.trans h h'⟩

theorem mono {p : Program α} (h : World.Conducts machine (Sparing H) p) (hK : ∀ g, H g → K g) :
    World.Conducts machine (Sparing K) p :=
  fun w => State.Spares.mono (h w) hK

theorem exchange (c : Config) (d : DeviceHandle) (msg : Message) (highest : Option MessageId) :
    World.Conducts machine (Sparing (· = d)) (msg.exchange c d highest).run := by
  have hT := composes (· = d)
  refine (World.Conducts.closed hT).exchange (fun q _ ha w => ?_) (fun _ x _ => ?_) (fun x v hx => ?_)
    c highest
  · cases q <;> first | exact State.Spares.of_sockets rfl rfl | cases ha
  · refine World.Conducts.job_bind hT (fun w => ?_) fun _ w => ?_
    · exact spares_write_hsmpIndex w.machine d x
    · exact spares_read_hsmpData w.machine d
  · refine .of_runs fun w es r w' hrun => ?_
    rcases World.runs_bind.mp hrun with ⟨e, -, hi⟩ | ⟨fs, gs, _, u, -, hi, hw⟩
    · obtain ⟨-, rfl⟩ := Prod.mk.inj hi.run
      exact spares_write_hsmpIndex w.machine d x
    · obtain ⟨hok, rfl⟩ := Prod.mk.inj hi.run
      obtain ⟨-, rfl⟩ := Prod.mk.inj hw.run
      refine (spares_write_hsmpIndex w.machine d x).trans (spares_write_hsmpData hx fun d' hd' => ?_)
      exact hsmpIndex_of_write hok hd'

/-! ## Sessions -/

/-- Whatever it takes to pass the gate, the machine is looked at, and messages are exchanged. -/
theorem gate (s : Session) (m? : Option MessageId) :
    World.Conducts machine (Sparing fun _ => True) (s.gate m?).run := by
  have hC := World.Conducts.closed (M := machine) (composes fun _ => True)
  refine hC.gate (fun q hq w => ?_) (fun devices w => ?_) s (fun d msg _ => ?_) m?
  · cases q <;> first | exact State.Spares.of_sockets rfl rfl | cases hq
  · exact (conducts_ofDevices devices w).1.spares
  · exact mono (exchange _ _ _ _) fun _ _ => trivial

/-- No step changes a register outside a mailbox. -/
theorem step (s : Session) (st : Step) : World.Conducts machine (Sparing fun _ => True) (st.perform s).run := by
  have hC := World.Conducts.closed (M := machine) (composes fun _ => True)
  by_cases hst : st = .forget
  · subst hst
    exact fun w => .refl w.machine
  · exact hC.assembled (gate s) (fun d msg highest _ => mono (exchange _ _ _ _) fun _ _ => trivial)
      (st.assembled s hst)

end Sparing

end Simulation

/-- The devices with the mailboxes of these sockets. -/
def Topology.Mailboxes (t : Topology) (ns : List Nat) (h : DeviceHandle) : Prop :=
  ∃ n ∈ ns, ∃ tile, t.tiles[4 * n]? = some tile ∧ tile.handle = h

namespace Simulation

namespace Sparing

variable {s : Session} {inv : Inventory} {w w' : World State} {es : List Event}

theorem exchange_mailbox {ns : List Nat} {n : Nat} (hn : n ∈ ns) {tile : Tile}
    (ht : inv.topology.mailboxTile n = .ok tile) (c : Config) (msg : Message) (highest : Option MessageId) :
    World.Conducts machine (Sparing (inv.topology.Mailboxes ns)) (msg.exchange c tile.handle highest).run := by
  refine mono (exchange _ _ _ _) fun g hg => ?_
  subst hg
  exact ⟨n, hn, tile, Topology.tile_of_mailboxTile ht, rfl⟩

/-- Behind a gate that knows the machine there is only the job that it guards. -/
theorem of_gate {α : Type} {H : DeviceHandle → Prop} {m? : Option MessageId} {f : Inventory → Job α}
    (hi : w.memory.inventory = some inv) (hf : World.Conducts machine (Sparing H) (f inv).run)
    {r : Except Error α} (h : World.Runs machine (s.gate m? >>= f) w es r w') :
    w.machine.Spares H w'.machine := by
  rcases World.runs_bind.mp h with ⟨e, -, hg⟩ | ⟨gs, fs, inv', u, rfl, hg, hrest⟩
  · rw [(World.runs_gate_asks hi hg).1]
    exact .refl w.machine
  · obtain ⟨rfl, -, hknown⟩ := World.runs_gate_asks hi hg
    obtain rfl := hknown inv' rfl
    have hspares := hf.runs hrest
    exact hspares

/-- A step in a process that knows its machine spares all but the sockets it is for. -/
theorem known_step (hi : w.memory.inventory = some inv) (st : Step) {r : Except Error Answer}
    (h : World.Runs machine (st.perform s) w es r w') :
    w.machine.Spares (inv.topology.Mailboxes (st.sockets inv)) w'.machine := by
  match st with
  | .operation op =>
    change World.Runs machine (op.perform s) w es r w' at h
    rcases World.runs_perform h with ⟨-, -, -, -, rfl⟩ | ⟨e, rfl, hg⟩ | ⟨gs, fs, inv', u, rfl, hg, -, hrest⟩
    · exact .refl w'.machine
    · rw [(World.runs_gate_asks hi hg).1]
      exact .refl w.machine
    · obtain ⟨rfl, -, hknown⟩ := World.runs_gate_asks hi hg
      obtain rfl := hknown inv' rfl
      obtain ⟨qs, ks, rfl, -, ⟨-, rfl, -⟩ | herrand⟩ := World.runs_rest hi hrest
      · exact .refl w'.machine
      · have hspares := ((World.Conducts.closed (composes (inv'.topology.Mailboxes (op.sockets inv')))).errand
          s inv' op fun n hn tile ht msg _ => exchange_mailbox hn ht _ _ _).runs herrand
        exact hspares
  | .gate m? =>
    change World.Runs machine ((fun _ => Answer.nothing) <$> s.gate m?) w es r w' at h
    rw [map_eq_pure_bind] at h
    exact of_gate hi (.done (composes _) _) h
  | .exchange n msg =>
    change World.Runs machine (Answer.words <$> s.exchange n msg) w es r w' at h
    rw [map_eq_pure_bind, Session.exchange, bind_assoc] at h
    have hT := composes (inv.topology.Mailboxes [n])
    refine of_gate hi (.job_bind hT ?_ fun words => .done hT _) h
    exact (World.Conducts.closed hT).lift_bind fun tile ht =>
      exchange_mailbox (List.mem_singleton_self n) ht _ _ _
  | .forget =>
    change World.Runs machine ((fun _ => Answer.nothing) <$> s.forget) w es r w' at h
    obtain ⟨-, rfl⟩ := Prod.mk.inj h.run
    exact .refl w.machine

/-- So does a run of steps that forgets nothing. -/
theorem known_steps {sts : List Step} (hsts : ∀ st ∈ sts, st ≠ .forget) {ns : List Nat}
    (hns : ∀ st ∈ sts, ∀ n ∈ st.sockets inv, n ∈ ns) {w : World State} (hi : w.memory.inventory = some inv) :
    w.machine.Spares (inv.topology.Mailboxes ns) (World.after machine (sts.map (.step s)) w).machine := by
  induction sts generalizing w with
  | nil => exact .refl w.machine
  | cons st sts ih =>
    obtain ⟨hst, hsts⟩ := List.forall_mem_cons.mp hsts
    obtain ⟨hn, hns⟩ := List.forall_mem_cons.mp hns
    have hone := known_step hi st (World.runs machine (st.perform s) w)
    have hkept := (World.inTurn_steps machine s (List.forall_mem_singleton.mpr hst) hi).2
    refine (hone.mono fun g hg => ?_).trans (ih hsts hns hkept)
    obtain ⟨n, hmem, htile⟩ := hg
    exact ⟨n, hn n hmem, htile⟩

end Sparing

/-- Discovery looks once at each device, through the window for the bus numbers, and writes no register.
    All that comes after it goes to the mailboxes of the sockets that the step is for, and that is so over
    whole runs, by the table that the process knows. So on a simulated machine no register outside a
    mailbox ever changes, and nothing at all of a socket that no step was for. -/
theorem accesses_stay_confined (s : Session) :
    (∀ {μ : Type} (M : Machine μ) (st : Step), st ≠ .forget → ∀ w : World μ,
      Confined (M.devices w.machine).1 st.sockets w.memory.inventory
        ((World.transcript M (st.perform s) w).filter Event.isAccess)
        (World.run M (st.perform s) w).2.memory.inventory) ∧
    (∀ {μ : Type} (M : Machine μ) (sts : List Step), (∀ st ∈ sts, st ≠ .forget) → ∀ (w : World μ) inv,
      w.memory.inventory = some inv → inv.topology.InTurn (sts.flatMap (·.sockets inv))
        ((World.trace M (sts.map (.step s)) w).filter Event.isAccess)) ∧
    (∀ (sts : List Step) (w : World State),
      w.machine.Spares (fun _ => True) (World.after machine (sts.map (.step s)) w).machine) ∧
    ∀ sts : List Step, (∀ st ∈ sts, st ≠ .forget) → ∀ (w : World State) inv, w.memory.inventory = some inv →
      w.machine.Spares (inv.topology.Mailboxes (sts.flatMap (·.sockets inv)))
        (World.after machine (sts.map (.step s)) w).machine := by
  refine ⟨fun M st hst w => World.confined_step M s hst w, fun M sts hsts w inv hi =>
    (World.inTurn_steps M s hsts hi).1, fun sts => ?_, fun sts hsts w inv hi =>
    Sparing.known_steps hsts (fun st hst n hn => List.mem_flatMap.mpr ⟨st, hst, hn⟩) hi⟩
  induction sts with
  | nil => exact fun w => .refl w.machine
  | cons st sts ih => exact fun w => (Sparing.step s st w).trans (ih _)

/-- The dated process asks socket 0 for its power: it goes through device 1, and socket 1 is spared. -/
theorem dated_spares_other_socket :
    let s : Session := ⟨config⟩
    let st : Step := .operation (.socketPower 0)
    let w := World.after machine [.step s st] World.dated
    (∀ x ∈ (World.transcript machine (st.perform s) World.dated).filter Event.isAccess,
      x.request.ToMailbox 1) ∧
      w.machine.sockets[1]? = World.dated.machine.sockets[1]? := by
  intro s st w
  obtain ⟨-, hturn, -, hspares⟩ := accesses_stay_confined s
  have ht := hturn machine [st] (by decide) World.dated _ rfl
  have hs := hspares [st] (by decide) World.dated _ rfl
  refine ⟨?_, hs.sockets 1 ?_⟩
  · intro x hx
    obtain ⟨n, hn, tile, htile, hto⟩ := ht.goes (by simpa [World.trace, Move.events] using hx)
    obtain rfl : n = 0 := by simpa [st, Step.sockets, Operation.sockets] using hn
    cases htile
    exact hto
  · rintro h d ⟨n, hn, tile, htile, rfl⟩ hd
    obtain rfl : n = 0 := by simpa [st, Step.sockets, Operation.sockets] using hn
    cases htile
    cases hd
    decide

end Simulation

end FirmwareMailbox
