/-
  FirmwareMailbox.Proofs.Session.Remembering — what a process remembers of the machine.

  The inventory comes into memory only whole and only from the gate: it is learned before it is
  published (`Learned`), and nothing but forgetting takes it out again. So what is remembered was
  true of the machine when it was learned (`Inventory.Sound`), and while it is remembered the gate
  asks the machine for nothing but the caller's privilege. A process that did not learn the machine
  and did not give up is as good as a new one.
-/

import FirmwareMailbox.Proofs.Session.Failure
import FirmwareMailbox.Proofs.Session.Moves
import FirmwareMailbox.Proofs.Topology.Numbering

namespace FirmwareMailbox

/-- A processor with a mailbox; tiles that share out the buses and are numbered from 0 to 3 in each
    socket; an interface version with messages. -/
structure Inventory.Sound (inv : Inventory) : Prop where
  processor : inv.processor.requireMailbox = .ok ()
  arranged : Topology.Arranged inv.topology.tiles
  hosts : ∀ bus, ∃ x, inv.topology.tiles.filter (·.covers bus) = [x]
  numbers : ∀ n < inv.topology.socketCount,
    ((inv.topology.tiles.filter (·.socket = n)).map (·.id)).Perm [0, 1, 2, 3]
  interface : 1 ≤ inv.capabilities.interfaceVersion.toNat
  used : inv.capabilities.usedVersion.toNat = min inv.capabilities.interfaceVersion.toNat 3
  highest : inv.capabilities.highestMessage.isSome = true

namespace Topology

/-- In a table that discovery ends in, the tiles of a socket have the numbers 0 to 3. -/
theorem numbers_of_yields {devices : List PciDevice} {es : List Event} {t : Topology}
    (h : Job.Yields (ofDevices devices) es (.ok t)) : Arranged t.tiles ∧
      ∀ n < t.socketCount, ((t.tiles.filter (·.socket = n)).map (·.id)).Perm [0, 1, 2, 3] := by
  obtain ⟨tiles, words, ids, ht, ha, -, hw⟩ := yields_ofDevices h
  have hA := arrange_arranged ht
  have hl : ids.length = tiles.length := by rw [ha.length_ids, List.length_map]
  have hA' := withIds_arranged hA hl
  rw [Topology.socketCount, hw]
  refine ⟨hA', fun n hn => perm_of_mem ?_ fun k hk => ?_⟩
  · rw [List.length_map]
    exact hA'.length_socket hn
  · obtain ⟨w, y, -, hy, hys, hyk, -⟩ := hA.reported ha (by rwa [length_withIds hl] at hn) hk
    exact hyk ▸ List.mem_map_of_mem (List.mem_filter.mpr ⟨hy, by simpa using hys⟩)

end Topology

namespace Capabilities

theorem usedVersion_toNat (c : Capabilities) :
    c.usedVersion.toNat = min c.interfaceVersion.toNat 3 := by
  unfold usedVersion
  split
  · rename_i h
    have := UInt32.le_iff_toNat_le.mp h
    have h3 : MessageId.highestVersion.toNat = 3 := rfl
    omega
  · rename_i h
    have := mt UInt32.le_iff_toNat_le.mpr h
    have h3 : MessageId.highestVersion.toNat = 3 := rfl
    omega

/-- Every version but 0 has messages. -/
theorem highestMessage_isSome {c : Capabilities} (h : c.interfaceVersion ≠ 0) :
    c.highestMessage.isSome = true := by
  have h0 : c.usedVersion ≠ 0 := by
    unfold usedVersion
    split
    · exact h
    · decide
  unfold highestMessage MessageId.highestOf
  rw [if_neg h0]
  repeat' split
  all_goals rfl

/-- A negotiation that succeeds reads the versions of the first socket, and there is an interface version. -/
theorem yields_negotiate {c : Config} {t : Topology} {es : List Event} {caps : Capabilities}
    (h : Job.Yields (negotiate c t) es (.ok caps)) : caps.interfaceVersion ≠ 0 ∧
      ∃ tile fs, t.mailboxTile 0 = .ok tile ∧ fs <:+: es ∧
        Job.Yields (readVersions c tile) fs (.ok (caps.firmware, caps.interfaceVersion)) := by
  unfold negotiate at h
  split at h
  · cases (Job.yields_throw.mp h).2
  rcases Job.yields_lift_bind.mp h with ⟨e, -, -, he⟩ | ⟨tile, htile, hfirst⟩
  · cases he
  obtain ⟨fs, _, _, rfl, -, hversions⟩ := Job.yields_bind_ok.mp hfirst
  obtain ⟨gs, hs, ⟨firmware, interface⟩, rfl, hread, hothers⟩ := Job.yields_bind_ok.mp hversions
  obtain ⟨_, _, _, -, -, hend⟩ := Job.yields_bind_ok.mp hothers
  dsimp only at hend
  split at hend
  · obtain ⟨_, _, _, -, hthrow, -⟩ := Job.yields_bind_ok.mp hend
    cases (Job.yields_throw.mp hthrow).2
  · rename_i h0
    cases (Job.yields_pure.mp hend).2
    exact ⟨h0, tile, gs, htile, ⟨fs, hs, by simp⟩, hread⟩

end Capabilities

namespace Session

/-- A survey that succeeds found a processor with a mailbox and a table of tiles. -/
theorem yields_survey {p : Processor} {t : Topology} {cpus : CpuTable} {es : List Event}
    (h : Job.Yields survey es (.ok (p, t, cpus))) : p.requireMailbox = .ok () ∧
      ∃ devices fs, Job.Yields (Topology.ofDevices devices) fs (.ok t) := by
  obtain ⟨p', fs, -, hs⟩ := Job.yields_ask_bind.mp h
  obtain ⟨_, _, _, -, hp, hscan⟩ := Job.yields_bind_ok.mp hs
  obtain ⟨_, _, devices, -, -, hdiscover⟩ := Job.yields_bind_ok.mp hscan
  obtain ⟨_, _, t', -, ht, hlist⟩ := Job.yields_bind_ok.mp hdiscover
  obtain ⟨_, _, cpus', -, -, hend⟩ := Job.yields_bind_ok.mp hlist
  cases (Job.yields_pure.mp hend).2
  exact ⟨(Job.yields_lift.mp hp).2.symm, devices, _, ht⟩

end Session

/-- Among the events, a session surveys the machine and then negotiates with its firmware; both
    succeed, and this is the inventory they make. -/
def Learned (es : List Event) (inv : Inventory) : Prop :=
  ∃ (s : Session) (ks ns : List Event), (ks ++ ns) <:+: es ∧
    Job.Yields Session.survey ks (.ok (inv.processor, inv.topology, inv.cpus)) ∧
    Job.Yields (Capabilities.negotiate s.config inv.topology) ns (.ok inv.capabilities)

namespace Learned

variable {es fs : List Event} {inv : Inventory}

theorem mono (h : Learned es inv) (hs : es <:+: fs) : Learned fs inv := by
  obtain ⟨s, ks, ns, hks, hy⟩ := h
  exact ⟨s, ks, ns, hks.trans hs, hy⟩

theorem sound (h : Learned es inv) : inv.Sound := by
  obtain ⟨s, ks, ns, -, hs, hn⟩ := h
  obtain ⟨hp, devices, fs, ht⟩ := Session.yields_survey hs
  obtain ⟨hA, hids⟩ := Topology.numbers_of_yields ht
  obtain ⟨h0, -⟩ := Capabilities.yields_negotiate hn
  refine ⟨hp, hA, fun b => hA.spans.filter_covers (Nat.zero_le _), hids, ?_, inv.capabilities.usedVersion_toNat,
    Capabilities.highestMessage_isSome h0⟩
  exact Nat.pos_of_ne_zero fun h => h0 (UInt32.toNat_inj.mp h)

end Learned

namespace World

variable {μ α : Type} {M : Machine μ} {s : Session} {w w' : World μ} {es : List Event}

/-- A process that does not forget keeps the inventory it has, and one that has none gets only one
    that it learned. -/
structure Remembers (w : World μ) (es : List Event) (w' : World μ) : Prop where
  keeps : ∀ inv, w.memory.inventory = some inv → w'.memory.inventory = some inv
  learned : w.memory.inventory = none → ∀ inv, w'.memory.inventory = some inv → Learned es inv

namespace Remembers

theorem of_eq (h : w'.memory.inventory = w.memory.inventory) : Remembers w es w' :=
  ⟨fun _ hi => h.trans hi, fun hn inv hi => by rw [h, hn] at hi; cases hi⟩

theorem composes : Composes (Remembers (μ := μ)) where
  refl w := .of_eq rfl
  trans {w es u fs v} h h' := by
    refine ⟨fun inv hi => h'.keeps inv (h.keeps inv hi), fun hn inv hi => ?_⟩
    cases hu : u.memory.inventory with
    | none => exact (h'.learned hu inv hi).mono (List.suffix_append es fs).isInfix
    | some inv' =>
      rw [h'.keeps inv' hu] at hi
      cases hi
      exact (h.learned hn _ hu).mono (List.prefix_append es fs).isInfix

theorem sound (h : Remembers w es w') (hw : ∀ inv, w.memory.inventory = some inv → inv.Sound) :
    ∀ inv, w'.memory.inventory = some inv → inv.Sound := by
  intro inv hi
  cases hn : w.memory.inventory with
  | none => exact (h.learned hn inv hi).sound
  | some inv' =>
    rw [h.keeps inv' hn] at hi
    cases hi
    exact hw _ hn

end Remembers

/-- An exchange leaves alone what the process remembers of the machine. -/
theorem inventory_exchange (c : Config) (d : DeviceHandle) (m : Message) (highest : Option MessageId) :
    Conducts M (fun w _ w' => w'.memory.inventory = w.memory.inventory) (m.exchange c d highest).run :=
  (Message.exchange_only d c m highest).conducts ⟨fun _ => rfl, fun h h' => h'.trans h⟩
    (fun q w hq => by cases q <;> first | rfl | cases hq)

/-- Learning writes nothing to the memory but that the process gave up. -/
theorem inventory_learn {r : Except Error Inventory} (h : Runs M s.learn w es r w') :
    w'.memory.inventory = w.memory.inventory := by
  rcases Session.runs_learn.mp h with ⟨e, -, hs⟩ | ⟨p, t, cpus, ks, u, ns, x, hs, hn, -, -⟩
  · rw [hs.memory Session.survey_only]
  obtain ⟨fs, v, hc, hend⟩ := Session.runs_negotiate.mp hn
  have hv : v.memory.inventory = w.memory.inventory :=
    (((Conducts.closed ⟨fun _ => rfl, fun h h' => h'.trans h⟩).negotiation s.config t
      fun _ _ _ _ _ _ => inventory_exchange _ _ _ _).runs hc).trans
        (congrArg Memory.inventory (hs.memory Session.survey_only))
  rcases hend with ⟨e, -, -, -, rfl⟩ | ⟨-, -, rfl⟩ <;> exact hv

/-- What learning ends in was learned. -/
theorem learned_of_runs {inv : Inventory} (h : Runs M s.learn w es (.ok inv) w') : Learned es inv := by
  obtain ⟨ks, ns, u, rfl, hs, hc⟩ := Session.runs_learn_ok.mp h
  exact ⟨s, ks, ns, List.infix_refl _, hs.yields, hc.yields⟩

theorem Remembers.gate (s : Session) (m? : Option MessageId) : Conducts M Remembers (s.gate m?).run := by
  refine Conducts.of_runs fun w es r w' h => ?_
  cases Session.runs_gate h with
  | denied => exact .of_eq rfl
  | disabled => exact .of_eq rfl
  | known => exact .of_eq rfl
  | failed _ _ _ hl => exact .of_eq (inventory_learn hl)
  | @learned fs inv u _ _ hn hl =>
    refine ⟨fun _ hi => (by rw [hn] at hi; cases hi), fun _ inv' hi => ?_⟩
    cases hi
    exact (learned_of_runs hl).mono (by rw [← List.append_assoc]; exact List.infix_append _ fs _)

theorem Remembers.move {m : Move μ} (hm : ∀ s, m ≠ .step s .forget) (w : World μ) :
    Remembers w (m.events M w) (m.world M w) :=
  composes.move gate (fun c d m highest w => .of_eq (inventory_exchange c d m highest w))
    (fun _ => .of_eq rfl) (fun _ _ => .of_eq rfl) hm w

/-- What is remembered stays sound, whatever happens. -/
theorem sound_moves (moves : List (Move μ)) (w : World μ)
    (hw : ∀ inv, w.memory.inventory = some inv → inv.Sound) :
    ∀ inv, (after M moves w).memory.inventory = some inv → inv.Sound := by
  induction moves generalizing w with
  | nil => exact hw
  | cons m rest ih =>
    refine ih _ ?_
    by_cases h : ∃ s, m = .step s .forget
    · obtain ⟨s, rfl⟩ := h
      exact fun inv hi => by cases hi
    · exact (Remembers.move (fun s hs => h ⟨s, hs⟩) w).sound hw

/-- With an inventory at hand, the gate asks nothing but whether it may be passed, changes nothing and
    hands out that inventory. -/
theorem gate_known {inv : Inventory} (hi : w.memory.inventory = some inv) (s : Session)
    (m? : Option MessageId) :
    (World.run M (s.gate m?) w).2 = w ∧
      (∀ x ∈ World.transcript M (s.gate m?) w,
        x.request = .isPrivileged ∨ x.request = .isDisabled ∨ x.request = .recall) ∧
      ∀ inv', (World.run M (s.gate m?) w).1 = .ok inv' → inv' = inv := by
  have h := runs M (s.gate m?) w
  generalize World.transcript M (s.gate m?) w = es at h
  generalize (World.run M (s.gate m?) w).1 = r, (World.run M (s.gate m?) w).2 = w' at h
  cases Session.runs_gate h with
  | denied => exact ⟨rfl, by simp, fun _ he => by cases he⟩
  | disabled => exact ⟨rfl, by simp, fun _ he => by cases he⟩
  | learned _ _ hn => rw [hi] at hn; cases hn
  | failed _ _ hn => rw [hi] at hn; cases hn
  | @known inv' _ _ hi' =>
    rw [hi] at hi'
    cases hi'
    exact ⟨rfl, by simp, fun _ he => Session.letPass_eq_ok he⟩

/-- If the machine cannot be learned, the gate leaves no inventory behind. -/
theorem gate_unlearned {e : Error} (hn : w.memory.inventory = none) (s : Session) (m? : Option MessageId)
    (he : (World.run M s.learn w).1 = .error e) :
    (World.run M (s.gate m?) w).2.memory.inventory = none := by
  have h := runs M (s.gate m?) w
  generalize World.transcript M (s.gate m?) w = es at h
  generalize (World.run M (s.gate m?) w).1 = r, (World.run M (s.gate m?) w).2 = w' at h ⊢
  cases Session.runs_gate h with
  | denied => exact hn
  | disabled => exact hn
  | known => exact hn
  | learned _ _ _ hl =>
    rw [hl.run] at he
    cases he
  | failed _ _ _ hl => exact (inventory_learn hl).trans hn

/-- Whatever a process has done: the inventory it remembers, if any, is sound; nothing but forgetting
    takes it away, and there is none but what was learned whole. As long as there is one, the gate
    hands it out and asks the machine for nothing. If learning fails there is none after it either,
    and the gate of a process that did not give up then does what it does in a new process, on
    whatever the machine is by then. -/
theorem inventory_all_or_nothing (M : Machine μ) :
    (∀ (m : μ) (moves : List (Move μ)) (inv : Inventory),
      (after M moves ⟨m, {}⟩).memory.inventory = some inv → inv.Sound) ∧
    (∀ (w : World μ) (move : Move μ), (∀ s, move ≠ .step s .forget) →
      (∀ inv, w.memory.inventory = some inv → (move.world M w).memory.inventory = some inv) ∧
      (w.memory.inventory = none → ∀ inv, (move.world M w).memory.inventory = some inv →
        Learned (move.events M w) inv)) ∧
    (∀ (w : World μ) (s : Session), ((Move.step s .forget).world M w).memory.inventory = none) ∧
    (∀ (w : World μ) (s : Session) (m? : Option MessageId) (inv : Inventory),
      w.memory.inventory = some inv →
      (World.run M (s.gate m?) w).2 = w ∧
      (∀ x ∈ World.transcript M (s.gate m?) w,
        x.request = .isPrivileged ∨ x.request = .isDisabled ∨ x.request = .recall) ∧
      ∀ inv', (World.run M (s.gate m?) w).1 = .ok inv' → inv' = inv) ∧
    ∀ (w : World μ) (s : Session) (m? : Option MessageId), w.memory.inventory = none →
      let tried := (World.run M (s.gate m?) w).2
      (∀ e, (World.run M s.learn w).1 = .error e → tried.memory.inventory = none) ∧
      (tried.memory.inventory = none → tried.memory.disabled = false →
        ∀ (later : μ) (s' : Session) (n? : Option MessageId),
          (World.run M (s'.gate n?) ⟨later, tried.memory⟩).1 = (World.run M (s'.gate n?) ⟨later, {}⟩).1 ∧
          World.transcript M (s'.gate n?) ⟨later, tried.memory⟩ =
            World.transcript M (s'.gate n?) ⟨later, {}⟩ ∧
          Alike (World.run M (s'.gate n?) ⟨later, tried.memory⟩).2
            (World.run M (s'.gate n?) ⟨later, {}⟩).2) := by
  refine ⟨fun m moves => sound_moves moves _ (fun inv hi => by cases hi), fun w move hm => ?_,
    fun w s => rfl, fun w s m? inv hi => gate_known hi s m?,
    fun w s m? hn => ⟨fun e he => gate_unlearned hn s m? he, ?_⟩⟩
  · have h := Remembers.move (M := M) hm w
    exact ⟨h.keeps, h.learned⟩
  · exact fun htried hd later s' n? => run_alike (s'.gate n?).run ⟨rfl, hd, htried⟩

/-- A process on a machine that has no mailbox. -/
def mailless : Simulation.State :=
  { sockets := [], devices := [], found := [], cpus := ⟨[]⟩, processor := ⟨.intel, 6, 0, 0⟩ }

theorem mailless_learns_nothing :
    let s : Session := ⟨Simulation.config⟩
    let tried := (World.run Simulation.machine (s.gate none) ⟨mailless, {}⟩).2
    tried.memory.inventory = none ∧
      (World.run Simulation.machine (s.gate none) ⟨Simulation.usual 1 3, tried.memory⟩).1 =
        (World.run Simulation.machine (s.gate none) ⟨Simulation.usual 1 3, {}⟩).1 := by
  have hl : (World.run Simulation.machine (Session.learn ⟨Simulation.config⟩) ⟨mailless, {}⟩).1 =
      .error (.unsupported (.vendor ⟨.intel, 6, 0, 0⟩)) := by
    decide +kernel
  have h := (inventory_all_or_nothing Simulation.machine).2.2.2.2 ⟨mailless, {}⟩ ⟨Simulation.config⟩ none rfl
  have hn := h.1 _ hl
  exact ⟨hn, (h.2 hn (by decide +kernel) _ _ _).1⟩

end World

end FirmwareMailbox
