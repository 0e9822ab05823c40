/-
  FirmwareMailbox.Proofs.Session.Confinement — which accesses go to which device.

  Discovery looks once at every tile, through the window for the bus numbers, and writes no register
  (`Topology.Looked`). All that comes after it goes through the window on the mailbox, of the first tile
  of a socket: a probe goes from socket to socket, an operation to the sockets it is for
  (`Topology.InTurn`). Three tables decide which tile that is, the one of tiles, the one of CPUs and the
  bus ranges; they come in with `Operation.errand_sockets`, and every run of a step is then of one form
  (`Confined`).
-/

import FirmwareMailbox.Proofs.Session.Knowing
import FirmwareMailbox.Proofs.Session.Moves
import FirmwareMailbox.Proofs.Simulation.Firmware
import FirmwareMailbox.Proofs.Topology.Lookup

namespace FirmwareMailbox

/-- An access by this request is one to the mailbox of this device: the address of a register of the
    mailbox goes to 0xC4, and a word from or for that register goes through 0xC8. -/
def Request.ToMailbox (d : DeviceHandle) : Request → Prop
  | .read h o => h = d ∧ o = 0xC8
  | .write h o v => h = d ∧ (o = 0xC4 ∧ Simulation.Socket.InMailbox v ∨ o = 0xC8)
  | _ => True

/-- What discovery does with a tile: it has 0x60 name the bus number register of the tile's place in its
    socket, and reads the word at 0x64. -/
def Tile.look (x : Tile) : List Request :=
  [.write x.handle 0x60 (Register.busNumber (x.index % 4)), .read x.handle 0x64]

namespace Topology

/-- The events are looks at the tiles of these devices, each tile once and in order of their places, up to
    some point. -/
def Looked (devices : List PciDevice) (es : List Event) : Prop :=
  ∃ tiles : List Tile, (tiles.map device).Perm (devices.map fun d => (d.handle, d.address)) ∧
    Placed tiles ∧ es.map (·.request) <+: tiles.flatMap Tile.look

/-- The events go to the mailboxes of these sockets, one socket after the other. The mailbox of socket
    `n` is at tile `4 * n` of the table. -/
inductive InTurn (t : Topology) : List Nat → List Event → Prop
  | done : InTurn t [] []
  | skip {n : Nat} {ns : List Nat} {es : List Event} : InTurn t ns es → InTurn t (n :: ns) es
  | socket {n : Nat} {tile : Tile} {part es : List Event} {ns : List Nat} : t.tiles[4 * n]? = some tile →
      (∀ x ∈ part, x.request.ToMailbox tile.handle) → InTurn t ns es → InTurn t (n :: ns) (part ++ es)

namespace InTurn

variable {t : Topology} {ns ns' : List Nat} {es fs : List Event}

theorem none (t : Topology) (ns : List Nat) : InTurn t ns [] := by
  induction ns with
  | nil => exact .done
  | cons n ns ih => exact .skip ih

theorem append (h : InTurn t ns es) (h' : InTurn t ns' fs) : InTurn t (ns ++ ns') (es ++ fs) := by
  induction h with
  | done => exact h'
  | skip _ ih => exact .skip ih
  | socket ht hp _ ih =>
    rw [List.append_assoc]
    exact .socket ht hp ih

/-- They may end with the first socket. -/
theorem first {n : Nat} {tile : Tile} (ht : t.tiles[4 * n]? = some tile)
    (h : ∀ x ∈ es, x.request.ToMailbox tile.handle) : InTurn t (n :: ns) es := by
  have hs := InTurn.socket ht h (.none t ns)
  rwa [List.append_nil] at hs

/-- Each of them goes to the mailbox of one of the sockets. -/
theorem goes (h : InTurn t ns es) {x : Event} (hx : x ∈ es) :
    ∃ n ∈ ns, ∃ tile, t.tiles[4 * n]? = some tile ∧ x.request.ToMailbox tile.handle := by
  induction h with
  | done => cases hx
  | @skip n _ _ _ ih =>
    obtain ⟨k, hk, htile⟩ := ih hx
    exact ⟨k, List.mem_cons_of_mem n hk, htile⟩
  | @socket n tile _ _ _ ht hp _ ih =>
    rcases List.mem_append.mp hx with hx | hx
    · exact ⟨n, List.mem_cons_self, tile, ht, hp x hx⟩
    · obtain ⟨k, hk, htile⟩ := ih hx
      exact ⟨k, List.mem_cons_of_mem n hk, htile⟩

end InTurn

/-! ## Discovery -/

end Topology

/-- A run that was cut made requests that the whole one makes. -/
theorem Cut.requests {es full : List Event} {e : Error} (h : Cut es full e) :
    es.map (·.request) <+: full.map (·.request) := by
  obtain ⟨pre, x, y, rest, rfl, rfl, hr, -⟩ := h
  refine ⟨rest.map (·.request), ?_⟩
  simp only [List.map_append, List.map_cons, List.map_nil, hr, List.append_assoc, List.cons_append,
    List.nil_append]

namespace Topology

theorem looks_numberTiles {tiles asked : List Tile} {ids : List (Option UInt8)} {es : List Event}
    {r : Except Error (List (Option UInt8))} (h : Job.Yields (numberTiles tiles asked ids) es r) :
    es.map (·.request) <+: asked.flatMap Tile.look := by
  induction asked generalizing ids es with
  | nil =>
    obtain ⟨rfl, -⟩ := Job.yields_pure.mp h
    exact List.nil_prefix
  | cons x rest ih =>
    rw [numberTiles, reportedBus, bind_assoc] at h
    rw [List.flatMap_cons]
    rcases Aperture.yields_read_bind h with ⟨e, -, hc⟩ | ⟨w, gs, rfl, hrest⟩
    · exact ((hc 0).requests : es.map (·.request) <+: x.look).trans (List.prefix_append _ _)
    · rw [List.map_append]
      refine (List.prefix_append_right_inj x.look).mpr ?_
      rw [pure_bind] at hrest
      split at hrest
      · obtain ⟨rfl, -⟩ := Job.yields_throw.mp hrest
        exact List.nil_prefix
      · exact ih hrest

theorem looked_ofDevices {devices : List PciDevice} {es : List Event} {r : Except Error Topology}
    (h : Job.Yields (ofDevices devices) es r) : Looked devices es := by
  have hplaced : ∀ ds, Placed (tilesFrom 0 ds) := fun ds i x hx => by simpa using tilesFrom_place hx
  unfold ofDevices at h
  split at h
  · obtain ⟨rfl, -⟩ := Job.yields_throw.mp h
    refine ⟨tilesFrom 0 devices, ?_, hplaced devices, List.nil_prefix⟩
    rw [device_tilesFrom]
  · rename_i tiles ht
    obtain ⟨-, -, -, rfl⟩ := arrange_ok ht
    refine ⟨tilesFrom 0 (byBus devices), ?_, hplaced _, ?_⟩
    · rw [device_tilesFrom]
      exact (byBus_perm devices).map _
    · rcases Job.yields_bind.mp h with ⟨e, -, hn⟩ | ⟨fs, gs, ids, rfl, hn, hp⟩
      · exact looks_numberTiles hn
      · obtain ⟨rfl, -⟩ := Job.yields_pure.mp hp
        rw [List.append_nil]
        exact looks_numberTiles hn

end Topology

/-! ## Exchanges -/

theorem Message.exchange_toMailbox (c : Config) (d : DeviceHandle) (m : Message)
    (highest : Option MessageId) : Job.Only (Request.ToMailbox d) (m.exchange c d highest) := by
  refine Program.Only.closed.exchange (fun q _ ha => ⟨?_, fun _ => trivial⟩) (fun hl x hx => ?_)
    (fun x v hx => ?_) c highest
  · cases q <;> trivial
  · refine Aperture.hsmp.only_read d x ⟨rfl, Or.inl ⟨rfl, ?_⟩⟩ ⟨rfl, rfl⟩
    rcases hx with rfl | ⟨i, hi, rfl⟩
    · exact Or.inl rfl
    · exact Or.inr (Or.inr ⟨i, by omega, rfl⟩)
  · refine Aperture.hsmp.only_write d x v ⟨rfl, Or.inl ⟨rfl, ?_⟩⟩ ⟨rfl, Or.inr rfl⟩
    rcases hx with ⟨rfl, -⟩ | ⟨i, hi, rfl⟩ | ⟨rfl, -⟩
    · exact Or.inl rfl
    · exact Or.inr (Or.inr ⟨i, hi, rfl⟩)
    · exact Or.inr (Or.inl rfl)

namespace Capabilities

variable (c : Config) (t : Topology) (tile : Tile)

theorem askWord_toMailbox (m : Message) : Job.Only (Request.ToMailbox tile.handle) (askWord c tile m) :=
  Job.only_bind (Message.exchange_toMailbox c _ _ _) fun _ => trivial

theorem testSocket_toMailbox (n : Nat) : Job.Only (Request.ToMailbox tile.handle) (testSocket c n tile) := by
  refine Job.only_bind (askWord_toMailbox c tile _) fun answer => ?_
  split <;> trivial

theorem readVersions_toMailbox : Job.Only (Request.ToMailbox tile.handle) (readVersions c tile) :=
  Job.only_bind (askWord_toMailbox c tile _) fun _ =>
    Job.only_bind (askWord_toMailbox c tile _) fun _ => trivial

variable {c t} {es : List Event}

theorem inTurn_testSockets {n i : Nat} {r : Except Error Unit} (h : Job.Yields (testSockets c t i n) es r) :
    t.InTurn (List.range' i n) es := by
  induction n generalizing i es with
  | zero =>
    obtain ⟨rfl, -⟩ := Job.yields_pure.mp h
    exact .done
  | succ n ih =>
    rw [List.range'_succ]
    rcases Job.yields_lift_bind.mp h with ⟨e, -, rfl, -⟩ | ⟨tile, hmail, h₁⟩
    · exact .none _ _
    have htile := Topology.tile_of_mailboxTile hmail
    rcases Job.yields_bind.mp h₁ with ⟨e, -, hs⟩ | ⟨ps, gs, _, rfl, hs, h₂⟩
    · exact .first htile (hs.only (testSocket_toMailbox c tile i))
    · exact .socket htile (hs.only (testSocket_toMailbox c tile i)) (ih h₂)

/-- A negotiation goes from socket to socket, and stays with the first one until it knows the versions. -/
theorem inTurn_negotiate {r : Except Error Capabilities} (h : Job.Yields (negotiate c t) es r) :
    t.InTurn (List.range t.socketCount) es := by
  unfold negotiate at h
  split at h
  · obtain ⟨rfl, -⟩ := Job.yields_throw.mp h
    exact .none _ _
  rename_i n hn
  rw [hn, List.range_eq_range', List.range'_succ]
  rcases Job.yields_lift_bind.mp h with ⟨e, -, rfl, -⟩ | ⟨tile, hmail, h₁⟩
  · exact .none _ _
  have htile := Topology.tile_of_mailboxTile hmail
  rcases Job.yields_bind.mp h₁ with ⟨e, -, hs⟩ | ⟨ps, gs, _, rfl, hs, h₂⟩
  · exact .first htile (hs.only (testSocket_toMailbox c tile 0))
  have hps := hs.only (testSocket_toMailbox c tile 0)
  rcases Job.yields_bind.mp h₂ with ⟨e, -, hv⟩ | ⟨vs, ks, _, rfl, hv, h₃⟩
  · exact .first htile (List.forall_mem_append.mpr ⟨hps, hv.only (readVersions_toMailbox c tile)⟩)
  have hvs := hv.only (readVersions_toMailbox c tile)
  rw [← List.append_assoc]
  refine .socket htile (List.forall_mem_append.mpr ⟨hps, hvs⟩) ?_
  dsimp only at h₃
  rcases Job.yields_bind.mp h₃ with ⟨e, -, hr⟩ | ⟨rs, zs, _, rfl, hr, h₄⟩
  · exact inTurn_testSockets hr
  · have hzs : zs = [] := by
      split at h₄
      · rcases Job.yields_bind.mp h₄ with ⟨e, -, hz⟩ | ⟨_, _, _, -, hz, -⟩
        · exact (Job.yields_throw.mp hz).1
        · cases (Job.yields_throw.mp hz).2
      · exact (Job.yields_pure.mp h₄).1
    rw [hzs, List.append_nil]
    exact inTurn_testSockets hr

end Capabilities

/-! ## Errands -/

section

variable {s : Session} {inv : Inventory} {m : Message} {es : List Event}

theorem inTurn_deliver {n : Nat} {r : Except Error (List UInt32)}
    (h : Job.Yields (s.deliver inv n m) es r) (ns : List Nat) : inv.topology.InTurn (n :: ns) es := by
  rcases Job.yields_lift_bind.mp h with ⟨e, -, rfl, -⟩ | ⟨tile, hmail, hx⟩
  · exact .none _ _
  · exact .first (Topology.tile_of_mailboxTile hmail) (hx.only (Message.exchange_toMailbox ..))

theorem inTurn_deliverFrom {i k : Nat} {r : Except Error Unit}
    (h : Job.Yields (s.deliverFrom inv m i k) es r) : inv.topology.InTurn (List.range' i k) es := by
  induction k generalizing i es with
  | zero =>
    obtain ⟨rfl, -⟩ := Job.yields_pure.mp h
    exact .done
  | succ k ih =>
    rw [List.range'_succ]
    rcases Job.yields_bind.mp h with ⟨e, -, hd⟩ | ⟨fs, gs, _, rfl, hd, hrest⟩
    · exact inTurn_deliver hd _
    · exact (inTurn_deliver hd []).append (ih hrest)

theorem inTurn_errand {op : Operation} {r : Except Error Answer}
    (h : Job.Yields (liftM (op.errand inv) >>= fun e => e.perform s inv) es r) :
    inv.topology.InTurn (op.sockets inv) es := by
  cases he : op.errand inv with
  | error e =>
    rw [he] at h
    obtain ⟨rfl, -⟩ := Job.yields_throw.mp h
    exact .none _ _
  | ok e =>
    rw [he, Job.lift_ok, pure_bind] at h
    rw [← Operation.errand_sockets he]
    cases e with
    | known x =>
      obtain ⟨rfl, -⟩ := Job.yields_lift.mp h
      exact .none _ _
    | send n m read =>
      rcases Job.yields_bind.mp h with ⟨e, -, hd⟩ | ⟨fs, gs, words, rfl, hd, hr⟩
      · exact inTurn_deliver hd _
      · obtain ⟨rfl, -⟩ := Job.yields_lift.mp hr
        rw [List.append_nil]
        exact inTurn_deliver hd _
    | sendAll m =>
      rw [Errand.sockets, List.range_eq_range']
      rcases Job.yields_bind.mp h with ⟨e, -, hd⟩ | ⟨fs, gs, _, rfl, hd, hr⟩
      · exact inTurn_deliverFrom hd
      · obtain ⟨rfl, -⟩ := Job.yields_pure.mp hr
        rw [List.append_nil]
        exact inTurn_deliverFrom hd

end

/-! ## Whole runs -/

/-- The accesses of learning a machine that answers a scan so: looks at the tiles of the devices found, and
    if they make a table, a probe of the mailboxes of its sockets. -/
inductive Explored (scan : Except Error (List PciDevice)) : List Event → Except Error Inventory → Prop
  | nothing {e : Error} : Explored scan [] (.error e)
  | looked {devices : List PciDevice} {ds : List Event} {e : Error} : scan = .ok devices →
      Topology.Looked devices ds → Explored scan ds (.error e)
  | probed {devices : List PciDevice} {ds ps : List Event} {t : Topology} {r : Except Error Inventory} :
      scan = .ok devices → Topology.Looked devices ds → Job.Yields (Topology.ofDevices devices) ds (.ok t) →
      t.InTurn (List.range t.socketCount) ps → (∀ inv, r = .ok inv → inv.topology = t) →
      Explored scan (ds ++ ps) r

/-- The accesses of a run that began with one inventory and ended with another. If there was none the
    machine is explored first; all other accesses go to the mailboxes of the sockets `ns`. -/
inductive Confined (scan : Except Error (List PciDevice)) (ns : Inventory → List Nat) :
    Option Inventory → List Event → Option Inventory → Prop
  | known {inv : Inventory} {es : List Event} : inv.topology.InTurn (ns inv) es →
      Confined scan ns (some inv) es (some inv)
  | failed {es : List Event} {e : Error} : Explored scan es (.error e) → Confined scan ns none es none
  | learned {inv : Inventory} {es fs : List Event} : Explored scan es (.ok inv) →
      inv.topology.InTurn (ns inv) fs → Confined scan ns none (es ++ fs) (some inv)

theorem Confined.idle {scan : Except Error (List PciDevice)} {ns : Inventory → List Nat}
    (i? : Option Inventory) : Confined scan ns i? [] i? := by
  cases i? with
  | none => exact .failed (e := .unsupported .disabled) .nothing
  | some inv => exact .known (.none _ _)

/-- The sockets that a step is for. -/
def Step.sockets (inv : Inventory) : Step → List Nat
  | operation op => op.sockets inv
  | exchange n _ => [n]
  | gate _ | forget => []

theorem Topology.InTurn.filter {t : Topology} {ns : List Nat} {es : List Event} (h : t.InTurn ns es)
    (p : Event → Bool) : t.InTurn ns (es.filter p) := by
  induction h with
  | done => exact .done
  | skip _ ih => exact .skip ih
  | socket ht hp _ ih =>
    rw [List.filter_append]
    exact .socket ht (fun x hx => hp x (List.mem_of_mem_filter hx)) ih

namespace World

variable {μ α : Type} {M : Machine μ} {s : Session} {w w' : World μ} {es : List Event} {inv : Inventory}

theorem filter_isAccess_questions {qs : List Event} (h : ∀ x ∈ qs, x.request.isQuestion = true) :
    qs.filter Event.isAccess = [] := by
  refine List.filter_eq_nil_iff.mpr fun x hx => ?_
  have hq := h x hx
  obtain ⟨q, y⟩ := x
  cases q <;> first | exact Bool.false_ne_true | cases hq

/-- The accesses of a survey that succeeds are those of its discovery. -/
theorem accesses_survey {p : Processor} {t : Topology} {cpus : CpuTable}
    (h : Runs M Session.survey w es (.ok (p, t, cpus)) w') : ∃ devices u ds v,
      (M.devices w.machine).1 = .ok devices ∧ Runs M (Topology.ofDevices devices) u ds (.ok t) v ∧
        es.filter Event.isAccess = ds.filter Event.isAccess := by
  cases Session.runs_survey h with
  | @whole devices m ds _ _ _ _ hd ht _ =>
    refine ⟨devices, _, ds, _, congrArg Prod.fst hd, ht, ?_⟩
    simp [Event.isAccess]

/-- Giving up is no access. -/
theorem accesses_negotiate {t : Topology} {x : Except Error Capabilities} (h : Runs M (s.negotiate t) w es x w') :
    ∃ fs u, Runs M (Capabilities.negotiate s.config t) w fs x u ∧
      es.filter Event.isAccess = fs.filter Event.isAccess := by
  obtain ⟨fs, u, hc, ⟨e, -, -, rfl, -⟩ | ⟨-, rfl, -⟩⟩ := Session.runs_negotiate.mp h
  · exact ⟨fs, u, hc, by simp [Event.isAccess]⟩
  · exact ⟨es, u, hc, rfl⟩

theorem explored_learn {r : Except Error Inventory} (h : Runs M s.learn w es r w') :
    Explored (M.devices w.machine).1 (es.filter Event.isAccess) r := by
  have hall : ∀ {devices ds x} {u v : World μ}, Runs M (Topology.ofDevices devices) u ds x v →
      ds.filter Event.isAccess = ds := by
    intro devices ds x u v hd
    refine List.filter_eq_self.mpr fun y hy => ?_
    have ha := hd.yields.only (Topology.ofDevices_only devices) y hy
    obtain ⟨q, z⟩ := y
    cases q <;> first | rfl | cases ha
  rcases Session.runs_learn.mp h with ⟨e, rfl, hs⟩ | ⟨p, t, cpus, ks, u, ns, x, hs, hn, rfl, rfl⟩
  · cases Session.runs_survey hs with
    | unsupported | unlisted => exact .nothing
    | undiscovered hd ht =>
      rw [List.filter_append, hall ht, hd]
      exact .looked rfl (Topology.looked_ofDevices ht.yields)
    | cpuless hd ht _ =>
      rw [List.filter_append, List.filter_append, hall ht, hd]
      simp only [List.filter_cons, Event.isAccess, Bool.false_eq_true, if_false, List.filter_nil,
        List.append_nil, List.nil_append]
      exact .looked rfl (Topology.looked_ofDevices ht.yields)
  · obtain ⟨devices, _, ds, _, hd, ht, hks⟩ := accesses_survey hs
    obtain ⟨fs, _, hneg, hns⟩ := accesses_negotiate hn
    rw [List.filter_append, hks, hns, hall ht]
    refine .probed hd (Topology.looked_ofDevices ht.yields) ht.yields
      ((Capabilities.inTurn_negotiate hneg.yields).filter _) fun inv hinv => ?_
    cases x with
    | error e => cases hinv
    | ok caps =>
      cases hinv
      rfl

/-- The gate explores the machine if it is not known. What follows with an inventory goes to the sockets it
    is for, and nothing follows a failure. -/
theorem confined_gate {m? : Option MessageId} {ns : Inventory → List Nat} {gs fs : List Event}
    {x : Except Error Inventory} {u : World μ} (hg : Runs M (s.gate m?) w gs x u)
    (hfs : ∀ inv, x = .ok inv → inv.topology.InTurn (ns inv) fs ∧ w'.memory.inventory = some inv)
    (hno : ∀ e, x = .error e → fs = [] ∧ w' = u) :
    Confined (M.devices w.machine).1 ns w.memory.inventory (gs.filter Event.isAccess ++ fs)
      w'.memory.inventory := by
  have hshut : ∀ {e}, x = .error e → u = w → gs.filter Event.isAccess = [] →
      Confined (M.devices w.machine).1 ns w.memory.inventory (gs.filter Event.isAccess ++ fs)
        w'.memory.inventory := by
    intro e he hu hq
    obtain ⟨rfl, rfl⟩ := hno e he
    rw [hu, hq]
    exact .idle _
  have hasks : ([⟨.isPrivileged, true⟩, ⟨.isDisabled, false⟩, ⟨.recall, none⟩] : List Event).filter
      Event.isAccess = [] := rfl
  cases Session.runs_gate hg with
  | denied _ => exact hshut rfl rfl rfl
  | disabled _ _ => exact hshut rfl rfl rfl
  | @known inv _ _ hi =>
    cases hl : Session.letPass m? inv with
    | error e => exact hshut hl rfl rfl
    | ok inv' =>
      obtain rfl := Session.letPass_eq_ok hl
      rw [hi, (hfs inv' hl).2]
      exact .known (hfs inv' hl).1
  | @learned ls inv v _ _ hn hl =>
    have hex := explored_learn hl
    have hrest : inv.topology.InTurn (ns inv) fs ∧ w'.memory.inventory = some inv := by
      cases hpass : Session.letPass m? inv with
      | error e =>
        obtain ⟨rfl, rfl⟩ := hno e hpass
        exact ⟨.none _ _, rfl⟩
      | ok inv' =>
        obtain rfl := Session.letPass_eq_ok hpass
        exact hfs inv' hpass
    rw [hn, hrest.2]
    have hpublish : ([⟨.publish inv, ()⟩] : List Event).filter Event.isAccess = [] := rfl
    rw [List.filter_append, List.filter_append, hasks, hpublish, List.nil_append, List.append_nil]
    exact .learned hex hrest.1
  | @failed ls e _ _ _ hn hl =>
    obtain ⟨rfl, rfl⟩ := hno e rfl
    rw [List.append_nil, List.filter_append, hasks, List.nil_append, inventory_learn hl, hn]
    exact .failed (explored_learn hl)

/-- So a job behind the gate is confined if it is confined in a process that knows its machine. -/
theorem confined_of_gate {m? : Option MessageId} {f : Inventory → Job α} {ns : Inventory → List Nat}
    (hf : ∀ inv u fs r v, u.memory.inventory = some inv → Runs M (f inv) u fs r v →
      inv.topology.InTurn (ns inv) (fs.filter Event.isAccess) ∧ v.memory.inventory = some inv)
    {r : Except Error α} (h : Runs M (s.gate m? >>= f) w es r w') :
    Confined (M.devices w.machine).1 ns w.memory.inventory (es.filter Event.isAccess) w'.memory.inventory := by
  rcases runs_bind.mp h with ⟨e, rfl, hg⟩ | ⟨gs, fs, inv, u, rfl, hg, hrest⟩
  · rw [← List.append_nil (es.filter _)]
    exact confined_gate hg (fun inv hi => by cases hi) fun _ _ => ⟨rfl, rfl⟩
  · rw [List.filter_append]
    refine confined_gate hg (fun inv' hi => ?_) fun e he => by cases he
    cases hi
    exact hf inv u fs r w' (Session.gate_ok hg).1 hrest

/-- An operation is confined to its sockets in a process that knows its machine. -/
theorem inTurn_rest {op : Operation} {r : Except Error Answer} (hi : w.memory.inventory = some inv)
    (h : Runs M (op.rest s inv) w es r w') :
    inv.topology.InTurn (op.sockets inv) (es.filter Event.isAccess) ∧ w'.memory.inventory = some inv := by
  obtain ⟨qs, fs, rfl, hq, ⟨rfl, rfl, -⟩ | herrand⟩ := runs_rest hi h
  · rw [List.append_nil, filter_isAccess_questions hq]
    exact ⟨.none _ _, hi⟩
  · rw [List.filter_append, filter_isAccess_questions hq]
    refine ⟨(inTurn_errand herrand.yields).filter _, ?_⟩
    rw [← hi]
    exact ((Conducts.closed ⟨fun _ => rfl, fun h h' => h'.trans h⟩).errand s inv op
      (fun _ _ _ _ _ _ => inventory_exchange _ _ _ _)).runs herrand

theorem inventory_deliver {m : Message} {n : Nat} {r : Except Error (List UInt32)}
    (h : Runs M (s.deliver inv n m) w es r w') : w'.memory.inventory = w.memory.inventory := by
  rcases runs_bind.mp h with ⟨e, -, ht⟩ | ⟨ts, fs, tile, u, rfl, ht, hx⟩
  · obtain ⟨rfl, -, rfl⟩ := runs_lift.mp ht
    rfl
  · obtain ⟨rfl, -, rfl⟩ := runs_lift.mp ht
    exact (inventory_exchange _ _ _ _).runs hx

/-- Every step but to forget is confined to its sockets. -/
theorem confined_step (M : Machine μ) (s : Session) {st : Step} (hst : st ≠ .forget) (w : World μ) :
    Confined (M.devices w.machine).1 st.sockets w.memory.inventory
      ((World.transcript M (st.perform s) w).filter Event.isAccess)
      (World.run M (st.perform s) w).2.memory.inventory := by
  match st, hst with
  | .operation op, _ =>
    change Confined _ op.sockets _ ((World.transcript M (op.perform s) w).filter _)
      (World.run M (op.perform s) w).2.memory.inventory
    cases hd : op.disorder? with
    | some cause =>
      rw [Operation.perform_disorder s hd]
      exact .idle _
    | none =>
      rw [Operation.perform_gate s hd]
      exact confined_of_gate (fun inv u fs r v hi h => inTurn_rest hi h) (runs M _ w)
  | .gate m?, _ =>
    change Confined _ (fun _ => []) _ ((World.transcript M ((fun _ => Answer.nothing) <$> s.gate m?) w).filter _)
      (World.run M ((fun _ => Answer.nothing) <$> s.gate m?) w).2.memory.inventory
    rw [map_eq_pure_bind]
    refine confined_of_gate (fun inv u fs r v hi h => ?_) (runs M _ w)
    obtain ⟨rfl, -, rfl⟩ := runs_pure.mp h
    exact ⟨.done, hi⟩
  | .exchange n m, _ =>
    change Confined _ (fun _ => [n]) _ ((World.transcript M (Answer.words <$> s.exchange n m) w).filter _)
      (World.run M (Answer.words <$> s.exchange n m) w).2.memory.inventory
    rw [map_eq_pure_bind, Session.exchange, bind_assoc]
    refine confined_of_gate (fun inv u fs r v hi h => ?_) (runs M _ w)
    rcases runs_bind.mp h with ⟨e, -, hd⟩ | ⟨ds, gs, words, u', rfl, hd, hw⟩
    · exact ⟨(inTurn_deliver hd.yields _).filter _, (inventory_deliver hd).trans hi⟩
    · obtain ⟨rfl, -, rfl⟩ := runs_pure.mp hw
      rw [List.append_nil]
      exact ⟨(inTurn_deliver hd.yields _).filter _, (inventory_deliver hd).trans hi⟩

/-- As long as nothing is forgotten, a process that knows its machine keeps to the table it knows. -/
theorem inTurn_steps (M : Machine μ) (s : Session) {sts : List Step} (hsts : ∀ st ∈ sts, st ≠ .forget)
    {w : World μ} (hi : w.memory.inventory = some inv) :
    inv.topology.InTurn (sts.flatMap (·.sockets inv))
        ((trace M (sts.map (.step s)) w).filter Event.isAccess) ∧
      (after M (sts.map (.step s)) w).memory.inventory = some inv := by
  induction sts generalizing w with
  | nil => exact ⟨.done, hi⟩
  | cons st sts ih =>
    obtain ⟨hst, hsts⟩ := List.forall_mem_cons.mp hsts
    have hstep := confined_step M s hst w
    rw [hi] at hstep
    have hkept : inv.topology.InTurn (st.sockets inv)
          ((World.transcript M (st.perform s) w).filter Event.isAccess) ∧
        (World.run M (st.perform s) w).2.memory.inventory = some inv := by
      generalize (World.run M (st.perform s) w).2.memory.inventory = i? at hstep
      cases hstep with
      | known ht => exact ⟨ht, rfl⟩
    obtain ⟨hrest, hend⟩ := ih hsts hkept.2
    refine ⟨?_, hend⟩
    show inv.topology.InTurn (st.sockets inv ++ _) ((World.transcript M (st.perform s) w ++ _).filter _)
    rw [List.filter_append]
    exact hkept.1.append hrest

end World

end FirmwareMailbox
