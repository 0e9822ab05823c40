/-
  FirmwareMailbox.Proofs.Simulation.Serving — simulated machines that serve what they are asked.

  A `Site` is what stays the same about such a machine: how it is configured, the version of its
  firmware, its tiles and its CPUs. A machine serves the site if there is willing firmware behind
  every tile, with a boost limit for every CPU (`Site.Serving`). Every exchange through a tile with
  a message that the firmware takes is answered and leaves the machine serving, and so is what is
  put together from such exchanges (`Site.Serves`); a negotiation, too, succeeds.
-/

import FirmwareMailbox.Proofs.Session.Remembering
import FirmwareMailbox.Proofs.Simulation.Exchange
import FirmwareMailbox.Proofs.Simulation.Firmware
import FirmwareMailbox.Proofs.Topology.Lookup

namespace FirmwareMailbox.Simulation

variable {α β : Type}

/-! ## The socket behind a device -/

namespace State

variable {m m' : State} {h : DeviceHandle} {d : Device} {s s' : Socket}

/-- The socket behind a device that works. -/
def behind (m : State) (h : DeviceHandle) : Option Socket :=
  match m.devices[h]? with
  | none => none
  | some d => if d.broken then none else m.sockets[d.socket]?

theorem behind_eq_some : m.behind h = some s ↔ ∃ d, m.Has h d ∧ m.sockets[d.socket]? = some s := by
  unfold behind
  constructor
  · intro hb
    split at hb
    · cases hb
    · rename_i d hd
      split at hb
      · cases hb
      · rename_i hw
        exact ⟨d, ⟨hd, by simpa using hw, (List.getElem?_eq_some_iff.mp hb).1⟩, hb⟩
  · rintro ⟨d, hm, hs⟩
    simp only [hm.device, hm.works, Bool.false_eq_true, if_false, hs]

/-- Only the wiring decides what is behind a device. -/
theorem behind_eq_of_wiring (hs : m'.sockets = m.sockets)
    (hd : m'.devices.map Device.wiring = m.devices.map Device.wiring) : m'.behind h = m.behind h := by
  have hsub : ∀ {n n' : State}, n'.sockets = n.sockets →
      n'.devices.map Device.wiring = n.devices.map Device.wiring → ∀ s, n.behind h = some s →
      n'.behind h = some s := by
    intro n n' hs hd s hb
    obtain ⟨d, hm, hget⟩ := behind_eq_some.mp hb
    obtain ⟨d', hm', he⟩ := hm.of_wiring (by rw [hs]) hd.symm
    exact behind_eq_some.mpr ⟨d', hm', by rw [he, hs, hget]⟩
  exact Option.ext fun s => ⟨hsub hs.symm hd.symm s, hsub hs hd s⟩

/-- A step of the socket behind one device shows behind every device that has that socket. -/
theorem behind_facing (hm : m.Has h d) (i : UInt32) (s' : Socket) {k : DeviceHandle} {t : Socket}
    (hk : m.behind k = some t) : ∃ t', (m.facing h d i s').behind k = some t' ∧
      (t' = t ∨ m.sockets[d.socket]? = some t ∧ t' = s') := by
  have hw : (m.facing h d i s').behind k = State.behind { m with sockets := m.sockets.set d.socket s' } k :=
    behind_eq_of_wiring rfl (map_wiring_set { d with hsmpIndex := i } hm.device rfl)
  obtain ⟨e, he, ht⟩ := behind_eq_some.mp hk
  rw [hw]
  by_cases hsame : d.socket = e.socket
  · refine ⟨s', behind_eq_some.mpr ⟨e, ⟨he.device, he.works, ?_⟩, ?_⟩, Or.inr ⟨hsame ▸ ht, rfl⟩⟩
    · rw [List.length_set]
      exact he.socket
    · show (m.sockets.set d.socket s')[e.socket]? = _
      rw [hsame, List.getElem?_set_self he.socket]
  · refine ⟨t, behind_eq_some.mpr ⟨e, ⟨he.device, he.works, ?_⟩, ?_⟩, Or.inl rfl⟩
    · rw [List.length_set]
      exact he.socket
    · show (m.sockets.set d.socket s')[e.socket]? = _
      rw [List.getElem?_set_ne hsame, ht]

end State

/-! ## Sites -/

/-- What stays the same about a machine that is served. -/
structure Site where
  config : Config
  version : UInt32
  topology : Topology
  cpus : CpuTable
  polls : config.polls ≠ 0
  version_ne : version ≠ 0
  arranged : Topology.Arranged topology.tiles
  numbers : ∀ n < topology.socketCount,
    ((topology.tiles.filter (·.socket = n)).map (·.id)).Perm [0, 1, 2, 3]

namespace Site

variable (S : Site)

/-- The lock is to be had, the caller is privileged, and behind every tile is willing firmware, with a
    boost limit for each CPU that has the tile's mailbox. -/
structure Serving (m : State) : Prop where
  lock : Lockable S.config m
  privileged : m.privileged = true
  tiles : ∀ x ∈ S.topology.tiles, ∃ s, m.behind x.handle = some s ∧ s.firmware.Willing S.version
  boost : ∀ p ∈ S.cpus.entries, ∀ x, S.topology.mailboxTile p.2.socket = .ok x →
    ∃ s, m.behind x.handle = some s ∧ (s.firmware.boostLimits.at? p.2.apicId).isSome = true

variable {S}

/-- A machine serves as long as its firmware stays as it is behind every device. -/
theorem Serving.of_steady {m m' : State} (h : S.Serving m) (hl : Lockable S.config m')
    (hp : m'.privileged = m.privileged) (hb : ∀ k s, m.behind k = some s →
      ∃ s', m'.behind k = some s' ∧ s.firmware.Steady s'.firmware) : S.Serving m' := by
  refine ⟨hl, hp.trans h.privileged, fun x hx => ?_, fun p hpe x hx => ?_⟩
  · obtain ⟨s, hs, hw⟩ := h.tiles x hx
    obtain ⟨s', hs', hst⟩ := hb _ _ hs
    exact ⟨s', hs', hst.willing hw⟩
  · obtain ⟨s, hs, hk⟩ := h.boost p hpe x hx
    obtain ⟨s', hs', hst⟩ := hb _ _ hs
    exact ⟨s', hs', by rw [hst.limits, hk]⟩

theorem Serving.idle {m m' : State} (h : S.Serving m) (hi : m.Idle m') : S.Serving m' := by
  refine h.of_steady ?_ hi.privileged fun k s hs => ⟨s, ?_, rfl, rfl, rfl, rfl, fun _ => rfl⟩
  · exact h.lock.idle hi
  · rw [State.behind_eq_of_wiring hi.sockets hi.devices, hs]

/-- A message that fits and that the firmware behind a device takes is one step of the firmware, and the
    machine goes on serving. -/
theorem Serving.run_exchange {m : State} {mem : Memory} {h : DeviceHandle} {d : Device} {sk : Socket}
    {msg : Message} {ws : List UInt32} {f : Firmware} (hS : S.Serving m) (hmem : mem.disabled = false)
    (hd : m.Has h d) (hs : m.sockets[d.socket]? = some sk) (hw : sk.firmware.Willing S.version)
    (hm : msg.Fits) (hid : msg.id.minVersion ≤ S.version)
    (hperf : sk.firmware.perform (msg.args.headD 0) msg.id = .ok (ws, f)) (highest : Option MessageId) :
    ∃ i r, let m' := (m.facing h d i
        ⟨r, { f with log := (sk.told msg).log, statusPolls := f.statusPolls + 1 }⟩).touched S.config
      World.run machine (msg.exchange S.config h highest) ⟨m, mem⟩ = (.ok ws, ⟨m', mem⟩) ∧ S.Serving m' := by
  obtain ⟨ha, hr⟩ := hm.sizes
  obtain ⟨hstatus, r, hx⟩ := Socket.exchange_ok hm hw hid S.polls hperf highest
  obtain ⟨i, hrun⟩ := Simulation.run_exchange highest hd hs hS.lock hmem ha hr
  rw [hstatus, hx] at hrun
  have hmem' : mem.waited Status.ok = mem := if_neg (by decide)
  rw [hmem'] at hrun
  refine ⟨i, r, hrun, hS.of_steady ?_ rfl fun k t hk => ?_⟩
  · exact Lockable.touched (m := m.facing _ _ _ _) hS.lock
  · obtain ⟨t', ht', hcase⟩ := State.behind_facing hd i
      ⟨r, { f with log := (sk.told msg).log, statusPolls := f.statusPolls + 1 }⟩ hk
    refine ⟨t', ht', ?_⟩
    rcases hcase with rfl | ⟨hst, rfl⟩
    · exact ⟨rfl, rfl, rfl, rfl, fun _ => rfl⟩
    · rw [hs] at hst
      cases hst
      have hsteady := (Firmware.perform_ok hperf).2
      exact ⟨hsteady.version, hsteady.stalled, hsteady.refused, hsteady.forced, hsteady.limits⟩

/-- On a machine that serves, the job ends as `Q` says, leaves the memory alone and the machine
    serving. -/
def Serves (S : Site) (mem : Memory) (j : Job α) (Q : Except Error α → Prop) : Prop :=
  ∀ m, S.Serving m → ∃ r m', World.run machine j ⟨m, mem⟩ = (r, ⟨m', mem⟩) ∧ Q r ∧ S.Serving m'

variable {mem : Memory}

namespace Serves

theorem lift {Q : Except Error α → Prop} {x : Except Error α} (hx : Q x) : S.Serves mem (liftM x) Q :=
  fun m hm => ⟨x, m, rfl, hx, hm⟩

theorem mono {Q Q' : Except Error α → Prop} {j : Job α} (h : S.Serves mem j Q) (hQ : ∀ r, Q r → Q' r) :
    S.Serves mem j Q' := by
  intro m hm
  obtain ⟨r, m', hr, hq, hm'⟩ := h m hm
  exact ⟨r, m', hr, hQ r hq, hm'⟩

theorem bind {Q : Except Error α → Prop} {Q' : Except Error β → Prop} {j : Job α} {f : α → Job β}
    (hj : S.Serves mem j Q) (hf : ∀ a, Q (.ok a) → S.Serves mem (f a) Q')
    (he : ∀ e, Q (.error e) → Q' (.error e)) : S.Serves mem (j >>= f) Q' := by
  intro m hm
  obtain ⟨r, m', hr, hq, hm'⟩ := hj m hm
  cases r with
  | error e => exact ⟨.error e, m', World.run_bind_error hr, he e hq, hm'⟩
  | ok a =>
    obtain ⟨r', m'', hr', hq', hm''⟩ := hf a hq m' hm'
    exact ⟨r', m'', (World.run_bind_ok hr).trans hr', hq', hm''⟩

/-- A value that is there goes on. -/
theorem lift_ok {Q : Except Error β → Prop} {x : Except Error α} {a : α} {f : α → Job β} (hx : x = .ok a)
    (hf : S.Serves mem (f a) Q) : S.Serves mem (liftM x >>= f) Q := by
  intro m hm
  obtain ⟨r, m', hr, hq, hm'⟩ := hf m hm
  exact ⟨r, m', (World.run_bind_ok (u := ⟨m, mem⟩) (by rw [hx]; rfl)).trans hr, hq, hm'⟩

theorem lift_error {Q : Except Error β → Prop} {x : Except Error α} {e : Error} {f : α → Job β}
    (hx : x = .error e) (hq : Q (.error e)) : S.Serves mem (liftM x >>= f) Q :=
  fun m hm => ⟨_, m, World.run_bind_error (by rw [hx]; rfl), hq, hm⟩

/-- A message that fits and that the firmware behind the tile takes is answered. -/
theorem exchange {Q : Except Error (List UInt32) → Prop} {tile : Tile} {msg : Message}
    (hmem : mem.disabled = false) (ht : tile ∈ S.topology.tiles) (hm : msg.Fits)
    (hid : msg.id.minVersion ≤ S.version) (highest : Option MessageId)
    (hq : ∀ m s, S.Serving m → m.behind tile.handle = some s →
      ∃ ws f, s.firmware.perform (msg.args.headD 0) msg.id = .ok (ws, f) ∧ Q (.ok ws)) :
    S.Serves mem (msg.exchange S.config tile.handle highest) Q := by
  intro m hS
  obtain ⟨s, hb, hw⟩ := hS.tiles tile ht
  obtain ⟨d, hd, hs⟩ := State.behind_eq_some.mp hb
  obtain ⟨ws, f, hperf, hok⟩ := hq m s hS hb
  obtain ⟨i, r, hrun, hS'⟩ := hS.run_exchange hmem hd hs hw hm hid hperf highest
  exact ⟨_, _, hrun, hok, hS'⟩

end Serves

/-! ## The sockets of a site -/

theorem socketCount_pos (S : Site) : 0 < S.topology.socketCount := by
  simp only [Topology.socketCount, Register.tilesPerSocket]
  rcases S.arranged.length with h | h <;> omega

theorem one_le_version (S : Site) : 1 ≤ S.version :=
  UInt32.le_iff_toNat_le.mpr (Nat.pos_of_ne_zero fun h => S.version_ne (UInt32.toNat_inj.mp h))

/-! ## Negotiating -/

namespace Serves

variable {tile : Tile} (hmem : mem.disabled = false) (ht : tile ∈ S.topology.tiles)

include hmem ht

/-- A message with one word for an answer. -/
theorem askWord {msg : Message} {W : UInt32 → Prop} (hm : { msg with responseLength := 1 : Message }.Fits)
    (hid : msg.id.minVersion = 1) (hq : ∀ f : Firmware, f.Willing S.version →
      ∃ x f', f.perform (msg.args.headD 0) msg.id = .ok ([x], f') ∧ W x) :
    S.Serves mem (Capabilities.askWord S.config tile msg) (fun r => ∃ x, r = .ok x ∧ W x) := by
  have hx : S.Serves mem ({ msg with responseLength := 1 : Message }.exchange S.config tile.handle none)
      (fun r => ∃ x, r = .ok [x] ∧ W x) := by
    refine exchange hmem ht hm (by rw [hid]; exact S.one_le_version) none fun m s hS hb => ?_
    obtain ⟨s', hb', hw⟩ := hS.tiles tile ht
    rw [hb] at hb'
    cases hb'
    obtain ⟨x, f', hperf, hx⟩ := hq s.firmware hw
    exact ⟨[x], f', hperf, x, rfl, hx⟩
  refine hx.bind (fun ws hws => ?_) fun e he => ?_
  · obtain ⟨x, hws, hx⟩ := hws
    cases hws
    exact lift (x := .ok x) ⟨x, rfl, hx⟩
  · obtain ⟨x, he, -⟩ := he
    cases he

theorem testSocket (n : Nat) : S.Serves mem (Capabilities.testSocket S.config n tile) (· = .ok ()) := by
  refine (askWord (W := (· = Capabilities.testArgument + 1)) hmem ht ⟨rfl, rfl⟩ rfl
    fun f _ => ⟨_, f, rfl, rfl⟩).bind (fun x hx => ?_) fun e he => ?_
  · obtain ⟨_, hx, rfl⟩ := hx
    cases hx
    rw [if_neg (not_not_intro rfl)]
    exact lift rfl
  · obtain ⟨x, he, -⟩ := he
    cases he

theorem readVersions : S.Serves mem (Capabilities.readVersions S.config tile)
    (fun r => ∃ firmware, r = .ok (firmware, S.version)) := by
  refine (askWord (W := fun _ => True) hmem ht ⟨rfl, rfl⟩ rfl
    fun f _ => ⟨_, f, rfl, trivial⟩).bind (fun x _ => ?_) fun e he => ?_
  · refine (askWord (W := (· = S.version)) hmem ht ⟨rfl, rfl⟩ rfl
      fun f hf => ⟨_, f, rfl, hf.version⟩).bind (fun v hv => ?_) fun e he => ?_
    · obtain ⟨_, hv, rfl⟩ := hv
      cases hv
      exact lift (x := .ok _) ⟨_, rfl⟩
    · obtain ⟨x, he, -⟩ := he
      cases he
  · obtain ⟨x, he, -⟩ := he
    cases he

end Serves

theorem Serves.mailboxTile {n : Nat} (hn : n < S.topology.socketCount) :
    S.Serves mem (liftM (S.topology.mailboxTile n) : Job Tile)
      (fun r => ∃ x ∈ S.topology.tiles, r = .ok x) := by
  obtain ⟨x, hx, hok⟩ := Topology.mailboxTile_present hn
  exact .lift ⟨x, hx, hok⟩

theorem Serves.testSockets (hmem : mem.disabled = false) (n i : Nat)
    (hn : i + n ≤ S.topology.socketCount) :
    S.Serves mem (Capabilities.testSockets S.config S.topology i n) (· = .ok ()) := by
  induction n generalizing i with
  | zero => exact .lift rfl
  | succ n ih =>
    refine (Serves.mailboxTile (by omega)).bind (fun tile ht => ?_) fun e he => ?_
    · obtain ⟨_, ht, hx⟩ := ht
      cases hx
      exact (testSocket hmem ht i).bind (fun _ _ => ih (i + 1) (by omega)) fun e he => by cases he
    · obtain ⟨x, -, he⟩ := he
      cases he

/-- A negotiation with the firmware of a site finds its version. -/
theorem Serves.negotiate (S : Site) (hmem : mem.disabled = false) :
    S.Serves mem (Capabilities.negotiate S.config S.topology)
      (fun r => ∃ firmware, r = .ok ⟨firmware, S.version⟩) := by
  have hpos := S.socketCount_pos
  unfold Capabilities.negotiate
  split
  · rename_i h0
    omega
  rename_i n hn
  refine (Serves.mailboxTile hpos).bind (fun tile ht => ?_) fun e he => ?_
  · obtain ⟨_, ht, hx⟩ := ht
    cases hx
    refine (testSocket hmem ht 0).bind (fun _ _ => ?_) fun e he => by cases he
    refine (readVersions hmem ht).bind (fun versions hv => ?_) fun e he => ?_
    · obtain ⟨firmware, hv⟩ := hv
      cases hv
      refine (testSockets hmem n 1 (by omega)).bind (fun _ _ => ?_) fun e he => by cases he
      dsimp only
      rw [if_neg S.version_ne]
      exact lift (x := .ok _) ⟨firmware, rfl⟩
    · obtain ⟨firmware, he⟩ := he
      cases he
  · obtain ⟨x, -, he⟩ := he
    cases he

end Site

end FirmwareMailbox.Simulation
