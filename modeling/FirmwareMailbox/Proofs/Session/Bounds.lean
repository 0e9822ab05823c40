/-
  FirmwareMailbox.Proofs.Session.Bounds — no index is out of bounds.

  A response has as many words as were asked for, and what reads it asked for every word that it reads. A
  table has four tiles for each of its sockets, so a socket that is there has its first tile in the table.
  So neither the probe nor any step looks for a word or a tile that is not there: an index out of bounds is
  never its own failure but a reply of the machine (`indices_in_bounds`), and only a list of processors is
  such a reply.
-/

import FirmwareMailbox.Proofs.Session.GivingUp
import FirmwareMailbox.Proofs.Session.Reasons

namespace FirmwareMailbox

/-- The failures of a machine are so. -/
structure Machine.Fails {μ : Type} (M : Machine μ) (P : Error → Prop) : Prop where
  read : ∀ {d o m e}, (M.read d o m).1 = .error e → P e
  write : ∀ {d o v m e}, (M.write d o v m).1 = .error e → P e
  lock : ∀ {p m e}, (M.lock p m).1 = .error e → P e
  devices : ∀ {m e}, (M.devices m).1 = .error e → P e
  cpus : ∀ {m e}, M.cpus m = .error e → P e

namespace Topology

variable {t : Topology} {n : Nat}

/-- The first tile of a socket that is there is in the table. -/
theorem socket_in_bounds (h : n < t.socketCount) : n * Register.tilesPerSocket < t.tiles.length ∧
    ∃ tile, t.tiles[n * Register.tilesPerSocket]? = some tile ∧ t.mailboxTile n = .ok tile := by
  obtain ⟨tile, -, htile⟩ := mailboxTile_present h
  have hplace := tile_of_mailboxTile htile
  have hcomm : n * Register.tilesPerSocket = 4 * n := Nat.mul_comm n 4
  rw [hcomm]
  exact ⟨(List.getElem?_eq_some_iff.mp hplace).1, tile, hplace, htile⟩

end Topology

/-- What an operation reads of a response that is as long as was asked for is there. -/
theorem Operation.read_whole {op : Operation} {inv : Inventory} {n : Nat} {m : Message}
    {read : List UInt32 → Except Error Answer} {words : List UInt32}
    (h : op.errand inv = .ok (.send n m read)) (hl : words.length = m.responseLength) :
    ∃ a, read words = .ok a := by
  have hlawful : (Errand.send n m read).Lawful := (op.errand_lawful inv).2 _ h
  cases hr : read words with
  | ok a => exact ⟨a, rfl⟩
  | error e =>
    have hlt := (hlawful words e hr).1
    omega

namespace World

variable {μ α : Type} {M : Machine μ} {P : Error → Prop}

/-- A reply of a machine that is a failure is one of its failures. -/
theorem failure_of_answer (hM : M.Fails P) (q : Request) (w : World μ) {e : Error}
    (h : (Event.mk q (answer M q w).1).failure? = some e) : P e := by
  cases q with
  | read d o =>
    cases hr : (M.read d o w.machine).1 with
    | ok v => simp only [answer, hr] at h; cases h
    | error f => simp only [answer, hr] at h; cases h; exact hM.read hr
  | write d o v =>
    cases hr : (M.write d o v w.machine).1 with
    | ok u => simp only [answer, hr] at h; cases h
    | error f => simp only [answer, hr] at h; cases h; exact hM.write hr
  | lock p =>
    cases hr : (M.lock p w.machine).1 with
    | ok u => simp only [answer, hr] at h; cases h
    | error f => simp only [answer, hr] at h; cases h; exact hM.lock hr
  | devices =>
    cases hr : (M.devices w.machine).1 with
    | ok found => simp only [answer, hr] at h; cases h
    | error f => simp only [answer, hr] at h; cases h; exact hM.devices hr
  | cpus =>
    cases hr : M.cpus w.machine with
    | ok table => simp only [answer, hr] at h; cases h
    | error f => simp only [answer, hr] at h; cases h; exact hM.cpus hr
  | _ => cases h

theorem failure_of_transcript (hM : M.Fails P) (p : Program α) (w : World μ) :
    ∀ x ∈ Program.transcript (answer M) p w, ∀ e, x.failure? = some e → P e := by
  induction p generalizing w with
  | done a => simp [Program.transcript]
  | ask q next ih =>
    exact List.forall_mem_cons.mpr ⟨fun e he => failure_of_answer hM q w he, ih _ _⟩

/-- Every exchange that succeeds ends in as many words as its message asked for. A socket that is there has
    its first tile in the table, and any other number is refused before the table is looked at; the tables
    that are discovered and remembered have four tiles or eight, so a place in them is below 8. An operation
    finds every word that it reads in a response of the length that it asked for. Whatever the replies, a
    probe or a step ends with an index out of bounds only if a reply is that failure, and on a machine that
    has no such failure, no step does in any process. -/
theorem indices_in_bounds (M : Machine μ) :
    (∀ (c : Config) (d : DeviceHandle) (m : Message) (highest : Option MessageId) (es : List Event)
      (words : List UInt32), Job.Yields (m.exchange c d highest) es (.ok words) →
        words.length = m.responseLength) ∧
    (∀ (t : Topology) (n : Nat), n < t.socketCount → n * Register.tilesPerSocket < t.tiles.length ∧
      ∃ tile, t.tiles[n * Register.tilesPerSocket]? = some tile ∧ t.mailboxTile n = .ok tile) ∧
    (∀ (t : Topology) (n : Nat), t.socketCount ≤ n →
      t.mailboxTile n = .error (.invalidArgument (.absentSocket n t.socketCount))) ∧
    (∀ (devices : List PciDevice) (es : List Event) (t : Topology),
      Job.Yields (Topology.ofDevices devices) es (.ok t) → t.tiles.length = 4 ∨ t.tiles.length = 8) ∧
    (∀ (m : μ) (moves : List (Move μ)) (inv : Inventory),
      (after M moves ⟨m, {}⟩).memory.inventory = some inv →
        (inv.topology.tiles.length = 4 ∨ inv.topology.tiles.length = 8) ∧
        ∀ n < inv.topology.socketCount, n * Register.tilesPerSocket < 8) ∧
    (∀ (op : Operation) (inv : Inventory) (n : Nat) (m : Message) (read : List UInt32 → Except Error Answer)
      (words : List UInt32), op.errand inv = .ok (.send n m read) → words.length = m.responseLength →
        ∃ a, read words = .ok a) ∧
    (∀ (c : Config) (t : Topology) (es : List Event) (i : Nat),
      Job.Yields (Capabilities.negotiate c t) es (.error (.outOfBounds i)) →
        ∃ x ∈ es, x.failure? = some (.outOfBounds i)) ∧
    (∀ (s : Session) (st : Step) (es : List Event) (i : Nat),
      Job.Yields (st.perform s) es (.error (.outOfBounds i)) →
        ∃ x ∈ es, x.failure? = some (.outOfBounds i)) ∧
    (M.Fails (fun e => ∀ i, e ≠ .outOfBounds i) → ∀ (s : Session) (st : Step) (w : World μ) (i : Nat),
      (World.run M (st.perform s) w).1 ≠ .error (.outOfBounds i)) := by
  refine ⟨?_, ?_, ?_, ?_, ?_, ?_, ?_, ?_, ?_⟩
  · intro c d m highest es words h
    exact Message.length_of_yields h
  · intro t n hn
    exact Topology.socket_in_bounds hn
  · intro t n hn
    exact Topology.mailboxTile_absent hn
  · intro devices es t h
    exact (Topology.numbers_of_yields h).1.length
  · intro m moves inv hi
    have hsound : inv.Sound := sound_moves moves ⟨m, {}⟩ (fun inv hi => by cases hi) inv hi
    have hlength := hsound.arranged.length
    refine ⟨hlength, fun n hn => ?_⟩
    have hplace := (Topology.socket_in_bounds hn).1
    rcases hlength with hl | hl <;> omega
  · intro op inv n m read words h hl
    exact Operation.read_whole h hl
  · intro c t es i h
    exact (Capabilities.explained_negotiate c t es _ h).outOfBounds
  · intro s st es i h
    exact (st.explained s es _ h).outOfBounds
  · intro hM s st w i h
    have hyields := World.yields_transcript M (st.perform s) w
    rw [h] at hyields
    obtain ⟨x, hx, he⟩ := (st.explained s _ _ hyields).outOfBounds
    exact failure_of_transcript hM _ w x hx _ he i rfl

end World

/-- The simulated machine has no failure but those of its devices and its lock. -/
theorem Simulation.machine_in_bounds : Simulation.machine.Fails fun e => ∀ i, e ≠ .outOfBounds i where
  read h i he := by
    subst he
    cases machine_plain.read h
  write h i he := by
    subst he
    cases machine_plain.write h
  lock h i he := by
    subst he
    cases machine_plain.lock h
  devices h := by cases h
  cpus h := by cases h

/-- The first operation of a process on the crossed machine reads two words of the second socket, after a probe
    of both. There is no third socket. -/
theorem Simulation.crossed_in_bounds :
    Simulation.machine.Fails (fun e => ∀ i, e ≠ .outOfBounds i) ∧
      (∃ tile, Topology.crossedTable.tiles[1 * Register.tilesPerSocket]? = some tile ∧
        Topology.crossedTable.mailboxTile 1 = .ok tile) ∧
      Topology.crossedTable.mailboxTile 2 = .error (.invalidArgument (.absentSocket 2 2)) ∧
      (World.run Simulation.machine ((Step.operation (.fabricClocks 1)).perform ⟨Simulation.config⟩)
        ⟨Topology.crossed, {}⟩).1 ≠ .error (.outOfBounds 1) := by
  obtain ⟨-, hpresent, habsent, -, -, -, -, -, hsteps⟩ := World.indices_in_bounds Simulation.machine
  have hsocket : 1 < Topology.crossedTable.socketCount := by decide
  refine ⟨machine_in_bounds, (hpresent _ 1 hsocket).2, habsent Topology.crossedTable 2 (by decide), ?_⟩
  exact hsteps machine_in_bounds _ _ _ 1

end FirmwareMailbox
