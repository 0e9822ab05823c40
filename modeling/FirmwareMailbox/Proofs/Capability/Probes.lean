/-
  FirmwareMailbox.Proofs.Capability.Probes — the sends of a negotiation, and what their answers decide.

  A negotiation with the firmware of `n` sockets is a plan of `n + 2` sends: the test and both questions
  for versions to socket 0, then the test to one socket after the other (`probe`). It goes through the plan
  up to the first send that fails or the first test with another answer than it has to have (`Breaks`), and
  looks at the interface version only when all are through (`negotiate_eq`). What it learns are the two
  words that socket 0 answered (`Reads`).
-/

import FirmwareMailbox.Proofs.Machine.Series
import FirmwareMailbox.Proofs.Session.Errand
import FirmwareMailbox.Proofs.Session.GivingUp
import FirmwareMailbox.Proofs.Session.Remembering
import FirmwareMailbox.Proofs.Topology.Lookup

namespace FirmwareMailbox

/-- Before any interface version is known, no message counts as promised. -/
theorem Message.exchange_not_rejected {m : Message} {c : Config} {d : DeviceHandle} {es : List Event}
    {id : MessageId} (hp : ∀ x ∈ es, x.Plain)
    (h : Job.Yields (m.exchange c d none) es (.error (.firmwareRejected id))) : False := by
  have hx := yields_exchange_blames hp h (Or.inl rfl)
  simp [MessageId.within] at hx

namespace Capabilities

variable {μ : Type} (M : Machine μ) (c : Config) (t : Topology) (w : World μ)

/-! ## The plan -/

/-- The test message, which answers one word. -/
def testing : Message := { id := .test, args := [testArgument], responseLength := 1 }

/-- The socket and the message of each send. -/
def probe : Nat → Nat × Message
  | 0 => (0, testing)
  | 1 => (0, { id := .getSmuVersion, responseLength := 1 })
  | 2 => (0, { id := .getInterfaceVersion, responseLength := 1 })
  | i + 3 => (i + 1, testing)

def sendProbe (i : Nat) : Job (List UInt32) := do
  let tile ← t.mailboxTile (probe i).1
  (probe i).2.exchange c tile.handle none

/-- The word that a send answered, if it is what it has to be. -/
def accept (i : Nat) (words : List UInt32) : Except Error UInt32 := do
  let answer ← Job.word words 0
  if (probe i).2 = testing ∧ answer ≠ testArgument + 1 then
    throw (.unsupported (.testAnswer (probe i).1 (testArgument + 1) answer))
  return answer

/-- What is made of the words that all sends answered. -/
def conclude (answers : List UInt32) : Except Error Capabilities :=
  if answers.getD 2 0 = 0 then .error (.unsupported .noInterface)
  else .ok ⟨Layout.decode (answers.getD 1 0), answers.getD 2 0⟩

/-- A send of the plan with its answer looked at. -/
def checkedProbe (i : Nat) : Job UInt32 := sendProbe c t i >>= fun words => liftM (accept i words)

variable {c t} {n : Nat}

theorem checkedProbe_eq {i : Nat} {tile : Tile} (h : t.mailboxTile (probe i).1 = .ok tile) :
    checkedProbe c t i =
      (probe i).2.exchange c tile.handle none >>= fun words => liftM (accept i words) := by
  simp [checkedProbe, sendProbe, h]

theorem testSocket_eq {i : Nat} (hi : (probe i).2 = testing) {tile : Tile}
    (h : t.mailboxTile (probe i).1 = .ok tile) :
    testSocket c (probe i).1 tile = checkedProbe c t i >>= fun _ => pure () := by
  rw [checkedProbe_eq h, testSocket, askWord, bind_assoc, bind_assoc, hi]
  refine congrArg (testing.exchange c tile.handle none >>= ·) (funext fun words => ?_)
  unfold accept
  cases Job.word words 0 with
  | error e => rfl
  | ok answer => by_cases ha : answer = testArgument + 1 <;> simp [ha, hi]

theorem askWord_eq {i : Nat} (hi : i = 1 ∨ i = 2) {tile : Tile} (h : t.mailboxTile (probe i).1 = .ok tile) :
    askWord c tile (probe i).2 = checkedProbe c t i := by
  have hne : (probe i).2 ≠ testing ∧ { (probe i).2 with responseLength := 1 : Message } = (probe i).2 := by
    rcases hi with rfl | rfl <;> decide
  rw [checkedProbe_eq h, askWord, hne.2]
  refine congrArg ((probe i).2.exchange c tile.handle none >>= ·) (funext fun words => ?_)
  unfold accept
  cases Job.word words 0 <;> simp [hne.1]

/-- The tests of the sockets after the first are the rest of the plan. -/
theorem testSockets_eq (i : Nat) (hi : i + 1 + n ≤ t.socketCount) :
    testSockets c t (i + 1) n = (List.range' (i + 3) n).mapM (checkedProbe c t) >>= fun _ => pure () := by
  induction n generalizing i with
  | zero => simp [testSockets]
  | succ n ih =>
    obtain ⟨tile, -, htile⟩ := Topology.mailboxTile_present (t := t) (n := i + 1) (by omega)
    have htest : testSocket c (i + 1) tile = checkedProbe c t (i + 3) >>= fun _ => pure () :=
      testSocket_eq (i := i + 3) rfl htile
    rw [testSockets, htile, Job.lift_ok, pure_bind, htest, ih (i + 1) (by omega), List.range'_succ,
      List.mapM_cons]
    simp

theorem negotiate_empty (h : t.socketCount = 0) : negotiate c t = throw (.topology .noSocket) := by
  unfold negotiate
  rw [h]

theorem negotiate_eq (h : t.socketCount = n + 1) : negotiate c t =
    (List.range (n + 3)).mapM (checkedProbe c t) >>= fun answers => liftM (conclude answers) := by
  obtain ⟨tile, -, htile⟩ := Topology.mailboxTile_present (t := t) (n := 0) (by omega)
  have htest : testSocket c 0 tile = checkedProbe c t 0 >>= fun _ => pure () := testSocket_eq (i := 0) rfl htile
  have hfirmware : askWord c tile { id := .getSmuVersion } = checkedProbe c t 1 := askWord_eq (.inl rfl) htile
  have hinterface : askWord c tile { id := .getInterfaceVersion } = checkedProbe c t 2 :=
    askWord_eq (.inr rfl) htile
  have hplan : List.range (n + 3) = 0 :: 1 :: 2 :: List.range' 3 n := by
    simp [List.range_eq_range', List.range'_succ]
  unfold negotiate
  rw [h, hplan, List.mapM_cons, List.mapM_cons, List.mapM_cons]
  simp only [htile, Job.lift_ok, pure_bind, htest, readVersions, hfirmware, hinterface,
    testSockets_eq (c := c) (t := t) (n := n) 0 (by omega), bind_assoc, conclude]
  refine congrArg (_ >>= ·) (funext fun first => congrArg (_ >>= ·) (funext fun firmware =>
    congrArg (_ >>= ·) (funext fun interface => congrArg (_ >>= ·) (funext fun rest => ?_))))
  by_cases hv : interface = 0 <;> simp [hv]

/-! ## The answers -/

/-- The send was answered, and a test with the word that it has to be answered with. -/
def Passes (i : Nat) (r : Except Error (List UInt32)) : Prop :=
  ∃ words, r = .ok words ∧ ((probe i).2 = testing → words = [testArgument + 1])

/-- What a negotiation ends in at a send that fails, or at a test that is answered with another word. -/
inductive Breaks (i : Nat) : Except Error (List UInt32) → Error → Prop
  | failed (e : Error) : Breaks i (.error e) e
  | answer {x : UInt32} : (probe i).2 = testing → x ≠ testArgument + 1 →
      Breaks i (.ok [x]) (.unsupported (.testAnswer (probe i).1 (testArgument + 1) x))

/-- The capabilities that two words stand for: a firmware version and an interface version. -/
structure Reads (firmware interface : UInt32) (caps : Capabilities) : Prop where
  major : caps.firmware.major.toNat = firmware.toNat / 0x10000 % 0x100
  minor : caps.firmware.minor.toNat = firmware.toNat / 0x100 % 0x100
  debug : caps.firmware.debug.toNat = firmware.toNat % 0x100
  reported : caps.interfaceVersion = interface
  used : caps.usedVersion.toNat = min interface.toNat 3

theorem reads_decode (firmware interface : UInt32) :
    Reads firmware interface ⟨Layout.decode firmware, interface⟩ where
  major := by simp [Layout.decode, UInt32.toNat_shiftRight, Nat.shiftRight_eq_div_pow]
  minor := by simp [Layout.decode, UInt32.toNat_shiftRight, Nat.shiftRight_eq_div_pow]
  debug := by simp [Layout.decode]
  reported := rfl
  used := usedVersion_toNat _

theorem Reads.unique {firmware interface : UInt32} {caps caps' : Capabilities}
    (h : Reads firmware interface caps) (h' : Reads firmware interface caps') : caps = caps' := by
  have hmajor := UInt8.toNat_inj.mp (h.major.trans h'.major.symm)
  have hminor := UInt8.toNat_inj.mp (h.minor.trans h'.minor.symm)
  have hdebug := UInt8.toNat_inj.mp (h.debug.trans h'.debug.symm)
  have hreported := h.reported.trans h'.reported.symm
  obtain ⟨⟨_, _, _⟩, _⟩ := caps
  obtain ⟨⟨_, _, _⟩, _⟩ := caps'
  cases hmajor
  cases hminor
  cases hdebug
  cases hreported
  rfl

variable {M : Machine μ} {w : World μ} {i : Nat} {words : List UInt32} {e : Error}

/-- Each send of the plan asks for one word. -/
theorem length_sendProbe (h : Series.result M (sendProbe c t) w i = .ok words) : words.length = 1 := by
  have hrun := Series.runs (M := M) (f := sendProbe c t) (w := w) i
  rw [h] at hrun
  obtain ⟨tile, -, hx⟩ := World.runs_lift_bind_ok.mp hrun
  rw [Message.length_of_yields hx.yields]
  match i with
  | 0 | 1 | 2 | _ + 3 => rfl

theorem Passes.accept {r : Except Error (List UInt32)} (h : Passes i r)
    (hr : ∀ words, r = .ok words → words.length = 1) : ∃ x, r = .ok [x] ∧ r >>= accept i = .ok x := by
  obtain ⟨words, rfl, htest⟩ := h
  obtain ⟨x, rfl⟩ := List.length_eq_one_iff.mp (hr words rfl)
  refine ⟨x, rfl, ?_⟩
  have hx : ¬ ((probe i).2 = testing ∧ x ≠ testArgument + 1) := fun ⟨hi, hx⟩ => hx (by simpa using htest hi)
  show (if _ then _ else _) = _
  rw [if_neg hx]
  rfl

theorem Breaks.accept {r : Except Error (List UInt32)} (h : Breaks i r e) : r >>= accept i = .error e := by
  cases h with
  | failed => rfl
  | answer hi hx =>
    show (if _ then _ else _) = _
    rw [if_pos ⟨hi, hx⟩]
    rfl

theorem passes_or_breaks (i : Nat) {r : Except Error (List UInt32)} (hr : ∀ words, r = .ok words → words.length = 1) :
    Passes i r ∨ ∃ e, Breaks i r e := by
  cases r with
  | error e => exact .inr ⟨e, .failed e⟩
  | ok words =>
    obtain ⟨x, rfl⟩ := List.length_eq_one_iff.mp (hr words rfl)
    by_cases h : (probe i).2 = testing ∧ x ≠ testArgument + 1
    · exact .inr ⟨_, .answer h.1 h.2⟩
    · refine .inl ⟨[x], rfl, fun hi => ?_⟩
      by_cases hx : x = testArgument + 1
      · rw [hx]
      · exact absurd ⟨hi, hx⟩ h

/-! ## Runs -/

/-- The first `k` sends go through. -/
def Through (M : Machine μ) (c : Config) (t : Topology) (w : World μ) (k : Nat) : Prop :=
  ∀ i < k, Passes i (Series.result M (sendProbe c t) w i)

/-- To look at the answers changes neither the worlds nor the events. -/
theorem world_checkedProbe (k : Nat) :
    Series.world M (checkedProbe c t) w k = Series.world M (sendProbe c t) w k := Series.world_check k

theorem trace_checkedProbe (k : Nat) :
    Series.trace M (checkedProbe c t) w k = Series.trace M (sendProbe c t) w k := Series.trace_check k

theorem result_checkedProbe (i : Nat) :
    Series.result M (checkedProbe c t) w i = Series.result M (sendProbe c t) w i >>= accept i :=
  Series.result_check i

theorem succeeds_of_through {k : Nat} (h : Through M c t w k) : Series.Succeeds M (checkedProbe c t) w k := by
  intro i hi
  obtain ⟨x, -, hx⟩ := (h i hi).accept fun words => length_sendProbe
  exact ⟨x, (result_checkedProbe i).trans hx⟩

theorem runs_negotiate_breaks {k : Nat} (hn : t.socketCount = n + 1) (hk : k < n + 3) (h : Through M c t w k)
    (he : Breaks k (Series.result M (sendProbe c t) w k) e) :
    World.Runs M (negotiate c t) w (Series.trace M (sendProbe c t) w (k + 1)) (.error e)
      (Series.world M (sendProbe c t) w (k + 1)) := by
  have hfail : Series.FailsAt M (checkedProbe c t) w k e :=
    ⟨succeeds_of_through h, (result_checkedProbe k).trans he.accept⟩
  have hrun := Series.runs_mapM_error hk hfail
  rw [trace_checkedProbe, world_checkedProbe] at hrun
  rw [negotiate_eq hn]
  exact World.runs_bind.mpr (.inl ⟨e, rfl, hrun⟩)

/-- With all sends through, the words of the second and the third decide. -/
theorem runs_negotiate_through (hn : t.socketCount = n + 1) (h : Through M c t w (n + 3)) :
    ∃ firmware interface r, Series.result M (sendProbe c t) w 1 = .ok [firmware] ∧
      Series.result M (sendProbe c t) w 2 = .ok [interface] ∧
      World.Runs M (negotiate c t) w (Series.trace M (sendProbe c t) w (n + 3)) r
        (Series.world M (sendProbe c t) w (n + 3)) ∧
      (interface = 0 → r = .error (.unsupported .noInterface)) ∧
      (interface ≠ 0 → ∃ caps, r = .ok caps ∧ Reads firmware interface caps) := by
  obtain ⟨answers, hanswers⟩ := (succeeds_of_through h).exists_values
  have hword : ∀ i < n + 3, Series.result M (sendProbe c t) w i = .ok [answers i] := by
    intro i hi
    obtain ⟨x, hx, haccept⟩ := (h i hi).accept fun words => length_sendProbe
    have hsame := (hanswers i hi).symm.trans ((result_checkedProbe i).trans haccept)
    cases hsame
    exact hx
  have hrun := Series.runs_check (g := conclude) (Series.runs_mapM_ok hanswers)
  rw [← negotiate_eq hn, trace_checkedProbe, world_checkedProbe] at hrun
  have hconclude : conclude ((List.range (n + 3)).map answers) = if answers 2 = 0 then
      .error (.unsupported .noInterface) else .ok ⟨Layout.decode (answers 1), answers 2⟩ := by
    simp [conclude]
  refine ⟨answers 1, answers 2, _, hword 1 (by omega), hword 2 (by omega), hrun, fun h0 => ?_, fun h0 => ?_⟩
  · exact hconclude.trans (if_pos h0)
  · exact ⟨_, hconclude.trans (if_neg h0), reads_decode (answers 1) (answers 2)⟩

theorem through_or_breaks (M : Machine μ) (c : Config) (t : Topology) (w : World μ) (k : Nat) :
    Through M c t w k ∨
      ∃ i < k, Through M c t w i ∧ ∃ e, Breaks i (Series.result M (sendProbe c t) w i) e := by
  induction k with
  | zero => exact .inl fun i hi => absurd hi (Nat.not_lt_zero i)
  | succ k ih =>
    rcases ih with h | ⟨i, hi, hbreak⟩
    · rcases passes_or_breaks (r := Series.result M (sendProbe c t) w k) k (fun _ => length_sendProbe) with
        hpass | ⟨e, he⟩
      · refine .inl fun i hi => ?_
        rcases Nat.lt_succ_iff_lt_or_eq.mp hi with hi | rfl
        · exact h i hi
        · exact hpass
      · exact .inr ⟨k, Nat.lt_succ_self k, h, e, he⟩
    · exact .inr ⟨i, Nat.lt_succ_of_lt hi, hbreak⟩

/-- What a negotiation with the firmware of `n + 1` sockets comes to, in terms of the sends of the plan. -/
structure Probed (M : Machine μ) (c : Config) (t : Topology) (w : World μ) (n : Nat) : Prop where
  /-- Each send goes to the mailbox of its socket. -/
  addressed : ∀ i < n + 3, ∃ tile, t.tiles[4 * (probe i).1]? = some tile ∧
    sendProbe c t i = (probe i).2.exchange c tile.handle none
  /-- The first send that breaks the plan is the last. -/
  stops : ∀ k < n + 3, Through M c t w k → ∀ e, Breaks k (Series.result M (sendProbe c t) w k) e →
    World.Runs M (negotiate c t) w (Series.trace M (sendProbe c t) w (k + 1)) (.error e)
      (Series.world M (sendProbe c t) w (k + 1))
  /-- When all are through, what socket 0 answered to the questions for its versions is what counts. -/
  whole : Through M c t w (n + 3) → ∃ firmware interface r,
    Series.result M (sendProbe c t) w 1 = .ok [firmware] ∧
    Series.result M (sendProbe c t) w 2 = .ok [interface] ∧
    World.Runs M (negotiate c t) w (Series.trace M (sendProbe c t) w (n + 3)) r
      (Series.world M (sendProbe c t) w (n + 3)) ∧
    (interface = 0 → r = .error (.unsupported .noInterface)) ∧
    (interface ≠ 0 → ∃ caps, r = .ok caps ∧ Reads firmware interface caps)
  ok_iff : (∃ caps, (World.run M (negotiate c t) w).1 = .ok caps) ↔
    Through M c t w (n + 3) ∧ Series.result M (sendProbe c t) w 2 ≠ .ok [0]

theorem probed (hn : t.socketCount = n + 1) : Probed M c t w n := by
  refine ⟨fun i hi => ?_, fun k hk h e he => runs_negotiate_breaks hn hk h he,
    runs_negotiate_through hn, ?_⟩
  · have hsocket : (probe i).1 < t.socketCount := by
      match i, hi with
      | 0, _ | 1, _ | 2, _ => simp [probe, hn]
      | i + 3, hi => simp only [probe, hn]; omega
    obtain ⟨tile, -, htile⟩ := Topology.mailboxTile_present hsocket
    exact ⟨tile, Topology.tile_of_mailboxTile htile, by simp [sendProbe, htile]⟩
  · constructor
    · rintro ⟨caps, hok⟩
      rcases through_or_breaks M c t w (n + 3) with h | ⟨k, hk, h, e, he⟩
      · refine ⟨h, fun h0 => ?_⟩
        obtain ⟨firmware, interface, r, -, hinterface, hrun, hzero, -⟩ := runs_negotiate_through hn h
        rw [hinterface] at h0
        obtain rfl : interface = 0 := by simpa using h0
        rw [hrun.run, hzero rfl] at hok
        cases hok
      · rw [(runs_negotiate_breaks hn hk h he).run] at hok
        cases hok
    · rintro ⟨h, h0⟩
      obtain ⟨firmware, interface, r, -, hinterface, hrun, -, hread⟩ := runs_negotiate_through hn h
      obtain ⟨caps, rfl, -⟩ := hread (by rintro rfl; exact h0 hinterface)
      exact ⟨caps, by rw [hrun.run]⟩

/-- A negotiation that ends well read the words that the second and the third send were answered. -/
theorem reads_of_ok {caps : Capabilities} (h : (World.run M (negotiate c t) w).1 = .ok caps) :
    ∃ firmware interface, Series.result M (sendProbe c t) w 1 = .ok [firmware] ∧
      Series.result M (sendProbe c t) w 2 = .ok [interface] ∧ Reads firmware interface caps := by
  cases hcount : t.socketCount with
  | zero =>
    rw [negotiate_empty hcount] at h
    cases h
  | succ n =>
    have hn := probed (M := M) (c := c) (w := w) hcount
    obtain ⟨hthrough, h0⟩ := hn.ok_iff.mp ⟨caps, h⟩
    obtain ⟨firmware, interface, r, hfirmware, hinterface, hrun, -, hread⟩ := hn.whole hthrough
    obtain ⟨caps', rfl, hreads⟩ := hread (by rintro rfl; exact h0 hinterface)
    rw [hrun.run] at h
    cases h
    exact ⟨firmware, interface, hfirmware, hinterface, hreads⟩

/-- On a plain machine no negotiation ends in the rejection of a message. -/
theorem negotiate_not_rejected (hM : M.Plain) (id : MessageId) :
    (World.run M (negotiate c t) w).1 ≠ .error (.firmwareRejected id) := by
  intro h
  cases hcount : t.socketCount with
  | zero =>
    rw [negotiate_empty hcount] at h
    cases h
  | succ n =>
    have hn := probed (M := M) (c := c) (w := w) hcount
    rcases through_or_breaks M c t w (n + 3) with hthrough | ⟨k, hk, hthrough, e, he⟩
    · obtain ⟨firmware, interface, r, -, -, hrun, hzero, hread⟩ := hn.whole hthrough
      rw [hrun.run] at h
      by_cases h0 : interface = 0
      · rw [hzero h0] at h
        cases h
      · obtain ⟨caps, hcaps, -⟩ := hread h0
        rw [hcaps] at h
        cases h
    · rw [(hn.stops k hk hthrough e he).run] at h
      cases h
      -- a test with another answer is no rejection, so the send itself failed with it
      obtain ⟨tile, -, hsend⟩ := hn.addressed k hk
      generalize hr : Series.result M (sendProbe c t) w k = r at he
      cases he
      have hx := Series.runs (M := M) (f := sendProbe c t) (w := w) k
      rw [hr, hsend] at hx
      exact Message.exchange_not_rejected (hx.plain hM) hx.yields

/-- A negotiation goes through its plan: the test, the question for the firmware's version and the one for
    the interface version to socket 0, then the test to every other socket, up to the first send that fails
    or is a test with a wrong answer. It succeeds if and only if no send is that and the interface version is
    not 0; then it hands out what the two words of socket 0 say, which no later socket has a part in. It never
    ends in the rejection of a message. A table without sockets is refused before anything is sent. -/
theorem negotiation_probes_every_socket (M : Machine μ) (c : Config) (t : Topology) (w : World μ) :
    (t.socketCount = 0 → World.Runs M (negotiate c t) w [] (.error (.topology .noSocket)) w) ∧
    (∀ n, t.socketCount = n + 1 → Probed M c t w n) ∧
    (M.Plain → ∀ id, (World.run M (negotiate c t) w).1 ≠ .error (.firmwareRejected id)) ∧
    ∀ {μ' : Type} (M' : Machine μ') (c' : Config) (t' : Topology) (w' : World μ') (caps caps' : Capabilities),
      (World.run M (negotiate c t) w).1 = .ok caps → (World.run M' (negotiate c' t') w').1 = .ok caps' →
      (∀ i < 3, Series.result M (sendProbe c t) w i = Series.result M' (sendProbe c' t') w' i) → caps = caps' := by
  refine ⟨fun h => ?_, fun n hn => probed hn, negotiate_not_rejected, ?_⟩
  · rw [negotiate_empty h]
    exact World.runs_throw.mpr ⟨rfl, rfl, rfl⟩
  · intro μ' M' c' t' w' caps caps' h h' hsame
    obtain ⟨firmware, interface, hfirmware, hinterface, hreads⟩ := reads_of_ok h
    obtain ⟨firmware', interface', hfirmware', hinterface', hreads'⟩ := reads_of_ok h'
    rw [hsame 1 (by decide), hfirmware'] at hfirmware
    rw [hsame 2 (by decide), hinterface'] at hinterface
    cases hfirmware
    cases hinterface
    exact hreads.unique hreads'

/-- The first socket of the table alone. -/
def firstCrossed : Topology := ⟨Topology.crossedTable.tiles.take 4⟩

theorem crossed_probed : Simulation.machine.Plain ∧
    Topology.crossedTable.socketCount = 1 + 1 ∧
    Through Simulation.machine Simulation.config Topology.crossedTable ⟨Topology.crossed, {}⟩ 4 ∧
    ∃ caps, (World.run Simulation.machine (negotiate Simulation.config Topology.crossedTable)
        ⟨Topology.crossed, {}⟩).1 = .ok caps ∧ Reads 0x002E4A00 3 caps ∧
      (World.run Simulation.machine (negotiate Simulation.config firstCrossed) ⟨Topology.crossed, {}⟩).1 =
        .ok caps := by
  obtain ⟨-, hprobed, -, hsame⟩ := negotiation_probes_every_socket Simulation.machine Simulation.config
    Topology.crossedTable ⟨Topology.crossed, {}⟩
  have hn : Topology.crossedTable.socketCount = 1 + 1 := by decide
  have hrun : (World.run Simulation.machine (negotiate Simulation.config Topology.crossedTable)
      ⟨Topology.crossed, {}⟩).1 = .ok ⟨⟨0x2E, 0x4A, 0⟩, 3⟩ := by decide +kernel
  have hfirst : ∃ caps, (World.run Simulation.machine (negotiate Simulation.config firstCrossed)
      ⟨Topology.crossed, {}⟩).1 = .ok caps := ⟨⟨⟨0x2E, 0x4A, 0⟩, 3⟩, by decide +kernel⟩
  obtain ⟨hthrough, -⟩ := (hprobed 1 hn).ok_iff.mp ⟨_, hrun⟩
  obtain ⟨caps, hcaps⟩ := hfirst
  obtain rfl := hsame Simulation.machine Simulation.config firstCrossed ⟨Topology.crossed, {}⟩ _ caps hrun hcaps
    (by decide +kernel)
  exact ⟨Simulation.machine_plain, hn, hthrough, _, hrun, reads_decode 0x002E4A00 3, hcaps⟩

end Capabilities

end FirmwareMailbox
