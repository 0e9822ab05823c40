/-
  FirmwareMailbox.Proofs.Telemetry.Traffic — which messages an exporter sends, over all its refreshes.

  An exporter is made behind the gate, so the process knows its machine from then on, and as long as it does
  not forget, a query passes the gate with questions only. What goes to the message register in a refresh is
  then the number of a message that it asks for (`Asked.sends`): one that feeds a gauge and was not settled.
  Nothing is ever unsettled (`settled_grows`), and a process that gave up reaches no device (`Heeds.moves`).
-/

import FirmwareMailbox.Proofs.Session.Confinement
import FirmwareMailbox.Proofs.Session.GivingUp
import FirmwareMailbox.Proofs.Telemetry.Gauges

namespace FirmwareMailbox

variable {μ : Type} {M : Machine μ}

/-- A message that only reads. -/
def MessageId.IsGet (m : MessageId) : Prop := "GET_".toList <+: m.name.toList

instance (m : MessageId) : Decidable m.IsGet := inferInstanceAs (Decidable ("GET_".toList <+: m.name.toList))

theorem MessageId.number_injective {m m' : MessageId} (h : m.number = m'.number) : m = m' := by
  cases m <;> cases m' <;> first | rfl | cases h

/-- To put a question to the process is to store no word. -/
theorem Request.not_isStore_of_isQuestion {q : Request} (h : q.isQuestion = true) : ¬ q.isStore := by
  rintro ⟨d, a, -, n, rfl⟩
  cases h

/-- A delivery writes the number of its message to the message register, and no other. -/
theorem Session.deliver_sends (s : Session) (inv : Inventory) (socket : Nat) (m : Message) :
    Program.Always (Sends fun _ _ n => n = m.id.number) (s.deliver inv socket m).run :=
  (Sends.closed _).job_bind ((Sends.closed _).done _) fun _ => Message.exchange_sends _ _ m _

namespace World

variable {s : Session} {w u : World μ} {es : List Event} {inv : Inventory}

/-- So does an exchange of a process that knows its machine, and the machine stays known. -/
theorem exchange_known {socket : Nat} {m : Message} {r : Except Error (List UInt32)}
    (hi : w.memory.inventory = some inv) (h : Runs M (s.exchange socket m) w es r u) :
    Sends (fun _ _ n => n = m.id.number) es ∧ u.memory.inventory = some inv := by
  have hquiet : ∀ {gs : List Event}, (∀ y ∈ gs, y.request.isQuestion = true) →
      Sends (fun _ _ n => n = m.id.number) gs :=
    fun hg => .quiet fun y hy => Request.not_isStore_of_isQuestion (hg y hy)
  rcases runs_bind.mp h with ⟨e, -, hg⟩ | ⟨gs, fs, inv', v, rfl, hg, hd⟩
  · obtain ⟨rfl, hq, -⟩ := runs_gate_asks hi hg
    exact ⟨hquiet hq, hi⟩
  · obtain ⟨rfl, hq, -⟩ := runs_gate_asks hi hg
    have hsends := s.deliver_sends inv' socket m _ _ hd.yields
    refine ⟨(hquiet hq).append hsends ?_ ?_, (inventory_deliver hd).trans hi⟩
    · exact fun _ _ _ hn => hn
    · exact fun _ _ _ hn => hn

/-- Whatever a process does, it heeds that it gave up. -/
theorem Heeds.moves (ms : List (Move μ)) (w : World μ) : Heeds w (trace M ms w) (World.after M ms w) := by
  refine Heeds.composes.moves Heeds.gate Heeds.exchange ?_ ?_ ?_ ms w
  · exact fun w => .of_request w rfl
  · exact fun w => .of_request w rfl
  · exact fun w m => .of_quiet (by simp) (by simp)

end World

/-- Queries of a process that knows its machine send their messages and no others. -/
theorem Asked.sends {s : Session} {w u : World μ} {qs : List Query} {inv : Inventory} (h : Asked M s w qs u)
    (hi : w.memory.inventory = some inv) :
    Sends (fun _ _ n => ∃ q ∈ qs, n = q.message.number) (qs.flatMap (·.events)) := by
  induction h with
  | nil => exact .quiet (by simp)
  | @cons w u v q qs hq _ ih =>
    obtain ⟨hsend, hu⟩ := World.exchange_known hi hq
    rw [List.flatMap_cons]
    refine hsend.append (ih hu) (fun _ _ n hn => ⟨q, List.mem_cons_self .., hn⟩) fun _ _ n hn => ?_
    obtain ⟨x, hx, hn⟩ := hn
    exact ⟨x, List.mem_cons_of_mem q hx, hn⟩

namespace Exporter

variable {e : Exporter} {w : World μ} {inv : Inventory} {rounds : List (List Query)}

/-- The messages that an exporter still asks for. -/
def Wants (e : Exporter) (m : MessageId) : Prop := m ∈ Metric.messages ∧ m ∉ e.settled

/-- A refresh asks for these and no others. -/
theorem Collected.wants (h : Collected M e w rounds) {q : Query} (hq : q ∈ rounds.flatten) :
    e.Wants q.message := by
  obtain ⟨qs, hqs, hq⟩ := List.mem_flatten.mp hq
  cases hw : w.memory.disabled with
  | true =>
    rw [h.refused hw] at hqs
    cases hqs
  | false =>
    -- the query is of some round, and the round of some message
    have hrounds := h.rounds hw
    obtain ⟨i, hi, rfl⟩ := List.getElem_of_mem hqs
    have hi' := Nat.lt_of_lt_of_eq hi hrounds.length_eq.symm
    have hm := (hrounds.get hi' hi).message q hq
    have hmem := List.getElem_mem hi'
    rw [List.get_eq_getElem] at hm
    rw [← hm, List.mem_filter] at hmem
    exact ⟨hmem.1, by simpa using hmem.2⟩

theorem Collected.sends (h : Collected M e w rounds) (hi : w.memory.inventory = some inv) :
    Sends (fun _ _ n => ∃ m, e.Wants m ∧ n = m.number) (Program.transcript (World.answer M) e.refresh w) := by
  have hasks : Sends (fun _ _ n => ∃ m, e.Wants m ∧ n = m.number) (rounds.flatten.flatMap (·.events)) :=
    (h.asked.sends hi).mono fun _ _ n _ _ hn => by
      obtain ⟨q, hq, hn⟩ := hn
      exact ⟨q.message, h.wants hq, hn⟩
  have hfirst : Sends (fun _ _ _ => False) [(⟨.isDisabled, w.memory.disabled⟩ : Event)] :=
    .quiet (by simp [Request.isStore])
  rw [h.events]
  exact hfirst.append hasks (fun _ _ _ h => h.elim) fun _ _ _ hn => hn

/-! ## Over all refreshes -/

variable {e₀ : Exporter} {turns rest : List (Turn μ)}

theorem after_append (e : Exporter) (w : World μ) : after M (turns ++ rest) e w =
    after M rest (after M turns e w) (World.after M (moves M turns e w) w) := by
  induction turns generalizing e w with
  | nil => rfl
  | cons t turns ih => exact ih _ _

/-- What is settled stays settled. -/
theorem settled_grows {m : MessageId} (hm : m ∈ e.settled) : m ∈ (after M turns e w).settled := by
  induction turns generalizing e w with
  | nil => exact hm
  | cons t turns ih =>
    refine ih ?_
    cases t with
    | other m' => exact hm
    | collect =>
      obtain ⟨rounds, h⟩ := exists_collected M e w
      show m ∈ (Program.run (World.answer M) e.refresh w).1.settled
      rw [h.exporter, mem_foldl_hear_settled]
      exact .inl hm

/-- A machine that is known stays known to a process that does not forget it. -/
theorem known_after (hturns : ∀ s, Turn.other (.step s .forget) ∉ turns) (hi : w.memory.inventory = some inv) :
    (World.after M (moves M turns e w) w).memory.inventory = some inv := by
  induction turns generalizing e w with
  | nil => exact hi
  | cons t turns ih =>
    have hmove : ∀ s, t.move e ≠ .step s .forget := by
      intro s hs
      cases t with
      | collect => cases hs
      | other m => exact hturns s (hs ▸ List.mem_cons_self ..)
    have hrest : ∀ s, Turn.other (.step s .forget) ∉ turns := fun s hs => hturns s (List.mem_cons_of_mem t hs)
    exact ih hrest ((World.Remembers.move hmove w).keeps inv hi)

/-- An exporter is made when the machine is known. -/
theorem known_of_ofSession {s : Session} {u : World μ} (h : World.run M (ofSession s) w = (.ok e, u)) :
    ∃ inv, u.memory.inventory = some inv := by
  have hruns : World.Runs M (ofSession s) w _ (.ok e) u := ⟨h, rfl⟩
  obtain ⟨_, _, inv, v, -, hg, hp⟩ := World.runs_bind_ok.mp hruns
  obtain ⟨-, -, rfl⟩ := World.runs_pure.mp hp
  exact ⟨inv, (Session.gate_ok hg).1⟩

/-- On any machine, for an exporter that was made for a session and whatever its process does from then on but
    forget the machine. The next refresh goes through the messages that feed a gauge and are not settled,
    which all read, in order and in one round each, unless the process gave up; it settles those that turn out
    not to be there and no others. It sends none but these. What was settled at any time is settled still and
    not sent. And from where the process gives up, in the middle of a refresh or not, it reaches no device. -/
theorem refreshes_are_orderly (M : Machine μ) (s : Session) (w₀ w : World μ) (e₀ : Exporter)
    (hnew : World.run M (ofSession s) w₀ = (.ok e₀, w)) (turns : List (Turn μ))
    (hturns : ∀ s, Turn.other (.step s .forget) ∉ turns) :
    let e := after M turns e₀ w
    let u := World.after M (moves M turns e₀ w) w
    let es := Program.transcript (World.answer M) e.refresh u
    (Metric.messages.Nodup ∧ ∀ m ∈ Metric.messages, m.IsGet) ∧
    (∃ rounds, Collected M e u rounds ∧ ∀ m, m ∈ (Turn.collect.exporter M e u).settled ↔
      m ∈ e.settled ∨ ∃ q ∈ rounds.flatten, q.message = m ∧ q.settles = true) ∧
    Sends (fun _ _ n => ∃ m, e.Wants m ∧ n = m.number) es ∧
    (∀ before, before <+: turns → ∀ m ∈ (after M before e₀ w).settled,
      m ∈ e.settled ∧ Sends (fun _ _ n => n ≠ m.number) es) ∧
    World.Heeds w (World.trace M (moves M (turns ++ [.collect]) e₀ w) w)
      (World.after M (moves M (turns ++ [.collect]) e₀ w) w) := by
  intro e u es
  obtain ⟨inv, hi⟩ := known_of_ofSession hnew
  obtain ⟨rounds, hr⟩ := exists_collected M e u
  have hsends : Sends (fun _ _ n => ∃ m, e.Wants m ∧ n = m.number) es := hr.sends (known_after hturns hi)
  refine ⟨⟨by decide, by decide⟩, ⟨rounds, hr, fun m => ?_⟩, hsends, fun before hbefore m hm => ?_, .moves _ w⟩
  · show m ∈ (Program.run (World.answer M) e.refresh u).1.settled ↔ _
    rw [hr.exporter, mem_foldl_hear_settled]
  · have hsettled : m ∈ e.settled := by
      obtain ⟨rest, rfl⟩ := hbefore
      show m ∈ (after M (before ++ rest) e₀ w).settled
      rw [after_append]
      exact settled_grows hm
    refine ⟨hsettled, hsends.mono fun _ _ n _ _ hn hnm => ?_⟩
    obtain ⟨m', hwants, hn⟩ := hn
    obtain rfl := MessageId.number_injective (hn.symm.trans hnm)
    exact hwants.2 hsettled

/-- On firmware of version 2, the message that came with version 3 is settled in the first refresh and not sent
    in the second. -/
theorem dated_settles_bandwidth :
    let s : Session := ⟨Simulation.config⟩
    let e₀ : Exporter := { session := s, sockets := 2 }
    let e := after Simulation.machine [.collect] e₀ World.dated
    let u := World.after Simulation.machine (moves Simulation.machine [.collect] e₀ World.dated) World.dated
    World.run Simulation.machine (ofSession s) World.dated = (.ok e₀, World.dated) ∧
      e.settled = [.getDdrBandwidth] ∧
      Sends (fun _ _ n => n ≠ 20) (Program.transcript (World.answer Simulation.machine) e.refresh u) := by
  intro s e₀ e u
  have hnew : World.run Simulation.machine (ofSession s) World.dated = (.ok e₀, World.dated) := by
    have hgate : (World.run Simulation.machine (s.gate none) World.dated).1 =
        .ok ⟨⟨.amd, 0x19, 1, 1⟩, Topology.crossedTable, ⟨[]⟩, ⟨{}, 2⟩⟩ := by
      decide +kernel
    obtain ⟨hsame, -⟩ := World.gate_known (M := Simulation.machine) (w := World.dated) rfl s none
    exact World.run_bind_ok (Prod.ext hgate hsame)
  have hsettled : e.settled = [.getDdrBandwidth] := by decide +kernel
  have hmem : .getDdrBandwidth ∈ e.settled := by
    rw [hsettled]
    exact List.mem_singleton_self _
  obtain ⟨-, -, -, hskips, -⟩ := refreshes_are_orderly Simulation.machine s World.dated World.dated e₀ hnew
    [.collect] (by simp)
  exact ⟨hnew, hsettled, (hskips [.collect] (List.prefix_refl _) .getDdrBandwidth hmem).2⟩

end Exporter

end FirmwareMailbox
