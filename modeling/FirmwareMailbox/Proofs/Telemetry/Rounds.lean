/-
  FirmwareMailbox.Proofs.Telemetry.Rounds — what one refresh of an exporter asks, and in what order.

  A refresh asks message after message, each in a round: of one socket after the other, up to the first that
  shows that the firmware does not have the message (`Round`). It does nothing else, but for the question
  whether the process gave up (`Collected`), and the exporter that it ends in has heard these queries and
  nothing else. So whatever is to be said of a refresh is said of its queries.
-/

import FirmwareMailbox.Proofs.Telemetry.Readings
import Mathlib.Data.List.Forall2

namespace FirmwareMailbox

variable {μ : Type} {M : Machine μ}

/-- One query after the other, each an exchange that begins where the one before it ended. -/
inductive Asked (M : Machine μ) (s : Session) : World μ → List Query → World μ → Prop
  | nil (w : World μ) : Asked M s w [] w
  | cons {w u v : World μ} {q : Query} {qs : List Query} :
      World.Runs M (s.exchange q.socket (Exporter.question q.message)) w q.events q.result u →
      Asked M s u qs v → Asked M s w (q :: qs) v

theorem Asked.append {s : Session} {w u v : World μ} {qs rs : List Query} (h : Asked M s w qs u)
    (h' : Asked M s u rs v) : Asked M s w (qs ++ rs) v := by
  induction h with
  | nil => exact h'
  | cons hq _ ih => exact .cons hq (ih h')

/-- A message is asked of one socket after the other, from socket `i` on and of `n` at most. The first failure
    that shows that the firmware does not have the message ends the round, and nothing else does. -/
structure Round (m : MessageId) (i n : Nat) (qs : List Query) : Prop where
  message : ∀ q ∈ qs, q.message = m
  sockets : qs.map (·.socket) = List.range' i qs.length
  length_le : qs.length ≤ n
  goes_on : ∀ q ∈ qs.dropLast, q.settles = false
  ends : qs.length < n → ∃ q, qs.getLast? = some q ∧ q.settles = true

namespace Round

variable {m : MessageId} {i n : Nat} {q : Query} {qs : List Query}

theorem nil (m : MessageId) (i : Nat) : Round m i 0 [] :=
  ⟨by simp, rfl, Nat.le_refl 0, by simp, fun h => absurd h (Nat.lt_irrefl 0)⟩

theorem last (hm : q.message = m) (hi : q.socket = i) (hq : q.settles = true) : Round m i (n + 1) [q] :=
  ⟨by simp [hm], by simp [hi], by simp, by simp, fun _ => ⟨q, rfl, hq⟩⟩

theorem cons (hm : q.message = m) (hi : q.socket = i) (hq : q.settles = false) (h : Round m (i + 1) n qs) :
    Round m i (n + 1) (q :: qs) := by
  constructor
  · simpa [hm] using h.message
  · simp [hi, h.sockets, List.range'_succ]
  · simpa using h.length_le
  · intro x hx
    cases qs with
    | nil => cases hx
    | cons y ys =>
      rcases List.mem_cons.mp hx with rfl | hx
      · exact hq
      · exact h.goes_on x hx
  · intro hlt
    obtain ⟨x, hx, hs⟩ := h.ends (by simpa using hlt)
    exact ⟨x, by simp [List.getLast?_cons, hx], hs⟩

end Round

namespace Exporter

/-- The program does nothing but these queries, and ends in the exporter that heard them. -/
structure Refreshes (M : Machine μ) (p : Program Exporter) (e : Exporter) (w : World μ) (qs : List Query) :
    Prop where
  asked : Asked M e.session w qs (Program.run (World.answer M) p w).2
  events : Program.transcript (World.answer M) p w = qs.flatMap (·.events)
  exporter : (Program.run (World.answer M) p w).1 = qs.foldl hear e

variable {p : Program Exporter} {e : Exporter} {w : World μ} {m : MessageId} {qs rs : List Query}

namespace Refreshes

theorem done (e : Exporter) (w : World μ) : Refreshes M (.done e) e w [] := ⟨.nil w, rfl, rfl⟩

theorem bind {f : Exporter → Program Exporter} (h : Refreshes M p e w qs)
    (hf : Refreshes M (f (qs.foldl hear e)) (qs.foldl hear e) (Program.run (World.answer M) p w).2 rs) :
    Refreshes M (p.bind f) e w (qs ++ rs) := by
  have hasked := hf.asked
  rw [foldl_hear_session] at hasked
  constructor
  · rw [Program.run_bind, h.exporter]
    exact h.asked.append hasked
  · rw [Program.transcript_bind, h.exporter, h.events, hf.events, List.flatMap_append]
  · rw [Program.run_bind, h.exporter, hf.exporter, List.foldl_append]

/-- To ask a socket and go on from what came of it is a query and the queries that follow. -/
theorem ask {q : Query} {u : World μ} {f : Except Error (List (Metric × UInt32)) → Program Exporter}
    (hm : q.message ∈ Metric.messages)
    (hq : World.Runs M (e.session.exchange q.socket (question q.message)) w q.events q.result u)
    (hf : Refreshes M (f (q.result.map (readings q.message))) (e.hear q) u qs) :
    Refreshes M ((Exporter.ask e.session q.socket q.message).run.bind f) e w (q :: qs) := by
  obtain ⟨hr, ht⟩ := runs_ask hm hq
  change Program.run (World.answer M) (Exporter.ask e.session q.socket q.message).run w = _ at hr
  change Program.transcript (World.answer M) (Exporter.ask e.session q.socket q.message).run w = _ at ht
  have hasked := hf.asked
  rw [hear_session] at hasked
  constructor
  · rw [Program.run_bind, hr]
    exact .cons hq hasked
  · rw [Program.transcript_bind, hr, ht, hf.events, List.flatMap_cons]
  · rw [Program.run_bind, hr, hf.exporter, List.foldl_cons]

end Refreshes

/-- How a round goes on from what came of asking socket `i`. -/
def goOn (e : Exporter) (m : MessageId) (i n : Nat) : Except Error (List (Metric × UInt32)) → Program Exporter
  | .ok readings => refreshFrom (readings.foldl (fun e r => e.set i r) e) m (i + 1) n
  | .error failure =>
    if settles failure then .done { e with settled := m :: e.settled } else e.refreshFrom m (i + 1) n

theorem refreshFrom_succ (e : Exporter) (m : MessageId) (i n : Nat) :
    e.refreshFrom m i (n + 1) = (Exporter.ask e.session i m).run.bind (e.goOn m i n) := by
  refine congrArg (Exporter.ask e.session i m).run.bind (funext fun x => ?_)
  cases x <;> rfl

/-- It ends, or asks the next socket, with what it has heard. -/
theorem goOn_hear (e : Exporter) (q : Query) (n : Nat) :
    e.goOn q.message q.socket n (q.result.map (readings q.message)) =
      if q.settles then .done (e.hear q) else (e.hear q).refreshFrom q.message (q.socket + 1) n := by
  cases hq : q.result with
  | ok words =>
    have hs : q.settles = false := by rw [Query.settles, hq]
    rw [hs, hear_ok e q hq]
    rfl
  | error failure =>
    rw [hear_error e q hq]
    simp only [Except.map, goOn, settles_of_error q hq]
    split <;> rfl

/-- The sockets are asked in a round. -/
theorem refreshFrom_round (M : Machine μ) (hm : m ∈ Metric.messages) (e : Exporter) (w : World μ) (i n : Nat) :
    ∃ qs, Refreshes M (e.refreshFrom m i n) e w qs ∧ Round m i n qs := by
  induction n generalizing e w i with
  | zero => exact ⟨[], .done e w, .nil m i⟩
  | succ n ih =>
    let j := e.session.exchange i (question m)
    let q : Query := ⟨m, i, World.transcript M j w, (World.run M j w).1⟩
    have hq : World.Runs M j w q.events q.result (World.run M j w).2 := World.runs M j w
    have hrest := goOn_hear e q n
    rw [refreshFrom_succ]
    by_cases hs : q.settles = true
    · refine ⟨[q], .ask (q := q) hm hq ?_, .last rfl rfl hs⟩
      rw [hrest, if_pos hs]
      exact .done _ _
    · obtain ⟨qs, hqs, hround⟩ := ih (e.hear q) (World.run M j w).2 (i + 1)
      refine ⟨q :: qs, .ask (q := q) hm hq ?_, .cons rfl rfl (Bool.eq_false_iff.mpr hs) hround⟩
      rw [hrest, if_neg hs]
      exact hqs

/-- A round settles no other message than its own. -/
theorem settled_of_round {i n : Nat} (h : Round m i n qs) (e : Exporter) {x : MessageId} (hx : x ≠ m) :
    x ∈ (qs.foldl hear e).settled ↔ x ∈ e.settled := by
  rw [mem_foldl_hear_settled, or_iff_left]
  rintro ⟨q, hq, rfl, -⟩
  exact hx (h.message q hq)

/-- The messages that are not settled are asked in one round each, in order. -/
theorem refreshMessages_rounds (M : Machine μ) {ms : List MessageId} (hms : ∀ m ∈ ms, m ∈ Metric.messages)
    (hd : ms.Nodup) (e : Exporter) (w : World μ) :
    ∃ rounds : List (List Query), Refreshes M (e.refreshMessages ms) e w rounds.flatten ∧
      List.Forall₂ (fun m qs => Round m 0 e.sockets qs) (ms.filter (· ∉ e.settled)) rounds := by
  induction ms generalizing e w with
  | nil => exact ⟨[], .done e w, .nil⟩
  | cons m ms ih =>
    have hrest : ∀ m ∈ ms, m ∈ Metric.messages := fun x hx => hms x (List.mem_cons_of_mem m hx)
    obtain ⟨hnot, hd⟩ := List.nodup_cons.mp hd
    by_cases hm : m ∈ e.settled
    · obtain ⟨rounds, hr, hrounds⟩ := ih hrest hd e w
      refine ⟨rounds, ?_, ?_⟩
      · rwa [refreshMessages, if_pos hm]
      · rwa [List.filter_cons_of_neg (by simpa using hm)]
    · obtain ⟨qs, hqs, hround⟩ := refreshFrom_round M (hms m (List.mem_cons_self ..)) e w 0 e.sockets
      obtain ⟨rounds, hr, hrounds⟩ := ih hrest hd (qs.foldl hear e) _
      refine ⟨qs :: rounds, ?_, ?_⟩
      · rw [refreshMessages, if_neg hm]
        exact hqs.bind hr
      · rw [List.filter_cons_of_pos (by simpa using hm)]
        -- so the rest of the list is what it would have been without this round
        have hsame : ms.filter (· ∉ (qs.foldl hear e).settled) = ms.filter (· ∉ e.settled) := by
          refine List.filter_congr fun x hx => ?_
          have hne : x ≠ m := fun h => hnot (h ▸ hx)
          simp only [settled_of_round hround e hne]
        rw [hsame, foldl_hear_sockets] at hrounds
        exact .cons hround hrounds

/-! ## A refresh -/

/-- What happens when an exporter is refreshed, and what it has then. -/
structure Collected (M : Machine μ) (e : Exporter) (w : World μ) (rounds : List (List Query)) : Prop where
  asked : Asked M e.session w rounds.flatten (Program.run (World.answer M) e.refresh w).2
  events : Program.transcript (World.answer M) e.refresh w =
    ⟨.isDisabled, w.memory.disabled⟩ :: rounds.flatten.flatMap (·.events)
  exporter : (Program.run (World.answer M) e.refresh w).1 = rounds.flatten.foldl hear e
  /-- A process that gave up asks for nothing. -/
  refused : w.memory.disabled = true → rounds = []
  /-- Any other asks every socket for every message that is not settled, in order. -/
  rounds : w.memory.disabled = false → List.Forall₂ (fun m qs => Round m 0 e.sockets qs)
    (Metric.messages.filter (· ∉ e.settled)) rounds

theorem exists_collected (M : Machine μ) (e : Exporter) (w : World μ) : ∃ rounds, Collected M e w rounds := by
  have hevents : Program.transcript (World.answer M) e.refresh w = ⟨.isDisabled, w.memory.disabled⟩ ::
      Program.transcript (World.answer M)
        (if w.memory.disabled = true then .done e else e.refreshMessages Metric.messages) w := rfl
  have hrun : Program.run (World.answer M) e.refresh w = Program.run (World.answer M)
      (if w.memory.disabled = true then .done e else e.refreshMessages Metric.messages) w := rfl
  cases hw : w.memory.disabled with
  | true =>
    rw [hw] at hevents hrun
    exact ⟨[], by rw [hrun]; exact .nil w, by rw [hevents, hw]; rfl, by rw [hrun]; rfl, fun _ => rfl,
      fun h => absurd h (by simp [hw])⟩
  | false =>
    obtain ⟨rounds, hr, hrounds⟩ := refreshMessages_rounds M (fun _ h => h) (by decide) e w
    rw [hw] at hevents hrun
    exact ⟨rounds, by rw [hrun]; exact hr.asked, by rw [hevents, hw]; exact congrArg _ hr.events,
      by rw [hrun]; exact hr.exporter, fun h => absurd h (by simp [hw]), fun _ => hrounds⟩

end Exporter

end FirmwareMailbox
