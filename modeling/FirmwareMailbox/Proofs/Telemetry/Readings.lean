/-
  FirmwareMailbox.Proofs.Telemetry.Readings — what an exporter asks a socket, and what it keeps of the answer.

  To ask a socket for a message is to exchange it once (`ask_eq`). What came of an exchange is a query; a
  response has a reading for each gauge that its message feeds and for no other (`readings`), and to hear a
  query is to set these gauges of its socket, to settle its message, or to do nothing (`hear`). So after any
  queries a gauge has the field of the last response to its message from its socket (`foldl_hear_gauge`).
-/

import FirmwareMailbox.Proofs.Machine.Series
import FirmwareMailbox.Proofs.Message.Transaction
import FirmwareMailbox.Proofs.Session.Errand

namespace FirmwareMailbox

namespace Metric

/-- What a response has for a gauge, as a number. Words that are not there count as 0. -/
def field (g : Metric) (words : List UInt32) : Nat :=
  match g with
  | socketPower | powerLimit | maxPowerLimit | fabricClock | coreClockLimit | activePercent =>
    (words.getD 0 0).toNat
  | memoryClock => (words.getD 1 0).toNat
  | procHot => if words.getD 0 0 = 0 then 0 else 1
  | ddrMax => (words.getD 0 0).toNat / 0x100000
  | ddrUsed => (words.getD 0 0).toNat / 0x100 % 0x1000
  | ddrUsedPercent => (words.getD 0 0).toNat % 0x100

/-- It fits a gauge. -/
theorem field_lt (g : Metric) (words : List UInt32) : g.field words < UInt32.size := by
  have h0 := (words.getD 0 0).toNat_lt_size
  have h1 := (words.getD 1 0).toNat_lt_size
  cases g
  case procHot => simp only [field]; split <;> decide
  all_goals simp only [field]; omega

end Metric

/-- A message that was sent to a socket, with what happened and what came of it. -/
structure Query where
  message : MessageId
  socket : Nat
  events : List Event
  result : Except Error (List UInt32)

namespace Query

/-- The response, if the query has one and is for this message from this socket. -/
def response? (q : Query) (m : MessageId) (socket : Nat) : Option (List UInt32) :=
  if q.message = m ∧ q.socket = socket then q.result.toOption else none

/-- It shows that the message is not to be had: the interface version does not have it, or the firmware
    rejected it. -/
def settles (q : Query) : Bool :=
  match q.result with
  | .error (.versionMismatch ..) | .error (.firmwareRejected _) => true
  | _ => false

end Query

/-- The last response to a message from a socket. -/
def lastResponse (qs : List Query) (m : MessageId) (socket : Nat) : Option (List UInt32) :=
  (qs.filterMap (·.response? m socket)).getLast?

/-- Of a query and what follows it, what follows counts first. -/
theorem lastResponse_cons (q : Query) (qs : List Query) (m : MessageId) (socket : Nat) :
    lastResponse (q :: qs) m socket = (lastResponse qs m socket).or (q.response? m socket) := by
  unfold lastResponse
  cases hq : q.response? m socket with
  | none => simp [hq]
  | some words =>
    cases hl : (qs.filterMap (·.response? m socket)).getLast? <;> simp [hq, List.getLast?_cons, hl]

namespace Exporter

variable {μ : Type} {M : Machine μ} {m : MessageId} {words : List UInt32}

/-- The message as an exporter sends it. -/
def question (m : MessageId) : Message := { id := m, responseLength := m.responseCount }

/-- The gauges that a response feeds, with their readings. -/
def readings (m : MessageId) (words : List UInt32) : List (Metric × UInt32) :=
  (Metric.all.filter (·.message = m)).map fun g => (g, UInt32.ofNat (g.field words))

/-- The readings of a response, unless a word is missing. -/
def decode (m : MessageId) (words : List UInt32) : Except Error (List (Metric × UInt32)) :=
  if words.length < m.responseCount then .error (.outOfBounds words.length) else .ok (readings m words)

/-- The fields that are packed in one word. -/
theorem readings_getDdrBandwidth (w : UInt32) (ws : List UInt32) :
    let b : DdrBandwidth := Layout.decode w
    readings .getDdrBandwidth (w :: ws) =
      [(.ddrMax, b.maxGbps), (.ddrUsed, b.usedGbps), (.ddrUsedPercent, b.usedPercent)] := by
  have hw := w.toNat_lt
  have hmax : UInt32.ofNat (w.toNat / 0x100000) = w >>> 20 := by
    refine UInt32.toNat_inj.mp ?_
    rw [UInt32.toNat_ofNat', UInt32.toNat_shiftRight, Nat.shiftRight_eq_div_pow]
    show w.toNat / 0x100000 % 2 ^ 32 = w.toNat / 0x100000
    omega
  have hused : UInt32.ofNat (w.toNat / 0x100 % 0x1000) = (w >>> 8) &&& 0xFFF := by
    refine UInt32.toNat_inj.mp ?_
    rw [UInt32.toNat_ofNat', UInt32.toNat_and, UInt32.toNat_shiftRight, Nat.shiftRight_eq_div_pow]
    show w.toNat / 0x100 % 0x1000 % 2 ^ 32 = w.toNat / 0x100 &&& (2 ^ 12 - 1)
    rw [Nat.and_two_pow_sub_one_eq_mod]
    omega
  have hpercent : UInt32.ofNat (w.toNat % 0x100) = w &&& 0xFF := by
    refine UInt32.toNat_inj.mp ?_
    rw [UInt32.toNat_ofNat', UInt32.toNat_and]
    show w.toNat % 0x100 % 2 ^ 32 = w.toNat &&& (2 ^ 8 - 1)
    rw [Nat.and_two_pow_sub_one_eq_mod]
    omega
  show [(Metric.ddrMax, UInt32.ofNat (w.toNat / 0x100000)),
    (Metric.ddrUsed, UInt32.ofNat (w.toNat / 0x100 % 0x1000)),
    (Metric.ddrUsedPercent, UInt32.ofNat (w.toNat % 0x100))] = _
  rw [hmax, hused, hpercent]
  rfl

example : readings .getDdrBandwidth [0xFFFABC64] = [(.ddrMax, 0xFFF), (.ddrUsed, 0xABC), (.ddrUsedPercent, 100)] := by
  decide

theorem decode_cons (hr : m.responseCount = 1) (w : UInt32) (ws : List UInt32) :
    decode m (w :: ws) = .ok (readings m (w :: ws)) :=
  if_neg (by simp [hr])

/-- A message that answers one word is sent to read that word. -/
theorem readWord_eq (hr : m.responseCount = 1) {f : UInt32 → List (Metric × UInt32)}
    (hf : ∀ w ws, readings m (w :: ws) = f w) (s : Session) (socket : Nat) : (do
      let w ← s.readWord socket m
      return f w) = s.exchange socket (question m) >>= fun words => liftM (decode m words) := by
  rw [Session.readWord, bind_assoc, question, hr]
  refine congrArg (s.exchange socket _ >>= ·) (funext fun words => ?_)
  cases words with
  | nil =>
    have hd : decode m [] = .error (.outOfBounds 0) := if_pos (by simp [hr])
    rw [hd]
    rfl
  | cons w ws =>
    rw [decode_cons hr, hf]
    rfl

/-- To ask a socket for a message that feeds a gauge is to exchange it once. -/
theorem ask_eq (hm : m ∈ Metric.messages) (s : Session) (socket : Nat) :
    ask s socket m = s.exchange socket (question m) >>= fun words => liftM (decode m words) := by
  cases m
  case getFclkMclk =>
    simp only [ask, Session.fabricClocks, bind_assoc]
    refine congrArg (s.exchange socket (question .getFclkMclk) >>= ·) (funext fun words => ?_)
    rcases words with _ | ⟨w, _ | ⟨w', ws⟩⟩
    · rfl
    · rfl
    · have hd : decode .getFclkMclk (w :: w' :: ws) = .ok [(.fabricClock, w), (.memoryClock, w')] := by
        simp [decode, MessageId.responseCount, readings, Metric.all, Metric.message, Metric.field]
      rw [hd]
      rfl
  case getDdrBandwidth =>
    simp only [ask, Session.ddrBandwidth, bind_assoc, pure_bind]
    exact readWord_eq rfl readings_getDdrBandwidth s socket
  case getProcHot =>
    simp only [ask, Session.procHot, bind_assoc, pure_bind]
    refine readWord_eq rfl (fun w ws => ?_) s socket
    by_cases hw : w = 0 <;> simp [readings, Metric.all, Metric.message, Metric.field, hw]
  case getSocketPower | getSocketPowerLimit | getSocketPowerLimitMax | getCclkThrottleLimit | getC0Percent =>
    exact readWord_eq rfl (fun w ws => by simp [readings, Metric.all, Metric.message, Metric.field]) s socket
  all_goals exact absurd hm (by decide)

/-- A response is as long as was asked for. -/
theorem length_of_runs {s : Session} {socket : Nat} {w u : World μ} {es : List Event}
    (h : World.Runs M (s.exchange socket (question m)) w es (.ok words) u) :
    words.length = m.responseCount := by
  obtain ⟨_, _, inv, v, -, -, hd⟩ := World.runs_bind_ok.mp h
  obtain ⟨tile, -, hx⟩ := World.runs_lift_bind_ok.mp hd
  exact Message.length_of_yields hx.yields

/-- So what comes of asking are the readings of the response, or the failure of the exchange. -/
theorem runs_ask {s : Session} {socket : Nat} {w u : World μ} {es : List Event}
    {x : Except Error (List UInt32)} (hm : m ∈ Metric.messages)
    (h : World.Runs M (s.exchange socket (question m)) w es x u) :
    World.Runs M (ask s socket m) w es (x.map (readings m)) u := by
  have hdecode : x >>= decode m = x.map (readings m) := by
    cases x with
    | error e => rfl
    | ok words => exact if_neg (Nat.not_lt.mpr (Nat.le_of_eq (length_of_runs h).symm))
  rw [ask_eq hm, ← hdecode]
  exact Series.runs_check h

/-! ## What is kept -/

/-- What an exporter makes of a query. -/
def hear (e : Exporter) (q : Query) : Exporter :=
  match q.result with
  | .ok words => { e with gauge := fun g socket =>
      if g.message = q.message ∧ socket = q.socket then UInt32.ofNat (g.field words) else e.gauge g socket }
  | .error _ => if q.settles then { e with settled := q.message :: e.settled } else e

variable (e : Exporter) (q : Query) (qs : List Query)

/-- Readings change the gauges that they are for and nothing else. -/
theorem foldl_set (socket : Nat) (f : Metric → UInt32) (gs : List Metric) :
    (gs.map fun g => (g, f g)).foldl (fun e r => e.set socket r) e =
      { e with gauge := fun g i => if g ∈ gs ∧ i = socket then f g else e.gauge g i } := by
  induction gs generalizing e with
  | nil => simp
  | cons a gs ih =>
    rw [List.map_cons, List.foldl_cons, ih]
    simp only [set, Exporter.mk.injEq, true_and, and_true]
    funext g i
    by_cases hi : i = socket
    · by_cases ha : g = a <;> simp [hi, ha]
    · simp [hi]

theorem hear_ok {words : List UInt32} (h : q.result = .ok words) :
    e.hear q = (readings q.message words).foldl (fun e r => e.set q.socket r) e := by
  have hall : ∀ g, g ∈ Metric.all := by
    intro g
    cases g <;> decide
  rw [readings, foldl_set, hear, h]
  simp [hall]

theorem hear_error {failure : Error} (h : q.result = .error failure) :
    e.hear q = if q.settles then { e with settled := q.message :: e.settled } else e := by
  rw [hear, h]

/-- These are the failures after which an exporter settles a message. -/
theorem settles_of_error {failure : Error} (h : q.result = .error failure) : settles failure = q.settles := by
  rw [Query.settles, h]
  cases failure <;> rfl

@[simp] theorem hear_session : (e.hear q).session = e.session := by
  unfold hear
  repeat' split
  all_goals rfl

@[simp] theorem hear_sockets : (e.hear q).sockets = e.sockets := by
  unfold hear
  repeat' split
  all_goals rfl

theorem hear_settled : (e.hear q).settled = if q.settles then q.message :: e.settled else e.settled := by
  cases hq : q.result with
  | ok words =>
    have hs : q.settles = false := by rw [Query.settles, hq]
    rw [hear, hq, hs]
    rfl
  | error failure =>
    rw [hear_error e q hq]
    split <;> rfl

/-- A response sets the gauges of its message and its socket; nothing else sets a gauge. -/
theorem hear_gauge (g : Metric) (socket : Nat) : ((e.hear q).gauge g socket).toNat =
    (q.response? g.message socket).elim (e.gauge g socket).toNat g.field := by
  unfold hear Query.response?
  cases q.result with
  | error failure =>
    have hnone : (if q.message = g.message ∧ q.socket = socket then
        (Except.error failure : Except Error (List UInt32)).toOption else none) = none := ite_self _
    rw [hnone]
    dsimp only
    split <;> rfl
  | ok words =>
    have hfield : (UInt32.ofNat (g.field words)).toNat = g.field words := by
      rw [UInt32.toNat_ofNat', Nat.mod_eq_of_lt (g.field_lt words)]
    by_cases h : q.message = g.message ∧ q.socket = socket
    · simp [h, hfield, Except.toOption]
    · have h' : ¬ (g.message = q.message ∧ socket = q.socket) := fun h' => h ⟨h'.1.symm, h'.2.symm⟩
      simp [h, h']

theorem foldl_hear_session : (qs.foldl hear e).session = e.session := by
  induction qs generalizing e with
  | nil => rfl
  | cons q qs ih => rw [List.foldl_cons, ih, hear_session]

theorem foldl_hear_sockets : (qs.foldl hear e).sockets = e.sockets := by
  induction qs generalizing e with
  | nil => rfl
  | cons q qs ih => rw [List.foldl_cons, ih, hear_sockets]

theorem mem_foldl_hear_settled {m : MessageId} : m ∈ (qs.foldl hear e).settled ↔
    m ∈ e.settled ∨ ∃ q ∈ qs, q.message = m ∧ q.settles = true := by
  induction qs generalizing e with
  | nil => simp
  | cons q qs ih =>
    rw [List.foldl_cons, ih, hear_settled]
    by_cases hq : q.settles = true
    · rw [if_pos hq, List.mem_cons, eq_comm]
      simp [hq, or_assoc, or_left_comm]
    · simp [hq]

/-- After any queries, a gauge has what the last response to its message from its socket has for it. -/
theorem foldl_hear_gauge (g : Metric) (socket : Nat) : ((qs.foldl hear e).gauge g socket).toNat =
    (lastResponse qs g.message socket).elim (e.gauge g socket).toNat g.field := by
  induction qs generalizing e with
  | nil => rfl
  | cons q qs ih =>
    rw [List.foldl_cons, ih, hear_gauge, lastResponse_cons]
    cases lastResponse qs g.message socket with
    | none => rfl
    | some words => rfl

end Exporter

end FirmwareMailbox
