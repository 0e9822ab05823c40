/-
  FirmwareMailbox.Proofs.Simulation.Boosting — every CPU reads the boost limit that was set for it last.

  Three operations set boost limits, for one CPU, for a socket and for all sockets, and they overlap
  (`Operation.boosts`). The limit of a CPU is kept by the firmware behind its socket under its APIC ID
  (`boostLimit?`). A limit and an APIC ID share one word; the driver never sends a limit of more than 16 bits,
  so what the firmware takes out of the word is the CPU that was meant and the limit, cut to 0xFFFF.

  An operation that sets the limit of a CPU changes it to that, and any other operation leaves it alone
  (`Became.boost`). By induction over the operations, a CPU has the last of the limits that were set for
  it, and the one it began with if there was none.
-/

import FirmwareMailbox.Proofs.Simulation.Changing

namespace FirmwareMailbox

/-! ## In one word -/

/-- The limit is the low half of the word. -/
theorem encode_boostLimit_limit (b : BoostLimit) :
    (Layout.encode b : UInt32) &&& 0xFFFF = b.limitMhz.toUInt32 := by
  refine UInt32.toNat_inj.mp ?_
  show ((b.apicId.toUInt32 <<< 16 ||| b.limitMhz.toUInt32) &&& 0xFFFF : UInt32).toNat = _
  have ha := b.apicId.toNat_lt
  have hl := b.limitMhz.toNat_lt
  have hmask : (0xFFFF : UInt32).toNat = 2 ^ 16 - 1 := rfl
  have hhigh : b.apicId.toNat <<< 16 % 2 ^ 32 % 2 ^ 16 = 0 := by
    rw [Nat.shiftLeft_eq]
    omega
  rw [UInt32.toNat_and, UInt32.toNat_or, hmask, Nat.and_two_pow_sub_one_eq_mod, Nat.or_mod_two_pow]
  simp only [UInt32.toNat_shiftLeft, UInt16.toNat_toUInt32]
  show b.apicId.toNat <<< 16 % 2 ^ 32 % 2 ^ 16 ||| b.limitMhz.toNat % 2 ^ 16 = _
  rw [hhigh, Nat.zero_or, Nat.mod_eq_of_lt hl]

/-- A limit travels as it is, or as the highest that 16 bits hold. -/
theorem toUInt32_saturate (mhz : UInt32) : (Session.saturate mhz).toUInt32 = min mhz 0xFFFF := by
  unfold Session.saturate
  by_cases h : mhz > 0xFFFF
  · rw [if_pos h]
    exact (if_neg (UInt32.not_le.mpr h)).symm
  · have hle := UInt32.not_lt.mp h
    rw [if_neg h]
    exact (Simulation.Site.toUInt16_toUInt32 hle).trans (if_pos hle).symm

/-- A limit by itself is a low half with nothing above it. -/
theorem saturate_masked (mhz : UInt32) : (Session.saturate mhz).toUInt32 &&& 0xFFFF = min mhz 0xFFFF := by
  rw [← toUInt32_saturate]
  refine UInt32.toNat_inj.mp ?_
  have hl := (Session.saturate mhz).toNat_lt
  have hmask : (0xFFFF : UInt32).toNat = 2 ^ 16 - 1 := rfl
  rw [UInt32.toNat_and, hmask, Nat.and_two_pow_sub_one_eq_mod, UInt16.toNat_toUInt32, Nat.mod_eq_of_lt hl]

namespace Firmware

variable {f f' : Firmware} {arg : UInt32} {id : MessageId} {ws : List UInt32}

/-- Two messages change boost limits. -/
theorem perform_limits (h : f.perform arg id = .ok (ws, f')) (hcpu : id ≠ .setBoostLimit)
    (hsocket : id ≠ .setBoostLimitSocket) : f'.boostLimits = f.boostLimits := by
  cases id
  case setBoostLimit => exact absurd rfl hcpu
  case setBoostLimitSocket => exact absurd rfl hsocket
  case getBoostLimit | setXgmiLinkWidth | setDfPstate | setNbioDpmLevel =>
    simp only [perform] at h
    split at h <;> cases h
    rfl
  all_goals
    cases h
    rfl

/-- The one for a CPU changes the limit of its APIC ID. -/
theorem perform_setBoostLimit {b : BoostLimit} (h : f.perform (Layout.encode b) .setBoostLimit = .ok (ws, f'))
    (k : UInt32) : f'.boostLimits.at? k =
      if k = b.apicId.toUInt32 then some b.limitMhz.toUInt32 else f.boostLimits.at? k := by
  simp only [perform, Simulation.Site.encode_boostLimit_apicId, encode_boostLimit_limit] at h
  split at h <;> cases h
  exact WordMap.at?_insert _ k _ _

/-- The one for a socket changes all of them. -/
theorem perform_setBoostLimitSocket (h : f.perform arg .setBoostLimitSocket = .ok (ws, f')) (k : UInt32) :
    f'.boostLimits.at? k = (f.boostLimits.at? k).map fun _ => arg &&& 0xFFFF := by
  cases h
  exact WordMap.at?_map (fun _ => arg &&& 0xFFFF) k f.boostLimits

end Firmware

/-! ## Whose limit -/

theorem CpuEntry.eq_iff {e e' : CpuEntry} : e' = e ↔ e.socket = e'.socket ∧ e.apicId = e'.apicId := by
  constructor
  · intro h
    subst h
    exact ⟨rfl, rfl⟩
  · intro ⟨hs, ha⟩
    cases e
    cases e'
    cases hs
    cases ha
    rfl

/-- The CPU has this entry, and a boost message can name it to its socket. -/
structure CpuTable.Names (cpus : CpuTable) (t : Topology) (cpu : Nat) (e : CpuEntry) : Prop where
  found : cpus.find? cpu = some e
  socket : e.socket < t.socketCount
  apicId : e.apicId ≤ 0xFFFF

theorem CpuTable.Names.not_misses {cpus : CpuTable} {t : Topology} {cpu : Nat} {e : CpuEntry}
    (h : cpus.Names t cpu e) : ¬ cpus.Misses t cpu := by
  intro hm
  rcases hm e h.found with ha | hs
  · exact absurd h.apicId (UInt32.not_le.mpr ha)
  · exact absurd h.socket (Nat.not_lt_of_le hs)

namespace Operation

/-- The boost limit that an operation sets for a CPU, before it is cut. -/
def boosts (cpus : CpuTable) (e : CpuEntry) : Operation → Option UInt32
  | .setCpuBoost cpu mhz => if cpus.find? cpu = some e then some mhz else none
  | .setSocketBoost n mhz => if e.socket = n then some mhz else none
  | .setSystemBoost mhz => some mhz
  | _ => none

variable {op : Operation} {cpus : CpuTable} {e : CpuEntry} {mhz : UInt32}

/-- An operation that sets the limit of a CPU has arguments for the machine, and every version has its
    message. -/
theorem works_of_boosts {p : Processor} {t : Topology} {cpu : Nat} (hc : cpus.Names t cpu e)
    (h : op.boosts cpus e = some mhz) :
    (∃ id, op.message? = some id ∧ id.minVersion = 1) ∧ ¬ op.Misused p t cpus := by
  cases op
  case setCpuBoost cpu' mhz' =>
    simp only [boosts] at h
    split at h
    · exact ⟨⟨_, rfl, rfl⟩, CpuTable.Names.not_misses ⟨‹_›, hc.socket, hc.apicId⟩⟩
    · cases h
  case setSocketBoost n mhz' =>
    simp only [boosts] at h
    split at h
    · rename_i hn
      exact ⟨⟨_, rfl, rfl⟩, Nat.not_le_of_lt (hn ▸ hc.socket)⟩
    · cases h
  case setSystemBoost mhz' => exact ⟨⟨_, rfl, rfl⟩, fun hP => hP⟩
  all_goals cases h

end Operation

namespace Simulation

/-- The boost limit that the settings `F` have for a CPU. -/
def boostLimit? (home : State) (t : Topology) (F : List Firmware) (e : CpuEntry) : Option UInt32 := do
  let i ← home.seat t e.socket
  let f ← F[i]?
  f.boostLimits.at? e.apicId

/-- What a session reads as the boost limit of a CPU. -/
def readBoost (s : Session) (w : World State) (cpu : Nat) : Except Error Answer :=
  (World.run machine ((Operation.cpuBoost cpu).perform s) w).1

/-- The limit that a CPU has after this one was set for it, if one was. -/
def cutLimit (l : UInt32) : Option UInt32 → UInt32
  | some mhz => min mhz 0xFFFF
  | none => l

section

variable {home : State} {t : Topology} {F : List Firmware} {e : CpuEntry} {n i : Nat} {f f' : Firmware}

theorem boostLimit?_seat (hi : home.seat t e.socket = some i) (hf : F[i]? = some f) :
    boostLimit? home t F e = f.boostLimits.at? e.apicId := by
  simp only [boostLimit?, hi, hf, Option.bind_eq_bind, Option.bind_some]

/-- In the seat of one socket are the limits of its CPUs and of no others. -/
theorem boostLimit?_set (hseated : home.Seated t) (hi : home.seat t n = some i) (hf : F[i]? = some f) :
    boostLimit? home t (F.set i f') e =
      if e.socket = n then f'.boostLimits.at? e.apicId else boostLimit? home t F e := by
  by_cases hn : e.socket = n
  · subst hn
    rw [if_pos rfl]
    exact boostLimit?_seat hi (List.getElem?_set_self (List.getElem?_eq_some_iff.mp hf).1)
  · rw [if_neg hn]
    cases hj : home.seat t e.socket with
    | none => simp only [boostLimit?, hj, Option.bind_eq_bind, Option.bind_none]
    | some j =>
      have hne : i ≠ j := by
        rintro rfl
        exact hn (hseated.apart hj hi)
      simp only [boostLimit?, hj, Option.bind_eq_bind, Option.bind_some, List.getElem?_set_ne hne]

/-- A change in all seats is a change of every limit. -/
theorem boostLimit?_adjust {g : Firmware → Firmware} (hn : e.socket < t.socketCount) :
    boostLimit? home t (adjust (home.seats t (List.range t.socketCount)) g F) e =
      boostLimit? home t (F.map g) e := by
  cases hi : home.seat t e.socket with
  | none => simp only [boostLimit?, hi, Option.bind_eq_bind, Option.bind_none]
  | some i =>
    have hmem : i ∈ home.seats t (List.range t.socketCount) :=
      List.mem_filterMap.mpr ⟨e.socket, List.mem_range.mpr hn, hi⟩
    simp only [boostLimit?, hi, Option.bind_eq_bind, Option.bind_some, getElem?_adjust, hmem, if_true,
      List.getElem?_map]

/-- What a change makes of every limit it makes of a CPU's. -/
theorem boostLimit?_map {g : Firmware → Firmware} {k : UInt32 → UInt32}
    (hg : ∀ f, (g f).boostLimits.at? e.apicId = (f.boostLimits.at? e.apicId).map k) :
    boostLimit? home t (F.map g) e = (boostLimit? home t F e).map k := by
  cases hi : home.seat t e.socket with
  | none => simp only [boostLimit?, hi, Option.bind_eq_bind, Option.bind_none, Option.map_none]
  | some i =>
    simp only [boostLimit?, hi, Option.bind_eq_bind, Option.bind_some, List.getElem?_map]
    cases F[i]? with
    | none => rfl
    | some f => exact hg f

end

namespace Site

variable {S : Site} {home : State} {s : Session} {inv : Inventory} {op : Operation} {F F' : List Firmware}
  {r : Except Error Answer} {err : Errand} {e : CpuEntry} {l : UInt32}

/-! ## What becomes of a limit -/

namespace Done

/-- Other messages leave every limit alone. -/
theorem boost_kept (h : S.Done home F err r F') (hseated : home.Seated S.topology)
    (hn : e.socket < S.topology.socketCount) (hcpu : err.message?.map (·.id) ≠ some .setBoostLimit)
    (hsocket : err.message?.map (·.id) ≠ some .setBoostLimitSocket) :
    boostLimit? home S.topology F' e = boostLimit? home S.topology F e := by
  have hkept : ∀ {msg : Message} {f f' : Firmware} {ws : List UInt32}, err.message? = some msg →
      f.perform (msg.args.headD 0) msg.id = .ok (ws, f') → f'.boostLimits = f.boostLimits := by
    intro msg f f' ws hmsg hperf
    rw [hmsg] at hcpu hsocket
    exact Firmware.perform_limits hperf (fun h => hcpu (congrArg some h)) (fun h => hsocket (congrArg some h))
  cases h with
  | known x => rfl
  | absent c _ => rfl
  | sent hi hf hperf =>
    rw [boostLimit?_set hseated hi hf, hkept rfl hperf]
    split
    · rename_i hs
      exact (boostLimit?_seat (hs ▸ hi) hf).symm
    · rfl
  | sentAll msg =>
    have hg : ∀ f : Firmware, (f.after msg).boostLimits.at? e.apicId = (f.boostLimits.at? e.apicId).map id := by
      intro f
      rw [Option.map_id_fun]
      unfold Firmware.after
      split
      · rename_i hperf
        rw [hkept rfl hperf]
        rfl
      · rfl
    rw [boostLimit?_adjust hn, boostLimit?_map hg, Option.map_id_fun, id]

/-- The limit of a CPU changes if it is the one that was named. -/
theorem setCpuBoost {cpu : Nat} {mhz : UInt32} (h : S.Done home F err r F')
    (he : (Operation.setCpuBoost cpu mhz).errand inv = .ok err) (hseated : home.Seated S.topology)
    (hl : boostLimit? home S.topology F e = some l) :
    boostLimit? home S.topology F' e = some (if inv.cpus.find? cpu = some e then min mhz 0xFFFF else l) := by
  obtain ⟨entry, narrow, hget, hnarrow, rfl⟩ := Operation.ok_of_cpu he
  simp only [CpuTable.get_eq_ok.mp hget, Option.some.injEq]
  cases h with
  | absent c hnone =>
    rw [if_neg, hl]
    rintro rfl
    simp only [boostLimit?, hnone, Option.bind_eq_bind, Option.bind_none] at hl
    cases hl
  | sent hi hf hperf =>
    rw [boostLimit?_set hseated hi hf, Firmware.perform_setBoostLimit hperf, narrowApicId_ok hnarrow,
      toUInt32_saturate]
    by_cases hs : e.socket = entry.socket
    · rw [if_pos hs, ← boostLimit?_seat (hs ▸ hi) hf, hl]
      by_cases hk : e.apicId = entry.apicId
      · rw [if_pos hk, if_pos (CpuEntry.eq_iff.mpr ⟨hs, hk⟩)]
      · rw [if_neg hk, if_neg fun hsame => hk (CpuEntry.eq_iff.mp hsame).2]
    · rw [if_neg hs, if_neg fun hsame => hs (CpuEntry.eq_iff.mp hsame).1, hl]

/-- The limit of a CPU changes if its socket is the one that was named. -/
theorem setSocketBoost {n : Nat} {mhz : UInt32} (h : S.Done home F err r F')
    (he : (Operation.setSocketBoost n mhz).errand inv = .ok err) (hseated : home.Seated S.topology)
    (hl : boostLimit? home S.topology F e = some l) :
    boostLimit? home S.topology F' e = some (if e.socket = n then min mhz 0xFFFF else l) := by
  cases he
  cases h with
  | absent c hnone =>
    rw [if_neg, hl]
    rintro rfl
    simp only [boostLimit?, hnone, Option.bind_eq_bind, Option.bind_none] at hl
    cases hl
  | sent hi hf hperf =>
    rw [boostLimit?_set hseated hi hf, Firmware.perform_setBoostLimitSocket hperf]
    by_cases hs : e.socket = n
    · rw [if_pos hs, if_pos hs, ← boostLimit?_seat (hs ▸ hi) hf, hl]
      exact congrArg some (saturate_masked mhz)
    · rw [if_neg hs, if_neg hs, hl]

/-- The limit of every CPU changes. -/
theorem setSystemBoost {mhz : UInt32} (h : S.Done home F err r F')
    (he : (Operation.setSystemBoost mhz).errand inv = .ok err) (hn : e.socket < S.topology.socketCount)
    (hl : boostLimit? home S.topology F e = some l) :
    boostLimit? home S.topology F' e = some (min mhz 0xFFFF) := by
  cases he
  cases h with
  | sentAll msg =>
    have hg : ∀ f : Firmware, (f.after (Session.boostMessage mhz)).boostLimits.at? e.apicId =
        (f.boostLimits.at? e.apicId).map fun _ => min mhz 0xFFFF := by
      intro f
      have hperf : f.perform (Session.saturate mhz).toUInt32 .setBoostLimitSocket = .ok ([], { f with
          boostLimits := f.boostLimits.map fun p => (p.1, (Session.saturate mhz).toUInt32 &&& 0xFFFF) }) := rfl
      rw [Firmware.after_eq hperf, Firmware.perform_setBoostLimitSocket hperf, saturate_masked]
    rw [boostLimit?_adjust hn, boostLimit?_map hg, hl]
    rfl

end Done

/-- An operation leaves a CPU the limit that it sets for the CPU, or the one that the CPU had. -/
theorem Became.boost (h : S.Became home inv op F r F') (hseated : home.Seated S.topology)
    (hn : e.socket < S.topology.socketCount) (hl : boostLimit? home S.topology F e = some l)
    (hok : ∀ mhz, op.boosts inv.cpus e = some mhz → ∃ a, r = .ok a) :
    boostLimit? home S.topology F' e = some (cutLimit l (op.boosts inv.cpus e)) := by
  cases h with
  | refused c =>
    cases hb : op.boosts inv.cpus e with
    | none => exact hl
    | some mhz =>
      obtain ⟨a, ha⟩ := hok mhz hb
      cases ha
  | done he hdone =>
    obtain ⟨hid, -⟩ := Operation.errand_message he
    have hother : op.boosts inv.cpus e = none → op.message? ≠ some .setBoostLimit →
        op.message? ≠ some .setBoostLimitSocket →
        boostLimit? home S.topology F' e = some (cutLimit l (op.boosts inv.cpus e)) := by
      intro hb hcpu hsocket
      rw [hdone.boost_kept hseated hn (hid ▸ hcpu) (hid ▸ hsocket), hb]
      exact hl
    cases op
    case setCpuBoost cpu mhz =>
      rw [hdone.setCpuBoost he hseated hl, Operation.boosts]
      split <;> rfl
    case setSocketBoost n mhz =>
      rw [hdone.setSocketBoost he hseated hl, Operation.boosts]
      split <;> rfl
    case setSystemBoost mhz => exact hdone.setSystemBoost he hn hl
    case setFabricState n p => cases p <;> exact hother rfl nofun nofun
    all_goals exact hother rfl nofun nofun

/-- The limit that is read for a CPU is the one that the settings have for it. -/
theorem Became.cpuBoost {cpu : Nat} {a : Answer} (h : S.Became home inv (.cpuBoost cpu) F (.ok a) F')
    (hf : inv.cpus.find? cpu = some e) : ∃ l, a = .word l ∧ boostLimit? home S.topology F e = some l := by
  obtain ⟨err, he, -⟩ := h.of_ok
  obtain ⟨entry, narrow, hget, hnarrow, rfl⟩ := Operation.ok_of_cpu he
  cases hf.symm.trans (CpuTable.get_eq_ok.mp hget)
  obtain ⟨i, f, ws, f', hi, hs, hperf, hread, -⟩ := h.sent he
  simp only [List.headD_cons, Firmware.perform, narrowApicId_ok hnarrow] at hperf
  split at hperf
  · rename_i l hl
    cases hperf
    cases hread
    exact ⟨l, rfl, (boostLimit?_seat hi hs).trans hl⟩
  · cases hperf

/-! ## One after the other -/

namespace Waits

variable {w : World State} {cpu : Nat} (hw : S.Waits home s inv w) (hd : S.Describes s inv)
  (hseated : home.Seated S.topology) (hc : S.cpus.Names S.topology cpu e)

include hw hd hseated hc

/-- A CPU that can be named has a limit, which can be read. -/
theorem exists_limit : ∃ l, readBoost s w cpu = .ok (.word l) ∧
    boostLimit? home S.topology w.machine.settings e = some l := by
  have hv := S.has_first (show (Operation.cpuBoost cpu).message? = _ from rfl) rfl
  obtain ⟨a, w', hrun, -, hb⟩ := works hw hd hseated hv hc.not_misses
  have hfound : inv.cpus.find? cpu = some e := hd.cpus ▸ hc.found
  obtain ⟨l, rfl, hl⟩ := hb.cpuBoost hfound
  exact ⟨l, congrArg Prod.fst hrun, hl⟩

/-- Whatever an operation does, the CPU has the limit that it sets, or the one from before. -/
theorem boost_step (op : Operation) (hl : boostLimit? home S.topology w.machine.settings e = some l) :
    boostLimit? home S.topology (World.run machine (op.perform s) w).2.machine.settings e =
      some (cutLimit l (op.boosts S.cpus e)) := by
  obtain ⟨r, w', hrun, -, hb⟩ := perform hd hseated op hw
  rw [hrun, ← hd.cpus]
  refine hb.boost hseated hc.socket hl fun mhz hm => ?_
  rw [hd.cpus] at hm
  obtain ⟨⟨id, hid, hv⟩, hP⟩ := Operation.works_of_boosts hc hm
  obtain ⟨a, w'', hrun', -⟩ := works hw hd hseated (S.has_first hid hv) hP
  cases hrun.symm.trans hrun'
  exact ⟨a, rfl⟩

/-- After any operations, the last limit that was set for the CPU counts. -/
theorem boost_run (ops : List Operation) (hl : boostLimit? home S.topology w.machine.settings e = some l) :
    boostLimit? home S.topology (World.performAll machine s ops w).2.machine.settings e =
      some (cutLimit l (ops.filterMap (Operation.boosts S.cpus e)).getLast?) := by
  induction ops generalizing w l with
  | nil => exact hl
  | cons op ops ih =>
    obtain ⟨r, w', hrun, hw', -⟩ := perform hd hseated op hw
    have hstep := boost_step hw hd hseated hc op hl
    rw [hrun] at hstep
    have hrest := ih hw' hstep
    show boostLimit? home S.topology
      (World.performAll machine s ops (World.run machine (op.perform s) w).2).2.machine.settings e = _
    rw [hrun, hrest, List.filterMap_cons]
    cases op.boosts S.cpus e with
    | none => rfl
    | some mhz =>
      rw [List.getLast?_cons]
      cases (ops.filterMap (Operation.boosts S.cpus e)).getLast? <;> rfl

/-- What is read after an operation. -/
theorem readBoost_step (op : Operation) : readBoost s (World.run machine (op.perform s) w).2 cpu =
    match op.boosts S.cpus e with
    | some mhz => .ok (.word (min mhz 0xFFFF))
    | none => readBoost s w cpu := by
  obtain ⟨l, hread, hl⟩ := exists_limit hw hd hseated hc
  obtain ⟨r, w', hrun, hw', -⟩ := perform hd hseated op hw
  have hstep := boost_step hw hd hseated hc op hl
  rw [hrun] at hstep ⊢
  obtain ⟨l', hread', hl'⟩ := exists_limit hw' hd hseated hc
  cases hl'.symm.trans hstep
  rw [hread', hread]
  cases op.boosts S.cpus e <;> rfl

omit hc

/-- A setter with arguments for this machine works, and changes what is read for the CPUs concerned. -/
theorem setter_works {op : Operation} {id : MessageId} (hid : op.message? = some id) (hv : id.minVersion = 1)
    (hP : ¬ op.Misused inv.processor S.topology S.cpus) :
    ∃ a w', World.run machine (op.perform s) w = (.ok a, w') ∧
      ∀ cpu e, S.cpus.Names S.topology cpu e → readBoost s w' cpu = match op.boosts S.cpus e with
        | some mhz => .ok (.word (min mhz 0xFFFF))
        | none => readBoost s w cpu := by
  obtain ⟨a, w', hrun, -⟩ := works hw hd hseated (S.has_first hid hv) hP
  refine ⟨a, w', hrun, fun cpu e hc => ?_⟩
  have hread := readBoost_step hw hd hseated hc op
  rwa [hrun] at hread

theorem setCpuBoost_works {cpu₀ : Nat} {e₀ : CpuEntry} (mhz : UInt32) (hc₀ : S.cpus.Names S.topology cpu₀ e₀) :
    ∃ a w', World.run machine ((Operation.setCpuBoost cpu₀ mhz).perform s) w = (.ok a, w') ∧
      ∀ cpu e, S.cpus.Names S.topology cpu e → readBoost s w' cpu =
        if e.socket = e₀.socket ∧ e.apicId = e₀.apicId then .ok (.word (min mhz 0xFFFF))
        else readBoost s w cpu := by
  obtain ⟨a, w', hrun, hread⟩ := setter_works hw hd hseated
    (show (Operation.setCpuBoost cpu₀ mhz).message? = _ from rfl) rfl hc₀.not_misses
  refine ⟨a, w', hrun, fun cpu e hc => (hread cpu e hc).trans ?_⟩
  simp only [Operation.boosts, hc₀.found, Option.some.injEq, CpuEntry.eq_iff]
  by_cases hsame : e.socket = e₀.socket ∧ e.apicId = e₀.apicId
  · simp only [if_pos hsame]
  · simp only [if_neg hsame]

theorem setSocketBoost_works {n : Nat} (mhz : UInt32) (hn : n < S.topology.socketCount) :
    ∃ a w', World.run machine ((Operation.setSocketBoost n mhz).perform s) w = (.ok a, w') ∧
      ∀ cpu e, S.cpus.Names S.topology cpu e → readBoost s w' cpu =
        if e.socket = n then .ok (.word (min mhz 0xFFFF)) else readBoost s w cpu := by
  obtain ⟨a, w', hrun, hread⟩ := setter_works hw hd hseated
    (show (Operation.setSocketBoost n mhz).message? = _ from rfl) rfl (Nat.not_le_of_lt hn)
  refine ⟨a, w', hrun, fun cpu e hc => (hread cpu e hc).trans ?_⟩
  by_cases hs : e.socket = n
  · simp only [Operation.boosts, if_pos hs]
  · simp only [Operation.boosts, if_neg hs]

theorem setSystemBoost_works (mhz : UInt32) :
    ∃ a w', World.run machine ((Operation.setSystemBoost mhz).perform s) w = (.ok a, w') ∧
      ∀ cpu e, S.cpus.Names S.topology cpu e → readBoost s w' cpu = .ok (.word (min mhz 0xFFFF)) :=
  setter_works hw hd hseated (show (Operation.setSystemBoost mhz).message? = _ from rfl) rfl fun hP => hP

/-- What is read after any operations is the last limit that was set, or what was read before them. -/
theorem readBoost_run (hc : S.cpus.Names S.topology cpu e) (ops : List Operation) :
    ∃ l, readBoost s w cpu = .ok (.word l) ∧ readBoost s (World.performAll machine s ops w).2 cpu =
      .ok (.word (cutLimit l (ops.filterMap (Operation.boosts S.cpus e)).getLast?)) := by
  obtain ⟨l, hread, hl⟩ := exists_limit hw hd hseated hc
  have hrun := boost_run hw hd hseated hc ops hl
  obtain ⟨l', hread', hl'⟩ := exists_limit (performAll hd hseated ops hw) hd hseated hc
  cases hl'.symm.trans hrun
  exact ⟨l, hread, hread'⟩

end Waits

end Site

/-! ## Boost limits and their setters -/

/-- On a machine in good health, after any operations: setting the boost limit of a CPU changes what is read
    for the CPUs with its socket and APIC ID, setting that of a socket what is read for the CPUs of the
    socket, and setting that of the system what is read for every CPU. It is then the limit that was set, or
    0xFFFF if that is less; for other CPUs it is what it was. So after the operations every CPU reads the last
    limit that one of them set for it, and what it read at first if none did. -/
theorem last_boost_limit_counts {c : Config} {v : UInt32} {t : Topology} {m : State} (h : Healthy c v t m)
    {s : Session} (hs : s.config = c) (ops : List Operation) :
    let w := (World.performAll machine s ops ⟨m, {}⟩).2
    (∀ cpu₀ e₀ mhz, m.cpus.Names t cpu₀ e₀ →
      ∃ a w', World.run machine ((Operation.setCpuBoost cpu₀ mhz).perform s) w = (.ok a, w') ∧
        ∀ cpu e, m.cpus.Names t cpu e → readBoost s w' cpu =
          if e.socket = e₀.socket ∧ e.apicId = e₀.apicId then .ok (.word (min mhz 0xFFFF))
          else readBoost s w cpu) ∧
    (∀ n mhz, n < t.socketCount →
      ∃ a w', World.run machine ((Operation.setSocketBoost n mhz).perform s) w = (.ok a, w') ∧
        ∀ cpu e, m.cpus.Names t cpu e → readBoost s w' cpu =
          if e.socket = n then .ok (.word (min mhz 0xFFFF)) else readBoost s w cpu) ∧
    (∀ mhz, ∃ a w', World.run machine ((Operation.setSystemBoost mhz).perform s) w = (.ok a, w') ∧
      ∀ cpu e, m.cpus.Names t cpu e → readBoost s w' cpu = .ok (.word (min mhz 0xFFFF))) ∧
    ∀ cpu e, m.cpus.Names t cpu e → ∃ l, readBoost s ⟨m, {}⟩ cpu = .ok (.word l) ∧
      readBoost s w cpu = .ok (.word (cutLimit l (ops.filterMap (Operation.boosts m.cpus e)).getLast?)) := by
  obtain ⟨firmware, hd, hafter⟩ := h.waits_after hs
  have hw := hafter ops
  exact ⟨fun _ _ mhz hc₀ => hw.setCpuBoost_works hd h.seated mhz hc₀,
    fun _ mhz hn => hw.setSocketBoost_works hd h.seated mhz hn,
    fun mhz => hw.setSystemBoost_works hd h.seated mhz,
    fun _ _ hc => (hafter []).readBoost_run hd h.seated hc ops⟩

theorem sound_boosts_overlap : Healthy config 3 Topology.crossedTable sound ∧
    let w := (World.performAll machine ⟨config⟩ [.setSystemBoost 4000, .setCpuBoost 0 70000, .setSocketBoost 1 2000]
      ⟨sound, {}⟩).2
    readBoost ⟨config⟩ w 0 = .ok (.word 0xFFFF) ∧ readBoost ⟨config⟩ w 1 = .ok (.word 2000) := by
  have h := last_boost_limit_counts sound_healthy (s := ⟨config⟩) rfl
    [.setSystemBoost 4000, .setCpuBoost 0 70000, .setSocketBoost 1 2000]
  obtain ⟨l, -, hread⟩ := h.2.2.2 0 ⟨0, 16⟩ ⟨by decide, by decide, by decide⟩
  obtain ⟨l', -, hread'⟩ := h.2.2.2 1 ⟨1, 16⟩ ⟨by decide, by decide, by decide⟩
  exact ⟨sound_healthy, hread, hread'⟩

end Simulation

end FirmwareMailbox
