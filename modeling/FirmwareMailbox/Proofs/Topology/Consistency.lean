/-
  FirmwareMailbox.Proofs.Topology.Consistency — which machines discovery accepts.

  A list of devices is judged before any device is asked (`Orderly`, `arrange_cases`). After that
  discovery asks the tiles in the order of their buses for the bus that their register names, which
  is `mapM reportedBus`, and checks each report against the earlier ones. At any time the places that
  have a number are those of the tiles with an earlier report (`Marked`), so a report is refused
  exactly if it clashes: with its own socket, or with an earlier report (`claim_cases`). Every bus has
  a tile, so there is no third cause.

  `numberTiles_runs` follows the loop: either all tiles are asked and the reports go together, or it
  stops at the first that fails or clashes (`Stops`). The reports of the tiles before that one are the
  first reports of all, so the loop stops nowhere if all reports go together.
-/

import FirmwareMailbox.Proofs.Machine.Runs
import FirmwareMailbox.Proofs.Topology.Numbering
import FirmwareMailbox.Proofs.Topology.Order

namespace FirmwareMailbox.Topology

/-! ## Devices in order -/

/-- One socket or two, no bus twice, and one device on bus 0. -/
structure Orderly (devices : List PciDevice) : Prop where
  count : devices.length = 4 ∨ devices.length = 8
  apart : (devices.map (·.address.bus)).Nodup
  lowest : 0 ∈ devices.map (·.address.bus)

/-- What is said against a list of devices: their number, else two of them on one bus, else that
the lowest bus is not 0. -/
inductive Disorder (devices : List PciDevice) : Inconsistency → Prop
  | count : devices.length ≠ 4 → devices.length ≠ 8 → Disorder devices (.deviceCount devices.length)
  | shared {a b : PciDevice} : devices.length = 4 ∨ devices.length = 8 → [a, b].Subperm devices →
      a.address.bus = b.address.bus → Disorder devices (.sharedBus a.address b.address)
  | lowest {d : PciDevice} : devices.length = 4 ∨ devices.length = 8 →
      (devices.map (·.address.bus)).Nodup → d ∈ devices → d.address.bus ≠ 0 →
      (∀ a ∈ devices, d.address.bus ≤ a.address.bus) → Disorder devices (.lowestBus d.address.bus)

variable {devices : List PciDevice}

theorem Disorder.not_orderly {c : Inconsistency} (h : Disorder devices c) : ¬ Orderly devices := by
  intro ho
  cases h with
  | count h4 h8 =>
    have := ho.count
    omega
  | @shared a b _ hsub hbus =>
    obtain ⟨l, hperm, hl⟩ := hsub
    have hnodup := (hperm.map _).nodup_iff.mp (ho.apart.sublist (hl.map (·.address.bus)))
    simp [hbus] at hnodup
  | @lowest d _ _ _ h0 hlow =>
    obtain ⟨a, ha, hbus⟩ := List.mem_map.mp ho.lowest
    have hle := UInt8.le_iff_toNat_le.mp (hlow a ha)
    rw [hbus] at hle
    exact h0 (UInt8.toNat_inj.mp (Nat.le_zero.mp hle))

/-- Neighbours on one bus stand one behind the other in the list. -/
theorem sharedBus?_sublist {ds : List PciDevice} {a b : PciDevice} (h : sharedBus? ds = some (a, b)) :
    [a, b].Sublist ds ∧ a.address.bus = b.address.bus := by
  fun_induction sharedBus? ds with
  | case1 a' b' rest hab =>
    cases h
    exact ⟨by simp, hab⟩
  | case2 a' b' rest hab ih =>
    obtain ⟨hsub, hbus⟩ := ih h
    exact ⟨hsub.cons a', hbus⟩
  | case3 ds hn => cases h

/-- Devices are arranged if they are in order, and else refused for what is wrong with them. -/
theorem arrange_cases (devices : List PciDevice) :
    (Orderly devices ∧ arrange devices = .ok (tilesFrom 0 (byBus devices))) ∨
      ∃ c, Disorder devices c ∧ arrange devices = .error c := by
  have hperm := byBus_perm devices
  unfold arrange
  by_cases hcount : devices.length ≠ 4 ∧ devices.length ≠ 8
  · right
    exact ⟨_, .count hcount.1 hcount.2, if_pos hcount⟩
  rw [if_neg hcount]
  have hlength : devices.length = 4 ∨ devices.length = 8 := by omega
  cases hs : sharedBus? (byBus devices) with
  | some p =>
    obtain ⟨hsub, hbus⟩ := sharedBus?_sublist hs
    right
    exact ⟨_, .shared hlength (hsub.subperm.trans hperm.subperm) hbus, rfl⟩
  | none =>
    have hsorted := ascending_of_sharedBus? hs (byBus_sorted devices)
    have hnodup : (devices.map (·.address.bus)).Nodup := by
      have h := List.pairwise_map.mpr (hsorted.imp fun h => UInt8.ne_of_lt h)
      exact (hperm.map _).nodup_iff.mp h
    cases hd : byBus devices with
    | nil =>
      rw [hd] at hperm
      rw [← hperm.length_eq] at hlength
      cases hlength <;> contradiction
    | cons d rest =>
      have hmem : d ∈ devices := hperm.subset (hd ▸ List.mem_cons_self ..)
      by_cases h0 : d.address.bus ≠ 0
      · have hlow : ∀ a ∈ devices, d.address.bus ≤ a.address.bus := by
          intro a ha
          have hs' := byBus_sorted devices
          rw [hd] at hs'
          rcases List.mem_cons.mp (hd ▸ hperm.symm.subset ha) with rfl | ha
          · exact UInt8.le_refl _
          · exact (List.pairwise_cons.mp hs').1 a ha
        right
        exact ⟨_, .lowest hlength hnodup hmem h0 hlow, if_pos h0⟩
      · left
        have hzero : d.address.bus = 0 := by simpa using h0
        exact ⟨⟨hlength, hnodup, List.mem_map.mpr ⟨d, hmem, hzero⟩⟩, if_neg h0⟩

theorem Orderly.arrange (h : Orderly devices) : arrange devices = .ok (tilesFrom 0 (byBus devices)) := by
  rcases arrange_cases devices with ⟨-, ha⟩ | ⟨c, hc, -⟩
  · exact ha
  · exact absurd h hc.not_orderly

/-! ## Reports that go together -/

/-- Each report is of a bus of the reporting tile's own socket, and no tile has the buses of two
reports. The reports are those of the first tiles of the table. -/
structure Consistent (tiles : List Tile) (buses : List UInt8) : Prop where
  near : ∀ (i : Nat) (x : Tile) (b : UInt8), tiles[i]? = some x → buses[i]? = some b →
    ∃ owner ∈ tiles, owner.covers b ∧ owner.socket = x.socket
  apart : buses.Pairwise fun b c => ∀ owner ∈ tiles, owner.covers b → ¬ owner.covers c

/-- Why the report of `bus` by the tile `x` does not go with the reports `before` it. -/
inductive Clash (tiles : List Tile) (before : List UInt8) (x : Tile) (bus : UInt8) : Inconsistency → Prop
  | foreign {owner : Tile} : owner ∈ tiles → owner.covers bus → owner.socket ≠ x.socket →
      Clash tiles before x bus (.foreignBus x.socket (x.index % 4) bus owner.socket)
  | repeated {owner : Tile} {earlier : UInt8} : owner ∈ tiles → owner.covers bus →
      owner.socket = x.socket → earlier ∈ before → owner.covers earlier →
      Clash tiles before x bus (.repeatedBus bus)

/-- The places without a number are those of the tiles with no report yet. -/
def Marked (tiles : List Tile) (before : List UInt8) (ids : List (Option UInt8)) : Prop :=
  ∀ (i : Nat) (x : Tile), tiles[i]? = some x → (ids[i]? = some none ↔ ∀ c ∈ before, ¬ x.covers c)

variable {tiles : List Tile} {before : List UInt8} {ids : List (Option UInt8)} {x : Tile} {b : UInt8}

theorem Consistent.nil : Consistent tiles [] := ⟨fun _ _ _ _ h => by simp at h, List.Pairwise.nil⟩

theorem Consistent.take {buses : List UInt8} (h : Consistent tiles buses) (k : Nat) :
    Consistent tiles (buses.take k) := by
  refine ⟨fun i x b hx hb => ?_, h.apart.sublist (List.take_sublist k buses)⟩
  rw [List.getElem?_take] at hb
  split at hb
  · exact h.near i x b hx hb
  · cases hb

theorem Consistent.concat (h : Consistent tiles before) (hx : tiles[before.length]? = some x)
    (hnear : ∃ owner ∈ tiles, owner.covers b ∧ owner.socket = x.socket)
    (hapart : ∀ c ∈ before, ∀ owner ∈ tiles, owner.covers c → ¬ owner.covers b) :
    Consistent tiles (before ++ [b]) := by
  constructor
  · intro i y c hy hc
    rcases Nat.lt_trichotomy i before.length with hi | hi | hi
    · rw [List.getElem?_append_left hi] at hc
      exact h.near i y c hy hc
    · subst hi
      rw [List.getElem?_concat_length] at hc
      cases hc
      rw [hx] at hy
      cases hy
      exact hnear
    · rw [List.getElem?_append_right (by omega), List.getElem?_eq_none (by simp; omega)] at hc
      cases hc
  · refine List.pairwise_append.mpr ⟨h.apart, List.pairwise_singleton _ _, ?_⟩
    intro c hc d hd
    obtain rfl := List.mem_singleton.mp hd
    exact hapart c hc

/-- Every bus has its one tile. -/
theorem Arranged.owner (hA : Arranged tiles) (b : UInt8) :
    ∃ owner, tiles.find? (·.covers b) = some owner ∧ owner ∈ tiles ∧ owner.covers b ∧
      ∀ y ∈ tiles, y.covers b → y = owner := by
  obtain ⟨owner, ho⟩ := hA.spans.filter_covers (Nat.zero_le b.toNat)
  have hmem := List.mem_filter.mp (ho ▸ List.mem_singleton_self owner)
  refine ⟨owner, by rw [← List.head?_filter, ho]; rfl, hmem.1, hmem.2, ?_⟩
  intro y hy hc
  exact (eq_of_filter_singleton ho hy hc).symm

/-- Reports that go together name no bus twice. -/
theorem Consistent.eq_of_report {buses : List UInt8} {i j : Nat} (h : Consistent tiles buses)
    (hA : Arranged tiles) (hi : buses[i]? = some b) (hj : buses[j]? = some b) : i = j := by
  obtain ⟨owner, -, ho, hb, -⟩ := hA.owner b
  obtain ⟨hil, hib⟩ := List.getElem?_eq_some_iff.mp hi
  obtain ⟨hjl, hjb⟩ := List.getElem?_eq_some_iff.mp hj
  have hapart := List.pairwise_iff_getElem.mp h.apart
  rcases Nat.lt_trichotomy i j with hlt | heq | hlt
  · exact absurd (hjb ▸ hb) (hapart i j hil hjl hlt owner ho (hib ▸ hb))
  · exact heq
  · exact absurd (hib ▸ hb) (hapart j i hjl hil hlt owner ho (hjb ▸ hb))

/-- A report that clashes with the earlier ones does not go with them. -/
theorem Clash.not_consistent {c : Inconsistency} (hA : Arranged tiles) (hx : tiles[before.length]? = some x)
    (h : Clash tiles before x b c) : ¬ Consistent tiles (before ++ [b]) := by
  intro hc
  obtain ⟨o, -, -, -, hunique⟩ := hA.owner b
  cases h with
  | @foreign owner ho hb hs =>
    obtain ⟨y, hy, hyb, hys⟩ := hc.near _ x b hx (List.getElem?_concat_length ..)
    rw [hunique y hy hyb, ← hunique owner ho hb] at hys
    exact hs hys
  | @repeated owner earlier ho hb _ he hbe =>
    exact (List.pairwise_append.mp hc.apart).2.2 earlier he b (List.mem_singleton_self b) owner ho hbe hb

/-- A claim is granted to a report that goes with the earlier ones, and refused to one that does
    not. -/
theorem claim_cases (hA : Arranged tiles) (hm : Marked tiles before ids) (x : Tile) (b : UInt8) :
    (∃ owner ∈ tiles, claim tiles ids x b = .ok owner.index ∧ owner.covers b ∧ owner.socket = x.socket ∧
        ∀ c ∈ before, ¬ owner.covers c) ∨
      ∃ c, claim tiles ids x b = .error c ∧ Clash tiles before x b c := by
  obtain ⟨owner, hfind, ho, hb, -⟩ := hA.owner b
  obtain ⟨i, hi⟩ := List.getElem?_of_mem ho
  have hindex : owner.index = i := (hA.placed i owner hi).1
  unfold claim
  rw [hfind]
  by_cases hs : owner.socket ≠ x.socket
  · right
    exact ⟨_, if_pos hs, .foreign ho hb hs⟩
  have hs' : owner.socket = x.socket := by simpa using hs
  by_cases hfree : ids[owner.index]? = some none
  · left
    refine ⟨owner, ho, ?_, hb, hs', (hm i owner hi).mp (hindex ▸ hfree)⟩
    simp only [if_neg hs, hfree]
  · right
    have hused : ¬ ∀ c ∈ before, ¬ owner.covers c := fun hn => hfree (hindex ▸ (hm i owner hi).mpr hn)
    simp only [not_forall, not_not] at hused
    obtain ⟨earlier, he, hbe⟩ := hused
    refine ⟨.repeatedBus b, ?_, .repeated ho hb hs' he hbe⟩
    simp only [if_neg hs]

/-- The number that is given marks the tile of the report, and no other. -/
theorem Marked.set {owner : Tile} (hA : Arranged tiles) (hm : Marked tiles before ids) (ho : owner ∈ tiles)
    (hb : owner.covers b) (n : UInt8) : Marked tiles (before ++ [b]) (ids.set owner.index (some n)) := by
  intro i y hy
  obtain ⟨o, -, -, -, hunique⟩ := hA.owner b
  obtain ⟨j, hj⟩ := List.getElem?_of_mem ho
  have hindex : owner.index = j := (hA.placed j owner hj).1
  by_cases hi : owner.index = i
  · have hsame : y = owner := by
      rw [← hi, hindex, hj] at hy
      exact (Option.some.inj hy).symm
    subst hsame
    constructor
    · intro hnone
      rw [hi, List.getElem?_set] at hnone
      simp at hnone
    · intro hc
      exact absurd hb (hc b (by simp))
  · have hother : ¬ y.covers b := by
      intro hyb
      have hyo : y = owner := (hunique y (List.mem_of_getElem? hy) hyb).trans (hunique owner ho hb).symm
      exact hi (hyo ▸ (hA.placed i y hy).1)
    rw [List.getElem?_set_ne hi, hm i y hy]
    constructor
    · intro h c hc
      rcases List.mem_append.mp hc with hc | hc
      · exact h c hc
      · obtain rfl := List.mem_singleton.mp hc
        exact hother
    · intro h c hc
      exact h c (List.mem_append_left _ hc)

/-! ## The questions -/

/-- A run that failed at a device: the access that failed is the last event, and has the failure. -/
def Broke (es : List Event) (e : Error) : Prop :=
  ∃ pre y, es = pre ++ [y] ∧ y.error? = some e ∧ ∀ z ∈ pre, z.error? = none

variable {es fs : List Event} {e : Error}

theorem Broke.prepend (h : Broke fs e) (hes : ∀ z ∈ es, z.error? = none) : Broke (es ++ fs) e := by
  obtain ⟨pre, y, rfl, hy, hpre⟩ := h
  refine ⟨es ++ pre, y, (List.append_assoc ..).symm, hy, ?_⟩
  intro z hz
  rcases List.mem_append.mp hz with hz | hz
  · exact hes z hz
  · exact hpre z hz

theorem report_works {w : UInt32} {z : Event} (h : z ∈ report x w) : z.error? = none := by
  simp only [report, Aperture.loaded, List.mem_cons, List.not_mem_nil, or_false] at h
  rcases h with rfl | rfl <;> rfl

/-- A question that gets no report failed at the tile's device. -/
theorem reportedBus_broke (h : Job.Yields (reportedBus x) es (.error e)) : Broke es e := by
  rcases Aperture.yields_read_bind h with ⟨e', he, hcut⟩ | ⟨w, gs, -, hp⟩
  · cases he
    obtain ⟨pre, y, z, rest, hfull, rfl, -, hz⟩ := hcut 0
    have hreport : report x 0 = pre ++ y :: rest := hfull
    refine ⟨pre, z, rfl, hz, fun v hv => report_works (x := x) (w := 0) ?_⟩
    rw [hreport]
    exact List.mem_append_left _ hv
  · cases (Job.yields_pure.mp hp).2

variable {μ : Type} {M : Machine μ} {w u v : World μ} {rest : List Tile} {buses : List UInt8}

/-- Asking one tile more: its report comes first, unless there is none. -/
theorem runs_ask_error (h : World.Runs M (reportedBus x) w es (.error e) u) :
    World.Runs M ((x :: rest).mapM reportedBus) w es (.error e) u := by
  rw [List.mapM_cons]
  exact World.runs_bind.mpr (.inl ⟨e, rfl, h⟩)

theorem runs_ask_ok (h : World.Runs M (reportedBus x) w es (.ok b) u)
    (hr : World.Runs M (rest.mapM reportedBus) u fs (.ok buses) v) :
    World.Runs M ((x :: rest).mapM reportedBus) w (es ++ fs) (.ok (b :: buses)) v := by
  rw [List.mapM_cons]
  refine World.runs_bind_ok.mpr ⟨es, fs, b, u, rfl, h, ?_⟩
  exact World.runs_bind_ok.mpr ⟨fs, [], buses, v, (List.append_nil fs).symm, hr, World.runs_pure.mpr ⟨rfl, rfl, rfl⟩⟩

theorem runs_ask_then_error (h : World.Runs M (reportedBus x) w es (.ok b) u)
    (hr : World.Runs M (rest.mapM reportedBus) u fs (.error e) v) :
    World.Runs M ((x :: rest).mapM reportedBus) w (es ++ fs) (.error e) v := by
  rw [List.mapM_cons]
  refine World.runs_bind.mpr (.inr ⟨es, fs, b, u, rfl, h, ?_⟩)
  exact World.runs_bind.mpr (.inl ⟨e, rfl, hr⟩)

/-- There is one report of each tile. -/
theorem length_reports {asked : List Tile} (h : World.Runs M (asked.mapM reportedBus) w es (.ok buses) v) :
    buses.length = asked.length := by
  induction asked generalizing w es buses with
  | nil =>
    obtain ⟨-, hb, -⟩ := World.runs_pure.mp h
    cases hb
    rfl
  | cons x rest ih =>
    rw [List.mapM_cons] at h
    obtain ⟨_, gs, b, u, -, -, h⟩ := World.runs_bind_ok.mp h
    obtain ⟨_, _, others, _, -, hr, hp⟩ := World.runs_bind_ok.mp h
    obtain ⟨-, hb, rfl⟩ := World.runs_pure.mp hp
    cases hb
    exact congrArg (· + 1) (ih hr)

/-- Asking fewer tiles gets the first of the reports. -/
theorem runs_take {tiles : List Tile} (h : World.Runs M (tiles.mapM reportedBus) w es (.ok buses) v) (k : Nat) :
    ∃ fs u, World.Runs M ((tiles.take k).mapM reportedBus) w fs (.ok (buses.take k)) u := by
  induction tiles generalizing w es buses k with
  | nil =>
    obtain ⟨rfl, hb, rfl⟩ := World.runs_pure.mp h
    cases hb
    exact ⟨[], v, by simpa using h⟩
  | cons x rest ih =>
    rw [List.mapM_cons] at h
    obtain ⟨fs, gs, b, u, rfl, hx, h⟩ := World.runs_bind_ok.mp h
    obtain ⟨gs, _, buses, _, rfl, hr, hp⟩ := World.runs_bind_ok.mp h
    obtain ⟨rfl, hb, rfl⟩ := World.runs_pure.mp hp
    cases hb
    cases k with
    | zero => exact ⟨[], w, World.runs_pure.mpr ⟨rfl, rfl, rfl⟩⟩
    | succ k =>
      obtain ⟨hs, u', hk⟩ := ih hr k
      exact ⟨fs ++ hs, u', runs_ask_ok hx hk⟩

/-! ## Where discovery stops -/

/-- Asking the tiles of `asked`, after the reports `before` of the ones ahead of them, stops with `e` at
the one at place `k`. Those up to it report, and their reports go together; its own question
fails, or its report clashes. -/
inductive Stops (M : Machine μ) (tiles : List Tile) (before : List UInt8) (asked : List Tile) (w : World μ)
    (k : Nat) (es : List Event) : Error → Prop
  | broke {buses : List UInt8} {fs : List Event} {u v : World μ} {e : Error} : k < asked.length →
      World.Runs M ((asked.take k).mapM reportedBus) w fs (.ok buses) u →
      Consistent tiles (before ++ buses) →
      World.Runs M ((asked.take (k + 1)).mapM reportedBus) w es (.error e) v → Broke es e →
      Stops M tiles before asked w k es e
  | clashed {x : Tile} {bus : UInt8} {buses : List UInt8} {fs : List Event} {u v : World μ}
      {c : Inconsistency} : asked[k]? = some x →
      World.Runs M ((asked.take k).mapM reportedBus) w fs (.ok buses) u →
      Consistent tiles (before ++ buses) →
      World.Runs M ((asked.take (k + 1)).mapM reportedBus) w es (.ok (buses ++ [bus])) v →
      Clash tiles (before ++ buses) x bus c → Stops M tiles before asked w k es (.topology c)

/-! ## The loop -/

theorem runs_number_failed (h : World.Runs M (reportedBus x) w es (.error e) u) :
    World.Runs M (numberTiles tiles (x :: rest) ids) w es (.error e) u :=
  World.runs_bind.mpr (.inl ⟨e, rfl, h⟩)

theorem runs_number_refused {c : Inconsistency} (h : World.Runs M (reportedBus x) w es (.ok b) u)
    (hclaim : claim tiles ids x b = .error c) :
    World.Runs M (numberTiles tiles (x :: rest) ids) w es (.error (.topology c)) u := by
  refine World.runs_bind.mpr (.inr ⟨es, [], b, u, (List.append_nil es).symm, h, ?_⟩)
  simp only [hclaim]
  exact World.runs_throw.mpr ⟨rfl, rfl, rfl⟩

theorem runs_number_granted {slot : Nat} {r : Except Error (List (Option UInt8))}
    (h : World.Runs M (reportedBus x) w es (.ok b) u) (hclaim : claim tiles ids x b = .ok slot)
    (hr : World.Runs M (numberTiles tiles rest (ids.set slot (some (place x)))) u fs r v) :
    World.Runs M (numberTiles tiles (x :: rest) ids) w (es ++ fs) r v := by
  refine World.runs_bind.mpr (.inr ⟨es, fs, b, u, rfl, h, ?_⟩)
  simp only [hclaim]
  exact hr

/-- What stops the loop behind a report that goes with the earlier ones stops it. -/
theorem Stops.behind {k : Nat} (h : World.Runs M (reportedBus x) w es (.ok b) u)
    (hs : Stops M tiles (before ++ [b]) rest u k fs e) :
    Stops M tiles before (x :: rest) w (k + 1) (es ++ fs) e := by
  cases hs with
  | broke hk hr hc hq hb =>
    obtain ⟨word, -, rfl⟩ := yields_reportedBus h.yields
    rw [List.append_assoc] at hc
    exact .broke (Nat.succ_lt_succ hk) (runs_ask_ok h hr) hc (runs_ask_then_error h hq)
      (hb.prepend fun _ => report_works)
  | clashed hk hr hc hq hclash =>
    rw [List.append_assoc] at hc hclash
    exact .clashed hk (runs_ask_ok h hr) hc (runs_ask_ok h hq) hclash

/-- The loop ends with all tiles asked and reports that go together, or where the questions stop. -/
theorem numberTiles_runs (hA : Arranged tiles) {asked done : List Tile} (hsplit : tiles = done ++ asked)
    (hlen : done.length = before.length) (hc : Consistent tiles before) (hm : Marked tiles before ids)
    (w : World μ) :
    (∃ es buses ids' v, World.Runs M (asked.mapM reportedBus) w es (.ok buses) v ∧
        Consistent tiles (before ++ buses) ∧ World.Runs M (numberTiles tiles asked ids) w es (.ok ids') v) ∨
      ∃ k es e v, Stops M tiles before asked w k es e ∧
        World.Runs M (numberTiles tiles asked ids) w es (.error e) v := by
  induction asked generalizing done before ids w with
  | nil =>
    left
    refine ⟨[], [], ids, w, World.runs_pure.mpr ⟨rfl, rfl, rfl⟩, ?_, World.runs_pure.mpr ⟨rfl, rfl, rfl⟩⟩
    rwa [List.append_nil]
  | cons x rest ih =>
    have hx : tiles[before.length]? = some x := by
      rw [hsplit, ← hlen, List.getElem?_append_right (Nat.le_refl _), Nat.sub_self]
      rfl
    have hhere : Consistent tiles (before ++ []) := by rwa [List.append_nil]
    have hnone : World.Runs M (((x :: rest).take 0).mapM reportedBus) w [] (.ok []) w :=
      World.runs_pure.mpr ⟨rfl, rfl, rfl⟩
    rcases hq : World.run M (reportedBus x) w with ⟨r, u⟩
    have hrun : World.Runs M (reportedBus x) w (World.transcript M (reportedBus x) w) r u := ⟨hq, rfl⟩
    cases r with
    | error e =>
      right
      have hstop := Stops.broke (Nat.succ_pos _) hnone hhere (runs_ask_error hrun) (reportedBus_broke hrun.yields)
      exact ⟨0, _, e, u, hstop, runs_number_failed hrun⟩
    | ok b =>
      rcases claim_cases hA hm x b with ⟨owner, ho, hclaim, hb, hs, hfree⟩ | ⟨c, hclaim, hclash⟩
      · have hmore : Consistent tiles (before ++ [b]) := by
          refine hc.concat hx ⟨owner, ho, hb, hs⟩ fun c hcb y hy hyc hyb => ?_
          obtain ⟨o, -, -, -, hunique⟩ := hA.owner b
          rw [hunique y hy hyb, ← hunique owner ho hb] at hyc
          exact hfree c hcb hyc
        have hsplit' : tiles = (done ++ [x]) ++ rest := by rw [hsplit, List.append_assoc]; rfl
        have hlen' : (done ++ [x]).length = (before ++ [b]).length := by simp [hlen]
        rcases ih hsplit' hlen' hmore (hm.set hA ho hb (place x)) u with
          ⟨es, buses, ids', v, hr, hall, hn⟩ | ⟨k, es, e, v, hstop, hn⟩
        · left
          refine ⟨_, b :: buses, ids', v, runs_ask_ok hrun hr, ?_, runs_number_granted hrun hclaim hn⟩
          rwa [List.append_assoc] at hall
        · right
          exact ⟨k + 1, _, e, v, hstop.behind hrun, runs_number_granted hrun hclaim hn⟩
      · right
        have hask : World.Runs M (((x :: rest).take 1).mapM reportedBus) w
            (World.transcript M (reportedBus x) w ++ []) (.ok ([] ++ [b])) u :=
          runs_ask_ok hrun (World.runs_pure.mpr ⟨rfl, rfl, rfl⟩)
        rw [List.append_nil] at hask
        refine ⟨0, _, _, u, .clashed rfl hnone hhere hask ?_, runs_number_refused hrun hclaim⟩
        rwa [List.append_nil]

/-- Nothing stops at a tile if all report, and their reports go together. -/
theorem Stops.not_consistent {k : Nat} (hA : Arranged tiles) (h : Stops M tiles [] tiles w k es e)
    (hr : World.Runs M (tiles.mapM reportedBus) w fs (.ok buses) v) : ¬ Consistent tiles buses := by
  intro hc
  obtain ⟨gs, u, hfirst⟩ := runs_take hr (k + 1)
  cases h with
  | broke _ _ _ hq _ =>
    have hsame := hfirst.run.symm.trans hq.run
    cases (Prod.mk.inj hsame).1
  | @clashed x bus earlier _ _ _ _ hk hbefore _ hq hclash =>
    have hsame := hfirst.run.symm.trans hq.run
    have hbuses : buses.take (k + 1) = earlier ++ [bus] := Except.ok.inj (Prod.mk.inj hsame).1
    have hlen : earlier.length = k := by
      rw [length_reports hbefore, List.length_take]
      exact Nat.min_eq_left (Nat.le_of_lt (List.getElem?_eq_some_iff.mp hk).1)
    refine hclash.not_consistent hA (by rw [List.nil_append, hlen]; exact hk) ?_
    rw [List.nil_append, ← hbuses]
    exact hc.take (k + 1)

/-- Discovery of devices that are not in order fails before anything is asked. -/
theorem runs_disorder {c : Inconsistency} (h : arrange devices = .error c) (w : World μ) :
    World.Runs M (ofDevices devices) w [] (.error (.topology c)) w := by
  unfold ofDevices
  rw [h]
  exact World.runs_throw.mpr ⟨rfl, rfl, rfl⟩

/-- Discovery of devices in order ends with a table if all reports go together, else where the
    questions stop. -/
theorem Orderly.runs (h : Orderly devices) (M : Machine μ) (w : World μ) :
    (∃ es t v buses, World.Runs M (ofDevices devices) w es (.ok t) v ∧
        World.Runs M ((tilesFrom 0 (byBus devices)).mapM reportedBus) w es (.ok buses) v ∧
        Consistent (tilesFrom 0 (byBus devices)) buses) ∨
      ∃ k es e v, World.Runs M (ofDevices devices) w es (.error e) v ∧
        Stops M (tilesFrom 0 (byBus devices)) [] (tilesFrom 0 (byBus devices)) w k es e := by
  have hA := arrange_arranged h.arrange
  have hmarked : Marked (tilesFrom 0 (byBus devices)) [] ((tilesFrom 0 (byBus devices)).map fun _ => none) := by
    intro i x hx
    have hfree : ((tilesFrom 0 (byBus devices)).map fun _ => (none : Option UInt8))[i]? = some none := by
      rw [List.getElem?_map, hx]
      rfl
    exact iff_of_true hfree fun _ hc => by cases hc
  unfold ofDevices
  rw [h.arrange]
  rcases numberTiles_runs hA (List.nil_append _).symm rfl Consistent.nil hmarked w with
    ⟨es, buses, ids, v, hr, hc, hn⟩ | ⟨k, es, e, v, hs, hn⟩
  · left
    refine ⟨es, ⟨withIds (tilesFrom 0 (byBus devices)) ids⟩, v, buses, ?_, hr, hc⟩
    exact World.runs_bind_ok.mpr ⟨es, [], ids, v, (List.append_nil es).symm, hn, World.runs_pure.mpr ⟨rfl, rfl, rfl⟩⟩
  · right
    exact ⟨k, es, e, v, World.runs_bind.mpr (.inl ⟨e, rfl, hn⟩), hs⟩

/-- Discovery ends with a table if and only if the devices are in order, every tile reports a bus, and the
    reports go together: each tile of a socket is in one report of its socket. Else it fails, with a
    device asked only if the devices are in order; then it asks the tiles in the order of their
    buses, and fails at the first whose question fails or whose report clashes with an earlier one,
    with the failure of that access or with what the clash is called. No bus is without a tile. -/
theorem discovery_accepts_the_consistent (M : Machine μ) (devices : List PciDevice) (w : World μ) :
    ((∃ t, (World.run M (ofDevices devices) w).1 = .ok t) ↔ Orderly devices ∧
        ∃ buses, (World.run M ((tilesFrom 0 (byBus devices)).mapM reportedBus) w).1 = .ok buses ∧
          Consistent (tilesFrom 0 (byBus devices)) buses) ∧
      (¬ Orderly devices → ∃ c, Disorder devices c ∧
        World.Runs M (ofDevices devices) w [] (.error (.topology c)) w) ∧
      (Orderly devices → ∀ e, (World.run M (ofDevices devices) w).1 = .error e →
        ∃ k, Stops M (tilesFrom 0 (byBus devices)) [] (tilesFrom 0 (byBus devices)) w k
          (World.transcript M (ofDevices devices) w) e) ∧
      ∀ bus, (World.run M (ofDevices devices) w).1 = .error (.topology (.unmappedBus bus)) →
        Broke (World.transcript M (ofDevices devices) w) (.topology (.unmappedBus bus)) := by
  have hstops : Orderly devices → ∀ e, (World.run M (ofDevices devices) w).1 = .error e →
      ∃ k, Stops M (tilesFrom 0 (byBus devices)) [] (tilesFrom 0 (byBus devices)) w k
        (World.transcript M (ofDevices devices) w) e := by
    intro ho e he
    rcases ho.runs M w with ⟨es, t, v, buses, hr, -, -⟩ | ⟨k, es, e', v, hr, hs⟩
    · rw [hr.run] at he
      cases he
    · rw [hr.run] at he
      cases he
      exact ⟨k, by rw [hr.transcript]; exact hs⟩
  have hrefused : ¬ Orderly devices → ∃ c, Disorder devices c ∧
      World.Runs M (ofDevices devices) w [] (.error (.topology c)) w := by
    intro hn
    rcases arrange_cases devices with ⟨ho, -⟩ | ⟨c, hc, ha⟩
    · exact absurd ho hn
    · exact ⟨c, hc, runs_disorder ha w⟩
  refine ⟨⟨?_, ?_⟩, hrefused, hstops, ?_⟩
  · rintro ⟨t, ht⟩
    by_cases ho : Orderly devices
    · rcases ho.runs M w with ⟨es, t', v, buses, -, hq, hc⟩ | ⟨k, es, e, v, hr, -⟩
      · exact ⟨ho, buses, by rw [hq.run], hc⟩
      · rw [hr.run] at ht
        cases ht
    · obtain ⟨c, -, hr⟩ := hrefused ho
      rw [hr.run] at ht
      cases ht
  · rintro ⟨ho, buses, hb, hc⟩
    rcases ho.runs M w with ⟨es, t, v, -, hr, -⟩ | ⟨k, es, e, v, -, hs⟩
    · exact ⟨t, by rw [hr.run]⟩
    · have hq := World.runs M ((tilesFrom 0 (byBus devices)).mapM reportedBus) w
      rw [hb] at hq
      exact absurd hc (hs.not_consistent (arrange_arranged ho.arrange) hq)
  · intro bus hbus
    by_cases ho : Orderly devices
    · obtain ⟨k, hs⟩ := hstops ho _ hbus
      cases hs with
      | broke _ _ _ _ hbroke => exact hbroke
      | clashed _ _ _ _ hclash => cases hclash
    · obtain ⟨c, hc, hr⟩ := hrefused ho
      rw [hr.run] at hbus
      cases hbus
      cases hc

/-- A socket whose last two registers name buses of the same tile. -/
def doubled : Simulation.State :=
  Simulation.ofPlans [⟨[0x00, 0x20, 0x61, 0x60], [0x00, 0x20, 0x40, 0x60], { interfaceVersion := 3 }⟩] ⟨[]⟩

theorem byBus_doubled : byBus doubled.found = [onBus 0x00 0, onBus 0x20 1, onBus 0x40 2, onBus 0x60 3] := by
  have hf : doubled.found = [onBus 0x00 0, onBus 0x20 1, onBus 0x40 2, onBus 0x60 3] := by decide +kernel
  rw [hf]
  simp [byBus, onBus, List.mergeSort, List.MergeSort.Internal.splitInTwo]

theorem doubled_orderly : Orderly doubled.found := ⟨by decide +kernel, by decide +kernel, by decide +kernel⟩

theorem run_doubled : (World.run Simulation.machine (ofDevices doubled.found) ⟨doubled, {}⟩).1 =
    .error (.topology (.repeatedBus 0x60)) := by
  rw [ofDevices, doubled_orderly.arrange, byBus_doubled]
  decide +kernel

theorem crossed_accepted_doubled_stopped :
    (Orderly crossed.found ∧ ∃ buses, (World.run Simulation.machine
        ((tilesFrom 0 (byBus crossed.found)).mapM reportedBus) ⟨crossed, {}⟩).1 = .ok buses ∧
      Consistent (tilesFrom 0 (byBus crossed.found)) buses) ∧
    (∃ c, Disorder [] c ∧
      World.Runs Simulation.machine (ofDevices []) ⟨crossed, {}⟩ [] (.error (.topology c)) ⟨crossed, {}⟩) ∧
    ∃ k, Stops Simulation.machine (tilesFrom 0 (byBus doubled.found)) [] (tilesFrom 0 (byBus doubled.found))
      ⟨doubled, {}⟩ k (World.transcript Simulation.machine (ofDevices doubled.found) ⟨doubled, {}⟩)
      (.topology (.repeatedBus 0x60)) := by
  have hempty : ¬ Orderly [] := fun h => by cases h.count <;> contradiction
  refine ⟨?_, ?_, ?_⟩
  · exact (discovery_accepts_the_consistent Simulation.machine crossed.found ⟨crossed, {}⟩).1.mp ⟨_, run_crossed⟩
  · exact (discovery_accepts_the_consistent Simulation.machine [] ⟨crossed, {}⟩).2.1 hempty
  · exact (discovery_accepts_the_consistent Simulation.machine doubled.found ⟨doubled, {}⟩).2.2.1 doubled_orderly _
      run_doubled

end FirmwareMailbox.Topology
