/-
  FirmwareMailbox.Proofs.Topology.Walk — the walk over the tiles of a table.

  A walk asks for a bus and goes on with the index that it got, until that is 0 (`Walks`). The index at which
  it starts is the one that ends it, so what carries a walk is that the index it goes on with is the next
  place in the table, which is never 0. From a place on, a walk has the lowest buses of the tiles from there
  on, and no walk has others (`walks_iff`).

  In a table that discovery makes these are all the tiles, each once, in ascending order of their lowest buses
  from bus 0 on (`Walkable`).
-/

import FirmwareMailbox.Proofs.Topology.Buses

namespace FirmwareMailbox.Topology

/-- The calls from `index` on, each with the index that the one before it gave, return these buses. -/
inductive Walks (t : Topology) : Nat → List UInt8 → Prop
  | last {index : Nat} {bus : UInt8} : t.busAfter index = .ok (bus, 0) → Walks t index [bus]
  | more {index next : Nat} {bus : UInt8} {rest : List UInt8} : t.busAfter index = .ok (bus, next) → next ≠ 0 →
      Walks t next rest → Walks t index (bus :: rest)

variable {t : Topology} {index : Nat} {buses : List UInt8}

theorem busAfter_eq_ok (h : index < t.tiles.length) : t.busAfter index =
    .ok (t.tiles[index].firstBus, if index + 1 < t.tiles.length then index + 1 else 0) := by
  rw [busAfter, List.getElem?_eq_getElem h]

theorem busAfter_eq_error (h : t.tiles.length ≤ index) :
    t.busAfter index = .error (.invalidArgument (.busIndex index)) := by
  rw [busAfter, List.getElem?_eq_none h]

/-- Each call has one answer, so there is one walk at most. -/
theorem Walks.unique {others : List UInt8} (h : Walks t index buses) (h' : Walks t index others) :
    buses = others := by
  induction h generalizing others with
  | last hcall =>
    cases h' with
    | last hcall' =>
      rw [hcall] at hcall'
      cases hcall'
      rfl
    | more hcall' hne =>
      rw [hcall] at hcall'
      cases hcall'
      exact absurd rfl hne
  | more hcall hne _ ih =>
    cases h' with
    | last hcall' =>
      rw [hcall] at hcall'
      cases hcall'
      exact absurd rfl hne
    | more hcall' _ hrest =>
      rw [hcall] at hcall'
      cases hcall'
      rw [ih hrest]

theorem walks_drop (h : index < t.tiles.length) : Walks t index (t.lowestBuses.drop index) := by
  -- by the number of tiles that are left, which each call makes one less
  induction hleft : t.tiles.length - index generalizing index with
  | zero => omega
  | succ left ih =>
    have hcall := busAfter_eq_ok h
    have hlength : index < t.lowestBuses.length := by simpa [lowestBuses] using h
    have hbus : t.lowestBuses[index] = t.tiles[index].firstBus := by simp [lowestBuses]
    rw [List.drop_eq_getElem_cons hlength, hbus]
    by_cases hnext : index + 1 < t.tiles.length
    · rw [if_pos hnext] at hcall
      exact .more hcall (Nat.succ_ne_zero index) (ih hnext (by omega))
    · rw [if_neg hnext] at hcall
      have hend : t.lowestBuses.drop (index + 1) = [] := by
        apply List.drop_eq_nil_of_le
        simpa [lowestBuses] using hnext
      rw [hend]
      exact .last hcall

theorem walks_iff (h : index < t.tiles.length) : Walks t index buses ↔ buses = t.lowestBuses.drop index := by
  constructor
  · intro hwalk
    exact hwalk.unique (walks_drop h)
  · intro hbuses
    rw [hbuses]
    exact walks_drop h

/-- A walk over the table from its start visits each tile once, in the order of the buses, and nothing lies
    behind the table. -/
structure Walkable (t : Topology) : Prop where
  walks_iff : ∀ buses, Walks t 0 buses ↔ buses = t.lowestBuses
  calls : t.lowestBuses.length = t.tiles.length
  start : t.lowestBuses.head? = some 0
  ascending : t.lowestBuses.Pairwise (· < ·)
  /-- As long as there is an answer, one can be added to the index. -/
  within : ∀ (index : UInt64) bus next, t.busAfter index.toNat = .ok (bus, next) →
    (index + 1).toNat = index.toNat + 1 ∧ (next = 0 ∨ next = index.toNat + 1)
  past : ∀ index, t.tiles.length ≤ index → t.busAfter index = .error (.invalidArgument (.busIndex index))

theorem Arranged.walkable (h : Arranged t.tiles) : Walkable t := by
  have hsize : 0 < t.tiles.length ∧ t.tiles.length ≤ 8 := by
    rcases h.length with hl | hl <;> omega
  refine ⟨fun buses => Topology.walks_iff hsize.1, by simp [lowestBuses], ?_, ?_, ?_, fun i => busAfter_eq_error⟩
  · have hhead := h.spans.head
    cases hfirst : t.tiles.head? with
    | none =>
      rw [hfirst] at hhead
      cases hhead
    | some x =>
      rw [hfirst] at hhead
      have hzero : x.firstBus = 0 := UInt8.toNat_inj.mp (Option.some.inj hhead)
      rw [lowestBuses, List.head?_map, hfirst, Option.map_some, hzero]
  · exact List.pairwise_map.mpr h.spans.ascending
  · intro index bus next hcall
    have hindex : index.toNat < t.tiles.length := by
      by_contra hpast
      rw [busAfter_eq_error (Nat.le_of_not_lt hpast)] at hcall
      cases hcall
    have hsucc : (index + 1).toNat = index.toNat + 1 := by
      have hone : (1 : UInt64).toNat = 1 := rfl
      rw [UInt64.toNat_add, hone]
      omega
    refine ⟨hsucc, ?_⟩
    rw [busAfter_eq_ok hindex] at hcall
    cases hcall
    split
    · exact .inr rfl
    · exact .inl rfl

end FirmwareMailbox.Topology
