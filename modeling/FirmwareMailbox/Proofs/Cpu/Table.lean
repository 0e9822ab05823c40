/-
  FirmwareMailbox.Proofs.Cpu.Table — the table as a map from CPU numbers.

  An entry that is put in its place is found by its number, and by every other number what was found before
  (`find?_place`). After many were put in, the last one of a number is found (`find?_putAll`).

  The place of an entry keeps the table in ascending order of the numbers (`Ascending.place`). So a number has
  one entry, and what the table lists is what is found in it (`Ascending.mem_iff`).
-/

import FirmwareMailbox.Cpu.Table

namespace FirmwareMailbox

/-- Of an element and what follows it, what follows counts first. -/
theorem getLast?_filterMap_cons {α β : Type} (f : α → Option β) (x : α) (xs : List α) :
    ((x :: xs).filterMap f).getLast? = (xs.filterMap f).getLast?.or (f x) := by
  cases hx : f x with
  | none => rw [List.filterMap_cons_none hx, Option.or_none]
  | some b =>
    rw [List.filterMap_cons_some hx, List.getLast?_cons]
    cases (xs.filterMap f).getLast? <;> rfl

/-- The last element that a partial function has a value for. -/
theorem getLast?_filterMap_eq_some {α β : Type} {f : α → Option β} {xs : List α} {b : β} :
    (xs.filterMap f).getLast? = some b ↔
      ∃ before x after, xs = before ++ x :: after ∧ f x = some b ∧ ∀ y ∈ after, f y = none := by
  rw [List.getLast?_filterMap, List.findSome?_eq_some_iff]
  constructor
  · intro h
    obtain ⟨after, x, before, hxs, hx, hafter⟩ := h
    refine ⟨before.reverse, x, after.reverse, ?_, hx, fun y hy => hafter y (List.mem_reverse.mp hy)⟩
    rw [← xs.reverse_reverse, hxs]
    simp
  · intro h
    obtain ⟨before, x, after, hxs, hx, hafter⟩ := h
    refine ⟨after.reverse, x, before.reverse, ?_, hx, fun y hy => hafter y (List.mem_reverse.mp hy)⟩
    rw [hxs]
    simp

namespace CpuTable

theorem find?_place (cpu : Nat) (e : CpuEntry) (entries : List (Nat × CpuEntry)) (c : Nat) :
    find? ⟨place cpu e entries⟩ c = if c = cpu then some e else find? ⟨entries⟩ c := by
  induction entries with
  | nil => by_cases hc : c = cpu <;> simp [find?, place, hc, eq_comm]
  | cons first rest ih =>
    obtain ⟨d, old⟩ := first
    unfold place
    split
    · by_cases hc : c = cpu
      · simp [find?, hc]
      · simp [find?, hc, Ne.symm hc]
    · rename_i hge
      split
      · rename_i heq
        subst heq
        by_cases hc : c = cpu
        · simp [find?, hc]
        · simp [find?, hc, Ne.symm hc]
      · rename_i hne
        -- what comes before the place has other numbers
        by_cases hd : d = c
        · subst hd
          simp [find?, Ne.symm hne]
        · simpa [find?, hd] using ih

/-- The entries put in one after the other. -/
def putAll (entries : List (Nat × CpuEntry)) (t : CpuTable) : CpuTable :=
  entries.foldl (fun t p => ⟨place p.1 p.2 t.entries⟩) t

/-- There is room for all numbers but the highest. -/
theorem foldlM_insert {entries : List (Nat × CpuEntry)} (h : ∀ p ∈ entries, p.1 ≤ highest) (t : CpuTable) :
    entries.foldlM (fun t p => t.insert p.1 p.2) t = .ok (t.putAll entries) := by
  induction entries generalizing t with
  | nil => rfl
  | cons p rest ih =>
    obtain ⟨hp, hrest⟩ := List.forall_mem_cons.mp h
    rw [List.foldlM_cons, insert, if_pos hp]
    exact ih hrest _

theorem find?_putAll (entries : List (Nat × CpuEntry)) (t : CpuTable) (c : Nat) : (t.putAll entries).find? c =
    (entries.filterMap fun p => if p.1 = c then some p.2 else none).getLast?.or (t.find? c) := by
  induction entries generalizing t with
  | nil => rfl
  | cons p rest ih =>
    have hput : t.putAll (p :: rest) = putAll rest ⟨place p.1 p.2 t.entries⟩ := rfl
    rw [hput, ih, find?_place, getLast?_filterMap_cons, Option.or_assoc]
    by_cases hc : c = p.1
    · rw [if_pos hc, if_pos hc.symm, Option.some_or]
    · rw [if_neg hc, if_neg (Ne.symm hc), Option.none_or]

theorem mem_of_find? {t : CpuTable} {c : Nat} {e : CpuEntry} (h : t.find? c = some e) : (c, e) ∈ t.entries := by
  obtain ⟨p, hp, rfl⟩ := Option.map_eq_some_iff.mp h
  have hc : p.1 = c := by simpa using List.find?_some hp
  subst hc
  exact List.mem_of_find?_eq_some hp

theorem get_eq_ok {t : CpuTable} {cpu : Nat} {e : CpuEntry} : t.get cpu = .ok e ↔ t.find? cpu = some e := by
  unfold get
  cases t.find? cpu <;> simp

theorem get_eq_error {t : CpuTable} {cpu : Nat} :
    t.get cpu = .error (.invalidArgument (.absentCpu cpu)) ↔ t.find? cpu = none := by
  unfold get
  cases t.find? cpu <;> simp

/-! ## The order of the entries -/

/-- The entries are in strictly ascending order of their numbers. -/
def Ascending (entries : List (Nat × CpuEntry)) : Prop := entries.Pairwise fun p q => p.1 < q.1

/-- What is in a table after an entry was put there was there before or is that entry. -/
theorem mem_place {cpu : Nat} {e : CpuEntry} {entries : List (Nat × CpuEntry)} {p : Nat × CpuEntry}
    (h : p ∈ place cpu e entries) : p = (cpu, e) ∨ p ∈ entries := by
  induction entries with
  | nil => exact .inl (List.mem_singleton.mp h)
  | cons first rest ih =>
    obtain ⟨c, d⟩ := first
    unfold place at h
    split at h
    · exact List.mem_cons.mp h
    · split at h
      · exact (List.mem_cons.mp h).imp_right (List.mem_cons_of_mem _)
      · rcases List.mem_cons.mp h with h | h
        · exact .inr (List.mem_cons.mpr (.inl h))
        · exact (ih h).imp_right (List.mem_cons_of_mem _)

theorem Ascending.place {entries : List (Nat × CpuEntry)} (h : Ascending entries) (cpu : Nat) (e : CpuEntry) :
    Ascending (place cpu e entries) := by
  induction entries with
  | nil => exact List.pairwise_singleton _ _
  | cons first rest ih =>
    obtain ⟨c, d⟩ := first
    obtain ⟨hfirst, hrest⟩ := List.pairwise_cons.mp h
    unfold CpuTable.place
    by_cases hlt : cpu < c
    · rw [if_pos hlt]
      refine List.pairwise_cons.mpr ⟨fun q hq => ?_, h⟩
      rcases List.mem_cons.mp hq with rfl | hq
      · exact hlt
      · exact Nat.lt_trans hlt (hfirst q hq)
    · by_cases heq : cpu = c
      · rw [if_neg hlt, if_pos heq]
        exact List.pairwise_cons.mpr ⟨fun q hq => heq ▸ hfirst q hq, hrest⟩
      · rw [if_neg hlt, if_neg heq]
        refine List.pairwise_cons.mpr ⟨fun q hq => ?_, ih hrest⟩
        rcases mem_place hq with rfl | hq
        · show c < cpu
          omega
        · exact hfirst q hq

theorem Ascending.putAll {t : CpuTable} (h : Ascending t.entries) (entries : List (Nat × CpuEntry)) :
    Ascending (t.putAll entries).entries := by
  induction entries generalizing t with
  | nil => exact h
  | cons p rest ih => exact ih (h.place p.1 p.2)

/-- In order, no two entries have one number, so each is found. -/
theorem Ascending.mem_iff {t : CpuTable} (h : Ascending t.entries) {c : Nat} {e : CpuEntry} :
    (c, e) ∈ t.entries ↔ t.find? c = some e := by
  refine ⟨fun hmem => ?_, mem_of_find?⟩
  obtain ⟨entries⟩ := t
  induction entries with
  | nil => cases hmem
  | cons q rest ih =>
    obtain ⟨hfirst, hrest⟩ := List.pairwise_cons.mp h
    rcases List.mem_cons.mp hmem with hq | hmem
    · simp [find?, ← hq]
    · have hne : q.1 ≠ c := Nat.ne_of_lt (hfirst _ hmem)
      simpa [find?, hne] using ih hrest hmem

theorem Ascending.nodup {entries : List (Nat × CpuEntry)} (h : Ascending entries) : (entries.map (·.1)).Nodup :=
  List.pairwise_map.mpr (h.imp fun hlt => Nat.ne_of_lt hlt)

/-- In order, entries are listed in one way only. -/
theorem Ascending.eq_of_mem_iff {entries others : List (Nat × CpuEntry)} (h : Ascending entries)
    (h' : Ascending others) (hmem : ∀ p, p ∈ entries ↔ p ∈ others) : entries = others := by
  have hnodup : ∀ {l : List (Nat × CpuEntry)}, Ascending l → l.Nodup :=
    fun hl => hl.imp fun hlt heq => Nat.ne_of_lt hlt (congrArg Prod.fst heq)
  have hperm := (List.perm_ext_iff_of_nodup (hnodup h) (hnodup h')).mpr hmem
  exact hperm.eq_of_pairwise (fun p q _ _ hpq hqp => absurd hpq (Nat.lt_asymm hqp)) h h'

end CpuTable

end FirmwareMailbox
