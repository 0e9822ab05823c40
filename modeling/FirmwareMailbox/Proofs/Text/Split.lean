/-
  FirmwareMailbox.Proofs.Text.Split — cutting a text and putting it together again.

  The pieces of a text are those of the library's own `List.splitOn` (`pieces_eq_splitOn`). Trimming takes
  the blanks from both ends of a text and nothing else (`trim_append`, `exists_trim`). A name that has no
  slash in it is the last of the path that it is joined to (`names_joinPath`).

  Lines that are not empty, with a newline between any two, are no place to cut a text into stanzas, whatever
  follows the last of them (`stanzas_unlines`). The stanzas with an empty line between any two are the text
  again, and within a stanza there is no empty line to cut at (`intercalate_stanzas`, `stanzas_uncut`).
-/

import FirmwareMailbox.Storage.Path
import FirmwareMailbox.Text.Blank
import FirmwareMailbox.Text.Path

namespace FirmwareMailbox

namespace Text

variable {sep : Char} {cs a b : List Char}

theorem splitOnce_eq_none : splitOnce sep cs = none ↔ sep ∉ cs := by
  induction cs with
  | nil => simp [splitOnce]
  | cons c cs ih =>
    by_cases hc : c = sep
    · simp [splitOnce, hc]
    · simp [splitOnce, hc, ih, Ne.symm hc]

theorem splitOnce_eq_some : splitOnce sep cs = some (a, b) ↔ cs = a ++ sep :: b ∧ sep ∉ a := by
  induction cs generalizing a with
  | nil => simp [splitOnce]
  | cons c cs ih =>
    by_cases hc : c = sep
    · subst hc
      cases a with
      | nil => simp [splitOnce]
      | cons x a => simp +contextual [splitOnce, eq_comm]
    · have hc' : ¬ sep = c := fun h => hc h.symm
      cases a with
      | nil => simp [splitOnce, hc]
      | cons x a =>
        simp only [splitOnce, if_neg hc, Option.map_eq_some_iff, Prod.mk.injEq, Prod.exists, List.cons.injEq,
          List.cons_append, List.mem_cons, not_or]
        constructor
        · rintro ⟨a', b', h, ⟨rfl, rfl⟩, rfl⟩
          obtain ⟨rfl, hn⟩ := ih.mp h
          exact ⟨⟨rfl, rfl⟩, hc', hn⟩
        · rintro ⟨⟨rfl, rfl⟩, -, hn⟩
          exact ⟨a, b, ih.mpr ⟨rfl, hn⟩, ⟨rfl, rfl⟩, rfl⟩

theorem dropLead?_eq_some {lead rest : List Char} : dropLead? lead cs = some rest ↔ cs = lead ++ rest := by
  induction lead generalizing cs with
  | nil => simp [dropLead?]
  | cons p lead ih =>
    cases cs with
    | nil => simp [dropLead?]
    | cons c cs =>
      by_cases hp : p = c
      · simp [dropLead?, hp, ih]
      · simp [dropLead?, hp, Ne.symm hp]

theorem pieces_eq_splitOn (sep : Char) (cs : List Char) : pieces sep cs = cs.splitOn sep := by
  induction cs with
  | nil => rfl
  | cons c cs ih =>
    rw [pieces, ih, List.splitOn_cons_eq_if_modifyHead]
    by_cases hc : c = sep
    · simp [hc]
    · rw [if_neg hc, if_neg (by simpa using hc)]
      cases h : cs.splitOn sep with
      | nil => exact absurd h (List.splitOn_ne_nil sep cs)
      | cons p ps => rfl

/-! ## Blanks -/

theorem trimLeft_append {before : List Char} (hb : ∀ c ∈ before, isBlank c = true)
    (hc : ∀ c ∈ cs.head?, isBlank c = false) : trimLeft (before ++ cs) = cs := by
  rw [trimLeft, List.dropWhile_append_of_pos hb]
  cases cs with
  | nil => rfl
  | cons c cs => exact List.dropWhile_cons_of_neg (by simp [hc c rfl])

theorem trimRight_append {after : List Char} (ha : ∀ c ∈ after, isBlank c = true)
    (hc : ∀ c ∈ cs.getLast?, isBlank c = false) : trimRight (cs ++ after) = cs := by
  have hback : trimLeft (after.reverse ++ cs.reverse) = cs.reverse :=
    trimLeft_append (fun c hc => ha c (List.mem_reverse.mp hc)) (by rwa [List.head?_reverse])
  rw [trimRight, List.reverse_append]
  exact (congrArg List.reverse hback).trans cs.reverse_reverse

/-- What has no blanks at its ends remains of what stands between blanks. -/
theorem trim_append {before after : List Char} (hb : ∀ c ∈ before, isBlank c = true)
    (ha : ∀ c ∈ after, isBlank c = true) (hfirst : ∀ c ∈ cs.head?, isBlank c = false)
    (hlast : ∀ c ∈ cs.getLast?, isBlank c = false) (hne : cs ≠ []) : trim (before ++ cs ++ after) = cs := by
  have hhead : ∀ c ∈ (cs ++ after).head?, isBlank c = false := by
    rwa [List.head?_append, Option.or_of_isSome (List.isSome_head?.mpr hne)]
  rw [trim, List.append_assoc, trimLeft_append hb hhead, trimRight_append ha hlast]

/-- What trimming takes away are blanks at the ends. -/
theorem exists_trim (cs : List Char) : ∃ before after, cs = before ++ trim cs ++ after ∧
    (∀ c ∈ before, isBlank c = true) ∧ ∀ c ∈ after, isBlank c = true := by
  have htaken : ∀ l : List Char, ∀ c ∈ l.takeWhile isBlank, isBlank c = true := fun l c hc =>
    List.all_eq_true.mp List.all_takeWhile c hc
  refine ⟨cs.takeWhile isBlank, ((trimLeft cs).reverse.takeWhile isBlank).reverse, ?_, htaken cs,
    fun c hc => htaken _ c (List.mem_reverse.mp hc)⟩
  have hright : trim cs ++ ((trimLeft cs).reverse.takeWhile isBlank).reverse = trimLeft cs := by
    rw [trim, trimRight, ← List.reverse_append, List.takeWhile_append_dropWhile, List.reverse_reverse]
  rw [List.append_assoc, hright]
  exact List.takeWhile_append_dropWhile.symm

/-! ## Lines and stanzas -/

/-- The lines, a newline between any two. -/
def unlines (ls : List (List Char)) : List Char := ['\n'].intercalate ls

theorem unlines_cons (l : List Char) {ls : List (List Char)} (h : ls ≠ []) :
    unlines (l :: ls) = l ++ '\n' :: unlines ls := by
  rw [unlines, List.intercalate_cons_of_ne_nil h, List.append_assoc, List.singleton_append]
  rfl

theorem lines_unlines {ls : List (List Char)} (h : ∀ l ∈ ls, '\n' ∉ l) (hne : ls ≠ []) :
    lines (unlines ls) = ls := by
  rw [lines, pieces_eq_splitOn, unlines, List.splitOn_intercalate '\n' h hne]

theorem stanzas_ne_nil (cs : List Char) : stanzas cs ≠ [] := by
  unfold stanzas
  split
  · exact List.cons_ne_nil _ _
  · exact List.cons_ne_nil _ _
  · rename_i cs _
    cases stanzas cs <;> exact List.cons_ne_nil _ _

theorem stanzas_cons {c : Char} (h : c ≠ '\n' ∨ cs.head? ≠ some '\n') :
    stanzas (c :: cs) = consHead c (stanzas cs) := by
  rw [stanzas]
  rintro cs rfl rfl
  simp at h

theorem intercalate_stanzas (cs : List Char) : ['\n', '\n'].intercalate (stanzas cs) = cs := by
  induction cs using stanzas.induct with
  | case1 => rfl
  | case2 cs ih =>
    rw [stanzas, List.intercalate_cons_of_ne_nil (stanzas_ne_nil cs), ih]
    rfl
  | case3 c cs hcut ih =>
    rw [stanzas]
    · cases hs : stanzas cs with
      | nil => exact absurd hs (stanzas_ne_nil cs)
      | cons p ps =>
        rw [hs] at ih
        rw [consHead, List.intercalate_cons_cons_left, ih]
    · exact hcut

/-- The first stanza starts as the text does. -/
theorem stanzas_head_starts {p : List Char} {ps : List (List Char)} (h : stanzas cs = p :: ps) : p <+: cs := by
  have hcs := intercalate_stanzas cs
  rw [h] at hcs
  cases ps with
  | nil =>
    rw [List.intercalate_singleton] at hcs
    exact hcs ▸ List.prefix_rfl
  | cons q ps =>
    rw [List.intercalate_cons_of_ne_nil (List.cons_ne_nil q ps), List.append_assoc] at hcs
    exact ⟨_, hcs⟩

theorem stanzas_uncut (cs : List Char) : ∀ p ∈ stanzas cs, ¬ ['\n', '\n'] <:+: p := by
  induction cs using stanzas.induct with
  | case1 => simp [stanzas]
  | case2 cs ih =>
    rw [stanzas]
    exact List.forall_mem_cons.mpr ⟨by simp, ih⟩
  | case3 c cs hcut ih =>
    rw [stanzas]
    · cases hs : stanzas cs with
      | nil => exact absurd hs (stanzas_ne_nil cs)
      | cons p ps =>
        rw [hs] at ih
        obtain ⟨hp, hps⟩ := List.forall_mem_cons.mp ih
        refine List.forall_mem_cons.mpr ⟨fun hinfix => ?_, hps⟩
        rcases List.infix_cons_iff.mp hinfix with hprefix | hinfix
        · -- the text itself would start with two newlines
          obtain ⟨rest, hrest⟩ := hprefix.trans ((List.prefix_cons_inj c).mpr (stanzas_head_starts hs))
          obtain ⟨rfl, hcs⟩ := List.cons.inj hrest
          exact hcut rest rfl hcs.symm
        · exact hp hinfix
    · exact hcut

/-- A line is part of the first stanza. -/
theorem stanzas_append {l p : List Char} {ps : List (List Char)} (hl : '\n' ∉ l) (h : stanzas cs = p :: ps) :
    stanzas (l ++ cs) = (l ++ p) :: ps := by
  induction l with
  | nil => exact h
  | cons c l ih =>
    have hc : c ≠ '\n' := fun hc => hl (hc ▸ List.mem_cons_self ..)
    rw [List.cons_append, stanzas_cons (.inl hc), ih fun hmem => hl (List.mem_cons_of_mem c hmem)]
    rfl

theorem stanzas_unlines {ls : List (List Char)} {p : List Char} {ps : List (List Char)}
    (hls : ∀ l ∈ ls, l ≠ [] ∧ '\n' ∉ l) (h : stanzas cs = p :: ps) :
    stanzas (unlines ls ++ cs) = (unlines ls ++ p) :: ps := by
  induction ls with
  | nil => exact h
  | cons l ls ih =>
    obtain ⟨hl, hls⟩ := List.forall_mem_cons.mp hls
    cases ls with
    | nil =>
      have hlast : unlines [l] = l := List.intercalate_singleton
      rw [hlast]
      exact stanzas_append hl.2 h
    | cons next ls =>
      -- the newline after a line is followed by the first character of the next line
      have hhead : (unlines (next :: ls) ++ cs).head? ≠ some '\n' := by
        obtain ⟨hnext, hfree⟩ := hls next (List.mem_cons_self ..)
        cases next with
        | nil => exact absurd rfl hnext
        | cons c next =>
          rw [unlines, List.intercalate_cons_cons_left]
          exact fun hc => hfree (Option.some.inj hc ▸ List.mem_cons_self ..)
      rw [unlines_cons l (List.cons_ne_nil next ls), List.append_assoc, List.cons_append]
      refine (stanzas_append hl.2 ?_).trans (congrArg (· :: ps) (List.append_assoc l ('\n' :: _) p).symm)
      rw [stanzas_cons (.inr hhead), ih hls]
      rfl

end Text

namespace Storage

open Text

/-- A slash between two paths separates their names. -/
theorem names_slash (p q : List Char) :
    names (String.ofList (p ++ '/' :: q)) = names (String.ofList p) ++ names (String.ofList q) := by
  simp only [names, pieces_eq_splitOn, String.toList_ofList, List.splitOn_append_cons_self, List.filter_append,
    List.map_append]

theorem names_singleton {name : String} (hn : '/' ∉ name.toList) (hne : name ≠ "") : names name = [name] := by
  have hlist : name.toList ≠ [] := fun h => hne (String.toList_eq_nil_iff.mp h)
  simp [names, pieces_eq_splitOn, List.splitOn_eq_singleton hn, hlist]

/-- A name that is joined to a path is its last name. -/
theorem names_joinPath {root name : String} (hn : '/' ∉ name.toList) (hne : name ≠ "") :
    names (joinPath root name) = names root ++ [name] := by
  have hempty : names "" = [] := rfl
  have hstart : name.startsWith '/' = false := by
    rw [String.startsWith_char_eq_head?, beq_eq_false_iff_ne]
    exact fun h => hn (List.mem_of_mem_head? h)
  rw [joinPath, hstart, if_neg Bool.false_ne_true, ← names_singleton hn hne]
  split
  · rename_i hroot
    rcases Bool.or_eq_true_iff.mp hroot with hroot | hroot
    · obtain rfl := String.isEmpty_iff.mp hroot
      rw [String.empty_append, hempty, List.nil_append]
    · -- the slash that separates them is the last character of the path
      obtain ⟨p, rfl⟩ := String.endsWith_char_iff_exists_append.mp hroot
      have hroot : p ++ String.singleton '/' = String.ofList (p.toList ++ '/' :: []) := by simp
      have hjoin : p ++ String.singleton '/' ++ name = String.ofList (p.toList ++ '/' :: name.toList) := by
        apply String.toList_injective
        simp
      rw [hjoin, names_slash, hroot, names_slash, String.ofList_nil, hempty, List.append_nil,
        String.ofList_toList, String.ofList_toList]
  · have hjoin : root ++ "/" ++ name = String.ofList (root.toList ++ '/' :: name.toList) := by
      apply String.toList_injective
      simp
    rw [hjoin, names_slash, String.ofList_toList, String.ofList_toList]

end Storage

end FirmwareMailbox
