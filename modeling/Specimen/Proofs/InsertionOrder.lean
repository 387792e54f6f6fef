import Mathlib.Data.List.Basic
import Specimen.Entries

/-!
# Entries and the pairs they come from

Pairs with distinct names that are inserted one after the other stand in the entries as they came
(`toList_ofList`), and each name has the value of its pair (`lookup_of_mem`). If names repeat, a
name has the place of its first pair (`names_ofList`) and the value of its last one
(`get?_ofList_eq_some_iff`).
-/

namespace Specimen.Entries

variable {α : Type}

theorem put_of_not_mem {name : String} {value : α} {pairs : List (String × α)}
    (h : name ∉ pairs.map Prod.fst) : put name value pairs = pairs ++ [(name, value)] := by
  induction pairs with
  | nil => rfl
  | cons p pairs ih =>
    simp only [List.map_cons, List.mem_cons, not_or] at h
    rw [put, if_neg (Ne.symm h.1), ih h.2, List.cons_append]

/-- Only the value under the name is replaced. -/
theorem put_of_mem {name : String} {value : α} {pairs : List (String × α)}
    (h : name ∈ pairs.map Prod.fst) :
    ∃ before old after, pairs = before ++ (name, old) :: after ∧
      put name value pairs = before ++ (name, value) :: after := by
  induction pairs with
  | nil => exact absurd h List.not_mem_nil
  | cons p pairs ih =>
    obtain ⟨n, v⟩ := p
    by_cases hn : n = name
    · subst hn
      exact ⟨[], v, pairs, rfl, if_pos rfl⟩
    · have hrest : name ∈ pairs.map Prod.fst := (List.mem_cons.mp h).resolve_left (Ne.symm hn)
      obtain ⟨before, old, after, hpairs, hput⟩ := ih hrest
      refine ⟨(n, v) :: before, old, after, ?_, ?_⟩
      · rw [hpairs, List.cons_append]
      · rw [put, if_neg hn, hput, List.cons_append]

/-- Inserting pairs with new and distinct names puts them behind the entries. -/
theorem toList_foldl_insert {pairs : List (String × α)} {e : Entries α}
    (h : ((e.toList ++ pairs).map Prod.fst).Nodup) :
    (pairs.foldl (fun e p => e.insert p.1 p.2) e).toList = e.toList ++ pairs := by
  induction pairs generalizing e with
  | nil => rw [List.foldl_nil, List.append_nil]
  | cons p pairs ih =>
    have hnew : p.1 ∉ e.toList.map Prod.fst := by
      rw [List.map_append, List.map_cons] at h
      intro hmem
      exact (List.nodup_append.mp h).2.2 p.1 hmem p.1 (List.mem_cons_self ..) rfl
    have hput : (e.insert p.1 p.2).toList = e.toList ++ [p] := put_of_not_mem hnew
    rw [List.append_cons] at h
    rw [List.foldl_cons, ih (hput ▸ h), hput, ← List.append_cons]

theorem toList_ofList {pairs : List (String × α)} (h : (pairs.map Prod.fst).Nodup) :
    (ofList pairs).toList = pairs :=
  toList_foldl_insert h

theorem eq_of_toList_eq {a b : Entries α} (h : a.toList = b.toList) : a = b := by
  obtain ⟨pairs, hdistinct⟩ := a
  obtain rfl : pairs = b.toList := h
  rfl

@[simp]
theorem ofList_toList (e : Entries α) : ofList e.toList = e :=
  eq_of_toList_eq (toList_ofList e.distinct)

theorem lookup_of_mem {name : String} {value : α} {pairs : List (String × α)}
    (hnodup : (pairs.map Prod.fst).Nodup) (h : (name, value) ∈ pairs) :
    pairs.lookup name = some value := by
  induction pairs with
  | nil => exact absurd h List.not_mem_nil
  | cons p pairs ih =>
    rw [List.map_cons, List.nodup_cons] at hnodup
    rcases List.mem_cons.mp h with rfl | hrest
    · rw [List.lookup_cons_self]
    · have hne : name ≠ p.1 := by
        intro heq
        exact hnodup.1 (heq ▸ List.mem_map_of_mem hrest)
      rw [List.lookup_cons, beq_false_of_ne hne]
      exact ih hnodup.2 hrest

/-! ## Names in the order of their first pairs -/

/-- The names of a list, in the order in which they first occur in it. -/
structure FirstOccurrences (names all : List String) : Prop where
  mem_iff (name : String) : name ∈ names ↔ name ∈ all
  ordered : names.Pairwise fun a b => all.idxOf a < all.idxOf b

namespace FirstOccurrences

variable {names all : List String} {name : String}

theorem nil : FirstOccurrences [] [] where
  mem_iff _ := Iff.rfl
  ordered := .nil

theorem nodup (h : FirstOccurrences names all) : names.Nodup :=
  h.ordered.imp fun hlt heq => absurd (heq ▸ hlt) (Nat.lt_irrefl _)

/-- What stands behind a list does not move the first occurrences of its names. -/
theorem ordered_append (h : FirstOccurrences names all) (later : List String) :
    names.Pairwise fun a b => (all ++ later).idxOf a < (all ++ later).idxOf b := by
  have hstays : ∀ a ∈ names, (all ++ later).idxOf a = all.idxOf a :=
    fun a ha => List.idxOf_append_of_mem ((h.mem_iff a).mp ha)
  refine h.ordered.imp_of_mem fun {a b} ha hb hlt => ?_
  rwa [hstays a ha, hstays b hb]

theorem append_known (h : FirstOccurrences names all) (hname : name ∈ names) :
    FirstOccurrences names (all ++ [name]) where
  mem_iff other := by
    rw [List.mem_append, List.mem_singleton, ← h.mem_iff other]
    exact ⟨Or.inl, fun hor => hor.elim id fun heq => heq ▸ hname⟩
  ordered := h.ordered_append [name]

theorem append_new (h : FirstOccurrences names all) (hname : name ∉ names) :
    FirstOccurrences (names ++ [name]) (all ++ [name]) where
  mem_iff other := by
    rw [List.mem_append, List.mem_append, h.mem_iff other]
  ordered := by
    have hnew : name ∉ all := fun hall => hname ((h.mem_iff name).mpr hall)
    refine List.pairwise_append.mpr ⟨h.ordered_append [name], List.pairwise_singleton _ _, ?_⟩
    -- the names so far occur within the list, the new one only behind it
    intro a ha b hb
    obtain rfl := List.mem_singleton.mp hb
    have hbefore : a ∈ all := (h.mem_iff a).mp ha
    calc (all ++ [b]).idxOf a = all.idxOf a := List.idxOf_append_of_mem hbefore
      _ < all.length := List.idxOf_lt_length_of_mem hbefore
      _ ≤ (all ++ [b]).idxOf b := by
        rw [List.idxOf_append_of_notMem hnew]
        exact Nat.le_add_right _ _

end FirstOccurrences

@[simp]
theorem names_insert (e : Entries α) (name : String) (value : α) :
    (e.insert name value).names = if name ∈ e.names then e.names else e.names ++ [name] :=
  map_fst_put name value e.toList

/-- One more pair leaves the names in the order of their first pairs. -/
theorem firstOccurrences_insert {e : Entries α} {all : List String}
    (h : FirstOccurrences e.names all) (name : String) (value : α) :
    FirstOccurrences (e.insert name value).names (all ++ [name]) := by
  rw [names_insert]
  split
  · rename_i hname
    exact h.append_known hname
  · rename_i hname
    exact h.append_new hname

theorem firstOccurrences_foldl_insert (pairs : List (String × α)) {e : Entries α}
    {all : List String} (h : FirstOccurrences e.names all) :
    FirstOccurrences (pairs.foldl (fun e p => e.insert p.1 p.2) e).names
      (all ++ pairs.map Prod.fst) := by
  induction pairs generalizing e all with
  | nil => rwa [List.map_nil, List.append_nil]
  | cons p pairs ih =>
    rw [List.foldl_cons, List.map_cons, List.append_cons]
    exact ih (firstOccurrences_insert h p.1 p.2)

theorem names_ofList (pairs : List (String × α)) :
    FirstOccurrences (ofList pairs).names (pairs.map Prod.fst) :=
  firstOccurrences_foldl_insert (e := empty) pairs .nil

/-! ## Values under a name -/

section Lookup

variable {κ : Type} [BEq κ] [LawfulBEq κ]

theorem lookup_cons_ite [DecidableEq κ] (name : κ) (p : κ × α) (pairs : List (κ × α)) :
    (p :: pairs).lookup name = if name = p.1 then some p.2 else pairs.lookup name := by
  obtain ⟨n, v⟩ := p
  rw [List.lookup_cons]
  by_cases h : name = n
  · rw [if_pos h, beq_iff_eq.mpr h]
  · rw [if_neg h, beq_false_of_ne h]

theorem lookup_eq_none_iff {pairs : List (κ × α)} {name : κ} :
    pairs.lookup name = none ↔ name ∉ pairs.map Prod.fst := by
  rw [List.lookup_eq_none_iff, List.mem_map]
  constructor
  · rintro h ⟨p, hp, rfl⟩
    exact absurd (h p hp) (by simp)
  · intro h p hp
    rw [bne_iff_ne]
    rintro rfl
    exact h ⟨p, hp, rfl⟩

end Lookup

theorem get?_eq_none_iff {e : Entries α} {name : String} :
    e.get? name = none ↔ name ∉ e.names :=
  lookup_eq_none_iff

@[simp]
theorem lookup_put (name other : String) (value : α) (pairs : List (String × α)) :
    (put name value pairs).lookup other =
      if other = name then some value else pairs.lookup other := by
  induction pairs with
  | nil => rw [put, lookup_cons_ite]
  | cons p pairs ih =>
    obtain ⟨n, v⟩ := p
    by_cases hn : n = name
    · subst hn
      rw [put, if_pos rfl, lookup_cons_ite, lookup_cons_ite]
      by_cases h : other = n <;> simp [h]
    · rw [put, if_neg hn, lookup_cons_ite, lookup_cons_ite, ih]
      by_cases h : other = n
      · subst h
        simp [hn]
      · simp [h]

@[simp]
theorem get?_insert (e : Entries α) (name other : String) (value : α) :
    (e.insert name value).get? other = if other = name then some value else e.get? other :=
  lookup_put name other value e.toList

/-- Of the pairs inserted one after the other the last one with a name gives the value. -/
theorem get?_foldl_insert (pairs : List (String × α)) (e : Entries α) (name : String) :
    (pairs.foldl (fun e p => e.insert p.1 p.2) e).get? name =
      (pairs.reverse.lookup name).or (e.get? name) := by
  induction pairs generalizing e with
  | nil => rfl
  | cons p pairs ih =>
    rw [List.foldl_cons, ih]
    by_cases h : name = p.1 <;> simp [List.lookup_append, lookup_cons_ite, h]

theorem get?_ofList (pairs : List (String × α)) (name : String) :
    (ofList pairs).get? name = pairs.reverse.lookup name := by
  rw [ofList, get?_foldl_insert]
  exact Option.or_none

theorem get?_ofList_eq_none_iff {pairs : List (String × α)} {name : String} :
    (ofList pairs).get? name = none ↔ name ∉ pairs.map Prod.fst := by
  rw [get?_ofList, lookup_eq_none_iff, List.map_reverse, List.mem_reverse]

theorem get?_ofList_eq_some_iff {pairs : List (String × α)} {name : String} {value : α} :
    (ofList pairs).get? name = some value ↔
      ∃ before after, pairs = before ++ (name, value) :: after ∧ name ∉ after.map Prod.fst := by
  rw [get?_ofList, List.lookup_eq_some_iff]
  constructor
  · rintro ⟨l₁, l₂, h, hnot⟩
    refine ⟨l₂.reverse, l₁.reverse, ?_, ?_⟩
    · rw [List.reverse_eq_iff] at h
      rw [h]
      simp
    · intro hmem
      obtain ⟨p, hp, rfl⟩ := List.mem_map.mp hmem
      exact absurd (hnot p (List.mem_reverse.mp hp)) (by simp)
  · rintro ⟨before, after, rfl, hnot⟩
    refine ⟨after.reverse, before.reverse, by simp, ?_⟩
    intro p hp
    rw [bne_iff_ne]
    rintro rfl
    exact hnot (List.mem_map_of_mem (List.mem_reverse.mp hp))

end Specimen.Entries
