import Mathlib.Data.List.Nodup

/-!
# First occurrences

Of all members of a list that have the same key, only the first one is kept. This is how graphs
treat nodes with the same id, and how repeated paths are counted once.

* `firsts_append`: behind a list, only what has a new key is kept.
* `nodup_map_firsts`, `find?_firsts`: keys are distinct, and looking for a key finds the same member
  as before.
-/

namespace CodeAtlas

variable {α : Type} (key : α → String)

/-- The members of a list whose keys no earlier members have. -/
def firsts (l : List α) : List α := l.eraseDupsBy fun a b => key a == key b

namespace FirstsLemmas

theorem firsts_nil : firsts key [] = [] := rfl

theorem firsts_cons_filter (a : α) (l : List α) :
    firsts key (a :: l) = a :: firsts key (l.filter (key · ≠ key a)) := by
  have same : (fun b => decide ((key b == key a) = false)) = fun b => decide (key b ≠ key a) := by
    simp
  rw [firsts, List.eraseDupsBy_cons, same, firsts]

/-- Members may be left out before or after the first ones are chosen if their keys decide. -/
theorem filter_firsts (p : String → Bool) (l : List α) :
    (firsts key l).filter (p <| key ·) = firsts key (l.filter (p <| key ·)) := by
  cases l with
  | nil => rfl
  | cons a l =>
    have ih := filter_firsts p (l.filter (key · ≠ key a))
    rw [firsts_cons_filter, List.filter_cons, List.filter_cons]
    by_cases h : p (key a) = true
    · rw [if_pos h, if_pos h, firsts_cons_filter, ih, List.filter_filter, List.filter_filter]
      simp only [Bool.and_comm]
    · have implied : ∀ b, (p (key b) && decide (key b ≠ key a)) = p (key b) := by
        intro b
        by_cases same : key b = key a
        · simp [same, h]
        · simp [same]
      rw [if_neg h, if_neg h, ih, List.filter_filter]
      simp only [implied]
termination_by l.length
decreasing_by exact Nat.lt_succ_of_le (List.length_filter_le _ _)

theorem firsts_cons (a : α) (l : List α) :
    firsts key (a :: l) = a :: (firsts key l).filter (key · ≠ key a) := by
  rw [firsts_cons_filter, ← filter_firsts key fun k => decide (k ≠ key a)]

theorem firsts_append (l m : List α) :
    firsts key (l ++ m) = firsts key l ++ (firsts key m).filter (key · ∉ l.map key) := by
  induction l with
  | nil => simp [firsts_nil]
  | cons a l ih =>
    rw [List.cons_append, firsts_cons, ih, firsts_cons, List.filter_append, List.filter_filter,
      List.cons_append]
    simp

theorem firsts_map {β : Type} (f : β → α) (l : List β) :
    firsts key (l.map f) = (firsts (fun b => key (f b)) l).map f := by
  induction l with
  | nil => rfl
  | cons b l ih =>
    rw [List.map_cons, firsts_cons, ih, firsts_cons, List.map_cons, List.filter_map]
    rfl

variable {key}

theorem mem_of_mem_firsts {l : List α} {a : α} (h : a ∈ firsts key l) : a ∈ l := by
  induction l with
  | nil => exact h
  | cons b l ih =>
    rw [firsts_cons] at h
    rcases List.mem_cons.mp h with rfl | h
    · exact List.mem_cons_self
    · exact List.mem_cons_of_mem _ (ih (List.mem_filter.mp h).1)

theorem nodup_map_firsts (l : List α) : ((firsts key l).map key).Nodup := by
  induction l with
  | nil => exact .nil
  | cons a l ih =>
    rw [firsts_cons, List.map_cons, List.nodup_cons]
    constructor
    · intro h
      obtain ⟨b, hb, same⟩ := List.mem_map.mp h
      exact absurd same (by simpa using (List.mem_filter.mp hb).2)
    · exact ih.sublist (List.filter_sublist.map key)

theorem find?_firsts (l : List α) (k : String) :
    (firsts key l).find? (key · = k) = l.find? (key · = k) := by
  induction l with
  | nil => rfl
  | cons a l ih =>
    rw [firsts_cons, List.find?_cons, List.find?_cons]
    by_cases same : key a = k
    · simp [same]
    · simp only [same, decide_false]
      rw [← ih, List.find?_filter]
      congr 1
      funext b
      by_cases hb : key b = k
      · simp [hb, Ne.symm same]
      · simp [hb]

/-- A key that only one member has finds that member. -/
theorem find?_eq_some_iff_of_nodup {l : List α} (h : (l.map key).Nodup) {k : String} {a : α} :
    l.find? (key · = k) = some a ↔ a ∈ l ∧ key a = k := by
  constructor
  · intro found
    exact ⟨List.mem_of_find?_eq_some found, by simpa using List.find?_some found⟩
  · rintro ⟨ha, rfl⟩
    cases found : l.find? (key · = key a) with
    | none => exact absurd (decide_eq_true rfl) (List.find?_eq_none.mp found a ha)
    | some b =>
      have same : key b = key a := by simpa using List.find?_some found
      rw [List.inj_on_of_nodup_map h (List.mem_of_find?_eq_some found) ha same]

end FirstsLemmas

end CodeAtlas
