import CodeAtlas.Ascending

/-!
# Order and members of ascending lists

Adding a text to an ascending list keeps the order and adds that one member. Setting a key of a
table does the same to its keys, so both need one argument only (`map_fst_put`). In an ascending
table a key has one value, which is what `lookup` finds. A table can be made from its members in any
order (`putAll_eq_of_perm`).
-/

namespace CodeAtlas.Ascending

theorem lt_of_not_lt_of_ne {x y : String} (h : ¬ x < y) (ne : x ≠ y) : y < x :=
  Std.lt_of_le_of_ne (String.not_lt.mp h) (Ne.symm ne)

theorem mem_insert {x y : String} {l : List String} : y ∈ insert x l ↔ y = x ∨ y ∈ l := by
  induction l with
  | nil => rw [insert, List.mem_singleton, or_iff_left List.not_mem_nil]
  | cons z rest ih =>
    rw [insert]
    split
    · exact List.mem_cons
    · split
      · next same =>
        subst same
        simp
      · rw [List.mem_cons, ih, List.mem_cons]
        exact or_left_comm

theorem pairwise_insert (x : String) {l : List String} (h : l.Pairwise (· < ·)) :
    (insert x l).Pairwise (· < ·) := by
  induction l with
  | nil => exact List.pairwise_singleton _ x
  | cons y rest ih =>
    obtain ⟨first, tail⟩ := List.pairwise_cons.mp h
    rw [insert]
    split
    · next less =>
      refine List.pairwise_cons.mpr ⟨fun z hz => ?_, h⟩
      rcases List.mem_cons.mp hz with rfl | hz
      · exact less
      · exact String.lt_trans less (first z hz)
    · next notLess =>
      split
      · exact h
      · next ne =>
        refine List.pairwise_cons.mpr ⟨fun z hz => ?_, ih tail⟩
        rcases mem_insert.mp hz with rfl | hz
        · exact lt_of_not_lt_of_ne notLess ne
        · exact first z hz

/-! ## Lists -/

theorem foldl_insert_spec (xs : List String) {s : List String} (h : s.Pairwise (· < ·)) :
    (xs.foldl (fun s x => insert x s) s).Pairwise (· < ·) ∧
      ∀ y, y ∈ xs.foldl (fun s x => insert x s) s ↔ y ∈ xs ∨ y ∈ s := by
  induction xs generalizing s with
  | nil => exact ⟨h, fun y => by simp⟩
  | cons x xs ih =>
    obtain ⟨order, members⟩ := ih (pairwise_insert x h)
    refine ⟨order, fun y => ?_⟩
    rw [List.foldl_cons, members, mem_insert, List.mem_cons]
    grind

theorem pairwise_ofList (xs : List String) : (ofList xs).Pairwise (· < ·) :=
  (foldl_insert_spec xs .nil).1

theorem mem_ofList {xs : List String} {y : String} : y ∈ ofList xs ↔ y ∈ xs := by
  rw [ofList, (foldl_insert_spec xs .nil).2, or_iff_left List.not_mem_nil]

/-- Lists in the same strict order with the same members are equal. -/
theorem eq_of_pairwise {α : Type} {r : α → α → Prop} (asymm : ∀ a b, r a b → ¬ r b a)
    {l l' : List α} (h : l.Pairwise r) (h' : l'.Pairwise r) (members : ∀ a, a ∈ l ↔ a ∈ l') :
    l = l' := by
  have distinct {l : List α} (h : l.Pairwise r) : l.Nodup := by
    refine h.imp ?_
    rintro a _ less rfl
    exact asymm a a less less
  have perm : l.Perm l' :=
    (List.perm_ext_iff_of_nodup (distinct h) (distinct h')).mpr members
  exact perm.eq_of_pairwise (fun a b _ _ less greater => absurd greater (asymm a b less)) h h'

/-- Only the members of a list count, not their order and how often they come. -/
theorem ofList_eq_of_mem_iff {xs ys : List String} (h : ∀ x, x ∈ xs ↔ x ∈ ys) :
    ofList xs = ofList ys := by
  refine eq_of_pairwise (fun _ _ => String.lt_asymm) (pairwise_ofList xs) (pairwise_ofList ys) ?_
  intro x
  rw [mem_ofList, mem_ofList, h]

/-! ## Tables -/

section

variable {α : Type}

theorem map_fst_put (key : String) (value : α) (l : List (String × α)) :
    (put key value l).map (·.1) = insert key (l.map (·.1)) := by
  induction l with
  | nil => rfl
  | cons a rest ih =>
    obtain ⟨k, v⟩ := a
    rw [put, List.map_cons, insert]
    split
    · rfl
    · split
      · next same =>
        subst same
        rfl
      · rw [List.map_cons, ih]

theorem lookup_put_self (key : String) (value : α) (l : List (String × α)) :
    (put key value l).lookup key = some value := by
  induction l with
  | nil => simp [put]
  | cons a rest ih =>
    obtain ⟨k, v⟩ := a
    rw [put]
    split
    · simp
    · split
      · simp
      · next other =>
        have ne : (key == k) = false := by simp [other]
        rw [List.lookup_cons, ne]
        exact ih

theorem lookup_eq_some_iff {l : List (String × α)} (h : (l.map (·.1)).Pairwise (· < ·))
    {key : String} {value : α} : l.lookup key = some value ↔ (key, value) ∈ l := by
  induction l with
  | nil => simp
  | cons a rest ih =>
    obtain ⟨k, v⟩ := a
    obtain ⟨first, tail⟩ := List.pairwise_cons.mp h
    rw [List.lookup_cons, List.mem_cons]
    by_cases same : key = k
    · subst same
      have fresh : (key, value) ∉ rest := by
        intro hm
        exact String.lt_irrefl key (first key (List.mem_map_of_mem hm))
      simp [fresh, eq_comm]
    · have other : (key == k) = false := by simp [same]
      rw [other, ih tail]
      simp [same]

/-- Ascending tables with the same members are equal. -/
theorem eq_of_mem_iff {l l' : List (String × α)} (h : (l.map (·.1)).Pairwise (· < ·))
    (h' : (l'.map (·.1)).Pairwise (· < ·)) (members : ∀ a, a ∈ l ↔ a ∈ l') : l = l' := by
  rw [List.pairwise_map] at h h'
  exact eq_of_pairwise (fun _ _ => String.lt_asymm) h h' members

/-- A new key is one more member. -/
theorem put_perm {key : String} {l : List (String × α)} (h : key ∉ l.map (·.1)) (value : α) :
    (put key value l).Perm ((key, value) :: l) := by
  induction l with
  | nil => exact .refl _
  | cons a rest ih =>
    obtain ⟨k, v⟩ := a
    rw [List.map_cons, List.mem_cons, not_or] at h
    rw [put, if_neg h.1]
    split
    · exact .refl _
    · exact ((ih h.2).cons (k, v)).trans (.swap _ _ rest)

theorem eq_or_mem_of_mem_put {key : String} {value : α} {l : List (String × α)}
    {a : String × α} (h : a ∈ put key value l) : a = (key, value) ∨ a ∈ l := by
  induction l with
  | nil => exact .inl (List.mem_singleton.mp h)
  | cons b rest ih =>
    obtain ⟨k, v⟩ := b
    rw [put] at h
    split at h
    · exact List.mem_cons.mp h
    · split at h
      · rcases List.mem_cons.mp h with same | h
        · exact .inl same
        · exact .inr (List.mem_cons_of_mem _ h)
      · rcases List.mem_cons.mp h with same | h
        · exact .inr (same ▸ List.mem_cons_self)
        · exact (ih h).imp_right (List.mem_cons_of_mem _)

/-- What is told of other keys does not change. -/
theorem filter_put {p : String → Bool} {key : String} (h : p key = false) (value : α)
    (l : List (String × α)) : (put key value l).filter (p ·.1) = l.filter (p ·.1) := by
  have dropped (v : α) (l : List (String × α)) :
      ((key, v) :: l).filter (p ·.1) = l.filter (p ·.1) :=
    List.filter_cons_of_neg (by simp [h])
  induction l with
  | nil => exact dropped value []
  | cons a rest ih =>
    obtain ⟨k, v⟩ := a
    rw [put]
    split
    · exact dropped value ((k, v) :: rest)
    · split
      · next same =>
        subst same
        rw [dropped, dropped]
      · rw [List.filter_cons, List.filter_cons, ih]

/-! ### Keys that are set one after the other -/

/-- Sets keys in their order, so that of a repeated key the last value counts. -/
def putAll (table l : List (String × α)) : List (String × α) :=
  l.foldl (fun table a => put a.1 a.2 table) table

theorem pairwise_putAll {table : List (String × α)} (h : (table.map (·.1)).Pairwise (· < ·))
    (l : List (String × α)) : ((putAll table l).map (·.1)).Pairwise (· < ·) := by
  induction l generalizing table with
  | nil => exact h
  | cons a l ih =>
    refine ih ?_
    rw [map_fst_put]
    exact pairwise_insert a.1 h

/-- New keys, each of them once, are as many more members. -/
theorem putAll_perm {table l : List (String × α)} (h : ((table ++ l).map (·.1)).Nodup) :
    (putAll table l).Perm (table ++ l) := by
  induction l generalizing table with
  | nil =>
    rw [List.append_nil]
    exact .refl table
  | cons a l ih =>
    have moved : (table ++ a :: l).Perm (a :: table ++ l) := List.perm_middle
    have new : a.1 ∉ table.map (·.1) := by
      have distinct := (moved.map (·.1)).nodup_iff.mp h
      rw [List.cons_append, List.map_cons, List.nodup_cons, List.map_append] at distinct
      exact fun hm => distinct.1 (List.mem_append_left _ hm)
    have step : (put a.1 a.2 table ++ l).Perm (table ++ a :: l) :=
      ((put_perm new a.2).append_right l).trans moved.symm
    exact (ih ((step.map (·.1)).nodup_iff.mpr h)).trans step

/-- The members of an ascending table, in whatever order their keys are set, give that table. -/
theorem putAll_eq_of_perm {table l : List (String × α)}
    (h : (table.map (·.1)).Pairwise (· < ·)) (perm : l.Perm table) : putAll [] l = table := by
  have distinct : (l.map (·.1)).Nodup := by
    rw [(perm.map (·.1)).nodup_iff]
    refine h.imp ?_
    rintro key _ less rfl
    exact String.lt_irrefl key less
  have all : (putAll [] l).Perm ([] ++ l) := putAll_perm distinct
  exact eq_of_mem_iff (pairwise_putAll .nil l) h fun _ => (all.trans perm).mem_iff

end

end CodeAtlas.Ascending
