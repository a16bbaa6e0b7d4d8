import CodeAtlas.Scope

/-!
# Qualified names

The full name of a definition is the names of its scope and its own one, joined with dots, and it
is also the id of what contains the scope inside that definition. Names without dots can be read off
the full name again (`intercalate_inj`), so that it tells the scope and the name
(`qualify_within_inj`).
-/

namespace CodeAtlas.Scope

theorem qualify_eq (s : Scope) (name : String) :
    s.qualify name = ".".intercalate (s.names ++ [name]) := by
  unfold qualify isModule path
  cases h : s.names with
  | nil => rw [List.nil_append, String.intercalate_singleton]; rfl
  | cons n ns =>
    rw [String.intercalate_append_of_ne_nil (List.cons_ne_nil _ _) (List.cons_ne_nil _ _),
      String.intercalate_singleton]
    rfl

theorem owner_enter (s : Scope) (name file : String) :
    (s.enter name).owner file = s.qualify name := by
  rw [qualify_eq, owner, isModule, enter, path, if_neg (by simp)]

/-! ## Names that can be told from full names -/

/-- The scope that is reached from the top level by entering names one after the other. -/
def within (names : List String) : Scope := names.foldl enter module

theorem names_foldl_enter (s : Scope) (names : List String) :
    (names.foldl enter s).names = s.names ++ names := by
  induction names generalizing s with
  | nil => rw [List.foldl_nil, List.append_nil]
  | cons name names ih => rw [List.foldl_cons, ih, enter, List.append_assoc, List.singleton_append]

theorem within_eq (names : List String) : within names = ⟨names⟩ :=
  congrArg Scope.mk (names_foldl_enter module names)

/-- A text that can be a part of a full name without being taken for several. -/
def DotFree (name : String) : Prop := '.' ∉ name.toList

instance (name : String) : Decidable (DotFree name) :=
  inferInstanceAs (Decidable (¬ '.' ∈ name.toList))

/-- Cutting at the dots gives back what was joined. Of nothing joined nothing could be given back,
because the empty text is also one empty name. -/
theorem splitOn_intercalate {names : List String} (nonempty : names ≠ [])
    (free : ∀ name ∈ names, DotFree name) :
    (".".intercalate names).toList.splitOn '.' = names.map String.toList := by
  have chars : ∀ l ∈ names.map String.toList, '.' ∉ l := by
    intro l hl
    obtain ⟨name, mem, rfl⟩ := List.mem_map.mp hl
    exact free name mem
  have dot : ".".toList = ['.'] := rfl
  rw [String.toList_intercalate, dot]
  exact List.splitOn_intercalate '.' chars (by simpa using nonempty)

theorem intercalate_inj {xs ys : List String} (hx : xs ≠ []) (hy : ys ≠ [])
    (freeX : ∀ x ∈ xs, DotFree x) (freeY : ∀ y ∈ ys, DotFree y) :
    ".".intercalate xs = ".".intercalate ys ↔ xs = ys := by
  refine ⟨fun same => ?_, fun same => same ▸ rfl⟩
  have parts : xs.map String.toList = ys.map String.toList := by
    rw [← splitOn_intercalate hx freeX, ← splitOn_intercalate hy freeY, same]
  exact (List.map_inj_right fun _ _ => String.toList_inj.mp).mp parts

/-- A full name tells the names that were entered and the own one. -/
theorem qualify_within_inj {xs ys : List String} {a b : String}
    (freeX : ∀ x ∈ xs ++ [a], DotFree x) (freeY : ∀ y ∈ ys ++ [b], DotFree y) :
    (within xs).qualify a = (within ys).qualify b ↔ xs = ys ∧ a = b := by
  rw [within_eq, within_eq, qualify_eq, qualify_eq,
    intercalate_inj (by simp) (by simp) freeX freeY, List.append_singleton_inj]

example : (within ["f", "A"]).qualify "m.n" = (within ["f", "A", "m"]).qualify "n" := by decide

end CodeAtlas.Scope
