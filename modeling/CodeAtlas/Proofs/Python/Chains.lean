import CodeAtlas.Proofs.Python.Places

/-!
# Chains of enclosing definitions

The chain of a class or function is the names of the definitions around it and its own one. The
graph knows a definition only by its id, which is a text. As long as no name has a dot in it, as no
identifier has, that text stands for one chain only. So two definitions of a file are joined in the
graph if and only if the same names lead to both of them from the top level.

* `Tree.chains`: the chains of a tree, one for each named class or function.
* `dotFree_of_mem_chains`: chains are made of the names of definitions.
* `fullNames_eq_chains`: full names are chains, joined.
* `qualify_tells_chain`: full names tell scopes and chains.
-/

namespace CodeAtlas.Python

open Scope

namespace Tree

/-- The chain of the definition at a place. -/
def Place.chain? (p : Place) : Option (List String) := p.node.definedName?.map (p.names ++ [·])

/-- The chains of the named classes and functions in pre-order, given what is above the tree. -/
def chains (above : List Tree) (t : Tree) : List (List String) :=
  (t.places above).filterMap Place.chain?

/-- No class or function has a dot in its name. -/
def DotFreeNames (t : Tree) : Prop :=
  ∀ s ∈ t.nodes, ∀ name ∈ s.definedName?, DotFree name

instance (t : Tree) : Decidable t.DotFreeNames :=
  inferInstanceAs (Decidable (∀ s ∈ t.nodes, ∀ name ∈ s.definedName?, DotFree name))

end Tree

namespace ChainsLemmas

open CodeAtlas.Python.Tree PlacesLemmas

/-! ## Names in chains -/

theorem dotFreeNames_child {t c : Tree} (h : t.DotFreeNames) (hc : c ∈ t.children) :
    c.DotFreeNames :=
  fun s hs => h s (mem_nodes_of_child hc hs)

/-- A name that a node sets around its children is its own one or that of a child. -/
theorem dotFree_of_nameAround? {t c : Tree} (h : t.DotFreeNames) {name : String}
    (around : name ∈ t.nameAround? c) : DotFree name := by
  unfold nameAround? at around
  split at around
  · obtain ⟨r, hr, defined⟩ := Option.bind_eq_some_iff.mp around
    have child : r ∈ t.children := List.mem_of_find?_eq_some hr
    exact h r (mem_nodes_of_child child (mem_nodes_self r)) name defined
  · exact h t (mem_nodes_self t) name around

/-- Chains are made of names of definitions, those above the tree included. -/
theorem dotFree_of_mem_chains {t : Tree} {above : List Tree} (h : t.DotFreeNames)
    (outer : ∀ name ∈ namesAround above t, DotFree name) {chain : List String}
    (mem : chain ∈ t.chains above) : ∀ name ∈ chain, DotFree name := by
  induction t using Tree.child_induction generalizing above with
  | step t ih =>
    obtain ⟨p, hp, hchain⟩ := List.mem_filterMap.mp mem
    rw [places_eq] at hp
    rcases List.mem_cons.mp hp with rfl | hp
    · obtain ⟨own, defined, rfl⟩ := Option.map_eq_some_iff.mp hchain
      intro name hname
      rcases List.mem_append.mp hname with hname | hname
      · exact outer name hname
      · exact List.mem_singleton.mp hname ▸ h t (mem_nodes_self t) own defined
    · obtain ⟨c, hc, hp⟩ := List.mem_flatMap.mp hp
      refine ih c hc (dotFreeNames_child h hc) ?_ (List.mem_filterMap.mpr ⟨p, hp, hchain⟩)
      intro name hname
      rw [namesAround_concat, List.mem_append, Option.mem_toList] at hname
      exact hname.elim (outer name) (dotFree_of_nameAround? h)

theorem ne_nil_of_mem_chains {t : Tree} {above : List Tree} {chain : List String}
    (mem : chain ∈ t.chains above) : chain ≠ [] := by
  obtain ⟨p, -, hchain⟩ := List.mem_filterMap.mp mem
  obtain ⟨own, -, rfl⟩ := Option.map_eq_some_iff.mp hchain
  simp

/-! ## Full names -/

theorem fullNames_eq_chains (t : Tree) : t.fullNames = (t.chains []).map ".".intercalate := by
  rw [fullNames, chains, List.map_filterMap]
  congr 1
  funext p
  rw [Place.chain?, Option.map_map]
  rfl

end ChainsLemmas

open ChainsLemmas PlacesLemmas in
/-- Full names identify scopes. Scopes that are reached through names without dots, and names
without dots, can be told from the full name; what contains the scope inside a definition is the
definition, by its full name, whatever its name is. So two definitions of a tree have the same id if
and only if their chains are the same, and for trees of the grammar these are the ids that an
outline has. -/
theorem qualify_tells_chain :
    (∀ (xs ys : List String) (a b : String), (∀ x ∈ xs ++ [a], DotFree x) →
      (∀ y ∈ ys ++ [b], DotFree y) →
        ((within xs).qualify a = (within ys).qualify b ↔ xs = ys ∧ a = b)) ∧
    (∀ (s : Scope) (name file : String), (s.enter name).owner file = s.qualify name) ∧
    ∀ t : Tree, t.DotFreeNames →
      (∀ c ∈ t.chains [], ∀ d ∈ t.chains [], ".".intercalate c = ".".intercalate d ↔ c = d) ∧
      ∀ file, Grammatical t →
        (nodeIds (outline file .module t)).Perm ((t.chains []).map ".".intercalate) := by
  refine ⟨fun _ _ _ _ => qualify_within_inj, owner_enter, fun t free => ⟨?_, ?_⟩⟩
  · intro c hc d hd
    have outer : ∀ name ∈ Tree.namesAround [] t, DotFree name := by simp [Tree.namesAround]
    exact intercalate_inj (ne_nil_of_mem_chains hc) (ne_nil_of_mem_chains hd)
      (dotFree_of_mem_chains free outer hc) (dotFree_of_mem_chains free outer hd)
  · intro file grammatical
    rw [← fullNames_eq_chains]
    exact nodeIds_outline_perm file grammatical

namespace ChainsLemmas

open PlacesLemmas

/-- All definitions of `PlacesLemmas.sample`, and then all of them once more. -/
def doubled : Tree := phrase 0 .module (sample.children ++ sample.children)

end ChainsLemmas

open ChainsLemmas in
theorem qualify_tells_chain_doubled :
    (∀ x ∈ ["f"] ++ ["A"], DotFree x) ∧ (∀ y ∈ [] ++ ["A"], DotFree y) ∧
      doubled.DotFreeNames ∧ Grammatical doubled ∧
      (within ["f"]).qualify "A" ≠ (within []).qualify "A" ∧
      ((within ["f"]).enter "A.B").owner "s.py" = "f.A.B" ∧
      (nodeIds (outline "s.py" .module doubled)).Perm ["f", "f.A", "f", "f.A"] ∧
      ∀ c ∈ [["f"], ["f", "A"]], ∀ d ∈ [["f"], ["f", "A"]],
        ".".intercalate c = ".".intercalate d ↔ c = d := by
  have freeX : ∀ x ∈ ["f"] ++ ["A"], DotFree x := by decide
  have freeY : ∀ y ∈ [] ++ ["A"], DotFree y := by decide
  have free : doubled.DotFreeNames := by decide +kernel
  have grammatical : Grammatical doubled := by decide +kernel
  have chains : doubled.chains [] = [["f"], ["f", "A"], ["f"], ["f", "A"]] := by decide +kernel
  obtain ⟨scopes, owners, trees⟩ := qualify_tells_chain
  obtain ⟨same, ids⟩ := trees doubled free
  rw [chains] at same ids
  refine ⟨freeX, freeY, free, grammatical, ?_, owners (within ["f"]) "A.B" "s.py",
    ids "s.py" grammatical, ?_⟩
  · rw [ne_eq, scopes ["f"] [] "A" "A" freeX freeY]
    decide
  · exact fun c hc d hd => same c (List.mem_append_left _ hc) d (List.mem_append_left _ hd)

end CodeAtlas.Python
