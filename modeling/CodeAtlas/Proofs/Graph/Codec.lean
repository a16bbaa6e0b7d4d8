import CodeAtlas.Graph.Codec
import CodeAtlas.Proofs.Graph.Built
import Mathlib.Data.List.Perm.Basic

/-!
# Nodes read back from JSON

A node is one flat object, in which its own fields stand among its attributes wherever the order of
the keys puts them. No attribute has the key of a field, so that each field is found once and what
is left are the attributes. They are put in order when they are read, so the members of the object
may come in any order (`Node.ofJson?_of_perm`). What is read from an object, whatever its members
are, is a node that could have been built (`Node.built_of_ofJson?`).
-/

namespace CodeAtlas

theorem Label.ofJson?_toJson (l : Label) : ofJson? l.toJson = some l := ofName?_name l

namespace CodecLemmas

variable {key : String} {value : Json} {l : List (String × Json)}

theorem valuesOf_eq_nil (h : key ∉ l.map (·.1)) : valuesOf key l = [] := by
  rw [valuesOf, List.map_eq_nil_iff, List.filter_eq_nil_iff]
  intro a ha same
  rw [decide_eq_true_eq] at same
  exact h (same ▸ List.mem_map_of_mem ha)

theorem only?_eq_some_iff : only? key l = some value ↔ valuesOf key l = [value] := by
  unfold only?
  split
  · next v one => rw [one, Option.some.injEq, List.cons.injEq, and_iff_left rfl]
  · next other =>
    constructor
    · intro h
      contradiction
    · intro one
      exact absurd one (other value)

/-- The order of members does not matter for a key that is there once. -/
theorem only?_of_perm {l' : List (String × Json)} (perm : l.Perm l')
    (h : only? key l = some value) : only? key l' = some value := by
  rw [only?_eq_some_iff] at h ⊢
  have values : (valuesOf key l).Perm (valuesOf key l') := (perm.filter _).map _
  rw [h, List.singleton_perm] at values
  exact values.symm

theorem only?_put_self (h : key ∉ l.map (·.1)) :
    only? key (Ascending.put key value l) = some value := by
  refine only?_of_perm (Ascending.put_perm h value).symm (only?_eq_some_iff.mpr ?_)
  rw [valuesOf, List.filter_cons_of_pos (by simp), List.map_cons]
  exact congrArg (value :: ·) (valuesOf_eq_nil h)

theorem only?_put_of_ne {other : String} (h : other ≠ key) :
    only? key (Ascending.put other value l) = only? key l := by
  have same : valuesOf key (Ascending.put other value l) = valuesOf key l := by
    rw [valuesOf, valuesOf, Ascending.filter_put (p := (· = key)) (by simp [h])]
  rw [only?, only?, same]

end CodecLemmas

namespace Node

open CodecLemmas

/-- An attribute as a member of an object. -/
def member (a : String × String) : String × Json := (a.1, .string a.2)

theorem map_fst_member (attributes : List (String × String)) :
    (attributes.map member).map (·.1) = attributes.map (·.1) := by
  rw [List.map_map]
  rfl

theorem members_eq (n : Node) :
    n.members = Ascending.put "id" (.string n.id)
      (Ascending.put "label" n.label.toJson (n.attributes.map member)) := rfl

/-- Members are read as attributes if all of them are texts, and then they are set in order. -/
theorem attributesOf?_eq_some_iff {ms : List (String × Json)}
    {attributes result : List (String × String)} :
    attributesOf? ms attributes = some result ↔
      ∃ l, ms = l.map member ∧ result = Ascending.putAll attributes l := by
  induction ms generalizing attributes with
  | nil =>
    rw [attributesOf?, Option.some.injEq]
    constructor
    · rintro rfl
      exact ⟨[], rfl, rfl⟩
    · rintro ⟨l, none, rfl⟩
      rw [List.map_eq_nil_iff.mp none.symm]
      rfl
  | cons m ms ih =>
    obtain ⟨k, v⟩ := m
    cases v with
    | string text =>
      rw [attributesOf?, ih]
      constructor
      · rintro ⟨l, rfl, rfl⟩
        exact ⟨(k, text) :: l, rfl, rfl⟩
      · rintro ⟨l, all, rfl⟩
        obtain ⟨a, rest, rfl, first, rfl⟩ := List.map_eq_cons_iff.mp all.symm
        obtain ⟨rfl, same⟩ := Prod.mk.inj first
        obtain rfl := Json.string.inj same
        exact ⟨rest, rfl, rfl⟩
    | _ =>
      constructor
      · intro h
        contradiction
      · rintro ⟨l, all, -⟩
        obtain ⟨a, rest, -, first, -⟩ := List.map_eq_cons_iff.mp all.symm
        exact absurd (Prod.mk.inj first).2 (by simp)

/-- Attributes are read back in whatever order their members come. -/
theorem attributesOf?_of_perm {attributes : List (String × String)} {ms : List (String × Json)}
    (h : (attributes.map (·.1)).Pairwise (· < ·)) (perm : ms.Perm (attributes.map member)) :
    attributesOf? ms [] = some attributes := by
  have preimage : Relation.Comp (fun ms l => ms = l.map member) List.Perm ms attributes := by
    rw [List.eq_map_comp_perm]
    exact perm
  obtain ⟨l, rfl, reordered⟩ := preimage
  exact attributesOf?_eq_some_iff.mpr ⟨l, rfl, (Ascending.putAll_eq_of_perm h reordered).symm⟩

section

variable {n : Node} (h : n.WellKeyed)

include h

theorem notMem_of_mem_reserved {key : String} (hk : key ∈ reserved) :
    key ∉ (n.attributes.map member).map (·.1) := by
  rw [map_fst_member]
  exact fun hm => h.free key hm hk

theorem only?_id_members : only? "id" n.members = some (.string n.id) := by
  refine only?_put_self ?_
  rw [Ascending.map_fst_put, Ascending.mem_insert, not_or]
  exact ⟨by decide, notMem_of_mem_reserved h (by decide)⟩

theorem only?_label_members : only? "label" n.members = some n.label.toJson := by
  rw [members_eq, only?_put_of_ne (by decide)]
  exact only?_put_self (notMem_of_mem_reserved h (by decide))

theorem filter_members :
    n.members.filter (!reserved.contains ·.1) = n.attributes.map member := by
  rw [members_eq, Ascending.filter_put (p := fun k => !reserved.contains k) (by decide),
    Ascending.filter_put (p := fun k => !reserved.contains k) (by decide)]
  refine List.filter_eq_self.mpr fun m hm => ?_
  have free : m.1 ∉ reserved := fun hk =>
    notMem_of_mem_reserved h hk (List.mem_map_of_mem hm)
  simpa using free

/-- A node is told by its object, in whatever order the members come. -/
theorem ofJson?_of_perm {ms : List (String × Json)} (perm : n.members.Perm ms) :
    ofJson? (.object ms) = some n := by
  have id := only?_of_perm perm (only?_id_members h)
  have label := only?_of_perm perm (only?_label_members h)
  have left : (ms.filter (!reserved.contains ·.1)).Perm (n.attributes.map member) := by
    rw [← filter_members h]
    exact perm.symm.filter _
  simp only [ofJson?, id, label, Option.bind_some, Json.string?, Label.ofJson?_toJson,
    attributesOf?_of_perm h.ascending left]
  rfl

theorem ofJson?_toJson : ofJson? n.toJson = some n := ofJson?_of_perm h (.refl _)

end

theorem built_putAll {id : String} {label : Label} {attributes l : List (String × String)}
    (h : Built ⟨id, label, attributes⟩) (free : ∀ a ∈ l, a.1 ∉ reserved) :
    Built ⟨id, label, Ascending.putAll attributes l⟩ := by
  induction l generalizing attributes with
  | nil => exact h
  | cons a l ih =>
    have allowed : ¬ reserved.contains a.1 = true := by
      simpa using free a List.mem_cons_self
    have step := h.withAttribute a.1 (some a.2)
    rw [Node.withAttribute, if_neg allowed] at step
    exact ih step fun b hb => free b (List.mem_cons_of_mem _ hb)

/-- What is read from a JSON value is a node that could have been built. -/
theorem built_of_ofJson? {n : Node} {v : Json} (h : ofJson? v = some n) : n.Built := by
  cases v with
  | object ms =>
    simp only [ofJson?, Option.bind_eq_bind, Option.bind_eq_some_iff] at h
    obtain ⟨id, -, label, -, attributes, read, same⟩ := h
    obtain rfl := Option.some.inj same
    obtain ⟨l, kept, rfl⟩ := attributesOf?_eq_some_iff.mp read
    refine built_putAll (.new id label) fun a ha => ?_
    have isKept : member a ∈ ms.filter (!reserved.contains ·.1) := kept ▸ List.mem_map_of_mem ha
    have free : (!reserved.contains a.1) = true := (List.mem_filter.mp isKept).2
    simpa using free
  | _ => contradiction

end Node

end CodeAtlas
