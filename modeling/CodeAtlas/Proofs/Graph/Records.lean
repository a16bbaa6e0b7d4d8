import CodeAtlas.Proofs.Graph.Codec
import CodeAtlas.Proofs.Json.Layout

/-!
# Records as texts

Nodes, relationships, kinds and labels are written as JSON texts, and more texts than those are
read: there may be blanks and escapes, keys in another order, keys that are repeated or not known,
and other forms of a value. Whatever text a record is read from, it is a record that could have been
made without any text, and writing it and reading it gives it back.

Each type has its way to JSON and back (`Codec`). Two facts about JSON values are enough for it:
what is written is read back in whatever order its members come, and what is read is one of the
values that are written (`roundTrips_of_json`).
-/

namespace CodeAtlas

/-- The same JSON value, but for the order of the members of the object that it is. -/
inductive Json.Reordered : Json → Json → Prop
  | refl (v : Json) : Reordered v v
  | object {members members' : List (String × Json)} :
      members.Perm members' → Reordered (.object members) (.object members')

/-- The compact or the pretty form of a JSON value. -/
def Json.form (pretty : Bool) (v : Json) : String := if pretty then v.pretty else v.compact

/-- How the values of a type are told as JSON, and how they are read. -/
structure Codec (α : Type) where
  toJson : α → Json
  ofJson? : Json → Option α

namespace Codec

def node : Codec Node := ⟨Node.toJson, Node.ofJson?⟩

def relationship : Codec Relationship := ⟨Relationship.toJson, Relationship.ofJson?⟩

def kind : Codec RelationKind := ⟨RelationKind.toJson, RelationKind.ofJson?⟩

def label : Codec Label := ⟨Label.toJson, Label.ofJson?⟩

variable {α : Type}

/-- The value that a text tells. -/
def read? (c : Codec α) (text : String) : Option α := (Json.parse? text).bind c.ofJson?

/-- All texts of a value are read as that value: both forms, with the members in any order. -/
def ReadsBack (c : Codec α) (a : α) : Prop :=
  ∀ v, (c.toJson a).Reordered v → ∀ pretty, c.read? (v.form pretty) = some a

/-- Values of some sort are read back, and whatever is read from a text is of that sort and is read
back too. -/
structure RoundTrips (c : Codec α) (sort : α → Prop) : Prop where
  written : ∀ a, sort a → c.ReadsBack a
  accepted : ∀ text a, c.read? text = some a → sort a ∧ c.ReadsBack a

end Codec

namespace RecordsLemmas

open Json

/-! ## From values to texts -/

theorem wellNumbered_of_reordered {v w : Json} (h : v.WellNumbered) (same : v.Reordered w) :
    w.WellNumbered := by
  cases same with
  | refl => exact h
  | object perm =>
    cases h with
    | object numbered => exact .object fun m hm => numbered m (perm.mem_iff.mpr hm)

theorem parse?_form {v : Json} (h : v.WellNumbered) (pretty : Bool) :
    parse? (v.form pretty) = some v := by
  unfold form
  cases pretty with
  | true => exact parse?_pretty h
  | false => exact parse?_compact h

theorem roundTrips_of_json {α : Type} {c : Codec α} {sort : α → Prop}
    (numbered : ∀ a, (c.toJson a).WellNumbered)
    (back : ∀ a, sort a → ∀ v, (c.toJson a).Reordered v → c.ofJson? v = some a)
    (range : ∀ v a, c.ofJson? v = some a → sort a) : c.RoundTrips sort := by
  have written : ∀ a, sort a → c.ReadsBack a := by
    intro a ha v same pretty
    unfold Codec.read?
    rw [parse?_form (wellNumbered_of_reordered (numbered a) same)]
    exact back a ha v same
  refine ⟨written, fun text a read => ?_⟩
  obtain ⟨v, -, told⟩ := Option.bind_eq_some_iff.mp read
  exact ⟨range v a told, written a (range v a told)⟩

/-! ## The types of records -/

theorem wellNumbered_node (n : Node) : n.toJson.WellNumbered := by
  refine .object fun m hm => ?_
  rw [Node.members] at hm
  rcases Ascending.eq_or_mem_of_mem_put hm with rfl | hm
  · exact .string _
  rcases Ascending.eq_or_mem_of_mem_put hm with rfl | hm
  · exact .string _
  obtain ⟨a, -, rfl⟩ := List.mem_map.mp hm
  exact .string _

theorem roundTrips_node : Codec.node.RoundTrips Node.Built := by
  refine roundTrips_of_json wellNumbered_node ?_ ?_
  · intro n built v same
    have keyed := built.wellKeyed
    cases same with
    | refl => exact Node.ofJson?_toJson keyed
    | object perm => exact Node.ofJson?_of_perm keyed perm
  · intro v n
    exact Node.built_of_ofJson?

theorem roundTrips_relationship : Codec.relationship.RoundTrips fun _ => True := by
  refine roundTrips_of_json ?_ ?_ fun _ _ _ => trivial
  · intro r
    refine .object ?_
    simp only [List.forall_mem_cons]
    exact ⟨.string _, .string _, by simp⟩
  · intro r _ v same
    cases same with
    | refl => rfl
    | @object _ members perm =>
      have start : only? "start_id" members = some (.string r.start) :=
        CodecLemmas.only?_of_perm perm rfl
      have target : only? "end_id" members = some (.string r.target) :=
        CodecLemmas.only?_of_perm perm rfl
      simp only [Codec.relationship, Relationship.ofJson?, start, target]
      rfl

theorem roundTrips_kind : Codec.kind.RoundTrips fun _ => True := by
  refine roundTrips_of_json ?_ ?_ fun _ _ _ => trivial
  · intro k
    cases k with
    | other name =>
      refine .object ?_
      simp only [List.forall_mem_cons]
      exact ⟨.string _, by simp⟩
    | _ => exact .string _
  · intro k _ v same
    cases k with
    | other name =>
      cases same with
      | refl => rfl
      | object perm =>
        obtain rfl := List.singleton_perm.mp perm
        rfl
    | _ =>
      cases same
      rfl

theorem roundTrips_label : Codec.label.RoundTrips fun _ => True := by
  refine roundTrips_of_json ?_ ?_ fun _ _ _ => trivial
  · intro l
    exact .string _
  · intro l _ v same
    cases same
    exact Label.ofJson?_toJson l

end RecordsLemmas

open RecordsLemmas in
/-- Records survive JSON. Every node that is built, every relationship, every kind and every label
is read back from each of its texts. What any text is read as is read back as well. A node that is
read, whatever its text says, could have been built, and has no attribute with the key of one of its
own fields. -/
theorem records_roundTrip :
    Codec.node.RoundTrips Node.Built ∧
    (Codec.relationship.RoundTrips fun _ => True) ∧
    (Codec.kind.RoundTrips fun _ => True) ∧
    (Codec.label.RoundTrips fun _ => True) ∧
    ∀ text n, Codec.node.read? text = some n → ∀ a ∈ n.attributes, a.1 ≠ "id" ∧ a.1 ≠ "label" := by
  refine ⟨roundTrips_node, roundTrips_relationship, roundTrips_kind, roundTrips_label, ?_⟩
  intro text n read a ha
  have built := (roundTrips_node.accepted text n read).1
  have free := built.wellKeyed.free a.1 (List.mem_map_of_mem ha)
  simpa [Node.reserved] using free

namespace RecordsLemmas

/-- A node with keys before and behind those of its fields, and with a reserved key that was set. -/
def oddNode : Node :=
  (((Node.mk "\"\n😀" .file []).withAttribute "zone" (some "\\")).withAttribute "\t"
    (some "")).withAttribute "id" (some "lost")

theorem oddNode_built : oddNode.Built :=
  .withAttribute _ _ (.withAttribute _ _ (.withAttribute _ _ (.new _ _)))

/-- A node with blanks and escapes, a repeated attribute and the long form of its label. -/
def looseNode : String :=
  " \x7b\"x\" : \"1\", \"label\": \x7b\"Class\": null\x7d,\n" ++
    "\"\\u0069d\":\"\\ud83d\\ude00\", \"x\":\"2\"\x7d"

/-- A relationship in its short form. -/
def pair : String := "[\"a\", \"b\"]"

theorem read?_looseNode : Codec.node.read? looseNode = some ⟨"😀", .classDef, [("x", "2")]⟩ := by
  decide +kernel

theorem read?_pair : Codec.relationship.read? pair = some ⟨"a", "b"⟩ := by
  decide +kernel

end RecordsLemmas

open RecordsLemmas in
/-- A kind with the name of an exported one stays a kind of its own. -/
theorem records_roundTrip_samples :
    oddNode.Built ∧ Codec.node.ReadsBack oddNode ∧
      Codec.node.read? looseNode = some ⟨"😀", .classDef, [("x", "2")]⟩ ∧
      Codec.node.ReadsBack ⟨"😀", .classDef, [("x", "2")]⟩ ∧
      Codec.relationship.read? pair = some ⟨"a", "b"⟩ ∧
      Codec.relationship.ReadsBack ⟨"a", "b"⟩ ∧
      Codec.kind.ReadsBack (.other "CALLS") ∧ Codec.label.ReadsBack .functionDef := by
  obtain ⟨nodes, relationships, kinds, labels, -⟩ := records_roundTrip
  exact ⟨oddNode_built, nodes.written _ oddNode_built, read?_looseNode,
    (nodes.accepted _ _ read?_looseNode).2, read?_pair, (relationships.accepted _ _ read?_pair).2,
    kinds.written _ trivial, labels.written _ trivial⟩

end CodeAtlas
