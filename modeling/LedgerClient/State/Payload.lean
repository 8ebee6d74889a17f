/-
  State in JSON.

  * `Node.ofJson?` reads a value: an object with its kind and the members of
    that kind, beside the names of its field and type. Unknown members are
    ignored, and the number of a variant may be written as a text;
  * `Node.toJson` writes it.
-/
import LedgerClient.Fault
import LedgerClient.Json.Record
import LedgerClient.State.Node
import LedgerClient.Text.Numeral

namespace LedgerClient.State

open Json

/-! ## Reading -/

/-- The elements of a list that may be missing, and then is empty. -/
def children? (members : List (String × Json)) (name : String) : Option (List Json) :=
  defaulted? members name arr? []

theorem sizeOf_children?_lt {members : List (String × Json)} {name : String} {items : List Json}
    (h : children? members name = some items) : sizeOf items < sizeOf (Json.obj members) := by
  unfold children? defaulted? at h
  simp only [obj.sizeOf_spec]
  split at h
  · cases h
    have := sizeOf_members_pos members
    simp only [List.nil.sizeOf_spec]
    omega
  · rename_i j hj
    have hlt := sizeOf_lookup?_lt hj
    cases j <;> simp [arr?] at h
    subst h
    simp only [arr.sizeOf_spec] at hlt
    omega

/-- The number of a variant: a number, or a text that is one. -/
def variantId? : Json → Option (Fin 256)
  | .int (.ofNat n) => if h : n < 256 then some ⟨n, h⟩ else none
  | .str s =>
    match Text.bounded? 256 s with
    | some n => if h : n < 256 then some ⟨n, h⟩ else none
    | none => none
  | _ => none

/-- The key and the value of an entry. -/
def entry? (j : Json) : Option (Json × Json) := do
  let members ← record? [.must "key", .must "value"] j
  pure (← lookup? "key" members, ← lookup? "value" members)

theorem sizeOf_nameItems?_lt {fields : List Field} {items : List Json}
    {members : List (String × Json)} {name : String} {value : Json}
    (h : nameItems? fields items = some members) (hv : lookup? name members = some value) :
    sizeOf value < sizeOf items := by
  induction fields generalizing items members with
  | nil =>
    cases items <;> simp [nameItems?] at h
    subst h
    simp [lookup?] at hv
  | cons f fs ih =>
    cases items with
    | nil =>
      simp only [nameItems?] at h
      split at h
      · exact ih h hv
      · simp at h
    | cons item items =>
      simp only [nameItems?, Option.map_eq_some_iff] at h
      obtain ⟨rest, hrest, rfl⟩ := h
      simp only [lookup?] at hv
      simp only [List.cons.sizeOf_spec]
      split at hv
      · rename_i later hl
        have := ih hrest (hl.trans hv)
        omega
      · split at hv
        · cases hv
          omega
        · simp at hv

theorem sizeOf_record?_lt {fields : List Field} {j : Json} {members : List (String × Json)}
    {name : String} {value : Json} (h : record? fields j = some members)
    (hv : lookup? name members = some value) : sizeOf value < sizeOf j := by
  cases j <;> simp only [record?] at h <;> try contradiction
  · simp only [arr.sizeOf_spec]
    have := sizeOf_nameItems?_lt h hv
    omega
  · split at h
    · cases h
      have := sizeOf_lookup?_lt hv
      simp only [obj.sizeOf_spec]
      omega
    · simp at h

theorem sizeOf_entry?_lt {j key value : Json} (h : entry? j = some (key, value)) :
    sizeOf key < sizeOf j ∧ sizeOf value < sizeOf j := by
  unfold entry? at h
  simp only [bind, Option.bind_eq_some_iff, pure, Option.some.injEq, Prod.mk.injEq] at h
  obtain ⟨members, hm, k, hk, v, hv, rfl, rfl⟩ := h
  exact ⟨sizeOf_record?_lt hm hk, sizeOf_record?_lt hm hv⟩

mutual

/-- Reads a value with its names. -/
def Node.ofJson? : Json → Option Node
  | .obj members => do
    let fieldName ← optional? members "field_name" str?
    let typeName ← optional? members "type_name" str?
    let kind ← required? members "kind" Kind.ofJson?
    let content ← contentOf? kind members
    pure (.mk fieldName typeName content)
  | _ => none
termination_by j => (sizeOf j, 1)

/-- Reads a value of the given kind. -/
def contentOf? (kind : Kind) (members : List (String × Json)) : Option Content :=
  match kind with
  | .bool => (required? members "value" bool?).map .bool
  | .text kind => (required? members "value" str?).map (.text kind)
  | .bytes => do
    let elementKind ← optional? members "element_kind" str?
    let hex ← required? members "hex" str?
    pure (.bytes elementKind hex)
  | .variant => do
    let id ← required? members "variant_id" variantId?
    let name ← optional? members "variant_name" str?
    match _h : children? members "fields" with
    | none => none
    | some items => (nodesOf? items).map (.variant id name)
  | .array => do
    let elementKind ← optional? members "element_kind" str?
    match _h : children? members "elements" with
    | none => none
    | some items => (nodesOf? items).map (.array elementKind)
  | .map => do
    let keyKind ← optional? members "key_kind" str?
    let valueKind ← optional? members "value_kind" str?
    match _h : children? members "entries" with
    | none => none
    | some items => (entriesOf? items).map (.map keyKind valueKind)
  | .tuple =>
    match _h : children? members "fields" with
    | none => none
    | some items => (nodesOf? items).map .tuple
termination_by (sizeOf (Json.obj members), 0)
decreasing_by
  all_goals
    have := sizeOf_children?_lt _h
    simp only [Prod.lex_def]
    omega

/-- Reads the values of a list. -/
def nodesOf? : List Json → Option (List Node)
  | [] => some []
  | item :: items => do
    let node ← Node.ofJson? item
    let nodes ← nodesOf? items
    pure (node :: nodes)
termination_by items => (sizeOf items, 0)

/-- Reads the entries of a map. -/
def entriesOf? : List Json → Option (List (Node × Node))
  | [] => some []
  | item :: items =>
    match _h : entry? item with
    | none => none
    | some (key, value) => do
      let key ← Node.ofJson? key
      let value ← Node.ofJson? value
      let entries ← entriesOf? items
      pure ((key, value) :: entries)
termination_by items => (sizeOf items, 0)
decreasing_by
  all_goals
    have := sizeOf_entry?_lt _h
    simp only [Prod.lex_def, List.cons.sizeOf_spec]
    omega

end

/-- Reads a component's state. -/
def Node.ofPayload (j : Json) : Except Fault Node :=
  match Node.ofJson? j with
  | some node => .ok node
  | none => .error (.schemaMismatch "state" "programmatic SBOR" (.quoted "another document"))

/-! ## Writing -/

/-- A member that is left out where it has no value. -/
def nameMember (name : String) : Option String → List (String × Json)
  | some value => [(name, .str value)]
  | none => []

mutual

/-- A value with its names. -/
def Node.toJson : Node → Json
  | .mk fieldName typeName content =>
    .obj (nameMember "field_name" fieldName ++ nameMember "type_name" typeName ++
      ("kind", .str content.kind.name) :: content.members)

/-- The members of a value apart from its kind. -/
def Content.members : Content → List (String × Json)
  | .bool b => [("value", .bool b)]
  | .text _ s => [("value", .str s)]
  | .bytes elementKind hex => [("element_kind", .ofOption elementKind), ("hex", .str hex)]
  | .variant id name fields =>
    [("variant_id", .nat id), ("variant_name", .ofOption name), ("fields", .arr (nodesJson fields))]
  | .array elementKind elements =>
    [("element_kind", .ofOption elementKind), ("elements", .arr (nodesJson elements))]
  | .map keyKind valueKind entries =>
    [("key_kind", .ofOption keyKind), ("value_kind", .ofOption valueKind),
     ("entries", .arr (entriesJson entries))]
  | .tuple fields => [("fields", .arr (nodesJson fields))]

/-- The values of a list. -/
def nodesJson : List Node → List Json
  | [] => []
  | node :: nodes => node.toJson :: nodesJson nodes

/-- The entries of a map. -/
def entriesJson : List (Node × Node) → List Json
  | [] => []
  | (key, value) :: entries =>
    .obj [("key", key.toJson), ("value", value.toJson)] :: entriesJson entries

end

end LedgerClient.State
