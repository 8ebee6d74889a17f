/-
  State written to JSON and read back.

  * `ofName?_name`, `variantId?_nat`: the single members are read back;
  * `Carries members content`: a document has the members of a value, beside those that every
    value has;
  * `Node.ofJson?_toJson`: every value is read back, by induction over the tree of values;
  * `payload_round_trip`: so is every value that some document was read as.
-/
import LedgerClient.Proofs.Json.Records
import LedgerClient.State.Payload

namespace LedgerClient.State

open Json

/-! ## Single members -/

theorem Kind.ofName?_name (kind : Kind) : Kind.ofName? kind.name = some kind := by
  cases kind with
  | text kind => cases kind <;> decide
  | _ => decide

theorem children?_of_lookup? {members : List (String × Json)} {name : String} {items : List Json}
    (h : lookup? name members = some (.arr items)) : children? members name = some items := by
  rw [children?, defaulted?, h]
  rfl

theorem variantId?_nat (id : Fin 256) : variantId? (.nat id) = some id := by
  show (if h : (id : Nat) < 256 then some (⟨id, h⟩ : Fin 256) else none) = some id
  rw [dif_pos id.isLt]

/-! ## Members of a value -/

/-- The names of the members that every value has. -/
def headings : List String :=
  ["field_name", "type_name", "kind"]

/-- The members are those of a value, as far as they are not common to all values. -/
def Carries (members : List (String × Json)) (content : Content) : Prop :=
  ∀ name ∉ headings, lookup? name members = lookup? name content.members

theorem lookup?_nameMember (name key : String) (s : Option String) :
    lookup? name (nameMember key s) = if key = name then s.map .str else none := by
  cases s <;> simp [nameMember, lookup?]

theorem lookup?_members_of_mem_headings {name : String} (h : name ∈ headings)
    (content : Content) : lookup? name content.members = none := by
  simp only [headings, List.mem_cons, List.not_mem_nil, or_false] at h
  obtain rfl | rfl | rfl := h <;> cases content <;> rfl

/-- The members of a value with its names. -/
def headed (fieldName typeName : Option String) (content : Content) : List (String × Json) :=
  nameMember "field_name" fieldName ++ nameMember "type_name" typeName ++
    ("kind", .str content.kind.name) :: content.members

section Headed

variable (fieldName typeName : Option String) (content : Content)

theorem lookup?_headed (name : String) :
    lookup? name (headed fieldName typeName content) =
      ((lookup? name content.members).or
        (if "kind" = name then some (.str content.kind.name) else none)).or
      ((if "type_name" = name then typeName.map .str else none).or
        (if "field_name" = name then fieldName.map .str else none)) := by
  rw [headed, lookup?_append, lookup?_append, lookup?_nameMember, lookup?_nameMember, lookup?]
  cases lookup? name content.members <;> rfl

theorem lookup?_headed_field :
    lookup? "field_name" (headed fieldName typeName content) = fieldName.map .str := by
  rw [lookup?_headed, lookup?_members_of_mem_headings (by decide)]
  cases fieldName <;> rfl

theorem lookup?_headed_type :
    lookup? "type_name" (headed fieldName typeName content) = typeName.map .str := by
  rw [lookup?_headed, lookup?_members_of_mem_headings (by decide)]
  cases typeName <;> rfl

theorem lookup?_headed_kind :
    lookup? "kind" (headed fieldName typeName content) = some (.str content.kind.name) := by
  rw [lookup?_headed, lookup?_members_of_mem_headings (by decide)]
  rfl

theorem carries_headed : Carries (headed fieldName typeName content) content := by
  intro name hname
  simp only [headings, List.mem_cons, List.not_mem_nil, or_false, not_or] at hname
  obtain ⟨hfield, htype, hkind⟩ := hname
  rw [lookup?_headed, if_neg (Ne.symm hkind), if_neg (Ne.symm htype), if_neg (Ne.symm hfield),
    Option.or_none, Option.or_none, Option.or_none]

end Headed

/-! ## Children -/

section Children

variable {members : List (String × Json)} {items : List Json}

theorem contentOf?_variant (h : children? members "fields" = some items) :
    contentOf? .variant members = (do
      let id ← required? members "variant_id" variantId?
      let name ← optional? members "variant_name" str?
      (nodesOf? items).map (.variant id name)) := by
  rw [contentOf?]
  congr 1
  funext id
  congr 1
  funext name
  split <;> simp_all

theorem contentOf?_array (h : children? members "elements" = some items) :
    contentOf? .array members = (do
      let elementKind ← optional? members "element_kind" str?
      (nodesOf? items).map (.array elementKind)) := by
  rw [contentOf?]
  congr 1
  funext elementKind
  split <;> simp_all

theorem contentOf?_map (h : children? members "entries" = some items) :
    contentOf? .map members = (do
      let keyKind ← optional? members "key_kind" str?
      let valueKind ← optional? members "value_kind" str?
      (entriesOf? items).map (.map keyKind valueKind)) := by
  rw [contentOf?]
  congr 1
  funext keyKind
  congr 1
  funext valueKind
  split <;> simp_all

theorem contentOf?_tuple (h : children? members "fields" = some items) :
    contentOf? .tuple members = (nodesOf? items).map .tuple := by
  rw [contentOf?]
  split <;> simp_all

end Children

/-! ## The tree of values -/

mutual

/-- **A value is read back as it was written.** -/
theorem Node.ofJson?_toJson : ∀ node : Node, Node.ofJson? node.toJson = some node
  | .mk fieldName typeName content => by
    have hwritten : (Node.mk fieldName typeName content).toJson =
        .obj (headed fieldName typeName content) := by rw [Node.toJson, headed]
    rw [hwritten, Node.ofJson?,
      optional?_of_lookup? (.inl (lookup?_headed_field fieldName typeName content)),
      optional?_of_lookup? (.inl (lookup?_headed_type fieldName typeName content)),
      required?_of_lookup? (lookup?_headed_kind fieldName typeName content), Kind.ofJson?,
      Kind.ofName?_name]
    show (contentOf? content.kind (headed fieldName typeName content)).bind _ = _
    rw [contentOf?_of_carries content (carries_headed fieldName typeName content)]
    rfl

/-- A value is read from a document that has its members. -/
theorem contentOf?_of_carries : ∀ (content : Content) {members : List (String × Json)}
    (_ : Carries members content), contentOf? content.kind members = some content
  | .bool b, members, h => by
    rw [Content.kind, contentOf?, required?_of_lookup? (h "value" (by decide))]
    rfl
  | .text kind s, members, h => by
    rw [Content.kind, contentOf?, required?_of_lookup? (h "value" (by decide))]
    rfl
  | .bytes elementKind hex, members, h => by
    rw [Content.kind, contentOf?, optional?_of_lookup? (.inr (h "element_kind" (by decide))),
      required?_of_lookup? (h "hex" (by decide))]
    rfl
  | .variant id name fields, members, h => by
    rw [Content.kind, contentOf?_variant (children?_of_lookup? (h "fields" (by decide))),
      required?_of_lookup? (h "variant_id" (by decide)), variantId?_nat,
      optional?_of_lookup? (.inr (h "variant_name" (by decide))), nodesOf?_nodesJson fields]
    rfl
  | .array elementKind elements, members, h => by
    rw [Content.kind, contentOf?_array (children?_of_lookup? (h "elements" (by decide))),
      optional?_of_lookup? (.inr (h "element_kind" (by decide))), nodesOf?_nodesJson elements]
    rfl
  | .map keyKind valueKind entries, members, h => by
    rw [Content.kind, contentOf?_map (children?_of_lookup? (h "entries" (by decide))),
      optional?_of_lookup? (.inr (h "key_kind" (by decide))),
      optional?_of_lookup? (.inr (h "value_kind" (by decide))), entriesOf?_entriesJson entries]
    rfl
  | .tuple fields, members, h => by
    rw [Content.kind, contentOf?_tuple (children?_of_lookup? (h "fields" (by decide))),
      nodesOf?_nodesJson fields]
    rfl

theorem nodesOf?_nodesJson : ∀ nodes : List Node, nodesOf? (nodesJson nodes) = some nodes
  | [] => by rw [nodesJson, nodesOf?]
  | node :: nodes => by
    rw [nodesJson, nodesOf?, Node.ofJson?_toJson node, nodesOf?_nodesJson nodes]
    rfl

theorem entriesOf?_entriesJson : ∀ entries : List (Node × Node),
    entriesOf? (entriesJson entries) = some entries
  | [] => by rw [entriesJson, entriesOf?]
  | (key, value) :: entries => by
    rw [entriesJson, entriesOf?]
    split
    · rename_i hnone
      cases hnone
    · rename_i hentry
      cases hentry
      rw [Node.ofJson?_toJson key, Node.ofJson?_toJson value, entriesOf?_entriesJson entries]
      rfl

end

/-- **What is written of a value is read as that value**: so every document that is read as some
    value, however it spells it, is read like what is written of that value. -/
theorem payload_round_trip :
    (∀ node : Node, Node.ofPayload node.toJson = .ok node) ∧
    ∀ (document : Json) (node : Node), Node.ofPayload document = .ok node →
      Node.ofPayload node.toJson = Node.ofPayload document := by
  have hwritten : ∀ node : Node, Node.ofPayload node.toJson = .ok node := by
    intro node
    rw [Node.ofPayload, Node.ofJson?_toJson]
  exact ⟨hwritten, fun document node hread => (hwritten node).trans hread.symm⟩

/-- Also where a document has the number of a variant as a text, leaves members out that may be
    missing, and has one that is unknown. -/
theorem payload_round_trip_loose :
    let document : Json := .obj
      [("fields", .arr [.obj [("value", .str "alice"), ("kind", .str "String")],
        .obj [("kind", .str "Array"), ("type_name", .null), ("field_name", .str "roles")]]),
       ("variant_id", .str "+01"), ("remark", .bool true), ("kind", .str "Enum")]
    let node : Node := .plain (.variant 1 none
      [.plain (.text .string "alice"), .mk (some "roles") none (.array none [])])
    Node.ofPayload document = .ok node ∧ Node.ofPayload node.toJson = Node.ofPayload document := by
  intro document node
  have hread : Node.ofPayload document = .ok node := by
    cbv
  exact ⟨hread, payload_round_trip.2 document node hread⟩

end LedgerClient.State
