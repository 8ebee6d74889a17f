/-
  Documents in the older form that spell no value.

  * `PartOf part j`: the document `part` stands in `j` as a field, an element or the value of an
    optional one, and `Within part j` that it does so at some depth;
  * `Flawed j`: the document is of no known type, its index is too great, or one of its keys has
    no value;
  * `WellTyped j`: its members are of the types that its form asks for. The lists may be absent;
  * `not_flawed_of_ok`: what is read is without flaw at any depth, and `exists_spells`: a
    well-typed document without flaw spells a value, by induction over its parts;
  * `flaws_told`: a flaw at any depth is a mismatch, and where all is well-typed nothing else is.
-/
import LedgerClient.Proofs.State.Spelling
import Mathlib.Logic.Relation

namespace LedgerClient.State

open Text

/-! ## Parts -/

/-- The form has fields. -/
def LegacyForm.HasFields (form : LegacyForm) : Prop :=
  form = .tuple ∨ form = .variant

/-- The form has elements. -/
def LegacyForm.HasElements (form : LegacyForm) : Prop :=
  form = .collection ∨ form = .map

/-- The document stands in the other one. -/
inductive PartOf (part j : Json) : Prop
  | field {form : LegacyForm} {items : List Json} (hform : HasForm j form)
    (hfields : form.HasFields) (hitems : Lists j "fields" items) (hpart : part ∈ items)
  | element {form : LegacyForm} {items : List Json} (hform : HasForm j form)
    (helements : form.HasElements) (hitems : Lists j "elements" items) (hpart : part ∈ items)
  | value (hform : HasForm j .optional) (hvalue : j.member? "value" = some part)
    (hnull : part ≠ .null)

/-- The document is the other one or stands in it at some depth. -/
abbrev Within (part j : Json) : Prop :=
  Relation.ReflTransGen PartOf part j

theorem HasForm.unique {j : Json} {form form' : LegacyForm} (h : HasForm j form)
    (h' : HasForm j form') : form = form' := by
  obtain ⟨type, hmember, htype⟩ := h
  obtain ⟨type', hmember', htype'⟩ := h'
  obtain rfl : type = type' := by simpa using hmember.symm.trans hmember'
  exact Option.some.inj ((LegacyForm.ofType?_eq_some_iff.2 htype).symm.trans
    (LegacyForm.ofType?_eq_some_iff.2 htype'))

theorem Lists.unique {j : Json} {name : String} {items items' : List Json}
    (h : Lists j name items) (h' : Lists j name items') : items = items' :=
  h.children_eq.symm.trans h'.children_eq

theorem Lists.sizeOf_lt {j part : Json} {name : String} {items : List Json}
    (h : Lists j name items) (hpart : part ∈ items) : sizeOf part < sizeOf j := by
  rcases h with h | ⟨-, rfl⟩
  · have hlist := sizeOf_member?_lt h
    have hmem := List.sizeOf_lt_of_mem hpart
    rw [Json.arr.sizeOf_spec] at hlist
    omega
  · cases hpart

theorem PartOf.sizeOf_lt {part j : Json} (h : PartOf part j) : sizeOf part < sizeOf j := by
  cases h with
  | field _ _ hitems hpart => exact hitems.sizeOf_lt hpart
  | element _ _ hitems hpart => exact hitems.sizeOf_lt hpart
  | value _ hvalue _ => exact sizeOf_member?_lt hvalue

section Form

variable {j part : Json} {form : LegacyForm} {items : List Json}

/-- The parts of a document with fields. -/
theorem partOf_iff_of_fields (hform : HasForm j form) (hfields : form.HasFields)
    (hitems : Lists j "fields" items) : PartOf part j ↔ part ∈ items := by
  constructor
  · rintro (⟨-, -, hitems', hpart⟩ | ⟨hform', helements, -, -⟩ | ⟨hform', -, -⟩)
    · rwa [hitems.unique hitems']
    · obtain rfl := hform.unique hform'
      rcases hfields with rfl | rfl <;> rcases helements with h | h <;> cases h
    · obtain rfl := hform.unique hform'
      rcases hfields with h | h <;> cases h
  · exact .field hform hfields hitems

/-- The parts of a document with elements. -/
theorem partOf_iff_of_elements (hform : HasForm j form) (helements : form.HasElements)
    (hitems : Lists j "elements" items) : PartOf part j ↔ part ∈ items := by
  constructor
  · rintro (⟨hform', hfields, -, -⟩ | ⟨-, -, hitems', hpart⟩ | ⟨hform', -, -⟩)
    · obtain rfl := hform.unique hform'
      rcases hfields with rfl | rfl <;> rcases helements with h | h <;> cases h
    · rwa [hitems.unique hitems']
    · obtain rfl := hform.unique hform'
      rcases helements with h | h <;> cases h
  · exact .element hform helements hitems

end Form

/-! ## Flaws -/

/-- The document is of no known type, its index is too great, or a key has no value. -/
inductive Flawed (j : Json) : Prop
  | untyped (h : ∀ form, ¬HasForm j form)
  | index {n : Nat} (hform : HasForm j .variant) (hindex : j.member? "index" = some (.nat n))
    (hn : n < twoTo 64) (hgreat : 256 ≤ n)
  | unpaired {items : List Json} (hform : HasForm j .map) (hitems : Lists j "elements" items)
    (hodd : items.length % 2 = 1)

/-- The members are of the types that the form asks for. -/
structure WellTyped (j : Json) : Prop where
  fields : ∀ form, HasForm j form → form.HasFields → ∃ items, Lists j "fields" items
  elements : ∀ form, HasForm j form → form.HasElements → ∃ items, Lists j "elements" items
  index : HasForm j .variant → ∃ n < twoTo 64, j.member? "index" = some (.nat n)
  bool : HasForm j .bool → ∃ b, j.member? "value" = some (.bool b) ∨
    j.member? "value" = some (.str (if b then "true" else "false"))

/-! ## What is read is without flaw -/

theorem exists_of_nodesOfLegacy {items : List Json} {nodes : List Node}
    (h : nodesOfLegacy items = .ok nodes) :
    ∀ item ∈ items, ∃ node, Node.ofLegacy item = .ok node := by
  induction items generalizing nodes with
  | nil => intro item hitem; cases hitem
  | cons item items ih =>
    rw [nodesOfLegacy] at h
    obtain ⟨node, hnode, h⟩ := exists_of_bind_ok h
    obtain ⟨nodes', hnodes, -⟩ := exists_of_bind_ok h
    exact List.forall_mem_cons.2 ⟨⟨node, hnode⟩, ih hnodes⟩

section Read

variable {j part : Json} {node : Node}

theorem exists_content {form : LegacyForm} (hform : HasForm j form)
    (h : Node.ofLegacy j = .ok node) : ∃ content, contentOfLegacy form j = .ok content := by
  rw [ofLegacy_of_hasForm hform] at h
  obtain ⟨content, hcontent, -⟩ := exists_of_map_ok h
  exact ⟨content, hcontent⟩

theorem exists_fields {form : LegacyForm} {items : List Json} (hform : HasForm j form)
    (hfields : form.HasFields) (hitems : Lists j "fields" items) (h : Node.ofLegacy j = .ok node) :
    ∃ fields, nodesOfLegacy items = .ok fields := by
  obtain ⟨content, h⟩ := exists_content hform h
  rcases hfields with rfl | rfl <;> rw [contentOfLegacy, hitems.children_eq] at h
  · obtain ⟨fields, hread, -⟩ := exists_of_map_ok h
    exact ⟨fields, hread⟩
  · obtain ⟨id, -, h⟩ := exists_of_bind_ok h
    obtain ⟨fields, hread, -⟩ := exists_of_bind_ok h
    exact ⟨fields, hread⟩

theorem exists_elements {form : LegacyForm} {items : List Json} (hform : HasForm j form)
    (helements : form.HasElements) (hitems : Lists j "elements" items)
    (h : Node.ofLegacy j = .ok node) : ∃ elements, nodesOfLegacy items = .ok elements := by
  obtain ⟨content, h⟩ := exists_content hform h
  rcases helements with rfl | rfl <;> rw [contentOfLegacy, hitems.children_eq] at h
  · obtain ⟨elements, hread, -⟩ := exists_of_map_ok h
    exact ⟨elements, hread⟩
  · obtain ⟨elements, hread, -⟩ := exists_of_bind_ok h
    exact ⟨elements, hread⟩

/-- The parts of a document that is read are read. -/
theorem PartOf.ok (hpart : PartOf part j) (h : Node.ofLegacy j = .ok node) :
    ∃ node, Node.ofLegacy part = .ok node := by
  cases hpart with
  | field hform hfields hitems hpart =>
    obtain ⟨fields, hread⟩ := exists_fields hform hfields hitems h
    exact exists_of_nodesOfLegacy hread part hpart
  | element hform helements hitems hpart =>
    obtain ⟨elements, hread⟩ := exists_elements hform helements hitems h
    exact exists_of_nodesOfLegacy hread part hpart
  | value hform hvalue hnull =>
    obtain ⟨content, h⟩ := exists_content hform h
    rw [contentOfLegacy_present hvalue hnull] at h
    obtain ⟨inner, hinner, -⟩ := exists_of_map_ok h
    exact ⟨inner, hinner⟩

/-- A document with a flaw is not read. -/
theorem Flawed.error (hflaw : Flawed j) : ∃ fault, Node.ofLegacy j = .error fault := by
  cases hflaw with
  | untyped h =>
    obtain ⟨fault, hfault, -⟩ := ofLegacy_of_not_hasForm h
    exact ⟨fault, hfault⟩
  | index hform hindex hn hgreat =>
    rw [ofLegacy_of_hasForm hform, contentOfLegacy, legacyIndex_eq hindex hn,
      dif_neg (Nat.not_lt.2 hgreat)]
    exact ⟨_, rfl⟩
  | unpaired hform hitems hodd =>
    obtain ⟨fault, hfault, -⟩ := ofLegacy_of_odd hform hitems hodd
    exact ⟨fault, hfault⟩

/-- **What is read is without flaw**, at any depth. -/
theorem not_flawed_of_ok (hpart : Within part j) (h : Node.ofLegacy j = .ok node) :
    ¬Flawed part := by
  have hread : ∃ node, Node.ofLegacy part = .ok node := by
    induction hpart using Relation.ReflTransGen.head_induction_on with
    | refl => exact ⟨node, h⟩
    | head hstep _ ih =>
      obtain ⟨node', h'⟩ := ih
      exact hstep.ok h'
  intro hflaw
  obtain ⟨fault, hfault⟩ := hflaw.error
  obtain ⟨node', hnode⟩ := hread
  rw [hfault] at hnode
  cases hnode

end Read

/-! ## What is without flaw spells a value -/

/-- The document is a text of the kind, as it is read: a text that is missing is empty. -/
inductive HoldsText (j : Json) : TextKind → String → Prop
  | string (hform : HasForm j .string) : HoldsText j .string (legacyText (j.member? "value"))
  | wrapped {kind : TextKind} (hform : HasForm j (.wrapped kind)) :
    HoldsText j kind (unwrap (legacyText (j.member? "value")))
  | integer {kind : TextKind} (hform : HasForm j (.integer kind)) :
    HoldsText j kind (unsuffix (legacyText (j.member? "value")))

theorem ofLegacy_of_holdsText (j : Json) (kind : TextKind) (s : String) (h : HoldsText j kind s) :
    Node.ofLegacy j = .ok (.plain (.text kind s)) := by
  cases h with
  | string hform | wrapped hform | integer hform =>
    rw [ofLegacy_of_hasForm hform, contentOfLegacy]
    rfl

theorem exists_spellsAll {T : Json → TextKind → String → Prop} {items : List Json}
    (h : ∀ item ∈ items, ∃ node, Spells T item node) : ∃ nodes, SpellsAll T items nodes := by
  induction items with
  | nil => exact ⟨[], .nil⟩
  | cons item items ih =>
    obtain ⟨⟨node, hnode⟩, hitems⟩ := List.forall_mem_cons.1 h
    obtain ⟨nodes, hnodes⟩ := ih hitems
    exact ⟨node :: nodes, .cons hnode hnodes⟩

/-- **A well-typed document without flaw spells a value.** -/
theorem exists_spells (j : Json) (htyped : ∀ part, Within part j → WellTyped part)
    (hsound : ∀ part, Within part j → ¬Flawed part) : ∃ node, Spells HoldsText j node := by
  have hparts : ∀ part, PartOf part j → ∃ node, Spells HoldsText part node := by
    intro part hpart
    have hsmaller := hpart.sizeOf_lt
    exact exists_spells part (fun part' h => htyped part' (h.tail hpart))
      fun part' h => hsound part' (h.tail hpart)
  have hself := htyped j .refl
  obtain ⟨form, hform⟩ : ∃ form, HasForm j form := by
    by_contra h
    exact hsound j .refl (.untyped (not_exists.1 h))
  have hfields (h : form.HasFields) :
      ∃ items fields, Lists j "fields" items ∧ SpellsAll HoldsText items fields := by
    obtain ⟨items, hitems⟩ := hself.fields form hform h
    obtain ⟨fields, hfields⟩ := exists_spellsAll fun item hitem =>
      hparts item (.field hform h hitems hitem)
    exact ⟨items, fields, hitems, hfields⟩
  have helements (h : form.HasElements) :
      ∃ items elements, Lists j "elements" items ∧ SpellsAll HoldsText items elements := by
    obtain ⟨items, hitems⟩ := hself.elements form hform h
    obtain ⟨elements, helements⟩ := exists_spellsAll fun item hitem =>
      hparts item (.element hform h hitems hitem)
    exact ⟨items, elements, hitems, helements⟩
  cases form with
  | tuple =>
    obtain ⟨items, fields, hitems, hfields⟩ := hfields (.inl rfl)
    exact ⟨_, .tuple hform hitems hfields⟩
  | variant =>
    obtain ⟨items, fields, hitems, hfields⟩ := hfields (.inr rfl)
    obtain ⟨n, hn, hindex⟩ := hself.index hform
    have hsmall : n < 256 := by
      by_contra hgreat
      exact hsound j .refl (.index hform hindex hn (Nat.not_lt.1 hgreat))
    have hid : j.member? "index" = some (.nat (⟨n, hsmall⟩ : Fin 256)) := hindex
    exact ⟨_, .variant hform hid hitems hfields⟩
  | optional =>
    cases hvalue : j.member? "value" with
    | none => exact ⟨_, .absent hform (.inl hvalue)⟩
    | some value =>
      by_cases hnull : value = .null
      · exact ⟨_, .absent hform (.inr (hnull ▸ hvalue))⟩
      · obtain ⟨inner, hinner⟩ := hparts value (.value hform hvalue hnull)
        exact ⟨_, .present hform hvalue hinner⟩
  | collection =>
    obtain ⟨items, elements, hitems, helements⟩ := helements (.inl rfl)
    exact ⟨_, .array hform hitems helements⟩
  | map =>
    obtain ⟨items, nodes, hitems, hnodes⟩ := helements (.inr rfl)
    cases hpairs : pairs? nodes with
    | none =>
      have hread := nodesOfLegacy_of_spellsAll ofLegacy_of_holdsText hnodes
      have hodd : items.length % 2 = 1 := by
        rw [← length_of_nodesOfLegacy hread]
        exact pairs?_eq_none_iff.1 hpairs
      exact absurd (.unpaired hform hitems hodd) (hsound j .refl)
    | some entries =>
      rw [pairs?_eq_some_iff.1 hpairs] at hnodes
      exact ⟨_, .map hform hitems hnodes⟩
  | bool =>
    obtain ⟨b, hvalue⟩ := hself.bool hform
    exact ⟨_, .bool hform hvalue⟩
  | string => exact ⟨_, .text (.string hform)⟩
  | wrapped kind => exact ⟨_, .text (.wrapped hform)⟩
  | integer kind => exact ⟨_, .text (.integer hform)⟩
termination_by sizeOf j

/-- **Flaws are told and nothing is made up.** A flaw at any depth is a mismatch, and there is no
    other error. Where every part of a document is well-typed it is read unless it has a flaw,
    and what is read is the value that the document spells. -/
theorem flaws_told :
    (∀ (document : Json) (fault : Fault), Node.ofLegacy document = .error fault →
      fault.kind = "SchemaMismatch") ∧
    (∀ document part : Json, Within part document → Flawed part →
      ∃ fault, Node.ofLegacy document = .error fault) ∧
    ∀ document : Json, (∀ part, Within part document → WellTyped part) →
      ((∃ node, Node.ofLegacy document = .ok node) ↔
        ∀ part, Within part document → ¬Flawed part) ∧
      ∀ node, Node.ofLegacy document = .ok node ↔ Spells HoldsText document node := by
  refine ⟨fun document fault => (ofLegacy_mayMismatch document).error, ?_, ?_⟩
  · intro document part hpart hflaw
    cases h : Node.ofLegacy document with
    | error fault => exact ⟨fault, rfl⟩
    | ok node => exact absurd hflaw (not_flawed_of_ok hpart h)
  · intro document htyped
    have hread {node : Node} (h : Spells HoldsText document node) :
        Node.ofLegacy document = .ok node :=
      ofLegacy_of_spells ofLegacy_of_holdsText h
    refine ⟨⟨fun ⟨node, h⟩ part hpart => not_flawed_of_ok hpart h, fun hsound => ?_⟩,
      fun node => ⟨fun h => ?_, hread⟩⟩
    · obtain ⟨node, hnode⟩ := exists_spells document htyped hsound
      exact ⟨node, hread hnode⟩
    · obtain ⟨node', hnode'⟩ :=
        exists_spells document htyped fun part hpart => not_flawed_of_ok hpart h
      obtain rfl : node' = node := Except.ok.inj ((hread hnode').symm.trans h)
      exact hnode'

/-- Also where the list of a part is missing, and where the index of one is too great. -/
theorem flaws_told_nested :
    let empty : Json := .obj [("type", .str "Set")]
    let document : Json := .obj [("type", .str "Struct"), ("fields", .arr [empty])]
    let wide : Json := .obj [("type", .str "Enum"), ("index", .int 256)]
    let flawed : Json := .obj [("type", .str "Option"), ("value", wide)]
    Node.ofLegacy document = .ok (.plain (.tuple [.plain (.array none [])])) ∧
      ∃ fault, Node.ofLegacy flawed = .error fault ∧ fault.kind = "SchemaMismatch" := by
  intro empty document wide flawed
  obtain ⟨hkind, htold, hread⟩ := flaws_told
  have hempty : HasForm empty .collection := ⟨"Set", rfl, .listed (by decide)⟩
  have hnone : Lists empty "elements" [] := .inr ⟨rfl, rfl⟩
  have hdocument : HasForm document .tuple := ⟨"Struct", rfl, .listed (by decide)⟩
  have hfields : Lists document "fields" [empty] := .inl rfl
  have hchild : ∀ part, PartOf part document → part = empty := fun part hpart =>
    List.mem_singleton.1 ((partOf_iff_of_fields hdocument (.inl rfl) hfields).1 hpart)
  have hleaf : ∀ part, ¬PartOf part empty := fun part hpart =>
    List.not_mem_nil ((partOf_iff_of_elements hempty (.inl rfl) hnone).1 hpart)
  have htyped : ∀ part, Within part document → WellTyped part := by
    intro part hpart
    rcases hpart.cases_tail with rfl | ⟨child, hin, hpart⟩
    · exact ⟨fun _ _ _ => ⟨_, hfields⟩, fun _ _ _ => ⟨[], .inr ⟨rfl, rfl⟩⟩,
        fun h => (nomatch hdocument.unique h), fun h => (nomatch hdocument.unique h)⟩
    rw [hchild child hpart] at hin
    rcases hin.cases_tail with rfl | ⟨leaf, -, hpart⟩
    · exact ⟨fun _ _ _ => ⟨[], .inr ⟨rfl, rfl⟩⟩, fun _ _ _ => ⟨_, hnone⟩,
        fun h => (nomatch hempty.unique h), fun h => (nomatch hempty.unique h)⟩
    · exact absurd hpart (hleaf leaf)
  have hspells : Spells HoldsText document (.plain (.tuple [.plain (.array none [])])) :=
    .tuple hdocument hfields (.cons (.array hempty hnone .nil) .nil)
  have hwide : Flawed wide :=
    .index (n := 256) ⟨"Enum", rfl, .listed (by decide)⟩ rfl (by decide) (by decide)
  have hin : Within wide flawed :=
    .single (.value ⟨"Option", rfl, .listed (by decide)⟩ rfl (by simp [wide]))
  obtain ⟨fault, hfault⟩ := htold flawed wide hin hwide
  exact ⟨((hread document htyped).2 _).2 hspells, fault, hfault, hkind flawed fault hfault⟩

/-- A list of fields that is missing is the empty one. -/
theorem struct_without_fields :
    let document : Json := .obj [("type", .str "Struct")]
    document.member? "fields" = none ∧ Node.ofLegacy document = .ok (.plain (.tuple [])) :=
  ⟨rfl, ofLegacy_of_spells ofLegacy_of_holdsText
    (.tuple ⟨"Struct", rfl, .listed (by decide)⟩ (.inr ⟨rfl, rfl⟩) .nil)⟩

end LedgerClient.State
