/-
  The new entities of a receipt.

  * `e.HasPrefix kind`: the address of an entity starts with the word of a kind;
  * `Listed es resources components`: each entity of `es` is listed once, in its turn, as a
    resource or as a component, and where it may be by its address and its type;
  * `ofDetails_lists_entities`: so are the new entities that details tell of.
-/
import LedgerClient.Address
import LedgerClient.Proofs.Text.Search
import LedgerClient.Receipt.Details

namespace LedgerClient

open Text

/-! ## Addresses and types -/

namespace NewEntity

/-- The address starts with the word of the kind and an underscore. -/
def HasPrefix (e : NewEntity) (kind : EntityKind) : Prop :=
  (kind.word ++ "_").toList <+: e.address.toList

/-- The type has the word for resources in its name. -/
def NamedResource (e : NewEntity) : Prop :=
  "Resource".toList <:+: e.kind.toList

/-- An address has the prefix of one kind only. -/
theorem HasPrefix.unique {e : NewEntity} {kind kind' : EntityKind} (h : e.HasPrefix kind)
    (h' : e.HasPrefix kind') : kind = kind' := by
  have hor := List.prefix_or_prefix_of_prefix h h'
  revert hor
  cases kind <;> cases kind' <;> decide

theorem isResource_iff {e : NewEntity} :
    e.isResource ↔ e.NamedResource ∨ e.HasPrefix .resource := by
  rw [isResource, Bool.or_eq_true, contains, occursIn_iff, startsWith_iff]
  rfl

end NewEntity

/-! ## Lists of entities -/

/-- The addresses of entities in two lists, each in the order of the entities. -/
inductive Listed : List NewEntity → List String → List String → Prop
  | nil : Listed [] [] []
  /-- By its address, the entity is no other than a resource, unless its type says so. -/
  | resource {e es resources components}
      (h : ∀ kind, e.HasPrefix kind → kind = .resource ∨ e.NamedResource) :
      Listed es resources components → Listed (e :: es) (e.address :: resources) components
  /-- By its address, the entity is no resource. -/
  | component {e es resources components} (h : ¬e.HasPrefix .resource) :
      Listed es resources components → Listed (e :: es) resources (e.address :: components)

/-- Nothing is lost, and nothing is there twice. -/
theorem Listed.perm {es : List NewEntity} {resources components : List String}
    (h : Listed es resources components) :
    (resources ++ components).Perm (es.map (·.address)) := by
  induction h with
  | nil => exact .nil
  | resource _ _ ih => exact ih.cons _
  | component _ _ ih => exact List.perm_middle.trans (ih.cons _)

theorem listed_filter (es : List NewEntity) :
    Listed es ((es.filter (·.isResource)).map (·.address))
      ((es.filter fun e => !e.isResource).map (·.address)) := by
  induction es with
  | nil => exact .nil
  | cons e es ih =>
    cases hres : e.isResource with
    | true =>
      simp only [List.filter_cons, hres, if_true, Bool.not_true, Bool.false_eq_true, if_false,
        List.map_cons]
      refine .resource (fun kind hkind => ?_) ih
      obtain hnamed | hprefix := NewEntity.isResource_iff.1 hres
      · exact Or.inr hnamed
      · exact Or.inl (hkind.unique hprefix)
    | false =>
      simp only [List.filter_cons, hres, if_true, Bool.not_false, Bool.false_eq_true, if_false,
        List.map_cons]
      refine .component (fun hprefix => ?_) ih
      simp [NewEntity.isResource_iff.2 (Or.inr hprefix)] at hres

/-- **A receipt lists every new entity once.** -/
theorem Receipt.ofDetails_lists_entities (intentHash : String) (polled : ReceiptStatus)
    (d : CommittedDetails) :
    let entities := (d.report.bind (·.newEntities)).getD []
    let receipt := Receipt.ofDetails intentHash polled d
    Listed entities receipt.newResources receipt.newComponents ∧
      (receipt.newResources ++ receipt.newComponents).Perm (entities.map (·.address)) :=
  have hlisted := listed_filter ((d.report.bind (·.newEntities)).getD [])
  ⟨hlisted, hlisted.perm⟩

/-- The type of an entity counts also where its address is that of another kind. -/
theorem Receipt.component_listed_as_resource :
    let e : NewEntity := ⟨"GlobalFungibleResource", "component_rdx1qqqqqq"⟩
    let d : CommittedDetails :=
      ⟨"CommittedSuccess", none, none, none, some ⟨none, some [e], []⟩⟩
    let receipt := Receipt.ofDetails "txid" .success d
    e.HasPrefix .component ∧ receipt.newResources = [e.address] ∧ receipt.newComponents = [] := by
  intro e d receipt
  exact ⟨⟨"rdx1qqqqqq".toList, by decide⟩, by decide, by decide⟩

end LedgerClient
