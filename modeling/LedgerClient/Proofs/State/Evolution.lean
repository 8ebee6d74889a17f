/-
  Named state and changes of a blueprint.

  * `ReadsByName payload schema r`: what a schema makes of a payload by the names of its fields
    alone, wherever they stand;
  * `decodeFrom_eq_iff`: decoding does just that where the payload carries names, and none that
    the schema mentions is ambiguous;
  * `Evolves schema`: a blueprint may reorder the fields of a payload, and put in others that
    the schema does not mention;
  * `decode_of_evolves`: a schema reads the same from a payload that has evolved.
-/
import LedgerClient.State.Schema

namespace LedgerClient.State

/-! ## Names -/

/-- No two fields of a payload share this name. -/
def Unambiguous (payload : List Node) (name : String) : Prop :=
  ∀ a ∈ payload, ∀ b ∈ payload, a.fieldName = some name → b.fieldName = some name → a = b

theorem unambiguous_of_nodup {payload : List Node}
    (h : (payload.filterMap Node.fieldName).Nodup) (name : String) :
    Unambiguous payload name := by
  have hapart := List.pairwise_iff_getElem.1 (List.pairwise_filterMap.1 h)
  intro a ha b hb haname hbname
  obtain ⟨i, hi, rfl⟩ := List.getElem_of_mem ha
  obtain ⟨j, hj, rfl⟩ := List.getElem_of_mem hb
  obtain hlt | rfl | hlt := Nat.lt_trichotomy i j
  · exact absurd rfl (hapart i j hi hj hlt name haname name hbname)
  · rfl
  · exact absurd rfl (hapart j i hj hi hlt name hbname name haname)

/-- The names that a schema mentions. -/
def Schema.names (schema : Schema) : List String :=
  schema.map Prod.fst

/-! ## Reading by name -/

/-- What the expected fields come to where they are looked up by name alone: they are taken in
    order, up to the first one that is missing or of another kind. -/
inductive ReadsByName (payload : List Node) :
    Schema → Except Fault (List (String × Node)) → Prop
  | nil : ReadsByName payload [] (.ok [])
  | missing {name : String} {kind : FieldKind} {rest : Schema}
      (h : ∀ node ∈ payload, node.fieldName ≠ some name) :
      ReadsByName payload ((name, kind) :: rest)
        (.error (.schemaMismatch name kind.name "missing"))
  | mismatch {name : String} {kind : FieldKind} {rest : Schema} {node : Node}
      (hnode : node ∈ payload) (hname : node.fieldName = some name)
      (h : kind.accepts node.content = false) :
      ReadsByName payload ((name, kind) :: rest)
        (.error (.schemaMismatch name kind.name node.kind.name))
  | found {name : String} {kind : FieldKind} {rest : Schema} {node : Node}
      {r : Except Fault (List (String × Node))}
      (hnode : node ∈ payload) (hname : node.fieldName = some name)
      (h : kind.accepts node.content = true) (hrest : ReadsByName payload rest r) :
      ReadsByName payload ((name, kind) :: rest) (r.map ((name, node) :: ·))

/-- Only the fields that the schema mentions matter. -/
theorem ReadsByName.congr {payload payload' : List Node} {schema : Schema}
    {r : Except Fault (List (String × Node))} (h : ReadsByName payload schema r)
    (hsame : ∀ name ∈ schema.names, ∀ node, node.fieldName = some name →
      (node ∈ payload' ↔ node ∈ payload)) :
    ReadsByName payload' schema r := by
  induction h with
  | nil => exact .nil
  | missing h =>
    obtain ⟨hname, -⟩ := List.forall_mem_cons.1 hsame
    exact .missing fun node hnode heq => h node ((hname node heq).1 hnode) heq
  | mismatch hnode heq h =>
    obtain ⟨hname, -⟩ := List.forall_mem_cons.1 hsame
    exact .mismatch ((hname _ heq).2 hnode) heq h
  | found hnode heq h _ ih =>
    obtain ⟨hname, hrest⟩ := List.forall_mem_cons.1 hsame
    exact .found ((hname _ heq).2 hnode) heq h (ih hrest)

namespace Schema

variable {payload : List Node} {name : String}

section Named

variable (hnamed : ∃ node ∈ payload, node.fieldName.isSome)
include hnamed

theorem find?_eq_none_iff (place : Nat) :
    find? payload place name = none ↔ ∀ node ∈ payload, node.fieldName ≠ some name := by
  rw [find?, if_pos (List.any_eq_true.2 hnamed), List.find?_eq_none]
  simp only [beq_iff_eq, ne_eq]

theorem find?_eq_some_iff (hname : Unambiguous payload name) (place : Nat) {node : Node} :
    find? payload place name = some node ↔ node ∈ payload ∧ node.fieldName = some name := by
  have hfound : ∀ {node}, find? payload place name = some node →
      node ∈ payload ∧ node.fieldName = some name := by
    intro node h
    rw [find?, if_pos (List.any_eq_true.2 hnamed)] at h
    exact ⟨List.mem_of_find?_eq_some h, by simpa using List.find?_some h⟩
  refine ⟨hfound, fun ⟨hmem, hnode⟩ => ?_⟩
  cases hfind : find? payload place name with
  | none => exact absurd hnode ((find?_eq_none_iff hnamed place).1 hfind node hmem)
  | some node' =>
    obtain ⟨hmem', hnode'⟩ := hfound hfind
    rw [hname node' hmem' node hmem hnode' hnode]

theorem decodeFrom_reads {schema : Schema}
    (hnames : ∀ name ∈ schema.names, Unambiguous payload name) (place : Nat) :
    ReadsByName payload schema (decodeFrom payload place schema) := by
  induction schema generalizing place with
  | nil => exact .nil
  | cons field rest ih =>
    obtain ⟨name, kind⟩ := field
    obtain ⟨hname, hrest⟩ := List.forall_mem_cons.1 hnames
    rw [decodeFrom, decodeField]
    cases hfind : find? payload place name with
    | none => exact .missing ((find?_eq_none_iff hnamed place).1 hfind)
    | some node =>
      obtain ⟨hmem, hnode⟩ := (find?_eq_some_iff hnamed hname place).1 hfind
      cases hkind : kind.accepts node.content with
      | false =>
        simp only [hkind]
        exact .mismatch hmem hnode hkind
      | true =>
        simp only [hkind]
        exact .found hmem hnode hkind (ih hrest (place + 1))

/-- **Where a payload carries names, only these matter.** -/
theorem decodeFrom_eq_iff {schema : Schema}
    (hnames : ∀ name ∈ schema.names, Unambiguous payload name) (place : Nat)
    {r : Except Fault (List (String × Node))} :
    decodeFrom payload place schema = r ↔ ReadsByName payload schema r := by
  refine ⟨fun h => h ▸ decodeFrom_reads hnamed hnames place, fun h => ?_⟩
  induction h generalizing place with
  | nil => rfl
  | missing h =>
    rw [decodeFrom, decodeField, (find?_eq_none_iff hnamed place).2 h]
    rfl
  | mismatch hnode heq h =>
    obtain ⟨hname, -⟩ := List.forall_mem_cons.1 hnames
    rw [decodeFrom, decodeField, (find?_eq_some_iff hnamed hname place).2 ⟨hnode, heq⟩]
    simp only [h]
    rfl
  | found hnode heq h _ ih =>
    obtain ⟨hname, hrest⟩ := List.forall_mem_cons.1 hnames
    rw [decodeFrom, decodeField, (find?_eq_some_iff hnamed hname place).2 ⟨hnode, heq⟩]
    simp only [h]
    rw [← ih hrest (place + 1)]
    rfl

end Named

end Schema

/-! ## Evolution -/

/-- What a payload may become when its blueprint changes, where a schema is to go on reading it:
    fields are reordered, and others are put in anywhere, without a name or with one that the
    schema does not mention. -/
inductive Evolves (schema : Schema) : List Node → List Node → Prop
  | reordered {payload payload' : List Node} (h : payload.Perm payload') :
      Evolves schema payload payload'
  | inserted {before after : List Node} {node : Node}
      (h : ∀ name ∈ schema.names, node.fieldName ≠ some name) :
      Evolves schema (before ++ after) (before ++ node :: after)
  | trans {payload payload' payload'' : List Node} (h : Evolves schema payload payload')
      (h' : Evolves schema payload' payload'') : Evolves schema payload payload''

namespace Evolves

variable {schema : Schema} {payload payload' : List Node}

/-- No field is lost. -/
theorem mem (h : Evolves schema payload payload') {node : Node} (hnode : node ∈ payload) :
    node ∈ payload' := by
  induction h with
  | reordered h => exact h.mem_iff.1 hnode
  | inserted h => exact List.perm_middle.mem_iff.2 (List.mem_cons_of_mem _ hnode)
  | trans _ _ ih ih' => exact ih' (ih hnode)

/-- No field is new that the schema mentions. -/
theorem mem_iff (h : Evolves schema payload payload') {name : String}
    (hname : name ∈ schema.names) {node : Node} (hnode : node.fieldName = some name) :
    node ∈ payload' ↔ node ∈ payload := by
  refine ⟨fun hmem => ?_, h.mem⟩
  induction h with
  | reordered h => exact h.mem_iff.2 hmem
  | inserted h =>
    obtain rfl | hmem := List.mem_cons.1 (List.perm_middle.mem_iff.1 hmem)
    · exact absurd hnode (h name hname)
    · exact hmem
  | trans _ _ ih ih' => exact ih (ih' hmem)

theorem unambiguous (h : Evolves schema payload payload') {name : String}
    (hname : name ∈ schema.names) (hpayload : Unambiguous payload name) :
    Unambiguous payload' name := by
  intro a ha b hb haname hbname
  exact hpayload a ((h.mem_iff hname haname).1 ha) b ((h.mem_iff hname hbname).1 hb) haname hbname

end Evolves

/-- **A schema reads the same from a payload that has evolved**, where the payload carries names
    and none twice: the same fields, or the same fault, which are those that looking up names
    alone comes to. -/
theorem decode_of_evolves {schema : Schema} {payload payload' : List Node}
    (hnamed : ∃ node ∈ payload, node.fieldName.isSome)
    (hdistinct : (payload.filterMap Node.fieldName).Nodup)
    (h : Evolves schema payload payload') (root root' : Node)
    (hroot : root.content = .tuple payload) (hroot' : root'.content = .tuple payload') :
    schema.decode root' = schema.decode root ∧
      ∃ r, ReadsByName payload schema r ∧ schema.decode root = r.map Fields.mk := by
  have hunambiguous : ∀ name ∈ schema.names, Unambiguous payload name :=
    fun name _ => unambiguous_of_nodup hdistinct name
  have hreads := Schema.decodeFrom_reads hnamed hunambiguous 0
  have hnamed' : ∃ node ∈ payload', node.fieldName.isSome := by
    obtain ⟨node, hnode, hname⟩ := hnamed
    exact ⟨node, h.mem hnode, hname⟩
  have hsame : Schema.decodeFrom payload' 0 schema = Schema.decodeFrom payload 0 schema := by
    rw [Schema.decodeFrom_eq_iff hnamed' fun name hname => h.unambiguous hname
      (hunambiguous name hname)]
    exact hreads.congr fun name hname node hnode => h.mem_iff hname hnode
  have hdecode : schema.decode root = (Schema.decodeFrom payload 0 schema).map Fields.mk := by
    rw [Schema.decode, hroot]
  refine ⟨?_, _, hreads, hdecode⟩
  rw [hdecode, Schema.decode, hroot', ← hsame]

/-- Also where the fields change places and one without a name comes first. -/
theorem decode_of_evolves_reordered :
    let schema : Schema := [("owner", .optional), ("supply", .only (.text .decimal))]
    let supply : Node := .mk (some "supply") none (.text .decimal "100")
    let owner : Node := .mk (some "owner") none .absent
    let unnamed : Node := .plain (.bool true)
    let paused : Node := .mk (some "paused") none (.bool false)
    schema.decode (.plain (.tuple [unnamed, owner, paused, supply])) =
        schema.decode (.plain (.tuple [supply, owner])) ∧
      schema.decode (.plain (.tuple [supply, owner])) =
        .ok ⟨[("owner", owner), ("supply", supply)]⟩ := by
  intro schema supply owner unnamed paused
  have hreordered : Evolves schema [supply, owner] ([] ++ [owner, supply]) :=
    .reordered (List.Perm.swap owner supply [])
  have hunnamed : Evolves schema ([] ++ [owner, supply]) ([] ++ unnamed :: [owner, supply]) :=
    .inserted (by decide)
  have hpaused : Evolves schema ([unnamed, owner] ++ [supply])
      ([unnamed, owner] ++ paused :: [supply]) := .inserted (by decide)
  obtain ⟨hsame, -⟩ := decode_of_evolves ⟨supply, by simp, rfl⟩ (by decide)
    ((hreordered.trans hunnamed).trans hpaused) (.plain (.tuple [supply, owner]))
    (.plain (.tuple [unnamed, owner, paused, supply])) rfl rfl
  exact ⟨hsame, rfl⟩

end LedgerClient.State
