/-
  What a decoded state answers.

  * `LookedUp payload place name node`: the node that a payload has for a field, by name or by
    place;
  * `decodeFrom_finds`: a decoded state has the node of each field, and it is of the kind that
    the schema says;
  * `Answers s name kind content`: what reading the field gives where `kind` is expected and
    `content` is there. A text may still mean nothing, but it is never of the wrong kind;
  * `Lacks s name`: all that is read of the field is that it is missing;
  * `decoded_answers`: the fields of a schema answer, and no others are there.
-/
import LedgerClient.Proofs.Amount.Notation
import LedgerClient.Proofs.Scan
import LedgerClient.Proofs.State.Evolution
import LedgerClient.Proofs.Text.Numeral

namespace LedgerClient.State

open Text

/-! ## Looking up -/

/-- The node of a field: the first one of its name where the payload carries names, and the one
    in its place where it carries none. -/
inductive LookedUp (payload : List Node) (place : Nat) (name : String) (node : Node) : Prop
  | named {before after : List Node} (h : payload = before ++ node :: after)
      (hname : node.fieldName = some name) (hfirst : ∀ other ∈ before, other.fieldName ≠ some name)
  | placed (hunnamed : ∀ other ∈ payload, other.fieldName = none)
      (h : payload[place]? = some node)

theorem lookedUp_of_find? {payload : List Node} {place : Nat} {name : String} {node : Node}
    (h : Schema.find? payload place name = some node) : LookedUp payload place name node := by
  rw [Schema.find?] at h
  split at h
  · obtain ⟨hname, before, after, hpayload, hfirst⟩ := List.find?_eq_some_iff_append.1 h
    exact .named hpayload (by simpa using hname) fun other hother => by
      simpa using hfirst other hother
  · rename_i hunnamed
    exact .placed (by simpa using hunnamed) h

theorem decodeField_finds {payload : List Node} {place : Nat} {name : String} {kind : FieldKind}
    {node : Node} (h : Schema.decodeField payload place name kind = .ok node) :
    LookedUp payload place name node ∧ kind.accepts node.content := by
  rw [Schema.decodeField] at h
  split at h
  · cases h
  · rename_i found hfind
    split at h
    · rename_i haccepts
      cases h
      exact ⟨lookedUp_of_find? hfind, haccepts⟩
    · cases h

/-- **What is decoded are the nodes of the fields**, in order and each of its kind. -/
theorem decodeFrom_finds {payload : List Node} {schema : Schema} {place : Nat}
    {values : List (String × Node)} (h : Schema.decodeFrom payload place schema = .ok values) :
    values.map Prod.fst = schema.names ∧
      ∀ i name kind, schema[i]? = some (name, kind) → ∃ node, values[i]? = some (name, node) ∧
        LookedUp payload (place + i) name node ∧ kind.accepts node.content := by
  induction schema generalizing place values with
  | nil =>
    obtain rfl : [] = values := by simpa [Schema.decodeFrom] using h
    exact ⟨rfl, by simp⟩
  | cons field rest ih =>
    obtain ⟨name, kind⟩ := field
    rw [Schema.decodeFrom] at h
    obtain ⟨node, hfield, h⟩ := exists_of_bind_ok h
    obtain ⟨nodes, hrest, h⟩ := exists_of_bind_ok h
    obtain rfl : (name, node) :: nodes = values := Except.ok.inj h
    obtain ⟨hnames, hfound⟩ := ih hrest
    refine ⟨by simpa [Schema.names] using hnames, ?_⟩
    intro i name' kind' hi
    cases i with
    | zero =>
      obtain ⟨rfl, rfl⟩ : name = name' ∧ kind = kind' := by simpa using hi
      exact ⟨node, rfl, decodeField_finds hfield⟩
    | succ i =>
      obtain ⟨node', hnode', hlooked, haccepts⟩ := hfound i name' kind' hi
      refine ⟨node', hnode', ?_, haccepts⟩
      rwa [Nat.add_right_comm] at hlooked

/-- What stands under a name is found under it, where no other stands under it. -/
theorem lookup_of_mem {α : Type} {values : List (String × α)} {name : String} {value : α}
    (h : (values.map Prod.fst).Nodup) (hmem : (name, value) ∈ values) :
    values.lookup name = some value := by
  obtain ⟨before, after, rfl⟩ := List.append_of_mem hmem
  refine List.lookup_eq_some_iff.2 ⟨before, after, rfl, fun other hother => ?_⟩
  rw [List.map_append, List.map_cons, List.nodup_append] at h
  rw [bne_iff_ne, ne_comm]
  exact h.2.2 other.1 (List.mem_map_of_mem hother) name List.mem_cons_self

namespace Fields

variable {s : Fields} {name : String} {node : Node}

theorem get?_of_mem (h : (s.values.map Prod.fst).Nodup) (hmem : (name, node) ∈ s.values) :
    s.get? name = some node := by
  exact lookup_of_mem (((List.reverse_perm _).map _).nodup_iff.2 h) (List.mem_reverse.2 hmem)

theorem get?_of_not_mem (h : name ∉ s.values.map Prod.fst) : s.get? name = none := by
  rw [get?, List.lookup_eq_none_iff]
  intro other hother
  rw [bne_iff_ne]
  rintro rfl
  exact h (List.mem_map_of_mem (List.mem_reverse.1 hother))

/-! ## Reading -/

theorem read_of_get? {α : Type} {expected : String} {view : Content → Option α} {value : α}
    (hget : s.get? name = some node) (hview : view node.content = some value) :
    s.read name expected view = .ok value := by
  simp [read, require, hget, hview, bind, Except.bind]

theorem read_of_missing {α : Type} (expected : String) (view : Content → Option α)
    (hget : s.get? name = none) :
    s.read name expected view = .error (.schemaMismatch name expected "missing") := by
  simp [read, require, hget, bind, Except.bind]

/-- A text is read where it means something; where it does not, the fault quotes it. -/
structure ReadsText {α : Type} (r : Except Fault α) (name expected text : String)
    (Means : α → Prop) : Prop where
  ok_iff : ∀ value, r = .ok value ↔ Means value
  fault : ∀ fault, r = .error fault → fault = .schemaMismatch name expected text

theorem readText_of_get? {α : Type} {expected text : String} {kind : TextKind}
    {kinds : TextKind → Bool} {meaning : String → Option α} (hget : s.get? name = some node)
    (hcontent : node.content = .text kind text) (hkind : kinds kind) :
    ReadsText (s.readText name expected kinds meaning) name expected text
      fun value => meaning text = some value := by
  have hview : textOf? kinds node.content = some text := by simp [hcontent, textOf?, hkind]
  have hread : s.readText name expected kinds meaning =
      (meaning text).elim (.error (.schemaMismatch name expected text)) .ok := by
    rw [readText, read_of_get? hget hview]
    cases hmeaning : meaning text <;> simp [bind, Except.bind, hmeaning]
  rw [hread]
  cases meaning text <;> exact ⟨by simp, by simp [eq_comm]⟩

/-- A text is read as the amount that it is; where it is none the fault quotes it, unless the text
    stops the program. -/
structure ReadsAmount (r : Except Fault Amount) (name text : String) : Prop where
  ok_iff : ∀ a, r = .ok a ↔ Amount.parse text = .ok a
  fault : ¬Amount.Overruns text →
    ∀ fault, r = .error fault → fault = .schemaMismatch name "Decimal" text
  crash : Amount.Overruns text → r = .error Amount.overrun

theorem readsAmount_of_get? {text : String} {kind : TextKind} (hget : s.get? name = some node)
    (hcontent : node.content = .text kind text) (hkind : kind.isDecimal) :
    ReadsAmount (s.amount name) name text := by
  have hview : textOf? TextKind.isDecimal node.content = some text := by
    simp [hcontent, textOf?, hkind]
  have hread : s.amount name = Amount.parseOr (.schemaMismatch name "Decimal" text) text := by
    rw [amount, read_of_get? hget hview]
    rfl
  rw [hread]
  exact ⟨fun a => Amount.parseOr_eq_ok_iff, fun h fault => (Amount.parseOr_yields h).error,
    Amount.parseOr_of_overruns⟩

end Fields

/-! ## Answers -/

/-- There is a way of reading the fields of this kind. -/
def FieldKind.isRead : FieldKind → Bool
  | only (.text kind) => kind == .string || kind.isReference || kind.isDecimal
  | only .bool | only .array | only .map | unsigned | optional => true
  | only .bytes | only .variant | only .tuple | any => false

/-- What reading a field gives where a value of some kind is expected and this one is there. -/
inductive Answers (s : Fields) (name : String) : FieldKind → Content → Prop
  | string {text : String} (h : s.string name = .ok text) :
      Answers s name (.only (.text .string)) (.text .string text)
  | reference {kind : TextKind} {text : String} (hkind : kind = .reference ∨ kind = .own)
      (h : s.reference name = .ok text) : Answers s name (.only (.text kind)) (.text kind text)
  | bool {b : Bool} (h : s.bool name = .ok b) : Answers s name (.only .bool) (.bool b)
  | array {elementKind : Option String} {elements : List Node}
      (h : s.array name = .ok elements) :
      Answers s name (.only .array) (.array elementKind elements)
  | map {keyKind valueKind : Option String} {entries : List (Node × Node)}
      (h : s.map name = .ok entries) :
      Answers s name (.only .map) (.map keyKind valueKind entries)
  | absent {variantName : Option String} (h : s.option name = .ok none) :
      Answers s name .optional (.variant 0 variantName [])
  | present {variantName : Option String} {inner : Node} (h : s.option name = .ok (some inner)) :
      Answers s name .optional (.variant 1 variantName [inner])
  | decimal {kind : TextKind} {text : String} (hkind : kind = .decimal ∨ kind = .preciseDecimal)
      (hamount : Fields.ReadsAmount (s.amount name) name text)
      (hdecimal : Fields.ReadsText (s.decimal name) name "Decimal" text
        fun d => Decimal.ofText? text = some d) :
      Answers s name (.only (.text kind)) (.text kind text)
  | unsigned {kind : TextKind} {text : String} (hkind : kind ∈ [.u8, .u16, .u32, .u64])
      (h : Fields.ReadsText (s.unsigned name) name "unsigned integer" text fun n =>
        ∃ cs, (text.toList = cs ∨ text.toList = '+' :: cs) ∧ IsNumeral cs ∧ valueOf cs = n ∧
          n < twoTo 64) :
      Answers s name .unsigned (.text kind text)
  | unread {kind : FieldKind} {content : Content} (h : kind.isRead = false) :
      Answers s name kind content

/-- All that is read of a field is that it is missing. -/
structure Lacks (s : Fields) (name : String) : Prop where
  get : s.get? name = none
  decimal : s.decimal name = .error (.schemaMismatch name "Decimal" "missing")
  amount : s.amount name = .error (.schemaMismatch name "Decimal" "missing")
  string : s.string name = .error (.schemaMismatch name "String" "missing")
  reference : s.reference name = .error (.schemaMismatch name "Reference" "missing")
  unsigned : s.unsigned name = .error (.schemaMismatch name "unsigned integer" "missing")
  bool : s.bool name = .error (.schemaMismatch name "Bool" "missing")
  array : s.array name = .error (.schemaMismatch name "Array" "missing")
  map : s.map name = .error (.schemaMismatch name "Map" "missing")
  option : s.option name = .error (.schemaMismatch name "Option" "missing")

theorem Content.option?_isSome {content : Content} (h : content.option?.isSome) :
    (∃ variantName, content = .variant 0 variantName [] ∧ content.option? = some none) ∨
      ∃ variantName inner, content = .variant 1 variantName [inner] ∧
        content.option? = some (some inner) := by
  unfold option? at h ⊢
  split at h
  · exact Or.inl ⟨none, rfl, rfl⟩
  · exact Or.inl ⟨_, rfl, rfl⟩
  · exact Or.inr ⟨none, _, rfl, rfl⟩
  · exact Or.inr ⟨_, _, rfl, rfl⟩
  · cases h

section Field

variable {s : Fields} {name : String} {node : Node} {text : String}

theorem readsUnsigned {kind : TextKind} (hget : s.get? name = some node)
    (hcontent : node.content = .text kind text) (hkind : kind.isUnsigned) :
    Fields.ReadsText (s.unsigned name) name "unsigned integer" text fun n =>
      ∃ cs, (text.toList = cs ∨ text.toList = '+' :: cs) ∧ IsNumeral cs ∧ valueOf cs = n ∧
        n < twoTo 64 := by
  have hread : Fields.ReadsText (s.unsigned name) name "unsigned integer" text
      fun n => bounded? (twoTo 64) text = some n :=
    Fields.readText_of_get? hget hcontent hkind
  exact ⟨fun n => (hread.ok_iff n).trans bounded?_eq_some_iff, hread.fault⟩

/-- A text of the expected kind. -/
theorem answers_text {kind : TextKind} (hget : s.get? name = some node)
    (hcontent : node.content = .text kind text) :
    Answers s name (.only (.text kind)) (.text kind text) := by
  by_cases hdecimal : kind.isDecimal
  · have hkind : kind = .decimal ∨ kind = .preciseDecimal := by
      cases kind <;> simp [TextKind.isDecimal] at hdecimal ⊢
    exact .decimal hkind (Fields.readsAmount_of_get? hget hcontent hdecimal)
      (Fields.readText_of_get? hget hcontent hdecimal)
  by_cases hreference : kind.isReference
  · have hkind : kind = .reference ∨ kind = .own := by
      cases kind <;> simp [TextKind.isReference] at hreference ⊢
    have hview : Fields.textOf? TextKind.isReference node.content = some text := by
      simp [hcontent, Fields.textOf?, hreference]
    exact .reference hkind (Fields.read_of_get? hget hview)
  by_cases hstring : kind = .string
  · subst hstring
    have hview : Fields.textOf? (· == .string) node.content = some text := by
      simp [hcontent, Fields.textOf?]
    exact .string (Fields.read_of_get? hget hview)
  · exact .unread (by simp [FieldKind.isRead, hdecimal, hreference, hstring])

/-- **A field of the expected kind answers as a value of that kind does.** -/
theorem answers_of_accepts {kind : FieldKind} (hget : s.get? name = some node)
    (haccepts : kind.accepts node.content) : Answers s name kind node.content := by
  cases kind with
  | any => exact .unread rfl
  | optional =>
    obtain ⟨variantName, hcontent, hview⟩ | ⟨variantName, inner, hcontent, hview⟩ :=
      Content.option?_isSome haccepts
    · rw [hcontent]
      exact .absent (Fields.read_of_get? hget hview)
    · rw [hcontent]
      exact .present (Fields.read_of_get? hget hview)
  | unsigned =>
    cases hcontent : node.content with
    | text kind text =>
      rw [hcontent] at haccepts
      have hkind : kind ∈ [TextKind.u8, .u16, .u32, .u64] := by
        cases kind <;> simp [FieldKind.accepts, TextKind.isUnsigned] at haccepts ⊢
      exact .unsigned hkind (readsUnsigned hget hcontent haccepts)
    | _ =>
      rw [hcontent] at haccepts
      cases haccepts
  | only kind =>
    obtain rfl : node.content.kind = kind := by simpa [FieldKind.accepts] using haccepts
    cases hcontent : node.content with
    | bool b => exact .bool (Fields.read_of_get? hget (by rw [hcontent]))
    | text kind text => exact answers_text hget hcontent
    | bytes elementKind hex => exact .unread rfl
    | variant id variantName fields => exact .unread rfl
    | array elementKind elements => exact .array (Fields.read_of_get? hget (by rw [hcontent]))
    | map keyKind valueKind entries => exact .map (Fields.read_of_get? hget (by rw [hcontent]))
    | tuple fields => exact .unread rfl

theorem lacks_of_get? (hget : s.get? name = none) : Lacks s name where
  get := hget
  decimal := by rw [Fields.decimal, Fields.readText, Fields.read_of_missing _ _ hget]; rfl
  amount := by rw [Fields.amount, Fields.read_of_missing _ _ hget]; rfl
  string := Fields.read_of_missing _ _ hget
  reference := Fields.read_of_missing _ _ hget
  unsigned := by rw [Fields.unsigned, Fields.readText, Fields.read_of_missing _ _ hget]; rfl
  bool := Fields.read_of_missing _ _ hget
  array := Fields.read_of_missing _ _ hget
  map := Fields.read_of_missing _ _ hget
  option := Fields.read_of_missing _ _ hget

end Field

/-- A decoded state has the values that were found in the payload. -/
theorem decode_eq_ok {schema : Schema} {root : Node} {s : Fields}
    (h : schema.decode root = .ok s) : ∃ payload, root.content = .tuple payload ∧
      Schema.decodeFrom payload 0 schema = .ok s.values := by
  rw [Schema.decode] at h
  split at h
  · rename_i payload hroot
    obtain ⟨values, hvalues, rfl⟩ := exists_of_map_ok h
    exact ⟨payload, hroot, hvalues⟩
  · cases h

/-- **The fields of a schema answer.** A decoded state has the fields that the schema names and
    no others, each with the node that the payload has for it, and reading a field as what the
    schema says it is gives what this node holds. -/
theorem decoded_answers {schema : Schema} {root : Node} {s : Fields}
    (hdistinct : schema.names.Nodup) (hdecode : schema.decode root = .ok s) :
    (∀ name, (∃ node, s.get? name = some node) ↔ name ∈ schema.names) ∧
    (∃ payload, root.content = .tuple payload ∧
      ∀ place name kind, schema[place]? = some (name, kind) →
        ∃ node, s.get? name = some node ∧ LookedUp payload place name node ∧
          Answers s name kind node.content) ∧
    ∀ name ∉ schema.names, Lacks s name := by
  obtain ⟨payload, hroot, hvalues⟩ := decode_eq_ok hdecode
  obtain ⟨hnames, hfound⟩ := decodeFrom_finds hvalues
  have hmissing : ∀ name ∉ schema.names, s.get? name = none := fun name hname =>
    Fields.get?_of_not_mem (hnames ▸ hname)
  refine ⟨fun name => ⟨?_, ?_⟩, ⟨payload, hroot, ?_⟩, fun name hname =>
    lacks_of_get? (hmissing name hname)⟩
  · rintro ⟨node, hget⟩
    by_contra hname
    rw [hmissing name hname] at hget
    cases hget
  · intro hname
    rw [← hnames] at hname
    obtain ⟨⟨_, node⟩, hmem, rfl⟩ := List.mem_map.1 hname
    exact ⟨node, Fields.get?_of_mem (hnames ▸ hdistinct) hmem⟩
  · intro place name kind hfield
    obtain ⟨node, hnode, hlooked, haccepts⟩ := hfound place name kind hfield
    rw [Nat.zero_add] at hlooked
    have hget := Fields.get?_of_mem (hnames ▸ hdistinct) (List.mem_of_getElem? hnode)
    exact ⟨node, hget, hlooked, answers_of_accepts hget haccepts⟩

/-- Also where names are looked up among others, one of them twice, and a number has a plus
    sign. -/
theorem decoded_answers_epoch :
    let schema : Schema := [("epoch", .unsigned), ("owner", .optional)]
    let owner : Node := .mk (some "owner") none (.variant 1 none [.plain (.text .string "alice")])
    let epoch : Node := .mk (some "epoch") none (.text .u64 "+018")
    let later : Node := .mk (some "epoch") none (.bool true)
    let root : Node := .plain (.tuple [owner, epoch, later])
    let s : Fields := ⟨[("epoch", epoch), ("owner", owner)]⟩
    schema.names.Nodup ∧ schema.decode root = .ok s ∧ s.unsigned "epoch" = .ok 18 ∧
      Lacks s "supply" := by
  intro schema owner epoch later root s
  have hdistinct : schema.names.Nodup := by decide
  have hdecode : schema.decode root = .ok s := rfl
  obtain ⟨-, ⟨payload, -, hanswers⟩, hlacks⟩ := decoded_answers hdistinct hdecode
  obtain ⟨node, hget, -, hepoch⟩ := hanswers 0 "epoch" .unsigned rfl
  obtain rfl : epoch = node := Option.some.inj hget
  refine ⟨hdistinct, hdecode, ?_, hlacks "supply" (by decide)⟩
  cases hepoch with
  | unsigned hkind hreads =>
    have hnumeral : IsNumeral ['0', '1', '8'] := ⟨by decide, List.all_eq_true.1 (by decide)⟩
    exact (hreads.ok_iff 18).2 ⟨['0', '1', '8'], Or.inr rfl, hnumeral, rfl, by decide⟩
  | unread h => cases h

end LedgerClient.State
