/-
  Documents in the older form that spell a value.

  * `Spells T j node`: the document `j` spells `node`, where `T` says which documents spell a
    text. An absent list of fields or elements spells the empty one;
  * `SpellsText j kind s`: a string as it is, a text in its wrapping, an integer with its suffix
    or without;
  * `unwrap_wrap`, `unsuffix_append`: a wrapping and a suffix are taken off;
  * `ofLegacy_of_spells`: what is spelled is read, by induction over the spelling, and
    `ofLegacy_mayMismatch`: what is not read is a mismatch;
  * `Node.toLegacy`: a document that spells a value, for every value that has one;
  * `legacy_round_trip`: values are read from the documents that spell them.
-/
import LedgerClient.Proofs.Scan
import LedgerClient.Proofs.State.Documents
import LedgerClient.Proofs.Text.Numeral
import LedgerClient.Proofs.Text.Search
import LedgerClient.State.Legacy

namespace LedgerClient.State

open Text

/-! ## Types -/

/-- The suffix of the numbers of an integer kind. -/
def TextKind.suffix? : TextKind → Option String
  | i8 => some "i8"
  | i16 => some "i16"
  | i32 => some "i32"
  | i64 => some "i64"
  | i128 => some "i128"
  | u8 => some "u8"
  | u16 => some "u16"
  | u32 => some "u32"
  | u64 => some "u64"
  | u128 => some "u128"
  | _ => none

/-- The types of the documents of a form, those of integers apart. -/
def LegacyForm.types : LegacyForm → List String
  | tuple => ["Struct", "Tuple"]
  | variant => ["Enum"]
  | optional => ["Option"]
  | collection => ["Vec", "Array", "List", "Set", "HashSet", "TreeSet"]
  | map => ["HashMap", "TreeMap", "Map"]
  | bool => ["Bool"]
  | string => ["String"]
  | wrapped .decimal => ["Decimal"]
  | wrapped .preciseDecimal => ["PreciseDecimal"]
  | wrapped .reference =>
    ["ResourceAddress", "ComponentAddress", "PackageAddress", "SystemAddress", "Address"]
  | wrapped .own => ["Vault", "Bucket", "Proof", "KeyValueStore", "Component"]
  | wrapped .localId => ["NonFungibleId", "NonFungibleLocalId"]
  | wrapped _ | integer _ => []

/-- The form has documents of the type. That of an integer may be in any case of letters. -/
inductive LegacyForm.IsTyped : LegacyForm → String → Prop
  | listed {form : LegacyForm} {type : String} (h : type ∈ form.types) : IsTyped form type
  | integer {kind : TextKind} {type : String} (h : kind.suffix? = some (lowerAscii type)) :
    IsTyped (.integer kind) type

theorem integerOfName?_eq_some_iff {name : String} {kind : TextKind} :
    integerOfName? name = some kind ↔ kind.suffix? = some (lowerAscii name) := by
  unfold integerOfName?
  constructor
  · intro h
    split at h
    case h_11 => cases h
    all_goals
      rename_i hname
      cases h
      rw [hname]
      rfl
  · intro h
    cases kind <;> simp only [TextKind.suffix?, Option.some.injEq, reduceCtorEq] at h <;>
      rw [← h] <;> rfl

theorem LegacyForm.ofType?_of_mem {form : LegacyForm} {type : String} (h : type ∈ form.types) :
    LegacyForm.ofType? type = some form := by
  cases form with
  | wrapped kind =>
    cases kind <;>
      simp only [LegacyForm.types, List.mem_cons, List.not_mem_nil, or_false] at h <;>
      rcases h with rfl | rfl | rfl | rfl | rfl <;> rfl
  | _ =>
    simp only [LegacyForm.types, List.mem_cons, List.not_mem_nil, or_false] at h <;>
      rcases h with rfl | rfl | rfl | rfl | rfl | rfl <;> rfl

theorem LegacyForm.ofType?_eq_some_iff {type : String} {form : LegacyForm} :
    LegacyForm.ofType? type = some form ↔ form.IsTyped type := by
  constructor
  · intro h
    unfold LegacyForm.ofType? at h
    split at h
    case h_30 =>
      obtain ⟨kind, hkind, rfl⟩ := Option.map_eq_some_iff.1 h
      exact .integer (integerOfName?_eq_some_iff.1 hkind)
    all_goals
      cases h
      exact .listed (by simp [LegacyForm.types])
  · rintro (h | h)
    · exact LegacyForm.ofType?_of_mem h
    · -- None of the listed types is the name of an integer.
      have hkind := integerOfName?_eq_some_iff.2 h
      unfold LegacyForm.ofType?
      split
      case h_30 => rw [hkind, Option.map_some]
      all_goals cases hkind

/-! ## Documents -/

/-- The document is of a type of the form. -/
def HasForm (j : Json) (form : LegacyForm) : Prop :=
  ∃ type, j.member? "type" = some (.str type) ∧ form.IsTyped type

/-- The member is the list of the items. An absent member is the empty list. -/
def Lists (j : Json) (name : String) (items : List Json) : Prop :=
  j.member? name = some (.arr items) ∨ j.member? name = none ∧ items = []

theorem legacyString?_eq_some_iff {j : Json} {name s : String} :
    legacyString? j name = some s ↔ j.member? name = some (.str s) := by
  rw [legacyString?, Option.bind_eq_some_iff]
  constructor
  · rintro ⟨value, hvalue, hs⟩
    cases value <;> cases hs
    exact hvalue
  · intro h
    exact ⟨_, h, rfl⟩

/-- A document is read in its form. -/
theorem ofLegacy_of_hasForm {j : Json} {form : LegacyForm} (h : HasForm j form) :
    Node.ofLegacy j = (contentOfLegacy form j).map Node.plain := by
  obtain ⟨type, hmember, htype⟩ := h
  rw [Node.ofLegacy, legacyString?_eq_some_iff.2 hmember]
  simp only [bind, Except.bind, LegacyForm.ofType?_eq_some_iff.2 htype]
  cases contentOfLegacy form j <;> rfl

/-- A document without a form is not read. -/
theorem ofLegacy_of_not_hasForm {j : Json} (h : ∀ form, ¬HasForm j form) :
    ∃ fault, Node.ofLegacy j = .error fault ∧ fault.kind = "SchemaMismatch" := by
  rw [Node.ofLegacy]
  cases hstring : legacyString? j "type" with
  | none =>
    simp only [bind, Except.bind]
    exact ⟨_, rfl, rfl⟩
  | some type =>
    cases hform : LegacyForm.ofType? type with
    | none =>
      simp only [bind, Except.bind, hform]
      exact ⟨_, rfl, rfl⟩
    | some form =>
      exact absurd ⟨type, legacyString?_eq_some_iff.1 hstring,
        LegacyForm.ofType?_eq_some_iff.1 hform⟩ (h form)

theorem Lists.children_eq {j : Json} {name : String} {items : List Json} (h : Lists j name items) :
    legacyChildren j name = items := by
  rcases h with h | ⟨h, rfl⟩ <;> rw [legacyChildren, h] <;> rfl

/-- Keys and values in turn. -/
def flatten {α : Type} (entries : List (α × α)) : List α :=
  entries.flatMap fun entry => [entry.1, entry.2]

theorem pairs?_eq_some_iff {α : Type} {items : List α} {entries : List (α × α)} :
    pairs? items = some entries ↔ items = flatten entries := by
  induction items using pairs?.induct generalizing entries with
  | case1 => cases entries <;> simp [pairs?, flatten]
  | case2 item => cases entries <;> simp [pairs?, flatten]
  | case3 key value rest ih =>
    rw [pairs?, Option.map_eq_some_iff]
    constructor
    · rintro ⟨entries', hrest, rfl⟩
      rw [ih.1 hrest]
      rfl
    · intro h
      cases entries with
      | nil => cases h
      | cons entry entries =>
        obtain ⟨rfl, rfl, hrest⟩ : key = entry.1 ∧ value = entry.2 ∧ rest = flatten entries := by
          simpa [flatten] using h
        exact ⟨entries, ih.2 hrest, rfl⟩

theorem pairs?_eq_none_iff {α : Type} {items : List α} :
    pairs? items = none ↔ items.length % 2 = 1 := by
  induction items using pairs?.induct with
  | case1 => simp [pairs?]
  | case2 item => simp [pairs?]
  | case3 key value rest ih =>
    rw [pairs?, Option.map_eq_none_iff, ih, List.length_cons, List.length_cons]
    omega

/-! ## What is not read -/

theorem legacyIndex_mayMismatch (j : Json) : MayMismatch (legacyIndex j) := by
  simp only [legacyIndex]
  split
  · trivial
  · exact rfl

mutual

/-- **What is not read is a mismatch.** -/
theorem ofLegacy_mayMismatch (j : Json) : MayMismatch (Node.ofLegacy j) := by
  by_cases h : ∃ form, HasForm j form
  · obtain ⟨form, hform⟩ := h
    rw [ofLegacy_of_hasForm hform]
    exact (contentOfLegacy_mayMismatch form j).map fun _ _ => trivial
  · obtain ⟨fault, hfault, hkind⟩ := ofLegacy_of_not_hasForm (not_exists.1 h)
    rw [hfault]
    exact hkind
termination_by (sizeOf j, 2)

theorem contentOfLegacy_mayMismatch (form : LegacyForm) (j : Json) :
    MayMismatch (contentOfLegacy form j) := by
  have hfields := sizeOf_legacyChildren_le j "fields"
  have helements := sizeOf_legacyChildren_le j "elements"
  cases form with
  | tuple =>
    rw [contentOfLegacy]
    exact (nodesOfLegacy_mayMismatch (legacyChildren j "fields")).map fun _ _ => trivial
  | variant =>
    rw [contentOfLegacy]
    exact (legacyIndex_mayMismatch j).bind fun id _ =>
      (nodesOfLegacy_mayMismatch (legacyChildren j "fields")).bind fun fields _ => trivial
  | optional =>
    rw [contentOfLegacy]
    split
    · trivial
    · trivial
    · rename_i inner _ hinner
      have hlt := sizeOf_member?_lt hinner
      exact (ofLegacy_mayMismatch inner).map fun _ _ => trivial
  | collection =>
    rw [contentOfLegacy]
    exact (nodesOfLegacy_mayMismatch (legacyChildren j "elements")).map fun _ _ => trivial
  | map =>
    rw [contentOfLegacy]
    refine (nodesOfLegacy_mayMismatch (legacyChildren j "elements")).bind fun flat _ => ?_
    split
    · trivial
    · exact rfl
  | _ =>
    rw [contentOfLegacy]
    trivial
termination_by (sizeOf j, 1)
decreasing_by
  all_goals
    simp only [Prod.lex_def]
    omega

theorem nodesOfLegacy_mayMismatch (items : List Json) : MayMismatch (nodesOfLegacy items) := by
  cases items with
  | nil =>
    rw [nodesOfLegacy]
    trivial
  | cons item items =>
    rw [nodesOfLegacy]
    exact (ofLegacy_mayMismatch item).bind fun node _ =>
      (nodesOfLegacy_mayMismatch items).bind fun nodes _ => trivial
termination_by (sizeOf items, 0)

end

theorem length_of_nodesOfLegacy {items : List Json} {nodes : List Node}
    (h : nodesOfLegacy items = .ok nodes) : nodes.length = items.length := by
  induction items generalizing nodes with
  | nil =>
    rw [nodesOfLegacy] at h
    cases h
    rfl
  | cons item items ih =>
    rw [nodesOfLegacy] at h
    obtain ⟨node, -, h⟩ := exists_of_bind_ok h
    obtain ⟨nodes', hnodes, h⟩ := exists_of_bind_ok h
    cases h
    rw [List.length_cons, List.length_cons, ih hnodes]

/-- **A map with a key that has no value is not read.** -/
theorem ofLegacy_of_odd {j : Json} {items : List Json} (hform : HasForm j .map)
    (hitems : Lists j "elements" items) (hodd : items.length % 2 = 1) :
    ∃ fault, Node.ofLegacy j = .error fault ∧ fault.kind = "SchemaMismatch" := by
  cases h : Node.ofLegacy j with
  | error fault => exact ⟨fault, rfl, (ofLegacy_mayMismatch j).error h⟩
  | ok node =>
    rw [ofLegacy_of_hasForm hform, contentOfLegacy, hitems.children_eq] at h
    obtain ⟨content, h, -⟩ := exists_of_map_ok h
    obtain ⟨nodes, hnodes, h⟩ := exists_of_bind_ok h
    have hnone : pairs? nodes = none :=
      pairs?_eq_none_iff.2 (by rw [length_of_nodesOfLegacy hnodes, hodd])
    simp only [hnone, reduceCtorEq] at h

/-! ## Spellings -/

mutual

/-- The document spells the value, where `T` says which documents spell a text. -/
inductive Spells (T : Json → TextKind → String → Prop) : Json → Node → Prop
  | tuple {j : Json} {items : List Json} {fields : List Node} (hform : HasForm j .tuple)
    (hitems : Lists j "fields" items) (hfields : SpellsAll T items fields) :
    Spells T j (.plain (.tuple fields))
  | variant {j : Json} {id : Fin 256} {items : List Json} {fields : List Node}
    (hform : HasForm j .variant) (hindex : j.member? "index" = some (.nat id))
    (hitems : Lists j "fields" items) (hfields : SpellsAll T items fields) :
    Spells T j (.plain (.variant id (legacyString? j "name") fields))
  | absent {j : Json} (hform : HasForm j .optional)
    (hvalue : j.member? "value" = none ∨ j.member? "value" = some .null) :
    Spells T j (.plain .absent)
  | present {j value : Json} {inner : Node} (hform : HasForm j .optional)
    (hvalue : j.member? "value" = some value) (hinner : Spells T value inner) :
    Spells T j (.plain (.present inner))
  | array {j : Json} {items : List Json} {elements : List Node} (hform : HasForm j .collection)
    (hitems : Lists j "elements" items) (helements : SpellsAll T items elements) :
    Spells T j (.plain (.array (legacyString? j "element_type") elements))
  | map {j : Json} {items : List Json} {entries : List (Node × Node)} (hform : HasForm j .map)
    (hitems : Lists j "elements" items) (hentries : SpellsAll T items (flatten entries)) :
    Spells T j (.plain (.map none none entries))
  | bool {j : Json} {b : Bool} (hform : HasForm j .bool)
    (hvalue : j.member? "value" = some (.bool b) ∨
      j.member? "value" = some (.str (if b then "true" else "false"))) :
    Spells T j (.plain (.bool b))
  | text {j : Json} {kind : TextKind} {s : String} (h : T j kind s) :
    Spells T j (.plain (.text kind s))

/-- The documents spell the values, each its own. -/
inductive SpellsAll (T : Json → TextKind → String → Prop) : List Json → List Node → Prop
  | nil : SpellsAll T [] []
  | cons {item : Json} {items : List Json} {node : Node} {nodes : List Node}
    (hitem : Spells T item node) (hitems : SpellsAll T items nodes) :
    SpellsAll T (item :: items) (node :: nodes)

end

section Reading

variable {T : Json → TextKind → String → Prop}

theorem legacyIndex_eq {j : Json} {n : Nat} (h : j.member? "index" = some (.nat n))
    (hn : n < twoTo 64) :
    legacyIndex j = if h : n < 256 then .ok ⟨n, h⟩
      else .error (.schemaMismatch "index" "u8 enum discriminator" (numeral n)) := by
  have hread : ((j.member? "index").bind (Json.nat? (twoTo 64))).getD 0 = n := by
    rw [h, Option.bind_some, Json.nat?_nat hn, Option.getD_some]
  simp only [legacyIndex, hread]

theorem legacyIndex_nat {j : Json} {id : Fin 256} (h : j.member? "index" = some (.nat id)) :
    legacyIndex j = .ok id := by
  rw [legacyIndex_eq h (Nat.lt_trans id.isLt (by decide)), dif_pos id.isLt]

theorem contentOfLegacy_absent {j : Json}
    (h : j.member? "value" = none ∨ j.member? "value" = some .null) :
    contentOfLegacy .optional j = .ok .absent := by
  rw [contentOfLegacy]
  split
  · rfl
  · rfl
  · rename_i hnull hvalue
    rcases h with h | h <;> rw [h] at hvalue <;> cases hvalue
    exact absurd rfl hnull

theorem contentOfLegacy_present {j value : Json} (h : j.member? "value" = some value)
    (hnull : value ≠ .null) :
    contentOfLegacy .optional j = (Node.ofLegacy value).map .present := by
  rw [contentOfLegacy]
  split
  · rename_i hvalue
    rw [h] at hvalue
    cases hvalue
  · rename_i hvalue
    rw [h] at hvalue
    exact absurd (Option.some.inj hvalue) hnull
  · rename_i hvalue
    rw [h] at hvalue
    rw [Option.some.inj hvalue]

theorem legacyText_bool {j : Option Json} {b : Bool}
    (h : j = some (.bool b) ∨ j = some (.str (if b then "true" else "false"))) :
    (legacyText j == "true") = b := by
  rcases h with rfl | rfl <;> cases b <;> decide

/-- A document that is read has a form. -/
theorem hasForm_of_ok {j : Json} {node : Node} (h : Node.ofLegacy j = .ok node) :
    ∃ form, HasForm j form := by
  by_contra hform
  obtain ⟨fault, hfault, -⟩ := ofLegacy_of_not_hasForm (not_exists.1 hform)
  rw [hfault] at h
  cases h

theorem ne_null_of_ok {j : Json} {node : Node} (h : Node.ofLegacy j = .ok node) : j ≠ .null := by
  rintro rfl
  obtain ⟨form, type, hmember, htype⟩ := hasForm_of_ok h
  cases hmember

mutual

/-- **What is spelled is read**, where texts are. -/
theorem ofLegacy_of_spells
    (hT : ∀ j kind s, T j kind s → Node.ofLegacy j = .ok (.plain (.text kind s))) :
    ∀ {j : Json} {node : Node}, Spells T j node → Node.ofLegacy j = .ok node
  | j, _, .tuple hform hitems hfields => by
    rw [ofLegacy_of_hasForm hform, contentOfLegacy, hitems.children_eq,
      nodesOfLegacy_of_spellsAll hT hfields]
    rfl
  | j, _, .variant hform hindex hitems hfields => by
    rw [ofLegacy_of_hasForm hform, contentOfLegacy, hitems.children_eq, legacyIndex_nat hindex,
      nodesOfLegacy_of_spellsAll hT hfields]
    rfl
  | j, _, .absent hform hvalue => by
    rw [ofLegacy_of_hasForm hform, contentOfLegacy_absent hvalue]
    rfl
  | j, _, .present hform hvalue hinner => by
    have hread := ofLegacy_of_spells hT hinner
    rw [ofLegacy_of_hasForm hform, contentOfLegacy_present hvalue (ne_null_of_ok hread), hread]
    rfl
  | j, _, .array hform hitems helements => by
    rw [ofLegacy_of_hasForm hform, contentOfLegacy, hitems.children_eq,
      nodesOfLegacy_of_spellsAll hT helements]
    rfl
  | j, _, .map hform hitems hentries => by
    rw [ofLegacy_of_hasForm hform, contentOfLegacy, hitems.children_eq,
      nodesOfLegacy_of_spellsAll hT hentries]
    simp only [bind, Except.bind, pairs?_eq_some_iff.2 rfl]
    rfl
  | j, _, .bool hform hvalue => by
    rw [ofLegacy_of_hasForm hform, contentOfLegacy, legacyText_bool hvalue]
    rfl
  | j, _, .text h => hT _ _ _ h

theorem nodesOfLegacy_of_spellsAll
    (hT : ∀ j kind s, T j kind s → Node.ofLegacy j = .ok (.plain (.text kind s))) :
    ∀ {items : List Json} {nodes : List Node}, SpellsAll T items nodes →
      nodesOfLegacy items = .ok nodes
  | _, _, .nil => by
    rw [nodesOfLegacy]
  | _, _, .cons hitem hitems => by
    rw [nodesOfLegacy, ofLegacy_of_spells hT hitem, nodesOfLegacy_of_spellsAll hT hitems]
    rfl

end

end Reading

/-! ## Texts -/

/-- Digits of any script, one or more, with a minus sign or without. -/
def IsInteger (s : String) : Prop :=
  ∃ digits, (s.toList = digits ∨ s.toList = '-' :: digits) ∧ digits ≠ [] ∧
    ∀ c ∈ digits, isDecimalDigit c

/-- The text in its wrapping, such as `Decimal("5")`. -/
def wrap (name s : String) : String :=
  name ++ "(\"" ++ s ++ "\")"

/-- The name of a wrapping: letters of ASCII, one or more. -/
def IsWrapping (name : String) : Prop :=
  name.toList ≠ [] ∧ ∀ c ∈ name.toList, c.isAlpha

/-- The document spells the text. -/
inductive SpellsText : Json → TextKind → String → Prop
  | string {j : Json} {s : String} (hform : HasForm j .string)
    (hvalue : j.member? "value" = some (.str s)) : SpellsText j .string s
  | wrapped {j : Json} {kind : TextKind} {name s : String} (hform : HasForm j (.wrapped kind))
    (hname : IsWrapping name) (hline : '\n' ∉ s.toList)
    (hvalue : j.member? "value" = some (.str (wrap name s))) : SpellsText j kind s
  | suffixed {j : Json} {kind : TextKind} {s suffix : String} (hform : HasForm j (.integer kind))
    (hinteger : IsInteger s) (hsuffix : kind.suffix? = some suffix)
    (hvalue : j.member? "value" = some (.str (s ++ suffix))) : SpellsText j kind s
  | bare {j : Json} {kind : TextKind} {s : String} (hform : HasForm j (.integer kind))
    (hinteger : IsInteger s) (hvalue : j.member? "value" = some (.str s)) : SpellsText j kind s
  | number {j : Json} {kind : TextKind} {i : Int} (hform : HasForm j (.integer kind))
    (hvalue : j.member? "value" = some (.int i)) : SpellsText j kind (integerNumeral i)

theorem beforeEnd?_append {ending content : List Char} (h : '\n' ∉ content) :
    beforeEnd? ending (content ++ ending) = some content := by
  simp [beforeEnd?, h]

/-- **A wrapping is taken off**, whatever quotes and brackets the text has of its own. -/
theorem unwrap_wrap {name s : String} (hname : IsWrapping name) (hline : '\n' ∉ s.toList) :
    unwrap (wrap name s) = s := by
  have hchars : (wrap name s).toList = name.toList ++ (['(', '"'] ++ (s.toList ++ ['"', ')'])) := by
    simp [wrap]
  have htake : (wrap name s).toList.takeWhile Char.isAlpha = name.toList := by
    rw [hchars]
    exact takeWhile_append_of_head hname.2 (by simp)
  have hdrop : stripStart? ['(', '"'] ((wrap name s).toList.drop name.toList.length) =
      some (s.toList ++ ['"', ')']) := by
    rw [hchars, List.drop_left]
    exact stripStart?_eq_some_iff.2 rfl
  obtain ⟨c, cs, hcs⟩ := List.exists_cons_of_ne_nil hname.1
  simp only [unwrap, htake, hdrop, bind, Option.bind, beforeEnd?_append hline]
  rw [hcs]
  exact String.ofList_toList

theorem isIntegerSuffix_of_suffix? {kind : TextKind} {suffix : String}
    (h : kind.suffix? = some suffix) :
    isIntegerSuffix suffix.toList ∧ ∀ c ∈ suffix.toList.head?, ¬isDecimalDigit c := by
  cases kind <;> cases h <;> exact ⟨by decide, by rintro c ⟨⟩; decide⟩

/-- What stands in front of the end of an integer. -/
theorem unsuffix_append {s : String} (h : IsInteger s) {suffix : String}
    (hsuffix : ∀ c ∈ suffix.toList.head?, ¬isDecimalDigit c) :
    unsuffix (s ++ suffix) = if isIntegerSuffix suffix.toList then s else s ++ suffix := by
  obtain ⟨digits, hs, hne, hdigit⟩ := h
  obtain ⟨sign, hs, hsign, hlength⟩ : ∃ sign, s.toList = sign ++ digits ∧
      (∀ c ∈ sign, c = '-') ∧ sign.length ≤ 1 := by
    rcases hs with hs | hs
    · exact ⟨[], hs, by simp⟩
    · exact ⟨['-'], hs, by simp⟩
  have hhead : ∀ c ∈ (digits ++ suffix.toList).head?, ¬(c == '-') := by
    obtain ⟨d, ds, rfl⟩ := List.exists_cons_of_ne_nil hne
    rintro c hc hminus
    obtain rfl : d = c := Option.some.inj hc
    rw [beq_iff_eq.1 hminus] at hdigit
    exact absurd (hdigit '-' List.mem_cons_self) (by decide)
  have hchars : (s ++ suffix).toList = sign ++ (digits ++ suffix.toList) := by
    rw [String.toList_append, hs, List.append_assoc]
  have htake : (s ++ suffix).toList.takeWhile (· == '-') = sign := by
    rw [hchars]
    exact takeWhile_append_of_head (by simpa using hsign) hhead
  have hdigits : ((s ++ suffix).toList.drop sign.length).takeWhile isDecimalDigit = digits := by
    rw [hchars, List.drop_left]
    exact takeWhile_append_of_head hdigit hsuffix
  have hrest : (s ++ suffix).toList.drop (sign.length + digits.length) = suffix.toList := by
    rw [hchars, ← List.append_assoc, ← List.length_append, List.drop_left]
  simp only [unsuffix, htake, hdigits, hrest, hlength, hne, true_and, ne_eq, not_false_eq_true]
  rw [← hs, String.ofList_toList]

theorem unsuffix_suffixed {s suffix : String} {kind : TextKind} (h : IsInteger s)
    (hsuffix : kind.suffix? = some suffix) : unsuffix (s ++ suffix) = s := by
  obtain ⟨hread, hhead⟩ := isIntegerSuffix_of_suffix? hsuffix
  rw [unsuffix_append h hhead, if_pos hread]

theorem unsuffix_bare {s : String} (h : IsInteger s) : unsuffix s = s := by
  have hbare : unsuffix (s ++ "") = s ++ "" := unsuffix_append h (by simp)
  rwa [String.append_empty] at hbare

theorem isInteger_integerNumeral (i : Int) : IsInteger (integerNumeral i) := by
  refine ⟨digits i.natAbs, ?_, digits_ne_nil _, fun c hc =>
    isDecimalDigit_of_isDigit (isDigit_of_mem_digits _ c hc)⟩
  rw [integerNumeral]
  split
  · exact .inr (by simp [numeral])
  · exact .inl (by simp [numeral])

theorem legacyText_int (i : Int) : legacyText (some (.int i)) = integerNumeral i :=
  String.ofList_toList

theorem ofLegacy_of_spellsText (j : Json) (kind : TextKind) (s : String) (h : SpellsText j kind s) :
    Node.ofLegacy j = .ok (.plain (.text kind s)) := by
  cases h with
  | string hform hvalue =>
    rw [ofLegacy_of_hasForm hform, contentOfLegacy, hvalue]
    rfl
  | wrapped hform hname hline hvalue =>
    rw [ofLegacy_of_hasForm hform, contentOfLegacy, hvalue, legacyText, unwrap_wrap hname hline]
    rfl
  | suffixed hform hinteger hsuffix hvalue =>
    rw [ofLegacy_of_hasForm hform, contentOfLegacy, hvalue, legacyText,
      unsuffix_suffixed hinteger hsuffix]
    rfl
  | bare hform hinteger hvalue =>
    rw [ofLegacy_of_hasForm hform, contentOfLegacy, hvalue, legacyText, unsuffix_bare hinteger]
    rfl
  | number hform hvalue =>
    rw [ofLegacy_of_hasForm hform, contentOfLegacy, hvalue, legacyText_int,
      unsuffix_bare (isInteger_integerNumeral _)]
    rfl

/-! ## Writing -/

namespace TextKind

/-- A type for the texts of a kind. -/
def legacyType : TextKind → String
  | reference => "ResourceAddress"
  | own => "Vault"
  | localId => "NonFungibleId"
  | kind => kind.suffix?.getD kind.name

/-- A text as a document has it: in its wrapping, or, where it is an integer, with its suffix
    or without. -/
def toLegacy (suffixed : Bool) (kind : TextKind) (s : String) : String :=
  match kind with
  | string => s
  | decimal | preciseDecimal | reference | own | localId => wrap kind.legacyType s
  | _ => if suffixed then s ++ kind.legacyType else s

/-- The texts of a kind that a document can have. -/
def HasLegacy : TextKind → String → Prop
  | string, _ => True
  | decimal, s | preciseDecimal, s | reference, s | own, s | localId, s => '\n' ∉ s.toList
  | _, s => IsInteger s

theorem isWrapping_legacyType {kind : TextKind} (h : kind.suffix? = none) :
    IsWrapping kind.legacyType := by
  cases kind <;> first | exact ⟨by decide, List.all_eq_true.1 (by decide)⟩ | cases h

theorem spellsText_toLegacy {kind : TextKind} {s : String} (h : kind.HasLegacy s)
    (suffixed : Bool) {j : Json} (htype : j.member? "type" = some (.str kind.legacyType))
    (hvalue : j.member? "value" = some (.str (kind.toLegacy suffixed s))) :
    SpellsText j kind s := by
  have hinteger (hs : IsInteger s) (hform : HasForm j (.integer kind))
      (hsuffix : kind.suffix? = some kind.legacyType)
      (hspelling : kind.toLegacy suffixed s = if suffixed then s ++ kind.legacyType else s) :
      SpellsText j kind s := by
    rw [hspelling] at hvalue
    cases suffixed with
    | true => exact .suffixed hform hs hsuffix hvalue
    | false => exact .bare hform hs hvalue
  have hlisted {form : LegacyForm} (hmem : kind.legacyType ∈ form.types) : HasForm j form :=
    ⟨_, htype, .listed hmem⟩
  cases kind with
  | string => exact .string (hlisted (by decide)) hvalue
  | decimal => exact .wrapped (hlisted (by decide)) (isWrapping_legacyType rfl) h hvalue
  | preciseDecimal => exact .wrapped (hlisted (by decide)) (isWrapping_legacyType rfl) h hvalue
  | reference => exact .wrapped (hlisted (by decide)) (isWrapping_legacyType rfl) h hvalue
  | own => exact .wrapped (hlisted (by decide)) (isWrapping_legacyType rfl) h hvalue
  | localId => exact .wrapped (hlisted (by decide)) (isWrapping_legacyType rfl) h hvalue
  | _ => exact hinteger h ⟨_, htype, .integer (by decide)⟩ rfl rfl

end TextKind

mutual

/-- A document that spells a value. -/
def Node.toLegacy (suffixed : Bool) : Node → Json
  | .mk _ _ content => .obj (content.toLegacy suffixed)

/-- The members of a document that spells a value. -/
def Content.toLegacy (suffixed : Bool) : Content → List (String × Json)
  | .bool b => [("type", .str "Bool"), ("value", .bool b)]
  | .text kind s => [("type", .str kind.legacyType), ("value", .str (kind.toLegacy suffixed s))]
  | .bytes _ _ => []
  | .variant id name fields =>
    [("type", .str "Enum"), ("index", .nat id),
     ("fields", .arr (nodesToLegacy suffixed fields))] ++ nameMember "name" name
  | .array elementKind elements =>
    [("type", .str "Vec"), ("elements", .arr (nodesToLegacy suffixed elements))] ++
      nameMember "element_type" elementKind
  | .map _ _ entries =>
    [("type", .str "HashMap"), ("elements", .arr (entriesToLegacy suffixed entries))]
  | .tuple fields =>
    [("type", .str "Struct"), ("fields", .arr (nodesToLegacy suffixed fields))]

/-- Documents that spell the values of a list. -/
def nodesToLegacy (suffixed : Bool) : List Node → List Json
  | [] => []
  | node :: nodes => node.toLegacy suffixed :: nodesToLegacy suffixed nodes

/-- Documents that spell the keys and values of a map in turn. -/
def entriesToLegacy (suffixed : Bool) : List (Node × Node) → List Json
  | [] => []
  | (key, value) :: entries =>
    key.toLegacy suffixed :: value.toLegacy suffixed :: entriesToLegacy suffixed entries

end

/-- The values that documents can spell: those without names and bytes whose maps do not say
    the kinds of their entries. -/
inductive Node.HasLegacy : Node → Prop
  | bool (b : Bool) : HasLegacy (.plain (.bool b))
  | text {kind : TextKind} {s : String} (h : kind.HasLegacy s) : HasLegacy (.plain (.text kind s))
  | variant {id : Fin 256} {name : Option String} {fields : List Node}
    (h : ∀ field ∈ fields, HasLegacy field) : HasLegacy (.plain (.variant id name fields))
  | array {elementKind : Option String} {elements : List Node}
    (h : ∀ element ∈ elements, HasLegacy element) :
    HasLegacy (.plain (.array elementKind elements))
  | map {entries : List (Node × Node)} (hkeys : ∀ entry ∈ entries, HasLegacy entry.1)
    (hvalues : ∀ entry ∈ entries, HasLegacy entry.2) : HasLegacy (.plain (.map none none entries))
  | tuple {fields : List Node} (h : ∀ field ∈ fields, HasLegacy field) :
    HasLegacy (.plain (.tuple fields))

theorem spellsAll_nodesToLegacy {suffixed : Bool} {nodes : List Node}
    (h : ∀ node ∈ nodes, Spells SpellsText (node.toLegacy suffixed) node) :
    SpellsAll SpellsText (nodesToLegacy suffixed nodes) nodes := by
  induction nodes with
  | nil => exact .nil
  | cons node nodes ih =>
    obtain ⟨hnode, hnodes⟩ := List.forall_mem_cons.1 h
    exact .cons hnode (ih hnodes)

theorem spellsAll_entriesToLegacy {suffixed : Bool} {entries : List (Node × Node)}
    (hkeys : ∀ entry ∈ entries, Spells SpellsText (entry.1.toLegacy suffixed) entry.1)
    (hvalues : ∀ entry ∈ entries, Spells SpellsText (entry.2.toLegacy suffixed) entry.2) :
    SpellsAll SpellsText (entriesToLegacy suffixed entries) (flatten entries) := by
  induction entries with
  | nil => exact .nil
  | cons entry entries ih =>
    obtain ⟨hkey, hkeys⟩ := List.forall_mem_cons.1 hkeys
    obtain ⟨hvalue, hvalues⟩ := List.forall_mem_cons.1 hvalues
    exact .cons hkey (.cons hvalue (ih hkeys hvalues))

/-- **Every value of such a form is spelled by the document that is written of it.** -/
theorem spells_toLegacy (suffixed : Bool) {node : Node} (h : node.HasLegacy) :
    Spells SpellsText (node.toLegacy suffixed) node := by
  induction h with
  | bool b => exact .bool ⟨_, rfl, .listed (by decide)⟩ (.inl rfl)
  | text h => exact .text (TextKind.spellsText_toLegacy h suffixed rfl rfl)
  | @variant id name fields h ih =>
    have hfields := spellsAll_nodesToLegacy ih
    cases name <;> exact .variant ⟨"Enum", rfl, .listed (by decide)⟩ rfl (.inl rfl) hfields
  | @array elementKind elements h ih =>
    have helements := spellsAll_nodesToLegacy ih
    cases elementKind <;> exact .array ⟨"Vec", rfl, .listed (by decide)⟩ (.inl rfl) helements
  | map hkeys hvalues ihkeys ihvalues =>
    exact .map ⟨_, rfl, .listed (by decide)⟩ (.inl rfl) (spellsAll_entriesToLegacy ihkeys ihvalues)
  | tuple h ih =>
    exact .tuple ⟨_, rfl, .listed (by decide)⟩ (.inl rfl) (spellsAll_nodesToLegacy ih)

/-- **Values are read from the documents that spell them**: from what is written of them, and
    from every other spelling. A map with a key that has no value is a mismatch. -/
theorem legacy_round_trip :
    (∀ node : Node, node.HasLegacy →
      ∀ suffixed, Node.ofLegacy (node.toLegacy suffixed) = .ok node) ∧
    (∀ (document : Json) (node : Node), Spells SpellsText document node →
      Node.ofLegacy document = .ok node) ∧
    ∀ (document : Json) (items : List Json), HasForm document .map →
      document.member? "elements" = some (.arr items) → items.length % 2 = 1 →
      ∃ fault, Node.ofLegacy document = .error fault ∧ fault.kind = "SchemaMismatch" := by
  have hread : ∀ (document : Json) (node : Node), Spells SpellsText document node →
      Node.ofLegacy document = .ok node :=
    fun document node h => ofLegacy_of_spells ofLegacy_of_spellsText h
  exact ⟨fun node h suffixed => hread _ node (spells_toLegacy suffixed h), hread,
    fun document items hform hitems => ofLegacy_of_odd hform (.inl hitems)⟩

/-- Also where a text looks like the end of its wrapping, and where a truth value is a text and
    a list is missing. -/
theorem legacy_round_trip_nested :
    let node : Node := .plain (.tuple
      [.plain (.text .decimal "1\")Decimal(\"2"),
       .plain (.variant 3 (some "Open") [.plain (.text .i64 "-7")]),
       .plain (.map none none
         [(.plain (.text .localId "#1#"), .plain (.array (some "Bool") [.plain (.bool true)]))])])
    let document : Json := .obj
      [("fields", .arr
        [.obj [("type", .str "Bool"), ("value", .str "false")],
         .obj [("type", .str "Set")]]),
       ("type", .str "Tuple")]
    let unpaired : Json := .obj
      [("type", .str "Map"), ("elements", .arr [.obj [("type", .str "U8"), ("value", .int 7)]])]
    Node.ofLegacy (node.toLegacy true) = .ok node ∧
      Node.ofLegacy document =
        .ok (.plain (.tuple [.plain (.bool false), .plain (.array none [])])) ∧
      ∃ fault, Node.ofLegacy unpaired = .error fault ∧ fault.kind = "SchemaMismatch" := by
  intro node document unpaired
  obtain ⟨hwritten, hspelled, hunpaired⟩ := legacy_round_trip
  have hinteger : TextKind.i64.HasLegacy "-7" :=
    ⟨['7'], .inr rfl, by decide, List.all_eq_true.1 (by decide)⟩
  have hdecimal : TextKind.decimal.HasLegacy "1\")Decimal(\"2" := by
    unfold TextKind.HasLegacy
    decide
  have hid : TextKind.localId.HasLegacy "#1#" := by
    unfold TextKind.HasLegacy
    decide
  have hopen : Node.HasLegacy (.plain (.variant 3 (some "Open") [.plain (.text .i64 "-7")])) :=
    .variant (by simpa using .text hinteger)
  have hbools : Node.HasLegacy (.plain (.array (some "Bool") [.plain (.bool true)])) :=
    .array (by simpa using .bool true)
  have hnode : node.HasLegacy :=
    .tuple (by simpa using ⟨.text hdecimal, hopen, .map (by simpa using .text hid)
      (by simpa using hbools)⟩)
  have hfalse : Spells SpellsText (.obj [("type", .str "Bool"), ("value", .str "false")])
      (.plain (.bool false)) :=
    .bool ⟨"Bool", rfl, .listed (by decide)⟩ (.inr rfl)
  have hempty : Spells SpellsText (.obj [("type", .str "Set")]) (.plain (.array none [])) :=
    .array ⟨"Set", rfl, .listed (by decide)⟩ (.inr ⟨rfl, rfl⟩) .nil
  exact ⟨hwritten node hnode true,
    hspelled document _ (.tuple ⟨"Tuple", rfl, .listed (by decide)⟩ (.inl rfl)
      (.cons hfalse (.cons hempty .nil))),
    hunpaired unpaired _ ⟨"Map", rfl, .listed (by decide)⟩ rfl rfl⟩

end LedgerClient.State
