/-
  Members of records in JSON: what was written under a name is read back from there.

  * `lookup?_append`: of two lists of members the second one counts where both have a name;
  * `required?_of_lookup?`, `optional?_ofOption` and `listOf?_strings`: a member, an optional one
    and a list of strings are read back;
  * `nat?_nat` and `lt_of_nat?`: the numbers that are read are those below the limit.
-/
import LedgerClient.Json.Record

namespace LedgerClient.Json

variable {α : Type} {ms : List (String × Json)} {name : String}

theorem lookup?_append (name : String) (ms ms' : List (String × Json)) :
    lookup? name (ms ++ ms') = (lookup? name ms').or (lookup? name ms) := by
  induction ms with
  | nil => simp [lookup?]
  | cons m ms ih =>
    rw [List.cons_append, lookup?, lookup?, ih]
    cases lookup? name ms' <;> rfl

/-- A null is read as a member that is missing. -/
theorem optional?_eq (ms : List (String × Json)) (name : String) (read : Json → Option α) :
    optional? ms name read =
      ((lookup? name ms).filter fun j => !j.isNull).elim (some none)
        fun j => (read j).map some := by
  unfold optional?
  cases lookup? name ms with
  | none => rfl
  | some j => cases j <;> rfl

theorem defaulted?_eq (ms : List (String × Json)) (name : String) (read : Json → Option α)
    (missing : α) :
    defaulted? ms name read missing = (lookup? name ms).elim (some missing) read := by
  unfold defaulted?
  cases lookup? name ms <;> rfl

theorem required?_of_lookup? {j : Json} (h : lookup? name ms = some j) (read : Json → Option α) :
    required? ms name read = read j := by
  rw [required?, h, Option.bind_some]

theorem optional?_of_lookup? {s : Option String}
    (h : lookup? name ms = s.map .str ∨ lookup? name ms = some (.ofOption s)) :
    optional? ms name str? = some s := by
  cases s <;> obtain h | h := h <;> rw [optional?, h] <;> rfl

/-- What was written as a string or null is read back where its text is. -/
theorem optional?_ofOption {write : α → String} {read : String → Option α} {a : Option α}
    (h : lookup? name ms = some (.ofOption (a.map write)))
    (hread : ∀ x, a = some x → read (write x) = some x) :
    optional? ms name (fun j => j.str?.bind read) = some a := by
  cases a with
  | none => rw [optional?, h]; rfl
  | some x =>
    rw [optional?, h]
    show (read (write x)).map some = _
    rw [hread x rfl]
    rfl

theorem exists_of_optional? {read : Json → Option α} {a : α}
    (h : optional? ms name read = some (some a)) :
    ∃ j, lookup? name ms = some j ∧ read j = some a := by
  unfold optional? at h
  split at h
  · cases h
  · cases h
  · rename_i j _ hlookup
    obtain ⟨_, hread, he⟩ := Option.map_eq_some_iff.1 h
    obtain rfl := Option.some.inj he
    exact ⟨j, hlookup, hread⟩

theorem str?_eq_some_iff {j : Json} {s : String} : j.str? = some s ↔ j = .str s := by
  cases j <;> simp [str?]

theorem defaulted?_of_lookup? {j : Json} (h : lookup? name ms = some j) (read : Json → Option α)
    (missing : α) : defaulted? ms name read missing = read j := by
  rw [defaulted?_eq, h, Option.elim_some]

theorem listOf?_strings (ss : List String) : listOf? str? (strings ss) = some ss := by
  show (ss.map str).mapM str? = some ss
  induction ss with
  | nil => rfl
  | cons s ss ih =>
    rw [List.map_cons, List.mapM_cons, ih]
    rfl

theorem nat?_nat {limit n : Nat} (h : n < limit) : nat? limit (.nat n) = some n := by
  have hrange : 0 ≤ (n : Int) ∧ (n : Int) < limit := ⟨Int.natCast_nonneg n, Int.ofNat_lt.2 h⟩
  rw [nat, nat?, if_pos hrange, Int.toNat_natCast]

theorem lt_of_nat? {limit n : Nat} {j : Json} (h : nat? limit j = some n) : n < limit := by
  unfold nat? at h
  split at h
  · split at h
    · obtain rfl := Option.some.inj h
      omega
    · cases h
  · cases h

end LedgerClient.Json
