import PredicatedMesh.Library.Json
import PredicatedMesh.Library.Scan

/-!
# Reading a document field by field

A reader asks an object for a field and the field for a value of some type. The field may be missing
and the value may be of another type, and each failure says so in its own words. A number asked for
as an unsigned integer keeps its low bits only, so reading never fails because of size; what a
writer puts into a document comes back as long as it fits.

The converse is as useful: whatever a reader returns fits its type, whoever wrote the document.
-/

namespace PredicatedMesh

namespace Json

/-! ## Values of a type -/

def typeName : Json → String
  | .null => "null"
  | .bool _ => "boolean"
  | .num _ => "number"
  | .str _ => "string"
  | .arr _ => "array"
  | .obj _ => "object"

/-- The complaint about a value of another type. -/
def typeError (expected : String) (value : Json) : String :=
  "[json.exception.type_error.302] type must be " ++ expected ++ ", but is " ++ value.typeName

def getString : Json → Except String String
  | .str value => .ok value
  | value => .error (typeError "string" value)

def getBool : Json → Except String Bool
  | .bool value => .ok value
  | value => .error (typeError "boolean" value)

/-- The low bits of a number; the types narrower than the widest also take a truth value. -/
def getUnsigned (width : ℕ) : Json → Except String ℕ
  | .num value => .ok (value % 2 ^ width).toNat
  | .bool value => if width < 64 then .ok value.toNat else .error (typeError "number" (.bool value))
  | value => .error (typeError "number" value)

def getJson (value : Json) : Except String Json := .ok value

@[simp] theorem getString_str (value : String) : (Json.str value).getString = .ok value := rfl

@[simp] theorem getBool_bool (value : Bool) : (Json.bool value).getBool = .ok value := rfl

@[simp] theorem getJson_eq (value : Json) : value.getJson = .ok value := rfl

/-- **A number that fits is read back.** -/
theorem getUnsigned_nat {width n : ℕ} (h : n < 2 ^ width) :
    (Json.nat n).getUnsigned width = .ok n := by
  have hcast : ((n : ℤ) % 2 ^ width).toNat = n := by
    have hmod : (n : ℤ) % 2 ^ width = (n % 2 ^ width : ℕ) := by push_cast; rfl
    rw [hmod, Int.toNat_natCast, Nat.mod_eq_of_lt h]
  exact congrArg Except.ok hcast

/-- What is read fits. -/
theorem lt_of_getUnsigned {width n : ℕ} {value : Json} (hwidth : 0 < width)
    (h : value.getUnsigned width = .ok n) : n < 2 ^ width := by
  have hpow : (0 : ℤ) < 2 ^ width := by positivity
  rcases value with _ | truth | number | _ | _ | _
  · cases h
  · rw [getUnsigned] at h
    split_ifs at h
    obtain rfl := Except.ok.inj h
    exact lt_of_le_of_lt (Bool.toNat_le truth) (Nat.one_lt_two_pow hwidth.ne')
  · obtain rfl := Except.ok.inj h
    rw [Int.toNat_lt (Int.emod_nonneg _ hpow.ne')]
    exact_mod_cast Int.emod_lt_of_pos number hpow
  · cases h
  · cases h
  · cases h

/-! ## Fields -/

def contains (object : Json) (key : String) : Bool := (object.field? key).isSome

/-- The value of a field that has to be there. -/
def atKey (object : Json) (key : String) : Except String Json :=
  match object with
  | .obj fields =>
    match fields.lookup key with
    | some value => .ok value
    | none => .error ("[json.exception.out_of_range.403] key '" ++ key ++ "' not found")
  | value => .error ("[json.exception.type_error.304] cannot use at() with " ++ value.typeName)

/-- A field that has to be there, as a value of some type; the complaints about its absence and
about its type begin in the document's own words. -/
def required (absent invalid : String) {α : Type} (get : Json → Except String α) (object : Json)
    (key : String) : Except String α :=
  match object.field? key with
  | none => .error (absent ++ key)
  | some value =>
    match get value with
    | .error what => .error (invalid ++ key ++ " has invalid type: " ++ what)
    | .ok a => .ok a

/-- A field that may be missing, as a text. -/
def stringOr (object : Json) (key default : String) : Except String String :=
  match object.field? key with
  | none => .ok default
  | some value => value.getString

/-- A field that may be missing, as a value of some type. -/
def optional {α : Type} (get : Json → Except String α) (object : Json) (key : String) :
    Except String (Option α) :=
  match object.field? key with
  | none => .ok none
  | some value =>
    match get value with
    | .error what => .error what
    | .ok a => .ok (some a)

/-- A field that may also be there as `null`. -/
def nullable {α : Type} (get : Json → Except String α) (object : Json) (key : String) :
    Except String (Option α) :=
  match object.field? key with
  | some .null => .ok none
  | _ => object.optional get key

/-- The values a loop over a document visits. -/
def elements : Json → List Json
  | .arr items => items
  | .obj fields => fields.map Prod.snd
  | .null => []
  | value => [value]

/-- The items of an array; anything else is refused. -/
def getArray (complaint : String) : Json → Except String (List Json)
  | .arr items => .ok items
  | _ => .error complaint

/-- A document is an object that names its schema. -/
def checkSchema (root : Json) (schema complaint : String) : Except String Unit :=
  if root.isObj then
    match root.stringOr "schema" "" with
    | .error what => .error what
    | .ok found => if found = schema then .ok () else .error complaint
  else .error complaint

section Fields

variable {α : Type} {get : Json → Except String α} {object value : Json}
variable {absent invalid key : String} {a : α}

@[simp] theorem elements_arr (items : List Json) : (Json.arr items).elements = items := rfl

@[simp] theorem getArray_arr (complaint : String) (items : List Json) :
    (Json.arr items).getArray complaint = .ok items := rfl

theorem contains_of_field (h : object.field? key = some value) : object.contains key = true := by
  rw [contains, h, Option.isSome_some]

theorem contains_of_missing (h : object.field? key = none) : object.contains key = false := by
  rw [contains, h, Option.isSome_none]

theorem atKey_of_field (h : object.field? key = some value) : object.atKey key = .ok value := by
  rcases object with _ | _ | _ | _ | _ | fields
  · cases h
  · cases h
  · cases h
  · cases h
  · cases h
  · rw [field?] at h
    rw [atKey, h]

theorem stringOr_of_field {text default : String} (h : object.field? key = some (.str text)) :
    object.stringOr key default = .ok text := by
  rw [stringOr, h]
  exact getString_str text

theorem checkSchema_of_field {schema complaint : String} (hobject : object.isObj = true)
    (h : object.field? "schema" = some (.str schema)) :
    object.checkSchema schema complaint = .ok () := by
  rw [checkSchema, if_pos hobject, stringOr_of_field h]
  exact if_pos rfl

theorem required_eq_ok_iff : required absent invalid get object key = .ok a ↔
    ∃ value, object.field? key = some value ∧ get value = .ok a := by
  rw [required]
  rcases hfield : object.field? key with _ | value
  · simp
  · rcases hget : get value with what | b
    · simp [hget]
    · simp [hget]

/-- A field that is there and of the right type is returned. -/
theorem required_of_field (hfield : object.field? key = some value) (hget : get value = .ok a) :
    required absent invalid get object key = .ok a :=
  required_eq_ok_iff.mpr ⟨value, hfield, hget⟩

theorem required_string {text : String} (h : object.field? key = some (.str text)) :
    required absent invalid getString object key = .ok text :=
  required_of_field h (getString_str text)

theorem required_unsigned {width n : ℕ} (h : object.field? key = some (.nat n))
    (hn : n < 2 ^ width) : required absent invalid (getUnsigned width) object key = .ok n :=
  required_of_field h (getUnsigned_nat hn)

/-- Fields put together are looked up one part after the other. -/
theorem field?_append (before after : List (String × Json)) (name : String) :
    (obj (before ++ after)).field? name = ((obj before).field? name).or ((obj after).field? name) :=
  List.lookup_append

/-- A field that is written when there is a value for it. -/
theorem field?_elim (o : Option α) (write : α → Json) (key name : String) :
    (obj (o.elim [] fun a ↦ [(key, write a)])).field? name
      = if name = key then o.map write else none := by
  rcases o with _ | a
  · simp
  · simp

/-- It is read back, or found missing. -/
theorem optional_of_elim {o : Option α} {write : α → Json}
    (hfield : object.field? key = o.map write) (hget : ∀ a, o = some a → get (write a) = .ok a) :
    object.optional get key = .ok o := by
  rw [optional, hfield]
  rcases o with _ | a
  · rfl
  · rw [Option.map_some]
    simp only [hget a rfl]

theorem optional_of_missing (h : object.field? key = none) :
    object.optional get key = .ok none := by
  rw [optional, h]

theorem optional_of_field (hfield : object.field? key = some value) (hget : get value = .ok a) :
    object.optional get key = .ok (some a) := by
  rw [optional, hfield]
  simp only [hget]

theorem optional_of_number {width n : ℕ} (h : object.field? key = some (.nat n))
    (hn : n < 2 ^ width) : object.optional (getUnsigned width) key = .ok (some n) :=
  optional_of_field h (getUnsigned_nat hn)

/-- What an optional field holds has been read from it. -/
theorem exists_of_optional (h : object.optional get key = .ok (some a)) :
    ∃ value, get value = .ok a := by
  rw [optional] at h
  split at h
  · cases h
  · rename_i value hvalue
    split at h
    · cases h
    · rename_i b hb
      obtain rfl := Option.some.inj (Except.ok.inj h)
      exact ⟨value, hb⟩

theorem nullable_of_missing (h : object.field? key = none) :
    object.nullable get key = .ok none := by
  rw [nullable, h]
  exact optional_of_missing h

theorem nullable_of_number {width n : ℕ} (h : object.field? key = some (.nat n))
    (hn : n < 2 ^ width) : object.nullable (getUnsigned width) key = .ok (some n) := by
  rw [nullable, h]
  exact optional_of_field h (getUnsigned_nat hn)

theorem exists_of_nullable (h : object.nullable get key = .ok (some a)) :
    ∃ value, get value = .ok a := by
  rw [nullable] at h
  split at h
  · cases h
  · exact exists_of_optional h

/-- A number that a document had to hold fits. -/
theorem lt_of_required {width n : ℕ} (hwidth : 0 < width)
    (h : required absent invalid (getUnsigned width) object key = .ok n) : n < 2 ^ width := by
  obtain ⟨value, -, hvalue⟩ := required_eq_ok_iff.mp h
  exact lt_of_getUnsigned hwidth hvalue

end Fields

/-! ## Arrays -/

/-- **An array is read back** when each of its items is. -/
theorem mapM_written {α : Type} {write : α → Json} {read : Json → Except String α} {l : List α}
    (h : ∀ a ∈ l, read (write a) = .ok a) : (l.map write).mapM read = .ok l := by
  rw [Scan.mapM_eq_ok, List.forall₂_map_left_iff, List.forall₂_same]
  exact h

/-- A reader that takes the items in one by one goes through a state for each list it has taken in.
-/
theorem exists_foldlM_written {α σ : Type} {write : α → Json} {read : σ → Json → Except String σ}
    {I : List α → σ → Prop} {l : List α} {s : σ}
    (h : ∀ before a after, l = before ++ a :: after → ∀ s, I before s →
      ∃ t, read s (write a) = .ok t ∧ I (before ++ [a]) t) (hstart : I [] s) :
    ∃ t, (l.map write).foldlM read s = .ok t ∧ I l t := by
  have hrest : ∀ before after s, l = before ++ after → I before s →
      ∃ t, (after.map write).foldlM read s = .ok t ∧ I l t := by
    intro before after s hl hs
    induction after generalizing before s with
    | nil =>
      rw [List.append_nil] at hl
      exact ⟨s, rfl, hl ▸ hs⟩
    | cons a after ih =>
      obtain ⟨t, ht, hnext⟩ := h before a after hl s hs
      rw [List.map_cons, List.foldlM_cons, ht]
      exact ih (before ++ [a]) t (by rw [hl, List.append_assoc, List.singleton_append]) hnext
  exact hrest [] l s rfl hstart

/-- A reader that takes the items in one by one has taken in all of them. -/
theorem foldlM_written {α σ : Type} {write : α → Json} {read : σ → Json → Except String σ}
    {s : List α → σ} {l : List α} (h : ∀ before a after, l = before ++ a :: after →
      read (s before) (write a) = .ok (s (before ++ [a]))) :
    (l.map write).foldlM read (s []) = .ok (s l) := by
  have hexists : ∃ t, (l.map write).foldlM read (s []) = .ok t ∧ t = s l := by
    apply exists_foldlM_written (I := fun before t ↦ t = s before) ?_ rfl
    intro before a after hl t ht
    exact ⟨s (before ++ [a]), ht ▸ h before a after hl, rfl⟩
  obtain ⟨t, hfold, rfl⟩ := hexists
  exact hfold

end Json

end PredicatedMesh
