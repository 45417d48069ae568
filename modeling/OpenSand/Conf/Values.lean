import Mathlib.Data.Char
import Mathlib.Data.List.Dedup
import Mathlib.Data.List.Lex
import Mathlib.Data.List.Sort
import OpenSand.Conf.Path
import OpenSand.Lib.CharStream

/-!
Types and values of the parameters (`DataType`, `DataValueType`, `DataEnumType`, `DataValue`).

A value keeps what it was last set to, also once it is reset, and only its flag tells whether
it is set. `Data.copy` takes the value and not the flag, where `Data.duplicate` looks at both.
-/

namespace OpenSand.Conf

/-- The C++ type of the value of a parameter. -/
inductive ValueKind
  | bool
  | double
  | float
  | int
  | short
  | long
  | string
deriving DecidableEq, Repr

/-- The identifier of the built-in type of a kind. -/
def ValueKind.id : ValueKind → Text
  | bool => ['b', 'o', 'o', 'l']
  | double => ['d', 'o', 'u', 'b', 'l', 'e']
  | float => ['f', 'l', 'o', 'a', 't']
  | int => ['i', 'n', 't']
  | short => ['s', 'h', 'o', 'r', 't']
  | long => ['l', 'o', 'n', 'g']
  | string => ['s', 't', 'r', 'i', 'n', 'g']

/-- The bits of an integer kind. -/
def ValueKind.width : ValueKind → Nat
  | short => 16
  | long => 64
  | _ => 32

/-- The floating-point numbers, with their formatted output and input for a kind. -/
class FloatingText (δ : Type) where
  zero : δ
  equal : δ → δ → Bool
  print : ValueKind → δ → Text
  parse : ValueKind → Text → Option δ

inductive Value (δ : Type)
  | bool (b : Bool)
  | floating (x : δ)
  | integer (i : Int)
  | text (t : Text)
deriving Repr

/-- The values a C++ variable of a kind can have. -/
def Value.OfKind {δ : Type} : ValueKind → Value δ → Prop
  | .bool, .bool _ => True
  | .double, .floating _ => True
  | .float, .floating _ => True
  | .int, .integer i => -2 ^ 31 ≤ i ∧ i < 2 ^ 31
  | .short, .integer i => -2 ^ 15 ≤ i ∧ i < 2 ^ 15
  | .long, .integer i => -2 ^ 63 ≤ i ∧ i < 2 ^ 63
  | .string, .text _ => True
  | _, _ => False

instance {δ : Type} (kind : ValueKind) (value : Value δ) : Decidable (value.OfKind kind) := by
  cases kind <;> cases value <;> unfold Value.OfKind <;> infer_instance

/-- A type of values: a built-in one or an enumeration of texts. -/
inductive DataType
  | value (kind : ValueKind)
  | enumeration (id : Text) (values : List Text)
deriving DecidableEq, Repr

namespace DataType

def id : DataType → Text
  | value kind => kind.id
  | enumeration id _ => id

def kind : DataType → ValueKind
  | value kind => kind
  | enumeration _ _ => .string

def check {δ : Type} : DataType → Value δ → Bool
  | enumeration _ values, .text t => values.contains t
  | _, _ => true

end DataType

/-- The values of an enumeration, sorted and without duplicates (`std::set`). -/
def uniqueValues (values : List Text) : List Text := values.dedup.insertionSort (· ≤ ·)

section FloatingText

variable {δ : Type} [FloatingText δ]

/-- The value of a kind before it is set. -/
def ValueKind.initial : ValueKind → Value δ
  | bool => .bool false
  | double => .floating FloatingText.zero
  | float => .floating FloatingText.zero
  | string => .text []
  | _ => .integer 0

theorem ValueKind.initial_ofKind (kind : ValueKind) : (kind.initial : Value δ).OfKind kind := by
  cases kind
  case bool => trivial
  case double => trivial
  case float => trivial
  case string => trivial
  all_goals exact ⟨by decide, by decide⟩

/-- Formatted output of a value (`std::fixed`, `std::boolalpha`). -/
def Value.print (kind : ValueKind) : Value δ → Text
  | .bool true => ['t', 'r', 'u', 'e']
  | .bool false => ['f', 'a', 'l', 's', 'e']
  | .floating x => FloatingText.print kind x
  | .integer i => CharStream.decimal i
  | .text t => t

/-- Formatted input of a value; a text is taken whole. -/
def Value.parse : ValueKind → Text → Option (Value δ)
  | .bool, t =>
      let (b, stream) := CharStream.extractBoolAlpha ⟨t, false⟩ false
      if stream.fail then none else some (.bool b)
  | .double, t => (FloatingText.parse .double t).map .floating
  | .float, t => (FloatingText.parse .float t).map .floating
  | .string, t => some (.text t)
  | kind, t =>
      let (i, stream) := CharStream.extractSigned kind.width ⟨t, false⟩ 0
      if stream.fail then none else some (.integer i)

def Value.equal : Value δ → Value δ → Bool
  | .bool a, .bool b => a = b
  | .floating a, .floating b => FloatingText.equal a b
  | .integer a, .integer b => a = b
  | .text a, .text b => a = b
  | _, _ => false

end FloatingText

structure Data (δ : Type) where
  type : DataType
  isSet : Bool
  value : Value δ
  typed : value.OfKind type.kind
  checked : isSet = true → type.check value = true

namespace Data

variable {δ : Type}

/-- What an observer sees: the value, if it is set. -/
def state (data : Data δ) : Option (Value δ) := if data.isSet then some data.value else none

/-- Set a value of the type of the data; the type may refuse it. -/
def set (data : Data δ) (value : Value δ) : Bool × Data δ :=
  if h : value.OfKind data.type.kind ∧ data.type.check value = true then
    (true, ⟨data.type, true, value, h.1, fun _ => h.2⟩)
  else (false, data)

def reset (data : Data δ) : Data δ :=
  ⟨data.type, false, data.value, data.typed, by rintro ⟨⟩⟩

/-- Take the value of another data, whether it is set or not. -/
def copy (data original : Data δ) : Bool × Data δ :=
  if original.type.kind = data.type.kind then (true, (data.set original.value).2)
  else (false, data)

section Text

variable [FloatingText δ]

/-- A new data of a type, not set. -/
def create (type : DataType) : Data δ :=
  ⟨type, false, type.kind.initial, type.kind.initial_ofKind, by rintro ⟨⟩⟩

/-- A new data of the same type, set when the data is. -/
def duplicate (data : Data δ) : Data δ :=
  if data.isSet then ((create data.type).set data.value).2 else create data.type

def toString (data : Data δ) : Text :=
  if data.isSet then data.value.print data.type.kind else []

def fromString (data : Data δ) (t : Text) : Bool × Data δ :=
  match Value.parse data.type.kind t with
  | none => (false, data)
  | some value => data.set value

def equal (data other : Data δ) : Bool :=
  data.type.kind = other.type.kind && data.isSet = other.isSet && data.type = other.type &&
    (!data.isSet || data.value.equal other.value)

end Text

@[ext] theorem ext {data other : Data δ} (type : data.type = other.type)
    (isSet : data.isSet = other.isSet) (value : data.value = other.value) : data = other := by
  cases data
  cases other
  cases type
  cases isSet
  cases value
  rfl

/-! ### Types are kept -/

@[simp] theorem set_type (data : Data δ) (value : Value δ) :
    (data.set value).2.type = data.type := by
  unfold set
  split
  · rfl
  · rfl

@[simp] theorem copy_type (data original : Data δ) : (data.copy original).2.type = data.type := by
  unfold copy
  split
  · exact set_type data original.value
  · rfl

theorem copy_fst {data original : Data δ} :
    (data.copy original).1 = true ↔ original.type.kind = data.type.kind := by
  unfold copy
  split
  next same => simp [same]
  next other => simp [other]

@[simp] theorem reset_type (data : Data δ) : data.reset.type = data.type := rfl

variable [FloatingText δ]

@[simp] theorem create_type (type : DataType) : (create type : Data δ).type = type := rfl

@[simp] theorem create_state (type : DataType) : (create type : Data δ).state = none := rfl

@[simp] theorem duplicate_type (data : Data δ) : data.duplicate.type = data.type := by
  unfold duplicate
  split
  · exact set_type _ _
  · rfl

@[simp] theorem fromString_type (data : Data δ) (t : Text) :
    (data.fromString t).2.type = data.type := by
  unfold fromString
  split
  · rfl
  · exact set_type _ _

/-! ### States -/

omit [FloatingText δ] in
theorem set_eq (data : Data δ) {value : Value δ} (typed : value.OfKind data.type.kind)
    (checked : data.type.check value = true) :
    data.set value = (true, ⟨data.type, true, value, typed, fun _ => checked⟩) :=
  dif_pos ⟨typed, checked⟩

omit [FloatingText δ] in
theorem state_eq_some {data : Data δ} {value : Value δ} :
    data.state = some value ↔ data.isSet = true ∧ data.value = value := by
  unfold state
  split
  next isSet => simp [isSet]
  next unset => simp [unset]

omit [FloatingText δ] in
theorem state_eq_none {data : Data δ} : data.state = none ↔ data.isSet = false := by
  unfold state
  split
  next isSet => simp [isSet]
  next unset => simp [unset]

theorem duplicate_state (data : Data δ) : data.duplicate.state = data.state := by
  unfold duplicate
  split
  next isSet =>
    rw [set_eq (create data.type) data.typed (data.checked isSet), state, state, if_pos isSet,
      if_pos rfl]
  next unset => rw [create_state, state, if_neg unset]

/-- Two data of a type are the same for an observer. -/
def Same (data other : Data δ) : Prop := data.type = other.type ∧ data.state = other.state

omit [FloatingText δ] in
theorem Same.refl (data : Data δ) : data.Same data := ⟨rfl, rfl⟩

theorem duplicate_same (data : Data δ) : data.duplicate.Same data :=
  ⟨duplicate_type data, duplicate_state data⟩

/-- A copy keeps the state of a data when it is set or its type refuses the value it still
holds. -/
def Copies (data : Data δ) : Prop := data.isSet = true ∨ data.type.check data.value = false

instance (data : Data δ) : Decidable data.Copies := inferInstanceAs (Decidable (_ ∨ _))

/-- The new data a reference gets, with the value of a former one of the same type. -/
theorem copy_create (data : Data δ) :
    ∃ copied, (create data.type).copy data = (true, copied) ∧ copied.type = data.type ∧
      (copied.state = data.state ↔ data.Copies) := by
  refine ⟨((create data.type).set data.value).2, if_pos rfl, set_type _ _, ?_⟩
  unfold Copies
  by_cases checked : data.type.check data.value = true
  · rw [set_eq (create data.type) data.typed checked, state, if_pos rfl, eq_comm, state_eq_some]
    simp [checked]
  · have refused : (create data.type).set data.value = (false, create data.type) :=
      dif_neg fun accepted => checked accepted.2
    rw [refused, create_state, eq_comm, state_eq_none]
    have unset : data.isSet = false := by
      cases isSet : data.isSet with
      | false => rfl
      | true => exact absurd (data.checked isSet) checked
    simp [unset, checked]

end Data

/-! ### Values of enumerations -/

theorem mem_uniqueValues {values : List Text} {value : Text} :
    value ∈ uniqueValues values ↔ value ∈ values := by
  rw [uniqueValues, List.mem_insertionSort, List.mem_dedup]

theorem uniqueValues_strict (values : List Text) : (uniqueValues values).Pairwise (· < ·) := by
  have sorted : (uniqueValues values).Pairwise (· ≤ ·) := List.pairwise_insertionSort _ _
  have nodup : (uniqueValues values).Nodup :=
    (List.perm_insertionSort _ _).nodup_iff.mpr (List.nodup_dedup values)
  exact (sorted.and nodup).imp fun ⟨le, ne⟩ => lt_of_le_of_ne le ne

theorem uniqueValues_of_strict {values : List Text} (strict : values.Pairwise (· < ·)) :
    uniqueValues values = values := by
  have nodup : values.Nodup := strict.imp ne_of_lt
  rw [uniqueValues, nodup.dedup]
  exact (strict.imp le_of_lt).insertionSort_eq

end OpenSand.Conf
