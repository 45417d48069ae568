import OpenSand.Lib.Bytes

/-!
Accesses to byte strings that can go wrong.

A raw access outside of the bytes is not survived; the operations of a string
class check where they start, throw when it is beyond the end, and clip the rest.
The field lemmas speak of a record whose fields, given as a list of byte strings,
stand in front of other bytes.
-/

namespace OpenSand

/-- How an operation on bytes goes wrong: an access outside of them, or the
exception of an operation that checks its position. -/
inductive Fault where
  | outside | outOfRange
deriving DecidableEq, Repr

namespace Bytes

/-- A sequence succeeds when both of its parts do. -/
theorem bind_eq_ok {α β : Type} {first : Except Fault α} {rest : α → Except Fault β} {out : β} :
    (first >>= rest) = .ok out ↔ ∃ value, first = .ok value ∧ rest value = .ok out := by
  cases first with
  | error fault => exact iff_of_false (fun eq => by cases eq) fun ⟨_, eq, _⟩ => by cases eq
  | ok value =>
      refine ⟨fun eq => ⟨value, rfl, eq⟩, ?_⟩
      rintro ⟨value', eq, eq'⟩
      cases eq
      exact eq'

theorem ok_bind {α β : Type} (value : α) (rest : α → Except Fault β) :
    (Except.ok value >>= rest) = rest value := rfl

theorem bind_pure_eq_map {α β : Type} (value : Except Fault α) (f : α → β) :
    (value >>= fun value => pure (f value)) = value.map f := by
  cases value <;> rfl

/-- A raw read. -/
def read (off n : Nat) (data : Data) : Except Fault Data :=
  (slice off n data).elim (.error .outside) .ok

/-- A raw write. -/
def write (off : Nat) (bytes data : Data) : Except Fault Data :=
  (patch off bytes data).elim (.error .outside) .ok

def substr (pos n : Nat) (data : Data) : Except Fault Data :=
  if pos ≤ data.length then .ok ((data.drop pos).take n) else .error .outOfRange

def insert (pos : Nat) (bytes data : Data) : Except Fault Data :=
  if pos ≤ data.length then .ok (data.take pos ++ bytes ++ data.drop pos)
  else .error .outOfRange

def erase (pos n : Nat) (data : Data) : Except Fault Data :=
  if pos ≤ data.length then .ok (data.take pos ++ data.drop (pos + n)) else .error .outOfRange

theorem read_append {pre mid post : Data} {off n : Nat} (hoff : pre.length = off)
    (hn : mid.length = n) : read off n (pre ++ (mid ++ post)) = .ok mid := by
  rw [read, slice_append hoff hn]
  rfl

theorem write_append {pre mid post bytes : Data} {off : Nat} (hoff : pre.length = off)
    (hlen : mid.length = bytes.length) :
    write off bytes (pre ++ (mid ++ post)) = .ok (pre ++ (bytes ++ post)) := by
  rw [write, patch_append hoff hlen]
  rfl

theorem read_of_le {off n : Nat} {data : Data} (inside : off + n ≤ data.length) :
    read off n data = .ok ((data.drop off).take n) := by
  simp [read, slice, inside]

theorem read_of_lt {off n : Nat} {data : Data} (beyond : data.length < off + n) :
    read off n data = .error .outside := by
  simp [read, slice, Nat.not_le.mpr beyond]

/-- A raw write that succeeds is inside of the bytes and keeps their length. -/
theorem write_eq_ok {off : Nat} {bytes data written : Data} (wrote : write off bytes data = .ok written) :
    off + bytes.length ≤ data.length ∧ written.length = data.length := by
  rw [write, patch] at wrote
  split at wrote
  next inside =>
    obtain rfl := Except.ok.inj wrote
    refine ⟨inside, ?_⟩
    rw [List.length_append, List.length_append, List.length_take, List.length_drop]
    omega
  next => cases wrote

theorem substr_append {pre mid post : Data} {off n : Nat} (hoff : pre.length = off)
    (hn : mid.length = n) : substr off n (pre ++ (mid ++ post)) = .ok mid := by
  subst hoff hn
  simp [substr]

/-! ### Records in front of other bytes -/

variable {fields : List Data} {field rest : Data} {i off : Nat}

/-- The bytes are those of the fields before, of the field, and of those after. -/
theorem field_split (found : fields[i]? = some field) :
    fields.flatten ++ rest =
      (fields.take i).flatten ++ (field ++ ((fields.drop (i + 1)).flatten ++ rest)) := by
  obtain ⟨inside, rfl⟩ := List.getElem?_eq_some_iff.mp found
  calc fields.flatten ++ rest
      = (fields.take i ++ fields[i] :: fields.drop (i + 1)).flatten ++ rest := by
        rw [← List.drop_eq_getElem_cons inside, List.take_append_drop]
    _ = _ := by simp only [List.flatten_append, List.flatten_cons, List.append_assoc]

theorem read_field {n : Nat} (found : fields[i]? = some field)
    (hoff : (fields.take i).flatten.length = off) (hn : field.length = n) :
    read off n (fields.flatten ++ rest) = .ok field := by
  rw [field_split found]
  exact read_append hoff hn

theorem write_field {bytes : Data} (found : fields[i]? = some field)
    (hoff : (fields.take i).flatten.length = off) (hlen : field.length = bytes.length) :
    write off bytes (fields.flatten ++ rest) = .ok ((fields.set i bytes).flatten ++ rest) := by
  have inside : i < (fields.set i bytes).length := by
    rw [List.length_set]
    exact (List.getElem?_eq_some_iff.mp found).1
  have found' : (fields.set i bytes)[i]? = some bytes := by
    rw [List.getElem?_eq_some_iff]
    exact ⟨inside, List.getElem_set_self _⟩
  rw [field_split found, field_split found', write_append hoff hlen]
  simp only [List.take_set_of_le (Nat.le_refl i), List.drop_set_of_lt (Nat.lt_succ_self i)]

end Bytes

end OpenSand
