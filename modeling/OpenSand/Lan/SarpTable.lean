import OpenSand.Lib.Bytes
import Mathlib.Data.Fintype.Pi

/-!
The SARP table (`SarpTable`) and the MAC addresses in it (`MacAddress`).

An address of the table may have generic bytes, which match any byte. An address is put in
the table through its text; `ofStr_str` says that this leaves its bytes and no generic one.
The first entry that matches an address gives its terminal.
-/

namespace OpenSand

/-! ### MAC addresses -/

structure MacAddress where
  mac : Fin 6 → UInt8
  genericBytes : Fin 6 → Bool
deriving DecidableEq

namespace MacAddress

/-- An address without generic bytes. -/
def ofBytes (mac : Fin 6 → UInt8) : MacAddress := ⟨mac, fun _ => false⟩

/-- The first address matches the second one. -/
def Matches (address other : MacAddress) : Prop :=
  ∀ i, address.genericBytes i = true ∨ address.mac i = other.mac i

instance (address other : MacAddress) : Decidable (address.Matches other) :=
  inferInstanceAs (Decidable (∀ _, _ ∨ _))

def hexDigit (n : Nat) : Char := "0123456789abcdef".toList.getD n '0'

def hexValue (c : Char) : Option Nat :=
  if c.isDigit then some (c.toNat - '0'.toNat)
  else if 'a' ≤ c ∧ c ≤ 'f' then some (c.toNat - 'a'.toNat + 10)
  else if 'A' ≤ c ∧ c ≤ 'F' then some (c.toNat - 'A'.toNat + 10)
  else none

/-- The text of an address; a generic byte is written as its value. -/
def str (address : MacAddress) : List Char :=
  [':'].intercalate ((List.ofFn address.mac).map fun byte =>
    [hexDigit (byte.toNat / 16), hexDigit (byte.toNat % 16)])

/-- The value of the hexadecimal digits in front of a token. -/
def strtoul (token : List Char) : Nat :=
  ((token.map hexValue).takeWhile Option.isSome).foldl (fun value digit => 16 * value + digit.getD 0) 0

def ofStr (text : List Char) : MacAddress where
  mac i := .ofNat (strtoul ((text.splitOn ':').getD i []))
  genericBytes i := (text.splitOn ':').getD i [] = ['*', '*']

theorem hexDigit_spec : ∀ n : Fin 16, hexValue (hexDigit n) = some n.val ∧ hexDigit n ≠ ':' ∧
    hexDigit n ≠ '*' := by
  decide

theorem hexDigit_of_lt {n : Nat} (small : n < 16) :
    hexValue (hexDigit n) = some n ∧ hexDigit n ≠ ':' ∧ hexDigit n ≠ '*' :=
  hexDigit_spec ⟨n, small⟩

/-- The tokens in the text of an address. -/
theorem getD_splitOn_str (address : MacAddress) (i : Fin 6) :
    (address.str.splitOn ':').getD i [] =
      [hexDigit ((address.mac i).toNat / 16), hexDigit ((address.mac i).toNat % 16)] := by
  have tokens : address.str.splitOn ':' = (List.ofFn address.mac).map fun byte =>
      [hexDigit (byte.toNat / 16), hexDigit (byte.toNat % 16)] := by
    rw [str, List.splitOn_intercalate]
    · intro token mem
      obtain ⟨byte, _, rfl⟩ := List.mem_map.mp mem
      have high := hexDigit_of_lt (n := byte.toNat / 16) (by have := byte.toNat_lt; omega)
      have low := hexDigit_of_lt (n := byte.toNat % 16) (Nat.mod_lt _ (by decide))
      simp [Ne.symm high.2.1, Ne.symm low.2.1]
    · simp
  rw [tokens, List.getD_eq_getElem?_getD, List.getElem?_map, List.getElem?_ofFn]
  simp

/-- A byte is read from its two hexadecimal digits. -/
theorem strtoul_hexDigit {byte : Nat} (small : byte < 256) :
    strtoul [hexDigit (byte / 16), hexDigit (byte % 16)] = byte := by
  have high := hexDigit_of_lt (n := byte / 16) (by omega)
  have low := hexDigit_of_lt (n := byte % 16) (Nat.mod_lt _ (by decide))
  have value : 16 * (byte / 16) + byte % 16 = byte := Nat.div_add_mod _ _
  simp [strtoul, high.1, low.1, value]

/-- The address read in the text of an address. -/
theorem ofStr_str (address : MacAddress) : ofStr address.str = ofBytes address.mac := by
  have mac : (ofStr address.str).mac = address.mac := by
    funext i
    simp only [ofStr, getD_splitOn_str]
    rw [strtoul_hexDigit (address.mac i).toNat_lt, UInt8.ofNat_toNat]
  have genericBytes : (ofStr address.str).genericBytes = fun _ => false := by
    funext i
    have digit := hexDigit_of_lt (n := (address.mac i).toNat / 16)
      (by have := (address.mac i).toNat_lt; omega)
    simp only [ofStr, getD_splitOn_str]
    simp [digit.2.2]
  rw [ofBytes, ← mac, ← genericBytes]

/-- An address without generic bytes matches itself only. -/
@[simp] theorem ofBytes_matches {mac : Fin 6 → UInt8} {other : MacAddress} :
    (ofBytes mac).Matches other ↔ mac = other.mac := by
  simp [Matches, ofBytes, funext_iff]

end MacAddress

/-! ### The table -/

structure SarpEthEntry where
  mac : MacAddress
  talId : Nat
deriving DecidableEq

structure SarpTable where
  maxEntries : Nat
  ethSarp : List SarpEthEntry
  defaultDest : Nat

namespace SarpTable

/-- The terminal of the first entry that matches an address, the default one when no entry
does. -/
def getTalByMac (table : SarpTable) (macAddress : MacAddress) : Bool × Nat :=
  match table.ethSarp.find? (·.mac.Matches macAddress) with
  | some entry => (true, entry.talId)
  | none => (false, table.defaultDest)

/-- An address that is in the table keeps its entry. -/
def add (table : SarpTable) (macAddress : MacAddress) (tal : Nat) : Bool × SarpTable :=
  if table.maxEntries ≤ table.ethSarp.length then (false, table)
  else if (table.getTalByMac macAddress).1 then (true, table)
  else (true, { table with ethSarp := table.ethSarp ++ [⟨macAddress, tal⟩] })

/-- An entry matches the address. -/
def Knows (table : SarpTable) (macAddress : MacAddress) : Prop :=
  ∃ entry ∈ table.ethSarp, entry.mac.Matches macAddress

instance (table : SarpTable) (macAddress : MacAddress) : Decidable (table.Knows macAddress) :=
  inferInstanceAs (Decidable (∃ _ ∈ _, _))

variable {table : SarpTable} {macAddress : MacAddress} {tal : Nat}

theorem getTalByMac_iff : (table.getTalByMac macAddress).1 = true ↔ table.Knows macAddress := by
  unfold getTalByMac Knows
  split
  next entry found =>
    have matching := List.find?_some found
    exact iff_of_true rfl ⟨entry, List.mem_of_find?_eq_some found, of_decide_eq_true matching⟩
  next none =>
    refine iff_of_false (by simp) ?_
    rintro ⟨entry, mem, matching⟩
    exact absurd (decide_eq_true matching) (List.find?_eq_none.mp none entry mem)

theorem knows_append {entry : SarpEthEntry} :
    SarpTable.Knows { table with ethSarp := table.ethSarp ++ [entry] } macAddress ↔
      table.Knows macAddress ∨ entry.mac.Matches macAddress := by
  simp [Knows, or_and_right, exists_or]

/-- An address that is known keeps its terminal. -/
theorem getTalByMac_append_of_knows {entry : SarpEthEntry} (known : table.Knows macAddress) :
    SarpTable.getTalByMac { table with ethSarp := table.ethSarp ++ [entry] } macAddress =
      table.getTalByMac macAddress := by
  obtain ⟨matching, mem, hit⟩ := known
  have found : (table.ethSarp.find? (·.mac.Matches macAddress)).isSome :=
    List.find?_isSome.mpr ⟨matching, mem, decide_eq_true hit⟩
  obtain ⟨first, found⟩ := Option.isSome_iff_exists.mp found
  simp only [getTalByMac, List.find?_append, found, Option.some_or]

/-- An address that was not known gets the terminal of its new entry. -/
theorem getTalByMac_append_of_unknown {entry : SarpEthEntry} (unknown : ¬ table.Knows macAddress)
    (matching : entry.mac.Matches macAddress) :
    SarpTable.getTalByMac { table with ethSarp := table.ethSarp ++ [entry] } macAddress =
      (true, entry.talId) := by
  have none : table.ethSarp.find? (·.mac.Matches macAddress) = none :=
    List.find?_eq_none.mpr fun other mem hit => unknown ⟨other, mem, of_decide_eq_true hit⟩
  simp only [getTalByMac, List.find?_append, none, Option.none_or, List.find?_singleton,
    decide_eq_true matching, if_true]

/-- An entry is added when there is room and no entry matches the address. -/
theorem add_snd : (table.add macAddress tal).2 =
    if table.ethSarp.length < table.maxEntries ∧ ¬ table.Knows macAddress then
      { table with ethSarp := table.ethSarp ++ [⟨macAddress, tal⟩] }
    else table := by
  unfold add
  simp only [getTalByMac_iff]
  split
  next full => rw [if_neg (fun fresh => absurd fresh.1 (not_lt.mpr full))]
  next room =>
    split
    next known => rw [if_neg (fun fresh => fresh.2 known)]
    next unknown => rw [if_pos ⟨not_le.mp room, unknown⟩]

end SarpTable

end OpenSand
