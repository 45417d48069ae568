import OpenSand.Encap.Rle

/-!
A library with the documented behaviour of the RLE one.

A PPDU is a byte for the fragment identifier and its place in the SDU, two bytes for its
length, and the bytes. `documented` shows that reading the PPDUs back and reassembling the
fragments is what is asked of the library.
-/

namespace OpenSand.Rle.Simple

open Fragment

/-! ### PPDUs -/

def ppduOf (fragment : Fragment Nat UInt8) : List UInt8 :=
  .ofNat (4 * fragment.id + 2 * fragment.first.toNat + fragment.last.toNat) ::
    .ofNat (fragment.data.length / 256) :: .ofNat (fragment.data.length % 256) :: fragment.data

/-- Read the PPDUs of a payload, within a number of them. -/
def readPpdus : Nat → List UInt8 → Option (List (Fragment Nat UInt8))
  | _, [] => some []
  | fuel + 1, kind :: high :: low :: bytes =>
      let length := 256 * high.toNat + low.toNat
      if bytes.length < length then none
      else (readPpdus fuel (bytes.drop length)).map fun fragments =>
        ⟨kind.toNat / 4, kind.toNat / 2 % 2 = 1, kind.toNat % 2 = 1, bytes.take length⟩ :: fragments
  | _, _ => none

/-- The bytes of a PPDU hold a fragment. -/
def Reads (ppdu : List UInt8) (fragment : Fragment Nat UInt8) : Prop :=
  ppdu = ppduOf fragment ∧ fragment.id < 8 ∧ fragment.data.length < 65536

theorem readPpdus_flatten {ppdus : List (List UInt8)} {fragments : List (Fragment Nat UInt8)}
    (read : List.Forall₂ Reads ppdus fragments) {fuel : Nat} (enough : ppdus.flatten.length ≤ fuel) :
    readPpdus fuel ppdus.flatten = some fragments := by
  induction read generalizing fuel with
  | nil => rw [List.flatten_nil, readPpdus]
  | @cons ppdu fragment ppdus fragments first _ ih =>
      obtain ⟨rfl, small, short⟩ := first
      obtain ⟨id, isFirst, isLast, data⟩ := fragment
      rw [List.flatten_cons, List.length_append, ppduOf, List.length_cons] at enough
      cases fuel with
      | zero => exact absurd enough (by omega)
      | succ fuel =>
          have kind : (UInt8.ofNat (4 * id + 2 * isFirst.toNat + isLast.toNat)).toNat =
              4 * id + 2 * isFirst.toNat + isLast.toNat := by
            rw [UInt8.toNat_ofNat']
            cases isFirst <;> cases isLast <;> simp at small ⊢ <;> omega
          have length : 256 * (UInt8.ofNat (data.length / 256)).toNat +
              (UInt8.ofNat (data.length % 256)).toNat = data.length := by
            rw [UInt8.toNat_ofNat', UInt8.toNat_ofNat']
            simp only at short
            omega
          have rest := @ih fuel (by omega)
          rw [List.flatten_cons, ppduOf]
          simp only [List.cons_append, readPpdus, length, kind, List.length_append]
          rw [if_neg (by omega), List.drop_left, rest, List.take_left, Option.map_some]
          cases isFirst <;> cases isLast <;> simp <;> omega

/-! ### The library -/

/-- The longest data of a PPDU. -/
def MAX_DATA : Nat := 2047

def fragment (transmitter : Nat → Option (Cut UInt8)) (fragId length : Nat) :
    RleFragmentation (Nat → Option (Cut UInt8)) :=
  match transmitter fragId with
  | none => .error
  | some cut =>
      if length < 4 then .burstTooSmall transmitter
      else
        let size := min (length - 3) MAX_DATA
        let last := cut.left.length ≤ size
        .ppdu (ppduOf ⟨fragId, !cut.started, last, cut.left.take size⟩)
          (Function.update transmitter fragId (if last then none
            else some (.begun (cut.sofar ++ cut.left.take size) (cut.left.drop size))))

def encapsulate (transmitter : Nat → Option (Cut UInt8)) (sdu : List UInt8) (fragId : Nat) :
    Option (Nat → Option (Cut UInt8)) :=
  if sdu = [] ∨ 4088 < sdu.length ∨ (transmitter fragId).isSome then none
  else some (Function.update transmitter fragId (some (.ofWhole sdu)))

def decapsulate (receiver : Held Nat UInt8) (payload : List UInt8) (max : Nat) :
    Option (List (List UInt8)) × Held Nat UInt8 :=
  match (readPpdus payload.length (payload.drop 3)).bind (acceptAll receiver) with
  | some (sdus, receiver') => if sdus.length ≤ max then (some sdus, receiver') else (none, receiver)
  | none => (none, receiver)

def librle : Librle where
  Transmitter := Nat → Option (Cut UInt8)
  Receiver := Held Nat UInt8
  newTransmitter := fun _ => none
  newReceiver := fun _ => none
  encapsulate := encapsulate
  queueSize transmitter fragId := if (transmitter fragId).isSome then 1 else 0
  fragment := fragment
  pack ppdu label := label ++ ppdu
  decapsulate := decapsulate

def documented : librle.Documented where
  maxSdu := 4088
  cut transmitter := transmitter
  held receiver := receiver
  Reads := Reads
  cut_new _ := rfl
  held_new _ := rfl
  encapsulate := by
    intro transmitter sdu fragId _ free some_data short
    refine ⟨_, if_neg ?_, rfl⟩
    rw [free]
    simp [some_data, short]
  queueSize := by
    intro transmitter fragId _
    cases found : transmitter fragId <;> simp [librle, found]
  fragment := by
    intro transmitter fragId length cut small here
    simp only [librle, fragment, here]
    by_cases room : length < 4
    · exact .inl ⟨transmitter, if_pos room, rfl⟩
    · refine .inr ⟨_, _, cut.left.take (min (length - 3) MAX_DATA),
        cut.left.drop (min (length - 3) MAX_DATA), _, if_neg room, ?_, ?_,
        (List.take_append_drop _ _).symm, ?_, ⟨rfl, small, ?_⟩, ?_⟩
      · simp [ppduOf]
        omega
      · simp [ppduOf]
      · intro whole
        exact List.drop_of_length_le (of_decide_eq_true whole)
      · simp [MAX_DATA]
      · simp
  pack _ _ := rfl
  decapsulate := by
    intro receiver label ppdus fragments sdus max held' three read accepted few
    have bytes : (label ++ ppdus.flatten).drop 3 = ppdus.flatten := by
      rw [← three, List.drop_left]
    have fits : ppdus.flatten.length ≤ (label ++ ppdus.flatten).length := by
      rw [List.length_append]
      exact Nat.le_add_left _ _
    refine ⟨held', ?_, rfl⟩
    simp only [librle, decapsulate, bytes, readPpdus_flatten read fits, Option.bind_some]
    rw [accepted]
    exact if_pos few

end OpenSand.Rle.Simple
