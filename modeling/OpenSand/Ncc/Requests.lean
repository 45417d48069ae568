import OpenSand.Lib.Numeral
import OpenSand.Ncc.RequestLines

/-!
The requests of the PEP and of the SVNO (`NccPepInterface::parsePepCommand`,
`NccSvnoInterface::parseSvnoCommand`).

The fields of a line are read as numbers of 32 bits, a minus sign and a number that is too large
included, and stored in the fields of a request, which are shorter. `parsed_iff` says for which
messages the requests stored are those of the well-formed lines, with the values given.
-/

namespace OpenSand.NccInterface

/-! ### A line -/

inductive RequestType where
  | release
  | allocation
deriving DecidableEq, Repr

/-- 0 for a release, 1 for an allocation. -/
def requestType : Nat → Option RequestType
  | 0 => some .release
  | 1 => some .allocation
  | _ => none

structure PepRequest where
  type : RequestType
  stId : UInt16
  cra : UInt16
  rbdc : UInt16
  rbdcMax : UInt16
deriving DecidableEq, Repr

def parsePepCommand (cmd : List Char) : Option PepRequest :=
  match scanNumbers ':' 5 cmd with
  | some [type, stId, cra, rbdc, rbdcMax] =>
      (requestType (asUnsigned type)).map fun type =>
        ⟨type, .ofNat (asUnsigned stId), .ofNat (asUnsigned cra), .ofNat (asUnsigned rbdc),
          .ofNat (asUnsigned rbdcMax)⟩
  | _ => none

inductive Band where
  | forward
  | return
deriving DecidableEq, Repr

def band : Nat → Option Band
  | 0 => some .forward
  | 1 => some .return
  | _ => none

structure SvnoRequest where
  spotId : UInt8
  type : RequestType
  band : Band
  label : List Char
  newRate : UInt16
deriving DecidableEq, Repr

open CharStream in
def parseSvnoCommand (cmd : List Char) : Option SvnoRequest :=
  let (spotId, s) := extractUnsigned 32 ⟨cmd, false⟩ 0
  let (type, s) := extractUnsigned 32 s 0
  let (bandId, s) := extractUnsigned 32 s 0
  let (label, s) := extractWord s []
  let (newRate, s) := extractUnsigned 16 s 0
  if s.fail then none
  else
    match requestType type, band bandId with
    | some type, some band => some ⟨.ofNat spotId, type, band, label, .ofNat newRate⟩
    | _, _ => none

/-! ### A message -/

/-- The status of a message, the list of requests after it and the terminal of its last one. -/
def parsePepMessage (requestsList : List PepRequest) (message : List Char) (talId : UInt16) :
    Bool × List PepRequest × UInt16 :=
  let parsed := parseMessage parsePepCommand PepRequest.type message
  (parsed.nbCmds ≠ 0, requestsList ++ parsed.accepted.map Prod.snd,
    (parsed.last.map PepRequest.stId).getD talId)

def parseSvnoMessage (requestsList : List SvnoRequest) (message : List Char) :
    Bool × List SvnoRequest :=
  let parsed := parseMessage parseSvnoCommand SvnoRequest.type message
  (parsed.nbCmds ≠ 0, requestsList ++ parsed.accepted.map Prod.snd)

/-! ### Well-formed lines -/

/-- The integer is a number of `w` bits. -/
def Within (w : Nat) (i : Int) : Prop := 0 ≤ i ∧ i < 2 ^ w

instance (w : Nat) (i : Int) : Decidable (Within w i) := inferInstanceAs (Decidable (_ ∧ _))

/-- Five integers that fit in the fields of a request. -/
def wellFormedPep (line : List Char) : Option PepRequest :=
  match scanNumbers ':' 5 line with
  | some [type, stId, cra, rbdc, rbdcMax] =>
      if line.length < BUFFER_SIZE ∧ Within 1 type ∧ Within 16 stId ∧ Within 16 cra ∧
          Within 16 rbdc ∧ Within 16 rbdcMax then
        (requestType type.toNat).map fun type =>
          ⟨type, .ofNat stId.toNat, .ofNat cra.toNat, .ofNat rbdc.toNat, .ofNat rbdcMax.toNat⟩
      else none
  | _ => none

/-- A word of a text, and the characters after it. -/
def word (text : List Char) : Option (List Char × List Char) :=
  let chars := CharStream.skipWhitespace text
  let first := chars.takeWhile (!CharStream.isSpace ·)
  if first = [] then none else some (first, chars.dropWhile (!CharStream.isSpace ·))

/-- Three integers, a label and a rate, which fit in the fields of a request. -/
def wellFormedSvno (line : List Char) : Option SvnoRequest := do
  let (spotId, text) ← numeral line
  let (type, text) ← numeral text
  let (bandId, text) ← numeral text
  let (label, text) ← word text
  let (newRate, _) ← numeral text
  if line.length < BUFFER_SIZE ∧ Within 8 spotId ∧ Within 1 type ∧ Within 1 bandId ∧
      Within 16 newRate then
    let type ← requestType type.toNat
    let band ← band bandId.toNat
    some ⟨.ofNat spotId.toNat, type, band, label, .ofNat newRate.toNat⟩
  else none

theorem asUnsigned_of_within {w : Nat} (small : w ≤ 32) {i : Int} (within : Within w i) :
    asUnsigned i = i.toNat := by
  have bound : (2 : Int) ^ w ≤ 2 ^ 32 := by exact_mod_cast Nat.pow_le_pow_right (by decide) small
  exact asUnsigned_of_fits within.1 (Int.lt_of_lt_of_le within.2 bound)

theorem parsePepCommand_of_wellFormed {line : List Char} {request : PepRequest}
    (formed : wellFormedPep line = some request) :
    parsePepCommand line = some request ∧ line.length < BUFFER_SIZE := by
  rw [wellFormedPep] at formed
  split at formed
  next type stId cra rbdc rbdcMax scanned =>
    split at formed
    next fits =>
      obtain ⟨short, withinType, withinId, withinCra, withinRbdc, withinMax⟩ := fits
      rw [parsePepCommand, scanned]
      simp only [asUnsigned_of_within (by decide) withinType,
        asUnsigned_of_within (by decide) withinId, asUnsigned_of_within (by decide) withinCra,
        asUnsigned_of_within (by decide) withinRbdc, asUnsigned_of_within (by decide) withinMax]
      exact ⟨formed, short⟩
    · cases formed
  · cases formed

theorem extractUnsigned_of_within {w w' target : Nat} (small : w ≤ w') {text rest : List Char}
    {i : Int} (read : numeral text = some (i, rest)) (within : Within w i) :
    CharStream.extractUnsigned w' ⟨text, false⟩ target = (i.toNat, ⟨rest, false⟩) := by
  have bound : (2 : Int) ^ w ≤ 2 ^ w' := by exact_mod_cast Nat.pow_le_pow_right (by decide) small
  have high := Int.lt_of_lt_of_le within.2 bound
  rw [CharStream.extractUnsigned_of_numeral read, if_neg ?_, Int.emod_eq_of_lt within.1 high]
  have cast : ((2 ^ w' : Nat) : Int) = 2 ^ w' := by push_cast; rfl
  have low := within.1
  omega

theorem extractWord_of_word {text label rest target : List Char}
    (read : word text = some (label, rest)) :
    CharStream.extractWord ⟨text, false⟩ target = (label, ⟨rest, false⟩) := by
  simp only [word] at read
  split at read
  · cases read
  next some =>
    cases read
    simp only [CharStream.extractWord, Bool.false_eq_true, if_false, if_neg some]

theorem parseSvnoCommand_of_wellFormed {line : List Char} {request : SvnoRequest}
    (formed : wellFormedSvno line = some request) :
    parseSvnoCommand line = some request ∧ line.length < BUFFER_SIZE := by
  simp only [wellFormedSvno, Option.bind_eq_bind, Option.bind_eq_some_iff] at formed
  obtain ⟨⟨spotId, text⟩, readSpot, ⟨type, text'⟩, readType, ⟨bandId, text''⟩, readBand,
    ⟨label, text'''⟩, readLabel, ⟨newRate, rest⟩, readRate, formed⟩ := formed
  split at formed
  next fits =>
    obtain ⟨short, withinSpot, withinType, withinBand, withinRate⟩ := fits
    obtain ⟨type', isType, band', isBand, same⟩ := by
      simpa only [Option.bind_eq_some_iff] using formed
    refine ⟨?_, short⟩
    have spot := @extractUnsigned_of_within 8 32 0 (by decide) _ _ _ readSpot withinSpot
    have kind := @extractUnsigned_of_within 1 32 0 (by decide) _ _ _ readType withinType
    have side := @extractUnsigned_of_within 1 32 0 (by decide) _ _ _ readBand withinBand
    have rate := @extractUnsigned_of_within 16 16 0 (by decide) _ _ _ readRate withinRate
    simp only [parseSvnoCommand, spot, kind, side, extractWord_of_word readLabel, rate, isType,
      isBand]
    exact same
  · cases formed

/-! ### When a message is stored as it should be -/

/-- The message stores the requests of its well-formed lines of the first type, reports whether
there is one, and returns the terminal of one of them. -/
structure PepParsed (requestsList : List PepRequest) (message : List Char) (talId : UInt16) :
    Prop where
  accepted : (parseMessage parsePepCommand PepRequest.type message).accepted =
    expected wellFormedPep PepRequest.type (lines message)
  stored : (parsePepMessage requestsList message talId).2.1 =
    requestsList ++ (expected wellFormedPep PepRequest.type (lines message)).map Prod.snd
  status : (parsePepMessage requestsList message talId).1 = true ↔
    (parseMessage parsePepCommand PepRequest.type message).accepted ≠ []
  terminal : (parsePepMessage requestsList message talId).1 = true →
    ∃ entry ∈ (parseMessage parsePepCommand PepRequest.type message).accepted,
      entry.2.stId = (parsePepMessage requestsList message talId).2.2

structure SvnoParsed (requestsList : List SvnoRequest) (message : List Char) : Prop where
  accepted : (parseMessage parseSvnoCommand SvnoRequest.type message).accepted =
    expected wellFormedSvno SvnoRequest.type (lines message)
  stored : (parseSvnoMessage requestsList message).2 =
    requestsList ++ (expected wellFormedSvno SvnoRequest.type (lines message)).map Prod.snd
  status : (parseSvnoMessage requestsList message).1 = true ↔
    (parseMessage parseSvnoCommand SvnoRequest.type message).accepted ≠ []

/-- The last line that is parsed is for a terminal of the requests to store. -/
def LastStored (message : List Char) : Prop :=
  expected wellFormedPep PepRequest.type (lines message) ≠ [] →
    ∀ request, lastParsed parsePepCommand (lines message) = some request →
      ∃ entry ∈ expected wellFormedPep PepRequest.type (lines message),
        entry.2.stId = request.stId

/-- The terminal of a message is the one of the last request that is parsed. -/
theorem terminal_eq (requestsList : List PepRequest) {message : List Char} (talId : UInt16)
    {request : PepRequest} (last : lastParsed parsePepCommand (lines message) = some request) :
    (parsePepMessage requestsList message talId).2.2 = request.stId := by
  simp only [parsePepMessage, parseMessage_eq, last_after, last, Option.map_some, Option.getD_some]

theorem pepParsed_iff (requestsList : List PepRequest) (message : List Char) (talId : UInt16) :
    PepParsed requestsList message talId ↔
      MessageClear wellFormedPep PepRequest.type parsePepCommand (lines message) ∧
        LastStored message := by
  rw [← messageClear_iff fun _ _ => parsePepCommand_of_wellFormed]
  constructor
  · rintro ⟨accepted, -, status, terminal⟩
    refine ⟨⟨accepted, by simpa [parsePepMessage] using status⟩, fun some request last => ?_⟩
    rw [← accepted] at some ⊢
    obtain ⟨entry, mem, same⟩ := terminal (status.mpr some)
    exact ⟨entry, mem, same.trans (terminal_eq requestsList talId last)⟩
  · rintro ⟨⟨accepted, status⟩, lastStored⟩
    have status : (parsePepMessage requestsList message talId).1 = true ↔
        (parseMessage parsePepCommand PepRequest.type message).accepted ≠ [] := by
      simpa [parsePepMessage] using status
    refine ⟨accepted, ?_, status, fun returned => ?_⟩
    · rw [← accepted]
      rfl
    · have some := status.mp returned
      have last := some
      rw [parseMessage_eq] at last
      obtain ⟨request, last⟩ := Option.ne_none_iff_exists'.mp (last_ne_none last)
      rw [last_after] at last
      rw [accepted] at some ⊢
      rw [terminal_eq requestsList talId last]
      exact lastStored some request last

theorem svnoParsed_iff (requestsList : List SvnoRequest) (message : List Char) :
    SvnoParsed requestsList message ↔
      MessageClear wellFormedSvno SvnoRequest.type parseSvnoCommand (lines message) := by
  rw [← messageClear_iff fun _ _ => parseSvnoCommand_of_wellFormed]
  constructor
  · rintro ⟨accepted, -, status⟩
    exact ⟨accepted, by simpa [parseSvnoMessage] using status⟩
  · rintro ⟨accepted, status⟩
    refine ⟨accepted, ?_, by simpa [parseSvnoMessage] using status⟩
    rw [← accepted]
    rfl

/-- Messages are stored as they should be exactly when their lines are clear and, for the PEP, the
last line parsed is for a terminal of the requests stored. -/
theorem parsed_iff (pepRequests : List PepRequest) (svnoRequests : List SvnoRequest)
    (message : List Char) (talId : UInt16) :
    (PepParsed pepRequests message talId ↔
      MessageClear wellFormedPep PepRequest.type parsePepCommand (lines message) ∧
        LastStored message) ∧
    (SvnoParsed svnoRequests message ↔
      MessageClear wellFormedSvno SvnoRequest.type parseSvnoCommand (lines message)) :=
  ⟨pepParsed_iff pepRequests message talId, svnoParsed_iff svnoRequests message⟩

/-- The terminal of a request that is refused for its type is returned. -/
theorem refused_terminal :
    ¬ ((∀ requestsList message talId, PepParsed requestsList message talId) ∧
      ∀ requestsList message, SvnoParsed requestsList message) := by
  rintro ⟨pep, -⟩
  obtain ⟨entry, mem, same⟩ := (pep [] "1:5:1:2:3\n0:6:1:2:3".toList 0).terminal (by decide)
  revert entry
  decide

end OpenSand.NccInterface
